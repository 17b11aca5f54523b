import Mathlib.Algebra.Ring.Nat
import Mathlib.Data.Option.Basic
set_option autoImplicit false

/-!
Systems given by a step function on states and labels, where a step may be
impossible. A run is a list of labels; what always holds along a run is shown by an
invariant, which may rest on a condition that every step of the run meets.
-/

namespace Transition

variable {σ ℓ : Type*} (step : σ → ℓ → Option σ)

/-- The state after a run, if all its steps are possible. -/
def run (s : σ) : List ℓ → Option σ
  | [] => some s
  | l :: ls => (step s l).bind fun s' => run s' ls

/-- `P` holds in every state the run comes to. -/
def Always (P : σ → Prop) (s : σ) : List ℓ → Prop
  | [] => P s
  | l :: ls => P s ∧ ∀ s', step s l = some s' → Always P s' ls

/-- Every step the run takes is taken where `ok` allows it. -/
def Guarded (ok : σ → ℓ → Prop) (s : σ) : List ℓ → Prop
  | [] => True
  | l :: ls => ∀ s', step s l = some s' → ok s l ∧ Guarded ok s' ls

variable {step} {P Q I : σ → Prop} {ok : σ → ℓ → Prop}

theorem Always.here {s : σ} {ls : List ℓ} (h : Always step P s ls) : P s := by
  cases ls with
  | nil => exact h
  | cons l ls => exact h.1

theorem Always.mono {s : σ} {ls : List ℓ} (h : Always step P s ls) (hPQ : ∀ s, P s → Q s) :
    Always step Q s ls := by
  induction ls generalizing s with
  | nil => exact hPQ s h
  | cons l ls ih => exact ⟨hPQ s h.1,fun s' hs => ih (h.2 s' hs)⟩

/-- The run lemma for an invariant that every step keeps. -/
theorem always_of_step {s : σ} {ls : List ℓ} (hs : I s)
    (hstep : ∀ s l s', I s → step s l = some s' → I s') : Always step I s ls := by
  induction ls generalizing s with
  | nil => exact hs
  | cons l ls ih => exact ⟨hs,fun s' hs' => ih (hstep s l s' hs hs')⟩

/-- The condition holds of the last step of a guarded run. -/
theorem Guarded.last {s t t' : σ} {ls : List ℓ} {l : ℓ} (h : Guarded step ok s (ls ++ [l]))
    (hrun : run step s ls = some t) (hstep : step t l = some t') : ok t l := by
  induction ls generalizing s with
  | nil =>
    cases hrun
    exact (h t' hstep).1
  | cons l' ls ih =>
    obtain ⟨u,hu,hrest⟩ := Option.bind_eq_some_iff.mp hrun
    exact ih (h u hu).2 hrest

/-- Two conditions that agree on every possible step guard the same runs. -/
theorem guarded_congr {ok' : σ → ℓ → Prop}
    (h : ∀ s l s', step s l = some s' → (ok s l ↔ ok' s l)) (s : σ) (ls : List ℓ) :
    Guarded step ok s ls ↔ Guarded step ok' s ls := by
  induction ls generalizing s with
  | nil => exact Iff.rfl
  | cons l ls ih =>
    refine forall_congr' fun s' => forall_congr' fun hs' => ?_
    exact and_congr (h s l s' hs') (ih s')

/-- The same where they agree on the steps from states that keep an invariant. -/
theorem guarded_congr_of_invariant {ok' : σ → ℓ → Prop} {s : σ} {ls : List ℓ} (hs : I s)
    (hstep : ∀ s l s', I s → step s l = some s' → I s')
    (h : ∀ s l s', I s → step s l = some s' → (ok s l ↔ ok' s l)) :
    Guarded step ok s ls ↔ Guarded step ok' s ls := by
  induction ls generalizing s with
  | nil => exact Iff.rfl
  | cons l ls ih =>
    refine forall_congr' fun s' => forall_congr' fun hs' => ?_
    exact and_congr (h s l s' hs hs') (ih (hstep s l s' hs hs'))

/-- A condition on labels alone guards the runs whose labels all meet it. -/
theorem guarded_of_labels {allowed : ℓ → Prop} {ls : List ℓ} (h : ∀ l ∈ ls, allowed l) (s : σ) :
    Guarded step (fun _ l => allowed l) s ls := by
  induction ls generalizing s with
  | nil => trivial
  | cons l ls ih =>
    intro s' _
    exact ⟨h l List.mem_cons_self,ih (fun l' hl' => h l' (List.mem_cons_of_mem l hl')) s'⟩

/-- The run lemma for an invariant that the allowed steps keep. -/
theorem Guarded.always {s : σ} {ls : List ℓ} (h : Guarded step ok s ls) (hs : I s)
    (hstep : ∀ s l s', I s → ok s l → step s l = some s' → I s') : Always step I s ls := by
  induction ls generalizing s with
  | nil => exact hs
  | cons l ls ih =>
    exact ⟨hs,fun s' hs' => ih (h s' hs').2 (hstep s l s' hs (h s' hs').1 hs')⟩

/-- What holds always allows every step, when a step that is not allowed shows at once. -/
theorem Always.guarded {s : σ} {ls : List ℓ} (h : Always step P s ls) (hs : I s)
    (hstep : ∀ s l s', I s → step s l = some s' → I s')
    (hshows : ∀ s l s', I s → step s l = some s' → P s' → ok s l) : Guarded step ok s ls := by
  induction ls generalizing s with
  | nil => trivial
  | cons l ls ih =>
    intro s' hs'
    exact ⟨hshows s l s' hs hs' (h.2 s' hs').here,ih (h.2 s' hs') (hstep s l s' hs hs')⟩

/-- A run is guarded, or it ends in what a step that is not allowed leads to for good. -/
theorem guarded_or {D : σ → Prop} {s s' : σ} {ls : List ℓ} (hrun : run step s ls = some s')
    (hs : I s) (hstep : ∀ s l s', I s → step s l = some s' → I s')
    (hbad : ∀ s l s', I s → ¬ ok s l → step s l = some s' → D s')
    (hkeep : ∀ s l s', I s → D s → step s l = some s' → D s') :
    Guarded step ok s ls ∨ D s' := by
  have hlasts : ∀ (ls : List ℓ) (s : σ), I s → D s → run step s ls = some s' → D s' := by
    intro ls
    induction ls with
    | nil =>
      intro s _ hd hrun
      cases hrun
      exact hd
    | cons l ls ih =>
      intro s hi hd hrun
      obtain ⟨t,ht,hrest⟩ := Option.bind_eq_some_iff.mp hrun
      exact ih t (hstep s l t hi ht) (hkeep s l t hi hd ht) hrest
  induction ls generalizing s with
  | nil => exact .inl trivial
  | cons l ls ih =>
    obtain ⟨t,ht,hrest⟩ := Option.bind_eq_some_iff.mp hrun
    have hi := hstep s l t hs ht
    by_cases hok : ok s l
    · refine (ih hrest hi).imp_left fun hguarded t' ht' => ?_
      cases ht.symm.trans ht'
      exact ⟨hok,hguarded⟩
    · exact .inr (hlasts ls t hi (hbad s l t hs hok ht) hrest)

/-- Where a run ends, what always holds along it holds. -/
theorem Always.final {s s' : σ} {ls : List ℓ} (h : Always step P s ls)
    (hrun : run step s ls = some s') : P s' := by
  induction ls generalizing s with
  | nil =>
    cases hrun
    exact h
  | cons l ls ih =>
    obtain ⟨t,ht,hrest⟩ := Option.bind_eq_some_iff.mp hrun
    exact ih (h.2 t ht) hrest

/-- The run lemma for what the labels taken so far say of the state they led to. -/
theorem run_history {H : List ℓ → σ → Prop} {s s' : σ} {ls : List ℓ} (hs : H [] s)
    (hstep : ∀ past s l s', H past s → step s l = some s' → H (past ++ [l]) s')
    (hrun : run step s ls = some s') : H ls s' := by
  have hall : ∀ (ls past : List ℓ) (s : σ), H past s → run step s ls = some s' →
      H (past ++ ls) s' := by
    intro ls
    induction ls with
    | nil =>
      intro past s h hrun
      cases hrun
      rw [List.append_nil]
      exact h
    | cons l ls ih =>
      intro past s h hrun
      obtain ⟨t,ht,hrest⟩ := Option.bind_eq_some_iff.mp hrun
      have hpast := ih (past ++ [l]) t (hstep past s l t h ht) hrest
      rwa [List.append_assoc] at hpast
  exact hall ls [] s hs hrun

/-- Steps that use up what the others bring are as many as these allow. -/
theorem run_cost {potential : σ → Nat} {cost gain : ℓ → Nat} {s s' : σ} {ls : List ℓ} (hs : I s)
    (hkeeps : ∀ s l s', I s → step s l = some s' → I s')
    (hstep : ∀ s l s', I s → step s l = some s' → potential s' + cost l ≤ potential s + gain l)
    (hrun : run step s ls = some s') :
    potential s' + (ls.map cost).sum ≤ potential s + (ls.map gain).sum := by
  induction ls generalizing s with
  | nil =>
    cases hrun
    exact Nat.le_refl _
  | cons l ls ih =>
    obtain ⟨t,ht,hrest⟩ := Option.bind_eq_some_iff.mp hrun
    have hfirst := hstep s l t hs ht
    have hothers := ih (hkeeps s l t hs ht) hrest
    rw [List.map_cons,List.sum_cons,List.map_cons,List.sum_cons]
    omega

/-! ### Parties in a list, of which one steps -/

section
variable {α : Type*} {items : List α} {k : Nat} {old : α}

theorem set_middle (h : items[k]? = some old) :
    ∃ a b, items = a ++ old :: b ∧ ∀ new, items.set k new = a ++ new :: b := by
  obtain ⟨hk,hold⟩ := List.getElem?_eq_some_iff.mp h
  refine ⟨items.take k,items.drop (k+1),?_,fun new => ?_⟩
  · rw [← hold,List.getElem_cons_drop,List.take_append_drop]
  · exact List.set_eq_take_append_cons_drop.trans (if_pos hk)

/-- One party is replaced for which nothing was to be shown. -/
theorem forall_mem_set_iff {R : α → Prop} {new : α} (h : items[k]? = some old) (hold : R old) :
    (∀ x ∈ items.set k new, R x) ↔ (∀ x ∈ items, R x) ∧ R new := by
  obtain ⟨a,b,hitems,hset⟩ := set_middle h
  rw [hitems] at hset ⊢
  simp only [hset,List.forall_mem_append,List.forall_mem_cons]
  constructor
  · intro hall
    exact ⟨⟨hall.1,hold,hall.2.2⟩,hall.2.1⟩
  · intro hall
    exact ⟨hall.1.1,hall.2,hall.1.2.2⟩

theorem sum_set (f : α → Nat) (h : items[k]? = some old) (new : α) :
    ((items.set k new).map f).sum + f old = (items.map f).sum + f new := by
  obtain ⟨a,b,hitems,hset⟩ := set_middle h
  rw [hset,hitems]
  simp only [List.map_append,List.map_cons,List.sum_append,List.sum_cons]
  omega

end

end Transition
