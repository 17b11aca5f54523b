import Mathlib.Logic.Relation
import Mathlib.Data.List.Nodup
import Mathlib.Data.List.Chain
import Mathlib.Data.List.Perm.Subperm
import Mathlib.Order.WellFounded
set_option autoImplicit false

/-!
Depth-first search for a cycle. A search fails with the closed walk that it ran
into; a search that succeeds leaves only nodes below which every walk ends.
-/

namespace DepthFirst

variable {α : Type*}

def Edge (succ : α → List α) (a b : α) : Prop := b ∈ succ a

/-- Every walk from this node ends. -/
def Grounded (succ : α → List α) : α → Prop := Acc fun b a => Edge succ a b

/-- A walk that returns to where it started. -/
structure ClosedWalk (succ : α → List α) (walk : List α) : Prop where
  closes : ∃ a middle, walk = a :: middle ++ [a]
  steps : walk.IsChain (Edge succ)

theorem transGen_of_chain {succ : α → List α} {a b : α} {middle : List α}
    (h : (a :: middle ++ [b]).IsChain (Edge succ)) : Relation.TransGen (Edge succ) a b := by
  induction middle generalizing a with
  | nil => exact .single (by simpa using h)
  | cons c middle ih =>
    have hsplit := List.isChain_cons_cons.mp h
    exact .head hsplit.1 (ih hsplit.2)

theorem ClosedWalk.transGen {succ : α → List α} {walk : List α} (h : ClosedWalk succ walk) :
    ∃ a, Relation.TransGen (Edge succ) a a := by
  obtain ⟨a,middle,rfl⟩ := h.closes
  exact ⟨a,transGen_of_chain h.steps⟩

/-- A node on a cycle is not grounded. -/
theorem Grounded.acyclic {succ : α → List α} {a : α} (h : Grounded succ a) :
    ¬ Relation.TransGen (Edge succ) a a := by
  intro hcycle
  have hback : Relation.TransGen (fun b a => Edge succ a b) a a :=
    Relation.transGen_swap.mp hcycle
  have hacc := Acc.transGen h
  clear h hcycle
  induction hacc with
  | intro a _ ih => exact ih a hback hback

section Search
variable [DecidableEq α] (succ : α → List α)

/-- Visit `a` from the end of `path`, with the nodes that are done already. -/
def visit : Nat → List α → List α → α → Except (List α) (List α)
  | fuel, path, visited, a =>
    if a ∈ path then .error (path.dropWhile (· ≠ a) ++ [a])
    else if a ∈ visited then .ok visited
    else
      match fuel with
      | 0 => .error []
      | fuel+1 => do
        let visited ← (succ a).foldlM (visit fuel (path ++ [a])) visited
        pure (a :: visited)

def search (nodes : List α) : Except (List α) (List α) :=
  nodes.foldlM (visit succ nodes.length []) []

end Search

section Loop
variable {β ε : Type*} {f : β → α → Except ε β}

theorem foldlM_error {Q : ε → Prop} {l : List α} {b : β} {e : ε}
    (hf : ∀ b, ∀ a ∈ l, f b a = .error e → Q e) (h : l.foldlM f b = .error e) : Q e := by
  induction l generalizing b with
  | nil => simp [List.foldlM,pure,Except.pure] at h
  | cons a l ih =>
    rw [List.foldlM_cons] at h
    cases hfa : f b a with
    | error e' =>
      simp only [hfa,bind,Except.bind,Except.error.injEq] at h
      exact hf b a List.mem_cons_self (h ▸ hfa)
    | ok b' =>
      simp only [hfa,bind,Except.bind] at h
      exact ih (fun b a ha => hf b a (List.mem_cons_of_mem _ ha)) h

/-- A loop that keeps `I`, moves along `R`, and leaves each element `P`. -/
theorem foldlM_ok {I : β → Prop} {R : β → β → Prop} {P : α → β → Prop}
    (hrefl : ∀ b, R b b) (htrans : ∀ b c d, R b c → R c d → R b d)
    (hmono : ∀ a b c, R b c → P a b → P a c) {l : List α} {b b' : β}
    (hf : ∀ b, ∀ a ∈ l, ∀ c, I b → f b a = .ok c → I c ∧ R b c ∧ P a c)
    (hI : I b) (h : l.foldlM f b = .ok b') : I b' ∧ R b b' ∧ ∀ a ∈ l, P a b' := by
  induction l generalizing b with
  | nil =>
    simp only [List.foldlM,pure,Except.pure,Except.ok.injEq] at h
    subst h
    exact ⟨hI,hrefl b,by simp⟩
  | cons a l ih =>
    rw [List.foldlM_cons] at h
    cases hfa : f b a with
    | error e => simp [hfa,bind,Except.bind] at h
    | ok c =>
      simp only [hfa,bind,Except.bind] at h
      obtain ⟨hIc,hbc,hPa⟩ := hf b a List.mem_cons_self c hI hfa
      obtain ⟨hIb,hcb,hrest⟩ := ih (fun b a ha => hf b a (List.mem_cons_of_mem _ ha)) hIc h
      refine ⟨hIb,htrans b c b' hbc hcb,?_⟩
      intro x hx
      cases List.mem_cons.mp hx with
      | inl hxa => exact hxa ▸ hmono a c b' hcb hPa
      | inr hxl => exact hrest x hxl

end Loop

theorem nodup_snoc {l : List α} {a : α} (h : l.Nodup) (ha : a ∉ l) : (l ++ [a]).Nodup := by
  have hne : ∀ x ∈ l, x ≠ a := fun x hx hxa => ha (hxa ▸ hx)
  simpa [List.nodup_append,h] using hne

section Correctness
variable [DecidableEq α] {succ : α → List α}

/-- The nodes that are done stay grounded, none is lost, and the visited one joins them. -/
theorem visit_ok {fuel : Nat} {path visited done : List α} {a : α}
    (hvisited : ∀ x ∈ visited, Grounded succ x)
    (h : visit succ fuel path visited a = .ok done) :
    (∀ x ∈ done, Grounded succ x) ∧ visited ⊆ done ∧ a ∈ done := by
  induction fuel generalizing path visited done a with
  | zero =>
    unfold visit at h
    split at h
    · contradiction
    · split at h
      · rename_i _ ha
        cases h
        exact ⟨hvisited,List.Subset.refl _,ha⟩
      · contradiction
  | succ fuel ih =>
    unfold visit at h
    split at h
    · contradiction
    · split at h
      · rename_i _ ha
        cases h
        exact ⟨hvisited,List.Subset.refl _,ha⟩
      · cases hloop : (succ a).foldlM (visit succ fuel (path ++ [a])) visited with
        | error walk => simp [hloop,bind,Except.bind] at h
        | ok below =>
          simp only [hloop,bind,Except.bind,pure,Except.pure,Except.ok.injEq] at h
          subst h
          obtain ⟨hbelow,hsub,hsucc⟩ := foldlM_ok (I := fun v => ∀ x ∈ v, Grounded succ x)
            (R := fun v w => v ⊆ w) (P := fun x v => x ∈ v) (fun v => List.Subset.refl v)
            (fun _ _ _ => List.Subset.trans) (fun _ _ _ h₁ h₂ => h₁ h₂)
            (fun v x _ w hv hw => ih hv hw) hvisited hloop
          have ha : Grounded succ a := Acc.intro a fun x hx => hbelow x (hsucc x hx)
          refine ⟨?_,List.Subset.trans hsub (List.subset_cons_self a below),List.mem_cons_self⟩
          intro x hx
          cases List.mem_cons.mp hx with
          | inl hxa => exact hxa ▸ ha
          | inr hxb => exact hbelow x hxb

/-- What `visit` needs of its arguments: the path is a walk over distinct nodes that leads to
the visited one, and the fuel covers the nodes off the path. -/
structure OnPath (succ : α → List α) (nodes : List α) (fuel : Nat) (path : List α) (a : α) :
    Prop where
  walk : (path ++ [a]).IsChain (Edge succ)
  distinct : path.Nodup
  known : ∀ x ∈ path ++ [a], x ∈ nodes
  fuel : nodes.length ≤ fuel+path.length

theorem dropWhile_closedWalk {path : List α} {a : α} (hwalk : (path ++ [a]).IsChain (Edge succ))
    (ha : a ∈ path) : ClosedWalk succ (path.dropWhile (· ≠ a) ++ [a]) := by
  obtain ⟨l,r,hpath,hl⟩ := List.eq_append_cons_of_mem ha
  have hdrop : path.dropWhile (· ≠ a) = a :: r := by
    rw [hpath,List.dropWhile_append_of_pos]
    · simp
    · intro x hx
      have hne : x ≠ a := fun h => hl (h ▸ hx)
      simpa using hne
  refine ⟨⟨a,r,by rw [hdrop]⟩,?_⟩
  rw [hpath,List.append_assoc] at hwalk
  rw [hdrop]
  exact hwalk.right_of_append

/-- A search that fails has run into a closed walk; in particular it does not run out of fuel. -/
theorem visit_error {nodes : List α} (hnodes : ∀ x ∈ nodes, ∀ y ∈ succ x, y ∈ nodes)
    {fuel : Nat} {path visited walk : List α} {a : α} (hpath : OnPath succ nodes fuel path a)
    (h : visit succ fuel path visited a = .error walk) : ClosedWalk succ walk := by
  induction fuel generalizing path visited walk a with
  | zero =>
    unfold visit at h
    split at h
    · rename_i ha
      cases h
      exact dropWhile_closedWalk hpath.walk ha
    · rename_i ha
      have hlength : (path ++ [a]).length ≤ nodes.length := by
        have hdistinct : (path ++ [a]).Nodup := nodup_snoc hpath.distinct ha
        exact (hdistinct.subperm hpath.known).length_le
      have := hpath.fuel
      simp at hlength
      omega
  | succ fuel ih =>
    unfold visit at h
    split at h
    · rename_i ha
      cases h
      exact dropWhile_closedWalk hpath.walk ha
    · rename_i ha
      split at h
      · contradiction
      · cases hloop : (succ a).foldlM (visit succ fuel (path ++ [a])) visited with
        | ok below => simp [hloop,bind,Except.bind,pure,Except.pure] at h
        | error found =>
          simp only [hloop,bind,Except.bind,Except.error.injEq] at h
          subst h
          refine foldlM_error (fun v x hx hfail => ih ?_ hfail) hloop
          have hknown := hpath.known
          have hfuel := hpath.fuel
          refine ⟨?_,?_,?_,?_⟩
          · refine List.IsChain.append hpath.walk (List.isChain_singleton x) ?_
            simpa [Edge] using hx
          · exact nodup_snoc hpath.distinct ha
          · intro y hy
            cases List.mem_append.mp hy with
            | inl hy => exact hknown y hy
            | inr hy =>
              rw [List.mem_singleton.mp hy]
              exact hnodes a (hknown a (by simp)) x hx
          · simp only [List.length_append,List.length_singleton]
            omega

theorem search_ok {nodes done : List α} (h : search succ nodes = .ok done) :
    ∀ a ∈ nodes, Grounded succ a := by
  obtain ⟨hdone,-,hall⟩ := foldlM_ok (I := fun v => ∀ x ∈ v, Grounded succ x)
    (R := fun v w => v ⊆ w) (P := fun x v => x ∈ v) (fun v => List.Subset.refl v)
    (fun _ _ _ => List.Subset.trans) (fun _ _ _ h₁ h₂ => h₁ h₂)
    (fun v x _ w hv hw => visit_ok hv hw) (by simp) h
  exact fun a ha => hdone a (hall a ha)

theorem search_error {nodes walk : List α} (hnodes : ∀ x ∈ nodes, ∀ y ∈ succ x, y ∈ nodes)
    (h : search succ nodes = .error walk) : ClosedWalk succ walk :=
  foldlM_error (fun _ a ha hfail => visit_error hnodes
    ⟨List.isChain_singleton a,List.nodup_nil,by simpa using ha,by simp⟩ hfail) h

/-- The search fails exactly on the graphs with a cycle. -/
theorem search_error_iff {nodes : List α} (hnodes : ∀ x ∈ nodes, ∀ y ∈ succ x, y ∈ nodes)
    (hsource : ∀ x, succ x ≠ [] → x ∈ nodes) :
    (∃ walk, search succ nodes = .error walk) ↔ ∃ a, Relation.TransGen (Edge succ) a a := by
  constructor
  · intro h
    obtain ⟨walk,h⟩ := h
    exact (search_error hnodes h).transGen
  · intro h
    obtain ⟨a,ha⟩ := h
    cases hsearch : search succ nodes with
    | error walk => exact ⟨walk,rfl⟩
    | ok done =>
      obtain ⟨b,hb,-⟩ := Relation.TransGen.head'_iff.mp ha
      have hmem : a ∈ nodes := hsource a (List.ne_nil_of_mem hb)
      exact absurd ha (search_ok hsearch a hmem).acyclic

/-- After a search that succeeds the whole graph is well founded. -/
theorem search_wellFounded {nodes done : List α} (hsource : ∀ x, succ x ≠ [] → x ∈ nodes)
    (h : search succ nodes = .ok done) : WellFounded fun b a => Edge succ a b := by
  refine ⟨fun a => Acc.intro a fun b hb => ?_⟩
  have ha : Grounded succ a := search_ok h a (hsource a (List.ne_nil_of_mem hb))
  exact ha.inv hb

end Correctness

end DepthFirst
