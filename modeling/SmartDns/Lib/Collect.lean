import Mathlib.Data.List.Basic
import SmartDns.Lib.Keyed
set_option autoImplicit false

/-!
A loop that reads items and keeps what it has not seen. What it keeps is read as itself, where
each thing it keeps is.
-/

namespace Collect

variable {α β ε : Type} [DecidableEq β]

/-- An item may give nothing. -/
def collectFrom (f : α → Except ε (Option β)) (seen : List β) : List α → Except ε (List β)
  | [] => .ok []
  | a :: items => do
    match ← f a with
    | none => collectFrom f seen items
    | some b =>
      if b ∈ seen then collectFrom f seen items
      else do
        let rest ← collectFrom f (b :: seen) items
        .ok (b :: rest)

def collect (f : α → Except ε (Option β)) (items : List α) : Except ε (List β) :=
  collectFrom f [] items

variable {f : α → Except ε (Option β)}

theorem collectFrom_none {a : α} (h : f a = .ok none) (seen : List β) (items : List α) :
    collectFrom f seen (a :: items) = collectFrom f seen items := by
  simp [collectFrom,h,bind,Except.bind]

theorem collectFrom_seen {a : α} {b : β} {seen : List β} (h : f a = .ok (some b)) (hb : b ∈ seen)
    (items : List α) : collectFrom f seen (a :: items) = collectFrom f seen items := by
  simp [collectFrom,h,hb,bind,Except.bind]

theorem collectFrom_new {a : α} {b : β} {seen : List β} (h : f a = .ok (some b)) (hb : b ∉ seen)
    (items : List α) :
    collectFrom f seen (a :: items) = (collectFrom f (b :: seen) items).map (b :: ·) := by
  simp only [collectFrom,h,hb,bind,Except.bind,if_false]
  cases collectFrom f (b :: seen) items <;> rfl

theorem collectFrom_error {a : α} {e : ε} (h : f a = .error e) (seen : List β) (items : List α) :
    collectFrom f seen (a :: items) = .error e := by
  simp [collectFrom,h,bind,Except.bind]

theorem collectFrom_map {γ : Type} (g : γ → α) (seen : List β) (items : List γ) :
    collectFrom f seen (items.map g) = collectFrom (fun c => f (g c)) seen items := by
  induction items generalizing seen with
  | nil => rfl
  | cons c items ih =>
    simp only [List.map_cons,collectFrom,ih]

theorem collectFrom_kept {seen bs : List β} {items : List α}
    (h : collectFrom f seen items = .ok bs) :
    bs.Nodup ∧ ∀ b ∈ bs, b ∉ seen ∧ ∃ a ∈ items, f a = .ok (some b) := by
  induction items generalizing seen bs with
  | nil =>
    cases h
    simp
  | cons a items ih =>
    have hskip (h : collectFrom f seen items = .ok bs) :
        bs.Nodup ∧ ∀ b ∈ bs, b ∉ seen ∧ ∃ a' ∈ a :: items, f a' = .ok (some b) := by
      obtain ⟨hnodup,hkept⟩ := ih h
      refine ⟨hnodup,fun b hb => ?_⟩
      obtain ⟨hnew,a',ha',hread⟩ := hkept b hb
      exact ⟨hnew,a',List.mem_cons_of_mem a ha',hread⟩
    cases hf : f a with
    | error e =>
      rw [collectFrom_error hf] at h
      cases h
    | ok read =>
      cases read with
      | none =>
        rw [collectFrom_none hf] at h
        exact hskip h
      | some b =>
        by_cases hb : b ∈ seen
        · rw [collectFrom_seen hf hb] at h
          exact hskip h
        · rw [collectFrom_new hf hb] at h
          cases hrest : collectFrom f (b :: seen) items with
          | error e =>
            rw [hrest] at h
            cases h
          | ok rest =>
            rw [hrest] at h
            cases h
            obtain ⟨hnodup,hkept⟩ := ih hrest
            refine ⟨List.nodup_cons.mpr ⟨fun hmem => ?_,hnodup⟩,?_⟩
            · exact (hkept b hmem).1 List.mem_cons_self
            · refine List.forall_mem_cons.mpr ⟨⟨hb,a,List.mem_cons_self,hf⟩,fun c hc => ?_⟩
              obtain ⟨hnew,a',ha',hread⟩ := hkept c hc
              exact ⟨fun hseen => hnew (List.mem_cons_of_mem b hseen),a',
                List.mem_cons_of_mem a ha',hread⟩

theorem collectFrom_self {g : β → α} {seen bs : List β} (hnodup : bs.Nodup)
    (hnew : ∀ b ∈ bs, b ∉ seen) (hread : ∀ b ∈ bs, f (g b) = .ok (some b)) :
    collectFrom f seen (bs.map g) = .ok bs := by
  induction bs generalizing seen with
  | nil => rfl
  | cons b bs ih =>
    obtain ⟨hb,hnodup⟩ := List.nodup_cons.mp hnodup
    have hrest : ∀ c ∈ bs, c ∉ b :: seen := by
      intro c hc hmem
      cases List.mem_cons.mp hmem with
      | inl heq => exact hb (heq ▸ hc)
      | inr hseen => exact hnew c (List.mem_cons_of_mem b hc) hseen
    rw [List.map_cons,collectFrom_new (hread b List.mem_cons_self) (hnew b List.mem_cons_self),
      ih hnodup hrest fun c hc => hread c (List.mem_cons_of_mem b hc)]
    rfl

/-- What is kept is kept again. -/
theorem collect_again {g : β → α} {items : List α} {bs : List β} (h : collect f items = .ok bs)
    (hread : ∀ a b, f a = .ok (some b) → f (g b) = .ok (some b)) :
    collect f (bs.map g) = .ok bs := by
  obtain ⟨hnodup,hkept⟩ := collectFrom_kept h
  refine collectFrom_self hnodup (fun b hb => (hkept b hb).1) fun b hb => ?_
  obtain ⟨a,_,ha⟩ := (hkept b hb).2
  exact hread a b ha

/-- Where each item gives something, what is kept are the values as they first occur. -/
theorem collectFrom_first {seen bs kept : List β} {items : List α}
    (hseen : ∀ b, b ∈ seen ↔ b ∈ kept) (hitems : ∀ a ∈ items, f a ≠ .ok none)
    (h : collectFrom f seen items = .ok bs) :
    ∃ values : List β, items.map f = values.map (fun b => .ok (some b)) ∧
      values.foldl Keyed.insertNew kept = kept ++ bs := by
  induction items generalizing seen kept bs with
  | nil =>
    cases h
    exact ⟨[],rfl,(List.append_nil kept).symm⟩
  | cons a items ih =>
    obtain ⟨ha,hitems⟩ := List.forall_mem_cons.mp hitems
    cases hf : f a with
    | error e =>
      rw [collectFrom_error hf] at h
      cases h
    | ok read =>
      cases read with
      | none => exact absurd hf ha
      | some b =>
        by_cases hb : b ∈ seen
        · rw [collectFrom_seen hf hb] at h
          obtain ⟨values,hvalues,hkept⟩ := ih hseen hitems h
          refine ⟨b :: values,by rw [List.map_cons,List.map_cons,hf,hvalues],?_⟩
          rw [List.foldl_cons,Keyed.insertNew,if_pos ((hseen b).mp hb),hkept]
        · rw [collectFrom_new hf hb] at h
          cases hrest : collectFrom f (b :: seen) items with
          | error e =>
            rw [hrest] at h
            cases h
          | ok rest =>
            rw [hrest] at h
            cases h
            have hseen' (c : β) : c ∈ b :: seen ↔ c ∈ kept ++ [b] := by
              rw [List.mem_cons,List.mem_append,List.mem_singleton,hseen,or_comm]
            obtain ⟨values,hvalues,hkept⟩ := ih hseen' hitems hrest
            refine ⟨b :: values,by rw [List.map_cons,List.map_cons,hf,hvalues],?_⟩
            rw [List.foldl_cons,Keyed.insertNew,if_neg (mt (hseen b).mpr hb),hkept,
              List.append_assoc]
            rfl

end Collect
