import Mathlib.Data.List.Basic
set_option autoImplicit false

/-! `QueryLogStore`: the newest entries of the query log, with the ids they were given. -/

namespace SmartDns

structure QueryLogEntry (P : Type) where
  id : Nat
  payload : P
  deriving DecidableEq, Repr

@[ext]
structure QueryLogStore (P : Type) where
  maxEntries : Nat
  entries : List (QueryLogEntry P)
  nextId : Nat
  fits : entries.length ≤ maxEntries

namespace QueryLogStore

variable {P : Type}

/-- What `deque(l, maxlen=n)` keeps of a list. -/
def newest {α : Type} (n : Nat) (l : List α) : List α := l.drop (l.length-n)

theorem newest_length {α : Type} (n : Nat) (l : List α) :
    (newest n l).length = min n l.length := by
  simp only [newest,List.length_drop]
  omega

theorem newest_of_length_le {α : Type} {n : Nat} {l : List α} (h : l.length ≤ n) :
    newest n l = l := by
  have hzero : l.length-n = 0 := by omega
  simp [newest,hzero]

def new (maxEntries : Nat) : QueryLogStore P := ⟨maxEntries,[],1,Nat.zero_le _⟩

def resize (s : QueryLogStore P) (maxEntries : Nat) : QueryLogStore P :=
  if maxEntries = s.maxEntries then s
  else
    { s with
      maxEntries := maxEntries
      entries := newest maxEntries s.entries
      fits := by
        rw [newest_length]
        omega }

/-- `deque.append`: a full deque loses its oldest entry. -/
def append (s : QueryLogStore P) (payload : P) : QueryLogStore P :=
  { s with
    entries := newest s.maxEntries (s.entries ++ [⟨s.nextId,payload⟩])
    nextId := s.nextId+1
    fits := by
      rw [newest_length]
      omega }

theorem resize_maxEntries (s : QueryLogStore P) (n : Nat) : (s.resize n).maxEntries = n := by
  unfold resize
  split
  · rename_i h
    exact h.symm
  · rfl

theorem resize_nextId (s : QueryLogStore P) (n : Nat) : (s.resize n).nextId = s.nextId := by
  unfold resize
  split <;> rfl

theorem resize_entries (s : QueryLogStore P) (n : Nat) :
    (s.resize n).entries = newest n s.entries := by
  unfold resize
  split
  · rename_i h
    exact (newest_of_length_le (h ▸ s.fits)).symm
  · rfl

/-- Sizes that leave the store as it is: none drops an entry and the last is the old one. -/
def KeptBy (s : QueryLogStore P) (sizes : List Nat) : Prop :=
  (∀ n ∈ sizes, s.entries.length ≤ n) ∧ sizes.getLastD s.maxEntries = s.maxEntries

theorem foldl_resize_maxEntries (s : QueryLogStore P) (sizes : List Nat) :
    (sizes.foldl resize s).maxEntries = sizes.getLastD s.maxEntries := by
  induction sizes generalizing s with
  | nil => rfl
  | cons n sizes ih => rw [List.foldl_cons,ih,resize_maxEntries,List.getLastD_cons]

theorem foldl_resize_nextId (s : QueryLogStore P) (sizes : List Nat) :
    (sizes.foldl resize s).nextId = s.nextId := by
  induction sizes generalizing s with
  | nil => rfl
  | cons n sizes ih => rw [List.foldl_cons,ih,resize_nextId]

theorem resize_length (s : QueryLogStore P) (n : Nat) :
    (s.resize n).entries.length = min n s.entries.length := by
  rw [resize_entries,newest_length]

theorem foldl_resize_length_le (s : QueryLogStore P) (sizes : List Nat) :
    (sizes.foldl resize s).entries.length ≤ s.entries.length := by
  induction sizes generalizing s with
  | nil => exact Nat.le_refl _
  | cons n sizes ih =>
    have hrest := ih (s.resize n)
    have hone := s.resize_length n
    rw [List.foldl_cons]
    omega

/-- An entry that one size has no room for is gone for good. -/
theorem foldl_resize_length_le_of_mem (s : QueryLogStore P) {sizes : List Nat} {n : Nat}
    (h : n ∈ sizes) : (sizes.foldl resize s).entries.length ≤ n := by
  induction sizes generalizing s with
  | nil => cases h
  | cons k sizes ih =>
    rw [List.foldl_cons]
    cases List.mem_cons.mp h with
    | inl heq =>
      have hrest := foldl_resize_length_le (s.resize k) sizes
      have hone := s.resize_length k
      omega
    | inr hmem => exact ih (s.resize k) hmem

theorem foldl_resize_entries {s : QueryLogStore P} {sizes : List Nat}
    (h : ∀ n ∈ sizes, s.entries.length ≤ n) : (sizes.foldl resize s).entries = s.entries := by
  induction sizes generalizing s with
  | nil => rfl
  | cons n sizes ih =>
    have hkeep : (s.resize n).entries = s.entries := by
      rw [resize_entries,newest_of_length_le (h n List.mem_cons_self)]
    rw [List.foldl_cons,ih,hkeep]
    intro k hk
    rw [hkeep]
    exact h k (List.mem_cons_of_mem n hk)

theorem foldl_resize_eq_iff {s : QueryLogStore P} {sizes : List Nat} :
    sizes.foldl resize s = s ↔ s.KeptBy sizes := by
  constructor
  · intro h
    constructor
    · intro n hn
      have hlength := foldl_resize_length_le_of_mem s hn
      rwa [h] at hlength
    · rw [← foldl_resize_maxEntries,h]
  · intro h
    ext1
    · rw [foldl_resize_maxEntries,h.2]
    · exact foldl_resize_entries h.1
    · exact foldl_resize_nextId s sizes

end QueryLogStore

end SmartDns
