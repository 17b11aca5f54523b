import Mathlib.Data.Finset.Basic
import SmartDns.Lib.Exec
import SmartDns.Lib.Keyed
set_option autoImplicit false

/-!
Dictionaries of sets: a list of the keys with their values, in the order in which they come in.
What matters of one is which values it holds under which key. A loop that fills one is a sum:
what it holds afterwards is what its rounds add.
-/

/-- A dictionary of sets. -/
abbrev Multimap (κ β : Type) := List (κ × List β)

namespace Multimap

variable {κ β : Type} [DecidableEq κ] [DecidableEq β]

/-- `setdefault(key, set()).add(value)`. -/
def add (d : Multimap κ β) (key : κ) (value : β) : Multimap κ β :=
  Keyed.put Prod.fst (fun old new => (old.1,new.2.foldl Keyed.insertNew old.2)) d (key,[value])

omit [DecidableEq κ] [DecidableEq β] in
def Holds (d : Multimap κ β) (key : κ) (value : β) : Prop :=
  ∃ values, (key,values) ∈ d ∧ value ∈ values

variable {d : Multimap κ β} {key key' : κ} {value value' : β}

omit [DecidableEq κ] [DecidableEq β] in
theorem holds_cons {values : List β} : Holds ((key,values) :: d) key' value' ↔
    key' = key ∧ value' ∈ values ∨ Holds d key' value' := by
  simp only [Holds,List.mem_cons,Prod.mk.injEq,or_and_right,exists_or]
  refine or_congr_left ⟨?_,?_⟩
  · intro h
    obtain ⟨_,⟨rfl,rfl⟩,hvalue⟩ := h
    exact ⟨rfl,hvalue⟩
  · intro h
    exact ⟨values,⟨h.1,rfl⟩,h.2⟩

omit [DecidableEq κ] [DecidableEq β] in
theorem holds_mergeSort {le : κ × List β → κ × List β → Bool} :
    Holds (d.mergeSort le) key value ↔ Holds d key value := by
  simp only [Holds,List.mem_mergeSort]

theorem add_cons {values : List β} : add ((key,values) :: d) key' value' =
    if key = key' then (key,Keyed.insertNew values value') :: d
    else (key,values) :: add d key' value' := rfl

theorem holds_add : Holds (add d key value) key' value' ↔
    Holds d key' value' ∨ key' = key ∧ value' = value := by
  induction d with
  | nil => simp [Holds,add,Keyed.put,and_assoc]
  | cons item d ih =>
    obtain ⟨k,values⟩ := item
    rw [add_cons]
    split
    · rename_i hk
      rw [holds_cons,holds_cons,Keyed.mem_insertNew,hk]
      tauto
    · rw [holds_cons,holds_cons,ih,or_assoc]

/-- Each key once, and with a value. -/
structure Proper (d : Multimap κ β) : Prop where
  distinct : Keyed.Distinct Prod.fst d
  nonempty : ∀ item ∈ d, item.2 ≠ []

omit [DecidableEq κ] [DecidableEq β] in
theorem proper_nil : Proper ([] : Multimap κ β) := ⟨List.nodup_nil,by simp⟩

omit [DecidableEq κ] [DecidableEq β] in
theorem Proper.mergeSort (h : Proper d) (le : κ × List β → κ × List β → Bool) :
    Proper (d.mergeSort le) where
  distinct := ((List.mergeSort_perm d le).map Prod.fst).nodup_iff.mpr h.distinct
  nonempty item hitem := h.nonempty item (List.mem_mergeSort.mp hitem)

omit [DecidableEq κ] [DecidableEq β] in
theorem Proper.holds (h : Proper d) {item : κ × List β} (hitem : item ∈ d) :
    ∃ value, d.Holds item.1 value := by
  obtain ⟨value,hvalue⟩ := List.exists_mem_of_ne_nil _ (h.nonempty item hitem)
  exact ⟨value,item.2,hitem,hvalue⟩

theorem add_nonempty (h : ∀ item ∈ d, item.2 ≠ []) : ∀ item ∈ add d key value, item.2 ≠ [] := by
  have hinsert : ∀ values : List β, Keyed.insertNew values value ≠ [] := by
    intro values hnil
    have hmem : value ∈ Keyed.insertNew values value := Keyed.mem_insertNew.mpr (.inr rfl)
    rw [hnil] at hmem
    contradiction
  induction d with
  | nil => simp [add,Keyed.put]
  | cons first d ih =>
    obtain ⟨k,values⟩ := first
    rw [List.forall_mem_cons] at h
    rw [add_cons]
    split
    · exact List.forall_mem_cons.mpr ⟨hinsert values,h.2⟩
    · exact List.forall_mem_cons.mpr ⟨h.1,ih h.2⟩

theorem Proper.add (h : Proper d) (key : κ) (value : β) : Proper (d.add key value) where
  distinct := by
    unfold Multimap.add
    refine Keyed.put_distinct ?_ h.distinct
    intro old new
    rfl
  nonempty := add_nonempty h.nonempty

/-! ### Loops that fill one -/

section
variable {ε α κ' : Type}

/-- A step that ends well just when `fits`, and then holds what `R` says in addition. -/
structure Adds (step : Multimap κ β → Except ε (Multimap κ β)) (R : κ → β → Prop)
    (fits : Prop) : Prop where
  ok_iff : ∀ d, (∃ d', step d = .ok d') ↔ fits
  holds : ∀ {d d'}, step d = .ok d' → ∀ key value, d'.Holds key value ↔
    d.Holds key value ∨ R key value
  proper : ∀ {d d'}, step d = .ok d' → Proper d → Proper d'

namespace Adds

omit [DecidableEq κ] [DecidableEq β] in
theorem skip : Adds (fun d : Multimap κ β => (.ok d : Except ε (Multimap κ β)))
    (fun _ _ => False) True where
  ok_iff d := by simp
  holds h key value := by
    cases h
    simp
  proper h hd := by
    cases h
    exact hd

theorem single (key : κ) (value : β) :
    Adds (fun d => (.ok (d.add key value) : Except ε (Multimap κ β)))
      (fun k v => k = key ∧ v = value) True where
  ok_iff d := by simp
  holds h k v := by
    cases h
    exact holds_add
  proper h hd := by
    cases h
    exact hd.add key value

omit [DecidableEq κ] [DecidableEq β] in
theorem bind {x : Except ε α} {step : α → Multimap κ β → Except ε (Multimap κ β)}
    {R : α → κ → β → Prop} {fits : α → Prop} (h : ∀ a, Adds (step a) (R a) (fits a)) :
    Adds (fun d => x >>= fun a => step a d) (fun k v => ∃ a, x = .ok a ∧ R a k v)
      (∃ a, x = .ok a ∧ fits a) where
  ok_iff d := by
    simp only [← (h _).ok_iff d,Exec.except_bind_eq_ok,← exists_and_left]
    exact exists_comm
  holds hstep k v := by
    obtain ⟨a,ha,hstep⟩ := Exec.except_bind_eq_ok.mp hstep
    rw [(h a).holds hstep,ha]
    simp
  proper hstep hd := by
    obtain ⟨a,_,hstep⟩ := Exec.except_bind_eq_ok.mp hstep
    exact (h a).proper hstep hd

omit [DecidableEq κ] [DecidableEq β] in
theorem congr {step : Multimap κ β → Except ε (Multimap κ β)} {R R' : κ → β → Prop}
    {fits fits' : Prop} (h : Adds step R fits) (hR : ∀ k v, R k v ↔ R' k v)
    (hfits : fits ↔ fits') : Adds step R' fits' where
  ok_iff d := (h.ok_iff d).trans hfits
  holds hstep k v := (h.holds hstep k v).trans (or_congr_right (hR k v))
  proper := h.proper

omit [DecidableEq κ] [DecidableEq β] in
theorem foldlM {step : Multimap κ β → α → Except ε (Multimap κ β)} {R : α → κ → β → Prop}
    {fits : α → Prop} (h : ∀ x, Adds (fun d => step d x) (R x) (fits x)) (xs : List α) :
    Adds (fun d => xs.foldlM step d) (fun k v => ∃ x ∈ xs, R x k v) (∀ x ∈ xs, fits x) := by
  induction xs with
  | nil => exact skip.congr (by simp) (by simp)
  | cons x xs ih =>
    refine ⟨fun d => ?_,fun hstep key value => ?_,fun hstep hd => ?_⟩
    · rw [List.forall_mem_cons,← (h x).ok_iff d]
      simp only [List.foldlM_cons,Exec.except_bind_eq_ok]
      constructor
      · intro hsome
        obtain ⟨_,d',hd',hrest⟩ := hsome
        exact ⟨⟨d',hd'⟩,(ih.ok_iff d').mp ⟨_,hrest⟩⟩
      · intro hboth
        obtain ⟨⟨d',hd'⟩,hrest⟩ := hboth
        obtain ⟨d'',hd''⟩ := (ih.ok_iff d').mpr hrest
        exact ⟨d'',d',hd',hd''⟩
    · rw [List.foldlM_cons] at hstep
      obtain ⟨d',hd',hrest⟩ := Exec.except_bind_eq_ok.mp hstep
      rw [ih.holds hrest,(h x).holds hd',List.exists_mem_cons_iff,or_assoc]
    · rw [List.foldlM_cons] at hstep
      obtain ⟨d',hd',hrest⟩ := Exec.except_bind_eq_ok.mp hstep
      exact ih.proper hrest ((h x).proper hd' hd)

end Adds

/-- The keys of each value, under what `f` makes of the value. -/
def invert (f : β → Except ε κ') [DecidableEq κ'] (d : Multimap κ β) :
    Except ε (Multimap κ' κ) :=
  d.foldlM (fun inverted item => item.2.foldlM (fun inverted value => do
    let key ← f value
    pure (add inverted key item.1)) inverted) []

variable [DecidableEq κ'] {f : β → Except ε κ'} {inverted : Multimap κ' κ}

omit [DecidableEq β] in
theorem invert_adds (d : Multimap κ β) : Adds (fun start => d.foldlM (fun inverted item =>
      item.2.foldlM (fun inverted value => do
        let key ← f value
        pure (add inverted key item.1)) inverted) start)
    (fun key' key => ∃ value, d.Holds key value ∧ f value = .ok key')
    (∀ key value, d.Holds key value → ∃ key', f value = .ok key') := by
  refine (Adds.foldlM (fun item : κ × List β => Adds.foldlM (fun value =>
    Adds.bind (x:=f value) (fun key => Adds.single key item.1)) item.2) d).congr ?_ ?_
  · intro key' key
    constructor
    · intro h
      obtain ⟨item,hitem,value,hvalue,_,hkey,rfl,rfl⟩ := h
      exact ⟨value,⟨item.2,hitem,hvalue⟩,hkey⟩
    · intro h
      obtain ⟨value,⟨values,hitem,hvalue⟩,hkey⟩ := h
      exact ⟨(key,values),hitem,value,hvalue,key',hkey,rfl,rfl⟩
  · constructor
    · intro h key value hheld
      obtain ⟨values,hitem,hvalue⟩ := hheld
      exact (h (key,values) hitem value hvalue).imp fun _ hkey => hkey.1
    · intro h item hitem value hvalue
      exact (h item.1 value ⟨item.2,hitem,hvalue⟩).imp fun _ hkey => ⟨hkey,trivial⟩

omit [DecidableEq β] in
theorem holds_invert (h : d.invert f = .ok inverted) {key' : κ'} {key : κ} :
    inverted.Holds key' key ↔ ∃ value, d.Holds key value ∧ f value = .ok key' := by
  rw [(invert_adds d).holds h]
  simp [Holds]

omit [DecidableEq β] in
theorem invert_proper (h : d.invert f = .ok inverted) : Proper inverted :=
  (invert_adds d).proper h proper_nil

end

/-! ### Unions -/

omit [DecidableEq κ] in
theorem mem_foldl_union {α : Type} (f : α → Finset β) (xs : List α) (start : Finset β) :
    value ∈ xs.foldl (fun found x => found ∪ f x) start ↔
      value ∈ start ∨ ∃ x ∈ xs, value ∈ f x := by
  induction xs generalizing start with
  | nil => simp
  | cons x xs ih =>
    rw [List.foldl_cons,ih,Finset.mem_union,List.exists_mem_cons_iff,or_assoc]

omit [DecidableEq κ] in
/-- A loop that unites what the items decode to, where all do. -/
theorem foldlM_union {ε α : Type} {decode : α → Except ε (Finset β)} {xs : List α}
    (h : ∀ x ∈ xs, ∃ decoded, decode x = .ok decoded) (start : Finset β) :
    ∃ found, xs.foldlM (fun found x => do
      let decoded ← decode x
      pure (found ∪ decoded)) start = .ok found ∧ ∀ value, value ∈ found ↔
        value ∈ start ∨ ∃ x ∈ xs, ∃ decoded, decode x = .ok decoded ∧ value ∈ decoded := by
  induction xs generalizing start with
  | nil => exact ⟨start,rfl,by simp⟩
  | cons x xs ih =>
    rw [List.forall_mem_cons] at h
    obtain ⟨⟨decoded,hdecoded⟩,hrest⟩ := h
    obtain ⟨found,hfound,hmem⟩ := ih hrest (start ∪ decoded)
    refine ⟨found,?_,fun value => ?_⟩
    · rw [List.foldlM_cons,hdecoded]
      exact hfound
    · rw [hmem,Finset.mem_union,List.exists_mem_cons_iff,or_assoc,hdecoded]
      simp

end Multimap
