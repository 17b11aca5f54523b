import Mathlib.Data.List.Induction
import Mathlib.Data.List.Nodup
set_option autoImplicit false

/-!
Lists of values that carry a key. `gather` folds the values of one key into the
first of them and keeps the order in which the keys first occur, so a list with
distinct keys is its own gathering.
-/

namespace Keyed

variable {α κ : Type*} [DecidableEq κ] (key : α → κ) (absorb : α → α → α)

def lookup (k : κ) (l : List α) : Option α := l.find? (fun x => key x = k)

def put : List α → α → List α
  | [], x => [x]
  | y :: l, x => if key y = key x then absorb y x :: l else y :: put l x

def gather (l : List α) : List α := l.foldl (put key absorb) []

def Distinct (l : List α) : Prop := (l.map key).Nodup

/-- Where the first value of the key stands. -/
def position (k : κ) (l : List α) : Option Nat := l.findIdx? (fun x => key x = k)

/-- The list without the first value of the key. -/
def remove (k : κ) (l : List α) : List α := l.eraseP (fun x => key x = k)

instance (l : List α) : Decidable (Distinct key l) :=
  inferInstanceAs (Decidable (l.map key).Nodup)

variable {key absorb}

theorem put_fresh {l : List α} {x : α} (h : key x ∉ l.map key) :
    put key absorb l x = l ++ [x] := by
  induction l with
  | nil => rfl
  | cons y l ih =>
    simp only [List.map_cons,List.mem_cons,not_or] at h
    simp [put,Ne.symm h.1,ih h.2]

theorem put_keys (hkey : ∀ x y, key (absorb x y) = key x) (l : List α) (x : α) :
    (put key absorb l x).map key =
      if key x ∈ l.map key then l.map key else l.map key ++ [key x] := by
  induction l with
  | nil => simp [put]
  | cons y l ih =>
    by_cases h : key y = key x
    · simp [put,h,hkey]
    · have hne : key x ≠ key y := Ne.symm h
      by_cases hx : key x ∈ l.map key
      · simp only [put,h,if_false,List.map_cons,ih,hx,if_true,List.mem_cons,or_true]
      · simp only [put,h,if_false,List.map_cons,ih,hx,List.mem_cons,hne,or_self,
          List.cons_append]

theorem put_distinct (hkey : ∀ x y, key (absorb x y) = key x) {l : List α} {x : α}
    (h : Distinct key l) : Distinct key (put key absorb l x) := by
  unfold Distinct at *
  rw [put_keys hkey]
  split
  · exact h
  · rename_i hx
    refine List.nodup_append.mpr ⟨h,by simp,?_⟩
    intro a ha b hb heq
    subst heq
    exact hx (List.mem_singleton.mp hb ▸ ha)

theorem foldl_put_fresh {l m : List α} (h : Distinct key (l ++ m)) :
    m.foldl (put key absorb) l = l ++ m := by
  induction m generalizing l with
  | nil => simp
  | cons x m ih =>
    have hx : key x ∉ l.map key := by
      intro hmem
      simp only [Distinct,List.map_append,List.map_cons,List.nodup_append] at h
      exact h.2.2 _ hmem _ List.mem_cons_self rfl
    rw [List.foldl_cons,put_fresh hx,ih (by simpa using h)]
    simp

theorem gather_of_distinct {l : List α} (h : Distinct key l) : gather key absorb l = l := by
  have hl : Distinct key ([] ++ l) := h
  simpa [gather] using foldl_put_fresh (l:=[]) hl

theorem put_middle {l r : List α} {x y : α} (hl : key y ∉ l.map key) (hkey : key x = key y) :
    put key absorb (l ++ x :: r) y = l ++ absorb x y :: r := by
  induction l with
  | nil => simp [put,hkey]
  | cons z l ih =>
    simp only [List.map_cons,List.mem_cons,not_or] at hl
    simp [put,Ne.symm hl.1,ih hl.2]

theorem put_mem {l : List α} {y : α} (h : Distinct key l) (hy : y ∈ l) :
    put key (fun old _ => old) l y = l := by
  obtain ⟨a,b,rfl⟩ := List.append_of_mem hy
  refine put_middle ?_ rfl
  unfold Distinct at h
  rw [List.map_append,List.map_cons,List.nodup_append] at h
  exact fun hmem => h.2.2 _ hmem _ List.mem_cons_self rfl

/-- Where the older value stays, nothing is lost. -/
theorem mem_put_keep {l : List α} {x y : α} (h : x ∈ l) : x ∈ put key (fun old _ => old) l y := by
  induction l with
  | nil => contradiction
  | cons z l ih =>
    unfold put
    split
    · exact h
    · exact List.mem_cons.mpr ((List.mem_cons.mp h).imp_right ih)

/-- A value of a key that has been met is absorbed where the key stands. -/
theorem gather_again {a b c : List α} {x y : α} (hkey : ∀ x y, key (absorb x y) = key x)
    (h : Distinct key (a ++ x :: (b ++ c))) (hxy : key y = key x) :
    gather key absorb (a ++ x :: (b ++ y :: c)) = a ++ absorb x y :: (b ++ c) := by
  have hstart : Distinct key (a ++ x :: b) := by
    unfold Distinct at *
    refine h.sublist (List.Sublist.map key ?_)
    simp
  have hx : key y ∉ a.map key := by
    rw [hxy]
    unfold Distinct at h
    rw [List.map_append,List.map_cons,List.nodup_append] at h
    exact fun hmem => h.2.2 _ hmem _ List.mem_cons_self rfl
  have hend : Distinct key (a ++ absorb x y :: b ++ c) := by
    unfold Distinct at *
    simpa [hkey] using h
  have hsplit : a ++ x :: (b ++ y :: c) = (a ++ x :: b) ++ (y :: c) := by simp
  unfold gather
  rw [hsplit,List.foldl_append]
  have hfirst : (a ++ x :: b).foldl (put key absorb) [] = a ++ x :: b := gather_of_distinct hstart
  rw [hfirst,List.foldl_cons,put_middle hx hxy.symm,foldl_put_fresh hend]
  simp

theorem foldl_put_distinct (hkey : ∀ x y, key (absorb x y) = key x) {l m : List α}
    (h : Distinct key l) : Distinct key (m.foldl (put key absorb) l) := by
  induction m generalizing l with
  | nil => exact h
  | cons x m ih => exact ih (put_distinct hkey h)

theorem gather_distinct (hkey : ∀ x y, key (absorb x y) = key x) (l : List α) :
    Distinct key (gather key absorb l) := foldl_put_distinct hkey List.nodup_nil

theorem mem_foldl_put_keys (hkey : ∀ x y, key (absorb x y) = key x) {l m : List α} {k : κ} :
    k ∈ (m.foldl (put key absorb) l).map key ↔ k ∈ l.map key ∨ k ∈ m.map key := by
  induction m generalizing l with
  | nil => simp
  | cons x m ih =>
    rw [List.foldl_cons,ih,put_keys hkey]
    split
    · rename_i hx
      simp only [List.map_cons,List.mem_cons]
      constructor
      · intro h
        obtain h | h := h
        · exact .inl h
        · exact .inr (.inr h)
      · intro h
        obtain h | rfl | h := h
        · exact .inl h
        · exact .inl hx
        · exact .inr h
    · simp [or_assoc]

/-- Gathering neither invents nor loses a key. -/
theorem mem_gather_keys (hkey : ∀ x y, key (absorb x y) = key x) {l : List α} {k : κ} :
    k ∈ (gather key absorb l).map key ↔ k ∈ l.map key := by
  simp [gather,mem_foldl_put_keys hkey]

theorem mem_put {l : List α} {x y : α} (h : x ∈ put key absorb l y) :
    x ∈ l ∨ x = y ∨ ∃ old ∈ l, key old = key y ∧ x = absorb old y := by
  induction l with
  | nil => exact .inr (.inl (List.mem_singleton.mp h))
  | cons z l ih =>
    unfold put at h
    split at h
    · rename_i hkey
      obtain rfl | hl := List.mem_cons.mp h
      · exact .inr (.inr ⟨z,List.mem_cons_self,hkey,rfl⟩)
      · exact .inl (List.mem_cons_of_mem z hl)
    · obtain rfl | hl := List.mem_cons.mp h
      · exact .inl List.mem_cons_self
      · obtain hl | heq | ⟨old,hold,hkey⟩ := ih hl
        · exact .inl (List.mem_cons_of_mem z hl)
        · exact .inr (.inl heq)
        · exact .inr (.inr ⟨old,List.mem_cons_of_mem z hold,hkey⟩)

/-- Where the newer value stays, each value was there before. -/
theorem mem_gather (hnew : ∀ x y, key x = key y → absorb x y = y) {l : List α} {x : α}
    (h : x ∈ gather key absorb l) : x ∈ l := by
  have hfold : ∀ m start : List α, x ∈ m.foldl (put key absorb) start → x ∈ start ∨ x ∈ m := by
    intro m
    induction m with
    | nil => exact fun _ h => .inl h
    | cons y m ih =>
      intro start h
      obtain hput | hm := ih _ h
      · obtain hstart | rfl | ⟨old,_,hkey,rfl⟩ := mem_put hput
        · exact .inl hstart
        · exact .inr List.mem_cons_self
        · rw [hnew old y hkey]
          exact .inr List.mem_cons_self
      · exact .inr (List.mem_cons_of_mem y hm)
  exact (hfold l [] h).resolve_left List.not_mem_nil

theorem lookup_none_iff {k : κ} {l : List α} : lookup key k l = none ↔ k ∉ l.map key := by
  simp [lookup,List.find?_eq_none]

theorem lookup_some {k : κ} {l : List α} {x : α} (h : lookup key k l = some x) :
    x ∈ l ∧ key x = k :=
  ⟨List.mem_of_find?_eq_some h,by simpa using List.find?_some h⟩

/-- With distinct keys a lookup finds the value wherever it stands. -/
theorem lookup_middle {l r : List α} {x : α} (h : Distinct key (l ++ x :: r)) :
    lookup key (key x) (l ++ x :: r) = some x := by
  have hl : lookup key (key x) l = none := by
    rw [lookup_none_iff]
    intro hmem
    simp only [Distinct,List.map_append,List.map_cons,List.nodup_append] at h
    exact h.2.2 _ hmem _ List.mem_cons_self rfl
  unfold lookup at *
  simp [List.find?_append,hl]

theorem lookup_other {l r : List α} {x : α} {k : κ} (h : key x ≠ k) :
    lookup key k (l ++ x :: r) = lookup key k (l ++ r) := by
  simp [lookup,List.find?_append,h]

theorem lookup_map {f : α → α} (hf : ∀ x, key (f x) = key x) (k : κ) (l : List α) :
    lookup key k (l.map f) = (lookup key k l).map f := by
  simp only [lookup,List.find?_map,Function.comp_def,hf]

theorem position_none_iff {k : κ} {l : List α} : position key k l = none ↔ k ∉ l.map key := by
  simp [position,List.findIdx?_eq_none_iff]

theorem remove_fresh {k : κ} {l : List α} (h : k ∉ l.map key) : remove key k l = l := by
  refine List.eraseP_of_forall_not fun x hx hk => h ?_
  rw [← of_decide_eq_true hk]
  exact List.mem_map_of_mem hx

theorem remove_middle {l r : List α} {x : α} (h : key x ∉ l.map key) :
    remove key (key x) (l ++ x :: r) = l ++ r := by
  have hl : ∀ y ∈ l, ¬ decide (key y = key x) = true := fun y hy hk => h
    (of_decide_eq_true hk ▸ List.mem_map_of_mem hy)
  rw [remove,List.eraseP_append_right _ hl,List.eraseP_cons_of_pos (by simp)]

theorem position_middle {l r : List α} {x : α} (h : key x ∉ l.map key) :
    position key (key x) (l ++ x :: r) = some l.length := by
  have hl : l.findIdx? (fun y => decide (key y = key x)) = none := position_none_iff.mpr h
  simp [position,List.findIdx?_append,hl,List.findIdx?_cons]

variable (key) in
/-- Either the key is absent or the list splits at its first value. -/
theorem split_at_key (k : κ) (l : List α) :
    k ∉ l.map key ∨ ∃ a x b, l = a ++ x :: b ∧ key x = k ∧ k ∉ a.map key := by
  induction l with
  | nil => exact .inl (by simp)
  | cons y l ih =>
    by_cases hy : key y = k
    · exact .inr ⟨[],y,l,rfl,hy,by simp⟩
    · obtain h | ⟨a,x,b,rfl,hx,ha⟩ := ih
      · exact .inl (by simp [Ne.symm hy,h])
      · exact .inr ⟨y :: a,x,b,rfl,hx,by simp [Ne.symm hy,ha]⟩

theorem lookup_remove {k k' : κ} (h : k' ≠ k) (l : List α) :
    lookup key k (remove key k' l) = lookup key k l := by
  obtain hfresh | ⟨a,x,b,rfl,rfl,ha⟩ := split_at_key key k' l
  · rw [remove_fresh hfresh]
  · rw [remove_middle ha,lookup_other h]

theorem lookup_without {k k' : κ} (h : k ≠ k') (l : List α) :
    lookup key k (l.filter fun x => key x ≠ k') = lookup key k l := by
  unfold lookup
  rw [List.find?_filter]
  congr 1
  funext x
  by_cases hx : key x = k
  · simp [hx,h]
  · simp [hx]

theorem lookup_of_remove {k k' : κ} {l m : List α} (h : k' ≠ k)
    (heq : remove key k' l = remove key k' m) : lookup key k l = lookup key k m := by
  rw [← lookup_remove h l,heq,lookup_remove h m]

theorem remove_keys_subset {k k' : κ} {l : List α} (h : k' ∈ (remove key k l).map key) :
    k' ∈ l.map key := by
  obtain ⟨x,hx,rfl⟩ := List.mem_map.mp h
  exact List.mem_map_of_mem (List.mem_of_mem_eraseP hx)

theorem mem_remove_keys {k : κ} {l : List α} {x : α} (hx : x ∈ l) (hk : key x ≠ k) :
    key x ∈ (remove key k l).map key :=
  List.mem_map_of_mem ((List.mem_eraseP_of_neg (by simpa using hk)).mpr hx)

omit [DecidableEq κ] in
theorem Distinct.middle {l r : List α} {x : α} (h : Distinct key (l ++ x :: r)) :
    key x ∉ l.map key ∧ key x ∉ r.map key ∧ Distinct key (l ++ r) := by
  simp only [Distinct,List.map_append,List.map_cons] at h ⊢
  obtain ⟨hx,hrest⟩ := List.nodup_cons.mp (List.perm_middle.nodup_iff.mp h)
  exact ⟨fun hm => hx (List.mem_append_left _ hm),fun hm => hx (List.mem_append_right _ hm),hrest⟩

omit [DecidableEq κ] in
theorem distinct_middle {l r : List α} {x : α} (hl : key x ∉ l.map key) (hr : key x ∉ r.map key)
    (h : Distinct key (l ++ r)) : Distinct key (l ++ x :: r) := by
  simp only [Distinct,List.map_append,List.map_cons] at h ⊢
  refine List.perm_middle.nodup_iff.mpr (List.nodup_cons.mpr ⟨?_,h⟩)
  exact fun hm => (List.mem_append.mp hm).elim hl hr

/-- A value that comes into a list with distinct keys, behind the value of its own key if there
is one, is absorbed by that or stands for itself. -/
theorem lookup_gather_insert {l r : List α} {x : α} {k : κ}
    (hkey : ∀ x y, key (absorb x y) = key x) (h : Distinct key (l ++ r))
    (hr : key x ∉ r.map key) : lookup key k (gather key absorb (l ++ x :: r)) =
      if k = key x then some ((lookup key k (l ++ r)).elim x fun old => absorb old x)
      else lookup key k (l ++ r) := by
  by_cases hl : key x ∈ l.map key
  · obtain ⟨y,hy,hxy⟩ := List.mem_map.mp hl
    obtain ⟨a,b,rfl⟩ := List.append_of_mem hy
    rw [List.append_assoc,List.cons_append] at h ⊢
    rw [gather_again hkey (by simpa using h) hxy.symm]
    by_cases hk : k = key x
    · rw [if_pos hk,hk,← hxy,List.append_assoc,List.cons_append,lookup_middle h,← hkey y x]
      refine lookup_middle (distinct_middle ?_ ?_ h.middle.2.2)
      · rw [hkey]
        exact h.middle.1
      · rw [hkey]
        exact h.middle.2.1
    · rw [if_neg hk,List.append_assoc,List.cons_append]
      have hne : key y ≠ k := fun heq => hk (heq.symm.trans hxy)
      rw [lookup_other hne,lookup_other (by rwa [hkey])]
  · have hdistinct := distinct_middle hl hr h
    rw [gather_of_distinct hdistinct]
    by_cases hk : k = key x
    · have hfresh : lookup key k (l ++ r) = none := by
        rw [lookup_none_iff,hk,List.map_append]
        exact fun hm => (List.mem_append.mp hm).elim hl hr
      rw [if_pos hk,hfresh,hk]
      exact lookup_middle hdistinct
    · rw [if_neg hk,lookup_other fun heq => hk heq.symm]

/-- Keys are distinct when they are without the first value of one key and that key is
not among them. -/
theorem distinct_of_remove {k : κ} {l : List α} (h : Distinct key (remove key k l))
    (hk : k ∉ (remove key k l).map key) : Distinct key l := by
  obtain hfresh | ⟨a,x,b,rfl,rfl,ha⟩ := split_at_key key k l
  · rwa [remove_fresh hfresh] at h
  · rw [remove_middle ha] at h hk
    rw [List.map_append] at hk
    exact distinct_middle ha (fun hb => hk (List.mem_append_right _ hb)) h

theorem remove_distinct {k : κ} {l : List α} (h : Distinct key l) :
    Distinct key (remove key k l) ∧ k ∉ (remove key k l).map key := by
  obtain hfresh | ⟨a,x,b,rfl,rfl,ha⟩ := split_at_key key k l
  · rw [remove_fresh hfresh]
    exact ⟨h,hfresh⟩
  · obtain ⟨_,hb,hrest⟩ := h.middle
    rw [remove_middle ha,List.map_append]
    exact ⟨hrest,fun hm => (List.mem_append.mp hm).elim ha hb⟩

section
variable {absorb : α → α → α} (hnew : ∀ x y, key x = key y → absorb x y = y)
include hnew

/-- Where a value takes the place of the one before it, a lookup finds the last. -/
theorem lookup_put_last {k : κ} (l : List α) (x : α) :
    lookup key k (put key absorb l x) = if key x = k then some x else lookup key k l := by
  induction l with
  | nil =>
    by_cases hx : key x = k
    · simp [put,lookup,hx]
    · simp [put,lookup,hx]
  | cons y l ih =>
    unfold put
    by_cases hy : key y = key x
    · rw [if_pos hy,hnew y x hy]
      by_cases hx : key x = k
      · simp [lookup,hx]
      · simp [lookup,hx,hy]
    · rw [if_neg hy]
      by_cases hk : key y = k
      · rw [if_neg fun hx : key x = k => hy (hk.trans hx.symm)]
        simp [lookup,hk]
      · simpa [lookup,hk] using ih

theorem lookup_gather_last {k : κ} (l : List α) :
    lookup key k (gather key absorb l) = (l.filter fun x => key x = k).getLast? := by
  induction l using List.reverseRecOn with
  | nil => rfl
  | append_singleton l x ih =>
    have hgather : gather key absorb (l ++ [x]) = put key absorb (gather key absorb l) x := by
      simp [gather]
    rw [hgather,lookup_put_last hnew,ih,List.filter_append]
    by_cases hx : key x = k
    · simp [hx]
    · simp [hx]

end

/-! ### Values that are their own keys -/

section
variable {β γ : Type*} [DecidableEq β] [DecidableEq γ]

/-- Values in the order in which they first occur. -/
def insertNew (collected : List β) (x : β) : List β :=
  if x ∈ collected then collected else collected ++ [x]

theorem mem_insertNew {collected : List β} {x y : β} :
    y ∈ insertNew collected x ↔ y ∈ collected ∨ y = x := by
  unfold insertNew
  split
  · rename_i hmem
    constructor
    · exact .inl
    · intro h
      obtain h | rfl := h
      · exact h
      · exact hmem
  · simp

theorem mem_foldl_insertNew {items collected : List β} {y : β} :
    y ∈ items.foldl insertNew collected ↔ y ∈ collected ∨ y ∈ items := by
  induction items generalizing collected with
  | nil => simp
  | cons x items ih => rw [List.foldl_cons,ih,mem_insertNew,List.mem_cons,or_assoc]

theorem insertNew_nodup {collected : List β} (h : collected.Nodup) (x : β) :
    (insertNew collected x).Nodup := by
  unfold insertNew
  split
  · exact h
  · rename_i hx
    refine List.nodup_append.mpr ⟨h,by simp,?_⟩
    intro y hy z hz heq
    rw [List.mem_singleton.mp hz] at heq
    exact hx (heq ▸ hy)

theorem foldl_insertNew_nodup {items collected : List β} (h : collected.Nodup) :
    (items.foldl insertNew collected).Nodup := by
  induction items generalizing collected with
  | nil => exact h
  | cons x items ih => exact ih (insertNew_nodup h x)

theorem insertNew_map {f : β → γ} (hf : Function.Injective f) (collected : List β) (x : β) :
    insertNew (collected.map f) (f x) = (insertNew collected x).map f := by
  unfold insertNew
  by_cases hx : x ∈ collected
  · rw [if_pos hx,if_pos (List.mem_map_of_mem hx)]
  · rw [if_neg hx,if_neg (mt (List.mem_map_of_injective hf).mp hx)]
    simp

theorem foldl_insertNew_map {f : β → γ} (hf : Function.Injective f) (items collected : List β) :
    (items.map f).foldl insertNew (collected.map f) = (items.foldl insertNew collected).map f := by
  induction items generalizing collected with
  | nil => rfl
  | cons x items ih => rw [List.map_cons,List.foldl_cons,insertNew_map hf,ih,List.foldl_cons]

end

end Keyed
