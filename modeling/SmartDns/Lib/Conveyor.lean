import Mathlib.Data.List.Perm.Subperm
set_option autoImplicit false

/-!
Items of several senders on their way through queues. Items may be lost and those of different
senders may pass each other, but what is left of a sender keeps the order in which it was sent.
-/

namespace Conveyor

variable {α κ : Type*} [DecidableEq κ]

/-- The items of one sender. -/
def sentBy (key : α → κ) (k : κ) (items : List α) : List α := items.filter fun x => key x = k

/-- What is left of each sender's items, in their order. -/
def Orderly (key : α → κ) (sent left : List α) : Prop :=
  ∀ k, (sentBy key k left).Sublist (sentBy key k sent)

variable {key : α → κ} {sent left : List α}

@[simp] theorem sentBy_append (k : κ) (a b : List α) :
    sentBy key k (a ++ b) = sentBy key k a ++ sentBy key k b := List.filter_append _ _

theorem Orderly.send (h : Orderly key sent left) (x : α) :
    Orderly key (sent ++ [x]) (left ++ [x]) := by
  intro k
  rw [sentBy_append,sentBy_append]
  exact (h k).append (List.Sublist.refl _)

theorem Orderly.lose (h : Orderly key sent left) (x : α) : Orderly key (sent ++ [x]) left := by
  intro k
  rw [sentBy_append]
  exact (h k).trans (List.sublist_append_left _ _)

theorem Orderly.sublist (h : Orderly key sent left) {fewer : List α} (hfewer : fewer.Sublist left) :
    Orderly key sent fewer := fun k => (hfewer.filter _).trans (h k)

/-- An item passes those of other senders. -/
theorem Orderly.pass {a b c : List α} {x : α} (h : Orderly key sent (a ++ (b ++ x :: c)))
    (hothers : ∀ y ∈ b, key y ≠ key x) : Orderly key sent (a ++ x :: (b ++ c)) := by
  intro k
  have hcons (l : List α) : sentBy key k (x :: l) = sentBy key k [x] ++ sentBy key k l :=
    sentBy_append k [x] l
  have hsame : sentBy key k [x] ++ sentBy key k b = sentBy key k b ++ sentBy key k [x] := by
    by_cases hk : key x = k
    · have hnone : sentBy key k b = [] := by
        refine List.filter_eq_nil_iff.mpr fun y hy => ?_
        simpa using hk ▸ hothers y hy
      rw [hnone,List.append_nil,List.nil_append]
    · have hskipped : sentBy key k [x] = [] := by
        simp [sentBy,hk]
      rw [hskipped,List.append_nil,List.nil_append]
  have hpassed : sentBy key k (a ++ x :: (b ++ c)) = sentBy key k (a ++ (b ++ x :: c)) := by
    rw [sentBy_append,hcons (b ++ c),sentBy_append,← List.append_assoc,← List.append_assoc,
      List.append_assoc _ (sentBy key k [x]),hsame,sentBy_append,sentBy_append,hcons c]
    simp only [List.append_assoc]
  rw [hpassed]
  exact h k

/-- Where as many are left as were sent, all of them are. -/
theorem Orderly.complete (h : Orderly key sent left) (hlength : sent.length ≤ left.length) :
    left.Perm sent ∧ ∀ k, sentBy key k left = sentBy key k sent := by
  classical
  have hcount (items : List α) (x : α) : items.count x = (sentBy key (key x) items).count x := by
    rw [sentBy,List.count_filter (by simp)]
  have hsub : left.Subperm sent := by
    refine List.subperm_ext_iff.mpr fun x _ => ?_
    rw [hcount left,hcount sent]
    exact (h (key x)).count_le x
  have hperm := hsub.perm_of_length_le hlength
  exact ⟨hperm,fun k => (h k).eq_of_length (hperm.filter _).length_eq⟩

end Conveyor
