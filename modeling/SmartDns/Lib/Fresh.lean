import Mathlib.Data.List.Dedup
import Mathlib.Data.List.Nodup
import Mathlib.Data.List.Perm.Subperm
set_option autoImplicit false

/-! The first of a sequence of different values that a list does not hold. -/

namespace Fresh

variable {α : Type} [DecidableEq α]

/-- The loop that counts on while the list holds the value. -/
def search (held : List α) (value : ℕ → α) : ℕ → ℕ → ℕ
  | 0,n => n
  | fuel+1,n => if value n ∈ held then search held value fuel (n+1) else n

/-- The list holds what the loop went past. -/
theorem held_of_lt {held : List α} {value : ℕ → α} {fuel n k : ℕ} (hn : n ≤ k)
    (hk : k < search held value fuel n) : value k ∈ held := by
  induction fuel generalizing n with
  | zero => exact absurd hk (Nat.not_lt.mpr hn)
  | succ fuel ih =>
    unfold search at hk
    split at hk
    · rename_i hheld
      obtain rfl | hlt := Nat.eq_or_lt_of_le hn
      · exact hheld
      · exact ih hlt hk
    · exact absurd hk (Nat.not_lt.mpr hn)

/-- A loop that stops early stops at a value that the list does not hold. -/
theorem search_stops {held : List α} {value : ℕ → α} {fuel n : ℕ}
    (h : search held value fuel n < n+fuel) : value (search held value fuel n) ∉ held := by
  induction fuel generalizing n with
  | zero => exact absurd h (Nat.lt_irrefl n)
  | succ fuel ih =>
    unfold search at h ⊢
    split
    · rename_i hheld
      rw [if_pos hheld] at h
      exact ih (by omega)
    · assumption

/-- As many steps as the list is long are enough, for it holds no more values than that. -/
theorem search_fresh {held : List α} {value : ℕ → α} (hvalue : Function.Injective value) (n : ℕ) :
    value (search held value held.length n) ∉ held := by
  intro hin
  have hend : n+held.length ≤ search held value held.length n :=
    Nat.not_lt.mp fun hlt => search_stops hlt hin
  have hall : ∀ k ∈ List.range (held.length+1), value (n+k) ∈ held := by
    intro k hk
    have hle : n+k ≤ search held value held.length n := by
      have := List.mem_range.mp hk
      omega
    obtain heq | hlt := Nat.eq_or_lt_of_le hle
    · rwa [heq]
    · exact held_of_lt (Nat.le_add_right n k) hlt
  have hnodup : ((List.range (held.length+1)).map fun k => value (n+k)).Nodup :=
    List.nodup_range.map fun a b heq => Nat.add_left_cancel (hvalue heq)
  have hsubset : ((List.range (held.length+1)).map fun k => value (n+k)) ⊆ held := by
    intro a ha
    obtain ⟨k,hk,rfl⟩ := List.mem_map.mp ha
    exact hall k hk
  have hlength := (List.subperm_of_subset hnodup hsubset).length_le
  rw [List.length_map,List.length_range] at hlength
  exact Nat.not_succ_le_self held.length hlength

end Fresh
