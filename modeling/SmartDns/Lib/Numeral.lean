import Mathlib.Data.List.Induction
import Mathlib.Data.Nat.Basic
import Mathlib.Algebra.Order.Group.Nat
import Mathlib.Tactic.IntervalCases
import Mathlib.Tactic.Ring
set_option autoImplicit false

/-!
Numbers as words of a base, the highest first, and as texts of digits up to base 16.
-/

namespace Numeral

/-- A further word stands below the others. -/
def ofWords (base : ℕ) (words : List ℕ) : ℕ := words.foldl (fun n word => n*base+word) 0

/-- The last `k` words. -/
def toWords (base : ℕ) : ℕ → ℕ → List ℕ
  | 0, _ => []
  | k+1, n => toWords base k (n / base) ++ [n % base]

@[simp] theorem ofWords_nil (base : ℕ) : ofWords base [] = 0 := rfl

theorem ofWords_snoc (base : ℕ) (words : List ℕ) (word : ℕ) :
    ofWords base (words ++ [word]) = ofWords base words * base + word := by
  simp [ofWords,List.foldl_append]

@[simp] theorem length_toWords (base k n : ℕ) : (toWords base k n).length = k := by
  induction k generalizing n with
  | zero => rfl
  | succ k ih => simp [toWords,ih]

theorem toWords_lt {base k n word : ℕ} (hbase : 0 < base) (h : word ∈ toWords base k n) :
    word < base := by
  induction k generalizing n with
  | zero => simp [toWords] at h
  | succ k ih =>
    cases List.mem_append.mp h with
    | inl h => exact ih h
    | inr h =>
      rw [List.mem_singleton.mp h]
      exact Nat.mod_lt n hbase

theorem ofWords_toWords {base k n : ℕ} (h : n < base ^ k) :
    ofWords base (toWords base k n) = n := by
  induction k generalizing n with
  | zero =>
    have hzero : n = 0 := by simpa using h
    simp [toWords,hzero]
  | succ k ih =>
    have hhigh : n / base < base ^ k := by
      rw [pow_succ] at h
      exact Nat.div_lt_of_lt_mul (by rwa [Nat.mul_comm])
    rw [toWords,ofWords_snoc,ih hhigh,Nat.mul_comm]
    exact Nat.div_add_mod n base

/-! ### Digits -/

/-- The value of a decimal or hexadecimal digit. -/
def digitValue (c : Char) : ℕ :=
  if c.toNat < 58 then c.toNat-48
  else if c.toNat < 97 then c.toNat-55
  else c.toNat-87

def ofDigits (base : ℕ) (text : List Char) : ℕ := ofWords base (text.map digitValue)

theorem digitValue_digitChar {d : ℕ} (h : d < 16) : digitValue d.digitChar = d := by
  interval_cases d <;> rfl

theorem ofDigits_toDigits {base : ℕ} (hbase : 1 < base) (hhex : base ≤ 16) (n : ℕ) :
    ofDigits base (Nat.toDigits base n) = n := by
  induction n using Nat.strong_induction_on with
  | _ n ih =>
    rw [Nat.toDigits_eq_if hbase]
    split
    · rename_i hlt
      have hvalue := digitValue_digitChar (hlt.trans_le hhex)
      simp [ofDigits,ofWords,hvalue]
    · rename_i hge
      have hhigh := ih (n / base) (Nat.div_lt_self (by omega) hbase)
      have hlow : n % base < 16 := (Nat.mod_lt n (by omega)).trans_le hhex
      unfold ofDigits at hhigh ⊢
      rw [List.map_append,List.map_singleton,ofWords_snoc,hhigh,digitValue_digitChar hlow,
        Nat.mul_comm]
      exact Nat.div_add_mod n base

/-- The characters that digits are written with. -/
theorem toDigits_forall {p : Char → Prop} {base : ℕ} (hbase : 1 < base)
    (h : ∀ d < base, p d.digitChar) (n : ℕ) : ∀ c ∈ Nat.toDigits base n, p c := by
  induction n using Nat.strong_induction_on with
  | _ n ih =>
    rw [Nat.toDigits_eq_if hbase]
    split
    · rename_i hlt
      intro c hc
      rw [List.mem_singleton.mp hc]
      exact h n hlt
    · rename_i hge
      intro c hc
      cases List.mem_append.mp hc with
      | inl hc => exact ih (n / base) (Nat.div_lt_self (by omega) hbase) c hc
      | inr hc =>
        rw [List.mem_singleton.mp hc]
        exact h _ (Nat.mod_lt n (by omega))

/-- A text of digits has no leading zero, unless it is that of zero. -/
theorem head_toDigits {base : ℕ} (hbase : 1 < base) (hhex : base ≤ 16) {n : ℕ} (hn : n ≠ 0) :
    ∃ c rest, Nat.toDigits base n = c :: rest ∧ c ≠ '0' := by
  induction n using Nat.strong_induction_on with
  | _ n ih =>
    rw [Nat.toDigits_eq_if hbase]
    split
    · rename_i hlt
      refine ⟨_,[],rfl,fun hzero => hn ?_⟩
      rw [← digitValue_digitChar (hlt.trans_le hhex),hzero]
      rfl
    · rename_i hge
      have hhigh : n / base ≠ 0 := by
        rw [Nat.div_ne_zero_iff]
        omega
      obtain ⟨c,rest,htext,hc⟩ := ih (n / base) (Nat.div_lt_self (by omega) hbase) hhigh
      exact ⟨c,rest ++ [(n % base).digitChar],by rw [htext]; rfl,hc⟩

end Numeral
