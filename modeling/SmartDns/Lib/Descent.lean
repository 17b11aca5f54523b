import Mathlib.Logic.Hydra
import Mathlib.Data.Multiset.MapFold
import Mathlib.Tactic.Abel
import SmartDns.Lib.ForkJoin
import SmartDns.Lib.Transition
set_option autoImplicit false

/-!
Systems that end: one whose steps descend in a well-founded order has no run without end. Where
a state holds items of work, and a step uses one of them up and may add any number of lesser
ones, the order is that of `Relation.CutExpand` on the multiset of what the items weigh.
-/

namespace Transition

variable {σ ℓ : Type*} (step : σ → ℓ → Option σ)

/-- A run that goes on for ever. -/
def Endless (s : σ) : Prop :=
  ∃ (states : ℕ → σ) (labels : ℕ → ℓ), states 0 = s ∧
    ∀ n, step (states n) (labels n) = some (states (n+1))

variable {step} {I : σ → Prop}

theorem not_endless {α : Type*} {r : α → α → Prop} (hr : WellFounded r) (m : σ → α)
    (hstep : ∀ s l s', I s → step s l = some s' → I s' ∧ r (m s') (m s)) {s : σ} (hs : I s) :
    ¬ Endless step s := by
  induction h : m s using hr.induction generalizing s with
  | _ a ih =>
    subst h
    rintro ⟨states,labels,rfl,hsteps⟩
    obtain ⟨hinv,hless⟩ := hstep _ _ _ hs (hsteps 0)
    exact ih _ hless hinv rfl ⟨fun n => states (n+1),fun n => labels (n+1),rfl,
      fun n => hsteps (n+1)⟩

end Transition

namespace Descent

open Relation

variable {α γ : Type*} {r : α → α → Prop}

/-- One item is replaced by a lesser one, and lesser ones are added. -/
theorem cut_set (f : γ → α) {items : List γ} {i : Nat} {x y : γ} (hx : items[i]? = some x)
    (hy : r (f y) (f x)) (others : Multiset α) {new : Multiset α} (hnew : ∀ a ∈ new, r a (f x)) :
    CutExpand r (((items.set i y).map f : List α) + others + new)
      ((items.map f : List α) + others) := by
  obtain ⟨before,after,rfl,hset⟩ := ForkJoin.split_at hx
  refine ⟨f y ::ₘ new,f x,?_,?_⟩
  · intro a ha
    cases Multiset.mem_cons.mp ha with
    | inl ha => exact ha ▸ hy
    | inr ha => exact hnew a ha
  · rw [hset]
    simp only [List.map_append,List.map_cons,← Multiset.coe_add,← Multiset.cons_coe,
      ← Multiset.singleton_add]
    abel

/-- One item that counts is replaced by one that does not, and lesser ones are added. -/
theorem cut_filterMap (f : γ → Option α) {items : List γ} {i : Nat} {x y : γ} {a : α}
    (hx : items[i]? = some x) (ha : f x = some a) (hy : f y = none) (others : Multiset α)
    {new : Multiset α} (hnew : ∀ b ∈ new, r b a) :
    CutExpand r (others + ((items.set i y).filterMap f : List α) + new)
      (others + (items.filterMap f : List α)) := by
  obtain ⟨before,after,rfl,hset⟩ := ForkJoin.split_at hx
  refine ⟨new,a,hnew,?_⟩
  rw [hset]
  simp only [List.filterMap_append,List.filterMap_cons,ha,hy,← Multiset.coe_add,
    ← Multiset.cons_coe,← Multiset.singleton_add]
  abel

end Descent
