import SmartDns.Lib.ForkJoin
import SmartDns.Pipeline.Context
import Mathlib.Data.List.MinMax
import Mathlib.Data.Rat.Lemmas
import Mathlib.Algebra.Order.Ring.Unbundled.Rat
set_option autoImplicit false

/-!
The two dispatch strategies as join policies of a fork-join tree: `race` returns
the first success and cancels the rest, `wait_all` waits for every target and
returns the fastest success. Both fall back to `pick_failure_result`.
-/

namespace SmartDns

open scoped List

inductive DispatchStrategyType where
  | race | waitAll
  deriving DecidableEq, Repr

def DispatchStrategyType.value : DispatchStrategyType → String
  | .race => "race"
  | .waitAll => "wait_all"

namespace UpstreamResult

/-- `isinstance(result.error, dns.resolver.NXDOMAIN)`. -/
def isNxdomain (r : UpstreamResult) : Bool := r.error.any (fun e => e.kind = .nxdomain)

/-- The result without what a dispatch collected into it. -/
def core (r : UpstreamResult) : UpstreamResult := { r with collectedResults := [] }

/-- How good a result is: a success, then NXDOMAIN, then any other failure. -/
def rank (r : UpstreamResult) : Nat :=
  if r.success then 0 else if r.isNxdomain then 1 else 2

@[simp] theorem core_success (r : UpstreamResult) : r.core.success = r.success := rfl
@[simp] theorem core_isNxdomain (r : UpstreamResult) : r.core.isNxdomain = r.isNxdomain := rfl
@[simp] theorem core_rank (r : UpstreamResult) : r.core.rank = r.rank := rfl

theorem rank_of_core {r s : UpstreamResult} (h : r.core = s.core) : r.rank = s.rank := by
  rw [← core_rank r,h,core_rank]

theorem durationMs_of_core {r s : UpstreamResult} (h : r.core = s.core) :
    r.durationMs = s.durationMs := by
  change r.core.durationMs = s.core.durationMs
  rw [h]

theorem success_of_core {r s : UpstreamResult} (h : r.core = s.core) : r.success = s.success := by
  rw [← core_success r,h,core_success]

theorem rank_eq_zero {r : UpstreamResult} : r.rank = 0 ↔ r.success = true := by
  unfold rank
  split
  · simp_all
  · split <;> simp_all

theorem rank_le_one {r : UpstreamResult} : r.rank ≤ 1 ↔ r.success = true ∨ r.isNxdomain = true := by
  unfold rank
  split
  · simp_all
  · split <;> simp_all

end UpstreamResult

namespace DispatchStrategy

def defaultResult (message : String) : UpstreamResult :=
  { upstreamName := "unknown", durationMs := 0, error := some (.runtimeError message) }

def pickFailureResult (results : List UpstreamResult) (message : String) : UpstreamResult :=
  let firstNxdomain := results.find? fun r => !r.success && r.isNxdomain
  let firstError := results.find? fun r => !r.success && !r.isNxdomain
  (firstNxdomain <|> firstError).getD (defaultResult message)

def allFailed : String := "所有上游均失败"

/-- Among failures only, the picked one is of the best rank. -/
theorem pickFailureResult_best {results : List UpstreamResult} (message : String)
    (hne : results ≠ []) (hfail : ∀ r ∈ results, r.success = false) :
    pickFailureResult results message ∈ results ∧
      ∀ r ∈ results, (pickFailureResult results message).rank ≤ r.rank := by
  unfold pickFailureResult
  cases hnx : results.find? (fun r => !r.success && r.isNxdomain) with
  | some r =>
    have hr := List.find?_some hnx
    have hmem := List.mem_of_find?_eq_some hnx
    simp only [Bool.and_eq_true,Bool.not_eq_true'] at hr
    refine ⟨by simpa using hmem,fun s hs => ?_⟩
    have h1 : r.rank ≤ 1 := UpstreamResult.rank_le_one.mpr (.inr hr.2)
    have hs0 : s.rank ≠ 0 := by simp [UpstreamResult.rank_eq_zero,hfail s hs]
    simp only [Option.orElse_eq_orElse,Option.orElse_some,Option.getD_some]
    omega
  | none =>
    have hnone : ∀ r ∈ results, r.isNxdomain = false := by
      intro r hr
      have := List.find?_eq_none.mp hnx r hr
      simpa [hfail r hr] using this
    have hrank : ∀ r ∈ results, r.rank = 2 := fun r hr => by
      simp [UpstreamResult.rank,hfail r hr,hnone r hr]
    cases herr : results.find? (fun r => !r.success && !r.isNxdomain) with
    | some r =>
      have hmem := List.mem_of_find?_eq_some herr
      refine ⟨by simpa using hmem,fun s hs => ?_⟩
      simp [hrank s hs,hrank r hmem]
    | none =>
      obtain ⟨r,hr⟩ := List.exists_mem_of_ne_nil _ hne
      have := List.find?_eq_none.mp herr r hr
      simp [hfail r hr,hnone r hr] at this

end DispatchStrategy

open DispatchStrategy

/-- `RaceDispatchStrategy.dispatch` on the results that its stream delivers. -/
def raceJoin : ForkJoin.Join UpstreamResult where
  early arrived := arrived.find? UpstreamResult.success
  final failures := pickFailureResult failures allFailed

/-- `WaitAllDispatchStrategy.dispatch`; `min` takes the first of the fastest. -/
def waitAllJoin : ForkJoin.Join UpstreamResult where
  early _ := none
  final results :=
    match (results.filter UpstreamResult.success).argmin UpstreamResult.durationMs with
    | some fastest => { fastest with collectedResults := results }
    | none => { pickFailureResult results allFailed with collectedResults := results }

def DispatchStrategyType.join : DispatchStrategyType → ForkJoin.Join UpstreamResult
  | .race => raceJoin
  | .waitAll => waitAllJoin

theorem waitAllJoin_collected (results : List UpstreamResult) :
    (waitAllJoin.final results).collectedResults = results := by
  simp only [waitAllJoin]
  split <;> rfl

/-- The winner of `wait_all` is one of the results, of the best rank, and no success
is faster than it. -/
theorem waitAllJoin_best {results : List UpstreamResult} (hne : results ≠ []) :
    ∃ r ∈ results, (waitAllJoin.final results).core = r.core ∧
      (∀ s ∈ results, r.rank ≤ s.rank) ∧
      (r.success = true → ∀ s ∈ results, s.success = true → r.durationMs ≤ s.durationMs) := by
  simp only [waitAllJoin]
  cases hmin : (results.filter UpstreamResult.success).argmin UpstreamResult.durationMs with
  | some fastest =>
    have hmem := List.argmin_mem (Option.mem_def.mpr hmin)
    simp only [List.mem_filter] at hmem
    refine ⟨fastest,hmem.1,rfl,fun s _ => ?_,fun _ s hs hsuccess => ?_⟩
    · rw [UpstreamResult.rank_eq_zero.mpr hmem.2]
      exact Nat.zero_le _
    · exact List.le_of_mem_argmin (List.mem_filter.mpr ⟨hs,hsuccess⟩) (Option.mem_def.mpr hmin)
  | none =>
    have hfail : ∀ r ∈ results, r.success = false := by
      simpa [List.argmin_eq_none,List.filter_eq_nil_iff] using hmin
    obtain ⟨hpick,hbest⟩ := pickFailureResult_best allFailed hne hfail
    refine ⟨_,hpick,rfl,hbest,fun hsuccess => ?_⟩
    rw [hfail _ hpick] at hsuccess
    contradiction

end SmartDns
