import SmartDns.Dispatcher.Strategy
set_option autoImplicit false

/-!
`DispatcherRegistry`: a target that names a group is dispatched with the same
strategy, any other target is an upstream whose result is reported once. A group
with everything below it is a fork-join tree, and the order in which upstreams
answer is a schedule of that tree.
-/

namespace SmartDns

open scoped List
open ForkJoin (JoinTree exec spawn)

structure UpstreamGroupConfig where
  name : String
  upstreams : List String
  nonempty : upstreams ≠ [] := by decide
  deriving DecidableEq, Repr

theorem UpstreamGroupConfig.single_nonempty (target : String) : [target] ≠ [] :=
  List.cons_ne_nil target []

structure ResolverManager where
  groups : List UpstreamGroupConfig
  unique : Keyed.Distinct UpstreamGroupConfig.name groups := by decide

namespace ResolverManager

def getGroup (rm : ResolverManager) (name : String) : Option UpstreamGroupConfig :=
  Keyed.lookup UpstreamGroupConfig.name name rm.groups

def hasGroup (rm : ResolverManager) (name : String) : Bool := (rm.getGroup name).isSome

end ResolverManager

/-- What `resolver_manager.resolve` does for one upstream. -/
inductive LeafOutcome where
  | answered (upstreamName : String) (durationMs : ℚ) (answer : Answer) (tags : Finset String)
  | failed (upstreamName : String) (durationMs : ℚ) (error : PyException) (tags : Finset String)
  | raised (exc : PyException)

def LeafOutcome.resolve : LeafOutcome → Except PyException UpstreamResult
  | .answered upstreamName durationMs answer tags =>
    .ok { upstreamName, durationMs, answer := some answer, tags }
  | .failed upstreamName durationMs error tags =>
    .ok { upstreamName, durationMs, error := some error, tags }
  | .raised exc => .error exc

/-- `dispatch_target`: the result, and what `on_result` is called with. `awaited` is how the
dispatch of a group, or `resolve`, ends; `requestTags` are the context's tags then. -/
def dispatchTarget (isGroup : Bool) (target : String) (requestTags : Finset String) :
    Except PyException UpstreamResult → UpstreamResult × List UpstreamResult
  | .ok result =>
    if isGroup then (result,[])
    else
      let result := inheritRequestTags result requestTags
      (result,[result])
  | .error exc =>
    let result : UpstreamResult :=
      { upstreamName := target, durationMs := 0, error := some exc, tags := requestTags }
    (result,[result])

/-- A call of `dispatch_target` for a group, or of `dispatch_group` for the group itself, to which
`dispatch_target` adds nothing. -/
structure GroupCall where
  target : String
  requestTags : Finset String

/-- A call of `dispatch_target` for an upstream, with what comes of it. -/
structure UpstreamCall where
  target : String
  requestTags : Finset String
  outcome : LeafOutcome

abbrev DispatchTree := JoinTree GroupCall UpstreamCall

abbrev DispatchTask := ForkJoin.Task GroupCall UpstreamCall UpstreamResult

/-- Every target has a task of its own, which runs `dispatch_target`. -/
def DispatchStrategyType.program (strategy : DispatchStrategyType) :
    ForkJoin.Program GroupCall UpstreamCall UpstreamResult :=
  { strategy.join with
    leaf := fun call => dispatchTarget false call.target call.requestTags call.outcome.resolve
    node := fun call result => dispatchTarget true call.target call.requestTags (.ok result) }

/-- `on_result` is called for upstreams only, once for each result. -/
theorem program_reportsLeaves (strategy : DispatchStrategyType) :
    strategy.program.ReportsLeaves where
  leaf call := by
    obtain ⟨target,requestTags,outcome⟩ := call
    cases outcome <;> rfl
  node _ _ := rfl

/-- The result of an upstream call. -/
def UpstreamCall.result (call : UpstreamCall) : UpstreamResult :=
  (dispatchTarget false call.target call.requestTags call.outcome.resolve).1

/-- What is made of the calls below, whatever the strategy. -/
def dispatchResults (t : DispatchTree) : List UpstreamResult := t.leaves.map UpstreamCall.result

/-- The call of an upstream that does not answer in time, and its result. -/
def timingOut (target : String) : UpstreamCall := ⟨target,∅,.raised (.timeoutError "")⟩

def timedOut (target : String) : UpstreamResult := (timingOut target).result

/-- The tree that `dispatch_target` walks from a target, with one outcome for each
upstream reached. -/
inductive Dispatches (rm : ResolverManager) : String → DispatchTree → Prop where
  | upstream {target : String} (requestTags : Finset String) (outcome : LeafOutcome)
      (h : rm.hasGroup target = false) :
      Dispatches rm target (.leaf ⟨target,requestTags,outcome⟩)
  | group {target : String} (requestTags : Finset String) {g : UpstreamGroupConfig}
      {t : DispatchTree} {ts : List DispatchTree} (hget : rm.getGroup target = some g)
      (htargets : List.Forall₂ (Dispatches rm) g.upstreams (t :: ts)) :
      Dispatches rm target (.node ⟨target,requestTags⟩ t ts)

/-- The tree of a group itself, as `dispatch_group` is called with it. -/
inductive DispatchesGroup (rm : ResolverManager) (g : UpstreamGroupConfig) :
    DispatchTree → Prop where
  | mk (requestTags : Finset String) {t : DispatchTree} {ts : List DispatchTree}
      (htargets : List.Forall₂ (Dispatches rm) g.upstreams (t :: ts)) :
      DispatchesGroup rm g (.node ⟨g.name,requestTags⟩ t ts)

/-- One group directly below another. -/
def ResolverManager.Below (rm : ResolverManager) (target group : String) : Prop :=
  ∃ g, rm.getGroup group = some g ∧ target ∈ g.upstreams

section Recursion
variable (rm : ResolverManager) (leaf : List Nat → Finset String × LeafOutcome)

/-- The recursion of `dispatch_target` and `dispatch_group_name`, cut off after so many
levels; a call is named by the positions that lead to it, `leaf` is what it finds there: the
context's tags, and what comes of an upstream. -/
def dispatchTree : Nat → List Nat → String → Option DispatchTree
  | 0, _, _ => none
  | n+1, path, target =>
    match rm.getGroup target with
    | none => some (.leaf ⟨target,(leaf path).1,(leaf path).2⟩)
    | some g =>
      match g.upstreams.zipIdx.mapM fun x => dispatchTree n (path ++ [x.2]) x.1 with
      | some (t :: ts) => some (.node ⟨target,(leaf path).1⟩ t ts)
      | _ => none

end Recursion

theorem mapM_some {α β : Type} {f : α → Option β} {l : List α} {r : List β}
    (h : l.mapM f = some r) : List.Forall₂ (fun x y => f x = some y) l r := by
  induction l generalizing r with
  | nil =>
    simp only [List.mapM_nil,Option.pure_def,Option.some.injEq] at h
    subst h
    exact .nil
  | cons x l ih =>
    simp only [List.mapM_cons,Option.bind_eq_bind,Option.pure_def,Option.bind_eq_some_iff,
      Option.some.injEq] at h
    obtain ⟨y,hy,ys,hys,rfl⟩ := h
    exact .cons hy (ih hys)

theorem mapM_isSome {α β : Type} {f : α → Option β} {l : List α}
    (h : ∀ x ∈ l, ∃ y, f x = some y) : ∃ r, l.mapM f = some r := by
  induction l with
  | nil => exact ⟨[],rfl⟩
  | cons x l ih =>
    obtain ⟨y,hy⟩ := h x List.mem_cons_self
    obtain ⟨ys,hys⟩ := ih fun z hz => h z (List.mem_cons_of_mem _ hz)
    exact ⟨y :: ys,by simp [List.mapM_cons,hy,hys]⟩

/-- A recursion that is not cut off walks a tree of its target. -/
theorem dispatchTree_dispatches {rm : ResolverManager}
    {leaf : List Nat → Finset String × LeafOutcome} {n : Nat} {path : List Nat}
    {target : String} {t : DispatchTree}
    (h : dispatchTree rm leaf n path target = some t) : Dispatches rm target t := by
  induction n generalizing path target t with
  | zero => simp [dispatchTree] at h
  | succ n ih =>
    unfold dispatchTree at h
    split at h
    · rename_i hget
      cases h
      exact .upstream _ _ (by simp [ResolverManager.hasGroup,hget])
    · rename_i g hget
      split at h
      · rename_i c cs hchildren
        cases h
        have htargets := (mapM_some hchildren).imp fun _ _ hx => ih hx
        rw [← List.forall₂_map_left_iff (f := Prod.fst),List.zipIdx_map_fst] at htargets
        exact .group _ hget htargets
      · contradiction

/-- Without a cycle among the groups the recursion ends by itself at some depth, whatever
the upstreams do and wherever it is entered. -/
theorem dispatchTree_terminates {rm : ResolverManager} (hacyclic : WellFounded rm.Below)
    (target : String) :
    ∃ depth, ∀ n ≥ depth, ∀ leaf path, ∃ t, dispatchTree rm leaf n path target = some t := by
  induction target using hacyclic.induction with
  | _ target ih =>
    cases hget : rm.getGroup target with
    | none =>
      refine ⟨1,fun n hn leaf path => ?_⟩
      obtain ⟨k,rfl⟩ := Nat.exists_eq_add_of_le' hn
      exact ⟨_,by simp only [dispatchTree,hget]; rfl⟩
    | some g =>
      have hall : ∀ targets : List String, (∀ x ∈ targets, x ∈ g.upstreams) →
          ∃ depth, ∀ n ≥ depth, ∀ leaf path, ∀ x ∈ targets,
            ∃ t, dispatchTree rm leaf n path x = some t := by
        intro targets
        induction targets with
        | nil => exact fun _ => ⟨0,by simp⟩
        | cons x targets ihx =>
          intro hsub
          obtain ⟨dx,hx⟩ := ih x ⟨g,hget,hsub x List.mem_cons_self⟩
          obtain ⟨ds,hs⟩ := ihx fun y hy => hsub y (List.mem_cons_of_mem _ hy)
          refine ⟨max dx ds,fun n hn leaf path y hy => ?_⟩
          cases List.mem_cons.mp hy with
          | inl hyx => exact hyx ▸ hx n (le_of_max_le_left hn) leaf path
          | inr hys => exact hs n (le_of_max_le_right hn) leaf path y hys
      obtain ⟨depth,hdepth⟩ := hall g.upstreams fun _ hx => hx
      refine ⟨depth+1,fun n hn leaf path => ?_⟩
      obtain ⟨k,rfl⟩ := Nat.exists_eq_add_of_le' (Nat.le_trans (Nat.le_add_left 1 depth) hn)
      obtain ⟨trees,htrees⟩ := mapM_isSome (l := g.upstreams.zipIdx)
        (f := fun x => dispatchTree rm leaf k (path ++ [x.2]) x.1)
        fun x hx => hdepth k (by omega) leaf _ x.1 (List.fst_mem_of_mem_zipIdx hx)
      cases trees with
      | nil =>
        have hlength := (mapM_some htrees).length_eq
        simp [g.nonempty] at hlength
      | cons t ts => exact ⟨_,by simp only [dispatchTree,hget,htrees]; rfl⟩

mutual
/-- The leaves of the walk are targets that name no group. -/
theorem Dispatches.leaf_upstream {rm : ResolverManager} : (t : DispatchTree) →
    {target : String} → Dispatches rm target t → ∀ c ∈ t.leaves, rm.hasGroup c.target = false
  | .leaf _, _, .upstream requestTags outcome hnone => by
    intro c hc
    rw [JoinTree.leaves,List.mem_singleton] at hc
    rw [hc]
    exact hnone
  | .node _ t ts, _, .group _ _ htargets => by
    obtain ⟨_,_,ht,hts,_⟩ := List.forall₂_cons_right_iff.mp htargets
    intro c hc
    rw [JoinTree.leaves,List.mem_append] at hc
    obtain hc | hc := hc
    · exact Dispatches.leaf_upstream t ht c hc
    · exact leaf_upstreamAll ts hts c hc
theorem leaf_upstreamAll {rm : ResolverManager} : (ts : List DispatchTree) →
    {targets : List String} → List.Forall₂ (Dispatches rm) targets ts →
    ∀ c ∈ ForkJoin.leavesAll ts, rm.hasGroup c.target = false
  | [], _, _ => by simp [ForkJoin.leavesAll]
  | t :: ts, _, .cons ht hts => by
    intro c hc
    rw [ForkJoin.leavesAll,List.mem_append] at hc
    obtain hc | hc := hc
    · exact Dispatches.leaf_upstream t ht c hc
    · exact leaf_upstreamAll ts hts c hc
end

theorem DispatchesGroup.leaf_upstream {rm : ResolverManager} {g : UpstreamGroupConfig}
    {t : DispatchTree} (h : DispatchesGroup rm g t) :
    ∀ c ∈ t.leaves, rm.hasGroup c.target = false := by
  obtain ⟨_,htargets⟩ := h
  intro c hc
  exact leaf_upstreamAll _ htargets c (by simpa [JoinTree.leaves,ForkJoin.leavesAll] using hc)

/-- `dispatch_group` under a schedule: the task it leaves and the results passed to
`on_result`. -/
def dispatchGroup (strategy : DispatchStrategyType) (t : DispatchTree)
    (schedule : List (List Nat)) :
    Option (DispatchTask × List UpstreamResult) :=
  exec strategy.program schedule (spawn t)

end SmartDns
