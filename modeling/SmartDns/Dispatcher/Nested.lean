import SmartDns.Dispatcher.Registry
set_option autoImplicit false

/-!
Nested dispatch against a flat specification. `FlatOutcome` speaks only of what the
upstreams come to, as if all of them stood in one group; each join keeps a property
that composes over the levels of the tree and gives it at the root.
-/

namespace SmartDns

open scoped List
open ForkJoin (JoinTree exec spawn)
open DispatchStrategy

def LeafOutcome.Answers : LeafOutcome → Prop
  | .answered _ _ _ _ => True
  | _ => False

def LeafOutcome.SaysNxdomain : LeafOutcome → Prop
  | .answered _ _ _ _ => False
  | .failed _ _ error _ => error.kind = .nxdomain
  | .raised exc => exc.kind = .nxdomain

/-- The result tells what the upstream came to. -/
def UpstreamCall.Gives (call : UpstreamCall) (result : UpstreamResult) : Prop :=
  match call.outcome with
  | .answered upstreamName durationMs answer _ => result.upstreamName = upstreamName ∧
      result.durationMs = durationMs ∧ result.answer = some answer ∧ result.error = none
  | .failed upstreamName durationMs error _ => result.upstreamName = upstreamName ∧
      result.durationMs = durationMs ∧ result.answer = none ∧ result.error = some error
  | .raised exc => result.upstreamName = call.target ∧
      result.answer = none ∧ result.error = some exc

/-- What a dispatch over these upstreams owes its caller. -/
structure FlatOutcome (strategy : DispatchStrategyType) (calls : List UpstreamCall)
    (result : UpstreamResult) (reported : List UpstreamResult) : Prop where
  success : (∃ c ∈ calls, c.outcome.Answers) → result.success = true
  nxdomain : (∀ c ∈ calls, ¬ c.outcome.Answers) → (∃ c ∈ calls, c.outcome.SaysNxdomain) →
    result.success = false ∧ result.isNxdomain = true
  failure : (∀ c ∈ calls, ¬ c.outcome.Answers) → (∀ c ∈ calls, ¬ c.outcome.SaysNxdomain) →
    result.success = false ∧ result.error.isSome = true
  fastest : strategy = .waitAll → result.success = true →
    ∀ c ∈ calls, ∀ upstreamName durationMs answer tags,
      c.outcome = .answered upstreamName durationMs answer tags → result.durationMs ≤ durationMs
  isReported : ∃ r ∈ reported, result.core = r.core
  reportedOnce : ∃ called, called <+~ calls ∧
    List.Forall₂ (fun r c => UpstreamCall.Gives c r) reported called
  allReported : strategy = .waitAll → reported.length = calls.length

/-! ### What becomes of an upstream -/

section
variable (call : UpstreamCall)

theorem gives_result : call.Gives call.result := by
  obtain ⟨target,requestTags,outcome⟩ := call
  cases outcome with
  | answered _ _ _ _ => exact ⟨rfl,rfl,rfl,rfl⟩
  | failed _ _ _ _ => exact ⟨rfl,rfl,rfl,rfl⟩
  | raised _ => exact ⟨rfl,rfl,rfl⟩

variable {call} {r : UpstreamResult}

theorem UpstreamCall.Gives.success_iff (h : call.Gives r) :
    r.success = true ↔ call.outcome.Answers := by
  unfold UpstreamCall.Gives at h
  unfold UpstreamResult.success
  split at h
  · rename_i houtcome
    simp [houtcome,h.2.2.1,LeafOutcome.Answers]
  · rename_i houtcome
    simp [houtcome,h.2.2.1,LeafOutcome.Answers]
  · rename_i houtcome
    simp [houtcome,h.2.1,LeafOutcome.Answers]

theorem UpstreamCall.Gives.isNxdomain_iff (h : call.Gives r) :
    r.isNxdomain = true ↔ call.outcome.SaysNxdomain := by
  unfold UpstreamCall.Gives at h
  unfold UpstreamResult.isNxdomain
  split at h
  · rename_i houtcome
    simp [houtcome,h.2.2.2,LeafOutcome.SaysNxdomain]
  · rename_i houtcome
    simp [houtcome,h.2.2.2,LeafOutcome.SaysNxdomain]
  · rename_i houtcome
    simp [houtcome,h.2.2,LeafOutcome.SaysNxdomain]

/-- A result that is not a success carries an error. -/
theorem UpstreamCall.Gives.error (h : call.Gives r) (hfail : r.success = false) :
    r.error.isSome = true := by
  unfold UpstreamCall.Gives at h
  split at h
  · simp [UpstreamResult.success,h.2.2.1] at hfail
  · simp [h.2.2.2]
  · simp [h.2.2]

theorem forall₂_gives (calls : List UpstreamCall) :
    List.Forall₂ (fun r c => UpstreamCall.Gives c r) (calls.map UpstreamCall.result) calls := by
  rw [List.forall₂_map_left_iff]
  exact List.forall₂_same.mpr fun c _ => gives_result c

end

theorem dispatchResults_length (t : DispatchTree) :
    (dispatchResults t).length = t.leaves.length := List.length_map _

theorem dispatchResults_node (b : GroupCall) (t : DispatchTree) (ts : List DispatchTree) :
    dispatchResults (.node b t ts) = (t :: ts).flatMap dispatchResults := by
  simp only [dispatchResults,JoinTree.leaves_node,List.map_flatMap]
  rfl

/-- The part common to both strategies: the result is one of those produced, and no
leaf is of a better rank. -/
structure Best (t : DispatchTree) (a : UpstreamResult) (made : List UpstreamResult) : Prop where
  occurs : ∃ r ∈ made, a.core = r.core
  rank : ∀ r ∈ dispatchResults t, a.rank ≤ r.rank

/-- `wait_all` also produces every leaf and returns the fastest success. -/
structure Fastest (t : DispatchTree) (a : UpstreamResult) (made : List UpstreamResult) : Prop
    extends Best t a made where
  complete : made.Perm (dispatchResults t)
  fastest : a.success = true →
    ∀ r ∈ dispatchResults t, r.success = true → a.durationMs ≤ r.durationMs

theorem exists_run {γ δ : Type*} {R : γ → δ → Prop} {l : List γ} {m : List δ}
    (h : List.Forall₂ R l m) {a : γ} (ha : a ∈ l) : ∃ b ∈ m, R a b := by
  induction h with
  | nil => simp at ha
  | cons hab _ ih =>
    obtain rfl | ha := List.mem_cons.mp ha
    · exact ⟨_,List.mem_cons_self,hab⟩
    · obtain ⟨b,hb,hR⟩ := ih ha
      exact ⟨b,List.mem_cons_of_mem _ hb,hR⟩

theorem exists_child {γ δ : Type*} {R : γ → δ → Prop} {l : List γ} {m : List δ}
    (h : List.Forall₂ R l m) {b : δ} (hb : b ∈ m) : ∃ a ∈ l, R a b :=
  exists_run h.flip hb

section Runs
variable {b : GroupCall} {t : DispatchTree} {ts : List DispatchTree}
  {runs : List (UpstreamResult × List UpstreamResult)} {arrived : List UpstreamResult}

theorem runs_ne_nil
    {Good : DispatchTree → UpstreamResult → List UpstreamResult → Prop}
    (hruns : List.Forall₂ (fun c r => Good c r.1 r.2) (t :: ts) runs)
    (harrived : arrived.Perm (runs.map Prod.fst)) : arrived ≠ [] := by
  intro heq
  subst heq
  cases hruns with
  | cons _ _ => simp at harrived

/-- The best of the children's results is the best of all leaves below them. -/
theorem best_of_runs
    (hruns : List.Forall₂ (fun c r => Best c r.1 r.2) (t :: ts) runs)
    (harrived : arrived.Perm (runs.map Prod.fst)) {a : UpstreamResult} {x : UpstreamResult}
    (hx : x ∈ arrived) (hcore : a.core = x.core) (hbest : ∀ y ∈ arrived, x.rank ≤ y.rank) :
    Best (.node b t ts) a (runs.flatMap Prod.snd) where
  occurs := by
    obtain ⟨run,hrun,rfl⟩ := List.mem_map.mp (harrived.mem_iff.mp hx)
    obtain ⟨c,_,hgood⟩ := exists_child hruns hrun
    obtain ⟨r,hr,hra⟩ := hgood.occurs
    exact ⟨r,List.mem_flatMap.mpr ⟨run,hrun,hr⟩,hcore.trans hra⟩
  rank := by
    intro r hr
    rw [dispatchResults_node,List.mem_flatMap] at hr
    obtain ⟨c,hc,hrc⟩ := hr
    obtain ⟨run,hrun,hgood⟩ := exists_run hruns hc
    have hmem : run.1 ∈ arrived := harrived.mem_iff.mpr (List.mem_map_of_mem hrun)
    rw [UpstreamResult.rank_of_core hcore]
    exact (hbest _ hmem).trans (hgood.rank r hrc)

end Runs

theorem complete_of_runs {cs : List DispatchTree}
    {runs : List (UpstreamResult × List UpstreamResult)}
    (h : List.Forall₂ (fun c r => Fastest c r.1 r.2) cs runs) :
    (runs.flatMap Prod.snd).Perm (cs.flatMap dispatchResults) := by
  induction h with
  | nil => exact List.Perm.refl _
  | cons hgood _ ih => exact hgood.complete.append ih

theorem best_leaf (call : UpstreamCall) : Best (.leaf call) call.result [call.result] where
  occurs := ⟨call.result,List.mem_singleton_self _,rfl⟩
  rank r hr := by
    obtain rfl : r = call.result := List.mem_singleton.mp hr
    exact Nat.le_refl _

theorem race_preserves : DispatchStrategyType.race.program.Preserves Best where
  leaf := best_leaf
  early := by
    intro b t ts arrived made a hchildren _ hearly
    have hmem := List.mem_of_find?_eq_some hearly
    have hsuccess := List.find?_some hearly
    obtain ⟨c,_,m,hgood,hm⟩ := hchildren a hmem
    obtain ⟨r,hr,hra⟩ := hgood.occurs
    change Best (.node b t ts) a made
    refine ⟨⟨r,hm hr,hra⟩,fun s _ => ?_⟩
    rw [UpstreamResult.rank_eq_zero.mpr hsuccess]
    exact Nat.zero_le _
  final := by
    intro b t ts runs arrived hruns harrived hearly
    have hfail : ∀ r ∈ arrived, r.success = false := by
      simpa using List.find?_eq_none.mp hearly
    obtain ⟨hpick,hbest⟩ := pickFailureResult_best allFailed (runs_ne_nil hruns harrived) hfail
    exact best_of_runs hruns harrived hpick rfl hbest

theorem waitAll_preserves : DispatchStrategyType.waitAll.program.Preserves Fastest where
  leaf call := by
    refine ⟨best_leaf call,List.Perm.refl _,fun _ r hr _ => ?_⟩
    obtain rfl : r = call.result := List.mem_singleton.mp hr
    exact le_refl _
  early := nofun
  final := by
    intro b t ts runs arrived hruns harrived _
    have hbests := hruns.imp fun _ _ h => h.toBest
    obtain ⟨x,hx,hcore,hbest,hfast⟩ := waitAllJoin_best (runs_ne_nil hruns harrived)
    change Fastest (.node b t ts) (waitAllJoin.final arrived) _
    refine ⟨best_of_runs hbests harrived hx hcore hbest,?_,fun hsuccess r hr hrs => ?_⟩
    · rw [dispatchResults_node]
      exact complete_of_runs hruns
    · rw [dispatchResults_node,List.mem_flatMap] at hr
      obtain ⟨c,hc,hrc⟩ := hr
      obtain ⟨run,hrun,hgood⟩ := exists_run hruns hc
      have hmem : run.1 ∈ arrived := harrived.mem_iff.mpr (List.mem_map_of_mem hrun)
      have hrank : run.1.rank = 0 := by
        have := hgood.rank r hrc
        rw [UpstreamResult.rank_eq_zero.mpr hrs] at this
        exact Nat.le_zero.mp this
      have hrun1 := UpstreamResult.rank_eq_zero.mp hrank
      rw [UpstreamResult.success_of_core hcore] at hsuccess
      rw [UpstreamResult.durationMs_of_core hcore]
      exact (hfast hsuccess _ hmem hrun1).trans (hgood.fastest hrun1 r hrc hrs)

/-- Every decision of a schedule can be followed by others until the dispatch returns,
and no schedule is longer than the tree allows. -/
theorem dispatchGroup_terminates (strategy : DispatchStrategyType)
    (t : DispatchTree) {schedule : List (List Nat)}
    {s : DispatchTask} {log : List UpstreamResult}
    (h : dispatchGroup strategy t schedule = some (s,log)) :
    schedule.length ≤ (spawn t : DispatchTask).weight ∧
      ∃ rest a made log', dispatchGroup strategy t (schedule ++ rest) =
        some (.finished a made,log') :=
  ⟨Nat.le_of_add_right_le (ForkJoin.exec_length h),ForkJoin.exec_extends h⟩

theorem Best.flat {t : DispatchTree} {a : UpstreamResult} {made log : List UpstreamResult}
    {strategy : DispatchStrategyType} (h : Best t a made) (hlog : log.Perm made)
    (hmade : made <+~ dispatchResults t) (hfast : strategy = .waitAll → Fastest t a made) :
    FlatOutcome strategy t.leaves a log := by
  obtain ⟨m,hm,hcore⟩ := h.occurs
  obtain ⟨call,hcall,rfl⟩ := List.mem_map.mp (hmade.subset hm)
  have hgives := gives_result call
  have hrank := UpstreamResult.rank_of_core hcore
  have hsuccess := UpstreamResult.success_of_core hcore
  have hnx : a.isNxdomain = call.result.isNxdomain := by
    rw [← UpstreamResult.core_isNxdomain a,hcore,UpstreamResult.core_isNxdomain]
  have herr : a.error = call.result.error := by
    change a.core.error = call.result.core.error
    rw [hcore]
  have hfailed (hfail : ∀ c ∈ t.leaves, ¬ c.outcome.Answers) : call.result.success = false :=
    Bool.eq_false_of_not_eq_true fun hs => hfail call hcall (hgives.success_iff.mp hs)
  refine ⟨?_,?_,?_,?_,⟨call.result,hlog.mem_iff.mpr hm,hcore⟩,?_,?_⟩
  · intro h'
    obtain ⟨c,hc,hanswers⟩ := h'
    have hle := h.rank c.result (List.mem_map_of_mem hc)
    rw [UpstreamResult.rank_eq_zero.mpr ((gives_result c).success_iff.mpr hanswers)] at hle
    exact UpstreamResult.rank_eq_zero.mp (Nat.le_zero.mp hle)
  · intro hfail h'
    obtain ⟨c,hc,hmeans⟩ := h'
    have hle := (h.rank c.result (List.mem_map_of_mem hc)).trans
      (UpstreamResult.rank_le_one.mpr (.inr ((gives_result c).isNxdomain_iff.mpr hmeans)))
    have hms := hsuccess.trans (hfailed hfail)
    refine ⟨hms,(UpstreamResult.rank_le_one.mp hle).resolve_left ?_⟩
    simp [hms]
  · intro hfail _
    exact ⟨hsuccess.trans (hfailed hfail),by rw [herr]; exact hgives.error (hfailed hfail)⟩
  · intro hs hok c hc upstreamName durationMs answer tags houtcome
    have hgiven := gives_result c
    have hanswered := hgiven.success_iff.mpr (by simp [houtcome,LeafOutcome.Answers])
    have hle := (hfast hs).fastest hok c.result (List.mem_map_of_mem hc) hanswered
    simp only [UpstreamCall.Gives,houtcome] at hgiven
    rw [hgiven.2.1] at hle
    exact hle
  · obtain ⟨made',hperm,hsub⟩ := hlog.subperm.trans hmade
    obtain ⟨called,hcalled,rfl⟩ := List.sublist_map_iff.mp hsub
    obtain ⟨called',hreported,hperm'⟩ :=
      List.perm_comp_forall₂ hperm.symm (forall₂_gives called)
    exact ⟨called',hperm'.subperm.trans hcalled.subperm,hreported⟩
  · intro hs
    rw [(hlog.trans (hfast hs).complete).length_eq]
    exact dispatchResults_length t

/-- A dispatch of nested groups returns what a flat dispatch of the same upstreams owes, under
every schedule, and calls `on_result` just for the upstream results that are produced. -/
theorem dispatchGroup_refines_flat (rm : ResolverManager) (g : UpstreamGroupConfig)
    (strategy : DispatchStrategyType) (t : DispatchTree) (ht : DispatchesGroup rm g t) :
    (∀ c ∈ t.leaves, rm.hasGroup c.target = false) ∧
    (∀ schedule s log, dispatchGroup strategy t schedule = some (s,log) →
      schedule.length ≤ (spawn t : DispatchTask).weight ∧
        ∃ rest a made log', dispatchGroup strategy t (schedule ++ rest) =
          some (.finished a made,log')) ∧
    ∀ schedule a made log, dispatchGroup strategy t schedule = some (.finished a made,log) →
        log.Perm made ∧ FlatOutcome strategy t.leaves a log := by
  refine ⟨ht.leaf_upstream,fun _ _ _ h => dispatchGroup_terminates strategy t h,
    fun schedule a made log h => ?_⟩
  have hlog := ForkJoin.exec_reported (program_reportsLeaves strategy) h
  cases strategy with
  | race =>
    obtain ⟨hgood,hmade⟩ := ForkJoin.exec_finished race_preserves h
    exact ⟨hlog,hgood.flat hlog hmade (by simp)⟩
  | waitAll =>
    obtain ⟨hgood,hmade⟩ := ForkJoin.exec_finished waitAll_preserves h
    exact ⟨hlog,hgood.toBest.flat hlog hmade fun _ => hgood⟩

/-- A group of one upstream and one group of two, which all time out. -/
def nestedGroups : ResolverManager where
  groups := [⟨"default",["local","c"],by decide⟩,⟨"local",["a","b"],by decide⟩]

def nestedTree : DispatchTree :=
  .node ⟨"default",∅⟩ (.node ⟨"local",∅⟩ (.leaf (timingOut "a")) [.leaf (timingOut "b")])
    [.leaf (timingOut "c")]

theorem nestedTree_dispatches :
    DispatchesGroup nestedGroups ⟨"default",["local","c"],by decide⟩ nestedTree := by
  have upstream (target : String) (h : nestedGroups.hasGroup target = false) :
      Dispatches nestedGroups target (.leaf (timingOut target)) := .upstream ∅ _ h
  have hlocal : nestedGroups.getGroup "local" = some ⟨"local",["a","b"],by decide⟩ := by decide
  exact .mk ∅ (.cons (.group ∅ hlocal (.cons (upstream "a" (by decide))
    (.cons (upstream "b" (by decide)) .nil))) (.cons (upstream "c" (by decide)) .nil))

def inOrder : List (List Nat) := [[0,0],[0,0],[0,1],[0,1],[0],[0],[1],[1],[]]

theorem dispatchGroup_refines_flat_nested :
    ∃ a made log, dispatchGroup .race nestedTree inOrder = some (.finished a made,log) ∧
      log.Perm made ∧ FlatOutcome .race nestedTree.leaves a log :=
  ⟨_,_,_,rfl,(dispatchGroup_refines_flat nestedGroups _ .race nestedTree
    nestedTree_dispatches).2.2 inOrder _ _ _ rfl⟩

/-! ### What `wait_all` collects -/

/-- A node collects one result for each of its targets, and these are the leaf results
where every target has a single leaf. -/
structure Collects (t : DispatchTree) (a : UpstreamResult) (made : List UpstreamResult) : Prop
    extends Fastest t a made where
  count : t.children ≠ [] → a.collectedResults.length = t.children.length
  keeps : t.children ≠ [] → (∀ c ∈ t.children, c.leaves.length = 1) →
    (a.collectedResults.map UpstreamResult.core).Perm ((dispatchResults t).map UpstreamResult.core)

theorem Fastest.core_eq {t : DispatchTree} {a : UpstreamResult} {made : List UpstreamResult}
    (h : Fastest t a made) (hone : t.leaves.length = 1) :
    [a.core] = (dispatchResults t).map UpstreamResult.core := by
  rw [← dispatchResults_length] at hone
  obtain ⟨l,hl⟩ := List.length_eq_one_iff.mp hone
  obtain ⟨r,hr,hcore⟩ := h.occurs
  have hmem := h.complete.subset hr
  rw [hl,List.mem_singleton] at hmem
  rw [hl,hcore,hmem]
  rfl

theorem core_of_runs {cs : List DispatchTree}
    {runs : List (UpstreamResult × List UpstreamResult)}
    (h : List.Forall₂ (fun c r => Fastest c r.1 r.2) cs runs)
    (hone : ∀ c ∈ cs, c.leaves.length = 1) :
    (runs.map Prod.fst).map UpstreamResult.core =
      (cs.flatMap dispatchResults).map UpstreamResult.core := by
  induction h with
  | nil => rfl
  | cons hgood _ ih =>
    have hhead := hgood.core_eq (hone _ List.mem_cons_self)
    have htail := ih fun c hc => hone c (List.mem_cons_of_mem _ hc)
    rw [List.flatMap_cons,List.map_append,← hhead,← htail]
    rfl

theorem waitAll_collects : DispatchStrategyType.waitAll.program.Preserves Collects where
  leaf call := ⟨waitAll_preserves.leaf call,fun h => absurd rfl h,fun h => absurd rfl h⟩
  early := nofun
  final := by
    intro b t ts runs arrived hruns harrived hearly
    have hfast := hruns.imp fun _ _ h => h.toFastest
    change Collects (.node b t ts) (waitAllJoin.final arrived) _
    refine ⟨waitAll_preserves.final b t ts runs arrived hfast harrived hearly,fun _ => ?_,
      fun _ hone => ?_⟩
    · rw [waitAllJoin_collected,harrived.length_eq,List.length_map]
      exact hruns.length_eq.symm
    · rw [waitAllJoin_collected,dispatchResults_node,← core_of_runs hfast hone]
      exact harrived.map _

theorem length_le_flatMap {cs : List DispatchTree} :
    cs.length ≤ (cs.flatMap JoinTree.leaves).length ∧
      ((cs.flatMap JoinTree.leaves).length = cs.length → ∀ c ∈ cs, c.leaves.length = 1) := by
  induction cs with
  | nil => simp
  | cons c cs ih =>
    have hpos := List.length_pos_iff.mpr c.leaves_ne_nil
    simp only [List.flatMap_cons,List.length_append,List.length_cons,List.mem_cons]
    refine ⟨by omega,fun heq => ?_⟩
    intro d h
    obtain rfl | hd := h
    · omega
    · exact ih.2 (by omega) d hd

/-- `collected_results` holds every leaf result exactly once just when every target of
the dispatched group stands for a single upstream. -/
theorem waitAll_collectedResults_iff (rm : ResolverManager) (g : UpstreamGroupConfig)
    (t : DispatchTree) (ht : DispatchesGroup rm g t) (schedule : List (List Nat))
    (a : UpstreamResult) (made log : List UpstreamResult)
    (h : dispatchGroup .waitAll t schedule = some (.finished a made,log)) :
    (a.collectedResults.map UpstreamResult.core).Perm
      ((dispatchResults t).map UpstreamResult.core) ↔
      ∀ c ∈ t.children, c.leaves.length = 1 := by
  obtain ⟨hgood,-⟩ := ForkJoin.exec_finished waitAll_collects h
  obtain @⟨requestTags,first,rest,_⟩ := ht
  have hchildren : (JoinTree.node (⟨g.name,requestTags⟩ : GroupCall) first rest).children ≠ [] :=
    List.cons_ne_nil _ _
  refine ⟨fun hperm => ?_,hgood.keeps hchildren⟩
  have hlen := hperm.length_eq
  rw [List.length_map,List.length_map,dispatchResults_length,hgood.count hchildren,
    JoinTree.leaves_node] at hlen
  exact length_le_flatMap.2 hlen.symm

theorem waitAll_collectedResults_iff_nested :
    ∃ a made log, dispatchGroup .waitAll nestedTree inOrder = some (.finished a made,log) ∧
      ((a.collectedResults.map UpstreamResult.core).Perm
          ((dispatchResults nestedTree).map UpstreamResult.core) ↔
        ∀ c ∈ nestedTree.children, c.leaves.length = 1) :=
  ⟨_,_,_,rfl,waitAll_collectedResults_iff nestedGroups _ nestedTree nestedTree_dispatches
    inOrder _ _ _ rfl⟩

/-- Of three upstream results in a nested group, one is missing. -/
theorem waitAll_loses_nested_result :
    DispatchesGroup nestedGroups ⟨"default",["local","c"],by decide⟩ nestedTree ∧
    ∃ a made log, dispatchGroup .waitAll nestedTree inOrder = some (.finished a made,log) ∧
      a.collectedResults.map UpstreamResult.upstreamName = ["a","c"] ∧
      ¬ (a.collectedResults.map UpstreamResult.core).Perm
        ((dispatchResults nestedTree).map UpstreamResult.core) := by
  refine ⟨nestedTree_dispatches,_,_,_,rfl,rfl,fun h => ?_⟩
  have hlen : 2 = 3 := h.length_eq
  omega

end SmartDns
