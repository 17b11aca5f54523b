import SmartDns.Cache.Ownership
import SmartDns.Pipeline.Trace
set_option autoImplicit false

/-!
The single flight of the cache plugin along `handle_message`: whether the followers of
an owner are woken, and with what, told from the contexts on which its hooks are called and
from what other requests do in between.
-/

namespace SmartDns

open CachePlugin (ownerContext Extended)

variable {E S W α β : Type}

/-! ### Programs that have nothing to do with the cache plugin -/

/-- A predicate on what the cache plugin has to do with a state. -/
abbrev Holds (I : CachePluginContext → DnsCacheService W → List (CacheCall E) → Prop)
    (s : EngineState (CacheExtensions E) (CacheServices W S)) : Prop :=
  I s.context.extensions.cache s.services.cache (cacheCalls s.log)

/-- The program leaves the context, the service and the calls of the plugin alone. -/
def Apart (x : Engine (CacheExtensions E) (CacheServices W S) α) : Prop :=
  ∀ I : CachePluginContext → DnsCacheService W → List (CacheCall E) → Prop,
    Exec.Keeps (fun s => I s.context.extensions.cache s.services.cache (cacheCalls s.log)) x

section
variable {x : Engine (CacheExtensions E) (CacheServices W S) α}

theorem apart_of_run
    (hextensions : ∀ s, (x s).2.context.extensions.cache = s.context.extensions.cache)
    (hservices : ∀ s, (x s).2.services.cache = s.services.cache)
    (hlog : ∀ s, cacheCalls (x s).2.log = cacheCalls s.log) : Apart x := by
  refine fun I => Exec.Keeps.of_run fun s hs => ?_
  rw [hextensions,hservices,hlog]
  exact hs

theorem Apart.bind {f : α → Engine (CacheExtensions E) (CacheServices W S) β} (hx : Apart x)
    (hf : ∀ a, Apart (f a)) : Apart (x >>= f) := fun I => (hx I).bind fun a => hf a I

end

theorem apart_pure (a : α) : Apart (pure a : Engine (CacheExtensions E) (CacheServices W S) α) :=
  fun _ => Exec.Keeps.pure a

theorem apart_ofExcept (r : Except PyException α) :
    Apart (Exec.ofExcept r : Engine (CacheExtensions E) (CacheServices W S) α) :=
  fun _ => Exec.Keeps.ofExcept r

theorem apart_mapContext
    {f : RequestContext (CacheExtensions E) → RequestContext (CacheExtensions E)}
    (hf : ∀ c, (f c).extensions = c.extensions) :
    Apart (Exec.modify (EngineState.mapContext f) :
      Engine (CacheExtensions E) (CacheServices W S) Unit) :=
  apart_of_run (fun s => congrArg CacheExtensions.cache (hf s.context)) (fun _ => rfl) fun _ => rfl

theorem apart_notePlugin (p : Plugin (CacheExtensions E) (CacheServices W S)) :
    Apart (Exec.modify (EngineState.mapContext (notePlugin p)) :
      Engine (CacheExtensions E) (CacheServices W S) Unit) := apart_mapContext fun _ => rfl

theorem apart_onContext {x : Exec PyException (RequestContext (CacheExtensions E)) α}
    (h : ∀ y, Exec.Keeps (fun c => c.extensions = y) x) :
    Apart (onContext x : Engine (CacheExtensions E) (CacheServices W S) α) :=
  apart_of_run (fun s => congrArg CacheExtensions.cache ((h s.context.extensions).run rfl))
    (fun _ => rfl) fun _ => rfl

/-- The hooks of another plugin. -/
theorem apart_liftHook (x : PluginHook E S) :
    Apart (onPlugin (liftHook x) : Engine (CacheExtensions E) (CacheServices W S) Unit) :=
  apart_of_run (fun _ => rfl) (fun _ => rfl) fun _ => rfl

theorem apart_callHook {kind : HookKind} {p : Plugin (CacheExtensions E) (CacheServices W S)}
    (hname : p.name ≠ cachePluginName) (x : PluginHook E S) :
    Apart (callHook kind p (liftHook x)) := by
  refine Apart.bind ?_ fun _ => apart_liftHook x
  exact apart_of_run (fun _ => rfl) (fun _ => rfl) fun s => by
    simp [EngineState.record,cacheCalls,Event.cacheCall?,hname]

/-! ### The calls of the cache plugin -/

section
variable {codec : Codec W} {now : ℚ} {meanwhile : Meanwhile W} {key : CacheKey}

/-- No hook has been called that can touch a key. -/
def OnlyRequested (calls : List (CacheCall E)) : Prop := ∀ call ∈ calls, call.1 = .request

theorem OnlyRequested.untouched {calls : List (CacheCall E)} (h : OnlyRequested calls) :
    Untouched codec now key (meanwhile.moves calls) := by
  intro move hmove
  obtain ⟨⟨kind,c⟩,hcall,hmove⟩ := List.mem_flatMap.mp hmove
  obtain rfl : kind = .request := h _ hcall
  obtain rfl : move = .own (.request,c) := by simpa [Meanwhile.around,Meanwhile.before,
    Meanwhile.after] using hmove
  rintro (⟨result,hresult⟩ | habandons)
  · exact hresult
  · exact habandons

/-- The request has not come to the cache plugin. -/
def Unowned (s : EngineState (CacheExtensions E) (CacheServices W S)) : Prop :=
  s.context.extensions.cache = {} ∧ OnlyRequested (cacheCalls s.log)

theorem Apart.unowned {x : Engine (CacheExtensions E) (CacheServices W S) α} (h : Apart x) :
    Exec.Keeps Unowned x :=
  h fun x _ calls => x = {} ∧ OnlyRequested calls

theorem cacheCalls_record (kind : HookKind) (c : RequestContext (CacheExtensions E))
    (s : EngineState (CacheExtensions E) (CacheServices W S)) :
    cacheCalls (s.record (.called kind cachePluginName c)).log =
      cacheCalls s.log ++ [(kind,c)] := by
  simp [EngineState.record,cacheCalls,Event.cacheCall?]

/-- `on_request` has come past the cache plugin: the request is no owner, or its key is
registered and nothing has touched it. -/
def Past (x : CachePluginContext) (s : DnsCacheService W) (calls : List (CacheCall E)) : Prop :=
  OnlyRequested calls ∧ (x.pendingOwner = false ∨
    ∃ key future, x = ownerContext key future ∧ s.Registered key future)

variable (codec now meanwhile) in
/-- The calls so far, and what the others did around them, account for the owner's future. -/
def AccountedIn (x : CachePluginContext) (s : DnsCacheService W) (calls : List (CacheCall E)) :
    Prop :=
  Accounted codec now x s (meanwhile.moves calls)

theorem Past.accounted {x : CachePluginContext} {s : DnsCacheService W} {calls : List (CacheCall E)}
    (h : Past x s calls) : AccountedIn codec now meanwhile x s calls := by
  obtain ⟨hcalls,hx | ⟨key,future,hx,hs⟩⟩ := h
  · exact .outsider hx
  · exact .held key future hx hcalls.untouched hs

theorem Unowned.past {s : EngineState (CacheExtensions E) (CacheServices W S)} (h : Unowned s) :
    Holds Past s := ⟨h.2,.inl (by rw [h.1])⟩

theorem callRequest_past :
    Exec.Triple Unowned
      (callHook .request (cachePlugin codec now meanwhile)
        (CachePlugin.onRequest codec now meanwhile.wakes) :
        Engine (CacheExtensions E) (CacheServices W S) Unit)
      (fun _ => Holds Past) fun _ => Holds Past := by
  refine Exec.Triple.of_run fun s hs => ?_
  have hcalls : OnlyRequested (cacheCalls s.log ++ [(.request,s.context)]) := by
    intro call hcall
    obtain hold | hnew := List.mem_append.mp hcall
    · exact hs.2 call hold
    · rw [List.mem_singleton.mp hnew]
  rw [← cacheCalls_record] at hcalls
  unfold callHook
  rw [Exec.bind_ok (Exec.run_modify _ s)]
  exact ⟨hcalls,(onRequest_decides meanwhile.wakes).run (s:=(s.context,s.services)) hs.1⟩

/-- A hook of the cache plugin, with the acts of the others around it, that does what its moves
say. -/
theorem callHook_accounted {kind : HookKind} {p : Plugin (CacheExtensions E) (CacheServices W S)}
    (hname : p.name = cachePluginName) {hook : CacheExec E S W Unit}
    (hextensions : ∀ x, Exec.Keeps (Extended x) hook)
    (hmoves : ∀ q moves, Accounted codec now q.1.extensions.cache q.2.cache moves →
      Accounted codec now q.1.extensions.cache (hook q).2.2.cache
        (moves ++ meanwhile.around (kind,q.1))) :
    Exec.Keeps (Holds (AccountedIn codec now meanwhile)) (callHook kind p hook) := by
  refine Exec.Keeps.of_run fun s hs => ?_
  have hcalls := cacheCalls_record kind s.context s
  have hx : (hook (s.context,s.services)).2.1.extensions.cache = s.context.extensions.cache :=
    congrArg CacheExtensions.cache
      ((hextensions s.context.extensions).run (s:=(s.context,s.services)) rfl)
  have happend : meanwhile.moves (cacheCalls s.log ++ [(kind,s.context)]) =
      meanwhile.moves (cacheCalls s.log) ++ meanwhile.around (kind,s.context) := by
    simp [Meanwhile.moves]
  unfold callHook
  rw [hname,Exec.bind_ok (Exec.run_modify _ s)]
  change Accounted codec now (hook (s.context,s.services)).2.1.extensions.cache _
    (meanwhile.moves (cacheCalls (s.record _).log))
  rw [hcalls,happend,hx]
  exact hmoves (s.context,s.services) _ hs

theorem othersAct_extensions (acts : List DnsCacheService.Act) (x : CacheExtensions E) :
    Exec.Keeps (Extended x) (CachePlugin.othersAct codec acts : CacheExec E S W Unit) :=
  CachePlugin.onService_extensions x _

theorem responseHook_extensions (x : CacheExtensions E) :
    Exec.Keeps (Extended x) (CachePlugin.responseHook codec now meanwhile : CacheExec E S W Unit) :=
  (othersAct_extensions _ x).bind fun _ => CachePlugin.onResponse_extensions codec now x

theorem finishHook_extensions (x : CacheExtensions E) :
    Exec.Keeps (Extended x) (CachePlugin.finishHook codec now meanwhile : CacheExec E S W Unit) :=
  Exec.Triple.ensuring
    ((othersAct_extensions _ x).bind fun _ => CachePlugin.onFinish_extensions codec now x)
    (othersAct_extensions _ x)

section
variable {q : RequestContext (CacheExtensions E) × CacheServices W S} {moves : List (Move E)}

/-- The others' turn before a hook of the cache plugin, and then the hook. -/
theorem ownTurn_accounted (acts : List DnsCacheService.Act) (kind : HookKind)
    (hook : CacheExec E S W Unit)
    (hheld : ∀ q key future, q.1.extensions.cache = ownerContext key future →
      q.2.cache.Registered key future →
      Settles codec key future (HandsOver codec now key (.own (kind,q.1)))
        (Abandons codec key (.own (kind,q.1))) (hook q).2.2.cache)
    (hrest : ∀ future value, Exec.Keeps (CachePlugin.AtRest future value) hook)
    (h : Accounted codec now q.1.extensions.cache q.2.cache moves) :
    Accounted codec now q.1.extensions.cache
      ((do
        CachePlugin.othersAct codec acts
        hook : CacheExec E S W Unit) q).2.2.cache
      (moves ++ acts.map .other ++ [.own (kind,q.1)]) := by
  let q' := (q.1,{ q.2 with cache := q.2.cache.acts codec acts })
  have hacts : CachePlugin.othersAct codec acts q = (.ok (),q') := rfl
  rw [Exec.bind_ok hacts]
  exact (h.acts acts).step (fun key future hx hs => hheld q' key future hx hs)
    fun future value hs => (hrest future value).run (s:=q') hs

theorem responseHook_accounted (h : Accounted codec now q.1.extensions.cache q.2.cache moves) :
    Accounted codec now q.1.extensions.cache
      (CachePlugin.responseHook codec now meanwhile q).2.2.cache
      (moves ++ meanwhile.around (.response,q.1)) := by
  have hturn := ownTurn_accounted meanwhile.beforeResponse .response
    (CachePlugin.onResponse codec now)
    (fun _ _ _ hown hs => CachePlugin.onResponse_settles codec now hown hs)
    (fun _ _ => CachePlugin.onResponse_atRest) h
  rw [List.append_assoc] at hturn
  exact hturn

theorem finishHook_accounted (h : Accounted codec now q.1.extensions.cache q.2.cache moves) :
    Accounted codec now q.1.extensions.cache
      (CachePlugin.finishHook codec now meanwhile q).2.2.cache
      (moves ++ meanwhile.around (.finish,q.1)) := by
  have hturn := ownTurn_accounted meanwhile.beforeFinish .finish (CachePlugin.onFinish codec now)
    (fun _ _ _ hown hs => CachePlugin.onFinish_settles hown hs)
    (fun _ _ => CachePlugin.onFinish_atRest) h
  have hacts := hturn.acts meanwhile.afterFinish
  rw [List.append_assoc,List.append_assoc] at hacts
  exact hacts

end

end

/-! ### The loaded plugins -/

/-- A plugin that is not the cache plugin. -/
def Other (p : Plugin (CacheExtensions E) (CacheServices W S)) : Prop :=
  ∃ q : Plugin E S, q.name ≠ cachePluginName ∧ p = liftPlugin q

section
variable (codec : Codec W) (now : ℚ) (engine : PipelineEngine E S) (loading : CacheLoading E S)
  (meanwhile : Meanwhile W)

theorem other_of_loading {p : Plugin (CacheExtensions E) (CacheServices W S)}
    (h : p ∈ loading.before.map liftPlugin ++ loading.after.map liftPlugin) : Other p := by
  rw [← List.map_append] at h
  obtain ⟨q,hq,rfl⟩ := List.mem_map.mp h
  exact ⟨q,loading.named q hq,rfl⟩

theorem loadedPlugins_cases {p : Plugin (CacheExtensions E) (CacheServices W S)}
    (h : p ∈ (engine.withCache codec now loading meanwhile).loadedPlugins) :
    p = cachePlugin codec now meanwhile ∨ Other p := by
  obtain h | h := List.mem_append.mp h
  · exact .inr (other_of_loading loading (List.mem_append_left _ h))
  · obtain rfl | h := List.mem_cons.mp h
    · exact .inl rfl
    · exact .inr (other_of_loading loading (List.mem_append_right _ h))

/-- Whatever the order of the plugins, the cache plugin is called once. -/
theorem orderedPlugins_once (order : Plugin (CacheExtensions E) (CacheServices W S) → Int) :
    ∃ before after,
      orderedPlugins order (engine.withCache codec now loading meanwhile).loadedPlugins =
        before ++ cachePlugin codec now meanwhile :: after ∧ ∀ p ∈ before ++ after, Other p := by
  have hmem : cachePlugin codec now meanwhile ∈
      orderedPlugins order (engine.withCache codec now loading meanwhile).loadedPlugins :=
    mem_orderedPlugins.mpr (List.mem_append_right _ List.mem_cons_self)
  obtain ⟨before,after,hsplit⟩ := List.append_of_mem hmem
  have hperm := List.perm_insertionSort (fun a b => order a ≤ order b)
    (engine.withCache codec now loading meanwhile).loadedPlugins
  change (orderedPlugins order _).Perm _ at hperm
  rw [hsplit] at hperm
  have hrest := ((List.perm_middle.symm.trans hperm).trans List.perm_middle).cons_inv
  exact ⟨before,after,hsplit,fun p hp => other_of_loading loading (hrest.mem_iff.mp hp)⟩

variable {codec now engine loading meanwhile}

theorem onRequest_past :
    Exec.Triple Unowned
      (PluginManager.onRequest (engine.withCache codec now loading meanwhile).loadedPlugins)
      (fun _ => Holds Past) fun _ => Holds Past := by
  obtain ⟨before,after,hsplit,hothers⟩ := orderedPlugins_once codec now engine loading meanwhile
    Plugin.requestOrder
  unfold PluginManager.onRequest
  rw [hsplit]
  have hother {p : Plugin (CacheExtensions E) (CacheServices W S)} (hp : p ∈ before ++ after) :
      Apart (do
        Exec.modify (EngineState.mapContext (notePlugin p))
        callHook .request p p.onRequest) := by
    obtain ⟨q,hq,rfl⟩ := hothers p hp
    exact (apart_notePlugin _).bind fun _ => apart_callHook hq q.onRequest
  refine Exec.Triple.eachUntil_turn (fun _ => Unowned.past) ?_ ?_ ?_
  · exact fun p hp => (hother (List.mem_append_left _ hp)).unowned
  · have hnote := (apart_notePlugin (cachePlugin (E:=E) (S:=S) codec now meanwhile)).unowned
    exact Exec.Triple.bind (Q:=fun _ => Unowned)
      (hnote.conseq (fun _ h => h) (fun _ _ h => h) fun _ _ h => h.past)
      fun _ => callRequest_past
  · exact fun p hp => hother (List.mem_append_right _ hp) _

/-- An invariant of the calls of the cache plugin after `on_request`. -/
structure KeptByCalls (codec : Codec W) (now : ℚ) (E S : Type) (meanwhile : Meanwhile W)
    (I : CachePluginContext → DnsCacheService W → List (CacheCall E) → Prop) : Prop where
  response : Exec.Keeps (Holds I)
    (callHook .response (cachePlugin codec now meanwhile)
      (CachePlugin.responseHook codec now meanwhile) :
      Engine (CacheExtensions E) (CacheServices W S) Unit)
  observe : Exec.Keeps (Holds I)
    (callHook .observe (cachePlugin codec now meanwhile) Exec.skip :
      Engine (CacheExtensions E) (CacheServices W S) Unit)
  finish : Exec.Keeps (Holds I)
    (callHook .finish (cachePlugin codec now meanwhile)
      (CachePlugin.finishHook codec now meanwhile) :
      Engine (CacheExtensions E) (CacheServices W S) Unit)

theorem accounted_keptByCalls :
    KeptByCalls codec now E S meanwhile (AccountedIn codec now meanwhile) where
  response := callHook_accounted rfl responseHook_extensions fun _ _ h => responseHook_accounted h
  observe := callHook_accounted rfl (fun _ => Exec.Keeps.pure ()) fun _ _ h =>
    h.step (fun _ _ _ hs => .left (fun _ => id) id hs) fun _ _ hs => hs
  finish := callHook_accounted rfl finishHook_extensions fun _ _ h => finishHook_accounted h

variable {I : CachePluginContext → DnsCacheService W → List (CacheCall E) → Prop}

theorem KeptByCalls.onResponse (h : KeptByCalls codec now E S meanwhile I) :
    Exec.Keeps (Holds I)
      (PluginManager.onResponse (engine.withCache codec now loading meanwhile).loadedPlugins) := by
  refine Exec.Keeps.eachUntil fun p hp => ?_
  obtain rfl | ⟨q,hq,rfl⟩ :=
    loadedPlugins_cases codec now engine loading meanwhile (mem_orderedPlugins.mp hp)
  · exact h.response
  · exact apart_callHook hq q.onResponse I

theorem KeptByCalls.onObserve (h : KeptByCalls codec now E S meanwhile I) :
    Exec.Keeps (Holds I)
      (PluginManager.onObserve (engine.withCache codec now loading meanwhile).loadedPlugins) := by
  refine Exec.Keeps.each fun p hp => ?_
  obtain rfl | ⟨q,hq,rfl⟩ :=
    loadedPlugins_cases codec now engine loading meanwhile (mem_orderedPlugins.mp hp)
  · exact h.observe
  · exact apart_callHook hq q.onObserve I

theorem KeptByCalls.onFinish (h : KeptByCalls codec now E S meanwhile I) :
    Exec.Keeps (Holds I)
      (PluginManager.onFinish (engine.withCache codec now loading meanwhile).loadedPlugins) := by
  refine Exec.Keeps.each fun p hp => Exec.Keeps.handle ?_ fun _ => Exec.Keeps.pure ()
  obtain rfl | ⟨q,hq,rfl⟩ := loadedPlugins_cases codec now engine loading meanwhile hp
  · exact h.finish
  · exact apart_callHook hq q.onFinish I

end

/-! ### The phases of a request -/

section
variable {codec : Codec W} {now : ℚ} {engine : PipelineEngine E S} {loading : CacheLoading E S}
  {meanwhile : Meanwhile W}
  (env : Surroundings (CacheExtensions E)
    (engine.withCache codec now loading meanwhile).resolverManager)

theorem selectGroup_apart :
    Apart (selectGroup (engine.withCache codec now loading meanwhile)) := by
  refine fun I => Exec.Keeps.of_run fun s hs => ?_
  obtain ⟨-,e,hrun⟩ | ⟨-,g,strategy,s',hrun,hlog,hservices,_,_,_,hcontext⟩ :=
    selectGroup_run (engine.withCache codec now loading meanwhile) s
  · rw [hrun]
    exact hs
  · have hcalls : cacheCalls s'.log = cacheCalls s.log := by
      simp [hlog,cacheCalls,Event.cacheCall?]
    rw [hrun]
    simp only [hcalls,hservices,hcontext]
    exact hs

theorem dispatchContext_apart (group : UpstreamGroupConfig) (strategy : DispatchStrategyType) :
    Apart (dispatchContext (engine.withCache codec now loading meanwhile) env group strategy) := by
  refine Apart.bind (fun I => Exec.Keeps.weave fun t ht x hx => ?_) fun _ => apart_pure _
  rw [List.mem_cons,List.mem_map] at ht
  obtain rfl | ⟨result,_,rfl⟩ := ht
  · rw [List.mem_singleton] at hx
    exact hx ▸ apart_mapContext (fun _ => rfl) I
  · obtain ⟨p,hp,hx⟩ := List.mem_flatMap.mp hx
    obtain rfl | ⟨q,-,rfl⟩ :=
      loadedPlugins_cases codec now engine loading meanwhile (mem_orderedPlugins.mp hp)
    · simp [cachePlugin] at hx
    · simp only [liftPlugin,List.map_map,List.mem_map] at hx
      obtain ⟨y,-,rfl⟩ := hx
      exact apart_liftHook y I

theorem takeResult_extensions (result : UpstreamResult) (x : CacheExtensions E) :
    Exec.Keeps (fun c => c.extensions = x) (takeResult result) := by
  refine Exec.Keeps.get.bind fun c => ?_
  split
  · split
    · exact Exec.Keeps.of_run fun _ h => h
    · split
      · exact (Exec.Keeps.ofExcept _).bind fun _ => Exec.Keeps.of_run fun _ h => h
      · exact Exec.Keeps.pure ()
  · exact Exec.Keeps.pure ()

theorem finalizeContext_extensions (codec : Codec W) (now : ℚ) (x : CacheExtensions E) :
    Exec.Keeps (fun c => c.extensions = x) (finalizeContext codec now) := by
  refine Exec.Keeps.get.bind fun c => ?_
  split
  · exact (Exec.Keeps.ofExcept _).bind fun _ => Exec.Keeps.of_run fun _ h => h
  · exact (CachePlugin.syncFinalAnswer_extensions codec now x _).bind fun _ =>
      (Exec.Keeps.ofExcept _).bind fun _ => Exec.Keeps.of_run fun _ h => h
  · exact (Exec.Keeps.ofExcept _).bind fun _ => (Exec.Keeps.of_run fun _ h => h).bind fun _ =>
      (Exec.Keeps.ofExcept _).bind fun _ => Exec.Keeps.of_run fun _ h => h

theorem askUpstreams_apart :
    Apart (askUpstreams (engine.withCache codec now loading meanwhile) env) :=
  selectGroup_apart.bind fun _ => (dispatchContext_apart env _ _).bind fun _ =>
    (apart_onContext (takeResult_extensions _)).bind fun _ => apart_pure _

variable {I : CachePluginContext → DnsCacheService W → List (CacheCall E) → Prop}
  {P : EngineState (CacheExtensions E) (CacheServices W S) → Prop}

theorem runRequestPhase_keeps
    (hrequest : Exec.Triple P
      (PluginManager.onRequest (engine.withCache codec now loading meanwhile).loadedPlugins)
      (fun _ => Holds I) fun _ => Holds I) :
    Exec.Triple P (runRequestPhase (engine.withCache codec now loading meanwhile) env)
      (fun _ => Holds I) fun _ => Holds I := by
  refine hrequest.bind fun _ => Exec.Keeps.get.bind fun s => ?_
  split
  · exact Exec.Keeps.pure _
  · split
    · exact Exec.Keeps.pure _
    · split
      · exact Exec.Keeps.pure _
      · exact askUpstreams_apart env I

theorem KeptByCalls.runResponsePhase (h : KeptByCalls codec now E S meanwhile I) :
    Exec.Keeps (Holds I) (runResponsePhase (engine.withCache codec now loading meanwhile)) := by
  refine Exec.Keeps.get.bind fun s => ?_
  split
  · exact Exec.Keeps.pure _
  · exact h.onResponse.bind fun _ => Exec.Keeps.get.bind fun _ => Exec.Keeps.pure _

theorem KeptByCalls.respond (h : KeptByCalls codec now E S meanwhile I) (codec' : Codec W) :
    Exec.Keeps (Holds I) (respond codec' (engine.withCache codec now loading meanwhile) env) :=
  (apart_onContext (finalizeContext_extensions codec' env.now) I).bind fun _ =>
    (h.onObserve.handle fun _ => Exec.Keeps.pure ()).bind fun _ =>
      Exec.Keeps.get.bind fun _ => (Exec.Keeps.ofExcept _).bind fun _ => Exec.Keeps.pure _

theorem failRequest_apart (request : Message) (exc : PyException) :
    Apart (failRequest codec (engine.withCache codec now loading meanwhile) env request exc) :=
  Apart.bind (apart_mapContext fun _ => rfl) fun _ => Apart.bind (apart_ofExcept _) fun _ =>
    Apart.bind (apart_mapContext fun _ => rfl) fun _ => Apart.bind (apart_ofExcept _) fun _ =>
      apart_mapContext fun _ => rfl

theorem KeptByCalls.processRequest (h : KeptByCalls codec now E S meanwhile I)
    (hrequest : Exec.Triple P
      (PluginManager.onRequest (engine.withCache codec now loading meanwhile).loadedPlugins)
      (fun _ => Holds I) fun _ => Holds I) :
    Exec.Triple P (processRequest codec (engine.withCache codec now loading meanwhile) env)
      (fun _ => Holds I) fun _ => Holds I := by
  refine (runRequestPhase_keeps env hrequest).bind fun dropped => ?_
  split
  · exact Exec.Keeps.pure _
  · refine h.runResponsePhase.bind fun dropped => ?_
    split
    · exact Exec.Keeps.pure _
    · exact h.respond env codec

/-- What the calls keep from the end of `on_request` holds at the end of the request. -/
theorem KeptByCalls.runContext (h : KeptByCalls codec now E S meanwhile I)
    (hrequest : Exec.Triple P
      (PluginManager.onRequest (engine.withCache codec now loading meanwhile).loadedPlugins)
      (fun _ => Holds I) fun _ => Holds I) :
    Exec.Triple P (runContext codec (engine.withCache codec now loading meanwhile) env)
      (fun _ => Holds I) fun _ => Holds I := by
  have hprocess := (h.processRequest env hrequest).bind fun response =>
    Exec.Keeps.pure (I:=Holds I) (Returned.fresh response)
  have hbefore : Exec.Triple P
      (beforeFinish codec (engine.withCache codec now loading meanwhile) env)
      (fun _ => Holds I) fun _ => Holds I :=
    hprocess.handle fun exc => Exec.Keeps.get.bind fun s =>
      (failRequest_apart env s.context.held.decoded exc I).bind fun _ => Exec.Keeps.pure _
  refine (hbefore.ensuring (h.onFinish.handle fun _ => Exec.Keeps.pure ())).bind fun _ => ?_
  exact Exec.Keeps.get.bind fun _ => Exec.Keeps.pure _

/-- At the end of a request the calls of the hooks account for an owner's future. -/
theorem runContext_accounted :
    Exec.Triple Unowned (runContext codec (engine.withCache codec now loading meanwhile) env)
      (fun _ => Holds (AccountedIn codec now meanwhile))
      fun _ => Holds (AccountedIn codec now meanwhile) :=
  accounted_keptByCalls.runContext env
    (onRequest_past.conseq (fun _ h => h) (fun _ _ h => h.accounted) fun _ _ h => h.accounted)

end

/-! ### Owners at the end of a request -/

/-- An owner's future is done, and no key is registered for it: its own is free, or a later
owner's. -/
def OwnerServed (s : EngineState (CacheExtensions E) (CacheServices W S)) : Prop :=
  s.context.extensions.cache.pendingOwner = true → ∃ key future,
    s.context.extensions.cache.key = some key ∧
    s.context.extensions.cache.future = some future ∧ s.services.cache.Served future

section
variable {codec : Codec W} {now : ℚ} {x : CachePluginContext} {s : DnsCacheService W}
  {moves : List (Move E)} {key : CacheKey} {future : Nat}

theorem Accounted.served_iff (h : Accounted codec now x s moves)
    (hown : x = ownerContext key future) : s.Served future ↔ ServedBy codec now key moves := by
  cases h with
  | outsider hx =>
    rw [hown] at hx
    cases hx
  | held key' future' hx hmoves hs =>
    cases hown.symm.trans hx
    exact iff_of_false hs.not_served fun hserved => hmoves.not_decided hserved.choose_spec.1
  | given key' future' result wire hx hmoves hwire hs =>
    cases hown.symm.trans hx
    exact iff_of_true (hs.served_iff.mpr (Option.some_ne_none wire)) hmoves.servedBy
  | abandoned key' future' hx hmoves hs =>
    cases hown.symm.trans hx
    obtain ⟨move,hdecided,hnot⟩ := hmoves
    refine iff_of_false (fun hserved => hs.served_iff.mp hserved rfl) fun hserved => ?_
    obtain ⟨move',hdecided',hserves⟩ := hserved
    rw [hdecided'.unique hdecided] at hserves
    exact hnot hserves

theorem Accounted.owner (h : Accounted codec now x s moves) (hx : x.pendingOwner = true) :
    ∃ key future, x = ownerContext key future := by
  cases h with
  | outsider hout =>
    rw [hx] at hout
    cases hout
  | held key future hown => exact ⟨key,future,hown⟩
  | given key future _ _ hown => exact ⟨key,future,hown⟩
  | abandoned key future hown => exact ⟨key,future,hown⟩

/-- What an owner's future is set to is what the move that decides hands over. -/
theorem Accounted.set_iff (h : Accounted codec now x s moves)
    (hown : x = ownerContext key future) :
    (∀ wire, s.futures[future]? = some (some wire) → ∃ result,
      HandedBy codec now key moves result ∧ DnsCacheService.sharedWire codec result = .ok wire) ∧
    ∀ result, HandedBy codec now key moves result → ∃ wire,
      s.futures[future]? = some (some wire) ∧
        DnsCacheService.sharedWire codec result = .ok wire := by
  have hset : ∀ wire, s.futures[future]? = some (some wire) → ∃ result,
      HandedBy codec now key moves result ∧
        DnsCacheService.sharedWire codec result = .ok wire := by
    intro wire hfuture
    cases h with
    | outsider hx =>
      rw [hown] at hx
      cases hx
    | held key' future' hx hmoves hs =>
      cases hown.symm.trans hx
      cases hs.undone.symm.trans hfuture
    | given key' future' result wire' hx hmoves hwire hs =>
      cases hown.symm.trans hx
      cases hs.value.symm.trans hfuture
      exact ⟨result,hmoves,hwire⟩
    | abandoned key' future' hx hmoves hs =>
      cases hown.symm.trans hx
      cases hs.value.symm.trans hfuture
  refine ⟨hset,fun result hresult => ?_⟩
  have hdone := ((h.served_iff hown).mpr hresult.servedBy).2
  unfold DnsCacheService.isDone at hdone
  split at hdone
  · rename_i wire hfuture
    obtain ⟨result',hresult',hshared⟩ := hset wire hfuture
    rw [hresult.unique hresult']
    exact ⟨wire,hfuture,hshared⟩
  · cases hdone

end

section
variable {codec : Codec W} {now : ℚ} {engine : PipelineEngine E S} {loading : CacheLoading E S}
  {meanwhile : Meanwhile W} {env : Surroundings E engine.resolverManager} {request : Message}
  {clientaddr listenerName : String} {services : CacheServices W S}
  {state : EngineState (CacheExtensions E) (CacheServices W S)}

theorem handleMessage_accounted
    (h : (handleMessage codec (engine.withCache codec now loading meanwhile) env.withCache request
      clientaddr listenerName services).2 = some state) :
    Holds (AccountedIn codec now meanwhile) state := by
  unfold handleMessage at h
  split at h
  · contradiction
  · contradiction
  · cases h
    exact (runContext_accounted _).run ⟨rfl,fun _ => nofun⟩

end

/-- Every owner is served just when the first move along its request that touches its key does
it: a hook of the cache plugin that is called on a context that serves it, or another request
that completes the key with what can be encoded. -/
theorem handleMessage_servesOwner_iff (codec : Codec W) (now : ℚ) (engine : PipelineEngine E S)
    (loading : CacheLoading E S) (meanwhile : Meanwhile W)
    (env : Surroundings E engine.resolverManager) (request : Message)
    (clientaddr listenerName : String) (services : CacheServices W S) :
    (∀ state, (handleMessage codec (engine.withCache codec now loading meanwhile) env.withCache
        request clientaddr listenerName services).2 = some state → OwnerServed state) ↔
      ∀ state, (handleMessage codec (engine.withCache codec now loading meanwhile) env.withCache
          request clientaddr listenerName services).2 = some state →
        state.context.extensions.cache.pendingOwner = true →
        ∃ key, state.context.extensions.cache.key = some key ∧
          ServedBy codec now key (meanwhile.moves (cacheCalls state.log)) := by
  refine forall₂_congr fun state h => forall_congr' fun howner => ?_
  have haccounted := handleMessage_accounted h
  obtain ⟨key,future,hown⟩ := haccounted.owner howner
  rw [hown]
  simp only [ownerContext,Option.some.injEq,exists_eq_left',exists_and_left]
  exact haccounted.served_iff hown

/-- An alias where the question asks for an address. -/
def answeredWithAlias : Answer :=
  hostAnswer [] (some { addressOf hostName 1 with
    rdtype := RdataType.CNAME, items := [.cname otherName], nonempty := hostAlias.nonempty
    distinct := hostAlias.distinct, covered := hostAlias.covered })

/-- A plugin that answers with an alias and drops the request. -/
def aliasingPlugin : Plugin Unit Unit where
  name := "aliasing"
  requestOrder := 1
  onRequest := Exec.modify fun p =>
    ({ p.1 with finalAnswer := some answeredWithAlias, dropRequest := true },p.2)

def aliasingLoading : CacheLoading Unit Unit where
  before := []
  after := [aliasingPlugin]
  named := by simp [aliasingPlugin,cachePluginName]

def emptyService : CacheServices Message Unit := ⟨.new 100000,()⟩

theorem handleMessage_strands_owner :
    ∃ state, handleMessage directCodec
        ((soloEngine ([] : List (Plugin Unit Unit))).withCache directCodec 0 aliasingLoading {})
        (soloSurroundings ([] : List (Plugin Unit Unit)) ()).withCache hostQuery "" ""
        emptyService = (.ok none,some state) ∧
      state.services.cache.Registered hostQuestion.key 0 ∧ ¬ OwnerServed state :=
  ⟨_,rfl,⟨rfl,rfl,by decide⟩,fun h => by
    obtain ⟨key,future,hkey,hfuture,hserved⟩ := h rfl
    cases hkey
    cases hfuture
    exact absurd hserved.2 (by decide)⟩

end SmartDns
