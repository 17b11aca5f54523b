import SmartDns.Cache.SingleFlight
import SmartDns.Multiprocess.NestedResolve
import SmartDns.Pipeline.OutcomeLaw
set_option autoImplicit false

/-!
A follower of one owner: which future its loop waits on, what it does when the wait ends,
and what becomes of its request after that.
-/

namespace SmartDns

variable {E S W : Type}

/-! ### The wait -/

namespace CachePlugin

section
variable (codec : Codec W) (now : ℚ)

/-- The future that a turn of the loop waits on. -/
def joined (request : Message) (key : CacheKey) (s : DnsCacheService W) : Option Nat :=
  match DnsCacheService.getForRequest codec now request s with
  | (.ok none,s) => s.pendingFuture key
  | _ => none

/-- The future that the loop waits on once the waits before it have ended without a
response. -/
def waitsOn (request : Message) (key : CacheKey) :
    DnsCacheService W → List (DnsCacheService W) → Option Nat
  | s, [] => joined codec now request key s
  | s, wake :: wakes =>
    match joined codec now request key s with
    | none => none
    | some future =>
      match wake.futures[future]? with
      | some (some none) => waitsOn request key wake wakes
      | _ => none

/-- What a follower does with what it finds when its wait ends. -/
def resume (key : CacheKey) (wakes : List (DnsCacheService W)) :
    Option (Option (Option W)) → CacheExec E S W Unit
  | some (some none) => lookUpLoop codec now key wakes
  | some (some (some wire)) => reuse codec now wire
  | _ => Exec.raise cancelled

variable {codec now} {key : CacheKey} {future : Nat} {s : DnsCacheService W} {request : Message}

theorem joined_some (h : joined codec now request key s = some future) :
    ∃ s', DnsCacheService.getForRequest codec now request s = (.ok none,s') ∧
      s'.pendingFuture key = some future := by
  unfold joined at h
  split at h
  · rename_i s' hget
    exact ⟨s',hget,h⟩
  · cases h

theorem lookUpLoop_joined {p : RequestContext (CacheExtensions E) × CacheServices W S}
    (h : joined codec now p.1.request key p.2.cache = some future) (wake : DnsCacheService W)
    (wakes : List (DnsCacheService W)) :
    lookUpLoop codec now key (wake :: wakes) p =
      resume codec now key wakes wake.futures[future]? (p.1,{ p.2 with cache := wake }) := by
  obtain ⟨s',hget,hpending⟩ := joined_some h
  unfold lookUpLoop
  rw [lookUp_follow hget hpending]
  rcases hfuture : wake.futures[future]? with _ | _ | _ | wire
  all_goals
    simp only [resume]
    exact Exec.bind_ok rfl

/-- The loop comes to the wait that is told from the service it starts on. -/
theorem lookUpLoop_waits {p : RequestContext (CacheExtensions E) × CacheServices W S}
    {earlier : List (DnsCacheService W)}
    (h : waitsOn codec now p.1.request key p.2.cache earlier = some future)
    (wake : DnsCacheService W) (wakes : List (DnsCacheService W)) :
    lookUpLoop codec now key (earlier ++ wake :: wakes) p =
      resume codec now key wakes wake.futures[future]? (p.1,{ p.2 with cache := wake }) := by
  induction earlier generalizing p with
  | nil => exact lookUpLoop_joined h wake wakes
  | cons first earlier ih =>
    unfold waitsOn at h
    split at h
    · cases h
    · rename_i joined hjoined
      split at h
      · rename_i hfirst
        rw [List.cons_append,lookUpLoop_joined hjoined,hfirst]
        exact ih (p:=(p.1,{ p.2 with cache := first })) h
      · cases h

end

/-! ### What the wait ends with -/

section
variable {codec : Codec W} {now : ℚ} {key : CacheKey} {request : Message} {q : Question}
  {p : RequestContext (CacheExtensions E) × CacheServices W S} {wire : W} {m : Message}

/-- A follower's own response, made of the wire. -/
theorem clone_of_wire (hwire : codec.toWire m = .ok wire) (request : Message) :
    codec.fromWire wire = .ok m.merged ∧ cloneResponseForRequest codec m.merged request =
      .ok { m.merged with id := request.id } := by
  refine ⟨codec.roundTrip _ _ hwire,?_⟩
  rw [cloneResponse_ok (codec.again _ _ hwire),Message.merged_merged]

theorem reuse_ok {answer : Answer} (hwire : codec.toWire m = .ok wire)
    (hbuild : buildAnswerFromResponse codec now p.1.request
      { m.merged with id := p.1.request.id } = .ok answer) :
    ∃ p', reuse codec now wire p = (.ok (),p') ∧
      p'.1.extensions.cache = { p.1.extensions.cache with shared := true } ∧
      p'.1.finalAnswer = some answer ∧ p'.1.stopProcessing = true ∧
      p'.1.dropRequest = p.1.dropRequest ∧ p'.1.request = p.1.request := by
  obtain ⟨hdecode,hclone⟩ := clone_of_wire hwire p.1.request
  rcases hrun : reuse codec now wire p with ⟨r,p'⟩
  unfold reuse at hrun
  rw [hdecode] at hrun
  simp only [Exec.bind_ok (Exec.run_get p),Exec.bind_ok (Exec.run_ofExcept _ p),hclone,
    hbuild] at hrun
  cases hrun
  exact ⟨_,rfl,rfl,rfl,rfl,rfl,rfl⟩

theorem reuse_error {e : PyException} (hwire : codec.toWire m = .ok wire)
    (hbuild : buildAnswerFromResponse codec now p.1.request
      { m.merged with id := p.1.request.id } = .error e) :
    ∃ p', reuse codec now wire p = (.error e,p') ∧
      p'.1.extensions.cache = { p.1.extensions.cache with shared := true } := by
  obtain ⟨hdecode,hclone⟩ := clone_of_wire hwire p.1.request
  rcases hrun : reuse codec now wire p with ⟨r,p'⟩
  unfold reuse at hrun
  rw [hdecode] at hrun
  simp only [Exec.bind_ok (Exec.run_get p),Exec.bind_ok (Exec.run_ofExcept _ p),hclone,
    hbuild] at hrun
  cases hrun
  exact ⟨_,rfl,rfl⟩

/-- A context that has been given its key. -/
def keyed (key : CacheKey) (c : RequestContext (CacheExtensions E)) :
    RequestContext (CacheExtensions E) :=
  { c with
    extensions := { c.extensions with cache := { c.extensions.cache with key := some key } } }

theorem onRequest_question (hq : firstQuestion p.1.request = .ok q)
    (wakes : List (DnsCacheService W)) :
    onRequest codec now wakes p = lookUpLoop codec now q.key wakes (keyed q.key p.1,p.2) := by
  have hkey : DnsCacheService.makeKeyFromRequest p.1.request = .ok q.key := by
    simp [DnsCacheService.makeKeyFromRequest,hq,bind,Except.bind,pure,Except.pure]
  unfold onRequest
  rw [Exec.bind_ok (Exec.run_get p),hkey,Exec.bind_ok (Exec.run_ofExcept _ p)]
  rfl

/-- A follower whose last wait is the one on this future. -/
theorem onRequest_woken (hq : firstQuestion p.1.request = .ok q)
    {earlier : List (DnsCacheService W)} {future : Nat}
    (hwaits : waitsOn codec now p.1.request q.key p.2.cache earlier = some future)
    (wake : DnsCacheService W) :
    onRequest codec now (earlier ++ [wake]) p =
      resume codec now q.key [] wake.futures[future]?
        (keyed q.key p.1,{ p.2 with cache := wake }) := by
  rw [onRequest_question hq]
  exact lookUpLoop_waits (p:=(keyed q.key p.1,p.2)) hwaits wake []

/-- Sent back to the cache, and with nobody left to wait for, a follower is answered by the
cache or not at all. -/
theorem resume_cached (codec : Codec W) (now : ℚ)
    (hx : p.1.extensions.cache = { key := some key }) :
    ((lookUpLoop codec now key [] p).2.1.extensions.cache.hit = true ↔
      ∃ answer, (DnsCacheService.getForRequest codec now p.1.request p.2.cache).1 =
        .ok (some answer)) ∧
    (lookUpLoop codec now key [] p).2.1.extensions.cache.shared = false := by
  unfold lookUpLoop
  rcases hget : DnsCacheService.getForRequest codec now p.1.request p.2.cache with ⟨e | cached,s⟩
  · rw [lookUp_error hget]
    simp [hx]
  · cases cached with
    | some answer =>
      obtain ⟨p',hrun,_,hcache⟩ := lookUp_hit key _ hget
      rw [hrun]
      simp [hcache,hx]
    | none =>
      cases hpending : s.pendingFuture key with
      | some future =>
        rw [lookUp_follow hget hpending]
        simp [hx]
      | none =>
        obtain ⟨p',hrun,_,hcache⟩ := lookUp_owner _ hget hpending
        rw [hrun]
        simp [hcache,hx]

/-- What the context of the plugin says after the wait: the request was answered through the
future, or it was answered by the cache that it was sent back to. -/
theorem resume_flags (codec : Codec W) (now : ℚ) {result : Option (Option (Option W))}
    (hx : p.1.extensions.cache = { key := some key })
    (hwire : ∀ wire, result = some (some (some wire)) → ∃ m, codec.toWire m = .ok wire) :
    ((resume codec now key [] result p).2.1.extensions.cache.shared = true ↔
      ∃ wire, result = some (some (some wire))) ∧
    ((resume codec now key [] result p).2.1.extensions.cache.hit = true ↔
      result = some (some none) ∧ ∃ answer,
        (DnsCacheService.getForRequest codec now p.1.request p.2.cache).1 = .ok (some answer)) := by
  rcases result with _ | _ | _ | wire
  · simp [resume,hx]
  · simp [resume,hx]
  · obtain ⟨hhit,hshared⟩ := resume_cached codec now hx
    simp [resume,hhit,hshared]
  · obtain ⟨m,hm⟩ := hwire wire rfl
    cases hbuild : buildAnswerFromResponse codec now p.1.request
        { m.merged with id := p.1.request.id } with
    | error e =>
      obtain ⟨p',hrun,hcache⟩ := reuse_error hm hbuild
      simp [resume,hrun,hcache,hx]
    | ok answer =>
      obtain ⟨p',hrun,hcache,_⟩ := reuse_ok hm hbuild
      simp [resume,hrun,hcache,hx]

end

end CachePlugin

/-! ### A request that has come to the cache plugin -/

section
variable {codec : Codec W} {now : ℚ} {meanwhile : Meanwhile W}

/-- After `on_request` the calls of the cache plugin leave its context alone and are
calls of other hooks. -/
theorem keptByCalls_of_append {I : CachePluginContext → List (CacheCall E) → Prop}
    (h : ∀ x calls kind c, kind ≠ .request → I x calls → I x (calls ++ [(kind,c)])) :
    KeptByCalls codec now E S meanwhile fun x _ calls => I x calls := by
  have hcall {kind : HookKind} (hkind : kind ≠ .request) {hook : CacheExec E S W Unit}
      (hextensions : ∀ x, Exec.Keeps (CachePlugin.Extended x) hook) :
      Exec.Keeps (Holds fun x _ calls => I x calls)
        (callHook kind (cachePlugin codec now meanwhile) hook) := by
    refine Exec.Keeps.of_run fun s hs => ?_
    have hcalls := cacheCalls_record kind s.context s
    have hx : (hook (s.context,s.services)).2.1.extensions.cache = s.context.extensions.cache :=
      congrArg CacheExtensions.cache
        ((hextensions s.context.extensions).run (s:=(s.context,s.services)) rfl)
    unfold callHook
    rw [Exec.bind_ok (Exec.run_modify _ s)]
    change I (hook (s.context,s.services)).2.1.extensions.cache
      (cacheCalls (s.record (.called kind cachePluginName s.context)).log)
    rw [hcalls,hx]
    exact h _ _ _ _ hkind hs
  exact ⟨hcall (by simp) responseHook_extensions,hcall (by simp) fun _ => Exec.Keeps.pure (),
    hcall (by simp) finishHook_extensions⟩

theorem notCalled_keptByCalls (c : RequestContext (CacheExtensions E)) :
    KeptByCalls codec now E S meanwhile fun _ _ calls => (.request,c) ∉ calls := by
  refine keptByCalls_of_append (I:=fun _ calls => (.request,c) ∉ calls) ?_
  intro _ calls kind c' hkind hcalls hmem
  cases List.mem_append.mp hmem with
  | inl hold => exact hcalls hold
  | inr hnew =>
    cases List.mem_singleton.mp hnew
    exact hkind rfl

theorem context_keptByCalls (x : CachePluginContext) :
    KeptByCalls codec now E S meanwhile fun x' _ _ => x' = x :=
  keptByCalls_of_append (I:=fun x' _ => x' = x) fun _ _ _ _ _ h => h

/-- One round of `on_request`. -/
abbrev requestRound (p : Plugin (CacheExtensions E) (CacheServices W S)) :
    Engine (CacheExtensions E) (CacheServices W S) Unit := do
  Exec.modify (EngineState.mapContext (notePlugin p))
  callHook .request p p.onRequest

/-- `on_request` of the plugins has come from `s` to the cache plugin with the context `c`, and
its hook ends with `r` in `s'`: an exception or a decision ends the loop there, and in any case
the context of the plugin stays as the hook leaves it. -/
structure Reached (codec : Codec W) (now : ℚ) (engine : PipelineEngine E S)
    (loading : CacheLoading E S) (meanwhile : Meanwhile W)
    (s : EngineState (CacheExtensions E) (CacheServices W S))
    (c : RequestContext (CacheExtensions E)) (r : Except PyException Unit)
    (s' : EngineState (CacheExtensions E) (CacheServices W S)) :
    Prop where
  fresh : c.extensions.cache = {}
  undropped : c.dropRequest = false
  calls : cacheCalls s'.log = [(.request,c)]
  hook : ∃ others : S,
    CachePlugin.onRequest codec now meanwhile.wakes (c,⟨s.services.cache,others⟩) =
    (r,(s'.context,s'.services))
  rest : ∀ I : CachePluginContext → DnsCacheService W → List (CacheCall E) → Prop, Holds I s' →
    Holds I (PluginManager.onRequest
      (engine.withCache codec now loading meanwhile).loadedPlugins s).2
  raises : ∀ e, r = .error e →
    PluginManager.onRequest (engine.withCache codec now loading meanwhile).loadedPlugins s =
      (.error e,s')
  stops : r = .ok () → s'.context.stopProcessing = true →
    PluginManager.onRequest (engine.withCache codec now loading meanwhile).loadedPlugins s =
      (.ok (),s')

variable {engine : PipelineEngine E S} {loading : CacheLoading E S}

variable (codec now engine loading meanwhile) in
/-- `on_request` of the plugins ends before the cache plugin or comes to it. -/
theorem onRequest_reaches {s : EngineState (CacheExtensions E) (CacheServices W S)}
    (hx : s.context.extensions.cache = {}) (hcalls : cacheCalls s.log = [])
    (hgo : shortCircuits s = false) :
    cacheCalls (PluginManager.onRequest (engine.withCache codec now loading meanwhile).loadedPlugins
      s).2.log = [] ∨ ∃ c r s', Reached codec now engine loading meanwhile s c r s' := by
  obtain ⟨before,after,hsplit,hothers⟩ := orderedPlugins_once codec now engine loading meanwhile
    Plugin.requestOrder
  have hother {p : Plugin (CacheExtensions E) (CacheServices W S)} (hp : p ∈ before ++ after) :
      Apart (requestRound p) := by
    obtain ⟨q,hq,rfl⟩ := hothers p hp
    exact (apart_notePlugin _).bind fun _ => apart_callHook hq q.onRequest
  have hbefore : ∀ p ∈ before, Exec.Keeps
      (Holds fun x cache calls => x = {} ∧ cache = s.services.cache ∧ calls = [])
        (requestRound p) :=
    fun p hp => hother (List.mem_append_left _ hp)
      fun x cache calls => x = {} ∧ cache = s.services.cache ∧ calls = []
  have hrequest :
      PluginManager.onRequest (engine.withCache codec now loading meanwhile).loadedPlugins s =
        Exec.eachUntil shortCircuits (before ++ cachePlugin codec now meanwhile :: after)
        requestRound s := by
    rw [← hsplit]
    rfl
  obtain hend | ⟨s₁,⟨hx₁,hservice,hcalls₁⟩,hgo₁,hloop⟩ :=
    Exec.eachUntil_reach (cachePlugin codec now meanwhile) after hbefore (s:=s) ⟨hx,rfl,hcalls⟩ hgo
  · rw [hrequest]
    exact .inl hend.2.2
  · rw [hloop] at hrequest
    have hdrop : s₁.context.dropRequest = false := by
      simp only [shortCircuits,Bool.or_eq_false_iff] at hgo₁
      exact hgo₁.1
    rcases hround : requestRound (cachePlugin codec now meanwhile) s₁ with ⟨r,s'⟩
    have hrest (I : CachePluginContext → DnsCacheService W → List (CacheCall E) → Prop)
        (hI : Holds I s') : Holds I (PluginManager.onRequest
          (engine.withCache codec now loading meanwhile).loadedPlugins s).2 := by
      rw [hrequest]
      cases r with
      | error e =>
        rw [Exec.eachUntil_error hround]
        exact hI
      | ok u =>
        cases hstop : shortCircuits s' with
        | true =>
          rw [Exec.eachUntil_stop hround hstop]
          exact hI
        | false =>
          rw [Exec.eachUntil_next hround hstop]
          exact (Exec.Keeps.eachUntil fun p hp => hother (List.mem_append_right _ hp) I).run hI
    have hraises (e : PyException) (hr : r = .error e) :
        PluginManager.onRequest (engine.withCache codec now loading meanwhile).loadedPlugins s =
          (.error e,s') := by
      rw [hr] at hround
      rw [hrequest,Exec.eachUntil_error hround]
    have hstops (hr : r = .ok ()) (hstop : s'.context.stopProcessing = true) :
        PluginManager.onRequest (engine.withCache codec now loading meanwhile).loadedPlugins s =
          (.ok (),s') := by
      rw [hr] at hround
      rw [hrequest,Exec.eachUntil_stop hround (by simp [shortCircuits,hstop])]
    let c := notePlugin (cachePlugin (E:=E) (S:=S) codec now meanwhile) s₁.context
    have hrun : requestRound (cachePlugin codec now meanwhile) s₁ =
        onPlugin (CachePlugin.onRequest codec now meanwhile.wakes)
          ((s₁.mapContext fun _ => c).record (.called .request cachePluginName c)) := rfl
    rw [hround] at hrun
    refine .inr ⟨c,r,s',hx₁,hdrop,?_,⟨s₁.services.others,?_⟩,hrest,hraises,hstops⟩
    · cases hrun
      have hrecord := cacheCalls_record .request c (s₁.mapContext fun _ => c)
      have hold : cacheCalls (s₁.mapContext fun _ => c).log = [] := hcalls₁
      rw [hold] at hrecord
      exact hrecord
    · cases hrun
      rw [← hservice]
      rfl

/-! ### Its outcome -/

/-- `handle_message` up to its observers; `false` where it does not come to them. -/
def beforeObserve {E S : Type} (codec : Codec W) (engine : PipelineEngine E S)
    (env : Surroundings E engine.resolverManager) : Engine E S Bool := do
  if ← runRequestPhase engine env then pure false
  else if ← runResponsePhase engine then pure false
  else do
    onContext (finalizeContext codec env.now)
    pure true

section
variable (env : Surroundings (CacheExtensions E)
    (engine.withCache codec now loading meanwhile).resolverManager)

variable (codec now engine loading meanwhile) in
/-- What the hook of the cache plugin makes of a request that starts in `s`: its exceptions and
its decisions end the phases of the request, and the context of the plugin stays as the hook
leaves it. -/
structure Decides (s : EngineState (CacheExtensions E) (CacheServices W S))
    (c : RequestContext (CacheExtensions E)) (r : Except PyException Unit)
    (s' : EngineState (CacheExtensions E) (CacheServices W S)) (x : CachePluginContext) : Prop where
  fresh : c.extensions.cache = {}
  undropped : c.dropRequest = false
  hook : ∃ others : S,
    CachePlugin.onRequest codec now meanwhile.wakes (c,⟨s.services.cache,others⟩) =
    (r,(s'.context,s'.services))
  context : x = s'.context.extensions.cache
  raised : ∀ e, r = .error e →
    processRequest codec (engine.withCache codec now loading meanwhile) env s = (.error e,s')
  decided : r = .ok () → s'.context.stopProcessing = true → s'.context.dropRequest = false →
    processRequest codec (engine.withCache codec now loading meanwhile) env s =
      respond codec (engine.withCache codec now loading meanwhile) env s' ∧
    beforeObserve codec (engine.withCache codec now loading meanwhile) env s =
      (do
        onContext (finalizeContext codec env.now)
        pure true : Engine (CacheExtensions E) (CacheServices W S) Bool) s'

theorem runContext_called {c : RequestContext (CacheExtensions E)}
    {s : EngineState (CacheExtensions E) (CacheServices W S)}
    (hx : s.context.extensions.cache = {}) (hcalls : cacheCalls s.log = [])
    (hgo : shortCircuits s = false)
    (hcalled : (.request,c) ∈ cacheCalls
      (runContext codec (engine.withCache codec now loading meanwhile) env s).2.log) :
    ∃ r s', Decides codec now meanwhile engine loading env s c r s'
      (runContext codec (engine.withCache codec now loading meanwhile) env
        s).2.context.extensions.cache := by
  have hkept {I : CachePluginContext → DnsCacheService W → List (CacheCall E) → Prop}
      (hI : KeptByCalls codec now E S meanwhile I)
      (hrequest : Holds I (PluginManager.onRequest
        (engine.withCache codec now loading meanwhile).loadedPlugins s).2) :
      Holds I (runContext codec (engine.withCache codec now loading meanwhile) env s).2 := by
    refine (hI.runContext (P:=fun s' => s' = s) env ?_).run rfl
    exact Exec.Triple.of_run fun s' hs' => hs' ▸ hrequest
  obtain hnone | ⟨c',r,s',hreached⟩ :=
    onRequest_reaches codec now meanwhile engine loading hx hcalls hgo
  · have hnot : (.request,c) ∉ cacheCalls (PluginManager.onRequest
        (engine.withCache codec now loading meanwhile).loadedPlugins s).2.log := by simp [hnone]
    exact absurd hcalled (hkept (notCalled_keptByCalls c) hnot)
  · have hsame : c' = c := by
      by_contra hne
      have hnot : (.request,c) ∉ cacheCalls s'.log := by simp [hreached.calls,Ne.symm hne]
      exact hkept (notCalled_keptByCalls c) (hreached.rest _ hnot) hcalled
    subst hsame
    have hcontext : Holds (fun x _ _ => x = s'.context.extensions.cache) s' := rfl
    refine ⟨r,s',hreached.fresh,hreached.undropped,hreached.hook,
      hkept (context_keptByCalls _) (hreached.rest _ hcontext),fun e hr => ?_,
      fun hr hstop hdrop => ?_⟩
    · exact Exec.bind_error (runRequestPhase_error _ _ (hreached.raises e hr))
    · have hdecided : ¬ Undecided s'.context := fun hun => by simp [hun.2.1] at hstop
      have hphase := runRequestPhase_decided (engine.withCache codec now loading meanwhile) env
        (hreached.stops hr hstop) hdecided
      rw [hdrop] at hphase
      have hresponse : runResponsePhase (engine.withCache codec now loading meanwhile) s' =
          (.ok false,s') := by
        rw [runResponsePhase,Exec.bind_ok (Exec.run_get s')]
        simp [hstop]
      exact ⟨(Exec.bind_ok hphase).trans (Exec.bind_ok hresponse),
        (Exec.bind_ok hphase).trans (Exec.bind_ok hresponse)⟩

end

end

end SmartDns
