import SmartDns.Cache.Service
import SmartDns.Pipeline.Engine
set_option autoImplicit false

/-!
`CachePlugin` among the other plugins of an engine. The other plugins do not reach the
context and the service that it registers, so their hooks act on what is beside them. Other
requests do reach the service, whenever a request is not in a hook of this plugin; its hooks
themselves wait for nobody but an owner.
-/

namespace SmartDns

/-- `CachePluginContext`; `future` keeps which future `acquire_pending` created for the
owner. -/
structure CachePluginContext where
  hit : Bool := false
  shared : Bool := false
  pendingOwner : Bool := false
  key : Option CacheKey := none
  future : Option Nat := none
  deriving DecidableEq, Repr

structure CacheExtensions (E : Type) where
  cache : CachePluginContext
  others : E

structure CacheServices (W S : Type) where
  cache : DnsCacheService W
  others : S

def RequestContext.withExtensions {E E' : Type} (c : RequestContext E) (extensions : E') :
    RequestContext E' where
  request := c.request
  held := c.held
  clientaddr := c.clientaddr
  listenerName := c.listenerName
  requestId := c.requestId
  selectedRule := c.selectedRule
  selectedGroup := c.selectedGroup
  selectedDispatcher := c.selectedDispatcher
  finalAnswer := c.finalAnswer
  finalResponse := c.finalResponse
  dropRequest := c.dropRequest
  stopProcessing := c.stopProcessing
  metadata := c.metadata
  tags := c.tags
  extensions := extensions
  upstreamResults := c.upstreamResults
  nestedResolveChain := c.nestedResolveChain
  nestedResolveMaxDepth := c.nestedResolveMaxDepth

abbrev CacheExec (E S W α : Type) :=
  Exec PyException (RequestContext (CacheExtensions E) × CacheServices W S) α

section
variable {E S W α : Type}

/-- A hook of another plugin. -/
def liftHook (x : PluginHook E S) : CacheExec E S W Unit :=
  Exec.within (fun p => (p.1.withExtensions p.1.extensions.others,p.2.others))
    (fun q p => (q.1.withExtensions { p.1.extensions with others := q.1.extensions },
      { p.2 with others := q.2 })) x

def liftPlugin (p : Plugin E S) : Plugin (CacheExtensions E) (CacheServices W S) where
  name := p.name
  requestOrder := p.requestOrder
  upstreamResponseOrder := p.upstreamResponseOrder
  responseOrder := p.responseOrder
  observeOrder := p.observeOrder
  onRequest := liftHook p.onRequest
  onUpstreamResponse result := (p.onUpstreamResponse result).map liftHook
  onResponse := liftHook p.onResponse
  onObserve := liftHook p.onObserve
  onFinish := liftHook p.onFinish

def onRequestContext (x : Exec PyException (RequestContext (CacheExtensions E)) α) :
    CacheExec E S W α :=
  Exec.within Prod.fst (fun c p => (c,p.2)) x

def onService (x : Exec PyException (DnsCacheService W) α) :
    CacheExec E S W α :=
  Exec.within (fun p => p.2.cache) (fun cache p => (p.1,{ p.2 with cache })) x

theorem onRequestContext_run {x : Exec PyException (RequestContext (CacheExtensions E)) α}
    {p : RequestContext (CacheExtensions E) × CacheServices W S} {r : Except PyException α}
    {c : RequestContext (CacheExtensions E)} (h : x p.1 = (r,c)) :
    (onRequestContext x : CacheExec E S W α) p = (r,(c,p.2)) := Exec.within_run h

theorem onService_run {x : Exec PyException (DnsCacheService W) α}
    {p : RequestContext (CacheExtensions E) × CacheServices W S} {r : Except PyException α}
    {s : DnsCacheService W} (h : x p.2.cache = (r,s)) :
    (onService x : CacheExec E S W α) p = (r,(p.1,{ p.2 with cache := s })) := Exec.within_run h

def setContext (f : RequestContext (CacheExtensions E) → RequestContext (CacheExtensions E)) :
    CacheExec E S W Unit :=
  Exec.modify fun p => (f p.1,p.2)

def setCacheContext (f : CachePluginContext → CachePluginContext) : CacheExec E S W Unit :=
  setContext fun c => { c with extensions := { c.extensions with cache := f c.extensions.cache } }

/-- A wait that does not end. -/
def cancelled : PyException := ⟨.other,"CancelledError",""⟩

variable (codec : Codec W) (now : ℚ)

/-- What the other requests do with the service while a request is away from the plugin: what
they have made of it each time that a wait ends, and their acts before and after its hooks. -/
structure Meanwhile (W : Type) where
  wakes : List (DnsCacheService W) := []
  beforeResponse : List DnsCacheService.Act := []
  beforeFinish : List DnsCacheService.Act := []
  afterFinish : List DnsCacheService.Act := []

namespace CachePlugin

/-- The other requests' turn. -/
def othersAct (acts : List DnsCacheService.Act) : CacheExec E S W Unit :=
  onService (Exec.modify fun s => s.acts codec acts)

/-- One turn of the loop of `on_request`: a hit, a new owner, or a follower. -/
def lookUp (key : CacheKey) (follow : Nat → CacheExec E S W Unit) : CacheExec E S W Unit := do
  let p ← Exec.get
  let cached ← onService (DnsCacheService.getForRequest codec now p.1.request)
  match cached with
  | some answer => do
    setCacheContext fun x => { x with hit := true }
    setContext fun c => { c with finalAnswer := some answer, stopProcessing := true }
  | none => do
    let p ← Exec.get
    let pending ← onService (DnsCacheService.acquirePending key)
    match pending with
    | none =>
      setCacheContext fun x =>
        { x with pendingOwner := true, future := some p.2.cache.futures.length }
    | some future => follow future

/-- The response of the owner for a follower. -/
def reuse (wire : W) : CacheExec E S W Unit := do
  let p ← Exec.get
  let shared ← Exec.ofExcept (codec.fromWire wire)
  let response ← Exec.ofExcept (cloneResponseForRequest codec shared p.1.request)
  setCacheContext fun x => { x with shared := true }
  setContext fun c => { c with finalResponse := some response }
  let answer ← Exec.ofExcept (buildAnswerFromResponse codec now p.1.request response)
  setContext fun c => { c with finalAnswer := some answer, stopProcessing := true }

/-- The loop of `on_request`, with what other requests have made of the service each time
that a wait ends. -/
def lookUpLoop (key : CacheKey) : List (DnsCacheService W) → CacheExec E S W Unit
  | [] => lookUp codec now key fun _ => Exec.raise cancelled
  | wake :: wakes =>
    lookUp codec now key fun future => do
      onService (Exec.modify fun _ => wake)
      match wake.futures[future]? with
      | some (some none) => lookUpLoop key wakes
      | some (some (some wire)) => reuse codec now wire
      | _ => Exec.raise cancelled

def onRequest (wakes : List (DnsCacheService W)) : CacheExec E S W Unit := do
  let p ← Exec.get
  let key ← Exec.ofExcept (DnsCacheService.makeKeyFromRequest p.1.request)
  setCacheContext fun x => { x with key := some key }
  lookUpLoop codec now key wakes

def resolveResponseToShare : Exec PyException (RequestContext (CacheExtensions E)) Message := do
  let c ← Exec.get
  match c.finalAnswer,c.finalResponse with
  | some answer,_ => do
    let synced ← syncFinalAnswer codec now answer
    pure synced.response
  | none,some response => pure response
  | none,none => do
    let response ← Exec.ofExcept (makeErrorResponse c.request Rcode.SERVFAIL)
    Exec.modify fun c => { c with finalResponse := some response }
    pure response

def resolveCacheableAnswer :
    Exec PyException (RequestContext (CacheExtensions E)) (Option Answer) := do
  let c ← Exec.get
  match c.finalAnswer,c.finalResponse with
  | some answer,none => do
    let synced ← syncFinalAnswer codec now answer
    pure (some synced)
  | some answer,some response =>
    if response.rcode ≠ Rcode.NOERROR then pure none
    else do
      let synced ← syncFinalAnswer codec now answer
      pure (some synced)
  | none,some response =>
    if response.rcode ≠ Rcode.NOERROR then pure none
    else do
      let answer ← Exec.ofExcept (buildAnswerFromResponse codec now c.request response)
      pure (some answer)
  | none,none => pure none

def share (key : CacheKey) : CacheExec E S W Unit := do
  let response ← onRequestContext (resolveResponseToShare codec now)
  onService (DnsCacheService.completePending codec key (some response))

/-- `on_response` past the answer to cache. -/
def release (answerToCache : Option Answer) : CacheExec E S W Unit := do
  let p ← Exec.get
  match p.1.extensions.cache.pendingOwner,p.1.extensions.cache.key with
  | true,some key =>
    match answerToCache with
    | some _ => onService (DnsCacheService.completePending codec key none)
    | none => share codec now key
  | _,_ => pure ()

def store : Option Answer → CacheExec E S W Unit
  | some answer => onService (DnsCacheService.putAnswer codec now answer)
  | none => pure ()

def onResponse : CacheExec E S W Unit := do
  let p ← Exec.get
  if p.1.extensions.cache.hit || p.1.extensions.cache.shared then pure ()
  else do
    let _ ← Exec.ofExcept (firstQuestion p.1.request)
    let answerToCache ← onRequestContext (resolveCacheableAnswer codec now)
    store codec now answerToCache
    release codec now answerToCache

def onFinish : CacheExec E S W Unit := do
  let p ← Exec.get
  match p.1.extensions.cache.pendingOwner,p.1.extensions.cache.key with
  | true,some key => do
    let pending ← onService (DnsCacheService.hasPending key)
    if pending then share codec now key else pure ()
  | _,_ => pure ()

/-- `on_response` with what the others have done before it. -/
def responseHook (meanwhile : Meanwhile W) : CacheExec E S W Unit := do
  othersAct codec meanwhile.beforeResponse
  onResponse codec now

/-- `on_finish` with what the others do before it, and after it while the request ends. -/
def finishHook (meanwhile : Meanwhile W) : CacheExec E S W Unit :=
  Exec.ensuring
    (do
      othersAct codec meanwhile.beforeFinish
      onFinish codec now)
    (othersAct codec meanwhile.afterFinish)

end CachePlugin

def cachePluginName : String := "cache-plugin"

def cachePlugin (meanwhile : Meanwhile W) : Plugin (CacheExtensions E) (CacheServices W S) where
  name := cachePluginName
  responseOrder := 1000
  onRequest := CachePlugin.onRequest codec now meanwhile.wakes
  onResponse := CachePlugin.responseHook codec now meanwhile
  onFinish := CachePlugin.finishHook codec now meanwhile

/-- Where the cache plugin is loaded among the other plugins, whose names are not its own. -/
structure CacheLoading (E S : Type) where
  before : List (Plugin E S)
  after : List (Plugin E S)
  named : ∀ p ∈ before ++ after, p.name ≠ cachePluginName

/-- An engine with the cache plugin loaded. -/
def PipelineEngine.withCache (engine : PipelineEngine E S) (loading : CacheLoading E S)
    (meanwhile : Meanwhile W) :
    PipelineEngine (CacheExtensions E) (CacheServices W S) where
  ruleEngine := engine.ruleEngine
  defaultDispatcher := engine.defaultDispatcher
  resolverManager := engine.resolverManager
  loadedPlugins := loading.before.map liftPlugin ++ cachePlugin codec now meanwhile ::
    loading.after.map liftPlugin
  known := engine.known

/-- The surroundings of a request, with a new `CachePluginContext`. -/
def Surroundings.withCache {rm : ResolverManager} (env : Surroundings E rm) :
    Surroundings (CacheExtensions E) rm where
  now := env.now
  extensions := ⟨{},env.extensions⟩
  dispatch := env.dispatch
  walks := env.walks
  returned := env.returned
  interleaving := env.interleaving

end

end SmartDns
