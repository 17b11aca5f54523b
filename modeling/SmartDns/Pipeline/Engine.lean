import SmartDns.Plugin.Manager
import SmartDns.Rules.Engine
import SmartDns.Pipeline.WriteBack
set_option autoImplicit false

/-!
`PipelineEngine.handle_message`. What the engine does not determine (the clock,
the upstreams, the order in which concurrent hooks take their turns) is given by
the surroundings of one request; cancellation is not modelled.
-/

namespace SmartDns

open ForkJoin (JoinTree)

/-- One finished dispatch. -/
structure GroupRun (strategy : DispatchStrategyType) where
  tree : DispatchTree
  schedule : List (List Nat)
  result : UpstreamResult
  made : List UpstreamResult
  reported : List UpstreamResult
  finished : dispatchGroup strategy tree schedule = some (.finished result made,reported)

/-- The part of the world around one request. `returned` is what the hooks have made of
the result object by the time the engine reads it. -/
structure Surroundings (E : Type) (rm : ResolverManager) where
  now : ℚ
  extensions : E
  dispatch : UpstreamGroupConfig → (strategy : DispatchStrategyType) → GroupRun strategy
  walks : ∀ name g, rm.getGroup name = some g → ∀ strategy,
    DispatchesGroup rm g (dispatch g strategy).tree
  returned : UpstreamResult → UpstreamResult := id
  interleaving : List Nat := []

/-- The engine after its configuration was validated: every group a rule can select
exists. -/
structure PipelineEngine (E S : Type) where
  ruleEngine : RuleEngine RdataType
  defaultDispatcher : DispatchStrategyType
  resolverManager : ResolverManager
  loadedPlugins : List (Plugin E S)
  known : ruleEngine.Known resolverManager

def maxNestedResolveDepth : Nat := 8

section
variable {E S W : Type} (codec : Codec W) (engine : PipelineEngine E S)
  (env : Surroundings E engine.resolverManager)

def validateRequestOrError (request : Message) : Except PyException (Option Message) :=
  if request.opcode ≠ Opcode.QUERY ∨ request.question.length ≠ 1 then
    some <$> makeErrorResponse request Rcode.FORMERR
  else do
    let question ← firstQuestion request
    if question.rdclass ≠ RdataClass.IN then some <$> makeErrorResponse request Rcode.FORMERR
    else pure none

def buildContext (extensions : E) (request : Message) (clientaddr listenerName : String)
    (nestedResolveChain : List (String × String)) : RequestContext E :=
  { request, clientaddr, listenerName, requestId := request.id, extensions
    nestedResolveChain, nestedResolveMaxDepth := maxNestedResolveDepth }

/-- `_dispatch_context` up to the call of the dispatcher. -/
def selectGroup : Engine E S (UpstreamGroupConfig × DispatchStrategyType) := do
  let s ← Exec.get
  let selection ← Exec.ofExcept (engine.ruleEngine.select id s.context.request s.context.tags)
  Exec.modify (EngineState.mapContext fun c =>
    { c with selectedRule := selection.ruleName, selectedGroup := some selection.upstreamGroup })
  let selectedDispatcher := selection.dispatcher.getD engine.defaultDispatcher
  match engine.resolverManager.getGroup selection.upstreamGroup with
  | none => Exec.raise (.keyError selection.upstreamGroup)
  | some group =>
    Exec.modify (EngineState.mapContext fun c =>
      { c with selectedDispatcher := some selectedDispatcher.value })
    Exec.modify (EngineState.record (.dispatched group.name selectedDispatcher))
    pure (group,selectedDispatcher)

/-- The task group of the dispatch: the result is noted in the context while a task of
`on_upstream_response` runs for each result reported. -/
def dispatchContext (group : UpstreamGroupConfig) (strategy : DispatchStrategyType) :
    Engine E S UpstreamResult := do
  let run := env.dispatch group strategy
  let result := env.returned run.result
  Exec.weave env.interleaving
    ([Exec.modify (EngineState.mapContext fun c =>
        { c with upstreamResults := c.upstreamResults ++ [result] })] ::
      run.reported.map (PluginManager.onUpstreamResponse engine.loadedPlugins))
  pure result

/-- A dispatch fills the context only where no hook has. -/
def takeResult (result : UpstreamResult) : Exec PyException (RequestContext E) Unit := do
  let c ← Exec.get
  if c.finalAnswer.isNone && c.finalResponse.isNone then
    match result.answer with
    | some answer => Exec.modify fun c => { c with finalAnswer := some answer }
    | none =>
      if result.isNxdomain then do
        let response ← Exec.ofExcept (makeErrorResponse c.request Rcode.NXDOMAIN)
        Exec.modify fun c => { c with finalResponse := some response }
      else pure ()
  else pure ()

/-- The part of `_run_request_phase` that is reached without a decision of a hook. -/
def askUpstreams : Engine E S Bool := do
  let (group,strategy) ← selectGroup engine
  let result ← dispatchContext engine env group strategy
  onContext (takeResult result)
  pure false

/-- `true` asks for the request to be dropped. -/
def runRequestPhase : Engine E S Bool := do
  PluginManager.onRequest engine.loadedPlugins
  let s ← Exec.get
  if s.context.dropRequest then pure true
  else if s.context.stopProcessing then pure false
  else if s.context.finalAnswer.isSome || s.context.finalResponse.isSome then pure false
  else askUpstreams engine env

def runResponsePhase : Engine E S Bool := do
  let s ← Exec.get
  if s.context.stopProcessing then pure false
  else do
    PluginManager.onResponse engine.loadedPlugins
    let s ← Exec.get
    pure s.context.dropRequest

/-- `sync_answer_response(context.final_answer)`. -/
def syncFinalAnswer (now : ℚ) (a : Answer) : Exec PyException (RequestContext E) Answer := do
  Exec.within (fun _ => a) (fun a c => { c with finalAnswer := some a })
    (syncAnswerResponse codec now)
  let c ← Exec.get
  pure (c.finalAnswer.getD a)

def finalizeContext (now : ℚ) : Exec PyException (RequestContext E) Unit := do
  let c ← Exec.get
  match c.finalAnswer,c.finalResponse with
  | none,some response =>
    let answer ← Exec.ofExcept (buildAnswerFromResponse codec now c.request response)
    Exec.modify fun c => { c with finalAnswer := some answer }
  | some a,_ => do
    let answer ← syncFinalAnswer codec now a
    let response ← Exec.ofExcept (cloneResponseForRequest codec answer.response c.request)
    Exec.modify fun c => { c with finalResponse := some response }
  | none,none => do
    let response ← Exec.ofExcept (makeErrorResponse c.request Rcode.SERVFAIL)
    Exec.modify fun c => { c with finalResponse := some response }
    let answer ← Exec.ofExcept (buildAnswerFromResponse codec now c.request response)
    Exec.modify fun c => { c with finalAnswer := some answer }

def observeContext : Engine E S Unit :=
  Exec.handle (PluginManager.onObserve engine.loadedPlugins) fun _ => pure ()

def finishContext : Engine E S Unit :=
  Exec.handle (PluginManager.onFinish engine.loadedPlugins) fun _ => pure ()

/-- The final response, for the request that `handle_message` was given. -/
def finalReply (c : RequestContext E) : Except PyException Message :=
  match c.finalResponse with
  | none => makeErrorResponse c.held.decoded Rcode.SERVFAIL
  | some response => cloneResponseForRequest codec response c.held.decoded

/-- The end of `handle_message` for a request that is not dropped. -/
def respond : Engine E S (Option Message) := do
  onContext (finalizeContext codec env.now)
  observeContext engine
  let s ← Exec.get
  let response ← Exec.ofExcept (finalReply codec s.context)
  pure (some response)

/-- The body of the `try` of `handle_message`. -/
def processRequest : Engine E S (Option Message) := do
  if ← runRequestPhase engine env then pure none
  else if ← runResponsePhase engine then pure none
  else respond codec engine env

/-- Its `except Exception`. The reply is `final_response` too, where hooks can reach it. -/
def failRequest (request : Message) (exc : PyException) : Engine E S Unit := do
  Exec.modify (EngineState.mapContext fun c =>
    { c with metadata := { c.metadata with pipelineError := some exc } })
  let errorResponse ← Exec.ofExcept (makeErrorResponse request Rcode.SERVFAIL)
  Exec.modify (EngineState.mapContext fun c =>
    { c with finalResponse := some errorResponse, held := { c.held with reply := errorResponse } })
  let answer ← Exec.ofExcept (buildAnswerFromResponse codec env.now request errorResponse)
  Exec.modify (EngineState.mapContext fun c => { c with finalAnswer := some answer })

/-- What `handle_message` has decided to return when `on_finish` is called. -/
inductive Returned where
  /-- nothing, or a message that no hook reaches -/
  | fresh (response : Option Message)
  /-- the reply of the `except` clause -/
  | reply
  deriving DecidableEq, Repr

def Returned.read (c : RequestContext E) : Returned → Option Message
  | .fresh response => response
  | .reply => some c.held.reply

/-- `handle_message` from the context up to its `finally`. -/
def beforeFinish : Engine E S Returned :=
  Exec.handle
    (do
      let response ← processRequest codec engine env
      pure (.fresh response))
    fun exc => do
      let s ← Exec.get
      failRequest codec engine env s.context.held.decoded exc
      pure .reply

/-- `handle_message` from the context on. -/
def runContext : Engine E S (Option Message) := do
  let returned ← Exec.ensuring (beforeFinish codec engine env) (finishContext engine)
  let s ← Exec.get
  pure (returned.read s.context)

/-- `PipelineEngine.handle_message`: a message, nothing, or an exception, and the state
of the context where one was built. -/
def handleMessage (request : Message) (clientaddr listenerName : String) (services : S) :
    Except PyException (Option Message) × Option (EngineState E S) :=
  match validateRequestOrError request with
  | .error exc => (.error exc,none)
  | .ok (some response) => (.ok (some response),none)
  | .ok none =>
    let context := buildContext env.extensions request clientaddr listenerName []
    let r := runContext codec engine env { context, services }
    (r.1,some r.2)

end

/-! ### The smallest configuration -/

/-- One group of one upstream, which times out. -/
def soloGroup : UpstreamGroupConfig := ⟨"default",["up"],UpstreamGroupConfig.single_nonempty "up"⟩

def soloManager : ResolverManager where
  groups := [soloGroup]

def soloRun (strategy : DispatchStrategyType) : GroupRun strategy where
  tree := .node ⟨"default",∅⟩ (.leaf (timingOut "up")) []
  schedule := [[0],[0],[]]
  result := strategy.join.final [timedOut "up"]
  made := [timedOut "up"]
  reported := [timedOut "up"]
  finished := by cases strategy <;> rfl

def soloEngine {E S : Type} (loadedPlugins : List (Plugin E S)) : PipelineEngine E S where
  ruleEngine := { rules := [], defaultUpstreamGroup := "default" }
  defaultDispatcher := .race
  resolverManager := soloManager
  loadedPlugins := loadedPlugins
  known := ⟨by decide,by simp⟩

def soloSurroundings {E S : Type} (loadedPlugins : List (Plugin E S)) (extensions : E) :
    Surroundings E (soloEngine loadedPlugins).resolverManager where
  now := 0
  extensions := extensions
  dispatch _ := soloRun
  walks name g h strategy := by
    obtain rfl : g = soloGroup := by simpa [soloEngine,soloManager] using (Keyed.lookup_some h).1
    exact .mk ∅ (.cons (.upstream ∅ _ rfl) .nil)

end SmartDns
