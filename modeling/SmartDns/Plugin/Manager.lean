import SmartDns.Dispatcher.Registry
import Mathlib.Data.List.Sort
set_option autoImplicit false

/-!
`PluginManager`: the hooks of the loaded plugins and the loops that call them. A
hook is any program over the request context and the services the plugins share,
the messages that `handle_message` holds included.
-/

namespace SmartDns

abbrev PluginHook (E S : Type) := Exec PyException (RequestContext E × S) Unit

inductive HookKind where
  | request | response | observe | finish
  deriving DecidableEq, Repr

/-- `on_upstream_response` is given as its segments between two awaits, since it runs
concurrently with the dispatch and with itself. -/
structure Plugin (E S : Type) where
  name : String
  requestOrder : Int := 0
  upstreamResponseOrder : Int := 0
  responseOrder : Int := 0
  observeOrder : Int := 0
  onRequest : PluginHook E S := Exec.skip
  onUpstreamResponse : UpstreamResult → List (PluginHook E S) := fun _ => []
  onResponse : PluginHook E S := Exec.skip
  onObserve : PluginHook E S := Exec.skip
  onFinish : PluginHook E S := Exec.skip

/-- What a run leaves behind to be spoken about: each hook called, with the context it
was called on, and each group dispatched. -/
inductive Event (E : Type) where
  | called (kind : HookKind) (plugin : String) (context : RequestContext E)
  | dispatched (group : String) (strategy : DispatchStrategyType)

structure EngineState (E S : Type) where
  context : RequestContext E
  services : S
  log : List (Event E) := []

abbrev Engine (E S α : Type) := Exec PyException (EngineState E S) α

variable {E S α : Type}

def EngineState.record (e : Event E) (s : EngineState E S) : EngineState E S :=
  { s with log := s.log ++ [e] }

def EngineState.mapContext (f : RequestContext E → RequestContext E) (s : EngineState E S) :
    EngineState E S :=
  { s with context := f s.context }

/-- A program over the context and the services, which does not see the log. -/
def onPlugin (x : PluginHook E S) : Engine E S Unit :=
  Exec.within (fun s => (s.context,s.services))
    (fun p s => { s with context := p.1, services := p.2 }) x

def onContext (x : Exec PyException (RequestContext E) α) : Engine E S α :=
  Exec.within EngineState.context (fun c s => { s with context := c }) x

def callHook (kind : HookKind) (plugin : Plugin E S) (hook : PluginHook E S) : Engine E S Unit := do
  Exec.modify fun s => s.record (.called kind plugin.name s.context)
  onPlugin hook

/-- `sorted` by one of the order attributes, which is stable. -/
def orderedPlugins (order : Plugin E S → Int) (plugins : List (Plugin E S)) :
    List (Plugin E S) :=
  plugins.insertionSort fun a b => order a ≤ order b

def shortCircuits (s : EngineState E S) : Bool :=
  s.context.dropRequest || s.context.stopProcessing

def notePlugin (plugin : Plugin E S) (c : RequestContext E) : RequestContext E :=
  { c with metadata :=
    { c.metadata with pluginOrder := c.metadata.pluginOrder ++ [plugin.name] } }

namespace PluginManager

def onRequest (plugins : List (Plugin E S)) : Engine E S Unit :=
  Exec.eachUntil shortCircuits (orderedPlugins Plugin.requestOrder plugins) fun plugin => do
    Exec.modify (EngineState.mapContext (notePlugin plugin))
    callHook .request plugin plugin.onRequest

/-- One task of `on_upstream_response`: the segments of all plugins in order. -/
def onUpstreamResponse (plugins : List (Plugin E S)) (result : UpstreamResult) :
    List (Engine E S Unit) :=
  (orderedPlugins Plugin.upstreamResponseOrder plugins).flatMap fun plugin =>
    (plugin.onUpstreamResponse result).map onPlugin

def onResponse (plugins : List (Plugin E S)) : Engine E S Unit :=
  Exec.eachUntil shortCircuits (orderedPlugins Plugin.responseOrder plugins) fun plugin =>
    callHook .response plugin plugin.onResponse

def onObserve (plugins : List (Plugin E S)) : Engine E S Unit :=
  Exec.each (orderedPlugins Plugin.observeOrder plugins) fun plugin =>
    callHook .observe plugin plugin.onObserve

def onFinish (plugins : List (Plugin E S)) : Engine E S Unit :=
  Exec.each plugins fun plugin =>
    Exec.handle (callHook .finish plugin plugin.onFinish) fun _ => pure ()

end PluginManager

theorem mem_orderedPlugins {order : Plugin E S → Int} {plugins : List (Plugin E S)}
    {plugin : Plugin E S} : plugin ∈ orderedPlugins order plugins ↔ plugin ∈ plugins :=
  (List.perm_insertionSort _ plugins).mem_iff

end SmartDns
