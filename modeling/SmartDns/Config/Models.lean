import SmartDns.Rules.Engine
set_option autoImplicit false

/-!
The configuration file as the program holds it once pydantic has checked each field by
itself: a group and an upstream name at least one target or nameserver.
-/

namespace SmartDns

/-- There is a port 0. -/
instance neZero_ports : NeZero 65536 := ⟨by decide⟩

inductive ListenerProtocol where
  | udp | tcp
  deriving DecidableEq, Repr

structure ListenerConfig where
  name : String
  protocol : ListenerProtocol
  host : String
  port : Fin 65536
  enabled : Bool
  deriving DecidableEq, Repr

structure WebUIConfig where
  enabled : Bool := true
  dohEnabled : Bool := false
  host : String := "127.0.0.1"
  port : Fin 65536 := 8080
  deriving DecidableEq, Repr

/-- `AppConfig`; `workers` is none for `auto`, `rest` is everything the manager does not
look into. -/
structure AppConfig (R : Type) where
  listeners : List ListenerConfig
  webui : WebUIConfig
  workers : Option Nat
  rest : R
  deriving DecidableEq, Repr

namespace AppConfig

variable {R : Type}

def serviceSignature (config : AppConfig R) : List ListenerConfig × WebUIConfig :=
  (config.listeners,config.webui)

/-- Whether `start` with this configuration started any service. -/
def servicesStarted (config : AppConfig R) : Bool :=
  config.listeners.any ListenerConfig.enabled || config.webui.enabled || config.webui.dohEnabled

def resolvedWorkers (cpuCount : Nat) (config : AppConfig R) : Nat :=
  config.workers.getD (max 1 cpuCount)

end AppConfig

namespace Config

structure NameserverConfig where
  name : String
  deriving DecidableEq, Repr

@[ext]
structure UpstreamConfig where
  name : String
  nameservers : List String
  nonempty : nameservers ≠ [] := by decide
  deriving Repr

instance : DecidableEq UpstreamConfig := fun a b =>
  decidable_of_iff (a.name = b.name ∧ a.nameservers = b.nameservers) UpstreamConfig.ext_iff.symm

structure PluginConfig where
  name : String
  module : String
  enabled : Bool := true
  deriving DecidableEq, Repr

/-- What names other parts of the configuration or is named by them. -/
structure References where
  defaultUpstreamGroup : String := "default"
  nameservers : List NameserverConfig := []
  upstreams : List UpstreamConfig := []
  groups : List UpstreamGroupConfig := []
  rules : List (RuleConfig RdataType) := []
  plugins : List PluginConfig := []
  deriving DecidableEq, Repr

end Config

end SmartDns
