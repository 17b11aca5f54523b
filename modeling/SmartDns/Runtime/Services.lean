import SmartDns.Config.Models
import SmartDns.Lib.Exec
set_option autoImplicit false

/-!
`start` of both managers: the listeners are bound one after the other, and what is bound is
known to the manager only when all of them are.
-/

namespace SmartDns.Listeners

structure Address where
  protocol : ListenerProtocol
  host : String
  port : Fin 65536
  deriving DecidableEq, Repr

structure Socket where
  id : Nat
  address : Address
  deriving DecidableEq, Repr

/-- The open sockets of the process. -/
structure Host where
  sockets : List Socket := []
  nextSocket : Nat := 0
  fresh : ∀ socket ∈ sockets, socket.id < nextSocket := by nofun

namespace Host

def bind (host : Host) (address : Address) : Host where
  sockets := host.sockets ++ [⟨host.nextSocket,address⟩]
  nextSocket := host.nextSocket+1
  fresh := by
    intro socket hmem
    cases List.mem_append.mp hmem with
    | inl hold => exact Nat.lt_succ_of_lt (host.fresh socket hold)
    | inr hnew =>
      cases List.mem_singleton.mp hnew
      exact Nat.lt_succ_self _

def close (id : Nat) (host : Host) : Host where
  sockets := host.sockets.filter fun socket => socket.id ≠ id
  nextSocket := host.nextSocket
  fresh socket hmem := host.fresh socket (List.mem_filter.mp hmem).1

end Host

/-- `UdpDnsServer` and `TcpDnsServer`. -/
structure DnsServer where
  listener : ListenerConfig
  socket : Option Nat := none
  deriving DecidableEq, Repr

/-- What a call of `start` is refused; the listeners that are bound are counted. -/
structure StartFaults where
  bind : Nat → Option PyException := fun _ => none
  http : Option PyException := none
  resources : Option PyException := none
  pool : Option PyException := none

/-- What both managers hold of their services; `tg` are the sockets that are served in the task
group, `config` is that of the state. -/
structure Services (R : Type) where
  host : Host := {}
  config : Option (AppConfig R) := none
  listeners : List DnsServer := []
  webuiServer : Bool := false
  workerPool : Bool := false
  resources : Bool := false
  frontCache : Bool := false
  tg : Option (List Nat) := none

def addressInUse : PyException := ⟨.other,"OSError","[Errno 98] Address already in use"⟩

def listenerAddress (listener : ListenerConfig) : Address :=
  ⟨listener.protocol,listener.host,listener.port⟩

/-- Port 0 asks for any free port. -/
def IsFree (taken : List Address) (address : Address) : Prop :=
  address.port ≠ 0 → address ∉ taken

instance (taken : List Address) (address : Address) : Decidable (IsFree taken address) :=
  inferInstanceAs (Decidable (_ → _))

section
variable {R : Type}

def raiseIf (fault : Option PyException) : Exec PyException (Services R) Unit :=
  match fault with
  | some e => Exec.raise e
  | none => pure ()

def takenAddresses (s : Services R) : List Address := s.host.sockets.map Socket.address

def bindSocket (fault : Option PyException) (address : Address) :
    Exec PyException (Services R) Nat := do
  raiseIf fault
  let s ← Exec.get
  if IsFree (takenAddresses s) address then do
    Exec.modify fun s => { s with host := s.host.bind address }
    pure s.host.nextSocket
  else Exec.raise addressInUse

/-- `start` of a server, which serves its socket in the task group. -/
def startServer (fault : Option PyException) (listener : ListenerConfig) :
    Exec PyException (Services R) DnsServer := do
  let socket ← bindSocket fault (listenerAddress listener)
  Exec.modify fun s => { s with tg := s.tg.map fun served => served ++ [socket] }
  pure ⟨listener,some socket⟩

/-- The loop of `start_dns_listeners` with the services it has so far. -/
def startDnsListeners (bind : Nat → Option PyException) :
    List DnsServer → List ListenerConfig → Exec PyException (Services R) (List DnsServer)
  | services, [] => pure services
  | services, listener :: listeners =>
    if !listener.enabled then startDnsListeners bind services listeners
    else do
      let service ← startServer (bind services.length) listener
      startDnsListeners bind (services ++ [service]) listeners

def stopServer (server : DnsServer) (host : Host) : Host :=
  match server.socket with
  | some id => host.close id
  | none => host

def stopDnsListeners (s : Services R) : Services R :=
  { s with host := s.listeners.foldl (fun host server => stopServer server host) s.host
           listeners := [] }

def startServices (faults : StartFaults) (config : AppConfig R) :
    Exec PyException (Services R) Unit := do
  let listeners ← startDnsListeners faults.bind [] config.listeners
  Exec.modify fun s => { s with listeners }
  if config.webui.enabled || config.webui.dohEnabled then do
    raiseIf faults.http
    Exec.modify fun s => { s with webuiServer := true }
  else pure ()

def servicesStarted (s : Services R) : Bool := !s.listeners.isEmpty || s.webuiServer

/-- The state in use, or the one that is built now. -/
def ensureState (loaded : Except PyException (AppConfig R)) :
    Exec PyException (Services R) (AppConfig R) := do
  let s ← Exec.get
  match s.config with
  | some config => pure config
  | none => do
    let config ← Exec.ofExcept loaded
    Exec.modify fun s => { s with config := some config }
    pure config

/-- A start returns, raises, or waits for a task that does not end. -/
inductive Outcome where
  | started
  | raised (e : PyException)
  | waits
  deriving DecidableEq, Repr

def outcomeOf {α : Type} (r : Except PyException α × Services R) : Outcome × Services R :=
  match r with
  | (.ok _,s) => (.started,s)
  | (.error e,s) => (.raised e,s)

def openTaskGroup : Exec PyException (Services R) Unit :=
  Exec.modify fun s => { s with tg := some [] }

def RuntimeManager.start (loaded : Except PyException (AppConfig R)) (faults : StartFaults)
    (s : Services R) : Outcome × Services R :=
  outcomeOf <| (do
    let config ← ensureState loaded
    let s ← Exec.get
    if servicesStarted s then pure ()
    else do
      openTaskGroup
      startServices faults config : Exec PyException (Services R) Unit) s

/-- A task is left in the group: the socket it serves is open. -/
def Serving (s : Services R) : Prop :=
  ∃ served, s.tg = some served ∧ ∃ id ∈ served, id ∈ s.host.sockets.map Socket.id

instance (s : Services R) : Decidable (Serving s) :=
  match h : s.tg with
  | none => isFalse fun ⟨_,hsome,_⟩ => by simp [h] at hsome
  | some served => decidable_of_iff (∃ id ∈ served, id ∈ s.host.sockets.map Socket.id) (by
      simp [Serving,h])

def cleaned (s : Services R) : Services R :=
  { stopDnsListeners { s with webuiServer := false } with
    workerPool := false, resources := false, frontCache := false }

/-- `_cleanup_started_services`, which waits for the task group in the end, and the `raise`
after it. -/
def cleanupStartedServices (e : PyException) (s : Services R) : Outcome × Services R :=
  if Serving (cleaned s) then (.waits,cleaned s) else (.raised e,{ cleaned s with tg := none })

def MultiprocessRuntimeManager.start (loaded : Except PyException (AppConfig R))
    (faults : StartFaults) (s : Services R) : Outcome × Services R :=
  if servicesStarted s then (.started,s)
  else
    match (do
      let config ← ensureState loaded
      openTaskGroup
      raiseIf faults.resources
      Exec.modify fun s => { s with resources := true }
      pure config : Exec PyException (Services R) (AppConfig R)) s with
    | (.error e,s') => (.raised e,s')
    | (.ok config,s') =>
      match (do
        Exec.modify fun s => { s with workerPool := true }
        raiseIf faults.pool
        Exec.modify fun s => { s with frontCache := true }
        startServices faults config : Exec PyException (Services R) Unit) s' with
      | (.error e,s'') => cleanupStartedServices e s''
      | (.ok _,s'') => (.started,s'')

/-! ### What is claimed, and when it holds -/

/-- A start that raises leaves no socket of its own open, and a later one comes up whenever it
would have come up in its place. -/
def AllOrNothing (start : StartFaults → Services R → Outcome × Services R) (faults : StartFaults)
    (s : Services R) : Prop :=
  match (start faults s).1 with
  | .started => True
  | .waits => False
  | .raised _ => (start faults s).2.host.sockets = s.host.sockets ∧
      ∀ later, (start later (start faults s).2).1 = .started ↔ (start later s).1 = .started

def enabledListeners (config : AppConfig R) : List ListenerConfig :=
  config.listeners.filter ListenerConfig.enabled

/-- Each listener is granted its address: it is not refused, and neither an open socket nor a
listener in front has it. -/
def Binds (bind : Nat → Option PyException) (taken : List Address)
    (listeners : List ListenerConfig) : Prop :=
  ∀ (k : Nat) (listener : ListenerConfig), listeners[k]? = some listener → bind k = none ∧
    IsFree (taken ++ (listeners.take k).map listenerAddress) (listenerAddress listener)

/-- The first listener is not granted its address. -/
def FirstRefused (bind : Nat → Option PyException) (taken : List Address)
    (listeners : List ListenerConfig) : Prop :=
  ∃ listener rest, listeners = listener :: rest ∧
    ¬ (bind 0 = none ∧ IsFree taken (listenerAddress listener))

def HttpRefused (faults : StartFaults) (config : AppConfig R) : Prop :=
  (config.webui.enabled || config.webui.dohEnabled) = true ∧ faults.http ≠ none

/-- The configuration a start goes by. -/
def configFor (loaded : Except PyException (AppConfig R)) (s : Services R) :
    Except PyException (AppConfig R) :=
  match s.config with
  | some config => .ok config
  | none => loaded

/-- Where a listener is refused it is the first, and where the HTTP server is there is none. -/
def RuntimeManager.StartSafe (loaded : Except PyException (AppConfig R)) (faults : StartFaults)
    (s : Services R) : Prop :=
  servicesStarted s = false → ∀ config, configFor loaded s = .ok config →
    (¬ Binds faults.bind (takenAddresses s) (enabledListeners config) →
      FirstRefused faults.bind (takenAddresses s) (enabledListeners config)) ∧
    (HttpRefused faults config → enabledListeners config = [] ∨
      ¬ Binds faults.bind (takenAddresses s) (enabledListeners config))

/-- Where a listener is refused it is the first. -/
def MultiprocessRuntimeManager.StartSafe (loaded : Except PyException (AppConfig R))
    (faults : StartFaults) (s : Services R) : Prop :=
  servicesStarted s = false → ∀ config, configFor loaded s = .ok config →
    faults.resources = none → faults.pool = none →
      ¬ Binds faults.bind (takenAddresses s) (enabledListeners config) →
        FirstRefused faults.bind (takenAddresses s) (enabledListeners config)

variable {s : Services R} {bind : Nat → Option PyException} {faults : StartFaults}
  {config : AppConfig R} {loaded : Except PyException (AppConfig R)}

theorem raiseIf_none {fault : Option PyException} (h : fault = none) (s : Services R) :
    raiseIf fault s = (.ok (),s) := by
  rw [h]
  rfl

theorem raiseIf_some {fault : Option PyException} (h : fault ≠ none) (s : Services R) :
    ∃ e, raiseIf fault s = (.error e,s) := by
  obtain ⟨e,he⟩ := Option.ne_none_iff_exists'.mp h
  rw [he]
  exact ⟨e,rfl⟩

/-! ### Binding the listeners -/

/-- A listener is bound and served. -/
def bound (s : Services R) (listener : ListenerConfig) : Services R :=
  { s with
    host := s.host.bind (listenerAddress listener)
    tg := s.tg.map fun served => served ++ [s.host.nextSocket] }

def boundAll (s : Services R) (listeners : List ListenerConfig) : Services R :=
  listeners.foldl bound s

def serversFrom (id : Nat) (listeners : List ListenerConfig) : List DnsServer :=
  (listeners.zipIdx id).map fun p => ⟨p.1,some p.2⟩

/-- The sockets of listeners that are bound in turn. -/
def socketsFrom (id : Nat) (listeners : List ListenerConfig) : List Socket :=
  (listeners.zipIdx id).map fun p => ⟨p.2,listenerAddress p.1⟩

theorem boundAll_eq (s : Services R) (listeners : List ListenerConfig) :
    ∃ host, host.sockets = s.host.sockets ++ socketsFrom s.host.nextSocket listeners ∧
      boundAll s listeners = { s with
        host
        tg := s.tg.map fun served =>
          served ++ List.range' s.host.nextSocket listeners.length } := by
  induction listeners generalizing s with
  | nil => exact ⟨s.host,by simp [socketsFrom],by simp [boundAll]⟩
  | cons listener listeners ih =>
    obtain ⟨host,hsockets,hrest⟩ := ih (bound s listener)
    refine ⟨host,?_,hrest.trans ?_⟩
    · rw [hsockets]
      simp [bound,Host.bind,socketsFrom]
    · simp [bound,Host.bind,Function.comp_def,List.range'_succ]

theorem startServer_ok {fault : Option PyException} {listener : ListenerConfig}
    (hfault : fault = none) (hfree : IsFree (takenAddresses s) (listenerAddress listener)) :
    startServer fault listener s =
      (.ok ⟨listener,some s.host.nextSocket⟩,bound s listener) := by
  have hbind : bindSocket fault (listenerAddress listener) s =
      (.ok s.host.nextSocket,{ s with host := s.host.bind (listenerAddress listener) }) := by
    unfold bindSocket
    rw [Exec.bind_ok (raiseIf_none hfault s),Exec.bind_ok (Exec.run_get s),if_pos hfree]
    rfl
  unfold startServer
  rw [Exec.bind_ok hbind]
  rfl

theorem startServer_error {fault : Option PyException} {listener : ListenerConfig}
    (h : ¬ (fault = none ∧ IsFree (takenAddresses s) (listenerAddress listener))) :
    ∃ e, startServer fault listener s = (.error e,s) := by
  have hbind : ∃ e, bindSocket fault (listenerAddress listener) s = (.error e,s) := by
    unfold bindSocket
    by_cases hfault : fault = none
    · rw [Exec.bind_ok (raiseIf_none hfault s),Exec.bind_ok (Exec.run_get s),
        if_neg fun hfree => h ⟨hfault,hfree⟩]
      exact ⟨addressInUse,rfl⟩
    · obtain ⟨e,he⟩ := raiseIf_some hfault s
      exact ⟨e,Exec.bind_error he⟩
  obtain ⟨e,he⟩ := hbind
  exact ⟨e,Exec.bind_error he⟩

theorem binds_cons {taken : List Address} {listener : ListenerConfig}
    {listeners : List ListenerConfig} : Binds bind taken (listener :: listeners) ↔
      (bind 0 = none ∧ IsFree taken (listenerAddress listener)) ∧
        Binds (fun k => bind (k+1)) (taken ++ [listenerAddress listener]) listeners := by
  constructor
  · intro h
    refine ⟨by simpa using h 0 listener rfl,fun k next hnext => ?_⟩
    simpa using h (k+1) next hnext
  · intro ⟨hfirst,hrest⟩ k next hnext
    cases k with
    | zero =>
      cases hnext
      simpa using hfirst
    | succ k => simpa using hrest k next hnext

theorem firstRefused_cons {taken : List Address} {listener : ListenerConfig}
    {listeners : List ListenerConfig} : FirstRefused bind taken (listener :: listeners) ↔
      ¬ (bind 0 = none ∧ IsFree taken (listenerAddress listener)) := by
  constructor
  · intro ⟨_,_,heq,hrefused⟩
    cases heq
    exact hrefused
  · intro hrefused
    exact ⟨listener,listeners,rfl,hrefused⟩

theorem takenAddresses_bound (s : Services R) (listener : ListenerConfig) :
    takenAddresses (bound s listener) = takenAddresses s ++ [listenerAddress listener] := by
  simp [takenAddresses,bound,Host.bind]

/-- The loop binds all listeners, or those in front of the first that is not granted its
address, on servers it has bound before. -/
theorem startDnsListeners_from (bind : Nat → Option PyException) (services : List DnsServer)
    (listeners : List ListenerConfig) (s : Services R) :
    let enabled := listeners.filter ListenerConfig.enabled
    let bind' := fun k => bind (services.length+k)
    (Binds bind' (takenAddresses s) enabled ∧ startDnsListeners bind services listeners s =
        (.ok (services ++ serversFrom s.host.nextSocket enabled),boundAll s enabled)) ∨
    (¬ Binds bind' (takenAddresses s) enabled ∧
      ∃ e before, startDnsListeners bind services listeners s = (.error e,boundAll s before) ∧
        (before = [] ↔ FirstRefused bind' (takenAddresses s) enabled)) := by
  induction listeners generalizing services s with
  | nil =>
    refine .inl ⟨fun k _ h => by simp at h,?_⟩
    simp [startDnsListeners,serversFrom,boundAll]
  | cons listener listeners ih =>
    cases henabled : listener.enabled with
    | false =>
      have hskip : startDnsListeners bind services (listener :: listeners) s =
          startDnsListeners bind services listeners s := by
        simp [startDnsListeners,henabled]
      simp only [List.filter_cons,henabled,hskip]
      exact ih services s
    | true =>
      have hrun : startDnsListeners bind services (listener :: listeners) s = (do
          let service ← startServer (bind services.length) listener
          startDnsListeners bind (services ++ [service]) listeners :
            Exec PyException (Services R) (List DnsServer)) s := by
        simp [startDnsListeners,henabled]
      simp only [List.filter_cons,henabled,if_true,binds_cons,firstRefused_cons,Nat.add_zero]
      by_cases hgranted : bind services.length = none ∧
          IsFree (takenAddresses s) (listenerAddress listener)
      · have hrest := ih (services ++ [⟨listener,some s.host.nextSocket⟩]) (bound s listener)
        rw [← takenAddresses_bound]
        simp only [List.length_append,List.length_singleton,Nat.add_assoc,Nat.add_comm 1] at hrest
        rw [hrun,Exec.bind_ok (startServer_ok hgranted.1 hgranted.2)]
        obtain ⟨hbinds,hok⟩ | ⟨hnot,e,before,herror,_⟩ := hrest
        · refine .inl ⟨⟨hgranted,hbinds⟩,hok.trans ?_⟩
          simp [serversFrom,bound,Host.bind,boundAll]
        · refine .inr ⟨fun h => hnot h.2,e,listener :: before,herror.trans rfl,?_⟩
          exact iff_of_false (List.cons_ne_nil _ _) fun h => h hgranted
      · obtain ⟨e,herror⟩ := startServer_error hgranted
        refine .inr ⟨fun h => hgranted h.1,e,[],hrun.trans (Exec.bind_error herror),?_⟩
        exact iff_of_true rfl hgranted

theorem startDnsListeners_run (bind : Nat → Option PyException) (config : AppConfig R)
    (s : Services R) :
    (Binds bind (takenAddresses s) (enabledListeners config) ∧
      startDnsListeners bind [] config.listeners s =
        (.ok (serversFrom s.host.nextSocket (enabledListeners config)),
          boundAll s (enabledListeners config))) ∨
    (¬ Binds bind (takenAddresses s) (enabledListeners config) ∧
      ∃ e before, startDnsListeners bind [] config.listeners s = (.error e,boundAll s before) ∧
        (before = [] ↔ FirstRefused bind (takenAddresses s) (enabledListeners config))) := by
  have h := startDnsListeners_from bind [] config.listeners s
  simp only [List.length_nil,Nat.zero_add,List.nil_append] at h
  exact h

/-! ### Starting the services -/

/-- The services after all listeners were bound. -/
def listening (s : Services R) (config : AppConfig R) : Services R :=
  { boundAll s (enabledListeners config) with
    listeners := serversFrom s.host.nextSocket (enabledListeners config) }

theorem startServices_run (faults : StartFaults) (config : AppConfig R) (s : Services R) :
    let binds := Binds faults.bind (takenAddresses s) (enabledListeners config)
    (binds ∧ ¬ HttpRefused faults config ∧ ∃ s', startServices faults config s = (.ok (),s')) ∨
    (binds ∧ HttpRefused faults config ∧
      ∃ e, startServices faults config s = (.error e,listening s config)) ∨
    (¬ binds ∧ ∃ e before, startServices faults config s = (.error e,boundAll s before) ∧
      (before = [] ↔ FirstRefused faults.bind (takenAddresses s) (enabledListeners config))) := by
  unfold startServices
  obtain ⟨hbinds,hrun⟩ | ⟨hnot,e,before,hrun,hfirst⟩ := startDnsListeners_run faults.bind config s
  · rw [Exec.bind_ok hrun,Exec.bind_ok (Exec.run_modify _ _)]
    by_cases hhttp : (config.webui.enabled || config.webui.dohEnabled) = true
    · rw [if_pos hhttp]
      by_cases hfault : faults.http = none
      · rw [Exec.bind_ok (raiseIf_none hfault _)]
        exact .inl ⟨hbinds,fun h => h.2 hfault,_,rfl⟩
      · obtain ⟨e,he⟩ := raiseIf_some hfault _
        exact .inr (.inl ⟨hbinds,⟨hhttp,hfault⟩,e,Exec.bind_error he⟩)
    · rw [if_neg hhttp]
      exact .inl ⟨hbinds,fun h => hhttp h.1,_,rfl⟩
  · exact .inr (.inr ⟨hnot,e,before,Exec.bind_error hrun,hfirst⟩)

theorem ensureState_ok (h : configFor loaded s = .ok config) :
    ensureState loaded s = (.ok config,{ s with config := some config }) := by
  unfold ensureState
  rw [Exec.bind_ok (Exec.run_get s)]
  unfold configFor at h
  cases hconfig : s.config with
  | some config' =>
    rw [hconfig] at h
    cases h
    obtain ⟨_,_,_,_,_,_,_,_⟩ := s
    cases hconfig
    rfl
  | none =>
    rw [hconfig] at h
    have hloaded : loaded = .ok config := h
    rw [hloaded]
    rfl

theorem ensureState_error {e : PyException} (h : configFor loaded s = .error e) :
    ensureState loaded s = (.error e,s) := by
  unfold ensureState
  rw [Exec.bind_ok (Exec.run_get s)]
  unfold configFor at h
  cases hconfig : s.config with
  | some config' =>
    rw [hconfig] at h
    cases h
  | none =>
    rw [hconfig] at h
    have hloaded : loaded = .error e := h
    rw [hloaded]
    rfl

/-- A manager that is about to start its services. -/
def prepared (s : Services R) (config : AppConfig R) : Services R :=
  { s with config := some config, tg := some [] }

theorem configFor_of_config {s' : Services R} (h : s'.config = some config) :
    configFor loaded s' = .ok config := by
  unfold configFor
  rw [h]

/-- What a later start sees of a start that left nothing. -/
structure SameBefore (loaded : Except PyException (AppConfig R)) (s s' : Services R) : Prop where
  config : configFor loaded s' = configFor loaded s
  sockets : s'.host.sockets = s.host.sockets
  started : servicesStarted s' = servicesStarted s

theorem SameBefore.taken {s' : Services R} (h : SameBefore loaded s s') :
    takenAddresses s' = takenAddresses s := by
  unfold takenAddresses
  rw [h.sockets]

theorem listeners_nil (h : servicesStarted s = false) :
    s.listeners = [] ∧ s.webuiServer = false := by
  simpa [servicesStarted] using h

theorem boundAll_same (s : Services R) (listeners : List ListenerConfig) :
    (boundAll s listeners).config = s.config ∧ (boundAll s listeners).listeners = s.listeners ∧
      (boundAll s listeners).webuiServer = s.webuiServer := by
  obtain ⟨host,_,hall⟩ := boundAll_eq s listeners
  rw [hall]
  exact ⟨rfl,rfl,rfl⟩

/-- Listeners that were bound are still there. -/
theorem boundAll_sockets_iff {listeners : List ListenerConfig} :
    (boundAll s listeners).host.sockets = s.host.sockets ↔ listeners = [] := by
  obtain ⟨host,hsockets,hall⟩ := boundAll_eq s listeners
  rw [hall]
  change host.sockets = _ ↔ _
  rw [hsockets]
  simp [socketsFrom]

/-! ### `RuntimeManager.start` -/

namespace RuntimeManager

theorem start_error {e : PyException} (h : configFor loaded s = .error e) :
    start loaded faults s = (.raised e,s) := by
  unfold start
  rw [Exec.bind_error (ensureState_error h)]
  rfl

theorem start_again (h : configFor loaded s = .ok config)
    (hstarted : servicesStarted s = true) :
    (start loaded faults s).1 = .started := by
  have hagain : servicesStarted ({ s with config := some config } : Services R) = true := hstarted
  unfold start
  rw [Exec.bind_ok (ensureState_ok h),Exec.bind_ok (Exec.run_get _),if_pos hagain]
  rfl

theorem start_first (faults : StartFaults) (h : configFor loaded s = .ok config)
    (hstarted : servicesStarted s = false) :
    start loaded faults s = outcomeOf (startServices faults config (prepared s config)) := by
  have hfirst : ¬ servicesStarted ({ s with config := some config } : Services R) = true := by
    simp only [servicesStarted] at hstarted ⊢
    simp [hstarted]
  have hopen : openTaskGroup ({ s with config := some config } : Services R) =
      (.ok (),prepared s config) := rfl
  unfold start
  rw [Exec.bind_ok (ensureState_ok h),Exec.bind_ok (Exec.run_get _),if_neg hfirst,
    Exec.bind_ok hopen]

theorem start_started_iff : (start loaded faults s).1 = .started ↔
    ∃ config, configFor loaded s = .ok config ∧ (servicesStarted s = true ∨
      Binds faults.bind (takenAddresses s) (enabledListeners config) ∧
        ¬ HttpRefused faults config) := by
  cases hconfig : configFor loaded s with
  | error e =>
    rw [start_error hconfig]
    simp
  | ok config =>
    simp only [Except.ok.injEq,exists_eq_left']
    cases hstarted : servicesStarted s with
    | true => simp [start_again hconfig hstarted]
    | false =>
      rw [start_first faults hconfig hstarted]
      obtain ⟨hbinds,hhttp,s',hrun⟩ | ⟨hbinds,hhttp,e,hrun⟩ | ⟨hnot,e,before,hrun,_⟩ :=
        startServices_run faults config (prepared s config)
      · rw [hrun]
        exact iff_of_true rfl (.inr ⟨hbinds,hhttp⟩)
      · rw [hrun]
        refine iff_of_false (fun h => by cases h) fun h => ?_
        exact (h.resolve_left (by simp)).2 hhttp
      · rw [hrun]
        refine iff_of_false (fun h => by cases h) fun h => ?_
        exact hnot (h.resolve_left (by simp)).1

theorem start_later {s' : Services R} (h : SameBefore loaded s s') (later : StartFaults) :
    (start loaded later s').1 = .started ↔ (start loaded later s).1 = .started := by
  rw [start_started_iff,start_started_iff,h.config,h.started,h.taken]

/-- A start that raises is right when it leaves the sockets as they were. -/
theorem allOrNothing_of_raised {e : PyException} {s' : Services R}
    (h : start loaded faults s = (.raised e,s'))
    (hconfig : configFor loaded s' = configFor loaded s)
    (hstarted : s'.host.sockets = s.host.sockets → servicesStarted s' = servicesStarted s) :
    AllOrNothing (start loaded) faults s ↔ s'.host.sockets = s.host.sockets := by
  unfold AllOrNothing
  rw [h]
  refine ⟨fun h => h.1,fun hsockets => ⟨hsockets,fun later => ?_⟩⟩
  exact start_later ⟨hconfig,hsockets,hstarted hsockets⟩ later

theorem allOrNothing_iff (loaded : Except PyException (AppConfig R)) (faults : StartFaults)
    (s : Services R) : AllOrNothing (start loaded) faults s ↔ StartSafe loaded faults s := by
  cases hconfig : configFor loaded s with
  | error e =>
    refine iff_of_true ((allOrNothing_of_raised (start_error hconfig) rfl fun _ => rfl).mpr rfl) ?_
    intro _ config hok
    rw [hconfig] at hok
    cases hok
  | ok config =>
    have hsafe : StartSafe loaded faults s ↔ (servicesStarted s = false →
        (¬ Binds faults.bind (takenAddresses s) (enabledListeners config) →
          FirstRefused faults.bind (takenAddresses s) (enabledListeners config)) ∧
        (HttpRefused faults config → enabledListeners config = [] ∨
          ¬ Binds faults.bind (takenAddresses s) (enabledListeners config))) := by
      unfold StartSafe
      simp [hconfig]
    rw [hsafe]
    cases hstarted : servicesStarted s with
    | true =>
      refine iff_of_true ?_ fun h => Bool.noConfusion h
      unfold AllOrNothing
      rw [start_again hconfig hstarted]
      trivial
    | false =>
      obtain ⟨hnone,hweb⟩ := listeners_nil hstarted
      have hfirst := start_first faults hconfig hstarted
      simp only [true_imp_iff]
      obtain ⟨hbinds,hhttp,s',hrun⟩ | ⟨hbinds,hhttp,e,hrun⟩ | ⟨hnot,e,before,hrun,hbefore⟩ :=
        startServices_run faults config (prepared s config)
      · rw [hrun] at hfirst
        unfold AllOrNothing
        rw [hfirst]
        exact iff_of_true trivial ⟨fun h => absurd hbinds h,fun h => absurd h hhttp⟩
      · rw [hrun] at hfirst
        obtain ⟨hsame,_,hwebui⟩ := boundAll_same (prepared s config) (enabledListeners config)
        have hnothing := allOrNothing_of_raised hfirst
          ((configFor_of_config hsame).trans hconfig.symm) fun hsockets => by
            have hnil := boundAll_sockets_iff.mp hsockets
            rw [hstarted]
            simp [servicesStarted,listening,hnil,serversFrom,boundAll,prepared,hweb]
        rw [hnothing]
        refine boundAll_sockets_iff.trans
          ⟨fun hnil => ⟨fun h => absurd hbinds h,fun _ => .inl hnil⟩,
          fun h => ?_⟩
        exact (h.2 hhttp).resolve_right fun h => h hbinds
      · rw [hrun] at hfirst
        obtain ⟨hsame,hlisteners,hwebui⟩ := boundAll_same (prepared s config) before
        have hnothing := allOrNothing_of_raised hfirst
          ((configFor_of_config hsame).trans hconfig.symm) fun _ => by
            unfold servicesStarted
            rw [hlisteners,hwebui]
            rfl
        rw [hnothing]
        refine boundAll_sockets_iff.trans (hbefore.trans ⟨fun h => ⟨fun _ => h,fun _ => .inr hnot⟩,
          fun h => h.1 hnot⟩)

end RuntimeManager

/-! ### `MultiprocessRuntimeManager.start` -/

theorem closeAll_sockets (servers : List DnsServer) (host : Host) :
    (servers.foldl (fun host server => stopServer server host) host).sockets =
      host.sockets.filter fun socket => some socket.id ∉ servers.map DnsServer.socket := by
  induction servers generalizing host with
  | nil => simp
  | cons server servers ih =>
    rw [List.foldl_cons,ih]
    cases hserver : server.socket with
    | none =>
      have hsame : stopServer server host = host := by simp [stopServer,hserver]
      rw [hsame]
      refine List.filter_congr fun socket _ => ?_
      simp [hserver]
    | some id =>
      have hclose : stopServer server host = host.close id := by simp [stopServer,hserver]
      rw [hclose]
      refine (List.filter_filter ..).trans (List.filter_congr fun socket _ => ?_)
      simp [hserver,Bool.and_comm]

theorem serversFrom_sockets (id : Nat) (listeners : List ListenerConfig) :
    (serversFrom id listeners).map DnsServer.socket =
      (List.range' id listeners.length).map some := by
  rw [← List.zipIdx_map_snd id listeners,serversFrom,List.map_map,List.map_map]
  rfl

theorem socketsFrom_ids (id : Nat) (listeners : List ListenerConfig) :
    (socketsFrom id listeners).map Socket.id = List.range' id listeners.length := by
  rw [← List.zipIdx_map_snd id listeners,socketsFrom,List.map_map]
  rfl

/-- Stopping the listeners that were bound last leaves what was there before. -/
theorem stopDnsListeners_listening (s : Services R) (config : AppConfig R) :
    (stopDnsListeners (listening s config)).host.sockets = s.host.sockets := by
  obtain ⟨host,hsockets,hall⟩ := boundAll_eq s (enabledListeners config)
  unfold stopDnsListeners listening
  rw [hall]
  change (List.foldl _ host _).sockets = _
  rw [closeAll_sockets,hsockets,serversFrom_sockets,List.filter_append]
  have hold : s.host.sockets.filter (fun socket => decide (some socket.id ∉
      (List.range' s.host.nextSocket (enabledListeners config).length).map some)) =
        s.host.sockets := by
    refine List.filter_eq_self.mpr fun socket hmem => ?_
    have hlt := s.host.fresh socket hmem
    simp
    omega
  have hnew : (socketsFrom s.host.nextSocket (enabledListeners config)).filter
      (fun socket => decide (some socket.id ∉
        (List.range' s.host.nextSocket (enabledListeners config).length).map some)) = [] := by
    refine List.filter_eq_nil_iff.mpr fun socket hmem => ?_
    have hid := List.mem_map_of_mem (f:=Socket.id) hmem
    rw [socketsFrom_ids] at hid
    simpa using hid
  rw [hold,hnew,List.append_nil]

theorem serving_iff {served : List Nat} (htg : s.tg = some served) :
    Serving s ↔ ∃ id ∈ served, id ∈ s.host.sockets.map Socket.id := by
  unfold Serving
  simp [htg]

/-- Nothing that was bound in a group is served once its sockets are those of before. -/
theorem not_serving (served : List Nat) (host : Host) (htg : s.tg = some served)
    (hsockets : s.host.sockets = host.sockets) (hserved : ∀ id ∈ served, host.nextSocket ≤ id) :
    ¬ Serving s := by
  rw [serving_iff htg,hsockets]
  intro ⟨id,hid,hopen⟩
  obtain ⟨socket,hmem,rfl⟩ := List.mem_map.mp hopen
  exact absurd (host.fresh socket hmem) (Nat.not_lt.mpr (hserved _ hid))

theorem cleaned_nil (h : s.listeners = []) : cleaned s = { s with
    listeners := [], webuiServer := false, workerPool := false, resources := false
    frontCache := false } := by
  unfold cleaned stopDnsListeners
  rw [h]
  rfl

theorem cleanup_raises {e : PyException} (h : ¬ Serving (cleaned s)) :
    cleanupStartedServices e s = (.raised e,{ cleaned s with tg := none }) := if_neg h

theorem cleanup_waits {e : PyException} (h : Serving (cleaned s)) :
    cleanupStartedServices e s = (.waits,cleaned s) := if_pos h

namespace MultiprocessRuntimeManager

/-- The manager once its workers run. -/
def equipped (s : Services R) (config : AppConfig R) : Services R :=
  { prepared s config with resources := true, workerPool := true, frontCache := true }

/-- A first start comes to the services, or nothing is bound when it raises. -/
theorem start_first (faults : StartFaults) (h : configFor loaded s = .ok config)
    (hstarted : servicesStarted s = false) :
    (faults.resources = none ∧ faults.pool = none ∧ start loaded faults s =
      match startServices faults config (equipped s config) with
      | (.error e,s') => cleanupStartedServices e s'
      | (.ok _,s') => (.started,s')) ∨
    (¬ (faults.resources = none ∧ faults.pool = none) ∧ ∃ e s', start loaded faults s =
      (.raised e,s') ∧ s'.host = s.host ∧ s'.config = some config ∧ s'.listeners = s.listeners ∧
        s'.webuiServer = s.webuiServer) := by
  obtain ⟨hlisteners,hwebui⟩ := listeners_nil hstarted
  have hopen : openTaskGroup ({ s with config := some config } : Services R) =
      (.ok (),prepared s config) := rfl
  unfold start
  rw [if_neg (by simp [hstarted]),Exec.bind_ok (ensureState_ok h),Exec.bind_ok hopen]
  by_cases hresources : faults.resources = none
  · rw [Exec.bind_ok (raiseIf_none hresources _),Exec.bind_ok (Exec.run_modify _ _)]
    simp only [Exec.run_pure]
    rw [Exec.bind_ok (Exec.run_modify _ _)]
    by_cases hpool : faults.pool = none
    · rw [Exec.bind_ok (raiseIf_none hpool _),Exec.bind_ok (Exec.run_modify _ _)]
      exact .inl ⟨hresources,hpool,rfl⟩
    · obtain ⟨e,he⟩ := raiseIf_some hpool _
      rw [Exec.bind_error he]
      have hcleaned :=
        cleaned_nil (s:={ prepared s config with resources := true, workerPool := true })
        hlisteners
      have hidle : ¬ Serving (cleaned { prepared s config with
          resources := true, workerPool := true }) := by
        rw [hcleaned]
        exact not_serving [] s.host rfl rfl (by simp)
      refine .inr ⟨fun h => hpool h.2,e,_,cleanup_raises hidle,?_⟩
      rw [hcleaned]
      exact ⟨rfl,rfl,hlisteners.symm,hwebui.symm⟩
  · obtain ⟨e,he⟩ := raiseIf_some hresources (prepared s config)
    rw [Exec.bind_error he]
    exact .inr ⟨fun h => hresources h.1,e,_,rfl,rfl,rfl,rfl,rfl⟩

theorem start_error {e : PyException} (h : configFor loaded s = .error e)
    (hstarted : servicesStarted s = false) : start loaded faults s = (.raised e,s) := by
  unfold start
  rw [if_neg (by simp [hstarted]),Exec.bind_error (ensureState_error h)]

theorem start_again (hstarted : servicesStarted s = true) :
    start loaded faults s = (.started,s) := if_pos hstarted

/-- A start that has bound everything but the HTTP server raises, and what it bound is closed. -/
theorem cleanup_listening (e : PyException) (s : Services R) (config : AppConfig R) :
    ∃ s', cleanupStartedServices e (listening (equipped s config) config) = (.raised e,s') ∧
      s'.host.sockets = s.host.sockets ∧ s'.config = some config ∧ servicesStarted s' = false := by
  have hsockets : (cleaned (listening (equipped s config) config)).host.sockets =
      s.host.sockets := stopDnsListeners_listening (equipped s config) config
  obtain ⟨host,_,hall⟩ := boundAll_eq (equipped s config) (enabledListeners config)
  have hcleaned : (cleaned (listening (equipped s config) config)).tg = some
      (List.range' s.host.nextSocket (enabledListeners config).length) ∧
      (cleaned (listening (equipped s config) config)).config = some config := by
    unfold cleaned stopDnsListeners listening
    rw [hall]
    exact ⟨rfl,rfl⟩
  have hidle := not_serving _ s.host hcleaned.1 hsockets fun id hid => (List.mem_range'_1.mp hid).1
  exact ⟨_,cleanup_raises hidle,hsockets,hcleaned.2,rfl⟩

/-- A start that has bound some of the listeners waits for them. -/
theorem cleanup_bound (e : PyException) (config : AppConfig R) (before : List ListenerConfig)
    (hlisteners : s.listeners = []) :
    (before = [] ∧ ∃ s', cleanupStartedServices e (boundAll (equipped s config) before) =
      (.raised e,s') ∧ s'.host.sockets = s.host.sockets ∧ s'.config = some config ∧
        servicesStarted s' = false) ∨
    (before ≠ [] ∧
      (cleanupStartedServices e (boundAll (equipped s config) before)).1 = .waits) := by
  obtain ⟨host,hsockets,hall⟩ := boundAll_eq (equipped s config) before
  have hcleaned := cleaned_nil (s:=boundAll (equipped s config) before)
    ((boundAll_same _ _).2.1.trans hlisteners)
  rw [hall] at hcleaned ⊢
  by_cases hnil : before = []
  · subst hnil
    have hsame : host.sockets = s.host.sockets := hsockets.trans (List.append_nil _)
    have hidle := not_serving [] s.host (congrArg Services.tg hcleaned)
      (by rw [hcleaned]; exact hsame) (by simp)
    refine .inl ⟨rfl,_,cleanup_raises hidle,?_⟩
    rw [hcleaned]
    exact ⟨hsame,rfl,rfl⟩
  · refine .inr ⟨hnil,congrArg Prod.fst (cleanup_waits ?_)⟩
    rw [serving_iff (congrArg Services.tg hcleaned),hcleaned]
    have hpos : 0 < before.length := List.length_pos_iff.mpr hnil
    have hfirst : s.host.nextSocket ∈ List.range' s.host.nextSocket before.length := by
      simpa using hpos
    refine ⟨s.host.nextSocket,List.mem_append_right [] hfirst,?_⟩
    change _ ∈ host.sockets.map Socket.id
    rw [hsockets,List.map_append,socketsFrom_ids]
    exact List.mem_append_right _ hfirst

/-- How a first start ends that goes as far as its listeners. -/
theorem start_cases (faults : StartFaults) (h : configFor loaded s = .ok config)
    (hstarted : servicesStarted s = false) :
    let binds := Binds faults.bind (takenAddresses s) (enabledListeners config)
    let granted := faults.resources = none ∧ faults.pool = none
    (granted ∧ binds ∧ ¬ HttpRefused faults config ∧ (start loaded faults s).1 = .started) ∨
    (¬ (granted ∧ binds ∧ ¬ HttpRefused faults config) ∧ (granted → ¬ binds →
        FirstRefused faults.bind (takenAddresses s) (enabledListeners config)) ∧
      ∃ e s', start loaded faults s = (.raised e,s') ∧ s'.host.sockets = s.host.sockets ∧
        s'.config = some config ∧ servicesStarted s' = false) ∨
    (granted ∧ ¬ binds ∧
      ¬ FirstRefused faults.bind (takenAddresses s) (enabledListeners config) ∧
      (start loaded faults s).1 = .waits) := by
  obtain ⟨hresources,hpool,hfirst⟩ | ⟨hnot,e,s',hrun,hhost,hconfig,hlisteners,hwebui⟩ :=
    start_first faults h hstarted
  · obtain ⟨hbinds,hhttp,s',hrun⟩ | ⟨hbinds,hhttp,e,hrun⟩ | ⟨hnot,e,before,hrun,hbefore⟩ :=
      startServices_run faults config (equipped s config)
    · rw [hrun] at hfirst
      exact .inl ⟨⟨hresources,hpool⟩,hbinds,hhttp,congrArg Prod.fst hfirst⟩
    · rw [hrun] at hfirst
      obtain ⟨s',hcleanup,hleft⟩ := cleanup_listening e s config
      exact .inr (.inl ⟨fun h => h.2.2 hhttp,fun _ h => absurd hbinds h,e,s',hfirst.trans hcleanup,
        hleft⟩)
    · rw [hrun] at hfirst
      obtain ⟨hnil,s',hcleanup,hleft⟩ | ⟨hne,hwaits⟩ :=
        cleanup_bound e config before (listeners_nil hstarted).1
      · exact .inr (.inl ⟨fun h => hnot h.2.1,fun _ _ => hbefore.mp hnil,e,s',
          hfirst.trans hcleanup,hleft⟩)
      · exact .inr (.inr ⟨⟨hresources,hpool⟩,hnot,fun h => hne (hbefore.mpr h),
          (congrArg Prod.fst hfirst).trans hwaits⟩)
  · refine .inr (.inl ⟨fun h => hnot h.1,fun h => absurd h hnot,e,s',hrun,?_,hconfig,?_⟩)
    · rw [hhost]
    · unfold servicesStarted at hstarted ⊢
      rw [hlisteners,hwebui]
      exact hstarted

theorem start_started_iff : (start loaded faults s).1 = .started ↔
    servicesStarted s = true ∨ ∃ config, configFor loaded s = .ok config ∧
      (faults.resources = none ∧ faults.pool = none) ∧
      Binds faults.bind (takenAddresses s) (enabledListeners config) ∧
        ¬ HttpRefused faults config := by
  cases hstarted : servicesStarted s with
  | true => simp [start_again hstarted]
  | false =>
    cases hconfig : configFor loaded s with
    | error e =>
      rw [start_error hconfig hstarted]
      simp
    | ok config =>
      simp only [Bool.false_eq_true,false_or,Except.ok.injEq,exists_eq_left']
      obtain ⟨hgranted,hbinds,hhttp,hrun⟩ | ⟨hnot,_,e,s',hrun,_⟩ | ⟨_,hnot,_,hrun⟩ :=
        start_cases faults hconfig hstarted
      · exact iff_of_true hrun ⟨hgranted,hbinds,hhttp⟩
      · rw [hrun]
        exact iff_of_false (fun h => by cases h) hnot
      · rw [hrun]
        exact iff_of_false (fun h => by cases h) fun h => hnot h.2.1

theorem start_later {s' : Services R} (h : SameBefore loaded s s') (later : StartFaults) :
    (start loaded later s').1 = .started ↔ (start loaded later s).1 = .started := by
  rw [start_started_iff,start_started_iff,h.config,h.started,h.taken]

theorem allOrNothing_iff (loaded : Except PyException (AppConfig R)) (faults : StartFaults)
    (s : Services R) : AllOrNothing (start loaded) faults s ↔ StartSafe loaded faults s := by
  have hraised {e : PyException} {s' : Services R} (hrun : start loaded faults s = (.raised e,s'))
      (hsame : SameBefore loaded s s') : AllOrNothing (start loaded) faults s := by
    unfold AllOrNothing
    rw [hrun]
    exact ⟨hsame.sockets,start_later hsame⟩
  cases hstarted : servicesStarted s with
  | true =>
    refine iff_of_true ?_ fun h => Bool.noConfusion (hstarted.symm.trans h)
    unfold AllOrNothing
    rw [start_again hstarted]
    trivial
  | false =>
    cases hconfig : configFor loaded s with
    | error e =>
      refine iff_of_true (hraised (start_error hconfig hstarted) ⟨rfl,rfl,rfl⟩) ?_
      intro _ config hok
      rw [hconfig] at hok
      cases hok
    | ok config =>
      have hsafe : StartSafe loaded faults s ↔ ((faults.resources = none ∧ faults.pool = none) →
          ¬ Binds faults.bind (takenAddresses s) (enabledListeners config) →
            FirstRefused faults.bind (takenAddresses s) (enabledListeners config)) := by
        unfold StartSafe
        simp [hconfig,hstarted]
      rw [hsafe]
      obtain ⟨_,hbinds,_,hrun⟩ | ⟨_,hfirst,e,s',hrun,hsockets,hown,hnone⟩ |
          ⟨hgranted,hnot,hlate,hrun⟩ := start_cases faults hconfig hstarted
      · refine iff_of_true ?_ fun _ h => absurd hbinds h
        unfold AllOrNothing
        rw [hrun]
        trivial
      · refine iff_of_true (hraised hrun ⟨?_,hsockets,hnone.trans hstarted.symm⟩) hfirst
        exact (configFor_of_config hown).trans hconfig.symm
      · refine iff_of_false ?_ fun h => hlate (h hgranted hnot)
        unfold AllOrNothing
        rw [hrun]
        exact id

end MultiprocessRuntimeManager

/-- Of either manager, a start is all or nothing just when a listener that is refused is the
first, and, in a single process, when no listener is bound before the HTTP server is refused. -/
theorem start_allOrNothing_iff (loaded : Except PyException (AppConfig R)) (faults : StartFaults)
    (s : Services R) :
    (AllOrNothing (RuntimeManager.start loaded) faults s ↔
      RuntimeManager.StartSafe loaded faults s) ∧
    (AllOrNothing (MultiprocessRuntimeManager.start loaded) faults s ↔
      MultiprocessRuntimeManager.StartSafe loaded faults s) :=
  ⟨RuntimeManager.allOrNothing_iff loaded faults s,
    MultiprocessRuntimeManager.allOrNothing_iff loaded faults s⟩

end

/-- Two listeners, the second on a port that is taken. -/
def twoListeners : AppConfig Unit where
  listeners := [⟨"a",.udp,"127.0.0.1",5300,true⟩,⟨"b",.udp,"127.0.0.1",5301,true⟩]
  webui := ⟨false,false,"127.0.0.1",0⟩
  workers := some 1
  rest := ()

def secondRefused : StartFaults where
  bind k := if k = 1 then some addressInUse else none

/-- One manager leaves the first listener open, the other waits for it. -/
theorem start_leavesListener :
    ¬ AllOrNothing (RuntimeManager.start (.ok twoListeners)) secondRefused {} ∧
      ¬ AllOrNothing (MultiprocessRuntimeManager.start (.ok twoListeners)) secondRefused {} := by
  constructor
  · intro h
    have hraised : (RuntimeManager.start (.ok twoListeners) secondRefused {}).1 =
      .raised addressInUse := rfl
    have hleft : (RuntimeManager.start (.ok twoListeners) secondRefused {}).2.host.sockets =
      [⟨0,⟨.udp,"127.0.0.1",5300⟩⟩] := rfl
    unfold AllOrNothing at h
    rw [hraised] at h
    simp [hleft] at h
  · intro h
    have hwaits : (MultiprocessRuntimeManager.start (.ok twoListeners) secondRefused {}).1 =
      .waits := rfl
    unfold AllOrNothing at h
    rw [hwaits] at h
    exact h

end SmartDns.Listeners
