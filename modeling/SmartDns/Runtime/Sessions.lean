import SmartDns.Runtime.Manager
import SmartDns.Lib.Transition
set_option autoImplicit false

/-!
The aiohttp session that all DoH nameservers of the process share. It is opened by the first
query with the settings of that query's nameserver, and only `stop` closes it.
-/

namespace SmartDns.Runtime

abbrev FrozenHosts := List (String × List String)

/-- The settings of the runtime section that aiohttp nameservers are built with. -/
structure ResolverSection where
  bootstrapResolver : List String := []
  hosts : List (String × List String) := []
  deriving DecidableEq, Repr

def freezeHosts (hosts : List (String × List String)) : FrozenHosts :=
  hosts.mergeSort fun a b => decide (a.1 ≤ b.1)

structure DoHAiohttpNameserver where
  bootstrapResolver : List String
  hosts : FrozenHosts
  deriving DecidableEq, Repr

def buildNameserver (config : ResolverSection) : DoHAiohttpNameserver :=
  ⟨config.bootstrapResolver,freezeHosts config.hosts⟩

/-- The resolver of a connector. -/
inductive HostResolver where
  | default
  | async (nameservers : List String)
  | hostsAsync (hosts : FrozenHosts) (nameservers : Option (List String))
  deriving DecidableEq, Repr

def buildResolver (bootstrapResolver : List String) (hosts : FrozenHosts) : HostResolver :=
  if hosts ≠ [] then
    if bootstrapResolver ≠ [] then .hostsAsync hosts (some bootstrapResolver)
    else .hostsAsync hosts none
  else if bootstrapResolver ≠ [] then .async bootstrapResolver
  else .default

structure ClientSession where
  resolver : HostResolver
  closed : Bool := false
  deriving DecidableEq, Repr

/-- The globals of the module. -/
structure SharedSession where
  session : Option ClientSession := none
  bootstrapResolver : Option (List String) := none
  hosts : Option FrozenHosts := none
  deriving DecidableEq, Repr

def sessionChanged : PyException :=
  PyException.runtimeError "aiohttp bootstrap_resolver/hosts changed while session is active"

def newSession (ns : DoHAiohttpNameserver) : ClientSession where
  resolver := buildResolver ns.bootstrapResolver ns.hosts

def openSession (ns : DoHAiohttpNameserver) : Exec PyException SharedSession ClientSession := do
  Exec.modify fun _ => ⟨some (newSession ns),some ns.bootstrapResolver,some ns.hosts⟩
  pure (newSession ns)

def getSharedSession (ns : DoHAiohttpNameserver) :
    Exec PyException SharedSession ClientSession := do
  let shared ← Exec.get
  match shared.session with
  | none => openSession ns
  | some session =>
    if session.closed then openSession ns
    else if shared.bootstrapResolver ≠ some ns.bootstrapResolver ∨ shared.hosts ≠ some ns.hosts then
      Exec.raise sessionChanged
    else pure session

def closeSharedSessions (_ : SharedSession) : SharedSession := {}

/-! ### The manager with its queries -/

/-- `reloaded` says whether `reload` made the state in use; `queries` are the states that the
queries so far have taken up, and may still be at work with. -/
structure SessionSystem (R P : Type) where
  manager : RuntimeManager (ResolverSection × R) P := {}
  shared : SharedSession := {}
  reloaded : Bool := false
  queries : List (RuntimeState (ResolverSection × R)) := []

def RuntimeState.nameserver {R : Type} (state : RuntimeState (ResolverSection × R)) :
    DoHAiohttpNameserver :=
  buildNameserver state.config.rest.1

inductive Operation (R : Type) where
  | load (env : Environment (ResolverSection × R))
  | start (env : Environment (ResolverSection × R)) (comesUp : Bool)
  | reload (env : Environment (ResolverSection × R))
  | stop
  | query
  | ask (query : Nat)
  | lose

namespace SessionSystem

variable {R P : Type}

def loading (env : Environment (ResolverSection × R)) (s : SessionSystem R P) :
    SessionSystem R P :=
  match RuntimeManager.load env s.manager with
  | (.ok _,manager) => { s with manager, reloaded := false }
  | (.error _,manager) => { s with manager }

/-- The services come up or not, once there is a state. -/
def serving (comesUp : Bool) (s : SessionSystem R P) : SessionSystem R P :=
  match s.manager.state with
  | none => s
  | some state => { s with manager := { s.manager with
      servicesStarted := s.manager.servicesStarted || comesUp && state.config.servicesStarted } }

/-- One operation, or what a query does between two awaits. A query asks an aiohttp nameserver
of the state it has taken up; an open session may be lost at any time. -/
def step (s : SessionSystem R P) : Operation R → Option (SessionSystem R P)
  | .load env => some (loading env s)
  | .start env comesUp =>
    match s.manager.state with
    | some _ => some (serving comesUp s)
    | none => some (serving comesUp (loading env s))
  | .reload env =>
    match RuntimeManager.reload env s.manager with
    | (.ok _,manager) => some { s with manager, reloaded := true }
    | (.error _,manager) => some { s with manager }
  | .stop => some { s with
      manager := { s.manager with servicesStarted := false }
      shared := closeSharedSessions s.shared }
  | .query =>
    match s.manager.getState with
    | .ok state => some { s with queries := s.queries ++ [state] }
    | .error _ => none
  | .ask i =>
    match s.queries[i]? with
    | some state => some { s with shared := (getSharedSession state.nameserver s.shared).2 }
    | none => none
  | .lose =>
    match s.shared.session with
    | some session =>
      some { s with shared := { s.shared with session := some { session with closed := true } } }
    | none => none

/-! ### What is claimed, and when it holds -/

/-- After a reload, a query of the new state that asks now is given a session with its settings. -/
def ServesReloaded (s : SessionSystem R P) : Prop :=
  ∀ state, s.manager.state = some state → s.reloaded = true →
    ∃ session, (getSharedSession state.nameserver s.shared).1 = .ok session ∧
      session.resolver = buildResolver state.nameserver.bootstrapResolver state.nameserver.hosts

/-- A session is open. -/
def IsOpen (shared : SharedSession) : Prop :=
  ∃ session, shared.session = some session ∧ session.closed = false

def Settings (shared : SharedSession) (ns : DoHAiohttpNameserver) : Prop :=
  shared.bootstrapResolver = some ns.bootstrapResolver ∧ shared.hosts = some ns.hosts

/-- A reload that completes comes while no session is open with other settings than the ones it
reads, and a query of an older state with other settings does not open one after it. -/
def SessionSafe (s : SessionSystem R P) : Operation R → Prop
  | .reload env => ∀ config, RuntimeManager.Reaches env config →
      RuntimeManager.Completes env s.manager config → IsOpen s.shared →
        Settings s.shared (buildNameserver config.rest.1)
  | .ask i => ∀ asked current, s.queries[i]? = some asked → s.manager.state = some current →
      s.reloaded = true → ¬ IsOpen s.shared → asked.nameserver = current.nameserver
  | _ => True

variable {s s' : SessionSystem R P} {shared : SharedSession} {ns : DoHAiohttpNameserver}

/-! ### The session -/

/-- An open session is the one that the settings next to it describe. -/
def Coherent (shared : SharedSession) : Prop :=
  ∀ session, shared.session = some session → ∃ ns, Settings shared ns ∧
    session.resolver = buildResolver ns.bootstrapResolver ns.hosts

theorem Settings.unique {ns' : DoHAiohttpNameserver} (h : Settings shared ns)
    (h' : Settings shared ns') : ns = ns' := by
  obtain ⟨b,hosts⟩ := ns
  obtain ⟨b',hosts'⟩ := ns'
  cases Option.some.inj (h.1.symm.trans h'.1)
  cases Option.some.inj (h.2.symm.trans h'.2)
  rfl

def opened (ns : DoHAiohttpNameserver) : SharedSession :=
  ⟨some (newSession ns),some ns.bootstrapResolver,some ns.hosts⟩

theorem getSharedSession_closed (h : ¬ IsOpen shared) :
    getSharedSession ns shared =
      (.ok (newSession ns),opened ns) := by
  unfold getSharedSession
  rw [Exec.bind_ok (Exec.run_get shared)]
  cases hsession : shared.session with
  | none => rfl
  | some session =>
    have hclosed : session.closed = true := by
      cases hc : session.closed with
      | true => rfl
      | false => exact absurd ⟨session,hsession,hc⟩ h
    simp only [hclosed]
    rfl

theorem getSharedSession_kept {session : ClientSession} (h : shared.session = some session)
    (hopen : session.closed = false) (hsame : Settings shared ns) :
    getSharedSession ns shared = (.ok session,shared) := by
  unfold getSharedSession
  rw [Exec.bind_ok (Exec.run_get shared)]
  simp only [h,hopen]
  rw [if_neg (by simp),if_neg (by simp [hsame.1,hsame.2])]
  rfl

theorem getSharedSession_changed {session : ClientSession} (h : shared.session = some session)
    (hopen : session.closed = false) (hother : ¬ Settings shared ns) :
    getSharedSession ns shared = (.error sessionChanged,shared) := by
  have hne : shared.bootstrapResolver ≠ some ns.bootstrapResolver ∨
      shared.hosts ≠ some ns.hosts := by
    rw [← not_and_or]
    exact hother
  unfold getSharedSession
  rw [Exec.bind_ok (Exec.run_get shared)]
  simp only [h,hopen]
  rw [if_neg (by simp),if_pos hne]
  rfl

/-- A nameserver is given a session of its own settings just when none is open with others. -/
theorem getSharedSession_own_iff (hcoherent : Coherent shared) :
    (∃ session, (getSharedSession ns shared).1 = .ok session ∧
        session.resolver = buildResolver ns.bootstrapResolver ns.hosts) ↔
      (IsOpen shared → Settings shared ns) := by
  by_cases hopen : IsOpen shared
  · obtain ⟨session,hsession,hclosed⟩ := hopen
    obtain ⟨own,hown,hresolver⟩ := hcoherent session hsession
    by_cases hsame : Settings shared ns
    · rw [getSharedSession_kept hsession hclosed hsame]
      rw [hown.unique hsame] at hresolver
      exact iff_of_true ⟨session,rfl,hresolver⟩ fun _ => hsame
    · rw [getSharedSession_changed hsession hclosed hsame]
      refine iff_of_false ?_ fun h => hsame (h ⟨session,hsession,hclosed⟩)
      intro ⟨_,herror,_⟩
      cases herror
  · rw [getSharedSession_closed hopen]
    exact iff_of_true ⟨_,rfl,rfl⟩ fun h => absurd h hopen

/-- What asking leaves: the globals as they were, or a new session of the nameserver. -/
theorem getSharedSession_cases (ns : DoHAiohttpNameserver) (shared : SharedSession) :
    IsOpen shared ∧ (getSharedSession ns shared).2 = shared ∨
      ¬ IsOpen shared ∧ (getSharedSession ns shared).2 = opened ns := by
  by_cases hopen : IsOpen shared
  · obtain ⟨session,hsession,hclosed⟩ := hopen
    refine .inl ⟨⟨session,hsession,hclosed⟩,?_⟩
    by_cases hsame : Settings shared ns
    · rw [getSharedSession_kept hsession hclosed hsame]
    · rw [getSharedSession_changed hsession hclosed hsame]
  · exact .inr ⟨hopen,by rw [getSharedSession_closed hopen]⟩

theorem coherent_opened (ns : DoHAiohttpNameserver) : Coherent (opened ns) := by
  intro session hsession
  cases hsession
  exact ⟨ns,⟨rfl,rfl⟩,rfl⟩

/-! ### Steps -/

theorem loading_shared (env : Environment (ResolverSection × R)) (s : SessionSystem R P) :
    (loading env s).shared = s.shared ∧ (loading env s).queries = s.queries := by
  unfold loading
  split
  · exact ⟨rfl,rfl⟩
  · exact ⟨rfl,rfl⟩

theorem serving_same (comesUp : Bool) (s : SessionSystem R P) :
    (serving comesUp s).shared = s.shared ∧ (serving comesUp s).reloaded = s.reloaded ∧
      (serving comesUp s).manager.state = s.manager.state := by
  unfold serving
  split
  · exact ⟨rfl,rfl,rfl⟩
  · exact ⟨rfl,rfl,rfl⟩

/-- A load leaves a state that is not from a reload, or the state as it was. -/
theorem loading_cases (env : Environment (ResolverSection × R)) (s : SessionSystem R P) :
    (loading env s).reloaded = false ∨
      (loading env s).reloaded = s.reloaded ∧ (loading env s).manager.state = s.manager.state := by
  unfold loading
  obtain ⟨new,m',_,hrun⟩ | ⟨e,m',hstate,hrun⟩ := RuntimeManager.load_cases env s.manager
  · rw [hrun]
    exact .inl rfl
  · rw [hrun]
    exact .inr ⟨rfl,hstate⟩

/-- An operation changes the session, takes up the state of a reload, or does neither. -/
inductive StepSessions (s s' : SessionSystem R P) : Operation R → Prop
  | same (op : Operation R) (shared : s'.shared = s.shared) (reloaded : s'.reloaded = false ∨
      s'.reloaded = s.reloaded ∧ s'.manager.state = s.manager.state)
      (safe : SessionSafe s op) : StepSessions s s' op
  | reloads (env : Environment (ResolverSection × R))
      (new : RuntimeState (ResolverSection × R)) (shared : s'.shared = s.shared)
      (reaches : RuntimeManager.Reaches env new.config)
      (completes : RuntimeManager.Completes env s.manager new.config)
      (state : s'.manager.state = some new) (reloaded : s'.reloaded = true) :
      StepSessions s s' (.reload env)
  | opens (i : Nat) (asked : RuntimeState (ResolverSection × R))
      (query : s.queries[i]? = some asked)
      (closed : ¬ IsOpen s.shared)
      (shared : s'.shared = opened asked.nameserver)
      (reloaded : s'.reloaded = s.reloaded) (state : s'.manager.state = s.manager.state) :
      StepSessions s s' (.ask i)
  | closes (op : Operation R) (shared : ¬ IsOpen s'.shared)
      (coherent : Coherent s.shared → Coherent s'.shared) (safe : SessionSafe s op) :
      StepSessions s s' op

theorem step_sessions {op : Operation R} (h : step s op = some s') : StepSessions s s' op := by
  cases op with
  | load env =>
    cases h
    exact .same _ (loading_shared env s).1 (loading_cases env s) trivial
  | start env comesUp =>
    simp only [step] at h
    split at h
    · cases h
      obtain ⟨hshared,hreloaded,hstate⟩ := serving_same comesUp s
      exact .same _ hshared (.inr ⟨hreloaded,hstate⟩) trivial
    · cases h
      obtain ⟨hshared,hreloaded,hstate⟩ := serving_same comesUp (loading env s)
      refine .same _ (hshared.trans (loading_shared env s).1) ?_ trivial
      rw [hreloaded,hstate]
      exact loading_cases env s
  | reload env =>
    simp only [step] at h
    obtain ⟨new,m',hreaches,hcompletes,hstate,hrun⟩ | ⟨hnot,e,m',hstate,hrun⟩ :=
      RuntimeManager.reload_cases env s.manager
    · rw [hrun] at h
      cases h
      exact .reloads env new rfl hreaches hcompletes hstate rfl
    · rw [hrun] at h
      cases h
      exact .same _ rfl (.inr ⟨rfl,hstate⟩) fun config hreaches hcompletes =>
        absurd hcompletes (hnot config hreaches)
  | stop =>
    cases h
    have hclosed : ¬ IsOpen (closeSharedSessions s.shared) := fun ⟨_,hsession,_⟩ => by
      cases hsession
    exact .closes _ hclosed (fun _ _ hsession => by cases hsession) trivial
  | query =>
    simp only [step] at h
    split at h
    · cases h
      exact .same _ rfl (.inr ⟨rfl,rfl⟩) trivial
    · cases h
  | ask i =>
    simp only [step] at h
    split at h
    · rename_i asked hquery
      cases h
      obtain ⟨hopen,hsame⟩ | ⟨hclosed,hnew⟩ := getSharedSession_cases asked.nameserver s.shared
      · exact .same _ hsame (.inr ⟨rfl,rfl⟩) fun _ _ _ _ _ hno => absurd hopen hno
      · exact .opens i asked hquery hclosed hnew rfl rfl
    · cases h
  | lose =>
    simp only [step] at h
    split at h
    · rename_i session hsession
      cases h
      refine .closes _ ?_ ?_ trivial
      · intro ⟨_,hlost,hopen⟩
        cases hlost
        cases hopen
      · intro hcoherent _ hlost
        cases hlost
        exact hcoherent session hsession
    · cases h

theorem Coherent.step {op : Operation R} (hs : Coherent s.shared) (h : step s op = some s') :
    Coherent s'.shared := by
  cases step_sessions h with
  | same _ hshared _ _ =>
    rw [hshared]
    exact hs
  | reloads _ _ hshared _ _ _ _ =>
    rw [hshared]
    exact hs
  | opens _ asked _ _ hshared _ _ =>
    rw [hshared]
    exact coherent_opened asked.nameserver
  | closes _ _ hcoherent _ => exact hcoherent hs

theorem servesReloaded_iff (hs : Coherent s.shared) : ServesReloaded s ↔
    ∀ state, s.manager.state = some state → s.reloaded = true → IsOpen s.shared →
      Settings s.shared state.nameserver :=
  forall_congr' fun _ => forall_congr' fun _ => forall_congr' fun _ => getSharedSession_own_iff hs

theorem ServesReloaded.step {op : Operation R} (hs : Coherent s.shared) (hserves : ServesReloaded s)
    (hsafe : SessionSafe s op) (h : step s op = some s') : ServesReloaded s' := by
  rw [servesReloaded_iff (hs.step h)]
  rw [servesReloaded_iff hs] at hserves
  intro state hstate hreloaded hopen
  cases step_sessions h with
  | same _ hshared hsame _ =>
    obtain hnot | ⟨hsame,hold⟩ := hsame
    · rw [hnot] at hreloaded
      cases hreloaded
    · rw [hshared] at hopen ⊢
      exact hserves state (hold.symm.trans hstate) (hsame.symm.trans hreloaded) hopen
  | reloads env new hshared hreaches hcompletes hnew _ =>
    cases hnew.symm.trans hstate
    rw [hshared] at hopen ⊢
    exact hsafe state.config hreaches hcompletes hopen
  | opens i asked hquery hclosed hshared hsame hold =>
    have hasked := hsafe asked state hquery (hold.symm.trans hstate) (hsame.symm.trans hreloaded)
      hclosed
    rw [hshared,← hasked]
    exact ⟨rfl,rfl⟩
  | closes _ hclosed _ _ => exact absurd hopen hclosed

theorem sessionSafe_of_serves {op : Operation R} (hs : Coherent s.shared) (h : step s op = some s')
    (hserves : ServesReloaded s') : SessionSafe s op := by
  rw [servesReloaded_iff (hs.step h)] at hserves
  cases step_sessions h with
  | same _ _ _ hsafe => exact hsafe
  | reloads env new hshared hreaches hcompletes hstate hreloaded =>
    intro config hreaches' _ hopen
    rw [← hreaches.unique hreaches']
    rw [hshared] at hserves
    exact hserves new hstate hreloaded hopen
  | opens i asked hquery hclosed hshared hreloaded hstate =>
    intro asked' current hasked hcurrent hyes _
    cases hquery.symm.trans hasked
    rw [hshared] at hserves
    have hsettings := hserves current (hstate.trans hcurrent) (hreloaded.trans hyes) ⟨_,rfl,rfl⟩
    exact Settings.unique ⟨rfl,rfl⟩ hsettings
  | closes _ _ _ hsafe => exact hsafe

/-- Along every run a reloaded state has a session of its own settings whenever it asks, just
when no reload comes upon an open session of others and no older query opens one behind it. -/
theorem reload_servesReloaded_iff (ops : List (Operation R)) :
    Transition.Always step ServesReloaded ({} : SessionSystem R P) ops ↔
      Transition.Guarded step SessionSafe ({} : SessionSystem R P) ops := by
  have hcoherent : Coherent ({} : SessionSystem R P).shared := fun _ h => by cases h
  constructor
  · intro h
    exact h.guarded (I:=fun s => Coherent s.shared) hcoherent (fun _ _ _ hs h => hs.step h)
      fun _ _ _ hs h hserves => sessionSafe_of_serves hs h hserves
  · intro h
    have hserves : ServesReloaded ({} : SessionSystem R P) := fun _ hstate => by cases hstate
    refine (h.always (I:=fun s => Coherent s.shared ∧ ServesReloaded s) ⟨hcoherent,hserves⟩ ?_).mono
      fun _ hs => hs.2
    intro s op s' hs hsafe h
    exact ⟨hs.1.step h,hs.2.step hs.1 hsafe h⟩

/-- A file that asks these resolvers for the names of its nameservers. -/
def resolverFile (bootstrapResolver : List String) : Environment (ResolverSection × Unit) where
  loadConfig := .ok
    { listeners := [], webui := ⟨false,false,"127.0.0.1",0⟩, workers := some 1
      rest := ({ bootstrapResolver },()) }
  configureLogging _ := .ok ()
  loadTagFiles _ := .ok ()
  plugins _ := []
  validate _ _ := .error (PyException.valueError "")
  assemble _ _ := .ok ()

/-- A query opens a session, and the file that is reloaded names another resolver. -/
theorem reload_keepsSession :
    ¬ Transition.Always step ServesReloaded ({} : SessionSystem Unit Unit)
      [.load (resolverFile ["192.0.2.1"]),.query,.ask 0,.reload (resolverFile ["192.0.2.2"])] := by
  intro h
  have hrun : ∃ (s : SessionSystem Unit Unit) (new : RuntimeState (ResolverSection × Unit)),
      Transition.run step ({} : SessionSystem Unit Unit)
        [.load (resolverFile ["192.0.2.1"]),.query,.ask 0,.reload (resolverFile ["192.0.2.2"])] =
          some s ∧ s.manager.state = some new ∧ s.reloaded = true ∧
      s.shared = opened (buildNameserver ⟨["192.0.2.1"],[]⟩) ∧
      new.nameserver = buildNameserver ⟨["192.0.2.2"],[]⟩ := ⟨_,_,rfl,rfl,rfl,rfl,rfl⟩
  obtain ⟨s,new,hrun,hstate,hreloaded,hshared,hnew⟩ := hrun
  have hcoherent : Coherent s.shared := by
    rw [hshared]
    exact coherent_opened _
  have hsettings := (servesReloaded_iff hcoherent).mp (h.final hrun) new hstate hreloaded
  rw [hshared,hnew] at hsettings
  have hsame := (hsettings ⟨_,rfl,rfl⟩).1
  simp [opened,buildNameserver] at hsame

end SessionSystem

end SmartDns.Runtime
