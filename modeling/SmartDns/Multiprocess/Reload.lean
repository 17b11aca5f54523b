import SmartDns.Runtime.Manager
import SmartDns.Multiprocess.FrontCache
set_option autoImplicit false

/-!
`MultiprocessRuntimeManager.reload`: the new worker pool is started and the runtime inside
the manager reloaded before the pool, the front cache and the shared trees in use are
replaced; the old ones are let go at the end.
-/

namespace SmartDns.Runtime

/-- `generation` counts the swaps; the pool, the front cache and the shared trees in use,
given by the configuration they were built with, are those of the last. -/
structure MultiprocessRuntimeManager (R P : Type) where
  runtime : RuntimeManager R P
  servicesStarted : Bool
  /-- whether there is a task group, so that `start` was called -/
  started : Bool
  generation : Nat
  workerPool : Option (AppConfig R)
  frontCache : Option FrontCache
  resources : Option (AppConfig R)

/-- What a reload calls besides the build of the state. `abandon` stops the new pool and
closes the new trees when the rest has raised. -/
structure MasterEnvironment (R : Type) where
  loadConfig : Except PyException (AppConfig R)
  runtime : Environment R
  buildResources : AppConfig R → Except PyException Unit
  createPool : AppConfig R → Except PyException Unit
  startPool : AppConfig R → Except PyException Unit
  abandon : Except PyException Unit
  frontCacheSize : AppConfig R → Nat
  stopOldPool : Except PyException Unit
  closeOldResources : Except PyException Unit

namespace MultiprocessRuntimeManager

variable {R P : Type} (env : MasterEnvironment R)

def onRuntime {α : Type} (x : Exec PyException (RuntimeManager R P) α) :
    Exec PyException (MultiprocessRuntimeManager R P) α :=
  Exec.within MultiprocessRuntimeManager.runtime (fun runtime m => { m with runtime }) x

/-- The part of `reload` under the `try`. -/
def renew (config : AppConfig R) :
    Exec PyException (MultiprocessRuntimeManager R P) (RuntimeState R) := do
  Exec.ofExcept (env.createPool config)
  let m ← Exec.get
  if m.started then do
    Exec.ofExcept (env.startPool config)
    onRuntime (RuntimeManager.reload env.runtime)
  else Exec.raise (PyException.runtimeError "运行时暂未处于 start 状态")

/-- The `except` of `reload`. -/
def giveUp (e : PyException) :
    Exec PyException (MultiprocessRuntimeManager R P) (RuntimeState R) := do
  Exec.ofExcept env.abandon
  Exec.raise e

def swap (config : AppConfig R) (new : RuntimeState R) (m : MultiprocessRuntimeManager R P) :
    MultiprocessRuntimeManager R P :=
  { m with
    generation := m.generation+1
    workerPool := some config
    resources := some config
    frontCache := some (FrontCache.new (env.frontCacheSize new.config)) }

/-- The pool and the trees that `old` had in use, after the swap. -/
def letGo (old : MultiprocessRuntimeManager R P) : Except PyException Unit := do
  if old.workerPool.isSome then env.stopOldPool else pure ()
  if old.resources.isSome then env.closeOldResources else pure ()

def reload : Exec PyException (MultiprocessRuntimeManager R P) (RuntimeState R) := do
  let old ← Exec.get
  let oldState ← Exec.ofExcept old.runtime.getState
  let config ← Exec.ofExcept env.loadConfig
  if old.servicesStarted ∧ oldState.config.serviceSignature ≠ config.serviceSignature then
    Exec.raise (PyException.runtimeError "listener 或 webui 地址变更需要重启进程")
  else do
    Exec.ofExcept (env.buildResources config)
    let new ← Exec.handle (renew env config) (giveUp env)
    Exec.modify (swap env config new)
    Exec.ofExcept (letGo env old)
    pure new

/-! ### When a reload that raises changes nothing -/

structure Unchanged (m m' : MultiprocessRuntimeManager R P) : Prop where
  runtime : m.runtime.Unchanged m'.runtime
  generation : m'.generation = m.generation
  workerPool : m'.workerPool = m.workerPool
  frontCache : m'.frontCache = m.frontCache
  resources : m'.resources = m.resources

/-- The new pool is started. -/
structure Prepares (m : MultiprocessRuntimeManager R P) (old : RuntimeState R)
    (config : AppConfig R) : Prop where
  state : m.runtime.state = some old
  loadConfig : env.loadConfig = .ok config
  signature : ¬ (m.servicesStarted ∧ old.config.serviceSignature ≠ config.serviceSignature)
  buildResources : env.buildResources config = .ok ()
  createPool : env.createPool config = .ok ()
  started : m.started = true
  startPool : env.startPool config = .ok ()

/-- Once the new pool is started, the reload of the runtime is safe, and if it completes the
old pool and the old trees are let go without an exception. -/
def ReloadSafe (m : MultiprocessRuntimeManager R P) : Prop :=
  ∀ old config, Prepares env m old config →
    RuntimeManager.ReloadSafe env.runtime m.runtime ∧
      ((∃ config', RuntimeManager.Reaches env.runtime config' ∧
        RuntimeManager.Completes env.runtime m.runtime config') → letGo env m = .ok ())

variable {env} {m : MultiprocessRuntimeManager R P} {old : RuntimeState R} {config : AppConfig R}

theorem Unchanged.refl (m : MultiprocessRuntimeManager R P) : m.Unchanged m :=
  ⟨⟨rfl,rfl⟩,rfl,rfl,rfl,rfl⟩

theorem giveUp_run (env : MasterEnvironment R) (e : PyException)
    (m : MultiprocessRuntimeManager R P) :
    ∃ e', giveUp env e m = (.error e',m) := by
  unfold giveUp
  cases env.abandon with
  | error e' => exact ⟨e',Exec.bind_error (Exec.run_ofExcept _ _)⟩
  | ok u => exact ⟨e,Exec.bind_ok (Exec.run_ofExcept _ _)⟩

theorem renew_run (h : Prepares env m old config) : renew env config m =
    ((RuntimeManager.reload env.runtime m.runtime).1,
      { m with runtime := (RuntimeManager.reload env.runtime m.runtime).2 }) := by
  unfold renew
  rw [h.createPool,Exec.bind_ok (Exec.run_ofExcept _ _),Exec.bind_ok (Exec.run_get _)]
  rw [if_pos h.started,h.startPool,Exec.bind_ok (Exec.run_ofExcept _ _)]
  rfl

theorem reload_prepared (h : Prepares env m old config) (m' : MultiprocessRuntimeManager R P)
    (hm : m' = { m with runtime := (RuntimeManager.reload env.runtime m.runtime).2 }) :
    (∃ e e', (RuntimeManager.reload env.runtime m.runtime).1 = .error e ∧
      reload env m = (.error e',m')) ∨
    ∃ new, (RuntimeManager.reload env.runtime m.runtime).1 = .ok new ∧
      reload env m = ((letGo env m).map fun _ => new,swap env config new m') := by
  have hstate : m.runtime.getState = .ok old := by
    unfold RuntimeManager.getState
    rw [h.state]
  have hrenew := renew_run h
  rw [← hm] at hrenew
  unfold reload
  rw [Exec.bind_ok (Exec.run_get _),hstate,Exec.bind_ok (Exec.run_ofExcept _ _),h.loadConfig,
    Exec.bind_ok (Exec.run_ofExcept _ _)]
  rw [if_neg h.signature,h.buildResources,Exec.bind_ok (Exec.run_ofExcept _ _)]
  cases hreload : (RuntimeManager.reload env.runtime m.runtime).1 with
  | error e =>
    rw [hreload] at hrenew
    obtain ⟨e',hgiveUp⟩ := giveUp_run env e m'
    exact .inl ⟨e,e',rfl,Exec.bind_error ((Exec.handle_error hrenew).trans hgiveUp)⟩
  | ok new =>
    rw [hreload] at hrenew
    refine .inr ⟨new,rfl,?_⟩
    rw [Exec.bind_ok (Exec.handle_ok hrenew),Exec.bind_ok (Exec.run_modify _ _)]
    cases letGo env m with
    | error e => rfl
    | ok u => rfl

theorem renew_unstarted (m : MultiprocessRuntimeManager R P)
    (h : ¬ (env.createPool config = .ok () ∧ m.started = true ∧ env.startPool config = .ok ())) :
    ∃ e, renew env config m = (.error e,m) := by
  unfold renew
  cases hcreate : env.createPool config with
  | error e => exact ⟨e,Exec.bind_error (Exec.run_ofExcept _ _)⟩
  | ok u =>
    rw [Exec.bind_ok (Exec.run_ofExcept _ _),Exec.bind_ok (Exec.run_get _)]
    by_cases hstarted : m.started = true
    · rw [if_pos hstarted]
      cases hpool : env.startPool config with
      | error e => exact ⟨e,Exec.bind_error (Exec.run_ofExcept _ _)⟩
      | ok u' => exact absurd ⟨hcreate,hstarted,hpool⟩ h
    · rw [if_neg hstarted]
      exact ⟨_,rfl⟩

theorem reload_unprepared (h : ∀ old config, ¬ Prepares env m old config) :
    ∃ e, reload env m = (.error e,m) := by
  unfold reload
  rw [Exec.bind_ok (Exec.run_get _)]
  cases hstate : m.runtime.state with
  | none =>
    have hget : m.runtime.getState = .error (PyException.runtimeError "runtime 尚未加载") := by
      simp [RuntimeManager.getState,hstate]
    rw [hget]
    exact ⟨_,Exec.bind_error (Exec.run_ofExcept _ _)⟩
  | some old =>
    have hget : m.runtime.getState = .ok old := by simp [RuntimeManager.getState,hstate]
    rw [hget,Exec.bind_ok (Exec.run_ofExcept _ _)]
    cases hload : env.loadConfig with
    | error e => exact ⟨e,Exec.bind_error (Exec.run_ofExcept _ _)⟩
    | ok config =>
      rw [Exec.bind_ok (Exec.run_ofExcept _ _)]
      by_cases hsignature : m.servicesStarted ∧
          old.config.serviceSignature ≠ config.serviceSignature
      · rw [if_pos hsignature]
        exact ⟨_,rfl⟩
      · rw [if_neg hsignature]
        cases hresources : env.buildResources config with
        | error e => exact ⟨e,Exec.bind_error (Exec.run_ofExcept _ _)⟩
        | ok u =>
          rw [Exec.bind_ok (Exec.run_ofExcept _ _)]
          obtain ⟨e,hrenew⟩ := renew_unstarted m fun hpool =>
            h old config ⟨hstate,hload,hsignature,hresources,hpool.1,hpool.2.1,hpool.2.2⟩
          obtain ⟨e',hgiveUp⟩ := giveUp_run env e m
          exact ⟨e',Exec.bind_error ((Exec.handle_error hrenew).trans hgiveUp)⟩

/-- A reload that raises leaves everything as it was, just when it is safe. -/
theorem reload_unchanged_iff (env : MasterEnvironment R) (m : MultiprocessRuntimeManager R P) :
    (∀ e, (reload env m).1 = .error e → m.Unchanged (reload env m).2) ↔ ReloadSafe env m := by
  by_cases hprepared : ∃ old config, Prepares env m old config
  · obtain ⟨old,config,hprepares⟩ := hprepared
    have hsafe : ReloadSafe env m ↔ RuntimeManager.ReloadSafe env.runtime m.runtime ∧
        ((∃ new, (RuntimeManager.reload env.runtime m.runtime).1 = .ok new) →
          letGo env m = .ok ()) := by
      rw [RuntimeManager.reload_ok_iff]
      exact ⟨fun h => h old config hprepares,fun h _ _ _ => h⟩
    rw [hsafe,← RuntimeManager.reload_unchanged_iff]
    rcases reload_prepared hprepares _ rfl with ⟨e,e',hinner,hrun⟩ | ⟨new,hinner,hrun⟩
    · rw [hrun,hinner]
      constructor
      · intro h
        refine ⟨fun _ _ => (h e' rfl).runtime,fun hok => ?_⟩
        obtain ⟨new,hnew⟩ := hok
        cases hnew
      · intro h _ _
        exact ⟨h.1 e rfl,rfl,rfl,rfl,rfl⟩
    · rw [hrun,hinner]
      constructor
      · intro h
        refine ⟨fun e he => (by cases he),fun _ => ?_⟩
        cases hletGo : letGo env m with
        | ok u => rfl
        | error e =>
          have hgeneration := (h e (by rw [hletGo]; rfl)).generation
          simp [swap] at hgeneration
      · intro h e he
        rw [h.2 ⟨new,rfl⟩] at he
        cases he
  · have hnone : ∀ old config, ¬ Prepares env m old config :=
      fun old config h => hprepared ⟨old,config,h⟩
    obtain ⟨e,hrun⟩ := reload_unprepared hnone
    rw [hrun]
    exact ⟨fun _ old config h => absurd h (hnone old config),fun _ _ _ => Unchanged.refl m⟩

end MultiprocessRuntimeManager

/-- Either reload, when it raises, leaves the state, the pool, the front cache, the trees and
the query log of before, just when it is safe. -/
theorem reload_atomic_iff {R P : Type} (env : Environment R) (m : RuntimeManager R P)
    (masterEnv : MasterEnvironment R) (master : MultiprocessRuntimeManager R P) :
    ((∀ e, (RuntimeManager.reload env m).1 = .error e →
        m.Unchanged (RuntimeManager.reload env m).2) ↔ RuntimeManager.ReloadSafe env m) ∧
    ((∀ e, (MultiprocessRuntimeManager.reload masterEnv master).1 = .error e →
        master.Unchanged (MultiprocessRuntimeManager.reload masterEnv master).2) ↔
      MultiprocessRuntimeManager.ReloadSafe masterEnv master) :=
  ⟨RuntimeManager.reload_unchanged_iff env m,
    MultiprocessRuntimeManager.reload_unchanged_iff masterEnv master⟩

/-- A configuration with one listener. -/
def listening (port : Fin 65536) : AppConfig Unit where
  listeners := [⟨"udp",.udp,"127.0.0.1",port,true⟩]
  webui := ⟨false,false,"127.0.0.1",0⟩
  workers := some 1
  rest := ()

/-- The query-log plugin with room for one entry, and a listener on another port. -/
def movedListener : Environment Unit where
  loadConfig := .ok (listening 5353)
  configureLogging _ := .ok ()
  loadTagFiles _ := .ok ()
  plugins _ := [{ name := "query_log", module := "query_log_plugin" }]
  validate _ _ := .ok { maxEntries := 1 }
  assemble _ _ := .ok ()

/-- A running state with two entries in its query log. -/
def loggedRuntime : RuntimeManager Unit Nat where
  state := some ⟨listening 53,{ contextRegistry := [(queryLogStoreKey,.queryLogStore)] },[]⟩
  queryLogStore := some ⟨500,[⟨1,10⟩,⟨2,20⟩],3,by decide⟩
  servicesStarted := true

/-- The reload is refused for the port, after the store lost an entry. -/
theorem reload_shrinks_queryLog : ¬ ∀ e, (RuntimeManager.reload movedListener loggedRuntime).1 =
    .error e → loggedRuntime.Unchanged (RuntimeManager.reload movedListener loggedRuntime).2 := by
  intro h
  have hstore := (h _ rfl).store
  have hlength := congrArg (Option.map fun s => s.entries.length) hstore
  exact absurd hlength (by decide)

end SmartDns.Runtime
