import SmartDns.Plugin.Registry
set_option autoImplicit false

/-!
`RuntimeManager.reload`: everything new is built before the old state is given up, except
that the plugins are set up on the query-log store of the running state.
-/

namespace SmartDns.Runtime

structure RuntimeState (R : Type) where
  config : AppConfig R
  registry : PluginRegistry
  loadedPlugins : List Config.PluginConfig

/-- `RuntimeManager` without contexts of its own. `queryLogStore` is the store that the
registry of the state holds; a new state may hold the same. -/
structure RuntimeManager (R P : Type) where
  state : Option (RuntimeState R) := none
  queryLogStore : Option (QueryLogStore P) := none
  servicesStarted : Bool := false

/-- What a build of the state reads and calls: the file, the log level, the tag files, the
checks of the plugins' configurations, the resolvers and the pipeline. -/
structure Environment (R : Type) where
  loadConfig : Except PyException (AppConfig R)
  configureLogging : AppConfig R → Except PyException Unit
  loadTagFiles : AppConfig R → Except PyException Unit
  plugins : AppConfig R → List Config.PluginConfig
  validate : StaticPlugin → Config.PluginConfig → Except PyException PluginRuntimeConfig
  assemble : AppConfig R → PluginRegistry → Except PyException Unit

def isQueryLogPluginEnabled (plugins : List Config.PluginConfig) : Bool :=
  plugins.any fun p => p.enabled && p.module == "query_log_plugin"

namespace RuntimeManager

variable {R P : Type} (env : Environment R)

def getState (m : RuntimeManager R P) : Except PyException (RuntimeState R) :=
  match m.state with
  | some state => .ok state
  | none => .error (PyException.runtimeError "runtime 尚未加载")

def getQueryLogStore (m : RuntimeManager R P) : Option (QueryLogStore P) :=
  match m.state with
  | none => none
  | some state =>
    match state.registry.context queryLogStoreKey with
    | some .queryLogStore => m.queryLogStore
    | _ => none

/-- The running store, when `_build_shared_contexts` hands it to the new plugins. -/
def sharedStore (plugins : List Config.PluginConfig) (m : RuntimeManager R P) :
    Option (QueryLogStore P) :=
  if isQueryLogPluginEnabled plugins then m.getQueryLogStore else none

/-- The registry that `PluginManager.build` starts with. -/
def sharedContexts (shared : Option (QueryLogStore P)) : PluginRegistry where
  contextRegistry := [(domainsetContextKey,.value),(ipsetContextKey,.value)] ++
    (shared.map fun _ => (queryLogStoreKey,.queryLogStore)).toList

/-- The call of `PluginManager.build`. A shared store is one object with the running one:
what the set-ups do to it is done, also when one of them raises. -/
def buildPlugins (config : AppConfig R) : Exec PyException (RuntimeManager R P)
    (List Config.PluginConfig × BuildState P) := fun m =>
  let shared := m.sharedStore (env.plugins config)
  let built := PluginManager.build env.validate (env.plugins config) ⟨sharedContexts shared,shared⟩
  (built.1.map fun loaded => (loaded,built.2),
    { m with queryLogStore := if shared.isSome then built.2.store else m.queryLogStore })

/-- `_build_state`: a new state and the store its registry holds. -/
def buildState : Exec PyException (RuntimeManager R P)
    (RuntimeState R × Option (QueryLogStore P)) := do
  let config ← Exec.ofExcept env.loadConfig
  Exec.ofExcept (env.configureLogging config)
  Exec.ofExcept (env.loadTagFiles config)
  let (loadedPlugins,built) ← buildPlugins env config
  Exec.ofExcept (env.assemble config built.registry)
  pure (⟨config,built.registry,loadedPlugins⟩,built.store)

/-- The addresses may not change once services were started. -/
def checkSignature (config : AppConfig R) (m : RuntimeManager R P) : Except PyException Unit :=
  match m.state with
  | some old =>
    if m.servicesStarted ∧ old.config.serviceSignature ≠ config.serviceSignature then
      .error (PyException.runtimeError "listener 或 webui 地址变更需要重启进程")
    else .ok ()
  | none => .ok ()

def reload : Exec PyException (RuntimeManager R P) (RuntimeState R) := do
  let (new,store) ← buildState env
  let m ← Exec.get
  Exec.ofExcept (m.checkSignature new.config)
  Exec.modify fun m => { m with state := some new, queryLogStore := store }
  pure new

def load : Exec PyException (RuntimeManager R P) (RuntimeState R) := do
  let (new,store) ← buildState env
  Exec.modify fun m => { m with state := some new, queryLogStore := store }
  pure new

/-! ### When a reload that raises changes nothing -/

/-- The state in use, and its query log, are the ones of before. -/
structure Unchanged (m m' : RuntimeManager R P) : Prop where
  state : m'.state = m.state
  store : m'.getQueryLogStore = m.getQueryLogStore

/-- The build comes as far as the plugins. -/
structure Reaches (config : AppConfig R) : Prop where
  loadConfig : env.loadConfig = .ok config
  configureLogging : env.configureLogging config = .ok ()
  loadTagFiles : env.loadTagFiles config = .ok ()

def setUps (m : RuntimeManager R P) (config : AppConfig R) :
    List Nat × Except PyException PluginRegistry :=
  PluginManager.setUpAll env.validate (sharedContexts (m.sharedStore (env.plugins config)))
    (env.plugins config)

/-- All plugins are set up, and nothing after them raises. -/
def Completes (m : RuntimeManager R P) (config : AppConfig R) : Prop :=
  ∃ registry, (setUps env m config).2 = .ok registry ∧ env.assemble config registry = .ok () ∧
    m.checkSignature config = .ok ()

/-- A reload that has come to the plugins completes, or the sizes they give to the running
store, up to the first that raises, leave it as it is. -/
def ReloadSafe (m : RuntimeManager R P) : Prop :=
  ∀ config store, Reaches env config → m.sharedStore (env.plugins config) = some store →
    Completes env m config ∨ store.KeptBy (setUps env m config).1

/-- The state of a reload that raises after it came to the plugins. -/
def afterSetUps (m : RuntimeManager R P) (config : AppConfig R) : RuntimeManager R P :=
  match m.sharedStore (env.plugins config) with
  | some store =>
    { m with queryLogStore := some ((setUps env m config).1.foldl QueryLogStore.resize store) }
  | none => m

variable {env} {m : RuntimeManager R P} {config : AppConfig R} {store : QueryLogStore P}

theorem context_sharedContexts :
    (sharedContexts (some store)).context queryLogStoreKey = some .queryLogStore := rfl

theorem buildPlugins_run (env : Environment R) (m : RuntimeManager R P) (config : AppConfig R) :
    ∃ built, buildPlugins env config m =
      ((setUps env m config).2.map (fun _ =>
        ((env.plugins config).filter Config.PluginConfig.enabled,built)),
        afterSetUps env m config) ∧
      ∀ registry, (setUps env m config).2 = .ok registry → built.registry = registry := by
  obtain ⟨registry,store',hbuild,hregistry,hstore⟩ := PluginManager.build_run env.validate
    (sharedContexts (m.sharedStore (env.plugins config))) (m.sharedStore (env.plugins config))
    (env.plugins config)
  refine ⟨⟨registry,store'⟩,?_,hregistry⟩
  have hresult : (buildPlugins env config m).1 = (setUps env m config).2.map (fun _ =>
      ((env.plugins config).filter Config.PluginConfig.enabled,⟨registry,store'⟩)) := by
    simp only [buildPlugins,setUps,hbuild]
    cases (PluginManager.setUpAll env.validate _ _).2 with
    | error e => rfl
    | ok r => rfl
  have hstate : (buildPlugins env config m).2 = afterSetUps env m config := by
    simp only [buildPlugins,hbuild,afterSetUps,setUps]
    cases hshared : m.sharedStore (env.plugins config) with
    | none => rfl
    | some store =>
      rw [hshared] at hstore
      simp [hstore context_sharedContexts]
  exact Prod.ext hresult hstate

theorem afterSetUps_eq (env : Environment R) (m : RuntimeManager R P) (config : AppConfig R) :
    ∃ store, afterSetUps env m config = { m with queryLogStore := store } := by
  unfold afterSetUps
  cases m.sharedStore (env.plugins config) with
  | some store => exact ⟨_,rfl⟩
  | none => exact ⟨m.queryLogStore,rfl⟩

theorem checkSignature_afterSetUps {config' : AppConfig R} :
    (afterSetUps env m config).checkSignature config' = m.checkSignature config' := by
  obtain ⟨store,hstore⟩ := afterSetUps_eq env m config
  rw [hstore]
  rfl

/-- All plugins are set up, and the resolvers and the pipeline can be built. -/
def Builds (env : Environment R) (m : RuntimeManager R P) (config : AppConfig R) : Prop :=
  ∃ registry, (setUps env m config).2 = .ok registry ∧ env.assemble config registry = .ok ()

theorem completes_iff :
    Completes env m config ↔ Builds env m config ∧ m.checkSignature config = .ok () := by
  constructor
  · intro h
    obtain ⟨registry,hsetups,hassemble,hsignature⟩ := h
    exact ⟨⟨registry,hsetups,hassemble⟩,hsignature⟩
  · intro h
    obtain ⟨⟨registry,hsetups,hassemble⟩,hsignature⟩ := h
    exact ⟨registry,hsetups,hassemble,hsignature⟩

theorem buildState_reached (h : Reaches env config) (m : RuntimeManager R P) :
    (Builds env m config ∧ ∃ new store, new.config = config ∧
      buildState env m = (.ok (new,store),afterSetUps env m config)) ∨
    (¬ Builds env m config ∧ ∃ e, buildState env m = (.error e,afterSetUps env m config)) := by
  obtain ⟨built,hplugins,hregistry⟩ := buildPlugins_run env m config
  unfold buildState
  rw [h.loadConfig,Exec.bind_ok (Exec.run_ofExcept _ _)]
  simp only
  rw [h.configureLogging,Exec.bind_ok (Exec.run_ofExcept _ _)]
  rw [h.loadTagFiles,Exec.bind_ok (Exec.run_ofExcept _ _)]
  cases hsetups : (setUps env m config).2 with
  | error e =>
    rw [hsetups] at hplugins
    refine .inr ⟨?_,e,Exec.bind_error hplugins⟩
    intro hbuilds
    obtain ⟨registry,hok,_⟩ := hbuilds
    rw [hsetups] at hok
    cases hok
  | ok registry =>
    rw [hsetups] at hplugins
    rw [Exec.bind_ok hplugins]
    simp only [hregistry registry hsetups]
    cases hassemble : env.assemble config registry with
    | error e =>
      refine .inr ⟨?_,e,Exec.bind_error (Exec.run_ofExcept _ _)⟩
      intro hbuilds
      obtain ⟨registry',hok,hassemble'⟩ := hbuilds
      cases hsetups.symm.trans hok
      rw [hassemble] at hassemble'
      cases hassemble'
    | ok u =>
      rw [Exec.bind_ok (Exec.run_ofExcept _ _)]
      exact .inl ⟨⟨registry,hsetups,hassemble⟩,_,_,rfl,rfl⟩

theorem buildState_unreached (h : ∀ config, ¬ Reaches env config) (m : RuntimeManager R P) :
    ∃ e, buildState env m = (.error e,m) := by
  unfold buildState
  cases hload : env.loadConfig with
  | error e => exact ⟨e,Exec.bind_error (Exec.run_ofExcept _ _)⟩
  | ok config =>
    rw [Exec.bind_ok (Exec.run_ofExcept _ _)]
    simp only
    cases hlogging : env.configureLogging config with
    | error e => exact ⟨e,Exec.bind_error (Exec.run_ofExcept _ _)⟩
    | ok u =>
      rw [Exec.bind_ok (Exec.run_ofExcept _ _)]
      cases hfiles : env.loadTagFiles config with
      | error e => exact ⟨e,Exec.bind_error (Exec.run_ofExcept _ _)⟩
      | ok u' => exact absurd ⟨hload,hlogging,hfiles⟩ (h config)

theorem reload_reached (h : Reaches env config) (m : RuntimeManager R P) :
    (Completes env m config ∧ ∃ new m', new.config = config ∧ m'.state = some new ∧
      reload env m = (.ok new,m')) ∨
    (¬ Completes env m config ∧ ∃ e, reload env m = (.error e,afterSetUps env m config)) := by
  rw [completes_iff]
  unfold reload
  rcases buildState_reached h m with ⟨hbuilds,new,store,rfl,hrun⟩ | ⟨hnot,e,hrun⟩
  · rw [Exec.bind_ok hrun]
    simp only
    rw [Exec.bind_ok (Exec.run_get _),checkSignature_afterSetUps]
    cases hsignature : m.checkSignature new.config with
    | error e =>
      exact .inr ⟨fun h => by simp at h,e,Exec.bind_error (Exec.run_ofExcept _ _)⟩
    | ok u =>
      rw [Exec.bind_ok (Exec.run_ofExcept _ _)]
      exact .inl ⟨⟨hbuilds,rfl⟩,new,_,rfl,rfl,rfl⟩
  · exact .inr ⟨fun h => hnot h.1,e,Exec.bind_error hrun⟩

theorem Reaches.unique {config' : AppConfig R} (h : Reaches env config)
    (h' : Reaches env config') : config = config' :=
  Except.ok.inj (h.loadConfig.symm.trans h'.loadConfig)

theorem afterSetUps_state : (afterSetUps env m config).state = m.state := by
  obtain ⟨store,hstore⟩ := afterSetUps_eq env m config
  rw [hstore]

/-- A reload puts the state of the file it has read in place, or leaves the state. -/
theorem reload_cases (env : Environment R) (m : RuntimeManager R P) :
    (∃ new m', Reaches env new.config ∧ Completes env m new.config ∧ m'.state = some new ∧
      reload env m = (.ok new,m')) ∨
    ((∀ config, Reaches env config → ¬ Completes env m config) ∧
      ∃ e m', m'.state = m.state ∧ reload env m = (.error e,m')) := by
  by_cases hreached : ∃ config, Reaches env config
  · obtain ⟨config,hreaches⟩ := hreached
    rcases reload_reached hreaches m with ⟨hcompletes,new,m',rfl,hstate,hrun⟩ | ⟨hnot,e,hrun⟩
    · exact .inl ⟨new,m',hreaches,hcompletes,hstate,hrun⟩
    · refine .inr ⟨fun config' hreaches' => ?_,e,_,afterSetUps_state,hrun⟩
      rw [← hreaches.unique hreaches']
      exact hnot
  · obtain ⟨e,hbuild⟩ := buildState_unreached (not_exists.mp hreached) m
    exact .inr ⟨fun config hreaches => absurd ⟨config,hreaches⟩ hreached,e,m,rfl,
      Exec.bind_error hbuild⟩

theorem load_cases (env : Environment R) (m : RuntimeManager R P) :
    (∃ new m', m'.state = some new ∧ load env m = (.ok new,m')) ∨
      ∃ e m', m'.state = m.state ∧ load env m = (.error e,m') := by
  unfold load
  by_cases hreached : ∃ config, Reaches env config
  · obtain ⟨config,hreaches⟩ := hreached
    rcases buildState_reached hreaches m with ⟨_,new,store,_,hrun⟩ | ⟨_,e,hrun⟩
    · exact .inl ⟨new,_,rfl,Exec.bind_ok hrun⟩
    · exact .inr ⟨e,_,afterSetUps_state,Exec.bind_error hrun⟩
  · obtain ⟨e,hrun⟩ := buildState_unreached (not_exists.mp hreached) m
    exact .inr ⟨e,m,rfl,Exec.bind_error hrun⟩

theorem reload_ok_iff : (∃ new, (reload env m).1 = .ok new) ↔
    ∃ config, Reaches env config ∧ Completes env m config := by
  constructor
  · intro h
    obtain ⟨new,hnew⟩ := h
    by_cases hreached : ∃ config, Reaches env config
    · obtain ⟨config,hreaches⟩ := hreached
      rcases reload_reached hreaches m with ⟨hcompletes,_⟩ | ⟨_,e,hrun⟩
      · exact ⟨config,hreaches,hcompletes⟩
      · rw [hrun] at hnew
        cases hnew
    · obtain ⟨e,hbuild⟩ := buildState_unreached (not_exists.mp hreached) m
      have hrun : reload env m = (.error e,m) := Exec.bind_error hbuild
      rw [hrun] at hnew
      cases hnew
  · intro h
    obtain ⟨config,hreaches,hcompletes⟩ := h
    obtain ⟨_,new,_,_,_,hrun⟩ := (reload_reached hreaches m).resolve_right fun h => h.1 hcompletes
    exact ⟨new,congrArg Prod.fst hrun⟩

theorem sharedStore_some {plugins : List Config.PluginConfig}
    (h : m.sharedStore plugins = some store) : m.getQueryLogStore = some store := by
  unfold sharedStore at h
  split at h
  · exact h
  · cases h

theorem getQueryLogStore_set (h : m.getQueryLogStore = some store) (store' : QueryLogStore P) :
    getQueryLogStore { m with queryLogStore := some store' } = some store' := by
  unfold getQueryLogStore at h ⊢
  cases hstate : m.state with
  | none => simp [hstate] at h
  | some state =>
    simp only [hstate] at h ⊢
    split at h
    · simp
    · cases h

theorem unchanged_afterSetUps : m.Unchanged (afterSetUps env m config) ↔
    ∀ store, m.sharedStore (env.plugins config) = some store →
      store.KeptBy (setUps env m config).1 := by
  unfold afterSetUps
  cases hshared : m.sharedStore (env.plugins config) with
  | none => exact ⟨fun _ _ h => (by cases h),fun _ => ⟨rfl,rfl⟩⟩
  | some store =>
    have hrunning := sharedStore_some hshared
    constructor
    · intro h store' heq
      cases heq
      have hstore := h.store
      rw [getQueryLogStore_set hrunning,hrunning] at hstore
      exact QueryLogStore.foldl_resize_eq_iff.mp (Option.some.inj hstore)
    · intro h
      refine ⟨rfl,?_⟩
      rw [getQueryLogStore_set hrunning,hrunning]
      exact congrArg some (QueryLogStore.foldl_resize_eq_iff.mpr (h store rfl))

/-- A reload that raises leaves everything as it was, just when it is safe. -/
theorem reload_unchanged_iff (env : Environment R) (m : RuntimeManager R P) :
    (∀ e, (reload env m).1 = .error e → m.Unchanged (reload env m).2) ↔ ReloadSafe env m := by
  by_cases hreached : ∃ config, Reaches env config
  · obtain ⟨config,hreaches⟩ := hreached
    have hsafe : ReloadSafe env m ↔ ∀ store, m.sharedStore (env.plugins config) = some store →
        Completes env m config ∨ store.KeptBy (setUps env m config).1 := by
      constructor
      · exact fun h store => h config store hreaches
      · intro h config' store hreaches'
        obtain rfl := hreaches.unique hreaches'
        exact h store
    rw [hsafe]
    rcases reload_reached hreaches m with ⟨hcompletes,new,_,_,_,hrun⟩ | ⟨hnot,e,hrun⟩
    · constructor
      · exact fun _ _ _ => .inl hcompletes
      · intro _ e he
        rw [hrun] at he
        cases he
    · have hraises : (∀ e, (reload env m).1 = .error e → m.Unchanged (reload env m).2) ↔
          m.Unchanged (afterSetUps env m config) := by
        rw [hrun]
        exact ⟨fun h => h e rfl,fun h _ _ => h⟩
      rw [hraises,unchanged_afterSetUps]
      simp only [hnot,false_or]
  · have hnone := not_exists.mp hreached
    obtain ⟨e,hbuild⟩ := buildState_unreached hnone m
    have hrun : reload env m = (.error e,m) := Exec.bind_error hbuild
    constructor
    · exact fun _ config _ hreaches => absurd hreaches (hnone config)
    · intro _ e' _
      rw [hrun]
      exact ⟨rfl,rfl⟩

end RuntimeManager

end SmartDns.Runtime
