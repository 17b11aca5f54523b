import SmartDns.Config.Models
import SmartDns.Lib.Exec
import SmartDns.Lib.Keyed
import SmartDns.Dns.Error
import SmartDns.QueryLog.Store
set_option autoImplicit false

/-!
`PluginManager.build`: the built-in plugins are set up one after another on one registry,
and the first that raises ends it. The only object a set-up changes that it has not made
itself is a query-log store it finds in the registry.
-/

namespace SmartDns

inductive ContextRegistration where
  | queryLogStore | value | factory
  deriving DecidableEq, Repr

abbrev Bucket (α : Type) := List (String × α)

/-- `PluginRegistry._register`. -/
def Bucket.register {α : Type} (bucket : Bucket α) (name : String) (value : α) :
    Except PyException (Bucket α) :=
  match Keyed.lookup Prod.fst name bucket with
  | some _ => .error (PyException.valueError ("重复注册对象: " ++ name))
  | none => .ok (bucket ++ [(name,value)])

theorem Bucket.lookup_register {α : Type} {bucket bucket' : Bucket α} {name name' : String}
    {value : α} {entry : String × α} (h : bucket.register name value = .ok bucket')
    (hentry : Keyed.lookup Prod.fst name' bucket = some entry) :
    Keyed.lookup Prod.fst name' bucket' = some entry := by
  unfold register at h
  split at h
  · cases h
  · cases h
    simp only [Keyed.lookup] at hentry
    simp [Keyed.lookup,List.find?_append,hentry]

/-- `PluginRegistry`; nothing reads the values of resolvers and answer builders here. -/
structure PluginRegistry where
  contextRegistry : Bucket ContextRegistration := []
  resolverRegistry : Bucket Unit := []
  answerRegistry : Bucket Unit := []

namespace PluginRegistry

def context (r : PluginRegistry) (name : String) : Option ContextRegistration :=
  (Keyed.lookup Prod.fst name r.contextRegistry).map Prod.snd

def registerContext (name : String) (r : PluginRegistry) : Except PyException PluginRegistry := do
  let bucket ← r.contextRegistry.register name .value
  pure { r with contextRegistry := bucket }

def registerContextFactory (name : String) (r : PluginRegistry) :
    Except PyException PluginRegistry := do
  let bucket ← r.contextRegistry.register name .factory
  pure { r with contextRegistry := bucket }

def registerResolver (name : String) (r : PluginRegistry) : Except PyException PluginRegistry := do
  let bucket ← r.resolverRegistry.register name ()
  pure { r with resolverRegistry := bucket }

def registerAnswer (name : String) (r : PluginRegistry) : Except PyException PluginRegistry := do
  let bucket ← r.answerRegistry.register name ()
  pure { r with answerRegistry := bucket }

/-- Every context of one registry stands in the other. -/
def Grows (r r' : PluginRegistry) : Prop :=
  ∀ name c, r.context name = some c → r'.context name = some c

theorem Grows.refl (r : PluginRegistry) : r.Grows r := fun _ _ h => h

theorem Grows.trans {r r' r'' : PluginRegistry} (h : r.Grows r') (h' : r'.Grows r'') :
    r.Grows r'' := fun name c hc => h' name c (h name c hc)

section
variable {r r' : PluginRegistry} {name : String}

theorem grows_of_register {c : ContextRegistration} {bucket : Bucket ContextRegistration}
    (h : r.contextRegistry.register name c = .ok bucket) :
    r.Grows { r with contextRegistry := bucket } := by
  intro other c hc
  obtain ⟨entry,hentry,rfl⟩ := Option.map_eq_some_iff.mp hc
  exact Option.map_eq_some_iff.mpr ⟨entry,Bucket.lookup_register h hentry,rfl⟩

theorem registerContext_grows (h : r.registerContext name = .ok r') : r.Grows r' := by
  obtain ⟨bucket,hbucket,hr⟩ := Exec.except_bind_eq_ok.mp h
  cases hr
  exact grows_of_register hbucket

theorem registerContextFactory_grows (h : r.registerContextFactory name = .ok r') :
    r.Grows r' := by
  obtain ⟨bucket,hbucket,hr⟩ := Exec.except_bind_eq_ok.mp h
  cases hr
  exact grows_of_register hbucket

theorem registerResolver_grows (h : r.registerResolver name = .ok r') : r.Grows r' := by
  obtain ⟨bucket,hbucket,hr⟩ := Exec.except_bind_eq_ok.mp h
  cases hr
  exact Grows.refl r

theorem registerAnswer_grows (h : r.registerAnswer name = .ok r') : r.Grows r' := by
  obtain ⟨bucket,hbucket,hr⟩ := Exec.except_bind_eq_ok.mp h
  cases hr
  exact Grows.refl r

end

end PluginRegistry

def domainsetContextKey : String := "core.domainset"
def ipsetContextKey : String := "core.ipset"
def queryLogStoreKey : String := "query_log.store"
def cacheServiceKey : String := "cache.service"
def cacheContextKey : String := "cache.context"
def speedtestServiceKey : String := "speedtest.service"
def speedtestContextKey : String := "speedtest.context"

inductive StaticPlugin where
  | block | cache | cloudflareEch | https | ipFilter | ipReplace | queryLog | redirect | sample
  | speedtest | tag
  deriving DecidableEq, Repr

def StaticPlugin.moduleName : StaticPlugin → String
  | .block => "block_plugin"
  | .cache => "cache_plugin"
  | .cloudflareEch => "cloudflare_ech_plugin"
  | .https => "https_plugin"
  | .ipFilter => "ip_filter_plugin"
  | .ipReplace => "ip_replace_plugin"
  | .queryLog => "query_log_plugin"
  | .redirect => "redirect_plugin"
  | .sample => "sample_plugin"
  | .speedtest => "speedtest_plugin"
  | .tag => "tag_plugin"

def staticPlugins : List StaticPlugin :=
  [.block,.cache,.cloudflareEch,.https,.ipFilter,.ipReplace,.queryLog,.redirect,.sample,.speedtest,
    .tag]

def loadStaticPluginModule (moduleName : String) : Except PyException StaticPlugin :=
  match staticPlugins.find? (fun p => p.moduleName = moduleName) with
  | some p => .ok p
  | none => .error (PyException.fileNotFoundError ("未找到插件模块: " ++ moduleName))

/-- Of the checked configuration of a plugin what the set-ups read. -/
structure PluginRuntimeConfig where
  matchTags : List String := []
  whitelistTags : List String := []
  blacklistTags : List String := []
  answerName : String := "sample.static_a"
  maxEntries : Nat := 500
  maxEntries_pos : 1 ≤ maxEntries := by decide

/-- What the plugins' `setup` puts into the registry; `QueryLogPlugin`'s is for a registry
without a store. -/
def StaticPlugin.register (config : PluginRuntimeConfig) (r : PluginRegistry) :
    StaticPlugin → Except PyException PluginRegistry
  | .cache => do
    let r' ← r.registerContext cacheServiceKey
    r'.registerContextFactory cacheContextKey
  | .cloudflareEch =>
    if config.matchTags = [] then
      .error (PyException.valueError "cloudflare_ech_plugin 至少需要一个 match_tags")
    else .ok r
  | .ipFilter =>
    if config.whitelistTags = [] ∧ config.blacklistTags = [] then
      .error (PyException.valueError "ip_filter_plugin 至少需要 whitelist_tags 或 blacklist_tags")
    else .ok r
  | .queryLog => do
    let bucket ← r.contextRegistry.register queryLogStoreKey .queryLogStore
    pure { r with contextRegistry := bucket }
  | .sample => do
    let r' ← r.registerContext "sample.loaded"
    let r'' ← r'.registerResolver "sample.meta"
    r''.registerAnswer config.answerName
  | .speedtest => do
    let r' ← r.registerContext speedtestServiceKey
    r'.registerContextFactory speedtestContextKey
  | .block | .https | .ipReplace | .redirect | .tag => .ok r

/-- The registry of a build, and the store registered under `query_log.store`. -/
structure BuildState (P : Type) where
  registry : PluginRegistry
  store : Option (QueryLogStore P)

section
variable {P : Type}

/-- The test at the start of `QueryLogPlugin.setup`. -/
abbrev StaticPlugin.FindsStore (plugin : StaticPlugin) (r : PluginRegistry) : Prop :=
  plugin = .queryLog ∧ r.context queryLogStoreKey = some .queryLogStore

def StaticPlugin.setup (plugin : StaticPlugin) (config : PluginRuntimeConfig) :
    Exec PyException (BuildState P) Unit := do
  let s ← Exec.get
  if plugin.FindsStore s.registry then
    Exec.modify fun s => { s with store := s.store.map fun store => store.resize config.maxEntries }
  else do
    let registry ← Exec.ofExcept (plugin.register config s.registry)
    Exec.modify fun s =>
      ⟨registry,if plugin = .queryLog then some (QueryLogStore.new config.maxEntries) else s.store⟩

namespace PluginManager

variable (validate : StaticPlugin → Config.PluginConfig → Except PyException PluginRuntimeConfig)

/-- `PluginManager.build` on a registry that holds the shared contexts. `validate` stands for
pydantic's check of a plugin's configuration and variables. -/
def build : List Config.PluginConfig → Exec PyException (BuildState P) (List Config.PluginConfig)
  | [] => pure []
  | p :: ps =>
    if p.enabled then do
      let plugin ← Exec.ofExcept (loadStaticPluginModule p.module)
      let config ← Exec.ofExcept (validate plugin p)
      plugin.setup config
      let loaded ← build ps
      pure (p :: loaded)
    else build ps

end PluginManager

/-! ### What a build leaves of the store it was given -/

namespace StaticPlugin

variable {plugin : StaticPlugin} {config : PluginRuntimeConfig} {r r' : PluginRegistry}

/-- The size a set-up gives to a store it finds in the registry. -/
def sizeAsked (plugin : StaticPlugin) (config : PluginRuntimeConfig) (r : PluginRegistry) :
    List Nat :=
  if plugin.FindsStore r then [config.maxEntries] else []

def registered (plugin : StaticPlugin) (config : PluginRuntimeConfig) (r : PluginRegistry) :
    Except PyException PluginRegistry :=
  if plugin.FindsStore r then .ok r else plugin.register config r

theorem setup_error {e : PyException} {store : Option (QueryLogStore P)}
    (h : plugin.registered config r = .error e) :
    plugin.setup config ⟨r,store⟩ = (.error e,⟨r,store⟩) := by
  unfold registered at h
  split at h
  · cases h
  · rename_i hfinds
    unfold setup
    rw [Exec.bind_ok (Exec.run_get _),if_neg hfinds,h]
    exact Exec.bind_error (Exec.run_ofExcept _ _)

theorem setup_ok (store : Option (QueryLogStore P)) (h : plugin.registered config r = .ok r') :
    ∃ store', plugin.setup config ⟨r,store⟩ = (.ok (),⟨r',store'⟩) ∧
      (r.context queryLogStoreKey = some .queryLogStore →
        store' = store.map fun s => (plugin.sizeAsked config r).foldl QueryLogStore.resize s) := by
  unfold registered at h
  unfold setup
  rw [Exec.bind_ok (Exec.run_get _)]
  split at h
  · rename_i hfinds
    cases h
    rw [if_pos hfinds]
    exact ⟨_,rfl,fun _ => by simp [sizeAsked,if_pos hfinds]⟩
  · rename_i hfinds
    rw [if_neg hfinds,h,Exec.bind_ok (Exec.run_ofExcept _ _)]
    refine ⟨_,rfl,fun hkey => ?_⟩
    have hplugin : plugin ≠ .queryLog := fun heq => hfinds ⟨heq,hkey⟩
    simp [hplugin,sizeAsked,if_neg hfinds]

/-- Nothing that is registered is ever replaced. -/
theorem registered_grows (h : plugin.registered config r = .ok r') : r.Grows r' := by
  unfold registered at h
  split at h
  · cases h
    exact PluginRegistry.Grows.refl r
  · unfold register at h
    cases plugin with
    | cache =>
      obtain ⟨mid,hservice,hcontext⟩ := Exec.except_bind_eq_ok.mp h
      exact (PluginRegistry.registerContext_grows hservice).trans
        (PluginRegistry.registerContextFactory_grows hcontext)
    | speedtest =>
      obtain ⟨mid,hservice,hcontext⟩ := Exec.except_bind_eq_ok.mp h
      exact (PluginRegistry.registerContext_grows hservice).trans
        (PluginRegistry.registerContextFactory_grows hcontext)
    | sample =>
      obtain ⟨first,hcontext,h'⟩ := Exec.except_bind_eq_ok.mp h
      obtain ⟨second,hresolver,hanswer⟩ := Exec.except_bind_eq_ok.mp h'
      exact ((PluginRegistry.registerContext_grows hcontext).trans
        (PluginRegistry.registerResolver_grows hresolver)).trans
          (PluginRegistry.registerAnswer_grows hanswer)
    | queryLog =>
      obtain ⟨bucket,hbucket,hr⟩ := Exec.except_bind_eq_ok.mp h
      cases hr
      exact PluginRegistry.grows_of_register hbucket
    | cloudflareEch =>
      simp only at h
      split at h <;> cases h
      exact PluginRegistry.Grows.refl r
    | ipFilter =>
      simp only at h
      split at h <;> cases h
      exact PluginRegistry.Grows.refl r
    | _ =>
      cases h
      exact PluginRegistry.Grows.refl r

end StaticPlugin

namespace PluginManager

variable (validate : StaticPlugin → Config.PluginConfig → Except PyException PluginRuntimeConfig)

/-- The sizes a build gives to a store it was started with, up to its end or to the plugin
that raises, and the registry it ends with. -/
def setUpAll (r : PluginRegistry) :
    List Config.PluginConfig → List Nat × Except PyException PluginRegistry
  | [] => ([],.ok r)
  | p :: ps =>
    if p.enabled then
      match loadStaticPluginModule p.module with
      | .error e => ([],.error e)
      | .ok plugin =>
        match validate plugin p with
        | .error e => ([],.error e)
        | .ok config =>
          match plugin.registered config r with
          | .error e => ([],.error e)
          | .ok r' =>
            let rest := setUpAll r' ps
            (plugin.sizeAsked config r ++ rest.1,rest.2)
    else setUpAll r ps

/-- What a build comes to, and what it does to the store it was started with. -/
theorem build_run (r : PluginRegistry) (store : Option (QueryLogStore P))
    (ps : List Config.PluginConfig) : ∃ registry store',
    build validate ps ⟨r,store⟩ = ((setUpAll validate r ps).2.map fun _ =>
      ps.filter Config.PluginConfig.enabled,⟨registry,store'⟩) ∧
    (∀ r', (setUpAll validate r ps).2 = .ok r' → registry = r') ∧
    (r.context queryLogStoreKey = some .queryLogStore →
      store' = store.map fun s => (setUpAll validate r ps).1.foldl QueryLogStore.resize s) := by
  induction ps generalizing r store with
  | nil => exact ⟨r,store,rfl,fun r' h => Except.ok.inj h,fun _ => by simp [setUpAll]⟩
  | cons p ps ih =>
    cases henabled : p.enabled with
    | false => simpa [setUpAll,build,henabled] using ih r store
    | true =>
      simp only [setUpAll,build,henabled,if_true,List.filter_cons]
      cases hload : loadStaticPluginModule p.module with
      | error e => exact ⟨r,store,Exec.bind_error (Exec.run_ofExcept _ _),by simp,by simp⟩
      | ok plugin =>
        rw [Exec.bind_ok (Exec.run_ofExcept _ _)]
        simp only
        cases hvalid : validate plugin p with
        | error e => exact ⟨r,store,Exec.bind_error (Exec.run_ofExcept _ _),by simp,by simp⟩
        | ok config =>
          rw [Exec.bind_ok (Exec.run_ofExcept _ _)]
          simp only
          cases hregistered : plugin.registered config r with
          | error e =>
            exact ⟨r,store,Exec.bind_error (StaticPlugin.setup_error hregistered),by simp,by simp⟩
          | ok r' =>
            obtain ⟨store',hsetup,hstore'⟩ := StaticPlugin.setup_ok store hregistered
            obtain ⟨registry,store'',hbuild,hregistry,hstore''⟩ := ih r' store'
            rw [Exec.bind_ok hsetup]
            refine ⟨registry,store'',?_,hregistry,fun hkey => ?_⟩
            · cases hrest : (setUpAll validate r' ps).2 with
              | error e =>
                rw [hrest] at hbuild
                exact Exec.bind_error hbuild
              | ok r'' =>
                rw [hrest] at hbuild
                exact Exec.bind_ok hbuild
            · have hkey' := StaticPlugin.registered_grows hregistered _ _ hkey
              rw [hstore'' hkey',hstore' hkey,Option.map_map]
              simp [Function.comp_def,List.foldl_append]

end PluginManager

end

end SmartDns
