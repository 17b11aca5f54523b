import SmartDns.Config.Settings
import SmartDns.Lib.Fresh
import SmartDns.Lib.Numeral
import SmartDns.Plugin.Models
set_option autoImplicit false

/-!
`plugin_api/catalog.py`: the plugins of a configuration are checked against the catalogue, and
each plugin of the catalogue that has no entry gets a disabled one. The new entries take names
that no entry has.
-/

namespace SmartDns.PluginCatalog

open ConfigFile (Libraries PluginConfig)
open PluginModels (PluginModel)

structure PluginCatalogEntry where
  module : String
  configModel : PluginModel
  variablesModel : PluginModel

variable (lib : Libraries)

def entryOf (plugin : StaticPlugin) : PluginCatalogEntry where
  module := plugin.moduleName
  configModel := PluginModels.configModel lib plugin
  variablesModel := PluginModels.variablesModel lib plugin

def discoverAvailablePlugins : List PluginCatalogEntry := staticPlugins.map (entryOf lib)

def suffixed (candidate : String) (suffix : ℕ) : String := candidate ++ "-" ++ toString suffix

/-- `_build_unique_name`. -/
def buildUniqueName (module : String) (existingNames : List String) : String :=
  if module ∉ existingNames then module
  else suffixed module (Fresh.search existingNames (suffixed module) existingNames.length 2)

def PluginCatalogEntry.buildDefaultPluginConfig (entry : PluginCatalogEntry)
    (existingNames : List String) : PluginConfig where
  name := buildUniqueName entry.module existingNames
  module := entry.module
  enabled := false
  config := entry.configModel.dump
  vars := entry.variablesModel.dump

def validatePluginConfig (plugin : PluginConfig) : Except PyException Unit :=
  match Keyed.lookup PluginCatalogEntry.module plugin.module (discoverAvailablePlugins lib) with
  | none => .error (.valueError ("未知插件模块: " ++ plugin.module))
  | some entry => do
    entry.configModel.validate plugin.config
    entry.variablesModel.validate plugin.vars

def validatePluginConfigs (plugins : List PluginConfig) : Except PyException Unit :=
  plugins.forM (validatePluginConfig lib)

/-- The loop of `materialize_plugin_configs`, which gives the entries it adds. -/
def materializeFrom (configuredModules usedNames : List String) :
    List PluginCatalogEntry → List PluginConfig
  | [] => []
  | entry :: entries =>
    if entry.module ∈ configuredModules then materializeFrom configuredModules usedNames entries
    else
      let plugin := entry.buildDefaultPluginConfig usedNames
      plugin ::
        materializeFrom (entry.module :: configuredModules) (plugin.name :: usedNames) entries

def materializePluginConfigs (plugins : List PluginConfig) : List PluginConfig :=
  plugins ++ materializeFrom (plugins.map (·.module)) (plugins.map (·.name))
    (discoverAvailablePlugins lib)

/-! ### Names -/

theorem suffixed_injective (candidate : String) : Function.Injective (suffixed candidate) := by
  intro m n h
  have hdigits : Nat.repr m = Nat.repr n := String.append_right_inj _ |>.mp h
  rw [Nat.repr,Nat.repr,String.ofList_inj] at hdigits
  have hm : Numeral.ofDigits 10 (Nat.toDigits 10 m) = m :=
    Numeral.ofDigits_toDigits (by decide) (by decide) m
  rw [← hm,hdigits]
  exact Numeral.ofDigits_toDigits (by decide) (by decide) n

theorem buildUniqueName_fresh (module : String) (existingNames : List String) :
    buildUniqueName module existingNames ∉ existingNames := by
  unfold buildUniqueName
  split
  · assumption
  · exact Fresh.search_fresh (suffixed_injective module) 2

/-! ### The entries that are added -/

theorem materializeFrom_modules (configuredModules usedNames : List String)
    {entries : List PluginCatalogEntry}
    (hnodup : (entries.map PluginCatalogEntry.module).Nodup) :
    (materializeFrom configuredModules usedNames entries).map (·.module) =
      (entries.map PluginCatalogEntry.module).filter fun module => module ∉ configuredModules := by
  induction entries generalizing configuredModules usedNames with
  | nil => rfl
  | cons entry entries ih =>
    obtain ⟨hnew,hnodup⟩ := List.nodup_cons.mp hnodup
    unfold materializeFrom
    split
    · rename_i hmem
      rw [ih configuredModules usedNames hnodup]
      simp [hmem]
    · rename_i hmem
      have hrest : (entries.map PluginCatalogEntry.module).filter
            (fun module => module ∉ entry.module :: configuredModules) =
          (entries.map PluginCatalogEntry.module).filter fun module =>
            module ∉ configuredModules := by
        refine List.filter_congr fun module hmodule => ?_
        have hne : module ≠ entry.module := fun heq => hnew (heq ▸ hmodule)
        simp [hne]
      simp only [List.map_cons,ih _ _ hnodup,hrest]
      simp [hmem,PluginCatalogEntry.buildDefaultPluginConfig]

theorem materializeFrom_names (configuredModules usedNames : List String)
    (entries : List PluginCatalogEntry) :
    ((materializeFrom configuredModules usedNames entries).map (·.name)).Nodup ∧
      ∀ plugin ∈ materializeFrom configuredModules usedNames entries,
        plugin.name ∉ usedNames := by
  induction entries generalizing configuredModules usedNames with
  | nil => simp [materializeFrom]
  | cons entry entries ih =>
    unfold materializeFrom
    split
    · exact ih configuredModules usedNames
    · have hname : (entry.buildDefaultPluginConfig usedNames).name ∉ usedNames :=
        buildUniqueName_fresh entry.module usedNames
      obtain ⟨hnodup,hfresh⟩ := ih (entry.module :: configuredModules)
        ((entry.buildDefaultPluginConfig usedNames).name :: usedNames)
      refine ⟨List.nodup_cons.mpr ⟨fun hmem => ?_,hnodup⟩,?_⟩
      · obtain ⟨plugin,hplugin,heq⟩ := List.mem_map.mp hmem
        exact hfresh plugin hplugin (heq ▸ List.mem_cons_self)
      · refine List.forall_mem_cons.mpr ⟨hname,fun plugin hplugin hused => ?_⟩
        exact hfresh plugin hplugin (List.mem_cons_of_mem _ hused)

theorem mem_materializeFrom {configuredModules usedNames : List String}
    {entries : List PluginCatalogEntry} {plugin : PluginConfig}
    (h : plugin ∈ materializeFrom configuredModules usedNames entries) :
    ∃ entry ∈ entries, ∃ names, plugin = entry.buildDefaultPluginConfig names := by
  induction entries generalizing configuredModules usedNames with
  | nil => cases h
  | cons entry entries ih =>
    unfold materializeFrom at h
    split at h
    · obtain ⟨other,hother,hplugin⟩ := ih h
      exact ⟨other,List.mem_cons_of_mem entry hother,hplugin⟩
    · obtain rfl | h := List.mem_cons.mp h
      · exact ⟨entry,List.mem_cons_self,usedNames,rfl⟩
      · obtain ⟨other,hother,hplugin⟩ := ih h
        exact ⟨other,List.mem_cons_of_mem entry hother,hplugin⟩

theorem materializeFrom_nil {configuredModules usedNames : List String}
    {entries : List PluginCatalogEntry}
    (h : ∀ entry ∈ entries, entry.module ∈ configuredModules) :
    materializeFrom configuredModules usedNames entries = [] := by
  induction entries with
  | nil => rfl
  | cons entry entries ih =>
    obtain ⟨hentry,hrest⟩ := List.forall_mem_cons.mp h
    rw [materializeFrom,if_pos hentry,ih hrest]

/-! ### The catalogue -/

def staticPluginModuleNames : List String := staticPlugins.map StaticPlugin.moduleName

theorem discoverAvailablePlugins_modules :
    (discoverAvailablePlugins lib).map PluginCatalogEntry.module = staticPluginModuleNames := by
  rw [discoverAvailablePlugins,List.map_map]
  rfl

theorem staticPluginModuleNames_nodup : staticPluginModuleNames.Nodup := by decide

theorem discoverAvailablePlugins_distinct :
    Keyed.Distinct PluginCatalogEntry.module (discoverAvailablePlugins lib) := by
  rw [Keyed.Distinct,discoverAvailablePlugins_modules]
  exact staticPluginModuleNames_nodup

theorem discoverAvailablePlugins_lookup (plugin : StaticPlugin) :
    Keyed.lookup PluginCatalogEntry.module plugin.moduleName (discoverAvailablePlugins lib) =
      some (entryOf lib plugin) := by
  have hmem : entryOf lib plugin ∈ discoverAvailablePlugins lib :=
    List.mem_map_of_mem (by cases plugin <;> decide)
  have hdistinct := discoverAvailablePlugins_distinct lib
  obtain ⟨before,after,heq⟩ := List.append_of_mem hmem
  rw [heq] at hdistinct ⊢
  exact Keyed.lookup_middle hdistinct

/-- What is added is accepted. -/
theorem validate_default (plugin : StaticPlugin) (names : List String) :
    validatePluginConfig lib ((entryOf lib plugin).buildDefaultPluginConfig names) = .ok () := by
  have hlookup := discoverAvailablePlugins_lookup lib plugin
  have hmodule : ((entryOf lib plugin).buildDefaultPluginConfig names).module =
    plugin.moduleName := rfl
  rw [validatePluginConfig,hmodule,hlookup]
  exact Config.seq_ok.mpr ⟨(PluginModels.configModel lib plugin).validate_dump,
    (PluginModels.variablesModel lib plugin).validate_dump⟩

/-- The entries that were given stay in order; each plugin of the catalogue that has none among
them gets one that is disabled; all names differ; and nothing is added again. -/
structure Materialised (given plugins : List PluginConfig) : Prop where
  added : ∃ added, plugins = given ++ added ∧
    added.map (·.module) =
      staticPluginModuleNames.filter (fun module => module ∉ given.map (·.module)) ∧
    ∀ plugin ∈ added, plugin.enabled = false
  named : (plugins.map (·.name)).Nodup
  again : materializePluginConfigs lib plugins = plugins

theorem materialize_configured {plugins : List PluginConfig}
    (h : ∀ module ∈ staticPluginModuleNames, module ∈ plugins.map (·.module)) :
    materializePluginConfigs lib plugins = plugins := by
  rw [materializePluginConfigs,materializeFrom_nil,List.append_nil]
  intro entry hentry
  refine h entry.module ?_
  rw [← discoverAvailablePlugins_modules lib]
  exact List.mem_map_of_mem hentry

theorem materialize_modules {given : List PluginConfig} {module : String}
    (h : module ∈ staticPluginModuleNames) :
    module ∈ (materializePluginConfigs lib given).map (·.module) := by
  rw [materializePluginConfigs,List.map_append,materializeFrom_modules,
    discoverAvailablePlugins_modules,List.mem_append,List.mem_filter]
  · by_cases hgiven : module ∈ given.map (·.module)
    · exact .inl hgiven
    · exact .inr ⟨h,decide_eq_true hgiven⟩
  · exact discoverAvailablePlugins_distinct lib

theorem materialize_materialised {given : List PluginConfig}
    (h : (given.map (·.name)).Nodup) :
    Materialised lib given (materializePluginConfigs lib given) where
  added := by
    refine ⟨_,rfl,?_,fun plugin hplugin => ?_⟩
    · rw [materializeFrom_modules _ _ (discoverAvailablePlugins_distinct lib),
        discoverAvailablePlugins_modules]
    · obtain ⟨entry,_,names,rfl⟩ := mem_materializeFrom hplugin
      rfl
  named := by
    obtain ⟨hnodup,hfresh⟩ := materializeFrom_names (given.map (·.module))
      (given.map (·.name)) (discoverAvailablePlugins lib)
    rw [materializePluginConfigs,List.map_append]
    refine List.Nodup.append h hnodup fun name hname hadded => ?_
    obtain ⟨plugin,hplugin,rfl⟩ := List.mem_map.mp hadded
    exact hfresh plugin hplugin hname
  again := materialize_configured lib fun _ => materialize_modules lib

end SmartDns.PluginCatalog
