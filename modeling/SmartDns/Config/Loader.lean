import SmartDns.Config.Given
import SmartDns.Plugin.Catalog
set_option autoImplicit false

/-!
`config/loader.py`: a text is loaded as a configuration with all plugins, and a configuration
is dumped as a text. The plugins' dictionaries are not read when the file is read, so that they
are what the file gives.
-/

namespace SmartDns.ConfigFile

open Json (member valuesAt items)
open PluginCatalog (materializePluginConfigs validatePluginConfigs Materialised)
open Schema (Part)

/-- `json.loads`, and `json.dumps` with the line feed after it. -/
structure JsonText (T : Type) where
  loads : T → Except PyException Json
  dumps : Json → T
  loads_dumps : ∀ v, loads (dumps v) = .ok v

variable (lib : Libraries) {T : Type} (json : JsonText T)

def rootObject : Json → Except PyException JsonObject
  | .obj keys distinct value => .ok ⟨keys,distinct,value⟩
  | _ => .error (.valueError "配置根节点必须是 object")

/-- The members that the model is given. -/
def givenMembers (configText : T) : Except PyException (List (String × Json)) := do
  let raw ← json.loads configText
  let root ← rootObject raw
  lib.initValues root.members

def parseConfigText (configText : T) : Except PyException (AppConfig lib) := do
  let members ← givenMembers lib json configText
  let config ← validateModel lib members
  validatePluginConfigs lib config.plugins
  .ok { config with plugins := materializePluginConfigs lib config.plugins }

def dumpPlugin (plugin : PluginConfig) : Except PyException PluginConfig := do
  let config ← lib.anyJson plugin.config
  let vars ← lib.anyJson plugin.vars
  .ok { plugin with config := config, vars := vars }

def modelDump (config : AppConfig lib) : Except PyException JsonObject := do
  let plugins ← config.plugins.mapM (dumpPlugin lib)
  .ok { config with plugins := plugins }.object

def dumpConfigText (config : AppConfig lib) : Except PyException T := do
  let o ← modelDump lib { config with plugins := materializePluginConfigs lib config.plugins }
  .ok (json.dumps o.json)

/-! ### The plugins' dictionaries -/

def Libraries.KeepsPlugin (plugin : PluginConfig) : Prop :=
  lib.anyJson plugin.config = .ok plugin.config ∧ lib.anyJson plugin.vars = .ok plugin.vars

/-- A dictionary is written as it is. -/
def Libraries.KeepsDictionary (v : Json) : Prop :=
  ∀ o : JsonObject, v = o.json → lib.anyJson o = .ok o

def givenDictionaries (members : List (String × Json)) : List Json :=
  ((valuesAt "plugins" members).flatMap items).flatMap fun plugin =>
    plugin.member "config" ++ plugin.member "variables"

theorem dumpPlugin_self_iff {plugin : PluginConfig} :
    dumpPlugin lib plugin = .ok plugin ↔ lib.KeepsPlugin plugin := by
  constructor
  · intro h
    obtain ⟨config,hconfig,h⟩ := Exec.except_bind_eq_ok.mp h
    obtain ⟨vars,hvars,h⟩ := Exec.except_bind_eq_ok.mp h
    have hsame := Except.ok.inj h
    have hconfigSame : config = plugin.config := congrArg PluginConfig.config hsame
    have hvarsSame : vars = plugin.vars := congrArg PluginConfig.vars hsame
    rw [hconfigSame] at hconfig
    rw [hvarsSame] at hvars
    exact ⟨hconfig,hvars⟩
  · intro h
    exact Exec.except_bind_eq_ok.mpr ⟨_,h.1,Exec.except_bind_eq_ok.mpr ⟨_,h.2,rfl⟩⟩

theorem dumpPlugins_self_iff {plugins : List PluginConfig} :
    plugins.mapM (dumpPlugin lib) = .ok plugins ↔ ∀ plugin ∈ plugins, lib.KeepsPlugin plugin := by
  rw [Except.mapM_eq_ok,List.forall₂_same]
  simp only [dumpPlugin_self_iff]

theorem dumpPlugin_module {plugin dumped : PluginConfig} (h : dumpPlugin lib plugin = .ok dumped) :
    plugin.module = dumped.module := by
  obtain ⟨_,_,h⟩ := Exec.except_bind_eq_ok.mp h
  obtain ⟨_,_,h⟩ := Exec.except_bind_eq_ok.mp h
  cases h
  rfl

theorem keepsPlugin_default (plugin : StaticPlugin) (names : List String) :
    lib.KeepsPlugin ((PluginCatalog.entryOf lib plugin).buildDefaultPluginConfig names) :=
  ⟨lib.anyJson_plain _ (PluginModels.configModel lib plugin).plain_dump,
    lib.anyJson_plain _ (PluginModels.variablesModel lib plugin).plain_dump⟩

theorem dictionary_given {members : List (String × Json)} {name : String} {o : JsonObject}
    (h : (Part.field name (.object : Schema PyException JsonObject) (some noMembers)).read members =
      .ok o) :
    lib.anyJson o = .ok o ↔ ∀ v ∈ valuesAt name members, lib.KeepsDictionary v := by
  refine Json.field_forall_iff (p:=fun o => lib.anyJson o = .ok o) h
    (lib.anyJson_plain _ (of_decide_eq_true rfl)) fun v o hread => ?_
  obtain rfl := Json.readObject_ok hread
  constructor
  · intro hkeeps other hother
    rwa [← JsonObject.json_injective hother]
  · exact fun hkeeps => hkeeps o rfl

theorem plugin_given {v : Json} {c : PluginConfig} (h : (plugin lib).read v = .ok c) :
    lib.KeepsPlugin c ↔
      ∀ x ∈ v.member "config" ++ v.member "variables", lib.KeepsDictionary x := by
  obtain ⟨o,rfl,hread⟩ := Part.readRecord_ok h
  obtain ⟨hrest,hvars⟩ := Part.read_and (Part.read_convert hread)
  rw [List.forall_mem_append]
  exact and_congr (dictionary_given lib (Part.read_and hrest).2) (dictionary_given lib hvars)

def givenPlugins (members : List (String × Json)) : Except PyException (List PluginConfig) :=
  Json.field members "plugins" (plugin lib).list.read (some [])

theorem settings_plugins {members : List (String × Json)} {c : AppConfig lib}
    (h : (settings lib).read members = .ok c) : givenPlugins lib members = .ok c.plugins := by
  have hread : (settingsPart lib).read members = .ok c := h
  exact (Part.read_and (Part.read_and (Part.read_convert hread)).1).2

theorem dictionaries_given {members : List (String × Json)} {plugins : List PluginConfig}
    (h : givenPlugins lib members = .ok plugins) : (∀ plugin ∈ plugins, lib.KeepsPlugin plugin) ↔
      ∀ x ∈ givenDictionaries members, lib.KeepsDictionary x := by
  rw [givenDictionaries,List.forall_mem_flatMap]
  exact items_given (s:=plugin lib) h fun _ _ => plugin_given lib

/-! ### Saving and loading -/

theorem givenMembers_dumps (config : AppConfig lib) :
    givenMembers lib json (json.dumps config.object.json) = .ok config.object.members := by
  refine Exec.except_bind_eq_ok.mpr ⟨_,json.loads_dumps _,?_⟩
  exact Exec.except_bind_eq_ok.mpr ⟨config.object,rfl,initValues_object lib config⟩

/-- The plugins that are read are those that were written. -/
theorem validateModel_plugins {config again : AppConfig lib}
    (h : validateModel lib config.object.members = .ok again) : again.plugins = config.plugins := by
  have hread := settings_plugins lib (validateModel_ok lib h).1
  have hmem : ("plugins",(plugin lib).list.write config.plugins) ∈ (settings lib).write config :=
    List.mem_append_left _ (List.mem_append_right _ List.mem_cons_self)
  have hlookup := agrees_object lib config _ hmem
  have hreread : (plugin lib).list.read ((plugin lib).list.write config.plugins) =
      .ok config.plugins :=
    (plugin lib).list.reread (Schema.Kept.stable config.plugins)
  rw [givenPlugins,Json.field_some hlookup,hreread] at hread
  exact (Except.ok.inj hread).symm

variable {lib} in
theorem references_plugins {config : AppConfig lib} {plugins : List PluginConfig}
    (h : config.references.validateReferences = .ok ())
    (hnamed : (plugins.map (·.name)).Nodup) :
    ({ config with plugins := plugins } : AppConfig lib).references.validateReferences =
      .ok () := by
  simp only [SmartDns.AppConfig.validateReferences,SmartDns.AppConfig.validateUniqueNames,
    Config.seq_ok,Config.uniqueNames_ok] at h ⊢
  obtain ⟨⟨hlisteners,hnameservers,hupstreams,hgroups,hrules,-⟩,hrest⟩ := h
  refine ⟨⟨hlisteners,hnameservers,hupstreams,hgroups,hrules,?_⟩,hrest⟩
  rw [AppConfig.references,List.map_map]
  exact hnamed

variable {lib} in
theorem plugins_named {config : AppConfig lib}
    (h : config.references.validateReferences = .ok ()) :
    (config.plugins.map (·.name)).Nodup := by
  simp only [SmartDns.AppConfig.validateReferences,SmartDns.AppConfig.validateUniqueNames,
    Config.seq_ok,Config.uniqueNames_ok] at h
  have hnamed := h.1.2.2.2.2.2
  rw [AppConfig.references,List.map_map] at hnamed
  exact hnamed

/-- `read` is what is read of an accepted text, and `config` what the loader makes of it. -/
structure Loaded (members : List (String × Json)) (read config : AppConfig lib) : Prop where
  checked : validateModel lib members = .ok read
  valid : validatePluginConfigs lib read.plugins = .ok ()
  materialised : config = { read with plugins := materializePluginConfigs lib read.plugins }

theorem parseConfigText_ok_iff {configText : T} {config : AppConfig lib} :
    parseConfigText lib json configText = .ok config ↔
      ∃ members read, givenMembers lib json configText = .ok members ∧
        Loaded lib members read config := by
  constructor
  · intro h
    obtain ⟨members,hmembers,h⟩ := Exec.except_bind_eq_ok.mp h
    obtain ⟨read,hread,h⟩ := Exec.except_bind_eq_ok.mp h
    obtain ⟨_,hvalid,h⟩ := Exec.except_bind_eq_ok.mp h
    exact ⟨members,read,hmembers,hread,hvalid,(Except.ok.inj h).symm⟩
  · intro h
    obtain ⟨members,read,hmembers,hread,hvalid,rfl⟩ := h
    refine Exec.except_bind_eq_ok.mpr ⟨members,hmembers,Exec.except_bind_eq_ok.mpr ⟨read,hread,?_⟩⟩
    exact Exec.except_bind_eq_ok.mpr ⟨(),hvalid,rfl⟩

/-- The text of the configuration is accepted and gives the same configuration. -/
def Reloads (config : AppConfig lib) : Prop :=
  ∃ dumped, dumpConfigText lib json config = .ok dumped ∧
    ∃ again, parseConfigText lib json dumped = .ok again ∧ (settings lib).Same again config

section
variable {lib} {json} {members : List (String × Json)} {read config : AppConfig lib}

theorem Loaded.references (h : Loaded lib members read config) :
    config.references.validateReferences = .ok () := by
  have hread := (validateModel_ok lib h.checked).2
  have hnamed := (PluginCatalog.materialize_materialised lib (plugins_named hread)).named
  rw [h.materialised]
  exact references_plugins hread hnamed

theorem Loaded.plugins (h : Loaded lib members read config) :
    Materialised lib read.plugins config.plugins := by
  have hnamed := plugins_named (validateModel_ok lib h.checked).2
  rw [h.materialised]
  exact PluginCatalog.materialize_materialised lib hnamed

theorem Loaded.mem_plugins (h : Loaded lib members read config) {plugin : PluginConfig}
    (hplugin : plugin ∈ config.plugins) : plugin ∈ read.plugins ∨ ∃ static names,
      plugin = (PluginCatalog.entryOf lib static).buildDefaultPluginConfig names := by
  rw [h.materialised] at hplugin
  obtain hread | hadded := List.mem_append.mp hplugin
  · exact .inl hread
  · obtain ⟨entry,hentry,names,rfl⟩ := PluginCatalog.mem_materializeFrom hadded
    obtain ⟨static,_,rfl⟩ := List.mem_map.mp hentry
    exact .inr ⟨static,names,rfl⟩

theorem Loaded.valid_plugins (h : Loaded lib members read config) :
    validatePluginConfigs lib config.plugins = .ok () := by
  refine Config.forM_ok.mpr fun plugin hplugin => ?_
  obtain hread | ⟨static,names,rfl⟩ := h.mem_plugins hplugin
  · exact Config.forM_ok.mp h.valid plugin hread
  · exact PluginCatalog.validate_default lib static names

theorem Loaded.keepsPlugins_iff (h : Loaded lib members read config) :
    (∀ plugin ∈ config.plugins, lib.KeepsPlugin plugin) ↔
      ∀ plugin ∈ read.plugins, lib.KeepsPlugin plugin := by
  constructor
  · intro hkeeps plugin hplugin
    refine hkeeps plugin ?_
    rw [h.materialised]
    exact List.mem_append_left _ hplugin
  · intro hkeeps plugin hplugin
    obtain hread | ⟨static,names,rfl⟩ := h.mem_plugins hplugin
    · exact hkeeps plugin hread
    · exact keepsPlugin_default lib static names

theorem Loaded.stable_iff (h : Loaded lib members read config) :
    (settings lib).Stable config ↔ (settings lib).Stable read := by
  rw [h.materialised,settings_stable_iff,settings_stable_iff]

theorem dumpConfigText_ok_iff {config : AppConfig lib} {dumped : T}
    (hagain : materializePluginConfigs lib config.plugins = config.plugins) :
    dumpConfigText lib json config = .ok dumped ↔
      ∃ plugins, config.plugins.mapM (dumpPlugin lib) = .ok plugins ∧
        json.dumps ({ config with plugins := plugins } : AppConfig lib).object.json = dumped := by
  unfold dumpConfigText modelDump
  rw [hagain]
  constructor
  · intro h
    obtain ⟨o,ho,h⟩ := Exec.except_bind_eq_ok.mp h
    obtain ⟨plugins,hplugins,ho⟩ := Exec.except_bind_eq_ok.mp ho
    cases ho
    exact ⟨plugins,hplugins,Except.ok.inj h⟩
  · intro h
    obtain ⟨plugins,hplugins,rfl⟩ := h
    refine Exec.except_bind_eq_ok.mpr ⟨_,?_,rfl⟩
    exact Exec.except_bind_eq_ok.mpr ⟨plugins,hplugins,rfl⟩

theorem dumped_modules {plugins dumped : List PluginConfig}
    (h : plugins.mapM (dumpPlugin lib) = .ok dumped) :
    plugins.map (·.module) = dumped.map (·.module) :=
  (Except.mapM_eq_ok.mp h).map_eq fun _ _ => dumpPlugin_module lib

/-- The plugins of a text that was dumped are those that were written; each has an entry. -/
theorem Loaded.read_again (h : Loaded lib members read config) {plugins : List PluginConfig}
    (hplugins : config.plugins.mapM (dumpPlugin lib) = .ok plugins) {again : AppConfig lib}
    (hagain : parseConfigText lib json
      (json.dumps ({ config with plugins := plugins } : AppConfig lib).object.json) = .ok again) :
    again.plugins = plugins ∧
      validateModel lib ({ config with plugins := plugins } : AppConfig lib).object.members =
        .ok again := by
  obtain ⟨members',read',hmembers,hchecked,-,rfl⟩ := (parseConfigText_ok_iff lib json).mp hagain
  cases (givenMembers_dumps lib json _).symm.trans hmembers
  have hread := validateModel_plugins lib hchecked
  have hconfigured : materializePluginConfigs lib read'.plugins = read'.plugins := by
    refine PluginCatalog.materialize_configured lib fun module hmodule => ?_
    rw [hread,← dumped_modules hplugins,h.materialised]
    exact PluginCatalog.materialize_modules lib hmodule
  rw [hconfigured]
  exact ⟨hread,hchecked⟩

theorem Loaded.reloads_iff (h : Loaded lib members read config) : Reloads lib json config ↔
    (settings lib).Stable config ∧ ∀ plugin ∈ config.plugins, lib.KeepsPlugin plugin := by
  have hmaterialised := h.plugins.again
  unfold Reloads
  simp only [dumpConfigText_ok_iff hmaterialised,← dumpPlugins_self_iff]
  constructor
  · intro hreloads
    obtain ⟨dumped,⟨plugins,hplugins,rfl⟩,again,hagain,hsame⟩ := hreloads
    obtain ⟨hread,hchecked⟩ := h.read_again hplugins hagain
    have hkept : plugins = config.plugins := by
      rw [← hread]
      exact plugins_same lib hsame
    rw [hkept] at hplugins hchecked
    exact ⟨(validateModel_object_iff lib h.references).mp ⟨again,hchecked,hsame⟩,hplugins⟩
  · intro hkeeps
    obtain ⟨hstable,hplugins⟩ := hkeeps
    obtain ⟨again,hchecked,hsame⟩ := (validateModel_object_iff lib h.references).mpr hstable
    have hread := validateModel_plugins lib hchecked
    refine ⟨_,⟨config.plugins,hplugins,rfl⟩,again,(parseConfigText_ok_iff lib json).mpr ?_,hsame⟩
    refine ⟨_,again,givenMembers_dumps lib json config,hchecked,?_,?_⟩
    · rw [hread]
      exact h.valid_plugins
    · rw [hread,hmaterialised,← hread]

end

/-! ### What decides whether a text is read back -/

structure Libraries.Keeps (members : List (String × Json)) : Prop where
  domains : ∀ domain ∈ givenDomains members, KeepsDomain domain
  timeouts : ∀ x ∈ givenTimeouts members, lib.KeepsNumber x
  dictionaries : ∀ x ∈ givenDictionaries members, lib.KeepsDictionary x

variable {lib} {json} in
theorem Loaded.keeps_iff {members : List (String × Json)} {read config : AppConfig lib}
    (h : Loaded lib members read config) : Reloads lib json config ↔ lib.Keeps members := by
  have hread := (validateModel_ok lib h.checked).1
  rw [h.reloads_iff,h.stable_iff,h.keepsPlugins_iff,settings_given lib hread,
    dictionaries_given lib (settings_plugins lib hread)]
  constructor
  · intro hgiven
    exact ⟨hgiven.1.1,hgiven.1.2,hgiven.2⟩
  · intro hkeeps
    exact ⟨⟨hkeeps.domains,hkeeps.timeouts⟩,hkeeps.dictionaries⟩

/-- The plugins that a text gives are materialised, and what the text gives is read back from
the text that is dumped for it. -/
structure SavesAndLoads (configText : T) (config : AppConfig lib) : Prop where
  plugins : ∃ members given, givenMembers lib json configText = .ok members ∧
    givenPlugins lib members = .ok given ∧ Materialised lib given config.plugins
  reloads : Reloads lib json config

variable {lib} {json} in
theorem Loaded.saves_iff {configText : T} {members : List (String × Json)}
    {read config : AppConfig lib} (hmembers : givenMembers lib json configText = .ok members)
    (h : Loaded lib members read config) :
    SavesAndLoads lib json configText config ↔ lib.Keeps members := by
  constructor
  · exact fun hsaves => h.keeps_iff.mp hsaves.reloads
  · intro hkeeps
    refine ⟨⟨members,read.plugins,hmembers,?_,h.plugins⟩,h.keeps_iff.mpr hkeeps⟩
    exact settings_plugins lib (validateModel_ok lib h.checked).1

/-! ### Saving and loading again and again -/

/-- A configuration that is saved and loaded so often, and each time is what it was before. -/
def ReloadsTimes : ℕ → AppConfig lib → Prop
  | 0,_ => True
  | n+1,config => ∃ dumped, dumpConfigText lib json config = .ok dumped ∧
    ∃ again, parseConfigText lib json dumped = .ok again ∧ (settings lib).Same again config ∧
      ReloadsTimes n again

section
variable {lib} {json} {members : List (String × Json)} {read config : AppConfig lib}

/-- What is the same is read back as well. -/
theorem Loaded.reloads_same (h : Loaded lib members read config)
    (hreloads : Reloads lib json config) {text : T} {again : AppConfig lib}
    (hagain : parseConfigText lib json text = .ok again)
    (hsame : (settings lib).Same again config) : Reloads lib json again := by
  obtain ⟨_,_,_,hloaded⟩ := (parseConfigText_ok_iff lib json).mp hagain
  obtain ⟨hstable,hplugins⟩ := h.reloads_iff.mp hreloads
  refine hloaded.reloads_iff.mpr ⟨settings_stable_same lib hsame hstable,?_⟩
  rw [plugins_same lib hsame]
  exact hplugins

theorem Loaded.reloadsTimes (h : Loaded lib members read config)
    (hreloads : Reloads lib json config) (n : ℕ) : ReloadsTimes lib json n config := by
  induction n generalizing members read config with
  | zero => trivial
  | succ n ih =>
    obtain ⟨dumped,hdumped,again,hagain,hsame⟩ := hreloads
    obtain ⟨_,_,_,hloaded⟩ := (parseConfigText_ok_iff lib json).mp hagain
    have hnext := h.reloads_same ⟨dumped,hdumped,again,hagain,hsame⟩ hagain hsame
    exact ⟨dumped,hdumped,again,hagain,hsame,ih hloaded hnext⟩

theorem Loaded.reloadsTimes_iff (h : Loaded lib members read config) :
    (∀ n, ReloadsTimes lib json n config) ↔ Reloads lib json config := by
  constructor
  · intro htimes
    obtain ⟨dumped,hdumped,again,hagain,hsame,-⟩ := htimes 1
    exact ⟨dumped,hdumped,again,hagain,hsame⟩
  · exact h.reloadsTimes

end

/-- The plugins that a text gives are materialised, and the configuration stays what it is
however often it is saved and loaded. -/
structure StaysStable (configText : T) (config : AppConfig lib) : Prop where
  plugins : ∃ members given, givenMembers lib json configText = .ok members ∧
    givenPlugins lib members = .ok given ∧ Materialised lib given config.plugins
  reloads : ∀ n, ReloadsTimes lib json n config

theorem staysStable_iff {configText : T} {config : AppConfig lib}
    (h : parseConfigText lib json configText = .ok config) :
    StaysStable lib json configText config ↔
      ∃ members, givenMembers lib json configText = .ok members ∧ lib.Keeps members := by
  obtain ⟨members,read,hmembers,hloaded⟩ := (parseConfigText_ok_iff lib json).mp h
  have hsaves := hloaded.saves_iff hmembers
  constructor
  · intro hstays
    refine ⟨members,hmembers,hsaves.mp ⟨hstays.plugins,?_⟩⟩
    exact hloaded.reloadsTimes_iff.mp hstays.reloads
  · intro hkeeps
    obtain ⟨members',hmembers',hkeeps⟩ := hkeeps
    cases hmembers.symm.trans hmembers'
    have hreloads := hsaves.mpr hkeeps
    exact ⟨hreloads.plugins,hloaded.reloadsTimes_iff.mpr hreloads.reloads⟩

/-- A text is read back just when its domains, its timeouts and its dictionaries are kept. -/
theorem savesAndLoads_iff {configText : T} {config : AppConfig lib}
    (h : parseConfigText lib json configText = .ok config) :
    SavesAndLoads lib json configText config ↔
      ∀ members, givenMembers lib json configText = .ok members → lib.Keeps members := by
  obtain ⟨members,read,hmembers,hloaded⟩ := (parseConfigText_ok_iff lib json).mp h
  rw [hloaded.saves_iff hmembers]
  constructor
  · intro hkeeps members' hmembers'
    cases hmembers.symm.trans hmembers'
    exact hkeeps
  · exact fun hkeeps => hkeeps members hmembers

/-! ### Two texts -/

theorem toLower_kept (c : Char) : c.toLower.toLower = c.toLower ∧
    PyText.isSpace c.toLower = PyText.isSpace c ∧ isDot c.toLower = isDot c := by
  by_cases h : c.toNat < 128
  · refine PyText.ascii_forall (fun c => c.toLower.toLower = c.toLower ∧
      PyText.isSpace c.toLower = PyText.isSpace c ∧ isDot c.toLower = isDot c) ?_ h
    decide +kernel
  · have hsame : c.toLower = c := by
      refine dif_neg fun hupper => h ?_
      have hle : c.val.toNat ≤ 90 := UInt32.le_iff_toNat_le.mp hupper.2
      exact lt_of_le_of_lt hle (by decide)
    rw [hsame]
    exact ⟨hsame,rfl,rfl⟩

open Rules (numberedTypes) in
theorem numberedTypes_plain (rdtype : RdataType) :
    IsStripped (numberedTypes.upper (numberedTypes.toText rdtype)) := by
  by_cases hA : rdtype = RdataType.A
  · subst hA
    exact ⟨rfl,by decide⟩
  · have hupper : numberedTypes.upper (numberedTypes.toText rdtype) =
        String.ofList ("TYPE".toList ++ Nat.toDigits 10 rdtype.toNat) := by
      have hdigits : (Nat.toDigits 10 rdtype.toNat).map Char.toUpper =
          Nat.toDigits 10 rdtype.toNat :=
        (List.map_congr_left fun c hc => Rules.toUpper_digit (IpText.toDigits_isDigit _ c hc)).trans
          (List.map_id _)
      simp only [numberedTypes,if_neg hA,String.toList_ofList,List.map_append,hdigits]
      rfl
    have htype : ("TYPE".toList.all fun c => PyText.isSpace c = false) = true := by decide
    have hchars : ∀ c ∈ "TYPE".toList ++ Nat.toDigits 10 rdtype.toNat, PyText.isSpace c = false :=
      List.forall_mem_append.mpr ⟨fun c hc => of_decide_eq_true (List.all_eq_true.mp htype c hc),
        fun c hc =>
        digit_not_isSpace (IpText.toDigits_isDigit _ c hc)⟩
    rw [hupper]
    refine ⟨?_,fun hempty => by simpa using String.ofList_eq_empty_iff.mp hempty⟩
    rw [Rules.strip,String.toList_ofList,PyText.strip_trimmed (trimmed_of_chars hchars)]

theorem numberedTypes_level (level : LogLevel) :
    Rules.numberedTypes.upper level.name = level.name := by
  cases level <;> decide +kernel

/-- Texts are ASCII, and pydantic takes nothing but what has the type of the field. -/
def plainLibraries : Libraries where
  str
    | .str s => s
    | _ => ""
  boolOf
    | .bool b => .ok b
    | _ => Json.invalid "Input should be a valid boolean"
  intOf
    | .int n => .ok n
    | _ => Json.invalid "Input should be a valid integer"
  floatOf
    | .float x => .ok x
    | .int n => .ok (.finite n)
    | _ => Json.invalid "Input should be a valid number"
  floatJson := .float
  anyJson := .ok
  initValues := .ok
  lower := List.map Char.toLower
  rdatatypes := Rules.numberedTypes
  str_str _ := rfl
  boolOf_bool _ := rfl
  intOf_int _ := rfl
  floatOf_float _ := rfl
  floatOf_one := congrArg (fun value : ℚ => Except.ok (Double.finite value)) Rat.intCast_one
  floatJson_finite _ := rfl
  anyJson_plain _ _ := rfl
  initValues_public _ _ := rfl
  lowersAscii _ _ := rfl
  lower_part text part h := by
    refine (List.map_congr_left fun c hc => ?_).trans (List.map_id _)
    obtain ⟨d,_,rfl⟩ := List.mem_map.mp (h.subset hc)
    exact (toLower_kept d).1
  lower_head c text := ⟨c.toLower,text.map Char.toLower,rfl,(toLower_kept c).2.1⟩
  lower_last text c := ⟨text.map Char.toLower,c.toLower,by simp,(toLower_kept c).2⟩
  rdatatypes_lawful := Rules.numberedTypes_lawful
  rdatatypes_plain := numberedTypes_plain
  upper_level := numberedTypes_level

/-- A text that is what is parsed of it. -/
def parsedText : JsonText Json := ⟨.ok,id,fun _ => rfl⟩

def objectOf (members : List (String × Json)) (h : (members.map Prod.fst).Nodup) : Json :=
  (JsonObject.ofMembers members h).json

/-- A configuration with one host. -/
def hostConfig (domain : String) : Json :=
  objectOf
    [("runtime",objectOf
       [("hosts",objectOf [(domain,.arr [.str "1.1.1.1"])] (List.nodup_singleton domain))]
       (of_decide_eq_true rfl)),
     ("nameservers",.arr [objectOf
       [("name",.str "n"),("protocol",.str "do53"),("address",.str "1.1.1.1")]
       (of_decide_eq_true rfl)]),
     ("upstreams",.arr [objectOf [("name",.str "u"),("nameservers",.arr [.str "n"])]
       (of_decide_eq_true rfl)]),
     ("groups",.arr [objectOf [("name",.str "default"),("upstreams",.arr [.str "u"])]
       (of_decide_eq_true rfl)])]
    (of_decide_eq_true rfl)

theorem exists_ok {α : Type} {x : Except PyException α} (h : x.toOption.isSome = true) :
    ∃ a, x = .ok a := by
  cases x with
  | ok a => exact ⟨a,rfl⟩
  | error e => cases h

theorem savesAndLoads_dotted : ∃ config,
    parseConfigText plainLibraries parsedText (hostConfig "a.") = .ok config ∧
      SavesAndLoads plainLibraries parsedText (hostConfig "a.") config := by
  obtain ⟨config,hconfig⟩ :=
    exists_ok (x:=parseConfigText plainLibraries parsedText (hostConfig "a.")) (by decide +kernel)
  refine ⟨config,hconfig,(savesAndLoads_iff plainLibraries parsedText hconfig).mpr ?_⟩
  intro members hmembers
  cases hmembers
  have hdomains : ∀ domain ∈ ["a."], KeepsDomain domain := by decide
  exact ⟨hdomains,List.forall_mem_nil _,List.forall_mem_nil _⟩

theorem staysStable_dotted : ∃ config,
    parseConfigText plainLibraries parsedText (hostConfig "a.") = .ok config ∧
      StaysStable plainLibraries parsedText (hostConfig "a.") config := by
  obtain ⟨config,hconfig⟩ :=
    exists_ok (x:=parseConfigText plainLibraries parsedText (hostConfig "a.")) (by decide +kernel)
  refine ⟨config,hconfig,(staysStable_iff plainLibraries parsedText hconfig).mpr ?_⟩
  have hdomains : ∀ domain ∈ ["a."], KeepsDomain domain := by decide
  exact ⟨_,rfl,hdomains,List.forall_mem_nil _,List.forall_mem_nil _⟩

/-- The space that stands between the dots of the domain is at its end when it is read again. -/
theorem savesAndLoads_spaced : ∃ config,
    parseConfigText plainLibraries parsedText (hostConfig "a. .") = .ok config ∧
      ¬ SavesAndLoads plainLibraries parsedText (hostConfig "a. .") config := by
  obtain ⟨config,hconfig⟩ :=
    exists_ok (x:=parseConfigText plainLibraries parsedText (hostConfig "a. .")) (by decide +kernel)
  obtain ⟨members,read,hmembers,hloaded⟩ := (parseConfigText_ok_iff _ _).mp hconfig
  refine ⟨config,hconfig,?_⟩
  rw [hloaded.saves_iff hmembers]
  intro hkeeps
  cases hmembers
  have hspaced : ¬ KeepsDomain "a. ." := by decide
  exact hspaced (hkeeps.domains "a. ." (List.mem_singleton_self _))

end SmartDns.ConfigFile
