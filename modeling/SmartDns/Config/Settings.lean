import SmartDns.Config.Hosts
import SmartDns.Config.Nameservers
set_option autoImplicit false

/-!
The records of the configuration file and the whole of it. Two files are the same when their
records are equal, but for the order of the domains of `hosts` and for a lifetime that is not
given, which is the number that is read for it.
-/

namespace SmartDns.ConfigFile

open Schema (Part)

variable (lib : Libraries)

/-! ### The runtime -/

structure MultiprocessConfig where
  workers : Option PosInt := some ⟨1,rfl⟩
  startMethod : MultiprocessStartMethod := .auto
  queueSize : PosInt := ⟨1024,rfl⟩
  responseTimeout : PosDouble := seconds 10 (by norm_num)
  frontCacheSize : PosInt := cacheSize

abbrev multiprocessPart : Part PyException MultiprocessConfig :=
  let unset : MultiprocessConfig := {}
  (((((Part.field "workers" (workers lib) (some unset.workers)).and
    (.field "start_method" (startMethod lib) (some unset.startMethod))).and
    (.field "queue_size" (posInt lib) (some unset.queueSize))).and
    (.field "response_timeout" (posFloat lib) (some unset.responseTimeout))).and
    (.field "front_cache_size" (posInt lib) (some unset.frontCacheSize))).convert
  (fun ((((workers,startMethod),queueSize),responseTimeout),frontCacheSize) =>
    ⟨workers,startMethod,queueSize,responseTimeout,frontCacheSize⟩)
  (fun c => ((((c.workers,c.startMethod),c.queueSize),c.responseTimeout),c.frontCacheSize))
  (by intro c; rfl) (by intro c; rfl)

def multiprocess : Schema PyException MultiprocessConfig :=
  (multiprocessPart lib).record (of_decide_eq_true rfl)

instance : (multiprocess lib).Discrete := by unfold multiprocess; infer_instance

theorem multiprocess_stable_iff (c : MultiprocessConfig) :
    (multiprocess lib).Stable c ↔ lib.KeepsFloat c.responseTimeout.val := by
  have hparts : (multiprocess lib).Stable c ↔
    (((True ∧ True) ∧ True) ∧ lib.KeepsFloat c.responseTimeout.val) ∧ True := Iff.rfl
  rw [hparts]
  simp only [and_true,true_and]

variable {lib} in
def noHosts : Hosts lib := ⟨[],List.nodup_nil,by simp⟩

structure RuntimeConfig where
  pluginDirs : TextList := ⟨["plugins"],rfl⟩
  loopPolicy : String := "auto"
  defaultUpstreamGroup : String := "default"
  defaultUpstreamPolicy : DispatchStrategyType := .race
  bootstrapResolver : Texts := noTexts
  hosts : Hosts lib := noHosts
  fingerprint : StrippedText := ⟨none,by simp⟩
  logLevel : LogLevel := .info
  multiprocess : MultiprocessConfig := {}

abbrev runtimePart : Part PyException (RuntimeConfig lib) :=
  let unset : RuntimeConfig lib := {}
  (((((((((Part.field "plugin_dirs" (textList "至少需要一个插件目录") (some unset.pluginDirs)).and
    (.field "loop_policy" text (some unset.loopPolicy))).and
    (.field "default_upstream_group" text (some unset.defaultUpstreamGroup))).and
    (.field "default_upstream_policy" dispatchStrategy (some unset.defaultUpstreamPolicy))).and
    (.field "bootstrap_resolver" (bootstrapResolver lib) (some unset.bootstrapResolver))).and
    (.field "hosts" (hosts lib) (some unset.hosts))).and
    (.field "fingerprint" (strippedTextOrNone lib) (some unset.fingerprint))).and
    (.field "log_level" (logLevel lib) (some unset.logLevel))).and
    (.field "multiprocess" (multiprocess lib) (some unset.multiprocess))).convert
  (fun ((((((((pluginDirs,loopPolicy),defaultUpstreamGroup),defaultUpstreamPolicy),
      bootstrapResolver),hosts),fingerprint),logLevel),multiprocess) =>
    ⟨pluginDirs,loopPolicy,defaultUpstreamGroup,defaultUpstreamPolicy,bootstrapResolver,hosts,
      fingerprint,logLevel,multiprocess⟩)
  (fun c => ((((((((c.pluginDirs,c.loopPolicy),c.defaultUpstreamGroup),c.defaultUpstreamPolicy),
    c.bootstrapResolver),c.hosts),c.fingerprint),c.logLevel),c.multiprocess))
  (by intro c; rfl) (by intro c; rfl)

def runtime : Schema PyException (RuntimeConfig lib) :=
  (runtimePart lib).record (of_decide_eq_true rfl)

theorem runtime_stable_iff (c : RuntimeConfig lib) :
    (runtime lib).Stable c ↔
      (hosts lib).Stable c.hosts ∧ lib.KeepsFloat c.multiprocess.responseTimeout.val := by
  have hparts : (runtime lib).Stable c ↔
    (((((((((∀ a ∈ c.pluginDirs.val, True) ∧ True) ∧ True) ∧ True) ∧ True) ∧
      (hosts lib).Stable c.hosts) ∧ True) ∧ True) ∧
      (multiprocess lib).Stable c.multiprocess) := Iff.rfl
  rw [hparts,multiprocess_stable_iff]
  simp only [implies_true,and_true,true_and]

/-! ### Listeners and upstreams -/

structure TreeRootConfig where
  domainDir : StrippedText := ⟨none,by simp⟩
  ipDir : StrippedText := ⟨none,by simp⟩

abbrev treeRootPart : Part PyException TreeRootConfig :=
  let unset : TreeRootConfig := {}
  ((Part.field "domain_dir" (strippedTextOrNone lib) (some unset.domainDir)).and
    (.field "ip_dir" (strippedTextOrNone lib) (some unset.ipDir))).convert
  (fun (domainDir,ipDir) => ⟨domainDir,ipDir⟩) (fun c => (c.domainDir,c.ipDir))
  (by intro c; rfl) (by intro c; rfl)

abbrev treeRoot : Schema PyException TreeRootConfig :=
  (treeRootPart lib).record (of_decide_eq_true rfl)

abbrev listenerPart : Part PyException ListenerConfig :=
  (((((Part.field "name" text).and
    (.field "protocol" listenerProtocol)).and
    (.field "host" text (some "127.0.0.1"))).and
    (.field "port" (port lib) (some 53))).and
    (.field "enabled" (bool lib) (some true))).convert
  (fun ((((name,protocol),host),port),enabled) => ⟨name,protocol,host,port,enabled⟩)
  (fun c => ((((c.name,c.protocol),c.host),c.port),c.enabled))
  (by intro c; rfl) (by intro c; rfl)

abbrev listener : Schema PyException ListenerConfig :=
  (listenerPart lib).record (of_decide_eq_true rfl)

/-- The default is the integer 1, which pydantic does not make a `float` of. -/
inductive Lifetime where
  | unset
  | given (value : PosDouble)

def Lifetime.value : Lifetime → PosDouble
  | .unset => oneSecond
  | .given value => value

def lifetime : Schema PyException Lifetime where
  read v := ((posFloat lib).read v).map .given
  write
    | .unset => .int 1
    | .given value => (posFloat lib).write value
  Same a b := a.value = b.value
  Stable a := lib.KeepsFloat a.value.val
  stable_iff a := by
    cases a with
    | unset =>
      have hread : (posFloat lib).read (.int 1) = .ok oneSecond := by
        refine Exec.except_bind_eq_ok.mpr ⟨.finite 1,lib.floatOf_one,?_⟩
        exact dif_pos (of_decide_eq_true rfl)
      refine iff_of_true ⟨.given oneSecond,?_,rfl⟩ (keepsFloat_finite lib 1)
      exact Except.map_eq_ok.mpr ⟨_,hread,rfl⟩
    | given value =>
      have hvalue := (posFloat lib).stable_iff value
      rw [posFloat_stable] at hvalue
      refine Iff.trans ?_ hvalue
      constructor
      · intro h
        obtain ⟨b,hread,hsame⟩ := h
        obtain ⟨c,hc,rfl⟩ := Except.map_eq_ok.mp hread
        exact ⟨c,hc,congrArg Subtype.val hsame⟩
      · intro h
        obtain ⟨c,hc,hsame⟩ := h
        exact ⟨.given c,Except.map_eq_ok.mpr ⟨c,hc,rfl⟩,Subtype.ext hsame⟩

theorem ecs_isNull (text : ECSConfig) : (ecs.write text).isNull = false := rfl

structure UpstreamConfig extends Config.UpstreamConfig where
  timeout : PosDouble
  lifetime : Lifetime
  useTcp : Bool
  ecs : Option ECSConfig

abbrev upstreamPart : Part PyException UpstreamConfig :=
  ((((((Part.field "name" text).and
    (.field "nameservers" (textList emptyList))).and
    (.field "timeout" (posFloat lib) (some (seconds (1/2) (by norm_num))))).and
    (.field "lifetime" (lifetime lib) (some .unset))).and
    (.field "use_tcp" (bool lib) (some false))).and
    (.field "ecs" (ecs.optional ecs_isNull) (some none))).convert
  (fun (((((name,nameservers),timeout),lifetime),useTcp),ecs) =>
    ⟨⟨name,nameservers.val,by simpa using nameservers.property⟩,timeout,lifetime,useTcp,ecs⟩)
  (fun c => (((((c.name,⟨c.nameservers,by simpa using c.nonempty⟩),c.timeout),c.lifetime),
    c.useTcp),c.ecs))
  (by intro c; rfl) (by intro c; rfl)

def upstream : Schema PyException UpstreamConfig :=
  (upstreamPart lib).record (of_decide_eq_true rfl)

theorem upstream_stable_iff (c : UpstreamConfig) : (upstream lib).Stable c ↔
    lib.KeepsFloat c.timeout.val ∧ lib.KeepsFloat c.lifetime.value.val := by
  have hparts : (upstream lib).Stable c ↔
    (((((True ∧ ∀ a ∈ c.nameservers, True) ∧ lib.KeepsFloat c.timeout.val) ∧
      lib.KeepsFloat c.lifetime.value.val) ∧ True) ∧ ∀ b ∈ c.ecs, True) := Iff.rfl
  rw [hparts]
  simp only [implies_true,and_true,true_and]

abbrev groupPart : Part PyException UpstreamGroupConfig :=
  ((Part.field "name" text).and (.field "upstreams" (textList emptyList))).convert
  (fun (name,upstreams) => ⟨name,upstreams.val,by
    have := upstreams.property
    simpa using this⟩)
  (fun c => (c.name,⟨c.upstreams,by simpa using c.nonempty⟩))
  (by intro c; rfl) (by intro c; rfl)

abbrev group : Schema PyException UpstreamGroupConfig := groupPart.record (of_decide_eq_true rfl)

/-! ### Rules -/

/-- `RuleMatchConfig`, with its lists in their normal form. -/
structure RuleMatchConfig extends SmartDns.RuleMatchConfig String where
  matchTags_normal : StrippedTexts matchTags
  excludeTags_normal : StrippedTexts excludeTags
  qtypes_normal : QtypeTexts lib qtypes

abbrev ruleMatchPart : Part PyException (RuleMatchConfig lib) :=
  (((Part.field "match_tags" tags (some noTexts)).and
    (.field "exclude_tags" tags (some noTexts))).and
    (.field "qtypes" (qtypes lib) (some ⟨[],List.nodup_nil,by simp⟩))).convert
  (fun ((matchTags,excludeTags),qtypes) =>
    ⟨⟨matchTags.val,excludeTags.val,qtypes.val⟩,Texts.stripped matchTags,
      Texts.stripped excludeTags,qtypes.property⟩)
  (fun c => ((⟨c.matchTags,c.matchTags_normal⟩,⟨c.excludeTags,c.excludeTags_normal⟩),
    ⟨c.qtypes,c.qtypes_normal⟩))
  (by intro c; rfl) (by intro c; rfl)

theorem dispatchStrategy_isNull (strategy : DispatchStrategyType) :
    (dispatchStrategy.write strategy).isNull = false := rfl

/-- `RuleActionConfig.validate_action_target`. -/
def refuseAction (action : SmartDns.RuleActionConfig) : Option String :=
  if action.upstreamGroup = none ∧ action.dispatcher = none then
    some "rule action 至少需要 upstream_group 或 dispatcher"
  else none

abbrev RuleActionConfig := { action : SmartDns.RuleActionConfig // refuseAction action = none }

abbrev givenActionPart : Part PyException SmartDns.RuleActionConfig :=
  ((Part.field "upstream_group" optionalText (some none)).and
    (.field "dispatcher" (dispatchStrategy.optional dispatchStrategy_isNull) (some none))).convert
  (fun (upstreamGroup,dispatcher) => ⟨upstreamGroup,dispatcher⟩)
  (fun c => (c.upstreamGroup,c.dispatcher)) (by intro c; rfl) (by intro c; rfl)

abbrev ruleActionPart : Part PyException RuleActionConfig := givenActionPart.restrict refuseAction

structure RuleConfig where
  name : String
  enabled : Bool
  matching : RuleMatchConfig lib
  action : RuleActionConfig

abbrev rulePart : Part PyException (RuleConfig lib) :=
  ((((Part.field "name" text).and
    (.field "enabled" (bool lib) (some true))).and
    (.field "match" ((ruleMatchPart lib).record (of_decide_eq_true rfl)))).and
    (.field "action" (ruleActionPart.record (of_decide_eq_true rfl)))).convert
  (fun (((name,enabled),matching),action) => ⟨name,enabled,matching,action⟩)
  (fun c => (((c.name,c.enabled),c.matching),c.action)) (by intro c; rfl) (by intro c; rfl)

abbrev rule : Schema PyException (RuleConfig lib) :=
  (rulePart lib).record (of_decide_eq_true rfl)

/-! ### Plugins and the server for the web -/

def noMembers : JsonObject := .ofMembers [] List.nodup_nil

structure PluginConfig extends Config.PluginConfig where
  config : JsonObject
  vars : JsonObject

abbrev pluginPart : Part PyException PluginConfig :=
  (((((Part.field "name" text).and
    (.field "module" text)).and
    (.field "enabled" (bool lib) (some true))).and
    (.field "config" .object (some noMembers))).and
    (.field "variables" .object (some noMembers))).convert
  (fun ((((name,module),enabled),config),vars) => ⟨⟨name,module,enabled⟩,config,vars⟩)
  (fun c => ((((c.name,c.module),c.enabled),c.config),c.vars))
  (by intro c; rfl) (by intro c; rfl)

abbrev plugin : Schema PyException PluginConfig := (pluginPart lib).record (of_decide_eq_true rfl)

structure WebUIConfig extends SmartDns.WebUIConfig where
  username : GivenText := ⟨"admin",rfl⟩
  password : GivenText := ⟨"change-me",rfl⟩

abbrev webuiPart : Part PyException WebUIConfig :=
  let unset : WebUIConfig := {}
  ((((((Part.field "enabled" (bool lib) (some unset.enabled)).and
    (.field "doh_enabled" (bool lib) (some unset.dohEnabled))).and
    (.field "host" text (some unset.host))).and
    (.field "port" (port lib) (some unset.port))).and
    (.field "username" givenText (some unset.username))).and
    (.field "password" givenText (some unset.password))).convert
  (fun (((((enabled,dohEnabled),host),port),username),password) =>
    ⟨⟨enabled,dohEnabled,host,port⟩,username,password⟩)
  (fun c => (((((c.enabled,c.dohEnabled),c.host),c.port),c.username),c.password))
  (by intro c; rfl) (by intro c; rfl)

abbrev webui : Schema PyException WebUIConfig := (webuiPart lib).record (of_decide_eq_true rfl)

/-! ### The file -/

/-- `AppConfig`, before its references are checked. -/
structure AppConfig where
  runtime : RuntimeConfig lib := {}
  treeRoot : TreeRootConfig := {}
  listeners : List ListenerConfig := []
  nameservers : List NameserverConfig := []
  upstreams : List UpstreamConfig := []
  groups : List UpstreamGroupConfig := []
  rules : List (RuleConfig lib) := []
  plugins : List PluginConfig := []
  webui : WebUIConfig := {}

abbrev settingsPart : Part PyException (AppConfig lib) :=
  let unset : AppConfig lib := {}
  (((((((((Part.field "runtime" (runtime lib) (some unset.runtime)).and
    (.field "tree_root" (treeRoot lib) (some unset.treeRoot))).and
    (.field "listeners" (listener lib).list (some unset.listeners))).and
    (.field "nameservers" (nameserver lib).list (some unset.nameservers))).and
    (.field "upstreams" (upstream lib).list (some unset.upstreams))).and
    (.field "groups" group.list (some unset.groups))).and
    (.field "rules" (rule lib).list (some unset.rules))).and
    (.field "plugins" (plugin lib).list (some unset.plugins))).and
    (.field "webui" (webui lib) (some unset.webui))).convert
  (fun ((((((((runtime,treeRoot),listeners),nameservers),upstreams),groups),rules),plugins),
      webui) =>
    ⟨runtime,treeRoot,listeners,nameservers,upstreams,groups,rules,plugins,webui⟩)
  (fun c => ((((((((c.runtime,c.treeRoot),c.listeners),c.nameservers),c.upstreams),c.groups),
    c.rules),c.plugins),c.webui))
  (by intro c; rfl) (by intro c; rfl)

def settings : Part PyException (AppConfig lib) := settingsPart lib

variable {lib} in
def RuleConfig.engineRule (rule : RuleConfig lib) : SmartDns.RuleConfig String where
  name := rule.name
  enabled := rule.enabled
  matching := rule.matching.toRuleMatchConfig
  action := rule.action.val

theorem upstream_named {a b : UpstreamConfig} (h : (upstream lib).Same a b) :
    a.toUpstreamConfig = b.toUpstreamConfig := by
  obtain ⟨⟨⟨⟨⟨hname,hnameservers⟩,-⟩,-⟩,-⟩,-⟩ := h
  have hname : a.name = b.name := Part.eq_of_same hname
  have hnameservers := congrArg Subtype.val (Part.eq_of_same hnameservers)
  exact Config.UpstreamConfig.ext hname hnameservers

variable {lib} in
/-- What `validate_references` looks at. -/
def AppConfig.references (config : AppConfig lib) : SmartDns.AppConfig Config.References where
  listeners := config.listeners
  webui := config.webui.toWebUIConfig
  workers := config.runtime.multiprocess.workers.map fun n => n.val.toNat
  rest := {
    defaultUpstreamGroup := config.runtime.defaultUpstreamGroup
    nameservers := config.nameservers.map fun nameserver => ⟨nameserverName nameserver⟩
    upstreams := config.upstreams.map UpstreamConfig.toUpstreamConfig
    groups := config.groups
    rules := config.rules.map fun rule => Rules.RuleConfig.numbered lib.rdatatypes rule.engineRule
    plugins := config.plugins.map PluginConfig.toPluginConfig }

theorem settings_stable_iff (c : AppConfig lib) : (settings lib).Stable c ↔
    ((hosts lib).Stable c.runtime.hosts ∧
      lib.KeepsFloat c.runtime.multiprocess.responseTimeout.val) ∧
    (∀ nameserver ∈ c.nameservers, ∀ x ∈ nameserverTimeouts nameserver, lib.KeepsFloat x) ∧
    ∀ upstream ∈ c.upstreams,
      lib.KeepsFloat upstream.timeout.val ∧ lib.KeepsFloat upstream.lifetime.value.val := by
  have hparts : (settings lib).Stable c ↔
    ((((((((((runtime lib).Stable c.runtime ∧ (treeRoot lib).Stable c.treeRoot) ∧
      (listener lib).list.Stable c.listeners) ∧
      ∀ nameserver ∈ c.nameservers, (ConfigFile.nameserver lib).Stable nameserver) ∧
      ∀ upstream ∈ c.upstreams, (ConfigFile.upstream lib).Stable upstream) ∧
      group.list.Stable c.groups) ∧ (rule lib).list.Stable c.rules) ∧
      (plugin lib).list.Stable c.plugins) ∧ (webui lib).Stable c.webui)) := Iff.rfl
  rw [hparts]
  simp only [Schema.stable_kept,runtime_stable_iff,nameserver_stable_iff,upstream_stable_iff,
    and_true,and_assoc]

theorem plugins_same {a b : AppConfig lib} (h : (settings lib).Same a b) :
    a.plugins = b.plugins := by
  obtain ⟨⟨-,hplugins⟩,-⟩ := h
  exact Part.eq_of_same hplugins

theorem references_same {a b : AppConfig lib} (h : (settings lib).Same a b) :
    a.references = b.references := by
  have hplugins := plugins_same lib h
  obtain ⟨⟨⟨⟨⟨⟨⟨⟨hruntime,-⟩,hlisteners⟩,hnameservers⟩,hupstreams⟩,hgroups⟩,hrules⟩,-⟩,hwebui⟩ := h
  obtain ⟨⟨⟨⟨⟨⟨⟨⟨-,-⟩,hgroup⟩,-⟩,-⟩,-⟩,-⟩,-⟩,hmultiprocess⟩ := hruntime
  have hnamed : a.upstreams.map UpstreamConfig.toUpstreamConfig =
      b.upstreams.map UpstreamConfig.toUpstreamConfig :=
    List.Forall₂.map_eq hupstreams fun u u' hsame => upstream_named lib hsame
  have hgroup : a.runtime.defaultUpstreamGroup = b.runtime.defaultUpstreamGroup :=
    Part.eq_of_same hgroup
  have hmultiprocess : a.runtime.multiprocess = b.runtime.multiprocess :=
    Part.eq_of_same hmultiprocess
  have hlisteners : a.listeners = b.listeners := Part.eq_of_same hlisteners
  have hnameservers : a.nameservers = b.nameservers := Part.eq_of_same hnameservers
  have hgroups : a.groups = b.groups := Part.eq_of_same hgroups
  have hrules : a.rules = b.rules := Part.eq_of_same hrules
  have hwebui : a.webui = b.webui := Part.eq_of_same hwebui
  simp only [AppConfig.references,hnamed,hgroup,hmultiprocess,hlisteners,hnameservers,hgroups,
    hrules,hplugins,hwebui]

theorem settings_stable_same {a b : AppConfig lib} (h : (settings lib).Same a b)
    (hb : (settings lib).Stable b) : (settings lib).Stable a := by
  obtain ⟨⟨⟨⟨⟨⟨⟨⟨hruntime,-⟩,-⟩,hnameservers⟩,hupstreams⟩,-⟩,-⟩,-⟩,-⟩ := h
  obtain ⟨⟨⟨⟨-,hhosts⟩,-⟩,-⟩,hmultiprocess⟩ := hruntime
  have hhosts : ∀ host, host ∈ a.runtime.hosts.entries ↔ host ∈ b.runtime.hosts.entries := hhosts
  have hmultiprocess : a.runtime.multiprocess = b.runtime.multiprocess :=
    Part.eq_of_same hmultiprocess
  have hnameservers : a.nameservers = b.nameservers := Part.eq_of_same hnameservers
  have htimes : a.upstreams.map (fun u => (u.timeout,u.lifetime.value)) =
      b.upstreams.map fun u => (u.timeout,u.lifetime.value) := by
    refine List.Forall₂.map_eq hupstreams fun u u' hsame => ?_
    obtain ⟨⟨⟨⟨-,htimeout⟩,hlifetime⟩,-⟩,-⟩ := hsame
    exact Prod.ext (Part.eq_of_same htimeout) hlifetime
  have hupstreams (c : AppConfig lib) : (∀ u ∈ c.upstreams,
      lib.KeepsFloat u.timeout.val ∧ lib.KeepsFloat u.lifetime.value.val) ↔
      ∀ times ∈ c.upstreams.map (fun u => (u.timeout,u.lifetime.value)),
        lib.KeepsFloat times.1.val ∧ lib.KeepsFloat times.2.val := by
    simp only [List.forall_mem_map]
  rw [settings_stable_iff,hupstreams] at hb ⊢
  rw [hmultiprocess,hnameservers,htimes]
  exact ⟨⟨fun host hhost => hb.1.1 host ((hhosts host).mp hhost),hb.1.2⟩,hb.2⟩

/-- `AppConfig.model_validate`, of what `BaseSettings` leaves of the members. -/
def validateModel (members : List (String × Json)) : Except PyException (AppConfig lib) := do
  Json.forbidExtra (settings lib).names members
  let config ← (settings lib).read members
  config.references.validateReferences
  .ok config

theorem validateModel_ok {members : List (String × Json)} {config : AppConfig lib}
    (h : validateModel lib members = .ok config) :
    (settings lib).read members = .ok config ∧ config.references.validateReferences = .ok () := by
  obtain ⟨_,_,h⟩ := Exec.except_bind_eq_ok.mp h
  obtain ⟨read,hread,h⟩ := Exec.except_bind_eq_ok.mp h
  obtain ⟨_,hreferences,h⟩ := Exec.except_bind_eq_ok.mp h
  cases h
  exact ⟨hread,hreferences⟩

theorem settings_nodup : (settings lib).names.Nodup := of_decide_eq_true rfl

variable {lib} in
/-- `config.model_dump(mode="json")`, but for what the plugins hold. -/
def AppConfig.object (config : AppConfig lib) : JsonObject :=
  (settings lib).object (settings_nodup lib) config

variable {lib} in
theorem AppConfig.object_names (config : AppConfig lib) :
    config.object.members.map Prod.fst = (settings lib).names := by
  rw [AppConfig.object,Part.object,JsonObject.members_ofMembers,(settings lib).named]

theorem initValues_object (config : AppConfig lib) :
    lib.initValues config.object.members = .ok config.object.members := by
  refine lib.initValues_public _ fun member hmember => ?_
  have hname : member.1 ∈ (settings lib).names := by
    rw [← config.object_names]
    exact List.mem_map_of_mem hmember
  have hpublic : ∀ name ∈ (settings lib).names, name.toList.head? ≠ some '_' :=
    of_decide_eq_true rfl
  exact hpublic member.1 hname

theorem agrees_object (config : AppConfig lib) :
    Json.Agrees ((settings lib).write config) config.object.members :=
  (settings lib).agrees_object (settings_nodup lib) config

theorem validateModel_object_iff {config : AppConfig lib}
    (h : config.references.validateReferences = .ok ()) :
    (∃ again, validateModel lib config.object.members = .ok again ∧
      (settings lib).Same again config) ↔ (settings lib).Stable config := by
  rw [← (settings lib).stable_iff config _ (agrees_object lib config)]
  constructor
  · intro hagain
    obtain ⟨again,hread,hsame⟩ := hagain
    exact ⟨again,(validateModel_ok lib hread).1,hsame⟩
  · intro hagain
    obtain ⟨again,hread,hsame⟩ := hagain
    refine ⟨again,?_,hsame⟩
    refine Exec.except_bind_eq_ok.mpr ⟨(),Json.forbidExtra_ok config.object_names,?_⟩
    refine Exec.except_bind_eq_ok.mpr ⟨again,hread,?_⟩
    rw [← references_same lib hsame] at h
    exact Exec.except_bind_eq_ok.mpr ⟨(),h,rfl⟩

end SmartDns.ConfigFile
