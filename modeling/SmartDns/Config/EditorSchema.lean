import SmartDns.Config.Loader
import SmartDns.Lib.SchemaRefs
set_option autoImplicit false

/-!
`build_config_json_schema`: the schema that the editor of the configuration is given. The models
of the plugins bring definitions of their own, which go into one table under longer names.
-/

namespace SmartDns.ConfigFile

open Json (defsPath renameRefs unfoldRefs)

/-- What `model_json_schema` gives: `$defs`, which is left out where it is empty, and the rest. -/
structure JsonSchema where
  body : JsonObject
  defs : JsonObject

/-- What pydantic gives for the models of the configuration and of the plugins. -/
structure ModelSchemas where
  app : JsonSchema
  config : StaticPlugin → JsonSchema
  vars : StaticPlugin → JsonSchema

/-! ### Definitions under longer names -/

def qualified (part name : String) : String := part ++ "." ++ name

theorem qualified_injective (part : String) : Function.Injective (qualified part) :=
  fun _ _ h => String.append_right_inj _ |>.mp h

/-- `_rewrite_schema_refs`. -/
def rewriteSchemaRefs (part : String) : Json → Json := renameRefs (qualified part)

def namespaceJsonSchema (schema : JsonSchema) (part : String) : Json × JsonObject :=
  (rewriteSchemaRefs part schema.body.json,
    schema.defs.relabel (qualified part) (qualified_injective part) (rewriteSchemaRefs part))

/-! ### The plugins -/

def pluginName : StaticPlugin → String
  | .block => "block-plugin"
  | .cache => "cache-plugin"
  | .cloudflareEch => "cloudflare-ech-plugin"
  | .https => "https-plugin"
  | .ipFilter => "ip-filter-plugin"
  | .ipReplace => "ip-replace-plugin"
  | .queryLog => "query-log-plugin"
  | .redirect => "redirect-plugin"
  | .sample => "sample-plugin"
  | .speedtest => "speedtest-plugin"
  | .tag => "tag-plugin"

def uiMeta : StaticPlugin → List (String × String)
  | .block => [("title","Static Answer Plugin"),
      ("description","按 tag 返回静态 A/AAAA 结果，或对非 A/AAAA 查询直接返回空的 NOERROR。")]
  | .cache => [("title","Cache Plugin"),
      ("description","在 request 阶段查 dnspython 缓存，并合并相同 cache key 的并发请求；" ++
        "在 response 阶段最后写入 NOERROR 响应。")]
  | .cloudflareEch => [("title","Cloudflare ECH Plugin"),
      ("description","按 tag 为 HTTPS 响应补充 Cloudflare ECH 参数，" ++
        "并在必要时通过 subquery 判定目标域名。")]
  | .https => [("title","HTTPS Plugin"),
      ("description","清洗 HTTPS 记录中的 h3 ALPN 与 IPv4/IPv6 hints，保留其余参数不变。")]
  | .ipFilter => [("title","IP Filter Plugin"),
      ("description","按请求 tags 与 IPSet tags 过滤 A/AAAA 响应中的地址。")]
  | .ipReplace => [("title","IP Replace Plugin"),
      ("description","按上游结果 tags 匹配规则，并用目标 IPv4/IPv6 CIDR 对正常 A/AAAA 响应做前缀替换。")]
  | .queryLog => [("title","Query Log Plugin"),
      ("description","记录外部查询的时间、类型和结果摘要，并供 WebUI 实时观测。")]
  | .redirect => [("title","Redirect Plugin"),
      ("description","按域名映射发起内部子查询，并返回源域名 CNAME 加目标域名结果。")]
  | .sample => [("title","Sample Plugin"),
      ("description","示例插件：通过修改 dns.resolver.Answer.rrset 返回一个静态 A 记录。")]
  | .speedtest => [("title","SpeedTest Plugin"),
      ("description","在 upstream_response 阶段对响应 IP 执行 ICMP/TCP(80/443) 并发测速，" ++
        "并写入 speedtest.context。")]
  | .tag => [("title","Tag Plugin"),
      ("description","基于域名和应答 IP 命中 tag 文件，为请求和上游结果追加标签。")]

/-- `ui_meta.get("title") or plugin_name`. -/
def pluginTitle (plugin : StaticPlugin) : String :=
  (((uiMeta plugin).lookup "title").filter (· ≠ "")).getD (pluginName plugin)

def configPart (plugin : StaticPlugin) : String := plugin.moduleName ++ ".config"

def varsPart (plugin : StaticPlugin) : String := plugin.moduleName ++ ".variables"

variable (lib : Libraries) (schemas : ModelSchemas)

def pluginProperties (plugin : StaticPlugin) : JsonObject :=
  .ofMembers
    [("name",(JsonObject.ofMembers [("title",.str "Name"),("type",.str "string")]
       (of_decide_eq_true rfl)).json),
     ("module",(JsonObject.ofMembers [("title",.str "Module"),("type",.str "string"),
       ("const",.str plugin.moduleName),("default",.str plugin.moduleName)]
       (of_decide_eq_true rfl)).json),
     ("enabled",(JsonObject.ofMembers [("title",.str "Enabled"),("type",.str "boolean"),
       ("default",.bool false)] (of_decide_eq_true rfl)).json),
     ("config",(namespaceJsonSchema (schemas.config plugin) (configPart plugin)).1),
     ("variables",(namespaceJsonSchema (schemas.vars plugin) (varsPart plugin)).1)]
    (of_decide_eq_true rfl)

def optionObject (p : StaticPlugin) (default : PluginConfig) : JsonObject :=
  .ofMembers
    [("title",.str (pluginTitle p)),
     ("description",.str (((uiMeta p).lookup "description").getD "")),
     ("type",.str "object"),
     ("properties",(pluginProperties schemas p).json),
     ("required",.arr [.str "name",.str "module"]),
     ("default",(plugin lib).write default),
     ("additionalProperties",.bool false)]
    (of_decide_eq_true rfl)

def pluginOption (p : StaticPlugin) : Except PyException JsonObject := do
  let default ← dumpPlugin lib ((PluginCatalog.entryOf lib p).buildDefaultPluginConfig [])
  .ok (optionObject lib schemas p default)

/-- The definitions with those of the plugin's models. -/
def addDefinitions (defs : JsonObject) (plugin : StaticPlugin) : JsonObject :=
  (defs.update (namespaceJsonSchema (schemas.config plugin) (configPart plugin)).2).update
    (namespaceJsonSchema (schemas.vars plugin) (varsPart plugin)).2

def pluginChoice (options : List JsonObject) : Json :=
  (JsonObject.ofMembers [("title",.str "PluginConfig"),
    ("oneOf",.arr (options.map JsonObject.json))] (of_decide_eq_true rfl)).json

def buildConfigJsonSchema (available : List StaticPlugin) : Except PyException JsonSchema := do
  let options ← available.mapM (pluginOption lib schemas)
  let defs := available.foldl (addDefinitions schemas) schemas.app.defs
  let pluginSchema := defs.get "PluginConfig"
  if options ≠ [] then
    .ok { schemas.app with defs := defs.set "PluginConfig" (pluginChoice options) }
  else
    match pluginSchema with
    | some schema => .ok { schemas.app with defs := defs.set "PluginConfig" schema }
    | none => .ok { schemas.app with defs := defs }

/-! ### No definition takes the place of another -/

def HasDot (name : String) : Prop := '.' ∈ name.toList

instance (name : String) : Decidable (HasDot name) :=
  inferInstanceAs (Decidable ('.' ∈ name.toList))

theorem qualified_hasDot (part name : String) : HasDot (qualified part name) := by
  simp [HasDot,qualified]

/-- The models of the plugins with the first parts of their definitions' names. -/
def parts : List (String × JsonSchema) :=
  staticPlugins.flatMap fun plugin =>
    [(configPart plugin,schemas.config plugin),(varsPart plugin,schemas.vars plugin)]

def partNames : List String :=
  staticPlugins.flatMap fun plugin => [configPart plugin,varsPart plugin]

theorem parts_map_fst : (parts schemas).map Prod.fst = partNames := by
  simp [parts,partNames,List.map_flatMap]

theorem partNames_nodup : partNames.Nodup := by decide +kernel

theorem partNames_apart : ∀ part ∈ partNames, ∀ part' ∈ partNames,
    (part ++ ".").toList <+: (part' ++ ".").toList → part = part' := by
  decide +kernel

theorem qualified_parts {part part' name name' : String} (hpart : part ∈ partNames)
    (hpart' : part' ∈ partNames) (h : qualified part name = qualified part' name') :
    part = part' := by
  have hlist : (part ++ ".").toList ++ name.toList = (part' ++ ".").toList ++ name'.toList := by
    rw [← String.toList_append,← String.toList_append]
    exact congrArg String.toList h
  obtain hshort | hshort := List.prefix_or_prefix_of_prefix
    (hlist ▸ List.prefix_append (part ++ ".").toList name.toList)
      (List.prefix_append _ name'.toList)
  · exact partNames_apart part hpart part' hpart' hshort
  · exact (partNames_apart part' hpart' part hpart hshort).symm

def updateAll (defs : JsonObject) (models : List (String × JsonSchema)) : JsonObject :=
  models.foldl (fun defs model => defs.update (namespaceJsonSchema model.2 model.1).2) defs

theorem addDefinitions_eq (defs : JsonObject) :
    staticPlugins.foldl (addDefinitions schemas) defs = updateAll defs (parts schemas) := by
  rw [updateAll,parts,List.foldl_flatMap]
  rfl

theorem get_updateAll_other {models : List (String × JsonSchema)} {name : String}
    (h : ∀ model ∈ models, ∀ name', qualified model.1 name' ≠ name) (defs : JsonObject) :
    (updateAll defs models).get name = defs.get name := by
  induction models generalizing defs with
  | nil => rfl
  | cons model models ih =>
    obtain ⟨hmodel,hmodels⟩ := List.forall_mem_cons.mp h
    have hnone := JsonObject.get_relabel_none (qualified_injective model.1)
      (rewriteSchemaRefs model.1) model.2.defs hmodel
    rw [updateAll,List.foldl_cons]
    refine (ih hmodels _).trans ?_
    rw [JsonObject.get_update,namespaceJsonSchema,hnone,Option.none_or]

theorem get_updateAll {models : List (String × JsonSchema)} {model : String × JsonSchema}
    (hmodel : model ∈ models) (hnodup : (models.map Prod.fst).Nodup)
    (hnames : ∀ model ∈ models, model.1 ∈ partNames) (defs : JsonObject) (name : String) :
    (updateAll defs models).get (qualified model.1 name) =
      ((model.2.defs.get name).map (rewriteSchemaRefs model.1)).or
        (defs.get (qualified model.1 name)) := by
  induction models generalizing defs with
  | nil => cases hmodel
  | cons first models ih =>
    obtain ⟨hfresh,hnodup⟩ := List.nodup_cons.mp hnodup
    obtain ⟨hfirst,hrest⟩ := List.forall_mem_cons.mp hnames
    rw [updateAll,List.foldl_cons]
    obtain rfl | hmodel := List.mem_cons.mp hmodel
    · refine (get_updateAll_other (fun other hother name' heq => hfresh ?_) _).trans ?_
      · rw [← qualified_parts (hrest other hother) hfirst heq]
        exact List.mem_map_of_mem hother
      · rw [JsonObject.get_update,namespaceJsonSchema,
          JsonObject.get_relabel (qualified_injective model.1)]
    · refine (ih hmodel hnodup hrest _).trans ?_
      have hnone := JsonObject.get_relabel_none (qualified_injective first.1)
        (rewriteSchemaRefs first.1) first.2.defs
        fun name' (heq : qualified first.1 name' = qualified model.1 name) => hfresh (by
          rw [qualified_parts hfirst (hrest model hmodel) heq]
          exact List.mem_map_of_mem hmodel)
      rw [JsonObject.get_update,namespaceJsonSchema,hnone,Option.none_or]

theorem mem_partNames {model : String × JsonSchema} (h : model ∈ parts schemas) :
    model.1 ∈ partNames := by
  rw [← parts_map_fst schemas]
  exact List.mem_map_of_mem h

/-! ### What the schema says -/

/-- With its references followed to any depth the value is the model's own schema. -/
def Unfolds (document schema : JsonSchema) (v : Json) : Prop :=
  ∀ n, unfoldRefs document.defs.get n v = unfoldRefs schema.defs.get n schema.body.json

/-- The option is about the plugin, its parts say what the plugin's models say, and what it
offers first is an entry that is accepted. -/
structure Offers (document : JsonSchema) (p : StaticPlugin) (option : JsonObject) : Prop where
  properties : ∃ properties : JsonObject, option.get "properties" = some properties.json ∧
    (properties.get "module").map (Json.member "const") = some [.str p.moduleName] ∧
    (∃ v, properties.get "config" = some v ∧ Unfolds document (schemas.config p) v) ∧
    ∃ v, properties.get "variables" = some v ∧ Unfolds document (schemas.vars p) v
  default : ∃ v entry, option.get "default" = some v ∧ (plugin lib).read v = .ok entry ∧
    PluginCatalog.validatePluginConfig lib entry = .ok ()

variable {lib schemas}

theorem unfolds_part {document : JsonSchema} {model : String × JsonSchema}
    (hmodel : model ∈ parts schemas)
    (hplain : ∀ name ∈ schemas.app.defs.keys, ¬ HasDot name)
    (hdocument : ∀ name, HasDot name → document.defs.get name =
      (updateAll schemas.app.defs (parts schemas)).get name) :
    Unfolds document model.2 (namespaceJsonSchema model.2 model.1).1 := by
  have hnodup : ((parts schemas).map Prod.fst).Nodup := by
    rw [parts_map_fst]
    exact partNames_nodup
  have hdefs (name : String) : document.defs.get (qualified model.1 name) =
      (model.2.defs.get name).map (renameRefs (qualified model.1)) := by
    have hbase : schemas.app.defs.get (qualified model.1 name) = none :=
      JsonObject.get_none fun hmem => hplain _ hmem (qualified_hasDot model.1 name)
    rw [hdocument _ (qualified_hasDot model.1 name),
      get_updateAll hmodel hnodup (fun _ => mem_partNames schemas),hbase,Option.or_none]
    rfl
  exact fun n => Json.unfoldRefs_renameRefs hdefs n _

theorem pluginOption_eq (p : StaticPlugin) : pluginOption lib schemas p =
    .ok (optionObject lib schemas p ((PluginCatalog.entryOf lib p).buildDefaultPluginConfig [])) :=
  Exec.except_bind_eq_ok.mpr ⟨_,(dumpPlugin_self_iff lib).mpr (keepsPlugin_default lib p []),rfl⟩

theorem optionObject_offers {document : JsonSchema} (p : StaticPlugin)
    (hparts : ∀ model ∈ parts schemas,
      Unfolds document model.2 (namespaceJsonSchema model.2 model.1).1) :
    Offers lib schemas document p
      (optionObject lib schemas p ((PluginCatalog.entryOf lib p).buildDefaultPluginConfig [])) where
  properties := by
    have hmem (model : String × JsonSchema) (h : model ∈ [(configPart p,schemas.config p),
        (varsPart p,schemas.vars p)]) : model ∈ parts schemas :=
      List.mem_flatMap.mpr ⟨p,by cases p <;> decide,h⟩
    refine ⟨pluginProperties schemas p,rfl,rfl,⟨_,rfl,?_⟩,_,rfl,?_⟩
    · exact hparts _ (hmem _ List.mem_cons_self)
    · exact hparts _ (hmem _ (List.mem_cons_of_mem _ List.mem_cons_self))
  default := ⟨_,(PluginCatalog.entryOf lib p).buildDefaultPluginConfig [],rfl,
    (plugin lib).reread (Schema.Kept.stable _),PluginCatalog.validate_default lib p []⟩

/-- The editor's schema has an option for each plugin, in which the references of the plugin's
models lead to what they lead to in these models, and the references of the configuration's own
model lead where they led. -/
theorem buildConfigJsonSchema_means
    (hplain : ∀ name ∈ schemas.app.defs.keys, ¬ HasDot name) :
    ∃ document options, buildConfigJsonSchema lib schemas staticPlugins = .ok document ∧
      document.body = schemas.app.body ∧
      document.defs.get "PluginConfig" = some (pluginChoice options) ∧
      List.Forall₂ (Offers lib schemas document) staticPlugins options ∧
      ∀ name, ¬ HasDot name → name ≠ "PluginConfig" →
        document.defs.get name = schemas.app.defs.get name := by
  let option (p : StaticPlugin) : JsonObject :=
    optionObject lib schemas p ((PluginCatalog.entryOf lib p).buildDefaultPluginConfig [])
  have hoptions : staticPlugins.mapM (pluginOption lib schemas) = .ok (staticPlugins.map option) :=
    Except.mapM_eq_ok.mpr (List.forall₂_map_right_iff.mpr
      (List.forall₂_same.mpr fun p _ => pluginOption_eq p))
  let document : JsonSchema :=
    { schemas.app with
      defs := (updateAll schemas.app.defs (parts schemas)).set "PluginConfig"
        (pluginChoice (staticPlugins.map option)) }
  have hdocument (name : String) (hname : name ≠ "PluginConfig") : document.defs.get name =
      (updateAll schemas.app.defs (parts schemas)).get name := by
    rw [JsonObject.get_set,if_neg hname.symm]
  have hparts : ∀ model ∈ parts schemas,
      Unfolds document model.2 (namespaceJsonSchema model.2 model.1).1 := fun model hmodel =>
    unfolds_part hmodel hplain fun name hdot => hdocument name (by rintro rfl; revert hdot; decide)
  refine ⟨document,staticPlugins.map option,?_,rfl,?_,?_,fun name hdot hname => ?_⟩
  · refine Exec.except_bind_eq_ok.mpr ⟨_,hoptions,?_⟩
    rw [addDefinitions_eq]
    exact if_pos (by simp [staticPlugins])
  · rw [JsonObject.get_set,if_pos rfl]
  · exact List.forall₂_map_right_iff.mpr
      (List.forall₂_same.mpr fun p _ => optionObject_offers p hparts)
  · rw [hdocument name hname]
    refine get_updateAll_other (fun model _ name' heq => hdot ?_) _
    rw [← heq]
    exact qualified_hasDot model.1 name'

/-- A model whose values hold values of its own kind, under a name that all plugins use. -/
def nestedSchema : JsonSchema where
  body := .ofMembers [("$ref",.str "#/$defs/Node")] (of_decide_eq_true rfl)
  defs := .ofMembers
    [("Node",objectOf [("items",objectOf [("$ref",.str "#/$defs/Node")] (of_decide_eq_true rfl))]
      (of_decide_eq_true rfl))] (of_decide_eq_true rfl)

def nestedSchemas : ModelSchemas where
  app := nestedSchema
  config _ := nestedSchema
  vars _ := nestedSchema

theorem buildConfigJsonSchema_means_nested : ∃ document options,
    buildConfigJsonSchema plainLibraries nestedSchemas staticPlugins = .ok document ∧
      List.Forall₂ (Offers plainLibraries nestedSchemas document) staticPlugins options ∧
      document.defs.get "Node" = nestedSchema.defs.get "Node" := by
  obtain ⟨document,options,hdocument,-,-,hoffers,hbase⟩ :=
    @buildConfigJsonSchema_means plainLibraries nestedSchemas (by decide)
  exact ⟨document,options,hdocument,hoffers,hbase "Node" (by decide) (by decide)⟩

end SmartDns.ConfigFile
