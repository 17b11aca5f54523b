import SmartDns.Config.Fields
import SmartDns.Core.IpRange
import SmartDns.Https.Ech
import SmartDns.IpFilter.Plugin
import SmartDns.IpReplace.Service
import SmartDns.Lib.Keyed
import SmartDns.Plugin.Block
import SmartDns.Plugin.Registry
import SmartDns.SpeedTest.Plugin
set_option autoImplicit false

/-!
The models of the plugins: what each takes as its configuration and its variables, and what it
has when it is given nothing. Defaults are not checked, so that a list which may not be empty
is empty by default.
-/

namespace SmartDns.PluginModels

open ConfigFile
open Schema (Part)
open Schema.Part (plain_and plain_field)

/-- `unset` is the model built from nothing. -/
structure PluginModel where
  Config : Type
  part : Part PyException Config
  nodup : part.names.Nodup
  strict : Bool
  unset : Config
  stable : part.Stable unset
  plain : ∀ member ∈ part.write unset, member.2.plain 63 = true

namespace PluginModel

/-- `model_validate`, for the error it may raise. -/
def validate (model : PluginModel) (given : JsonObject) : Except PyException Unit := do
  let _ ← model.part.readRecord model.strict given.json
  .ok ()

/-- `model().model_dump(mode="json")`. -/
def dump (model : PluginModel) : JsonObject := model.part.object model.nodup model.unset

theorem validate_dump (model : PluginModel) : model.validate model.dump = .ok () := by
  have hagrees := model.part.agrees_object model.nodup model.unset
  obtain ⟨read,hread,-⟩ := (model.part.stable_iff model.unset _ hagrees).mpr model.stable
  refine Exec.except_bind_eq_ok.mpr ⟨read,?_,rfl⟩
  rw [dump,Part.readRecord_object]
  exact hread

theorem plain_dump (model : PluginModel) : model.dump.json.plain 64 = true :=
  Part.plain_object model.plain

end PluginModel

variable (lib : Libraries)

def emptyModel : PluginModel where
  Config := Unit
  part := .nothing
  nodup := List.nodup_nil
  strict := false
  unset := ()
  stable := trivial
  plain := by simp [Part.nothing]

/-! ### Fields -/

/-- `normalize_tag_list`, which is `RuntimeConfig.normalize_bootstrap_resolver`. -/
abbrev normalizeTagList (v : Json) : Except PyException (List String) :=
  normalizeBootstrapResolver lib v

abbrev tagList : Schema PyException Texts :=
  .normal (normalizeTagList lib) textsJson (normalizeBootstrapResolver_stripped lib)
    (normalizeBootstrapResolver_texts lib)

def readRequiredTags (v : Json) : Except PyException Texts := do
  let tags ← (tagList lib).read v
  if tags.val = [] then Json.invalid emptyList else .ok tags

/-- `Field(default_factory=list, min_length=1)`. -/
abbrev requiredTags : Schema PyException Texts :=
  .plain (readRequiredTags lib) fun tags => textsJson tags.val

/-- The texts of the items of a value; null has none. -/
def readTexts (v : Json) : Except PyException (Option (List (List Char))) :=
  if v.isNull then .ok none
  else do
    let items ← iterate v
    .ok (some (items.map fun item => (lib.str item).toList))

def readAddresses (subject : String) (version : ℕ) (v : Json) :
    Except PyException (List (List Char)) := do
  let texts ← readTexts lib v
  BlockPlugin.normalizeAddresses subject version texts

abbrev addresses (subject : String) (version : ℕ) : Schema PyException (List (List Char)) :=
  .plain (readAddresses lib subject version) fun texts => textsJson (texts.map String.ofList)

abbrev NetworkTexts (version : ℕ) :=
  { texts : List (List Char) // ∀ text ∈ texts, IpReplace.NormalText version text }

def noNetworks (version : ℕ) : NetworkTexts version := ⟨[],by simp⟩

def readNetworks (version : ℕ) (v : Json) : Except PyException (NetworkTexts version) := do
  let texts ← readTexts lib v
  match h : IpReplace.normalizeNetworks version [] (texts.getD []) with
  | .ok targets => .ok ⟨targets,IpReplace.normalizeNetworks_normal (by simp) h⟩
  | .error e => .error e

abbrev networks (version : ℕ) : Schema PyException (NetworkTexts version) :=
  .plain (readNetworks lib version) fun texts => textsJson (texts.val.map String.ofList)

/-! ### Static answers -/

/-- `BlockPluginRuleConfig`, before its addresses are checked. -/
structure BlockPluginRuleConfig where
  matchTags : Texts
  excludeTags : Texts
  ipv4Addresses : List (List Char)
  ipv6Addresses : List (List Char)
  blockOther : Bool
  responseTtlSeconds : PosInt

abbrev givenBlockRulePart : Part PyException BlockPluginRuleConfig :=
  ((((((Part.field "match_tags" (requiredTags lib) (some noTexts)).and
    (.field "exclude_tags" (tagList lib) (some noTexts))).and
    (.field "ipv4_addresses" (addresses lib BlockPlugin.blockAddress 4) (some []))).and
    (.field "ipv6_addresses" (addresses lib BlockPlugin.blockAddress 6) (some []))).and
    (.field "block_other" (bool lib) (some false))).and
    (.field "response_ttl_seconds" (posInt lib) (some ⟨86400,rfl⟩))).convert
  (fun (((((matchTags,excludeTags),ipv4Addresses),ipv6Addresses),blockOther),responseTtlSeconds) =>
    ⟨matchTags,excludeTags,ipv4Addresses,ipv6Addresses,blockOther,responseTtlSeconds⟩)
  (fun c => (((((c.matchTags,c.excludeTags),c.ipv4Addresses),c.ipv6Addresses),c.blockOther),
    c.responseTtlSeconds)) (by intro c; rfl) (by intro c; rfl)

/-- `BlockPluginRuleConfig.validate_addresses`. -/
def refuseBlockRule (c : BlockPluginRuleConfig) : Option String :=
  if c.ipv4Addresses = [] ∧ c.ipv6Addresses = [] ∧ !c.blockOther then
    some "静态应答规则至少需要一个 IPv4、IPv6 地址或启用 block_other"
  else none

abbrev blockRule : Schema PyException { c : BlockPluginRuleConfig // refuseBlockRule c = none } :=
  ((givenBlockRulePart lib).restrict refuseBlockRule).record (of_decide_eq_true rfl)

def blockRuleOf (c : { c : BlockPluginRuleConfig // refuseBlockRule c = none }) :
    BlockPlugin.BlockPluginRuleConfig where
  matchTags := c.val.matchTags.val
  excludeTags := c.val.excludeTags.val
  ipv4Addresses := c.val.ipv4Addresses
  ipv6Addresses := c.val.ipv6Addresses
  blockOther := c.val.blockOther
  responseTtlSeconds := c.val.responseTtlSeconds.val.toNat
  ttl := by
    have hone := of_decide_eq_true c.val.responseTtlSeconds.property
    omega
  addresses := by
    have haddresses := c.property
    unfold refuseBlockRule at haddresses
    split at haddresses
    · cases haddresses
    · rename_i hgiven
      simp only [not_and_or,Bool.not_eq_true,Bool.not_eq_false'] at hgiven
      exact hgiven

def blockPluginConfig : PluginModel where
  Config := List { c : BlockPluginRuleConfig // refuseBlockRule c = none }
  part := .field "rules" (blockRule lib).list (some [])
  nodup := of_decide_eq_true rfl
  strict := true
  unset := []
  stable := by simp [Part.field,Schema.list]
  plain := by simp [Part.field,Schema.list,Json.plain]

theorem tagList_given {v : Json} {tags : Texts} (h : (tagList lib).read v = .ok tags) :
    ∃ given, tags.val = BlockPlugin.normalizeTagList given := by
  have hread := Schema.normal_read h
  unfold normalizeTagList normalizeBootstrapResolver at hread
  split at hread
  · exact ⟨none,(Except.ok.inj hread).symm⟩
  · obtain ⟨items,-,hread⟩ := Exec.except_bind_eq_ok.mp hread
    rw [stripAll_eq] at hread
    exact ⟨some (items.map lib.str),(Except.ok.inj hread).symm⟩

theorem requiredTags_given {members : List (String × Json)} {name : String} {tags : Texts}
    (h : (Part.field name (requiredTags lib) (some noTexts)).read members = .ok tags) :
    ∃ given, BlockPlugin.readMatchTags given = .ok tags.val := by
  obtain rfl | ⟨v,hread⟩ := Json.field_ok h
  · exact ⟨none,rfl⟩
  · obtain ⟨read,hread,hcheck⟩ := Exec.except_bind_eq_ok.mp hread
    split at hcheck
    · cases hcheck
    · rename_i hne
      cases hcheck
      obtain ⟨given,hgiven⟩ := tagList_given lib hread
      refine ⟨some given,?_⟩
      rw [BlockPlugin.readMatchTags,if_neg (hgiven ▸ hne),hgiven]

theorem addresses_given {members : List (String × Json)} {name subject : String} {version : ℕ}
    {texts : List (List Char)}
    (h : (Part.field name (addresses lib subject version) (some [])).read members = .ok texts) :
    ∃ given, BlockPlugin.normalizeAddresses subject version given = .ok texts := by
  obtain rfl | ⟨v,hread⟩ := Json.field_ok h
  · exact ⟨none,rfl⟩
  · obtain ⟨given,-,hread⟩ := Exec.except_bind_eq_ok.mp hread
    exact ⟨given,hread⟩

/-- A rule of the file is one that `block_plugin` has validated. -/
theorem blockRule_validates {v : Json}
    {c : { c : BlockPluginRuleConfig // refuseBlockRule c = none }}
    (h : (blockRule lib).read v = .ok c) :
    ∃ input, BlockPlugin.BlockPluginRuleConfig.validate input = .ok (blockRuleOf c) := by
  obtain ⟨o,-,hread⟩ := Part.readRecord_ok h
  obtain ⟨given,hread,hcheck⟩ := Exec.except_bind_eq_ok.mp hread
  have hgiven : given = c.val := by
    split at hcheck
    · cases hcheck
      rfl
    · cases hcheck
  rw [hgiven] at hread
  obtain ⟨hread,-⟩ := Part.read_and (Part.read_convert hread)
  obtain ⟨hread,-⟩ := Part.read_and hread
  obtain ⟨hread,hipv6⟩ := Part.read_and hread
  obtain ⟨hread,hipv4⟩ := Part.read_and hread
  obtain ⟨hmatch,hexclude⟩ := Part.read_and hread
  obtain ⟨matchTags,hmatch⟩ := requiredTags_given lib hmatch
  obtain ⟨ipv4Addresses,hipv4⟩ := addresses_given lib hipv4
  obtain ⟨ipv6Addresses,hipv6⟩ := addresses_given lib hipv6
  have hexclude : ∃ given, c.val.excludeTags.val = BlockPlugin.normalizeTagList given := by
    obtain heq | ⟨v,hread⟩ := Json.field_ok hexclude
    · exact ⟨none,congrArg Subtype.val heq⟩
    · exact tagList_given lib hread
  obtain ⟨excludeTags,hexclude⟩ := hexclude
  refine ⟨{ matchTags, excludeTags := some excludeTags, ipv4Addresses := some ipv4Addresses
            ipv6Addresses := some ipv6Addresses, blockOther := c.val.blockOther
            responseTtlSeconds := c.val.responseTtlSeconds.val },?_⟩
  refine Exec.except_bind_eq_ok.mpr ⟨_,hmatch,?_⟩
  refine Exec.except_bind_eq_ok.mpr ⟨_,hipv4,?_⟩
  refine Exec.except_bind_eq_ok.mpr ⟨_,hipv6,?_⟩
  refine (dif_pos (blockRuleOf c).ttl).trans ((dif_pos (blockRuleOf c).addresses).trans ?_)
  simp only [blockRuleOf,hexclude,Option.getD_some]

theorem blockPlugin_validates {v : Json} {rules : (blockPluginConfig lib).Config}
    (h : (blockPluginConfig lib).part.readRecord true v = .ok rules) :
    ∃ inputs : List BlockPlugin.BlockPluginRuleInput,
      inputs.mapM BlockPlugin.BlockPluginRuleConfig.validate = .ok (rules.map blockRuleOf) := by
  obtain ⟨o,-,hread⟩ := Part.readRecord_ok h
  obtain rfl | ⟨v,hread⟩ := Json.field_ok hread
  · exact ⟨[],rfl⟩
  · obtain ⟨items,-,hread⟩ := Exec.except_bind_eq_ok.mp hread
    refine Except.mapM_surjective (List.forall_mem_map.mpr ?_)
    exact (Except.mapM_eq_ok.mp hread).forall_right fun _ _ => blockRule_validates lib

/-! ### Tags and targets -/

structure CloudflareEchPluginConfig extends CloudflareEchPlugin.CloudflareEchPluginConfig where
  matchTags_stripped : StrippedTexts matchTags
  excludeTags_stripped : StrippedTexts excludeTags
  skipTags_stripped : StrippedTexts skipTags

def cloudflareEchPluginConfig : PluginModel where
  Config := CloudflareEchPluginConfig
  part :=
    (((Part.field "match_tags" (tagList lib) (some noTexts)).and
      (.field "exclude_tags" (tagList lib) (some noTexts))).and
      (.field "skip_tags" (tagList lib) (some noTexts))).convert
    (fun ((matchTags,excludeTags),skipTags) =>
      ⟨⟨matchTags.val,excludeTags.val,skipTags.val⟩,Texts.stripped matchTags,
        Texts.stripped excludeTags,Texts.stripped skipTags⟩)
    (fun c => ((⟨c.matchTags,c.matchTags_stripped⟩,⟨c.excludeTags,c.excludeTags_stripped⟩),
      ⟨c.skipTags,c.skipTags_stripped⟩))
    (by intro c; rfl) (by intro c; rfl)
  nodup := of_decide_eq_true rfl
  strict := true
  unset := ⟨{},noTexts_stripped,noTexts_stripped,noTexts_stripped⟩
  stable := by simp [Part.convert,Part.and,Part.field,Schema.stable_kept]
  plain := of_decide_eq_true rfl

structure IpFilterPluginConfig extends SmartDns.IpFilterPluginConfig where
  matchTags_stripped : StrippedTexts matchTags
  excludeTags_stripped : StrippedTexts excludeTags
  whitelistTags_stripped : StrippedTexts whitelistTags
  blacklistTags_stripped : StrippedTexts blacklistTags

def ipFilterPluginConfig : PluginModel where
  Config := IpFilterPluginConfig
  part :=
    ((((Part.field "match_tags" (tagList lib) (some noTexts)).and
      (.field "exclude_tags" (tagList lib) (some noTexts))).and
      (.field "whitelist_tags" (tagList lib) (some noTexts))).and
      (.field "blacklist_tags" (tagList lib) (some noTexts))).convert
    (fun (((matchTags,excludeTags),whitelistTags),blacklistTags) =>
      ⟨⟨matchTags.val,excludeTags.val,whitelistTags.val,blacklistTags.val⟩,Texts.stripped matchTags,
        Texts.stripped excludeTags,Texts.stripped whitelistTags,Texts.stripped blacklistTags⟩)
    (fun c => (((⟨c.matchTags,c.matchTags_stripped⟩,⟨c.excludeTags,c.excludeTags_stripped⟩),
      ⟨c.whitelistTags,c.whitelistTags_stripped⟩),⟨c.blacklistTags,c.blacklistTags_stripped⟩))
    (by intro c; rfl) (by intro c; rfl)
  nodup := of_decide_eq_true rfl
  strict := true
  unset := ⟨{},noTexts_stripped,noTexts_stripped,noTexts_stripped,noTexts_stripped⟩
  stable := by simp [Part.convert,Part.and,Part.field,Schema.stable_kept]
  plain := of_decide_eq_true rfl

structure IpReplaceRuleConfig extends IpReplace.IpReplaceRuleConfig where
  matchTags_stripped : StrippedTexts matchTags
  excludeTags_stripped : StrippedTexts excludeTags

abbrev givenIpReplaceRulePart : Part PyException IpReplaceRuleConfig :=
  (((((Part.field "name" text).and
    (.field "match_tags" (requiredTags lib) (some noTexts))).and
    (.field "exclude_tags" (tagList lib) (some noTexts))).and
    (.field "ipv4_targets" (networks lib 4) (some (noNetworks 4)))).and
    (.field "ipv6_targets" (networks lib 6) (some (noNetworks 6)))).convert
  (fun ((((name,matchTags),excludeTags),ipv4Targets),ipv6Targets) =>
    ⟨⟨name,matchTags.val,excludeTags.val,ipv4Targets.val,ipv6Targets.val,ipv4Targets.property,
      ipv6Targets.property⟩,Texts.stripped matchTags,Texts.stripped excludeTags⟩)
  (fun c => ((((c.name,⟨c.matchTags,c.matchTags_stripped⟩),
    ⟨c.excludeTags,c.excludeTags_stripped⟩),⟨c.ipv4Targets,c.ipv4⟩),⟨c.ipv6Targets,c.ipv6⟩))
  (by intro c; rfl) (by intro c; rfl)

/-- `IpReplaceRuleConfig.validate_targets`. -/
def refuseIpReplaceRule (c : IpReplaceRuleConfig) : Option String :=
  if c.ipv4Targets = [] ∧ c.ipv6Targets = [] then
    some "替换规则至少需要一个 IPv4 或 IPv6 目标 CIDR"
  else none

abbrev ipReplaceRule :
    Schema PyException { c : IpReplaceRuleConfig // refuseIpReplaceRule c = none } :=
  ((givenIpReplaceRulePart lib).restrict refuseIpReplaceRule).record (of_decide_eq_true rfl)

structure IpReplacePluginConfig where
  skipTags : Texts := noTexts
  rules : List { c : IpReplaceRuleConfig // refuseIpReplaceRule c = none } := []

def ipReplacePluginConfig : PluginModel where
  Config := IpReplacePluginConfig
  part :=
    ((Part.field "skip_tags" (tagList lib) (some noTexts)).and
      (.field "rules" (ipReplaceRule lib).list (some []))).convert
    (fun (skipTags,rules) => ⟨skipTags,rules⟩) (fun c => (c.skipTags,c.rules))
    (by intro c; rfl) (by intro c; rfl)
  nodup := of_decide_eq_true rfl
  strict := true
  unset := {}
  stable := by simp [Part.convert,Part.and,Part.field,Schema.stable_kept,Schema.list]
  plain := of_decide_eq_true rfl

/-! ### Sizes -/

/-- A model with one size that is at least 1. -/
def sizedModel (name : String) (size : PosInt) : PluginModel where
  Config := PosInt
  part := .field name (posInt lib) (some size)
  nodup := List.nodup_singleton name
  strict := false
  unset := size
  stable := by simp [Part.field,Schema.stable_kept]
  plain := by simp [Part.field,Schema.check,Schema.lawful,Json.plain]

def cachePluginConfig : PluginModel := sizedModel lib "max_size" cacheSize

def queryLogPluginConfig : PluginModel := sizedModel lib "max_entries" ⟨500,rfl⟩

/-! ### Domains -/

/-- `normalize_domain` of a value that may be no text. -/
def domainText : Json → Except PyException String
  | .str s => (normalizeDomain lib.lower s.toList).map String.ofList
  | _ => .error (attributeError "strip")

def normalizeRedirect (member : String × Json) : Except PyException (String × String) := do
  let source ← domainText lib (.str member.1)
  let target ← domainText lib member.2
  if source = target then .error (.valueError "redirect 源域名与目标域名不能相同")
  else .ok (source,target)

abbrev Redirects := { redirects : List (String × String) // (redirects.map Prod.fst).Nodup }

def gatherRedirects (redirects : List (String × String)) : Redirects :=
  ⟨Keyed.gather Prod.fst (fun old new => (old.1,new.2)) redirects,
    Keyed.gather_distinct (by intro old new; rfl) redirects⟩

def normalizeRedirects : Json → Except PyException Redirects
  | .null => .ok ⟨[],List.nodup_nil⟩
  | .obj keys distinct value => do
    let redirects ← (JsonObject.members ⟨keys,distinct,value⟩).mapM (normalizeRedirect lib)
    .ok (gatherRedirects redirects)
  | _ => .error (typeError "redirects 必须是对象映射")

def redirectsJson (redirects : Redirects) : Json :=
  (JsonObject.ofMembers (redirects.val.map fun r => (r.1,.str r.2)) (by
    rw [List.map_map]
    exact redirects.property)).json

def redirectPluginConfig : PluginModel where
  Config := Redirects
  part := .field "redirects" (.plain (normalizeRedirects lib) redirectsJson)
    (some ⟨[],List.nodup_nil⟩)
  nodup := of_decide_eq_true rfl
  strict := true
  unset := ⟨[],List.nodup_nil⟩
  stable := rfl
  plain := of_decide_eq_true rfl

def normalizeDomains (v : Json) : Except PyException (List String) :=
  if v.isNull then .ok []
  else do
    let items ← iterate v
    items.mapM (domainText lib)

structure SamplePluginConfig where
  domains : List String := ["sample.internal"]
  answerName : String := "sample.static_a"

theorem domainText_sample :
    domainText lib (.str "sample.internal") = .ok "sample.internal" := by
  have hascii : ("sample.internal".toList.all fun c => c.toNat < 128) = true := by decide
  have hlower : lib.lower "sample.internal".toList = "sample.internal".toList :=
    lib.lowersAscii _ fun c hc => of_decide_eq_true (List.all_eq_true.mp hascii c hc)
  have hnormal : normalizeDomain lib.lower "sample.internal".toList =
      .ok "sample.internal".toList := by
    unfold normalizeDomain
    have hstripped : PyText.rstripBy isDot (PyText.strip "sample.internal".toList) =
      "sample.internal".toList := by decide
    rw [hstripped,hlower]
    rfl
  rw [domainText,hnormal]
  rfl

def samplePluginConfig : PluginModel where
  Config := SamplePluginConfig
  part :=
    ((Part.field "domains" (.plain (normalizeDomains lib) textsJson) (some ["sample.internal"])).and
      (.field "answer_name" text (some "sample.static_a"))).convert
    (fun (domains,answerName) => ⟨domains,answerName⟩) (fun c => (c.domains,c.answerName))
    (by intro c; rfl) (by intro c; rfl)
  nodup := of_decide_eq_true rfl
  strict := false
  unset := {}
  stable := by
    refine ⟨?_,trivial⟩
    change [Json.str "sample.internal"].mapM (domainText lib) = _
    rw [List.mapM_cons,domainText_sample]
    rfl
  plain := of_decide_eq_true rfl

structure SamplePluginVariables where
  address : String := "127.0.0.1"
  ttl : ℤ := 30

def samplePluginVariables : PluginModel where
  Config := SamplePluginVariables
  part :=
    ((Part.field "address" text (some "127.0.0.1")).and
      (.field "ttl" (int lib) (some 30))).convert
    (fun (address,ttl) => ⟨address,ttl⟩) (fun c => (c.address,c.ttl))
    (by intro c; rfl) (by intro c; rfl)
  nodup := of_decide_eq_true rfl
  strict := false
  unset := {}
  stable := by simp [Part.convert,Part.and,Part.field,Schema.stable_kept]
  plain := of_decide_eq_true rfl

/-! ### Speed tests -/

structure SpeedTestFallbackRuleConfig extends SpeedTest.SpeedTestFallbackRuleConfig where
  matchTags_stripped : StrippedTexts matchTags
  excludeTags_stripped : StrippedTexts excludeTags

def fallbackAddress : String := "fallback 地址必须是 "

abbrev givenFallbackRulePart : Part PyException SpeedTestFallbackRuleConfig :=
  ((((Part.field "match_tags" (requiredTags lib) (some noTexts)).and
    (.field "exclude_tags" (tagList lib) (some noTexts))).and
    (.field "ipv4_addresses" (addresses lib fallbackAddress 4) (some []))).and
    (.field "ipv6_addresses" (addresses lib fallbackAddress 6) (some []))).convert
  (fun (((matchTags,excludeTags),ipv4Addresses),ipv6Addresses) =>
    ⟨⟨matchTags.val,excludeTags.val,ipv4Addresses,ipv6Addresses⟩,Texts.stripped matchTags,
      Texts.stripped excludeTags⟩)
  (fun c => (((⟨c.matchTags,c.matchTags_stripped⟩,⟨c.excludeTags,c.excludeTags_stripped⟩),
    c.ipv4Addresses),c.ipv6Addresses))
  (by intro c; rfl) (by intro c; rfl)

/-- `SpeedTestFallbackRuleConfig.validate_addresses`. -/
def refuseFallbackRule (c : SpeedTestFallbackRuleConfig) : Option String :=
  if c.ipv4Addresses = [] ∧ c.ipv6Addresses = [] then
    some "fallback 规则至少需要一个 IPv4 或 IPv6 地址"
  else none

abbrev fallbackRule :
    Schema PyException { c : SpeedTestFallbackRuleConfig // refuseFallbackRule c = none } :=
  ((givenFallbackRulePart lib).restrict refuseFallbackRule).record (of_decide_eq_true rfl) false

def isNonnegative : Double → Bool
  | .finite value => 0 ≤ value
  | .infinite negative => !negative

abbrev NonnegDouble := { x : Double // isNonnegative x = true }

def milliseconds (value : ℚ) (h : 0 ≤ value) : NonnegDouble := ⟨.finite value,decide_eq_true h⟩

/-- `Field(ge=0.0)`. -/
abbrev nonnegFloat : Schema PyException NonnegDouble :=
  (float lib).restrict isNonnegative
    "Input should be greater than or equal to 0"

abbrev PingCount := { n : ℤ // decide (1 ≤ n ∧ n ≤ 10) = true }

/-- `Field(ge=1, le=10)`. -/
abbrev pingCount : Schema PyException PingCount :=
  (int lib).restrict (fun n => 1 ≤ n ∧ n ≤ 10) "Input should be between 1 and 10"

structure SpeedTestPluginConfig where
  cacheTtlSeconds : PosInt := ⟨900,rfl⟩
  cacheMaxsize : PosInt := ⟨4096,rfl⟩
  maxConcurrency : PosInt := ⟨64,rfl⟩
  probeTimeout : PosDouble := seconds (3/2) (by norm_num)
  pingCount : PingCount := ⟨1,rfl⟩
  pingPrivileged : Bool := false
  responseIpLimit : PosInt := ⟨2,rfl⟩
  responseTtlSeconds : PosInt := ⟨60,rfl⟩
  rttToleranceMs : NonnegDouble := milliseconds 50 (by norm_num)
  rttGapThresholdMs : NonnegDouble := milliseconds 20 (by norm_num)
  skipTags : Texts := noTexts
  noSpeedtestTags : Texts := noTexts
  fallbackRules : List { c : SpeedTestFallbackRuleConfig // refuseFallbackRule c = none } := []

abbrev speedTestPart : Part PyException SpeedTestPluginConfig :=
  let unset : SpeedTestPluginConfig := {}
  (((((((((((((Part.field "cache_ttl_seconds" (posInt lib) (some unset.cacheTtlSeconds)).and
    (.field "cache_maxsize" (posInt lib) (some unset.cacheMaxsize))).and
    (.field "max_concurrency" (posInt lib) (some unset.maxConcurrency))).and
    (.field "probe_timeout" (posFloat lib) (some unset.probeTimeout))).and
    (.field "ping_count" (pingCount lib) (some unset.pingCount))).and
    (.field "ping_privileged" (bool lib) (some unset.pingPrivileged))).and
    (.field "response_ip_limit" (posInt lib) (some unset.responseIpLimit))).and
    (.field "response_ttl_seconds" (posInt lib) (some unset.responseTtlSeconds))).and
    (.field "rtt_tolerance_ms" (nonnegFloat lib) (some unset.rttToleranceMs))).and
    (.field "rtt_gap_threshold_ms" (nonnegFloat lib) (some unset.rttGapThresholdMs))).and
    (.field "skip_tags" (tagList lib) (some unset.skipTags))).and
    (.field "no_speedtest_tags" (tagList lib) (some unset.noSpeedtestTags))).and
    (.field "fallback_rules" (fallbackRule lib).list (some unset.fallbackRules))).convert
  (fun ((((((((((((cacheTtlSeconds,cacheMaxsize),maxConcurrency),probeTimeout),pingCount),
      pingPrivileged),responseIpLimit),responseTtlSeconds),rttToleranceMs),rttGapThresholdMs),
      skipTags),noSpeedtestTags),fallbackRules) =>
    ⟨cacheTtlSeconds,cacheMaxsize,maxConcurrency,probeTimeout,pingCount,pingPrivileged,
      responseIpLimit,responseTtlSeconds,rttToleranceMs,rttGapThresholdMs,skipTags,noSpeedtestTags,
      fallbackRules⟩)
  (fun c => ((((((((((((c.cacheTtlSeconds,c.cacheMaxsize),c.maxConcurrency),c.probeTimeout),
    c.pingCount),c.pingPrivileged),c.responseIpLimit),c.responseTtlSeconds),c.rttToleranceMs),
    c.rttGapThresholdMs),c.skipTags),c.noSpeedtestTags),c.fallbackRules))
  (by intro c; rfl) (by intro c; rfl)

def speedTestPluginConfig : PluginModel where
  Config := SpeedTestPluginConfig
  part := speedTestPart lib
  nodup := of_decide_eq_true rfl
  strict := false
  unset := {}
  stable := by
    simp [speedTestPart,Part.convert,Part.and,Part.field,Schema.stable_kept,Schema.list,
      Schema.check,Schema.plain,seconds,milliseconds,lib.floatJson_finite,lib.floatOf_float]
  plain := by
    have hfinite : ∀ value, (lib.floatJson (.finite value)).plain 63 = true := by
      intro value
      rw [lib.floatJson_finite]
      rfl
    intro member hmember
    refine plain_and (plain_and (plain_and (plain_and (plain_and (plain_and (plain_and (plain_and
      (plain_and (plain_and (plain_and (plain_and (plain_field ?_) (plain_field ?_))
        (plain_field ?_)) (plain_field ?_)) (plain_field ?_)) (plain_field ?_)) (plain_field ?_))
        (plain_field ?_)) (plain_field ?_)) (plain_field ?_)) (plain_field ?_)) (plain_field ?_))
        (plain_field ?_) member hmember
    all_goals first
      | rfl
      | exact hfinite _

/-! ### The plugins -/

/-- `config_model`. -/
def configModel : StaticPlugin → PluginModel
  | .block => blockPluginConfig lib
  | .cache => cachePluginConfig lib
  | .cloudflareEch => cloudflareEchPluginConfig lib
  | .https => emptyModel
  | .ipFilter => ipFilterPluginConfig lib
  | .ipReplace => ipReplacePluginConfig lib
  | .queryLog => queryLogPluginConfig lib
  | .redirect => redirectPluginConfig lib
  | .sample => samplePluginConfig lib
  | .speedtest => speedTestPluginConfig lib
  | .tag => emptyModel

/-- `variables_model`. -/
def variablesModel : StaticPlugin → PluginModel
  | .sample => samplePluginVariables lib
  | _ => emptyModel

end SmartDns.PluginModels
