import SmartDns.IpReplace.Replacement
import SmartDns.Lib.Collect
import SmartDns.Lib.Schema
import SmartDns.Pipeline.Outcome
import SmartDns.Plugin.Hooks
set_option autoImplicit false

/-!
`block_plugin`: the first rule for the tags of a request or of its last result answers it with
the addresses it was configured with, or with nothing.
-/

namespace SmartDns

namespace BlockPlugin

open Collect (collect)
open IpText (Address ipAddress)
open PyText (strip)

/-! ### The configuration -/

/-- A rule as it is given: what is missing, what is null, and the texts of what is listed. -/
structure BlockPluginRuleInput where
  matchTags : Option (Option (List String)) := none
  excludeTags : Option (Option (List String)) := none
  ipv4Addresses : Option (Option (List (List Char))) := none
  ipv6Addresses : Option (Option (List (List Char))) := none
  blockOther : Bool := false
  responseTtlSeconds : ℤ := 86400

structure BlockPluginRuleConfig where
  matchTags : List String
  excludeTags : List String
  ipv4Addresses : List (List Char)
  ipv6Addresses : List (List Char)
  blockOther : Bool
  responseTtlSeconds : ℕ
  ttl : 1 ≤ responseTtlSeconds
  addresses : ipv4Addresses ≠ [] ∨ ipv6Addresses ≠ [] ∨ blockOther = true

/-- The same loop as that of the rules' `normalize_tags`. -/
def normalizeTagList : Option (List String) → List String := Rules.normalizeTags

def family (version : ℕ) : String := if version = 4 then "IPv4" else "IPv6"

/-- The error for another version begins with `subject`. -/
def readAddress (subject : String) (version : ℕ) (item : List Char) :
    Except PyException (Option (List Char)) :=
  match ipAddress (strip item) with
  | none => .error (.valueError "does not appear to be an IPv4 or IPv6 address")
  | some address =>
    if address.version ≠ version then .error (.valueError (subject ++ family version))
    else .ok (some address.compressed)

/-- `_normalize_addresses`, of which two plugins have one each. -/
def normalizeAddresses (subject : String) (version : ℕ) : Option (List (List Char)) →
    Except PyException (List (List Char))
  | none => .ok []
  | some value => collect (readAddress subject version) value

def blockAddress : String := "静态应答地址必须是 "

/-- A default is taken as it is. -/
def readMatchTags : Option (Option (List String)) → Except PyException (List String)
  | none => .ok []
  | some value =>
    if normalizeTagList value = [] then
      .error (.valueError "List should have at least 1 item after validation, not 0")
    else .ok (normalizeTagList value)

def BlockPluginRuleConfig.validate (input : BlockPluginRuleInput) :
    Except PyException BlockPluginRuleConfig := do
  let matchTags ← readMatchTags input.matchTags
  let ipv4Addresses ← normalizeAddresses blockAddress 4 (input.ipv4Addresses.getD none)
  let ipv6Addresses ← normalizeAddresses blockAddress 6 (input.ipv6Addresses.getD none)
  if ttl : 1 ≤ input.responseTtlSeconds.toNat then
    if addresses : ipv4Addresses ≠ [] ∨ ipv6Addresses ≠ [] ∨ input.blockOther = true then
      .ok
        { matchTags, ipv4Addresses, ipv6Addresses, ttl, addresses
          excludeTags := normalizeTagList (input.excludeTags.getD none)
          blockOther := input.blockOther
          responseTtlSeconds := input.responseTtlSeconds.toNat }
    else .error (.valueError "静态应答规则至少需要一个 IPv4、IPv6 地址或启用 block_other")
  else .error (.valueError "Input should be greater than or equal to 1")

/-! ### The hooks -/

def resolveRule (tags : Finset String) (rdtype : RdataType) :
    List BlockPluginRuleConfig → Option BlockPluginRuleConfig
  | [] => none
  | rule :: rules =>
    if hasAnyTag tags rule.excludeTags then resolveRule tags rdtype rules
    else if !hasAnyTag tags rule.matchTags then resolveRule tags rdtype rules
    else if rdtype = RdataType.A ∧ rule.ipv4Addresses ≠ [] then some rule
    else if rdtype = RdataType.AAAA ∧ rule.ipv6Addresses ≠ [] then some rule
    else if rdtype ∉ addressTypes ∧ rule.blockOther = true then some rule
    else resolveRule tags rdtype rules

section
variable {E W : Type} (codec : Codec W) (texts : RecordText)
  (nameFromText : List Char → Except PyException Name) (now : ℚ)
  (rules : List BlockPluginRuleConfig)

def buildRecord (qname : List Char) (rdtype : RdataType) (rule : BlockPluginRuleConfig) :
    Except PyException RRset := do
  let name ← nameFromText qname
  if rdtype = RdataType.A then
    RRset.fromTextList texts name rule.responseTtlSeconds RdataClass.IN RdataType.A
      rule.ipv4Addresses
  else
    RRset.fromTextList texts name rule.responseTtlSeconds RdataClass.IN RdataType.AAAA
      rule.ipv6Addresses

/-- The response that `_apply_static_response` builds. -/
def staticResponse (request : Message) (question : Question) (rule : BlockPluginRuleConfig) :
    Except PyException Message := do
  let response ← makeResponse request
  let addresses := if question.rdtype = RdataType.A then rule.ipv4Addresses
    else if question.rdtype = RdataType.AAAA then rule.ipv6Addresses
    else []
  if addresses = [] then pure response
  else
    let rrset ← buildRecord texts nameFromText question.name.toText question.rdtype rule
    pure { response with answer := response.answer ++ [rrset] }

/-- What `_apply_static_response` does with the response. -/
def setResponse (response : Message) : Exec PyException (RequestContext E) Unit := do
  Exec.modify fun context => { context with finalResponse := some response }
  let context ← Exec.get
  let answer ← Exec.ofExcept (buildAnswerFromResponse codec now context.request response)
  Exec.modify fun context => { context with finalAnswer := some answer, stopProcessing := true }

def applyStaticResponse (tags : Finset String) : Exec PyException (RequestContext E) Unit := do
  let context ← Exec.get
  let question ← Exec.ofExcept (firstQuestion context.request)
  match resolveRule tags question.rdtype rules with
  | none => pure ()
  | some rule =>
    let response ← Exec.ofExcept (staticResponse texts nameFromText context.request question rule)
    setResponse codec now response

def responseTags (context : RequestContext E) : Finset String :=
  match context.upstreamResults.getLast? with
  | none => context.tags
  | some result => context.tags ∪ result.tags

def onRequest : Exec PyException (RequestContext E) Unit := do
  let context ← Exec.get
  applyStaticResponse codec texts nameFromText now rules context.tags

def onResponse : Exec PyException (RequestContext E) Unit := do
  let context ← Exec.get
  applyStaticResponse codec texts nameFromText now rules (responseTags context)

end

/-! ### What a rule is for -/

/-- One of the given tags is there. -/
def TagGiven (tags : Finset String) (given : Option (Option (List String))) : Prop :=
  ∃ items, given = some (some items) ∧
    ∃ item ∈ items, Rules.strip item ≠ "" ∧ Rules.strip item ∈ tags

/-- The addresses of given texts, as they first occur. -/
def firstAddresses (given : Option (List (List Char))) : List Address :=
  ((given.getD []).filterMap fun item => ipAddress (strip item)).foldl Keyed.insertNew []

/-- The addresses that are given for a type. -/
def BlockPluginRuleInput.configured (input : BlockPluginRuleInput) (rdtype : RdataType) :
    List Address :=
  if rdtype = RdataType.A then firstAddresses (input.ipv4Addresses.getD none)
  else if rdtype = RdataType.AAAA then firstAddresses (input.ipv6Addresses.getD none)
  else []

structure BlockPluginRuleInput.AnswersFor (input : BlockPluginRuleInput) (tags : Finset String)
    (rdtype : RdataType) : Prop where
  included : TagGiven tags input.matchTags
  excluded : ¬ TagGiven tags input.excludeTags
  offered : input.configured rdtype ≠ [] ∨ rdtype ∉ addressTypes ∧ input.blockOther = true

/-- What validation has made of a rule. -/
structure Reads (input : BlockPluginRuleInput) (rule : BlockPluginRuleConfig) : Prop where
  matchTags : rule.matchTags = normalizeTagList (input.matchTags.getD none)
  excludeTags : rule.excludeTags = normalizeTagList (input.excludeTags.getD none)
  ipv4Addresses : rule.ipv4Addresses =
    (firstAddresses (input.ipv4Addresses.getD none)).map Address.compressed
  ipv6Addresses : rule.ipv6Addresses =
    (firstAddresses (input.ipv6Addresses.getD none)).map Address.compressed
  versions : ∀ rdtype, ∀ ip ∈ input.configured rdtype, ip.version = addressVersion rdtype
  blockOther : rule.blockOther = input.blockOther
  ttl : rule.responseTtlSeconds = input.responseTtlSeconds

theorem mem_normalizeTagsFrom {tag : String} {seen items : List String} :
    tag ∈ Rules.normalizeTagsFrom seen items ↔
      tag ≠ "" ∧ tag ∉ seen ∧ ∃ item ∈ items, Rules.strip item = tag := by
  induction items generalizing seen with
  | nil => simp [Rules.normalizeTagsFrom]
  | cons item items ih =>
    unfold Rules.normalizeTagsFrom
    simp only []
    split
    · rename_i hskipped
      rw [ih]
      refine and_congr_right fun hne => and_congr_right fun hnew => ?_
      rw [List.exists_mem_cons_iff]
      refine (or_iff_right ?_).symm
      rintro rfl
      exact hskipped.elim hne hnew
    · rename_i hkept
      rw [not_or] at hkept
      rw [List.mem_cons,ih,List.mem_cons,not_or,List.exists_mem_cons_iff]
      constructor
      · intro h
        obtain rfl | ⟨hne,⟨-,hnew⟩,hitem⟩ := h
        · exact ⟨hkept.1,hkept.2,.inl rfl⟩
        · exact ⟨hne,hnew,.inr hitem⟩
      · intro h
        obtain ⟨hne,hnew,heq | hitem⟩ := h
        · exact .inl heq.symm
        · by_cases heq : tag = Rules.strip item
          · exact .inl heq
          · exact .inr ⟨hne,⟨heq,hnew⟩,hitem⟩

theorem hasAnyTag_normalize {tags : Finset String} {given : Option (Option (List String))} :
    hasAnyTag tags (normalizeTagList (given.getD none)) = true ↔ TagGiven tags given := by
  obtain _ | _ | items := given
  · simp [hasAnyTag,normalizeTagList,Rules.normalizeTags,TagGiven]
  · simp [hasAnyTag,normalizeTagList,Rules.normalizeTags,TagGiven]
  · have hmem (tag : String) : tag ∈ normalizeTagList (some items) ↔
        tag ≠ "" ∧ ∃ item ∈ items, Rules.strip item = tag := by
      simp [normalizeTagList,Rules.normalizeTags,mem_normalizeTagsFrom]
    simp only [hasAnyTag,List.any_eq_true,decide_eq_true_eq,Option.getD_some,hmem,TagGiven]
    constructor
    · intro h
      obtain ⟨_,⟨hne,item,hitem,rfl⟩,htag⟩ := h
      exact ⟨items,rfl,item,hitem,hne,htag⟩
    · intro h
      obtain ⟨_,heq,item,hitem,hne,htag⟩ := h
      cases heq
      exact ⟨_,⟨hne,item,hitem,rfl⟩,htag⟩

theorem readAddress_ok {subject : String} {version : ℕ} {item : List Char}
    {read : Option (List Char)} (h : readAddress subject version item = .ok read) :
    ∃ address, ipAddress (strip item) = some address ∧ address.version = version ∧
      read = some address.compressed := by
  unfold readAddress at h
  split at h
  · cases h
  · rename_i address haddress
    split at h
    · cases h
    · rename_i hversion
      cases h
      exact ⟨address,haddress,not_not.mp hversion,rfl⟩

theorem readAddresses_ok {subject : String} {version : ℕ} {value texts : List (List Char)}
    (h : value.map (readAddress subject version) = texts.map fun text => .ok (some text)) :
    texts = (value.filterMap fun item => ipAddress (strip item)).map Address.compressed ∧
      ∀ ip ∈ value.filterMap fun item => ipAddress (strip item), ip.version = version := by
  induction value generalizing texts with
  | nil =>
    obtain rfl := List.map_eq_nil_iff.mp h.symm
    simp
  | cons item value ih =>
    cases texts with
    | nil => cases h
    | cons text texts =>
      rw [List.map_cons,List.map_cons,List.cons.injEq] at h
      obtain ⟨address,haddress,hversion,hread⟩ := readAddress_ok h.1
      obtain ⟨htexts,hversions⟩ := ih h.2
      rw [List.filterMap_cons_some (f:=fun item => ipAddress (strip item)) haddress,List.map_cons,
        ← htexts,← Option.some.inj hread]
      exact ⟨rfl,List.forall_mem_cons.mpr ⟨hversion,hversions⟩⟩

theorem normalizeAddresses_ok {subject : String} {version : ℕ}
    {given : Option (List (List Char))} {addresses : List (List Char)}
    (h : normalizeAddresses subject version given = .ok addresses) :
    addresses = (firstAddresses given).map Address.compressed ∧
      ∀ ip ∈ firstAddresses given, ip.version = version := by
  cases given with
  | none =>
    cases h
    exact ⟨rfl,by simp [firstAddresses]⟩
  | some value =>
    have hsome : ∀ item ∈ value, readAddress subject version item ≠ .ok none := by
      intro item _ hnone
      obtain ⟨_,_,_,hread⟩ := readAddress_ok hnone
      cases hread
    obtain ⟨texts,hmap,hfirst⟩ := @Collect.collectFrom_first _ _ _ _
      (readAddress subject version) [] _ [] value (fun _ => Iff.rfl) hsome h
    obtain ⟨htexts,hversions⟩ := readAddresses_ok hmap
    refine ⟨?_,fun ip hip => ?_⟩
    · rw [htexts] at hfirst
      exact hfirst.symm.trans (Keyed.foldl_insertNew_map IpReplace.compressed_injective _ [])
    · obtain hnil | hmem := Keyed.mem_foldl_insertNew.mp hip
      · cases hnil
      · exact hversions ip hmem

theorem readMatchTags_ok {given : Option (Option (List String))} {tags : List String}
    (h : readMatchTags given = .ok tags) : tags = normalizeTagList (given.getD none) := by
  cases given with
  | none =>
    cases h
    rfl
  | some value =>
    unfold readMatchTags at h
    simp only at h
    split at h
    · cases h
    · cases h
      rfl

theorem validate_reads {input : BlockPluginRuleInput} {rule : BlockPluginRuleConfig}
    (h : BlockPluginRuleConfig.validate input = .ok rule) : Reads input rule := by
  unfold BlockPluginRuleConfig.validate at h
  obtain ⟨matchTags,hmatch,h⟩ := Exec.except_bind_eq_ok.mp h
  obtain ⟨ipv4Addresses,hipv4,h⟩ := Exec.except_bind_eq_ok.mp h
  obtain ⟨ipv6Addresses,hipv6,h⟩ := Exec.except_bind_eq_ok.mp h
  obtain ⟨hipv4,hversion4⟩ := normalizeAddresses_ok hipv4
  obtain ⟨hipv6,hversion6⟩ := normalizeAddresses_ok hipv6
  split at h
  · rename_i httl
    split at h
    · cases h
      refine ⟨readMatchTags_ok hmatch,rfl,hipv4,hipv6,fun rdtype ip hip => ?_,rfl,?_⟩
      · unfold BlockPluginRuleInput.configured at hip
        split at hip
        · rename_i hrdtype
          rw [hversion4 ip hip,addressVersion,if_pos hrdtype]
        · rename_i hrdtype
          split at hip
          · rw [hversion6 ip hip,addressVersion,if_neg hrdtype]
          · cases hip
      · simp only
        omega
    · cases h
  · cases h

/-! ### Which rule is found -/

theorem Reads.answersFor_iff {input : BlockPluginRuleInput} {rule : BlockPluginRuleConfig}
    (h : Reads input rule) {tags : Finset String} {rdtype : RdataType} :
    input.AnswersFor tags rdtype ↔
      hasAnyTag tags rule.excludeTags = false ∧ hasAnyTag tags rule.matchTags = true ∧
        (rdtype = RdataType.A ∧ rule.ipv4Addresses ≠ [] ∨
          rdtype = RdataType.AAAA ∧ rule.ipv6Addresses ≠ [] ∨
          rdtype ∉ addressTypes ∧ rule.blockOther = true) := by
  have hoffered : (input.configured rdtype ≠ [] ∨ rdtype ∉ addressTypes ∧ input.blockOther = true) ↔
      (rdtype = RdataType.A ∧ rule.ipv4Addresses ≠ [] ∨
        rdtype = RdataType.AAAA ∧ rule.ipv6Addresses ≠ [] ∨
        rdtype ∉ addressTypes ∧ rule.blockOther = true) := by
    have hne (ips : List Address) : ips.map Address.compressed ≠ [] ↔ ips ≠ [] :=
      not_congr List.map_eq_nil_iff
    rw [h.ipv4Addresses,h.ipv6Addresses,h.blockOther,hne,hne,← or_assoc]
    refine or_congr_left ?_
    unfold BlockPluginRuleInput.configured
    by_cases hA : rdtype = RdataType.A
    · have hother : RdataType.A ≠ RdataType.AAAA := by decide
      simp [hA,hother]
    · by_cases hAAAA : rdtype = RdataType.AAAA
      · have hother : RdataType.AAAA ≠ RdataType.A := by decide
        simp [hAAAA,hother]
      · simp [hA,hAAAA]
  rw [h.excludeTags,h.matchTags,← hoffered,hasAnyTag_normalize,← Bool.not_eq_true,
    hasAnyTag_normalize]
  constructor
  · intro h
    exact ⟨h.excluded,h.included,h.offered⟩
  · intro h
    exact ⟨h.2.1,h.1,h.2.2⟩

theorem resolveRule_found {tags : Finset String} {rdtype : RdataType}
    {rule : BlockPluginRuleConfig} {input : BlockPluginRuleInput} (hreads : Reads input rule)
    (h : input.AnswersFor tags rdtype) (rules : List BlockPluginRuleConfig) :
    resolveRule tags rdtype (rule :: rules) = some rule := by
  obtain ⟨hexcluded,hincluded,hoffered⟩ := hreads.answersFor_iff.mp h
  unfold resolveRule
  rw [hexcluded,hincluded]
  obtain hA | hAAAA | hother := hoffered
  · simp [hA]
  · simp [hAAAA]
  · simp [hother]

theorem resolveRule_skipped {tags : Finset String} {rdtype : RdataType}
    {rule : BlockPluginRuleConfig} {input : BlockPluginRuleInput} (hreads : Reads input rule)
    (h : ¬ input.AnswersFor tags rdtype) (rules : List BlockPluginRuleConfig) :
    resolveRule tags rdtype (rule :: rules) = resolveRule tags rdtype rules := by
  rw [hreads.answersFor_iff] at h
  conv_lhs => unfold resolveRule
  cases hexcluded : hasAnyTag tags rule.excludeTags with
  | true => rfl
  | false =>
    cases hincluded : hasAnyTag tags rule.matchTags with
    | false => rfl
    | true =>
      have hoffered := fun hoffered => h ⟨hexcluded,hincluded,hoffered⟩
      rw [imp_false,not_or,not_or] at hoffered
      obtain ⟨hA,hAAAA,hother⟩ := hoffered
      simp only [Bool.false_eq_true,if_false,Bool.not_true,if_neg hA,if_neg hAAAA,if_neg hother]

theorem resolveRule_skips {inputs : List BlockPluginRuleInput}
    {rules : List BlockPluginRuleConfig} {tags : Finset String} {rdtype : RdataType}
    (hreads : List.Forall₂ Reads inputs rules)
    (h : ∀ input ∈ inputs, ¬ input.AnswersFor tags rdtype) (rest : List BlockPluginRuleConfig) :
    resolveRule tags rdtype (rules ++ rest) = resolveRule tags rdtype rest := by
  induction hreads with
  | nil => rfl
  | cons hread _ ih =>
    obtain ⟨hinput,h⟩ := List.forall_mem_cons.mp h
    exact (resolveRule_skipped hread hinput _).trans (ih h)

/-! ### What the hooks answer -/

/-- dnspython reads no address with a scope. -/
def RefusesScopes (texts : RecordText) : Prop :=
  ∀ address : IpText.IPv6Address, address.scopeId ≠ none →
    ∃ e, texts.fromText RdataClass.IN RdataType.AAAA (Address.v6 address).compressed = .error e

def Scopeless (ips : List Address) : Prop := ∀ address, .v6 address ∈ ips → address.scopeId = none

theorem not_scopeless {ips : List Address} (h : ¬ Scopeless ips) :
    ∃ address, .v6 address ∈ ips ∧ address.scopeId ≠ none := by
  obtain ⟨address,h⟩ := not_forall.mp h
  exact ⟨address,Classical.not_imp.mp h⟩

section
variable {E W : Type} {codec : Codec W} {texts : RecordText}
  {nameFromText : List Char → Except PyException Name} {now : ℚ}
  {rules : List BlockPluginRuleConfig} {request : Message} {q : Question}
  {input : BlockPluginRuleInput} {rule : BlockPluginRuleConfig}

/-- The reply with the given addresses, or with none. -/
structure Says (request : Message) (q : Question) (input : BlockPluginRuleInput)
    (response : Message) : Prop where
  reply : ∃ section', response = (errorReply request Rcode.NOERROR).withAnswer section'
  records : q.rdtype ∈ addressTypes → ∃ rrset, response.answer = [rrset] ∧ rrset.OfAddresses ∧
    rrset.name = q.name ∧ rrset.rdtype = q.rdtype ∧ rrset.ips = input.configured q.rdtype ∧
    rrset.ttl = input.responseTtlSeconds
  empty : q.rdtype ∉ addressTypes → response.answer = []

/-- The answer that is built from it has its addresses, for their time. -/
structure Repeats (now : ℚ) (response : Message) (answer : Answer) : Prop where
  rrset : answer.rrset = response.answer.head?
  expiration : ∀ rrset, answer.rrset = some rrset → answer.expiration = now+rrset.ttl

theorem fromTextList_scoped {ips : List Address} (hscopes : RefusesScopes texts)
    (h : ¬ Scopeless ips) (name : Name) (ttl : ℕ) :
    ∃ e, RRset.fromTextList texts name ttl RdataClass.IN RdataType.AAAA
      (ips.map Address.compressed) = .error e := by
  obtain ⟨address,hmem,hscope⟩ := not_scopeless h
  unfold RRset.fromTextList
  cases hread : (ips.map Address.compressed).mapM
      (texts.fromText RdataClass.IN RdataType.AAAA) with
  | error e => exact ⟨e,rfl⟩
  | ok records =>
    obtain ⟨record,-,hrecord⟩ := (Exec.except_mapM_mem hread).1 _ (List.mem_map_of_mem hmem)
    obtain ⟨e,he⟩ := hscopes address hscope
    rw [he] at hrecord
    cases hrecord

variable (now) in
/-- The section with one rrset of the asked type leads to this rrset. -/
theorem buildAnswer_records (hasked : request.question = [q]) {rrset : RRset}
    (hrrset : rrset.OfAddresses) (hname : rrset.name = q.name) (htype : rrset.rdtype = q.rdtype)
    (hopcode : request.opcode = Opcode.QUERY) (httl : rrset.ttl ≤ maxTtl)
    (hencodes : codec.Encodes ((errorReply request Rcode.NOERROR).withAnswer [rrset])) :
    ∃ answer, buildAnswerFromResponse codec now request
        ((errorReply request Rcode.NOERROR).withAnswer [rrset]) = .ok answer ∧
      answer.rrset = some rrset ∧ answer.expiration = now+rrset.ttl := by
  let response := (errorReply request Rcode.NOERROR).withAnswer [rrset]
  have hmerged : response.merged = response :=
    Message.Indexed.merged_eq ⟨List.nodup_singleton _,List.nodup_nil,List.nodup_nil⟩
  have hfirst : firstQuestion request = .ok q := by
    rw [firstQuestion,hasked]
  have haddress : q.rdtype ∈ addressTypes := htype ▸ hrrset.rdtype
  have hresolves : ∃ chain, resolveChaining response.merged = .ok chain ∧
      chain.answer.or response.merged.answer.head? = some rrset ∧
      builtLifetime response.merged chain = rrset.ttl := by
    rw [hmerged]
    by_cases hclass : q.rdclass = RdataClass.IN
    · have hfound : findRRset [rrset] q.name q.rdclass q.rdtype = some rrset := by
        have hkey : rrkey q.name q.rdclass q.rdtype = rrset.key := by
          rw [RRset.key,hname,htype,hclass,hrrset.rdclass,hrrset.covers]
          rfl
        rw [findRRset,hkey]
        exact @Keyed.lookup_middle _ _ _ RRset.key [] [] rrset (List.nodup_singleton _)
      refine ⟨⟨q.name,some rrset,rrset.ttl,[]⟩,resolveChaining_ok.mpr
        ⟨hopcode,rfl,q,hasked,_,?_,?_,negativeTtl_some rfl⟩,rfl,rfl⟩
      · change followChain [rrset] q maxChain q.name maxTtl [] = _
        rw [maxChain,followChain,hfound]
        simp only [Nat.min_eq_right httl]
      · exact fun h => absurd h.1 (show Rcode.NOERROR ≠ Rcode.NXDOMAIN by decide)
    · have hnone (rdtype : RdataType) : findRRset [rrset] q.name q.rdclass rdtype = none := by
        refine Keyed.lookup_none_iff.mpr fun hmem => hclass ?_
        have hkey := List.mem_singleton.mp hmem
        exact (congrArg RRKey.rdclass hkey).trans hrrset.rdclass
      refine ⟨⟨q.name,none,maxTtl,[]⟩,resolveChaining_ok.mpr ⟨hopcode,rfl,q,hasked,
        ⟨q.name,none,maxTtl,[]⟩,?_,by simp,?_⟩,rfl,rfl⟩
      · change followChain [rrset] q maxChain q.name maxTtl [] = _
        rw [maxChain,followChain,hnone]
        simp only [hnone,ite_self]
      · simp [negativeTtl,response,errorReply,Message.withAnswer,soaAbove_nil]
  obtain ⟨chain,hchain,hanswer,hlifetime⟩ := hresolves
  obtain ⟨answer,hbuilt⟩ := (buildAnswer_builds_iff hfirst).mpr ⟨hencodes,chain,hchain⟩
  obtain ⟨chain',-,hchain',-,hexpiration,hrrset'⟩ := buildAnswer_ok hbuilt
  obtain rfl := Except.ok.inj (hchain'.symm.trans hchain)
  exact ⟨answer,hbuilt,hrrset'.trans hanswer,by rw [hexpiration,hlifetime]⟩

theorem configured_other (h : q.rdtype ∉ addressTypes) : input.configured q.rdtype = [] := by
  have hA : q.rdtype ≠ RdataType.A := by
    intro heq
    rw [heq] at h
    exact h (by decide)
  have hAAAA : q.rdtype ≠ RdataType.AAAA := by
    intro heq
    rw [heq] at h
    exact h (by decide)
  rw [BlockPluginRuleInput.configured,if_neg hA,if_neg hAAAA]

theorem configured_nodup (rdtype : RdataType) : (input.configured rdtype).Nodup := by
  unfold BlockPluginRuleInput.configured
  split
  · exact Keyed.foldl_insertNew_nodup List.nodup_nil
  · split
    · exact Keyed.foldl_insertNew_nodup List.nodup_nil
    · exact List.nodup_nil

theorem Reads.addresses_eq (h : Reads input rule) (rdtype : RdataType) :
    (if rdtype = RdataType.A then rule.ipv4Addresses
      else if rdtype = RdataType.AAAA then rule.ipv6Addresses
      else []) = (input.configured rdtype).map Address.compressed := by
  unfold BlockPluginRuleInput.configured
  split
  · exact h.ipv4Addresses
  · split
    · exact h.ipv6Addresses
    · rfl

theorem Reads.buildRecord_eq (h : Reads input rule)
    (howner : nameFromText q.name.toText = .ok q.name) (htype : q.rdtype ∈ addressTypes) :
    buildRecord texts nameFromText q.name.toText q.rdtype rule =
      RRset.fromTextList texts q.name rule.responseTtlSeconds RdataClass.IN q.rdtype
        ((input.configured q.rdtype).map Address.compressed) := by
  rw [buildRecord,howner,← h.addresses_eq]
  simp only [bind,Except.bind]
  split
  · rename_i hA
    rw [hA]
  · rename_i hA
    have hAAAA : q.rdtype = RdataType.AAAA := by
      simpa [addressTypes,hA] using htype
    rw [if_pos hAAAA,hAAAA]

theorem staticResponse_other (hquery : request.flags.qr = false) (htype : q.rdtype ∉ addressTypes)
    (h : Reads input rule) : staticResponse texts nameFromText request q rule =
      .ok (errorReply request Rcode.NOERROR) := by
  unfold staticResponse
  rw [makeResponse_ok hquery,h.addresses_eq,configured_other htype]
  rfl

variable (texts) in
theorem staticResponse_address (hquery : request.flags.qr = false) (h : Reads input rule)
    (howner : nameFromText q.name.toText = .ok q.name) (htype : q.rdtype ∈ addressTypes)
    (hne : input.configured q.rdtype ≠ []) :
    staticResponse texts nameFromText request q rule =
      (RRset.fromTextList texts q.name rule.responseTtlSeconds RdataClass.IN q.rdtype
        ((input.configured q.rdtype).map Address.compressed)).map
          fun rrset => (errorReply request Rcode.NOERROR).withAnswer [rrset] := by
  unfold staticResponse
  rw [makeResponse_ok hquery,h.addresses_eq]
  simp only [bind,Except.bind]
  rw [if_neg (mt List.map_eq_nil_iff.mp hne),h.buildRecord_eq howner htype]
  rfl

/-! ### The two phases -/

inductive Phase where
  | request | response

/-- The tags that a phase goes by. -/
def Phase.tags (context : RequestContext E) : Phase → Finset String
  | .request => context.tags
  | .response => responseTags context

variable (codec texts nameFromText now rules) in
def Phase.hook : Phase → Exec PyException (RequestContext E) Unit
  | .request => onRequest codec texts nameFromText now rules
  | .response => onResponse codec texts nameFromText now rules

theorem Phase.hook_eq (phase : Phase) (context : RequestContext E) :
    phase.hook codec texts nameFromText now rules context =
      applyStaticResponse codec texts nameFromText now rules (phase.tags context) context := by
  cases phase <;> exact Exec.bind_ok (Exec.run_get context)

/-- A query for one name and type, and rules whose times a record can have. -/
structure Asked (nameFromText : List Char → Except PyException Name)
    (inputs : List BlockPluginRuleInput) (request : Message) (q : Question) : Prop where
  query : request.flags.qr = false
  opcode : request.opcode = Opcode.QUERY
  asked : request.question = [q]
  owner : nameFromText q.name.toText = .ok q.name
  ttl : ∀ input ∈ inputs, input.responseTtlSeconds ≤ maxTtl

variable {inputs : List BlockPluginRuleInput} {context : RequestContext E} {tags : Finset String}

theorem apply_found (hasked : context.request.question = [q])
    (h : resolveRule tags q.rdtype rules = some rule) :
    applyStaticResponse codec texts nameFromText now rules tags context =
      (do
        let response ← Exec.ofExcept (staticResponse texts nameFromText context.request q rule)
        setResponse codec now response : Exec PyException (RequestContext E) Unit) context := by
  have hfirst : firstQuestion context.request = .ok q := by
    rw [firstQuestion,hasked]
  unfold applyStaticResponse
  rw [Exec.bind_ok (Exec.run_get context),hfirst,Exec.bind_ok (Exec.run_ofExcept _ _),h]

theorem setResponse_ok {response : Message} {answer : Answer}
    (h : buildAnswerFromResponse codec now context.request response = .ok answer) :
    setResponse codec now response context = (.ok (),{ context with
      finalResponse := some response, finalAnswer := some answer, stopProcessing := true }) := by
  unfold setResponse
  rw [Exec.bind_ok (Exec.run_modify _ _),Exec.bind_ok (Exec.run_get _),h,
    Exec.bind_ok (Exec.run_ofExcept _ _)]
  rfl

/-- Where the answer cannot be built, the response is there all the same. -/
theorem setResponse_error {response : Message} {e : PyException}
    (h : buildAnswerFromResponse codec now context.request response = .error e) :
    setResponse codec now response context =
      (.error e,{ context with finalResponse := some response }) := by
  unfold setResponse
  rw [Exec.bind_ok (Exec.run_modify _ _),Exec.bind_ok (Exec.run_get _),h,
    Exec.bind_error (Exec.run_ofExcept _ _)]

variable (codec now) in
theorem static_response (h : Asked nameFromText inputs request q) (hinput : input ∈ inputs)
    (hreads : Reads input rule) (hanswers : input.AnswersFor tags q.rdtype)
    (hscopeless : Scopeless (input.configured q.rdtype)) :
    ∃ response, staticResponse texts nameFromText request q rule = .ok response ∧
      Says request q input response ∧ (codec.Encodes response → ∃ answer,
        buildAnswerFromResponse codec now request response = .ok answer ∧
        Repeats now response answer) := by
  by_cases htype : q.rdtype ∈ addressTypes
  · have hne : input.configured q.rdtype ≠ [] := hanswers.offered.resolve_right fun h => h.1 htype
    obtain ⟨rrset,hread,haddresses,hips,hname,httl,hrdtype⟩ := RRset.fromTextList_ok texts htype
      q.name rule.responseTtlSeconds hne (configured_nodup _) fun ip hip =>
        ⟨hreads.versions _ ip hip,fun address heq => hscopeless address (heq ▸ hip)⟩
    have hresponse := staticResponse_address texts h.query hreads h.owner htype hne
    rw [hread] at hresponse
    have hmax : rrset.ttl ≤ maxTtl := by
      have hbound := h.ttl input hinput
      have hreadTtl := hreads.ttl
      omega
    have hmeans : Says request q input ((errorReply request Rcode.NOERROR).withAnswer [rrset]) :=
      ⟨⟨_,rfl⟩,fun _ => ⟨rrset,rfl,haddresses,hname,hrdtype,hips,by rw [httl,hreads.ttl]⟩,
        absurd htype⟩
    refine ⟨_,hresponse,hmeans,fun hencodes => ?_⟩
    obtain ⟨answer,hbuilt,hrrset,hexpiration⟩ := buildAnswer_records now h.asked haddresses
      hname hrdtype h.opcode hmax hencodes
    refine ⟨answer,hbuilt,hrrset,fun found hfound => ?_⟩
    obtain rfl := Option.some.inj (hrrset.symm.trans hfound)
    exact hexpiration
  · exact ⟨_,staticResponse_other h.query htype hreads,
      ⟨⟨[],rfl⟩,fun h => absurd h htype,fun _ => rfl⟩,fun _ =>
      ⟨_,buildAnswer_errorReply codec now h.opcode h.asked _,rfl,nofun⟩⟩

theorem static_error (h : Asked nameFromText inputs request q)
    (hscopes : RefusesScopes texts) (hreads : Reads input rule)
    (hscoped : ¬ Scopeless (input.configured q.rdtype)) :
    ∃ e, staticResponse texts nameFromText request q rule = .error e := by
  obtain ⟨address,hmem,-⟩ := not_scopeless hscoped
  have hne : input.configured q.rdtype ≠ [] := List.ne_nil_of_mem hmem
  have htype : q.rdtype ∈ addressTypes := by
    by_contra htype
    exact hne (configured_other htype)
  -- only AAAA records are given addresses of version 6
  have hAAAA : q.rdtype = RdataType.AAAA := by
    by_contra hAAAA
    have hA : q.rdtype = RdataType.A := by
      simpa [addressTypes,hAAAA] using htype
    have hversion := hreads.versions _ _ hmem
    rw [hA] at hversion
    cases hversion
  obtain ⟨e,he⟩ := fromTextList_scoped hscopes hscoped q.name rule.responseTtlSeconds
  refine ⟨e,?_⟩
  rw [staticResponse_address texts h.query hreads h.owner htype hne,hAAAA]
  rw [hAAAA] at he
  rw [he]
  rfl

variable (codec now) in
/-- The first rule that is for the tags of the phase, and has something for the type that is asked
for, answers with its addresses as they are first given, for its time, and ends the processing. A
rule with more addresses than a message can hold raises with the reply set, one with an address
that has a scope raises before it is, and the other requests are left as they are. -/
theorem static_answers (hscopes : RefusesScopes texts)
    (hrules : inputs.mapM BlockPluginRuleConfig.validate = .ok rules)
    (h : Asked nameFromText inputs context.request q) (phase : Phase) :
    ((∀ input ∈ inputs, ¬ input.AnswersFor (phase.tags context) q.rdtype) →
      phase.hook codec texts nameFromText now rules context = (.ok (),context)) ∧
    ∀ before input after, inputs = before ++ input :: after →
      (∀ other ∈ before, ¬ other.AnswersFor (phase.tags context) q.rdtype) →
      input.AnswersFor (phase.tags context) q.rdtype →
      (Scopeless (input.configured q.rdtype) → ∃ response,
        Says context.request q input response ∧
        (codec.Encodes response → ∃ answer, Repeats now response answer ∧
          phase.hook codec texts nameFromText now rules context = (.ok (),{ context with
            finalResponse := some response, finalAnswer := some answer, stopProcessing := true })) ∧
        (¬ codec.Encodes response → ∃ e, phase.hook codec texts nameFromText now rules context =
          (.error e,{ context with finalResponse := some response }))) ∧
      (¬ Scopeless (input.configured q.rdtype) → ∃ e,
        phase.hook codec texts nameFromText now rules context = (.error e,context)) := by
  have hreads : List.Forall₂ Reads inputs rules :=
    (Except.mapM_eq_ok.mp hrules).imp fun _ _ => validate_reads
  rw [phase.hook_eq]
  refine ⟨fun hnone => ?_,?_⟩
  · have hrule : resolveRule (phase.tags context) q.rdtype rules = none := by
      rw [← List.append_nil rules,resolveRule_skips hreads hnone]
      rfl
    have hfirst : firstQuestion context.request = .ok q := by
      rw [firstQuestion,h.asked]
    unfold applyStaticResponse
    rw [Exec.bind_ok (Exec.run_get context),hfirst,Exec.bind_ok (Exec.run_ofExcept _ _),hrule]
    rfl
  · rintro before input after rfl hbefore hanswers
    have hskipped := (List.forall₂_take_append rules before _ hreads.flip).flip
    obtain ⟨rule,later,hread,-,hdrop⟩ := List.forall₂_cons_right_iff.mp
      (List.forall₂_drop_append rules before _ hreads.flip)
    have hsplit : rules = rules.take before.length ++ rule :: later := by
      rw [← hdrop,List.take_append_drop]
    have hinput : input ∈ before ++ input :: after := List.mem_append_cons_self
    have hrule : resolveRule (phase.tags context) q.rdtype rules = some rule := by
      rw [hsplit,resolveRule_skips hskipped hbefore]
      exact resolveRule_found hread hanswers later
    rw [apply_found h.asked hrule]
    refine ⟨fun hscopeless => ?_,fun hscoped => ?_⟩
    · obtain ⟨response,hresponse,hmeans,hbuilds⟩ :=
        static_response codec now h hinput hread hanswers hscopeless
      refine ⟨response,hmeans,fun hencodes => ?_,fun hencodes => ?_⟩
      · obtain ⟨answer,hbuilt,hrepeats⟩ := hbuilds hencodes
        refine ⟨answer,hrepeats,?_⟩
        rw [hresponse,Exec.bind_ok (Exec.run_ofExcept _ _)]
        exact setResponse_ok hbuilt
      · have hfirst : firstQuestion context.request = .ok q := by
          rw [firstQuestion,h.asked]
        cases hbuild : buildAnswerFromResponse codec now context.request response with
        | ok answer =>
          exact absurd ((buildAnswer_builds_iff hfirst).mp ⟨answer,hbuild⟩).1 hencodes
        | error e =>
          refine ⟨e,?_⟩
          rw [hresponse,Exec.bind_ok (Exec.run_ofExcept _ _)]
          exact setResponse_error hbuild
    · obtain ⟨e,he⟩ := static_error h hscopes hread hscoped
      refine ⟨e,?_⟩
      rw [he]
      exact Exec.bind_error (Exec.run_ofExcept _ _)

end

/-! ### A tracker -/

theorem plainText_refusesScopes : RefusesScopes plainText := by
  intro address hscope
  have hread : IpText.ipv6Address (Address.v6 address).compressed = some address :=
    IpText.ipv6Address_text address
  obtain ⟨ip,scopeId⟩ := address
  cases scopeId with
  | none => exact absurd rfl hscope
  | some scopeId =>
    refine ⟨⟨.other,"SyntaxError",""⟩,?_⟩
    simp [plainText,readRecord,hread,RdataType.A,RdataType.AAAA]

def adInput : BlockPluginRuleInput where
  matchTags := some (some [" ads "])
  ipv4Addresses := some (some ["0.0.0.0".toList," 127.0.0.1".toList,"0.0.0.0".toList])

def adRule : BlockPluginRuleConfig where
  matchTags := ["ads"]
  excludeTags := []
  ipv4Addresses := ["0.0.0.0".toList,"127.0.0.1".toList]
  ipv6Addresses := []
  blockOther := false
  responseTtlSeconds := 86400
  ttl := by decide
  addresses := .inl (List.cons_ne_nil _ _)

def adContext : RequestContext Unit := { askedContext hostQuestion with tags := {"ads"} }

theorem static_answers_ads : ∃ response, Says adContext.request hostQuestion adInput response ∧
    ∃ answer, Repeats 0 response answer ∧
      onRequest directCodec plainText hostTexts.nameFromText 0 [adRule] adContext =
        (.ok (),{ adContext with
          finalResponse := some response, finalAnswer := some answer
          stopProcessing := true }) := by
  have hrules : [adInput].mapM BlockPluginRuleConfig.validate = .ok [adRule] := rfl
  have hgiven : TagGiven {"ads"} adInput.matchTags :=
    ⟨_,rfl,_,List.mem_singleton_self _,by decide,by decide⟩
  have hconfigured : adInput.configured hostQuestion.rdtype = [.v4 0,.v4 0x7f000001] := by decide
  have hanswers : adInput.AnswersFor {"ads"} hostQuestion.rdtype :=
    ⟨hgiven,fun h => (by obtain ⟨_,heq,_⟩ := h; cases heq),.inl (by rw [hconfigured]; nofun)⟩
  have hasked : Asked hostTexts.nameFromText [adInput] adContext.request hostQuestion :=
    { query := rfl
      opcode := rfl
      asked := rfl
      owner := rfl
      ttl := by decide }
  have hscopeless : Scopeless (adInput.configured hostQuestion.rdtype) := by
    rw [hconfigured]
    intro address hmem
    simp at hmem
  obtain ⟨response,hmeans,hencoded,_⟩ := ((static_answers directCodec 0
    plainText_refusesScopes hrules hasked .request).2 [] adInput [] rfl (List.forall_mem_nil _)
    hanswers).1 hscopeless
  exact ⟨response,hmeans,hencoded ⟨response,rfl⟩⟩

end BlockPlugin

end SmartDns
