import SmartDns.Core.PyText
import SmartDns.Dns.RecordText
set_option autoImplicit false

/-!
`ip_replace_plugin`: the addresses of an answer are mapped into target networks, which a rule
names for the tags of the upstream's result. Each address goes into each network with the host
bits it has.
-/

namespace SmartDns

namespace IpReplace

open IpText (Address Network ipAddress ipNetwork strictIpNetwork ipAddressOfInt)

/-! ### Rules -/

def notNetwork : PyException := .valueError "does not appear to be an IPv4 or IPv6 network"

def otherFamily (version : ℕ) : PyException :=
  .valueError (if version = 4 then "目标网段必须是 IPv4 CIDR" else "目标网段必须是 IPv6 CIDR")

/-- `_normalize_networks`, with what is normalised so far. -/
def normalizeNetworks (version : ℕ) (normalized : List (List Char)) :
    List (List Char) → Except PyException (List (List Char))
  | [] => .ok normalized
  | item :: rest =>
    match ipNetwork (PyText.strip item) with
    | none => .error notNetwork
    | some network =>
      if network.version ≠ version then .error (otherFamily version)
      else if network.withPrefixlen ∈ normalized then normalizeNetworks version normalized rest
      else normalizeNetworks version (normalized ++ [network.withPrefixlen]) rest

/-- A text as `_normalize_networks` leaves it. -/
def NormalText (version : ℕ) (text : List Char) : Prop :=
  ∃ network : Network, network.version = version ∧ text = network.withPrefixlen

structure IpReplaceRuleConfig where
  name : String
  matchTags : List String
  excludeTags : List String := []
  ipv4Targets : List (List Char) := []
  ipv6Targets : List (List Char) := []
  ipv4 : ∀ text ∈ ipv4Targets, NormalText 4 text
  ipv6 : ∀ text ∈ ipv6Targets, NormalText 6 text

theorem normalizeNetworks_normal {version : ℕ} {normalized items targets : List (List Char)}
    (hnormal : ∀ text ∈ normalized, NormalText version text)
    (h : normalizeNetworks version normalized items = .ok targets) :
    ∀ text ∈ targets, NormalText version text := by
  induction items generalizing normalized with
  | nil =>
    cases h
    exact hnormal
  | cons item rest ih =>
    unfold normalizeNetworks at h
    split at h
    · contradiction
    · rename_i network _
      split at h
      · contradiction
      · rename_i hversion
        rw [not_not] at hversion
        split at h
        · exact ih hnormal h
        · refine ih (fun text htext => ?_) h
          obtain htext | htext := List.mem_append.mp htext
          · exact hnormal text htext
          · rw [List.mem_singleton.mp htext]
            exact ⟨network,hversion,rfl⟩

/-- The texts of target networks as a configuration may give them; the tags are normalised. -/
structure RuleInput where
  name : String
  matchTags : List String
  excludeTags : List String := []
  ipv4Targets : List (List Char) := []
  ipv6Targets : List (List Char) := []

/-- The validators of `IpReplaceRuleConfig`. -/
def IpReplaceRuleConfig.make (input : RuleInput) : Except PyException IpReplaceRuleConfig :=
  if input.matchTags = [] then .error (.valueError "List should have at least 1 item")
  else
    match h4 : normalizeNetworks 4 [] input.ipv4Targets with
    | .error e => .error e
    | .ok ipv4Targets =>
      match h6 : normalizeNetworks 6 [] input.ipv6Targets with
      | .error e => .error e
      | .ok ipv6Targets =>
        if ipv4Targets = [] ∧ ipv6Targets = [] then
          .error (.valueError "替换规则至少需要一个 IPv4 或 IPv6 目标 CIDR")
        else .ok
          { name := input.name
            matchTags := input.matchTags
            excludeTags := input.excludeTags
            ipv4Targets, ipv6Targets
            ipv4 := normalizeNetworks_normal (by simp) h4
            ipv6 := normalizeNetworks_normal (by simp) h6 }

structure CompiledIpReplaceRule where
  name : String
  matchTags : Finset String
  excludeTags : Finset String
  ipv4Targets : List Network
  ipv6Targets : List Network

def CompiledIpReplaceRule.targets (rule : CompiledIpReplaceRule) (version : ℕ) : List Network :=
  if version = 4 then rule.ipv4Targets else rule.ipv6Targets

def compileTarget (item : List Char) : Except PyException Network :=
  match strictIpNetwork item with
  | none => .error notNetwork
  | some network => .ok network

def compileRule (rule : IpReplaceRuleConfig) : Except PyException CompiledIpReplaceRule := do
  let ipv4Targets ← rule.ipv4Targets.mapM compileTarget
  let ipv6Targets ← rule.ipv6Targets.mapM compileTarget
  pure
    { name := rule.name
      matchTags := rule.matchTags.toFinset
      excludeTags := rule.excludeTags.toFinset
      ipv4Targets, ipv6Targets }

structure IpReplaceService where
  rules : List CompiledIpReplaceRule
  skipTags : Finset String

namespace IpReplaceService

def make (rules : List IpReplaceRuleConfig) (skipTags : List String) :
    Except PyException IpReplaceService := do
  let rules ← rules.mapM compileRule
  pure { rules, skipTags := skipTags.toFinset }

/-- `_match_rule`. -/
def matchRule (service : IpReplaceService) (tags : Finset String) (version : ℕ) :
    Option CompiledIpReplaceRule :=
  service.rules.find? fun rule =>
    (rule.matchTags ∩ tags).Nonempty ∧ ¬ (rule.excludeTags ∩ tags).Nonempty ∧
      rule.targets version ≠ []

/-! ### Answers -/

/-- `_is_normal_address_answer`, with the rrset it has found. -/
def normalAddressRRset (answer : Answer) : Option RRset :=
  match answer.rrset with
  | none => none
  | some rrset =>
    if answer.response.rcode ≠ Rcode.NOERROR then none
    else if answer.rdtype ∈ addressTypes then some rrset
    else none

def extractAddresses (texts : RecordText) (rrset : RRset) : List (List Char) :=
  rrset.items.filterMap texts.address

def mapIpToNetwork (originalIp : Address) (target : Network) : Except PyException Address :=
  let hostBits := originalIp.maxPrefixlen-target.prefixlen
  let hostMask := if 0 < hostBits then 1 <<< hostBits - 1 else 0
  let mappedValue := target.toInt ||| (originalIp.toInt &&& hostMask)
  match ipAddressOfInt mappedValue with
  | none => .error (.valueError "does not appear to be an IPv4 or IPv6 address")
  | some address => .ok address

/-- The inner loop of `_expand_addresses`. -/
def expandAddress (originalIp : Address) (expanded : List (List Char)) :
    List Network → Except PyException (List (List Char))
  | [] => .ok expanded
  | target :: targets => do
    let replaced ← mapIpToNetwork originalIp target
    expandAddress originalIp (Keyed.insertNew expanded replaced.compressed) targets

def expandAddresses (targets : List Network) (expanded : List (List Char)) :
    List (List Char) → Except PyException (List (List Char))
  | [] => .ok expanded
  | address :: rest =>
    match ipAddress address with
    | none => .error (.valueError "does not appear to be an IPv4 or IPv6 address")
    | some originalIp => do
      let expanded ← expandAddress originalIp expanded targets
      expandAddresses targets expanded rest

/-- `replace_answer`, over the answer it edits; whether it has changed it. -/
def replaceAnswer (texts : RecordText) (service : IpReplaceService) (tags : Finset String) :
    Exec PyException Answer Bool := do
  if tags = ∅ then pure false
  else if (service.skipTags ∩ tags).Nonempty then pure false
  else
    let answer ← Exec.get
    match normalAddressRRset answer with
    | none => pure false
    | some rrset =>
      let originalAddresses := extractAddresses texts rrset
      if originalAddresses = [] then pure false
      else
        match service.matchRule tags (addressVersion answer.rdtype) with
        | none => pure false
        | some rule =>
          let targets := rule.targets (addressVersion answer.rdtype)
          let replacedAddresses ← Exec.ofExcept (expandAddresses targets [] originalAddresses)
          if replacedAddresses = originalAddresses then pure false
          else
            let replaced ← Exec.ofExcept (RRset.fromTextList texts rrset.name rrset.ttl
              answer.rdclass answer.rdtype replacedAddresses)
            Exec.modify fun answer => { answer with rrset := some replaced }
            syncAnswerRrsetToResponse
            pure true

end IpReplaceService

end IpReplace

end SmartDns
