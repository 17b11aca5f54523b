import SmartDns.IpReplace.Mapping
set_option autoImplicit false

/-!
What `replace_answer` leaves in an answer: every original address mapped into every target, or
the exception that dnspython raises for an IPv4 address in an AAAA record.
-/

namespace SmartDns

namespace IpReplace

open IpText (Address Network ipAddress)
open Keyed (insertNew insertNew_map mem_foldl_insertNew foldl_insertNew_nodup)
open IpReplaceService (replaceAnswer matchRule normalAddressRRset expandAddress expandAddresses
  extractAddresses mapIpToNetwork)

/-- The addresses that the originals are replaced by. -/
def expanded (originals : List Address) (targets : List Network) : List Address :=
  (originals.flatMap fun original => targets.map (mapped original)).foldl insertNew []

variable {originals : List Address} {targets : List Network}

theorem mem_expanded {address : Address} : address ∈ expanded originals targets ↔
    ∃ original ∈ originals, ∃ target ∈ targets, mapped original target = address := by
  simp [expanded,mem_foldl_insertNew]

theorem expanded_nodup : (expanded originals targets).Nodup := foldl_insertNew_nodup List.nodup_nil

theorem expanded_ne_nil (ho : originals ≠ []) (ht : targets ≠ []) :
    expanded originals targets ≠ [] := by
  obtain ⟨original,horiginal⟩ := List.exists_mem_of_ne_nil originals ho
  obtain ⟨target,htarget⟩ := List.exists_mem_of_ne_nil targets ht
  exact List.ne_nil_of_mem (mem_expanded.mpr ⟨original,horiginal,target,htarget,rfl⟩)

theorem compressed_injective : Function.Injective Address.compressed := by
  intro a b h
  have ha := IpText.ipAddress_compressed a
  rw [h,IpText.ipAddress_compressed b] at ha
  exact (Option.some.inj ha).symm

theorem expandAddress_eq {original : Address} {collected : List Address}
    (h : ∀ target ∈ targets, original.version = target.version) :
    expandAddress original (collected.map Address.compressed) targets =
      .ok (((targets.map (mapped original)).foldl insertNew collected).map Address.compressed) := by
  induction targets generalizing collected with
  | nil => rfl
  | cons target targets ih =>
    rw [List.forall_mem_cons] at h
    unfold expandAddress
    rw [mapIpToNetwork_eq h.1]
    simp only [bind,Except.bind]
    rw [insertNew_map compressed_injective,ih h.2]
    rfl

theorem expandAddresses_eq {texts : List (List Char)} (collected : List Address)
    (htexts : texts.map ipAddress = originals.map some)
    (h : ∀ original ∈ originals, ∀ target ∈ targets, original.version = target.version) :
    expandAddresses targets (collected.map Address.compressed) texts =
      .ok (((originals.flatMap fun original => targets.map (mapped original)).foldl insertNew
        collected).map Address.compressed) := by
  induction texts generalizing originals collected with
  | nil =>
    obtain rfl := List.map_eq_nil_iff.mp htexts.symm
    rfl
  | cons text texts ih =>
    cases originals with
    | nil => contradiction
    | cons original originals =>
      rw [List.map_cons,List.map_cons,List.cons.injEq] at htexts
      rw [List.forall_mem_cons] at h
      unfold expandAddresses
      simp only [htexts.1,expandAddress_eq h.1,bind,Except.bind]
      rw [ih _ htexts.2 h.2,List.flatMap_cons,List.foldl_append]

/-! ### Answers -/

/-- The rrset of the answer holds addresses of the type that was asked for. -/
structure OfAddresses (a : Answer) (r : RRset) : Prop where
  rrset : a.rrset = some r
  addresses : r.OfAddresses
  rdtype : r.rdtype = a.rdtype
  rdclass : r.rdclass = a.rdclass

/-- The targets of the rule that applies to the answer, if one does. -/
def targetsFor (service : IpReplaceService) (tags : Finset String) (a : Answer) : List Network :=
  if tags = ∅ ∨ (service.skipTags ∩ tags).Nonempty ∨ normalAddressRRset a = none then []
  else
    match service.matchRule tags (addressVersion a.rdtype) with
    | none => []
    | some rule => rule.targets (addressVersion a.rdtype)

variable {texts : RecordText} {service : IpReplaceService} {rules : List IpReplaceRuleConfig}
  {skipTags : List String} {tags : Finset String} {a : Answer} {r : RRset}

theorem matchRule_nonempty {version : ℕ} {rule : CompiledIpReplaceRule}
    (h : service.matchRule tags version = some rule) : rule.targets version ≠ [] := by
  have hmatch := List.find?_some h
  simp only [decide_eq_true_eq] at hmatch
  exact hmatch.2.2

/-- Where no rule applies, nothing is done. -/
theorem replaceAnswer_idle (h : targetsFor service tags a = []) :
    replaceAnswer texts service tags a = (.ok false,a) := by
  unfold targetsFor at h
  unfold IpReplaceService.replaceAnswer
  by_cases htags : tags = ∅
  · rw [if_pos htags]
    rfl
  · by_cases hskip : (service.skipTags ∩ tags).Nonempty
    · rw [if_neg htags,if_pos hskip]
      rfl
    · rw [if_neg htags,if_neg hskip,Exec.bind_ok (Exec.run_get a)]
      cases hnormal : normalAddressRRset a with
      | none => rfl
      | some rrset =>
        simp only []
        split
        · rfl
        · cases hrule : service.matchRule tags (addressVersion a.rdtype) with
          | none => rfl
          | some rule =>
            rw [if_neg (by simp [htags,hskip,hnormal]),hrule] at h
            exact absurd h (matchRule_nonempty hrule)

theorem targetsFor_version (hservice : IpReplaceService.make rules skipTags = .ok service) :
    ∀ target ∈ targetsFor service tags a, target.version = addressVersion a.rdtype := by
  unfold targetsFor
  split
  · simp
  · cases hrule : service.matchRule tags (addressVersion a.rdtype) with
    | none => simp
    | some rule => exact (matchRule_targets hservice hrule).2

/-- What is left to do once a rule applies. -/
theorem replaceAnswer_applies (hservice : IpReplaceService.make rules skipTags = .ok service)
    (h : OfAddresses a r) (hne : targetsFor service tags a ≠ []) :
    replaceAnswer texts service tags a =
      if (expanded r.ips (targetsFor service tags a)).map Address.compressed =
          extractAddresses texts r then (.ok false,a)
      else
        match RRset.fromTextList texts r.name r.ttl a.rdclass a.rdtype
            ((expanded r.ips (targetsFor service tags a)).map Address.compressed) with
        | .error e => (.error e,a)
        | .ok replaced => match syncAnswerRrsetToResponse (edited a (some replaced)) with
          | (.error e,a') => (.error e,a')
          | (.ok _,a') => (.ok true,a') := by
  have hversion : ∀ original ∈ r.ips, ∀ target ∈ targetsFor service tags a,
      original.version = target.version := by
    intro original horiginal target htarget
    rw [h.addresses.version original horiginal,targetsFor_version hservice target htarget,h.rdtype]
  have hexpand : expandAddresses (targetsFor service tags a) [] (extractAddresses texts r) =
      .ok ((expanded r.ips (targetsFor service tags a)).map Address.compressed) :=
    expandAddresses_eq [] h.addresses.texts_ips hversion
  have hsome : extractAddresses texts r ≠ [] := by
    intro hnil
    have hips : (extractAddresses texts r).map ipAddress = r.ips.map some := h.addresses.texts_ips
    rw [hnil] at hips
    exact h.addresses.ips_ne_nil (List.map_eq_nil_iff.mp hips.symm)
  revert hexpand
  unfold targetsFor at hne ⊢
  split at hne
  · contradiction
  · rename_i hguards
    rw [if_neg hguards]
    simp only [not_or] at hguards
    obtain ⟨htags,hskip,hnormal⟩ := hguards
    cases hrule : service.matchRule tags (addressVersion a.rdtype) with
    | none => simp [hrule] at hne
    | some rule =>
      intro hexpand
      have hnormal : normalAddressRRset a = some r := by
        unfold IpReplaceService.normalAddressRRset at hnormal ⊢
        simp only [h.rrset] at hnormal ⊢
        split
        · simp_all
        · simp_all
      simp only [] at hexpand ⊢
      unfold IpReplaceService.replaceAnswer
      rw [if_neg htags,if_neg hskip,Exec.bind_ok (Exec.run_get a)]
      simp only [hnormal,hrule,if_neg hsome]
      rw [hexpand,Exec.bind_ok (Exec.run_ofExcept _ _)]
      split
      · rfl
      · cases hread : RRset.fromTextList texts r.name r.ttl a.rdclass a.rdtype
            ((expanded r.ips (rule.targets (addressVersion a.rdtype))).map Address.compressed) with
        | error e => rw [Exec.bind_error (Exec.run_ofExcept _ _)]
        | ok replaced =>
          rw [Exec.bind_ok (Exec.run_ofExcept _ _),Exec.bind_ok (Exec.run_modify _ _)]
          change (syncAnswerRrsetToResponse >>= fun _ => pure true) (edited a (some replaced)) = _
          rcases hsync : syncAnswerRrsetToResponse (edited a (some replaced)) with ⟨e | ⟨⟩,a'⟩
          · rw [Exec.bind_error hsync]
            simp only [hsync]
          · rw [Exec.bind_ok hsync]
            simp only [hsync]
            rfl

theorem expanded_of_texts (h : OfAddresses a r) {ips : List Address}
    (hsame : ips.map Address.compressed = extractAddresses texts r) : ips = r.ips := by
  have hread : (extractAddresses texts r).map ipAddress = r.ips.map some := h.addresses.texts_ips
  have hips : (ips.map Address.compressed).map ipAddress = ips.map some := by
    rw [List.map_map]
    exact List.map_congr_left fun ip _ => IpText.ipAddress_compressed ip
  rw [← hsame,hips] at hread
  exact List.map_injective_iff.mpr (Option.some_injective _) hread

theorem expanded_version (hservice : IpReplaceService.make rules skipTags = .ok service)
    (h : OfAddresses a r) {original : Address} {target : Network} (horiginal : original ∈ r.ips)
    (htarget : target ∈ targetsFor service tags a) : original.version = target.version := by
  rw [h.addresses.version original horiginal,targetsFor_version hservice target htarget,h.rdtype]

variable (texts) in
/-- Where every mapped address keeps its family, the answer holds the mapped addresses. -/
theorem replaceAnswer_replaces (hservice : IpReplaceService.make rules skipTags = .ok service)
    (h : OfAddresses a r) (hne : targetsFor service tags a ≠ [])
    (hkeep : ∀ original ∈ r.ips, ∀ target ∈ targetsFor service tags a,
      ¬ LosesFamily original target) :
    ∃ changed a' r', replaceAnswer texts service tags a = (.ok changed,a') ∧ OfAddresses a' r' ∧
      r'.ips = expanded r.ips (targetsFor service tags a) ∧ a'.rdtype = a.rdtype ∧
      a'.response.rcode = a.response.rcode := by
  rw [replaceAnswer_applies hservice h hne]
  split
  · rename_i hsame
    exact ⟨false,a,r,rfl,h,(expanded_of_texts h hsame).symm,rfl,rfl⟩
  · have hclass : a.rdclass = RdataClass.IN := h.rdclass.symm.trans h.addresses.rdclass
    have htype : a.rdtype ∈ addressTypes := h.rdtype ▸ h.addresses.rdtype
    have hips : ∀ ip ∈ expanded r.ips (targetsFor service tags a),
        ip.version = addressVersion a.rdtype ∧
          ∀ address, ip = .v6 address → address.scopeId = none := by
      intro ip hip
      obtain ⟨original,horiginal,target,htarget,rfl⟩ := mem_expanded.mp hip
      have hversion := expanded_version hservice h horiginal htarget
      refine ⟨?_,fun address => mapped_scope⟩
      rw [(mapped_version hversion).mpr (hkeep original horiginal target htarget),hversion,
        targetsFor_version hservice target htarget]
    obtain ⟨r',hread,hof,hr',_,_,hrdtype⟩ := RRset.fromTextList_ok texts htype r.name r.ttl
      (expanded_ne_nil h.addresses.ips_ne_nil hne) expanded_nodup hips
    have htyped : Typed (edited a (some r')) := by
      intro rrset hrrset
      cases hrrset
      exact ⟨hrdtype,hof.rdclass.trans hclass.symm⟩
    rw [hclass,hread]
    simp only [syncAnswerRrset_ok htyped]
    exact ⟨true,_,r',rfl,⟨rfl,hof,hrdtype,hof.rdclass.trans hclass.symm⟩,hr',rfl,rfl⟩

variable (texts) in
/-- One address that does not keep its family, and nothing is replaced. -/
theorem replaceAnswer_loses (hservice : IpReplaceService.make rules skipTags = .ok service)
    (h : OfAddresses a r) {original : Address} {target : Network} (horiginal : original ∈ r.ips)
    (htarget : target ∈ targetsFor service tags a) (hloses : LosesFamily original target) :
    ∃ e, replaceAnswer texts service tags a = (.error e,a) := by
  have hclass : a.rdclass = RdataClass.IN := h.rdclass.symm.trans h.addresses.rdclass
  have hsix : addressVersion a.rdtype = 6 := by
    rw [← h.rdtype,← h.addresses.version original horiginal,hloses.1]
  have htype : a.rdtype = RdataType.AAAA := by
    have hmem : a.rdtype ∈ addressTypes := h.rdtype ▸ h.addresses.rdtype
    obtain ha | ha : a.rdtype = RdataType.A ∨ a.rdtype = RdataType.AAAA := by
      simpa [addressTypes] using hmem
    · rw [ha] at hsix
      exact absurd hsix (by decide)
    · exact ha
  have hmapped : mapped original target = .v4 (BitVec.ofNat 32 (mappedValue original target)) :=
    if_pos hloses.2
  have hmem := mem_expanded.mpr ⟨original,horiginal,target,htarget,hmapped⟩
  rw [replaceAnswer_applies hservice h (List.ne_nil_of_mem htarget),if_neg fun hsame => ?_]
  · obtain ⟨e,he⟩ := RRset.fromTextList_v4 texts r.name r.ttl hmem
    rw [hclass,htype,he]
    exact ⟨e,rfl⟩
  · rw [expanded_of_texts h hsame] at hmem
    have hfour := h.addresses.version _ hmem
    rw [h.rdtype,hsix] at hfour
    cases hfour

theorem replaceAnswer_keeps (hservice : IpReplaceService.make rules skipTags = .ok service)
    (h : OfAddresses a r) {changed : Bool} {a' : Answer}
    (hrun : replaceAnswer texts service tags a = (.ok changed,a')) :
    ∀ original ∈ r.ips, ∀ target ∈ targetsFor service tags a, ¬ LosesFamily original target := by
  intro original horiginal target htarget hloses
  obtain ⟨e,he⟩ := replaceAnswer_loses texts hservice h horiginal htarget hloses
  rw [he] at hrun
  cases hrun

/-- `replace_answer` ends, and the answer holds the mapped address of every original and target,
each once. -/
def Replaces (texts : RecordText) (service : IpReplaceService) (tags : Finset String) (a : Answer)
    (r : RRset) : Prop :=
  ∃ changed a' r', replaceAnswer texts service tags a = (.ok changed,a') ∧ a'.rrset = some r' ∧
    r'.ips.Nodup ∧ ∀ address, address ∈ r'.ips ↔
      ∃ original ∈ r.ips, ∃ target ∈ targetsFor service tags a,
        mapIpToNetwork original target = .ok address

/-- An address is mapped into a target of its family, and the addresses of an answer are replaced
by the mapped ones, unless an IPv6 address is mapped to a number below 2^32. -/
theorem replaceAnswer_replaces_iff (texts : RecordText) (rules : List IpReplaceRuleConfig)
    (skipTags : List String) (service : IpReplaceService) (tags : Finset String)
    (hservice : IpReplaceService.make rules skipTags = .ok service) :
    (∀ (original : Address) (target : Network), original.version = target.version →
      (MapsInto original target ↔ ¬ LosesFamily original target)) ∧
    ∀ (a : Answer) (r : RRset), OfAddresses a r → targetsFor service tags a ≠ [] →
      (Replaces texts service tags a r ↔
        ∀ original ∈ r.ips, ∀ target ∈ targetsFor service tags a,
          ¬ LosesFamily original target) := by
  refine ⟨fun original target => mapsInto_iff,fun a r h hne => ⟨?_,fun hkeep => ?_⟩⟩
  · intro hreplaces
    obtain ⟨changed,a',_,hrun,_⟩ := hreplaces
    exact replaceAnswer_keeps hservice h hrun
  · obtain ⟨changed,a',r',hrun,hof,hips,_⟩ := replaceAnswer_replaces texts hservice h hne hkeep
    refine ⟨changed,a',r',hrun,hof.rrset,by rw [hips]; exact expanded_nodup,fun address => ?_⟩
    rw [hips,mem_expanded]
    refine exists_congr fun original => and_congr_right fun horiginal => ?_
    refine exists_congr fun target => and_congr_right fun htarget => ?_
    rw [mapIpToNetwork_eq (expanded_version hservice h horiginal htarget),Except.ok.injEq]

/-! ### A rule with a target that holds every IPv4 address -/

def privateNetwork : Network := .v4 ⟨BitVec.ofNat 32 (10*2^24),8,by decide⟩
def compatibleNetwork : Network := .v6 ⟨{ ip := 0 },⟨96,by decide⟩,by decide⟩

def exampleRule : RuleInput where
  name := "rule"
  matchTags := ["proxy"]
  ipv4Targets := [['1','0','.','1','.','2','.','3','/','8']]
  ipv6Targets := [[':',':','/','9','6']]

def exampleConfig : IpReplaceRuleConfig where
  name := "rule"
  matchTags := ["proxy"]
  ipv4Targets := [['1','0','.','0','.','0','.','0','/','8']]
  ipv6Targets := [[':',':','/','9','6']]
  ipv4 := by
    rw [List.forall_mem_singleton]
    exact ⟨privateNetwork,rfl,by decide⟩
  ipv6 := by
    rw [List.forall_mem_singleton]
    exact ⟨compatibleNetwork,rfl,by decide⟩

def exampleService : IpReplaceService where
  rules := [{
    name := "rule"
    matchTags := {"proxy"}
    excludeTags := ∅
    ipv4Targets := [privateNetwork]
    ipv6Targets := [compatibleNetwork] }]
  skipTags := ∅

theorem exampleService_made : IpReplaceService.make [exampleConfig] [] = .ok exampleService := rfl

theorem replaceAnswer_replaces_host :
    (MapsInto (.v4 1) privateNetwork ↔ ¬ LosesFamily (.v4 1) privateNetwork) ∧
    (Replaces plainText exampleService {"proxy"}
        (hostAnswer [addressOf hostName 1] (some (addressOf hostName 1))) (addressOf hostName 1) ↔
      ∀ original ∈ (addressOf hostName 1).ips,
        ∀ target ∈ targetsFor exampleService {"proxy"}
          (hostAnswer [addressOf hostName 1] (some (addressOf hostName 1))),
          ¬ LosesFamily original target) := by
  obtain ⟨hmap,hreplace⟩ := replaceAnswer_replaces_iff plainText [exampleConfig] [] exampleService
    {"proxy"} exampleService_made
  refine ⟨hmap _ _ rfl,hreplace _ _ ⟨rfl,⟨rfl,by decide,?_⟩,rfl,rfl⟩ (by decide)⟩
  intro record hrecord
  rw [List.mem_singleton.mp hrecord]
  exact ⟨rfl,_,rfl⟩

/-- 2001:db8::102:304. -/
def documentationAddress : BitVec 128 := BitVec.ofNat 128 (0x20010db8*2^96+0x01020304)

def hostAAAA : RRset where
  name := hostName
  rdclass := RdataClass.IN
  rdtype := RdataType.AAAA
  ttl := 60
  items := [.aaaa documentationAddress]
  nonempty := List.cons_ne_nil _ _
  distinct := List.nodup_singleton _

def hostAAAAAnswer : Answer :=
  { hostAnswer [hostAAAA] (some hostAAAA) with
    rdtype := RdataType.AAAA
    response :=
      { hostReply [hostAAAA] with question := [⟨hostName,RdataType.AAAA,RdataClass.IN⟩] } }

/-- `::/96` is accepted as a target; 2001:db8::102:304 is mapped to 1.2.3.4, and that is no
address of an AAAA record. -/
theorem replaceAnswer_loses_documentation :
    IpReplaceRuleConfig.make exampleRule = .ok exampleConfig ∧
    IpReplaceService.make [exampleConfig] [] = .ok exampleService ∧
    mapIpToNetwork (.v6 { ip := documentationAddress }) compatibleNetwork =
      .ok (.v4 (BitVec.ofNat 32 0x01020304)) ∧
    ¬ MapsInto (.v6 { ip := documentationAddress }) compatibleNetwork ∧
    replaceAnswer plainText exampleService {"proxy"} hostAAAAAnswer =
      (.error ⟨.other,"SyntaxError",""⟩,hostAAAAAnswer) := by
  refine ⟨rfl,rfl,rfl,fun h => ?_,rfl⟩
  obtain ⟨address,haddress,hversion,_⟩ := h
  cases haddress
  cases hversion

end IpReplace

end SmartDns
