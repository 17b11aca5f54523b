import SmartDns.IpReplace.Replacement
set_option autoImplicit false

/-!
An answer is replaced twice, at the upstream response and at the response. The second time the
mapped addresses are the originals, and a shorter target keeps bits of a longer one that the first
time were bits of an address.
-/

namespace SmartDns

namespace IpReplace

open IpText (Address Network)
open IpReplaceService (replaceAnswer normalAddressRRset)

/-- The bits of `outer`, behind them those of `inner`, and the host bits that are left of the
original. -/
def layered (original : Address) (inner outer : Network) : ℕ :=
  outer.toInt + inner.toInt % 2^outer.hostBits + original.toInt % 2^inner.hostBits

/-- What a target makes of an address in a longer target, some target makes of some original. -/
def Settles (originals : List Address) (targets : List Network) : Prop :=
  ∀ original ∈ originals, ∀ inner ∈ targets, ∀ outer ∈ targets,
    outer.prefixlen < inner.prefixlen →
    ∃ other ∈ originals, ∃ target ∈ targets,
      layered original inner outer = target.toInt + other.toInt % 2^target.hostBits

instance (originals : List Address) (targets : List Network) :
    Decidable (Settles originals targets) := by
  unfold Settles
  infer_instance

/-- With targets of one length nothing is left to settle. -/
theorem Settles.of_prefixlen {originals : List Address} {targets : List Network}
    (h : ∀ s ∈ targets, ∀ t ∈ targets, s.prefixlen = t.prefixlen) : Settles originals targets := by
  intro original _ inner hinner outer houter hlonger
  exact absurd (h outer houter inner hinner) hlonger.ne

variable {original : Address} {inner outer : Network}

theorem mapped_congr {other : Address} {target : Network}
    (h : mappedValue original inner = mappedValue other target) :
    mapped original inner = mapped other target := by
  unfold mapped
  rw [h]

/-- A mapped address stays where it is in its own target. -/
theorem mapped_again (hversion : original.version = inner.version) :
    mapped (mapped original inner) inner = mapped original inner := by
  refine mapped_congr ?_
  have hmod : mappedValue original inner % 2^inner.hostBits =
      original.toInt % 2^inner.hostBits := mappedValue_mod
  rw [mappedValue,mapped_toInt hversion,hmod]
  rfl

/-- In a target that is as long or longer, only the host bits of the original are left. -/
theorem mappedValue_longer (hversion : original.version = inner.version)
    (hbits : outer.hostBits ≤ inner.hostBits) :
    mappedValue (mapped original inner) outer = mappedValue original outer := by
  have hdvd : 2^outer.hostBits ∣ 2^inner.hostBits := Nat.pow_dvd_pow 2 hbits
  have hmod : mappedValue original inner % 2^outer.hostBits =
      original.toInt % 2^outer.hostBits := by
    rw [← Nat.mod_mod_of_dvd _ hdvd,mappedValue_mod,Nat.mod_mod_of_dvd _ hdvd]
  rw [mappedValue,mapped_toInt hversion,hmod]
  rfl

/-- In a shorter target, bits of the longer one are left too. -/
theorem mappedValue_shorter (hversion : original.version = inner.version)
    (hbits : inner.hostBits < outer.hostBits) :
    mappedValue (mapped original inner) outer = layered original inner outer := by
  obtain ⟨k,hk⟩ := Nat.dvd_of_mod_eq_zero inner.toInt_mod
  have hsize : 2^outer.hostBits = 2^inner.hostBits * 2^(outer.hostBits-inner.hostBits) := by
    rw [← Nat.pow_add]
    congr 1
    omega
  have hhost : original.toInt % 2^inner.hostBits < 2^inner.hostBits :=
    Nat.mod_lt _ (Nat.two_pow_pos _)
  have hmod : (inner.toInt + original.toInt % 2^inner.hostBits) % 2^outer.hostBits =
      inner.toInt % 2^outer.hostBits + original.toInt % 2^inner.hostBits := by
    rw [hk,hsize,Nat.mod_mul,Nat.mul_mod_mul_left,Nat.mul_add_mod,Nat.mod_eq_of_lt hhost,
      Nat.mul_add_div (Nat.two_pow_pos _),Nat.div_eq_of_lt hhost,Nat.add_zero]
    omega
  rw [mappedValue,mapped_toInt hversion,layered,Nat.add_assoc,← hmod]
  rfl

section Twice
variable {originals : List Address} {targets : List Network} {version : ℕ}

/-- The second time yields an address of the first just when the layered ones are among them. -/
theorem expanded_twice_iff (horiginals : ∀ original ∈ originals, original.version = version)
    (htargets : ∀ target ∈ targets, target.version = version)
    (hkeep : ∀ original ∈ originals, ∀ target ∈ targets, ¬ LosesFamily original target) :
    (∀ address ∈ expanded (expanded originals targets) targets,
      address ∈ expanded originals targets) ↔ Settles originals targets := by
  have hversion {original : Address} {target : Network} (ho : original ∈ originals)
      (ht : target ∈ targets) : original.version = target.version :=
    (horiginals original ho).trans (htargets target ht).symm
  have hbits {s t : Network} (hs : s ∈ targets) (ht : t ∈ targets) :
      s.maxPrefixlen = t.maxPrefixlen := by
    have h := (htargets s hs).trans (htargets t ht).symm
    revert h
    cases s <;> cases t <;> simp [Network.version,Network.maxPrefixlen]
  have hhost {s t : Network} (hs : s ∈ targets) (ht : t ∈ targets) :
      t.prefixlen < s.prefixlen ↔ s.hostBits < t.hostBits := by
    have hmax := hbits hs ht
    have hle := s.prefixlen_le
    have hle' := t.prefixlen_le
    simp only [Network.hostBits]
    omega
  have hagain {original : Address} {s t : Network} (ho : original ∈ originals) (hs : s ∈ targets)
      (ht : t ∈ targets) : (mapped original s).version = t.version := by
    rw [(mapped_version (hversion ho hs)).mpr (hkeep original ho s hs),hversion ho ht]
  constructor
  · intro h original ho inner hs outer ht hlonger
    have hfirst := mem_expanded.mpr ⟨original,ho,inner,hs,rfl⟩
    have hsecond := h _ (mem_expanded.mpr ⟨_,hfirst,outer,ht,rfl⟩)
    obtain ⟨other,hother,target,htarget,heq⟩ := mem_expanded.mp hsecond
    refine ⟨other,hother,target,htarget,?_⟩
    rw [← mappedValue_shorter (hversion ho hs) ((hhost hs ht).mp hlonger),
      ← mapped_toInt (hagain ho hs ht),← heq,mapped_toInt (hversion hother htarget)]
    rfl
  · intro h address haddress
    obtain ⟨first,hfirst,outer,ht,rfl⟩ := mem_expanded.mp haddress
    obtain ⟨original,ho,inner,hs,rfl⟩ := mem_expanded.mp hfirst
    by_cases hlonger : outer.prefixlen < inner.prefixlen
    · obtain ⟨other,hother,target,htarget,heq⟩ := h original ho inner hs outer ht hlonger
      refine mem_expanded.mpr ⟨other,hother,target,htarget,mapped_congr ?_⟩
      rw [mappedValue_shorter (hversion ho hs) ((hhost hs ht).mp hlonger),heq]
      rfl
    · refine mem_expanded.mpr ⟨original,ho,outer,ht,mapped_congr ?_⟩
      rw [mappedValue_longer (hversion ho hs) (Nat.le_of_not_lt (mt (hhost hs ht).mpr hlonger))]

theorem expanded_subset_twice (horiginals : ∀ original ∈ originals, original.version = version)
    (htargets : ∀ target ∈ targets, target.version = version) :
    ∀ address ∈ expanded originals targets,
      address ∈ expanded (expanded originals targets) targets := by
  intro address haddress
  obtain ⟨original,ho,target,ht,rfl⟩ := mem_expanded.mp haddress
  have hversion := (horiginals original ho).trans (htargets target ht).symm
  exact mem_expanded.mpr ⟨_,haddress,target,ht,mapped_again hversion⟩

end Twice

/-! ### Two stages -/

/-- The addresses of an answer. -/
def ips (a : Answer) : List Address := (a.rrset.map RRset.ips).getD []

/-- `replace_answer` ends and leaves the addresses of the answer as they are. -/
def LeavesAddresses (texts : RecordText) (service : IpReplaceService) (tags : Finset String)
    (a : Answer) : Prop :=
  ∃ changed a', replaceAnswer texts service tags a = (.ok changed,a') ∧
    ∀ address, address ∈ ips a' ↔ address ∈ ips a

variable {texts : RecordText} {service : IpReplaceService} {rules : List IpReplaceRuleConfig}
  {skipTags : List String} {tags : Finset String} {a a' : Answer} {r : RRset}

theorem targetsFor_rrset (h : targetsFor service tags a ≠ []) :
    ∃ r, a.rrset = some r ∧ a.rdtype ∈ addressTypes := by
  unfold targetsFor at h
  split at h
  · contradiction
  · rename_i hguards
    simp only [not_or] at hguards
    have hnormal := hguards.2.2
    unfold IpReplaceService.normalAddressRRset at hnormal
    cases hr : a.rrset with
    | none => simp [hr] at hnormal
    | some r =>
      refine ⟨r,rfl,?_⟩
      by_contra htype
      simp [hr,htype] at hnormal

variable (service tags) in
/-- The same rule applies to an answer that was replaced. -/
theorem targetsFor_replaced {r' : RRset} (ha : a.rrset = some r) (ha' : a'.rrset = some r')
    (hrdtype : a'.rdtype = a.rdtype) (hrcode : a'.response.rcode = a.response.rcode) :
    targetsFor service tags a' = targetsFor service tags a := by
  have hnormal : normalAddressRRset a' = none ↔ normalAddressRRset a = none := by
    unfold IpReplaceService.normalAddressRRset
    simp only [ha,ha',hrdtype,hrcode]
    split
    · rfl
    · split <;> simp
  unfold targetsFor
  rw [hrdtype]
  simp only [hnormal]

/-- What a first replacement has produced, a second leaves as it is just when the targets settle
on the original addresses. -/
theorem replaceAnswer_twice_iff (texts : RecordText) (rules : List IpReplaceRuleConfig)
    (skipTags : List String) (service : IpReplaceService) (tags : Finset String) (a a' : Answer)
    (changed : Bool) (hservice : IpReplaceService.make rules skipTags = .ok service)
    (hdecoded : ∀ r, a.rrset = some r → a.rdtype ∈ addressTypes → OfAddresses a r)
    (hfirst : replaceAnswer texts service tags a = (.ok changed,a')) :
    LeavesAddresses texts service tags a' ↔ Settles (ips a) (targetsFor service tags a) := by
  by_cases hidle : targetsFor service tags a = []
  · rw [replaceAnswer_idle hidle] at hfirst
    cases hfirst
    constructor
    · intro _ original _ inner hinner
      simp [hidle] at hinner
    · intro _
      exact ⟨false,a,replaceAnswer_idle hidle,fun _ => Iff.rfl⟩
  · obtain ⟨r,hr,htype⟩ := targetsFor_rrset hidle
    have h := hdecoded r hr htype
    have hips : ips a = r.ips := by simp [ips,hr]
    rw [hips]
    have hkeep := replaceAnswer_keeps hservice h hfirst
    obtain ⟨_,_,r',hrun,h',hexpanded,hrdtype,hrcode⟩ :=
      replaceAnswer_replaces texts hservice h hidle hkeep
    rw [hfirst] at hrun
    cases hrun
    have hsame := targetsFor_replaced service tags hr h'.rrset hrdtype hrcode
    have horiginals := h.addresses.version
    rw [h.rdtype] at horiginals
    have htargets : ∀ target ∈ targetsFor service tags a,
        target.version = addressVersion a.rdtype :=
      targetsFor_version hservice
    have hips' : ips a' = expanded r.ips (targetsFor service tags a) := by
      simp [ips,h'.rrset,hexpanded]
    have hsettles := expanded_twice_iff horiginals htargets hkeep
    have hsubset := expanded_subset_twice horiginals htargets
    constructor
    · intro hleaves
      obtain ⟨_,a'',hrun,haddresses⟩ := hleaves
      have hkeep' := replaceAnswer_keeps hservice h' hrun
      obtain ⟨_,_,r'',hrun',h'',hexpanded',_⟩ :=
        replaceAnswer_replaces texts hservice h' (by rwa [hsame]) hkeep'
      rw [hrun] at hrun'
      cases hrun'
      refine hsettles.mp fun address haddress => ?_
      rw [← hips',← haddresses,ips,h''.rrset]
      simpa [hexpanded',hsame,hexpanded] using haddress
    · intro hsettled
      have hmapped := hsettles.mpr hsettled
      have hkeep' : ∀ original ∈ r'.ips, ∀ target ∈ targetsFor service tags a',
          ¬ LosesFamily original target := by
        rw [hexpanded,hsame]
        intro first hfirst target htarget hloses
        have hsecond := hmapped _ (mem_expanded.mpr ⟨first,hfirst,target,htarget,rfl⟩)
        obtain ⟨other,hother,target',htarget',heq⟩ := mem_expanded.mp hsecond
        have hversion := expanded_version hservice h hother htarget'
        have hfour : (mapped first target).version = 4 := by
          unfold mapped
          rw [if_pos hloses.2]
          rfl
        rw [← heq,(mapped_version hversion).mpr (hkeep other hother target' htarget'),
          horiginals other hother] at hfour
        have hversion' := h'.addresses.version first (by rwa [hexpanded])
        rw [h'.rdtype,hrdtype,hfour,hloses.1] at hversion'
        cases hversion'
      obtain ⟨changed',a'',r'',hrun,h'',hexpanded',_⟩ :=
        replaceAnswer_replaces texts hservice h' (by rwa [hsame]) hkeep'
      refine ⟨changed',a'',hrun,fun address => ?_⟩
      rw [hips',ips,h''.rrset]
      simp only [Option.map_some,Option.getD_some]
      rw [hexpanded',hsame,hexpanded]
      exact ⟨hmapped address,hsubset address⟩

theorem replaceAnswer_twice_host :
    LeavesAddresses plainText exampleService {"proxy"}
        (replaceAnswer plainText exampleService {"proxy"}
          (hostAnswer [addressOf hostName 1] (some (addressOf hostName 1)))).2 ↔
      Settles (ips (hostAnswer [addressOf hostName 1] (some (addressOf hostName 1))))
        (targetsFor exampleService {"proxy"}
          (hostAnswer [addressOf hostName 1] (some (addressOf hostName 1)))) := by
  refine replaceAnswer_twice_iff plainText [exampleConfig] [] exampleService {"proxy"} _ _ true
    exampleService_made (fun r hr _ => ?_) rfl
  cases hr
  refine ⟨rfl,⟨rfl,by decide,fun record hrecord => ?_⟩,rfl,rfl⟩
  rw [List.mem_singleton.mp hrecord]
  exact ⟨rfl,_,rfl⟩

/-! ### Two targets of different lengths -/

def homeNetwork : Network := .v4 ⟨BitVec.ofNat 32 (192*2^24+168*2^16+2^8),⟨24,by decide⟩,by decide⟩

def twoTargets : IpReplaceRuleConfig where
  name := "rule"
  matchTags := ["proxy"]
  ipv4Targets := [['1','0','.','0','.','0','.','0','/','8'],
    ['1','9','2','.','1','6','8','.','1','.','0','/','2','4']]
  ipv4 := by
    simp only [List.forall_mem_cons]
    exact ⟨⟨privateNetwork,rfl,by decide⟩,⟨homeNetwork,rfl,by decide⟩,by simp⟩
  ipv6 := by simp

def twoTargetsService : IpReplaceService where
  rules := [{
    name := "rule"
    matchTags := {"proxy"}
    excludeTags := ∅
    ipv4Targets := [privateNetwork,homeNetwork]
    ipv6Targets := [] }]
  skipTags := ∅

/-- 1.2.3.4. -/
def originalRRset : RRset := addressOf hostName 0x01020304

/-- 1.2.3.4 becomes 10.2.3.4 and 192.168.1.4, and the second time 192.168.1.4 becomes 10.168.1.4 as
well. -/
theorem replaceAnswer_twice_changes :
    IpReplaceService.make [twoTargets] [] = .ok twoTargetsService ∧
    ∃ a', replaceAnswer plainText twoTargetsService {"proxy"}
        (hostAnswer [originalRRset] (some originalRRset)) = (.ok true,a') ∧
      ips a' = [.v4 (BitVec.ofNat 32 0x0a020304),.v4 (BitVec.ofNat 32 0xc0a80104)] ∧
      ¬ LeavesAddresses plainText twoTargetsService {"proxy"} a' := by
  refine ⟨rfl,_,rfl,rfl,fun h => ?_⟩
  obtain ⟨changed,a'',hrun,hsame⟩ := h
  cases hrun
  exact absurd ((hsame (.v4 (BitVec.ofNat 32 0x0aa80104))).mp (by decide)) (by decide)

end IpReplace

end SmartDns
