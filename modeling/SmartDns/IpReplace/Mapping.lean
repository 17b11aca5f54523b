import SmartDns.IpReplace.Service
set_option autoImplicit false

/-!
What becomes of an address in a target network. `ip_address` of the mapped number is an IPv4
address whenever it can be, so that an IPv6 address with a small number is lost.
-/

namespace SmartDns

namespace IpReplace

open IpText (Address Network ipAddress ipNetwork strictIpNetwork ipAddressOfInt)

/-- The number of the address in the target that has the host bits of the original. -/
def mappedValue (originalIp : Address) (target : Network) : ℕ :=
  target.toInt + originalIp.toInt % 2^target.hostBits

/-- The mapped number is that of an IPv4 address, for an original of IPv6. -/
def LosesFamily (originalIp : Address) (target : Network) : Prop :=
  originalIp.version = 6 ∧ mappedValue originalIp target < 2^32

instance (originalIp : Address) (target : Network) : Decidable (LosesFamily originalIp target) :=
  inferInstanceAs (Decidable (_ ∧ _))

/-- The mapping gives an address of the family of the original, in the target, with the host bits
of the original. -/
def MapsInto (originalIp : Address) (target : Network) : Prop :=
  ∃ address, IpReplaceService.mapIpToNetwork originalIp target = .ok address ∧
    address.version = originalIp.version ∧ target.Contains address ∧
    address.toInt % 2^target.hostBits = originalIp.toInt % 2^target.hostBits

variable {originalIp : Address} {target : Network}

theorem mappedValue_or (hversion : originalIp.version = target.version) :
    target.toInt ||| (originalIp.toInt &&&
      if 0 < originalIp.maxPrefixlen-target.prefixlen then
        1 <<< (originalIp.maxPrefixlen-target.prefixlen) - 1 else 0) =
      mappedValue originalIp target := by
  have hbits : originalIp.maxPrefixlen-target.prefixlen = target.hostBits := by
    rw [IpText.maxPrefixlen_eq hversion]
    rfl
  have hmask : (if 0 < target.hostBits then 1 <<< target.hostBits - 1 else 0) =
      2^target.hostBits - 1 := by
    rw [Nat.one_shiftLeft]
    split
    · rfl
    · rename_i hzero
      rw [Nat.eq_zero_of_not_pos hzero,Nat.pow_zero]
  have hnetwork : 2^target.hostBits * (target.toInt / 2^target.hostBits) = target.toInt := by
    have hdiv := Nat.div_add_mod target.toInt (2^target.hostBits)
    rwa [target.toInt_mod,Nat.add_zero] at hdiv
  have hhost : originalIp.toInt % 2^target.hostBits < 2^target.hostBits :=
    Nat.mod_lt _ (Nat.two_pow_pos _)
  rw [hbits,hmask,Nat.and_two_pow_sub_one_eq_mod,mappedValue]
  conv => lhs; rw [← hnetwork]
  rw [← Nat.two_pow_add_eq_or_of_lt hhost,hnetwork]

theorem mappedValue_mod : mappedValue originalIp target % 2^target.hostBits =
    originalIp.toInt % 2^target.hostBits := by
  rw [mappedValue,Nat.add_mod,target.toInt_mod,Nat.zero_add,Nat.mod_mod,Nat.mod_mod]

theorem mappedValue_lt : mappedValue originalIp target < 2^target.maxPrefixlen := by
  have hhost : originalIp.toInt % 2^target.hostBits < 2^target.hostBits :=
    Nat.mod_lt _ (Nat.two_pow_pos _)
  obtain ⟨k,hk⟩ := Nat.dvd_of_mod_eq_zero target.toInt_mod
  have hsize : 2^target.maxPrefixlen = 2^target.hostBits * 2^target.prefixlen := by
    rw [← Nat.pow_add]
    congr 1
    have := target.prefixlen_le
    simp only [Network.hostBits]
    omega
  have hlt := target.toInt_lt
  rw [hk,hsize] at hlt
  have hk' : k < 2^target.prefixlen := Nat.lt_of_mul_lt_mul_left hlt
  have hnext : 2^target.hostBits * (k+1) ≤ 2^target.hostBits * 2^target.prefixlen :=
    Nat.mul_le_mul_left _ hk'
  rw [Nat.mul_succ] at hnext
  rw [mappedValue,hk,hsize]
  omega

/-- The address that `_map_ip_to_network` returns. -/
def mapped (originalIp : Address) (target : Network) : Address :=
  if mappedValue originalIp target < 2^32 then
    .v4 (BitVec.ofNat 32 (mappedValue originalIp target))
  else .v6 { ip := BitVec.ofNat 128 (mappedValue originalIp target) }

theorem mapIpToNetwork_eq (hversion : originalIp.version = target.version) :
    IpReplaceService.mapIpToNetwork originalIp target = .ok (mapped originalIp target) := by
  have hlt : mappedValue originalIp target < 2^128 := by
    refine (mappedValue_lt).trans_le (Nat.pow_le_pow_right (by decide) ?_)
    cases target <;> simp [Network.maxPrefixlen]
  unfold IpReplaceService.mapIpToNetwork mapped
  simp only [mappedValue_or hversion,ipAddressOfInt]
  by_cases hsmall : mappedValue originalIp target < 2^32
  · simp only [if_pos hsmall]
  · simp only [if_neg hsmall,if_pos hlt]

theorem mapped_toInt (hversion : originalIp.version = target.version) :
    (mapped originalIp target).toInt = mappedValue originalIp target := by
  have hlt : mappedValue originalIp target < 2^target.maxPrefixlen := mappedValue_lt
  unfold mapped
  split
  · rename_i hsmall
    exact (BitVec.toNat_ofNat _ _).trans (Nat.mod_eq_of_lt hsmall)
  · refine (BitVec.toNat_ofNat _ _).trans (Nat.mod_eq_of_lt (hlt.trans_le ?_))
    refine Nat.pow_le_pow_right (by decide) ?_
    cases target <;> simp [Network.maxPrefixlen]

theorem mapped_scope {address : IpText.IPv6Address} (h : mapped originalIp target = .v6 address) :
    address.scopeId = none := by
  unfold mapped at h
  split at h
  · contradiction
  · cases h
    rfl

theorem mapped_version (hversion : originalIp.version = target.version) :
    (mapped originalIp target).version = originalIp.version ↔ ¬ LosesFamily originalIp target := by
  unfold mapped LosesFamily
  cases originalIp with
  | v4 ip =>
    have hlt : mappedValue (.v4 ip) target < 2^target.maxPrefixlen := mappedValue_lt
    rw [← IpText.maxPrefixlen_eq hversion] at hlt
    have hsmall : mappedValue (.v4 ip) target < 2^32 := hlt
    rw [if_pos hsmall]
    simp [Address.version]
  | v6 address =>
    split
    · rename_i hsmall
      simpa [Address.version] using hsmall
    · rename_i hlarge
      simpa [Address.version] using hlarge

theorem mapsInto_iff (hversion : originalIp.version = target.version) :
    MapsInto originalIp target ↔ ¬ LosesFamily originalIp target := by
  unfold MapsInto
  rw [mapIpToNetwork_eq hversion,← mapped_version hversion]
  constructor
  · intro h
    obtain ⟨address,haddress,hfamily,_⟩ := h
    cases haddress
    exact hfamily
  · intro h
    refine ⟨_,rfl,h,⟨?_,?_⟩,?_⟩
    · rw [h,hversion]
    · rw [mapped_toInt hversion,mappedValue]
      have := Nat.mod_lt originalIp.toInt (Nat.two_pow_pos target.hostBits)
      omega
    · rw [mapped_toInt hversion,mappedValue_mod]

/-! ### The targets of a service -/

theorem strictIpNetwork_withPrefixlen (network : Network) :
    strictIpNetwork network.withPrefixlen = some network := by
  unfold strictIpNetwork
  rw [IpText.ipNetwork_withPrefixlen]
  cases network with
  | v4 network =>
    have hslash : '/' ∉ IpText.ipv4Text network.networkAddress := by
      intro hc
      obtain h | h := IpText.ipv4Text_chars _ _ hc
      · exact absurd h (by decide)
      · exact absurd h (by decide)
    have hread : ipAddress (IpText.ipv4Text network.networkAddress) =
        some (.v4 network.networkAddress) :=
      IpText.ipAddress_compressed (.v4 network.networkAddress)
    simp [Network.withPrefixlen,IpText.splitAddrPrefix_slash hslash,hread,Address.toInt,
      Network.toInt]
  | v6 network =>
    have hread : ipAddress network.networkAddress.text = some (.v6 network.networkAddress) :=
      IpText.ipAddress_compressed (.v6 network.networkAddress)
    simp [Network.withPrefixlen,IpText.splitAddrPrefix_slash network.networkAddress.slash_not_mem,
      hread,Address.toInt,Network.toInt]

theorem compileTarget_normal {version : ℕ} {text : List Char} (h : NormalText version text) :
    ∃ network, compileTarget text = .ok network ∧ network.version = version := by
  obtain ⟨network,hversion,rfl⟩ := h
  refine ⟨network,?_,hversion⟩
  unfold compileTarget
  rw [strictIpNetwork_withPrefixlen]

/-- The targets of a compiled rule are of the families they are listed under. -/
theorem compileRule_targets {config : IpReplaceRuleConfig} {rule : CompiledIpReplaceRule}
    (h : compileRule config = .ok rule) :
    (∀ network ∈ rule.ipv4Targets, network.version = 4) ∧
      ∀ network ∈ rule.ipv6Targets, network.version = 6 := by
  have hlist {version : ℕ} {items : List (List Char)} {networks : List Network}
      (hnormal : ∀ text ∈ items, NormalText version text)
      (h : items.mapM compileTarget = .ok networks) :
      ∀ network ∈ networks, network.version = version := by
    intro network hnetwork
    obtain ⟨text,htext,hcompile⟩ := (Exec.except_mapM_mem h).2 network hnetwork
    obtain ⟨network',hok,hversion⟩ := compileTarget_normal (hnormal text htext)
    rw [hok] at hcompile
    cases hcompile
    exact hversion
  obtain ⟨ipv4Targets,h4,h⟩ := Exec.except_bind_eq_ok.mp h
  obtain ⟨ipv6Targets,h6,h⟩ := Exec.except_bind_eq_ok.mp h
  cases h
  exact ⟨hlist config.ipv4 h4,hlist config.ipv6 h6⟩

variable {service : IpReplaceService} {rules : List IpReplaceRuleConfig} {skipTags : List String}
  {tags : Finset String} {rdtype : RdataType} {rule : CompiledIpReplaceRule}

theorem matchRule_targets (hservice : IpReplaceService.make rules skipTags = .ok service)
    (h : service.matchRule tags (addressVersion rdtype) = some rule) :
    rule.targets (addressVersion rdtype) ≠ [] ∧
      ∀ target ∈ rule.targets (addressVersion rdtype), target.version = addressVersion rdtype := by
  have hmatch := List.find?_some h
  simp only [decide_eq_true_eq] at hmatch
  obtain ⟨compiled,hcompiled,hservice⟩ := Exec.except_bind_eq_ok.mp hservice
  cases hservice
  obtain ⟨config,_,hconfig⟩ := (Exec.except_mapM_mem hcompiled).2 rule (List.mem_of_find?_eq_some h)
  obtain ⟨h4,h6⟩ := compileRule_targets hconfig
  refine ⟨hmatch.2.2,?_⟩
  unfold CompiledIpReplaceRule.targets addressVersion
  by_cases ha : rdtype = RdataType.A
  · simpa [ha] using h4
  · simpa [ha] using h6

end IpReplace

end SmartDns
