import SmartDns.Core.IpText
set_option autoImplicit false

/-! `ipaddress`: addresses and networks as numbers, and the range of a network. -/

namespace IpText

def Address.version : Address → ℕ
  | .v4 _ => 4
  | .v6 _ => 6

def Address.maxPrefixlen : Address → ℕ
  | .v4 _ => 32
  | .v6 _ => 128

/-- `int(address)`. -/
def Address.toInt : Address → ℕ
  | .v4 ip => ip.toNat
  | .v6 address => address.ip.toNat

def Network.version : Network → ℕ
  | .v4 _ => 4
  | .v6 _ => 6

def Network.maxPrefixlen : Network → ℕ
  | .v4 _ => 32
  | .v6 _ => 128

def Network.prefixlen : Network → ℕ
  | .v4 network => network.prefixlen
  | .v6 network => network.prefixlen

/-- `int(network.network_address)`. -/
def Network.toInt : Network → ℕ
  | .v4 network => network.networkAddress.toNat
  | .v6 network => network.networkAddress.ip.toNat

/-- An address and a network of version 6 may carry the name of an interface. -/
def Address.Scopeless : Address → Prop
  | .v4 _ => True
  | .v6 address => address.scopeId = none

def Network.Scopeless : Network → Prop
  | .v4 _ => True
  | .v6 network => network.networkAddress.scopeId = none

instance : DecidablePred Network.Scopeless
  | .v4 _ => inferInstanceAs (Decidable True)
  | .v6 network => inferInstanceAs (Decidable (network.networkAddress.scopeId = none))

def Network.hostBits (network : Network) : ℕ := network.maxPrefixlen-network.prefixlen

/-- The address is between the network address and the broadcast address. -/
def Network.Contains (network : Network) (address : Address) : Prop :=
  network.version = address.version ∧
    network.toInt ≤ address.toInt ∧ address.toInt < network.toInt+2^network.hostBits

/-- `ip_address` of a number: an IPv4 address where there is one. -/
def ipAddressOfInt (n : ℕ) : Option Address :=
  if n < 2^32 then some (.v4 (BitVec.ofNat 32 n))
  else if n < 2^128 then some (.v6 { ip := BitVec.ofNat 128 n })
  else none

/-- `ip_network(text)`: a text with host bits is refused. -/
def strictIpNetwork (text : List Char) : Option Network := do
  let network ← ipNetwork text
  let (addr,_) ← splitAddrPrefix text
  let address ← ipAddress addr
  if address.toInt = network.toInt then some network else none

theorem masked_mod {w prefixlen : ℕ} {ip : BitVec w} (h : ip &&& netmask w prefixlen = ip) :
    ip.toNat % 2^(w-prefixlen) = 0 := by
  refine Nat.eq_of_testBit_eq fun i => ?_
  rw [Nat.testBit_mod_two_pow,Nat.zero_testBit,Bool.and_eq_false_iff]
  by_cases hi : i < w-prefixlen
  · right
    have hbit := congrArg (fun x => x.getLsbD i) h
    have hclear : (netmask w prefixlen).getLsbD i = false := by
      simp [netmask]
      omega
    rw [BitVec.getLsbD_and,hclear,Bool.and_false] at hbit
    exact hbit.symm
  · exact .inl (by simpa using hi)

theorem Network.toInt_mod (network : Network) : network.toInt % 2^network.hostBits = 0 := by
  cases network with
  | v4 network => exact masked_mod network.masked
  | v6 network => exact masked_mod network.masked

theorem Network.toInt_lt (network : Network) : network.toInt < 2^network.maxPrefixlen := by
  cases network with
  | v4 network => exact network.networkAddress.isLt
  | v6 network => exact network.networkAddress.ip.isLt

theorem Network.prefixlen_le (network : Network) : network.prefixlen ≤ network.maxPrefixlen := by
  cases network with
  | v4 network => exact Nat.lt_succ_iff.mp network.prefixlen.isLt
  | v6 network => exact Nat.lt_succ_iff.mp network.prefixlen.isLt

theorem maxPrefixlen_eq {network : Network} {address : Address}
    (h : address.version = network.version) : address.maxPrefixlen = network.maxPrefixlen := by
  cases network <;> cases address <;>
    simp_all [Address.version,Network.version,Address.maxPrefixlen,Network.maxPrefixlen]

/-- An address is in the range just when its upper bits are those of the network. -/
theorem Network.contains_iff {network : Network} {address : Address} :
    network.Contains address ↔ network.version = address.version ∧
      address.toInt / 2^network.hostBits = network.toInt / 2^network.hostBits := by
  have hmod := network.toInt_mod
  have hpos : 0 < 2^network.hostBits := Nat.two_pow_pos _
  refine and_congr_right fun _ => ?_
  rw [Nat.div_eq_iff hpos]
  have hdiv := Nat.div_add_mod network.toInt (2^network.hostBits)
  rw [hmod,Nat.add_zero,Nat.mul_comm] at hdiv
  omega

/-! ### Addresses as networks -/

/-- The network of one address. -/
def Network.single : Address → Network
  | .v4 ip => .v4 (.make ip (Fin.last 32))
  | .v6 address => .v6 (.make address (Fin.last 128))

/-- The network's bits are the first of the other's. -/
def Network.Covers (network target : Network) : Prop :=
  network.version = target.version ∧ network.prefixlen ≤ target.prefixlen ∧
    target.toInt / 2^network.hostBits = network.toInt / 2^network.hostBits

instance (network target : Network) : Decidable (network.Covers target) :=
  inferInstanceAs (Decidable (_ ∧ _ ∧ _))

theorem and_netmask_full {w : ℕ} (ip : BitVec w) : ip &&& netmask w w = ip := by
  have hshift : BitVec.allOnes w >>> w = 0#w := BitVec.ushiftRight_eq_zero (Nat.le_refl w)
  rw [netmask,hshift,BitVec.xor_zero,BitVec.and_allOnes]

theorem IPv6Network.make_full (address : IPv6Address) :
    IPv6Network.make address (Fin.last 128) =
      ⟨address,Fin.last 128,and_netmask_full address.ip⟩ := dif_pos _

theorem Network.single_toInt (address : Address) : (single address).toInt = address.toInt := by
  cases address with
  | v4 ip => exact congrArg BitVec.toNat (and_netmask_full ip)
  | v6 address =>
    simp only [single,IPv6Network.make_full]
    rfl

theorem Network.single_prefixlen (address : Address) :
    (single address).prefixlen = (single address).maxPrefixlen := by
  cases address with
  | v4 ip => rfl
  | v6 address =>
    simp only [single,IPv6Network.make_full]
    rfl

theorem Network.single_version (address : Address) :
    (single address).version = address.version := by
  cases address <;> rfl

theorem Network.maxPrefixlen_of_version {network target : Network}
    (h : network.version = target.version) : network.maxPrefixlen = target.maxPrefixlen := by
  cases network <;> cases target <;> simp_all [Network.version,Network.maxPrefixlen]

theorem Network.single_scopeless {address : Address} (h : address.Scopeless) :
    (single address).Scopeless := by
  cases address with
  | v4 ip => exact trivial
  | v6 address =>
    simp only [single,IPv6Network.make_full]
    exact h

/-- Covering an address is having it in the range. -/
theorem Network.covers_single {network : Network} {address : Address} :
    network.Covers (single address) ↔ network.Contains address := by
  unfold Covers
  rw [contains_iff,single_toInt,single_version,single_prefixlen]
  refine and_congr_right fun hversion => ⟨fun h => h.2,fun h => ⟨?_,h⟩⟩
  rw [← maxPrefixlen_of_version (hversion.trans (single_version address).symm)]
  exact network.prefixlen_le

theorem splitAddrPrefix_none {text : List Char} (h : '/' ∉ text) :
    splitAddrPrefix text = some (text,none) := by
  have hjoin : text = ['/'].intercalate [text] := by simp
  have hsplit : text.splitOn '/' = [text] := by
    conv => lhs; rw [hjoin]
    exact List.splitOn_intercalate '/' (by simpa using h) (by simp)
  unfold splitAddrPrefix
  rw [hsplit]

theorem ipNetwork_address {text : List Char} {address : Address}
    (h : ipAddress text = some address) : ipNetwork text = some (.single address) := by
  have hslash : '/' ∉ text := by
    intro hslash
    simp [ipAddress,ipv4Address,ipv6Address,hslash] at h
  unfold ipAddress at h
  unfold ipNetwork ipv4Network ipv6Network
  simp only [splitAddrPrefix_none hslash,Option.bind_eq_bind,Option.bind_some]
  split at h
  · rename_i ip hip
    cases h
    rw [hip]
    rfl
  · rename_i hnone
    rw [hnone]
    obtain ⟨address,haddress,rfl⟩ := Option.map_eq_some_iff.mp h
    rw [haddress]
    rfl

end IpText
