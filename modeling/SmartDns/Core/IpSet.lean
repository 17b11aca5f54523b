import SmartDns.Dns.Message
import SmartDns.Lib.Multimap
set_option autoImplicit false

/-!
What an `IPSet` is for: networks with tags, looked up by address. Nothing is said of the tree;
the set over the radix tree, `RadixIPSet`, answers as the one with the nodes that its tree stores.
-/

namespace SmartDns

inductive IPAddress where
  | v4 (address : BitVec 32)
  | v6 (address : BitVec 128)
  deriving DecidableEq, Repr

/-- `ip_network(value, strict=False)`: host bits play no part. -/
inductive IPNetwork where
  | v4 (network : BitVec 32) (prefixlen : Fin 33)
  | v6 (network : BitVec 128) (prefixlen : Fin 129)
  deriving DecidableEq, Repr

def IPNetwork.covers : IPNetwork → IPAddress → Bool
  | .v4 network prefixlen, .v4 address =>
    network >>> (32-prefixlen.val) = address >>> (32-prefixlen.val)
  | .v6 network prefixlen, .v6 address =>
    network >>> (128-prefixlen.val) = address >>> (128-prefixlen.val)
  | _, _ => false

structure IPSetNode where
  network : IPNetwork
  tags : Finset String

structure IPSet where
  nodes : List IPSetNode := []

namespace IPSet

def searchCovering (s : IPSet) (address : IPAddress) : List IPSetNode :=
  s.nodes.filter fun node => node.network.covers address

def lookup (s : IPSet) (address : IPAddress) : Finset String :=
  (s.searchCovering address).foldl (fun tags node => tags ∪ node.tags) ∅

/-- A network with the tag contains the address. -/
def Tagged (s : IPSet) (address : IPAddress) (tag : String) : Prop :=
  ∃ node ∈ s.nodes, node.network.covers address = true ∧ tag ∈ node.tags

theorem mem_lookup {s : IPSet} {address : IPAddress} {tag : String} :
    tag ∈ s.lookup address ↔ s.Tagged address tag := by
  unfold lookup
  rw [Multimap.mem_foldl_union]
  simp [searchCovering,Tagged,and_assoc]

end IPSet

end SmartDns
