import SmartDns.Core.IpRange
import SmartDns.Core.IpSet
import SmartDns.Core.PyText
import SmartDns.Core.TagFiles
import Mathlib.Data.Char
import Mathlib.Data.List.Lex
set_option autoImplicit false

/-!
`IPSet` over the radix tree that it keeps: how it is made of the tag files, and how a snapshot
is taken and read back. The tree and pickle are libraries of their own.
-/

/-! ### Networks and addresses as bit vectors -/

namespace IpText

open SmartDns

def Network.toIPNetwork : Network → IPNetwork
  | .v4 network => .v4 network.networkAddress network.prefixlen
  | .v6 network => .v6 network.networkAddress.ip network.prefixlen

def Address.toIPAddress : Address → IPAddress
  | .v4 ip => .v4 ip
  | .v6 address => .v6 address.ip

theorem ushiftRight_eq_iff {w n : ℕ} {x y : BitVec w} :
    x >>> n = y >>> n ↔ y.toNat / 2^n = x.toNat / 2^n := by
  rw [← BitVec.toNat_inj,BitVec.toNat_ushiftRight,BitVec.toNat_ushiftRight,
    Nat.shiftRight_eq_div_pow,Nat.shiftRight_eq_div_pow,eq_comm]

/-- The upper bits of an address are those of a network just when it is in the range. -/
theorem Network.covers_iff {network : Network} {address : Address} :
    network.toIPNetwork.covers address.toIPAddress = true ↔ network.Contains address := by
  rw [contains_iff]
  cases network <;> cases address <;>
    simp [toIPNetwork,Address.toIPAddress,IPNetwork.covers,Network.version,Address.version,
      Network.toInt,Address.toInt,Network.hostBits,Network.maxPrefixlen,Network.prefixlen,
      ushiftRight_eq_iff]

theorem Network.withPrefixlen_injective {network other : Network}
    (h : network.withPrefixlen = other.withPrefixlen) : network = other := by
  have hread := ipNetwork_withPrefixlen network
  rw [h,ipNetwork_withPrefixlen] at hread
  exact (Option.some.inj hread).symm

end IpText

namespace SmartDns

open IpText

/-- A node, with what `data.get("tags")` gives. -/
structure RadixNode where
  tags : Option (List String)
  deriving DecidableEq

/-- The `radix` package and pickle, over trees `T` and payloads `P`. There is no native tree
where the first `add` to one raises a `UnicodeDecodeError`. -/
structure RadixPackage (T P : Type) where
  native : Option T
  purePython : T
  /-- `tree.add(network).data["tags"] = tags` -/
  addTags : T → List Char → List String → Except PyException T
  searchCovering : T → List Char → Except PyException (List RadixNode)
  dumps : Option T → Except PyException P
  loads : P → Option T

inductive TreeKind where
  | native
  | purePython
  deriving DecidableEq

/-- What `to_snapshot` handles. -/
def pickleRefusals : List String := ["AttributeError","TypeError","PicklingError"]

namespace RadixPackage

variable {T P : Type}

/-- What the package does, of trees that store networks with tags. The texts it is given are of
networks without a scope, of which it knows nothing. Pickle may refuse a native tree. -/
structure Lawful (radix : RadixPackage T P)
    (stores : TreeKind → T → Multimap (List Char) String → Prop) : Prop where
  native : ∀ tree, radix.native = some tree → stores .native tree []
  purePython : stores .purePython radix.purePython []
  addTags : ∀ {kind tree d}, stores kind tree d → ∀ (network : Network) tags,
    network.Scopeless → network.withPrefixlen ∉ d.map Prod.fst →
      ∃ added, radix.addTags tree network.withPrefixlen tags = .ok added ∧
        stores kind added (d ++ [(network.withPrefixlen,tags)])
  searchCovering : ∀ {kind tree d}, stores kind tree d → ∀ target : Network, target.Scopeless →
    ∃ nodes, radix.searchCovering tree target.withPrefixlen = .ok nodes ∧
      ∀ node, node ∈ nodes ↔ ∃ network : Network, ∃ tags,
        (network.withPrefixlen,tags) ∈ d ∧ network.Covers target ∧ node.tags = some tags
  dumpsNone : ∃ payload, radix.dumps none = .ok payload ∧ radix.loads payload = none
  dumps : ∀ {kind tree d}, stores kind tree d →
    (∃ payload, radix.dumps (some tree) = .ok payload ∧
      ∃ loaded, radix.loads payload = some loaded ∧ stores kind loaded d) ∨
    kind = .native ∧ ∃ e, radix.dumps (some tree) = .error e ∧ e.typeName ∈ pickleRefusals

end RadixPackage

def networkText (value : List Char) : Except PyException (List Char) :=
  match ipNetwork value with
  | some network => .ok network.withPrefixlen
  | none => .error (.valueError "does not appear to be an IPv4 or IPv6 network")

def normalizeNetwork (value : List Char) : Except PyException (List Char) :=
  networkText (PyText.strip value)

theorem networkText_eq_ok {value text : List Char} : networkText value = .ok text ↔
    ∃ network, ipNetwork value = some network ∧ text = network.withPrefixlen := by
  unfold networkText
  cases ipNetwork value with
  | none => simp
  | some network => simp [eq_comm]

structure IPSetSnapshot (P : Type) where
  payload : P

/-- An `IPSet` with the tree itself. -/
structure RadixIPSet (T : Type) where
  tree : Option T
  networkToTags : Multimap (List Char) String := []

section
variable {T P : Type} (radix : RadixPackage T P)

def newRadixTree : TreeKind → T
  | .native => radix.native.getD radix.purePython
  | .purePython => radix.purePython

def buildRadixTree (networkToTags : Multimap (List Char) String) (prefer : TreeKind) :
    Except PyException T :=
  networkToTags.foldlM (fun tree item => radix.addTags tree item.1 item.2)
    (newRadixTree radix prefer)

namespace RadixIPSet

def init (directory : Option TagFiles.TagPath) : Except PyException (RadixIPSet T) := do
  let loaded ← TagFiles.loadTagFiles normalizeNetwork directory
  let networkToTags ← loaded.invert fun network => .ok network
  if networkToTags = [] then pure { tree := none }
  else do
    let networkToTags := networkToTags.mergeSort fun a b => a.1 ≤ b.1
    let tree ← buildRadixTree radix networkToTags .native
    pure { tree, networkToTags }

def lookup (s : RadixIPSet T) (address : List Char) : Except PyException (Finset String) :=
  match s.tree with
  | none => .ok ∅
  | some tree => do
    let searchTarget ← networkText address
    let nodes ← radix.searchCovering tree searchTarget
    pure (nodes.foldl (fun tags node => tags ∪ (node.tags.getD []).toFinset) ∅)

def toSnapshot (s : RadixIPSet T) : Except PyException (IPSetSnapshot P) :=
  match radix.dumps s.tree with
  | .ok payload => .ok ⟨payload⟩
  | .error e =>
    if e.typeName ∈ pickleRefusals then do
      let tree ← buildRadixTree radix s.networkToTags .purePython
      let payload ← radix.dumps (some tree)
      pure ⟨payload⟩
    else .error e

def fromSnapshot (snapshot : IPSetSnapshot P) : Except PyException (RadixIPSet T) :=
  match radix.loads snapshot.payload with
  | none => init radix none
  | some tree => .ok { tree }

end RadixIPSet

end

/-! ### What the tree stores -/

variable {T P : Type} {radix : RadixPackage T P}
  {stores : TreeKind → T → Multimap (List Char) String → Prop} {d : Multimap (List Char) String}
  {directory : Option TagFiles.TagPath}

/-- Keys as `normalize_network` gives them, each once. -/
structure NetworkKeys (d : Multimap (List Char) String) : Prop where
  distinct : Keyed.Distinct Prod.fst d
  networks : ∀ item ∈ d, ∃ network : Network, network.Scopeless ∧ item.1 = network.withPrefixlen

theorem addTags_stores (hradix : radix.Lawful stores) {kind : TreeKind} {tree : T}
    {stored : Multimap (List Char) String} (h : stores kind tree stored)
    (hkeys : NetworkKeys (stored ++ d)) :
    ∃ built, d.foldlM (fun tree item => radix.addTags tree item.1 item.2) tree = .ok built ∧
      stores kind built (stored ++ d) := by
  induction d generalizing tree stored with
  | nil => exact ⟨tree,rfl,by rwa [List.append_nil]⟩
  | cons item d ih =>
    obtain ⟨network,hscope,hnetwork⟩ := hkeys.networks item (by simp)
    have hfresh : network.withPrefixlen ∉ stored.map Prod.fst := by
      have hdistinct := hkeys.distinct
      unfold Keyed.Distinct at hdistinct
      rw [List.map_append,List.map_cons,List.nodup_append,hnetwork] at hdistinct
      exact fun hmem => hdistinct.2.2 _ hmem _ List.mem_cons_self rfl
    obtain ⟨added,hadded,hstored⟩ := hradix.addTags h network item.2 hscope hfresh
    rw [← hnetwork] at hadded hstored
    obtain ⟨built,hbuilt,hbuiltStores⟩ := ih hstored (by rwa [List.append_assoc])
    refine ⟨built,?_,?_⟩
    · rw [List.foldlM_cons,hadded]
      exact hbuilt
    · rwa [List.append_assoc] at hbuiltStores

theorem newRadixTree_stores (hradix : radix.Lawful stores) (prefer : TreeKind) :
    ∃ kind, stores kind (newRadixTree radix prefer) [] ∧
      (prefer = .purePython → kind = .purePython) := by
  cases prefer with
  | purePython => exact ⟨.purePython,hradix.purePython,fun _ => rfl⟩
  | native =>
    unfold newRadixTree
    cases hnative : radix.native with
    | none => exact ⟨.purePython,hradix.purePython,fun _ => rfl⟩
    | some tree => exact ⟨.native,hradix.native tree hnative,fun h => h⟩

theorem buildRadixTree_stores (hradix : radix.Lawful stores) (hkeys : NetworkKeys d)
    (prefer : TreeKind) :
    ∃ tree kind, buildRadixTree radix d prefer = .ok tree ∧ stores kind tree d ∧
      (prefer = .purePython → kind = .purePython) := by
  obtain ⟨kind,hstart,hkind⟩ := newRadixTree_stores hradix prefer
  obtain ⟨tree,htree,hstores⟩ := addTags_stores hradix hstart hkeys
  exact ⟨tree,kind,htree,hstores,hkind⟩

/-- The nodes as they are kept without the tree. -/
def radixNodes (d : Multimap (List Char) String) : IPSet :=
  ⟨d.filterMap fun item => (ipNetwork item.1).map fun network =>
    ⟨network.toIPNetwork,item.2.toFinset⟩⟩

theorem tagged_radixNodes (hkeys : NetworkKeys d) {address : Address} {tag : String} :
    (radixNodes d).Tagged address.toIPAddress tag ↔
      ∃ network : Network, d.Holds network.withPrefixlen tag ∧ network.Contains address := by
  unfold IPSet.Tagged radixNodes
  simp only [List.mem_filterMap,Option.map_eq_some_iff]
  constructor
  · intro h
    obtain ⟨_,⟨item,hitem,network,hnetwork,rfl⟩,hcovers,htag⟩ := h
    obtain ⟨network',-,hkey⟩ := hkeys.networks item hitem
    rw [hkey,ipNetwork_withPrefixlen] at hnetwork
    cases hnetwork
    refine ⟨network,⟨item.2,?_,List.mem_toFinset.mp htag⟩,Network.covers_iff.mp hcovers⟩
    rwa [← hkey]
  · intro h
    obtain ⟨network,⟨tags,hitem,htag⟩,hcontains⟩ := h
    exact ⟨_,⟨_,hitem,network,ipNetwork_withPrefixlen network,rfl⟩,
      Network.covers_iff.mpr hcontains,List.mem_toFinset.mpr htag⟩

/-! ### Lookups and snapshots -/

/-- No entry of the tag files is a network with a scope. -/
def NamesNoScope (directory : Option TagFiles.TagPath) : Prop :=
  ∀ tag entry network, TagFiles.HasEntry directory tag entry → ipNetwork entry = some network →
    network.Scopeless

namespace RadixIPSet

/-- A set whose tree stores the networks; there is no tree for none. -/
def Keeps (stores : TreeKind → T → Multimap (List Char) String → Prop) (s : RadixIPSet T)
    (d : Multimap (List Char) String) : Prop :=
  match s.tree with
  | none => d = []
  | some tree => ∃ kind, stores kind tree d

/-- The lookup of the tree is that of the nodes it stores. -/
theorem lookup_of_keeps (hradix : radix.Lawful stores) (hkeys : NetworkKeys d)
    {s : RadixIPSet T} (h : s.Keeps stores d) {text : List Char} {address : Address}
    (haddress : ipAddress text = some address) (hscope : address.Scopeless) :
    s.lookup radix text = .ok ((radixNodes d).lookup address.toIPAddress) := by
  obtain ⟨tree,networkToTags⟩ := s
  unfold Keeps at h
  cases tree with
  | none =>
    rw [show d = [] from h]
    rfl
  | some tree =>
    obtain ⟨kind,hstores⟩ := h
    obtain ⟨nodes,hnodes,hmem⟩ :=
      hradix.searchCovering hstores (.single address) (Network.single_scopeless hscope)
    have htarget : networkText text = .ok (Network.single address).withPrefixlen := by
      rw [networkText,ipNetwork_address haddress]
    have hlookup : RadixIPSet.lookup radix ⟨some tree,networkToTags⟩ text =
        .ok (nodes.foldl (fun tags node => tags ∪ (node.tags.getD []).toFinset) ∅) := by
      change (networkText text >>= _) = _
      rw [htarget]
      change (radix.searchCovering tree _ >>= _) = _
      rw [hnodes]
      rfl
    rw [hlookup]
    refine congrArg Except.ok (Finset.ext fun tag => ?_)
    rw [IPSet.mem_lookup,tagged_radixNodes hkeys,Multimap.mem_foldl_union]
    simp only [hmem,Network.covers_single]
    constructor
    · intro h
      obtain hnone | ⟨node,⟨network,tags,hitem,hcontains,htags⟩,htag⟩ := h
      · simp at hnone
      · rw [htags] at htag
        exact ⟨network,⟨tags,hitem,List.mem_toFinset.mp htag⟩,hcontains⟩
    · intro h
      obtain ⟨network,⟨tags,hitem,htag⟩,hcontains⟩ := h
      exact .inr ⟨⟨some tags⟩,⟨network,tags,hitem,hcontains,rfl⟩,List.mem_toFinset.mpr htag⟩

theorem init_none : init radix none = .ok { tree := none } := rfl

/-- A snapshot is of the tree or of one that is built again; either stores the same networks. -/
theorem keeps_restored (hradix : radix.Lawful stores) (hkeys : NetworkKeys d)
    {s : RadixIPSet T} (h : s.Keeps stores d) (hsame : s.networkToTags = d) :
    ∃ snapshot restored, s.toSnapshot radix = .ok snapshot ∧
      fromSnapshot radix snapshot = .ok restored ∧ restored.Keeps stores d := by
  obtain ⟨tree,networkToTags⟩ := s
  unfold Keeps at h
  have hloaded : ∀ payload tree, radix.loads payload = some tree →
      fromSnapshot radix ⟨payload⟩ = .ok { tree := some tree } := by
    intro payload tree hloads
    simp only [fromSnapshot,hloads]
  cases tree with
  | none =>
    obtain ⟨payload,hdumps,hloads⟩ := hradix.dumpsNone
    refine ⟨⟨payload⟩,{ tree := none },?_,?_,h⟩
    · simp only [toSnapshot,hdumps]
    · simp only [fromSnapshot,hloads,init_none]
  | some tree =>
    obtain ⟨kind,hstores⟩ := h
    obtain ⟨payload,hdumps,loaded,hloads,hkept⟩ | ⟨_,e,hdumps,hrefusal⟩ := hradix.dumps hstores
    · refine ⟨⟨payload⟩,_,?_,hloaded payload loaded hloads,kind,hkept⟩
      simp only [toSnapshot,hdumps]
    · -- the networks are added to a tree that pickle takes
      obtain ⟨rebuilt,kind',hrebuilt,hrebuiltStores,hkind⟩ :=
        buildRadixTree_stores hradix hkeys .purePython
      obtain ⟨payload,hpayload,loaded,hloads,hkept⟩ | ⟨hnative,_⟩ := hradix.dumps hrebuiltStores
      · refine ⟨⟨payload⟩,_,?_,hloaded payload loaded hloads,kind',hkept⟩
        simp only [toSnapshot,hdumps,hrefusal,if_true]
        rw [show networkToTags = d from hsame,hrebuilt]
        change (radix.dumps (some rebuilt) >>= _) = _
        rw [hpayload]
        rfl
      · rw [hkind rfl] at hnative
        contradiction

/-- What is made of a directory keeps its networks, under the texts that they are written as. -/
theorem init_keeps (hradix : radix.Lawful stores) (hscopes : NamesNoScope directory)
    {loaded : Multimap String (List Char)}
    (hloaded : TagFiles.loadTagFiles normalizeNetwork directory = .ok loaded) :
    ∃ s d, init radix directory = .ok s ∧ s.Keeps stores d ∧ s.networkToTags = d ∧
      NetworkKeys d ∧ ∀ key tag, d.Holds key tag ↔ loaded.Holds tag key := by
  have hok : ∃ inverted, loaded.invert (ε:=PyException) (fun network => .ok network) =
      .ok inverted := ((Multimap.invert_adds loaded).ok_iff []).mpr fun _ key _ => ⟨key,rfl⟩
  obtain ⟨inverted,hinverted⟩ := hok
  have hholds : ∀ key tag, inverted.Holds key tag ↔ loaded.Holds tag key := by
    intro key tag
    rw [Multimap.holds_invert hinverted]
    simp
  have hproper : inverted.Proper := Multimap.invert_proper hinverted
  have hinit : init radix directory = if inverted = [] then pure { tree := none }
      else (do
        let networkToTags := inverted.mergeSort fun a b => a.1 ≤ b.1
        let tree ← buildRadixTree radix networkToTags .native
        pure { tree, networkToTags }) := by
    unfold init
    rw [hloaded]
    change (loaded.invert _ >>= _) = _
    rw [hinverted]
    rfl
  by_cases hnil : inverted = []
  · rw [if_pos hnil] at hinit
    refine ⟨_,[],hinit,rfl,rfl,⟨List.nodup_nil,by simp⟩,fun key tag => ?_⟩
    rw [← hholds,hnil]
  · rw [if_neg hnil] at hinit
    have hsorted := hproper.mergeSort fun a b => a.1 ≤ b.1
    have hkeys : NetworkKeys (inverted.mergeSort fun a b => a.1 ≤ b.1) := by
      refine ⟨hsorted.distinct,fun item hitem => ?_⟩
      obtain ⟨tag,htag⟩ := hsorted.holds hitem
      rw [Multimap.holds_mergeSort,hholds,TagFiles.holds_loadTagFiles hloaded] at htag
      obtain ⟨entry,hhas,hentry⟩ := htag
      rw [normalizeNetwork,hhas.stripped] at hentry
      obtain ⟨network,hread,htext⟩ := networkText_eq_ok.mp hentry
      exact ⟨network,hscopes tag entry network hhas hread,htext⟩
    obtain ⟨tree,kind,hbuilt,hstores,_⟩ := buildRadixTree_stores hradix hkeys .native
    refine ⟨⟨some tree,_⟩,_,?_,⟨kind,hstores⟩,rfl,hkeys,fun key tag => ?_⟩
    · rw [hinit]
      dsimp only
      rw [hbuilt]
      rfl
    · rw [Multimap.holds_mergeSort,hholds]

end RadixIPSet

/-! ### Containment -/

/-- A lookup of an address without a scope gives the tags that have a network with the address in
its range, before and after a snapshot. -/
structure MatchesRanges (radix : RadixPackage T P) (directory : Option TagFiles.TagPath)
    (s : RadixIPSet T) : Prop where
  live : ∀ text address, ipAddress text = some address → address.Scopeless →
    ∃ tags, s.lookup radix text = .ok tags ∧ ∀ tag, tag ∈ tags ↔
      ∃ entry network, TagFiles.HasEntry directory tag entry ∧ ipNetwork entry = some network ∧
        network.Contains address
  restored : ∃ snapshot restored, s.toSnapshot radix = .ok snapshot ∧
    RadixIPSet.fromSnapshot radix snapshot = .ok restored ∧
    ∀ text address, ipAddress text = some address → address.Scopeless →
      restored.lookup radix text = s.lookup radix text

theorem holds_networkText {loaded : Multimap String (List Char)}
    (hloaded : TagFiles.loadTagFiles normalizeNetwork directory = .ok loaded) {tag : String}
    {network : Network} :
    loaded.Holds tag network.withPrefixlen ↔
      ∃ entry, TagFiles.HasEntry directory tag entry ∧ ipNetwork entry = some network := by
  rw [TagFiles.holds_loadTagFiles hloaded]
  refine exists_congr fun entry => and_congr_right fun hentry => ?_
  rw [normalizeNetwork,hentry.stripped,networkText_eq_ok]
  constructor
  · intro h
    obtain ⟨other,hother,htext⟩ := h
    rw [Network.withPrefixlen_injective htext,hother]
  · exact fun h => ⟨network,h,rfl⟩

/-- Every set that is made of a directory of networks without a scope is CIDR containment. -/
theorem ipSet_matchesRanges (hradix : radix.Lawful stores) (hscopes : NamesNoScope directory)
    {loaded : Multimap String (List Char)}
    (hloaded : TagFiles.loadTagFiles normalizeNetwork directory = .ok loaded) :
    ∃ s, RadixIPSet.init radix directory = .ok s ∧ MatchesRanges radix directory s := by
  obtain ⟨s,d,hinit,hkeeps,hsame,hkeys,hholds⟩ := RadixIPSet.init_keeps hradix hscopes hloaded
  refine ⟨s,hinit,fun text address haddress hscope => ?_,?_⟩
  · refine ⟨_,RadixIPSet.lookup_of_keeps hradix hkeys hkeeps haddress hscope,fun tag => ?_⟩
    rw [IPSet.mem_lookup,tagged_radixNodes hkeys]
    simp only [hholds,holds_networkText hloaded]
    constructor
    · intro h
      obtain ⟨network,⟨entry,hentry,hnetwork⟩,hcontains⟩ := h
      exact ⟨entry,network,hentry,hnetwork,hcontains⟩
    · intro h
      obtain ⟨entry,network,hentry,hnetwork,hcontains⟩ := h
      exact ⟨network,⟨entry,hentry,hnetwork⟩,hcontains⟩
  · obtain ⟨snapshot,restored,hsnapshot,hrestored,hkept⟩ :=
      RadixIPSet.keeps_restored hradix hkeys hkeeps hsame
    refine ⟨snapshot,restored,hsnapshot,hrestored,fun text address haddress hscope => ?_⟩
    rw [RadixIPSet.lookup_of_keeps hradix hkeys hkept haddress hscope,
      RadixIPSet.lookup_of_keeps hradix hkeys hkeeps haddress hscope]

/-- Trees as the lists of what was added to them, where pickle may take the native ones. -/
def listPackage (picklable : Bool) :
    RadixPackage (TreeKind × Multimap (List Char) String)
      (Option (TreeKind × Multimap (List Char) String)) where
  native := some (.native,[])
  purePython := (.purePython,[])
  addTags tree network tags := .ok (tree.1,tree.2 ++ [(network,tags)])
  searchCovering tree target :=
    match ipNetwork target with
    | none => .error (.valueError "")
    | some target => .ok ((tree.2.filter fun item =>
        (ipNetwork item.1).any fun network => network.Covers target).map fun item => ⟨some item.2⟩)
  dumps
    | some (.native,d) =>
      if picklable then .ok (some (.native,d)) else .error ⟨.other,"TypeError",""⟩
    | tree => .ok tree
  loads := id

theorem listPackage_lawful (picklable : Bool) : (listPackage picklable).Lawful fun kind tree d =>
    tree = (kind,d) ∧ ∀ item ∈ d, ∃ network : Network, item.1 = network.withPrefixlen where
  native tree h := ⟨(Option.some.inj h).symm,by simp⟩
  purePython := ⟨rfl,by simp⟩
  addTags := by
    intro kind tree d h network tags _ _
    obtain ⟨rfl,hnetworks⟩ := h
    refine ⟨_,rfl,rfl,List.forall_mem_append.mpr ⟨hnetworks,?_⟩⟩
    exact List.forall_mem_singleton.mpr ⟨network,rfl⟩
  searchCovering := by
    intro kind tree d h target _
    obtain ⟨rfl,hnetworks⟩ := h
    refine ⟨(d.filter fun item => (ipNetwork item.1).any fun network => network.Covers target).map
      fun item => ⟨some item.2⟩,?_,fun node => ?_⟩
    · simp only [listPackage,ipNetwork_withPrefixlen]
    · simp only [List.mem_map,List.mem_filter]
      constructor
      · intro h
        obtain ⟨item,⟨hitem,hcovers⟩,rfl⟩ := h
        obtain ⟨network,hnetwork⟩ := hnetworks item hitem
        rw [hnetwork,ipNetwork_withPrefixlen] at hcovers
        exact ⟨network,item.2,hnetwork ▸ hitem,of_decide_eq_true hcovers,rfl⟩
      · intro h
        obtain ⟨network,tags,hitem,hcovers,htags⟩ := h
        refine ⟨_,⟨hitem,?_⟩,?_⟩
        · rw [ipNetwork_withPrefixlen]
          exact decide_eq_true hcovers
        · rw [← htags]
  dumpsNone := ⟨none,rfl,rfl⟩
  dumps := by
    intro kind tree d h
    obtain ⟨rfl,hnetworks⟩ := h
    cases kind with
    | purePython => exact .inl ⟨_,rfl,_,rfl,rfl,hnetworks⟩
    | native =>
      cases picklable with
      | true => exact .inl ⟨_,rfl,_,rfl,rfl,hnetworks⟩
      | false => exact .inr ⟨rfl,_,rfl,by decide⟩

/-- A network with host bits, with either kind of snapshot. -/
theorem ipSet_matchesRanges_hostBits :
    (∃ s, RadixIPSet.init (listPackage true) (TagFiles.proxyList "203.0.113.9/24") = .ok s ∧
        MatchesRanges (listPackage true) (TagFiles.proxyList "203.0.113.9/24") s) ∧
      ∃ s, RadixIPSet.init (listPackage false) (TagFiles.proxyList "203.0.113.9/24") = .ok s ∧
        MatchesRanges (listPackage false) (TagFiles.proxyList "203.0.113.9/24") s := by
  have hlines : TagFiles.splitLines "203.0.113.9/24".toList = ["203.0.113.9/24".toList] := by
    decide
  have hnetwork : ∃ text, normalizeNetwork "203.0.113.9/24".toList = .ok text := by
    have hread : (ipNetwork "203.0.113.9/24".toList).isSome = true := by decide
    obtain ⟨network,hnetwork⟩ := Option.isSome_iff_exists.mp hread
    exact ⟨_,networkText_eq_ok.mpr ⟨network,hnetwork,rfl⟩⟩
  have hscopes : NamesNoScope (TagFiles.proxyList "203.0.113.9/24") := by
    intro tag entry network hentry hread
    obtain ⟨-,rfl⟩ := TagFiles.hasEntry_proxyList hlines hentry
    have hall : (ipNetwork (PyText.strip "203.0.113.9/24".toList)).all
        (fun network => network.Scopeless) = true := by decide
    rw [hread] at hall
    exact of_decide_eq_true hall
  obtain ⟨loaded,hloaded⟩ := TagFiles.loads_proxyList hlines hnetwork
  exact ⟨ipSet_matchesRanges (listPackage_lawful true) hscopes hloaded,
    ipSet_matchesRanges (listPackage_lawful false) hscopes hloaded⟩

end SmartDns
