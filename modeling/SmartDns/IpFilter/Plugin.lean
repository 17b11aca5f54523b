import SmartDns.Core.IpSet
import SmartDns.Pipeline.WriteBack
set_option autoImplicit false

/-!
`ip_filter_plugin`: the addresses of an upstream's answer are kept or dropped by the tags
that `core.ipset` has for them. The answer is edited in place; the response it came from
is not looked at.
-/

namespace SmartDns

/-- `IpFilterPluginConfig` after its tag lists are normalised. -/
structure IpFilterPluginConfig where
  matchTags : List String := []
  excludeTags : List String := []
  whitelistTags : List String := []
  blacklistTags : List String := []

def addressTypes : List RdataType := [RdataType.A,RdataType.AAAA]

theorem addressTypes_not_singleton {t : RdataType} (h : t ∈ addressTypes) :
    t.isSingleton = false := by
  obtain rfl | rfl : t = RdataType.A ∨ t = RdataType.AAAA := by simpa [addressTypes] using h
  all_goals decide

theorem covers_address {record : Rdata} (h : record.rdtype ∈ addressTypes) :
    record.covers = RdataType.NONE := by
  refine Rdata.covers_none ?_ ?_ <;>
  · rintro heq
    rw [heq] at h
    exact absurd h (by decide)

/-- `record.address`. -/
def Rdata.address : Rdata → Except PyException IPAddress
  | .a address => .ok (.v4 address.toBitVec)
  | .aaaa address => .ok (.v6 address)
  | _ => .error (attributeError "address")

def differingCovers : PyException := ⟨.other,"DifferingCovers",""⟩

/-- `dns.rrset.from_rdata_list`; the class is that of the records. -/
def RRset.fromRdataList (name : Name) (rdclass : RdataClass) (ttl : Nat) :
    List Rdata → Except PyException RRset
  | [] => .error (.valueError "rdata list must not be empty")
  | rd :: rest =>
    if h : ∀ other ∈ rest, other.covers = rd.covers then .ok
      { name, rdclass, rdtype := rd.rdtype, covers := rd.covers, ttl
        items := rest.foldl RRset.addRdata [rd]
        nonempty := List.foldlRecOn (motive:=fun l => l ≠ []) rest RRset.addRdata
          (List.cons_ne_nil rd []) fun l _ rd _ => RRset.addRdata_ne_nil l rd
        distinct := List.foldlRecOn (motive:=Keyed.Distinct Rdata.canon) rest RRset.addRdata
          (List.nodup_singleton _) fun _ h rd _ => RRset.addRdata_distinct h rd
        covered := List.foldlRecOn (motive:=fun l => ∀ x ∈ l, x.covers = rd.covers) rest
          RRset.addRdata (by simp) fun _ hl other hother =>
            RRset.addRdata_covered hl (h other hother) }
    else .error differingCovers

/-- Different records of one type that cover the same make an rrset as they are. -/
theorem RRset.fromRdataList_distinct {rdtype covers : RdataType} {records : List Rdata}
    (name : Name) (rdclass : RdataClass) (ttl : Nat) (hne : records ≠ [])
    (hdistinct : Keyed.Distinct Rdata.canon records)
    (htyped : ∀ record ∈ records, record.rdtype = rdtype) (hsingle : rdtype.isSingleton = false)
    (hcovered : ∀ record ∈ records, record.covers = covers) :
    RRset.fromRdataList name rdclass ttl records = .ok
      { name, rdclass, rdtype, covers, ttl, items := records, nonempty := hne, distinct := hdistinct
        covered := hcovered } := by
  obtain ⟨first,rest,rfl⟩ := List.exists_cons_of_ne_nil hne
  have hadd : rest.foldl RRset.addRdata [first] =
      rest.foldl (Keyed.put Rdata.canon fun old _ => old) [first] := by
    refine List.foldl_ext _ _ _ fun items record hrecord => ?_
    simp [RRset.addRdata,htyped record (List.mem_cons_of_mem _ hrecord),hsingle]
  have hitems : rest.foldl RRset.addRdata [first] = first :: rest := by
    rw [hadd]
    exact Keyed.foldl_put_fresh hdistinct
  have hfirst := hcovered first List.mem_cons_self
  have hrest : ∀ other ∈ rest, other.covers = first.covers := fun other hother =>
    (hcovered other (List.mem_cons_of_mem _ hother)).trans hfirst.symm
  simp only [RRset.fromRdataList,hitems,htyped first List.mem_cons_self,hfirst,
    dif_pos (show ∀ other ∈ rest, other.covers = covers from hfirst ▸ hrest)]

/-- `Plugin._has_any_tag`. -/
def hasAnyTag (currentTags : Finset String) (configuredTags : List String) : Bool :=
  configuredTags.any fun tag => tag ∈ currentTags

/-- What decoding guarantees of an rrset of addresses. -/
def RRset.HoldsAddresses (r : RRset) : Prop :=
  r.rdtype ∈ addressTypes →
    ∀ record ∈ r.items, record.rdtype = r.rdtype ∧ ∃ address, record.address = .ok address

namespace IpFilterPlugin

variable {E : Type} (config : IpFilterPluginConfig) (ipset : IPSet)

/-- Whether the filter applies to a request, and why not. -/
def matchesRequest (tags : Finset String) : Bool × String :=
  if hasAnyTag tags config.excludeTags then (false,"exclude_tags")
  else if config.matchTags ≠ [] ∧ !hasAnyTag tags config.matchTags then
    (false,"match_tags_miss")
  else (true,"matched")

def isFilterableAnswer : Option Answer → Bool
  | none => false
  | some answer =>
    match answer.rrset with
    | none => false
    | some rrset =>
      if answer.response.rcode ≠ Rcode.NOERROR then false
      else answer.rdtype ∈ addressTypes && rrset.rdtype = answer.rdtype

def shouldKeepIpTags (ipTags : Finset String) : Bool :=
  if config.whitelistTags ≠ [] ∧ !hasAnyTag ipTags config.whitelistTags then false
  else if hasAnyTag ipTags config.blacklistTags then false
  else true

/-- The records that `_filter_answer` keeps, in their order. -/
def keptRecords : List Rdata → Except PyException (List Rdata)
  | [] => .ok []
  | record :: rest => do
    let address ← record.address
    let kept ← keptRecords rest
    pure (if shouldKeepIpTags config (ipset.lookup address) then record :: kept else kept)

/-- The number of records before and after. -/
def filterAnswer : Exec PyException Answer (Nat × Nat) := do
  let answer ← Exec.get
  match answer.rrset with
  | none => pure (0,0)
  | some rrset =>
    let originalCount := rrset.items.length
    let kept ← Exec.ofExcept (keptRecords config ipset rrset.items)
    if kept.length = originalCount then pure (originalCount,originalCount)
    else if kept = [] then
      Exec.modify fun answer => { answer with rrset := none }
      pure (originalCount,0)
    else
      let replaced ← Exec.ofExcept (RRset.fromRdataList rrset.name rrset.rdclass rrset.ttl kept)
      Exec.modify fun answer => { answer with rrset := some replaced }
      pure (originalCount,kept.length)

/-- `on_upstream_response`, over the result object it edits. -/
def onUpstreamResponse (context : RequestContext E) : Exec PyException UpstreamResult Unit := do
  let question ← Exec.ofExcept (firstQuestion context.request)
  if question.rdtype ∉ addressTypes then pure ()
  else if !(matchesRequest config context.tags).1 then pure ()
  else
    let result ← Exec.get
    match result.answer with
    | none => pure ()
    | some answer =>
      if !isFilterableAnswer (some answer) then pure ()
      else
        let _ ← Exec.within (fun _ => answer)
          (fun answer result => { result with answer := some answer }) (filterAnswer config ipset)
        pure ()

/-! ### What the hook does with an answer -/

/-- The whitelist and the blacklist, in terms of the networks that contain an address. -/
def Passes (address : IPAddress) : Prop :=
  (config.whitelistTags = [] ∨ ∃ tag ∈ config.whitelistTags, ipset.Tagged address tag) ∧
    ∀ tag ∈ config.blacklistTags, ¬ ipset.Tagged address tag

def keeps (record : Rdata) : Bool :=
  match record.address with
  | .ok address => shouldKeepIpTags config (ipset.lookup address)
  | .error _ => false

def keptRRset (r : RRset) : Option RRset :=
  if h : r.items.filter (keeps config ipset) = [] then none
  else some
    { r with
      items := r.items.filter (keeps config ipset)
      nonempty := h
      distinct := r.distinct.sublist ((List.filter_sublist).map Rdata.canon)
      covered := fun rd hrd => r.covered rd (List.mem_of_mem_filter hrd) }

/-- What the filter makes of `answer.rrset`. -/
def filteredRRset (a : Answer) : Option RRset :=
  match a.rrset with
  | none => none
  | some r => if r.rdtype = a.rdtype then keptRRset config ipset r else some r

variable {config ipset}

theorem hasAnyTag_lookup {address : IPAddress} {tags : List String} :
    hasAnyTag (ipset.lookup address) tags = true ↔ ∃ tag ∈ tags, ipset.Tagged address tag := by
  simp [hasAnyTag,IPSet.mem_lookup]

theorem shouldKeep_iff {address : IPAddress} :
    shouldKeepIpTags config (ipset.lookup address) = true ↔ Passes config ipset address := by
  have hblack : hasAnyTag (ipset.lookup address) config.blacklistTags = false ↔
      ∀ tag ∈ config.blacklistTags, ¬ ipset.Tagged address tag := by
    rw [← Bool.not_eq_true,hasAnyTag_lookup]
    simp
  unfold shouldKeepIpTags Passes
  rw [← hasAnyTag_lookup,← hblack]
  split
  · rename_i hmiss
    simp [hmiss.1,by simpa using hmiss.2]
  · rename_i hlisted
    have hwhite : config.whitelistTags = [] ∨
        hasAnyTag (ipset.lookup address) config.whitelistTags = true := by
      by_cases hw : config.whitelistTags = []
      · exact .inl hw
      · exact .inr (by simpa [hw] using hlisted)
    split
    · rename_i hb
      simp [hb]
    · rename_i hb
      simp [hwhite,hb]

theorem keeps_iff {record : Rdata} {address : IPAddress} (h : record.address = .ok address) :
    keeps config ipset record = true ↔ Passes config ipset address := by
  simp [keeps,h,shouldKeep_iff]

theorem keptRecords_eq {l : List Rdata}
    (h : ∀ record ∈ l, ∃ address, record.address = .ok address) :
    keptRecords config ipset l = .ok (l.filter (keeps config ipset)) := by
  induction l with
  | nil => rfl
  | cons record rest ih =>
    obtain ⟨address,haddress⟩ := h record List.mem_cons_self
    have hrest := ih fun r hr => h r (List.mem_cons_of_mem _ hr)
    unfold keptRecords
    simp only [haddress,hrest,bind,Except.bind,pure,Except.pure,List.filter_cons,keeps]

/-- Building an rrset from records that an rrset of addresses holds changes nothing. -/
theorem fromRdataList_filter {r : RRset} {keep : Rdata → Bool}
    (htyped : ∀ record ∈ r.items, record.rdtype = r.rdtype) (hsingle : r.rdtype.isSingleton = false)
    (hne : r.items.filter keep ≠ []) :
    RRset.fromRdataList r.name r.rdclass r.ttl (r.items.filter keep) = .ok
      { r with
        items := r.items.filter keep
        nonempty := hne
        distinct := r.distinct.sublist ((List.filter_sublist).map Rdata.canon)
        covered := fun rd hrd => r.covered rd (List.mem_of_mem_filter hrd) } :=
  RRset.fromRdataList_distinct r.name r.rdclass r.ttl hne
    (r.distinct.sublist ((List.filter_sublist).map Rdata.canon))
    (fun record h => htyped record (List.mem_of_mem_filter h)) hsingle
    fun record h => r.covered record (List.mem_of_mem_filter h)

variable (config ipset) in
theorem filterAnswer_run {a : Answer} {r : RRset} (ha : a.rrset = some r)
    (hrecords : r.HoldsAddresses) (htype : r.rdtype ∈ addressTypes) :
    ∃ counts, filterAnswer config ipset a =
      (.ok counts,edited a (keptRRset config ipset r)) := by
  have hkept : keptRecords config ipset r.items = .ok (r.items.filter (keeps config ipset)) :=
    keptRecords_eq fun record h => (hrecords htype record h).2
  unfold filterAnswer keptRRset
  rw [Exec.bind_ok (Exec.run_get a)]
  simp only [ha]
  rw [hkept,Exec.bind_ok (Exec.run_ofExcept _ _)]
  by_cases hall : (r.items.filter (keeps config ipset)).length = r.items.length
  · have hsame : r.items.filter (keeps config ipset) = r.items :=
      List.filter_sublist.eq_of_length hall
    simp only [hsame,if_true,r.nonempty,dite_false]
    refine ⟨_,Prod.ext rfl ?_⟩
    simp [edited,← ha]
  · by_cases hnone : r.items.filter (keeps config ipset) = []
    · have hpositive : r.items.length ≠ 0 := by simp [r.nonempty]
      simp only [hnone,List.length_nil,hpositive.symm,if_false,if_true,dite_true]
      exact ⟨_,rfl⟩
    · have hsingle : r.rdtype.isSingleton = false := by
        obtain h | h : r.rdtype = RdataType.A ∨ r.rdtype = RdataType.AAAA := by
          simpa [addressTypes] using htype
        all_goals rw [h]; decide
      have hbuilt := fromRdataList_filter (fun record h => (hrecords htype record h).1)
        hsingle hnone
      rw [if_neg hall,if_neg hnone,hbuilt,Exec.bind_ok (Exec.run_ofExcept _ _),dif_neg hnone]
      exact ⟨_,rfl⟩

variable (config ipset) in
/-- On a request it applies to, the hook puts the kept addresses in the place of the
others, and looks at nothing else of the answer. -/
theorem onUpstreamResponse_run {c : RequestContext E} {q : Question} {result : UpstreamResult}
    {a : Answer} (hq : firstQuestion c.request = .ok q) (htype : q.rdtype ∈ addressTypes)
    (hmatch : (matchesRequest config c.tags).1 = true) (hresult : result.answer = some a)
    (hasked : a.rdtype = q.rdtype) (hrcode : a.response.rcode = Rcode.NOERROR)
    (hrecords : ∀ r, a.rrset = some r → r.HoldsAddresses) :
    onUpstreamResponse config ipset c result =
      (.ok (),{ result with answer := some (edited a (filteredRRset config ipset a)) }) := by
  have hunchanged (h : filteredRRset config ipset a = a.rrset) :
      result = { result with answer := some (edited a (filteredRRset config ipset a)) } := by
    have ha : edited a a.rrset = a := rfl
    rw [h,ha]
    cases result
    cases hresult
    rfl
  unfold onUpstreamResponse
  rw [hq,Exec.bind_ok (Exec.run_ofExcept _ _)]
  simp only [htype,not_true_eq_false,if_false,hmatch,Bool.not_true,Bool.false_eq_true]
  rw [Exec.bind_ok (Exec.run_get result)]
  simp only [hresult]
  cases ha : a.rrset with
  | none =>
    have hfiltered : filteredRRset config ipset a = a.rrset := by simp [filteredRRset,ha]
    simp only [isFilterableAnswer,ha,Bool.not_false,if_true]
    exact Prod.ext rfl (hunchanged hfiltered)
  | some r =>
    by_cases hsame : r.rdtype = a.rdtype
    · have hfilterable : isFilterableAnswer (some a) = true := by
        simp [isFilterableAnswer,ha,hrcode,hasked,htype,hsame]
      have haddress : r.rdtype ∈ addressTypes := by
        rw [hsame,hasked]
        exact htype
      obtain ⟨counts,hrun⟩ := filterAnswer_run config ipset ha (hrecords r ha) haddress
      simp only [hfilterable,Bool.not_true,Bool.false_eq_true,if_false]
      have hwithin : Exec.within (fun _ => a)
          (fun answer result => { result with answer := some answer })
          (filterAnswer config ipset) result =
            (.ok counts,{ result with answer := some (edited a (keptRRset config ipset r)) }) := by
        simp only [Exec.within,hrun]
      rw [Exec.bind_ok hwithin]
      simp only [filteredRRset,ha,hsame,if_true]
      rfl
    · have hfilterable : isFilterableAnswer (some a) = false := by
        simp [isFilterableAnswer,ha,hsame]
      have hfiltered : filteredRRset config ipset a = a.rrset := by simp [filteredRRset,ha,hsame]
      simp only [hfilterable,Bool.not_false,if_true]
      exact Prod.ext rfl (hunchanged hfiltered)

end IpFilterPlugin

end SmartDns
