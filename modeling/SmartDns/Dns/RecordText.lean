import SmartDns.Core.IpRange
import SmartDns.IpFilter.Plugin
set_option autoImplicit false

/-!
Addresses of records as texts. dnspython writes and reads the texts of records; what it
writes is an address to `ipaddress`, and it reads what `ipaddress` writes.
-/

namespace SmartDns

open IpText (ipAddress ipv4Text ipv6Text)

structure RecordText where
  /-- `record.address`, where there is one. -/
  address : Rdata → Option (List Char)
  /-- `dns.rdata.from_text`. -/
  fromText : RdataClass → RdataType → List Char → Except PyException Rdata
  address_a : ∀ ip, ∃ text, address (.a ip) = some text ∧
    ipAddress text = some (.v4 ip.toBitVec)
  address_aaaa : ∀ ip, ∃ text, address (.aaaa ip) = some text ∧ ipAddress text = some (.v6 { ip })
  fromText_a : ∀ ip, fromText RdataClass.IN RdataType.A (ipv4Text ip) = .ok (.a ⟨ip⟩)
  fromText_aaaa : ∀ ip, fromText RdataClass.IN RdataType.AAAA (ipv6Text ip) = .ok (.aaaa ip)
  fromText_v4 : ∀ ip, ∃ e, fromText RdataClass.IN RdataType.AAAA (ipv4Text ip) = .error e

/-- `dns.rrset.from_text_list`, on the non-empty lists it is called with. -/
def RRset.fromTextList (texts : RecordText) (name : Name) (ttl : Nat) (rdclass : RdataClass)
    (rdtype : RdataType) (textRdatas : List (List Char)) : Except PyException RRset := do
  let rdatas ← textRdatas.mapM (texts.fromText rdclass rdtype)
  let rrset ← RRset.fromRdataList name rdclass ttl rdatas
  pure { rrset with rdtype }

/-- The address of a record as `ipaddress` has it. -/
def Rdata.ip : Rdata → Option IpText.Address
  | .a ip => some (.v4 ip.toBitVec)
  | .aaaa ip => some (.v6 { ip })
  | _ => none

/-- The addresses of an rrset, in its order. -/
def RRset.ips (r : RRset) : List IpText.Address := r.items.filterMap Rdata.ip

/-- The version of the addresses in records of a type. -/
def addressVersion (rdtype : RdataType) : ℕ := if rdtype = RdataType.A then 4 else 6

/-- An rrset that holds addresses, of class IN as all address records are. -/
structure RRset.OfAddresses (r : RRset) : Prop where
  rdclass : r.rdclass = RdataClass.IN
  rdtype : r.rdtype ∈ addressTypes
  records : ∀ record ∈ r.items, record.rdtype = r.rdtype ∧ ∃ ip, record.ip = some ip

variable {texts : RecordText} {record : Rdata} {ip : IpText.Address}

theorem Rdata.ip_version (h : record.ip = some ip) : ip.version = addressVersion record.rdtype := by
  cases record with
  | a ip => cases h; rfl
  | aaaa ip => cases h; rfl
  | _ => contradiction

theorem RecordText.address_of_ip (h : record.ip = some ip) :
    ∃ text, texts.address record = some text ∧ ipAddress text = some ip := by
  cases record with
  | a ip => cases h; exact texts.address_a ip
  | aaaa ip => cases h; exact texts.address_aaaa ip
  | _ => contradiction

/-- An address without a scope is read back as a record of its type. -/
theorem RecordText.fromText_compressed {rdtype : RdataType} (htype : rdtype ∈ addressTypes)
    (hversion : ip.version = addressVersion rdtype)
    (hscope : ∀ address, ip = .v6 address → address.scopeId = none) :
    ∃ record, texts.fromText RdataClass.IN rdtype ip.compressed = .ok record ∧
      record.ip = some ip ∧ record.rdtype = rdtype := by
  obtain rfl | rfl : rdtype = RdataType.A ∨ rdtype = RdataType.AAAA := by
    simpa [addressTypes] using htype
  · cases ip with
    | v4 ip => exact ⟨_,texts.fromText_a ip,rfl,rfl⟩
    | v6 address => cases hversion
  · cases ip with
    | v4 ip => cases hversion
    | v6 address =>
      obtain ⟨ip,scopeId⟩ := address
      obtain rfl : scopeId = none := hscope _ rfl
      exact ⟨_,texts.fromText_aaaa ip,rfl,rfl⟩

theorem Rdata.canon_address (h : record.rdtype ∈ addressTypes) : record.canon = record := by
  cases record with
  | cname target => exact absurd h (show RdataType.CNAME ∉ addressTypes by decide)
  | _ => rfl

/-- Records with different addresses of one type make an rrset as they are. -/
theorem RRset.fromRdataList_ips {rdtype : RdataType} {records : List Rdata}
    {ips : List IpText.Address} (name : Name) (rdclass : RdataClass) (ttl : Nat)
    (hips : records.map Rdata.ip = ips.map some)
    (hrecords : ∀ record ∈ records, record.rdtype = rdtype)
    (htype : rdtype ∈ addressTypes) (hne : ips ≠ []) (hnodup : ips.Nodup) :
    ∃ r, RRset.fromRdataList name rdclass ttl records = .ok r ∧ r.items = records ∧
      r.name = name ∧ r.rdclass = rdclass ∧ r.rdtype = rdtype ∧ r.ttl = ttl := by
  have hcanon : records.map Rdata.canon = records := by
    have hsame : records.map Rdata.canon = records.map id := by
      refine List.map_congr_left fun record hrecord => Rdata.canon_address ?_
      rwa [hrecords record hrecord]
    rw [hsame,List.map_id]
  have hdistinct : Keyed.Distinct Rdata.canon records := by
    unfold Keyed.Distinct
    rw [hcanon]
    refine List.Nodup.of_map Rdata.ip ?_
    rw [hips]
    exact hnodup.map (Option.some_injective _)
  have hsome : records ≠ [] := by
    intro h
    rw [h] at hips
    exact hne (List.map_eq_nil_iff.mp hips.symm)
  exact ⟨_,RRset.fromRdataList_distinct name rdclass ttl hsome hdistinct hrecords
    (addressTypes_not_singleton htype) fun record hrecord =>
      covers_address (by rwa [hrecords record hrecord]),rfl,rfl,rfl,rfl,rfl⟩

theorem RecordText.mapM_compressed {rdtype : RdataType} (htype : rdtype ∈ addressTypes)
    {ips : List IpText.Address}
    (h : ∀ ip ∈ ips, ip.version = addressVersion rdtype ∧
      ∀ address, ip = .v6 address → address.scopeId = none) :
    ∃ records, (ips.map IpText.Address.compressed).mapM (texts.fromText RdataClass.IN rdtype) =
        .ok records ∧
      records.map Rdata.ip = ips.map some ∧ ∀ record ∈ records, record.rdtype = rdtype := by
  induction ips with
  | nil => exact ⟨[],rfl,rfl,by simp⟩
  | cons ip ips ih =>
    rw [List.forall_mem_cons] at h
    obtain ⟨records,hread,hips,hrecords⟩ := ih h.2
    obtain ⟨record,hrecord,hip,hrdtype⟩ := texts.fromText_compressed htype h.1.1 h.1.2
    refine ⟨record :: records,?_,by simp [hip,hips],List.forall_mem_cons.mpr ⟨hrdtype,hrecords⟩⟩
    rw [List.map_cons,List.mapM_cons,hrecord,hread]
    rfl

variable (texts) in
theorem RRset.fromTextList_ok {rdtype : RdataType} (htype : rdtype ∈ addressTypes)
    {ips : List IpText.Address} (name : Name) (ttl : Nat) (hne : ips ≠ []) (hnodup : ips.Nodup)
    (h : ∀ ip ∈ ips, ip.version = addressVersion rdtype ∧
      ∀ address, ip = .v6 address → address.scopeId = none) :
    ∃ r, RRset.fromTextList texts name ttl RdataClass.IN rdtype
        (ips.map IpText.Address.compressed) = .ok r ∧
      r.OfAddresses ∧ r.ips = ips ∧ r.name = name ∧ r.ttl = ttl ∧ r.rdtype = rdtype := by
  obtain ⟨records,hread,hips,hrecords⟩ := texts.mapM_compressed htype h
  obtain ⟨r,hr,hitems,hname,hclass,hrdtype,httl⟩ :=
    RRset.fromRdataList_ips name RdataClass.IN ttl hips hrecords htype hne hnodup
  refine ⟨{ r with rdtype },?_,⟨hclass,htype,fun record hrecord => ?_⟩,?_,hname,httl,rfl⟩
  · unfold RRset.fromTextList
    rw [hread]
    simp only [bind,Except.bind,hr]
    rfl
  · have hmem : record ∈ records := hitems ▸ hrecord
    have hip : record.ip ∈ ips.map some := hips ▸ List.mem_map_of_mem hmem
    obtain ⟨ip,_,hip⟩ := List.mem_map.mp hip
    exact ⟨hrecords record hmem,ip,hip.symm⟩
  · have hfilter : records.filterMap Rdata.ip = (records.map Rdata.ip).filterMap id := by
      rw [List.filterMap_map]
      rfl
    change r.items.filterMap Rdata.ip = ips
    rw [hitems,hfilter,hips,List.filterMap_map]
    simp

variable (texts) in
/-- An IPv4 address is no text of an AAAA record. -/
theorem RRset.fromTextList_v4 {ips : List IpText.Address} {ip : BitVec 32} (name : Name) (ttl : Nat)
    (h : IpText.Address.v4 ip ∈ ips) :
    ∃ e, RRset.fromTextList texts name ttl RdataClass.IN RdataType.AAAA
      (ips.map IpText.Address.compressed) = .error e := by
  unfold RRset.fromTextList
  cases hread : (ips.map IpText.Address.compressed).mapM
      (texts.fromText RdataClass.IN RdataType.AAAA) with
  | error e => exact ⟨e,rfl⟩
  | ok records =>
    obtain ⟨record,_,hrecord⟩ := (Exec.except_mapM_mem hread).1 _ (List.mem_map_of_mem h)
    obtain ⟨e,he⟩ := texts.fromText_v4 ip
    rw [IpText.Address.compressed,he] at hrecord
    contradiction

/-- The texts of the addresses of an rrset. -/
theorem RRset.OfAddresses.texts_ips {r : RRset} (h : r.OfAddresses) :
    (r.items.filterMap texts.address).map ipAddress = r.ips.map some := by
  have hrecords : ∀ record ∈ r.items, ∃ ip, record.ip = some ip :=
    fun record hrecord => (h.records record hrecord).2
  unfold RRset.ips
  generalize r.items = records at hrecords
  induction records with
  | nil => rfl
  | cons record records ih =>
    rw [List.forall_mem_cons] at hrecords
    obtain ⟨ip,hip⟩ := hrecords.1
    obtain ⟨text,htext,hread⟩ := texts.address_of_ip hip
    rw [List.filterMap_cons_some htext,List.filterMap_cons_some hip,List.map_cons,List.map_cons,
      hread,ih hrecords.2]

theorem RRset.OfAddresses.covers {r : RRset} (h : r.OfAddresses) : r.covers = RdataType.NONE :=
  RRset.covers_eq fun rd hrd => covers_address (by rw [(h.records rd hrd).1]; exact h.rdtype)

theorem RRset.OfAddresses.ips_ne_nil {r : RRset} (h : r.OfAddresses) : r.ips ≠ [] := by
  obtain ⟨record,rest,hitems⟩ := List.exists_cons_of_ne_nil r.nonempty
  obtain ⟨ip,hip⟩ := (h.records record (by rw [hitems]; exact List.mem_cons_self)).2
  simp [RRset.ips,hitems,List.filterMap_cons_some hip]

theorem RRset.OfAddresses.version {r : RRset} (h : r.OfAddresses) :
    ∀ ip ∈ r.ips, ip.version = addressVersion r.rdtype := by
  intro ip hip
  obtain ⟨record,hrecord,hip⟩ := List.mem_filterMap.mp hip
  rw [Rdata.ip_version hip,(h.records record hrecord).1]

/-! ### Texts without a library -/

def readRecord (rdclass : RdataClass) (rdtype : RdataType) (text : List Char) :
    Except PyException Rdata :=
  if rdclass ≠ RdataClass.IN then .error ⟨.other,"SyntaxError",""⟩
  else if rdtype = RdataType.A then
    match IpText.ipv4Address text with
    | some ip => .ok (.a ⟨ip⟩)
    | none => .error ⟨.other,"SyntaxError",""⟩
  else if rdtype = RdataType.AAAA then
    match IpText.ipv6Address text with
    | some ⟨ip,none⟩ => .ok (.aaaa ip)
    | _ => .error ⟨.other,"SyntaxError",""⟩
  else .error ⟨.other,"SyntaxError",""⟩

/-- Records with the texts of `ipaddress`. -/
def plainText : RecordText where
  address record := record.ip.map IpText.Address.compressed
  fromText := readRecord
  address_a ip := ⟨_,rfl,IpText.ipAddress_compressed _⟩
  address_aaaa ip := ⟨_,rfl,IpText.ipAddress_compressed _⟩
  fromText_a ip := by simp [readRecord,IpText.ipv4Address_text]
  fromText_aaaa ip := by
    have hread : IpText.ipv6Address (ipv6Text ip) = some { ip } := IpText.ipv6Address_text { ip }
    simp [readRecord,hread,RdataType.A,RdataType.AAAA]
  fromText_v4 ip := by
    simp [readRecord,IpText.ipv6Address_ipv4Text,RdataType.A,RdataType.AAAA]

end SmartDns
