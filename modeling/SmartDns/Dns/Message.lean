import SmartDns.Dns.Error
import SmartDns.Dns.Svcb
import SmartDns.Lib.Keyed
set_option autoImplicit false

/-!
The part of a dnspython message the program works on: names compared without
regard to case, rrsets found in a section by owner, class, type and what they
cover, and the headers the pipeline tests. The EDNS fields are not kept.
-/

namespace SmartDns

abbrev RdataType := UInt16
abbrev RdataClass := UInt16
abbrev Opcode := Fin 16
abbrev Rcode := Fin 4096

namespace RdataType
def NONE : RdataType := 0
def A : RdataType := 1
def CNAME : RdataType := 5
def SOA : RdataType := 6
def SIG : RdataType := 24
def AAAA : RdataType := 28
def NXT : RdataType := 30
def DNAME : RdataType := 39
def OPT : RdataType := 41
def RRSIG : RdataType := 46
def NSEC : RdataType := 47
def HTTPS : RdataType := 65
def TSIG : RdataType := 250
def ANY : RdataType := 255

/-- Types of which an rrset holds one record at most. -/
def isSingleton (t : RdataType) : Bool := t ∈ [SOA,NXT,DNAME,NSEC,CNAME]

def isMetatype (t : RdataType) : Bool := (128 ≤ t ∧ t < 256) ∨ t = OPT
end RdataType

namespace RdataClass
def IN : RdataClass := 1
def NONE : RdataClass := 254
def ANY : RdataClass := 255

def isMetaclass (c : RdataClass) : Bool := c ∈ [NONE,ANY]
end RdataClass

namespace Opcode
def QUERY : Opcode := 0
def NOTIFY : Opcode := 4
def UPDATE : Opcode := 5
end Opcode

namespace Rcode
def NOERROR : Rcode := 0
def FORMERR : Rcode := 1
def SERVFAIL : Rcode := 2
def NXDOMAIN : Rcode := 3
def NOTIMP : Rcode := 4
def REFUSED : Rcode := 5
def YXDOMAIN : Rcode := 6
end Rcode

/-- One record's data. `other` is any type the program does not look into. -/
inductive Rdata where
  | a (address : UInt32)
  | aaaa (address : BitVec 128)
  | cname (target : Name)
  | soa (minimum : Nat)
  | https (rdata : HttpsRdata)
  | other (rdtype : RdataType) (data : List UInt8)
  deriving DecidableEq, Repr

namespace Rdata

def rdtype : Rdata → RdataType
  | .a _ => RdataType.A
  | .aaaa _ => RdataType.AAAA
  | .cname _ => RdataType.CNAME
  | .soa _ => RdataType.SOA
  | .https _ => RdataType.HTTPS
  | .other t _ => t

def canon : Rdata → Rdata
  | .cname target => .cname target.canon
  | rd => rd

/-- The type that a signature is for, its first two bytes. -/
def covers : Rdata → RdataType
  | .other t (high :: low :: _) =>
    if t = RdataType.RRSIG ∨ t = RdataType.SIG then UInt16.ofNat (high.toNat*256+low.toNat)
    else RdataType.NONE
  | _ => RdataType.NONE

theorem covers_none {rd : Rdata} (hsigned : rd.rdtype ≠ RdataType.RRSIG)
    (hsig : rd.rdtype ≠ RdataType.SIG) : rd.covers = RdataType.NONE := by
  unfold covers
  split
  · exact if_neg (not_or.mpr ⟨hsigned,hsig⟩)
  · rfl

@[simp] theorem covers_a (address : UInt32) : covers (.a address) = RdataType.NONE := rfl
@[simp] theorem covers_aaaa (address : BitVec 128) : covers (.aaaa address) = RdataType.NONE := rfl
@[simp] theorem covers_cname (target : Name) : covers (.cname target) = RdataType.NONE := rfl
@[simp] theorem covers_soa (minimum : Nat) : covers (.soa minimum) = RdataType.NONE := rfl
@[simp] theorem covers_https (rdata : HttpsRdata) : covers (.https rdata) = RdataType.NONE := rfl

end Rdata

/-- `dns.rrset.RRset`: a non-empty set of records of one owner, class and type, which cover one
type where they are signatures. -/
structure RRset where
  name : Name
  rdclass : RdataClass
  rdtype : RdataType
  covers : RdataType := RdataType.NONE
  ttl : Nat
  items : List Rdata
  nonempty : items ≠ [] := by decide
  distinct : Keyed.Distinct Rdata.canon items := by decide
  covered : ∀ rd ∈ items, rd.covers = covers := by simp
  deriving DecidableEq, Repr

/-- What `find_rrset` compares: the owner without case, the class, the type and what is covered. -/
structure RRKey where
  name : Name
  rdclass : RdataClass
  rdtype : RdataType
  covers : RdataType := RdataType.NONE
  deriving DecidableEq, Repr

def rrkey (name : Name) (rdclass : RdataClass) (rdtype : RdataType) : RRKey :=
  { name := name.canon, rdclass, rdtype }

namespace RRset

def key (r : RRset) : RRKey := ⟨r.name.canon,r.rdclass,r.rdtype,r.covers⟩

theorem covers_eq {r : RRset} {covers : RdataType} (h : ∀ rd ∈ r.items, rd.covers = covers) :
    r.covers = covers := by
  obtain ⟨rd,hrd⟩ := List.exists_mem_of_ne_nil _ r.nonempty
  exact (r.covered rd hrd).symm.trans (h rd hrd)

/-- `rd.target` of the first record of a CNAME rrset. -/
def target (r : RRset) : Option Name :=
  match r.items with
  | .cname t :: _ => some t
  | _ => none

/-- `rrset[0].minimum` of a SOA rrset. -/
def minimum (r : RRset) : Option Nat :=
  match r.items with
  | .soa m :: _ => some m
  | _ => none

/-- `Rdataset.add` on the records: a record of a singleton type replaces what is there,
any other joins once. -/
def addRdata (items : List Rdata) (rd : Rdata) : List Rdata :=
  if rd.rdtype.isSingleton then [rd] else Keyed.put Rdata.canon (fun old _ => old) items rd

theorem addRdata_ne_nil (items : List Rdata) (rd : Rdata) : addRdata items rd ≠ [] := by
  unfold addRdata
  split
  · simp
  · cases items with
    | nil => simp [Keyed.put]
    | cons x items =>
      simp only [Keyed.put]
      split <;> simp

theorem addRdata_distinct {items : List Rdata} (h : Keyed.Distinct Rdata.canon items)
    (rd : Rdata) : Keyed.Distinct Rdata.canon (addRdata items rd) := by
  unfold addRdata
  split
  · simp [Keyed.Distinct]
  · exact Keyed.put_distinct (fun _ _ => rfl) h

theorem mem_addRdata {items : List Rdata} {rd x : Rdata} (h : x ∈ addRdata items rd) :
    x ∈ items ∨ x = rd := by
  unfold addRdata at h
  split at h
  · exact .inr (List.mem_singleton.mp h)
  · obtain hmem | heq | ⟨old,hold,-,rfl⟩ := Keyed.mem_put h
    · exact .inl hmem
    · exact .inr heq
    · exact .inl hold

theorem addRdata_covered {items : List Rdata} {rd : Rdata} {covers : RdataType}
    (h : ∀ x ∈ items, x.covers = covers) (hrd : rd.covers = covers) :
    ∀ x ∈ addRdata items rd, x.covers = covers := by
  intro x hx
  obtain hmem | rfl := mem_addRdata hx
  · exact h x hmem
  · exact hrd

/-- Adding the records of `x` to `r` one by one, with the smaller TTL; a record that covers
another type would not be taken. -/
def absorb (r x : RRset) : RRset where
  name := r.name
  rdclass := r.rdclass
  rdtype := r.rdtype
  covers := r.covers
  ttl := min r.ttl x.ttl
  items := (x.items.filter fun rd => rd.covers = r.covers).foldl addRdata r.items
  nonempty := List.foldlRecOn (motive:=fun l => l ≠ []) _ addRdata r.nonempty
    fun l _ rd _ => addRdata_ne_nil l rd
  distinct := List.foldlRecOn (motive:=Keyed.Distinct Rdata.canon) _ addRdata r.distinct
    fun _ h rd _ => addRdata_distinct h rd
  covered := List.foldlRecOn (motive:=fun l => ∀ rd ∈ l, rd.covers = r.covers) _ addRdata r.covered
    fun _ hl rd hrd => addRdata_covered hl (by simpa using (List.mem_filter.mp hrd).2)

@[simp] theorem key_absorb (r x : RRset) : (r.absorb x).key = r.key := rfl

/-- Records that are no singletons stay. -/
theorem mem_absorb {r x : RRset} {rd : Rdata}
    (hsingle : ∀ rd ∈ x.items, rd.rdtype.isSingleton = false) (h : rd ∈ r.items) :
    rd ∈ (r.absorb x).items := by
  refine List.foldlRecOn (motive:=fun l => rd ∈ l) _ addRdata h ?_
  intro items hitems other hother
  simp only [addRdata,hsingle other (List.mem_of_mem_filter hother),Bool.false_eq_true,if_false]
  exact Keyed.mem_put_keep hitems

/-- Records that an rrset has already change nothing in it. -/
theorem absorb_subset {r x : RRset} (hsubset : ∀ rd ∈ x.items, rd ∈ r.items)
    (hsingle : ∀ rd ∈ x.items, rd.rdtype.isSingleton = false) (httl : x.ttl = r.ttl) :
    r.absorb x = r := by
  have hitems : (x.items.filter fun rd => rd.covers = r.covers).foldl addRdata r.items =
      r.items := by
    refine List.foldlRecOn (motive:=fun l => l = r.items) _ addRdata rfl ?_
    intro items hitems rd hrd
    have hmem := List.mem_of_mem_filter hrd
    rw [hitems]
    simp only [addRdata,hsingle rd hmem,Bool.false_eq_true,if_false]
    exact Keyed.put_mem r.distinct (hsubset rd hmem)
  unfold absorb
  simp only [hitems,httl,Nat.min_self]

end RRset

structure Flags where
  qr : Bool := false
  aa : Bool := false
  tc : Bool := false
  rd : Bool := false
  ra : Bool := false
  ad : Bool := false
  cd : Bool := false
  deriving DecidableEq, Repr

/-- An entry of the question section: an rrset without records. -/
structure Question where
  name : Name
  rdtype : RdataType
  rdclass : RdataClass
  deriving DecidableEq, Repr

def Question.key (q : Question) : RRKey := rrkey q.name q.rdclass q.rdtype

/-- `dns.message.Message`. -/
structure Message where
  id : UInt16
  flags : Flags := {}
  opcode : Opcode := Opcode.QUERY
  rcode : Rcode := Rcode.NOERROR
  question : List Question := []
  answer : List RRset := []
  authority : List RRset := []
  additional : List RRset := []
  deriving DecidableEq, Repr

/-- `dns.message.make_response`: a reply carries the question and the RD flag over,
and only a query can be replied to. -/
def makeResponse (query : Message) : Except PyException Message :=
  if query.flags.qr then .error (.formError "specified query message is not a query")
  else .ok
    { id := query.id
      flags := { qr := true, rd := query.flags.rd }
      opcode := query.opcode
      question := query.question }

/-- `dns.message.make_query` on names and types already parsed. -/
def makeQuery (id : UInt16) (qname : Name) (rdtype : RdataType) (rdclass : RdataClass) : Message :=
  { id := id, flags := { rd := true }, question := [⟨qname,rdtype,rdclass⟩] }

theorem makeResponse_ok {query : Message} (h : query.flags.qr = false) :
    makeResponse query = .ok
      { id := query.id, flags := { qr := true, rd := query.flags.rd }, opcode := query.opcode,
        question := query.question } := by
  simp [makeResponse,h]

/-- `find_rrset` as it is called without `covers`, which finds no signatures. -/
def findRRset (section' : List RRset) (name : Name) (rdclass : RdataClass) (rdtype : RdataType) :
    Option RRset :=
  Keyed.lookup RRset.key (rrkey name rdclass rdtype) section'

namespace Message

/-- What decoding a section leaves: records of one owner, class and type that cover the same
in one rrset, where the first of them stood. -/
def mergeSection (l : List RRset) : List RRset := Keyed.gather RRset.key RRset.absorb l

def merged (m : Message) : Message :=
  { m with
    answer := mergeSection m.answer
    authority := mergeSection m.authority
    additional := mergeSection m.additional }

def withAnswer (m : Message) (answer : List RRset) : Message := { m with answer }

@[simp] theorem withAnswer_answer (m : Message) (l : List RRset) :
    (m.withAnswer l).answer = l := rfl
@[simp] theorem withAnswer_flags (m : Message) (l : List RRset) :
    (m.withAnswer l).flags = m.flags := rfl
@[simp] theorem withAnswer_rcode (m : Message) (l : List RRset) :
    (m.withAnswer l).rcode = m.rcode := rfl
@[simp] theorem withAnswer_question (m : Message) (l : List RRset) :
    (m.withAnswer l).question = m.question := rfl
@[simp] theorem merged_flags (m : Message) : m.merged.flags = m.flags := rfl
@[simp] theorem merged_rcode (m : Message) : m.merged.rcode = m.rcode := rfl
@[simp] theorem merged_question (m : Message) : m.merged.question = m.question := rfl
@[simp] theorem merged_answer (m : Message) : m.merged.answer = mergeSection m.answer := rfl
@[simp] theorem merged_id (m : Message) : m.merged.id = m.id := rfl

/-- One rrset for each owner, class, type and what is covered in every section. -/
structure Indexed (m : Message) : Prop where
  answer : Keyed.Distinct RRset.key m.answer
  authority : Keyed.Distinct RRset.key m.authority
  additional : Keyed.Distinct RRset.key m.additional

theorem mergeSection_distinct (l : List RRset) : Keyed.Distinct RRset.key (mergeSection l) :=
  Keyed.gather_distinct RRset.key_absorb l

theorem mergeSection_merged (l : List RRset) : mergeSection (mergeSection l) = mergeSection l :=
  Keyed.gather_of_distinct (mergeSection_distinct l)

theorem merged_indexed (m : Message) : m.merged.Indexed :=
  ⟨mergeSection_distinct _,mergeSection_distinct _,mergeSection_distinct _⟩

theorem Indexed.merged_eq {m : Message} (h : m.Indexed) : m.merged = m := by
  simp [merged,mergeSection,Keyed.gather_of_distinct h.answer,
    Keyed.gather_of_distinct h.authority,Keyed.gather_of_distinct h.additional]

@[simp] theorem merged_merged (m : Message) : m.merged.merged = m.merged :=
  m.merged_indexed.merged_eq

end Message

end SmartDns
