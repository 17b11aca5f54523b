import SmartDns.Dns.Message
import Mathlib.Algebra.Group.Nat.Defs
import Mathlib.Data.List.Induction
import Mathlib.Data.Rat.Defs
set_option autoImplicit false

/-! `QueryMessage.resolve_chaining` and `dns.resolver.Answer` of dnspython, and the
wire format as a codec. -/

namespace SmartDns

def maxChain : Nat := 16

/-- `dns.ttl.MAX_TTL`. -/
def maxTtl : Nat := 2^31-1

structure ChainingResult where
  canonicalName : Name
  answer : Option RRset
  minimumTtl : Nat
  cnames : List RRset
  deriving DecidableEq, Repr

def attributeError (message : String) : PyException := ⟨.other,"AttributeError",message⟩

/-- The chaining loop with `n` rounds left: an rrset of the queried type ends it, a
CNAME at the current name continues it, and running out of rounds is an error. -/
def followChain (answer : List RRset) (q : Question) :
    Nat → Name → Nat → List RRset → Except PyException ChainingResult
  | 0, _, _, _ => .error .chainTooLong
  | n+1, qname, minTtl, cnames =>
    match findRRset answer qname q.rdclass q.rdtype with
    | some r => .ok ⟨qname,some r,min minTtl r.ttl,cnames⟩
    | none =>
      if q.rdtype = RdataType.CNAME then .ok ⟨qname,none,minTtl,cnames⟩
      else
        match findRRset answer qname q.rdclass RdataType.CNAME with
        | none => .ok ⟨qname,none,minTtl,cnames⟩
        | some c =>
          match c.target with
          | none => .error (attributeError "target")
          | some target => followChain answer q n target (min minTtl c.ttl) (cnames ++ [c])

/-- The SOA rrset whose owner is the closest ancestor of the name. -/
def soaAbove (authority : List RRset) (rdclass : RdataClass) : List (List UInt8) → Option RRset
  | [] => findRRset authority ⟨[]⟩ rdclass RdataType.SOA
  | l :: ls =>
    match findRRset authority ⟨l :: ls⟩ rdclass RdataType.SOA with
    | some s => some s
    | none => soaAbove authority rdclass ls

/-- A negative answer lives no longer than its SOA allows. -/
def negativeTtl (m : Message) (rdclass : RdataClass) (r : ChainingResult) :
    Except PyException ChainingResult :=
  match r.answer with
  | some _ => .ok r
  | none =>
    match soaAbove m.authority rdclass r.canonicalName.labels with
    | none => .ok r
    | some s =>
      match s.minimum with
      | none => .error (attributeError "minimum")
      | some minimum => .ok { r with minimumTtl := min (min r.minimumTtl s.ttl) minimum }

/-- A method of `QueryMessage`, which `from_wire` makes of messages with the opcode of a query. -/
def resolveChaining (m : Message) : Except PyException ChainingResult := do
  if m.opcode ≠ Opcode.QUERY then throw (attributeError "resolve_chaining")
  if !m.flags.qr then throw .notQueryResponse
  match m.question with
  | [q] =>
    let r ← followChain m.answer q maxChain q.name maxTtl []
    if m.rcode = Rcode.NXDOMAIN ∧ r.answer.isSome then throw .answerForNXDOMAIN
    negativeTtl m q.rdclass r
  | _ => throw (.formError "")

/-- `dns.resolver.Answer`; `expiration` is in the seconds of the clock. -/
structure Answer where
  qname : Name
  rdtype : RdataType
  rdclass : RdataClass
  response : Message
  canonicalName : Name
  cnames : List RRset
  rrset : Option RRset
  expiration : ℚ
  deriving DecidableEq, Repr

/-- `Answer.__init__`. -/
def mkAnswer (now : ℚ) (qname : Name) (rdtype : RdataType) (rdclass : RdataClass)
    (response : Message) : Except PyException Answer := do
  let chaining ← resolveChaining response
  pure
    { qname, rdtype, rdclass, response
      canonicalName := chaining.canonicalName
      cnames := chaining.cnames
      rrset := chaining.answer
      expiration := now+chaining.minimumTtl }

/-! ### What resolving the chain needs and gives -/

theorem negativeTtl_answer {m : Message} {rdclass : RdataClass} {r ch : ChainingResult}
    (h : negativeTtl m rdclass r = .ok ch) :
    ch.answer = r.answer ∧ ch.canonicalName = r.canonicalName ∧ ch.cnames = r.cnames := by
  unfold negativeTtl at h
  split at h
  · cases h
    exact ⟨rfl,rfl,rfl⟩
  · split at h
    · cases h
      exact ⟨rfl,rfl,rfl⟩
    · split at h
      · contradiction
      · cases h
        exact ⟨rfl,rfl,rfl⟩

theorem negativeTtl_some {m : Message} {rdclass : RdataClass} {r : ChainingResult} {rrset : RRset}
    (h : r.answer = some rrset) : negativeTtl m rdclass r = .ok r := by
  simp [negativeTtl,h]

/-- The smallest TTL of the CNAMEs of a chain. -/
def chainTtl (cnames : List RRset) : Nat := cnames.foldl (fun ttl c => min ttl c.ttl) maxTtl

theorem chainTtl_snoc (cnames : List RRset) (c : RRset) :
    chainTtl (cnames ++ [c]) = min (chainTtl cnames) c.ttl := by
  simp [chainTtl]

theorem chainTtl_le {cnames : List RRset} {c : RRset} (h : c ∈ cnames) :
    chainTtl cnames ≤ c.ttl := by
  induction cnames using List.reverseRecOn with
  | nil => simp at h
  | append_singleton cnames d ih =>
    rw [chainTtl_snoc]
    cases List.mem_append.mp h with
    | inl hmem => exact (Nat.min_le_left _ _).trans (ih hmem)
    | inr hmem =>
      rw [List.mem_singleton.mp hmem]
      exact Nat.min_le_right _ _

theorem followChain_ttl {l : List RRset} {q : Question} {n : Nat} {qname : Name}
    {cnames : List RRset} {r : ChainingResult}
    (h : followChain l q n qname (chainTtl cnames) cnames = .ok r) :
    r.minimumTtl = (r.answer.map RRset.ttl).elim (chainTtl r.cnames) (min (chainTtl r.cnames)) := by
  induction n generalizing qname cnames with
  | zero => simp [followChain] at h
  | succ n ih =>
    unfold followChain at h
    split at h
    · cases h
      rfl
    · split at h
      · cases h
        rfl
      · split at h
        · cases h
          rfl
        · split at h
          · contradiction
          · rw [← chainTtl_snoc] at h
            exact ih h

theorem soaAbove_some {authority : List RRset} {rdclass : RdataClass}
    {labels : List (List UInt8)} {s : RRset} (h : soaAbove authority rdclass labels = some s) :
    s ∈ authority ∧ s.rdtype = RdataType.SOA := by
  have hfound {name : Name} (h : findRRset authority name rdclass RdataType.SOA = some s) :
      s ∈ authority ∧ s.rdtype = RdataType.SOA := by
    obtain ⟨hmem,hkey⟩ := Keyed.lookup_some h
    exact ⟨hmem,congrArg RRKey.rdtype hkey⟩
  induction labels with
  | nil => exact hfound h
  | cons label labels ih =>
    unfold soaAbove at h
    split at h
    · rename_i found hlookup
      cases h
      exact hfound hlookup
    · exact ih h

/-- A SOA bounds the lifetime of a negative answer; without one the chain alone does. -/
theorem negativeTtl_ttl {m : Message} {rdclass : RdataClass} {r ch : ChainingResult}
    (h : negativeTtl m rdclass r = .ok ch) :
    ch.minimumTtl ≤ r.minimumTtl ∧
      match r.answer, soaAbove m.authority rdclass r.canonicalName.labels with
      | none, some s => ∃ minimum, s.minimum = some minimum ∧ ch.minimumTtl ≤ s.ttl ∧
          ch.minimumTtl ≤ minimum
      | _, _ => ch.minimumTtl = r.minimumTtl := by
  unfold negativeTtl at h
  split at h
  · rename_i a ha
    cases h
    simp [ha]
  · rename_i ha
    split at h
    · rename_i hs
      cases h
      simp [ha,hs]
    · rename_i s hs
      split at h
      · contradiction
      · rename_i minimum hmin
        cases h
        simp only [ha,hs,hmin]
        refine ⟨by omega,minimum,rfl,by omega,by omega⟩

theorem resolveChaining_ok {m : Message} {ch : ChainingResult} :
    resolveChaining m = .ok ch ↔
      m.opcode = Opcode.QUERY ∧ m.flags.qr = true ∧ ∃ q, m.question = [q] ∧
        ∃ r, followChain m.answer q maxChain q.name maxTtl [] = .ok r ∧
          ¬ (m.rcode = Rcode.NXDOMAIN ∧ r.answer.isSome = true) ∧
          negativeTtl m q.rdclass r = .ok ch := by
  unfold resolveChaining
  by_cases hop : m.opcode = Opcode.QUERY
  swap
  · simp [hop,throw,throwThe,MonadExceptOf.throw,bind,Except.bind]
  simp only [hop,ne_eq,not_true_eq_false,if_false,true_and]
  cases hqr : m.flags.qr with
  | false => simp [throw,throwThe,MonadExceptOf.throw,bind,Except.bind]
  | true =>
    simp only [Bool.not_true,Bool.false_eq_true,if_false,bind,Except.bind,true_and]
    split
    · rename_i q hq
      cases hchain : followChain m.answer q maxChain q.name maxTtl [] with
      | error e => simp [hq,hchain]
      | ok r =>
        constructor
        · intro h
          by_cases hnx : m.rcode = Rcode.NXDOMAIN ∧ r.answer.isSome = true
          · simp only [if_pos hnx] at h
            contradiction
          · simp only [if_neg hnx] at h
            exact ⟨q,hq,r,hchain,hnx,h⟩
        · intro h
          obtain ⟨q',hq',r',hr',hnx,h⟩ := h
          obtain rfl : q = q' := by simpa [hq] using hq'
          rw [hchain] at hr'
          cases hr'
          simp only [if_neg hnx]
          exact h
    · rename_i hq
      simp only [throw,throwThe,MonadExceptOf.throw,reduceCtorEq,false_iff,not_exists,not_and]
      exact fun q hone => absurd hone (hq q)

theorem mkAnswer_ok {now : ℚ} {qname : Name} {rdtype : RdataType} {rdclass : RdataClass}
    {response : Message} {a : Answer} :
    mkAnswer now qname rdtype rdclass response = .ok a ↔
      ∃ ch, resolveChaining response = .ok ch ∧
        a = { qname, rdtype, rdclass, response, canonicalName := ch.canonicalName
              cnames := ch.cnames, rrset := ch.answer, expiration := now+ch.minimumTtl } := by
  unfold mkAnswer
  cases resolveChaining response with
  | error e => simp [bind,Except.bind]
  | ok ch => simp [bind,Except.bind,pure,Except.pure,eq_comm]

/-- Where the chain ends, a lookup of the queried type gives what the chain gave. -/
theorem followChain_answer {l : List RRset} {q : Question} {n : Nat} {qname : Name} {ttl : Nat}
    {cnames : List RRset} {r : ChainingResult}
    (h : followChain l q n qname ttl cnames = .ok r) :
    r.answer = findRRset l r.canonicalName q.rdclass q.rdtype := by
  induction n generalizing qname ttl cnames with
  | zero => simp [followChain] at h
  | succ n ih =>
    unfold followChain at h
    split at h
    · rename_i hfound
      cases h
      exact hfound.symm
    · rename_i hnone
      split at h
      · cases h
        exact hnone.symm
      · split at h
        · cases h
          exact hnone.symm
        · split at h
          · contradiction
          · exact ih h

/-- On a section with the same CNAMEs, where nothing of the queried type comes in the way, the
chain ends at the same name. -/
theorem followChain_transfer {l l' : List RRset} {q : Question} {n : Nat} {qname : Name}
    {ttl ttl' : Nat} {cnames cnames' : List RRset} {r : ChainingResult}
    (h : followChain l q n qname ttl cnames = .ok r)
    (hcname : q.rdtype ≠ RdataType.CNAME → ∀ name,
      findRRset l' name q.rdclass RdataType.CNAME = findRRset l name q.rdclass RdataType.CNAME)
    (hnone : ∀ name, rrkey name q.rdclass q.rdtype ≠ rrkey r.canonicalName q.rdclass q.rdtype →
      findRRset l name q.rdclass q.rdtype = none → findRRset l' name q.rdclass q.rdtype = none)
    (hend : r.answer.isSome = true →
      (findRRset l' r.canonicalName q.rdclass q.rdtype).isSome = true) :
    ∃ r', followChain l' q n qname ttl' cnames' = .ok r' ∧
      r'.answer = findRRset l' r.canonicalName q.rdclass q.rdtype := by
  induction n generalizing qname ttl ttl' cnames cnames' with
  | zero => simp [followChain] at h
  | succ n ih =>
    by_cases hhere : rrkey qname q.rdclass q.rdtype = rrkey r.canonicalName q.rdclass q.rdtype ∧
        (findRRset l' qname q.rdclass q.rdtype).isSome = true
    · obtain ⟨hkey,hsome⟩ := hhere
      obtain ⟨rrset,hfound⟩ := Option.isSome_iff_exists.mp hsome
      refine ⟨⟨qname,some rrset,min ttl' rrset.ttl,cnames'⟩,by simp [followChain,hfound],?_⟩
      rw [← hfound,findRRset,hkey]
      rfl
    · have hmissed : findRRset l qname q.rdclass q.rdtype = none ∧
          findRRset l' qname q.rdclass q.rdtype = none := by
        by_cases hkey : rrkey qname q.rdclass q.rdtype = rrkey r.canonicalName q.rdclass q.rdtype
        · have hnot : ¬ (findRRset l' qname q.rdclass q.rdtype).isSome = true :=
            fun hsome => hhere ⟨hkey,hsome⟩
          have hanswer := followChain_answer h
          rw [findRRset,← hkey] at hend hanswer
          cases hr : r.answer with
          | none => exact ⟨hanswer.symm.trans hr,Option.not_isSome_iff_eq_none.mp hnot⟩
          | some rrset => exact absurd (hend (by rw [hr]; rfl)) hnot
        · cases hfound : findRRset l qname q.rdclass q.rdtype with
          | none => exact ⟨rfl,hnone qname hkey hfound⟩
          | some rrset =>
            simp only [followChain,hfound,Except.ok.injEq] at h
            rw [← h] at hkey
            exact absurd rfl hkey
      unfold followChain at h ⊢
      simp only [hmissed.1] at h
      simp only [hmissed.2]
      split at h
      · rename_i hc
        cases h
        exact ⟨_,if_pos hc,hmissed.2.symm⟩
      · rename_i hc
        rw [if_neg hc,hcname hc]
        split at h
        · cases h
          exact ⟨_,rfl,hmissed.2.symm⟩
        · split at h
          · contradiction
          · exact ih h

/-- A section that differs from `l` at the key the chain ended at only, and has `rrset`
there, resolves to it. -/
theorem followChain_replace {l l' : List RRset} {q : Question} {n : Nat} {qname : Name}
    {ttl ttl' : Nat} {cnames cnames' : List RRset} {r : ChainingResult} {rrset : RRset}
    (h : followChain l q n qname ttl cnames = .ok r)
    (hkey : findRRset l' r.canonicalName q.rdclass q.rdtype = some rrset)
    (hother : ∀ k, k ≠ rrkey r.canonicalName q.rdclass q.rdtype →
      Keyed.lookup RRset.key k l' = Keyed.lookup RRset.key k l) :
    ∃ r', followChain l' q n qname ttl' cnames' = .ok r' ∧ r'.answer = some rrset := by
  rw [← hkey]
  refine followChain_transfer h (fun hc name => hother _ fun heq => hc ?_)
    (fun name hne hnone => (hother _ hne).trans hnone) fun _ => by rw [hkey]; rfl
  exact (congrArg RRKey.rdtype heq).symm

/-- The rrset that the CNAME chain of a message leads to. -/
def Message.leadsTo (m : Message) : Option RRset :=
  match resolveChaining m with
  | .ok chain => chain.answer
  | .error _ => none

theorem Message.leadsTo_ok {m : Message} {chain : ChainingResult}
    (h : resolveChaining m = .ok chain) : m.leadsTo = chain.answer := by
  simp [Message.leadsTo,h]

/-- The wire format, outside this repository. Encoding may fail; what it gives
decodes to the message with its sections merged, and that encodes again. A
message without records and with at most one question always encodes. -/
structure Codec (W : Type) where
  toWire : Message → Except PyException W
  fromWire : W → Except PyException Message
  roundTrip : ∀ m w, toWire m = .ok w → fromWire w = .ok m.merged
  again : ∀ m w, toWire m = .ok w → ∃ w', toWire m.merged = .ok w'
  bare : ∀ m, m.question.length ≤ 1 → m.answer = [] → m.authority = [] → m.additional = [] →
    ∃ w, toWire m = .ok w

/-- A wire that carries the message itself. -/
def directCodec : Codec Message where
  toWire m := .ok m
  fromWire m := .ok m.merged
  roundTrip m w h := by cases h; rfl
  again m _ _ := ⟨m.merged,rfl⟩
  bare m _ _ _ _ := ⟨m,rfl⟩

/-- The wire format as bytes, of which the header alone has twelve. -/
structure WireFormat where
  toWire : Message → Except PyException (List UInt8)
  fromWire : List UInt8 → Except PyException Message
  roundTrip : ∀ m wire, toWire m = .ok wire → fromWire wire = .ok m.merged
  header : ∀ m wire, toWire m = .ok wire → 12 ≤ wire.length

def Codec.Encodes {W : Type} (c : Codec W) (m : Message) : Prop := ∃ w, c.toWire m = .ok w

/-- The id is two bytes of the header, whatever else there is. -/
def Codec.IgnoresId {W : Type} (c : Codec W) : Prop :=
  ∀ (m : Message) (id : UInt16), c.Encodes m → c.Encodes { m with id }

theorem directCodec_ignoresId : directCodec.IgnoresId := fun m id _ => ⟨{ m with id },rfl⟩

/-! ### A host to ask for -/

def hostName : Name := ⟨[[104]]⟩
def otherName : Name := ⟨[[111]]⟩
def hostQuestion : Question := ⟨hostName,RdataType.A,RdataClass.IN⟩

def hostQuery : Message := { id := 5, flags := { rd := true }, question := [hostQuestion] }

def addressOf (name : Name) (address : UInt32) : RRset where
  name := name
  rdclass := RdataClass.IN
  rdtype := RdataType.A
  ttl := 60
  items := [.a address]
  nonempty := List.cons_ne_nil _ _
  distinct := List.nodup_singleton _

def hostAlias : RRset where
  name := hostName
  rdclass := RdataClass.IN
  rdtype := RdataType.CNAME
  ttl := 60
  items := [.cname otherName]
  nonempty := List.cons_ne_nil _ _
  distinct := List.nodup_singleton _

/-- A reply to a question for the addresses of a host with these rrsets. -/
def hostReply (answer : List RRset) : Message :=
  { id := 7, flags := { qr := true }, question := [hostQuestion], answer }

def hostAnswer (answer : List RRset) (rrset : Option RRset) : Answer where
  qname := hostName
  rdtype := RdataType.A
  rdclass := RdataClass.IN
  response := hostReply answer
  canonicalName := hostName
  cnames := []
  rrset := rrset
  expiration := 60

theorem hostAnswer_built {answer : List RRset} {rrset : RRset}
    (h : resolveChaining (hostReply answer) = .ok ⟨hostName,some rrset,60,[]⟩) :
    mkAnswer 0 hostName RdataType.A RdataClass.IN (hostReply answer) =
      .ok (hostAnswer answer rrset) :=
  mkAnswer_ok.mpr ⟨_,h,by simp [hostAnswer]⟩

end SmartDns
