import SmartDns.Pipeline.Context
import SmartDns.Resolver.Nameserver
set_option autoImplicit false

/-!
`UpstreamResolver.resolve` over the resolution loop of dnspython: nameservers are tried
in turn until one of their replies makes an answer, and those that fail are left out of
the next turn.
-/

namespace SmartDns

def noNameservers : PyException := ⟨.other,"NoNameservers",""⟩
def lifetimeTimeout : PyException := ⟨.timeoutError,"LifetimeTimeout",""⟩
def noMetaqueries : PyException := ⟨.other,"NoMetaqueries",""⟩
def yxdomain : PyException := ⟨.other,"YXDOMAIN",""⟩
def assertionError : PyException := ⟨.other,"AssertionError",""⟩

/-- `dns.resolver._Resolution` for the one name it is given. -/
structure Resolution where
  request : Message
  qname : Name
  rdtype : RdataType
  rdclass : RdataClass
  tcp : Bool
  nameservers : List Nameserver
  currentNameservers : List Nameserver
  nameserver : Option Nameserver := none
  tcpAttempt : Bool := false
  retryWithTcp : Bool := false

namespace Resolution

/-- The nameserver of the next attempt; with none left the resolution is over. -/
def nextNameserver (r : Resolution) : Option (Nameserver × Resolution) :=
  match r.retryWithTcp, r.nameserver with
  | true, some ns => some (ns,{ r with tcpAttempt := true, retryWithTcp := false })
  | _, _ =>
    match (if r.currentNameservers = [] then r.nameservers else r.currentNameservers) with
    | [] => none
    | ns :: rest =>
      some (ns,{ r with
        currentNameservers := rest, nameserver := some ns
        tcpAttempt := r.tcp || ns.kind.isAlwaysMaxSize })

def remove (r : Resolution) (ns : Nameserver) : Resolution :=
  { r with nameservers := r.nameservers.erase ns }

/-- What an attempt leads to. -/
inductive Verdict where
  | again (r : Resolution)
  | answered (a : Answer)
  | failed (e : PyException)

-- `isinstance(e, (EOFError, OSError, NotImplementedError))`
variable (isBroken : PyException → Bool)

/-- `_Resolution.query_result`, which asserts that a reply is a `QueryMessage`. -/
def queryResult (now : ℚ) (r : Resolution) (ns : Nameserver) :
    Except PyException Message → Verdict
  | .error e =>
    if e.kind = .formError || isBroken e then .again (r.remove ns)
    else if e.typeName = truncated.typeName then
      if r.tcpAttempt then .again (r.remove ns) else .again { r with retryWithTcp := true }
    else .again r
  | .ok response =>
    if response.opcode ≠ Opcode.QUERY then .failed assertionError
    else if response.rcode = Rcode.NOERROR then
      match mkAnswer now r.qname r.rdtype r.rdclass response with
      | .error _ => .again (r.remove ns)
      | .ok a => .answered a
    else if response.rcode = Rcode.NXDOMAIN then
      match mkAnswer now r.qname RdataType.ANY RdataClass.IN response with
      | .error _ => .again (r.remove ns)
      | .ok _ => .failed PyException.nxdomain
    else if response.rcode = Rcode.YXDOMAIN then .failed yxdomain
    else if response.rcode = Rcode.SERVFAIL then .again r
    else .again (r.remove ns)

/-- One round of the loop. -/
def attempt (now : ℚ) (r : Resolution) (d : Delivery) : Verdict :=
  match r.nextNameserver with
  | none => .failed noNameservers
  | some (ns,r') => queryResult isBroken now r' ns (asyncQuery ns.kind r'.request r'.tcpAttempt d)

/-- The loop, with what the network delivers to each attempt until time is up. -/
def run (now : ℚ) (r : Resolution) : List Delivery → Except PyException Answer
  | [] => if r.nextNameserver.isNone then .error noNameservers else .error lifetimeTimeout
  | d :: rest =>
    match attempt isBroken now r d with
    | .again r' => run now r' rest
    | .answered a => .ok a
    | .failed e => .error e

/-- The attempts that are made, each with the state before it. -/
def attempts (now : ℚ) (r : Resolution) : List Delivery → List (Resolution × Delivery)
  | [] => []
  | d :: rest =>
    (r,d) ::
      match attempt isBroken now r d with
      | .again r' => attempts now r' rest
      | _ => []

variable {isBroken : PyException → Bool}

/-- An answer of the loop is the answer of one of its attempts, and conversely. -/
theorem run_ok_iff {now : ℚ} {r : Resolution} {ds : List Delivery} {a : Answer} :
    run isBroken now r ds = .ok a ↔
      ∃ t ∈ attempts isBroken now r ds, attempt isBroken now t.1 t.2 = .answered a := by
  induction ds generalizing r with
  | nil =>
    simp only [run,attempts,List.not_mem_nil,false_and,exists_false,iff_false]
    split <;> simp
  | cons d rest ih =>
    cases h : attempt isBroken now r d with
    | again r' => simp [run,attempts,h,ih]
    | answered b => simp [run,attempts,h]
    | failed e => simp [run,attempts,h]

/-- The query a resolution was started with. -/
structure SameQuery (r r' : Resolution) : Prop where
  request : r'.request = r.request
  qname : r'.qname = r.qname
  rdtype : r'.rdtype = r.rdtype
  rdclass : r'.rdclass = r.rdclass

theorem SameQuery.refl (r : Resolution) : SameQuery r r := ⟨rfl,rfl,rfl,rfl⟩

theorem SameQuery.trans {r r' r'' : Resolution} (h : SameQuery r r') (h' : SameQuery r' r'') :
    SameQuery r r'' :=
  ⟨h'.request.trans h.request,h'.qname.trans h.qname,h'.rdtype.trans h.rdtype,
    h'.rdclass.trans h.rdclass⟩

theorem nextNameserver_sameQuery {r r' : Resolution} {ns : Nameserver}
    (h : r.nextNameserver = some (ns,r')) : SameQuery r r' := by
  unfold nextNameserver at h
  split at h
  · cases h
    exact ⟨rfl,rfl,rfl,rfl⟩
  · split at h
    · contradiction
    · cases h
      exact ⟨rfl,rfl,rfl,rfl⟩

theorem queryResult_sameQuery {now : ℚ} {r r' : Resolution} {ns : Nameserver}
    {outcome : Except PyException Message} (h : queryResult isBroken now r ns outcome = .again r') :
    SameQuery r r' := by
  cases outcome with
  | error e =>
    simp only [queryResult] at h
    repeat' split at h
    all_goals cases h; exact ⟨rfl,rfl,rfl,rfl⟩
  | ok response =>
    simp only [queryResult] at h
    repeat' split at h
    all_goals first | contradiction | (cases h; exact ⟨rfl,rfl,rfl,rfl⟩)

theorem attempt_sameQuery {now : ℚ} {r r' : Resolution} {d : Delivery}
    (h : attempt isBroken now r d = .again r') : SameQuery r r' := by
  unfold attempt at h
  split at h
  · contradiction
  · rename_i hnext
    exact (nextNameserver_sameQuery hnext).trans (queryResult_sameQuery h)

/-- Every attempt is made with the query of the start. -/
theorem attempts_sameQuery {now : ℚ} {r : Resolution} {ds : List Delivery}
    {t : Resolution × Delivery} (h : t ∈ attempts isBroken now r ds) : SameQuery r t.1 := by
  induction ds generalizing r with
  | nil => simp [attempts] at h
  | cons d rest ih =>
    simp only [attempts,List.mem_cons] at h
    rcases h with rfl | h
    · exact SameQuery.refl r
    · split at h
      · rename_i hagain
        exact (attempt_sameQuery hagain).trans (ih h)
      · simp at h

theorem queryResult_answered_iff {now : ℚ} {r : Resolution} {ns : Nameserver}
    {outcome : Except PyException Message} {a : Answer} :
    queryResult isBroken now r ns outcome = .answered a ↔
      ∃ reply, outcome = .ok reply ∧ reply.opcode = Opcode.QUERY ∧
        reply.rcode = Rcode.NOERROR ∧ mkAnswer now r.qname r.rdtype r.rdclass reply = .ok a := by
  cases outcome with
  | error e =>
    simp only [queryResult,reduceCtorEq,false_and,exists_false,iff_false]
    repeat' split
    all_goals simp
  | ok reply =>
    simp only [queryResult,Except.ok.injEq,exists_eq_left']
    by_cases hopcode : reply.opcode = Opcode.QUERY
    · simp only [hopcode,not_true_eq_false,ne_eq,if_false,true_and]
      by_cases hcode : reply.rcode = Rcode.NOERROR
      · cases mkAnswer now r.qname r.rdtype r.rdclass reply <;> simp [hcode]
      · simp only [hcode,if_false,false_and,iff_false]
        repeat' split
        all_goals simp
    · simp [hopcode]

/-- What an attempt needs to answer. -/
theorem attempt_answered_iff {now : ℚ} {r : Resolution} {d : Delivery} {a : Answer} :
    attempt isBroken now r d = .answered a ↔
      ∃ ns r' reply, r.nextNameserver = some (ns,r') ∧
        asyncQuery ns.kind r'.request r'.tcpAttempt d = .ok reply ∧
        reply.opcode = Opcode.QUERY ∧ reply.rcode = Rcode.NOERROR ∧
        mkAnswer now r'.qname r'.rdtype r'.rdclass reply = .ok a := by
  unfold attempt
  cases hnext : r.nextNameserver with
  | none => simp
  | some next => simp [queryResult_answered_iff,Prod.ext_iff,← and_assoc]

end Resolution

structure UpstreamConfig where
  name : String
  useTcp : Bool

/-- `UpstreamResolver`; the nameservers stand in the order the resolver shuffles them to. -/
structure UpstreamResolver where
  config : UpstreamConfig
  nameservers : List Nameserver

namespace UpstreamResolver

section
variable (isBroken : PyException → Bool) (now : ℚ) (id : UInt16) (upstream : UpstreamResolver)
  (deliveries : List Delivery)

def start (q : Question) : Resolution where
  request := makeQuery id q.name q.rdtype q.rdclass
  qname := q.name
  rdtype := q.rdtype
  rdclass := q.rdclass
  tcp := upstream.config.useTcp
  nameservers := upstream.nameservers
  currentNameservers := upstream.nameservers

/-- `dns.asyncresolver.Resolver.resolve` with `raise_on_no_answer=False`. -/
def query (q : Question) : Except PyException Answer :=
  if q.rdtype.isMetatype || q.rdclass.isMetaclass then .error noMetaqueries
  else (upstream.start id q).run isBroken now deliveries

/-- `_validate_answer`; the texts leave out the names and types they print. -/
def validateAnswer (answer : Answer) (question : Question) : Except PyException Unit := do
  if answer.rdclass ≠ RdataClass.IN then throw (.valueError "上游响应 class 非 IN")
  if answer.qname.canon ≠ question.name.canon then throw (.valueError "上游响应 qname 不匹配")
  if answer.rdtype ≠ question.rdtype then throw (.valueError "上游响应 rdtype 不匹配")

/-- `UpstreamResolver.resolve`; NXDOMAIN and other exceptions end in the same result and
differ in what is logged. -/
def resolve {E : Type} (durationMs : ℚ) (context : RequestContext E) :
    Except PyException UpstreamResult := do
  let question ← firstQuestion context.request
  let outcome : Except PyException Answer := do
    let answer ← upstream.query isBroken now id deliveries question
    validateAnswer answer question
    pure answer
  match outcome with
  | .ok answer =>
    pure
      { upstreamName := upstream.config.name, durationMs, answer := some answer
        tags := context.tags }
  | .error e =>
    pure
      { upstreamName := upstream.config.name, durationMs, error := some e
        tags := context.tags }

end

/-- The answer of the result, if any, is to the question of the request. -/
def AnswersQuestion (request : Message) (result : UpstreamResult) : Prop :=
  ∀ q a, request.question.head? = some q → result.answer = some a →
    a.response.question.map Question.key = [q.key]

/-- A reply the resolver makes an answer of. -/
def Answerable (reply : Message) : Prop :=
  reply.opcode = Opcode.QUERY ∧ reply.rcode = Rcode.NOERROR ∧ ∃ ch, resolveChaining reply = .ok ch

/-- Whenever it is the turn of a nameserver that only parses, the reply it gets makes no
answer or repeats the question. -/
def RepliesMatch (isBroken : PyException → Bool) (now : ℚ) (id : UInt16)
    (upstream : UpstreamResolver) (deliveries : List Delivery) (q : Question) : Prop :=
  ∀ t ∈ (upstream.start id q).attempts isBroken now deliveries, ∀ ns r' reply,
    t.1.nextNameserver = some (ns,r') → ns.kind.parsesOnly = true →
    t.2.incoming.head? = some (.ok reply) → Answerable reply →
    reply.question.map Question.key = [q.key]

section
variable {isBroken : PyException → Bool} {now : ℚ} {id : UInt16} {upstream : UpstreamResolver}
  {deliveries : List Delivery}

theorem validateAnswer_ok {answer : Answer} {question : Question}
    (hname : answer.qname = question.name) (htype : answer.rdtype = question.rdtype) :
    validateAnswer answer question = .ok () ↔ answer.rdclass = RdataClass.IN := by
  by_cases hclass : answer.rdclass = RdataClass.IN
  · simp [validateAnswer,hclass,hname,htype,pure,Except.pure]
  · simp [validateAnswer,hclass,throw,throwThe,MonadExceptOf.throw,bind,Except.bind]

theorem mkAnswer_fields {qname : Name} {rdtype : RdataType} {rdclass : RdataClass}
    {response : Message} {a : Answer} (h : mkAnswer now qname rdtype rdclass response = .ok a) :
    a.qname = qname ∧ a.rdtype = rdtype ∧ a.rdclass = rdclass ∧ a.response = response := by
  obtain ⟨ch,_,rfl⟩ := mkAnswer_ok.mp h
  exact ⟨rfl,rfl,rfl,rfl⟩

/-- An answer comes of a NOERROR reply with the opcode of a query, of some nameserver whose turn
it was. -/
theorem query_ok_iff {q : Question} {a : Answer} :
    upstream.query isBroken now id deliveries q = .ok a ↔
      (q.rdtype.isMetatype || q.rdclass.isMetaclass) = false ∧
      ∃ t ∈ (upstream.start id q).attempts isBroken now deliveries, ∃ ns r' reply,
        t.1.nextNameserver = some (ns,r') ∧
        asyncQuery ns.kind (makeQuery id q.name q.rdtype q.rdclass) r'.tcpAttempt t.2
          = .ok reply ∧
        reply.opcode = Opcode.QUERY ∧ reply.rcode = Rcode.NOERROR ∧
        mkAnswer now q.name q.rdtype q.rdclass reply = .ok a := by
  unfold query
  cases hmeta : q.rdtype.isMetatype || q.rdclass.isMetaclass with
  | true => simp
  | false =>
    simp only [Bool.false_eq_true,if_false,true_and,Resolution.run_ok_iff,
      Resolution.attempt_answered_iff]
    refine exists_congr fun t => and_congr_right fun ht => ?_
    refine exists_congr fun ns => exists_congr fun r' => exists_congr fun reply =>
      and_congr_right fun hnext => ?_
    have hsame := (Resolution.attempts_sameQuery ht).trans
      (Resolution.nextNameserver_sameQuery hnext)
    rw [hsame.request,hsame.qname,hsame.rdtype,hsame.rdclass]
    rfl

theorem resolve_answer_iff {E : Type} {durationMs : ℚ} {context : RequestContext E} {a : Answer} :
    (∃ result, upstream.resolve isBroken now id deliveries durationMs context = .ok result ∧
        result.answer = some a) ↔
      ∃ q, context.request.question.head? = some q ∧
        upstream.query isBroken now id deliveries q = .ok a ∧ q.rdclass = RdataClass.IN := by
  cases hq : context.request.question with
  | nil => simp [resolve,firstQuestion,hq,bind,Except.bind]
  | cons q rest =>
    simp only [resolve,firstQuestion,hq,List.head?_cons,Option.some.injEq,exists_eq_left']
    cases hanswer : upstream.query isBroken now id deliveries q with
    | error e =>
      simp only [hanswer,bind,Except.bind,pure,Except.pure,Except.ok.injEq,exists_eq_left',
        reduceCtorEq,false_and]
    | ok b =>
      obtain ⟨_,_,_,_,_,_,_,_,_,_,hb⟩ := query_ok_iff.mp hanswer
      obtain ⟨hname,htype,hclass,_⟩ := mkAnswer_fields hb
      have hvalid := validateAnswer_ok hname htype
      rw [hclass] at hvalid
      cases hv : validateAnswer b q with
      | ok u =>
        have hin := hvalid.mp hv
        simp [hanswer,bind,Except.bind,pure,Except.pure,hv,hin]
      | error e =>
        have hnot : q.rdclass ≠ RdataClass.IN := fun hin => by simp [hvalid.mpr hin] at hv
        simp [hanswer,bind,Except.bind,pure,Except.pure,hv,hnot]

/-- An upstream accepts answers to the question asked only, just when the nameservers that
parse without checking get no others. -/
theorem resolve_answersQuestion_iff {E : Type} (isBroken : PyException → Bool) (now : ℚ)
    (id : UInt16) (upstream : UpstreamResolver) (deliveries : List Delivery) (durationMs : ℚ)
    (context : RequestContext E) :
    (∀ result, upstream.resolve isBroken now id deliveries durationMs context = .ok result →
        AnswersQuestion context.request result) ↔
      ∀ q, context.request.question.head? = some q → q.rdclass = RdataClass.IN →
        q.rdtype.isMetatype = false → RepliesMatch isBroken now id upstream deliveries q := by
  constructor
  · intro h q hq hin hmeta t ht ns r' reply hnext hparses hincoming hable
    obtain ⟨hopcode,hcode,ch,hch⟩ := hable
    have hreply (tcp : Bool) :
        asyncQuery ns.kind (makeQuery id q.name q.rdtype q.rdclass) tcp t.2 = .ok reply := by
      rw [asyncQuery_parsesOnly hparses]
      exact parseDohResponse_ok.mpr hincoming
    have hanswer := query_ok_iff.mpr ⟨by rw [hin,hmeta]; decide,t,ht,ns,r',reply,hnext,hreply _,
      hopcode,hcode,mkAnswer_ok.mpr ⟨ch,hch,rfl⟩⟩
    obtain ⟨result,hresult,ha⟩ := resolve_answer_iff.mpr ⟨q,hq,hanswer,hin⟩
    exact h result hresult q _ hq ha
  · intro h result hresult q a hq ha
    obtain ⟨q',hq',hanswer,hin⟩ := resolve_answer_iff.mp ⟨result,hresult,ha⟩
    obtain rfl : q = q' := Option.some.inj (hq.symm.trans hq')
    obtain ⟨hmeta,t,ht,ns,r',reply,hnext,hreply,hopcode,hcode,hbuilt⟩ := query_ok_iff.mp hanswer
    obtain ⟨_,_,_,hresponse⟩ := mkAnswer_fields hbuilt
    obtain ⟨ch,hch,_⟩ := mkAnswer_ok.mp hbuilt
    rw [hresponse]
    cases hkind : ns.kind.parsesOnly with
    | true =>
      rw [asyncQuery_parsesOnly hkind] at hreply
      exact h q hq hin (Bool.or_eq_false_iff.mp hmeta).1 t ht ns r' reply hnext hkind
        (parseDohResponse_ok.mp hreply) ⟨hopcode,hcode,ch,hch⟩
    | false =>
      obtain ⟨_,_,q',hone,_⟩ := resolveChaining_ok.mp hch
      have hkey := asyncQuery_question hkind (by decide : Opcode.QUERY ≠ Opcode.UPDATE) rfl hone
        hreply
      simp [hone,hkey]

end

def httpxUpstream : UpstreamResolver where
  config := ⟨"doh",false⟩
  nameservers := [⟨"ns",.dohHttpx⟩]

def otherRequest : RequestContext Unit where
  request := makeQuery 1 otherName RdataType.A RdataClass.IN
  clientaddr := "127.0.0.1"
  listenerName := "udp"
  requestId := 1
  extensions := ()

/-- A reply about a host nobody asked for. -/
def strayDelivery : Delivery where
  incoming := [.ok (hostReply [addressOf hostName 1])]

/-- An address of one host is taken for the answer to a question about another. -/
theorem resolve_accepts_other_question :
    ¬ ∀ result, httpxUpstream.resolve (fun _ => false) 0 2 [strayDelivery] 0 otherRequest
        = .ok result → AnswersQuestion otherRequest.request result := by
  intro h
  have hchain : resolveChaining (hostReply [addressOf hostName 1]) =
      .ok ⟨hostName,some (addressOf hostName 1),60,[]⟩ := by decide
  obtain ⟨a,hbuilt⟩ : ∃ a, mkAnswer 0 otherName RdataType.A RdataClass.IN
      (hostReply [addressOf hostName 1]) = .ok a := ⟨_,mkAnswer_ok.mpr ⟨_,hchain,rfl⟩⟩
  have hanswer : httpxUpstream.query (fun _ => false) 0 2 [strayDelivery]
      ⟨otherName,RdataType.A,RdataClass.IN⟩ = .ok a :=
    query_ok_iff.mpr ⟨rfl,_,List.mem_cons_self,_,_,_,rfl,rfl,rfl,rfl,hbuilt⟩
  obtain ⟨result,hresult,ha⟩ : ∃ result, httpxUpstream.resolve (fun _ => false) 0 2
      [strayDelivery] 0 otherRequest = .ok result ∧ result.answer = some a :=
    resolve_answer_iff.mpr ⟨_,rfl,hanswer,rfl⟩
  have hkey := h result hresult _ a rfl ha
  rw [(mkAnswer_fields hbuilt).2.2.2] at hkey
  revert hkey
  decide

end UpstreamResolver

end SmartDns
