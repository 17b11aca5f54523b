import SmartDns.Dns.Message
set_option autoImplicit false

/-!
What each nameserver implementation accepts of what the network delivers to one of
its queries. Replies stand decoded, in the order in which they arrive; the id of a
query and its EDNS options play no part.
-/

namespace SmartDns

namespace Message

/-- `n in other.question`, where rrsets are compared. -/
def asks (m : Message) (q : Question) : Bool := m.question.any (fun n => n.key = q.key)

/-- `dns.message.Message.is_response`. -/
def isResponse (query other : Message) : Bool :=
  if !other.flags.qr || query.id ≠ other.id || query.opcode ≠ other.opcode then false
  else if other.rcode ∈ [Rcode.FORMERR,Rcode.SERVFAIL,Rcode.NOTIMP,Rcode.REFUSED] ∧
      other.question = [] then true
  else if query.opcode = Opcode.UPDATE then true
  else query.question.all other.asks && other.question.all query.asks

/-- A reply of one question that passes the check asks what the query asks. -/
theorem isResponse_question {query reply : Message} {q q' : Question}
    (h : isResponse query reply = true) (hop : query.opcode ≠ Opcode.UPDATE)
    (hq : query.question = [q]) (hq' : reply.question = [q']) : q'.key = q.key := by
  unfold isResponse at h
  split at h
  · contradiction
  · simp only [hq',reduceCtorEq,and_false,if_false,List.all_cons,List.all_nil,asks,hq,
      List.any_cons,List.any_nil,Bool.or_false,Bool.and_true,Bool.and_eq_true,
      decide_eq_true_eq] at h
    exact h.1

end Message

def badResponse : PyException := ⟨.formError,"BadResponse",""⟩
def truncated : PyException := ⟨.other,"Truncated",""⟩
def endOfFile : PyException := ⟨.other,"EOFError",""⟩

/-- The causes of a pycares failure that `_ERROR_RCODES` lists. -/
inductive AresError where
  | enotfound | enodata | eservfail | erefused | enotimp | eformerr | other
  deriving DecidableEq, Repr

def errorRcodes : AresError → Option Rcode
  | .enotfound => some Rcode.NXDOMAIN
  | .enodata => some Rcode.NOERROR
  | .eservfail => some Rcode.SERVFAIL
  | .erefused => some Rcode.REFUSED
  | .enotimp => some Rcode.NOTIMP
  | .eformerr => some Rcode.FORMERR
  | .other => none

/-- A pycares result: an rrset of one record for each record converted. -/
structure DNSResult where
  answer : List RRset := []
  authority : List RRset := []
  additional : List RRset := []

inductive AresOutcome where
  | result (r : DNSResult)
  | dnsError (cause : AresError)
  /-- a record that `_record_data_to_rdata` does not convert -/
  | unsupported (e : PyException)

/-- What reaches a nameserver during one query. -/
structure Delivery where
  incoming : List (Except PyException Message) := []
  ares : AresOutcome := .dnsError .other

/-- The nameserver implementations of the project. -/
inductive NameserverKind where
  | do53 | do53Custom | dot | doq | doh | dohCustom | dohHttpx | dohAiohttp | dohCurlCffi
  | dnscrypt (tcpOnly : Bool)
  | aiodns (tcp : Bool)
  deriving DecidableEq, Repr

structure Nameserver where
  name : String
  kind : NameserverKind
  deriving DecidableEq, Repr

def NameserverKind.isAlwaysMaxSize : NameserverKind → Bool
  | .do53 | .do53Custom | .dnscrypt _ => false
  | .aiodns tcp => tcp
  | .dot | .doq | .doh | .dohCustom | .dohHttpx | .dohAiohttp | .dohCurlCffi => true

/-- `dns.asyncquery.udp` with `ignore_errors` and `raise_on_truncation`: datagrams that
are no response to the query are passed over. -/
def udp (request : Message) : List (Except PyException Message) → Except PyException Message
  | [] => .error (.timeoutError "")
  | .error _ :: rest => udp request rest
  | .ok reply :: rest =>
    if request.isResponse reply then
      if reply.flags.tc then .error truncated else .ok reply
    else udp request rest

/-- `dns.asyncquery.tcp`, and with it `tls`, `quic` and `https`: one reply is read and
has to be a response to the query. -/
def stream (request : Message) : List (Except PyException Message) → Except PyException Message
  | [] => .error endOfFile
  | .error e :: _ => .error e
  | .ok reply :: _ => if request.isResponse reply then .ok reply else .error badResponse

/-- `DNSCryptResolver.query`: a truncated reply is asked for again over TCP. -/
def dnscryptQuery (request : Message) (maxSize tcpOnly : Bool)
    (incoming : List (Except PyException Message)) : Except PyException Message :=
  if maxSize || tcpOnly then stream request incoming
  else
    match stream request incoming with
    | .error e => .error e
    | .ok response => if response.flags.tc then stream request incoming.tail else .ok response

/-- `parse_doh_response` on the body of the HTTP response. -/
def parseDohResponse : List (Except PyException Message) → Except PyException Message
  | [] => .error endOfFile
  | content :: _ => content

/-- `_build_response`. -/
def buildResponse (request : Message) (result : DNSResult) : Except PyException Message := do
  let response ← makeResponse request
  pure
    { response with
      answer := Message.mergeSection result.answer
      authority := Message.mergeSection result.authority
      additional := Message.mergeSection result.additional }

/-- `AiodnsNameserver.async_query`. -/
def aiodnsQuery (request : Message) : AresOutcome → Except PyException Message
  | .result r => buildResponse request r
  | .unsupported e => .error e
  | .dnsError cause =>
    match errorRcodes cause with
    | none => .error ⟨.other,"DNSError",""⟩
    | some rcode => do
      let response ← makeResponse request
      pure { response with rcode }

/-- `async_query` of each implementation. -/
def asyncQuery (kind : NameserverKind) (request : Message) (maxSize : Bool) (d : Delivery) :
    Except PyException Message :=
  match kind with
  | .do53 | .do53Custom =>
    if maxSize then stream request d.incoming else udp request d.incoming
  | .dot | .doq | .doh | .dohCustom => stream request d.incoming
  | .dohHttpx | .dohAiohttp | .dohCurlCffi => parseDohResponse d.incoming
  | .dnscrypt tcpOnly => dnscryptQuery request maxSize tcpOnly d.incoming
  | .aiodns _ => aiodnsQuery request d.ares

/-! ### Who compares the reply with the query -/

/-- The HTTP clients of the project: they decode the reply and hand it over. -/
def NameserverKind.parsesOnly : NameserverKind → Bool
  | .dohHttpx | .dohAiohttp | .dohCurlCffi => true
  | _ => false

theorem asyncQuery_parsesOnly {kind : NameserverKind} {request : Message} {maxSize : Bool}
    {d : Delivery} (h : kind.parsesOnly = true) :
    asyncQuery kind request maxSize d = parseDohResponse d.incoming := by
  cases kind <;> first | rfl | contradiction

theorem parseDohResponse_ok {incoming : List (Except PyException Message)} {reply : Message} :
    parseDohResponse incoming = .ok reply ↔ incoming.head? = some (.ok reply) := by
  cases incoming with
  | nil => simp [parseDohResponse]
  | cons c rest => simp [parseDohResponse]

theorem udp_isResponse {request reply : Message} {incoming : List (Except PyException Message)}
    (h : udp request incoming = .ok reply) : request.isResponse reply = true := by
  induction incoming with
  | nil => simp [udp] at h
  | cons c rest ih =>
    cases c with
    | error e => exact ih h
    | ok r =>
      simp only [udp] at h
      split at h
      · rename_i hr
        split at h
        · contradiction
        · cases h
          exact hr
      · exact ih h

theorem stream_isResponse {request reply : Message}
    {incoming : List (Except PyException Message)}
    (h : stream request incoming = .ok reply) : request.isResponse reply = true := by
  cases incoming with
  | nil => simp [stream] at h
  | cons c rest =>
    cases c with
    | error e => simp [stream] at h
    | ok r =>
      simp only [stream] at h
      split at h
      · rename_i hr
        cases h
        exact hr
      · contradiction

theorem dnscryptQuery_isResponse {request reply : Message} {maxSize tcpOnly : Bool}
    {incoming : List (Except PyException Message)}
    (h : dnscryptQuery request maxSize tcpOnly incoming = .ok reply) :
    request.isResponse reply = true := by
  unfold dnscryptQuery at h
  split at h
  · exact stream_isResponse h
  · cases hfirst : stream request incoming with
    | error e => simp [hfirst] at h
    | ok response =>
      simp only [hfirst] at h
      split at h
      · exact stream_isResponse h
      · cases h
        exact stream_isResponse hfirst

theorem makeResponse_question {request response : Message}
    (h : makeResponse request = .ok response) : response.question = request.question := by
  unfold makeResponse at h
  split at h
  · contradiction
  · cases h
    rfl

theorem aiodnsQuery_question {request reply : Message} {outcome : AresOutcome}
    (h : aiodnsQuery request outcome = .ok reply) : reply.question = request.question := by
  cases hmade : makeResponse request with
  | error e =>
    cases outcome with
    | result r => simp [aiodnsQuery,buildResponse,hmade,bind,Except.bind] at h
    | unsupported e' => simp [aiodnsQuery] at h
    | dnsError cause =>
      cases hr : errorRcodes cause <;> simp [aiodnsQuery,hr,hmade,bind,Except.bind] at h
  | ok response =>
    have hq := makeResponse_question hmade
    cases outcome with
    | result r =>
      simp only [aiodnsQuery,buildResponse,hmade,bind,Except.bind,pure,Except.pure,
        Except.ok.injEq] at h
      rw [← h]
      exact hq
    | unsupported e => simp [aiodnsQuery] at h
    | dnsError cause =>
      cases hr : errorRcodes cause with
      | none => simp [aiodnsQuery,hr] at h
      | some rcode =>
        simp only [aiodnsQuery,hr,hmade,bind,Except.bind,pure,Except.pure,Except.ok.injEq] at h
        rw [← h]
        exact hq

/-- Outside the HTTP clients of the project a reply of one question is one to the
question of the query. -/
theorem asyncQuery_question {kind : NameserverKind} {request reply : Message} {maxSize : Bool}
    {d : Delivery} {q q' : Question} (hkind : kind.parsesOnly = false)
    (hop : request.opcode ≠ Opcode.UPDATE) (hq : request.question = [q])
    (hq' : reply.question = [q']) (h : asyncQuery kind request maxSize d = .ok reply) :
    q'.key = q.key := by
  have hchecked (hr : request.isResponse reply = true) : q'.key = q.key :=
    Message.isResponse_question hr hop hq hq'
  cases kind with
  | do53 | do53Custom =>
    unfold asyncQuery at h
    cases maxSize with
    | true => exact hchecked (stream_isResponse h)
    | false => exact hchecked (udp_isResponse h)
  | dot | doq | doh | dohCustom => exact hchecked (stream_isResponse h)
  | dohHttpx | dohAiohttp | dohCurlCffi => contradiction
  | dnscrypt tcpOnly => exact hchecked (dnscryptQuery_isResponse h)
  | aiodns tcp =>
    have hsame := aiodnsQuery_question h
    rw [hq,hq'] at hsame
    cases hsame
    rfl

end SmartDns
