import SmartDns.Lib.Exec
import SmartDns.Lib.Transition
import SmartDns.Resolver.Dnscrypt
import SmartDns.Resolver.Nameserver
set_option autoImplicit false

/-!
Exchanges of a `DNSCryptResolver` with its server over a network that delivers any reply of the
server again and to any query. What binds a reply to a query is the client's half of the nonce,
which the server repeats and the resolver does not look at.
-/

namespace SmartDns

namespace Dnscrypt

/-! ### One call -/

/-- A socket address: the packed host, the port with what follows it, and its `repr`. -/
structure Endpoint where
  host : Bytes
  rest : List Nat
  multicast : Bool := false
  text : String := ""
  deriving DecidableEq

/-- `_addresses_equal`, or any host for a multicast destination. -/
def Endpoint.answers (source destination : Endpoint) : Bool :=
  (source.host = destination.host ∧ source.rest = destination.rest) ∨
    (destination.multicast ∧ source.rest = destination.rest)

/-- The arguments of a call, and what its wait on the socket ends with when nothing comes. -/
structure Call where
  destination : Endpoint
  ignoreUnexpected : Bool := true
  oneRrPerRrset : Bool := false
  ignoreTrailing : Bool := false
  waitError : PyException := .timeoutError ""

def unexpectedSource (source destination : Endpoint) : PyException :=
  ⟨.other,"UnexpectedSource",
    "got a response from " ++ source.text ++ " instead of " ++ destination.text⟩

/-- The loop of `udp` over what the datagrams carry. -/
def udpReceive {α : Type} (call : Call) : List (α × Endpoint) → Except PyException α
  | [] => .error call.waitError
  | (content,source) :: rest =>
    if source.answers call.destination then .ok content
    else if call.ignoreUnexpected then udpReceive call rest
    else .error (unexpectedSource source call.destination)

/-- `_net_read`, with what is left to read. -/
def netRead (call : Call) (count : Nat) (stream : Bytes) : Except PyException (Bytes × Bytes) :=
  if count ≤ stream.length then .ok (stream.take count,stream.drop count)
  else .error call.waitError

/-- The length of a message and the message. -/
def tcpReceive (call : Call) (stream : Bytes) : Except PyException Bytes := do
  let (lengthWire,rest) ← netRead call 2 stream
  let (wire,_) ← netRead call (bigEndian lengthWire) rest
  pure wire

section
variable (resolver : DNSCryptResolver) (reader : WireReader)

/-- What `tcp` and `udp` do with the wire that they have received. -/
def DNSCryptResolver.readResponse (call : Call) (request : Message) (wire : Bytes) :
    Except PyException Message := do
  let response ← resolver.decryptResponse reader wire call.oneRrPerRrset call.ignoreTrailing
  if request.isResponse response then pure response else .error badResponse

def DNSCryptResolver.udp (call : Call) (request : Message) (datagrams : List (Bytes × Endpoint)) :
    Except PyException Message := do
  let wire ← udpReceive call datagrams
  resolver.readResponse reader call request wire

def DNSCryptResolver.tcp (call : Call) (request : Message) (stream : Bytes) :
    Except PyException Message := do
  let wire ← tcpReceive call stream
  resolver.readResponse reader call request wire

end

/-! ### The exchanges -/

/-- A reply that the server has boxed for a query with the client's nonce. -/
structure Reply where
  clientNonce : Bytes
  serverNonce : Bytes
  payload : Bytes
  sizes : clientNonce.length = nonceSize ∧ serverNonce.length = nonceSize
  deriving DecidableEq

namespace Reply

def nonce (r : Reply) : Bytes := r.clientNonce ++ r.serverNonce

def wire (r : Reply) (box : Box) : Bytes :=
  resolverMagic ++ (r.nonce ++ box.encrypt r.payload r.nonce)

end Reply

/-- The nonce of a reply on the wire. -/
def replyNonce (wire : Bytes) : Bytes := (wire.drop 8).take 24

/-- The client nonce of a query on the wire, behind the magic and the key. -/
def DNSCryptResolver.sentNonce (resolver : DNSCryptResolver) (wire : Bytes) : Bytes :=
  (wire.drop (resolver.clientMagic.length + resolver.publicKey.length)).take nonceSize

/-- What the network gives to a call: replies of the server, in datagrams from anywhere or in a
stream. -/
inductive Delivery where
  | udp (datagrams : List (Reply × Endpoint))
  | tcp (replies : List Reply)
  deriving DecidableEq

def Delivery.replies : Delivery → List Reply
  | .udp datagrams => datagrams.map Prod.fst
  | .tcp replies => replies

/-- A message behind its length. -/
def frame (wire : Bytes) : Bytes :=
  UInt8.ofNat (wire.length/256) :: UInt8.ofNat wire.length :: wire

/-- A stream has messages whose length fits. -/
def Delivery.Fits (box : Box) : Delivery → Prop
  | .udp _ => True
  | .tcp replies => ∀ r ∈ replies, (r.wire box).length < 65536

instance (box : Box) : (delivery : Delivery) → Decidable (delivery.Fits box)
  | .udp _ => inferInstanceAs (Decidable True)
  | .tcp replies => inferInstanceAs (Decidable (∀ r ∈ replies, (Reply.wire r box).length < 65536))

/-- The wire that a call takes from the network. -/
def Delivery.receive (box : Box) (call : Call) : Delivery → Except PyException Bytes
  | .udp datagrams => udpReceive call (datagrams.map fun d => (d.1.wire box,d.2))
  | .tcp replies => tcpReceive call (replies.flatMap fun r => frame (r.wire box))

/-- A query that was sent, what its call took from the network and how the call has ended. -/
structure Exchange where
  request : Message
  wire : Bytes
  taken : Option Bytes := none
  result : Option (Except PyException Message) := none

structure Exchanges where
  exchanges : List Exchange := []
  replies : List Reply := []

inductive Label where
  | query (request : Message) (clientNonce : Bytes)
  | reply (exchange : Nat) (serverNonce payload : Bytes)
  | finish (exchange : Nat) (call : Call) (delivery : Delivery)

section
variable (resolver : DNSCryptResolver) (reader : WireReader)
  (toWire : Message → Except PyException Bytes)

def DNSCryptResolver.finish (call : Call) (request : Message) :
    Delivery → Except PyException Message
  | .udp datagrams => resolver.udp reader call request
    (datagrams.map fun d => (d.1.wire resolver.secretbox,d.2))
  | .tcp replies => resolver.tcp reader call request
    (replies.flatMap fun r => frame (r.wire resolver.secretbox))

/-- The server and the network act as the label says; the calls are under way side by side. -/
def step (s : Exchanges) : Label → Option Exchanges
  | .query request clientNonce =>
    match toWire request with
    | .ok wire =>
      if clientNonce.length = nonceSize then
        some { s with
          exchanges :=
            s.exchanges ++ [{ request, wire := resolver.encryptQuery clientNonce wire }] }
      else none
    | .error _ => none
  | .reply k serverNonce payload =>
    match s.exchanges[k]? with
    | some exchange =>
      if sizes : (resolver.sentNonce exchange.wire).length = nonceSize ∧
          serverNonce.length = nonceSize then
        some { s with
          replies := s.replies ++ [⟨resolver.sentNonce exchange.wire,serverNonce,payload,sizes⟩] }
      else none
    | none => none
  | .finish k call delivery =>
    match s.exchanges[k]? with
    | some exchange =>
      if exchange.result = none ∧ (∀ r ∈ delivery.replies, r ∈ s.replies) ∧
          delivery.Fits resolver.secretbox then
        some { s with
          exchanges := s.exchanges.set k
            { exchange with
              taken := (delivery.receive resolver.secretbox call).toOption
              result := some (resolver.finish reader call exchange.request delivery) } }
      else none
    | none => none

/-- A response that was returned was in a reply with the nonce that was sent. -/
def Exchange.Bound (exchange : Exchange) : Prop :=
  ∀ response, exchange.result = some (.ok response) →
    ∃ wire, exchange.taken = some wire ∧ resolver.sentNonce exchange.wire <+: replyNonce wire

def Exchanges.Bound (s : Exchanges) : Prop := ∀ exchange ∈ s.exchanges, exchange.Bound resolver

/-- The reply that the call takes. -/
def Delivery.taken (call : Call) : Delivery → Except PyException Reply
  | .udp datagrams => udpReceive call datagrams
  | .tcp [] => .error call.waitError
  | .tcp (r :: _) => .ok r

/-- The message in a reply is a response to the request, as far as it can be read. -/
def Reply.RespondsTo (r : Reply) (call : Call) (request : Message) : Prop :=
  ∃ response, reader.fromWire r.payload call.oneRrPerRrset call.ignoreTrailing = .ok response ∧
    request.isResponse response = true

/-- A call takes no reply to a query with another nonce whose message would do for its own. -/
def TakesOwn (s : Exchanges) : Label → Prop
  | .finish k call delivery => ∀ exchange r, s.exchanges[k]? = some exchange →
    delivery.taken call = .ok r → r.RespondsTo reader call exchange.request →
      r.clientNonce = resolver.sentNonce exchange.wire
  | _ => True

end

/-! ### What a call reads -/

section
variable {resolver : DNSCryptResolver} {reader : WireReader} {call : Call} {request : Message}

/-- The server finds the client nonce where the resolver has put it. -/
theorem sentNonce_encryptQuery {clientNonce : Bytes} (h : clientNonce.length = nonceSize)
    (wire : Bytes) : resolver.sentNonce (resolver.encryptQuery clientNonce wire) = clientNonce := by
  have hhead : resolver.clientMagic.length + resolver.publicKey.length =
      (resolver.clientMagic ++ resolver.publicKey).length := List.length_append.symm
  unfold DNSCryptResolver.sentNonce DNSCryptResolver.encryptQuery
  rw [hhead,List.drop_left]
  simp only [List.append_assoc]
  rw [List.take_left' h,List.take_left' h]

theorem Reply.nonce_length (r : Reply) : r.nonce.length = 2*nonceSize := by
  rw [Reply.nonce,List.length_append,r.sizes.1,r.sizes.2]
  rfl

theorem replyNonce_wire (r : Reply) (box : Box) : replyNonce (r.wire box) = r.nonce := by
  have hmagic : resolverMagic.length = 8 := rfl
  have hsize : r.nonce.length = 24 := r.nonce_length
  unfold replyNonce Reply.wire
  rw [List.drop_left' hmagic,List.take_left' hsize]

theorem clientNonce_isPrefix_iff {r : Reply} {box : Box} {nonce : Bytes}
    (h : nonce.length = nonceSize) : nonce <+: replyNonce (r.wire box) ↔ r.clientNonce = nonce := by
  rw [replyNonce_wire,Reply.nonce]
  constructor
  · intro hnonce
    obtain ⟨rest,hrest⟩ := hnonce
    exact (List.append_inj_left hrest (h.trans r.sizes.1.symm)).symm
  · intro hnonce
    exact ⟨r.serverNonce,by rw [hnonce]⟩

theorem readResponse_wire_ok_iff {r : Reply} {response : Message} :
    resolver.readResponse reader call request (r.wire resolver.secretbox) = .ok response ↔
      reader.fromWire r.payload call.oneRrPerRrset call.ignoreTrailing = .ok response ∧
        request.isResponse response = true := by
  unfold DNSCryptResolver.readResponse Reply.wire
  rw [decryptResponse_boxed resolver reader r.nonce_length,Exec.except_bind_eq_ok]
  constructor
  · intro h
    obtain ⟨m,hread,h⟩ := h
    split at h
    · rename_i hresponse
      cases h
      exact ⟨hread,hresponse⟩
    · contradiction
  · intro h
    exact ⟨response,h.1,by rw [if_pos h.2]; rfl⟩

theorem udpReceive_map {α β : Type} (f : α → β) (datagrams : List (α × Endpoint)) :
    udpReceive call (datagrams.map fun d => (f d.1,d.2)) =
      (udpReceive call datagrams).map f := by
  induction datagrams with
  | nil => rfl
  | cons d rest ih =>
    obtain ⟨content,source⟩ := d
    simp only [List.map_cons,udpReceive]
    split
    · rfl
    · split
      · exact ih
      · rfl

theorem bigEndian_length {n : Nat} (h : n < 65536) :
    bigEndian [UInt8.ofNat (n/256),UInt8.ofNat n] = n := by
  simp only [bigEndian,Numeral.ofWords,List.map_cons,List.map_nil,List.foldl_cons,List.foldl_nil,
    UInt8.toNat_ofNat']
  omega

/-- The first message of a stream is read, whatever stands behind it. -/
theorem tcpReceive_frame {wire : Bytes} (h : wire.length < 65536) (rest : Bytes) :
    tcpReceive call (frame wire ++ rest) = .ok wire := by
  have hlength : netRead call 2 (frame wire ++ rest) =
      .ok ([UInt8.ofNat (wire.length/256),UInt8.ofNat wire.length],wire ++ rest) := by
    simp [netRead,frame]
  have hwire : netRead call wire.length (wire ++ rest) = .ok (wire,rest) := by
    simp [netRead]
  unfold tcpReceive
  rw [hlength]
  change (netRead call (bigEndian _) (wire ++ rest) >>= _) = _
  rw [bigEndian_length h,hwire]
  rfl

theorem receive_eq_taken {box : Box} {delivery : Delivery} (h : delivery.Fits box) :
    delivery.receive box call = (delivery.taken call).map fun r => r.wire box := by
  cases delivery with
  | udp datagrams => exact udpReceive_map (fun r : Reply => r.wire box) datagrams
  | tcp replies =>
    cases replies with
    | nil => rfl
    | cons r rest => exact tcpReceive_frame (h r List.mem_cons_self) _

theorem finish_eq (delivery : Delivery) : resolver.finish reader call request delivery =
    delivery.receive resolver.secretbox call >>= resolver.readResponse reader call request := by
  cases delivery <;> rfl

theorem finish_ok_iff {delivery : Delivery} (h : delivery.Fits resolver.secretbox)
    {response : Message} : resolver.finish reader call request delivery = .ok response ↔
      ∃ r, delivery.taken call = .ok r ∧
        reader.fromWire r.payload call.oneRrPerRrset call.ignoreTrailing = .ok response ∧
          request.isResponse response = true := by
  rw [finish_eq,receive_eq_taken h]
  cases delivery.taken call with
  | error e =>
    simp only [reduceCtorEq,false_and,exists_false,iff_false]
    exact fun hresult => nomatch hresult
  | ok r =>
    simp only [Except.ok.injEq,exists_eq_left']
    exact readResponse_wire_ok_iff

/-! ### Runs -/

variable {toWire : Message → Except PyException Bytes} {s s' : Exchanges} {l : Label}

/-- Every query has its nonce. -/
def Exchanges.Sent (resolver : DNSCryptResolver) (s : Exchanges) : Prop :=
  ∀ exchange ∈ s.exchanges, (resolver.sentNonce exchange.wire).length = nonceSize

/-- What a step does: a query is sent, a reply is boxed, or a call ends with what it has taken. -/
theorem step_cases (h : step resolver reader toWire s l = some s') :
    (∃ request clientNonce wire, l = .query request clientNonce ∧
      clientNonce.length = nonceSize ∧ s' = { s with
        exchanges :=
          s.exchanges ++ [{ request, wire := resolver.encryptQuery clientNonce wire }] }) ∨
    (∃ k serverNonce payload r, l = .reply k serverNonce payload ∧
      s' = { s with replies := s.replies ++ [r] }) ∨
    ∃ k call delivery exchange, l = .finish k call delivery ∧ s.exchanges[k]? = some exchange ∧
      exchange.result = none ∧ delivery.Fits resolver.secretbox ∧ s' = { s with
        exchanges := s.exchanges.set k { exchange with
          taken := (delivery.receive resolver.secretbox call).toOption
          result := some (resolver.finish reader call exchange.request delivery) } } := by
  cases l with
  | query request clientNonce =>
    simp only [step] at h
    split at h
    · split at h
      · rename_i hsize
        exact .inl ⟨request,clientNonce,_,rfl,hsize,(Option.some.inj h).symm⟩
      · contradiction
    · contradiction
  | reply k serverNonce payload =>
    simp only [step] at h
    split at h
    · split at h
      · exact .inr (.inl ⟨k,serverNonce,payload,_,rfl,(Option.some.inj h).symm⟩)
      · contradiction
    · contradiction
  | finish k call delivery =>
    simp only [step] at h
    split at h
    · rename_i exchange hexchange
      split at h
      · rename_i hallowed
        exact .inr (.inr ⟨k,call,delivery,exchange,rfl,hexchange,hallowed.1,hallowed.2.2,
          (Option.some.inj h).symm⟩)
      · contradiction
    · contradiction

theorem Exchanges.Sent.step (hs : s.Sent resolver)
    (h : step resolver reader toWire s l = some s') : s'.Sent resolver := by
  obtain ⟨request,clientNonce,wire,_,hsize,rfl⟩ | ⟨_,_,_,_,_,rfl⟩ |
    ⟨k,call,delivery,exchange,_,hexchange,_,_,rfl⟩ := step_cases h
  · intro exchange hexchange
    obtain hold | hnew := List.mem_append.mp hexchange
    · exact hs exchange hold
    · rw [List.mem_singleton.mp hnew,sentNonce_encryptQuery hsize]
      exact hsize
  · exact hs
  · intro other hother
    obtain hold | rfl := List.mem_or_eq_of_mem_set hother
    · exact hs other hold
    · exact hs exchange (List.mem_of_getElem? hexchange)

/-- A call that has ended is bound just when the reply it took, if it would do, is its own. -/
theorem ended_bound_iff {exchange : Exchange} {delivery : Delivery}
    (hsent : (resolver.sentNonce exchange.wire).length = nonceSize)
    (hfits : delivery.Fits resolver.secretbox) :
    Exchange.Bound resolver { exchange with
      taken := (delivery.receive resolver.secretbox call).toOption
      result := some (resolver.finish reader call exchange.request delivery) } ↔
    ∀ r, delivery.taken call = .ok r → r.RespondsTo reader call exchange.request →
      r.clientNonce = resolver.sentNonce exchange.wire := by
  have htaken : ∀ r, delivery.taken call = .ok r →
      (delivery.receive resolver.secretbox call).toOption = some (r.wire resolver.secretbox) := by
    intro r hr
    rw [receive_eq_taken hfits,hr]
    rfl
  unfold Exchange.Bound
  simp only [Option.some.injEq,finish_ok_iff hfits]
  constructor
  · intro h r hr hresponds
    obtain ⟨response,hread,hresponse⟩ := hresponds
    obtain ⟨wire,hwire,hnonce⟩ := h response ⟨r,hr,hread,hresponse⟩
    rw [htaken r hr,Option.some.injEq] at hwire
    rw [← hwire] at hnonce
    exact (clientNonce_isPrefix_iff hsent).mp hnonce
  · intro h response hresponse
    obtain ⟨r,hr,hread,hchecked⟩ := hresponse
    have hnonce := h r hr ⟨response,hread,hchecked⟩
    exact ⟨r.wire resolver.secretbox,htaken r hr,(clientNonce_isPrefix_iff hsent).mpr hnonce⟩

theorem bound_step_iff (hs : s.Sent resolver) (h : step resolver reader toWire s l = some s') :
    s'.Bound resolver ↔ s.Bound resolver ∧ TakesOwn resolver reader s l := by
  obtain ⟨request,clientNonce,wire,rfl,_,rfl⟩ | ⟨_,_,_,_,rfl,rfl⟩ |
    ⟨k,call,delivery,exchange,rfl,hexchange,hnone,hfits,rfl⟩ := step_cases h
  · simp only [Exchanges.Bound,List.forall_mem_append,List.forall_mem_singleton,TakesOwn,and_true]
    exact and_iff_left fun response hresponse => nomatch hresponse
  · exact (and_iff_left trivial).symm
  · have hwaiting : exchange.Bound resolver := by
      intro response hresponse
      rw [hnone] at hresponse
      contradiction
    have hsent := hs exchange (List.mem_of_getElem? hexchange)
    refine (Transition.forall_mem_set_iff hexchange hwaiting).trans (and_congr_right fun _ => ?_)
    rw [ended_bound_iff hsent hfits]
    simp only [TakesOwn,hexchange,Option.some.injEq]
    constructor
    · intro hown other r hother hr hresponds
      rw [← hother] at hresponds ⊢
      exact hown r hr hresponds
    · exact fun hown r => hown exchange r rfl

/-- Along a run every response that was returned is bound to its query exactly when no call takes
a reply to a query with another nonce that would do for its own. -/
theorem exchanges_bound_iff (resolver : DNSCryptResolver) (reader : WireReader)
    (toWire : Message → Except PyException Bytes) (ls : List Label) :
    Transition.Always (step resolver reader toWire) (Exchanges.Bound resolver) {} ls ↔
      Transition.Guarded (step resolver reader toWire) (TakesOwn resolver reader) {} ls := by
  have hinit : Exchanges.Sent resolver {} := fun _ h => absurd h List.not_mem_nil
  constructor
  · intro h
    exact h.guarded hinit (fun _ _ _ hs hstep => hs.step hstep)
      fun _ _ _ hs hstep hbound => ((bound_step_iff hs hstep).mp hbound).2
  · intro h
    have hboth : Transition.Always (step resolver reader toWire)
        (fun s => s.Sent resolver ∧ s.Bound resolver) {} ls :=
      h.always ⟨hinit,fun _ h => absurd h List.not_mem_nil⟩ fun _ _ _ hs hok hstep =>
        ⟨hs.1.step hstep,(bound_step_iff hs.1 hstep).mpr ⟨hs.2,hok⟩⟩
    exact hboth.mono fun _ hs => hs.2

end

/-! ### A reply that is replayed -/

/-- A box that opens under its own nonce only. -/
def sealedBox : Box where
  encrypt message nonce := nonce ++ message
  decrypt data nonce :=
    if data.take 24 = nonce then .ok (data.drop 24) else .error ⟨.other,"CryptoError",""⟩
  decrypt_encrypt message nonce h := by
    have hsize : nonce.length = 24 := h
    rw [List.take_left' hsize,List.drop_left' hsize,if_pos rfl]

def hostQuestion : Question := ⟨⟨[[0x61]]⟩,RdataType.A,RdataClass.IN⟩
def hostRequest : Message := { id := 7, question := [hostQuestion] }
def hostReply : Message := { hostRequest with flags := { qr := true } }

/-- The wire of a message with the question and no records. -/
def hostWire (qr : UInt8) : Bytes := [0,7,qr,0,0,1,0,0,0,0,0,0,1,0x61,0,0,1,0,1]

def hostReader : WireReader where
  fromWire wire _ ignoreTrailing := readFixed (hostWire 0x80) hostReply wire ignoreTrailing
  trailing _ _ _ _ := readFixed_trailing

def sealedResolver : DNSCryptResolver := ⟨List.replicate 8 1,List.replicate 32 2,sealedBox⟩

def hostServer : Endpoint := { host := [192,0,2,1], rest := [53] }

/-- The reply of the server to the first query. -/
def firstReply : Reply :=
  ⟨List.replicate 12 1,List.replicate 12 9,hostWire 0x80,by decide⟩

/-- The same question is asked twice, and the second time the network sends the first reply. -/
def replayRun : List Label :=
  [.query hostRequest (List.replicate 12 1),
    .reply 0 (List.replicate 12 9) (hostWire 0x80),
    .finish 0 { destination := hostServer } (.udp [(firstReply,hostServer)]),
    .query hostRequest (List.replicate 12 2),
    .finish 1 { destination := hostServer } (.udp [(firstReply,hostServer)])]

theorem replayRun_notBound :
    ¬ Transition.Always (step sealedResolver hostReader fun _ => .ok (hostWire 0))
      (Exchanges.Bound sealedResolver) {} replayRun := by
  intro h
  have hrun : ∃ s exchange, Transition.run
      (step sealedResolver hostReader fun _ => .ok (hostWire 0)) {} replayRun = some s ∧
      s.exchanges[1]? = some exchange ∧ exchange.result = some (.ok hostReply) ∧
        exchange.taken = some (firstReply.wire sealedBox) ∧
          sealedResolver.sentNonce exchange.wire = List.replicate 12 2 :=
    ⟨_,_,rfl,rfl,rfl,rfl,rfl⟩
  obtain ⟨s,exchange,hs,hexchange,hresult,htaken,hsent⟩ := hrun
  obtain ⟨wire,hwire,hnonce⟩ :=
    h.final hs exchange (List.mem_of_getElem? hexchange) hostReply hresult
  rw [htaken,Option.some.injEq] at hwire
  rw [← hwire,hsent] at hnonce
  revert hnonce
  decide

end Dnscrypt

end SmartDns
