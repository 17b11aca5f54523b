import SmartDns.Dns.Answer
import SmartDns.Lib.Exec
import SmartDns.Lib.Framing
import SmartDns.Lib.Transition
set_option autoImplicit false

/-!
`TcpDnsServer.handle_client`: requests and replies in the two streams of a connection. The
network cuts the client's bytes as it likes, and requests are answered one after the other.
-/

namespace SmartDns.Tcp

open Framing (Bytes Framable frame framed frames)

variable (format : WireFormat)

/-- Where `handle_client` waits. -/
inductive Stage where
  | length
  | payload (size : ℕ)
  | asking (request : Message)
  | sending (wire : Bytes)
  | closed

/-- `buffer` is that of the `BufferedByteReceiveStream`. `arrived` and `sent` are the two streams
so far, `asked` and `answers` what `process_query` was given and returned. -/
structure Connection where
  stage : Stage := .length
  buffer : Bytes := []
  arrived : Bytes := []
  asked : List Message := []
  answers : List (Option Message) := []
  sent : Bytes := []

/-- What `receive_exactly` waits for. -/
def Stage.wanted : Stage → Option ℕ
  | .length => some 2
  | .payload size => some size
  | _ => none

/-- `len(wire).to_bytes(2, "big")` raises where the length does not fit. -/
def encodeReply (response : Message) : Except PyException Bytes := do
  let wire ← format.toWire response
  if Framable 2 wire then .ok wire else .error ⟨.other,"OverflowError","int too big to convert"⟩

inductive Event where
  /-- `receive` gives at most what is still missing. -/
  | receive (chunk : Bytes)
  | endOfStream
  /-- `receive_exactly` has enough. -/
  | take
  | answer (response : Except PyException (Option Message))
  | sent
  /-- `send` raises after some bytes are out. -/
  | broken (count : ℕ)

def request (payload : Bytes) (c : Connection) : Connection :=
  match format.fromWire payload with
  | .ok request => { c with stage := .asking request, asked := c.asked ++ [request] }
  | .error _ => { c with stage := .closed }

def reply (response : Option Message) (c : Connection) : Connection :=
  match response with
  | none => { c with stage := .length }
  | some response =>
    match encodeReply format response with
    | .ok wire => { c with stage := .sending wire }
    | .error _ => { c with stage := .closed }

def step (c : Connection) : Event → Option Connection
  | .receive chunk => do
    let wanted ← c.stage.wanted
    if chunk ≠ [] ∧ c.buffer.length+chunk.length ≤ wanted then
      some { c with buffer := c.buffer ++ chunk, arrived := c.arrived ++ chunk }
    else none
  | .endOfStream => do
    let wanted ← c.stage.wanted
    if c.buffer.length < wanted then some { c with stage := .closed } else none
  | .take =>
    match c.stage with
    | .length =>
      if 2 ≤ c.buffer.length then
        some { c with
          stage := .payload (Framing.fromBytes (c.buffer.take 2)), buffer := c.buffer.drop 2 }
      else none
    | .payload size =>
      if size ≤ c.buffer.length then
        some (request format (c.buffer.take size) { c with buffer := c.buffer.drop size })
      else none
    | _ => none
  | .answer response =>
    match c.stage,response with
    | .asking _,.ok response =>
      some (reply format response { c with answers := c.answers ++ [response] })
    | .asking _,.error _ => some { c with stage := .closed }
    | _,_ => none
  | .sent =>
    match c.stage with
    | .sending wire => some { c with stage := .length, sent := c.sent ++ frame 2 wire }
    | _ => none
  | .broken count =>
    match c.stage with
    | .sending wire =>
      some { c with stage := .closed, sent := c.sent ++ (frame 2 wire).take count }
    | _ => none

/-! ### What the streams say -/

/-- The requests of payloads, up to one that is none. -/
def decodeAll : List Bytes → List Message
  | [] => []
  | payload :: payloads =>
    match format.fromWire payload with
    | .ok request => request :: decodeAll payloads
    | .error _ => []

def requests (arrived : Bytes) : List Message := decodeAll format (frames 2 arrived)

/-- The payloads of the replies, up to one that cannot be sent. -/
def replies : List (Option Message) → List Bytes
  | [] => []
  | none :: answers => replies answers
  | some response :: answers =>
    match encodeReply format response with
    | .ok wire => wire :: replies answers
    | .error _ => []

/-- The answer can be sent, if there is one. -/
def Sendable (answer : Option Message) : Prop :=
  ∀ response ∈ answer, ∃ wire, encodeReply format response = .ok wire

/-- More bytes are waited for. -/
def Connection.Idle (c : Connection) : Prop :=
  ∃ wanted, c.stage.wanted = some wanted ∧ c.buffer.length < wanted

variable {format}

theorem encodeReply_ok {response : Message} {wire : Bytes}
    (h : encodeReply format response = .ok wire) :
    format.toWire response = .ok wire ∧ Framable 2 wire := by
  obtain ⟨wire',hwire,h⟩ := Exec.except_bind_eq_ok.mp h
  split at h
  · rename_i hfits
    cases h
    exact ⟨hwire,hfits⟩
  · cases h

theorem decodeAll_append_prefix (front back : List Bytes) :
    decodeAll format front <+: decodeAll format (front ++ back) := by
  induction front with
  | nil => exact List.nil_prefix
  | cons payload front ih =>
    simp only [List.cons_append,decodeAll]
    cases format.fromWire payload with
    | error e => exact List.nil_prefix
    | ok request => exact List.cons_prefix_cons.mpr ⟨rfl,ih⟩

theorem requests_mono (format : WireFormat) {bytes more : Bytes} (h : bytes <+: more) :
    requests format bytes <+: requests format more := by
  obtain ⟨others,hothers⟩ := Framing.frames_mono Nat.two_pos h
  rw [requests,requests,← hothers]
  exact decodeAll_append_prefix _ others

theorem decodeAll_concat {payloads : List Bytes}
    (h : (decodeAll format payloads).length = payloads.length) (payload : Bytes) :
    decodeAll format (payloads ++ [payload]) =
      decodeAll format payloads ++ (format.fromWire payload).toOption.toList := by
  induction payloads with
  | nil =>
    simp only [List.nil_append,decodeAll]
    cases format.fromWire payload with
    | error e => rfl
    | ok request => rfl
  | cons first payloads ih =>
    simp only [List.cons_append,decodeAll] at h ⊢
    cases hfirst : format.fromWire first with
    | error e =>
      rw [hfirst] at h
      simp at h
    | ok request =>
      rw [hfirst] at h
      simp only [List.length_cons,Nat.add_right_cancel_iff] at h
      simp only [List.cons_append,ih h]

theorem replies_append {front : List (Option Message)}
    (h : ∀ answer ∈ front, Sendable format answer) (back : List (Option Message)) :
    replies format (front ++ back) = replies format front ++ replies format back := by
  induction front with
  | nil => rfl
  | cons answer front ih =>
    obtain ⟨hfirst,hothers⟩ := List.forall_mem_cons.mp h
    cases answer with
    | none => exact ih hothers
    | some response =>
      obtain ⟨wire,hwire⟩ := hfirst response rfl
      simp only [List.cons_append,replies,hwire]
      exact congrArg _ (ih hothers)

theorem replies_fits (answers : List (Option Message)) :
    ∀ payload ∈ replies format answers, Framable 2 payload := by
  induction answers with
  | nil => simp [replies]
  | cons answer answers ih =>
    cases answer with
    | none => exact ih
    | some response =>
      simp only [replies]
      cases hwire : encodeReply format response with
      | error e => simp
      | ok wire => exact List.forall_mem_cons.mpr ⟨(encodeReply_ok hwire).2,ih⟩

/-- The client decodes the replies to the answers. -/
theorem replies_decoded {answers : List (Option Message)}
    (h : ∀ answer ∈ answers, Sendable format answer) :
    (replies format answers).map format.fromWire =
      (answers.filterMap id).map fun response => .ok response.merged := by
  induction answers with
  | nil => rfl
  | cons answer answers ih =>
    obtain ⟨hfirst,hothers⟩ := List.forall_mem_cons.mp h
    cases answer with
    | none => exact ih hothers
    | some response =>
      obtain ⟨wire,hwire⟩ := hfirst response rfl
      have hback := format.roundTrip response wire (encodeReply_ok hwire).1
      simp only [replies,hwire,List.map_cons,hback,ih hothers,List.filterMap_cons,id]

/-! ### One step -/

/-- What a step does. -/
theorem step_cases {c c' : Connection} {event : Event} (h : step format c event = some c') :
    (∃ wanted chunk, c.stage.wanted = some wanted ∧ c.buffer.length+chunk.length ≤ wanted ∧
      c' = { c with buffer := c.buffer ++ chunk, arrived := c.arrived ++ chunk }) ∨
    c' = { c with stage := .closed } ∨
    (∃ head rest, c.stage = .length ∧ c.buffer = head ++ rest ∧ head.length = 2 ∧
      c' = { c with stage := .payload (Framing.fromBytes head), buffer := rest }) ∨
    (∃ payload rest, c.stage = .payload payload.length ∧ c.buffer = payload ++ rest ∧
      c' = request format payload { c with buffer := rest }) ∨
    (∃ asked response, c.stage = .asking asked ∧
      c' = reply format response { c with answers := c.answers ++ [response] }) ∨
    (∃ wire, c.stage = .sending wire ∧
      c' = { c with stage := .length, sent := c.sent ++ frame 2 wire }) ∨
    ∃ wire count, c.stage = .sending wire ∧
      c' = { c with stage := .closed, sent := c.sent ++ (frame 2 wire).take count } := by
  cases event with
  | receive chunk =>
    obtain ⟨wanted,hwanted,h⟩ := Option.bind_eq_some_iff.mp h
    split at h
    · rename_i hchunk
      exact .inl ⟨wanted,chunk,hwanted,hchunk.2,(Option.some.inj h).symm⟩
    · cases h
  | endOfStream =>
    obtain ⟨wanted,_,h⟩ := Option.bind_eq_some_iff.mp h
    split at h
    · exact .inr (.inl (Option.some.inj h).symm)
    · cases h
  | take =>
    simp only [step] at h
    split at h
    · rename_i hstage
      split at h
      · rename_i hlength
        refine .inr (.inr (.inl ⟨_,_,hstage,(List.take_append_drop 2 _).symm,?_,?_⟩))
        · exact List.length_take_of_le hlength
        · exact (Option.some.inj h).symm
      · cases h
    · rename_i size hstage
      split at h
      · rename_i hlength
        have htaken : (c.buffer.take size).length = size := List.length_take_of_le hlength
        refine .inr (.inr (.inr (.inl ⟨c.buffer.take size,c.buffer.drop size,?_,?_,?_⟩)))
        · rw [htaken]
          exact hstage
        · exact (List.take_append_drop size _).symm
        · exact (Option.some.inj h).symm
      · cases h
    · cases h
  | answer response =>
    simp only [step] at h
    split at h
    · rename_i asked response hstage
      exact .inr (.inr (.inr (.inr (.inl ⟨asked,response,hstage,(Option.some.inj h).symm⟩))))
    · exact .inr (.inl (Option.some.inj h).symm)
    · cases h
  | sent =>
    simp only [step] at h
    split at h
    · rename_i wire hstage
      have hsent := (Option.some.inj h).symm
      exact .inr (.inr (.inr (.inr (.inr (.inl ⟨wire,hstage,hsent⟩)))))
    · cases h
  | broken count =>
    simp only [step] at h
    split at h
    · rename_i wire hstage
      have hsent := (Option.some.inj h).symm
      exact .inr (.inr (.inr (.inr (.inr (.inr ⟨wire,count,hstage,hsent⟩)))))
    · cases h

/-! ### The invariant -/

/-- The bytes of a frame that are no longer in the buffer. -/
def Stage.held : Stage → Bytes
  | .payload size => Framing.toBytes 2 size
  | _ => []

def Stage.pending : Stage → ℕ
  | .asking _ => 1
  | _ => 0

def Stage.outgoing : Stage → Bytes
  | .sending wire => frame 2 wire
  | _ => []

/-- What holds as long as the connection is open. -/
structure Settled (format : WireFormat) (payloads : List Bytes) (c : Connection) : Prop where
  asked : c.asked.length = payloads.length
  sendable : ∀ answer ∈ c.answers, Sendable format answer
  arrived : c.arrived = framed 2 payloads ++ (c.stage.held ++ c.buffer)
  answered : c.answers.length+c.stage.pending = c.asked.length
  sent : c.sent ++ c.stage.outgoing = framed 2 (replies format c.answers)
  size : ∀ size, c.stage = .payload size → size < 256^2

/-- The payloads that were taken from the client's stream say what was asked. -/
structure Follows (format : WireFormat) (payloads : List Bytes) (c : Connection) : Prop where
  fits : ∀ payload ∈ payloads, Framable 2 payload
  arrived : framed 2 payloads <+: c.arrived
  asked : decodeAll format payloads = c.asked
  sent : c.sent <+: framed 2 (replies format c.answers)
  answered : c.answers.length ≤ c.asked.length
  waiting : c.asked.length ≤ c.answers.length+1
  settled : c.stage ≠ .closed → Settled format payloads c

variable {payloads : List Bytes} {c c' : Connection}

theorem follows_start : Follows format [] {} where
  fits := by simp
  arrived := List.nil_prefix
  asked := rfl
  sent := List.nil_prefix
  answered := le_rfl
  waiting := Nat.zero_le _
  settled _ := ⟨rfl,by simp,rfl,rfl,rfl,fun _ h => by cases h⟩

/-- A settled connection follows its payloads. -/
theorem Settled.follows (h : Settled format payloads c)
    (hfits : ∀ payload ∈ payloads, Framable 2 payload)
    (hasked : decodeAll format payloads = c.asked) :
    Follows format payloads c where
  fits := hfits
  arrived := ⟨_,h.arrived.symm⟩
  asked := hasked
  sent := ⟨_,h.sent⟩
  answered := by have := h.answered; omega
  waiting := by
    have hpending : c.stage.pending ≤ 1 := by
      cases c.stage <;> simp [Stage.pending]
    have := h.answered
    omega
  settled _ := h

theorem Follows.close (h : Follows format payloads c) :
    Follows format payloads { c with stage := .closed } :=
  { h with settled := fun hopen => absurd rfl hopen }

theorem Follows.received (h : Follows format payloads c) {wanted : ℕ}
    (hwanted : c.stage.wanted = some wanted) (chunk : Bytes) :
    Follows format payloads
      { c with buffer := c.buffer ++ chunk, arrived := c.arrived ++ chunk } := by
  have hopen : c.stage ≠ .closed := by
    intro hclosed
    rw [hclosed] at hwanted
    cases hwanted
  have hsettled := h.settled hopen
  refine Settled.follows { hsettled with arrived := ?_ } h.fits h.asked
  simp only [hsettled.arrived,List.append_assoc]

theorem Follows.headed (h : Follows format payloads c) {head rest : Bytes}
    (hstage : c.stage = .length) (hbuffer : c.buffer = head ++ rest) (hhead : head.length = 2) :
    Follows format payloads
      { c with stage := .payload (Framing.fromBytes head), buffer := rest } := by
  have hsettled := h.settled (by rw [hstage]; simp)
  have hback := Framing.toBytes_fromBytes head
  have hlt := Framing.fromBytes_lt head
  rw [hhead] at hback hlt
  refine Settled.follows ⟨hsettled.asked,hsettled.sendable,?_,?_,?_,?_⟩ h.fits h.asked
  · simp only [hsettled.arrived,hstage,hbuffer,Stage.held,hback,List.nil_append]
  · simpa [hstage,Stage.pending] using hsettled.answered
  · simpa [hstage,Stage.outgoing] using hsettled.sent
  · intro size hsize
    cases hsize
    exact hlt

/-- A payload is taken: it is asked about, or it ends the connection. -/
theorem Follows.requested (h : Follows format payloads c) {payload rest : Bytes}
    (hstage : c.stage = .payload payload.length) (hbuffer : c.buffer = payload ++ rest) :
    Follows format (payloads ++ [payload]) (request format payload { c with buffer := rest }) := by
  have hsettled := h.settled (by rw [hstage]; simp)
  have hfits : ∀ p ∈ payloads ++ [payload], Framable 2 p :=
    List.forall_mem_append.mpr ⟨h.fits,List.forall_mem_singleton.mpr (hsettled.size _ hstage)⟩
  have harrived : c.arrived = framed 2 (payloads ++ [payload]) ++ rest := by
    rw [hsettled.arrived,hstage,hbuffer,Framing.framed_append,Framing.framed_singleton]
    simp only [Stage.held,frame,List.append_assoc]
  have hall : (decodeAll format payloads).length = payloads.length := by
    rw [h.asked,hsettled.asked]
  have hdecoded := decodeAll_concat hall payload
  have hanswered : c.answers.length = c.asked.length := by
    simpa [hstage,Stage.pending] using hsettled.answered
  unfold request
  cases hrequest : format.fromWire payload with
  | error e =>
    rw [hrequest,h.asked] at hdecoded
    refine ⟨hfits,⟨rest,harrived.symm⟩,?_,h.sent,h.answered,h.waiting,fun hopen => absurd rfl hopen⟩
    exact hdecoded.trans (List.append_nil _)
  | ok request =>
    rw [hrequest,h.asked] at hdecoded
    refine Settled.follows ⟨?_,hsettled.sendable,?_,?_,?_,fun _ hsize => by cases hsize⟩ hfits ?_
    · simp [hsettled.asked]
    · simpa [Stage.held] using harrived
    · simp [Stage.pending,hanswered]
    · simpa [hstage,Stage.outgoing] using hsettled.sent
    · exact hdecoded

theorem Follows.replied (h : Follows format payloads c) {asked : Message}
    (hstage : c.stage = .asking asked) (response : Option Message) :
    Follows format payloads
      (reply format response { c with answers := c.answers ++ [response] }) := by
  have hsettled := h.settled (by rw [hstage]; simp)
  have hsent : c.sent = framed 2 (replies format c.answers) := by
    simpa [hstage,Stage.outgoing] using hsettled.sent
  have hanswered : c.answers.length+1 = c.asked.length := by
    simpa [hstage,Stage.pending] using hsettled.answered
  have harrived : c.arrived = framed 2 payloads ++ c.buffer := by
    simpa [hstage,Stage.held] using hsettled.arrived
  have hreplies := replies_append hsettled.sendable [response]
  cases response with
  | none =>
    refine Settled.follows ⟨hsettled.asked,?_,?_,?_,?_,fun _ hsize => by cases hsize⟩ h.fits h.asked
    · exact List.forall_mem_append.mpr
        ⟨hsettled.sendable,List.forall_mem_singleton.mpr fun _ hnone => by cases hnone⟩
    · simpa [reply,Stage.held] using harrived
    · simp [reply,Stage.pending,hanswered]
    · simp [reply,Stage.outgoing,hreplies,replies,hsent]
  | some response =>
    simp only [reply]
    cases hwire : encodeReply format response with
    | error e =>
      refine ⟨h.fits,h.arrived,h.asked,?_,?_,?_,fun hopen => absurd rfl hopen⟩
      · simp [hreplies,replies,hwire,hsent]
      · simp [hanswered]
      · simp; omega
    | ok wire =>
      refine Settled.follows ⟨hsettled.asked,?_,?_,?_,?_,fun _ hsize => by cases hsize⟩ h.fits
        h.asked
      · refine List.forall_mem_append.mpr ⟨hsettled.sendable,List.forall_mem_singleton.mpr ?_⟩
        intro other hother
        cases hother
        exact ⟨wire,hwire⟩
      · simpa [Stage.held] using harrived
      · simp [Stage.pending,hanswered]
      · simp [Stage.outgoing,hreplies,replies,hwire,hsent,Framing.framed_append,
          Framing.framed_singleton]

theorem Follows.sentWhole (h : Follows format payloads c) {wire : Bytes}
    (hstage : c.stage = .sending wire) : Follows format payloads
      { c with stage := .length, sent := c.sent ++ frame 2 wire } := by
  have hsettled := h.settled (by rw [hstage]; simp)
  refine Settled.follows ⟨hsettled.asked,hsettled.sendable,?_,?_,?_,fun _ hsize => by cases hsize⟩
    h.fits h.asked
  · simpa [hstage,Stage.held] using hsettled.arrived
  · simpa [hstage,Stage.pending] using hsettled.answered
  · simpa [hstage,Stage.outgoing] using hsettled.sent

theorem Follows.sentPart (h : Follows format payloads c) {wire : Bytes}
    (hstage : c.stage = .sending wire) (count : ℕ) : Follows format payloads
      { c with stage := .closed, sent := c.sent ++ (frame 2 wire).take count } := by
  have hsettled := h.settled (by rw [hstage]; simp)
  have hsent := hsettled.sent
  rw [hstage] at hsent
  refine ⟨h.fits,h.arrived,h.asked,?_,h.answered,h.waiting,fun hopen => absurd rfl hopen⟩
  rw [← hsent]
  exact (List.prefix_append_right_inj c.sent).mpr (List.take_prefix _ _)

theorem follows_step {event : Event} (h : ∃ payloads, Follows format payloads c)
    (hstep : step format c event = some c') : ∃ payloads, Follows format payloads c' := by
  obtain ⟨payloads,h⟩ := h
  obtain ⟨wanted,chunk,hwanted,_,rfl⟩ | rfl | ⟨head,rest,hstage,hbuffer,hhead,rfl⟩ |
    ⟨payload,rest,hstage,hbuffer,rfl⟩ | ⟨asked,response,hstage,rfl⟩ | ⟨wire,hstage,rfl⟩ |
    ⟨wire,count,hstage,rfl⟩ := step_cases hstep
  · exact ⟨payloads,h.received hwanted chunk⟩
  · exact ⟨payloads,h.close⟩
  · exact ⟨payloads,h.headed hstage hbuffer hhead⟩
  · exact ⟨_,h.requested hstage hbuffer⟩
  · exact ⟨payloads,h.replied hstage response⟩
  · exact ⟨payloads,h.sentWhole hstage⟩
  · exact ⟨payloads,h.sentPart hstage count⟩

/-! ### Conversations -/

/-- What is left in the client's stream when more of it is waited for is no whole frame. -/
theorem Connection.Idle.incomplete (h : c.Idle) (hsettled : Settled format payloads c) :
    Framing.Incomplete 2 (c.stage.held ++ c.buffer) := by
  obtain ⟨wanted,hwanted,hlength⟩ := h
  rw [Framing.incomplete_iff]
  cases hstage : c.stage with
  | length =>
    rw [hstage] at hwanted
    cases hwanted
    simp [Stage.held]
    omega
  | payload size =>
    rw [hstage] at hwanted
    have hsize : size = wanted := Option.some.inj hwanted
    subst hsize
    have htake : (Framing.toBytes 2 size ++ c.buffer).take 2 = Framing.toBytes 2 size :=
      List.take_left' (Framing.length_toBytes 2 size)
    rw [Stage.held,htake,Framing.fromBytes_toBytes (hsettled.size size hstage),List.length_append,
      Framing.length_toBytes]
    omega
  | asking _ | sending _ | closed =>
    rw [hstage] at hwanted
    cases hwanted

theorem follows_run {events : List Event}
    (h : Transition.run (step format) {} events = some c) : ∃ payloads, Follows format payloads c :=
  (Transition.always_of_step (I:=fun c => ∃ payloads, Follows format payloads c)
    ⟨[],follows_start⟩ (fun _ _ _ => follows_step)).final h

theorem Follows.asked_prefix (h : Follows format payloads c) :
    c.asked <+: requests format c.arrived := by
  have hrequests := requests_mono format h.arrived
  rwa [requests,Framing.frames_framed_nil Nat.two_pos h.fits,h.asked] at hrequests

theorem Follows.sent_prefix (h : Follows format payloads c) :
    frames 2 c.sent <+: replies format c.answers := by
  have hmono := Framing.frames_mono Nat.two_pos h.sent
  rwa [Framing.frames_framed_nil Nat.two_pos (replies_fits _)] at hmono

theorem Connection.Idle.stage (h : c.Idle) :
    c.stage ≠ .closed ∧ c.stage.pending = 0 ∧ c.stage.outgoing = [] := by
  obtain ⟨wanted,hwanted,-⟩ := h
  cases hstage : c.stage with
  | length | payload size => exact ⟨by simp,rfl,rfl⟩
  | asking _ | sending _ | closed =>
    rw [hstage] at hwanted
    cases hwanted

theorem Follows.idle (h : Follows format payloads c) (hidle : c.Idle) :
    c.asked = requests format c.arrived ∧ c.answers.length = c.asked.length ∧
      c.sent = framed 2 (replies format c.answers) ∧
      ∀ answer ∈ c.answers, Sendable format answer := by
  obtain ⟨hopen,hpending,houtgoing⟩ := hidle.stage
  have hsettled := h.settled hopen
  have hanswered := hsettled.answered
  have hsent := hsettled.sent
  rw [hpending] at hanswered
  rw [houtgoing,List.append_nil] at hsent
  refine ⟨?_,hanswered,hsent,hsettled.sendable⟩
  rw [requests,hsettled.arrived,Framing.frames_framed Nat.two_pos h.fits
    (hidle.incomplete hsettled),h.asked]

/-- Where the network cuts the client's bytes makes no difference. -/
theorem idle_same {c d : Connection} {events events' : List Event}
    (hc : Transition.run (step format) {} events = some c)
    (hd : Transition.run (step format) {} events' = some d) (hcIdle : c.Idle) (hdIdle : d.Idle)
    (harrived : c.arrived = d.arrived) (hanswers : c.answers = d.answers) :
    c.asked = d.asked ∧ c.sent = d.sent := by
  obtain ⟨_,hc⟩ := follows_run hc
  obtain ⟨_,hd⟩ := follows_run hd
  obtain ⟨hcAsked,-,hcSent,-⟩ := hc.idle hcIdle
  obtain ⟨hdAsked,-,hdSent,-⟩ := hd.idle hdIdle
  rw [hcAsked,hdAsked,hcSent,hdSent,harrived,hanswers]
  exact ⟨rfl,rfl⟩

/-- The requests of the client's stream are asked about in their order, one at a time, and what
is sent is the replies in this order. When more bytes are waited for, all whole frames that
arrived were asked about and answered, and the client decodes the answers. -/
theorem tcp_conversation {events : List Event}
    (h : Transition.run (step format) {} events = some c) :
    c.asked <+: requests format c.arrived ∧ c.answers.length ≤ c.asked.length ∧
    c.asked.length ≤ c.answers.length+1 ∧ frames 2 c.sent <+: replies format c.answers ∧
    (c.Idle → c.asked = requests format c.arrived ∧ c.answers.length = c.asked.length ∧
      (frames 2 c.sent).map format.fromWire =
        (c.answers.filterMap id).map fun response => .ok response.merged) := by
  obtain ⟨payloads,hfollows⟩ := follows_run h
  refine ⟨hfollows.asked_prefix,hfollows.answered,hfollows.waiting,hfollows.sent_prefix,
    fun hidle => ?_⟩
  obtain ⟨hasked,hanswered,hsent,hsendable⟩ := hfollows.idle hidle
  refine ⟨hasked,hanswered,?_⟩
  rw [hsent,Framing.frames_framed_nil Nat.two_pos (replies_fits _)]
  exact replies_decoded hsendable

/-! ### A host's connection -/

/-- `dns-forwarder`. -/
def hostLabel : Bytes := [100,110,115,45,102,111,114,119,97,114,100,101,114]

def hostQuery : Message :=
  { id := 7, flags := { rd := true }, question := [⟨⟨[hostLabel]⟩,RdataType.A,RdataClass.IN⟩] }

def hostReply : Message := { hostQuery with flags := { qr := true, rd := true } }

def hostQueryWire : Bytes := [0,7,1,0,0,1,0,0,0,0,0,0,13] ++ hostLabel ++ [0,0,1,0,1]

def hostReplyWire : Bytes := [0,7,129,0,0,1,0,0,0,0,0,0,13] ++ hostLabel ++ [0,0,1,0,1]

/-- The wire format of the two messages. -/
def hostFormat : WireFormat where
  toWire m :=
    if m = hostQuery then .ok hostQueryWire
    else if m = hostReply then .ok hostReplyWire
    else .error (.formError "")
  fromWire wire :=
    if wire = hostQueryWire then .ok hostQuery
    else if wire = hostReplyWire then .ok hostReply
    else .error (.formError "")
  roundTrip m wire h := by
    split at h
    · rename_i hm
      subst hm
      cases h
      rfl
    · split at h
      · rename_i hm
        subst hm
        cases h
        rfl
      · cases h
  header m wire h := by
    split at h
    · cases h
      decide
    · split at h
      · cases h
        decide
      · cases h

/-- The frame comes in three pieces. -/
def hostEvents : List Event :=
  [.receive [0],.receive [31],.take,.receive (hostQueryWire.take 5),
    .receive (hostQueryWire.drop 5),.take,.answer (.ok (some hostReply)),.sent]

def hostConnection : Connection where
  arrived := frame 2 hostQueryWire
  asked := [hostQuery]
  answers := [some hostReply]
  sent := frame 2 hostReplyWire

set_option maxRecDepth 2048 in
theorem host_run : Transition.run (step hostFormat) {} hostEvents = some hostConnection := rfl

theorem tcp_conversation_host : Transition.run (step hostFormat) {} hostEvents =
      some hostConnection ∧
    hostConnection.asked = requests hostFormat hostConnection.arrived ∧
    (frames 2 hostConnection.sent).map hostFormat.fromWire = [.ok hostReply] := by
  have hidle : hostConnection.Idle := ⟨2,rfl,by decide⟩
  obtain ⟨-,-,-,-,hidles⟩ := tcp_conversation host_run
  obtain ⟨hrequests,-,hdecoded⟩ := hidles hidle
  exact ⟨host_run,hrequests,hdecoded⟩

end SmartDns.Tcp
