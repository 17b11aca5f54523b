import SmartDns.Server.Tcp
set_option autoImplicit false

/-!
`TrickyStreamSocket.sendall`: the first bytes are sent with an urgent byte behind them, which is
not in the stream that the peer reads.
-/

namespace SmartDns.TrickTcp

open Framing (Bytes Framable frame)

/-- What the peer reads in the stream, and the urgent bytes beside it. -/
structure Socket where
  inBand : Bytes := []
  urgent : Bytes := []

/-- What happens when the socket is to take some bytes: it takes as many as it likes, or raises. -/
inductive Attempt where
  | accepts (count : ℕ)
  | raises

def connectionBroken : PyException := ⟨.other,"OSError","Socket connection broken"⟩

/-- `sock.sendall(data, socket.MSG_OOB)`, whose last byte is urgent. It is taken as a whole, or
`sendall` raises when some bytes are out. -/
def sendUrgent (data : Bytes) : Option ℕ → Exec PyException Socket Unit
  | none => Exec.modify fun s =>
    { inBand := s.inBand ++ data.dropLast, urgent := s.urgent ++ data.getLast?.toList }
  | some count => do
    Exec.modify fun s => { s with inBand := s.inBand ++ data.dropLast.take count }
    Exec.raise connectionBroken

/-- `_send` after `totalSent` bytes. When no attempt is left, the time is over. -/
def sendFrom (what : Bytes) : List Attempt → ℕ → Exec PyException Socket Unit
  | [],totalSent => if totalSent < what.length then Exec.raise (.timeoutError "") else Exec.skip
  | attempt :: attempts,totalSent =>
    if totalSent < what.length then
      match attempt with
      | .raises => Exec.raise connectionBroken
      | .accepts count => do
        let sent := min count (what.length-totalSent)
        if sent = 0 then Exec.raise connectionBroken
        else do
          Exec.modify fun s => { s with inBand := s.inBand ++ (what.drop totalSent).take sent }
          sendFrom what attempts (totalSent+sent)
    else Exec.skip

def sendall (useTricks : Bool) (what : Bytes) (first : Option ℕ) (attempts : List Attempt) :
    Exec PyException Socket Unit :=
  if useTricks ∧ 32 < what.length then do
    sendUrgent (what.take 16 ++ [0]) first
    sendFrom (what.drop 16) attempts 0
  else sendFrom what attempts 0

/-- The stream has a part of the bytes when sending ends, and all of them when it ends well. -/
def Delivers (what : Bytes) (before : Socket) (r : Except PyException Unit × Socket) : Prop :=
  r.2.inBand <+: before.inBand ++ what ∧ (r.1 = .ok () → r.2.inBand = before.inBand ++ what)

theorem Delivers.raised (what : Bytes) (s : Socket) (e : PyException) :
    Delivers what s (.error e,s) := ⟨List.prefix_append _ _,fun hok => by cases hok⟩

theorem Delivers.append {front back : Bytes} {s s' : Socket} {r : Except PyException Unit × Socket}
    (hfront : s'.inBand = s.inBand ++ front) (hback : Delivers back s' r) :
    Delivers (front ++ back) s r := by
  unfold Delivers at hback ⊢
  rwa [← List.append_assoc,← hfront]

theorem sendFrom_delivers (what : Bytes) (attempts : List Attempt) (totalSent : ℕ) (s : Socket) :
    Delivers (what.drop totalSent) s (sendFrom what attempts totalSent s) := by
  have hdone {totalSent : ℕ} (hall : ¬ totalSent < what.length) (s : Socket) :
      Delivers (what.drop totalSent) s (.ok (),s) := by
    rw [List.drop_eq_nil_of_le (by omega)]
    exact ⟨by simp,fun _ => by simp⟩
  induction attempts generalizing totalSent s with
  | nil =>
    unfold sendFrom
    split
    · exact .raised _ _ _
    · exact hdone ‹_› s
  | cons attempt attempts ih =>
    unfold sendFrom
    split
    · cases attempt with
      | raises => exact .raised _ _ _
      | accepts count =>
        simp only []
        split
        · exact .raised _ _ _
        · rw [Exec.bind_ok (Exec.run_modify _ s)]
          conv in what.drop totalSent =>
            rw [← List.take_append_drop (min count (what.length-totalSent)) (what.drop totalSent)]
          rw [List.drop_drop]
          exact Delivers.append rfl (ih _ _)
    · exact hdone ‹_› s

theorem sendall_delivers (useTricks : Bool) (what : Bytes) (first : Option ℕ)
    (attempts : List Attempt) (s : Socket) :
    Delivers what s (sendall useTricks what first attempts s) := by
  unfold sendall
  split
  · have hhead : (what.take 16 ++ [0]).dropLast = what.take 16 := List.dropLast_concat
    cases first with
    | some count =>
      refine ⟨(List.prefix_append_right_inj s.inBand).mpr ?_,fun hok => by cases hok⟩
      rw [hhead]
      exact (List.take_prefix _ _).trans (List.take_prefix _ _)
    | none =>
      have hrest := sendFrom_delivers (what.drop 16) attempts 0
        { inBand := s.inBand ++ (what.take 16 ++ [0]).dropLast
          urgent := s.urgent ++ (what.take 16 ++ [0]).getLast?.toList }
      rw [List.drop_zero] at hrest
      have hall := Delivers.append (congrArg _ hhead) hrest
      rwa [List.take_append_drop] at hall
  · simpa using sendFrom_delivers what attempts 0 s

variable {format : WireFormat}

/-- A query that is sent over a tricky socket, as the TCP server reads it: whatever the socket
takes at once and wherever the network cuts it, nothing but the query is asked about; and when
all of it was sent and has arrived, it was asked about, and its answer is what was sent back. -/
theorem tricky_query_asked {query : Message} {wire : Bytes}
    (hwire : format.toWire query = .ok wire) (hfits : Framable 2 wire) (useTricks : Bool)
    (first : Option ℕ) (attempts : List Attempt) {events : List Tcp.Event} {c : Tcp.Connection}
    (hrun : Transition.run (Tcp.step format) {} events = some c)
    (harrived : c.arrived <+:
      (sendall useTricks (frame 2 wire) first attempts {}).2.inBand) :
    c.asked <+: [query.merged] ∧
      ((sendall useTricks (frame 2 wire) first attempts {}).1 = .ok () →
        c.arrived = (sendall useTricks (frame 2 wire) first attempts {}).2.inBand → c.Idle →
        c.asked = [query.merged] ∧ ∃ answer, c.answers = [answer] ∧
          (Framing.frames 2 c.sent).map format.fromWire =
            answer.toList.map fun response => .ok response.merged) := by
  obtain ⟨payloads,hfollows⟩ := Tcp.follows_run hrun
  have hdelivers := sendall_delivers useTricks (frame 2 wire) first attempts {}
  have hone : Tcp.requests format (frame 2 wire) = [query.merged] := by
    have hframes := Framing.frames_framed_nil Nat.two_pos
      (List.forall_mem_singleton.mpr hfits)
    rw [Framing.framed_singleton] at hframes
    simp [Tcp.requests,hframes,Tcp.decodeAll,format.roundTrip query wire hwire]
  constructor
  · rw [← hone]
    exact hfollows.asked_prefix.trans (Tcp.requests_mono format (harrived.trans hdelivers.1))
  · intro hok hall hidle
    obtain ⟨hasked,hanswered,hsent,hsendable⟩ := hfollows.idle hidle
    have hframe : c.arrived = frame 2 wire := hall.trans (hdelivers.2 hok)
    rw [hframe,hone] at hasked
    rw [hasked] at hanswered
    obtain ⟨answer,hanswer⟩ := List.length_eq_one_iff.mp hanswered
    refine ⟨hasked,answer,hanswer,?_⟩
    rw [hsent,Framing.frames_framed_nil Nat.two_pos (Tcp.replies_fits _),
      Tcp.replies_decoded hsendable,hanswer]
    cases answer <;> rfl

/-- After the urgent byte the query is taken in two parts. -/
theorem tricky_query_asked_host :
    (sendall true (frame 2 Tcp.hostQueryWire) none [.accepts 3,.accepts 20] {}).2.urgent = [0] ∧
      Tcp.hostConnection.asked = [Tcp.hostQuery.merged] := by
  have hwire : Tcp.hostFormat.toWire Tcp.hostQuery = .ok Tcp.hostQueryWire := by decide
  have hsent := tricky_query_asked hwire (by decide) true none [.accepts 3,.accepts 20]
    Tcp.host_run (by decide)
  exact ⟨by decide,(hsent.2 (by decide) (by decide) ⟨2,rfl,by decide⟩).1⟩

end SmartDns.TrickTcp
