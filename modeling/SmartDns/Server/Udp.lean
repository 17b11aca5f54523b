import SmartDns.Pipeline.Unedited
import SmartDns.Server.Tcp
set_option autoImplicit false

/-!
`UdpDnsServer`: a task for each datagram, all in the one task group of the process. Their turns
come in any order, two of them cannot be in `send` at once, and one that raises takes down the
group.
-/

namespace SmartDns.Udp

open Framing (Bytes)

variable {A W : Type}

structure Datagram (A : Type) where
  data : Bytes
  addr : A
  deriving DecidableEq, Repr

/-- `stop` closes the socket and then forgets it. -/
inductive Socket where
  | opened | closed | gone
  deriving DecidableEq, Repr

/-- `ignored` and `closed` find no socket, before and after `process_query`; `busy` finds another
task in `send`. -/
inductive Ending where
  | ignored | malformed | dropped
  | closed | unencodable | busy | unwritten
  | sent (wire : Bytes)
  deriving DecidableEq, Repr

inductive Stage where
  | started
  | asking (request : Message)
  | writing (wire : Bytes)
  | ended (ending : Ending)
  | raised
  deriving DecidableEq, Repr

/-- `answer` is what `process_query` returned or raised. -/
structure Task (A : Type) where
  datagram : Datagram A
  stage : Stage := .started
  answer : Option (Except PyException (Option Message)) := none

/-- Tasks are numbered as they are started; `writer` is the one that is in `send`. What has come
and gone over the socket is in `arrived` and `sent`. -/
structure Listener (A : Type) where
  socket : Socket := .opened
  buffer : List (Datagram A) := []
  tasks : List (Task A) := []
  writer : Option ℕ := none
  cancelled : Bool := false
  arrived : List (Datagram A) := []
  sent : List (ℕ × Datagram A) := []

inductive Event (A : Type) where
  | arrive (d : Datagram A)
  /-- The socket's buffer is full. -/
  | overflow
  | accept
  | start (i : ℕ)
  | answer (i : ℕ) (r : Except PyException (Option Message))
  | written (i : ℕ)
  | unwritten (i : ℕ)
  | close
  | forget

section
variable (format : WireFormat)

/-- `handle_datagram` up to `process_query`. -/
def begin (socket : Socket) (data : Bytes) : Stage :=
  if socket = .gone then .ended .ignored
  else
    match format.fromWire data with
    | .error _ => .ended .malformed
    | .ok request => .asking request

/-- `handle_datagram` after `process_query`, up to the turn in which `send` writes. -/
def respond (s : Listener A) : Except PyException (Option Message) → Stage
  | .error _ => .raised
  | .ok none => .ended .dropped
  | .ok (some response) =>
    if s.socket = .gone then .ended .closed
    else
      match format.toWire response with
      | .error _ => .ended .unencodable
      | .ok wire => if s.writer.isSome then .ended .busy else .writing wire

/-- A turn of a task. -/
def Listener.setTask (s : Listener A) (i : ℕ) (task : Task A) : Listener A :=
  { s with tasks := s.tasks.set i task }

def step (s : Listener A) : Event A → Option (Listener A)
  | .arrive d =>
    if s.socket = .opened then
      some { s with buffer := s.buffer ++ [d], arrived := s.arrived ++ [d] }
    else none
  | .overflow => some { s with buffer := s.buffer.tail }
  | .accept =>
    match s.buffer with
    | [] => none
    | d :: buffer => some { s with buffer, tasks := s.tasks ++ [{ datagram := d }] }
  | .start i =>
    match s.tasks[i]? with
    | some task =>
      if task.stage = .started then
        some (s.setTask i { task with stage := begin format s.socket task.datagram.data })
      else none
    | none => none
  | .answer i r =>
    match s.tasks[i]? with
    | some task =>
      match task.stage,respond format s r with
      -- a task that raises cancels the others, which may take no turn any more
      | .asking _,.raised =>
        some { s.setTask i { task with stage := .raised, answer := some r } with cancelled := true }
      | .asking _,.writing wire =>
        some { s.setTask i { task with stage := .writing wire, answer := some r } with
          writer := some i }
      | .asking _,stage => some (s.setTask i { task with stage, answer := some r })
      | _,_ => none
    | none => none
  | .written i =>
    match s.tasks[i]? with
    | some task =>
      match task.stage,s.socket with
      | .writing wire,.opened =>
        some { s.setTask i { task with stage := .ended (.sent wire) } with
          writer := none, sent := s.sent ++ [(i,⟨wire,task.datagram.addr⟩)] }
      | _,_ => none
    | none => none
  | .unwritten i =>
    match s.tasks[i]? with
    | some task =>
      match task.stage with
      | .writing _ =>
        some { s.setTask i { task with stage := .ended .unwritten } with writer := none }
      | _ => none
    | none => none
  | .close => some { s with socket := if s.socket = .opened then .closed else s.socket }
  | .forget => if s.socket = .closed then some { s with socket := .gone } else none

end

/-! ### What the pipeline gives -/

/-- What a request may be answered with, whatever the upstreams do and whatever the plugins do
that leave the decoded message and the reply as they are. -/
def Handles (codec : Codec W) (request : Message) (r : Except PyException (Option Message)) :
    Prop :=
  ∃ (E S : Type) (engine : PipelineEngine E S) (env : Surroundings E engine.resolverManager)
    (clientaddr listenerName : String) (services : S), engine.LeavesHeld ∧
    (handleMessage codec engine env request clientaddr listenerName services).1 = r

/-- `process_query` is the pipeline's. -/
def FromPipeline (codec : Codec W) (s : Listener A) : Event A → Prop
  | .answer i r => ∀ task request, s.tasks[i]? = some task → task.stage = .asking request →
      Handles codec request r
  | _ => True

variable {codec : Codec W} {request response : Message}

theorem Handles.id (h : Handles codec request (.ok (some response))) :
    response.id = request.id := by
  obtain ⟨E,S,engine,env,clientaddr,listenerName,services,hleaves,h⟩ := h
  exact hleaves.handleMessage_id h

/-! ### What becomes of a datagram -/

variable {format : WireFormat}

/-- What `process_query` gave for the request in a datagram. -/
def Gets (format : WireFormat) (codec : Codec W) (task : Task A)
    (r : Except PyException (Option Message)) : Prop :=
  task.answer = some r ∧ ∃ request, format.fromWire task.datagram.data = .ok request ∧
    Handles codec request r

/-- Why a task stands where it stands. -/
def Explains (format : WireFormat) (codec : Codec W) (socket : Socket) (task : Task A) : Prop :=
  match task.stage with
  | .started => True
  | .asking request => format.fromWire task.datagram.data = .ok request
  | .writing wire | .ended (.sent wire) => ∃ response,
      Gets format codec task (.ok (some response)) ∧ format.toWire response = .ok wire
  | .ended .ignored => socket = .gone
  | .ended .malformed => ∃ e, format.fromWire task.datagram.data = .error e
  | .ended .dropped => Gets format codec task (.ok none)
  | .ended .closed => socket = .gone ∧ ∃ response, Gets format codec task (.ok (some response))
  | .ended .unencodable => ∃ response e, Gets format codec task (.ok (some response)) ∧
      format.toWire response = .error e
  | .ended .busy | .ended .unwritten => ∃ response, Gets format codec task (.ok (some response))
  | .raised => ∃ e, Gets format codec task (.error e)

/-- The task has neither sent anything nor raised. -/
def Stage.Quiet (stage : Stage) : Prop := stage ≠ .raised ∧ ∀ wire, stage ≠ .ended (.sent wire)

/-- The datagrams that the tasks have sent. -/
def Sends (tasks : List (Task A)) (i : ℕ) (out : Datagram A) : Prop :=
  ∃ task, tasks[i]? = some task ∧ task.stage = .ended (.sent out.data) ∧
    out.addr = task.datagram.addr

structure Inv (format : WireFormat) (codec : Codec W) (s : Listener A) : Prop where
  explained : ∀ task ∈ s.tasks, Explains format codec s.socket task
  sent : ∀ i out, (i,out) ∈ s.sent ↔ Sends s.tasks i out
  once : (s.sent.map Prod.fst).Nodup
  accepted : (s.tasks.map Task.datagram ++ s.buffer).Sublist s.arrived
  cancelled : s.cancelled = true ↔ ∃ task ∈ s.tasks, task.stage = .raised

section
variable {s s' : Listener A} {i : ℕ} {task task' : Task A}

theorem inv_start : Inv format codec ({} : Listener A) where
  explained _ h := by cases h
  sent i out := by simp [Sends]
  once := List.nodup_nil
  accepted := List.Sublist.refl _
  cancelled := by simp

theorem getElem?_set_self {tasks : List (Task A)} (h : tasks[i]? = some task) :
    (tasks.set i task')[i]? = some task' := by
  rw [List.getElem?_set_self (List.getElem?_eq_some_iff.mp h).1]

theorem map_datagram_set {tasks : List (Task A)} (h : tasks[i]? = some task) (task' : Task A)
    (hdatagram : task'.datagram = task.datagram) :
    (tasks.set i task').map Task.datagram = tasks.map Task.datagram := by
  obtain ⟨front,back,hsplit,hset⟩ := Transition.set_middle h
  rw [hset,hsplit]
  simp [hdatagram]

theorem sends_set {tasks : List (Task A)} (h : tasks[i]? = some task) (hold : task.stage.Quiet)
    (j : ℕ) (out : Datagram A) : Sends (tasks.set i task') j out ↔
      Sends tasks j out ∨ j = i ∧ task'.stage = .ended (.sent out.data) ∧
        out.addr = task'.datagram.addr := by
  by_cases hj : j = i
  · subst hj
    have hnever : ¬ Sends tasks j out := by
      rintro ⟨other,hother,hsent,-⟩
      cases h.symm.trans hother
      exact hold.2 _ hsent
    rw [or_iff_right hnever]
    simp [Sends,getElem?_set_self h]
  · simp [Sends,List.getElem?_set_ne (Ne.symm hj),hj]

theorem raised_set {tasks : List (Task A)} (h : tasks[i]? = some task) (hold : task.stage.Quiet) :
    (∃ x ∈ tasks.set i task', x.stage = .raised) ↔
      (∃ x ∈ tasks, x.stage = .raised) ∨ task'.stage = .raised := by
  have hall : (∀ x ∈ tasks.set i task', x.stage ≠ .raised) ↔
      (∀ x ∈ tasks, x.stage ≠ .raised) ∧ task'.stage ≠ .raised :=
    Transition.forall_mem_set_iff (R:=fun x : Task A => x.stage ≠ .raised) h hold.1
  rw [← not_iff_not]
  simp only [not_or,not_exists,not_and]
  exact hall

theorem mem_set_explained (h : Inv format codec s)
    (hexplains : Explains format codec s.socket task') :
    ∀ x ∈ s.tasks.set i task', Explains format codec s.socket x := by
  intro x hx
  obtain hx | rfl := List.mem_or_eq_of_mem_set hx
  · exact h.explained x hx
  · exact hexplains

/-- A turn in which nothing is sent. -/
theorem Inv.turn (h : Inv format codec s) (hget : s.tasks[i]? = some task)
    (hold : task.stage.Quiet) (task' : Task A)
    (hnew : ∀ wire, task'.stage ≠ .ended (.sent wire))
    (hdatagram : task'.datagram = task.datagram) (hexplains : Explains format codec s.socket task')
    (writer : Option ℕ) {cancelled : Bool}
    (hcancelled : cancelled = true ↔ s.cancelled = true ∨ task'.stage = .raised) :
    Inv format codec { s.setTask i task' with writer, cancelled } where
  explained := mem_set_explained h hexplains
  sent j out := by
    refine (h.sent j out).trans ((sends_set hget hold j out).trans ?_).symm
    exact or_iff_left fun hsent => hnew _ hsent.2.1
  once := h.once
  accepted := by
    simp only [Listener.setTask]
    rw [map_datagram_set hget task' hdatagram]
    exact h.accepted
  cancelled := by
    simp only [Listener.setTask]
    rw [raised_set hget hold,← h.cancelled]
    exact hcancelled

theorem Inv.written (h : Inv format codec s) (hget : s.tasks[i]? = some task) {wire : Bytes}
    (hstage : task.stage = .writing wire) :
    Inv format codec { s.setTask i { task with stage := .ended (.sent wire) } with
      writer := none, sent := s.sent ++ [(i,⟨wire,task.datagram.addr⟩)] } := by
  have hold : task.stage.Quiet := by simp [hstage,Stage.Quiet]
  have hexplains := h.explained task (List.mem_of_getElem? hget)
  unfold Explains at hexplains
  rw [hstage] at hexplains
  refine ⟨mem_set_explained h hexplains,?_,?_,?_,?_⟩
  · intro j out
    rw [List.mem_append,h.sent j out]
    refine (or_congr_right ?_).trans (sends_set hget hold j out).symm
    obtain ⟨data,addr⟩ := out
    simp only [List.mem_singleton,Prod.mk.injEq,Datagram.mk.injEq,Stage.ended.injEq,
      Ending.sent.injEq]
    exact and_congr_right fun _ => and_congr_left fun _ => eq_comm
  · rw [List.map_append]
    refine List.Nodup.append h.once (List.nodup_singleton _) ?_
    intro j hj hmem
    obtain rfl := List.mem_singleton.mp hmem
    obtain ⟨⟨_,out⟩,hout,rfl⟩ := List.mem_map.mp hj
    obtain ⟨other,hother,hsent,-⟩ := (h.sent _ out).mp hout
    cases hget.symm.trans hother
    exact hold.2 _ hsent
  · simp only [Listener.setTask]
    rw [map_datagram_set hget { task with stage := .ended (.sent wire) } rfl]
    exact h.accepted
  · simp only [Listener.setTask]
    rw [raised_set hget hold,← h.cancelled]
    simp

theorem sends_append (tasks : List (Task A)) (d : Datagram A) (out : Datagram A) :
    Sends (tasks ++ [{ datagram := d }]) i out ↔ Sends tasks i out := by
  constructor
  · rintro ⟨task,htask,hsent,haddr⟩
    by_cases hi : i < tasks.length
    · rw [List.getElem?_append_left hi] at htask
      exact ⟨task,htask,hsent,haddr⟩
    · rw [List.getElem?_append_right (by omega)] at htask
      obtain rfl := List.mem_singleton.mp (List.mem_of_getElem? htask)
      cases hsent
  · rintro ⟨task,htask,hsent⟩
    refine ⟨task,?_,hsent⟩
    rw [List.getElem?_append_left (List.getElem?_eq_some_iff.mp htask).1]
    exact htask

theorem Inv.accept (h : Inv format codec s) {d : Datagram A} {buffer : List (Datagram A)}
    (hbuffer : s.buffer = d :: buffer) :
    Inv format codec { s with buffer, tasks := s.tasks ++ [{ datagram := d }] } where
  explained task htask := by
    obtain htask | htask := List.mem_append.mp htask
    · exact h.explained task htask
    · rw [List.mem_singleton.mp htask]
      exact trivial
  sent i out := (h.sent i out).trans (sends_append s.tasks d out).symm
  once := h.once
  accepted := by
    have haccepted := h.accepted
    rw [hbuffer] at haccepted
    simpa using haccepted
  cancelled := by
    rw [h.cancelled]
    simp [or_and_right,exists_or]

theorem begin_explains (format : WireFormat) (codec : Codec W) (socket : Socket) (task : Task A) :
    Explains format codec socket { task with stage := begin format socket task.datagram.data } ∧
      (begin format socket task.datagram.data).Quiet := by
  unfold begin
  split
  · rename_i hgone
    exact ⟨hgone,by simp [Stage.Quiet]⟩
  · cases hwire : format.fromWire task.datagram.data with
    | error e => exact ⟨⟨e,hwire⟩,by simp [Stage.Quiet]⟩
    | ok request => exact ⟨hwire,by simp [Stage.Quiet]⟩

theorem respond_explains {request : Message} {r : Except PyException (Option Message)}
    (hwire : format.fromWire task.datagram.data = .ok request) (hr : Handles codec request r)
    (s : Listener A) :
    Explains format codec s.socket
        { task with stage := respond format s r, answer := some r } ∧
      ∀ wire, respond format s r ≠ .ended (.sent wire) := by
  have hgets : Gets format codec { task with stage := respond format s r, answer := some r } r :=
    ⟨rfl,request,hwire,hr⟩
  generalize hstage : respond format s r = stage at hgets
  obtain e | _ | response := r
  · have hraised : Stage.raised = stage := hstage
    cases hraised
    exact ⟨⟨e,hgets⟩,by simp⟩
  · have hdropped : Stage.ended .dropped = stage := hstage
    cases hdropped
    exact ⟨hgets,by simp⟩
  · simp only [respond] at hstage
    split at hstage
    · rename_i hgone
      cases hstage
      exact ⟨⟨hgone,response,hgets⟩,by simp⟩
    · cases hencoded : format.toWire response with
      | error e =>
        rw [hencoded] at hstage
        cases hstage
        exact ⟨⟨response,e,hgets,hencoded⟩,by simp⟩
      | ok wire =>
        simp only [hencoded] at hstage
        split at hstage
        · cases hstage
          exact ⟨⟨response,hgets⟩,by simp⟩
        · cases hstage
          exact ⟨⟨response,hgets,hencoded⟩,by simp⟩

theorem Inv.answer (h : Inv format codec s) {r : Except PyException (Option Message)}
    (hr : FromPipeline codec s (.answer i r)) (hstep : step format s (.answer i r) = some s') :
    Inv format codec s' := by
  simp only [step] at hstep
  split at hstep
  · rename_i task hget
    have hturn {request : Message} (hstage : task.stage = .asking request) (writer : Option ℕ)
        (cancelled : Bool)
        (hcancelled : cancelled = true ↔ s.cancelled = true ∨ respond format s r = .raised) :
        Inv format codec { s.setTask i { task with
          stage := respond format s r, answer := some r } with writer, cancelled } := by
      have hwire := h.explained task (List.mem_of_getElem? hget)
      unfold Explains at hwire
      rw [hstage] at hwire
      obtain ⟨hexplains,hnew⟩ := respond_explains hwire (hr task request hget hstage) s
      exact h.turn hget (by simp [hstage,Stage.Quiet])
        { task with stage := respond format s r, answer := some r } hnew rfl hexplains writer
        hcancelled
    split at hstep
    · rename_i request hstage hraised
      cases hstep
      have hnext := hturn hstage s.writer true (by simp [hraised])
      rwa [hraised] at hnext
    · rename_i request wire hstage hwriting
      cases hstep
      have hnext := hturn hstage (some i) s.cancelled (by simp [hwriting])
      rwa [hwriting] at hnext
    · rename_i request hstage hraised _
      cases hstep
      have hnot : respond format s r ≠ .raised := hraised
      exact hturn hstage s.writer s.cancelled (by simp [hnot])
    · cases hstep
  · cases hstep

theorem Explains.later {socket socket' : Socket} (h : Explains format codec socket task)
    (hsocket : socket = .gone → socket' = .gone) : Explains format codec socket' task := by
  unfold Explains at h ⊢
  split at h
  all_goals first
    | exact h
    | exact hsocket h
    | exact ⟨hsocket h.1,h.2⟩

theorem Inv.socket (h : Inv format codec s) {socket : Socket}
    (hsocket : s.socket = .gone → socket = .gone) : Inv format codec { s with socket } :=
  ⟨fun task htask => (h.explained task htask).later hsocket,h.sent,h.once,h.accepted,h.cancelled⟩

theorem Inv.step {event : Event A} (h : Inv format codec s) (hok : FromPipeline codec s event)
    (hstep : step format s event = some s') : Inv format codec s' := by
  cases event with
  | arrive d =>
    simp only [Udp.step,Option.ite_none_right_eq_some,Option.some.injEq] at hstep
    obtain ⟨-,rfl⟩ := hstep
    refine ⟨h.explained,h.sent,h.once,?_,h.cancelled⟩
    rw [← List.append_assoc]
    exact h.accepted.append (List.Sublist.refl [d])
  | overflow =>
    cases hstep
    refine ⟨h.explained,h.sent,h.once,?_,h.cancelled⟩
    exact ((List.Sublist.refl _).append (List.tail_sublist _)).trans h.accepted
  | accept =>
    simp only [Udp.step] at hstep
    split at hstep
    · cases hstep
    · rename_i hbuffer
      cases hstep
      exact h.accept hbuffer
  | start i =>
    simp only [Udp.step] at hstep
    split at hstep
    · rename_i task hget
      split at hstep
      · rename_i hstage
        cases hstep
        obtain ⟨hexplains,hraised,hsent⟩ := begin_explains format codec s.socket task
        exact h.turn hget (by simp [hstage,Stage.Quiet])
          { task with stage := begin format s.socket task.datagram.data } hsent rfl hexplains
          s.writer (by simp [hraised])
      · cases hstep
    · cases hstep
  | answer i r => exact h.answer hok hstep
  | written i =>
    simp only [Udp.step] at hstep
    split at hstep
    · rename_i task hget
      split at hstep
      · rename_i hstage _
        cases hstep
        exact h.written hget hstage
      · cases hstep
    · cases hstep
  | unwritten i =>
    simp only [Udp.step] at hstep
    split at hstep
    · rename_i task hget
      split at hstep
      · rename_i wire hstage
        cases hstep
        have hexplains := h.explained task (List.mem_of_getElem? hget)
        unfold Explains at hexplains
        rw [hstage] at hexplains
        obtain ⟨response,hgets,-⟩ := hexplains
        exact h.turn hget (by simp [hstage,Stage.Quiet]) { task with stage := .ended .unwritten }
          (by simp) rfl ⟨response,hgets⟩ none (by simp [Listener.setTask])
      · cases hstep
    · cases hstep
  | close =>
    cases hstep
    refine h.socket fun hgone => ?_
    simp [hgone]
  | forget =>
    simp only [Udp.step,Option.ite_none_right_eq_some,Option.some.injEq] at hstep
    obtain ⟨-,rfl⟩ := hstep
    exact h.socket fun _ => rfl

theorem Inv.run {events : List (Event A)} (h : Inv format codec s)
    (hguarded : Transition.Guarded (Udp.step format) (FromPipeline codec) s events)
    (hrun : Transition.run (Udp.step format) s events = some s') : Inv format codec s' :=
  (hguarded.always h fun _ _ _ h hok hstep => h.step hok hstep).final hrun

end

/-! ### What clients see -/

structure Serves (format : WireFormat) (s : Listener A) : Prop where
  once : (s.sent.map Prod.fst).Nodup
  replied : ∀ i out, (i,out) ∈ s.sent → ∃ task request response, s.tasks[i]? = some task ∧
    out.addr = task.datagram.addr ∧ format.fromWire task.datagram.data = .ok request ∧
    task.answer = some (.ok (some response)) ∧ format.fromWire out.data = .ok response.merged ∧
    response.id = request.id
  accepted : (s.tasks.map Task.datagram).Sublist s.arrived
  ended : s.socket ≠ .gone → ∀ i task ending, s.tasks[i]? = some task →
    task.stage = .ended ending →
      ending = .malformed ∧ (∃ e, format.fromWire task.datagram.data = .error e) ∨
      ending = .dropped ∧ task.answer = some (.ok none) ∨
      ∃ response, task.answer = some (.ok (some response)) ∧
        ((∃ e, format.toWire response = .error e) ∨ ending = .busy ∨ ending = .unwritten ∨
          ∃ wire, format.toWire response = .ok wire ∧ (i,⟨wire,task.datagram.addr⟩) ∈ s.sent)
  survives : s.cancelled = true → ∃ task ∈ s.tasks, ∃ request,
    format.fromWire task.datagram.data = .ok request ∧ request.flags.qr = true

end SmartDns.Udp
