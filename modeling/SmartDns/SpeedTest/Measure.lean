import SmartDns.Core.IpText
import SmartDns.Lib.Transition
import SmartDns.SpeedTest.Plugin
set_option autoImplicit false

/-!
`SpeedTestService`: three probes measure an address, and the first that succeeds gives its time.
All measurements share the permits of one semaphore, and their tasks take turns in any order.
-/

namespace SmartDns

namespace SpeedTest

/-! ### Probes -/

inductive Probe where
  | ping | tcp80 | tcp443
  deriving DecidableEq, Repr

def Probe.all : List Probe := [.ping,.tcp80,.tcp443]

@[simp] theorem Probe.mem_all (p : Probe) : p ∈ Probe.all := by
  cases p <;> decide

/-- What the plugin keeps of it is `IpRttResult`. -/
structure RttResult extends IpRttResult where
  pingMs : Option Ms := none
  tcp80Ms : Option Ms := none
  tcp443Ms : Option Ms := none
  deriving DecidableEq

/-- The host that `async_ping` gives. -/
structure PingHost where
  isAlive : Bool
  rtts : List Ms
  avgRtt : Option Ms

inductive ConnectReply where
  | connected | refused | failed

/-- What the network answers to a probe, and how long it takes. -/
structure Reply where
  host : Except PyException PingHost
  opened : Except PyException Unit
  connect : ConnectReply
  elapsed : Ms

def probeIcmp (reply : Reply) : Option Ms :=
  match reply.host with
  | .error _ => none
  | .ok host =>
    if host.isAlive = false ∨ host.rtts = [] then none else some (host.avgRtt.getD reply.elapsed)

inductive SocketTarget where
  | inet (ip : Ip) (port : ℕ)
  | inet6 (ip : Ip) (port : ℕ)

/-- None stands for a `ValueError`. -/
def buildSocketTarget (hasIpv6 : Bool) (ip : Ip) (port : ℕ) : Option SocketTarget :=
  match IpText.ipAddress ip with
  | none => none
  | some (.v4 _) => some (.inet ip port)
  | some (.v6 _) => if hasIpv6 then some (.inet6 ip port) else none

def probeTcp (hasIpv6 : Bool) (ip : Ip) (port : ℕ) (reply : Reply) :
    Except PyException (Option Ms) :=
  match buildSocketTarget hasIpv6 ip port with
  | none => .ok none
  | some _ => do
    reply.opened
    match reply.connect with
    | .connected | .refused => .ok (some reply.elapsed)
    | .failed => .ok none

def probeOutcome (hasIpv6 : Bool) (ip : Ip) (reply : Reply) :
    Probe → Except PyException (Option Ms)
  | .ping => .ok (probeIcmp reply)
  | .tcp80 => probeTcp hasIpv6 ip 80 reply
  | .tcp443 => probeTcp hasIpv6 ip 443 reply

/-! ### Measurements -/

/-- A probe's task in `_run_probe`, which has a permit while it probes. -/
inductive Task where
  | queued | probing
  | done (outcome : Except PyException (Option Ms))
  | cancelled

/-- `_measure_ip_uncached` waits for one of the pending probes, or it has cancelled those that
are left and waits for their end, or it has ended. -/
inductive Stage where
  | waiting (pending : List Probe)
  | closing (outcome : Except PyException RttResult)
  | returned (outcome : Except PyException RttResult)

structure Measurement where
  ip : Ip
  tasks : Probe → Task := fun _ => .queued
  stage : Stage := .waiting Probe.all

def cancelledError : PyException := ⟨.other,"CancelledError",""⟩

def RttResult.of (ip : Ip) (p : Probe) (ms : Ms) : RttResult where
  ip := ip
  pingMs := if p = .ping then some ms else none
  tcp80Ms := if p = .tcp80 then some ms else none
  tcp443Ms := if p = .tcp443 then some ms else none
  bestMs := some ms

/-- The loop over the tasks that are done, in the order in which the set gives them. -/
def takeDone (ip : Ip) (tasks : Probe → Task) : List Probe → List Probe → Stage
  | [],[] => .closing (.ok { ip })
  | [],pending => .waiting pending
  | p :: order,pending =>
    match tasks p with
    | .done (.ok (some ms)) => .closing (.ok (.of ip p ms))
    | .done (.error e) => .closing (.error e)
    | .done (.ok none) => takeDone ip tasks order (pending.erase p)
    | .queued | .probing | .cancelled => .waiting pending

def Task.isDone : Task → Bool
  | .done _ => true
  | _ => false

/-- A task that is done or cancelled. -/
def Task.ended : Task → Bool
  | .done _ | .cancelled => true
  | .queued | .probing => false

def Measurement.withTask (m : Measurement) (p : Probe) (task : Task) : Measurement :=
  { m with tasks := Function.update m.tasks p task }

inductive Move where
  | acquire (p : Probe)
  | complete (p : Probe) (reply : Reply)
  | cancelProbe (p : Probe)
  | wake (order : List Probe)
  | cancel
  | close

/-- A move of a measurement, and the permits that are free before and after it. A task that is
cancelled while it waits for a permit gets none, and one that has a permit gives it back. -/
def Measurement.move (hasIpv6 : Bool) (m : Measurement) (permits : ℕ) :
    Move → Option (Measurement × ℕ)
  | .acquire p =>
    match m.stage,m.tasks p,permits with
    | .waiting _,.queued,permits+1 => some (m.withTask p .probing,permits)
    | _,_,_ => none
  | .complete p reply =>
    match m.tasks p with
    | .probing => some (m.withTask p (.done (probeOutcome hasIpv6 m.ip reply p)),permits+1)
    | _ => none
  | .cancelProbe p =>
    match m.stage,m.tasks p with
    | .closing _,.queued => some (m.withTask p .cancelled,permits)
    | .closing _,.probing => some (m.withTask p .cancelled,permits+1)
    | _,_ => none
  | .wake order =>
    match m.stage with
    | .waiting pending =>
      if order ≠ [] ∧ order.Nodup ∧
          ∀ p ∈ Probe.all, p ∈ order ↔ p ∈ pending ∧ (m.tasks p).isDone = true then
        some ({ m with stage := takeDone m.ip m.tasks order pending },permits)
      else none
    | _ => none
  | .cancel =>
    match m.stage with
    | .waiting _ | .closing _ => some ({ m with stage := .closing (.error cancelledError) },permits)
    | .returned _ => none
  | .close =>
    match m.stage with
    | .closing outcome =>
      if ∀ p ∈ Probe.all, (m.tasks p).ended = true then
        some ({ m with stage := .returned outcome },permits)
      else none
    | _ => none

/-! ### The service -/

structure Service where
  permits : ℕ
  measurements : List Measurement := []

inductive Event where
  | start (ip : Ip)
  | move (i : ℕ) (move : Move)

def step (hasIpv6 : Bool) (s : Service) : Event → Option Service
  | .start ip => some { s with measurements := s.measurements ++ [{ ip }] }
  | .move i move => do
    let m ← s.measurements[i]?
    let (m',permits) ← m.move hasIpv6 s.permits move
    some { permits, measurements := s.measurements.set i m' }

/-! ### What a measurement says -/

/-- The move that an event is, where it is one of the measurement at an index. -/
def Event.moveOf (i : ℕ) : Event → Option Move
  | .start _ => none
  | .move j made => if j = i then some made else none

def movesOf (i : ℕ) (events : List Event) : List Move := events.filterMap (Event.moveOf i)

@[simp] theorem movesOf_start (i : ℕ) (events : List Event) (ip : Ip) :
    movesOf i (events ++ [.start ip]) = movesOf i events := by
  simp [movesOf,Event.moveOf]

@[simp] theorem movesOf_self (i : ℕ) (events : List Event) (move : Move) :
    movesOf i (events ++ [.move i move]) = movesOf i events ++ [move] := by
  simp [movesOf,Event.moveOf]

theorem movesOf_ne {i j : ℕ} (h : j ≠ i) (events : List Event) (move : Move) :
    movesOf i (events ++ [.move j move]) = movesOf i events := by
  simp [movesOf,Event.moveOf,h]

/-- The outcome is that of a probe, unless all probes failed or, by one of the measurement's
moves so far, it was cancelled. -/
inductive Explains (moves : List Move) (ip : Ip) (tasks : Probe → Task) :
    Except PyException RttResult → Prop where
  | first {p : Probe} {ms : Ms} (h : tasks p = .done (.ok (some ms))) :
      Explains moves ip tasks (.ok (.of ip p ms))
  | failed (h : ∀ p, tasks p = .done (.ok none)) : Explains moves ip tasks (.ok { ip })
  | raised {p : Probe} {e : PyException} (h : tasks p = .done (.error e)) :
      Explains moves ip tasks (.error e)
  | cancelled (h : .cancel ∈ moves) : Explains moves ip tasks (.error cancelledError)

def Accounted (moves : List Move) (ip : Ip) (tasks : Probe → Task) : Stage → Prop
  | .waiting pending => pending ≠ [] ∧ pending.Nodup ∧
      (∀ p, p ∉ pending → tasks p = .done (.ok none)) ∧ ∀ p, tasks p ≠ .cancelled
  | .closing outcome => Explains moves ip tasks outcome
  | .returned outcome => Explains moves ip tasks outcome ∧ ∀ p, (tasks p).ended = true

def Task.held : Task → ℕ
  | .probing => 1
  | _ => 0

def Task.weight : Task → ℕ
  | .queued => 2
  | .probing => 1
  | .done _ | .cancelled => 0

def Stage.work : Stage → ℕ
  | .waiting pending => 2 + pending.length
  | .closing _ => 1
  | .returned _ => 0

@[simp] theorem work_waiting (pending : List Probe) :
    (Stage.waiting pending).work = 2 + pending.length := rfl

@[simp] theorem work_closing (outcome : Except PyException RttResult) :
    (Stage.closing outcome).work = 1 := rfl

@[simp] theorem work_returned (outcome : Except PyException RttResult) :
    (Stage.returned outcome).work = 0 := rfl

def Measurement.held (m : Measurement) : ℕ := (Probe.all.map fun p => (m.tasks p).held).sum

def Measurement.work (m : Measurement) : ℕ :=
  (Probe.all.map fun p => (m.tasks p).weight).sum + m.stage.work

/-- Only `cancel` is no progress. -/
def Move.cost : Move → ℕ
  | .cancel => 0
  | _ => 1

def turns (moves : List Move) : ℕ := (moves.map Move.cost).sum

@[simp] theorem turns_concat (moves : List Move) (move : Move) :
    turns (moves ++ [move]) = turns moves + move.cost := by
  simp [turns]

theorem sum_update (f : Task → ℕ) (tasks : Probe → Task) (p : Probe) (task : Task) :
    (Probe.all.map fun q => f (Function.update tasks p task q)).sum + f (tasks p) =
      (Probe.all.map fun q => f (tasks q)).sum + f task := by
  cases p <;> simp [Probe.all,Function.update] <;> omega

theorem Task.ended_false {task : Task} (h : task.ended = false) :
    task = .queued ∨ task = .probing := by
  cases task with
  | queued => exact .inl rfl
  | probing => exact .inr rfl
  | done _ | cancelled => cases h

variable {hasIpv6 : Bool} {m m' : Measurement} {permits permits' : ℕ} {move : Move} {ip : Ip}
  {tasks : Probe → Task} {moves : List Move}

/-- A move turns one task that has not ended, takes the tasks that are done, cancels or closes. -/
theorem move_cases (h : m.move hasIpv6 permits move = some (m',permits')) :
    (∃ p task, m' = m.withTask p task ∧ (m.tasks p).ended = false ∧
      (task = .cancelled → ∃ outcome, m.stage = .closing outcome) ∧
      permits' + task.held = permits + (m.tasks p).held ∧ task.weight < (m.tasks p).weight) ∨
    permits' = permits ∧
      ((∃ pending order, m.stage = .waiting pending ∧ order ≠ [] ∧ order.Nodup ∧
        (∀ p ∈ order, p ∈ pending ∧ (m.tasks p).isDone = true) ∧
        m' = { m with stage := takeDone m.ip m.tasks order pending }) ∨
      move = .cancel ∧ (∀ outcome, m.stage ≠ .returned outcome) ∧
        m' = { m with stage := .closing (.error cancelledError) } ∨
      ∃ outcome, m.stage = .closing outcome ∧ (∀ p, (m.tasks p).ended = true) ∧
        m' = { m with stage := .returned outcome }) := by
  cases move with
  | acquire p =>
    simp only [Measurement.move] at h
    split at h
    · rename_i hstage htask
      cases h
      exact .inl ⟨p,.probing,rfl,by rw [htask]; rfl,nofun,by rw [htask]; rfl,
        by rw [htask]; decide⟩
    · cases h
  | complete p reply =>
    simp only [Measurement.move] at h
    split at h
    · rename_i htask
      cases h
      exact .inl ⟨p,_,rfl,by rw [htask]; rfl,nofun,by rw [htask]; rfl,
        by rw [htask]; exact Nat.one_pos⟩
    · cases h
  | cancelProbe p =>
    simp only [Measurement.move] at h
    split at h
    · rename_i hstage htask
      cases h
      exact .inl ⟨p,.cancelled,rfl,by rw [htask]; rfl,fun _ => ⟨_,hstage⟩,by rw [htask]; rfl,
        by rw [htask]; decide⟩
    · rename_i hstage htask
      cases h
      exact .inl ⟨p,.cancelled,rfl,by rw [htask]; rfl,fun _ => ⟨_,hstage⟩,by rw [htask]; rfl,
        by rw [htask]; decide⟩
    · cases h
  | wake order =>
    simp only [Measurement.move] at h
    split at h
    · rename_i pending hstage
      split at h
      · rename_i hcond
        cases h
        obtain ⟨hne,hnodup,hmem⟩ := hcond
        exact .inr ⟨rfl,.inl ⟨pending,order,hstage,hne,hnodup,
          fun p hp => (hmem p (Probe.mem_all p)).mp hp,rfl⟩⟩
      · cases h
    · cases h
  | cancel =>
    simp only [Measurement.move] at h
    split at h
    · rename_i hstage
      cases h
      refine .inr ⟨rfl,.inr (.inl ⟨rfl,fun outcome hreturned => ?_,rfl⟩)⟩
      rw [hreturned] at hstage
      cases hstage
    · rename_i hstage
      cases h
      refine .inr ⟨rfl,.inr (.inl ⟨rfl,fun outcome hreturned => ?_,rfl⟩)⟩
      rw [hreturned] at hstage
      cases hstage
    · cases h
  | close =>
    simp only [Measurement.move] at h
    split at h
    · rename_i outcome hstage
      split at h
      · rename_i hended
        cases h
        exact .inr ⟨rfl,.inr (.inr ⟨outcome,hstage,fun p => hended p (Probe.mem_all p),rfl⟩)⟩
      · cases h
    · cases h

theorem Explains.more {outcome : Except PyException RttResult}
    (h : Explains moves ip tasks outcome) (move : Move) :
    Explains (moves ++ [move]) ip tasks outcome := by
  cases h with
  | first h => exact .first h
  | failed h => exact .failed h
  | raised h => exact .raised h
  | cancelled h => exact .cancelled (List.mem_append_left _ h)

theorem Explains.update {outcome : Except PyException RttResult}
    (h : Explains moves ip tasks outcome) {p : Probe} (hp : (tasks p).ended = false)
    (task : Task) : Explains moves ip (Function.update tasks p task) outcome := by
  have hkept {q : Probe} {o : Except PyException (Option Ms)} (hq : tasks q = .done o) :
      Function.update tasks p task q = .done o := by
    rw [Function.update_of_ne,hq]
    rintro rfl
    rw [hq] at hp
    cases hp
  cases h with
  | first h => exact .first (hkept h)
  | failed h =>
    rw [h p] at hp
    cases hp
  | raised h => exact .raised (hkept h)
  | cancelled h => exact .cancelled h

theorem takeDone_accounted {order pending : List Probe} (horder : order.Nodup)
    (hdone : ∀ p ∈ order, p ∈ pending ∧ (tasks p).isDone = true) (hnodup : pending.Nodup)
    (hfailed : ∀ p, p ∉ pending → tasks p = .done (.ok none))
    (hcancelled : ∀ p, tasks p ≠ .cancelled) :
    Accounted moves ip tasks (takeDone ip tasks order pending) := by
  induction order generalizing pending with
  | nil =>
    cases pending with
    | nil => exact .failed fun p => hfailed p List.not_mem_nil
    | cons p pending => exact ⟨List.cons_ne_nil _ _,hnodup,hfailed,hcancelled⟩
  | cons p order ih =>
    obtain ⟨hfresh,horder⟩ := List.nodup_cons.mp horder
    obtain ⟨⟨hpending,hp⟩,hdone⟩ := List.forall_mem_cons.mp hdone
    unfold takeDone
    split
    · rename_i ms htask
      exact .first htask
    · rename_i e htask
      exact .raised htask
    · rename_i htask
      refine ih horder (fun q hq => ?_) (hnodup.erase p) fun q hq => ?_
      · have hne : q ≠ p := fun heq => hfresh (heq ▸ hq)
        exact ⟨(List.mem_erase_of_ne hne).mpr (hdone q hq).1,(hdone q hq).2⟩
      · by_cases hqp : q = p
        · rw [hqp,htask]
        · exact hfailed q fun hmem => hq ((List.mem_erase_of_ne hqp).mpr hmem)
    all_goals
      rename_i htask
      rw [htask] at hp
      cases hp

theorem move_accounted (h : m.move hasIpv6 permits move = some (m',permits'))
    (hm : Accounted moves m.ip m.tasks m.stage) :
    Accounted (moves ++ [move]) m'.ip m'.tasks m'.stage := by
  obtain ⟨p,task,rfl,hp,hcancel,-,-⟩ | ⟨-,hstage⟩ := move_cases h
  · simp only [Measurement.withTask]
    cases hstage : m.stage with
    | waiting pending =>
      rw [hstage] at hm
      obtain ⟨hne,hnodup,hfailed,hcancelled⟩ := hm
      refine ⟨hne,hnodup,fun q hq => ?_,fun q => ?_⟩
      · have hqp : q ≠ p := by
          rintro rfl
          rw [hfailed q hq] at hp
          cases hp
        rw [Function.update_of_ne hqp]
        exact hfailed q hq
      · by_cases hqp : q = p
        · subst hqp
          rw [Function.update_self]
          intro htask
          obtain ⟨outcome,hclosing⟩ := hcancel htask
          rw [hstage] at hclosing
          cases hclosing
        · rw [Function.update_of_ne hqp]
          exact hcancelled q
    | closing outcome =>
      rw [hstage] at hm
      exact (Explains.update hm hp task).more move
    | returned outcome =>
      rw [hstage] at hm
      rw [hm.2 p] at hp
      cases hp
  · obtain ⟨pending,order,hwaiting,-,horder,hdone,rfl⟩ | ⟨rfl,-,rfl⟩ |
      ⟨outcome,hclosing,hended,rfl⟩ := hstage
    · rw [hwaiting] at hm
      obtain ⟨-,hnodup,hfailed,hcancelled⟩ := hm
      exact takeDone_accounted horder hdone hnodup hfailed hcancelled
    · exact .cancelled (List.mem_append_right _ (List.mem_singleton_self _))
    · rw [hclosing] at hm
      exact ⟨Explains.more hm move,hended⟩

theorem move_held (h : m.move hasIpv6 permits move = some (m',permits')) :
    permits' + m'.held = permits + m.held := by
  obtain ⟨p,task,rfl,-,-,hheld,-⟩ | ⟨rfl,hstage⟩ := move_cases h
  · have hsum := sum_update Task.held m.tasks p task
    simp only [Measurement.held,Measurement.withTask]
    omega
  · obtain ⟨_,_,-,-,-,-,rfl⟩ | ⟨-,-,rfl⟩ | ⟨_,-,-,rfl⟩ := hstage <;> rfl

theorem takeDone_work_le (order pending : List Probe) :
    (takeDone ip tasks order pending).work ≤ 2 + pending.length := by
  induction order generalizing pending with
  | nil => cases pending <;> simp [takeDone]
  | cons p order ih =>
    unfold takeDone
    split
    · rw [work_closing]
      omega
    · rw [work_closing]
      omega
    · have herase := ih (pending.erase p)
      have hlength := List.length_erase_le (a:=p) (l:=pending)
      omega
    all_goals exact Nat.le_refl _

theorem takeDone_work {order pending : List Probe} (hne : order ≠ [])
    (hdone : ∀ p ∈ order, p ∈ pending ∧ (tasks p).isDone = true) :
    (takeDone ip tasks order pending).work < 2 + pending.length := by
  obtain ⟨p,order,rfl⟩ := List.exists_cons_of_ne_nil hne
  obtain ⟨hpending,hp⟩ := hdone p List.mem_cons_self
  unfold takeDone
  split
  · rw [work_closing]
    omega
  · rw [work_closing]
    omega
  · have herase := @takeDone_work_le ip tasks order (pending.erase p)
    have hlength := List.length_erase_of_mem hpending
    have hpos := List.length_pos_of_mem hpending
    omega
  all_goals
    rename_i htask
    rw [htask] at hp
    cases hp

theorem move_work (h : m.move hasIpv6 permits move = some (m',permits')) :
    m'.work + move.cost ≤ m.work := by
  have hcost : move.cost ≤ 1 := by cases move <;> simp [Move.cost]
  obtain ⟨p,task,rfl,-,-,-,hweight⟩ | ⟨-,hstage⟩ := move_cases h
  · have hsum := sum_update Task.weight m.tasks p task
    simp only [Measurement.work,Measurement.withTask]
    omega
  · obtain ⟨pending,order,hwaiting,hne,-,hdone,rfl⟩ | ⟨rfl,hopen,rfl⟩ |
      ⟨outcome,hclosing,-,rfl⟩ := hstage
    · have hwork := @takeDone_work m.ip _ _ _ hne hdone
      simp only [Measurement.work,hwaiting,work_waiting]
      omega
    · cases hstage : m.stage with
      | waiting pending =>
        simp only [Measurement.work,hstage,work_waiting,work_closing,Move.cost]
        omega
      | closing outcome => simp only [Measurement.work,hstage,work_closing,Move.cost,Nat.le_refl]
      | returned outcome => exact absurd hstage (hopen outcome)
    · simp only [Measurement.work,hclosing,work_closing,work_returned]
      omega

/-! ### What the service keeps -/

/-- What a run keeps: the permits that are out are those of the tasks that probe, and each
measurement answers for the moves it has made. -/
structure Keeps (limit : ℕ) (events : List Event) (s : Service) : Prop where
  permits : s.permits + (s.measurements.map Measurement.held).sum = limit
  accounted : ∀ i m, s.measurements[i]? = some m →
    Accounted (movesOf i events) m.ip m.tasks m.stage
  bounded : ∀ i m, s.measurements[i]? = some m → turns (movesOf i events) + m.work ≤ 11
  unstarted : ∀ i, s.measurements[i]? = none → movesOf i events = []

/-- Steps by which measurements come nearer to their end. -/
def Event.cost : Event → ℕ
  | .start _ => 0
  | .move _ move => move.cost

variable {limit : ℕ} {s s' : Service} {event : Event} {events : List Event}

theorem step_cases (h : step hasIpv6 s event = some s') :
    (∃ ip, event = .start ip ∧ s' = { s with measurements := s.measurements ++ [{ ip }] }) ∨
    ∃ i move m m' permits, event = .move i move ∧ s.measurements[i]? = some m ∧
      m.move hasIpv6 s.permits move = some (m',permits) ∧
      s' = { permits, measurements := s.measurements.set i m' } := by
  cases event with
  | start ip =>
    cases h
    exact .inl ⟨ip,rfl,rfl⟩
  | move i move =>
    obtain ⟨m,hm,h⟩ := Option.bind_eq_some_iff.mp h
    obtain ⟨⟨m',permits⟩,hmove,h⟩ := Option.bind_eq_some_iff.mp h
    cases h
    exact .inr ⟨i,move,m,m',permits,rfl,hm,hmove,rfl⟩

theorem accounted_start (ip : Ip) :
    Accounted moves ip (fun _ => .queued) (.waiting Probe.all) :=
  ⟨by decide,by decide,fun p hp => absurd (Probe.mem_all p) hp,nofun⟩

theorem Keeps.started (hs : Keeps limit events s) (ip : Ip) :
    Keeps limit (events ++ [.start ip])
      { s with measurements := s.measurements ++ [{ ip }] } := by
  -- the new measurement comes last, where no move has been made yet
  have hnew {i : ℕ} {m : Measurement}
      (hm : (s.measurements ++ [({ ip } : Measurement)])[i]? = some m) :
      s.measurements[i]? = some m ∨ movesOf i events = [] ∧ m = { ip } := by
    by_cases hi : i < s.measurements.length
    · rw [List.getElem?_append_left hi] at hm
      exact .inl hm
    · have hle := Nat.le_of_not_lt hi
      rw [List.getElem?_append_right hle] at hm
      exact .inr ⟨hs.unstarted i (List.getElem?_eq_none hle),
        List.mem_singleton.mp (List.mem_of_getElem? hm)⟩
  constructor
  · have hheld : Measurement.held { ip } = 0 := rfl
    simpa [hheld] using hs.permits
  · intro i m hm
    rw [movesOf_start]
    obtain hm | ⟨-,rfl⟩ := hnew hm
    · exact hs.accounted i m hm
    · exact accounted_start ip
  · intro i m hm
    rw [movesOf_start]
    obtain hm | ⟨hmoves,rfl⟩ := hnew hm
    · exact hs.bounded i m hm
    · rw [hmoves]
      exact Nat.le_refl 11
  · intro i hi
    rw [movesOf_start]
    refine hs.unstarted i (List.getElem?_eq_none ?_)
    have hlength := List.getElem?_eq_none_iff.mp hi
    rw [List.length_append] at hlength
    omega

theorem Keeps.moved (hs : Keeps limit events s) {i : ℕ} (hm : s.measurements[i]? = some m)
    (hmove : m.move hasIpv6 s.permits move = some (m',permits)) :
    Keeps limit (events ++ [.move i move])
      { permits, measurements := s.measurements.set i m' } := by
  have hi := (List.getElem?_eq_some_iff.mp hm).1
  -- the other measurements, and the moves they have made, are as before
  have hset {j : ℕ} {other : Measurement} (hother : (s.measurements.set i m')[j]? = some other) :
      i = j ∧ other = m' ∨ i ≠ j ∧ s.measurements[j]? = some other := by
    by_cases hij : i = j
    · subst hij
      rw [List.getElem?_set_self hi] at hother
      exact .inl ⟨rfl,(Option.some.inj hother).symm⟩
    · rw [List.getElem?_set_ne hij] at hother
      exact .inr ⟨hij,hother⟩
  constructor
  · have hsum := Transition.sum_set Measurement.held hm m'
    have hheld := move_held hmove
    have hpermits := hs.permits
    simp only
    omega
  · intro j other hother
    obtain ⟨rfl,rfl⟩ | ⟨hij,hother⟩ := hset hother
    · rw [movesOf_self]
      exact move_accounted hmove (hs.accounted i m hm)
    · rw [movesOf_ne hij]
      exact hs.accounted j other hother
  · intro j other hother
    obtain ⟨rfl,rfl⟩ | ⟨hij,hother⟩ := hset hother
    · rw [movesOf_self,turns_concat]
      have hturns := hs.bounded i m hm
      have hwork := move_work hmove
      omega
    · rw [movesOf_ne hij]
      exact hs.bounded j other hother
  · intro j hj
    have hlength := List.getElem?_eq_none_iff.mp hj
    rw [List.length_set] at hlength
    have hij : i ≠ j := by omega
    rw [movesOf_ne hij]
    exact hs.unstarted j (List.getElem?_eq_none hlength)

theorem step_keeps (hs : Keeps limit events s) (h : step hasIpv6 s event = some s') :
    Keeps limit (events ++ [event]) s' := by
  obtain ⟨ip,rfl,rfl⟩ | ⟨i,move,m,m',permits,rfl,hm,hmove,rfl⟩ := step_cases h
  · exact hs.started ip
  · exact hs.moved hm hmove

theorem run_keeps (h : Transition.run (step hasIpv6) { permits := limit } events = some s) :
    Keeps limit events s := by
  have hstart : Keeps limit [] { permits := limit } :=
    ⟨rfl,nofun,nofun,fun _ _ => rfl⟩
  exact Transition.run_history hstart (fun _ _ _ _ => step_keeps) h

theorem Keeps.turns_le (hs : Keeps limit events s) (i : ℕ) : turns (movesOf i events) ≤ 11 := by
  cases hm : s.measurements[i]? with
  | none =>
    rw [hs.unstarted i hm]
    exact Nat.zero_le 11
  | some m => exact Nat.le_of_add_right_le (hs.bounded i m hm)

/-! ### Nothing waits for ever -/

def Stuck (hasIpv6 : Bool) (s : Service) : Prop :=
  ∀ event : Event, 0 < event.cost → step hasIpv6 s event = none

theorem Stuck.no_move (h : Stuck hasIpv6 s) {i : ℕ} (hm : s.measurements[i]? = some m)
    (move : Move) (hcost : 0 < move.cost) : m.move hasIpv6 s.permits move = none := by
  have hstep := h (.move i move) hcost
  simp only [step,hm,Option.bind_eq_bind,Option.bind_some,Option.bind_eq_none_iff] at hstep
  cases hmove : m.move hasIpv6 s.permits move with
  | none => rfl
  | some result => cases hstep result hmove

def noReply : Reply := ⟨.ok ⟨false,[],none⟩,.ok (),.failed,0⟩

theorem Stuck.not_probing (h : Stuck hasIpv6 s) {i : ℕ} (hm : s.measurements[i]? = some m)
    (p : Probe) : m.tasks p ≠ .probing := by
  intro htask
  have hmove := h.no_move hm (.complete p noReply) Nat.one_pos
  simp [Measurement.move,htask] at hmove

theorem Stuck.all_free (h : Stuck hasIpv6 s) (hs : Keeps limit events s) : s.permits = limit := by
  have hheld : ∀ n ∈ s.measurements.map Measurement.held, n = 0 := by
    intro n hn
    obtain ⟨m,hmem,rfl⟩ := List.mem_map.mp hn
    obtain ⟨i,hm⟩ := List.mem_iff_getElem?.mp hmem
    have hzero (p : Probe) : (m.tasks p).held = 0 := by
      cases htask : m.tasks p with
      | probing => exact absurd htask (h.not_probing hm p)
      | queued | done _ | cancelled => rfl
    simp [Measurement.held,Probe.all,hzero]
  have hpermits := hs.permits
  have hsum := List.sum_eq_zero_iff_forall_eq_nat.mpr hheld
  omega

theorem Stuck.returned (h : Stuck hasIpv6 s) (hs : Keeps limit events s) (hlimit : 0 < limit)
    (hmem : m ∈ s.measurements) : ∃ outcome, m.stage = .returned outcome := by
  obtain ⟨i,hm⟩ := List.mem_iff_getElem?.mp hmem
  cases hstage : m.stage with
  | returned outcome => exact ⟨outcome,rfl⟩
  | closing outcome =>
    have hended (p : Probe) : (m.tasks p).ended = true := by
      by_contra hp
      obtain hqueued | hprobing := Task.ended_false (Bool.not_eq_true _ ▸ hp)
      · have hmove := h.no_move hm (.cancelProbe p) Nat.one_pos
        simp [Measurement.move,hstage,hqueued] at hmove
      · exact h.not_probing hm p hprobing
    have hmove := h.no_move hm .close Nat.one_pos
    simp [Measurement.move,hstage,hended] at hmove
  | waiting pending =>
    have haccounted := hs.accounted i m hm
    rw [hstage] at haccounted
    obtain ⟨hne,hnodup,-,hcancelled⟩ := haccounted
    by_cases hdone : ∃ p ∈ pending, (m.tasks p).isDone = true
    · obtain ⟨p,hp,htask⟩ := hdone
      let order := pending.filter fun q => (m.tasks q).isDone
      have horder (q : Probe) : q ∈ order ↔ q ∈ pending ∧ (m.tasks q).isDone = true :=
        List.mem_filter
      have hmove := h.no_move hm (.wake order) Nat.one_pos
      have hcond : order ≠ [] ∧ order.Nodup ∧
          ∀ q ∈ Probe.all, q ∈ order ↔ q ∈ pending ∧ (m.tasks q).isDone = true :=
        ⟨List.ne_nil_of_mem ((horder p).mpr ⟨hp,htask⟩),hnodup.filter _,fun q _ => horder q⟩
      simp only [Measurement.move,hstage] at hmove
      rw [if_pos hcond] at hmove
      cases hmove
    · obtain ⟨p,hp⟩ := List.exists_mem_of_ne_nil pending hne
      cases htask : m.tasks p with
      | done outcome => exact absurd ⟨p,hp,by rw [htask]; rfl⟩ hdone
      | cancelled => exact absurd htask (hcancelled p)
      | probing => exact absurd htask (h.not_probing hm p)
      | queued =>
        have hmove := h.no_move hm (.acquire p) Nat.one_pos
        obtain ⟨n,hn⟩ := Nat.exists_eq_succ_of_ne_zero
          (Nat.pos_iff_ne_zero.mp ((h.all_free hs).symm ▸ hlimit))
        simp [Measurement.move,hstage,htask,hn] at hmove

/-- In whatever order the tasks take turns and whatever the network answers: no more probes run
than the semaphore allows; a measurement that has returned leaves no task behind, and says what a
probe said, or that all failed, or that it was cancelled by one of its moves; and each takes a
bounded number of turns, after which it has returned unless there are others to take. -/
theorem measurements_return
    (h : Transition.run (step hasIpv6) { permits := limit } events = some s) :
    s.permits + (s.measurements.map Measurement.held).sum = limit ∧
    (∀ i m outcome, s.measurements[i]? = some m → m.stage = .returned outcome →
      Explains (movesOf i events) m.ip m.tasks outcome ∧ ∀ p, (m.tasks p).ended = true) ∧
    (∀ i, turns (movesOf i events) ≤ 11) ∧
    (0 < limit → Stuck hasIpv6 s →
      ∀ m ∈ s.measurements, ∃ outcome, m.stage = .returned outcome) := by
  have hs := run_keeps h
  refine ⟨hs.permits,fun i m outcome hm hstage => ?_,hs.turns_le,fun hlimit hstuck m hm =>
    hstuck.returned hs hlimit hm⟩
  have haccounted := hs.accounted i m hm
  rw [hstage] at haccounted
  exact haccounted

/-! ### One permit -/

def aliveReply : Reply := { noReply with host := .ok ⟨true,[5],some 5⟩ }

/-- The answer to the ping ends the measurement, and the probes that got no permit are left. -/
def pingedEvents : List Event :=
  [.start "1.1.1.1".toList,.move 0 (.acquire .ping),.move 0 (.complete .ping aliveReply),
    .move 0 (.wake [.ping]),.move 0 (.cancelProbe .tcp80),.move 0 (.cancelProbe .tcp443),
    .move 0 .close]

theorem measurements_return_pinged : ∃ s m,
    Transition.run (step true) { permits := 1 } pingedEvents = some s ∧ s.measurements = [m] ∧
      s.permits + m.held = 1 ∧ m.stage = .returned (.ok (.of "1.1.1.1".toList .ping 5)) ∧
      Explains (movesOf 0 pingedEvents) m.ip m.tasks (.ok (.of "1.1.1.1".toList .ping 5)) := by
  have hrun : ∃ s, Transition.run (step true) { permits := 1 } pingedEvents = some s ∧
      ∃ m, s.measurements = [m] ∧
        m.stage = .returned (.ok (.of "1.1.1.1".toList .ping 5)) := ⟨_,rfl,_,rfl,rfl⟩
  obtain ⟨s,hrun,m,hm,hstage⟩ := hrun
  obtain ⟨hpermits,hreturned,-⟩ := measurements_return hrun
  have hfirst : s.measurements[0]? = some m := by rw [hm]; rfl
  rw [hm] at hpermits
  exact ⟨s,m,hrun,hm,hpermits,hstage,(hreturned 0 m _ hfirst hstage).1⟩

end SpeedTest

end SmartDns
