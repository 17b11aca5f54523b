import SmartDns.Lib.Conveyor
import SmartDns.QueryLog.Subscription
set_option autoImplicit false

/-!
How the query logs of the workers come to the master's store: through the buffer of the worker's
process into the result queue, from there to the loop's callbacks, and into a task each. Callbacks
and tasks run in the order in which they were handed to the loop, and one thread reads the queue.
-/

namespace SmartDns.QueryLogPipe

open Conveyor (Orderly sentBy)
open QueryLog (Log numbered)

/-! ### The parties -/

/-- The `worker_id` and `generation` of a message. -/
structure Sender where
  workerId : Nat
  generation : Nat
  deriving DecidableEq, Repr

/-- A message in the result queue. Those of other types have no payload. -/
structure ResultMessage (P : Type) where
  sender : Sender
  payload : Option P

variable {P : Type}

def ResultMessage.log (m : ResultMessage P) : Option (Sender × P) :=
  m.payload.map fun payload => (m.sender,payload)

def logs (messages : List (ResultMessage P)) : List (Sender × P) :=
  messages.filterMap ResultMessage.log

/-- `taken` counts the places of the result queue that are taken: a place is taken with `put` and
is free again when the reader has the message, but not when its process ends. What the processes
have not written yet is `buffered`. What the workers have logged is `logged`; `stored` has come to
the store that is there, `retired` to stores that are gone, and `lost` counts the rest. -/
structure Pipe (P : Type) where
  queueSize : Nat
  workers : List Sender
  taken : Nat := 0
  buffered : List (ResultMessage P) := []
  queue : List (ResultMessage P) := []
  callbacks : List (ResultMessage P) := []
  tasks : List (Sender × P) := []
  store : Option (Log P)
  logged : List (Sender × P) := []
  stored : List (Sender × P) := []
  retired : List (Sender × P) := []
  lost : Nat := 0

def Pipe.delivered (s : Pipe P) : List (Sender × P) := s.retired ++ s.stored

inductive Label (P : Type) where
  | append (sender : Sender) (payload : P)
  | put (sender : Sender)
  | write (i : Nat)
  | exit (sender : Sender)
  | read
  | handleResult
  | handleQueryLog
  | restart (workers : List Sender)
  | rebuild (workers : List Sender)
  | enable (maxEntries : Nat)
  | disable

def Pipe.enqueue (s : Pipe P) (m : ResultMessage P) : Pipe P :=
  { s with taken := s.taken+1, buffered := s.buffered ++ [m] }

def step (s : Pipe P) : Label P → Option (Pipe P)
  -- `put_nowait` gives the log up where the queue is full
  | .append sender payload =>
    let s := { s with logged := s.logged ++ [(sender,payload)] }
    if s.taken < s.queueSize then some (s.enqueue ⟨sender,some payload⟩)
    else some { s with lost := s.lost+1 }
  | .put sender => if s.taken < s.queueSize then some (s.enqueue ⟨sender,none⟩) else none
  -- the thread that writes for a process takes its messages in their order
  | .write i =>
    match s.buffered[i]? with
    | none => none
    | some m =>
      if ∀ other ∈ s.buffered.take i, other.sender ≠ m.sender then
        some { s with buffered := s.buffered.eraseIdx i, queue := s.queue ++ [m] }
      else none
  | .exit sender => some { s with
      buffered := s.buffered.filter fun m => m.sender ≠ sender
      lost := s.lost+(logs (s.buffered.filter fun m => m.sender = sender)).length }
  | .read =>
    match s.queue with
    | [] => none
    | m :: queue => some { s with queue, callbacks := s.callbacks ++ [m], taken := s.taken-1 }
  | .handleResult =>
    match s.callbacks with
    | [] => none
    | m :: callbacks =>
      match m.log with
      | none => some { s with callbacks }
      | some entry =>
        if m.sender ∈ s.workers then some { s with callbacks, tasks := s.tasks ++ [entry] }
        else some { s with callbacks, lost := s.lost+1 }
  | .handleQueryLog =>
    match s.tasks with
    | [] => none
    | entry :: tasks =>
      match s.store with
      | none => some { s with tasks, lost := s.lost+1 }
      | some log => some { s with
          tasks, store := some (log.append entry.2), stored := s.stored ++ [entry] }
  | .restart workers => some { s with workers }
  | .rebuild workers => some { s with
      workers, taken := 0, buffered := [], queue := []
      lost := s.lost+(logs (s.queue ++ s.buffered)).length }
  | .enable maxEntries => some { s with
      store := some (match s.store with
        | none => ⟨QueryLogStore.new maxEntries,[]⟩
        | some log => log.resize maxEntries) }
  | .disable => some { s with store := none, retired := s.retired ++ s.stored, stored := [] }

def init (queueSize : Nat) (workers : List Sender) (maxEntries : Nat) : Pipe P where
  queueSize := queueSize
  workers := workers
  store := some ⟨QueryLogStore.new maxEntries,[]⟩

/-! ### What is on its way -/

/-- The logs that are on their way, the next to arrive first. -/
def Pipe.onTheWay (s : Pipe P) : List (Sender × P) :=
  s.tasks ++ logs (s.callbacks ++ s.queue ++ s.buffered)

def Pipe.left (s : Pipe P) : List (Sender × P) := s.delivered ++ s.onTheWay

/-- What a step does to the logs: one is sent, or is lost at once, or passes those of others in
front of it, or some are lost. -/
inductive Moves (s s' : Pipe P) : Prop where
  | sent (entry : Sender × P) (logged : s'.logged = s.logged ++ [entry])
      (left : s'.left = s.left ++ [entry]) (lost : s'.lost = s.lost)
  | refused (entry : Sender × P) (logged : s'.logged = s.logged ++ [entry])
      (left : s'.left = s.left) (lost : s'.lost = s.lost+1)
  | passed (a b c : List (Sender × P)) (entry : Sender × P) (logged : s'.logged = s.logged)
      (before : s.left = a ++ (b ++ entry :: c)) (left : s'.left = a ++ entry :: (b ++ c))
      (others : ∀ other ∈ b, other.1 ≠ entry.1) (lost : s'.lost = s.lost)
  | thinned (logged : s'.logged = s.logged) (left : s'.left.Sublist s.left)
      (count : s.left.length+s.lost = s'.left.length+s'.lost)

variable {s s' : Pipe P} {label : Label P}

@[simp] theorem logs_append (a b : List (ResultMessage P)) : logs (a ++ b) = logs a ++ logs b :=
  List.filterMap_append

theorem logs_cons_some {m : ResultMessage P} {entry : Sender × P} (h : m.log = some entry)
    (messages : List (ResultMessage P)) : logs (m :: messages) = entry :: logs messages :=
  List.filterMap_cons_some h

theorem logs_cons_none {m : ResultMessage P} (h : m.log = none)
    (messages : List (ResultMessage P)) : logs (m :: messages) = logs messages :=
  List.filterMap_cons_none h

theorem log_sender {m : ResultMessage P} {entry : Sender × P} (h : m.log = some entry) :
    entry.1 = m.sender := by
  obtain ⟨payload,-,rfl⟩ := Option.map_eq_some_iff.mp h
  rfl

theorem mem_logs {messages : List (ResultMessage P)} {entry : Sender × P}
    (h : entry ∈ logs messages) : ∃ m ∈ messages, m.sender = entry.1 := by
  obtain ⟨m,hm,hlog⟩ := List.mem_filterMap.mp h
  exact ⟨m,hm,(log_sender hlog).symm⟩

theorem Moves.same (hlogged : s'.logged = s.logged) (hleft : s'.left = s.left)
    (hlost : s'.lost = s.lost) : Moves s s' :=
  .thinned hlogged (hleft ▸ List.Sublist.refl _) (by rw [hleft,hlost])

theorem Moves.dropped (a x b : List (Sender × P)) (hlogged : s'.logged = s.logged)
    (hbefore : s.left = a ++ (x ++ b)) (hleft : s'.left = a ++ b)
    (hlost : s'.lost = s.lost+x.length) : Moves s s' := by
  refine .thinned hlogged ?_ ?_
  · rw [hbefore,hleft]
    exact (List.Sublist.refl a).append (List.sublist_append_right x b)
  · rw [hbefore,hleft,hlost]
    simp only [List.length_append]
    omega

theorem logs_split_length (sender : Sender) (messages : List (ResultMessage P)) :
    (logs messages).length = (logs (messages.filter fun m => m.sender ≠ sender)).length +
      (logs (messages.filter fun m => m.sender = sender)).length := by
  induction messages with
  | nil => rfl
  | cons m messages ih =>
    have hone : (logs (m :: messages)).length = (logs [m]).length+(logs messages).length := by
      rw [← List.length_append,← logs_append,List.singleton_append]
    by_cases hsender : m.sender = sender
    · have hfilter : (logs (m :: messages.filter fun m => m.sender = sender)).length =
          (logs [m]).length+(logs (messages.filter fun m => m.sender = sender)).length := by
        rw [← List.length_append,← logs_append,List.singleton_append]
      rw [List.filter_cons_of_neg (by simpa using hsender),
        List.filter_cons_of_pos (by simpa using hsender),hone,hfilter]
      omega
    · have hfilter : (logs (m :: messages.filter fun m => m.sender ≠ sender)).length =
          (logs [m]).length+(logs (messages.filter fun m => m.sender ≠ sender)).length := by
        rw [← List.length_append,← logs_append,List.singleton_append]
      rw [List.filter_cons_of_pos (by simpa using hsender),
        List.filter_cons_of_neg (by simpa using hsender),hone,hfilter]
      omega

theorem enqueue_left (m : ResultMessage P) : (s.enqueue m).left = s.left ++ logs [m] := by
  simp [Pipe.left,Pipe.delivered,Pipe.onTheWay,Pipe.enqueue]

theorem write_moves {i : Nat} {m : ResultMessage P} (hm : s.buffered[i]? = some m)
    (hothers : ∀ other ∈ s.buffered.take i, other.sender ≠ m.sender) :
    Moves s { s with buffered := s.buffered.eraseIdx i, queue := s.queue ++ [m] } := by
  obtain ⟨hi,hget⟩ := List.getElem?_eq_some_iff.mp hm
  have hsplit : s.buffered = s.buffered.take i ++ m :: s.buffered.drop (i+1) := by
    rw [← hget,List.getElem_cons_drop,List.take_append_drop]
  have herase : s.buffered.eraseIdx i = s.buffered.take i ++ s.buffered.drop (i+1) :=
    List.eraseIdx_eq_take_drop_succ _ _
  let front := s.delivered ++ (s.tasks ++ logs (s.callbacks ++ s.queue))
  have hbefore : s.left = front ++ (logs (s.buffered.take i) ++
      logs (m :: s.buffered.drop (i+1))) := by
    rw [← logs_append,← hsplit]
    simp only [Pipe.left,Pipe.delivered,Pipe.onTheWay,logs_append,List.append_assoc,front]
  have hafter : { s with
      buffered := s.buffered.eraseIdx i, queue := s.queue ++ [m] : Pipe P }.left =
        front ++ (logs [m] ++ (logs (s.buffered.take i) ++ logs (s.buffered.drop (i+1)))) := by
    simp only [Pipe.left,Pipe.delivered,Pipe.onTheWay,herase,logs_append,List.append_assoc,front]
  cases hlog : m.log with
  | none =>
    rw [logs_cons_none hlog] at hbefore hafter
    exact .same rfl (hafter.trans hbefore.symm) rfl
  | some entry =>
    rw [logs_cons_some hlog] at hbefore hafter
    refine .passed front _ _ entry rfl hbefore hafter (fun other hother => ?_) rfl
    obtain ⟨m',hm',hsender⟩ := mem_logs hother
    rw [← hsender,log_sender hlog]
    exact hothers m' hm'

theorem step_moves (h : step s label = some s') : Moves s s' := by
  cases label with
  | append sender payload =>
    simp only [step] at h
    split at h
    · cases h
      exact .sent (sender,payload) rfl (enqueue_left _) rfl
    · cases h
      exact .refused (sender,payload) rfl rfl rfl
  | put sender =>
    simp only [step] at h
    split at h
    · cases h
      exact .same rfl ((enqueue_left _).trans (List.append_nil _)) rfl
    · cases h
  | write i =>
    simp only [step] at h
    split at h
    · cases h
    · rename_i m hm
      split at h
      · rename_i hothers
        cases h
        exact write_moves hm hothers
      · cases h
  | exit sender =>
    cases h
    refine .thinned rfl ?_ ?_
    · have hfewer : (logs (s.buffered.filter fun m => m.sender ≠ sender)).Sublist
          (logs s.buffered) := List.filter_sublist.filterMap _
      simp only [Pipe.left,Pipe.delivered,Pipe.onTheWay,logs_append]
      exact ((hfewer.append_left _).append_left _).append_left _
    · have hsplit := logs_split_length sender s.buffered
      simp only [Pipe.left,Pipe.delivered,Pipe.onTheWay,logs_append,List.length_append]
      omega
  | read =>
    simp only [step] at h
    split at h
    · cases h
    · rename_i m queue hqueue
      cases h
      refine .same rfl ?_ rfl
      simp [Pipe.left,Pipe.delivered,Pipe.onTheWay,hqueue]
  | handleResult =>
    simp only [step] at h
    split at h
    · cases h
    · rename_i m callbacks hcallbacks
      split at h
      · rename_i hlog
        cases h
        refine .same rfl ?_ rfl
        simp [Pipe.left,Pipe.delivered,Pipe.onTheWay,hcallbacks,logs_cons_none hlog]
      · rename_i entry hlog
        split at h
        · cases h
          refine .same rfl ?_ rfl
          simp [Pipe.left,Pipe.delivered,Pipe.onTheWay,hcallbacks,logs_cons_some hlog]
        · cases h
          refine .dropped (s.delivered ++ s.tasks) [entry]
            (logs (callbacks ++ s.queue ++ s.buffered)) rfl ?_ ?_ rfl
          · simp [Pipe.left,Pipe.delivered,Pipe.onTheWay,hcallbacks,logs_cons_some hlog]
          · simp [Pipe.left,Pipe.delivered,Pipe.onTheWay]
  | handleQueryLog =>
    simp only [step] at h
    split at h
    · cases h
    · rename_i entry tasks htasks
      split at h
      · cases h
        refine .dropped s.delivered [entry]
          (tasks ++ logs (s.callbacks ++ s.queue ++ s.buffered)) rfl ?_ rfl rfl
        simp [Pipe.left,Pipe.delivered,Pipe.onTheWay,htasks]
      · cases h
        refine .same rfl ?_ rfl
        simp [Pipe.left,Pipe.delivered,Pipe.onTheWay,htasks]
  | restart workers =>
    cases h
    exact .same rfl rfl rfl
  | rebuild workers =>
    cases h
    refine .dropped (s.delivered ++ s.tasks ++ logs s.callbacks) (logs (s.queue ++ s.buffered)) []
      rfl ?_ ?_ rfl
    · simp [Pipe.left,Pipe.delivered,Pipe.onTheWay]
    · simp [Pipe.left,Pipe.delivered,Pipe.onTheWay]
  | enable maxEntries =>
    cases h
    exact .same rfl rfl rfl
  | disable =>
    cases h
    refine .same rfl ?_ rfl
    simp [Pipe.left,Pipe.delivered,Pipe.onTheWay]

/-! ### What always holds -/

/-- The store has numbered what has come to it. -/
def Numbers (store : Option (Log P)) (stored : List (Sender × P)) : Prop :=
  match store with
  | none => stored = []
  | some log => log.Recent ∧ log.appended.map QueryLogEntry.payload = stored.map Prod.snd

structure Inv (queueSize : Nat) (s : Pipe P) : Prop where
  orderly : Orderly Prod.fst s.logged s.left
  count : s.logged.length = s.left.length+s.lost
  size : s.queueSize = queueSize
  taken : s.buffered.length+s.queue.length ≤ s.taken
  bounded : s.taken ≤ queueSize
  stores : Numbers s.store s.stored

theorem Moves.orderly (h : Moves s s') (hs : Orderly Prod.fst s.logged s.left) :
    Orderly Prod.fst s'.logged s'.left := by
  cases h with
  | sent entry hlogged hleft _ =>
    rw [hlogged,hleft]
    exact hs.send entry
  | refused entry hlogged hleft _ =>
    rw [hlogged,hleft]
    exact hs.lose entry
  | passed a b c entry hlogged hbefore hleft hothers _ =>
    rw [hbefore] at hs
    rw [hlogged,hleft]
    exact hs.pass hothers
  | thinned hlogged hleft _ =>
    rw [hlogged]
    exact hs.sublist hleft

theorem Moves.count (h : Moves s s') (hs : s.logged.length = s.left.length+s.lost) :
    s'.logged.length = s'.left.length+s'.lost := by
  cases h with
  | sent entry hlogged hleft hlost =>
    rw [hlogged,hleft,hlost]
    simp only [List.length_append]
    omega
  | refused entry hlogged hleft hlost =>
    rw [hlogged,hleft,hlost]
    simp only [List.length_append,List.length_singleton]
    omega
  | passed a b c entry hlogged hbefore hleft _ hlost =>
    rw [hbefore] at hs
    rw [hlogged,hleft,hlost]
    simp only [List.length_append,List.length_cons] at hs ⊢
    omega
  | thinned hlogged _ hcount =>
    rw [hlogged]
    omega

variable {queueSize : Nat}

theorem Inv.queue (h : Inv queueSize s) (hstep : step s label = some s') :
    s'.queueSize = queueSize ∧ s'.buffered.length+s'.queue.length ≤ s'.taken ∧
      s'.taken ≤ queueSize := by
  have hsize := h.size
  have htaken := h.taken
  have hbounded := h.bounded
  cases label with
  | append sender payload =>
    simp only [step] at hstep
    split at hstep
    · cases hstep
      simp only [Pipe.enqueue,List.length_append,List.length_singleton]
      omega
    · cases hstep
      exact ⟨hsize,htaken,hbounded⟩
  | put sender =>
    simp only [step] at hstep
    split at hstep
    · cases hstep
      simp only [Pipe.enqueue,List.length_append,List.length_singleton]
      omega
    · cases hstep
  | write i =>
    simp only [step] at hstep
    split at hstep
    · cases hstep
    · rename_i m hm
      have hi := (List.getElem?_eq_some_iff.mp hm).1
      split at hstep
      · cases hstep
        simp only [List.length_append,List.length_singleton,List.length_eraseIdx_of_lt hi]
        omega
      · cases hstep
  | exit sender =>
    cases hstep
    have hfewer := List.length_filter_le (fun m => decide (m.sender ≠ sender)) s.buffered
    simp only
    omega
  | read =>
    simp only [step] at hstep
    split at hstep
    · cases hstep
    · rename_i m queue hqueue
      cases hstep
      rw [hqueue,List.length_cons] at htaken
      simp only
      omega
  | handleResult =>
    simp only [step] at hstep
    split at hstep
    · cases hstep
    · split at hstep
      · cases hstep
        exact ⟨hsize,htaken,hbounded⟩
      · split at hstep
        · cases hstep
          exact ⟨hsize,htaken,hbounded⟩
        · cases hstep
          exact ⟨hsize,htaken,hbounded⟩
  | handleQueryLog =>
    simp only [step] at hstep
    split at hstep
    · cases hstep
    · split at hstep
      · cases hstep
        exact ⟨hsize,htaken,hbounded⟩
      · cases hstep
        exact ⟨hsize,htaken,hbounded⟩
  | rebuild workers =>
    cases hstep
    exact ⟨hsize,Nat.le_refl _,Nat.zero_le _⟩
  | restart workers | enable maxEntries | disable =>
    cases hstep
    exact ⟨hsize,htaken,hbounded⟩

/-- The limit of the store that a reload sets. -/
def Label.limit : Label P → Option Nat
  | .enable maxEntries => some maxEntries
  | _ => none

/-- What a step does to the store, and what has come to it. -/
inductive Keeps (s s' : Pipe P) (limit : Option Nat) : Prop where
  | same (hlimit : limit = none) (store : s'.store = s.store) (stored : s'.stored = s.stored)
  | arrived (hlimit : limit = none) (log : Log P) (entry : Sender × P)
      (before : s.store = some log) (store : s'.store = some (log.append entry.2))
      (stored : s'.stored = s.stored ++ [entry])
  | made (maxEntries : Nat) (hlimit : limit = some maxEntries) (before : s.store = none)
      (store : s'.store = some ⟨QueryLogStore.new maxEntries,[]⟩) (stored : s'.stored = s.stored)
  | resized (maxEntries : Nat) (hlimit : limit = some maxEntries) (log : Log P)
      (before : s.store = some log) (store : s'.store = some (log.resize maxEntries))
      (stored : s'.stored = s.stored)
  | dropped (hlimit : limit = none) (store : s'.store = none) (stored : s'.stored = [])

theorem step_keeps (h : step s label = some s') : Keeps s s' label.limit := by
  cases label with
  | append sender payload =>
    simp only [step] at h
    split at h <;> cases h <;> exact .same rfl rfl rfl
  | put sender =>
    simp only [step] at h
    split at h <;> cases h
    exact .same rfl rfl rfl
  | write i =>
    simp only [step] at h
    split at h
    · cases h
    · split at h <;> cases h
      exact .same rfl rfl rfl
  | exit sender =>
    cases h
    exact .same rfl rfl rfl
  | read =>
    simp only [step] at h
    split at h <;> cases h
    exact .same rfl rfl rfl
  | handleResult =>
    simp only [step] at h
    split at h
    · cases h
    · split at h
      · cases h
        exact .same rfl rfl rfl
      · split at h <;> cases h <;> exact .same rfl rfl rfl
  | handleQueryLog =>
    simp only [step] at h
    split at h
    · cases h
    · rename_i entry tasks _
      split at h
      · cases h
        exact .same rfl rfl rfl
      · rename_i log hlog
        cases h
        exact .arrived rfl log entry hlog rfl rfl
  | restart workers | rebuild workers =>
    cases h
    exact .same rfl rfl rfl
  | enable maxEntries =>
    cases h
    cases hstore : s.store with
    | none => exact .made maxEntries rfl hstore rfl rfl
    | some log => exact .resized maxEntries rfl log hstore rfl rfl
  | disable =>
    cases h
    exact .dropped rfl rfl rfl

theorem recent_new (maxEntries : Nat) : (⟨QueryLogStore.new maxEntries,[]⟩ : Log P).Recent :=
  ⟨List.suffix_rfl,rfl,rfl⟩

theorem Inv.numbers (h : Inv queueSize s) (hstep : step s label = some s') :
    Numbers s'.store s'.stored := by
  have hstores := h.stores
  cases step_keeps hstep with
  | same _ hstore hstored => rwa [hstore,hstored]
  | arrived _ log entry hlog hstore hstored =>
    rw [hlog] at hstores
    rw [hstore,hstored]
    obtain ⟨hrecent,hpayloads⟩ := hstores
    exact ⟨hrecent.append entry.2,by simp [Log.append,hpayloads]⟩
  | made maxEntries _ hnone hstore hstored =>
    rw [hnone] at hstores
    rw [hstore,hstored]
    have hempty : s.stored = [] := hstores
    exact ⟨recent_new maxEntries,by rw [hempty]; rfl⟩
  | resized maxEntries _ log hlog hstore hstored =>
    rw [hlog] at hstores
    rw [hstore,hstored]
    exact ⟨hstores.1.resize maxEntries,hstores.2⟩
  | dropped _ hstore hstored =>
    rw [hstore,hstored]
    rfl

theorem Inv.step (h : Inv queueSize s) (hstep : step s label = some s') : Inv queueSize s' :=
  have hmoves := step_moves hstep
  have hqueue := h.queue hstep
  ⟨hmoves.orderly h.orderly,hmoves.count h.count,hqueue.1,hqueue.2.1,hqueue.2.2,h.numbers hstep⟩

theorem inv_init (queueSize : Nat) (workers : List Sender) (maxEntries : Nat) :
    Inv queueSize (init queueSize workers maxEntries : Pipe P) where
  orderly _ := List.Sublist.refl _
  count := rfl
  size := rfl
  taken := Nat.le_refl _
  bounded := Nat.zero_le _
  stores := ⟨recent_new maxEntries,rfl⟩

/-! ### What the store holds -/

/-- What the limits since the first store leave of the log: the last one is in force, and there
are as many entries as all of them have room for. -/
structure Limited (limits : List Nat) (log : Log P) : Prop where
  limit : limits.getLast? = some log.store.maxEntries
  room : ∀ m, (∀ n ∈ limits, m ≤ n) → min m log.appended.length ≤ log.store.entries.length

theorem Limited.append {limits : List Nat} {log : Log P} (h : Limited limits log) (payload : P) :
    Limited limits (log.append payload) where
  limit := h.limit
  room m hm := by
    have hroom := h.room m hm
    have hlimit := hm _ (List.mem_of_getLast? h.limit)
    simp only [Log.append,QueryLogStore.append,QueryLogStore.newest_length,List.length_append,
      List.length_singleton]
    omega

theorem Limited.resize {limits : List Nat} {log : Log P} (h : Limited limits log)
    (maxEntries : Nat) : Limited (limits ++ [maxEntries]) (log.resize maxEntries) where
  limit := by
    rw [List.getLast?_concat]
    exact congrArg some (log.store.resize_maxEntries maxEntries).symm
  room m hm := by
    have hroom := h.room m fun n hn => hm n (List.mem_append_left _ hn)
    have hlimit := hm maxEntries (List.mem_append_right _ (List.mem_singleton_self _))
    simp only [Log.resize,QueryLogStore.resize_length]
    omega

theorem Keeps.limited {limit : Option Nat} {limits : List Nat} (h : Keeps s s' limit)
    (hs : ∀ log ∈ s.store, Limited limits log) :
    ∀ log ∈ s'.store, Limited (limits ++ limit.toList) log := by
  intro log' hlog'
  cases h with
  | same hlimit hstore _ =>
    rw [hlimit,Option.toList_none,List.append_nil]
    exact hs log' (hstore ▸ hlog')
  | arrived hlimit log entry hlog hstore _ =>
    rw [hstore] at hlog'
    cases hlog'
    rw [hlimit,Option.toList_none,List.append_nil]
    exact (hs log hlog).append entry.2
  | made maxEntries hlimit _ hstore _ =>
    rw [hstore] at hlog'
    cases hlog'
    rw [hlimit]
    exact ⟨List.getLast?_concat,fun m _ => by simp⟩
  | resized maxEntries hlimit log hlog hstore _ =>
    rw [hstore] at hlog'
    cases hlog'
    rw [hlimit]
    exact (hs log hlog).resize maxEntries
  | dropped _ hstore _ =>
    rw [hstore] at hlog'
    cases hlog'

theorem run_limited {labels : List (Label P)} {limits : List Nat}
    (h : Transition.run step s labels = some s') (hs : ∀ log ∈ s.store, Limited limits log) :
    ∀ log ∈ s'.store, Limited (limits ++ labels.filterMap Label.limit) log := by
  induction labels generalizing s limits with
  | nil =>
    cases h
    simpa using hs
  | cons label labels ih =>
    obtain ⟨mid,hmid,hrest⟩ := Option.bind_eq_some_iff.mp h
    have hlimited := ih hrest ((step_keeps hmid).limited hs)
    rw [List.append_assoc] at hlimited
    cases hlimit : label.limit with
    | none =>
      rw [List.filterMap_cons_none hlimit]
      simpa [hlimit] using hlimited
    | some n =>
      rw [List.filterMap_cons_some hlimit]
      simpa [hlimit] using hlimited

/-- The store holds the end of what has come to it, as it has numbered it: not more than the last
limit, and not less than all the limits have room for. -/
structure HoldsLatest (limits : List Nat) (stored : List P) (store : QueryLogStore P) : Prop where
  suffix : store.entries <:+ numbered stored
  limit : limits.getLast? = some store.maxEntries
  bounded : store.entries.length ≤ store.maxEntries
  newest : ∀ m, (∀ n ∈ limits, m ≤ n) →
    QueryLogStore.newest m (numbered stored) <:+ store.entries

theorem recent_numbered {log : Log P} (h : log.Recent) :
    log.appended = numbered (log.appended.map QueryLogEntry.payload) := by
  refine List.ext_getElem (by simp [numbered]) fun i hi _ => ?_
  have hmapped : i < (log.appended.map QueryLogEntry.id).length := by simpa using hi
  have hid : (log.appended.map QueryLogEntry.id)[i] = i+1 := by
    simp [h.ids,Nat.add_comm]
  rw [List.getElem_map] at hid
  simp [numbered,← hid]

theorem Limited.holds {limits : List Nat} {log : Log P} (h : Limited limits log)
    (hrecent : log.Recent) :
    HoldsLatest limits (log.appended.map QueryLogEntry.payload) log.store := by
  have hnumbered := recent_numbered hrecent
  refine ⟨hnumbered ▸ hrecent.suffix,h.limit,log.store.fits,fun m hm => ?_⟩
  rw [← hnumbered]
  refine List.suffix_of_suffix_length_le (Log.newest_suffix m _) hrecent.suffix ?_
  rw [QueryLogStore.newest_length]
  exact h.room m hm

/-! ### When nothing is lost -/

/-- No log meets a full queue, and no process, worker or store is replaced. -/
def Undisturbed (s : Pipe P) : Label P → Prop
  | .append sender _ => sender ∈ s.workers ∧ s.taken < s.queueSize
  | .exit _ | .restart _ | .rebuild _ | .disable => False
  | .put _ | .write _ | .read | .handleResult | .handleQueryLog | .enable _ => True

structure Lossless (s : Pipe P) : Prop where
  lost : s.lost = 0
  store : s.store.isSome
  retired : s.retired = []
  current : ∀ entry ∈ logs (s.callbacks ++ s.queue ++ s.buffered), entry.1 ∈ s.workers

theorem Lossless.step (h : Lossless s) (hallowed : Undisturbed s label)
    (hstep : step s label = some s') : Lossless s' := by
  obtain ⟨hlost,hstore,hretired,hcurrent⟩ := h
  have hmem {messages : List (ResultMessage P)} {entry : Sender × P}
      (hentry : entry ∈ logs messages)
      (hsub : ∀ m ∈ messages, m ∈ s.callbacks ++ s.queue ++ s.buffered) : entry.1 ∈ s.workers := by
    obtain ⟨m,hm,hlog⟩ := List.mem_filterMap.mp hentry
    exact hcurrent entry (List.mem_filterMap.mpr ⟨m,hsub m hm,hlog⟩)
  cases label with
  | append sender payload =>
    simp only [QueryLogPipe.step] at hstep
    rw [if_pos hallowed.2] at hstep
    cases hstep
    refine ⟨hlost,hstore,hretired,fun entry hentry => ?_⟩
    simp only [Pipe.enqueue,← List.append_assoc,logs_append _ [_],List.mem_append] at hentry
    obtain hentry | hentry := hentry
    · exact hcurrent entry (by simpa using hentry)
    · cases List.mem_singleton.mp hentry
      exact hallowed.1
  | put sender =>
    simp only [QueryLogPipe.step] at hstep
    split at hstep
    · cases hstep
      refine ⟨hlost,hstore,hretired,fun entry hentry => ?_⟩
      simp only [Pipe.enqueue,← List.append_assoc,logs_append _ [_],List.mem_append] at hentry
      obtain hentry | hentry := hentry
      · exact hcurrent entry (by simpa using hentry)
      · cases hentry
    · cases hstep
  | write i =>
    simp only [QueryLogPipe.step] at hstep
    split at hstep
    · cases hstep
    · rename_i m hm
      split at hstep
      · cases hstep
        refine ⟨hlost,hstore,hretired,fun entry hentry => hmem hentry fun m' hm' => ?_⟩
        simp only [List.mem_append,List.mem_singleton] at hm' ⊢
        obtain (hm' | hm' | rfl) | hm' := hm'
        · exact .inl (.inl hm')
        · exact .inl (.inr hm')
        · exact .inr (List.mem_of_getElem? hm)
        · exact .inr (List.mem_of_mem_eraseIdx hm')
      · cases hstep
  | read =>
    simp only [QueryLogPipe.step] at hstep
    split at hstep
    · cases hstep
    · rename_i m queue hqueue
      cases hstep
      refine ⟨hlost,hstore,hretired,fun entry hentry => hcurrent entry ?_⟩
      simpa [hqueue] using hentry
  | handleResult =>
    simp only [QueryLogPipe.step] at hstep
    split at hstep
    · cases hstep
    · rename_i m callbacks hcallbacks
      have hfewer (entry : Sender × P)
          (hentry : entry ∈ logs (callbacks ++ s.queue ++ s.buffered)) :
          entry.1 ∈ s.workers := by
        refine hmem hentry fun m' hm' => ?_
        rw [hcallbacks]
        exact List.mem_cons_of_mem m hm'
      split at hstep
      · cases hstep
        exact ⟨hlost,hstore,hretired,hfewer⟩
      · rename_i entry hlog
        have hsender : m.sender ∈ s.workers := by
          rw [← log_sender hlog]
          refine hcurrent entry (List.mem_filterMap.mpr ⟨m,?_,hlog⟩)
          rw [hcallbacks]
          exact List.mem_cons_self
        rw [if_pos hsender] at hstep
        cases hstep
        exact ⟨hlost,hstore,hretired,hfewer⟩
  | handleQueryLog =>
    simp only [QueryLogPipe.step] at hstep
    split at hstep
    · cases hstep
    · split at hstep
      · rename_i hnone
        rw [hnone] at hstore
        cases hstore
      · cases hstep
        exact ⟨hlost,rfl,hretired,hcurrent⟩
  | enable maxEntries =>
    cases hstep
    exact ⟨hlost,rfl,hretired,hcurrent⟩
  | exit sender | restart workers | rebuild workers | disable => exact hallowed.elim

/-! ### When nothing moves any more -/

def Still (s : Pipe P) : Prop :=
  step s (.write 0) = none ∧ step s .read = none ∧ step s .handleResult = none ∧
    step s .handleQueryLog = none

theorem Still.nothing_left (h : Still s) : s.onTheWay = [] := by
  obtain ⟨hwrite,hread,hresult,hlog⟩ := h
  have hbuffered : s.buffered = [] := by
    cases hbuffered : s.buffered with
    | nil => rfl
    | cons m rest => simp [step,hbuffered] at hwrite
  have hqueue : s.queue = [] := by
    cases hqueue : s.queue with
    | nil => rfl
    | cons m rest => simp [step,hqueue] at hread
  have hcallbacks : s.callbacks = [] := by
    cases hcallbacks : s.callbacks with
    | nil => rfl
    | cons m rest =>
      simp only [step,hcallbacks] at hresult
      split at hresult
      · cases hresult
      · split at hresult <;> cases hresult
  have htasks : s.tasks = [] := by
    cases htasks : s.tasks with
    | nil => rfl
    | cons entry rest =>
      simp only [step,htasks] at hlog
      split at hlog <;> cases hlog
  simp [Pipe.onTheWay,hbuffered,hqueue,hcallbacks,htasks,logs]

/-- How many turns the messages still take. -/
def Pipe.work (s : Pipe P) : Nat :=
  4*s.buffered.length+3*s.queue.length+2*s.callbacks.length+s.tasks.length

/-- The turns that bring a message on. -/
def Label.cost : Label P → Nat
  | .write _ | .read | .handleResult | .handleQueryLog => 1
  | _ => 0

def Label.gain : Label P → Nat
  | .append _ _ | .put _ => 4
  | _ => 0

theorem step_work (h : step s label = some s') :
    s'.work+label.cost ≤ s.work+label.gain := by
  cases label with
  | append sender payload =>
    simp only [step] at h
    split at h
    · cases h
      simp only [Pipe.work,Pipe.enqueue,Label.cost,Label.gain,List.length_append,
        List.length_singleton]
      omega
    · cases h
      exact Nat.le_add_right _ 4
  | put sender =>
    simp only [step] at h
    split at h
    · cases h
      simp only [Pipe.work,Pipe.enqueue,Label.cost,Label.gain,List.length_append,
        List.length_singleton]
      omega
    · cases h
  | write i =>
    simp only [step] at h
    split at h
    · cases h
    · rename_i m hm
      have hi := (List.getElem?_eq_some_iff.mp hm).1
      split at h
      · cases h
        simp only [Pipe.work,Label.cost,Label.gain,List.length_append,List.length_singleton,
          List.length_eraseIdx_of_lt hi]
        omega
      · cases h
  | exit sender =>
    cases h
    have hfewer := List.length_filter_le (fun m => decide (m.sender ≠ sender)) s.buffered
    simp only [Pipe.work,Label.cost,Label.gain]
    omega
  | read =>
    simp only [step] at h
    split at h
    · cases h
    · rename_i m queue hqueue
      cases h
      simp only [Pipe.work,Label.cost,Label.gain,hqueue,List.length_append,List.length_cons,
        List.length_nil]
      omega
  | handleResult =>
    simp only [step] at h
    split at h
    · cases h
    · rename_i m callbacks hcallbacks
      split at h
      · cases h
        simp only [Pipe.work,Label.cost,Label.gain,hcallbacks,List.length_cons]
        omega
      · split at h
        · cases h
          simp only [Pipe.work,Label.cost,Label.gain,hcallbacks,List.length_append,
            List.length_cons,List.length_nil]
          omega
        · cases h
          simp only [Pipe.work,Label.cost,Label.gain,hcallbacks,List.length_cons]
          omega
  | handleQueryLog =>
    simp only [step] at h
    split at h
    · cases h
    · rename_i entry tasks htasks
      split at h
      · cases h
        simp only [Pipe.work,Label.cost,Label.gain,htasks,List.length_cons]
        omega
      · cases h
        simp only [Pipe.work,Label.cost,Label.gain,htasks,List.length_cons]
        omega
  | rebuild workers =>
    cases h
    simp only [Pipe.work,Label.cost,Label.gain,List.length_nil]
    omega
  | restart workers | enable maxEntries | disable =>
    cases h
    exact Nat.le_refl _

/-- However the processes, the reader and the loop take turns: what arrives of each worker's logs
is in its order, each log has arrived, is on its way or is counted as lost, the store numbers what
arrives and holds the end of it, and in all the turns that bring messages on are at most four for
each message that is queued. With no disturbance, when none of these turns is left, all logs have
come to the store exactly once. -/
theorem query_logs_arrive {workers : List Sender} {maxEntries : Nat} {labels : List (Label P)}
    (h : Transition.run step (init queueSize workers maxEntries) labels = some s) :
    Orderly Prod.fst s.logged (s.delivered ++ s.onTheWay) ∧
    s.logged.length = s.delivered.length+s.onTheWay.length+s.lost ∧
    s.buffered.length+s.queue.length ≤ queueSize ∧
    (∀ log, s.store = some log →
      HoldsLatest (maxEntries :: labels.filterMap Label.limit) (s.stored.map Prod.snd) log.store) ∧
    (labels.map Label.cost).sum ≤ (labels.map Label.gain).sum ∧
    (Transition.Guarded step Undisturbed (init queueSize workers maxEntries) labels → Still s →
      s.store.isSome ∧ s.stored.Perm s.logged ∧
        ∀ sender, sentBy Prod.fst sender s.stored = sentBy Prod.fst sender s.logged) := by
  have hs : Inv queueSize s := (Transition.always_of_step (inv_init queueSize workers maxEntries)
    fun _ _ _ hs hstep => hs.step hstep).final h
  have hcount := hs.count
  rw [Pipe.left,List.length_append] at hcount
  refine ⟨hs.orderly,hcount,Nat.le_trans hs.taken hs.bounded,fun log hlog => ?_,?_,
    fun hguarded hstill => ?_⟩
  · have hstores := hs.stores
    rw [hlog] at hstores
    obtain ⟨hrecent,hpayloads⟩ := hstores
    have hstart : ∀ log ∈ (init queueSize workers maxEntries : Pipe P).store,
        Limited [maxEntries] log := by
      intro log hlog
      cases hlog
      exact ⟨rfl,fun m _ => by simp⟩
    rw [← hpayloads]
    exact (run_limited h hstart log hlog).holds hrecent
  · have hcost := @Transition.run_cost _ _ step (fun _ : Pipe P => True) Pipe.work Label.cost
      Label.gain _ _ _ trivial (fun _ _ _ _ _ => trivial) (fun _ _ _ _ => step_work) h
    have hzero : (init queueSize workers maxEntries : Pipe P).work = 0 := rfl
    omega
  · have hlossless : Lossless s := (hguarded.always ⟨rfl,rfl,rfl,fun _ hentry => by cases hentry⟩
      fun _ _ _ hs hallowed hstep => hs.step hallowed hstep).final h
    have hdelivered : s.delivered = s.stored := by
      rw [Pipe.delivered,hlossless.retired,List.nil_append]
    have horderly := hs.orderly
    rw [Pipe.left,hstill.nothing_left,List.append_nil,hdelivered] at horderly
    refine ⟨hlossless.store,horderly.complete ?_⟩
    rw [hcount,hstill.nothing_left,hlossless.lost,hdelivered]
    exact Nat.le_refl _

/-! ### Two workers -/

def firstWorker : Sender := ⟨0,1⟩
def secondWorker : Sender := ⟨1,2⟩

/-- The log of the second worker overtakes that of the first. -/
def twoLogs : List (Label Nat) :=
  [.append firstWorker 7,.append secondWorker 8,.write 1,.write 0,.read,.read,.handleResult,
    .handleResult,.handleQueryLog,.handleQueryLog]

theorem query_logs_arrive_two : ∃ s : Pipe Nat,
    Transition.run step (init 4 [firstWorker,secondWorker] 500) twoLogs = some s ∧
      s.stored = [(secondWorker,8),(firstWorker,7)] ∧ s.stored.Perm s.logged := by
  have hrun : ∃ s : Pipe Nat,
      Transition.run step (init 4 [firstWorker,secondWorker] 500) twoLogs = some s ∧
        s.stored = [(secondWorker,8),(firstWorker,7)] ∧ Still s :=
    ⟨_,rfl,rfl,rfl,rfl,rfl,rfl⟩
  have hguarded : Transition.Guarded step Undisturbed
      (init 4 [firstWorker,secondWorker] 500 : Pipe Nat) twoLogs := by
    simp [Transition.Guarded,twoLogs,step,Undisturbed,init,Pipe.enqueue]
  obtain ⟨s,hrun,hdelivered,hstill⟩ := hrun
  obtain ⟨-,-,-,-,-,hall⟩ := query_logs_arrive hrun
  exact ⟨s,hrun,hdelivered,(hall hguarded hstill).2.1⟩

end SmartDns.QueryLogPipe
