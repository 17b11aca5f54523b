import SmartDns.Lib.Exec
import SmartDns.Lib.Transition
import SmartDns.Dns.Answer
import Mathlib.Logic.Function.Basic
set_option autoImplicit false

/-!
`MultiprocessWorkerPool` with its worker processes: what a coroutine does between two
awaits is one step. Queues only carry queries and their replies here. A worker task may
go on after its future is done, and a reader thread after it was joined in vain, so any
task may reply and any queue be read at any time.
-/

namespace SmartDns

/-- Where a future stands; a broken one raises `BrokenProcessPool` with the message. -/
inductive FutureState where
  | running | returned | raised | broken (message : String)
  deriving DecidableEq, Repr

def FutureState.done (f : FutureState) : Bool := f ≠ .running

structure WorkerHandle where
  workerId : Nat
  requestQueue : Nat
  future : FutureState
  generation : Nat
  deriving DecidableEq, Repr

/-- The event and the holder that a call of `process_query` waits on. -/
structure PendingHolder (W : Type) where
  wire : Option W := none
  error : Option String := none
  event : Bool := false

structure QueryMessage (W : Type) where
  requestId : Nat
  wire : W

/-- A reply; `query` is the message it answers, which the reply does not carry. -/
structure ResponseMessage (W : Type) where
  workerId : Nat
  generation : Nat
  requestId : Nat
  wire : Option W
  error : Option String := none
  query : QueryMessage W

/-- An executor with the queues its workers are given. -/
structure Executor where
  requestQueues : List Nat
  resultQueue : Nat

/-- A submitted `worker_entry` and the queries it has taken. -/
structure WorkerTask (W : Type) where
  workerId : Nat
  generation : Nat
  executor : Executor
  taken : List (QueryMessage W) := []

structure MultiprocessWorkerPool where
  workerCount : Nat
  resultQueue : Option Nat := none
  requestQueues : List Nat := []
  executor : Option Executor := none
  workers : List WorkerHandle := []
  pending : List Nat := []
  requestCounter : Nat := 1
  workerCounter : Nat := 0
  generationCounter : Nat := 1
  readerThread : Bool := false
  stopping : Bool := false
  restarting : Bool := false
  /-- whether there is a loop, so that `start` was called -/
  started : Bool := false

inductive PoolCallPhase where
  | waiting
  | finished (result : Except PyException (Option Message))

structure PoolCall where
  request : Message
  phase : PoolCallPhase

/-- Where `stop` stands. The awaits of `_stop_executor` touch nothing of the pool. -/
inductive StopPhase where
  | idle | stoppingExecutor | joiningReader | returned
  deriving DecidableEq, Repr

/-- Where a supervision pass stands: in `_stop_result_reader` or `_force_shutdown_executor`
of `_restart_broken_pool`, or nowhere. -/
inductive PassPhase where
  | idle | joiningReader | shuttingDown
  deriving DecidableEq, Repr

/-- The pool, the calls of `process_query` by their request id, and what is outside the
pool: the queues' contents, the workers, and the callbacks handed to the loop. -/
structure PoolSystem (W : Type) where
  pool : MultiprocessWorkerPool
  holders : Nat → PendingHolder W
  calls : Nat → Option PoolCall
  nextQueue : Nat
  requests : Nat → List (QueryMessage W)
  results : Nat → List (ResponseMessage W)
  tasks : List (WorkerTask W)
  callbacks : List (ResponseMessage W)
  /-- every reply a worker has put into a result queue -/
  produced : List (ResponseMessage W)
  stopPhase : StopPhase
  passPhase : PassPhase

/-- What the operating system refuses. -/
structure Faults where
  resultQueue : Option PyException := none
  requestQueues : Option PyException := none
  executor : Option PyException := none
  submit : Nat → Option PyException := fun _ => none
  readerThread : Option PyException := none

namespace PoolSystem

variable {W : Type}

def init (workerCount : Nat) : PoolSystem W where
  pool := { workerCount }
  holders _ := {}
  calls _ := none
  nextQueue := 0
  requests _ := []
  results _ := []
  tasks := []
  callbacks := []
  produced := []
  stopPhase := .idle
  passPhase := .idle

abbrev PoolExec (W α : Type) := Exec PyException (PoolSystem W) α

def mapPool (f : MultiprocessWorkerPool → MultiprocessWorkerPool) (s : PoolSystem W) :
    PoolSystem W := { s with pool := f s.pool }

def updatePool (f : MultiprocessWorkerPool → MultiprocessWorkerPool) : PoolExec W Unit :=
  Exec.modify (mapPool f)

def raiseIf : Option PyException → PoolExec W Unit
  | none => pure ()
  | some e => Exec.raise e

def createIpcResources (f : Faults) : PoolExec W Unit := do
  raiseIf f.resultQueue
  Exec.modify fun s =>
    { s.mapPool fun p => { p with resultQueue := some s.nextQueue } with
      nextQueue := s.nextQueue+1 }
  raiseIf f.requestQueues
  Exec.modify fun s =>
    { s.mapPool fun p =>
        { p with requestQueues := List.range' s.nextQueue s.pool.workerCount } with
      nextQueue := s.nextQueue+s.pool.workerCount }

def createExecutor (f : Faults) : PoolExec W Unit := do
  let s ← Exec.get
  match s.pool.resultQueue with
  | none => Exec.raise (PyException.runtimeError "result queue 尚未初始化")
  | some resultQueue => do
    raiseIf f.executor
    updatePool fun p => { p with executor := some ⟨p.requestQueues,resultQueue⟩ }

def startWorker (submit : Nat → Option PyException) (workerId : Nat) : PoolExec W WorkerHandle := do
  let s ← Exec.get
  match s.pool.executor, s.pool.requestQueues[workerId]? with
  | none, _ => Exec.raise (PyException.runtimeError "worker executor 尚未启动")
  | some _, none => Exec.raise (PyException.indexError "list index out of range")
  | some executor, some requestQueue => do
    updatePool fun p => { p with generationCounter := p.generationCounter+1 }
    raiseIf (submit s.pool.generationCounter)
    Exec.modify fun s' =>
      { s' with
        tasks := s'.tasks ++ [{ workerId, generation := s.pool.generationCounter, executor }] }
    pure ⟨workerId,requestQueue,.running,s.pool.generationCounter⟩

def startEach (submit : Nat → Option PyException) : List Nat → PoolExec W (List WorkerHandle)
  | [] => pure []
  | workerId :: rest => do
    let handle ← startWorker submit workerId
    let handles ← startEach submit rest
    pure (handle :: handles)

def startWorkers (f : Faults) : PoolExec W Unit := do
  let s ← Exec.get
  let workers ← startEach f.submit (List.range s.pool.workerCount)
  updatePool fun p => { p with workers }

def startResultReader (f : Faults) : PoolExec W Unit := do
  updatePool fun p => { p with readerThread := true }
  raiseIf f.readerThread

def closeIpcResources (p : MultiprocessWorkerPool) : MultiprocessWorkerPool :=
  { p with requestQueues := [], resultQueue := none }

/-- What `start` and `_restart_broken_pool` both end with. -/
def equip (f : Faults) : PoolExec W Unit := do
  createIpcResources f
  createExecutor f
  startWorkers f
  startResultReader f

def start (f : Faults) : PoolExec W Unit := do
  updatePool fun p => { p with started := true }
  equip f

/-- `_fail_pending`. -/
def failPending (message : String) (s : PoolSystem W) : PoolSystem W :=
  { s.mapPool fun p => { p with pending := [] } with
    holders := fun i =>
      if i ∈ s.pool.pending then { s.holders i with error := some message, event := true }
      else s.holders i }

/-! ### Supervision and stop -/

/-- The end of `_restart_broken_pool`, without its `finally`. -/
def rebuild (f : Faults) : PoolExec W Unit := do
  updatePool closeIpcResources
  updatePool fun p => { p with workers := [] }
  equip f

/-- What a supervision pass ends with in a step, and the state after it; none where the pass
awaits something and goes on in a later step. -/
abbrev PassStep (W : Type) := Option (Except PyException Unit) × PoolSystem W

/-- `_restart_broken_pool` after its last await; an exception ends the pass as well. -/
def finishRestart (f : Faults) (s : PoolSystem W) : PassStep W :=
  (some (rebuild f s).1,
    { (rebuild f s).2.mapPool fun p => { p with restarting := false } with passPhase := .idle })

/-- `_restart_broken_pool` from `_force_shutdown_executor` on. -/
def forceShutdown (f : Faults) (s : PoolSystem W) : PassStep W :=
  match s.pool.executor with
  | none => finishRestart f s
  | some _ => (none,{ s with passPhase := .shuttingDown })

def restartBrokenPool (f : Faults) (message : String) (s : PoolSystem W) : PassStep W :=
  let s' := failPending ("worker pool broken: " ++ message)
    (s.mapPool fun p => { p with restarting := true })
  if s'.pool.readerThread then (none,{ s' with passPhase := .joiningReader })
  else forceShutdown f s'

/-- The loop of `_restart_finished_workers_once` over the handles it started with. -/
def superviseEach (f : Faults) : List (Nat × WorkerHandle) → PoolSystem W → PassStep W
  | [], s => (some (.ok ()),s)
  | (index,worker) :: rest, s =>
    match worker.future with
    | .running => superviseEach f rest s
    | .broken message => restartBrokenPool f message s
    | .returned | .raised =>
      match startWorker f.submit worker.workerId s with
      | (.error e,s') => (some (.error e),s')
      | (.ok handle,s') =>
        superviseEach f rest (s'.mapPool fun p => { p with workers := p.workers.set index handle })

def restartFinishedWorkersOnce (f : Faults) (s : PoolSystem W) : PassStep W :=
  if s.pool.restarting || s.pool.stopping then (some (.ok ()),s)
  else superviseEach f (s.pool.workers.zipIdx.map fun p => (p.2,p.1)) s

/-- `stop` from the end of `_stop_result_reader` on. -/
def finishStop (s : PoolSystem W) : PoolSystem W :=
  { s.mapPool closeIpcResources with stopPhase := .returned }

/-- `stop` from the end of `_stop_executor` on. -/
def afterExecutor (s : PoolSystem W) : PoolSystem W :=
  let s' := failPending "worker pool stopped" s
  if s'.pool.readerThread then { s' with stopPhase := .joiningReader } else finishStop s'

def beginStop (s : PoolSystem W) : PoolSystem W :=
  let s' := s.mapPool fun p => { p with stopping := true }
  match s'.pool.executor with
  | none => afterExecutor (s'.mapPool fun p => { p with workers := [] })
  | some _ => { s' with stopPhase := .stoppingExecutor }

/-! ### Queries and replies -/

def workerById (p : MultiprocessWorkerPool) (workerId : Nat) : Option WorkerHandle :=
  p.workers.find? fun w => w.workerId = workerId

/-- `_is_current_worker_message`. -/
def IsCurrentWorkerMessage (p : MultiprocessWorkerPool) (m : ResponseMessage W) : Prop :=
  (workerById p m.workerId).map WorkerHandle.generation = some m.generation

instance (p : MultiprocessWorkerPool) (m : ResponseMessage W) :
    Decidable (IsCurrentWorkerMessage p m) :=
  inferInstanceAs (Decidable (_ = _))

def handleQueryResponse (m : ResponseMessage W) (s : PoolSystem W) : PoolSystem W :=
  if m.requestId ∈ s.pool.pending then
    let holder := s.holders m.requestId
    let holder' := match m.error with
      | some error =>
        if error = "" then { holder with wire := m.wire } else { holder with error := some error }
      | none => { holder with wire := m.wire }
    { s with holders := Function.update s.holders m.requestId { holder' with event := true } }
  else s

/-- `_handle_result` on a query response. -/
def handleResult (m : ResponseMessage W) (s : PoolSystem W) : PoolSystem W :=
  if IsCurrentWorkerMessage s.pool m then handleQueryResponse m s else s

/-- `_next_worker`: the first from a moving start whose future is not done. -/
def nextWorker : PoolExec W WorkerHandle := do
  let s ← Exec.get
  if s.pool.workers = [] then Exec.raise (PyException.runtimeError "worker pool 尚未启动")
  else do
    updatePool fun p => { p with workerCounter := p.workerCounter+1 }
    let n := s.pool.workers.length
    match (List.range n).findSome? fun offset =>
        (s.pool.workers[(s.pool.workerCounter+offset)%n]?).filter fun w => !w.future.done with
    | some worker => pure worker
    | none => Exec.raise (PyException.runtimeError "没有可用 worker")

def setCall (s : PoolSystem W) (requestId : Nat) (call : PoolCall) : PoolSystem W :=
  { s with calls := Function.update s.calls requestId (some call) }

/-- The way out of `process_query` through its `finally`. -/
def leaveQuery (s : PoolSystem W) (requestId : Nat) (request : Message)
    (result : Except PyException (Option Message)) : PoolSystem W :=
  (s.mapPool fun p => { p with pending := p.pending.erase requestId }).setCall requestId
    ⟨request,.finished result⟩

section
variable (codec : Codec W)

/-- `process_query` up to its await. `refused` is what `put_nowait` raises; `_next_worker` is
called outside the `try`. -/
def processQuery (request : Message) (refused : Option PyException) (s : PoolSystem W) :
    PoolSystem W :=
  let requestId := s.pool.requestCounter
  let entered : PoolSystem W :=
    { s.mapPool fun p =>
        { p with requestCounter := p.requestCounter+1, pending := p.pending ++ [requestId] } with
      holders := Function.update s.holders requestId {} }
  match nextWorker entered with
  | (.error e,s') => s'.setCall requestId ⟨request,.finished (.error e)⟩
  | (.ok worker,s') =>
    match codec.toWire request, refused with
    | .error e, _ => s'.leaveQuery requestId request (.error e)
    | .ok _, some e => s'.leaveQuery requestId request (.error e)
    | .ok wire, none =>
      { s'.setCall requestId ⟨request,.waiting⟩ with
        requests := Function.update s'.requests worker.requestQueue
          (s'.requests worker.requestQueue ++ [⟨requestId,wire⟩]) }

/-- The result of a call whose event is set. -/
def holderResult (holder : PendingHolder W) : Except PyException (Option Message) :=
  match holder.error, holder.wire with
  | some error, _ => .error (PyException.runtimeError error)
  | none, none => .ok none
  | none, some wire => do
    let response ← codec.fromWire wire
    pure (some response)

/-- `WorkerRuntime._handle_query`; `answer` is the worker's `manager.process_query`. -/
def handleQuery (workerId generation : Nat) (m : QueryMessage W)
    (answer : Message → Except PyException (Option Message)) : ResponseMessage W :=
  let outcome : Except PyException (Option W) := do
    let request ← codec.fromWire m.wire
    match ← answer request with
    | none => pure none
    | some response => do
      let wire ← codec.toWire response
      pure (some wire)
  match outcome with
  | .ok wire => { workerId, generation, requestId := m.requestId, wire, query := m }
  | .error e =>
    { workerId, generation, requestId := m.requestId, wire := none,
      error := some (e.typeName ++ ": " ++ e.message), query := m }

/-- A worker's `_request_queue.get`. -/
def takeQuery (i : Nat) (s : PoolSystem W) : Option (PoolSystem W) := do
  let task ← s.tasks[i]?
  let queue ← task.executor.requestQueues[task.workerId]?
  match s.requests queue with
  | [] => none
  | m :: rest => some { s with
      requests := Function.update s.requests queue rest
      tasks := s.tasks.set i { task with taken := task.taken ++ [m] } }

/-- A worker's `_result_queue.put` at the end of `_handle_query`. -/
def putReply (i k : Nat) (answer : Message → Except PyException (Option Message))
    (s : PoolSystem W) : Option (PoolSystem W) := do
  let task ← s.tasks[i]?
  let m ← task.taken[k]?
  let reply := handleQuery codec task.workerId task.generation m answer
  some { s with
    tasks := s.tasks.set i { task with taken := task.taken.eraseIdx k }
    results := Function.update s.results task.executor.resultQueue
      (s.results task.executor.resultQueue ++ [reply])
    produced := s.produced ++ [reply] }

inductive Label where
  | start (faults : Faults)
  | query (request : Message) (refused : Option PyException)
  | timeout (requestId : Nat)
  | resume (requestId : Nat)
  | take (task : Nat)
  | reply (task k : Nat) (answer : Message → Except PyException (Option Message))
  | exit (index : Nat) (future : FutureState)
  | read (queue : Nat)
  | handle
  | supervise (faults : Faults)
  | passJoined (faults : Faults)
  | passShutDown (faults : Faults)
  | stop
  | executorStopped
  | readerJoined

def step (s : PoolSystem W) : Label → Option (PoolSystem W)
  | .start faults =>
    if s.pool.started || s.pool.stopping then none else some (PoolSystem.start faults s).2
  | .query request refused => some (processQuery codec request refused s)
  | .timeout requestId =>
    match s.calls requestId with
    | some ⟨request,.waiting⟩ =>
      some (s.leaveQuery requestId request (.error (PyException.timeoutError "UDP query timeout")))
    | _ => none
  | .resume requestId =>
    match s.calls requestId with
    | some ⟨request,.waiting⟩ =>
      if (s.holders requestId).event then
        some (s.leaveQuery requestId request (holderResult codec (s.holders requestId)))
      else none
    | _ => none
  | .take i => takeQuery i s
  | .reply i k answer => putReply codec i k answer s
  | .exit index future =>
    match s.pool.workers[index]? with
    | some worker =>
      if worker.future.done || !future.done then none
      else some (s.mapPool fun p =>
        { p with workers := p.workers.set index { worker with future } })
    | none => none
  | .read queue =>
    match s.results queue with
    | [] => none
    | m :: rest => some { s with
        results := Function.update s.results queue rest
        callbacks := s.callbacks ++ [m] }
  | .handle =>
    match s.callbacks with
    | [] => none
    | m :: rest => some (handleResult m { s with callbacks := rest })
  | .supervise faults =>
    match s.passPhase with
    | .idle => some (restartFinishedWorkersOnce faults s).2
    | _ => none
  | .passJoined faults =>
    match s.passPhase with
    | .joiningReader =>
      some (forceShutdown faults (s.mapPool fun p => { p with readerThread := false })).2
    | _ => none
  | .passShutDown faults =>
    match s.passPhase with
    | .shuttingDown =>
      some (finishRestart faults (s.mapPool fun p => { p with executor := none })).2
    | _ => none
  | .stop =>
    match s.stopPhase with
    | .idle => some (beginStop s)
    | _ => none
  | .executorStopped =>
    match s.stopPhase with
    | .stoppingExecutor =>
      some (afterExecutor (s.mapPool fun p => { p with executor := none, workers := [] }))
    | _ => none
  | .readerJoined =>
    match s.stopPhase with
    | .joiningReader => some (finishStop (s.mapPool fun p => { p with readerThread := false }))
    | _ => none

end

end PoolSystem

end SmartDns
