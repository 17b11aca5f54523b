import SmartDns.Multiprocess.Machinery
set_option autoImplicit false

/-!
A supervision pass, and how it ends: the executor, the queues and the threads it asks for
may be refused at any point, whatever state the workers are in.
-/

namespace SmartDns.PoolSystem

variable {W : Type} {codec : Codec W} {s s' : PoolSystem W}

/-! ### How a pass ends -/

/-- What `_restart_finished_workers_once` ends with in a step; none where it goes on, or where
the step is not one of it. -/
def passEnd (s : PoolSystem W) : Label → Option (Except PyException Unit)
  | .supervise f => (restartFinishedWorkersOnce f s).1
  | .passJoined f => (forceShutdown f (s.mapPool fun p => { p with readerThread := false })).1
  | .passShutDown f => (finishRestart f (s.mapPool fun p => { p with executor := none })).1
  | _ => none

/-- A newer handle of the same worker and queue. -/
def Renews (worker handle : WorkerHandle) : Prop :=
  handle.workerId = worker.workerId ∧ handle.requestQueue = worker.requestQueue ∧
    worker.generation < handle.generation

/-- Each handle whose task had ended has given way to one that renews it. -/
def Renewed (s s' : PoolSystem W) : Prop :=
  ∀ (index : Nat) (worker : WorkerHandle), s.pool.workers[index]? = some worker →
    worker.future.done = true →
      ∃ handle, s'.pool.workers[index]? = some handle ∧ Renews worker handle

/-- There is a new executor on new queues, with a new task for every worker. -/
structure WholePoolRebuilt (s s' : PoolSystem W) : Prop where
  resultQueue : s'.pool.resultQueue = some s.nextQueue
  requestQueues : s'.pool.requestQueues = List.range' (s.nextQueue+1) s.pool.workerCount
  executor : s'.pool.executor = some ⟨s'.pool.requestQueues,s.nextQueue⟩
  workers : s'.pool.workers = ((List.range s.pool.workerCount).zipIdx s.pool.generationCounter).map
    fun p => ⟨p.1,s.nextQueue+1+p.1,.running,p.2⟩
  generation : s'.pool.generationCounter = s.pool.generationCounter+s.pool.workerCount

/-- A pass that ends in the step has not raised, and the pool is being stopped, or every handle
is renewed, or the whole pool is rebuilt. -/
def PassHolds (codec : Codec W) (s : PoolSystem W) (l : Label) : Prop :=
  ∀ s' r, step codec s l = some s' → passEnd s l = some r → r = .ok () ∧
    (s'.pool.stopping = true ∨ s.passPhase = .idle ∧ Renewed s s' ∨ WholePoolRebuilt s s')

/-! ### When it does -/

def FutureState.isBroken : FutureState → Bool
  | .broken _ => true
  | _ => false

/-- The handles of ended tasks in front of the first broken one. -/
def endedFirst (workers : List WorkerHandle) : List WorkerHandle :=
  (workers.takeWhile fun w => !FutureState.isBroken w.future).filter fun w => w.future.done

/-- Nothing that a rebuild asks for is refused. -/
structure RebuildGranted (f : Faults) (s : PoolSystem W) : Prop where
  resultQueue : f.resultQueue = none
  requestQueues : f.requestQueues = none
  executor : f.executor = none
  submit : ∀ k < s.pool.workerCount, f.submit (s.pool.generationCounter+k) = none
  readerThread : f.readerThread = none

/-- The executor takes every task in front of the first broken one, and what comes to a rebuild
is granted it. -/
def PassGranted (s : PoolSystem W) : Label → Prop
  | .supervise f => s.pool.stopping = false →
    ∀ k < (endedFirst s.pool.workers).length, f.submit (s.pool.generationCounter+k) = none
  | .passJoined f => s.pool.executor = none → RebuildGranted f s
  | .passShutDown f => RebuildGranted f s
  | _ => True

/-! ### Starting workers -/

/-- A task is submitted. -/
def submitted (s : PoolSystem W) (workerId : Nat) (executor : Executor) : PoolSystem W :=
  { s.mapPool fun p => { p with generationCounter := p.generationCounter+1 } with
    tasks := s.tasks ++ [{ workerId, generation := s.pool.generationCounter, executor }] }

section
variable {submit : Nat → Option PyException} {workerId queue : Nat} {executor : Executor}

theorem startWorker_ok (hexecutor : s.pool.executor = some executor)
    (hqueue : s.pool.requestQueues[workerId]? = some queue)
    (hsubmit : submit s.pool.generationCounter = none) :
    startWorker submit workerId s =
      (.ok ⟨workerId,queue,.running,s.pool.generationCounter⟩,s.submitted workerId executor) := by
  unfold startWorker
  rw [Exec.bind_ok (Exec.run_get s)]
  simp only [hexecutor,hqueue,hsubmit]
  rfl

theorem startWorker_refused {e : PyException} (hexecutor : s.pool.executor = some executor)
    (hqueue : s.pool.requestQueues[workerId]? = some queue)
    (hsubmit : submit s.pool.generationCounter = some e) :
    startWorker submit workerId s =
      (.error e,s.mapPool fun p => { p with generationCounter := p.generationCounter+1 }) := by
  unfold startWorker
  rw [Exec.bind_ok (Exec.run_get s)]
  simp only [hexecutor,hqueue,hsubmit]
  rfl

/-- Submissions, numbered from a generation on. -/
def Takes (submit : Nat → Option PyException) (generation n : Nat) : Prop :=
  ∀ k < n, submit (generation+k) = none

theorem takes_succ {generation n : Nat} :
    Takes submit generation (n+1) ↔ submit generation = none ∧ Takes submit (generation+1) n := by
  constructor
  · intro h
    refine ⟨h 0 (Nat.succ_pos n),fun k hk => ?_⟩
    rw [Nat.add_right_comm,Nat.add_assoc]
    exact h (k+1) (Nat.succ_lt_succ hk)
  · intro h k hk
    cases k with
    | zero => exact h.1
    | succ k =>
      rw [← Nat.add_assoc,Nat.add_right_comm]
      exact h.2 k (Nat.lt_of_succ_lt_succ hk)

/-- Starting workers uses up generations and adds tasks, whether it gets to its end or not. -/
theorem startEach_run (submit : Nat → Option PyException) {queueOf : Nat → Nat} {ids : List Nat}
    (hexecutor : s.pool.executor = some executor)
    (hqueues : ∀ id ∈ ids, s.pool.requestQueues[id]? = some (queueOf id)) :
    (Takes submit s.pool.generationCounter ids.length ∧ ∃ tasks, startEach submit ids s =
        (.ok ((ids.zipIdx s.pool.generationCounter).map fun p => ⟨p.1,queueOf p.1,.running,p.2⟩),
          { s.mapPool fun p =>
              { p with generationCounter := p.generationCounter+ids.length } with tasks })) ∨
      ¬ Takes submit s.pool.generationCounter ids.length ∧ ∃ e n tasks, startEach submit ids s =
        (.error e,{ s.mapPool fun p => { p with generationCounter := n } with tasks }) := by
  induction ids generalizing s with
  | nil => exact .inl ⟨fun k hk => absurd hk (Nat.not_lt_zero k),s.tasks,rfl⟩
  | cons id ids ih =>
    have hqueue := hqueues id List.mem_cons_self
    rw [List.length_cons,takes_succ]
    unfold startEach
    cases hsubmit : submit s.pool.generationCounter with
    | some e =>
      rw [Exec.bind_error (startWorker_refused hexecutor hqueue hsubmit)]
      exact .inr ⟨fun h => Option.some_ne_none e h.1,e,_,s.tasks,rfl⟩
    | none =>
      rw [Exec.bind_ok (startWorker_ok hexecutor hqueue hsubmit)]
      have hrest := ih (s:=s.submitted id executor) hexecutor
        fun id hid => hqueues id (List.mem_cons_of_mem _ hid)
      obtain ⟨htakes,tasks,hrun⟩ | ⟨htakes,e,n,tasks,hrun⟩ := hrest
      · refine .inl ⟨⟨rfl,htakes⟩,tasks,?_⟩
        rw [Exec.bind_ok hrun]
        simp only [submitted,mapPool,List.zipIdx_cons,List.map_cons,Nat.add_assoc,Nat.add_comm 1]
        rfl
      · refine .inr ⟨fun h => htakes h.2,e,n,tasks,?_⟩
        rw [Exec.bind_error hrun]
        rfl

end

/-! ### The rebuild -/

theorem raiseIf_some {f : Option PyException} {e : PyException} (h : f = some e)
    (s : PoolSystem W) : raiseIf f s = (.error e,s) := by
  rw [h]
  rfl

theorem raiseIf_none {f : Option PyException} (h : f = none) (s : PoolSystem W) :
    raiseIf f s = (.ok (),s) := by
  rw [h]
  rfl

/-- The pool with its new queues. -/
def withQueues (s : PoolSystem W) : PoolSystem W :=
  { s.mapPool fun p =>
      { p with
        resultQueue := some s.nextQueue
        requestQueues := List.range' (s.nextQueue+1) s.pool.workerCount } with
    nextQueue := s.nextQueue+1+s.pool.workerCount }

theorem createIpcResources_ok {f : Faults} (hresult : f.resultQueue = none)
    (hrequest : f.requestQueues = none) (s : PoolSystem W) :
    createIpcResources f s = (.ok (),s.withQueues) := by
  unfold createIpcResources
  rw [Exec.bind_ok (raiseIf_none hresult s),Exec.bind_ok (Exec.run_modify _ s),
    Exec.bind_ok (raiseIf_none hrequest _)]
  rfl

theorem createIpcResources_error {f : Faults}
    (h : ¬ (f.resultQueue = none ∧ f.requestQueues = none)) (s : PoolSystem W) :
    ∃ e s', createIpcResources f s = (.error e,s') ∧ s'.pool.workers = s.pool.workers := by
  unfold createIpcResources
  cases hresult : f.resultQueue with
  | some e =>
    rw [Exec.bind_error (raiseIf_some rfl s)]
    exact ⟨e,s,rfl,rfl⟩
  | none =>
    rw [Exec.bind_ok (raiseIf_none rfl s),Exec.bind_ok (Exec.run_modify _ s)]
    cases hrequest : f.requestQueues with
    | some e =>
      rw [Exec.bind_error (raiseIf_some rfl _)]
      exact ⟨e,_,rfl,rfl⟩
    | none => exact absurd ⟨hresult,hrequest⟩ h

theorem createExecutor_run {f : Faults} {r : Nat} (hr : s.pool.resultQueue = some r) :
    createExecutor f s = match f.executor with
      | none => (.ok (),s.mapPool fun p => { p with executor := some ⟨p.requestQueues,r⟩ })
      | some e => (.error e,s) := by
  unfold createExecutor
  rw [Exec.bind_ok (Exec.run_get s)]
  simp only [hr]
  cases hexecutor : f.executor with
  | none => exact Exec.bind_ok (raiseIf_none rfl s)
  | some e => exact Exec.bind_error (raiseIf_some rfl s)

/-- The pool with the new executor on its new queues. -/
def withExecutor (s : PoolSystem W) : PoolSystem W :=
  s.withQueues.mapPool fun p => { p with executor := some ⟨p.requestQueues,s.nextQueue⟩ }

theorem startWorkers_run (f : Faults) (s : PoolSystem W) :
    (Takes f.submit s.pool.generationCounter s.pool.workerCount ∧
      ∃ s', startWorkers f s.withExecutor = (.ok (),s') ∧ WholePoolRebuilt s s') ∨
      ¬ Takes f.submit s.pool.generationCounter s.pool.workerCount ∧
        ∃ e s', startWorkers f s.withExecutor = (.error e,s') ∧
          s'.pool.workers = s.pool.workers := by
  have hqueues : ∀ id ∈ List.range s.pool.workerCount,
      s.withExecutor.pool.requestQueues[id]? = some (s.nextQueue+1+id) := by
    intro id hid
    have hlt : id < s.pool.workerCount := List.mem_range.mp hid
    simp [withExecutor,withQueues,mapPool,hlt]
  have hrun := startEach_run f.submit (s:=s.withExecutor) rfl hqueues
  rw [List.length_range] at hrun
  obtain ⟨htakes,tasks,hrun⟩ | ⟨htakes,e,n,tasks,hrun⟩ := hrun
  · exact .inl ⟨htakes,_,(Exec.bind_ok (Exec.run_get _)).trans (Exec.bind_ok hrun),rfl,rfl,rfl,rfl,
      rfl⟩
  · exact .inr ⟨htakes,e,_,(Exec.bind_ok (Exec.run_get _)).trans (Exec.bind_error hrun),rfl⟩

/-- Granted all that it asks for it makes the whole pool anew; else it raises, and leaves the
workers as they were or a pool that lacks the reader only. -/
theorem equip_run (f : Faults) (s : PoolSystem W) :
    (RebuildGranted f s ∧ ∃ s', equip f s = (.ok (),s') ∧ WholePoolRebuilt s s') ∨
      ¬ RebuildGranted f s ∧ ∃ e s', equip f s = (.error e,s') ∧
        (s'.pool.workers = s.pool.workers ∨ WholePoolRebuilt s s') := by
  unfold equip
  by_cases hipc : f.resultQueue = none ∧ f.requestQueues = none
  · rw [Exec.bind_ok (createIpcResources_ok hipc.1 hipc.2 s)]
    have hcreate := createExecutor_run (f:=f) (s:=s.withQueues) rfl
    cases hexecutor : f.executor with
    | some e =>
      rw [hexecutor] at hcreate
      refine .inr ⟨fun h => ?_,e,_,Exec.bind_error hcreate,.inl rfl⟩
      rw [h.executor] at hexecutor
      cases hexecutor
    | none =>
      rw [hexecutor] at hcreate
      rw [Exec.bind_ok hcreate]
      obtain ⟨htakes,s',hworkers,hrebuilt⟩ | ⟨htakes,e,s',hworkers,hsame⟩ := startWorkers_run f s
      · have hstarted : WholePoolRebuilt s (s'.mapPool fun p => { p with readerThread := true }) :=
          ⟨hrebuilt.resultQueue,hrebuilt.requestQueues,hrebuilt.executor,hrebuilt.workers,
            hrebuilt.generation⟩
        have hreader : startResultReader f s' = raiseIf f.readerThread _ :=
          Exec.bind_ok (Exec.run_modify _ s')
        cases hthread : f.readerThread with
        | none =>
          rw [hthread] at hreader
          exact .inl ⟨⟨hipc.1,hipc.2,hexecutor,htakes,hthread⟩,_,
            (Exec.bind_ok hworkers).trans hreader,hstarted⟩
        | some e =>
          rw [hthread] at hreader
          refine .inr ⟨fun h => ?_,e,_,(Exec.bind_ok hworkers).trans hreader,.inr hstarted⟩
          rw [h.readerThread] at hthread
          cases hthread
      · exact .inr ⟨fun h => htakes h.submit,e,s',Exec.bind_error hworkers,.inl hsame⟩
  · obtain ⟨e,s',hrun,hsame⟩ := createIpcResources_error hipc s
    exact .inr ⟨fun h => hipc ⟨h.resultQueue,h.requestQueues⟩,e,s',Exec.bind_error hrun,.inl hsame⟩

theorem rebuild_run (f : Faults) (s : PoolSystem W) :
    (RebuildGranted f s ∧ ∃ s', rebuild f s = (.ok (),s') ∧ WholePoolRebuilt s s') ∨
      ¬ RebuildGranted f s ∧ ∃ e s', rebuild f s = (.error e,s') ∧
        (s'.pool.workers = [] ∨ WholePoolRebuilt s s') := by
  let t := s.mapPool fun p => { p with requestQueues := [], resultQueue := none, workers := [] }
  have hcleared : rebuild f s = equip f t := rfl
  rw [hcleared]
  obtain ⟨hgranted,s',hrun,hrebuilt⟩ | ⟨hgranted,e,s',hrun,hleft⟩ := equip_run f t
  · exact .inl ⟨⟨hgranted.resultQueue,hgranted.requestQueues,hgranted.executor,hgranted.submit,
      hgranted.readerThread⟩,s',hrun,⟨hrebuilt.resultQueue,hrebuilt.requestQueues,
      hrebuilt.executor,hrebuilt.workers,hrebuilt.generation⟩⟩
  · refine .inr ⟨fun h => hgranted ⟨h.resultQueue,h.requestQueues,h.executor,h.submit,
      h.readerThread⟩,e,s',hrun,hleft.imp id fun hrebuilt => ?_⟩
    exact ⟨hrebuilt.resultQueue,hrebuilt.requestQueues,hrebuilt.executor,hrebuilt.workers,
      hrebuilt.generation⟩

/-! ### A pass over the workers -/

/-- Every handle has its worker's queue and an old generation, and there is an executor. -/
structure Staff (s : PoolSystem W) : Prop where
  queue : ∀ w ∈ s.pool.workers, s.pool.requestQueues[w.workerId]? = some w.requestQueue
  generation : ∀ w ∈ s.pool.workers, w.generation < s.pool.generationCounter
  executor : s.pool.workers ≠ [] → ∃ executor, s.pool.executor = some executor

theorem Staff.of_nil (h : s.pool.workers = []) : Staff s where
  queue w hw := by simp [h] at hw
  generation w hw := by simp [h] at hw
  executor hne := absurd h hne

theorem WholePoolRebuilt.staff (h : WholePoolRebuilt s s') : Staff s' := by
  have hworker : ∀ w ∈ s'.pool.workers, ∃ i < s.pool.workerCount,
      w = ⟨i,s.nextQueue+1+i,.running,s.pool.generationCounter+i⟩ := by
    intro w hw
    rw [h.workers] at hw
    obtain ⟨⟨i,g⟩,hmem,rfl⟩ := List.mem_map.mp hw
    obtain ⟨hle,hget⟩ := List.mk_mem_zipIdx_iff_le_and_getElem?_sub.mp hmem
    obtain ⟨hlt,rfl⟩ := List.getElem?_eq_some_iff.mp hget
    rw [List.length_range] at hlt
    refine ⟨g-s.pool.generationCounter,hlt,?_⟩
    simp only [List.getElem_range]
    rw [Nat.add_sub_cancel' hle]
  refine ⟨fun w hw => ?_,fun w hw => ?_,fun _ => ⟨_,h.executor⟩⟩
  · obtain ⟨i,hi,rfl⟩ := hworker w hw
    rw [h.requestQueues]
    simp [hi]
  · obtain ⟨i,hi,rfl⟩ := hworker w hw
    rw [h.generation]
    exact Nat.add_lt_add_left hi _

def renewal (s : PoolSystem W) (worker : WorkerHandle) : WorkerHandle :=
  ⟨worker.workerId,worker.requestQueue,.running,s.pool.generationCounter⟩

/-- A worker is started in the place of the handle at an index. -/
def restarted (s : PoolSystem W) (index : Nat) (worker : WorkerHandle) (executor : Executor) :
    PoolSystem W :=
  (s.submitted worker.workerId executor).mapPool fun p =>
    { p with workers := p.workers.set index (s.renewal worker) }

theorem Staff.restarted {index : Nat} {worker : WorkerHandle} {executor : Executor} (h : Staff s)
    (hworker : s.pool.workers[index]? = some worker) (hexecutor : s.pool.executor = some executor) :
    Staff (s.restarted index worker executor) := by
  have hmem := List.mem_of_getElem? hworker
  refine ⟨fun w hw => ?_,fun w hw => ?_,fun _ => ⟨executor,hexecutor⟩⟩
  · cases List.mem_or_eq_of_mem_set hw with
    | inl hold => exact h.queue w hold
    | inr hnew => exact hnew ▸ h.queue worker hmem
  · cases List.mem_or_eq_of_mem_set hw with
    | inl hold => exact Nat.lt_succ_of_lt (h.generation w hold)
    | inr hnew => exact hnew ▸ Nat.lt_succ_self _

theorem endedFirst_running {worker : WorkerHandle} (h : worker.future = .running)
    (workers : List WorkerHandle) : endedFirst (worker :: workers) = endedFirst workers := by
  simp [endedFirst,h,FutureState.isBroken,FutureState.done]

theorem endedFirst_broken {worker : WorkerHandle} {message : String}
    (h : worker.future = .broken message) (workers : List WorkerHandle) :
    endedFirst (worker :: workers) = [] := by
  simp [endedFirst,h,FutureState.isBroken]

theorem endedFirst_ended {worker : WorkerHandle}
    (h : worker.future = .returned ∨ worker.future = .raised) (workers : List WorkerHandle) :
    endedFirst (worker :: workers) = worker :: endedFirst workers := by
  cases h with
  | inl h => simp [endedFirst,h,FutureState.isBroken,FutureState.done]
  | inr h => simp [endedFirst,h,FutureState.isBroken,FutureState.done]

/-- How a pass over the rest of the workers ends, told from what the executor takes. -/
structure PassRun (f : Faults) (workers : List (Nat × WorkerHandle)) (s : PoolSystem W) : Prop where
  refused : ¬ Takes f.submit s.pool.generationCounter (endedFirst (workers.map Prod.snd)).length →
    ∃ e, (superviseEach f workers s).1 = some (.error e)
  granted : Takes f.submit s.pool.generationCounter (endedFirst (workers.map Prod.snd)).length →
    (superviseEach f workers s).1 = none ∨ (superviseEach f workers s).1 = some (.ok ()) ∧
      ∀ index worker, (index,worker) ∈ workers → worker.future.done = true →
        ∃ handle, (superviseEach f workers s).2.pool.workers[index]? = some handle ∧
          Renews worker handle
  others : (superviseEach f workers s).1 = some (.ok ()) →
    ∀ index, index ∉ workers.map Prod.fst →
      (superviseEach f workers s).2.pool.workers[index]? = s.pool.workers[index]?

theorem restartBrokenPool_waits {executor : Executor} (f : Faults) (message : String)
    (h : s.pool.executor = some executor) : (restartBrokenPool f message s).1 = none := by
  have hexecutor : (failPending ("worker pool broken: " ++ message)
      (s.mapPool fun p => { p with restarting := true })).pool.executor = some executor := h
  unfold restartBrokenPool forceShutdown
  simp only [hexecutor]
  split <;> rfl

section
variable {f : Faults} {index : Nat} {worker : WorkerHandle} {rest : List (Nat × WorkerHandle)}

theorem takes_nil {submit : Nat → Option PyException} {generation : Nat} :
    Takes submit generation 0 := fun k hk => absurd hk (Nat.not_lt_zero k)

theorem superviseEach_raises (index : Nat) (rest : List (Nat × WorkerHandle)) {e : PyException}
    {t : PoolSystem W}
    (h : worker.future = .returned ∨ worker.future = .raised)
    (hrun : startWorker f.submit worker.workerId s = (.error e,t)) :
    superviseEach f ((index,worker) :: rest) s = (some (.error e),t) := by
  cases h with
  | inl h => simp [superviseEach,h,hrun]
  | inr h => simp [superviseEach,h,hrun]

theorem superviseEach_next (index : Nat) (rest : List (Nat × WorkerHandle))
    {handle : WorkerHandle} {t : PoolSystem W}
    (h : worker.future = .returned ∨ worker.future = .raised)
    (hrun : startWorker f.submit worker.workerId s = (.ok handle,t)) :
    superviseEach f ((index,worker) :: rest) s = superviseEach f rest
      (t.mapPool fun p => { p with workers := p.workers.set index handle }) := by
  cases h with
  | inl h => simp [superviseEach,h,hrun]
  | inr h => simp [superviseEach,h,hrun]

theorem superviseEach_running (index : Nat) (rest : List (Nat × WorkerHandle))
    (h : worker.future = .running) :
    superviseEach f ((index,worker) :: rest) s = superviseEach f rest s := by
  rw [superviseEach,h]

theorem superviseEach_broken (index : Nat) (rest : List (Nat × WorkerHandle)) {message : String}
    (h : worker.future = .broken message) :
    superviseEach f ((index,worker) :: rest) s = restartBrokenPool f message s := by
  rw [superviseEach,h]

theorem PassRun.running (hfuture : worker.future = .running) (hrun : PassRun f rest s) :
    PassRun f ((index,worker) :: rest) s := by
  have hstep := superviseEach_running (f:=f) (s:=s) index rest hfuture
  refine ⟨fun h => ?_,fun h => ?_,fun h i hi => ?_⟩
  · rw [List.map_cons,endedFirst_running hfuture] at h
    rw [hstep]
    exact hrun.refused h
  · rw [List.map_cons,endedFirst_running hfuture] at h
    rw [hstep]
    refine (hrun.granted h).imp id fun hok => ⟨hok.1,fun i w hw hdone => ?_⟩
    cases List.mem_cons.mp hw with
    | inl heq =>
      cases heq
      simp [hfuture,FutureState.done] at hdone
    | inr hold => exact hok.2 i w hold hdone
  · rw [hstep] at h
    rw [List.map_cons,List.mem_cons,not_or] at hi
    rw [hstep,hrun.others h i hi.2]

theorem PassRun.broken {message : String} {executor : Executor}
    (hfuture : worker.future = .broken message) (hexecutor : s.pool.executor = some executor) :
    PassRun f ((index,worker) :: rest) s := by
  have hend : (superviseEach f ((index,worker) :: rest) s).1 = none := by
    rw [superviseEach_broken index rest hfuture]
    exact restartBrokenPool_waits f message hexecutor
  refine ⟨fun h => ?_,fun _ => .inl hend,fun h => ?_⟩
  · rw [List.map_cons,endedFirst_broken hfuture] at h
    exact absurd takes_nil h
  · rw [hend] at h
    cases h

/-- The executor does not take the task of the first worker. -/
theorem PassRun.raises {executor : Executor} {e : PyException}
    (h : worker.future = .returned ∨ worker.future = .raised)
    (hexecutor : s.pool.executor = some executor)
    (hqueue : s.pool.requestQueues[worker.workerId]? = some worker.requestQueue)
    (hsubmit : f.submit s.pool.generationCounter = some e) :
    PassRun f ((index,worker) :: rest) s := by
  have hstep := superviseEach_raises index rest h (startWorker_refused hexecutor hqueue hsubmit)
  have hend : (superviseEach f ((index,worker) :: rest) s).1 = some (.error e) :=
    congrArg Prod.fst hstep
  refine ⟨fun _ => ⟨e,hend⟩,fun htakes => ?_,fun h => ?_⟩
  · rw [List.map_cons,endedFirst_ended h,List.length_cons,takes_succ,hsubmit] at htakes
    cases htakes.1
  · rw [hend] at h
    cases h

/-- The executor takes the task of the first worker, and the loop goes on. -/
theorem PassRun.next {executor : Executor}
    (h : worker.future = .returned ∨ worker.future = .raised) (hstaff : Staff s)
    (hworker : s.pool.workers[index]? = some worker) (hexecutor : s.pool.executor = some executor)
    (hsubmit : f.submit s.pool.generationCounter = none) (hindex : index ∉ rest.map Prod.fst)
    (hrun : PassRun f rest (s.restarted index worker executor)) :
    PassRun f ((index,worker) :: rest) s := by
  have hmem := List.mem_of_getElem? hworker
  have hstep : superviseEach f ((index,worker) :: rest) s =
      superviseEach f rest (s.restarted index worker executor) :=
    superviseEach_next index rest h (startWorker_ok hexecutor (hstaff.queue worker hmem) hsubmit)
  have hcount : Takes f.submit s.pool.generationCounter
        (endedFirst (((index,worker) :: rest).map Prod.snd)).length ↔
      Takes f.submit (s.restarted index worker executor).pool.generationCounter
        (endedFirst (rest.map Prod.snd)).length := by
    rw [List.map_cons,endedFirst_ended h,List.length_cons,takes_succ]
    exact and_iff_right hsubmit
  refine ⟨fun htakes => ?_,fun htakes => ?_,fun h i hi => ?_⟩
  · rw [hstep]
    exact hrun.refused fun hrest => htakes (hcount.mpr hrest)
  · rw [hstep]
    refine (hrun.granted (hcount.mp htakes)).imp id fun hok => ⟨hok.1,fun i w hw hdone => ?_⟩
    cases List.mem_cons.mp hw with
    | inl heq =>
      cases heq
      have hnew : (s.restarted index worker executor).pool.workers[index]? =
          some (s.renewal worker) :=
        List.getElem?_set_self (List.getElem?_eq_some_iff.mp hworker).1
      rw [hrun.others hok.1 index hindex,hnew]
      exact ⟨_,rfl,rfl,rfl,hstaff.generation worker hmem⟩
    | inr hold => exact hok.2 i w hold hdone
  · rw [hstep] at h
    rw [List.map_cons,List.mem_cons,not_or] at hi
    rw [hstep,hrun.others h i hi.2]
    exact List.getElem?_set_ne (Ne.symm hi.1)

theorem superviseEach_run {workers : List (Nat × WorkerHandle)} (hstaff : Staff s)
    (hworkers : ∀ p ∈ workers, s.pool.workers[p.1]? = some p.2)
    (hnodup : (workers.map Prod.fst).Nodup) : PassRun f workers s := by
  induction workers generalizing s with
  | nil =>
    refine ⟨fun h => absurd takes_nil h,fun _ => .inr ⟨rfl,?_⟩,fun _ _ _ => rfl⟩
    intro index worker hmem
    cases hmem
  | cons p rest ih =>
    obtain ⟨index,worker⟩ := p
    have hworker : s.pool.workers[index]? = some worker := hworkers _ List.mem_cons_self
    have hmem := List.mem_of_getElem? hworker
    obtain ⟨executor,hexecutor⟩ := hstaff.executor (List.ne_nil_of_mem hmem)
    obtain ⟨hindex,hnodup⟩ := List.nodup_cons.mp hnodup
    have hrest : ∀ p ∈ rest, s.pool.workers[p.1]? = some p.2 :=
      fun p hp => hworkers p (List.mem_cons_of_mem _ hp)
    have hended (h : worker.future = .returned ∨ worker.future = .raised) :
        PassRun f ((index,worker) :: rest) s := by
      cases hsubmit : f.submit s.pool.generationCounter with
      | some e => exact .raises h hexecutor (hstaff.queue worker hmem) hsubmit
      | none =>
        refine .next h hstaff hworker hexecutor hsubmit hindex ?_
        refine ih (hstaff.restarted hworker hexecutor) (fun p hp => ?_) hnodup
        have hfst : p.1 ∈ rest.map Prod.fst := List.mem_map_of_mem hp
        have hne : index ≠ p.1 := fun heq => hindex (heq ▸ hfst)
        exact (List.getElem?_set_ne hne).trans (hrest p hp)
    cases hfuture : worker.future with
    | running => exact .running hfuture (ih hstaff hrest hnodup)
    | broken message => exact .broken hfuture hexecutor
    | returned => exact hended (.inl hfuture)
    | raised => exact hended (.inr hfuture)

end

/-! ### What every run keeps -/

/-- Between passes nothing is being restarted, and unless the pool is being stopped the workers
have what they need. -/
structure Supervised (s : PoolSystem W) : Prop where
  idle : s.passPhase = .idle → s.pool.restarting = false
  started : s.pool.started = true ∨ s.pool.workers = [] ∧ s.passPhase = .idle
  stopped : s.stopPhase ≠ .idle → s.pool.stopping = true
  staff : s.passPhase = .idle → s.pool.stopping = false → Staff s

/-- Nothing changes that a pass looks at. -/
structure SameStaff (s s' : PoolSystem W) : Prop where
  workers : s'.pool.workers = s.pool.workers
  requestQueues : s'.pool.requestQueues = s.pool.requestQueues
  generation : s'.pool.generationCounter = s.pool.generationCounter
  executor : s'.pool.executor = s.pool.executor
  restarting : s'.pool.restarting = s.pool.restarting
  stopping : s'.pool.stopping = s.pool.stopping
  started : s'.pool.started = s.pool.started
  stopPhase : s'.stopPhase = s.stopPhase
  passPhase : s'.passPhase = s.passPhase

theorem Supervised.same (hs : Supervised s) (h : SameStaff s s') : Supervised s' := by
  refine ⟨fun hidle => ?_,?_,fun hphase => ?_,fun hidle hstopping => ?_⟩
  · rw [h.restarting]
    exact hs.idle (h.passPhase ▸ hidle)
  · rw [h.started,h.workers,h.passPhase]
    exact hs.started
  · rw [h.stopping]
    exact hs.stopped (h.stopPhase ▸ hphase)
  · have hstaff := hs.staff (h.passPhase ▸ hidle) (h.stopping ▸ hstopping)
    refine ⟨?_,?_,?_⟩
    · rw [h.workers,h.requestQueues]
      exact hstaff.queue
    · rw [h.workers,h.generation]
      exact hstaff.generation
    · rw [h.workers,h.executor]
      exact hstaff.executor

theorem Supervised.rebuilt (f : Faults) (hstarted : s.pool.started = true)
    (hstopped : s.stopPhase ≠ .idle → s.pool.stopping = true) :
    Supervised (finishRestart f s).2 := by
  have hrefitted := (rebuild_refits f).run (Refitted.refl s)
  refine ⟨fun _ => rfl,.inl (hrefitted.started hstarted),fun hphase => ?_,fun _ _ => ?_⟩
  · have hphase : (rebuild f s).2.stopPhase ≠ .idle := hphase
    rw [hrefitted.stopPhase] at hphase
    exact hrefitted.stopping.trans (hstopped hphase)
  · have hstaff : Staff (rebuild f s).2 := by
      obtain ⟨_,s',hrun,hrebuilt⟩ | ⟨_,e,s',hrun,hnil | hrebuilt⟩ := rebuild_run f s
      · rw [hrun]
        exact hrebuilt.staff
      · rw [hrun]
        exact .of_nil hnil
      · rw [hrun]
        exact hrebuilt.staff
    exact ⟨hstaff.queue,hstaff.generation,hstaff.executor⟩

theorem Supervised.of_passing (hpass : s.passPhase ≠ .idle) (hstarted : s.pool.started = true)
    (hstopped : s.stopPhase ≠ .idle → s.pool.stopping = true) : Supervised s :=
  ⟨fun h => absurd h hpass,.inl hstarted,hstopped,fun h => absurd h hpass⟩

theorem Supervised.forced (f : Faults) (hstarted : s.pool.started = true)
    (hstopped : s.stopPhase ≠ .idle → s.pool.stopping = true) :
    Supervised (forceShutdown f s).2 := by
  unfold forceShutdown
  split
  · exact .rebuilt f hstarted hstopped
  · exact .of_passing (by simp) hstarted hstopped

theorem Supervised.of_working (hrestarting : s.pool.restarting = false)
    (hstarted : s.pool.started = true ∨ s.pool.workers = [] ∧ s.passPhase = .idle)
    (hstopped : s.stopPhase ≠ .idle → s.pool.stopping = true) (hstaff : Staff s) : Supervised s :=
  ⟨fun _ => hrestarting,hstarted,hstopped,fun _ _ => hstaff⟩

theorem Supervised.of_stopping (hstopping : s.pool.stopping = true)
    (hidle : s.passPhase = .idle → s.pool.restarting = false)
    (hstarted : s.pool.started = true ∨ s.pool.workers = [] ∧ s.passPhase = .idle) :
    Supervised s :=
  ⟨hidle,hstarted,fun _ => hstopping,fun _ h => Bool.noConfusion (h.symm.trans hstopping)⟩

theorem Supervised.afterExecutor (hstopping : s.pool.stopping = true)
    (hidle : s.passPhase = .idle → s.pool.restarting = false)
    (hstarted : s.pool.started = true ∨ s.pool.workers = [] ∧ s.passPhase = .idle) :
    Supervised (afterExecutor s) := by
  unfold PoolSystem.afterExecutor
  simp only []
  split
  · exact .of_stopping hstopping hidle hstarted
  · exact .of_stopping hstopping hidle hstarted

theorem superviseEach_supervised (f : Faults) {workers : List (Nat × WorkerHandle)}
    (hstaff : Staff s) (hworkers : ∀ p ∈ workers, s.pool.workers[p.1]? = some p.2)
    (hnodup : (workers.map Prod.fst).Nodup) (hrestarting : s.pool.restarting = false)
    (hstarted : s.pool.started = true) (hstopped : s.stopPhase ≠ .idle → s.pool.stopping = true) :
    Supervised (superviseEach f workers s).2 := by
  induction workers generalizing s with
  | nil => exact .of_working hrestarting (.inl hstarted) hstopped hstaff
  | cons p rest ih =>
    obtain ⟨index,worker⟩ := p
    have hworker : s.pool.workers[index]? = some worker := hworkers _ List.mem_cons_self
    have hmem := List.mem_of_getElem? hworker
    obtain ⟨executor,hexecutor⟩ := hstaff.executor (List.ne_nil_of_mem hmem)
    obtain ⟨hindex,hnodup⟩ := List.nodup_cons.mp hnodup
    have hrest : ∀ p ∈ rest, s.pool.workers[p.1]? = some p.2 :=
      fun p hp => hworkers p (List.mem_cons_of_mem _ hp)
    have hended (h : worker.future = .returned ∨ worker.future = .raised) :
        Supervised (superviseEach f ((index,worker) :: rest) s).2 := by
      have hqueue := hstaff.queue worker hmem
      cases hsubmit : f.submit s.pool.generationCounter with
      | some e =>
        rw [superviseEach_raises index rest h (startWorker_refused hexecutor hqueue hsubmit)]
        refine .of_working hrestarting (.inl hstarted) hstopped ⟨hstaff.queue,fun w hw => ?_,
          hstaff.executor⟩
        exact Nat.lt_succ_of_lt (hstaff.generation w hw)
      | none =>
        rw [superviseEach_next index rest h (startWorker_ok hexecutor hqueue hsubmit)]
        refine ih (s:=s.restarted index worker executor) (hstaff.restarted hworker hexecutor)
          (fun p hp => ?_) hnodup hrestarting hstarted hstopped
        have hfst : p.1 ∈ rest.map Prod.fst := List.mem_map_of_mem hp
        have hne : index ≠ p.1 := fun heq => hindex (heq ▸ hfst)
        exact (List.getElem?_set_ne hne).trans (hrest p hp)
    cases hfuture : worker.future with
    | running =>
      rw [superviseEach_running index rest hfuture]
      exact ih hstaff hrest hnodup hrestarting hstarted hstopped
    | broken message =>
      rw [superviseEach_broken index rest hfuture]
      unfold restartBrokenPool forceShutdown
      simp only [failPending,mapPool,hexecutor]
      split
      · exact .of_passing (by simp) hstarted hstopped
      · exact .of_passing (by simp) hstarted hstopped
    | returned => exact hended (.inl hfuture)
    | raised => exact hended (.inr hfuture)

/-- The handles that a pass goes over. -/
theorem zipIdx_handles (workers : List WorkerHandle) :
    (∀ p ∈ workers.zipIdx.map fun p => (p.2,p.1), workers[p.1]? = some p.2) ∧
      ((workers.zipIdx.map fun p => (p.2,p.1)).map Prod.fst).Nodup ∧
      (workers.zipIdx.map fun p => (p.2,p.1)).map Prod.snd = workers := by
  refine ⟨fun p hp => ?_,?_,?_⟩
  · obtain ⟨q,hq,rfl⟩ := List.mem_map.mp hp
    exact List.mem_zipIdx_iff_getElem?.mp hq
  · rw [List.map_map]
    have hrange : (workers.zipIdx.map (Prod.fst ∘ fun p => (p.2,p.1))) =
        List.range' 0 workers.length :=
      List.zipIdx_map_snd 0 workers
    rw [hrange]
    exact List.nodup_range'
  · rw [List.map_map]
    exact List.zipIdx_map_fst 0 workers

theorem Supervised.step {l : Label} (hs : Supervised s) (h : step codec s l = some s') :
    Supervised s' := by
  have hpassing (hpass : s.passPhase ≠ .idle) : s.pool.started = true :=
    hs.started.resolve_right fun h => hpass h.2
  cases l with
  | start f =>
    simp only [PoolSystem.step] at h
    split at h
    · cases h
    · rename_i hguard
      cases h
      simp only [Bool.or_eq_true,not_or,Bool.not_eq_true] at hguard
      obtain ⟨hnil,hidle⟩ := hs.started.resolve_left (by simp [hguard.1])
      have hrefitted := (start_refits f).run (Refitted.refl s)
      have hrun : start f s = equip f (s.mapPool fun p => { p with started := true }) := rfl
      have hstaff : Staff (start f s).2 := by
        rw [hrun]
        obtain ⟨_,t,hrun,hrebuilt⟩ | ⟨_,e,t,hrun,hsame | hrebuilt⟩ :=
          equip_run f (s.mapPool fun p => { p with started := true })
        · rw [hrun]
          exact hrebuilt.staff
        · rw [hrun]
          exact .of_nil (hsame.trans hnil)
        · rw [hrun]
          exact hrebuilt.staff
      have hstarted : (start f s).2.pool.started = true := by
        rw [hrun]
        exact (((equip_refits f).run (Refitted.refl _)).started rfl)
      refine .of_working ?_ (.inl hstarted) (fun hphase => ?_) hstaff
      · rw [hrefitted.restarting]
        exact hs.idle hidle
      · rw [hrefitted.stopPhase] at hphase
        exact hrefitted.stopping.trans (hs.stopped hphase)
  | query request refused =>
    cases h
    obtain ⟨n,⟨_,e,hrun⟩ | ⟨_,e,hrun⟩ | ⟨_,queue,wire,_,hrun⟩⟩ :=
      processQuery_cases (s:=s) codec request refused
    · rw [hrun]
      exact hs.same ⟨rfl,rfl,rfl,rfl,rfl,rfl,rfl,rfl,rfl⟩
    · rw [hrun]
      exact hs.same ⟨rfl,rfl,rfl,rfl,rfl,rfl,rfl,rfl,rfl⟩
    · rw [hrun]
      exact hs.same ⟨rfl,rfl,rfl,rfl,rfl,rfl,rfl,rfl,rfl⟩
  | timeout i =>
    simp only [PoolSystem.step] at h
    split at h
    · cases h
      exact hs.same ⟨rfl,rfl,rfl,rfl,rfl,rfl,rfl,rfl,rfl⟩
    · cases h
  | resume i =>
    simp only [PoolSystem.step] at h
    split at h
    · split at h
      · cases h
        exact hs.same ⟨rfl,rfl,rfl,rfl,rfl,rfl,rfl,rfl,rfl⟩
      · cases h
    · cases h
  | take i =>
    obtain ⟨task,_,h⟩ := Option.bind_eq_some_iff.mp h
    obtain ⟨queue,_,h⟩ := Option.bind_eq_some_iff.mp h
    split at h
    · cases h
    · cases h
      exact hs.same ⟨rfl,rfl,rfl,rfl,rfl,rfl,rfl,rfl,rfl⟩
  | reply i k answer =>
    obtain ⟨task,_,h⟩ := Option.bind_eq_some_iff.mp h
    obtain ⟨m,_,h⟩ := Option.bind_eq_some_iff.mp h
    cases h
    exact hs.same ⟨rfl,rfl,rfl,rfl,rfl,rfl,rfl,rfl,rfl⟩
  | exit index future =>
    simp only [PoolSystem.step] at h
    split at h
    · rename_i worker hworker
      split at h
      · cases h
      · cases h
        have hmem := List.mem_of_getElem? hworker
        refine ⟨hs.idle,?_,hs.stopped,fun hidle hstopping => ?_⟩
        · exact hs.started.imp id fun hnil => absurd hnil.1 (List.ne_nil_of_mem hmem)
        · have hstaff := hs.staff hidle hstopping
          refine ⟨fun w hw => ?_,fun w hw => ?_,fun _ => hstaff.executor (List.ne_nil_of_mem hmem)⟩
          · cases List.mem_or_eq_of_mem_set hw with
            | inl hold => exact hstaff.queue w hold
            | inr hnew =>
              subst hnew
              exact hstaff.queue worker hmem
          · cases List.mem_or_eq_of_mem_set hw with
            | inl hold => exact hstaff.generation w hold
            | inr hnew =>
              subst hnew
              exact hstaff.generation worker hmem
    · cases h
  | read queue =>
    simp only [PoolSystem.step] at h
    split at h
    · cases h
    · cases h
      exact hs.same ⟨rfl,rfl,rfl,rfl,rfl,rfl,rfl,rfl,rfl⟩
  | handle =>
    simp only [PoolSystem.step] at h
    split at h
    · cases h
    · cases h
      unfold handleResult handleQueryResponse
      split
      · split
        · exact hs.same ⟨rfl,rfl,rfl,rfl,rfl,rfl,rfl,rfl,rfl⟩
        · exact hs.same ⟨rfl,rfl,rfl,rfl,rfl,rfl,rfl,rfl,rfl⟩
      · exact hs.same ⟨rfl,rfl,rfl,rfl,rfl,rfl,rfl,rfl,rfl⟩
  | supervise f =>
    simp only [PoolSystem.step] at h
    split at h
    · rename_i hidle
      cases h
      unfold restartFinishedWorkersOnce
      split
      · exact hs
      · rename_i hguard
        simp only [Bool.or_eq_true,not_or,Bool.not_eq_true] at hguard
        obtain ⟨hget,hnodup,_⟩ := zipIdx_handles s.pool.workers
        cases hs.started with
        | inl hstarted =>
          exact superviseEach_supervised f (hs.staff hidle hguard.2) hget hnodup hguard.1 hstarted
            hs.stopped
        | inr hnil =>
          rw [hnil.1]
          exact hs
    · cases h
  | passJoined f =>
    simp only [PoolSystem.step] at h
    split at h
    · rename_i hpass
      cases h
      exact .forced f (hpassing (by simp [hpass])) hs.stopped
    · cases h
  | passShutDown f =>
    simp only [PoolSystem.step] at h
    split at h
    · rename_i hpass
      cases h
      exact .rebuilt f (hpassing (by simp [hpass])) hs.stopped
    · cases h
  | stop =>
    simp only [PoolSystem.step] at h
    split at h
    · cases h
      unfold beginStop
      simp only []
      split
      · exact .afterExecutor rfl hs.idle (hs.started.imp id fun h => ⟨rfl,h.2⟩)
      · exact .of_stopping rfl hs.idle hs.started
    · cases h
  | executorStopped =>
    simp only [PoolSystem.step] at h
    split at h
    · rename_i hphase
      cases h
      have hstopping := hs.stopped (by simp [hphase])
      exact .afterExecutor hstopping hs.idle (hs.started.imp id fun h => ⟨rfl,h.2⟩)
    · cases h
  | readerJoined =>
    simp only [PoolSystem.step] at h
    split at h
    · rename_i hphase
      cases h
      have hstopping := hs.stopped (by simp [hphase])
      exact .of_stopping hstopping hs.idle hs.started
    · cases h

/-! ### The claimed outcome and what it takes -/

theorem WholePoolRebuilt.of_same {t : PoolSystem W} (hqueue : t.nextQueue = s.nextQueue)
    (hcount : t.pool.workerCount = s.pool.workerCount)
    (hgeneration : t.pool.generationCounter = s.pool.generationCounter)
    (h : WholePoolRebuilt t s') : WholePoolRebuilt s s' := by
  refine ⟨?_,?_,?_,?_,?_⟩
  · rw [← hqueue]
    exact h.resultQueue
  · rw [← hqueue,← hcount]
    exact h.requestQueues
  · rw [← hqueue]
    exact h.executor
  · rw [← hqueue,← hcount,← hgeneration]
    exact h.workers
  · rw [← hcount,← hgeneration]
    exact h.generation

/-- A step that ends with the rebuild. -/
theorem passHolds_of_rebuild {l : Label} {f : Faults} {t : PoolSystem W}
    (hqueue : t.nextQueue = s.nextQueue) (hcount : t.pool.workerCount = s.pool.workerCount)
    (hgeneration : t.pool.generationCounter = s.pool.generationCounter)
    (hstep : step codec s l = some (finishRestart f t).2)
    (hend : passEnd s l = (finishRestart f t).1) :
    PassHolds codec s l ↔ RebuildGranted f s := by
  have hsame : RebuildGranted f t ↔ RebuildGranted f s := by
    constructor
    · intro h
      exact ⟨h.resultQueue,h.requestQueues,h.executor,
        by rw [← hcount,← hgeneration]; exact h.submit,
        h.readerThread⟩
    · intro h
      exact ⟨h.resultQueue,h.requestQueues,h.executor,by rw [hcount,hgeneration]; exact h.submit,
        h.readerThread⟩
  rw [← hsame]
  obtain ⟨hgranted,t',hrun,hrebuilt⟩ | ⟨hgranted,e,t',hrun,_⟩ := rebuild_run f t
  · refine iff_of_true (fun s' r h hr => ?_) hgranted
    cases hstep.symm.trans h
    cases hend.symm.trans hr
    rw [hrun]
    refine ⟨rfl,.inr (.inr (.of_same hqueue hcount hgeneration ?_))⟩
    rw [finishRestart,hrun]
    exact ⟨hrebuilt.resultQueue,hrebuilt.requestQueues,hrebuilt.executor,hrebuilt.workers,
      hrebuilt.generation⟩
  · refine iff_of_false (fun hholds => ?_) hgranted
    have hok := (hholds _ _ hstep hend).1
    rw [hrun] at hok
    cases hok

/-- A step that is the end of no pass. -/
theorem passHolds_of_none {l : Label} (hend : passEnd s l = none) : PassHolds codec s l := by
  intro s' r _ hr
  rw [hend] at hr
  cases hr

theorem passHolds_iff_supervise {f : Faults} (hs : Supervised s)
    (h : step codec s (.supervise f) = some s') :
    PassHolds codec s (.supervise f) ↔ PassGranted s (.supervise f) := by
  have hidle : s.passPhase = .idle ∧ (restartFinishedWorkersOnce f s).2 = s' := by
    simp only [PoolSystem.step] at h
    split at h
    · rename_i hidle
      exact ⟨hidle,Option.some.inj h⟩
    · cases h
  obtain ⟨hidle,hrun⟩ := hidle
  have hrestarting := hs.idle hidle
  cases hstopping : s.pool.stopping with
  | true =>
    refine iff_of_true (fun t r ht hr => ?_) fun hno => Bool.noConfusion (hno.symm.trans hstopping)
    have hpass : restartFinishedWorkersOnce f s = (some (.ok ()),s) := by
      simp [restartFinishedWorkersOnce,hstopping]
    have hend : passEnd s (.supervise f) = some (.ok ()) := congrArg Prod.fst hpass
    have hsame : s' = s := hrun.symm.trans (congrArg Prod.snd hpass)
    cases h.symm.trans ht
    cases hend.symm.trans hr
    exact ⟨rfl,.inl (hsame ▸ hstopping)⟩
  | false =>
    obtain ⟨hget,hnodup,hsnd⟩ := zipIdx_handles s.pool.workers
    have hpass := superviseEach_run (f:=f) (hs.staff hidle hstopping) hget hnodup
    have hrefused := hpass.refused
    have htaken := hpass.granted
    rw [hsnd] at hrefused htaken
    have honce : restartFinishedWorkersOnce f s =
        superviseEach f (s.pool.workers.zipIdx.map fun p => (p.2,p.1)) s := by
      simp [restartFinishedWorkersOnce,hstopping,hrestarting]
    have hend : passEnd s (.supervise f) =
        (superviseEach f (s.pool.workers.zipIdx.map fun p => (p.2,p.1)) s).1 :=
      congrArg Prod.fst honce
    have hstate : s' = (superviseEach f (s.pool.workers.zipIdx.map fun p => (p.2,p.1)) s).2 :=
      hrun.symm.trans (congrArg Prod.snd honce)
    have hgranted : PassGranted s (.supervise f) ↔
        Takes f.submit s.pool.generationCounter (endedFirst s.pool.workers).length :=
      forall_prop_of_true hstopping
    rw [hgranted]
    constructor
    · intro hholds
      by_contra htakes
      obtain ⟨e,herror⟩ := hrefused htakes
      have hok := (hholds s' _ h (hend.trans herror)).1
      cases hok
    · intro htakes t r ht hr
      cases h.symm.trans ht
      rw [hend] at hr
      obtain hwaits | ⟨hok,hrenewed⟩ := htaken htakes
      · rw [hwaits] at hr
        cases hr
      · cases hok.symm.trans hr
        refine ⟨rfl,.inr (.inl ⟨hidle,fun index worker hworker hdone => ?_⟩)⟩
        rw [hstate]
        refine hrenewed index worker (List.mem_map.mpr ⟨(worker,index),?_,rfl⟩) hdone
        exact List.mem_zipIdx_iff_getElem?.mpr hworker

theorem passHolds_iff {l : Label} (hs : Supervised s) (h : step codec s l = some s') :
    PassHolds codec s l ↔ PassGranted s l := by
  cases l with
  | supervise f => exact passHolds_iff_supervise hs h
  | passJoined f =>
    let t := s.mapPool fun p => { p with readerThread := false }
    have hstep : s' = (forceShutdown f t).2 := by
      simp only [PoolSystem.step] at h
      split at h
      · exact (Option.some.inj h).symm
      · cases h
    subst hstep
    cases hexecutor : s.pool.executor with
    | some executor =>
      refine iff_of_true (passHolds_of_none ?_) fun hnone => ?_
      · simp [passEnd,forceShutdown,mapPool,hexecutor]
      · rw [hexecutor] at hnone
        cases hnone
    | none =>
      have hgranted : PassGranted s (.passJoined f) ↔ RebuildGranted f s :=
        forall_prop_of_true hexecutor
      rw [hgranted]
      refine passHolds_of_rebuild (t:=t) rfl rfl rfl ?_ ?_
      · rw [h]
        simp [forceShutdown,t,mapPool,hexecutor]
      · simp [passEnd,forceShutdown,t,mapPool,hexecutor]
  | passShutDown f =>
    have hstep : s' = (finishRestart f (s.mapPool fun p => { p with executor := none })).2 := by
      simp only [PoolSystem.step] at h
      split at h
      · exact (Option.some.inj h).symm
      · cases h
    subst hstep
    exact passHolds_of_rebuild (t:=s.mapPool fun p => { p with executor := none }) rfl rfl rfl h rfl
  | _ => exact iff_of_true (passHolds_of_none rfl) trivial

theorem supervised_init (workerCount : Nat) : Supervised (init workerCount : PoolSystem W) :=
  ⟨fun _ => rfl,.inr ⟨rfl,rfl⟩,fun h => absurd rfl h,fun _ _ => .of_nil rfl⟩

/-- A broken executor takes no task. -/
def brokenSubmit : Faults :=
  { submit := fun _ => some ⟨.runtimeError,"BrokenProcessPool","terminated abruptly"⟩ }

end SmartDns.PoolSystem
