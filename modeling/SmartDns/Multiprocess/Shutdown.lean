import SmartDns.Multiprocess.Machinery
set_option autoImplicit false

/-!
Stopping a worker pool while a supervision pass rebuilds it: what each step does to the
parts of the pool, and which rebuilds `stop` takes down again.
-/

namespace SmartDns.PoolSystem

variable {W : Type}

/-- The queues are not created. -/
def NoQueue (f : Faults) : Prop := f.resultQueue ≠ none

/-- The rebuild raises before there is an executor. -/
def NoExecutor (f : Faults) : Prop :=
  f.resultQueue ≠ none ∨ f.requestQueues ≠ none ∨ f.executor ≠ none

/-- What `stop` is to leave. -/
structure Cleared (p : MultiprocessWorkerPool) : Prop where
  executor : p.executor = none
  workers : p.workers = []
  requestQueues : p.requestQueues = []
  resultQueue : p.resultQueue = none
  readerThread : p.readerThread = false

/-- The same parts, but for the handles of workers. -/
structure SameParts (s s' : PoolSystem W) : Prop where
  executor : s'.pool.executor = s.pool.executor
  requestQueues : s'.pool.requestQueues = s.pool.requestQueues
  resultQueue : s'.pool.resultQueue = s.pool.resultQueue
  readerThread : s'.pool.readerThread = s.pool.readerThread
  stopping : s'.pool.stopping = s.pool.stopping
  stopPhase : s'.stopPhase = s.stopPhase
  passPhase : s'.passPhase = s.passPhase

theorem SameParts.refl (s : PoolSystem W) : SameParts s s := ⟨rfl,rfl,rfl,rfl,rfl,rfl,rfl⟩

theorem SameParts.trans {s s' s'' : PoolSystem W} (h : SameParts s s') (h' : SameParts s' s'') :
    SameParts s s'' where
  executor := h'.executor.trans h.executor
  requestQueues := h'.requestQueues.trans h.requestQueues
  resultQueue := h'.resultQueue.trans h.resultQueue
  readerThread := h'.readerThread.trans h.readerThread
  stopping := h'.stopping.trans h.stopping
  stopPhase := h'.stopPhase.trans h.stopPhase
  passPhase := h'.passPhase.trans h.passPhase

section
variable {s s' : PoolSystem W} {f : Faults}

theorem startWorker_sameParts (s : PoolSystem W) (submit : Nat → Option PyException)
    (workerId : Nat) : Exec.Keeps (SameParts s) (startWorker submit workerId) := by
  unfold startWorker
  refine Exec.Keeps.get.bind fun t => ?_
  split
  · exact Exec.Keeps.of_run fun s hs => hs
  · exact Exec.Keeps.of_run fun s hs => hs
  · refine Exec.Keeps.bind (Exec.Keeps.modify fun t ht => ?_) fun _ => ?_
    · exact ht.trans ⟨rfl,rfl,rfl,rfl,rfl,rfl,rfl⟩
    · refine (raiseIf_keeps _).bind fun _ => ?_
      refine Exec.Keeps.bind (Exec.Keeps.modify fun t ht => ?_) fun _ => Exec.Keeps.pure _
      exact ht.trans ⟨rfl,rfl,rfl,rfl,rfl,rfl,rfl⟩

theorem startEach_sameParts (s : PoolSystem W) (submit : Nat → Option PyException)
    (ids : List Nat) : Exec.Keeps (SameParts s) (startEach submit ids) := by
  induction ids with
  | nil => exact Exec.Keeps.pure []
  | cons id ids ih =>
    refine (startWorker_sameParts s submit id).bind fun handle => ?_
    exact ih.bind fun handles => Exec.Keeps.pure _

/-- What a rebuild leaves alone, and what it has made. -/
structure Rebuilt (f : Faults) (s s' : PoolSystem W) : Prop where
  stopping : s'.pool.stopping = s.pool.stopping
  stopPhase : s'.stopPhase = s.stopPhase
  noQueue : NoQueue f → s'.pool.requestQueues = [] ∧ s'.pool.resultQueue = none ∧
    s'.pool.readerThread = s.pool.readerThread
  noExecutor : NoExecutor f → s'.pool.executor = s.pool.executor ∧ s'.pool.workers = []
  queue : ¬ NoQueue f → s'.pool.resultQueue ≠ none
  executor : ¬ NoExecutor f → s'.pool.executor ≠ none

/-- Once there is an executor, the workers and the reader change nothing else. -/
structure Equipped (s s' : PoolSystem W) : Prop where
  stopping : s'.pool.stopping = s.pool.stopping
  stopPhase : s'.stopPhase = s.stopPhase
  queue : s'.pool.resultQueue ≠ none
  executor : s'.pool.executor ≠ none

theorem Equipped.of_sameParts {s'' : PoolSystem W} (h : Equipped s s')
    (h' : SameParts s' s'') : Equipped s s'' where
  stopping := h'.stopping.trans h.stopping
  stopPhase := h'.stopPhase.trans h.stopPhase
  queue := by
    rw [h'.resultQueue]
    exact h.queue
  executor := by
    rw [h'.executor]
    exact h.executor

theorem equip_keeps (s : PoolSystem W) (f : Faults) :
    Exec.Keeps (Equipped s) (do startWorkers f; startResultReader f) := by
  refine Exec.Keeps.bind ?_ fun _ => ?_
  · refine Exec.Keeps.get.bind fun t => ?_
    refine Exec.Keeps.bind (Exec.Keeps.of_run fun t' ht' => ?_) fun workers => ?_
    · exact ht'.of_sameParts ((startEach_sameParts t' f.submit _).run (SameParts.refl t'))
    · exact Exec.Keeps.modify fun t' ht' => ⟨ht'.stopping,ht'.stopPhase,ht'.queue,ht'.executor⟩
  · refine Exec.Keeps.bind (Exec.Keeps.modify fun t ht => ?_) fun _ => raiseIf_keeps _
    exact ⟨ht.stopping,ht.stopPhase,ht.queue,ht.executor⟩

theorem rebuild_rebuilt (f : Faults) (s : PoolSystem W) : Rebuilt f s (rebuild f s).2 := by
  cases hresult : f.resultQueue with
  | some e =>
    have hrun : (rebuild f s).2 = (s.mapPool closeIpcResources).mapPool fun p =>
        { p with workers := [] } := by
      simp only [rebuild,equip,updatePool,createIpcResources,hresult]
      rfl
    have hno : NoQueue f := by simp [NoQueue,hresult]
    rw [hrun]
    exact ⟨rfl,rfl,fun _ => ⟨rfl,rfl,rfl⟩,fun _ => ⟨rfl,rfl⟩,absurd hno,absurd (.inl hno)⟩
  | none =>
    have hqueue : ¬ NoQueue f := by simp [NoQueue,hresult]
    -- the queues are there and the executor is not made again
    have hqueues : NoExecutor f → (∃ t, (rebuild f s).2 = t ∧
        t.pool.stopping = s.pool.stopping ∧ t.stopPhase = s.stopPhase ∧
        t.pool.executor = s.pool.executor ∧ t.pool.workers = [] ∧ t.pool.resultQueue ≠ none) →
        Rebuilt f s (rebuild f s).2 := by
      intro hno hrun
      obtain ⟨t,ht,hstopping,hphase,hexecutor,hworkers,hmade⟩ := hrun
      rw [ht]
      exact ⟨hstopping,hphase,fun h => absurd h hqueue,fun _ => ⟨hexecutor,hworkers⟩,
        fun _ => hmade,absurd hno⟩
    cases hrequest : f.requestQueues with
    | some e =>
      refine hqueues (.inr (.inl (by simp [hrequest]))) ?_
      simp only [rebuild,equip,updatePool,createIpcResources,hresult,hrequest]
      exact ⟨_,rfl,rfl,rfl,rfl,rfl,Option.some_ne_none _⟩
    | none =>
      cases hexec : f.executor with
      | some e =>
        refine hqueues (.inr (.inr (by simp [hexec]))) ?_
        simp only [rebuild,equip,updatePool,createIpcResources,createExecutor,hresult,hrequest,
          hexec]
        exact ⟨_,rfl,rfl,rfl,rfl,rfl,Option.some_ne_none _⟩
      | none =>
        have hrun : ∃ t, (rebuild f s).2 =
            ((do startWorkers f; startResultReader f : PoolExec W Unit) t).2 ∧ Equipped s t := by
          simp only [rebuild,equip,updatePool,createIpcResources,createExecutor,hresult,hrequest,
            hexec]
          exact ⟨_,rfl,rfl,rfl,Option.some_ne_none _,Option.some_ne_none _⟩
        obtain ⟨t,ht,hequipped⟩ := hrun
        have hend := (equip_keeps s f).run hequipped
        have hyes : ¬ NoExecutor f := by simp [NoExecutor,hresult,hrequest,hexec]
        rw [ht]
        exact ⟨hend.stopping,hend.stopPhase,fun h => absurd h hqueue,fun h => absurd h hyes,
          fun _ => hend.queue,fun _ => hend.executor⟩

/-- The rebuild a step runs, for a pool that is being stopped. -/
def rebuilds (s : PoolSystem W) : Label → Option Faults
  | .passJoined f => if s.pool.executor = none then some f else none
  | .passShutDown f => some f
  | _ => none

/-- `stop` begins, or comes to the end of `_stop_executor`. -/
def Leaves (s s' : PoolSystem W) : Prop :=
  s.stopPhase = .idle ∧ s'.pool.stopping = true ∨
    s.stopPhase = .stoppingExecutor ∧ s'.pool.stopping = s.pool.stopping

/-- What a step does to the parts of the pool. -/
inductive PartsChange (s : PoolSystem W) (l : Label) (s' : PoolSystem W) : Prop where
  | kept (h : SameParts s s') (hworkers : s.pool.workers = [] → s'.pool.workers = [])
  | unstopped (hstopping : s.pool.stopping = false) (hphase : s'.stopPhase = s.stopPhase)
  | joined (hexecutor : s'.pool.executor = s.pool.executor)
      (hworkers : s'.pool.workers = s.pool.workers)
      (hrequest : s'.pool.requestQueues = s.pool.requestQueues)
      (hresult : s'.pool.resultQueue = s.pool.resultQueue)
      (hreader : s'.pool.readerThread = false) (hstopping : s'.pool.stopping = s.pool.stopping)
      (hphase : s'.stopPhase = s.stopPhase) (hpass : s.passPhase ≠ .idle)
  | rebuilt (f : Faults) (t : PoolSystem W) (hl : rebuilds s l = some f)
      (hexecutor : t.pool.executor = none) (hreader : s.pool.readerThread = false →
        t.pool.readerThread = false) (hstopping : t.pool.stopping = s.pool.stopping)
      (hphase : t.stopPhase = s.stopPhase) (h : Rebuilt f t s') (hpass : s.passPhase ≠ .idle)
      (hpass' : s'.passPhase = .idle)
  | begun (hidle : s.stopPhase = .idle) (hstopping : s'.pool.stopping = true)
      (hphase : s'.stopPhase = .stoppingExecutor)
  | executorGone (hphase : Leaves s s') (hphase' : s'.stopPhase = .joiningReader)
      (hexecutor : s'.pool.executor = none) (hworkers : s'.pool.workers = [])
  | cleared (hphase : Leaves s s') (hphase' : s'.stopPhase = .returned)
      (hcleared : Cleared s'.pool)
  | ended (hphase : s.stopPhase = .joiningReader) (hphase' : s'.stopPhase = .returned)
      (hexecutor : s'.pool.executor = s.pool.executor)
      (hworkers : s'.pool.workers = s.pool.workers) (hrequest : s'.pool.requestQueues = [])
      (hresult : s'.pool.resultQueue = none) (hreader : s'.pool.readerThread = false)
      (hstopping : s'.pool.stopping = s.pool.stopping) (hpass : s'.passPhase = s.passPhase)

variable {codec : Codec W}

theorem processQuery_sameParts (codec : Codec W) (s : PoolSystem W) (request : Message)
    (refused : Option PyException) : SameParts s (processQuery codec request refused s) ∧
      (processQuery codec request refused s).pool.workers = s.pool.workers := by
  obtain ⟨n,⟨_,e,hrun⟩ | ⟨_,e,hrun⟩ | ⟨_,queue,wire,_,hrun⟩⟩ :=
    processQuery_cases (s:=s) codec request refused
  · rw [hrun]
    exact ⟨⟨rfl,rfl,rfl,rfl,rfl,rfl,rfl⟩,rfl⟩
  · rw [hrun]
    exact ⟨⟨rfl,rfl,rfl,rfl,rfl,rfl,rfl⟩,rfl⟩
  · rw [hrun]
    exact ⟨⟨rfl,rfl,rfl,rfl,rfl,rfl,rfl⟩,rfl⟩

theorem afterExecutor_change (s : PoolSystem W) (hexecutor : s.pool.executor = none)
    (hworkers : s.pool.workers = []) : (afterExecutor s).pool.stopping = s.pool.stopping ∧
      ((afterExecutor s).stopPhase = .joiningReader ∧ (afterExecutor s).pool.executor = none ∧
        (afterExecutor s).pool.workers = [] ∨
      (afterExecutor s).stopPhase = .returned ∧ Cleared (afterExecutor s).pool) := by
  cases hreader : s.pool.readerThread with
  | true =>
    have hrun : afterExecutor s =
        { failPending "worker pool stopped" s with stopPhase := .joiningReader } := by
      simp [afterExecutor,failPending,mapPool,hreader]
    rw [hrun]
    exact ⟨rfl,.inl ⟨rfl,hexecutor,hworkers⟩⟩
  | false =>
    have hrun : afterExecutor s = finishStop (failPending "worker pool stopped" s) := by
      simp [afterExecutor,failPending,mapPool,hreader]
    rw [hrun]
    exact ⟨rfl,.inr ⟨rfl,hexecutor,hworkers,rfl,rfl,hreader⟩⟩

theorem finishRestart_rebuilt (f : Faults) (s : PoolSystem W) :
    Rebuilt f s (finishRestart f s).2 ∧ (finishRestart f s).2.passPhase = .idle := by
  have h := rebuild_rebuilt f s
  exact ⟨⟨h.stopping,h.stopPhase,h.noQueue,h.noExecutor,h.queue,h.executor⟩,rfl⟩

theorem forceShutdown_stopPhase (f : Faults) (s : PoolSystem W) :
    (forceShutdown f s).2.stopPhase = s.stopPhase := by
  unfold forceShutdown
  split
  · exact (finishRestart_rebuilt f s).1.stopPhase
  · rfl

theorem restartBrokenPool_stopPhase (f : Faults) (message : String) (s : PoolSystem W) :
    (restartBrokenPool f message s).2.stopPhase = s.stopPhase := by
  simp only [restartBrokenPool]
  split
  · rfl
  · exact forceShutdown_stopPhase f _

theorem superviseEach_stopPhase (f : Faults) (workers : List (Nat × WorkerHandle))
    (s : PoolSystem W) : (superviseEach f workers s).2.stopPhase = s.stopPhase := by
  let R := fun s s' : PoolSystem W => s'.stopPhase = s.stopPhase
  have hrelates := superviseEach_relates (R:=R)
    (fun s => rfl) (fun h h' => h'.trans h)
    (fun s workerId =>
      ((startWorker_sameParts s f.submit workerId).run (SameParts.refl s)).stopPhase)
    (fun s index handle => rfl) (fun s message => restartBrokenPool_stopPhase f message s)
  exact hrelates workers s

theorem PartsChange.of_kept {l : Label} (h : SameParts s s')
    (hworkers : s'.pool.workers = s.pool.workers) : PartsChange s l s' :=
  .kept h fun hnil => hworkers.trans hnil

theorem handleResult_sameParts (m : ResponseMessage W) (s : PoolSystem W) :
    SameParts s (handleResult m s) ∧ (handleResult m s).pool = s.pool := by
  unfold handleResult
  split
  · unfold handleQueryResponse
    split
    · exact ⟨⟨rfl,rfl,rfl,rfl,rfl,rfl,rfl⟩,rfl⟩
    · exact ⟨SameParts.refl s,rfl⟩
  · exact ⟨SameParts.refl s,rfl⟩

theorem leaveQuery_change {l : Label} (requestId : Nat) (request : Message)
    (result : Except PyException (Option Message)) :
    PartsChange s l (s.leaveQuery requestId request result) :=
  .of_kept ⟨rfl,rfl,rfl,rfl,rfl,rfl,rfl⟩ rfl

/-- Every step changes the parts of the pool in one of these ways. -/
theorem step_parts {l : Label} (h : step codec s l = some s') : PartsChange s l s' := by
  cases l with
  | start f =>
    simp only [step] at h
    split at h
    · cases h
    · rename_i hguard
      cases h
      have hstopping : s.pool.stopping = false := by
        cases hs : s.pool.stopping with
        | false => rfl
        | true => simp [hs] at hguard
      exact .unstopped hstopping ((start_refits f).run (Refitted.refl s)).stopPhase
  | query request refused =>
    cases h
    obtain ⟨hparts,hworkers⟩ := processQuery_sameParts codec s request refused
    exact .of_kept hparts hworkers
  | timeout requestId =>
    simp only [step] at h
    split at h
    · cases h
      exact leaveQuery_change requestId _ _
    · cases h
  | resume requestId =>
    simp only [step] at h
    split at h
    · split at h
      · cases h
        exact leaveQuery_change requestId _ _
      · cases h
    · cases h
  | take i =>
    obtain ⟨task,_,h⟩ := Option.bind_eq_some_iff.mp h
    obtain ⟨queue,_,h⟩ := Option.bind_eq_some_iff.mp h
    split at h
    · cases h
    · cases h
      exact .of_kept ⟨rfl,rfl,rfl,rfl,rfl,rfl,rfl⟩ rfl
  | reply i k answer =>
    obtain ⟨task,_,h⟩ := Option.bind_eq_some_iff.mp h
    obtain ⟨m,_,h⟩ := Option.bind_eq_some_iff.mp h
    cases h
    exact .of_kept ⟨rfl,rfl,rfl,rfl,rfl,rfl,rfl⟩ rfl
  | exit index future =>
    simp only [step] at h
    split at h
    · rename_i worker hworker
      split at h
      · cases h
      · cases h
        refine .kept ⟨rfl,rfl,rfl,rfl,rfl,rfl,rfl⟩ fun hnil => ?_
        simp [hnil] at hworker
    · cases h
  | read queue =>
    simp only [step] at h
    split at h
    · cases h
    · cases h
      exact .of_kept ⟨rfl,rfl,rfl,rfl,rfl,rfl,rfl⟩ rfl
  | handle =>
    simp only [step] at h
    split at h
    · cases h
    · rename_i m rest _
      cases h
      obtain ⟨hparts,hpool⟩ := handleResult_sameParts m { s with callbacks := rest }
      exact .of_kept ⟨hparts.executor,hparts.requestQueues,hparts.resultQueue,hparts.readerThread,
        hparts.stopping,hparts.stopPhase,hparts.passPhase⟩
        (congrArg MultiprocessWorkerPool.workers hpool)
  | supervise f =>
    simp only [step] at h
    split at h
    · cases h
      unfold restartFinishedWorkersOnce
      cases hstopping : s.pool.stopping with
      | true =>
        simp only [Bool.or_true,if_true]
        exact .of_kept (SameParts.refl s) rfl
      | false =>
        refine .unstopped hstopping ?_
        split
        · rfl
        · exact superviseEach_stopPhase f _ s
    · cases h
  | passJoined f =>
    simp only [step] at h
    split at h
    · rename_i hpass
      have hpass' : s.passPhase ≠ .idle := by simp [hpass]
      cases h
      unfold forceShutdown
      cases hexecutor : s.pool.executor with
      | none =>
        obtain ⟨hrebuilt,hidle⟩ := finishRestart_rebuilt f
          (s.mapPool fun p => { p with readerThread := false })
        have hnone : (s.mapPool fun p => { p with readerThread := false }).pool.executor = none :=
          hexecutor
        simp only [hnone]
        exact .rebuilt f _ (by simp [rebuilds,hexecutor]) hnone (fun _ => rfl) rfl rfl hrebuilt
          hpass' hidle
      | some executor =>
        have hsome : (s.mapPool fun p => { p with readerThread := false }).pool.executor =
            some executor := hexecutor
        simp only [hsome]
        exact .joined rfl rfl rfl rfl rfl rfl rfl hpass'
    · cases h
  | passShutDown f =>
    simp only [step] at h
    split at h
    · rename_i hpass
      cases h
      obtain ⟨hrebuilt,hidle⟩ := finishRestart_rebuilt f
        (s.mapPool fun p => { p with executor := none })
      exact .rebuilt f (s.mapPool fun p => { p with executor := none }) rfl rfl (fun h => h) rfl rfl
        hrebuilt (by simp [hpass]) hidle
    · cases h
  | stop =>
    simp only [step] at h
    split at h
    · rename_i hidle
      cases h
      unfold beginStop
      cases hexecutor : s.pool.executor with
      | none =>
        have hnone : (s.mapPool fun p => { p with stopping := true }).pool.executor = none :=
          hexecutor
        simp only [hnone]
        rcases afterExecutor_change ((s.mapPool fun p => { p with stopping := true }).mapPool
          fun p => { p with workers := [] }) hexecutor rfl with
          ⟨hstopping,⟨hphase,hgone,hworkers⟩ | ⟨hphase,hcleared⟩⟩
        · exact .executorGone (.inl ⟨hidle,hstopping⟩) hphase hgone hworkers
        · exact .cleared (.inl ⟨hidle,hstopping⟩) hphase hcleared
      | some executor =>
        have hsome : (s.mapPool fun p => { p with stopping := true }).pool.executor =
            some executor := hexecutor
        simp only [hsome]
        exact .begun hidle rfl rfl
    · cases h
  | executorStopped =>
    simp only [step] at h
    split at h
    · rename_i hphase
      cases h
      rcases afterExecutor_change (s.mapPool fun p => { p with executor := none, workers := [] })
        rfl rfl with ⟨hstopping,⟨hphase',hgone,hworkers⟩ | ⟨hphase',hcleared⟩⟩
      · exact .executorGone (.inr ⟨hphase,hstopping⟩) hphase' hgone hworkers
      · exact .cleared (.inr ⟨hphase,hstopping⟩) hphase' hcleared
    · cases h
  | readerJoined =>
    simp only [step] at h
    split at h
    · rename_i hphase
      cases h
      exact .ended hphase rfl rfl rfl rfl rfl rfl rfl rfl
    · cases h

/-! ### What a stop leaves -/

/-- A rebuild runs before `stop` is done with the executor; or else it raises, before the
executor while `stop` still waits for the reader, at once when `stop` has returned. -/
def RebuildsInTime (s : PoolSystem W) (l : Label) : Prop :=
  ∀ f, rebuilds s l = some f →
    match s.stopPhase with
    | .idle | .stoppingExecutor => True
    | .joiningReader => NoExecutor f
    | .returned => NoQueue f

def StopMarked (s : PoolSystem W) : Prop := s.stopPhase ≠ .idle → s.pool.stopping = true

theorem StopMarked.step {l : Label} (hs : s.StopMarked) (h : step codec s l = some s') :
    s'.StopMarked := by
  intro hphase
  cases step_parts h with
  | kept h _ => exact h.stopping.trans (hs (h.stopPhase ▸ hphase))
  | unstopped hstopping heq =>
    have hcontra := hs (heq ▸ hphase)
    rw [hstopping] at hcontra
    contradiction
  | joined _ _ _ _ _ hstopping heq _ => exact hstopping.trans (hs (heq ▸ hphase))
  | rebuilt f t _ _ _ hstopping heq hrebuilt _ _ =>
    have heq' := hrebuilt.stopPhase.trans heq
    exact (hrebuilt.stopping.trans hstopping).trans (hs (heq' ▸ hphase))
  | begun _ hstopping _ => exact hstopping
  | executorGone hleaves _ _ _ =>
    exact hleaves.elim And.right fun hl => hl.2.trans (hs (by simp [hl.1]))
  | cleared hleaves _ _ =>
    exact hleaves.elim And.right fun hl => hl.2.trans (hs (by simp [hl.1]))
  | ended hold _ _ _ _ _ _ hstopping _ => exact hstopping.trans (hs (by simp [hold]))

/-- What `stop` has taken down so far stays down. -/
structure TakenDown (s : PoolSystem W) : Prop where
  marked : s.StopMarked
  joining : s.stopPhase = .joiningReader → s.pool.executor = none ∧ s.pool.workers = []
  returned : s.stopPhase = .returned → Cleared s.pool

/-- The step lemma: a rebuild in time leaves nothing behind. -/
theorem TakenDown.step {l : Label} (hs : s.TakenDown) (hok : s.RebuildsInTime l)
    (h : step codec s l = some s') : s'.TakenDown := by
  have hmarked := hs.marked.step h
  cases step_parts h with
  | kept h hworkers =>
    refine ⟨hmarked,fun hphase => ?_,fun hphase => ?_⟩
    · obtain ⟨hexecutor,hnil⟩ := hs.joining (h.stopPhase ▸ hphase)
      exact ⟨h.executor.trans hexecutor,hworkers hnil⟩
    · have hcleared := hs.returned (h.stopPhase ▸ hphase)
      exact ⟨h.executor.trans hcleared.executor,hworkers hcleared.workers,
        h.requestQueues.trans hcleared.requestQueues,h.resultQueue.trans hcleared.resultQueue,
        h.readerThread.trans hcleared.readerThread⟩
  | unstopped hstopping heq =>
    have hidle : s.stopPhase = .idle := by
      by_contra hne
      have hcontra := hs.marked hne
      rw [hstopping] at hcontra
      contradiction
    refine ⟨hmarked,fun hphase => ?_,fun hphase => ?_⟩
    · rw [heq,hidle] at hphase
      contradiction
    · rw [heq,hidle] at hphase
      contradiction
  | joined hexecutor hworkers hrequest hresult hreader _ heq _ =>
    refine ⟨hmarked,fun hphase => ?_,fun hphase => ?_⟩
    · obtain ⟨hnone,hnil⟩ := hs.joining (heq ▸ hphase)
      exact ⟨hexecutor.trans hnone,hworkers.trans hnil⟩
    · have hcleared := hs.returned (heq ▸ hphase)
      exact ⟨hexecutor.trans hcleared.executor,hworkers.trans hcleared.workers,
        hrequest.trans hcleared.requestQueues,hresult.trans hcleared.resultQueue,hreader⟩
  | rebuilt f t hl hexecutor hreader _ heq hrebuilt _ _ =>
    have heq' := hrebuilt.stopPhase.trans heq
    refine ⟨hmarked,fun hphase => ?_,fun hphase => ?_⟩
    · have hno : NoExecutor f := by
        have hcond := hok f hl
        rw [← heq',hphase] at hcond
        exact hcond
      obtain ⟨hsame,hnil⟩ := hrebuilt.noExecutor hno
      exact ⟨hsame.trans hexecutor,hnil⟩
    · have hno : NoQueue f := by
        have hcond := hok f hl
        rw [← heq',hphase] at hcond
        exact hcond
      have hcleared := hs.returned (heq' ▸ hphase)
      obtain ⟨hsame,hnil⟩ := hrebuilt.noExecutor (.inl hno)
      obtain ⟨hrequest,hresult,hsameReader⟩ := hrebuilt.noQueue hno
      exact ⟨hsame.trans hexecutor,hnil,hrequest,hresult,
        hsameReader.trans (hreader hcleared.readerThread)⟩
  | begun _ _ hphase' =>
    exact ⟨hmarked,fun hphase => by rw [hphase'] at hphase; contradiction,
      fun hphase => by rw [hphase'] at hphase; contradiction⟩
  | executorGone _ hphase' hexecutor hworkers =>
    exact ⟨hmarked,fun _ => ⟨hexecutor,hworkers⟩,
      fun hphase => by rw [hphase'] at hphase; contradiction⟩
  | cleared _ hphase' hcleared =>
    exact ⟨hmarked,fun hphase => by rw [hphase'] at hphase; contradiction,fun _ => hcleared⟩
  | ended hold hphase' hexecutor hworkers hrequest hresult hreader _ _ =>
    obtain ⟨hnone,hnil⟩ := hs.joining hold
    exact ⟨hmarked,fun hphase => by rw [hphase'] at hphase; contradiction,
      fun _ => ⟨hexecutor.trans hnone,hworkers.trans hnil,hrequest,hresult,hreader⟩⟩

/-- What a rebuild that came too late has left. -/
def LeftBehind (s : PoolSystem W) : Prop :=
  s.passPhase = .idle ∧ (s.stopPhase = .joiningReader ∧ s.pool.executor ≠ none ∨
    s.stopPhase = .returned ∧ (s.pool.executor ≠ none ∨ s.pool.resultQueue ≠ none))

theorem step_rebuilds {l : Label} {f : Faults} (hl : rebuilds s l = some f)
    (h : step codec s l = some s') :
    ∃ t, t.stopPhase = s.stopPhase ∧ Rebuilt f t s' ∧ s'.passPhase = .idle := by
  unfold rebuilds at hl
  split at hl
  · split at hl
    · rename_i hexecutor
      cases hl
      simp only [step] at h
      split at h
      · have hnone : (s.mapPool fun p => { p with readerThread := false }).pool.executor = none :=
          hexecutor
        simp only [forceShutdown,hnone] at h
        cases h
        exact ⟨s.mapPool fun p => { p with readerThread := false },rfl,finishRestart_rebuilt f _⟩
      · cases h
    · cases hl
  · cases hl
    simp only [step] at h
    split at h
    · cases h
      exact ⟨s.mapPool fun p => { p with executor := none },rfl,finishRestart_rebuilt f _⟩
    · cases h
  · cases hl

theorem leftBehind_of_late {l : Label} (hlate : ¬ s.RebuildsInTime l)
    (h : step codec s l = some s') : s'.LeftBehind := by
  obtain ⟨f,hf⟩ := not_forall.mp hlate
  obtain ⟨hl,hlate⟩ := Classical.not_imp.mp hf
  obtain ⟨t,hphase,hrebuilt,hpass⟩ := step_rebuilds hl h
  have hphase' : s'.stopPhase = s.stopPhase := hrebuilt.stopPhase.trans hphase
  refine ⟨hpass,?_⟩
  rw [hphase']
  cases hstop : s.stopPhase with
  | idle => simp [hstop] at hlate
  | stoppingExecutor => simp [hstop] at hlate
  | joiningReader =>
    simp only [hstop] at hlate
    exact .inl ⟨rfl,hrebuilt.executor hlate⟩
  | returned =>
    simp only [hstop] at hlate
    exact .inr ⟨rfl,.inr (hrebuilt.queue hlate)⟩

/-- No pass is left that could take it down. -/
theorem LeftBehind.step {l : Label} (hmarked : s.StopMarked) (hleft : s.LeftBehind)
    (h : step codec s l = some s') : s'.LeftBehind := by
  obtain ⟨hpass,hleft⟩ := hleft
  have hstopping : s.pool.stopping = true := hmarked (by rcases hleft with h | h <;> simp [h.1])
  cases step_parts h with
  | kept h _ =>
    refine ⟨h.passPhase.trans hpass,?_⟩
    rwa [h.stopPhase,h.executor,h.resultQueue]
  | unstopped hnot _ =>
    rw [hnot] at hstopping
    contradiction
  | joined _ _ _ _ _ _ _ hactive => exact absurd hpass hactive
  | rebuilt _ _ _ _ _ _ _ _ hactive _ => exact absurd hpass hactive
  | begun hidle _ _ => simp [hidle] at hleft
  | executorGone hleaves _ _ _ =>
    rcases hleaves with hl | hl
    · simp [hl.1] at hleft
    · simp [hl.1] at hleft
  | cleared hleaves _ _ =>
    rcases hleaves with hl | hl
    · simp [hl.1] at hleft
    · simp [hl.1] at hleft
  | ended hold hphase' hexecutor _ _ _ _ _ hpass' =>
    refine ⟨hpass'.trans hpass,.inr ⟨hphase',.inl ?_⟩⟩
    rw [hexecutor]
    simpa [hold] using hleft

end

/-- Once `stop` has returned, and however passes go on, nothing is left of the pool, just when
every rebuild so far ran in time. -/
theorem stop_clears_iff (codec : Codec W) (workerCount : Nat) (ls : List Label)
    (s : PoolSystem W) (hrun : Transition.run (step codec) (init workerCount) ls = some s)
    (hstop : s.stopPhase = .returned) :
    Cleared s.pool ↔ Transition.Guarded (step codec) RebuildsInTime (init workerCount) ls := by
  have hinit : (init workerCount : PoolSystem W).StopMarked := fun h => absurd rfl h
  constructor
  · intro hcleared
    refine (Transition.guarded_or hrun hinit (fun _ _ _ hs h => hs.step h)
      (fun _ _ _ _ hlate h => leftBehind_of_late hlate h)
      (fun _ _ _ hs hleft h => hleft.step hs h)).resolve_right fun hleft => ?_
    obtain ⟨_,⟨hphase,_⟩ | ⟨_,hexecutor | hqueue⟩⟩ := hleft
    · rw [hstop] at hphase
      contradiction
    · exact hexecutor hcleared.executor
    · exact hqueue hcleared.resultQueue
  · intro hguarded
    have htaken : (init workerCount : PoolSystem W).TakenDown :=
      ⟨hinit,fun h => (by cases h),fun h => (by cases h)⟩
    have halways := hguarded.always htaken fun _ _ _ hs hok h => hs.step hok h
    exact (halways.final hrun).returned hstop

/-- A broken pool of one worker: `stop` arrives while the pass waits for the reader. -/
def restartRun : List Label :=
  [.start {},.exit 0 (.broken "abrupt end"),.supervise {},.stop,.executorStopped,.readerJoined,
    .passJoined {}]

theorem stop_clears_iff_restart : ∃ s : PoolSystem Message,
    Transition.run (step directCodec) (init 1) restartRun = some s ∧ s.stopPhase = .returned ∧
      (Cleared s.pool ↔
        Transition.Guarded (step directCodec) RebuildsInTime (init 1) restartRun) :=
  ⟨_,rfl,rfl,stop_clears_iff directCodec 1 restartRun _ rfl rfl⟩

/-- The pass comes last and builds the pool anew. -/
theorem restart_outlives_stop : ∃ s : PoolSystem Message,
    Transition.run (step directCodec) (init 1) restartRun = some s ∧ s.stopPhase = .returned ∧
      s.passPhase = .idle ∧ ¬ Cleared s.pool :=
  ⟨_,rfl,rfl,rfl,fun h => Option.some_ne_none _ h.executor⟩

end SmartDns.PoolSystem
