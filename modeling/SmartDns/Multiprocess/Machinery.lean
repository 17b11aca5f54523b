import SmartDns.Multiprocess.Pool
set_option autoImplicit false

/-!
What each part of the pool leaves alone: creating and replacing workers touches no call,
and a call touches nothing but its own entry.
-/

namespace SmartDns.PoolSystem

variable {W : Type}

/-! ### The machinery -/

/-- Nothing but the executor, its queues, workers, tasks and reader has changed. -/
structure Refitted (s s' : PoolSystem W) : Prop where
  workerCount : s'.pool.workerCount = s.pool.workerCount
  pending : s'.pool.pending = s.pool.pending
  requestCounter : s'.pool.requestCounter = s.pool.requestCounter
  workerCounter : s'.pool.workerCounter = s.pool.workerCounter
  stopping : s'.pool.stopping = s.pool.stopping
  restarting : s'.pool.restarting = s.pool.restarting
  holders : s'.holders = s.holders
  calls : s'.calls = s.calls
  requests : s'.requests = s.requests
  results : s'.results = s.results
  callbacks : s'.callbacks = s.callbacks
  produced : s'.produced = s.produced
  tasks : ∀ t ∈ s'.tasks, t ∈ s.tasks ∨ t.taken = []
  stopPhase : s'.stopPhase = s.stopPhase
  passPhase : s'.passPhase = s.passPhase
  started : s.pool.started = true → s'.pool.started = true

section
variable {s s' s'' : PoolSystem W}

theorem Refitted.refl (s : PoolSystem W) : Refitted s s :=
  ⟨rfl,rfl,rfl,rfl,rfl,rfl,rfl,rfl,rfl,rfl,rfl,rfl,fun _ => .inl,rfl,rfl,id⟩

theorem Refitted.trans (h : Refitted s s') (h' : Refitted s' s'') : Refitted s s'' where
  workerCount := h'.workerCount.trans h.workerCount
  pending := h'.pending.trans h.pending
  requestCounter := h'.requestCounter.trans h.requestCounter
  workerCounter := h'.workerCounter.trans h.workerCounter
  stopping := h'.stopping.trans h.stopping
  restarting := h'.restarting.trans h.restarting
  holders := h'.holders.trans h.holders
  calls := h'.calls.trans h.calls
  requests := h'.requests.trans h.requests
  results := h'.results.trans h.results
  callbacks := h'.callbacks.trans h.callbacks
  produced := h'.produced.trans h.produced
  tasks t ht := (h'.tasks t ht).elim (h.tasks t) .inr
  stopPhase := h'.stopPhase.trans h.stopPhase
  passPhase := h'.passPhase.trans h.passPhase
  started hs := h'.started (h.started hs)

abbrev Refits (s : PoolSystem W) {α : Type} (x : PoolExec W α) : Prop := Exec.Keeps (Refitted s) x

theorem raiseIf_keeps {P : PoolSystem W → Prop} (e : Option PyException) :
    Exec.Keeps P (raiseIf e) := by
  cases e with
  | none => exact Exec.Keeps.pure ()
  | some e => exact Exec.Keeps.of_run fun s hs => hs

theorem modify_refits {f : PoolSystem W → PoolSystem W} (h : ∀ t, Refitted t (f t)) :
    Refits s (Exec.modify f) :=
  Exec.Keeps.modify fun t ht => ht.trans (h t)

theorem createIpcResources_refits (f : Faults) : Refits s (createIpcResources f) := by
  refine (raiseIf_keeps _).bind fun _ => ?_
  refine (modify_refits fun t => ?_).bind fun _ => ?_
  · exact ⟨rfl,rfl,rfl,rfl,rfl,rfl,rfl,rfl,rfl,rfl,rfl,rfl,fun _ => .inl,rfl,rfl,id⟩
  · refine (raiseIf_keeps _).bind fun _ => modify_refits fun t => ?_
    exact ⟨rfl,rfl,rfl,rfl,rfl,rfl,rfl,rfl,rfl,rfl,rfl,rfl,fun _ => .inl,rfl,rfl,id⟩

theorem createExecutor_refits (f : Faults) : Refits s (createExecutor f) := by
  refine Exec.Keeps.get.bind fun t => ?_
  split
  · exact Exec.Keeps.of_run fun _ h => h
  · refine (raiseIf_keeps _).bind fun _ => modify_refits fun t => ?_
    exact ⟨rfl,rfl,rfl,rfl,rfl,rfl,rfl,rfl,rfl,rfl,rfl,rfl,fun _ => .inl,rfl,rfl,id⟩

theorem startWorker_refits (submit : Nat → Option PyException) (workerId : Nat) :
    Refits s (startWorker submit workerId) := by
  refine Exec.Keeps.get.bind fun t => ?_
  split
  · exact Exec.Keeps.of_run fun _ h => h
  · exact Exec.Keeps.of_run fun _ h => h
  · refine (modify_refits fun t => ?_).bind fun _ => ?_
    · exact ⟨rfl,rfl,rfl,rfl,rfl,rfl,rfl,rfl,rfl,rfl,rfl,rfl,fun _ => .inl,rfl,rfl,id⟩
    · refine (raiseIf_keeps _).bind fun _ => ?_
      refine (modify_refits fun t => ?_).bind fun _ => Exec.Keeps.pure _
      refine ⟨rfl,rfl,rfl,rfl,rfl,rfl,rfl,rfl,rfl,rfl,rfl,rfl,fun task htask => ?_,rfl,rfl,id⟩
      refine (List.mem_append.mp htask).imp id fun hnew => ?_
      rw [List.mem_singleton.mp hnew]

theorem startEach_refits (submit : Nat → Option PyException) (ids : List Nat) :
    Refits s (startEach submit ids) := by
  induction ids with
  | nil => exact Exec.Keeps.pure []
  | cons id ids ih =>
    refine (startWorker_refits submit id).bind fun _ => ?_
    exact ih.bind fun _ => Exec.Keeps.pure _

theorem updatePool_refits {f : MultiprocessWorkerPool → MultiprocessWorkerPool}
    (h : ∀ t : PoolSystem W, Refitted t (t.mapPool f)) : Refits s (updatePool f) := modify_refits h

theorem startWorkers_refits (f : Faults) : Refits s (startWorkers f) := by
  refine Exec.Keeps.get.bind fun t => (startEach_refits f.submit _).bind fun workers => ?_
  exact updatePool_refits fun t =>
    ⟨rfl,rfl,rfl,rfl,rfl,rfl,rfl,rfl,rfl,rfl,rfl,rfl,fun _ => .inl,rfl,rfl,id⟩

theorem startResultReader_refits (f : Faults) : Refits s (startResultReader f) := by
  refine (updatePool_refits fun t => ?_).bind fun _ => raiseIf_keeps _
  exact ⟨rfl,rfl,rfl,rfl,rfl,rfl,rfl,rfl,rfl,rfl,rfl,rfl,fun _ => .inl,rfl,rfl,id⟩

theorem equip_refits (f : Faults) : Refits s (equip f) :=
  (createIpcResources_refits f).bind fun _ => (createExecutor_refits f).bind fun _ =>
    (startWorkers_refits f).bind fun _ => startResultReader_refits f

theorem start_refits (f : Faults) : Refits s (start f) := by
  refine (updatePool_refits fun t => ?_).bind fun _ => equip_refits f
  exact ⟨rfl,rfl,rfl,rfl,rfl,rfl,rfl,rfl,rfl,rfl,rfl,rfl,fun _ => .inl,rfl,rfl,fun _ => rfl⟩

theorem rebuild_refits (f : Faults) : Refits s (rebuild f) := by
  refine (updatePool_refits fun t => ?_).bind fun _ => (updatePool_refits fun t => ?_).bind fun _ =>
    equip_refits f
  · exact ⟨rfl,rfl,rfl,rfl,rfl,rfl,rfl,rfl,rfl,rfl,rfl,rfl,fun _ => .inl,rfl,rfl,id⟩
  · exact ⟨rfl,rfl,rfl,rfl,rfl,rfl,rfl,rfl,rfl,rfl,rfl,rfl,fun _ => .inl,rfl,rfl,id⟩

end

/-- What starting a worker and giving up the executor do to a pool, a pass over its workers
does. -/
theorem superviseEach_relates {W : Type} {R : PoolSystem W → PoolSystem W → Prop} {f : Faults}
    (hrefl : ∀ s, R s s) (htrans : ∀ {s t u}, R s t → R t u → R s u)
    (hstart : ∀ s workerId, R s (startWorker f.submit workerId s).2)
    (hset : ∀ s index handle, R s (s.mapPool fun p =>
      { p with workers := p.workers.set index handle }))
    (hbroken : ∀ s message, R s (restartBrokenPool f message s).2)
    (workers : List (Nat × WorkerHandle)) (s : PoolSystem W) :
    R s (superviseEach f workers s).2 := by
  induction workers generalizing s with
  | nil => exact hrefl s
  | cons w rest ih =>
    obtain ⟨index,worker⟩ := w
    have hstarted := hstart s worker.workerId
    have hrestarted {handle : WorkerHandle} {s' : PoolSystem W} (h : R s s') :
        R s (superviseEach f rest (s'.mapPool fun p =>
          { p with workers := p.workers.set index handle })).2 :=
      htrans (htrans h (hset s' index handle)) (ih _)
    unfold superviseEach
    cases worker.future with
    | running => exact ih s
    | broken message => exact hbroken s message
    | returned | raised =>
      rcases hrun : startWorker f.submit worker.workerId s with ⟨e | handle,s'⟩
      · rw [hrun] at hstarted
        simpa only [hrun] using hstarted
      · rw [hrun] at hstarted
        simpa only [hrun] using hrestarted hstarted

/-! ### A call -/

/-- A worker whose task has not ended. -/
def HasLiveWorker (s : PoolSystem W) : Prop := ∃ w ∈ s.pool.workers, w.future.done = false

/-- Going on from anywhere comes to every place of a round. -/
theorem exists_offset (start : Nat) {n i : Nat} (hi : i < n) :
    ∃ offset < n, (start+offset)%n = i := by
  have hlt : start%n < n := Nat.mod_lt start (by omega)
  by_cases hle : start%n ≤ i
  · refine ⟨i-start%n,by omega,?_⟩
    rw [← Nat.mod_add_mod,Nat.add_sub_cancel' hle,Nat.mod_eq_of_lt hi]
  · refine ⟨i+n-start%n,by omega,?_⟩
    have hsum : start%n+(i+n-start%n) = i+n := by omega
    rw [← Nat.mod_add_mod,hsum,Nat.add_mod_right,Nat.mod_eq_of_lt hi]

section
variable {s : PoolSystem W}

/-- The search of `_next_worker`, round the workers from where it starts. -/
def liveFrom (s : PoolSystem W) (offset : Nat) : Option WorkerHandle :=
  (s.pool.workers[(s.pool.workerCounter+offset)%s.pool.workers.length]?).filter
    fun w => !w.future.done

theorem nextWorker_search (hne : s.pool.workers ≠ []) :
    nextWorker s =
      ((match (List.range s.pool.workers.length).findSome? s.liveFrom with
        | some worker => .ok worker
        | none => .error (PyException.runtimeError "没有可用 worker")),
      s.mapPool fun p => { p with workerCounter := p.workerCounter+1 }) := by
  unfold nextWorker
  rw [Exec.bind_ok (Exec.run_get s),if_neg hne]
  cases hfound : (List.range s.pool.workers.length).findSome? s.liveFrom with
  | none =>
    unfold liveFrom at hfound
    simp only [updatePool,Exec.run_bind,Exec.run_modify,hfound]
    rfl
  | some worker =>
    unfold liveFrom at hfound
    simp only [updatePool,Exec.run_bind,Exec.run_modify,hfound]
    rfl

theorem liveFrom_some {offset : Nat} {w : WorkerHandle} (h : s.liveFrom offset = some w) :
    w ∈ s.pool.workers ∧ w.future.done = false := by
  obtain ⟨hw,hlive⟩ := Option.filter_eq_some_iff.mp h
  exact ⟨List.mem_of_getElem? hw,by simpa using hlive⟩

theorem nextWorker_live (h : HasLiveWorker s) :
    ∃ w, w ∈ s.pool.workers ∧ w.future.done = false ∧ nextWorker s =
      (.ok w,s.mapPool fun p => { p with workerCounter := p.workerCounter+1 }) := by
  obtain ⟨live,hlive,hnotDone⟩ := h
  have hrun := nextWorker_search (List.ne_nil_of_mem hlive)
  cases hfound : (List.range s.pool.workers.length).findSome? s.liveFrom with
  | some w =>
    rw [hfound] at hrun
    obtain ⟨offset,_,hoffset⟩ := List.exists_of_findSome?_eq_some hfound
    obtain ⟨hw,hrunning⟩ := liveFrom_some hoffset
    exact ⟨w,hw,hrunning,hrun⟩
  | none =>
    obtain ⟨i,hi,hget⟩ := List.getElem_of_mem hlive
    obtain ⟨offset,hoffset,hplace⟩ := exists_offset s.pool.workerCounter hi
    have hnone := List.findSome?_eq_none_iff.mp hfound offset (List.mem_range.mpr hoffset)
    simp [liveFrom,hplace,List.getElem?_eq_getElem hi,hget,hnotDone] at hnone

theorem nextWorker_dead (h : ¬ HasLiveWorker s) :
    ∃ e n, nextWorker s = (.error e,s.mapPool fun p => { p with workerCounter := n }) := by
  by_cases hnil : s.pool.workers = []
  · unfold nextWorker
    rw [Exec.bind_ok (Exec.run_get s),if_pos hnil]
    exact ⟨_,s.pool.workerCounter,rfl⟩
  · have hrun := nextWorker_search hnil
    cases hfound : (List.range s.pool.workers.length).findSome? s.liveFrom with
    | some w =>
      obtain ⟨offset,_,hoffset⟩ := List.exists_of_findSome?_eq_some hfound
      exact absurd ⟨w,liveFrom_some hoffset⟩ h
    | none =>
      rw [hfound] at hrun
      exact ⟨_,_,hrun⟩

/-- The state in which a call looks for its worker. -/
def entered (s : PoolSystem W) : PoolSystem W :=
  { s.mapPool fun p => { p with
      requestCounter := p.requestCounter+1, pending := p.pending ++ [p.requestCounter] } with
    holders := Function.update s.holders s.pool.requestCounter {} }

variable (codec : Codec W) (request : Message) (refused : Option PyException)

theorem processQuery_run : processQuery codec request refused s =
    match nextWorker s.entered with
    | (.error e,s') => s'.setCall s.pool.requestCounter ⟨request,.finished (.error e)⟩
    | (.ok worker,s') =>
      match codec.toWire request, refused with
      | .error e, _ => s'.leaveQuery s.pool.requestCounter request (.error e)
      | .ok _, some e => s'.leaveQuery s.pool.requestCounter request (.error e)
      | .ok wire, none =>
        { s'.setCall s.pool.requestCounter ⟨request,.waiting⟩ with
          requests := Function.update s'.requests worker.requestQueue
            (s'.requests worker.requestQueue ++ [⟨s.pool.requestCounter,wire⟩]) } := rfl

/-- With a worker to take it, a call waits with its message in a queue or ends without its
entry; without one it ends with its entry left. -/
theorem processQuery_cases :
    ∃ n, (¬ HasLiveWorker s ∧ ∃ e, processQuery codec request refused s =
        (s.entered.mapPool fun p => { p with workerCounter := n }).setCall s.pool.requestCounter
          ⟨request,.finished (.error e)⟩) ∨
      (HasLiveWorker s ∧ ∃ e, processQuery codec request refused s =
        (s.entered.mapPool fun p => { p with workerCounter := n }).leaveQuery
          s.pool.requestCounter request (.error e)) ∨
      (HasLiveWorker s ∧ ∃ queue wire, codec.toWire request = .ok wire ∧
        processQuery codec request refused s =
          { (s.entered.mapPool fun p => { p with workerCounter := n }).setCall
              s.pool.requestCounter ⟨request,.waiting⟩ with
            requests := Function.update s.requests queue
              (s.requests queue ++ [⟨s.pool.requestCounter,wire⟩]) }) := by
  by_cases hlive : HasLiveWorker s
  · obtain ⟨worker,_,_,hnext⟩ := nextWorker_live (s:=s.entered) hlive
    refine ⟨s.pool.workerCounter+1,.inr ?_⟩
    rw [processQuery_run,hnext]
    cases hwire : codec.toWire request with
    | error e => exact .inl ⟨hlive,e,rfl⟩
    | ok wire =>
      cases refused with
      | some e => exact .inl ⟨hlive,e,rfl⟩
      | none => exact .inr ⟨hlive,worker.requestQueue,wire,rfl,rfl⟩
  · obtain ⟨e,n,hnext⟩ := nextWorker_dead (s:=s.entered) hlive
    refine ⟨n,.inl ⟨hlive,e,?_⟩⟩
    rw [processQuery_run,hnext]

end

end SmartDns.PoolSystem
