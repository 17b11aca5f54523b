import SmartDns.Multiprocess.Machinery
set_option autoImplicit false

/-!
Which reply a call of the pool's `process_query` returns: queries and replies are followed
from the call through the queues and a worker back to its holder.
-/

namespace SmartDns.PoolSystem

variable {W : Type} (codec : Codec W)

/-- The message carries the request of the call whose id it has. -/
def Asked (s : PoolSystem W) (m : QueryMessage W) : Prop :=
  ∃ call, s.calls m.requestId = some call ∧ codec.toWire call.request = .ok m.wire

/-- What a worker makes of a query. -/
def Answers (r : ResponseMessage W) : Prop :=
  ∃ answer, r = handleQuery codec r.workerId r.generation r.query answer

/-- A worker's reply to the call's own request, under the call's own id, that decodes to
the message. -/
def OwnReply (s : PoolSystem W) (requestId : Nat) (request response : Message) : Prop :=
  ∃ r ∈ s.produced, Answers codec r ∧ r.requestId = requestId ∧ r.query.requestId = requestId ∧
    codec.toWire request = .ok r.query.wire ∧
    ∃ wire, r.wire = some wire ∧ codec.fromWire wire = .ok response

/-- Every message that a call returned comes from its own reply, and a reply of a worker
that is not current touches no pending entry. -/
structure NeverCrosses (s : PoolSystem W) : Prop where
  own : ∀ i request response, s.calls i = some ⟨request,.finished (.ok (some response))⟩ →
    OwnReply codec s i request response
  stale : ∀ m rest s', s.callbacks = m :: rest → ¬ IsCurrentWorkerMessage s.pool m →
    step codec s .handle = some s' → s'.pool = s.pool ∧ s'.holders = s.holders

structure Inv (s : PoolSystem W) : Prop where
  fresh : ∀ i, s.pool.requestCounter ≤ i → s.calls i = none
  request : ∀ q, ∀ m ∈ s.requests q, Asked codec s m
  taken : ∀ t ∈ s.tasks, ∀ m ∈ t.taken, Asked codec s m
  produced : ∀ r ∈ s.produced, Asked codec s r.query ∧ Answers codec r
  result : ∀ q, ∀ r ∈ s.results q, r ∈ s.produced
  callback : ∀ r ∈ s.callbacks, r ∈ s.produced
  holder : ∀ i wire, (s.holders i).wire = some wire →
    ∃ r ∈ s.produced, r.requestId = i ∧ r.wire = some wire
  returned : ∀ i request response, s.calls i = some ⟨request,.finished (.ok (some response))⟩ →
    OwnReply codec s i request response

variable {codec} {s s' : PoolSystem W} {m : QueryMessage W} {r : ResponseMessage W}

theorem handleQuery_requestId (workerId generation : Nat) (m : QueryMessage W)
    (answer : Message → Except PyException (Option Message)) :
    (handleQuery codec workerId generation m answer).requestId = m.requestId := by
  unfold handleQuery
  simp only
  split <;> rfl

theorem handleQuery_query (workerId generation : Nat) (m : QueryMessage W)
    (answer : Message → Except PyException (Option Message)) :
    (handleQuery codec workerId generation m answer).query = m := by
  unfold handleQuery
  simp only
  split <;> rfl

theorem handleQuery_answers (workerId generation : Nat) (m : QueryMessage W)
    (answer : Message → Except PyException (Option Message)) :
    Answers codec (handleQuery codec workerId generation m answer) := by
  refine ⟨answer,?_⟩
  rw [handleQuery_query]
  unfold handleQuery
  simp only
  split <;> rfl

theorem Answers.requestId (h : Answers codec r) : r.query.requestId = r.requestId := by
  obtain ⟨answer,heq⟩ := h
  rw [heq,handleQuery_requestId,handleQuery_query]

/-- Calls keep their requests, and replies that were put stay known. -/
structure Extends (s s' : PoolSystem W) : Prop where
  calls : ∀ i call, s.calls i = some call →
    ∃ call', s'.calls i = some call' ∧ call'.request = call.request
  produced : ∀ r ∈ s.produced, r ∈ s'.produced

theorem Extends.of_eq (hcalls : s'.calls = s.calls) (hproduced : s'.produced = s.produced) :
    Extends s s' :=
  ⟨fun i call h => ⟨call,(congrFun hcalls i).trans h,rfl⟩,fun _ h => hproduced ▸ h⟩

theorem Asked.extends (h : Asked codec s m) (hext : Extends s s') : Asked codec s' m := by
  obtain ⟨call,hcall,hwire⟩ := h
  obtain ⟨call',hcall',hrequest⟩ := hext.calls _ call hcall
  exact ⟨call',hcall',hrequest ▸ hwire⟩

theorem OwnReply.extends {i : Nat} {request response : Message}
    (h : OwnReply codec s i request response) (hext : Extends s s') :
    OwnReply codec s' i request response := by
  obtain ⟨r,hr,hrest⟩ := h
  exact ⟨r,hext.produced r hr,hrest⟩

/-! ### Steps without queries -/

/-- Nothing is asked, taken, answered or handed over; new tasks have taken nothing. -/
structure SameTraffic (s s' : PoolSystem W) : Prop where
  counter : s'.pool.requestCounter = s.pool.requestCounter
  calls : s'.calls = s.calls
  requests : s'.requests = s.requests
  results : s'.results = s.results
  callbacks : s'.callbacks = s.callbacks
  produced : s'.produced = s.produced
  wire : ∀ i, (s'.holders i).wire = (s.holders i).wire
  tasks : ∀ t ∈ s'.tasks, t ∈ s.tasks ∨ t.taken = []

theorem SameTraffic.refl (s : PoolSystem W) : SameTraffic s s :=
  ⟨rfl,rfl,rfl,rfl,rfl,rfl,fun _ => rfl,fun _ => .inl⟩

theorem SameTraffic.trans {s'' : PoolSystem W} (h : SameTraffic s s') (h' : SameTraffic s' s'') :
    SameTraffic s s'' where
  counter := h'.counter.trans h.counter
  calls := h'.calls.trans h.calls
  requests := h'.requests.trans h.requests
  results := h'.results.trans h.results
  callbacks := h'.callbacks.trans h.callbacks
  produced := h'.produced.trans h.produced
  wire i := (h'.wire i).trans (h.wire i)
  tasks t ht := (h'.tasks t ht).elim (h.tasks t) .inr

theorem SameTraffic.mapPool {f : MultiprocessWorkerPool → MultiprocessWorkerPool}
    (h : (f s.pool).requestCounter = s.pool.requestCounter) : SameTraffic s (s.mapPool f) :=
  ⟨h,rfl,rfl,rfl,rfl,rfl,fun _ => rfl,fun _ => .inl⟩

theorem Inv.sameTraffic (hinv : Inv codec s) (h : SameTraffic s s') : Inv codec s' := by
  have hext : Extends s s' := .of_eq h.calls h.produced
  refine ⟨?_,?_,?_,?_,?_,?_,?_,?_⟩
  · intro i hi
    rw [h.calls]
    exact hinv.fresh i (h.counter ▸ hi)
  · intro q m hm
    rw [h.requests] at hm
    exact (hinv.request q m hm).extends hext
  · intro t ht m hm
    cases h.tasks t ht with
    | inl hold => exact (hinv.taken t hold m hm).extends hext
    | inr hnil => simp [hnil] at hm
  · intro r hr
    rw [h.produced] at hr
    exact (hinv.produced r hr).imp_left fun hasked => hasked.extends hext
  · intro q r hr
    rw [h.results] at hr
    exact hext.produced r (hinv.result q r hr)
  · intro r hr
    rw [h.callbacks] at hr
    exact hext.produced r (hinv.callback r hr)
  · intro i wire hwire
    rw [h.wire] at hwire
    obtain ⟨r,hr,hrest⟩ := hinv.holder i wire hwire
    exact ⟨r,hext.produced r hr,hrest⟩
  · intro i request response hcall
    rw [h.calls] at hcall
    exact (hinv.returned i request response hcall).extends hext

theorem Refitted.traffic (h : Refitted s s') : SameTraffic s s' :=
  ⟨h.requestCounter,h.calls,h.requests,h.results,h.callbacks,h.produced,fun i => by rw [h.holders],
    h.tasks⟩

theorem failPending_traffic (message : String) (s : PoolSystem W) :
    SameTraffic s (failPending message s) := by
  refine ⟨rfl,rfl,rfl,rfl,rfl,rfl,fun i => ?_,fun _ => .inl⟩
  simp only [failPending]
  split <;> rfl

theorem SameTraffic.phases {t : PoolSystem W} (h : SameTraffic s t) (stopPhase : StopPhase)
    (passPhase : PassPhase) : SameTraffic s { t with stopPhase, passPhase } :=
  ⟨h.counter,h.calls,h.requests,h.results,h.callbacks,h.produced,h.wire,h.tasks⟩

theorem finishRestart_traffic (f : Faults) (s : PoolSystem W) :
    SameTraffic s (finishRestart f s).2 :=
  (((rebuild_refits f).run (Refitted.refl s)).traffic.trans (SameTraffic.mapPool rfl)).phases _ _

theorem forceShutdown_traffic (f : Faults) (s : PoolSystem W) :
    SameTraffic s (forceShutdown f s).2 := by
  unfold forceShutdown
  split
  · exact finishRestart_traffic f s
  · exact (SameTraffic.refl s).phases _ _

theorem restartBrokenPool_traffic (f : Faults) (message : String) (s : PoolSystem W) :
    SameTraffic s (restartBrokenPool f message s).2 := by
  have hfailed : SameTraffic s (failPending ("worker pool broken: " ++ message)
      (s.mapPool fun p => { p with restarting := true })) :=
    SameTraffic.trans (SameTraffic.mapPool rfl) (failPending_traffic _ _)
  unfold restartBrokenPool
  simp only
  split
  · exact hfailed.phases _ _
  · exact hfailed.trans (forceShutdown_traffic f _)

theorem superviseEach_traffic (f : Faults) (workers : List (Nat × WorkerHandle))
    (s : PoolSystem W) : SameTraffic s (superviseEach f workers s).2 := by
  refine superviseEach_relates SameTraffic.refl SameTraffic.trans (fun s workerId => ?_)
    (fun s index handle => SameTraffic.mapPool rfl)
    (fun s message => restartBrokenPool_traffic f message s) workers s
  exact ((startWorker_refits f.submit workerId).run (Refitted.refl s)).traffic

theorem afterExecutor_traffic (s : PoolSystem W) : SameTraffic s (afterExecutor s) := by
  have hfailed := failPending_traffic "worker pool stopped" s
  unfold afterExecutor
  simp only
  split
  · exact hfailed.phases _ _
  · exact (hfailed.trans (SameTraffic.mapPool rfl)).phases _ _

theorem beginStop_traffic (s : PoolSystem W) : SameTraffic s (beginStop s) := by
  have hmarked : SameTraffic s (s.mapPool fun p => { p with stopping := true }) :=
    SameTraffic.mapPool rfl
  unfold beginStop
  simp only
  split
  · exact (hmarked.trans (SameTraffic.mapPool rfl)).trans (afterExecutor_traffic _)
  · exact hmarked.phases _ _

/-! ### Calls and replies -/

/-- What a call does to the traffic: it enters itself, and may put its own message. -/
structure Entered (codec : Codec W) (s : PoolSystem W) (request : Message) (s' : PoolSystem W) :
    Prop where
  counter : s'.pool.requestCounter = s.pool.requestCounter+1
  calls : ∃ phase, s'.calls = Function.update s.calls s.pool.requestCounter (some ⟨request,phase⟩) ∧
    ∀ response, phase ≠ .finished (.ok (some response))
  requests : ∀ q, ∀ m ∈ s'.requests q, m ∈ s.requests q ∨
    m.requestId = s.pool.requestCounter ∧ codec.toWire request = .ok m.wire
  results : s'.results = s.results
  callbacks : s'.callbacks = s.callbacks
  produced : s'.produced = s.produced
  wire : ∀ i wire, (s'.holders i).wire = some wire → (s.holders i).wire = some wire
  tasks : s'.tasks = s.tasks

theorem processQuery_entered (request : Message) (refused : Option PyException)
    (s : PoolSystem W) : Entered codec s request (processQuery codec request refused s) := by
  have hwire : ∀ i wire, (Function.update s.holders s.pool.requestCounter {} i).wire = some wire →
      (s.holders i).wire = some wire := by
    intro i wire hi
    by_cases heq : i = s.pool.requestCounter
    · simp [heq] at hi
    · rwa [Function.update_of_ne heq] at hi
  obtain ⟨n,⟨_,e,hrun⟩ | ⟨_,e,hrun⟩ | ⟨_,queue,put,hput,hrun⟩⟩ :=
    processQuery_cases (s:=s) codec request refused
  · rw [hrun]
    exact ⟨rfl,⟨_,rfl,fun _ h => (by cases h)⟩,fun _ _ h => .inl h,rfl,rfl,rfl,hwire,rfl⟩
  · rw [hrun]
    exact ⟨rfl,⟨_,rfl,fun _ h => (by cases h)⟩,fun _ _ h => .inl h,rfl,rfl,rfl,hwire,rfl⟩
  · rw [hrun]
    refine ⟨rfl,⟨_,rfl,fun _ h => (by cases h)⟩,fun q m hm => ?_,rfl,rfl,rfl,hwire,rfl⟩
    by_cases hq : q = queue
    · subst hq
      simp only [Function.update_self] at hm
      exact (List.mem_append.mp hm).imp id fun hnew => by
        obtain rfl := List.mem_singleton.mp hnew
        exact ⟨rfl,hput⟩
    · simp only [Function.update_of_ne hq] at hm
      exact .inl hm

theorem Inv.entered {request : Message} (hinv : Inv codec s) (h : Entered codec s request s') :
    Inv codec s' := by
  obtain ⟨phase,hcalls,hphase⟩ := h.calls
  have hnew : s.calls s.pool.requestCounter = none := hinv.fresh _ (Nat.le_refl _)
  have hext : Extends s s' := by
    refine ⟨fun i call hcall => ⟨call,?_,rfl⟩,fun r hr => h.produced ▸ hr⟩
    have hne : i ≠ s.pool.requestCounter := by
      intro heq
      rw [heq,hnew] at hcall
      contradiction
    rw [hcalls,Function.update_of_ne hne,hcall]
  refine ⟨?_,?_,?_,?_,?_,?_,?_,?_⟩
  · intro i hi
    have hcounter := h.counter
    have hne : i ≠ s.pool.requestCounter := by omega
    rw [hcalls,Function.update_of_ne hne]
    exact hinv.fresh i (by omega)
  · intro q m hm
    cases h.requests q m hm with
    | inl hold => exact (hinv.request q m hold).extends hext
    | inr hput =>
      refine ⟨⟨request,phase⟩,?_,hput.2⟩
      rw [hput.1,hcalls,Function.update_self]
  · intro t ht m hm
    rw [h.tasks] at ht
    exact (hinv.taken t ht m hm).extends hext
  · intro r hr
    rw [h.produced] at hr
    exact (hinv.produced r hr).imp_left fun hasked => hasked.extends hext
  · intro q r hr
    rw [h.results] at hr
    exact hext.produced r (hinv.result q r hr)
  · intro r hr
    rw [h.callbacks] at hr
    exact hext.produced r (hinv.callback r hr)
  · intro i wire hwire
    obtain ⟨r,hr,hrest⟩ := hinv.holder i wire (h.wire i wire hwire)
    exact ⟨r,hext.produced r hr,hrest⟩
  · intro i request' response hcall
    rw [hcalls] at hcall
    by_cases heq : i = s.pool.requestCounter
    · rw [heq,Function.update_self] at hcall
      cases hcall
      exact absurd rfl (hphase response)
    · rw [Function.update_of_ne heq] at hcall
      exact (hinv.returned i request' response hcall).extends hext

/-- The end of a call, with an error or with what its holder has. -/
theorem Inv.left {i : Nat} {request : Message} {result : Except PyException (Option Message)}
    (hinv : Inv codec s) (hcall : s.calls i = some ⟨request,.waiting⟩)
    (hresult : ∀ response, result = .ok (some response) →
      ∃ wire, (s.holders i).wire = some wire ∧ codec.fromWire wire = .ok response) :
    Inv codec (s.leaveQuery i request result) := by
  have hcalls : (s.leaveQuery i request result).calls =
      Function.update s.calls i (some ⟨request,.finished result⟩) := rfl
  have hext : Extends s (s.leaveQuery i request result) := by
    refine ⟨fun j call hj => ?_,fun _ => id⟩
    by_cases heq : j = i
    · subst heq
      cases hcall.symm.trans hj
      exact ⟨⟨request,.finished result⟩,by rw [hcalls,Function.update_self],rfl⟩
    · exact ⟨call,by rw [hcalls,Function.update_of_ne heq,hj],rfl⟩
  refine ⟨?_,?_,?_,?_,hinv.result,hinv.callback,hinv.holder,?_⟩
  · intro j hj
    have hnone : s.calls j = none := hinv.fresh j hj
    have hne : j ≠ i := by
      intro heq
      rw [heq,hcall] at hnone
      contradiction
    rw [hcalls,Function.update_of_ne hne,hnone]
  · exact fun q m hm => (hinv.request q m hm).extends hext
  · exact fun t ht m hm => (hinv.taken t ht m hm).extends hext
  · exact fun r hr => (hinv.produced r hr).imp_left fun hasked => hasked.extends hext
  · intro j request' response hj
    rw [hcalls] at hj
    by_cases heq : j = i
    · subst heq
      rw [Function.update_self] at hj
      cases hj
      obtain ⟨wire,hwire,hdecoded⟩ := hresult response rfl
      obtain ⟨r,hr,hid,hrwire⟩ := hinv.holder j wire hwire
      obtain ⟨⟨call,hasked,htoWire⟩,hanswers⟩ := hinv.produced r hr
      have hquery : r.query.requestId = j := hanswers.requestId.trans hid
      rw [hquery,hcall] at hasked
      cases hasked
      exact ⟨r,hr,hanswers,hid,hquery,htoWire,wire,hrwire,hdecoded⟩
    · rw [Function.update_of_ne heq] at hj
      exact (hinv.returned j request' response hj).extends hext

theorem holderResult_ok {holder : PendingHolder W} {response : Message}
    (h : holderResult codec holder = .ok (some response)) :
    ∃ wire, holder.wire = some wire ∧ codec.fromWire wire = .ok response := by
  unfold holderResult at h
  split at h
  · cases h
  · cases h
  · rename_i wire _ hwire
    obtain ⟨response',hdecoded,heq⟩ := Exec.except_bind_eq_ok.mp h
    cases heq
    exact ⟨wire,hwire,hdecoded⟩

theorem Inv.took {i : Nat} (hinv : Inv codec s) (h : takeQuery i s = some s') : Inv codec s' := by
  obtain ⟨task,htask,h⟩ := Option.bind_eq_some_iff.mp h
  obtain ⟨queue,_,h⟩ := Option.bind_eq_some_iff.mp h
  split at h
  · cases h
  · rename_i m rest hqueue
    cases h
    have hext : Extends s { s with
        requests := Function.update s.requests queue rest
        tasks := s.tasks.set i { task with taken := task.taken ++ [m] } } := .of_eq rfl rfl
    refine ⟨hinv.fresh,?_,?_,?_,hinv.result,hinv.callback,hinv.holder,hinv.returned⟩
    · intro q m' hm'
      refine (?_ : Asked codec s m').extends hext
      by_cases hq : q = queue
      · subst hq
        simp only [Function.update_self] at hm'
        exact hinv.request q m' (hqueue ▸ List.mem_cons_of_mem m hm')
      · simp only [Function.update_of_ne hq] at hm'
        exact hinv.request q m' hm'
    · intro t ht m' hm'
      refine (?_ : Asked codec s m').extends hext
      cases List.mem_or_eq_of_mem_set ht with
      | inl hold => exact hinv.taken t hold m' hm'
      | inr heq =>
        subst heq
        cases List.mem_append.mp hm' with
        | inl hold => exact hinv.taken task (List.mem_of_getElem? htask) m' hold
        | inr hnew =>
          obtain rfl := List.mem_singleton.mp hnew
          exact hinv.request queue m' (hqueue ▸ List.mem_cons_self)
    · exact fun r hr => (hinv.produced r hr).imp_left fun hasked => hasked.extends hext

theorem Inv.replied {i k : Nat} {answer : Message → Except PyException (Option Message)}
    (hinv : Inv codec s) (h : putReply codec i k answer s = some s') : Inv codec s' := by
  obtain ⟨task,htask,h⟩ := Option.bind_eq_some_iff.mp h
  obtain ⟨m,hm,h⟩ := Option.bind_eq_some_iff.mp h
  cases h
  have hmem := List.mem_of_getElem? htask
  have hasked := hinv.taken task hmem m (List.mem_of_getElem? hm)
  have hext : Extends s { s with
      tasks := s.tasks.set i { task with taken := task.taken.eraseIdx k }
      results := Function.update s.results task.executor.resultQueue
        (s.results task.executor.resultQueue ++
          [handleQuery codec task.workerId task.generation m answer])
      produced := s.produced ++ [handleQuery codec task.workerId task.generation m answer] } :=
    ⟨fun j call hj => ⟨call,hj,rfl⟩,fun r hr => List.mem_append_left _ hr⟩
  refine ⟨hinv.fresh,?_,?_,?_,?_,?_,?_,?_⟩
  · exact fun q m' hm' => (hinv.request q m' hm').extends hext
  · intro t ht m' hm'
    cases List.mem_or_eq_of_mem_set ht with
    | inl hold => exact (hinv.taken t hold m' hm').extends hext
    | inr heq =>
      subst heq
      exact (hinv.taken task hmem m' (List.mem_of_mem_eraseIdx hm')).extends hext
  · intro r hr
    cases List.mem_append.mp hr with
    | inl hold => exact (hinv.produced r hold).imp_left fun h => h.extends hext
    | inr hnew =>
      obtain rfl := List.mem_singleton.mp hnew
      refine ⟨?_,handleQuery_answers _ _ _ _⟩
      rw [handleQuery_query]
      exact hasked.extends hext
  · intro q r hr
    by_cases hq : q = task.executor.resultQueue
    · subst hq
      simp only [Function.update_self] at hr
      exact (List.mem_append.mp hr).elim (fun hold => hext.produced r (hinv.result _ r hold))
        fun hnew => List.mem_append_right _ hnew
    · simp only [Function.update_of_ne hq] at hr
      exact hext.produced r (hinv.result q r hr)
  · exact fun r hr => hext.produced r (hinv.callback r hr)
  · intro j wire hwire
    obtain ⟨r,hr,hrest⟩ := hinv.holder j wire hwire
    exact ⟨r,hext.produced r hr,hrest⟩
  · exact fun j request response hj => (hinv.returned j request response hj).extends hext

theorem Inv.handled (hinv : Inv codec s) {r : ResponseMessage W} {rest : List (ResponseMessage W)}
    (h : s.callbacks = r :: rest) : Inv codec (handleResult r { s with callbacks := rest }) := by
  have hext : Extends s { s with callbacks := rest } := .of_eq rfl rfl
  have hrest : Inv codec { s with callbacks := rest } :=
    ⟨hinv.fresh,hinv.request,hinv.taken,hinv.produced,hinv.result,
      fun r' hr' => hinv.callback r' (h ▸ List.mem_cons_of_mem r hr'),hinv.holder,hinv.returned⟩
  have hproduced : r ∈ s.produced := hinv.callback r (h ▸ List.mem_cons_self)
  unfold handleResult
  split
  · unfold handleQueryResponse
    split
    · refine ⟨hinv.fresh,hinv.request,hinv.taken,hinv.produced,hinv.result,hrest.callback,?_,
        hinv.returned⟩
      intro i wire hwire
      by_cases hi : i = r.requestId
      · subst hi
        simp only [Function.update_self] at hwire
        split at hwire
        · split at hwire
          · exact ⟨r,hproduced,rfl,hwire⟩
          · exact hinv.holder _ wire hwire
        · exact ⟨r,hproduced,rfl,hwire⟩
      · simp only [Function.update_of_ne hi] at hwire
        exact hinv.holder i wire hwire
    · exact hrest
  · exact hrest

/-- The step lemma: no step crosses queries or replies. -/
theorem Inv.step {l : Label} (hinv : Inv codec s) (h : step codec s l = some s') :
    Inv codec s' := by
  cases l with
  | start f =>
    simp only [PoolSystem.step] at h
    split at h
    · cases h
    · cases h
      exact hinv.sameTraffic ((start_refits f).run (Refitted.refl s)).traffic
  | query request refused =>
    cases h
    exact hinv.entered (processQuery_entered request refused s)
  | timeout i =>
    simp only [PoolSystem.step] at h
    split at h
    · rename_i request hcall
      cases h
      exact hinv.left hcall fun _ h => by cases h
    · cases h
  | resume i =>
    simp only [PoolSystem.step] at h
    split at h
    · rename_i request hcall
      split at h
      · cases h
        exact hinv.left hcall fun _ h => holderResult_ok h
      · cases h
    · cases h
  | take i => exact hinv.took h
  | reply i k answer => exact hinv.replied h
  | exit index future =>
    simp only [PoolSystem.step] at h
    split at h
    · split at h
      · cases h
      · cases h
        exact hinv.sameTraffic (SameTraffic.mapPool rfl)
    · cases h
  | read queue =>
    simp only [PoolSystem.step] at h
    split at h
    · cases h
    · rename_i r rest hqueue
      cases h
      refine ⟨hinv.fresh,hinv.request,hinv.taken,hinv.produced,fun q r' hr' => ?_,
        fun r' hr' => ?_,hinv.holder,hinv.returned⟩
      · by_cases hq : q = queue
        · subst hq
          simp only [Function.update_self] at hr'
          exact hinv.result q r' (hqueue ▸ List.mem_cons_of_mem r hr')
        · simp only [Function.update_of_ne hq] at hr'
          exact hinv.result q r' hr'
      · cases List.mem_append.mp hr' with
        | inl hold => exact hinv.callback r' hold
        | inr hnew =>
          obtain rfl := List.mem_singleton.mp hnew
          exact hinv.result queue r' (hqueue ▸ List.mem_cons_self)
  | handle =>
    simp only [PoolSystem.step] at h
    split at h
    · cases h
    · rename_i r rest hcallbacks
      cases h
      exact hinv.handled hcallbacks
  | supervise f =>
    simp only [PoolSystem.step] at h
    split at h
    · cases h
      unfold restartFinishedWorkersOnce
      split
      · exact hinv
      · exact hinv.sameTraffic (superviseEach_traffic f _ s)
    · cases h
  | passJoined f =>
    simp only [PoolSystem.step] at h
    split at h
    · cases h
      exact hinv.sameTraffic ((SameTraffic.mapPool rfl).trans (forceShutdown_traffic f _))
    · cases h
  | passShutDown f =>
    simp only [PoolSystem.step] at h
    split at h
    · cases h
      exact hinv.sameTraffic ((SameTraffic.mapPool rfl).trans (finishRestart_traffic f _))
    · cases h
  | stop =>
    simp only [PoolSystem.step] at h
    split at h
    · cases h
      exact hinv.sameTraffic (beginStop_traffic s)
    · cases h
  | executorStopped =>
    simp only [PoolSystem.step] at h
    split at h
    · cases h
      exact hinv.sameTraffic ((SameTraffic.mapPool rfl).trans (afterExecutor_traffic _))
    · cases h
  | readerJoined =>
    simp only [PoolSystem.step] at h
    split at h
    · cases h
      exact hinv.sameTraffic
        (((SameTraffic.mapPool rfl).trans (SameTraffic.mapPool rfl)).phases _ _)
    · cases h

theorem Inv.neverCrosses (hinv : Inv codec s) : NeverCrosses codec s where
  own := hinv.returned
  stale m rest s' hcallbacks hstale h := by
    have hstale' : ¬ IsCurrentWorkerMessage { s with callbacks := rest }.pool m := hstale
    simp only [PoolSystem.step,hcallbacks,handleResult,if_neg hstale'] at h
    cases h
    exact ⟨rfl,rfl⟩

/-- Along every run a call returns the decoding of its own reply only, and replies of workers
that are not current change nothing. -/
theorem processQuery_neverCrosses (codec : Codec W) (workerCount : Nat) (ls : List Label) :
    Transition.Always (step codec) (NeverCrosses codec) (init workerCount) ls := by
  have hinit : Inv codec (init workerCount) := by
    refine ⟨fun _ _ => rfl,?_,?_,?_,?_,?_,?_,?_⟩ <;> simp [init]
  have halways : Transition.Always (step codec) (Inv codec) (init workerCount) ls :=
    Transition.always_of_step hinit fun _ _ _ hinv h => hinv.step h
  exact halways.mono fun s hinv => hinv.neverCrosses

end SmartDns.PoolSystem
