import SmartDns.Multiprocess.Machinery
import SmartDns.Dns.Answer
set_option autoImplicit false

/-!
What the calls of `process_query` leave in `_pending`: a call takes its own entry out on
every way out of its `try`, and `_next_worker` raises before it.
-/

namespace SmartDns.PoolSystem

variable {W : Type} {codec : Codec W} {s s' : PoolSystem W}

/-- The call whose own code a step runs. -/
def callOf (s : PoolSystem W) : Label → Option Nat
  | .query _ _ => some s.pool.requestCounter
  | .timeout requestId => some requestId
  | .resume requestId => some requestId
  | _ => none

/-- A call that has returned or raised has no entry. -/
def ExitsClean (s : PoolSystem W) : Prop :=
  ∀ requestId request result, s.calls requestId = some ⟨request,.finished result⟩ →
    requestId ∉ s.pool.pending

/-- The code of a call changes no entry but its own. -/
def LeavesOthers (codec : Codec W) (s : PoolSystem W) (l : Label) : Prop :=
  ∀ requestId s', callOf s l = some requestId → step codec s l = some s' →
    (s'.pool.pending.filter fun i => i ≠ requestId) =
        s.pool.pending.filter (fun i => i ≠ requestId) ∧
      ∀ i, i ≠ requestId → s'.holders i = s.holders i

/-- A call comes when there is a worker to take it. -/
def EntersLive (s : PoolSystem W) : Label → Prop
  | .query _ _ => HasLiveWorker s
  | _ => True

/-- Ids are given once, and an entry is that of a call. -/
structure Booked (s : PoolSystem W) : Prop where
  fresh : ∀ i, s.pool.requestCounter ≤ i → s.calls i = none
  entry : ∀ i ∈ s.pool.pending, i < s.pool.requestCounter
  nodup : s.pool.pending.Nodup

/-! ### Steps of no call -/

/-- No call moves; its entry stays, or all are gone. -/
structure SameBooks (s s' : PoolSystem W) : Prop where
  counter : s'.pool.requestCounter = s.pool.requestCounter
  calls : s'.calls = s.calls
  pending : s'.pool.pending = s.pool.pending ∨ s'.pool.pending = []

theorem SameBooks.refl (s : PoolSystem W) : SameBooks s s := ⟨rfl,rfl,.inl rfl⟩

theorem SameBooks.trans {t : PoolSystem W} (h : SameBooks s t) (h' : SameBooks t s') :
    SameBooks s s' where
  counter := h'.counter.trans h.counter
  calls := h'.calls.trans h.calls
  pending := by
    cases h'.pending with
    | inl hsame => exact h.pending.imp hsame.trans hsame.trans
    | inr hnil => exact .inr hnil

theorem Refitted.books (h : Refitted s s') : SameBooks s s' :=
  ⟨h.requestCounter,h.calls,.inl h.pending⟩

theorem finishRestart_books (f : Faults) (s : PoolSystem W) :
    SameBooks s (finishRestart f s).2 :=
  ((rebuild_refits f).run (Refitted.refl s)).books.trans ⟨rfl,rfl,.inl rfl⟩

theorem forceShutdown_books (f : Faults) (s : PoolSystem W) :
    SameBooks s (forceShutdown f s).2 := by
  unfold forceShutdown
  split
  · exact finishRestart_books f s
  · exact ⟨rfl,rfl,.inl rfl⟩

theorem restartBrokenPool_books (f : Faults) (message : String) (s : PoolSystem W) :
    SameBooks s (restartBrokenPool f message s).2 := by
  have hfailed : SameBooks s (failPending ("worker pool broken: " ++ message)
      (s.mapPool fun p => { p with restarting := true })) := ⟨rfl,rfl,.inr rfl⟩
  unfold restartBrokenPool
  simp only
  split
  · exact ⟨rfl,rfl,.inr rfl⟩
  · exact hfailed.trans (forceShutdown_books f _)

theorem superviseEach_books (f : Faults) (workers : List (Nat × WorkerHandle))
    (s : PoolSystem W) : SameBooks s (superviseEach f workers s).2 := by
  refine superviseEach_relates SameBooks.refl SameBooks.trans (fun s workerId => ?_)
    (fun s index handle => ⟨rfl,rfl,.inl rfl⟩)
    (fun s message => restartBrokenPool_books f message s) workers s
  exact ((startWorker_refits f.submit workerId).run (Refitted.refl s)).books

theorem afterExecutor_books (s : PoolSystem W) : SameBooks s (afterExecutor s) := by
  unfold afterExecutor
  simp only
  split
  · exact ⟨rfl,rfl,.inr rfl⟩
  · exact ⟨rfl,rfl,.inr rfl⟩

theorem beginStop_books (s : PoolSystem W) : SameBooks s (beginStop s) := by
  unfold beginStop
  simp only
  split
  · exact SameBooks.trans (t:=s.mapPool fun p => { p with stopping := true, workers := [] })
      ⟨rfl,rfl,.inl rfl⟩ (afterExecutor_books _)
  · exact ⟨rfl,rfl,.inl rfl⟩

theorem handleResult_books (m : ResponseMessage W) (s : PoolSystem W) :
    SameBooks s (handleResult m s) := by
  unfold handleResult
  split
  · unfold handleQueryResponse
    split
    · exact ⟨rfl,rfl,.inl rfl⟩
    · exact SameBooks.refl s
  · exact SameBooks.refl s

/-- What a step does to the books. -/
inductive BooksChange (codec : Codec W) (s : PoolSystem W) (l : Label) (s' : PoolSystem W) : Prop
  where
  | same (hl : callOf s l = none) (hlive : EntersLive s l) (h : SameBooks s s')
  | stuck (request : Message) (e : PyException) (n : Nat)
      (hl : callOf s l = some s.pool.requestCounter) (hdead : ¬ EntersLive s l)
      (h : s' = (s.entered.mapPool fun p => { p with workerCounter := n }).setCall
        s.pool.requestCounter ⟨request,.finished (.error e)⟩)
  | refused (request : Message) (e : PyException) (n : Nat)
      (hl : callOf s l = some s.pool.requestCounter) (hlive : EntersLive s l)
      (h : s' = (s.entered.mapPool fun p => { p with workerCounter := n }).leaveQuery
        s.pool.requestCounter request (.error e))
  | waits (request : Message) (n : Nat) (hl : callOf s l = some s.pool.requestCounter)
      (hlive : EntersLive s l) (requests : Nat → List (QueryMessage W))
      (h : s' = { (s.entered.mapPool fun p => { p with workerCounter := n }).setCall
        s.pool.requestCounter ⟨request,.waiting⟩ with requests })
  | left (requestId : Nat) (request : Message) (result : Except PyException (Option Message))
      (hl : callOf s l = some requestId) (hlive : EntersLive s l)
      (hcall : s.calls requestId = some ⟨request,.waiting⟩)
      (h : s' = s.leaveQuery requestId request result)

theorem step_books {l : Label} (h : step codec s l = some s') : BooksChange codec s l s' := by
  cases l with
  | query request refused =>
    cases h
    obtain ⟨n,⟨hdead,e,hrun⟩ | ⟨hlive,e,hrun⟩ | ⟨hlive,_,_,_,hrun⟩⟩ :=
      processQuery_cases (s:=s) codec request refused
    · exact .stuck request e n rfl hdead hrun
    · exact .refused request e n rfl hlive hrun
    · exact .waits request n rfl hlive _ hrun
  | timeout i =>
    simp only [step] at h
    split at h
    · rename_i request hcall
      cases h
      exact .left i request _ rfl trivial hcall rfl
    · cases h
  | resume i =>
    simp only [step] at h
    split at h
    · rename_i request hcall
      split at h
      · cases h
        exact .left i request _ rfl trivial hcall rfl
      · cases h
    · cases h
  | start f =>
    simp only [step] at h
    split at h
    · cases h
    · cases h
      exact .same rfl trivial ((start_refits f).run (Refitted.refl s)).books
  | take i =>
    obtain ⟨task,_,h⟩ := Option.bind_eq_some_iff.mp h
    obtain ⟨queue,_,h⟩ := Option.bind_eq_some_iff.mp h
    split at h
    · cases h
    · cases h
      exact .same rfl trivial ⟨rfl,rfl,.inl rfl⟩
  | reply i k answer =>
    obtain ⟨task,_,h⟩ := Option.bind_eq_some_iff.mp h
    obtain ⟨m,_,h⟩ := Option.bind_eq_some_iff.mp h
    cases h
    exact .same rfl trivial ⟨rfl,rfl,.inl rfl⟩
  | exit index future =>
    simp only [step] at h
    split at h
    · split at h
      · cases h
      · cases h
        exact .same rfl trivial ⟨rfl,rfl,.inl rfl⟩
    · cases h
  | read queue =>
    simp only [step] at h
    split at h
    · cases h
    · cases h
      exact .same rfl trivial ⟨rfl,rfl,.inl rfl⟩
  | handle =>
    simp only [step] at h
    split at h
    · cases h
    · rename_i m rest hcallbacks
      cases h
      exact .same rfl trivial (SameBooks.trans (t:={ s with callbacks := rest }) ⟨rfl,rfl,.inl rfl⟩
        (handleResult_books m _))
  | supervise f =>
    simp only [step] at h
    split at h
    · cases h
      refine .same rfl trivial ?_
      unfold restartFinishedWorkersOnce
      split
      · exact SameBooks.refl s
      · exact superviseEach_books f _ s
    · cases h
  | passJoined f =>
    simp only [step] at h
    split at h
    · cases h
      exact .same rfl trivial
        (SameBooks.trans (t:=s.mapPool fun p => { p with readerThread := false })
          ⟨rfl,rfl,.inl rfl⟩ (forceShutdown_books f _))
    · cases h
  | passShutDown f =>
    simp only [step] at h
    split at h
    · cases h
      exact .same rfl trivial (SameBooks.trans (t:=s.mapPool fun p => { p with executor := none })
        ⟨rfl,rfl,.inl rfl⟩ (finishRestart_books f _))
    · cases h
  | stop =>
    simp only [step] at h
    split at h
    · cases h
      exact .same rfl trivial (beginStop_books s)
    · cases h
  | executorStopped =>
    simp only [step] at h
    split at h
    · cases h
      exact .same rfl trivial (SameBooks.trans
        (t:=s.mapPool fun p => { p with executor := none, workers := [] })
        ⟨rfl,rfl,.inl rfl⟩ (afterExecutor_books _))
    · cases h
  | readerJoined =>
    simp only [step] at h
    split at h
    · cases h
      exact .same rfl trivial ⟨rfl,rfl,.inl rfl⟩
    · cases h

/-! ### Steps of a call -/

theorem Booked.nodup_entered (hs : Booked s) :
    (s.pool.pending ++ [s.pool.requestCounter]).Nodup := by
  refine List.nodup_append.mpr ⟨hs.nodup,List.nodup_singleton _,fun i hi j hj => ?_⟩
  have hlt := hs.entry i hi
  have heq := List.mem_singleton.mp hj
  omega

theorem Booked.step {l : Label} (hs : Booked s) (h : step codec s l = some s') : Booked s' := by
  have hnew (call : PoolCall) (i : Nat) (hi : s.pool.requestCounter+1 ≤ i) :
      Function.update s.calls s.pool.requestCounter (some call) i = none := by
    rw [Function.update_of_ne (by omega)]
    exact hs.fresh i (by omega)
  have hentry : ∀ i ∈ s.pool.pending ++ [s.pool.requestCounter], i < s.pool.requestCounter+1 := by
    intro i hi
    cases List.mem_append.mp hi with
    | inl hold => exact Nat.lt_succ_of_lt (hs.entry i hold)
    | inr hlast => exact (List.mem_singleton.mp hlast) ▸ Nat.lt_succ_self _
  have hnodup := hs.nodup_entered
  cases step_books h with
  | same _ _ h =>
    refine ⟨fun i hi => ?_,fun i hi => ?_,?_⟩
    · rw [h.calls]
      exact hs.fresh i (h.counter ▸ hi)
    · rw [h.counter]
      cases h.pending with
      | inl hsame => exact hs.entry i (hsame ▸ hi)
      | inr hnil => simp [hnil] at hi
    · cases h.pending with
      | inl hsame => exact hsame ▸ hs.nodup
      | inr hnil => exact hnil ▸ List.nodup_nil
  | stuck request e n _ _ h =>
    subst h
    exact ⟨hnew _,hentry,hnodup⟩
  | refused request e n _ _ h =>
    subst h
    exact ⟨hnew _,fun i hi => hentry i (List.mem_of_mem_erase hi),hnodup.erase _⟩
  | waits request n _ _ requests h =>
    subst h
    exact ⟨hnew _,hentry,hnodup⟩
  | left requestId request result _ _ hcall h =>
    subst h
    refine ⟨fun i hi => ?_,fun i hi => hs.entry i (List.mem_of_mem_erase hi),hs.nodup.erase _⟩
    have hnone := hs.fresh i hi
    have hne : i ≠ requestId := by
      intro heq
      rw [heq,hcall] at hnone
      cases hnone
    exact (Function.update_of_ne hne _ _).trans hnone

theorem filter_erase_self (l : List Nat) (i : Nat) :
    ((l.erase i).filter fun j => j ≠ i) = l.filter fun j => j ≠ i := by
  induction l with
  | nil => rfl
  | cons x l ih =>
    by_cases hx : x = i
    · simp [hx]
    · rw [List.erase_cons_tail (by simpa using hx),List.filter_cons,List.filter_cons,ih]

theorem leavesOthers_always (codec : Codec W) (s : PoolSystem W) (l : Label) :
    LeavesOthers codec s l := by
  intro requestId s' hcall h
  cases step_books h with
  | same hl _ _ =>
    rw [hl] at hcall
    cases hcall
  | stuck request e n hl _ h =>
    subst h
    cases hl.symm.trans hcall
    exact ⟨by simp [setCall,mapPool,entered],fun i hi => Function.update_of_ne hi _ _⟩
  | refused request e n hl _ h =>
    subst h
    cases hl.symm.trans hcall
    refine ⟨?_,fun i hi => Function.update_of_ne hi _ _⟩
    exact (filter_erase_self _ _).trans (by simp [mapPool,entered])
  | waits request n hl _ requests h =>
    subst h
    cases hl.symm.trans hcall
    exact ⟨by simp [setCall,mapPool,entered],fun i hi => Function.update_of_ne hi _ _⟩
  | left i request result hl _ _ h =>
    subst h
    cases hl.symm.trans hcall
    exact ⟨filter_erase_self _ _,fun _ _ => rfl⟩

/-- A step keeps the way out clean, unless a call comes that no worker can take. -/
theorem ExitsClean.step {l : Label} (hs : Booked s) (hclean : ExitsClean s)
    (hlive : EntersLive s l) (h : step codec s l = some s') : ExitsClean s' := by
  intro i request' result' hfinished
  have hold (hne : i ≠ s.pool.requestCounter) (call : PoolCall) (hcall : Function.update s.calls
      s.pool.requestCounter (some call) i = some ⟨request',.finished result'⟩) :
      i ∉ s.pool.pending ++ [s.pool.requestCounter] := by
    rw [Function.update_of_ne hne] at hcall
    intro hmem
    cases List.mem_append.mp hmem with
    | inl hold => exact hclean i request' result' hcall hold
    | inr hlast => exact hne (List.mem_singleton.mp hlast)
  cases step_books h with
  | same _ _ h =>
    rw [h.calls] at hfinished
    have hnot := hclean i request' result' hfinished
    cases h.pending with
    | inl hsame => rwa [hsame]
    | inr hnil => simp [hnil]
  | stuck _ _ _ _ hdead _ => exact absurd hlive hdead
  | refused request e n _ _ h =>
    subst h
    intro hmem
    by_cases hne : i = s.pool.requestCounter
    · subst hne
      exact hs.nodup_entered.not_mem_erase hmem
    · exact hold hne _ hfinished (List.mem_of_mem_erase hmem)
  | waits request n _ _ requests h =>
    subst h
    by_cases hne : i = s.pool.requestCounter
    · subst hne
      have hnow := (Function.update_self s.pool.requestCounter _ s.calls).symm.trans hfinished
      cases hnow
    · exact hold hne _ hfinished
  | left requestId request result _ _ hcall h =>
    subst h
    intro hmem
    by_cases hne : i = requestId
    · subst hne
      exact hs.nodup.not_mem_erase hmem
    · have hcalls := (Function.update_of_ne hne _ s.calls).symm.trans hfinished
      exact hclean i request' result' hcalls (List.mem_of_mem_erase hmem)

/-- A call that no worker can take leaves its entry. -/
theorem entersLive_of_clean {l : Label} (h : step codec s l = some s') (hclean : ExitsClean s') :
    EntersLive s l := by
  cases step_books h with
  | same _ hlive _ => exact hlive
  | stuck request e n _ _ h =>
    subst h
    have hfinished := Function.update_self s.pool.requestCounter
      (some ⟨request,.finished (.error e)⟩) s.calls
    exact absurd (List.mem_append_right _ List.mem_cons_self) (hclean _ _ _ hfinished)
  | refused _ _ _ _ hlive _ => exact hlive
  | waits _ _ _ hlive _ _ => exact hlive
  | left _ _ _ _ hlive _ _ => exact hlive

/-- Along every run no call changes the entries of others, and every call that ends takes its
own out just when each came while there was a worker to take it. -/
theorem processQuery_cleansUp_iff (codec : Codec W) (workerCount : Nat) (ls : List Label) :
    Transition.Guarded (step codec) (LeavesOthers codec) (init workerCount) ls ∧
      Transition.Always (step codec) ExitsClean (init workerCount) ls ↔
    Transition.Guarded (step codec) EntersLive (init workerCount) ls := by
  have hbooked : Booked (init workerCount : PoolSystem W) :=
    ⟨fun _ _ => rfl,by simp [init],List.nodup_nil⟩
  have hothers : Transition.Guarded (step codec) (LeavesOthers codec) (init workerCount) ls := by
    have halways : Transition.Always (step codec) (fun _ => True) (init workerCount) ls :=
      Transition.always_of_step (I:=fun _ => True) trivial fun _ _ _ _ _ => trivial
    exact halways.guarded (I:=fun _ => True) trivial (fun _ _ _ _ _ => trivial)
      fun s l _ _ _ _ => leavesOthers_always codec s l
  constructor
  · intro h
    exact h.2.guarded hbooked (fun _ _ _ hs h => hs.step h) fun _ _ _ _ h hclean =>
      entersLive_of_clean h hclean
  · intro h
    refine ⟨hothers,?_⟩
    have hinit : ExitsClean (init workerCount : PoolSystem W) := by simp [ExitsClean,init]
    refine (h.always (I:=fun s => Booked s ∧ ExitsClean s) ⟨hbooked,hinit⟩ ?_).mono
      fun _ hs => hs.2
    intro s l s' hs hlive h
    exact ⟨hs.1.step h,hs.2.step hs.1 hlive h⟩

/-- The only worker ends, and a query comes before it is replaced. -/
theorem processQuery_leavesEntry :
    ¬ (Transition.Guarded (step directCodec) (LeavesOthers directCodec) (init 1)
        [.start {},.exit 0 .returned,.query hostQuery none] ∧
      Transition.Always (step directCodec) ExitsClean (init 1)
        [.start {},.exit 0 .returned,.query hostQuery none]) := by
  intro h
  have hrun : ∃ s : PoolSystem Message, Transition.run (step directCodec) (init 1)
        [.start {},.exit 0 .returned,.query hostQuery none] = some s ∧
      s.calls 1 = some ⟨hostQuery,.finished (.error (PyException.runtimeError "没有可用 worker"))⟩ ∧
      s.pool.pending = [1] := ⟨_,rfl,rfl,rfl⟩
  obtain ⟨s,hrun,hcall,hpending⟩ := hrun
  have hclean := h.2.final hrun 1 _ _ hcall
  simp [hpending] at hclean

end SmartDns.PoolSystem
