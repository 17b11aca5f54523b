import SmartDns.Multiprocess.Manager
set_option autoImplicit false

/-!
Which worker pool the entries of a front cache come from. The manager does not record it,
so a run is followed together with the origins of the entries; they do not change what
the manager does.
-/

namespace SmartDns

namespace MultiprocessRuntimeManager

/-- A manager, and for every front cache and key the pool whose worker answered. -/
structure Traced (W : Type) where
  manager : MultiprocessRuntimeManager W
  origin : Nat → CacheKey → Option Nat

section
variable {W : Type} (codec : Codec W)

def Traced.init (frontCacheSize : Nat) : Traced W where
  manager := MultiprocessRuntimeManager.init frontCacheSize
  origin _ _ := none

/-- What a step puts into the front cache in use: the key, and the pool that answered. -/
def stores (m : MultiprocessRuntimeManager W) : Label → Option (CacheKey × Nat)
  | .resume i now =>
    match m.calls i with
    | some ⟨request,.querying pool (some (.ok response))⟩ =>
      match FrontCache.makeKeyFromRequest request,
        (FrontCache.putResponse codec now request response m.frontCache).1 with
      | some key, .ok true => some (key,pool)
      | _, _ => none
    | _ => none
  | _ => none

def Traced.record (s : Traced W) (l : Label) : Nat → CacheKey → Option Nat :=
  match stores codec s.manager l with
  | some (key,pool) => Function.update s.origin s.manager.generation
      (Function.update (s.origin s.manager.generation) key (some pool))
  | none => s.origin

def tracedStep (s : Traced W) (l : Label) : Option (Traced W) :=
  (step codec s.manager l).map fun m => ⟨m,s.record codec l⟩

/-- Every entry of the front cache in use comes from the pool in use. -/
def Traced.Fresh (s : Traced W) : Prop :=
  ∀ entry ∈ s.manager.frontCache.cache.data,
    s.origin s.manager.generation entry.1 = some s.manager.generation

/-- A reply that can be stored comes back while the pool that it comes from is in use. -/
def Traced.ReturnsInTime (s : Traced W) (l : Label) : Prop :=
  ∀ i now request pool response, l = .resume i now →
    s.manager.calls i = some ⟨request,.querying pool (some (.ok (some response)))⟩ →
    FrontCache.Storable codec now request response → pool = s.manager.generation

/-- The same front cache in use, with nothing new in it. -/
structure Unfed (m m' : MultiprocessRuntimeManager W) : Prop where
  generation : m'.generation = m.generation
  data : ∀ entry ∈ m'.frontCache.cache.data, entry ∈ m.frontCache.cache.data

variable {codec} {m m' : MultiprocessRuntimeManager W} {i : Nat} {request : Message}

theorem Unfed.trans {m'' : MultiprocessRuntimeManager W} (h : Unfed m m') (h' : Unfed m' m'') :
    Unfed m m'' :=
  ⟨h'.generation.trans h.generation,fun entry he => h.data entry (h'.data entry he)⟩

theorem unfed_setCall (phase : QueryPhase) : Unfed m (m.setCall i request phase) :=
  ⟨rfl,fun _ h => h⟩

theorem unfed_setEntry (e : PendingEntry W) : Unfed m (m.setEntry i e) := ⟨rfl,fun _ h => h⟩

theorem frontCache_setFrontCache (m : MultiprocessRuntimeManager W) (c : FrontCache) :
    (m.setFrontCache m.generation c).frontCache = c := by
  simp [frontCache,setFrontCache]

theorem unfed_setFrontCache {n : Nat} {c : FrontCache}
    (h : ∀ entry ∈ c.cache.data, entry ∈ (m.frontCaches n).cache.data) :
    Unfed m (m.setFrontCache n c) := by
  refine ⟨rfl,fun entry he => ?_⟩
  by_cases hn : m.generation = n
  · subst hn
    rw [frontCache_setFrontCache] at he
    exact h entry he
  · simpa [frontCache,setFrontCache,Function.update_of_ne hn] using he

theorem leave_eq_setCall (m : MultiprocessRuntimeManager W) (i : Nat) (request : Message)
    (response : Option Message) (written : Bool) (result : QueryResult) :
    ∃ phase, m.leave i request response written result = m.setCall i request phase := by
  unfold leave
  split <;> exact ⟨_,rfl⟩

theorem fail_eq_setCall (m : MultiprocessRuntimeManager W) (i : Nat) (request : Message)
    (response : Option Message) :
    ∃ phase, m.fail i request response = m.setCall i request phase := by
  unfold fail
  split <;> exact leave_eq_setCall ..

theorem fail_unfed {response : Option Message} : Unfed m (m.fail i request response) := by
  obtain ⟨phase,hphase⟩ := fail_eq_setCall m i request response
  rw [hphase]
  exact unfed_setCall phase

theorem query_unfed (now : ℚ) (refused : Option PyException) :
    Unfed m (m.query codec now i request refused) := by
  cases refused with
  | none => exact unfed_setCall _
  | some e => exact fail_unfed

theorem lookUp_unfed {now : ℚ} {refused : Option PyException} :
    Unfed m (m.lookUp codec now i request refused) := by
  have hget := (FrontCache.getResponse_within codec now request m.frontCache.cache.data).run
    (s:=m.frontCache) fun _ h => h
  unfold lookUp
  split
  · rename_i e c hrun
    rw [hrun] at hget
    exact (unfed_setFrontCache hget).trans (unfed_setCall _)
  · rename_i cached c hrun
    rw [hrun] at hget
    exact (unfed_setFrontCache hget).trans (unfed_setCall _)
  · rename_i c hrun
    rw [hrun] at hget
    split
    · exact (unfed_setFrontCache hget).trans (query_unfed now refused)
    · exact (unfed_setFrontCache hget).trans (unfed_setCall _)

theorem acquirePending_unfed {now : ℚ} {cache : Nat} {key : CacheKey}
    {refused : Option PyException} :
    Unfed m (m.acquirePending codec now i request cache key refused) := by
  unfold acquirePending
  split
  · exact unfed_setCall _
  · rename_i hnone
    have hopened : Unfed m ((m.setFrontCache cache
        ((m.frontCaches cache).create key i hnone)).setEntry i { cache, key }) :=
      (unfed_setFrontCache (c:=(m.frontCaches cache).create key i hnone) fun _ h => h).trans
        (unfed_setEntry _)
    exact hopened.trans (query_unfed now refused)

theorem follow_unfed {now : ℚ} {wire : Option W} :
    Unfed m (m.follow codec now i request wire) := by
  cases wire with
  | none => exact lookUp_unfed
  | some wire => exact unfed_setCall _

theorem completePending_unfed {cache : Nat} {response : Option Message} {written : Bool}
    {result : QueryResult} {key : CacheKey} :
    Unfed m (m.completePending codec i request cache response written result key) := by
  have hpop : Unfed m (m.setFrontCache cache ((m.frontCaches cache).pop key)) :=
    unfed_setFrontCache fun _ h => h
  unfold completePending
  split
  · exact unfed_setCall _
  · simp only
    split
    · exact hpop.trans (unfed_setCall _)
    · exact (hpop.trans (unfed_setEntry _)).trans (unfed_setCall _)
    · exact (hpop.trans (unfed_setEntry _)).trans (unfed_setCall _)

/-- The end of a query stores its response, or nothing. -/
theorem settle_cases (m : MultiprocessRuntimeManager W) (i : Nat) (request : Message) (now : ℚ)
    (outcome : QueryResult) :
    (∃ response key answer, outcome = .ok response ∧
      FrontCache.makeKeyFromRequest request = some key ∧
      (FrontCache.putResponse codec now request response m.frontCache).1 = .ok true ∧
      (m.settle codec now i request outcome).generation = m.generation ∧
      (m.settle codec now i request outcome).frontCache.cache = m.frontCache.cache.put key answer) ∨
    Unfed m (m.settle codec now i request outcome) ∧ ∀ response, outcome = .ok response →
      (FrontCache.putResponse codec now request response m.frontCache).1 ≠ .ok true := by
  cases outcome with
  | error e => exact .inr ⟨fail_unfed,fun _ h => by cases h⟩
  | ok response =>
    rcases FrontCache.putResponse_cases codec now request response m.frontCache with
      ⟨key,answer,hkey,hrun⟩ | ⟨r,hrun,hr⟩
    · have hsettle : ∃ phase, m.settle codec now i request (.ok response) =
          (m.setFrontCache m.generation { m.frontCache with
            cache := m.frontCache.cache.put key answer }).setCall i request phase := by
        simp only [settle,hrun]
        exact leave_eq_setCall ..
      obtain ⟨phase,hphase⟩ := hsettle
      rw [hphase]
      exact .inl ⟨response,key,answer,rfl,hkey,by rw [hrun],rfl,
        congrArg FrontCache.cache (frontCache_setFrontCache m _)⟩
    · have hsettle : ∃ phase, m.settle codec now i request (.ok response) =
          (m.setFrontCache m.generation m.frontCache).setCall i request phase := by
        cases r with
        | error e =>
          simp only [settle,hrun]
          exact fail_eq_setCall ..
        | ok written =>
          simp only [settle,hrun]
          exact leave_eq_setCall ..
      obtain ⟨phase,hphase⟩ := hsettle
      rw [hphase]
      refine .inr ⟨(unfed_setFrontCache fun _ h => h).trans (unfed_setCall phase),?_⟩
      intro response' heq
      cases heq
      rw [hrun]
      exact hr

/-- What a step does to the answers of the front cache in use. -/
inductive AnswerChange (codec : Codec W) (m : MultiprocessRuntimeManager W) (l : Label)
    (m' : MultiprocessRuntimeManager W) : Prop where
  | unfed (hstores : stores codec m l = none) (h : Unfed m m')
  | stored (key : CacheKey) (pool : Nat) (answer : Answer)
      (hstores : stores codec m l = some (key,pool)) (hgeneration : m'.generation = m.generation)
      (hcache : m'.frontCache.cache = m.frontCache.cache.put key answer)
  | swapped (hstores : stores codec m l = none) (hempty : m'.frontCache.cache.data = [])

theorem step_changes {l : Label} (h : step codec m l = some m') : AnswerChange codec m l m' := by
  cases l with
  | arrive i request now refused =>
    cases hcall : m.calls i with
    | none =>
      simp only [step,hcall,Option.some.injEq] at h
      exact .unfed rfl (h ▸ lookUp_unfed)
    | some call => simp [step,hcall] at h
  | acquire i now refused =>
    simp only [step] at h
    split at h
    · split at h
      · cases h
      · cases h
        exact .unfed rfl acquirePending_unfed
    · cases h
  | wake i now =>
    simp only [step] at h
    split at h
    · split at h
      · cases h
        exact .unfed rfl follow_unfed
      · cases h
    · cases h
  | reply i outcome =>
    simp only [step] at h
    split at h
    · cases h
      exact .unfed rfl (unfed_setCall _)
    · cases h
  | resume i now =>
    simp only [step] at h
    split at h
    · rename_i request pool outcome hcall
      cases h
      rcases settle_cases m i request now outcome with
        ⟨response,key,answer,rfl,hkey,hput,hgeneration,hcache⟩ | ⟨hunfed,hnot⟩
      · exact .stored key pool answer (by simp [stores,hcall,hkey,hput]) hgeneration hcache
      · refine .unfed ?_ hunfed
        cases outcome with
        | error e => simp [stores,hcall]
        | ok response =>
          have hput := hnot response rfl
          simp only [stores,hcall]
          split
          · contradiction
          · rfl
    · cases h
  | complete i =>
    simp only [step] at h
    split at h
    · split at h
      · cases h
      · cases h
        exact .unfed rfl completePending_unfed
    · cases h
  | swap frontCacheSize =>
    cases h
    exact .swapped rfl (by simp [frontCache,setFrontCache,FrontCache.new,LRUCache.empty])
  | failPending pool =>
    cases h
    exact .unfed rfl ⟨rfl,fun _ h => h⟩

theorem stores_eq_some {l : Label} {key : CacheKey} {pool : Nat} :
    stores codec m l = some (key,pool) ↔ ∃ i now request response, l = .resume i now ∧
      m.calls i = some ⟨request,.querying pool (some (.ok (some response)))⟩ ∧
      FrontCache.makeKeyFromRequest request = some key ∧
      FrontCache.Storable codec now request response := by
  constructor
  · intro h
    unfold stores at h
    split at h
    · rename_i i now
      split at h
      · rename_i request pool' response hcall
        split at h
        · rename_i key' hkey hput
          cases h
          obtain ⟨stored,rfl,hstorable⟩ := FrontCache.putResponse_ok_true_iff.mp hput
          exact ⟨i,now,request,stored,rfl,hcall,hkey,hstorable⟩
        · cases h
      · cases h
    · cases h
  · intro h
    obtain ⟨i,now,request,response,rfl,hcall,hkey,hstorable⟩ := h
    have hput := FrontCache.putResponse_ok_true_iff (c:=m.frontCache).mpr ⟨response,rfl,hstorable⟩
    simp [stores,hcall,hkey,hput]

theorem returnsInTime_iff {s : Traced W} {l : Label} :
    s.ReturnsInTime codec l ↔
      ∀ key pool, stores codec s.manager l = some (key,pool) → pool = s.manager.generation := by
  constructor
  · intro h key pool hstores
    obtain ⟨i,now,request,response,hl,hcall,_,hstorable⟩ := stores_eq_some.mp hstores
    exact h i now request pool response hl hcall hstorable
  · intro h i now request pool response hl hcall hstorable
    obtain ⟨key,hkey⟩ := Option.isSome_iff_exists.mp hstorable.2.1
    exact h key pool (stores_eq_some.mpr ⟨i,now,request,response,hl,hcall,hkey,hstorable⟩)

theorem record_of_unstored {s : Traced W} {l : Label} (h : stores codec s.manager l = none) :
    s.record codec l = s.origin := by
  simp [Traced.record,h]

theorem record_of_stored {s : Traced W} {l : Label} {key key' : CacheKey} {pool : Nat}
    (h : stores codec s.manager l = some (key,pool)) :
    s.record codec l s.manager.generation key' =
      if key' = key then some pool else s.origin s.manager.generation key' := by
  simp [Traced.record,h,Function.update_apply]

/-- The step lemma: a reply that returns in time keeps the front cache fresh. -/
theorem Traced.Fresh.step {s s' : Traced W} {l : Label} (hfresh : s.Fresh)
    (hok : s.ReturnsInTime codec l) (h : tracedStep codec s l = some s') : s'.Fresh := by
  obtain ⟨m',hstep,rfl⟩ := Option.map_eq_some_iff.mp h
  intro entry hentry
  cases step_changes hstep with
  | unfed hstores hunfed =>
    have hold := hfresh entry (hunfed.data entry hentry)
    simpa only [hunfed.generation,record_of_unstored hstores] using hold
  | stored key pool answer hstores hgeneration hcache =>
    have hpool := returnsInTime_iff.mp hok key pool hstores
    simp only [hcache] at hentry
    simp only [hgeneration,record_of_stored hstores]
    cases LRUCache.mem_front _ hentry with
    | inl heq => simp [heq,hpool]
    | inr hold =>
      rw [if_neg hold.2]
      exact hfresh entry hold.1
  | swapped hstores hempty =>
    simp only [hempty] at hentry
    cases hentry

/-- A reply of another pool that is stored shows at once. -/
theorem Traced.Fresh.returnsInTime {s s' : Traced W} {l : Label}
    (h : tracedStep codec s l = some s') (hfresh : s'.Fresh) : s.ReturnsInTime codec l := by
  obtain ⟨m',hstep,rfl⟩ := Option.map_eq_some_iff.mp h
  refine returnsInTime_iff.mpr fun key pool hpool => ?_
  cases step_changes hstep with
  | unfed hstores _ => simp [hstores] at hpool
  | stored key' pool' answer hstores hgeneration hcache =>
    obtain ⟨rfl,rfl⟩ := Prod.ext_iff.mp (Option.some.inj (hstores.symm.trans hpool))
    have hmem : (key',answer) ∈ m'.frontCache.cache.data := by
      rw [hcache]
      exact List.mem_cons_self
    have horigin := hfresh _ hmem
    simp only [hgeneration,record_of_stored hstores] at horigin
    simpa using horigin
  | swapped hstores _ => simp [hstores] at hpool

/-- Along a run of queries and reloads the front cache in use holds answers of the pool in
use only, just when no reply that can be stored comes back after its pool was replaced. -/
theorem frontCache_fresh_iff (codec : Codec W) (frontCacheSize : Nat) (ls : List Label) :
    Transition.Always (tracedStep codec) Traced.Fresh (Traced.init frontCacheSize) ls ↔
      Transition.Guarded (tracedStep codec) (Traced.ReturnsInTime codec)
        (Traced.init frontCacheSize) ls := by
  constructor
  · intro h
    exact h.guarded (I:=fun _ => True) trivial (fun _ _ _ _ _ => trivial)
      fun s l s' _ hstep hfresh => Traced.Fresh.returnsInTime hstep hfresh
  · intro h
    have hinit : (Traced.init frontCacheSize : Traced W).Fresh := fun entry hentry => by
      cases hentry
    exact h.always hinit fun s l s' hfresh hok hstep => hfresh.step hok hstep

end

/-- A reload between a worker's reply and the query that takes it. -/
def lateReplyRun : List Label :=
  [.arrive 0 (makeQuery 7 hostName RdataType.A RdataClass.IN) 0 none,.acquire 0 0 none,
    .reply 0 (.ok (some (hostReply [addressOf hostName 1]))),.swap 1,.resume 0 0,.failPending 0]

/-- The reply of the old pool is stored in the new front cache. -/
theorem frontCache_keeps_oldAnswer :
    ¬ Transition.Always (tracedStep directCodec) Traced.Fresh (Traced.init 1) lateReplyRun := by
  intro h
  have hrun : ∃ s entry, Transition.run (tracedStep directCodec) (Traced.init 1) lateReplyRun =
      some s ∧ entry ∈ s.manager.frontCache.cache.data ∧ s.manager.generation = 1 ∧
      s.origin 1 entry.1 = some 0 :=
    ⟨_,_,rfl,List.mem_cons_self,rfl,rfl⟩
  obtain ⟨s,entry,hs,hentry,hgeneration,horigin⟩ := hrun
  have hfresh := h.final hs entry hentry
  rw [hgeneration,horigin] at hfresh
  contradiction

end MultiprocessRuntimeManager

end SmartDns
