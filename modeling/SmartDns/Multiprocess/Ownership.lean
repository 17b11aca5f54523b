import SmartDns.Multiprocess.Manager
set_option autoImplicit false

/-!
Who owns a pending entry, over whole runs of queries and reloads. A call creates at
most one entry; it is completed by the call that takes it out of its front cache, and
that is its owner as long as the owner completes on the front cache it acquired on.
-/

namespace SmartDns

namespace MultiprocessRuntimeManager

variable {W : Type} (codec : Codec W)

/-- The call has an entry of its own just when its request has a key. -/
def Owns (m : MultiprocessRuntimeManager W) (i : Nat) (request : Message) : Prop :=
  (m.entries i).map PendingEntry.key = FrontCache.makeKeyFromRequest request

/-- What the phase of a call says about its entry and about what it carries. -/
def Fits (m : MultiprocessRuntimeManager W) (i : Nat) (call : QueryCall) : Prop :=
  match call.phase with
  | .acquiring cache => cache ≤ m.generation ∧ m.entries i = none
  | .waiting owner => (m.entries owner).isSome ∧ m.entries i = none
  | .querying _ reply =>
    m.Owns i call.request ∧ ∀ r, reply = some (.ok (some r)) → codec.Encodes r
  | .completing _ response _ _ =>
    m.Owns i call.request ∧ ∀ r, response = some r → codec.Encodes r
  | .finished _ => m.entries i = none

/-- A front cache registers just the entries that nobody has taken out. -/
structure EntriesInv (m : MultiprocessRuntimeManager W) : Prop where
  fresh : ∀ i, m.calls i = none → m.entries i = none
  pending : ∀ n key owner, (key,owner) ∈ (m.frontCaches n).pending ↔
    ∃ e, m.entries owner = some e ∧ e.cache = n ∧ e.key = key ∧ e.completedBy = none
  cache : ∀ i e, m.entries i = some e → e.cache ≤ m.generation
  wire : ∀ i e j, m.entries i = some e → e.completedBy = some j → e.wire.isSome

structure Inv (m : MultiprocessRuntimeManager W) : Prop extends EntriesInv m where
  call : ∀ i call, m.calls i = some call → call.isFinished ∨ m.Fits codec i call
  closer : ∀ i e j, m.entries i = some e → e.completedBy = some j →
    ∃ call, m.calls j = some call ∧ call.isFinished

/-- A step that moves one call on and leaves the entries alone. -/
structure Advances (m m' : MultiprocessRuntimeManager W) (i : Nat) (call : QueryCall) : Prop where
  generation : m'.generation = m.generation
  entries : m'.entries = m.entries
  calls : m'.calls = Function.update m.calls i (some call)
  pending : ∀ n, (m'.frontCaches n).pending = (m.frontCaches n).pending

variable {codec} {m m' : MultiprocessRuntimeManager W} {i : Nat} {request : Message}

theorem setFrontCache_pending {c : FrontCache} {n : Nat}
    (h : c.pending = (m.frontCaches n).pending) (n' : Nat) :
    ((m.setFrontCache n c).frontCaches n').pending = (m.frontCaches n').pending := by
  by_cases hn : n' = n
  · subst hn
    simp [setFrontCache,h]
  · simp [setFrontCache,Function.update_of_ne hn]

/-- Writing answers to the front cache in use and then moving a call. -/
theorem advances_setCall {c : FrontCache} (phase : QueryPhase)
    (h : c.pending = m.frontCache.pending) :
    Advances m ((m.setFrontCache m.generation c).setCall i request phase) i ⟨request,phase⟩ :=
  ⟨rfl,rfl,rfl,setFrontCache_pending h⟩

theorem Advances.of_setFrontCache {c : FrontCache} {call : QueryCall}
    (hc : c.pending = m.frontCache.pending)
    (h : Advances (m.setFrontCache m.generation c) m' i call) : Advances m m' i call :=
  ⟨h.generation,h.entries,h.calls,fun n => (h.pending n).trans (setFrontCache_pending hc n)⟩

/-! ### What each segment of a call does -/

theorem leave_advances (codec : Codec W) {response : Option Message} {written : Bool}
    {result : QueryResult} (howns : m.Owns i request)
    (hresponse : FrontCache.makeKeyFromRequest request ≠ none →
      ∀ r, response = some r → codec.Encodes r) :
    ∃ call, Advances m (m.leave i request response written result) i call ∧
      m.Fits codec i call := by
  unfold leave
  split
  · rename_i hkey
    refine ⟨_,⟨rfl,rfl,rfl,fun _ => rfl⟩,?_⟩
    rw [Owns,hkey] at howns
    exact Option.map_eq_none_iff.mp howns
  · rename_i hkey
    exact ⟨_,⟨rfl,rfl,rfl,fun _ => rfl⟩,howns,hresponse (by simp [hkey])⟩

theorem makeKeyFromRequest_question {request : Message}
    (h : FrontCache.makeKeyFromRequest request ≠ none) : request.question.length = 1 := by
  unfold FrontCache.makeKeyFromRequest at h
  split at h
  · rename_i hq
    rw [hq]
    rfl
  · contradiction

/-- An error response has no records, so it can be encoded. -/
theorem makeErrorResponse_encodes {request response : Message} {rcode : Rcode}
    (hq : request.question.length ≤ 1) (h : makeErrorResponse request rcode = .ok response) :
    codec.Encodes response := by
  unfold makeErrorResponse makeResponse at h
  split at h
  · simp [bind,Except.bind] at h
  · simp only [bind,Except.bind,pure,Except.pure,Except.ok.injEq] at h
    rw [← h]
    exact codec.bare _ hq rfl rfl rfl

theorem fail_advances {response : Option Message} (howns : m.Owns i request)
    (hresponse : ∀ r, response = some r → codec.Encodes r) :
    ∃ call, Advances m (m.fail i request response) i call ∧ m.Fits codec i call := by
  unfold fail
  split
  · rename_i failure hfailure
    refine leave_advances codec howns fun hkey r hr => ?_
    obtain rfl : failure = r := Option.some.inj hr
    exact makeErrorResponse_encodes (makeKeyFromRequest_question hkey).le hfailure
  · exact leave_advances codec howns fun _ => hresponse

theorem settle_advances {now : ℚ} {outcome : QueryResult} (howns : m.Owns i request)
    (houtcome : ∀ r, outcome = .ok (some r) → codec.Encodes r) :
    ∃ call, Advances m (m.settle codec now i request outcome) i call ∧ m.Fits codec i call := by
  cases outcome with
  | error e => exact fail_advances howns (by simp)
  | ok response =>
    have hresponse : ∀ r, response = some r → codec.Encodes r := fun r hr => houtcome r (by rw [hr])
    have hpending := (FrontCache.putResponse_pending codec now request response
      m.frontCache.pending).run rfl
    rcases hput : FrontCache.putResponse codec now request response m.frontCache with
      ⟨e | written,c⟩
    · simp only [hput] at hpending
      simp only [settle,hput]
      obtain ⟨call,hadv,hfits⟩ := fail_advances (m:=m.setFrontCache m.generation c) howns hresponse
      exact ⟨call,hadv.of_setFrontCache hpending,hfits⟩
    · simp only [hput] at hpending
      simp only [settle,hput]
      obtain ⟨call,hadv,hfits⟩ := leave_advances (m:=m.setFrontCache m.generation c)
        codec howns fun _ => hresponse
      exact ⟨call,hadv.of_setFrontCache hpending,hfits⟩

theorem query_advances (codec : Codec W) (now : ℚ) (refused : Option PyException)
    (howns : m.Owns i request) :
    ∃ call, Advances m (m.query codec now i request refused) i call ∧ m.Fits codec i call := by
  cases refused with
  | none => exact ⟨_,⟨rfl,rfl,rfl,fun _ => rfl⟩,howns,by simp⟩
  | some e =>
    unfold query
    exact settle_advances howns (by simp)

theorem lookUp_advances {now : ℚ} {refused : Option PyException} (hentry : m.entries i = none) :
    ∃ call, Advances m (m.lookUp codec now i request refused) i call ∧ m.Fits codec i call := by
  have hpending := (FrontCache.getResponse_pending codec now request m.frontCache.pending).run rfl
  rcases hget : FrontCache.getResponse codec now request m.frontCache with ⟨e | cached,c⟩
  · simp only [hget] at hpending
    simp only [lookUp,hget]
    exact ⟨_,advances_setCall _ hpending,hentry⟩
  · simp only [hget] at hpending
    cases cached with
    | some response =>
      simp only [lookUp,hget]
      exact ⟨_,advances_setCall _ hpending,hentry⟩
    | none =>
      simp only [lookUp,hget]
      cases hkey : FrontCache.makeKeyFromRequest request with
      | some key => exact ⟨_,advances_setCall _ hpending,le_rfl,hentry⟩
      | none =>
        have howns : (m.setFrontCache m.generation c).Owns i request := by
          rw [Owns,hkey]
          exact congrArg (Option.map PendingEntry.key) hentry
        obtain ⟨call,hadv,hfits⟩ := query_advances codec now refused howns
        exact ⟨call,hadv.of_setFrontCache hpending,hfits⟩

theorem follow_advances {now : ℚ} {wire : Option W} (hentry : m.entries i = none) :
    ∃ call, Advances m (m.follow codec now i request wire) i call ∧ m.Fits codec i call := by
  cases wire with
  | none => exact lookUp_advances hentry
  | some w => exact ⟨_,⟨rfl,rfl,rfl,fun _ => rfl⟩,hentry⟩

theorem carried_encodes {outcome : QueryResult} {r : Message}
    (h : carried codec outcome = .ok (some r)) : codec.Encodes r := by
  unfold carried at h
  split at h
  · rename_i response
    cases hw : codec.toWire response with
    | error e => simp [hw,bind,Except.bind] at h
    | ok w =>
      simp only [hw,codec.roundTrip _ _ hw,bind,Except.bind,pure,Except.pure,Except.ok.injEq,
        Option.some.injEq] at h
      rw [← h]
      exact codec.again _ _ hw
  · rename_i hnone
    exact absurd h (hnone r)

theorem holderWire_ok {response : Option Message} (written : Bool)
    (h : ∀ r, response = some r → codec.Encodes r) :
    ∃ wire, holderWire codec response written = .ok wire := by
  cases written with
  | true => exact ⟨none,rfl⟩
  | false =>
    cases response with
    | none => exact ⟨none,rfl⟩
    | some r =>
      obtain ⟨w,hw⟩ := h r rfl
      exact ⟨some w,by simp [holderWire,hw,bind,Except.bind,pure,Except.pure]⟩

/-! ### What a step can do -/

def opened (m : MultiprocessRuntimeManager W) (i : Nat) (cache : Nat) (key : CacheKey)
    (h : (m.frontCaches cache).pendingOwner key = none) : MultiprocessRuntimeManager W :=
  (m.setFrontCache cache ((m.frontCaches cache).create key i h)).setEntry i { cache, key }

def closed (m : MultiprocessRuntimeManager W) (i : Nat) (cache : Nat) (key : CacheKey) (owner : Nat)
    (e : PendingEntry W) (wire : Option W) : MultiprocessRuntimeManager W :=
  (m.setFrontCache cache ((m.frontCaches cache).pop key)).setEntry owner
    { e with wire := some wire, completedBy := some i }

def swapped (m : MultiprocessRuntimeManager W) (frontCacheSize : Nat) :
    MultiprocessRuntimeManager W :=
  { m.setFrontCache (m.generation+1) (FrontCache.new frontCacheSize) with
    generation := m.generation+1 }

def failed (m : MultiprocessRuntimeManager W) (pool : Nat) : MultiprocessRuntimeManager W :=
  { m with calls := fun i => (m.calls i).map (failCall pool) }

def Live (m : MultiprocessRuntimeManager W) (i : Nat) : Prop :=
  ∀ call, m.calls i = some call → ¬ call.isFinished

/-- `completes i` tells the steps that end a `complete_pending` from the others. -/
def Label.completes (i : Nat) : Label → Prop
  | .complete j => j = i
  | _ => False

inductive Change (codec : Codec W) (m m' : MultiprocessRuntimeManager W) : Label → Prop where
  | advanced {l : Label} (i : Nat) (call : QueryCall) (hlabel : ∀ j, ¬ l.completes j)
      (hlive : m.Live i) (hadv : Advances m m' i call) (hfits : m.Fits codec i call) :
      Change codec m m' l
  | opened {l : Label} (i cache : Nat) (key : CacheKey) (call : QueryCall)
      (hlabel : ∀ j, ¬ l.completes j) (hlive : m.Live i) (hcall : m.calls i ≠ none)
      (hentry : m.entries i = none) (hcache : cache ≤ m.generation)
      (h : (m.frontCaches cache).pendingOwner key = none)
      (hadv : Advances (m.opened i cache key h) m' i call)
      (hfits : (m.opened i cache key h).Fits codec i call) : Change codec m m' l
  | abandoned (i cache : Nat) (key : CacheKey) (call : QueryCall) (result : QueryResult)
      (hlive : m.Live i) (howns : m.Owns i call.request)
      (hkey : FrontCache.makeKeyFromRequest call.request = some key)
      (hphase : ∃ response written, m.calls i =
        some ⟨call.request,.completing cache response written result⟩)
      (hnone : (m.frontCaches cache).pendingOwner key = none)
      (hadv : Advances m m' i ⟨call.request,.finished result⟩) : Change codec m m' (.complete i)
  | closed (i cache : Nat) (key : CacheKey) (owner : Nat) (e : PendingEntry W)
      (wire : Option W) (call : QueryCall) (result : QueryResult)
      (hlive : m.Live i) (howns : m.Owns i call.request)
      (hkey : FrontCache.makeKeyFromRequest call.request = some key)
      (hphase : ∃ response written, m.calls i =
        some ⟨call.request,.completing cache response written result⟩)
      (hpending : (m.frontCaches cache).pendingOwner key = some owner)
      (hentry : m.entries owner = some e)
      (hadv : Advances (m.closed i cache key owner e wire) m' i ⟨call.request,.finished result⟩) :
      Change codec m m' (.complete i)
  | swapped (n : Nat) (hm : m' = m.swapped n) : Change codec m m' (.swap n)
  | failed (pool : Nat) (hm : m' = m.failed pool) : Change codec m m' (.failPending pool)

theorem live_of_phase {call : QueryCall} (h : m.calls i = some call)
    (hphase : ∀ result, call.phase ≠ .finished result) : m.Live i := by
  intro call' hcall ⟨result,hresult⟩
  rw [h] at hcall
  cases hcall
  exact hphase result hresult

theorem Inv.fits (h : Inv codec m) {call : QueryCall} (hcall : m.calls i = some call)
    (hlive : m.Live i) : m.Fits codec i call :=
  (h.call i call hcall).resolve_left (hlive call hcall)

theorem acquirePending_change (hinv : Inv codec m) {now : ℚ} {cache : Nat} {key : CacheKey}
    {refused : Option PyException} {l : Label} (hlabel : ∀ j, ¬ l.completes j)
    (hcall : m.calls i = some ⟨request,.acquiring cache⟩)
    (hkey : FrontCache.makeKeyFromRequest request = some key) :
    Change codec m (m.acquirePending codec now i request cache key refused) l := by
  have hlive := live_of_phase hcall (by simp)
  obtain ⟨hcache,hentry⟩ := hinv.fits hcall hlive
  unfold acquirePending
  split
  · rename_i owner howner
    obtain ⟨e,he,-,-,-⟩ := (hinv.pending cache key owner).mp
      (FrontCache.pendingOwner_eq_some.mp howner)
    exact .advanced i _ hlabel hlive ⟨rfl,rfl,rfl,fun _ => rfl⟩ ⟨by simp [he],hentry⟩
  · rename_i hnone
    have howns : (m.opened i cache key hnone).Owns i request := by
      simp [Owns,opened,setEntry,hkey]
    obtain ⟨call,hadv,hfits⟩ := query_advances codec now refused howns
    exact .opened i cache key call hlabel hlive (by simp [hcall]) hentry hcache hnone hadv hfits

theorem completePending_change (hinv : Inv codec m) {cache : Nat} {key : CacheKey}
    {response : Option Message} {written : Bool} {result : QueryResult}
    (hcall : m.calls i = some ⟨request,.completing cache response written result⟩)
    (hkey : FrontCache.makeKeyFromRequest request = some key) :
    Change codec m (m.completePending codec i request cache response written result key)
      (.complete i) := by
  have hlive := live_of_phase hcall (by simp)
  obtain ⟨howns,hencodes⟩ := hinv.fits hcall hlive
  cases howner : (m.frontCaches cache).pendingOwner key with
  | none =>
    simp only [completePending,howner]
    exact .abandoned i cache key ⟨request,.finished result⟩ result hlive howns hkey
      ⟨response,written,hcall⟩ howner ⟨rfl,rfl,rfl,fun _ => rfl⟩
  | some owner =>
    obtain ⟨e,he,-,-,-⟩ := (hinv.pending cache key owner).mp
      (FrontCache.pendingOwner_eq_some.mp howner)
    obtain ⟨wire,hwire⟩ := holderWire_ok written hencodes
    simp only [completePending,howner,he,hwire]
    exact .closed i cache key owner e wire ⟨request,.finished result⟩ result hlive howns hkey
      ⟨response,written,hcall⟩ howner he ⟨rfl,rfl,rfl,fun _ => rfl⟩

/-- What a step can do to the calls and their entries. -/
theorem step_change (hinv : Inv codec m) {l : Label} (h : step codec m l = some m') :
    Change codec m m' l := by
  cases l with
  | arrive i request now refused =>
    cases hcall : m.calls i with
    | some call => simp [step,hcall] at h
    | none =>
      obtain rfl : m.lookUp codec now i request refused = m' := by simpa [step,hcall] using h
      obtain ⟨call,hadv,hfits⟩ := lookUp_advances (hinv.fresh i hcall)
      exact .advanced i call (fun _ => id) (fun c hc => by simp [hcall] at hc) hadv hfits
  | acquire i now refused =>
    simp only [step] at h
    split at h
    · rename_i request cache hcall
      split at h
      · contradiction
      · rename_i key hkey
        cases h
        exact acquirePending_change hinv (fun _ => id) hcall hkey
    · contradiction
  | wake i now =>
    simp only [step] at h
    split at h
    · rename_i request owner hcall
      have hlive := live_of_phase hcall (by simp)
      obtain ⟨_,hentry⟩ := hinv.fits hcall hlive
      split at h
      · rename_i wire hwire
        cases h
        obtain ⟨call,hadv,hfits⟩ := follow_advances hentry
        exact .advanced i call (fun _ => id) hlive hadv hfits
      · contradiction
    · contradiction
  | reply i outcome =>
    simp only [step] at h
    split at h
    · rename_i request pool hcall
      have hlive := live_of_phase hcall (by simp)
      obtain ⟨howns,_⟩ := hinv.fits hcall hlive
      cases h
      refine .advanced i _ (fun _ => id) hlive ⟨rfl,rfl,rfl,fun _ => rfl⟩ ⟨howns,fun r hr => ?_⟩
      exact carried_encodes (Option.some.inj hr)
    · contradiction
  | resume i now =>
    simp only [step] at h
    split at h
    · rename_i request pool outcome hcall
      have hlive := live_of_phase hcall (by simp)
      obtain ⟨howns,houtcome⟩ := hinv.fits hcall hlive
      cases h
      obtain ⟨call,hadv,hfits⟩ := settle_advances howns fun r hr =>
        houtcome r (congrArg some hr)
      exact .advanced i call (fun _ => id) hlive hadv hfits
    · contradiction
  | complete i =>
    simp only [step] at h
    split at h
    · rename_i request cache response written result hcall
      split at h
      · contradiction
      · rename_i key hkey
        cases h
        exact completePending_change hinv hcall hkey
    · contradiction
  | swap n =>
    cases h
    exact .swapped n rfl
  | failPending pool =>
    cases h
    exact .failed pool rfl

end MultiprocessRuntimeManager

end SmartDns
