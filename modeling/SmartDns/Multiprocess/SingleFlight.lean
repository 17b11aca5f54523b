import SmartDns.Multiprocess.Ownership
set_option autoImplicit false

/-!
Followers are not left behind: along a run where every owner completes on the front
cache it acquired on, an owner that has returned has set the event of its entry, the
entry is in no front cache, and nobody else took it out.
-/

namespace SmartDns

namespace MultiprocessRuntimeManager

variable {W : Type} {codec : Codec W} {m m' : MultiprocessRuntimeManager W} {i : Nat}

/-! ### The invariant of all runs -/

/-- What a call's phase says survives when entries keep their keys and none appears for it. -/
theorem Fits.mono {call : QueryCall} (h : m.Fits codec i call)
    (hgeneration : m.generation ≤ m'.generation)
    (hkey : (m'.entries i).map PendingEntry.key = (m.entries i).map PendingEntry.key)
    (hsome : ∀ o, (m.entries o).isSome → (m'.entries o).isSome) : m'.Fits codec i call := by
  have hnone (hn : m.entries i = none) : m'.entries i = none := by simpa [hn] using hkey
  unfold Fits Owns at *
  split at h
  · exact ⟨h.1.trans hgeneration,hnone h.2⟩
  · exact ⟨hsome _ h.1,hnone h.2⟩
  · exact ⟨hkey.trans h.1,h.2⟩
  · exact ⟨hkey.trans h.1,h.2⟩
  · exact hnone h

theorem Advances.calls_self {call : QueryCall} (h : Advances m m' i call) :
    m'.calls i = some call := by
  simp [h.calls]

theorem Advances.calls_of_ne {call : QueryCall} (h : Advances m m' i call) {j : Nat} (hj : j ≠ i) :
    m'.calls j = m.calls j := by
  simp [h.calls,Function.update_of_ne hj]

theorem EntriesInv.advances {call : QueryCall} (h : m.EntriesInv) (hadv : Advances m m' i call) :
    m'.EntriesInv where
  fresh j hj := by
    rw [hadv.entries]
    by_cases hji : j = i
    · subst hji
      simp [hadv.calls_self] at hj
    · exact h.fresh j ((hadv.calls_of_ne hji).symm.trans hj)
  pending n key owner := by
    rw [hadv.pending,hadv.entries]
    exact h.pending n key owner
  cache j e he := by
    rw [hadv.entries] at he
    rw [hadv.generation]
    exact h.cache j e he
  wire j e k he hk := by
    rw [hadv.entries] at he
    exact h.wire j e k he hk

theorem setEntry_self {e : PendingEntry W} : (m.setEntry i e).entries i = some e := by
  simp [setEntry]

theorem setEntry_of_ne {e : PendingEntry W} {j : Nat} (h : j ≠ i) :
    (m.setEntry i e).entries j = m.entries j := by
  simp [setEntry,Function.update_of_ne h]

theorem EntriesInv.opened {cache : Nat} {key : CacheKey} (hinv : m.EntriesInv)
    (hcall : m.calls i ≠ none) (hentry : m.entries i = none) (hcache : cache ≤ m.generation)
    (h : (m.frontCaches cache).pendingOwner key = none) : (m.opened i cache key h).EntriesInv where
  fresh j hj := by
    have hne : j ≠ i := by
      intro heq
      subst heq
      exact hcall hj
    exact (setEntry_of_ne hne).trans (hinv.fresh j hj)
  pending n k owner := by
    have hreg : (k,owner) ∈ ((m.opened i cache key h).frontCaches n).pending ↔
        (k,owner) ∈ (m.frontCaches n).pending ∨ n = cache ∧ k = key ∧ owner = i := by
      by_cases hn : n = cache
      · subst hn
        simp [MultiprocessRuntimeManager.opened,setEntry,setFrontCache,FrontCache.mem_create]
      · simp [MultiprocessRuntimeManager.opened,setEntry,setFrontCache,hn]
    rw [hreg,hinv.pending]
    by_cases ho : owner = i
    · subst ho
      simp only [hentry,reduceCtorEq,false_and,exists_false,false_or,and_true]
      simp [MultiprocessRuntimeManager.opened,setEntry,eq_comm]
    · simp [MultiprocessRuntimeManager.opened,setEntry_of_ne ho,ho,setFrontCache]
  cache j e he := by
    by_cases hj : j = i
    · subst hj
      obtain rfl := Option.some.inj (setEntry_self.symm.trans he)
      exact hcache
    · exact hinv.cache j e ((setEntry_of_ne hj).symm.trans he)
  wire j e k he hk := by
    by_cases hj : j = i
    · subst hj
      obtain rfl := Option.some.inj (setEntry_self.symm.trans he)
      contradiction
    · exact hinv.wire j e k ((setEntry_of_ne hj).symm.trans he) hk

theorem EntriesInv.closed {cache : Nat} {key : CacheKey} {owner : Nat} {e : PendingEntry W}
    {wire : Option W} (hinv : m.EntriesInv)
    (hpending : (m.frontCaches cache).pendingOwner key = some owner)
    (hentry : m.entries owner = some e) : (m.closed i cache key owner e wire).EntriesInv where
  fresh j hj := by
    by_cases ho : j = owner
    · subst ho
      have hnone := hinv.fresh j hj
      rw [hentry] at hnone
      contradiction
    · exact (setEntry_of_ne ho).trans (hinv.fresh j hj)
  pending n k o := by
    obtain ⟨e',he',hcache,hkey,_⟩ := (hinv.pending cache key owner).mp
      (FrontCache.pendingOwner_eq_some.mp hpending)
    obtain rfl : e = e' := Option.some.inj (hentry.symm.trans he')
    have hreg : (k,o) ∈ ((m.closed i cache key owner e wire).frontCaches n).pending ↔
        (k,o) ∈ (m.frontCaches n).pending ∧ ¬ (n = cache ∧ k = key) := by
      by_cases hn : n = cache
      · subst hn
        simp [MultiprocessRuntimeManager.closed,setEntry,setFrontCache,FrontCache.mem_pop]
      · simp [MultiprocessRuntimeManager.closed,setEntry,setFrontCache,hn]
    rw [hreg,hinv.pending]
    by_cases ho : o = owner
    · subst ho
      have hself : (m.closed i cache key o e wire).entries o = some
          { e with wire := some wire, completedBy := some i } := setEntry_self
      simp only [hentry,hself,Option.some.injEq,exists_eq_left',reduceCtorEq,and_false,iff_false]
      intro h
      obtain ⟨⟨rfl,rfl,-⟩,hne⟩ := h
      exact hne ⟨hcache,hkey⟩
    · have hother : (m.closed i cache key owner e wire).entries o = m.entries o :=
        setEntry_of_ne ho
      rw [hother]
      refine and_iff_left_of_imp ?_
      intro hreg' h
      obtain ⟨rfl,rfl⟩ := h
      have hfound := FrontCache.pendingOwner_eq_some.mpr ((hinv.pending n k o).mpr hreg')
      rw [hpending] at hfound
      exact ho (Option.some.inj hfound).symm
  cache j e' he' := by
    by_cases ho : j = owner
    · subst ho
      obtain rfl := Option.some.inj (setEntry_self.symm.trans he')
      exact hinv.cache j e hentry
    · exact hinv.cache j e' ((setEntry_of_ne ho).symm.trans he')
  wire j e' k he' hk := by
    by_cases ho : j = owner
    · subst ho
      obtain rfl := Option.some.inj (setEntry_self.symm.trans he')
      rfl
    · exact hinv.wire j e' k ((setEntry_of_ne ho).symm.trans he') hk

theorem EntriesInv.swapped (hinv : m.EntriesInv) (n : Nat) : (m.swapped n).EntriesInv where
  fresh := hinv.fresh
  pending k key owner := by
    by_cases hk : k = m.generation+1
    · subst hk
      simp only [MultiprocessRuntimeManager.swapped,setFrontCache,Function.update_self,
        FrontCache.new,
        List.not_mem_nil,false_iff,not_exists,not_and]
      intro e he hcache
      have hle := hinv.cache owner e he
      omega
    · simp only [MultiprocessRuntimeManager.swapped,setFrontCache,Function.update_of_ne hk]
      exact hinv.pending k key owner
  cache i e he := (hinv.cache i e he).trans (Nat.le_succ _)
  wire := hinv.wire

/-- Moving a call keeps what the phases say, after a change `m₁` of the entries that keeps
their keys. -/
theorem call_advances {m₁ : MultiprocessRuntimeManager W} {call : QueryCall}
    (hinv : Inv codec m) (hcalls : m₁.calls = m.calls) (hgeneration : m.generation ≤ m₁.generation)
    (hkey : ∀ j, j ≠ i →
      (m₁.entries j).map PendingEntry.key = (m.entries j).map PendingEntry.key)
    (hsome : ∀ o, (m.entries o).isSome → (m₁.entries o).isSome) (hadv : Advances m₁ m' i call)
    (hfits : call.isFinished ∨ m₁.Fits codec i call) (j : Nat) (c : QueryCall)
    (hj : m'.calls j = some c) : c.isFinished ∨ m'.Fits codec j c := by
  have hmoved {k : Nat} {d : QueryCall} (h : m₁.Fits codec k d) : m'.Fits codec k d :=
    h.mono hadv.generation.ge (by rw [hadv.entries]) (by simp [hadv.entries])
  by_cases hji : j = i
  · subst hji
    obtain rfl := Option.some.inj (hadv.calls_self.symm.trans hj)
    exact hfits.imp_right hmoved
  · rw [hadv.calls_of_ne hji,hcalls] at hj
    exact (hinv.call j c hj).imp_right fun h => hmoved (h.mono hgeneration (hkey j hji) hsome)

/-- Moving a call keeps the calls over that took entries out. -/
theorem closer_advances {m₁ : MultiprocessRuntimeManager W} {call : QueryCall}
    (hclosers : ∀ o e j, m₁.entries o = some e → e.completedBy = some j →
      j = i ∧ call.isFinished ∨ j ≠ i ∧ ∃ c, m₁.calls j = some c ∧ c.isFinished)
    (hadv : Advances m₁ m' i call) (o : Nat) (e : PendingEntry W) (j : Nat)
    (he : m'.entries o = some e) (hj : e.completedBy = some j) :
    ∃ c, m'.calls j = some c ∧ c.isFinished := by
  rw [hadv.entries] at he
  rcases hclosers o e j he hj with ⟨rfl,hfinished⟩ | ⟨hne,c,hc,hfinished⟩
  · exact ⟨call,hadv.calls_self,hfinished⟩
  · exact ⟨c,(hadv.calls_of_ne hne).trans hc,hfinished⟩

theorem Inv.closer_ne (hinv : Inv codec m) (hlive : m.Live i) {o : Nat} {e : PendingEntry W}
    {j : Nat} (he : m.entries o = some e) (hj : e.completedBy = some j) :
    j ≠ i ∧ ∃ c, m.calls j = some c ∧ c.isFinished := by
  obtain ⟨c,hc,hfinished⟩ := hinv.closer o e j he hj
  refine ⟨?_,c,hc,hfinished⟩
  intro heq
  subst heq
  exact hlive c hc hfinished

theorem failCall_isFinished {pool : Nat} {call : QueryCall} :
    (failCall pool call).isFinished ↔ call.isFinished := by
  obtain ⟨request,phase⟩ := call
  unfold failCall QueryCall.isFinished
  cases phase with
  | querying p reply => by_cases h : p = pool <;> simp [h]
  | _ => rfl

theorem failCall_fits {pool : Nat} {call : QueryCall} (h : m.Fits codec i call) :
    m.Fits codec i (failCall pool call) := by
  obtain ⟨request,phase⟩ := call
  unfold failCall
  cases phase with
  | querying p reply =>
    by_cases hp : p = pool
    · simp only [hp,if_true]
      exact ⟨h.1,by simp⟩
    · simpa [hp] using h
  | _ => exact h

theorem Inv.init (n : Nat) :
    Inv codec (MultiprocessRuntimeManager.init n : MultiprocessRuntimeManager W) where
  fresh _ _ := rfl
  pending := by simp [MultiprocessRuntimeManager.init,FrontCache.new]
  cache := by simp [MultiprocessRuntimeManager.init]
  wire := by simp [MultiprocessRuntimeManager.init]
  call := by simp [MultiprocessRuntimeManager.init]
  closer := by simp [MultiprocessRuntimeManager.init]

/-- The step lemma: no step breaks the invariant. -/
theorem Inv.step {l : Label} (hinv : Inv codec m) (h : step codec m l = some m') :
    Inv codec m' := by
  cases step_change hinv h with
  | advanced i call _ hlive hadv hfits =>
    refine ⟨hinv.toEntriesInv.advances hadv,?_,?_⟩
    · exact call_advances hinv rfl le_rfl (fun _ _ => rfl) (fun _ => id) hadv (.inr hfits)
    · exact closer_advances (fun o e j he hj => .inr (hinv.closer_ne hlive he hj)) hadv
  | opened i cache key call _ hlive hcall hentry hcache hnone hadv hfits =>
    have hentries := hinv.toEntriesInv.opened hcall hentry hcache hnone
    have hcalls : (m.opened i cache key hnone).calls = m.calls := rfl
    refine ⟨hentries.advances hadv,?_,?_⟩
    · refine call_advances hinv hcalls le_rfl ?_ ?_ hadv (.inr hfits)
      · exact fun j hj => congrArg _ (setEntry_of_ne hj)
      · intro o ho
        have hne : o ≠ i := by
          intro heq
          subst heq
          simp [hentry] at ho
        exact (congrArg Option.isSome (setEntry_of_ne hne)).trans ho
    · refine closer_advances (fun o e j he hj => .inr ?_) hadv
      by_cases ho : o = i
      · subst ho
        obtain rfl := Option.some.inj (setEntry_self.symm.trans he)
        contradiction
      · exact hinv.closer_ne hlive ((setEntry_of_ne ho).symm.trans he) hj
  | abandoned i cache key call result hlive _ _ _ _ hadv =>
    refine ⟨hinv.toEntriesInv.advances hadv,?_,?_⟩
    · exact call_advances hinv rfl le_rfl (fun _ _ => rfl) (fun _ => id) hadv
        (.inl ⟨result,rfl⟩)
    · exact closer_advances (fun o e j he hj => .inr (hinv.closer_ne hlive he hj)) hadv
  | closed i cache key owner e wire call result hlive _ _ _ hpending hentry hadv =>
    have hsame (j : Nat) : ((m.closed i cache key owner e wire).entries j).map PendingEntry.key =
        (m.entries j).map PendingEntry.key := by
      by_cases hj : j = owner
      · subst hj
        have hself : (m.closed i cache key j e wire).entries j = some
            { e with wire := some wire, completedBy := some i } := setEntry_self
        rw [hentry,hself]
        rfl
      · exact congrArg _ (setEntry_of_ne hj)
    have hcalls : (m.closed i cache key owner e wire).calls = m.calls := rfl
    refine ⟨(hinv.toEntriesInv.closed hpending hentry).advances hadv,?_,?_⟩
    · refine call_advances hinv hcalls le_rfl (fun j _ => hsame j) (fun o ho => ?_) hadv
        (.inl ⟨result,rfl⟩)
      have hiso := congrArg Option.isSome (hsame o)
      rw [Option.isSome_map,Option.isSome_map] at hiso
      exact hiso.trans ho
    · refine closer_advances (fun o e' j he' hj => ?_) hadv
      by_cases ho : o = owner
      · subst ho
        obtain rfl := Option.some.inj (setEntry_self.symm.trans he')
        exact .inl ⟨(Option.some.inj hj).symm,result,rfl⟩
      · exact .inr (hinv.closer_ne hlive ((setEntry_of_ne ho).symm.trans he') hj)
  | swapped n hm =>
    subst hm
    refine ⟨hinv.toEntriesInv.swapped n,fun j call hj => ?_,hinv.closer⟩
    exact (hinv.call j call hj).imp_right fun hfits =>
      hfits.mono (Nat.le_succ _) rfl fun _ => id
  | failed pool hm =>
    subst hm
    refine ⟨⟨?_,hinv.pending,hinv.cache,hinv.wire⟩,fun j call hj => ?_,fun o e j he hj => ?_⟩
    · exact fun j hj => hinv.fresh j (Option.map_eq_none_iff.mp hj)
    · obtain ⟨c,hc,rfl⟩ := Option.map_eq_some_iff.mp hj
      exact (hinv.call j c hc).imp failCall_isFinished.mpr failCall_fits
    · obtain ⟨c,hc,hfinished⟩ := hinv.closer o e j he hj
      exact ⟨failCall pool c,by simp [MultiprocessRuntimeManager.failed,hc],
        failCall_isFinished.mpr hfinished⟩

/-! ### Owners that complete where they acquired -/

/-- No owner that has returned leaves its entry behind, and no follower waits for one. -/
structure Settled (m : MultiprocessRuntimeManager W) : Prop where
  completed : ∀ i e call, m.entries i = some e → m.calls i = some call → call.isFinished →
    e.wire.isSome ∧ ∀ n key, (key,i) ∉ (m.frontCaches n).pending
  own : ∀ i e j, m.entries i = some e → e.completedBy = some j → j = i
  followers : ∀ i owner call call', m.calls i = some call → call.phase = .waiting owner →
    m.calls owner = some call' → call'.isFinished → ∃ e, m.entries owner = some e ∧ e.wire.isSome

/-- An owner in `complete_pending` is there on the front cache that holds its entry. -/
def CompletesOwnCache (m : MultiprocessRuntimeManager W) (l : Label) : Prop :=
  ∀ i call cache response written result e, l.completes i → m.calls i = some call →
    call.phase = .completing cache response written result → m.entries i = some e →
    cache = e.cache

structure Own (m : MultiprocessRuntimeManager W) : Prop where
  own : ∀ i e j, m.entries i = some e → e.completedBy = some j → j = i
  done : ∀ i e call, m.entries i = some e → m.calls i = some call → call.isFinished →
    e.completedBy ≠ none

theorem settled_of_own (hinv : Inv codec m) (hown : m.Own) : m.Settled := by
  have hcompleted : ∀ i e call, m.entries i = some e → m.calls i = some call → call.isFinished →
      e.wire.isSome ∧ ∀ n key, (key,i) ∉ (m.frontCaches n).pending := by
    intro i e call he hcall hfinished
    obtain ⟨j,hj⟩ := Option.ne_none_iff_exists'.mp (hown.done i e call he hcall hfinished)
    refine ⟨hinv.wire i e j he hj,fun n key hmem => ?_⟩
    obtain ⟨e',he',_,_,hnone⟩ := (hinv.pending n key i).mp hmem
    rw [he] at he'
    cases he'
    rw [hj] at hnone
    contradiction
  refine ⟨hcompleted,hown.own,?_⟩
  intro i owner call call' hcall hphase hcall' hfinished
  have hwaits : m.Fits codec i call := by
    refine (hinv.call i call hcall).resolve_left ?_
    intro h
    obtain ⟨result,hresult⟩ := h
    rw [hphase] at hresult
    contradiction
  unfold Fits at hwaits
  rw [hphase] at hwaits
  obtain ⟨e,he⟩ := Option.isSome_iff_exists.mp hwaits.1
  exact ⟨e,he,(hcompleted owner e call' he hcall' hfinished).1⟩

/-- A live owner's entry stands under its key in the front cache it was created in. -/
theorem owner_registered (hinv : Inv codec m) (hown : m.Own) {request : Message} {key : CacheKey}
    (hlive : m.Live i) (howns : m.Owns i request)
    (hkey : FrontCache.makeKeyFromRequest request = some key) :
    ∃ e, m.entries i = some e ∧ (m.frontCaches e.cache).pendingOwner key = some i := by
  rw [Owns,hkey] at howns
  obtain ⟨e,he,hek⟩ := Option.map_eq_some_iff.mp howns
  refine ⟨e,he,FrontCache.pendingOwner_eq_some.mpr ((hinv.pending _ _ _).mpr ⟨e,he,rfl,hek,?_⟩)⟩
  cases hj : e.completedBy with
  | none => rfl
  | some j =>
    obtain ⟨hne,_⟩ := hinv.closer_ne hlive he hj
    exact absurd (hown.own i e j he hj) hne

theorem Fits.not_finished {call : QueryCall} {e : PendingEntry W} (h : m.Fits codec i call)
    (he : m.entries i = some e) : ¬ call.isFinished := by
  intro h
  obtain ⟨result,hresult⟩ := h
  unfold Fits at h
  rw [hresult,he] at h
  contradiction

theorem Own.advances {call : QueryCall} (hown : m.Own) (hadv : Advances m m' i call)
    (hfinished : ∀ e, m.entries i = some e → call.isFinished → e.completedBy ≠ none) :
    m'.Own where
  own j e k he hk := by
    rw [hadv.entries] at he
    exact hown.own j e k he hk
  done j e c he hc hfin := by
    rw [hadv.entries] at he
    by_cases hji : j = i
    · subst hji
      obtain rfl := Option.some.inj (hadv.calls_self.symm.trans hc)
      exact hfinished e he hfin
    · exact hown.done j e c he ((hadv.calls_of_ne hji).symm.trans hc) hfin

theorem Own.opened {cache : Nat} {key : CacheKey} (hown : m.Own) (hlive : m.Live i)
    (h : (m.frontCaches cache).pendingOwner key = none) : (m.opened i cache key h).Own where
  own j e k he hk := by
    by_cases hj : j = i
    · subst hj
      obtain rfl := Option.some.inj (setEntry_self.symm.trans he)
      contradiction
    · exact hown.own j e k ((setEntry_of_ne hj).symm.trans he) hk
  done j e c he hc hfin := by
    by_cases hj : j = i
    · subst hj
      exact absurd hfin (hlive c hc)
    · exact hown.done j e c ((setEntry_of_ne hj).symm.trans he) hc hfin

/-- An owner takes out its own entry. -/
theorem Own.closed (hown : m.Own) (cache : Nat) (key : CacheKey) (e : PendingEntry W)
    (wire : Option W) : (m.closed i cache key i e wire).Own where
  own j e' k he hk := by
    by_cases hj : j = i
    · subst hj
      obtain rfl := Option.some.inj (setEntry_self.symm.trans he)
      exact (Option.some.inj hk).symm
    · exact hown.own j e' k ((setEntry_of_ne hj).symm.trans he) hk
  done j e' c he hc hfin := by
    by_cases hj : j = i
    · subst hj
      obtain rfl := Option.some.inj (setEntry_self.symm.trans he)
      simp
    · exact hown.done j e' c ((setEntry_of_ne hj).symm.trans he) hc hfin

/-- The step lemma: completing on the right front cache keeps entries with their owners. -/
theorem Own.step {l : Label} (hinv : Inv codec m) (hown : m.Own) (hcache : m.CompletesOwnCache l)
    (h : step codec m l = some m') : m'.Own := by
  cases step_change hinv h with
  | advanced i call _ _ hadv hfits =>
    exact hown.advances hadv fun e he hfin => absurd hfin (hfits.not_finished he)
  | opened i cache key call _ hlive _ hentry _ hnone hadv hfits =>
    exact (hown.opened hlive hnone).advances hadv fun e he hfin =>
      absurd hfin (hfits.not_finished he)
  | abandoned i cache key call result hlive howns hkey hphase hnone hadv =>
    obtain ⟨response,written,hcall⟩ := hphase
    obtain ⟨e,he,hregistered⟩ := owner_registered hinv hown hlive howns hkey
    rw [← hcache i _ cache response written result e rfl hcall rfl he,hnone] at hregistered
    contradiction
  | closed i cache key owner e wire call result hlive howns hkey hphase hpending hentry hadv =>
    obtain ⟨response,written,hcall⟩ := hphase
    obtain ⟨e',he',hregistered⟩ := owner_registered hinv hown hlive howns hkey
    rw [← hcache i _ cache response written result e' rfl hcall rfl he',hpending] at hregistered
    obtain rfl := Option.some.inj hregistered
    refine (hown.closed cache key e wire).advances hadv fun e' he' _ => ?_
    obtain rfl := Option.some.inj (setEntry_self.symm.trans he')
    simp
  | swapped n hm =>
    subst hm
    exact ⟨hown.own,hown.done⟩
  | failed pool hm =>
    subst hm
    refine ⟨hown.own,fun j e c he hc hfin => ?_⟩
    obtain ⟨c',hc',rfl⟩ := Option.map_eq_some_iff.mp hc
    exact hown.done j e c' he hc' (failCall_isFinished.mp hfin)

/-- An owner that completes on another front cache shows as soon as it has returned. -/
theorem Settled.completesOwnCache {l : Label} (hinv : Inv codec m)
    (h : step codec m l = some m') (hsettled : m'.Settled) : m.CompletesOwnCache l := by
  intro i call cache response written result e hl hcall hphase he
  have hlive : m.Live i := live_of_phase hcall (by simp [hphase])
  have hopen : ∀ j, e.completedBy = some j → j ≠ i := fun j hj => (hinv.closer_ne hlive he hj).1
  by_contra hne
  -- The entry is in the state after the step as it was before: still registered, or taken
  -- out by another call.
  have hshown : m'.entries i = some e → (∀ n k, n ≠ cache →
      ((k,i) ∈ (m'.frontCaches n).pending ↔ (k,i) ∈ (m.frontCaches n).pending)) →
      (∃ c, m'.calls i = some c ∧ c.isFinished) → False := by
    intro he' hpending h
    obtain ⟨c,hc,hfinished⟩ := h
    obtain ⟨_,hgone⟩ := hsettled.completed i e c he' hc hfinished
    cases hj : e.completedBy with
    | some j => exact hopen j hj (hsettled.own i e j he' hj)
    | none =>
      refine hgone e.cache e.key ((hpending _ _ (Ne.symm hne)).mpr ?_)
      exact (hinv.pending _ _ _).mpr ⟨e,he,rfl,rfl,hj⟩
  cases step_change hinv h with
  | advanced _ _ hlabel => exact hlabel i hl
  | opened _ _ _ _ hlabel => exact hlabel i hl
  | abandoned j cache' key call' result' _ _ _ hphase' _ hadv =>
    obtain rfl : j = i := hl
    exact hshown (by rw [hadv.entries,he]) (fun n k _ => by rw [hadv.pending])
      ⟨_,hadv.calls_self,result',rfl⟩
  | closed j cache' key owner e' wire call' result' _ _ _ hphase' hpending hentry hadv =>
    obtain rfl : j = i := hl
    obtain ⟨response',written',hcall'⟩ := hphase'
    rw [hcall] at hcall'
    cases hcall'
    cases hphase
    have howner : j ≠ owner := by
      intro heq
      subst heq
      obtain ⟨e'',he'',hcache,_⟩ := (hinv.pending _ _ _).mp
        (FrontCache.pendingOwner_eq_some.mp hpending)
      rw [he] at he''
      cases he''
      exact hne hcache.symm
    refine hshown ?_ (fun n k hn => ?_) ⟨_,hadv.calls_self,_,rfl⟩
    · rw [hadv.entries]
      exact (setEntry_of_ne howner).trans he
    · rw [hadv.pending]
      simp [MultiprocessRuntimeManager.closed,setEntry,setFrontCache,Function.update_of_ne hn]
  | swapped => exact hl
  | failed => exact hl

/-- Along a run of queries and reloads no entry is stranded and no follower left waiting,
just when every owner completes on the front cache it acquired on. -/
theorem processQuery_settles_iff (codec : Codec W) (frontCacheSize : Nat) (ls : List Label) :
    Transition.Always (MultiprocessRuntimeManager.step codec) Settled (init frontCacheSize) ls ↔
      Transition.Guarded (MultiprocessRuntimeManager.step codec) CompletesOwnCache
        (init frontCacheSize) ls := by
  constructor
  · intro h
    have hinit : Inv codec (init frontCacheSize) := Inv.init frontCacheSize
    exact h.guarded hinit (fun s l s' hinv hstep => hinv.step hstep)
      fun s l s' hinv hstep hsettled => hsettled.completesOwnCache hinv hstep
  · intro h
    have hown : (init frontCacheSize : MultiprocessRuntimeManager W).Own :=
      ⟨by simp [init],by simp [init]⟩
    have halways := h.always (I:=fun m => Inv codec m ∧ m.Own) ⟨Inv.init _,hown⟩
      fun s l s' hs hok hstep => ⟨hs.1.step hstep,hs.2.step hs.1 hok hstep⟩
    exact halways.mono fun m hm => settled_of_own hm.1 hm.2

/-- Two queries for one host, and a reload before the first of them is answered. -/
def reloadRun : List Label :=
  [.arrive 0 (makeQuery 1 hostName RdataType.A RdataClass.IN) 0 none,.acquire 0 0 none,
    .arrive 1 (makeQuery 2 hostName RdataType.A RdataClass.IN) 0 none,.acquire 1 0 none,
    .swap 1,.failPending 0,.resume 0 0,.complete 0]

/-- The owner completes on the new front cache; its follower stays on the old one. -/
theorem processQuery_strands_follower :
    ¬ Transition.Always (MultiprocessRuntimeManager.step directCodec) Settled (init 1)
        reloadRun := by
  intro h
  have hrun : ∃ m e call,
      Transition.run (MultiprocessRuntimeManager.step directCodec) (init 1) reloadRun =
        some m ∧ m.entries 0 = some e ∧ e.wire = none ∧ m.calls 0 = some call ∧ call.isFinished :=
    ⟨_,_,_,rfl,rfl,rfl,rfl,_,rfl⟩
  obtain ⟨m,e,call,hm,he,hwire,hcall,hfinished⟩ := hrun
  have hset := ((h.final hm).completed 0 e call he hcall hfinished).1
  rw [hwire] at hset
  contradiction

end MultiprocessRuntimeManager

end SmartDns
