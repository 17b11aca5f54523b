import SmartDns.Cache.Plugin
import SmartDns.Pipeline.Finalize
import SmartDns.Pipeline.Outcome
set_option autoImplicit false

/-!
What the hooks of the cache plugin do with the key of an owner, told from the context
they are called on: the owner is served, its key is given up without a result, or
nothing happens to it.
-/

namespace SmartDns

section
variable {E S W : Type} (codec : Codec W) (now : ℚ)

def Storable (a : Answer) : Prop :=
  ∃ stored, DnsCacheService.cloneAnswer codec now a none = .ok stored

/-- There is a response to share, and it cannot be encoded. -/
def Unencodable (c : RequestContext E) : Prop :=
  match c.finalAnswer,c.finalResponse with
  | some _,_ => False
  | none,some response => ¬ codec.Encodes response
  | none,none => c.request.flags.qr = false ∧ ¬ codec.Encodes (errorReply c.request Rcode.SERVFAIL)

/-- `on_response` finds an answer to cache and can store it. -/
def Cacheable (c : RequestContext E) : Prop :=
  match c.finalAnswer,c.finalResponse with
  | some a,none => Syncs codec now a
  | some a,some response => response.rcode = Rcode.NOERROR ∧ Syncs codec now a
  | none,some response => response.rcode = Rcode.NOERROR ∧
      ∃ a, buildAnswerFromResponse codec now c.request response = .ok a ∧ Storable codec now a
  | none,none => False

/-- `on_response` decides that there is nothing to cache. -/
def Uncacheable (c : RequestContext E) : Prop :=
  match c.finalAnswer,c.finalResponse with
  | _,some response => response.rcode ≠ Rcode.NOERROR
  | some _,none => False
  | none,none => True

/-- The response that `_resolve_response_to_share` returns. -/
def SharedResponse (c : RequestContext E) (m : Message) : Prop :=
  match c.finalAnswer,c.finalResponse with
  | some a,_ => Syncs codec now a ∧ m = (writtenBack a).response.merged
  | none,some response => m = response
  | none,none => c.request.flags.qr = false ∧ m = errorReply c.request Rcode.SERVFAIL

/-- The key is given up by `on_response`, and its future is not set. -/
def Loses (c : RequestContext E) : Prop :=
  c.request.question ≠ [] ∧ Uncacheable c ∧ Unencodable codec c

/-- What `on_response` sets the future to: nothing where the answer is cached. -/
def ReleasesWith (c : RequestContext E) (result : Option Message) : Prop :=
  c.request.question ≠ [] ∧
    match result with
    | none => Cacheable codec now c
    | some m => Uncacheable c ∧ SharedResponse codec now c m ∧ codec.Encodes m

/-- What `on_finish` sets the future to. -/
def SharesWith (c : RequestContext E) (result : Option Message) : Prop :=
  ∃ m, result = some m ∧ SharedResponse codec now c m ∧ codec.Encodes m

variable {codec now}

theorem SharedResponse.unique {c : RequestContext E} {m m' : Message}
    (h : SharedResponse codec now c m) (h' : SharedResponse codec now c m') : m = m' := by
  unfold SharedResponse at h h'
  cases ha : c.finalAnswer with
  | some a =>
    rw [ha] at h h'
    exact h.2.trans h'.2.symm
  | none =>
    cases hr : c.finalResponse with
    | some response =>
      rw [ha,hr] at h h'
      exact h.trans h'.symm
    | none =>
      rw [ha,hr] at h h'
      exact h.2.trans h'.2.symm

theorem unencodable_iff {c : RequestContext E} :
    Unencodable codec c ↔ ∃ m, SharedResponse codec now c m ∧ ¬ codec.Encodes m := by
  unfold Unencodable SharedResponse
  split
  · simp only [false_iff,not_exists,not_and,not_not]
    intro m hm
    obtain ⟨h,rfl⟩ := hm
    obtain ⟨w,hw⟩ := h.2.1
    exact codec.again _ _ hw
  · simp
  · simp

theorem Uncacheable.not_cacheable {c : RequestContext E} (h : Uncacheable c) :
    ¬ Cacheable codec now c := by
  unfold Uncacheable Cacheable at *
  cases hr : c.finalResponse with
  | none => cases ha : c.finalAnswer <;> simp [hr,ha] at h ⊢
  | some response =>
    simp only [hr] at h
    cases ha : c.finalAnswer <;> simp [h]

/-! ### Synchronising the final answer -/

theorem syncFinalAnswer_ok {a : Answer} (h : Syncs codec now a) (c : RequestContext E) :
    ∃ a', syncFinalAnswer codec now a c = (.ok a',{ c with finalAnswer := some a' }) ∧
      a'.response = (writtenBack a).response.merged ∧ Storable codec now a' := by
  obtain ⟨a',hsync⟩ := syncs_iff.mp h
  have hresponse := syncAnswerResponse_response hsync
  obtain ⟨_,⟨w,hw⟩,rebuilt,hrebuilt⟩ := h
  obtain ⟨w',hw'⟩ := codec.again _ _ hw
  obtain ⟨_,_,_,_,ha'⟩ := syncAnswerResponse_ok_iff.mp hsync
  refine ⟨_,by rw [syncFinalAnswer_run,hsync],hresponse,?_⟩
  have hstored : mkAnswer now a.qname a.rdtype a.rdclass (writtenBack a).response.merged.merged =
      .ok rebuilt := by
    rw [Message.merged_merged]
    exact hrebuilt
  refine ⟨{ rebuilt with expiration := a'.expiration },?_⟩
  unfold DnsCacheService.cloneAnswer
  rw [hresponse]
  simp only [bind,Except.bind,hw',codec.roundTrip _ _ hw']
  rw [ha']
  change (mkAnswer now a.qname a.rdtype a.rdclass
    (writtenBack a).response.merged.merged).bind _ = _
  rw [hstored]
  rfl

theorem syncFinalAnswer_error {a : Answer} (h : ¬ Syncs codec now a) (c : RequestContext E) :
    ∃ e a', syncFinalAnswer codec now a c = (.error e,{ c with finalAnswer := some a' }) := by
  rw [syncFinalAnswer_run]
  rcases hs : syncAnswerResponse codec now a with ⟨e | ⟨⟩,a'⟩
  · exact ⟨e,a',rfl⟩
  · exact absurd (syncs_iff.mpr ⟨a',hs⟩) h

/-! ### The hooks on an owner's key -/

/-- What becomes of the key of an owner: its future is set to what was given, its key is given
up without that, or nothing has happened to it. -/
inductive Settles (codec : Codec W) (key : CacheKey) (future : Nat)
    (gives : Option Message → Prop) (abandons : Prop) (s : DnsCacheService W) : Prop where
  | given (result : Option Message) (wire : Option W) (h : gives result)
      (hwire : DnsCacheService.sharedWire codec result = .ok wire)
      (hs : s.Settled future (some wire))
  | abandoned (hnot : ∀ result, ¬ gives result) (h : abandons) (hs : s.Settled future none)
  | left (hnot : ∀ result, ¬ gives result) (habandons : ¬ abandons) (hs : s.Registered key future)

section
variable {key : CacheKey} {future : Nat} {gives gives' : Option Message → Prop}
  {abandons abandons' : Prop} {s : DnsCacheService W}

theorem Settles.congr (h : Settles codec key future gives abandons s)
    (hgives : ∀ result, gives result ↔ gives' result) (habandons : abandons ↔ abandons') :
    Settles codec key future gives' abandons' s := by
  obtain rfl : gives = gives' := funext fun result => propext (hgives result)
  obtain rfl : abandons = abandons' := propext habandons
  exact h

end

namespace CachePlugin

variable {key : CacheKey} {future : Nat}

theorem resolveResponseToShare_run (codec : Codec W) (now : ℚ)
    (c : RequestContext (CacheExtensions E)) :
    (∃ m c', resolveResponseToShare codec now c = (.ok m,c') ∧ SharedResponse codec now c m) ∨
    (∃ e c', resolveResponseToShare codec now c = (.error e,c') ∧
      ∀ m, ¬ SharedResponse codec now c m) := by
  unfold resolveResponseToShare SharedResponse
  rw [Exec.bind_ok (Exec.run_get c)]
  cases ha : c.finalAnswer with
  | some a =>
    by_cases hsyncs : Syncs codec now a
    · obtain ⟨a',hrun,hresponse,_⟩ := syncFinalAnswer_ok hsyncs c
      exact .inl ⟨a'.response,_,Exec.bind_ok hrun,hsyncs,hresponse⟩
    · obtain ⟨e,a',hrun⟩ := syncFinalAnswer_error hsyncs c
      exact .inr ⟨e,_,Exec.bind_error hrun,fun _ h => hsyncs h.1⟩
  | none =>
    cases hr : c.finalResponse with
    | some response => exact .inl ⟨response,c,rfl,by simp⟩
    | none =>
      cases hqr : c.request.flags.qr with
      | true =>
        simp only [makeErrorResponse_error hqr]
        exact .inr ⟨.formError "specified query message is not a query",c,Exec.bind_error rfl,
          by simp⟩
      | false =>
        simp only [makeErrorResponse_ok hqr]
        exact .inl ⟨errorReply c.request Rcode.SERVFAIL,
          { c with finalResponse := some (errorReply c.request Rcode.SERVFAIL) },rfl,trivial,rfl⟩

theorem share_settles {p : RequestContext (CacheExtensions E) × CacheServices W S}
    (h : p.2.cache.Registered key future) :
    Settles codec key future (SharesWith codec now p.1) (Unencodable codec p.1)
      (share codec now key p).2.2.cache := by
  obtain ⟨c,services⟩ := p
  obtain ⟨m,c',hrun,hm⟩ | ⟨e,c',hrun,hnone⟩ := resolveResponseToShare_run codec now c
  · have hcontext : onRequestContext (resolveResponseToShare codec now) (c,services) =
        (.ok m,(c',services)) := onRequestContext_run hrun
    unfold share
    rw [Exec.bind_ok hcontext]
    by_cases hencodes : codec.Encodes m
    · obtain ⟨w,hw⟩ := hencodes
      have hwire : DnsCacheService.sharedWire codec (some m) = .ok (some w) := by
        simp [DnsCacheService.sharedWire,hw,bind,Except.bind,pure,Except.pure]
      exact .given (some m) (some w) ⟨m,rfl,hm,w,hw⟩ hwire
        (DnsCacheService.completePending_settles h hwire)
    · refine .abandoned ?_ (unencodable_iff.mpr ⟨m,hm,hencodes⟩)
        (DnsCacheService.completePending_abandoned h
          (DnsCacheService.sharedWire_encodes.not.mpr hencodes))
      intro result hresult
      obtain ⟨m',_,hm',hencodes'⟩ := hresult
      rw [hm'.unique hm] at hencodes'
      exact hencodes hencodes'
  · have hcontext : onRequestContext (resolveResponseToShare codec now) (c,services) =
        (.error e,(c',services)) := onRequestContext_run hrun
    unfold share
    rw [Exec.bind_error hcontext]
    refine .left ?_ ?_ h
    · intro result hresult
      obtain ⟨m,_,hm,_⟩ := hresult
      exact hnone m hm
    · intro hunencodable
      obtain ⟨m,hm,_⟩ := unencodable_iff.mp hunencodable
      exact hnone m hm

/-- What `on_response` caches of a final answer. -/
theorem syncedAnswer_run (codec : Codec W) (now : ℚ) (a : Answer) (c : RequestContext E) :
    (Syncs codec now a ∧ ∃ a' c',
      (syncFinalAnswer codec now a >>= fun synced => pure (some synced)) c = (.ok (some a'),c') ∧
        Storable codec now a') ∨
    (¬ Syncs codec now a ∧ ∃ e c',
      (syncFinalAnswer codec now a >>= fun synced => pure (some synced)) c = (.error e,c')) := by
  by_cases hsyncs : Syncs codec now a
  · obtain ⟨a',hrun,_,hstorable⟩ := syncFinalAnswer_ok hsyncs c
    exact .inl ⟨hsyncs,a',_,Exec.bind_ok hrun,hstorable⟩
  · obtain ⟨e,a',hrun⟩ := syncFinalAnswer_error hsyncs c
    exact .inr ⟨hsyncs,e,_,Exec.bind_error hrun⟩

theorem resolveCacheableAnswer_run (codec : Codec W) (now : ℚ)
    (c : RequestContext (CacheExtensions E)) :
    (∃ c', resolveCacheableAnswer codec now c = (.ok none,c') ∧ c' = c ∧ Uncacheable c) ∨
    (∃ a c', resolveCacheableAnswer codec now c = (.ok (some a),c') ∧
      (Cacheable codec now c ↔ Storable codec now a) ∧ ¬ Uncacheable c) ∨
    (∃ e c', resolveCacheableAnswer codec now c = (.error e,c') ∧ ¬ Cacheable codec now c ∧
      ¬ Uncacheable c) := by
  unfold resolveCacheableAnswer Cacheable Uncacheable
  rw [Exec.bind_ok (Exec.run_get c)]
  cases ha : c.finalAnswer with
  | some a =>
    cases hr : c.finalResponse with
    | none =>
      rcases syncedAnswer_run codec now a c with ⟨hsyncs,a',c',hrun,hstorable⟩ | ⟨hsyncs,e,c',hrun⟩
      · exact .inr (.inl ⟨a',c',hrun,by simp [hsyncs,hstorable],id⟩)
      · exact .inr (.inr ⟨e,c',hrun,hsyncs,id⟩)
    | some response =>
      by_cases hcode : response.rcode = Rcode.NOERROR
      · simp only [hcode,ne_eq,not_true_eq_false,if_false,true_and,not_false_eq_true,and_true]
        rcases syncedAnswer_run codec now a c with
          ⟨hsyncs,a',c',hrun,hstorable⟩ | ⟨hsyncs,e,c',hrun⟩
        · exact .inr (.inl ⟨a',c',hrun,by simp [hsyncs,hstorable]⟩)
        · exact .inr (.inr ⟨e,c',hrun,hsyncs⟩)
      · simp only [hcode,ne_eq,not_false_eq_true,if_true]
        exact .inl ⟨c,rfl,rfl,trivial⟩
  | none =>
    cases hr : c.finalResponse with
    | none => exact .inl ⟨c,rfl,rfl,trivial⟩
    | some response =>
      by_cases hcode : response.rcode = Rcode.NOERROR
      · simp only [hcode,ne_eq,not_true_eq_false,if_false,true_and,not_false_eq_true,and_true]
        cases hbuild : buildAnswerFromResponse codec now c.request response with
        | ok a => exact .inr (.inl ⟨a,c,rfl,by simp⟩)
        | error e => exact .inr (.inr ⟨e,c,rfl,by simp⟩)
      · simp only [hcode,ne_eq,not_false_eq_true,if_true]
        exact .inl ⟨c,rfl,rfl,trivial⟩

/-- The entry that `on_response` writes, if it writes one. -/
def written (codec : Codec W) (now : ℚ)
    (p : RequestContext (CacheExtensions E) × CacheServices W S) : Option (CacheKey × Answer) :=
  if p.1.extensions.cache.hit || p.1.extensions.cache.shared then none
  else
    match firstQuestion p.1.request, (resolveCacheableAnswer codec now p.1).1 with
    | .ok _, .ok (some a) =>
      match DnsCacheService.cloneAnswer codec now a none with
      | .ok stored => some (DnsCacheService.makeKeyFromAnswer a,stored)
      | .error _ => none
    | _, _ => none

/-! ### The extensions of the context -/

section
variable (codec : Codec W) (now : ℚ) (x : CacheExtensions E)

theorem syncFinalAnswer_extensions (a : Answer) :
    Exec.Keeps (fun c : RequestContext (CacheExtensions E) => c.extensions = x)
      (syncFinalAnswer codec now a) := by
  refine Exec.Keeps.of_run fun c hc => ?_
  rw [syncFinalAnswer_run]
  rcases syncAnswerResponse codec now a with ⟨e | ⟨⟩,a'⟩
  · exact hc
  · exact hc

theorem resolveResponseToShare_extensions :
    Exec.Keeps (fun c : RequestContext (CacheExtensions E) => c.extensions = x)
      (resolveResponseToShare codec now) := by
  refine Exec.Keeps.get.bind fun c => ?_
  split
  · exact (syncFinalAnswer_extensions codec now x _).bind fun _ => Exec.Keeps.pure _
  · exact Exec.Keeps.pure _
  · exact (Exec.Keeps.ofExcept _).bind fun _ =>
      (Exec.Keeps.of_run fun _ h => h).bind fun _ => Exec.Keeps.pure _

theorem resolveCacheableAnswer_extensions :
    Exec.Keeps (fun c : RequestContext (CacheExtensions E) => c.extensions = x)
      (resolveCacheableAnswer codec now) := by
  refine Exec.Keeps.get.bind fun c => ?_
  split
  · exact (syncFinalAnswer_extensions codec now x _).bind fun _ => Exec.Keeps.pure _
  · split
    · exact Exec.Keeps.pure _
    · exact (syncFinalAnswer_extensions codec now x _).bind fun _ => Exec.Keeps.pure _
  · split
    · exact Exec.Keeps.pure _
    · exact (Exec.Keeps.ofExcept _).bind fun _ => Exec.Keeps.pure _
  · exact Exec.Keeps.pure _

abbrev Extended (x : CacheExtensions E)
    (p : RequestContext (CacheExtensions E) × CacheServices W S) : Prop :=
  p.1.extensions = x

theorem onService_extensions {α : Type} (y : Exec PyException (DnsCacheService W) α) :
    Exec.Keeps (Extended x) (onService y : CacheExec E S W α) :=
  Exec.Keeps.of_run fun _ h => h

theorem onRequestContext_extensions {α : Type}
    {y : Exec PyException (RequestContext (CacheExtensions E)) α}
    (h : Exec.Keeps (fun c => c.extensions = x) y) :
    Exec.Keeps (Extended x) (onRequestContext y : CacheExec E S W α) :=
  Exec.Keeps.of_run fun _ hp => h.run hp

theorem share_extensions : Exec.Keeps (Extended x) (share codec now key : CacheExec E S W Unit) :=
  (onRequestContext_extensions x (resolveResponseToShare_extensions codec now x)).bind fun _ =>
    onService_extensions x _

theorem store_extensions (answer : Option Answer) :
    Exec.Keeps (Extended x) (store codec now answer : CacheExec E S W Unit) := by
  cases answer with
  | some a => exact onService_extensions x _
  | none => exact Exec.Keeps.pure _

theorem release_extensions (answer : Option Answer) :
    Exec.Keeps (Extended x) (release codec now answer : CacheExec E S W Unit) := by
  refine Exec.Keeps.get.bind fun p => ?_
  split
  · split
    · exact onService_extensions x _
    · exact share_extensions codec now x
  · exact Exec.Keeps.pure _

theorem onResponse_extensions :
    Exec.Keeps (Extended x) (onResponse codec now : CacheExec E S W Unit) := by
  refine Exec.Keeps.get.bind fun p => ?_
  split
  · exact Exec.Keeps.pure _
  · refine (Exec.Keeps.ofExcept _).bind fun _ => ?_
    have hresolve := resolveCacheableAnswer_extensions codec now x
    refine (onRequestContext_extensions x hresolve).bind fun answer => ?_
    exact (store_extensions codec now x answer).bind fun _ => release_extensions codec now x answer

theorem onFinish_extensions :
    Exec.Keeps (Extended x) (onFinish codec now : CacheExec E S W Unit) := by
  refine Exec.Keeps.get.bind fun p => ?_
  split
  · refine (onService_extensions x _).bind fun pending => ?_
    split
    · exact share_extensions codec now x
    · exact Exec.Keeps.pure _
  · exact Exec.Keeps.pure _

end

/-! ### The hooks on the context of an owner -/

def ownerContext (key : CacheKey) (future : Nat) : CachePluginContext where
  pendingOwner := true
  key := some key
  future := some future

section
variable {p : RequestContext (CacheExtensions E) × CacheServices W S}

theorem release_run (hown : p.1.extensions.cache = ownerContext key future)
    (answer : Option Answer) :
    release codec now answer p =
      (match answer with
        | some _ => onService (DnsCacheService.completePending codec key none)
        | none => share codec now key) p := by
  unfold release
  rw [Exec.bind_ok (Exec.run_get p),hown]
  rfl

theorem hasPending_run (key : CacheKey)
    (p : RequestContext (CacheExtensions E) × CacheServices W S) :
    onService (DnsCacheService.hasPending key) p =
      (.ok (p.2.cache.pendingFuture key).isSome,p) := rfl

theorem onFinish_settles (hown : p.1.extensions.cache = ownerContext key future)
    (h : p.2.cache.Registered key future) :
    Settles codec key future (SharesWith codec now p.1) (Unencodable codec p.1)
      (onFinish codec now p).2.2.cache := by
  have hpending : onService (DnsCacheService.hasPending key) p = (.ok true,p) := by
    rw [hasPending_run,h.pending,Option.isSome_some]
  unfold onFinish
  rw [Exec.bind_ok (Exec.run_get p),hown]
  simp only [ownerContext]
  rw [Exec.bind_ok hpending]
  exact share_settles h

theorem release_settles (codec : Codec W) (now : ℚ) (a : Answer)
    (hown : p.1.extensions.cache = ownerContext key future)
    (h : p.2.cache.Registered key future) :
    (release codec now (some a) p).2.2.cache.Settled future (some none) := by
  rw [release_run hown]
  exact DnsCacheService.completePending_settles h rfl

/-- An answer that can be stored serves the owner, any other leaves the key alone. -/
theorem storeAnswer_settles (codec : Codec W) (now : ℚ) (a : Answer)
    (hown : p.1.extensions.cache = ownerContext key future)
    (h : p.2.cache.Registered key future) :
    Settles codec key future (fun result => result = none ∧ Storable codec now a) False
      ((do
        store codec now (some a)
        release codec now (some a) : CacheExec E S W Unit) p).2.2.cache := by
  obtain ⟨stored,hclone,hput⟩ | ⟨e,hclone,hput⟩ :=
    DnsCacheService.putAnswer_run codec now a p.2.cache
  · have hstore : store codec now (some a) p = (.ok (),_) := onService_run hput
    rw [Exec.bind_ok hstore]
    exact .given none none ⟨rfl,stored,hclone⟩ rfl
      (release_settles codec now a hown (h.withCache _))
  · have hstore : store codec now (some a) p = (.error e,p) := onService_run hput
    rw [Exec.bind_error hstore]
    exact .left (by simp [Storable,hclone]) id h

theorem onResponse_settles (codec : Codec W) (now : ℚ)
    (hown : p.1.extensions.cache = ownerContext key future)
    (h : p.2.cache.Registered key future) :
    Settles codec key future (ReleasesWith codec now p.1) (Loses codec p.1)
      (onResponse codec now p).2.2.cache := by
  obtain ⟨c,services⟩ := p
  have hflags : (c.extensions.cache.hit || c.extensions.cache.shared) = false := by
    rw [hown]
    rfl
  unfold onResponse ReleasesWith Loses
  rw [Exec.bind_ok (Exec.run_get _)]
  simp only [hflags,Bool.false_eq_true,if_false]
  cases hq : c.request.question with
  | nil =>
    have hfirst : firstQuestion c.request = .error (.indexError "list index out of range") := by
      simp [firstQuestion,hq]
    rw [hfirst,Exec.bind_error (Exec.run_ofExcept _ _)]
    exact .left (by simp) (by simp) h
  | cons q qs =>
    have hfirst : firstQuestion c.request = .ok q := by simp [firstQuestion,hq]
    rw [hfirst,Exec.bind_ok (Exec.run_ofExcept _ _)]
    have hextensions := (resolveCacheableAnswer_extensions codec now c.extensions).run (s:=c) rfl
    obtain ⟨c',hrun,rfl,hnot⟩ | ⟨a,c',hrun,hstorable,hnot⟩ | ⟨e,c',hrun,hcache,hnot⟩ :=
      resolveCacheableAnswer_run codec now c
    · have hcontext : onRequestContext (resolveCacheableAnswer codec now) (c',services) =
          (.ok none,(c',services)) := onRequestContext_run hrun
      have hstore : store codec now none (c',services) = (.ok (),(c',services)) := rfl
      rw [Exec.bind_ok hcontext,Exec.bind_ok hstore,release_run hown]
      refine (share_settles h).congr (fun result => ?_) ?_
      · cases result with
        | none => simp [SharesWith,hnot.not_cacheable]
        | some m => simp [SharesWith,hnot]
      · simp [hnot]
    · have hcontext : onRequestContext (resolveCacheableAnswer codec now) (c,services) =
          (.ok (some a),(c',services)) := onRequestContext_run hrun
      rw [Exec.bind_ok hcontext]
      rw [hrun] at hextensions
      have hown' : c'.extensions.cache = ownerContext key future :=
        (congrArg CacheExtensions.cache hextensions).trans hown
      refine (storeAnswer_settles (p:=(c',services)) codec now a hown' h).congr
        (fun result => ?_) ?_
      · cases result with
        | none => simp [hstorable]
        | some m => simp [hnot]
      · simp [hnot]
    · have hcontext : onRequestContext (resolveCacheableAnswer codec now) (c,services) =
          (.error e,(c',services)) := onRequestContext_run hrun
      rw [Exec.bind_error hcontext]
      refine .left (fun result => ?_) (by simp [hnot]) h
      cases result with
      | none => simp [hcache]
      | some m => simp [hnot]

end

/-! ### A future that nobody sets any more -/

section
variable {value : Option (Option W)}

/-- No key is registered for the future, and it stands as it is. -/
def AtRest (future : Nat) (value : Option (Option W))
    (p : RequestContext (CacheExtensions E) × CacheServices W S) : Prop :=
  p.2.cache.Settled future value

theorem onRequestContext_atRest {α : Type}
    (y : Exec PyException (RequestContext (CacheExtensions E)) α) :
    Exec.Keeps (AtRest future value) (onRequestContext y : CacheExec E S W α) :=
  Exec.Keeps.of_run fun _ hp => hp

theorem onService_atRest {α : Type} {y : Exec PyException (DnsCacheService W) α}
    (h : Exec.Keeps (fun s => s.Settled future value) y) :
    Exec.Keeps (AtRest future value) (onService y : CacheExec E S W α) :=
  Exec.Keeps.of_run fun _ hp => h.run hp

theorem share_atRest (key : CacheKey) :
    Exec.Keeps (AtRest future value) (share codec now key : CacheExec E S W Unit) :=
  (onRequestContext_atRest _).bind fun _ =>
    onService_atRest (DnsCacheService.completePending_settled codec key _)

theorem release_atRest (answer : Option Answer) :
    Exec.Keeps (AtRest future value) (release codec now answer : CacheExec E S W Unit) := by
  refine Exec.Keeps.get.bind fun p => ?_
  split
  · split
    · exact onService_atRest (DnsCacheService.completePending_settled codec _ none)
    · exact share_atRest _
  · exact Exec.Keeps.pure ()

theorem store_atRest (answer : Option Answer) :
    Exec.Keeps (AtRest future value) (store codec now answer : CacheExec E S W Unit) := by
  cases answer with
  | some a => exact onService_atRest (DnsCacheService.putAnswer_settled codec now a)
  | none => exact Exec.Keeps.pure ()

theorem onResponse_atRest :
    Exec.Keeps (AtRest future value) (onResponse codec now : CacheExec E S W Unit) := by
  refine Exec.Keeps.get.bind fun p => ?_
  split
  · exact Exec.Keeps.pure ()
  · exact (Exec.Keeps.ofExcept _).bind fun _ => (onRequestContext_atRest _).bind fun answer =>
      (store_atRest answer).bind fun _ => release_atRest answer

/-- The key that is still pending may be that of a later owner. -/
theorem onFinish_atRest :
    Exec.Keeps (AtRest future value) (onFinish codec now : CacheExec E S W Unit) := by
  refine Exec.Keeps.get.bind fun p => ?_
  split
  · refine Exec.Keeps.bind (Exec.Keeps.of_run fun _ hp => hp) fun pending => ?_
    split
    · exact share_atRest _
    · exact Exec.Keeps.pure ()
  · exact Exec.Keeps.pure ()

end

end CachePlugin

end

end SmartDns
