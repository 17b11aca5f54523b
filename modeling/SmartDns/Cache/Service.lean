import SmartDns.Dns.Cache
import SmartDns.Pipeline.Context
set_option autoImplicit false

/-!
`DnsCacheService`: cached answers, and a future for every key whose owner is still
asking. A future is named by its place among those created. The requests of an engine
share the service, and what one of them finds in it depends on what the others do.
-/

namespace SmartDns

/-- A future is none until it is done; then it holds the wire to share, if there is one. The
futures of the pending keys have been created. -/
structure DnsCacheService (W : Type) where
  cache : LRUCache
  pending : List (CacheKey × Nat) := []
  futures : List (Option (Option W)) := []
  bounded : ∀ entry ∈ pending, entry.2 < futures.length := by simp

namespace DnsCacheService

/-- A service that has just been made. -/
def new {W : Type} (maxSize : Nat) : DnsCacheService W := { cache := LRUCache.empty maxSize }

section
variable {W : Type} (codec : Codec W) (now : ℚ)

def makeKeyFromRequest (request : Message) : Except PyException CacheKey := do
  let question ← firstQuestion request
  pure question.key

def makeKeyFromAnswer (answer : Answer) : CacheKey :=
  rrkey answer.qname answer.rdclass answer.rdtype

/-- `_clone_answer`; the expiration is that of the answer. -/
def cloneAnswer (answer : Answer) (remainingTtl : Option Nat) : Except PyException Answer := do
  let wire ← codec.toWire answer.response
  let decoded ← codec.fromWire wire
  let clonedResponse := match remainingTtl with
    | some ttl => decoded.aged ttl
    | none => decoded
  let clonedAnswer ← mkAnswer now answer.qname answer.rdtype answer.rdclass clonedResponse
  pure { clonedAnswer with expiration := answer.expiration }

def updateCache (f : LRUCache → LRUCache) : Exec PyException (DnsCacheService W) Unit :=
  Exec.modify fun s => { s with cache := f s.cache }

def getForRequest (request : Message) : Exec PyException (DnsCacheService W) (Option Answer) := do
  let key ← Exec.ofExcept (makeKeyFromRequest request)
  let found := (← Exec.get).cache.get now key
  updateCache fun _ => found.2
  match found.1 with
  | none => pure none
  | some cached => do
    let answer ← Exec.ofExcept (cloneAnswer codec now cached (some (cached.remainingTtl now)))
    pure (some answer)

def putAnswer (answer : Answer) : Exec PyException (DnsCacheService W) Unit := do
  let cloned ← Exec.ofExcept (cloneAnswer codec now answer none)
  updateCache fun cache => cache.put (makeKeyFromAnswer answer) cloned

/-- The future registered for a key. -/
def pendingFuture (s : DnsCacheService W) (key : CacheKey) : Option Nat :=
  (Keyed.lookup Prod.fst key s.pending).map Prod.snd

/-- Whether a future has a result. -/
def isDone (s : DnsCacheService W) (future : Nat) : Bool :=
  match s.futures[future]? with
  | some (some _) => true
  | _ => false

def create (s : DnsCacheService W) (key : CacheKey) : DnsCacheService W :=
  { s with
    pending := s.pending ++ [(key,s.futures.length)]
    futures := s.futures ++ [none]
    bounded := by
      intro entry h
      rw [List.length_append]
      obtain h | h := List.mem_append.mp h
      · exact Nat.lt_succ_of_lt (s.bounded entry h)
      · rw [List.mem_singleton.mp h]
        exact Nat.lt_succ_self _ }

def pop (s : DnsCacheService W) (key : CacheKey) : DnsCacheService W :=
  { s with
    pending := s.pending.filter fun entry => entry.1 ≠ key
    bounded := fun entry h => s.bounded entry (List.mem_of_mem_filter h) }

def setResult (s : DnsCacheService W) (future : Nat) (wire : Option W) : DnsCacheService W :=
  { s with
    futures := s.futures.set future (some wire)
    bounded := fun entry h => by
      rw [List.length_set]
      exact s.bounded entry h }

/-- The future of another request, or nothing for the owner of a new one. -/
def acquirePending (key : CacheKey) : Exec PyException (DnsCacheService W) (Option Nat) := do
  let s ← Exec.get
  match s.pendingFuture key with
  | some future => pure (some future)
  | none => do
    Exec.modify fun s => s.create key
    pure none

/-- What is shared with the followers: a wire, or nothing when they find it in the cache. -/
def sharedWire : Option Message → Except PyException (Option W)
  | none => pure none
  | some response => do
    let wire ← codec.toWire response
    pure (some wire)

/-- The key is given up before the response is encoded. -/
def completePending (key : CacheKey) (response : Option Message) :
    Exec PyException (DnsCacheService W) Unit := do
  let s ← Exec.get
  Exec.modify fun s => s.pop key
  match s.pendingFuture key with
  | none => pure ()
  | some future =>
    if s.isDone future then pure ()
    else do
      let wire ← Exec.ofExcept (sharedWire codec response)
      Exec.modify fun s => s.setResult future wire

def hasPending (key : CacheKey) : Exec PyException (DnsCacheService W) Bool := do
  let s ← Exec.get
  pure (s.pendingFuture key).isSome

end

/-- What a request does to the service between two of its waits, told by the others: it looks
up or stores answers, becomes the owner of a key, or completes one. -/
inductive Act where
  | edit (cache : LRUCache)
  | acquire (key : CacheKey)
  | complete (key : CacheKey) (response : Option Message)

section
variable {W : Type} (codec : Codec W)

/-- An exception stays in the request that it is raised in. -/
def act (s : DnsCacheService W) : Act → DnsCacheService W
  | .edit cache => { s with cache }
  | .acquire key => (acquirePending key s).2
  | .complete key response => (completePending codec key response s).2

def acts (s : DnsCacheService W) (l : List Act) : DnsCacheService W := l.foldl (act codec) s

end

/-! ### Storing and finding answers -/

section
variable {W : Type} {codec : Codec W} {now : ℚ} {s s' : DnsCacheService W} {request : Message}
  {key : CacheKey} {answer cached stored : Answer}

/-- The response of a clone: decoded again, and aged if there is a TTL to age it to. -/
def restored (remainingTtl : Option Nat) (m : Message) : Message :=
  match remainingTtl with
  | some ttl => m.merged.aged ttl
  | none => m.merged

theorem cloneAnswer_ok_iff {remainingTtl : Option Nat} :
    cloneAnswer codec now answer remainingTtl = .ok stored ↔
      codec.Encodes answer.response ∧
        ∃ ch, resolveChaining (restored remainingTtl answer.response) = .ok ch ∧
          stored =
            { answer with
              response := restored remainingTtl answer.response
              canonicalName := ch.canonicalName, cnames := ch.cnames, rrset := ch.answer } := by
  unfold cloneAnswer
  cases hw : codec.toWire answer.response with
  | error e => simp [bind,Except.bind,Codec.Encodes,hw]
  | ok w =>
    have hencodes : codec.Encodes answer.response := ⟨w,hw⟩
    simp only [bind,Except.bind,codec.roundTrip _ _ hw,hencodes,true_and]
    change ((mkAnswer now answer.qname answer.rdtype answer.rdclass
      (restored remainingTtl answer.response)).bind fun clonedAnswer =>
        .ok { clonedAnswer with expiration := answer.expiration }) = _ ↔ _
    cases hmk : mkAnswer now answer.qname answer.rdtype answer.rdclass
        (restored remainingTtl answer.response) with
    | error e =>
      have hnone : ∀ ch, resolveChaining (restored remainingTtl answer.response) ≠ .ok ch := by
        intro ch hch
        rw [mkAnswer_ok.mpr ⟨ch,hch,rfl⟩] at hmk
        contradiction
      simp [hnone,Except.bind]
    | ok built =>
      obtain ⟨ch,hch,rfl⟩ := mkAnswer_ok.mp hmk
      simp [hch,Except.bind,eq_comm]

/-- A stored answer can be cloned again, aged to anything. -/
theorem cloneAnswer_again (ttl : Nat) (now' : ℚ)
    (h : cloneAnswer codec now answer none = .ok stored) :
    ∃ a, cloneAnswer codec now' stored (some ttl) = .ok a ∧
      a.response = answer.response.merged.aged ttl := by
  obtain ⟨⟨w,hw⟩,ch,hch,rfl⟩ := cloneAnswer_ok_iff.mp h
  obtain ⟨ch',hch',_⟩ := resolveChaining_aged ttl hch
  have hagain : restored (some ttl) answer.response.merged = answer.response.merged.aged ttl := by
    simp [restored]
  refine ⟨_,cloneAnswer_ok_iff.mpr ⟨codec.again _ _ hw,ch',?_,rfl⟩,hagain⟩
  change resolveChaining (restored (some ttl) answer.response.merged) = .ok ch'
  rw [hagain]
  exact hch'

theorem getForRequest_found {a : Answer}
    (h : getForRequest codec now request s = (.ok (some a),s')) :
    ∃ key cached, makeKeyFromRequest request = .ok key ∧ (s.cache.get now key).1 = some cached ∧
      cloneAnswer codec now cached (some (cached.remainingTtl now)) = .ok a := by
  unfold getForRequest at h
  cases hkey : makeKeyFromRequest request with
  | error e =>
    rw [hkey,Exec.bind_error (Exec.run_ofExcept _ s)] at h
    simp at h
  | ok key =>
    have hrun : updateCache (fun _ => (s.cache.get now key).2) s =
        (.ok (),{ s with cache := (s.cache.get now key).2 }) := rfl
    rw [hkey,Exec.bind_ok (Exec.run_ofExcept _ s),Exec.bind_ok (Exec.run_get s),
      Exec.bind_ok hrun] at h
    cases hget : (s.cache.get now key).1 with
    | none => simp [hget] at h
    | some cached =>
      simp only [hget] at h
      cases hclone : cloneAnswer codec now cached (some (cached.remainingTtl now)) with
      | error e =>
        rw [hclone,Exec.bind_error (Exec.run_ofExcept _ _)] at h
        simp at h
      | ok answer =>
        rw [hclone,Exec.bind_ok (Exec.run_ofExcept _ _)] at h
        cases h
        exact ⟨key,cached,rfl,hget,hclone⟩

theorem getForRequest_hit {a : Answer} (hkey : makeKeyFromRequest request = .ok key)
    (hget : (s.cache.get now key).1 = some cached)
    (hclone : cloneAnswer codec now cached (some (cached.remainingTtl now)) = .ok a) :
    getForRequest codec now request s =
      (.ok (some a),{ s with cache := (s.cache.get now key).2 }) := by
  have hrun : updateCache (fun _ => (s.cache.get now key).2) s =
      (.ok (),{ s with cache := (s.cache.get now key).2 }) := rfl
  unfold getForRequest
  rw [hkey,Exec.bind_ok (Exec.run_ofExcept _ s),Exec.bind_ok (Exec.run_get s),Exec.bind_ok hrun]
  simp only [hget]
  rw [hclone,Exec.bind_ok (Exec.run_ofExcept _ _)]
  rfl

end

/-! ### What becomes of the key and the future of an owner -/

section
variable {W : Type} {codec : Codec W} {now : ℚ} {s s' : DnsCacheService W} {key key' : CacheKey}
  {future future' : Nat} {value : Option (Option W)}

/-- The key is registered for a future that is not done, and no other key is. -/
structure Registered (s : DnsCacheService W) (key : CacheKey) (future : Nat) : Prop where
  pending : s.pendingFuture key = some future
  undone : s.futures[future]? = some none
  alone : ∀ entry ∈ s.pending, entry.2 = future → entry.1 = key

/-- No key is registered for the future, and it stands as it is: nobody will set it any more. -/
structure Settled (s : DnsCacheService W) (future : Nat) (value : Option (Option W)) : Prop where
  free : ∀ entry ∈ s.pending, entry.2 ≠ future
  value : s.futures[future]? = some value

/-- The future is done and its key is free of it. -/
def Served (s : DnsCacheService W) (future : Nat) : Prop :=
  (∀ entry ∈ s.pending, entry.2 ≠ future) ∧ s.isDone future = true

theorem pendingFuture_mem (h : s.pendingFuture key = some future) : (key,future) ∈ s.pending := by
  obtain ⟨entry,hentry,rfl⟩ := Option.map_eq_some_iff.mp h
  obtain ⟨hmem,rfl⟩ := Keyed.lookup_some hentry
  exact hmem

theorem pendingFuture_lt (h : s.pendingFuture key = some future) : future < s.futures.length :=
  s.bounded _ (pendingFuture_mem h)

theorem Settled.lt (h : s.Settled future value) : future < s.futures.length :=
  (List.getElem?_eq_some_iff.mp h.value).1

theorem Settled.served_iff (h : s.Settled future value) : s.Served future ↔ value ≠ none := by
  unfold Served isDone
  rw [h.value]
  cases value with
  | none => simp
  | some wire => simpa using h.free

theorem Registered.not_served (h : s.Registered key future) : ¬ s.Served future :=
  fun hs => hs.1 _ (pendingFuture_mem h.pending) rfl

/-! Registering a key. -/

theorem pendingFuture_create (h : s.pendingFuture key = none) :
    (s.create key).pendingFuture key = some s.futures.length := by
  have hnone : Keyed.lookup Prod.fst key s.pending = none := Option.map_eq_none_iff.mp h
  unfold Keyed.lookup at hnone
  simp [pendingFuture,create,Keyed.lookup,List.find?_append,hnone]

theorem pendingFuture_create_some (h : s.pendingFuture key = some future) (key' : CacheKey) :
    (s.create key').pendingFuture key = some future := by
  obtain ⟨entry,hentry,hfuture⟩ := Option.map_eq_some_iff.mp h
  unfold Keyed.lookup at hentry
  simp [pendingFuture,create,Keyed.lookup,List.find?_append,hentry,hfuture]

theorem create_futures (s : DnsCacheService W) (key : CacheKey) :
    (s.create key).futures[s.futures.length]? = some none := by
  simp [create]

theorem create_future (h : s.futures[future]? = some value) (key : CacheKey) :
    (s.create key).futures[future]? = some value := by
  obtain ⟨hlt,_⟩ := List.getElem?_eq_some_iff.mp h
  exact (List.getElem?_append_left hlt).trans h

theorem create_registered (h : s.pendingFuture key = none) :
    (s.create key).Registered key s.futures.length := by
  refine ⟨pendingFuture_create h,create_futures s key,fun entry hentry hfuture => ?_⟩
  obtain hold | hnew := List.mem_append.mp hentry
  · exact absurd hfuture (s.bounded entry hold).ne
  · rw [List.mem_singleton.mp hnew]

theorem Registered.create (h : s.Registered key future) (key' : CacheKey) :
    (s.create key').Registered key future := by
  refine ⟨pendingFuture_create_some h.pending key',create_future h.undone key',
    fun entry hentry hfuture => ?_⟩
  obtain hold | hnew := List.mem_append.mp hentry
  · exact h.alone entry hold hfuture
  · rw [List.mem_singleton.mp hnew] at hfuture
    exact absurd hfuture (pendingFuture_lt h.pending).ne'

theorem Settled.create (h : s.Settled future value) (key : CacheKey) :
    (s.create key).Settled future value := by
  refine ⟨fun entry hentry => ?_,create_future h.value key⟩
  obtain hold | hnew := List.mem_append.mp hentry
  · exact h.free entry hold
  · rw [List.mem_singleton.mp hnew]
    exact h.lt.ne'

theorem acquirePending_new (h : s.pendingFuture key = none) :
    acquirePending key s = (.ok none,s.create key) := by
  unfold acquirePending
  rw [Exec.bind_ok (Exec.run_get s)]
  simp only [h]
  rfl

theorem acquirePending_pending (h : s.pendingFuture key = some future) :
    acquirePending key s = (.ok (some future),s) := by
  unfold acquirePending
  rw [Exec.bind_ok (Exec.run_get s)]
  simp [h]

/-- Registering a key creates its future, or changes nothing. -/
theorem acquirePending_cases (key : CacheKey) (s : DnsCacheService W) :
    (acquirePending key s).2 = s ∨ (acquirePending key s).2 = s.create key := by
  cases hpending : s.pendingFuture key with
  | none => exact .inr (by rw [acquirePending_new hpending])
  | some future => exact .inl (by rw [acquirePending_pending hpending])

/-! Giving a key up, and setting a future. -/

theorem pendingFuture_pop_other (hne : key ≠ key') (s : DnsCacheService W) :
    (s.pop key').pendingFuture key = s.pendingFuture key := by
  exact congrArg (Option.map Prod.snd) (Keyed.lookup_without hne s.pending)

theorem Registered.pop_other (h : s.Registered key future) (hne : key ≠ key') :
    (s.pop key').Registered key future :=
  ⟨(pendingFuture_pop_other hne s).trans h.pending,h.undone,
    fun entry hentry => h.alone entry (List.mem_of_mem_filter hentry)⟩

theorem Registered.pop (h : s.Registered key future) : (s.pop key).Settled future none := by
  refine ⟨fun entry hentry hfuture => ?_,h.undone⟩
  obtain ⟨hmem,hne⟩ := List.mem_filter.mp hentry
  simp [h.alone entry hmem hfuture] at hne

theorem Settled.pop (h : s.Settled future value) (key : CacheKey) :
    (s.pop key).Settled future value :=
  ⟨fun entry hentry => h.free entry (List.mem_of_mem_filter hentry),h.value⟩

theorem setResult_future (hne : future' ≠ future) (s : DnsCacheService W) (wire : Option W) :
    (s.setResult future' wire).futures[future]? = s.futures[future]? :=
  List.getElem?_set_ne hne

theorem Registered.setResult_other (h : s.Registered key future) (hne : future' ≠ future)
    (wire : Option W) : (s.setResult future' wire).Registered key future :=
  ⟨h.pending,(setResult_future hne s wire).trans h.undone,h.alone⟩

theorem Settled.setResult_other (h : s.Settled future value) (hne : future' ≠ future)
    (wire : Option W) : (s.setResult future' wire).Settled future value :=
  ⟨h.free,(setResult_future hne s wire).trans h.value⟩

theorem Settled.setResult (h : s.Settled future none) (wire : Option W) :
    (s.setResult future wire).Settled future (some wire) := by
  refine ⟨h.free,?_⟩
  change (s.futures.set future (some wire))[future]? = some (some wire)
  simp [h.lt]

/-- Completing a key gives it up and sets its future, if it has one that is not done. -/
theorem completePending_cases (codec : Codec W) (key : CacheKey) (response : Option Message)
    (s : DnsCacheService W) :
    (completePending codec key response s).2 = s.pop key ∨
      ∃ future wire, s.pendingFuture key = some future ∧
        (completePending codec key response s).2 = (s.pop key).setResult future wire := by
  unfold completePending
  rw [Exec.bind_ok (Exec.run_get s),Exec.bind_ok (Exec.run_modify _ s)]
  cases s.pendingFuture key with
  | none => exact .inl rfl
  | some future =>
    simp only
    split
    · exact .inl rfl
    · cases hwire : sharedWire codec response with
      | error e => exact .inl (by rw [Exec.bind_error (Exec.run_ofExcept _ _)])
      | ok wire => exact .inr ⟨future,wire,rfl,by rw [Exec.bind_ok (Exec.run_ofExcept _ _)]; rfl⟩

/-- Completing another key leaves this one registered. -/
theorem completePending_other (codec : Codec W) (response : Option Message)
    (h : s.Registered key future) (hne : key ≠ key') :
    (completePending codec key' response s).2.Registered key future := by
  obtain hpop | ⟨future',wire,hpending,hset⟩ := completePending_cases codec key' response s
  · rw [hpop]
    exact h.pop_other hne
  · have hother : future' ≠ future := by
      intro heq
      exact hne (h.alone _ (pendingFuture_mem hpending) heq).symm
    rw [hset]
    exact (h.pop_other hne).setResult_other hother wire

/-- Completing any key leaves a future alone that no key is registered for. -/
theorem completePending_settled (codec : Codec W) (key : CacheKey) (response : Option Message) :
    Exec.Keeps (fun s => s.Settled future value) (completePending codec key response) := by
  refine Exec.Keeps.of_run fun s h => ?_
  obtain hpop | ⟨future',wire,hpending,hset⟩ := completePending_cases codec key response s
  · rw [hpop]
    exact h.pop key
  · rw [hset]
    exact (h.pop key).setResult_other (h.free _ (pendingFuture_mem hpending)) wire

theorem sharedWire_some_iff {result : Option Message} {wire : W} :
    sharedWire codec result = .ok (some wire) ↔
      ∃ m, result = some m ∧ codec.toWire m = .ok wire := by
  cases result with
  | none => simp [sharedWire,pure,Except.pure]
  | some m =>
    cases hw : codec.toWire m with
    | error e => simp [sharedWire,hw,bind,Except.bind]
    | ok w => simp [sharedWire,hw,bind,Except.bind,pure,Except.pure]

theorem sharedWire_response {m : Message} {wire : Option W}
    (h : sharedWire codec (some m) = .ok wire) : ∃ w, wire = some w ∧ codec.toWire m = .ok w := by
  obtain ⟨w,hw,h⟩ := Exec.except_bind_eq_ok.mp h
  cases h
  exact ⟨w,rfl,hw⟩

theorem sharedWire_encodes {m : Message} :
    (∃ wire, sharedWire codec (some m) = .ok wire) ↔ codec.Encodes m := by
  constructor
  · intro h
    obtain ⟨wire,hwire⟩ := h
    obtain ⟨w,_,hw⟩ := sharedWire_response hwire
    exact ⟨w,hw⟩
  · intro h
    obtain ⟨w,hw⟩ := h
    exact ⟨some w,sharedWire_some_iff.mpr ⟨m,rfl,hw⟩⟩

theorem completePending_registered {response : Option Message} (h : s.Registered key future) :
    completePending codec key response s =
      (do
        let wire ← Exec.ofExcept (sharedWire codec response)
        Exec.modify fun s => s.setResult future wire : Exec PyException (DnsCacheService W) Unit)
        (s.pop key) := by
  have hundone : s.isDone future = false := by simp [isDone,h.undone]
  unfold completePending
  rw [Exec.bind_ok (Exec.run_get s),Exec.bind_ok (Exec.run_modify _ s)]
  simp [h.pending,hundone]

/-- Completing with a response that can be encoded, or with none, sets the future to it. -/
theorem completePending_settles {response : Option Message} {wire : Option W}
    (h : s.Registered key future) (hwire : sharedWire codec response = .ok wire) :
    (completePending codec key response s).2.Settled future (some wire) := by
  rw [completePending_registered h,hwire]
  exact h.pop.setResult wire

/-- Otherwise the key is given up and the future is not. -/
theorem completePending_abandoned {response : Option Message} (h : s.Registered key future)
    (hwire : ¬ ∃ wire, sharedWire codec response = .ok wire) :
    (completePending codec key response s).2.Settled future none := by
  rw [completePending_registered h]
  cases hshared : sharedWire codec response with
  | ok wire => exact absurd ⟨wire,hshared⟩ hwire
  | error e =>
    rw [Exec.bind_error (Exec.run_ofExcept _ _)]
    exact h.pop

/-- Caching an answer leaves keys and futures alone. -/
theorem putAnswer_run (codec : Codec W) (now : ℚ) (a : Answer) (s : DnsCacheService W) :
    (∃ stored, cloneAnswer codec now a none = .ok stored ∧
      putAnswer codec now a s =
        (.ok (),{ s with cache := s.cache.put (makeKeyFromAnswer a) stored })) ∨
    (∃ e, cloneAnswer codec now a none = .error e ∧ putAnswer codec now a s = (.error e,s)) := by
  unfold putAnswer
  cases hclone : cloneAnswer codec now a none with
  | error e => exact .inr ⟨e,rfl,Exec.bind_error (Exec.run_ofExcept _ s)⟩
  | ok stored => exact .inl ⟨stored,rfl,Exec.bind_ok (Exec.run_ofExcept _ s)⟩

theorem Registered.withCache (h : s.Registered key future) (cache : LRUCache) :
    { s with cache }.Registered key future := ⟨h.pending,h.undone,h.alone⟩

theorem Settled.withCache (h : s.Settled future value) (cache : LRUCache) :
    { s with cache }.Settled future value := ⟨h.free,h.value⟩

theorem putAnswer_settled (codec : Codec W) (now : ℚ) (a : Answer) :
    Exec.Keeps (fun s => s.Settled future value) (putAnswer codec now a) := by
  refine Exec.Keeps.of_run fun s h => ?_
  obtain ⟨stored,-,hrun⟩ | ⟨e,-,hrun⟩ := putAnswer_run codec now a s
  · rw [hrun]
    exact h.withCache _
  · rw [hrun]
    exact h

/-! What other requests leave of it. -/

theorem act_settled (codec : Codec W) (h : s.Settled future value) (a : Act) :
    (s.act codec a).Settled future value := by
  cases a with
  | edit cache => exact h.withCache cache
  | complete key response => exact (completePending_settled codec key response).run h
  | acquire key =>
    change ((acquirePending key s).2).Settled future value
    obtain hsame | hnew := acquirePending_cases key s
    · rw [hsame]
      exact h
    · rw [hnew]
      exact h.create key

theorem act_registered (codec : Codec W) (h : s.Registered key future) {a : Act}
    (ha : ∀ response, a ≠ .complete key response) : (s.act codec a).Registered key future := by
  cases a with
  | edit cache => exact h.withCache cache
  | complete key' response =>
    exact completePending_other codec response h fun heq => ha response (by rw [heq])
  | acquire key' =>
    change ((acquirePending key' s).2).Registered key future
    obtain hsame | hnew := acquirePending_cases key' s
    · rw [hsame]
      exact h
    · rw [hnew]
      exact h.create key'

end

end DnsCacheService

end SmartDns
