import SmartDns.Cache.Sharing
set_option autoImplicit false

/-!
Ownership of a key along a request: `on_request` makes an owner or not, and from then on
the calls of the cache plugin's hooks and the acts of other requests between them tell what
becomes of the key. The first of them that touches it decides.
-/

namespace SmartDns

open CachePlugin (ownerContext)
open DnsCacheService (Act)

variable {E S W : Type}

/-! ### The calls of the cache plugin -/

abbrev CacheCall (E : Type) := HookKind × RequestContext (CacheExtensions E)

def Event.cacheCall? : Event (CacheExtensions E) → Option (CacheCall E)
  | .called kind plugin context => if plugin = cachePluginName then some (kind,context) else none
  | .dispatched _ _ => none

/-- The hooks of the cache plugin called, with the contexts they were called on. -/
def cacheCalls (log : List (Event (CacheExtensions E))) : List (CacheCall E) :=
  log.filterMap Event.cacheCall?

/-- What the service goes through along a request. -/
inductive Move (E : Type) where
  | own (call : CacheCall E)
  | other (act : Act)

namespace Meanwhile

def before (meanwhile : Meanwhile W) : HookKind → List Act
  | .response => meanwhile.beforeResponse
  | .finish => meanwhile.beforeFinish
  | _ => []

def after (meanwhile : Meanwhile W) : HookKind → List Act
  | .finish => meanwhile.afterFinish
  | _ => []

/-- A call with the acts of the others around it. -/
def around (meanwhile : Meanwhile W) (call : CacheCall E) : List (Move E) :=
  (meanwhile.before call.1).map .other ++ .own call :: (meanwhile.after call.1).map .other

def moves (meanwhile : Meanwhile W) (calls : List (CacheCall E)) : List (Move E) :=
  calls.flatMap meanwhile.around

end Meanwhile

/-! ### The move that decides -/

section
variable (codec : Codec W) (now : ℚ) (key : CacheKey)

/-- What a move sets the future of a registered key to. -/
def HandsOver : Move E → Option Message → Prop
  | .own (.response,c), result => ReleasesWith codec now c result
  | .own (.finish,c), result => SharesWith codec now c result
  | .other (.complete key' response), result => key' = key ∧ result = response ∧
      ∃ wire, DnsCacheService.sharedWire codec response = .ok wire
  | _, _ => False

/-- A move that gives the key up and does not set its future. -/
def Abandons : Move E → Prop
  | .own (.response,c) => Loses codec c
  | .own (.finish,c) => Unencodable codec c
  | .other (.complete key' response) => key' = key ∧
      ¬ ∃ wire, DnsCacheService.sharedWire codec response = .ok wire
  | _ => False

def Serves (move : Move E) : Prop := ∃ result, HandsOver codec now key move result

def Touches (move : Move E) : Prop := Serves codec now key move ∨ Abandons codec key move

def Untouched (moves : List (Move E)) : Prop := ∀ move ∈ moves, ¬ Touches codec now key move

/-- The first of the moves that touches the key. -/
def DecidedBy : List (Move E) → Move E → Prop
  | [], _ => False
  | first :: moves, move => Touches codec now key first ∧ first = move ∨
      ¬ Touches codec now key first ∧ DecidedBy moves move

/-- The move that decides serves the owner. -/
def ServedBy (moves : List (Move E)) : Prop :=
  ∃ move, DecidedBy codec now key moves move ∧ Serves codec now key move

/-- What the move that decides sets the future to. -/
def HandedBy (moves : List (Move E)) (result : Option Message) : Prop :=
  ∃ move, DecidedBy codec now key moves move ∧ HandsOver codec now key move result

variable {codec now key} {move move' : Move E} {moves : List (Move E)}
  {result result' : Option Message}

theorem DecidedBy.unique (h : DecidedBy codec now key moves move)
    (h' : DecidedBy codec now key moves move') : move = move' := by
  induction moves with
  | nil => exact h.elim
  | cons first moves ih =>
    obtain ⟨htouches,rfl⟩ | ⟨hnot,h⟩ := h
    · obtain ⟨_,heq⟩ | ⟨hnot,_⟩ := h'
      · exact heq
      · exact absurd htouches hnot
    · obtain ⟨htouches,_⟩ | ⟨_,h'⟩ := h'
      · exact absurd htouches hnot
      · exact ih h h'

theorem DecidedBy.mem (h : DecidedBy codec now key moves move) : move ∈ moves := by
  induction moves with
  | nil => exact h.elim
  | cons first moves ih =>
    obtain ⟨_,rfl⟩ | ⟨_,h⟩ := h
    · exact List.mem_cons_self
    · exact List.mem_cons_of_mem _ (ih h)

theorem DecidedBy.append (h : DecidedBy codec now key moves move) (more : List (Move E)) :
    DecidedBy codec now key (moves ++ more) move := by
  induction moves with
  | nil => exact h.elim
  | cons first moves ih =>
    obtain h | ⟨hnot,h⟩ := h
    · exact .inl h
    · exact .inr ⟨hnot,ih h⟩

theorem Untouched.decides (h : Untouched codec now key moves) (hmove : Touches codec now key move) :
    DecidedBy codec now key (moves ++ [move]) move := by
  induction moves with
  | nil => exact .inl ⟨hmove,rfl⟩
  | cons first moves ih =>
    exact .inr ⟨h first List.mem_cons_self,ih fun m hm => h m (List.mem_cons_of_mem _ hm)⟩

theorem Untouched.not_decided (h : Untouched codec now key moves) :
    ¬ DecidedBy codec now key moves move := by
  induction moves with
  | nil => exact id
  | cons first moves ih =>
    intro hdecided
    obtain ⟨htouches,_⟩ | ⟨_,hdecided⟩ := hdecided
    · exact h first List.mem_cons_self htouches
    · exact ih (fun m hm => h m (List.mem_cons_of_mem _ hm)) hdecided

theorem Untouched.append (h : Untouched codec now key moves)
    (hmove : ¬ Touches codec now key move) : Untouched codec now key (moves ++ [move]) := by
  intro m hm
  rw [List.mem_append,List.mem_singleton] at hm
  obtain hm | rfl := hm
  · exact h m hm
  · exact hmove

theorem HandedBy.servedBy (h : HandedBy codec now key moves result) :
    ServedBy codec now key moves := by
  obtain ⟨move,hdecided,hresult⟩ := h
  exact ⟨move,hdecided,result,hresult⟩

theorem SharesWith.unique {c : RequestContext E} (h : SharesWith codec now c result)
    (h' : SharesWith codec now c result') : result = result' := by
  obtain ⟨m,rfl,hm,_⟩ := h
  obtain ⟨m',rfl,hm',_⟩ := h'
  rw [hm.unique hm']

theorem ReleasesWith.unique {c : RequestContext E} (h : ReleasesWith codec now c result)
    (h' : ReleasesWith codec now c result') : result = result' := by
  obtain ⟨_,h⟩ := h
  obtain ⟨_,h'⟩ := h'
  cases result with
  | none =>
    cases result' with
    | none => rfl
    | some m => exact absurd h h'.1.not_cacheable
  | some m =>
    cases result' with
    | none => exact absurd h' h.1.not_cacheable
    | some m' => rw [h.2.1.unique h'.2.1]

theorem HandsOver.unique (h : HandsOver codec now key move result)
    (h' : HandsOver codec now key move result') : result = result' := by
  cases move with
  | own call =>
    obtain ⟨kind,c⟩ := call
    cases kind with
    | response => exact ReleasesWith.unique h h'
    | finish => exact SharesWith.unique h h'
    | request => exact h.elim
    | observe => exact h.elim
  | other act =>
    cases act with
    | complete key' response => exact h.2.1.trans h'.2.1.symm
    | edit cache => exact h.elim
    | acquire key' => exact h.elim

theorem HandedBy.unique (h : HandedBy codec now key moves result)
    (h' : HandedBy codec now key moves result') : result = result' := by
  obtain ⟨move,hdecided,hresult⟩ := h
  obtain ⟨move',hdecided',hresult'⟩ := h'
  rw [hdecided'.unique hdecided] at hresult'
  exact hresult.unique hresult'

end

/-! ### What has become of an owner's key -/

section
variable {codec : Codec W} {now : ℚ}

/-- Where an owner's future has come from: as long as its key is registered nothing has touched
it, and afterwards it stands as the move that decided has left it. -/
inductive Accounted (codec : Codec W) (now : ℚ) (x : CachePluginContext) (s : DnsCacheService W)
    (moves : List (Move E)) : Prop where
  | outsider (hx : x.pendingOwner = false)
  | held (key : CacheKey) (future : Nat) (hx : x = ownerContext key future)
      (hmoves : Untouched codec now key moves) (hs : s.Registered key future)
  | given (key : CacheKey) (future : Nat) (result : Option Message) (wire : Option W)
      (hx : x = ownerContext key future) (hmoves : HandedBy codec now key moves result)
      (hwire : DnsCacheService.sharedWire codec result = .ok wire)
      (hs : s.Settled future (some wire))
  | abandoned (key : CacheKey) (future : Nat) (hx : x = ownerContext key future)
      (hmoves : ∃ move, DecidedBy codec now key moves move ∧ ¬ Serves codec now key move)
      (hs : s.Settled future none)

variable {x : CachePluginContext} {s s' : DnsCacheService W} {moves : List (Move E)}
  {key : CacheKey} {future : Nat}

/-- A move that does to a registered key what it says, and nothing to one that is given up. -/
theorem Accounted.step (h : Accounted codec now x s moves) {move : Move E}
    (hheld : ∀ key future, x = ownerContext key future → s.Registered key future →
      Settles codec key future (HandsOver codec now key move) (Abandons codec key move) s')
    (hrest : ∀ future value, s.Settled future value → s'.Settled future value) :
    Accounted codec now x s' (moves ++ [move]) := by
  cases h with
  | outsider hx => exact .outsider hx
  | held key future hx hmoves hs =>
    cases hheld key future hx hs with
    | given result wire h hwire hs' =>
      exact .given key future result wire hx ⟨move,hmoves.decides (.inl ⟨result,h⟩),h⟩ hwire hs'
    | abandoned hnot h hs' =>
      exact .abandoned key future hx ⟨move,hmoves.decides (.inr h),fun hserves =>
        hserves.elim hnot⟩ hs'
    | left hnot habandons hs' =>
      exact .held key future hx (hmoves.append fun htouches =>
        htouches.elim (fun hserves => hserves.elim hnot) habandons) hs'
  | given key future result wire hx hmoves hwire hs =>
    obtain ⟨first,hdecided,hresult⟩ := hmoves
    exact .given key future result wire hx ⟨first,hdecided.append _,hresult⟩ hwire
      (hrest future _ hs)
  | abandoned key future hx hmoves hs =>
    obtain ⟨first,hdecided,hnot⟩ := hmoves
    exact .abandoned key future hx ⟨first,hdecided.append _,hnot⟩ (hrest future _ hs)

/-- What another request's act does to a registered key. -/
theorem act_settles (codec : Codec W) (now : ℚ) (h : s.Registered key future) (act : Act) :
    Settles codec key future (HandsOver codec now key (.other act : Move E))
      (Abandons codec key (.other act : Move E)) (s.act codec act) := by
  have hleft (hact : ∀ response, act ≠ .complete key response) :
      Settles codec key future (HandsOver codec now key (.other act : Move E))
        (Abandons codec key (.other act : Move E)) (s.act codec act) := by
    refine .left (fun result hresult => ?_) (fun habandons => ?_)
      (DnsCacheService.act_registered codec h hact)
    · cases act with
      | complete key' response => exact hact response (by rw [hresult.1])
      | edit cache => exact hresult
      | acquire key' => exact hresult
    · cases act with
      | complete key' response => exact hact response (by rw [habandons.1])
      | edit cache => exact habandons
      | acquire key' => exact habandons
  cases act with
  | edit cache => exact hleft nofun
  | acquire key' => exact hleft nofun
  | complete key' response =>
    by_cases hkey : key' = key
    · subst hkey
      by_cases hwire : ∃ wire, DnsCacheService.sharedWire codec response = .ok wire
      · obtain ⟨wire,hshared⟩ := hwire
        exact .given response wire ⟨rfl,rfl,wire,hshared⟩ hshared
          (DnsCacheService.completePending_settles h hshared)
      · refine .abandoned (fun _ hresult => hwire hresult.2.2) ⟨rfl,hwire⟩ ?_
        exact DnsCacheService.completePending_abandoned h hwire
    · refine hleft fun response' heq => hkey ?_
      cases heq
      rfl

theorem Accounted.acts (h : Accounted codec now x s moves) (l : List Act) :
    Accounted codec now x (s.acts codec l) (moves ++ l.map .other) := by
  induction l generalizing s moves with
  | nil =>
    rw [List.map_nil,List.append_nil]
    exact h
  | cons act l ih =>
    have hnext := ih (h.step (fun _ _ _ hs => act_settles codec now hs act)
      fun _ _ hs => DnsCacheService.act_settled codec hs act)
    rw [List.append_assoc] at hnext
    exact hnext

end

/-! ### What `on_request` decides -/

section
variable {codec : Codec W} {now : ℚ} {key : CacheKey}

/-- The request is no owner, or it has just registered its key. -/
def Decided (p : RequestContext (CacheExtensions E) × CacheServices W S) : Prop :=
  p.1.extensions.cache.pendingOwner = false ∨
    ∃ key future, p.1.extensions.cache = ownerContext key future ∧ p.2.cache.Registered key future

/-- The context of a request that looks for its key. -/
def Looking (key : CacheKey) (p : RequestContext (CacheExtensions E) × CacheServices W S) : Prop :=
  p.1.extensions.cache = { key := some key }

theorem Looking.decided {p : RequestContext (CacheExtensions E) × CacheServices W S}
    (h : Looking key p) : Decided p := .inl (by rw [h])

abbrev Outside (p : RequestContext (CacheExtensions E) × CacheServices W S) : Prop :=
  p.1.extensions.cache.pendingOwner = false

theorem reuse_outside (wire : W) :
    Exec.Keeps Outside (CachePlugin.reuse codec now wire : CacheExec E S W Unit) := by
  refine Exec.Keeps.get.bind fun p => ?_
  refine (Exec.Keeps.ofExcept _).bind fun _ => (Exec.Keeps.ofExcept _).bind fun _ => ?_
  refine (Exec.Keeps.of_run fun _ h => h).bind fun _ => ?_
  refine (Exec.Keeps.of_run fun _ h => h).bind fun _ => ?_
  exact (Exec.Keeps.ofExcept _).bind fun _ => Exec.Keeps.of_run fun _ h => h

/-! The four ways a turn of the loop can go. -/

section
variable {follow : Nat → CacheExec E S W Unit} {s : DnsCacheService W}
  {p : RequestContext (CacheExtensions E) × CacheServices W S}

theorem lookUp_error {e : PyException}
    (h : DnsCacheService.getForRequest codec now p.1.request p.2.cache = (.error e,s)) :
    CachePlugin.lookUp codec now key follow p = (.error e,(p.1,{ p.2 with cache := s })) := by
  unfold CachePlugin.lookUp
  rw [Exec.bind_ok (Exec.run_get p)]
  exact Exec.bind_error (onService_run h)

theorem lookUp_hit (key : CacheKey) (follow : Nat → CacheExec E S W Unit) {answer : Answer}
    (h : DnsCacheService.getForRequest codec now p.1.request p.2.cache = (.ok (some answer),s)) :
    ∃ p', CachePlugin.lookUp codec now key follow p = (.ok (),p') ∧
      p'.1.finalAnswer = some answer ∧
      p'.1.extensions.cache = { p.1.extensions.cache with hit := true } := by
  rcases hrun : CachePlugin.lookUp codec now key follow p with ⟨r,p'⟩
  unfold CachePlugin.lookUp at hrun
  rw [Exec.bind_ok (Exec.run_get p),Exec.bind_ok (onService_run h)] at hrun
  cases hrun
  exact ⟨_,rfl,rfl,rfl⟩

theorem lookUp_owner (follow : Nat → CacheExec E S W Unit)
    (h : DnsCacheService.getForRequest codec now p.1.request p.2.cache = (.ok none,s))
    (hpending : s.pendingFuture key = none) :
    ∃ p', CachePlugin.lookUp codec now key follow p = (.ok (),p') ∧
      p'.2.cache = s.create key ∧
      p'.1.extensions.cache =
        { p.1.extensions.cache with pendingOwner := true, future := some s.futures.length } := by
  rcases hrun : CachePlugin.lookUp codec now key follow p with ⟨r,p'⟩
  unfold CachePlugin.lookUp at hrun
  rw [Exec.bind_ok (Exec.run_get p),Exec.bind_ok (onService_run h)] at hrun
  simp only [Exec.bind_ok (Exec.run_get _)] at hrun
  rw [Exec.bind_ok (onService_run (DnsCacheService.acquirePending_new hpending))] at hrun
  cases hrun
  exact ⟨_,rfl,rfl,rfl⟩

theorem lookUp_follow {future : Nat}
    (h : DnsCacheService.getForRequest codec now p.1.request p.2.cache = (.ok none,s))
    (hpending : s.pendingFuture key = some future) :
    CachePlugin.lookUp codec now key follow p = follow future (p.1,{ p.2 with cache := s }) := by
  unfold CachePlugin.lookUp
  rw [Exec.bind_ok (Exec.run_get p),Exec.bind_ok (onService_run h)]
  simp only [Exec.bind_ok (Exec.run_get _)]
  exact Exec.bind_ok (onService_run (DnsCacheService.acquirePending_pending hpending))

end

/-- A turn of the loop makes an owner only by registering the key. -/
theorem lookUp_decides {follow : Nat → CacheExec E S W Unit}
    (hfollow : ∀ future, Exec.Triple (Looking key) (follow future) (fun _ => Decided)
      (fun _ => Decided)) :
    Exec.Triple (Looking key) (CachePlugin.lookUp codec now key follow) (fun _ => Decided)
      (fun _ => Decided) := by
  intro p hp
  rcases hget : DnsCacheService.getForRequest codec now p.1.request p.2.cache with ⟨e | cached,s⟩
  · rw [lookUp_error hget]
    exact Looking.decided hp
  · cases cached with
    | some answer =>
      obtain ⟨p',hrun,_,hcache⟩ := lookUp_hit key follow hget
      rw [hrun]
      exact .inl (by rw [hcache,hp])
    | none =>
      cases hpending : s.pendingFuture key with
      | some future =>
        rw [lookUp_follow hget hpending]
        exact hfollow future _ hp
      | none =>
        obtain ⟨p',hrun,hservice,hcache⟩ := lookUp_owner follow hget hpending
        rw [hrun]
        refine .inr ⟨key,s.futures.length,?_,?_⟩
        · rw [hcache,hp]
          rfl
        · rw [hservice]
          exact DnsCacheService.create_registered hpending

theorem lookUpLoop_decides (wakes : List (DnsCacheService W)) :
    Exec.Triple (Looking key) (CachePlugin.lookUpLoop codec now key wakes : CacheExec E S W Unit)
      (fun _ => Decided) (fun _ => Decided) := by
  induction wakes with
  | nil => exact lookUp_decides fun _ => Exec.Triple.raise fun _ h => h.decided
  | cons wake wakes ih =>
    refine lookUp_decides fun future => ?_
    have hwake : Exec.Triple (Looking key)
        (onService (Exec.modify fun _ => wake) : CacheExec E S W Unit) (fun _ => Looking key)
        (fun _ => Decided) := fun _ h => h
    refine hwake.bind fun _ => ?_
    split
    · exact ih
    · exact (reuse_outside _).conseq (fun _ h => congrArg CachePluginContext.pendingOwner h)
        (fun _ _ => .inl) (fun _ _ => .inl)
    · exact Exec.Triple.raise fun _ h => h.decided

theorem onRequest_decides (wakes : List (DnsCacheService W)) :
    Exec.Triple (fun p => p.1.extensions.cache = {})
      (CachePlugin.onRequest codec now wakes : CacheExec E S W Unit) (fun _ => Decided)
      (fun _ => Decided) := by
  intro p hp
  unfold CachePlugin.onRequest
  rw [Exec.bind_ok (Exec.run_get p)]
  cases hkey : DnsCacheService.makeKeyFromRequest p.1.request with
  | error e =>
    rw [Exec.bind_error (Exec.run_ofExcept _ p)]
    exact .inl (congrArg CachePluginContext.pendingOwner hp)
  | ok key =>
    rw [Exec.bind_ok (Exec.run_ofExcept _ p)]
    have hlooking : { p.1.extensions.cache with key := some key } =
        ({ key := some key } : CachePluginContext) := by rw [hp]
    exact lookUpLoop_decides wakes _ hlooking

end

end SmartDns
