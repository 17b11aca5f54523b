import SmartDns.Dns.Cache
import SmartDns.Pipeline.Context
set_option autoImplicit false

/-!
`FrontCache`: answers the master keeps itself, and for every key that is being asked
for the entry followers wait on. An entry is named by the call that created it; its
event and holder are kept with that call.
-/

namespace SmartDns

structure FrontCache where
  cache : LRUCache
  pending : List (CacheKey × Nat)
  distinct : Keyed.Distinct Prod.fst pending

namespace FrontCache

def new (maxSize : Nat) : FrontCache := ⟨LRUCache.empty maxSize,[],List.nodup_nil⟩

/-- `_make_key_from_request`. -/
def makeKeyFromRequest (request : Message) : Option CacheKey :=
  match request.question with
  | [question] =>
    if request.opcode = Opcode.QUERY ∧ question.rdclass = RdataClass.IN then some question.key
    else none
  | _ => none

section
variable {W : Type} (codec : Codec W) (now : ℚ)

/-- `_clone_response`: the reply for another request, with what is left of the TTL. -/
def cloneResponse (answer : Answer) (request : Message) : Except PyException Message := do
  let cloned ← cloneResponseForRequest codec answer.response request
  pure (cloned.aged (answer.remainingTtl now))

def updateCache (f : LRUCache → LRUCache) : Exec PyException FrontCache Unit :=
  Exec.modify fun c => { c with cache := f c.cache }

def getResponse (request : Message) : Exec PyException FrontCache (Option Message) :=
  match makeKeyFromRequest request with
  | none => pure none
  | some key => do
    let found := (← Exec.get).cache.get now key
    updateCache fun _ => found.2
    match found.1 with
    | none => pure none
    | some answer => do
      let response ← Exec.ofExcept (cloneResponse codec now answer request)
      pure (some response)

def putResponse (request : Message) (response : Option Message) :
    Exec PyException FrontCache Bool :=
  match response, makeKeyFromRequest request with
  | some response, some key =>
    if response.rcode ≠ Rcode.NOERROR then pure false
    else do
      let answer ← Exec.ofExcept (buildAnswerFromResponse codec now request response)
      match answer.rrset with
      | none => pure false
      | some _ => do
        updateCache fun cache => cache.put key answer
        pure true
  | _, _ => pure false

theorem updateCache_pending (f : LRUCache → LRUCache) (pending : List (CacheKey × Nat)) :
    Exec.Keeps (fun c : FrontCache => c.pending = pending) (updateCache f) :=
  Exec.Keeps.modify fun _ h => h

/-- Neither reading nor writing answers touches the pending entries. -/
theorem getResponse_pending (request : Message) (pending : List (CacheKey × Nat)) :
    Exec.Keeps (fun c : FrontCache => c.pending = pending) (getResponse codec now request) := by
  unfold getResponse
  split
  · exact Exec.Keeps.pure none
  · refine Exec.Keeps.get.bind fun c => ?_
    refine (updateCache_pending _ pending).bind fun _ => ?_
    split
    · exact Exec.Keeps.pure none
    · exact (Exec.Keeps.ofExcept _).bind fun _ => Exec.Keeps.pure _

theorem putResponse_pending (request : Message) (response : Option Message)
    (pending : List (CacheKey × Nat)) :
    Exec.Keeps (fun c : FrontCache => c.pending = pending)
      (putResponse codec now request response) := by
  unfold putResponse
  split
  · split
    · exact Exec.Keeps.pure false
    · refine (Exec.Keeps.ofExcept _).bind fun answer => ?_
      split
      · exact Exec.Keeps.pure false
      · exact (updateCache_pending _ pending).bind fun _ => Exec.Keeps.pure true
  · exact Exec.Keeps.pure false

section
variable {codec : Codec W} {now : ℚ} {request response : Message} {c c' : FrontCache}
  {key : CacheKey} {answer : Answer}

/-- What `put_response` stores, and of which responses. -/
theorem putResponse_stored (h : putResponse codec now request (some response) c = (.ok true,c')) :
    response.rcode = Rcode.NOERROR ∧
      ∃ key answer, makeKeyFromRequest request = some key ∧
        buildAnswerFromResponse codec now request response = .ok answer ∧
        answer.rrset.isSome = true ∧ c' = { c with cache := c.cache.put key answer } := by
  unfold putResponse at h
  cases hkey : makeKeyFromRequest request with
  | none => simp [hkey] at h
  | some key =>
    simp only [hkey] at h
    split at h
    · simp at h
    · rename_i hcode
      cases hbuild : buildAnswerFromResponse codec now request response with
      | error e =>
        rw [hbuild,Exec.bind_error (Exec.run_ofExcept _ c)] at h
        simp at h
      | ok answer =>
        rw [hbuild,Exec.bind_ok (Exec.run_ofExcept _ c)] at h
        cases hrrset : answer.rrset with
        | none => simp [hrrset] at h
        | some rrset =>
          simp only [hrrset] at h
          have hrun : updateCache (fun cache => cache.put key answer) c =
              (.ok (),{ c with cache := c.cache.put key answer }) := rfl
          rw [Exec.bind_ok hrun] at h
          cases h
          exact ⟨not_not.mp hcode,key,answer,rfl,rfl,by simp [hrrset],rfl⟩

theorem getResponse_found {served : Message}
    (h : getResponse codec now request c = (.ok (some served),c')) :
    ∃ key answer, makeKeyFromRequest request = some key ∧
      (c.cache.get now key).1 = some answer ∧
        cloneResponse codec now answer request = .ok served := by
  unfold getResponse at h
  cases hkey : makeKeyFromRequest request with
  | none => simp [hkey] at h
  | some key =>
    have hrun : updateCache (fun _ => (c.cache.get now key).2) c =
        (.ok (),{ c with cache := (c.cache.get now key).2 }) := rfl
    simp only [hkey] at h
    rw [Exec.bind_ok (Exec.run_get c),Exec.bind_ok hrun] at h
    cases hget : (c.cache.get now key).1 with
    | none => simp [hget] at h
    | some answer =>
      simp only [hget] at h
      cases hclone : cloneResponse codec now answer request with
      | error e =>
        rw [hclone,Exec.bind_error (Exec.run_ofExcept _ _)] at h
        simp at h
      | ok response =>
        rw [hclone,Exec.bind_ok (Exec.run_ofExcept _ _)] at h
        cases h
        exact ⟨key,answer,rfl,hget,hclone⟩

theorem getResponse_hit {served : Message} (hkey : makeKeyFromRequest request = some key)
    (hget : (c.cache.get now key).1 = some answer)
    (hclone : cloneResponse codec now answer request = .ok served) :
    getResponse codec now request c =
      (.ok (some served),{ c with cache := (c.cache.get now key).2 }) := by
  have hrun : updateCache (fun _ => (c.cache.get now key).2) c =
      (.ok (),{ c with cache := (c.cache.get now key).2 }) := rfl
  unfold getResponse
  simp only [hkey]
  rw [Exec.bind_ok (Exec.run_get c),Exec.bind_ok hrun]
  simp only [hget]
  rw [hclone,Exec.bind_ok (Exec.run_ofExcept _ _)]
  rfl

end

end

section
variable {W : Type} (codec : Codec W) (now : ℚ)

/-- Nothing that was not stored before. -/
abbrev Within (data : List (CacheKey × Answer)) (c : FrontCache) : Prop :=
  ∀ entry ∈ c.cache.data, entry ∈ data

theorem getResponse_within (request : Message) (data : List (CacheKey × Answer)) :
    Exec.Keeps (Within data) (getResponse codec now request) := by
  refine Exec.Keeps.of_run fun c hc => ?_
  unfold getResponse
  cases makeKeyFromRequest request with
  | none => exact hc
  | some key =>
    have hrun : updateCache (fun _ => (c.cache.get now key).2) c =
        (.ok (),{ c with cache := (c.cache.get now key).2 }) := rfl
    have hget : Within data { c with cache := (c.cache.get now key).2 } :=
      fun entry hentry => hc entry (LRUCache.mem_get hentry)
    simp only
    rw [Exec.bind_ok (Exec.run_get c),Exec.bind_ok hrun]
    cases (c.cache.get now key).1 with
    | none => exact hget
    | some answer =>
      cases hclone : cloneResponse codec now answer request with
      | error e =>
        simp only [hclone]
        rw [Exec.bind_error (Exec.run_ofExcept _ _)]
        exact hget
      | ok response =>
        simp only [hclone]
        rw [Exec.bind_ok (Exec.run_ofExcept _ _)]
        exact hget

/-- A response that is not stored leaves the answers alone. -/
theorem putResponse_cases (request : Message) (response : Option Message) (c : FrontCache) :
    (∃ key answer, makeKeyFromRequest request = some key ∧
      putResponse codec now request response c =
        (.ok true,{ c with cache := c.cache.put key answer })) ∨
    ∃ r, putResponse codec now request response c = (r,c) ∧ r ≠ .ok true := by
  unfold putResponse
  cases response with
  | none => exact .inr ⟨.ok false,rfl,by simp⟩
  | some response =>
    cases hkey : makeKeyFromRequest request with
    | none => exact .inr ⟨.ok false,rfl,by simp⟩
    | some key =>
      simp only
      split
      · exact .inr ⟨.ok false,rfl,by simp⟩
      · cases hbuild : buildAnswerFromResponse codec now request response with
        | error e => exact .inr ⟨.error e,Exec.bind_error (Exec.run_ofExcept _ _),by simp⟩
        | ok answer =>
          rw [Exec.bind_ok (Exec.run_ofExcept _ _)]
          cases answer.rrset with
          | none => exact .inr ⟨.ok false,rfl,by simp⟩
          | some rrset => exact .inl ⟨key,answer,rfl,rfl⟩

/-- What `put_response` stores: a NOERROR response that makes an answer with records. -/
def Storable (request response : Message) : Prop :=
  response.rcode = Rcode.NOERROR ∧ (makeKeyFromRequest request).isSome ∧
    ∃ answer, buildAnswerFromResponse codec now request response = .ok answer ∧
      answer.rrset.isSome

variable {codec now}

theorem putResponse_ok_true_iff {request : Message} {response : Option Message} {c : FrontCache} :
    (putResponse codec now request response c).1 = .ok true ↔
      ∃ stored, response = some stored ∧ Storable codec now request stored := by
  constructor
  · intro h
    cases response with
    | none => simp [putResponse] at h
    | some stored =>
      obtain ⟨hcode,key,answer,hkey,hbuild,hrrset,-⟩ := putResponse_stored (Prod.ext h rfl)
      exact ⟨stored,rfl,hcode,by simp [hkey],answer,hbuild,hrrset⟩
  · intro h
    obtain ⟨stored,rfl,hcode,hkey,answer,hbuild,hrrset⟩ := h
    obtain ⟨key,hkey⟩ := Option.isSome_iff_exists.mp hkey
    obtain ⟨rrset,hrrset⟩ := Option.isSome_iff_exists.mp hrrset
    simp only [putResponse,hkey,hcode,ne_eq,not_true_eq_false,if_false]
    rw [hbuild,Exec.bind_ok (Exec.run_ofExcept _ c)]
    simp only [hrrset]
    rfl

end

/-- The owner of the entry of a key. -/
def pendingOwner (c : FrontCache) (key : CacheKey) : Option Nat :=
  (Keyed.lookup Prod.fst key c.pending).map Prod.snd

/-- `acquire_pending` on a key without entry: the call creates one. -/
def create (c : FrontCache) (key : CacheKey) (owner : Nat) (h : c.pendingOwner key = none) :
    FrontCache where
  cache := c.cache
  pending := c.pending ++ [(key,owner)]
  distinct := by
    have hfresh : key ∉ c.pending.map Prod.fst :=
      Keyed.lookup_none_iff.mp (Option.map_eq_none_iff.mp h)
    have hnil : c.pending ++ (key,owner) :: [] = c.pending ++ [(key,owner)] := rfl
    rw [← hnil]
    exact Keyed.distinct_middle hfresh (by simp) (by simpa using c.distinct)

/-- `self._pending.pop(key, None)`. -/
def pop (c : FrontCache) (key : CacheKey) : FrontCache where
  cache := c.cache
  pending := Keyed.remove Prod.fst key c.pending
  distinct := (Keyed.remove_distinct c.distinct).1

theorem pendingOwner_eq_some {c : FrontCache} {key : CacheKey} {owner : Nat} :
    c.pendingOwner key = some owner ↔ (key,owner) ∈ c.pending := by
  constructor
  · intro h
    obtain ⟨⟨k,o⟩,hfound,rfl⟩ := Option.map_eq_some_iff.mp h
    obtain ⟨hmem,rfl⟩ := Keyed.lookup_some hfound
    exact hmem
  · intro h
    obtain ⟨l,r,hsplit⟩ := List.append_of_mem h
    have hdistinct := c.distinct
    rw [hsplit] at hdistinct
    simp [pendingOwner,hsplit,Keyed.lookup_middle hdistinct]

theorem mem_create {c : FrontCache} {key key' : CacheKey} {owner owner' : Nat}
    {h : c.pendingOwner key = none} :
    (key',owner') ∈ (c.create key owner h).pending ↔
      (key',owner') ∈ c.pending ∨ key' = key ∧ owner' = owner := by
  simp [create]

theorem mem_pop {c : FrontCache} {key key' : CacheKey} {owner : Nat} :
    (key',owner) ∈ (c.pop key).pending ↔ (key',owner) ∈ c.pending ∧ key' ≠ key := by
  by_cases hkey : key' = key
  · subst hkey
    have hfresh := (Keyed.remove_distinct (k:=key') c.distinct).2
    simp only [ne_eq,not_true_eq_false,and_false,iff_false]
    exact fun hmem => hfresh (List.mem_map_of_mem hmem)
  · simp only [pop,Keyed.remove,ne_eq,hkey,not_false_eq_true,and_true]
    exact List.mem_eraseP_of_neg (by simpa using hkey)

end FrontCache

end SmartDns
