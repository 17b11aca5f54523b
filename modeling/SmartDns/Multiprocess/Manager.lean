import SmartDns.Lib.Transition
import SmartDns.Multiprocess.FrontCache
import Mathlib.Logic.Function.Basic
set_option autoImplicit false

/-!
`MultiprocessRuntimeManager.process_query` and `reload` as steps: what a call does
between two awaits is one step, and so is what reload does when it swaps the worker
pool and the front cache. Front caches and pools are numbered by the reload that made
them; the one in use is the last. A pending lock is never held across an await, so
waiting for it shows only as other steps in between.
-/

namespace SmartDns

abbrev QueryResult := Except PyException (Option Message)

/-- The pending entry a call created, in a front cache under a key. `wire` is none until
the event is set; `completedBy` records the call that took the entry out. -/
structure PendingEntry (W : Type) where
  cache : Nat
  key : CacheKey
  wire : Option (Option W) := none
  completedBy : Option Nat := none

/-- Where `process_query` stands. -/
inductive QueryPhase where
  /-- in `acquire_pending` of a front cache -/
  | acquiring (cache : Nat)
  /-- a follower on the entry of another call -/
  | waiting (owner : Nat)
  /-- in `process_query` of a worker pool -/
  | querying (pool : Nat) (reply : Option QueryResult)
  /-- in `complete_pending` of a front cache, on the way out with a result -/
  | completing (cache : Nat) (response : Option Message) (cacheWritten : Bool)
      (result : QueryResult)
  | finished (result : QueryResult)

structure QueryCall where
  request : Message
  phase : QueryPhase

def QueryCall.isFinished (c : QueryCall) : Prop := ∃ result, c.phase = .finished result

structure MultiprocessRuntimeManager (W : Type) where
  frontCaches : Nat → FrontCache
  /-- the number of the front cache and the worker pool in use -/
  generation : Nat
  calls : Nat → Option QueryCall
  entries : Nat → Option (PendingEntry W)

namespace MultiprocessRuntimeManager

variable {W : Type}

def init (frontCacheSize : Nat) : MultiprocessRuntimeManager W where
  frontCaches _ := FrontCache.new frontCacheSize
  generation := 0
  calls _ := none
  entries _ := none

def frontCache (m : MultiprocessRuntimeManager W) : FrontCache := m.frontCaches m.generation

def setFrontCache (m : MultiprocessRuntimeManager W) (n : Nat) (c : FrontCache) :
    MultiprocessRuntimeManager W :=
  { m with frontCaches := Function.update m.frontCaches n c }

def setCall (m : MultiprocessRuntimeManager W) (i : Nat) (request : Message) (phase : QueryPhase) :
    MultiprocessRuntimeManager W :=
  { m with calls := Function.update m.calls i (some ⟨request,phase⟩) }

def setEntry (m : MultiprocessRuntimeManager W) (i : Nat) (e : PendingEntry W) :
    MultiprocessRuntimeManager W :=
  { m with entries := Function.update m.entries i (some e) }

section
variable (codec : Codec W)

/-- What a worker's response message brings: the worker encodes, the master decodes. -/
def carried : QueryResult → QueryResult
  | .ok (some response) => do
    let wire ← codec.toWire response
    let decoded ← codec.fromWire wire
    pure (some decoded)
  | outcome => outcome

/-- The `finally` of `process_query`; without a key `complete_pending` does nothing. -/
def leave (m : MultiprocessRuntimeManager W) (i : Nat) (request : Message)
    (response : Option Message) (cacheWritten : Bool) (result : QueryResult) :
    MultiprocessRuntimeManager W :=
  match FrontCache.makeKeyFromRequest request with
  | none => m.setCall i request (.finished result)
  | some _ => m.setCall i request (.completing m.generation response cacheWritten result)

/-- The `except` of `process_query`, with the response known so far. -/
def fail (m : MultiprocessRuntimeManager W) (i : Nat) (request : Message)
    (response : Option Message) : MultiprocessRuntimeManager W :=
  match makeErrorResponse request Rcode.SERVFAIL with
  | .ok failure => m.leave i request (some failure) false (.ok (some failure))
  | .error e => m.leave i request response false (.error e)

/-- From the end of the pool's `process_query` on. -/
def settle (now : ℚ) (m : MultiprocessRuntimeManager W) (i : Nat) (request : Message) :
    QueryResult → MultiprocessRuntimeManager W
  | .error _ => m.fail i request none
  | .ok response =>
    match FrontCache.putResponse codec now request response m.frontCache with
    | (.error _,c) => (m.setFrontCache m.generation c).fail i request response
    | (.ok written,c) =>
      (m.setFrontCache m.generation c).leave i request response written (.ok response)

/-- The pool takes the query, or refuses it at once. -/
def query (now : ℚ) (m : MultiprocessRuntimeManager W) (i : Nat) (request : Message) :
    Option PyException → MultiprocessRuntimeManager W
  | none => m.setCall i request (.querying m.generation none)
  | some e => m.settle codec now i request (.error e)

/-- One turn of the loop up to its first await. -/
def lookUp (now : ℚ) (m : MultiprocessRuntimeManager W) (i : Nat) (request : Message)
    (refused : Option PyException) : MultiprocessRuntimeManager W :=
  match FrontCache.getResponse codec now request m.frontCache with
  | (.error e,c) => (m.setFrontCache m.generation c).setCall i request (.finished (.error e))
  | (.ok (some cached),c) =>
    (m.setFrontCache m.generation c).setCall i request (.finished (.ok (some cached)))
  | (.ok none,c) =>
    match FrontCache.makeKeyFromRequest request with
    | none => (m.setFrontCache m.generation c).query codec now i request refused
    | some _ => (m.setFrontCache m.generation c).setCall i request (.acquiring m.generation)

/-- `acquire_pending` on a front cache: to follow the entry of the key or to own a new one. -/
def acquirePending (now : ℚ) (m : MultiprocessRuntimeManager W) (i : Nat) (request : Message)
    (cache : Nat) (key : CacheKey) (refused : Option PyException) : MultiprocessRuntimeManager W :=
  match h : (m.frontCaches cache).pendingOwner key with
  | some owner => m.setCall i request (.waiting owner)
  | none =>
    ((m.setFrontCache cache ((m.frontCaches cache).create key i h)).setEntry i
      { cache, key }).query codec now i request refused

/-- `wait_for_pending_response` once the event is set. -/
def follow (now : ℚ) (m : MultiprocessRuntimeManager W) (i : Nat) (request : Message) :
    Option W → MultiprocessRuntimeManager W
  | none => m.lookUp codec now i request none
  | some wire =>
    m.setCall i request (.finished (do
      let response ← codec.fromWire wire
      let cloned ← cloneResponseForRequest codec response request
      pure (some cloned)))

/-- What `complete_pending` puts into the holder. -/
def holderWire (response : Option Message) (cacheWritten : Bool) : Except PyException (Option W) :=
  match cacheWritten, response with
  | false, some response => do
    let wire ← codec.toWire response
    pure (some wire)
  | _, _ => pure none

/-- `complete_pending` on a front cache. -/
def completePending (m : MultiprocessRuntimeManager W) (i : Nat) (request : Message) (cache : Nat)
    (response : Option Message) (cacheWritten : Bool) (result : QueryResult) (key : CacheKey) :
    MultiprocessRuntimeManager W :=
  match (m.frontCaches cache).pendingOwner key with
  | none => m.setCall i request (.finished result)
  | some owner =>
    let popped := m.setFrontCache cache ((m.frontCaches cache).pop key)
    match m.entries owner, holderWire codec response cacheWritten with
    | none, _ => popped.setCall i request (.finished result)
    | some e, .ok wire =>
      (popped.setEntry owner { e with wire := some wire, completedBy := some i }).setCall i request
        (.finished result)
    | some e, .error x =>
      (popped.setEntry owner { e with completedBy := some i }).setCall i request
        (.finished (.error x))

/-- `_fail_pending` of a worker pool. -/
def failCall (pool : Nat) (call : QueryCall) : QueryCall :=
  match call.phase with
  | .querying p _ =>
    if p = pool then
      { call with phase := .querying p (some (.error (.runtimeError "worker pool stopped"))) }
    else call
  | _ => call

/-- A swap is all that `reload` does to queries; it fails the old pool afterwards. A reload
that raises swaps nothing. -/
inductive Label where
  | arrive (i : Nat) (request : Message) (now : ℚ) (refused : Option PyException)
  | acquire (i : Nat) (now : ℚ) (refused : Option PyException)
  | wake (i : Nat) (now : ℚ)
  | reply (i : Nat) (outcome : QueryResult)
  | resume (i : Nat) (now : ℚ)
  | complete (i : Nat)
  | swap (frontCacheSize : Nat)
  | failPending (pool : Nat)

def step (m : MultiprocessRuntimeManager W) : Label → Option (MultiprocessRuntimeManager W)
  | .arrive i request now refused =>
    match m.calls i with
    | none => some (m.lookUp codec now i request refused)
    | some _ => none
  | .acquire i now refused =>
    match m.calls i with
    | some ⟨request,.acquiring cache⟩ =>
      match FrontCache.makeKeyFromRequest request with
      | none => none
      | some key => some (m.acquirePending codec now i request cache key refused)
    | _ => none
  | .wake i now =>
    match m.calls i with
    | some ⟨request,.waiting owner⟩ =>
      match m.entries owner with
      | some { wire := some wire, .. } => some (m.follow codec now i request wire)
      | _ => none
    | _ => none
  | .reply i outcome =>
    match m.calls i with
    | some ⟨request,.querying pool none⟩ =>
      some (m.setCall i request (.querying pool (some (carried codec outcome))))
    | _ => none
  | .resume i now =>
    match m.calls i with
    | some ⟨request,.querying _ (some outcome)⟩ => some (m.settle codec now i request outcome)
    | _ => none
  | .complete i =>
    match m.calls i with
    | some ⟨request,.completing cache response written result⟩ =>
      match FrontCache.makeKeyFromRequest request with
      | none => none
      | some key => some (m.completePending codec i request cache response written result key)
    | _ => none
  | .swap frontCacheSize =>
    some { m.setFrontCache (m.generation+1) (FrontCache.new frontCacheSize) with
      generation := m.generation+1 }
  | .failPending pool => some { m with calls := fun i => (m.calls i).map (failCall pool) }

end

end MultiprocessRuntimeManager

end SmartDns
