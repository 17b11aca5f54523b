import SmartDns.Lib.Transition
import SmartDns.QueryLog.Store
import Mathlib.Data.List.Induction
import Mathlib.Data.List.Nodup
import Mathlib.Logic.Function.Basic
set_option autoImplicit false

/-!
`QueryLogStore.append` and `subscribe` as their atomic steps. An appender publishes an entry
and copies the list of subscriptions under the lock, and then, without it, reads the event of
each one and sets it. A subscriber replaces its event between two looks at the store, and
waits for the new event if both find nothing. The store keeps no list of all entries; the
log here does, for what was evicted.
-/

namespace SmartDns.QueryLog

variable {P : Type}

/-! ### The store alone -/

inductive StoreOp (P : Type) where
  | append (payload : P)
  | resize (maxEntries : Nat)

def StoreOp.apply (s : QueryLogStore P) : StoreOp P → QueryLogStore P
  | .append payload => s.append payload
  | .resize maxEntries => s.resize maxEntries

def StoreOp.payload : StoreOp P → Option P
  | .append payload => some payload
  | .resize _ => none

def StoreOp.maxEntries : StoreOp P → Option Nat
  | .append _ => none
  | .resize maxEntries => some maxEntries

def payloads (ops : List (StoreOp P)) : List P := ops.filterMap StoreOp.payload

/-- The limit in force after these operations, on a store made with `maxEntries`. -/
def limitAfter (maxEntries : Nat) (ops : List (StoreOp P)) : Nat :=
  (ops.filterMap StoreOp.maxEntries).getLastD maxEntries

/-- The entries that payloads become, in the order they are appended. -/
def numbered (payloads : List P) : List (QueryLogEntry P) :=
  payloads.mapIdx fun k payload => ⟨k+1,payload⟩

/-- A store with all entries that were ever appended to it. -/
structure Log (P : Type) where
  store : QueryLogStore P
  appended : List (QueryLogEntry P)

namespace Log

def append (l : Log P) (payload : P) : Log P where
  store := l.store.append payload
  appended := l.appended ++ [⟨l.store.nextId,payload⟩]

def resize (l : Log P) (maxEntries : Nat) : Log P := { l with store := l.store.resize maxEntries }

def apply (l : Log P) : StoreOp P → Log P
  | .append payload => l.append payload
  | .resize maxEntries => l.resize maxEntries

/-- The store holds the last entries, and ids count them from 1. -/
structure Recent (l : Log P) : Prop where
  suffix : l.store.entries <:+ l.appended
  ids : l.appended.map QueryLogEntry.id = List.range' 1 l.appended.length
  nextId : l.store.nextId = l.appended.length+1

theorem newest_suffix {α : Type} (n : Nat) (l : List α) : QueryLogStore.newest n l <:+ l :=
  List.drop_suffix _ _

theorem Recent.append {l : Log P} (h : l.Recent) (payload : P) : (l.append payload).Recent where
  suffix := by
    obtain ⟨evicted,hevicted⟩ := h.suffix
    refine (newest_suffix _ _).trans ⟨evicted,?_⟩
    simp [Log.append,← hevicted]
  ids := by
    simp only [Log.append,List.map_append,List.map_cons,List.map_nil,List.length_append,
      List.length_singleton,h.ids,h.nextId,List.range'_concat]
    simp [Nat.add_comm]
  nextId := by simp [Log.append,QueryLogStore.append,h.nextId]

theorem Recent.resize {l : Log P} (h : l.Recent) (n : Nat) : (l.resize n).Recent where
  suffix := by
    rw [Log.resize,QueryLogStore.resize_entries]
    exact (newest_suffix _ _).trans h.suffix
  ids := h.ids
  nextId := by
    rw [Log.resize,QueryLogStore.resize_nextId]
    exact h.nextId

theorem Recent.id_lt {l : Log P} (h : l.Recent) {e : QueryLogEntry P} (he : e ∈ l.appended) :
    1 ≤ e.id ∧ e.id < l.store.nextId := by
  have hid : e.id ∈ l.appended.map QueryLogEntry.id := List.mem_map_of_mem he
  rw [h.ids,List.mem_range'_1] at hid
  rw [h.nextId]
  omega

theorem Recent.ids_increase {l : Log P} (h : l.Recent) :
    l.appended.Pairwise fun a b => a.id < b.id := by
  have hids : (l.appended.map QueryLogEntry.id).Pairwise (· < ·) := by
    rw [h.ids]
    exact List.pairwise_lt_range'
  exact List.pairwise_map.mp hids

theorem Recent.id_inj {l : Log P} (h : l.Recent) {a b : QueryLogEntry P} (ha : a ∈ l.appended)
    (hb : b ∈ l.appended) (hid : a.id = b.id) : a = b := by
  have hnodup : (l.appended.map QueryLogEntry.id).Nodup := by
    rw [h.ids]
    exact List.nodup_range'
  exact List.inj_on_of_nodup_map hnodup ha hb hid

theorem Recent.held_appended {l : Log P} (h : l.Recent) {e : QueryLogEntry P}
    (he : e ∈ l.store.entries) : e ∈ l.appended := h.suffix.subset he

end Log

theorem Log.Recent.consecutive {l : Log P} (h : l.Recent) :
    l.store.entries.map QueryLogEntry.id =
      List.range' (l.store.nextId-l.store.entries.length) l.store.entries.length := by
  obtain ⟨evicted,hevicted⟩ := h.suffix
  have hids := h.ids
  rw [← hevicted,List.map_append,List.length_append,← List.range'_append_1] at hids
  have hlength : (evicted.map QueryLogEntry.id).length =
      (List.range' 1 evicted.length).length := by simp
  have hheld := (List.append_inj hids hlength).2
  have hstart : l.store.nextId-l.store.entries.length = 1+evicted.length := by
    rw [h.nextId,← hevicted,List.length_append]
    omega
  rw [hheld,hstart]

/-- An entry is held just when its id is one of the last. -/
theorem Log.Recent.held_iff {l : Log P} (h : l.Recent) {e : QueryLogEntry P}
    (he : e ∈ l.appended) :
    e ∈ l.store.entries ↔ l.appended.length < e.id+l.store.entries.length := by
  have hid := h.id_lt he
  have hnextId := h.nextId
  have hle := h.suffix.length_le
  have hmem : e.id ∈ l.store.entries.map QueryLogEntry.id ↔ e ∈ l.store.entries := by
    constructor
    · intro hmem
      obtain ⟨held,hheld,heq⟩ := List.mem_map.mp hmem
      rwa [← h.id_inj (h.held_appended hheld) he heq]
    · exact List.mem_map_of_mem
  rw [← hmem,h.consecutive,List.mem_range'_1]
  omega

/-- At each point since the entry with this id was appended there has been room for it: fewer
entries than the limit of that point have come after it. -/
def HasRoom (maxEntries : Nat) (ops : List (StoreOp P)) (id : Nat) : Prop :=
  ∀ before after, ops = before ++ after → id ≤ (payloads before).length →
    (payloads before).length < id+limitAfter maxEntries before

/-- The store holds a contiguous block of the entries appended last: their ids are
consecutive, end at the last one issued, and are not more than fit; no entry is gone for which
there has been room. -/
structure HoldsRecent (maxEntries : Nat) (ops : List (StoreOp P)) (store : QueryLogStore P) :
    Prop where
  suffix : store.entries <:+ numbered (payloads ops)
  consecutive : store.entries.map QueryLogEntry.id =
    List.range' (store.nextId-store.entries.length) store.entries.length
  issued : store.nextId = (payloads ops).length+1
  limit : store.maxEntries = limitAfter maxEntries ops
  bounded : store.entries.length ≤ store.maxEntries
  held : ∀ e ∈ numbered (payloads ops), e ∈ store.entries ↔ HasRoom maxEntries ops e.id

theorem numbered_length (l : List P) : (numbered l).length = l.length := List.length_mapIdx

theorem payloads_append (ops : List (StoreOp P)) (op : StoreOp P) :
    payloads (ops ++ [op]) = payloads ops ++ op.payload.toList := by
  rw [payloads,List.filterMap_append]
  cases op <;> rfl

theorem limitAfter_append (maxEntries : Nat) (ops : List (StoreOp P)) (op : StoreOp P) :
    limitAfter maxEntries (ops ++ [op]) = op.maxEntries.getD (limitAfter maxEntries ops) := by
  rw [limitAfter,List.filterMap_append]
  cases op with
  | append payload => simp [StoreOp.maxEntries,limitAfter]
  | resize n => simp [StoreOp.maxEntries]

/-- One more operation asks for room once more. -/
theorem hasRoom_append (maxEntries : Nat) (ops : List (StoreOp P)) (op : StoreOp P) (id : Nat) :
    HasRoom maxEntries (ops ++ [op]) id ↔ HasRoom maxEntries ops id ∧
      (id ≤ (payloads (ops ++ [op])).length →
        (payloads (ops ++ [op])).length < id+limitAfter maxEntries (ops ++ [op])) := by
  constructor
  · intro h
    refine ⟨fun before after hsplit => h before (after ++ [op]) ?_,
      h (ops ++ [op]) [] (List.append_nil _).symm⟩
    rw [hsplit,List.append_assoc]
  · intro h before after hsplit
    obtain ⟨hbefore,hlast⟩ := h
    rcases List.eq_nil_or_concat after with rfl | ⟨after',last,rfl⟩
    · rw [List.append_nil] at hsplit
      rw [← hsplit]
      exact hlast
    · rw [List.concat_eq_append,← List.append_assoc] at hsplit
      exact hbefore before after' (List.append_inj_left' hsplit rfl)

/-- Nothing has come after an entry that is still to be appended. -/
theorem hasRoom_of_later (maxEntries : Nat) {ops : List (StoreOp P)} {id : Nat}
    (h : (payloads ops).length < id) : HasRoom maxEntries ops id := by
  intro before after hsplit hid
  rw [hsplit,payloads,List.filterMap_append,List.length_append] at h
  simp only [payloads] at hid
  omega

/-- How many entries are held says for which there has been room. -/
structure Counted (maxEntries : Nat) (ops : List (StoreOp P)) (store : QueryLogStore P) :
    Prop where
  limit : store.maxEntries = limitAfter maxEntries ops
  room : ∀ id, 1 ≤ id → id ≤ (payloads ops).length →
    ((payloads ops).length < id+store.entries.length ↔ HasRoom maxEntries ops id)

theorem Counted.apply {maxEntries : Nat} {ops : List (StoreOp P)} {store : QueryLogStore P}
    (h : Counted maxEntries ops store) (op : StoreOp P) :
    Counted maxEntries (ops ++ [op]) (StoreOp.apply store op) := by
  have hlimit := h.limit
  cases op with
  | append payload =>
    have hkept : limitAfter maxEntries (ops ++ [StoreOp.append payload]) = store.maxEntries := by
      rw [limitAfter_append]
      exact hlimit.symm
    refine ⟨hkept.symm,fun id hpos hid => ?_⟩
    have hlength : (StoreOp.apply store (.append payload)).entries.length =
        min store.maxEntries (store.entries.length+1) := by
      simp only [StoreOp.apply,QueryLogStore.append,QueryLogStore.newest_length,
        List.length_append,List.length_singleton]
    rw [hasRoom_append,hkept,hlength,payloads_append]
    rw [payloads_append] at hid
    simp only [StoreOp.payload,Option.toList_some,List.length_append,List.length_singleton]
      at hid ⊢
    by_cases hnew : id ≤ (payloads ops).length
    · rw [← h.room id hpos hnew]
      omega
    · have hroom := hasRoom_of_later maxEntries (Nat.lt_of_not_le hnew)
      simp only [hroom,true_and]
      omega
  | resize n =>
    have hnow : limitAfter maxEntries (ops ++ [StoreOp.resize n]) = n := by
      rw [limitAfter_append]
      rfl
    refine ⟨(store.resize_maxEntries n).trans hnow.symm,fun id hpos hid => ?_⟩
    rw [payloads_append] at hid
    simp only [StoreOp.payload,Option.toList_none,List.append_nil] at hid
    rw [hasRoom_append,hnow,payloads_append,← h.room id hpos (by simpa using hid)]
    simp only [StoreOp.apply,StoreOp.payload,Option.toList_none,List.append_nil,
      QueryLogStore.resize_length]
    omega

/-- What operations leave of a new log. -/
theorem foldl_apply_recent (maxEntries : Nat) (ops : List (StoreOp P)) :
    (⟨ops.foldl StoreOp.apply (QueryLogStore.new maxEntries),numbered (payloads ops)⟩ :
        Log P).Recent ∧
      ops.foldl Log.apply ⟨QueryLogStore.new maxEntries,[]⟩ =
        ⟨ops.foldl StoreOp.apply (QueryLogStore.new maxEntries),numbered (payloads ops)⟩ ∧
      Counted maxEntries ops (ops.foldl StoreOp.apply (QueryLogStore.new maxEntries)) := by
  induction ops using List.reverseRecOn with
  | nil =>
    refine ⟨⟨List.suffix_rfl,rfl,rfl⟩,rfl,rfl,fun id hpos hid => ?_⟩
    exact absurd hpos (Nat.not_le_of_gt (Nat.lt_succ_of_le hid))
  | append_singleton ops op ih =>
    obtain ⟨hrecent,hlog,hcounted⟩ := ih
    have hcounted' := hcounted.apply op
    simp only [List.foldl_append,List.foldl_cons,List.foldl_nil,hlog]
    cases op with
    | append payload =>
      have hnumbered : numbered (payloads (ops ++ [StoreOp.append payload])) =
          numbered (payloads ops) ++
            [⟨(ops.foldl StoreOp.apply (QueryLogStore.new maxEntries)).nextId,payload⟩] := by
        rw [hrecent.nextId,payloads_append]
        simp [numbered,StoreOp.payload]
      rw [hnumbered]
      exact ⟨hrecent.append payload,rfl,hcounted'⟩
    | resize n =>
      have hnumbered : numbered (payloads (ops ++ [StoreOp.resize n])) =
          numbered (payloads ops) := by
        rw [payloads_append]
        simp [StoreOp.payload]
      rw [hnumbered]
      exact ⟨hrecent.resize n,rfl,hcounted'⟩

theorem foldl_apply_holds (maxEntries : Nat) (ops : List (StoreOp P)) :
    HoldsRecent maxEntries ops (ops.foldl StoreOp.apply (QueryLogStore.new maxEntries)) := by
  obtain ⟨hrecent,-,hcounted⟩ := foldl_apply_recent maxEntries ops
  have hnextId := hrecent.nextId
  rw [numbered_length] at hnextId
  refine ⟨hrecent.suffix,hrecent.consecutive,hnextId,hcounted.limit,QueryLogStore.fits _,?_⟩
  intro e he
  obtain ⟨hpos,hlt⟩ := hrecent.id_lt he
  have hheld := hrecent.held_iff he
  simp only [numbered_length] at hheld
  exact hheld.trans (hcounted.room e.id hpos (by rw [hnextId] at hlt; omega))

/-! ### Appenders and subscribers -/

/-- What a subscriber does next. Items that were found are yielded one by one. -/
inductive Phase (P : Type) where
  | looking
  | renewing
  | lookingAgain
  | waiting
  | yielding (items : List (QueryLogEntry P))
  | closed

def Phase.items : Phase P → List (QueryLogEntry P)
  | .yielding items => items
  | _ => []

/-- `missed` is no variable of the code: the entries that were gone when the subscriber looked
for them. -/
structure Subscriber (P : Type) where
  afterId : Option Int
  lastSeenId : Nat
  event : Nat
  phase : Phase P
  yielded : List (QueryLogEntry P) := []
  missed : List (QueryLogEntry P) := []

/-- The rest of an `append` after the lock: the subscriptions whose event is still to be read,
and the event that was read and is to be set. -/
structure Appender where
  pending : List Nat := []
  held : Option Nat := none
  deriving DecidableEq, Repr

/-- Subscribers and appenders have numbers; events are numbered as they are made. -/
structure State (P : Type) where
  log : Log P
  subscriptions : List Nat := []
  subscribers : Nat → Option (Subscriber P) := fun _ => none
  appenders : Nat → Appender := fun _ => {}
  setEvents : List Nat := []
  nextEvent : Nat := 0

inductive Label (P : Type) where
  | publish (appender : Nat) (payload : P)
  | readEvent (appender : Nat)
  | setEvent (appender : Nat)
  | resize (maxEntries : Nat)
  | subscribe (subscriber : Nat) (afterId : Option Int)
  | look (subscriber : Nat)
  | renew (subscriber : Nat)
  | lookAgain (subscriber : Nat)
  | wake (subscriber : Nat)
  | heartbeat (subscriber : Nat)
  | yieldItem (subscriber : Nat)
  | yieldedAll (subscriber : Nat)
  | close (subscriber : Nat)

/-- The operation of the store that a step makes. -/
def Label.storeOp : Label P → Option (StoreOp P)
  | .publish _ payload => some (.append payload)
  | .resize maxEntries => some (.resize maxEntries)
  | _ => none

/-- `_entries_after`. -/
def entriesAfter (s : QueryLogStore P) (entryId : Nat) : List (QueryLogEntry P) :=
  s.entries.filter fun item => entryId < item.id

/-- The entries after an id that were appended and are not in the store. -/
def Log.evictedAfter (l : Log P) (entryId : Nat) : List (QueryLogEntry P) :=
  l.appended.filter fun e => entryId < e.id && l.store.entries.all fun held => held.id ≠ e.id

def startId (afterId : Option Int) : Nat := (afterId.getD 0).toNat

namespace Subscriber

/-- A look at the store: what it finds is yielded, and `empty` follows if it finds nothing. -/
def lookAt (l : Log P) (empty : Phase P) (sub : Subscriber P) : Subscriber P :=
  let items := entriesAfter l.store sub.lastSeenId
  { sub with
    phase := if items = [] then empty else .yielding items
    missed := sub.missed ++ l.evictedAfter sub.lastSeenId }

/-- `last_seen_id` before anything is yielded. -/
def start (sub : Subscriber P) : Nat := startId sub.afterId

def looks (l : Log P) (sub : Subscriber P) : Option (Subscriber P) :=
  match sub.phase with
  | .looking => some (sub.lookAt l .renewing)
  | _ => none

def looksAgain (l : Log P) (sub : Subscriber P) : Option (Subscriber P) :=
  match sub.phase with
  | .lookingAgain => some (sub.lookAt l .waiting)
  | _ => none

def renews (event : Nat) (sub : Subscriber P) : Option (Subscriber P) :=
  match sub.phase with
  | .renewing => some { sub with event, phase := .lookingAgain }
  | _ => none

/-- The wait ends, by the event or the heartbeat. -/
def stopsWaiting (sub : Subscriber P) : Option (Subscriber P) :=
  match sub.phase with
  | .waiting => some { sub with phase := .looking }
  | _ => none

def yields (sub : Subscriber P) : Option (Subscriber P) :=
  match sub.phase with
  | .yielding (item :: items) => some
    { sub with
      lastSeenId := item.id
      yielded := sub.yielded ++ [item]
      phase := .yielding items }
  | _ => none

def hasYielded (sub : Subscriber P) : Option (Subscriber P) :=
  match sub.phase with
  | .yielding [] => some { sub with phase := .looking }
  | _ => none

/-- The generator is closed or cancelled, wherever it is. -/
def closes (sub : Subscriber P) : Option (Subscriber P) :=
  match sub.phase with
  | .closed => none
  | _ => some { sub with phase := .closed }

end Subscriber

namespace State

def init (maxEntries : Nat) : State P := { log := ⟨QueryLogStore.new maxEntries,[]⟩ }

def setSubscriber (s : State P) (i : Nat) (sub : Subscriber P) : State P :=
  { s with subscribers := Function.update s.subscribers i (some sub) }

/-- A step of one subscriber. -/
def advance (s : State P) (i : Nat) (f : Subscriber P → Option (Subscriber P)) : Option (State P) :=
  ((s.subscribers i).bind f).map (s.setSubscriber i)

def setAppender (s : State P) (a : Nat) (appender : Appender) : State P :=
  { s with appenders := Function.update s.appenders a appender }

end State

def step (s : State P) : Label P → Option (State P)
  | .publish a payload =>
    if s.appenders a = {} then
      some ({ s with log := s.log.append payload }.setAppender a { pending := s.subscriptions })
    else none
  | .readEvent a =>
    match s.appenders a with
    | ⟨i :: pending,none⟩ =>
      (s.subscribers i).map fun sub => s.setAppender a ⟨pending,some sub.event⟩
    | _ => none
  | .setEvent a =>
    match s.appenders a with
    | ⟨pending,some event⟩ =>
      some ({ s with setEvents := event :: s.setEvents }.setAppender a ⟨pending,none⟩)
    | _ => none
  | .resize maxEntries => some { s with log := s.log.resize maxEntries }
  | .subscribe i afterId =>
    match s.subscribers i with
    | some _ => none
    | none => some ({ s with
        subscriptions := s.subscriptions ++ [i]
        nextEvent := s.nextEvent+1 }.setSubscriber i
          { afterId, lastSeenId := startId afterId, event := s.nextEvent, phase := .looking })
  | .look i => s.advance i (Subscriber.looks s.log)
  | .renew i =>
    { s with nextEvent := s.nextEvent+1 }.advance i (Subscriber.renews s.nextEvent)
  | .lookAgain i => s.advance i (Subscriber.looksAgain s.log)
  | .wake i =>
    s.advance i fun sub => if sub.event ∈ s.setEvents then sub.stopsWaiting else none
  | .heartbeat i => s.advance i Subscriber.stopsWaiting
  | .yieldItem i => s.advance i Subscriber.yields
  | .yieldedAll i => s.advance i Subscriber.hasYielded
  | .close i =>
    { s with subscriptions := s.subscriptions.erase i }.advance i Subscriber.closes

/-! ### What a subscriber is given -/

/-- The append is about to set the event: it has read it, or will read what the subscriber has. -/
def AboutToSet (s : State P) (a i event : Nat) : Prop :=
  (s.appenders a).held = some event ∨ i ∈ (s.appenders a).pending

/-- The entry comes after the one the subscriber started from. -/
def Subscriber.Wants (sub : Subscriber P) (e : QueryLogEntry P) : Prop :=
  ∀ afterId, sub.afterId = some afterId → afterId < e.id

structure Delivers (s : State P) (i : Nat) (sub : Subscriber P) : Prop where
  increasing : sub.yielded.Pairwise fun a b => a.id < b.id
  wanted : ∀ e ∈ sub.yielded, sub.Wants e
  skips : ∀ e ∈ s.log.appended, sub.Wants e → e ∉ sub.yielded →
    (∃ later ∈ sub.yielded, e.id < later.id) → e ∈ sub.missed
  missed : ∀ e ∈ sub.missed, ∀ held ∈ s.log.store.entries, held ≠ e
  awake : sub.phase = .waiting → sub.event ∉ s.setEvents →
    (∃ e ∈ s.log.store.entries, sub.Wants e ∧ e ∉ sub.yielded) → ∃ a, AboutToSet s a i sub.event

/-! ### The invariant -/

/-- What has been yielded and what is about to be, against the log. -/
structure Record (l : Log P) (sub : Subscriber P) : Prop where
  startLe : sub.start ≤ sub.lastSeenId
  issued : sub.lastSeenId = sub.start ∨ sub.lastSeenId < l.store.nextId
  increasing : (sub.yielded ++ sub.phase.items).Pairwise fun a b => a.id < b.id
  known : ∀ e ∈ sub.yielded ++ sub.phase.items, e ∈ l.appended
  yielded : ∀ e ∈ sub.yielded, sub.start < e.id ∧ e.id ≤ sub.lastSeenId
  next : ∀ e ∈ sub.phase.items, sub.lastSeenId < e.id
  covered : ∀ e ∈ l.appended, sub.start < e.id → e.id ≤ sub.lastSeenId →
    e ∈ sub.yielded ∨ e ∈ sub.missed
  upcoming : ∀ x ∈ sub.phase.items, ∀ e ∈ l.appended, sub.lastSeenId < e.id → e.id ≤ x.id →
    e ∈ sub.phase.items ∨ e ∈ sub.missed
  missed : ∀ e ∈ sub.missed, e ∈ l.appended ∧ ∀ held ∈ l.store.entries, held.id ≠ e.id

/-- No wake-up is lost. -/
structure Attended (s : State P) (i : Nat) (sub : Subscriber P) : Prop where
  registered : sub.phase = .closed ∨ i ∈ s.subscriptions
  awake : sub.phase = .waiting → (∃ e ∈ s.log.store.entries, sub.lastSeenId < e.id) →
    sub.event ∈ s.setEvents ∨ ∃ a, AboutToSet s a i sub.event

structure Inv (s : State P) : Prop where
  recent : s.log.Recent
  record : ∀ i sub, s.subscribers i = some sub → Record s.log sub
  attended : ∀ i sub, s.subscribers i = some sub → Attended s i sub

/-- A later log: what is new has ids that were not issued yet. -/
structure Later (l l' : Log P) : Prop where
  nextId : l.store.nextId ≤ l'.store.nextId
  appended : ∀ e ∈ l'.appended, e ∈ l.appended ∨ l.store.nextId ≤ e.id
  keeps : ∀ e ∈ l.appended, e ∈ l'.appended
  entries : ∀ e ∈ l'.store.entries, e ∈ l.store.entries ∨ l.store.nextId ≤ e.id

theorem later_append (l : Log P) (payload : P) : Later l (l.append payload) where
  nextId := Nat.le_succ _
  appended e he := by
    cases List.mem_append.mp he with
    | inl he => exact .inl he
    | inr he =>
      rw [List.mem_singleton.mp he]
      exact .inr (Nat.le_refl _)
  keeps e he := List.mem_append_left _ he
  entries e he := by
    have hmem := (Log.newest_suffix _ _).subset he
    cases List.mem_append.mp hmem with
    | inl he => exact .inl he
    | inr he =>
      rw [List.mem_singleton.mp he]
      exact .inr (Nat.le_refl _)

theorem later_resize (l : Log P) (n : Nat) : Later l (l.resize n) where
  nextId := Nat.le_of_eq (QueryLogStore.resize_nextId l.store n).symm
  appended _ he := .inl he
  keeps _ he := he
  entries e he := by
    rw [Log.resize,QueryLogStore.resize_entries] at he
    exact .inl ((Log.newest_suffix _ _).subset he)

theorem Record.later {l l' : Log P} {sub : Subscriber P} (h : Record l sub) (hl : l.Recent)
    (hlater : Later l l') : Record l' sub where
  startLe := h.startLe
  issued := by
    have hissued := h.issued
    have hnextId := hlater.nextId
    omega
  increasing := h.increasing
  known e he := hlater.keeps e (h.known e he)
  yielded := h.yielded
  next := h.next
  covered e he hstart hseen := by
    cases hlater.appended e he with
    | inl he => exact h.covered e he hstart hseen
    | inr hnew =>
      have hissued := h.issued
      omega
  upcoming x hx e he hseen hle := by
    cases hlater.appended e he with
    | inl he => exact h.upcoming x hx e he hseen hle
    | inr hnew =>
      have hx := (hl.id_lt (h.known x (List.mem_append_right _ hx))).2
      omega
  missed e he := by
    obtain ⟨happended,hgone⟩ := h.missed e he
    refine ⟨hlater.keeps e happended,fun held hheld => ?_⟩
    cases hlater.entries held hheld with
    | inl hheld => exact hgone held hheld
    | inr hnew =>
      have he := (hl.id_lt happended).2
      omega

theorem mem_entriesAfter {s : QueryLogStore P} {id : Nat} {e : QueryLogEntry P} :
    e ∈ entriesAfter s id ↔ e ∈ s.entries ∧ id < e.id := by
  simp [entriesAfter]

theorem mem_evictedAfter {l : Log P} {id : Nat} {e : QueryLogEntry P} :
    e ∈ l.evictedAfter id ↔
      e ∈ l.appended ∧ id < e.id ∧ ∀ held ∈ l.store.entries, held.id ≠ e.id := by
  simp [Log.evictedAfter]

/-- What comes after an id is in the store or was evicted. -/
theorem Log.Recent.found_or_evicted {l : Log P} (h : l.Recent) {id : Nat} {e : QueryLogEntry P}
    (he : e ∈ l.appended) (hid : id < e.id) :
    e ∈ entriesAfter l.store id ∨ e ∈ l.evictedAfter id := by
  by_cases hheld : ∃ held ∈ l.store.entries, held.id = e.id
  · obtain ⟨held,hmem,heq⟩ := hheld
    obtain rfl := h.id_inj (h.held_appended hmem) he heq
    exact .inl (mem_entriesAfter.mpr ⟨hmem,hid⟩)
  · refine .inr (mem_evictedAfter.mpr ⟨he,hid,fun held hmem heq => ?_⟩)
    exact hheld ⟨held,hmem,heq⟩

theorem lookAt_items {l : Log P} {empty : Phase P} (hempty : empty.items = [])
    (sub : Subscriber P) :
    (sub.lookAt l empty).phase.items = entriesAfter l.store sub.lastSeenId := by
  unfold Subscriber.lookAt
  by_cases hfound : entriesAfter l.store sub.lastSeenId = []
  · simp [hfound,hempty]
  · simp [hfound,Phase.items]

namespace Record
variable {l : Log P} {sub : Subscriber P}

theorem lookAt (h : Record l sub) (hl : l.Recent) {empty : Phase P} (hempty : empty.items = []) :
    Record l (sub.lookAt l empty) := by
  have hitems := lookAt_items (l:=l) hempty sub
  have hyielded : ∀ e ∈ sub.yielded, e.id ≤ sub.lastSeenId := fun e he => (h.yielded e he).2
  refine ⟨h.startLe,h.issued,?_,?_,h.yielded,?_,?_,?_,?_⟩
  · rw [hitems]
    have hfound : (entriesAfter l.store sub.lastSeenId).Pairwise fun a b => a.id < b.id :=
      hl.ids_increase.sublist (List.filter_sublist.trans hl.suffix.sublist)
    refine List.pairwise_append.mpr ⟨(List.pairwise_append.mp h.increasing).1,hfound,?_⟩
    intro a ha b hb
    have ha := hyielded a ha
    have hb := (mem_entriesAfter.mp hb).2
    omega
  · rw [hitems]
    intro e he
    cases List.mem_append.mp he with
    | inl he => exact h.known e (List.mem_append_left _ he)
    | inr he => exact hl.held_appended (mem_entriesAfter.mp he).1
  · rw [hitems]
    intro e he
    exact (mem_entriesAfter.mp he).2
  · intro e he hstart hseen
    exact (h.covered e he hstart hseen).imp_right (List.mem_append_left _)
  · rw [hitems]
    intro x _ e he hseen _
    exact (hl.found_or_evicted he hseen).imp_right (List.mem_append_right _)
  · intro e he
    cases List.mem_append.mp he with
    | inl he => exact h.missed e he
    | inr he =>
      obtain ⟨he,_,hgone⟩ := mem_evictedAfter.mp he
      exact ⟨he,hgone⟩

/-- A subscriber that yields one item has covered all entries up to it. -/
theorem yields (h : Record l sub) (hl : l.Recent) {item : QueryLogEntry P}
    {items : List (QueryLogEntry P)} (hphase : sub.phase = .yielding (item :: items)) :
    Record l { sub with
      lastSeenId := item.id
      yielded := sub.yielded ++ [item]
      phase := .yielding items } := by
  have hitems : sub.phase.items = item :: items := by rw [hphase]; rfl
  have hincreasing := h.increasing
  have hknown := h.known
  have hnext := h.next
  have hupcoming := h.upcoming
  rw [hitems] at hincreasing hknown hnext hupcoming
  have hitem : sub.lastSeenId < item.id := hnext item List.mem_cons_self
  have hafter : ∀ e ∈ items, item.id < e.id :=
    (List.pairwise_cons.mp (List.pairwise_append.mp hincreasing).2.1).1
  have hstart := h.startLe
  refine ⟨by simp only [Subscriber.start] at hstart ⊢; omega,?_,?_,?_,?_,hafter,?_,?_,h.missed⟩
  · exact .inr (hl.id_lt (hknown item (by simp))).2
  · simpa [Phase.items] using hincreasing
  · simpa [Phase.items] using hknown
  · intro e he
    cases List.mem_append.mp he with
    | inl he =>
      obtain ⟨hfrom,hseen⟩ := h.yielded e he
      exact ⟨hfrom,by simp only; omega⟩
    | inr he =>
      rw [List.mem_singleton.mp he]
      exact ⟨Nat.lt_of_le_of_lt hstart hitem,Nat.le_refl _⟩
  · intro e he hfrom hle
    by_cases hseen : e.id ≤ sub.lastSeenId
    · exact (h.covered e he hfrom hseen).imp_left (List.mem_append_left _)
    · refine (hupcoming item List.mem_cons_self e he (by omega) hle).imp_left fun he => ?_
      cases List.mem_cons.mp he with
      | inl heq => simp [heq]
      | inr he =>
        have hlater := hafter e he
        simp only at hle
        omega
  · intro x hx e he hlt hle
    simp only at hlt
    have hx : x ∈ item :: items := List.mem_cons_of_mem _ hx
    refine (hupcoming x hx e he (by omega) hle).imp_left fun he => ?_
    cases List.mem_cons.mp he with
    | inl heq =>
      rw [heq] at hlt
      omega
    | inr he => exact he

/-- Nothing that is pending is owed: it may be dropped, and the event replaced. -/
theorem rephase (h : Record l sub) {phase : Phase P} (hphase : phase.items = []) (event : Nat) :
    Record l { sub with event, phase } := by
  refine ⟨h.startLe,h.issued,?_,?_,h.yielded,?_,h.covered,?_,h.missed⟩
  · simpa [hphase] using (List.pairwise_append.mp h.increasing).1
  · intro e he
    simp only [hphase,List.append_nil] at he
    exact h.known e (List.mem_append_left _ he)
  · simp [hphase]
  · simp [hphase]

end Record

section
variable {s s' : State P} {i a : Nat} {sub : Subscriber P}

theorem advance_eq_some {f : Subscriber P → Option (Subscriber P)} :
    s.advance i f = some s' ↔
      ∃ sub sub', s.subscribers i = some sub ∧ f sub = some sub' ∧ s' = s.setSubscriber i sub' := by
  simp only [State.advance,Option.map_eq_some_iff,Option.bind_eq_some_iff]
  constructor
  · intro h
    obtain ⟨sub',⟨sub,hsub,hf⟩,hs'⟩ := h
    exact ⟨sub,sub',hsub,hf,hs'.symm⟩
  · intro h
    obtain ⟨sub,sub',hsub,hf,hs'⟩ := h
    exact ⟨sub',⟨sub,hsub,hf⟩,hs'.symm⟩

/-- What a state with another log and other appenders owes a subscriber. -/
theorem Attended.mono (h : Attended s i sub)
    (hregistered : i ∈ s.subscriptions → i ∈ s'.subscriptions)
    (hset : ∀ event ∈ s.setEvents, event ∈ s'.setEvents)
    (happenders : ∀ a, AboutToSet s a i sub.event →
      sub.event ∈ s'.setEvents ∨ ∃ a, AboutToSet s' a i sub.event)
    (hentries : ∀ e ∈ s'.log.store.entries, sub.lastSeenId < e.id → sub.phase = .waiting →
      e ∈ s.log.store.entries ∨ ∃ a, AboutToSet s' a i sub.event) : Attended s' i sub where
  registered := h.registered.imp_right hregistered
  awake hwaiting hheld := by
    obtain ⟨e,he,hid⟩ := hheld
    cases hentries e he hid hwaiting with
    | inr habout => exact .inr habout
    | inl he =>
      cases h.awake hwaiting ⟨e,he,hid⟩ with
      | inl hevent => exact .inl (hset _ hevent)
      | inr habout =>
        obtain ⟨a,habout⟩ := habout
        exact happenders a habout

/-- A subscriber that does not wait is owed no wake-up. -/
theorem Attended.of_awake (hregistered : sub.phase = .closed ∨ i ∈ s.subscriptions)
    (hphase : sub.phase ≠ .waiting) : Attended s i sub :=
  ⟨hregistered,fun hwaiting => absurd hwaiting hphase⟩

/-- The invariant of a state in which one subscriber has been replaced. -/
theorem Inv.replaced (hrecent : s.log.Recent)
    (hothers : ∀ j other, j ≠ i → s.subscribers j = some other →
      Record s.log other ∧ Attended s j other)
    (hrecord : Record s.log sub) (hattended : Attended s i sub) : Inv (s.setSubscriber i sub) := by
  have hall : ∀ j other, (s.setSubscriber i sub).subscribers j = some other →
      Record s.log other ∧ Attended s j other := by
    intro j other hother
    by_cases hji : j = i
    · simp only [State.setSubscriber,hji,Function.update_self,Option.some.injEq] at hother
      rw [hji,← hother]
      exact ⟨hrecord,hattended⟩
    · simp only [State.setSubscriber,Function.update_of_ne hji] at hother
      exact hothers j other hji hother
  refine ⟨hrecent,fun j other hother => (hall j other hother).1,fun j other hother => ?_⟩
  obtain ⟨_,hregistered,hawake⟩ := hall j other hother
  exact ⟨hregistered,hawake⟩

theorem Inv.setSubscriber (h : Inv s) (hrecord : Record s.log sub) (hattended : Attended s i sub) :
    Inv (s.setSubscriber i sub) :=
  Inv.replaced h.recent
    (fun j other _ hother => ⟨h.record j other hother,h.attended j other hother⟩)
    hrecord hattended

theorem Inv.publish (h : Inv s) (payload : P) (hidle : s.appenders a = {}) :
    Inv ({ s with log := s.log.append payload }.setAppender a { pending := s.subscriptions }) where
  recent := h.recent.append payload
  record i sub hsub := (h.record i sub hsub).later h.recent (later_append s.log payload)
  attended i sub hsub := by
    have hattended := h.attended i sub hsub
    refine hattended.mono (fun hmem => hmem) (fun _ hevent => hevent) ?_ ?_
    · intro a' habout
      have hother : a' ≠ a := by
        intro heq
        rw [heq] at habout
        simp [AboutToSet,hidle] at habout
      refine .inr ⟨a',?_⟩
      simpa [AboutToSet,State.setAppender,hother] using habout
    · intro e he _ hwaiting
      refine ((later_append s.log payload).entries e he).imp_right fun _ => ⟨a,.inr ?_⟩
      -- the subscriptions were copied under the lock that published the entry
      have hregistered := hattended.registered.resolve_left (by rw [hwaiting]; simp)
      simpa [State.setAppender] using hregistered

theorem Inv.readEvent (h : Inv s) {pending : List Nat} (hsub : s.subscribers i = some sub)
    (happender : s.appenders a = ⟨i :: pending,none⟩) :
    Inv (s.setAppender a ⟨pending,some sub.event⟩) where
  recent := h.recent
  record := h.record
  attended j other hother := by
    refine (h.attended j other hother).mono (fun hmem => hmem) (fun _ hevent => hevent) ?_
      fun e he _ _ => .inl he
    intro a' habout
    refine .inr ⟨a',?_⟩
    by_cases heq : a' = a
    · rw [heq] at habout ⊢
      simp only [AboutToSet,happender,reduceCtorEq,false_or,List.mem_cons] at habout
      cases habout with
      | inl hji =>
        have hother : s.subscribers j = some other := hother
        rw [hji,hsub,Option.some.injEq] at hother
        simp [AboutToSet,State.setAppender,hother]
      | inr hpending => simp [AboutToSet,State.setAppender,hpending]
    · simpa [AboutToSet,State.setAppender,heq] using habout

theorem Inv.setEvent (h : Inv s) {pending : List Nat} {event : Nat}
    (happender : s.appenders a = ⟨pending,some event⟩) :
    Inv ({ s with setEvents := event :: s.setEvents }.setAppender a ⟨pending,none⟩) where
  recent := h.recent
  record := h.record
  attended j other hother := by
    refine (h.attended j other hother).mono (fun hmem => hmem)
      (fun _ hevent => List.mem_cons_of_mem _ hevent) ?_ fun e he _ _ => .inl he
    intro a' habout
    by_cases heq : a' = a
    · rw [heq] at habout
      simp only [AboutToSet,happender,Option.some.injEq] at habout
      cases habout with
      | inl hevent =>
        rw [← hevent]
        exact .inl List.mem_cons_self
      | inr hpending => exact .inr ⟨a,by simp [AboutToSet,State.setAppender,hpending]⟩
    · refine .inr ⟨a',?_⟩
      simpa [AboutToSet,State.setAppender,heq] using habout

theorem Inv.resize (h : Inv s) (n : Nat) : Inv { s with log := s.log.resize n } where
  recent := h.recent.resize n
  record i sub hsub := (h.record i sub hsub).later h.recent (later_resize s.log n)
  attended i sub hsub := by
    refine (h.attended i sub hsub).mono (fun hmem => hmem) (fun _ hevent => hevent)
      (fun a habout => .inr ⟨a,habout⟩) ?_
    intro e he _ _
    rw [Log.resize,QueryLogStore.resize_entries] at he
    exact .inl ((Log.newest_suffix _ _).subset he)

theorem record_new (l : Log P) (afterId : Option Int) (event : Nat) :
    Record l { afterId, lastSeenId := startId afterId, event, phase := .looking } := by
  refine ⟨Nat.le_refl _,.inl rfl,?_,?_,?_,?_,?_,?_,?_⟩
  · simp [Phase.items]
  · simp [Phase.items]
  · simp
  · simp [Phase.items]
  · intro e _ hstart hseen
    simp only [Subscriber.start] at hstart hseen
    omega
  · simp [Phase.items]
  · simp

theorem Inv.subscribe (h : Inv s) (i : Nat) (afterId : Option Int) :
    Inv ({ s with
      subscriptions := s.subscriptions ++ [i]
      nextEvent := s.nextEvent+1 }.setSubscriber i
        { afterId, lastSeenId := startId afterId, event := s.nextEvent, phase := .looking }) := by
  have hgrown : Inv { s with
      subscriptions := s.subscriptions ++ [i]
      nextEvent := s.nextEvent+1 } :=
    { recent := h.recent
      record := h.record
      attended := fun j other hother => (h.attended j other hother).mono
        (fun hmem => List.mem_append_left _ hmem) (fun _ hevent => hevent)
        (fun a habout => .inr ⟨a,habout⟩) fun e he _ _ => .inl he }
  refine hgrown.setSubscriber (record_new _ _ _) (Attended.of_awake (.inr ?_) (by simp))
  exact List.mem_append_right _ (List.mem_singleton_self i)

theorem Inv.close (h : Inv s) (hsub : s.subscribers i = some sub) :
    Inv ({ s with subscriptions := s.subscriptions.erase i }.setSubscriber i
      { sub with phase := .closed }) := by
  refine Inv.replaced h.recent (fun j other hji hother => ?_)
    ((h.record i sub hsub).rephase rfl sub.event) (Attended.of_awake (.inl rfl) (by simp))
  refine ⟨h.record j other hother,?_⟩
  exact (h.attended j other hother).mono (fun hmem => (List.mem_erase_of_ne hji).mpr hmem)
    (fun _ hevent => hevent) (fun a habout => .inr ⟨a,habout⟩) fun e he _ _ => .inl he

/-- What a subscriber's own step keeps. It waits only after a look that found nothing. -/
structure Moves (l : Log P) (sub sub' : Subscriber P) : Prop where
  notClosed : sub.phase ≠ .closed
  record : Record l sub'
  nothing : sub'.phase = .waiting → ∀ e ∈ l.store.entries, e.id ≤ sub'.lastSeenId

theorem Record.lookAt_moves {l : Log P} (h : Record l sub) (hl : l.Recent) {empty : Phase P}
    (hopen : sub.phase ≠ .closed) (hempty : empty.items = []) :
    Moves l sub (sub.lookAt l empty) where
  notClosed := hopen
  record := h.lookAt hl hempty
  nothing := by
    intro hwaiting e he
    have hitems := lookAt_items (l:=l) hempty sub
    rw [hwaiting] at hitems
    by_contra hlt
    have hfound : e ∈ entriesAfter l.store sub.lastSeenId :=
      mem_entriesAfter.mpr ⟨he,Nat.lt_of_not_le hlt⟩
    rw [← hitems] at hfound
    cases hfound

theorem Record.rephase_moves {l : Log P} (h : Record l sub) (hopen : sub.phase ≠ .closed)
    {phase : Phase P} (hphase : phase.items = []) (hwaiting : phase ≠ .waiting) (event : Nat) :
    Moves l sub { sub with event, phase } :=
  ⟨hopen,h.rephase hphase event,fun heq => absurd heq hwaiting⟩

theorem Record.looks_moves {l : Log P} (h : Record l sub) (hl : l.Recent) {sub' : Subscriber P}
    (hstep : sub.looks l = some sub') : Moves l sub sub' := by
  unfold Subscriber.looks at hstep
  split at hstep
  · rename_i hphase
    cases hstep
    exact h.lookAt_moves hl (by rw [hphase]; simp) rfl
  · contradiction

theorem Record.looksAgain_moves {l : Log P} (h : Record l sub) (hl : l.Recent)
    {sub' : Subscriber P} (hstep : sub.looksAgain l = some sub') : Moves l sub sub' := by
  unfold Subscriber.looksAgain at hstep
  split at hstep
  · rename_i hphase
    cases hstep
    exact h.lookAt_moves hl (by rw [hphase]; simp) rfl
  · contradiction

theorem Record.renews_moves {l : Log P} (h : Record l sub) {event : Nat} {sub' : Subscriber P}
    (hstep : sub.renews event = some sub') : Moves l sub sub' := by
  unfold Subscriber.renews at hstep
  split at hstep
  · rename_i hphase
    cases hstep
    exact h.rephase_moves (by rw [hphase]; simp) rfl (by simp) event
  · contradiction

theorem Record.stopsWaiting_moves {l : Log P} (h : Record l sub) {sub' : Subscriber P}
    (hstep : sub.stopsWaiting = some sub') : Moves l sub sub' := by
  unfold Subscriber.stopsWaiting at hstep
  split at hstep
  · rename_i hphase
    cases hstep
    exact h.rephase_moves (by rw [hphase]; simp) rfl (by simp) sub.event
  · contradiction

theorem Record.hasYielded_moves {l : Log P} (h : Record l sub) {sub' : Subscriber P}
    (hstep : sub.hasYielded = some sub') : Moves l sub sub' := by
  unfold Subscriber.hasYielded at hstep
  split at hstep
  · rename_i hphase
    cases hstep
    exact h.rephase_moves (by rw [hphase]; simp) rfl (by simp) sub.event
  · contradiction

theorem Record.yields_moves {l : Log P} (h : Record l sub) (hl : l.Recent) {sub' : Subscriber P}
    (hstep : sub.yields = some sub') : Moves l sub sub' := by
  unfold Subscriber.yields at hstep
  split at hstep
  · rename_i item items hphase
    cases hstep
    exact ⟨by rw [hphase]; simp,h.yields hl hphase,by simp⟩
  · contradiction

/-- A subscriber that is not closed stays registered in its other steps. -/
theorem Inv.advanced (h : Inv s) {f : Subscriber P → Option (Subscriber P)}
    (hf : ∀ sub sub', Record s.log sub → f sub = some sub' → Moves s.log sub sub')
    (hstep : s.advance i f = some s') : Inv s' := by
  obtain ⟨sub,sub',hsub,hsub',rfl⟩ := advance_eq_some.mp hstep
  obtain ⟨hopen,hrecord,hnothing⟩ := hf sub sub' (h.record i sub hsub) hsub'
  refine h.setSubscriber hrecord ⟨.inr ?_,fun hwaiting hheld => ?_⟩
  · exact (h.attended i sub hsub).registered.resolve_left hopen
  · obtain ⟨e,he,hid⟩ := hheld
    have hseen := hnothing hwaiting e he
    omega

theorem Inv.nextEvent (h : Inv s) (n : Nat) : Inv { s with nextEvent := n } :=
  ⟨h.recent,h.record,fun i sub hsub =>
    ⟨(h.attended i sub hsub).registered,(h.attended i sub hsub).awake⟩⟩

theorem Inv.step {label : Label P} (h : Inv s) (hstep : step s label = some s') : Inv s' := by
  cases label with
  | publish a payload =>
    simp only [QueryLog.step,Option.ite_none_right_eq_some,Option.some.injEq] at hstep
    obtain ⟨hidle,rfl⟩ := hstep
    exact h.publish payload hidle
  | readEvent a =>
    simp only [QueryLog.step] at hstep
    split at hstep
    · rename_i i pending happender
      obtain ⟨sub,hsub,rfl⟩ := Option.map_eq_some_iff.mp hstep
      exact h.readEvent hsub happender
    · contradiction
  | setEvent a =>
    simp only [QueryLog.step] at hstep
    split at hstep
    · rename_i pending event happender
      cases hstep
      exact h.setEvent happender
    · contradiction
  | resize n =>
    cases hstep
    exact h.resize n
  | subscribe i afterId =>
    simp only [QueryLog.step] at hstep
    split at hstep
    · contradiction
    · cases hstep
      exact h.subscribe i afterId
  | look i => exact h.advanced (fun _ _ hrecord => hrecord.looks_moves h.recent) hstep
  | renew i => exact (h.nextEvent _).advanced (fun _ _ hrecord => hrecord.renews_moves) hstep
  | lookAgain i => exact h.advanced (fun _ _ hrecord => hrecord.looksAgain_moves h.recent) hstep
  | wake i =>
    refine h.advanced (fun sub sub' hrecord hwake => ?_) hstep
    obtain ⟨_,hwake⟩ := Option.ite_none_right_eq_some.mp hwake
    exact hrecord.stopsWaiting_moves hwake
  | heartbeat i => exact h.advanced (fun _ _ hrecord => hrecord.stopsWaiting_moves) hstep
  | yieldItem i => exact h.advanced (fun _ _ hrecord => hrecord.yields_moves h.recent) hstep
  | yieldedAll i => exact h.advanced (fun _ _ hrecord => hrecord.hasYielded_moves) hstep
  | close i =>
    obtain ⟨sub,sub',hsub,hclose,rfl⟩ := advance_eq_some.mp hstep
    unfold Subscriber.closes at hclose
    split at hclose
    · contradiction
    · cases hclose
      exact h.close hsub

theorem inv_init (maxEntries : Nat) : Inv (State.init maxEntries : State P) where
  recent := ⟨List.suffix_rfl,rfl,rfl⟩
  record _ _ hsub := by cases hsub
  attended _ _ hsub := by cases hsub

/-- Ids begin at 1, so that a start at 0 or below leaves nothing out. -/
theorem Subscriber.wants_iff {e : QueryLogEntry P} (he : 1 ≤ e.id) :
    sub.Wants e ↔ sub.start < e.id := by
  unfold Subscriber.Wants Subscriber.start startId
  cases sub.afterId with
  | none =>
    simp
    omega
  | some afterId =>
    simp
    omega

theorem Inv.delivers (h : Inv s) (hsub : s.subscribers i = some sub) : Delivers s i sub := by
  have hrecord := h.record i sub hsub
  have hwants : ∀ e ∈ s.log.appended, sub.Wants e ↔ sub.start < e.id := fun e he =>
    Subscriber.wants_iff (h.recent.id_lt he).1
  have hknown : ∀ e ∈ sub.yielded, e ∈ s.log.appended := fun e he =>
    hrecord.known e (List.mem_append_left _ he)
  have hmissed : ∀ e ∈ sub.missed, ∀ held ∈ s.log.store.entries, held ≠ e := by
    intro e he held hheld heq
    exact (hrecord.missed e he).2 held hheld (congrArg QueryLogEntry.id heq)
  refine ⟨(List.pairwise_append.mp hrecord.increasing).1,?_,?_,hmissed,?_⟩
  · intro e he
    exact (hwants e (hknown e he)).mpr (hrecord.yielded e he).1
  · intro e he hwant hnot hlater
    obtain ⟨later,hlater,hlt⟩ := hlater
    have hseen := (hrecord.yielded later hlater).2
    exact (hrecord.covered e he ((hwants e he).mp hwant) (by omega)).resolve_left hnot
  · intro hwaiting hunset hheld
    obtain ⟨e,he,hwant,hnot⟩ := hheld
    have happended := h.recent.held_appended he
    have hunseen : sub.lastSeenId < e.id := by
      by_contra hseen
      have hcovered := hrecord.covered e happended ((hwants e happended).mp hwant) (by omega)
      exact hmissed e (hcovered.resolve_left hnot) e he rfl
    exact ((h.attended i sub hsub).awake hwaiting ⟨e,he,hunseen⟩).resolve_left hunset

/-- Only an append or a resize touches the log. -/
theorem step_log {label : Label P} (h : step s label = some s') :
    s'.log = label.storeOp.elim s.log s.log.apply := by
  cases label with
  | publish a payload =>
    simp only [QueryLog.step,Option.ite_none_right_eq_some,Option.some.injEq] at h
    obtain ⟨-,rfl⟩ := h
    rfl
  | readEvent a =>
    simp only [QueryLog.step] at h
    split at h
    · obtain ⟨_,_,rfl⟩ := Option.map_eq_some_iff.mp h
      rfl
    · cases h
  | setEvent a =>
    simp only [QueryLog.step] at h
    split at h <;> cases h
    rfl
  | resize n =>
    cases h
    rfl
  | subscribe i afterId =>
    simp only [QueryLog.step] at h
    split at h <;> cases h
    rfl
  | look i | lookAgain i | wake i | heartbeat i | yieldItem i | yieldedAll i | renew i | close i =>
    obtain ⟨_,_,_,_,rfl⟩ := advance_eq_some.mp h
    rfl

theorem run_log {labels : List (Label P)} (h : Transition.run step s labels = some s') :
    s'.log = (labels.filterMap Label.storeOp).foldl Log.apply s.log := by
  induction labels generalizing s with
  | nil =>
    cases h
    rfl
  | cons label labels ih =>
    obtain ⟨mid,hmid,hrest⟩ := Option.bind_eq_some_iff.mp h
    rw [ih hrest,step_log hmid]
    cases hop : label.storeOp with
    | none =>
      rw [List.filterMap_cons_none hop]
      rfl
    | some op =>
      rw [List.filterMap_cons_some hop]
      rfl

end

/-- The store holds what was appended last, under its own operations and in every
interleaving of appenders and subscribers; each subscriber is given what it wants once and in
order, misses only what was gone when it looked, and does not sleep over an entry. -/
theorem queryLog_delivers (maxEntries : Nat) :
    (∀ ops : List (StoreOp P),
      HoldsRecent maxEntries ops (ops.foldl StoreOp.apply (QueryLogStore.new maxEntries))) ∧
    ∀ (labels : List (Label P)) (s : State P),
      Transition.run step (State.init maxEntries) labels = some s →
      HoldsRecent maxEntries (labels.filterMap Label.storeOp) s.log.store ∧
        s.log.appended = numbered (payloads (labels.filterMap Label.storeOp)) ∧
        ∀ i sub, s.subscribers i = some sub → Delivers s i sub := by
  refine ⟨foldl_apply_holds maxEntries,fun labels s h => ?_⟩
  have hlog := run_log h
  have hinv : Inv s := (Transition.always_of_step (inv_init maxEntries)
    fun _ _ _ h hstep => h.step hstep).final h
  rw [State.init,(foldl_apply_recent maxEntries _).2.1] at hlog
  refine ⟨?_,congrArg Log.appended hlog,fun i sub hsub => hinv.delivers hsub⟩
  rw [hlog]
  exact foldl_apply_holds maxEntries _

end SmartDns.QueryLog
