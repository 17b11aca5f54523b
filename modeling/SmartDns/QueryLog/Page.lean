import SmartDns.Lib.EventStream
import SmartDns.Lib.JsonWriter
import SmartDns.QueryLog.Subscription
import Mathlib.Data.List.Infix
set_option autoImplicit false

/-!
The page with the query log. It shows the newest entries, then opens a stream behind the last of
them and appends what comes in its events. The text of the stream arrives in pieces of any length;
when it breaks off the browser opens it again, under the address that it had.
-/

namespace SmartDns.QueryPage

open EventStream (Reader StreamEvent message)
open QueryLog (Log Subscriber entriesAfter Record)

structure QueryLogPayload (F : Type) where
  timestampMs : ℤ
  qname : List Char
  qtype : List Char
  listener : List Char
  rcode : List Char
  resultSummary : List Char
  upstream : Option (List Char) := none
  durationMs : Option F := none
  deriving DecidableEq

abbrev Entry (F : Type) := QueryLogEntry (QueryLogPayload F)

variable {F : Type}

/-! ### The endpoints -/

/-- `list_recent`. -/
def listRecent (s : QueryLogStore (QueryLogPayload F)) (limit : ℕ) : List (Entry F) :=
  if limit = 0 then [] else QueryLogStore.newest (min limit s.maxEntries) s.entries

def queryLogsApi (s : QueryLogStore (QueryLogPayload F)) (limit : ℕ) : List (Entry F) :=
  listRecent s (min limit s.maxEntries)

/-- `json.dumps` of the fields in the order of the models. -/
def entryJson (floatText : F → List Char) (item : Entry F) : List Char :=
  let payload := item.payload
  JsonWriter.object
    [("timestamp_ms".toList,JsonWriter.int payload.timestampMs),
     ("qname".toList,JsonWriter.string payload.qname),
     ("qtype".toList,JsonWriter.string payload.qtype),
     ("listener".toList,JsonWriter.string payload.listener),
     ("rcode".toList,JsonWriter.string payload.rcode),
     ("result_summary".toList,JsonWriter.string payload.resultSummary),
     ("upstream".toList,(payload.upstream.map JsonWriter.string).getD JsonWriter.null),
     ("duration_ms".toList,(payload.durationMs.map floatText).getD JsonWriter.null),
     ("id".toList,JsonWriter.int item.id)]

/-- What `event_stream` writes of an item. -/
def itemText (floatText : F → List Char) : Option (Entry F) → List Char
  | none => EventStream.comment " ping".toList
  | some item => message (Nat.toDigits 10 item.id) "query".toList (entryJson floatText item)

/-! ### The script -/

structure Page (F : Type) where
  lastId : Option ℕ := none
  rows : List (Entry F) := []

def trimRows {α : Type} (pageSize : ℕ) : List α → List α
  | [] => []
  | row :: rows => if (row :: rows).length > pageSize then trimRows pageSize rows else row :: rows

def Page.appendRow (pageSize : ℕ) (page : Page F) (item : Entry F) : Page F where
  lastId := some item.id
  rows := trimRows pageSize (page.rows ++ [item])

/-- The text that was written and has not arrived is in `transit`. -/
structure Connection (F : Type) where
  subscriber : ℕ
  transit : List Char := []
  reader : Reader := {}
  shown : List (Entry F) := []

/-- `loaded` has what `loadInitialLogs` got, once it did, and `url` the `after_id` of the stream
once there is one. `shown` in a connection and `earlier` for those before it are no variables of the
script: the items of the events they brought. -/
structure Site (F : Type) where
  server : QueryLog.State (QueryLogPayload F)
  page : Page F := {}
  loaded : Option (List (Entry F)) := none
  url : Option (Option ℕ) := none
  connection : Option (Connection F) := none
  earlier : List (Entry F) := []

inductive Label (F : Type) where
  | server (label : QueryLog.Label (QueryLogPayload F))
  | loadInitialLogs
  | connectStream
  | open (subscriber : ℕ)
  | receive (n : ℕ)
  | broken

/-- What a step of the server lets a subscriber's stream write, if anything. -/
def written (s : QueryLog.State (QueryLogPayload F)) (i : ℕ) :
    QueryLog.Label (QueryLogPayload F) → Option (Option (Entry F))
  | .yieldItem j =>
    if j = i then (s.subscribers i).bind fun sub => sub.phase.items.head?.map some else none
  | .heartbeat j => if j = i then some none else none
  | _ => none

def Connection.write (floatText : F → List Char) (c : Connection F)
    (item : Option (Option (Entry F))) : Connection F :=
  match item with
  | none => c
  | some item => { c with transit := c.transit ++ itemText floatText item }

/-- The listener of `query` events. -/
def received (parse : List Char → Option (Entry F)) (event : StreamEvent) : Option (Entry F) :=
  if event.type = "query".toList then parse event.data else none

/-- What the page makes of text that arrives. -/
def Connection.receive (parse : List Char → Option (Entry F)) (c : Connection F) (n : ℕ) :
    Connection F × List (Entry F) :=
  let reader := c.reader.read (c.transit.take n)
  let items := (reader.events.drop c.reader.events.length).filterMap (received parse)
  ({ c with transit := c.transit.drop n, reader, shown := c.shown ++ items },items)

/-- `pageSize` is the page's, `floatText` how a float is written and `parse` is `JSON.parse`. -/
structure Script (F : Type) where
  pageSize : ℕ
  floatText : F → List Char
  parse : List Char → Option (Entry F)

def step (k : Script F) (s : Site F) : Label F → Option (Site F)
  | .server label => (QueryLog.step s.server label).map fun server =>
    { s with
      server
      connection := s.connection.map fun c =>
        c.write k.floatText (written s.server c.subscriber label) }
  | .loadInitialLogs =>
    match s.loaded with
    | some _ => none
    | none =>
      let items := queryLogsApi s.server.log.store k.pageSize
      some { s with
        page := items.foldl (Page.appendRow k.pageSize) { s.page with rows := [] }
        loaded := some items }
  | .connectStream =>
    match s.loaded,s.url with
    | some _,none => some { s with url := some s.page.lastId }
    | _,_ => none
  | .open i =>
    match s.url,s.connection with
    | some afterId,none =>
      (QueryLog.step s.server (.subscribe i (afterId.map Int.ofNat))).map fun server =>
        { s with server, connection := some { subscriber := i } }
    | _,_ => none
  | .receive n => s.connection.map fun c =>
    let (connection,items) := c.receive k.parse n
    { s with
      page := items.foldl (Page.appendRow k.pageSize) s.page
      connection := some connection }
  | .broken => s.connection.map fun c =>
    { s with connection := none, earlier := s.earlier ++ c.shown }

def Site.init (maxEntries : ℕ) : Site F := { server := .init maxEntries }

/-! ### What the page shows -/

def Site.first (s : Site F) : List (Entry F) := s.loaded.getD []

def Site.shown (s : Site F) : List (Entry F) := (s.connection.map Connection.shown).getD []

/-- All that the page was given, in its order. -/
def Site.items (s : Site F) : List (Entry F) := s.first ++ (s.earlier ++ s.shown)

/-- What a connection brings goes on behind what was loaded. -/
structure Follows (s : QueryLog.State (QueryLogPayload F)) (first : List (Entry F))
    (c : Connection F) (sub : Subscriber (QueryLogPayload F)) : Prop where
  subscriber : s.subscribers c.subscriber = some sub
  increasing : (first ++ c.shown).Pairwise fun a b => a.id < b.id
  shown : c.shown <+: sub.yielded
  arrived : c.transit = [] → c.shown = sub.yielded
  complete : ∀ e ∈ s.log.appended, (∀ a ∈ first.head?, a.id ≤ e.id) →
    (∃ b ∈ c.shown, e.id ≤ b.id) → e ∈ first ++ c.shown ∨ e ∉ s.log.store.entries
  current : c.transit = [] → sub.phase = .waiting → sub.event ∉ s.setEvents →
    (∀ a, ¬ QueryLog.AboutToSet s a c.subscriber sub.event) →
    ∀ e ∈ s.log.store.entries, (∀ a ∈ first.head?, a.id ≤ e.id) → e ∈ first ++ c.shown

structure Shows (pageSize : ℕ) (s : Site F) : Prop where
  rows : s.page.rows = QueryLogStore.newest pageSize s.items
  known : ∀ e ∈ s.items, e ∈ s.server.log.appended
  connected : ∀ c, s.connection = some c → ∃ sub, Follows s.server s.first c sub

/-! ### Rows -/

theorem newest_cons {α : Type} {n : ℕ} {x : α} {l : List α} (h : (x :: l).length > n) :
    QueryLogStore.newest n (x :: l) = QueryLogStore.newest n l := by
  have hlength : (x :: l).length-n = (l.length-n)+1 := by
    rw [List.length_cons] at h ⊢
    omega
  rw [QueryLogStore.newest,hlength,List.drop_succ_cons,QueryLogStore.newest]

theorem trimRows_eq {α : Type} (n : ℕ) (rows : List α) :
    trimRows n rows = QueryLogStore.newest n rows := by
  induction rows with
  | nil => exact List.drop_nil.symm
  | cons row rows ih =>
    unfold trimRows
    split
    · rename_i hlong
      rw [ih,newest_cons hlong]
    · rename_i hfits
      exact (QueryLogStore.newest_of_length_le (by omega)).symm

theorem newest_newest_append {α : Type} (n : ℕ) (l : List α) (x : α) :
    QueryLogStore.newest n (QueryLogStore.newest n l ++ [x]) =
      QueryLogStore.newest n (l ++ [x]) := by
  induction l with
  | nil =>
    have hnil : QueryLogStore.newest n ([] : List α) = [] := List.drop_nil
    rw [hnil]
  | cons y l ih =>
    by_cases hlong : (y :: l).length > n
    · have hlonger : (y :: (l ++ [x])).length > n := by
        rw [← List.cons_append,List.length_append]
        omega
      rw [newest_cons hlong,ih,List.cons_append,newest_cons hlonger]
    · rw [QueryLogStore.newest_of_length_le (l:=y :: l) (by omega)]

variable {k : Script F} {page : Page F}

theorem appendRows {base : List (Entry F)} (items : List (Entry F))
    (h : page.rows = QueryLogStore.newest k.pageSize base) :
    (items.foldl (Page.appendRow k.pageSize) page).rows =
      QueryLogStore.newest k.pageSize (base ++ items) := by
  induction items generalizing page base with
  | nil => rwa [List.append_nil]
  | cons item items ih =>
    have hone : (page.appendRow k.pageSize item).rows =
        QueryLogStore.newest k.pageSize (base ++ [item]) := by
      rw [Page.appendRow,trimRows_eq,h,newest_newest_append]
    rw [List.foldl_cons,ih hone,List.append_assoc,List.singleton_append]

theorem appendRows_lastId (items : List (Entry F)) :
    (items.foldl (Page.appendRow k.pageSize) page).lastId =
      (items.getLast?.map QueryLogEntry.id).or page.lastId := by
  induction items generalizing page with
  | nil => rfl
  | cons item items ih =>
    rw [List.foldl_cons,ih]
    cases items with
    | nil => rfl
    | cons next items =>
      rw [List.getLast?_cons_cons]
      cases hlast : (next :: items).getLast? with
      | none => simp at hlast
      | some last => rfl

/-! ### The server's steps -/

section
variable {s s' : QueryLog.State (QueryLogPayload F)} {i j : ℕ}
  {sub sub' : Subscriber (QueryLogPayload F)} {label : QueryLog.Label (QueryLogPayload F)}

theorem step_appended (hstep : QueryLog.step s label = some s') :
    s.log.appended <+: s'.log.appended := by
  rw [QueryLog.step_log hstep]
  cases label with
  | publish a payload => exact List.prefix_append _ _
  | _ => exact List.prefix_rfl

/-- A step of another subscriber, or one that the function makes of this one. -/
theorem advance_subscriber
    {f : Subscriber (QueryLogPayload F) → Option (Subscriber (QueryLogPayload F))}
    (h : s.advance j f = some s') (hsub : s.subscribers i = some sub) :
    (j = i ∧ ∃ sub', f sub = some sub' ∧ s'.subscribers i = some sub') ∨
      (j ≠ i ∧ s'.subscribers i = some sub) := by
  obtain ⟨sub₀,sub',hsub₀,hf,rfl⟩ := QueryLog.advance_eq_some.mp h
  by_cases hj : j = i
  · cases hj
    cases hsub.symm.trans hsub₀
    exact .inl ⟨rfl,sub',hf,by simp [QueryLog.State.setSubscriber]⟩
  · refine .inr ⟨hj,?_⟩
    simpa [QueryLog.State.setSubscriber,Function.update_of_ne (Ne.symm hj)] using hsub

/-- The subscriber is still at work on the same request, and has yielded the items. -/
structure Yields (sub sub' : Subscriber (QueryLogPayload F)) (items : List (Entry F)) : Prop where
  afterId : sub'.afterId = sub.afterId
  yielded : sub'.yielded = sub.yielded ++ items

theorem Yields.same (sub : Subscriber (QueryLogPayload F)) : Yields sub sub [] :=
  ⟨rfl,(List.append_nil _).symm⟩

theorem Yields.phase (sub : Subscriber (QueryLogPayload F)) (event : ℕ)
    (phase : QueryLog.Phase (QueryLogPayload F)) (missed : List (Entry F)) :
    Yields sub { sub with event, phase, missed } [] :=
  ⟨rfl,(List.append_nil _).symm⟩

theorem looks_yields {l : Log (QueryLogPayload F)} (h : sub.looks l = some sub') :
    Yields sub sub' [] := by
  unfold Subscriber.looks at h
  split at h
  · cases h
    exact .phase sub _ _ _
  · cases h

theorem looksAgain_yields {l : Log (QueryLogPayload F)} (h : sub.looksAgain l = some sub') :
    Yields sub sub' [] := by
  unfold Subscriber.looksAgain at h
  split at h
  · cases h
    exact .phase sub _ _ _
  · cases h

theorem renews_yields {event : ℕ} (h : sub.renews event = some sub') : Yields sub sub' [] := by
  unfold Subscriber.renews at h
  split at h
  · cases h
    exact .phase sub _ _ _
  · cases h

theorem stopsWaiting_yields (h : sub.stopsWaiting = some sub') : Yields sub sub' [] := by
  unfold Subscriber.stopsWaiting at h
  split at h
  · cases h
    exact .phase sub _ _ _
  · cases h

theorem hasYielded_yields (h : sub.hasYielded = some sub') : Yields sub sub' [] := by
  unfold Subscriber.hasYielded at h
  split at h
  · cases h
    exact .phase sub _ _ _
  · cases h

theorem closes_yields (h : sub.closes = some sub') : Yields sub sub' [] := by
  unfold Subscriber.closes at h
  split at h
  · cases h
  · cases h
    exact .phase sub _ _ _

theorem yields_yields (h : sub.yields = some sub') :
    ∃ item, sub.phase.items.head? = some item ∧ Yields sub sub' [item] := by
  unfold Subscriber.yields at h
  split at h
  · rename_i item items hphase
    cases h
    exact ⟨item,by rw [hphase]; rfl,rfl,rfl⟩
  · cases h

/-- The items of what is written, none in a heartbeat. -/
def writtenItems (s : QueryLog.State (QueryLogPayload F)) (i : ℕ)
    (label : QueryLog.Label (QueryLogPayload F)) : List (Entry F) :=
  ((written s i label).bind id).toList

theorem advance_yields
    {f : Subscriber (QueryLogPayload F) → Option (Subscriber (QueryLogPayload F))}
    (h : s.advance j f = some s') (hsub : s.subscribers i = some sub)
    (hf : ∀ sub', f sub = some sub' → Yields sub sub' []) :
    ∃ sub', s'.subscribers i = some sub' ∧ Yields sub sub' [] := by
  obtain ⟨-,sub',hsub',hnew⟩ | ⟨-,hold⟩ := advance_subscriber h hsub
  · exact ⟨sub',hnew,hf sub' hsub'⟩
  · exact ⟨sub,hold,.same sub⟩

theorem step_yields (hstep : QueryLog.step s label = some s') (hsub : s.subscribers i = some sub) :
    ∃ sub', s'.subscribers i = some sub' ∧ Yields sub sub' (writtenItems s i label) := by
  cases label with
  | publish a payload =>
    simp only [QueryLog.step,Option.ite_none_right_eq_some,Option.some.injEq] at hstep
    obtain ⟨-,rfl⟩ := hstep
    exact ⟨sub,hsub,.same sub⟩
  | readEvent a =>
    simp only [QueryLog.step] at hstep
    split at hstep
    · obtain ⟨_,-,rfl⟩ := Option.map_eq_some_iff.mp hstep
      exact ⟨sub,hsub,.same sub⟩
    · cases hstep
  | setEvent a =>
    simp only [QueryLog.step] at hstep
    split at hstep
    · cases hstep
      exact ⟨sub,hsub,.same sub⟩
    · cases hstep
  | resize n =>
    cases hstep
    exact ⟨sub,hsub,.same sub⟩
  | subscribe j afterId =>
    simp only [QueryLog.step] at hstep
    split at hstep
    · cases hstep
    · rename_i hnew
      cases hstep
      have hj : i ≠ j := by
        rintro rfl
        rw [hsub] at hnew
        cases hnew
      refine ⟨sub,?_,.same sub⟩
      simpa [QueryLog.State.setSubscriber,Function.update_of_ne hj] using hsub
  | look j => exact advance_yields hstep hsub fun _ => looks_yields
  | renew j =>
    exact advance_yields (s:={ s with nextEvent := s.nextEvent+1 }) hstep hsub fun _ =>
      renews_yields
  | lookAgain j => exact advance_yields hstep hsub fun _ => looksAgain_yields
  | wake j =>
    refine advance_yields hstep hsub fun sub' h => ?_
    exact stopsWaiting_yields (Option.ite_none_right_eq_some.mp h).2
  | heartbeat j =>
    have hnothing : writtenItems s i (.heartbeat j) = [] := by
      simp only [writtenItems,written]
      split <;> rfl
    rw [hnothing]
    exact advance_yields hstep hsub fun _ => stopsWaiting_yields
  | yieldItem j =>
    obtain ⟨rfl,sub',hsub',hnew⟩ | ⟨hj,hold⟩ := advance_subscriber hstep hsub
    · obtain ⟨item,hitem,hyields⟩ := yields_yields hsub'
      have hitems : writtenItems s j (.yieldItem j) = [item] := by
        simp [writtenItems,written,hsub,hitem]
      exact ⟨sub',hnew,hitems ▸ hyields⟩
    · have hitems : writtenItems s i (.yieldItem j) = [] := by
        simp [writtenItems,written,hj]
      exact ⟨sub,hold,hitems ▸ .same sub⟩
  | yieldedAll j => exact advance_yields hstep hsub fun _ => hasYielded_yields
  | close j =>
    exact advance_yields (s:={ s with subscriptions := s.subscriptions.erase j }) hstep hsub
      fun _ => closes_yields

end

/-! ### One connection -/

/-- The event of an item. -/
def streamEvent (floatText : F → List Char) (item : Entry F) : StreamEvent :=
  ⟨"query".toList,entryJson floatText item,Nat.toDigits 10 item.id⟩

/-- The text of a stream, as far as it has been written, is that of what the subscriber yielded;
the part that has arrived is shown. -/
structure Carries (k : Script F) (first : List (Entry F)) (s : QueryLog.State (QueryLogPayload F))
    (c : Connection F) (sub : Subscriber (QueryLogPayload F)) : Prop where
  subscriber : s.subscribers c.subscriber = some sub
  afterId : sub.afterId = (first.getLast?.map QueryLogEntry.id).map Int.ofNat
  idle : (c.reader.read c.transit).Idle
  events : (c.reader.read c.transit).events = sub.yielded.map (streamEvent k.floatText)
  shown : c.shown = sub.yielded.take c.reader.events.length

theorem printed_plain {text : List Char} (h : JsonWriter.Printed text) : Reader.Plain text := by
  intro c hc
  have hprinted := h c hc
  constructor
  · rintro rfl
    exact absurd hprinted (by decide)
  · rintro rfl
    exact absurd hprinted (by decide)

theorem entryJson_printed {floatText : F → List Char}
    (hfloat : ∀ x, JsonWriter.Printed (floatText x)) (item : Entry F) :
    JsonWriter.Printed (entryJson floatText item) := by
  refine JsonWriter.object_printed ?_
  have hnull : JsonWriter.Printed JsonWriter.null := JsonWriter.printed_of_all (by decide)
  have hupstream : JsonWriter.Printed
      ((item.payload.upstream.map JsonWriter.string).getD JsonWriter.null) := by
    cases item.payload.upstream with
    | none => exact hnull
    | some upstream => exact JsonWriter.string_printed upstream
  have hduration : JsonWriter.Printed
      ((item.payload.durationMs.map floatText).getD JsonWriter.null) := by
    cases item.payload.durationMs with
    | none => exact hnull
    | some duration => exact hfloat duration
  simp only [List.forall_mem_cons,List.not_mem_nil,false_imp_iff,implies_true,and_true]
  exact ⟨JsonWriter.int_printed _,JsonWriter.string_printed _,JsonWriter.string_printed _,
    JsonWriter.string_printed _,JsonWriter.string_printed _,JsonWriter.string_printed _,hupstream,
    hduration,JsonWriter.int_printed _⟩

section
variable {s s' : QueryLog.State (QueryLogPayload F)} {first : List (Entry F)} {c : Connection F}
  {sub : Subscriber (QueryLogPayload F)} {label : QueryLog.Label (QueryLogPayload F)}

theorem Carries.read (h : Carries k first s c sub) :
    c.reader.events.length ≤ sub.yielded.length := by
  have hread := (Reader.read_events c.reader c.transit).length_le
  rwa [h.events,List.length_map] at hread

@[simp] theorem Connection.write_shown (floatText : F → List Char)
    (item : Option (Option (Entry F))) : (c.write floatText item).shown = c.shown := by
  cases item <;> rfl

theorem Carries.step (h : Carries k first s c sub)
    (hfloat : ∀ x, JsonWriter.Printed (k.floatText x)) (hstep : QueryLog.step s label = some s') :
    ∃ sub', Carries k first s' (c.write k.floatText (written s c.subscriber label)) sub' := by
  obtain ⟨sub',hsub',hafter,hyielded⟩ := step_yields hstep h.subscriber
  have htake (items : List (Entry F)) :
      (sub.yielded ++ items).take c.reader.events.length = c.shown := by
    rw [List.take_append_of_le_length h.read,h.shown]
  unfold writtenItems at hyielded
  cases hwritten : written s c.subscriber label with
  | none =>
    rw [hwritten] at hyielded
    have hsame : sub'.yielded = sub.yielded := hyielded.trans (List.append_nil _)
    exact ⟨sub',hsub',hafter.trans h.afterId,h.idle,hsame ▸ h.events,hsame ▸ h.shown⟩
  | some item =>
    rw [hwritten] at hyielded
    cases item with
    | none =>
      have hsame : sub'.yielded = sub.yielded := hyielded.trans (List.append_nil _)
      have hread : c.reader.read (c.transit ++ itemText k.floatText none) =
          c.reader.read c.transit := by
        rw [Reader.read_append]
        exact EventStream.read_comment h.idle
          (printed_plain (JsonWriter.printed_of_all (by decide)))
      exact ⟨sub',hsub',hafter.trans h.afterId,hread.symm ▸ h.idle,
        (congrArg Reader.events hread).trans (hsame ▸ h.events),hsame ▸ h.shown⟩
    | some item =>
      have hread : c.reader.read (c.transit ++ itemText k.floatText (some item)) =
          { c.reader.read c.transit with
            lastEventId := Nat.toDigits 10 item.id
            events := (c.reader.read c.transit).events ++ [streamEvent k.floatText item] } := by
        rw [Reader.read_append]
        have hid := JsonWriter.toDigits_printed item.id
        refine EventStream.read_message h.idle (printed_plain hid) ?_
          (printed_plain (JsonWriter.printed_of_all (by decide))) (by decide)
          (printed_plain (entryJson_printed hfloat item))
        exact fun hnull => absurd (hid _ hnull) (by decide)
      have hnew : sub'.yielded = sub.yielded ++ [item] := hyielded
      refine ⟨sub',hsub',hafter.trans h.afterId,?_,?_,?_⟩
      · refine hread.symm ▸ ?_
        exact ⟨h.idle.line,h.idle.afterReturn,h.idle.type,h.idle.data⟩
      · refine (congrArg Reader.events hread).trans ?_
        rw [hnew,List.map_append,← h.events]
        rfl
      · rw [hnew]
        exact (htake [item]).symm

theorem Carries.receive (h : Carries k first s c sub)
    (hparse : ∀ e ∈ sub.yielded, k.parse (entryJson k.floatText e) = some e) (n : ℕ) :
    Carries k first s (c.receive k.parse n).1 sub := by
  have hwhole : (c.reader.read (c.transit.take n)).read (c.transit.drop n) =
      c.reader.read c.transit := by
    rw [← Reader.read_append,List.take_append_drop]
  generalize hreader : c.reader.read (c.transit.take n) = reader at hwhole
  have hread : reader.events <+: sub.yielded.map (streamEvent k.floatText) := by
    rw [← h.events,← hwhole]
    exact Reader.read_events reader _
  have hevents : reader.events =
      (sub.yielded.take reader.events.length).map (streamEvent k.floatText) := by
    rw [List.map_take]
    exact List.prefix_iff_eq_take.mp hread
  have hlength : c.reader.events.length ≤ reader.events.length := by
    rw [← hreader]
    exact (Reader.read_events c.reader _).length_le
  have hitems : (reader.events.drop c.reader.events.length).filterMap (received k.parse) =
      (sub.yielded.take reader.events.length).drop c.reader.events.length := by
    have hnew : reader.events.drop c.reader.events.length =
        ((sub.yielded.take reader.events.length).drop c.reader.events.length).map
          (streamEvent k.floatText) := by
      rw [List.map_drop,← hevents]
    rw [hnew,List.filterMap_map]
    refine (List.filterMap_congr fun e he => ?_).trans List.filterMap_some
    have hmem := List.mem_of_mem_take (List.mem_of_mem_drop he)
    simp [received,streamEvent,hparse e hmem]
  refine ⟨h.subscriber,h.afterId,?_,?_,?_⟩
  · simpa only [Connection.receive,hreader,hwhole] using h.idle
  · simpa only [Connection.receive,hreader,hwhole] using h.events
  · simp only [Connection.receive,hreader,hitems]
    have hold : c.shown = (sub.yielded.take reader.events.length).take c.reader.events.length := by
      rw [List.take_take,min_eq_left hlength,h.shown]
    rw [hold,List.take_append_drop]

end

/-! ### The page over a run -/

structure Inv (k : Script F) (s : Site F) : Prop where
  server : QueryLog.Inv s.server
  rows : s.page.rows = QueryLogStore.newest k.pageSize s.items
  first : s.first <:+: s.server.log.appended
  earlier : ∀ e ∈ s.earlier, e ∈ s.server.log.appended
  notLoaded : s.loaded = none → s.url = none
  notOpened : s.url = none → s.page.lastId = s.first.getLast?.map QueryLogEntry.id ∧
    s.connection = none ∧ s.earlier = []
  url : ∀ afterId, s.url = some afterId → afterId = s.first.getLast?.map QueryLogEntry.id
  connected : ∀ c, s.connection = some c → ∃ sub, Carries k s.first s.server c sub

/-- What has been appended is read back. -/
def Parses (k : Script F) (s : Site F) : Prop :=
  ∀ e ∈ s.server.log.appended, k.parse (entryJson k.floatText e) = some e

section
variable {s s' : Site F} {label : Label F}

theorem queryLogsApi_suffix (s : QueryLogStore (QueryLogPayload F)) (limit : ℕ) :
    queryLogsApi s limit <:+ s.entries := by
  unfold queryLogsApi listRecent
  split
  · exact List.nil_suffix
  · exact Log.newest_suffix _ _

theorem Carries.yielded_appended {first : List (Entry F)} {c : Connection F}
    {sub : Subscriber (QueryLogPayload F)} {s : QueryLog.State (QueryLogPayload F)}
    (h : Carries k first s c sub) (hinv : QueryLog.Inv s) :
    ∀ e ∈ sub.yielded, e ∈ s.log.appended := fun e he =>
  (hinv.record _ _ h.subscriber).known e (List.mem_append_left _ he)

theorem Inv.server_step (h : Inv k s) (hfloat : ∀ x, JsonWriter.Printed (k.floatText x))
    {label : QueryLog.Label (QueryLogPayload F)} (hstep : step k s (.server label) = some s') :
    Inv k s' := by
  obtain ⟨server,hserver,rfl⟩ := Option.map_eq_some_iff.mp hstep
  have happended := step_appended hserver
  refine ⟨h.server.step hserver,?_,h.first.trans happended.isInfix,
    fun e he => happended.subset (h.earlier e he),h.notLoaded,?_,h.url,?_⟩
  · refine h.rows.trans ?_
    cases hconnection : s.connection with
    | none => simp [Site.items,Site.shown,Site.first,hconnection]
    | some c => simp [Site.items,Site.shown,Site.first,hconnection]
  · intro hurl
    obtain ⟨hlast,hnone,hearlier⟩ := h.notOpened hurl
    exact ⟨hlast,by rw [hnone]; rfl,hearlier⟩
  · intro c hc
    obtain ⟨old,hold,rfl⟩ := Option.map_eq_some_iff.mp hc
    obtain ⟨sub,hcarries⟩ := h.connected old hold
    exact hcarries.step hfloat hserver

theorem Inv.load (h : Inv k s) (hstep : step k s .loadInitialLogs = some s') : Inv k s' := by
  simp only [step] at hstep
  split at hstep
  · cases hstep
  · rename_i hloaded
    cases hstep
    have hurl := h.notLoaded hloaded
    obtain ⟨hlast,hconnection,hearlier⟩ := h.notOpened hurl
    have hfirst : s.first = [] := by rw [Site.first,hloaded]; rfl
    have hnone : s.page.lastId = none := by rw [hlast,hfirst]; rfl
    refine ⟨h.server,?_,?_,h.earlier,?_,?_,?_,?_⟩
    · have hempty : ({ s.page with rows := [] } : Page F).rows =
          QueryLogStore.newest k.pageSize [] := List.drop_nil.symm
      refine (appendRows _ hempty).trans ?_
      simp [Site.items,Site.first,Site.shown,hconnection,hearlier]
    · refine List.IsInfix.trans ?_ h.server.recent.suffix.isInfix
      exact (queryLogsApi_suffix _ _).isInfix
    · simp
    · intro _
      refine ⟨?_,hconnection,hearlier⟩
      refine (appendRows_lastId _).trans ?_
      simp [Site.first,hnone]
    · intro afterId hafter
      rw [hurl] at hafter
      cases hafter
    · intro c hc
      rw [hconnection] at hc
      cases hc

theorem Inv.connectStream (h : Inv k s) (hstep : step k s .connectStream = some s') :
    Inv k s' := by
  simp only [step] at hstep
  split at hstep
  · rename_i items hloaded hurl
    cases hstep
    obtain ⟨hlast,hconnection,hearlier⟩ := h.notOpened hurl
    refine ⟨h.server,h.rows,h.first,h.earlier,?_,?_,?_,h.connected⟩
    · intro hnone
      cases hloaded.symm.trans hnone
    · simp
    · intro afterId hafter
      cases hafter
      exact hlast
  · cases hstep

theorem Inv.opens (h : Inv k s) {i : ℕ} (hstep : step k s (.open i) = some s') : Inv k s' := by
  simp only [step] at hstep
  split at hstep
  · rename_i afterId hurl hconnection
    obtain ⟨server,hserver,rfl⟩ := Option.map_eq_some_iff.mp hstep
    have happended := step_appended hserver
    have hafter := h.url afterId hurl
    refine ⟨h.server.step hserver,?_,h.first.trans happended.isInfix,
      fun e he => happended.subset (h.earlier e he),h.notLoaded,?_,h.url,?_⟩
    · refine h.rows.trans ?_
      simp [Site.items,Site.first,Site.shown,hconnection]
    · intro hnone
      cases hurl.symm.trans hnone
    · intro c hc
      cases hc
      simp only [QueryLog.step] at hserver
      split at hserver
      · cases hserver
      · cases hserver
        refine ⟨_,Function.update_self _ _ _,?_,EventStream.idle_new,rfl,rfl⟩
        rw [hafter]
        rfl
  · cases hstep

theorem Inv.receives (h : Inv k s) (hparse : Parses k s) {n : ℕ}
    (hstep : step k s (.receive n) = some s') : Inv k s' := by
  obtain ⟨c,hconnection,rfl⟩ := Option.map_eq_some_iff.mp hstep
  obtain ⟨sub,hcarries⟩ := h.connected c hconnection
  have hyielded := hcarries.yielded_appended h.server
  refine ⟨h.server,?_,h.first,h.earlier,h.notLoaded,?_,h.url,?_⟩
  · refine (appendRows _ h.rows).trans ?_
    simp [Site.items,Site.first,Site.shown,hconnection,Connection.receive]
  · intro hnone
    cases hconnection.symm.trans (h.notOpened hnone).2.1
  · intro c' hc'
    cases hc'
    exact ⟨sub,hcarries.receive (fun e he => hparse e (hyielded e he)) n⟩

theorem Inv.breaks (h : Inv k s) (hstep : step k s .broken = some s') : Inv k s' := by
  obtain ⟨c,hconnection,rfl⟩ := Option.map_eq_some_iff.mp hstep
  obtain ⟨sub,hcarries⟩ := h.connected c hconnection
  refine ⟨h.server,?_,h.first,?_,h.notLoaded,?_,h.url,?_⟩
  · refine h.rows.trans ?_
    simp [Site.items,Site.first,Site.shown,hconnection]
  · intro e he
    cases List.mem_append.mp he with
    | inl he => exact h.earlier e he
    | inr he =>
      rw [hcarries.shown] at he
      exact hcarries.yielded_appended h.server e (List.mem_of_mem_take he)
  · intro hnone
    cases hconnection.symm.trans (h.notOpened hnone).2.1
  · intro c' hc'
    cases hc'

theorem site_appended (hstep : step k s label = some s') :
    s.server.log.appended <+: s'.server.log.appended := by
  cases label with
  | server label =>
    obtain ⟨server,hserver,rfl⟩ := Option.map_eq_some_iff.mp hstep
    exact step_appended hserver
  | loadInitialLogs =>
    simp only [step] at hstep
    split at hstep
    · cases hstep
    · cases hstep
      exact List.prefix_rfl
  | connectStream =>
    simp only [step] at hstep
    split at hstep
    · cases hstep
      exact List.prefix_rfl
    · cases hstep
  | «open» i =>
    simp only [step] at hstep
    split at hstep
    · obtain ⟨server,hserver,rfl⟩ := Option.map_eq_some_iff.mp hstep
      exact step_appended hserver
    · cases hstep
  | receive n =>
    obtain ⟨c,-,rfl⟩ := Option.map_eq_some_iff.mp hstep
    exact List.prefix_rfl
  | broken =>
    obtain ⟨c,-,rfl⟩ := Option.map_eq_some_iff.mp hstep
    exact List.prefix_rfl

theorem Inv.step (h : Inv k s) (hfloat : ∀ x, JsonWriter.Printed (k.floatText x))
    (hparse : Parses k s) (hstep : step k s label = some s') : Inv k s' := by
  cases label with
  | server label => exact h.server_step hfloat hstep
  | loadInitialLogs => exact h.load hstep
  | connectStream => exact h.connectStream hstep
  | «open» i => exact h.opens hstep
  | receive n => exact h.receives hparse hstep
  | broken => exact h.breaks hstep

theorem inv_init (maxEntries : ℕ) : Inv k (Site.init maxEntries) where
  server := QueryLog.inv_init maxEntries
  rows := List.drop_nil.symm
  first := List.prefix_rfl.isInfix
  earlier _ he := by cases he
  notLoaded _ := rfl
  notOpened _ := ⟨rfl,rfl,rfl⟩
  url _ hurl := by cases hurl
  connected _ hc := by cases hc

/-! ### What comes behind what was loaded -/

variable {first : List (Entry F)} {c : Connection F} {sub : Subscriber (QueryLogPayload F)}
  {server : QueryLog.State (QueryLogPayload F)}

theorem Carries.start (h : Carries k first server c sub) :
    sub.start = (first.getLast?.map QueryLogEntry.id).getD 0 := by
  rw [Subscriber.start,h.afterId]
  cases first.getLast? <;> rfl

theorem Carries.first_le (h : Carries k first server c sub)
    (hfirst : first.Pairwise fun a b => a.id < b.id) {a : Entry F} (ha : a ∈ first) :
    a.id ≤ sub.start := by
  rw [h.start]
  obtain ⟨front,last,rfl⟩ := (List.eq_nil_or_concat' first).resolve_left (List.ne_nil_of_mem ha)
  rw [List.getLast?_concat]
  obtain ha | ha := List.mem_append.mp ha
  · exact Nat.le_of_lt ((List.pairwise_append.mp hfirst).2.2 a ha last List.mem_cons_self)
  · rw [List.mem_singleton.mp ha]
    exact Nat.le_refl _

/-- What is not before the loaded entries is one of them or comes after them. -/
theorem Carries.loaded_or_after (h : Carries k first server c sub)
    (hrecent : server.log.Recent) (hfirst : first <:+: server.log.appended) {e : Entry F}
    (he : e ∈ server.log.appended) (hhead : ∀ a ∈ first.head?, a.id ≤ e.id) :
    e ∈ first ∨ sub.start < e.id := by
  rw [h.start]
  cases first with
  | nil =>
    have hid : 1 ≤ e.id := (hrecent.id_lt he).1
    exact .inr hid
  | cons a rest =>
    have hincreasing := hrecent.ids_increase
    obtain ⟨before,after,happended⟩ := hfirst
    rw [← happended] at he hincreasing
    obtain ⟨hfront,-,hback⟩ := List.pairwise_append.mp hincreasing
    have hbefore := (List.pairwise_append.mp hfront).2.2
    have hhead := hhead a rfl
    obtain (he | he) | he := (List.mem_append.mp he).imp_left List.mem_append.mp
    · have hlt := hbefore e he a List.mem_cons_self
      omega
    · exact .inl he
    · have hlast := List.getLast?_eq_getLast_of_ne_nil (List.cons_ne_nil a rest)
      have hmem := List.getLast_mem (List.cons_ne_nil a rest)
      rw [hlast]
      exact .inr (hback _ (List.mem_append_right _ hmem) e he)

theorem Carries.follows (h : Carries k first server c sub) (hinv : QueryLog.Inv server)
    (hfirst : first <:+: server.log.appended) : Follows server first c sub := by
  have hrecord := hinv.record _ _ h.subscriber
  have hloaded : first.Pairwise fun a b => a.id < b.id :=
    hinv.recent.ids_increase.sublist hfirst.sublist
  have hyielded : sub.yielded.Pairwise fun a b => a.id < b.id :=
    (List.pairwise_append.mp hrecord.increasing).1
  have hshown : c.shown <+: sub.yielded := h.shown ▸ List.take_prefix _ _
  have harrived (htransit : c.transit = []) : c.shown = sub.yielded := by
    have hevents := congrArg List.length h.events
    rw [htransit,Reader.read_nil,List.length_map] at hevents
    rw [h.shown,hevents,List.take_length]
  have hafter {e : Entry F} (he : e ∈ server.log.appended)
      (hhead : ∀ a ∈ first.head?, a.id ≤ e.id) := h.loaded_or_after hinv.recent hfirst he hhead
  refine ⟨h.subscriber,?_,hshown,harrived,?_,?_⟩
  · refine List.pairwise_append.mpr ⟨hloaded,hyielded.sublist hshown.sublist,?_⟩
    intro a ha b hb
    exact Nat.lt_of_le_of_lt (h.first_le hloaded ha)
      (hrecord.yielded b (hshown.subset hb)).1
  · rintro e he hhead ⟨b,hb,hle⟩
    obtain hmem | hstart := hafter he hhead
    · exact .inl (List.mem_append_left _ hmem)
    · have hseen := (hrecord.yielded b (hshown.subset hb)).2
      obtain hmem | hmissed := hrecord.covered e he hstart (by omega)
      · obtain ⟨rest,hrest⟩ := hshown
        rw [← hrest] at hmem hyielded
        obtain hmem | hmem := List.mem_append.mp hmem
        · exact .inl (List.mem_append_right _ hmem)
        · have hlt := (List.pairwise_append.mp hyielded).2.2 b hb e hmem
          omega
      · exact .inr fun hheld => (hrecord.missed e hmissed).2 e hheld rfl
  · intro htransit hwaiting hunset hidle e hheld hhead
    rw [harrived htransit]
    have he := hinv.recent.held_appended hheld
    obtain hmem | hstart := hafter he hhead
    · exact List.mem_append_left _ hmem
    · have hseen : e.id ≤ sub.lastSeenId := by
        by_contra hnew
        obtain hset | ⟨a,habout⟩ :=
          (hinv.attended _ _ h.subscriber).awake hwaiting ⟨e,hheld,Nat.lt_of_not_le hnew⟩
        · exact hunset hset
        · exact hidle a habout
      obtain hmem | hmissed := hrecord.covered e he hstart hseen
      · exact List.mem_append_right _ hmem
      · exact absurd rfl ((hrecord.missed e hmissed).2 e hheld)

theorem Inv.shows (h : Inv k s) : Shows k.pageSize s where
  rows := h.rows
  known e he := by
    obtain he | he := List.mem_append.mp he
    · exact h.first.subset he
    · obtain he | he := List.mem_append.mp he
      · exact h.earlier e he
      · cases hconnection : s.connection with
        | none => simp [Site.shown,hconnection] at he
        | some c =>
          obtain ⟨sub,hcarries⟩ := h.connected c hconnection
          simp only [Site.shown,hconnection,Option.map_some,Option.getD_some,hcarries.shown] at he
          exact hcarries.yielded_appended h.server e (List.mem_of_mem_take he)
  connected c hc := by
    obtain ⟨sub,hcarries⟩ := h.connected c hc
    exact ⟨sub,hcarries.follows h.server h.first⟩

theorem run_appended {labels : List (Label F)}
    (hrun : Transition.run (step k) s labels = some s') :
    s.server.log.appended <+: s'.server.log.appended := by
  induction labels generalizing s with
  | nil =>
    cases hrun
    exact List.prefix_rfl
  | cons label labels ih =>
    obtain ⟨t,hstep,hrest⟩ := Option.bind_eq_some_iff.mp hrun
    exact (site_appended hstep).trans (ih hrest)

theorem Inv.run (h : Inv k s) (hfloat : ∀ x, JsonWriter.Printed (k.floatText x))
    {labels : List (Label F)} (hrun : Transition.run (SmartDns.QueryPage.step k) s labels = some s')
    (hparse : Parses k s') : Inv k s' := by
  induction labels generalizing s with
  | nil =>
    cases hrun
    exact h
  | cons label labels ih =>
    have hbefore := (run_appended hrun).subset
    obtain ⟨t,hstep,hrest⟩ := Option.bind_eq_some_iff.mp hrun
    exact ih (h.step hfloat (fun e he => hparse e (hbefore he)) hstep) hrest

end

/-- In every interleaving, with the text of the stream cut anywhere, the rows are the newest of what
the page loaded and was sent since. On one connection nothing comes twice or out of order, and what
is left out was gone from the store; where nothing is under way the page has all that the store
holds. -/
theorem queryPage_shows {k : Script F} (hfloat : ∀ x, JsonWriter.Printed (k.floatText x))
    {maxEntries : ℕ} {labels : List (Label F)} {s : Site F}
    (hrun : Transition.run (step k) (Site.init maxEntries) labels = some s)
    (hparse : ∀ e ∈ s.server.log.appended, k.parse (entryJson k.floatText e) = some e) :
    Shows k.pageSize s :=
  ((inv_init maxEntries).run hfloat hrun hparse).shows

/-! ### A page that is open while a query is logged -/

def adsPayload : QueryLogPayload ℕ where
  timestampMs := 1700000000000
  qname := "ads.example.com".toList
  qtype := "A".toList
  listener := "udp".toList
  rcode := "NOERROR".toList
  resultSummary := "A 192.0.2.1".toList
  durationMs := some 12

def adsScript : Script ℕ where
  pageSize := 100
  floatText := Nat.toDigits 10
  parse text := [1,2].findSome? fun id =>
    if entryJson (Nat.toDigits 10) ⟨id,adsPayload⟩ = text then some ⟨id,adsPayload⟩ else none

def adsLabels : List (Label ℕ) :=
  [.server (.publish 0 adsPayload),.loadInitialLogs,.connectStream,.open 0,
    .server (.publish 1 adsPayload),.server (.look 0),.server (.yieldItem 0),.receive 25,
    .receive 300]

theorem adsLabels_run :
    (Transition.run (step adsScript) (Site.init 500) adsLabels).isSome := by decide +kernel

def adsSite : Site ℕ :=
  (Transition.run (step adsScript) (Site.init 500) adsLabels).get adsLabels_run

theorem queryPage_shows_ads :
    Transition.run (step adsScript) (Site.init 500) adsLabels = some adsSite ∧
      adsSite.page.rows.map QueryLogEntry.id = [1,2] ∧ Shows 100 adsSite := by
  have hrun : Transition.run (step adsScript) (Site.init 500) adsLabels = some adsSite :=
    (Option.some_get adsLabels_run).symm
  have hparse : ∀ e ∈ adsSite.server.log.appended,
      adsScript.parse (entryJson adsScript.floatText e) = some e := by
    decide +kernel
  exact ⟨hrun,by decide +kernel,queryPage_shows JsonWriter.toDigits_printed hrun hparse⟩

end SmartDns.QueryPage
