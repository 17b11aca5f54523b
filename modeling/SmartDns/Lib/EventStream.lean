import Mathlib.Data.List.Basic
set_option autoImplicit false

/-!
The text format of server-sent events, read character by character. What has been read of a
stream gives the events that end in it, so that a stream that breaks off gives the first ones.
-/

namespace EventStream

structure StreamEvent where
  type : List Char
  data : List Char
  lastEventId : List Char
  deriving DecidableEq, Repr

/-- What a reader keeps between two characters: the line it is in, the buffers, and the events
that it has dispatched. -/
structure Reader where
  line : List Char := []
  afterReturn : Bool := false
  type : List Char := []
  data : List Char := []
  lastEventId : List Char := []
  events : List StreamEvent := []
  deriving DecidableEq, Repr

namespace Reader

/-- Nothing is dispatched without data. The last line feed of the data does not count. -/
def dispatch (r : Reader) : Reader :=
  if r.data = [] then { r with type := [] }
  else
    { r with
      type := []
      data := []
      events := r.events ++
        [⟨if r.type = [] then "message".toList else r.type,r.data.dropLast,r.lastEventId⟩] }

def processField (r : Reader) (name value : List Char) : Reader :=
  if name = "event".toList then { r with type := value }
  else if name = "data".toList then { r with data := r.data ++ value ++ ['\n'] }
  else if name = "id".toList then
    if '\x00' ∈ value then r else { r with lastEventId := value }
  else r

/-- The value of a field, without the one space that may stand before it. -/
def fieldValue : List Char → List Char
  | ':' :: ' ' :: value => value
  | ':' :: value => value
  | _ => []

def processLine (r : Reader) (line : List Char) : Reader :=
  match line with
  | [] => r.dispatch
  | ':' :: _ => r
  | _ => r.processField (line.takeWhile fun c => c ≠ ':')
      (fieldValue (line.dropWhile fun c => c ≠ ':'))

def endLine (r : Reader) : Reader := { r with line := [] }.processLine r.line

def feed (r : Reader) (c : Char) : Reader :=
  if c = '\n' then if r.afterReturn then { r with afterReturn := false } else r.endLine
  else if c = '\r' then { r.endLine with afterReturn := true }
  else { r with line := r.line ++ [c], afterReturn := false }

def read (r : Reader) (text : List Char) : Reader := text.foldl feed r

@[simp] theorem read_nil (r : Reader) : r.read [] = r := rfl

theorem read_append (r : Reader) (a b : List Char) : r.read (a ++ b) = (r.read a).read b :=
  List.foldl_append

/-! ### What is dispatched stays -/

theorem processField_events (r : Reader) (name value : List Char) :
    (r.processField name value).events = r.events := by
  unfold processField
  split
  · rfl
  · split
    · rfl
    · split
      · split <;> rfl
      · rfl

theorem dispatch_events (r : Reader) : r.events <+: r.dispatch.events := by
  unfold dispatch
  split
  · exact List.prefix_rfl
  · exact List.prefix_append _ _

theorem processLine_events (r : Reader) (line : List Char) :
    r.events <+: (r.processLine line).events := by
  unfold processLine
  split
  · exact dispatch_events r
  · exact List.prefix_rfl
  · exact (processField_events r _ _).symm ▸ List.prefix_rfl

theorem feed_events (r : Reader) (c : Char) : r.events <+: (r.feed c).events := by
  unfold feed
  split
  · split
    · exact List.prefix_rfl
    · exact processLine_events { r with line := [] } r.line
  · split
    · exact processLine_events { r with line := [] } r.line
    · exact List.prefix_rfl

theorem read_events (r : Reader) (text : List Char) : r.events <+: (r.read text).events := by
  induction text generalizing r with
  | nil => exact List.prefix_rfl
  | cons c text ih => exact (feed_events r c).trans (ih (r.feed c))

/-! ### Lines -/

/-- Neither a line feed nor a carriage return. -/
def Plain (text : List Char) : Prop := ∀ c ∈ text, c ≠ '\n' ∧ c ≠ '\r'

theorem Plain.append {a b : List Char} (ha : Plain a) (hb : Plain b) : Plain (a ++ b) :=
  List.forall_mem_append.mpr ⟨ha,hb⟩

theorem read_plain {r : Reader} {text : List Char} (hafter : r.afterReturn = false)
    (h : Plain text) : r.read text = { r with line := r.line ++ text } := by
  induction text generalizing r with
  | nil => simp
  | cons c text ih =>
    obtain ⟨⟨hfeed,hreturn⟩,htext⟩ := List.forall_mem_cons.mp h
    have hstep : r.feed c = { r with line := r.line ++ [c] } := by
      simp [feed,hfeed,hreturn,hafter]
    have hread : r.read (c :: text) = (r.feed c).read text := rfl
    rw [hread,hstep,ih (r:={ r with line := r.line ++ [c] }) hafter htext]
    simp

theorem read_line {r : Reader} {text : List Char} (hline : r.line = [])
    (hafter : r.afterReturn = false) (h : Plain text) :
    r.read (text ++ ['\n']) = r.processLine text := by
  rw [read_append,read_plain hafter h,hline,List.nil_append]
  have hend : { r with line := text }.read ['\n'] = { r with line := text }.endLine := by
    simp [read,feed,hafter]
  have hsame : { r with line := [] } = r := by
    rw [← hline]
  rw [hend,endLine]
  simp only [hsame]

theorem processLine_field (r : Reader) {name : List Char} (value : List Char) (hname : name ≠ [])
    (hcolon : ':' ∉ name) :
    r.processLine (name ++ ':' :: ' ' :: value) = r.processField name value := by
  have hplain : ∀ c ∈ name, decide (c ≠ ':') = true := by
    intro c hc
    rw [decide_eq_true_eq]
    rintro rfl
    exact hcolon hc
  obtain ⟨c,rest,rfl⟩ := List.exists_cons_of_ne_nil hname
  have hc : c ≠ ':' := fun heq => hcolon (heq ▸ List.mem_cons_self)
  unfold processLine
  split
  · rename_i heq
    cases heq
  · rename_i heq
    exact absurd (List.cons.inj heq).1 hc
  · rw [List.takeWhile_append_of_pos hplain,List.dropWhile_append_of_pos hplain]
    simp [fieldValue]

end Reader

/-! ### Messages -/

open Reader (Plain)

def field (name value : List Char) : List Char := name ++ ':' :: ' ' :: value ++ ['\n']

/-- The lines of one event. -/
def message (id type data : List Char) : List Char :=
  field "id".toList id ++ (field "event".toList type ++ (field "data".toList data ++ ['\n']))

def comment (text : List Char) : List Char := ':' :: text ++ ['\n','\n']

/-- A reader between two events. -/
structure Reader.Idle (r : Reader) : Prop where
  line : r.line = []
  afterReturn : r.afterReturn = false
  type : r.type = []
  data : r.data = []

theorem idle_new : Reader.Idle {} := ⟨rfl,rfl,rfl,rfl⟩

variable {r : Reader}

theorem read_field (hline : r.line = []) (hafter : r.afterReturn = false) {name value : List Char}
    (hname : name ≠ []) (hcolon : ':' ∉ name) (hplain : Plain name) (hvalue : Plain value) :
    r.read (field name value) = r.processField name value := by
  have hsep : Plain [':',' '] := by
    simp [Plain]
  have htext : Plain (name ++ ':' :: ' ' :: value) := hplain.append (hsep.append hvalue)
  rw [field,Reader.read_line hline hafter htext,Reader.processLine_field r value hname hcolon]

theorem read_blank (hline : r.line = []) (hafter : r.afterReturn = false) :
    r.read ['\n'] = r.dispatch :=
  @Reader.read_line r [] hline hafter (List.forall_mem_nil _)

theorem read_message (hr : r.Idle) {id type data : List Char} (hid : Plain id)
    (hnull : '\x00' ∉ id) (htype : Plain type) (hne : type ≠ []) (hdata : Plain data) :
    r.read (message id type data) =
      { r with lastEventId := id, events := r.events ++ [⟨type,data,id⟩] } := by
  have hname (name : List Char) (h : name.all fun c => c ≠ '\n' && c ≠ '\r' && c ≠ ':') :
      Plain name ∧ ':' ∉ name := by
    simp only [List.all_eq_true,Bool.and_eq_true,decide_eq_true_eq] at h
    exact ⟨fun c hc => (h c hc).1,fun hmem => (h ':' hmem).2 rfl⟩
  obtain ⟨hidName,hidColon⟩ := hname "id".toList (by decide)
  obtain ⟨heventName,heventColon⟩ := hname "event".toList (by decide)
  obtain ⟨hdataName,hdataColon⟩ := hname "data".toList (by decide)
  have hidField : r.processField "id".toList id = { r with lastEventId := id } := by
    simp [Reader.processField,hnull]
  unfold message
  rw [Reader.read_append,Reader.read_append,Reader.read_append,
    read_field hr.line hr.afterReturn (by decide) hidColon hidName hid,hidField,
    read_field (r:={ r with lastEventId := id }) hr.line hr.afterReturn (by decide) heventColon
      heventName htype]
  have heventField : { r with lastEventId := id }.processField "event".toList type =
      { r with lastEventId := id, type } := rfl
  rw [heventField,read_field (r:={ r with lastEventId := id, type }) hr.line hr.afterReturn
    (by decide) hdataColon hdataName hdata]
  have hdataField : { r with lastEventId := id, type }.processField "data".toList data =
      { r with lastEventId := id, type, data := data ++ ['\n'] } := by
    simp [Reader.processField,hr.data]
  rw [hdataField,read_blank (r:={ r with lastEventId := id, type, data := data ++ ['\n'] }) hr.line
    hr.afterReturn]
  simp [Reader.dispatch,hne,hr.type,hr.data]

theorem read_comment (hr : r.Idle) {text : List Char} (htext : Plain text) :
    r.read (comment text) = r := by
  have hline : Plain (':' :: text) :=
    List.forall_mem_cons.mpr ⟨by decide,htext⟩
  have hsplit : comment text = (':' :: text ++ ['\n']) ++ ['\n'] := by
    simp [comment]
  have hignored : r.processLine (':' :: text) = r := rfl
  rw [hsplit,Reader.read_append,Reader.read_line hr.line hr.afterReturn hline,hignored,
    read_blank hr.line hr.afterReturn,Reader.dispatch,if_pos hr.data,← hr.type]

end EventStream
