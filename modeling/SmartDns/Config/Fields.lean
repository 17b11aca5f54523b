import SmartDns.Config.Validation
import SmartDns.Core.DomainSet
import SmartDns.Core.IpText
import SmartDns.Lib.Collect
import SmartDns.Lib.Schema
import SmartDns.Rules.Selection
set_option autoImplicit false

/-!
The fields of the configuration file: what pydantic and the validators accept for each, and
what is written for it. A text holds what its validator has established, so that it is read
back as it was written.
-/

namespace SmartDns

instance : Fails PyException := ⟨PyException.valueError⟩

def typeError (message : String) : PyException := ⟨.other,"TypeError",message⟩

namespace ConfigFile

open Json (readStr)
open Collect (collect collectFrom)

inductive LogLevel where
  | critical | error | warning | info | debug
  deriving DecidableEq, Repr

def LogLevel.name : LogLevel → String
  | .critical => "CRITICAL"
  | .error => "ERROR"
  | .warning => "WARNING"
  | .info => "INFO"
  | .debug => "DEBUG"

/-- What the loader uses of Python and of other packages. pydantic takes a value that has the
type of the field as it is. `floatJson` and `anyJson` are how it writes the value of a `float`
and of a `dict[str, Any]`; `initValues` is what `BaseSettings` leaves of its arguments. -/
structure Libraries where
  str : Json → String
  boolOf : Json → Except PyException Bool
  intOf : Json → Except PyException ℤ
  floatOf : Json → Except PyException Double
  floatJson : Double → Json
  anyJson : JsonObject → Except PyException JsonObject
  initValues : List (String × Json) → Except PyException (List (String × Json))
  lower : List Char → List Char
  rdatatypes : Rules.Rdatatypes
  str_str : ∀ s, str (.str s) = s
  boolOf_bool : ∀ b, boolOf (.bool b) = .ok b
  intOf_int : ∀ n, intOf (.int n) = .ok n
  floatOf_float : ∀ x, floatOf (.float x) = .ok x
  floatOf_one : floatOf (.int 1) = .ok (.finite 1)
  floatJson_finite : ∀ value, floatJson (.finite value) = .float (.finite value)
  anyJson_plain : ∀ o : JsonObject, o.json.plain 64 = true → anyJson o = .ok o
  initValues_public : ∀ members : List (String × Json),
    (∀ member ∈ members, member.1.toList.head? ≠ some '_') → initValues members = .ok members
  lowersAscii : LowersAscii lower
  lower_part : ∀ text part, part <:+: lower text → lower part = part
  lower_head : ∀ c text, ∃ c' text', lower (c :: text) = c' :: text' ∧
    PyText.isSpace c' = PyText.isSpace c
  lower_last : ∀ text c, ∃ text' c', lower (text ++ [c]) = text' ++ [c'] ∧
    PyText.isSpace c' = PyText.isSpace c ∧ isDot c' = isDot c
  rdatatypes_lawful : rdatatypes.Lawful
  rdatatypes_plain : ∀ rdtype,
    Rules.strip (rdatatypes.upper (rdatatypes.toText rdtype)) =
      rdatatypes.upper (rdatatypes.toText rdtype) ∧
    rdatatypes.upper (rdatatypes.toText rdtype) ≠ ""
  upper_level : ∀ level : LogLevel, rdatatypes.upper level.name = level.name

variable (lib : Libraries)

def lowerText (text : String) : String := String.ofList (lib.lower text.toList)

/-! ### Numbers -/

abbrev bool : Schema PyException Bool := .lawful lib.boolOf .bool lib.boolOf_bool

abbrev int : Schema PyException ℤ := .lawful lib.intOf .int lib.intOf_int

instance int_discrete : (int lib).Discrete := inferInstance

abbrev PosInt := { n : ℤ // decide (1 ≤ n) = true }

/-- `Field(ge=1)`. -/
abbrev posInt : Schema PyException PosInt :=
  (int lib).restrict (fun n => 1 ≤ n) "Input should be greater than or equal to 1"

def isPositive : Double → Bool
  | .finite value => 0 < value
  | .infinite negative => !negative

abbrev PosDouble := { x : Double // isPositive x = true }

def seconds (value : ℚ) (h : 0 < value) : PosDouble := ⟨.finite value,decide_eq_true h⟩

def oneSecond : PosDouble := seconds 1 (by norm_num)

abbrev float : Schema PyException Double := .plain lib.floatOf lib.floatJson

instance float_discrete : (float lib).Discrete := inferInstance

/-- `Field(gt=0)`. -/
abbrev posFloat : Schema PyException PosDouble :=
  (float lib).restrict isPositive "Input should be greater than 0"

def Libraries.KeepsFloat (x : Double) : Prop := lib.floatOf (lib.floatJson x) = .ok x

theorem keepsFloat_finite (value : ℚ) : lib.KeepsFloat (.finite value) := by
  rw [Libraries.KeepsFloat,lib.floatJson_finite,lib.floatOf_float]

theorem posFloat_stable (x : PosDouble) : (posFloat lib).Stable x ↔ lib.KeepsFloat x.val := Iff.rfl

/-- `Field(ge=0, le=65535)`. -/
abbrev port : Schema PyException (Fin 65536) :=
  ((int lib).restrict (fun n => 0 ≤ n ∧ n ≤ 65535) "Input should be a port").convert
    (fun n => ⟨n.val.toNat,by have := of_decide_eq_true n.property; omega⟩)
    (fun p => ⟨p.val,by have := p.isLt; simp only [decide_eq_true_eq]; omega⟩)
    (fun p => by simp) (fun n => by
      have := of_decide_eq_true n.property
      refine Subtype.ext ?_
      simp only []
      omega)

abbrev ServerPort := { p : Fin 65536 // decide (p ≠ 0) = true }

/-- `Field(ge=1, le=65535)`. -/
abbrev serverPort : Schema PyException ServerPort :=
  (port lib).restrict (fun p => p ≠ 0) "Input should be greater than or equal to 1"

/-- The size that two caches have by default. -/
def cacheSize : PosInt := ⟨100000,rfl⟩

/-! ### Choices -/

inductive HTTPVersionType where
  | default | h1 | h2 | h3
  deriving DecidableEq, Repr

def HTTPVersionType.value : HTTPVersionType → String
  | .default => "default"
  | .h1 => "h1"
  | .h2 => "h2"
  | .h3 => "h3"

abbrev httpVersion : Schema PyException HTTPVersionType :=
  .choice HTTPVersionType.value [.default,.h1,.h2,.h3] (by intro a; cases a <;> rfl)

def listenerProtocolValue : ListenerProtocol → String
  | .udp => "udp"
  | .tcp => "tcp"

abbrev listenerProtocol : Schema PyException ListenerProtocol :=
  .choice listenerProtocolValue [.udp,.tcp] (by intro a; cases a <;> rfl)

abbrev dispatchStrategy : Schema PyException DispatchStrategyType :=
  .choice DispatchStrategyType.value [.race,.waitAll] (by intro a; cases a <;> rfl)

inductive MultiprocessStartMethod where
  | auto | spawn | forkserver | fork
  deriving DecidableEq, Repr

def MultiprocessStartMethod.value : MultiprocessStartMethod → String
  | .auto => "auto"
  | .spawn => "spawn"
  | .forkserver => "forkserver"
  | .fork => "fork"

/-- The text that a validator makes of the text of a choice. -/
def readNormal {α : Type} (f : String → String) (name : α → String) (choices : List α) (v : Json) :
    Except PyException α := do
  let text ← readStr v
  Json.readChoice name choices (.str (f text))

theorem readNormal_name {α : Type} {f : String → String} {name : α → String} {choices : List α}
    (hf : ∀ a, f (name a) = name a)
    (h : ∀ a, choices.find? (fun b => name b = name a) = some a) (a : α) :
    readNormal f name choices (.str (name a)) = .ok a := by
  have hread : readNormal f name choices (.str (name a)) =
    Json.readChoice name choices (.str (f (name a))) := rfl
  rw [hread,hf,Json.readChoice_str h]

theorem lowerText_strip {text : String} (hascii : (text.toList.all fun c => c.toNat < 128) = true)
    (hlower : text.toList.map Char.toLower = text.toList) (hstrip : Rules.strip text = text) :
    lowerText lib (Rules.strip text) = text := by
  have hsmall : ∀ c ∈ text.toList, c.toNat < 128 := fun c hc =>
    of_decide_eq_true (List.all_eq_true.mp hascii c hc)
  rw [hstrip,lowerText,lib.lowersAscii _ hsmall,hlower,String.ofList_toList]

abbrev startMethod : Schema PyException MultiprocessStartMethod :=
  .lawful
    (readNormal (fun text => lowerText lib (Rules.strip text)) MultiprocessStartMethod.value
      [.auto,.spawn,.forkserver,.fork])
    (fun method => .str method.value)
    (readNormal_name (fun method => by cases method <;> exact lowerText_strip lib rfl rfl rfl)
      (by intro a; cases a <;> rfl))

abbrev logLevel : Schema PyException LogLevel :=
  .lawful
    (readNormal (fun text => lib.rdatatypes.upper (Rules.strip text)) LogLevel.name
      [.critical,.error,.warning,.info,.debug])
    (fun level => .str level.name)
    (readNormal_name (fun level => by
      have hstrip : Rules.strip level.name = level.name := by cases level <;> rfl
      rw [hstrip,lib.upper_level]) (by intro a; cases a <;> rfl))

/-- `normalize_workers` and the union of an integer and a literal; none is `auto`. -/
def readWorkers (v : Json) : Except PyException (Option PosInt) :=
  match v with
  | .str text =>
    if lowerText lib (Rules.strip text) = "auto" then .ok none
    else ((posInt lib).read v).map some
  | _ => ((posInt lib).read v).map some

def writeWorkers : Option PosInt → Json
  | none => .str "auto"
  | some n => .int n.val

theorem readWorkers_write (workers : Option PosInt) :
    readWorkers lib (writeWorkers workers) = .ok workers := by
  cases workers with
  | none => exact if_pos (lowerText_strip lib rfl rfl rfl)
  | some n =>
    have hread : (posInt lib).read (.int n.val) = .ok n := (posInt lib).reread (a:=n) trivial
    change ((posInt lib).read (.int n.val)).map some = _
    rw [hread,Except.map]

abbrev workers : Schema PyException (Option PosInt) :=
  .lawful (readWorkers lib) writeWorkers (readWorkers_write lib)

/-- `bool | str`. -/
inductive Verify where
  | flag (b : Bool)
  | path (s : String)
  deriving DecidableEq, Repr

def readVerify : Json → Except PyException Verify
  | .str s => .ok (.path s)
  | v => (lib.boolOf v).map .flag

def Verify.json : Verify → Json
  | .flag b => .bool b
  | .path s => .str s

theorem readVerify_json (verify : Verify) : readVerify lib verify.json = .ok verify := by
  cases verify with
  | flag b =>
    change (lib.boolOf (.bool b)).map Verify.flag = _
    rw [lib.boolOf_bool,Except.map]
  | path s => rfl

abbrev verify : Schema PyException Verify :=
  .lawful (readVerify lib) Verify.json (readVerify_json lib)

abbrev text : Schema PyException String := .str

theorem text_isNull (s : String) : (text.write s).isNull = false := rfl

abbrev optionalText : Schema PyException (Option String) := text.optional text_isNull

/-! ### Texts that are normalised -/

def nonempty (text : String) : Option String := if text = "" then none else some text

theorem nonempty_eq_some {text kept : String} :
    nonempty text = some kept ↔ text = kept ∧ kept ≠ "" := by
  unfold nonempty
  split
  · rename_i hempty
    simp [hempty]
  · rename_i hne
    rw [Option.some_inj]
    exact ⟨fun h => ⟨h,h ▸ hne⟩,And.left⟩

theorem strip_strip (text : String) : Rules.strip (Rules.strip text) = Rules.strip text := by
  rw [Rules.strip,Rules.strip,String.toList_ofList,
    PyText.strip_trimmed (PyText.trimmed_strip text.toList)]

/-- A text that is not empty and has no white space at its ends. -/
def IsStripped (text : String) : Prop := Rules.strip text = text ∧ text ≠ ""

theorem nonempty_strip_iff {text kept : String} :
    nonempty (Rules.strip text) = some kept ↔ Rules.strip text = kept ∧ IsStripped kept := by
  rw [nonempty_eq_some]
  constructor
  · intro h
    obtain ⟨rfl,hne⟩ := h
    exact ⟨rfl,strip_strip text,hne⟩
  · intro h
    exact ⟨h.1,h.2.2⟩

theorem nonempty_of_isStripped {text : String} (h : IsStripped text) :
    nonempty (Rules.strip text) = some text :=
  nonempty_strip_iff.mpr ⟨h.1,h⟩

/-- `str(item).strip()`, where it is not empty. -/
def strippedText (v : Json) : Option String := nonempty (Rules.strip (lib.str v))

theorem isStripped_of_strippedText {v : Json} {text : String}
    (h : strippedText lib v = some text) : IsStripped text :=
  (nonempty_strip_iff.mp h).2

theorem strippedText_str {text : String} (h : IsStripped text) :
    strippedText lib (.str text) = some text := by
  rw [strippedText,lib.str_str]
  exact nonempty_of_isStripped h

/-- `normalize_fingerprint` and `normalize_dir`. -/
def readStripped (v : Json) : Except PyException (Option String) :=
  .ok (if v.isNull then none else strippedText lib v)

def optionJson : Option String → Json
  | none => .null
  | some text => .str text

abbrev StrippedText := { text : Option String // ∀ t ∈ text, IsStripped t }

theorem readStripped_stripped (v : Json) (text : Option String)
    (h : readStripped lib v = .ok text) : ∀ t ∈ text, IsStripped t := by
  intro t ht
  have hread := Except.ok.inj h
  rw [Option.mem_def.mp ht] at hread
  split at hread
  · cases hread
  · exact isStripped_of_strippedText lib hread

theorem readStripped_option (text : Option String) (h : ∀ t ∈ text, IsStripped t) :
    readStripped lib (optionJson text) = .ok text := by
  cases text with
  | none => rfl
  | some text => exact congrArg Except.ok (strippedText_str lib (h text rfl))

abbrev strippedTextOrNone : Schema PyException StrippedText :=
  .normal (readStripped lib) optionJson (readStripped_stripped lib) (readStripped_option lib)

/-- The items that a loop over a value has. -/
def iterate : Json → Except PyException (List Json)
  | .arr items => .ok items
  | .str s => .ok (s.toList.map fun c => .str (String.ofList [c]))
  | .obj keys _ _ => .ok (keys.map .str)
  | _ => .error (typeError "object is not iterable")

def textsJson (texts : List String) : Json := .arr (texts.map .str)

/-- Different texts, each of them stripped. -/
structure StrippedTexts (texts : List String) : Prop where
  nodup : texts.Nodup
  stripped : ∀ text ∈ texts, IsStripped text

def stripAll (items : List Json) : Except PyException (List String) :=
  collect (fun item => .ok (strippedText lib item)) items

theorem stripAll_stripped {items : List Json} {texts : List String}
    (h : stripAll lib items = .ok texts) : StrippedTexts texts := by
  obtain ⟨hnodup,hkept⟩ := Collect.collectFrom_kept h
  refine ⟨hnodup,fun text htext => ?_⟩
  obtain ⟨-,item,-,hread⟩ := hkept text htext
  exact isStripped_of_strippedText lib (Except.ok.inj hread)

theorem stripAll_texts {texts : List String} (h : StrippedTexts texts) :
    stripAll lib (texts.map .str) = .ok texts :=
  Collect.collectFrom_self h.nodup (by simp) fun text htext =>
    congrArg Except.ok (strippedText_str lib (h.stripped text htext))

def normalizeBootstrapResolver (v : Json) : Except PyException (List String) :=
  if v.isNull then .ok []
  else do
    let items ← iterate v
    stripAll lib items

abbrev Texts := { texts // StrippedTexts texts }

def noTexts : Texts := ⟨[],List.nodup_nil,by simp⟩

theorem noTexts_stripped : StrippedTexts [] := noTexts.property

theorem Texts.stripped (texts : Texts) : StrippedTexts texts.val := texts.property

theorem normalizeBootstrapResolver_stripped (v : Json) (texts : List String)
    (h : normalizeBootstrapResolver lib v = .ok texts) : StrippedTexts texts := by
  unfold normalizeBootstrapResolver at h
  split at h
  · cases h
    exact ⟨List.nodup_nil,by simp⟩
  · obtain ⟨items,_,h⟩ := Exec.except_bind_eq_ok.mp h
    exact stripAll_stripped lib h

theorem normalizeBootstrapResolver_texts (texts : List String) (h : StrippedTexts texts) :
    normalizeBootstrapResolver lib (textsJson texts) = .ok texts := stripAll_texts lib h

abbrev bootstrapResolver : Schema PyException Texts :=
  .normal (normalizeBootstrapResolver lib) textsJson (normalizeBootstrapResolver_stripped lib)
    (normalizeBootstrapResolver_texts lib)

/-- What is no list is left to pydantic, which takes nothing else. -/
def normalizeServers (v : Json) : Except PyException (List String) := do
  let items ← Json.readItems v
  stripAll lib items

abbrev Servers := { texts : Texts // (!texts.val.isEmpty) = true }

def emptyList : String := "List should have at least 1 item after validation, not 0"

theorem normalizeServers_stripped (v : Json) (texts : List String)
    (h : normalizeServers lib v = .ok texts) : StrippedTexts texts := by
  obtain ⟨items,_,h⟩ := Exec.except_bind_eq_ok.mp h
  exact stripAll_stripped lib h

theorem normalizeServers_texts (texts : List String) (h : StrippedTexts texts) :
    normalizeServers lib (textsJson texts) = .ok texts := stripAll_texts lib h

abbrev serverTexts : Schema PyException Texts :=
  .normal (normalizeServers lib) textsJson (normalizeServers_stripped lib)
    (normalizeServers_texts lib)

abbrev servers : Schema PyException Servers :=
  (serverTexts lib).restrict (fun texts => !texts.val.isEmpty) emptyList

abbrev TextList := { texts : List String // (!texts.isEmpty) = true }

/-- A list of texts that is not empty, with the message for one that is. -/
abbrev textList (message : String) : Schema PyException TextList :=
  text.list.restrict (fun texts => !texts.isEmpty) message

abbrev GivenText := { text : String // decide (text ≠ "") = true }

/-- `Field(min_length=1)`. -/
abbrev givenText : Schema PyException GivenText :=
  text.restrict (fun text => text ≠ "") "String should have at least 1 character"

/-- `item.strip()` of an item. -/
def itemText : Json → Except PyException String
  | .str s => .ok s
  | _ => .error (attributeError "strip")

def normalizeTags (v : Json) : Except PyException (List String) :=
  if v.isNull then .ok []
  else do
    let items ← iterate v
    let texts ← items.mapM itemText
    .ok (Rules.normalizeTags (some texts))

def readTag (item : String) : Except PyException (Option String) :=
  .ok (nonempty (Rules.strip item))

theorem normalizeTagsFrom_eq (seen items : List String) :
    collectFrom readTag seen items = .ok (Rules.normalizeTagsFrom seen items) := by
  induction items generalizing seen with
  | nil => rfl
  | cons item items ih =>
    unfold Rules.normalizeTagsFrom
    by_cases hempty : Rules.strip item = ""
    · rw [Collect.collectFrom_none (by simp [readTag,nonempty,hempty]),ih]
      simp [hempty]
    · have hread : readTag item = .ok (some (Rules.strip item)) := by
        rw [readTag,nonempty,if_neg hempty]
      by_cases hseen : Rules.strip item ∈ seen
      · rw [Collect.collectFrom_seen hread hseen,ih]
        simp [hseen]
      · rw [Collect.collectFrom_new hread hseen,ih]
        simp [hempty,hseen,Except.map]

/-- Both loops over tags keep the same ones. -/
theorem stripAll_eq (items : List Json) :
    stripAll lib items = .ok (Rules.normalizeTagsFrom [] (items.map lib.str)) := by
  rw [← normalizeTagsFrom_eq,Collect.collectFrom_map]
  rfl

theorem mapM_itemText (texts : List String) : (texts.map Json.str).mapM itemText = .ok texts := by
  induction texts with
  | nil => rfl
  | cons text texts ih =>
    rw [List.map_cons,List.mapM_cons,ih]
    rfl

theorem normalizeTags_stripped (v : Json) (tags : List String) (h : normalizeTags v = .ok tags) :
    StrippedTexts tags := by
  unfold normalizeTags at h
  split at h
  · cases h
    exact ⟨List.nodup_nil,by simp⟩
  · obtain ⟨items,_,h⟩ := Exec.except_bind_eq_ok.mp h
    obtain ⟨texts,_,h⟩ := Exec.except_bind_eq_ok.mp h
    obtain ⟨hnodup,hkept⟩ := Collect.collectFrom_kept ((normalizeTagsFrom_eq [] texts).trans h)
    refine ⟨hnodup,fun tag htag => ?_⟩
    obtain ⟨-,text,-,hread⟩ := hkept tag htag
    exact (nonempty_strip_iff.mp (Except.ok.inj hread)).2

theorem normalizeTags_texts (tags : List String) (h : StrippedTexts tags) :
    normalizeTags (textsJson tags) = .ok tags := by
  have hcollect : collectFrom readTag [] (tags.map id) = .ok tags :=
    Collect.collectFrom_self h.nodup (by simp) fun tag htag =>
      congrArg Except.ok (nonempty_of_isStripped (h.stripped tag htag))
  rw [List.map_id,normalizeTagsFrom_eq] at hcollect
  have hitems : (do
      let texts ← (tags.map Json.str).mapM itemText
      .ok (Rules.normalizeTags (some texts)) : Except PyException (List String)) =
    normalizeTags (textsJson tags) := rfl
  rw [← hitems,mapM_itemText]
  exact hcollect

abbrev tags : Schema PyException Texts :=
  .normal normalizeTags textsJson normalizeTags_stripped normalizeTags_texts

def normalizeQtypes (v : Json) : Except PyException (List String) :=
  if v.isNull then .ok []
  else do
    let items ← iterate v
    Rules.normalizeQtypes lib.rdatatypes (some (items.map lib.str))

def readQtype (item : String) : Except PyException (Option String) :=
  let raw := Rules.strip item
  if raw = "" then .ok none
  else do
    let rdtype ← lib.rdatatypes.fromText raw
    .ok (some (lib.rdatatypes.upper (lib.rdatatypes.toText rdtype)))

theorem normalizeQtypesFrom_eq (seen items : List String) :
    collectFrom (readQtype lib) seen items =
      Rules.normalizeQtypesFrom lib.rdatatypes seen items := by
  induction items generalizing seen with
  | nil => rfl
  | cons item items ih =>
    unfold Rules.normalizeQtypesFrom
    by_cases hempty : Rules.strip item = ""
    · rw [Collect.collectFrom_none (by simp [readQtype,hempty]),ih]
      simp [hempty]
    · cases hread : lib.rdatatypes.fromText (Rules.strip item) with
      | error e =>
        have hq : readQtype lib item = .error e := by
          simp [readQtype,hempty,hread,bind,Except.bind]
        rw [Collect.collectFrom_error hq]
        simp [hempty,hread,bind,Except.bind]
      | ok rdtype =>
        have hq : readQtype lib item =
            .ok (some (lib.rdatatypes.upper (lib.rdatatypes.toText rdtype))) := by
          simp [readQtype,hempty,hread,bind,Except.bind]
        simp only [hempty,if_false,hread,bind,Except.bind]
        split
        · rename_i hseen
          rw [Collect.collectFrom_seen hq hseen,ih]
        · rename_i hseen
          rw [Collect.collectFrom_new hq hseen,ih]
          rfl

/-- Different texts of types, as the engine writes them. -/
structure QtypeTexts (qtypes : List String) : Prop where
  nodup : qtypes.Nodup
  written : ∀ qtype ∈ qtypes, ∃ rdtype, qtype = lib.rdatatypes.upper (lib.rdatatypes.toText rdtype)

theorem normalizeQtypes_written (v : Json) (qtypes : List String)
    (h : normalizeQtypes lib v = .ok qtypes) : QtypeTexts lib qtypes := by
  unfold normalizeQtypes at h
  split at h
  · cases h
    exact ⟨List.nodup_nil,by simp⟩
  · obtain ⟨items,_,h⟩ := Exec.except_bind_eq_ok.mp h
    obtain ⟨hnodup,hwritten⟩ := Rules.normalizeQtypesFrom_normal h
    exact ⟨hnodup,fun qtype hqtype => (hwritten qtype hqtype).2⟩

theorem readQtype_written (rdtype : RdataType) :
    readQtype lib (lib.rdatatypes.upper (lib.rdatatypes.toText rdtype)) =
      .ok (some (lib.rdatatypes.upper (lib.rdatatypes.toText rdtype))) := by
  obtain ⟨hstrip,hne⟩ := lib.rdatatypes_plain rdtype
  simp only [readQtype,hstrip,if_neg hne,lib.rdatatypes_lawful.fromText_upper,
    lib.rdatatypes_lawful.fromText_toText,bind,Except.bind]

theorem normalizeQtypes_texts (qtypes : List String) (h : QtypeTexts lib qtypes) :
    normalizeQtypes lib (textsJson qtypes) = .ok qtypes := by
  have hcollect : collectFrom (readQtype lib) [] (qtypes.map id) = .ok qtypes :=
    Collect.collectFrom_self h.nodup (by simp) fun qtype hqtype => by
      obtain ⟨rdtype,rfl⟩ := h.written qtype hqtype
      exact readQtype_written lib rdtype
  rw [List.map_id,normalizeQtypesFrom_eq] at hcollect
  have hstr : (qtypes.map Json.str).map lib.str = qtypes := by
    rw [List.map_map]
    exact List.map_id'' lib.str_str qtypes
  have hitems : Rules.normalizeQtypes lib.rdatatypes (some ((qtypes.map Json.str).map lib.str)) =
    normalizeQtypes lib (textsJson qtypes) := rfl
  rw [← hitems,hstr]
  exact hcollect

abbrev Qtypes := { qtypes // QtypeTexts lib qtypes }

abbrev qtypes : Schema PyException (Qtypes lib) :=
  .normal (normalizeQtypes lib) textsJson (normalizeQtypes_written lib)
    (normalizeQtypes_texts lib)

/-- `ECSConfig.validate_cidr`. -/
def validateCidr (v : Json) : Except PyException String := do
  let text ← readStr v
  match IpText.ipNetwork text.toList with
  | some network => .ok (String.ofList network.withPrefixlen)
  | none => .error (.valueError "does not appear to be an IPv4 or IPv6 network")

/-- The text of a network. -/
def IsCidr (text : String) : Prop :=
  ∃ network : IpText.Network, text = String.ofList network.withPrefixlen

abbrev ECSConfig := { text // IsCidr text }

theorem validateCidr_isCidr (v : Json) (text : String) (h : validateCidr v = .ok text) :
    IsCidr text := by
  obtain ⟨given,_,h⟩ := Exec.except_bind_eq_ok.mp h
  split at h
  · cases h
    exact ⟨_,rfl⟩
  · cases h

theorem validateCidr_str (text : String) (h : IsCidr text) :
    validateCidr (.str text) = .ok text := by
  obtain ⟨network,rfl⟩ := h
  simp only [validateCidr,readStr,bind,Except.bind,String.toList_ofList,
    IpText.ipNetwork_withPrefixlen]

abbrev ecs : Schema PyException ECSConfig :=
  .normal validateCidr .str validateCidr_isCidr validateCidr_str

end ConfigFile

end SmartDns
