import SmartDns.Lib.Exec
import Mathlib.Data.List.Forall2
import Mathlib.Data.List.Nodup
import Mathlib.Data.Rat.Defs
set_option autoImplicit false

/-!
JSON values, and schemas that read and write values of a type. A schema knows how two values
compare and which of them are read back as they were written; lists, records and choices of
schemas know it of their parts.
-/

/-- A floating point number that is none of those without an order; zeros have no sign. -/
inductive Double where
  | finite (value : ℚ)
  | infinite (negative : Bool)
  deriving DecidableEq, Repr

/-- The keys of an object are in order. -/
inductive Json where
  | null
  | bool (b : Bool)
  | int (n : ℤ)
  | float (x : Double)
  | str (s : String)
  | arr (items : List Json)
  | obj (keys : List String) (distinct : keys.Nodup) (value : Fin keys.length → Json)

structure JsonObject where
  keys : List String
  distinct : keys.Nodup
  value : Fin keys.length → Json

/-- Errors that hold a message. -/
class Fails (ε : Type) where
  fail : String → ε

namespace JsonObject

def json (o : JsonObject) : Json := .obj o.keys o.distinct o.value

theorem json_injective : Function.Injective json := by
  intro o o' h
  cases o
  cases o'
  cases h
  rfl

def members (o : JsonObject) : List (String × Json) :=
  List.ofFn fun i => (o.keys.get i,o.value i)

def ofMembers (members : List (String × Json)) (h : (members.map Prod.fst).Nodup) :
    JsonObject where
  keys := members.map Prod.fst
  distinct := h
  value i := (members.get (i.cast (List.length_map _))).2

@[simp] theorem members_ofMembers (members : List (String × Json))
    (h : (members.map Prod.fst).Nodup) : (ofMembers members h).members = members := by
  refine List.ext_getElem (List.length_ofFn.trans (List.length_map _)) fun i hi hi' => ?_
  exact (List.getElem_ofFn _).trans (Prod.ext (List.getElem_map _) rfl)

@[simp] theorem map_fst_members (o : JsonObject) : o.members.map Prod.fst = o.keys := by
  refine List.ext_getElem ((List.length_map _).trans List.length_ofFn) fun i hi hi' => ?_
  exact (List.getElem_map _).trans (congrArg Prod.fst (List.getElem_ofFn _))

end JsonObject

namespace Json

variable {ε α : Type}

def isNull : Json → Bool
  | .null => true
  | _ => false

section
variable [Fails ε]

def invalid (message : String) : Except ε α := .error (Fails.fail message)

def readStr : Json → Except ε String
  | .str s => .ok s
  | _ => invalid "Input should be a valid string"

def readItems : Json → Except ε (List Json)
  | .arr items => .ok items
  | _ => invalid "Input should be a valid list"

def readObject : Json → Except ε JsonObject
  | .obj keys distinct value => .ok ⟨keys,distinct,value⟩
  | _ => invalid "Input should be a valid dictionary"

theorem readStr_str (s : String) : (readStr (.str s) : Except ε String) = .ok s := rfl

theorem readObject_json (o : JsonObject) : (readObject o.json : Except ε JsonObject) = .ok o := rfl

def readChoice (name : α → String) (choices : List α) (v : Json) : Except ε α := do
  let text ← readStr v
  match choices.find? fun b => name b = text with
  | some a => .ok a
  | none => invalid "Input should be one of the choices"

theorem readChoice_str {name : α → String} {choices : List α}
    (h : ∀ a, choices.find? (fun b => name b = name a) = some a) (a : α) :
    (readChoice name choices (.str (name a)) : Except ε α) = .ok a := by
  simp only [readChoice,readStr,bind,Except.bind,h]

/-- A member of a record; without a default it is required. -/
def field (members : List (String × Json)) (name : String) (read : Json → Except ε α)
    (default : Option α) : Except ε α :=
  match members.lookup name,default with
  | some value,_ => read value
  | none,some a => .ok a
  | none,none => invalid "Field required"

def forbidExtra (names : List String) (members : List (String × Json)) : Except ε Unit :=
  if members.all fun member => member.1 ∈ names then .ok ()
  else invalid "Extra inputs are not permitted"

/-- The values of a member of an object; there is at most one. -/
def valuesAt (name : String) (members : List (String × Json)) : List Json :=
  (members.lookup name).toList

def member (name : String) : Json → List Json
  | .obj keys distinct value => valuesAt name (JsonObject.members ⟨keys,distinct,value⟩)
  | _ => []

def items : Json → List Json
  | .arr items => items
  | _ => []

theorem member_json (name : String) (o : JsonObject) :
    o.json.member name = valuesAt name o.members := rfl

theorem readItems_ok {v : Json} {l : List Json} (h : (readItems v : Except ε (List Json)) = .ok l) :
    v.items = l := by
  cases v with
  | arr items => exact Except.ok.inj h
  | _ => cases h

theorem readObject_ok {v : Json} {o : JsonObject}
    (h : (readObject v : Except ε JsonObject) = .ok o) : v = o.json := by
  cases v with
  | obj keys distinct value =>
    cases h
    rfl
  | _ => cases h

/-- What holds of the default and of what is read. -/
theorem field_forall_iff {members : List (String × Json)} {name : String} {read : Json → Except ε α}
    {default a : α} {p : α → Prop} {q : Json → Prop}
    (h : field members name read (some default) = .ok a) (hdefault : p default)
    (hread : ∀ v a, read v = .ok a → (p a ↔ q v)) : p a ↔ ∀ v ∈ valuesAt name members, q v := by
  unfold field at h
  unfold valuesAt
  cases hlookup : members.lookup name with
  | none =>
    rw [hlookup] at h
    cases h
    simpa using hdefault
  | some v =>
    rw [hlookup] at h
    rw [hread v a h]
    simp

theorem field_ok {members : List (String × Json)} {name : String} {read : Json → Except ε α}
    {default a : α} (h : field members name read (some default) = .ok a) :
    a = default ∨ ∃ v, read v = .ok a := by
  unfold field at h
  cases hlookup : members.lookup name with
  | none =>
    rw [hlookup] at h
    cases h
    exact .inl rfl
  | some v =>
    rw [hlookup] at h
    exact .inr ⟨v,h⟩

theorem field_some {members : List (String × Json)} {name : String} {value : Json}
    (h : members.lookup name = some value) (read : Json → Except ε α) (default : Option α) :
    field members name read default = read value := by
  simp [field,h]

theorem valuesAt_extra {names : List String} {members : List (String × Json)} {name : String}
    (h : (forbidExtra names members : Except ε Unit) = .ok ()) (hname : name ∉ names) :
    valuesAt name members = [] := by
  unfold forbidExtra at h
  split at h
  · rename_i hall
    rw [valuesAt,Option.toList_eq_nil_iff,List.lookup_eq_none_iff]
    intro member hmember
    have hin := of_decide_eq_true (List.all_eq_true.mp hall member hmember)
    refine bne_iff_ne.mpr fun heq => hname ?_
    rw [heq]
    exact hin
  · cases h

theorem forbidExtra_ok {names : List String} {members : List (String × Json)}
    (h : members.map Prod.fst = names) : (forbidExtra names members : Except ε Unit) = .ok () := by
  refine if_pos (List.all_eq_true.mpr fun member hmember => decide_eq_true ?_)
  rw [← h]
  exact List.mem_map_of_mem hmember

end

/-- Nothing is nested deeper than a bound, and no number is infinite. -/
def plain : ℕ → Json → Bool
  | 0,_ => false
  | n+1,.arr items => items.all (plain n)
  | n+1,.obj _ _ value => decide (∀ i, plain n (value i) = true)
  | _+1,.float (.infinite _) => false
  | _+1,_ => true

/-- The object has these members. -/
def Agrees (entries members : List (String × Json)) : Prop :=
  ∀ entry ∈ entries, members.lookup entry.1 = some entry.2

theorem agrees_self {members : List (String × Json)} (h : (members.map Prod.fst).Nodup) :
    Agrees members members := by
  induction members with
  | nil => simp [Agrees]
  | cons member members ih =>
    obtain ⟨hfresh,hnodup⟩ := List.nodup_cons.mp h
    intro entry hentry
    obtain rfl | hentry := List.mem_cons.mp hentry
    · exact List.lookup_cons_self
    · have hne : (entry.1 == member.1) = false := by
        refine beq_eq_false_iff_ne.mpr fun heq => hfresh ?_
        rw [← heq]
        exact List.mem_map_of_mem hentry
      rw [List.lookup_cons,hne]
      exact ih hnodup entry hentry

theorem agrees_append {front back members : List (String × Json)} :
    Agrees (front ++ back) members ↔ Agrees front members ∧ Agrees back members :=
  List.forall_mem_append

end Json

theorem Except.map_eq_ok {ε α β : Type} {x : Except ε α} {f : α → β} {b : β} :
    x.map f = .ok b ↔ ∃ a, x = .ok a ∧ f a = b := by
  cases x <;> simp [Except.map]

theorem Except.mapM_eq_ok {ε α β : Type} {f : α → Except ε β} {items : List α} {results : List β} :
    items.mapM f = .ok results ↔ List.Forall₂ (fun a b => f a = .ok b) items results := by
  induction items generalizing results with
  | nil =>
    rw [List.forall₂_nil_left_iff]
    exact ⟨fun h => (Except.ok.inj h).symm,fun h => h ▸ rfl⟩
  | cons a items ih =>
    rw [List.mapM_cons,Exec.except_bind_eq_ok,List.forall₂_cons_left_iff]
    refine exists_congr fun b => ?_
    simp only [Exec.except_bind_eq_ok,ih]
    constructor
    · intro h
      obtain ⟨hb,rest,hrest,heq⟩ := h
      exact ⟨rest,hb,hrest,(Except.ok.inj heq).symm⟩
    · intro h
      obtain ⟨rest,hb,hrest,rfl⟩ := h
      exact ⟨hb,rest,hrest,rfl⟩

theorem Except.mapM_surjective {ε α β : Type} {f : α → Except ε β} {results : List β}
    (h : ∀ b ∈ results, ∃ a, f a = .ok b) : ∃ items : List α, items.mapM f = .ok results := by
  induction results with
  | nil => exact ⟨[],rfl⟩
  | cons b results ih =>
    obtain ⟨⟨a,ha⟩,hrest⟩ := List.forall_mem_cons.mp h
    obtain ⟨items,hitems⟩ := ih hrest
    exact ⟨a :: items,Except.mapM_eq_ok.mpr (.cons ha (Except.mapM_eq_ok.mp hitems))⟩

theorem List.Forall₂.map_eq {α β γ : Type} {R : α → β → Prop} {f : α → γ} {g : β → γ}
    {l : List α} {m : List β} (h : List.Forall₂ R l m) (hR : ∀ a b, R a b → f a = g b) :
    l.map f = m.map g := by
  rw [← List.forall₂_eq_eq_eq,List.forall₂_map_left_iff,List.forall₂_map_right_iff]
  exact h.imp hR

theorem List.Forall₂.forall_right {α β : Type} {R : α → β → Prop} {P : β → Prop}
    {l : List α} {m : List β} (h : List.Forall₂ R l m) (hR : ∀ a b, R a b → P b) :
    ∀ b ∈ m, P b := by
  induction h with
  | nil => simp
  | cons hfirst _ ih => exact List.forall_mem_cons.mpr ⟨hR _ _ hfirst,ih⟩

/-- How values of a type are read and written; `Same` is how two of them compare, and `Stable`
which of them are read back as the same value. -/
structure Schema (ε α : Type) where
  read : Json → Except ε α
  write : α → Json
  Same : α → α → Prop
  Stable : α → Prop
  stable_iff : ∀ a, (∃ b, read (write a) = .ok b ∧ Same b a) ↔ Stable a

/-- Two values are the same only when they are equal. -/
class Schema.Discrete {ε α : Type} (s : Schema ε α) : Prop where
  same : ∀ a b, s.Same a b ↔ a = b

/-- Every value is read back. -/
class Schema.Kept {ε α : Type} (s : Schema ε α) : Prop where
  stable : ∀ a, s.Stable a

namespace Schema

open Json

variable {ε α β : Type}

theorem stable_kept (s : Schema ε α) [hs : s.Kept] (a : α) : s.Stable a ↔ True :=
  iff_true_intro (hs.stable a)

theorem reread (s : Schema ε α) [hs : s.Discrete] {a : α} (h : s.Stable a) :
    s.read (s.write a) = .ok a := by
  obtain ⟨b,hread,hsame⟩ := (s.stable_iff a).mpr h
  rwa [(hs.same b a).mp hsame] at hread

/-- Values of which nothing is known but how they are read and written. -/
def plain (read : Json → Except ε α) (write : α → Json) : Schema ε α where
  read := read
  write := write
  Same := Eq
  Stable a := read (write a) = .ok a
  stable_iff _ := exists_eq_right

instance {read : Json → Except ε α} {write : α → Json} : (plain read write).Discrete :=
  ⟨fun _ _ => Iff.rfl⟩

def lawful (read : Json → Except ε α) (write : α → Json) (h : ∀ a, read (write a) = .ok a) :
    Schema ε α where
  read := read
  write := write
  Same := Eq
  Stable _ := True
  stable_iff a := exists_eq_right.trans (iff_true_intro (h a))

instance {read : Json → Except ε α} {write : α → Json} {h : ∀ a, read (write a) = .ok a} :
    (lawful read write h).Discrete := ⟨fun _ _ => Iff.rfl⟩

instance {read : Json → Except ε α} {write : α → Json} {h : ∀ a, read (write a) = .ok a} :
    (lawful read write h).Kept := ⟨fun _ => trivial⟩

/-- The values with a property, where a reader gives no others and reads these back. -/
def normal (read : Json → Except ε α) (write : α → Json) {p : α → Prop}
    (hread : ∀ v a, read v = .ok a → p a) (h : ∀ a, p a → read (write a) = .ok a) :
    Schema ε { a : α // p a } :=
  lawful
    (fun v =>
      match ha : read v with
      | .ok a => .ok ⟨a,hread v a ha⟩
      | .error e => .error e)
    (fun a => write a.val) (fun a => by
      have ha := h a.val a.property
      split
      · rename_i b hb
        cases ha.symm.trans hb
        rfl
      · rename_i e he
        cases ha.symm.trans he)

section
variable {read : Json → Except ε α} {write : α → Json} {p : α → Prop}
  {hread : ∀ v a, read v = .ok a → p a} {h : ∀ a, p a → read (write a) = .ok a}

theorem normal_read {v : Json} {a : { a : α // p a }}
    (ha : (normal read write hread h).read v = .ok a) :
    read v = .ok a.val := by
  change (match hb : read v with
    | .ok b => Except.ok ⟨b,hread v b hb⟩
    | .error e => .error e : Except ε { a : α // p a }) = .ok a at ha
  split at ha
  · cases ha
    assumption
  · cases ha

instance : (normal read write hread h).Discrete := inferInstanceAs (lawful _ _ _).Discrete

instance : (normal read write hread h).Kept := inferInstanceAs (lawful _ _ _).Kept

end

def convert (s : Schema ε α) (f : α → β) (g : β → α) (_h : ∀ b, f (g b) = b)
    (hback : ∀ a, g (f a) = a) : Schema ε β where
  read v := (s.read v).map f
  write b := s.write (g b)
  Same b b' := s.Same (g b) (g b')
  Stable b := s.Stable (g b)
  stable_iff b := by
    rw [← s.stable_iff (g b)]
    constructor
    · intro hb
      obtain ⟨b',hread,hsame⟩ := hb
      obtain ⟨a,ha,rfl⟩ := Except.map_eq_ok.mp hread
      exact ⟨a,ha,by rwa [hback] at hsame⟩
    · intro ha
      obtain ⟨a,hread,hsame⟩ := ha
      exact ⟨f a,Except.map_eq_ok.mpr ⟨a,hread,rfl⟩,by rwa [hback]⟩

section
variable {s : Schema ε α} {f : α → β} {g : β → α} {h : ∀ b, f (g b) = b} {hback : ∀ a, g (f a) = a}

instance [hs : s.Discrete] : (s.convert f g h hback).Discrete where
  same a b := by
    refine (hs.same (g a) (g b)).trans ⟨fun heq => ?_,fun heq => heq ▸ rfl⟩
    rw [← h a,← h b,heq]

instance [hs : s.Kept] : (s.convert f g h hback).Kept := ⟨fun b => hs.stable (g b)⟩

end

section
variable [Fails ε]

abbrev str : Schema ε String := lawful readStr .str readStr_str

abbrev object : Schema ε JsonObject := lawful readObject JsonObject.json readObject_json

/-- Only the values with a property, which two of the same value share. -/
def check (s : Schema ε α) (p : α → Bool) (message : String)
    (h : ∀ a b, s.Same a b → p a = p b) : Schema ε { a : α // p a = true } where
  read v := do
    let a ← s.read v
    if ha : p a = true then .ok ⟨a,ha⟩ else invalid message
  write a := s.write a.val
  Same a b := s.Same a.val b.val
  Stable a := s.Stable a.val
  stable_iff a := by
    rw [← s.stable_iff a.val]
    constructor
    · intro ha
      obtain ⟨b,hread,hsame⟩ := ha
      obtain ⟨c,hc,hcheck⟩ := Exec.except_bind_eq_ok.mp hread
      split at hcheck
      · cases hcheck
        exact ⟨c,hc,hsame⟩
      · cases hcheck
    · intro ha
      obtain ⟨b,hread,hsame⟩ := ha
      have hb : p b = true := (h b a.val hsame).trans a.property
      exact ⟨⟨b,hb⟩,Exec.except_bind_eq_ok.mpr ⟨b,hread,dif_pos hb⟩,hsame⟩

/-- A property of values that are the same only when they are equal. -/
abbrev restrict (s : Schema ε α) [hs : s.Discrete] (p : α → Bool) (message : String) :
    Schema ε { a : α // p a = true } :=
  s.check p message fun a b h => by rw [(hs.same a b).mp h]

instance {s : Schema ε α} [hs : s.Discrete] {p : α → Bool} {message : String}
    {h : ∀ a b, s.Same a b → p a = p b} : (s.check p message h).Discrete :=
  ⟨fun a b => (hs.same a.val b.val).trans Subtype.ext_iff.symm⟩

instance {s : Schema ε α} [hs : s.Kept] {p : α → Bool} {message : String}
    {h : ∀ a b, s.Same a b → p a = p b} : (s.check p message h).Kept :=
  ⟨fun a => hs.stable a.val⟩

/-- A value or null. -/
def optional (s : Schema ε α) (h : ∀ a, (s.write a).isNull = false) : Schema ε (Option α) where
  read v := if v.isNull then .ok none else (s.read v).map some
  write
    | none => .null
    | some a => s.write a
  Same := Option.Rel s.Same
  Stable a := ∀ b ∈ a, s.Stable b
  stable_iff a := by
    cases a with
    | none => exact iff_of_true ⟨none,rfl,.none⟩ (by simp)
    | some a =>
      have hsome : (∀ b ∈ some a, s.Stable b) ↔ s.Stable a := by simp
      rw [hsome,← s.stable_iff a]
      simp only [h a,Bool.false_eq_true,if_false]
      constructor
      · intro ha
        obtain ⟨b,hread,hsame⟩ := ha
        obtain ⟨c,hc,rfl⟩ := Except.map_eq_ok.mp hread
        cases hsame with
        | some hsame => exact ⟨c,hc,hsame⟩
      · intro ha
        obtain ⟨b,hread,hsame⟩ := ha
        exact ⟨some b,Except.map_eq_ok.mpr ⟨b,hread,rfl⟩,.some hsame⟩

instance {s : Schema ε α} [hs : s.Discrete] {h : ∀ a, (s.write a).isNull = false} :
    (s.optional h).Discrete where
  same a b := by
    constructor
    · intro hsame
      cases hsame with
      | none => rfl
      | some hsame => rw [(hs.same _ _).mp hsame]
    · intro heq
      subst heq
      cases a with
      | none => exact .none
      | some a => exact .some ((hs.same a a).mpr rfl)

instance {s : Schema ε α} [hs : s.Kept] {h : ∀ a, (s.write a).isNull = false} :
    (s.optional h).Kept := ⟨fun _ b _ => hs.stable b⟩

/-- One of several texts. -/
abbrev choice (name : α → String) (choices : List α)
    (h : ∀ a, choices.find? (fun b => name b = name a) = some a) : Schema ε α :=
  lawful (readChoice name choices) (fun a => .str (name a)) (readChoice_str h)

end

/-! ### Lists -/

theorem list_forall_iff {read : Json → Except ε α} {l : List Json} {as : List α} {p : α → Prop}
    {q : Json → Prop} (h : l.mapM read = .ok as) (hread : ∀ v a, read v = .ok a → (p a ↔ q v)) :
    (∀ a ∈ as, p a) ↔ ∀ v ∈ l, q v := by
  have hpairs := Except.mapM_eq_ok.mp h
  clear h
  induction hpairs with
  | nil => simp
  | cons hfirst _ ih =>
    rw [List.forall_mem_cons,List.forall_mem_cons]
    exact and_congr (hread _ _ hfirst) ih

theorem mapM_stable_iff (s : Schema ε α) (items : List α) :
    (∃ others, (items.map s.write).mapM s.read = .ok others ∧ List.Forall₂ s.Same others items) ↔
      ∀ a ∈ items, s.Stable a := by
  simp only [Except.mapM_eq_ok,List.forall₂_map_left_iff]
  induction items with
  | nil => exact iff_of_true ⟨[],.nil,.nil⟩ (by simp)
  | cons a items ih =>
    rw [List.forall_mem_cons,← s.stable_iff a,← ih]
    constructor
    · intro h
      obtain ⟨others,hread,hsame⟩ := h
      cases hread with
      | cons hb hrest =>
        cases hsame with
        | cons hfirst hsame => exact ⟨⟨_,hb,hfirst⟩,_,hrest,hsame⟩
    · intro h
      obtain ⟨⟨b,hb,hfirst⟩,rest,hrest,hsame⟩ := h
      exact ⟨b :: rest,.cons hb hrest,.cons hfirst hsame⟩

def list [Fails ε] (s : Schema ε α) : Schema ε (List α) where
  read v := do
    let items ← readItems v
    items.mapM s.read
  write items := .arr (items.map s.write)
  Same := List.Forall₂ s.Same
  Stable items := ∀ a ∈ items, s.Stable a
  stable_iff := s.mapM_stable_iff

instance [Fails ε] {s : Schema ε α} [hs : s.Discrete] : s.list.Discrete where
  same a b := by
    have heq : s.Same = Eq := by
      funext x y
      exact propext (hs.same x y)
    change List.Forall₂ s.Same a b ↔ a = b
    rw [heq,List.forall₂_eq_eq_eq]

instance [Fails ε] {s : Schema ε α} [hs : s.Kept] : s.list.Kept := ⟨fun _ a _ => hs.stable a⟩

/-! ### Records -/

/-- Some members of a record. -/
structure Part (ε α : Type) where
  names : List String
  read : List (String × Json) → Except ε α
  write : α → List (String × Json)
  Same : α → α → Prop
  Stable : α → Prop
  named : ∀ a, (write a).map Prod.fst = names
  stable_iff : ∀ a members, Agrees (write a) members →
    ((∃ b, read members = .ok b ∧ Same b a) ↔ Stable a)

class Part.Discrete (p : Part ε α) : Prop where
  same : ∀ a b, p.Same a b ↔ a = b

class Part.Kept (p : Part ε α) : Prop where
  stable : ∀ a, p.Stable a

namespace Part

theorem eq_of_same {p : Part ε α} [hp : p.Discrete] {a b : α} (h : p.Same a b) : a = b :=
  (hp.same a b).mp h

/-- A member with a schema; without a default it is required. -/
def field [Fails ε] (name : String) (s : Schema ε α) (default : Option α := none) : Part ε α where
  names := [name]
  read members := Json.field members name s.read default
  write a := [(name,s.write a)]
  Same := s.Same
  Stable := s.Stable
  named _ := rfl
  stable_iff a members h := by
    rw [field_some (h _ List.mem_cons_self)]
    exact s.stable_iff a

instance [Fails ε] {name : String} {s : Schema ε α} [hs : s.Discrete] {default : Option α} :
    (field name s default).Discrete := ⟨hs.same⟩

instance [Fails ε] {name : String} {s : Schema ε α} [hs : s.Kept] {default : Option α} :
    (field name s default).Kept := ⟨hs.stable⟩

def readLiteral [Fails ε] (text : String) (v : Json) : Except ε Unit := do
  let given ← readStr v
  if given = text then .ok () else invalid "Input should be the literal"

theorem readLiteral_str [Fails ε] (text : String) (u : Unit) :
    (readLiteral text (.str text) : Except ε Unit) = .ok u := if_pos rfl

/-- A member that has one text. -/
abbrev literal [Fails ε] (name text : String) : Part ε Unit :=
  field name (.lawful (readLiteral text) (fun _ => .str text) (readLiteral_str text)) (some ())

def nothing : Part ε Unit where
  names := []
  read _ := .ok ()
  write _ := []
  Same := Eq
  Stable _ := True
  named _ := rfl
  stable_iff _ _ _ := iff_of_true ⟨(),rfl,rfl⟩ trivial

def and (p : Part ε α) (q : Part ε β) : Part ε (α × β) where
  names := p.names ++ q.names
  read members := do
    let a ← p.read members
    let b ← q.read members
    .ok (a,b)
  write ab := p.write ab.1 ++ q.write ab.2
  Same x y := p.Same x.1 y.1 ∧ q.Same x.2 y.2
  Stable ab := p.Stable ab.1 ∧ q.Stable ab.2
  named ab := by rw [List.map_append,p.named,q.named]
  stable_iff ab members h := by
    obtain ⟨hp,hq⟩ := agrees_append.mp h
    rw [← p.stable_iff ab.1 members hp,← q.stable_iff ab.2 members hq]
    constructor
    · intro hab
      obtain ⟨cd,hread,hsame⟩ := hab
      obtain ⟨a,ha,hread⟩ := Exec.except_bind_eq_ok.mp hread
      obtain ⟨b,hb,hcd⟩ := Exec.except_bind_eq_ok.mp hread
      cases hcd
      exact ⟨⟨a,ha,hsame.1⟩,b,hb,hsame.2⟩
    · intro hab
      obtain ⟨⟨a,ha,hsame⟩,b,hb,hsame'⟩ := hab
      refine ⟨(a,b),?_,hsame,hsame'⟩
      exact Exec.except_bind_eq_ok.mpr ⟨a,ha,Exec.except_bind_eq_ok.mpr ⟨b,hb,rfl⟩⟩

instance {p : Part ε α} {q : Part ε β} [hp : p.Discrete] [hq : q.Discrete] :
    (p.and q).Discrete :=
  ⟨fun a b => ((hp.same a.1 b.1).and (hq.same a.2 b.2)).trans Prod.ext_iff.symm⟩

instance {p : Part ε α} {q : Part ε β} [hp : p.Kept] [hq : q.Kept] : (p.and q).Kept :=
  ⟨fun a => ⟨hp.stable a.1,hq.stable a.2⟩⟩

def convert (p : Part ε α) (f : α → β) (g : β → α) (_h : ∀ b, f (g b) = b)
    (hback : ∀ a, g (f a) = a) : Part ε β where
  names := p.names
  read members := (p.read members).map f
  write b := p.write (g b)
  Same b b' := p.Same (g b) (g b')
  Stable b := p.Stable (g b)
  named b := p.named (g b)
  stable_iff b members hb := by
    rw [← p.stable_iff (g b) members hb]
    constructor
    · intro hb
      obtain ⟨b',hread,hsame⟩ := hb
      obtain ⟨a,ha,rfl⟩ := Except.map_eq_ok.mp hread
      exact ⟨a,ha,by rwa [hback] at hsame⟩
    · intro ha
      obtain ⟨a,hread,hsame⟩ := ha
      exact ⟨f a,Except.map_eq_ok.mpr ⟨a,hread,rfl⟩,by rwa [hback]⟩

section
variable {p : Part ε α} {f : α → β} {g : β → α} {h : ∀ b, f (g b) = b} {hback : ∀ a, g (f a) = a}

instance [hp : p.Discrete] : (p.convert f g h hback).Discrete where
  same a b := by
    refine (hp.same (g a) (g b)).trans ⟨fun heq => ?_,fun heq => heq ▸ rfl⟩
    rw [← h a,← h b,heq]

instance [hp : p.Kept] : (p.convert f g h hback).Kept := ⟨fun b => hp.stable (g b)⟩

end

theorem read_and {p : Part ε α} {q : Part ε β} {members : List (String × Json)} {ab : α × β}
    (h : (p.and q).read members = .ok ab) :
    p.read members = .ok ab.1 ∧ q.read members = .ok ab.2 := by
  obtain ⟨a,ha,h⟩ := Exec.except_bind_eq_ok.mp h
  obtain ⟨b,hb,h⟩ := Exec.except_bind_eq_ok.mp h
  cases h
  exact ⟨ha,hb⟩

theorem read_convert {p : Part ε α} {f : α → β} {g : β → α} {h : ∀ b, f (g b) = b}
    {hback : ∀ a, g (f a) = a} {members : List (String × Json)} {b : β}
    (hb : (p.convert f g h hback).read members = .ok b) : p.read members = .ok (g b) := by
  obtain ⟨a,ha,rfl⟩ := Except.map_eq_ok.mp hb
  rwa [hback]

/-- Only the members that nothing speaks against; the same members are spoken against alike. -/
def check [Fails ε] (p : Part ε α) (refuse : α → Option String)
    (h : ∀ a b, p.Same a b → refuse a = refuse b) : Part ε { a : α // refuse a = none } where
  names := p.names
  read members := do
    let a ← p.read members
    match ha : refuse a with
    | none => .ok ⟨a,ha⟩
    | some message => invalid message
  write a := p.write a.val
  Same a b := p.Same a.val b.val
  Stable a := p.Stable a.val
  named a := p.named a.val
  stable_iff a members hmembers := by
    rw [← p.stable_iff a.val members hmembers]
    constructor
    · intro ha
      obtain ⟨b,hread,hsame⟩ := ha
      obtain ⟨c,hc,hcheck⟩ := Exec.except_bind_eq_ok.mp hread
      split at hcheck
      · cases hcheck
        exact ⟨c,hc,hsame⟩
      · cases hcheck
    · intro ha
      obtain ⟨b,hread,hsame⟩ := ha
      have hb : refuse b = none := (h b a.val hsame).trans a.property
      refine ⟨⟨b,hb⟩,Exec.except_bind_eq_ok.mpr ⟨b,hread,?_⟩,hsame⟩
      split
      · rfl
      · rename_i message hmessage
        rw [hb] at hmessage
        cases hmessage

abbrev restrict [Fails ε] (p : Part ε α) [hp : p.Discrete] (refuse : α → Option String) :
    Part ε { a : α // refuse a = none } :=
  p.check refuse fun a b h => by rw [(hp.same a b).mp h]

section
variable [Fails ε] {p : Part ε α} {refuse : α → Option String}
  {h : ∀ a b, p.Same a b → refuse a = refuse b}

instance [hp : p.Discrete] : (p.check refuse h).Discrete :=
  ⟨fun a b => (hp.same a.val b.val).trans Subtype.ext_iff.symm⟩

instance [hp : p.Kept] : (p.check refuse h).Kept := ⟨fun a => hp.stable a.val⟩

end

def object (p : Part ε α) (hnodup : p.names.Nodup) (a : α) : JsonObject :=
  .ofMembers (p.write a) (by rw [p.named]; exact hnodup)

theorem agrees_object (p : Part ε α) (hnodup : p.names.Nodup) (a : α) :
    Agrees (p.write a) (p.object hnodup a).members := by
  rw [object,JsonObject.members_ofMembers]
  exact agrees_self (by rw [p.named]; exact hnodup)

theorem plain_object {p : Part ε α} {hnodup : p.names.Nodup} {a : α} {n : ℕ}
    (h : ∀ member ∈ p.write a, member.2.plain n = true) :
    (p.object hnodup a).json.plain (n+1) = true := by
  refine decide_eq_true fun i => h _ ?_
  exact List.get_mem _ _

theorem plain_field [Fails ε] {name : String} {s : Schema ε α} {default : Option α} {a : α} {n : ℕ}
    (h : (s.write a).plain n = true) :
    ∀ member ∈ (field name s default).write a, member.2.plain n = true := by
  intro member hmember
  obtain rfl := List.mem_singleton.mp hmember
  exact h

theorem plain_and {p : Part ε α} {q : Part ε β} {ab : α × β} {n : ℕ}
    (hp : ∀ member ∈ p.write ab.1, member.2.plain n = true)
    (hq : ∀ member ∈ q.write ab.2, member.2.plain n = true) :
    ∀ member ∈ (p.and q).write ab, member.2.plain n = true :=
  List.forall_mem_append.mpr ⟨hp,hq⟩

section
variable [Fails ε]

/-- The members of a record; `strict` forbids others beside them. -/
def readRecord (p : Part ε α) (strict : Bool) (v : Json) : Except ε α := do
  let o ← readObject v
  if strict then forbidExtra p.names o.members
  p.read o.members

theorem readRecord_object (p : Part ε α) (strict : Bool) (hnodup : p.names.Nodup) (a : α) :
    p.readRecord strict (p.object hnodup a).json = p.read (p.object hnodup a).members := by
  have hnames : (p.object hnodup a).members.map Prod.fst = p.names := by
    rw [object,JsonObject.members_ofMembers,p.named]
  cases strict with
  | false => rfl
  | true =>
    change (do
      (forbidExtra p.names (p.object hnodup a).members : Except ε Unit)
      p.read (p.object hnodup a).members) = _
    rw [forbidExtra_ok hnames]
    rfl

theorem readRecord_ok {p : Part ε α} {strict : Bool} {v : Json} {a : α}
    (h : p.readRecord strict v = .ok a) :
    ∃ o : JsonObject, v = o.json ∧ p.read o.members = .ok a := by
  obtain ⟨o,ho,h⟩ := Exec.except_bind_eq_ok.mp h
  refine ⟨o,readObject_ok ho,?_⟩
  cases strict with
  | false => exact h
  | true =>
    obtain ⟨_,_,h⟩ := Exec.except_bind_eq_ok.mp h
    exact h

theorem member_extra {p : Part ε α} {v : Json} {a : α} (h : p.readRecord true v = .ok a)
    (name : String) (hname : name ∉ p.names) : v.member name = [] := by
  obtain ⟨o,ho,h⟩ := Exec.except_bind_eq_ok.mp h
  obtain ⟨u,hextra,_⟩ := Exec.except_bind_eq_ok.mp h
  rw [readObject_ok ho,member_json]
  exact valuesAt_extra hextra hname

def record (p : Part ε α) (hnodup : p.names.Nodup) (strict : Bool := true) : Schema ε α where
  read := p.readRecord strict
  write a := (p.object hnodup a).json
  Same := p.Same
  Stable := p.Stable
  stable_iff a := by
    rw [p.readRecord_object strict hnodup a]
    exact p.stable_iff a _ (p.agrees_object hnodup a)

instance {p : Part ε α} [hp : p.Discrete] {hnodup : p.names.Nodup} {strict : Bool} :
    (p.record hnodup strict).Discrete := ⟨hp.same⟩

instance {p : Part ε α} [hp : p.Kept] {hnodup : p.names.Nodup} {strict : Bool} :
    (p.record hnodup strict).Kept := ⟨hp.stable⟩

end

end Part

/-- A record of one of several kinds, which one of its members names. -/
def tagged [Fails ε] {ι : Type} {γ : ι → Type} (tag : String) (name : ι → String)
    (choices : List ι) (p : ∀ i, Part ε (γ i)) (hnodup : ∀ i, (p i).names.Nodup)
    (hchoices : ∀ i, choices.find? (fun j => name j = name i) = some i)
    (htag : ∀ i a, (tag,.str (name i)) ∈ (p i).write a) : Schema ε (Σ i, γ i) where
  read v := do
    let o ← readObject v
    let text ← Json.field o.members tag readStr none
    match choices.find? fun i => name i = text with
    | some i => ((p i).readRecord true v).map (Sigma.mk i)
    | none => invalid "Input tag found does not match any of the expected tags"
  write a := ((p a.1).object (hnodup a.1) a.2).json
  Same a b := ∃ h : a.1 = b.1, (p b.1).Same (h ▸ a.2) b.2
  Stable a := (p a.1).Stable a.2
  stable_iff a := by
    obtain ⟨i,a⟩ := a
    have hlookup := (p i).agrees_object (hnodup i) a _ (htag i a)
    rw [← (p i).stable_iff a _ ((p i).agrees_object (hnodup i) a),
      ← (p i).readRecord_object true (hnodup i) a]
    simp only [readObject_json,bind,Except.bind,field_some hlookup,readStr_str,hchoices]
    constructor
    · intro h
      obtain ⟨b,hread,heq,hsame⟩ := h
      obtain ⟨c,hc,rfl⟩ := Except.map_eq_ok.mp hread
      exact ⟨c,hc,hsame⟩
    · intro h
      obtain ⟨c,hc,hsame⟩ := h
      exact ⟨⟨i,c⟩,Except.map_eq_ok.mpr ⟨c,hc,rfl⟩,rfl,hsame⟩

theorem tagged_read [Fails ε] {ι : Type} {γ : ι → Type} {tag : String} {name : ι → String}
    {choices : List ι} {p : ∀ i, Part ε (γ i)} {hnodup : ∀ i, (p i).names.Nodup}
    {hchoices : ∀ i, choices.find? (fun j => name j = name i) = some i}
    {htag : ∀ i a, (tag,.str (name i)) ∈ (p i).write a} {v : Json} {a : Σ i, γ i}
    (h : (tagged tag name choices p hnodup hchoices htag).read v = .ok a) :
    (p a.1).readRecord true v = .ok a.2 := by
  obtain ⟨o,_,h⟩ := Exec.except_bind_eq_ok.mp h
  obtain ⟨text,_,h⟩ := Exec.except_bind_eq_ok.mp h
  split at h
  · obtain ⟨b,hb,rfl⟩ := Except.map_eq_ok.mp h
    exact hb
  · cases h

instance [Fails ε] {ι : Type} {γ : ι → Type} {tag : String} {name : ι → String} {choices : List ι}
    {p : ∀ i, Part ε (γ i)} [hp : ∀ i, (p i).Discrete] {hnodup : ∀ i, (p i).names.Nodup}
    {hchoices : ∀ i, choices.find? (fun j => name j = name i) = some i}
    {htag : ∀ i a, (tag,.str (name i)) ∈ (p i).write a} :
    (tagged tag name choices p hnodup hchoices htag).Discrete where
  same a b := by
    obtain ⟨i,a⟩ := a
    obtain ⟨j,b⟩ := b
    constructor
    · intro h
      obtain ⟨heq,hsame⟩ := h
      obtain rfl : i = j := heq
      rw [((hp i).same a b).mp hsame]
    · intro h
      cases h
      exact ⟨rfl,((hp i).same a a).mpr rfl⟩

end Schema
