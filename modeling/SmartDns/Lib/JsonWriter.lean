import SmartDns.Lib.Numeral
set_option autoImplicit false

/-!
The text of JSON objects as Python's `json.dumps` writes it without `ensure_ascii`: characters
other than quotes, backslashes and control characters stand for themselves.
-/

namespace JsonWriter

/-- Two hexadecimal digits, for what is less than 256. -/
def hexByte (n : ℕ) : List Char := [(n/16).digitChar,(n%16).digitChar]

def escapeChar (c : Char) : List Char :=
  if c = '"' then ['\\','"']
  else if c = '\\' then ['\\','\\']
  else if c = '\n' then ['\\','n']
  else if c = '\r' then ['\\','r']
  else if c = '\t' then ['\\','t']
  else if c = '\x0c' then ['\\','f']
  else if c = '\x08' then ['\\','b']
  else if c.toNat < 0x20 then "\\u00".toList ++ hexByte c.toNat
  else [c]

def string (text : List Char) : List Char := '"' :: text.flatMap escapeChar ++ ['"']

def null : List Char := "null".toList

def int (n : ℤ) : List Char :=
  if n < 0 then '-' :: Nat.toDigits 10 n.natAbs else Nat.toDigits 10 n.natAbs

def member (name value : List Char) : List Char := string name ++ ':' :: ' ' :: value

/-- An object, given the texts of its members' values. -/
def object (members : List (List Char × List Char)) : List Char :=
  '{' :: [',',' '].intercalate (members.map fun m => member m.1 m.2) ++ ['}']

/-! ### No line ends in a text -/

/-- No control characters. -/
def Printed (text : List Char) : Prop := ∀ c ∈ text, 0x20 ≤ c.toNat

theorem Printed.append {a b : List Char} (ha : Printed a) (hb : Printed b) : Printed (a ++ b) :=
  List.forall_mem_append.mpr ⟨ha,hb⟩

theorem Printed.cons {c : Char} {text : List Char} (hc : 0x20 ≤ c.toNat) (h : Printed text) :
    Printed (c :: text) := List.forall_mem_cons.mpr ⟨hc,h⟩

theorem printed_of_all {text : List Char} (h : text.all fun c => 0x20 ≤ c.toNat) :
    Printed text := by
  simpa [Printed] using h

theorem toDigits_printed (n : ℕ) : Printed (Nat.toDigits 10 n) :=
  Numeral.toDigits_forall (by decide) (by decide) n

theorem hexByte_printed {n : ℕ} (h : n < 256) : Printed (hexByte n) := by
  have hdigit : ∀ d < 16, 0x20 ≤ d.digitChar.toNat := by decide
  exact .cons (hdigit _ (by omega)) (.cons (hdigit _ (by omega)) (List.forall_mem_nil _))

theorem escapeChar_printed (c : Char) : Printed (escapeChar c) := by
  unfold escapeChar
  iterate 7
    split
    · exact printed_of_all (by decide)
  split
  · exact .append (printed_of_all (by decide)) (hexByte_printed (by omega))
  · exact .cons (by omega) (List.forall_mem_nil _)

theorem string_printed (text : List Char) : Printed (string text) := by
  refine .cons (by decide) (.append ?_ (printed_of_all (by decide)))
  intro c hc
  obtain ⟨c',_,hc⟩ := List.mem_flatMap.mp hc
  exact escapeChar_printed c' c hc

theorem int_printed (n : ℤ) : Printed (int n) := by
  unfold int
  split
  · exact .cons (by decide) (toDigits_printed _)
  · exact toDigits_printed _

theorem member_printed (name : List Char) {value : List Char} (h : Printed value) :
    Printed (member name value) :=
  .append (string_printed name) (.cons (by decide) (.cons (by decide) h))

theorem intercalate_printed {sep : List Char} {texts : List (List Char)} (hsep : Printed sep)
    (h : ∀ text ∈ texts, Printed text) : Printed (sep.intercalate texts) := by
  induction texts with
  | nil => exact List.forall_mem_nil _
  | cons text texts ih =>
    obtain ⟨htext,htexts⟩ := List.forall_mem_cons.mp h
    cases texts with
    | nil =>
      rw [List.intercalate_singleton]
      exact htext
    | cons next texts =>
      rw [List.intercalate_cons_cons]
      exact (htext.append hsep).append (ih htexts)

theorem object_printed {members : List (List Char × List Char)}
    (h : ∀ m ∈ members, Printed m.2) : Printed (object members) := by
  refine .cons (by decide) (.append ?_ (printed_of_all (by decide)))
  refine intercalate_printed (printed_of_all (by decide)) fun text htext => ?_
  obtain ⟨m,hm,rfl⟩ := List.mem_map.mp htext
  exact member_printed m.1 (h m hm)

end JsonWriter
