import SmartDns.Core.PyText
import SmartDns.Dns.Message
import Mathlib.Algebra.GroupWithZero.Nat
import Mathlib.Data.Finset.Basic
set_option autoImplicit false

/-!
`DomainSet`: domains with tags, looked up by the text of a name. The keys are the domains
with their labels in reverse, so that a domain above a name is a prefix of it. The trie is
kept as the list of its entries.
-/

namespace SmartDns

namespace Name

def root : Name := ⟨[]⟩

/-- A label has 1 to 63 bytes, a name 255 with the length of each label and the root. -/
def Valid (n : Name) : Prop :=
  (∀ label ∈ n.labels, label ≠ [] ∧ label.length ≤ 63) ∧
    (n.labels.map fun label => label.length+1).sum < 255

instance (n : Name) : Decidable n.Valid := inferInstanceAs (Decidable (_ ∧ _))

def backslash : Char := Char.ofNat 92

/-- The bytes that `_escapify` puts a backslash before. -/
def escaped : List UInt8 := [0x22,0x28,0x29,0x2e,0x3b,0x5c,0x40,0x24]

def digit (n : Nat) : Char := Char.ofNat (48+n%10)

def escapify (b : UInt8) : List Char :=
  if b ∈ escaped then [backslash,Char.ofNat b.toNat]
  else if 0x20 < b ∧ b < 0x7f then [Char.ofNat b.toNat]
  else [backslash,digit (b.toNat/100),digit (b.toNat/10),digit b.toNat]

/-- `Name.to_text` of an absolute name. -/
def toText (n : Name) : List Char :=
  if n.labels = [] then ['.']
  else n.labels.flatMap fun label => label.flatMap escapify ++ ['.']

end Name

/-- `str.lower`, of which only what it makes of ASCII text is used. -/
def LowersAscii (lower : List Char → List Char) : Prop :=
  ∀ text, (∀ c ∈ text, c.toNat < 128) → lower text = text.map Char.toLower

def isDot (c : Char) : Bool := c = '.'

section
variable (lower : List Char → List Char)

def normalizeDomain (value : List Char) : Except PyException (List Char) :=
  let normalized := lower (PyText.rstripBy isDot (PyText.strip value))
  let normalized := if ['+','.'].isPrefixOf normalized then normalized.drop 2 else normalized
  if normalized = [] then .error (.valueError "域名不能为空") else .ok normalized

def reverseDomain (value : List Char) : Except PyException (List Char) := do
  let normalized ← normalizeDomain lower value
  pure (List.intercalate ['.'] (normalized.splitOn '.').reverse ++ ['.'])

structure DomainEntry where
  reversed : List Char
  tags : Finset String

/-- `trie` is `None` where no tag file has a domain. -/
structure DomainSet where
  trie : Option (List DomainEntry) := none

def DomainSet.lookup (s : DomainSet) (qname : List Char) : Except PyException (Finset String) :=
  match s.trie with
  | none => .ok ∅
  | some entries => do
    let reversed ← reverseDomain lower qname
    pure ((entries.filter fun entry => entry.reversed.isPrefixOf reversed).foldl
      (fun tags entry => tags ∪ entry.tags) ∅)

end

/-! ### Which names have a normal form -/

/-- A text as `to_text` gives it for a name other than the root. -/
structure NameText (text : List Char) : Prop where
  graphic : ∀ c ∈ text, 0x20 < c.toNat ∧ c.toNat < 0x7f
  head : ∃ c rest, text = c :: rest ∧ isDot c = false

theorem digit_graphic (n : Nat) : 0x20 < (Name.digit n).toNat ∧ (Name.digit n).toNat < 0x7f := by
  have hn : n%10 < 10 := Nat.mod_lt _ (by decide)
  unfold Name.digit
  generalize n%10 = d at hn
  decide +revert

theorem escapify_graphic (b : UInt8) :
    ∀ c ∈ Name.escapify b, 0x20 < c.toNat ∧ c.toNat < 0x7f := by
  have hbackslash : 0x20 < Name.backslash.toNat ∧ Name.backslash.toNat < 0x7f := by decide
  unfold Name.escapify
  split
  · rename_i hescaped
    have hall : Name.escaped.all (fun b => 0x20 < (Char.ofNat b.toNat).toNat ∧
        (Char.ofNat b.toNat).toNat < 0x7f) = true := by decide
    have hb := List.all_eq_true.mp hall b hescaped
    simp only [decide_eq_true_eq] at hb
    simp [hbackslash,hb]
  · split
    · rename_i hplain
      have hgt : 0x20 < b.toNat := UInt8.lt_iff_toNat_lt.mp hplain.1
      have hlt : b.toNat < 0x7f := UInt8.lt_iff_toNat_lt.mp hplain.2
      have hchar : ∀ n < 0x7f, (Char.ofNat n).toNat = n := by decide
      simp [hchar b.toNat hlt,hlt,hgt]
    · simp only [List.forall_mem_cons]
      exact ⟨hbackslash,digit_graphic _,digit_graphic _,digit_graphic _,by simp⟩

/-- A dot in a label is never the first character of its text. -/
theorem escapify_head (b : UInt8) : ∃ c rest, Name.escapify b = c :: rest ∧ isDot c = false := by
  unfold Name.escapify
  split
  · exact ⟨_,_,rfl,by decide⟩
  · rename_i hplain
    split
    · rename_i hrange
      have hlt : b.toNat < 0x7f := UInt8.lt_iff_toNat_lt.mp hrange.2
      have hdot : ∀ n < 0x7f, isDot (Char.ofNat n) = true → n = 0x2e := by decide
      refine ⟨_,_,rfl,Bool.eq_false_iff.mpr fun hb => hplain ?_⟩
      have hb : b = 0x2e := UInt8.toNat_inj.mp (hdot b.toNat hlt hb)
      rw [hb]
      decide
    · exact ⟨_,_,rfl,by decide⟩

theorem toText_nameText {n : Name} (hvalid : n.Valid) (hroot : n ≠ Name.root) :
    NameText n.toText := by
  obtain ⟨labels⟩ := n
  cases labels with
  | nil => exact absurd rfl hroot
  | cons label labels =>
    have hlabel := (hvalid.1 label List.mem_cons_self).1
    obtain ⟨b,bytes,rfl⟩ := List.exists_cons_of_ne_nil hlabel
    constructor
    · intro c hc
      simp only [Name.toText,reduceCtorEq,if_false,List.mem_flatMap,List.mem_append,
        List.mem_singleton] at hc
      obtain ⟨label,_,hc⟩ := hc
      cases hc with
      | inl hc =>
        obtain ⟨b,_,hc⟩ := hc
        exact escapify_graphic b c hc
      | inr hc =>
        rw [hc]
        decide
    · obtain ⟨c,rest,hhead,hdot⟩ := escapify_head b
      refine ⟨c,rest ++ bytes.flatMap Name.escapify ++ ['.'] ++
        labels.flatMap fun label => label.flatMap Name.escapify ++ ['.'],?_,hdot⟩
      simp [Name.toText,hhead]

namespace NameText
variable {text : List Char}

theorem rstrip (h : NameText text) : NameText (PyText.rstripBy isDot text) := by
  obtain ⟨c,rest,htext,hdot⟩ := h.head
  have hinit : PyText.rstripBy isDot text <+: text := List.rdropWhile_prefix _ _
  refine ⟨fun d hd => h.graphic d (hinit.subset hd),?_⟩
  have hne : PyText.rstripBy isDot text ≠ [] := by
    intro hnil
    have hall := List.rdropWhile_eq_nil_iff.mp hnil c (by rw [htext]; exact List.mem_cons_self)
    rw [hdot] at hall
    contradiction
  obtain ⟨d,kept,hkept⟩ := List.exists_cons_of_ne_nil hne
  rw [hkept,htext,List.cons_prefix_cons] at hinit
  exact ⟨d,kept,hkept,hinit.1 ▸ hdot⟩

theorem not_space (h : NameText text) {c : Char} (hc : c ∈ text) : PyText.isSpace c = false := by
  obtain ⟨hgt,hlt⟩ := h.graphic c hc
  exact PyText.ascii_forall (fun c => 0x20 < c.toNat → PyText.isSpace c = false) (by decide)
    (by omega) hgt

theorem strip_eq (h : NameText text) : PyText.strip text = text := by
  have hleft : PyText.lstripBy PyText.isSpace text = text := by
    obtain ⟨c,rest,rfl,_⟩ := h.head
    simp [PyText.lstripBy,h.not_space List.mem_cons_self]
  have hright : PyText.rstripBy PyText.isSpace text = text := by
    refine List.rdropWhile_eq_self_iff.mpr fun hne => ?_
    simp [h.not_space (List.getLast_mem hne)]
  rw [PyText.strip,hleft,hright]

variable {lower : List Char → List Char}

theorem lower_eq (h : NameText text) (hlower : LowersAscii lower) :
    lower text = text.map Char.toLower :=
  hlower text fun c hc => by
    have hgraphic := h.graphic c hc
    omega

/-- The text ends in no dot once they are stripped, so that something is left behind a
leading wildcard. -/
theorem normalizes (h : NameText text) (hlower : LowersAscii lower) :
    ∃ normalized, normalizeDomain lower text = .ok normalized := by
  have hstripped := h.rstrip
  have hlast : ∀ hne, ¬ isDot ((PyText.rstripBy isDot text).getLast hne) = true :=
    List.rdropWhile_last_not isDot text
  unfold normalizeDomain
  rw [h.strip_eq,hstripped.lower_eq hlower]
  generalize PyText.rstripBy isDot text = stripped at hstripped hlast
  have hnonempty : (if ['+','.'].isPrefixOf (stripped.map Char.toLower)
      then (stripped.map Char.toLower).drop 2 else stripped.map Char.toLower) ≠ [] := by
    obtain ⟨c,rest,rfl,_⟩ := hstripped.head
    split
    · rename_i hwildcard
      cases rest with
      | nil => simp at hwildcard
      | cons d rest =>
        cases rest with
        | nil =>
          simp only [List.map_cons,List.map_nil,List.isPrefixOf_cons_cons,Bool.and_eq_true,
            beq_iff_eq] at hwildcard
          have hd := hstripped.graphic d (by simp)
          have hdot : isDot d = true :=
            PyText.ascii_forall (fun d => '.' = d.toLower → isDot d = true) (by decide) (by omega)
              hwildcard.2.1
          exact absurd hdot (by simpa using hlast (by simp))
        | cons e rest => simp
    · simp
  simp only [hnonempty,if_false]
  exact ⟨_,rfl⟩

end NameText

theorem normalizeDomain_nil {lower : List Char → List Char} (hlower : LowersAscii lower) :
    normalizeDomain lower [] = .error (.valueError "域名不能为空") := by
  have hnil : lower [] = [] := hlower [] (by simp)
  simp [normalizeDomain,PyText.strip,PyText.lstripBy,PyText.rstripBy,hnil]

section
variable {lower : List Char → List Char} (hlower : LowersAscii lower)
include hlower

/-- Of the valid names the root alone has no normal form, with or without its dot. -/
theorem normalizeDomain_toText_iff {n : Name} (hvalid : n.Valid) :
    (∃ text, normalizeDomain lower n.toText = .ok text) ↔ n ≠ Name.root := by
  constructor
  · intro h hroot
    obtain ⟨text,htext⟩ := h
    have hdot : PyText.rstripBy isDot (PyText.strip n.toText) = [] := by
      rw [hroot]
      decide
    have herror : normalizeDomain lower n.toText = normalizeDomain lower [] := by
      unfold normalizeDomain
      rw [hdot]
      rfl
    rw [herror,normalizeDomain_nil hlower] at htext
    contradiction
  · intro hroot
    exact (toText_nameText hvalid hroot).normalizes hlower

theorem normalizeDomain_rstrip_iff {n : Name} (hvalid : n.Valid) :
    (∃ text, normalizeDomain lower (PyText.rstripBy isDot n.toText) = .ok text) ↔
      n ≠ Name.root := by
  constructor
  · intro h hroot
    obtain ⟨text,htext⟩ := h
    have hnil : PyText.rstripBy isDot n.toText = [] := by
      rw [hroot]
      decide
    rw [hnil,normalizeDomain_nil hlower] at htext
    contradiction
  · intro hroot
    exact (toText_nameText hvalid hroot).rstrip.normalizes hlower

/-- A lookup with no trie asks for no normal form. -/
theorem DomainSet.lookup_toText_iff {s : DomainSet} {n : Name} (hvalid : n.Valid) :
    (∃ tags, s.lookup lower (PyText.rstripBy isDot n.toText) = .ok tags) ↔
      s.trie = none ∨ n ≠ Name.root := by
  rw [← normalizeDomain_rstrip_iff hlower hvalid]
  unfold DomainSet.lookup reverseDomain
  cases htrie : s.trie with
  | none => simp
  | some entries =>
    cases normalizeDomain lower (PyText.rstripBy isDot n.toText) with
    | error e => simp [bind,Except.bind]
    | ok text => simp [bind,Except.bind,pure,Except.pure]

end

end SmartDns
