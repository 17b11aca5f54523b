import Mathlib.Data.List.DropRight
set_option autoImplicit false

/-! Python's `str` methods, on the characters of a text. -/

namespace PyText

instance lawfulBEq_text : LawfulBEq (List Char) := inferInstance

/-- `str.isspace` of one character. -/
def isSpace (c : Char) : Bool :=
  c.toNat ∈ [0x20,0x85,0xa0,0x1680,0x2028,0x2029,0x202f,0x205f,0x3000] ∨
    9 ≤ c.toNat ∧ c.toNat ≤ 13 ∨ 0x1c ≤ c.toNat ∧ c.toNat ≤ 0x1f ∨
    0x2000 ≤ c.toNat ∧ c.toNat ≤ 0x200a

/-- What holds of the first 128 characters holds of a character below 128. -/
theorem ascii_forall (P : Char → Prop) (h : ∀ n < 128, P (Char.ofNat n)) {c : Char}
    (hc : c.toNat < 128) : P c := by
  have hchar := h c.toNat hc
  rwa [Char.ofNat_toNat] at hchar

def lstripBy (p : Char → Bool) (text : List Char) : List Char := text.dropWhile p

def rstripBy (p : Char → Bool) (text : List Char) : List Char := text.rdropWhile p

/-- `text.strip()`. -/
def strip (text : List Char) : List Char := rstripBy isSpace (lstripBy isSpace text)

/-- `text.partition(sep)`, without the separator in the middle. -/
def partition (sep : Char) (text : List Char) : List Char × List Char :=
  (text.takeWhile (· ≠ sep),(text.dropWhile (· ≠ sep)).tail)

/-- No space stands at an end. -/
structure Trimmed (text : List Char) : Prop where
  head : ∀ c ∈ text.head?, isSpace c = false
  last : ∀ c ∈ text.getLast?, isSpace c = false

theorem lstripBy_eq {p : Char → Bool} {text : List Char} (h : ∀ c ∈ text.head?, p c = false) :
    lstripBy p text = text := by
  cases text with
  | nil => rfl
  | cons c text => simp [lstripBy,h c rfl]

theorem rstripBy_eq {p : Char → Bool} {text : List Char} (h : ∀ c ∈ text.getLast?, p c = false) :
    rstripBy p text = text := by
  refine List.rdropWhile_eq_self_iff.mpr fun hne hp => ?_
  have hlast := h _ (List.getLast?_eq_some_getLast hne)
  rw [hp] at hlast
  contradiction

theorem rstripBy_append {p : Char → Bool} {rest : List Char} (h : ∀ c ∈ rest, p c = true)
    (text : List Char) : rstripBy p (text ++ rest) = rstripBy p text := by
  have hrest : ∀ c ∈ rest.reverse, p c = true := fun c hc => h c (List.mem_reverse.mp hc)
  rw [rstripBy,rstripBy,List.rdropWhile,List.rdropWhile,List.reverse_append,
    List.dropWhile_append_of_pos hrest]

theorem strip_trimmed {text : List Char} (h : Trimmed text) : strip text = text := by
  rw [strip,lstripBy_eq h.head,rstripBy_eq h.last]

theorem rstripBy_last (p : Char → Bool) (text : List Char) :
    ∀ c ∈ (rstripBy p text).getLast?, p c = false := by
  intro c hc
  have hne : rstripBy p text ≠ [] := by
    intro hnil
    simp [hnil] at hc
  rw [List.getLast?_eq_some_getLast hne,Option.mem_some_iff] at hc
  rw [← hc]
  exact Bool.eq_false_iff.mpr (List.rdropWhile_last_not p text hne)

theorem head_prefixed {p : Char → Prop} {text part : List Char} (hpart : part <+: text)
    (h : ∀ c ∈ text.head?, p c) : ∀ c ∈ part.head?, p c := by
  obtain ⟨rest,rfl⟩ := hpart
  intro c hc
  refine h c ?_
  rw [List.head?_append]
  simp [Option.mem_def.mp hc]

theorem trimmed_strip (text : List Char) : Trimmed (strip text) where
  head := by
    have hpart : strip text <+: lstripBy isSpace text := List.rdropWhile_prefix isSpace _
    refine head_prefixed hpart fun c hc => ?_
    have hnot := List.head?_dropWhile_not isSpace text
    have hhead : (List.dropWhile isSpace text).head? = some c := hc
    rw [hhead] at hnot
    exact hnot
  last := rstripBy_last isSpace _

theorem partition_append {sep : Char} {before : List Char} (h : sep ∉ before)
    (after : List Char) : partition sep (before ++ sep :: after) = (before,after) := by
  have hne : ∀ c ∈ before, decide (c ≠ sep) = true := fun c hc =>
    decide_eq_true fun heq => h (heq ▸ hc)
  rw [partition,List.takeWhile_append_of_pos hne,List.dropWhile_append_of_pos hne]
  simp

theorem partition_of_not_mem {sep : Char} {text : List Char} (h : sep ∉ text) :
    partition sep text = (text,[]) := by
  have hne : ∀ c ∈ text, decide (c ≠ sep) = true := fun c hc =>
    decide_eq_true fun heq => h (heq ▸ hc)
  rw [partition,List.takeWhile_eq_self_iff.mpr hne,List.dropWhile_eq_nil_iff.mpr hne,
    List.tail_nil]

theorem not_mem_partition_fst (sep : Char) (text : List Char) : sep ∉ (partition sep text).1 := by
  intro h
  have hne := List.mem_takeWhile_imp h
  simp at hne

theorem partition_fst_isPrefix (sep : Char) (text : List Char) : (partition sep text).1 <+: text :=
  List.takeWhile_prefix _

theorem partition_snd_subset (sep : Char) (text : List Char) : (partition sep text).2 ⊆ text :=
  fun _ hc => (List.dropWhile_suffix _).subset (List.mem_of_mem_tail hc)

theorem partition_eq {sep : Char} {text : List Char} (h : sep ∈ text) :
    (partition sep text).1 ++ sep :: (partition sep text).2 = text := by
  obtain ⟨before,after,rfl,hbefore⟩ := List.eq_append_cons_of_mem h
  rw [partition_append hbefore]

theorem partition_fst_append {sep : Char} {text : List Char} (h : sep ∈ text)
    (rest : List Char) : (partition sep (text ++ rest)).1 = (partition sep text).1 := by
  conv_lhs => rw [← partition_eq h]
  rw [List.append_assoc,List.cons_append,partition_append (not_mem_partition_fst sep text)]

theorem fromUTF8_toUTF8 (text : String) : String.fromUTF8? text.toUTF8 = some text := by
  simp only [String.fromUTF8?,String.toUTF8_eq_toByteArray,dif_pos text.isValidUTF8]
  rfl

end PyText
