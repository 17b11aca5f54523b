import Mathlib.Data.List.SplitBy
import SmartDns.Core.PyText
import SmartDns.Lib.Fields
set_option autoImplicit false

/-!
Python's `urllib.parse` on the query of a URL: percent coding, and the fields that `urlencode`
writes and `parse_qsl` reads.
-/

namespace QueryText

abbrev Bytes := List UInt8

def utf8 (text : List Char) : Bytes := text.flatMap String.utf8EncodeChar

def isAscii (c : Char) : Bool := c.toNat < 128

/-- The byte of an ASCII character. -/
def asciiByte (c : Char) : UInt8 := UInt8.ofNat c.toNat

def isAlwaysSafe (c : Char) : Bool := c.isAlphanum || c ∈ ['_','.','-','~']

def hexDigit (n : Nat) : Char := Char.ofNat (if n < 10 then 48+n else 55+n)

def hexValue (c : Char) : Option Nat :=
  let n := c.toNat
  if 48 ≤ n ∧ n ≤ 57 then some (n-48)
  else if 65 ≤ n ∧ n ≤ 70 then some (n-55)
  else if 97 ≤ n ∧ n ≤ 102 then some (n-87)
  else none

/-- `_Quoter`. -/
def quoter (safe : List Char) (b : UInt8) : List Char :=
  let c := Char.ofNat b.toNat
  if isAlwaysSafe c ∨ c ∈ safe then [c]
  else ['%',hexDigit (b.toNat/16),hexDigit (b.toNat%16)]

def quote (safe : List Char) (text : List Char) : List Char := (utf8 text).flatMap (quoter safe)

def replace (old new : Char) (text : List Char) : List Char :=
  text.map fun c => if c = old then new else c

def quotePlus (text : List Char) : List Char :=
  if ' ' ∈ text then replace ' ' '+' (quote [' '] text) else quote [] text

/-- The text behind a `%`. -/
def unquoteItem (item : List Char) : Bytes :=
  match item with
  | h :: l :: rest =>
    match hexValue h,hexValue l with
    | some high,some low => UInt8.ofNat (high*16+low) :: rest.map asciiByte
    | _,_ => asciiByte '%' :: item.map asciiByte
  | _ => asciiByte '%' :: item.map asciiByte

/-- `_unquote_impl` of an ASCII text. -/
def unquoteImpl (text : List Char) : Bytes :=
  match text.splitOn '%' with
  | [] => []
  | first :: items => first.map asciiByte ++ items.flatMap unquoteItem

section
variable (replaced : Bytes → List Char)

/-- `bytes.decode("utf-8", "replace")`, with `replaced` where the bytes are not UTF-8. -/
def decodeReplacing (bytes : Bytes) : List Char :=
  match String.fromUTF8? bytes.toByteArray with
  | some text => text.toList
  | none => replaced bytes

def unquote (text : List Char) : List Char :=
  if '%' ∈ text then
    (text.splitBy fun a b => isAscii a == isAscii b).flatMap fun run =>
      if run.all isAscii then decodeReplacing replaced (unquoteImpl run) else run
  else text

def unquotePlus (text : List Char) : List Char := unquote replaced (replace '+' ' ' text)

/-- `parse_qsl` with `keep_blank_values`. -/
def parseQsl (query : List Char) : List (List Char × List Char) :=
  ((query.splitOn '&').filter (· ≠ [])).map fun field =>
    (unquotePlus replaced (PyText.partition '=' field).1,
      unquotePlus replaced (PyText.partition '=' field).2)

end

def urlencodeItem (item : List Char × List Char) : List Char :=
  quotePlus item.1 ++ '=' :: quotePlus item.2

def urlencode (items : List (List Char × List Char)) : List Char :=
  ['&'].intercalate (items.map urlencodeItem)

/-! ### Percent coding -/

theorem hexValue_hexDigit {n : Nat} (h : n < 16) : hexValue (hexDigit n) = some n := by
  have hall : ∀ n : Fin 16, hexValue (hexDigit n) = some n.val := by decide
  exact hall ⟨n,h⟩

theorem isAlwaysSafe_hexDigit {n : Nat} (h : n < 16) : isAlwaysSafe (hexDigit n) = true := by
  have hall : ∀ n : Fin 16, isAlwaysSafe (hexDigit n) = true := by decide
  exact hall ⟨n,h⟩

theorem toNat_lt_of_isAlphanum {c : Char} (h : c.isAlphanum = true) : c.toNat < 128 := by
  have h : (decide (c.val ≥ 'A'.val ∧ c.val ≤ 'Z'.val) || (c.val ≥ 'a'.val && c.val ≤ 'z'.val) ||
      (c.val ≥ '0'.val && c.val ≤ '9'.val)) = true := h
  simp only [ge_iff_le,UInt32.le_iff_toNat_le,Bool.or_eq_true,Bool.and_eq_true,
    decide_eq_true_eq] at h
  have hval : c.toNat = c.val.toNat := rfl
  have hZ : 'Z'.val.toNat = 90 := rfl
  have hz : 'z'.val.toNat = 122 := rfl
  have h9 : '9'.val.toNat = 57 := rfl
  omega

theorem isAscii_of_isAlwaysSafe {c : Char} (h : isAlwaysSafe c = true) : isAscii c = true := by
  rw [isAlwaysSafe,Bool.or_eq_true,decide_eq_true_eq] at h
  cases h with
  | inl h => exact decide_eq_true (toNat_lt_of_isAlphanum h)
  | inr h =>
    have hall : ['_','.','-','~'].all isAscii = true := rfl
    exact List.all_eq_true.mp hall c h

theorem unquoteImpl_of_not_mem {text : List Char} (h : '%' ∉ text) :
    unquoteImpl text = text.map asciiByte := by
  rw [unquoteImpl,List.splitOn_eq_singleton h]
  simp

theorem unquoteImpl_cons {c : Char} (hc : c ≠ '%') (rest : List Char) :
    unquoteImpl (c :: rest) = asciiByte c :: unquoteImpl rest := by
  obtain ⟨first,items,hsplit⟩ := List.exists_cons_of_ne_nil (List.splitOn_ne_nil '%' rest)
  simp [unquoteImpl,List.splitOn_cons_eq_if_modifyHead,hc,hsplit]

theorem unquoteImpl_escape {h l : Char} {high low : Nat} (hhigh : hexValue h = some high)
    (hlow : hexValue l = some low) (rest : List Char) :
    unquoteImpl ('%' :: h :: l :: rest) = UInt8.ofNat (high*16+low) :: unquoteImpl rest := by
  have hh : h ≠ '%' := by
    intro heq
    rw [heq] at hhigh
    contradiction
  have hl : l ≠ '%' := by
    intro heq
    rw [heq] at hlow
    contradiction
  obtain ⟨first,items,hsplit⟩ := List.exists_cons_of_ne_nil (List.splitOn_ne_nil '%' rest)
  simp [unquoteImpl,List.splitOn_cons_eq_if_modifyHead,hh,hl,hsplit,unquoteItem,hhigh,hlow]

theorem asciiByte_ofNat (b : UInt8) : asciiByte (Char.ofNat b.toNat) = b := by
  have hb := b.toNat_lt
  have hvalid : b.toNat.isValidChar := Or.inl (by omega)
  have hcode : (Char.ofNat b.toNat).toNat = b.toNat := by
    rw [Char.ofNat,dif_pos hvalid]
    rfl
  rw [asciiByte,hcode,UInt8.ofNat_toNat]

section
variable {safe : List Char}

theorem unquoteImpl_quoter (hsafe : '%' ∉ safe) (b : UInt8) (rest : List Char) :
    unquoteImpl (quoter safe b ++ rest) = b :: unquoteImpl rest := by
  have hb := b.toNat_lt
  rw [quoter]
  split
  · rename_i h
    have hne : Char.ofNat b.toNat ≠ '%' := by
      intro heq
      rw [heq] at h
      obtain h | h := h
      · contradiction
      · exact hsafe h
    rw [List.singleton_append,unquoteImpl_cons hne,asciiByte_ofNat]
  · have hhigh := hexValue_hexDigit (show b.toNat/16 < 16 by omega)
    have hlow := hexValue_hexDigit (show b.toNat%16 < 16 by omega)
    rw [List.cons_append,List.cons_append,List.cons_append,List.nil_append,
      unquoteImpl_escape hhigh hlow]
    rw [show b.toNat/16*16+b.toNat%16 = b.toNat by omega,UInt8.ofNat_toNat]

theorem unquoteImpl_quote (hsafe : '%' ∉ safe) (text : List Char) :
    unquoteImpl (quote safe text) = utf8 text := by
  rw [quote]
  induction utf8 text with
  | nil => rfl
  | cons b bytes ih => rw [List.flatMap_cons,unquoteImpl_quoter hsafe,ih]

/-- A quoted text has safe characters in it and the `%` of an escape. -/
theorem mem_quote {text : List Char} {c : Char} (h : c ∈ quote safe text) :
    isAlwaysSafe c = true ∨ c ∈ safe ∨ c = '%' := by
  obtain ⟨b,-,hc⟩ := List.mem_flatMap.mp h
  have hb := b.toNat_lt
  rw [quoter] at hc
  split at hc
  · rename_i h
    rw [List.mem_singleton] at hc
    rw [hc]
    exact or_assoc.mp (Or.inl h)
  · simp only [List.mem_cons,List.not_mem_nil,or_false] at hc
    obtain rfl | rfl | rfl := hc
    · exact Or.inr (Or.inr rfl)
    · exact Or.inl (isAlwaysSafe_hexDigit (by omega))
    · exact Or.inl (isAlwaysSafe_hexDigit (by omega))

theorem quote_isAscii (hsafe : safe.all isAscii = true) {text : List Char} {c : Char}
    (h : c ∈ quote safe text) : isAscii c = true := by
  obtain h | h | rfl := mem_quote h
  · exact isAscii_of_isAlwaysSafe h
  · exact List.all_eq_true.mp hsafe c h
  · rfl

end

section
variable {replaced : Bytes → List Char} {safe : List Char}

theorem decodeReplacing_utf8 (text : List Char) : decodeReplacing replaced (utf8 text) = text := by
  have hdecode : String.fromUTF8? (utf8 text).toByteArray = some (String.ofList text) :=
    PyText.fromUTF8_toUTF8 (String.ofList text)
  rw [decodeReplacing,hdecode]
  exact String.toList_ofList

theorem utf8_of_isAscii {text : List Char} (h : ∀ c ∈ text, isAscii c = true) :
    utf8 text = text.map asciiByte := by
  induction text with
  | nil => rfl
  | cons c text ih =>
    have hc : c.toNat < 128 := of_decide_eq_true (h c List.mem_cons_self)
    have hbyte : String.utf8EncodeChar c = [asciiByte c] := by
      rw [String.utf8EncodeChar,if_pos (by simpa using Nat.le_of_lt_succ hc)]
      rfl
    rw [utf8,List.flatMap_cons,hbyte,List.map_cons,← ih fun c hc => h c (List.mem_cons_of_mem _ hc)]
    rfl

/-- In an ASCII text there is one run to decode. -/
theorem unquote_of_isAscii {text : List Char} (h : ∀ c ∈ text, isAscii c = true) :
    unquote replaced text = decodeReplacing replaced (unquoteImpl text) := by
  rw [unquote]
  split
  · rename_i hmem
    have hrun : text.IsChain fun a b => (isAscii a == isAscii b) = true := by
      refine (List.pairwise_of_forall_mem_list fun a ha b hb => ?_).isChain
      rw [h a ha,h b hb]
      rfl
    rw [List.splitBy_of_isChain (List.ne_nil_of_mem hmem) hrun,List.flatMap_cons,
      List.flatMap_nil,List.append_nil,if_pos (List.all_eq_true.mpr h)]
  · rename_i hmem
    rw [unquoteImpl_of_not_mem hmem,← utf8_of_isAscii h,decodeReplacing_utf8]

theorem unquote_quote (hescape : '%' ∉ safe) (hsafe : safe.all isAscii = true)
    (text : List Char) : unquote replaced (quote safe text) = text := by
  rw [unquote_of_isAscii fun c => quote_isAscii hsafe,unquoteImpl_quote hescape,
    decodeReplacing_utf8]

theorem replace_replace {old new : Char} {text : List Char} (h : new ∉ text) :
    replace new old (replace old new text) = text := by
  rw [replace,replace,List.map_map]
  refine (List.map_congr_left fun c hc => ?_).trans (List.map_id _)
  have hne : c ≠ new := fun heq => h (heq ▸ hc)
  by_cases hold : c = old <;> simp [hold,hne]

theorem unquotePlus_quotePlus (text : List Char) :
    unquotePlus replaced (quotePlus text) = text := by
  have hplus : ∀ safe, '+' ∉ safe → '+' ∉ quote safe text := by
    intro safe hsafe h
    obtain h | h | h := mem_quote h
    · contradiction
    · exact hsafe h
    · contradiction
  rw [quotePlus,unquotePlus]
  split
  · rw [replace_replace (hplus [' '] (by decide)),unquote_quote (by decide) rfl]
  · have hsame : replace '+' ' ' (quote [] text) = quote [] text := by
      refine (List.map_congr_left fun c hc => ?_).trans (List.map_id _)
      have hne : c ≠ '+' := fun heq => hplus [] List.not_mem_nil (heq ▸ hc)
      exact if_neg hne
    rw [hsame,unquote_quote (by decide) rfl]

end

/-! ### Fields -/

/-- What stands in a text from `quote_plus`. -/
def isQuoted (c : Char) : Bool := isAlwaysSafe c || c ∈ ['+','%']

theorem quotePlus_isQuoted {text : List Char} {c : Char} (h : c ∈ quotePlus text) :
    isQuoted c = true := by
  have hquote : ∀ safe, c ∈ quote safe text → isQuoted c = true ∨ c ∈ safe := by
    intro safe h
    obtain h | h | rfl := mem_quote h
    · exact Or.inl (by rw [isQuoted,h]; rfl)
    · exact Or.inr h
    · exact Or.inl rfl
  rw [quotePlus] at h
  split at h
  · obtain ⟨d,hd,hc⟩ := List.mem_map.mp h
    split at hc
    · rw [← hc]
      rfl
    · rename_i hspace
      rw [hc] at hd hspace
      exact (hquote [' '] hd).resolve_right fun hmem => hspace (List.mem_singleton.mp hmem)
  · exact (hquote [] h).resolve_right List.not_mem_nil

theorem not_mem_quotePlus {c : Char} (hc : isQuoted c = false) (text : List Char) :
    c ∉ quotePlus text := by
  intro h
  rw [quotePlus_isQuoted h] at hc
  contradiction

theorem not_mem_urlencodeItem {c : Char} (hc : isQuoted c = false) (heq : c ≠ '=')
    (item : List Char × List Char) : c ∉ urlencodeItem item := by
  intro h
  rw [urlencodeItem,List.mem_append,List.mem_cons] at h
  obtain h | h | h := h
  · exact not_mem_quotePlus hc _ h
  · exact heq h
  · exact not_mem_quotePlus hc _ h

theorem not_mem_urlencode {c : Char} (hc : isQuoted c = false) (heq : c ≠ '=') (hand : c ≠ '&')
    (items : List (List Char × List Char)) : c ∉ urlencode items := by
  intro h
  obtain h | ⟨field,hfield,h⟩ := Fields.mem_intercalate h
  · exact hand h
  · obtain ⟨item,-,rfl⟩ := List.mem_map.mp hfield
    exact not_mem_urlencodeItem hc heq item h

theorem parseQsl_urlencode {replaced : Bytes → List Char}
    (items : List (List Char × List Char)) : parseQsl replaced (urlencode items) = items := by
  by_cases hnil : items = []
  · rw [hnil]
    rfl
  have hsplit : (urlencode items).splitOn '&' = items.map urlencodeItem := by
    refine List.splitOn_intercalate _ (fun field hfield => ?_) (by simpa using hnil)
    obtain ⟨item,-,rfl⟩ := List.mem_map.mp hfield
    exact not_mem_urlencodeItem rfl (by decide) item
  have hkept : (items.map urlencodeItem).filter (· ≠ []) = items.map urlencodeItem := by
    refine List.filter_eq_self.mpr fun field hfield => ?_
    obtain ⟨item,-,rfl⟩ := List.mem_map.mp hfield
    simp [urlencodeItem]
  rw [parseQsl,hsplit,hkept,List.map_map]
  refine (List.map_congr_left fun item _ => ?_).trans (List.map_id _)
  have hname : '=' ∉ quotePlus item.1 := not_mem_quotePlus rfl _
  rw [Function.comp_apply,urlencodeItem,PyText.partition_append hname,unquotePlus_quotePlus,
    unquotePlus_quotePlus]
  rfl

end QueryText
