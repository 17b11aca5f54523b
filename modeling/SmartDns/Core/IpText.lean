import Mathlib.Data.List.TakeWhile
import SmartDns.Lib.Fields
import SmartDns.Lib.Numeral
set_option autoImplicit false

/-!
`ipaddress`: addresses and networks read from texts and written as texts. What is written is
read back as the same address or network.
-/

namespace IpText

/-! ### IPv4 -/

def parseOctet (octet : List Char) : Option ℕ :=
  if octet = [] ∨ octet.all Char.isDigit = false then none
  else if 3 < octet.length then none
  else if octet ≠ ['0'] ∧ octet.head? = some '0' then none
  else if 255 < Numeral.ofDigits 10 octet then none
  else some (Numeral.ofDigits 10 octet)

/-- `IPv4Address._ip_int_from_string`. -/
def ipv4FromString (text : List Char) : Option (BitVec 32) :=
  if text = [] then none
  else if (text.splitOn '.').length ≠ 4 then none
  else ((text.splitOn '.').mapM parseOctet).map fun octets =>
    BitVec.ofNat 32 (Numeral.ofWords 256 octets)

def ipv4Address (text : List Char) : Option (BitVec 32) :=
  if '/' ∈ text then none else ipv4FromString text

/-- `str` of an `IPv4Address`. -/
def ipv4Text (ip : BitVec 32) : List Char :=
  ['.'].intercalate ((Numeral.toWords 256 4 ip.toNat).map (Nat.toDigits 10))

theorem mapM_some_mem {α β : Type} {f : α → Option β} {items : List α} {results : List β}
    (h : items.mapM f = some results) : ∀ x ∈ items, ∃ y, f x = some y := by
  induction items generalizing results with
  | nil => simp
  | cons x items ih =>
    rw [List.mapM_cons] at h
    obtain ⟨y,hy,h⟩ := Option.bind_eq_some_iff.mp h
    obtain ⟨rest,hrest,_⟩ := Option.bind_eq_some_iff.mp h
    intro x' hx'
    cases List.mem_cons.mp hx' with
    | inl heq => exact ⟨y,heq ▸ hy⟩
    | inr hmem => exact ih hrest x' hmem

theorem mapM_map_some {α β : Type} {f : β → Option α} {g : α → β} {items : List α}
    (h : ∀ x ∈ items, f (g x) = some x) : (items.map g).mapM f = some items := by
  induction items with
  | nil => rfl
  | cons x items ih =>
    rw [List.map_cons,List.mapM_cons,h x List.mem_cons_self,
      ih fun y hy => h y (List.mem_cons_of_mem x hy)]
    rfl

theorem isDigit_digitChar {d : ℕ} (h : d < 10) : d.digitChar.isDigit = true := by
  interval_cases d <;> rfl

theorem toDigits_isDigit (n : ℕ) : ∀ c ∈ Nat.toDigits 10 n, c.isDigit = true :=
  Numeral.toDigits_forall (by decide) (fun _ => isDigit_digitChar) n

theorem parseOctet_toDigits {n : ℕ} (h : n < 256) : parseOctet (Nat.toDigits 10 n) = some n := by
  have hlength : (Nat.toDigits 10 n).length ≤ 3 :=
    (Nat.length_toDigits_le_iff (by decide) (by decide)).mpr (by omega)
  have hvalue : Numeral.ofDigits 10 (Nat.toDigits 10 n) = n :=
    Numeral.ofDigits_toDigits (by decide) (by decide) n
  have hdigits : (Nat.toDigits 10 n).all Char.isDigit = true :=
    List.all_eq_true.mpr (toDigits_isDigit n)
  unfold parseOctet
  rw [if_neg (by simp [hdigits]),if_neg (by omega),if_neg ?_,hvalue,if_neg (by omega)]
  rintro ⟨hne,hhead⟩
  by_cases hn : n = 0
  · exact hne (by rw [hn]; rfl)
  · obtain ⟨c,rest,htext,hc⟩ := Numeral.head_toDigits (show 1 < 10 by decide) (by decide) hn
    rw [htext] at hhead
    exact hc (by simpa using hhead)

theorem ipv4FromString_text (ip : BitVec 32) : ipv4FromString (ipv4Text ip) = some ip := by
  have hdot : ∀ octet ∈ (Numeral.toWords 256 4 ip.toNat).map (Nat.toDigits 10), '.' ∉ octet := by
    intro octet hoctet hmem
    obtain ⟨n,_,rfl⟩ := List.mem_map.mp hoctet
    exact absurd (toDigits_isDigit n _ hmem) (by decide)
  have hlength : ((Numeral.toWords 256 4 ip.toNat).map (Nat.toDigits 10)).length = 4 := by simp
  have hne : (Numeral.toWords 256 4 ip.toNat).map (Nat.toDigits 10) ≠ [] := by
    intro h
    simp [h] at hlength
  have hsplit :
      (ipv4Text ip).splitOn '.' = (Numeral.toWords 256 4 ip.toNat).map (Nat.toDigits 10) :=
    List.splitOn_intercalate '.' hdot hne
  have htext : ipv4Text ip ≠ [] := by
    intro h
    rw [h] at hsplit
    simp [← hsplit] at hlength
  unfold ipv4FromString
  rw [if_neg htext,hsplit,if_neg (by simp [hlength]),mapM_map_some fun n hn =>
    parseOctet_toDigits (Numeral.toWords_lt (by decide) hn)]
  rw [Option.map_some,Numeral.ofWords_toWords (by simpa using ip.isLt)]
  simp

/-- The characters of an IPv4 address. -/
theorem ipv4Text_chars (ip : BitVec 32) : ∀ c ∈ ipv4Text ip, c.isDigit = true ∨ c = '.' := by
  intro c hc
  obtain rfl | ⟨octet,hoctet,hmem⟩ := Fields.mem_intercalate hc
  · exact .inr rfl
  · obtain ⟨n,_,rfl⟩ := List.mem_map.mp hoctet
    exact .inl (toDigits_isDigit n c hmem)

theorem ipv4Address_text (ip : BitVec 32) : ipv4Address (ipv4Text ip) = some ip := by
  unfold ipv4Address
  rw [if_neg ?_,ipv4FromString_text]
  intro hslash
  obtain h | h := ipv4Text_chars ip _ hslash
  · exact absurd h (by decide)
  · exact absurd h (by decide)

theorem parseOctet_isDigit {octet : List Char} {n : ℕ} (h : parseOctet octet = some n) :
    ∀ c ∈ octet, c.isDigit = true := by
  unfold parseOctet at h
  split at h
  · contradiction
  · rename_i hdigits
    rw [not_or,Bool.not_eq_false] at hdigits
    exact List.all_eq_true.mp hdigits.2

/-- No IPv4 address has a colon. -/
theorem ipv4Address_colon {text : List Char} (h : ':' ∈ text) : ipv4Address text = none := by
  have hoctets : (text.splitOn '.').mapM parseOctet = none := by
    by_contra hsome
    obtain ⟨octets,hmap⟩ := Option.ne_none_iff_exists'.mp hsome
    have hjoin : ['.'].intercalate (text.splitOn '.') = text := List.intercalate_splitOn '.'
    rw [← hjoin] at h
    obtain hdot | ⟨octet,hoctet,hmem⟩ := Fields.mem_intercalate h
    · exact absurd hdot (by decide)
    · obtain ⟨n,hn⟩ := mapM_some_mem hmap octet hoctet
      exact absurd (parseOctet_isDigit hn ':' hmem) (by decide)
  unfold ipv4Address ipv4FromString
  split
  · rfl
  · split
    · rfl
    · split
      · rfl
      · rw [hoctets]
        rfl

/-! ### IPv6 -/

def isHexDigit (c : Char) : Bool :=
  c.isDigit || ('a' ≤ c && c ≤ 'f') || ('A' ≤ c && c ≤ 'F')

def parseHextet (hextet : List Char) : Option ℕ :=
  if hextet.all isHexDigit = false then none
  else if 4 < hextet.length then none
  else if hextet = [] then none
  else some (Numeral.ofDigits 16 hextet)

/-- One end of the parts, without the empty part of a `::` that it stands at. -/
def outerParts (endPart : List Char) (others parts : List (List Char)) :
    Option (List (List Char)) :=
  if endPart = [] then if others = [] then some [] else none
  else some parts

/-- The hextets that the parts between the colons stand for. An empty part that is not at an end
stands for the run of zeros that was skipped; there is at most one. -/
def hextetsOfParts (parts : List (List Char)) : Option (List ℕ) :=
  if 9 < parts.length then none
  else
    let first := parts.headD []
    let last := parts.getLastD []
    match parts.tail.dropLast.splitOn [] with
    | [_] => if parts.length ≠ 8 then none else parts.mapM parseHextet
    | [before,after] => do
      let high ← outerParts first before (first :: before)
      let low ← outerParts last after (after ++ [last])
      if 8 ≤ high.length + low.length then none
      else do
        let high ← high.mapM parseHextet
        let low ← low.mapM parseHextet
        pure (high ++ List.replicate (8 - (high.length + low.length)) 0 ++ low)
    | _ => none

/-- An IPv4 address at the end counts as two hextets. -/
def partsOfText (text : List Char) : Option (List (List Char)) :=
  let parts := text.splitOn ':'
  if parts.length < 3 then none
  else if '.' ∈ parts.getLastD [] then
    (ipv4Address (parts.getLastD [])).map fun ip => parts.dropLast ++
      [Nat.toDigits 16 (ip.toNat / 65536 % 65536),Nat.toDigits 16 (ip.toNat % 65536)]
  else some parts

/-- `IPv6Address._ip_int_from_string`. -/
def ipv6FromString (text : List Char) : Option (BitVec 128) :=
  if text = [] then none
  else ((partsOfText text).bind hextetsOfParts).map fun hextets =>
    BitVec.ofNat 128 (Numeral.ofWords 65536 hextets)

/-- The runs of zeros seen so far: the first of the longest, and the one at hand. -/
structure ZeroRuns where
  bestStart : ℕ := 0
  bestLen : ℕ := 0
  start : ℕ := 0
  len : ℕ := 0

/-- One turn of the loop of `_compress_hextets`. -/
def ZeroRuns.next (r : ZeroRuns) (index : ℕ) (hextet : List Char) : ZeroRuns :=
  if hextet = ['0'] then
    let start := if r.len = 0 then index else r.start
    if r.bestLen < r.len+1 then ⟨start,r.len+1,start,r.len+1⟩
    else { r with start, len := r.len+1 }
  else { r with start := 0, len := 0 }

def zeroRunsFrom (r : ZeroRuns) (index : ℕ) : List (List Char) → ZeroRuns
  | [] => r
  | hextet :: hextets => zeroRunsFrom (r.next index hextet) (index+1) hextets

def compressHextets (hextets : List (List Char)) : List (List Char) :=
  let r := zeroRunsFrom {} 0 hextets
  if 1 < r.bestLen then
    let bestEnd := r.bestStart+r.bestLen
    let padded := if bestEnd = hextets.length then hextets ++ [[]] else hextets
    let cut := padded.take r.bestStart ++ [] :: padded.drop bestEnd
    if r.bestStart = 0 then [] :: cut else cut
  else hextets

/-- `IPv6Address._string_from_ip_int`. -/
def stringFromIpInt (n : ℕ) : List Char :=
  [':'].intercalate (compressHextets ((Numeral.toWords 65536 8 n).map (Nat.toDigits 16)))

def ipv4Mapped (ip : BitVec 128) : Option (BitVec 32) :=
  if ip.toNat / 2^32 ≠ 0xffff then none else some (BitVec.ofNat 32 ip.toNat)

/-- `str` of an `IPv6Address`, without its scope. -/
def ipv6Text (ip : BitVec 128) : List Char :=
  match ipv4Mapped ip with
  | none => stringFromIpInt ip.toNat
  | some ipv4 => stringFromIpInt (ip.toNat / 2^32) ++ ':' :: ipv4Text ipv4

theorem isHexDigit_digitChar {d : ℕ} (h : d < 16) : isHexDigit d.digitChar = true := by
  interval_cases d <;> rfl

theorem toDigits_isHexDigit (n : ℕ) : ∀ c ∈ Nat.toDigits 16 n, isHexDigit c = true :=
  Numeral.toDigits_forall (by decide) (fun _ => isHexDigit_digitChar) n

theorem parseHextet_toDigits {n : ℕ} (h : n < 65536) :
    parseHextet (Nat.toDigits 16 n) = some n := by
  have hlength : (Nat.toDigits 16 n).length ≤ 4 :=
    (Nat.length_toDigits_le_iff (by decide) (by decide)).mpr (by omega)
  have hdigits : (Nat.toDigits 16 n).all isHexDigit = true :=
    List.all_eq_true.mpr (toDigits_isHexDigit n)
  unfold parseHextet
  rw [if_neg (by simp [hdigits]),if_neg (by omega),if_neg (by simp),
    Numeral.ofDigits_toDigits (by decide) (by decide)]

/-- Only zero is written as a zero. -/
theorem toDigits_zero_iff {n : ℕ} : Nat.toDigits 16 n = ['0'] ↔ n = 0 := by
  constructor
  · intro h
    by_contra hn
    obtain ⟨c,rest,htext,hc⟩ := Numeral.head_toDigits (show 1 < 16 by decide) (by decide) hn
    rw [htext] at h
    exact hc (by simpa using congrArg List.head? h)
  · rintro rfl
    rfl

/-- What the loop of `_compress_hextets` knows of the hextets it has passed. -/
structure ZeroRuns.Of (r : ZeroRuns) (passed : List (List Char)) : Prop where
  best : ∃ before after, passed = before ++ List.replicate r.bestLen ['0'] ++ after ∧
    (r.bestLen ≠ 0 → before.length = r.bestStart)
  current : ∃ before, passed = before ++ List.replicate r.len ['0'] ∧
    (r.len ≠ 0 → before.length = r.start)

theorem ZeroRuns.Of.next {r : ZeroRuns} {passed : List (List Char)} (h : r.Of passed)
    (hextet : List Char) : (r.next passed.length hextet).Of (passed ++ [hextet]) := by
  obtain ⟨before,after,hbest,hstart⟩ := h.best
  obtain ⟨front,hcurrent,hfront⟩ := h.current
  have hold : ∃ before' after', passed ++ [hextet] =
      before' ++ List.replicate r.bestLen ['0'] ++ after' ∧
        (r.bestLen ≠ 0 → before'.length = r.bestStart) :=
    ⟨before,after ++ [hextet],by rw [hbest]; simp,hstart⟩
  unfold ZeroRuns.next
  split
  · rename_i hzero
    have hrun : passed ++ [hextet] = front ++ List.replicate (r.len+1) ['0'] := by
      rw [hcurrent,hzero,List.replicate_succ',List.append_assoc]
    have hlength : front.length = if r.len = 0 then passed.length else r.start := by
      split
      · rename_i hnone
        rw [hcurrent,hnone]
        simp
      · rename_i hsome
        exact hfront hsome
    simp only []
    split
    · exact ⟨⟨front,[],by simpa using hrun,fun _ => hlength⟩,⟨front,hrun,fun _ => hlength⟩⟩
    · exact ⟨hold,⟨front,hrun,fun _ => hlength⟩⟩
  · exact ⟨hold,⟨passed ++ [hextet],by simp,by simp⟩⟩

theorem zeroRunsFrom_of {r : ZeroRuns} {passed : List (List Char)} (h : r.Of passed)
    (hextets : List (List Char)) :
    (zeroRunsFrom r passed.length hextets).Of (passed ++ hextets) := by
  induction hextets generalizing r passed with
  | nil => simpa [zeroRunsFrom] using h
  | cons hextet hextets ih =>
    have hnext := ih (h.next hextet)
    rw [List.length_append,List.length_singleton,List.append_assoc] at hnext
    exact hnext

/-- A run of zeros that is compressed, with the empty part that a `::` has at an end. -/
def skipped (before after : List (List Char)) : List (List Char) :=
  (if before = [] then [[]] else before) ++ [] :: (if after = [] then [[]] else after)

theorem compressHextets_cases (hextets : List (List Char)) :
    compressHextets hextets = hextets ∨
      ∃ before n after, 1 < n ∧ hextets = before ++ List.replicate n ['0'] ++ after ∧
        compressHextets hextets = skipped before after := by
  have hstart : ({} : ZeroRuns).Of [] := ⟨⟨[],[],rfl,by simp⟩,⟨[],rfl,by simp⟩⟩
  have hof : (zeroRunsFrom {} 0 hextets).Of hextets := zeroRunsFrom_of hstart hextets
  unfold compressHextets
  simp only []
  generalize zeroRunsFrom {} 0 hextets = r at hof
  split
  · rename_i hlong
    obtain ⟨before,after,heq,hstart⟩ := hof.best
    have hbefore := hstart (by omega)
    refine .inr ⟨before,r.bestLen,after,hlong,heq,?_⟩
    have htake : ∀ rest, (hextets ++ rest).take r.bestStart = before := by
      intro rest
      rw [heq,← hbefore]
      simp
    have hdrop : ∀ rest, (hextets ++ rest).drop (r.bestStart+r.bestLen) = after ++ rest := by
      intro rest
      have hlen : (before ++ List.replicate r.bestLen ['0']).length = r.bestStart+r.bestLen := by
        simp [hbefore]
      rw [heq,List.append_assoc _ after rest,← hlen,List.drop_left]
    have hend : r.bestStart+r.bestLen = hextets.length ↔ after = [] := by
      rw [heq,← hbefore]
      simp
    have hfirst : r.bestStart = 0 ↔ before = [] := by
      rw [← hbefore]
      simp
    unfold skipped
    by_cases ha : after = []
    · rw [if_pos (hend.mpr ha),htake,hdrop,ha]
      by_cases hb : before = []
      · rw [if_pos (hfirst.mpr hb),hb]
        rfl
      · rw [if_neg (mt hfirst.mp hb),if_neg hb]
        rfl
    · have htake' := htake []
      have hdrop' := hdrop []
      rw [List.append_nil] at htake' hdrop'
      rw [if_neg (mt hend.mp ha),htake',hdrop',List.append_nil,if_neg ha]
      by_cases hb : before = []
      · rw [if_pos (hfirst.mpr hb),hb]
        rfl
      · rw [if_neg (mt hfirst.mp hb),if_neg hb]
  · exact .inl rfl

def hexTexts (hextets : List ℕ) : List (List Char) := hextets.map (Nat.toDigits 16)

theorem nil_not_mem_hexTexts (hextets : List ℕ) : [] ∉ hexTexts hextets := by
  intro h
  obtain ⟨n,_,hn⟩ := List.mem_map.mp h
  exact Nat.toDigits_ne_nil hn

theorem parseHextets {hextets : List ℕ} (h : ∀ n ∈ hextets, n < 65536) :
    (hexTexts hextets).mapM parseHextet = some hextets :=
  mapM_map_some fun n hn => parseHextet_toDigits (h n hn)

/-- The parts around a `::`. -/
theorem hextetsOfParts_skip (first last : List Char) {before after : List (List Char)}
    (hbefore : [] ∉ before) (hafter : [] ∉ after) (hlength : before.length + after.length ≤ 6) :
    hextetsOfParts (first :: before ++ [] :: (after ++ [last])) = (do
      let high ← outerParts first before (first :: before)
      let low ← outerParts last after (after ++ [last])
      if 8 ≤ high.length + low.length then none
      else do
        let high ← high.mapM parseHextet
        let low ← low.mapM parseHextet
        pure (high ++ List.replicate (8 - (high.length + low.length)) 0 ++ low)) := by
  have hparts : first :: before ++ [] :: (after ++ [last]) =
      (first :: (before ++ [] :: after)) ++ [last] := by simp
  have hinner : (before ++ [] :: after).splitOn [] = [before,after] := by
    have hjoin : before ++ [] :: after = [([] : List Char)].intercalate [before,after] := by
      simp [List.intercalate_cons_cons]
    rw [hjoin]
    refine List.splitOn_intercalate [] ?_ (by simp)
    simp [hbefore,hafter]
  unfold hextetsOfParts
  rw [if_neg (by simp; omega),hparts]
  simp only [List.cons_append,List.headD_cons,List.tail_cons,List.dropLast_concat]
  have hlast : (first :: (before ++ [] :: after ++ [last])).getLastD [] = last := by
    rw [← List.cons_append,List.getLastD_concat]
  rw [hlast,hinner]

theorem hextetsOfParts_skipped {before after : List ℕ} (hbefore : ∀ n ∈ before, n < 65536)
    (hafter : ∀ n ∈ after, n < 65536) (hlength : before.length + after.length < 8) :
    hextetsOfParts (skipped (hexTexts before) (hexTexts after)) =
      some (before ++ List.replicate (8 - (before.length + after.length)) 0 ++ after) := by
  have hhigh := parseHextets hbefore
  have hlow := parseHextets hafter
  have hnone := nil_not_mem_hexTexts before
  have hnone' := nil_not_mem_hexTexts after
  have hlen : (hexTexts before).length = before.length := by simp [hexTexts]
  have hlen' : (hexTexts after).length = after.length := by simp [hexTexts]
  unfold skipped
  generalize hexTexts before = high at *
  generalize hexTexts after = low at *
  rw [← hlen,← hlen'] at hlength
  cases high with
  | nil =>
    obtain rfl := List.eq_nil_of_length_eq_zero hlen.symm
    obtain rfl | ⟨low,y,rfl⟩ := List.eq_nil_or_concat low
    · obtain rfl := List.eq_nil_of_length_eq_zero hlen'.symm
      rfl
    · rw [if_pos rfl,if_neg (by simp)]
      rw [List.concat_eq_append] at hnone' hlow hlen' hlength ⊢
      simp only [List.mem_append,List.mem_singleton,not_or] at hnone'
      simp only [List.length_nil,List.length_append,List.length_singleton] at hlength hlen'
      have hskip := hextetsOfParts_skip [] y (List.not_mem_nil) hnone'.1
        (by simp; omega)
      rw [List.singleton_append] at hskip
      rw [List.singleton_append,hskip]
      simp [outerParts,Ne.symm hnone'.2,hlow,← hlen']
      omega
  | cons x high =>
    simp only [List.mem_cons,not_or] at hnone
    simp only [List.length_cons] at hlength hlen
    obtain rfl | ⟨low,y,rfl⟩ := List.eq_nil_or_concat low
    · obtain rfl := List.eq_nil_of_length_eq_zero hlen'.symm
      rw [if_neg (by simp),if_pos rfl]
      have hskip := hextetsOfParts_skip x [] hnone.2 List.not_mem_nil
        (by simp at hlength ⊢; omega)
      rw [List.nil_append] at hskip
      rw [hskip]
      simp [outerParts,Ne.symm hnone.1,hhigh,← hlen] at hlength ⊢
      omega
    · rw [if_neg (by simp),if_neg (by simp)]
      rw [List.concat_eq_append] at hnone' hlow hlen' ⊢
      simp only [List.mem_append,List.mem_singleton,not_or] at hnone'
      simp only [List.length_append,List.length_singleton,List.concat_eq_append] at hlength hlen'
      rw [hextetsOfParts_skip x y hnone.2 hnone'.1 (by omega)]
      simp [outerParts,Ne.symm hnone.1,Ne.symm hnone'.2,hhigh,hlow,← hlen,← hlen']
      omega

/-- Eight hextets without a `::`. -/
theorem hextetsOfParts_full {hextets : List ℕ} (h : ∀ n ∈ hextets, n < 65536)
    (hlength : hextets.length = 8) : hextetsOfParts (hexTexts hextets) = some hextets := by
  have hlen : (hexTexts hextets).length = 8 := by simp [hexTexts,hlength]
  have hinner : (hexTexts hextets).tail.dropLast.splitOn [] =
      [(hexTexts hextets).tail.dropLast] := by
    have hjoin : (hexTexts hextets).tail.dropLast =
        [([] : List Char)].intercalate [(hexTexts hextets).tail.dropLast] := by simp
    conv => lhs; rw [hjoin]
    refine List.splitOn_intercalate [] ?_ (by simp)
    intro parts hparts hmem
    rw [List.mem_singleton.mp hparts] at hmem
    exact nil_not_mem_hexTexts hextets (List.mem_of_mem_tail (List.dropLast_subset _ hmem))
  unfold hextetsOfParts
  rw [if_neg (by omega)]
  simp only [hinner]
  rw [if_neg (by omega),parseHextets h]

theorem replicate_hexTexts {before after : List (List Char)} {hextets : List ℕ} {n : ℕ}
    (h : hexTexts hextets = before ++ List.replicate n ['0'] ++ after) :
    ∃ high low, hextets = high ++ List.replicate n 0 ++ low ∧ before = hexTexts high ∧
      after = hexTexts low := by
  obtain ⟨front,low,rfl,hfront,hlow⟩ := List.map_eq_append_iff.mp h
  obtain ⟨high,zeros,rfl,hhigh,hzeros⟩ := List.map_eq_append_iff.mp hfront
  have hreplicate : zeros = List.replicate n 0 := by
    rw [List.eq_replicate_iff] at hzeros ⊢
    refine ⟨by simpa using hzeros.1,fun x hx => ?_⟩
    exact toDigits_zero_iff.mp (hzeros.2 _ (List.mem_map_of_mem hx))
  exact ⟨high,low,by rw [hreplicate],hhigh.symm,hlow.symm⟩

/-- The parts of a written address, before they are joined. -/
structure Parts (hextets : List ℕ) (parts : List (List Char)) : Prop where
  read : hextetsOfParts parts = some hextets
  digits : ∀ part ∈ parts, ∀ c ∈ part, isHexDigit c = true
  three : 3 ≤ parts.length

theorem hexTexts_digits (hextets : List ℕ) : ∀ part ∈ hexTexts hextets, ∀ c ∈ part,
    isHexDigit c = true := by
  intro part hpart
  obtain ⟨n,_,rfl⟩ := List.mem_map.mp hpart
  exact toDigits_isHexDigit n

theorem parts_skipped {high low : List ℕ} (hhigh : ∀ n ∈ high, n < 65536)
    (hlow : ∀ n ∈ low, n < 65536) (hlength : high.length + low.length < 8) :
    Parts (high ++ List.replicate (8 - (high.length + low.length)) 0 ++ low)
      (skipped (hexTexts high) (hexTexts low)) where
  read := hextetsOfParts_skipped hhigh hlow hlength
  digits part hpart c hc := by
    have hside : ∀ texts : List (List Char), part ∈ (if texts = [] then [[]] else texts) →
        part ∈ texts := by
      intro texts h
      split at h
      · rw [List.mem_singleton.mp h] at hc
        simp at hc
      · exact h
    obtain h | h := List.mem_append.mp hpart
    · exact hexTexts_digits high part (hside _ h) c hc
    · obtain h | h := List.mem_cons.mp h
      · rw [h] at hc
        simp at hc
      · exact hexTexts_digits low part (hside _ h) c hc
  three := by
    have hside : ∀ texts : List (List Char), 1 ≤ (if texts = [] then [[]] else texts).length := by
      intro texts
      split
      · simp
      · rename_i h
        exact List.length_pos_iff.mpr h
    have h1 := hside (hexTexts high)
    have h2 := hside (hexTexts low)
    simp only [skipped,List.length_append,List.length_cons]
    omega

theorem parts_compressed {hextets : List ℕ} (h : ∀ n ∈ hextets, n < 65536)
    (hlength : hextets.length = 8) : Parts hextets (compressHextets (hexTexts hextets)) := by
  obtain hsame | ⟨before,n,after,hlong,heq,hskip⟩ := compressHextets_cases (hexTexts hextets)
  · rw [hsame]
    exact ⟨hextetsOfParts_full h hlength,hexTexts_digits hextets,by simp [hexTexts,hlength]⟩
  · obtain ⟨high,low,rfl,rfl,rfl⟩ := replicate_hexTexts heq
    rw [hskip]
    simp only [List.length_append,List.length_replicate] at hlength
    have hn : n = 8 - (high.length + low.length) := by omega
    have hhigh : ∀ x ∈ high, x < 65536 := fun x hx => h x (by simp [hx])
    have hlow : ∀ x ∈ low, x < 65536 := fun x hx => h x (by simp [hx])
    have hparts := parts_skipped hhigh hlow (by omega)
    rwa [← hn] at hparts

theorem parts_toWords (n : ℕ) : Parts (Numeral.toWords 65536 8 n)
    (compressHextets (hexTexts (Numeral.toWords 65536 8 n))) :=
  parts_compressed (fun _ h => Numeral.toWords_lt (by decide) h) (by simp)

theorem not_isHexDigit_colon {part : List Char} (h : ∀ c ∈ part, isHexDigit c = true) :
    ':' ∉ part ∧ '.' ∉ part :=
  ⟨fun hc => absurd (h _ hc) (by decide),fun hc => absurd (h _ hc) (by decide)⟩

theorem splitOn_parts {hextets : List ℕ} {parts : List (List Char)} (h : Parts hextets parts) :
    ([':'].intercalate parts).splitOn ':' = parts := by
  refine List.splitOn_intercalate ':' (fun part hpart => ?_) ?_
  · exact (not_isHexDigit_colon (h.digits part hpart)).1
  · intro hnil
    have hthree := h.three
    simp [hnil] at hthree

theorem ipv6FromString_parts {hextets : List ℕ} {parts : List (List Char)}
    (h : Parts hextets parts) :
    ipv6FromString ([':'].intercalate parts) =
      some (BitVec.ofNat 128 (Numeral.ofWords 65536 hextets)) := by
  have hsplit := splitOn_parts h
  have hne : [':'].intercalate parts ≠ [] := by
    intro hnil
    have hthree := h.three
    rw [hnil] at hsplit
    simp [← hsplit] at hthree
  have hlast : '.' ∉ parts.getLastD [] := by
    rw [List.getLastD_eq_getLast?]
    cases hlast : parts.getLast? with
    | none => simp
    | some part => exact (not_isHexDigit_colon (h.digits part (List.mem_of_getLast? hlast))).2
  unfold ipv6FromString partsOfText
  simp only [hsplit]
  rw [if_neg hne,if_neg (by have := h.three; omega),if_neg hlast,Option.bind_some,h.read]
  rfl

theorem dot_mem_ipv4Text (ip : BitVec 32) : '.' ∈ ipv4Text ip := by
  simp [ipv4Text,Numeral.toWords,List.intercalate_cons_cons]

/-- An address that maps an IPv4 address. -/
theorem ipv6FromString_mapped (ipv4 : BitVec 32) :
    ipv6FromString ([':',':','f','f','f','f'] ++ ':' :: ipv4Text ipv4) =
      some (BitVec.ofNat 128 (0xffff * 2^32 + ipv4.toNat)) := by
  have hipv4 : ipv4.toNat < 2^32 := ipv4.isLt
  have hsplit : ([':',':','f','f','f','f'] ++ ':' :: ipv4Text ipv4).splitOn ':' =
      [[],[],['f','f','f','f'],ipv4Text ipv4] := by
    have hjoin : [':',':','f','f','f','f'] ++ ':' :: ipv4Text ipv4 =
        [':'].intercalate [[],[],['f','f','f','f'],ipv4Text ipv4] := by
      simp [List.intercalate_cons_cons]
    rw [hjoin]
    refine List.splitOn_intercalate ':' ?_ (by simp)
    simp only [List.forall_mem_cons]
    refine ⟨by simp,by simp,by decide,fun hc => ?_,by simp⟩
    obtain h | h := ipv4Text_chars _ _ hc
    · exact absurd h (by decide)
    · exact absurd h (by decide)
  have hsmall : ∀ n ∈ [0xffff,ipv4.toNat / 65536 % 65536,ipv4.toNat % 65536], n < 65536 := by
    simp only [List.forall_mem_cons]
    refine ⟨by decide,?_,?_,by simp⟩
    · exact Nat.mod_lt _ (by decide)
    · exact Nat.mod_lt _ (by decide)
  have hread : hextetsOfParts ([[],[],['f','f','f','f']] ++
      [Nat.toDigits 16 (ipv4.toNat / 65536 % 65536),Nat.toDigits 16 (ipv4.toNat % 65536)]) =
        some [0,0,0,0,0,0xffff,ipv4.toNat / 65536 % 65536,ipv4.toNat % 65536] :=
    hextetsOfParts_skipped (List.forall_mem_nil _) hsmall (by simp)
  have hparts : partsOfText ([':',':','f','f','f','f'] ++ ':' :: ipv4Text ipv4) =
      some ([[],[],['f','f','f','f']] ++
        [Nat.toDigits 16 (ipv4.toNat / 65536 % 65536),Nat.toDigits 16 (ipv4.toNat % 65536)]) := by
    unfold partsOfText
    simp only [hsplit]
    rw [if_neg (by simp)]
    simp only [List.getLastD_cons,List.getLastD_nil]
    rw [if_pos (dot_mem_ipv4Text ipv4),ipv4Address_text]
    rfl
  have hvalue : Numeral.ofWords 65536
      [0,0,0,0,0,0xffff,ipv4.toNat / 65536 % 65536,ipv4.toNat % 65536] =
        0xffff * 2^32 + ipv4.toNat := by
    simp only [Numeral.ofWords,List.foldl_cons,List.foldl_nil]
    omega
  unfold ipv6FromString
  rw [if_neg (by simp),hparts,Option.bind_some,hread,Option.map_some,hvalue]

theorem ipv6FromString_text (ip : BitVec 128) : ipv6FromString (ipv6Text ip) = some ip := by
  have hip : ip.toNat < 65536 ^ 8 := by simpa using ip.isLt
  unfold ipv6Text
  cases hmapped : ipv4Mapped ip with
  | none =>
    have hparts := parts_toWords ip.toNat
    have hread := ipv6FromString_parts hparts
    rw [Numeral.ofWords_toWords hip] at hread
    simpa [stringFromIpInt,hexTexts] using hread
  | some ipv4 =>
    unfold ipv4Mapped at hmapped
    split at hmapped
    · contradiction
    · rename_i hhigh
      rw [not_not] at hhigh
      cases hmapped
      have hinitial : stringFromIpInt 0xffff = [':',':','f','f','f','f'] := by rfl
      have hvalue : 0xffff * 2^32 + (BitVec.ofNat 32 ip.toNat).toNat = ip.toNat := by
        rw [BitVec.toNat_ofNat]
        omega
      rw [hhigh]
      simp only []
      rw [hinitial,ipv6FromString_mapped,hvalue]
      simp

/-- The characters of an IPv6 address. -/
theorem ipv6Text_chars (ip : BitVec 128) :
    ∀ c ∈ ipv6Text ip, isHexDigit c = true ∨ c = ':' ∨ c = '.' := by
  have hstring : ∀ n c, c ∈ stringFromIpInt n → isHexDigit c = true ∨ c = ':' ∨ c = '.' := by
    intro n c hc
    have hparts := parts_toWords n
    obtain rfl | ⟨part,hpart,hmem⟩ := Fields.mem_intercalate hc
    · exact .inr (.inl rfl)
    · exact .inl (hparts.digits part hpart c hmem)
  intro c hc
  unfold ipv6Text at hc
  split at hc
  · exact hstring _ c hc
  · obtain hc | hc := List.mem_append.mp hc
    · exact hstring _ c hc
    · obtain rfl | hc := List.mem_cons.mp hc
      · exact .inr (.inl rfl)
      · obtain h | h := ipv4Text_chars _ c hc
        · exact .inl (by simp [isHexDigit,h])
        · exact .inr (.inr h)

theorem sep_mem_intercalate {α : Type} {sep : α} {texts : List (List α)} (h : 2 ≤ texts.length) :
    sep ∈ [sep].intercalate texts := by
  obtain ⟨a,b,rest,rfl⟩ : ∃ a b rest, texts = a :: b :: rest := by
    match texts,h with
    | a :: b :: rest,_ => exact ⟨a,b,rest,rfl⟩
  simp [List.intercalate_cons_cons]

theorem colon_mem_ipv6Text (ip : BitVec 128) : ':' ∈ ipv6Text ip := by
  unfold ipv6Text
  split
  · have hparts := parts_toWords ip.toNat
    have hthree := hparts.three
    exact sep_mem_intercalate (show 2 ≤ _ by unfold hexTexts at hthree; omega)
  · simp

/-! ### Addresses -/

/-- What stands behind the percent sign of an IPv6 address. -/
structure ScopeId where
  text : List Char
  nonempty : text ≠ []
  percent : '%' ∉ text
  slash : '/' ∉ text
  deriving DecidableEq

structure IPv6Address where
  ip : BitVec 128
  scopeId : Option ScopeId := none
  deriving DecidableEq

inductive Address where
  | v4 (ip : BitVec 32)
  | v6 (address : IPv6Address)
  deriving DecidableEq

/-- The caller has excluded slashes. -/
def ScopeId.ofText (text : List Char) : Option ScopeId :=
  if h : text ≠ [] ∧ '%' ∉ text ∧ '/' ∉ text then some ⟨text,h.1,h.2.1,h.2.2⟩ else none

def ipv6Address (text : List Char) : Option IPv6Address :=
  if '/' ∈ text then none
  else
    match text.dropWhile fun c => c ≠ '%' with
    | [] => do
      let ip ← ipv6FromString (text.takeWhile fun c => c ≠ '%')
      pure { ip }
    | _ :: scope => do
      let scopeId ← ScopeId.ofText scope
      let ip ← ipv6FromString (text.takeWhile fun c => c ≠ '%')
      pure { ip, scopeId }

/-- `ip_address`; none stands for its `ValueError`. -/
def ipAddress (text : List Char) : Option Address :=
  match ipv4Address text with
  | some ip => some (.v4 ip)
  | none => (ipv6Address text).map .v6

def IPv6Address.text (address : IPv6Address) : List Char :=
  match address.scopeId with
  | none => ipv6Text address.ip
  | some scopeId => ipv6Text address.ip ++ '%' :: scopeId.text

def Address.compressed : Address → List Char
  | .v4 ip => ipv4Text ip
  | .v6 address => address.text

theorem ScopeId.ofText_text (scopeId : ScopeId) : ScopeId.ofText scopeId.text = some scopeId := by
  unfold ScopeId.ofText
  rw [dif_pos ⟨scopeId.nonempty,scopeId.percent,scopeId.slash⟩]

theorem not_mem_ipv6Text (ip : BitVec 128) {c : Char} (h : isHexDigit c = false)
    (hcolon : c ≠ ':') (hdot : c ≠ '.') : c ∉ ipv6Text ip := by
  intro hc
  obtain hhex | heq | heq := ipv6Text_chars ip c hc
  · rw [h] at hhex
    contradiction
  · exact hcolon heq
  · exact hdot heq

theorem IPv6Address.slash_not_mem (address : IPv6Address) : '/' ∉ address.text := by
  have hslash : '/' ∉ ipv6Text address.ip :=
    not_mem_ipv6Text _ (by decide) (by decide) (by decide)
  unfold IPv6Address.text
  split
  · exact hslash
  · rename_i scopeId _
    simp only [List.mem_append,List.mem_cons,not_or]
    exact ⟨hslash,by decide,scopeId.slash⟩

theorem IPv6Address.colon_mem (address : IPv6Address) : ':' ∈ address.text := by
  unfold IPv6Address.text
  split
  · exact colon_mem_ipv6Text _
  · exact List.mem_append_left _ (colon_mem_ipv6Text _)

theorem ipv6Address_text (address : IPv6Address) : ipv6Address address.text = some address := by
  have hpercent : ∀ c ∈ ipv6Text address.ip, decide (c ≠ '%') = true := by
    intro c hc
    rw [decide_eq_true_eq]
    rintro rfl
    exact not_mem_ipv6Text _ (by decide) (by decide) (by decide) hc
  unfold ipv6Address
  rw [if_neg address.slash_not_mem]
  obtain ⟨ip,scopeId⟩ := address
  cases scopeId with
  | none =>
    simp only [IPv6Address.text]
    rw [List.dropWhile_eq_nil_iff.mpr hpercent,List.takeWhile_eq_self_iff.mpr hpercent]
    simp only [ipv6FromString_text]
    rfl
  | some scopeId =>
    simp only [IPv6Address.text]
    rw [List.dropWhile_append_of_pos hpercent,List.takeWhile_append_of_pos hpercent]
    simp [ScopeId.ofText_text,ipv6FromString_text]

theorem ipAddress_compressed (address : Address) : ipAddress address.compressed = some address := by
  unfold ipAddress
  cases address with
  | v4 ip => simp only [Address.compressed,ipv4Address_text]
  | v6 address =>
    simp only [Address.compressed,ipv4Address_colon address.colon_mem,ipv6Address_text]
    rfl

/-- An IPv4 address is no IPv6 address: it has no colon. -/
theorem ipv6Address_ipv4Text (ip : BitVec 32) : ipv6Address (ipv4Text ip) = none := by
  have hchar {c : Char} (hdigit : c.isDigit = false) (hdot : c ≠ '.') : c ∉ ipv4Text ip := by
    intro hc
    obtain h | h := ipv4Text_chars ip c hc
    · rw [h] at hdigit
      contradiction
    · exact hdot h
  have hpercent : ∀ c ∈ ipv4Text ip, decide (c ≠ '%') = true := by
    intro c hc
    rw [decide_eq_true_eq]
    rintro rfl
    exact hchar (by decide) (by decide) hc
  have hparts : partsOfText (ipv4Text ip) = none := by
    have hsplit : (ipv4Text ip).splitOn ':' = [ipv4Text ip] := by
      have hjoin : ipv4Text ip = [':'].intercalate [ipv4Text ip] := by simp
      conv => lhs; rw [hjoin]
      refine List.splitOn_intercalate ':' ?_ (by simp)
      simpa using hchar (by decide) (by decide)
    unfold partsOfText
    simp only [hsplit]
    exact if_pos (by simp)
  unfold ipv6Address
  rw [List.dropWhile_eq_nil_iff.mpr hpercent,List.takeWhile_eq_self_iff.mpr hpercent]
  simp [ipv6FromString,hparts]

/-! ### Networks -/

def netmask (w prefixlen : ℕ) : BitVec w := BitVec.allOnes w ^^^ (BitVec.allOnes w >>> prefixlen)

/-- `_prefix_from_prefix_string`. -/
def prefixFromString (maxPrefixlen : ℕ) (text : List Char) : Option (Fin (maxPrefixlen+1)) :=
  if text = [] ∨ text.all Char.isDigit = false then none
  else if h : Numeral.ofDigits 10 text < maxPrefixlen+1 then some ⟨_,h⟩
  else none

/-- `_count_righthand_zero_bits`. -/
def righthandZeroBits (ip : BitVec 32) : ℕ :=
  (List.range 32).findIdx fun i => ip.getLsbD i

def prefixFromIpInt (ip : BitVec 32) : Option (Fin 33) :=
  let prefixlen := 32 - righthandZeroBits ip
  if ip >>> righthandZeroBits ip = BitVec.ofNat 32 (2 ^ prefixlen - 1) then
    some ⟨prefixlen,by omega⟩
  else none

/-- A netmask or a hostmask in the form of an address. -/
def prefixFromIpString (text : List Char) : Option (Fin 33) := do
  let ip ← ipv4FromString text
  prefixFromIpInt ip <|> prefixFromIpInt (ip ^^^ BitVec.allOnes 32)

structure IPv4Network where
  networkAddress : BitVec 32
  prefixlen : Fin 33
  masked : networkAddress &&& netmask 32 prefixlen = networkAddress
  deriving DecidableEq

structure IPv6Network where
  networkAddress : IPv6Address
  prefixlen : Fin 129
  masked : networkAddress.ip &&& netmask 128 prefixlen = networkAddress.ip
  deriving DecidableEq

inductive Network where
  | v4 (network : IPv4Network)
  | v6 (network : IPv6Network)
  deriving DecidableEq

/-- Host bits are cleared; a scope stays only where there are none. -/
def IPv4Network.make (ip : BitVec 32) (prefixlen : Fin 33) : IPv4Network where
  networkAddress := ip &&& netmask 32 prefixlen
  prefixlen := prefixlen
  masked := by rw [BitVec.and_assoc,BitVec.and_self]

def IPv6Network.make (address : IPv6Address) (prefixlen : Fin 129) : IPv6Network :=
  if h : address.ip &&& netmask 128 prefixlen = address.ip then ⟨address,prefixlen,h⟩
  else
    ⟨{ ip := address.ip &&& netmask 128 prefixlen },prefixlen,
      by rw [BitVec.and_assoc,BitVec.and_self]⟩

/-- `_split_addr_prefix`. -/
def splitAddrPrefix (text : List Char) : Option (List Char × Option (List Char)) :=
  match text.splitOn '/' with
  | [addr] => some (addr,none)
  | [addr,mask] => some (addr,some mask)
  | _ => none

def ipv4Network (text : List Char) : Option IPv4Network := do
  let (addr,mask) ← splitAddrPrefix text
  let ip ← ipv4Address addr
  let prefixlen ← match mask with
    | none => some (Fin.last 32)
    | some mask => prefixFromString 32 mask <|> prefixFromIpString mask
  pure (.make ip prefixlen)

def ipv6Network (text : List Char) : Option IPv6Network := do
  let (addr,mask) ← splitAddrPrefix text
  let address ← ipv6Address addr
  let prefixlen ← match mask with
    | none => some (Fin.last 128)
    | some mask => prefixFromString 128 mask
  pure (.make address prefixlen)

/-- `ip_network(text, strict=False)`; none stands for its `ValueError`. -/
def ipNetwork (text : List Char) : Option Network :=
  match ipv4Network text with
  | some network => some (.v4 network)
  | none => (ipv6Network text).map .v6

def Network.withPrefixlen : Network → List Char
  | .v4 network => ipv4Text network.networkAddress ++ '/' :: Nat.toDigits 10 network.prefixlen
  | .v6 network => network.networkAddress.text ++ '/' :: Nat.toDigits 10 network.prefixlen

theorem prefixFromString_toDigits {maxPrefixlen : ℕ} (prefixlen : Fin (maxPrefixlen+1)) :
    prefixFromString maxPrefixlen (Nat.toDigits 10 prefixlen) = some prefixlen := by
  have hdigits : (Nat.toDigits 10 prefixlen.val).all Char.isDigit = true :=
    List.all_eq_true.mpr (toDigits_isDigit prefixlen)
  have hvalue : Numeral.ofDigits 10 (Nat.toDigits 10 prefixlen.val) = prefixlen :=
    Numeral.ofDigits_toDigits (by decide) (by decide) _
  unfold prefixFromString
  rw [if_neg (by simp [hdigits])]
  simp only [hvalue,prefixlen.isLt,dif_pos]

theorem splitAddrPrefix_slash {addr : List Char} (h : '/' ∉ addr) (n : ℕ) :
    splitAddrPrefix (addr ++ '/' :: Nat.toDigits 10 n) = some (addr,some (Nat.toDigits 10 n)) := by
  have hdigits : '/' ∉ Nat.toDigits 10 n := fun hc => absurd (toDigits_isDigit n _ hc) (by decide)
  have hjoin : addr ++ '/' :: Nat.toDigits 10 n = ['/'].intercalate [addr,Nat.toDigits 10 n] := by
    simp [List.intercalate_cons_cons]
  have hsplit : (addr ++ '/' :: Nat.toDigits 10 n).splitOn '/' = [addr,Nat.toDigits 10 n] := by
    rw [hjoin]
    refine List.splitOn_intercalate '/' ?_ (by simp)
    simp [h,hdigits]
  unfold splitAddrPrefix
  rw [hsplit]

theorem IPv4Network.make_eq (network : IPv4Network) :
    IPv4Network.make network.networkAddress network.prefixlen = network := by
  obtain ⟨networkAddress,prefixlen,masked⟩ := network
  simp only [IPv4Network.make]
  congr 1

theorem IPv6Network.make_eq (network : IPv6Network) :
    IPv6Network.make network.networkAddress network.prefixlen = network := by
  unfold IPv6Network.make
  rw [dif_pos network.masked]

theorem ipNetwork_withPrefixlen (network : Network) :
    ipNetwork network.withPrefixlen = some network := by
  unfold ipNetwork
  cases network with
  | v4 network =>
    have hslash : '/' ∉ ipv4Text network.networkAddress := by
      intro hc
      obtain h | h := ipv4Text_chars _ _ hc
      · exact absurd h (by decide)
      · exact absurd h (by decide)
    have hread : ipv4Network (Network.v4 network).withPrefixlen = some network := by
      simp only [ipv4Network,Network.withPrefixlen,splitAddrPrefix_slash hslash,
        Option.bind_eq_bind,Option.bind_some,ipv4Address_text,prefixFromString_toDigits]
      exact congrArg some network.make_eq
    rw [hread]
  | v6 network =>
    have hslash := network.networkAddress.slash_not_mem
    have hnone : ipv4Network (Network.v6 network).withPrefixlen = none := by
      simp only [ipv4Network,Network.withPrefixlen,splitAddrPrefix_slash hslash,
        Option.bind_eq_bind,Option.bind_some,ipv4Address_colon network.networkAddress.colon_mem,
        Option.bind_none]
    have hread : ipv6Network (Network.v6 network).withPrefixlen = some network := by
      simp only [ipv6Network,Network.withPrefixlen,splitAddrPrefix_slash hslash,
        Option.bind_eq_bind,Option.bind_some,ipv6Address_text,prefixFromString_toDigits]
      exact congrArg some network.make_eq
    rw [hnone,hread]
    rfl

end IpText
