import SmartDns.Core.QueryText
set_option autoImplicit false

/-!
Python's `urllib.parse` on a whole URL: its five parts, and the URL that is written of them.
Parts that `urlsplit` gives are written and split into the same parts.
-/

namespace UrlText

open QueryText (isAscii)
open PyText (partition)

structure SplitResult where
  scheme : List Char
  netloc : List Char
  path : List Char
  query : List Char
  fragment : List Char
  deriving DecidableEq,Repr

def usesNetloc : List (List Char) :=
  ["ftp","http","gopher","nntp","telnet","imap","wais","file","mms","https","shttp","snews",
    "prospero","rtsp","rtsps","rtspu","rsync","svn","svn+ssh","sftp","nfs","git","git+ssh","ws",
    "wss","itms-services"].map String.toList

/-- `_WHATWG_C0_CONTROL_OR_SPACE`. -/
def isControlOrSpace (c : Char) : Bool := c.toNat ≤ 32

/-- `_UNSAFE_URL_BYTES_TO_REMOVE`. -/
def isUnsafe (c : Char) : Bool := c ∈ ['\t','\r','\n']

def isSchemeChar (c : Char) : Bool := c.isAlphanum || c ∈ ['+','-','.']

def endsNetloc (c : Char) : Bool := c ∈ ['/','?','#']

def clean (url : List Char) : List Char :=
  (PyText.lstripBy isControlOrSpace url).filter fun c => !isUnsafe c

def isScheme (text : List Char) : Bool := text.head?.any Char.isAlpha && text.all isSchemeChar

def cutScheme (url : List Char) : List Char × List Char :=
  if ':' ∈ url ∧ isScheme (partition ':' url).1 then
    ((partition ':' url).1.map Char.toLower,(partition ':' url).2)
  else ([],url)

/-- `_splitnetloc` behind two slashes. -/
def cutNetloc (url : List Char) : List Char × List Char :=
  if ['/','/'] <+: url then
    ((url.drop 2).takeWhile fun c => !endsNetloc c,(url.drop 2).dropWhile fun c => !endsNetloc c)
  else ([],url)

/-- `admits` is whether a bracketed host is an address and the normalised name has no delimiter
that the name has not. -/
def checkNetloc (admits : List Char → Bool) (netloc : List Char) : Bool :=
  netloc = [] ∨ ('[' ∈ netloc ↔ ']' ∈ netloc) ∧ admits netloc = true

/-- `none` is a `ValueError`. -/
def urlsplit (admits : List Char → Bool) (url : List Char) : Option SplitResult :=
  let (scheme,rest) := cutScheme (clean url)
  let (netloc,rest) := cutNetloc rest
  if checkNetloc admits netloc then
    let (rest,fragment) := partition '#' rest
    let (path,query) := partition '?' rest
    some ⟨scheme,netloc,path,query,fragment⟩
  else none

/-- The netloc and the path. -/
def hierarchy (parts : SplitResult) : List Char :=
  if parts.netloc ≠ [] then
    '/' :: '/' :: parts.netloc ++
      if parts.path ≠ [] ∧ parts.path.head? ≠ some '/' then '/' :: parts.path else parts.path
  else if ['/','/'] <+: parts.path then '/' :: '/' :: parts.path
  else if parts.scheme ∈ usesNetloc ∧ (parts.path = [] ∨ parts.path.head? = some '/') then
    '/' :: '/' :: parts.path
  else parts.path

/-- A part with its delimiter, where there is one. -/
def marked (delimiter : Char) (text : List Char) : List Char :=
  if text = [] then [] else delimiter :: text

def urlunsplit (parts : SplitResult) : List Char :=
  let url := hierarchy parts
  let url := if parts.scheme = [] then url else parts.scheme ++ ':' :: url
  url ++ marked '?' parts.query ++ marked '#' parts.fragment

/-! ### What the parts are -/

/-- Parts that `urlsplit` gives. -/
structure WellSplit (admits : List Char → Bool) (parts : SplitResult) : Prop where
  scheme : parts.scheme ≠ [] → isScheme parts.scheme = true
  lower : parts.scheme.map Char.toLower = parts.scheme
  netloc : ∀ c ∈ parts.netloc, endsNetloc c = false
  checked : checkNetloc admits parts.netloc = true
  rooted : parts.netloc ≠ [] → ∀ c ∈ parts.path.head?, c = '/'
  path : '?' ∉ parts.path ∧ '#' ∉ parts.path
  query : '#' ∉ parts.query
  plain : ∀ c ∈ parts.netloc ++ parts.path ++ parts.query ++ parts.fragment, isUnsafe c = false
  bare : parts.scheme = [] → parts.netloc = [] → ∀ c ∈ parts.path.head?, isControlOrSpace c = false
  noScheme : parts.scheme = [] → parts.netloc = [] → ':' ∈ parts.path →
    isScheme (partition ':' parts.path).1 = false

theorem isUnsafe_urlencode (items : List (List Char × List Char)) :
    ∀ c ∈ QueryText.urlencode items, isUnsafe c = false := by
  intro c hc
  refine Bool.eq_false_iff.mpr fun h => ?_
  simp only [isUnsafe,List.mem_cons,List.not_mem_nil,or_false,decide_eq_true_eq] at h
  obtain rfl | rfl | rfl := h
  · exact QueryText.not_mem_urlencode (c := '\t') rfl (by decide) (by decide) items hc
  · exact QueryText.not_mem_urlencode (c := '\r') rfl (by decide) (by decide) items hc
  · exact QueryText.not_mem_urlencode (c := '\n') rfl (by decide) (by decide) items hc

/-! ### Characters -/

theorem toNat_of_isSchemeChar {c : Char} (h : isSchemeChar c = true) : c.toNat < 128 := by
  rw [isSchemeChar,Bool.or_eq_true,decide_eq_true_eq] at h
  cases h with
  | inl h => exact QueryText.toNat_lt_of_isAlphanum h
  | inr h =>
    have hall : (['+','-','.'].all fun d => d.toNat < 128) = true := rfl
    exact of_decide_eq_true (List.all_eq_true.mp hall c h)

theorem isSchemeChar_toLower {c : Char} (h : isSchemeChar c = true) :
    isSchemeChar c.toLower = true :=
  PyText.ascii_forall (fun c => isSchemeChar c = true → isSchemeChar c.toLower = true)
    (by decide +kernel) (toNat_of_isSchemeChar h) h

theorem toLower_toLower {c : Char} (h : isSchemeChar c = true) : c.toLower.toLower = c.toLower :=
  PyText.ascii_forall (fun c => c.toLower.toLower = c.toLower) (by decide +kernel)
    (toNat_of_isSchemeChar h)

theorem isUnsafe_of_isSchemeChar {c : Char} (h : isSchemeChar c = true) : isUnsafe c = false :=
  PyText.ascii_forall (fun c => isSchemeChar c = true → isUnsafe c = false) (by decide +kernel)
    (toNat_of_isSchemeChar h) h

theorem toNat_of_isAlpha {c : Char} (h : c.isAlpha = true) : c.toNat < 128 :=
  QueryText.toNat_lt_of_isAlphanum (by simp [Char.isAlphanum,h])

theorem isAlpha_toLower {c : Char} (h : c.isAlpha = true) : c.toLower.isAlpha = true :=
  PyText.ascii_forall (fun c => c.isAlpha = true → c.toLower.isAlpha = true) (by decide +kernel)
    (toNat_of_isAlpha h) h

theorem isControlOrSpace_of_isAlpha {c : Char} (h : c.isAlpha = true) :
    isControlOrSpace c = false :=
  PyText.ascii_forall (fun c => c.isAlpha = true → isControlOrSpace c = false) (by decide +kernel)
    (toNat_of_isAlpha h) h

theorem isScheme_iff {text : List Char} : isScheme text = true ↔
    (∃ c ∈ text.head?, c.isAlpha = true) ∧ ∀ c ∈ text, isSchemeChar c = true := by
  rw [isScheme,Bool.and_eq_true,Option.any_eq_true,List.all_eq_true]
  rfl

theorem isScheme_eq_false {text : List Char} {c : Char} (hc : c ∈ text)
    (h : isSchemeChar c = false) : isScheme text = false := by
  refine Bool.eq_false_iff.mpr fun hscheme => ?_
  rw [(isScheme_iff.mp hscheme).2 c hc] at h
  contradiction

theorem isScheme_slash (text : List Char) : isScheme ('/' :: text) = false :=
  isScheme_eq_false List.mem_cons_self rfl

section
variable {admits : List Char → Bool} {parts : SplitResult}

/-- A query without a delimiter or a space keeps the parts well split. -/
theorem WellSplit.withQuery (h : WellSplit admits parts) {query : List Char} (hend : '#' ∉ query)
    (hplain : ∀ c ∈ query, isUnsafe c = false) : WellSplit admits {parts with query := query} where
  scheme := h.scheme
  lower := h.lower
  netloc := h.netloc
  checked := h.checked
  rooted := h.rooted
  path := h.path
  query := hend
  plain c hc := by
    simp only [List.mem_append,or_assoc] at hc
    obtain hc | hc | hc | hc := hc
    · exact h.plain c (by simp [hc])
    · exact h.plain c (by simp [hc])
    · exact hplain c hc
    · exact h.plain c (by simp [hc])
  bare := h.bare
  noScheme := h.noScheme

/-! ### Parts that are written and split -/

theorem clean_eq {url : List Char} (hplain : ∀ c ∈ url, isUnsafe c = false)
    (hhead : ∀ c ∈ url.head?, isControlOrSpace c = false) : clean url = url := by
  rw [clean,PyText.lstripBy_eq hhead]
  exact List.filter_eq_self.mpr fun c hc => by rw [hplain c hc]; rfl

theorem marked_head {delimiter : Char} {text : List Char} :
    ∀ c ∈ (marked delimiter text).head?, c = delimiter := by
  intro c hc
  rw [marked] at hc
  split at hc
  · contradiction
  · exact (Option.some.inj hc).symm

theorem partition_marked {delimiter : Char} {body : List Char} (h : delimiter ∉ body)
    (text : List Char) : partition delimiter (body ++ marked delimiter text) = (body,text) := by
  rw [marked]
  split
  · rename_i hnil
    rw [List.append_nil,PyText.partition_of_not_mem h,hnil]
  · exact PyText.partition_append h text

theorem mem_marked {delimiter c : Char} {text : List Char} (h : c ∈ marked delimiter text) :
    c = delimiter ∨ c ∈ text := by
  rw [marked] at h
  split at h
  · contradiction
  · exact List.mem_cons.mp h

/-- The query and the fragment with their delimiters. -/
def ending (parts : SplitResult) : List Char :=
  marked '?' parts.query ++ marked '#' parts.fragment

theorem ending_head (parts : SplitResult) : ∀ c ∈ (ending parts).head?, c = '?' ∨ c = '#' := by
  intro c hc
  obtain hc | ⟨-,hc⟩ := Fields.mem_head_append hc
  · exact Or.inl (marked_head c hc)
  · exact Or.inr (marked_head c hc)

/-- The path stands behind two slashes and the netloc, or by itself. -/
theorem WellSplit.hierarchy_cases (h : WellSplit admits parts) :
    (hierarchy parts = '/' :: '/' :: (parts.netloc ++ parts.path) ∧
      ∀ c ∈ parts.path.head?, c = '/') ∨
    (parts.netloc = [] ∧ hierarchy parts = parts.path ∧ ¬['/','/'] <+: parts.path) := by
  rw [hierarchy]
  by_cases hnetloc : parts.netloc = []
  · rw [if_neg (by simp [hnetloc]),hnetloc]
    split
    · rename_i hslashes
      obtain ⟨rest,hrest⟩ := hslashes
      refine Or.inl ⟨rfl,fun c hc => ?_⟩
      rw [← hrest] at hc
      exact (Option.some.inj hc).symm
    · rename_i hslashes
      split
      · rename_i huses
        refine Or.inl ⟨rfl,fun c hc => ?_⟩
        obtain hnil | hslash := huses.2
        · rw [hnil] at hc
          contradiction
        · exact Option.some.inj (hc.symm.trans hslash)
      · exact Or.inr ⟨rfl,rfl,hslashes⟩
  · have hrooted := h.rooted hnetloc
    have hpath : ¬(parts.path ≠ [] ∧ parts.path.head? ≠ some '/') := by
      intro hpath
      obtain ⟨c,rest,hcons⟩ := List.exists_cons_of_ne_nil hpath.1
      have hslash := hrooted c (by rw [hcons]; rfl)
      exact hpath.2 (by rw [hcons,hslash]; rfl)
    rw [if_pos hnetloc,if_neg hpath]
    exact Or.inl ⟨rfl,hrooted⟩

theorem cutNetloc_slashes {netloc rest : List Char} (hnetloc : ∀ c ∈ netloc, endsNetloc c = false)
    (hrest : ∀ c ∈ rest.head?, endsNetloc c = true) :
    cutNetloc ('/' :: '/' :: (netloc ++ rest)) = (netloc,rest) := by
  have htext : ∀ c ∈ netloc, (!endsNetloc c) = true := fun c hc => by rw [hnetloc c hc]; rfl
  have hstop : ∀ c ∈ rest.head?, (!endsNetloc c) = false := fun c hc => by rw [hrest c hc]; rfl
  have hslashes : ['/','/'] <+: '/' :: '/' :: (netloc ++ rest) := ⟨netloc ++ rest,rfl⟩
  rw [cutNetloc,if_pos hslashes]
  simp only [List.drop_succ_cons,List.drop_zero]
  rw [Fields.takeWhile_append_stop htext hstop,Fields.dropWhile_append_stop htext hstop]

/-- What comes behind the path does not make two slashes of its start. -/
theorem not_slashes_append {path rest : List Char} (h : ¬['/','/'] <+: path)
    (hrest : ∀ c ∈ rest.head?, c = '?' ∨ c = '#') : ¬['/','/'] <+: path ++ rest := by
  have hslash : ∀ c ∈ rest.head?, c ≠ '/' := by
    intro c hc
    obtain rfl | rfl := hrest c hc
    · decide
    · decide
  intro hprefixed
  match path,rest,hprefixed with
  | [],[],hprefixed => simp at hprefixed
  | [],c :: rest,hprefixed =>
    exact hslash c rfl (List.cons_prefix_cons.mp hprefixed).1.symm
  | [a],[],hprefixed => simp at hprefixed
  | [a],c :: rest,hprefixed =>
    exact hslash c rfl (List.cons_prefix_cons.mp (List.cons_prefix_cons.mp hprefixed).2).1.symm
  | a :: b :: path,rest,hprefixed =>
    obtain ⟨ha,hprefixed⟩ := List.cons_prefix_cons.mp hprefixed
    obtain ⟨hb,-⟩ := List.cons_prefix_cons.mp hprefixed
    rw [← ha,← hb] at h
    exact h ⟨path,rfl⟩

theorem WellSplit.cutNetloc_hierarchy (h : WellSplit admits parts) :
    cutNetloc (hierarchy parts ++ ending parts) = (parts.netloc,parts.path ++ ending parts) := by
  obtain ⟨heq,hrooted⟩ | ⟨hnil,heq,hslashes⟩ := h.hierarchy_cases
  · rw [heq,List.cons_append,List.cons_append,List.append_assoc]
    refine cutNetloc_slashes h.netloc fun c hc => ?_
    obtain hc | ⟨-,hc⟩ := Fields.mem_head_append hc
    · rw [hrooted c hc]
      rfl
    · obtain rfl | rfl := ending_head parts c hc
      · rfl
      · rfl
  · rw [heq,hnil,cutNetloc,if_neg (not_slashes_append hslashes (ending_head parts))]

theorem cutScheme_eq {url : List Char} (h : ':' ∈ url → isScheme (partition ':' url).1 = false) :
    cutScheme url = ([],url) := by
  rw [cutScheme,if_neg]
  intro hscheme
  rw [h hscheme.1] at hscheme
  exact absurd hscheme.2 Bool.false_ne_true

theorem isScheme_partition_slash (text : List Char) :
    isScheme (partition ':' ('/' :: text)).1 = false := by
  have hfirst : (partition ':' ('/' :: text)).1 = '/' :: (partition ':' text).1 := rfl
  rw [hfirst,isScheme_slash]

/-- Without a scheme no colon in the parts is taken for the end of one. -/
theorem WellSplit.isScheme_hierarchy (h : WellSplit admits parts) (hscheme : parts.scheme = []) :
    ':' ∈ hierarchy parts ++ ending parts →
      isScheme (partition ':' (hierarchy parts ++ ending parts)).1 = false := by
  intro hcolon
  obtain ⟨heq,-⟩ | ⟨hnil,heq,-⟩ := h.hierarchy_cases
  · rw [heq]
    exact isScheme_partition_slash _
  rw [heq] at hcolon
  rw [heq]
  by_cases hpath : ':' ∈ parts.path
  · rw [PyText.partition_fst_append hpath]
    exact h.noScheme hscheme hnil hpath
  · -- the colon is in the query or the fragment, so a delimiter stands before it
    obtain ⟨c,rest,hending⟩ : ∃ c rest, ending parts = c :: rest := by
      refine List.exists_cons_of_ne_nil fun hending => ?_
      rw [hending,List.append_nil] at hcolon
      exact hpath hcolon
    have hc := ending_head parts c (by rw [hending]; rfl)
    have hne : c ≠ ':' := by
      obtain rfl | rfl := hc
      · decide
      · decide
    have hmem : c ∈ (partition ':' (parts.path ++ ending parts)).1 := by
      have hkept : ∀ d ∈ parts.path, decide (d ≠ ':') = true := fun d hd =>
        decide_eq_true fun heq => hpath (heq ▸ hd)
      rw [hending,partition,List.takeWhile_append_of_pos hkept]
      simp [hne]
    refine isScheme_eq_false hmem ?_
    obtain rfl | rfl := hc
    · rfl
    · rfl

theorem urlunsplit_of_scheme_nil (h : parts.scheme = []) :
    urlunsplit parts = hierarchy parts ++ ending parts := by
  simp [urlunsplit,h,ending]

theorem urlunsplit_of_scheme (h : parts.scheme ≠ []) :
    urlunsplit parts = parts.scheme ++ ':' :: (hierarchy parts ++ ending parts) := by
  simp [urlunsplit,h,ending]

theorem WellSplit.cutScheme_urlunsplit (h : WellSplit admits parts) :
    cutScheme (urlunsplit parts) = (parts.scheme,hierarchy parts ++ ending parts) := by
  by_cases hscheme : parts.scheme = []
  · rw [urlunsplit_of_scheme_nil hscheme,cutScheme_eq (h.isScheme_hierarchy hscheme),hscheme]
  · have hchars := (isScheme_iff.mp (h.scheme hscheme)).2
    have hcolon : ':' ∉ parts.scheme := fun hmem => absurd (hchars _ hmem) (by decide)
    rw [urlunsplit_of_scheme hscheme,cutScheme,PyText.partition_append hcolon,
      if_pos ⟨by simp,h.scheme hscheme⟩,h.lower]

theorem WellSplit.isUnsafe_hierarchy (h : WellSplit admits parts) :
    ∀ c ∈ hierarchy parts ++ ending parts, isUnsafe c = false := by
  intro c hc
  obtain hc | hc := List.mem_append.mp hc
  · obtain ⟨heq,-⟩ | ⟨-,heq,-⟩ := h.hierarchy_cases
    · rw [heq,List.mem_cons,List.mem_cons,List.mem_append] at hc
      obtain rfl | rfl | hc | hc := hc
      · rfl
      · rfl
      · exact h.plain c (by simp [hc])
      · exact h.plain c (by simp [hc])
    · rw [heq] at hc
      exact h.plain c (by simp [hc])
  · obtain hc | hc := List.mem_append.mp hc
    · obtain rfl | hc := mem_marked hc
      · rfl
      · exact h.plain c (by simp [hc])
    · obtain rfl | hc := mem_marked hc
      · rfl
      · exact h.plain c (by simp [hc])

theorem WellSplit.head_hierarchy (h : WellSplit admits parts) (hscheme : parts.scheme = []) :
    ∀ c ∈ (hierarchy parts ++ ending parts).head?, isControlOrSpace c = false := by
  intro c hc
  obtain hc | ⟨-,hc⟩ := Fields.mem_head_append hc
  · obtain ⟨heq,-⟩ | ⟨hnil,heq,-⟩ := h.hierarchy_cases
    · rw [heq] at hc
      obtain rfl := Option.some.inj hc
      rfl
    · rw [heq] at hc
      exact h.bare hscheme hnil c hc
  · obtain rfl | rfl := ending_head parts c hc
    · rfl
    · rfl

theorem WellSplit.clean_urlunsplit (h : WellSplit admits parts) :
    clean (urlunsplit parts) = urlunsplit parts := by
  by_cases hscheme : parts.scheme = []
  · rw [urlunsplit_of_scheme_nil hscheme]
    exact clean_eq h.isUnsafe_hierarchy (h.head_hierarchy hscheme)
  · obtain ⟨⟨first,hfirst,halpha⟩,hchars⟩ := isScheme_iff.mp (h.scheme hscheme)
    rw [urlunsplit_of_scheme hscheme]
    refine clean_eq (fun c hc => ?_) fun c hc => ?_
    · obtain hc | hc := List.mem_append.mp hc
      · exact isUnsafe_of_isSchemeChar (hchars c hc)
      · obtain rfl | hc := List.mem_cons.mp hc
        · rfl
        · exact h.isUnsafe_hierarchy c hc
    · obtain hc | ⟨hnil,-⟩ := Fields.mem_head_append hc
      · obtain rfl := Option.some.inj (hfirst.symm.trans hc)
        exact isControlOrSpace_of_isAlpha halpha
      · exact absurd hnil hscheme

/-- Parts that `urlsplit` gives are those of the URL that is written of them. -/
theorem WellSplit.urlsplit_urlunsplit (h : WellSplit admits parts) :
    urlsplit admits (urlunsplit parts) = some parts := by
  have hfragment : '#' ∉ parts.path ++ marked '?' parts.query := by
    intro hmem
    obtain hmem | hmem := List.mem_append.mp hmem
    · exact h.path.2 hmem
    · obtain hdelimiter | hmem := mem_marked hmem
      · contradiction
      · exact h.query hmem
  rw [urlsplit,h.clean_urlunsplit,h.cutScheme_urlunsplit]
  dsimp only
  rw [h.cutNetloc_hierarchy]
  dsimp only
  rw [if_pos h.checked,ending,← List.append_assoc,partition_marked hfragment]
  dsimp only
  rw [partition_marked h.path.1]

/-! ### Parts of a URL -/

theorem clean_plain (url : List Char) : ∀ c ∈ clean url, isUnsafe c = false := by
  intro c hc
  have hkept := (List.mem_filter.mp hc).2
  simpa using hkept

theorem isControlOrSpace_of_isUnsafe {c : Char} (h : isUnsafe c = true) :
    isControlOrSpace c = true := by
  have hall : ['\t','\r','\n'].all isControlOrSpace = true := rfl
  exact List.all_eq_true.mp hall c (of_decide_eq_true h)

theorem clean_head (url : List Char) : ∀ c ∈ (clean url).head?, isControlOrSpace c = false := by
  have hnot := List.head?_dropWhile_not isControlOrSpace url
  rw [clean,PyText.lstripBy]
  cases hurl : url.dropWhile isControlOrSpace with
  | nil => simp
  | cons first rest =>
    rw [hurl] at hnot
    have hfirst : isControlOrSpace first = false := hnot
    have hsafe : isUnsafe first = false := Bool.eq_false_iff.mpr fun h =>
      absurd (isControlOrSpace_of_isUnsafe h) (Bool.eq_false_iff.mp hfirst)
    intro c hc
    rw [List.filter_cons_of_pos (by rw [hsafe]; rfl)] at hc
    rw [← Option.some.inj hc]
    exact hfirst

/-- A scheme is cut off, or what there is has none. -/
theorem cutScheme_cases (url : List Char) :
    (∃ before, isScheme before = true ∧ (cutScheme url).1 = before.map Char.toLower ∧
      url = before ++ ':' :: (cutScheme url).2) ∨
    (cutScheme url = ([],url) ∧ (':' ∈ url → isScheme (partition ':' url).1 = false)) := by
  rw [cutScheme]
  split
  · rename_i h
    exact Or.inl ⟨_,h.2,rfl,(PyText.partition_eq h.1).symm⟩
  · rename_i h
    exact Or.inr ⟨rfl,fun hcolon => Bool.eq_false_iff.mpr fun hscheme => h ⟨hcolon,hscheme⟩⟩

theorem cutNetloc_cases (url : List Char) :
    (url = '/' :: '/' :: ((cutNetloc url).1 ++ (cutNetloc url).2) ∧
      (∀ c ∈ (cutNetloc url).1, endsNetloc c = false) ∧
      ∀ c ∈ (cutNetloc url).2.head?, endsNetloc c = true) ∨
    cutNetloc url = ([],url) := by
  rw [cutNetloc]
  split
  · rename_i h
    obtain ⟨rest,rfl⟩ := h
    refine Or.inl ⟨?_,fun c hc => ?_,fun c hc => ?_⟩
    · simp [List.takeWhile_append_dropWhile]
    · simpa using List.mem_takeWhile_imp hc
    · have hnot := List.head?_dropWhile_not (fun c => !endsNetloc c) rest
      simp only [List.cons_append,List.nil_append,List.drop_succ_cons,List.drop_zero] at hc
      rw [Option.mem_def.mp hc] at hnot
      simpa using hnot
  · exact Or.inr rfl

theorem isScheme_toLower {before : List Char} (h : isScheme before = true) :
    isScheme (before.map Char.toLower) = true := by
  obtain ⟨⟨first,hfirst,halpha⟩,hchars⟩ := isScheme_iff.mp h
  refine isScheme_iff.mpr ⟨⟨first.toLower,?_,isAlpha_toLower halpha⟩,fun c hc => ?_⟩
  · rw [List.head?_map,Option.mem_def.mp hfirst]
    rfl
  · obtain ⟨d,hd,rfl⟩ := List.mem_map.mp hc
    exact isSchemeChar_toLower (hchars d hd)

/-- What the path, the query and the fragment are cut of, behind a scheme and a netloc. -/
structure Cut (scheme netloc rest : List Char) : Prop where
  isScheme : scheme ≠ [] → UrlText.isScheme scheme = true
  lower : scheme.map Char.toLower = scheme
  ends : ∀ c ∈ netloc, endsNetloc c = false
  plain : ∀ c ∈ netloc ++ rest, isUnsafe c = false
  rooted : netloc ≠ [] → ∀ c ∈ rest.head?, endsNetloc c = true
  bare : scheme = [] → netloc = [] → ∀ c ∈ rest.head?, isControlOrSpace c = false
  noScheme : scheme = [] → netloc = [] → ':' ∈ rest →
    UrlText.isScheme (partition ':' rest).1 = false

/-- Without two slashes the rest is as the scheme left it. -/
theorem cut_scheme (url : List Char) :
    Cut (cutScheme (clean url)).1 [] (cutScheme (clean url)).2 := by
  obtain ⟨before,hbefore,hscheme,hurl⟩ | ⟨heq,hcolon⟩ := cutScheme_cases (clean url)
  · have hsome : before.map Char.toLower ≠ [] := by
      obtain ⟨⟨first,hfirst,-⟩,-⟩ := isScheme_iff.mp hbefore
      intro hnil
      rw [List.map_eq_nil_iff.mp hnil] at hfirst
      contradiction
    rw [hscheme]
    exact {
      isScheme := fun _ => isScheme_toLower hbefore
      lower := by
        rw [List.map_map]
        refine List.map_congr_left fun c hc => ?_
        exact toLower_toLower ((isScheme_iff.mp hbefore).2 c hc)
      ends := by simp
      plain := fun c hc => by
        refine clean_plain url c ?_
        rw [hurl]
        exact List.mem_append_right _ (List.mem_cons_of_mem _ hc)
      rooted := fun h => absurd rfl h
      bare := fun h => absurd h hsome
      noScheme := fun h => absurd h hsome }
  · rw [heq]
    exact {
      isScheme := fun h => absurd rfl h
      lower := rfl
      ends := by simp
      plain := clean_plain url
      rooted := fun h => absurd rfl h
      bare := fun _ _ => clean_head url
      noScheme := fun _ _ => hcolon }

theorem endsNetloc_iff {c : Char} : endsNetloc c = true ↔ c = '/' ∨ c = '?' ∨ c = '#' := by
  simp [endsNetloc]

theorem cut_netloc (url : List Char) : Cut (cutScheme (clean url)).1
    (cutNetloc (cutScheme (clean url)).2).1 (cutNetloc (cutScheme (clean url)).2).2 := by
  have hcut := cut_scheme url
  obtain ⟨hurl,hends,hhead⟩ | heq := cutNetloc_cases (cutScheme (clean url)).2
  · exact {
      isScheme := hcut.isScheme
      lower := hcut.lower
      ends := hends
      plain := fun c hc => by
        refine hcut.plain c ?_
        rw [hurl]
        exact List.mem_cons_of_mem _ (List.mem_cons_of_mem _ hc)
      rooted := fun _ => hhead
      bare := fun _ _ c hc => by
        obtain rfl | rfl | rfl := endsNetloc_iff.mp (hhead c hc)
        all_goals rfl
      noScheme := fun _ _ hcolon => by
        obtain ⟨c,rest,hrest⟩ := List.exists_cons_of_ne_nil (List.ne_nil_of_mem hcolon)
        have hc := hhead c (by rw [hrest]; rfl)
        rw [hrest]
        obtain rfl | rfl | rfl := endsNetloc_iff.mp hc
        all_goals exact isScheme_eq_false List.mem_cons_self rfl }
  · rw [heq]
    exact hcut

/-- A path, a query and a fragment that are cut of the rest. -/
theorem Cut.wellSplit {scheme netloc rest : List Char} (h : Cut scheme netloc rest)
    (hchecked : checkNetloc admits netloc = true) :
    WellSplit admits ⟨scheme,netloc,(partition '?' (partition '#' rest).1).1,
      (partition '?' (partition '#' rest).1).2,(partition '#' rest).2⟩ := by
  have hbefore := PyText.partition_fst_isPrefix '#' rest
  have hsubset := PyText.partition_snd_subset '?' (partition '#' rest).1
  have hpath : (partition '?' (partition '#' rest).1).1 <+: rest :=
    (PyText.partition_fst_isPrefix '?' _).trans hbefore
  have hnot : '#' ∉ (partition '#' rest).1 := PyText.not_mem_partition_fst '#' rest
  have hquestion : '?' ∉ (partition '?' (partition '#' rest).1).1 :=
    PyText.not_mem_partition_fst '?' _
  have hhash : '#' ∉ (partition '?' (partition '#' rest).1).1 := fun hmem =>
    hnot ((PyText.partition_fst_isPrefix '?' _).subset hmem)
  exact {
    scheme := h.isScheme
    lower := h.lower
    netloc := h.ends
    checked := hchecked
    rooted := fun hnetloc c hc => by
      have hmem := List.mem_of_mem_head? hc
      have hends := PyText.head_prefixed hpath (h.rooted hnetloc) c hc
      obtain rfl | rfl | rfl := endsNetloc_iff.mp hends
      · rfl
      · exact absurd hmem hquestion
      · exact absurd hmem hhash
    path := ⟨hquestion,hhash⟩
    query := fun hmem => hnot (hsubset hmem)
    plain := fun c hc => by
      refine h.plain c (List.mem_append.mpr ?_)
      simp only [List.mem_append,or_assoc] at hc
      obtain hc | hc | hc | hc := hc
      · exact Or.inl hc
      · exact Or.inr (hpath.subset hc)
      · exact Or.inr (hbefore.subset (hsubset hc))
      · exact Or.inr (PyText.partition_snd_subset '#' rest hc)
    bare := fun hscheme hnetloc => PyText.head_prefixed hpath (h.bare hscheme hnetloc)
    noScheme := fun hscheme hnetloc hcolon => by
      obtain ⟨behind,hbehind⟩ := hpath
      have hno := h.noScheme hscheme hnetloc (hbehind ▸ List.mem_append_left _ hcolon)
      rwa [← hbehind,PyText.partition_fst_append hcolon] at hno }

theorem wellSplit_of_urlsplit {url : List Char} (h : urlsplit admits url = some parts) :
    WellSplit admits parts := by
  rw [urlsplit] at h
  dsimp only at h
  split at h
  · rename_i hchecked
    rw [← Option.some.inj h]
    exact (cut_netloc url).wellSplit hchecked
  · contradiction

end

end UrlText
