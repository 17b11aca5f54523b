import SmartDns.Core.DomainSet
import SmartDns.Core.TagFiles
import SmartDns.Lib.Fields
import Mathlib.Data.Char
import Mathlib.Data.List.Lex
set_option autoImplicit false

/-!
`DomainSet` over the trie that it keeps: how it is made of the tag files, and how it is stored
in a file and read back. The trie is a library of its own.
-/

namespace SmartDns

/-- `marisa_trie.BytesTrie`: keys with byte strings, as `T` in memory and as `F` in a file. -/
structure BytesTrie (T F : Type) where
  make : List (List Char × ByteArray) → T
  prefixes : T → List Char → List (List Char)
  values : T → List Char → List ByteArray
  save : T → F
  mmap : Option F → Except PyException T

namespace BytesTrie

variable {T F : Type}

structure Lawful (marisa : BytesTrie T F) : Prop where
  prefixes : ∀ entries text key, key ∈ marisa.prefixes (marisa.make entries) text ↔
    key <+: text ∧ ∃ value, (key,value) ∈ entries
  values : ∀ entries key value, value ∈ marisa.values (marisa.make entries) key ↔
    (key,value) ∈ entries
  mmap : ∀ trie, ∃ restored, marisa.mmap (some (marisa.save trie)) = .ok restored ∧
    marisa.prefixes restored = marisa.prefixes trie ∧ marisa.values restored = marisa.values trie

/-- The list of the entries, where nothing is missing. -/
def ofEntries : BytesTrie (List (List Char × ByteArray)) (List (List Char × ByteArray)) where
  make := id
  prefixes entries text := (entries.map Prod.fst).filter fun key => key.isPrefixOf text
  values entries key := (entries.filter fun entry => entry.1 = key).map Prod.snd
  save := id
  mmap
    | some entries => .ok entries
    | none => .error (.fileNotFoundError "")

theorem ofEntries_lawful : ofEntries.Lawful where
  prefixes entries text key := by
    simp [ofEntries,and_comm]
  values entries key value := by
    simp [ofEntries]
  mmap trie := ⟨trie,rfl,rfl,rfl⟩

end BytesTrie

def tagSeparator : Char := Char.ofNat 0

def encodeTags (tags : List String) : ByteArray :=
  (String.ofList (List.intercalate [tagSeparator]
    ((tags.mergeSort fun a b => a ≤ b).map String.toList))).toUTF8

def decodeTags (value : ByteArray) : Except PyException (Finset String) :=
  match String.fromUTF8? value with
  | none => .error ⟨.valueError,"UnicodeDecodeError",""⟩
  | some text =>
    .ok (((text.toList.splitOn tagSeparator).filter fun tag => tag ≠ []).map String.ofList).toFinset

/-- `str(Path(path))`, which is `.` where the path is empty. -/
structure PathText where
  text : String
  nonempty : text ≠ ""

structure DomainSetSnapshot where
  mmapPath : Option String

/-- A `DomainSet` with the trie itself. -/
structure MarisaDomainSet (T : Type) where
  trie : Option T

section
variable {T F : Type} (marisa : BytesTrie T F) (lower : List Char → List Char)

def buildDomainEntries (directory : Option TagFiles.TagPath) :
    Except PyException (Multimap (List Char) String) := do
  let loaded ← TagFiles.loadTagFiles (normalizeDomain lower) directory
  let domainToTags ← loaded.invert (reverseDomain lower)
  pure (domainToTags.mergeSort fun a b => a.1 ≤ b.1)

def encodedEntries (d : Multimap (List Char) String) : List (List Char × ByteArray) :=
  d.map fun item => (item.1,encodeTags item.2)

namespace MarisaDomainSet

def init (directory : Option TagFiles.TagPath) : Except PyException (MarisaDomainSet T) := do
  let domainToTags ← buildDomainEntries lower directory
  pure ⟨if domainToTags = [] then none else some (marisa.make (encodedEntries domainToTags))⟩

def lookup (s : MarisaDomainSet T) (qname : List Char) : Except PyException (Finset String) :=
  match s.trie with
  | none => .ok ∅
  | some trie => do
    let reversed ← reverseDomain lower qname
    ((marisa.prefixes trie reversed).flatMap (marisa.values trie)).foldlM (fun tags value => do
      let decoded ← decodeTags value
      pure (tags ∪ decoded)) ∅

def saveMmap (s : MarisaDomainSet T) (path : PathText) (files : String → Option F) :
    DomainSetSnapshot × (String → Option F) :=
  match s.trie with
  | none => (⟨none⟩,files)
  | some trie => (⟨some path.text⟩,Function.update files path.text (some (marisa.save trie)))

def fromSnapshot (snapshot : DomainSetSnapshot) (files : String → Option F) :
    Except PyException (MarisaDomainSet T) :=
  match snapshot.mmapPath with
  | none => init marisa lower none
  | some path =>
    if path = "" then init marisa lower none
    else do
      let trie ← marisa.mmap (files path)
      pure ⟨some trie⟩

end MarisaDomainSet

end

/-! ### The tags of a key -/

theorem decodeTags_encodeTags {tags : List String} (hnonempty : ∀ tag ∈ tags, tag ≠ "")
    (hnul : ∀ tag ∈ tags, tagSeparator ∉ tag.toList) :
    decodeTags (encodeTags tags) = .ok tags.toFinset := by
  have hfields : (([tagSeparator].intercalate ((tags.mergeSort fun a b => a ≤ b).map
      String.toList)).splitOn tagSeparator).filter (fun tag => tag ≠ []) =
      (tags.mergeSort fun a b => a ≤ b).map String.toList := by
    by_cases hnil : tags = []
    · simp [hnil]
    · rw [List.splitOn_intercalate]
      · refine List.filter_eq_self.mpr fun field hfield => ?_
        obtain ⟨tag,htag,rfl⟩ := List.mem_map.mp hfield
        have hne := hnonempty tag (List.mem_mergeSort.mp htag)
        simpa using hne
      · intro field hfield
        obtain ⟨tag,htag,rfl⟩ := List.mem_map.mp hfield
        exact hnul tag (List.mem_mergeSort.mp htag)
      · simpa [← List.length_eq_zero_iff] using hnil
  unfold decodeTags encodeTags
  simp only [PyText.fromUTF8_toUTF8,String.toList_ofList,hfields,List.map_map]
  refine congrArg Except.ok (Finset.ext fun tag => ?_)
  simp

/-! ### What a lookup finds -/

/-- The key of a normalised domain. -/
def reversedText (domain : List Char) : List Char :=
  List.intercalate ['.'] (domain.splitOn '.').reverse ++ ['.']

/-- The labels of the one end those of the other. -/
def SuffixOf (domain name : List Char) : Prop := domain.splitOn '.' <:+ name.splitOn '.'

theorem reversedText_eq (domain : List Char) :
    reversedText domain = Fields.terminated '.' (domain.splitOn '.').reverse := by
  refine Fields.intercalate_terminated ?_
  rw [ne_eq,List.reverse_eq_nil_iff]
  exact List.splitOn_ne_nil _ _

/-- A key is a prefix of another just where the one domain is above the other. -/
theorem reversedText_isPrefix_iff {domain name : List Char} :
    reversedText domain <+: reversedText name ↔ SuffixOf domain name := by
  rw [reversedText_eq,reversedText_eq,Fields.terminated_isPrefix_iff]
  · exact List.reverse_prefix
  · intro field hfield
    exact Fields.not_mem_of_mem_splitOn (List.mem_reverse.mp hfield)
  · intro field hfield
    exact Fields.not_mem_of_mem_splitOn (List.mem_reverse.mp hfield)

theorem reverseDomain_eq_ok {lower : List Char → List Char} {value reversed : List Char} :
    reverseDomain lower value = .ok reversed ↔
      ∃ domain, normalizeDomain lower value = .ok domain ∧ reversed = reversedText domain := by
  unfold reverseDomain
  rw [Exec.except_bind_eq_ok]
  refine exists_congr fun domain => and_congr_right fun _ => ?_
  exact ⟨fun h => (Except.ok.inj h).symm,fun h => h ▸ rfl⟩

/-- The entries as they are kept without the trie. -/
def domainEntries (d : Multimap (List Char) String) : List DomainEntry :=
  d.map fun item => ⟨item.1,item.2.toFinset⟩

def abstracted (d : Multimap (List Char) String) : DomainSet :=
  ⟨if d = [] then none else some (domainEntries d)⟩

/-- Which tags the keys of a dictionary have for a key. -/
def TagsAbove (d : Multimap (List Char) String) (reversed : List Char) (tag : String) : Prop :=
  ∃ key, d.Holds key tag ∧ key <+: reversed

variable {T F : Type} {marisa : BytesTrie T F} {lower : List Char → List Char}
  {d : Multimap (List Char) String} {directory : Option TagFiles.TagPath}

theorem mem_domainEntries {reversed : List Char} {tag : String} :
    (∃ entry ∈ (domainEntries d).filter fun entry => entry.reversed.isPrefixOf reversed,
      tag ∈ entry.tags) ↔ TagsAbove d reversed tag := by
  simp only [domainEntries,List.mem_filter,List.mem_map,List.isPrefixOf_iff_prefix,TagsAbove,
    Multimap.Holds]
  constructor
  · intro h
    obtain ⟨_,⟨⟨item,hitem,rfl⟩,hkey⟩,htag⟩ := h
    exact ⟨item.1,⟨item.2,hitem,List.mem_toFinset.mp htag⟩,hkey⟩
  · intro h
    obtain ⟨key,⟨tags,hitem,htag⟩,hkey⟩ := h
    exact ⟨_,⟨⟨(key,tags),hitem,rfl⟩,hkey⟩,List.mem_toFinset.mpr htag⟩

/-- Tags that come back from their encoding. -/
def Encodable (d : Multimap (List Char) String) : Prop :=
  ∀ item ∈ d, decodeTags (encodeTags item.2) = .ok item.2.toFinset

/-- What a trie gives for a key decodes to the tags above the key. -/
theorem mem_prefixValues (hmarisa : marisa.Lawful) {reversed : List Char} {value : ByteArray} :
    value ∈ (marisa.prefixes (marisa.make (encodedEntries d)) reversed).flatMap
        (marisa.values (marisa.make (encodedEntries d))) ↔
      ∃ item ∈ d, item.1 <+: reversed ∧ value = encodeTags item.2 := by
  simp only [List.mem_flatMap,hmarisa.prefixes,hmarisa.values,encodedEntries,List.mem_map,
    Prod.mk.injEq]
  constructor
  · intro h
    obtain ⟨key,⟨hkey,_⟩,item,hitem,rfl,rfl⟩ := h
    exact ⟨item,hitem,hkey,rfl⟩
  · intro h
    obtain ⟨item,hitem,hkey,rfl⟩ := h
    exact ⟨item.1,⟨hkey,_,item,hitem,rfl,rfl⟩,item,hitem,rfl,rfl⟩

/-- The trie gives what the list of the entries gives. -/
theorem MarisaDomainSet.lookup_made (hmarisa : marisa.Lawful) (hd : Encodable d)
    (qname : List Char) :
    MarisaDomainSet.lookup marisa lower ⟨some (marisa.make (encodedEntries d))⟩ qname =
      DomainSet.lookup lower ⟨some (domainEntries d)⟩ qname := by
  unfold MarisaDomainSet.lookup DomainSet.lookup
  cases hreversed : reverseDomain lower qname with
  | error e => rfl
  | ok reversed =>
    have hdecodes : ∀ value ∈ (marisa.prefixes (marisa.make (encodedEntries d)) reversed).flatMap
        (marisa.values (marisa.make (encodedEntries d))),
        ∃ decoded, decodeTags value = .ok decoded := by
      intro value hvalue
      obtain ⟨item,hitem,_,rfl⟩ := (mem_prefixValues hmarisa).mp hvalue
      exact ⟨_,hd item hitem⟩
    obtain ⟨found,hfound,hmem⟩ := Multimap.foldlM_union hdecodes ∅
    refine hfound.trans (congrArg Except.ok (Finset.ext fun tag => ?_))
    rw [hmem,Multimap.mem_foldl_union,mem_domainEntries]
    refine or_congr_right ?_
    constructor
    · intro h
      obtain ⟨value,hvalue,decoded,hdecoded,htag⟩ := h
      obtain ⟨item,hitem,hkey,rfl⟩ := (mem_prefixValues hmarisa).mp hvalue
      rw [hd item hitem] at hdecoded
      cases hdecoded
      exact ⟨item.1,⟨item.2,hitem,List.mem_toFinset.mp htag⟩,hkey⟩
    · intro h
      obtain ⟨key,⟨tags,hitem,htag⟩,hkey⟩ := h
      exact ⟨_,(mem_prefixValues hmarisa).mpr ⟨(key,tags),hitem,hkey,rfl⟩,_,hd _ hitem,
        List.mem_toFinset.mpr htag⟩

theorem DomainSet.lookup_abstracted {qname name : List Char}
    (hname : normalizeDomain lower qname = .ok name) :
    ∃ tags, (abstracted d).lookup lower qname = .ok tags ∧
      ∀ tag, tag ∈ tags ↔ TagsAbove d (reversedText name) tag := by
  have hreversed : reverseDomain lower qname = .ok (reversedText name) :=
    reverseDomain_eq_ok.mpr ⟨name,hname,rfl⟩
  unfold abstracted
  split
  · rename_i hnil
    refine ⟨∅,rfl,fun tag => ?_⟩
    simp [hnil,TagsAbove,Multimap.Holds]
  · refine ⟨_,by rw [DomainSet.lookup,hreversed]; rfl,fun tag => ?_⟩
    rw [Multimap.mem_foldl_union,mem_domainEntries]
    simp

/-! ### What is looked up in -/

section
variable (lower directory)

/-- The domain that an entry of the tag is. -/
def EntryDomain (tag : String) (domain : List Char) : Prop :=
  ∃ entry, TagFiles.HasEntry directory tag entry ∧ normalizeDomain lower entry = .ok domain

/-- The domain that a key of the tag is made of, for which the entry's is normalised again. -/
def KeyDomain (tag : String) (domain : List Char) : Prop :=
  ∃ entered, EntryDomain lower directory tag entered ∧ normalizeDomain lower entered = .ok domain

end

theorem holds_buildDomainEntries (h : buildDomainEntries lower directory = .ok d)
    {key : List Char} {tag : String} :
    d.Holds key tag ↔ ∃ domain, KeyDomain lower directory tag domain ∧
      key = reversedText domain := by
  obtain ⟨loaded,hloaded,h⟩ := Exec.except_bind_eq_ok.mp h
  obtain ⟨inverted,hinverted,h⟩ := Exec.except_bind_eq_ok.mp h
  cases h
  rw [Multimap.holds_mergeSort,Multimap.holds_invert hinverted]
  simp only [TagFiles.holds_loadTagFiles hloaded,reverseDomain_eq_ok,KeyDomain,EntryDomain]
  constructor
  · intro h
    obtain ⟨entered,hentered,domain,hdomain,rfl⟩ := h
    exact ⟨domain,⟨entered,hentered,hdomain⟩,rfl⟩
  · intro h
    obtain ⟨domain,⟨entered,hentered,hdomain⟩,rfl⟩ := h
    exact ⟨entered,hentered,domain,hdomain,rfl⟩

theorem buildDomainEntries_ok_iff {loaded : Multimap String (List Char)}
    (hloaded : TagFiles.loadTagFiles (normalizeDomain lower) directory = .ok loaded) :
    (∃ d, buildDomainEntries lower directory = .ok d) ↔
      ∀ tag entered, EntryDomain lower directory tag entered →
        ∃ domain, normalizeDomain lower entered = .ok domain := by
  have hkeys : (∃ inverted, loaded.invert (reverseDomain lower) = .ok inverted) ↔ _ :=
    (Multimap.invert_adds loaded).ok_iff []
  simp only [TagFiles.holds_loadTagFiles hloaded,reverseDomain_eq_ok] at hkeys
  unfold buildDomainEntries EntryDomain
  simp only [hloaded,Exec.except_bind_eq_ok,Except.ok.injEq,exists_eq_left']
  constructor
  · intro h tag entered hentered
    obtain ⟨d,inverted,hinverted,_⟩ := h
    obtain ⟨_,domain,hdomain,_⟩ := hkeys.mp ⟨inverted,hinverted⟩ tag entered hentered
    exact ⟨domain,hdomain⟩
  · intro h
    obtain ⟨inverted,hinverted⟩ := hkeys.mpr fun tag entered hentered =>
      (h tag entered hentered).elim fun domain hdomain => ⟨_,domain,hdomain,rfl⟩
    exact ⟨_,inverted,hinverted,rfl⟩

/-- A tag is the name of a file that is read, which is not empty. -/
theorem buildDomainEntries_encodable (h : buildDomainEntries lower directory = .ok d)
    (hnul : ∀ tag entry, TagFiles.HasEntry directory tag entry → tagSeparator ∉ tag.toList) :
    Encodable d := by
  have hentry : ∀ item ∈ d, ∀ tag ∈ item.2, ∃ entry, TagFiles.HasEntry directory tag entry := by
    intro item hitem tag htag
    obtain ⟨_,⟨_,⟨entry,hentry,_⟩,_⟩,_⟩ := (holds_buildDomainEntries h).mp ⟨item.2,hitem,htag⟩
    exact ⟨entry,hentry⟩
  intro item hitem
  refine decodeTags_encodeTags (fun tag htag => ?_) fun tag htag => ?_
  · obtain ⟨_,_,_,htags,_⟩ := hentry item hitem tag htag
    exact htags.nonempty
  · obtain ⟨entry,hentry⟩ := hentry item hitem tag htag
    exact hnul tag entry hentry

namespace MarisaDomainSet

variable {s : MarisaDomainSet T}

theorem init_eq_ok : init marisa lower directory = .ok s ↔
    ∃ d, buildDomainEntries lower directory = .ok d ∧
      s = ⟨if d = [] then none else some (marisa.make (encodedEntries d))⟩ := by
  unfold init
  rw [Exec.except_bind_eq_ok]
  exact exists_congr fun d => and_congr_right fun _ =>
    ⟨fun h => (Except.ok.inj h).symm,fun h => h ▸ rfl⟩

theorem init_none : init marisa lower none = .ok ⟨none⟩ := by
  refine init_eq_ok.mpr ⟨[],?_,rfl⟩
  exact congrArg Except.ok (List.mergeSort_nil)

/-- The set that is made of the tag files gives what their domains as a list give. -/
theorem lookup_init (hmarisa : marisa.Lawful) (hd : Encodable d) (qname : List Char) :
    lookup marisa lower ⟨if d = [] then none else some (marisa.make (encodedEntries d))⟩ qname =
      (abstracted d).lookup lower qname := by
  unfold abstracted
  split
  · rfl
  · exact lookup_made hmarisa hd qname

/-- A set that is read back looks up what the stored one does. -/
theorem lookup_restored (hmarisa : marisa.Lawful) (path : PathText) (files : String → Option F) :
    ∃ restored, fromSnapshot marisa lower (saveMmap marisa s path files).1
        (saveMmap marisa s path files).2 = .ok restored ∧
      ∀ qname, restored.lookup marisa lower qname = s.lookup marisa lower qname := by
  obtain ⟨trie⟩ := s
  cases trie with
  | none => exact ⟨⟨none⟩,init_none,fun _ => rfl⟩
  | some trie =>
    obtain ⟨restored,hrestored,hprefixes,hvalues⟩ := hmarisa.mmap trie
    refine ⟨⟨some restored⟩,?_,fun qname => ?_⟩
    · simp only [saveMmap,fromSnapshot,path.nonempty,if_false,Function.update_self,hrestored]
      rfl
    · simp only [lookup,hprefixes,hvalues]

/-- What is looked up is the domains of the keys. -/
theorem lookup_keyDomain (hmarisa : marisa.Lawful) (hinit : init marisa lower directory = .ok s)
    (hnul : ∀ tag entry, TagFiles.HasEntry directory tag entry → tagSeparator ∉ tag.toList)
    {qname name : List Char} (hname : normalizeDomain lower qname = .ok name) :
    ∃ tags, s.lookup marisa lower qname = .ok tags ∧ ∀ tag, tag ∈ tags ↔
      ∃ domain, KeyDomain lower directory tag domain ∧ SuffixOf domain name := by
  obtain ⟨d,hd,rfl⟩ := init_eq_ok.mp hinit
  rw [lookup_init hmarisa (buildDomainEntries_encodable hd hnul)]
  obtain ⟨tags,htags,hmem⟩ := DomainSet.lookup_abstracted (d:=d) hname
  refine ⟨tags,htags,fun tag => (hmem tag).trans ?_⟩
  unfold TagsAbove
  constructor
  · intro h
    obtain ⟨key,hkey,hbelow⟩ := h
    obtain ⟨domain,hdomain,rfl⟩ := (holds_buildDomainEntries hd).mp hkey
    exact ⟨domain,hdomain,reversedText_isPrefix_iff.mp hbelow⟩
  · intro h
    obtain ⟨domain,hdomain,hsuffix⟩ := h
    exact ⟨_,(holds_buildDomainEntries hd).mpr ⟨domain,hdomain,rfl⟩,
      reversedText_isPrefix_iff.mpr hsuffix⟩

end MarisaDomainSet

/-! ### Suffix matching -/

section
variable (marisa) (lower directory)

/-- A lookup gives the tags that have a domain above the name, before and after the set is
stored. -/
structure MatchesSuffixes (s : MarisaDomainSet T) : Prop where
  live : ∀ qname name, normalizeDomain lower qname = .ok name →
    ∃ tags, s.lookup marisa lower qname = .ok tags ∧ ∀ tag, tag ∈ tags ↔
      ∃ domain, EntryDomain lower directory tag domain ∧ SuffixOf domain name
  restored : ∀ path files, ∃ restored,
    MarisaDomainSet.fromSnapshot marisa lower (s.saveMmap marisa path files).1
        (s.saveMmap marisa path files).2 = .ok restored ∧
      ∀ qname, restored.lookup marisa lower qname = s.lookup marisa lower qname

/-- The domains of a tag, normalised again, stay in each other's reach. -/
structure StaysNormal : Prop where
  normalizes : ∀ tag domain, EntryDomain lower directory tag domain →
    ∃ again, normalizeDomain lower domain = .ok again
  found : ∀ tag domain, EntryDomain lower directory tag domain →
    ∃ again, KeyDomain lower directory tag again ∧ SuffixOf again domain
  meant : ∀ tag again, KeyDomain lower directory tag again →
    ∃ domain, EntryDomain lower directory tag domain ∧ SuffixOf domain again

end

/-- Domains that normalising leaves as they are. -/
theorem StaysNormal.of_fixed (h : ∀ tag domain, EntryDomain lower directory tag domain →
    normalizeDomain lower domain = .ok domain) : StaysNormal lower directory where
  normalizes tag domain hdomain := ⟨domain,h tag domain hdomain⟩
  found tag domain hdomain :=
    ⟨domain,⟨domain,hdomain,h tag domain hdomain⟩,List.suffix_refl _⟩
  meant tag again hagain := by
    obtain ⟨domain,hdomain,hnormal⟩ := hagain
    rw [h tag domain hdomain] at hnormal
    cases hnormal
    exact ⟨_,hdomain,List.suffix_refl _⟩

theorem MatchesSuffixes.staysNormal {s : MarisaDomainSet T} (hmarisa : marisa.Lawful)
    (hinit : MarisaDomainSet.init marisa lower directory = .ok s)
    (hnul : ∀ tag entry, TagFiles.HasEntry directory tag entry → tagSeparator ∉ tag.toList)
    {loaded : Multimap String (List Char)}
    (hloaded : TagFiles.loadTagFiles (normalizeDomain lower) directory = .ok loaded)
    (h : MatchesSuffixes marisa lower directory s) : StaysNormal lower directory := by
  -- the tags of a query that is an entry, and of one that is the domain of an entry
  have hiff : ∀ qname name, normalizeDomain lower qname = .ok name → ∀ tag,
      (∃ domain, KeyDomain lower directory tag domain ∧ SuffixOf domain name) ↔
        ∃ domain, EntryDomain lower directory tag domain ∧ SuffixOf domain name := by
    intro qname name hname tag
    obtain ⟨tags,htags,hmem⟩ := h.live qname name hname
    obtain ⟨tags',htags',hmem'⟩ := MarisaDomainSet.lookup_keyDomain hmarisa hinit hnul hname
    obtain rfl : tags = tags' := Except.ok.inj (htags.symm.trans htags')
    exact (hmem' tag).symm.trans (hmem tag)
  refine ⟨?_,?_,?_⟩
  · obtain ⟨d,hd,_⟩ := MarisaDomainSet.init_eq_ok.mp hinit
    exact (buildDomainEntries_ok_iff hloaded).mp ⟨d,hd⟩
  · intro tag domain hdomain
    obtain ⟨entry,hentry,hnormal⟩ := hdomain
    exact (hiff entry domain hnormal tag).mpr
      ⟨domain,⟨entry,hentry,hnormal⟩,List.suffix_refl _⟩
  · intro tag again hagain
    obtain ⟨domain,hdomain,hnormal⟩ := hagain
    exact (hiff domain again hnormal tag).mp
      ⟨again,⟨domain,hdomain,hnormal⟩,List.suffix_refl _⟩

theorem StaysNormal.matchesSuffixes (hmarisa : marisa.Lawful)
    (hnul : ∀ tag entry, TagFiles.HasEntry directory tag entry → tagSeparator ∉ tag.toList)
    {loaded : Multimap String (List Char)}
    (hloaded : TagFiles.loadTagFiles (normalizeDomain lower) directory = .ok loaded)
    (h : StaysNormal lower directory) :
    ∃ s, MarisaDomainSet.init marisa lower directory = .ok s ∧
      MatchesSuffixes marisa lower directory s := by
  obtain ⟨d,hd⟩ := (buildDomainEntries_ok_iff hloaded).mpr h.normalizes
  have hinit : MarisaDomainSet.init marisa lower directory = .ok _ :=
    MarisaDomainSet.init_eq_ok.mpr ⟨d,hd,rfl⟩
  refine ⟨_,hinit,fun qname name hname => ?_,fun path files =>
    MarisaDomainSet.lookup_restored hmarisa path files⟩
  obtain ⟨tags,htags,hmem⟩ := MarisaDomainSet.lookup_keyDomain hmarisa hinit hnul hname
  refine ⟨tags,htags,fun tag => (hmem tag).trans ?_⟩
  constructor
  · intro hkey
    obtain ⟨again,hagain,hname⟩ := hkey
    obtain ⟨domain,hdomain,hsuffix⟩ := h.meant tag again hagain
    exact ⟨domain,hdomain,hsuffix.trans hname⟩
  · intro hentry
    obtain ⟨domain,hdomain,hname⟩ := hentry
    obtain ⟨again,hagain,hsuffix⟩ := h.found tag domain hdomain
    exact ⟨again,hagain,hsuffix.trans hname⟩

/-- The set matches suffixes just when the second normal forms of the entries lose and add
nothing, since the entries are normalised twice and a query once. -/
theorem domainSet_matchesSuffixes_iff (hmarisa : marisa.Lawful)
    (hnul : ∀ tag entry, TagFiles.HasEntry directory tag entry → tagSeparator ∉ tag.toList)
    {loaded : Multimap String (List Char)}
    (hloaded : TagFiles.loadTagFiles (normalizeDomain lower) directory = .ok loaded) :
    (∃ s, MarisaDomainSet.init marisa lower directory = .ok s ∧
      MatchesSuffixes marisa lower directory s) ↔ StaysNormal lower directory := by
  constructor
  · intro h
    obtain ⟨s,hinit,hmatches⟩ := h
    exact hmatches.staysNormal hmarisa hinit hnul hloaded
  · exact fun h => h.matchesSuffixes hmarisa hnul hloaded

theorem domainSet_matchesSuffixes_plusDot :
    ∃ s, MarisaDomainSet.init .ofEntries (List.map Char.toLower)
      (TagFiles.proxyList "+.Example.org") =
        .ok s ∧ MatchesSuffixes .ofEntries (List.map Char.toLower)
          (TagFiles.proxyList "+.Example.org") s := by
  have hlines : TagFiles.splitLines "+.Example.org".toList = ["+.Example.org".toList] := by decide
  have hnormal : normalizeDomain (List.map Char.toLower) "+.Example.org".toList =
      .ok "example.org".toList := by rfl
  have hentry : ∀ tag entry, TagFiles.HasEntry (TagFiles.proxyList "+.Example.org") tag entry →
      tag = "proxy" ∧ entry = "+.Example.org".toList := by
    intro tag entry h
    exact TagFiles.hasEntry_proxyList hlines h
  obtain ⟨loaded,hloaded⟩ := TagFiles.loads_proxyList hlines ⟨_,hnormal⟩
  refine (domainSet_matchesSuffixes_iff BytesTrie.ofEntries_lawful ?_ hloaded).mpr
    (StaysNormal.of_fixed ?_)
  · intro tag entry h
    obtain ⟨rfl,_⟩ := hentry tag entry h
    decide
  · intro tag domain h
    obtain ⟨entry,h,hdomain⟩ := h
    obtain ⟨_,rfl⟩ := hentry tag entry h
    rw [hnormal] at hdomain
    cases hdomain
    rfl

/-- A blank before the last dot is left by the first normal form and not by the second: the
entry does not match its own text. -/
theorem domainSet_misses_blank :
    ¬ ∃ s, MarisaDomainSet.init .ofEntries (List.map Char.toLower)
      (TagFiles.proxyList "example.org .") =
        .ok s ∧ MatchesSuffixes .ofEntries (List.map Char.toLower)
          (TagFiles.proxyList "example.org .") s := by
  intro h
  obtain ⟨s,hinit,hmatches⟩ := h
  have hlines : TagFiles.splitLines "example.org .".toList = ["example.org .".toList] := by decide
  have hentry :
      TagFiles.HasEntry (TagFiles.proxyList "example.org .") "proxy" "example.org .".toList :=
    TagFiles.proxyList_hasEntry hlines (by decide)
  have honly : ∀ tag entry, TagFiles.HasEntry (TagFiles.proxyList "example.org .") tag entry →
      tag = "proxy" ∧ entry = "example.org .".toList := by
    intro tag entry h
    exact TagFiles.hasEntry_proxyList hlines h
  have hfirst : normalizeDomain (List.map Char.toLower) "example.org .".toList =
      .ok "example.org ".toList := by rfl
  have hsecond : normalizeDomain (List.map Char.toLower) "example.org ".toList =
      .ok "example.org".toList := by rfl
  have hnul : ∀ tag entry, TagFiles.HasEntry (TagFiles.proxyList "example.org .") tag entry →
      tagSeparator ∉ tag.toList := by
    intro tag entry h
    obtain ⟨rfl,_⟩ := honly tag entry h
    decide
  obtain ⟨tags,htags,hmem⟩ :=
    MarisaDomainSet.lookup_keyDomain BytesTrie.ofEntries_lawful hinit hnul hfirst
  obtain ⟨found,hfound,hclaimed⟩ := hmatches.live _ _ hfirst
  obtain rfl : tags = found := Except.ok.inj (htags.symm.trans hfound)
  -- the tag is to be found by the entry's own text, and its only key is not above it
  obtain ⟨domain,⟨entered,⟨entry,h,hentered⟩,hdomain⟩,hsuffix⟩ := (hmem "proxy").mp
    ((hclaimed "proxy").mpr ⟨_,⟨_,hentry,hfirst⟩,List.suffix_refl _⟩)
  obtain ⟨_,rfl⟩ := honly "proxy" entry h
  rw [hfirst] at hentered
  cases hentered
  rw [hsecond] at hdomain
  cases hdomain
  revert hsuffix
  unfold SuffixOf
  decide

end SmartDns
