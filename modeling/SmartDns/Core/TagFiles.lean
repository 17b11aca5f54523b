import SmartDns.Core.PyText
import SmartDns.Dns.Error
import SmartDns.Lib.Exec
import SmartDns.Lib.Multimap
set_option autoImplicit false

/-!
`load_tag_files`: a file of a directory has entries of one tag, one a line. Files whose names
differ in the suffix only have the same tag.
-/

namespace SmartDns

namespace TagFiles

/-- What `path.iterdir()` gives, with what `read_text` of it would. -/
structure DirEntry where
  name : String
  isFile : Bool
  text : Except PyException (List Char)

/-- What stands at the path of the tag files. -/
inductive TagPath where
  | missing (path : String)
  | notDirectory (path : String)
  | directory (entries : List DirEntry)

/-- The place before the last suffix, where something other than dots is left. -/
def stem (name : List Char) : List Char :=
  match name.reverse.dropWhile fun c => c ≠ '.' with
  | [] => name
  | _ :: before =>
    if PyText.lstripBy (fun c => c = '.') before.reverse ≠ [] then before.reverse else name

def isLineBreak (c : Char) : Bool := c.toNat ∈ [10,11,12,13,0x1c,0x1d,0x1e,0x85,0x2028,0x2029]

/-- `str.splitlines`, with the line that is being read. -/
def splitLinesFrom (line : List Char) : List Char → List (List Char)
  | [] => if line = [] then [] else [line]
  | '\r' :: '\n' :: rest => line :: splitLinesFrom [] rest
  | c :: rest =>
    if isLineBreak c then line :: splitLinesFrom [] rest else splitLinesFrom (line ++ [c]) rest

def splitLines (text : List Char) : List (List Char) := splitLinesFrom [] text

section
variable {α : Type} [DecidableEq α] (normalizer : List Char → Except PyException α)

def addLine (tag : String) (d : Multimap String α) (line : List Char) :
    Except PyException (Multimap String α) :=
  let stripped := PyText.strip line
  if stripped = [] ∨ stripped.head? = some '#' then .ok d
  else do
    let value ← normalizer stripped
    pure (d.add tag value)

def addFile (d : Multimap String α) (file : DirEntry) : Except PyException (Multimap String α) :=
  if file.isFile = false ∨ file.name.toList.head? = some '.' then .ok d
  else
    let tag := String.ofList (stem file.name.toList)
    if tag = "" then .ok d
    else do
      let text ← file.text
      (splitLines text).foldlM (addLine normalizer tag) d

def loadTagFiles : Option TagPath → Except PyException (Multimap String α)
  | none => .ok []
  | some (.missing path) => .error (.fileNotFoundError ("tag 目录不存在: " ++ path))
  | some (.notDirectory path) => .error ⟨.other,"NotADirectoryError","tag 路径不是目录: " ++ path⟩
  | some (.directory entries) =>
    (entries.mergeSort fun a b => a.name ≤ b.name).foldlM (addFile normalizer) []

end

/-! ### The entries of a directory -/

def filesOf : Option TagPath → List DirEntry
  | some (.directory entries) => entries
  | _ => []

/-- A line that is neither blank nor a comment. -/
def Counts (stripped : List Char) : Prop := stripped ≠ [] ∧ stripped.head? ≠ some '#'

instance (stripped : List Char) : Decidable (Counts stripped) :=
  inferInstanceAs (Decidable (_ ∧ _))

structure DirEntry.Tags (file : DirEntry) (tag : String) : Prop where
  isFile : file.isFile = true
  visible : file.name.toList.head? ≠ some '.'
  stem : String.ofList (stem file.name.toList) = tag
  nonempty : tag ≠ ""

structure DirEntry.Lists (file : DirEntry) (entry : List Char) : Prop where
  line : ∃ text line, file.text = .ok text ∧ line ∈ splitLines text ∧ PyText.strip line = entry
  counts : Counts entry

def HasEntry (path : Option TagPath) (tag : String) (entry : List Char) : Prop :=
  ∃ file ∈ filesOf path, file.Tags tag ∧ file.Lists entry

/-- What stands behind a file that is read, and every entry of it, is well. -/
def DirEntry.Loads {α : Type} (normalizer : List Char → Except PyException α)
    (file : DirEntry) : Prop :=
  ∀ tag, file.Tags tag → (∃ text, file.text = .ok text) ∧
    ∀ entry, file.Lists entry → ∃ value, normalizer entry = .ok value

variable {α : Type} [DecidableEq α] {normalizer : List Char → Except PyException α}
  {path : Option TagPath} {loaded : Multimap String α}

theorem addLine_adds (tag : String) (line : List Char) :
    Multimap.Adds (fun d => addLine normalizer tag d line)
      (fun key value => Counts (PyText.strip line) ∧ normalizer (PyText.strip line) = .ok value ∧
        key = tag)
      (Counts (PyText.strip line) → ∃ value, normalizer (PyText.strip line) = .ok value) := by
  by_cases hskip : PyText.strip line = [] ∨ (PyText.strip line).head? = some '#'
  · have hnot : ¬ Counts (PyText.strip line) := not_and_or.mpr (hskip.imp not_not.mpr not_not.mpr)
    simp only [addLine,hskip,if_true]
    exact Multimap.Adds.skip.congr (by simp [hnot]) (by simp [hnot])
  · have hcounts : Counts (PyText.strip line) := not_or.mp hskip
    simp only [addLine,hskip,if_false]
    refine (Multimap.Adds.bind (x:=normalizer (PyText.strip line))
      (fun value => Multimap.Adds.single tag value)).congr ?_ ?_
    · simp only [hcounts,true_and]
      intro key value
      constructor
      · intro h
        obtain ⟨_,hvalue,rfl,rfl⟩ := h
        exact ⟨hvalue,rfl⟩
      · intro h
        exact ⟨value,h.1,h.2,rfl⟩
    · simp [hcounts]

omit [DecidableEq α] in
/-- A file of no tag is left alone. -/
theorem skip_adds {file : DirEntry} (h : ∀ tag, ¬ file.Tags tag) :
    Multimap.Adds (fun d : Multimap String α => (.ok d : Except PyException _))
      (fun key value => file.Tags key ∧ ∃ entry, file.Lists entry ∧ normalizer entry = .ok value)
      (file.Loads normalizer) :=
  Multimap.Adds.skip.congr (by simp [h]) (by simp [DirEntry.Loads,h])

theorem addFile_adds (file : DirEntry) :
    Multimap.Adds (fun d => addFile normalizer d file)
      (fun key value => file.Tags key ∧ ∃ entry, file.Lists entry ∧ normalizer entry = .ok value)
      (file.Loads normalizer) := by
  unfold addFile
  split
  · rename_i hskip
    refine skip_adds fun tag h => ?_
    cases hskip with
    | inl hdir =>
      have hfile := h.isFile
      rw [hdir] at hfile
      contradiction
    | inr hhidden => exact h.visible hhidden
  · rename_i hread
    simp only [not_or,Bool.not_eq_false] at hread
    dsimp only
    split
    · rename_i hempty
      exact skip_adds fun tag h => h.nonempty (h.stem.symm.trans hempty)
    · rename_i htag
      have htags : ∀ tag, file.Tags tag ↔ tag = String.ofList (stem file.name.toList) := by
        intro tag
        constructor
        · exact fun h => h.stem.symm
        · intro h
          exact ⟨hread.1,hread.2,h.symm,h ▸ htag⟩
      refine (Multimap.Adds.bind fun text => Multimap.Adds.foldlM (addLine_adds _)
        (splitLines text)).congr ?_ ?_
      · intro key value
        rw [htags]
        constructor
        · intro h
          obtain ⟨text,htext,line,hline,hcounts,hvalue,hkey⟩ := h
          exact ⟨hkey,_,⟨⟨text,line,htext,hline,rfl⟩,hcounts⟩,hvalue⟩
        · intro h
          obtain ⟨hkey,_,⟨⟨text,line,htext,hline,rfl⟩,hcounts⟩,hvalue⟩ := h
          exact ⟨text,htext,line,hline,hcounts,hvalue,hkey⟩
      · simp only [DirEntry.Loads,htags,forall_eq]
        constructor
        · intro h
          obtain ⟨text,htext,hlines⟩ := h
          refine ⟨⟨text,htext⟩,fun entry hentry => ?_⟩
          obtain ⟨⟨text',line,htext',hline,rfl⟩,hcounts⟩ := hentry
          obtain rfl : text = text' := Except.ok.inj (htext.symm.trans htext')
          exact hlines line hline hcounts
        · intro h
          obtain ⟨⟨text,htext⟩,hentries⟩ := h
          exact ⟨text,htext,fun line hline hcounts =>
            hentries _ ⟨⟨text,line,htext,hline,rfl⟩,hcounts⟩⟩

/-- The directory as a loop over its files. -/
theorem loadTagFiles_directory (entries : List DirEntry) :
    Multimap.Adds (fun d => (entries.mergeSort fun a b => a.name ≤ b.name).foldlM
      (addFile normalizer) d)
    (fun tag value => ∃ entry, HasEntry (some (.directory entries)) tag entry ∧
      normalizer entry = .ok value) (∀ file ∈ entries, file.Loads normalizer) := by
  refine (Multimap.Adds.foldlM addFile_adds _).congr ?_ ?_
  · intro tag value
    simp only [HasEntry,filesOf,List.mem_mergeSort]
    constructor
    · intro h
      obtain ⟨file,hfile,htag,entry,hentry,hvalue⟩ := h
      exact ⟨entry,⟨file,hfile,htag,hentry⟩,hvalue⟩
    · intro h
      obtain ⟨entry,⟨file,hfile,htag,hentry⟩,hvalue⟩ := h
      exact ⟨file,hfile,htag,entry,hentry,hvalue⟩
  · simp only [List.mem_mergeSort]

/-- What is loaded is what the entries are, once each. -/
theorem holds_loadTagFiles (h : loadTagFiles normalizer path = .ok loaded) {tag : String}
    {value : α} :
    loaded.Holds tag value ↔ ∃ entry, HasEntry path tag entry ∧ normalizer entry = .ok value := by
  unfold loadTagFiles at h
  split at h
  · cases h
    simp [Multimap.Holds,HasEntry,filesOf]
  · contradiction
  · contradiction
  · rw [(loadTagFiles_directory _).holds h]
    simp [Multimap.Holds]

/-- A directory loads where each file that is read can be, and each entry has a normal form. -/
theorem loadTagFiles_ok_iff {entries : List DirEntry} :
    (∃ loaded, loadTagFiles normalizer (some (.directory entries)) = .ok loaded) ↔
      ∀ file ∈ entries, file.Loads normalizer :=
  (loadTagFiles_directory entries).ok_iff []

/-- An entry has no blanks around it. -/
theorem HasEntry.stripped {tag : String} {entry : List Char} (h : HasEntry path tag entry) :
    PyText.strip entry = entry := by
  obtain ⟨_,_,_,⟨_,line,_,_,rfl⟩,_⟩ := h
  exact PyText.strip_trimmed (PyText.trimmed_strip line)

/-- A directory with one file. -/
def proxyList (text : String) : Option TagPath :=
  some (.directory [⟨"proxy.list",true,.ok text.toList⟩])

theorem hasEntry_proxyList {text : String} {line : List Char}
    (hlines : splitLines text.toList = [line]) {tag : String} {entry : List Char}
    (h : HasEntry (proxyList text) tag entry) :
    tag = "proxy" ∧ entry = PyText.strip line := by
  obtain ⟨file,hfile,htags,⟨_,line',htext,hline,hentry⟩,_⟩ := h
  obtain rfl := List.mem_singleton.mp hfile
  obtain rfl := Except.ok.inj htext
  rw [hlines,List.mem_singleton] at hline
  have hstem : String.ofList (stem "proxy.list".toList) = "proxy" := by decide
  exact ⟨htags.stem.symm.trans hstem,by rw [← hentry,hline]⟩

theorem proxyList_hasEntry {text : String} {line : List Char}
    (hlines : splitLines text.toList = [line])
    (hcounts : Counts (PyText.strip line)) :
    HasEntry (proxyList text) "proxy" (PyText.strip line) := by
  have hvisible : "proxy.list".toList.head? ≠ some '.' := by decide
  have hstem : String.ofList (stem "proxy.list".toList) = "proxy" := by decide
  refine ⟨_,List.mem_singleton.mpr rfl,⟨rfl,hvisible,hstem,by decide⟩,?_,hcounts⟩
  exact ⟨text.toList,line,rfl,by rw [hlines]; exact List.mem_singleton.mpr rfl,rfl⟩

theorem loads_proxyList {text : String} {line : List Char}
    (hlines : splitLines text.toList = [line])
    (hvalue : ∃ value, normalizer (PyText.strip line) = .ok value) :
    ∃ loaded, loadTagFiles normalizer (proxyList text) = .ok loaded := by
  refine loadTagFiles_ok_iff.mpr fun file hfile tag htags => ⟨?_,fun entry hlists => ?_⟩
  · obtain rfl := List.mem_singleton.mp hfile
    exact ⟨_,rfl⟩
  · obtain ⟨_,rfl⟩ := hasEntry_proxyList hlines ⟨file,hfile,htags,hlists⟩
    exact hvalue

end TagFiles

end SmartDns
