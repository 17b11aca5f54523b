import SmartDns.Core.PyText
import SmartDns.Rules.Engine
set_option autoImplicit false

/-!
Rules as the configuration texts them: `RuleMatchConfig` brings tags and types to a normal
form, and the engine compares the text of a request's type with the configured ones.
-/

namespace SmartDns.Rules

/-- `dns.rdatatype` and `str.upper`. -/
structure Rdatatypes where
  toText : RdataType → String
  fromText : String → Except PyException RdataType
  upper : String → String

/-- A type as the engine compares it. -/
abbrev Rdatatypes.text (d : Rdatatypes) (rdtype : RdataType) : String :=
  d.upper (d.toText rdtype)

/-- The texts of types are read back, in whatever case. -/
structure Rdatatypes.Lawful (d : Rdatatypes) : Prop where
  fromText_toText : ∀ rdtype, d.fromText (d.toText rdtype) = .ok rdtype
  fromText_upper : ∀ text, d.fromText (d.upper text) = d.fromText text

/-! ### The configuration -/

/-- A rule's `match` as it stands in the file; none is null. -/
structure RuleMatchInput where
  matchTags : Option (List String) := some []
  excludeTags : Option (List String) := some []
  qtypes : Option (List String) := some []

structure RuleInput where
  name : String
  enabled : Bool := true
  matching : RuleMatchInput
  action : RuleActionConfig

def strip (text : String) : String := String.ofList (PyText.strip text.toList)

/-- The loop of `normalize_tags`, with what it has seen. -/
def normalizeTagsFrom (seen : List String) : List String → List String
  | [] => []
  | item :: items =>
    let tag := strip item
    if tag = "" ∨ tag ∈ seen then normalizeTagsFrom seen items
    else tag :: normalizeTagsFrom (tag :: seen) items

def normalizeTags : Option (List String) → List String
  | none => []
  | some items => normalizeTagsFrom [] items

/-- The loop of `normalize_qtypes`, with what it has seen. -/
def normalizeQtypesFrom (d : Rdatatypes) (seen : List String) :
    List String → Except PyException (List String)
  | [] => .ok []
  | item :: items =>
    let raw := strip item
    if raw = "" then normalizeQtypesFrom d seen items
    else do
      let rdtype ← d.fromText raw
      let qtype := d.upper (d.toText rdtype)
      if qtype ∈ seen then normalizeQtypesFrom d seen items
      else do
        let rest ← normalizeQtypesFrom d (qtype :: seen) items
        .ok (qtype :: rest)

def normalizeQtypes (d : Rdatatypes) : Option (List String) → Except PyException (List String)
  | none => .ok []
  | some items => normalizeQtypesFrom d [] items

def RuleMatchConfig.validate (d : Rdatatypes) (input : RuleMatchInput) :
    Except PyException (RuleMatchConfig String) := do
  let qtypes ← normalizeQtypes d input.qtypes
  .ok ⟨normalizeTags input.matchTags,normalizeTags input.excludeTags,qtypes⟩

def RuleActionConfig.validateActionTarget (action : RuleActionConfig) :
    Except PyException RuleActionConfig :=
  if action.upstreamGroup = none ∧ action.dispatcher = none then
    .error (PyException.valueError "rule action 至少需要 upstream_group 或 dispatcher")
  else .ok action

def RuleConfig.validate (d : Rdatatypes) (input : RuleInput) :
    Except PyException (RuleConfig String) := do
  let matching ← RuleMatchConfig.validate d input.matching
  let action ← RuleActionConfig.validateActionTarget input.action
  .ok ⟨input.name,input.enabled,matching,action⟩

/-! ### What normalising gives -/

theorem normalizeTagsFrom_normal (seen items : List String) :
    (normalizeTagsFrom seen items).Nodup ∧
      ∀ tag ∈ normalizeTagsFrom seen items, tag ≠ "" ∧ tag ∉ seen := by
  induction items generalizing seen with
  | nil => simp [normalizeTagsFrom]
  | cons item items ih =>
    unfold normalizeTagsFrom
    simp only []
    split
    · exact ih seen
    · rename_i hnew
      rw [not_or] at hnew
      obtain ⟨hnodup,hrest⟩ := ih (strip item :: seen)
      refine ⟨List.nodup_cons.mpr ⟨fun hmem => ?_,hnodup⟩,fun tag htag => ?_⟩
      · exact (hrest _ hmem).2 List.mem_cons_self
      · cases List.mem_cons.mp htag with
        | inl heq => exact heq ▸ hnew
        | inr hmem =>
          exact ⟨(hrest tag hmem).1,fun h => (hrest tag hmem).2 (List.mem_cons_of_mem _ h)⟩

section
variable {d : Rdatatypes}

/-- A configured type is the text of a type as the engine writes it. -/
theorem normalizeQtypesFrom_normal {seen items qtypes : List String}
    (h : normalizeQtypesFrom d seen items = .ok qtypes) :
    qtypes.Nodup ∧ ∀ qtype ∈ qtypes, qtype ∉ seen ∧
      ∃ rdtype, qtype = d.upper (d.toText rdtype) := by
  induction items generalizing seen qtypes with
  | nil =>
    cases h
    simp
  | cons item items ih =>
    unfold normalizeQtypesFrom at h
    simp only [] at h
    split at h
    · exact ih h
    · cases hread : d.fromText (strip item) with
      | error e =>
        rw [hread] at h
        cases h
      | ok rdtype =>
        rw [hread] at h
        simp only [bind,Except.bind] at h
        split at h
        · exact ih h
        · rename_i hnew
          cases hrest : normalizeQtypesFrom d (d.upper (d.toText rdtype) :: seen) items with
          | error e =>
            rw [hrest] at h
            cases h
          | ok rest =>
            rw [hrest] at h
            cases h
            obtain ⟨hnodup,hold⟩ := ih hrest
            refine ⟨List.nodup_cons.mpr ⟨fun hmem => ?_,hnodup⟩,fun qtype hmem => ?_⟩
            · exact (hold _ hmem).1 List.mem_cons_self
            · cases List.mem_cons.mp hmem with
              | inl heq => exact ⟨heq ▸ hnew,rdtype,heq⟩
              | inr hmem =>
                exact ⟨fun h => (hold qtype hmem).1 (List.mem_cons_of_mem _ h),(hold qtype hmem).2⟩

/-- Every type of the rule is written as the engine writes a request's. -/
def Normalised (d : Rdatatypes) (rule : RuleConfig String) : Prop :=
  ∀ qtype ∈ rule.matching.qtypes, ∃ rdtype, qtype = d.upper (d.toText rdtype)

theorem normalised_of_validate {input : RuleInput} {rule : RuleConfig String}
    (h : RuleConfig.validate d input = .ok rule) : Normalised d rule := by
  unfold RuleConfig.validate RuleMatchConfig.validate at h
  cases hqtypes : normalizeQtypes d input.matching.qtypes with
  | error e =>
    rw [hqtypes] at h
    cases h
  | ok qtypes =>
    rw [hqtypes] at h
    have hrule : rule.matching.qtypes = qtypes := by
      simp only [bind,Except.bind] at h
      split at h
      · cases h
      · cases h
        rfl
    intro qtype hmem
    rw [hrule] at hmem
    cases hinput : input.matching.qtypes with
    | none =>
      rw [hinput] at hqtypes
      cases hqtypes
      cases hmem
    | some items =>
      rw [hinput] at hqtypes
      exact ((normalizeQtypesFrom_normal hqtypes).2 qtype hmem).2

theorem normalised_of_validated {inputs : List RuleInput} {rules : List (RuleConfig String)}
    (h : List.Forall₂ (fun input rule => RuleConfig.validate d input = .ok rule) inputs rules) :
    ∀ rule ∈ rules, Normalised d rule := by
  induction h with
  | nil => simp
  | cons hvalid _ ih => exact List.forall_mem_cons.mpr ⟨normalised_of_validate hvalid,ih⟩

/-! ### The rule that is selected -/

/-- The filters of a rule, with types compared as numbers. -/
structure Qualifies (d : Rdatatypes) (tags : Finset String) (qtype : RdataType)
    (rule : RuleConfig String) : Prop where
  enabled : rule.enabled = true
  excludeTags : ∀ tag ∈ rule.matching.excludeTags, tag ∉ tags
  matchTags : rule.matching.matchTags = [] ∨ ∃ tag ∈ rule.matching.matchTags, tag ∈ tags
  qtypes : rule.matching.qtypes = [] ∨ ∃ text ∈ rule.matching.qtypes, d.fromText text = .ok qtype

def FirstQualifying (d : Rdatatypes) (tags : Finset String) (qtype : RdataType)
    (rules : List (RuleConfig String)) (rule : RuleConfig String) : Prop :=
  Qualifies d tags qtype rule ∧ ∃ before after, rules = before ++ rule :: after ∧
    ∀ earlier ∈ before, ¬ Qualifies d tags qtype earlier

/-- The action of the first rule that qualifies, or the default group. -/
def Selects (d : Rdatatypes) (engine : RuleEngine String) (tags : Finset String) (qtype : RdataType)
    (selection : RuleSelection) : Prop :=
  (∃ rule, FirstQualifying d tags qtype engine.rules rule ∧ selection =
    { upstreamGroup := rule.action.upstreamGroup.getD engine.defaultUpstreamGroup
      dispatcher := rule.action.dispatcher, ruleName := some rule.name }) ∨
  (∀ rule ∈ engine.rules, ¬ Qualifies d tags qtype rule) ∧
    selection = { upstreamGroup := engine.defaultUpstreamGroup }

variable {rule : RuleConfig String} {tags : Finset String} {qtype : RdataType}

/-- A configured text is a request's exactly when it is read as its type. -/
theorem mem_qtypes_iff (hd : d.Lawful) (hrule : Normalised d rule) :
    d.upper (d.toText qtype) ∈ rule.matching.qtypes ↔
      ∃ text ∈ rule.matching.qtypes, d.fromText text = .ok qtype := by
  constructor
  · intro hmem
    refine ⟨_,hmem,?_⟩
    rw [hd.fromText_upper,hd.fromText_toText]
  · intro ⟨text,hmem,hread⟩
    obtain ⟨rdtype,htext⟩ := hrule text hmem
    rw [htext,hd.fromText_upper,hd.fromText_toText] at hread
    cases hread
    exact htext ▸ hmem

theorem ruleMatches_iff {text : String} : RuleEngine.ruleMatches rule tags text = true ↔
    (∀ tag ∈ rule.matching.excludeTags, tag ∉ tags) ∧
      (rule.matching.matchTags = [] ∨ ∃ tag ∈ rule.matching.matchTags, tag ∈ tags) ∧
      (rule.matching.qtypes = [] ∨ text ∈ rule.matching.qtypes) := by
  have hexclude : (!rule.matching.excludeTags.isEmpty &&
      rule.matching.excludeTags.any fun tag => tag ∈ tags) = false ↔
        ∀ tag ∈ rule.matching.excludeTags, tag ∉ tags := by
    cases rule.matching.excludeTags <;> simp
  have hmatch : (!rule.matching.matchTags.isEmpty &&
      !rule.matching.matchTags.any fun tag => tag ∈ tags) = false ↔
        rule.matching.matchTags = [] ∨ ∃ tag ∈ rule.matching.matchTags, tag ∈ tags := by
    cases rule.matching.matchTags with
    | nil => simp
    | cons tag rest => by_cases htag : tag ∈ tags <;> simp [htag]
  have hqtypes : (!rule.matching.qtypes.isEmpty && !rule.matching.qtypes.contains text) = false ↔
      rule.matching.qtypes = [] ∨ text ∈ rule.matching.qtypes := by
    cases rule.matching.qtypes <;> simp [or_iff_not_imp_left]
  rw [← hexclude,← hmatch,← hqtypes]
  unfold RuleEngine.ruleMatches
  split
  · simp_all
  · split
    · simp_all
    · split <;> simp_all

theorem qualifies_iff (hd : d.Lawful) (hrule : Normalised d rule) (tags : Finset String)
    (qtype : RdataType) :
    rule.enabled = true ∧ RuleEngine.ruleMatches rule tags (d.text qtype) = true ↔
      Qualifies d tags qtype rule := by
  rw [ruleMatches_iff,mem_qtypes_iff hd hrule]
  constructor
  · intro ⟨henabled,hexclude,hmatch,hqtypes⟩
    exact ⟨henabled,hexclude,hmatch,hqtypes⟩
  · intro h
    exact ⟨h.enabled,h.excludeTags,h.matchTags,h.qtypes⟩

/-- The loop comes to the first rule that qualifies, if there is one. -/
theorem selectFrom_cases (engine : RuleEngine String) {rules : List (RuleConfig String)}
    (hd : d.Lawful) (hrules : ∀ rule ∈ rules, Normalised d rule) (tags : Finset String)
    (qtype : RdataType) :
    (∃ rule, FirstQualifying d tags qtype rules rule ∧
      engine.selectFrom tags (d.upper (d.toText qtype)) rules =
        { upstreamGroup := engine.groupOf rule, dispatcher := rule.action.dispatcher
          ruleName := some rule.name }) ∨
    (∀ rule ∈ rules, ¬ Qualifies d tags qtype rule) ∧
      engine.selectFrom tags (d.upper (d.toText qtype)) rules =
        { upstreamGroup := engine.defaultUpstreamGroup } := by
  induction rules with
  | nil => exact .inr ⟨fun rule hmem => (List.not_mem_nil hmem).elim,rfl⟩
  | cons rule rules ih =>
    have hiff := qualifies_iff hd (hrules rule List.mem_cons_self) tags qtype
    by_cases hqualifies : Qualifies d tags qtype rule
    · obtain ⟨henabled,hmatches⟩ := hiff.mpr hqualifies
      refine .inl ⟨rule,⟨hqualifies,[],rules,rfl,fun _ h => (List.not_mem_nil h).elim⟩,?_⟩
      simp [RuleEngine.selectFrom,henabled,hmatches]
    · have hskip : engine.selectFrom tags (d.upper (d.toText qtype)) (rule :: rules) =
          engine.selectFrom tags (d.upper (d.toText qtype)) rules := by
        have hnot := mt hiff.mp hqualifies
        rw [RuleEngine.selectFrom]
        cases henabled : rule.enabled with
        | false => rfl
        | true =>
          have hmatches := Bool.eq_false_iff.mpr fun h => hnot ⟨henabled,h⟩
          simp [hmatches]
      rw [hskip]
      obtain ⟨found,⟨hfound,before,after,rfl,hbefore⟩,hselect⟩ | ⟨hnone,hselect⟩ :=
        ih fun r hr => hrules r (List.mem_cons_of_mem _ hr)
      · exact .inl ⟨found,⟨hfound,rule :: before,after,rfl,List.forall_mem_cons.mpr
          ⟨hqualifies,hbefore⟩⟩,hselect⟩
      · exact .inr ⟨List.forall_mem_cons.mpr ⟨hqualifies,hnone⟩,hselect⟩

/-- There is one first rule that qualifies. -/
theorem FirstQualifying.unique {rules : List (RuleConfig String)} {a b : RuleConfig String}
    (ha : FirstQualifying d tags qtype rules a) (hb : FirstQualifying d tags qtype rules b) :
    a = b := by
  induction rules with
  | nil =>
    obtain ⟨_,before,after,h,_⟩ := ha
    simp at h
  | cons rule rules ih =>
    obtain ⟨hqa,beforeA,afterA,hsplitA,hbeforeA⟩ := ha
    obtain ⟨hqb,beforeB,afterB,hsplitB,hbeforeB⟩ := hb
    cases beforeA with
    | nil =>
      cases hsplitA
      cases beforeB with
      | nil =>
        cases hsplitB
        rfl
      | cons c beforeB =>
        cases hsplitB
        exact absurd hqa (hbeforeB _ List.mem_cons_self)
    | cons c beforeA =>
      cases hsplitA
      cases beforeB with
      | nil =>
        cases hsplitB
        exact absurd hqb (hbeforeA _ List.mem_cons_self)
      | cons c beforeB =>
        obtain ⟨rfl,hrest⟩ := List.cons.inj hsplitB
        exact ih ⟨hqa,beforeA,afterA,rfl,fun r h => hbeforeA r (List.mem_cons_of_mem _ h)⟩
          ⟨hqb,beforeB,afterB,hrest,fun r h => hbeforeB r (List.mem_cons_of_mem _ h)⟩

theorem groupOf_eq_iff {engine : RuleEngine String} :
    engine.groupOf rule = rule.action.upstreamGroup.getD engine.defaultUpstreamGroup ↔
      (rule.action.upstreamGroup = some "" → engine.defaultUpstreamGroup = "") := by
  unfold RuleEngine.groupOf
  cases rule.action.upstreamGroup with
  | none => simp
  | some group =>
    by_cases hempty : group = ""
    · simp [hempty]
    · simp [hempty]

theorem selectFrom_selects_iff {engine : RuleEngine String} (hd : d.Lawful)
    (hrules : ∀ rule ∈ engine.rules, Normalised d rule) :
    Selects d engine tags qtype
        (engine.selectFrom tags (d.upper (d.toText qtype)) engine.rules) ↔
      ∀ rule, FirstQualifying d tags qtype engine.rules rule →
        rule.action.upstreamGroup = some "" → engine.defaultUpstreamGroup = "" := by
  obtain ⟨rule,hfirst,hselect⟩ | ⟨hnone,hselect⟩ :=
    selectFrom_cases engine hd hrules tags qtype
  · rw [hselect]
    constructor
    · intro hselects other hother
      cases hother.unique hfirst
      obtain ⟨found,hfound,heq⟩ | ⟨hnone,_⟩ := hselects
      · cases hfound.unique hfirst
        exact groupOf_eq_iff.mp (RuleSelection.mk.inj heq).1
      · obtain ⟨hqualifies,before,after,hsplit,_⟩ := hfirst
        have hmem : rule ∈ engine.rules := by simp [hsplit]
        exact absurd hqualifies (hnone rule hmem)
    · intro hgroup
      refine .inl ⟨rule,hfirst,?_⟩
      rw [groupOf_eq_iff.mpr (hgroup rule hfirst)]
  · rw [hselect]
    refine iff_of_true (.inr ⟨hnone,rfl⟩) fun rule hrule => ?_
    obtain ⟨hqualifies,before,after,hsplit,_⟩ := hrule
    have hmem : rule ∈ engine.rules := by simp [hsplit]
    exact absurd hqualifies (hnone rule hmem)

/-- `select` is the claimed selection just when the first rule that qualifies does not name the
group with the empty name, or that group is the default one. -/
theorem select_selects_iff {inputs : List RuleInput} {engine : RuleEngine String} (hd : d.Lawful)
    (hvalid : List.Forall₂ (fun input rule => RuleConfig.validate d input = .ok rule) inputs
      engine.rules)
    {request : Message} {question : Question} {questions : List Question}
    (hrequest : request.question = question :: questions) (tags : Finset String) :
    (∃ selection, engine.select d.text request tags = .ok selection ∧
        Selects d engine tags question.rdtype selection) ↔
      ∀ rule, FirstQualifying d tags question.rdtype engine.rules rule →
        rule.action.upstreamGroup = some "" → engine.defaultUpstreamGroup = "" := by
  have hrules := normalised_of_validated hvalid
  have hselect : engine.select d.text request tags = .ok
      (engine.selectFrom tags (d.upper (d.toText question.rdtype)) engine.rules) := by
    unfold RuleEngine.select firstQuestion
    rw [hrequest]
    rfl
  rw [← selectFrom_selects_iff hd hrules]
  constructor
  · intro ⟨selection,hok,hselects⟩
    cases hselect.symm.trans hok
    exact hselects
  · intro hselects
    exact ⟨_,hselect,hselects⟩

/-! ### Types by number -/

def RuleConfig.numbered (d : Rdatatypes) (rule : RuleConfig String) : RuleConfig RdataType where
  name := rule.name
  enabled := rule.enabled
  matching :=
    { matchTags := rule.matching.matchTags
      excludeTags := rule.matching.excludeTags
      qtypes := rule.matching.qtypes.filterMap fun text => (d.fromText text).toOption }
  action := rule.action

def RuleEngine.numbered (d : Rdatatypes) (engine : RuleEngine String) : RuleEngine RdataType where
  rules := engine.rules.map (RuleConfig.numbered d)
  defaultUpstreamGroup := engine.defaultUpstreamGroup

theorem mem_numbered_qtypes : qtype ∈ (RuleConfig.numbered d rule).matching.qtypes ↔
    ∃ text ∈ rule.matching.qtypes, d.fromText text = .ok qtype := by
  simp only [RuleConfig.numbered,List.mem_filterMap]
  refine exists_congr fun text => and_congr_right fun _ => ?_
  cases d.fromText text <;> simp [Except.toOption]

theorem numbered_qtypes_eq_nil (hd : d.Lawful) (hrule : Normalised d rule) :
    (RuleConfig.numbered d rule).matching.qtypes = [] ↔ rule.matching.qtypes = [] := by
  constructor
  · intro hnil
    by_contra hne
    obtain ⟨text,hmem⟩ := List.exists_mem_of_ne_nil _ hne
    obtain ⟨rdtype,htext⟩ := hrule text hmem
    have hread : d.fromText text = .ok rdtype := by
      rw [htext,hd.fromText_upper,hd.fromText_toText]
    have hnumber := mem_numbered_qtypes.mpr ⟨text,hmem,hread⟩
    simp [hnil] at hnumber
  · intro hnil
    simp [RuleConfig.numbered,hnil]

theorem ruleMatches_numbered (hd : d.Lawful) (hrule : Normalised d rule) :
    RuleEngine.ruleMatches (RuleConfig.numbered d rule) tags qtype =
      RuleEngine.ruleMatches rule tags (d.text qtype) := by
  have hcontains : (RuleConfig.numbered d rule).matching.qtypes.contains qtype =
      rule.matching.qtypes.contains (d.text qtype) := by
    rw [Bool.eq_iff_iff,List.contains_iff_mem,List.contains_iff_mem,mem_qtypes_iff hd hrule,
      mem_numbered_qtypes]
  have hempty : (RuleConfig.numbered d rule).matching.qtypes.isEmpty =
      rule.matching.qtypes.isEmpty := by
    rw [Bool.eq_iff_iff,List.isEmpty_iff,List.isEmpty_iff,numbered_qtypes_eq_nil hd hrule]
  unfold RuleEngine.ruleMatches
  rw [hcontains,hempty]
  rfl

theorem selectFrom_numbered {engine : RuleEngine String} (hd : d.Lawful)
    {rules : List (RuleConfig String)} (hrules : ∀ rule ∈ rules, Normalised d rule) :
    (RuleEngine.numbered d engine).selectFrom tags qtype (rules.map (RuleConfig.numbered d)) =
      engine.selectFrom tags (d.text qtype) rules := by
  induction rules with
  | nil => rfl
  | cons rule rules ih =>
    have hrest := ih fun r hr => hrules r (List.mem_cons_of_mem _ hr)
    rw [List.map_cons,RuleEngine.selectFrom,RuleEngine.selectFrom,hrest,
      ruleMatches_numbered hd (hrules rule List.mem_cons_self)]
    rfl

/-- On normalised rules the numbers of types select what their texts select. -/
theorem select_numbered {engine : RuleEngine String} (hd : d.Lawful)
    (hrules : ∀ rule ∈ engine.rules, Normalised d rule) (request : Message) :
    (RuleEngine.numbered d engine).select id request tags =
      engine.select d.text request tags := by
  unfold RuleEngine.select
  cases firstQuestion request with
  | error e => rfl
  | ok question => exact congrArg Except.ok (selectFrom_numbered hd hrules)

end

/-! ### An instance -/

/-- Every type but A goes by its number. -/
def numberedTypes : Rdatatypes where
  toText rdtype := if rdtype = RdataType.A then "A" else
    String.ofList ("TYPE".toList ++ Nat.toDigits 10 rdtype.toNat)
  fromText text :=
    match text.toList.map Char.toUpper with
    | ['A'] => .ok RdataType.A
    | 'T' :: 'Y' :: 'P' :: 'E' :: digits => .ok (UInt16.ofNat (Nat.ofDigitChars 10 digits 0))
    | _ => .error ⟨.valueError,"UnknownRdatatype","DNS resource record type is unknown."⟩
  upper text := String.ofList (text.toList.map Char.toUpper)

theorem toUpper_digit {c : Char} (h : c.isDigit = true) : c.toUpper = c := by
  have hdigit : c.val.toNat ≤ 57 := by
    simp only [Char.isDigit,Bool.and_eq_true,decide_eq_true_eq] at h
    exact UInt32.le_iff_toNat_le.mp h.2
  refine dif_neg fun hlower => ?_
  have hle : 97 ≤ c.val.toNat := UInt32.le_iff_toNat_le.mp hlower.1
  omega

theorem toUpper_toUpper (c : Char) : c.toUpper.toUpper = c.toUpper := by
  by_cases hlower : 'a'.val ≤ c.val ∧ c.val ≤ 'z'.val
  · refine dif_neg fun hagain => ?_
    have hval : c.toUpper.val = c.val + ('A'.val - 'a'.val) := by
      unfold Char.toUpper
      rw [dif_pos hlower]
    have hge : 97 ≤ c.val.toNat := UInt32.le_iff_toNat_le.mp hlower.1
    have hle : c.val.toNat ≤ 122 := UInt32.le_iff_toNat_le.mp hlower.2
    have hsum : c.toUpper.val.toNat = (c.val.toNat+4294967264)%4294967296 := by
      rw [hval,UInt32.toNat_add]
      rfl
    have hback : 97 ≤ c.toUpper.val.toNat := UInt32.le_iff_toNat_le.mp hagain.1
    omega
  · have hsame : c.toUpper = c := dif_neg hlower
    rw [hsame,hsame]

theorem numberedTypes_lawful : numberedTypes.Lawful := by
  refine ⟨fun rdtype => ?_,fun text => ?_⟩
  · by_cases hA : rdtype = RdataType.A
    · subst hA
      rfl
    · have hdigits : (Nat.toDigits 10 rdtype.toNat).map Char.toUpper =
          Nat.toDigits 10 rdtype.toNat := by
        refine (List.map_congr_left fun c hc => ?_).trans (List.map_id _)
        exact toUpper_digit (Nat.isDigit_of_mem_toDigits (by decide) (by decide) hc)
      have htext : (numberedTypes.toText rdtype).toList.map Char.toUpper =
          'T' :: 'Y' :: 'P' :: 'E' :: Nat.toDigits 10 rdtype.toNat := by
        simp only [numberedTypes,if_neg hA,String.toList_ofList,List.map_append,hdigits]
        rfl
      have hread : numberedTypes.fromText (numberedTypes.toText rdtype) =
          .ok (UInt16.ofNat (Nat.ofDigitChars 10 (Nat.toDigits 10 rdtype.toNat) 0)) := by
        change (match (numberedTypes.toText rdtype).toList.map Char.toUpper with
          | ['A'] => Except.ok RdataType.A
          | 'T' :: 'Y' :: 'P' :: 'E' :: digits => .ok (UInt16.ofNat (Nat.ofDigitChars 10 digits 0))
          | _ => .error _) = _
        rw [htext]
        rfl
      rw [hread,Nat.ofDigitChars_ten_toDigits,UInt16.ofNat_toNat]
  · have hupper : (numberedTypes.upper text).toList.map Char.toUpper =
        text.toList.map Char.toUpper := by
      simp only [numberedTypes,String.toList_ofList,List.map_map]
      exact List.map_congr_left fun c _ => toUpper_toUpper c
    unfold numberedTypes at hupper ⊢
    simp only [hupper]

/-- Blocked clients go to the group with the empty name, the others ask for A elsewhere. -/
def blockInput : List RuleInput :=
  [{ name := "block", matching := { matchTags := some [" blocked "] }
     action := { upstreamGroup := some "" } },
   { name := "hosts", matching := { qtypes := some ["a"] }
     action := { upstreamGroup := some "lan" } }]

def blockEngine : RuleEngine String where
  rules :=
    [⟨"block",true,⟨["blocked"],[],[]⟩,{ upstreamGroup := some "" }⟩,
     ⟨"hosts",true,⟨[],[],["A"]⟩,{ upstreamGroup := some "lan" }⟩]
  defaultUpstreamGroup := "default"

theorem blockEngine_valid : List.Forall₂
    (fun input rule => RuleConfig.validate numberedTypes input = .ok rule) blockInput
    blockEngine.rules :=
  .cons rfl (.cons rfl .nil)

theorem select_selects_iff_host :
    (∃ selection, blockEngine.select numberedTypes.text hostQuery ∅ = .ok selection ∧
        Selects numberedTypes blockEngine ∅ RdataType.A selection) ↔
      ∀ rule, FirstQualifying numberedTypes ∅ RdataType.A blockEngine.rules rule →
        rule.action.upstreamGroup = some "" → blockEngine.defaultUpstreamGroup = "" :=
  select_selects_iff numberedTypes_lawful blockEngine_valid
    (show hostQuery.question = hostQuestion :: [] from rfl) ∅

/-- The blocked client is sent to the default group. -/
theorem select_ignoresGroup :
    ¬ ∃ selection, blockEngine.select numberedTypes.text hostQuery {"blocked"} = .ok selection ∧
      Selects numberedTypes blockEngine {"blocked"} RdataType.A selection := by
  intro ⟨selection,hselect,hselects⟩
  have hdefault : selection = { upstreamGroup := "default", ruleName := some "block" } :=
    (Except.ok.inj hselect).symm
  have hblock : FirstQualifying numberedTypes {"blocked"} RdataType.A blockEngine.rules
      ⟨"block",true,⟨["blocked"],[],[]⟩,{ upstreamGroup := some "" }⟩ :=
    ⟨⟨rfl,by simp,.inr ⟨"blocked",by simp,by simp⟩,.inl rfl⟩,[],_,rfl,by simp⟩
  obtain ⟨rule,hfirst,heq⟩ | ⟨hnone,_⟩ := hselects
  · cases hfirst.unique hblock
    rw [hdefault] at heq
    have hgroup := (RuleSelection.mk.inj heq).1
    simp at hgroup
  · exact hnone _ List.mem_cons_self hblock.1

end SmartDns.Rules
