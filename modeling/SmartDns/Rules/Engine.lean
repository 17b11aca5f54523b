import SmartDns.Dispatcher.Registry
set_option autoImplicit false

/-! `RuleEngine`: the first enabled rule that matches the tags and the type of a
request selects the upstream group. Types are written in some way `τ`: the code compares
their texts, and where no text matters they are compared by number. -/

namespace SmartDns

structure RuleMatchConfig (τ : Type) where
  matchTags : List String := []
  excludeTags : List String := []
  qtypes : List τ := []
  deriving DecidableEq, Repr

structure RuleActionConfig where
  upstreamGroup : Option String := none
  dispatcher : Option DispatchStrategyType := none
  deriving DecidableEq, Repr

structure RuleConfig (τ : Type) where
  name : String
  enabled : Bool := true
  matching : RuleMatchConfig τ := {}
  action : RuleActionConfig := {}
  deriving DecidableEq, Repr

structure RuleSelection where
  upstreamGroup : String
  dispatcher : Option DispatchStrategyType := none
  ruleName : Option String := none
  deriving DecidableEq, Repr

structure RuleEngine (τ : Type) where
  rules : List (RuleConfig τ)
  defaultUpstreamGroup : String

namespace RuleEngine

variable {τ : Type} [DecidableEq τ]

def ruleMatches (rule : RuleConfig τ) (tags : Finset String) (qtype : τ) : Bool :=
  if !rule.matching.excludeTags.isEmpty &&
      rule.matching.excludeTags.any (fun tag => tag ∈ tags) then false
  else if !rule.matching.matchTags.isEmpty &&
      !rule.matching.matchTags.any (fun tag => tag ∈ tags) then false
  else if !rule.matching.qtypes.isEmpty && !rule.matching.qtypes.contains qtype then false
  else true

/-- `rule.action.upstream_group or self._default_upstream_group`. -/
def groupOf (engine : RuleEngine τ) (rule : RuleConfig τ) : String :=
  match rule.action.upstreamGroup with
  | some group => if group = "" then engine.defaultUpstreamGroup else group
  | none => engine.defaultUpstreamGroup

/-- The loop of `select`. -/
def selectFrom (engine : RuleEngine τ) (tags : Finset String) (qtype : τ) :
    List (RuleConfig τ) → RuleSelection
  | [] => { upstreamGroup := engine.defaultUpstreamGroup }
  | rule :: rules =>
    if !rule.enabled then selectFrom engine tags qtype rules
    else if !ruleMatches rule tags qtype then selectFrom engine tags qtype rules
    else
      { upstreamGroup := engine.groupOf rule, dispatcher := rule.action.dispatcher
        ruleName := some rule.name }

def select (write : RdataType → τ) (engine : RuleEngine τ) (request : Message)
    (tags : Finset String) : Except PyException RuleSelection := do
  let question ← firstQuestion request
  pure (engine.selectFrom tags (write question.rdtype) engine.rules)

/-- The groups that the configuration has checked: the default one and those of rules. -/
def Known (engine : RuleEngine τ) (rm : ResolverManager) : Prop :=
  (rm.getGroup engine.defaultUpstreamGroup).isSome = true ∧
    ∀ rule ∈ engine.rules, (rm.getGroup (engine.groupOf rule)).isSome = true

variable {engine : RuleEngine τ} {rm : ResolverManager} {write : RdataType → τ}
  {request : Message} {tags : Finset String}

theorem selectFrom_known (h : engine.Known rm) (tags : Finset String) (qtype : τ)
    {rules : List (RuleConfig τ)} (hrules : ∀ rule ∈ rules, rule ∈ engine.rules) :
    (rm.getGroup (engine.selectFrom tags qtype rules).upstreamGroup).isSome = true := by
  induction rules with
  | nil => exact h.1
  | cons rule rules ih =>
    have hrest := ih fun r hr => hrules r (List.mem_cons_of_mem _ hr)
    unfold selectFrom
    split
    · exact hrest
    · split
      · exact hrest
      · exact h.2 rule (hrules rule List.mem_cons_self)

/-- A selection fails only on a request without a question, and names a known group. -/
theorem select_known (h : engine.Known rm) {selection : RuleSelection}
    (hselect : engine.select write request tags = .ok selection) :
    (rm.getGroup selection.upstreamGroup).isSome = true := by
  unfold select at hselect
  cases hq : firstQuestion request with
  | error e => simp [hq,bind,Except.bind] at hselect
  | ok question =>
    simp only [hq,bind,Except.bind,pure,Except.pure,Except.ok.injEq] at hselect
    rw [← hselect]
    exact selectFrom_known h tags _ fun _ hr => hr

theorem select_ok_iff : (∃ selection, engine.select write request tags = .ok selection) ↔
    request.question ≠ [] := by
  unfold select firstQuestion
  cases request.question with
  | nil => simp [bind,Except.bind]
  | cons q qs => simp [bind,Except.bind,pure,Except.pure]

end RuleEngine

end SmartDns
