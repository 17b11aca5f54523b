import SmartDns.Config.Models
import SmartDns.Dispatcher.Nested
import SmartDns.Lib.DepthFirst
import Mathlib.Data.List.Sort
import Mathlib.Data.String.Basic
set_option autoImplicit false

/-!
`AppConfig.validate_references`, and what a dispatch owes to it: the group that a rule
selects exists, every target below it is a group or an upstream, and the groups are well
founded. The adjacency of the groups is a dictionary, so of two groups with one name the
later counts.
-/

namespace SmartDns

open Relation (ReflTransGen TransGen)

namespace Config

def check (bad : Bool) (message : String) : Except PyException Unit :=
  if bad then .error (.valueError message) else .ok ()

theorem check_ok {bad : Bool} {message : String} : check bad message = .ok () ↔ bad = false := by
  cases bad <;> simp [check]

theorem seq_ok {x y : Except PyException Unit} :
    (x >>= fun _ => y) = .ok () ↔ x = .ok () ∧ y = .ok () := by
  cases x <;> simp [bind,Except.bind]

theorem forM_ok {α : Type} {f : α → Except PyException Unit} {l : List α} :
    l.forM f = .ok () ↔ ∀ x ∈ l, f x = .ok () := by
  induction l with
  | nil => simp [List.forM,pure,Except.pure]
  | cons x l ih =>
    have hcons : (x :: l).forM f = (f x >>= fun _ => l.forM f) := rfl
    rw [hcons,seq_ok,ih,List.forall_mem_cons]

def uniqueNamesFrom : List String → List String → Except PyException Unit
  | _, [] => pure ()
  | seen, value :: rest =>
    if value ∈ seen then .error (.valueError ("存在重复名称: " ++ value))
    else uniqueNamesFrom (seen ++ [value]) rest

def uniqueNames (names : List String) : Except PyException Unit := uniqueNamesFrom [] names

theorem uniqueNamesFrom_ok {seen names : List String} (hseen : seen.Nodup) :
    uniqueNamesFrom seen names = .ok () ↔ (seen ++ names).Nodup := by
  induction names generalizing seen with
  | nil => simpa [uniqueNamesFrom,pure,Except.pure] using hseen
  | cons value rest ih =>
    unfold uniqueNamesFrom
    split
    · rename_i hmem
      have hdup : ¬ (seen ++ value :: rest).Nodup := by
        intro h
        exact (List.disjoint_of_nodup_append h) hmem List.mem_cons_self
      simpa using hdup
    · rename_i hmem
      rw [ih (DepthFirst.nodup_snoc hseen hmem),List.append_assoc]
      rfl

theorem uniqueNames_ok {names : List String} : uniqueNames names = .ok () ↔ names.Nodup :=
  uniqueNamesFrom_ok List.nodup_nil

/-- `", ".join(sorted(set(names)))`. -/
def joined (names : List String) : String :=
  ", ".intercalate (names.dedup.insertionSort fun a b => a ≤ b)

/-- The references of one item that nothing defines, in an error that names the item. -/
def validateRefs (message : String) (refs available : List String) : Except PyException Unit :=
  check (!(refs.filter fun x => x ∉ available).isEmpty)
    (message ++ joined (refs.filter fun x => x ∉ available))

theorem validateRefs_ok {message : String} {refs available : List String} :
    validateRefs message refs available = .ok () ↔ ∀ x ∈ refs, x ∈ available := by
  simp [validateRefs,check_ok,List.filter_eq_nil_iff]

/-! ### The group graph -/

/-- `{group.name: group for group in groups}`. -/
def groupDict (groups : List UpstreamGroupConfig) : List UpstreamGroupConfig :=
  Keyed.gather UpstreamGroupConfig.name
    (fun old new => { old with upstreams := new.upstreams, nonempty := new.nonempty }) groups

/-- `adjacency[group_name]`; the search asks for names of groups only. -/
def adjacency (groups : List UpstreamGroupConfig) (groupName : String) : List String :=
  match Keyed.lookup UpstreamGroupConfig.name groupName (groupDict groups) with
  | some group => group.upstreams.filter fun target => target ∈ groups.map UpstreamGroupConfig.name
  | none => []

/-- `_validate_group_cycles`; `visiting` holds the elements of `path`. -/
def validateGroupCycles (groups : List UpstreamGroupConfig) : Except PyException Unit :=
  match DepthFirst.search (adjacency groups) ((groupDict groups).map UpstreamGroupConfig.name) with
  | .ok _ => .ok ()
  | .error cycle => .error (.valueError ("group 引用存在循环: " ++ " -> ".intercalate cycle))

/-- One group directly refers to another. -/
def RefersTo (groups : List UpstreamGroupConfig) (a b : String) : Prop :=
  ∃ group, Keyed.lookup UpstreamGroupConfig.name a (groupDict groups) = some group ∧
    b ∈ group.upstreams ∧ b ∈ groups.map UpstreamGroupConfig.name

theorem edge_adjacency {groups : List UpstreamGroupConfig} :
    DepthFirst.Edge (adjacency groups) = RefersTo groups := by
  funext a b
  unfold DepthFirst.Edge adjacency RefersTo
  cases Keyed.lookup UpstreamGroupConfig.name a (groupDict groups) with
  | none => simp
  | some group => simp

theorem mem_groupDict_names {groups : List UpstreamGroupConfig} {name : String} :
    name ∈ (groupDict groups).map UpstreamGroupConfig.name ↔
      name ∈ groups.map UpstreamGroupConfig.name := by
  unfold groupDict
  rw [Keyed.mem_gather_keys]
  intro old new
  rfl

theorem adjacency_known {groups : List UpstreamGroupConfig} {a b : String}
    (h : b ∈ adjacency groups a) : b ∈ (groupDict groups).map UpstreamGroupConfig.name := by
  have hedge : DepthFirst.Edge (adjacency groups) a b := h
  rw [edge_adjacency] at hedge
  obtain ⟨_,_,_,hb⟩ := hedge
  exact mem_groupDict_names.mpr hb

theorem adjacency_source {groups : List UpstreamGroupConfig} {a : String}
    (h : adjacency groups a ≠ []) : a ∈ (groupDict groups).map UpstreamGroupConfig.name := by
  by_contra hnone
  rw [← Keyed.lookup_none_iff] at hnone
  exact h (by simp [adjacency,hnone])

/-- The error of the cycle check names a cycle. -/
theorem validateGroupCycles_error {groups : List UpstreamGroupConfig} {e : PyException}
    (h : validateGroupCycles groups = .error e) :
    ∃ cycle, e = .valueError ("group 引用存在循环: " ++ " -> ".intercalate cycle) ∧
      (∃ a middle, cycle = a :: middle ++ [a]) ∧ cycle.IsChain (RefersTo groups) := by
  unfold validateGroupCycles at h
  split at h
  · contradiction
  · rename_i cycle hsearch
    cases h
    have hwalk := DepthFirst.search_error (fun _ _ _ hy => adjacency_known hy) hsearch
    exact ⟨cycle,rfl,hwalk.closes,edge_adjacency ▸ hwalk.steps⟩

theorem validateGroupCycles_error_iff (groups : List UpstreamGroupConfig) :
    (∃ e, validateGroupCycles groups = .error e) ↔
      ∃ name, TransGen (RefersTo groups) name name := by
  rw [← edge_adjacency,← DepthFirst.search_error_iff (fun _ _ _ hy => adjacency_known hy)
    fun _ hx => adjacency_source hx]
  unfold validateGroupCycles
  cases DepthFirst.search (adjacency groups)
    ((groupDict groups).map UpstreamGroupConfig.name) <;> simp

theorem validateGroupCycles_wellFounded {groups : List UpstreamGroupConfig}
    (h : validateGroupCycles groups = .ok ()) : WellFounded fun b a => RefersTo groups a b := by
  unfold validateGroupCycles at h
  split at h
  · rename_i done hsearch
    have hwf := DepthFirst.search_wellFounded (fun _ hx => adjacency_source hx) hsearch
    rwa [edge_adjacency] at hwf
  · contradiction

end Config

open Config

namespace AppConfig

section Checks
variable (config : AppConfig References)

def nameserverNames : List String := config.rest.nameservers.map NameserverConfig.name
def upstreamNames : List String := config.rest.upstreams.map Config.UpstreamConfig.name
def groupNames : List String := config.rest.groups.map UpstreamGroupConfig.name

def validateUniqueNames : Except PyException Unit := do
  uniqueNames (config.listeners.map ListenerConfig.name)
  uniqueNames config.nameserverNames
  uniqueNames config.upstreamNames
  uniqueNames config.groupNames
  uniqueNames (config.rest.rules.map RuleConfig.name)
  uniqueNames (config.rest.plugins.map PluginConfig.name)

def duplicatedTargetNames : List String :=
  config.upstreamNames.filter fun x => x ∈ config.groupNames

def validateRequiredConfig : Except PyException Unit := do
  check (config.listeners.isEmpty && !config.webui.enabled && !config.webui.dohEnabled)
    "至少需要一个 listener，或启用 webui / DoH"
  check config.rest.nameservers.isEmpty "至少需要一个 nameserver"
  check config.rest.upstreams.isEmpty "至少需要一个 upstream"
  check config.rest.groups.isEmpty "至少需要一个 upstream group"
  check (config.rest.defaultUpstreamGroup ∉ config.groupNames)
    ("default_upstream_group 未定义: " ++ config.rest.defaultUpstreamGroup)
  check (!config.duplicatedTargetNames.isEmpty)
    ("group 与 upstream 名称冲突: " ++ joined config.duplicatedTargetNames)

def validateUpstreamNameserverRefs : Except PyException Unit :=
  config.rest.upstreams.forM fun upstream =>
    validateRefs ("upstream " ++ upstream.name ++ " 引用了不存在的 nameserver: ")
      upstream.nameservers config.nameserverNames

def validateGroupTargetRefs : Except PyException Unit :=
  config.rest.groups.forM fun group =>
    validateRefs ("group " ++ group.name ++ " 引用了不存在的 target: ")
      group.upstreams (config.upstreamNames ++ config.groupNames)

def validateRuleRefs : Except PyException Unit :=
  config.rest.rules.forM fun rule =>
    match rule.action.upstreamGroup with
    | none => .ok ()
    | some name => check (name ∉ config.groupNames)
        ("rule " ++ rule.name ++ " 引用了不存在的 upstream_group: " ++ name)

def validateReferences : Except PyException Unit := do
  config.validateUniqueNames
  config.validateRequiredConfig
  config.validateUpstreamNameserverRefs
  config.validateGroupTargetRefs
  validateGroupCycles config.rest.groups
  config.validateRuleRefs

end Checks

/-- What the references of an accepted configuration satisfy. -/
structure Accepted (config : AppConfig References) : Prop where
  groups : Keyed.Distinct UpstreamGroupConfig.name config.rest.groups
  default : config.rest.defaultUpstreamGroup ∈ config.groupNames
  separate : ∀ x ∈ config.upstreamNames, x ∉ config.groupNames
  nameservers : ∀ u ∈ config.rest.upstreams, ∀ x ∈ u.nameservers, x ∈ config.nameserverNames
  targets : ∀ g ∈ config.rest.groups, ∀ x ∈ g.upstreams,
    x ∈ config.upstreamNames ∨ x ∈ config.groupNames
  acyclic : WellFounded fun b a => RefersTo config.rest.groups a b
  rules : ∀ rule ∈ config.rest.rules, ∀ name, rule.action.upstreamGroup = some name →
    name ∈ config.groupNames

theorem validateReferences_accepted {config : AppConfig References}
    (h : config.validateReferences = .ok ()) : config.Accepted := by
  simp only [validateReferences,validateUniqueNames,validateRequiredConfig,
    validateUpstreamNameserverRefs,validateGroupTargetRefs,validateRuleRefs,seq_ok,forM_ok,
    uniqueNames_ok,check_ok,validateRefs_ok] at h
  obtain ⟨⟨_,_,_,hgroups,_,_⟩,⟨_,_,_,_,hdefault,hseparate⟩,hnameservers,htargets,hcycles,hrules⟩ :=
    h
  refine ⟨hgroups,by simpa using hdefault,?_,hnameservers,?_,
    validateGroupCycles_wellFounded hcycles,?_⟩
  · simpa [duplicatedTargetNames,List.filter_eq_nil_iff] using hseparate
  · intro g hg x hx
    exact List.mem_append.mp (htargets g hg x hx)
  · intro rule hrule name hname
    have hcheck := hrules rule hrule
    simpa [hname,check_ok] using hcheck

inductive ResolverSource where
  | plugin | configured
  deriving DecidableEq, Repr

/-- Whose resolver `ResolverManager.resolve` calls for an upstream. -/
def resolverSource (config : AppConfig References) (pluginResolvers : List String)
    (name : String) : Except PyException ResolverSource :=
  if name ∈ pluginResolvers then .ok .plugin
  else if name ∈ config.upstreamNames then .ok .configured
  else .error (.keyError name)

def ruleEngine (config : AppConfig References) : RuleEngine RdataType where
  rules := config.rest.rules
  defaultUpstreamGroup := config.rest.defaultUpstreamGroup

namespace Accepted
variable {config : AppConfig References}

def resolverManager (h : config.Accepted) : ResolverManager where
  groups := config.rest.groups
  unique := h.groups

theorem getGroup_isSome (h : config.Accepted) {name : String} :
    (h.resolverManager.getGroup name).isSome = true ↔ name ∈ config.groupNames := by
  rw [← not_iff_not,Bool.not_eq_true,Option.isSome_eq_false_iff,Option.isNone_iff_eq_none]
  exact Keyed.lookup_none_iff

theorem groupDict_eq (h : config.Accepted) : groupDict config.rest.groups = config.rest.groups :=
  Keyed.gather_of_distinct h.groups

/-- Upstreams are below groups too, but nothing is below an upstream. -/
theorem below_wellFounded (h : config.Accepted) : WellFounded h.resolverManager.Below := by
  refine ⟨fun a => ?_⟩
  induction a using h.acyclic.induction with
  | _ a ih =>
    refine Acc.intro a fun b hb => ?_
    obtain ⟨g,hg,hmem⟩ := hb
    by_cases hgroup : b ∈ config.groupNames
    · refine ih b ⟨g,?_,hmem,hgroup⟩
      rw [h.groupDict_eq]
      exact hg
    · refine Acc.intro b fun c hc => ?_
      obtain ⟨g',hg',_⟩ := hc
      exact absurd (h.getGroup_isSome.mp (by rw [hg']; rfl)) hgroup

theorem target_known (h : config.Accepted) {group target : String}
    (hgroup : group ∈ config.groupNames)
    (hreach : ReflTransGen (fun a b => h.resolverManager.Below b a) group target) :
    target ∈ config.upstreamNames ∨ target ∈ config.groupNames := by
  cases hreach.cases_tail with
  | inl heq => exact .inr (heq ▸ hgroup)
  | inr hlast =>
    obtain ⟨parent,_,g,hg,hmem⟩ := hlast
    exact h.targets g (Keyed.lookup_some hg).1 target hmem

theorem ruleEngine_known (h : config.Accepted) : config.ruleEngine.Known h.resolverManager := by
  refine ⟨h.getGroup_isSome.mpr h.default,fun rule hrule => h.getGroup_isSome.mpr ?_⟩
  unfold RuleEngine.groupOf
  split
  · rename_i name hname
    split
    · exact h.default
    · exact h.rules rule hrule name hname
  · exact h.default

end Accepted

/-- A dispatch of this group meets defined targets only and comes to an end. -/
structure DispatchTotal (config : AppConfig References) (rm : ResolverManager)
    (g : UpstreamGroupConfig) : Prop where
  defined : ∀ target, ReflTransGen (fun a b => rm.Below b a) g.name target →
    rm.hasGroup target = true ∨ target ∈ config.upstreamNames
  resolvable : ∀ target, ReflTransGen (fun a b => rm.Below b a) g.name target →
    rm.hasGroup target = false → ∀ pluginResolvers,
      ∃ source, config.resolverSource pluginResolvers target = .ok source
  recursion : ∃ depth, ∀ n ≥ depth, ∀ leaf path,
    ∃ t, dispatchTree rm leaf n path g.name = some t ∧ DispatchesGroup rm g t
  returns : ∀ strategy t, DispatchesGroup rm g t → ∀ schedule s log,
    dispatchGroup strategy t schedule = some (s,log) →
      schedule.length ≤ (ForkJoin.spawn t : DispatchTask).weight ∧
        ∃ rest a made log', dispatchGroup strategy t (schedule ++ rest) =
          some (.finished a made,log')

theorem Accepted.dispatchTotal {config : AppConfig References} (h : config.Accepted)
    {name : String} {g : UpstreamGroupConfig} (hget : h.resolverManager.getGroup name = some g) :
    config.DispatchTotal h.resolverManager g := by
  have hname : g.name = name := (Keyed.lookup_some hget).2
  have hgroup : g.name ∈ config.groupNames := h.getGroup_isSome.mp (by rw [hname,hget]; rfl)
  have hdefined : ∀ target, ReflTransGen (fun a b => h.resolverManager.Below b a) g.name target →
      h.resolverManager.hasGroup target = true ∨ target ∈ config.upstreamNames := by
    intro target hreach
    cases h.target_known hgroup hreach with
    | inl hupstream => exact .inr hupstream
    | inr hg => exact .inl (h.getGroup_isSome.mpr hg)
  refine ⟨hdefined,?_,?_,fun strategy t _ schedule s log hrun =>
    dispatchGroup_terminates strategy t hrun⟩
  · intro target hreach hleaf pluginResolvers
    have hupstream : target ∈ config.upstreamNames :=
      (hdefined target hreach).resolve_left (by simp [hleaf])
    by_cases hplugin : target ∈ pluginResolvers
    · exact ⟨.plugin,by simp [resolverSource,hplugin]⟩
    · exact ⟨.configured,by simp [resolverSource,hplugin,hupstream]⟩
  · obtain ⟨depth,hdepth⟩ := dispatchTree_terminates h.below_wellFounded g.name
    refine ⟨depth,fun n hn leaf path => ?_⟩
    obtain ⟨t,ht⟩ := hdepth n hn leaf path
    have hdispatches := dispatchTree_dispatches ht
    refine ⟨t,ht,?_⟩
    rw [hname] at hdispatches
    cases hdispatches with
    | upstream _ _ hnone => simp [ResolverManager.hasGroup,hget] at hnone
    | group requestTags hsome htargets =>
      cases hget.symm.trans hsome
      rw [← hname]
      exact .mk requestTags htargets

/-- The cycle check raises exactly on cyclic group references; in a configuration that
passes validation a rule selects a group that exists, and its dispatch is total. -/
theorem validateReferences_total (config : AppConfig References) :
    ((∃ e, validateGroupCycles config.rest.groups = .error e) ↔
      ∃ name, TransGen (RefersTo config.rest.groups) name name) ∧
    (config.validateReferences = .ok () →
      ∃ rm : ResolverManager, rm.groups = config.rest.groups ∧
        ∀ request tags selection, config.ruleEngine.select id request tags = .ok selection →
          ∃ g, rm.getGroup selection.upstreamGroup = some g ∧ config.DispatchTotal rm g) := by
  refine ⟨validateGroupCycles_error_iff config.rest.groups,fun hvalid => ?_⟩
  have h := validateReferences_accepted hvalid
  refine ⟨h.resolverManager,rfl,fun request tags selection hselect => ?_⟩
  have hsome := RuleEngine.select_known h.ruleEngine_known hselect
  obtain ⟨g,hg⟩ := Option.isSome_iff_exists.mp hsome
  exact ⟨g,hg,h.dispatchTotal hg⟩

/-- A default group over an upstream and a nested group. -/
def nestedConfig : AppConfig References where
  listeners := []
  webui := { enabled := true, dohEnabled := false, host := "127.0.0.1", port := 8080 }
  workers := some 1
  rest :=
    { nameservers := [⟨"ns"⟩]
      upstreams := [⟨"up",["ns"],by decide⟩]
      groups := [⟨"default",["up","inner"],by decide⟩,⟨"inner",["up"],by decide⟩] }

theorem validateReferences_total_nested :
    nestedConfig.validateReferences = .ok () ∧
      ∃ rm : ResolverManager, rm.groups = nestedConfig.rest.groups ∧
        ∀ request tags selection, nestedConfig.ruleEngine.select id request tags = .ok selection →
          ∃ g, rm.getGroup selection.upstreamGroup = some g ∧
            nestedConfig.DispatchTotal rm g := by
  have hvalid : nestedConfig.validateReferences = .ok () := by rfl
  exact ⟨hvalid,(validateReferences_total nestedConfig).2 hvalid⟩

end AppConfig

end SmartDns
