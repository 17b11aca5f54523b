import SmartDns.Lib.Keyed
import SmartDns.Lib.Schema
set_option autoImplicit false

/-!
JSON documents whose objects refer to definitions by name. What a value says is found by
unfolding its references to any depth, and it stays the same when references and definitions
take new names together.
-/

namespace JsonObject

def get (o : JsonObject) (name : String) : Option Json :=
  (Keyed.lookup Prod.fst name o.members).map Prod.snd

theorem distinct_members (o : JsonObject) : Keyed.Distinct Prod.fst o.members := by
  rw [Keyed.Distinct,map_fst_members]
  exact o.distinct

def withValue (old new : String × Json) : String × Json := (old.1,new.2)

theorem put_distinct (o : JsonObject) (name : String) (value : Json) :
    ((Keyed.put Prod.fst withValue o.members (name,value)).map Prod.fst).Nodup :=
  Keyed.put_distinct (by simp [withValue]) o.distinct_members

/-- `o[name] = value`. -/
def set (o : JsonObject) (name : String) (value : Json) : JsonObject :=
  ofMembers (Keyed.put Prod.fst withValue o.members (name,value)) (o.put_distinct name value)

def update (o other : JsonObject) : JsonObject :=
  other.members.foldl (fun o member => o.set member.1 member.2) o

def relabel (label : String → String) (hlabel : Function.Injective label) (change : Json → Json)
    (o : JsonObject) : JsonObject :=
  ofMembers (o.members.map fun member => (label member.1,change member.2)) (by
    have hkeys : (o.members.map fun member => (label member.1,change member.2)).map Prod.fst =
        o.keys.map label := by
      rw [List.map_map,← map_fst_members o,List.map_map]
      rfl
    rw [hkeys]
    exact o.distinct.map hlabel)

theorem get_set (o : JsonObject) (name name' : String) (value : Json) :
    (o.set name value).get name' = if name = name' then some value else o.get name' := by
  have hnew : ∀ x y : String × Json, x.1 = y.1 → withValue x y = y := fun _ _ h => Prod.ext h rfl
  unfold get set
  rw [members_ofMembers,Keyed.lookup_put_last hnew]
  split <;> rfl

theorem get_foldl_set {members : List (String × Json)} (h : (members.map Prod.fst).Nodup)
    (o : JsonObject) (name : String) :
    (members.foldl (fun o member => o.set member.1 member.2) o).get name =
      ((Keyed.lookup Prod.fst name members).map Prod.snd).or (o.get name) := by
  induction members generalizing o with
  | nil => rfl
  | cons member members ih =>
    obtain ⟨hfresh,hnodup⟩ := List.nodup_cons.mp h
    rw [List.foldl_cons,ih hnodup,get_set]
    by_cases hname : member.1 = name
    · subst hname
      have hrest : Keyed.lookup Prod.fst member.1 members = none :=
        Keyed.lookup_none_iff.mpr hfresh
      rw [hrest]
      simp [Keyed.lookup]
    · simp [Keyed.lookup,hname]

theorem get_update (o other : JsonObject) (name : String) :
    (o.update other).get name = (other.get name).or (o.get name) :=
  get_foldl_set other.distinct_members o name

section
variable {label : String → String} (hlabel : Function.Injective label) (change : Json → Json)

theorem get_relabel (o : JsonObject) (name : String) :
    (o.relabel label hlabel change).get (label name) = (o.get name).map change := by
  unfold get relabel Keyed.lookup
  rw [members_ofMembers,List.find?_map]
  have hsame : ((fun member : String × Json => decide (member.1 = label name)) ∘
      fun member : String × Json => (label member.1,change member.2)) =
      fun member => decide (member.1 = name) := by
    funext member
    exact decide_eq_decide.mpr hlabel.eq_iff
  rw [hsame,Option.map_map,Option.map_map]
  rfl

theorem get_relabel_none (o : JsonObject) {name' : String} (h : ∀ name, label name ≠ name') :
    (o.relabel label hlabel change).get name' = none := by
  unfold get relabel
  rw [members_ofMembers,Option.map_eq_none_iff,Keyed.lookup_none_iff]
  intro hmem
  obtain ⟨_,hmember,rfl⟩ := List.mem_map.mp hmem
  obtain ⟨member,-,rfl⟩ := List.mem_map.mp hmember
  exact h member.1 rfl

end

theorem get_none {o : JsonObject} {name : String} (h : name ∉ o.keys) : o.get name = none := by
  rw [get,Option.map_eq_none_iff,Keyed.lookup_none_iff,map_fst_members]
  exact h

end JsonObject

namespace Json

def defsPath : String := "#/$defs/"

/-- The name of the definition that a member of an object refers to. -/
def refName (key : String) : Json → Option String
  | .str s =>
    if key = "$ref" ∧ defsPath.toList <+: s.toList then
      some (String.ofList (s.toList.drop defsPath.length))
    else none
  | _ => none

mutual
/-- The value with something else in place of each reference. -/
def mapRefs (change : String → Json) : Json → Json
  | .arr items => .arr (mapItems change items)
  | .obj keys distinct value => .obj keys distinct fun i =>
      match refName (keys.get i) (value i) with
      | some name => change name
      | none => mapRefs change (value i)
  | .null => .null
  | .bool b => .bool b
  | .int n => .int n
  | .float x => .float x
  | .str s => .str s

def mapItems (change : String → Json) : List Json → List Json
  | [] => []
  | item :: items => mapRefs change item :: mapItems change items
end

/-- The value with its references followed to a depth. A reference becomes a list of what it
stands for; `true` stands where it is too deep and `null` where nothing is defined. -/
def unfoldRefs (defs : String → Option Json) : ℕ → Json → Json
  | 0 => mapRefs fun _ => .bool true
  | n+1 => mapRefs fun name => match defs name with
    | some definition => .arr [unfoldRefs defs n definition]
    | none => .null

/-- The value with other names in its references. -/
def renameRefs (label : String → String) : Json → Json :=
  mapRefs fun name => .str (defsPath ++ label name)

theorem refName_path (name : String) : refName "$ref" (.str (defsPath ++ name)) = some name := by
  have hpath : defsPath.toList <+: (defsPath ++ name).toList := by
    rw [String.toList_append]
    exact List.prefix_append _ _
  rw [refName,if_pos ⟨rfl,hpath⟩,String.toList_append,← String.length_toList,List.drop_left,
    String.ofList_toList]

theorem refName_some {key name : String} {v : Json} (h : refName key v = some name) :
    key = "$ref" := by
  cases v with
  | str s =>
    simp only [refName] at h
    split at h
    · rename_i hcond
      exact hcond.1
    · cases h
  | _ => cases h

/-- Only texts are references, and they are kept. -/
theorem refName_mapRefs (change : String → Json) (key : String) (v : Json) :
    refName key (mapRefs change v) = refName key v := by
  cases v <;> rfl

mutual
theorem mapRefs_renameRefs (change : String → Json) (label : String → String) (v : Json) :
    mapRefs change (renameRefs label v) = mapRefs (fun name => change (label name)) v := by
  match v with
  | .arr items => exact congrArg Json.arr (mapItems_renameRefs change label items)
  | .obj keys distinct value =>
    refine congrArg (Json.obj keys distinct) (funext fun i => ?_)
    have ih := mapRefs_renameRefs change label (value i)
    cases hname : refName (keys.get i) (value i) with
    | some name =>
      have hkey := refName_some hname
      simp only [hname]
      rw [hkey,refName_path]
    | none =>
      have hrest :=
        refName_mapRefs (fun name => .str (defsPath ++ label name)) (keys.get i) (value i)
      rw [hname] at hrest
      simp only [hname,hrest]
      exact ih
  | .null | .bool _ | .int _ | .float _ | .str _ => rfl

theorem mapItems_renameRefs (change : String → Json) (label : String → String)
    (items : List Json) :
    mapItems change (mapItems (fun name => .str (defsPath ++ label name)) items) =
      mapItems (fun name => change (label name)) items := by
  match items with
  | [] => rfl
  | item :: items =>
    exact congrArg₂ List.cons (mapRefs_renameRefs change label item)
      (mapItems_renameRefs change label items)
end

/-- New names for references and definitions make no difference. -/
theorem unfoldRefs_renameRefs {defs defs' : String → Option Json} {label : String → String}
    (h : ∀ name, defs' (label name) = (defs name).map (renameRefs label)) (n : ℕ) (v : Json) :
    unfoldRefs defs' n (renameRefs label v) = unfoldRefs defs n v := by
  induction n generalizing v with
  | zero => exact mapRefs_renameRefs _ label v
  | succ n ih =>
    simp only [unfoldRefs]
    rw [mapRefs_renameRefs]
    congr 1
    funext name
    rw [h]
    cases defs name with
    | none => rfl
    | some definition => simp only [Option.map_some,ih]

end Json
