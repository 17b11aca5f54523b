import SmartDns.Dns.Name
import SmartDns.Lib.Keyed
import Mathlib.Data.List.Pairwise
import Mathlib.Tactic.Tauto
set_option autoImplicit false

/-!
HTTPS records of dnspython: a priority, a target and a dictionary of parameters. The
constructors check what they are given, so that a record that exists is a valid one.
-/

namespace SmartDns

abbrev ParamKey := UInt16

namespace ParamKey
def MANDATORY : ParamKey := 0
def ALPN : ParamKey := 1
def NO_DEFAULT_ALPN : ParamKey := 2
def IPV4HINT : ParamKey := 4
def ECH : ParamKey := 5
def IPV6HINT : ParamKey := 6

/-- The keys whose parameters have a class of their own here. -/
def known : List ParamKey := [MANDATORY,ALPN,NO_DEFAULT_ALPN,IPV4HINT,ECH,IPV6HINT]
end ParamKey

structure MandatoryParam where
  keys : List ParamKey
  sorted : keys.Pairwise (· < ·)
  others : ParamKey.MANDATORY ∉ keys
  deriving DecidableEq, Repr

structure ALPNParam where
  ids : List (List UInt8)
  lengths : ∀ id ∈ ids, id ≠ [] ∧ id.length ≤ 255
  deriving DecidableEq, Repr

/-- The constructors of the two: keys are sorted, and neither twice nor MANDATORY itself. -/
def MandatoryParam.make (keys : List ParamKey) : Except PyException MandatoryParam :=
  let keys := keys.mergeSort fun a b => a ≤ b
  if h : keys.Pairwise (· < ·) ∧ ParamKey.MANDATORY ∉ keys then .ok ⟨keys,h.1,h.2⟩
  else .error (.valueError "duplicate key, or listed the mandatory key as mandatory")

def ALPNParam.make (ids : List (List UInt8)) : Except PyException ALPNParam :=
  if h : ∀ id ∈ ids, id ≠ [] ∧ id.length ≤ 255 then .ok ⟨ids,h⟩
  else .error (.valueError "too short or too long")

theorem MandatoryParam.make_sublist {keys : List ParamKey} {m : MandatoryParam}
    (h : keys.Sublist m.keys) :
    make keys = .ok ⟨keys,m.sorted.sublist h,fun hmem => m.others (h.subset hmem)⟩ := by
  have hsorted : keys.mergeSort (fun a b => a ≤ b) = keys := by
    refine List.mergeSort_of_pairwise ((m.sorted.sublist h).imp fun hlt => ?_)
    simpa using UInt16.le_of_lt hlt
  unfold make
  simp only [hsorted]
  exact dif_pos ⟨m.sorted.sublist h,fun hmem => m.others (h.subset hmem)⟩

theorem ALPNParam.make_subset {ids : List (List UInt8)} {a : ALPNParam} (h : ids ⊆ a.ids) :
    make ids = .ok ⟨ids,fun id hid => a.lengths id (h hid)⟩ :=
  dif_pos fun id hid => a.lengths id (h hid)

/-- A parameter with its key. -/
inductive SvcParam where
  | mandatory (param : MandatoryParam)
  | alpn (param : ALPNParam)
  | noDefaultAlpn
  | ipv4hint (addresses : List UInt32)
  | ech (ech : List UInt8)
  | ipv6hint (addresses : List (BitVec 128))
  | generic (key : ParamKey) (value : List UInt8) (plain : key ∉ ParamKey.known)
  deriving DecidableEq, Repr

def SvcParam.key : SvcParam → ParamKey
  | .mandatory _ => ParamKey.MANDATORY
  | .alpn _ => ParamKey.ALPN
  | .noDefaultAlpn => ParamKey.NO_DEFAULT_ALPN
  | .ipv4hint _ => ParamKey.IPV4HINT
  | .ech _ => ParamKey.ECH
  | .ipv6hint _ => ParamKey.IPV6HINT
  | .generic key _ _ => key

/-- The dictionary of parameters, in the order in which they are encoded. -/
structure SvcParams where
  entries : List SvcParam
  sorted : entries.Pairwise fun a b => a.key < b.key
  deriving DecidableEq, Repr

namespace SvcParams

def get (params : SvcParams) (key : ParamKey) : Option SvcParam :=
  Keyed.lookup SvcParam.key key params.entries

def has (params : SvcParams) (key : ParamKey) : Bool := (params.get key).isSome

/-- `params[param.key] = param`. -/
def set (params : SvcParams) (param : SvcParam) : SvcParams where
  entries := params.entries.filter (fun p => p.key < param.key) ++
    param :: params.entries.filter (fun p => param.key < p.key)
  sorted := by
    refine List.pairwise_append.mpr ⟨params.sorted.filter _,?_,?_⟩
    · refine List.pairwise_cons.mpr ⟨fun p hp => ?_,params.sorted.filter _⟩
      simpa using (List.mem_filter.mp hp).2
    · intro a ha b hb
      have hless : a.key < param.key := by simpa using (List.mem_filter.mp ha).2
      cases List.mem_cons.mp hb with
      | inl heq => rwa [heq]
      | inr hb =>
        have hgreater : param.key < b.key := by simpa using (List.mem_filter.mp hb).2
        exact UInt16.lt_trans hless hgreater

/-- `params.pop(key, None)`. -/
def pop (params : SvcParams) (key : ParamKey) : SvcParams where
  entries := params.entries.filter fun p => p.key ≠ key
  sorted := params.sorted.filter _

variable {params : SvcParams} {param p : SvcParam} {key : ParamKey}

theorem distinct (params : SvcParams) : Keyed.Distinct SvcParam.key params.entries := by
  refine List.pairwise_map.mpr (params.sorted.imp fun h => ?_)
  exact UInt16.ne_of_lt h

theorem get_some_iff : params.get key = some p ↔ p ∈ params.entries ∧ p.key = key := by
  constructor
  · intro h
    exact Keyed.lookup_some h
  · intro h
    obtain ⟨hmem,rfl⟩ := h
    obtain ⟨before,after,hsplit⟩ := List.append_of_mem hmem
    have hdistinct := params.distinct
    unfold get
    rw [hsplit] at hdistinct ⊢
    exact Keyed.lookup_middle hdistinct

theorem mem_set : p ∈ (params.set param).entries ↔
    p = param ∨ p ∈ params.entries ∧ p.key ≠ param.key := by
  have hne : p.key ≠ param.key ↔ p.key < param.key ∨ param.key < p.key := by
    constructor
    · exact UInt16.lt_or_lt_of_ne
    · intro h
      exact h.elim UInt16.ne_of_lt fun h => (UInt16.ne_of_lt h).symm
  simp only [set,List.mem_append,List.mem_cons,List.mem_filter,decide_eq_true_eq,hne]
  tauto

theorem get_set :
    (params.set param).get key = if key = param.key then some param else params.get key := by
  refine Option.ext fun p => ?_
  rw [get_some_iff,mem_set]
  split
  · rename_i hkey
    simp only [Option.some.injEq]
    constructor
    · intro h
      obtain ⟨rfl | ⟨_,hne⟩,hp⟩ := h
      · rfl
      · exact absurd (hp.trans hkey) hne
    · intro h
      exact ⟨.inl h.symm,by rw [← h,hkey]⟩
  · rename_i hkey
    rw [get_some_iff]
    constructor
    · intro h
      obtain ⟨rfl | ⟨hmem,_⟩,hp⟩ := h
      · exact absurd hp.symm hkey
      · exact ⟨hmem,hp⟩
    · intro h
      exact ⟨.inr ⟨h.1,by rw [h.2]; exact hkey⟩,h.2⟩

theorem get_pop {removed : ParamKey} :
    (params.pop removed).get key = if key = removed then none else params.get key := by
  refine Option.ext fun p => ?_
  rw [get_some_iff]
  simp only [pop,List.mem_filter,decide_eq_true_eq]
  split
  · rename_i hkey
    simp only [reduceCtorEq,iff_false]
    intro h
    exact h.1.2 (h.2.trans hkey)
  · rename_i hkey
    rw [get_some_iff]
    constructor
    · intro h
      exact ⟨h.1.1,h.2⟩
    · intro h
      exact ⟨⟨h.1,by rw [h.2]; exact hkey⟩,h.2⟩

/-- Parameters are what they have under each key. -/
theorem ext_get {others : SvcParams} (h : ∀ key, params.get key = others.get key) :
    params = others := by
  have hmem (p : SvcParam) : p ∈ params.entries ↔ p ∈ others.entries := by
    have hkey := h p.key
    constructor
    · intro hp
      rw [get_some_iff.mpr ⟨hp,rfl⟩] at hkey
      exact (get_some_iff.mp hkey.symm).1
    · intro hp
      rw [get_some_iff.mpr ⟨hp,rfl⟩] at hkey
      exact (get_some_iff.mp hkey).1
  have hperm : params.entries.Perm others.entries :=
    (List.perm_ext_iff_of_nodup params.distinct.of_map others.distinct.of_map).mpr hmem
  have hentries : params.entries = others.entries :=
    hperm.eq_of_pairwise (fun a b _ _ hab hba => absurd hba (UInt16.lt_asymm hab))
      params.sorted others.sorted
  cases params
  cases others
  cases hentries
  rfl

@[simp] theorem has_iff : params.has key = true ↔ ∃ p, params.get key = some p :=
  Option.isSome_iff_exists

/-- `params.get(ParamKey.MANDATORY)`. -/
def mandatory (params : SvcParams) : Option MandatoryParam :=
  match params.get ParamKey.MANDATORY with
  | some (.mandatory param) => some param
  | _ => none

/-- `params.get(ParamKey.ALPN)`. -/
def alpn (params : SvcParams) : Option ALPNParam :=
  match params.get ParamKey.ALPN with
  | some (.alpn param) => some param
  | _ => none

theorem mandatory_some_iff {m : MandatoryParam} :
    params.mandatory = some m ↔ params.get ParamKey.MANDATORY = some (.mandatory m) := by
  unfold mandatory
  cases h : params.get ParamKey.MANDATORY with
  | none => simp
  | some p => cases p <;> simp

theorem alpn_some_iff {a : ALPNParam} :
    params.alpn = some a ↔ params.get ParamKey.ALPN = some (.alpn a) := by
  unfold alpn
  cases h : params.get ParamKey.ALPN with
  | none => simp
  | some p => cases p <;> simp

@[simp] theorem set_mandatory (m : MandatoryParam) :
    (params.set (.mandatory m)).mandatory = some m :=
  mandatory_some_iff.mpr (by rw [get_set]; exact if_pos rfl)

@[simp] theorem set_alpn (a : ALPNParam) : (params.set (.alpn a)).alpn = some a :=
  alpn_some_iff.mpr (by rw [get_set]; exact if_pos rfl)

/-- The first key that is declared mandatory and not there. -/
def missing (params : SvcParams) : Option ParamKey :=
  match params.mandatory with
  | some m => m.keys.find? fun key => !params.has key
  | none => none

theorem missing_none_iff : params.missing = none ↔
    ∀ m, params.mandatory = some m → ∀ key ∈ m.keys, params.has key = true := by
  unfold missing
  cases params.mandatory with
  | none => simp
  | some m => simp [List.find?_eq_none]

end SvcParams

/-- `dns.rdtypes.IN.HTTPS.HTTPS`. -/
structure HttpsRdata where
  priority : UInt16
  target : Name
  params : SvcParams
  mandatory : params.missing = none
  alpn : params.has ParamKey.NO_DEFAULT_ALPN = true → params.has ParamKey.ALPN = true
  deriving DecidableEq, Repr

/-- The constructor, which `rdata.replace` calls as well. -/
def HttpsRdata.make (priority : UInt16) (target : Name) (params : SvcParams) :
    Except PyException HttpsRdata :=
  match hmissing : params.missing with
  | some key =>
    .error (.valueError ("key " ++ toString key ++ " declared mandatory but not present"))
  | none =>
    if halpn : params.has ParamKey.NO_DEFAULT_ALPN = true → params.has ParamKey.ALPN = true then
      .ok ⟨priority,target,params,hmissing,halpn⟩
    else .error (.valueError "no-default-alpn present, but alpn missing")

theorem HttpsRdata.make_ok {priority : UInt16} {target : Name} {params : SvcParams}
    (hmissing : params.missing = none)
    (halpn : params.has ParamKey.NO_DEFAULT_ALPN = true → params.has ParamKey.ALPN = true) :
    make priority target params = .ok ⟨priority,target,params,hmissing,halpn⟩ := by
  unfold make
  split
  · rename_i key hkey
    rw [hmissing] at hkey
    contradiction
  · rw [dif_pos halpn]

end SmartDns
