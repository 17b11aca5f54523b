import SmartDns.Dns.Svcb
set_option autoImplicit false

/-!
`https_plugin`: h3 and the address hints are taken out of HTTPS records, and what depends on
a parameter that goes with them as well.
-/

namespace SmartDns

namespace HttpsPlugin

open ParamKey (MANDATORY ALPN NO_DEFAULT_ALPN IPV4HINT IPV6HINT)

def h3AlpnId : List UInt8 := [0x68,0x33]

/-- The locals of `_sanitize_https_rdata`. -/
structure Sanitizing where
  params : SvcParams
  changed : Bool := false
  removedKeys : List ParamKey := []
  removedH3Ids : Nat := 0
  removedHintParams : Nat := 0

def filterAlpn (params : SvcParams) : Except PyException Sanitizing :=
  match params.alpn with
  | none => .ok { params }
  | some alpn =>
    let filteredIds := alpn.ids.filter fun item => item ≠ h3AlpnId
    if filteredIds = alpn.ids then .ok { params }
    else
      let removedH3Ids := alpn.ids.length - filteredIds.length
      if filteredIds ≠ [] then do
        let param ← ALPNParam.make filteredIds
        .ok { params := params.set (.alpn param), changed := true, removedH3Ids }
      else
        let params := params.pop ALPN
        if params.has NO_DEFAULT_ALPN then
          .ok
            { params := params.pop NO_DEFAULT_ALPN, changed := true
              removedKeys := [ALPN,NO_DEFAULT_ALPN], removedH3Ids }
        else .ok { params, changed := true, removedKeys := [ALPN], removedH3Ids }

def removeHint (s : Sanitizing) (hintKey : ParamKey) : Sanitizing :=
  if s.params.has hintKey then
    { s with
      params := s.params.pop hintKey
      removedKeys := s.removedKeys ++ [hintKey]
      changed := true
      removedHintParams := s.removedHintParams+1 }
  else s

def trimMandatory (s : Sanitizing) : Except PyException Sanitizing :=
  match s.params.mandatory with
  | none => .ok s
  | some mandatory =>
    if s.removedKeys = [] then .ok s
    else
      let remainingKeys := mandatory.keys.filter fun key => key ∉ s.removedKeys
      if remainingKeys = mandatory.keys then .ok s
      else if remainingKeys ≠ [] then do
        let param ← MandatoryParam.make remainingKeys
        .ok { s with params := s.params.set (.mandatory param), changed := true }
      else .ok { s with params := s.params.pop MANDATORY, changed := true }

/-- What `_sanitize_https_rdata` returns; `replaced` is none for the record itself. -/
structure Sanitized where
  replaced : Option HttpsRdata
  removedH3Ids : Nat
  removedHintParams : Nat

def sanitizeHttpsRdata (rdata : HttpsRdata) : Except PyException Sanitized := do
  let filtered ← filterAlpn rdata.params
  let s ← trimMandatory ([IPV4HINT,IPV6HINT].foldl removeHint filtered)
  if !s.changed then .ok ⟨none,0,0⟩
  else do
    let replaced ← HttpsRdata.make rdata.priority rdata.target s.params
    .ok ⟨some replaced,s.removedH3Ids,s.removedHintParams⟩

def alpnIds (params : SvcParams) : List (List UInt8) := (params.alpn.map ALPNParam.ids).getD []

def mandatoryKeys (params : SvcParams) : List ParamKey :=
  (params.mandatory.map MandatoryParam.keys).getD []

/-- All that the record has of ALPN ids is h3. -/
def OnlyH3 (params : SvcParams) : Prop :=
  ∃ a, params.alpn = some a ∧ a.ids ≠ [] ∧ ∀ id ∈ a.ids, id = h3AlpnId

/-- What becomes of the parameters of a record. -/
structure IsSanitized (params params' : SvcParams) : Prop where
  noH3 : h3AlpnId ∉ alpnIds params'
  noHints : params'.has IPV4HINT = false ∧ params'.has IPV6HINT = false
  mandatory : ∀ key ∈ mandatoryKeys params', params'.has key = true
  noDefaultAlpn : params'.has NO_DEFAULT_ALPN = true → params'.has ALPN = true
  alpnIds : alpnIds params' = (alpnIds params).filter fun id => id ≠ h3AlpnId
  alpn : params'.has ALPN = true ↔ params.has ALPN = true ∧ ¬ OnlyH3 params
  default : params'.has NO_DEFAULT_ALPN = true ↔
    params.has NO_DEFAULT_ALPN = true ∧ params'.has ALPN = true
  mandatoryKeys : mandatoryKeys params' = (mandatoryKeys params).filter fun key => params'.has key
  others : ∀ key ∉ [MANDATORY,ALPN,NO_DEFAULT_ALPN,IPV4HINT,IPV6HINT],
    params'.get key = params.get key

/-! ### The steps -/

/-- Where the work on the parameters stands once those with a key in `gone` are out. -/
structure Stage (original : SvcParams) (gone : ParamKey → Prop) (s : Sanitizing) : Prop where
  removed : ∀ key, key ∈ s.removedKeys ↔ original.has key = true ∧ gone key
  none_of_gone : ∀ key, gone key → s.params.get key = none
  kept : ∀ key, ¬ gone key → key ≠ ALPN → s.params.get key = original.get key
  alpnIds : alpnIds s.params = (alpnIds original).filter fun id => id ≠ h3AlpnId
  alpn : ¬ gone ALPN → s.params.has ALPN = original.has ALPN
  unchanged : s.changed = false → s.params = original ∧ s.removedKeys = []

def goneWithAlpn (original : SvcParams) (key : ParamKey) : Prop :=
  OnlyH3 original ∧ (key = ALPN ∨ key = NO_DEFAULT_ALPN)

variable {original params : SvcParams}

theorem alpnIds_some {a : ALPNParam} (h : params.alpn = some a) : alpnIds params = a.ids := by
  simp [alpnIds,h]

theorem alpnIds_none (h : params.alpn = none) : alpnIds params = [] := by
  simp [alpnIds,h]

theorem alpn_none (h : params.get ALPN = none) : params.alpn = none := by
  simp [SvcParams.alpn,h]

theorem has_false (key : ParamKey) : params.has key = false ↔ params.get key = none := by
  simp [SvcParams.has]

/-- Nothing is done where there is no h3. -/
theorem Stage.start
    (hclean : ∀ a, original.alpn = some a → a.ids.filter (fun id => id ≠ h3AlpnId) = a.ids) :
    Stage original (goneWithAlpn original) { params := original } := by
  have hnot : ¬ OnlyH3 original := by
    intro h
    obtain ⟨a,ha,hne,hall⟩ := h
    have hempty : a.ids.filter (fun id => id ≠ h3AlpnId) = [] := by
      simpa [List.filter_eq_nil_iff] using hall
    exact hne ((hclean a ha).symm.trans hempty)
  refine ⟨fun key => ?_,fun key h => absurd h.1 hnot,fun key _ _ => rfl,?_,fun _ => rfl,
    fun _ => ⟨rfl,rfl⟩⟩
  · simp [goneWithAlpn,hnot]
  · cases ha : original.alpn with
    | none => simp [alpnIds_none ha]
    | some a => rw [alpnIds_some ha,hclean a ha]

theorem Stage.emptied {s : Sanitizing} (honly : OnlyH3 original) (hchanged : s.changed = true)
    (hremoved : ∀ key, key ∈ s.removedKeys ↔
      original.has key = true ∧ (key = ALPN ∨ key = NO_DEFAULT_ALPN))
    (hget : ∀ key, s.params.get key =
      if key = ALPN ∨ key = NO_DEFAULT_ALPN then none else original.get key) :
    Stage original (goneWithAlpn original) s := by
  refine ⟨fun key => ?_,fun key h => ?_,fun key h hkey => ?_,?_,fun h => ?_,fun h => ?_⟩
  · rw [hremoved key]
    simp [goneWithAlpn,honly]
  · rw [hget key,if_pos h.2]
  · rw [hget key,if_neg fun hgone => h ⟨honly,hgone⟩]
  · obtain ⟨a,ha,_,hall⟩ := honly
    rw [alpnIds_some ha,alpnIds_none (alpn_none (by rw [hget ALPN]; exact if_pos (.inl rfl)))]
    exact (List.filter_eq_nil_iff.mpr (by simpa using hall)).symm
  · exact absurd ⟨honly,.inl rfl⟩ h
  · rw [hchanged] at h
    contradiction

theorem filterAlpn_stage (original : SvcParams) :
    ∃ s, filterAlpn original = .ok s ∧ Stage original (goneWithAlpn original) s := by
  unfold filterAlpn
  cases ha : original.alpn with
  | none =>
    exact ⟨_,rfl,Stage.start fun a h => by rw [ha] at h; contradiction⟩
  | some a =>
    simp only []
    split
    · rename_i hclean
      refine ⟨_,rfl,Stage.start fun b hb => ?_⟩
      rw [ha] at hb
      cases hb
      exact hclean
    · rename_i hdirty
      have hget := SvcParams.alpn_some_iff.mp ha
      have hhas : original.has ALPN = true := by simp [SvcParams.has,hget]
      split
      · rename_i hsome
        have hnot : ¬ OnlyH3 original := by
          intro h
          obtain ⟨b,hb,_,hall⟩ := h
          rw [ha] at hb
          cases hb
          exact hsome (by simpa [List.filter_eq_nil_iff] using hall)
        rw [ALPNParam.make_subset (List.filter_sublist.subset)]
        refine ⟨_,rfl,fun key => ?_,fun key h => absurd h.1 hnot,fun key _ hkey => ?_,?_,?_,?_⟩
        · simp [goneWithAlpn,hnot]
        · simp [SvcParams.get_set,SvcParam.key,hkey]
        · rw [alpnIds_some ha,alpnIds_some (SvcParams.set_alpn _)]
        · intro _
          rw [hhas]
          simp [SvcParams.has,SvcParams.get_set,SvcParam.key]
        · intro h
          cases h
      · rename_i hnone
        rw [not_not] at hnone
        have honly : OnlyH3 original := by
          refine ⟨a,ha,fun hnil => hdirty (by rw [hnil]; rfl),?_⟩
          simpa [List.filter_eq_nil_iff] using hnone
        split
        · rename_i hdefault
          have hdefault' : original.has NO_DEFAULT_ALPN = true := by
            simpa [SvcParams.has,SvcParams.get_pop,ALPN,NO_DEFAULT_ALPN] using hdefault
          refine ⟨_,rfl,Stage.emptied honly rfl (fun key => ?_) fun key => ?_⟩
          · constructor
            · intro h
              obtain rfl | rfl : key = ALPN ∨ key = NO_DEFAULT_ALPN := by simpa using h
              · exact ⟨hhas,.inl rfl⟩
              · exact ⟨hdefault',.inr rfl⟩
            · intro h
              simpa using h.2
          · simp only [SvcParams.get_pop]
            split
            · rename_i hkey
              simp [hkey]
            · rename_i hkey
              simp [hkey]
        · rename_i hdefault
          have hdefault' : original.get NO_DEFAULT_ALPN = none := by
            simpa [SvcParams.has,SvcParams.get_pop,ALPN,NO_DEFAULT_ALPN] using hdefault
          refine ⟨_,rfl,Stage.emptied honly rfl (fun key => ?_) fun key => ?_⟩
          · constructor
            · intro h
              rw [List.mem_singleton.mp h]
              exact ⟨hhas,.inl rfl⟩
            · intro h
              obtain ⟨h,rfl | rfl⟩ := h
              · exact List.mem_singleton_self _
              · rw [(has_false _).mpr hdefault'] at h
                contradiction
          · simp only [SvcParams.get_pop]
            split
            · rename_i hkey
              simp [hkey]
            · rename_i hkey
              by_cases hdefaultKey : key = NO_DEFAULT_ALPN
              · simp [hdefaultKey,hdefault']
              · simp [hkey,hdefaultKey]

theorem Stage.removeHint {gone : ParamKey → Prop} {s : Sanitizing} (h : Stage original gone s)
    {hintKey : ParamKey} (hnew : ¬ gone hintKey) (hne : hintKey ≠ ALPN) :
    Stage original (fun key => gone key ∨ key = hintKey) (removeHint s hintKey) := by
  have hhint := h.kept hintKey hnew hne
  have halpn : s.params.alpn = (s.params.pop hintKey).alpn := by
    simp [SvcParams.alpn,SvcParams.get_pop,Ne.symm hne]
  unfold HttpsPlugin.removeHint
  split
  · rename_i hhas
    refine ⟨fun key => ?_,fun key hkey => ?_,fun key hkey halpnKey => ?_,?_,fun hkept => ?_,?_⟩
    · rw [List.mem_append,List.mem_singleton,h.removed key]
      constructor
      · intro hkey
        obtain ⟨hhas,hgone⟩ | rfl := hkey
        · exact ⟨hhas,.inl hgone⟩
        · exact ⟨by rwa [SvcParams.has,← hhint],.inr rfl⟩
      · intro hkey
        obtain ⟨hhas,hgone | rfl⟩ := hkey
        · exact .inl ⟨hhas,hgone⟩
        · exact .inr rfl
    · rw [SvcParams.get_pop]
      split
      · rfl
      · rename_i hother
        exact h.none_of_gone key (hkey.resolve_right hother)
    · rw [not_or] at hkey
      rw [SvcParams.get_pop,if_neg hkey.2]
      exact h.kept key hkey.1 halpnKey
    · rw [← h.alpnIds]
      simp only [HttpsPlugin.alpnIds,← halpn]
    · rw [not_or] at hkept
      rw [← h.alpn hkept.1]
      simp [SvcParams.has,SvcParams.get_pop,Ne.symm hne]
    · intro hchanged
      cases hchanged
  · rename_i hhas
    have hnone : original.get hintKey = none := by
      rw [← hhint]
      exact (has_false _).mp (Bool.eq_false_iff.mpr hhas)
    refine ⟨fun key => ?_,fun key hkey => ?_,fun key hkey => ?_,h.alpnIds,fun hkept => ?_,
      h.unchanged⟩
    · rw [h.removed key]
      constructor
      · intro hkey
        exact ⟨hkey.1,.inl hkey.2⟩
      · intro hkey
        obtain ⟨hin,hgone | rfl⟩ := hkey
        · exact ⟨hin,hgone⟩
        · rw [(has_false _).mpr hnone] at hin
          contradiction
    · obtain hgone | rfl := hkey
      · exact h.none_of_gone key hgone
      · rw [hhint,hnone]
    · exact h.kept key fun hgone => hkey (.inl hgone)
    · exact h.alpn fun hgone => hkept (.inl hgone)

theorem mandatoryKeys_some {m : MandatoryParam} (h : params.mandatory = some m) :
    mandatoryKeys params = m.keys := by
  simp [mandatoryKeys,h]

/-- Only the list of mandatory keys is worked on, and it loses the removed keys. -/
theorem trimMandatory_ok (s : Sanitizing) :
    ∃ t, trimMandatory s = .ok t ∧
      (∀ key, key ≠ MANDATORY → t.params.get key = s.params.get key) ∧
      mandatoryKeys t.params = (mandatoryKeys s.params).filter (fun key => key ∉ s.removedKeys) ∧
      (t.changed = false → t = s) := by
  unfold trimMandatory
  cases hm : s.params.mandatory with
  | none => exact ⟨s,rfl,fun _ _ => rfl,by simp [mandatoryKeys,hm],fun _ => rfl⟩
  | some m =>
    simp only []
    rw [mandatoryKeys_some hm]
    split
    · rename_i hnothing
      exact ⟨s,rfl,fun _ _ => rfl,by simp [mandatoryKeys_some hm,hnothing],fun _ => rfl⟩
    · split
      · rename_i hsame
        exact ⟨s,rfl,fun _ _ => rfl,by rw [hsame,mandatoryKeys_some hm],fun _ => rfl⟩
      · split
        · rw [MandatoryParam.make_sublist List.filter_sublist]
          refine ⟨_,rfl,fun key hkey => ?_,?_,fun hchanged => ?_⟩
          · simp [SvcParams.get_set,SvcParam.key,hkey]
          · exact mandatoryKeys_some (SvcParams.set_mandatory _)
          · cases hchanged
        · rename_i hnone
          rw [not_not] at hnone
          refine ⟨_,rfl,fun key hkey => ?_,?_,fun hchanged => ?_⟩
          · simp [SvcParams.get_pop,hkey]
          · rw [hnone]
            simp [mandatoryKeys,SvcParams.mandatory,SvcParams.get_pop]
          · cases hchanged

theorem goneWithAlpn_hint {key : ParamKey} (h : key = IPV4HINT ∨ key = IPV6HINT ∨ key = MANDATORY) :
    ¬ goneWithAlpn original key := by
  intro hgone
  obtain ⟨_,rfl | rfl⟩ := hgone
  · revert h
    decide
  · revert h
    decide

/-- The keys that go: the hints, and with the last ALPN id the ALPN parameters. -/
def goneFrom (original : SvcParams) (key : ParamKey) : Prop :=
  (goneWithAlpn original key ∨ key = IPV4HINT) ∨ key = IPV6HINT

theorem has_congr {key : ParamKey} (h : params.get key = original.get key) :
    params.has key = original.has key := by
  rw [SvcParams.has,SvcParams.has,h]

theorem Stage.has_iff {s : Sanitizing} (h : Stage original (goneFrom original) s) (key : ParamKey) :
    s.params.has key = true ↔ original.has key = true ∧ ¬ goneFrom original key := by
  by_cases hgone : goneFrom original key
  · simp [(has_false _).mpr (h.none_of_gone key hgone),hgone]
  · by_cases halpn : key = ALPN
    · rw [halpn] at hgone ⊢
      rw [h.alpn hgone]
      simp [hgone]
    · rw [has_congr (h.kept key hgone halpn)]
      simp [hgone]

theorem IsSanitized.of_stage {r : HttpsRdata} {s : Sanitizing} {params' : SvcParams}
    (h : Stage r.params (goneFrom r.params) s)
    (hothers : ∀ key, key ≠ MANDATORY → params'.get key = s.params.get key)
    (hkeys : HttpsPlugin.mandatoryKeys params' =
      (HttpsPlugin.mandatoryKeys s.params).filter fun key => key ∉ s.removedKeys) :
    IsSanitized r.params params' := by
  have hhas (key : ParamKey) (hkey : key ≠ MANDATORY) :
      params'.has key = true ↔ r.params.has key = true ∧ ¬ goneFrom r.params key := by
    rw [has_congr (hothers key hkey)]
    exact h.has_iff key
  have halpn : params'.alpn = s.params.alpn := by
    simp [SvcParams.alpn,hothers ALPN (by decide)]
  have hids : HttpsPlugin.alpnIds params' = HttpsPlugin.alpnIds s.params := by
    simp only [HttpsPlugin.alpnIds,halpn]
  have hgoneAlpn : goneFrom r.params ALPN ↔ OnlyH3 r.params := by
    simp [goneFrom,goneWithAlpn,ALPN,IPV4HINT,IPV6HINT]
  have hgoneDefault : goneFrom r.params NO_DEFAULT_ALPN ↔ OnlyH3 r.params := by
    simp [goneFrom,goneWithAlpn,NO_DEFAULT_ALPN,IPV4HINT,IPV6HINT]
  have hdefault : params'.has NO_DEFAULT_ALPN = true ↔
      r.params.has NO_DEFAULT_ALPN = true ∧ params'.has ALPN = true := by
    rw [hhas _ (by decide),hhas _ (by decide),hgoneAlpn,hgoneDefault]
    constructor
    · intro hin
      exact ⟨hin.1,r.alpn hin.1,hin.2⟩
    · intro hin
      exact ⟨hin.1,hin.2.2⟩
  have hmandatory : HttpsPlugin.mandatoryKeys params' =
      (HttpsPlugin.mandatoryKeys r.params).filter fun key => params'.has key := by
    have hsame : s.params.mandatory = r.params.mandatory := by
      have hget := h.kept MANDATORY
        (by simp [goneFrom,goneWithAlpn,MANDATORY,ALPN,NO_DEFAULT_ALPN,IPV4HINT,IPV6HINT])
        (by decide)
      simp only [SvcParams.mandatory,hget]
    rw [hkeys]
    unfold HttpsPlugin.mandatoryKeys
    rw [hsame]
    cases hm : r.params.mandatory with
    | none => rfl
    | some m =>
      refine List.filter_congr fun key hkey => ?_
      have hpresent := SvcParams.missing_none_iff.mp r.mandatory m hm key hkey
      have hne : key ≠ MANDATORY := fun heq => m.others (heq ▸ hkey)
      rw [Bool.eq_iff_iff,decide_eq_true_eq,h.removed key,hhas key hne]
      simp [hpresent]
  refine ⟨?_,⟨?_,?_⟩,?_,fun hin => (hdefault.mp hin).2,?_,?_,hdefault,hmandatory,?_⟩
  · rw [hids,h.alpnIds]
    simp
  · rw [Bool.eq_false_iff,ne_eq,hhas _ (by decide)]
    simp [goneFrom]
  · rw [Bool.eq_false_iff,ne_eq,hhas _ (by decide)]
    simp [goneFrom]
  · intro key hkey
    rw [hmandatory] at hkey
    exact (List.mem_filter.mp hkey).2
  · rw [hids,h.alpnIds]
  · rw [hhas _ (by decide),hgoneAlpn]
  · intro key hkey
    simp only [List.mem_cons,List.not_mem_nil,or_false,not_or] at hkey
    obtain ⟨hm,ha,hd,h4,h6⟩ := hkey
    rw [hothers key hm]
    exact h.kept key (by simp [goneFrom,goneWithAlpn,ha,hd,h4,h6]) ha

/-- A record without h3 and hints is left alone. -/
theorem sanitizeHttpsRdata_clean {r : HttpsRdata} (halpn : h3AlpnId ∉ alpnIds r.params)
    (hhints : r.params.has IPV4HINT = false ∧ r.params.has IPV6HINT = false) :
    sanitizeHttpsRdata r = .ok ⟨none,0,0⟩ := by
  have hfiltered : filterAlpn r.params = .ok { params := r.params } := by
    unfold filterAlpn
    cases ha : r.params.alpn with
    | none => rfl
    | some a =>
      rw [alpnIds_some ha] at halpn
      have hsame : a.ids.filter (fun item => item ≠ h3AlpnId) = a.ids := by
        refine List.filter_eq_self.mpr fun id hid => ?_
        have hne : id ≠ h3AlpnId := fun h => halpn (h ▸ hid)
        simpa using hne
      simp only [hsame,if_true]
  have hunhinted : [IPV4HINT,IPV6HINT].foldl removeHint { params := r.params } =
      { params := r.params } := by
    simp [removeHint,hhints.1,hhints.2]
  have htrimmed : trimMandatory { params := r.params } = .ok { params := r.params } := by
    unfold trimMandatory
    cases hm : r.params.mandatory with
    | none => rfl
    | some m => rfl
  unfold sanitizeHttpsRdata
  rw [hfiltered]
  simp only [bind,Except.bind,hunhinted,htrimmed]
  rfl

/-- A sanitised record is valid, has lost what it should and nothing else, and is not changed
again. -/
theorem sanitizeHttpsRdata_sanitizes (r : HttpsRdata) :
    ∃ s, sanitizeHttpsRdata r = .ok s ∧
      (s.replaced.getD r).priority = r.priority ∧ (s.replaced.getD r).target = r.target ∧
      IsSanitized r.params (s.replaced.getD r).params ∧
      sanitizeHttpsRdata (s.replaced.getD r) = .ok ⟨none,0,0⟩ := by
  obtain ⟨f,hf,hfiltered⟩ := filterAlpn_stage r.params
  have hipv4 := hfiltered.removeHint (goneWithAlpn_hint (.inl rfl)) (by decide)
  have hipv6 := hipv4.removeHint
    (fun h => h.elim (goneWithAlpn_hint (.inr (.inl rfl))) (by decide)) (by decide)
  obtain ⟨t,ht,hothers,hkeys,hkept⟩ :=
    trimMandatory_ok (removeHint (removeHint f IPV4HINT) IPV6HINT)
  have hsanitized := IsSanitized.of_stage hipv6 hothers hkeys
  have hmissing : t.params.missing = none := SvcParams.missing_none_iff.mpr fun m hm key hkey =>
    hsanitized.mandatory key (by rw [mandatoryKeys_some hm]; exact hkey)
  have hrun : sanitizeHttpsRdata r =
      if !t.changed then .ok ⟨none,0,0⟩
      else .ok ⟨some ⟨r.priority,r.target,t.params,hmissing,hsanitized.noDefaultAlpn⟩,
        t.removedH3Ids,t.removedHintParams⟩ := by
    unfold sanitizeHttpsRdata
    rw [hf]
    simp only [bind,Except.bind,List.foldl_cons,List.foldl_nil,ht,
      HttpsRdata.make_ok hmissing hsanitized.noDefaultAlpn]
  cases hchanged : t.changed with
  | false =>
    have hlast := hkept hchanged
    rw [hlast] at hchanged
    have hsame : t.params = r.params := by
      rw [hlast]
      exact (hipv6.unchanged hchanged).1
    rw [← hlast] at hchanged
    rw [hsame] at hsanitized
    rw [hchanged] at hrun
    exact ⟨_,hrun,rfl,rfl,hsanitized,sanitizeHttpsRdata_clean hsanitized.noH3 hsanitized.noHints⟩
  | true =>
    rw [hchanged] at hrun
    exact ⟨_,hrun,rfl,rfl,hsanitized,sanitizeHttpsRdata_clean hsanitized.noH3 hsanitized.noHints⟩

end HttpsPlugin

end SmartDns
