import SmartDns.Pipeline.Finalize
import SmartDns.Plugin.Hooks
set_option autoImplicit false

/-!
`cloudflare_ech_plugin`: the records of a HTTPS answer in service mode get the ECH bytes of
Cloudflare, and an answer without a record gets one. What the two subqueries of the hook give is
taken as given.
-/

namespace SmartDns

namespace CloudflareEchPlugin

open ParamKey (ECH)

structure CloudflareEchPluginConfig where
  matchTags : List String := []
  excludeTags : List String := []
  skipTags : List String := []

/-- `HTTPS_PARAM_KEY.ECH in rdata.params`. -/
def hasEch : Rdata → Except PyException Bool
  | .https record => .ok (record.params.has ECH)
  | _ => .error (attributeError "params")

def anyEch : List Rdata → Except PyException Bool
  | [] => .ok false
  | rdata :: rest => do
    if ← hasEch rdata then .ok true else anyEch rest

def hasAnyEch (answer : Answer) : Except PyException Bool :=
  match answer.rrset with
  | none => .ok false
  | some rrset => anyEch rrset.items

/-- The checks of `_get_https_answer`. -/
def httpsAnswer (answer : Answer) : Option Answer :=
  if answer.response.rcode ≠ Rcode.NOERROR then none
  else if answer.rdtype ≠ RdataType.HTTPS then none
  else
    match answer.rrset with
    | none => some answer
    | some rrset => if rrset.rdtype ≠ RdataType.HTTPS then none else some answer

/-! ### The injection -/

/-- The locals of the loop. -/
structure Injecting where
  updatedRdatas : List Rdata := []
  changed : Bool := false
  updatedCount : ℕ := 0

def Injecting.keep (s : Injecting) (rdata : Rdata) : Injecting :=
  { s with updatedRdatas := s.updatedRdatas ++ [rdata] }

/-- A record without a priority counts as one in alias mode. -/
def injectRecord (echBytes : List UInt8) (s : Injecting) (rdata : Rdata) :
    Except PyException Injecting :=
  match rdata with
  | .https record =>
    if record.priority = 0 ∨ record.params.has ECH = true then .ok (s.keep rdata)
    else do
      let replaced ← HttpsRdata.make record.priority record.target
        (record.params.set (.ech echBytes))
      .ok
        { updatedRdatas := s.updatedRdatas ++ [.https replaced]
          changed := true
          updatedCount := s.updatedCount+1 }
  | _ => .ok (s.keep rdata)

/-- The record that `1 . ech="..."` stands for. -/
def serviceModeRecord (echBytes : List UInt8) : HttpsRdata where
  priority := 1
  target := ⟨[]⟩
  params := { entries := [.ech echBytes], sorted := List.pairwise_singleton _ _ }
  mandatory := rfl
  alpn := by intro h; exact h

def buildServiceModeRRset (name : Name) (ttl : ℕ) (echBytes : List UInt8) :
    Except PyException RRset :=
  RRset.fromRdataList name RdataClass.IN (max ttl 1) [.https (serviceModeRecord echBytes)]

def injectEch (echBytes : List UInt8) (ttl : ℕ) : Exec PyException Answer ℕ := do
  let answer ← Exec.get
  match answer.rrset with
  | none =>
    let rrset ← Exec.ofExcept (buildServiceModeRRset answer.qname ttl echBytes)
    Exec.modify fun answer => { answer with rrset := some rrset }
    pure 1
  | some rrset =>
    let s ← Exec.ofExcept (rrset.items.foldlM (injectRecord echBytes) {})
    if s.changed then
      let replaced ← Exec.ofExcept
        (RRset.fromRdataList rrset.name rrset.rdclass rrset.ttl s.updatedRdatas)
      Exec.modify fun answer => { answer with rrset := some replaced }
      pure s.updatedCount
    else pure s.updatedCount

/-! ### The hook -/

section
variable {E W : Type} (codec : Codec W) (now : ℚ)

/-- What it builds stays in the context. -/
def getHttpsAnswer : Exec PyException (RequestContext E) (Option Answer) := do
  let context ← Exec.get
  match context.finalAnswer with
  | some answer => pure (httpsAnswer answer)
  | none =>
    match context.finalResponse with
    | none => pure none
    | some response =>
      if response.rcode ≠ Rcode.NOERROR then pure none
      else
        let answer ← Exec.ofExcept (buildAnswerFromResponse codec now context.request response)
        Exec.modify fun context => { context with finalAnswer := some answer }
        pure (httpsAnswer answer)

def baseTags (context : RequestContext E) : Finset String :=
  match context.upstreamResults.getLast? with
  | some result => result.tags
  | none => context.tags

/-- Whether the tags ask for an injection. The tags of the addresses come from a subquery, which
is made where the others leave it open. -/
def wantsEch (config : CloudflareEchPluginConfig)
    (addressTags : Except PyException (Finset String)) (tags : Finset String) :
    Except PyException Bool :=
  if hasAnyTag tags config.excludeTags then .ok false
  else if hasAnyTag tags config.matchTags then .ok true
  else if TagPlugin.hasHintTag ∈ tags then .ok false
  else do
    let subqueryTags ← addressTags
    if hasAnyTag subqueryTags config.excludeTags then .ok false
    else .ok (hasAnyTag subqueryTags config.matchTags)

/-- `on_response`; the payload is what the subquery for the ECH of Cloudflare gives. -/
def onResponse (config : CloudflareEchPluginConfig)
    (addressTags : Except PyException (Finset String)) (echPayload : Option (List UInt8 × ℕ)) :
    Exec PyException (RequestContext E) Unit := do
  let context ← Exec.get
  let question ← Exec.ofExcept (firstQuestion context.request)
  if question.rdtype ≠ RdataType.HTTPS then pure ()
  else if hasAnyTag context.tags config.skipTags then pure ()
  else
    let found ← getHttpsAnswer codec now
    match found with
    | none => pure ()
    | some answer =>
      let present ← Exec.ofExcept (hasAnyEch answer)
      if present then pure ()
      else
        let wanted ← Exec.ofExcept (wantsEch config addressTags (baseTags context))
        match wanted, echPayload with
        | true, some (echBytes,ttl) =>
          let _ ← Exec.within (fun _ => answer)
            (fun answer context => { context with finalAnswer := some answer })
            (injectEch echBytes ttl)
          pure ()
        | _, _ => pure ()

end

/-! ### What is injected -/

theorem get_set_ech (params : SvcParams) (echBytes : List UInt8) (key : ParamKey) :
    (params.set (.ech echBytes)).get key =
      if key = ECH then some (.ech echBytes) else params.get key :=
  SvcParams.get_set

theorem missing_set_ech (params : SvcParams) (echBytes : List UInt8) (h : params.missing = none) :
    (params.set (.ech echBytes)).missing = none := by
  rw [SvcParams.missing_none_iff] at h ⊢
  intro m hm key hkey
  have hsame : (params.set (.ech echBytes)).get ParamKey.MANDATORY =
      params.get ParamKey.MANDATORY := by
    rw [get_set_ech]
    exact if_neg (by decide)
  rw [SvcParams.mandatory_some_iff,hsame,← SvcParams.mandatory_some_iff] at hm
  obtain ⟨p,hp⟩ := SvcParams.has_iff.mp (h m hm key hkey)
  rw [SvcParams.has_iff,get_set_ech]
  split
  · exact ⟨_,rfl⟩
  · exact ⟨p,hp⟩

theorem has_set_ech (params : SvcParams) (echBytes : List UInt8) {key : ParamKey} (h : key ≠ ECH) :
    (params.set (.ech echBytes)).has key = params.has key := by
  unfold SvcParams.has
  rw [get_set_ech,if_neg h]

/-- A record with the ECH bytes. -/
def withEch (echBytes : List UInt8) (record : HttpsRdata) : HttpsRdata where
  priority := record.priority
  target := record.target
  params := record.params.set (.ech echBytes)
  mandatory := missing_set_ech record.params echBytes record.mandatory
  alpn := by
    rw [has_set_ech _ _ (by decide),has_set_ech _ _ (by decide)]
    exact record.alpn

@[simp] theorem withEch_priority (echBytes : List UInt8) (record : HttpsRdata) :
    (withEch echBytes record).priority = record.priority := rfl
@[simp] theorem withEch_target (echBytes : List UInt8) (record : HttpsRdata) :
    (withEch echBytes record).target = record.target := rfl
@[simp] theorem withEch_get (echBytes : List UInt8) (record : HttpsRdata) (key : ParamKey) :
    (withEch echBytes record).params.get key =
      if key = ECH then some (.ech echBytes) else record.params.get key :=
  get_set_ech record.params echBytes key

/-- What the injection makes of a record without ECH. -/
def injected (echBytes : List UInt8) : Rdata → Rdata
  | .https record => .https (if record.priority = 0 then record else withEch echBytes record)
  | rdata => rdata

/-- A HTTPS record without ECH. -/
def Bare (rdata : Rdata) : Prop := ∃ record, rdata = .https record ∧ record.params.get ECH = none

def ServiceMode (rdata : Rdata) : Prop := ∃ record, rdata = .https record ∧ record.priority ≠ 0

theorem anyEch_false {l : List Rdata} (h : anyEch l = .ok false) : ∀ rdata ∈ l, Bare rdata := by
  induction l with
  | nil => simp
  | cons rdata rest ih =>
    unfold anyEch at h
    cases rdata with
    | https record =>
      simp only [hasEch,bind,Except.bind] at h
      split at h
      · contradiction
      · rename_i hech
        have hnone : record.params.get ECH = none := by
          simpa [SvcParams.has] using hech
        intro other hother
        obtain rfl | hother := List.mem_cons.mp hother
        · exact ⟨record,rfl,hnone⟩
        · exact ih h other hother
    | _ => simp [hasEch,bind,Except.bind] at h

theorem withEch_inj {echBytes : List UInt8} {record other : HttpsRdata}
    (h : withEch echBytes record = withEch echBytes other) (hrecord : record.params.get ECH = none)
    (hother : other.params.get ECH = none) : record = other := by
  have hpriority := congrArg HttpsRdata.priority h
  have htarget := congrArg HttpsRdata.target h
  have hparams : record.params = other.params := by
    refine SvcParams.ext_get fun key => ?_
    by_cases hkey : key = ECH
    · rw [hkey,hrecord,hother]
    · have hget := congrArg (fun r => r.params.get key) h
      simpa [hkey] using hget
  cases record
  cases other
  cases hpriority
  cases htarget
  cases hparams
  rfl

theorem injected_inj {echBytes : List UInt8} {rdata other : Rdata}
    (h : injected echBytes rdata = injected echBytes other) (hrdata : Bare rdata)
    (hother : Bare other) : rdata = other := by
  obtain ⟨record,rfl,hrecord⟩ := hrdata
  obtain ⟨record',rfl,hrecord'⟩ := hother
  have heq := Rdata.https.inj h
  split at heq
  · rename_i halias
    split at heq
    · rw [heq]
    · rename_i hservice
      exact absurd (by rw [heq] at halias; exact halias) hservice
  · rename_i hservice
    split at heq
    · rename_i halias
      exact absurd (by rw [← heq] at halias; exact halias) hservice
    · rw [withEch_inj heq hrecord hrecord']

theorem injectRecord_run (echBytes : List UInt8) (s : Injecting) {rdata : Rdata} (h : Bare rdata) :
    ∃ s', injectRecord echBytes s rdata = .ok s' ∧
      s'.updatedRdatas = s.updatedRdatas ++ [injected echBytes rdata] ∧
      (s'.changed = true ↔ s.changed = true ∨ ServiceMode rdata) := by
  obtain ⟨record,rfl,hnone⟩ := h
  have hhas : record.params.has ECH = false := by simp [SvcParams.has,hnone]
  have hmake : HttpsRdata.make record.priority record.target (record.params.set (.ech echBytes)) =
      .ok (withEch echBytes record) :=
    HttpsRdata.make_ok (withEch echBytes record).mandatory (withEch echBytes record).alpn
  by_cases hpriority : record.priority = 0
  · refine ⟨s.keep (.https record),if_pos (.inl hpriority),?_,?_⟩
    · simp [Injecting.keep,injected,hpriority]
    · simp [Injecting.keep,ServiceMode,hpriority]
  · have hrun : injectRecord echBytes s (.https record) = .ok
        { updatedRdatas := s.updatedRdatas ++ [.https (withEch echBytes record)], changed := true
          updatedCount := s.updatedCount+1 } := by
      refine (if_neg (by simp [hpriority,hhas])).trans ?_
      rw [hmake]
      rfl
    refine ⟨_,hrun,?_,?_⟩
    · simp [injected,hpriority]
    · simp [ServiceMode,hpriority]

theorem injectRecords_run (echBytes : List UInt8) {l : List Rdata} (h : ∀ rdata ∈ l, Bare rdata)
    (s : Injecting) : ∃ s', l.foldlM (injectRecord echBytes) s = .ok s' ∧
      s'.updatedRdatas = s.updatedRdatas ++ l.map (injected echBytes) ∧
      (s'.changed = true ↔ s.changed = true ∨ ∃ rdata ∈ l, ServiceMode rdata) := by
  induction l generalizing s with
  | nil => exact ⟨s,rfl,by simp,by simp⟩
  | cons rdata rest ih =>
    obtain ⟨s₁,hrun,hrdatas,hchanged⟩ := injectRecord_run echBytes s
      (h rdata List.mem_cons_self)
    obtain ⟨s₂,hrest,hrdatas',hchanged'⟩ := ih (fun r hr => h r (List.mem_cons_of_mem _ hr)) s₁
    refine ⟨s₂,?_,?_,?_⟩
    · rw [List.foldlM_cons,hrun]
      exact hrest
    · rw [hrdatas',hrdatas]
      simp
    · rw [hchanged',hchanged]
      simp [or_assoc]

/-- The rrset that an injection leaves in an answer. -/
structure IsInjected (echBytes : List UInt8) (ttl : ℕ) (answer : Answer) (new : RRset) : Prop where
  rdtype : new.rdtype = RdataType.HTTPS
  present : ∀ r, answer.rrset = some r → new.name = r.name ∧ new.rdclass = r.rdclass ∧
    new.ttl = r.ttl ∧ new.items = r.items.map (injected echBytes)
  absent : answer.rrset = none → new.name = answer.qname ∧ new.rdclass = RdataClass.IN ∧
    new.ttl = max ttl 1 ∧ new.items = [.https (serviceModeRecord echBytes)]

/-- The checks of `_get_https_answer` and `_has_any_ech`, and that there is something to inject. -/
structure Injectable (answer : Answer) : Prop where
  https : httpsAnswer answer = some answer
  clear : hasAnyEch answer = .ok false
  updates : ∀ r, answer.rrset = some r → ∃ rdata ∈ r.items, ServiceMode rdata

variable {echBytes : List UInt8} {ttl : ℕ} {a : Answer} {r new : RRset}

theorem httpsAnswer_some (h : httpsAnswer a = some a) : a.response.rcode = Rcode.NOERROR ∧
    a.rdtype = RdataType.HTTPS ∧ ∀ r, a.rrset = some r → r.rdtype = RdataType.HTTPS := by
  unfold httpsAnswer at h
  split at h
  · contradiction
  · rename_i hrcode
    split at h
    · contradiction
    · rename_i htype
      refine ⟨not_not.mp hrcode,not_not.mp htype,fun r hr => ?_⟩
      rw [hr] at h
      simp only [] at h
      split at h
      · contradiction
      · rename_i hrrset
        exact not_not.mp hrrset

theorem Injectable.bare (h : Injectable a) (hr : a.rrset = some r) :
    ∀ rdata ∈ r.items, Bare rdata := by
  have hclear := h.clear
  unfold hasAnyEch at hclear
  rw [hr] at hclear
  exact anyEch_false hclear

theorem injected_rdtype {rdata : Rdata} (h : Bare rdata) :
    (injected echBytes rdata).rdtype = RdataType.HTTPS := by
  obtain ⟨record,rfl,_⟩ := h
  rfl

theorem injected_canon {rdata : Rdata} (h : Bare rdata) :
    (injected echBytes rdata).canon = injected echBytes rdata := by
  obtain ⟨record,rfl,_⟩ := h
  rfl

theorem Bare.canon {rdata : Rdata} (h : Bare rdata) : rdata.canon = rdata := by
  obtain ⟨record,rfl,_⟩ := h
  rfl

/-- Records that differ still do with the ECH bytes in them. -/
theorem injected_distinct {l : List Rdata} (hbare : ∀ rdata ∈ l, Bare rdata)
    (h : Keyed.Distinct Rdata.canon l) :
    Keyed.Distinct Rdata.canon (l.map (injected echBytes)) := by
  unfold Keyed.Distinct at *
  rw [List.map_congr_left fun rdata hrdata => (hbare rdata hrdata).canon,List.map_id''] at h
  · rw [List.map_map]
    refine (List.nodup_map_iff_inj_on h).mpr fun rdata hrdata other hother heq => ?_
    have hsame : injected echBytes rdata = injected echBytes other := by
      rw [← injected_canon (hbare rdata hrdata),← injected_canon (hbare other hother)]
      exact heq
    exact injected_inj hsame (hbare rdata hrdata) (hbare other hother)
  · exact fun _ => rfl

variable (echBytes ttl) in
theorem injectEch_run (h : Injectable a) : ∃ n new, IsInjected echBytes ttl a new ∧
    injectEch echBytes ttl a = (.ok n,edited a (some new)) := by
  cases hr : a.rrset with
  | none =>
    obtain ⟨new,hbuild,htype,hfields⟩ : ∃ new,
        buildServiceModeRRset a.qname ttl echBytes = .ok new ∧ new.rdtype = RdataType.HTTPS ∧
          new.name = a.qname ∧ new.rdclass = RdataClass.IN ∧ new.ttl = max ttl 1 ∧
          new.items = [.https (serviceModeRecord echBytes)] :=
      ⟨_,rfl,rfl,rfl,rfl,rfl,rfl⟩
    refine ⟨1,new,⟨htype,fun r hsome => by rw [hr] at hsome; contradiction,fun _ => hfields⟩,?_⟩
    unfold injectEch
    rw [Exec.bind_ok (Exec.run_get a)]
    simp only [hr]
    rw [hbuild,Exec.bind_ok (Exec.run_ofExcept _ _)]
    rfl
  | some r =>
    have hbare := h.bare hr
    obtain ⟨s,hrun,hrdatas,hchanged⟩ := injectRecords_run echBytes hbare {}
    have hsome : s.changed = true := hchanged.mpr (.inr (h.updates r hr))
    have hne : r.items.map (injected echBytes) ≠ [] := fun hnil =>
      r.nonempty (List.map_eq_nil_iff.mp hnil)
    have htyped : ∀ rdata ∈ r.items.map (injected echBytes), rdata.rdtype = RdataType.HTTPS := by
      intro rdata hrdata
      obtain ⟨original,horiginal,rfl⟩ := List.mem_map.mp hrdata
      exact injected_rdtype (hbare original horiginal)
    obtain ⟨new,hbuild,htype,hfields⟩ : ∃ new,
        RRset.fromRdataList r.name r.rdclass r.ttl (r.items.map (injected echBytes)) = .ok new ∧
          new.rdtype = RdataType.HTTPS ∧ new.name = r.name ∧ new.rdclass = r.rdclass ∧
          new.ttl = r.ttl ∧ new.items = r.items.map (injected echBytes) :=
      ⟨_,RRset.fromRdataList_distinct r.name r.rdclass r.ttl hne
        (injected_distinct hbare r.distinct) htyped (by decide) fun rdata hrdata =>
          Rdata.covers_none (by rw [htyped rdata hrdata]; decide)
            (by rw [htyped rdata hrdata]; decide),
        rfl,rfl,rfl,rfl,rfl⟩
    refine ⟨s.updatedCount,new,⟨htype,fun r' hr' => ?_,fun hnone => ?_⟩,?_⟩
    · rw [hr] at hr'
      cases hr'
      exact hfields
    · rw [hr] at hnone
      contradiction
    · unfold injectEch
      rw [Exec.bind_ok (Exec.run_get a)]
      simp only [hr]
      rw [hrun,Exec.bind_ok (Exec.run_ofExcept _ _),if_pos hsome,hrdatas,List.nil_append,hbuild,
        Exec.bind_ok (Exec.run_ofExcept _ _)]
      rfl

theorem IsInjected.unique {other : RRset} (h : IsInjected echBytes ttl a new)
    (hother : IsInjected echBytes ttl a other) : new = other := by
  have hfields : new.name = other.name ∧ new.rdclass = other.rdclass ∧ new.ttl = other.ttl ∧
      new.items = other.items := by
    cases hr : a.rrset with
    | none =>
      obtain ⟨hname,hclass,httl,hitems⟩ := h.absent hr
      obtain ⟨hname',hclass',httl',hitems'⟩ := hother.absent hr
      exact ⟨hname.trans hname'.symm,hclass.trans hclass'.symm,httl.trans httl'.symm,
        hitems.trans hitems'.symm⟩
    | some r =>
      obtain ⟨hname,hclass,httl,hitems⟩ := h.present r hr
      obtain ⟨hname',hclass',httl',hitems'⟩ := hother.present r hr
      exact ⟨hname.trans hname'.symm,hclass.trans hclass'.symm,httl.trans httl'.symm,
        hitems.trans hitems'.symm⟩
  have htype := h.rdtype.trans hother.rdtype.symm
  obtain ⟨hname,hclass,httl,hitems⟩ := hfields
  have hcovers : new.covers = other.covers :=
    RRset.covers_eq fun rd hrd => other.covered rd (hitems ▸ hrd)
  cases new
  cases other
  cases hname
  cases hclass
  cases htype
  cases hcovers
  cases httl
  cases hitems
  rfl

end CloudflareEchPlugin

end SmartDns
