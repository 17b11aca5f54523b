import SmartDns.IpFilter.Bypass
set_option autoImplicit false

/-!
A response that is made an answer of and written back without an edit in between: what
`build_answer_from_response` takes for its rrset is written over the last rrset of the
question's type, and comes out the same where the two are one.
-/

namespace SmartDns

/-- A reply to the question that resolves: NOERROR, with an acyclic chain of CNAMEs below the
limit, and with SOA rrsets that hold SOA records. -/
structure ValidResponse (q : Question) (m : Message) : Prop where
  qr : m.flags.qr = true
  rcode : m.rcode = Rcode.NOERROR
  chain : ∃ asked r, m.question = [asked] ∧ asked.name.canon = q.name.canon ∧
    asked.rdtype = q.rdtype ∧ asked.rdclass = q.rdclass ∧
    followChain m.merged.answer asked maxChain asked.name maxTtl [] = .ok r
  authority : ∀ s ∈ m.merged.authority, s.rdtype = RdataType.SOA → s.minimum ≠ none

/-- The message has the response's rcode and answer records. -/
def SameReply (m response : Message) : Prop :=
  m.rcode = response.rcode ∧ m.merged.answer = response.merged.answer

section
variable {E W : Type} (codec : Codec W) (now now' : ℚ)

/-- The answer built from the response goes through `sync_answer_response` with the section as
it was. -/
def SyncsUnchanged (request m : Message) : Prop :=
  ∃ a a', buildAnswerFromResponse codec now request m = .ok a ∧
    syncAnswerResponse codec now' a = (.ok (),a') ∧ a'.response.answer = m.merged.answer

/-- `_finalize_context` leaves a response that says what the response says. -/
def FinalizesAs (m : Message) (c : RequestContext E) : Prop :=
  ∃ c', finalizeContext codec now' c = (.ok (),c') ∧
    ∃ reply, c'.finalResponse = some reply ∧ SameReply reply m

/-- The response, its answer or both in a context of the request. -/
def FinalizesEach (E : Type) (request m : Message) : Prop :=
  ∀ c : RequestContext E, c.request = request →
    (c.finalResponse = some m ∧ c.finalAnswer = none → FinalizesAs codec now' m c) ∧
    ∀ a, buildAnswerFromResponse codec now request m = .ok a → c.finalAnswer = some a →
      c.finalResponse = none ∨ c.finalResponse = some m → FinalizesAs codec now' m c

end

/-- The rrset that a built answer takes: the one its chain leads to, or else the first. -/
def Message.taken (m : Message) : Option RRset := m.leadsTo.or m.answer.head?

/-- The rrset is the last one of the question's type and class in the section. -/
def IsLastOfType (q : Question) (r : RRset) (section' : List RRset) : Prop :=
  ∃ before after, section' = before ++ r :: after ∧ (r.rdtype = q.rdtype ∧ r.rdclass = q.rdclass) ∧
    ∀ other ∈ after, ¬ (other.rdtype = q.rdtype ∧ other.rdclass = q.rdclass)

/-- A response to a query that can be encoded, and whose chain leads to the last rrset of the
question's type; or else it has none, or the first one is the only one of the type. -/
structure Restores {W : Type} (codec : Codec W) (q : Question) (m : Message) : Prop where
  opcode : m.opcode = Opcode.QUERY
  encodes : codec.Encodes m
  last : ∀ r, m.merged.taken = some r → IsLastOfType q r m.merged.answer

section
variable {E W : Type} {codec : Codec W} {now now' : ℚ} {q : Question} {request m : Message}
  {r : RRset} {l : List RRset}

theorem soaAbove_mem {authority : List RRset} {rdclass : RdataClass} {labels : List (List UInt8)}
    (h : ∀ s ∈ authority, s.rdtype = RdataType.SOA → s.minimum ≠ none) {s : RRset}
    (hs : soaAbove authority rdclass labels = some s) : s.minimum ≠ none := by
  obtain ⟨hmem,htype⟩ := soaAbove_some hs
  exact h s hmem htype

theorem ValidResponse.resolves (h : ValidResponse q m) (hopcode : m.opcode = Opcode.QUERY) :
    ∃ ch, resolveChaining m.merged = .ok ch := by
  obtain ⟨asked,r,hasked,_,_,_,hr⟩ := h.chain
  have hrcode : ¬ (m.merged.rcode = Rcode.NXDOMAIN ∧ r.answer.isSome = true) := by
    simp [h.rcode,Rcode.NOERROR,Rcode.NXDOMAIN]
  have hnegative : ∃ ch, negativeTtl m.merged asked.rdclass r = .ok ch := by
    unfold negativeTtl
    split
    · exact ⟨_,rfl⟩
    · split
      · exact ⟨_,rfl⟩
      · rename_i s hs
        have hminimum := soaAbove_mem h.authority hs
        split
        · rename_i hnone
          exact absurd hnone hminimum
        · exact ⟨_,rfl⟩
  obtain ⟨ch,hch⟩ := hnegative
  exact ⟨ch,resolveChaining_ok.mpr ⟨hopcode,h.qr,asked,hasked,r,hr,hrcode,hch⟩⟩

theorem taken_mem (h : m.taken = some r) : r ∈ m.answer := by
  unfold Message.taken Message.leadsTo at h
  cases hchain : resolveChaining m with
  | error e =>
    rw [hchain] at h
    exact List.mem_of_mem_head? h
  | ok ch =>
    rw [hchain] at h
    cases hanswer : ch.answer with
    | none =>
      simp only [hanswer] at h
      exact List.mem_of_mem_head? h
    | some found =>
      simp only [hanswer] at h
      cases h
      obtain ⟨_,_,q,_,r',hr',_,hneg⟩ := resolveChaining_ok.mp hchain
      have hfound := followChain_answer hr'
      rw [← (negativeTtl_answer hneg).1,hanswer] at hfound
      exact (Keyed.lookup_some hfound.symm).1

theorem targetIndex_last {before after : List RRset}
    (htyped : r.rdtype = q.rdtype ∧ r.rdclass = q.rdclass)
    (hafter : ∀ other ∈ after, ¬ (other.rdtype = q.rdtype ∧ other.rdclass = q.rdclass)) :
    targetIndex q.rdtype q.rdclass (before ++ r :: after) = some before.length := by
  induction before with
  | nil =>
    rw [List.nil_append,targetIndex,targetIndex_none_iff.mpr hafter]
    simp [htyped]
  | cons x before ih =>
    rw [List.cons_append,targetIndex,ih]
    rfl

/-! ### Writing back what was taken -/

theorem writeBack_taken (h : ∀ r, m.taken = some r → IsLastOfType q r m.answer) :
    writeBack m.answer (targetIndex q.rdtype q.rdclass m.answer) m.taken = m.answer := by
  cases htaken : m.taken with
  | none =>
    have hnil : m.answer = [] := by
      rw [Message.taken,Option.or_eq_none_iff] at htaken
      exact List.head?_eq_none_iff.mp htaken.2
    rw [hnil]
    rfl
  | some r =>
    obtain ⟨before,after,hsplit,htyped,hafter⟩ := h r htaken
    rw [hsplit,targetIndex_last htyped hafter]
    exact writeBack_set before after r r

/-- An rrset of the section that leaves it as it was when it is written over the last one of
its type is that one. -/
theorem isLastOfType_of_writeBack (hdistinct : Keyed.Distinct RRset.key l) (hmem : r ∈ l)
    (htyped : r.rdtype = q.rdtype ∧ r.rdclass = q.rdclass)
    (h : Message.mergeSection (writeBack l (targetIndex q.rdtype q.rdclass l) (some r)) = l) :
    IsLastOfType q r l := by
  cases htarget : targetIndex q.rdtype q.rdclass l with
  | none => exact absurd htyped (targetIndex_none_iff.mp htarget r hmem)
  | some i =>
    obtain ⟨before,y,after,hsplit,rfl,_,hafter⟩ := targetIndex_some htarget
    have hkept : y.key ∈ (before ++ r :: after).map RRset.key := by
      rw [htarget,hsplit,writeBack_set] at h
      refine (Keyed.mem_gather_keys RRset.key_absorb).mp ?_
      change y.key ∈ (Message.mergeSection (before ++ r :: after)).map RRset.key
      rw [h]
      simp
    have hmiddle := hdistinct
    rw [hsplit] at hmiddle
    obtain ⟨hbefore,hbehind,_⟩ := hmiddle.middle
    have hkey : y.key = r.key := by
      rw [List.map_append,List.map_cons,List.mem_append,List.mem_cons] at hkept
      obtain hin | heq | hin := hkept
      · exact absurd hin hbefore
      · exact heq
      · exact absurd hin hbehind
    have hy : y ∈ l := by simp [hsplit]
    obtain rfl : y = r := List.inj_on_of_nodup_map hdistinct hy hmem hkey
    exact ⟨before,after,hsplit,htyped,hafter⟩

/-! ### The answer of a response -/

theorem built_of_response {a : Answer} (hq : firstQuestion request = .ok q)
    (h : buildAnswerFromResponse codec now request m = .ok a) :
    m.opcode = Opcode.QUERY ∧ codec.Encodes m ∧ a.response = { m.merged with id := request.id } ∧
      a.rrset = m.merged.taken ∧ a.rdtype = q.rdtype ∧ a.rdclass = q.rdclass := by
  obtain ⟨ch,hencodes,hch,hresponse,_,hrrset⟩ := buildAnswer_ok h
  have hopcode : m.opcode = Opcode.QUERY := (resolveChaining_ok.mp hch).1
  refine ⟨hopcode,hencodes,hresponse,?_,(buildAnswer_question hq h).2⟩
  rw [hrrset,Message.taken,Message.leadsTo_ok hch]

theorem ValidResponse.builds (hvalid : ValidResponse q m) (hq : firstQuestion request = .ok q)
    (hopcode : m.opcode = Opcode.QUERY) (hencodes : codec.Encodes m) (now : ℚ) :
    ∃ a, buildAnswerFromResponse codec now request m = .ok a :=
  (buildAnswer_builds_iff hq).mpr ⟨hencodes,hvalid.resolves hopcode⟩

/-- The built answer of a response that is restored can be written back as it is. -/
theorem Restores.syncs {a : Answer} (h : Restores codec q m) (hid : codec.IgnoresId)
    (hvalid : ValidResponse q m) (hq : firstQuestion request = .ok q)
    (hbuilt : buildAnswerFromResponse codec now request m = .ok a) (now' : ℚ) :
    Syncs codec now' a ∧ (writtenBack a).response = { m.merged with id := request.id } := by
  obtain ⟨_,⟨w,hw⟩,hresponse,hrrset,hrdtype,hrdclass⟩ := built_of_response hq hbuilt
  have hwritten : (writtenBack a).response = { m.merged with id := request.id } := by
    unfold writtenBack
    simp only [hresponse,hrrset,hrdtype,hrdclass]
    rw [writeBack_taken h.last]
  have htyped : Typed a := by
    intro r hr
    rw [hrrset] at hr
    obtain ⟨_,_,_,htyped,_⟩ := h.last r hr
    rw [hrdtype,hrdclass]
    exact htyped
  obtain ⟨ch,hch⟩ := hvalid.resolves h.opcode
  refine ⟨⟨htyped,?_,?_⟩,hwritten⟩
  · rw [hwritten]
    exact hid _ _ (codec.again m w hw)
  · have hagain : resolveChaining (writtenBack a).response.merged = .ok ch := by
      rw [hwritten]
      change resolveChaining m.merged.merged = .ok ch
      rw [Message.merged_merged]
      exact hch
    exact ⟨_,mkAnswer_ok.mpr ⟨ch,hagain,rfl⟩⟩

theorem Restores.syncsUnchanged (h : Restores codec q m) (hid : codec.IgnoresId)
    (hvalid : ValidResponse q m) (hq : firstQuestion request = .ok q) :
    SyncsUnchanged codec now now' request m := by
  obtain ⟨a,hbuilt⟩ := hvalid.builds hq h.opcode h.encodes now
  obtain ⟨hsyncs,hwritten⟩ := h.syncs hid hvalid hq hbuilt now'
  obtain ⟨a',hsync⟩ := syncs_iff.mp hsyncs
  refine ⟨a,a',hbuilt,hsync,?_⟩
  rw [syncAnswerResponse_response hsync,hwritten]
  exact Message.mergeSection_merged m.answer

theorem restores_of_syncsUnchanged (hq : firstQuestion request = .ok q)
    (h : SyncsUnchanged codec now now' request m) : Restores codec q m := by
  obtain ⟨a,a',hbuilt,hsync,hsame⟩ := h
  obtain ⟨hopcode,hencodes,hresponse,hrrset,hrdtype,hrdclass⟩ := built_of_response hq hbuilt
  refine ⟨hopcode,hencodes,fun r hr => ?_⟩
  have htyped := (syncAnswerResponse_ok_iff.mp hsync).1 r (hrrset.trans hr)
  rw [hrdtype,hrdclass] at htyped
  rw [syncAnswerResponse_response hsync] at hsame
  unfold writtenBack at hsame
  simp only [hresponse,hrrset,hrdtype,hrdclass,hr] at hsame
  exact isLastOfType_of_writeBack (Message.mergeSection_distinct _) (taken_mem hr) htyped hsame

/-! ### Finalising -/

theorem finalizeContext_response {c : RequestContext E} {a : Answer}
    (hresponse : c.finalResponse = some m) (hanswer : c.finalAnswer = none)
    (h : buildAnswerFromResponse codec now c.request m = .ok a) :
    finalizeContext codec now c = (.ok (),{ c with finalAnswer := some a }) := by
  have hrun : finalizeContext codec now c = (do
      let answer ← Exec.ofExcept (buildAnswerFromResponse codec now c.request m)
      Exec.modify fun c => { c with finalAnswer := some answer } :
        Exec PyException (RequestContext E) Unit) c := by
    unfold finalizeContext
    rw [Exec.bind_ok (Exec.run_get c)]
    simp only [hresponse,hanswer]
  rw [hrun,h,Exec.bind_ok (Exec.run_ofExcept _ _)]
  rfl

theorem Restores.finalizesEach (h : Restores codec q m) (hid : codec.IgnoresId)
    (hvalid : ValidResponse q m) (hq : firstQuestion request = .ok q) :
    FinalizesEach codec now now' E request m := by
  intro c hc
  refine ⟨fun hslots => ?_,fun a hbuilt ha _ => ?_⟩
  · obtain ⟨a,hbuilt⟩ := hvalid.builds hq h.opcode h.encodes now'
    rw [← hc] at hbuilt
    exact ⟨_,finalizeContext_response hslots.1 hslots.2 hbuilt,m,hslots.1,rfl,rfl⟩
  · obtain ⟨hsyncs,hwritten⟩ := h.syncs hid hvalid hq hbuilt now'
    obtain ⟨a',hfinal⟩ := finalizeContext_synced ha hsyncs
    refine ⟨_,hfinal,_,rfl,?_,?_⟩
    · rw [hwritten]
      rfl
    · rw [hwritten]
      change m.merged.merged.merged.answer = _
      rw [Message.merged_merged,Message.merged_merged]

/-- A valid response comes through an answer of it unharmed just when it answers a query, can be
encoded, and what the answer takes for its rrset is the last one of the question's type. -/
theorem finalizing_restores_iff (codec : Codec W) (E : Type) (hid : codec.IgnoresId)
    (now now' : ℚ) (request m : Message) (q : Question) (hrequest : request.question = [q])
    (hvalid : ValidResponse q m) :
    SyncsUnchanged codec now now' request m ∧ FinalizesEach codec now now' E request m ↔
      Restores codec q m := by
  have hq : firstQuestion request = .ok q := by
    rw [firstQuestion,hrequest]
  constructor
  · intro h
    exact restores_of_syncsUnchanged hq h.1
  · intro h
    exact ⟨h.syncsUnchanged hid hvalid hq,h.finalizesEach hid hvalid hq⟩

end

theorem hostReply_valid {answer : List RRset} {r : ChainingResult}
    (h : followChain (Message.mergeSection answer) hostQuestion maxChain hostName maxTtl [] =
      .ok r) :
    ValidResponse hostQuestion (hostReply answer) where
  qr := rfl
  rcode := rfl
  chain := ⟨hostQuestion,r,rfl,rfl,rfl,rfl,h⟩
  authority _ hs := (List.not_mem_nil hs).elim

theorem finalizing_restores_iff_host :
    SyncsUnchanged directCodec 0 1 hostQuery (hostReply [addressOf hostName 1]) ∧
        FinalizesEach directCodec 0 1 Unit hostQuery (hostReply [addressOf hostName 1]) ↔
      Restores directCodec hostQuestion (hostReply [addressOf hostName 1]) :=
  finalizing_restores_iff directCodec Unit directCodec_ignoresId 0 1 hostQuery
    (hostReply [addressOf hostName 1]) hostQuestion rfl
    (hostReply_valid (r:=⟨hostName,some (addressOf hostName 1),60,[]⟩) (by decide))

/-- A host that is an alias of one without an address: the alias cannot be written back as an
address. -/
theorem finalizing_rejectsAlias :
    ValidResponse hostQuestion (hostReply [hostAlias]) ∧
      ¬ (SyncsUnchanged directCodec 0 1 hostQuery (hostReply [hostAlias]) ∧
        FinalizesEach directCodec 0 1 Unit hostQuery (hostReply [hostAlias])) := by
  refine ⟨hostReply_valid (r:=⟨otherName,none,60,[hostAlias]⟩) (by decide),fun h => ?_⟩
  have htaken : (hostReply [hostAlias]).merged.taken = some hostAlias := by decide
  obtain ⟨_,_,_,htyped,_⟩ := (restores_of_syncsUnchanged (q:=hostQuestion) rfl h.1).last _ htaken
  exact absurd htyped.1 (by decide)

end SmartDns
