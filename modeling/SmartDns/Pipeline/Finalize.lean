import SmartDns.Pipeline.Engine
set_option autoImplicit false

/-!
`_finalize_context` on a context that has a final answer: it ends with the section the
answer was written back to, or raises and leaves the context without a response.
-/

namespace SmartDns

section
variable {E W : Type} (codec : Codec W) (now : ℚ)

/-- `sync_answer_response` succeeds on the answer. -/
def Syncs (a : Answer) : Prop :=
  Typed a ∧ codec.Encodes (writtenBack a).response ∧
    ∃ rebuilt, mkAnswer now a.qname a.rdtype a.rdclass (writtenBack a).response.merged = .ok rebuilt

variable {codec now}

theorem syncs_iff {a : Answer} :
    Syncs codec now a ↔ ∃ a', syncAnswerResponse codec now a = (.ok (),a') := by
  simp only [syncAnswerResponse_ok_iff]
  constructor
  · intro h
    obtain ⟨htyped,hencodes,rebuilt,hrebuilt⟩ := h
    exact ⟨_,htyped,hencodes,rebuilt,hrebuilt,rfl⟩
  · intro h
    obtain ⟨_,htyped,hencodes,rebuilt,hrebuilt,_⟩ := h
    exact ⟨htyped,hencodes,rebuilt,hrebuilt⟩

theorem syncAnswerResponse_response {a a' : Answer}
    (h : syncAnswerResponse codec now a = (.ok (),a')) :
    a'.response = (writtenBack a).response.merged := by
  obtain ⟨_,_,rebuilt,hrebuilt,rfl⟩ := syncAnswerResponse_ok_iff.mp h
  obtain ⟨_,_,rfl⟩ := mkAnswer_ok.mp hrebuilt
  rfl

theorem syncFinalAnswer_run (a : Answer) (c : RequestContext E) :
    syncFinalAnswer codec now a c =
      match syncAnswerResponse codec now a with
      | (.ok _,a') => (.ok a',{ c with finalAnswer := some a' })
      | (.error e,a') => (.error e,{ c with finalAnswer := some a' }) := by
  rcases h : syncAnswerResponse codec now a with ⟨e | ⟨⟩,a'⟩
  · refine Exec.bind_error ?_
    simp [Exec.within,h]
  · have hwithin : Exec.within (fun _ => a) (fun a c => { c with finalAnswer := some a })
        (syncAnswerResponse codec now) c = (.ok (),{ c with finalAnswer := some a' }) := by
      simp [Exec.within,h]
    unfold syncFinalAnswer
    rw [Exec.bind_ok hwithin,Exec.bind_ok (Exec.run_get _)]
    rfl

theorem finalizeContext_synced {c : RequestContext E} {a : Answer} (ha : c.finalAnswer = some a)
    (h : Syncs codec now a) :
    ∃ a', finalizeContext codec now c =
      (.ok (),{ c with
        finalAnswer := some a'
        finalResponse := some { (writtenBack a).response.merged with id := c.request.id } }) := by
  obtain ⟨a',hsync⟩ := syncs_iff.mp h
  have hresponse := syncAnswerResponse_response hsync
  obtain ⟨w,hw⟩ := h.2.1
  have hagain : codec.Encodes a'.response := by
    rw [hresponse]
    exact codec.again _ _ hw
  have hrun : syncFinalAnswer codec now a c = (.ok a',{ c with finalAnswer := some a' }) := by
    rw [syncFinalAnswer_run,hsync]
  refine ⟨a',?_⟩
  unfold finalizeContext
  rw [Exec.bind_ok (Exec.run_get c)]
  simp only [ha]
  rw [Exec.bind_ok hrun,cloneResponse_ok hagain,Exec.bind_ok (Exec.run_ofExcept _ _),hresponse,
    Message.merged_merged]
  rfl

theorem finalizeContext_unsynced {c : RequestContext E} {a : Answer} (ha : c.finalAnswer = some a)
    (h : ¬ Syncs codec now a) :
    ∃ e a', finalizeContext codec now c = (.error e,{ c with finalAnswer := some a' }) := by
  rcases hs : syncAnswerResponse codec now a with ⟨e | ⟨⟩,a'⟩
  · refine ⟨e,a',?_⟩
    unfold finalizeContext
    rw [Exec.bind_ok (Exec.run_get c)]
    simp only [ha]
    rw [Exec.bind_error]
    rw [syncFinalAnswer_run,hs]
  · exact absurd (syncs_iff.mpr ⟨a',hs⟩) h

end

end SmartDns
