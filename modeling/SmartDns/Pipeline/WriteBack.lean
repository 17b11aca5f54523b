import SmartDns.Pipeline.Context
set_option autoImplicit false

/-!
The write-back of an edited rrset into the response of its answer. The place that
is written is found by type and class, the place that is read again by following
the chain, so the two agree only on some answer sections.
-/

namespace SmartDns

section
variable {W : Type} (codec : Codec W)

/-- `sync_answer_response` after a write that can be encoded. -/
def rebuild (a rebuilt : Answer) : Answer :=
  { a with
    response := rebuilt.response
    canonicalName := rebuilt.canonicalName
    cnames := rebuilt.cnames
    rrset := rebuilt.rrset
    expiration := rebuilt.expiration }

/-- The check that `sync_answer_rrset_to_response` makes. -/
def Typed (a : Answer) : Prop :=
  ∀ rrset, a.rrset = some rrset → rrset.rdtype = a.rdtype ∧ rrset.rdclass = a.rdclass

@[simp] theorem writtenBack_qname (a : Answer) : (writtenBack a).qname = a.qname := rfl
@[simp] theorem writtenBack_rdtype (a : Answer) : (writtenBack a).rdtype = a.rdtype := rfl
@[simp] theorem writtenBack_rdclass (a : Answer) : (writtenBack a).rdclass = a.rdclass := rfl

theorem syncAnswerRrset_ok {a : Answer} (h : Typed a) :
    syncAnswerRrsetToResponse a = (.ok (),writtenBack a) := by
  unfold syncAnswerRrsetToResponse
  rw [Exec.bind_ok (Exec.run_get a)]
  cases hr : a.rrset with
  | none => rfl
  | some rrset =>
    obtain ⟨ht,hc⟩ := h rrset hr
    simp [ht,hc]

theorem syncAnswerRrset_error {a : Answer} (h : ¬ Typed a) :
    syncAnswerRrsetToResponse a = (.error mismatch,a) := by
  unfold syncAnswerRrsetToResponse
  rw [Exec.bind_ok (Exec.run_get a)]
  cases hr : a.rrset with
  | none => exact absurd (fun r hr' => by simp [hr] at hr') h
  | some rrset =>
    have hne : rrset.rdtype ≠ a.rdtype ∨ rrset.rdclass ≠ a.rdclass := by
      by_contra hcon
      simp only [not_or,not_not] at hcon
      exact h fun r hr' => by rw [hr] at hr'; cases hr'; exact hcon
    simp [hne]

variable {codec}

theorem decode_encode {m : Message} {w : W} (h : codec.toWire m = .ok w) :
    (codec.toWire m >>= codec.fromWire) = .ok m.merged := by
  rw [h]
  exact codec.roundTrip m w h

/-- The write-back succeeds just when the rrset has the answer's type, the edited
response encodes, and what it decodes to resolves. -/
theorem syncAnswerResponse_ok_iff {now : ℚ} {a a' : Answer} :
    syncAnswerResponse codec now a = (.ok (),a') ↔
      Typed a ∧ codec.Encodes (writtenBack a).response ∧
        ∃ rebuilt, mkAnswer now a.qname a.rdtype a.rdclass (writtenBack a).response.merged =
          .ok rebuilt ∧ a' = rebuild (writtenBack a) rebuilt := by
  unfold syncAnswerResponse
  by_cases htyped : Typed a
  · rw [Exec.bind_ok (syncAnswerRrset_ok htyped),Exec.bind_ok (Exec.run_get _)]
    cases hw : codec.toWire (writtenBack a).response with
    | error e =>
      rw [Exec.bind_error (by rw [Exec.run_ofExcept]; rfl)]
      simp [Codec.Encodes,hw]
    | ok w =>
      rw [Exec.bind_ok (by rw [Exec.run_ofExcept,← hw,decode_encode hw])]
      have hencodes : codec.Encodes (writtenBack a).response := ⟨w,hw⟩
      simp only [writtenBack_qname,writtenBack_rdtype,writtenBack_rdclass]
      cases hm : mkAnswer now a.qname a.rdtype a.rdclass (writtenBack a).response.merged with
      | error e =>
        rw [Exec.bind_error (Exec.run_ofExcept _ _)]
        simp
      | ok rebuilt =>
        rw [Exec.bind_ok (Exec.run_ofExcept _ _)]
        simp [htyped,hencodes,rebuild,eq_comm]
  · rw [Exec.bind_error (syncAnswerRrset_error htyped)]
    simp [htyped]

end

/-! ### The place that is written -/

section
variable {rdtype : RdataType} {rdclass : RdataClass}

theorem targetIndex_none_iff {l : List RRset} :
    targetIndex rdtype rdclass l = none ↔ ∀ r ∈ l, ¬ (r.rdtype = rdtype ∧ r.rdclass = rdclass) := by
  induction l with
  | nil => simp [targetIndex]
  | cons x l ih =>
    unfold targetIndex
    cases h : targetIndex rdtype rdclass l with
    | some i => simp [h] at ih ⊢; exact fun _ => ih
    | none => simpa [h] using fun _ => ih.mp h

theorem targetIndex_some {l : List RRset} {i : Nat} (h : targetIndex rdtype rdclass l = some i) :
    ∃ a x b, l = a ++ x :: b ∧ i = a.length ∧ (x.rdtype = rdtype ∧ x.rdclass = rdclass) ∧
      ∀ r ∈ b, ¬ (r.rdtype = rdtype ∧ r.rdclass = rdclass) := by
  induction l generalizing i with
  | nil => simp [targetIndex] at h
  | cons x l ih =>
    unfold targetIndex at h
    split at h
    · rename_i j hj
      cases h
      obtain ⟨a,y,b,rfl,rfl,hy,hb⟩ := ih hj
      exact ⟨x :: a,y,b,rfl,rfl,hy,hb⟩
    · rename_i hnone
      split at h
      · rename_i hx
        cases h
        exact ⟨[],x,l,rfl,rfl,hx,targetIndex_none_iff.mp hnone⟩
      · contradiction

theorem writeBack_erase (a b : List RRset) (x : RRset) :
    writeBack (a ++ x :: b) (some a.length) none = a ++ b := by
  simp [writeBack,List.eraseIdx_append_of_length_le]

theorem writeBack_set (a b : List RRset) (x r : RRset) :
    writeBack (a ++ x :: b) (some a.length) (some r) = a ++ r :: b := by
  simp [writeBack]

end

/-- A new value of `answer.rrset` of the queried type and class at the name the chain
ended at. -/
def Fits (a : Answer) (rrset : Option RRset) : Prop :=
  ∀ r, rrset = some r →
    r.rdtype = a.rdtype ∧ r.rdclass = a.rdclass ∧ r.name.canon = a.canonicalName.canon

/-- The key of the rrset that the chain of `a` resolves to, for the question `q` of
its response. -/
def resolvedKey (a : Answer) (q : Question) : RRKey := rrkey a.canonicalName q.rdclass q.rdtype

def edited (a : Answer) (rrset : Option RRset) : Answer := { a with rrset }

/-- Writing `rrset` back succeeds, reads back as `rrset`, and leaves the other rrsets of
the answer section as they are. -/
def FaithfulWriteBack {W : Type} (codec : Codec W) (now : ℚ) (a : Answer) (q : Question)
    (rrset : Option RRset) : Prop :=
  ∃ a', syncAnswerResponse codec now (edited a rrset) = (.ok (),a') ∧ a'.rrset = rrset ∧
    Keyed.remove RRset.key (resolvedKey a q) a'.response.answer =
      Keyed.remove RRset.key (resolvedKey a q) a.response.answer ∧
    (rrset = a.rrset → a'.response.answer = a.response.answer)

/-- When it does: the section holds one rrset for each key, the last rrset of the answer's
type is the one the chain resolved to, a value is written to a response to the answer's
own question and is no set of signatures, which the chain does not find, and without the
resolved rrset nothing is resolved. -/
structure WritesBack {W : Type} (codec : Codec W) (a : Answer) (q : Question)
    (rrset : Option RRset) : Prop where
  encodes : codec.Encodes (writtenBack (edited a rrset)).response
  indexed : Keyed.Distinct RRset.key a.response.answer
  target : targetIndex a.rdtype a.rdclass a.response.answer =
    Keyed.position RRset.key (resolvedKey a q) a.response.answer
  asked : rrset ≠ none → q.rdtype = a.rdtype ∧ q.rdclass = a.rdclass
  unsigned : ∀ r, rrset = some r → r.covers = RdataType.NONE
  stays : rrset = none → ∃ ch, resolveChaining (a.response.withAnswer
    (Keyed.remove RRset.key (resolvedKey a q) a.response.answer)).merged = .ok ch ∧
      ch.answer = none

@[simp] theorem edited_response (a : Answer) (rrset : Option RRset) :
    (edited a rrset).response = a.response := rfl
@[simp] theorem edited_rrset (a : Answer) (rrset : Option RRset) :
    (edited a rrset).rrset = rrset := rfl
@[simp] theorem rebuild_rrset (a rebuilt : Answer) :
    (rebuild a rebuilt).rrset = rebuilt.rrset := rfl
@[simp] theorem rebuild_response (a rebuilt : Answer) :
    (rebuild a rebuilt).response = rebuilt.response := rfl

theorem Fits.typed {a : Answer} {rrset : Option RRset} (h : Fits a rrset) :
    Typed (edited a rrset) := fun r hr => ⟨(h r hr).1,(h r hr).2.1⟩

section Faithful
variable {W : Type} {codec : Codec W} {now now' : ℚ} {qname : Name} {rdtype : RdataType}
  {rdclass : RdataClass} {response : Message} {a : Answer} {q : Question} {rrset : Option RRset}

/-- What building `a` from a response with the question `q` says about it. -/
structure Built (a : Answer) (q : Question) (chain : ChainingResult) : Prop where
  opcode : a.response.opcode = Opcode.QUERY
  qr : a.response.flags.qr = true
  rcode : a.response.rcode = Rcode.NOERROR
  question : a.response.question = [q]
  follow : followChain a.response.answer q maxChain q.name maxTtl [] = .ok chain
  name : chain.canonicalName = a.canonicalName
  rrset : a.rrset = findRRset a.response.answer a.canonicalName q.rdclass q.rdtype

theorem built_of_mkAnswer (hbuilt : mkAnswer now qname rdtype rdclass response = .ok a)
    (hrcode : response.rcode = Rcode.NOERROR) (hq : response.question = [q]) :
    ∃ chain, Built a q chain := by
  obtain ⟨ch,hch,rfl⟩ := mkAnswer_ok.mp hbuilt
  obtain ⟨hop,hqr,q',hq',r,hr,-,hneg⟩ := resolveChaining_ok.mp hch
  obtain rfl : q = q' := by simpa [hq] using hq'
  obtain ⟨hanswer,hname,-⟩ := negativeTtl_answer hneg
  refine ⟨r,hop,hqr,hrcode,hq,hr,hname.symm,?_⟩
  change ch.answer = findRRset response.answer ch.canonicalName _ _
  rw [hanswer,hname]
  exact followChain_answer hr

/-- The section that is encoded. -/
def written (a : Answer) (rrset : Option RRset) : List RRset :=
  writeBack a.response.answer (targetIndex a.rdtype a.rdclass a.response.answer) rrset

theorem writtenBack_response (a : Answer) (rrset : Option RRset) :
    (writtenBack (edited a rrset)).response = a.response.withAnswer (written a rrset) := rfl

theorem faithful_iff (hfits : Fits a rrset) :
    FaithfulWriteBack codec now' a q rrset ↔
      codec.Encodes (writtenBack (edited a rrset)).response ∧
      (∃ ch, resolveChaining (a.response.withAnswer (written a rrset)).merged = .ok ch ∧
        ch.answer = rrset) ∧
      Keyed.remove RRset.key (resolvedKey a q) (Message.mergeSection (written a rrset)) =
        Keyed.remove RRset.key (resolvedKey a q) a.response.answer ∧
      (rrset = a.rrset → Message.mergeSection (written a rrset) = a.response.answer) := by
  unfold FaithfulWriteBack
  simp only [syncAnswerResponse_ok_iff,writtenBack_response]
  constructor
  · intro h
    obtain ⟨_,⟨_,hencodes,rebuilt,hrebuilt,rfl⟩,hsame,hrest,hid⟩ := h
    obtain ⟨ch,hch,rfl⟩ := mkAnswer_ok.mp hrebuilt
    exact ⟨hencodes,⟨ch,hch,hsame⟩,hrest,hid⟩
  · intro h
    obtain ⟨hencodes,⟨ch,hch,hsame⟩,hrest,hid⟩ := h
    exact ⟨_,⟨hfits.typed,hencodes,_,mkAnswer_ok.mpr ⟨ch,hch,rfl⟩,rfl⟩,hsame,hrest,hid⟩

/-- Writing nothing at the place of a key removes the key. -/
theorem writeBack_position (k : RRKey) (l : List RRset) :
    writeBack l (Keyed.position RRset.key k l) none = Keyed.remove RRset.key k l := by
  obtain hfresh | ⟨x,y,z,rfl,rfl,hx⟩ := Keyed.split_at_key RRset.key k l
  · rw [Keyed.position_none_iff.mpr hfresh,Keyed.remove_fresh hfresh]
    rfl
  · rw [Keyed.position_middle hx,Keyed.remove_middle hx,writeBack_erase]

theorem fits_key (hfits : Fits a rrset) (hasked : q.rdtype = a.rdtype ∧ q.rdclass = a.rdclass)
    {r : RRset} (hr : rrset = some r) (hcovers : r.covers = RdataType.NONE) :
    r.key = resolvedKey a q := by
  obtain ⟨ht,hc,hn⟩ := hfits r hr
  simp [RRset.key,resolvedKey,rrkey,ht,hc,hn,hasked.1,hasked.2,hcovers]

/-- Where the two places agree, the section written is the old one with the value at the
resolved key, and everything else as it was. -/
theorem written_section (h : WritesBack codec a q rrset) (hfits : Fits a rrset) :
    Keyed.Distinct RRset.key (written a rrset) ∧
    Keyed.lookup RRset.key (resolvedKey a q) (written a rrset) = rrset ∧
    Keyed.remove RRset.key (resolvedKey a q) (written a rrset) =
      Keyed.remove RRset.key (resolvedKey a q) a.response.answer ∧
    (rrset = Keyed.lookup RRset.key (resolvedKey a q) a.response.answer →
      written a rrset = a.response.answer) := by
  unfold written
  rw [h.target]
  have hindexed := h.indexed
  have hasked := h.asked
  have hunsigned := h.unsigned
  clear h
  generalize a.response.answer = l at hindexed ⊢
  obtain hfresh | ⟨x,y,z,rfl,hy,hx⟩ := Keyed.split_at_key RRset.key (resolvedKey a q) l
  · rw [Keyed.position_none_iff.mpr hfresh,Keyed.remove_fresh hfresh]
    cases rrset with
    | none =>
      exact ⟨hindexed,Keyed.lookup_none_iff.mpr hfresh,Keyed.remove_fresh hfresh,fun _ => rfl⟩
    | some r =>
      have hr := fits_key hfits (hasked (by simp)) rfl (hunsigned r rfl)
      rw [← hr] at hfresh ⊢
      have hdistinct : Keyed.Distinct RRset.key (l ++ [r]) :=
        Keyed.distinct_middle hfresh (by simp) (by simpa using hindexed)
      refine ⟨hdistinct,Keyed.lookup_middle hdistinct,?_,fun hsame => ?_⟩
      · simpa [writeBack] using Keyed.remove_middle (r:=[]) hfresh
      · rw [Keyed.lookup_none_iff.mpr hfresh] at hsame
        contradiction
  · rw [← hy] at hx ⊢
    rw [Keyed.position_middle hx,Keyed.remove_middle hx]
    obtain ⟨_,hz,hrest⟩ := hindexed.middle
    cases rrset with
    | none =>
      have hgone : y.key ∉ (x ++ z).map RRset.key := by
        rw [List.map_append]
        exact fun hm => (List.mem_append.mp hm).elim hx hz
      rw [writeBack_erase]
      refine ⟨hrest,Keyed.lookup_none_iff.mpr hgone,Keyed.remove_fresh hgone,fun hsame => ?_⟩
      rw [Keyed.lookup_middle hindexed] at hsame
      contradiction
    | some r =>
      have hr := (fits_key hfits (hasked (by simp)) rfl (hunsigned r rfl)).trans hy.symm
      have hfound := Keyed.lookup_middle hindexed
      rw [← hr] at hx hz hfound ⊢
      have hdistinct := Keyed.distinct_middle hx hz hrest
      rw [writeBack_set,hfound]
      refine ⟨hdistinct,Keyed.lookup_middle hdistinct,Keyed.remove_middle hx,fun hsame => ?_⟩
      rw [Option.some.inj hsame]

theorem faithful_of_writesBack {chain : ChainingResult} (hb : Built a q chain)
    (hfits : Fits a rrset) (h : WritesBack codec a q rrset) :
    FaithfulWriteBack codec now' a q rrset := by
  obtain ⟨hdistinct,hlookup,hremove,hkept⟩ := written_section h hfits
  have hmerge : Message.mergeSection (written a rrset) = written a rrset :=
    Keyed.gather_of_distinct hdistinct
  refine (faithful_iff hfits).mpr ⟨h.encodes,?_,by rw [hmerge,hremove],fun hsame => ?_⟩
  · cases rrset with
    | none =>
      rw [written,h.target,writeBack_position]
      exact h.stays rfl
    | some r =>
      have hother : ∀ k, k ≠ rrkey chain.canonicalName q.rdclass q.rdtype →
          Keyed.lookup RRset.key k (written a (some r)) =
            Keyed.lookup RRset.key k a.response.answer := by
        intro k hk
        rw [hb.name] at hk
        exact Keyed.lookup_of_remove (Ne.symm hk) hremove
      rw [resolvedKey,← hb.name] at hlookup
      obtain ⟨ch,hch,hanswer⟩ := followChain_replace hb.follow hlookup hother
      refine ⟨ch,resolveChaining_ok.mpr
        ⟨hb.opcode,hb.qr,q,hb.question,ch,?_,?_,negativeTtl_some hanswer⟩,hanswer⟩
      · simpa [hmerge] using hch
      · simp [hb.rcode,Rcode.NOERROR,Rcode.NXDOMAIN]
  · rw [hmerge]
    exact hkept (hsame.trans hb.rrset)

/-- The write takes nothing away from the section but the resolved rrset. -/
theorem written_target {x z : List RRset} {y : RRset}
    (hsplit : a.response.answer = x ++ y :: z)
    (htarget : targetIndex a.rdtype a.rdclass a.response.answer = some x.length)
    (hdistinct : Keyed.Distinct RRset.key a.response.answer)
    (hkey : ∀ r, rrset = some r → r.key = resolvedKey a q)
    (hrest : Keyed.remove RRset.key (resolvedKey a q) (Message.mergeSection (written a rrset)) =
      Keyed.remove RRset.key (resolvedKey a q) a.response.answer) : y.key = resolvedKey a q := by
  by_contra hne
  rw [hsplit] at hdistinct
  obtain ⟨hx,hz,-⟩ := hdistinct.middle
  have hmem : y.key ∈ (Keyed.remove RRset.key (resolvedKey a q) a.response.answer).map RRset.key :=
    Keyed.mem_remove_keys (by simp [hsplit]) hne
  rw [← hrest] at hmem
  have hwritten : y.key ∈ (written a rrset).map RRset.key :=
    (Keyed.mem_gather_keys RRset.key_absorb).mp (Keyed.remove_keys_subset hmem)
  rw [written,htarget,hsplit] at hwritten
  cases rrset with
  | none =>
    rw [writeBack_erase,List.map_append] at hwritten
    exact (List.mem_append.mp hwritten).elim hx hz
  | some r =>
    rw [writeBack_set,List.map_append,List.map_cons,List.mem_append,List.mem_cons] at hwritten
    obtain h | h | h := hwritten
    · exact hx h
    · exact hne (h.trans (hkey r rfl))
    · exact hz h

theorem writesBack_of_faithful {chain : ChainingResult} (hb : Built a q chain)
    (hfits : Fits a rrset) (h : FaithfulWriteBack codec now' a q rrset) :
    WritesBack codec a q rrset := by
  obtain ⟨hencodes,⟨ch,hch,hanswer⟩,hrest,hid⟩ := (faithful_iff hfits).mp h
  obtain ⟨hop,hqr,q',hq',r,hr,-,hneg⟩ := resolveChaining_ok.mp hch
  obtain rfl : q = q' := by simpa [hb.question] using hq'
  have hread : ∀ new, rrset = some new → new.key = rrkey r.canonicalName q.rdclass q.rdtype := by
    intro new hnew
    have hfound := followChain_answer hr
    rw [← (negativeTtl_answer hneg).1,hanswer,hnew] at hfound
    exact (Keyed.lookup_some hfound.symm).2
  have hasked : rrset ≠ none → q.rdtype = a.rdtype ∧ q.rdclass = a.rdclass := by
    intro hne
    obtain ⟨new,hnew⟩ := Option.ne_none_iff_exists'.mp hne
    obtain ⟨ht,hc,-⟩ := hfits new hnew
    exact ⟨(congrArg RRKey.rdtype (hread new hnew)).symm.trans ht,
      (congrArg RRKey.rdclass (hread new hnew)).symm.trans hc⟩
  have hunsigned : ∀ new, rrset = some new → new.covers = RdataType.NONE :=
    fun new hnew => congrArg RRKey.covers (hread new hnew)
  have hkey : ∀ new, rrset = some new → new.key = resolvedKey a q := fun new hnew =>
    fits_key hfits (hasked (by simp [hnew])) hnew (hunsigned new hnew)
  have hdistinct : Keyed.Distinct RRset.key a.response.answer := by
    obtain ⟨hd,hgone⟩ := Keyed.remove_distinct (k:=resolvedKey a q)
      (Message.mergeSection_distinct (written a rrset))
    rw [hrest] at hd hgone
    exact Keyed.distinct_of_remove hd hgone
  have htarget : targetIndex a.rdtype a.rdclass a.response.answer =
      Keyed.position RRset.key (resolvedKey a q) a.response.answer := by
    cases hi : targetIndex a.rdtype a.rdclass a.response.answer with
    | some i =>
      obtain ⟨x,y,z,hsplit,rfl,_⟩ := targetIndex_some hi
      have hy := written_target hsplit hi hdistinct hkey hrest
      rw [hsplit] at hdistinct ⊢
      rw [← hy,Keyed.position_middle hdistinct.middle.1]
    | none =>
      refine (Keyed.position_none_iff.mpr fun hmem => ?_).symm
      obtain ⟨y,hy,hykey⟩ := List.mem_map.mp hmem
      cases rrset with
      | some new =>
        obtain ⟨ht,hc⟩ := hasked (by simp)
        refine targetIndex_none_iff.mp hi y hy ⟨?_,?_⟩
        · exact (congrArg RRKey.rdtype hykey).trans ht
        · exact (congrArg RRKey.rdclass hykey).trans hc
      | none =>
        have hmerge : Message.mergeSection a.response.answer = a.response.answer :=
          Keyed.gather_of_distinct hdistinct
        simp only [written,hi,writeBack,Message.merged_answer,Message.withAnswer_answer,hmerge,
          hb.follow,Except.ok.injEq] at hr
        have hresolved := followChain_answer hb.follow
        rw [hr,← (negativeTtl_answer hneg).1,hanswer,← hr,hb.name] at hresolved
        exact Keyed.lookup_none_iff.mp hresolved.symm hmem
  refine ⟨hencodes,hdistinct,htarget,hasked,hunsigned,fun hnone => ⟨ch,?_,hanswer.trans hnone⟩⟩
  rwa [hnone,written,htarget,writeBack_position] at hch

end Faithful

/-- The write-back is faithful just when the last rrset of the answer's type is the one
that the chain resolves to, and the section is as decoding leaves it. -/
theorem syncAnswerResponse_faithful_iff {W : Type} (codec : Codec W) (now now' : ℚ)
    (qname : Name) (rdtype : RdataType) (rdclass : RdataClass) (response : Message) (a : Answer)
    (q : Question) (rrset : Option RRset)
    (hbuilt : mkAnswer now qname rdtype rdclass response = .ok a)
    (hrcode : response.rcode = Rcode.NOERROR) (hq : response.question = [q])
    (hfits : Fits a rrset) :
    FaithfulWriteBack codec now' a q rrset ↔ WritesBack codec a q rrset := by
  obtain ⟨chain,hb⟩ := built_of_mkAnswer hbuilt hrcode hq
  exact ⟨writesBack_of_faithful hb hfits,faithful_of_writesBack hb hfits⟩

theorem syncAnswerResponse_faithful_host :
    FaithfulWriteBack directCodec 1 (hostAnswer [addressOf hostName 1] (addressOf hostName 1))
        hostQuestion (addressOf hostName 2) ↔
      WritesBack directCodec (hostAnswer [addressOf hostName 1] (addressOf hostName 1))
        hostQuestion (addressOf hostName 2) :=
  syncAnswerResponse_faithful_iff directCodec 0 1 hostName RdataType.A RdataClass.IN
    (hostReply [addressOf hostName 1]) _ hostQuestion (some (addressOf hostName 2))
    (hostAnswer_built (by decide)) rfl rfl (by rintro r ⟨⟩; exact ⟨rfl,rfl,rfl⟩)

/-- With an address of another owner behind it, the rrset that the answer already had is
written over that one. -/
theorem syncAnswerResponse_overwrites_other :
    ∃ a, mkAnswer 0 hostName RdataType.A RdataClass.IN
        (hostReply [addressOf hostName 1,addressOf otherName 2]) = .ok a ∧ Fits a a.rrset ∧
      ¬ FaithfulWriteBack directCodec 1 a hostQuestion a.rrset := by
  refine ⟨hostAnswer [addressOf hostName 1,addressOf otherName 2] (addressOf hostName 1),
    hostAnswer_built (by decide),by rintro r ⟨⟩; exact ⟨rfl,rfl,rfl⟩,?_⟩
  intro h
  obtain ⟨a',hsync,-,-,hid⟩ := h
  obtain ⟨-,-,rebuilt,hrebuilt,rfl⟩ := syncAnswerResponse_ok_iff.mp hsync
  obtain ⟨ch,-,rfl⟩ := mkAnswer_ok.mp hrebuilt
  have hchanged : Message.mergeSection [addressOf hostName 1,addressOf hostName 1] ≠
      [addressOf hostName 1,addressOf otherName 2] := by decide
  exact hchanged (hid rfl)

end SmartDns
