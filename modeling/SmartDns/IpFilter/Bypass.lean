import SmartDns.IpFilter.Plugin
import SmartDns.Pipeline.Finalize
import SmartDns.Pipeline.Outcome
set_option autoImplicit false

/-!
What is left of the filter's work in the response: the filter edits `answer.rrset`, the
end of the pipeline writes it over the last rrset of the type, and the client follows the
chain.
-/

namespace SmartDns

def RRset.addresses (r : RRset) : List IPAddress :=
  r.items.filterMap fun record => record.address.toOption

/-- What the decoder guarantees of an answer section. -/
structure Decoded (m : Message) : Prop where
  indexed : Keyed.Distinct RRset.key m.answer
  records : ∀ r ∈ m.answer, r.HoldsAddresses

namespace IpFilterPlugin

section
variable {E S W : Type} (codec : Codec W) (engine : PipelineEngine E S)
  (env : Surroundings E engine.resolverManager) (config : IpFilterPluginConfig) (ipset : IPSet)

/-- `handle_message` from the result of an upstream on, where the filter is the only
plugin that edits it. -/
def answerUpstream (request : Message) (result : UpstreamResult) : Engine E S Unit :=
  Exec.handle
    (do
      let s ← Exec.get
      let hook := onUpstreamResponse config ipset s.context result
      Exec.ofExcept hook.1
      onContext do
        takeResult hook.2
        finalizeContext codec env.now)
    fun exc => failRequest codec engine env request exc

end

section
variable (config : IpFilterPluginConfig) (ipset : IPSet)

/-- The rrset that is reached holds no address that fails, and the addresses of the
original one that pass. -/
structure NotBypassed (original reached : Option RRset) : Prop where
  passes : ∀ r, reached = some r → ∀ address ∈ r.addresses, Passes config ipset address
  present : ∀ r, original = some r → ∀ address ∈ r.addresses, Passes config ipset address →
    ∃ r', reached = some r' ∧ address ∈ r'.addresses

end

/-- The rrset is the last one of the answer's type and class in the section. -/
def LastOfType (a : Answer) (r : RRset) : Prop :=
  targetIndex a.rdtype a.rdclass a.response.answer =
    Keyed.position RRset.key r.key a.response.answer

/-- The response after the rrset is taken out of it. -/
def without (a : Answer) (r : RRset) : Message :=
  (a.response.withAnswer (Keyed.remove RRset.key r.key a.response.answer)).merged

/-- When the filter has its way with the rrset that a reply led to. -/
structure Withstands {W : Type} (codec : Codec W) (config : IpFilterPluginConfig) (ipset : IPSet)
    (a : Answer) (r : RRset) : Prop where
  some_pass : (∃ address ∈ r.addresses, Passes config ipset address) →
    r.rdtype = a.rdtype ∧ r.rdclass = a.rdclass ∧
      codec.Encodes (writtenBack (edited a (keptRRset config ipset r))).response ∧
      ((∀ address ∈ r.addresses, Passes config ipset address) ∨ LastOfType a r)
  none_passes : (∀ address ∈ r.addresses, ¬ Passes config ipset address) → r.rdtype = a.rdtype →
    codec.Encodes (writtenBack (edited a none)).response →
      LastOfType a r ∧ ∀ other, (without a r).leadsTo = some other →
        ∀ address ∈ other.addresses, Passes config ipset address

end IpFilterPlugin

/-! ### What a message leads to -/

theorem leadsTo_errorReply {request : Message} {q : Question}
    (hopcode : request.opcode = Opcode.QUERY) (hq : request.question = [q]) (rcode : Rcode) :
    (errorReply request rcode).leadsTo = none :=
  Message.leadsTo_ok (resolveChaining_errorReply hopcode hq rcode)

/-- A section that has lost an rrset of a type other than CNAME, which the chain did not
end at, gives the same chain. -/
theorem followChain_lost {u v : List RRset} {y : RRset} {q : Question} {n : Nat} {qname : Name}
    {ttl : Nat} {cnames : List RRset} {r : ChainingResult}
    (h : followChain (u ++ y :: v) q n qname ttl cnames = .ok r)
    (hu : y.key ∉ u.map RRset.key) (hv : y.key ∉ v.map RRset.key)
    (hy : y.rdtype ≠ RdataType.CNAME)
    (hne : r.answer.isSome → y.key ≠ rrkey r.canonicalName q.rdclass q.rdtype) :
    followChain (u ++ v) q n qname ttl cnames = .ok r := by
  have hgone : Keyed.lookup RRset.key y.key (u ++ v) = none := by
    refine Keyed.lookup_none_iff.mpr ?_
    rw [List.map_append]
    exact fun h => (List.mem_append.mp h).elim hu hv
  have hother (k : RRKey) (hk : k ≠ y.key) :
      Keyed.lookup RRset.key k (u ++ v) = Keyed.lookup RRset.key k (u ++ y :: v) :=
    (Keyed.lookup_other (Ne.symm hk)).symm
  induction n generalizing qname ttl cnames with
  | zero => simp [followChain] at h
  | succ n ih =>
    have hcname : findRRset (u ++ v) qname q.rdclass RdataType.CNAME =
        findRRset (u ++ y :: v) qname q.rdclass RdataType.CNAME :=
      hother _ fun heq => hy (congrArg RRKey.rdtype heq).symm
    unfold followChain at h ⊢
    cases hfound : findRRset (u ++ y :: v) qname q.rdclass q.rdtype with
    | some found =>
      simp only [hfound,Except.ok.injEq] at h
      have hsame : findRRset (u ++ v) qname q.rdclass q.rdtype = some found := by
        rw [← hfound]
        refine hother _ fun heq => ?_
        rw [← h] at hne
        exact hne rfl heq.symm
      simp only [hsame,h]
    | none =>
      have hsame : findRRset (u ++ v) qname q.rdclass q.rdtype = none := by
        by_cases heq : rrkey qname q.rdclass q.rdtype = y.key
        · unfold findRRset
          rw [heq]
          exact hgone
        · rw [← hfound]
          exact hother _ heq
      simp only [hfound] at h
      simp only [hsame,hcname]
      split at h
      · rename_i hc
        simpa [hc] using h
      · rename_i hc
        rw [if_neg hc]
        split at h
        · exact h
        · split at h
          · contradiction
          · exact ih h

/-! ### The section that is encoded -/

theorem mem_addresses {r : RRset} {address : IPAddress} :
    address ∈ r.addresses ↔ ∃ record ∈ r.items, record.address = .ok address := by
  unfold RRset.addresses
  rw [List.mem_filterMap]
  refine exists_congr fun record => and_congr_right fun _ => ?_
  cases record.address with
  | ok x => simp [Except.toOption]
  | error e => simp [Except.toOption]

theorem addressTypes_ne_cname {t : RdataType} (h : t ∈ addressTypes) : t ≠ RdataType.CNAME := by
  obtain rfl | rfl : t = RdataType.A ∨ t = RdataType.AAAA := by simpa [addressTypes] using h
  all_goals decide

namespace IpFilterPlugin

section
variable {W : Type} {codec : Codec W} {a : Answer} {q : Question} {chain : ChainingResult}
  {r r' : RRset}

theorem built_resolved (hb : Built a q chain) (ha : a.rrset = some r) :
    r ∈ a.response.answer ∧ r.key = resolvedKey a q ∧ chain.answer = some r := by
  have hfound : findRRset a.response.answer a.canonicalName q.rdclass q.rdtype = some r := by
    rw [← hb.rrset]
    exact ha
  obtain ⟨hmem,hkey⟩ := Keyed.lookup_some hfound
  refine ⟨hmem,hkey,?_⟩
  rw [followChain_answer hb.follow,hb.name]
  exact hfound

/-- Resolving goes by the section alone where the chain ends in an rrset. -/
theorem built_leadsTo (hb : Built a q chain) (ha : a.rrset = some r) {l : List RRset}
    (h : followChain (Message.mergeSection l) q maxChain q.name maxTtl [] = .ok chain) :
    (a.response.withAnswer l).merged.leadsTo = some r := by
  obtain ⟨_,_,hchain⟩ := built_resolved hb ha
  have hresolved : resolveChaining (a.response.withAnswer l).merged = .ok chain := by
    refine resolveChaining_ok.mpr ⟨hb.opcode,hb.qr,q,hb.question,chain,h,?_,negativeTtl_some hchain⟩
    simp [hb.rcode,Rcode.NOERROR,Rcode.NXDOMAIN]
  rw [Message.leadsTo_ok hresolved,hchain]

/-- A value that is written over the rrset of another owner leaves the rrset of the chain
as it was: on decoding the two are one again. -/
theorem written_misplaced (hb : Built a q chain)
    (hdistinct : Keyed.Distinct RRset.key a.response.answer) (ha : a.rrset = some r)
    (haddress : a.rdtype ∈ addressTypes) (hnot : ¬ LastOfType a r) {x : Option RRset}
    (hx : ∀ r', x = some r' → r'.key = r.key ∧ r.rdtype = a.rdtype ∧ r.rdclass = a.rdclass ∧
      r.absorb r' = r) :
    (a.response.withAnswer (written a x)).merged.leadsTo = some r := by
  obtain ⟨hmem,hkey,hchain⟩ := built_resolved hb ha
  refine built_leadsTo hb ha ?_
  unfold written LastOfType at *
  cases hi : targetIndex a.rdtype a.rdclass a.response.answer with
  | none =>
    cases x with
    | none =>
      rw [writeBack,Message.mergeSection,Keyed.gather_of_distinct hdistinct]
      exact hb.follow
    | some r' =>
      obtain ⟨_,ht,hc,_⟩ := hx r' rfl
      exact absurd ⟨ht,hc⟩ (targetIndex_none_iff.mp hi r hmem)
  | some i =>
    obtain ⟨u,y,v,hsplit,rfl,hy,hlast⟩ := targetIndex_some hi
    rw [hsplit] at hdistinct hmem hnot ⊢
    obtain ⟨hu,hv,hrest⟩ := hdistinct.middle
    have hother : y.key ≠ r.key := by
      intro heq
      rw [← hsplit,hi,hsplit,← heq,Keyed.position_middle hu] at hnot
      exact hnot rfl
    have hmerged : Message.mergeSection (writeBack (u ++ y :: v) (some u.length) x) = u ++ v := by
      cases x with
      | none =>
        rw [writeBack_erase]
        exact Keyed.gather_of_distinct hrest
      | some r' =>
        obtain ⟨hkey',ht,hc,habsorb⟩ := hx r' rfl
        have hbefore : r ∈ u := by
          obtain h | h := List.mem_append.mp hmem
          · exact h
          · obtain rfl | h := List.mem_cons.mp h
            · exact absurd rfl hother
            · exact absurd ⟨ht,hc⟩ (hlast r h)
        obtain ⟨u₁,u₂,rfl⟩ := List.append_of_mem hbefore
        rw [writeBack_set,List.append_assoc,List.cons_append]
        rw [List.append_assoc,List.cons_append] at hrest
        rw [Message.mergeSection,Keyed.gather_again RRset.key_absorb hrest hkey',habsorb]
        simp
    rw [hmerged]
    have hfollow := hb.follow
    rw [hsplit] at hfollow
    refine followChain_lost hfollow hu hv (hy.1 ▸ addressTypes_ne_cname haddress) fun _ heq => ?_
    rw [hb.name] at heq
    exact hother (heq.trans hkey.symm)

/-- A value that is written over the rrset of the chain is what the chain leads to. -/
theorem written_placed (hb : Built a q chain)
    (hdistinct : Keyed.Distinct RRset.key a.response.answer) (ha : a.rrset = some r)
    (hlast : LastOfType a r) (ht : r.rdtype = a.rdtype) (hc : r.rdclass = a.rdclass)
    (hname : r'.name = r.name) (ht' : r'.rdtype = r.rdtype) (hc' : r'.rdclass = r.rdclass)
    (hcovers : r'.covers = r.covers)
    (hencodes : codec.Encodes (writtenBack (edited a (some r'))).response) :
    (a.response.withAnswer (written a (some r'))).merged.leadsTo = some r' := by
  obtain ⟨_,hkey,_⟩ := built_resolved hb ha
  have hasked : q.rdtype = a.rdtype ∧ q.rdclass = a.rdclass :=
    ⟨(congrArg RRKey.rdtype hkey).symm.trans ht,(congrArg RRKey.rdclass hkey).symm.trans hc⟩
  have hfits : Fits a (some r') := by
    intro new hnew
    cases hnew
    refine ⟨ht'.trans ht,hc'.trans hc,?_⟩
    rw [hname]
    exact congrArg RRKey.name hkey
  have hwrites : WritesBack codec a q (some r') := by
    have hunsigned : r'.covers = RdataType.NONE := hcovers.trans (congrArg RRKey.covers hkey)
    refine ⟨hencodes,hdistinct,?_,fun _ => hasked,?_,nofun⟩
    · rw [← hkey]
      exact hlast
    · intro new hnew
      cases hnew
      exact hunsigned
  have hfaithful : FaithfulWriteBack codec 0 a q (some r') :=
    faithful_of_writesBack hb hfits hwrites
  obtain ⟨a',hsync,hreads,-⟩ := hfaithful
  obtain ⟨_,_,rebuilt,hrebuilt,rfl⟩ := syncAnswerResponse_ok_iff.mp hsync
  obtain ⟨ch,hch,rfl⟩ := mkAnswer_ok.mp hrebuilt
  rw [writtenBack_response] at hch
  rw [Message.leadsTo_ok hch]
  exact hreads

/-- Where the chain led to nothing it still does after the write-back. -/
theorem written_nothing (hb : Built a q chain)
    (hdistinct : Keyed.Distinct RRset.key a.response.answer) (ha : a.rrset = none)
    (haddress : a.rdtype ∈ addressTypes) :
    (a.response.withAnswer (written a none)).merged.leadsTo = none := by
  have hchain : chain.answer = none := by
    rw [followChain_answer hb.follow,hb.name,← hb.rrset]
    exact ha
  have hfollow : followChain (Message.mergeSection (written a none)) q maxChain q.name maxTtl [] =
      .ok chain := by
    unfold written
    cases hi : targetIndex a.rdtype a.rdclass a.response.answer with
    | none =>
      rw [writeBack,Message.mergeSection,Keyed.gather_of_distinct hdistinct]
      exact hb.follow
    | some i =>
      obtain ⟨u,y,v,hsplit,rfl,hy,_⟩ := targetIndex_some hi
      have hfollow := hb.follow
      rw [hsplit] at hdistinct hfollow ⊢
      obtain ⟨hu,hv,hrest⟩ := hdistinct.middle
      rw [writeBack_erase,Message.mergeSection,Keyed.gather_of_distinct hrest]
      exact followChain_lost hfollow hu hv (hy.1 ▸ addressTypes_ne_cname haddress)
        fun hsome => by simp [hchain] at hsome
  unfold Message.leadsTo
  cases hresolve : resolveChaining (a.response.withAnswer (written a none)).merged with
  | error _ => rfl
  | ok ch =>
    obtain ⟨_,_,q',hq',found,hfound,_,hneg⟩ := resolveChaining_ok.mp hresolve
    obtain rfl : q = q' := by simpa [hb.question] using hq'
    have hsame : found = chain := by
      have heq := hfound.symm.trans hfollow
      simpa using heq
    exact (negativeTtl_answer hneg).1.trans (hsame ▸ hchain)

/-- Where the rrset of the chain is erased, it is taken out of the section. -/
theorem written_erased (hlast : LastOfType a r) :
    (a.response.withAnswer (written a none)).merged = without a r := by
  unfold LastOfType at hlast
  rw [written,hlast,writeBack_position]
  rfl

end

/-! ### The records that are kept -/

section
variable {config : IpFilterPluginConfig} {ipset : IPSet} {r r' : RRset}

theorem keptRRset_none_iff (hrecords : r.HoldsAddresses) (htype : r.rdtype ∈ addressTypes) :
    keptRRset config ipset r = none ↔ ∀ address ∈ r.addresses, ¬ Passes config ipset address := by
  have hnil : r.items.filter (keeps config ipset) = [] ↔
      ∀ address ∈ r.addresses, ¬ Passes config ipset address := by
    rw [List.filter_eq_nil_iff]
    constructor
    · intro h address haddress
      obtain ⟨record,hmem,hrecord⟩ := mem_addresses.mp haddress
      rw [← keeps_iff hrecord]
      exact h record hmem
    · intro h record hmem
      obtain ⟨address,hrecord⟩ := (hrecords htype record hmem).2
      rw [keeps_iff hrecord]
      exact h address (mem_addresses.mpr ⟨record,hmem,hrecord⟩)
  rw [← hnil]
  unfold keptRRset
  split
  · rename_i h
    simp [h]
  · rename_i h
    simp [h]

/-- What is kept of an rrset. -/
structure Kept (config : IpFilterPluginConfig) (ipset : IPSet) (r r' : RRset) : Prop where
  name : r'.name = r.name
  rdtype : r'.rdtype = r.rdtype
  rdclass : r'.rdclass = r.rdclass
  covers : r'.covers = r.covers
  ttl : r'.ttl = r.ttl
  items : r'.items.Sublist r.items
  addresses : ∀ address, address ∈ r'.addresses ↔
    address ∈ r.addresses ∧ Passes config ipset address

theorem keptRRset_some (h : keptRRset config ipset r = some r') : Kept config ipset r r' := by
  unfold keptRRset at h
  split at h
  · contradiction
  · cases h
    refine ⟨rfl,rfl,rfl,rfl,rfl,List.filter_sublist,fun address => ?_⟩
    simp only [mem_addresses,List.mem_filter]
    constructor
    · intro h
      obtain ⟨record,⟨hmem,hkeeps⟩,hrecord⟩ := h
      exact ⟨⟨record,hmem,hrecord⟩,(keeps_iff hrecord).mp hkeeps⟩
    · intro h
      obtain ⟨⟨record,hmem,hrecord⟩,hpasses⟩ := h
      exact ⟨record,⟨hmem,(keeps_iff hrecord).mpr hpasses⟩,hrecord⟩

theorem Kept.key (h : Kept config ipset r r') : r'.key = r.key := by
  simp [RRset.key,h.name,h.rdtype,h.rdclass,h.covers]

theorem Kept.absorb (h : Kept config ipset r r') (hrecords : r.HoldsAddresses)
    (htype : r.rdtype ∈ addressTypes) : r.absorb r' = r := by
  refine RRset.absorb_subset (fun record hmem => h.items.subset hmem) ?_ h.ttl
  intro record hmem
  rw [(hrecords htype record (h.items.subset hmem)).1]
  exact addressTypes_not_singleton htype

theorem addresses_ne_nil (hrecords : r.HoldsAddresses) (htype : r.rdtype ∈ addressTypes) :
    ∃ address, address ∈ r.addresses := by
  obtain ⟨record,rest,hcons⟩ := List.exists_cons_of_ne_nil r.nonempty
  have hmem : record ∈ r.items := by simp [hcons]
  obtain ⟨address,hrecord⟩ := (hrecords htype record hmem).2
  exact ⟨address,mem_addresses.mpr ⟨record,hmem,hrecord⟩⟩

end

/-! ### The run -/

section
variable {E S W : Type} {codec : Codec W} {engine : PipelineEngine E S}
  {env : Surroundings E engine.resolverManager} {config : IpFilterPluginConfig} {ipset : IPSet}

/-- A query for addresses that the filter applies to, before any answer to it. -/
structure Asks (config : IpFilterPluginConfig) (c : RequestContext E) (q : Question) : Prop where
  question : c.request.question = [q]
  query : c.request.flags.qr = false
  opcode : c.request.opcode = Opcode.QUERY
  type : q.rdtype ∈ addressTypes
  tags : (matchesRequest config c.tags).1 = true
  answer : c.finalAnswer = none
  response : c.finalResponse = none

/-- An upstream's answer to it: made from a decoded NOERROR reply. -/
structure Answers (q : Question) (now : ℚ) (response : Message) (a : Answer) : Prop where
  made : mkAnswer now q.name q.rdtype q.rdclass response = .ok a
  rcode : response.rcode = Rcode.NOERROR
  decoded : Decoded response

theorem Answers.built {q : Question} {now : ℚ} {response : Message} {a : Answer}
    (h : Answers q now response a) :
    a.rdtype = q.rdtype ∧ a.response = response ∧ ∃ q' chain, Built a q' chain := by
  obtain ⟨chain,hchain,ha⟩ := mkAnswer_ok.mp h.made
  obtain ⟨_,_,q',hq',_⟩ := resolveChaining_ok.mp hchain
  obtain ⟨chain',hb⟩ := built_of_mkAnswer h.made h.rcode hq'
  exact ⟨by rw [ha],by rw [ha],q',chain',hb⟩

variable {s : EngineState E S} {q : Question} {now : ℚ} {response : Message} {a : Answer}
  {result : UpstreamResult}

/-- What the client is led to, in terms of the rrset that was written back. -/
structure Reaches (codec : Codec W) (a : Answer) (x reached : Option RRset) : Prop where
  follows : Typed (edited a x) → codec.Encodes (writtenBack (edited a x)).response →
    reached = (a.response.withAnswer (written a x)).merged.leadsTo
  fails : ¬ (Typed (edited a x) ∧ codec.Encodes (writtenBack (edited a x)).response) →
    reached = none

variable (codec engine env config ipset) in
/-- The client is led to where the section leads that the filtered rrset was written to,
and to nothing where that fails. -/
theorem answerUpstream_run (hasks : Asks config s.context q) (hanswers : Answers q now response a)
    (hresult : result.answer = some a) :
    ∃ s' m, answerUpstream codec engine env config ipset s.context.request result s = (.ok (),s') ∧
      s'.context.finalResponse = some m ∧
      Reaches codec a (filteredRRset config ipset a) m.leadsTo := by
  obtain ⟨hrdtype,hresponse,q',chain,hb⟩ := hanswers.built
  have hrecords : ∀ r, a.rrset = some r → r.HoldsAddresses := by
    intro r hr
    refine hanswers.decoded.records r ?_
    rw [← hresponse]
    exact (built_resolved hb hr).1
  have hfirst : firstQuestion s.context.request = .ok q := by simp [firstQuestion,hasks.question]
  have hrcode : a.response.rcode = Rcode.NOERROR := by rw [hresponse,hanswers.rcode]
  have hhook := onUpstreamResponse_run config ipset hfirst hasks.type hasks.tags hresult hrdtype
    hrcode hrecords
  generalize filteredRRset config ipset a = x at hhook ⊢
  have htake : takeResult { result with answer := some (edited a x) } s.context =
      (.ok (),{ s.context with finalAnswer := some (edited a x) }) := by
    unfold takeResult
    rw [Exec.bind_ok (Exec.run_get _)]
    simp [hasks.answer,hasks.response]
  unfold answerUpstream
  rw [Exec.handle_bind_ok (Exec.run_get s)]
  simp only [hhook]
  rw [Exec.handle_bind_ok (Exec.run_ofExcept _ _)]
  unfold onContext
  by_cases hsyncs : Syncs codec env.now (edited a x)
  · obtain ⟨a',hfinal⟩ := finalizeContext_synced
      (c:={ s.context with finalAnswer := some (edited a x) }) rfl hsyncs
    refine ⟨_,_,Exec.handle_ok (Exec.within_run ((Exec.bind_ok htake).trans hfinal)),rfl,?_⟩
    exact ⟨fun _ _ => rfl,fun hnot => absurd ⟨hsyncs.1,hsyncs.2.1⟩ hnot⟩
  · obtain ⟨e,a',hfinal⟩ := finalizeContext_unsynced
      (c:={ s.context with finalAnswer := some (edited a x) }) rfl hsyncs
    have hnone := leadsTo_errorReply hasks.opcode hasks.question Rcode.SERVFAIL
    rw [Exec.handle_error (Exec.within_run ((Exec.bind_ok htake).trans hfinal)),
      failRequest_run codec engine env hasks.query hasks.opcode hasks.question e _]
    refine ⟨_,_,rfl,rfl,fun htyped hencodes => hnone.trans ?_,fun _ => hnone⟩
    unfold Message.leadsTo
    cases hresolve : resolveChaining (a.response.withAnswer (written a x)).merged with
    | error _ => rfl
    | ok ch => exact absurd ⟨htyped,hencodes,_,mkAnswer_ok.mpr ⟨ch,hresolve,rfl⟩⟩ hsyncs

variable {q' : Question} {chain : ChainingResult} {r : RRset} {reached : Option RRset}

theorem notBypassed_none {original : Option RRset} :
    NotBypassed config ipset original none ↔
      ∀ r, original = some r → ∀ address ∈ r.addresses, ¬ Passes config ipset address := by
  constructor
  · intro h r hr address haddress hpasses
    obtain ⟨_,hnone,_⟩ := h.present r hr address haddress hpasses
    cases hnone
  · exact fun h => ⟨nofun,fun r hr address haddress hpasses =>
      absurd hpasses (h r hr address haddress)⟩

theorem notBypassed_self : NotBypassed config ipset (some r) (some r) ↔
    ∀ address ∈ r.addresses, Passes config ipset address := by
  constructor
  · exact fun h => h.passes r rfl
  · intro h
    refine ⟨?_,?_⟩
    · intro _ heq
      cases heq
      exact h
    · intro _ heq address haddress _
      cases heq
      exact ⟨r,rfl,haddress⟩

/-- None of the addresses passes: the filter erases the rrset. -/
theorem reaches_erased (hb : Built a q' chain)
    (hdistinct : Keyed.Distinct RRset.key a.response.answer) (ha : a.rrset = some r)
    (hrecords : r.HoldsAddresses) (htype : r.rdtype ∈ addressTypes) (hsame : r.rdtype = a.rdtype)
    (hnone : ∀ address ∈ r.addresses, ¬ Passes config ipset address)
    (hreaches : Reaches codec a none reached) :
    NotBypassed config ipset (some r) reached ↔ Withstands codec config ipset a r := by
  have htyped : Typed (edited a none) := nofun
  have hpass : ¬ ∃ address ∈ r.addresses, Passes config ipset address :=
    fun ⟨address,haddress,hpasses⟩ => hnone address haddress hpasses
  by_cases hencodes : codec.Encodes (writtenBack (edited a none)).response
  · rw [hreaches.follows htyped hencodes]
    by_cases hlast : LastOfType a r
    · rw [written_erased hlast]
      constructor
      · exact fun h => ⟨fun hsome => absurd hsome hpass,fun _ _ _ => ⟨hlast,h.passes⟩⟩
      · intro h
        obtain ⟨_,hother⟩ := h.none_passes hnone hsame hencodes
        refine ⟨hother,?_⟩
        intro _ heq address haddress hpasses
        cases heq
        exact absurd hpasses (hnone address haddress)
    · have hback : (a.response.withAnswer (written a none)).merged.leadsTo = some r :=
        written_misplaced hb hdistinct ha (hsame ▸ htype) hlast nofun
      rw [hback,notBypassed_self]
      constructor
      · intro h
        obtain ⟨address,haddress⟩ := addresses_ne_nil hrecords htype
        exact absurd (h address haddress) (hnone address haddress)
      · exact fun h => absurd (h.none_passes hnone hsame hencodes).1 hlast
  · rw [hreaches.fails fun h => hencodes h.2,notBypassed_none]
    constructor
    · exact fun _ => ⟨fun hsome => absurd hsome hpass,fun _ _ h => absurd h hencodes⟩
    · intro _ _ heq
      cases heq
      exact hnone

/-- Some of the addresses pass: the filter replaces the rrset by what it keeps of it. -/
theorem reaches_replaced {r' : RRset} (hb : Built a q' chain)
    (hdistinct : Keyed.Distinct RRset.key a.response.answer) (ha : a.rrset = some r)
    (hrecords : r.HoldsAddresses) (htype : r.rdtype ∈ addressTypes) (hsame : r.rdtype = a.rdtype)
    (hkept : keptRRset config ipset r = some r')
    (hsome : ∃ address ∈ r.addresses, Passes config ipset address)
    (hreaches : Reaches codec a (some r') reached) :
    NotBypassed config ipset (some r) reached ↔ Withstands codec config ipset a r := by
  have hk := keptRRset_some hkept
  have hlost (h : reached = none) : ¬ NotBypassed config ipset (some r) reached := by
    intro hnot
    rw [h] at hnot
    obtain ⟨address,haddress,hpasses⟩ := hsome
    exact notBypassed_none.mp hnot r rfl address haddress hpasses
  have hwithstands : Withstands codec config ipset a r ↔ r.rdclass = a.rdclass ∧
      codec.Encodes (writtenBack (edited a (some r'))).response ∧
      ((∀ address ∈ r.addresses, Passes config ipset address) ∨ LastOfType a r) := by
    rw [← hkept]
    constructor
    · exact fun h => (h.some_pass hsome).2
    · intro h
      refine ⟨fun _ => ⟨hsame,h⟩,fun hnone => ?_⟩
      obtain ⟨address,haddress,hpasses⟩ := hsome
      exact absurd hpasses (hnone address haddress)
  rw [hwithstands]
  by_cases hclass : r.rdclass = a.rdclass
  · by_cases hencodes : codec.Encodes (writtenBack (edited a (some r'))).response
    · have htyped : Typed (edited a (some r')) := by
        intro _ heq
        cases heq
        exact ⟨hk.rdtype.trans hsame,hk.rdclass.trans hclass⟩
      rw [hreaches.follows htyped hencodes]
      by_cases hlast : LastOfType a r
      · rw [written_placed hb hdistinct ha hlast hsame hclass hk.name hk.rdtype hk.rdclass
          hk.covers hencodes]
        refine iff_of_true ⟨?_,?_⟩ ⟨hclass,hencodes,.inr hlast⟩
        · intro _ heq address haddress
          cases heq
          exact ((hk.addresses address).mp haddress).2
        · intro _ heq address haddress hpasses
          cases heq
          exact ⟨r',rfl,(hk.addresses address).mpr ⟨haddress,hpasses⟩⟩
      · have hback : (a.response.withAnswer (written a (some r'))).merged.leadsTo = some r := by
          refine written_misplaced hb hdistinct ha (hsame ▸ htype) hlast ?_
          intro _ heq
          cases heq
          exact ⟨hk.key,hsame,hclass,hk.absorb hrecords htype⟩
        rw [hback,notBypassed_self]
        simp [hclass,hencodes,hlast]
    · have hnone := hreaches.fails fun h => hencodes h.2
      exact iff_of_false (hlost hnone) fun h => hencodes h.2.1
  · have hmismatch : ¬ Typed (edited a (some r')) := fun h =>
      hclass (hk.rdclass.symm.trans (h r' rfl).2)
    have hnone := hreaches.fails fun h => hmismatch h.1
    exact iff_of_false (hlost hnone) fun h => hclass h.1

/-- A reply with an rrset of another type is answered with SERVFAIL. -/
theorem reaches_mistyped (hdiffers : r.rdtype ≠ a.rdtype)
    (hreaches : Reaches codec a (some r) reached) :
    NotBypassed config ipset (some r) reached ↔ Withstands codec config ipset a r := by
  have hmismatch : ¬ Typed (edited a (some r)) := fun h => hdiffers (h r rfl).1
  rw [hreaches.fails fun h => hmismatch h.1,notBypassed_none]
  constructor
  · intro h
    refine ⟨?_,fun _ hsame => absurd hsame hdiffers⟩
    intro ⟨address,haddress,hpasses⟩
    exact absurd hpasses (h r rfl address haddress)
  · intro h _ heq address haddress hpasses
    cases heq
    exact hdiffers (h.some_pass ⟨address,haddress,hpasses⟩).1

theorem notBypassed_reached_iff (htype : q.rdtype ∈ addressTypes)
    (hanswers : Answers q now response a)
    (hreaches : Reaches codec a (filteredRRset config ipset a) reached) :
    NotBypassed config ipset a.rrset reached ↔
      ∀ r, a.rrset = some r → Withstands codec config ipset a r := by
  obtain ⟨hrdtype,hresponse,q',chain,hb⟩ := hanswers.built
  have hdistinct : Keyed.Distinct RRset.key a.response.answer := by
    rw [hresponse]
    exact hanswers.decoded.indexed
  have haddress : a.rdtype ∈ addressTypes := hrdtype ▸ htype
  unfold filteredRRset at hreaches
  cases ha : a.rrset with
  | none =>
    simp only [ha] at hreaches
    have hnothing : reached = none := by
      by_cases h : Typed (edited a none) ∧ codec.Encodes (writtenBack (edited a none)).response
      · rw [hreaches.follows h.1 h.2]
        exact written_nothing hb hdistinct ha haddress
      · exact hreaches.fails h
    rw [hnothing,notBypassed_none]
    simp
  | some r =>
    have hrecords : r.HoldsAddresses := by
      refine hanswers.decoded.records r ?_
      rw [← hresponse]
      exact (built_resolved hb ha).1
    simp only [ha,Option.some.injEq,forall_eq'] at hreaches ⊢
    by_cases hsame : r.rdtype = a.rdtype
    · have hraddress : r.rdtype ∈ addressTypes := hsame ▸ haddress
      rw [if_pos hsame] at hreaches
      cases hkept : keptRRset config ipset r with
      | none =>
        rw [hkept] at hreaches
        have hnone := (keptRRset_none_iff hrecords hraddress).mp hkept
        exact reaches_erased hb hdistinct ha hrecords hraddress hsame hnone hreaches
      | some r' =>
        rw [hkept] at hreaches
        have hsome : ∃ address ∈ r.addresses, Passes config ipset address := by
          by_contra hnot
          have hnone : keptRRset config ipset r = none :=
            (keptRRset_none_iff hrecords hraddress).mpr fun address haddress hpasses =>
              hnot ⟨address,haddress,hpasses⟩
          rw [hkept] at hnone
          contradiction
        exact reaches_replaced hb hdistinct ha hrecords hraddress hsame hkept hsome hreaches
    · rw [if_neg hsame] at hreaches
      exact reaches_mistyped hsame hreaches

end

end IpFilterPlugin

/-- The filter is not bypassed just when it has its way with the rrset that the reply led
to, if it led to one. -/
theorem ipFilter_notBypassed_iff {E S W : Type} (codec : Codec W) (engine : PipelineEngine E S)
    (env : Surroundings E engine.resolverManager) (config : IpFilterPluginConfig) (ipset : IPSet)
    (s : EngineState E S) (q : Question) (now : ℚ) (response : Message) (a : Answer)
    (result : UpstreamResult) (hasks : IpFilterPlugin.Asks config s.context q)
    (hanswers : IpFilterPlugin.Answers q now response a) (hresult : result.answer = some a) :
    (∃ s' m,
      IpFilterPlugin.answerUpstream codec engine env config ipset s.context.request result s =
        (.ok (),s') ∧ s'.context.finalResponse = some m ∧
        IpFilterPlugin.NotBypassed config ipset a.rrset m.leadsTo) ↔
      ∀ r, a.rrset = some r → IpFilterPlugin.Withstands codec config ipset a r := by
  obtain ⟨s₁,m₁,hrun,hm₁,hreaches⟩ :=
    IpFilterPlugin.answerUpstream_run codec engine env config ipset hasks hanswers hresult
  rw [← IpFilterPlugin.notBypassed_reached_iff hasks.type hanswers hreaches]
  constructor
  · intro h
    obtain ⟨s',m,hrun',hm,hnot⟩ := h
    rw [hrun] at hrun'
    cases hrun'
    rw [hm₁] at hm
    cases hm
    exact hnot
  · exact fun h => ⟨s₁,m₁,hrun,hm₁,h⟩

/-! ### A blocked address -/

def hostAddresses : RRset where
  name := hostName
  rdclass := RdataClass.IN
  rdtype := RdataType.A
  ttl := 60
  items := [.a 1,.a 2]
  nonempty := List.cons_ne_nil _ _
  distinct := by decide

def blockingConfig : IpFilterPluginConfig := { blacklistTags := ["blocked"] }

/-- The address 0.0.0.1 alone is blocked. -/
def blockedSet : IPSet := ⟨[⟨.v4 1 ⟨32,by decide⟩,{"blocked"}⟩]⟩

def askingState : EngineState Unit Unit := ⟨buildContext () hostQuery "" "" [],(),[]⟩

theorem one_fails : ¬ IpFilterPlugin.Passes blockingConfig blockedSet (.v4 1) := by
  rw [← IpFilterPlugin.shouldKeep_iff]
  decide

theorem two_passes : IpFilterPlugin.Passes blockingConfig blockedSet (.v4 2) := by
  rw [← IpFilterPlugin.shouldKeep_iff]
  decide

theorem askingState_asks : IpFilterPlugin.Asks blockingConfig askingState.context hostQuestion :=
  ⟨rfl,rfl,rfl,by decide,rfl,rfl,rfl⟩

theorem hostAnswer_answers {answer : List RRset} {rrset : RRset}
    (h : resolveChaining (hostReply answer) = .ok ⟨hostName,some rrset,60,[]⟩)
    (hindexed : Keyed.Distinct RRset.key answer)
    (hrecords : ∀ r ∈ answer, ∀ record ∈ r.items,
      record.rdtype = r.rdtype ∧ ∃ address, record.address = .ok address) :
    IpFilterPlugin.Answers hostQuestion 0 (hostReply answer) (hostAnswer answer rrset) :=
  ⟨hostAnswer_built h,rfl,hindexed,fun r hr _ => hrecords r hr⟩

theorem ipFilter_notBypassed_host :
    (∃ s' m, IpFilterPlugin.answerUpstream directCodec (soloEngine []) (soloSurroundings [] ())
        blockingConfig blockedSet hostQuery
        ⟨"up",0,some (hostAnswer [hostAddresses] hostAddresses),none,∅,[]⟩ askingState =
        (.ok (),s') ∧ s'.context.finalResponse = some m ∧
        IpFilterPlugin.NotBypassed blockingConfig blockedSet (some hostAddresses) m.leadsTo) ↔
      ∀ r, some hostAddresses = some r → IpFilterPlugin.Withstands directCodec blockingConfig
        blockedSet (hostAnswer [hostAddresses] hostAddresses) r :=
  ipFilter_notBypassed_iff directCodec (soloEngine []) (soloSurroundings [] ()) blockingConfig
    blockedSet askingState hostQuestion 0 (hostReply [hostAddresses])
    (hostAnswer [hostAddresses] hostAddresses)
    ⟨"up",0,some (hostAnswer [hostAddresses] hostAddresses),none,∅,[]⟩ askingState_asks
    (hostAnswer_answers (by decide) (by decide)
      (by simp [hostAddresses,Rdata.rdtype,Rdata.address])) rfl

/-- With an address of another owner behind the rrset of the host, the blocked address
stays. -/
theorem ipFilter_leaves_blocked :
    ∃ a, IpFilterPlugin.Answers hostQuestion 0
        (hostReply [hostAddresses,addressOf otherName 3]) a ∧
      ¬ ∃ s' m, IpFilterPlugin.answerUpstream directCodec (soloEngine []) (soloSurroundings [] ())
          blockingConfig blockedSet hostQuery ⟨"up",0,some a,none,∅,[]⟩ askingState =
          (.ok (),s') ∧ s'.context.finalResponse = some m ∧
          IpFilterPlugin.NotBypassed blockingConfig blockedSet a.rrset m.leadsTo := by
  have hanswers : IpFilterPlugin.Answers hostQuestion 0
      (hostReply [hostAddresses,addressOf otherName 3])
      (hostAnswer [hostAddresses,addressOf otherName 3] hostAddresses) :=
    hostAnswer_answers (by decide) (by decide)
      (by simp [hostAddresses,addressOf,Rdata.rdtype,Rdata.address])
  have hresult : (⟨"up",0,some (hostAnswer [hostAddresses,addressOf otherName 3] hostAddresses),
      none,∅,[]⟩ : UpstreamResult).answer = some _ := rfl
  obtain ⟨s₁,m₁,hrun₁,hm₁,hreaches⟩ := IpFilterPlugin.answerUpstream_run directCodec
    (soloEngine []) (soloSurroundings [] ()) blockingConfig blockedSet askingState_asks hanswers
    hresult
  refine ⟨_,hanswers,?_⟩
  intro h
  obtain ⟨s',m,hrun,hm,hnot⟩ := h
  cases hrun.symm.trans hrun₁
  cases hm.symm.trans hm₁
  obtain ⟨_,_,_,hall | hlast⟩ := ((IpFilterPlugin.notBypassed_reached_iff askingState_asks.type
    hanswers hreaches).mp hnot hostAddresses rfl).some_pass ⟨.v4 2,by decide,two_passes⟩
  · exact one_fails (hall (.v4 1) (by decide))
  · have hplaces : targetIndex RdataType.A RdataClass.IN [hostAddresses,addressOf otherName 3] ≠
        Keyed.position RRset.key hostAddresses.key [hostAddresses,addressOf otherName 3] := by
      decide
    exact hplaces hlast

end SmartDns
