import SmartDns.Https.Ech
set_option autoImplicit false

/-!
Where the injected rrset ends up: it is written over the last HTTPS rrset of the section or behind
it, and the client follows the chain from the question. One that is made from nothing belongs to
the name of the question, also where that name is an alias.
-/

namespace SmartDns

namespace CloudflareEchPlugin

open ParamKey (ECH)

/-- No owner has both a CNAME and a HTTPS rrset. -/
def NoBoth (l : List RRset) : Prop :=
  ∀ cname ∈ l, cname.rdtype = RdataType.CNAME → ∀ https ∈ l, https.rdtype = RdataType.HTTPS →
    cname.name.canon ≠ https.name.canon

/-- A record before and after: nothing but the ECH of a record in service mode may differ. -/
def Alike : Rdata → Rdata → Prop
  | .https record, .https record' =>
    record'.priority = record.priority ∧ record'.target = record.target ∧
      (record.priority = 0 → record' = record) ∧
      ∀ key, key ≠ ECH → record'.params.get key = record.params.get key
  | rdata, rdata' => rdata' = rdata

structure Carries (echBytes : List UInt8) (original : Option RRset) (h : RRset) : Prop where
  service : ∀ record, .https record ∈ h.items → record.priority ≠ 0 →
    record.params.get ECH = some (.ech echBytes)
  unchanged : ∀ r, original = some r →
    h.name = r.name ∧ h.ttl = r.ttl ∧ List.Forall₂ Alike r.items h.items

/-- What the response is to be like, for the rrset that the answer had before. -/
structure WellFormed (echBytes : List UInt8) (original : Option RRset) (m : Message) : Prop where
  reached : ∃ h, m.leadsTo = some h ∧ Carries echBytes original h
  noBoth : NoBoth m.answer

/-- An answer to `q` that was made from a decoded response. -/
structure Made (a : Answer) (q : Question) (chain : ChainingResult) : Prop where
  resolves : resolveChaining a.response = .ok chain
  question : a.response.question = [q]
  asked : q.key = rrkey a.qname a.rdclass a.rdtype
  indexed : Keyed.Distinct RRset.key a.response.answer
  rrset : a.rrset = chain.answer ∨ a.rrset = chain.answer.or a.response.answer.head?

def owner (a : Answer) : Name := (a.rrset.map RRset.name).getD a.qname

/-- When the response is as it should be: no owner but that of the injected rrset has both, that
one has no CNAME, an rrset that was there is what the chain leads to and the last one of its type,
and one that was not is of the class of the answer. -/
structure Placed {W : Type} (codec : Codec W) (echBytes : List UInt8) (ttl : ℕ) (a : Answer) :
    Prop where
  encodes : ∃ new, IsInjected echBytes ttl a new ∧
    codec.Encodes (writtenBack (edited a (some new))).response
  alone : NoBoth (written a none)
  unaliased : ∀ cname ∈ a.response.answer, cname.rdtype = RdataType.CNAME →
    cname.name.canon ≠ (owner a).canon
  resolved : ∀ r, a.rrset = some r → a.response.leadsTo = some r ∧
    targetIndex a.rdtype a.rdclass a.response.answer =
      Keyed.position RRset.key r.key a.response.answer
  ofClass : a.rrset = none → a.rdclass = RdataClass.IN

/-! ### The section with the new rrset -/

section
variable {a : Answer} {new r : RRset} {echBytes : List UInt8} {ttl : ℕ}

/-- The new rrset stands where the last one of its type stood, or at the end. -/
theorem written_split (a : Answer) : ∃ x z, written a none = x ++ z ∧
    (∀ new, written a (some new) = x ++ new :: z) ∧
    (∀ r ∈ z, ¬ (r.rdtype = a.rdtype ∧ r.rdclass = a.rdclass)) ∧
    (a.response.answer = x ++ z ∨ ∃ y, a.response.answer = x ++ y :: z ∧
      y.rdtype = a.rdtype ∧ y.rdclass = a.rdclass ∧
      targetIndex a.rdtype a.rdclass a.response.answer = some x.length) := by
  unfold written
  cases hi : targetIndex a.rdtype a.rdclass a.response.answer with
  | none => exact ⟨a.response.answer,[],by simp [writeBack],fun _ => rfl,by simp,by simp⟩
  | some i =>
    obtain ⟨x,y,z,hsplit,rfl,hy,hz⟩ := targetIndex_some hi
    refine ⟨x,z,?_,fun new => ?_,hz,.inr ⟨y,hsplit,hy.1,hy.2,rfl⟩⟩
    · rw [hsplit]
      exact writeBack_erase x z y
    · rw [hsplit]
      exact writeBack_set x z y new

theorem others_subset {x : RRset} (h : x ∈ written a none) : x ∈ a.response.answer := by
  obtain ⟨_,_,hnone,_,_,heq | ⟨_,heq,_⟩⟩ := written_split a
  · rwa [heq,← hnone]
  · rw [hnone] at h
    rw [heq]
    exact List.mem_append.mpr ((List.mem_append.mp h).imp_right (List.mem_cons_of_mem _))

theorem mem_others {x : RRset} (h : x ∈ a.response.answer) (htype : x.rdtype ≠ a.rdtype) :
    x ∈ written a none := by
  obtain ⟨_,_,hnone,_,_,heq | ⟨y,heq,hy,_⟩⟩ := written_split a
  · rwa [hnone,← heq]
  · rw [heq] at h
    rw [hnone]
    refine List.mem_append.mpr ((List.mem_append.mp h).imp_right fun h => ?_)
    exact (List.mem_cons.mp h).resolve_left fun hxy => htype (hxy ▸ hy)

theorem others_distinct (h : Keyed.Distinct RRset.key a.response.answer) :
    Keyed.Distinct RRset.key (written a none) := by
  obtain ⟨_,_,hnone,_,_,heq | ⟨_,heq,_⟩⟩ := written_split a
  · rwa [hnone,← heq]
  · rw [heq] at h
    rw [hnone]
    exact h.middle.2.2

theorem others_none {k : RRKey} (h : Keyed.lookup RRset.key k a.response.answer = none) :
    Keyed.lookup RRset.key k (written a none) = none := by
  rw [Keyed.lookup_none_iff,List.mem_map] at h ⊢
  intro hmem
  obtain ⟨x,hx,hk⟩ := hmem
  exact h ⟨x,others_subset hx,hk⟩

theorem others_lookup {k : RRKey} (htype : k.rdtype ≠ a.rdtype) :
    Keyed.lookup RRset.key k (written a none) = Keyed.lookup RRset.key k a.response.answer := by
  obtain ⟨_,_,hnone,_,_,heq | ⟨y,heq,hy,_⟩⟩ := written_split a
  · rw [hnone,heq]
  · rw [hnone,heq]
    refine (Keyed.lookup_other fun hk => htype ?_).symm
    rw [← hk]
    exact hy

/-- What the lookups in the encoded section give. -/
theorem written_lookup (hindexed : Keyed.Distinct RRset.key a.response.answer)
    (htype : new.rdtype = a.rdtype) (hclass : new.rdclass = a.rdclass) (k : RRKey) :
    Keyed.lookup RRset.key k (Message.mergeSection (written a (some new))) =
      if k = new.key then
        some ((Keyed.lookup RRset.key k (written a none)).elim new fun old => old.absorb new)
      else Keyed.lookup RRset.key k (written a none) := by
  have hdistinct := others_distinct hindexed
  obtain ⟨x,z,hnone,hsome,hz,_⟩ := written_split a
  rw [hnone] at hdistinct
  rw [hnone,hsome]
  refine Keyed.lookup_gather_insert RRset.key_absorb hdistinct fun hmem => ?_
  obtain ⟨other,hother,hkey⟩ := List.mem_map.mp hmem
  refine hz other hother ⟨?_,?_⟩
  · exact (congrArg RRKey.rdtype hkey).trans htype
  · exact (congrArg RRKey.rdclass hkey).trans hclass

theorem noBoth_congr {l m : List RRset} (h : ∀ k, k ∈ l.map RRset.key ↔ k ∈ m.map RRset.key) :
    NoBoth l ↔ NoBoth m := by
  have hone {l m : List RRset} (h : ∀ k, k ∈ l.map RRset.key ↔ k ∈ m.map RRset.key)
      (hl : NoBoth l) : NoBoth m := by
    intro cname hcname hc https hhttps ht
    obtain ⟨cname',hmem,hkey⟩ := List.mem_map.mp ((h cname.key).mpr (List.mem_map_of_mem hcname))
    obtain ⟨https',hmem',hkey'⟩ := List.mem_map.mp ((h https.key).mpr (List.mem_map_of_mem hhttps))
    have hname : cname'.name.canon = cname.name.canon := congrArg RRKey.name hkey
    have hname' : https'.name.canon = https.name.canon := congrArg RRKey.name hkey'
    rw [← hname,← hname']
    exact hl cname' hmem ((congrArg RRKey.rdtype hkey).trans hc) https' hmem'
      ((congrArg RRKey.rdtype hkey').trans ht)
  exact ⟨hone h,hone fun k => (h k).symm⟩

theorem noBoth_written (htype : new.rdtype = RdataType.HTTPS)
    (hanswer : a.rdtype = RdataType.HTTPS) :
    NoBoth (Message.mergeSection (written a (some new))) ↔ NoBoth (written a none) ∧
      ∀ cname ∈ a.response.answer, cname.rdtype = RdataType.CNAME →
        cname.name.canon ≠ new.name.canon := by
  have hmerged : NoBoth (Message.mergeSection (written a (some new))) ↔
      NoBoth (written a (some new)) :=
    noBoth_congr fun k => Keyed.mem_gather_keys RRset.key_absorb
  rw [hmerged]
  obtain ⟨x,z,hnone,hsome,_⟩ := written_split a
  have hmem (other : RRset) : other ∈ written a (some new) ↔
      other = new ∨ other ∈ written a none := by
    rw [hnone,hsome]
    simp only [List.mem_append,List.mem_cons]
    tauto
  have hdiffers {cname : RRset} (h : cname.rdtype = RdataType.CNAME) :
      cname.rdtype ≠ RdataType.HTTPS := by
    rw [h]
    decide
  constructor
  · intro h
    refine ⟨fun cname hcname hc https hhttps ht => ?_,fun cname hcname hc => ?_⟩
    · exact h cname ((hmem cname).mpr (.inr hcname)) hc https ((hmem https).mpr (.inr hhttps)) ht
    · have hothers := mem_others hcname (hanswer ▸ hdiffers hc)
      exact h cname ((hmem cname).mpr (.inr hothers)) hc new ((hmem new).mpr (.inl rfl)) htype
  · intro h cname hcname hc https hhttps ht
    have hne : cname ≠ new := fun heq => hdiffers hc (heq ▸ htype)
    have hothers := ((hmem cname).mp hcname).resolve_left hne
    obtain rfl | hhttps := (hmem https).mp hhttps
    · exact h.2 cname (others_subset hothers) hc
    · exact h.1 cname hothers hc https hhttps ht

/-! ### The chain in it -/

variable {q : Question} {chain found : ChainingResult}

/-- The chain of the original section, before its TTL is looked at. -/
theorem Made.follows (h : Made a q chain) : ∃ found,
    followChain a.response.answer q maxChain q.name maxTtl [] = .ok found ∧
      chain.answer = found.answer ∧
      found.answer = findRRset a.response.answer found.canonicalName q.rdclass q.rdtype := by
  obtain ⟨_,_,q',hq',found,hfound,_,hneg⟩ := resolveChaining_ok.mp h.resolves
  obtain rfl : q = q' := by simpa [h.question] using hq'
  exact ⟨found,hfound,(negativeTtl_answer hneg).1,followChain_answer hfound⟩

/-- What the response leads to is what the chain ends with in its section. -/
theorem leadsTo_written (h : Made a q chain) (hrcode : a.response.rcode = Rcode.NOERROR)
    {l : List RRset} (hfollow : followChain (Message.mergeSection l) q maxChain q.name maxTtl [] =
      .ok found) : ((a.response.withAnswer l).merged).leadsTo = found.answer := by
  obtain ⟨hop,hqr,_⟩ := resolveChaining_ok.mp h.resolves
  cases hanswer : found.answer with
  | some rrset =>
    have hresolved : resolveChaining (a.response.withAnswer l).merged = .ok found := by
      refine resolveChaining_ok.mpr ⟨hop,hqr,q,h.question,found,hfollow,?_,negativeTtl_some hanswer⟩
      simp [hrcode,Rcode.NOERROR,Rcode.NXDOMAIN]
    rw [Message.leadsTo_ok hresolved,hanswer]
  | none =>
    unfold Message.leadsTo
    cases hresolve : resolveChaining (a.response.withAnswer l).merged with
    | error _ => rfl
    | ok ch =>
      obtain ⟨_,_,q',hq',found',hfound',_,hneg⟩ := resolveChaining_ok.mp hresolve
      obtain rfl : q = q' := by simpa [h.question] using hq'
      have hsame : found' = found := by
        have heq := hfound'.symm.trans hfollow
        simpa using heq
      exact (negativeTtl_answer hneg).1.trans (hsame ▸ hanswer)

theorem Made.types (h : Made a q chain) : q.rdtype = a.rdtype ∧ q.rdclass = a.rdclass :=
  ⟨congrArg RRKey.rdtype h.asked,congrArg RRKey.rdclass h.asked⟩

/-- Where the new rrset has the key of one in the section, the chain ends where it ended. -/
theorem chain_written (h : Made a q chain) (hrcode : a.response.rcode = Rcode.NOERROR)
    (htype : new.rdtype = a.rdtype) (hclass : new.rdclass = a.rdclass)
    (hhttps : a.rdtype = RdataType.HTTPS) (hr : r ∈ a.response.answer) (hkey : new.key = r.key)
    (hfound : followChain a.response.answer q maxChain q.name maxTtl [] = .ok found)
    (hend : found.answer.isSome = true → rrkey found.canonicalName q.rdclass q.rdtype = r.key) :
    ((a.response.withAnswer (written a (some new))).merged).leadsTo =
      Keyed.lookup RRset.key (rrkey found.canonicalName q.rdclass q.rdtype)
        (Message.mergeSection (written a (some new))) := by
  have hlookup := written_lookup h.indexed htype hclass
  obtain ⟨found',hfollow,hanswer⟩ : ∃ found',
      followChain (Message.mergeSection (written a (some new))) q maxChain q.name maxTtl [] =
        .ok found' ∧
      found'.answer = findRRset (Message.mergeSection (written a (some new)))
        found.canonicalName q.rdclass q.rdtype := by
    refine followChain_transfer hfound (fun _ name => ?_) (fun name _ hnone => ?_) fun hsome => ?_
    · have hne : RdataType.CNAME ≠ a.rdtype := by
        rw [hhttps]
        decide
      unfold findRRset
      rw [hlookup,if_neg fun heq => hne ((congrArg RRKey.rdtype heq).trans htype)]
      exact others_lookup hne
    · unfold findRRset at hnone ⊢
      rw [hlookup,if_neg]
      · exact others_none hnone
      · intro heq
        rw [heq,hkey,Keyed.lookup_none_iff] at hnone
        exact hnone (List.mem_map_of_mem hr)
    · unfold findRRset
      rw [hlookup,if_pos ((hend hsome).trans hkey.symm)]
      rfl
  rw [leadsTo_written h hrcode hfollow]
  exact hanswer

/-! ### The records of the new rrset -/

theorem IsInjected.name_owner (h : IsInjected echBytes ttl a new) : new.name = owner a := by
  unfold owner
  cases ha : a.rrset with
  | none => exact (h.absent ha).1
  | some r => exact (h.present r ha).1

theorem injected_covers (echBytes : List UInt8) (rdata : Rdata) :
    (injected echBytes rdata).covers = rdata.covers := by
  unfold injected
  split
  · split
    · rfl
    · rfl
  · rfl

theorem IsInjected.covers_present (h : IsInjected echBytes ttl a new) (ha : a.rrset = some r) :
    new.covers = r.covers := by
  obtain ⟨_,_,_,hitems⟩ := h.present r ha
  refine RRset.covers_eq fun rd hrd => ?_
  rw [hitems] at hrd
  obtain ⟨rd,hmem,rfl⟩ := List.mem_map.mp hrd
  rw [injected_covers]
  exact r.covered rd hmem

theorem IsInjected.covers_absent (h : IsInjected echBytes ttl a new) (ha : a.rrset = none) :
    new.covers = RdataType.NONE := by
  obtain ⟨_,_,_,hitems⟩ := h.absent ha
  refine RRset.covers_eq fun rd hrd => ?_
  rw [hitems,List.mem_singleton] at hrd
  rw [hrd]
  rfl

theorem alike_injected {rdata : Rdata} (h : Bare rdata) :
    Alike rdata (injected echBytes rdata) := by
  obtain ⟨record,rfl,_⟩ := h
  by_cases hpriority : record.priority = 0
  · simp [injected,Alike,hpriority]
  · simp only [injected,Alike,hpriority,if_false,withEch_priority,withEch_target,withEch_get]
    simp +contextual

theorem injected_ech {rdata : Rdata} {record : HttpsRdata} (h : Bare rdata)
    (hrecord : injected echBytes rdata = .https record) (hpriority : record.priority ≠ 0) :
    record.params.get ECH = some (.ech echBytes) := by
  obtain ⟨original,rfl,_⟩ := h
  have heq := Rdata.https.inj hrecord
  split at heq
  · rename_i halias
    exact absurd (heq ▸ halias) hpriority
  · rw [← heq,withEch_get]
    exact if_pos rfl

theorem carries_injected (h : Injectable a) (hnew : IsInjected echBytes ttl a new) :
    Carries echBytes a.rrset new := by
  cases ha : a.rrset with
  | none =>
    obtain ⟨_,_,_,hitems⟩ := hnew.absent ha
    refine ⟨fun record hrecord _ => ?_,nofun⟩
    rw [hitems,List.mem_singleton] at hrecord
    cases hrecord
    rfl
  | some r =>
    obtain ⟨hname,_,httl,hitems⟩ := hnew.present r ha
    have hbare := h.bare ha
    refine ⟨fun record hrecord hpriority => ?_,fun r' hr' => ?_⟩
    · rw [hitems] at hrecord
      obtain ⟨rdata,hrdata,heq⟩ := List.mem_map.mp hrecord
      exact injected_ech (hbare rdata hrdata) heq hpriority
    · cases hr'
      refine ⟨hname,httl,?_⟩
      rw [hitems,List.forall₂_map_right_iff,List.forall₂_same]
      exact fun rdata hrdata => alike_injected (hbare rdata hrdata)

theorem IsInjected.singleton (h : Injectable a) (hnew : IsInjected echBytes ttl a new) :
    ∀ rdata ∈ new.items, rdata.rdtype.isSingleton = false := by
  intro rdata hrdata
  cases ha : a.rrset with
  | none =>
    obtain ⟨_,_,_,hitems⟩ := hnew.absent ha
    rw [hitems,List.mem_singleton] at hrdata
    rw [hrdata]
    exact show RdataType.HTTPS.isSingleton = false by decide
  | some r =>
    obtain ⟨_,_,_,hitems⟩ := hnew.present r ha
    rw [hitems] at hrdata
    obtain ⟨original,horiginal,rfl⟩ := List.mem_map.mp hrdata
    rw [injected_rdtype (h.bare ha original horiginal)]
    decide

/-- Where the new rrset joins the old one, the records without ECH stay. -/
theorem not_carries_absorbed (h : Injectable a) (hnew : IsInjected echBytes ttl a new)
    (ha : a.rrset = some r) : ¬ Carries echBytes a.rrset (r.absorb new) := by
  intro hcarries
  obtain ⟨rdata,hrdata,record,rfl,hpriority⟩ := h.updates r ha
  obtain ⟨record',heq,hnone⟩ := h.bare ha _ hrdata
  cases heq
  have hech := hcarries.service record (RRset.mem_absorb (hnew.singleton h) hrdata) hpriority
  rw [hnone] at hech
  contradiction

/-! ### Where it is found -/

/-- The section holds the rrset of the answer at its key, and the chain leads to it or to
nothing. -/
theorem Made.present (h : Made a q chain) (ha : a.rrset = some r) :
    Keyed.lookup RRset.key r.key a.response.answer = some r ∧
      (chain.answer = some r ∨ chain.answer = none) := by
  obtain ⟨found,_,hanswer,hlookup⟩ := h.follows
  have hcases : chain.answer = some r ∨ chain.answer = none ∧ a.response.answer.head? = some r := by
    obtain hr | hr := h.rrset
    · exact .inl (hr.symm.trans ha)
    · rw [ha] at hr
      cases hc : chain.answer with
      | some x =>
        rw [hc] at hr
        exact .inl hr.symm
      | none =>
        rw [hc] at hr
        exact .inr ⟨rfl,hr.symm⟩
  obtain hc | ⟨hc,hhead⟩ := hcases
  · have hfound : findRRset a.response.answer found.canonicalName q.rdclass q.rdtype = some r :=
      (hlookup.symm.trans hanswer.symm).trans hc
    refine ⟨?_,.inl hc⟩
    rw [(Keyed.lookup_some hfound).2]
    exact hfound
  · obtain ⟨rest,hsection⟩ := List.head?_eq_some_iff.mp hhead
    refine ⟨?_,.inr hc⟩
    have hindexed := h.indexed
    rw [hsection] at hindexed ⊢
    exact Keyed.lookup_middle (l:=[]) hindexed

/-- What the response leads to where the answer had an rrset. -/
theorem leadsTo_present (h : Made a q chain) (hinjectable : Injectable a)
    (hnew : IsInjected echBytes ttl a new) (ha : a.rrset = some r)
    (hclass : r.rdclass = a.rdclass) :
    ((a.response.withAnswer (written a (some new))).merged).leadsTo =
      if chain.answer = some r then
        some ((Keyed.lookup RRset.key r.key (written a none)).elim new fun old => old.absorb new)
      else none := by
  obtain ⟨hrcode,hhttps,hrtype⟩ := httpsAnswer_some hinjectable.https
  obtain ⟨hpresent,hchain⟩ := h.present ha
  obtain ⟨found,hfollow,hanswer,hlookup⟩ := h.follows
  obtain ⟨hname,hnewclass,_,_⟩ := hnew.present r ha
  have htype : new.rdtype = a.rdtype := hnew.rdtype.trans hhttps.symm
  have hkey : new.key = r.key := by
    unfold RRset.key
    rw [hname,hnewclass,hnew.rdtype,hrtype r ha,hnew.covers_present ha]
  have hend : found.answer.isSome = true →
      rrkey found.canonicalName q.rdclass q.rdtype = r.key := by
    intro hsome
    obtain hc | hc := hchain
    · exact (Keyed.lookup_some ((hlookup.symm.trans hanswer.symm).trans hc)).2.symm
    · rw [← hanswer,hc] at hsome
      contradiction
  rw [chain_written h hrcode htype (hnewclass.trans hclass) hhttps (Keyed.lookup_some hpresent).1
    hkey hfollow hend,written_lookup h.indexed htype (hnewclass.trans hclass)]
  obtain hc | hc := hchain
  · rw [hend (by rw [← hanswer,hc]; rfl),if_pos hkey.symm,if_pos hc]
  · have hnone : Keyed.lookup RRset.key (rrkey found.canonicalName q.rdclass q.rdtype)
        a.response.answer = none := (hlookup.symm.trans hanswer.symm).trans hc
    have hne : rrkey found.canonicalName q.rdclass q.rdtype ≠ new.key := by
      intro heq
      rw [heq,hkey,hpresent] at hnone
      contradiction
    have hnot : chain.answer ≠ some r := by simp [hc]
    rw [if_neg hne,if_neg hnot]
    exact others_none hnone

/-- An rrset that is made from nothing is found at once. -/
theorem leadsTo_absent (h : Made a q chain) (hinjectable : Injectable a)
    (hnew : IsInjected echBytes ttl a new) (ha : a.rrset = none)
    (hclass : a.rdclass = RdataClass.IN) :
    ((a.response.withAnswer (written a (some new))).merged).leadsTo = some new := by
  obtain ⟨hrcode,hhttps,_⟩ := httpsAnswer_some hinjectable.https
  obtain ⟨found,hfollow,hanswer,hlookup⟩ := h.follows
  obtain ⟨hname,hnewclass,_,_⟩ := hnew.absent ha
  have hchain : chain.answer = none := by
    obtain hr | hr := h.rrset
    · exact hr.symm.trans ha
    · rw [ha] at hr
      exact (Option.or_eq_none_iff.mp hr.symm).1
  have hfirst : findRRset a.response.answer q.name q.rdclass q.rdtype = none := by
    cases hfound : findRRset a.response.answer q.name q.rdclass q.rdtype with
    | none => rfl
    | some x =>
      simp only [maxChain,followChain,hfound,Except.ok.injEq] at hfollow
      rw [hanswer,← hfollow] at hchain
      contradiction
  have hkey : rrkey q.name q.rdclass q.rdtype = new.key := by
    have hasked : rrkey q.name q.rdclass q.rdtype = rrkey a.qname a.rdclass a.rdtype := h.asked
    rw [hasked,RRset.key,hname,hnewclass,hnew.rdtype,hclass,hhttps,hnew.covers_absent ha]
    rfl
  have hlooked : findRRset (Message.mergeSection (written a (some new))) q.name q.rdclass q.rdtype =
      some new := by
    unfold findRRset at hfirst ⊢
    rw [written_lookup h.indexed (hnew.rdtype.trans hhttps.symm) (hnewclass.trans hclass.symm),
      if_pos hkey,hkey,others_none (by rwa [hkey] at hfirst)]
    rfl
  have hfollow' : followChain (Message.mergeSection (written a (some new))) q maxChain q.name
      maxTtl [] = .ok ⟨q.name,some new,min maxTtl new.ttl,[]⟩ := by
    simp [maxChain,followChain,hlooked]
  rw [leadsTo_written h hrcode hfollow']

/-- The rrset is gone from the rest of the section just when it is the last of its type. -/
theorem others_target (h : Made a q chain) (ha : a.rrset = some r) :
    targetIndex a.rdtype a.rdclass a.response.answer =
        Keyed.position RRset.key r.key a.response.answer ↔
      Keyed.lookup RRset.key r.key (written a none) = none := by
  obtain ⟨hpresent,_⟩ := h.present ha
  constructor
  · intro htarget
    rw [written,htarget,writeBack_position,Keyed.lookup_none_iff]
    exact (Keyed.remove_distinct h.indexed).2
  · intro hnone
    obtain ⟨_,_,hothers,_,_,hsection | ⟨y,hsection,_,_,htarget⟩⟩ := written_split a
    · rw [hothers,← hsection,hpresent] at hnone
      contradiction
    · rw [htarget]
      have hy : y.key = r.key := by
        by_contra hne
        rw [hsection,Keyed.lookup_other hne,← hothers,hnone] at hpresent
        contradiction
      have hindexed := h.indexed
      rw [hsection] at hindexed ⊢
      rw [← hy,Keyed.position_middle hindexed.middle.1]

/-! ### The response -/

theorem typed_iff (hinjectable : Injectable a) (hnew : IsInjected echBytes ttl a new) :
    Typed (edited a (some new)) ↔ new.rdclass = a.rdclass := by
  obtain ⟨_,hhttps,_⟩ := httpsAnswer_some hinjectable.https
  constructor
  · exact fun h => (h new rfl).2
  · intro h x hx
    cases hx
    exact ⟨hnew.rdtype.trans hhttps.symm,h⟩

/-- The client is led to an rrset with the ECH bytes just when the rrset is placed well. -/
theorem carries_iff (h : Made a q chain) (hinjectable : Injectable a)
    (hnew : IsInjected echBytes ttl a new) (hclass : new.rdclass = a.rdclass) :
    (∃ x, ((a.response.withAnswer (written a (some new))).merged).leadsTo = some x ∧
        Carries echBytes a.rrset x) ↔
      ∀ r, a.rrset = some r → a.response.leadsTo = some r ∧
        targetIndex a.rdtype a.rdclass a.response.answer =
          Keyed.position RRset.key r.key a.response.answer := by
  have hcarries := carries_injected hinjectable hnew
  have hleads : a.response.leadsTo = chain.answer := Message.leadsTo_ok h.resolves
  cases ha : a.rrset with
  | none =>
    rw [ha] at hcarries
    have hin := (hnew.absent ha).2.1.symm.trans hclass
    rw [leadsTo_absent h hinjectable hnew ha hin.symm]
    exact iff_of_true ⟨new,rfl,hcarries⟩ nofun
  | some r =>
    rw [leadsTo_present h hinjectable hnew ha ((hnew.present r ha).2.1.symm.trans hclass)]
    simp only [Option.some.injEq,forall_eq',hleads,others_target h ha]
    by_cases hc : chain.answer = some r
    · rw [if_pos hc]
      cases hlookup : Keyed.lookup RRset.key r.key (written a none) with
      | none =>
        rw [ha] at hcarries
        exact iff_of_true ⟨new,rfl,hcarries⟩ ⟨hc,rfl⟩
      | some old =>
        have hold : old = r := by
          obtain ⟨hmem,hkey⟩ := Keyed.lookup_some hlookup
          obtain ⟨hpresent,_⟩ := h.present ha
          obtain ⟨before,after,hsplit⟩ := List.append_of_mem (others_subset hmem)
          have hindexed := h.indexed
          rw [hsplit] at hindexed hpresent
          rw [← hkey,Keyed.lookup_middle hindexed] at hpresent
          exact Option.some.inj hpresent
        refine iff_of_false (fun hsome => ?_) fun hnone => by simp at hnone
        obtain ⟨x,hx,hxcarries⟩ := hsome
        have hx : old.absorb new = x := Option.some.inj hx
        rw [← hx,hold] at hxcarries
        exact not_carries_absorbed hinjectable hnew ha (ha ▸ hxcarries)
    · simp [hc]

/-- Writing the new rrset back gives a response as it should be just when it is placed well. -/
theorem wellFormed_iff {W : Type} {codec : Codec W} (h : Made a q chain)
    (hinjectable : Injectable a) (hnew : IsInjected echBytes ttl a new) :
    (Typed (edited a (some new)) ∧ codec.Encodes (writtenBack (edited a (some new))).response ∧
      WellFormed echBytes a.rrset (a.response.withAnswer (written a (some new))).merged) ↔
    Placed codec echBytes ttl a := by
  obtain ⟨_,hhttps,_⟩ := httpsAnswer_some hinjectable.https
  have hnoBoth := noBoth_written (a:=a) hnew.rdtype hhttps
  rw [hnew.name_owner] at hnoBoth
  constructor
  · intro hall
    obtain ⟨htyped,hencodes,hreached,hboth⟩ := hall
    have hclass := (typed_iff hinjectable hnew).mp htyped
    obtain ⟨halone,hunaliased⟩ := hnoBoth.mp hboth
    refine ⟨⟨new,hnew,hencodes⟩,halone,hunaliased,
      (carries_iff h hinjectable hnew hclass).mp hreached,
      fun ha => ?_⟩
    exact hclass.symm.trans (hnew.absent ha).2.1
  · intro hplaced
    obtain ⟨other,hother,hencodes⟩ := hplaced.encodes
    obtain rfl := hnew.unique hother
    have hclass : new.rdclass = a.rdclass := by
      cases ha : a.rrset with
      | none => exact (hnew.absent ha).2.1.trans (hplaced.ofClass ha).symm
      | some r =>
        obtain ⟨hleads,_⟩ := hplaced.resolved r ha
        obtain ⟨found,_,hanswer,hlookup⟩ := h.follows
        rw [Message.leadsTo_ok h.resolves,hanswer,hlookup] at hleads
        have hkey := congrArg RRKey.rdclass (Keyed.lookup_some hleads).2
        exact (hnew.present r ha).2.1.trans (hkey.trans h.types.2)
    refine ⟨(typed_iff hinjectable hnew).mpr hclass,hencodes,
      (carries_iff h hinjectable hnew hclass).mpr hplaced.resolved,?_⟩
    exact hnoBoth.mpr ⟨hplaced.alone,hplaced.unaliased⟩

end

/-! ### The run -/

/-- An upstream's answer, and one that the pipeline builds from a response. -/
theorem made_of_mkAnswer {now : ℚ} {qname : Name} {rdtype : RdataType} {rdclass : RdataClass}
    {response : Message} {a : Answer} {q : Question}
    (h : mkAnswer now qname rdtype rdclass response = .ok a) (hq : response.question = [q])
    (hasked : q.key = rrkey qname rdclass rdtype) (hindexed : response.Indexed) :
    ∃ chain, Made a q chain := by
  obtain ⟨chain,hchain,rfl⟩ := mkAnswer_ok.mp h
  exact ⟨chain,hchain,hq,hasked,hindexed.answer,.inl rfl⟩

theorem made_of_build {W : Type} {codec : Codec W} {now : ℚ} {request response : Message}
    {a : Answer} {q asked : Question}
    (h : buildAnswerFromResponse codec now request response = .ok a) (hq : response.question = [q])
    (hasked : firstQuestion request = .ok asked) (hsame : q.key = asked.key) :
    ∃ chain, Made a q chain := by
  obtain ⟨chain,_,hchain,hresponse,_,hrrset⟩ := buildAnswer_ok h
  obtain ⟨hname,htype,hclass⟩ := buildAnswer_question hasked h
  refine ⟨chain,?_,?_,?_,?_,.inr ?_⟩
  · rw [hresponse,resolveChaining_id]
    exact hchain
  · rw [hresponse]
    exact hq
  · rw [hname,htype,hclass]
    exact hsame
  · rw [hresponse]
    exact response.merged_indexed.answer
  · rw [hresponse]
    exact hrrset

section
variable {E W : Type} {codec : Codec W} {now now' : ℚ} {config : CloudflareEchPluginConfig}
  {addressTags : Except PyException (Finset String)} {c c₁ : RequestContext E} {a : Answer}
  {echBytes : List UInt8} {ttl : ℕ}

/-- The plugin comes to inject into the answer `a`, with `c₁` the context that has it. -/
structure Injects (codec : Codec W) (now : ℚ) (config : CloudflareEchPluginConfig)
    (addressTags : Except PyException (Finset String)) (c c₁ : RequestContext E) (a : Answer) :
    Prop where
  asked : ∃ question, firstQuestion c.request = .ok question ∧ question.rdtype = RdataType.HTTPS
  tags : hasAnyTag c.tags config.skipTags = false
  got : getHttpsAnswer codec now c = (.ok (some a),c₁)
  clear : hasAnyEch a = .ok false
  wanted : wantsEch config addressTags (baseTags c) = .ok true
  updates : ∀ r, a.rrset = some r → ∃ rdata ∈ r.items, ServiceMode rdata

theorem getHttpsAnswer_some (h : getHttpsAnswer codec now c = (.ok (some a),c₁)) :
    httpsAnswer a = some a := by
  have hself {x : Answer} (hx : httpsAnswer x = some a) : httpsAnswer a = some a := by
    have hsame : x = a := by
      unfold httpsAnswer at hx
      split at hx
      · contradiction
      · split at hx
        · contradiction
        · split at hx
          · exact Option.some.inj hx
          · split at hx
            · contradiction
            · exact Option.some.inj hx
    rwa [hsame] at hx
  unfold getHttpsAnswer at h
  rw [Exec.bind_ok (Exec.run_get c)] at h
  cases hanswer : c.finalAnswer with
  | some x =>
    simp only [hanswer] at h
    exact hself (by simpa using congrArg Prod.fst h)
  | none =>
    simp only [hanswer] at h
    cases hresponse : c.finalResponse with
    | none => simp [hresponse] at h
    | some response =>
      simp only [hresponse] at h
      split at h
      · simp at h
      · cases hbuild : buildAnswerFromResponse codec now c.request response with
        | error e =>
          rw [hbuild,Exec.bind_error (Exec.run_ofExcept _ _)] at h
          simp at h
        | ok x =>
          rw [hbuild,Exec.bind_ok (Exec.run_ofExcept _ _),Exec.bind_ok (Exec.run_modify _ _)] at h
          exact hself (by simpa using congrArg Prod.fst h)

variable (echBytes ttl) in
theorem onResponse_run (h : Injects codec now config addressTags c c₁ a) :
    ∃ new, IsInjected echBytes ttl a new ∧
      onResponse codec now config addressTags (some (echBytes,ttl)) c =
        (.ok (),{ c₁ with finalAnswer := some (edited a (some new)) }) := by
  have hinjectable : Injectable a := ⟨getHttpsAnswer_some h.got,h.clear,h.updates⟩
  obtain ⟨n,new,hnew,hrun⟩ := injectEch_run echBytes ttl hinjectable
  obtain ⟨question,hquestion,htype⟩ := h.asked
  refine ⟨new,hnew,?_⟩
  unfold onResponse
  rw [Exec.bind_ok (Exec.run_get c),hquestion,Exec.bind_ok (Exec.run_ofExcept _ _),
    if_neg (not_not.mpr htype),if_neg (by simp [h.tags]),Exec.bind_ok h.got]
  simp only []
  rw [h.clear,Exec.bind_ok (Exec.run_ofExcept _ _),if_neg Bool.false_ne_true,h.wanted,
    Exec.bind_ok (Exec.run_ofExcept _ _)]
  simp only []
  rw [Exec.bind_ok (Exec.within_run hrun)]
  rfl

variable (codec now') in
/-- The response of a finalised answer. -/
theorem finalized_iff {P : Message → Prop} {x : Answer} (hx : c.finalAnswer = some x)
    (hid : ∀ (m : Message) (id : UInt16), P m → P { m with id })
    (hok : P (writtenBack x).response.merged →
      ∃ ch, resolveChaining (writtenBack x).response.merged = .ok ch) :
    (∃ c₂ m, finalizeContext codec now' c = (.ok (),c₂) ∧ c₂.finalResponse = some m ∧ P m) ↔
      Typed x ∧ codec.Encodes (writtenBack x).response ∧ P (writtenBack x).response.merged := by
  constructor
  · intro h
    obtain ⟨c₂,m,hrun,hm,hP⟩ := h
    by_cases hsyncs : Syncs codec now' x
    · obtain ⟨_,hfinal⟩ := finalizeContext_synced hx hsyncs
      cases hrun.symm.trans hfinal
      cases hm
      exact ⟨hsyncs.1,hsyncs.2.1,hid _ (writtenBack x).response.merged.id hP⟩
    · obtain ⟨_,_,hfinal⟩ := finalizeContext_unsynced hx hsyncs
      cases hrun.symm.trans hfinal
  · intro h
    obtain ⟨htyped,hencodes,hP⟩ := h
    obtain ⟨ch,hch⟩ := hok hP
    have hsyncs : Syncs codec now' x := ⟨htyped,hencodes,_,mkAnswer_ok.mpr ⟨ch,hch,rfl⟩⟩
    obtain ⟨_,hfinal⟩ := finalizeContext_synced hx hsyncs
    exact ⟨_,_,hfinal,rfl,hid _ _ hP⟩

variable (codec now now' config addressTags echBytes ttl) in
/-- The hook and the finalisation of what it leaves. -/
theorem onResponse_finalized (h : Injects codec now config addressTags c c₁ a) :
    ∃ new, IsInjected echBytes ttl a new ∧
      ((∃ c₂ c₃ m, onResponse codec now config addressTags (some (echBytes,ttl)) c = (.ok (),c₂) ∧
          finalizeContext codec now' c₂ = (.ok (),c₃) ∧ c₃.finalResponse = some m ∧
          WellFormed echBytes a.rrset m) ↔
        Typed (edited a (some new)) ∧ codec.Encodes (writtenBack (edited a (some new))).response ∧
          WellFormed echBytes a.rrset (a.response.withAnswer (written a (some new))).merged) := by
  obtain ⟨new,hnew,hrun⟩ := onResponse_run echBytes ttl h
  refine ⟨new,hnew,?_⟩
  have hfinal := finalized_iff codec now'
    (c:={ c₁ with finalAnswer := some (edited a (some new)) }) (P:=WellFormed echBytes a.rrset) rfl
    (fun _ _ h => ⟨h.reached,h.noBoth⟩) fun h => by
      obtain ⟨x,hx,_⟩ := h.reached
      unfold Message.leadsTo at hx
      split at hx
      · rename_i ch hch
        exact ⟨ch,hch⟩
      · contradiction
  rw [← writtenBack_response,← hfinal]
  constructor
  · intro h
    obtain ⟨c₂,c₃,m,hc₂,hc₃⟩ := h
    rw [hrun] at hc₂
    cases hc₂
    exact ⟨c₃,m,hc₃⟩
  · intro h
    obtain ⟨c₃,m,hc₃⟩ := h
    exact ⟨_,c₃,m,hrun,hc₃⟩

end

/-- The response to a HTTPS question is as it should be after the injection just when the rrset
can be placed well. -/
theorem onResponse_wellFormed_iff {E W : Type} (codec : Codec W) (now now' : ℚ)
    (config : CloudflareEchPluginConfig) (addressTags : Except PyException (Finset String))
    (echBytes : List UInt8) (ttl : ℕ) (c c₁ : RequestContext E) (a : Answer) (q : Question)
    (chain : ChainingResult) (hmade : Made a q chain)
    (hinjects : Injects codec now config addressTags c c₁ a) :
    (∃ c₂ c₃ m, onResponse codec now config addressTags (some (echBytes,ttl)) c = (.ok (),c₂) ∧
      finalizeContext codec now' c₂ = (.ok (),c₃) ∧ c₃.finalResponse = some m ∧
      WellFormed echBytes a.rrset m) ↔
    Placed codec echBytes ttl a := by
  obtain ⟨new,hnew,hfinal⟩ :=
    onResponse_finalized codec now now' config addressTags echBytes ttl hinjects
  rw [hfinal]
  exact wellFormed_iff hmade ⟨getHttpsAnswer_some hinjects.got,hinjects.clear,hinjects.updates⟩ hnew

/-! ### A host with a record, and one without behind an alias -/

def httpsQuestion : Question := ⟨hostName,RdataType.HTTPS,RdataClass.IN⟩

def plainRecord : HttpsRdata where
  priority := 1
  target := ⟨[]⟩
  params := { entries := [], sorted := List.Pairwise.nil }
  mandatory := rfl
  alpn := by intro h; exact h

def hostHttps : RRset where
  name := hostName
  rdclass := RdataClass.IN
  rdtype := RdataType.HTTPS
  ttl := 60
  items := [.https plainRecord]
  nonempty := List.cons_ne_nil _ _
  distinct := List.nodup_singleton _

def httpsReply (answer : List RRset) : Message :=
  { id := 7, flags := { qr := true }, question := [httpsQuestion], answer }

def httpsAnswerOf (answer : List RRset) (canonicalName : Name) (cnames : List RRset)
    (rrset : Option RRset) : Answer where
  qname := hostName
  rdtype := RdataType.HTTPS
  rdclass := RdataClass.IN
  response := httpsReply answer
  canonicalName := canonicalName
  cnames := cnames
  rrset := rrset
  expiration := 60

/-- The context of a request for the HTTPS records of the host, tagged for the injection. -/
def taggedContext (a : Answer) : RequestContext Unit :=
  { request := { id := 5, flags := { rd := true }, question := [httpsQuestion] }
    clientaddr := "", listenerName := "", requestId := 5, tags := {"cf"}, extensions := ()
    finalAnswer := some a }

def echConfig : CloudflareEchPluginConfig := { matchTags := ["cf"] }

theorem taggedContext_injects {a : Answer} (ha : httpsAnswer a = some a)
    (hclear : hasAnyEch a = .ok false)
    (hupdates : ∀ r, a.rrset = some r → ∃ rdata ∈ r.items, ServiceMode rdata) :
    Injects directCodec 0 echConfig (.ok ∅) (taggedContext a) (taggedContext a) a := by
  refine ⟨⟨httpsQuestion,rfl,rfl⟩,rfl,?_,hclear,rfl,hupdates⟩
  have hpair : (Except.ok (httpsAnswer a),taggedContext a) =
      ((.ok (some a),taggedContext a) : Except PyException (Option Answer) × _) := by rw [ha]
  exact hpair

theorem onResponse_wellFormed_host :
    (∃ c₂ c₃ m, onResponse directCodec 0 echConfig (.ok ∅) (some ([1],300))
        (taggedContext (httpsAnswerOf [hostHttps] hostName [] hostHttps)) = (.ok (),c₂) ∧
      finalizeContext directCodec 1 c₂ = (.ok (),c₃) ∧ c₃.finalResponse = some m ∧
      WellFormed [1] (some hostHttps) m) ↔
    Placed directCodec [1] 300 (httpsAnswerOf [hostHttps] hostName [] hostHttps) :=
  onResponse_wellFormed_iff directCodec 0 1 echConfig (.ok ∅) [1] 300 _
    (taggedContext (httpsAnswerOf [hostHttps] hostName [] hostHttps)) _ httpsQuestion
    ⟨hostName,some hostHttps,60,[]⟩ ⟨by decide,rfl,rfl,by decide,.inl rfl⟩
    (taggedContext_injects rfl rfl (by
      intro r hr
      cases hr
      exact ⟨_,List.mem_singleton_self _,plainRecord,rfl,by decide⟩))

/-- Where the name of the question is an alias without a HTTPS record behind it, it gets a record
of its own beside the CNAME. -/
theorem onResponse_injects_beside_cname :
    ∃ (a : Answer) (chain : ChainingResult), Made a httpsQuestion chain ∧
      Injects directCodec 0 echConfig (.ok ∅) (taggedContext a) (taggedContext a) a ∧
      ¬ ∃ c₂ c₃ m, onResponse directCodec 0 echConfig (.ok ∅) (some ([1],300)) (taggedContext a) =
          (.ok (),c₂) ∧
        finalizeContext directCodec 1 c₂ = (.ok (),c₃) ∧ c₃.finalResponse = some m ∧
        WellFormed [1] a.rrset m := by
  have hmade : Made (httpsAnswerOf [hostAlias] otherName [hostAlias] none) httpsQuestion
      ⟨otherName,none,60,[hostAlias]⟩ := ⟨by decide,rfl,rfl,by decide,.inl rfl⟩
  have hinjects := taggedContext_injects
    (a:=httpsAnswerOf [hostAlias] otherName [hostAlias] none) rfl rfl nofun
  refine ⟨_,_,hmade,hinjects,fun h => ?_⟩
  obtain ⟨new,hnew,hfinal⟩ :=
    onResponse_finalized directCodec 0 1 echConfig (.ok ∅) [1] 300 hinjects
  have hplaced := (wellFormed_iff hmade ⟨rfl,rfl,nofun⟩ hnew).mp (hfinal.mp h)
  exact hplaced.unaliased hostAlias List.mem_cons_self rfl rfl

end CloudflareEchPlugin

end SmartDns
