import SmartDns.Cache.Sharing
import SmartDns.Cache.Lifetime
set_option autoImplicit false

/-!
What enters the caches, and for how long. The lifetime of an entry is that of the chain
of its response, except that an answer built from a response whose chain ends without a
record lives as long as the first rrset of the section.
-/

namespace SmartDns

/-! ### Lifetimes against the chain -/

/-- A SOA of the authority section allows a negative answer to live this long. -/
def Message.SoaBounds (m : Message) (lifetime : ℚ) : Prop :=
  ∃ s ∈ m.authority, s.rdtype = RdataType.SOA ∧
    ∃ minimum, s.minimum = some minimum ∧ lifetime ≤ s.ttl ∧ lifetime ≤ minimum

/-- The lifetime is bounded by every record on the chain, and by a SOA where the chain ends
without a record of the queried type. -/
structure BoundedLifetime (m : Message) (chain : ChainingResult) (lifetime : ℚ) : Prop where
  records : ∀ r ∈ chain.cnames ++ chain.answer.toList, lifetime ≤ r.ttl
  negative : chain.answer = none → m.SoaBounds lifetime

/-- The SOA that covers the name where the chain ends. -/
def Message.coveringSoa (m : Message) (chain : ChainingResult) : Option RRset :=
  match m.question with
  | q :: _ => soaAbove m.authority q.rdclass chain.canonicalName.labels
  | [] => none

/-- A negative answer is covered by a SOA, or its CNAMEs live no longer than one allows. -/
def Message.NegativeBounded (m : Message) (chain : ChainingResult) : Prop :=
  (m.coveringSoa chain).isSome = true ∨ m.SoaBounds (chainTtl chain.cnames)

section
variable {m : Message} {chain : ChainingResult}

theorem minimumTtl_le (h : resolveChaining m = .ok chain) :
    ∀ r ∈ chain.cnames ++ chain.answer.toList, chain.minimumTtl ≤ r.ttl := by
  obtain ⟨_,_,q,_,r,hr,_,hneg⟩ := resolveChaining_ok.mp h
  obtain ⟨hanswer,_,hcnames⟩ := negativeTtl_answer hneg
  have hle := (negativeTtl_ttl hneg).1
  have hstart : followChain m.answer q maxChain q.name (chainTtl []) [] = .ok r := hr
  have httl := followChain_ttl hstart
  intro x hx
  rw [hcnames,hanswer] at hx
  cases List.mem_append.mp hx with
  | inl hcname =>
    have hchain := chainTtl_le hcname
    cases ha : r.answer with
    | none =>
      simp only [ha,Option.map_none,Option.elim_none] at httl
      omega
    | some a =>
      simp only [ha,Option.map_some,Option.elim_some] at httl
      omega
  | inr hrecord =>
    obtain ha := Option.mem_toList.mp hrecord
    simp only [Option.mem_def.mp ha,Option.map_some,Option.elim_some] at httl
    omega

/-- The lifetime of the chain is bounded as it should be, unless no SOA bounds a negative
answer. -/
theorem boundedLifetime_chain_iff (h : resolveChaining m = .ok chain) :
    BoundedLifetime m chain chain.minimumTtl ↔
      chain.answer.isSome = true ∨ m.NegativeBounded chain := by
  have hchain : ∀ r ∈ chain.cnames ++ chain.answer.toList, (chain.minimumTtl : ℚ) ≤ r.ttl :=
    fun r hr => by exact_mod_cast minimumTtl_le h r hr
  obtain ⟨_,_,q,hq,r,hr,_,hneg⟩ := resolveChaining_ok.mp h
  obtain ⟨hanswer,hname,hcnames⟩ := negativeTtl_answer hneg
  obtain ⟨_,httl⟩ := negativeTtl_ttl hneg
  have hstart : followChain m.answer q maxChain q.name (chainTtl []) [] = .ok r := hr
  have hlifetime := followChain_ttl hstart
  cases ha : chain.answer with
  | some a => exact ⟨fun _ => .inl rfl,fun _ => ⟨ha ▸ hchain,by simp [ha]⟩⟩
  | none =>
    rw [hanswer] at ha
    rw [ha,← hname] at httl
    simp only [ha,Option.map_none,Option.elim_none] at hlifetime
    have hsoa :
        m.coveringSoa chain = soaAbove m.authority q.rdclass chain.canonicalName.labels := by
      simp [Message.coveringSoa,hq]
    unfold Message.NegativeBounded
    rw [hsoa]
    cases hs : soaAbove m.authority q.rdclass chain.canonicalName.labels with
    | some s =>
      obtain ⟨hmem,htype⟩ := soaAbove_some hs
      rw [hs] at httl
      obtain ⟨minimum,hmin,hle,hle'⟩ := httl
      have hbounds : m.SoaBounds chain.minimumTtl :=
        ⟨s,hmem,htype,minimum,hmin,by exact_mod_cast hle,by exact_mod_cast hle'⟩
      exact ⟨fun _ => .inr (.inl rfl),fun _ => ⟨hchain,fun _ => hbounds⟩⟩
    | none =>
      rw [hs] at httl
      have heq : chain.minimumTtl = chainTtl chain.cnames := by
        rw [httl,hlifetime,hcnames]
      rw [heq] at hchain ⊢
      have hnone : chain.answer = none := hanswer.trans ha
      constructor
      · exact fun hb => .inr (.inr (hb.negative hnone))
      · intro hb
        exact ⟨hchain,fun _ => by simpa using hb⟩

/-- When the lifetime of a built answer is bounded as it should be. -/
def BuiltBounded (m : Message) (chain : ChainingResult) : Prop :=
  match chain.answer, m.answer with
  | none, rrset :: _ => (∀ c ∈ chain.cnames, rrset.ttl ≤ c.ttl) ∧ m.SoaBounds rrset.ttl
  | _, _ => chain.answer.isSome = true ∨ m.NegativeBounded chain

theorem boundedLifetime_built_iff (h : resolveChaining m = .ok chain) :
    BoundedLifetime m chain (builtLifetime m chain) ↔ BuiltBounded m chain := by
  have hchain := boundedLifetime_chain_iff h
  unfold builtLifetime BuiltBounded
  cases ha : chain.answer with
  | some a =>
    rw [ha] at hchain
    exact hchain
  | none =>
    cases hsection : m.answer with
    | nil =>
      rw [ha] at hchain
      exact hchain
    | cons rrset rest =>
      constructor
      · intro hb
        have hall := hb.records
        simp only [ha,Option.toList_none,List.append_nil] at hall
        exact ⟨fun c hc => by exact_mod_cast hall c hc,hb.negative ha⟩
      · intro hb
        refine ⟨fun c hc => ?_,fun _ => hb.2⟩
        simp only [ha,Option.toList_none,List.append_nil] at hc
        exact_mod_cast hb.1 c hc

end

/-! ### What `on_response` writes -/

section
variable {E S W : Type} {codec : Codec W} {now : ℚ}

/-- Completing a key leaves the answers alone. -/
theorem completePending_cache (key : CacheKey) (response : Option Message) (cache : LRUCache) :
    Exec.Keeps (fun s : DnsCacheService W => s.cache = cache)
      (DnsCacheService.completePending codec key response) := by
  refine Exec.Keeps.get.bind fun s => ?_
  refine Exec.Keeps.bind (Exec.Keeps.modify fun _ h => h) fun _ => ?_
  split
  · exact Exec.Keeps.pure _
  · split
    · exact Exec.Keeps.pure _
    · exact (Exec.Keeps.ofExcept _).bind fun _ => Exec.Keeps.modify fun _ h => h

/-- With nothing to share it cannot fail. -/
theorem completePending_none (codec : Codec W) (key : CacheKey) :
    Exec.Total (DnsCacheService.completePending codec key none) := by
  intro s _
  unfold DnsCacheService.completePending
  rw [Exec.bind_ok (Exec.run_get s),Exec.bind_ok (Exec.run_modify _ s)]
  cases s.pendingFuture key with
  | none => trivial
  | some future =>
    cases hdone : s.isDone future with
    | true =>
      simp only [hdone,if_true]
      trivial
    | false =>
      simp only [hdone,Bool.false_eq_true,if_false]
      trivial

namespace CachePlugin

abbrev Answers (cache : LRUCache) (p : RequestContext (CacheExtensions E) × CacheServices W S) :
    Prop :=
  p.2.cache.cache = cache

theorem onService_answers {α : Type} {y : Exec PyException (DnsCacheService W) α} {cache : LRUCache}
    (h : Exec.Keeps (fun s => s.cache = cache) y) :
    Exec.Keeps (Answers cache) (onService y : CacheExec E S W α) :=
  Exec.Keeps.of_run fun _ hp => h.run hp

theorem release_answers (codec : Codec W) (now : ℚ) (answer : Option Answer)
    (cache : LRUCache) :
    Exec.Keeps (Answers cache) (release codec now answer : CacheExec E S W Unit) := by
  refine Exec.Keeps.get.bind fun p => ?_
  split
  · split
    · exact onService_answers (completePending_cache _ _ cache)
    · exact Exec.Keeps.bind (Exec.Keeps.of_run fun _ hp => hp) fun _ =>
        onService_answers (completePending_cache _ _ cache)
  · exact Exec.Keeps.pure _

theorem release_some (codec : Codec W) (now : ℚ) (a : Answer)
    (p : RequestContext (CacheExtensions E) × CacheServices W S) :
    ∃ services, release codec now (some a) p = (.ok (),(p.1,services)) := by
  unfold release
  rw [Exec.bind_ok (Exec.run_get p)]
  cases p.1.extensions.cache.pendingOwner with
  | false => exact ⟨p.2,rfl⟩
  | true =>
    cases p.1.extensions.cache.key with
    | none => exact ⟨p.2,rfl⟩
    | some key =>
      obtain ⟨⟨⟩,s,hs⟩ := (completePending_none codec key).run p.2.cache
      exact ⟨{ p.2 with cache := s },by simp only [onService,Exec.within,hs]⟩

/-- An answer that can be cloned is stored, and the rest of the hook does not fail. -/
theorem storeAnswer_writes {a stored : Answer}
    (h : DnsCacheService.cloneAnswer codec now a none = .ok stored)
    (c : RequestContext (CacheExtensions E)) (services : CacheServices W S) :
    ∃ services',
      (do
        store codec now (some a)
        release codec now (some a) : CacheExec E S W Unit) (c,services) =
          (.ok (),(c,services')) ∧
      services'.cache.cache =
        services.cache.cache.put (DnsCacheService.makeKeyFromAnswer a) stored := by
  obtain ⟨stored',hclone,hput⟩ | ⟨e,hclone,_⟩ :=
    DnsCacheService.putAnswer_run codec now a services.cache
  · obtain rfl := Except.ok.inj (h.symm.trans hclone)
    have hstore : ∃ services₁ : CacheServices W S, store codec now (some a) (c,services) =
        (.ok (),(c,services₁)) ∧ services₁.cache.cache =
          services.cache.cache.put (DnsCacheService.makeKeyFromAnswer a) stored :=
      ⟨_,by
        simp only [store,onService,Exec.within,hput]
        rfl,rfl⟩
    obtain ⟨services₁,hstore,hcache⟩ := hstore
    obtain ⟨services₂,hrelease⟩ := release_some codec now a (c,services₁)
    have hkeeps := (release_answers codec now (some a) _).run (s:=(c,services₁)) hcache
    rw [hrelease] at hkeeps
    exact ⟨services₂,by rw [Exec.bind_ok hstore,hrelease],hkeeps⟩
  · rw [h] at hclone
    contradiction

/-- What a write needs, and what it leaves. -/
theorem onResponse_writes {p : RequestContext (CacheExtensions E) × CacheServices W S}
    {key : CacheKey} {stored : Answer} (h : written codec now p = some (key,stored)) :
    ∃ a c services, resolveCacheableAnswer codec now p.1 = (.ok (some a),c) ∧
      DnsCacheService.cloneAnswer codec now a none = .ok stored ∧
      key = DnsCacheService.makeKeyFromAnswer a ∧
      onResponse codec now p = (.ok (),(c,services)) ∧
      services.cache.cache = p.2.cache.cache.put key stored := by
  obtain ⟨c₀,services₀⟩ := p
  unfold written at h
  split at h
  · contradiction
  · rename_i hflags
    split at h
    · rename_i q a hq ha
      split at h
      · rename_i stored' hclone
        cases h
        rcases hrun : resolveCacheableAnswer codec now c₀ with ⟨r,c⟩
        rw [hrun] at ha
        simp only at ha hq hflags
        subst ha
        have hcontext : onRequestContext (resolveCacheableAnswer codec now) (c₀,services₀) =
            (.ok (some a),(c,services₀)) := by
          simp [onRequestContext,Exec.within,hrun]
        obtain ⟨services,hrest,hcache⟩ := storeAnswer_writes hclone c services₀
        refine ⟨a,c,services,rfl,hclone,rfl,?_,hcache⟩
        unfold onResponse
        rw [Exec.bind_ok (Exec.run_get _)]
        simp only [hflags,Bool.false_eq_true,if_false]
        rw [hq,Exec.bind_ok (Exec.run_ofExcept _ _),Exec.bind_ok hcontext]
        exact hrest
      · contradiction
    · contradiction

theorem onResponse_leaves {p : RequestContext (CacheExtensions E) × CacheServices W S}
    (h : written codec now p = none) :
    (onResponse codec now p).2.2.cache.cache = p.2.cache.cache := by
  obtain ⟨c₀,services₀⟩ := p
  unfold written at h
  unfold onResponse
  rw [Exec.bind_ok (Exec.run_get _)]
  cases hflags : c₀.extensions.cache.hit || c₀.extensions.cache.shared with
  | true =>
    simp only [if_true]
    rfl
  | false =>
    simp only [hflags,Bool.false_eq_true,if_false] at h ⊢
    cases hq : firstQuestion c₀.request with
    | error e => rw [Exec.bind_error (Exec.run_ofExcept _ _)]
    | ok q =>
      rw [Exec.bind_ok (Exec.run_ofExcept _ _)]
      rcases hrun : resolveCacheableAnswer codec now c₀ with ⟨e | (_ | a),c⟩
      · have hcontext : onRequestContext (resolveCacheableAnswer codec now) (c₀,services₀) =
            (.error e,(c,services₀)) := by
          simp [onRequestContext,Exec.within,hrun]
        rw [Exec.bind_error hcontext]
      · have hcontext : onRequestContext (resolveCacheableAnswer codec now) (c₀,services₀) =
            (.ok none,(c,services₀)) := by
          simp [onRequestContext,Exec.within,hrun]
        have hstore : store codec now none (c,services₀) = (.ok (),(c,services₀)) := rfl
        rw [Exec.bind_ok hcontext,Exec.bind_ok hstore]
        exact (release_answers codec now none _).run rfl
      · have hcontext : onRequestContext (resolveCacheableAnswer codec now) (c₀,services₀) =
            (.ok (some a),(c,services₀)) := by
          simp [onRequestContext,Exec.within,hrun]
        rw [Exec.bind_ok hcontext]
        obtain ⟨stored,hclone,_⟩ | ⟨e,_,hput⟩ :=
          DnsCacheService.putAnswer_run codec now a services₀.cache
        · simp [hq,hrun,hclone] at h
        · have hstore : store codec now (some a) (c,services₀) = (.error e,(c,services₀)) := by
            simp [store,onService,Exec.within,hput]
          rw [Exec.bind_error hstore]

/-- The message that `on_response` takes an entry from. -/
def source (c : RequestContext E) : Option Message :=
  match c.finalAnswer, c.finalResponse with
  | some a, _ => some (writtenBack a).response.merged
  | none, some response => some { response.merged with id := c.request.id }
  | none, none => none

end CachePlugin

/-- The rcode that the client is answered with when the response phase ends with this
context: an exception in `_finalize_context` becomes SERVFAIL. -/
def clientRcode (codec : Codec W) (now : ℚ) (c : RequestContext E) : Rcode :=
  match finalizeContext codec now c with
  | (.ok _,c') => (c'.finalResponse.map Message.rcode).getD Rcode.SERVFAIL
  | (.error _,_) => Rcode.SERVFAIL

/-- When an entry that `on_response` takes from this context is what it should be: a final
answer counts with its own rcode, and it is written back once more at the end. -/
def Admissible (codec : Codec W) (now now' : ℚ) (c : RequestContext E) (m : Message)
    (chain : ChainingResult) : Prop :=
  match c.finalAnswer with
  | some a => a.response.rcode = Rcode.NOERROR ∧
      Syncs codec now' (syncAnswerResponse codec now a).2 ∧
        (chain.answer.isSome = true ∨ m.NegativeBounded chain)
  | none => BuiltBounded m chain

theorem syncAnswerResponse_rcode {a a' : Answer}
    (h : syncAnswerResponse codec now a = (.ok (),a')) : a'.response.rcode = a.response.rcode := by
  rw [syncAnswerResponse_response h]
  rfl

/-- A final answer is what the client gets, if it can be written back. -/
theorem clientRcode_answer {c : RequestContext E} {a : Answer} (h : c.finalAnswer = some a) :
    clientRcode codec now c = Rcode.NOERROR ↔
      a.response.rcode = Rcode.NOERROR ∧ Syncs codec now a := by
  unfold clientRcode
  by_cases hsyncs : Syncs codec now a
  · obtain ⟨a',hrun⟩ := finalizeContext_synced h hsyncs
    simp [hrun,writtenBack,hsyncs]
  · obtain ⟨e,a',hrun⟩ := finalizeContext_unsynced h hsyncs
    simp [hrun,hsyncs,Rcode.SERVFAIL,Rcode.NOERROR]

theorem clientRcode_response {c : RequestContext E} {response : Message} {a : Answer}
    (hanswer : c.finalAnswer = none) (hresponse : c.finalResponse = some response)
    (hbuild : buildAnswerFromResponse codec now c.request response = .ok a) :
    clientRcode codec now c = response.rcode := by
  unfold clientRcode finalizeContext
  rw [Exec.bind_ok (Exec.run_get c)]
  simp only [hanswer,hresponse,hbuild]
  rw [Exec.bind_ok (Exec.run_ofExcept _ _)]
  simp [hresponse]

/-- A cacheable answer is the final answer written back, or is built from a response. -/
theorem resolveCacheableAnswer_some {c c' : RequestContext (CacheExtensions E)} {a : Answer}
    (h : CachePlugin.resolveCacheableAnswer codec now c = (.ok (some a),c')) :
    (∃ a₀, c.finalAnswer = some a₀ ∧ syncAnswerResponse codec now a₀ = (.ok (),a) ∧
      c'.finalAnswer = some a) ∨
    ∃ response, c.finalAnswer = none ∧ c.finalResponse = some response ∧
      response.rcode = Rcode.NOERROR ∧
      buildAnswerFromResponse codec now c.request response = .ok a ∧ c' = c := by
  have hsynced {a₀ : Answer} (ha₀ : c.finalAnswer = some a₀)
      (hrun : (syncFinalAnswer codec now a₀ >>= fun synced => pure (some synced)) c =
        (.ok (some a),c')) :
      ∃ a₀, c.finalAnswer = some a₀ ∧ syncAnswerResponse codec now a₀ = (.ok (),a) ∧
        c'.finalAnswer = some a := by
    refine ⟨a₀,ha₀,?_⟩
    rcases hs : syncAnswerResponse codec now a₀ with ⟨e | ⟨⟩,a'⟩
    · have hsync :
          syncFinalAnswer codec now a₀ c = (.error e,{ c with finalAnswer := some a' }) := by
        rw [syncFinalAnswer_run,hs]
      rw [Exec.bind_error hsync] at hrun
      simp at hrun
    · have hsync : syncFinalAnswer codec now a₀ c = (.ok a',{ c with finalAnswer := some a' }) := by
        rw [syncFinalAnswer_run,hs]
      rw [Exec.bind_ok hsync] at hrun
      cases hrun
      exact ⟨rfl,rfl⟩
  unfold CachePlugin.resolveCacheableAnswer at h
  rw [Exec.bind_ok (Exec.run_get c)] at h
  cases ha : c.finalAnswer with
  | some a₀ =>
    left
    cases hr : c.finalResponse with
    | none =>
      simp only [ha,hr] at h
      exact ha ▸ hsynced ha h
    | some response =>
      simp only [ha,hr] at h
      split at h
      · simp at h
      · exact ha ▸ hsynced ha h
  | none =>
    right
    cases hr : c.finalResponse with
    | none => simp [ha,hr] at h
    | some response =>
      simp only [ha,hr] at h
      split at h
      · simp at h
      · rename_i hcode
        cases hbuild : buildAnswerFromResponse codec now c.request response with
        | error e =>
          rw [hbuild,Exec.bind_error (Exec.run_ofExcept _ _)] at h
          simp at h
        | ok built =>
          rw [hbuild,Exec.bind_ok (Exec.run_ofExcept _ _)] at h
          cases h
          exact ⟨response,rfl,rfl,not_not.mp hcode,hbuild,rfl⟩

theorem CachePlugin.written_admitted_iff (now' : ℚ)
    {p : RequestContext (CacheExtensions E) × CacheServices W S} {key : CacheKey}
    {stored : Answer} (h : written codec now p = some (key,stored)) :
    ∃ m chain, source p.1 = some m ∧ stored.response = m ∧ resolveChaining m = .ok chain ∧
      (clientRcode codec now' (onResponse codec now p).2.1 = Rcode.NOERROR ∧
        BoundedLifetime m chain (stored.expiration-now) ↔
        Admissible codec now now' p.1 m chain) := by
  obtain ⟨a,c,services,hresolve,hclone,_,hrun,_⟩ := onResponse_writes h
  obtain ⟨_,_,_,hstored⟩ := DnsCacheService.cloneAnswer_ok_iff.mp hclone
  rw [hrun]
  obtain ⟨a₀,ha₀,hsync,ha⟩ | ⟨response,hnone,hresponse,hcode,hbuild,rfl⟩ :=
    resolveCacheableAnswer_some hresolve
  · obtain ⟨_,_,rebuilt,hrebuilt,hfields⟩ := syncAnswerResponse_ok_iff.mp hsync
    obtain ⟨chain,hchain,hrebuilt'⟩ := mkAnswer_ok.mp hrebuilt
    have hm : a.response = (writtenBack a₀).response.merged := by rw [hfields,hrebuilt']; rfl
    have hlifetime : stored.expiration-now = (chain.minimumTtl : Nat) := by
      rw [hstored,hfields,hrebuilt']
      exact add_sub_cancel_left now _
    refine ⟨(writtenBack a₀).response.merged,chain,?_,?_,hchain,?_⟩
    · simp [source,ha₀]
    · rw [hstored]
      change a.response.merged = _
      rw [hm,Message.merged_merged]
    · unfold Admissible
      rw [hlifetime,clientRcode_answer ha,boundedLifetime_chain_iff hchain,
        syncAnswerResponse_rcode hsync]
      simp only [ha₀,hsync,and_assoc]
  · obtain ⟨chain,_,hchain,hm,hexpiration,_⟩ := buildAnswer_ok hbuild
    have hchain' : resolveChaining { response.merged with id := p.1.request.id } = .ok chain := by
      rw [resolveChaining_id]
      exact hchain
    have hlifetime : stored.expiration-now = (builtLifetime
        { response.merged with id := p.1.request.id } chain : Nat) := by
      rw [hstored]
      change a.expiration-now = _
      rw [hexpiration]
      exact add_sub_cancel_left now _
    refine ⟨{ response.merged with id := p.1.request.id },chain,?_,?_,hchain',?_⟩
    · simp [source,hnone,hresponse]
    · rw [hstored]
      change a.response.merged = _
      rw [hm]
      simp [Message.merged,Message.mergeSection_merged]
    · unfold Admissible
      obtain ⟨a',hlater⟩ := buildAnswer_later now' hbuild
      rw [hlifetime,clientRcode_response hnone hresponse hlater,boundedLifetime_built_iff hchain']
      simp [hnone,hcode]

/-- What enters a cache is answered with NOERROR and lives as long as its chain, or its SOA,
allows, exactly when the context or the response is admissible. -/
theorem admitted_iff (codec : Codec W) :
    (∀ (now : ℚ) (request response : Message) (key : CacheKey) (c c' : FrontCache),
      FrontCache.putResponse codec now request (some response) c = (.ok true,c') →
      FrontCache.makeKeyFromRequest request = some key →
      ∃ entry chain, Keyed.lookup Prod.fst key c'.cache.data = some (key,entry) ∧
        entry.response = { response.merged with id := request.id } ∧
        resolveChaining entry.response = .ok chain ∧
        (response.rcode = Rcode.NOERROR ∧
          BoundedLifetime entry.response chain (entry.expiration-now) ↔
          BuiltBounded { response.merged with id := request.id } chain)) ∧
    ∀ (now now' : ℚ) (p : RequestContext (CacheExtensions E) × CacheServices W S),
      match CachePlugin.written codec now p with
      | none => (CachePlugin.onResponse codec now p).2.2.cache.cache = p.2.cache.cache
      | some (key,stored) =>
        (CachePlugin.onResponse codec now p).2.2.cache.cache = p.2.cache.cache.put key stored ∧
        ∃ m chain, CachePlugin.source p.1 = some m ∧ stored.response = m ∧
          resolveChaining m = .ok chain ∧
          (clientRcode codec now' (CachePlugin.onResponse codec now p).2.1 = Rcode.NOERROR ∧
            BoundedLifetime m chain (stored.expiration-now) ↔
            Admissible codec now now' p.1 m chain) := by
  constructor
  · intro now request response key c c' hput hkey
    obtain ⟨hcode,key',a,hkey',hbuild,_,rfl⟩ := FrontCache.putResponse_stored hput
    obtain rfl : key = key' := Option.some.inj (hkey.symm.trans hkey')
    obtain ⟨chain,_,hchain,hm,hexpiration,_⟩ := buildAnswer_ok hbuild
    have hchain' : resolveChaining { response.merged with id := request.id } = .ok chain := by
      rw [resolveChaining_id]
      exact hchain
    refine ⟨a,chain,LRUCache.lookup_put _ key a,hm,hm ▸ hchain',?_⟩
    have hlifetime : a.expiration-now =
        (builtLifetime { response.merged with id := request.id } chain : Nat) := by
      rw [hexpiration]
      exact add_sub_cancel_left now _
    rw [hlifetime,hm,boundedLifetime_built_iff hchain']
    simp [hcode]
  · intro now now' p
    cases hwritten : CachePlugin.written codec now p with
    | none => exact CachePlugin.onResponse_leaves hwritten
    | some entry =>
      obtain ⟨_,_,_,_,_,_,hrun,hcache⟩ := CachePlugin.onResponse_writes hwritten
      refine ⟨?_,CachePlugin.written_admitted_iff now' hwritten⟩
      rw [hrun]
      exact hcache

end

/-- A reply of an alias for sixty seconds that leads nowhere, without a SOA. -/
def danglingAlias : Message := hostReply [hostAlias]

/-- A context whose answer has lost all its records, as a filter leaves it. -/
def emptiedContext : RequestContext (CacheExtensions Unit) :=
  { buildContext ⟨{},()⟩ hostQuery "" "" [] with finalAnswer := some (hostAnswer [] none) }

def unusedService : CacheServices Message Unit := ⟨.new 8,()⟩

theorem danglingAlias_stored :
    FrontCache.putResponse directCodec 0 hostQuery (some danglingAlias) (FrontCache.new 8) =
      (.ok true,(FrontCache.putResponse directCodec 0 hostQuery (some danglingAlias)
        (FrontCache.new 8)).2) :=
  Prod.ext rfl rfl

theorem admitted_iff_danglingAlias :
    ∃ entry chain, Keyed.lookup Prod.fst hostQuestion.key
        (FrontCache.putResponse directCodec 0 hostQuery (some danglingAlias)
          (FrontCache.new 8)).2.cache.data = some (hostQuestion.key,entry) ∧
      entry.response = { danglingAlias.merged with id := hostQuery.id } ∧
      resolveChaining entry.response = .ok chain ∧
      (danglingAlias.rcode = Rcode.NOERROR ∧
        BoundedLifetime entry.response chain (entry.expiration-0) ↔
        BuiltBounded { danglingAlias.merged with id := hostQuery.id } chain) :=
  (admitted_iff (E:=Unit) (S:=Unit) directCodec).1 0 hostQuery danglingAlias _ _ _
    danglingAlias_stored rfl

/-- The emptied answer is cached for the greatest TTL there is, and nothing bounds it. -/
theorem onResponse_caches_emptied :
    ∃ stored chain, CachePlugin.written directCodec 0 (emptiedContext,unusedService) =
        some (hostQuestion.key,stored) ∧
      resolveChaining stored.response = .ok chain ∧ chain.minimumTtl = 2147483647 ∧
      ¬ (clientRcode directCodec 0
          (CachePlugin.onResponse directCodec 0 (emptiedContext,unusedService)).2.1 =
            Rcode.NOERROR ∧
        BoundedLifetime stored.response chain (stored.expiration-0)) := by
  have hwritten : CachePlugin.written directCodec 0 (emptiedContext,unusedService) =
      some (hostQuestion.key,
        { hostAnswer [] none with expiration := 0+((maxTtl : Nat) : ℚ) }) := rfl
  have hchain : resolveChaining (hostReply []) = .ok ⟨hostName,none,maxTtl,[]⟩ := rfl
  refine ⟨_,_,hwritten,hchain,rfl,fun h => ?_⟩
  obtain ⟨s,hs,_⟩ := h.2.negative rfl
  exact absurd hs List.not_mem_nil

end SmartDns
