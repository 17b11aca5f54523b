import SmartDns.Cache.Following
set_option autoImplicit false

/-!
Whether coalescing is transparent: what a follower is answered next to what its owner is.
A follower answers with the response its owner handed over, once that has been made an
answer of and written back.
-/

namespace SmartDns

open CachePlugin (ownerContext waitsOn keyed resume)

variable {E S W : Type}

/-! ### The reply of a follower -/

/-- The response with the rrset written over the last one of the question's type. -/
def rewritten (q : Question) (m : Message) (rrset : Option RRset) : Message :=
  m.withAnswer (writeBack m.answer (targetIndex q.rdtype q.rdclass m.answer) rrset)

/-- A response that comes through a follower with this question: it resolves to an rrset of
the question's type or to none, and can be encoded and resolved again with that written
back. -/
structure Relays (codec : Codec W) (q : Question) (m : Message) (ch : ChainingResult) : Prop where
  resolves : resolveChaining m = .ok ch
  typed : ∀ rrset, rrsetOrFirst m ch = some rrset → rrset.rdtype = q.rdtype ∧
    rrset.rdclass = q.rdclass
  encodes : codec.Encodes (rewritten q m (rrsetOrFirst m ch))
  again : ∃ ch', resolveChaining (rewritten q m (rrsetOrFirst m ch)).merged = .ok ch'

section
variable {codec : Codec W} {now : ℚ} {q : Question} {m : Message} {request : Message} {a : Answer}

/-- An answer of a response to the question under another id. -/
structure AnswerOf (q : Question) (m : Message) (ch : ChainingResult) (id : UInt16) (a : Answer) :
    Prop where
  resolves : resolveChaining m = .ok ch
  rdtype : a.rdtype = q.rdtype
  rdclass : a.rdclass = q.rdclass
  rrset : a.rrset = rrsetOrFirst m ch
  response : a.response = { m with id }

/-- The answer that a follower builds is one of the response under its own id. -/
theorem buildAnswer_own (hq : firstQuestion request = .ok q)
    (h : buildAnswerFromResponse codec now request { m.merged with id := request.id } = .ok a) :
    ∃ ch, AnswerOf q m.merged ch request.id a := by
  obtain ⟨ch,_,hch,hresponse,_,hrrset⟩ := buildAnswer_ok h
  obtain ⟨_,hrdtype,hrdclass⟩ := buildAnswer_question hq h
  have hmerged : ({ m.merged with id := request.id } : Message).merged =
      { m.merged with id := request.id } := congrArg (fun m => { m with id := request.id })
        m.merged_merged
  rw [hmerged] at hch hresponse hrrset
  refine ⟨ch,hch,hrdtype,hrdclass,?_,hresponse⟩
  rw [hrrset,rrsetOrFirst]
  cases ch.answer with
  | none => rfl
  | some rrset => rfl

theorem buildAnswer_own_iff (now : ℚ) (hid : codec.IgnoresId) (hq : firstQuestion request = .ok q)
    (hencodes : codec.Encodes m.merged) :
    (∃ a, buildAnswerFromResponse codec now request { m.merged with id := request.id } = .ok a) ↔
      ∃ ch, resolveChaining m.merged = .ok ch := by
  have hclone : cloneResponseForRequest codec { m.merged with id := request.id } request =
      .ok { m.merged with id := request.id } := by
    rw [cloneResponse_ok (hid _ _ hencodes)]
    exact congrArg (fun m : Message => Except.ok { m with id := request.id }) m.merged_merged
  have hbuilt := @buildAnswer_iff W codec now _ _ _ _ (fun _ _ => True) hq hclone
  simp only [and_true] at hbuilt
  exact hbuilt

theorem AnswerOf.written {ch : ChainingResult} {id : UInt16} (h : AnswerOf q m ch id a) :
    (writtenBack a).response = { rewritten q m (rrsetOrFirst m ch) with id } := by
  unfold writtenBack rewritten
  rw [h.response,h.rrset,h.rdtype,h.rdclass]
  rfl

/-- The answer of a follower can be written back just when the response comes through. -/
theorem AnswerOf.syncs_iff (hid : codec.IgnoresId) {ch : ChainingResult} {id : UInt16}
    (h : AnswerOf q m ch id a) : Syncs codec now a ↔ Relays codec q m ch := by
  have hwritten := h.written
  have hrebuilt : (∃ rebuilt, mkAnswer now a.qname a.rdtype a.rdclass
      (writtenBack a).response.merged = .ok rebuilt) ↔
        ∃ ch', resolveChaining (rewritten q m (rrsetOrFirst m ch)).merged = .ok ch' := by
    rw [hwritten]
    constructor
    · intro h
      obtain ⟨_,h⟩ := h
      obtain ⟨ch',hch',_⟩ := mkAnswer_ok.mp h
      exact ⟨ch',hch'⟩
    · intro h
      obtain ⟨ch',hch'⟩ := h
      exact ⟨_,mkAnswer_ok.mpr ⟨ch',hch',rfl⟩⟩
  have htyped : Typed a ↔ ∀ rrset, rrsetOrFirst m ch = some rrset →
      rrset.rdtype = q.rdtype ∧ rrset.rdclass = q.rdclass := by
    unfold Typed
    rw [h.rrset,h.rdtype,h.rdclass]
  unfold Syncs
  rw [hrebuilt,htyped,hwritten,hid.encodes_iff]
  exact ⟨fun hs => ⟨h.resolves,hs.1,hs.2.1,hs.2.2⟩,fun hs => ⟨hs.typed,hs.encodes,hs.again⟩⟩

end

/-- The same rcode, and the same rrsets in every section. -/
structure SameRecords (m m' : Message) : Prop where
  rcode : m.rcode = m'.rcode
  answer : m.answer.Perm m'.answer
  authority : m.authority.Perm m'.authority
  additional : m.additional.Perm m'.additional

/-- The reply has the id of the request and says what the message says. -/
structure SaysAs (reply request message : Message) : Prop where
  id : reply.id = request.id
  records : SameRecords reply message

/-- The outcome is a message for the request that says what the message says. -/
def AnsweredAs (outcome : Except PyException (Option Message)) (request message : Message) : Prop :=
  ∃ reply, outcome = .ok (some reply) ∧ SaysAs reply request message

theorem answeredAs_ok {reply request message : Message} :
    AnsweredAs (.ok (some reply)) request message ↔ SaysAs reply request message := by
  constructor
  · intro h
    obtain ⟨_,heq,hmeans⟩ := h
    cases heq
    exact hmeans
  · exact fun h => ⟨reply,rfl,h⟩

section
variable (codec : Codec W) (engine : PipelineEngine E S)
  (env : Surroundings E engine.resolverManager) (request message : Message)

/-- The phases of a request that starts in `s` end in an exception, the decoded message can be
replied to, and the SERVFAIL reply that the `on_finish` hooks leave says what the message says. -/
def FailsAs (s : EngineState E S) : Prop :=
  ∃ e s', processRequest codec engine env s = (.error e,s') ∧
    Repliable s'.context.held.decoded ∧
    SaysAs (finishContext engine (failRequest codec engine env s'.context.held.decoded e
      s').2).2.context.held.reply request message

/-- What the phases end with when the observers leave this context says what the message says;
`fails` is what is asked of a request that ends in an exception. -/
def RespondsAs (c : RequestContext E) (fails : Prop) : Prop :=
  match c.finalResponse with
  | some m =>
    codec.Encodes m ∧ SaysAs { m.merged with id := c.held.decoded.id } request message ∨
      ¬ codec.Encodes m ∧ fails
  | none => c.held.decoded.flags.qr = false ∧
    SaysAs (errorReply c.held.decoded Rcode.SERVFAIL) request message

variable {codec engine env request message} {s s₁ s' : EngineState E S}

theorem failed_answeredAs_iff {e : PyException}
    (h : processRequest codec engine env s = (.error e,s')) :
    AnsweredAs (runContext codec engine env s).1 request message ↔
      FailsAs codec engine env request message s := by
  obtain ⟨s₂,hfinish,hrun⟩ := runContext_run codec engine env s
  rcases hfail : failRequest codec engine env s'.context.held.decoded e s' with ⟨r,s₁⟩
  have hcompletes := failRequest_completes_iff codec engine env s'.context.held.decoded e s'
  rw [beforeFinish_error h hfail] at hrun hfinish
  have hfails : FailsAs codec engine env request message s ↔
      Repliable s'.context.held.decoded ∧ SaysAs s₂.context.held.reply request message := by
    constructor
    · intro hfails
      obtain ⟨e',s₃,hprocess,hreply,hmeans⟩ := hfails
      cases h.symm.trans hprocess
      rw [hfail,hfinish] at hmeans
      exact ⟨hreply,hmeans⟩
    · intro hfails
      refine ⟨e,s',h,hfails.1,?_⟩
      rw [hfail,hfinish]
      exact hfails.2
  rw [hfails,hrun,← hcompletes,hfail]
  cases r with
  | error e' => simp [AnsweredAs,Except.map]
  | ok u => simp [Except.map,Returned.read,answeredAs_ok]

theorem observeContext_ok (engine : PipelineEngine E S) (s : EngineState E S) :
    ∃ s', observeContext engine s = (.ok (),s') := by
  rcases hrun : observeContext engine s with ⟨r,s'⟩
  unfold observeContext Exec.handle at hrun
  split at hrun
  · cases hrun
    exact ⟨_,rfl⟩
  · cases hrun
    exact ⟨_,rfl⟩

theorem cloneResponse_error {m : Message} (h : ¬ codec.Encodes m) (request : Message) :
    ∃ e, cloneResponseForRequest codec m request = .error e := by
  cases hw : codec.toWire m with
  | error e => exact ⟨e,by simp [cloneResponseForRequest,hw,bind,Except.bind]⟩
  | ok w => exact absurd ⟨w,hw⟩ h

/-- From a context that was finalized, what the observers leave decides the answer. -/
theorem respond_answeredAs_iff
    (hprocess : processRequest codec engine env s = respond codec engine env s₁)
    (hfinal : (onContext (finalizeContext codec env.now) : Engine E S Unit) s₁ = (.ok (),s')) :
    AnsweredAs (runContext codec engine env s).1 request message ↔
      RespondsAs codec request message (observeContext engine s').2.context
        (FailsAs codec engine env request message s) := by
  obtain ⟨s'',hobserve⟩ := observeContext_ok engine s'
  have hrespond : processRequest codec engine env s =
      (do
        let response ← Exec.ofExcept (finalReply codec s''.context)
        pure (some response) : Engine E S (Option Message)) s'' :=
    hprocess.trans ((Exec.bind_ok hfinal).trans
      ((Exec.bind_ok hobserve).trans (Exec.bind_ok (Exec.run_get s''))))
  rw [hobserve]
  unfold RespondsAs
  unfold finalReply at hrespond
  cases hresponse : s''.context.finalResponse with
  | none =>
    rw [hresponse] at hrespond
    cases hqr : s''.context.held.decoded.flags.qr with
    | true =>
      simp only [makeErrorResponse_error hqr] at hrespond
      rw [failed_answeredAs_iff hrespond]
      refine iff_of_false (fun hfails => ?_) (by simp)
      obtain ⟨e,s₂,hrun,hreply,_⟩ := hfails
      cases hrespond.symm.trans hrun
      rw [hreply.query] at hqr
      cases hqr
    | false =>
      simp only [makeErrorResponse_ok hqr] at hrespond
      rw [runContext_fresh hrespond,answeredAs_ok]
      simp
  | some m =>
    rw [hresponse] at hrespond
    by_cases hencodes : codec.Encodes m
    · simp only [cloneResponse_ok hencodes] at hrespond
      rw [runContext_fresh hrespond,answeredAs_ok]
      simp [hencodes]
    · obtain ⟨e,hclone⟩ := cloneResponse_error hencodes s''.context.held.decoded
      simp only [hclone] at hrespond
      rw [failed_answeredAs_iff hrespond]
      simp [hencodes]

variable (engine env request message) in
theorem respond_synced {a : Answer}
    (hprocess : processRequest codec engine env s = respond codec engine env s₁)
    (ha : s₁.context.finalAnswer = some a) (h : Syncs codec env.now a) :
    ∃ s', (onContext (finalizeContext codec env.now) : Engine E S Unit) s₁ = (.ok (),s') ∧
      s'.context.finalResponse =
        some { (writtenBack a).response.merged with id := s₁.context.request.id } ∧
      (AnsweredAs (runContext codec engine env s).1 request message ↔
        RespondsAs codec request message (observeContext engine s').2.context
          (FailsAs codec engine env request message s)) := by
  obtain ⟨a',hfinal⟩ := finalizeContext_synced ha h
  have hcontext : (onContext (finalizeContext codec env.now) : Engine E S Unit) s₁ = (.ok (),_) :=
    Exec.within_run hfinal
  exact ⟨_,hcontext,rfl,respond_answeredAs_iff hprocess hcontext⟩

theorem respond_unsynced {a : Answer}
    (hprocess : processRequest codec engine env s = respond codec engine env s₁)
    (ha : s₁.context.finalAnswer = some a) (h : ¬ Syncs codec env.now a) :
    ∃ e s', processRequest codec engine env s = (.error e,s') := by
  obtain ⟨e,a',hfinal⟩ := finalizeContext_unsynced ha h
  have hcontext : (onContext (finalizeContext codec env.now) : Engine E S Unit) s₁ =
      (.error e,_) := Exec.within_run hfinal
  exact ⟨e,_,hprocess.trans (Exec.bind_error hcontext)⟩

end

/-! ### An owner and a follower -/

/-- A request that an engine with the cache plugin has handled in a context of its own. -/
structure CacheRun (codec : Codec W) (engine : PipelineEngine E S)
    (loading : CacheLoading E S) where
  now : ℚ
  meanwhile : Meanwhile W
  env : Surroundings E engine.resolverManager
  request : Message
  clientaddr : String
  listenerName : String
  services : CacheServices W S
  outcome : Except PyException (Option Message)
  state : EngineState (CacheExtensions E) (CacheServices W S)
  handled : handleMessage codec (engine.withCache codec now loading meanwhile) env.withCache request
    clientaddr listenerName services = (outcome,some state)

namespace CacheRun

variable {codec : Codec W} {engine : PipelineEngine E S} {loading : CacheLoading E S}

def Owns (owner : CacheRun codec engine loading) (key : CacheKey) (future : Nat) : Prop :=
  owner.state.context.extensions.cache = ownerContext key future

/-- What its hooks and the other requests have done along the run. -/
def moves (run : CacheRun codec engine loading) : List (Move E) :=
  run.meanwhile.moves (cacheCalls run.state.log)

/-- A hook of the run itself decides what the followers of the key get. -/
def Gives (run : CacheRun codec engine loading) (key : CacheKey) (result : Option Message) : Prop :=
  ∃ call, DecidedBy codec run.now key run.moves (.own call) ∧
    HandsOver codec run.now key (.own call : Move E) result

/-- The run has put this answer into the cache under the key. -/
def Stores (run : CacheRun codec engine loading) (key : CacheKey) (stored : Answer) : Prop :=
  ∃ p : RequestContext (CacheExtensions E) × CacheServices W S,
    (.response,p.1) ∈ cacheCalls run.state.log ∧
      CachePlugin.written codec run.now p = some (key,stored)

/-- The answer that the service has under the key is one that the run has put there. -/
def HeldFrom (run : CacheRun codec engine loading) (key : CacheKey) (wake : DnsCacheService W) :
    Prop :=
  ∃ stored, run.Stores key stored ∧
    Keyed.lookup Prod.fst key wake.cache.data = some (key,stored)

/-- The cache plugin is called for the follower on the context `c`, which asks `q`, and after
the waits on other futures, which give it nothing, it waits on the one of the owner. When
that wait ends it finds the service as `wake`, with the future as it is at the end of the
owner's request. -/
structure Follows (follower owner : CacheRun codec engine loading) (q : Question) (future : Nat)
    (c : RequestContext (CacheExtensions E)) (earlier : List (DnsCacheService W))
    (wake : DnsCacheService W) : Prop where
  called : (.request,c) ∈ cacheCalls follower.state.log
  question : firstQuestion c.request = .ok q
  waits : waitsOn codec follower.now c.request q.key follower.services.cache earlier = some future
  woken : follower.meanwhile.wakes = earlier ++ [wake]
  future : wake.futures[future]? = owner.state.services.cache.futures[future]?

/-- A follower is not answered with anything that a dropped owner has handed over or stored;
with the response that it shares with one that is answered, it is answered the same under its
own id. -/
def Transparent (owner follower : CacheRun codec engine loading) (key : CacheKey)
    (wake : DnsCacheService W) : Prop :=
  match owner.outcome with
  | .ok none =>
    ¬ (follower.state.context.extensions.cache.shared = true ∧ ∃ result, owner.Gives key result) ∧
    ¬ (follower.state.context.extensions.cache.hit = true ∧ owner.HeldFrom key wake)
  | .ok (some message) => follower.state.context.extensions.cache.shared = true →
      AnsweredAs follower.outcome follower.request message
  | .error _ => True

/-- The state that the phases of a request start in. -/
def start (run : CacheRun codec engine loading) :
    EngineState (CacheExtensions E) (CacheServices W S) :=
  startState (engine.withCache codec run.now loading run.meanwhile) run.env.withCache run.request
    run.clientaddr run.listenerName run.services

/-- The state in which the observers of a request are called. -/
def Observing (run : CacheRun codec engine loading)
    (s : EngineState (CacheExtensions E) (CacheServices W S)) : Prop :=
  beforeObserve codec (engine.withCache codec run.now loading run.meanwhile) run.env.withCache
    run.start = (.ok true,s)

/-- A request that ends in an exception is answered with what the message says. -/
def FailsAs (run : CacheRun codec engine loading) (message : Message) : Prop :=
  SmartDns.FailsAs codec (engine.withCache codec run.now loading run.meanwhile) run.env.withCache
    run.request message run.start

/-- What the observers of a request make of this final response says what the message says. -/
def ObservedAs (run : CacheRun codec engine loading) (response message : Message) : Prop :=
  ∃ s, run.Observing s ∧ s.context.finalResponse = some response ∧
    RespondsAs codec run.request message (observeContext
      (engine.withCache codec run.now loading run.meanwhile) s).2.context (run.FailsAs message)

/-- The response says to a follower what the message says: it comes through, and so does what
is then written back, past the observers; or it does not come through, and what the follower
is answered with after the exception says it. -/
def Matches (follower : CacheRun codec engine loading) (q : Question)
    (c : RequestContext (CacheExtensions E)) (m message : Message) : Prop :=
  (∃ ch, Relays codec q m ch ∧ follower.ObservedAs
    { (rewritten q m (rrsetOrFirst m ch)).merged with id := c.request.id } message) ∨
  (∀ ch, ¬ Relays codec q m ch) ∧ follower.FailsAs message

/-- The calls of its hooks hand over no response of an owner that is dropped, and a follower
that is sent to the cache finds no answer of it there; of one that is answered, the response
that the followers get, of whoever completes the key, matches its message. -/
def HandsOverFaithfully (owner follower : CacheRun codec engine loading) (q : Question)
    (c : RequestContext (CacheExtensions E)) (wake : DnsCacheService W) : Prop :=
  match owner.outcome with
  | .ok none => (∀ m, ¬ owner.Gives q.key (some m)) ∧
      (HandedBy codec owner.now q.key owner.moves none → owner.HeldFrom q.key wake →
        ¬ ∃ answer, (DnsCacheService.getForRequest codec follower.now c.request wake).1 =
          .ok (some answer))
  | .ok (some message) => ∀ m, HandedBy codec owner.now q.key owner.moves (some m) →
      follower.Matches q c m.merged message
  | .error _ => True

variable {owner follower : CacheRun codec engine loading} {q : Question} {key : CacheKey}
  {future : Nat} {c : RequestContext (CacheExtensions E)} {earlier : List (DnsCacheService W)}
  {wake : DnsCacheService W} {result : Option Message}

theorem Gives.handed (h : owner.Gives key result) :
    HandedBy codec owner.now key owner.moves result := by
  obtain ⟨call,hdecided,hresult⟩ := h
  exact ⟨_,hdecided,hresult⟩

/-- Where no other request acts, a hook of the run decides. -/
theorem gives_of_alone (h : owner.meanwhile.beforeResponse = [] ∧
      owner.meanwhile.beforeFinish = [] ∧ owner.meanwhile.afterFinish = [])
    (hresult : HandedBy codec owner.now key owner.moves result) : owner.Gives key result := by
  obtain ⟨hresponse,hbefore,hafter⟩ := h
  obtain ⟨move,hdecided,hhands⟩ := hresult
  obtain ⟨⟨kind,c⟩,_,hmove⟩ := List.mem_flatMap.mp hdecided.mem
  have hown : move = .own (kind,c) := by
    cases kind
    all_goals simpa [Meanwhile.around,Meanwhile.before,Meanwhile.after,hresponse,hbefore,hafter]
      using hmove
  subst hown
  exact ⟨_,hdecided,hhands⟩

/-- An owner's future holds a response just when one is handed over. -/
theorem response_handed (howner : owner.Owns key future) :
    (∀ wire, owner.state.services.cache.futures[future]? = some (some (some wire)) →
      ∃ m, HandedBy codec owner.now key owner.moves (some m) ∧ codec.toWire m = .ok wire) ∧
    ∀ m, HandedBy codec owner.now key owner.moves (some m) →
      ∃ wire, owner.state.services.cache.futures[future]? = some (some (some wire)) ∧
        codec.toWire m = .ok wire := by
  obtain ⟨hset,hhanded⟩ :=
    (handleMessage_accounted (congrArg Prod.snd owner.handled)).set_iff howner
  constructor
  · intro wire hwire
    obtain ⟨result,hresult,hshared⟩ := hset _ hwire
    obtain ⟨m,rfl,hm⟩ := DnsCacheService.sharedWire_some_iff.mp hshared
    exact ⟨m,hresult,hm⟩
  · intro m hm
    obtain ⟨wire,hwire,hshared⟩ := hhanded _ hm
    obtain ⟨w,rfl,hw⟩ := DnsCacheService.sharedWire_response hshared
    exact ⟨w,hwire,hw⟩

theorem nothing_handed (howner : owner.Owns key future) :
    owner.state.services.cache.futures[future]? = some (some none) ↔
      HandedBy codec owner.now key owner.moves none := by
  obtain ⟨hset,hhanded⟩ :=
    (handleMessage_accounted (congrArg Prod.snd owner.handled)).set_iff howner
  constructor
  · intro h
    obtain ⟨result,hresult,hshared⟩ := hset _ h
    cases result with
    | none => exact hresult
    | some m =>
      obtain ⟨w,hw,_⟩ := DnsCacheService.sharedWire_response hshared
      cases hw
  · intro h
    obtain ⟨wire,hwire,hshared⟩ := hhanded _ h
    cases hshared
    exact hwire

/-- What the cache plugin decides for the follower when it is woken. -/
theorem follower_decides (h : follower.Follows owner q future c earlier wake) :
    ∃ r s', Decides codec follower.now follower.meanwhile engine loading follower.env.withCache
        follower.start c r s' follower.state.context.extensions.cache ∧
      follower.outcome = (runContext codec
        (engine.withCache codec follower.now loading follower.meanwhile) follower.env.withCache
        follower.start).1 ∧
      ∃ others : S, resume codec follower.now q.key []
          owner.state.services.cache.futures[future]? (keyed q.key c,⟨wake,others⟩) =
        (r,(s'.context,s'.services)) := by
  have hhandled := follower.handled
  cases hvalid : validateRequestOrError follower.request with
  | error e => simp [handleMessage,hvalid] at hhandled
  | ok rejected =>
    cases rejected with
    | some response => simp [handleMessage,hvalid] at hhandled
    | none =>
      have hrun := handleMessage_valid codec
        (engine.withCache codec follower.now loading follower.meanwhile) follower.env.withCache
        hvalid follower.clientaddr follower.listenerName follower.services
      obtain ⟨houtcome,hstate⟩ := Prod.mk.inj (hrun.symm.trans hhandled)
      have hcalled := h.called
      rw [← Option.some.inj hstate] at hcalled
      obtain ⟨r,s',hdecides⟩ := runContext_called follower.env.withCache rfl rfl rfl hcalled
      rw [Option.some.inj hstate] at hdecides
      refine ⟨r,s',hdecides,houtcome.symm,?_⟩
      obtain ⟨others,hhook⟩ := hdecides.hook
      have hwoken := CachePlugin.onRequest_woken (p:=(c,⟨follower.services.cache,others⟩))
        h.question h.waits wake
      rw [← h.woken,h.future] at hwoken
      exact ⟨others,hwoken.symm.trans hhook⟩

/-- A follower that is handed a response is answered what the message says just when the
response matches the message. -/
theorem follower_answeredAs_iff (hid : codec.IgnoresId)
    (h : follower.Follows owner q future c earlier wake) {m : Message} {wire : W}
    (hfuture : owner.state.services.cache.futures[future]? = some (some (some wire)))
    (hwire : codec.toWire m = .ok wire) (message : Message) :
    AnsweredAs follower.outcome follower.request message ↔
      follower.Matches q c m.merged message := by
  obtain ⟨r,s',hdecides,houtcome,others,hresume⟩ := follower_decides h
  rw [hfuture] at hresume
  have hencodes := codec.again _ _ hwire
  have hfails (hnone : ∀ ch, ¬ Relays codec q m.merged ch)
      (hraised : ∃ e s₁, processRequest codec
        (engine.withCache codec follower.now loading follower.meanwhile) follower.env.withCache
        follower.start = (.error e,s₁)) :
      AnsweredAs follower.outcome follower.request message ↔
        follower.Matches q c m.merged message := by
    obtain ⟨e,s₁,hraised⟩ := hraised
    rw [houtcome,failed_answeredAs_iff hraised]
    unfold Matches FailsAs
    simp [hnone]
  cases hbuild : buildAnswerFromResponse codec follower.now c.request
      { m.merged with id := c.request.id } with
  | error e =>
    obtain ⟨p',hrun,_⟩ := CachePlugin.reuse_error (p:=(keyed q.key c,⟨wake,others⟩)) hwire hbuild
    cases hrun.symm.trans hresume
    refine hfails (fun ch hrelays => ?_) ⟨e,s',hdecides.raised e rfl⟩
    have hbuilt := (buildAnswer_own_iff follower.now hid h.question hencodes).mpr
      ⟨ch,hrelays.resolves⟩
    rw [hbuild] at hbuilt
    obtain ⟨_,hbuilt⟩ := hbuilt
    cases hbuilt
  | ok a =>
    obtain ⟨p',hrun,_,hanswer,hstop,hdrop,hrequest⟩ :=
      CachePlugin.reuse_ok (p:=(keyed q.key c,⟨wake,others⟩)) hwire hbuild
    obtain ⟨ch,hown⟩ := buildAnswer_own h.question hbuild
    cases hrun.symm.trans hresume
    obtain ⟨hprocess,hobserve⟩ := hdecides.decided rfl hstop (hdrop.trans hdecides.undropped)
    by_cases hsyncs : Syncs codec follower.env.now a
    · obtain ⟨s'',hcontext,hresponse,hresponds⟩ := respond_synced
        (engine.withCache codec follower.now loading follower.meanwhile) follower.env.withCache
        follower.request message hprocess hanswer hsyncs
      have hobserving : follower.Observing s'' := hobserve.trans (Exec.bind_ok hcontext)
      rw [houtcome]
      refine hresponds.trans ?_
      have hrequest : s'.context.request = c.request := hrequest
      rw [hown.written,hrequest] at hresponse
      unfold Matches ObservedAs
      constructor
      · exact fun h => .inl ⟨ch,(hown.syncs_iff hid).mp hsyncs,s'',hobserving,hresponse,h⟩
      · intro hmatches
        obtain ⟨ch',_,s₃,hobserving',_,h⟩ | ⟨hnone,_⟩ := hmatches
        · cases hobserving.symm.trans hobserving'
          exact h
        · exact absurd ((hown.syncs_iff hid).mp hsyncs) (hnone ch)
    · refine hfails (fun ch' hrelays => hsyncs ((hown.syncs_iff hid).mpr ?_))
        (respond_unsynced hprocess hanswer hsyncs)
      rw [Except.ok.inj (hown.resolves.symm.trans hrelays.resolves)]
      exact hrelays

/-- What the context of the plugin says of a follower: the future held a response, or the cache
has an answer when the follower is sent there. -/
theorem follower_flags (howner : owner.Owns q.key future)
    (h : follower.Follows owner q future c earlier wake) :
    (follower.state.context.extensions.cache.shared = true ↔
      ∃ wire, owner.state.services.cache.futures[future]? = some (some (some wire))) ∧
    (follower.state.context.extensions.cache.hit = true ↔
      owner.state.services.cache.futures[future]? = some (some none) ∧
        ∃ answer, (DnsCacheService.getForRequest codec follower.now c.request wake).1 =
          .ok (some answer)) := by
  obtain ⟨r,s',hdecides,_,others,hresume⟩ := follower_decides h
  have hkeyed : (keyed q.key c).extensions.cache = { key := some q.key } := by
    rw [keyed,hdecides.fresh]
  have hencoded : ∀ wire, owner.state.services.cache.futures[future]? = some (some (some wire)) →
      ∃ m, codec.toWire m = .ok wire := by
    intro wire hwire
    obtain ⟨m,_,hm⟩ := (response_handed howner).1 _ hwire
    exact ⟨m,hm⟩
  have hflags := CachePlugin.resume_flags codec follower.now
    (p:=(keyed q.key c,(⟨wake,others⟩ : CacheServices W S))) hkeyed hencoded
  rw [hresume,← hdecides.context] at hflags
  exact hflags

end CacheRun

/-- Coalescing is transparent for an owner and a follower exactly when no hook of a request that
is dropped hands over a response, nor is an answer of it in the cache for the follower, and of
one that is answered the followers get a response that they make the owner's message of. -/
theorem coalescing_transparent_iff (codec : Codec W) (hid : codec.IgnoresId)
    (engine : PipelineEngine E S) (loading : CacheLoading E S)
    (owner follower : CacheRun codec engine loading) (q : Question) (future : Nat)
    (c : RequestContext (CacheExtensions E)) (earlier : List (DnsCacheService W))
    (wake : DnsCacheService W) (howner : owner.Owns q.key future)
    (hfollows : follower.Follows owner q future c earlier wake) :
    owner.Transparent follower q.key wake ↔ owner.HandsOverFaithfully follower q c wake := by
  obtain ⟨hset,hhanded⟩ := CacheRun.response_handed howner
  obtain ⟨hshared,hhit⟩ := CacheRun.follower_flags howner hfollows
  unfold CacheRun.Transparent CacheRun.HandsOverFaithfully
  rcases owner.outcome with e | _ | message
  · rfl
  · rw [hshared,hhit,CacheRun.nothing_handed howner]
    constructor
    · intro h
      obtain ⟨hnoshared,hnohit⟩ := h
      refine ⟨fun m hm => ?_,fun hnone hheld hserved => hnohit ⟨⟨hnone,hserved⟩,hheld⟩⟩
      obtain ⟨wire,hfuture,_⟩ := hhanded m hm.handed
      exact hnoshared ⟨⟨wire,hfuture⟩,some m,hm⟩
    · intro h
      refine ⟨fun hgiven => ?_,fun hfound => h.2 hfound.1.1 hfound.2 hfound.1.2⟩
      obtain ⟨⟨wire,hfuture⟩,result,hresult⟩ := hgiven
      obtain ⟨m,hm,_⟩ := hset wire hfuture
      rw [hresult.handed.unique hm] at hresult
      exact h.1 m hresult
  · rw [hshared]
    constructor
    · intro h m hm
      obtain ⟨wire,hfuture,hwire⟩ := hhanded m hm
      exact (CacheRun.follower_answeredAs_iff hid hfollows hfuture hwire message).mp
        (h ⟨wire,hfuture⟩)
    · intro h hanswered
      obtain ⟨wire,hfuture⟩ := hanswered
      obtain ⟨m,hm,hwire⟩ := hset wire hfuture
      exact (CacheRun.follower_answeredAs_iff hid hfollows hfuture hwire message).mpr (h m hm)

/-! ### Two queries for one host -/

/-- A query for the host, and what an engine with these plugins makes of it. -/
def hostRun (loading : CacheLoading Unit Unit) (wakes : List (DnsCacheService Message))
    (services : CacheServices Message Unit) :
    CacheRun directCodec (soloEngine ([] : List (Plugin Unit Unit))) loading where
  now := 0
  meanwhile := { wakes }
  env := soloSurroundings [] ()
  request := hostQuery
  clientaddr := ""
  listenerName := ""
  services := services
  outcome := _
  state := _
  handled := rfl

/-- The service while the first query owns the future. -/
def awaitedService : CacheServices Message Unit :=
  ⟨{ emptyService.cache with
      pending := [(hostQuestion.key,0)], futures := [none], bounded := by simp },()⟩

def hostOwner (loading : CacheLoading Unit Unit) := hostRun loading [] emptyService

/-- The second query, woken where the first has left the service. -/
def hostFollowing (loading : CacheLoading Unit Unit) :=
  hostRun loading [(hostOwner loading).state.services.cache] awaitedService

/-- What the cache plugin is called on for the second query. -/
def hostContext : RequestContext (CacheExtensions Unit) :=
  notePlugin (cachePlugin (E:=Unit) (S:=Unit) directCodec 0 {})
    (buildContext ⟨{},()⟩ hostQuery "" "" [])

def bareLoading : CacheLoading Unit Unit where
  before := []
  after := []
  named := by simp

theorem coalescing_transparent_iff_bare :
    (hostOwner bareLoading).Transparent (hostFollowing bareLoading) hostQuestion.key
        (hostOwner bareLoading).state.services.cache ∧
      (hostOwner bareLoading).HandsOverFaithfully (hostFollowing bareLoading) hostQuestion
        hostContext (hostOwner bareLoading).state.services.cache := by
  have hsame : (hostOwner bareLoading).Transparent (hostFollowing bareLoading) hostQuestion.key
      (hostOwner bareLoading).state.services.cache :=
    fun _ => ⟨_,rfl,rfl,rfl,.refl _,.refl _,.refl _⟩
  refine ⟨hsame,?_⟩
  exact (coalescing_transparent_iff directCodec directCodec_ignoresId (soloEngine []) bareLoading
    (hostOwner bareLoading) (hostFollowing bareLoading) hostQuestion 0 hostContext []
    (hostOwner bareLoading).state.services.cache rfl ⟨.head _,rfl,rfl,rfl,rfl⟩).mp hsame

/-- A plugin that drops what it is asked. -/
def droppingPlugin : Plugin Unit Unit where
  name := "dropping"
  requestOrder := 1
  onRequest := Exec.modify fun p => ({ p.1 with dropRequest := true },p.2)

def droppingLoading : CacheLoading Unit Unit where
  before := []
  after := [droppingPlugin]
  named := by simp [droppingPlugin,cachePluginName]

/-- The first query is dropped behind the cache plugin, and the second is answered with what
was made for it. -/
theorem dropped_owner_answers :
    (hostOwner droppingLoading).outcome = .ok none ∧
      (hostOwner droppingLoading).Owns hostQuestion.key 0 ∧
      (hostFollowing droppingLoading).Follows (hostOwner droppingLoading) hostQuestion 0 hostContext
        [] (hostOwner droppingLoading).state.services.cache ∧
      ¬ (hostOwner droppingLoading).Transparent (hostFollowing droppingLoading) hostQuestion.key
        (hostOwner droppingLoading).state.services.cache := by
  refine ⟨rfl,rfl,⟨.head _,rfl,rfl,rfl,rfl⟩,fun h => h.1 ⟨rfl,?_⟩⟩
  have howns : (hostOwner droppingLoading).Owns hostQuestion.key 0 := rfl
  obtain ⟨hset,_⟩ := CacheRun.response_handed howns
  obtain ⟨m,hresult,_⟩ := hset _ rfl
  exact ⟨some m,CacheRun.gives_of_alone ⟨rfl,rfl,rfl⟩ hresult⟩

end SmartDns
