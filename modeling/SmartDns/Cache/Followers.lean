import SmartDns.Cache.Ownership
import SmartDns.Multiprocess.Manager
set_option autoImplicit false

/-!
Followers that an owner sends back to the cache, in both layers. The owner has stored its
response, so it hands over nothing; what a follower gets is what the cache still has when
the follower resumes.
-/

namespace SmartDns

/-! ### A message without its id and its TTLs -/

def Message.undated (m : Message) : Message := { m.aged 0 with id := 0 }

theorem RRset.aged_aged (ttl ttl' : Nat) (r : RRset) : (r.aged ttl').aged ttl = r.aged ttl := by
  unfold RRset.aged
  split
  · simp
  · simp

theorem agedSection_again (ttl ttl' : Nat) (l : List RRset) :
    agedSection ttl (agedSection ttl' l) = agedSection ttl l := by
  simp [agedSection_eq,RRset.aged_aged]

theorem Message.aged_again (ttl ttl' : Nat) (m : Message) :
    (m.aged ttl').aged ttl = m.aged ttl := by
  simp [Message.aged,agedSection_again]

@[simp] theorem Message.undated_aged (ttl : Nat) (m : Message) :
    (m.aged ttl).undated = m.undated := by
  unfold Message.undated
  rw [Message.aged_again]

@[simp] theorem Message.undated_id (m : Message) (id : UInt16) :
    { m with id }.undated = m.undated :=
  rfl

/-- What a message says does not depend on its id and its TTLs, and neither does whether
its chain resolves. -/
theorem resolveChaining_of_undated {m m' : Message} {chain : ChainingResult} (ttl : Nat)
    (h : resolveChaining m = .ok chain) (hsame : m'.undated = m.undated) :
    ∃ chain', resolveChaining (m'.aged ttl) = .ok chain' := by
  obtain ⟨zero,hzero,_⟩ := resolveChaining_aged 0 h
  have hundated : resolveChaining m'.undated = .ok zero := by
    rw [hsame]
    exact hzero
  have hagain : resolveChaining (m'.aged 0) = .ok zero := hundated
  obtain ⟨chain',hchain',_⟩ := resolveChaining_aged ttl hagain
  rw [Message.aged_again] at hchain'
  exact ⟨chain',hchain'⟩

section
variable {W : Type} (codec : Codec W)

/-- The cache has an answer under the key that has not expired, that can be encoded, and
that says what the message says. -/
def LRUCache.Holds (c : LRUCache) (now : ℚ) (key : CacheKey) (m : Message) : Prop :=
  ∃ answer, Keyed.lookup Prod.fst key c.data = some (key,answer) ∧ now < answer.expiration ∧
    codec.Encodes answer.response ∧ answer.response.merged.undated = m.undated

variable {codec} {now : ℚ} {key : CacheKey} {m : Message}

/-- Right after an answer was stored, only its own expiration counts. -/
theorem LRUCache.holds_put_iff (c : LRUCache) (key : CacheKey) {answer : Answer}
    (hencodes : codec.Encodes answer.response)
    (hsame : answer.response.merged.undated = m.undated) :
    (c.put key answer).Holds codec now key m ↔ now < answer.expiration := by
  constructor
  · intro h
    obtain ⟨found,hfound,hlt,_⟩ := h
    rw [LRUCache.lookup_put] at hfound
    cases hfound
    exact hlt
  · exact fun h => ⟨answer,LRUCache.lookup_put c key answer,h,hencodes,hsame⟩

/-! ### The front cache -/

namespace FrontCache

theorem cloneResponse_ok_iff {answer : Answer} {request served : Message} :
    cloneResponse codec now answer request = .ok served ↔
      codec.Encodes answer.response ∧
        served = ({ answer.response.merged with id := request.id } : Message).aged
          (answer.remainingTtl now) := by
  unfold cloneResponse
  rw [Exec.except_bind_eq_ok]
  constructor
  · intro h
    obtain ⟨cloned,hcloned,hserved⟩ := h
    have hencodes : codec.Encodes answer.response := by
      unfold cloneResponseForRequest at hcloned
      obtain ⟨decoded,hdecoded,_⟩ := Exec.except_bind_eq_ok.mp hcloned
      exact ⟨decoded,hdecoded⟩
    rw [cloneResponse_ok hencodes] at hcloned
    cases hcloned
    cases hserved
    exact ⟨hencodes,rfl⟩
  · intro h
    obtain ⟨hencodes,rfl⟩ := h
    exact ⟨_,cloneResponse_ok hencodes,rfl⟩

/-- A request is served a message exactly when the cache holds it under the request's key. -/
theorem getResponse_serves_iff {request : Message} {c : FrontCache} :
    (∃ served c', getResponse codec now request c = (.ok (some served),c') ∧
      served.undated = m.undated) ↔
      ∃ key, makeKeyFromRequest request = some key ∧ c.cache.Holds codec now key m := by
  constructor
  · intro h
    obtain ⟨served,c',hget,hsame⟩ := h
    obtain ⟨key,answer,hkey,hfound,hclone⟩ := getResponse_found hget
    obtain ⟨hlookup,hlt⟩ := LRUCache.get_some_iff.mp hfound
    obtain ⟨hencodes,rfl⟩ := cloneResponse_ok_iff.mp hclone
    rw [Message.undated_aged,Message.undated_id] at hsame
    exact ⟨key,hkey,answer,hlookup,hlt,hencodes,hsame⟩
  · intro h
    obtain ⟨key,hkey,answer,hlookup,hlt,hencodes,hsame⟩ := h
    have hfound := LRUCache.get_some_iff.mpr ⟨hlookup,hlt⟩
    refine ⟨_,_,getResponse_hit hkey hfound (cloneResponse_ok_iff.mpr ⟨hencodes,rfl⟩),?_⟩
    rw [Message.undated_aged,Message.undated_id,hsame]

end FrontCache

namespace MultiprocessRuntimeManager

/-- A call waits on an entry whose holder was left empty by a call that returned `stored`:
the response was written to the cache. -/
def Released (m : MultiprocessRuntimeManager W) (i : Nat) (request stored : Message) : Prop :=
  ∃ owner e j request', m.calls i = some ⟨request,.waiting owner⟩ ∧ m.entries owner = some e ∧
    e.wire = some none ∧ e.completedBy = some j ∧
    m.calls j = some ⟨request',.finished (.ok (some stored))⟩

variable (codec) in
/-- A released call is answered when it resumes. -/
def ServesReleased (m : MultiprocessRuntimeManager W) (l : Label) : Prop :=
  ∀ i now request stored, l = .wake i now → m.Released i request stored →
    ∀ m', step codec m l = some m' →
      ∃ served, m'.calls i = some ⟨request,.finished (.ok (some served))⟩ ∧
        served.undated = stored.merged.undated

variable (codec) in
/-- The front cache in use has the response when a released call resumes. -/
def HoldsReleased (m : MultiprocessRuntimeManager W) (l : Label) : Prop :=
  ∀ i now request stored, l = .wake i now → m.Released i request stored →
    ∃ key, FrontCache.makeKeyFromRequest request = some key ∧
      m.frontCache.cache.Holds codec now key stored.merged

/-- A holder is empty after a response exactly when the response was written. -/
theorem holderWire_empty_iff {response : Message} {written : Bool} :
    holderWire codec (some response) written = .ok none ↔ written = true := by
  cases written with
  | true => simp [holderWire,pure,Except.pure]
  | false =>
    simp only [holderWire,Bool.false_eq_true,iff_false]
    rw [Exec.except_bind_eq_ok]
    intro h
    obtain ⟨_,_,h⟩ := h
    cases h

theorem setCall_self (m : MultiprocessRuntimeManager W) (i : Nat) (request : Message)
    (phase : QueryPhase) : (m.setCall i request phase).calls i = some ⟨request,phase⟩ := by
  simp [setCall]

/-- A turn of the loop answers at once exactly when the front cache does. -/
theorem lookUp_serves_iff {m : MultiprocessRuntimeManager W} {i : Nat} {request served : Message} :
    (m.lookUp codec now i request none).calls i =
        some ⟨request,.finished (.ok (some served))⟩ ↔
      ∃ c, FrontCache.getResponse codec now request m.frontCache = (.ok (some served),c) := by
  unfold lookUp
  rcases hget : FrontCache.getResponse codec now request m.frontCache with ⟨e | cached,c⟩
  · simp [setCall_self]
  · cases cached with
    | some cached => simp [setCall_self]
    | none =>
      cases FrontCache.makeKeyFromRequest request with
      | none => simp [query,setCall_self]
      | some key => simp [setCall_self]

theorem servesReleased_iff {m m' : MultiprocessRuntimeManager W} {l : Label}
    (h : step codec m l = some m') : ServesReleased codec m l ↔ HoldsReleased codec m l := by
  refine forall_congr' fun i => forall_congr' fun now => forall_congr' fun request =>
    forall_congr' fun stored => forall_congr' fun hl => forall_congr' fun hreleased => ?_
  obtain ⟨owner,e,j,request',hcall,hentry,hwire,_⟩ := hreleased
  subst hl
  have hstep : step codec m (.wake i now) = some (m.lookUp codec now i request none) := by
    obtain ⟨cache,key,wire,completedBy⟩ := e
    cases hwire
    simp [step,hcall,hentry,follow]
  rw [← FrontCache.getResponse_serves_iff]
  constructor
  · intro hserves
    obtain ⟨served,hserved,hsame⟩ := hserves _ hstep
    obtain ⟨c,hget⟩ := lookUp_serves_iff.mp hserved
    exact ⟨served,c,hget,hsame⟩
  · intro hserves m'' hm''
    obtain ⟨served,c,hget,hsame⟩ := hserves
    cases hstep.symm.trans hm''
    exact ⟨served,lookUp_serves_iff.mpr ⟨c,hget⟩,hsame⟩

end MultiprocessRuntimeManager

/-! ### The cache plugin -/

namespace DnsCacheService

theorem getForRequest_serves_iff {request : Message} {s : DnsCacheService W}
    {chain : ChainingResult} (hkey : makeKeyFromRequest request = .ok key)
    (hchain : resolveChaining m = .ok chain) :
    (∃ answer s', getForRequest codec now request s = (.ok (some answer),s') ∧
      answer.response.undated = m.undated) ↔ s.cache.Holds codec now key m := by
  constructor
  · intro h
    obtain ⟨answer,s',hget,hsame⟩ := h
    obtain ⟨key',cached,hkey',hfound,hclone⟩ := getForRequest_found hget
    obtain rfl : key = key' := Except.ok.inj (hkey.symm.trans hkey')
    obtain ⟨hlookup,hlt⟩ := LRUCache.get_some_iff.mp hfound
    obtain ⟨hencodes,_,_,rfl⟩ := cloneAnswer_ok_iff.mp hclone
    refine ⟨cached,hlookup,hlt,hencodes,?_⟩
    rw [← hsame]
    exact (Message.undated_aged _ _).symm
  · intro h
    obtain ⟨cached,hlookup,hlt,hencodes,hsame⟩ := h
    have hfound := LRUCache.get_some_iff.mpr ⟨hlookup,hlt⟩
    obtain ⟨chain',hchain'⟩ := resolveChaining_of_undated (cached.remainingTtl now) hchain hsame
    have hrestored : resolveChaining
        (restored (some (cached.remainingTtl now)) cached.response) = .ok chain' := hchain'
    have hclone : cloneAnswer codec now cached (some (cached.remainingTtl now)) = .ok _ :=
      cloneAnswer_ok_iff.mpr ⟨hencodes,chain',hrestored,rfl⟩
    exact ⟨_,_,getForRequest_hit hkey hfound hclone,(Message.undated_aged _ _).trans hsame⟩

end DnsCacheService

namespace CachePlugin

variable {E S : Type} {p : RequestContext (CacheExtensions E) × CacheServices W S}

variable (codec) in
/-- A follower that resumes is answered with the message, whatever the service comes to
later, and owns nothing. -/
def ServesFollower (now : ℚ) (key : CacheKey)
    (p : RequestContext (CacheExtensions E) × CacheServices W S) (m : Message) : Prop :=
  ∀ wakes, ∃ p' answer, lookUpLoop codec now key wakes p = (.ok (),p') ∧
    p'.1.extensions.cache.pendingOwner = false ∧ p'.1.finalAnswer = some answer ∧
    answer.response.undated = m.undated

/-- A turn that can wait for nobody and makes no owner finds its answer in the cache. -/
theorem lookUp_served {p' : RequestContext (CacheExtensions E) × CacheServices W S}
    (h : lookUp codec now key (fun _ => Exec.raise cancelled) p = (.ok (),p'))
    (hown : p'.1.extensions.cache.pendingOwner = false) :
    ∃ answer s, DnsCacheService.getForRequest codec now p.1.request p.2.cache =
      (.ok (some answer),s) ∧ p'.1.finalAnswer = some answer := by
  rcases hget : DnsCacheService.getForRequest codec now p.1.request p.2.cache with ⟨e | cached,s⟩
  · rw [lookUp_error hget] at h
    cases h
  · cases cached with
    | some answer =>
      obtain ⟨p'',hrun,hanswer,_⟩ := lookUp_hit key _ hget
      cases hrun.symm.trans h
      exact ⟨answer,s,rfl,hanswer⟩
    | none =>
      cases hpending : s.pendingFuture key with
      | some future =>
        rw [lookUp_follow hget hpending] at h
        cases h
      | none =>
        obtain ⟨p'',hrun,_,hcache⟩ := lookUp_owner _ hget hpending
        cases hrun.symm.trans h
        rw [hcache] at hown
        cases hown

theorem servesFollower_iff {chain : ChainingResult} (hlooking : Looking key p)
    (hkey : DnsCacheService.makeKeyFromRequest p.1.request = .ok key)
    (hchain : resolveChaining m = .ok chain) :
    ServesFollower codec now key p m ↔ p.2.cache.cache.Holds codec now key m := by
  rw [← DnsCacheService.getForRequest_serves_iff hkey hchain]
  constructor
  · intro h
    obtain ⟨p',answer,hrun,hown,hanswer,hsame⟩ := h []
    obtain ⟨found,s,hget,hfound⟩ := lookUp_served hrun hown
    cases hanswer.symm.trans hfound
    exact ⟨answer,s,hget,hsame⟩
  · intro h wakes
    obtain ⟨answer,s,hget,hsame⟩ := h
    have hown (x : CachePluginContext) (hx : x = { p.1.extensions.cache with hit := true }) :
        x.pendingOwner = false := by
      rw [hx,hlooking]
    cases wakes with
    | nil =>
      obtain ⟨p',hrun,hanswer,hcache⟩ := lookUp_hit key _ hget
      exact ⟨p',answer,hrun,hown _ hcache,hanswer,hsame⟩
    | cons wake wakes =>
      obtain ⟨p',hrun,hanswer,hcache⟩ := lookUp_hit key _ hget
      exact ⟨p',answer,hrun,hown _ hcache,hanswer,hsame⟩

end CachePlugin

/-! ### At once -/

/-- A follower that resumes on the front cache its owner has just written is served
exactly while the answer lives. -/
theorem FrontCache.putResponse_serves_iff (hid : codec.IgnoresId) {stored : ℚ}
    {request request' response : Message} {c c' : FrontCache} {chain : ChainingResult}
    (hput : FrontCache.putResponse codec stored request (some response) c = (.ok true,c'))
    (hkey : FrontCache.makeKeyFromRequest request' = FrontCache.makeKeyFromRequest request)
    (hchain : resolveChaining response.merged = .ok chain) :
    (∃ served d, FrontCache.getResponse codec now request' c' = (.ok (some served),d) ∧
      served.undated = response.merged.undated) ↔
      now < stored+builtLifetime response.merged chain := by
  obtain ⟨_,key,a,hkey',hbuild,_,rfl⟩ := FrontCache.putResponse_stored hput
  obtain ⟨chain',⟨w,hw⟩,hchain',hresponse,hexpiration,_⟩ := buildAnswer_ok hbuild
  cases hchain.symm.trans hchain'
  have hencodes : codec.Encodes a.response := by
    rw [hresponse]
    exact hid _ _ (codec.again _ _ hw)
  have hsame : a.response.merged.undated = response.merged.undated := by
    rw [hresponse]
    change response.merged.merged.undated = response.merged.undated
    rw [Message.merged_merged]
  rw [FrontCache.getResponse_serves_iff,← hexpiration,
    ← LRUCache.holds_put_iff c.cache key hencodes hsame]
  constructor
  · intro h
    obtain ⟨key'',hkey'',hholds⟩ := h
    rw [hkey,hkey'] at hkey''
    cases hkey''
    exact hholds
  · exact fun h => ⟨key,hkey.trans hkey',h⟩

/-- The same for a follower of the cache plugin, on the service its owner has written to
under the follower's key. -/
theorem DnsCacheService.putAnswer_serves_iff {E S : Type} {stored : ℚ} {answer : Answer}
    {s : DnsCacheService W} {p : RequestContext (CacheExtensions E) × CacheServices W S}
    (hput : DnsCacheService.putAnswer codec stored answer s = (.ok (),p.2.cache))
    (hlooking : Looking (DnsCacheService.makeKeyFromAnswer answer) p)
    (hkey : DnsCacheService.makeKeyFromRequest p.1.request =
      .ok (DnsCacheService.makeKeyFromAnswer answer)) :
    CachePlugin.ServesFollower codec now (DnsCacheService.makeKeyFromAnswer answer) p
        answer.response.merged ↔ now < answer.expiration := by
  obtain ⟨entry,hclone,hrun⟩ | ⟨e,_,hrun⟩ := DnsCacheService.putAnswer_run codec stored answer s
  · obtain ⟨⟨w,hw⟩,chain,hchain,rfl⟩ := DnsCacheService.cloneAnswer_ok_iff.mp hclone
    have hmerged : resolveChaining answer.response.merged = .ok chain := hchain
    rw [hrun] at hput
    have hcache : _ = p.2.cache := congrArg Prod.snd hput
    rw [CachePlugin.servesFollower_iff hlooking hkey hmerged,← hcache]
    refine LRUCache.holds_put_iff _ _ (codec.again _ _ hw) ?_
    change answer.response.merged.merged.undated = answer.response.merged.undated
    rw [Message.merged_merged]
  · rw [hrun] at hput
    cases hput

end

/-- A released follower is answered with what its owner stored, and asks nobody, exactly when
the cache in use still has that under the follower's key and it has not expired. In the
worker pool's runtime this is said of every follower that resumes during a run, in the cache
plugin of a follower that resumes on any state of the service. -/
theorem followers_served_iff {E S W : Type} (codec : Codec W) :
    (∀ (frontCacheSize : Nat) (ls : List MultiprocessRuntimeManager.Label),
      Transition.Guarded (MultiprocessRuntimeManager.step codec)
          (MultiprocessRuntimeManager.ServesReleased codec)
          (MultiprocessRuntimeManager.init frontCacheSize) ls ↔
        Transition.Guarded (MultiprocessRuntimeManager.step codec)
          (MultiprocessRuntimeManager.HoldsReleased codec)
          (MultiprocessRuntimeManager.init frontCacheSize) ls) ∧
    ∀ (stored now : ℚ) (answer entry : Answer) (key : CacheKey)
      (p : RequestContext (CacheExtensions E) × CacheServices W S),
      DnsCacheService.cloneAnswer codec stored answer none = .ok entry → Looking key p →
      DnsCacheService.makeKeyFromRequest p.1.request = .ok key →
      (CachePlugin.ServesFollower codec now key p entry.response ↔
        p.2.cache.cache.Holds codec now key entry.response) := by
  refine ⟨fun frontCacheSize ls => ?_,?_⟩
  · exact Transition.guarded_congr
      (fun _ _ _ hstep => MultiprocessRuntimeManager.servesReleased_iff hstep) _ ls
  · intro stored now answer entry key p hentry hlooking hkey
    obtain ⟨_,chain,hchain,rfl⟩ := DnsCacheService.cloneAnswer_ok_iff.mp hentry
    exact CachePlugin.servesFollower_iff hlooking hkey hchain

/-- A follower of the cache plugin that resumes on an empty cache. -/
def hostFollower : RequestContext (CacheExtensions Unit) × CacheServices Message Unit :=
  (buildContext ⟨{ key := some hostQuestion.key },()⟩ hostQuery "" "" [],⟨.new 1,()⟩)

theorem followers_served_iff_host :
    CachePlugin.ServesFollower directCodec 0 hostQuestion.key hostFollower
        (hostReply [addressOf hostName 1]) ↔
      hostFollower.2.cache.cache.Holds directCodec 0 hostQuestion.key
        (hostReply [addressOf hostName 1]) :=
  (followers_served_iff directCodec).2 0 0
    (hostAnswer [addressOf hostName 1] (addressOf hostName 1))
    (hostAnswer [addressOf hostName 1] (addressOf hostName 1)) hostQuestion.key hostFollower rfl rfl
    rfl

/-! ### An answer without a lifetime -/

def hostShortlived : RRset := { addressOf hostName 1 with ttl := 0 }

/-- Two queries for one host, the second of which follows the first; the reply may not be
kept at all. -/
def zeroTtlRun : List MultiprocessRuntimeManager.Label :=
  [.arrive 0 (makeQuery 1 hostName RdataType.A RdataClass.IN) 0 none,.acquire 0 0 none,
    .arrive 1 (makeQuery 2 hostName RdataType.A RdataClass.IN) 0 none,.acquire 1 0 none,
    .reply 0 (.ok (some (hostReply [hostShortlived]))),.resume 0 0,.complete 0]

/-- The follower is sent to a cache that gives it nothing, and goes on to ask itself. -/
theorem follower_asksAgain :
    ¬ Transition.Guarded (MultiprocessRuntimeManager.step directCodec)
        (MultiprocessRuntimeManager.ServesReleased directCodec)
        (MultiprocessRuntimeManager.init 1) (zeroTtlRun ++ [.wake 1 0]) := by
  intro h
  have hrun : ∃ t t' stored entry, Transition.run (MultiprocessRuntimeManager.step directCodec)
        (MultiprocessRuntimeManager.init 1) zeroTtlRun = some t ∧
      MultiprocessRuntimeManager.step directCodec t (.wake 1 0) = some t' ∧
      t.Released 1 (makeQuery 2 hostName RdataType.A RdataClass.IN) stored ∧
      t.frontCache.cache.data = [entry] ∧ entry.2.expiration = 0+(0 : Nat) :=
    ⟨_,_,hostReply [hostShortlived],_,rfl,rfl,⟨0,_,0,_,rfl,rfl,rfl,rfl,rfl⟩,rfl,rfl⟩
  obtain ⟨t,t',stored,entry,ht,hstep,hreleased,hdata,hexpiration⟩ := hrun
  have hholds := (MultiprocessRuntimeManager.servesReleased_iff hstep).mp (h.last ht hstep)
  obtain ⟨key,_,answer,hlookup,hlt,_⟩ := hholds 1 0 _ stored rfl hreleased
  have hmem := (Keyed.lookup_some hlookup).1
  rw [hdata,List.mem_singleton] at hmem
  rw [← hmem] at hexpiration
  have hzero : answer.expiration = 0 := by
    rw [hexpiration]
    simp
  rw [hzero] at hlt
  exact lt_irrefl _ hlt

end SmartDns
