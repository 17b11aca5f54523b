import SmartDns.Cache.Service
import SmartDns.Multiprocess.FrontCache
import Mathlib.Tactic.Linarith
set_option autoImplicit false

/-!
How long cached records live. Both caches write the remaining lifetime of the whole
entry onto every record that they serve; a record keeps within its own TTL exactly when
the entry was not given a longer lifetime than the record.
-/

namespace SmartDns

/-! ### Served against stored -/

/-- Whether a cache rewrites the TTL of the rrset. -/
def RRset.isTimed (r : RRset) : Bool := r.rdtype ∉ [RdataType.OPT,RdataType.TSIG]

def Message.timed (m : Message) : List RRset :=
  (m.answer ++ m.authority ++ m.additional).filter RRset.isTimed

/-- The same records, each with at most what is left of its TTL. -/
def SectionWithin (elapsed : ℚ) (stored served : List RRset) : Prop :=
  List.Forall₂ (fun r s => s.key = r.key ∧ s.items = r.items ∧
    (r.isTimed = true → (s.ttl : ℚ) ≤ max 0 (r.ttl-elapsed))) stored served

structure Message.Within (elapsed : ℚ) (stored served : Message) : Prop where
  answer : SectionWithin elapsed stored.answer served.answer
  authority : SectionWithin elapsed stored.authority served.authority
  additional : SectionWithin elapsed stored.additional served.additional

theorem sectionWithin_aged {elapsed : ℚ} {ttl : Nat} {l : List RRset} :
    SectionWithin elapsed l (agedSection ttl l) ↔
      ∀ r ∈ l, r.isTimed = true → (ttl : ℚ) ≤ max 0 (r.ttl-elapsed) := by
  unfold SectionWithin agedSection
  rw [List.forall₂_map_right_iff,List.forall₂_same]
  refine forall₂_congr fun r _ => ?_
  by_cases h : r.rdtype ∈ [RdataType.OPT,RdataType.TSIG]
  · simp [RRset.isTimed,h]
  · rw [if_neg h]
    exact ⟨fun hr => hr.2.2,fun hr => ⟨rfl,rfl,hr⟩⟩

theorem within_aged {elapsed : ℚ} {ttl : Nat} {m served : Message}
    (hanswer : served.answer = agedSection ttl m.answer)
    (hauthority : served.authority = agedSection ttl m.authority)
    (hadditional : served.additional = agedSection ttl m.additional) :
    Message.Within elapsed m served ↔ ∀ r ∈ m.timed, (ttl : ℚ) ≤ max 0 (r.ttl-elapsed) := by
  have hall : (∀ r ∈ m.timed, (ttl : ℚ) ≤ max 0 (r.ttl-elapsed)) ↔
      (∀ r ∈ m.answer, r.isTimed = true → (ttl : ℚ) ≤ max 0 (r.ttl-elapsed)) ∧
      (∀ r ∈ m.authority, r.isTimed = true → (ttl : ℚ) ≤ max 0 (r.ttl-elapsed)) ∧
      ∀ r ∈ m.additional, r.isTimed = true → (ttl : ℚ) ≤ max 0 (r.ttl-elapsed) := by
    simp only [Message.timed,List.mem_filter,List.mem_append,or_imp,and_imp,forall_and,or_assoc]
  rw [hall,← sectionWithin_aged,← sectionWithin_aged,← sectionWithin_aged,← hanswer,← hauthority,
    ← hadditional]
  exact ⟨fun h => ⟨h.answer,h.authority,h.additional⟩,fun h => ⟨h.1,h.2.1,h.2.2⟩⟩

theorem natCast_toNat {z : Int} (h : 0 ≤ z) : ((z.toNat : Nat) : ℚ) = z := by
  exact_mod_cast congrArg (Int.cast (R:=ℚ)) (Int.toNat_of_nonneg h)

/-- Whole seconds that are left never exceed what is left of a TTL, from the time of storing
on, exactly when the lifetime does not exceed the TTL or is below a second. -/
theorem remaining_le_iff {lifetime : ℚ} {ttl : Nat} :
    (∀ elapsed, 0 ≤ elapsed → elapsed < lifetime →
      (((lifetime-elapsed).floor.toNat : Nat) : ℚ) ≤ max 0 (ttl-elapsed)) ↔
      lifetime < 1 ∨ lifetime ≤ ttl := by
  constructor
  · intro h
    by_contra hcon
    simp only [not_or,not_lt,not_le] at hcon
    obtain ⟨hone,httl⟩ := hcon
    have hfloor : (lifetime.floor : ℚ) ≤ lifetime := Rat.floor_le lifetime
    have hpos : 1 ≤ lifetime.floor := Rat.le_floor_iff.mpr (by exact_mod_cast hone)
    have hposℚ : (1 : ℚ) ≤ lifetime.floor := by exact_mod_cast hpos
    -- the moment at which a whole number of seconds is left
    have hleft := h (lifetime-lifetime.floor) (by linarith) (by linarith)
    rw [sub_sub_cancel,Rat.floor_intCast,natCast_toNat (by omega),le_max_iff] at hleft
    cases hleft with
    | inl hzero => linarith
    | inr hle => linarith
  · intro h elapsed helapsed hlt
    have hfloor := Rat.floor_le (lifetime-elapsed)
    have hnonneg : 0 ≤ (lifetime-elapsed).floor :=
      Rat.le_floor_iff.mpr (by push_cast; linarith)
    rw [natCast_toNat hnonneg,le_max_iff]
    cases h with
    | inl hshort =>
      have hzero : (lifetime-elapsed).floor < 1 :=
        Rat.floor_lt_iff.mpr (by push_cast; linarith)
      have hle : (lifetime-elapsed).floor ≤ 0 := by omega
      exact .inl (by exact_mod_cast hle)
    | inr hle => exact .inr (by linarith)

/-- The same for every record of a message, in terms of the clock. -/
theorem served_within_iff {m : Message} {expiration stored : ℚ} :
    (∀ t, stored ≤ t → t < expiration → ∀ r ∈ m.timed,
      (((expiration-t).floor.toNat : Nat) : ℚ) ≤ max 0 (r.ttl-(t-stored))) ↔
      expiration-stored < 1 ∨ ∀ r ∈ m.timed, expiration-stored ≤ r.ttl := by
  have hall : (∀ t, stored ≤ t → t < expiration → ∀ r ∈ m.timed,
      (((expiration-t).floor.toNat : Nat) : ℚ) ≤ max 0 (r.ttl-(t-stored))) ↔
      ∀ r ∈ m.timed, expiration-stored < 1 ∨ expiration-stored ≤ r.ttl := by
    simp only [← remaining_le_iff]
    constructor
    · intro h r hr elapsed helapsed hlt
      have hthen := h (stored+elapsed) (by linarith) (by linarith) r hr
      rwa [add_sub_cancel_left,← sub_sub] at hthen
    · intro h t ht hlt r hr
      have hthen := h r hr (t-stored) (by linarith) (by linarith)
      rwa [sub_sub_sub_cancel_right] at hthen
  rw [hall]
  by_cases hshort : expiration-stored < 1
  · simp [hshort]
  · simp [hshort]

/-! ### What a cache serves of an entry -/

section
variable {W : Type} (codec : Codec W)

/-- Whatever is served of the entry under this key, by a cache that still holds it, keeps
within the TTLs of what was stored. -/
def FrontCache.ServesWithin (stored : ℚ) (key : CacheKey) (m : Message) (c : FrontCache) : Prop :=
  ∀ t, stored ≤ t → ∀ (d d' : FrontCache) (request served : Message),
    Keyed.lookup Prod.fst key d.cache.data = Keyed.lookup Prod.fst key c.cache.data →
    FrontCache.makeKeyFromRequest request = some key →
    FrontCache.getResponse codec t request d = (.ok (some served),d') →
    Message.Within (t-stored) m served

def DnsCacheService.ServesWithin (stored : ℚ) (key : CacheKey) (m : Message)
    (s : DnsCacheService W) : Prop :=
  ∀ t, stored ≤ t → ∀ (d d' : DnsCacheService W) (request : Message) (served : Answer),
    Keyed.lookup Prod.fst key d.cache.data = Keyed.lookup Prod.fst key s.cache.data →
    DnsCacheService.makeKeyFromRequest request = .ok key →
    DnsCacheService.getForRequest codec t request d = (.ok (some served),d') →
    Message.Within (t-stored) m served.response

variable {codec}

theorem FrontCache.servesWithin_iff (hid : codec.IgnoresId) {stored : ℚ}
    {request response : Message} {key : CacheKey} {c c' : FrontCache}
    (hput : FrontCache.putResponse codec stored request (some response) c = (.ok true,c'))
    (hkey : FrontCache.makeKeyFromRequest request = some key) :
    ∃ chain, resolveChaining response.merged = .ok chain ∧
      (FrontCache.ServesWithin codec stored key response.merged c' ↔
        ∀ r ∈ response.merged.timed, builtLifetime response.merged chain ≤ r.ttl) := by
  obtain ⟨_,key',a,hkey',hbuild,_,rfl⟩ := FrontCache.putResponse_stored hput
  obtain rfl : key = key' := Option.some.inj (hkey.symm.trans hkey')
  obtain ⟨chain,hencodes,hchain,hresponse,hexpiration,_⟩ := buildAnswer_ok hbuild
  refine ⟨chain,hchain,?_⟩
  have hclone (t : ℚ) (request' : Message) : ∃ served,
      FrontCache.cloneResponse codec t a request' = .ok served ∧
        ∀ elapsed, Message.Within elapsed response.merged served ↔
          ∀ r ∈ response.merged.timed, (a.remainingTtl t : ℚ) ≤ max 0 (r.ttl-elapsed) := by
    obtain ⟨w,hw⟩ := hencodes
    have hagain : codec.Encodes a.response := by
      rw [hresponse]
      exact hid _ _ (codec.again _ _ hw)
    refine ⟨_,by rw [FrontCache.cloneResponse,cloneResponse_ok hagain]; rfl,fun elapsed => ?_⟩
    refine within_aged ?_ ?_ ?_
    all_goals
      rw [hresponse]
      exact congrArg (agedSection _) (Message.mergeSection_merged _)
  have hlifetime : a.expiration-stored = (builtLifetime response.merged chain : Nat) := by
    rw [hexpiration,add_sub_cancel_left]
  have hserved : FrontCache.ServesWithin codec stored key response.merged
      { c with cache := c.cache.put key a } ↔
      ∀ t, stored ≤ t → t < a.expiration → ∀ r ∈ response.merged.timed,
        (((a.expiration-t).floor.toNat : Nat) : ℚ) ≤ max 0 (r.ttl-(t-stored)) := by
    constructor
    · intro h t ht hlt
      obtain ⟨served,hserved,hwithin⟩ := hclone t request
      have hget := LRUCache.get_some_iff.mpr ⟨LRUCache.lookup_put c.cache key a,hlt⟩
      exact (hwithin _).mp (h t ht _ _ request served rfl hkey
        (FrontCache.getResponse_hit (c:={ c with cache := c.cache.put key a }) hkey hget hserved))
    · intro h t ht d d' request' served hheld hkey' hget
      obtain ⟨k,found,hk,hfound,hcloned⟩ := FrontCache.getResponse_found hget
      obtain rfl : key = k := Option.some.inj (hkey'.symm.trans hk)
      obtain ⟨hlookup,hlt⟩ := LRUCache.get_some_iff.mp hfound
      rw [hheld,LRUCache.lookup_put] at hlookup
      cases hlookup
      obtain ⟨served',hserved',hwithin⟩ := hclone t request'
      obtain rfl : served = served' := Except.ok.inj (hcloned.symm.trans hserved')
      exact (hwithin _).mpr (h t ht hlt)
  rw [hserved,served_within_iff,hlifetime]
  constructor
  · intro h r hr
    cases h with
    | inl hshort =>
      have hzero : builtLifetime response.merged chain < 1 := by exact_mod_cast hshort
      omega
    | inr hle => exact_mod_cast hle r hr
  · exact fun h => .inr fun r hr => by exact_mod_cast h r hr

theorem DnsCacheService.servesWithin_iff {stored : ℚ} {answer : Answer} {s s' : DnsCacheService W}
    (hput : DnsCacheService.putAnswer codec stored answer s = (.ok (),s')) :
    DnsCacheService.ServesWithin codec stored (DnsCacheService.makeKeyFromAnswer answer)
        answer.response.merged s' ↔
      answer.expiration-stored < 1 ∨
        ∀ r ∈ answer.response.merged.timed, answer.expiration-stored ≤ r.ttl := by
  obtain ⟨a,hclone,hrun⟩ | ⟨e,_,hrun⟩ := DnsCacheService.putAnswer_run codec stored answer s
  · rw [hrun] at hput
    cases hput
    have hexpiration : a.expiration = answer.expiration := by
      obtain ⟨_,_,_,rfl⟩ := DnsCacheService.cloneAnswer_ok_iff.mp hclone
      rfl
    rw [← served_within_iff,← hexpiration]
    constructor
    · intro h t ht hlt
      obtain ⟨served,hserved,hresponse⟩ :=
        DnsCacheService.cloneAnswer_again (a.remainingTtl t) t hclone
      have hget := LRUCache.get_some_iff.mpr
        ⟨LRUCache.lookup_put s.cache (DnsCacheService.makeKeyFromAnswer answer) a,hlt⟩
      have hwithin := h t ht _ _ (makeQuery 0 answer.qname answer.rdtype answer.rdclass) served rfl
        rfl (DnsCacheService.getForRequest_hit rfl hget hserved)
      rw [hresponse] at hwithin
      exact (within_aged rfl rfl rfl).mp hwithin
    · intro h t ht d d' request served hheld hkey hget
      obtain ⟨key,cached,hkey',hfound,hserved⟩ := DnsCacheService.getForRequest_found hget
      obtain rfl := Except.ok.inj (hkey.symm.trans hkey')
      obtain ⟨hlookup,hlt⟩ := LRUCache.get_some_iff.mp hfound
      rw [hheld,LRUCache.lookup_put] at hlookup
      cases hlookup
      obtain ⟨served',hserved',hresponse⟩ :=
        DnsCacheService.cloneAnswer_again (a.remainingTtl t) t hclone
      obtain rfl : served = served' := Except.ok.inj (hserved.symm.trans hserved')
      rw [hresponse]
      exact (within_aged rfl rfl rfl).mpr (h t ht hlt)
  · rw [hrun] at hput
    simp at hput

/-- No record that a cache serves outlives its TTL, exactly when the entry was given no
longer lifetime than any of its records, or less than a second. -/
theorem servedWithinTtl_iff (codec : Codec W) (hid : codec.IgnoresId) :
    (∀ (stored : ℚ) (request response : Message) (key : CacheKey) (c c' : FrontCache),
      FrontCache.putResponse codec stored request (some response) c = (.ok true,c') →
      FrontCache.makeKeyFromRequest request = some key →
      ∃ chain, resolveChaining response.merged = .ok chain ∧
        (FrontCache.ServesWithin codec stored key response.merged c' ↔
          ∀ r ∈ response.merged.timed, builtLifetime response.merged chain ≤ r.ttl)) ∧
    ∀ (stored : ℚ) (answer : Answer) (s s' : DnsCacheService W),
      DnsCacheService.putAnswer codec stored answer s = (.ok (),s') →
      (DnsCacheService.ServesWithin codec stored (DnsCacheService.makeKeyFromAnswer answer)
          answer.response.merged s' ↔
        answer.expiration-stored < 1 ∨
          ∀ r ∈ answer.response.merged.timed, answer.expiration-stored ≤ r.ttl) :=
  ⟨fun _ _ _ _ _ _ hput hkey => FrontCache.servesWithin_iff hid hput hkey,
    fun _ _ _ _ hput => DnsCacheService.servesWithin_iff hput⟩

end

/-- A reply of sixty seconds with an address of another host that lives five. -/
def gluedReply : Message :=
  { hostReply [addressOf hostName 1] with additional := [{ addressOf otherName 9 with ttl := 5 }] }

theorem gluedReply_stored :
    FrontCache.putResponse directCodec 0 hostQuery (some gluedReply) (FrontCache.new 8) =
      (.ok true,(FrontCache.putResponse directCodec 0 hostQuery (some gluedReply)
        (FrontCache.new 8)).2) :=
  Prod.ext rfl rfl

theorem servedWithinTtl_iff_glued :
    ∃ chain, resolveChaining gluedReply.merged = .ok chain ∧
      (FrontCache.ServesWithin directCodec 0 hostQuestion.key gluedReply.merged
          (FrontCache.putResponse directCodec 0 hostQuery (some gluedReply) (FrontCache.new 8)).2 ↔
        ∀ r ∈ gluedReply.merged.timed, builtLifetime gluedReply.merged chain ≤ r.ttl) :=
  (servedWithinTtl_iff directCodec directCodec_ignoresId).1 0 hostQuery gluedReply _ _ _
    gluedReply_stored rfl

/-- Served at once, the other host's address is said to live sixty seconds. -/
theorem frontCache_outlives_ttl :
    FrontCache.putResponse directCodec 0 hostQuery (some gluedReply) (FrontCache.new 8) =
        (.ok true,(FrontCache.putResponse directCodec 0 hostQuery (some gluedReply)
          (FrontCache.new 8)).2) ∧
      ¬ FrontCache.ServesWithin directCodec 0 hostQuestion.key gluedReply.merged
        (FrontCache.putResponse directCodec 0 hostQuery (some gluedReply)
          (FrontCache.new 8)).2 := by
  refine ⟨gluedReply_stored,?_⟩
  have hkey : FrontCache.makeKeyFromRequest hostQuery = some hostQuestion.key := rfl
  obtain ⟨chain,hchain,hiff⟩ :=
    FrontCache.servesWithin_iff directCodec_ignoresId gluedReply_stored hkey
  have hresolved : resolveChaining gluedReply.merged =
      .ok ⟨hostName,some (addressOf hostName 1),60,[]⟩ := by rfl
  obtain rfl := Except.ok.inj (hresolved.symm.trans hchain)
  rw [hiff]
  decide

end SmartDns
