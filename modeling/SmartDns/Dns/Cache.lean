import SmartDns.Dns.Answer
set_option autoImplicit false

/-! `dns.resolver.LRUCache`: answers by name, type and class, the one used last first,
and the TTL that caches give to what they hand out. -/

namespace SmartDns

def Answer.remainingTtl (answer : Answer) (now : ℚ) : Nat := (answer.expiration-now).floor.toNat

def agedSection (ttl : Nat) (l : List RRset) : List RRset :=
  l.map fun r => if r.rdtype ∈ [RdataType.OPT,RdataType.TSIG] then r else { r with ttl }

def Message.aged (m : Message) (ttl : Nat) : Message :=
  { m with
    answer := agedSection ttl m.answer
    authority := agedSection ttl m.authority
    additional := agedSection ttl m.additional }

/-- What aging makes of one rrset. -/
def RRset.aged (ttl : Nat) (r : RRset) : RRset :=
  if r.rdtype ∈ [RdataType.OPT,RdataType.TSIG] then r else { r with ttl }

theorem agedSection_eq (ttl : Nat) (l : List RRset) : agedSection ttl l = l.map (RRset.aged ttl) :=
  rfl

theorem RRset.aged_key (ttl : Nat) (r : RRset) : (r.aged ttl).key = r.key := by
  unfold RRset.aged
  split <;> rfl

theorem RRset.aged_items (ttl : Nat) (r : RRset) : (r.aged ttl).items = r.items := by
  unfold RRset.aged
  split <;> rfl

theorem findRRset_aged (ttl : Nat) (l : List RRset) (name : Name) (rdclass : RdataClass)
    (rdtype : RdataType) :
    findRRset (agedSection ttl l) name rdclass rdtype =
      (findRRset l name rdclass rdtype).map (RRset.aged ttl) :=
  Keyed.lookup_map (RRset.aged_key ttl) _ l

theorem followChain_aged {l : List RRset} {q : Question} {n : Nat} {qname : Name}
    {minTtl : Nat} {cnames : List RRset} {r : ChainingResult} (ttl minTtl' : Nat)
    (cnames' : List RRset) (h : followChain l q n qname minTtl cnames = .ok r) :
    ∃ r', followChain (agedSection ttl l) q n qname minTtl' cnames' = .ok r' ∧
      r'.answer = r.answer.map (RRset.aged ttl) ∧ r'.canonicalName = r.canonicalName := by
  induction n generalizing qname minTtl minTtl' cnames cnames' with
  | zero => simp [followChain] at h
  | succ n ih =>
    unfold followChain at h ⊢
    rw [findRRset_aged,findRRset_aged]
    split at h
    · rename_i found hfound
      cases h
      rw [hfound]
      exact ⟨_,rfl,rfl,rfl⟩
    · rename_i hnone
      rw [hnone]
      split at h
      · rename_i hcname
        cases h
        exact ⟨_,if_pos hcname,rfl,rfl⟩
      · rename_i hcname
        simp only [Option.map_none,if_neg hcname]
        split at h
        · rename_i hend
          cases h
          rw [hend]
          exact ⟨_,rfl,rfl,rfl⟩
        · rename_i c hc
          rw [hc]
          have htarget : (c.aged ttl).target = c.target := by
            simp only [RRset.target,RRset.aged_items]
          simp only [Option.map_some,htarget]
          cases hto : c.target with
          | none => simp [hto] at h
          | some target =>
            simp only [hto] at h
            exact ih _ _ h

theorem soaAbove_aged (ttl : Nat) (l : List RRset) (rdclass : RdataClass)
    (labels : List (List UInt8)) :
    soaAbove (agedSection ttl l) rdclass labels =
      (soaAbove l rdclass labels).map (RRset.aged ttl) := by
  induction labels with
  | nil => exact findRRset_aged ttl l _ rdclass _
  | cons label labels ih =>
    simp only [soaAbove,findRRset_aged]
    cases findRRset l ⟨label :: labels⟩ rdclass RdataType.SOA with
    | none => exact ih
    | some s => rfl

theorem negativeTtl_aged {m : Message} {rdclass : RdataClass} {r r' ch : ChainingResult}
    (ttl : Nat) (hanswer : r'.answer = r.answer.map (RRset.aged ttl))
    (hname : r'.canonicalName = r.canonicalName) (h : negativeTtl m rdclass r = .ok ch) :
    ∃ ch', negativeTtl (m.aged ttl) rdclass r' = .ok ch' := by
  have hauthority : (m.aged ttl).authority = agedSection ttl m.authority := rfl
  unfold negativeTtl at h ⊢
  rw [hanswer,hname,hauthority,soaAbove_aged]
  cases ha : r.answer with
  | some a => exact ⟨r',rfl⟩
  | none =>
    cases hsoa : soaAbove m.authority rdclass r.canonicalName.labels with
    | none => exact ⟨r',rfl⟩
    | some s =>
      have hminimum : (s.aged ttl).minimum = s.minimum := by
        simp only [RRset.minimum,RRset.aged_items]
      simp only [ha,hsoa] at h
      simp only [Option.map_none,Option.map_some,hminimum]
      cases hmin : s.minimum with
      | none => simp [hmin] at h
      | some minimum => exact ⟨_,rfl⟩

/-- Aging a message leaves its chain as it is but for the TTLs. -/
theorem resolveChaining_aged {m : Message} {ch : ChainingResult} (ttl : Nat)
    (h : resolveChaining m = .ok ch) :
    ∃ ch', resolveChaining (m.aged ttl) = .ok ch' ∧
      ch'.answer = ch.answer.map (RRset.aged ttl) ∧ ch'.canonicalName = ch.canonicalName := by
  obtain ⟨hop,hqr,q,hq,r,hr,hnx,hneg⟩ := resolveChaining_ok.mp h
  obtain ⟨r',hr',hanswer,hname⟩ := followChain_aged ttl maxTtl [] hr
  obtain ⟨ch',hch'⟩ := negativeTtl_aged ttl hanswer hname hneg
  obtain ⟨hans,hcanon,_⟩ := negativeTtl_answer hch'
  obtain ⟨hans₀,hcanon₀,_⟩ := negativeTtl_answer hneg
  refine ⟨ch',resolveChaining_ok.mpr ⟨hop,hqr,q,hq,r',hr',?_,hch'⟩,?_,?_⟩
  · rw [hanswer,Option.isSome_map]
    exact hnx
  · rw [hans,hanswer,hans₀]
  · rw [hcanon,hname,hcanon₀]

abbrev CacheKey := RRKey

structure LRUCache where
  maxSize : Nat
  data : List (CacheKey × Answer)
  distinct : Keyed.Distinct Prod.fst data

namespace LRUCache

def empty (maxSize : Nat) : LRUCache := ⟨maxSize,[],List.nodup_nil⟩

/-- The cache with this answer in front of the others. -/
def front (c : LRUCache) (key : CacheKey) (answer : Answer) (rest : List (CacheKey × Answer))
    (h : rest.Sublist (Keyed.remove Prod.fst key c.data)) : LRUCache where
  maxSize := c.maxSize
  data := (key,answer) :: rest
  distinct := by
    obtain ⟨hdistinct,hfresh⟩ := Keyed.remove_distinct (k:=key) c.distinct
    refine List.nodup_cons.mpr ⟨fun hmem => hfresh ((h.map Prod.fst).subset hmem),?_⟩
    exact (h.map Prod.fst).nodup hdistinct

/-- An answer that has expired is dropped, one that is found becomes the newest. -/
def get (c : LRUCache) (now : ℚ) (key : CacheKey) : Option Answer × LRUCache :=
  match Keyed.lookup Prod.fst key c.data with
  | none => (none,c)
  | some (_,answer) =>
    if answer.expiration ≤ now then
      (none,⟨c.maxSize,Keyed.remove Prod.fst key c.data,(Keyed.remove_distinct c.distinct).1⟩)
    else (some answer,c.front key answer _ (List.Sublist.refl _))

/-- The oldest answers make room for a new one. -/
def put (c : LRUCache) (key : CacheKey) (answer : Answer) : LRUCache :=
  c.front key answer ((Keyed.remove Prod.fst key c.data).take (max 1 c.maxSize-1))
    (List.take_sublist _ _)

theorem put_size (c : LRUCache) (key : CacheKey) (answer : Answer) :
    (c.put key answer).data.length ≤ max 1 c.maxSize := by
  simp only [put,front,List.length_cons,List.length_take]
  omega

theorem get_some_iff {c : LRUCache} {now : ℚ} {key : CacheKey} {answer : Answer} :
    (c.get now key).1 = some answer ↔
      Keyed.lookup Prod.fst key c.data = some (key,answer) ∧ now < answer.expiration := by
  unfold get
  cases hlookup : Keyed.lookup Prod.fst key c.data with
  | none => simp
  | some entry =>
    obtain ⟨k,a⟩ := entry
    obtain rfl : k = key := (Keyed.lookup_some hlookup).2
    by_cases hexpired : a.expiration ≤ now
    · simp only [if_pos hexpired,reduceCtorEq,Option.some.injEq,Prod.mk.injEq,true_and,false_iff,
        not_and]
      exact fun heq => heq ▸ Rat.not_lt.mpr hexpired
    · simp only [if_neg hexpired,Option.some.injEq,Prod.mk.injEq,true_and]
      exact ⟨fun heq => ⟨heq,heq ▸ Rat.not_le.mp hexpired⟩,fun h => h.1⟩

theorem lookup_put (c : LRUCache) (key : CacheKey) (answer : Answer) :
    Keyed.lookup Prod.fst key (c.put key answer).data = some (key,answer) := by
  simp [put,front,Keyed.lookup]

theorem mem_front {c : LRUCache} {key : CacheKey} {answer : Answer}
    {rest : List (CacheKey × Answer)} (h : rest.Sublist (Keyed.remove Prod.fst key c.data))
    {entry : CacheKey × Answer}
    (hmem : entry ∈ (c.front key answer rest h).data) :
    entry = (key,answer) ∨ entry ∈ c.data ∧ entry.1 ≠ key := by
  cases List.mem_cons.mp hmem with
  | inl heq => exact .inl heq
  | inr hrest =>
    have hleft := h.subset hrest
    have hkeys := List.mem_map_of_mem (f:=Prod.fst) hleft
    have hfresh := (Keyed.remove_distinct (k:=key) c.distinct).2
    refine .inr ⟨List.mem_of_mem_eraseP hleft,fun hkey => ?_⟩
    rw [hkey] at hkeys
    exact hfresh hkeys

theorem mem_get {c : LRUCache} {now : ℚ} {key : CacheKey} {entry : CacheKey × Answer}
    (h : entry ∈ (c.get now key).2.data) : entry ∈ c.data := by
  unfold get at h
  split at h
  · exact h
  · rename_i k answer hlookup
    split at h
    · exact List.mem_of_mem_eraseP h
    · obtain ⟨hmem,rfl⟩ := Keyed.lookup_some hlookup
      cases mem_front (List.Sublist.refl _) h with
      | inl heq => exact heq ▸ hmem
      | inr hold => exact hold.1

end LRUCache

end SmartDns
