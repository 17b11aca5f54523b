import SmartDns.SpeedTest.Plugin
import Mathlib.Data.List.Chain
import Mathlib.Data.List.Sort
set_option autoImplicit false

/-!
The choice among measured addresses: the longest prefix of the order by time that is within the
tolerance and has no gap. A difference of two infinite times counts as none, although it is NaN.
-/

namespace SmartDns

namespace SpeedTest

section
variable {α : Type}

/-- Of the prefixes of `l` with `P`, the longest. -/
structure IsLongestPrefix (P : List α → Prop) (p l : List α) : Prop where
  isPrefix : p <+: l
  holds : P p
  longest : ∀ q, q <+: l → P q → q.length ≤ p.length

theorem IsLongestPrefix.eq_self {P : List α → Prop} {p l : List α} (h : IsLongestPrefix P p l)
    (hl : P l) : p = l :=
  h.isPrefix.eq_of_length_le (h.longest l List.prefix_rfl hl)

theorem prefix_takeWhile {p : α → Bool} {q l : List α} (hq : q <+: l) (h : ∀ x ∈ q, p x = true) :
    q <+: l.takeWhile p := by
  obtain ⟨rest,rfl⟩ := hq
  rw [List.takeWhile_append_of_pos h]
  exact List.prefix_append q _

end

/-- The time of an address: that of its last result that has one. -/
def rttOf (results : List IpRttResult) (ip : Ip) : Option Ms :=
  (results.filterMap fun item => if item.ip = ip then item.bestMs else none).getLast?

/-- The time of a measured address. -/
def time (results : List IpRttResult) (ip : Ip) : Ms := (rttOf results ip).getD ⊤

def measured (results : List IpRttResult) (ip : Ip) : Bool := (rttOf results ip).isSome

/-- By time, and among equal times in the order of the candidates. -/
def Before (candidateIps : List Ip) (results : List IpRttResult) (a b : Ip) : Prop :=
  time results a < time results b ∨
    time results a = time results b ∧ candidateIps.idxOf a < candidateIps.idxOf b

/-- Every time is within the tolerance of the first, and every gap within the threshold. -/
def Close (config : SpeedTestPluginConfig) (results : List IpRttResult) (ips : List Ip) : Prop :=
  (∀ first ∈ ips.head?, ∀ ip ∈ ips, time results ip ≤ time results first+config.rttToleranceMs) ∧
    ips.IsChain fun a b => time results b ≤ time results a+config.rttGapThresholdMs

variable {config : SpeedTestPluginConfig} {candidateIps : List Ip} {results : List IpRttResult}

/-! ### Times -/

theorem sub_le_iff {a b tolerance : Ms} :
    (Ms.sub a b).le tolerance = true ↔ a ≤ b+tolerance ∧ ¬ (a = ⊤ ∧ b = ⊤) := by
  induction a using WithTop.recTopCoe with
  | top =>
    induction b using WithTop.recTopCoe with
    | top => exact iff_of_false Bool.false_ne_true fun h => h.2 ⟨rfl,rfl⟩
    | coe b =>
      induction tolerance using WithTop.recTopCoe with
      | top => exact iff_of_true rfl ⟨by simp,by simp⟩
      | coe t => exact iff_of_false Bool.false_ne_true fun h => by simp [← WithTop.coe_add] at h
  | coe a =>
    induction b using WithTop.recTopCoe with
    | top => exact iff_of_true rfl ⟨by simp,by simp⟩
    | coe b =>
      induction tolerance using WithTop.recTopCoe with
      | top => exact iff_of_true rfl ⟨by simp,by simp⟩
      | coe t =>
        have hsub : decide (a-b ≤ t) = true ↔ a ≤ b+t := by
          rw [decide_eq_true_eq,sub_le_iff_le_add']
        rw [← WithTop.coe_add,WithTop.coe_le_coe]
        exact hsub.trans (by simp)

theorem sub_gt_iff {a b threshold : Ms} :
    (Ms.sub a b).gt threshold = false ↔ a ≤ b+threshold := by
  induction a using WithTop.recTopCoe with
  | top =>
    induction b using WithTop.recTopCoe with
    | top => exact iff_of_true rfl (by simp)
    | coe b =>
      induction threshold using WithTop.recTopCoe with
      | top => exact iff_of_true rfl (by simp)
      | coe t =>
        exact iff_of_false (show ¬ true = false by decide) fun h => by simp [← WithTop.coe_add] at h
  | coe a =>
    induction b using WithTop.recTopCoe with
    | top => exact iff_of_true rfl (by simp)
    | coe b =>
      induction threshold using WithTop.recTopCoe with
      | top => exact iff_of_true rfl (by simp)
      | coe t =>
        have hsub : decide (t < a-b) = false ↔ a ≤ b+t := by
          rw [decide_eq_false_iff_not,not_lt,sub_le_iff_le_add']
        rw [← WithTop.coe_add,WithTop.coe_le_coe]
        exact hsub

/-! ### The dictionary -/

theorem filter_readings (ip : Ip) (hip : ip ∈ candidateIps) :
    ((results.filterMap (measuredItem candidateIps)).filter fun item => item.1 = ip) =
    (results.filterMap fun item => if item.ip = ip then item.bestMs else none).map
      fun ms => (ip,ms) := by
  induction results with
  | nil => rfl
  | cons item results ih =>
    cases hms : item.bestMs with
    | none => simpa [List.filterMap_cons,measuredItem,hms] using ih
    | some ms =>
      by_cases hitem : item.ip = ip
      · simpa [List.filterMap_cons,measuredItem,hms,hitem,hip] using ih
      · by_cases hmem : item.ip ∈ candidateIps
        · simpa [List.filterMap_cons,measuredItem,hms,hitem,hmem] using ih
        · simpa [List.filterMap_cons,measuredItem,hms,hitem,hmem] using ih

theorem keeps_key (old new : Item) : (old.1,new.2).1 = old.1 := rfl

theorem takes_place (old new : Item) (h : old.1 = new.1) : (old.1,new.2) = new := Prod.ext h rfl

variable (candidateIps results) in
theorem measuredResults_distinct : Keyed.Distinct Prod.fst (measuredResults candidateIps results) :=
  Keyed.gather_distinct keeps_key _

variable (results) in
theorem lookup_measuredResults {ip : Ip} (hip : ip ∈ candidateIps) :
    Keyed.lookup Prod.fst ip (measuredResults candidateIps results) =
      (rttOf results ip).map fun ms => (ip,ms) := by
  unfold measuredResults rttOf
  rw [Keyed.lookup_gather_last takes_place,filter_readings ip hip,
    List.getLast?_map]

theorem measuredResults_candidates {item : Item} (h : item ∈ measuredResults candidateIps results) :
    item.1 ∈ candidateIps := by
  have hkey : item.1 ∈ (measuredResults candidateIps results).map Prod.fst := List.mem_map_of_mem h
  rw [measuredResults,Keyed.mem_gather_keys keeps_key] at hkey
  obtain ⟨entry,hentry,heq⟩ := List.mem_map.mp hkey
  obtain ⟨result,_,hresult⟩ := List.mem_filterMap.mp hentry
  rw [← heq]
  unfold measuredItem at hresult
  split at hresult
  · split at hresult
    · rename_i hmem
      cases hresult
      exact hmem
    · contradiction
  · contradiction

/-- The items of the dictionary are the measured candidates with their times. -/
theorem mem_measuredResults {item : Item} : item ∈ measuredResults candidateIps results ↔
    item.1 ∈ candidateIps ∧ rttOf results item.1 = some item.2 := by
  constructor
  · intro h
    have hip := measuredResults_candidates h
    obtain ⟨before,after,hsplit⟩ := List.append_of_mem h
    have hlookup := lookup_measuredResults results hip
    have hdistinct := measuredResults_distinct candidateIps results
    rw [hsplit] at hlookup hdistinct
    rw [Keyed.lookup_middle hdistinct] at hlookup
    obtain ⟨ms,hms,hitem⟩ := Option.map_eq_some_iff.mp hlookup.symm
    exact ⟨hip,by rw [hms,← hitem]⟩
  · intro h
    have hlookup := lookup_measuredResults results h.1
    rw [h.2] at hlookup
    exact (Keyed.lookup_some hlookup).1

/-! ### The loops -/

section
variable (t : Ip → Ms)

def timed (ip : Ip) : Item := (ip,t ip)

theorem filterItems_some (tolerance best : Ms) (ips : List Ip) :
    filterItems tolerance (some best) (ips.map (timed t)) =
      (ips.takeWhile fun ip => (Ms.sub (t ip) best).le tolerance).map (timed t) := by
  induction ips with
  | nil => rfl
  | cons ip ips ih =>
    rw [List.map_cons,filterItems,List.takeWhile_cons,Option.getD_some,ih]
    change (if (Ms.sub (t ip) best).le tolerance = true then _ else _) = _
    split
    · rfl
    · rfl

/-- With the branch for an empty outcome, the loop keeps what is within the tolerance of the
first, also where that is infinite and all differences are NaN. -/
theorem filterItems_timed {tolerance : Ms} (htolerance : 0 ≤ tolerance) (first : Ip)
    (rest : List Ip) :
    (if filterItems tolerance none ((first :: rest).map (timed t)) = [] then
        (first :: rest).map (timed t)
      else filterItems tolerance none ((first :: rest).map (timed t))) =
      ((first :: rest).takeWhile fun ip => t ip ≤ t first+tolerance).map (timed t) := by
  have hloop : filterItems tolerance none ((first :: rest).map (timed t)) =
      if (Ms.sub (t first) (t first)).le tolerance = true then
        timed t first ::
          (rest.takeWhile fun ip => (Ms.sub (t ip) (t first)).le tolerance).map (timed t)
      else [] := by
    rw [← filterItems_some]
    rfl
  by_cases htop : t first = ⊤
  · have hnot : ¬ (Ms.sub (t first) (t first)).le tolerance = true := by
      rw [sub_le_iff]
      exact fun h => h.2 ⟨htop,htop⟩
    have hall : ∀ ip ∈ first :: rest, decide (t ip ≤ t first+tolerance) = true := by
      intro ip _
      simp [htop]
    rw [if_neg hnot] at hloop
    rw [if_pos hloop,List.takeWhile_eq_self_iff.mpr hall]
  · have hle (ip : Ip) : (Ms.sub (t ip) (t first)).le tolerance =
        decide (t ip ≤ t first+tolerance) := by
      rw [Bool.eq_iff_iff,sub_le_iff,decide_eq_true_eq]
      simp [htop]
    have hfirst : decide (t first ≤ t first+tolerance) = true := by
      simpa using le_add_of_nonneg_right htolerance
    simp only [hle,hfirst,if_true] at hloop
    rw [if_neg (by rw [hloop]; exact List.cons_ne_nil _ _),hloop,
      List.takeWhile_cons,if_pos hfirst,List.map_cons]

theorem truncateItems_some (threshold : Ms) (prev : Ip) (ips : List Ip) :
    IsLongestPrefix (fun q => (prev :: q).IsChain fun a b => t b ≤ t a+threshold)
      ((truncateItems threshold (some (timed t prev)) (ips.map (timed t))).map Prod.fst) ips := by
  induction ips generalizing prev with
  | nil =>
    refine ⟨List.prefix_rfl,List.isChain_singleton _,fun q hq _ => ?_⟩
    rw [List.prefix_nil.mp hq]
    exact Nat.zero_le _
  | cons ip ips ih =>
    rw [List.map_cons,truncateItems]
    change IsLongestPrefix _ (List.map Prod.fst (if (Ms.sub (t ip) (t prev)).gt threshold = true
      then _ else _)) _
    by_cases hgap : t ip ≤ t prev+threshold
    · have hgt := sub_gt_iff.mpr hgap
      obtain ⟨hinitial,hchain,hlongest⟩ := ih ip
      rw [hgt,if_neg Bool.false_ne_true,List.map_cons]
      refine ⟨List.cons_prefix_cons.mpr ⟨rfl,hinitial⟩,?_,fun q hq hq' => ?_⟩
      · exact List.isChain_cons_cons.mpr ⟨hgap,hchain⟩
      · obtain rfl | ⟨q,rfl,htail⟩ := List.prefix_cons_iff.mp hq
        · exact Nat.zero_le _
        · exact Nat.succ_le_succ (hlongest q htail (List.isChain_cons_cons.mp hq').2)
    · have hgt : (Ms.sub (t ip) (t prev)).gt threshold = true :=
        Bool.not_eq_false _ ▸ mt sub_gt_iff.mp hgap
      rw [if_pos hgt]
      refine ⟨List.nil_prefix,List.isChain_singleton _,fun q hq hq' => ?_⟩
      obtain rfl | ⟨q,rfl,htail⟩ := List.prefix_cons_iff.mp hq
      · exact Nat.zero_le _
      · exact absurd (List.isChain_cons_cons.mp hq').1 hgap

theorem truncateItems_none (threshold : Ms) (ips : List Ip) :
    IsLongestPrefix (fun q => q.IsChain fun a b => t b ≤ t a+threshold)
      ((truncateItems threshold none (ips.map (timed t))).map Prod.fst) ips := by
  cases ips with
  | nil =>
    refine ⟨List.prefix_rfl,List.isChain_nil,fun q hq _ => ?_⟩
    rw [List.prefix_nil.mp hq]
    exact Nat.zero_le _
  | cons ip ips =>
    obtain ⟨hinitial,hchain,hlongest⟩ := truncateItems_some t threshold ip ips
    rw [List.map_cons,truncateItems,List.map_cons]
    refine ⟨List.cons_prefix_cons.mpr ⟨rfl,hinitial⟩,hchain,fun q hq hq' => ?_⟩
    obtain rfl | ⟨q,rfl,htail⟩ := List.prefix_cons_iff.mp hq
    · exact Nat.zero_le _
    · exact Nat.succ_le_succ (hlongest q htail hq')

end

/-! ### The order -/

/-- The measured candidates in the order in which they are looked at. -/
def ordering (candidateIps : List Ip) (results : List IpRttResult) : List Ip :=
  ((measuredResults candidateIps results).mergeSort (byTime candidateIps)).map Prod.fst

theorem byTime_trans (a b c : Item) (hab : byTime candidateIps a b = true)
    (hbc : byTime candidateIps b c = true) : byTime candidateIps a c = true := by
  simp only [byTime,decide_eq_true_eq] at *
  obtain hab | ⟨hab,hab'⟩ := hab
  · obtain hbc | ⟨hbc,_⟩ := hbc
    · exact .inl (hab.trans hbc)
    · exact .inl (hbc ▸ hab)
  · obtain hbc | ⟨hbc,hbc'⟩ := hbc
    · exact .inl (hab ▸ hbc)
    · exact .inr ⟨hab.trans hbc,hab'.trans hbc'⟩

theorem byTime_total (a b : Item) :
    (byTime candidateIps a b || byTime candidateIps b a) = true := by
  simp only [byTime,Bool.or_eq_true,decide_eq_true_eq]
  obtain h | h | h := lt_trichotomy a.2 b.2
  · exact .inl (.inl h)
  · obtain h' | h' := Nat.le_total (candidateIps.idxOf a.1) (candidateIps.idxOf b.1)
    · exact .inl (.inr ⟨h,h'⟩)
    · exact .inr (.inr ⟨h.symm,h'⟩)
  · exact .inr (.inl h)

theorem mem_sorted {item : Item} :
    item ∈ (measuredResults candidateIps results).mergeSort (byTime candidateIps) ↔
      item.1 ∈ candidateIps ∧ rttOf results item.1 = some item.2 := by
  rw [List.mem_mergeSort,mem_measuredResults]

theorem sorted_timed :
    (measuredResults candidateIps results).mergeSort (byTime candidateIps) =
      (ordering candidateIps results).map (timed (time results)) := by
  unfold ordering
  rw [List.map_map]
  refine (List.map_id _).symm.trans (List.map_congr_left fun item hitem => ?_)
  refine Prod.ext rfl ?_
  simp [timed,time,(mem_sorted.mp hitem).2]

theorem mem_ordering {ip : Ip} : ip ∈ ordering candidateIps results ↔
    ip ∈ candidateIps ∧ measured results ip = true := by
  unfold ordering measured
  rw [List.mem_map,Option.isSome_iff_exists]
  constructor
  · intro h
    obtain ⟨item,hitem,rfl⟩ := h
    obtain ⟨hip,hms⟩ := mem_sorted.mp hitem
    exact ⟨hip,_,hms⟩
  · intro h
    obtain ⟨hip,ms,hms⟩ := h
    exact ⟨(ip,ms),mem_sorted.mpr ⟨hip,hms⟩,rfl⟩

theorem ordering_nodup : (ordering candidateIps results).Nodup := by
  have hperm : (ordering candidateIps results).Perm
      ((measuredResults candidateIps results).map Prod.fst) := (List.mergeSort_perm _ _).map _
  exact hperm.nodup_iff.mpr (measuredResults_distinct candidateIps results)

variable (candidateIps results) in
theorem ordering_before :
    (ordering candidateIps results).Pairwise (Before candidateIps results) := by
  have hsorted : ((measuredResults candidateIps results).mergeSort (byTime candidateIps)).Pairwise
      fun a b => byTime candidateIps a b = true :=
    List.pairwise_mergeSort byTime_trans byTime_total _
  rw [sorted_timed,List.pairwise_map] at hsorted
  have hboth := hsorted.and ordering_nodup
  refine hboth.imp_of_mem fun {a b} ha hb h => ?_
  obtain ⟨hle,hne⟩ := h
  have hle : byTime candidateIps (timed (time results) a) (timed (time results) b) = true := hle
  rw [byTime,decide_eq_true_eq] at hle
  obtain hle | ⟨heq,hle⟩ := hle
  · exact .inl hle
  · refine .inr ⟨heq,Nat.lt_of_le_of_ne hle fun hidx => hne ?_⟩
    exact (List.idxOf_inj (mem_ordering.mp ha).1).mp hidx

/-- Candidates stand in their own order. -/
theorem candidates_pairwise (h : candidateIps.Nodup) :
    candidateIps.Pairwise fun a b => candidateIps.idxOf a < candidateIps.idxOf b := by
  rw [List.pairwise_iff_getElem]
  intro i j hi hj hij
  rwa [h.idxOf_getElem i hi,h.idxOf_getElem j hj]

theorem head_prefixed {first x : Ip} {rest q : List Ip} (hq : q <+: first :: rest)
    (hx : x ∈ q.head?) : x = first := by
  obtain rfl | ⟨q,rfl,_⟩ := List.prefix_cons_iff.mp hq
  · contradiction
  · exact (Option.some.inj hx).symm

/-- The choice is the longest close prefix of the order, cut to the limit. -/
theorem selectedIps_eq (config : SpeedTestPluginConfig) (candidateIps : List Ip)
    (results : List IpRttResult) :
    ∃ chosen, IsLongestPrefix (Close config results) chosen (ordering candidateIps results) ∧
      selectedIps config candidateIps results = chosen.take config.responseIpLimit := by
  unfold selectedIps
  rw [sorted_timed]
  cases ordering candidateIps results with
  | nil =>
    refine ⟨[],⟨List.prefix_rfl,⟨by simp,List.isChain_nil⟩,fun q hq _ => ?_⟩,rfl⟩
    rw [List.prefix_nil.mp hq]
  | cons first rest =>
    simp only []
    rw [filterItems_timed (time results) config.tolerance]
    obtain ⟨hinitial,hchain,hlongest⟩ := truncateItems_none (time results)
      config.rttGapThresholdMs ((first :: rest).takeWhile fun ip =>
        time results ip ≤ time results first+config.rttToleranceMs)
    refine ⟨_,⟨hinitial.trans (List.takeWhile_prefix _),⟨fun x hx ip hip => ?_,hchain⟩,
      fun q hq hclose => hlongest q (prefix_takeWhile hq fun ip hip => ?_) hclose.2⟩,rfl⟩
    · rw [head_prefixed (hinitial.trans (List.takeWhile_prefix _)) hx]
      simpa using List.mem_takeWhile_imp (hinitial.subset hip)
    · obtain rfl | ⟨q,rfl,_⟩ := List.prefix_cons_iff.mp hq
      · simp at hip
      · simpa using hclose.1 first rfl ip hip

theorem close_singleton (config : SpeedTestPluginConfig) (results : List IpRttResult) (ip : Ip) :
    Close config results [ip] := by
  refine ⟨fun first hfirst x hx => ?_,List.isChain_singleton _⟩
  rw [List.mem_singleton.mp hx,← Option.some.inj hfirst]
  exact le_add_of_nonneg_right config.tolerance

/-- What the choice is like when some candidate is measured. -/
structure IsChoice (config : SpeedTestPluginConfig) (candidateIps : List Ip)
    (results : List IpRttResult) (selected : List Ip) : Prop where
  nonempty : selected ≠ []
  nodup : selected.Nodup
  measured : ∀ ip ∈ selected, ip ∈ candidateIps ∧ measured results ip = true
  ordered : selected.Pairwise (Before candidateIps results)
  least : ∀ first ∈ selected.head?, ∀ ip ∈ candidateIps, SpeedTest.measured results ip = true →
    time results first ≤ time results ip
  longest : ∃ order chosen,
    order.Perm (candidateIps.filter (SpeedTest.measured results)) ∧
    order.Pairwise (Before candidateIps results) ∧
    IsLongestPrefix (Close config results) chosen order ∧
    selected = chosen.take config.responseIpLimit

theorem ordering_perm (h : candidateIps.Nodup) :
    (ordering candidateIps results).Perm (candidateIps.filter (measured results)) := by
  refine (List.perm_ext_iff_of_nodup ordering_nodup (h.filter _)).mpr fun ip => ?_
  rw [mem_ordering,List.mem_filter]

theorem selectedIps_choice (hnodup : candidateIps.Nodup)
    (hsome : ∃ ip ∈ candidateIps, measured results ip = true) :
    IsChoice config candidateIps results (selectedIps config candidateIps results) := by
  obtain ⟨chosen,hchosen,hselected⟩ := selectedIps_eq config candidateIps results
  obtain ⟨ip,hip⟩ := hsome
  have hmem : ip ∈ ordering candidateIps results := mem_ordering.mpr hip
  obtain ⟨first,rest,hcons⟩ := List.exists_cons_of_ne_nil (List.ne_nil_of_mem hmem)
  have hbefore := ordering_before candidateIps results
  obtain ⟨tail,rfl⟩ : ∃ tail, chosen = first :: tail := by
    have hone := hchosen.longest [first] (by rw [hcons]; exact List.prefix_append [first] rest)
      (close_singleton config results first)
    have hinitial := hchosen.isPrefix
    rw [hcons] at hinitial
    obtain rfl | ⟨tail,rfl,_⟩ := List.prefix_cons_iff.mp hinitial
    · simp at hone
    · exact ⟨tail,rfl⟩
  have hlimit : config.responseIpLimit = config.responseIpLimit-1+1 := by
    have := config.limit
    omega
  have hhead : selectedIps config candidateIps results =
      first :: tail.take (config.responseIpLimit-1) := by
    rw [hselected,hlimit,List.take_succ_cons,Nat.add_sub_cancel]
  have hsub : (selectedIps config candidateIps results).Sublist
      (ordering candidateIps results) := by
    rw [hselected]
    exact (List.take_sublist _ _).trans hchosen.isPrefix.sublist
  refine ⟨by rw [hhead]; exact List.cons_ne_nil _ _,ordering_nodup.sublist hsub,
    fun ip hip => mem_ordering.mp (hsub.subset hip),hbefore.sublist hsub,fun x hx ip hip hm => ?_,
    ordering candidateIps results,first :: tail,ordering_perm hnodup,hbefore,hchosen,hselected⟩
  rw [hhead] at hx
  obtain rfl := Option.some.inj hx
  have hin : ip ∈ first :: rest := hcons ▸ mem_ordering.mpr ⟨hip,hm⟩
  obtain rfl | hin := List.mem_cons.mp hin
  · exact le_rfl
  · rw [hcons] at hbefore
    obtain hlt | heq := (List.pairwise_cons.mp hbefore).1 ip hin
    · exact hlt.le
    · exact heq.1.le

/-- Where all times are infinite, the order is that of the candidates and nothing is left out but
by the limit. -/
theorem selectedIps_infinite (hnodup : candidateIps.Nodup)
    (hinf : ∀ ip ∈ candidateIps, ∀ ms, rttOf results ip = some ms → ms = ⊤) :
    selectedIps config candidateIps results =
      (candidateIps.filter (measured results)).take config.responseIpLimit := by
  obtain ⟨chosen,hchosen,hselected⟩ := selectedIps_eq config candidateIps results
  have htime : ∀ ip ∈ ordering candidateIps results, time results ip = ⊤ := by
    intro ip hip
    obtain ⟨hcandidate,hm⟩ := mem_ordering.mp hip
    obtain ⟨ms,hms⟩ := Option.isSome_iff_exists.mp hm
    rw [time,hms,Option.getD_some,hinf ip hcandidate ms hms]
  have hclose : Close config results (ordering candidateIps results) := by
    refine ⟨fun first hfirst ip _ => ?_,?_⟩
    · rw [htime first (List.mem_of_mem_head? hfirst),top_add]
      exact le_top
    · refine List.Pairwise.isChain (List.pairwise_of_forall_mem_list fun a ha b _ => ?_)
      rw [htime a ha,top_add]
      exact le_top
  have horder : ordering candidateIps results = candidateIps.filter (measured results) := by
    have hplaces : (ordering candidateIps results).Pairwise fun a b =>
        candidateIps.idxOf a < candidateIps.idxOf b := by
      refine (ordering_before candidateIps results).imp_of_mem fun {a b} ha hb h => ?_
      rw [Before,htime a ha,htime b hb] at h
      simpa using h
    refine List.Perm.eq_of_pairwise ?_ hplaces ((candidates_pairwise hnodup).filter _)
      (ordering_perm hnodup)
    intro a b _ _ hab hba
    omega
  rw [hselected,hchosen.eq_self hclose,horder]

/-! ### Candidates -/

theorem Collecting.addIp_nodup {s : Collecting} (h : s.candidates.Nodup) (markInf : Bool)
    (ip : Ip) :
    (s.addIp markInf ip).candidates.Nodup := by
  unfold Collecting.addIp
  split
  · exact h
  · rename_i hip
    refine List.nodup_append.mpr ⟨h,by simp,?_⟩
    intro a ha b hb heq
    rw [List.mem_singleton.mp hb] at heq
    exact hip (heq ▸ ha)

theorem Collecting.addAnswerIps_nodup {s : Collecting} (texts : RecordText)
    (h : s.candidates.Nodup) (item : Option Answer) (markInf : Bool) :
    (s.addAnswerIps texts item markInf).candidates.Nodup := by
  cases item with
  | none => exact h
  | some answer =>
    exact List.foldlRecOn (motive:=fun s => s.candidates.Nodup) (extractUniqueIps texts answer)
      (Collecting.addIp markInf) h fun s hs ip _ => Collecting.addIp_nodup hs markInf ip

theorem collectCandidateIps_nodup (texts : RecordText) (config : SpeedTestPluginConfig)
    (upstreamResults : List UpstreamResult) (answer : Answer) :
    (collectCandidateIps texts config upstreamResults answer).candidates.Nodup := by
  have hfirst := Collecting.addAnswerIps_nodup (s:={}) texts List.nodup_nil (some answer) false
  unfold collectCandidateIps
  split
  · exact hfirst
  · refine List.foldlRecOn (motive:=fun s : Collecting => s.candidates.Nodup) _ _ hfirst ?_
    intro s hs result _
    exact Collecting.addAnswerIps_nodup texts hs _ _

/-! ### The answer -/

/-- What `on_response` makes of candidates and results. -/
structure Chooses (texts : RecordText) (config : SpeedTestPluginConfig) (candidateIps : List Ip)
    (results : List IpRttResult) (now : ℚ) (tags : Finset String) (answer : Answer) : Prop where
  measured : (∃ ip ∈ candidateIps, measured results ip = true) →
    IsChoice config candidateIps results (selectedIps config candidateIps results) ∧
    applyResults texts config now tags candidateIps results answer =
      if selectedIps config candidateIps results = extractUniqueIps texts answer then
        (.ok (),answer)
      else replaceAnswerIps texts config now (selectedIps config candidateIps results) answer
  infinite : (∀ ip ∈ candidateIps, ∀ ms, rttOf results ip = some ms → ms = ⊤) →
    selectedIps config candidateIps results =
      (candidateIps.filter (SpeedTest.measured results)).take config.responseIpLimit
  unmeasured : (∀ ip ∈ candidateIps, rttOf results ip = none) →
    selectFallbackIps config tags answer.rdtype = [] →
    applyResults texts config now tags candidateIps results answer = (.ok (),answer)

theorem measuredResults_nil_iff : measuredResults candidateIps results = [] ↔
    ∀ ip ∈ candidateIps, rttOf results ip = none := by
  rw [List.eq_nil_iff_forall_not_mem]
  constructor
  · intro h ip hip
    cases hms : rttOf results ip with
    | none => rfl
    | some ms => exact absurd (mem_measuredResults.mpr ⟨hip,hms⟩) (h (ip,ms))
  · intro h item hitem
    obtain ⟨hip,hms⟩ := mem_measuredResults.mp hitem
    rw [h item.1 hip] at hms
    contradiction

/-- Candidates come without duplicates (`collectCandidateIps_nodup`); for any such, any results and
any configuration, the choice is as described. -/
theorem applyResults_chooses (texts : RecordText) (config : SpeedTestPluginConfig)
    (candidateIps : List Ip) (results : List IpRttResult) (now : ℚ) (tags : Finset String)
    (answer : Answer) (hnodup : candidateIps.Nodup) :
    Chooses texts config candidateIps results now tags answer := by
  refine ⟨fun hsome => ⟨selectedIps_choice hnodup hsome,?_⟩,selectedIps_infinite hnodup,
    fun hnone hfallback => ?_⟩
  · have hne : measuredResults candidateIps results ≠ [] := by
      rw [Ne,measuredResults_nil_iff]
      intro hnone
      obtain ⟨ip,hip,hm⟩ := hsome
      simp [SpeedTest.measured,hnone ip hip] at hm
    unfold applyResults
    rw [Exec.bind_ok (Exec.run_get answer),if_pos hne]
    by_cases hsame : selectedIps config candidateIps results = extractUniqueIps texts answer
    · simp [hsame]
    · simp [hsame]
  · unfold applyResults
    rw [Exec.bind_ok (Exec.run_get answer),if_neg (not_not.mpr (measuredResults_nil_iff.mpr hnone))]
    simp [hfallback]

theorem applyResults_chooses_two :
    Chooses plainText {} [['1'],['2']] [⟨['1'],some ⊤⟩,⟨['2'],some (5 : ℚ)⟩] 0 ∅
      (hostAnswer [addressOf hostName 1] (some (addressOf hostName 1))) :=
  applyResults_chooses plainText {} [['1'],['2']] [⟨['1'],some ⊤⟩,⟨['2'],some (5 : ℚ)⟩] 0 ∅
    (hostAnswer [addressOf hostName 1] (some (addressOf hostName 1))) (by decide)

end SpeedTest

end SmartDns
