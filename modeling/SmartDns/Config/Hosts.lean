import SmartDns.Config.Fields
import Mathlib.Algebra.Order.BigOperators.Group.List
import Mathlib.Algebra.Order.Group.Nat
set_option autoImplicit false

/-!
`runtime.hosts`: the addresses of domains. A domain loses the white space at its ends first and
its trailing dots then, so that what is left can end in white space; it is not its own normal
form then, and the hosts are not read back.
-/

namespace SmartDns.ConfigFile

open IpText (Address ipAddress ipv4Text ipv6Text)
open PyText (isSpace strip rstripBy Trimmed)

variable (lib : Libraries)

/-! ### Addresses -/

def readAddress (raw : Json) : Except PyException (Option String) :=
  match strippedText lib raw with
  | none => .ok none
  | some addressText =>
    match ipAddress addressText.toList with
    | some address => .ok (some (String.ofList address.compressed))
    | none => .error (.valueError "does not appear to be an IPv4 or IPv6 address")

theorem trimmed_of_chars {text : List Char} (h : ∀ c ∈ text, isSpace c = false) : Trimmed text where
  head c hc := h c (List.mem_of_mem_head? hc)
  last c hc := h c (List.mem_of_mem_getLast? hc)

theorem not_isSpace {c : Char} (h : 0x21 ≤ c.toNat ∧ c.toNat < 0x7f) : isSpace c = false := by
  simp only [isSpace,decide_eq_false_iff_not,List.mem_cons,List.not_mem_nil,or_false]
  omega

theorem digit_not_isSpace {c : Char} (h : c.isDigit = true) : isSpace c = false := by
  have hrange := Char.isDigit_iff_toNat.mp h
  exact not_isSpace ⟨le_trans (by decide) hrange.1,lt_of_le_of_lt hrange.2 (by decide)⟩

theorem ipv4Text_not_isSpace (ip : BitVec 32) : ∀ c ∈ ipv4Text ip, isSpace c = false := by
  intro c hc
  obtain hdigit | rfl := IpText.ipv4Text_chars ip c hc
  · exact digit_not_isSpace hdigit
  · rfl

theorem ipv6Text_not_isSpace (ip : BitVec 128) : ∀ c ∈ ipv6Text ip, isSpace c = false := by
  intro c hc
  obtain hdigit | rfl | rfl := IpText.ipv6Text_chars ip c hc
  · simp only [IpText.isHexDigit,Bool.or_eq_true,Bool.and_eq_true,decide_eq_true_eq] at hdigit
    obtain (hdigit | hsmall) | hcapital := hdigit
    · exact digit_not_isSpace hdigit
    · exact not_isSpace ⟨le_trans (by decide) hsmall.1,lt_of_le_of_lt hsmall.2 (by decide)⟩
    · exact not_isSpace ⟨le_trans (by decide) hcapital.1,lt_of_le_of_lt hcapital.2 (by decide)⟩
  · rfl
  · rfl

/-- What stands behind the percent sign of an address ends the text that it was read from. -/
theorem trimmed_compressed {text : List Char} {address : Address} (htext : Trimmed text)
    (h : ipAddress text = some address) : Trimmed address.compressed := by
  unfold ipAddress at h
  split at h
  · cases h
    exact trimmed_of_chars (ipv4Text_not_isSpace _)
  · obtain ⟨address,hread,rfl⟩ := Option.map_eq_some_iff.mp h
    unfold IpText.ipv6Address at hread
    split at hread
    · cases hread
    · split at hread
      · obtain ⟨ip,_,hip⟩ := Option.bind_eq_some_iff.mp hread
        cases hip
        exact trimmed_of_chars (ipv6Text_not_isSpace ip)
      · rename_i percent scope hdrop
        obtain ⟨scopeId,hscope,hread⟩ := Option.bind_eq_some_iff.mp hread
        obtain ⟨ip,_,hip⟩ := Option.bind_eq_some_iff.mp hread
        cases hip
        unfold IpText.ScopeId.ofText at hscope
        split at hscope
        · rename_i hproper
          cases hscope
          have hlast (front : List Char) (c : Char) :
              (front ++ c :: scope).getLast? = scope.getLast? := by
            obtain ⟨d,rest,hscope⟩ := List.exists_cons_of_ne_nil hproper.1
            rw [hscope,List.getLast?_append_cons,List.getLast?_cons_cons]
          have htextLast := hlast (text.takeWhile fun c => c ≠ '%') percent
          rw [← hdrop,List.takeWhile_append_dropWhile] at htextLast
          refine ⟨fun c hc => ?_,fun c hc => ?_⟩
          · obtain ⟨d,rest,hip⟩ := List.exists_cons_of_ne_nil
              (List.ne_nil_of_mem (IpText.colon_mem_ipv6Text ip))
            have hhead : c ∈ (ipv6Text ip ++ '%' :: scope).head? := hc
            rw [hip] at hhead
            refine ipv6Text_not_isSpace ip c ?_
            rw [hip,← Option.some_inj.mp hhead]
            exact List.mem_cons_self
          · have hscopeLast : c ∈ (ipv6Text ip ++ '%' :: scope).getLast? := hc
            rw [hlast,← htextLast] at hscopeLast
            exact htext.last c hscopeLast
        · cases hscope

theorem compressed_ne_nil (address : Address) : address.compressed ≠ [] := by
  cases address with
  | v4 ip => exact List.ne_nil_of_mem (IpText.dot_mem_ipv4Text ip)
  | v6 address => exact List.ne_nil_of_mem address.colon_mem

theorem readAddress_again {raw : Json} {text : String} (h : readAddress lib raw = .ok (some text)) :
    readAddress lib (.str text) = .ok (some text) := by
  unfold readAddress at h
  split at h
  · cases h
  · rename_i addressText hstripped
    split at h
    · rename_i address haddress
      cases h
      have hstrip := (isStripped_of_strippedText lib hstripped).1
      have htext : Trimmed addressText.toList := by
        rw [← hstrip,Rules.strip,String.toList_ofList]
        exact PyText.trimmed_strip _
      have htrimmed := trimmed_compressed htext haddress
      have hagain : strippedText lib (.str (String.ofList address.compressed)) =
          some (String.ofList address.compressed) := by
        refine strippedText_str lib ⟨?_,fun hempty => ?_⟩
        · rw [Rules.strip,String.toList_ofList,PyText.strip_trimmed htrimmed]
        · exact compressed_ne_nil address (String.ofList_eq_empty_iff.mp hempty)
      simp only [readAddress,hagain,String.toList_ofList,IpText.ipAddress_compressed]
    · cases h

def normalizeAddresses (rawAddresses : List Json) : Except PyException (List String) :=
  Collect.collect (readAddress lib) rawAddresses

theorem normalizeAddresses_again {rawAddresses : List Json} {addresses : List String}
    (h : normalizeAddresses lib rawAddresses = .ok addresses) :
    normalizeAddresses lib (addresses.map .str) = .ok addresses :=
  Collect.collect_again h fun _ _ => readAddress_again lib

/-! ### Domains -/

def stripDots (text : List Char) : List Char := rstripBy isDot (strip text)

/-- `str(raw_domain).strip().rstrip(".").lower()`. -/
def domainOf (rawDomain : String) : String :=
  lowerText lib (String.ofList (stripDots rawDomain.toList))

/-- What is left of a domain before it is lowered does not end in white space. -/
def KeepsDomain (rawDomain : String) : Prop :=
  ∀ c ∈ (stripDots rawDomain.toList).getLast?, isSpace c = false

instance (rawDomain : String) : Decidable (KeepsDomain rawDomain) :=
  decidable_of_iff ((stripDots rawDomain.toList).getLast?.all (fun c => !isSpace c) = true)
    (by simp [KeepsDomain,Option.all_eq_true])

theorem lower_nil : lib.lower [] = [] := lib.lowersAscii [] (by simp)

theorem strip_part (text : List Char) : strip text <:+: text :=
  (List.rdropWhile_prefix isSpace _).isInfix.trans (List.dropWhile_suffix _).isInfix

theorem stripDots_part (text : List Char) : stripDots text <:+: text :=
  (List.rdropWhile_prefix isDot _).isInfix.trans (strip_part text)

/-- A domain that was lowered once is only stripped when it is read again. -/
theorem domainOf_lower (text : List Char) : domainOf lib (String.ofList (lib.lower text)) =
    String.ofList (stripDots (lib.lower text)) := by
  rw [domainOf,lowerText,String.toList_ofList,String.toList_ofList,
    lib.lower_part text _ (stripDots_part _)]

theorem domainOf_length {text : List Char}
    (h : domainOf lib (String.ofList (lib.lower text)) ≠ String.ofList (lib.lower text)) :
    (domainOf lib (String.ofList (lib.lower text))).toList.length < (lib.lower text).length := by
  rw [domainOf_lower] at h ⊢
  rw [String.toList_ofList]
  have hpart := stripDots_part (lib.lower text)
  refine lt_of_le_of_ne hpart.length_le fun heq => h ?_
  rw [hpart.eq_of_length heq]

theorem getLast?_lower {text : List Char} (h : text ≠ []) : ∃ c ∈ text.getLast?,
    ∃ c' ∈ (lib.lower text).getLast?, isSpace c' = isSpace c ∧ isDot c' = isDot c := by
  obtain ⟨c,hc⟩ := List.getLast?_isSome.mpr h |> Option.isSome_iff_exists.mp
  obtain ⟨text',c',hlower,hspace,hdot⟩ := lib.lower_last text.dropLast c
  have htext : text.dropLast ++ [c] = text := List.dropLast_append_getLast? c hc
  rw [htext] at hlower
  exact ⟨c,hc,c',by rw [hlower,List.getLast?_concat]; rfl,hspace,hdot⟩

theorem domainOf_again_iff {rawDomain : String} (h : domainOf lib rawDomain ≠ "") :
    domainOf lib (domainOf lib rawDomain) = domainOf lib rawDomain ↔ KeepsDomain rawDomain := by
  have hne : stripDots rawDomain.toList ≠ [] := by
    intro hnil
    refine h ?_
    rw [domainOf,lowerText,hnil,String.toList_ofList,lower_nil]
  have hdomain : domainOf lib rawDomain =
      String.ofList (lib.lower (stripDots rawDomain.toList)) := by
    rw [domainOf,lowerText,String.toList_ofList]
  obtain ⟨c,hc,c',hc',hspace,hdot⟩ := getLast?_lower lib hne
  have hnodot : isDot c = false := PyText.rstripBy_last isDot _ c hc
  rw [hdomain,domainOf_lower,String.ofList_inj]
  unfold KeepsDomain
  constructor
  · intro hsame d hd
    obtain rfl : c = d := Option.mem_unique hc hd
    rw [← hspace]
    have hstrip : strip (lib.lower (stripDots rawDomain.toList)) =
        lib.lower (stripDots rawDomain.toList) := by
      have hpart := strip_part (lib.lower (stripDots rawDomain.toList))
      refine hpart.eq_of_length (le_antisymm hpart.length_le ?_)
      conv_lhs => rw [← hsame]
      exact (List.rdropWhile_prefix isDot _).length_le
    rw [← hstrip] at hc'
    exact (PyText.trimmed_strip _).last c' hc'
  · intro hkeeps
    have htrimmed : Trimmed (lib.lower (stripDots rawDomain.toList)) := by
      refine ⟨fun d hd => ?_,fun d hd => ?_⟩
      · obtain ⟨first,rest,hfirst⟩ := List.exists_cons_of_ne_nil hne
        obtain ⟨d',rest',hlower,hd'⟩ := lib.lower_head first rest
        rw [hfirst,hlower] at hd
        rw [← Option.some_inj.mp hd,hd']
        have hprefix : stripDots rawDomain.toList <+: strip rawDomain.toList :=
          List.rdropWhile_prefix isDot _
        exact PyText.head_prefixed hprefix (PyText.trimmed_strip _).head first (by rw [hfirst]; rfl)
      · obtain rfl := Option.mem_unique hc' hd
        rw [hspace]
        exact hkeeps c hc
    rw [stripDots,PyText.strip_trimmed htrimmed]
    refine PyText.rstripBy_eq fun d hd => ?_
    obtain rfl := Option.mem_unique hc' hd
    rw [hdot,hnodot]

/-! ### The dictionary -/

abbrev Host := String × List String

def normalizeHost (member : String × Json) : Except PyException Host :=
  let domain := domainOf lib member.1
  if domain = "" then .error (.valueError "hosts domain 不能为空")
  else
    match member.2 with
    | .arr rawAddresses => do
      let addresses ← normalizeAddresses lib rawAddresses
      if addresses = [] then .error (.valueError ("hosts " ++ domain ++ " 至少需要一个 IP"))
      else .ok (domain,addresses)
    | _ => .error (.valueError ("hosts " ++ domain ++ " 必须是 IP 列表"))

/-- `normalized[domain] = addresses` for each host. -/
def gatherHosts (hosts : List Host) : List Host :=
  Keyed.gather Prod.fst (fun old new => (old.1,new.2)) hosts

theorem gatherHosts_distinct (hosts : List Host) :
    ((gatherHosts hosts).map Prod.fst).Nodup := by
  refine Keyed.gather_distinct ?_ hosts
  exact fun _ _ => rfl

theorem mem_of_mem_gatherHosts {hosts : List Host} {host : Host} (h : host ∈ gatherHosts hosts) :
    host ∈ hosts := by
  refine Keyed.mem_gather ?_ h
  exact fun _ _ heq => Prod.ext heq rfl

theorem mem_gatherHosts_domains {hosts : List Host} {domain : String} :
    domain ∈ (gatherHosts hosts).map Prod.fst ↔ domain ∈ hosts.map Prod.fst := by
  unfold gatherHosts
  rw [Keyed.mem_gather_keys]
  exact fun _ _ => rfl

/-- Of two domains with one normal form the addresses of the later one stay. -/
def normalizeHosts : Json → Except PyException (List Host)
  | .null => .ok []
  | .obj keys distinct value => do
    let hosts ← (JsonObject.members ⟨keys,distinct,value⟩).mapM (normalizeHost lib)
    .ok (gatherHosts hosts)
  | _ => .error (.valueError "hosts 必须是 domain -> [ip] 映射")

structure IsHost (host : Host) : Prop where
  named : host.1 ≠ ""
  lowered : ∃ text, host.1 = String.ofList (lib.lower text)
  addressed : host.2 ≠ []
  addresses : normalizeAddresses lib (host.2.map .str) = .ok host.2

theorem normalizeHost_ok {member : String × Json} {host : Host}
    (h : normalizeHost lib member = .ok host) :
    host.1 = domainOf lib member.1 ∧ IsHost lib host := by
  unfold normalizeHost at h
  simp only [] at h
  split at h
  · cases h
  · rename_i hnamed
    split at h
    · obtain ⟨addresses,hread,h⟩ := Exec.except_bind_eq_ok.mp h
      split at h
      · cases h
      · rename_i haddressed
        cases h
        exact ⟨rfl,hnamed,⟨_,rfl⟩,haddressed,normalizeAddresses_again lib hread⟩
    · cases h

variable {lib} in
theorem IsHost.again {host : Host} (h : IsHost lib host) (hdomain : domainOf lib host.1 = host.1) :
    normalizeHost lib (host.1,textsJson host.2) = .ok host := by
  simp only [normalizeHost,textsJson,hdomain,if_neg h.named,h.addresses,bind,Except.bind,
    if_neg h.addressed]

structure Hosts where
  entries : List Host
  distinct : (entries.map Prod.fst).Nodup
  proper : ∀ host ∈ entries, IsHost lib host

def rawDomains : Json → List String
  | .obj keys _ _ => keys
  | _ => []

theorem normalizeHosts_ok {v : Json} {hosts : List Host} (h : normalizeHosts lib v = .ok hosts) :
    (hosts.map Prod.fst).Nodup ∧ (∀ host ∈ hosts, IsHost lib host) ∧
      ∀ domain, domain ∈ hosts.map Prod.fst ↔ domain ∈ (rawDomains v).map (domainOf lib) := by
  unfold normalizeHosts at h
  split at h
  · cases h
    simp [rawDomains]
  · rename_i keys distinct value
    obtain ⟨read,hread,hgather⟩ := Exec.except_bind_eq_ok.mp h
    cases hgather
    have hread := Except.mapM_eq_ok.mp hread
    have hdomains : keys.map (domainOf lib) = read.map Prod.fst := by
      have hkeys : keys = (JsonObject.members ⟨keys,distinct,value⟩).map Prod.fst :=
        (JsonObject.map_fst_members ⟨keys,distinct,value⟩).symm
      rw [hkeys,List.map_map]
      exact hread.map_eq fun _ _ hok => (normalizeHost_ok lib hok).1.symm
    refine ⟨gatherHosts_distinct read,fun host hmem => ?_,fun domain => ?_⟩
    · exact hread.forall_right (fun _ _ hok => (normalizeHost_ok lib hok).2) host
        (mem_of_mem_gatherHosts hmem)
    · rw [mem_gatherHosts_domains,rawDomains,hdomains]
  · cases h

def readHosts (v : Json) : Except PyException (Hosts lib) :=
  match h : normalizeHosts lib v with
  | .ok hosts => .ok ⟨hosts,(normalizeHosts_ok lib h).1,(normalizeHosts_ok lib h).2.1⟩
  | .error e => .error e

theorem readHosts_ok_iff {v : Json} {hosts : Hosts lib} :
    readHosts lib v = .ok hosts ↔ normalizeHosts lib v = .ok hosts.entries := by
  unfold readHosts
  split
  · rename_i entries h
    constructor
    · intro heq
      cases heq
      exact h
    · intro heq
      cases h.symm.trans heq
      rfl
  · rename_i e h
    constructor
    · intro heq
      cases heq
    · intro heq
      cases h.symm.trans heq

variable {lib} in
def Hosts.json (hosts : Hosts lib) : Json :=
  (JsonObject.ofMembers (hosts.entries.map fun host => (host.1,textsJson host.2))
    (by rw [List.map_map]; exact hosts.distinct)).json

variable {lib} in
/-- The loop over the domains of hosts that were written. -/
theorem normalizeHosts_json (hosts : Hosts lib) : normalizeHosts lib hosts.json = (do
    let read ← (hosts.entries.map fun host => (host.1,textsJson host.2)).mapM (normalizeHost lib)
    .ok (gatherHosts read)) := by
  rw [← JsonObject.members_ofMembers (hosts.entries.map fun host => (host.1,textsJson host.2))
    (by rw [List.map_map]; exact hosts.distinct)]
  rfl

/-- What a function shortens wherever it changes something, and maps onto itself, it does not
change: the longest of what it changes would be the image of something longer. -/
theorem fixed_of_onto {α : Type} {f : α → α} {s : α → ℕ} {l : List α}
    (hshort : ∀ a ∈ l, f a ≠ a → s (f a) < s a) (honto : ∀ a ∈ l, ∃ b ∈ l, f b = a) :
    ∀ a ∈ l, f a = a := by
  intro a ha
  induction h : (l.map s).sum-s a using Nat.strong_induction_on generalizing a with
  | _ n ih =>
    by_contra hne
    obtain ⟨b,hb,rfl⟩ := honto a ha
    have hchanged : f b ≠ b := fun heq => hne (congrArg f heq)
    have hlonger := hshort b hb hchanged
    have hbound : s b ≤ (l.map s).sum := List.le_sum_of_mem (List.mem_map_of_mem hb)
    exact hchanged (ih _ (by omega) b hb rfl)

def hosts : Schema PyException (Hosts lib) where
  read := readHosts lib
  write := Hosts.json
  Same a b := ∀ host, host ∈ a.entries ↔ host ∈ b.entries
  Stable hosts := ∀ host ∈ hosts.entries, domainOf lib host.1 = host.1
  stable_iff hosts := by
    simp only [readHosts_ok_iff,normalizeHosts_json]
    constructor
    · intro h
      obtain ⟨again,hread,hsame⟩ := h
      obtain ⟨read,hread,hgather⟩ := Exec.except_bind_eq_ok.mp hread
      rw [Except.mapM_eq_ok,List.forall₂_map_left_iff] at hread
      have hdomains : (hosts.entries.map Prod.fst).map (domainOf lib) = read.map Prod.fst := by
        rw [List.map_map]
        exact hread.map_eq fun _ _ hok => (normalizeHost_ok lib hok).1.symm
      have honto : ∀ domain ∈ hosts.entries.map Prod.fst,
          ∃ other ∈ hosts.entries.map Prod.fst, domainOf lib other = domain := by
        intro domain hdomain
        obtain ⟨host,hhost,rfl⟩ := List.mem_map.mp hdomain
        have hagain : host ∈ gatherHosts read := by
          rw [Except.ok.inj hgather]
          exact (hsame host).mpr hhost
        rw [← List.mem_map,hdomains]
        exact List.mem_map_of_mem (mem_of_mem_gatherHosts hagain)
      have hshort : ∀ domain ∈ hosts.entries.map Prod.fst, domainOf lib domain ≠ domain →
          (domainOf lib domain).toList.length < domain.toList.length := by
        intro domain hdomain hchanged
        obtain ⟨host,hhost,rfl⟩ := List.mem_map.mp hdomain
        obtain ⟨text,htext⟩ := (hosts.proper host hhost).lowered
        rw [htext] at hchanged ⊢
        rw [String.toList_ofList]
        exact domainOf_length lib hchanged
      have hfixed := fixed_of_onto (s:=fun domain => domain.toList.length) hshort honto
      exact fun host hhost => hfixed host.1 (List.mem_map_of_mem hhost)
    · intro h
      refine ⟨hosts,Exec.except_bind_eq_ok.mpr ⟨hosts.entries,?_,?_⟩,fun _ => Iff.rfl⟩
      · rw [Except.mapM_eq_ok,List.forall₂_map_left_iff]
        exact List.forall₂_same.mpr fun host hmem => (hosts.proper host hmem).again (h host hmem)
      · exact congrArg Except.ok (Keyed.gather_of_distinct hosts.distinct)

theorem hosts_stable_iff {v : Json} {read : Hosts lib} (h : readHosts lib v = .ok read) :
    (hosts lib).Stable read ↔ ∀ rawDomain ∈ rawDomains v, KeepsDomain rawDomain := by
  obtain ⟨-,-,hdomains⟩ := normalizeHosts_ok lib ((readHosts_ok_iff lib).mp h)
  have hagain {rawDomain : String} (hraw : rawDomain ∈ rawDomains v) :
      domainOf lib (domainOf lib rawDomain) = domainOf lib rawDomain ↔ KeepsDomain rawDomain := by
    have hdomain := (hdomains (domainOf lib rawDomain)).mpr (List.mem_map_of_mem hraw)
    obtain ⟨host,hhost,heq⟩ := List.mem_map.mp hdomain
    exact domainOf_again_iff lib (heq ▸ (read.proper host hhost).named)
  constructor
  · intro hstable rawDomain hraw
    have hdomain := (hdomains (domainOf lib rawDomain)).mpr (List.mem_map_of_mem hraw)
    obtain ⟨host,hhost,heq⟩ := List.mem_map.mp hdomain
    have hfixed : domainOf lib host.1 = host.1 := hstable host hhost
    rw [heq] at hfixed
    exact (hagain hraw).mp hfixed
  · intro hkeeps host hhost
    obtain ⟨rawDomain,hraw,heq⟩ :=
      List.mem_map.mp ((hdomains host.1).mp (List.mem_map_of_mem hhost))
    rw [← heq]
    exact (hagain hraw).mpr (hkeeps rawDomain hraw)

end SmartDns.ConfigFile
