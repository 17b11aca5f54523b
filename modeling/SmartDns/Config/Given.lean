import SmartDns.Config.Settings
set_option autoImplicit false

/-!
The values of the file that decide whether it is read back: the domains of its hosts and its
timeouts.
-/

namespace SmartDns.ConfigFile

open Json (member valuesAt items)
open Schema (Part)

variable (lib : Libraries)

/-- The number that is read for a value is read back. -/
def Libraries.KeepsNumber (v : Json) : Prop := ∀ x, lib.floatOf v = .ok x → lib.KeepsFloat x

def givenDomains (members : List (String × Json)) : List String :=
  ((valuesAt "runtime" members).flatMap (member "hosts")).flatMap rawDomains

def givenTimeouts (members : List (String × Json)) : List Json :=
  ((valuesAt "runtime" members).flatMap (member "multiprocess")).flatMap
      (member "response_timeout") ++
    ((valuesAt "nameservers" members).flatMap items).flatMap
      (fun nameserver => nameserver.member "timeout" ++ nameserver.member "cert_timeout") ++
    ((valuesAt "upstreams" members).flatMap items).flatMap
      fun upstream => upstream.member "timeout" ++ upstream.member "lifetime"

theorem posFloat_given {v : Json} {x : PosDouble} (h : (posFloat lib).read v = .ok x) :
    lib.KeepsFloat x.val ↔ lib.KeepsNumber v := by
  obtain ⟨y,hy,hcheck⟩ := Exec.except_bind_eq_ok.mp h
  split at hcheck
  · cases hcheck
    constructor
    · intro hkeeps z hz
      cases hy.symm.trans hz
      exact hkeeps
    · exact fun hkeeps => hkeeps y hy
  · cases hcheck

theorem timeout_given {members : List (String × Json)} {name : String} {default x : PosDouble}
    (h : (Part.field name (posFloat lib) (some default)).read members = .ok x)
    (hdefault : lib.KeepsFloat default.val) :
    lib.KeepsFloat x.val ↔ ∀ v ∈ valuesAt name members, lib.KeepsNumber v :=
  Json.field_forall_iff (p:=fun x => lib.KeepsFloat x.val) h hdefault fun _ _ => posFloat_given lib

theorem multiprocess_given {v : Json} {c : MultiprocessConfig}
    (h : (multiprocess lib).read v = .ok c) : lib.KeepsFloat c.responseTimeout.val ↔
      ∀ x ∈ v.member "response_timeout", lib.KeepsNumber x := by
  obtain ⟨o,rfl,hread⟩ := Part.readRecord_ok h
  have htimeout := (Part.read_and (Part.read_and (Part.read_convert hread)).1).2
  exact timeout_given lib htimeout (keepsFloat_finite lib 10)

theorem runtime_given {v : Json} {c : RuntimeConfig lib} (h : (runtime lib).read v = .ok c) :
    (runtime lib).Stable c ↔
      (∀ x ∈ v.member "hosts", ∀ domain ∈ rawDomains x, KeepsDomain domain) ∧
      ∀ x ∈ v.member "multiprocess", ∀ y ∈ x.member "response_timeout", lib.KeepsNumber y := by
  obtain ⟨o,rfl,hread⟩ := Part.readRecord_ok h
  obtain ⟨hrest,hmultiprocess⟩ := Part.read_and (Part.read_convert hread)
  have hhosts := (Part.read_and (Part.read_and (Part.read_and hrest).1).1).2
  rw [runtime_stable_iff]
  refine and_congr ?_ ?_
  · exact Json.field_forall_iff hhosts (by simp [hosts,noHosts]) fun _ _ => hosts_stable_iff lib
  · refine Json.field_forall_iff (p:=fun m => lib.KeepsFloat m.responseTimeout.val) hmultiprocess
      (keepsFloat_finite lib 10) fun _ _ => multiprocess_given lib

theorem nameserver_given {v : Json} {c : NameserverConfig} (h : (nameserver lib).read v = .ok c) :
    (∀ x ∈ nameserverTimeouts c, lib.KeepsFloat x) ↔
      ∀ x ∈ v.member "timeout" ++ v.member "cert_timeout", lib.KeepsNumber x := by
  have hrecord := Schema.tagged_read h
  obtain ⟨protocol,c⟩ := c
  cases protocol with
  | aiodns =>
    rw [Part.member_extra hrecord "cert_timeout" (of_decide_eq_true rfl)]
    obtain ⟨o,rfl,hread⟩ := Part.readRecord_ok hrecord
    have hread : (aiodnsPart lib).read o.members = .ok c := hread
    have htimeout := (Part.read_and (Part.read_convert hread)).2
    have hgiven := timeout_given lib htimeout (keepsFloat_finite lib 1)
    simpa [nameserverTimeouts,Json.member_json] using hgiven
  | dnscrypt =>
    rw [Part.member_extra hrecord "timeout" (of_decide_eq_true rfl)]
    obtain ⟨o,rfl,hread⟩ := Part.readRecord_ok hrecord
    have hread : (dnscryptPart lib).read o.members = .ok c := hread
    have htimeout := (Part.read_and (Part.read_convert hread)).2
    have hgiven := timeout_given lib htimeout (keepsFloat_finite lib 5)
    simpa [nameserverTimeouts,Json.member_json] using hgiven
  | _ =>
    rw [Part.member_extra hrecord "timeout" (of_decide_eq_true rfl),
      Part.member_extra hrecord "cert_timeout" (of_decide_eq_true rfl)]
    simp [nameserverTimeouts]

theorem lifetime_given {v : Json} {x : Lifetime} (h : (lifetime lib).read v = .ok x) :
    lib.KeepsFloat x.value.val ↔ lib.KeepsNumber v := by
  obtain ⟨y,hy,rfl⟩ := Except.map_eq_ok.mp h
  exact posFloat_given lib hy

theorem upstream_given {v : Json} {c : UpstreamConfig} (h : (upstream lib).read v = .ok c) :
    (lib.KeepsFloat c.timeout.val ∧ lib.KeepsFloat c.lifetime.value.val) ↔
      ∀ x ∈ v.member "timeout" ++ v.member "lifetime", lib.KeepsNumber x := by
  obtain ⟨o,rfl,hread⟩ := Part.readRecord_ok h
  obtain ⟨hrest,hlifetime⟩ :=
    Part.read_and (Part.read_and (Part.read_and (Part.read_convert hread)).1).1
  have htimeout := (Part.read_and hrest).2
  rw [List.forall_mem_append]
  refine and_congr (timeout_given lib htimeout (keepsFloat_finite lib (1/2))) ?_
  exact Json.field_forall_iff (p:=fun x => lib.KeepsFloat x.value.val) hlifetime
    (keepsFloat_finite lib 1) fun _ _ => lifetime_given lib

/-- What holds of each item of a list that is none by default. -/
theorem items_given {α : Type} {s : Schema PyException α} {members : List (String × Json)}
    {name : String} {l : List α} {p : α → Prop} {q : Json → Prop}
    (h : (Part.field name s.list (some [])).read members = .ok l)
    (hread : ∀ v a, s.read v = .ok a → (p a ↔ q v)) :
    (∀ a ∈ l, p a) ↔ ∀ v ∈ (valuesAt name members).flatMap items, q v := by
  rw [List.forall_mem_flatMap]
  refine Json.field_forall_iff (p:=fun l => ∀ a ∈ l, p a) h (by simp) fun v l hl => ?_
  obtain ⟨values,hvalues,hl⟩ := Exec.except_bind_eq_ok.mp hl
  rw [Json.readItems_ok hvalues]
  exact Schema.list_forall_iff hl hread

theorem settings_given {members : List (String × Json)} {c : AppConfig lib}
    (h : (settings lib).read members = .ok c) : (settings lib).Stable c ↔
      (∀ domain ∈ givenDomains members, KeepsDomain domain) ∧
      ∀ x ∈ givenTimeouts members, lib.KeepsNumber x := by
  have hread : (settingsPart lib).read members = .ok c := h
  obtain ⟨hrest,-⟩ := Part.read_and (Part.read_convert hread)
  obtain ⟨hrest,hupstreams⟩ :=
    Part.read_and (Part.read_and (Part.read_and (Part.read_and hrest).1).1).1
  obtain ⟨hrest,hnameservers⟩ := Part.read_and hrest
  have hruntime := (Part.read_and (Part.read_and hrest).1).1
  have hruntimeGiven : (runtime lib).Stable c.runtime ↔
      (∀ v ∈ valuesAt "runtime" members, (∀ x ∈ v.member "hosts", ∀ domain ∈ rawDomains x,
        KeepsDomain domain) ∧ ∀ x ∈ v.member "multiprocess", ∀ y ∈ x.member "response_timeout",
        lib.KeepsNumber y) := by
    refine Json.field_forall_iff hruntime ?_ fun _ _ => runtime_given lib
    exact (runtime_stable_iff lib {}).mpr ⟨by simp [hosts,noHosts],keepsFloat_finite lib 10⟩
  have hnameserversGiven := items_given hnameservers fun _ _ => nameserver_given lib
  have hupstreamsGiven := items_given hupstreams fun _ _ => upstream_given lib
  rw [settings_stable_iff,← runtime_stable_iff,hruntimeGiven]
  refine (and_congr_right fun _ => and_congr hnameserversGiven hupstreamsGiven).trans ?_
  simp only [givenDomains,givenTimeouts,List.forall_mem_append,List.forall_mem_flatMap,forall₂_and,
    and_assoc]

end SmartDns.ConfigFile
