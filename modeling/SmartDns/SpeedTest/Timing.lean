import SmartDns.Lib.Transition
import SmartDns.SpeedTest.Selection
set_option autoImplicit false

/-!
The hooks of the upstreams' results run side by side and share one `SpeedTestContext`. Each has two
turns: it reserves its addresses, and later it adds its results. An address of a result that is not
to be measured and of one that is can so be measured or not, and marked `inf` before or after.
-/

namespace SmartDns

namespace SpeedTest

/-- What `on_upstream_response` does with a result: the addresses it looks at, and whether they
are not to be measured. -/
structure Hook where
  ips : List Ip
  untested : Bool
  deriving DecidableEq

/-- The addresses of a result. -/
def resultIps (texts : RecordText) (result : UpstreamResult) : List Ip :=
  match result.answer with
  | none => []
  | some answer => extractUniqueIps texts answer

/-- A hook that returns early looks at no address. -/
def hookOf (texts : RecordText) (config : SpeedTestPluginConfig) (question : Question)
    (tags : Finset String) (result : UpstreamResult) : Hook where
  ips := if question.rdtype ∉ addressTypes then []
    else if hasAnyTag tags config.skipTags then []
    else resultIps texts result
  untested := hasAnyTag result.tags config.noSpeedtestTags

inductive Phase where
  | waiting
  | reserved (results : List IpRttResult)
  | done
  deriving DecidableEq

def Phase.pending : Phase → List IpRttResult
  | .reserved results => results
  | _ => []

@[simp] theorem Phase.pending_waiting : Phase.waiting.pending = [] := rfl
@[simp] theorem Phase.pending_reserved (results : List IpRttResult) :
    (Phase.reserved results).pending = results := rfl
@[simp] theorem Phase.pending_done : Phase.done.pending = [] := rfl

structure Hooks where
  context : SpeedTestContext := {}
  threads : List (Hook × Phase)

section
variable (measure : Ip → Except PyException (Option Ms))

/-- The turn up to the results: `reserve_ips`, and the measurements of what it has reserved. -/
def Hook.start (hook : Hook) (c : SpeedTestContext) : SpeedTestContext × Phase :=
  if hook.ips = [] then (c,.done)
  else if hook.untested then (c.reserveIps hook.ips,.reserved (makeInfResults hook.ips))
  else if c.newIps hook.ips = [] then (c.reserveIps hook.ips,.done)
  else (c.reserveIps hook.ips,.reserved (successfulResults measure (c.newIps hook.ips)))

/-- The next turn of the hook with this number. -/
def Hooks.step (s : Hooks) (i : ℕ) : Option Hooks :=
  match s.threads[i]? with
  | some (hook,.waiting) =>
    let (context,phase) := hook.start measure s.context
    some { context, threads := s.threads.set i (hook,phase) }
  | some (hook,.reserved results) =>
    some { context := s.context.addResults results, threads := s.threads.set i (hook,.done) }
  | _ => none

def Hooks.init (hooks : List Hook) : Hooks := { threads := hooks.map fun hook => (hook,.waiting) }

/-- The task group waits for every hook. -/
def Hooks.finished (s : Hooks) : Bool := s.threads.all fun thread => thread.2 = .done

/-- The context that a schedule of the hooks ends with. -/
def EndsWith (hooks : List Hook) (schedule : List ℕ) (c : SpeedTestContext) : Prop :=
  ∃ s, Transition.run (Hooks.step measure) (Hooks.init hooks) schedule = some s ∧
    s.finished = true ∧ s.context = c

end

/-! ### One turn -/

variable {measure : Ip → Except PyException (Option Ms)} {hooks : List Hook}

theorem Hooks.step_cases {s s' : Hooks} {i : ℕ} (h : s.step measure i = some s') :
    ∃ before hook phase after phase', s.threads = before ++ (hook,phase) :: after ∧
      s'.threads = before ++ (hook,phase') :: after ∧
      (phase = .waiting ∧ hook.start measure s.context = (s'.context,phase') ∨
        ∃ results, phase = .reserved results ∧ phase' = .done ∧
          s'.context = s.context.addResults results) := by
  unfold Hooks.step at h
  split at h
  · rename_i hook hthread
    obtain ⟨before,after,hsplit,hset⟩ := Transition.set_middle hthread
    rcases hstart : hook.start measure s.context with ⟨context,phase⟩
    rw [hstart] at h
    cases h
    exact ⟨before,hook,.waiting,after,phase,hsplit,hset _,.inl ⟨rfl,hstart⟩⟩
  · rename_i hook results hthread
    obtain ⟨before,after,hsplit,hset⟩ := Transition.set_middle hthread
    cases h
    exact ⟨before,hook,.reserved results,after,.done,hsplit,hset _,.inr ⟨results,rfl,rfl,rfl⟩⟩
  · contradiction

theorem mem_newIps {c : SpeedTestContext} {ips : List Ip} {ip : Ip} :
    ip ∈ c.newIps ips ↔ ip ∈ ips ∧ ip ∉ c.seenIps := by
  simp [SpeedTestContext.newIps,Keyed.mem_foldl_insertNew]

theorem mem_reserveIps {c : SpeedTestContext} {ips : List Ip} {ip : Ip} :
    ip ∈ (c.reserveIps ips).seenIps ↔ ip ∈ c.seenIps ∨ ip ∈ ips := by
  rw [SpeedTestContext.reserveIps,Finset.mem_union,List.mem_toFinset,mem_newIps]
  tauto

theorem mem_successfulResults {ips : List Ip} {item : IpRttResult} :
    item ∈ successfulResults measure ips ↔ item.ip ∈ ips ∧ measure item.ip = .ok item.bestMs := by
  unfold successfulResults
  rw [List.mem_filterMap]
  constructor
  · intro h
    obtain ⟨ip,hip,hitem⟩ := h
    split at hitem
    · rename_i hmeasure
      cases hitem
      exact ⟨hip,hmeasure⟩
    · contradiction
  · intro h
    refine ⟨item.ip,h.1,?_⟩
    rw [h.2]

/-- What a hook can say of an address: `inf`, or what its measurement gives. -/
def Hook.Reports (measure : Ip → Except PyException (Option Ms)) (hook : Hook)
    (item : IpRttResult) : Prop :=
  item.ip ∈ hook.ips ∧
    if hook.untested then item.bestMs = some ⊤ else measure item.ip = .ok item.bestMs

/-- The first turn of a hook. -/
structure Hook.Started (measure : Ip → Except PyException (Option Ms)) (hook : Hook)
    (c c' : SpeedTestContext) (phase : Phase) : Prop where
  results : c'.ipRttResults = c.ipRttResults
  seen : ∀ ip, ip ∈ c'.seenIps ↔ ip ∈ c.seenIps ∨ ip ∈ hook.ips
  left : phase ≠ .waiting
  reports : ∀ item ∈ phase.pending, hook.Reports measure item
  all : ∀ item, hook.Reports measure item → hook.untested = true ∨ item.ip ∉ c.seenIps →
    item ∈ phase.pending

theorem Hook.start_started {hook : Hook} {c c' : SpeedTestContext} {phase : Phase}
    (h : hook.start measure c = (c',phase)) : hook.Started measure c c' phase := by
  unfold Hook.start at h
  split at h
  · rename_i hempty
    cases h
    exact ⟨rfl,by simp [hempty],by simp,by simp,by simp [Hook.Reports,hempty]⟩
  · split at h
    · rename_i huntested
      cases h
      refine ⟨rfl,fun ip => mem_reserveIps,by simp,fun item hitem => ?_,fun item hreports _ => ?_⟩
      · obtain ⟨ip,hip,rfl⟩ := List.mem_map.mp hitem
        exact ⟨hip,by rw [if_pos huntested]⟩
      · obtain ⟨hip,hms⟩ := hreports
        rw [if_pos huntested] at hms
        refine List.mem_map.mpr ⟨item.ip,hip,?_⟩
        rw [← hms]
    · rename_i htested
      split at h
      · rename_i hnone
        cases h
        refine ⟨rfl,fun ip => mem_reserveIps,by simp,by simp,
          fun item hreports hnew => ?_⟩
        have hmem := mem_newIps.mpr ⟨hreports.1,hnew.resolve_left htested⟩
        rw [hnone] at hmem
        contradiction
      · cases h
        refine ⟨rfl,fun ip => mem_reserveIps,by simp,fun item hitem => ?_,
          fun item hreports hnew => ?_⟩
        · obtain ⟨hip,hms⟩ := mem_successfulResults.mp hitem
          exact ⟨(mem_newIps.mp hip).1,by rwa [if_neg htested]⟩
        · obtain ⟨hip,hms⟩ := hreports
          rw [if_neg htested] at hms
          exact mem_successfulResults.mpr ⟨mem_newIps.mpr ⟨hip,hnew.resolve_left htested⟩,hms⟩

/-! ### Any schedule -/

/-- A result that is in the context or on its way there. -/
def Hooks.Produced (s : Hooks) (item : IpRttResult) : Prop :=
  item ∈ s.context.ipRttResults ∨ ∃ thread ∈ s.threads, item ∈ thread.2.pending

/-- What any schedule keeps: an untested address is marked, and an address that is reserved has the
result of its measurement unless an untested result has it too. -/
structure Books (measure : Ip → Except PyException (Option Ms)) (hooks : List Hook) (s : Hooks) :
    Prop where
  threads : s.threads.map Prod.fst = hooks
  reports : ∀ item, s.Produced item → ∃ hook ∈ hooks, hook.Reports measure item
  reserved : ∀ thread ∈ s.threads, thread.2 ≠ .waiting →
    ∀ ip ∈ thread.1.ips, ip ∈ s.context.seenIps
  marked : ∀ thread ∈ s.threads, thread.2 ≠ .waiting → thread.1.untested = true →
    ∀ ip ∈ thread.1.ips, s.Produced ⟨ip,some ⊤⟩
  seen : ∀ ip ∈ s.context.seenIps, ∃ hook ∈ hooks, ip ∈ hook.ips
  measured : ∀ ip ∈ s.context.seenIps, (∃ hook ∈ hooks, hook.untested = true ∧ ip ∈ hook.ips) ∨
    ∀ bestMs, measure ip = .ok bestMs → s.Produced ⟨ip,bestMs⟩

theorem Books.init : Books measure hooks (Hooks.init hooks) := by
  refine ⟨by simp [Hooks.init,Function.comp_def],fun item h => ?_,fun thread hthread hnot => ?_,
    fun thread hthread hnot => ?_,by simp [Hooks.init],by simp [Hooks.init]⟩
  · obtain h | ⟨thread,hthread,hitem⟩ := h
    · simp [Hooks.init] at h
    · obtain ⟨hook,_,rfl⟩ := List.mem_map.mp hthread
      simp at hitem
  · obtain ⟨hook,_,rfl⟩ := List.mem_map.mp hthread
    exact absurd rfl hnot
  · obtain ⟨hook,_,rfl⟩ := List.mem_map.mp hthread
    exact absurd rfl hnot

theorem Books.step {s s' : Hooks} {i : ℕ} (h : Books measure hooks s)
    (hstep : s.step measure i = some s') : Books measure hooks s' := by
  obtain ⟨before,hook,phase,after,phase',hthreads,hthreads',hturn⟩ := Hooks.step_cases hstep
  have hhook : hook ∈ hooks := by
    rw [← h.threads,hthreads]
    simp
  have hhooks : s'.threads.map Prod.fst = hooks := by
    rw [← h.threads,hthreads,hthreads']
    simp
  have hothers : ∀ thread ∈ s'.threads, thread = (hook,phase') ∨ thread ∈ s.threads := by
    intro thread hthread
    rw [hthreads'] at hthread
    rw [hthreads]
    simp only [List.mem_append,List.mem_cons] at hthread ⊢
    tauto
  obtain ⟨rfl,hstart⟩ | ⟨results,rfl,rfl,hcontext⟩ := hturn
  · have hstarted := Hook.start_started hstart
    have hproduced (item : IpRttResult) :
        s'.Produced item ↔ s.Produced item ∨ item ∈ phase'.pending := by
      unfold Hooks.Produced
      rw [hstarted.results,hthreads,hthreads']
      simp only [List.mem_append,List.mem_cons,or_and_right,exists_or,exists_eq_left,
        Phase.pending_waiting,List.not_mem_nil,false_or]
      simp only [or_comm,or_left_comm]
    refine ⟨hhooks,fun item hitem => ?_,fun thread hthread hnot ip hip => ?_,
      fun thread hthread hnot huntested ip hip => ?_,fun ip hip => ?_,fun ip hip => ?_⟩
    · obtain hitem | hitem := (hproduced item).mp hitem
      · exact h.reports item hitem
      · exact ⟨hook,hhook,hstarted.reports item hitem⟩
    · rw [hstarted.seen]
      obtain rfl | hthread := hothers thread hthread
      · exact .inr hip
      · exact .inl (h.reserved thread hthread hnot ip hip)
    · rw [hproduced]
      obtain rfl | hthread := hothers thread hthread
      · exact .inr (hstarted.all _ ⟨hip,by rw [if_pos huntested]⟩ (.inl huntested))
      · exact .inl (h.marked thread hthread hnot huntested ip hip)
    · obtain hip | hip := (hstarted.seen ip).mp hip
      · exact h.seen ip hip
      · exact ⟨hook,hhook,hip⟩
    · simp only [hproduced]
      by_cases hold : ip ∈ s.context.seenIps
      · exact (h.measured ip hold).imp_right fun hall bestMs hms => .inl (hall bestMs hms)
      · have hips := ((hstarted.seen ip).mp hip).resolve_left hold
        by_cases huntested : hook.untested = true
        · exact .inl ⟨hook,hhook,huntested,hips⟩
        · refine .inr fun bestMs hms => .inr (hstarted.all _ ⟨hips,?_⟩ (.inr hold))
          rwa [if_neg huntested]
  · have hproduced (item : IpRttResult) : s'.Produced item ↔ s.Produced item := by
      unfold Hooks.Produced
      rw [hcontext,hthreads,hthreads']
      simp only [SpeedTestContext.addResults,List.mem_append,List.mem_cons,or_and_right,exists_or,
        exists_eq_left,Phase.pending_reserved,Phase.pending_done,List.not_mem_nil,false_or]
      simp only [or_assoc,or_comm,or_left_comm]
    have hseen : s'.context.seenIps = s.context.seenIps := by rw [hcontext]; rfl
    have hreserved : (hook,Phase.reserved results) ∈ s.threads := by rw [hthreads]; simp
    refine ⟨hhooks,fun item hitem => h.reports item ((hproduced item).mp hitem),
      fun thread hthread hnot ip hip => ?_,fun thread hthread hnot huntested ip hip => ?_,
      fun ip hip => h.seen ip (hseen ▸ hip),fun ip hip => ?_⟩
    · rw [hseen]
      obtain rfl | hthread := hothers thread hthread
      · exact h.reserved _ hreserved (by simp) ip hip
      · exact h.reserved thread hthread hnot ip hip
    · rw [hproduced]
      obtain rfl | hthread := hothers thread hthread
      · exact h.marked _ hreserved (by simp) huntested ip hip
      · exact h.marked thread hthread hnot huntested ip hip
    · simp only [hproduced]
      exact h.measured ip (hseen ▸ hip)

/-- What is known of the context once all hooks are through. -/
structure Settled (measure : Ip → Except PyException (Option Ms)) (hooks : List Hook)
    (c : SpeedTestContext) : Prop where
  reports : ∀ item ∈ c.ipRttResults, ∃ hook ∈ hooks, hook.Reports measure item
  marked : ∀ hook ∈ hooks, hook.untested = true → ∀ ip ∈ hook.ips, ⟨ip,some ⊤⟩ ∈ c.ipRttResults
  seen : ∀ ip, ip ∈ c.seenIps ↔ ∃ hook ∈ hooks, ip ∈ hook.ips
  measured : ∀ ip, (∃ hook ∈ hooks, ip ∈ hook.ips) →
    (∃ hook ∈ hooks, hook.untested = true ∧ ip ∈ hook.ips) ∨
      ∀ bestMs, measure ip = .ok bestMs → ⟨ip,bestMs⟩ ∈ c.ipRttResults

theorem EndsWith.settled {schedule : List ℕ} {c : SpeedTestContext}
    (h : EndsWith measure hooks schedule c) : Settled measure hooks c := by
  obtain ⟨s,hrun,hfinished,rfl⟩ := h
  have hbooks : Books measure hooks s :=
    (Transition.always_of_step Books.init fun _ _ _ hb hstep => hb.step hstep).final hrun
  have hdone : ∀ thread ∈ s.threads, thread.2 = .done := by
    intro thread hthread
    simpa using List.all_eq_true.mp hfinished thread hthread
  have hproduced (item : IpRttResult) : s.Produced item → item ∈ s.context.ipRttResults := by
    intro hitem
    obtain hitem | ⟨thread,hthread,hitem⟩ := hitem
    · exact hitem
    · rw [hdone thread hthread] at hitem
      simp at hitem
  have hthread : ∀ hook ∈ hooks, ∃ thread ∈ s.threads, thread.1 = hook ∧ thread.2 ≠ .waiting := by
    intro hook hhook
    rw [← hbooks.threads] at hhook
    obtain ⟨thread,hthread,rfl⟩ := List.mem_map.mp hhook
    exact ⟨thread,hthread,rfl,by rw [hdone thread hthread]; simp⟩
  have hseen (ip : Ip) : ip ∈ s.context.seenIps ↔ ∃ hook ∈ hooks, ip ∈ hook.ips := by
    constructor
    · exact hbooks.seen ip
    · intro h
      obtain ⟨_,hhook,hip⟩ := h
      obtain ⟨thread,hmem,rfl,hnot⟩ := hthread _ hhook
      exact hbooks.reserved thread hmem hnot ip hip
  refine ⟨fun item hitem => hbooks.reports item (.inl hitem),fun hook hhook huntested ip hip => ?_,
    hseen,fun ip hip => ?_⟩
  · obtain ⟨thread,hmem,rfl,hnot⟩ := hthread hook hhook
    exact hproduced _ (hbooks.marked thread hmem hnot huntested ip hip)
  · exact (hbooks.measured ip ((hseen ip).mpr hip)).imp_right
      fun hall bestMs hms => hproduced _ (hall bestMs hms)

/-! ### Readings -/

section
variable {results : List IpRttResult} {ip : Ip}

theorem rttOf_append (earlier later : List IpRttResult) (ip : Ip) :
    rttOf (earlier ++ later) ip = (rttOf later ip).or (rttOf earlier ip) := by
  unfold rttOf
  rw [List.filterMap_append,List.getLast?_append]

theorem mem_readings {ms : Ms} :
    ms ∈ (results.filterMap fun item => if item.ip = ip then item.bestMs else none) ↔
      ⟨ip,some ms⟩ ∈ results := by
  rw [List.mem_filterMap]
  constructor
  · intro h
    obtain ⟨item,hitem,hms⟩ := h
    split at hms
    · rename_i hip
      rw [← hip,← hms]
      exact hitem
    · contradiction
  · intro h
    exact ⟨_,h,by simp⟩

theorem rttOf_eq_none (h : ∀ ms, ⟨ip,some ms⟩ ∉ results) : rttOf results ip = none := by
  unfold rttOf
  rw [List.getLast?_eq_none_iff,List.eq_nil_iff_forall_not_mem]
  exact fun ms hms => h ms (mem_readings.mp hms)

theorem rttOf_mem {ms : Ms} (h : rttOf results ip = some ms) : ⟨ip,some ms⟩ ∈ results :=
  mem_readings.mp (List.mem_of_getLast? h)

theorem rttOf_eq_some {ms : Ms} (hmem : ⟨ip,some ms⟩ ∈ results)
    (hall : ∀ other, ⟨ip,some other⟩ ∈ results → other = ms) : rttOf results ip = some ms := by
  cases h : rttOf results ip with
  | none =>
    unfold rttOf at h
    rw [List.getLast?_eq_none_iff,List.eq_nil_iff_forall_not_mem] at h
    exact absurd (mem_readings.mpr hmem) (h ms)
  | some other => rw [hall other (rttOf_mem h)]

end

/-- An address of an untested and of a tested result. -/
def Contested (hooks : List Hook) (ip : Ip) : Prop :=
  (∃ hook ∈ hooks, hook.untested = true ∧ ip ∈ hook.ips) ∧
    ∃ hook ∈ hooks, hook.untested = false ∧ ip ∈ hook.ips

/-- The reading that all schedules come to, where they do. -/
def reading (measure : Ip → Except PyException (Option Ms)) (hooks : List Hook) (ip : Ip) :
    Option Ms :=
  if ∃ hook ∈ hooks, hook.untested = true ∧ ip ∈ hook.ips then some ⊤
  else if ∃ hook ∈ hooks, ip ∈ hook.ips then
    match measure ip with
    | .ok bestMs => bestMs
    | .error _ => none
  else none

theorem Settled.rttOf_eq {c : SpeedTestContext} (h : Settled measure hooks c) {ip : Ip}
    (hclear : Contested hooks ip → ∀ ms : ℚ, measure ip ≠ .ok (some ms)) :
    rttOf c.ipRttResults ip = reading measure hooks ip := by
  unfold reading
  split
  · rename_i hmarked
    obtain ⟨hook,hhook,huntested,hip⟩ := hmarked
    refine rttOf_eq_some (h.marked hook hhook huntested ip hip) fun other hother => ?_
    obtain ⟨reporter,hreporter,hin,hms⟩ := h.reports _ hother
    cases htested : reporter.untested with
    | true =>
      rw [if_pos htested] at hms
      exact Option.some.inj hms
    | false =>
      rw [if_neg (by simp [htested])] at hms
      have hcontested : Contested hooks ip :=
        ⟨⟨hook,hhook,huntested,hip⟩,reporter,hreporter,htested,hin⟩
      induction other using WithTop.recTopCoe with
      | top => rfl
      | coe ms => exact absurd hms (hclear hcontested ms)
  · rename_i hunmarked
    have htested {item : IpRttResult} (hitem : item ∈ c.ipRttResults) (hip : item.ip = ip) :
        (∃ hook ∈ hooks, ip ∈ hook.ips) ∧ measure ip = .ok item.bestMs := by
      obtain ⟨reporter,hreporter,hin,hms⟩ := h.reports item hitem
      rw [hip] at hin hms
      rw [if_neg fun huntested => hunmarked ⟨reporter,hreporter,huntested,hin⟩] at hms
      exact ⟨⟨reporter,hreporter,hin⟩,hms⟩
    split
    · rename_i hseen
      have hproduced := (h.measured ip hseen).resolve_left hunmarked
      cases hmeasure : measure ip with
      | error e =>
        refine rttOf_eq_none fun ms hms => ?_
        rw [(htested hms rfl).2] at hmeasure
        contradiction
      | ok bestMs =>
        cases bestMs with
        | none =>
          refine rttOf_eq_none fun ms hms => ?_
          rw [(htested hms rfl).2] at hmeasure
          cases hmeasure
        | some ms =>
          refine rttOf_eq_some (hproduced _ hmeasure) fun other hother => ?_
          rw [(htested hother rfl).2] at hmeasure
          cases hmeasure
          rfl
    · rename_i hunseen
      exact rttOf_eq_none fun ms hms => hunseen (htested hms rfl).1

/-! ### The choice -/

section
variable {texts : RecordText} {config : SpeedTestPluginConfig} {candidateIps : List Ip}
  {first second : List IpRttResult}

theorem ordering_congr (h : ∀ ip ∈ candidateIps, rttOf first ip = rttOf second ip) :
    ordering candidateIps first = ordering candidateIps second := by
  have hmem (ip : Ip) :
      ip ∈ ordering candidateIps first ↔ ip ∈ ordering candidateIps second := by
    rw [mem_ordering,mem_ordering]
    refine and_congr_right fun hip => ?_
    rw [measured,measured,h ip hip]
  have htime : ∀ ip ∈ ordering candidateIps second, time first ip = time second ip := by
    intro ip hip
    rw [time,time,h ip (mem_ordering.mp hip).1]
  have hsecond : (ordering candidateIps second).Pairwise (Before candidateIps first) := by
    refine (ordering_before candidateIps second).imp_of_mem fun {a b} ha hb hab => ?_
    rwa [Before,htime a ha,htime b hb]
  refine List.Perm.eq_of_pairwise ?_ (ordering_before candidateIps first) hsecond
    ((List.perm_ext_iff_of_nodup ordering_nodup ordering_nodup).mpr hmem)
  intro a b _ _ hab hba
  obtain hab | ⟨heq,hab⟩ := hab
  · obtain hba | ⟨heq,_⟩ := hba
    · exact absurd hba hab.not_gt
    · exact absurd heq hab.ne'
  · obtain hba | ⟨_,hba⟩ := hba
    · exact absurd heq hba.ne'
    · omega

/-- The choice reads no more of the results than the times of the candidates. -/
theorem selectedIps_congr (h : ∀ ip ∈ candidateIps, rttOf first ip = rttOf second ip) :
    selectedIps config candidateIps first = selectedIps config candidateIps second := by
  have hsorted : (measuredResults candidateIps first).mergeSort (byTime candidateIps) =
      (measuredResults candidateIps second).mergeSort (byTime candidateIps) := by
    rw [sorted_timed,sorted_timed,ordering_congr h]
    refine List.map_congr_left fun ip hip => ?_
    rw [timed,timed,time,time,h ip (mem_ordering.mp hip).1]
  unfold selectedIps
  rw [hsorted]

theorem applyResults_congr (h : ∀ ip ∈ candidateIps, rttOf first ip = rttOf second ip) (now : ℚ)
    (tags : Finset String) : applyResults texts config now tags candidateIps first =
      applyResults texts config now tags candidateIps second := by
  have hnil : measuredResults candidateIps first ≠ [] ↔
      measuredResults candidateIps second ≠ [] := by
    rw [Ne,Ne,measuredResults_nil_iff,measuredResults_nil_iff]
    exact not_congr (forall₂_congr fun ip hip => by rw [h ip hip])
  unfold applyResults
  simp only [hnil,selectedIps_congr h]

end

/-! ### Candidates marked by the collection -/

section
variable {markInf : Bool} {s : Collecting} {ip : Ip}

theorem Collecting.mem_addIp {other : Ip} :
    ip ∈ (s.addIp markInf other).candidates ↔ ip ∈ s.candidates ∨ ip = other := by
  unfold Collecting.addIp
  split
  · rename_i hother
    exact ⟨.inl,fun h => h.elim id fun heq => heq ▸ hother⟩
  · simp

theorem Collecting.mem_addIps (ips : List Ip) :
    ip ∈ (ips.foldl (Collecting.addIp markInf) s).candidates ↔ ip ∈ s.candidates ∨ ip ∈ ips := by
  induction ips generalizing s with
  | nil => simp
  | cons other ips ih =>
    rw [List.foldl_cons,ih,Collecting.mem_addIp,List.mem_cons,or_assoc]

theorem Collecting.addIp_marks (other : Ip) {item : IpRttResult} (h : item ∈ s.infResults) :
    item ∈ (s.addIp markInf other).infResults := by
  unfold Collecting.addIp
  split
  · exact h
  · cases markInf with
    | true => exact List.mem_append_left _ h
    | false => exact h

theorem Collecting.addIps_marks (ips : List Ip) {item : IpRttResult} (h : item ∈ s.infResults) :
    item ∈ (ips.foldl (Collecting.addIp markInf) s).infResults :=
  List.foldlRecOn (motive:=fun s : Collecting => item ∈ s.infResults) ips _ h
    fun _ hs other _ => Collecting.addIp_marks other hs

/-- An address that is met for the first time is marked where that is asked for. -/
theorem Collecting.addIps_marked {ips : List Ip} (hnew : ip ∉ s.candidates) (hip : ip ∈ ips) :
    ⟨ip,some ⊤⟩ ∈ (ips.foldl (Collecting.addIp true) s).infResults := by
  induction ips generalizing s with
  | nil => contradiction
  | cons other ips ih =>
    rw [List.foldl_cons]
    by_cases hother : ip = other
    · refine Collecting.addIps_marks ips ?_
      rw [Collecting.addIp,if_neg (hother ▸ hnew),if_pos rfl,hother]
      simp
    · refine ih (fun hmem => ?_) ((List.mem_cons.mp hip).resolve_left hother)
      exact (Collecting.mem_addIp.mp hmem).elim hnew hother

end

theorem Collecting.addAnswerIps_eq (texts : RecordText) (s : Collecting) (result : UpstreamResult)
    (markInf : Bool) : s.addAnswerIps texts result.answer markInf =
      (resultIps texts result).foldl (Collecting.addIp markInf) s := by
  unfold Collecting.addAnswerIps resultIps
  cases result.answer with
  | none => rfl
  | some answer => rfl

/-- The address is not in the final answer, and of the collected results with it the first one, by
duration and name, is not to be measured. -/
def FirstSeenUntested (texts : RecordText) (config : SpeedTestPluginConfig)
    (upstreamResults : List UpstreamResult) (answer : Answer) (ip : Ip) : Prop :=
  ip ∉ extractUniqueIps texts answer ∧
    ∃ finalResult ∈ upstreamResults.getLast?, ∃ before result after,
      finalResult.collectedResults.mergeSort byDuration = before ++ result :: after ∧
      (∀ earlier ∈ before, ip ∉ resultIps texts earlier) ∧
      ip ∈ resultIps texts result ∧ hasAnyTag result.tags config.noSpeedtestTags = true

theorem FirstSeenUntested.marked {texts : RecordText} {config : SpeedTestPluginConfig}
    {upstreamResults : List UpstreamResult} {answer : Answer} {ip : Ip}
    (h : FirstSeenUntested texts config upstreamResults answer ip) :
    ⟨ip,some ⊤⟩ ∈ (collectCandidateIps texts config upstreamResults answer).infResults := by
  obtain ⟨hanswer,finalResult,hlast,before,result,after,hsorted,hbefore,hip,htags⟩ := h
  have hstart : ip ∉ (Collecting.addAnswerIps texts {} (some answer) false).candidates := by
    intro hmem
    exact ((Collecting.mem_addIps _).mp hmem).elim List.not_mem_nil hanswer
  unfold collectCandidateIps
  rw [Option.mem_def.mp hlast]
  simp only [Collecting.addAnswerIps_eq] at hstart ⊢
  rw [hsorted,List.foldl_append,List.foldl_cons,htags]
  refine List.foldlRecOn (motive:=fun s : Collecting => ⟨ip,some ⊤⟩ ∈ s.infResults) after _ ?_
    fun _ hs _ _ => Collecting.addIps_marks _ hs
  refine Collecting.addIps_marked ?_ hip
  refine List.foldlRecOn (motive:=fun s : Collecting => ip ∉ s.candidates) before _ hstart ?_
  intro s hs earlier hearlier hmem
  exact ((Collecting.mem_addIps _).mp hmem).elim hs (hbefore earlier hearlier)

/-! ### Two schedules -/

/-- The hooks of the results of one dispatch. -/
def hooksOf (texts : RecordText) (config : SpeedTestPluginConfig) (question : Question)
    (tags : Finset String) (results : List UpstreamResult) : List Hook :=
  results.map (hookOf texts config question tags)

theorem rttOf_isSome {results : List IpRttResult} {ip : Ip} {ms : Ms}
    (h : ⟨ip,some ms⟩ ∈ results) : (rttOf results ip).isSome = true := by
  cases hrtt : rttOf results ip with
  | none =>
    unfold rttOf at hrtt
    rw [List.getLast?_eq_none_iff] at hrtt
    exact absurd (mem_readings.mpr h) (hrtt ▸ List.not_mem_nil)
  | some ms => rfl

/-- Whatever the schedule of the hooks, `on_response` does the same, unless an address of an
untested and of a tested result has a finite time and the collection does not mark it. -/
theorem onResponse_timing (texts : RecordText) (config : SpeedTestPluginConfig)
    (measure : Ip → Except PyException (Option Ms)) (now : ℚ) (question : Question)
    (tags : Finset String) (results upstreamResults : List UpstreamResult) (answer : Answer)
    (hclear : ∀ ip, Contested (hooksOf texts config question tags results) ip →
      (∀ ms : ℚ, measure ip ≠ .ok (some ms)) ∨
        FirstSeenUntested texts config upstreamResults answer ip)
    (schedule₁ schedule₂ : List ℕ) (c₁ c₂ : SpeedTestContext)
    (h₁ : EndsWith measure (hooksOf texts config question tags results) schedule₁ c₁)
    (h₂ : EndsWith measure (hooksOf texts config question tags results) schedule₂ c₂) :
    onResponse texts config measure now question tags upstreamResults c₁ answer =
      onResponse texts config measure now question tags upstreamResults c₂ answer := by
  have hseen : c₁.seenIps = c₂.seenIps :=
    Finset.ext fun ip => (h₁.settled.seen ip).trans (h₂.settled.seen ip).symm
  have hresults : applyResults texts config now tags
      (measuredContext texts config measure upstreamResults answer c₁).1
      (measuredContext texts config measure upstreamResults answer c₁).2.ipRttResults =
      applyResults texts config now tags
      (measuredContext texts config measure upstreamResults answer c₂).1
      (measuredContext texts config measure upstreamResults answer c₂).2.ipRttResults := by
    refine applyResults_congr (fun ip _ => ?_) now tags
    simp only [measuredContext,measureNewIps,SpeedTestContext.addResults,
      SpeedTestContext.reserveIps,SpeedTestContext.newIps,hseen,rttOf_append]
    -- What the collection and the last measurements say is common to both.
    congr 1
    by_cases hfirst : FirstSeenUntested texts config upstreamResults answer ip
    · obtain ⟨ms,hms⟩ := Option.isSome_iff_exists.mp (rttOf_isSome hfirst.marked)
      rw [hms,Option.some_or,Option.some_or]
    · have hready : Contested (hooksOf texts config question tags results) ip →
          ∀ ms : ℚ, measure ip ≠ .ok (some ms) :=
        fun hcontested => (hclear ip hcontested).resolve_right hfirst
      rw [h₁.settled.rttOf_eq hready,h₂.settled.rttOf_eq hready]
  unfold onResponse
  split
  · rfl
  · split
    · rfl
    · rw [Exec.bind_ok (Exec.run_get answer),Exec.bind_ok (Exec.run_get answer)]
      split
      · exact congrFun hresults answer
      · rfl

/-! ### A race -/

def slowIp : Ip := IpText.ipv4Text 2
def fastIp : Ip := IpText.ipv4Text 1

def pings (ip : Ip) : Except PyException (Option Ms) :=
  .ok (some (if ip = fastIp then (5 : ℚ) else (100 : ℚ)))

def bothAddresses : RRset where
  name := hostName
  rdclass := RdataClass.IN
  rdtype := RdataType.A
  ttl := 60
  items := [.a 2,.a 1]
  nonempty := List.cons_ne_nil _ _
  distinct := by decide

def bothAnswer : Answer := hostAnswer [bothAddresses] (some bothAddresses)

def slowResult : UpstreamResult :=
  { upstreamName := "slow", durationMs := 1
    answer := some (hostAnswer [addressOf hostName 2] (some (addressOf hostName 2))) }
def fastResult : UpstreamResult :=
  { upstreamName := "fast", durationMs := 2
    answer := some (hostAnswer [addressOf hostName 1] (some (addressOf hostName 1))) }
def bothResult : UpstreamResult :=
  { upstreamName := "both", durationMs := 1, answer := some bothAnswer }

def slowReading : IpRttResult := ⟨slowIp,some (100 : ℚ)⟩
def fastReading : IpRttResult := ⟨fastIp,some (5 : ℚ)⟩

def bothIps : Finset Ip := {slowIp,fastIp}

theorem onResponse_timing_two :
    onResponse plainText {} pings 0 hostQuestion ∅ [] ⟨[slowReading,fastReading],bothIps⟩
      bothAnswer =
    onResponse plainText {} pings 0 hostQuestion ∅ [] ⟨[fastReading,slowReading],{fastIp,slowIp}⟩
      bothAnswer := by
  refine onResponse_timing plainText {} pings 0 hostQuestion ∅ [slowResult,fastResult] []
    bothAnswer (fun ip hcontested => ?_) [0,1,0,1] [1,0,1,0] _ _ ⟨_,rfl,?_,?_⟩ ⟨_,rfl,?_,?_⟩
  · have htested : ∀ hook ∈ hooksOf plainText {} hostQuestion ∅ [slowResult,fastResult],
        hook.untested = false := by decide +kernel
    obtain ⟨⟨hook,hhook,huntested,_⟩,_⟩ := hcontested
    rw [htested hook hhook] at huntested
    contradiction
  all_goals decide +kernel

/-- A second upstream has the fast address too, and it is not to be measured there. -/
def racingResults : List UpstreamResult := [bothResult,{ fastResult with tags := {"cdn"} }]

def racingUpstream : List UpstreamResult :=
  [{ bothResult with collectedResults := racingResults }]

def cdnConfig : SpeedTestPluginConfig := { noSpeedtestTags := ["cdn"] }

def racingHooks : List Hook := hooksOf plainText cdnConfig hostQuestion ∅ racingResults

def markedFirst : SpeedTestContext := ⟨[⟨fastIp,some ⊤⟩,slowReading,fastReading],bothIps⟩
def markedLast : SpeedTestContext := ⟨[slowReading,fastReading,⟨fastIp,some ⊤⟩],bothIps⟩

theorem racing_collected : collectCandidateIps plainText cdnConfig racingUpstream bothAnswer =
    { candidates := [slowIp,fastIp] } := by
  have hsorted : racingResults.mergeSort byDuration = racingResults :=
    List.mergeSort_of_pairwise (by decide +kernel)
  unfold collectCandidateIps
  simp only [racingUpstream,List.getLast?_singleton]
  rw [hsorted]
  rfl

theorem selectedIps_of_sorted {config : SpeedTestPluginConfig} {candidateIps ips : List Ip}
    {results : List IpRttResult} (items : List Item)
    (hitems : measuredResults candidateIps results = items)
    (hsorted : items.Pairwise fun a b => byTime candidateIps a b = true)
    (hne : filterItems config.rttToleranceMs none items ≠ [])
    (hips : ((truncateItems config.rttGapThresholdMs none
      (filterItems config.rttToleranceMs none items)).map Prod.fst).take config.responseIpLimit =
      ips) : selectedIps config candidateIps results = ips := by
  unfold selectedIps
  rw [hitems,List.mergeSort_of_pairwise hsorted]
  simp only [hne,if_false]
  exact hips

/-- The addresses that `on_response` leaves in the answer with both. -/
def racingOutcome (c : SpeedTestContext) : List Ip :=
  extractUniqueIps plainText
    (onResponse plainText cdnConfig pings 0 hostQuestion ∅ racingUpstream c bothAnswer).2

theorem racingOutcome_eq {c : SpeedTestContext} {ip : Ip}
    (hcontext : measureNewIps pings (c.addResults []) [slowIp,fastIp] = c)
    (hsome : measuredResults [slowIp,fastIp] c.ipRttResults ≠ [])
    (hselected : selectedIps cdnConfig [slowIp,fastIp] c.ipRttResults = [ip])
    (hip : extractUniqueIps plainText
      (replaceAnswerIps plainText cdnConfig 0 [ip] bothAnswer).2 = [ip]) :
    racingOutcome c = [ip] := by
  have hmeasured : measuredContext plainText cdnConfig pings racingUpstream bothAnswer c =
      ([slowIp,fastIp],c) := by
    unfold measuredContext
    rw [racing_collected]
    exact Prod.ext rfl hcontext
  have hdiffers : [ip] ≠ extractUniqueIps plainText bothAnswer := by
    intro h
    have hlength : (extractUniqueIps plainText bothAnswer).length = 2 := by decide +kernel
    simp [← h] at hlength
  unfold racingOutcome onResponse
  rw [if_neg (by decide),if_neg (by decide),Exec.bind_ok (Exec.run_get bothAnswer),
    if_pos (by decide)]
  simp only [hmeasured]
  unfold applyResults
  rw [Exec.bind_ok (Exec.run_get bothAnswer),if_pos hsome]
  simp only [hselected]
  rw [if_pos hdiffers]
  exact hip

/-- The fast address is chosen where it is marked before its measurement ends, and the slow one
where it is marked after. -/
theorem onResponse_races :
    EndsWith pings racingHooks [0,1,1,0] markedFirst ∧
      EndsWith pings racingHooks [0,0,1,1] markedLast ∧
      racingOutcome markedFirst = [fastIp] ∧ racingOutcome markedLast = [slowIp] ∧
      fastIp ≠ slowIp := by
  have hfirst : selectedIps cdnConfig [slowIp,fastIp] markedFirst.ipRttResults = [fastIp] :=
    selectedIps_of_sorted [(fastIp,(5 : ℚ)),(slowIp,(100 : ℚ))] (by decide +kernel)
      (by decide +kernel) (by decide +kernel) (by decide +kernel)
  have hlast : selectedIps cdnConfig [slowIp,fastIp] markedLast.ipRttResults = [slowIp] :=
    selectedIps_of_sorted [(slowIp,(100 : ℚ)),(fastIp,⊤)] (by decide +kernel)
      (by decide +kernel) (by decide +kernel) (by decide +kernel)
  refine ⟨⟨_,rfl,?_,?_⟩,⟨_,rfl,?_,?_⟩,racingOutcome_eq ?_ ?_ hfirst ?_,
    racingOutcome_eq ?_ ?_ hlast ?_,?_⟩
  all_goals decide +kernel

end SpeedTest

end SmartDns
