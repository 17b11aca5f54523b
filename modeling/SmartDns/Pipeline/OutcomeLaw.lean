import SmartDns.Pipeline.Trace
import SmartDns.Pipeline.Outcome
set_option autoImplicit false

/-!
The law of outcomes: when a request is dropped, when it is answered and with which
id, when upstreams are asked, and that every plugin sees its end.
-/

namespace SmartDns

variable {E S W : Type}

section
variable (codec : Codec W) (engine : PipelineEngine E S)
  (env : Surroundings E engine.resolverManager)

/-- The phases whose hooks may drop a request, in the order `handle_message` runs them. -/
def hookPhases : Engine E S Unit := do
  if ← runRequestPhase engine env then pure ()
  else do
    let _ ← runResponsePhase engine
    pure ()

/-- No hook of the request phase has decided. -/
def Undecided (c : RequestContext E) : Prop :=
  c.dropRequest = false ∧ c.stopProcessing = false ∧ c.finalAnswer = none ∧ c.finalResponse = none

/-- The law for a request that starts in `s`, ends with `result` and leaves `log`. -/
structure OutcomeLaw (request : Message) (s : EngineState E S)
    (result : Except PyException (Option Message)) (log : List (Event E)) : Prop where
  dropped : result = .ok none ↔
    ∃ s', hookPhases engine env s = (.ok (),s') ∧ s'.context.dropRequest = true
  answered : result ≠ .ok none → ∃ m, result = .ok (some m) ∧ m.id = request.id
  dispatched : dispatches log ≠ [] ↔
    ∃ s', PluginManager.onRequest engine.loadedPlugins s = (.ok (),s') ∧ Undecided s'.context
  finished : finishes log = engine.loadedPlugins.map Plugin.name

/-- The log of a run; a request that is rejected leaves none. -/
def finalLog (r : Except PyException (Option Message) × Option (EngineState E S)) :
    List (Event E) :=
  match r.2 with
  | some s => s.log
  | none => []

/-- The hooks of the upstream phase have left both flags set. -/
def DroppedWhileStopped (s : EngineState E S) : Prop :=
  ∃ s', runRequestPhase engine env s = (.ok false,s') ∧ s'.context.dropRequest = true ∧
    s'.context.stopProcessing = true

/-- The request phase ends undecided with a request that has no question. -/
def QuestionTakenAway (s : EngineState E S) : Prop :=
  ∃ s', PluginManager.onRequest engine.loadedPlugins s = (.ok (),s') ∧ Undecided s'.context ∧
    s'.context.request.question = []

/-! ### The request phase -/

theorem runRequestPhase_error {s s' : EngineState E S} {e : PyException}
    (h : PluginManager.onRequest engine.loadedPlugins s = (.error e,s')) :
    runRequestPhase engine env s = (.error e,s') := Exec.bind_error h

theorem runRequestPhase_undecided {s s' : EngineState E S}
    (h : PluginManager.onRequest engine.loadedPlugins s = (.ok (),s'))
    (hun : Undecided s'.context) : runRequestPhase engine env s = askUpstreams engine env s' := by
  obtain ⟨hd,hs,ha,hr⟩ := hun
  rw [runRequestPhase,Exec.bind_ok h,Exec.bind_ok (Exec.run_get s')]
  simp [hd,hs,ha,hr]

theorem runRequestPhase_decided {s s' : EngineState E S}
    (h : PluginManager.onRequest engine.loadedPlugins s = (.ok (),s'))
    (hdec : ¬ Undecided s'.context) :
    runRequestPhase engine env s = (.ok s'.context.dropRequest,s') := by
  rw [runRequestPhase,Exec.bind_ok h,Exec.bind_ok (Exec.run_get s')]
  by_cases hd : s'.context.dropRequest = true
  · simp [hd]
  · rw [Bool.not_eq_true] at hd
    by_cases hs : s'.context.stopProcessing = true
    · simp [hd,hs]
    · have hfinal : s'.context.finalAnswer.isSome = true ∨
          s'.context.finalResponse.isSome = true := by
        rw [Bool.not_eq_true] at hs
        by_contra hcon
        simp only [not_or,Bool.not_eq_true,Option.isSome_eq_false_iff,
          Option.isNone_iff_eq_none] at hcon
        exact hdec ⟨hd,hs,hcon.1,hcon.2⟩
      simp [hd,hs,hfinal]

theorem askUpstreams_false {s s' : EngineState E S} {b : Bool}
    (h : askUpstreams engine env s = (.ok b,s')) : b = false := by
  have hpost : Exec.Triple (fun _ => True) (askUpstreams engine env) (fun b _ => b = false)
      (fun _ _ => True) :=
    (Exec.Triple.any _).bind fun _ => (Exec.Triple.any _).bind fun _ =>
      (Exec.Triple.any _).bind fun _ => Exec.Triple.pure fun _ _ => rfl
  have := hpost s trivial
  rwa [h] at this

/-- A request phase that asks for a drop has left the drop flag set. -/
theorem runRequestPhase_drop {s s' : EngineState E S}
    (h : runRequestPhase engine env s = (.ok true,s')) : s'.context.dropRequest = true := by
  rcases hreq : PluginManager.onRequest engine.loadedPlugins s with ⟨e | ⟨⟩,s₁⟩
  · rw [runRequestPhase_error engine env hreq] at h
    simp at h
  · by_cases hun : Undecided s₁.context
    · rw [runRequestPhase_undecided engine env hreq hun] at h
      simpa using askUpstreams_false engine env h
    · rw [runRequestPhase_decided engine env hreq hun] at h
      simp only [Prod.mk.injEq,Except.ok.injEq] at h
      rw [← h.2]
      exact h.1

theorem runRequestPhase_finishes (s : EngineState E S) :
    finishes (runRequestPhase engine env s).2.log = finishes s.log := by
  have hlog := (onRequest_quiet engine.loadedPlugins).log s
  rcases hreq : PluginManager.onRequest engine.loadedPlugins s with ⟨e | ⟨⟩,s₁⟩
  · rw [runRequestPhase_error engine env hreq]
    rw [hreq] at hlog
    exact hlog.2
  · rw [hreq] at hlog
    by_cases hun : Undecided s₁.context
    · rw [runRequestPhase_undecided engine env hreq hun,(askUpstreams_log engine env s₁).1]
      exact hlog.2
    · rw [runRequestPhase_decided engine env hreq hun]
      exact hlog.2

/-- The request phase dispatches just when the hooks leave it undecided and leave a
question to ask. -/
theorem runRequestPhase_dispatches {s : EngineState E S} (hs : dispatches s.log = []) :
    dispatches (runRequestPhase engine env s).2.log ≠ [] ↔
      ∃ s', PluginManager.onRequest engine.loadedPlugins s = (.ok (),s') ∧
        Undecided s'.context ∧ s'.context.request.question ≠ [] := by
  have hlog := (onRequest_quiet engine.loadedPlugins).log s
  rw [hs] at hlog
  rcases hreq : PluginManager.onRequest engine.loadedPlugins s with ⟨e | ⟨⟩,s₁⟩
  · rw [runRequestPhase_error engine env hreq]
    rw [hreq] at hlog
    simpa using hlog.1
  · rw [hreq] at hlog
    by_cases hun : Undecided s₁.context
    · rw [runRequestPhase_undecided engine env hreq hun]
      obtain ⟨hq,hd⟩ | ⟨hq,d,hd⟩ := (askUpstreams_log engine env s₁).2
      · simp [hd,hlog.1,hq]
      · simp [hd,hq,hun]
    · rw [runRequestPhase_decided engine env hreq hun]
      simp [hlog.1,hun]

/-! ### The whole run -/

theorem finalReply_id {c : RequestContext E} {m : Message} (h : finalReply codec c = .ok m) :
    m.id = c.held.decoded.id := by
  unfold finalReply at h
  split at h
  · simp only [makeErrorResponse,bind,Except.bind] at h
    split at h
    · contradiction
    · cases h
      rfl
  · exact cloneResponse_id h

theorem respond_some (s : EngineState E S) :
    Exec.Ends (fun r s' => ∃ m, r = some m ∧ m.id = s'.context.held.decoded.id) (fun _ _ => True)
      (respond codec engine env s) := by
  have hpost : Exec.Triple (fun _ => True) (respond codec engine env)
      (fun r s' => ∃ m, r = some m ∧ m.id = s'.context.held.decoded.id) (fun _ _ => True) := by
    refine (Exec.Triple.any _).bind fun _ => (Exec.Triple.any _).bind fun _ => ?_
    refine Exec.Triple.bind (Q:=fun s s' => s' = s) (Exec.Triple.get fun _ _ => rfl) fun s => ?_
    refine Exec.Triple.bind (Q:=fun m s' => s' = s ∧ m.id = s.context.held.decoded.id)
      (Exec.Triple.ofExcept (fun m _ hm hs => ⟨hs,finalReply_id codec hm⟩)
        fun _ _ _ _ => trivial) ?_
    exact fun m => Exec.Triple.pure fun s' h => ⟨m,rfl,by rw [h.1,h.2]⟩
  exact hpost s trivial

/-- What a request that is not dropped is answered with has the id of the decoded message. -/
theorem processRequest_id {s s' : EngineState E S} {m : Message}
    (h : processRequest codec engine env s = (.ok (some m),s')) :
    m.id = s'.context.held.decoded.id := by
  have hpost : Exec.Triple (fun _ => True) (processRequest codec engine env)
      (fun r s' => ∀ m ∈ r, m.id = s'.context.held.decoded.id) (fun _ _ => True) := by
    have hnone : Exec.Triple (fun _ => True) (pure none : Engine E S (Option Message))
        (fun r s' => ∀ m ∈ r, m.id = s'.context.held.decoded.id) (fun _ _ => True) :=
      Exec.Triple.pure fun _ _ m hm => by cases hm
    refine (Exec.Triple.any _).bind fun drop => ?_
    cases drop with
    | true => exact hnone
    | false =>
      refine (Exec.Triple.any _).bind fun drop => ?_
      cases drop with
      | true => exact hnone
      | false =>
        intro s _
        refine (respond_some codec engine env s).mono ?_ fun _ _ _ => trivial
        rintro r s' ⟨m,rfl,hid⟩ m' hm'
        cases hm'
        exact hid
  have hrun := hpost s trivial
  rw [h] at hrun
  exact hrun m rfl

theorem runContext_log (s : EngineState E S) :
    dispatches (runContext codec engine env s).2.log =
      dispatches (beforeFinish codec engine env s).2.log ∧
    finishes (runContext codec engine env s).2.log =
      finishes (beforeFinish codec engine env s).2.log ++
        engine.loadedPlugins.map Plugin.name := by
  obtain ⟨s',hfinish,hrun⟩ := runContext_run codec engine env s
  obtain ⟨s'',hs'',hd,hf⟩ :=
    onFinish_run engine.loadedPlugins (beforeFinish codec engine env s).2
  cases (Exec.handle_ok hs'').symm.trans hfinish
  rw [hrun]
  exact ⟨hd,hf⟩

/-- The hooks leave the id of the request to the message that it is answered with. -/
structure KeepsId (codec : Codec W) (engine : PipelineEngine E S)
    (env : Surroundings E engine.resolverManager) (request : Message) (s : EngineState E S) :
    Prop where
  answered : ∀ m s', processRequest codec engine env s = (.ok (some m),s') →
    s'.context.held.decoded.id = request.id
  failed : ∀ e s', processRequest codec engine env s = (.error e,s') →
    Repliable s'.context.held.decoded ∧
      (finishContext engine (beforeFinish codec engine env s).2).2.context.held.reply.id =
        request.id

section
variable {codec engine env} {request : Message} {s s' : EngineState E S} {e : PyException}

theorem runContext_answers_iff :
    ((runContext codec engine env s).1 ≠ .ok none →
        ∃ m, (runContext codec engine env s).1 = .ok (some m) ∧ m.id = request.id) ↔
      KeepsId codec engine env request s := by
  obtain ⟨s₂,hfinish,hrun⟩ := runContext_run codec engine env s
  rw [hrun]
  rcases hprocess : processRequest codec engine env s with ⟨e | response,s₁⟩
  · have hkeeps : KeepsId codec engine env request s ↔
        Repliable s₁.context.held.decoded ∧ s₂.context.held.reply.id = request.id := by
      constructor
      · intro h
        have hfailed := h.failed e s₁ hprocess
        rwa [hfinish] at hfailed
      · intro h
        refine ⟨fun m s' hm => (by cases hprocess.symm.trans hm),fun e' s' he => ?_⟩
        cases hprocess.symm.trans he
        rwa [hfinish]
    rw [hkeeps,← failRequest_completes_iff codec engine env _ e s₁]
    rcases hfail : failRequest codec engine env s₁.context.held.decoded e s₁ with ⟨e' | ⟨⟩,s'⟩
    · rw [beforeFinish_error hprocess hfail]
      simp [Except.map]
    · rw [beforeFinish_error hprocess hfail]
      simp [Except.map,Returned.read]
  · rw [beforeFinish_ok hprocess]
    cases response with
    | none =>
      refine iff_of_true (fun h => absurd rfl h) ⟨fun m s' hm => ?_,fun e s' he => ?_⟩
      · cases hprocess.symm.trans hm
      · cases hprocess.symm.trans he
    | some m =>
      have hid := processRequest_id codec engine env hprocess
      simp only [Except.map,Returned.read]
      constructor
      · intro h
        obtain ⟨m',hm',hid'⟩ := h (by simp)
        cases hm'
        refine ⟨fun m' s' hm' => ?_,fun e s' he => (by cases hprocess.symm.trans he)⟩
        cases hprocess.symm.trans hm'
        exact hid.symm.trans hid'
      · exact fun h _ => ⟨m,rfl,hid.trans (h.answered m s₁ hprocess)⟩

/-- The ways a run can take: an exception in a phase, a drop, or neither, which may be a
request that was dropped. -/
inductive RunWay (codec : Codec W) (engine : PipelineEngine E S)
    (env : Surroundings E engine.resolverManager) (s : EngineState E S) : Prop where
  | raised {e : PyException} {s' : EngineState E S}
      (hphases : hookPhases engine env s = (.error e,s'))
      (hprocess : processRequest codec engine env s = (.error e,s'))
      (hnot : ¬ DroppedWhileStopped engine env s)
  | dropped {s' : EngineState E S} (hphases : hookPhases engine env s = (.ok (),s'))
      (hprocess : processRequest codec engine env s = (.ok none,s'))
      (hdrop : s'.context.dropRequest = true) (hnot : ¬ DroppedWhileStopped engine env s)
  | responds {s' : EngineState E S} (hphases : hookPhases engine env s = (.ok (),s'))
      (hprocess : processRequest codec engine env s = respond codec engine env s')
      (hdrop : s'.context.dropRequest = true ↔ DroppedWhileStopped engine env s)

theorem not_droppedWhileStopped {r : Except PyException Bool}
    (h : runRequestPhase engine env s = (r,s'))
    (hr : r = .ok false → s'.context.stopProcessing ≠ true) :
    ¬ DroppedWhileStopped engine env s := by
  intro h
  obtain ⟨s₂,hs₂,-,hstop⟩ := h
  rw [h] at hs₂
  cases hs₂
  exact hr rfl hstop

variable (codec engine env s) in
theorem run_way : RunWay codec engine env s := by
  rcases hphase : runRequestPhase engine env s with ⟨e | drop,s₁⟩
  · exact .raised (Exec.bind_error hphase) (Exec.bind_error hphase)
      (not_droppedWhileStopped hphase (by simp))
  cases drop with
  | true =>
    exact .dropped (Exec.bind_ok hphase) (Exec.bind_ok hphase)
      (runRequestPhase_drop engine env hphase) (not_droppedWhileStopped hphase (by simp))
  | false =>
    have hprocess : processRequest codec engine env s = (do
        if ← runResponsePhase engine then pure none
        else respond codec engine env : Engine E S (Option Message)) s₁ :=
      Exec.bind_ok hphase
    have hphases : hookPhases engine env s = (do
        let _ ← runResponsePhase engine
        pure () : Engine E S Unit) s₁ := Exec.bind_ok hphase
    by_cases hstop : s₁.context.stopProcessing = true
    · have hresp : runResponsePhase engine s₁ = (.ok false,s₁) := by
        rw [runResponsePhase,Exec.bind_ok (Exec.run_get s₁)]
        simp [hstop]
      refine .responds (hphases.trans (Exec.bind_ok hresp)) (hprocess.trans (Exec.bind_ok hresp))
        ⟨fun hdrop => ⟨s₁,hphase,hdrop,hstop⟩,?_⟩
      intro h
      obtain ⟨s₂,hs₂,hdrop,-⟩ := h
      rw [hphase] at hs₂
      cases hs₂
      exact hdrop
    · have hnot := not_droppedWhileStopped hphase fun _ => hstop
      have hresp : runResponsePhase engine s₁ = (do
          PluginManager.onResponse engine.loadedPlugins
          let s ← Exec.get
          pure s.context.dropRequest : Engine E S Bool) s₁ := by
        rw [runResponsePhase,Exec.bind_ok (Exec.run_get s₁)]
        simp [hstop]
      rcases hon : PluginManager.onResponse engine.loadedPlugins s₁ with ⟨e | ⟨⟩,s₂⟩
      · have herror := hresp.trans (Exec.bind_error hon)
        exact .raised (hphases.trans (Exec.bind_error herror))
          (hprocess.trans (Exec.bind_error herror)) hnot
      · have hok : runResponsePhase engine s₁ = (.ok s₂.context.dropRequest,s₂) :=
          hresp.trans (Exec.bind_ok hon)
        cases hdrop : s₂.context.dropRequest with
        | true =>
          rw [hdrop] at hok
          exact .dropped (hphases.trans (Exec.bind_ok hok)) (hprocess.trans (Exec.bind_ok hok))
            hdrop hnot
        | false =>
          rw [hdrop] at hok
          exact .responds (hphases.trans (Exec.bind_ok hok)) (hprocess.trans (Exec.bind_ok hok))
            (by simp [hdrop,hnot])

theorem runContext_failed (h : processRequest codec engine env s = (.error e,s')) :
    (runContext codec engine env s).1 ≠ .ok none := by
  obtain ⟨s₂,-,hrun⟩ := runContext_run codec engine env s
  rw [hrun]
  rcases hfail : failRequest codec engine env s'.context.held.decoded e s' with ⟨e' | ⟨⟩,s₁⟩
  · rw [beforeFinish_error h hfail]
    simp [Except.map]
  · rw [beforeFinish_error h hfail]
    simp [Except.map,Returned.read]

theorem runContext_fresh {response : Option Message}
    (h : processRequest codec engine env s = (.ok response,s')) :
    (runContext codec engine env s).1 = .ok response := by
  obtain ⟨s₂,-,hrun⟩ := runContext_run codec engine env s
  rw [hrun,beforeFinish_ok h]
  rfl

theorem runContext_responds (h : processRequest codec engine env s = respond codec engine env s') :
    (runContext codec engine env s).1 ≠ .ok none := by
  have hpost := respond_some codec engine env s'
  rcases hr : respond codec engine env s' with ⟨e | response,s''⟩
  · exact runContext_failed (h.trans hr)
  · rw [hr] at hpost
    obtain ⟨m,rfl,-⟩ := hpost
    rw [runContext_fresh (h.trans hr)]
    simp

/-- The drop clause of the law fails exactly where a hook sets both flags. -/
theorem RunWay.dropped_iff (h : RunWay codec engine env s) :
    ((runContext codec engine env s).1 = .ok none ↔
      ∃ s', hookPhases engine env s = (.ok (),s') ∧ s'.context.dropRequest = true) ↔
      ¬ DroppedWhileStopped engine env s := by
  cases h with
  | raised hphases hprocess hnot => simp [hphases,runContext_failed hprocess,hnot]
  | dropped hphases hprocess hdrop hnot => simp [hphases,runContext_fresh hprocess,hdrop,hnot]
  | responds hphases hprocess hdrop => simp [hphases,runContext_responds hprocess,← hdrop]

variable (codec engine env s) in
theorem beforeFinish_log :
    dispatches (beforeFinish codec engine env s).2.log =
      dispatches (runRequestPhase engine env s).2.log ∧
    finishes (beforeFinish codec engine env s).2.log = finishes s.log := by
  rw [← runRequestPhase_finishes engine env s]
  have hfail (e : PyException) : Quiet (do
      let s ← Exec.get
      failRequest codec engine env s.context.held.decoded e
      pure .reply : Engine E S Returned) :=
    quiet_get.bind fun _ => (failRequest_quiet codec engine env _ e).bind fun _ => quiet_pure _
  rcases hphase : runRequestPhase engine env s with ⟨e | drop,s₁⟩
  · have hprocess : (do
        let response ← processRequest codec engine env
        pure (.fresh response) : Engine E S Returned) s = (.error e,s₁) :=
      Exec.bind_error (Exec.bind_error hphase)
    rw [beforeFinish,Exec.handle_error hprocess]
    exact (hfail e).log s₁
  · have hrest : Quiet (if drop = true then pure none
        else do
          if ← runResponsePhase engine then pure none
          else respond codec engine env : Engine E S (Option Message)) := by
      split
      · exact quiet_pure _
      · refine (runResponsePhase_quiet engine).bind fun b => ?_
        split
        · exact quiet_pure _
        · exact respond_quiet codec engine env
    have hprocess : processRequest codec engine env s = (if drop = true then pure none
        else do
          if ← runResponsePhase engine then pure none
          else respond codec engine env : Engine E S (Option Message)) s₁ := Exec.bind_ok hphase
    have hlog := hrest.log s₁
    rw [← hprocess] at hlog
    rcases hrun : processRequest codec engine env s with ⟨e | response,s₂⟩
    · rw [hrun] at hlog
      have hraised : (do
          let response ← processRequest codec engine env
          pure (.fresh response) : Engine E S Returned) s = (.error e,s₂) := Exec.bind_error hrun
      have hquiet := (hfail e).log s₂
      rw [beforeFinish,Exec.handle_error hraised]
      exact ⟨hquiet.1.trans hlog.1,hquiet.2.trans hlog.2⟩
    · rw [hrun] at hlog
      rw [beforeFinish_ok hrun]
      exact hlog

/-- The law of a run, up to the three things hooks can do against it. -/
theorem runContext_outcome_iff (hlog : s.log = []) :
    OutcomeLaw engine env request s (runContext codec engine env s).1
        (runContext codec engine env s).2.log ↔
      ¬ DroppedWhileStopped engine env s ∧ ¬ QuestionTakenAway engine s ∧
        KeepsId codec engine env request s := by
  obtain ⟨hdispatches,hfinishes⟩ := runContext_log codec engine env s
  obtain ⟨hbefore,hnone⟩ := beforeFinish_log codec engine env s
  have hstart : dispatches s.log = [] := by simp [hlog,dispatches]
  have hasked := runRequestPhase_dispatches engine env hstart
  have hway := run_way codec engine env s
  rw [← hbefore,← hdispatches] at hasked
  constructor
  · intro law
    refine ⟨hway.dropped_iff.mp law.dropped,?_,runContext_answers_iff.mp law.answered⟩
    intro h
    obtain ⟨s',hon,hun,hempty⟩ := h
    obtain ⟨s₂,hon₂,-,hne⟩ := hasked.mp (law.dispatched.mpr ⟨s',hon,hun⟩)
    rw [hon] at hon₂
    cases hon₂
    exact hne hempty
  · intro h
    obtain ⟨hstop,htaken,hkeeps⟩ := h
    refine ⟨hway.dropped_iff.mpr hstop,runContext_answers_iff.mpr hkeeps,?_,?_⟩
    · refine hasked.trans ?_
      constructor
      · intro h
        obtain ⟨s',hon,hun,-⟩ := h
        exact ⟨s',hon,hun⟩
      · intro h
        obtain ⟨s',hon,hun⟩ := h
        exact ⟨s',hon,hun,fun hempty => htaken ⟨s',hon,hun,hempty⟩⟩
    · rw [hfinishes,hnone,hlog]
      rfl

end

end

/-- A plugin that asks for a drop and for a stop when an upstream has answered. -/
def retractingPlugin : Plugin Unit Unit where
  name := "retracting"
  onUpstreamResponse _ :=
    [Exec.modify fun p => ({ p.1 with dropRequest := true, stopProcessing := true },p.2)]

end SmartDns
