import SmartDns.Pipeline.Engine
set_option autoImplicit false

/-! What the steps of a request add to its log: a dispatch only in `selectGroup`, a
call of `on_finish` only at the end, once for each plugin. -/

namespace SmartDns

variable {E S W α β : Type}

def Event.dispatch? : Event E → Option (String × DispatchStrategyType)
  | .dispatched group strategy => some (group,strategy)
  | .called _ _ _ => none

def Event.finish? : Event E → Option String
  | .called .finish plugin _ => some plugin
  | _ => none

def dispatches (log : List (Event E)) : List (String × DispatchStrategyType) :=
  log.filterMap Event.dispatch?

def finishes (log : List (Event E)) : List String := log.filterMap Event.finish?

def Traced (d : List (String × DispatchStrategyType)) (f : List String) (s : EngineState E S) :
    Prop :=
  dispatches s.log = d ∧ finishes s.log = f

/-- The program neither dispatches nor calls `on_finish`. -/
def Quiet (x : Engine E S α) : Prop := ∀ d f, Exec.Keeps (Traced d f) x

theorem quiet_of_log {x : Engine E S α} (h : ∀ s, (x s).2.log = s.log) : Quiet x :=
  fun _ _ => Exec.Keeps.of_run fun s hs => by simpa only [Traced,h s] using hs

theorem Quiet.bind {x : Engine E S α} {f : α → Engine E S β} (hx : Quiet x)
    (hf : ∀ a, Quiet (f a)) : Quiet (x >>= f) := fun d g => (hx d g).bind fun a => hf a d g

theorem Quiet.handle {x : Engine E S α} {h : PyException → Engine E S α} (hx : Quiet x)
    (hh : ∀ e, Quiet (h e)) : Quiet (Exec.handle x h) :=
  fun d f => (hx d f).handle fun e => hh e d f

theorem Quiet.log {x : Engine E S α} (h : Quiet x) (s : EngineState E S) :
    dispatches (x s).2.log = dispatches s.log ∧ finishes (x s).2.log = finishes s.log :=
  (h _ _).run ⟨rfl,rfl⟩

theorem quiet_pure (a : α) : Quiet (pure a : Engine E S α) := quiet_of_log fun _ => rfl
theorem quiet_get : Quiet (Exec.get : Engine E S (EngineState E S)) := quiet_of_log fun _ => rfl
theorem quiet_ofExcept (r : Except PyException α) : Quiet (Exec.ofExcept r : Engine E S α) :=
  quiet_of_log fun _ => rfl
theorem quiet_mapContext (f : RequestContext E → RequestContext E) :
    Quiet (Exec.modify (EngineState.mapContext f) : Engine E S Unit) :=
  quiet_of_log fun _ => rfl
theorem quiet_onContext (x : Exec PyException (RequestContext E) α) :
    Quiet (onContext x : Engine E S α) := quiet_of_log fun _ => rfl
theorem quiet_onPlugin (x : PluginHook E S) : Quiet (onPlugin x) := quiet_of_log fun _ => rfl

theorem quiet_callHook {kind : HookKind} (hkind : kind ≠ .finish) (plugin : Plugin E S)
    (hook : PluginHook E S) : Quiet (callHook kind plugin hook) := by
  refine Quiet.bind (fun d f => Exec.Keeps.modify fun s hs => ?_) fun _ => quiet_onPlugin hook
  cases kind with
  | finish => exact absurd rfl hkind
  | _ =>
    simpa [Traced,EngineState.record,dispatches,finishes,List.filterMap_cons,Event.dispatch?,
      Event.finish?] using hs

section
variable (plugins : List (Plugin E S))

theorem onRequest_quiet : Quiet (PluginManager.onRequest plugins) :=
  fun d f => Exec.Keeps.eachUntil fun p _ =>
    (quiet_mapContext _ d f).bind fun _ => quiet_callHook (by simp) p _ d f

theorem onResponse_quiet : Quiet (PluginManager.onResponse plugins) :=
  fun d f => Exec.Keeps.eachUntil fun p _ => quiet_callHook (by simp) p _ d f

theorem onObserve_quiet : Quiet (PluginManager.onObserve plugins) :=
  fun d f => Exec.Keeps.each fun p _ => quiet_callHook (by simp) p _ d f

/-- `on_finish` is called on every plugin in turn, whatever the calls do. -/
theorem onFinish_run (s : EngineState E S) :
    ∃ s', PluginManager.onFinish plugins s = (.ok (),s') ∧
      dispatches s'.log = dispatches s.log ∧
      finishes s'.log = finishes s.log ++ plugins.map Plugin.name := by
  induction plugins generalizing s with
  | nil => exact ⟨s,rfl,rfl,by simp⟩
  | cons p plugins ih =>
    have hcall : ∃ s₁, Exec.handle (callHook .finish p p.onFinish) (fun _ => pure ()) s =
        (.ok (),s₁) ∧ s₁.log = s.log ++ [.called .finish p.name s.context] := by
      unfold Exec.handle callHook
      rw [Exec.bind_ok (Exec.run_modify _ s)]
      split
      · rename_i a s₁ h
        exact ⟨s₁,rfl,congrArg (fun r => r.2.log) h.symm⟩
      · rename_i e s₁ h
        exact ⟨s₁,rfl,congrArg (fun r => r.2.log) h.symm⟩
    obtain ⟨s₁,hs₁,hlog⟩ := hcall
    obtain ⟨s',hs',hd,hf⟩ := ih s₁
    refine ⟨s',?_,?_,?_⟩
    · rw [PluginManager.onFinish,Exec.each,Exec.bind_ok hs₁]
      exact hs'
    · rw [hd,hlog]
      simp [dispatches,Event.dispatch?]
    · rw [hf,hlog]
      simp [finishes,Event.finish?]

end

section
variable (codec : Codec W) (engine : PipelineEngine E S)
  (env : Surroundings E engine.resolverManager)

theorem dispatchContext_quiet (group : UpstreamGroupConfig) (strategy : DispatchStrategyType) :
    Quiet (dispatchContext engine env group strategy) := by
  refine Quiet.bind (fun d f => Exec.Keeps.weave fun t ht x hx => ?_) fun _ => quiet_pure _
  rw [List.mem_cons,List.mem_map] at ht
  obtain rfl | ⟨result,_,rfl⟩ := ht
  · rw [List.mem_singleton] at hx
    exact hx ▸ quiet_mapContext _ d f
  · obtain ⟨p,_,hx⟩ := List.mem_flatMap.mp hx
    obtain ⟨y,_,rfl⟩ := List.mem_map.mp hx
    exact quiet_onPlugin y d f

theorem runResponsePhase_quiet : Quiet (runResponsePhase engine) := by
  refine quiet_get.bind fun s => ?_
  split
  · exact quiet_pure _
  · exact (onResponse_quiet _).bind fun _ => quiet_get.bind fun _ => quiet_pure _

theorem observeContext_quiet : Quiet (observeContext engine) :=
  (onObserve_quiet _).handle fun _ => quiet_pure ()

theorem respond_quiet : Quiet (respond codec engine env) :=
  (quiet_onContext _).bind fun _ => (observeContext_quiet engine).bind fun _ =>
    quiet_get.bind fun _ => (quiet_ofExcept _).bind fun _ => quiet_pure _

theorem failRequest_quiet (request : Message) (exc : PyException) :
    Quiet (failRequest codec engine env request exc) :=
  (quiet_mapContext _).bind fun _ => (quiet_ofExcept _).bind fun _ =>
    (quiet_mapContext _).bind fun _ => (quiet_ofExcept _).bind fun _ => quiet_mapContext _

/-- A group is selected just when the request of the context has a question; then one
dispatch is logged. -/
theorem selectGroup_run (s : EngineState E S) :
    (s.context.request.question = [] ∧
      ∃ e, selectGroup engine s = (.error e,s)) ∨
    (s.context.request.question ≠ [] ∧
      ∃ g strategy s', selectGroup engine s = (.ok (g,strategy),s') ∧
      s'.log = s.log ++ [.dispatched g.name strategy] ∧ s'.services = s.services ∧
      ∃ rule group dispatcher, s'.context = { s.context with
        selectedRule := rule, selectedGroup := group, selectedDispatcher := dispatcher }) := by
  unfold selectGroup
  rw [Exec.bind_ok (Exec.run_get s)]
  cases hselect : engine.ruleEngine.select id s.context.request s.context.tags with
  | error e =>
    refine .inl ⟨?_,e,Exec.bind_error rfl⟩
    by_contra hne
    have hselected : ∃ selection,
        engine.ruleEngine.select id s.context.request s.context.tags = .ok selection :=
      RuleEngine.select_ok_iff.mpr hne
    obtain ⟨selection,hok⟩ := hselected
    rw [hselect] at hok
    contradiction
  | ok selection =>
    refine .inr ⟨RuleEngine.select_ok_iff.mp ⟨selection,hselect⟩,?_⟩
    obtain ⟨g,hg⟩ := Option.isSome_iff_exists.mp (RuleEngine.select_known engine.known hselect)
    rw [Exec.bind_ok (Exec.run_ofExcept _ s),Exec.bind_ok (Exec.run_modify _ s)]
    simp only [hg]
    exact ⟨g,_,_,rfl,rfl,rfl,_,_,_,rfl⟩

/-- Asking the upstreams logs one dispatch where the context has a question, none else. -/
theorem askUpstreams_log (s : EngineState E S) :
    finishes (askUpstreams engine env s).2.log = finishes s.log ∧
      ((s.context.request.question = [] ∧
        dispatches (askUpstreams engine env s).2.log = dispatches s.log) ∨
      (s.context.request.question ≠ [] ∧
        ∃ d, dispatches (askUpstreams engine env s).2.log = dispatches s.log ++ [d])) := by
  unfold askUpstreams
  obtain ⟨hq,e,hs⟩ | ⟨hq,g,strategy,s₁,hs,hlog,-⟩ := selectGroup_run engine s
  · rw [Exec.bind_error hs]
    exact ⟨rfl,.inl ⟨hq,rfl⟩⟩
  · rw [Exec.bind_ok hs]
    have hrest : Quiet (do
        let result ← dispatchContext engine env g strategy
        onContext (takeResult result)
        pure false) :=
      (dispatchContext_quiet engine env g strategy).bind fun _ =>
        (quiet_onContext _).bind fun _ => quiet_pure _
    obtain ⟨hd,hf⟩ := hrest.log s₁
    refine ⟨hf.trans ?_,.inr ⟨hq,(g.name,strategy),hd.trans ?_⟩⟩
    · simp [hlog,finishes,Event.finish?]
    · simp [hlog,dispatches,Event.dispatch?]

end

end SmartDns
