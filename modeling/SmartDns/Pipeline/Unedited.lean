import SmartDns.Pipeline.OutcomeLaw
set_option autoImplicit false

/-!
Plugins that do not edit, in place, the messages that `handle_message` goes on using. They may
still bind another request to the context, and change everything else in it.
-/

namespace SmartDns

variable {E S W : Type}

/-- The messages stay as they are, whether the hook returns or raises. -/
def LeavesHeld (hook : PluginHook E S) : Prop :=
  ∀ held, Exec.Keeps (fun p => p.1.held = held) hook

structure Plugin.LeavesHeld (p : Plugin E S) : Prop where
  request : SmartDns.LeavesHeld p.onRequest
  upstreamResponse : ∀ result, ∀ hook ∈ p.onUpstreamResponse result, SmartDns.LeavesHeld hook
  response : SmartDns.LeavesHeld p.onResponse
  observe : SmartDns.LeavesHeld p.onObserve
  finish : SmartDns.LeavesHeld p.onFinish

def PipelineEngine.LeavesHeld (engine : PipelineEngine E S) : Prop :=
  ∀ p ∈ engine.loadedPlugins, p.LeavesHeld

theorem leavesHeld_skip : LeavesHeld (Exec.skip : PluginHook E S) := fun _ => Exec.Keeps.pure ()

theorem leavesHeld_raise (e : PyException) : LeavesHeld (Exec.raise e : PluginHook E S) :=
  fun _ => Exec.Keeps.of_run fun _ h => h

def Holding (held : Held) (s : EngineState E S) : Prop := s.context.held = held

section
variable {held : Held}

theorem holding_callHook {hook : PluginHook E S} (h : LeavesHeld hook) (kind : HookKind)
    (p : Plugin E S) : Exec.Keeps (Holding held) (callHook kind p hook) :=
  (Exec.Keeps.of_run fun _ hs => hs).bind fun _ => Exec.Keeps.of_run fun _ hs => (h held).run hs

theorem holding_onContext {α : Type} {x : Exec PyException (RequestContext E) α}
    (h : Exec.Keeps (fun c => c.held = held) x) :
    Exec.Keeps (Holding held) (onContext x : Engine E S α) :=
  Exec.Keeps.of_run fun _ hs => h.run hs

theorem takeResult_held (result : UpstreamResult) :
    Exec.Keeps (fun c : RequestContext E => c.held = held) (takeResult result) := by
  refine Exec.Keeps.get.bind fun c => ?_
  split
  · split
    · exact Exec.Keeps.of_run fun _ hc => hc
    · split
      · exact (Exec.Keeps.ofExcept _).bind fun _ => Exec.Keeps.of_run fun _ hc => hc
      · exact Exec.Keeps.pure ()
  · exact Exec.Keeps.pure ()

theorem finalizeContext_held (codec : Codec W) (now : ℚ) :
    Exec.Keeps (fun c : RequestContext E => c.held = held) (finalizeContext codec now) := by
  refine Exec.Keeps.get.bind fun c => ?_
  split
  · exact (Exec.Keeps.ofExcept _).bind fun _ => Exec.Keeps.of_run fun _ hc => hc
  · have hsync (a : Answer) : Exec.Keeps (fun c : RequestContext E => c.held = held)
        (syncFinalAnswer codec now a) :=
      (Exec.Keeps.of_run fun _ hc => hc).bind fun _ => Exec.Keeps.get.bind fun _ =>
        Exec.Keeps.pure _
    exact (hsync _).bind fun _ => (Exec.Keeps.ofExcept _).bind fun _ =>
      Exec.Keeps.of_run fun _ hc => hc
  · exact (Exec.Keeps.ofExcept _).bind fun _ => (Exec.Keeps.of_run fun _ hc => hc).bind fun _ =>
      (Exec.Keeps.ofExcept _).bind fun _ => Exec.Keeps.of_run fun _ hc => hc

end

section
variable {codec : Codec W} {engine : PipelineEngine E S}
  {env : Surroundings E engine.resolverManager} {held : Held}

theorem selectGroup_held : Exec.Keeps (Holding held) (selectGroup engine) := by
  refine Exec.Keeps.of_run fun s hs => ?_
  obtain ⟨-,e,hrun⟩ | ⟨-,g,strategy,s',hrun,-,-,_,_,_,hcontext⟩ := selectGroup_run engine s
  · rw [hrun]
    exact hs
  · rw [hrun]
    exact (congrArg RequestContext.held hcontext).trans hs

theorem PipelineEngine.LeavesHeld.dispatchContext_held (h : engine.LeavesHeld)
    (group : UpstreamGroupConfig) (strategy : DispatchStrategyType) :
    Exec.Keeps (Holding held) (dispatchContext engine env group strategy) := by
  refine Exec.Keeps.bind (Exec.Keeps.weave fun t ht x hx => ?_) fun _ => Exec.Keeps.pure _
  rw [List.mem_cons,List.mem_map] at ht
  obtain rfl | ⟨result,-,rfl⟩ := ht
  · rw [List.mem_singleton] at hx
    exact hx ▸ Exec.Keeps.of_run fun _ hs => hs
  · obtain ⟨p,hp,hx⟩ := List.mem_flatMap.mp hx
    obtain ⟨hook,hhook,rfl⟩ := List.mem_map.mp hx
    have hleaves := (h p (mem_orderedPlugins.mp hp)).upstreamResponse result hook hhook
    exact Exec.Keeps.of_run fun _ hs => (hleaves held).run hs

theorem PipelineEngine.LeavesHeld.runRequestPhase_held (h : engine.LeavesHeld) :
    Exec.Keeps (Holding held) (runRequestPhase engine env) := by
  have hrequest : Exec.Keeps (Holding held) (PluginManager.onRequest engine.loadedPlugins) :=
    Exec.Keeps.eachUntil fun p hp => (Exec.Keeps.of_run fun _ hs => hs).bind fun _ =>
      holding_callHook (h p (mem_orderedPlugins.mp hp)).request .request p
  refine hrequest.bind fun _ => Exec.Keeps.get.bind fun s => ?_
  split
  · exact Exec.Keeps.pure _
  · split
    · exact Exec.Keeps.pure _
    · split
      · exact Exec.Keeps.pure _
      · exact selectGroup_held.bind fun _ => (h.dispatchContext_held _ _).bind fun _ =>
          (holding_onContext (takeResult_held _)).bind fun _ => Exec.Keeps.pure _

theorem PipelineEngine.LeavesHeld.processRequest_held (h : engine.LeavesHeld) (held : Held) :
    Exec.Keeps (Holding held) (processRequest codec engine env) := by
  have hresponse : Exec.Keeps (Holding held) (runResponsePhase engine) := by
    refine Exec.Keeps.get.bind fun s => ?_
    split
    · exact Exec.Keeps.pure _
    · exact (Exec.Keeps.eachUntil fun p hp =>
          holding_callHook (h p (mem_orderedPlugins.mp hp)).response .response p).bind fun _ =>
        Exec.Keeps.get.bind fun _ => Exec.Keeps.pure _
  have hobserve : Exec.Keeps (Holding held) (observeContext engine) :=
    (Exec.Keeps.each fun p hp =>
      holding_callHook (h p (mem_orderedPlugins.mp hp)).observe .observe p).handle fun _ =>
        Exec.Keeps.pure ()
  refine h.runRequestPhase_held.bind fun dropped => ?_
  split
  · exact Exec.Keeps.pure _
  · refine hresponse.bind fun dropped => ?_
    split
    · exact Exec.Keeps.pure _
    · exact (holding_onContext (finalizeContext_held codec env.now)).bind fun _ =>
        hobserve.bind fun _ => Exec.Keeps.get.bind fun _ => (Exec.Keeps.ofExcept _).bind fun _ =>
          Exec.Keeps.pure _

theorem PipelineEngine.LeavesHeld.finishContext_held (h : engine.LeavesHeld) :
    Exec.Keeps (Holding held) (finishContext engine) :=
  (Exec.Keeps.each fun p hp => (holding_callHook (h p hp).finish .finish p).handle fun _ =>
    Exec.Keeps.pure ()).handle fun _ => Exec.Keeps.pure ()

end

/-! ### What is returned -/

theorem makeErrorResponse_id {request response : Message} {rcode : Rcode}
    (h : makeErrorResponse request rcode = .ok response) : response.id = request.id := by
  obtain ⟨made,-,h⟩ := Exec.except_bind_eq_ok.mp h
  cases h
  rfl

theorem validateRequest_id {request response : Message}
    (h : validateRequestOrError request = .ok (some response)) : response.id = request.id := by
  have hformerr (h : some <$> makeErrorResponse request Rcode.FORMERR = .ok (some response)) :
      response.id = request.id := by
    cases hmade : makeErrorResponse request Rcode.FORMERR with
    | error e =>
      rw [hmade] at h
      cases h
    | ok made =>
      rw [hmade] at h
      cases h
      exact makeErrorResponse_id hmade
  unfold validateRequestOrError at h
  split at h
  · exact hformerr h
  · obtain ⟨q,-,h⟩ := Exec.except_bind_eq_ok.mp h
    split at h
    · exact hformerr h
    · cases h

section
variable {codec : Codec W} {engine : PipelineEngine E S}
  {env : Surroundings E engine.resolverManager} {request : Message} {s : EngineState E S}

/-- The decoded message is still the request where the body of the `try` ends. -/
theorem PipelineEngine.LeavesHeld.decoded (h : engine.LeavesHeld)
    (hs : s.context.held.decoded = request) {s' : EngineState E S}
    {r : Except PyException (Option Message)} (hrun : processRequest codec engine env s = (r,s')) :
    s'.context.held.decoded = request := by
  have hkept :=
    (h.processRequest_held s.context.held).run (x:=processRequest codec engine env) (s:=s) rfl
  rw [hrun] at hkept
  exact (congrArg Held.decoded hkept).trans hs

theorem PipelineEngine.LeavesHeld.runContext_id (h : engine.LeavesHeld)
    (hs : s.context.held.decoded = request) {response : Message}
    (hrun : (runContext codec engine env s).1 = .ok (some response)) :
    response.id = request.id := by
  rcases hprocess : processRequest codec engine env s with ⟨e | r,s₁⟩
  · obtain ⟨s₂,hfinish,hcontext⟩ := runContext_run codec engine env s
    rw [hcontext] at hrun
    rcases hfail : failRequest codec engine env s₁.context.held.decoded e s₁ with ⟨e' | ⟨⟩,s'⟩
    · rw [beforeFinish_error hprocess hfail] at hrun
      cases hrun
    · have hrepliable := (failRequest_completes_iff codec engine env _ e s₁).mp ⟨s',hfail⟩
      obtain ⟨q,hq⟩ := hrepliable.question
      rw [failRequest_run codec engine env hrepliable.query hrepliable.opcode hq] at hfail
      cases hfail
      rw [beforeFinish_error hprocess
        (failRequest_run codec engine env hrepliable.query hrepliable.opcode hq e s₁)]
        at hfinish hrun
      have hkept := h.finishContext_held.run
        (s:=s₁.mapContext (failedContext env.now s₁.context.held.decoded q e)) rfl
      rw [hfinish] at hkept
      cases hrun
      change s₂.context.held.reply.id = request.id
      rw [hkept,← h.decoded hs hprocess]
      rfl
  · rw [runContext_fresh hprocess] at hrun
    cases hrun
    rw [processRequest_id codec engine env hprocess,h.decoded hs hprocess]

theorem PipelineEngine.LeavesHeld.handleMessage_id (h : engine.LeavesHeld)
    {clientaddr listenerName : String} {services : S} {response : Message}
    (hrun : (handleMessage codec engine env request clientaddr listenerName services).1 =
      .ok (some response)) : response.id = request.id := by
  unfold handleMessage at hrun
  split at hrun
  · cases hrun
  · rename_i made hvalid
    cases hrun
    exact validateRequest_id hvalid
  · exact h.runContext_id rfl hrun

end

/-! ### Messages with the QR flag -/

theorem raisingPlugin_leavesHeld : (soloEngine [raisingPlugin]).LeavesHeld := by
  intro p hp
  obtain rfl := List.mem_singleton.mp hp
  exact ⟨leavesHeld_raise _,fun _ _ h => (by cases h),leavesHeld_skip,leavesHeld_skip,
    leavesHeld_skip⟩

end SmartDns
