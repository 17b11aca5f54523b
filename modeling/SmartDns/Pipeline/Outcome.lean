import SmartDns.Pipeline.Engine
set_option autoImplicit false

/-! The outcome of `handle_message`: that it returns at all, and what it returns. -/

namespace SmartDns

/-! ### Error responses -/

/-- The response `make_error_response` builds for a query. -/
def errorReply (request : Message) (rcode : Rcode) : Message :=
  { id := request.id
    flags := { qr := true, rd := request.flags.rd }
    opcode := request.opcode
    rcode
    question := request.question }

theorem makeErrorResponse_ok {request : Message} (h : request.flags.qr = false) (rcode : Rcode) :
    makeErrorResponse request rcode = .ok (errorReply request rcode) := by
  simp [makeErrorResponse,makeResponse_ok h,errorReply,bind,Except.bind,pure,Except.pure]

theorem makeErrorResponse_error {request : Message} (h : request.flags.qr = true) (rcode : Rcode) :
    makeErrorResponse request rcode =
      .error (.formError "specified query message is not a query") := by
  simp [makeErrorResponse,makeResponse,h,bind,Except.bind]

theorem makeErrorResponse_some_ok {request : Message} (h : request.flags.qr = false)
    (rcode : Rcode) :
    some <$> makeErrorResponse request rcode = .ok (some (errorReply request rcode)) := by
  rw [makeErrorResponse_ok h]
  rfl

theorem errorReply_indexed (request : Message) (rcode : Rcode) :
    (errorReply request rcode).Indexed :=
  ⟨List.nodup_nil,List.nodup_nil,List.nodup_nil⟩

/-- The answer built from an error response. -/
def errorAnswer (now : ℚ) (request : Message) (q : Question) (rcode : Rcode) : Answer where
  qname := q.name
  rdtype := q.rdtype
  rdclass := q.rdclass
  response := errorReply request rcode
  canonicalName := q.name
  cnames := []
  rrset := none
  expiration := now+maxTtl

theorem soaAbove_nil (rdclass : RdataClass) (labels : List (List UInt8)) :
    soaAbove [] rdclass labels = none := by
  induction labels with
  | nil => rfl
  | cons l ls ih => simp [soaAbove,findRRset,Keyed.lookup,ih]

theorem resolveChaining_errorReply {request : Message} {q : Question}
    (hopcode : request.opcode = Opcode.QUERY) (hq : request.question = [q]) (rcode : Rcode) :
    resolveChaining (errorReply request rcode) = .ok ⟨q.name,none,maxTtl,[]⟩ := by
  refine resolveChaining_ok.mpr ⟨hopcode,rfl,q,hq,⟨q.name,none,maxTtl,[]⟩,?_,by simp,?_⟩
  · simp [errorReply,followChain,maxChain,findRRset,Keyed.lookup]
  · simp [negativeTtl,errorReply,soaAbove_nil]

variable {W : Type} (codec : Codec W)

theorem encodes_errorReply {request : Message} {q : Question} (hq : request.question = [q])
    (rcode : Rcode) : codec.Encodes (errorReply request rcode) :=
  codec.bare _ (by simp [errorReply,hq]) rfl rfl rfl

theorem buildAnswer_errorReply (now : ℚ) {request : Message} {q : Question}
    (hopcode : request.opcode = Opcode.QUERY) (hq : request.question = [q]) (rcode : Rcode) :
    buildAnswerFromResponse codec now request (errorReply request rcode) =
      .ok (errorAnswer now request q rcode) := by
  have hmerged := (errorReply_indexed request rcode).merged_eq
  have hanswer : mkAnswer now q.name q.rdtype q.rdclass (errorReply request rcode) =
      .ok (errorAnswer now request q rcode) :=
    mkAnswer_ok.mpr ⟨_,resolveChaining_errorReply hopcode hq rcode,rfl⟩
  have hclone : cloneResponseForRequest codec (errorReply request rcode) request =
      .ok (errorReply request rcode) := by
    rw [cloneResponse_ok (encodes_errorReply codec hq rcode),hmerged]
    rfl
  unfold buildAnswerFromResponse firstQuestion
  rw [hq]
  simp only [bind,Except.bind,hclone,hanswer]
  rfl

/-! ### No exception escapes -/

/-- What the `except` clause needs of the decoded message: that it is a query with one question. -/
structure Repliable (m : Message) : Prop where
  query : m.flags.qr = false
  opcode : m.opcode = Opcode.QUERY
  question : ∃ q, m.question = [q]

section
variable {E S : Type} (engine : PipelineEngine E S) (env : Surroundings E engine.resolverManager)

theorem finishContext_total : Exec.Total (finishContext engine) := by
  intro s _
  unfold finishContext Exec.handle
  split <;> simp

/-- What the `except` clause makes of the context. -/
def failedContext (now : ℚ) (request : Message) (q : Question) (exc : PyException)
    (c : RequestContext E) : RequestContext E :=
  { c with
    metadata := { c.metadata with pipelineError := some exc }
    finalResponse := some (errorReply request Rcode.SERVFAIL)
    finalAnswer := some (errorAnswer now request q Rcode.SERVFAIL)
    held := { c.held with reply := errorReply request Rcode.SERVFAIL } }

theorem failRequest_run {request : Message} {q : Question} (hqr : request.flags.qr = false)
    (hopcode : request.opcode = Opcode.QUERY) (hq : request.question = [q]) (exc : PyException)
    (s : EngineState E S) :
    failRequest codec engine env request exc s =
      (.ok (),s.mapContext (failedContext env.now request q exc)) := by
  unfold failRequest
  rw [makeErrorResponse_ok hqr]
  simp only [Exec.run_bind,Exec.run_modify,Exec.run_ofExcept,
    buildAnswer_errorReply codec env.now hopcode hq]
  rfl

theorem failRequest_completes_iff (request : Message) (exc : PyException) (s : EngineState E S) :
    (∃ s', failRequest codec engine env request exc s = (.ok (),s')) ↔ Repliable request := by
  constructor
  · intro h
    obtain ⟨s',h⟩ := h
    unfold failRequest at h
    rw [Exec.bind_ok (Exec.run_modify _ s)] at h
    cases hqr : request.flags.qr with
    | true =>
      rw [makeErrorResponse_error hqr,Exec.bind_error (Exec.run_ofExcept _ _)] at h
      cases h
    | false =>
      rw [makeErrorResponse_ok hqr,Exec.bind_ok (Exec.run_ofExcept _ _),
        Exec.bind_ok (Exec.run_modify _ _)] at h
      cases hbuild : buildAnswerFromResponse codec env.now request
          (errorReply request Rcode.SERVFAIL) with
      | error e =>
        rw [hbuild,Exec.bind_error (Exec.run_ofExcept _ _)] at h
        cases h
      | ok answer =>
        obtain ⟨chain,-,hchain,-⟩ := buildAnswer_ok hbuild
        obtain ⟨hopcode,-,q,hq,-⟩ := resolveChaining_ok.mp hchain
        exact ⟨hqr,hopcode,q,hq⟩
  · intro h
    obtain ⟨q,hq⟩ := h.question
    exact ⟨_,failRequest_run codec engine env h.query h.opcode hq exc s⟩

section
variable {codec engine env} {s s' s'' : EngineState E S} {e : PyException}

theorem beforeFinish_ok {response : Option Message}
    (h : processRequest codec engine env s = (.ok response,s')) :
    beforeFinish codec engine env s = (.ok (.fresh response),s') :=
  Exec.handle_ok (a:=Returned.fresh response) (Exec.bind_ok h)

/-- After an exception the `except` clause decides. -/
theorem beforeFinish_error (h : processRequest codec engine env s = (.error e,s'))
    {r : Except PyException Unit}
    (hfail : failRequest codec engine env s'.context.held.decoded e s' = (r,s'')) :
    beforeFinish codec engine env s = (r.map fun _ => .reply,s'') := by
  have hprocess : (do
      let response ← processRequest codec engine env
      pure (.fresh response) : Engine E S Returned) s = (.error e,s') := Exec.bind_error h
  refine (Exec.handle_error hprocess).trans ?_
  rw [Exec.bind_ok (Exec.run_get s')]
  cases r with
  | error e' => exact Exec.bind_error hfail
  | ok u => exact Exec.bind_ok hfail

end

/-- The `try` with its `except` raises only where the decoded message cannot be replied to. -/
theorem beforeFinish_completes_iff {s : EngineState E S} :
    (∃ returned, (beforeFinish codec engine env s).1 = .ok returned) ↔
      ∀ e s', processRequest codec engine env s = (.error e,s') →
        Repliable s'.context.held.decoded := by
  rcases hprocess : processRequest codec engine env s with ⟨e | response,s₁⟩
  · rcases hfail : failRequest codec engine env s₁.context.held.decoded e s₁ with ⟨e' | ⟨⟩,s₂⟩
    · rw [beforeFinish_error hprocess hfail]
      have hnot : ¬ Repliable s₁.context.held.decoded := by
        intro h
        obtain ⟨s',hrun⟩ := (failRequest_completes_iff codec engine env _ e s₁).mpr h
        cases hfail.symm.trans hrun
      simp [hnot,Except.map]
    · rw [beforeFinish_error hprocess hfail]
      have hreply := (failRequest_completes_iff codec engine env _ e s₁).mp ⟨s₂,hfail⟩
      simp [hreply,Except.map]
  · rw [beforeFinish_ok hprocess]
    simp

/-- The reply of the `except` clause is returned as the `on_finish` hooks leave it. -/
theorem runContext_run (s : EngineState E S) :
    ∃ s', finishContext engine (beforeFinish codec engine env s).2 = (.ok (),s') ∧
      runContext codec engine env s =
        ((beforeFinish codec engine env s).1.map (Returned.read s'.context),s') := by
  obtain ⟨⟨⟩,s',hfinish⟩ := (finishContext_total engine).run (beforeFinish codec engine env s).2
  have hensuring := Exec.ensuring_ok (x:=beforeFinish codec engine env) (s:=s) hfinish
  refine ⟨s',hfinish,?_⟩
  unfold runContext
  cases hbefore : (beforeFinish codec engine env s).1 with
  | error e =>
    rw [hbefore] at hensuring
    exact Exec.bind_error hensuring
  | ok returned =>
    rw [hbefore] at hensuring
    exact Exec.bind_ok hensuring

theorem runContext_completes_iff {s : EngineState E S} :
    (∃ response, (runContext codec engine env s).1 = .ok response) ↔
      ∀ e s', processRequest codec engine env s = (.error e,s') →
        Repliable s'.context.held.decoded := by
  obtain ⟨s',-,hrun⟩ := runContext_run codec engine env s
  rw [← beforeFinish_completes_iff,hrun]
  cases (beforeFinish codec engine env s).1 with
  | error e => simp [Except.map]
  | ok returned => simp [Except.map]

/-- A request is valid when it is a query with one question of class IN. -/
theorem validateRequest_ok {request : Message} (h : validateRequestOrError request = .ok none) :
    ∃ q, request.question = [q] ∧ request.opcode = Opcode.QUERY ∧ q.rdclass = RdataClass.IN := by
  unfold validateRequestOrError at h
  split at h
  · cases hr : makeErrorResponse request Rcode.FORMERR <;>
      simp [hr,Functor.map,Except.map] at h
  · rename_i hvalid
    simp only [not_or,not_not] at hvalid
    obtain ⟨q,hq⟩ := List.length_eq_one_iff.mp hvalid.2
    simp only [firstQuestion,hq,bind,Except.bind] at h
    split at h
    · cases hr : makeErrorResponse request Rcode.FORMERR <;>
        simp [hr,Functor.map,Except.map] at h
    · rename_i hclass
      exact ⟨q,hq,hvalid.1,not_not.mp hclass⟩

theorem validateRequest_total {request : Message} (hqr : request.flags.qr = false) :
    ∃ r, validateRequestOrError request = .ok r := by
  unfold validateRequestOrError
  split
  · exact ⟨_,makeErrorResponse_some_ok hqr _⟩
  · rename_i hvalid
    simp only [not_or,not_not] at hvalid
    obtain ⟨q,hq⟩ := List.length_eq_one_iff.mp hvalid.2
    simp only [firstQuestion,hq,bind,Except.bind]
    split
    · exact ⟨_,makeErrorResponse_some_ok hqr _⟩
    · exact ⟨none,rfl⟩

/-- The state in which `handle_message` starts its phases. -/
def startState (request : Message) (clientaddr listenerName : String) (services : S) :
    EngineState E S :=
  ⟨buildContext env.extensions request clientaddr listenerName [],services,[]⟩

/-- A valid request runs in its own context. -/
theorem handleMessage_valid {request : Message} (h : validateRequestOrError request = .ok none)
    (clientaddr listenerName : String) (services : S) :
    handleMessage codec engine env request clientaddr listenerName services =
      ((runContext codec engine env
          (startState engine env request clientaddr listenerName services)).1,
        some (runContext codec engine env
          (startState engine env request clientaddr listenerName services)).2) := by
  simp [handleMessage,h,startState]

theorem validateRequest_valid {request : Message} {q : Question}
    (hopcode : request.opcode = Opcode.QUERY) (hq : request.question = [q])
    (hclass : q.rdclass = RdataClass.IN) : validateRequestOrError request = .ok none := by
  simp [validateRequestOrError,firstQuestion,hopcode,hq,hclass,bind,Except.bind,pure,Except.pure]

/-- Validation raises on every message with the QR flag that it does not pass. -/
theorem validateRequest_error {request response : Message} (hqr : request.flags.qr = true) :
    validateRequestOrError request ≠ .ok (some response) := by
  intro hvalid
  unfold validateRequestOrError at hvalid
  rw [makeErrorResponse_error hqr] at hvalid
  split at hvalid
  · contradiction
  · cases hq : firstQuestion request with
    | error e => simp [hq,bind,Except.bind] at hvalid
    | ok q =>
      simp only [hq,bind,Except.bind] at hvalid
      split at hvalid
      · contradiction
      · simp [pure,Except.pure] at hvalid

end

/-- A plugin whose `on_request` raises. -/
def raisingPlugin : Plugin Unit Unit where
  name := "raising"
  onRequest := Exec.raise (.runtimeError "")

/-- A response sent to the listener as if it were a query, with a notify opcode. -/
def strayResponse : Message := { id := 9, flags := { qr := true }, opcode := Opcode.NOTIFY }

end SmartDns
