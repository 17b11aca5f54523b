import SmartDns.Pipeline.WriteBack
set_option autoImplicit false

/-!
Nested resolution in one process and across two. In one process the answer object
is handed over; a worker sends the question to the master, which writes the answer
back, encodes it and sends bytes or the name of an error, and the worker builds an
answer of its own.
-/

namespace SmartDns

/-- What both ways of resolving share: the parsing of texts, and what the upstreams
make of a nested question. -/
structure NestedWorld where
  nameFromText : String → Except PyException Name
  rdatatypeFromText : String → Except PyException RdataType
  dispatch : Question → List (String × String) → Except PyException UpstreamResult

section
variable {E W : Type} (codec : Codec W) (world : NestedWorld)

def checkRecursion (context : RequestContext E) (qname qtype : String) :
    Except PyException Unit :=
  if (qname,qtype) ∈ context.nestedResolveChain then
    .error (.nestedResolveRecursion s!"检测到内部解析递归 qname={qname} qtype={qtype}")
  else if context.nestedResolveMaxDepth ≤ context.nestedResolveChain.length then
    .error (.nestedResolveRecursion
      s!"内部解析超过最大递归深度({context.nestedResolveMaxDepth})")
  else .ok ()

def makeNestedRequest (id : UInt16) (qname qtype : String) : Except PyException Message := do
  let name ← world.nameFromText qname
  let rdtype ← world.rdatatypeFromText qtype
  pure (makeQuery id name rdtype RdataClass.IN)

/-- `_answer_from_nested_result`. -/
def answerFromNestedResult (result : UpstreamResult) : Except PyException Answer :=
  match result.answer,result.error with
  | some answer,_ => .ok answer
  | none,some error => .error error
  | none,none => .error (.runtimeError "内部解析未返回有效答案")

/-- `resolve_nested_query`; the caller has made the checks. -/
def resolveNestedQuery (id : UInt16) (qname qtype : String)
    (nestedResolveChain : List (String × String)) : Except PyException Answer := do
  let nestedRequest ← makeNestedRequest world id qname qtype
  let question ← firstQuestion nestedRequest
  let result ← world.dispatch question nestedResolveChain
  answerFromNestedResult result

/-- `PipelineEngine._resolve_nested`. -/
def resolveNested (id : UInt16) (context : RequestContext E) (qname qtype : String) :
    Except PyException Answer := do
  checkRecursion context qname qtype
  resolveNestedQuery world id qname qtype (context.nestedResolveChain ++ [(qname,qtype)])

/-! ### Messages between the processes -/

structure ResolveRequest where
  resolveId : String
  qname : String
  qtype : String
  clientaddr : String
  listenerName : String
  nestedResolveChain : List (String × String)

structure ResolveResponse (W : Type) where
  resolveId : String
  wire : Option W := none
  errorType : Option String := none
  error : String := ""

def serializeResolveErrorType (exc : PyException) : String :=
  if exc.kind = .nxdomain then "NXDOMAIN"
  else if exc.kind = .nestedResolveRecursion then "NestedResolveRecursionError"
  else exc.typeName

def deserializeResolveError (errorType message : String) : PyException :=
  if errorType = "NXDOMAIN" then .nxdomain
  else if errorType = "NestedResolveRecursionError" then .nestedResolveRecursion message
  else .runtimeError (if message = "" then errorType else message)

/-- `sync_answer_response(answer).response.to_wire()`. -/
def sendAnswer (now : ℚ) (answer : Answer) : Except PyException W :=
  match syncAnswerResponse codec now answer with
  | (.ok (),answer) => codec.toWire answer.response
  | (.error exc,_) => .error exc

/-- `_handle_resolve_request` of the master. -/
def handleResolveRequest (now : ℚ) (id : UInt16) (message : ResolveRequest) : ResolveResponse W :=
  match resolveNestedQuery world id message.qname message.qtype message.nestedResolveChain >>=
      sendAnswer codec now with
  | .ok wire => { resolveId := message.resolveId, wire := some wire }
  | .error exc =>
    { resolveId := message.resolveId, errorType := some (serializeResolveErrorType exc)
      error := exc.message }

/-- What `receive_response` puts into the holder of the waiting call. -/
def receiveResponse (response : ResolveResponse W) : Except PyException W :=
  match response.errorType,response.wire with
  | some errorType,_ => .error (deserializeResolveError errorType response.error)
  | none,some wire => .ok wire
  | none,none => .error (.runtimeError "内部解析未返回响应")

/-- `WorkerNestedResolver.resolve`, its messages delivered in time. -/
def workerResolve (now : ℚ) (id masterId : UInt16) (resolveId : String)
    (context : RequestContext E) (qname qtype : String) : Except PyException Answer := do
  checkRecursion context qname qtype
  let nestedRequest ← makeNestedRequest world id qname qtype
  let wire ← receiveResponse (handleResolveRequest codec world now masterId
    { resolveId, qname, qtype, clientaddr := context.clientaddr
      listenerName := context.listenerName
      nestedResolveChain := context.nestedResolveChain ++ [(qname,qtype)] })
  let response ← codec.fromWire wire
  buildAnswerFromResponse codec now nestedRequest response

end

/-! ### Agreement -/

/-- The same failure for a caller that tells NXDOMAIN and recursion from the rest. -/
def SameFailure (e e' : PyException) : Prop :=
  (e.kind = .nxdomain ↔ e'.kind = .nxdomain) ∧
    (e.kind = .nestedResolveRecursion ↔ e'.kind = .nestedResolveRecursion)

/-- The same rrset and the same records in every section. -/
def SameAnswer (a a' : Answer) : Prop :=
  a'.rrset = a.rrset ∧ a'.response.answer = a.response.answer ∧
    a'.response.authority = a.response.authority ∧
    a'.response.additional = a.response.additional

def Agrees : Except PyException Answer → Except PyException Answer → Prop
  | .ok a, .ok a' => SameAnswer a a'
  | .error e, .error e' => SameFailure e e'
  | _, _ => False

/-- An error whose class is not called like one of the two that are told apart. -/
def PlainError (e : PyException) : Prop :=
  e.kind = .nxdomain ∨ e.kind = .nestedResolveRecursion ∨
    (e.typeName ≠ "NXDOMAIN" ∧ e.typeName ≠ "NestedResolveRecursionError")

/-- The last rrset of the answer's type and class in its response. -/
def lastTyped (a : Answer) : Option RRset :=
  (targetIndex a.rdtype a.rdclass a.response.answer).bind fun i => a.response.answer[i]?

/-- What `build_answer_from_response` takes for the rrset of a response. -/
def rrsetOrFirst (response : Message) (ch : ChainingResult) : Option RRset :=
  ch.answer <|> response.answer.head?

/-- An answer that comes through: its response encodes and is as decoding leaves it, and
its rrset is both the last one of its type and what a response without the answer
object resolves to. -/
structure Survives {W : Type} (codec : Codec W) (a : Answer) : Prop where
  encodes : codec.Encodes a.response
  indexed : a.response.Indexed
  last : lastTyped a = a.rrset
  resolves : ∃ ch, resolveChaining a.response = .ok ch ∧ rrsetOrFirst a.response ch = a.rrset

/-- What has to hold of the outcome of the upstreams. -/
def Transfers {W : Type} (codec : Codec W) : Except PyException UpstreamResult → Prop
  | .error e => PlainError e
  | .ok r =>
    match r.answer,r.error with
    | some a,_ => Survives codec a
    | none,some e => PlainError e
    | none,none => True

theorem sameFailure_transported {e : PyException} :
    SameFailure e (deserializeResolveError (serializeResolveErrorType e) e.message) ↔
      PlainError e := by
  unfold SameFailure PlainError serializeResolveErrorType
  by_cases hnx : e.kind = .nxdomain
  · simp [hnx,deserializeResolveError,PyException.nxdomain]
  by_cases hrec : e.kind = .nestedResolveRecursion
  · simp [hrec,deserializeResolveError,PyException.nestedResolveRecursion]
  unfold deserializeResolveError
  rw [if_neg hnx,if_neg hrec]
  by_cases h1 : e.typeName = "NXDOMAIN"
  · simp [h1,hnx,hrec,PyException.nxdomain]
  by_cases h2 : e.typeName = "NestedResolveRecursionError"
  · simp [h2,hnx,hrec,PyException.nestedResolveRecursion]
  · simp [h1,h2,hnx,hrec,PyException.runtimeError]

section
variable {W : Type} {codec : Codec W} {now : ℚ} {a : Answer}

/-- Writing an answer's own rrset back changes nothing just when it is the last of its
type. -/
theorem written_self_iff : written a a.rrset = a.response.answer ↔ lastTyped a = a.rrset := by
  unfold written lastTyped
  cases hi : targetIndex a.rdtype a.rdclass a.response.answer with
  | none =>
    cases a.rrset with
    | none => simp [writeBack]
    | some r => simp [writeBack]
  | some i =>
    obtain ⟨x,y,z,hsplit,rfl,_⟩ := targetIndex_some hi
    rw [hsplit]
    cases a.rrset with
    | none => simp [writeBack_erase]
    | some r => simp [writeBack_set,eq_comm]

theorem lastTyped_typed (h : lastTyped a = a.rrset) : Typed a := by
  intro r hr
  rw [hr] at h
  unfold lastTyped at h
  obtain ⟨i,hi,hget⟩ := Option.bind_eq_some_iff.mp h
  obtain ⟨x,y,z,hsplit,rfl,hy,_⟩ := targetIndex_some hi
  rw [hsplit] at hget
  obtain rfl : y = r := by simpa using hget
  exact hy

/-- If the section that was written decodes to the old one, nothing was written. -/
theorem written_of_merge (htyped : Typed a)
    (h : Message.mergeSection (written a a.rrset) = a.response.answer) :
    written a a.rrset = a.response.answer := by
  have hdistinct : Keyed.Distinct RRset.key a.response.answer := by
    rw [← h]
    exact Message.mergeSection_distinct _
  have hkeys (k : RRKey) : k ∈ (written a a.rrset).map RRset.key ↔
      k ∈ a.response.answer.map RRset.key := by
    rw [← h]
    exact (Keyed.mem_gather_keys RRset.key_absorb).symm
  suffices hw : Keyed.Distinct RRset.key (written a a.rrset) by
    rw [← h]
    exact (Keyed.gather_of_distinct hw).symm
  unfold written at hkeys ⊢
  cases hi : targetIndex a.rdtype a.rdclass a.response.answer with
  | none =>
    rw [hi] at hkeys
    cases hr : a.rrset with
    | none => exact hdistinct
    | some r =>
      have hmem := (hkeys r.key).mp (by simp [hr,writeBack])
      obtain ⟨y,hy,hykey⟩ := List.mem_map.mp hmem
      obtain ⟨ht,hc⟩ := htyped r hr
      refine absurd ⟨?_,?_⟩ (targetIndex_none_iff.mp hi y hy)
      · exact (congrArg RRKey.rdtype hykey).trans ht
      · exact (congrArg RRKey.rdclass hykey).trans hc
  | some i =>
    obtain ⟨x,y,z,hsplit,rfl,_⟩ := targetIndex_some hi
    rw [hi,hsplit] at hkeys
    rw [hsplit] at hdistinct ⊢
    obtain ⟨hx,hz,hrest⟩ := hdistinct.middle
    have hmem := (hkeys y.key).mpr (by simp)
    cases hr : a.rrset with
    | none => rwa [writeBack_erase]
    | some r =>
      rw [hr,writeBack_set] at hmem
      rw [writeBack_set]
      simp only [List.map_append,List.map_cons,List.mem_append,List.mem_cons] at hmem
      have hkey : y.key = r.key := hmem.elim (fun h => absurd h hx) fun h => h.resolve_right hz
      rw [hkey] at hx hz
      exact Keyed.distinct_middle hx hz hrest

/-- What an answer built from a response says about its rrset and its response. -/
theorem buildAnswer_iff {request response m : Message} {q : Question}
    {P : Option RRset → Message → Prop} (hq : firstQuestion request = .ok q)
    (hclone : cloneResponseForRequest codec response request = .ok m) :
    (∃ b, buildAnswerFromResponse codec now request response = .ok b ∧ P b.rrset b.response) ↔
      ∃ ch, resolveChaining m = .ok ch ∧ P (rrsetOrFirst m ch) m := by
  unfold buildAnswerFromResponse
  simp only [hq,hclone,bind,Except.bind]
  cases hch : resolveChaining m with
  | error e => simp [mkAnswer,hch,bind,Except.bind]
  | ok ch =>
    rw [mkAnswer_ok.mpr ⟨ch,hch,rfl⟩]
    cases hanswer : ch.answer with
    | some r => simp [rrsetOrFirst,hanswer,pure,Except.pure]
    | none =>
      cases hsection : m.answer with
      | nil => simp [rrsetOrFirst,hanswer,hsection,pure,Except.pure]
      | cons r rs => simp [rrsetOrFirst,hanswer,hsection,pure,Except.pure]

/-- What the worker makes of the wire, or of the error, that was sent. -/
def carried (codec : Codec W) (now : ℚ) (request : Message) :
    Except PyException W → Except PyException Answer
  | .ok wire => codec.fromWire wire >>= buildAnswerFromResponse codec now request
  | .error e => .error (deserializeResolveError (serializeResolveErrorType e) e.message)

theorem sendAnswer_ok_iff {w : W} :
    sendAnswer codec now a = .ok w ↔
      Typed a ∧ codec.Encodes (writtenBack a).response ∧
        (∃ ch, resolveChaining (writtenBack a).response.merged = .ok ch) ∧
          codec.toWire (writtenBack a).response.merged = .ok w := by
  unfold sendAnswer
  constructor
  · intro h
    split at h
    · rename_i a' hsync
      obtain ⟨htyped,hencodes,rebuilt,hrebuilt,rfl⟩ := syncAnswerResponse_ok_iff.mp hsync
      obtain ⟨ch,hch,rfl⟩ := mkAnswer_ok.mp hrebuilt
      exact ⟨htyped,hencodes,⟨ch,hch⟩,h⟩
    · contradiction
  · intro h
    obtain ⟨htyped,hencodes,⟨ch,hch⟩,hw⟩ := h
    rw [syncAnswerResponse_ok_iff.mpr
      ⟨htyped,hencodes,_,mkAnswer_ok.mpr ⟨ch,hch,rfl⟩,rfl⟩]
    exact hw

theorem agrees_ok_iff {x : Except PyException Answer} :
    Agrees (.ok a) x ↔ ∃ b, x = .ok b ∧ SameAnswer a b := by
  cases x with
  | error e => simp [Agrees]
  | ok b => simp [Agrees]

/-- The sections of a message and the rrset read from it are those of `a`. -/
def SameContents (a : Answer) (rrset : Option RRset) (m : Message) : Prop :=
  rrset = a.rrset ∧ m.answer = a.response.answer ∧ m.authority = a.response.authority ∧
    m.additional = a.response.additional

theorem carried_ok_agrees_iff {request m : Message} {q : Question} {w : W}
    (hq : firstQuestion request = .ok q) (hw : codec.toWire m.merged = .ok w) :
    Agrees (.ok a) (carried codec now request (.ok w)) ↔
      ∃ ch, resolveChaining m.merged = .ok ch ∧
        SameContents a (rrsetOrFirst m.merged ch) m.merged := by
  have hclone : cloneResponseForRequest codec m.merged request =
      .ok { m.merged with id := request.id } := by
    rw [cloneResponse_ok ⟨w,hw⟩,Message.merged_merged]
  have hcarried : carried codec now request (.ok w) =
      buildAnswerFromResponse codec now request m.merged := by
    rw [carried,codec.roundTrip _ _ hw,Message.merged_merged]
    rfl
  rw [agrees_ok_iff,hcarried]
  -- the id of the clone plays no part in resolving
  have hbuilt := @buildAnswer_iff W codec now _ _ _ _ (SameContents a) hq hclone
  exact hbuilt

/-- An answer is the same on the other side just when it survives the way. -/
theorem carried_agrees_iff {request : Message} {q : Question}
    (hq : firstQuestion request = .ok q) :
    Agrees (.ok a) (carried codec now request (sendAnswer codec now a)) ↔ Survives codec a := by
  constructor
  · intro h
    cases hsend : sendAnswer codec now a with
    | error e => simp [hsend,carried,Agrees] at h
    | ok w =>
      obtain ⟨htyped,hencodes,-,hw⟩ := sendAnswer_ok_iff.mp hsend
      rw [hsend] at h
      obtain ⟨ch,hch,hrrset,hanswer,hauthority,hadditional⟩ :=
        (carried_ok_agrees_iff hq hw).mp h
      have hwritten := written_of_merge htyped hanswer
      have hsame : (writtenBack a).response = a.response :=
        congrArg a.response.withAnswer hwritten
      have hindexed : a.response.Indexed := by
        rw [hsame] at hanswer hauthority hadditional
        exact ⟨hanswer ▸ Message.mergeSection_distinct _,
          hauthority ▸ Message.mergeSection_distinct _,
          hadditional ▸ Message.mergeSection_distinct _⟩
      rw [hsame,hindexed.merged_eq] at hch hrrset
      exact ⟨hsame ▸ hencodes,hindexed,written_self_iff.mp hwritten,ch,hch,hrrset⟩
  · intro h
    obtain ⟨ch,hch,hrrset⟩ := h.resolves
    have hsame : (writtenBack a).response = a.response :=
      congrArg a.response.withAnswer (written_self_iff.mpr h.last)
    have hmerged : (writtenBack a).response.merged = a.response := by
      rw [hsame,h.indexed.merged_eq]
    obtain ⟨w,hw⟩ := h.encodes
    have hw' : codec.toWire (writtenBack a).response.merged = .ok w := by rw [hmerged,hw]
    rw [sendAnswer_ok_iff.mpr
      ⟨lastTyped_typed h.last,hsame ▸ h.encodes,⟨ch,by rw [hmerged,hch]⟩,hw'⟩]
    refine (carried_ok_agrees_iff hq hw').mpr ⟨ch,by rw [hmerged,hch],?_⟩
    rw [hmerged]
    exact ⟨hrrset,rfl,rfl,rfl⟩

end

/-! ### The two ways of resolving -/

section
variable {E W : Type} (codec : Codec W) (world : NestedWorld) (context : RequestContext E)
  (qname qtype : String)

/-- The question both sides ask, once its texts are parsed. -/
def nestedQuestion : Except PyException Question := do
  let name ← world.nameFromText qname
  let rdtype ← world.rdatatypeFromText qtype
  pure ⟨name,rdtype,RdataClass.IN⟩

/-- The chain of resolutions the nested one is part of. -/
def extendedChain : List (String × String) := context.nestedResolveChain ++ [(qname,qtype)]

theorem makeNestedRequest_error (id : UInt16) {e : PyException}
    (h : nestedQuestion world qname qtype = .error e) :
    makeNestedRequest world id qname qtype = .error e := by
  unfold nestedQuestion at h
  unfold makeNestedRequest
  cases hn : world.nameFromText qname with
  | error e' => simpa [hn,bind,Except.bind] using h
  | ok n =>
    cases ht : world.rdatatypeFromText qtype with
    | error e' => simpa [hn,ht,bind,Except.bind] using h
    | ok t => simp [hn,ht,bind,Except.bind,pure,Except.pure] at h

theorem makeNestedRequest_ok (id : UInt16) {q : Question}
    (h : nestedQuestion world qname qtype = .ok q) :
    ∃ m, makeNestedRequest world id qname qtype = .ok m ∧ firstQuestion m = .ok q := by
  unfold nestedQuestion at h
  unfold makeNestedRequest
  cases hn : world.nameFromText qname with
  | error e' => simp [hn,bind,Except.bind] at h
  | ok n =>
    cases ht : world.rdatatypeFromText qtype with
    | error e' => simp [hn,ht,bind,Except.bind] at h
    | ok t =>
      simp only [hn,ht,bind,Except.bind,pure,Except.pure,Except.ok.injEq] at h
      exact ⟨_,rfl,by rw [← h]; rfl⟩

theorem resolveNestedQuery_ok (id : UInt16) (chain : List (String × String)) {q : Question}
    (h : nestedQuestion world qname qtype = .ok q) :
    resolveNestedQuery world id qname qtype chain =
      world.dispatch q chain >>= answerFromNestedResult := by
  obtain ⟨m,hm,hq⟩ := makeNestedRequest_ok world qname qtype id h
  unfold resolveNestedQuery
  rw [hm]
  simp only [bind,Except.bind,hq]

theorem sameFailure_refl (e : PyException) : SameFailure e e := ⟨Iff.rfl,Iff.rfl⟩

variable {world context qname qtype} in
theorem workerResolve_ok (now : ℚ) (id masterId : UInt16) (resolveId : String)
    {request : Message} (hcheck : checkRecursion context qname qtype = .ok ())
    (hrequest : makeNestedRequest world id qname qtype = .ok request) :
    workerResolve codec world now id masterId resolveId context qname qtype =
      carried codec now request
        (resolveNestedQuery world masterId qname qtype (extendedChain context qname qtype) >>=
          sendAnswer codec now) := by
  unfold workerResolve handleResolveRequest extendedChain
  rw [hcheck,hrequest]
  simp only [bind,Except.bind]
  cases resolveNestedQuery world masterId qname qtype
      (context.nestedResolveChain ++ [(qname,qtype)]) with
  | error e => rfl
  | ok a =>
    cases hsend : sendAnswer codec now a with
    | error e => simp [receiveResponse,carried,hsend]
    | ok w => simp [receiveResponse,carried,hsend,bind,Except.bind]

theorem outcome_agrees_iff (now : ℚ) {request : Message} {q : Question}
    (hq : firstQuestion request = .ok q) (outcome : Except PyException UpstreamResult) :
    Agrees (outcome >>= answerFromNestedResult)
        (carried codec now request (outcome >>= answerFromNestedResult >>= sendAnswer codec now)) ↔
      Transfers codec outcome := by
  have herror (e : PyException) :
      Agrees (.error e) (carried codec now request (.error e)) ↔ PlainError e :=
    sameFailure_transported
  cases outcome with
  | error e => exact herror e
  | ok r =>
    unfold Transfers
    simp only [bind,Except.bind]
    unfold answerFromNestedResult
    cases r.answer with
    | some a => exact carried_agrees_iff hq
    | none =>
      cases r.error with
      | some e => exact herror e
      | none =>
        refine (herror _).trans (iff_true_intro (.inr (.inr ?_)))
        decide

/-- Resolving through the master agrees with resolving in the process just when what the
upstreams give for the question survives the way between the processes. -/
theorem workerResolve_agrees_iff (now : ℚ) (id workerId masterId : UInt16) (resolveId : String) :
    Agrees (resolveNested world id context qname qtype)
        (workerResolve codec world now workerId masterId resolveId context qname qtype) ↔
      ∀ q, checkRecursion context qname qtype = .ok () →
        nestedQuestion world qname qtype = .ok q →
          Transfers codec (world.dispatch q (extendedChain context qname qtype)) := by
  cases hcheck : checkRecursion context qname qtype with
  | error e =>
    have hleft : resolveNested world id context qname qtype = .error e := by
      simp [resolveNested,hcheck,bind,Except.bind]
    have hright : workerResolve codec world now workerId masterId resolveId context qname qtype =
        .error e := by
      simp [workerResolve,hcheck,bind,Except.bind]
    rw [hleft,hright]
    simpa [Agrees] using sameFailure_refl e
  | ok _ =>
    have hleft : resolveNested world id context qname qtype =
        resolveNestedQuery world id qname qtype (extendedChain context qname qtype) := by
      simp [resolveNested,extendedChain,hcheck,bind,Except.bind]
    rw [hleft]
    cases hquestion : nestedQuestion world qname qtype with
    | error e =>
      have herror := makeNestedRequest_error world qname qtype
      have hresolve : resolveNestedQuery world id qname qtype (extendedChain context qname qtype) =
          .error e := by
        simp [resolveNestedQuery,herror id hquestion,bind,Except.bind]
      have hright : workerResolve codec world now workerId masterId resolveId context qname qtype =
          .error e := by
        simp [workerResolve,hcheck,herror workerId hquestion,bind,Except.bind]
      rw [hresolve,hright]
      simpa [Agrees] using sameFailure_refl e
    | ok q =>
      obtain ⟨request,hrequest,hq⟩ := makeNestedRequest_ok world qname qtype workerId hquestion
      rw [workerResolve_ok codec now workerId masterId resolveId hcheck hrequest,
        resolveNestedQuery_ok world qname qtype _ _ hquestion,
        resolveNestedQuery_ok world qname qtype _ _ hquestion]
      refine (outcome_agrees_iff codec now hq _).trans ⟨fun h q' _ hq' => ?_,fun h => h q rfl rfl⟩
      obtain rfl : q = q' := Except.ok.inj hq'
      exact h

end

/-! ### An answer that changes on the way -/

/-- The answer to a question for the addresses of a host that is an alias of a name
without addresses. -/
def aliasAnswer : Answer where
  qname := hostName
  rdtype := RdataType.A
  rdclass := RdataClass.IN
  response := hostReply [hostAlias]
  canonicalName := otherName
  cnames := [hostAlias]
  rrset := none
  expiration := 60

def aliasWorld : NestedWorld where
  nameFromText _ := .ok hostName
  rdatatypeFromText _ := .ok RdataType.A
  dispatch _ _ := .ok { upstreamName := "up", durationMs := 1, answer := some aliasAnswer }

def outerContext : RequestContext Unit where
  request := makeQuery 3 hostName RdataType.A RdataClass.IN
  clientaddr := ""
  listenerName := ""
  requestId := 3
  extensions := ()

/-- In the process the rrset is `None`, through the master it is the alias. -/
theorem workerResolve_falls_back :
    mkAnswer 0 hostName RdataType.A RdataClass.IN (hostReply [hostAlias]) = .ok aliasAnswer ∧
      ¬ Agrees (resolveNested aliasWorld 1 outerContext "h" "A")
        (workerResolve directCodec aliasWorld 0 2 3 "" outerContext "h" "A") := by
  have hchain : resolveChaining (hostReply [hostAlias]) = .ok ⟨otherName,none,60,[hostAlias]⟩ := by
    decide
  refine ⟨mkAnswer_ok.mpr ⟨_,hchain,by simp [aliasAnswer]⟩,fun h => ?_⟩
  have hsame : some hostAlias = none := h.1
  contradiction

end SmartDns
