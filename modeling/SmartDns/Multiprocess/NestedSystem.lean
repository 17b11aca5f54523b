import SmartDns.Core.DomainSet
import SmartDns.Multiprocess.NestedResolve
import SmartDns.Pipeline.Trace
set_option autoImplicit false

/-!
`context.resolve` in a running system: contexts that plugins' code works on, in one process or
with the outer ones in workers and the nested ones in the master. The code of a hook or a
resolver is any program that may resolve, and each of its turns is one step. A dispatch is
given by the resolvers it starts; it has a result once one of them has, and leaves the others
to run on, where the code may cancel them.
-/

namespace SmartDns

/-- `str.lower` and `str.upper`. -/
structure Casing where
  lower : List Char → List Char
  upper : List Char → List Char

/-- The texts that `RequestContext.resolve` passes to its handler. -/
def normalizedSignature (casing : Casing) (qname qtype : String) :
    Except PyException (String × String) :=
  let normalizedQname := casing.lower (PyText.rstripBy isDot (PyText.strip qname.toList))
  if normalizedQname = [] then .error (.valueError "qname 不能为空")
  else
    let normalizedQtype := casing.upper (PyText.strip qtype.toList)
    if normalizedQtype = [] then .error (.valueError "qtype 不能为空")
    else .ok (String.ofList normalizedQname,String.ofList normalizedQtype)

/-- `WorkerNestedResolver.resolve` after `response_timeout`. -/
def responseTimeout : PyException := .timeoutError "nested resolve timeout"

namespace NestedSystem

/-- What the code of a plugin does next. It may edit its context, and goes on from what it
reads there; what it starts beside itself is a task of its own. -/
inductive Program (E : Type) where
  | finish (outcome : Except PyException UpstreamResult)
  | edit (f : RequestContext E → RequestContext E) (next : RequestContext E → Program E)
  | resolve (qname qtype : String) (next : Except PyException Answer → Program E)

/-- A task runs, or waits for a nested context of its process, or for the reply to a message;
`asked` is the request it has built. -/
inductive Status where
  | running
  | here (child : Nat)
  | away (message : Nat) (asked : Message)

/-- A hook, or a resolver under the name of its upstream, at work on a context. -/
structure Task (E : Type) where
  target : String
  context : Nat
  code : Program E
  status : Status := .running

structure Site (E : Type) where
  context : RequestContext E
  inWorker : Bool := false

/-- A message to the master, and what came of it. -/
inductive Sent where
  | queued (request : ResolveRequest)
  | served (child : Nat)
  | refused (exc : PyException)

end NestedSystem

structure NestedSystem (E : Type) where
  sites : List (NestedSystem.Site E)
  tasks : List (NestedSystem.Task E)
  sent : List NestedSystem.Sent := []

namespace NestedSystem

/-- One turn. What is not determined by the code (ids, clocks, the resolvers that a selected
group stands for) comes with it. -/
inductive Label (E : Type) where
  | edit (task : Nat)
  | call (task : Nat) (id : UInt16) (resolveId : String) (started : List (String × Program E))
  | serve (message : Nat) (id : UInt16) (started : List (String × Program E))
  | refuse (task : Nat)
  | giveBack (task leaf : Nat) (now : ℚ)
  | timeout (task : Nat)

section
variable {E W : Type} (codec : Codec W) (world : NestedWorld) (casing : Casing)
  (engine : PipelineEngine E Unit) (masterExtensions : E)

/-- An edit does not reach the chain, which plugins have no name for. -/
def editSite (f : RequestContext E → RequestContext E) (site : Site E) : Site E :=
  { site with context := { f site.context with
      nestedResolveChain := site.context.nestedResolveChain
      nestedResolveMaxDepth := site.context.nestedResolveMaxDepth } }

/-- `_dispatch_context` up to the start of the resolvers. -/
def startDispatch (context : RequestContext E) : Except PyException (RequestContext E) :=
  let run := selectGroup engine { context, services := () }
  run.1.map fun _ => run.2.context

/-- The nested context of `_resolve_nested` and `resolve_nested_query`. -/
def openNested (extensions : E) (id : UInt16) (clientaddr listenerName qname qtype : String)
    (nestedResolveChain : List (String × String)) : Except PyException (RequestContext E) := do
  let nestedRequest ← makeNestedRequest world id qname qtype
  startDispatch engine (buildContext extensions nestedRequest clientaddr listenerName
    nestedResolveChain)

inductive Opening (E : Type) where
  | here (context : RequestContext E)
  | away (asked : Message) (request : ResolveRequest)

/-- `context.resolve` up to its first wait: the nested context, or the message for it. -/
def beginCall (site : Site E) (id : UInt16) (resolveId qname qtype : String) :
    Except PyException (Opening E) := do
  let (qname,qtype) ← normalizedSignature casing qname qtype
  checkRecursion site.context qname qtype
  let chain := extendedChain site.context qname qtype
  if site.inWorker then
    let asked ← makeNestedRequest world id qname qtype
    pure (.away asked
      { resolveId, qname, qtype, clientaddr := site.context.clientaddr
        listenerName := site.context.listenerName, nestedResolveChain := chain })
  else
    let context ← openNested world engine site.context.extensions id site.context.clientaddr
      site.context.listenerName qname qtype chain
    pure (.here context)

variable (s : NestedSystem E)

/-- The call that the task waits for returns or raises. -/
def resume (t : Nat) (task : Task E) (code : Program E) : NestedSystem E :=
  { s with tasks := s.tasks.set t { task with code, status := .running } }

/-- A nested context with the resolvers that its dispatch starts; every group has one. -/
def enter (context : RequestContext E) (started : List (String × Program E)) :
    Option (NestedSystem E) :=
  if started = [] then none
  else some { s with
    sites := s.sites ++ [⟨context,false⟩]
    tasks := s.tasks ++ started.map fun r => ⟨r.1,s.sites.length,r.2,.running⟩ }

/-- `dispatch_target` on what a resolver returns or raises. -/
def targetResult (context : RequestContext E) (target : String) :
    Except PyException UpstreamResult → UpstreamResult
  | .ok result => inheritRequestTags result context.tags
  | .error exc =>
    { upstreamName := target, durationMs := 0, error := some exc, tags := context.tags }

/-- What a waiting call makes of the result of its dispatch. -/
def delivered (now : ℚ) (result : UpstreamResult) : Status → Except PyException Answer
  | .away _ asked =>
    carried codec now asked (answerFromNestedResult result >>= sendAnswer codec now)
  | _ => answerFromNestedResult result

/-- The nested context that a task waits for. -/
def childOf : Status → Option Nat
  | .running => none
  | .here child => some child
  | .away k _ =>
    match s.sent[k]? with
    | some (.served child) => some child
    | _ => none

def callStep (t : Nat) (id : UInt16) (resolveId : String) (started : List (String × Program E))
    (task : Task E) (site : Site E) (qname qtype : String)
    (next : Except PyException Answer → Program E) : Option (NestedSystem E) :=
  match beginCall world casing engine site id resolveId qname qtype with
  | .error exc => some (s.resume t task (next (.error exc)))
  | .ok (.here context) =>
    { s with tasks := s.tasks.set t { task with status := .here s.sites.length } }.enter
      context started
  | .ok (.away asked request) => some
    { s with
      tasks := s.tasks.set t { task with status := .away s.sent.length asked }
      sent := s.sent ++ [.queued request] }

def serveStep (k : Nat) (id : UInt16) (started : List (String × Program E))
    (request : ResolveRequest) : Option (NestedSystem E) :=
  match openNested world engine masterExtensions id request.clientaddr request.listenerName
      request.qname request.qtype request.nestedResolveChain with
  | .error exc => some { s with sent := s.sent.set k (.refused exc) }
  | .ok context => { s with sent := s.sent.set k (.served s.sites.length) }.enter context started

def giveBackStep (t : Nat) (now : ℚ) (task leaf : Task E) (site : Site E) (child : Nat)
    (next : Except PyException Answer → Program E) (outcome : Except PyException UpstreamResult) :
    NestedSystem E :=
  let result := targetResult site.context leaf.target outcome
  let noted := { site with context :=
    { site.context with upstreamResults := site.context.upstreamResults ++ [result] } }
  { s with sites := s.sites.set child noted }.resume t task
    (next (delivered codec now result task.status))

def step : Label E → Option (NestedSystem E)
  | .edit t => do
    let task ← s.tasks[t]?
    let site ← s.sites[task.context]?
    match task.code with
    | .edit f next =>
      some ({ s with sites := s.sites.set task.context (editSite f site) }.resume t task
        (next (editSite f site).context))
    | _ => none
  | .call t id resolveId started => do
    let task ← s.tasks[t]?
    let site ← s.sites[task.context]?
    match task.status,task.code with
    | .running,.resolve qname qtype next =>
      s.callStep world casing engine t id resolveId started task site qname qtype next
    | _,_ => none
  | .serve k id started =>
    match s.sent[k]? with
    | some (.queued request) => s.serveStep world engine masterExtensions k id started request
    | _ => none
  | .refuse t => do
    let task ← s.tasks[t]?
    match task.status,task.code with
    | .away k _,.resolve _ _ next =>
      match s.sent[k]? with
      | some (.refused exc) => some (s.resume t task
          (next (.error (deserializeResolveError (serializeResolveErrorType exc) exc.message))))
      | _ => none
    | _,_ => none
  | .giveBack t u now => do
    let task ← s.tasks[t]?
    let leaf ← s.tasks[u]?
    let child ← s.childOf task.status
    let site ← s.sites[child]?
    match task.code,leaf.code with
    | .resolve _ _ next,.finish outcome =>
      if leaf.context = child then
        some (s.giveBackStep codec t now task leaf site child next outcome)
      else none
    | _,_ => none
  | .timeout t => do
    let task ← s.tasks[t]?
    match task.status,task.code with
    | .away _ _,.resolve _ _ next => some (s.resume t task (next (.error responseTimeout)))
    | _,_ => none

end

/-- A request that a server has taken, with the code of its hooks and resolvers. -/
structure Arrival (E : Type) where
  request : Message
  clientaddr : String := ""
  listenerName : String := ""
  extensions : E
  inWorker : Bool := false
  plugins : List (String × Program E)

/-- The outer contexts, before any of their plugins has run. -/
def init {E : Type} (arrivals : List (Arrival E)) : NestedSystem E where
  sites := arrivals.map fun a =>
    ⟨buildContext a.extensions a.request a.clientaddr a.listenerName [],a.inWorker⟩
  tasks := arrivals.zipIdx.flatMap fun x => x.1.plugins.map fun r => ⟨r.1,x.2,r.2,.running⟩

/-! ### The chains of all contexts -/

/-- A chain of distinct signatures as `context.resolve` makes them, no longer than allowed. -/
structure Bounded (casing : Casing) (chain : List (String × String)) : Prop where
  distinct : chain.Nodup
  short : chain.length ≤ maxNestedResolveDepth
  normalised : ∀ signature ∈ chain, ∃ qname qtype,
    normalizedSignature casing qname qtype = .ok signature

section
variable {E W : Type}

/-- The chain of the context at an address. -/
def chainAt (s : NestedSystem E) (i : Nat) : List (String × String) :=
  (s.sites[i]?.map fun site => site.context.nestedResolveChain).getD []

/-- A context that is nested in another, with a resolver at work for it. -/
structure Below (s : NestedSystem E) (i child : Nat) : Prop where
  exists' : child < s.sites.length
  longer : (s.chainAt i).length < (s.chainAt child).length
  leaf : ∃ leaf ∈ s.tasks, leaf.context = child

/-- What a message that a task at `i` waits for has come to. -/
def Reply (s : NestedSystem E) (i : Nat) : Sent → Prop
  | .queued request => (s.chainAt i).length < request.nestedResolveChain.length
  | .served child => s.Below i child
  | .refused _ => True

/-- A task that waits is at a call, and the call comes to something. -/
def Waits (s : NestedSystem E) (task : Task E) : Prop :=
  match task.status with
  | .running => True
  | .here child => (∃ qname qtype next, task.code = .resolve qname qtype next) ∧
      s.Below task.context child
  | .away k _ => (∃ qname qtype next, task.code = .resolve qname qtype next) ∧
      ∃ sent, s.sent[k]? = some sent ∧ s.Reply task.context sent

structure Inv (casing : Casing) (s : NestedSystem E) : Prop where
  sites : ∀ site ∈ s.sites, Bounded casing site.context.nestedResolveChain ∧
    site.context.nestedResolveMaxDepth = maxNestedResolveDepth
  homes : ∀ task ∈ s.tasks, task.context < s.sites.length
  queued : ∀ request, .queued request ∈ s.sent → Bounded casing request.nestedResolveChain
  waits : ∀ task ∈ s.tasks, s.Waits task

/-- What every step keeps of the tasks, the contexts and the messages. -/
structure Grows (s s' : NestedSystem E) : Prop where
  chains : ∀ i < s.sites.length, i < s'.sites.length ∧ s'.chainAt i = s.chainAt i
  tasks : ∀ task ∈ s.tasks, ∃ task' ∈ s'.tasks, task'.context = task.context
  sent : ∀ (k : Nat) (sent : Sent) (i : Nat), s.sent[k]? = some sent → i < s.sites.length →
    s.Reply i sent →
      ∃ sent', s'.sent[k]? = some sent' ∧ s'.Reply i sent'

variable {s s' : NestedSystem E} {casing : Casing}

theorem Below.grows {i child : Nat} (h : s.Below i child) (hi : i < s.sites.length)
    (hchains : ∀ i < s.sites.length, i < s'.sites.length ∧ s'.chainAt i = s.chainAt i)
    (htasks : ∀ task ∈ s.tasks, ∃ task' ∈ s'.tasks, task'.context = task.context) :
    s'.Below i child := by
  obtain ⟨hchild,hlonger,leaf,hleaf,hcontext⟩ := h
  obtain ⟨leaf',hleaf',hcontext'⟩ := htasks leaf hleaf
  refine ⟨(hchains child hchild).1,?_,leaf',hleaf',hcontext'.trans hcontext⟩
  rw [(hchains child hchild).2,(hchains i hi).2]
  exact hlonger

/-- A message that nothing happened to is still on its way, or answered as before. -/
theorem Reply.grows {i : Nat} {sent : Sent} (h : s.Reply i sent) (hi : i < s.sites.length)
    (hchains : ∀ i < s.sites.length, i < s'.sites.length ∧ s'.chainAt i = s.chainAt i)
    (htasks : ∀ task ∈ s.tasks, ∃ task' ∈ s'.tasks, task'.context = task.context) :
    s'.Reply i sent := by
  cases sent with
  | queued request =>
    change (s'.chainAt i).length < _
    rw [(hchains i hi).2]
    exact h
  | served child => exact Below.grows h hi hchains htasks
  | refused exc => trivial

theorem Waits.grows {task : Task E} (h : s.Waits task) (hgrows : s.Grows s')
    (hhome : task.context < s.sites.length) : s'.Waits task := by
  unfold Waits at h ⊢
  cases hstatus : task.status with
  | running => trivial
  | here child =>
    rw [hstatus] at h
    exact ⟨h.1,h.2.grows hhome hgrows.chains hgrows.tasks⟩
  | away k asked =>
    rw [hstatus] at h
    obtain ⟨hcode,sent,hsent,hreply⟩ := h
    exact ⟨hcode,hgrows.sent k sent task.context hsent hhome hreply⟩

theorem chainAt_append (s : NestedSystem E) (site : Site E) (tasks : List (Task E))
    (sent : List Sent) (i : Nat) (h : i < s.sites.length) :
    chainAt ⟨s.sites ++ [site],tasks,sent⟩ i = s.chainAt i := by
  simp [chainAt,List.getElem?_append_left h]

/-- A context that is edited, or that takes a result, keeps its chain. -/
theorem chainAt_set {site site' : Site E} {k : Nat} (hsite : s.sites[k]? = some site)
    (hchain : site'.context.nestedResolveChain = site.context.nestedResolveChain)
    (tasks : List (Task E)) (sent : List Sent) (i : Nat) :
    chainAt ⟨s.sites.set k site',tasks,sent⟩ i = s.chainAt i := by
  unfold chainAt
  rw [List.getElem?_set]
  split
  · rename_i hki
    have hk : k < s.sites.length := (List.getElem?_eq_some_iff.mp hsite).1
    rw [if_pos hk,← hki,hsite]
    simp [hchain]
  · rfl

theorem Inv.changed (h : Inv casing s) (hgrows : s.Grows s')
    (hsites : ∀ site ∈ s'.sites, Bounded casing site.context.nestedResolveChain ∧
      site.context.nestedResolveMaxDepth = maxNestedResolveDepth)
    (hqueued : ∀ request, .queued request ∈ s'.sent → Bounded casing request.nestedResolveChain)
    (htasks : ∀ task ∈ s'.tasks, task ∈ s.tasks ∨
      task.context < s'.sites.length ∧ s'.Waits task) : Inv casing s' where
  sites := hsites
  queued := hqueued
  homes task htask := by
    cases htasks task htask with
    | inl hold => exact (hgrows.chains task.context (h.homes task hold)).1
    | inr hnew => exact hnew.1
  waits task htask := by
    cases htasks task htask with
    | inl hold => exact (h.waits task hold).grows hgrows (h.homes task hold)
    | inr hnew => exact hnew.2

/-- The tasks after one of them has moved on and others have been started. -/
theorem tasks_set {tasks : List (Task E)} {t : Nat} {task : Task E} (htask : tasks[t]? = some task)
    (task' : Task E) (hcontext : task'.context = task.context)
    (started : List (Task E)) :
    ∀ x ∈ tasks, ∃ x' ∈ tasks.set t task' ++ started, x'.context = x.context := by
  intro x hx
  obtain ⟨l,r,hsplit,hset⟩ := ForkJoin.split_at htask
  rw [hset]
  rw [hsplit] at hx
  simp only [List.mem_append,List.mem_cons] at hx
  obtain hx | rfl | hx := hx
  · exact ⟨x,by simp [hx],rfl⟩
  · exact ⟨task',by simp,hcontext⟩
  · exact ⟨x,by simp [hx],rfl⟩

theorem mem_tasks_set {tasks : List (Task E)} {t : Nat} {task' x : Task E}
    (hx : x ∈ tasks.set t task') : x ∈ tasks ∨ x = task' :=
  List.mem_or_eq_of_mem_set hx

theorem grows_of_sent
    (hchains : ∀ i < s.sites.length, i < s'.sites.length ∧ s'.chainAt i = s.chainAt i)
    (htasks : ∀ task ∈ s.tasks, ∃ task' ∈ s'.tasks, task'.context = task.context)
    (hsent : s.sent <+: s'.sent) : s.Grows s' where
  chains := hchains
  tasks := htasks
  sent k sent i hk hi hreply := by
    obtain ⟨rest,hrest⟩ := hsent
    refine ⟨sent,?_,Reply.grows hreply hi hchains htasks⟩
    rw [← hrest,List.getElem?_append_left (List.getElem?_eq_some_iff.mp hk).1,hk]

/-- A task runs on, and its context or that of its call may be another with the same chain. -/
theorem Inv.resumed (h : Inv casing s) {t : Nat} {task : Task E} (htask : s.tasks[t]? = some task)
    (code : Program E) {k : Nat} {site : Site E} (site' : Site E) (hsite : s.sites[k]? = some site)
    (hchain : site'.context.nestedResolveChain = site.context.nestedResolveChain)
    (hdepth : site'.context.nestedResolveMaxDepth = site.context.nestedResolveMaxDepth) :
    Inv casing ({ s with sites := s.sites.set k site' }.resume t task code) := by
  have hmem : task ∈ s.tasks := List.mem_of_getElem? htask
  have hgrows : s.Grows ({ s with sites := s.sites.set k site' }.resume t task code) := by
    refine grows_of_sent ?_ ?_ List.prefix_rfl
    · intro i hi
      exact ⟨by simpa [resume] using hi,chainAt_set hsite hchain _ _ i⟩
    · have hset := tasks_set htask { task with code, status := .running } rfl []
      simpa [resume] using hset
  refine h.changed hgrows ?_ h.queued ?_
  · intro x hx
    cases List.mem_or_eq_of_mem_set hx with
    | inl hx => exact h.sites x hx
    | inr hx =>
      rw [hx,hchain,hdepth]
      exact h.sites site (List.mem_of_getElem? hsite)
  · intro x hx
    refine (mem_tasks_set hx).imp_right fun hx => ?_
    rw [hx]
    exact ⟨by simpa [resume] using h.homes task hmem,trivial⟩

theorem Inv.resume (h : Inv casing s) {t : Nat} {task : Task E} (htask : s.tasks[t]? = some task)
    (code : Program E) : Inv casing (s.resume t task code) := by
  have hhome := h.homes task (List.mem_of_getElem? htask)
  obtain ⟨site,hsite⟩ : ∃ site, s.sites[task.context]? = some site :=
    ⟨_,List.getElem?_eq_getElem hhome⟩
  have hresumed := h.resumed htask code site hsite rfl rfl
  have hsame : s.sites.set task.context site = s.sites := by
    obtain ⟨_,rfl⟩ := List.getElem?_eq_some_iff.mp hsite
    exact List.set_getElem_self hhome
  rwa [hsame] at hresumed

end

/-! ### Opening a nested context -/

section
variable {E W : Type} {world : NestedWorld} {casing : Casing} {engine : PipelineEngine E Unit}
  {s s' : NestedSystem E}

theorem makeNestedRequest_question {id : UInt16} {qname qtype : String} {request : Message}
    (h : makeNestedRequest world id qname qtype = .ok request) : request.question ≠ [] := by
  obtain ⟨name,_,h⟩ := Exec.except_bind_eq_ok.mp h
  obtain ⟨rdtype,_,h⟩ := Exec.except_bind_eq_ok.mp h
  cases h
  simp [makeQuery]

/-- A dispatch starts on a context with a question, whose chain it leaves alone. -/
theorem startDispatch_ok (engine : PipelineEngine E Unit) (context : RequestContext E)
    (h : context.request.question ≠ []) :
    ∃ started, startDispatch engine context = .ok started ∧
      started.nestedResolveChain = context.nestedResolveChain ∧
      started.nestedResolveMaxDepth = context.nestedResolveMaxDepth := by
  unfold startDispatch
  obtain ⟨hnone,_⟩ | ⟨_,g,strategy,s',hrun,_,_,rule,group,dispatcher,hcontext⟩ :=
    selectGroup_run engine { context, services := () }
  · exact absurd hnone h
  · rw [hrun]
    refine ⟨s'.context,rfl,?_,?_⟩
    · rw [hcontext]
    · rw [hcontext]

theorem openNested_cases (world : NestedWorld) (engine : PipelineEngine E Unit) (extensions : E)
    (id : UInt16) (clientaddr listenerName qname qtype : String) (chain : List (String × String)) :
    (∃ e, openNested world engine extensions id clientaddr listenerName qname qtype chain =
        .error e ∧ makeNestedRequest world id qname qtype = .error e) ∨
      ∃ context, openNested world engine extensions id clientaddr listenerName qname qtype chain =
        .ok context ∧ context.nestedResolveChain = chain ∧
          context.nestedResolveMaxDepth = maxNestedResolveDepth := by
  unfold openNested
  cases hrequest : makeNestedRequest world id qname qtype with
  | error e => exact .inl ⟨e,rfl,rfl⟩
  | ok request =>
    obtain ⟨context,hstart,hchain,hdepth⟩ := startDispatch_ok engine
      (buildContext extensions request clientaddr listenerName chain)
      (makeNestedRequest_question hrequest)
    exact .inr ⟨context,hstart,hchain,hdepth⟩

theorem openNested_chain {extensions : E} {id : UInt16}
    {clientaddr listenerName qname qtype : String} {chain : List (String × String)}
    {context : RequestContext E}
    (h : openNested world engine extensions id clientaddr listenerName qname qtype chain =
      .ok context) :
    context.nestedResolveChain = chain ∧ context.nestedResolveMaxDepth = maxNestedResolveDepth := by
  obtain ⟨e,herror,_⟩ | ⟨context',hopen,hchain,hdepth⟩ :=
    openNested_cases world engine extensions id clientaddr listenerName qname qtype chain
  · rw [herror] at h
    contradiction
  · rw [hopen] at h
    cases h
    exact ⟨hchain,hdepth⟩

theorem checkRecursion_ok {context : RequestContext E} {qname qtype : String} :
    checkRecursion context qname qtype = .ok () ↔
      (qname,qtype) ∉ context.nestedResolveChain ∧
        context.nestedResolveChain.length < context.nestedResolveMaxDepth := by
  unfold checkRecursion
  split
  · rename_i hmem
    simp [hmem]
  · rename_i hmem
    split
    · rename_i hdeep
      simp [hmem]
      omega
    · rename_i hdeep
      simp [hmem]
      omega

theorem checkRecursion_error {context : RequestContext E} {qname qtype : String} {e : PyException}
    (h : checkRecursion context qname qtype = .error e) :
    ∃ message, e = .nestedResolveRecursion message := by
  unfold checkRecursion at h
  split at h
  · cases h
    exact ⟨_,rfl⟩
  · split at h
    · cases h
      exact ⟨_,rfl⟩
    · contradiction

/-- What `context.resolve` has found out before it opens anything. -/
structure Admits (casing : Casing) (site : Site E) (qname qtype : String)
    (signature : String × String) : Prop where
  normalised : normalizedSignature casing qname qtype = .ok signature
  fresh : signature ∉ site.context.nestedResolveChain
  short : site.context.nestedResolveChain.length < site.context.nestedResolveMaxDepth

/-- The ways a call can begin: it is rejected, or opens a context with the chain extended by
its signature, in the process or by a message. -/
theorem beginCall_cases (world : NestedWorld) (casing : Casing) (engine : PipelineEngine E Unit)
    (site : Site E) (id : UInt16) (resolveId qname qtype : String) :
    (∃ e, beginCall world casing engine site id resolveId qname qtype = .error e ∧
      (normalizedSignature casing qname qtype = .error e ∨
        (∃ message, e = .nestedResolveRecursion message) ∨
          ∃ q t, makeNestedRequest world id q t = .error e)) ∨
    ∃ signature, Admits casing site qname qtype signature ∧
      ((site.inWorker = false ∧ ∃ context,
        beginCall world casing engine site id resolveId qname qtype = .ok (.here context) ∧
          context.nestedResolveChain = site.context.nestedResolveChain ++ [signature] ∧
          context.nestedResolveMaxDepth = maxNestedResolveDepth) ∨
      (site.inWorker = true ∧ ∃ asked request,
        beginCall world casing engine site id resolveId qname qtype = .ok (.away asked request) ∧
          request.nestedResolveChain = site.context.nestedResolveChain ++ [signature])) := by
  unfold beginCall
  cases hsignature : normalizedSignature casing qname qtype with
  | error e => exact .inl ⟨e,rfl,.inl rfl⟩
  | ok signature =>
    obtain ⟨q,t⟩ := signature
    simp only [bind,Except.bind]
    cases hcheck : checkRecursion site.context q t with
    | error e => exact .inl ⟨e,rfl,.inr (.inl (checkRecursion_error hcheck))⟩
    | ok _ =>
      obtain ⟨hfresh,hshort⟩ := checkRecursion_ok.mp hcheck
      cases hworker : site.inWorker with
      | true =>
        cases hrequest : makeNestedRequest world id q t with
        | error e => exact .inl ⟨e,rfl,.inr (.inr ⟨q,t,hrequest⟩)⟩
        | ok asked =>
          exact .inr ⟨(q,t),⟨hsignature,hfresh,hshort⟩,.inr ⟨rfl,asked,_,rfl,rfl⟩⟩
      | false =>
        obtain ⟨e,hopen,hrequest⟩ | ⟨context,hopen,hchain,hdepth⟩ :=
          openNested_cases world engine site.context.extensions id site.context.clientaddr
            site.context.listenerName q t (extendedChain site.context q t)
        · simp only [hopen]
          exact .inl ⟨e,rfl,.inr (.inr ⟨q,t,hrequest⟩)⟩
        · simp only [hopen]
          exact .inr ⟨(q,t),⟨hsignature,hfresh,hshort⟩,.inl ⟨trivial,context,rfl,hchain,hdepth⟩⟩

theorem beginCall_here {site : Site E} {id : UInt16} {resolveId qname qtype : String}
    {context : RequestContext E}
    (h : beginCall world casing engine site id resolveId qname qtype = .ok (.here context)) :
    ∃ signature, Admits casing site qname qtype signature ∧
      context.nestedResolveChain = site.context.nestedResolveChain ++ [signature] ∧
      context.nestedResolveMaxDepth = maxNestedResolveDepth := by
  obtain ⟨e,herror,_⟩ | ⟨signature,hadmits,hopening⟩ :=
    beginCall_cases world casing engine site id resolveId qname qtype
  · rw [herror] at h
    contradiction
  · obtain ⟨_,context',hhere,hchain,hdepth⟩ | ⟨_,asked,request,haway,_⟩ := hopening
    · rw [hhere] at h
      cases h
      exact ⟨signature,hadmits,hchain,hdepth⟩
    · rw [haway] at h
      cases h

theorem beginCall_away {site : Site E} {id : UInt16} {resolveId qname qtype : String}
    {asked : Message} {request : ResolveRequest}
    (h : beginCall world casing engine site id resolveId qname qtype =
      .ok (.away asked request)) :
    ∃ signature, Admits casing site qname qtype signature ∧ site.inWorker = true ∧
      request.nestedResolveChain = site.context.nestedResolveChain ++ [signature] := by
  obtain ⟨e,herror,_⟩ | ⟨signature,hadmits,hopening⟩ :=
    beginCall_cases world casing engine site id resolveId qname qtype
  · rw [herror] at h
    contradiction
  · obtain ⟨_,context,hhere,_⟩ | ⟨hworker,asked',request',haway,hchain⟩ := hopening
    · rw [hhere] at h
      cases h
    · rw [haway] at h
      cases h
      exact ⟨signature,hadmits,hworker,hchain⟩

/-- The chain of a nested context is bounded if that of the outer one is. -/
theorem Bounded.extended {site : Site E} {qname qtype : String} {signature : String × String}
    (h : Bounded casing site.context.nestedResolveChain)
    (hdepth : site.context.nestedResolveMaxDepth = maxNestedResolveDepth)
    (hadmits : Admits casing site qname qtype signature) :
    Bounded casing (site.context.nestedResolveChain ++ [signature]) where
  distinct := by
    refine List.nodup_append.mpr ⟨h.distinct,List.nodup_singleton _,?_⟩
    intro a ha b hb heq
    rw [List.mem_singleton.mp hb] at heq
    rw [heq] at ha
    exact hadmits.fresh ha
  short := by
    have hshort := hadmits.short
    rw [hdepth] at hshort
    rw [List.length_append,List.length_singleton]
    omega
  normalised x hx := by
    cases List.mem_append.mp hx with
    | inl hx => exact h.normalised x hx
    | inr hx =>
      rw [List.mem_singleton.mp hx]
      exact ⟨qname,qtype,hadmits.normalised⟩

theorem enter_eq_some {context : RequestContext E} {started : List (String × Program E)} :
    s.enter context started = some s' ↔
      started ≠ [] ∧ s' =
        { s with
          sites := s.sites ++ [⟨context,false⟩]
          tasks := s.tasks ++ started.map fun r => ⟨r.1,s.sites.length,r.2,.running⟩ } := by
  unfold enter
  split
  · rename_i hnone
    simp [hnone]
  · rename_i hsome
    simp [hsome,eq_comm]

theorem chainAt_last (s : NestedSystem E) (context : RequestContext E) (tasks : List (Task E))
    (sent : List Sent) :
    chainAt ⟨s.sites ++ [⟨context,false⟩],tasks,sent⟩ s.sites.length =
      context.nestedResolveChain := by
  simp [chainAt]

theorem chainAt_some {i : Nat} {site : Site E} (h : s.sites[i]? = some site) :
    s.chainAt i = site.context.nestedResolveChain := by
  simp [chainAt,h]

/-- A call that opens a context in its own process. -/
theorem Inv.opened (h : Inv casing s) {t : Nat} {task : Task E} {site : Site E}
    {context : RequestContext E} {started : List (String × Program E)}
    {signature : String × String} (htask : s.tasks[t]? = some task)
    (hsite : s.sites[task.context]? = some site)
    (hcode : ∃ qname qtype next, task.code = .resolve qname qtype next)
    (hchain : context.nestedResolveChain = site.context.nestedResolveChain ++ [signature])
    (hbounded : Bounded casing context.nestedResolveChain)
    (hdepth : context.nestedResolveMaxDepth = maxNestedResolveDepth)
    (hstep : { s with tasks := s.tasks.set t { task with status := .here s.sites.length } }.enter
      context started = some s') : Inv casing s' := by
  obtain ⟨hstarted,rfl⟩ := enter_eq_some.mp hstep
  have hhome := h.homes task (List.mem_of_getElem? htask)
  obtain ⟨r,started,rfl⟩ := List.exists_cons_of_ne_nil hstarted
  refine h.changed (grows_of_sent ?_ ?_ List.prefix_rfl) ?_ h.queued ?_
  · intro i hi
    exact ⟨by simp only [List.length_append]; omega,chainAt_append s _ _ _ i hi⟩
  · exact tasks_set htask { task with status := .here s.sites.length } rfl _
  · intro x hx
    cases List.mem_append.mp hx with
    | inl hx => exact h.sites x hx
    | inr hx =>
      rw [List.mem_singleton.mp hx]
      exact ⟨hbounded,hdepth⟩
  · intro x hx
    cases List.mem_append.mp hx with
    | inl hx =>
      refine (mem_tasks_set hx).imp_right fun hx => ?_
      rw [hx]
      refine ⟨by simp only [List.length_append]; omega,hcode,by simp,?_,?_⟩
      · rw [chainAt_append s _ _ _ _ hhome,chainAt_some hsite,chainAt_last,hchain]
        simp
      · exact ⟨⟨r.1,s.sites.length,r.2,.running⟩,by simp,rfl⟩
    | inr hx =>
      obtain ⟨x',_,rfl⟩ := List.mem_map.mp hx
      exact .inr ⟨by simp,trivial⟩

/-- A call that sends a message. -/
theorem Inv.asked (h : Inv casing s) {t : Nat} {task : Task E} {site : Site E}
    {asked : Message} {request : ResolveRequest} {signature : String × String}
    (htask : s.tasks[t]? = some task) (hsite : s.sites[task.context]? = some site)
    (hcode : ∃ qname qtype next, task.code = .resolve qname qtype next)
    (hchain : request.nestedResolveChain = site.context.nestedResolveChain ++ [signature])
    (hbounded : Bounded casing request.nestedResolveChain) :
    Inv casing { s with
      tasks := s.tasks.set t { task with status := .away s.sent.length asked }
      sent := s.sent ++ [.queued request] } := by
  have hhome := h.homes task (List.mem_of_getElem? htask)
  refine h.changed (grows_of_sent (fun i hi => ⟨hi,rfl⟩) ?_ (List.prefix_append _ _)) h.sites ?_ ?_
  · have hset := tasks_set htask { task with status := .away s.sent.length asked } rfl []
    simpa using hset
  · intro other hother
    cases List.mem_append.mp hother with
    | inl hold => exact h.queued other hold
    | inr hnew =>
      cases List.mem_singleton.mp hnew
      exact hbounded
  · intro x hx
    refine (mem_tasks_set hx).imp_right fun hx => ?_
    rw [hx]
    refine ⟨hhome,hcode,.queued request,by simp,?_⟩
    change (s.chainAt task.context).length < _
    rw [chainAt_some hsite,hchain]
    simp

/-- The master serves a message, with the chain that it brings. -/
theorem Inv.served (h : Inv casing s) {k : Nat} {request : ResolveRequest}
    {context : RequestContext E} {started : List (String × Program E)}
    (hqueued : s.sent[k]? = some (.queued request))
    (hchain : context.nestedResolveChain = request.nestedResolveChain)
    (hdepth : context.nestedResolveMaxDepth = maxNestedResolveDepth)
    (hstep : { s with sent := s.sent.set k (.served s.sites.length) }.enter context started =
      some s') : Inv casing s' := by
  obtain ⟨hstarted,rfl⟩ := enter_eq_some.mp hstep
  obtain ⟨r,started,rfl⟩ := List.exists_cons_of_ne_nil hstarted
  have hk : k < s.sent.length := (List.getElem?_eq_some_iff.mp hqueued).1
  have hchains : ∀ i < s.sites.length, i < (s.sites ++ [(⟨context,false⟩ : Site E)]).length ∧
      chainAt ⟨s.sites ++ [⟨context,false⟩],s.tasks ++ (r :: started).map fun r =>
        ⟨r.1,s.sites.length,r.2,.running⟩,s.sent.set k (.served s.sites.length)⟩ i =
          s.chainAt i := by
    intro i hi
    exact ⟨by simp only [List.length_append]; omega,chainAt_append s _ _ _ i hi⟩
  have htasks : ∀ task ∈ s.tasks, ∃ task' ∈ s.tasks ++ (r :: started).map fun r =>
      (⟨r.1,s.sites.length,r.2,.running⟩ : Task E), task'.context = task.context :=
    fun task htask => ⟨task,List.mem_append_left _ htask,rfl⟩
  refine h.changed ⟨hchains,htasks,?_⟩ ?_ ?_ ?_
  · intro k' sent i hsent hi hreply
    by_cases hkk : k = k'
    · obtain rfl := hkk
      rw [hqueued] at hsent
      cases hsent
      refine ⟨.served s.sites.length,by simp [hk],by simp,?_,?_⟩
      · rw [(hchains i hi).2,chainAt_last,hchain]
        exact hreply
      · exact ⟨⟨r.1,s.sites.length,r.2,.running⟩,by simp,rfl⟩
    · exact ⟨sent,by rw [List.getElem?_set_ne hkk,hsent],
        Reply.grows hreply hi hchains htasks⟩
  · intro x hx
    cases List.mem_append.mp hx with
    | inl hx => exact h.sites x hx
    | inr hx =>
      rw [List.mem_singleton.mp hx]
      exact ⟨hchain ▸ h.queued request (List.mem_of_getElem? hqueued),hdepth⟩
  · intro other hother
    cases List.mem_or_eq_of_mem_set hother with
    | inl hold => exact h.queued other hold
    | inr hnew => cases hnew
  · intro x hx
    refine (List.mem_append.mp hx).imp_right fun hx => ?_
    obtain ⟨x',_,rfl⟩ := List.mem_map.mp hx
    exact ⟨by simp,trivial⟩

/-- The master cannot serve a message. -/
theorem Inv.refused (h : Inv casing s) {k : Nat} {request : ResolveRequest}
    (hqueued : s.sent[k]? = some (.queued request)) (exc : PyException) :
    Inv casing { s with sent := s.sent.set k (.refused exc) } := by
  have hk : k < s.sent.length := (List.getElem?_eq_some_iff.mp hqueued).1
  have htasks : ∀ task ∈ s.tasks, ∃ task' ∈ s.tasks, task'.context = task.context :=
    fun task htask => ⟨task,htask,rfl⟩
  refine h.changed ⟨fun i hi => ⟨hi,rfl⟩,htasks,?_⟩ h.sites ?_ fun _ htask => .inl htask
  · intro k' sent i hsent hi hreply
    by_cases hkk : k = k'
    · obtain rfl := hkk
      exact ⟨.refused exc,by simp [hk],trivial⟩
    · refine ⟨sent,by rw [List.getElem?_set_ne hkk,hsent],?_⟩
      exact Reply.grows hreply hi (fun i hi => ⟨hi,rfl⟩) htasks
  · intro other hother
    cases List.mem_or_eq_of_mem_set hother with
    | inl hold => exact h.queued other hold
    | inr hnew => cases hnew

end

/-! ### What one turn can do -/

section
variable {E W : Type} (codec : Codec W) (world : NestedWorld) (casing : Casing)
  (engine : PipelineEngine E Unit) (masterExtensions : E)

/-- The possible steps, one for each way a turn can go. -/
inductive Turn (s : NestedSystem E) : Label E → NestedSystem E → Prop where
  | edited {t : Nat} {task : Task E} {site : Site E} {f : RequestContext E → RequestContext E}
      {next : RequestContext E → Program E} (htask : s.tasks[t]? = some task)
      (hsite : s.sites[task.context]? = some site) (hcode : task.code = .edit f next) :
      Turn s (.edit t) ({ s with sites := s.sites.set task.context (editSite f site) }.resume t task
        (next (editSite f site).context))
  | rejected {t : Nat} {id : UInt16} {resolveId : String} {started : List (String × Program E)}
      {task : Task E} {site : Site E} {qname qtype : String}
      {next : Except PyException Answer → Program E} {exc : PyException}
      (htask : s.tasks[t]? = some task) (hsite : s.sites[task.context]? = some site)
      (hstatus : task.status = .running) (hcode : task.code = .resolve qname qtype next)
      (hbegin : beginCall world casing engine site id resolveId qname qtype = .error exc) :
      Turn s (.call t id resolveId started) (s.resume t task (next (.error exc)))
  | opened {t : Nat} {id : UInt16} {resolveId : String} {started : List (String × Program E)}
      {task : Task E} {site : Site E} {qname qtype : String}
      {next : Except PyException Answer → Program E} {context : RequestContext E}
      {s' : NestedSystem E} (htask : s.tasks[t]? = some task)
      (hsite : s.sites[task.context]? = some site) (hstatus : task.status = .running)
      (hcode : task.code = .resolve qname qtype next)
      (hbegin : beginCall world casing engine site id resolveId qname qtype = .ok (.here context))
      (henter : { s with tasks := s.tasks.set t { task with status := .here s.sites.length } }.enter
        context started = some s') :
      Turn s (.call t id resolveId started) s'
  | asked {t : Nat} {id : UInt16} {resolveId : String} {started : List (String × Program E)}
      {task : Task E} {site : Site E} {qname qtype : String}
      {next : Except PyException Answer → Program E} {asked : Message} {request : ResolveRequest}
      (htask : s.tasks[t]? = some task) (hsite : s.sites[task.context]? = some site)
      (hstatus : task.status = .running) (hcode : task.code = .resolve qname qtype next)
      (hbegin : beginCall world casing engine site id resolveId qname qtype =
        .ok (.away asked request)) :
      Turn s (.call t id resolveId started) { s with
        tasks := s.tasks.set t { task with status := .away s.sent.length asked }
        sent := s.sent ++ [.queued request] }
  | served {k : Nat} {id : UInt16} {started : List (String × Program E)} {request : ResolveRequest}
      {context : RequestContext E} {s' : NestedSystem E}
      (hsent : s.sent[k]? = some (.queued request))
      (hopen : openNested world engine masterExtensions id request.clientaddr request.listenerName
        request.qname request.qtype request.nestedResolveChain = .ok context)
      (henter : { s with sent := s.sent.set k (.served s.sites.length) }.enter context started =
        some s') :
      Turn s (.serve k id started) s'
  | unserved {k : Nat} {id : UInt16} {started : List (String × Program E)}
      {request : ResolveRequest} {exc : PyException} (hsent : s.sent[k]? = some (.queued request))
      (hopen : openNested world engine masterExtensions id request.clientaddr request.listenerName
        request.qname request.qtype request.nestedResolveChain = .error exc) :
      Turn s (.serve k id started) { s with sent := s.sent.set k (.refused exc) }
  | refused {t k : Nat} {task : Task E} {asked : Message} {qname qtype : String}
      {next : Except PyException Answer → Program E} {exc : PyException}
      (htask : s.tasks[t]? = some task) (hstatus : task.status = .away k asked)
      (hcode : task.code = .resolve qname qtype next) (hsent : s.sent[k]? = some (.refused exc)) :
      Turn s (.refuse t) (s.resume t task
        (next (.error (deserializeResolveError (serializeResolveErrorType exc) exc.message))))
  | gaveBack {t u child : Nat} {now : ℚ} {task leaf : Task E} {site : Site E}
      {qname qtype : String} {next : Except PyException Answer → Program E}
      {outcome : Except PyException UpstreamResult} (htask : s.tasks[t]? = some task)
      (hleaf : s.tasks[u]? = some leaf) (hchild : s.childOf task.status = some child)
      (hsite : s.sites[child]? = some site) (hcode : task.code = .resolve qname qtype next)
      (houtcome : leaf.code = .finish outcome) (hcontext : leaf.context = child) :
      Turn s (.giveBack t u now) (s.giveBackStep codec t now task leaf site child next outcome)
  | timedOut {t k : Nat} {task : Task E} {asked : Message} {qname qtype : String}
      {next : Except PyException Answer → Program E} (htask : s.tasks[t]? = some task)
      (hstatus : task.status = .away k asked) (hcode : task.code = .resolve qname qtype next) :
      Turn s (.timeout t) (s.resume t task (next (.error responseTimeout)))

variable {codec world casing engine masterExtensions} {s s' : NestedSystem E} {label : Label E}

theorem step_turn (h : s.step codec world casing engine masterExtensions label = some s') :
    Turn codec world casing engine masterExtensions s label s' := by
  cases label with
  | edit t =>
    obtain ⟨task,htask,h⟩ := Option.bind_eq_some_iff.mp h
    obtain ⟨site,hsite,h⟩ := Option.bind_eq_some_iff.mp h
    split at h
    · rename_i f next hcode
      cases h
      exact .edited htask hsite hcode
    · contradiction
  | call t id resolveId started =>
    obtain ⟨task,htask,h⟩ := Option.bind_eq_some_iff.mp h
    obtain ⟨site,hsite,h⟩ := Option.bind_eq_some_iff.mp h
    split at h
    · rename_i qname qtype next hstatus hcode
      unfold callStep at h
      split at h
      · rename_i exc hbegin
        cases h
        exact .rejected htask hsite hstatus hcode hbegin
      · rename_i context hbegin
        exact .opened htask hsite hstatus hcode hbegin h
      · rename_i asked request hbegin
        cases h
        exact .asked htask hsite hstatus hcode hbegin
    · contradiction
  | serve k id started =>
    simp only [step] at h
    split at h
    · rename_i request hsent
      unfold serveStep at h
      split at h
      · rename_i exc hopen
        cases h
        exact .unserved hsent hopen
      · rename_i context hopen
        exact .served hsent hopen h
    · contradiction
  | refuse t =>
    obtain ⟨task,htask,h⟩ := Option.bind_eq_some_iff.mp h
    split at h
    · rename_i k asked qname qtype next hstatus hcode
      split at h
      · rename_i exc hsent
        cases h
        exact .refused htask hstatus hcode hsent
      · contradiction
    · contradiction
  | giveBack t u now =>
    obtain ⟨task,htask,h⟩ := Option.bind_eq_some_iff.mp h
    obtain ⟨leaf,hleaf,h⟩ := Option.bind_eq_some_iff.mp h
    obtain ⟨child,hchild,h⟩ := Option.bind_eq_some_iff.mp h
    obtain ⟨site,hsite,h⟩ := Option.bind_eq_some_iff.mp h
    split at h
    · rename_i qname qtype next outcome hcode houtcome
      obtain ⟨hcontext,h⟩ := Option.ite_none_right_eq_some.mp h
      cases h
      exact .gaveBack htask hleaf hchild hsite hcode houtcome hcontext
    · contradiction
  | timeout t =>
    obtain ⟨task,htask,h⟩ := Option.bind_eq_some_iff.mp h
    split at h
    · rename_i k asked qname qtype next hstatus hcode
      cases h
      exact .timedOut htask hstatus hcode
    · contradiction

theorem Inv.step (h : Inv casing s)
    (hstep : s.step codec world casing engine masterExtensions label = some s') :
      Inv casing s' := by
  cases step_turn hstep with
  | edited htask hsite hcode => exact h.resumed htask _ _ hsite rfl rfl
  | rejected htask _ _ _ _ => exact h.resume htask _
  | opened htask hsite _ hcode hbegin henter =>
    obtain ⟨hbounded,hdepth⟩ := h.sites _ (List.mem_of_getElem? hsite)
    obtain ⟨signature,hadmits,hchain,hnested⟩ := beginCall_here hbegin
    refine h.opened htask hsite ⟨_,_,_,hcode⟩ hchain ?_ hnested henter
    rw [hchain]
    exact hbounded.extended hdepth hadmits
  | asked htask hsite _ hcode hbegin =>
    obtain ⟨hbounded,hdepth⟩ := h.sites _ (List.mem_of_getElem? hsite)
    obtain ⟨signature,hadmits,_,hchain⟩ := beginCall_away hbegin
    refine h.asked htask hsite ⟨_,_,_,hcode⟩ hchain ?_
    rw [hchain]
    exact hbounded.extended hdepth hadmits
  | served hsent hopen henter =>
    obtain ⟨hchain,hdepth⟩ := openNested_chain hopen
    exact h.served hsent hchain hdepth henter
  | unserved hsent _ => exact h.refused hsent _
  | refused htask _ _ _ => exact h.resume htask _
  | gaveBack htask _ _ hsite _ _ _ =>
    exact h.resumed htask _ _ hsite rfl rfl
  | timedOut htask _ _ => exact h.resume htask _

theorem inv_init (casing : Casing) (arrivals : List (Arrival E)) : Inv casing (init arrivals) where
  sites site hsite := by
    obtain ⟨a,_,rfl⟩ := List.mem_map.mp hsite
    exact ⟨⟨List.nodup_nil,by simp [buildContext],by simp [buildContext]⟩,rfl⟩
  homes task htask := by
    obtain ⟨x,hx,htask⟩ := List.mem_flatMap.mp htask
    obtain ⟨r,_,rfl⟩ := List.mem_map.mp htask
    have hlt := List.snd_lt_of_mem_zipIdx hx
    simpa [init] using hlt
  queued request hrequest := by cases hrequest
  waits task htask := by
    obtain ⟨x,_,htask⟩ := List.mem_flatMap.mp htask
    obtain ⟨r,_,rfl⟩ := List.mem_map.mp htask
    trivial

/-! ### What a turn does to the contexts -/

/-- The context that a turn may write to: that of the code which edits it, or the nested one
whose dispatch has a result. -/
def written (s : NestedSystem E) : Label E → Option Nat
  | .edit t => s.tasks[t]?.map Task.context
  | .giveBack t _ _ => s.tasks[t]?.bind fun task => s.childOf task.status
  | _ => none

/-- All contexts but one are as before, and that one is not the outer context of a nested
dispatch: no call of its own process or of another writes to the context it is made from. A
context that is not nested is only written to by its own code. -/
structure Isolated (s : NestedSystem E) (label : Label E) (s' : NestedSystem E) : Prop where
  others : ∀ i site, s.sites[i]? = some site → s.written label ≠ some i →
    s'.sites[i]? = some site
  outer : ∀ t u now task site, label = .giveBack t u now → s.tasks[t]? = some task →
    s.sites[task.context]? = some site → s'.sites[task.context]? = some site
  outermost : ∀ i, s.chainAt i = [] → s.written label = some i → ∃ t, label = .edit t

theorem Inv.child_longer (h : Inv casing s) {t child : Nat} {task : Task E}
    (htask : s.tasks[t]? = some task) (hchild : s.childOf task.status = some child) :
    s.Below task.context child := by
  have hwaits := h.waits task (List.mem_of_getElem? htask)
  unfold Waits at hwaits
  cases hstatus : task.status with
  | running => simp [hstatus,childOf] at hchild
  | here k =>
    rw [hstatus] at hwaits hchild
    cases hchild
    exact hwaits.2
  | away k asked =>
    rw [hstatus] at hwaits hchild
    obtain ⟨_,sent,hsent,hreply⟩ := hwaits
    simp only [childOf,hsent] at hchild
    cases sent with
    | queued request => simp at hchild
    | served k =>
      cases hchild
      exact hreply
    | refused exc => simp at hchild

theorem Inv.outermost (h : Inv casing s) {i : Nat} (hchain : s.chainAt i = [])
    (hwritten : s.written label = some i) : ∃ t, label = .edit t := by
  cases label with
  | edit t => exact ⟨t,rfl⟩
  | giveBack t u now =>
    obtain ⟨task,htask,hchild⟩ := Option.bind_eq_some_iff.mp hwritten
    have hlonger := (h.child_longer htask hchild).longer
    simp [hchain] at hlonger
  | call t id resolveId started => cases hwritten
  | serve k id started => cases hwritten
  | refuse t => cases hwritten
  | timeout t => cases hwritten

theorem Inv.isolated (h : Inv casing s)
    (hstep : s.step codec world casing engine masterExtensions label = some s') :
    s.Isolated label s' := by
  have happend : ∀ (i : Nat) (site : Site E) (new : List (Site E)), s.sites[i]? = some site →
      (s.sites ++ new)[i]? = some site := by
    intro i site new hi
    rw [List.getElem?_append_left (List.getElem?_eq_some_iff.mp hi).1,hi]
  have houtermost := fun i => @h.outermost E casing s label i
  cases step_turn hstep with
  | edited htask hsite hcode =>
    refine ⟨fun i site hi hwritten => ?_,by simp,houtermost⟩
    simp only [written,htask,Option.map_some,ne_eq,Option.some.injEq] at hwritten
    exact (List.getElem?_set_ne hwritten).trans hi
  | rejected => exact ⟨fun i site hi _ => hi,by simp,houtermost⟩
  | opened _ _ _ _ _ henter =>
    obtain ⟨_,rfl⟩ := enter_eq_some.mp henter
    exact ⟨fun i site hi _ => happend i site _ hi,by simp,houtermost⟩
  | asked => exact ⟨fun i site hi _ => hi,by simp,houtermost⟩
  | served _ _ henter =>
    obtain ⟨_,rfl⟩ := enter_eq_some.mp henter
    exact ⟨fun i site hi _ => happend i site _ hi,by simp,houtermost⟩
  | unserved => exact ⟨fun i site hi _ => hi,by simp,houtermost⟩
  | refused => exact ⟨fun i site hi _ => hi,by simp,houtermost⟩
  | gaveBack htask _ hchild _ _ _ _ =>
    refine ⟨?_,?_,houtermost⟩
    · intro i site hi hwritten
      simp only [written,htask,Option.bind_some,hchild,ne_eq,Option.some.injEq] at hwritten
      exact (List.getElem?_set_ne hwritten).trans hi
    · intro t' u' now' task' site' hlabel htask' hsite'
      cases hlabel
      obtain rfl := Option.some.inj (htask.symm.trans htask')
      have hlonger := (h.child_longer htask hchild).longer
      refine (List.getElem?_set_ne ?_).trans hsite'
      intro heq
      rw [heq] at hlonger
      omega
  | timedOut => exact ⟨fun i site hi _ => hi,by simp,houtermost⟩

end

end NestedSystem

end SmartDns
