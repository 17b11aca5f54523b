import SmartDns.Lib.Descent
import SmartDns.Multiprocess.NestedSystem
set_option autoImplicit false

/-!
How nested resolution ends. Every turn takes code further, or opens a context with a longer
chain, which has a bound, so no run goes on for ever; and a system that cannot go on has
finished all that was begun. Code that fails only by passing on the failures of its calls then
ends with an answer or with an error that the calls themselves make.
-/

namespace SmartDns

namespace NestedSystem

open Relation

/-! ### Every run ends -/

section
variable {E W : Type}

/-- What code goes on with after one of its turns. -/
inductive Program.Later : Program E → Program E → Prop where
  | edited (f : RequestContext E → RequestContext E) (next : RequestContext E → Program E)
      (context : RequestContext E) : Later (next context) (.edit f next)
  | resolved (qname qtype : String) (next : Except PyException Answer → Program E)
      (reply : Except PyException Answer) : Later (next reply) (.resolve qname qtype next)

theorem Program.later_wf : WellFounded (@Program.Later E) := by
  refine ⟨fun code => ?_⟩
  induction code with
  | finish outcome => exact ⟨_,fun _ h => nomatch h⟩
  | edit f next ih =>
    refine ⟨_,fun code h => ?_⟩
    cases h with
    | edited f next context => exact ih context
  | resolve qname qtype next ih =>
    refine ⟨_,fun code h => ?_⟩
    cases h with
    | resolved qname qtype next reply => exact ih reply

/-- How much deeper work may go, what code is left, and whether it runs. -/
abbrev Load (E : Type) := ℕ × Program E × ℕ

def Load.Less : Load E → Load E → Prop :=
  Prod.Lex (· < ·) (Prod.Lex Program.Later (· < ·))

theorem Load.less_wf : WellFounded (@Load.Less E) :=
  WellFounded.prod_lex wellFounded_lt (WellFounded.prod_lex Program.later_wf wellFounded_lt)

theorem Load.less_of_depth {a b : Load E} (h : a.1 < b.1) : Load.Less a b :=
  Prod.Lex.left _ _ h

theorem Load.less_of_later {n k k' : ℕ} {code code' : Program E} (h : Program.Later code' code) :
    Load.Less (n,code',k') (n,code,k) :=
  Prod.Lex.right _ (Prod.Lex.left _ _ h)

theorem Load.less_of_waits {n k k' : ℕ} {code : Program E} (h : k' < k) :
    Load.Less (n,code,k') (n,code,k) :=
  Prod.Lex.right _ (Prod.Lex.right _ h)

def depthLeft (chain : List (String × String)) : ℕ :=
  maxNestedResolveDepth - chain.length

def Status.turns : Status → ℕ
  | .running => 1
  | _ => 0

def taskLoad (s : NestedSystem E) (task : Task E) : Load E :=
  (2 * depthLeft (s.chainAt task.context),task.code,task.status.turns)

/-- A message weighs more than the resolvers it starts, and less than the call it is from. -/
def Sent.load : Sent → Option (Load E)
  | .queued request =>
    some (2 * depthLeft request.nestedResolveChain + 1,.finish (.error responseTimeout),0)
  | _ => none

def load (s : NestedSystem E) : Multiset (Load E) :=
  (s.tasks.map s.taskLoad : List (Load E)) + (s.sent.filterMap Sent.load : List (Load E))

variable {s s' : NestedSystem E} {casing : Casing}

theorem taskLoad_congr {task : Task E} (hchain : s'.chainAt task.context = s.chainAt task.context) :
    s'.taskLoad task = s.taskLoad task := by
  unfold taskLoad
  rw [hchain]

/-- A turn of a task, which may start others and send messages. -/
theorem Inv.load_moved (h : Inv casing s) {t : Nat} {task : Task E}
    (htask : s.tasks[t]? = some task) (task' : Task E) (started : List (Task E))
    (messages : List Sent) (hcontext : task'.context = task.context)
    (hchains : ∀ i < s.sites.length, s'.chainAt i = s.chainAt i)
    (htasks : s'.tasks = s.tasks.set t task' ++ started) (hsent : s'.sent = s.sent ++ messages)
    (hless : Load.Less (s.taskLoad task') (s.taskLoad task))
    (hstarted : ∀ x ∈ started, Load.Less (s'.taskLoad x) (s.taskLoad task))
    (hmessages : ∀ m ∈ messages, ∀ a, m.load = some a → Load.Less a (s.taskLoad task)) :
    CutExpand Load.Less s'.load s.load := by
  have hkept : (s.tasks.set t task').map s'.taskLoad = (s.tasks.set t task').map s.taskLoad := by
    refine List.map_congr_left fun x hx => taskLoad_congr (hchains _ ?_)
    cases mem_tasks_set hx with
    | inl hold => exact h.homes x hold
    | inr hnew =>
      rw [hnew,hcontext]
      exact h.homes task (List.mem_of_getElem? htask)
  have hload : s'.load = ((s.tasks.set t task').map s.taskLoad : List (Load E)) +
      (s.sent.filterMap Sent.load : List (Load E)) +
      ((started.map s'.taskLoad : List (Load E)) +
        (messages.filterMap Sent.load : List (Load E))) := by
    unfold load
    rw [htasks,hsent,List.map_append,List.filterMap_append,hkept,← Multiset.coe_add,
      ← Multiset.coe_add]
    abel
  rw [hload]
  refine Descent.cut_set s.taskLoad htask hless _ fun a ha => ?_
  cases Multiset.mem_add.mp ha with
  | inl ha =>
    obtain ⟨x,hx,rfl⟩ := List.mem_map.mp ha
    exact hstarted x hx
  | inr ha =>
    obtain ⟨m,hm,hload⟩ := List.mem_filterMap.mp ha
    exact hmessages m hm a hload

/-- A task goes on. -/
theorem Inv.load_resumed (h : Inv casing s) {t : Nat} {task : Task E} {code : Program E}
    {sites : List (Site E)} (htask : s.tasks[t]? = some task)
    (hchains : ∀ i < s.sites.length, chainAt ⟨sites,s.tasks,s.sent⟩ i = s.chainAt i)
    (hlater : Program.Later code task.code) :
    CutExpand Load.Less ({ s with sites }.resume t task code).load s.load := by
  exact h.load_moved htask { task with code, status := .running } [] [] rfl hchains
    (List.append_nil _).symm (List.append_nil _).symm (Load.less_of_later hlater) (by simp)
      (by simp)

/-- A message is taken, and may start resolvers. -/
theorem Inv.load_taken (h : Inv casing s) {k : Nat} {request : ResolveRequest} {sent : Sent}
    (hqueued : s.sent[k]? = some (.queued request)) (started : List (Task E))
    (hchains : ∀ i < s.sites.length, s'.chainAt i = s.chainAt i)
    (htasks : s'.tasks = s.tasks ++ started) (hsent : s'.sent = s.sent.set k sent)
    (htaken : ∀ request, sent ≠ .queued request)
    (hstarted : ∀ x ∈ started, s'.chainAt x.context = request.nestedResolveChain) :
    CutExpand Load.Less s'.load s.load := by
  have hkept : s.tasks.map s'.taskLoad = s.tasks.map s.taskLoad :=
    List.map_congr_left fun x hx => taskLoad_congr (hchains _ (h.homes x hx))
  have hload : s'.load = (s.tasks.map s.taskLoad : List (Load E)) +
      ((s.sent.set k sent).filterMap Sent.load : List (Load E)) +
      (started.map s'.taskLoad : List (Load E)) := by
    unfold load
    rw [htasks,hsent,List.map_append,hkept,← Multiset.coe_add]
    abel
  rw [hload]
  refine Descent.cut_filterMap Sent.load hqueued rfl ?_ _ fun a ha => ?_
  · cases sent with
    | queued request => exact absurd rfl (htaken request)
    | served child => rfl
    | refused exc => rfl
  · obtain ⟨x,hx,rfl⟩ := List.mem_map.mp ha
    refine Load.less_of_depth ?_
    simp only [taskLoad,hstarted x hx]
    omega

theorem depthLeft_extended {chain : List (String × String)} (signature : String × String)
    (h : chain.length < maxNestedResolveDepth) :
    depthLeft (chain ++ [signature]) + 1 = depthLeft chain := by
  simp only [depthLeft,List.length_append,List.length_singleton]
  omega

variable {codec : Codec W} {world : NestedWorld} {engine : PipelineEngine E Unit}
  {masterExtensions : E} {label : Label E}

theorem Inv.step_less (h : Inv casing s)
    (hstep : s.step codec world casing engine masterExtensions label = some s') :
    CutExpand Load.Less s'.load s.load := by
  cases step_turn hstep with
  | edited htask hsite hcode =>
    refine h.load_resumed htask ?_ ?_
    · intro i _
      exact chainAt_set hsite (by rfl) _ _ i
    · rw [hcode]
      exact .edited _ _ _
  | rejected htask hsite hstatus hcode hbegin =>
    refine h.load_resumed htask (fun _ _ => rfl) ?_
    rw [hcode]
    exact .resolved _ _ _ _
  | @opened t id resolveId started task site qname qtype next context _ htask hsite hstatus hcode
      hbegin henter =>
    obtain ⟨_,rfl⟩ := enter_eq_some.mp henter
    obtain ⟨signature,hadmits,hchain,_⟩ := beginCall_here hbegin
    have hshort := hadmits.short
    rw [(h.sites site (List.mem_of_getElem? hsite)).2] at hshort
    have hdepth := depthLeft_extended signature hshort
    refine h.load_moved htask { task with status := .here s.sites.length } _ [] rfl
      (fun i hi => chainAt_append s _ _ _ i hi) rfl (List.append_nil _).symm ?_
      (fun x hx => Load.less_of_depth ?_) (by simp)
    · have hwaits : Status.turns (.here s.sites.length) < task.status.turns := by
        rw [hstatus]
        exact Nat.zero_lt_one
      exact Load.less_of_waits hwaits
    · obtain ⟨r,_,rfl⟩ := List.mem_map.mp hx
      simp only [taskLoad]
      rw [chainAt_last,hchain,chainAt_some hsite]
      omega
  | @asked t id resolveId started task site qname qtype next asked request htask hsite hstatus hcode
      hbegin =>
    obtain ⟨signature,hadmits,_,hchain⟩ := beginCall_away hbegin
    have hshort := hadmits.short
    rw [(h.sites site (List.mem_of_getElem? hsite)).2] at hshort
    have hdepth := depthLeft_extended signature hshort
    refine h.load_moved htask { task with status := .away s.sent.length asked } [] _ rfl
      (fun _ _ => rfl) (List.append_nil _).symm rfl ?_ (by simp) ?_
    · have hwaits : Status.turns (.away s.sent.length asked) < task.status.turns := by
        rw [hstatus]
        exact Nat.zero_lt_one
      exact Load.less_of_waits hwaits
    · intro m hm a ha
      rw [List.mem_singleton.mp hm] at ha
      cases ha
      refine Load.less_of_depth ?_
      simp only [taskLoad]
      rw [chainAt_some hsite,hchain]
      omega
  | @served k id started request context _ hsent hopen henter =>
    obtain ⟨_,rfl⟩ := enter_eq_some.mp henter
    refine h.load_taken hsent _ (fun i hi => chainAt_append s _ _ _ i hi) rfl rfl (by simp) ?_
    intro x hx
    obtain ⟨r,_,rfl⟩ := List.mem_map.mp hx
    rw [chainAt_last]
    exact (openNested_chain hopen).1
  | unserved hsent _ =>
    exact h.load_taken hsent [] (fun _ _ => rfl) (List.append_nil _).symm rfl (by simp) (by simp)
  | refused htask _ hcode _ =>
    refine h.load_resumed htask (fun _ _ => rfl) ?_
    rw [hcode]
    exact .resolved _ _ _ _
  | gaveBack htask _ _ hsite hcode _ _ =>
    refine h.load_resumed htask ?_ ?_
    · intro i _
      exact chainAt_set hsite (by rfl) _ _ i
    · rw [hcode]
      exact .resolved _ _ _ _
  | timedOut htask _ hcode =>
    refine h.load_resumed htask (fun _ _ => rfl) ?_
    rw [hcode]
    exact .resolved _ _ _ _

/-- No run goes on for ever. -/
theorem Inv.not_endless (h : Inv casing s) :
    ¬ Transition.Endless (NestedSystem.step codec world casing engine masterExtensions) s :=
  Transition.not_endless (I := Inv casing) Load.less_wf.cutExpand load
    (fun _ _ _ hs hstep => ⟨hs.step hstep,hs.step_less hstep⟩) h

/-! ### A run that cannot go on has finished everything -/

/-- The code of the task has come to its end. -/
def Task.Finished (task : Task E) : Prop :=
  ∃ outcome, task.code = .finish outcome

/-- Nothing is given back before all the resolvers of a dispatch have ended, as `wait_all`
has it. -/
def Patient (s : NestedSystem E) : Label E → Prop
  | .giveBack t _ _ => ∀ task child, s.tasks[t]? = some task → s.childOf task.status = some child →
    ∀ leaf ∈ s.tasks, leaf.context = child → leaf.Finished
  | _ => True

/-- There is a turn to take while a task is not finished: its own, or one of a resolver that it
waits for, whose context is deeper. -/
theorem Inv.moves (h : Inv casing s) (codec : Codec W) (world : NestedWorld)
    (engine : PipelineEngine E Unit) (masterExtensions : E) {task : Task E} (htask : task ∈ s.tasks)
    (hopen : ¬ task.Finished) :
    ∃ label, s.Patient label ∧
      ∃ s', s.step codec world casing engine masterExtensions label = some s' := by
  induction hn : depthLeft (s.chainAt task.context) using Nat.strong_induction_on
    generalizing task with
  | _ n ih =>
    subst hn
    obtain ⟨t,ht⟩ := List.mem_iff_getElem?.mp htask
    obtain ⟨site,hsite⟩ : ∃ site, s.sites[task.context]? = some site :=
      ⟨_,List.getElem?_eq_getElem (h.homes task htask)⟩
    have hwaits := h.waits task htask
    unfold Waits at hwaits
    cases hcode : task.code with
    | finish outcome => exact absurd ⟨outcome,hcode⟩ hopen
    | edit f next =>
      refine ⟨.edit t,trivial,?_⟩
      simp only [NestedSystem.step,ht,Option.bind_eq_bind,Option.bind_some,hsite,hcode]
      exact ⟨_,rfl⟩
    | resolve qname qtype next =>
      cases hstatus : task.status with
      | running =>
        refine ⟨.call t 0 "" [(task.target,task.code)],trivial,?_⟩
        simp only [NestedSystem.step,ht,Option.bind_eq_bind,Option.bind_some,hsite,hstatus,hcode]
        unfold callStep
        split
        · exact ⟨_,rfl⟩
        · exact ⟨_,enter_eq_some.mpr ⟨by simp,rfl⟩⟩
        · exact ⟨_,rfl⟩
      | away k asked =>
        refine ⟨.timeout t,trivial,?_⟩
        simp only [NestedSystem.step,ht,Option.bind_eq_bind,Option.bind_some,hstatus,hcode]
        exact ⟨_,rfl⟩
      | here child =>
        rw [hstatus] at hwaits
        obtain ⟨_,hexists,hlonger,leaf,hleaf,hcontext⟩ := hwaits
        obtain ⟨nested,hnested⟩ : ∃ nested, s.sites[child]? = some nested :=
          ⟨_,List.getElem?_eq_getElem hexists⟩
        by_cases hdone : ∀ leaf ∈ s.tasks, leaf.context = child → leaf.Finished
        · obtain ⟨outcome,houtcome⟩ := hdone leaf hleaf hcontext
          obtain ⟨u,hu⟩ := List.mem_iff_getElem?.mp hleaf
          refine ⟨.giveBack t u 0,?_,?_⟩
          · intro task' child' htask' hchild'
            obtain rfl := Option.some.inj (ht.symm.trans htask')
            rw [hstatus] at hchild'
            cases hchild'
            exact hdone
          · simp only [NestedSystem.step,ht,hu,Option.bind_eq_bind,Option.bind_some,hstatus,childOf,
              hnested,hcode,houtcome,hcontext,if_true]
            exact ⟨_,rfl⟩
        · push Not at hdone
          obtain ⟨leaf,hleaf,hcontext,hdone⟩ := hdone
          have hshort := (h.sites nested (List.mem_of_getElem? hnested)).1.short
          rw [← chainAt_some hnested] at hshort
          refine ih _ ?_ hleaf hdone rfl
          simp only [depthLeft,hcontext]
          omega

/-! ### What calls end with -/

/-- How code ends that fails only with errors it knows. -/
def EndsWith (known : PyException → Prop) : Except PyException UpstreamResult → Prop
  | .ok result => result.answer.isSome ∨ ∃ exc, result.error = some exc ∧ known exc
  | .error exc => known exc

/-- The code passes on what its calls raise, and makes no failures of its own. -/
def Program.Relays : Program E → (PyException → Prop) → Prop
  | .finish outcome, known => EndsWith known outcome
  | .edit _ next, known => ∀ context, (next context).Relays known
  | .resolve _ _ next, known =>
    ∀ reply, (next reply).Relays fun exc => known exc ∨ reply = .error exc

/-- The errors that calls end with: recursion, and texts that are no name or type; between
processes also a reply that is late, what the other process failed with, and an answer that
does not come across. -/
inductive Cut (codec : Codec W) (world : NestedWorld) (casing : Casing) (across : Prop) :
    PyException → Prop where
  | recursion (message : String) : Cut codec world casing across (.nestedResolveRecursion message)
  | rejected {qname qtype : String} {exc : PyException}
      (h : normalizedSignature casing qname qtype = .error exc) : Cut codec world casing across exc
  | unreadable {id : UInt16} {qname qtype : String} {exc : PyException}
      (h : makeNestedRequest world id qname qtype = .error exc) : Cut codec world casing across exc
  | late (h : across) : Cut codec world casing across responseTimeout
  | relayed {exc : PyException} (ha : across) (h : Cut codec world casing across exc) :
      Cut codec world casing across
        (deserializeResolveError (serializeResolveErrorType exc) exc.message)
  | untransferable {now : ℚ} {asked : Message} {answer : Answer} {exc : PyException} (ha : across)
      (h : carried codec now asked (sendAnswer codec now answer) = .error exc) :
      Cut codec world casing across exc

theorem EndsWith.mono {known known' : PyException → Prop}
    {outcome : Except PyException UpstreamResult} (h : EndsWith known outcome)
    (hknown : ∀ exc, known exc → known' exc) : EndsWith known' outcome := by
  cases outcome with
  | ok result => exact h.imp_right fun ⟨exc,herror,hexc⟩ => ⟨exc,herror,hknown exc hexc⟩
  | error exc => exact hknown exc h

theorem Program.Relays.mono {code : Program E} {known known' : PyException → Prop}
    (h : code.Relays known) (hknown : ∀ exc, known exc → known' exc) : code.Relays known' := by
  induction code generalizing known known' with
  | finish outcome => exact EndsWith.mono h hknown
  | edit f next ih => exact fun context => ih context (h context) hknown
  | resolve qname qtype next ih =>
    exact fun reply => ih reply (h reply) fun exc => Or.imp_left (hknown exc)

/-- After a reply whose failure is known, the code still makes no failures of its own. -/
theorem Program.Relays.reply {qname qtype : String} {next : Except PyException Answer → Program E}
    {known : PyException → Prop} (h : (Program.resolve qname qtype next).Relays known)
    {reply : Except PyException Answer} (hreply : ∀ exc, reply = .error exc → known exc) :
    (next reply).Relays known :=
  Program.Relays.mono (h reply) fun exc => Or.rec id (hreply exc)

variable {across : Prop}

theorem targetResult_endsWith {known : PyException → Prop} (context : RequestContext E)
    (target : String) {outcome : Except PyException UpstreamResult} (h : EndsWith known outcome) :
    EndsWith known (.ok (targetResult context target outcome)) := by
  cases outcome with
  | ok result => exact h
  | error exc => exact .inr ⟨exc,rfl,h⟩

theorem answerFromNestedResult_error {known : PyException → Prop} {result : UpstreamResult}
    (h : EndsWith known (.ok result)) {exc : PyException}
    (herror : answerFromNestedResult result = .error exc) : known exc := by
  unfold answerFromNestedResult at herror
  split at herror
  · contradiction
  · rename_i exc' hnone hexc
    cases herror
    obtain hsome | ⟨exc',hexc',hknown⟩ := h
    · simp [hnone] at hsome
    · rw [hexc] at hexc'
      cases hexc'
      exact hknown
  · rename_i hnone hno
    obtain hsome | ⟨exc',hexc',_⟩ := h
    · simp [hnone] at hsome
    · simp [hno] at hexc'

/-- What a waiting call raises after a dispatch that ended well. -/
theorem delivered_cut {now : ℚ} {result : UpstreamResult} {status : Status} {exc : PyException}
    (h : EndsWith (Cut codec world casing across) (.ok result))
    (hstatus : ∀ k asked, status = .away k asked → across)
    (herror : delivered codec now result status = .error exc) :
    Cut codec world casing across exc := by
  cases status with
  | running => exact answerFromNestedResult_error h herror
  | here child => exact answerFromNestedResult_error h herror
  | away k asked =>
    have hacross := hstatus k asked rfl
    simp only [delivered] at herror
    cases hanswer : answerFromNestedResult result with
    | ok answer =>
      rw [hanswer] at herror
      exact .untransferable hacross herror
    | error exc' =>
      rw [hanswer] at herror
      cases herror
      exact .relayed hacross (answerFromNestedResult_error h hanswer)

/-- No failures but those of calls are on their way. -/
structure Relaying (codec : Codec W) (world : NestedWorld) (casing : Casing) (across : Prop)
    (s : NestedSystem E) : Prop where
  codes : ∀ task ∈ s.tasks, task.code.Relays (Cut codec world casing across)
  refused : ∀ exc, .refused exc ∈ s.sent → Cut codec world casing across exc
  workers : ∀ site ∈ s.sites, site.inWorker = true → across
  away : ∀ task ∈ s.tasks, ∀ k asked, task.status = .away k asked → across

/-- The resolvers that a dispatch starts pass failures on. -/
def Label.Relays : Label E → Prop
  | .call _ _ _ started => ∀ r ∈ started, r.2.Relays fun _ => False
  | .serve _ _ started => ∀ r ∈ started, r.2.Relays fun _ => False
  | _ => True

theorem beginCall_error {site : Site E} {id : UInt16} {resolveId qname qtype : String}
    {exc : PyException}
    (h : beginCall world casing engine site id resolveId qname qtype = .error exc) :
    Cut codec world casing across exc := by
  obtain ⟨exc',hbegin,hcut⟩ | ⟨signature,_,hopening⟩ :=
    beginCall_cases world casing engine site id resolveId qname qtype
  · rw [hbegin] at h
    cases h
    obtain hrejected | ⟨message,rfl⟩ | ⟨q,t,hunreadable⟩ := hcut
    · exact .rejected hrejected
    · exact .recursion message
    · exact .unreadable hunreadable
  · obtain ⟨_,_,hbegin,_⟩ | ⟨_,_,_,hbegin,_⟩ := hopening
    · rw [hbegin] at h
      contradiction
    · rw [hbegin] at h
      contradiction

theorem Relaying.changed (h : Relaying codec world casing across s)
    (htasks : ∀ x ∈ s'.tasks, x ∈ s.tasks ∨ x.code.Relays (Cut codec world casing across) ∧
      ∀ k asked, x.status = .away k asked → across)
    (hsites : ∀ site ∈ s'.sites, site.inWorker = true → across)
    (hrefused : ∀ exc, .refused exc ∈ s'.sent → .refused exc ∈ s.sent ∨
      Cut codec world casing across exc) : Relaying codec world casing across s' where
  workers := hsites
  refused exc hexc := (hrefused exc hexc).elim (h.refused exc) id
  codes x hx := (htasks x hx).elim (h.codes x) And.left
  away x hx k asked hstatus :=
    (htasks x hx).elim (fun hold => h.away x hold k asked hstatus) fun hnew =>
      hnew.2 k asked hstatus

/-- A task goes on with code that still makes no failures of its own. -/
theorem Relaying.resumed (h : Relaying codec world casing across s) {t : Nat} {task : Task E}
    {code : Program E} {sites : List (Site E)}
    (hcode : code.Relays (Cut codec world casing across))
    (hsites : ∀ site ∈ sites, site.inWorker = true → across) :
    Relaying codec world casing across ({ s with sites }.resume t task code) := by
  refine h.changed (fun x hx => (mem_tasks_set hx).imp_right ?_) hsites fun _ => .inl
  rintro rfl
  exact ⟨hcode,fun k asked hstatus => nomatch hstatus⟩

/-- What a dispatch starts makes no failures of its own. -/
theorem relaying_started {started : List (String × Program E)} {i : Nat} {x : Task E}
    (h : ∀ r ∈ started, r.2.Relays fun _ => False)
    (hx : x ∈ started.map fun r => (⟨r.1,i,r.2,.running⟩ : Task E)) :
    x.code.Relays (Cut codec world casing across) ∧
      ∀ k asked, x.status = .away k asked → across := by
  obtain ⟨r,hr,rfl⟩ := List.mem_map.mp hx
  exact ⟨(h r hr).mono fun _ => False.elim,fun k asked hstatus => nomatch hstatus⟩

theorem Relaying.step (h : Relaying codec world casing across s) (hlabel : label.Relays)
    (hstep : s.step codec world casing engine masterExtensions label = some s') :
    Relaying codec world casing across s' := by
  have hworkers : ∀ (k : Nat) (site site' : Site E), s.sites[k]? = some site →
      site'.inWorker = site.inWorker →
        ∀ x ∈ s.sites.set k site', x.inWorker = true → across := by
    intro k site site' hsite hsame x hx hworker
    cases List.mem_or_eq_of_mem_set hx with
    | inl hold => exact h.workers x hold hworker
    | inr hnew =>
      rw [hnew,hsame] at hworker
      exact h.workers site (List.mem_of_getElem? hsite) hworker
  have hentered : ∀ (context : RequestContext E), ∀ x ∈ s.sites ++ [⟨context,false⟩],
      x.inWorker = true → across := by
    intro context x hx hworker
    cases List.mem_append.mp hx with
    | inl hold => exact h.workers x hold hworker
    | inr hnew =>
      rw [List.mem_singleton.mp hnew] at hworker
      contradiction
  have hcodes : ∀ {t : Nat} {task : Task E}, s.tasks[t]? = some task →
      task.code.Relays (Cut codec world casing across) :=
    fun htask => h.codes _ (List.mem_of_getElem? htask)
  cases step_turn hstep with
  | @edited t task site f next htask hsite hcode =>
    have hrelays := hcodes htask
    rw [hcode] at hrelays
    exact h.resumed (hrelays _) (hworkers _ _ _ hsite rfl)
  | rejected htask _ _ hcode hbegin =>
    have hrelays := hcodes htask
    rw [hcode] at hrelays
    refine h.resumed (hrelays.reply fun exc hexc => ?_) h.workers
    cases hexc
    exact beginCall_error hbegin
  | @opened t id resolveId started task site qname qtype next context _ htask _ _ _ _ henter =>
    obtain ⟨_,rfl⟩ := enter_eq_some.mp henter
    have hrelays := hcodes htask
    refine h.changed (fun x hx => ?_) (hentered context) fun _ => .inl
    cases List.mem_append.mp hx with
    | inl hx =>
      refine (mem_tasks_set hx).imp_right ?_
      rintro rfl
      exact ⟨hrelays,fun k asked hstatus => nomatch hstatus⟩
    | inr hx => exact .inr (relaying_started hlabel hx)
  | asked htask hsite _ hcode hbegin =>
    obtain ⟨_,_,hworker,_⟩ := beginCall_away hbegin
    have hacross := h.workers _ (List.mem_of_getElem? hsite) hworker
    have hrelays := hcodes htask
    refine h.changed (fun x hx => (mem_tasks_set hx).imp_right ?_) h.workers fun exc hexc => .inl ?_
    · rintro rfl
      exact ⟨hrelays,fun _ _ _ => hacross⟩
    · cases List.mem_append.mp hexc with
      | inl hold => exact hold
      | inr hnew => cases List.mem_singleton.mp hnew
  | @served k id started request context _ hsent hopen henter =>
    obtain ⟨_,rfl⟩ := enter_eq_some.mp henter
    refine h.changed (fun x hx => (List.mem_append.mp hx).imp_right (relaying_started hlabel))
      (hentered context) fun exc hexc => .inl ?_
    cases List.mem_or_eq_of_mem_set hexc with
    | inl hold => exact hold
    | inr hnew => cases hnew
  | @unserved k id started request exc hsent hopen =>
    refine h.changed (fun _ => .inl) h.workers fun exc' hexc => ?_
    refine (List.mem_or_eq_of_mem_set hexc).imp_right fun hnew => ?_
    cases hnew
    obtain ⟨e,herror,hrequest⟩ | ⟨context,hok,_⟩ := openNested_cases world engine masterExtensions
      id request.clientaddr request.listenerName request.qname request.qtype
      request.nestedResolveChain
    · rw [herror] at hopen
      cases hopen
      exact .unreadable hrequest
    · rw [hok] at hopen
      contradiction
  | refused htask hstatus hcode hsent =>
    have hrelays := hcodes htask
    rw [hcode] at hrelays
    refine h.resumed (hrelays.reply fun exc hexc => ?_) h.workers
    cases hexc
    exact .relayed (h.away _ (List.mem_of_getElem? htask) _ _ hstatus)
      (h.refused _ (List.mem_of_getElem? hsent))
  | gaveBack htask hleaf hchild hsite hcode houtcome _ =>
    have hrelays := hcodes htask
    have hends := hcodes hleaf
    rw [hcode] at hrelays
    rw [houtcome] at hends
    refine h.resumed (hrelays.reply fun exc hexc => ?_) (hworkers _ _ _ hsite rfl)
    exact delivered_cut (targetResult_endsWith _ _ hends)
      (h.away _ (List.mem_of_getElem? htask)) hexc
  | timedOut htask hstatus hcode =>
    have hrelays := hcodes htask
    rw [hcode] at hrelays
    refine h.resumed (hrelays.reply fun exc hexc => ?_) h.workers
    cases hexc
    exact .late (h.away _ (List.mem_of_getElem? htask) _ _ hstatus)

theorem relaying_init (codec : Codec W) (world : NestedWorld) (casing : Casing)
    {arrivals : List (Arrival E)}
    (h : ∀ a ∈ arrivals, ∀ r ∈ a.plugins, r.2.Relays fun _ => False) :
    Relaying codec world casing (∃ a ∈ arrivals, a.inWorker = true) (init arrivals) where
  codes task htask := by
    obtain ⟨x,hx,htask⟩ := List.mem_flatMap.mp htask
    obtain ⟨r,hr,rfl⟩ := List.mem_map.mp htask
    exact (h x.1 (List.fst_mem_of_mem_zipIdx hx) r hr).mono fun _ => False.elim
  refused exc hexc := nomatch hexc
  workers site hsite hworker := by
    obtain ⟨a,ha,rfl⟩ := List.mem_map.mp hsite
    exact ⟨a,ha,hworker⟩
  away task htask k asked hstatus := by
    obtain ⟨x,_,htask⟩ := List.mem_flatMap.mp htask
    obtain ⟨r,_,rfl⟩ := List.mem_map.mp htask
    cases hstatus

/-! ### All runs -/

theorem Isolated.untouched (h : Inv casing s) {labels : List (Label E)} {i : Nat} {site : Site E}
    (hi : s.sites[i]? = some site)
    (hquiet : Transition.Guarded (NestedSystem.step codec world casing engine masterExtensions)
      (fun s label => s.written label ≠ some i) s labels)
    (hrun : Transition.run (NestedSystem.step codec world casing engine masterExtensions) s labels =
      some s') : s'.sites[i]? = some site := by
  have hstep : ∀ (s : NestedSystem E) label s', (Inv casing s ∧ s.sites[i]? = some site) →
      s.written label ≠ some i →
        s.step codec world casing engine masterExtensions label = some s' →
          Inv casing s' ∧ s'.sites[i]? = some site := by
    intro s label s' hs hwritten hstep
    exact ⟨hs.1.step hstep,(hs.1.isolated hstep).others i site hs.2 hwritten⟩
  exact ((hquiet.always ⟨h,hi⟩ hstep).final hrun).2

end

section
variable {E W : Type} (codec : Codec W) (world : NestedWorld) (casing : Casing)
  (engine : PipelineEngine E Unit) (masterExtensions : E)

/-- All chains are bounded, all runs end, and with everything finished; code that only relays
ends with an answer or with what calls end with; and what a turn writes is its own. -/
theorem nestedResolution_bounded (arrivals : List (Arrival E)) (labels : List (Label E)) :
    let step := NestedSystem.step codec world casing engine masterExtensions
    Transition.Always step
      (fun s => ∀ site ∈ s.sites, Bounded casing site.context.nestedResolveChain)
      (init arrivals) labels ∧
    ¬ Transition.Endless step (init arrivals) ∧
    Transition.Always step
      (fun s => (∀ label, s.Patient label → step s label = none) → ∀ task ∈ s.tasks, task.Finished)
      (init arrivals) labels ∧
    ((∀ a ∈ arrivals, ∀ r ∈ a.plugins, r.2.Relays fun _ => False) →
      (∀ label ∈ labels, label.Relays) →
        Transition.Always step
          (fun s => ∀ task ∈ s.tasks, ∀ outcome, task.code = .finish outcome →
            EndsWith (Cut codec world casing (∃ a ∈ arrivals, a.inWorker = true)) outcome)
          (init arrivals) labels) ∧
    Transition.Always step
      (fun s => (∀ label s', step s label = some s' → s.Isolated label s') ∧
        ∀ i site labels' s', s.sites[i]? = some site →
          Transition.Guarded step (fun s label => s.written label ≠ some i) s labels' →
            Transition.run step s labels' = some s' → s'.sites[i]? = some site)
      (init arrivals) labels := by
  intro step
  have hinv : Transition.Always step (Inv casing) (init arrivals) labels :=
    Transition.always_of_step (inv_init casing arrivals) fun _ _ _ hs hstep => hs.step hstep
  refine ⟨?_,(inv_init casing arrivals).not_endless,?_,?_,?_⟩
  · exact hinv.mono fun s hs site hsite => (hs.sites site hsite).1
  · refine hinv.mono fun s hs hstuck task htask => ?_
    by_contra hopen
    obtain ⟨label,hpatient,s',hstep⟩ := hs.moves codec world engine masterExtensions htask hopen
    have hnone := hstuck label hpatient
    simp [step,hstep] at hnone
  · intro harrivals hlabels
    have hguarded : Transition.Guarded step (fun _ label => label.Relays) (init arrivals) labels :=
      Transition.guarded_of_labels hlabels (init arrivals)
    have hrelaying := hguarded.always (relaying_init codec world casing harrivals)
      fun _ _ _ hs hlabel hstep => hs.step hlabel hstep
    refine hrelaying.mono fun s hs task htask outcome hcode => ?_
    have hrelays := hs.codes task htask
    rw [hcode] at hrelays
    exact hrelays
  · refine hinv.mono fun s hs => ⟨fun _ _ hstep => hs.isolated hstep,?_⟩
    exact fun _ _ _ _ hi hquiet hrun => Isolated.untouched hs hi hquiet hrun

end

/-- A resolver that asks for a name and passes on what it gets. -/
def asking (qname qtype : String) : Program Unit :=
  .resolve qname qtype fun
    | .ok answer =>
      .finish (.ok { upstreamName := "custom", durationMs := 0, answer := some answer })
    | .error exc => .finish (.error exc)

/-- Names of one label. -/
def labelWorld : NestedWorld where
  nameFromText qname := .ok ⟨[qname.toList.map fun c => UInt8.ofNat c.toNat,[]]⟩
  rdatatypeFromText _ := .ok RdataType.A
  dispatch _ _ := .error .nxdomain

def askingArrival (inWorker : Bool) (qname qtype : String) : Arrival Unit where
  request := makeQuery 1 ⟨[[]]⟩ RdataType.A RdataClass.IN
  extensions := ()
  inWorker := inWorker
  plugins := [("custom",asking qname qtype)]

/-- A resolver that asks for the same name again and again. -/
theorem nestedResolution_bounded_asking :
    Transition.Always (step directCodec labelWorld ⟨id,id⟩ (soloEngine []) ())
      (fun s => ∀ task ∈ s.tasks, ∀ outcome, task.code = .finish outcome →
        EndsWith (Cut directCodec labelWorld ⟨id,id⟩
          (∃ a ∈ [askingArrival false "a" "A"], a.inWorker = true)) outcome)
      (init [askingArrival false "a" "A"])
      [.call 0 2 "" [("custom",asking "a" "A")],.call 1 3 "" [("custom",asking "a" "A")],
        .giveBack 0 1 0] := by
  have hasking : (asking "a" "A").Relays fun _ => False := by
    intro reply
    cases reply with
    | ok answer => exact .inl rfl
    | error exc => exact .inr rfl
  refine (nestedResolution_bounded directCodec labelWorld ⟨id,id⟩ (soloEngine []) ()
    [askingArrival false "a" "A"] _).2.2.2.1 ?_ ?_
  · simpa [askingArrival] using hasking
  · simpa [Label.Relays] using hasking

/-- Such a resolver ends with other errors than that of recursion: one that asks for no name, and
one in a worker whose reply is late. -/
theorem nestedResolution_otherErrors :
    (∃ s, Transition.run (step directCodec labelWorld ⟨id,id⟩ (soloEngine []) ())
        (init [askingArrival false "" "A"]) [.call 0 2 "" []] = some s ∧
      ∃ task ∈ s.tasks, task.code = .finish (.error (.valueError "qname 不能为空"))) ∧
    (∃ s, Transition.run (step directCodec labelWorld ⟨id,id⟩ (soloEngine []) ())
        (init [askingArrival true "a" "A"]) [.call 0 2 "" [],.timeout 0] = some s ∧
      ∃ task ∈ s.tasks, task.code = .finish (.error responseTimeout)) ∧
    PyException.kind (.valueError "qname 不能为空") ≠ .nestedResolveRecursion ∧
    responseTimeout.kind ≠ .nestedResolveRecursion := by
  refine ⟨⟨_,rfl,_,List.mem_cons_self,rfl⟩,⟨_,rfl,_,List.mem_cons_self,rfl⟩,?_,?_⟩
  · decide
  · decide

end NestedSystem

end SmartDns
