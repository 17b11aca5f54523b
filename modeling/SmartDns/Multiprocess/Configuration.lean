import SmartDns.Lib.Transition
import SmartDns.Config.Models
import Mathlib.Data.List.Basic
set_option autoImplicit false

/-!
Which configuration the master and its workers run. The configuration file is read by
the manager, by the runtime inside it, and twice by every worker process that starts;
a save only writes it. A pool that a reload replaced is no longer followed.
-/

namespace SmartDns

/-- Where the task of a worker slot stands, with what it has read of the file. -/
inductive WorkerPhase (R : Type) where
  | submitted
  /-- past the read of `worker_entry` -/
  | entered (entry : AppConfig R)
  /-- past the load of its `RuntimeManager` -/
  | running (entry runtime : AppConfig R)
  | exited

namespace WorkerPhase

variable {R : Type}

def reads : WorkerPhase R → List (AppConfig R)
  | .submitted => []
  | .entered entry => [entry]
  | .running entry runtime => [entry,runtime]
  | .exited => []

/-- `worker_entry` up to its `load_config`. -/
def enter (read : Except PyException (AppConfig R)) : WorkerPhase R → Option (WorkerPhase R)
  | .submitted =>
    match read with
    | .ok config => some (.entered config)
    | .error _ => some .exited
  | _ => none

/-- `WorkerRuntime.run` up to the end of `manager.load()`. -/
def load (read : Except PyException (AppConfig R)) : WorkerPhase R → Option (WorkerPhase R)
  | .entered entry =>
    match read with
    | .ok config => some (.running entry config)
    | .error _ => some .exited
  | _ => none

def exit : WorkerPhase R → Option (WorkerPhase R)
  | .exited => none
  | _ => some .exited

/-- `_start_worker` on a slot whose future is done. -/
def restart : WorkerPhase R → Option (WorkerPhase R)
  | .exited => some .submitted
  | _ => none

end WorkerPhase

structure WorkerPool (R : Type) where
  config : AppConfig R
  workers : List (WorkerPhase R)

namespace WorkerPool

variable {R : Type}

/-- A new pool, its workers just submitted. -/
def start (cpuCount : Nat) (config : AppConfig R) : WorkerPool R where
  config := config
  workers := List.replicate (config.resolvedWorkers cpuCount) .submitted

def onWorker (i : Nat) (f : WorkerPhase R → Option (WorkerPhase R)) (p : WorkerPool R) :
    Option (WorkerPool R) := do
  let w ← p.workers[i]?
  let w' ← f w
  pure { p with workers := p.workers.set i w' }

/-- `_restart_broken_pool`: once a worker broke the executor all are started anew. -/
def restartBroken (p : WorkerPool R) : Option (WorkerPool R) :=
  if p.workers.any (fun w => w matches .exited) then
    some { p with workers := p.workers.map fun _ => .submitted }
  else none

def reads (p : WorkerPool R) : List (AppConfig R) := p.workers.flatMap WorkerPhase.reads

end WorkerPool

/-- A reload between its own read and its end: the pool it built, and what the runtime
inside the manager has read. -/
structure Reload (R : Type) where
  pool : WorkerPool R
  loaded : Option (AppConfig R) := none

def Reload.reads {R : Type} (r : Reload R) : List (AppConfig R) := r.loaded.toList ++ r.pool.reads

structure ConfiguredRuntime (F R : Type) where
  file : F
  /-- the configuration of the master's `RuntimeState` -/
  runtime : Option (AppConfig R) := none
  pool : Option (WorkerPool R) := none
  servicesStarted : Bool := false
  reloading : Option (Reload R) := none

namespace ConfiguredRuntime

inductive PoolName where
  | inUse | building
  deriving DecidableEq

/-- `runtimeReload` is the read in `RuntimeManager.reload`; what follows it up to the swap
of the pool has no await. -/
inductive Label (F : Type) where
  | load | start | save (file : F)
  | enter (pool : PoolName) (i : Nat) | workerLoad (pool : PoolName) (i : Nat)
  | exit (pool : PoolName) (i : Nat) | restart (pool : PoolName) (i : Nat)
  | restartBroken (pool : PoolName)
  | reload | runtimeReload | reloadFinish | reloadFail

section
variable {F R : Type} (loadConfig : F → Except PyException (AppConfig R)) (cpuCount : Nat)

def onPool (name : PoolName) (f : WorkerPool R → Option (WorkerPool R))
    (s : ConfiguredRuntime F R) : Option (ConfiguredRuntime F R) :=
  match name with
  | .inUse => do
    let p ← s.pool
    let p' ← f p
    pure { s with pool := some p' }
  | .building => do
    let r ← s.reloading
    let p' ← f r.pool
    pure { s with reloading := some { r with pool := p' } }

def step (s : ConfiguredRuntime F R) : Label F → Option (ConfiguredRuntime F R)
  | .load =>
    match s.pool, loadConfig s.file with
    | none, .ok config => some { s with runtime := some config }
    | _, _ => none
  | .start =>
    match s.pool, s.runtime with
    | none, some config =>
      some { s with
        pool := some (WorkerPool.start cpuCount config)
        servicesStarted := config.servicesStarted }
    | _, _ => none
  | .save file => some { s with file }
  | .enter name i => s.onPool name (WorkerPool.onWorker i (WorkerPhase.enter (loadConfig s.file)))
  | .workerLoad name i =>
    s.onPool name (WorkerPool.onWorker i (WorkerPhase.load (loadConfig s.file)))
  | .exit name i => s.onPool name (WorkerPool.onWorker i WorkerPhase.exit)
  | .restart name i => s.onPool name (WorkerPool.onWorker i WorkerPhase.restart)
  | .restartBroken name => s.onPool name WorkerPool.restartBroken
  | .reload =>
    match s.pool, s.runtime, s.reloading, loadConfig s.file with
    | some _, some old, none, .ok new =>
      -- a change of the listeners or of the web address needs a new process
      if s.servicesStarted ∧ old.serviceSignature ≠ new.serviceSignature then none
      else some { s with reloading := some { pool := WorkerPool.start cpuCount new } }
    | _, _, _, _ => none
  | .runtimeReload =>
    match s.reloading with
    | some { pool, loaded := none } =>
      match loadConfig s.file with
      | .ok config => some { s with reloading := some { pool, loaded := some config } }
      | .error _ => some { s with reloading := none }
    | _ => none
  | .reloadFinish =>
    match s.reloading with
    | some { pool, loaded := some config } =>
      some { s with runtime := some config, pool := some pool, reloading := none }
    | _ => none
  | .reloadFail =>
    match s.reloading with
    | some _ => some { s with reloading := none }
    | none => none

/-! ### What a saved configuration changes -/

/-- The master and every worker of the pool in use run the configuration the pool was
built with at the last start or reload. -/
structure InForce (s : ConfiguredRuntime F R) : Prop where
  master : ∀ p, s.pool = some p → s.runtime = some p.config
  workers : ∀ p, s.pool = some p → ∀ w ∈ p.workers, ∀ c ∈ w.reads, c = p.config

/-- A worker of the pool in use reads what the pool was built with, and all reads of a
reload that comes to its end give what its first one gave. -/
def ReadsInForce (s : ConfiguredRuntime F R) : Label F → Prop
  | .enter .inUse _ | .workerLoad .inUse _ =>
    ∀ p c, s.pool = some p → loadConfig s.file = .ok c → c = p.config
  | .reloadFinish => ∀ r, s.reloading = some r → ∀ c ∈ r.reads, c = r.pool.config
  | _ => True

variable {loadConfig cpuCount} {s s' : ConfiguredRuntime F R}

/-- Any two workers of the pool in use run one configuration, the master's. -/
theorem InForce.agree (h : s.InForce) {p : WorkerPool R} (hp : s.pool = some p)
    {w w' : WorkerPhase R} (hw : w ∈ p.workers) (hw' : w' ∈ p.workers) {c c' : AppConfig R}
    (hc : c ∈ w.reads) (hc' : c' ∈ w'.reads) : c = c' ∧ s.runtime = some c := by
  have hwc := h.workers p hp w hw c hc
  exact ⟨hwc.trans (h.workers p hp w' hw' c' hc').symm,by rw [h.master p hp,hwc]⟩

theorem onWorker_some {i : Nat} {f : WorkerPhase R → Option (WorkerPhase R)} {p p' : WorkerPool R}
    (h : p.onWorker i f = some p') :
    ∃ w w', p.workers[i]? = some w ∧ f w = some w' ∧
      p' = { p with workers := p.workers.set i w' } := by
  obtain ⟨w,hw,hrest⟩ := Option.bind_eq_some_iff.mp h
  obtain ⟨w',hw',hp'⟩ := Option.bind_eq_some_iff.mp hrest
  exact ⟨w,w',hw,hw',(Option.some.inj hp').symm⟩

theorem onPool_inUse_some {f : WorkerPool R → Option (WorkerPool R)}
    (h : s.onPool .inUse f = some s') :
    ∃ p p', s.pool = some p ∧ f p = some p' ∧ s' = { s with pool := some p' } := by
  obtain ⟨p,hp,hrest⟩ := Option.bind_eq_some_iff.mp h
  obtain ⟨p',hp',hs'⟩ := Option.bind_eq_some_iff.mp hrest
  exact ⟨p,p',hp,hp',(Option.some.inj hs').symm⟩

theorem InForce.of_same (h : s.InForce) (hpool : s'.pool = s.pool)
    (hruntime : s'.runtime = s.runtime) : s'.InForce where
  master p hp := hruntime.trans (h.master p (hpool.symm.trans hp))
  workers p hp := h.workers p (hpool.symm.trans hp)

/-- The workers of a pool that is being built do not matter yet. -/
theorem InForce.of_building {f : WorkerPool R → Option (WorkerPool R)} (h : s.InForce)
    (hs : s.onPool .building f = some s') : s'.InForce := by
  obtain ⟨r,hr,hrest⟩ := Option.bind_eq_some_iff.mp hs
  obtain ⟨p',hp',hs'⟩ := Option.bind_eq_some_iff.mp hrest
  obtain rfl := Option.some.inj hs'
  exact h.of_same rfl rfl

/-- A worker that has read nothing but the configuration in force keeps the state in force. -/
theorem InForce.onWorker {i : Nat} {f : WorkerPhase R → Option (WorkerPhase R)} (h : s.InForce)
    (hs : s.onPool .inUse (WorkerPool.onWorker i f) = some s')
    (hf : ∀ p w w', s.pool = some p → w ∈ p.workers → f w = some w' →
      ∀ c ∈ w'.reads, c ∈ w.reads ∨ c = p.config) : s'.InForce := by
  obtain ⟨p,p',hp,hp',rfl⟩ := onPool_inUse_some hs
  obtain ⟨w,w',hw,hw',rfl⟩ := onWorker_some hp'
  have hmem := List.mem_of_getElem? hw
  constructor
  · intro q hq
    cases hq
    exact h.master p hp
  · intro q hq v hv c hc
    cases hq
    rcases List.mem_or_eq_of_mem_set hv with hold | rfl
    · exact h.workers p hp v hold c hc
    · exact (hf p w v hp hmem hw' c hc).elim (h.workers p hp w hmem c) id

theorem InForce.restartBroken (h : s.InForce)
    (hs : s.onPool .inUse WorkerPool.restartBroken = some s') : s'.InForce := by
  obtain ⟨p,p',hp,hp',rfl⟩ := onPool_inUse_some hs
  unfold WorkerPool.restartBroken at hp'
  split at hp'
  · cases hp'
    constructor
    · intro q hq
      cases hq
      exact h.master p hp
    · intro q hq w hw c hc
      cases hq
      obtain ⟨_,_,rfl⟩ := List.mem_map.mp hw
      simp [WorkerPhase.reads] at hc
  · contradiction

/-- A reload all of whose reads agree puts its pool in force. -/
theorem InForce.of_reload {pool : WorkerPool R} {config : AppConfig R}
    (hreads : ∀ c ∈ Reload.reads { pool, loaded := some config }, c = pool.config) :
    InForce { s with runtime := some config, pool := some pool, reloading := none } := by
  constructor
  · intro p hp
    cases hp
    exact congrArg some (hreads config (by simp [Reload.reads]))
  · intro p hp w hw c hc
    cases hp
    refine hreads c ?_
    simp only [Reload.reads,WorkerPool.reads,List.mem_append,List.mem_flatMap]
    exact .inr ⟨w,hw,hc⟩

theorem enter_reads {read : Except PyException (AppConfig R)} {w w' : WorkerPhase R}
    (h : w.enter read = some w') : ∀ c ∈ w'.reads, c ∈ w.reads ∨ read = .ok c := by
  cases w with
  | submitted =>
    cases read with
    | ok config =>
      cases h
      simp [WorkerPhase.reads]
    | error e =>
      cases h
      simp [WorkerPhase.reads]
  | _ => contradiction

theorem load_reads {read : Except PyException (AppConfig R)} {w w' : WorkerPhase R}
    (h : w.load read = some w') : ∀ c ∈ w'.reads, c ∈ w.reads ∨ read = .ok c := by
  cases w with
  | entered entry =>
    cases read with
    | ok config =>
      cases h
      simp [WorkerPhase.reads]
    | error e =>
      cases h
      simp [WorkerPhase.reads]
  | _ => contradiction

theorem exit_reads {w w' : WorkerPhase R} (h : w.exit = some w') : w'.reads = [] := by
  cases w <;> cases h <;> rfl

theorem restart_reads {w w' : WorkerPhase R} (h : w.restart = some w') : w'.reads = [] := by
  cases w <;> cases h
  rfl

/-- The step lemma: reads of what is in force keep it in force. -/
theorem InForce.step {l : Label F} (h : s.InForce) (hreads : s.ReadsInForce loadConfig l)
    (hs : s.step loadConfig cpuCount l = some s') : s'.InForce := by
  cases l with
  | load =>
    simp only [ConfiguredRuntime.step] at hs
    split at hs
    · rename_i hnone _
      cases hs
      constructor <;> simp [hnone]
    · contradiction
  | start =>
    simp only [ConfiguredRuntime.step] at hs
    split at hs
    · rename_i config _ hruntime
      cases hs
      constructor
      · intro p hp
        cases hp
        exact hruntime
      · intro p hp w hw c hc
        cases hp
        obtain rfl := List.eq_of_mem_replicate hw
        simp [WorkerPhase.reads] at hc
    · contradiction
  | save file =>
    cases hs
    exact h.of_same rfl rfl
  | enter name i =>
    cases name with
    | inUse =>
      refine h.onWorker hs fun p w w' hp _ hw' c hc => ?_
      exact (enter_reads hw' c hc).imp_right (hreads p c hp)
    | building => exact h.of_building hs
  | workerLoad name i =>
    cases name with
    | inUse =>
      refine h.onWorker hs fun p w w' hp _ hw' c hc => ?_
      exact (load_reads hw' c hc).imp_right (hreads p c hp)
    | building => exact h.of_building hs
  | exit name i =>
    cases name with
    | inUse => exact h.onWorker hs fun p w w' _ _ hw' c hc => by simp [exit_reads hw'] at hc
    | building => exact h.of_building hs
  | restart name i =>
    cases name with
    | inUse => exact h.onWorker hs fun p w w' _ _ hw' c hc => by simp [restart_reads hw'] at hc
    | building => exact h.of_building hs
  | restartBroken name =>
    cases name with
    | inUse => exact h.restartBroken hs
    | building => exact h.of_building hs
  | reload =>
    simp only [ConfiguredRuntime.step] at hs
    repeat' split at hs
    all_goals cases hs
    exact h.of_same rfl rfl
  | runtimeReload =>
    simp only [ConfiguredRuntime.step] at hs
    repeat' split at hs
    all_goals cases hs
    · exact h.of_same rfl rfl
    · exact h.of_same rfl rfl
  | reloadFinish =>
    simp only [ConfiguredRuntime.step] at hs
    split at hs
    · rename_i pool config hr
      cases hs
      exact InForce.of_reload (hreads _ hr)
    · contradiction
  | reloadFail =>
    simp only [ConfiguredRuntime.step] at hs
    split at hs
    · cases hs
      exact h.of_same rfl rfl
    · contradiction

/-- A worker that has just read another configuration than the one in force shows it. -/
theorem InForce.shows_worker {i : Nat} {f : WorkerPhase R → Option (WorkerPhase R)}
    {c : AppConfig R} (h : s'.InForce) (hs : s.onPool .inUse (WorkerPool.onWorker i f) = some s')
    (hf : ∀ w w', f w = some w' → c ∈ w'.reads) {p : WorkerPool R} (hp : s.pool = some p) :
    c = p.config := by
  obtain ⟨q,q',hq,hq',rfl⟩ := onPool_inUse_some hs
  obtain ⟨w,w',hw,hw',rfl⟩ := onWorker_some hq'
  obtain rfl : q = p := Option.some.inj (hq.symm.trans hp)
  obtain ⟨hi,_⟩ := List.getElem?_eq_some_iff.mp hw
  exact h.workers _ rfl w' (List.mem_set hi w') c (hf w w' hw')

theorem InForce.shows {l : Label F} (h : s'.InForce)
    (hs : s.step loadConfig cpuCount l = some s') : s.ReadsInForce loadConfig l := by
  cases l with
  | enter name i =>
    cases name with
    | inUse =>
      intro p c hp hc
      refine h.shows_worker hs (fun w w' hw' => ?_) hp
      cases w with
      | submitted =>
        rw [hc] at hw'
        cases hw'
        simp [WorkerPhase.reads]
      | _ => contradiction
    | building => trivial
  | workerLoad name i =>
    cases name with
    | inUse =>
      intro p c hp hc
      refine h.shows_worker hs (fun w w' hw' => ?_) hp
      cases w with
      | entered entry =>
        rw [hc] at hw'
        cases hw'
        simp [WorkerPhase.reads]
      | _ => contradiction
    | building => trivial
  | reloadFinish =>
    intro r hr c hc
    simp only [ConfiguredRuntime.step] at hs
    split at hs
    · rename_i pool config hr'
      cases hs
      obtain rfl := Option.some.inj (hr.symm.trans hr')
      simp only [Reload.reads,WorkerPool.reads,Option.toList_some,List.singleton_append,
        List.mem_cons,List.mem_flatMap] at hc
      rcases hc with rfl | ⟨w,hw,hc⟩
      · exact Option.some.inj (h.master pool rfl)
      · exact h.workers pool rfl w hw c hc
    · contradiction
  | _ => trivial

/-- Saving changes nothing that runs, just as long as the file is read for a pool in use
only while it says what the pool was built with. -/
theorem savedConfig_inForce_iff (loadConfig : F → Except PyException (AppConfig R))
    (cpuCount : Nat) (file : F) (ls : List (Label F)) :
    Transition.Always (ConfiguredRuntime.step loadConfig cpuCount) InForce { file } ls ↔
      Transition.Guarded (ConfiguredRuntime.step loadConfig cpuCount) (ReadsInForce loadConfig)
        { file } ls := by
  constructor
  · intro h
    exact h.guarded (I:=fun _ => True) trivial (fun _ _ _ _ _ => trivial)
      fun s l s' _ hs h' => h'.shows hs
  · intro h
    exact h.always ⟨by simp,by simp⟩ fun s l s' hin hreads hs => hin.step hreads hs

end

/-- Two workers and no services; the rest of the configuration is a number. -/
def numbered (n : Nat) : AppConfig Nat := ⟨[],⟨false,false,"127.0.0.1",8080⟩,some 2,n⟩

/-- After both workers are up a configuration is saved, and one worker exits. -/
def savedRun : List (Label (AppConfig Nat)) :=
  [.load,.start,.enter .inUse 0,.workerLoad .inUse 0,.enter .inUse 1,.workerLoad .inUse 1,
    .save (numbered 2),.exit .inUse 0,.restart .inUse 0,.enter .inUse 0,.workerLoad .inUse 0]

/-- The restarted worker runs the saved configuration without a reload. -/
theorem savedConfig_runs_after_restart :
    ¬ Transition.Always (ConfiguredRuntime.step .ok 1) InForce { file := numbered 1 } savedRun := by
  intro h
  have hrun : ∃ s, Transition.run (ConfiguredRuntime.step .ok 1) { file := numbered 1 } savedRun =
      some s ∧ s.pool = some ⟨numbered 1,
        [.running (numbered 2) (numbered 2),.running (numbered 1) (numbered 1)]⟩ :=
    ⟨_,rfl,rfl⟩
  obtain ⟨s,hs,hp⟩ := hrun
  have hread := (h.final hs).workers _ hp _ List.mem_cons_self (numbered 2) List.mem_cons_self
  revert hread
  decide

end ConfiguredRuntime

end SmartDns
