import Mathlib.Data.List.Forall2
import Mathlib.Data.List.Perm.Subperm
set_option autoImplicit false

/-!
Fork-join trees under an arbitrary schedule. A leaf makes one value of its call; a
node starts all its children at once, collects what they deliver in the order of
delivery, and finishes either early (its join policy already decides on the
values delivered so far, and the children still running are dropped) or when
every child has delivered. What tasks report as they finish is logged.
-/

namespace ForkJoin

open scoped List

variable {β κ α : Type*}

/-- Every node has at least one child: a first one and the rest. -/
inductive JoinTree (β κ : Type*) where
  | leaf : κ → JoinTree β κ
  | node : β → JoinTree β κ → List (JoinTree β κ) → JoinTree β κ

mutual
def JoinTree.leaves : JoinTree β κ → List κ
  | .leaf k => [k]
  | .node _ t ts => t.leaves ++ leavesAll ts
def leavesAll : List (JoinTree β κ) → List κ
  | [] => []
  | t :: ts => t.leaves ++ leavesAll ts
end

theorem leavesAll_eq_flatMap (ts : List (JoinTree β κ)) :
    leavesAll ts = ts.flatMap JoinTree.leaves := by
  induction ts with
  | nil => rfl
  | cons t ts ih => simp [leavesAll,ih]

/-- The children of a node in configuration order; a leaf has none. -/
def JoinTree.children : JoinTree β κ → List (JoinTree β κ)
  | .leaf _ => []
  | .node _ t ts => t :: ts

theorem JoinTree.leaves_node (b : β) (t : JoinTree β κ) (ts : List (JoinTree β κ)) :
    (JoinTree.node b t ts).leaves = (t :: ts).flatMap JoinTree.leaves := by
  simp [leaves,leavesAll_eq_flatMap]

theorem JoinTree.leaves_ne_nil : (t : JoinTree β κ) → t.leaves ≠ []
  | .leaf k => by simp [leaves]
  | .node b t ts => by
    have h := JoinTree.leaves_ne_nil t
    simp [leaves,h]

/-- `early` may decide on the values delivered so far; `final` decides once
every child has delivered. -/
structure Join (α : Type*) where
  early : List α → Option α
  final : List α → α

/-- What the tasks of a tree do: a leaf makes a value of its call, a node goes on from the
value that its join has decided on. The lists are what they report. -/
structure Program (β κ α : Type*) extends Join α where
  leaf : κ → α × List α
  node : β → α → α × List α

def Program.value (P : Program β κ α) (call : κ) : α := (P.leaf call).1

def JoinTree.values (P : Program β κ α) (t : JoinTree β κ) : List α := t.leaves.map P.value

/-- A running tree. `produced` records the leaf values of the subtree that came
into being before it ended. -/
inductive Task (β κ α : Type*) where
  | pending : κ → Task β κ α
  | running : β → List (Task β κ α) → List α → Task β κ α
  | finished : α → List α → Task β κ α
  | delivered : α → List α → Task β κ α

mutual
def spawn : JoinTree β κ → Task β κ α
  | .leaf k => .pending k
  | .node b t ts => .running b (spawn t :: spawnAll ts) []
def spawnAll : List (JoinTree β κ) → List (Task β κ α)
  | [] => []
  | t :: ts => spawn t :: spawnAll ts
end

mutual
def Task.produced : Task β κ α → List α
  | .pending _ => []
  | .running _ slots _ => producedAll slots
  | .finished _ made => made
  | .delivered _ made => made
def producedAll : List (Task β κ α) → List α
  | [] => []
  | s :: slots => s.produced ++ producedAll slots
end

theorem producedAll_eq_flatMap (slots : List (Task β κ α)) :
    producedAll slots = slots.flatMap Task.produced := by
  induction slots with
  | nil => rfl
  | cons s slots ih => simp [producedAll,ih]

def Task.handed : Task β κ α → Option α
  | .delivered a _ => some a
  | _ => none

@[simp] theorem handed_pending (k : κ) : (Task.pending k : Task β κ α).handed = none := rfl
@[simp] theorem handed_running (b : β) (slots : List (Task β κ α)) (arrived : List α) :
    (Task.running b slots arrived).handed = none := rfl
@[simp] theorem handed_finished (a : α) (made : List α) :
    (Task.finished a made : Task β κ α).handed = none := rfl
@[simp] theorem handed_delivered (a : α) (made : List α) :
    (Task.delivered a made : Task β κ α).handed = some a := rfl

theorem spawn_handed (t : JoinTree β κ) : (spawn t : Task β κ α).handed = none := by
  cases t <;> rfl

/-- One scheduling decision, addressed by the path to the task it concerns. At
a pending leaf the leaf produces its value; at a finished child the value is
delivered to its parent; at a running node the node joins. -/
def step (P : Program β κ α) : List Nat → Task β κ α → Option (Task β κ α × List α)
  | [], .pending k => some (.finished (P.value k) [P.value k],(P.leaf k).2)
  | [], .running b slots arrived =>
    match P.early arrived with
    | some a => some (.finished (P.node b a).1 (producedAll slots),(P.node b a).2)
    | none =>
      if slots.all (fun s => s.handed.isSome) then
        some (.finished (P.node b (P.final arrived)).1 (producedAll slots),
          (P.node b (P.final arrived)).2)
      else none
  | i :: p, .running b slots arrived =>
    match slots[i]? with
    | some (.finished a made) =>
      if p = [] then some (.running b (slots.set i (.delivered a made)) (arrived ++ [a]),[])
      else none
    | some s => (step P p s).map fun r => (.running b (slots.set i r.1) arrived,r.2)
    | none => none
  | _, _ => none

/-- A run from the first decision to the last, with all that is reported. -/
def exec (P : Program β κ α) : List (List Nat) → Task β κ α → Option (Task β κ α × List α)
  | [], s => some (s,[])
  | p :: schedule, s => do
    let (s',reported) ← step P p s
    let (s'',rest) ← exec P schedule s'
    pure (s'',reported ++ rest)

/-! ### What a schedule can reach -/

theorem split_at {γ : Type*} {slots : List γ} {i : Nat} {s : γ} (h : slots[i]? = some s) :
    ∃ l r, slots = l ++ s :: r ∧ ∀ x, slots.set i x = l ++ x :: r := by
  obtain ⟨hi,rfl⟩ := List.getElem?_eq_some_iff.mp h
  refine ⟨slots.take i,slots.drop (i+1),?_,fun x => ?_⟩
  · rw [List.getElem_cons_drop,List.take_append_drop]
  · rw [List.set_eq_take_append_cons_drop,if_pos hi]

theorem forall₂_replace {γ δ : Type*} {R : γ → δ → Prop} {ts : List γ} {l r : List δ} {s s' : δ}
    (h : List.Forall₂ R ts (l ++ s :: r)) (hs : ∀ t, R t s → R t s') :
    List.Forall₂ R ts (l ++ s' :: r) := by
  induction l generalizing ts with
  | nil =>
    cases h with
    | cons hd tl => exact .cons (hs _ hd) tl
  | cons x l ih =>
    cases h with
    | cons hd tl => exact .cons hd (ih tl)

/-- A property of finished trees that every leaf has and both ways of joining
preserve. An early join only knows that each delivered value comes from a child
with the property; a final join knows that every child has delivered once. -/
structure Program.Preserves (P : Program β κ α) (Good : JoinTree β κ → α → List α → Prop) :
    Prop where
  leaf : ∀ k, Good (.leaf k) (P.value k) [P.value k]
  early : ∀ b t ts arrived made a,
    (∀ x ∈ arrived, ∃ c ∈ t :: ts, ∃ m, Good c x m ∧ m ⊆ made) →
    made <+~ (JoinTree.node b t ts).values P → P.early arrived = some a →
    Good (.node b t ts) (P.node b a).1 made
  final : ∀ b t ts runs arrived,
    List.Forall₂ (fun c r => Good c r.1 r.2) (t :: ts) runs →
    arrived.Perm (runs.map Prod.fst) → P.early arrived = none →
    Good (.node b t ts) (P.node b (P.final arrived)).1 (runs.flatMap Prod.snd)

/-- Each leaf reports the value it makes, and no node reports anything. -/
structure Program.ReportsLeaves (P : Program β κ α) : Prop where
  leaf : ∀ k, (P.leaf k).2 = [P.value k]
  node : ∀ b a, (P.node b a).2 = []

variable {P : Program β κ α} {Good : JoinTree β κ → α → List α → Prop}

theorem JoinTree.values_node (b : β) (t : JoinTree β κ) (ts : List (JoinTree β κ)) :
    (JoinTree.node b t ts).values P = t.values P ++ (leavesAll ts).map P.value := by
  simp [values,leaves]

/-- The states a tree can be in, with the property at every finished task. -/
inductive Follows (P : Program β κ α) (Good : JoinTree β κ → α → List α → Prop) :
    JoinTree β κ → Task β κ α → Prop where
  | pending (k : κ) : Follows P Good (.leaf k) (.pending k)
  | running {b : β} {t : JoinTree β κ} {ts : List (JoinTree β κ)} {slots : List (Task β κ α)}
      {arrived : List α} (hslots : List.Forall₂ (Follows P Good) (t :: ts) slots)
      (harrived : arrived.Perm (slots.filterMap Task.handed)) :
      Follows P Good (.node b t ts) (.running b slots arrived)
  | finished {t : JoinTree β κ} {a : α} {made : List α} (hgood : Good t a made)
      (hmade : made <+~ t.values P) : Follows P Good t (.finished a made)
  | delivered {t : JoinTree β κ} {a : α} {made : List α} (hgood : Good t a made)
      (hmade : made <+~ t.values P) : Follows P Good t (.delivered a made)

mutual
theorem spawn_follows : (t : JoinTree β κ) → Follows P Good t (spawn t)
  | .leaf k => .pending k
  | .node b t ts => by
    have ht := spawn_follows t
    obtain ⟨hts,hnone⟩ := spawnAll_follows ts
    exact .running (.cons ht hts) (by simp [spawn_handed,hnone])
theorem spawnAll_follows : (ts : List (JoinTree β κ)) →
    List.Forall₂ (Follows P Good) ts (spawnAll ts) ∧
      (spawnAll ts : List (Task β κ α)).filterMap Task.handed = []
  | [] => ⟨.nil,rfl⟩
  | t :: ts => by
    have ht := spawn_follows t
    obtain ⟨hts,hnone⟩ := spawnAll_follows ts
    exact ⟨.cons ht hts,by simp [spawnAll,spawn_handed,hnone]⟩
end

mutual
theorem spawn_produced : (t : JoinTree β κ) → (spawn t : Task β κ α).produced = []
  | .leaf _ => rfl
  | .node _ t ts => by simp [spawn,Task.produced,producedAll,spawn_produced t,spawnAll_produced ts]
theorem spawnAll_produced : (ts : List (JoinTree β κ)) →
    producedAll (spawnAll ts : List (Task β κ α)) = []
  | [] => rfl
  | t :: ts => by simp [spawnAll,producedAll,spawn_produced t,spawnAll_produced ts]
end

mutual
/-- No leaf produces twice, whatever has been dropped. -/
theorem Follows.produced_subperm : (t : JoinTree β κ) → {s : Task β κ α} → Follows P Good t s →
    s.produced <+~ t.values P
  | _, .pending _, _ => by simp [Task.produced]
  | .node b t ts, .running _ _ _, .running hslots _ => by
    have hall := produced_subpermAll (t :: ts) hslots
    rw [JoinTree.values_node]
    simpa [Task.produced,leavesAll,JoinTree.values] using hall
  | _, .finished _ _, .finished _ hmade => hmade
  | _, .delivered _ _, .delivered _ hmade => hmade
theorem produced_subpermAll : (ts : List (JoinTree β κ)) → {slots : List (Task β κ α)} →
    List.Forall₂ (Follows P Good) ts slots → producedAll slots <+~ (leavesAll ts).map P.value
  | [], _, .nil => List.Subperm.refl _
  | t :: ts, _, .cons hs hslots => by
    rw [leavesAll,List.map_append]
    exact (Follows.produced_subperm t hs).append (produced_subpermAll ts hslots)
end

/-- Every value handed to the parent comes from a child with the property. -/
theorem Follows.handed_good {ts : List (JoinTree β κ)} {slots : List (Task β κ α)}
    (h : List.Forall₂ (Follows P Good) ts slots) {x : α} (hx : x ∈ slots.filterMap Task.handed) :
    ∃ c ∈ ts, ∃ m, Good c x m ∧ m ⊆ producedAll slots := by
  induction h with
  | nil => simp at hx
  | @cons t s ts slots hs hslots ih =>
    have later (hx : x ∈ slots.filterMap Task.handed) :
        ∃ c ∈ t :: ts, ∃ m, Good c x m ∧ m ⊆ producedAll (s :: slots) := by
      obtain ⟨c,hc,m,hgood,hm⟩ := ih hx
      exact ⟨c,List.mem_cons_of_mem _ hc,m,hgood,fun y hy => by simp [producedAll,hm hy]⟩
    cases hs with
    | delivered hgood _ =>
      simp only [List.filterMap_cons,handed_delivered,List.mem_cons] at hx
      obtain rfl | hx := hx
      · exact ⟨t,List.mem_cons_self,_,hgood,fun y hy => by simp [producedAll,Task.produced,hy]⟩
      · exact later hx
    | pending a => exact later (by simpa using hx)
    | running _ _ => exact later (by simpa using hx)
    | finished _ _ => exact later (by simpa using hx)

/-- Once every slot has been delivered, the slots are the finished children. -/
theorem Follows.all_handed {ts : List (JoinTree β κ)} {slots : List (Task β κ α)}
    (h : List.Forall₂ (Follows P Good) ts slots)
    (hall : slots.all (fun s => s.handed.isSome) = true) :
    ∃ runs, List.Forall₂ (fun c r => Good c r.1 r.2) ts runs ∧
      slots.filterMap Task.handed = runs.map Prod.fst ∧
      producedAll slots = runs.flatMap Prod.snd := by
  induction h with
  | nil => exact ⟨[],.nil,rfl,rfl⟩
  | cons hs hslots ih =>
    simp only [List.all_cons,Bool.and_eq_true] at hall
    obtain ⟨runs,hruns,hvalues,hmade⟩ := ih hall.2
    cases hs with
    | @delivered t a made hgood _ =>
      exact ⟨(a,made) :: runs,.cons hgood hruns,by simp [hvalues],
        by simp [producedAll,Task.produced,hmade]⟩
    | pending a => simp at hall
    | running _ _ => simp at hall
    | finished _ _ => simp at hall

theorem producedAll_append (l r : List (Task β κ α)) :
    producedAll (l ++ r) = producedAll l ++ producedAll r := by
  simp [producedAll_eq_flatMap]

theorem filterMap_replace {γ δ : Type*} (f : γ → Option δ) (l r : List γ) {s s' : γ}
    (h : f s' = f s) : (l ++ s' :: r).filterMap f = (l ++ s :: r).filterMap f := by
  simp [List.filterMap_append,List.filterMap_cons,h]

/-- What a scheduling decision does to a task, with what is reported. -/
inductive Decides (P : Program β κ α) : Task β κ α → Task β κ α → List α → Prop where
  | produce (k : κ) : Decides P (.pending k) (.finished (P.value k) [P.value k]) (P.leaf k).2
  | early {b : β} {slots : List (Task β κ α)} {arrived : List α} {a : α}
      (h : P.early arrived = some a) :
      Decides P (.running b slots arrived) (.finished (P.node b a).1 (producedAll slots))
        (P.node b a).2
  | final {b : β} {slots : List (Task β κ α)} {arrived : List α} (hearly : P.early arrived = none)
      (hall : slots.all (fun s => s.handed.isSome) = true) :
      Decides P (.running b slots arrived)
        (.finished (P.node b (P.final arrived)).1 (producedAll slots))
        (P.node b (P.final arrived)).2
  | deliver (b : β) (l r : List (Task β κ α)) (a : α) (made arrived : List α) :
      Decides P (.running b (l ++ .finished a made :: r) arrived)
        (.running b (l ++ .delivered a made :: r) (arrived ++ [a])) []
  | child (b : β) (l r : List (Task β κ α)) (arrived : List α) {s s' : Task β κ α}
      {reported : List α} (h : Decides P s s' reported) :
      Decides P (.running b (l ++ s :: r) arrived) (.running b (l ++ s' :: r) arrived) reported

/-- The inversion of `step`; everything below follows the decisions, not the paths. -/
theorem decides_of_step {p : List Nat} {s s' : Task β κ α} {reported : List α}
    (h : step P p s = some (s',reported)) : Decides P s s' reported := by
  induction p generalizing s s' reported with
  | nil =>
    cases s with
    | pending k =>
      simp only [step,Option.some.injEq,Prod.mk.injEq] at h
      obtain ⟨rfl,rfl⟩ := h
      exact .produce k
    | running b slots arrived =>
      simp only [step] at h
      split at h
      · rename_i a hearly
        simp only [Option.some.injEq,Prod.mk.injEq] at h
        obtain ⟨rfl,rfl⟩ := h
        exact .early hearly
      · rename_i hearly
        split at h
        · rename_i hall
          simp only [Option.some.injEq,Prod.mk.injEq] at h
          obtain ⟨rfl,rfl⟩ := h
          exact .final hearly hall
        · contradiction
    | finished a made => simp [step] at h
    | delivered a made => simp [step] at h
  | cons i p ih =>
    cases s with
    | pending k => simp [step] at h
    | running b slots arrived =>
      simp only [step] at h
      split at h
      · rename_i a made hi
        obtain ⟨l,r,rfl,hset⟩ := split_at hi
        split at h
        · simp only [Option.some.injEq,Prod.mk.injEq] at h
          obtain ⟨rfl,rfl⟩ := h
          rw [hset]
          exact .deliver b l r a made arrived
        · contradiction
      · rename_i s hi hnot
        obtain ⟨l,r,rfl,hset⟩ := split_at hnot
        simp only [Option.map_eq_some_iff,Prod.mk.injEq] at h
        obtain ⟨⟨child,new⟩,hchild,rfl,rfl⟩ := h
        rw [hset]
        exact .child b l r arrived (ih hchild)
      · contradiction
    | finished a made => simp [step] at h
    | delivered a made => simp [step] at h

/-- A decision is about a task that has not ended, and hands nothing over by itself. -/
theorem Decides.handed {s s' : Task β κ α} {reported : List α} (h : Decides P s s' reported) :
    s.handed = none ∧ s'.handed = none := by
  cases h <;> exact ⟨rfl,rfl⟩

/-- The step lemma: a scheduling decision keeps the property at every finished task. -/
theorem Follows.step (hP : P.Preserves Good) {t : JoinTree β κ} {s s' : Task β κ α}
    {reported : List α} (h : Follows P Good t s) (hstep : Decides P s s' reported) :
    Follows P Good t s' := by
  induction hstep generalizing t with
  | produce k =>
    cases h with
    | pending _ => exact .finished (hP.leaf k) (by simp [JoinTree.values,JoinTree.leaves])
  | @early b slots arrived a hearly =>
    cases h with
    | @running _ t ts _ _ hslots harrived =>
      have hmade : producedAll slots <+~ (JoinTree.node b t ts).values P :=
        produced_subpermAll (t :: ts) hslots
      have hgood : ∀ x ∈ arrived, ∃ c ∈ t :: ts, ∃ m, Good c x m ∧ m ⊆ producedAll slots :=
        fun x hx => Follows.handed_good hslots (harrived.mem_iff.mp hx)
      exact .finished (hP.early b t ts arrived _ a hgood hmade hearly) hmade
  | @final b slots arrived hearly hall =>
    cases h with
    | @running _ t ts _ _ hslots harrived =>
      have hmade : producedAll slots <+~ (JoinTree.node b t ts).values P :=
        produced_subpermAll (t :: ts) hslots
      obtain ⟨runs,hruns,hvalues,hproduced⟩ := Follows.all_handed hslots hall
      rw [hvalues] at harrived
      have hgood := hP.final b t ts runs arrived hruns harrived hearly
      rw [← hproduced] at hgood
      exact .finished hgood hmade
  | deliver b l r a made arrived =>
    cases h with
    | running hslots harrived =>
      refine .running (forall₂_replace hslots ?_) ?_
      · intro c hc
        cases hc with
        | finished hgood hmade => exact .delivered hgood hmade
      · refine (harrived.append_right [a]).trans ?_
        simp only [List.filterMap_append,List.filterMap_cons,handed_finished,handed_delivered,
          List.append_assoc]
        exact List.Perm.append_left _ (List.perm_append_singleton a _)
  | child b l r arrived hchild ih =>
    obtain ⟨hbefore,hafter⟩ := hchild.handed
    cases h with
    | running hslots harrived =>
      refine .running (forall₂_replace hslots fun c hc => ih hc) ?_
      rwa [filterMap_replace Task.handed l r (hafter.trans hbefore.symm)]

/-- Where leaves report and nodes do not, a decision reports just what it produces. -/
theorem Decides.produced (hP : P.ReportsLeaves) {s s' : Task β κ α} {reported : List α}
    (h : Decides P s s' reported) : s'.produced.Perm (s.produced ++ reported) := by
  induction h with
  | produce k => simp [Task.produced,hP.leaf]
  | early _ => simp [Task.produced,hP.node]
  | final _ _ => simp [Task.produced,hP.node]
  | deliver b l r a made arrived => simp [Task.produced,producedAll_append,producedAll]
  | child b l r arrived _ ih =>
    simp only [Task.produced,producedAll_append,producedAll,List.append_assoc]
    refine List.Perm.append_left _ ?_
    refine (ih.append_right _).trans ?_
    rw [List.append_assoc]
    exact List.Perm.append_left _ List.perm_append_comm

@[simp] theorem exec_nil {s s' : Task β κ α} {log : List α} :
    exec P [] s = some (s',log) ↔ s = s' ∧ log = [] := by
  simp [exec,eq_comm]

theorem exec_cons {p : List Nat} {schedule : List (List Nat)} {s s' : Task β κ α}
    {log : List α} :
    exec P (p :: schedule) s = some (s',log) ↔
      ∃ mid new rest, step P p s = some (mid,new) ∧ exec P schedule mid = some (s',rest) ∧
        log = new ++ rest := by
  simp only [exec,Option.bind_eq_bind,Option.bind_eq_some_iff,Option.pure_def,Option.some.injEq,
    Prod.mk.injEq,Prod.exists]
  constructor
  · intro h
    obtain ⟨mid,new,hs,fin,rest,hrest,rfl,rfl⟩ := h
    exact ⟨mid,new,rest,hs,hrest,rfl⟩
  · intro h
    obtain ⟨mid,new,rest,hs,hrest,rfl⟩ := h
    exact ⟨mid,new,hs,s',rest,hrest,rfl,rfl⟩

theorem Follows.exec (hP : P.Preserves Good) {schedule : List (List Nat)} {t : JoinTree β κ}
    {s s' : Task β κ α} {log : List α} (h : Follows P Good t s)
    (hexec : ForkJoin.exec P schedule s = some (s',log)) : Follows P Good t s' := by
  induction schedule generalizing s log with
  | nil =>
    obtain ⟨rfl,-⟩ := exec_nil.mp hexec
    exact h
  | cons p schedule ih =>
    obtain ⟨mid,new,rest,hs,hrest,-⟩ := exec_cons.mp hexec
    exact ih (h.step hP (decides_of_step hs)) hrest

theorem exec_produced (hP : P.ReportsLeaves) {schedule : List (List Nat)} {s s' : Task β κ α}
    {log : List α} (h : exec P schedule s = some (s',log)) :
    s'.produced.Perm (s.produced ++ log) := by
  induction schedule generalizing s log with
  | nil =>
    obtain ⟨rfl,rfl⟩ := exec_nil.mp h
    simp
  | cons p schedule ih =>
    obtain ⟨mid,new,rest,hs,hrest,rfl⟩ := exec_cons.mp h
    refine (ih hrest).trans ?_
    rw [← List.append_assoc]
    exact ((decides_of_step hs).produced hP).append_right rest

/-- The run lemma: however the tree is scheduled, a finished run has the property, and no
leaf has produced twice. -/
theorem exec_finished (hP : P.Preserves Good) {schedule : List (List Nat)} {t : JoinTree β κ}
    {a : α} {made log : List α}
    (h : exec P schedule (spawn t) = some (.finished a made,log)) :
    Good t a made ∧ made <+~ t.values P := by
  cases (spawn_follows t).exec hP h with
  | finished hgood hmade => exact ⟨hgood,hmade⟩

/-- What a finished run has reported is what its leaves have produced. -/
theorem exec_reported (hP : P.ReportsLeaves) {schedule : List (List Nat)} {t : JoinTree β κ}
    {a : α} {made log : List α}
    (h : exec P schedule (spawn t) = some (.finished a made,log)) : log.Perm made := by
  have hproduced := exec_produced hP h
  rw [spawn_produced,List.nil_append] at hproduced
  exact hproduced.symm

/-! ### Every schedule ends -/

mutual
def Task.weight : Task β κ α → Nat
  | .pending _ => 2
  | .running _ slots _ => weightAll slots+2
  | .finished _ _ => 1
  | .delivered _ _ => 0
def weightAll : List (Task β κ α) → Nat
  | [] => 0
  | s :: slots => s.weight+weightAll slots
end

theorem weightAll_append (l r : List (Task β κ α)) :
    weightAll (l ++ r) = weightAll l+weightAll r := by
  induction l with
  | nil => simp [weightAll]
  | cons s l ih => simp [weightAll,ih,Nat.add_assoc]

theorem Decides.weight {s s' : Task β κ α} {reported : List α} (h : Decides P s s' reported) :
    s'.weight < s.weight := by
  induction h with
  | produce a => simp [Task.weight]
  | early _ => simp [Task.weight]
  | final _ _ => simp [Task.weight]
  | deliver b l r a made arrived => simp [Task.weight,weightAll_append,weightAll]
  | child b l r arrived _ ih =>
    simp only [Task.weight,weightAll_append,weightAll]
    omega

theorem exec_length {schedule : List (List Nat)} {s s' : Task β κ α} {log : List α}
    (h : exec P schedule s = some (s',log)) : schedule.length+s'.weight ≤ s.weight := by
  induction schedule generalizing s log with
  | nil => simp [(exec_nil.mp h).1]
  | cons p schedule ih =>
    obtain ⟨mid,new,rest,hs,hrest,-⟩ := exec_cons.mp h
    have hlt := (decides_of_step hs).weight
    have hle := ih hrest
    simp only [List.length_cons]
    omega

def Task.ended : Task β κ α → Bool
  | .finished _ _ | .delivered _ _ => true
  | _ => false

mutual
/-- A task that has not ended can always be scheduled somewhere. -/
theorem progress (P : Program β κ α) : (s : Task β κ α) → s.ended = false →
    ∃ p r, step P p s = some r
  | .pending k, _ => ⟨[],_,rfl⟩
  | .running b slots arrived, _ => by
    cases hearly : P.early arrived with
    | some a => exact ⟨[],_,by simp only [step,hearly]; rfl⟩
    | none =>
      obtain hall | ⟨i,p,r,hr⟩ := progressAll P b slots arrived
      · exact ⟨[],_,by simp only [step,hearly,hall,if_true]; rfl⟩
      · exact ⟨i :: p,r,hr⟩
theorem progressAll (P : Program β κ α) (b : β) : (slots : List (Task β κ α)) → (arrived : List α) →
    slots.all (fun s => s.handed.isSome) = true ∨
      ∃ i p r, step P (i :: p) (.running b slots arrived) = some r
  | [], _ => .inl rfl
  | s :: slots, arrived => by
    have later (h : ∃ i p r, step P (i :: p) (.running b slots arrived) = some r) :
        ∃ i p r, step P (i :: p) (.running b (s :: slots) arrived) = some r := by
      obtain ⟨i,p,r,hr⟩ := h
      simp only [step] at hr
      split at hr
      · rename_i a made hi
        split at hr
        · exact ⟨i+1,p,_,by simp only [step,List.getElem?_cons_succ,hi]; rw [if_pos ‹_›]⟩
        · contradiction
      · rename_i c hi hc
        simp only [Option.map_eq_some_iff] at hr
        obtain ⟨q,hq,-⟩ := hr
        refine ⟨i+1,p,(.running b ((s :: slots).set (i+1) q.1) arrived,q.2),?_⟩
        simp only [step,List.getElem?_cons_succ,hc]
        cases c with
        | finished a made => exact absurd rfl (hi a made)
        | _ => rw [hq]; rfl
      · contradiction
    cases s with
    | delivered a made =>
      obtain hall | h := progressAll P b slots arrived
      · exact .inl (by simpa using hall)
      · exact .inr (later h)
    | finished a made => exact .inr ⟨0,[],_,by simp [step]; rfl⟩
    | pending k => exact .inr ⟨0,[],_,by simp [step]; rfl⟩
    | running c inner got =>
      obtain ⟨p,r,hr⟩ := progress P (.running c inner got) rfl
      exact .inr ⟨0,p,_,by simp [step,hr]; rfl⟩
end

theorem exec_append {P : Program β κ α} {p q : List (List Nat)} {s s' s'' : Task β κ α}
    {l m : List α} (hp : exec P p s = some (s',l)) (hq : exec P q s' = some (s'',m)) :
    exec P (p ++ q) s = some (s'',l ++ m) := by
  induction p generalizing s l with
  | nil =>
    obtain ⟨rfl,rfl⟩ := exec_nil.mp hp
    simpa using hq
  | cons x p ih =>
    obtain ⟨mid,new,rest,hs,hrest,rfl⟩ := exec_cons.mp hp
    exact exec_cons.mpr ⟨mid,new,rest ++ m,hs,ih hrest,by simp⟩

theorem exec_ended (P : Program β κ α) (s : Task β κ α) :
    ∃ schedule s' log, exec P schedule s = some (s',log) ∧ s'.ended = true := by
  induction hn : s.weight using Nat.strongRecOn generalizing s with
  | ind n ih =>
    cases hended : s.ended with
    | true => exact ⟨[],s,[],rfl,hended⟩
    | false =>
      obtain ⟨p,⟨mid,new⟩,hp⟩ := progress P s hended
      have hlt := (decides_of_step hp).weight
      obtain ⟨schedule,s',log,hexec,hs'⟩ := ih mid.weight (hn ▸ hlt) mid rfl
      exact ⟨p :: schedule,s',new ++ log,exec_cons.mpr ⟨mid,new,log,hp,hexec,rfl⟩,hs'⟩

theorem exec_handed {schedule : List (List Nat)} {s s' : Task β κ α} {log : List α}
    (h : exec P schedule s = some (s',log)) (hs : s.handed = none) : s'.handed = none := by
  induction schedule generalizing s log with
  | nil => exact (exec_nil.mp h).1 ▸ hs
  | cons p schedule ih =>
    obtain ⟨mid,new,rest,hstep,hrest,-⟩ := exec_cons.mp h
    exact ih hrest (decides_of_step hstep).handed.2

/-- Whatever has been scheduled so far, the rest of a tree can be scheduled to
its end; together with `exec_length`, every maximal run finishes the tree. -/
theorem exec_extends {schedule : List (List Nat)} {t : JoinTree β κ}
    {s : Task β κ α} {log : List α} (h : exec P schedule (spawn t) = some (s,log)) :
    ∃ rest a made log', exec P (schedule ++ rest) (spawn t) = some (.finished a made,log') := by
  obtain ⟨rest,s',more,hrest,hended⟩ := exec_ended P s
  have hall := exec_append h hrest
  cases s' with
  | finished a made => exact ⟨rest,a,made,_,hall⟩
  | delivered a made => simpa using exec_handed hall (spawn_handed t)
  | pending k => simp [Task.ended] at hended
  | running b slots arrived => simp [Task.ended] at hended

end ForkJoin
