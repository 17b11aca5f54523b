import Mathlib.Data.List.Basic
set_option autoImplicit false

/-!
Programs that read and write a state and may raise, where a raised exception
keeps the writes made before it, and rules of pre- and postconditions for them:
a triple names one postcondition for a normal end and one for an exception.
-/

def Exec (ε σ α : Type) : Type := σ → Except ε α × σ

namespace Exec

variable {ε σ τ α β : Type}

instance : Monad (Exec ε σ) where
  pure a s := (.ok a,s)
  bind x f s :=
    match x s with
    | (.ok a,s') => f a s'
    | (.error e,s') => (.error e,s')

def skip : Exec ε σ Unit := pure ()

def get : Exec ε σ σ := fun s => (.ok s,s)

def modify (f : σ → σ) : Exec ε σ Unit := fun s => (.ok (),f s)

def raise (e : ε) : Exec ε σ α := fun s => (.error e,s)

def ofExcept (r : Except ε α) : Exec ε σ α := fun s => (r,s)

/-- `try: x except e: handler e`. -/
def handle (x : Exec ε σ α) (handler : ε → Exec ε σ α) : Exec ε σ α := fun s =>
  match x s with
  | (.ok a,s') => (.ok a,s')
  | (.error e,s') => handler e s'

/-- `try: x finally: y`, where an exception of `y` replaces the result of `x`. -/
def ensuring (x : Exec ε σ α) (y : Exec ε σ Unit) : Exec ε σ α := fun s =>
  match y (x s).2 with
  | (.ok _,s') => ((x s).1,s')
  | (.error e,s') => (.error e,s')

def each : List β → (β → Exec ε σ Unit) → Exec ε σ Unit
  | [], _ => pure ()
  | b :: l, body => do
    body b
    each l body

/-- A loop that leaves as soon as the state after a round asks for it. -/
def eachUntil (stop : σ → Bool) : List β → (β → Exec ε σ Unit) → Exec ε σ Unit
  | [], _ => pure ()
  | b :: l, body => do
    body b
    if stop (← get) then pure () else eachUntil stop l body

def seqAll : List (Exec ε σ Unit) → Exec ε σ Unit
  | [] => pure ()
  | x :: l => do
    x
    seqAll l

/-- Threads of atomic segments, interleaved as the schedule says; what it leaves over
runs thread by thread. An exception ends all threads. -/
def weave : List Nat → List (List (Exec ε σ Unit)) → Exec ε σ Unit
  | [], threads => seqAll threads.flatten
  | i :: schedule, threads =>
    match threads[i]? with
    | some (x :: rest) => do
      x
      weave schedule (threads.set i rest)
    | _ => weave schedule threads

/-- A program over a part of the state. -/
def within (view : σ → τ) (put : τ → σ → σ) (x : Exec ε τ α) : Exec ε σ α := fun s =>
  ((x (view s)).1,put (x (view s)).2 s)

@[simp] theorem run_pure (a : α) (s : σ) : (pure a : Exec ε σ α) s = (.ok a,s) := rfl
@[simp] theorem run_get (s : σ) : (get : Exec ε σ σ) s = (.ok s,s) := rfl
@[simp] theorem run_modify (f : σ → σ) (s : σ) :
    (modify f : Exec ε σ Unit) s = (.ok (),f s) := rfl
@[simp] theorem run_raise (e : ε) (s : σ) : (raise e : Exec ε σ α) s = (.error e,s) := rfl
@[simp] theorem run_ofExcept (r : Except ε α) (s : σ) : (ofExcept r : Exec ε σ α) s = (r,s) := rfl
theorem run_bind (x : Exec ε σ α) (f : α → Exec ε σ β) (s : σ) :
    (x >>= f) s =
      match x s with
      | (.ok a,s') => f a s'
      | (.error e,s') => (.error e,s') := rfl

theorem bind_ok {x : Exec ε σ α} {f : α → Exec ε σ β} {s s' : σ} {a : α}
    (h : x s = (.ok a,s')) : (x >>= f) s = f a s' := by
  rw [run_bind,h]

theorem bind_error {x : Exec ε σ α} {f : α → Exec ε σ β} {s s' : σ} {e : ε}
    (h : x s = (.error e,s')) : (x >>= f) s = (.error e,s') := by
  rw [run_bind,h]

theorem handle_ok {x : Exec ε σ α} {handler : ε → Exec ε σ α} {s s' : σ} {a : α}
    (h : x s = (.ok a,s')) : handle x handler s = (.ok a,s') := by
  simp [handle,h]

theorem handle_error {x : Exec ε σ α} {handler : ε → Exec ε σ α} {s s' : σ} {e : ε}
    (h : x s = (.error e,s')) : handle x handler s = handler e s' := by
  simp [handle,h]

theorem handle_bind_ok {x : Exec ε σ α} {f : α → Exec ε σ β} {handler : ε → Exec ε σ β}
    {s s' : σ} {a : α} (h : x s = (.ok a,s')) :
    handle (x >>= f) handler s = handle (f a) handler s' := by
  unfold handle
  rw [bind_ok h]

theorem within_run {view : σ → τ} {put : τ → σ → σ} {x : Exec ε τ α} {s : σ} {r : Except ε α}
    {t : τ} (h : x (view s) = (r,t)) : within view put x s = (r,put t s) := by
  simp [within,h]

theorem eachUntil_error {stop : σ → Bool} {b : β} {l : List β} {body : β → Exec ε σ Unit}
    {s s' : σ} {e : ε} (h : body b s = (.error e,s')) :
    eachUntil stop (b :: l) body s = (.error e,s') := bind_error h

theorem eachUntil_stop {stop : σ → Bool} {b : β} {l : List β} {body : β → Exec ε σ Unit}
    {s s' : σ} (h : body b s = (.ok (),s')) (hstop : stop s' = true) :
    eachUntil stop (b :: l) body s = (.ok (),s') := by
  unfold eachUntil
  rw [bind_ok h,bind_ok (run_get s')]
  simp [hstop]

theorem eachUntil_next {stop : σ → Bool} {b : β} {l : List β} {body : β → Exec ε σ Unit}
    {s s' : σ} (h : body b s = (.ok (),s')) (hstop : stop s' = false) :
    eachUntil stop (b :: l) body s = eachUntil stop l body s' := by
  rw [eachUntil,bind_ok h,bind_ok (run_get s')]
  simp [hstop]

theorem ensuring_ok {x : Exec ε σ α} {y : Exec ε σ Unit} {s s' : σ} {u : Unit}
    (h : y (x s).2 = (.ok u,s')) : ensuring x y s = ((x s).1,s') := by
  simp [ensuring,h]

theorem except_bind_eq_ok {x : Except ε α} {f : α → Except ε β} {b : β} :
    x >>= f = .ok b ↔ ∃ a, x = .ok a ∧ f a = .ok b := by
  cases x with
  | ok a =>
    constructor
    · exact fun h => ⟨a,rfl,h⟩
    · intro h
      obtain ⟨a',ha,hb⟩ := h
      cases ha
      exact hb
  | error e =>
    constructor
    · intro h
      cases h
    · intro h
      obtain ⟨a,ha,_⟩ := h
      cases ha

/-- A loop that collects results has one for each item, and none besides. -/
theorem except_mapM_mem {f : α → Except ε β} {items : List α} {results : List β}
    (h : items.mapM f = .ok results) :
    (∀ x ∈ items, ∃ y ∈ results, f x = .ok y) ∧ ∀ y ∈ results, ∃ x ∈ items, f x = .ok y := by
  induction items generalizing results with
  | nil =>
    cases h
    simp
  | cons x items ih =>
    rw [List.mapM_cons] at h
    obtain ⟨y,hy,h⟩ := except_bind_eq_ok.mp h
    obtain ⟨rest,hrest,h⟩ := except_bind_eq_ok.mp h
    cases h
    obtain ⟨hleft,hright⟩ := ih hrest
    simp only [List.forall_mem_cons,List.exists_mem_cons_iff]
    exact ⟨⟨.inl hy,fun z hz => .inr (hleft z hz)⟩,.inl hy,fun z hz => .inr (hright z hz)⟩

/-! ### Triples -/

def Ends (Q : α → σ → Prop) (E : ε → σ → Prop) : Except ε α × σ → Prop
  | (.ok a,s) => Q a s
  | (.error e,s) => E e s

@[simp] theorem ends_ok (Q : α → σ → Prop) (E : ε → σ → Prop) (a : α) (s : σ) :
    Ends Q E (.ok a,s) ↔ Q a s := Iff.rfl
@[simp] theorem ends_error (Q : α → σ → Prop) (E : ε → σ → Prop) (e : ε) (s : σ) :
    Ends Q E (.error e,s) ↔ E e s := Iff.rfl

/-- From a state in `P` the program ends normally in `Q` or raises in `E`. -/
def Triple (P : σ → Prop) (x : Exec ε σ α) (Q : α → σ → Prop) (E : ε → σ → Prop) : Prop :=
  ∀ s, P s → Ends Q E (x s)

variable {P : σ → Prop} {Q : α → σ → Prop} {R : β → σ → Prop} {E : ε → σ → Prop}

theorem Ends.mono {r : Except ε α × σ} {Q' : α → σ → Prop} {E' : ε → σ → Prop}
    (h : Ends Q E r) (hQ : ∀ a s, Q a s → Q' a s) (hE : ∀ e s, E e s → E' e s) :
    Ends Q' E' r := by
  obtain ⟨e | a,s⟩ := r
  · exact hE _ _ h
  · exact hQ _ _ h

theorem Triple.any (x : Exec ε σ α) : Triple P x (fun _ _ => True) (fun _ _ => True) := by
  intro s _
  rcases x s with ⟨e | a,s'⟩
  · trivial
  · trivial

theorem Triple.pure {a : α} (h : ∀ s, P s → Q a s) :
    Triple P (Pure.pure a) Q E := fun s hs => h s hs

theorem Triple.get {Q : σ → σ → Prop} (h : ∀ s, P s → Q s s) :
    Triple P Exec.get Q E := fun s hs => h s hs

theorem Triple.raise {e : ε} (h : ∀ s, P s → E e s) :
    Triple P (Exec.raise e) Q E := fun s hs => h s hs

theorem Triple.ofExcept {r : Except ε α} (hok : ∀ a s, r = .ok a → P s → Q a s)
    (herror : ∀ e s, r = .error e → P s → E e s) :
    Triple P (Exec.ofExcept r) Q E := by
  intro s hs
  cases r with
  | ok a => exact hok a s rfl hs
  | error e => exact herror e s rfl hs

theorem Triple.bind {x : Exec ε σ α} {f : α → Exec ε σ β} (hx : Triple P x Q E)
    (hf : ∀ a, Triple (Q a) (f a) R E) : Triple P (x >>= f) R E := by
  intro s hs
  have h := hx s hs
  rw [run_bind]
  rcases hr : x s with ⟨e | a,s'⟩
  · rw [hr] at h
    exact h
  · rw [hr] at h
    exact hf _ s' h

theorem Triple.handle {x : Exec ε σ α} {handler : ε → Exec ε σ α} {E' : ε → σ → Prop}
    (hx : Triple P x Q E') (hh : ∀ e, Triple (E' e) (handler e) Q E) :
    Triple P (Exec.handle x handler) Q E := by
  intro s hs
  have h := hx s hs
  rcases hr : x s with ⟨e | a,s'⟩
  · rw [hr] at h
    rw [handle_error hr]
    exact hh _ s' h
  · rw [hr] at h
    rw [handle_ok hr]
    exact h

theorem Triple.each {l : List β} {body : β → Exec ε σ Unit} {I : σ → Prop}
    (h : ∀ b ∈ l, Triple I (body b) (fun _ => I) E) :
    Triple I (Exec.each l body) (fun _ => I) E := by
  induction l with
  | nil => exact Triple.pure fun _ hs => hs
  | cons b l ih =>
    exact Triple.bind (h b List.mem_cons_self) fun _ =>
      ih fun c hc => h c (List.mem_cons_of_mem _ hc)

theorem Triple.eachUntil {stop : σ → Bool} {l : List β} {body : β → Exec ε σ Unit}
    {I : σ → Prop} (h : ∀ b ∈ l, Triple I (body b) (fun _ => I) E) :
    Triple I (Exec.eachUntil stop l body) (fun _ => I) E := by
  induction l with
  | nil => exact Triple.pure fun _ hs => hs
  | cons b l ih =>
    refine Triple.bind (h b List.mem_cons_self) fun _ => ?_
    refine Triple.bind (Q:=fun _ => I) (Triple.get fun _ hs => hs) fun s => ?_
    split
    · exact Triple.pure fun _ hs => hs
    · exact ih fun c hc => h c (List.mem_cons_of_mem _ hc)

theorem Triple.conseq {x : Exec ε σ α} {P' : σ → Prop} {Q' : α → σ → Prop}
    {E' : ε → σ → Prop} (h : Triple P x Q E) (hP : ∀ s, P' s → P s)
    (hQ : ∀ a s, Q a s → Q' a s) (hE : ∀ e s, E e s → E' e s) : Triple P' x Q' E' :=
  fun s hs => (h s (hP s hs)).mono hQ hE

theorem Triple.run {x : Exec ε σ α} {I J : σ → Prop} (h : Triple I x (fun _ => J) fun _ => J)
    {s : σ} (hs : I s) : J (x s).2 := by
  have hr := h s hs
  rcases hx : x s with ⟨e | a,s'⟩
  · rw [hx] at hr
    exact hr
  · rw [hx] at hr
    exact hr

theorem Triple.of_run {x : Exec ε σ α} {I J : σ → Prop} (h : ∀ s, I s → J (x s).2) :
    Triple I x (fun _ => J) fun _ => J := by
  intro s hs
  have hr := h s hs
  rcases hx : x s with ⟨e | a,s'⟩
  · rw [hx] at hr
    exact hr
  · rw [hx] at hr
    exact hr

theorem Triple.ensuring {x : Exec ε σ α} {y : Exec ε σ Unit} {I J : σ → Prop}
    (hx : Triple I x (fun _ => J) fun _ => J) (hy : Triple J y (fun _ => J) fun _ => J) :
    Triple I (Exec.ensuring x y) (fun _ => J) fun _ => J := by
  refine Triple.of_run fun s hs => ?_
  have h := hy.run (hx.run hs)
  unfold Exec.ensuring
  rcases hr : y (x s).2 with ⟨e | ⟨⟩,s'⟩
  · rw [hr] at h
    exact h
  · rw [hr] at h
    exact h

/-- A loop in which one round turns `I` into `J`. -/
theorem Triple.eachUntil_turn {stop : σ → Bool} {before after : List β} {b : β}
    {body : β → Exec ε σ Unit} {I J : σ → Prop} (hIJ : ∀ s, I s → J s)
    (hbefore : ∀ c ∈ before, Triple I (body c) (fun _ => I) fun _ => I)
    (hturn : Triple I (body b) (fun _ => J) fun _ => J)
    (hafter : ∀ c ∈ after, Triple J (body c) (fun _ => J) fun _ => J) :
    Triple I (Exec.eachUntil stop (before ++ b :: after) body) (fun _ => J) fun _ => J := by
  induction before with
  | nil =>
    refine hturn.bind fun _ => Triple.bind (Q:=fun _ => J) (Triple.get fun _ hs => hs) fun s => ?_
    split
    · exact Triple.pure fun _ hs => hs
    · exact Triple.eachUntil hafter
  | cons c before ih =>
    refine Triple.bind (Q:=fun _ => I) ((hbefore c List.mem_cons_self).conseq (fun _ hs => hs)
      (fun _ _ hs => hs) fun _ s hs => hIJ s hs) fun _ => ?_
    refine Triple.bind (Q:=fun _ => I) (Triple.get fun _ hs => hs) fun s => ?_
    split
    · exact Triple.pure hIJ
    · exact ih fun d hd => hbefore d (List.mem_cons_of_mem _ hd)

/-! ### Invariants and totality -/

/-- The program keeps `I`, whether it ends normally or raises. -/
def Keeps (I : σ → Prop) (x : Exec ε σ α) : Prop := Triple I x (fun _ => I) (fun _ => I)

def Total (x : Exec ε σ α) : Prop :=
  Triple (fun _ => True) x (fun _ _ => True) (fun _ _ => False)

theorem Total.run {x : Exec ε σ α} (h : Total x) (s : σ) : ∃ a s', x s = (.ok a,s') := by
  have hs := h s trivial
  rcases hr : x s with ⟨e | a,s'⟩
  · rw [hr] at hs
    exact hs.elim
  · exact ⟨_,s',rfl⟩

variable {I : σ → Prop}

theorem Keeps.run {x : Exec ε σ α} (h : Keeps I x) {s : σ} (hs : I s) : I (x s).2 :=
  Triple.run h hs

theorem Keeps.of_run {x : Exec ε σ α} (h : ∀ s, I s → I (x s).2) : Keeps I x := Triple.of_run h

theorem Keeps.bind {x : Exec ε σ α} {f : α → Exec ε σ β} (hx : Keeps I x)
    (hf : ∀ a, Keeps I (f a)) : Keeps I (x >>= f) := Triple.bind hx hf

theorem Keeps.pure (a : α) : Keeps I (Pure.pure a : Exec ε σ α) := fun _ hs => hs

theorem Keeps.get : Keeps I (Exec.get : Exec ε σ σ) := fun _ hs => hs

theorem Keeps.ofExcept (r : Except ε α) : Keeps I (Exec.ofExcept r : Exec ε σ α) :=
  Keeps.of_run fun _ hs => hs

theorem Keeps.modify {f : σ → σ} (h : ∀ s, I s → I (f s)) :
    Keeps I (Exec.modify f : Exec ε σ Unit) := h

theorem Keeps.seqAll {l : List (Exec ε σ Unit)} (h : ∀ x ∈ l, Keeps I x) :
    Keeps I (Exec.seqAll l) := by
  induction l with
  | nil => exact Keeps.pure ()
  | cons x l ih =>
    exact (h x List.mem_cons_self).bind fun _ => ih fun y hy => h y (List.mem_cons_of_mem _ hy)

/-- Whatever the schedule, an invariant of all segments is one of the interleaving. -/
theorem Keeps.weave {schedule : List Nat} {threads : List (List (Exec ε σ Unit))}
    (h : ∀ t ∈ threads, ∀ x ∈ t, Keeps I x) : Keeps I (Exec.weave schedule threads) := by
  induction schedule generalizing threads with
  | nil =>
    refine Keeps.seqAll fun x hx => ?_
    obtain ⟨t,ht,hxt⟩ := List.mem_flatten.mp hx
    exact h t ht x hxt
  | cons i schedule ih =>
    unfold Exec.weave
    split
    · rename_i x rest hi
      have hmem := List.mem_of_getElem? hi
      refine (h _ hmem x List.mem_cons_self).bind fun _ => ih fun t ht y hy => ?_
      obtain ht | rfl := List.mem_or_eq_of_mem_set ht
      · exact h t ht y hy
      · exact h _ hmem y (List.mem_cons_of_mem _ hy)
    · exact ih h

theorem Keeps.handle {x : Exec ε σ α} {handler : ε → Exec ε σ α} (hx : Keeps I x)
    (hh : ∀ e, Keeps I (handler e)) : Keeps I (Exec.handle x handler) := Triple.handle hx hh

theorem Keeps.each {l : List β} {body : β → Exec ε σ Unit} (h : ∀ b ∈ l, Keeps I (body b)) :
    Keeps I (Exec.each l body) := Triple.each h

theorem Keeps.eachUntil {stop : σ → Bool} {l : List β} {body : β → Exec ε σ Unit}
    (h : ∀ b ∈ l, Keeps I (body b)) : Keeps I (Exec.eachUntil stop l body) := Triple.eachUntil h

/-- A loop that has not been asked to leave either ends in the rounds before one, or comes
to it. -/
theorem eachUntil_reach {stop : σ → Bool} {before : List β} (b : β) (after : List β)
    {body : β → Exec ε σ Unit} (hbefore : ∀ c ∈ before, Keeps I (body c)) {s : σ} (hs : I s)
    (hstop : stop s = false) :
    I (eachUntil stop (before ++ b :: after) body s).2 ∨
      ∃ s', I s' ∧ stop s' = false ∧
        eachUntil stop (before ++ b :: after) body s = eachUntil stop (b :: after) body s' := by
  induction before generalizing s with
  | nil => exact .inr ⟨s,hs,hstop,rfl⟩
  | cons c before ih =>
    have hkept := (hbefore c List.mem_cons_self).run hs
    rw [List.cons_append]
    rcases hround : body c s with ⟨e | ⟨⟩,s'⟩
    · rw [hround] at hkept
      rw [eachUntil_error hround]
      exact .inl hkept
    · rw [hround] at hkept
      cases hs' : stop s' with
      | true =>
        rw [eachUntil_stop hround hs']
        exact .inl hkept
      | false =>
        rw [eachUntil_next hround hs']
        exact ih (fun d hd => hbefore d (List.mem_cons_of_mem _ hd)) hkept hs'

/-! ### Ending without an exception -/

/-- The program does not raise in this state. -/
def Completes (x : Exec ε σ α) (s : σ) : Prop := ∃ a, (x s).1 = .ok a

@[simp] theorem completes_pure (a : α) (s : σ) : Completes (pure a : Exec ε σ α) s := ⟨a,rfl⟩

@[simp] theorem completes_modify (f : σ → σ) (s : σ) :
    Completes (modify f : Exec ε σ Unit) s := ⟨(),rfl⟩

theorem completes_bind {x : Exec ε σ α} {f : α → Exec ε σ β} {s s' : σ} {a : α}
    (h : x s = (.ok a,s')) : Completes (x >>= f) s ↔ Completes (f a) s' := by
  unfold Completes
  rw [bind_ok h]

theorem completes_raised {x : Exec ε σ α} {s s' : σ} {e : ε} (h : x s = (.error e,s')) :
    ¬ Completes x s := by
  intro hcompletes
  obtain ⟨a,ha⟩ := hcompletes
  rw [h] at ha
  contradiction

/-- What is done with a value completes if there is a value and doing it completes. -/
theorem completes_ofExcept_bind {r : Except ε α} {f : α → Exec ε σ β} {s : σ} :
    Completes (ofExcept r >>= f) s ↔ ∃ a, r = .ok a ∧ Completes (f a) s := by
  cases r with
  | error e =>
    have herror : (ofExcept (.error e) >>= f) s = (.error e,s) := bind_error rfl
    simp [completes_raised herror]
  | ok a => simp [completes_bind (run_ofExcept (.ok a) s)]

/-- What follows and never raises changes nothing about completing. -/
theorem completes_bind_total {x : Exec ε σ α} {f : α → Exec ε σ β}
    (hf : ∀ a s, Completes (f a) s) {s : σ} : Completes (x >>= f) s ↔ Completes x s := by
  rcases hx : x s with ⟨e | a,s'⟩
  · simp [completes_raised hx,completes_raised (bind_error hx (f:=f))]
  · have hcompletes : Completes x s := ⟨a,by rw [hx]⟩
    simp [completes_bind hx,hf,hcompletes]

/-- A loop completes if its rounds do, where they do so in every state or in none. -/
theorem completes_each {l : List β} {body : β → Exec ε σ Unit} {P : β → Prop}
    (hbody : ∀ b s, Completes (body b) s ↔ P b) {s : σ} :
    Completes (each l body) s ↔ ∀ b ∈ l, P b := by
  induction l generalizing s with
  | nil => simp [each]
  | cons b l ih =>
    rw [List.forall_mem_cons,← hbody b s]
    rcases hround : body b s with ⟨e | ⟨⟩,s'⟩
    · have herror : each (b :: l) body s = (.error e,s') := bind_error hround
      simp [completes_raised herror,completes_raised hround]
    · have hcompletes : Completes (body b) s := ⟨(),by rw [hround]⟩
      rw [each,completes_bind hround,ih]
      simp [hcompletes]

end Exec
