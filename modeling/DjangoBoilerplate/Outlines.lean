import DjangoBoilerplate.Machine

/-!
# Threads around one lock

Threads that share a memory and a lock. A `Program` says what a thread in a given phase does to
the memory in one step, and whether it takes or releases the lock there; `Program.machine` lets
the threads take their steps in any order. Nothing keeps a thread without the lock from reading
or writing the memory.

A **proof outline** says of each phase what a thread in it knows of the memory. It is an
`Outline` if each step makes the next assertion true, and if no step of another thread makes an
assertion false: the steps without the lock against all assertions, those with the lock against
the assertions of the phases without it. `Outline.valid_of_run` then gives the assertions, and
mutual exclusion, in every state of every run.
-/

namespace DjangoBoilerplate

universe u v w

namespace Outlines

/-- What a thread does in one step. -/
inductive Move (σ : Type u) (φ : Type v) : Type (max u v) where
  /-- it goes on, and the memory is now this -/
  | go (memory : σ) (next : φ) : Move σ φ
  /-- it takes the lock, once that is free -/
  | acquire (next : φ) : Move σ φ
  /-- it releases the lock -/
  | release (memory : σ) (next : φ) : Move σ φ

/-- The code of the threads. The label of a step has what the code does not decide. -/
structure Program (σ : Type u) (φ : Type v) (ℓ : Type w) : Type (max u v w) where
  /-- the next step of a thread, by the memory and its phase -/
  next : ℕ → σ → φ → ℓ → Option (Move σ φ)

/-- The memory, the lock and the threads. -/
structure State (σ : Type u) (φ : Type v) : Type (max u v) where
  /-- what the threads share -/
  memory : σ
  /-- who holds the lock -/
  lock : Option ℕ
  /-- where each thread is -/
  phase : ℕ → φ

variable {σ : Type u} {φ : Type v} {ℓ : Type w}

/-- Where the thread is after its step. -/
def Move.next : Move σ φ → φ
  | .go _ next => next
  | .acquire next => next
  | .release _ next => next

/-- Carry out a move of thread `i`. -/
def State.move (s : State σ φ) (i : ℕ) : Move σ φ → Option (State σ φ)
  | .go memory next => some { s with memory := memory, phase := Function.update s.phase i next }
  | .acquire next =>
    match s.lock with
    | none => some { s with lock := some i, phase := Function.update s.phase i next }
    | some _ => none
  | .release memory next =>
    some { memory := memory, lock := none, phase := Function.update s.phase i next }

/-- The threads take their steps in any order. -/
def Program.machine (P : Program σ φ ℓ) : Machine (State σ φ) (ℕ × ℓ) where
  step s l := (P.next l.1 s.memory (s.phase l.1) l.2).bind (s.move l.1)

/-- Before any thread has started. -/
def State.init (memory : σ) (phase : φ) : State σ φ where
  memory := memory
  lock := none
  phase := fun _ => phase

/-- What a step is. -/
theorem step_cases {P : Program σ φ ℓ} {s t : State σ φ} {i : ℕ} {l : ℓ}
    (h : P.machine.step s (i, l) = some t) :
    (∃ memory next, P.next i s.memory (s.phase i) l = some (.go memory next) ∧
        t = { s with memory := memory, phase := Function.update s.phase i next }) ∨
    (∃ next, P.next i s.memory (s.phase i) l = some (.acquire next) ∧ s.lock = none ∧
        t = { s with lock := some i, phase := Function.update s.phase i next }) ∨
    (∃ memory next, P.next i s.memory (s.phase i) l = some (.release memory next) ∧
        t = { memory := memory, lock := none, phase := Function.update s.phase i next }) := by
  obtain ⟨move, hnext, hmove⟩ := Option.bind_eq_some_iff.mp h
  cases move with
  | go memory next => exact .inl ⟨memory, next, hnext, (Option.some.inj hmove).symm⟩
  | acquire next =>
    simp only [State.move] at hmove
    split at hmove
    · next hlock => exact .inr (.inl ⟨next, hnext, hlock, (Option.some.inj hmove).symm⟩)
    · cases hmove
  | release memory next => exact .inr (.inr ⟨memory, next, hnext, (Option.some.inj hmove).symm⟩)

/-- A step moves one thread, and leaves the others where they are. -/
theorem phase_of_step {P : Program σ φ ℓ} {s t : State σ φ} {i : ℕ} {l : ℓ}
    (h : P.machine.step s (i, l) = some t) :
    ∃ move, P.next i s.memory (s.phase i) l = some move ∧
      t.phase = Function.update s.phase i move.next := by
  rcases step_cases h with ⟨m, p, hnext, rfl⟩ | ⟨p, hnext, -, rfl⟩ | ⟨m, p, hnext, rfl⟩
  · exact ⟨_, hnext, rfl⟩
  · exact ⟨_, hnext, rfl⟩
  · exact ⟨_, hnext, rfl⟩

/-- **The past of a thread.** What a thread's own steps keep true of its phase and the schedule so
far, and a longer schedule does not make false, is true of every thread after every run. -/
theorem phases_of_run {P : Program σ φ ℓ} {s : State σ φ} {J : List (ℕ × ℓ) → ℕ → φ → Prop}
    (hinit : ∀ i, J [] i (s.phase i))
    (hsnoc : ∀ {ls i p} (l : ℕ × ℓ), J ls i p → J (ls ++ [l]) i p)
    (hself : ∀ {ls m i l move}, P.machine.run s ls = some m → J ls i (m.phase i) →
      P.next i m.memory (m.phase i) l = some move → J (ls ++ [(i, l)]) i move.next)
    {ls : List (ℕ × ℓ)} {t : State σ φ} (hrun : P.machine.run s ls = some t) (i : ℕ) :
    J ls i (t.phase i) := by
  refine Machine.run_history (J := fun ls t => ∀ i, J ls i (t.phase i)) hinit ?_ hrun i
  rintro ls m ⟨j, l⟩ t hm hJ hstep i
  obtain ⟨move, hnext, hphase⟩ := phase_of_step hstep
  rw [hphase]
  rcases eq_or_ne i j with rfl | hne
  · rw [Function.update_self]
    exact hself hm (hJ i) hnext
  · rw [Function.update_of_ne hne]
    exact hsnoc _ (hJ i)

/-- The assertions of a program, for the steps whose labels meet `guard`. -/
structure Outline (P : Program σ φ ℓ) (guard : ℓ → Prop) : Type (max u v) where
  /-- the phases with the lock -/
  locking : φ → Bool
  /-- true of the memory at all times -/
  inv : σ → Prop
  /-- true of the memory while nobody holds the lock -/
  free : σ → Prop
  /-- what a thread in a phase knows -/
  holds : ℕ → σ → φ → Prop
  /-- a step makes the next assertion true -/
  go : ∀ {i m p l m' p'}, guard l → inv m → holds i m p → P.next i m p l = some (.go m' p') →
    locking p' = locking p ∧ inv m' ∧ holds i m' p' ∧ (locking p = false → free m → free m')
  /-- and none of another thread false -/
  go_others : ∀ {i j m p q l m' p'}, guard l → j ≠ i → inv m → holds i m p →
    P.next i m p l = some (.go m' p') → (locking p = true → locking q = false) →
    holds j m q → holds j m' q
  /-- whoever takes the lock finds the memory free -/
  acquire : ∀ {i m p l p'}, guard l → inv m → free m → holds i m p →
    P.next i m p l = some (.acquire p') → locking p' = true ∧ holds i m p'
  /-- whoever releases it leaves the memory so -/
  release : ∀ {i m p l m' p'}, guard l → inv m → holds i m p →
    P.next i m p l = some (.release m' p') →
    locking p = true ∧ locking p' = false ∧ inv m' ∧ free m' ∧ holds i m' p'
  /-- a thread without the lock does not notice -/
  release_others : ∀ {i j m p q l m' p'}, guard l → j ≠ i → inv m → holds i m p →
    P.next i m p l = some (.release m' p') → locking q = false → holds j m q → holds j m' q

variable {P : Program σ φ ℓ} {guard : ℓ → Prop}

/-- The assertions are true. -/
structure Outline.Valid (O : Outline P guard) (s : State σ φ) : Prop where
  inv : O.inv s.memory
  free : s.lock = none → O.free s.memory
  holder : ∀ i, s.lock = some i ↔ O.locking (s.phase i) = true
  holds : ∀ i, O.holds i s.memory (s.phase i)

namespace Outline

variable {O : Outline P guard} {s t : State σ φ}

/-- At the beginning it is enough to look at the memory and the first phase. -/
theorem valid_init {memory : σ} {phase : φ} (hinv : O.inv memory) (hfree : O.free memory)
    (hlocking : O.locking phase = false) (hholds : ∀ i, O.holds i memory phase) :
    O.Valid (State.init memory phase) where
  inv := hinv
  free := fun _ => hfree
  holder := by
    intro i
    simp [State.init, hlocking]
  holds := hholds

/-- If a thread holds the lock, no other one does. -/
theorem Valid.not_locking (h : O.Valid s) {i j : ℕ} (hne : j ≠ i)
    (hi : O.locking (s.phase i) = true) : O.locking (s.phase j) = false := by
  rw [Bool.eq_false_iff]
  intro hj
  have heq : some i = some j := ((h.holder i).mpr hi).symm.trans ((h.holder j).mpr hj)
  exact hne (Option.some.inj heq).symm

/-- The part of a step that is about who holds the lock. -/
theorem Valid.holder_update (h : O.Valid s) {i : ℕ} {p : φ} {lock : Option ℕ}
    (hself : lock = some i ↔ O.locking p = true)
    (hothers : ∀ j, j ≠ i → (lock = some j ↔ s.lock = some j)) (j : ℕ) :
    lock = some j ↔ O.locking (Function.update s.phase i p j) = true := by
  rcases eq_or_ne j i with rfl | hne
  · rw [Function.update_self]
    exact hself
  · rw [Function.update_of_ne hne, hothers j hne]
    exact h.holder j

/-- The part of a step that is about what the threads know. -/
theorem Valid.holds_update (h : O.Valid s) {i : ℕ} {p : φ} {m : σ} (hself : O.holds i m p)
    (hothers : ∀ j, j ≠ i → O.holds j s.memory (s.phase j) → O.holds j m (s.phase j)) (j : ℕ) :
    O.holds j m (Function.update s.phase i p j) := by
  rcases eq_or_ne j i with rfl | hne
  · rw [Function.update_self]
    exact hself
  · rw [Function.update_of_ne hne]
    exact hothers j hne (h.holds j)

/-- **The step.** -/
theorem Valid.step (h : O.Valid s) {i : ℕ} {l : ℓ} (hguard : guard l)
    (hstep : P.machine.step s (i, l) = some t) : O.Valid t := by
  rcases step_cases hstep with ⟨m, p, hnext, rfl⟩ | ⟨p, hnext, hlock, rfl⟩ | ⟨m, p, hnext, rfl⟩
  · obtain ⟨hlocking, hinv, hself, hfree⟩ := O.go hguard h.inv (h.holds i) hnext
    refine ⟨hinv, ?_, ?_, ?_⟩
    · intro hlock
      refine hfree ?_ (h.free hlock)
      rw [Bool.eq_false_iff]
      intro hi
      cases hlock.symm.trans ((h.holder i).mpr hi)
    · refine h.holder_update ?_ fun j _ => Iff.rfl
      rw [hlocking]
      exact h.holder i
    · refine h.holds_update hself fun j hne => ?_
      exact O.go_others hguard hne h.inv (h.holds i) hnext fun hi => h.not_locking hne hi
  · obtain ⟨hlocking, hself⟩ := O.acquire hguard h.inv (h.free hlock) (h.holds i) hnext
    refine ⟨h.inv, ?_, ?_, ?_⟩
    · intro hnone
      cases hnone
    · refine h.holder_update (by simp [hlocking]) fun j hne => ?_
      simp [hlock, hne.symm]
    · exact h.holds_update hself fun j _ hj => hj
  · obtain ⟨hlocking, hlocking', hinv, hfree, hself⟩ := O.release hguard h.inv (h.holds i) hnext
    refine ⟨hinv, fun _ => hfree, ?_, ?_⟩
    · refine h.holder_update (by simp [hlocking']) fun j hne => ?_
      rw [(h.holder i).mpr hlocking]
      simp [hne.symm]
    · refine h.holds_update hself fun j hne => ?_
      exact O.release_others hguard hne h.inv (h.holds i) hnext (h.not_locking hne hlocking)

/-- **The run.** A proof outline holds in every state of every run whose labels meet the
guard. -/
theorem valid_of_run {ls : List (ℕ × ℓ)} (h : O.Valid s) (hguard : ∀ l ∈ ls, guard l.2)
    (hrun : P.machine.run s ls = some t) : O.Valid t :=
  Machine.run_invariant (G := fun _ (l : ℕ × ℓ) => guard l.2) (fun hI hG hl => hI.step hG hl) h
    (Machine.meets_of_forall_mem hguard) hrun

end Outline

end Outlines

end DjangoBoilerplate
