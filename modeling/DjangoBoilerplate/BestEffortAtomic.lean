import DjangoBoilerplate.Savepoints
import DjangoBoilerplate.Text

/-!
# `best_effort_atomic`

`apps/core/db/transaction.py`: a context manager for writes that must not fail the operation
before them. It opens a `transaction.atomic` block inside a `try` and logs what comes out of
it.

A program is built from writes, exceptions, sequencing, `atomic` and `best_effort_atomic`
blocks. It runs on the savepoint machine of `Savepoints`; the blocks whose body raised might
as well not be there (`exec_prune`).
-/

namespace DjangoBoilerplate

namespace BestEffort

open Savepoints

/-- Programs on a database. -/
inductive Program (δ ε : Type) : Type where
  /-- nothing -/
  | noop : Program δ ε
  /-- a write -/
  | write (f : δ → δ) : Program δ ε
  /-- an exception is raised -/
  | raise (e : ε) : Program δ ε
  /-- one after the other -/
  | seq (p q : Program δ ε) : Program δ ε
  /-- `with transaction.atomic():` -/
  | atomic (p : Program δ ε) : Program δ ε
  /-- `with best_effort_atomic(label):` -/
  | bestEffortAtomic (label : Str) (p : Program δ ε) : Program δ ε

variable {δ ε : Type} (isException : ε → Bool)

/-- The code: `best_effort_atomic` is an `atomic` block in a `try` that logs `"failed to
%s"`. -/
def Program.code : Program δ ε → Prog δ ε Str
  | .noop => .skip
  | .write f => .write f
  | .raise e => .raise e
  | .seq p q => .seq p.code q.code
  | .atomic p => .atomic p.code
  | .bestEffortAtomic label p =>
    .handle isException ("failed to ".toList ++ label) (.atomic p.code)

/-- The program, started on a database outside any transaction, ends with an exception or
none, and leaves a database. -/
def Finishes (p : Program δ ε) (d : δ) (raised : Option ε) (db : δ) : Prop :=
  ∃ log, Steps ⟨[.run (p.code isException)], none, ⟨d, d, []⟩, []⟩ ⟨[], raised, ⟨db, db, []⟩, log⟩

/-- Every program finishes, in one way. -/
theorem finishes_iff {p : Program δ ε} {d db : δ} {raised : Option ε} :
    Finishes isException p d raised db ↔
      raised = (exec (p.code isException) d).raised ∧ db = (exec (p.code isException) d).db := by
  have hsettled : (⟨d, d, []⟩ : Conn δ).Settled := fun _ => rfl
  have hrun := steps_of_exec (p.code isException) [] hsettled []
  refine ⟨?_, ?_⟩
  · rintro ⟨log, hsteps⟩
    have heq := steps_unique hsteps hrun rfl rfl
    simp only [Config.mk.injEq, Conn.move, Conn.mk.injEq] at heq
    obtain ⟨-, hraised, ⟨-, hdb, -⟩, -⟩ := heq
    exact ⟨hraised, hdb⟩
  · rintro ⟨rfl, rfl⟩
    exact ⟨_, hrun⟩

/-! ## Blocks whose body raised -/

/-- The program, started on a database, without the `best_effort_atomic` blocks whose body
raised. -/
def prune : Program δ ε → δ → Program δ ε
  | .seq p q, d =>
    match (exec (p.code isException) d).raised with
    | none => .seq (prune p d) (prune q (exec (p.code isException) d).db)
    | some _ => .seq (prune p d) q
  | .atomic p, d => .atomic (prune p d)
  | .bestEffortAtomic label p, d =>
    if (exec (p.code isException) d).raised.any isException then .noop
    else .bestEffortAtomic label (prune p d)
  | p, _ => p

/-- A `best_effort_atomic` block lets no `Exception` out; if its body raised one, it leaves
the database as it was. -/
theorem exec_bestEffortAtomic (label : Str) (p : Program δ ε) (d : δ) :
    ((exec ((Program.bestEffortAtomic label p).code isException) d).raised.any isException
        = false) ∧
      ((exec (p.code isException) d).raised.any isException = true →
        (exec ((Program.bestEffortAtomic label p).code isException) d).raised = none ∧
        (exec ((Program.bestEffortAtomic label p).code isException) d).db = d) := by
  cases hraised : (exec (p.code isException) d).raised with
  | none => simp [Program.code, exec, hraised]
  | some e =>
    cases he : isException e with
    | true => simp [Program.code, exec, hraised, he]
    | false => simp [Program.code, exec, hraised, he]

/-- The blocks whose body raised might as well not be there. -/
theorem exec_prune (p : Program δ ε) (d : δ) :
    (exec ((prune isException p d).code isException) d).raised =
        (exec (p.code isException) d).raised ∧
      (exec ((prune isException p d).code isException) d).db =
        (exec (p.code isException) d).db := by
  induction p generalizing d with
  | noop => exact ⟨rfl, rfl⟩
  | write f => exact ⟨rfl, rfl⟩
  | raise e => exact ⟨rfl, rfl⟩
  | seq p q ihp ihq =>
    obtain ⟨hraised, hdb⟩ := ihp d
    cases hp : (exec (p.code isException) d).raised with
    | none =>
      obtain ⟨hraised', hdb'⟩ := ihq (exec (p.code isException) d).db
      rw [hp] at hraised
      simp [prune, Program.code, exec, hp, hraised, hdb, hraised', hdb']
    | some e =>
      rw [hp] at hraised
      simp [prune, Program.code, exec, hp, hraised, hdb]
  | atomic p ih =>
    obtain ⟨hraised, hdb⟩ := ih d
    cases hp : (exec (p.code isException) d).raised with
    | none =>
      rw [hp] at hraised
      simp [prune, Program.code, exec, hp, hraised, hdb]
    | some e =>
      rw [hp] at hraised
      simp [prune, Program.code, exec, hp, hraised]
  | bestEffortAtomic label p ih =>
    obtain ⟨hraised, hdb⟩ := ih d
    rw [prune]
    split
    next hcaught =>
      obtain ⟨-, hswallowed⟩ := exec_bestEffortAtomic isException label p d
      obtain ⟨hnone, hsame⟩ := hswallowed hcaught
      exact ⟨hnone.symm, hsame.symm⟩
    next hcaught =>
      cases hp : (exec (p.code isException) d).raised with
      | none =>
        rw [hp] at hraised
        simp [Program.code, exec, hp, hraised, hdb]
      | some e =>
        rw [hp] at hraised hcaught
        simp only [Option.any_some, Bool.not_eq_true] at hcaught
        simp [Program.code, exec, hp, hraised, hcaught]

/-- The program raises nothing but `Exception`s. -/
def Program.OnlyExceptions : Program δ ε → Prop
  | .noop | .write _ => True
  | .raise e => isException e = true
  | .seq p q => p.OnlyExceptions ∧ q.OnlyExceptions
  | .atomic p | .bestEffortAtomic _ p => p.OnlyExceptions

theorem Program.OnlyExceptions.exec {p : Program δ ε} (hp : p.OnlyExceptions isException) (d : δ) :
    ∀ e, (exec (p.code isException) d).raised = some e → isException e = true := by
  induction p generalizing d with
  | noop => simp [Program.code, Savepoints.exec]
  | write f => simp [Program.code, Savepoints.exec]
  | raise e =>
    intro e' he'
    obtain rfl := Option.some.inj he'
    exact hp
  | seq p q ihp ihq =>
    obtain ⟨hp, hq⟩ := hp
    intro e he
    cases hraised : (Savepoints.exec (p.code isException) d).raised with
    | none =>
      simp only [Program.code, Savepoints.exec, hraised] at he
      exact ihq hq _ e he
    | some e' =>
      simp only [Program.code, Savepoints.exec, hraised] at he
      exact ihp hp d e (hraised.trans he)
  | atomic p ih =>
    intro e he
    cases hraised : (Savepoints.exec (p.code isException) d).raised with
    | none => simp [Program.code, Savepoints.exec, hraised] at he
    | some e' =>
      simp only [Program.code, Savepoints.exec, hraised] at he
      exact ih hp d e (hraised.trans he)
  | bestEffortAtomic label p ih =>
    intro e he
    cases hraised : (Savepoints.exec (p.code isException) d).raised with
    | none => simp [Program.code, Savepoints.exec, hraised] at he
    | some e' => simp [Program.code, Savepoints.exec, hraised, ih hp d e' hraised] at he

/-- In any place of any program, a `best_effort_atomic` block ends without an `Exception`,
and what comes after it goes on. -/
theorem bestEffortAtomic_continues (label : Str) (p : Program δ ε) (k : List (Item δ ε Str))
    {c : Conn δ} (hc : c.Settled) (log : List Str) :
    ∃ raised c' log', Steps
        ⟨.run ((Program.bestEffortAtomic label p).code isException) :: k, none, c, log⟩
        ⟨k, raised, c', log'⟩ ∧
      raised.any isException = false ∧ (p.OnlyExceptions isException → raised = none) := by
  obtain ⟨hnone, -⟩ := exec_bestEffortAtomic isException label p c.working
  refine ⟨_, _, _, steps_of_exec _ k hc log, hnone, ?_⟩
  intro hp
  have hblock : (Program.bestEffortAtomic label p).OnlyExceptions isException := hp
  cases hraised : (exec ((Program.bestEffortAtomic label p).code isException) c.working).raised with
  | none => rfl
  | some e =>
    rw [hraised, Option.any_some, hblock.exec isException c.working e hraised] at hnone
    cases hnone

/-- A block whose body ends normally does what its body does. -/
theorem finishes_bestEffortAtomic (label : Str) {p : Program δ ε} {d d' : δ}
    (hbody : Finishes isException p d none d') (raised : Option ε) (db : δ) :
    Finishes isException (.bestEffortAtomic label p) d raised db ↔ raised = none ∧ db = d' := by
  obtain ⟨hnone, rfl⟩ := (finishes_iff isException).mp hbody
  rw [finishes_iff]
  simp only [Program.code, exec, ← hnone]

/-- `best_effort_atomic` nests exactly. A program finishes, and does so as the program
without the `best_effort_atomic` blocks whose body raised; such a block never lets an
`Exception` out and the program goes on after it; what an outer transaction writes before and
after it is as if it were not there; and a block whose body ends normally keeps what the body
wrote. -/
theorem best_effort_exact (p : Program δ ε) (d : δ) :
    (∃ raised db, Finishes isException p d raised db) ∧
    (∀ raised db, Finishes isException p d raised db ↔
      Finishes isException (prune isException p d) d raised db) ∧
    (∀ (label : Str) (body : Program δ ε) (k : List (Item δ ε Str)) (c : Conn δ) (log : List Str),
      c.Settled → ∃ raised c' log', Steps
          ⟨.run ((Program.bestEffortAtomic label body).code isException) :: k, none, c, log⟩
          ⟨k, raised, c', log'⟩ ∧
        raised.any isException = false ∧ (body.OnlyExceptions isException → raised = none)) ∧
    (∀ (label : Str) (before body after : Program δ ε) (d₁ d₂ : δ) (e : ε),
      Finishes isException before d none d₁ → Finishes isException body d₁ (some e) d₂ →
      isException e = true → ∀ raised db,
        (Finishes isException (.atomic (.seq before (.seq (.bestEffortAtomic label body) after)))
            d raised db ↔
          Finishes isException (.atomic (.seq before after)) d raised db)) ∧
    (∀ (label : Str) (body : Program δ ε) (d₁ d₂ : δ), Finishes isException body d₁ none d₂ →
      ∀ raised db, (Finishes isException (.bestEffortAtomic label body) d₁ raised db ↔
        raised = none ∧ db = d₂)) := by
  refine ⟨⟨_, _, (finishes_iff isException).mpr ⟨rfl, rfl⟩⟩, ?_, ?_, ?_, ?_⟩
  · intro raised db
    obtain ⟨hraised, hdb⟩ := exec_prune isException p d
    rw [finishes_iff, finishes_iff, hraised, hdb]
  · intro label body k c log hc
    exact bestEffortAtomic_continues isException label body k hc log
  · intro label before body after d₁ d₂ e hbefore hbody he raised db
    obtain ⟨hquiet, rfl⟩ := (finishes_iff isException).mp hbefore
    obtain ⟨hraised, -⟩ := (finishes_iff isException).mp hbody
    rw [finishes_iff, finishes_iff]
    cases hafter : (exec (after.code isException) (exec (before.code isException) d).db).raised with
    | none => simp [Program.code, exec, hquiet.symm, hraised.symm, he, hafter]
    | some e' => simp [Program.code, exec, hquiet.symm, hraised.symm, he, hafter]
  · intro label body d₁ d₂ hbody raised db
    exact finishes_bestEffortAtomic isException label hbody raised db

/-- A failure inside a failing block inside a transaction: the inner write is gone, the
outer ones are there. -/
example :
    Finishes (δ := List ℕ) (ε := Unit) (fun _ => true)
      (.atomic (.seq (.write (1 :: ·))
        (.seq (.bestEffortAtomic [] (.seq (.write (2 :: ·))
            (.seq (.bestEffortAtomic [] (.raise ())) (.raise ()))))
          (.write (3 :: ·))))) [] none [3, 1] :=
  (finishes_iff _).mpr ⟨rfl, rfl⟩

end BestEffort

end DjangoBoilerplate
