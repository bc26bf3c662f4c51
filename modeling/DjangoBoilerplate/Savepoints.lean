import Mathlib.Tactic

/-!
# Transactions, savepoints and exceptions

A small language of programs on a database: writes, exceptions, sequencing, `atomic` blocks
and handlers. It is given a meaning twice. The machine keeps a stack of what is still to be
done and a connection with its savepoints: entering a block sets a savepoint, leaving it
releases or rolls back, the outermost one begins and commits. The function `exec` has no
stack: a block that raises leaves the database as it found it.

The machine does what `exec` says (`steps_of_exec`), from any point of any transaction, so
that facts about nesting are proved on `exec`.
-/

namespace DjangoBoilerplate

namespace Savepoints

universe u

/-- Programs on a database `δ`, with exceptions `ε` and log lines `ν`. -/
inductive Prog (δ ε ν : Type u) : Type u where
  /-- do nothing -/
  | skip : Prog δ ε ν
  /-- write -/
  | write (f : δ → δ) : Prog δ ε ν
  /-- raise -/
  | raise (e : ε) : Prog δ ε ν
  /-- one after the other -/
  | seq (p q : Prog δ ε ν) : Prog δ ε ν
  /-- a block that takes effect as a whole -/
  | atomic (p : Prog δ ε ν) : Prog δ ε ν
  /-- `try: p`, with an `except` that logs -/
  | handle (catches : ε → Bool) (note : ν) (p : Prog δ ε ν) : Prog δ ε ν

variable {δ ε ν : Type u}

/-! ## The meaning of a program -/

/-- What a program leaves. -/
structure Result (δ ε ν : Type u) : Type u where
  /-- the exception it raised -/
  raised : Option ε
  /-- the database -/
  db : δ
  /-- what it logged -/
  lines : List ν

/-- What a program does to a database. -/
def exec : Prog δ ε ν → δ → Result δ ε ν
  | .skip, d => ⟨none, d, []⟩
  | .write f, d => ⟨none, f d, []⟩
  | .raise e, d => ⟨some e, d, []⟩
  | .seq p q, d =>
    let first := exec p d
    match first.raised with
    | none =>
      let second := exec q first.db
      ⟨second.raised, second.db, first.lines ++ second.lines⟩
    | some e => ⟨some e, first.db, first.lines⟩
  | .atomic p, d =>
    let body := exec p d
    match body.raised with
    | none => ⟨none, body.db, body.lines⟩
    | some e => ⟨some e, d, body.lines⟩
  | .handle catches note p, d =>
    let body := exec p d
    match body.raised with
    | none => ⟨none, body.db, body.lines⟩
    | some e =>
      if catches e then ⟨none, body.db, body.lines ++ [note]⟩ else ⟨some e, body.db, body.lines⟩

/-! ## The connection -/

/-- A connection. -/
structure Conn (δ : Type u) : Type u where
  /-- what is committed -/
  durable : δ
  /-- what the connection sees -/
  working : δ
  /-- the database at the start of each open block, the innermost first -/
  savepoints : List δ

namespace Conn

/-- The connection in a state of the database: outside a transaction it is committed. -/
def move (c : Conn δ) (d : δ) : Conn δ where
  durable := if c.savepoints.isEmpty then d else c.durable
  working := d
  savepoints := c.savepoints

/-- `SAVEPOINT`, or `BEGIN` for the first. -/
def enter (c : Conn δ) : Conn δ := { c with savepoints := c.working :: c.savepoints }

/-- `RELEASE SAVEPOINT`, or `COMMIT` for the last. -/
def release (c : Conn δ) : Conn δ :=
  match c.savepoints with
  | [] => c
  | [_] => { durable := c.working, working := c.working, savepoints := [] }
  | _ :: savepoints => { c with savepoints := savepoints }

/-- `ROLLBACK TO SAVEPOINT`, or `ROLLBACK` for the last. -/
def rollback (c : Conn δ) : Conn δ :=
  match c.savepoints with
  | [] => c
  | d :: savepoints => { c with working := d, savepoints := savepoints }

/-- Outside a transaction nothing is pending. -/
def Settled (c : Conn δ) : Prop := c.savepoints = [] → c.durable = c.working

theorem settled_move (c : Conn δ) (d : δ) : (c.move d).Settled := by
  intro h
  have hnil : c.savepoints = [] := h
  simp [move, hnil]

theorem settled_enter (c : Conn δ) : c.enter.Settled := by
  intro h
  cases h

theorem Settled.move_working {c : Conn δ} (h : c.Settled) : c.move c.working = c := by
  obtain ⟨durable, working, savepoints⟩ := c
  cases savepoints with
  | nil =>
    have heq : durable = working := h rfl
    rw [heq]
    rfl
  | cons d savepoints => rfl

@[simp] theorem move_move (c : Conn δ) (d d' : δ) : (c.move d).move d' = c.move d' := by
  obtain ⟨durable, working, savepoints⟩ := c
  cases savepoints with
  | nil => rfl
  | cons d savepoints => rfl

/-- A block that ends normally keeps what it did. -/
theorem release_enter (c : Conn δ) (d : δ) : (c.enter.move d).release = c.move d := by
  obtain ⟨durable, working, savepoints⟩ := c
  cases savepoints with
  | nil => rfl
  | cons d savepoints => rfl

end Conn

/-! ## The machine -/

/-- What is still to be done. -/
inductive Item (δ ε ν : Type u) : Type u where
  /-- run a program -/
  | run (p : Prog δ ε ν) : Item δ ε ν
  /-- leave an `atomic` block -/
  | leave : Item δ ε ν
  /-- leave a `try` -/
  | handler (catches : ε → Bool) (note : ν) : Item δ ε ν

/-- A state of the machine. -/
structure Config (δ ε ν : Type u) : Type u where
  /-- what is still to be done -/
  todo : List (Item δ ε ν)
  /-- the exception on its way -/
  raised : Option ε
  /-- the connection -/
  conn : Conn δ
  /-- the log lines -/
  log : List ν

/-- Do the next item. -/
def advance (k : List (Item δ ε ν)) (c : Conn δ) (log : List ν) : Item δ ε ν → Config δ ε ν
  | .run .skip => ⟨k, none, c, log⟩
  | .run (.write f) => ⟨k, none, c.move (f c.working), log⟩
  | .run (.raise e) => ⟨k, some e, c, log⟩
  | .run (.seq p q) => ⟨.run p :: .run q :: k, none, c, log⟩
  | .run (.atomic p) => ⟨.run p :: .leave :: k, none, c.enter, log⟩
  | .run (.handle catches note p) => ⟨.run p :: .handler catches note :: k, none, c, log⟩
  | .leave => ⟨k, none, c.release, log⟩
  | .handler _ _ => ⟨k, none, c, log⟩

/-- Pass an exception on: nothing runs, blocks roll back, handlers look at it. -/
def unwind (k : List (Item δ ε ν)) (e : ε) (c : Conn δ) (log : List ν) :
    Item δ ε ν → Config δ ε ν
  | .run _ => ⟨k, some e, c, log⟩
  | .leave => ⟨k, some e, c.rollback, log⟩
  | .handler catches note =>
    if catches e then ⟨k, none, c, log ++ [note]⟩ else ⟨k, some e, c, log⟩

/-- One step, `none` when there is nothing left to do. -/
def step : Config δ ε ν → Option (Config δ ε ν)
  | ⟨[], _, _, _⟩ => none
  | ⟨item :: k, none, c, log⟩ => some (advance k c log item)
  | ⟨item :: k, some e, c, log⟩ => some (unwind k e c log item)

/-- Any number of steps. -/
def Steps (s t : Config δ ε ν) : Prop :=
  Relation.ReflTransGen (fun s t => step s = some t) s t

/-- The machine does what `exec` says, whatever else is to be done and however deep in
transactions. -/
theorem steps_of_exec (p : Prog δ ε ν) (k : List (Item δ ε ν)) {c : Conn δ} (hc : c.Settled)
    (log : List ν) :
    Steps ⟨.run p :: k, none, c, log⟩
      ⟨k, (exec p c.working).raised, c.move (exec p c.working).db,
        log ++ (exec p c.working).lines⟩ := by
  induction p generalizing k c log with
  | skip =>
    simp only [exec, hc.move_working, List.append_nil]
    exact .single rfl
  | write f =>
    simp only [exec, List.append_nil]
    exact .single rfl
  | raise e =>
    simp only [exec, hc.move_working, List.append_nil]
    exact .single rfl
  | seq p q ihp ihq =>
    refine .head (b := ⟨.run p :: .run q :: k, none, c, log⟩) rfl ?_
    have hp := ihp (.run q :: k) hc log
    cases hraised : (exec p c.working).raised with
    | some e =>
      -- `p` raised: `q` does not run
      simp only [exec, hraised]
      rw [hraised] at hp
      exact hp.tail rfl
    | none =>
      have hq := ihq k (c.settled_move (exec p c.working).db) (log ++ (exec p c.working).lines)
      simp only [exec, hraised]
      rw [hraised] at hp
      rw [Conn.move_move, List.append_assoc] at hq
      exact hp.trans hq
  | atomic p ih =>
    refine .head (b := ⟨.run p :: .leave :: k, none, c.enter, log⟩) rfl ?_
    have hp : Steps _ _ := ih (.leave :: k) c.settled_enter log
    change Steps _ ⟨_, (exec p c.working).raised, c.enter.move (exec p c.working).db, _⟩ at hp
    cases hraised : (exec p c.working).raised with
    | some e =>
      simp only [exec, hraised, hc.move_working]
      rw [hraised] at hp
      exact hp.tail rfl
    | none =>
      simp only [exec, hraised]
      rw [hraised] at hp
      rw [← Conn.release_enter]
      exact hp.tail rfl
  | handle catches note p ih =>
    refine .head (b := ⟨.run p :: .handler catches note :: k, none, c, log⟩) rfl ?_
    have hp := ih (.handler catches note :: k) hc log
    cases hraised : (exec p c.working).raised with
    | some e =>
      rw [hraised] at hp
      refine hp.tail ?_
      cases hcatches : catches e with
      | true => simp [step, unwind, exec, hraised, hcatches]
      | false => simp [step, unwind, exec, hraised, hcatches]
    | none =>
      simp only [exec, hraised]
      rw [hraised] at hp
      exact hp.tail rfl

/-- A finished machine stays where it is. -/
theorem eq_of_steps_of_done {s t : Config δ ε ν} (hs : s.todo = []) (h : Steps s t) : s = t := by
  rcases Relation.ReflTransGen.cases_head h with rfl | ⟨s', hstep, -⟩
  · rfl
  · obtain ⟨todo, raised, conn, log⟩ := s
    obtain rfl : todo = [] := hs
    cases hstep

/-- The machine finishes in one way only. -/
theorem steps_unique {s t t' : Config δ ε ν} (h : Steps s t) (h' : Steps s t')
    (ht : t.todo = []) (ht' : t'.todo = []) : t = t' := by
  have hunique : Relator.RightUnique fun s t : Config δ ε ν => step s = some t :=
    fun _ _ _ h₁ h₂ => Option.some.inj (h₁.symm.trans h₂)
  rcases Relation.ReflTransGen.total_of_right_unique hunique h h' with htt' | htt'
  · exact eq_of_steps_of_done ht htt'
  · exact (eq_of_steps_of_done ht' htt').symm

end Savepoints

end DjangoBoilerplate
