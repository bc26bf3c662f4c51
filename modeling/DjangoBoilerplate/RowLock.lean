import DjangoBoilerplate.Machine

/-!
# Transactions under a row lock

Any number of transactions on one row, interleaved step by step. A transaction either
locks the row, reads it, decides what to write, writes and commits, or it is a single
statement. A lock is held to the commit, a single statement waits for it, and a
transaction sees the row as it was last committed.

What a transaction does on its own is a function of the row (`Txn.alone`). The runs are
**serializable** (`inv_of_run`): the committed row is what the finished transactions
leave when they are run one at a time, in the order they committed, and each returned what
it returns there. The key fact is that a transaction that holds the lock has seen the row
as it still is.

Nothing here depends on what the row is or what is called; a component says which
transaction each of its calls is.
-/

namespace DjangoBoilerplate

namespace RowLock

universe u v w

/-- What a transaction does with the row it has locked and read. -/
inductive Plan (ρ : Type u) (β : Type v) : Type (max u v) where
  /-- it writes nothing -/
  | leave (reply : β) : Plan ρ β
  /-- it writes some columns, or all -/
  | save (write : ρ → ρ) (reply : β) : Plan ρ β

/-- A transaction on the row. -/
inductive Txn (ρ : Type u) (β : Type v) : Type (max u v) where
  /-- lock the row if it matches, and decide, at a time, what to write -/
  | locked (matching : ρ → Bool) (absent : β) (body : ℕ → ρ → Plan ρ β) : Txn ρ β
  /-- a single statement -/
  | statement (write : ℕ → ρ → ρ) (reply : β) : Txn ρ β

variable {ρ : Type u} {β : Type v}

/-- What carrying out a plan leaves and returns. -/
def Plan.carryOut : Plan ρ β → ρ → ρ × β
  | .leave reply, r => (r, reply)
  | .save write reply, r => (write r, reply)

/-- The transaction on its own. -/
def Txn.alone : Txn ρ β → ℕ → ρ → ρ × β
  | .locked matching absent body, now, r =>
    if matching r then (body now r).carryOut r else (r, absent)
  | .statement write reply, now, r => (write now r, reply)

/-! ## The machine -/

/-- Where a call stands. -/
inductive Phase (ρ : Type u) (β : Type v) : Type (max u v) where
  /-- begun -/
  | started : Phase ρ β
  /-- it holds the lock, with the row it read -/
  | holding (r : ρ) : Phase ρ β
  /-- it has decided what to do -/
  | planned (now : ℕ) (plan : Plan ρ β) : Phase ρ β
  /-- it has written, and is to commit -/
  | written (now : ℕ) (write : ρ → ρ) (reply : β) : Phase ρ β
  /-- it has returned -/
  | returned (reply : β) : Phase ρ β

/-- A call that finished. -/
structure Commit (κ : Type w) (β : Type v) : Type (max w v) where
  /-- its number -/
  id : ℕ
  /-- the call -/
  call : κ
  /-- its time -/
  now : ℕ
  /-- what it returned -/
  reply : β

/-- The row, its lock and the calls. -/
structure State (ρ : Type u) (κ : Type w) (β : Type v) : Type (max u v w) where
  /-- the row, as last committed -/
  row : ρ
  /-- the call that holds the lock -/
  lock : Option ℕ
  /-- the calls begun so far -/
  calls : ℕ → Option (κ × Phase ρ β)
  /-- those that finished, in order -/
  history : List (Commit κ β)

/-- The atomic steps. -/
inductive Label (κ : Type w) : Type w where
  /-- a call begins -/
  | start (i : ℕ) (k : κ) : Label κ
  /-- a call takes its next step, at a time -/
  | advance (i now : ℕ) : Label κ

variable {κ : Type w}

/-- No call yet. -/
def init (row : ρ) : State ρ κ β where
  row := row
  lock := none
  calls := fun _ => none
  history := []

/-- The call is now in this phase. -/
def State.goto (s : State ρ κ β) (i : ℕ) (k : κ) (ph : Phase ρ β) : State ρ κ β :=
  { s with calls := Function.update s.calls i (some (k, ph)) }

/-- The call returns. -/
def State.finish (s : State ρ κ β) (i : ℕ) (k : κ) (now : ℕ) (reply : β) : State ρ κ β :=
  { s with
    calls := Function.update s.calls i (some (k, .returned reply))
    history := s.history ++ [⟨i, k, now, reply⟩] }

variable (txn : κ → Txn ρ β)

/-- The next step of a call. -/
def advance (s : State ρ κ β) (i now : ℕ) (k : κ) : Phase ρ β → Option (State ρ κ β)
  | .started =>
    match txn k with
    | .locked matching absent _ =>
      if matching s.row then
        if s.lock.isSome then none
        else some ({ s with lock := some i }.goto i k (.holding s.row))
      else some (s.finish i k now absent)
    | .statement write reply =>
      if s.lock.isSome then none
      else some ({ s with row := write now s.row }.finish i k now reply)
  | .holding r =>
    match txn k with
    | .locked _ _ body => some (s.goto i k (.planned now (body now r)))
    | .statement _ _ => none
  | .planned time (.leave reply) => some ({ s with lock := none }.finish i k time reply)
  | .planned time (.save write reply) => some (s.goto i k (.written time write reply))
  | .written time write reply =>
    some ({ s with row := write s.row, lock := none }.finish i k time reply)
  | .returned _ => none

/-- One atomic step. -/
def step (s : State ρ κ β) : Label κ → Option (State ρ κ β)
  | .start i k =>
    match s.calls i with
    | none => some (s.goto i k .started)
    | some _ => none
  | .advance i now =>
    match s.calls i with
    | none => none
    | some (k, ph) => advance txn s i now k ph

/-- The calls as a machine. -/
def machine : Machine (State ρ κ β) (Label κ) := ⟨step txn⟩

/-! ## What a step can do -/

/-- The branches of `step`. -/
inductive Moves (s : State ρ κ β) : Label κ → State ρ κ β → Prop where
  | start {i : ℕ} {k : κ} (hnew : s.calls i = none) : Moves s (.start i k) (s.goto i k .started)
  | absent {i now : ℕ} {k : κ} {matching : ρ → Bool} {absent : β} {body : ℕ → ρ → Plan ρ β}
      (hcall : s.calls i = some (k, .started)) (htxn : txn k = .locked matching absent body)
      (hnot : matching s.row = false) :
    Moves s (.advance i now) (s.finish i k now absent)
  | acquire {i now : ℕ} {k : κ} {matching : ρ → Bool} {absent : β} {body : ℕ → ρ → Plan ρ β}
      (hcall : s.calls i = some (k, .started)) (htxn : txn k = .locked matching absent body)
      (hmatch : matching s.row = true) (hfree : s.lock = none) :
    Moves s (.advance i now) ({ s with lock := some i }.goto i k (.holding s.row))
  | statement {i now : ℕ} {k : κ} {write : ℕ → ρ → ρ} {reply : β}
      (hcall : s.calls i = some (k, .started)) (htxn : txn k = .statement write reply)
      (hfree : s.lock = none) :
    Moves s (.advance i now) ({ s with row := write now s.row }.finish i k now reply)
  | plan {i now : ℕ} {k : κ} {matching : ρ → Bool} {absent : β} {body : ℕ → ρ → Plan ρ β} {r : ρ}
      (hcall : s.calls i = some (k, .holding r)) (htxn : txn k = .locked matching absent body) :
    Moves s (.advance i now) (s.goto i k (.planned now (body now r)))
  | leave {i now time : ℕ} {k : κ} {reply : β}
      (hcall : s.calls i = some (k, .planned time (.leave reply))) :
    Moves s (.advance i now) ({ s with lock := none }.finish i k time reply)
  | write {i now time : ℕ} {k : κ} {write : ρ → ρ} {reply : β}
      (hcall : s.calls i = some (k, .planned time (.save write reply))) :
    Moves s (.advance i now) (s.goto i k (.written time write reply))
  | commit {i now time : ℕ} {k : κ} {write : ρ → ρ} {reply : β}
      (hcall : s.calls i = some (k, .written time write reply)) :
    Moves s (.advance i now)
      ({ s with row := write s.row, lock := none }.finish i k time reply)

variable {txn}

/-- **Inversion**: every step is one of these. -/
theorem moves_of_step {s t : State ρ κ β} {l : Label κ} (h : (machine txn).step s l = some t) :
    Moves txn s l t := by
  change step txn s l = some t at h
  cases l with
  | start i k =>
    simp only [step] at h
    split at h
    · next hnew =>
      obtain rfl := Option.some.inj h
      exact .start hnew
    · cases h
  | advance i now =>
    simp only [step] at h
    split at h
    · cases h
    · next k ph hcall =>
      cases ph with
      | started =>
        simp only [advance] at h
        split at h
        · next matching absent body htxn =>
          split at h
          · next hmatch =>
            split at h
            · cases h
            · next hfree =>
              obtain rfl := Option.some.inj h
              exact .acquire hcall htxn hmatch (Option.not_isSome_iff_eq_none.mp hfree)
          · next hnot =>
            obtain rfl := Option.some.inj h
            exact .absent hcall htxn (by simpa using hnot)
        · next write reply htxn =>
          split at h
          · cases h
          · next hfree =>
            obtain rfl := Option.some.inj h
            exact .statement hcall htxn (Option.not_isSome_iff_eq_none.mp hfree)
      | holding r =>
        simp only [advance] at h
        split at h
        · next matching absent body htxn =>
          obtain rfl := Option.some.inj h
          exact .plan hcall htxn
        · cases h
      | planned time plan =>
        cases plan with
        | leave reply =>
          obtain rfl := Option.some.inj h
          exact .leave hcall
        | save write reply =>
          obtain rfl := Option.some.inj h
          exact .write hcall
      | written time write reply =>
        obtain rfl := Option.some.inj h
        exact .commit hcall
      | returned reply => cases h

/-! ## Serializability -/

/-- The call on its own, at its time. -/
def Commit.alone (txn : κ → Txn ρ β) (c : Commit κ β) (r : ρ) : ρ × β :=
  (txn c.call).alone c.now r

/-- The transactions run one at a time from a row to a row, each returning what it
returned. -/
inductive Serial (txn : κ → Txn ρ β) : ρ → List (Commit κ β) → ρ → Prop where
  /-- none -/
  | nil {r : ρ} : Serial txn r [] r
  /-- one, then the rest -/
  | cons {r r' : ρ} {c : Commit κ β} {cs : List (Commit κ β)}
      (hreply : (c.alone txn r).2 = c.reply) (h : Serial txn (c.alone txn r).1 cs r') :
    Serial txn r (c :: cs) r'

theorem serial_append {r r' : ρ} {cs ds : List (Commit κ β)} :
    Serial txn r (cs ++ ds) r' ↔ ∃ m, Serial txn r cs m ∧ Serial txn m ds r' := by
  induction cs generalizing r with
  | nil =>
    refine ⟨?_, ?_⟩
    · intro h
      exact ⟨r, .nil, h⟩
    · rintro ⟨m, hcs, hds⟩
      cases hcs
      exact hds
  | cons c cs ih =>
    refine ⟨?_, ?_⟩
    · intro h
      cases h with
      | cons hreply h =>
        obtain ⟨m, hcs, hds⟩ := ih.mp h
        exact ⟨m, .cons hreply hcs, hds⟩
    · rintro ⟨m, hcs, hds⟩
      cases hcs with
      | cons hreply hcs => exact .cons hreply (ih.mpr ⟨m, hcs, hds⟩)

/-- **The frame rule**: what none of the transactions changes is as it was. -/
theorem Serial.frame {γ : Type*} {f : ρ → γ} {r r' : ρ} {cs : List (Commit κ β)}
    (h : Serial txn r cs r')
    (hf : ∀ c ∈ cs, ∀ x, (c.alone txn x).2 = c.reply → f (c.alone txn x).1 = f x) :
    f r' = f r := by
  induction h with
  | nil => rfl
  | cons hreply h ih =>
    obtain ⟨hc, hcs⟩ := List.forall_mem_cons.mp hf
    rw [ih hcs, hc _ hreply]

/-- **Survival**: what one of the transactions leaves, and none after it changes, is there
at the end. -/
theorem Serial.survives {γ : Type*} {f : ρ → γ} {v : γ} {r r' : ρ} {c : Commit κ β}
    {cs ds : List (Commit κ β)} (h : Serial txn r (cs ++ c :: ds) r')
    (hc : ∀ x, (c.alone txn x).2 = c.reply → f (c.alone txn x).1 = v)
    (hf : ∀ d ∈ ds, ∀ x, (d.alone txn x).2 = d.reply → f (d.alone txn x).1 = f x) :
    f r' = v := by
  obtain ⟨m, -, h⟩ := serial_append.mp h
  cases h with
  | cons hreply h => rw [h.frame hf, hc m hreply]

/-- What a transaction with the lock knows: the row is as it read it. -/
def Phase.Current (r : ρ) : Txn ρ β → Phase ρ β → Prop
  | .locked matching _ _, .holding r' => matching r = true ∧ r' = r
  | .locked matching _ body, .planned now plan => matching r = true ∧ plan = body now r
  | .locked matching _ body, .written now write reply =>
    matching r = true ∧ body now r = .save write reply
  | .locked _ _ _, _ => True
  | .statement _ _, .started => True
  | .statement _ _, .returned _ => True
  | .statement _ _, _ => False

/-- Is the transaction past its read, and not finished? -/
def Phase.isLocking : Phase ρ β → Bool
  | .started => false
  | .returned _ => false
  | _ => true

/-- What holds in every reachable state. -/
structure Inv (txn : κ → Txn ρ β) (row₀ : ρ) (s : State ρ κ β) : Prop where
  /-- the row is that of a serial run -/
  serial : Serial txn row₀ s.history s.row
  /-- a call past its read holds the lock, -/
  holder : ∀ {i k ph}, s.calls i = some (k, ph) → ph.isLocking = true → s.lock = some i
  /-- and has seen the row as it is -/
  current : ∀ {i k ph}, s.calls i = some (k, ph) → ph.Current s.row (txn k)
  /-- the history has the calls that returned, -/
  mem_history : ∀ i k reply, s.calls i = some (k, .returned reply) ↔
    ∃ now, ⟨i, k, now, reply⟩ ∈ s.history
  /-- each of them once -/
  nodup : (s.history.map Commit.id).Nodup

theorem inv_init (row₀ : ρ) : Inv txn row₀ (init row₀ : State ρ κ β) := by
  refine ⟨?_, ?_, ?_, ?_, ?_⟩
  · exact .nil
  · intro i t ph hcall
    cases hcall
  · intro i t ph hcall
    cases hcall
  · simp [init]
  · exact List.nodup_nil

/-- A transaction that has not returned is not in the history. -/
theorem Inv.not_mem_history {row₀ : ρ} {s : State ρ κ β} (hs : Inv txn row₀ s) {i : ℕ}
    (hcall : ∀ k reply, s.calls i ≠ some (k, .returned reply)) :
    i ∉ s.history.map Commit.id := by
  intro hmem
  obtain ⟨c, hc, rfl⟩ := List.mem_map.mp hmem
  exact hcall c.call c.reply ((hs.mem_history c.id c.call c.reply).mpr ⟨c.now, hc⟩)

/-- A step that finishes nothing and leaves the row alone. -/
theorem Inv.goto {row₀ : ρ} {s : State ρ κ β} (hs : Inv txn row₀ s) {i : ℕ} {k : κ}
    {ph : Phase ρ β} {lock : Option ℕ} (hbefore : ∀ k reply, s.calls i ≠ some (k, .returned reply))
    (hafter : ∀ reply, ph ≠ .returned reply) (hcurrent : ph.Current s.row (txn k))
    (hlock : ph.isLocking = true → lock = some i)
    (hothers : ∀ {j k ph}, j ≠ i → s.calls j = some (k, ph) → ph.isLocking = true →
      lock = some j) :
    Inv txn row₀ ({ s with lock := lock }.goto i k ph) := by
  refine ⟨?_, ?_, ?_, ?_, ?_⟩
  · exact hs.serial
  · intro j k' ph' hj hlocking
    rcases update_eq_some hj with ⟨rfl, heq⟩ | ⟨hne, hj⟩
    · obtain ⟨rfl, rfl⟩ := Prod.mk.inj heq
      exact hlock hlocking
    · exact hothers hne hj hlocking
  · intro j k' ph' hj
    rcases update_eq_some hj with ⟨rfl, heq⟩ | ⟨hne, hj⟩
    · obtain ⟨rfl, rfl⟩ := Prod.mk.inj heq
      exact hcurrent
    · exact hs.current hj
  · intro j k' reply
    rcases eq_or_ne j i with rfl | hne
    · refine ⟨?_, ?_⟩
      · intro hj
        simp only [State.goto, Function.update_self, Option.some.injEq, Prod.mk.injEq] at hj
        obtain ⟨-, hph⟩ := hj
        exact absurd hph (hafter reply)
      · rintro ⟨now, hmem⟩
        exact absurd (List.mem_map_of_mem hmem) (hs.not_mem_history hbefore)
    · simp only [State.goto, Function.update_of_ne hne]
      exact hs.mem_history j k' reply
  · exact hs.nodup

/-- What a transaction without the lock knows does not depend on the row. -/
theorem Phase.Current.of_not_locking {r r' : ρ} {t : Txn ρ β} {ph : Phase ρ β}
    (h : ph.Current r t) (hnot : ph.isLocking = false) : ph.Current r' t := by
  cases ph with
  | started => cases t <;> exact trivial
  | returned reply => cases t <;> exact trivial
  | holding x => cases hnot
  | planned now plan => cases hnot
  | written now write reply => cases hnot

/-- A step that finishes a transaction. -/
theorem Inv.finish {row₀ : ρ} {s : State ρ κ β} (hs : Inv txn row₀ s) {i now : ℕ} {k : κ}
    {row : ρ} {reply : β} {lock : Option ℕ}
    (hbefore : ∀ k reply, s.calls i ≠ some (k, .returned reply))
    (halone : (txn k).alone now s.row = (row, reply))
    (hothers : ∀ {j k ph}, j ≠ i → s.calls j = some (k, ph) → ph.isLocking = true →
      lock = some j ∧ row = s.row) :
    Inv txn row₀ ({ s with row := row, lock := lock }.finish i k now reply) := by
  have hfresh : i ∉ s.history.map Commit.id := hs.not_mem_history hbefore
  refine ⟨?_, ?_, ?_, ?_, ?_⟩
  · refine serial_append.mpr ⟨s.row, hs.serial, .cons ?_ ?_⟩
    · rw [Commit.alone, halone]
    · rw [Commit.alone, halone]
      exact .nil
  · intro j k' ph hj hlocking
    rcases update_eq_some hj with ⟨rfl, heq⟩ | ⟨hne, hj⟩
    · obtain ⟨-, rfl⟩ := Prod.mk.inj heq
      cases hlocking
    · obtain ⟨hlock, -⟩ := hothers hne hj hlocking
      exact hlock
  · intro j k' ph hj
    rcases update_eq_some hj with ⟨rfl, heq⟩ | ⟨hne, hj⟩
    · obtain ⟨rfl, rfl⟩ := Prod.mk.inj heq
      cases txn k' <;> exact trivial
    · cases hlocking : ph.isLocking with
      | false => exact (hs.current hj).of_not_locking hlocking
      | true =>
        obtain ⟨-, rfl⟩ := hothers hne hj hlocking
        exact hs.current hj
  · intro j k' reply'
    rcases eq_or_ne j i with rfl | hne
    · refine ⟨?_, ?_⟩
      · intro hj
        simp only [State.finish, Function.update_self, Option.some.injEq, Prod.mk.injEq,
          Phase.returned.injEq] at hj
        obtain ⟨rfl, rfl⟩ := hj
        exact ⟨now, List.mem_append_right _ (List.mem_singleton_self _)⟩
      · rintro ⟨now', hmem⟩
        rcases List.mem_append.mp hmem with hmem | hmem
        · exact absurd (List.mem_map_of_mem hmem) hfresh
        · obtain ⟨-, rfl, -, rfl⟩ := Commit.mk.inj (List.mem_singleton.mp hmem)
          exact Function.update_self ..
    · simp only [State.finish, Function.update_of_ne hne, hs.mem_history, List.mem_append,
        List.mem_singleton, Commit.mk.injEq, hne, false_and, or_false]
  · rw [State.finish, List.map_append, List.nodup_append]
    refine ⟨hs.nodup, List.nodup_singleton _, ?_⟩
    rintro j hj k hk rfl
    obtain rfl := List.mem_singleton.mp hk
    exact hfresh hj

/-- Only the transaction that holds the lock is past its read. -/
theorem Inv.eq_of_locking {row₀ : ρ} {s : State ρ κ β} (hs : Inv txn row₀ s) {i : ℕ}
    (hlock : s.lock = none ∨ s.lock = some i) {j : ℕ} {k : κ} {ph : Phase ρ β}
    (hj : s.calls j = some (k, ph)) (hlocking : ph.isLocking = true) : j = i := by
  have hholder : s.lock = some j := hs.holder hj hlocking
  rcases hlock with hlock | hlock
  · cases hlock.symm.trans hholder
  · exact Option.some.inj (hholder.symm.trans hlock)

/-- So while it, or none, holds the lock, nothing is to be shown of the others. -/
theorem Inv.others {row₀ : ρ} {s : State ρ κ β} (hs : Inv txn row₀ s) {i : ℕ}
    (hlock : s.lock = none ∨ s.lock = some i) {j : ℕ} {k : κ} {ph : Phase ρ β} {P : Prop}
    (hne : j ≠ i) (hj : s.calls j = some (k, ph)) (hlocking : ph.isLocking = true) : P :=
  absurd (hs.eq_of_locking hlock hj hlocking) hne

/-- A transaction in another phase has not returned. -/
theorem not_returned {s : State ρ κ β} {i : ℕ} {k : κ} {ph : Phase ρ β}
    (hcall : s.calls i = some (k, ph)) (hph : ∀ reply, ph ≠ .returned reply) (k' : κ)
    (reply : β) : s.calls i ≠ some (k', .returned reply) := by
  intro h
  rw [hcall] at h
  obtain ⟨-, h⟩ := Prod.mk.inj (Option.some.inj h)
  exact hph reply h

/-- A transaction that decided on the row as it is does what it does alone. -/
theorem alone_of_current {r : ρ} {now : ℕ} {t : Txn ρ β} {plan : Plan ρ β}
    (h : (Phase.planned now plan).Current r t) : t.alone now r = plan.carryOut r := by
  cases t with
  | locked matching absent body =>
    obtain ⟨hmatch, rfl⟩ := h
    simp [Txn.alone, hmatch]
  | statement write reply => exact h.elim

/-- Having written is being about to. -/
theorem current_written_iff {r : ρ} {now : ℕ} {t : Txn ρ β} {write : ρ → ρ} {reply : β} :
    (Phase.written now write reply).Current r t ↔
      (Phase.planned now (.save write reply)).Current r t := by
  cases t with
  | locked matching absent body => simp only [Phase.Current, eq_comm]
  | statement write reply => exact Iff.rfl

/-- Every step keeps the invariant. -/
theorem Inv.step {row₀ : ρ} {s t : State ρ κ β} {l : Label κ} (hs : Inv txn row₀ s)
    (h : (machine txn).step s l = some t) : Inv txn row₀ t := by
  cases moves_of_step h with
  | @start i k hnew =>
    have hbefore : ∀ k reply, s.calls i ≠ some (k, .returned reply) := by
      intro k reply hreturned
      cases hnew.symm.trans hreturned
    refine hs.goto hbefore ?_ ?_ ?_ ?_
    · intro reply hph
      cases hph
    · cases txn k <;> exact trivial
    · intro hlocking
      cases hlocking
    · intro j k ph _ hj hlocking
      exact hs.holder hj hlocking
  | absent hcall htxn hnot =>
    refine hs.finish (not_returned hcall (by simp)) (by simp [htxn, Txn.alone, hnot]) ?_
    intro j k ph _ hj hlocking
    exact ⟨hs.holder hj hlocking, rfl⟩
  | acquire hcall htxn hmatch hfree =>
    refine hs.goto (not_returned hcall (by simp)) (by simp) ?_ (fun _ => rfl)
      (hs.others (.inl hfree))
    rw [htxn]
    exact ⟨hmatch, rfl⟩
  | statement hcall htxn hfree =>
    exact hs.finish (not_returned hcall (by simp)) (by simp [htxn, Txn.alone])
      (hs.others (.inl hfree))
  | plan hcall htxn =>
    have hlock := hs.holder hcall rfl
    have hcurrent := hs.current hcall
    rw [htxn] at hcurrent
    obtain ⟨hmatch, rfl⟩ := hcurrent
    refine hs.goto (not_returned hcall (by simp)) (by simp) ?_ (fun _ => hlock)
      (hs.others (.inr hlock))
    rw [htxn]
    exact ⟨hmatch, rfl⟩
  | leave hcall =>
    exact hs.finish (not_returned hcall (by simp)) (alone_of_current (hs.current hcall))
      (hs.others (.inr (hs.holder hcall rfl)))
  | write hcall =>
    have hlock := hs.holder hcall rfl
    exact hs.goto (not_returned hcall (by simp)) (by simp)
      (current_written_iff.mpr (hs.current hcall)) (fun _ => hlock) (hs.others (.inr hlock))
  | commit hcall =>
    exact hs.finish (not_returned hcall (by simp))
      (alone_of_current (current_written_iff.mp (hs.current hcall)))
      (hs.others (.inr (hs.holder hcall rfl)))

/-- **Serializability**: in every run the row is what the finished transactions leave one
at a time. -/
theorem inv_of_run {row₀ : ρ} {ls : List (Label κ)} {s : State ρ κ β}
    (h : (machine txn).run (init row₀) ls = some s) : Inv txn row₀ s :=
  Machine.run_invariant' (fun hs hstep => hs.step hstep) (inv_init row₀) h

end RowLock

end DjangoBoilerplate
