import Mathlib.Tactic

/-!
# Business identifiers in log records

`domain_context` of `apps/core/utils/logging.py` sets up to three context variables for a block
and resets them by their tokens when the block is left, however it is left;
`RequestContextFilter` stamps what they hold onto log records.

`run` executes a tree of such blocks. Which log points and which exits of blocks it comes to is
known from the tree alone (`Code.points`), and `blocks_nest` says what is seen at each of them: a
record has what the innermost blocks around it supplied, and a block leaves the variables as it
found them.
-/

namespace DjangoBoilerplate

namespace DomainContext

/-- The context variables. -/
inductive Var : Type where
  | partnerId | appNumber | queryId
deriving DecidableEq

variable {V E : Type}

/-- A value or `None` for each of them: what they hold, what a block supplies, or the attributes
of a record. -/
abbrev Ids (V : Type) : Type := Var → Option V

/-! ## The context manager -/

/-- A token: the variable that was set, and what it held. -/
structure Token (V : Type) : Type where
  /-- the variable -/
  var : Var
  /-- what it held -/
  old : Option V

/-- `if x is not None: tokens.append((var, var.set(x)))`. -/
def push (supplied : Ids V) (s : Ids V × List (Token V)) (x : Var) : Ids V × List (Token V) :=
  match supplied x with
  | none => s
  | some v => (Function.update s.1 x (some v), s.2 ++ [⟨x, s.1 x⟩])

/-- The variables in a block, and the tokens to leave it by. -/
def enter (supplied vars : Ids V) : Ids V × List (Token V) :=
  [Var.partnerId, .appNumber, .queryId].foldl (push supplied) (vars, [])

/-- `for var, token in reversed(tokens): var.reset(token)`. -/
def leave (vars : Ids V) (tokens : List (Token V)) : Ids V :=
  tokens.reverse.foldl (fun vars t => Function.update vars t.var t.old) vars

/-- `RequestContextFilter.filter(record)`: what is held is set where the record has nothing. -/
def filter (vars record : Ids V) : Ids V := fun x =>
  match vars x, record x with
  | some v, none => some v
  | _, own => own

/-! ## Blocks -/

/-- A tree of blocks. -/
inductive Code (V E : Type) : Type where
  /-- nothing -/
  | pass : Code V E
  /-- a log point -/
  | log : Code V E
  /-- an exception is raised -/
  | raise (e : E) : Code V E
  /-- one after the other -/
  | seq (first second : Code V E) : Code V E
  /-- `with domain_context(...): body` -/
  | block (supplied : Ids V) (body : Code V E) : Code V E
  /-- `try: body`, with `except` for some exceptions -/
  | attempt (body : Code V E) (catches : E → Bool) (handler : Code V E) : Code V E

/-- What is seen of a run. -/
inductive Event (V : Type) : Type where
  /-- a fresh record is logged inside these blocks, the innermost first -/
  | logged (enclosing : List (Ids V)) (record : Ids V) : Event V
  /-- a block is left: the variables before it was entered, and after -/
  | left (before after : Ids V) : Event V

/-- How a run ends. -/
structure Result (V E : Type) : Type where
  /-- what the variables hold -/
  vars : Ids V
  /-- the exception it ends with, if any -/
  raised : Option E
  /-- what was seen -/
  events : List (Event V)

/-- Runs the code. -/
def run (enclosing : List (Ids V)) : Code V E → Ids V → Result V E
  | .pass, vars => ⟨vars, none, []⟩
  | .log, vars => ⟨vars, none, [.logged enclosing (filter vars fun _ => none)]⟩
  | .raise e, vars => ⟨vars, some e, []⟩
  | .seq first second, vars =>
    let r := run enclosing first vars
    match r.raised with
    | some _ => r
    | none =>
      let r' := run enclosing second r.vars
      { r' with events := r.events ++ r'.events }
  | .block supplied body, vars =>
    let s := enter supplied vars
    let r := run (supplied :: enclosing) body s.1
    -- `finally`
    let after := leave r.vars s.2
    { r with vars := after, events := r.events ++ [.left vars after] }
  | .attempt body catches handler, vars =>
    let r := run enclosing body vars
    match r.raised with
    | none => r
    | some e =>
      if catches e then
        let r' := run enclosing handler r.vars
        { r' with events := r.events ++ r'.events }
      else r

/-! ## Entering and leaving -/

/-- Leaving undoes what was pushed, token by token. -/
theorem leave_foldl_push (supplied : Ids V) (xs : List Var) (s : Ids V × List (Token V)) :
    leave (xs.foldl (push supplied) s).1 (xs.foldl (push supplied) s).2 = leave s.1 s.2 := by
  induction xs generalizing s with
  | nil => rfl
  | cons x xs ih =>
    rw [List.foldl_cons, ih, push]
    split
    · rfl
    · -- the last token is reset first, and gives the variable back what it held
      simp [leave]

theorem leave_enter (supplied vars : Ids V) :
    leave (enter supplied vars).1 (enter supplied vars).2 = vars :=
  leave_foldl_push supplied _ (vars, [])

theorem foldl_push_apply (supplied : Ids V) {xs : List Var} (s : Ids V × List (Token V)) (x : Var) :
    (xs.foldl (push supplied) s).1 x = if x ∈ xs then (supplied x).or (s.1 x) else s.1 x := by
  induction xs generalizing s with
  | nil => simp
  | cons y xs ih =>
    have hpush : (push supplied s y).1 x = if x = y then (supplied x).or (s.1 x) else s.1 x := by
      rw [push]
      by_cases hxy : x = y
      · subst hxy
        cases hx : supplied x with
        | none => simp
        | some v => simp
      · cases hy : supplied y with
        | none => simp [hxy]
        | some v => simp [hxy]
    rw [List.foldl_cons, ih, hpush]
    by_cases hxy : x = y
    · subst hxy
      cases hx : supplied x with
      | none => simp
      | some v => simp
    · simp [hxy]

/-- In a block a variable holds what the block supplies, or what it held. -/
theorem enter_apply (supplied vars : Ids V) (x : Var) :
    (enter supplied vars).1 x = (supplied x).or (vars x) := by
  rw [enter, foldl_push_apply, if_pos (by cases x <;> decide)]

/-- A fresh record gets what is held. -/
theorem filter_fresh (vars : Ids V) : (filter vars fun _ => none) = vars := by
  funext x
  rw [filter]
  cases vars x with
  | none => rfl
  | some v => rfl

/-! ## Runs -/

/-- The value of the innermost block that supplied one. -/
def innermost (enclosing : List (Ids V)) (x : Var) : Option V :=
  enclosing.findSome? fun supplied => supplied x

/-- What a tree of blocks comes to. -/
inductive Point (V : Type) : Type where
  /-- a log point inside these blocks -/
  | log (enclosing : List (Ids V)) : Point V
  /-- the exit of a block inside these -/
  | exit (enclosing : List (Ids V)) : Point V

/-- The exception the code ends with: the variables have no part in it. -/
def Code.raised : Code V E → Option E
  | .pass | .log => none
  | .raise e => some e
  | .seq first second =>
    match first.raised with
    | some e => some e
    | none => second.raised
  | .block _ body => body.raised
  | .attempt body catches handler =>
    match body.raised with
    | none => none
    | some e => if catches e then handler.raised else some e

/-- The log points and the exits of blocks that the code comes to, in order. -/
def Code.points (enclosing : List (Ids V)) : Code V E → List (Point V)
  | .pass | .raise _ => []
  | .log => [.log enclosing]
  | .seq first second =>
    first.points enclosing ++ if first.raised.isNone then second.points enclosing else []
  | .block supplied body => body.points (supplied :: enclosing) ++ [.exit enclosing]
  | .attempt body catches handler =>
    body.points enclosing ++ if body.raised.any catches then handler.points enclosing else []

/-- What is to be seen there: a record with the identifiers of the innermost blocks; a block that
leaves all as it was. -/
def Point.event : Point V → Event V
  | .log enclosing => .logged enclosing (innermost enclosing)
  | .exit enclosing => .left (innermost enclosing) (innermost enclosing)

/-- A block adds what it supplies to what the blocks around it did. -/
theorem enter_innermost (supplied : Ids V) (enclosing : List (Ids V)) :
    (enter supplied (innermost enclosing)).1 = innermost (supplied :: enclosing) := by
  funext x
  rw [enter_apply, innermost, innermost, List.findSome?_cons]
  cases supplied x with
  | none => rfl
  | some v => rfl

/-- A run in blocks that supplied what the variables hold. -/
theorem run_innermost (c : Code V E) (enclosing : List (Ids V)) :
    run enclosing c (innermost enclosing) =
      ⟨innermost enclosing, c.raised, (c.points enclosing).map Point.event⟩ := by
  induction c generalizing enclosing with
  | pass | raise e => rfl
  | log =>
    rw [run, filter_fresh]
    rfl
  | seq first second ih₁ ih₂ =>
    rw [run, ih₁, Code.raised, Code.points]
    cases first.raised with
    | none => simp [ih₂]
    | some e => simp
  | block supplied body ih =>
    rw [run, enter_innermost, ih, Code.raised, Code.points]
    have hleft : leave (innermost (supplied :: enclosing)) (enter supplied (innermost enclosing)).2 =
        innermost enclosing := by
      rw [← enter_innermost, leave_enter]
    simp [hleft, Point.event]
  | attempt body catches handler ih₁ ih₂ =>
    rw [run, ih₁, Code.raised, Code.points]
    cases body.raised with
    | none => simp
    | some e =>
      cases hcatches : catches e with
      | false => simp [hcatches]
      | true => simp [hcatches, ih₂]

/-- A record has the identifiers of the innermost blocks; a block leaves all as it was. -/
def Event.Correct : Event V → Prop
  | .logged enclosing record => ∀ x, record x = innermost enclosing x
  | .left before after => after = before

theorem Point.event_correct (point : Point V) : point.event.Correct := by
  cases point with
  | log enclosing => exact fun _ => rfl
  | exit enclosing => rfl

/-- **Nesting.** In every run of a tree of blocks that starts outside any, what is seen belongs to
the log points and the exits it comes to, one after the other: each record has the identifiers of
the innermost blocks around it that supplied one, each block leaves the variables as it found them,
and so does the whole. -/
theorem blocks_nest (c : Code V E) :
    (run [] c fun _ => none).vars = (fun _ => none) ∧
      (run [] c fun _ => none).raised = c.raised ∧
      (run [] c fun _ => none).events = (c.points []).map Point.event ∧
      ∀ ev ∈ (run [] c fun _ => none).events, ev.Correct := by
  have hrun : (run [] c fun _ => none) = ⟨fun _ => none, c.raised, (c.points []).map Point.event⟩ :=
    run_innermost c []
  rw [hrun]
  refine ⟨rfl, rfl, rfl, ?_⟩
  intro ev hev
  obtain ⟨point, -, rfl⟩ := List.mem_map.mp hev
  exact point.event_correct

/-- The identifiers of a block with a partner and maybe a query. -/
def partnerIds (partner : ℕ) (query : Option ℕ) : Ids ℕ
  | .partnerId => some partner
  | .appNumber => none
  | .queryId => query

/-- A block in a block, left by an exception that is caught between them. -/
def caughtInside : Code ℕ Unit :=
  .block (partnerIds 1 (some 7))
    (.seq (.attempt (.block (partnerIds 2 none) (.seq .log (.raise ()))) (fun _ => true) .log) .log)

/-- The identifiers of a record, if it is one. -/
def Event.stamped : Event ℕ → Option (List (Option ℕ))
  | .logged _ record => some [record .partnerId, record .appNumber, record .queryId]
  | .left _ _ => none

/-- The inner block's partner is in its record only, the outer block's query in all. -/
theorem caughtInside_stamped :
    ((run [] caughtInside fun _ => none).events.map Event.stamped) =
      [some [some 2, none, some 7], none, some [some 1, none, some 7],
        some [some 1, none, some 7], none] := by
  rw [(blocks_nest caughtInside).2.2.1]
  rfl

end DomainContext

end DjangoBoilerplate
