import DjangoBoilerplate.ApiLogRows
import DjangoBoilerplate.Effects

/-!
# Dispatching audit rows

`capture_and_dispatch` and `fire_and_forget` of `apps/core/api_log/dispatch.py`, which
`log_inbound` and `log_outbound` wrap around a callable: run it, build the row of the call,
hand it to the queue, and return or re-raise what the callable did.

The callable, the builder, the lookups of queue and backend and `submit` are arbitrary
actions on the rest of the world: each may change it, return or raise. What the wrapper
itself does is recorded as a list of events, the calls, the submitted rows and the log
records of failures. `fireAndForget_spec` and `audit_spec` say what one row leaves in that
list; the wrapper is **transparent** (`capture_transparent`) because neither lets an
`Exception` out.
-/

namespace DjangoBoilerplate

namespace ApiLog

/-! ## Exceptions and events -/

/-- How an exception is caught. -/
inductive Kind : Type where
  /-- a `BaseException` that is no `Exception` -/
  | base
  /-- an `Exception` that is no `TypeError` -/
  | exception
  /-- a `TypeError` -/
  | typeError
  deriving DecidableEq

/-- An exception on its way. -/
structure Raised : Type where
  /-- its place in the hierarchy -/
  kind : Kind
  /-- what is read of it -/
  exc : Exc

/-- `except Exception`. -/
def Raised.isException (e : Raised) : Bool := e.kind ≠ .base

/-- `except TypeError`. -/
def Raised.isTypeError (e : Raised) : Bool := e.kind = .typeError

/-- `_correlation_extra(...)`. -/
structure Correlation : Type where
  /-- `"service_name"` -/
  serviceName : Option Str
  /-- `"direction"` -/
  direction : Option Direction
  /-- `"request_id"` -/
  requestId : Option Str
  /-- `"log_id"` -/
  logId : Option Str

/-- What the wrapper does to the world. -/
inductive Event (A ρ : Type) : Type where
  /-- it calls the wrapped callable -/
  | called (args : A) : Event A ρ
  /-- it submits a row to the queue -/
  | submitted (row : ρ) : Event A ρ
  /-- it logs a failure -/
  | failed (message : Str) (extra : Correlation) : Event A ρ

section Events

variable {A ρ : Type}

/-- The calls among some events. -/
def calls (events : List (Event A ρ)) : List A :=
  events.filterMap fun
    | .called args => some args
    | _ => none

/-- The rows submitted. -/
def submits (events : List (Event A ρ)) : List ρ :=
  events.filterMap fun
    | .submitted row => some row
    | _ => none

/-- The failures logged. -/
def failures (events : List (Event A ρ)) : List Correlation :=
  events.filterMap fun
    | .failed _ extra => some extra
    | _ => none

end Events

/-! ## The world -/

/-- The state the wrapper runs in. -/
structure World (σ A ρ : Type) : Type where
  /-- everything the callable and the others act on -/
  inner : σ
  /-- how many ids `uuid4()` has given -/
  drawn : ℕ
  /-- what the wrapper has done -/
  events : List (Event A ρ)

/-- What the wrapper calls: `σ` is the rest of the world, `A` the arguments of the callable,
`V` what it returns, `ρ` the rows. -/
structure Env (σ A V ρ : Type) : Type where
  /-- the ids `uuid4()` gives -/
  uuid : ℕ → Str
  /-- `t.elapsed_ms`, by the `repr` of the float -/
  elapsedMs : σ → Str
  /-- `_request_id_var.get(None)` -/
  requestId : σ → Option Str
  /-- `fn(*args, **kwargs)` -/
  fn : A → Act Raised σ V
  /-- `build_row(result, exc, elapsed_ms, log_id=...)`, or without the keyword -/
  buildRow : Except Raised V → Str → Option Str → Act Raised σ ρ
  /-- `factory.get_apilog_queue()` -/
  getApilogQueue : Act Raised σ Unit
  /-- `factory.get_backend()` -/
  getBackend : Act Raised σ Unit
  /-- `queue.submit(lambda r=row: backend.persist(r))` -/
  submit : ρ → Act Raised σ Unit

variable {σ A V ρ : Type}

/-- An action of the rest of the world. -/
def external {α : Type} (x : Act Raised σ α) : Act Raised (World σ A ρ) α := fun s =>
  ((x s.inner).1, { s with inner := (x s.inner).2 })

/-- Record an event. -/
def emit (event : Event A ρ) : Act Raised (World σ A ρ) Unit := fun s =>
  (.ok (), { s with events := s.events ++ [event] })

/-- Read the world. -/
def observe {α : Type} (f : σ → α) : Act Raised (World σ A ρ) α := fun s => (.ok (f s.inner), s)

/-- `str(uuid.uuid4())`. -/
def uuid4 (uuid : ℕ → Str) : Act Raised (World σ A ρ) Str := fun s =>
  (.ok (uuid s.drawn), { s with drawn := s.drawn + 1 })

/-! ## The wrapper -/

/-- The tags of a wrapped callable. -/
structure Tags : Type where
  /-- `service_name` -/
  serviceName : Option Str
  /-- `direction` -/
  direction : Option Direction

variable (E : Env σ A V ρ) (tags : Tags)

/-- `logger.exception(message, extra=_correlation_extra(...))`. -/
def logException (message logId : Str) : Act Raised (World σ A ρ) Unit := do
  let requestId ← observe E.requestId
  emit (.failed message ⟨tags.serviceName, tags.direction, requestId, some logId⟩)

/-- `fire_and_forget(row, ...)`. -/
def fireAndForget (row : ρ) (logId : Str) : Act Raised (World σ A ρ) Unit :=
  Act.catching Raised.isException
    (do
      external E.getApilogQueue
      external E.getBackend
      emit (.submitted row)
      external (E.submit row))
    fun _ => logException E tags "api_log dispatch failed; row dropped".toList logId

/-- `_build(result, exc, elapsed_ms)`: the builder with the id, and without it after a
`TypeError`. -/
def build (outcome : Except Raised V) (elapsedMs logId : Str) : Act Raised (World σ A ρ) ρ :=
  Act.catching Raised.isTypeError (external (E.buildRow outcome elapsedMs (some logId)))
    fun _ => external (E.buildRow outcome elapsedMs none)

/-- Build the row of a call and hand it on, the `try` of either path. -/
def audit (outcome : Except Raised V) (logId message : Str) : Act Raised (World σ A ρ) Unit :=
  Act.catching Raised.isException
    (do
      let elapsedMs ← observe E.elapsedMs
      let row ← build E outcome elapsedMs logId
      fireAndForget E tags row logId)
    fun _ => logException E tags message logId

/-- `capture_and_dispatch(fn, args, kwargs, build_row, ...)`. -/
def captureAndDispatch (args : A) : Act Raised (World σ A ρ) V := do
  let logId ← uuid4 E.uuid
  let result ← Act.catching (fun _ => true)
    (do
      emit (.called args)
      external (E.fn args))
    fun exc => do
      audit E tags (.error exc) logId "api_log build_row failed (error path)".toList
      Act.raise exc
  audit E tags (.ok result) logId "api_log build_row failed (success path)".toList
  pure result

/-! ## What a row leaves behind -/

/-- Events of the wrapper after the call: they submit the given rows, and every failure
carries the id. -/
structure Trail (logId : Str) (rows : List ρ) (events : List (Event A ρ)) : Prop where
  calls_eq : calls events = []
  submits_eq : submits events = rows
  logId_eq : ∀ record ∈ failures events, record.logId = some logId

theorem Trail.nil {logId : Str} : Trail logId [] ([] : List (Event A ρ)) where
  calls_eq := rfl
  submits_eq := rfl
  logId_eq := fun record h => by cases h

theorem Trail.append {logId : Str} {rows rows' : List ρ} {events events' : List (Event A ρ)}
    (h : Trail logId rows events) (h' : Trail logId rows' events') :
    Trail logId (rows ++ rows') (events ++ events') where
  calls_eq := by rw [calls, List.filterMap_append]; exact congrArg₂ (· ++ ·) h.calls_eq h'.calls_eq
  submits_eq := by
    rw [submits, List.filterMap_append]
    exact congrArg₂ (· ++ ·) h.submits_eq h'.submits_eq
  logId_eq := by
    intro record hrecord
    rw [failures, List.filterMap_append] at hrecord
    rcases List.mem_append.mp hrecord with hrecord | hrecord
    · exact h.logId_eq record hrecord
    · exact h'.logId_eq record hrecord

/-- From `s` to `t` the wrapper has submitted the given rows. -/
def Leaves (logId : Str) (rows : List ρ) (s t : World σ A ρ) : Prop :=
  t.drawn = s.drawn ∧ ∃ events, t.events = s.events ++ events ∧ Trail logId rows events

theorem Leaves.trans {logId : Str} {rows rows' : List ρ} {s t t' : World σ A ρ}
    (h : Leaves logId rows s t) (h' : Leaves logId rows' t t') :
    Leaves logId (rows ++ rows') s t' := by
  obtain ⟨hdrawn, events, hevents, htrail⟩ := h
  obtain ⟨hdrawn', events', hevents', htrail'⟩ := h'
  refine ⟨hdrawn'.trans hdrawn, events ++ events', ?_, htrail.append htrail'⟩
  rw [hevents', hevents, List.append_assoc]

theorem external_spec {α : Type} (x : Act Raised σ α) (logId : Str) (s : World σ A ρ) :
    (external x).wp (fun r t => x s.inner = (r, t.inner) ∧ Leaves logId [] s t) s :=
  ⟨rfl, rfl, [], (List.append_nil _).symm, Trail.nil⟩

theorem logException_spec (message logId : Str) (s : World σ A ρ) :
    (logException E tags message logId).wp (fun r t => r = .ok () ∧ Leaves logId [] s t) s := by
  refine ⟨rfl, rfl, _, rfl, ⟨rfl, rfl, ?_⟩⟩
  intro record hrecord
  obtain rfl := List.mem_singleton.mp hrecord
  rfl

/-- The queue and the backend are found. -/
def Env.Finds (s : σ) : Prop :=
  ∃ s₁ s₂, E.getApilogQueue s = (.ok (), s₁) ∧ E.getBackend s₁ = (.ok (), s₂)

/-- What the wrapper calls after the callable raises nothing but `Exception`s. -/
structure Env.Tame : Prop where
  buildRow : ∀ {outcome elapsedMs logId s e t},
    E.buildRow outcome elapsedMs logId s = (.error e, t) → e.isException = true
  getApilogQueue : ∀ {s e t}, E.getApilogQueue s = (.error e, t) → e.isException = true
  getBackend : ∀ {s e t}, E.getBackend s = (.error e, t) → e.isException = true
  submit : ∀ {row s e t}, E.submit row s = (.error e, t) → e.isException = true

/-- The body of `fire_and_forget`: the row is submitted once both lookups have succeeded,
whether or not `submit` then raises. -/
theorem submit_spec (row : ρ) (logId : Str) (s : World σ A ρ) :
    Act.wp (do
        external E.getApilogQueue
        external E.getBackend
        emit (.submitted row)
        external (E.submit row))
      (fun r t => (E.Finds s.inner → Leaves logId [row] s t) ∧
        (¬ E.Finds s.inner → Leaves logId [] s t) ∧
        (E.Tame → ∀ e, r = .error e → e.isException = true)) s := by
  refine Act.wp_bind (external_spec E.getApilogQueue logId s) ?_ ?_
  · rintro ⟨⟩ t₁ ⟨hqueue, h₁⟩
    refine Act.wp_bind (external_spec E.getBackend logId t₁) ?_ ?_
    · rintro ⟨⟩ t₂ ⟨hbackend, h₂⟩
      have hfinds : E.Finds s.inner := ⟨_, _, hqueue, hbackend⟩
      have hemit : Leaves logId [row] t₂ { t₂ with events := t₂.events ++ [.submitted row] } :=
        ⟨rfl, _, rfl, rfl, rfl, fun _ h => by cases h⟩
      refine Act.wp_bind (R := fun r t => r = .ok () ∧ Leaves logId [row] t₂ t) ⟨rfl, hemit⟩ ?_ ?_
      · rintro ⟨⟩ t₃ ⟨-, h₃⟩
        obtain ⟨hsubmit, h₄⟩ := external_spec (ρ := ρ) (A := A) (E.submit row) logId t₃
        refine ⟨fun _ => ((h₁.trans h₂).trans h₃).trans h₄, fun hnot => absurd hfinds hnot, ?_⟩
        intro htame e he
        have hraised : E.submit row t₃.inner = (.error e, (E.submit row t₃.inner).2) := by
          rw [← he]
          rfl
        exact htame.submit hraised
      · rintro e t₃ ⟨he, -⟩
        cases he
    · rintro e t₂ ⟨hbackend, h₂⟩
      refine ⟨?_, fun _ => h₁.trans h₂, ?_⟩
      · rintro ⟨s₁, s₂, hqueue', hbackend'⟩
        rw [hqueue] at hqueue'
        obtain ⟨-, rfl⟩ := Prod.mk.inj hqueue'
        rw [hbackend] at hbackend'
        cases hbackend'
      · rintro htame e' he
        cases he
        exact htame.getBackend hbackend
  · rintro e t₁ ⟨hqueue, h₁⟩
    refine ⟨?_, fun _ => h₁, ?_⟩
    · rintro ⟨s₁, s₂, hqueue', -⟩
      rw [hqueue] at hqueue'
      cases hqueue'
    · rintro htame e' he
      cases he
      exact htame.getApilogQueue hqueue

/-- `fire_and_forget` submits its row if the lookups succeed, and lets no `Exception` out. -/
theorem fireAndForget_spec (row : ρ) (logId : Str) (s : World σ A ρ) :
    (fireAndForget E tags row logId).wp
      (fun r t => (E.Finds s.inner → Leaves logId [row] s t) ∧
        (¬ E.Finds s.inner → Leaves logId [] s t) ∧ (E.Tame → r = .ok ())) s := by
  refine Act.wp_catching (submit_spec E row logId s) ?_ ?_ ?_
  · rintro ⟨⟩ t ⟨hfinds, hnot, -⟩
    exact ⟨hfinds, hnot, fun _ => rfl⟩
  · rintro e t ⟨hfinds, hnot, -⟩ -
    obtain ⟨hok, hlogged⟩ := logException_spec E tags
      "api_log dispatch failed; row dropped".toList logId t
    exact ⟨fun h => (hfinds h).trans hlogged, fun h => (hnot h).trans hlogged, fun _ => hok⟩
  · rintro e t ⟨hfinds, hnot, htame⟩ huncaught
    refine ⟨hfinds, hnot, fun h => ?_⟩
    rw [htame h e rfl] at huncaught
    cases huncaught

/-- The builder returns a row: at once, or without the id after a `TypeError`. -/
inductive Env.BuildsRow (outcome : Except Raised V) (elapsedMs logId : Str) (s : σ) (row : ρ)
    (t : σ) : Prop where
  | forwarded (h : E.buildRow outcome elapsedMs (some logId) s = (.ok row, t)) :
      Env.BuildsRow outcome elapsedMs logId s row t
  | retried {e : Raised} {s' : σ}
      (h : E.buildRow outcome elapsedMs (some logId) s = (.error e, s'))
      (he : e.isTypeError = true) (h' : E.buildRow outcome elapsedMs none s' = (.ok row, t)) :
      Env.BuildsRow outcome elapsedMs logId s row t

theorem build_spec (outcome : Except Raised V) (elapsedMs logId : Str) (s : World σ A ρ) :
    (build E outcome elapsedMs logId).wp
      (fun r t => Leaves logId [] s t ∧
        (∀ row u, E.BuildsRow outcome elapsedMs logId s.inner row u → r = .ok row ∧ t.inner = u) ∧
        (E.Tame → ∀ e, r = .error e → e.isException = true)) s := by
  refine Act.wp_catching (external_spec (E.buildRow outcome elapsedMs (some logId)) logId s)
    ?_ ?_ ?_
  · rintro row t ⟨hrow, h⟩
    refine ⟨h, ?_, fun _ e he => by cases he⟩
    rintro row' u (hrow' | ⟨hraised, -, -⟩)
    · rw [hrow] at hrow'
      exact Prod.mk.inj hrow'
    · rw [hrow] at hraised
      cases hraised
  · rintro e t ⟨hraised, h⟩ he
    obtain ⟨hagain, h'⟩ := external_spec (A := A) (ρ := ρ)
      (E.buildRow outcome elapsedMs none) logId t
    refine ⟨h.trans h', ?_, ?_⟩
    · rintro row u (hrow | ⟨hraised', -, hrow⟩)
      · rw [hraised] at hrow
        cases hrow
      · rw [hraised] at hraised'
        obtain ⟨-, rfl⟩ := Prod.mk.inj hraised'
        rw [hagain] at hrow
        exact Prod.mk.inj hrow
    · intro htame e' he'
      rw [he'] at hagain
      exact htame.buildRow hagain
  · rintro e t ⟨hraised, h⟩ he
    refine ⟨h, ?_, ?_⟩
    · rintro row u (hrow | ⟨hraised', he', -⟩)
      · rw [hraised] at hrow
        cases hrow
      · rw [hraised] at hraised'
        obtain ⟨heq, -⟩ := Prod.mk.inj hraised'
        obtain rfl := Except.error.inj heq
        rw [he] at he'
        cases he'
    · rintro htame e' he'
      cases he'
      exact htame.buildRow hraised

/-- From `s` to `t` the call has been recorded: at most one row is submitted, and it is the
one the builder returns if queue and backend are found. -/
def Env.Audited (outcome : Except Raised V) (logId : Str) (s t : World σ A ρ) : Prop :=
  ∃ rows, Leaves logId rows s t ∧ rows.length ≤ 1 ∧
    ∀ row u, E.BuildsRow outcome (E.elapsedMs s.inner) logId s.inner row u →
      (E.Finds u → rows = [row]) ∧ (¬ E.Finds u → rows = [])

variable {E} in
theorem Env.Audited.trans {outcome : Except Raised V} {logId : Str} {s t t' : World σ A ρ}
    (h : E.Audited outcome logId s t) (h' : Leaves logId [] t t') :
    E.Audited outcome logId s t' := by
  obtain ⟨rows, hleaves, hrows⟩ := h
  refine ⟨rows, ?_, hrows⟩
  simpa using hleaves.trans h'

theorem audit_body_spec (outcome : Except Raised V) (logId : Str) (s : World σ A ρ) :
    Act.wp (do
        let elapsedMs ← observe E.elapsedMs
        let row ← build E outcome elapsedMs logId
        fireAndForget E tags row logId)
      (fun r t => E.Audited outcome logId s t ∧
        (E.Tame → ∀ e, r = .error e → e.isException = true)) s := by
  refine Act.wp_bind (R := fun r t => r = .ok (E.elapsedMs s.inner) ∧ t = s) ⟨rfl, rfl⟩ ?_ ?_
  · rintro elapsedMs t ⟨helapsed, rfl⟩
    obtain rfl := Except.ok.inj helapsed
    refine Act.wp_bind (build_spec E outcome (E.elapsedMs t.inner) logId t) ?_ ?_
    · rintro row t₁ ⟨h₁, hbuilds, -⟩
      obtain ⟨hfinds, hnot, htame⟩ := fireAndForget_spec E tags row logId t₁
      refine ⟨?_, ?_⟩
      · -- the row handed on is the one the builder returned
        have hsame : ∀ row' u,
            E.BuildsRow outcome (E.elapsedMs t.inner) logId t.inner row' u →
              row = row' ∧ t₁.inner = u := by
          intro row' u hrow'
          obtain ⟨hrow, hu⟩ := hbuilds row' u hrow'
          exact ⟨Except.ok.inj hrow, hu⟩
        by_cases hfound : E.Finds t₁.inner
        · refine ⟨[row], h₁.trans (hfinds hfound), le_refl 1, ?_⟩
          intro row' u hrow'
          obtain ⟨rfl, rfl⟩ := hsame row' u hrow'
          exact ⟨fun _ => rfl, fun h => absurd hfound h⟩
        · refine ⟨[], h₁.trans (hnot hfound), Nat.zero_le 1, ?_⟩
          intro row' u hrow'
          obtain ⟨rfl, rfl⟩ := hsame row' u hrow'
          exact ⟨fun h => absurd h hfound, fun _ => rfl⟩
      · intro h e he
        rw [htame h] at he
        cases he
    · rintro e t₁ ⟨h₁, hbuilds, htame⟩
      refine ⟨⟨[], h₁, Nat.zero_le 1, ?_⟩, ?_⟩
      · intro row u hrow
        obtain ⟨hrow, -⟩ := hbuilds row u hrow
        cases hrow
      · rintro h e' he
        cases he
        exact htame h e rfl
  · rintro e t ⟨he, -⟩
    cases he

/-- What the wrapper does after the call lets no `Exception` out. -/
theorem audit_spec (outcome : Except Raised V) (logId message : Str) (s : World σ A ρ) :
    (audit E tags outcome logId message).wp
      (fun r t => E.Audited outcome logId s t ∧ (E.Tame → r = .ok ())) s := by
  refine Act.wp_catching (audit_body_spec E tags outcome logId s) ?_ ?_ ?_
  · rintro ⟨⟩ t ⟨haudited, -⟩
    exact ⟨haudited, fun _ => rfl⟩
  · rintro e t ⟨haudited, -⟩ -
    obtain ⟨hok, hlogged⟩ := logException_spec E tags message logId t
    exact ⟨haudited.trans hlogged, fun _ => hok⟩
  · rintro e t ⟨haudited, htame⟩ huncaught
    refine ⟨haudited, fun h => ?_⟩
    rw [htame h e rfl] at huncaught
    cases huncaught

/-! ## The wrapper is transparent -/

/-- The world right after the call. -/
def Env.called (args : A) (s : World σ A ρ) : World σ A ρ where
  inner := (E.fn args s.inner).2
  drawn := s.drawn + 1
  events := s.events ++ [.called args]

/-- The call itself. -/
theorem call_spec (args : A) (s : World σ A ρ) :
    Act.wp (do
        emit (.called args)
        external (E.fn args))
      (fun r t => r = (E.fn args s.inner).1 ∧ t = E.called args s)
      { s with drawn := s.drawn + 1 } :=
  ⟨rfl, rfl⟩

/-- On the error path the exception goes on. -/
theorem error_path_spec (exc : Raised) (logId message : Str) (s : World σ A ρ) :
    Act.wp (do
        audit E tags (.error exc) logId message
        (Act.raise exc : Act Raised (World σ A ρ) V))
      (fun r t => (∃ e, r = .error e) ∧ E.Audited (.error exc) logId s t ∧
        (E.Tame → r = .error exc)) s := by
  refine Act.wp_bind (audit_spec E tags (.error exc) logId message s) ?_ ?_
  · rintro ⟨⟩ t ⟨haudited, -⟩
    exact ⟨⟨exc, rfl⟩, haudited, fun _ => rfl⟩
  · rintro e t ⟨haudited, htame⟩
    refine ⟨⟨e, rfl⟩, haudited, fun h => ?_⟩
    cases htame h

/-- The wrapper calls, records, and ends as the callable did. -/
theorem captureAndDispatch_spec (args : A) (s : World σ A ρ) :
    (captureAndDispatch E tags args).wp
      (fun r t => E.Audited (E.fn args s.inner).1 (E.uuid s.drawn) (E.called args s) t ∧
        (E.Tame → r = (E.fn args s.inner).1)) s := by
  refine Act.wp_bind
    (R := fun r t => r = .ok (E.uuid s.drawn) ∧ t = { s with drawn := s.drawn + 1 })
    ⟨rfl, rfl⟩ ?_ ?_
  · rintro logId t ⟨hlogId, rfl⟩
    obtain rfl := Except.ok.inj hlogId
    refine Act.wp_bind
      (R := fun r t => (∀ v, r = .ok v → (E.fn args s.inner).1 = .ok v ∧ t = E.called args s) ∧
        ∀ e, r = .error e →
          E.Audited (E.fn args s.inner).1 (E.uuid s.drawn) (E.called args s) t ∧
            (E.Tame → .error e = (E.fn args s.inner).1)) ?_ ?_ ?_
    · refine Act.wp_catching (call_spec E args s) ?_ ?_ ?_
      · rintro v t ⟨hv, rfl⟩
        refine ⟨fun v' hv' => ?_, fun e he => by cases he⟩
        exact ⟨hv.symm.trans hv', rfl⟩
      · rintro exc t ⟨hexc, rfl⟩ -
        refine Act.wp_mono (error_path_spec E tags exc (E.uuid s.drawn)
          "api_log build_row failed (error path)".toList (E.called args s)) ?_
        rintro r t ⟨⟨e, rfl⟩, haudited, htame⟩
        rw [hexc] at haudited
        refine ⟨fun v hv => (by cases hv), fun e' he' => ⟨haudited, fun h => ?_⟩⟩
        rw [← he', htame h, hexc]
      · rintro exc t - huncaught
        cases huncaught
    · rintro v t ⟨hv, -⟩
      obtain ⟨hfn, rfl⟩ := hv v rfl
      refine Act.wp_bind (audit_spec E tags (.ok v) (E.uuid s.drawn)
        "api_log build_row failed (success path)".toList (E.called args s)) ?_ ?_
      · rintro ⟨⟩ t ⟨haudited, -⟩
        rw [hfn]
        exact ⟨haudited, fun _ => rfl⟩
      · rintro e t ⟨haudited, htame⟩
        rw [hfn]
        refine ⟨haudited, fun h => ?_⟩
        cases htame h
    · rintro e t ⟨-, he⟩
      exact he e rfl
  · rintro e t ⟨he, -⟩
    cases he

/-- Audit capture is transparent: the callable is called once with its arguments, the
wrapper returns or raises what it did, and at most one row is submitted, exactly one if the
builder returns a row and the queue and the backend are found. -/
theorem capture_transparent (hE : E.Tame) (args : A) (s : World σ A ρ) :
    ((captureAndDispatch E tags args) s).1 = (E.fn args s.inner).1 ∧
      ∃ events, ((captureAndDispatch E tags args) s).2.events = s.events ++ events ∧
        calls events = [args] ∧ (submits events).length ≤ 1 ∧
        ∀ row s₁ s₂ s₃,
          E.BuildsRow (E.fn args s.inner).1 (E.elapsedMs (E.fn args s.inner).2) (E.uuid s.drawn)
            (E.fn args s.inner).2 row s₁ →
          E.getApilogQueue s₁ = (.ok (), s₂) → E.getBackend s₂ = (.ok (), s₃) →
          submits events = [row] := by
  obtain ⟨⟨rows, ⟨-, events, hevents, htrail⟩, hlength, hrows⟩, htame⟩ :=
    captureAndDispatch_spec E tags args s
  refine ⟨htame hE, .called args :: events, ?_, ?_, ?_, ?_⟩
  · rw [hevents, Env.called, List.append_assoc]
    rfl
  · exact congrArg (args :: ·) htrail.calls_eq
  · exact htrail.submits_eq.symm ▸ hlength
  · intro row s₁ s₂ s₃ hrow hqueue hbackend
    obtain ⟨hfound, -⟩ := hrows row s₁ hrow
    exact htrail.submits_eq.trans (hfound ⟨s₂, s₃, hqueue, hbackend⟩)

/-! ## The builders of the decorators -/

/-- What a call with `log_id=` raises where `build_row` takes no such argument. -/
def unexpectedKeyword : Raised where
  kind := .typeError
  exc :=
    { typeName := "TypeError".toList
      message := "build_row() got an unexpected keyword argument 'log_id'".toList
      custom := none }

/-- A `build_row(result, exc, elapsed_ms)`. -/
def withoutLogId (row : Except Raised V → Str → ρ) (outcome : Except Raised V) (elapsedMs : Str) :
    Option Str → Act Raised σ ρ
  | some _ => Act.raise unexpectedKeyword
  | none => pure (row outcome elapsedMs)

/-- The world with such a builder. -/
def Env.building (E : Env σ A V ρ) (row : Except Raised V → Str → ρ) : Env σ A V ρ :=
  { E with buildRow := withoutLogId row }

/-- How a call ended, as the rows have it. -/
def outcomeOf : Except Raised V → Outcome V
  | .ok result => .returned result
  | .error e => .raised e.exc

variable (c : Context) (serviceName : Str)

/-- `log_inbound(service_name)` around a view, with the request it finds among the
arguments. -/
def logInbound (E : Env σ A ViewResponse Row) (requestFromArgs : A → Option ViewRequest)
    (args : A) : Act Raised (World σ A Row) ViewResponse :=
  captureAndDispatch
    (E.building fun outcome => inboundRow c serviceName (requestFromArgs args) (outcomeOf outcome))
    ⟨some serviceName, some .inbound⟩ args

/-- `log_outbound(service_name)` around a service method. -/
def logOutbound (E : Env σ A HttpResponse Row) (args : A) :
    Act Raised (World σ A Row) HttpResponse :=
  captureAndDispatch (E.building fun outcome => outboundRow c serviceName (outcomeOf outcome))
    ⟨some serviceName, some .outbound⟩ args

/-- A builder that takes no `log_id` is called twice, and returns its row. -/
theorem buildsRow_building (row : Except Raised V → Str → ρ) (outcome : Except Raised V)
    (elapsedMs logId : Str) (s : σ) :
    (E.building row).BuildsRow outcome elapsedMs logId s (row outcome elapsedMs) s :=
  .retried (e := unexpectedKeyword) rfl rfl rfl

/-! ## The correlation id -/

/-- The columns of a row, as the `dict` has them. -/
def Row.columns (row : Row) : List (Str × Value) :=
  [("direction".toList, .str (match row.direction with
      | .inbound => "inbound".toList
      | .outbound => "outbound".toList)),
    ("service_name".toList, .str row.serviceName),
    ("request_id".toList, .str row.requestId),
    ("method".toList, .str row.method),
    ("url".toList, .str row.url),
    ("status_code".toList, (row.statusCode.map Value.int).getD .none),
    ("duration_ms".toList, .float row.durationMs),
    ("request_headers".toList, .dict (row.requestHeaders.map fun h => (h.1, .str h.2))),
    ("request_body".toList, (row.requestBody.map Value.str).getD .none),
    ("response_headers".toList, .dict (row.responseHeaders.map fun h => (h.1, .str h.2))),
    ("response_body".toList, (row.responseBody.map Value.str).getD .none),
    ("error".toList, (row.error.map fun e =>
      Value.dict [("type".toList, .str e.type), ("message".toList, .str e.message)]).getD .none),
    ("extra".toList, .dict row.extra)]

/-- The row carries an id: as its primary key, in a column of its own, or in `extra`. -/
def Row.Carries (row : Row) (logId : Str) : Prop :=
  getItem row.columns "id".toList = some (.str logId) ∨
    getItem row.columns "log_id".toList = some (.str logId) ∨
    getItem row.extra "log_id".toList = some (.str logId)

theorem not_carries {row : Row} (hextra : row.extra = []) (logId : Str) :
    ¬ row.Carries logId := by
  have hid : getItem row.columns "id".toList = none := rfl
  have hlogId : getItem row.columns "log_id".toList = none := rfl
  rintro (h | h | h)
  · rw [hid] at h
    cases h
  · rw [hlogId] at h
    cases h
  · rw [hextra] at h
    cases h

/-- What an action of the wrapper has done since `s`. -/
def eventsSince {α : Type} (x : Act Raised (World σ A ρ) α) (s : World σ A ρ) :
    List (Event A ρ) :=
  (x s).2.events.drop s.events.length

/-- A call is correlated: the row it submits and every failure it logs carry the id. -/
def Correlated (logId : Str) (events : List (Event A Row)) : Prop :=
  (∀ row ∈ submits events, row.Carries logId) ∧
    ∀ record ∈ failures events, record.logId = some logId

/-- No later call draws the id of this one. -/
def Unrepeated {α : Type} (uuid : ℕ → Str) (x : Act Raised (World σ A ρ) α)
    (s : World σ A ρ) : Prop :=
  ∀ n, (x s).2.drawn ≤ n → uuid n ≠ uuid s.drawn

/-- Where the builder takes no `log_id`, a call is correlated only if it submits nothing. -/
theorem correlated_building_iff (row : Except Raised V → Str → Row)
    (hextra : ∀ outcome elapsedMs, (row outcome elapsedMs).extra = []) {E : Env σ A V Row}
    (huuid : Function.Injective E.uuid) (tags : Tags) (args : A) (s : World σ A Row) :
    (Correlated (E.uuid s.drawn)
          (eventsSince (captureAndDispatch (E.building row) tags args) s) ∧
        Unrepeated E.uuid (captureAndDispatch (E.building row) tags args) s) ↔
      ¬ E.Finds (E.fn args s.inner).2 := by
  obtain ⟨⟨rows, ⟨hdrawn, events, hevents, htrail⟩, -, hrows⟩, -⟩ :=
    captureAndDispatch_spec (E.building row) tags args s
  obtain ⟨hfound, hnot⟩ := hrows _ _ (buildsRow_building E row _ _ _ _)
  have hsince : eventsSince (captureAndDispatch (E.building row) tags args) s =
      .called args :: events := by
    rw [eventsSince, hevents, Env.called, List.append_assoc, List.drop_left]
    rfl
  have hsubmits : submits (.called args :: events) = rows := htrail.submits_eq
  have hunrepeated : Unrepeated E.uuid (captureAndDispatch (E.building row) tags args) s := by
    intro n hn heq
    rw [hdrawn, Env.called, huuid heq] at hn
    exact absurd hn (Nat.not_succ_le_self _)
  rw [hsince]
  refine ⟨?_, ?_⟩
  · rintro ⟨⟨hcarries, -⟩, -⟩ hfinds
    rw [hsubmits, hfound hfinds] at hcarries
    exact not_carries (hextra _ _) _ (hcarries _ (List.mem_singleton_self _))
  · intro hnone
    refine ⟨⟨?_, htrail.logId_eq⟩, hunrepeated⟩
    rw [hsubmits, hnot hnone]
    intro row' h
    cases h

/-- The row of a call through `log_inbound` or `log_outbound` carries the id of the call's
failure records exactly if there is no row: neither builder takes the id. -/
theorem log_id_correlated_iff :
    (∀ (E : Env σ A ViewResponse Row) (requestFromArgs : A → Option ViewRequest) (args : A)
      (s : World σ A Row), Function.Injective E.uuid →
      ((Correlated (E.uuid s.drawn)
            (eventsSince (logInbound c serviceName E requestFromArgs args) s) ∧
          Unrepeated E.uuid (logInbound c serviceName E requestFromArgs args) s) ↔
        ¬ E.Finds (E.fn args s.inner).2)) ∧
    (∀ (E : Env σ A HttpResponse Row) (args : A) (s : World σ A Row), Function.Injective E.uuid →
      ((Correlated (E.uuid s.drawn) (eventsSince (logOutbound c serviceName E args) s) ∧
          Unrepeated E.uuid (logOutbound c serviceName E args) s) ↔
        ¬ E.Finds (E.fn args s.inner).2)) := by
  refine ⟨?_, ?_⟩
  · intro E requestFromArgs args s huuid
    exact correlated_building_iff
      (fun outcome => inboundRow c serviceName (requestFromArgs args) (outcomeOf outcome))
      (fun _ _ => rfl) huuid _ args s
  · intro E args s huuid
    exact correlated_building_iff (fun outcome => outboundRow c serviceName (outcomeOf outcome))
      (fun _ _ => rfl) huuid _ args s

/-! ## A queue that can be found, and one that cannot -/

/-- A world in which the callable does as told, and `submit` raises. -/
def scripted (outcome : Except Raised V) (queue : Except Raised Unit) : Env Unit Unit V ρ where
  uuid n := List.replicate n 'a'
  elapsedMs _ := "1.5".toList
  requestId _ := none
  fn _ s := (outcome, s)
  buildRow _ _ _ := Act.raise unexpectedKeyword
  getApilogQueue s := (queue, s)
  getBackend s := (.ok (), s)
  submit _ := Act.raise ⟨.exception, ⟨"RuntimeError".toList, "q boom".toList, none⟩⟩

/-- The builder takes no `log_id` and `submit` raises: one row is submitted, and the view's
exception comes out. -/
theorem capture_transparent_failing_submit :
    ∃ events,
      ((captureAndDispatch
          ((scripted (.error ⟨.base, ⟨"KeyboardInterrupt".toList, [], none⟩⟩) (.ok ())).building
            fun (_ : Except Raised ℕ) elapsedMs => elapsedMs)
          ⟨none, none⟩ ()) ⟨(), 0, []⟩).1 =
        .error ⟨.base, ⟨"KeyboardInterrupt".toList, [], none⟩⟩ ∧
      calls events = [()] ∧ submits events = ["1.5".toList] := by
  obtain ⟨hresult, events, -, hcalls, -, hrows⟩ := capture_transparent
    ((scripted (.error ⟨.base, ⟨"KeyboardInterrupt".toList, [], none⟩⟩) (.ok ())).building
      fun (_ : Except Raised ℕ) elapsedMs => elapsedMs) ⟨none, none⟩
    { buildRow := by
        rintro outcome elapsedMs (_ | logId) s e t h
        · cases h
        · cases h
          rfl
      getApilogQueue := fun h => by cases h
      getBackend := fun h => by cases h
      submit := fun h => by cases h; rfl } () ⟨(), 0, []⟩
  exact ⟨events, hresult, hcalls,
    hrows _ _ _ _ (buildsRow_building _ _ _ _ _ _) rfl rfl⟩

/-- Where the queue is not found, the call submits nothing and its failure record carries
the id. -/
theorem correlated_without_queue :
    Correlated [] (eventsSince
      (logInbound Context.basic "public_api".toList
        (scripted (.ok ⟨some 200, .none, none⟩)
          (.error ⟨.exception, ⟨"RuntimeError".toList, "q boom".toList, none⟩⟩))
        (fun _ => none) ()) ⟨(), 0, []⟩) := by
  obtain ⟨hinbound, -⟩ :=
    log_id_correlated_iff (σ := Unit) (A := Unit) Context.basic "public_api".toList
  obtain ⟨hcorrelated, -⟩ := (hinbound
    (scripted (.ok ⟨some 200, .none, none⟩)
      (.error ⟨.exception, ⟨"RuntimeError".toList, "q boom".toList, none⟩⟩))
    (fun _ => none) () ⟨(), 0, []⟩ (List.replicate_left_injective 'a')).mpr (by
      rintro ⟨s₁, s₂, hqueue, -⟩
      cases hqueue)
  exact hcorrelated

/-- A view that returns, with queue and backend in place: the submitted row carries no id. -/
theorem submitted_row_lacks_log_id :
    ¬ ∀ (c : Context) (serviceName : Str) (E : Env Unit Unit ViewResponse Row)
      (requestFromArgs : Unit → Option ViewRequest) (s : World Unit Unit Row),
      Function.Injective E.uuid →
      Correlated (E.uuid s.drawn)
          (eventsSince (logInbound c serviceName E requestFromArgs ()) s) ∧
        Unrepeated E.uuid (logInbound c serviceName E requestFromArgs ()) s := by
  intro halways
  obtain ⟨⟨hcarries, -⟩, -⟩ := halways Context.basic "public_api".toList
    (scripted (.ok ⟨some 200, .none, none⟩) (.ok ())) (fun _ => none) ⟨(), 0, []⟩
    (List.replicate_left_injective 'a')
  exact not_carries rfl _ (hcarries _ (List.mem_singleton_self _))

end ApiLog

end DjangoBoilerplate
