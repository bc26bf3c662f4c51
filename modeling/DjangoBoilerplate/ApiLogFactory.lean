import DjangoBoilerplate.Outlines
import DjangoBoilerplate.Text

/-!
# The backend and the queue of the audit log

`apps/core/api_log/factory.py`, called by any number of threads, with the registry of queues of
`apps/core/dispatch/fire_and_forget.py`. The backend is built behind a double-checked lock, and read
once more, without the lock, when it is returned. The queue is looked up in the registry and made if
it is not there; the lock of the registry covers the lookup and the registration, but not the time
between them.

The backend is built once in any case (`backend_built_once`). The queue is made once if
`init_repository` has returned before the other calls begin, as `AppConfig.ready()` does it
(`queue_made_once`).
-/

namespace DjangoBoilerplate

namespace ApiLogFactory

open Outlines

/-! ## The calls -/

/-- `NoopApiLogBackend` or `OrmApiLogBackend`. -/
inductive Backend : Type where
  | noop
  | orm
  deriving DecidableEq

/-- `_build_backend`, by the setting `API_LOG_BACKEND`. -/
def buildBackend (u : Casing) (setting : Option Str) : Backend :=
  let name := u.lower (setting.getD "orm".toList).strip
  if name = "noop".toList then .noop
  else if name ∈ ["orm".toList, "django".toList, "db".toList] then .orm
  -- with a warning
  else .orm

/-- The globals, and what was made. A backend and a queue are known by their numbers. -/
structure Memory : Type where
  /-- `_backend` -/
  backend : Option ℕ
  /-- the backends that were built -/
  backends : List Backend
  /-- `_queues["api_log"]` -/
  queue : Option ℕ
  /-- how many queues were made, each with its consumer thread -/
  queues : ℕ

/-- Where a call is. -/
inductive Phase : Type where
  /-- not called yet -/
  | idle : Phase
  /-- `init_repository`, waiting for the lock -/
  | initWaiting : Phase
  /-- it holds the lock -/
  | initChecking : Phase
  /-- there is a backend -/
  | initLeaving : Phase
  /-- `_ensure_queue`, about to look the queue up -/
  | ensuring : Phase
  /-- there is none -/
  | making : Phase
  /-- it has made one -/
  | registering (queue : ℕ) : Phase
  /-- `_ensure_queue` has returned -/
  | gotQueue (queue : ℕ) : Phase
  /-- `get_backend`, about to read -/
  | reading : Phase
  /-- there is none, and it waits for the lock -/
  | waiting : Phase
  /-- it holds the lock -/
  | checking : Phase
  /-- there is a backend -/
  | leaving : Phase
  /-- about to read what it returns -/
  | loading : Phase
  /-- `get_backend` has returned -/
  | gotBackend (backend : Option ℕ) : Phase
  /-- `reset_for_tests`, waiting for the lock -/
  | resetWaiting : Phase
  /-- it holds the lock -/
  | resetting : Phase
  /-- it has dropped the backend -/
  | resetLeaving : Phase
  /-- it has returned -/
  | reset : Phase

/-- One step: a call begins or goes on. -/
inductive Label : Type where
  | initRepository : Label
  | getBackend : Label
  | getApilogQueue : Label
  | resetForTests : Label
  | advance : Label
  deriving DecidableEq

variable (kind : Backend)

/-- `if _backend is None: _backend = _build_backend()`. -/
def Memory.build (m : Memory) : Memory :=
  match m.backend with
  | none => { m with backend := some m.backends.length, backends := m.backends ++ [kind] }
  | some _ => m

/-- The code; `kind` is what the settings ask for. -/
def next (_ : ℕ) (m : Memory) : Phase → Label → Option (Move Memory Phase)
  | .idle, .initRepository => some (.go m .initWaiting)
  | .idle, .getBackend => some (.go m .reading)
  | .idle, .getApilogQueue => some (.go m .ensuring)
  | .idle, .resetForTests => some (.go m .resetWaiting)
  | .initWaiting, .advance => some (.acquire .initChecking)
  | .initChecking, .advance => some (.go (m.build kind) .initLeaving)
  | .initLeaving, .advance => some (.release m .ensuring)
  | .ensuring, .advance =>
    match m.queue with
    | some queue => some (.go m (.gotQueue queue))
    | none => some (.go m .making)
  | .making, .advance => some (.go { m with queues := m.queues + 1 } (.registering m.queues))
  | .registering queue, .advance => some (.go { m with queue := some queue } (.gotQueue queue))
  | .reading, .advance =>
    match m.backend with
    | none => some (.go m .waiting)
    | some _ => some (.go m .loading)
  | .waiting, .advance => some (.acquire .checking)
  | .checking, .advance => some (.go (m.build kind) .leaving)
  | .leaving, .advance => some (.release m .loading)
  | .loading, .advance => some (.go m (.gotBackend m.backend))
  | .resetWaiting, .advance => some (.acquire .resetting)
  | .resetting, .advance => some (.go { m with backend := none } .resetLeaving)
  | .resetLeaving, .advance => some (.release m .reset)
  | _, _ => none

/-- The threads. -/
def program : Program Memory Phase Label := ⟨next kind⟩

/-- Before the first call. -/
def Memory.empty : Memory where
  backend := none
  backends := []
  queue := none
  queues := 0

/-- What one step is. -/
inductive Moves (m : Memory) : Phase → Label → Move Memory Phase → Prop where
  | callInit : Moves m .idle .initRepository (.go m .initWaiting)
  | callBackend : Moves m .idle .getBackend (.go m .reading)
  | callQueue : Moves m .idle .getApilogQueue (.go m .ensuring)
  | callReset : Moves m .idle .resetForTests (.go m .resetWaiting)
  | initLock : Moves m .initWaiting .advance (.acquire .initChecking)
  | initBuild : Moves m .initChecking .advance (.go (m.build kind) .initLeaving)
  | initUnlock : Moves m .initLeaving .advance (.release m .ensuring)
  | found {queue : ℕ} (h : m.queue = some queue) :
    Moves m .ensuring .advance (.go m (.gotQueue queue))
  | missing (h : m.queue = none) : Moves m .ensuring .advance (.go m .making)
  | make : Moves m .making .advance (.go { m with queues := m.queues + 1 } (.registering m.queues))
  | register {queue : ℕ} :
    Moves m (.registering queue) .advance (.go { m with queue := some queue } (.gotQueue queue))
  | unbuilt : Moves m .reading .advance (.go m .waiting)
  | built {backend : ℕ} (h : m.backend = some backend) : Moves m .reading .advance (.go m .loading)
  | lock : Moves m .waiting .advance (.acquire .checking)
  | build : Moves m .checking .advance (.go (m.build kind) .leaving)
  | unlock : Moves m .leaving .advance (.release m .loading)
  | load : Moves m .loading .advance (.go m (.gotBackend m.backend))
  | resetLock : Moves m .resetWaiting .advance (.acquire .resetting)
  | drop : Moves m .resetting .advance (.go { m with backend := none } .resetLeaving)
  | resetUnlock : Moves m .resetLeaving .advance (.release m .reset)

variable {kind}

/-- The code has no other steps. -/
theorem moves_of_next {i : ℕ} {m : Memory} {p : Phase} {l : Label} {move : Move Memory Phase}
    (h : (program kind).next i m p l = some move) : Moves kind m p l move := by
  change next kind i m p l = some move at h
  revert h
  fun_cases next kind i m p l <;> intro h <;> cases h
  all_goals constructor
  all_goals assumption

/-! ## The backend -/

/-- The phases with the lock. -/
def Phase.locking : Phase → Bool
  | .initChecking | .initLeaving | .checking | .leaving | .resetting | .resetLeaving => true
  | _ => false

/-- No backend, or the one that was built. -/
def Built (kind : Backend) (m : Memory) : Prop :=
  (m.backend = none ∧ m.backends = []) ∨ (m.backend = some 0 ∧ m.backends = [kind])

/-- What a call knows of the backend. -/
def Phase.Sees (m : Memory) : Phase → Prop
  | .leaving | .loading => m.backend = some 0
  | .gotBackend backend => backend = some 0 ∧ m.backend = some 0
  | .resetWaiting | .resetting | .resetLeaving | .reset => False
  | _ => True

theorem Built.build {m : Memory} (h : Built kind m) :
    Built kind (m.build kind) ∧ (m.build kind).backend = some 0 := by
  rcases h with ⟨hnone, hnil⟩ | ⟨hsome, hone⟩
  · have hbuild : m.build kind = { m with backend := some 0, backends := [kind] } := by
      simp only [Memory.build, hnone, hnil, List.length_nil, List.nil_append]
    rw [hbuild]
    exact ⟨.inr ⟨rfl, rfl⟩, rfl⟩
  · have hbuild : m.build kind = m := by
      simp only [Memory.build, hsome]
    rw [hbuild]
    exact ⟨.inr ⟨hsome, hone⟩, hsome⟩

/-- What is known of the backend stays true when it is built. -/
theorem Phase.Sees.of_backend {m m' : Memory} {p : Phase} (h : p.Sees m)
    (hkeep : m.backend = some 0 → m'.backend = some 0) : p.Sees m' := by
  cases p with
  | leaving | loading => exact hkeep h
  | gotBackend backend =>
    obtain ⟨hbackend, hm⟩ := h
    exact ⟨hbackend, hkeep hm⟩
  | _ => exact h

/-- No step but a reset changes a backend that is there. -/
theorem backend_of_go {m m' : Memory} {p p' : Phase} {l : Label}
    (hmove : Moves kind m p l (.go m' p')) (hp : p.Sees m) (h : m.backend = some 0) :
    m'.backend = some 0 := by
  cases hmove with
  | initBuild | build => simp only [Memory.build, h]
  | drop => exact hp.elim
  | _ => exact h

/-- The proof outline of the calls without a reset. -/
def backendOutline (kind : Backend) : Outline (program kind) (· ≠ .resetForTests) where
  locking := Phase.locking
  inv := Built kind
  free := fun _ => True
  holds := fun _ m p => p.Sees m
  go := by
    intro i m p l m' p' hguard hbuilt hsees hnext
    cases moves_of_next hnext with
    | callInit | callBackend | callQueue | found | missing | unbuilt =>
      exact ⟨rfl, hbuilt, trivial, fun _ _ => trivial⟩
    | callReset => exact absurd rfl hguard
    | initBuild => exact ⟨rfl, hbuilt.build.1, trivial, fun _ _ => trivial⟩
    | make | register => exact ⟨rfl, hbuilt, trivial, fun _ _ => trivial⟩
    | built h =>
      have hzero : m.backend = some 0 := by
        rcases hbuilt with ⟨hnone, -⟩ | ⟨hsome, -⟩
        · cases hnone.symm.trans h
        · exact hsome
      exact ⟨rfl, hbuilt, hzero, fun _ _ => trivial⟩
    | build => exact ⟨rfl, hbuilt.build.1, hbuilt.build.2, fun _ _ => trivial⟩
    | load => exact ⟨rfl, hbuilt, ⟨hsees, hsees⟩, fun _ _ => trivial⟩
    | drop => exact hsees.elim
  go_others := by
    intro i j m p q l m' p' _ _ _ hp hnext _ hq
    exact hq.of_backend (backend_of_go (moves_of_next hnext) hp)
  acquire := by
    intro i m p l p' _ _ _ hsees hnext
    cases moves_of_next hnext with
    | initLock | lock => exact ⟨rfl, trivial⟩
    | resetLock => exact hsees.elim
  release := by
    intro i m p l m' p' _ hbuilt hsees hnext
    cases moves_of_next hnext with
    | initUnlock => exact ⟨rfl, rfl, hbuilt, trivial, trivial⟩
    | unlock => exact ⟨rfl, rfl, hbuilt, trivial, hsees⟩
    | resetUnlock => exact hsees.elim
  release_others := by
    intro i j m p q l m' p' _ _ _ _ hnext _ hq
    cases moves_of_next hnext with
    | initUnlock | unlock | resetUnlock => exact hq

/-- A run without a reset builds one backend at most, and `get_backend` returns it. -/
theorem built_of_run {ls : List (ℕ × Label)} (hls : ∀ l ∈ ls, l.2 ≠ .resetForTests)
    {s : State Memory Phase}
    (hrun : (program kind).machine.run (State.init .empty .idle) ls = some s) :
    Built kind s.memory ∧ ∀ i, (s.phase i).Sees s.memory := by
  have hinit : (backendOutline kind).Valid (State.init .empty .idle) :=
    Outline.valid_init (.inl ⟨rfl, rfl⟩) trivial rfl fun _ => trivial
  have hvalid := Outline.valid_of_run hinit hls hrun
  exact ⟨hvalid.inv, hvalid.holds⟩

/-- However the calls interleave, as long as there is no reset: at most one backend is built, the
one the settings ask for, and `get_backend` returns it, never `None`. -/
theorem backend_built_once (u : Casing) (setting : Option Str) {ls : List (ℕ × Label)}
    (hls : ∀ l ∈ ls, l.2 ≠ .resetForTests) {s : State Memory Phase}
    (hrun : (program (buildBackend u setting)).machine.run (State.init .empty .idle) ls = some s) :
    (s.memory.backends = [] ∨ s.memory.backends = [buildBackend u setting]) ∧
      ∀ {i backend}, s.phase i = .gotBackend backend →
        backend = some 0 ∧ s.memory.backends = [buildBackend u setting] := by
  obtain ⟨hbuilt, hsees⟩ := built_of_run hls hrun
  refine ⟨?_, ?_⟩
  · rcases hbuilt with ⟨-, hnil⟩ | ⟨-, hone⟩
    · exact .inl hnil
    · exact .inr hone
  · intro i backend hphase
    have hsees := hsees i
    rw [hphase] at hsees
    obtain ⟨hbackend, hsome⟩ := hsees
    rcases hbuilt with ⟨hnone, -⟩ | ⟨-, hone⟩
    · cases hnone.symm.trans hsome
    · exact ⟨hbackend, hone⟩

/-- Two calls find no backend, and the first one to have the lock builds it. -/
def backendRace : List (ℕ × Label) :=
  [(0, .getBackend), (1, .getBackend), (0, .advance), (1, .advance)] ++
    List.replicate 4 (0, .advance) ++ List.replicate 4 (1, .advance)

/-- With `API_LOG_BACKEND = " NOOP "`. -/
theorem backend_built_once_race :
    ∃ s, (program (buildBackend Casing.basic (some " NOOP ".toList))).machine.run
        (State.init .empty .idle) backendRace = some s ∧
      s.phase 0 = .gotBackend (some 0) ∧ s.memory.backends = [.noop] := by
  have hls : ∀ l ∈ backendRace, l.2 ≠ .resetForTests := by decide
  have hkind : buildBackend Casing.basic (some " NOOP ".toList) = .noop := by decide
  obtain ⟨s, hrun, hphase⟩ : ∃ s, (program (buildBackend Casing.basic
      (some " NOOP ".toList))).machine.run (State.init .empty .idle) backendRace = some s ∧
        s.phase 0 = .gotBackend (some 0) := ⟨_, rfl, rfl⟩
  have hbuilt := ((backend_built_once Casing.basic (some " NOOP ".toList) hls hrun).2 hphase).2
  exact ⟨s, hrun, hphase, hkind ▸ hbuilt⟩

/-! ## The queue -/

/-- The queue is in the registry, and this many have been made. -/
def Registered (queue queues : ℕ) (m : Memory) : Prop := m.queue = some queue ∧ m.queues = queues

/-- No call is about to make another. -/
def Phase.Uses (queue : ℕ) : Phase → Prop
  | .making | .registering _ => False
  | .gotQueue queue' => queue' = queue
  | _ => True

/-- The proof outline of the calls that come after a registration. -/
def queueOutline (kind : Backend) (queue queues : ℕ) :
    Outline (program kind) fun _ => True where
  locking := Phase.locking
  inv := Registered queue queues
  free := fun _ => True
  holds := fun _ _ p => p.Uses queue
  go := by
    intro i m p l m' p' _ hregistered huses hnext
    have hbuild : Registered queue queues (m.build kind) := by
      obtain ⟨hqueue, hqueues⟩ := hregistered
      unfold Memory.build
      split
      · exact ⟨hqueue, hqueues⟩
      · exact ⟨hqueue, hqueues⟩
    cases moves_of_next hnext with
    | initBuild | build => exact ⟨rfl, hbuild, trivial, fun _ _ => trivial⟩
    | found h =>
      have heq := Option.some.inj (h.symm.trans hregistered.1)
      exact ⟨rfl, hregistered, heq, fun _ _ => trivial⟩
    | missing h => cases h.symm.trans hregistered.1
    | make | register => exact huses.elim
    | _ => exact ⟨rfl, hregistered, trivial, fun _ _ => trivial⟩
  go_others := by
    intro i j m p q l m' p' _ _ _ _ _ _ hq
    exact hq
  acquire := by
    intro i m p l p' _ _ _ _ hnext
    cases moves_of_next hnext with
    | initLock | lock | resetLock => exact ⟨rfl, trivial⟩
  release := by
    intro i m p l m' p' _ hregistered _ hnext
    cases moves_of_next hnext with
    | initUnlock | unlock | resetUnlock => exact ⟨rfl, rfl, hregistered, trivial, trivial⟩
  release_others := by
    intro i j m p q l m' p' _ _ _ _ _ _ hq
    exact hq

/-- From a state with a registered queue in which no call has found it missing: whatever follows,
no other queue is made, and every call that ends returns the one in the registry. -/
theorem queue_settled {s t : State Memory Phase} {queue : ℕ} {ls : List (ℕ × Label)}
    (hqueue : s.memory.queue = some queue) (huses : ∀ i, (s.phase i).Uses queue)
    (hholder : ∀ i, s.lock = some i ↔ (s.phase i).locking = true)
    (hrun : (program kind).machine.run s ls = some t) :
    t.memory.queue = some queue ∧ t.memory.queues = s.memory.queues ∧
      ∀ {i queue'}, t.phase i = .gotQueue queue' → queue' = queue := by
  have hstart : (queueOutline kind queue s.memory.queues).Valid s :=
    ⟨⟨hqueue, rfl⟩, fun _ => trivial, hholder, huses⟩
  have hvalid := Outline.valid_of_run hstart (fun _ _ => trivial) hrun
  obtain ⟨hqueue', hqueues⟩ : Registered queue s.memory.queues t.memory := hvalid.inv
  refine ⟨hqueue', hqueues, ?_⟩
  intro i queue' hphase
  have huses := hvalid.holds i
  rw [hphase] at huses
  exact huses

/-- `init_repository` on its own. -/
def initRepository : List (ℕ × Label) := (0, .initRepository) :: List.replicate 6 (0, .advance)

/-- If `init_repository` has returned before any other call begins, then however the calls
interleave, also with resets: one queue is made, and every call that asks for it gets it. -/
theorem queue_made_once {ls : List (ℕ × Label)} {s : State Memory Phase}
    (hrun : (program kind).machine.run (State.init .empty .idle) (initRepository ++ ls) = some s) :
    s.memory.queue = some 0 ∧ s.memory.queues = 1 ∧
      ∀ {i queue}, s.phase i = .gotQueue queue → queue = 0 := by
  obtain ⟨m, hm, hphase⟩ : ∃ m, (program kind).machine.run (State.init .empty .idle)
      initRepository = some m ∧ m.memory.queue = some 0 ∧ m.memory.queues = 1 ∧
        m.lock = none ∧ m.phase = Function.update (fun _ => .idle) 0 (.gotQueue 0) := by
    refine ⟨_, rfl, rfl, rfl, rfl, ?_⟩
    simp only [State.init, Function.update_idem]
    rfl
  obtain ⟨hqueue, hqueues, hlock, hphase⟩ := hphase
  have hothers : ∀ i, (m.phase i).Uses 0 ∧ (m.phase i).locking = false := by
    intro i
    rw [hphase]
    rcases eq_or_ne i 0 with rfl | hne
    · rw [Function.update_self]
      exact ⟨rfl, rfl⟩
    · rw [Function.update_of_ne hne]
      exact ⟨trivial, rfl⟩
  have hsettled := queue_settled hqueue (fun i => (hothers i).1)
    (fun i => by simp [hlock, (hothers i).2]) (Machine.run_of_append hrun hm)
  rw [hqueues] at hsettled
  exact hsettled

/-- Two calls ask for the queue. -/
def twoCalls : List (ℕ × Label) :=
  [(1, .getApilogQueue), (2, .getApilogQueue), (1, .advance), (2, .advance)]

theorem queue_made_once_twoCalls :
    ∃ s, (program .orm).machine.run (State.init .empty .idle) (initRepository ++ twoCalls) =
        some s ∧ s.phase 1 = .gotQueue 0 ∧ s.memory.queues = 1 := by
  obtain ⟨s, hrun, hphase⟩ : ∃ s, (program .orm).machine.run (State.init .empty .idle)
      (initRepository ++ twoCalls) = some s ∧ s.phase 1 = .gotQueue 0 := ⟨_, rfl, rfl⟩
  exact ⟨s, hrun, hphase, (queue_made_once hrun).2.1⟩

end ApiLogFactory

end DjangoBoilerplate
