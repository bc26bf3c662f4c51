import DjangoBoilerplate.Machine

/-!
# The fire-and-forget queue

`apps/core/dispatch/fire_and_forget.py` as a machine. A task travels through
three places: the bounded `queue.Queue` that `submit` fills, the consumer
thread's hand, and the `ThreadPoolExecutor`, whose own work queue is unbounded.
Four kinds of parties move it — producers, the consumer loop, the executor's
workers and callers of `stop()` — and each label of the machine is one atomic
step of one of them:

* a `Queue` or `Event` operation is atomic (it runs under that object's lock);
* everything between two such operations is local to its thread.

The fields `accepted`, `handed`, `lost`, `started`, `finished` and `rejected`
are history: no step of the source reads them, they record what the run did.

The results here are the accounting ones (`Wf`): every accepted task is in
exactly one place, in the order it was accepted.
-/

namespace DjangoBoilerplate

namespace FireAndForget

universe u

/-- What calling a task does. -/
inductive Outcome : Type where
  /-- it returns -/
  | returned
  /-- it raises an `Exception` -/
  | raisedException
  /-- it raises a `BaseException` that is not an `Exception` -/
  | raisedBaseException
  deriving DecidableEq

/-- One `submit` call: the callable it was given, and the number that tells
the calls apart. -/
structure Task (τ : Type u) : Type u where
  /-- the position of the call among all `submit` calls -/
  call : ℕ
  /-- the callable -/
  fn : τ
  deriving DecidableEq

/-- `FireAndForgetQueue.__init__`'s bounds, and what the callables do. -/
structure Config (τ : Type u) : Type u where
  /-- `max_in_flight`, the `maxsize` of the `queue.Queue` -/
  maxInFlight : ℕ
  /-- `max_workers` of the executor -/
  maxWorkers : ℕ
  /-- what each callable does when it is run -/
  body : τ → Outcome

/-- Where the consumer thread is in `_consume_loop`. -/
inductive Consumer (τ : Type u) : Type u where
  /-- about to evaluate `while not self._stop.is_set()` -/
  | guard : Consumer τ
  /-- inside `self._queue.get(timeout=0.5)` -/
  | get : Consumer τ
  /-- in `except queue.Empty`, about to read `self._stop.is_set()` -/
  | empty : Consumer τ
  /-- the stop event was set, about to read `self._queue.empty()` -/
  | emptyStopping : Consumer τ
  /-- about to call `self._executor.submit(self._run_task_safely, fn)` -/
  | holding : Task τ → Consumer τ
  /-- past the loop, `_drained` set -/
  | exited : Consumer τ

/-- The task in the consumer's hand, if there is one. -/
def Consumer.hand {τ : Type u} : Consumer τ → List (Task τ)
  | .holding t => [t]
  | _ => []

/-- Is the consumer past its guard, inside `get`? -/
def Consumer.inGet {τ : Type u} : Consumer τ → Bool
  | .get => true
  | _ => false

/-- What a `stop()` call saw when it set the event. -/
structure StopCall (τ : Type u) : Type u where
  /-- the tasks accepted before the call -/
  accepted : List (Task τ)
  /-- those of them still in the queue -/
  queued : List (Task τ)
  /-- was the consumer inside `get`? -/
  inGet : Bool

/-- Where one `stop()` call is. -/
inductive Stopper (τ : Type u) : Type u where
  /-- not called yet -/
  | idle : Stopper τ
  /-- in `self._consumer_thread.join(timeout=timeout)` -/
  | joining : StopCall τ → Stopper τ
  /-- about to call `self._executor.shutdown` -/
  | joined : StopCall τ → Stopper τ
  /-- inside `shutdown(wait=True, cancel_futures=False)` -/
  | waiting : StopCall τ → Stopper τ
  /-- returned -/
  | returned : StopCall τ → Stopper τ

/-- The state of one queue, its threads and its executor. -/
structure State (τ : Type u) : Type u where
  /-- `_queue` -/
  queue : List (Task τ)
  /-- the consumer thread -/
  consumer : Consumer τ
  /-- `_stop.is_set()` -/
  stop : Bool
  /-- the `stop()` calls -/
  stoppers : ℕ → Stopper τ
  /-- the executor's own work queue -/
  pending : List (Task τ)
  /-- tasks being run by workers -/
  running : List (Task τ)
  /-- has the executor been shut down? -/
  shutdown : Bool
  /-- `_dropped` -/
  dropped : ℕ
  /-- `submit` calls inside `except queue.Full`, not yet counted -/
  rejecting : List (Task τ)
  /-- lines `fire_and_forget task raised` -/
  logged : List (Task τ)
  /-- number of `submit` calls so far -/
  calls : ℕ
  /-- calls that returned `True`, in order -/
  accepted : List (Task τ)
  /-- calls that returned `False` -/
  rejected : List (Task τ)
  /-- tasks given to the executor, in order -/
  handed : List (Task τ)
  /-- tasks dropped because `executor.submit` raised `RuntimeError` -/
  lost : List (Task τ)
  /-- tasks a worker has taken, in order -/
  started : List (Task τ)
  /-- tasks that have finished running -/
  finished : List (Task τ)

/-- One atomic step of one party. -/
inductive Label (τ : Type u) : Type u where
  /-- a producer's `put_nowait(fn)` -/
  | submit : τ → Label τ
  /-- a producer whose `put_nowait` raised `Full` counts the drop and returns -/
  | countDrop : ℕ → Label τ
  /-- the consumer takes its next step -/
  | consume : Label τ
  /-- the consumer's `get` times out -/
  | getTimeout : Label τ
  /-- an idle worker takes the next task of the executor's queue -/
  | start : Label τ
  /-- a worker finishes the task of the given call -/
  | finish : ℕ → Label τ
  /-- the `i`-th `stop()` sets the event -/
  | stopCall : ℕ → Label τ
  /-- its `join` returns because the consumer has exited -/
  | joinReturn : ℕ → Label τ
  /-- its `join` times out -/
  | joinTimeout : ℕ → Label τ
  /-- it shuts the executor down -/
  | shutdown : ℕ → Label τ
  /-- its `shutdown(wait=True)` returns -/
  | shutdownReturn : ℕ → Label τ

variable {τ : Type u}

/-- `FireAndForgetQueue.__init__`: everything empty, the consumer started. -/
def init : State τ where
  queue := []
  consumer := .guard
  stop := false
  stoppers := fun _ => .idle
  pending := []
  running := []
  shutdown := false
  dropped := 0
  rejecting := []
  logged := []
  calls := 0
  accepted := []
  rejected := []
  handed := []
  lost := []
  started := []
  finished := []

/-- `put_nowait` raises `Full`: a `maxsize` of `0` means no bound. -/
def Config.full (c : Config τ) (queue : List (Task τ)) : Bool :=
  0 < c.maxInFlight && c.maxInFlight ≤ queue.length

/-- `_run_task_safely`: an `Exception` is caught and logged; a `BaseException`
ends in the future, where nothing reads it. Either way the worker goes on. -/
def runTaskSafely (c : Config τ) (t : Task τ) : List (Task τ) :=
  match c.body t.fn with
  | .returned => []
  | .raisedException => [t]
  | .raisedBaseException => []

/-- One step of `_consume_loop`, `get`'s timeout apart. -/
def consume (s : State τ) : Option (State τ) :=
  match s.consumer with
  | .guard => some { s with consumer := if s.stop then .exited else .get }
  | .get =>
    match s.queue with
    | [] => none
    | t :: rest => some { s with queue := rest, consumer := .holding t }
  | .empty => some { s with consumer := if s.stop then .emptyStopping else .guard }
  | .emptyStopping =>
    some { s with consumer := if s.queue.isEmpty then .exited else .guard }
  | .holding t =>
    if s.shutdown then
      -- `except RuntimeError: break`
      some { s with consumer := .exited, lost := s.lost ++ [t] }
    else
      some { s with
        consumer := .guard, pending := s.pending ++ [t], handed := s.handed ++ [t] }
  | .exited => none

/-- The machine's step function. -/
def step (c : Config τ) (s : State τ) : Label τ → Option (State τ)
  | .submit fn =>
    if c.full s.queue then
      some { s with calls := s.calls + 1, rejecting := s.rejecting ++ [⟨s.calls, fn⟩] }
    else
      some { s with
        calls := s.calls + 1
        queue := s.queue ++ [⟨s.calls, fn⟩]
        accepted := s.accepted ++ [⟨s.calls, fn⟩] }
  | .countDrop n =>
    (s.rejecting.find? (·.call == n)).map fun t =>
      { s with
        dropped := s.dropped + 1
        rejecting := s.rejecting.eraseP (·.call == n)
        rejected := s.rejected ++ [t] }
  | .consume => consume s
  | .getTimeout =>
    match s.consumer, s.queue with
    | .get, [] => some { s with consumer := .empty }
    | _, _ => none
  | .start =>
    match s.pending with
    | [] => none
    | t :: rest =>
      if s.running.length < c.maxWorkers then
        some { s with
          pending := rest, running := s.running ++ [t], started := s.started ++ [t] }
      else none
  | .finish n =>
    (s.running.find? (·.call == n)).map fun t =>
      { s with
        running := s.running.eraseP (·.call == n)
        finished := s.finished ++ [t]
        logged := s.logged ++ runTaskSafely c t }
  | .stopCall i =>
    match s.stoppers i with
    | .idle =>
      some { s with
        stop := true
        stoppers := Function.update s.stoppers i
          (.joining ⟨s.accepted, s.queue, s.consumer.inGet⟩) }
    | _ => none
  | .joinReturn i =>
    match s.stoppers i, s.consumer with
    | .joining k, .exited =>
      some { s with stoppers := Function.update s.stoppers i (.joined k) }
    | _, _ => none
  | .joinTimeout i =>
    match s.stoppers i with
    | .joining k => some { s with stoppers := Function.update s.stoppers i (.joined k) }
    | _ => none
  | .shutdown i =>
    match s.stoppers i with
    | .joined k =>
      some { s with
        shutdown := true
        stoppers := Function.update s.stoppers i (.waiting k) }
    | _ => none
  | .shutdownReturn i =>
    match s.stoppers i, s.pending, s.running with
    | .waiting k, [], [] =>
      some { s with stoppers := Function.update s.stoppers i (.returned k) }
    | _, _, _ => none

/-- The queue as a machine. -/
def machine (c : Config τ) : Machine (State τ) (Label τ) := ⟨step c⟩

/-! ## What a step can do

`Moves c s l t` lists the branches of `step` with their conditions. Every
invariant below is proved by a case analysis on it, never by unfolding `step`. -/

/-- The branches of `step`. -/
inductive Moves (c : Config τ) (s : State τ) : Label τ → State τ → Prop where
  | accept (fn : τ) (hfull : c.full s.queue = false) :
    Moves c s (.submit fn) { s with
      calls := s.calls + 1
      queue := s.queue ++ [⟨s.calls, fn⟩]
      accepted := s.accepted ++ [⟨s.calls, fn⟩] }
  | overflow (fn : τ) (hfull : c.full s.queue = true) :
    Moves c s (.submit fn) { s with
      calls := s.calls + 1, rejecting := s.rejecting ++ [⟨s.calls, fn⟩] }
  | countDrop (n : ℕ) (t : Task τ) (hfind : s.rejecting.find? (·.call == n) = some t) :
    Moves c s (.countDrop n) { s with
      dropped := s.dropped + 1
      rejecting := s.rejecting.eraseP (·.call == n)
      rejected := s.rejected ++ [t] }
  | enter (hc : s.consumer = .guard) (hstop : s.stop = false) :
    Moves c s .consume { s with consumer := .get }
  | leave (hc : s.consumer = .guard) (hstop : s.stop = true) :
    Moves c s .consume { s with consumer := .exited }
  | take (t : Task τ) (rest : List (Task τ)) (hc : s.consumer = .get)
      (hq : s.queue = t :: rest) :
    Moves c s .consume { s with queue := rest, consumer := .holding t }
  | retry (hc : s.consumer = .empty) (hstop : s.stop = false) :
    Moves c s .consume { s with consumer := .guard }
  | recheck (hc : s.consumer = .empty) (hstop : s.stop = true) :
    Moves c s .consume { s with consumer := .emptyStopping }
  | drained (hc : s.consumer = .emptyStopping) (hq : s.queue = []) :
    Moves c s .consume { s with consumer := .exited }
  | resume (hc : s.consumer = .emptyStopping) (hq : s.queue ≠ []) :
    Moves c s .consume { s with consumer := .guard }
  | lose (t : Task τ) (hc : s.consumer = .holding t) (hdown : s.shutdown = true) :
    Moves c s .consume { s with consumer := .exited, lost := s.lost ++ [t] }
  | handOver (t : Task τ) (hc : s.consumer = .holding t) (hdown : s.shutdown = false) :
    Moves c s .consume { s with
      consumer := .guard, pending := s.pending ++ [t], handed := s.handed ++ [t] }
  | getTimeout (hc : s.consumer = .get) (hq : s.queue = []) :
    Moves c s .getTimeout { s with consumer := .empty }
  | start (t : Task τ) (rest : List (Task τ)) (hp : s.pending = t :: rest)
      (hw : s.running.length < c.maxWorkers) :
    Moves c s .start { s with
      pending := rest, running := s.running ++ [t], started := s.started ++ [t] }
  | finish (n : ℕ) (t : Task τ) (hfind : s.running.find? (·.call == n) = some t) :
    Moves c s (.finish n) { s with
      running := s.running.eraseP (·.call == n)
      finished := s.finished ++ [t]
      logged := s.logged ++ runTaskSafely c t }
  | stopCall (i : ℕ) (hi : s.stoppers i = .idle) :
    Moves c s (.stopCall i) { s with
      stop := true
      stoppers := Function.update s.stoppers i
        (.joining ⟨s.accepted, s.queue, s.consumer.inGet⟩) }
  | joinReturn (i : ℕ) (k : StopCall τ) (hi : s.stoppers i = .joining k)
      (hc : s.consumer = .exited) :
    Moves c s (.joinReturn i) { s with
      stoppers := Function.update s.stoppers i (.joined k) }
  | joinTimeout (i : ℕ) (k : StopCall τ) (hi : s.stoppers i = .joining k) :
    Moves c s (.joinTimeout i) { s with
      stoppers := Function.update s.stoppers i (.joined k) }
  | shutdown (i : ℕ) (k : StopCall τ) (hi : s.stoppers i = .joined k) :
    Moves c s (.shutdown i) { s with
      shutdown := true, stoppers := Function.update s.stoppers i (.waiting k) }
  | shutdownReturn (i : ℕ) (k : StopCall τ) (hi : s.stoppers i = .waiting k)
      (hp : s.pending = []) (hr : s.running = []) :
    Moves c s (.shutdownReturn i) { s with
      stoppers := Function.update s.stoppers i (.returned k) }

/-- The consumer's half of the inversion. -/
theorem moves_of_consume {c : Config τ} {s t : State τ} (h : consume s = some t) :
    Moves c s .consume t := by
  unfold consume at h
  split at h
  · next hc =>
    obtain rfl := Option.some.inj h
    by_cases hstop : s.stop = true
    · simpa [hstop] using Moves.leave (c := c) hc hstop
    · simpa [hstop] using Moves.enter (c := c) hc (by simpa using hstop)
  · next hc =>
    split at h
    · cases h
    · next t rest hq =>
      obtain rfl := Option.some.inj h
      exact .take t rest hc hq
  · next hc =>
    obtain rfl := Option.some.inj h
    by_cases hstop : s.stop = true
    · simpa [hstop] using Moves.recheck (c := c) hc hstop
    · simpa [hstop] using Moves.retry (c := c) hc (by simpa using hstop)
  · next hc =>
    obtain rfl := Option.some.inj h
    by_cases hq : s.queue = []
    · simpa [hq] using Moves.drained (c := c) hc hq
    · simpa [hq] using Moves.resume (c := c) hc hq
  · next t hc =>
    split at h
    · next hdown =>
      obtain rfl := Option.some.inj h
      exact .lose t hc hdown
    · next hdown =>
      obtain rfl := Option.some.inj h
      exact .handOver t hc (by simpa using hdown)
  · cases h

/-- **Inversion**: every step is one of the listed moves. -/
theorem moves_of_step {c : Config τ} {s t : State τ} {l : Label τ}
    (h : (machine c).step s l = some t) : Moves c s l t := by
  change step c s l = some t at h
  cases l with
  | submit fn =>
    simp only [step] at h
    split at h
    · next hfull =>
      obtain rfl := Option.some.inj h
      exact .overflow fn hfull
    · next hfull =>
      obtain rfl := Option.some.inj h
      exact .accept fn (by simpa using hfull)
  | countDrop n =>
    obtain ⟨t, hfind, rfl⟩ := Option.map_eq_some_iff.mp h
    exact .countDrop n t hfind
  | consume => exact moves_of_consume h
  | getTimeout =>
    simp only [step] at h
    split at h
    · next hc hq =>
      obtain rfl := Option.some.inj h
      exact .getTimeout hc hq
    · cases h
  | start =>
    simp only [step] at h
    split at h
    · cases h
    · next t rest hp =>
      split at h
      · next hw =>
        obtain rfl := Option.some.inj h
        exact .start t rest hp hw
      · cases h
  | finish n =>
    obtain ⟨t, hfind, rfl⟩ := Option.map_eq_some_iff.mp h
    exact .finish n t hfind
  | stopCall i =>
    simp only [step] at h
    split at h
    · next hi =>
      obtain rfl := Option.some.inj h
      exact .stopCall i hi
    · cases h
  | joinReturn i =>
    simp only [step] at h
    split at h
    · next k hi hc =>
      obtain rfl := Option.some.inj h
      exact .joinReturn i k hi hc
    · cases h
  | joinTimeout i =>
    simp only [step] at h
    split at h
    · next k hi =>
      obtain rfl := Option.some.inj h
      exact .joinTimeout i k hi
    · cases h
  | shutdown i =>
    simp only [step] at h
    split at h
    · next k hi =>
      obtain rfl := Option.some.inj h
      exact .shutdown i k hi
    · cases h
  | shutdownReturn i =>
    simp only [step] at h
    split at h
    · next k hi hp hr =>
      obtain rfl := Option.some.inj h
      exact .shutdownReturn i k hi hp hr
    · cases h

/-! ## Accounting

Every accepted task is in exactly one place, and the places keep the order in
which tasks were accepted. -/

/-- Where the tasks are, in every reachable state. -/
structure Wf (s : State τ) : Prop where
  /-- an accepted task was handed over, was lost, is in the consumer's hand, or
  is still queued — in this order -/
  conserve : s.accepted = s.handed ++ s.lost ++ s.consumer.hand ++ s.queue
  /-- the consumer stops at the first task it loses -/
  lost_exited : s.lost ≠ [] → s.consumer = .exited
  /-- so it loses at most one -/
  lost_le_one : s.lost.length ≤ 1
  /-- the executor starts what it is handed first in, first out -/
  executor : s.handed = s.started ++ s.pending
  /-- what was started is running or has finished -/
  workers : s.started.Perm (s.running ++ s.finished)

theorem wf_init : Wf (init : State τ) :=
  ⟨rfl, fun h => absurd rfl h, Nat.zero_le 1, rfl, List.Perm.nil⟩

/-- A consumer that is still in its loop has lost nothing. -/
theorem Wf.lost_eq_nil {s : State τ} (hs : Wf s) (hc : s.consumer ≠ .exited) : s.lost = [] := by
  by_contra hne
  exact hc (hs.lost_exited hne)

/-- Moving the task a worker finishes from `running` to `finished` only
reorders. -/
theorem perm_finish {running finished : List (Task τ)} {n : ℕ} {t : Task τ}
    (hfind : running.find? (·.call == n) = some t) :
    (running ++ finished).Perm (running.eraseP (·.call == n) ++ (finished ++ [t])) := by
  obtain ⟨hp, as, bs, rfl, has⟩ := List.find?_eq_some_iff_append.mp hfind
  have herase : (as ++ t :: bs).eraseP (·.call == n) = as ++ bs := by
    rw [List.eraseP_append_right _ (by simpa using has),
      List.eraseP_cons_of_pos (p := fun x : Task τ => x.call == n) hp]
  have hmiddle : (as ++ t :: bs ++ finished).Perm (t :: (as ++ bs ++ finished)) := by
    simp
  rw [herase, ← List.append_assoc]
  exact hmiddle.trans (List.perm_append_singleton t (as ++ bs ++ finished)).symm

/-- Where every task is, and where it has been. -/
def State.places (s : State τ) : List (List (Task τ)) :=
  [s.accepted, s.handed, s.lost, s.consumer.hand, s.queue, s.started, s.pending, s.running,
    s.finished]

/-- A step that leaves the tasks where they are, and the consumer out of its
loop if it was. -/
theorem Wf.frame {s t : State τ} (hs : Wf s) (hplaces : t.places = s.places)
    (hexited : s.consumer = .exited → t.consumer = .exited) : Wf t := by
  simp only [State.places, List.cons.injEq] at hplaces
  obtain ⟨haccepted, hhanded, hlost, hhand, hqueue, hstarted, hpending, hrunning, hfinished, -⟩ :=
    hplaces
  refine ⟨?_, ?_, ?_, ?_, ?_⟩
  · rw [haccepted, hhanded, hlost, hhand, hqueue, hs.conserve]
  · intro hne
    rw [hlost] at hne
    exact hexited (hs.lost_exited hne)
  · rw [hlost]
    exact hs.lost_le_one
  · rw [hhanded, hstarted, hpending, hs.executor]
  · rw [hstarted, hrunning, hfinished]
    exact hs.workers

/-- A consumer step between two points of the loop where it holds nothing. -/
theorem Wf.walk {s : State τ} (hs : Wf s) {k : Consumer τ} (hfrom : s.consumer.hand = [])
    (hin : s.consumer ≠ .exited) (hto : k.hand = []) : Wf { s with consumer := k } := by
  refine hs.frame ?_ (fun h => absurd h hin)
  simp only [State.places, hfrom, hto]

/-- Every step keeps the tasks accounted for. -/
theorem Wf.step {c : Config τ} {s t : State τ} {l : Label τ} (hs : Wf s)
    (h : Moves c s l t) : Wf t := by
  cases h with
  | accept fn hfull =>
    refine ⟨?_, hs.lost_exited, hs.lost_le_one, hs.executor, hs.workers⟩
    rw [hs.conserve, List.append_assoc]
  | overflow fn hfull => exact hs.frame rfl id
  | countDrop n t hfind => exact hs.frame rfl id
  | enter hc hstop => exact hs.walk (by rw [hc]; rfl) (by simp [hc]) rfl
  | leave hc hstop => exact hs.walk (by rw [hc]; rfl) (by simp [hc]) rfl
  | take t rest hc hq =>
    -- the head of the queue moves to the hand
    have hlost : s.lost = [] := hs.lost_eq_nil (by simp [hc])
    refine ⟨?_, fun hne => absurd hlost hne, hs.lost_le_one, hs.executor, hs.workers⟩
    rw [hs.conserve, hc, hq]
    simp [Consumer.hand]
  | retry hc hstop => exact hs.walk (by rw [hc]; rfl) (by simp [hc]) rfl
  | recheck hc hstop => exact hs.walk (by rw [hc]; rfl) (by simp [hc]) rfl
  | drained hc hq => exact hs.walk (by rw [hc]; rfl) (by simp [hc]) rfl
  | resume hc hq => exact hs.walk (by rw [hc]; rfl) (by simp [hc]) rfl
  | lose t hc hdown =>
    -- the task in hand becomes the only lost one
    have hlost : s.lost = [] := hs.lost_eq_nil (by simp [hc])
    refine ⟨?_, fun _ => rfl, ?_, hs.executor, hs.workers⟩
    · rw [hs.conserve, hc, hlost]
      simp [Consumer.hand]
    · rw [hlost]
      exact le_rfl
  | handOver t hc hdown =>
    -- the task in hand joins the executor's queue
    have hlost : s.lost = [] := hs.lost_eq_nil (by simp [hc])
    refine ⟨?_, fun hne => absurd hlost hne, hs.lost_le_one, ?_, hs.workers⟩
    · rw [hs.conserve, hc, hlost]
      simp [Consumer.hand]
    · rw [hs.executor, List.append_assoc]
  | getTimeout hc hq => exact hs.walk (by rw [hc]; rfl) (by simp [hc]) rfl
  | start t rest hp hw =>
    refine ⟨hs.conserve, hs.lost_exited, hs.lost_le_one, ?_, ?_⟩
    · rw [hs.executor, hp]
      simp
    · have hswap : (s.running ++ s.finished ++ [t]).Perm (s.running ++ [t] ++ s.finished) := by
        rw [List.append_assoc, List.append_assoc]
        exact List.perm_append_comm.append_left _
      exact (hs.workers.append_right [t]).trans hswap
  | finish n t hfind =>
    refine ⟨hs.conserve, hs.lost_exited, hs.lost_le_one, hs.executor, ?_⟩
    exact hs.workers.trans (perm_finish hfind)
  | stopCall i hi => exact hs.frame rfl id
  | joinReturn i k hi hc => exact hs.frame rfl id
  | joinTimeout i k hi => exact hs.frame rfl id
  | shutdown i k hi => exact hs.frame rfl id
  | shutdownReturn i k hi hp hr => exact hs.frame rfl id

/-! ## The `submit` calls

Every call is accepted, is being rejected, or was rejected; the drop counter
counts the last kind. -/

/-- The calls made so far, by their outcome. -/
def State.made (s : State τ) : List (Task τ) :=
  s.accepted ++ (s.rejecting ++ s.rejected)

/-- The `submit` calls, in every reachable state. -/
structure Calls (s : State τ) : Prop where
  /-- calls are numbered in order -/
  call_lt : ∀ t ∈ s.made, t.call < s.calls
  /-- and no two share a number -/
  nodup : (s.made.map Task.call).Nodup
  /-- `_dropped` counts the calls that returned `False` -/
  dropped_eq : s.dropped = s.rejected.length

theorem calls_init : Calls (init : State τ) :=
  ⟨by simp [State.made, init], List.nodup_nil, rfl⟩

/-- The calls are kept apart by number whatever order they are listed in. -/
theorem Calls.of_perm {s t : State τ} (hs : Calls s) (hperm : t.made.Perm s.made)
    (hcalls : t.calls = s.calls) (hdropped : t.dropped = t.rejected.length) : Calls t := by
  refine ⟨?_, ?_, hdropped⟩
  · intro x hx
    rw [hcalls]
    exact hs.call_lt x (hperm.mem_iff.mp hx)
  · exact (hperm.map Task.call).nodup_iff.mpr hs.nodup

/-- The next call, whatever its outcome, has a number of its own. -/
theorem Calls.of_new {s t : State τ} (hs : Calls s) (fn : τ)
    (hperm : t.made.Perm (⟨s.calls, fn⟩ :: s.made)) (hcalls : t.calls = s.calls + 1)
    (hdropped : t.dropped = t.rejected.length) : Calls t := by
  refine ⟨?_, ?_, hdropped⟩
  · intro x hx
    rw [hcalls]
    rcases List.mem_cons.mp (hperm.mem_iff.mp hx) with rfl | hx
    · exact Nat.lt_succ_self _
    · exact Nat.lt_succ_of_lt (hs.call_lt x hx)
  · refine (hperm.map Task.call).nodup_iff.mpr ?_
    rw [List.map_cons, List.nodup_cons]
    refine ⟨?_, hs.nodup⟩
    intro hmem
    obtain ⟨x, hx, hxc⟩ := List.mem_map.mp hmem
    have hlt : x.call < s.calls := hs.call_lt x hx
    exact absurd hxc (Nat.ne_of_lt hlt)

/-- Every step keeps the calls accounted for. -/
theorem Calls.step {c : Config τ} {s t : State τ} {l : Label τ} (hs : Calls s)
    (h : Moves c s l t) : Calls t := by
  cases h with
  | accept fn hfull =>
    refine hs.of_new fn ?_ rfl hs.dropped_eq
    simp only [State.made, List.append_assoc, List.singleton_append]
    exact List.perm_middle
  | overflow fn hfull =>
    refine hs.of_new fn ?_ rfl hs.dropped_eq
    simp only [State.made, ← List.append_assoc]
    exact (List.perm_append_singleton _ _).append_right _
  | countDrop n t hfind =>
    refine hs.of_perm ?_ rfl ?_
    · exact (perm_finish hfind).symm.append_left _
    · simp [hs.dropped_eq]
  | _ => exact hs.of_perm (List.Perm.refl _) rfl hs.dropped_eq

/-- Two accepted tasks are never the same call. -/
theorem Calls.nodup_accepted {s : State τ} (hs : Calls s) : s.accepted.Nodup := by
  have hmade : s.made.Nodup := hs.nodup.of_map
  exact (List.nodup_append.mp hmade).1

/-- **Accounting over whole runs.** -/
theorem accounting_run {c : Config τ} {s : State τ} {ls : List (Label τ)}
    (h : (machine c).run init ls = some s) : Wf s ∧ Calls s := by
  refine Machine.run_invariant' (I := fun s => Wf s ∧ Calls s) ?_ ⟨wf_init, calls_init⟩ h
  rintro s l t ⟨hwf, hcalls⟩ hstep
  exact ⟨hwf.step (moves_of_step hstep), hcalls.step (moves_of_step hstep)⟩

end FireAndForget

end DjangoBoilerplate
