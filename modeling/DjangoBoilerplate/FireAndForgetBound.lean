import DjangoBoilerplate.FireAndForget

/-!
# The queue's memory

ADR-0001 asks the dispatcher to drop on overflow "rather than queueing
unboundedly". `max_in_flight` bounds the `queue.Queue`, but the consumer empties
that queue into the executor's own work queue as fast as it can, whether or not
a worker is free, and that second queue has no bound: with slow workers nothing
ever overflows and the tasks in memory grow without limit
(`executor_queue_unbounded`).

The bound `max_in_flight + max_workers + 1` is what the pipeline would have with
back-pressure. It holds in the runs in which the consumer happens to
hand a task over only while a worker is free (`memoryBounded_of_freeWorker`).
-/

namespace DjangoBoilerplate

namespace FireAndForget

universe u

variable {τ : Type u}

/-- The tasks that were accepted and have not finished running. -/
def State.outstanding (s : State τ) : List (Task τ) :=
  s.accepted.filter fun t => !s.finished.any (·.call == t.call)

/-- The bound the pipeline would have with back-pressure. -/
def Config.bound (c : Config τ) : ℕ :=
  c.maxInFlight + c.maxWorkers + 1

/-- The step hands no task to an executor whose workers are all taken. -/
def FreeWorker (c : Config τ) (s : State τ) (l : Label τ) : Prop :=
  l = .consume → ∀ t, s.consumer = .holding t → s.shutdown = false →
    s.pending.length + s.running.length < c.maxWorkers

/-- An accepted task that has not finished is in one of five places. -/
theorem outstanding_length_le {s : State τ} (hs : Wf s) :
    s.outstanding.length ≤ s.queue.length + s.consumer.hand.length + s.lost.length +
      (s.pending.length + s.running.length) := by
  have hperm : s.accepted.Perm
      (s.finished ++ (s.running ++ s.pending ++ s.lost ++ s.consumer.hand ++ s.queue)) := by
    rw [hs.conserve, hs.executor]
    simp only [← List.append_assoc]
    have hstarted : s.started.Perm (s.finished ++ s.running) :=
      hs.workers.trans List.perm_append_comm
    exact (((hstarted.append_right _).append_right _).append_right _).append_right _
  have hdone : s.finished.filter (fun t => !s.finished.any (·.call == t.call)) = [] := by
    rw [List.filter_eq_nil_iff]
    intro t ht
    simp only [Bool.not_eq_true, Bool.not_eq_false', List.any_eq_true]
    exact ⟨t, ht, beq_self_eq_true _⟩
  have hlen := (hperm.filter (fun t => !s.finished.any (·.call == t.call))).length_eq
  rw [List.filter_append, hdone, List.nil_append] at hlen
  have hle := List.length_filter_le (fun t => !s.finished.any (·.call == t.call))
    (s.running ++ s.pending ++ s.lost ++ s.consumer.hand ++ s.queue)
  rw [← hlen] at hle
  simp only [List.length_append] at hle
  change s.outstanding.length ≤ _ at hle
  omega

/-- The invariant of the runs with a free worker at every hand-over. -/
structure Bounded (c : Config τ) (s : State τ) : Prop where
  /-- the tasks are accounted for -/
  wf : Wf s
  /-- the calls are accounted for -/
  calls : Calls s
  /-- `put_nowait` keeps the queue within `maxsize` -/
  queue_le : s.queue.length ≤ c.maxInFlight
  /-- a task in the executor has a worker -/
  executor_le : s.pending.length + s.running.length ≤ c.maxWorkers

theorem bounded_init (c : Config τ) : Bounded c (init : State τ) :=
  ⟨wf_init, calls_init, Nat.zero_le _, Nat.zero_le _⟩

/-- A bounded queue that is not full has room for one more task. -/
theorem Config.length_lt_of_not_full {c : Config τ} {queue : List (Task τ)}
    (hin : 1 ≤ c.maxInFlight) (hfull : c.full queue = false) :
    queue.length < c.maxInFlight := by
  simp only [Config.full, Bool.and_eq_false_iff, decide_eq_false_iff_not] at hfull
  omega

/-- Every step that meets the guard keeps the bounds. -/
theorem Bounded.step {c : Config τ} (hin : 1 ≤ c.maxInFlight) {s t : State τ} {l : Label τ}
    (hs : Bounded c s) (hG : FreeWorker c s l) (h : Moves c s l t) : Bounded c t := by
  refine ⟨hs.wf.step h, hs.calls.step h, ?_, ?_⟩
  · have hqueue := hs.queue_le
    cases h with
    | accept fn hfull =>
      have hlt := Config.length_lt_of_not_full hin hfull
      simp only [List.length_append, List.length_singleton]
      omega
    | take t rest hc hq =>
      rw [hq, List.length_cons] at hqueue
      exact Nat.le_of_succ_le hqueue
    | _ => exact hqueue
  · have hexec := hs.executor_le
    cases h with
    | handOver t hc hdown =>
      have hlt := hG rfl t hc hdown
      simp only [List.length_append, List.length_singleton]
      omega
    | start t rest hp hw =>
      rw [hp, List.length_cons] at hexec
      simp only [List.length_append, List.length_singleton]
      omega
    | finish n t hfind =>
      have hle := (List.eraseP_sublist (l := s.running) (p := fun x => x.call == n)).length_le
      simp only
      omega
    | _ => exact hexec

/-- Under the bounds, no more than `bound` tasks are outstanding: a consumer
that has lost a task holds none. -/
theorem Bounded.outstanding_le {c : Config τ} {s : State τ} (hs : Bounded c s) :
    s.outstanding.length + (c.maxInFlight - s.queue.length) ≤ c.bound := by
  have hle := outstanding_length_le hs.wf
  have hhand : s.consumer.hand.length + s.lost.length ≤ 1 := by
    by_cases hc : s.consumer = .exited
    · rw [hc]
      simpa [Consumer.hand] using hs.wf.lost_le_one
    · rw [hs.wf.lost_eq_nil hc]
      cases s.consumer <;> simp [Consumer.hand]
  have := hs.queue_le
  have := hs.executor_le
  rw [Config.bound]
  omega

/-- A `submit` that finds the queue full is not accepted, and is counted. -/
theorem submit_full {c : Config τ} {s : State τ} (hs : Calls s) (hfull : c.full s.queue = true)
    (fn : τ) :
    ∃ t u, (machine c).step s (.submit fn) = some t ∧ t.accepted = s.accepted ∧
      (machine c).step t (.countDrop s.calls) = some u ∧
      u.rejected = s.rejected ++ [⟨s.calls, fn⟩] ∧ u.dropped = s.dropped + 1 := by
  have hnone : s.rejecting.find? (·.call == s.calls) = none := by
    rw [List.find?_eq_none]
    intro t ht heq
    have hlt := hs.call_lt t (List.mem_append_right _ (List.mem_append_left _ ht))
    rw [beq_iff_eq] at heq
    omega
  have hfind : (s.rejecting ++ [(⟨s.calls, fn⟩ : Task τ)]).find? (·.call == s.calls) =
      some ⟨s.calls, fn⟩ := by
    rw [List.find?_append, hnone]
    simp
  refine ⟨{ s with calls := s.calls + 1, rejecting := s.rejecting ++ [⟨s.calls, fn⟩] }, _,
    ?_, rfl, Option.map_eq_some_iff.mpr ⟨_, hfind, rfl⟩, rfl, rfl⟩
  simp [machine, step, hfull]

/-- The queue's memory is bounded: at most `max_in_flight + max_workers + 1`
accepted tasks are outstanding, and once that many are, every `submit` returns
`False` and the drop counter grows. -/
structure MemoryBounded (c : Config τ) (s : State τ) : Prop where
  /-- the bound -/
  outstanding_le : s.outstanding.length ≤ c.maxInFlight + c.maxWorkers + 1
  /-- what happens beyond it -/
  submit_drops : s.outstanding.length = c.maxInFlight + c.maxWorkers + 1 → ∀ fn,
    ∃ t u, (machine c).step s (.submit fn) = some t ∧ t.accepted = s.accepted ∧
      (machine c).step t (.countDrop s.calls) = some u ∧
      u.rejected = s.rejected ++ [⟨s.calls, fn⟩] ∧ u.dropped = s.dropped + 1

/-- **The memory bound, where it holds**: in every state of every run in which
a task is only handed over while a worker is free. -/
theorem memoryBounded_of_freeWorker {c : Config τ} (hin : 1 ≤ c.maxInFlight)
    {ls : List (Label τ)} {s : State τ} (hG : (machine c).Meets (FreeWorker c) init ls)
    (h : (machine c).run init ls = some s) : MemoryBounded c s := by
  have hs : Bounded c s :=
    Machine.run_invariant (fun hI hG hstep => hI.step hin hG (moves_of_step hstep))
      (bounded_init c) hG h
  have hle := hs.outstanding_le
  rw [Config.bound] at hle
  refine ⟨by omega, ?_⟩
  intro heq fn
  refine submit_full hs.calls ?_ fn
  -- the last place left for a task is the queue itself
  simp only [Config.full, Bool.and_eq_true, decide_eq_true_eq]
  omega

/-- Room for one queued task, one worker. -/
def tightConfig : Config Unit where
  maxInFlight := 1
  maxWorkers := 1
  body _ := .returned

/-- A producer's task taken all the way into the executor. -/
def intoExecutor : List (Label Unit) :=
  [.submit (), .consume, .consume, .consume]

/-- With the worker still at its first task, the consumer goes on emptying the
queue into the executor: no `submit` is ever refused. -/
theorem executor_queue_unbounded :
    ¬ ∀ (c : Config Unit) (ls : List (Label Unit)) (s : State Unit), 1 ≤ c.maxInFlight →
      1 ≤ c.maxWorkers → (machine c).run init ls = some s → MemoryBounded c s := by
  intro halways
  have hbounded := halways tightConfig
    (intoExecutor ++ [.start] ++ intoExecutor ++ intoExecutor ++ intoExecutor) _ (by decide)
    (by decide) rfl
  exact absurd hbounded.outstanding_le (by decide)

/-- Two tasks in a row, the second handed over after the first has finished:
the bound holds at the end. -/
theorem outstanding_le_two_tasks :
    ∃ s, (machine tightConfig).run init
        (intoExecutor ++ [.start, .finish 0] ++ intoExecutor) = some s ∧
      s.outstanding.length ≤ 3 := by
  refine ⟨_, rfl, ?_⟩
  refine (@memoryBounded_of_freeWorker Unit tightConfig (by decide)
    (intoExecutor ++ [.start, .finish 0] ++ intoExecutor) _ ?_ rfl).outstanding_le
  simp [intoExecutor, tightConfig, Machine.Meets, FreeWorker, machine, step, consume, init,
    Config.full]

end FireAndForget

end DjangoBoilerplate
