import DjangoBoilerplate.FireAndForget

/-!
# Nothing is lost, repeated or held up

The account of a whole run of the queue, over any number of producers and any
interleaving of their `submit` calls with the consumer, the workers and `stop()`.

`Conserved` says where the tasks are. What a task does when it is called is
another matter: `_run_task_safely` catches what it raises, so that nothing but the
log depends on it. `quiet_run` states that as a fact about two runs: the same
schedule, with tasks that raise or do not, leaves the same state but for the log.
And no task waits on another one: from every state the workers alone can finish
whatever the executor was handed (`workers_finish`).
-/

namespace DjangoBoilerplate

namespace FireAndForget

universe u

variable {τ : Type u} {c : Config τ} {s t : State τ} {l : Label τ} {ls : List (Label τ)}

/-! ## Where the tasks are -/

/-- The account of the tasks and of the `submit` calls. -/
structure Conserved (s : State τ) : Prop where
  /-- every accepted task is queued, in the consumer's hand, handed over or lost -/
  balance : s.accepted.length =
    s.queue.length + s.consumer.hand.length + s.handed.length + s.lost.length
  /-- the consumer holds at most one task -/
  hand_le_one : s.consumer.hand.length ≤ 1
  /-- at most one is lost -/
  lost_le_one : s.lost.length ≤ 1
  /-- no call's task is started twice -/
  started_once : (s.started.map Task.call).Nodup
  /-- what is started was accepted -/
  started_accepted : ∀ x ∈ s.started, x ∈ s.accepted
  /-- a rejected task is never started -/
  rejected_not_started : ∀ x ∈ s.rejecting ++ s.rejected, x ∉ s.started
  /-- tasks are handed over in the order they were accepted -/
  in_order : s.handed <+: s.accepted
  /-- `_dropped` is the number of calls that returned `False` -/
  dropped_eq : s.dropped = s.rejected.length
  /-- with no `submit` in progress the two counts make up the calls -/
  calls_eq : s.rejecting = [] → s.accepted.length + s.dropped = s.calls

/-- There are as many calls as their outcomes. -/
theorem length_made_of_moves (h : Moves c s l t) (hs : s.made.length = s.calls) :
    t.made.length = t.calls := by
  cases h with
  | accept fn hfull =>
    simp only [State.made, List.length_append, List.length_singleton] at hs ⊢
    omega
  | overflow fn hfull =>
    simp only [State.made, List.length_append, List.length_singleton] at hs ⊢
    omega
  | countDrop n x hfind =>
    have hperm : (s.rejecting ++ s.rejected).length =
        (s.rejecting.eraseP (·.call == n) ++ (s.rejected ++ [x])).length :=
      (perm_finish hfind).length_eq
    simp only [State.made, List.length_append] at hs hperm ⊢
    omega
  | _ => exact hs

/-- What the two invariants and the number of calls come to. -/
theorem conserved_of_wf (hwf : Wf s) (hcalls : Calls s) (hmade : s.made.length = s.calls) :
    Conserved s := by
  have hhanded : s.handed <+: s.accepted := by
    rw [hwf.conserve, List.append_assoc, List.append_assoc]
    exact List.prefix_append _ _
  have hstarted : s.started <+: s.handed := by
    rw [hwf.executor]
    exact List.prefix_append _ _
  have haccepted : ∀ x ∈ s.started, x ∈ s.accepted :=
    fun x hx => hhanded.subset (hstarted.subset hx)
  have hnodup := hcalls.nodup
  rw [State.made, List.map_append, List.nodup_append] at hnodup
  obtain ⟨hdistinct, -, hapart⟩ := hnodup
  constructor
  case balance =>
    rw [hwf.conserve]
    simp only [List.length_append]
    omega
  case hand_le_one => cases s.consumer <;> simp [Consumer.hand]
  case lost_le_one => exact hwf.lost_le_one
  case started_once => exact hdistinct.sublist ((hstarted.trans hhanded).sublist.map _)
  case started_accepted => exact haccepted
  case rejected_not_started =>
    -- an accepted call and a rejected one have different numbers
    intro x hx hstart
    exact hapart _ (List.mem_map_of_mem (haccepted x hstart)) _ (List.mem_map_of_mem hx) rfl
  case in_order => exact hhanded
  case dropped_eq => exact hcalls.dropped_eq
  case calls_eq =>
    intro hnone
    rw [State.made, hnone, List.nil_append, List.length_append] at hmade
    rw [hcalls.dropped_eq]
    exact hmade

/-! ## What a task raises stays in the log -/

/-- The same state, whatever has been logged. -/
def State.SameButLog (s t : State τ) : Prop :=
  ∃ logged, t = { s with logged := logged }

/-- With other callables under the same bounds, the same step does the same. -/
theorem quiet_step {c' : Config τ} (hin : c'.maxInFlight = c.maxInFlight)
    (hw : c'.maxWorkers = c.maxWorkers) {s' : State τ} (hs : s.SameButLog s')
    (h : (machine c).step s l = some t) :
    ∃ t', (machine c').step s' l = some t' ∧ t.SameButLog t' := by
  obtain ⟨logged, rfl⟩ := hs
  have hfull : c'.full s.queue = c.full s.queue := by
    rw [Config.full, Config.full, hin]
  cases moves_of_step h with
  | accept fn hnot =>
    refine ⟨_, ?_, logged, rfl⟩
    simp [machine, step, hfull, hnot]
  | overflow fn hnot =>
    refine ⟨_, ?_, logged, rfl⟩
    simp [machine, step, hfull, hnot]
  | countDrop n x hfind =>
    refine ⟨_, ?_, logged, rfl⟩
    simp [machine, step, hfind]
  | enter hc hstop =>
    refine ⟨_, ?_, logged, rfl⟩
    simp [machine, step, consume, hc, hstop]
  | leave hc hstop =>
    refine ⟨_, ?_, logged, rfl⟩
    simp [machine, step, consume, hc, hstop]
  | take x rest hc hq =>
    refine ⟨_, ?_, logged, rfl⟩
    simp [machine, step, consume, hc, hq]
  | retry hc hstop =>
    refine ⟨_, ?_, logged, rfl⟩
    simp [machine, step, consume, hc, hstop]
  | recheck hc hstop =>
    refine ⟨_, ?_, logged, rfl⟩
    simp [machine, step, consume, hc, hstop]
  | drained hc hq =>
    refine ⟨_, ?_, logged, rfl⟩
    simp [machine, step, consume, hc, hq]
  | resume hc hq =>
    refine ⟨_, ?_, logged, rfl⟩
    simp [machine, step, consume, hc, hq]
  | lose x hc hdown =>
    refine ⟨_, ?_, logged, rfl⟩
    simp [machine, step, consume, hc, hdown]
  | handOver x hc hdown =>
    refine ⟨_, ?_, logged, rfl⟩
    simp [machine, step, consume, hc, hdown]
  | getTimeout hc hq =>
    refine ⟨_, ?_, logged, rfl⟩
    simp [machine, step, hc, hq]
  | start x rest hp hlt =>
    refine ⟨_, ?_, logged, rfl⟩
    simp [machine, step, hp, hw, hlt]
  | finish n x hfind =>
    -- the one step that looks at what the callable does
    refine ⟨_, ?_, logged ++ runTaskSafely c' x, rfl⟩
    simp [machine, step, hfind]
  | stopCall i hi =>
    refine ⟨_, ?_, logged, rfl⟩
    simp [machine, step, hi]
  | joinReturn i k hi hc =>
    refine ⟨_, ?_, logged, rfl⟩
    simp [machine, step, hi, hc]
  | joinTimeout i k hi =>
    refine ⟨_, ?_, logged, rfl⟩
    simp [machine, step, hi]
  | shutdown i k hi =>
    refine ⟨_, ?_, logged, rfl⟩
    simp [machine, step, hi]
  | shutdownReturn i k hi hp hr =>
    refine ⟨_, ?_, logged, rfl⟩
    simp [machine, step, hi, hp, hr]

/-- With other callables under the same bounds, the same schedule runs to the
same state but for the log. -/
theorem quiet_run {c' : Config τ} (hin : c'.maxInFlight = c.maxInFlight)
    (hw : c'.maxWorkers = c.maxWorkers) :
    ∀ {ls : List (Label τ)} {s s' t : State τ}, s.SameButLog s' →
      (machine c).run s ls = some t →
      ∃ t', (machine c').run s' ls = some t' ∧ t.SameButLog t' := by
  intro ls
  induction ls with
  | nil =>
    intro s s' t hs h
    obtain rfl := Option.some.inj h
    exact ⟨s', rfl, hs⟩
  | cons l ls ih =>
    intro s s' t hs h
    obtain ⟨m, hl, hm⟩ := Machine.run_cons_eq_some h
    obtain ⟨m', hl', hsame⟩ := quiet_step hin hw hs hl
    obtain ⟨t', ht', htsame⟩ := ih hsame hm
    refine ⟨t', ?_, htsame⟩
    rw [Machine.run, hl']
    exact ht'

/-! ## Nothing but `stop()` ends the loop -/

/-- Before any `stop()`: the executor is up and the consumer in its loop. -/
structure Open (s : State τ) : Prop where
  /-- every `stop()` is still to be called -/
  idle : ∀ i, s.stoppers i = .idle
  /-- the executor takes tasks -/
  up : s.shutdown = false
  /-- the consumer is in its loop -/
  looping : s.consumer ≠ .exited
  /-- and has not seen the event -/
  unseen : s.consumer ≠ .emptyStopping

theorem open_init : Open (init : State τ) := by
  refine ⟨?_, ?_, ?_, ?_⟩
  · intro i
    rfl
  · rfl
  · simp [init]
  · simp [init]

/-- As long as the event is not set, a step keeps the queue open. -/
theorem Open.step (hs : s.stop = false → Open s) (h : Moves c s l t) :
    t.stop = false → Open t := by
  intro hstop
  cases h with
  | enter hc _ => exact ⟨(hs hstop).idle, (hs hstop).up, by simp, by simp⟩
  | leave hc hset => exact absurd (hset.symm.trans hstop) (by simp)
  | take x rest hc hq => exact ⟨(hs hstop).idle, (hs hstop).up, by simp, by simp⟩
  | retry hc _ => exact ⟨(hs hstop).idle, (hs hstop).up, by simp, by simp⟩
  | recheck hc hset => exact absurd (hset.symm.trans hstop) (by simp)
  | drained hc hq => exact absurd hc (hs hstop).unseen
  | resume hc hq => exact ⟨(hs hstop).idle, (hs hstop).up, by simp, by simp⟩
  | lose x hc hdown => exact absurd (hdown.symm.trans (hs hstop).up) (by simp)
  | handOver x hc hdown => exact ⟨(hs hstop).idle, (hs hstop).up, by simp, by simp⟩
  | getTimeout hc hq => exact ⟨(hs hstop).idle, (hs hstop).up, by simp, by simp⟩
  | stopCall i hi => cases hstop
  | joinReturn i k hi hc => exact absurd (((hs hstop).idle i).symm.trans hi) (by simp)
  | joinTimeout i k hi => exact absurd (((hs hstop).idle i).symm.trans hi) (by simp)
  | shutdown i k hi => exact absurd (((hs hstop).idle i).symm.trans hi) (by simp)
  | shutdownReturn i k hi hp hr => exact absurd (((hs hstop).idle i).symm.trans hi) (by simp)
  | _ => exact ⟨(hs hstop).idle, (hs hstop).up, (hs hstop).looping, (hs hstop).unseen⟩

/-- A consumer in its loop always has a step to take, whatever the tasks do. -/
theorem consumer_moves (hc : s.consumer ≠ .exited) :
    ∃ l, (l = .consume ∨ l = .getTimeout) ∧ ((machine c).step s l).isSome = true := by
  cases hat : s.consumer with
  | guard => exact ⟨.consume, .inl rfl, by simp [machine, step, consume, hat]⟩
  | get =>
    cases hq : s.queue with
    | nil => exact ⟨.getTimeout, .inr rfl, by simp [machine, step, hat, hq]⟩
    | cons x rest => exact ⟨.consume, .inl rfl, by simp [machine, step, consume, hat, hq]⟩
  | empty => exact ⟨.consume, .inl rfl, by simp [machine, step, consume, hat]⟩
  | emptyStopping => exact ⟨.consume, .inl rfl, by simp [machine, step, consume, hat]⟩
  | holding x =>
    refine ⟨.consume, .inl rfl, ?_⟩
    cases hdown : s.shutdown <;> simp [machine, step, consume, hat, hdown]
  | exited => exact absurd hat hc

/-! ## The workers finish what they are handed -/

/-- Is it a step of a worker's? -/
def Label.isWorker : Label τ → Bool
  | .start => true
  | .finish _ => true
  | _ => false

/-- A worker that is running a task can finish it, whatever the task does. -/
theorem finish_step {x : Task τ} {rest : List (Task τ)} (hr : s.running = x :: rest) :
    ∃ t, (machine c).step s (.finish x.call) = some t ∧
      t.handed = s.handed ∧ t.pending = s.pending ∧ t.running = rest := by
  refine ⟨{ s with
    running := rest
    finished := s.finished ++ [x]
    logged := s.logged ++ runTaskSafely c x }, ?_, rfl, rfl, rfl⟩
  simp [machine, step, hr]

/-- With every worker idle, one takes the next task. -/
theorem start_step (hw : 1 ≤ c.maxWorkers) {x : Task τ} {rest : List (Task τ)}
    (hr : s.running = []) (hp : s.pending = x :: rest) :
    ∃ t, (machine c).step s .start = some t ∧
      t.handed = s.handed ∧ t.pending = rest ∧ t.running = [x] := by
  have hlt : 0 < c.maxWorkers := hw
  refine ⟨{ s with
    pending := rest, running := [x], started := s.started ++ [x] }, ?_, rfl, rfl, rfl⟩
  simp [machine, step, hr, hp, hlt]

/-- From any state the workers alone can clear the executor. -/
theorem workers_finish (hw : 1 ≤ c.maxWorkers) (n : ℕ) :
    ∀ s : State τ, 2 * s.pending.length + s.running.length = n →
      ∃ ks t, (∀ l ∈ ks, l.isWorker = true) ∧ (machine c).run s ks = some t ∧
        t.handed = s.handed ∧ t.pending = [] ∧ t.running = [] := by
  -- a task takes two steps to be finished, or one once it has started
  induction n using Nat.strong_induction_on with
  | _ n ih =>
    intro s hn
    cases hr : s.running with
    | cons x rest =>
      obtain ⟨m, hstep, hm, hmp, hmr⟩ := finish_step (c := c) hr
      have hless : 2 * m.pending.length + m.running.length < n := by
        rw [← hn, hmp, hmr, hr, List.length_cons]
        omega
      obtain ⟨ks, t, hks, hrun, hhanded, hdone⟩ := ih _ hless m rfl
      refine ⟨.finish x.call :: ks, t, ?_, ?_, hhanded.trans hm, hdone⟩
      · exact List.forall_mem_cons.mpr ⟨rfl, hks⟩
      · rw [Machine.run, hstep]
        exact hrun
    | nil =>
      cases hp : s.pending with
      | nil => exact ⟨[], s, by simp, rfl, rfl, hp, hr⟩
      | cons x rest =>
        obtain ⟨m, hstep, hm, hmp, hmr⟩ := start_step hw hr hp
        have hless : 2 * m.pending.length + m.running.length < n := by
          rw [← hn, hmp, hmr, hr, hp]
          simp only [List.length_cons, List.length_nil]
          omega
        obtain ⟨ks, t, hks, hrun, hhanded, hdone⟩ := ih _ hless m rfl
        refine ⟨.start :: ks, t, ?_, ?_, hhanded.trans hm, hdone⟩
        · exact List.forall_mem_cons.mpr ⟨rfl, hks⟩
        · rw [Machine.run, hstep]
          exact hrun

/-! ## The account of a run -/

/-- What a task does, raising included, holds nothing up: neither the consumer
nor another task. -/
structure Unhindered (c : Config τ) (ls : List (Label τ)) (s : State τ) : Prop where
  /-- with other tasks in their place the same schedule does the same -/
  quiet : ∀ c' : Config τ, c'.maxInFlight = c.maxInFlight → c'.maxWorkers = c.maxWorkers →
    ∃ s', (machine c').run init ls = some s' ∧ s.SameButLog s'
  /-- only `stop()` makes the consumer leave its loop -/
  looping : s.stop = false → s.consumer ≠ .exited
  /-- in its loop it always has a step to take -/
  moving : s.consumer ≠ .exited →
    ∃ l, (l = .consume ∨ l = .getTimeout) ∧ ((machine c).step s l).isSome = true
  /-- every task handed over can be run to its end by the workers alone -/
  finishing : 1 ≤ c.maxWorkers →
    ∃ ks t, (∀ l ∈ ks, l.isWorker = true) ∧ (machine c).run s ks = some t ∧
      t.finished.Perm s.handed

/-- The workers' part of it. -/
theorem finished_perm_handed (hwf : Wf s) (hw : 1 ≤ c.maxWorkers) :
    ∃ ks t, (∀ l ∈ ks, l.isWorker = true) ∧ (machine c).run s ks = some t ∧
      t.finished.Perm s.handed := by
  obtain ⟨ks, t, hks, hrun, hhanded, hp, hr⟩ := workers_finish hw _ s rfl
  refine ⟨ks, t, hks, hrun, ?_⟩
  have ht : Wf t :=
    Machine.run_invariant' (I := Wf) (fun hs hstep => hs.step (moves_of_step hstep)) hwf hrun
  have hworkers := ht.workers
  rw [hr, List.nil_append] at hworkers
  rw [← hhanded, ht.executor, hp, List.append_nil]
  exact hworkers.symm

/-- **Nothing is lost, repeated or held up.** -/
theorem conservation (h : (machine c).run init ls = some s) :
    Conserved s ∧ Unhindered c ls s := by
  obtain ⟨hwf, hcalls⟩ := accounting_run h
  have hmade : s.made.length = s.calls :=
    Machine.run_invariant' (I := fun s => s.made.length = s.calls)
      (fun hs hstep => length_made_of_moves (moves_of_step hstep) hs) rfl h
  have hopen : s.stop = false → Open s :=
    Machine.run_invariant' (I := fun s => s.stop = false → Open s)
      (fun hs hstep => Open.step hs (moves_of_step hstep)) (fun _ => open_init) h
  refine ⟨conserved_of_wf hwf hcalls hmade, ?_⟩
  constructor
  case quiet => exact fun c' hin hw => quiet_run hin hw ⟨[], rfl⟩ h
  case looping => exact fun hstop => (hopen hstop).looping
  case moving => exact consumer_moves
  case finishing => exact finished_perm_handed hwf

/-- One worker and a queue of one; the first callable raises. -/
def raisingConfig : Config Bool where
  maxInFlight := 1
  maxWorkers := 1
  body fn := if fn then .raisedException else .returned

/-- A task that raises, one that is rejected while it waits, and a third that runs
after it. -/
def raisingRun : List (Label Bool) :=
  [.submit true, .submit false, .countDrop 1, .consume, .consume, .consume, .start, .submit false,
    .finish 0, .consume, .consume, .consume, .start]

/-- The raising task is logged, and the one behind it is started. -/
theorem raising_task_conserved : ∃ s, (machine raisingConfig).run init raisingRun = some s ∧
    s.logged = [⟨0, true⟩] ∧ s.started = [⟨0, true⟩, ⟨2, false⟩] ∧
    Conserved s ∧ Unhindered raisingConfig raisingRun s :=
  ⟨_, rfl, rfl, rfl, conservation rfl⟩

end FireAndForget

end DjangoBoilerplate
