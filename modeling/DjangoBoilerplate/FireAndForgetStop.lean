import DjangoBoilerplate.FireAndForget

/-!
# Stopping the queue

`stop()` is documented to "signal the consumer to drain and stop". The consumer
reads the stop event in its loop guard, before it looks at the queue, so it
leaves with whatever is still queued: the in-loop check `_stop.is_set() and
_queue.empty()` is only reached after `get` has already found nothing.

The exact account is `stop_runs_accepted_iff`. A consumer that is past its
guard when the event is set takes one more task, and nothing more; so a
`stop()` keeps what it promises exactly when no task was queued, or a single
task was and the consumer was already inside `get`.

The argument follows `taken`, the number of tasks that have left the queue.
-/

namespace DjangoBoilerplate

namespace FireAndForget

universe u

variable {τ : Type u}

/-- The record of a `stop()` call that has been made. -/
def Stopper.call? : Stopper τ → Option (StopCall τ)
  | .idle => none
  | .joining k => some k
  | .joined k => some k
  | .waiting k => some k
  | .returned k => some k

/-- Has the call got past `join`? -/
def Stopper.pastJoin : Stopper τ → Bool
  | .idle => false
  | .joining _ => false
  | .joined _ => true
  | .waiting _ => true
  | .returned _ => true

/-- The tasks that have left the queue, in order. -/
def State.taken (s : State τ) : List (Task τ) :=
  s.handed ++ s.lost ++ s.consumer.hand

/-- The label is a `join` that times out. -/
def Label.isJoinTimeout : Label τ → Bool
  | .joinTimeout _ => true
  | _ => false

/-! ## Without join timeouts the executor outlives the consumer -/

/-- The consumer is gone before the executor is shut down, so no task is lost
between them. -/
structure Orderly (s : State τ) : Prop where
  /-- a `stop()` past its `join` has seen the consumer exit -/
  joined_exited : ∀ i, (s.stoppers i).pastJoin = true → s.consumer = .exited
  /-- the executor is shut down only after that -/
  shutdown_exited : s.shutdown = true → s.consumer = .exited
  /-- no `executor.submit` has raised -/
  lost_nil : s.lost = []
  /-- a `stop()` that has returned has waited for the workers -/
  returned_idle : ∀ i k, s.stoppers i = .returned k → s.pending = [] ∧ s.running = []

theorem orderly_init : Orderly (init : State τ) := by
  constructor <;> simp [init, Stopper.pastJoin]

/-- A step of another party that leaves the executor's side alone, and the
consumer out of its loop if it was. -/
theorem Orderly.frame {s t : State τ} (hs : Orderly s) (hstoppers : t.stoppers = s.stoppers)
    (hshutdown : t.shutdown = s.shutdown) (hlost : t.lost = s.lost)
    (hexited : s.consumer = .exited → t.consumer = .exited)
    (hidle : s.pending = [] ∧ s.running = [] → s.consumer = .exited →
      t.pending = [] ∧ t.running = []) : Orderly t := by
  refine ⟨?_, ?_, ?_, ?_⟩
  · intro i hi
    rw [hstoppers] at hi
    exact hexited (hs.joined_exited i hi)
  · intro hd
    rw [hshutdown] at hd
    exact hexited (hs.shutdown_exited hd)
  · rw [hlost]
    exact hs.lost_nil
  · intro i k hi
    rw [hstoppers] at hi
    exact hidle (hs.returned_idle i k hi) (hs.joined_exited i (by rw [hi]; rfl))

/-- A step of the `i`-th `stop()` that stays in the given state. -/
theorem Orderly.advance {s : State τ} (hs : Orderly s) {i : ℕ} {x : Stopper τ}
    (hpast : x.pastJoin = true → s.consumer = .exited)
    (hidle : ∀ k, x = .returned k → s.pending = [] ∧ s.running = []) :
    Orderly { s with stoppers := Function.update s.stoppers i x } := by
  refine ⟨?_, hs.shutdown_exited, hs.lost_nil, ?_⟩
  · intro j hj
    by_cases hij : j = i
    · subst hij
      exact hpast (by simpa using hj)
    · exact hs.joined_exited j (by simpa [hij] using hj)
  · intro j k hj
    by_cases hij : j = i
    · subst hij
      exact hidle k (by simpa using hj)
    · exact hs.returned_idle j k (by simpa [hij] using hj)

/-- Every step but a `join` timeout keeps the order. -/
theorem Orderly.step {c : Config τ} {s t : State τ} {l : Label τ} (hs : Orderly s)
    (hl : l.isJoinTimeout = false) (h : Moves c s l t) : Orderly t := by
  -- the consumer's own steps all start inside its loop
  have inLoop : ∀ {k : Consumer τ} {P : Prop}, s.consumer = k → k ≠ .exited →
      s.consumer = .exited → P := by
    intro k P hc hk he
    exact absurd (hc.symm.trans he) hk
  cases h with
  | accept fn hfull => exact hs.frame rfl rfl rfl id fun h _ => h
  | overflow fn hfull => exact hs.frame rfl rfl rfl id fun h _ => h
  | countDrop n t hfind => exact hs.frame rfl rfl rfl id fun h _ => h
  | enter hc hstop => exact hs.frame rfl rfl rfl (inLoop hc (by simp)) fun h _ => h
  | leave hc hstop => exact hs.frame rfl rfl rfl (fun _ => rfl) fun h _ => h
  | take t rest hc hq =>
    exact hs.frame rfl rfl rfl (inLoop hc (by simp)) fun h _ => h
  | retry hc hstop => exact hs.frame rfl rfl rfl (inLoop hc (by simp)) fun h _ => h
  | recheck hc hstop =>
    exact hs.frame rfl rfl rfl (inLoop hc (by simp)) fun h _ => h
  | drained hc hq => exact hs.frame rfl rfl rfl (fun _ => rfl) fun h _ => h
  | resume hc hq => exact hs.frame rfl rfl rfl (inLoop hc (by simp)) fun h _ => h
  | lose t hc hdown =>
    -- impossible: the executor is still up while the consumer holds a task
    exact inLoop hc (by simp) (hs.shutdown_exited hdown)
  | handOver t hc hdown =>
    exact hs.frame rfl rfl rfl (inLoop hc (by simp))
      fun _ => inLoop hc (by simp)
  | getTimeout hc hq =>
    exact hs.frame rfl rfl rfl (inLoop hc (by simp)) fun h _ => h
  | start t rest hp hw =>
    refine hs.frame rfl rfl rfl id fun h _ => ?_
    rw [hp] at h
    exact absurd h.1 (List.cons_ne_nil t rest)
  | finish n t hfind =>
    refine hs.frame rfl rfl rfl id fun h _ => ?_
    rw [h.2] at hfind
    cases hfind
  | stopCall i hi =>
    have hadv := hs.advance (i := i) (x := .joining ⟨s.accepted, s.queue, s.consumer.inGet⟩)
      (by simp [Stopper.pastJoin]) (by simp)
    exact ⟨hadv.joined_exited, hadv.shutdown_exited, hadv.lost_nil, hadv.returned_idle⟩
  | joinReturn i k hi hc => exact hs.advance (fun _ => hc) (by simp)
  | joinTimeout i k hi => cases hl
  | shutdown i k hi =>
    have hc : s.consumer = .exited := hs.joined_exited i (by rw [hi]; rfl)
    have hadv := hs.advance (i := i) (x := .waiting k) (fun _ => hc) (by simp)
    exact ⟨hadv.joined_exited, fun _ => hc, hadv.lost_nil, hadv.returned_idle⟩
  | shutdownReturn i k hi hp hr =>
    exact hs.advance (fun _ => hs.joined_exited i (by rw [hi]; rfl)) fun _ _ => ⟨hp, hr⟩

/-! ## After the event is set the consumer takes at most one more task -/

/-- What the consumer can still have done since the call `k`. -/
inductive Progress (s : State τ) (k : StopCall τ) : Prop where
  /-- it was not inside `get`: it takes nothing any more -/
  | idle (hget : k.inGet = false) (hc : s.consumer ≠ .get)
      (htaken : s.taken.length + k.queued.length = k.accepted.length)
  /-- it was inside `get`, and still is -/
  | waiting (hget : k.inGet = true) (hc : s.consumer = .get)
      (htaken : s.taken.length + k.queued.length = k.accepted.length)
  /-- it was inside `get`, and has taken one more task -/
  | took (hget : k.inGet = true) (hc : s.consumer ≠ .get)
      (htaken : s.taken.length + k.queued.length = k.accepted.length + 1)
  /-- it was inside `get`, which found nothing -/
  | timedOut (hget : k.inGet = true) (hc : s.consumer ≠ .get) (hqueued : k.queued = [])
      (htaken : s.taken.length = k.accepted.length)

/-- What holds of a `stop()` call `k` in every later state. -/
structure Stopping (s : State τ) (k : StopCall τ) : Prop where
  /-- the event stays set -/
  stop_set : s.stop = true
  /-- nothing accepted is forgotten -/
  accepted_before : k.accepted <+: s.accepted
  /-- the consumer has made one of these steps since -/
  progress : Progress s k

/-- A step that moves no task out of the queue, and the consumer neither into
nor out of `get`. -/
theorem Stopping.frame {s t : State τ} {k : StopCall τ} (hk : Stopping s k)
    (hstop : s.stop = true → t.stop = true) (haccepted : s.accepted <+: t.accepted)
    (htaken : t.taken = s.taken) (hget : t.consumer = .get ↔ s.consumer = .get) :
    Stopping t k := by
  refine ⟨hstop hk.stop_set, hk.accepted_before.trans haccepted, ?_⟩
  cases hk.progress with
  | idle hg hc hn => exact .idle hg (mt hget.mp hc) (by rw [htaken]; exact hn)
  | waiting hg hc hn => exact .waiting hg (hget.mpr hc) (by rw [htaken]; exact hn)
  | took hg hc hn => exact .took hg (mt hget.mp hc) (by rw [htaken]; exact hn)
  | timedOut hg hc hq hn => exact .timedOut hg (mt hget.mp hc) hq (by rw [htaken]; exact hn)

/-- A consumer step that starts and ends outside `get`. -/
theorem Stopping.walk {s t : State τ} {k : StopCall τ} (hk : Stopping s k)
    (hstop : s.stop = true → t.stop = true) (haccepted : t.accepted = s.accepted)
    (htaken : t.taken = s.taken) (hfrom : s.consumer ≠ .get) (hto : t.consumer ≠ .get) :
    Stopping t k :=
  hk.frame hstop (by rw [haccepted]) htaken ⟨fun h => absurd h hto, fun h => absurd h hfrom⟩

/-- Every step keeps the account of a call that has been made. -/
theorem Stopping.step {c : Config τ} {s t : State τ} {l : Label τ} {k : StopCall τ}
    (hs : Wf s) (hk : Stopping s k) (h : Moves c s l t) :
    Stopping t k := by
  cases h with
  | accept fn hfull => exact hk.frame id (List.prefix_append _ _) rfl Iff.rfl
  | overflow fn hfull => exact hk.frame id List.prefix_rfl rfl Iff.rfl
  | countDrop n t hfind => exact hk.frame id List.prefix_rfl rfl Iff.rfl
  | enter hc hstop =>
    -- the guard has been closed since the event was set
    rw [hk.stop_set] at hstop
    cases hstop
  | leave hc hstop =>
    exact hk.walk id rfl (by simp [State.taken, hc, Consumer.hand]) (by simp [hc]) (by simp)
  | take t rest hc hq =>
    -- the one task a consumer inside `get` still takes
    refine ⟨hk.stop_set, hk.accepted_before, ?_⟩
    cases hk.progress with
    | idle hg hcs hn => exact absurd hc hcs
    | waiting hg hcs hn =>
      refine .took hg (by simp) ?_
      simp only [State.taken, hc, Consumer.hand, List.length_append, List.length_nil] at hn
      simp only [State.taken, Consumer.hand, List.length_append, List.length_singleton]
      omega
    | took hg hcs hn => exact absurd hc hcs
    | timedOut hg hcs hqueued hn => exact absurd hc hcs
  | retry hc hstop =>
    exact hk.walk id rfl (by simp [State.taken, hc, Consumer.hand]) (by simp [hc]) (by simp)
  | recheck hc hstop =>
    exact hk.walk id rfl (by simp [State.taken, hc, Consumer.hand]) (by simp [hc]) (by simp)
  | drained hc hq =>
    exact hk.walk id rfl (by simp [State.taken, hc, Consumer.hand]) (by simp [hc]) (by simp)
  | resume hc hq =>
    exact hk.walk id rfl (by simp [State.taken, hc, Consumer.hand]) (by simp [hc]) (by simp)
  | lose t hc hdown =>
    exact hk.walk id rfl (by simp [State.taken, hc, Consumer.hand]) (by simp [hc]) (by simp)
  | handOver t hc hdown =>
    have hlost : s.lost = [] := hs.lost_eq_nil (by simp [hc])
    exact hk.walk id rfl (by simp [State.taken, hc, hlost, Consumer.hand]) (by simp [hc])
      (by simp)
  | getTimeout hc hq =>
    -- `get` times out only on an empty queue, so nothing was queued at the call
    refine ⟨hk.stop_set, hk.accepted_before, ?_⟩
    have hall : s.accepted = s.taken := by
      rw [hs.conserve, hq, List.append_nil]
      rfl
    have hle : k.accepted.length ≤ s.taken.length := by
      rw [← hall]
      exact hk.accepted_before.length_le
    have htaken : ({ s with consumer := .empty } : State τ).taken = s.taken := by
      simp [State.taken, hc, Consumer.hand]
    cases hk.progress with
    | idle hg hcs hn => exact absurd hc hcs
    | waiting hg hcs hn =>
      have hqueued : k.queued = [] := List.eq_nil_of_length_eq_zero (by omega)
      refine .timedOut hg (by simp) hqueued ?_
      rw [htaken]
      rw [hqueued, List.length_nil] at hn
      omega
    | took hg hcs hn => exact absurd hc hcs
    | timedOut hg hcs hqueued hn => exact absurd hc hcs
  | start t rest hp hw => exact hk.frame id List.prefix_rfl rfl Iff.rfl
  | finish n t hfind => exact hk.frame id List.prefix_rfl rfl Iff.rfl
  | stopCall i hi =>
    exact hk.frame (fun _ => rfl) List.prefix_rfl rfl Iff.rfl
  | joinReturn i j hi hc => exact hk.frame id List.prefix_rfl rfl Iff.rfl
  | joinTimeout i j hi => exact hk.frame id List.prefix_rfl rfl Iff.rfl
  | shutdown i j hi => exact hk.frame id List.prefix_rfl rfl Iff.rfl
  | shutdownReturn i j hi hp hr => exact hk.frame id List.prefix_rfl rfl Iff.rfl

/-- The record a `stop()` call makes describes the state it was made in. -/
theorem stopping_call {s : State τ} (hs : Wf s) {i : ℕ} :
    Stopping
      { s with
        stop := true
        stoppers := Function.update s.stoppers i
          (.joining ⟨s.accepted, s.queue, s.consumer.inGet⟩) }
      ⟨s.accepted, s.queue, s.consumer.inGet⟩ := by
  have hlen : s.taken.length + s.queue.length = s.accepted.length := by
    rw [hs.conserve, List.length_append]
    rfl
  refine ⟨rfl, List.prefix_rfl, ?_⟩
  by_cases hc : s.consumer = .get
  · exact .waiting (by rw [hc]; rfl) hc hlen
  · refine .idle ?_ hc hlen
    rcases hcs : s.consumer with _ | _ | _ | _ | t | _
    case get => exact absurd hcs hc
    all_goals rfl

/-- The invariant of the runs in which no `join` times out. -/
structure StopInv (s : State τ) : Prop where
  /-- the tasks are accounted for -/
  wf : Wf s
  /-- and so are the calls -/
  calls : Calls s
  /-- the executor outlives the consumer -/
  orderly : Orderly s
  /-- every call that has been made -/
  stopping : ∀ i k, (s.stoppers i).call? = some k → Stopping s k

theorem stopInv_init : StopInv (init : State τ) :=
  ⟨wf_init, calls_init, orderly_init, by simp [init, Stopper.call?]⟩

/-- Moving one `stop()` on does not change the calls that have been made. -/
theorem call?_update {s : State τ} {i j : ℕ} {x : Stopper τ} {k : StopCall τ}
    (hx : x.call? = (s.stoppers i).call?)
    (h : (Function.update s.stoppers i x j).call? = some k) :
    (s.stoppers j).call? = some k := by
  by_cases hij : j = i
  · subst hij
    rwa [Function.update_self, hx] at h
  · rwa [Function.update_of_ne hij] at h

/-- Every step but a `join` timeout keeps the invariant. -/
theorem StopInv.step {c : Config τ} {s t : State τ} {l : Label τ} (hs : StopInv s)
    (hl : l.isJoinTimeout = false) (h : Moves c s l t) : StopInv t := by
  refine ⟨hs.wf.step h, hs.calls.step h, hs.orderly.step hl h, ?_⟩
  intro j k hj
  -- a call other than one made by this very step was already on record
  have old : (s.stoppers j).call? = some k → Stopping t k :=
    fun hold => (hs.stopping j k hold).step hs.wf h
  cases h with
  | stopCall i hi =>
    by_cases hij : j = i
    · subst hij
      simp only [Function.update_self] at hj
      obtain rfl := Option.some.inj hj
      exact stopping_call hs.wf
    · exact old (by simpa [hij] using hj)
  | joinReturn i k' hi hc => exact old (call?_update (by rw [hi]; rfl) hj)
  | joinTimeout i k' hi => cases hl
  | shutdown i k' hi => exact old (call?_update (by rw [hi]; rfl) hj)
  | shutdownReturn i k' hi hp hr => exact old (call?_update (by rw [hi]; rfl) hj)
  | _ => exact old hj

/-! ## What a `stop()` that has returned has done -/

/-- When `stop()` has returned, exactly the tasks that left the queue have run. -/
theorem mem_finished_iff_taken {s : State τ} {i : ℕ} {k : StopCall τ} (hs : StopInv s)
    (hi : s.stoppers i = .returned k) (t : Task τ) : t ∈ s.finished ↔ t ∈ s.taken := by
  obtain ⟨hp, hr⟩ := hs.orderly.returned_idle i k hi
  have hc : s.consumer = .exited := hs.orderly.joined_exited i (by rw [hi]; rfl)
  have hstarted : s.handed = s.started := by
    rw [hs.wf.executor, hp, List.append_nil]
  have hfinished : s.started.Perm s.finished := by
    simpa [hr] using hs.wf.workers
  have htaken : s.taken = s.started := by
    simp [State.taken, hs.orderly.lost_nil, hc, Consumer.hand, hstarted]
  rw [htaken, hfinished.mem_iff]

/-- A prefix of what was accepted has left the queue exactly when it is no
longer than what has. -/
theorem prefix_subset_taken_iff {s : State τ} (hs : Wf s) (hcalls : Calls s) {l : List (Task τ)}
    (hl : l <+: s.accepted) :
    (∀ t ∈ l, t ∈ s.taken) ↔ l.length ≤ s.taken.length := by
  have hsplit : s.accepted = s.taken ++ s.queue := hs.conserve
  have hnodup := hcalls.nodup_accepted
  rw [hsplit] at hl hnodup
  refine ⟨?_, ?_⟩
  · intro hsub
    exact (List.subperm_of_subset (hnodup.sublist hl.sublist) hsub).length_le
  · intro hle
    exact (List.prefix_of_prefix_length_le hl (List.prefix_append _ _) hle).subset

/-- **What `stop()` guarantees, exactly.** In every run in which no `join`
times out, when a `stop()` has returned, every task accepted before it was
called has run if and only if at the call the queue was empty, or held a single
task while the consumer was already past its guard, inside `get`. -/
theorem stop_runs_accepted_iff {c : Config τ} {ls : List (Label τ)} {s : State τ} {i : ℕ}
    {k : StopCall τ} (hjoin : ∀ l ∈ ls, l.isJoinTimeout = false)
    (h : (machine c).run init ls = some s) (hi : s.stoppers i = .returned k) :
    (∀ t ∈ k.accepted, t ∈ s.finished) ↔ k.queued.length ≤ if k.inGet then 1 else 0 := by
  have hs : StopInv s :=
    Machine.run_invariant (fun hI hG hstep => hI.step hG (moves_of_step hstep)) stopInv_init
      (Machine.meets_of_forall_mem hjoin) h
  have hc : s.consumer = .exited := hs.orderly.joined_exited i (by rw [hi]; rfl)
  obtain ⟨-, hbefore, hprogress⟩ := hs.stopping i k (by rw [hi]; rfl)
  have hran : (∀ t ∈ k.accepted, t ∈ s.finished) ↔ k.accepted.length ≤ s.taken.length := by
    simp only [mem_finished_iff_taken hs hi]
    exact prefix_subset_taken_iff hs.wf hs.calls hbefore
  rw [hran]
  cases hprogress with
  | idle hg hcs hn =>
    simp only [hg, Bool.false_eq_true, if_false]
    omega
  | waiting hg hcs hn =>
    rw [hc] at hcs
    cases hcs
  | took hg hcs hn =>
    simp only [hg, if_true]
    omega
  | timedOut hg hcs hqueued hn =>
    simp only [hg, if_true, hqueued, List.length_nil]
    omega

/-- A queue with room for two tasks, one worker, and tasks that return. -/
def smallConfig : Config Unit where
  maxInFlight := 2
  maxWorkers := 1
  body _ := .returned

/-- A task is accepted; then, before the consumer has run at all, `stop()` is
called. The consumer finds its guard closed and leaves. -/
def lostTaskRun : List (Label Unit) :=
  [.submit (), .stopCall 0, .consume, .joinReturn 0, .shutdown 0, .shutdownReturn 0]

/-- The accepted task of `lostTaskRun` has not run when `stop()` has returned. -/
theorem stop_loses_queued_task :
    ¬ ∀ (c : Config Unit) (ls : List (Label Unit)) (s : State Unit) (i : ℕ)
      (k : StopCall Unit), (∀ l ∈ ls, l.isJoinTimeout = false) →
      (machine c).run init ls = some s → s.stoppers i = .returned k →
      ∀ t ∈ k.accepted, t ∈ s.finished := by
  intro halways
  have hmem := halways smallConfig lostTaskRun _ 0 ⟨[⟨0, ()⟩], [⟨0, ()⟩], false⟩ (by decide)
    rfl rfl ⟨0, ()⟩ (List.mem_singleton.mpr rfl)
  exact List.not_mem_nil hmem

/-- The same task, but the consumer is already inside `get` when `stop()` is
called. -/
def keptTaskRun : List (Label Unit) :=
  [.consume, .submit (), .stopCall 0, .consume, .consume, .consume, .joinReturn 0, .start,
    .finish 0, .shutdown 0, .shutdownReturn 0]

/-- In `keptTaskRun` the accepted task has run when `stop()` has returned. -/
theorem stop_runs_task_in_get :
    ∃ (s : State Unit) (k : StopCall Unit), (machine smallConfig).run init keptTaskRun = some s ∧
      s.stoppers 0 = .returned k ∧ k.accepted = [⟨0, ()⟩] ∧ ∀ t ∈ k.accepted, t ∈ s.finished := by
  refine ⟨_, ⟨[⟨0, ()⟩], [⟨0, ()⟩], true⟩, rfl, rfl, rfl, ?_⟩
  exact (@stop_runs_accepted_iff Unit smallConfig keptTaskRun _ 0 _ (by decide) rfl rfl).mpr
    (by decide)

end FireAndForget

end DjangoBoilerplate
