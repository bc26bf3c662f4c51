import DjangoBoilerplate.FireAndForget

/-!
# Draining queues

`drain()` is documented to "block until queued tasks are submitted to the
executor". It polls `_queue.empty()`, but the consumer takes a task out of the
queue and submits it in two separate steps: between them the queue is empty and
the task is in neither place.

`drain()` and `drain_all()` are one process here: `drain_all()` drains the
registered queues in turn under a shared deadline, and `drain()` is the case of
a single queue. Clocks are not modelled, a deadline may pass at any time; that
only makes a call return `False`.

Main result: `drain_delivers_of_handClear`. A successful drain means delivered
in every run in which, whenever a queue is seen empty, its consumer is not
holding a task accepted before the call.
-/

namespace DjangoBoilerplate

namespace FireAndForget

universe u v

variable {τ : Type u} {ν : Type v} [DecidableEq ν]

/-- What a `drain()` or `drain_all()` call was made with. -/
structure DrainCall (ν : Type v) (τ : Type u) : Type (max u v) where
  /-- the queues to drain: one for `drain()`, the registered ones for `drain_all()` -/
  queues : List ν
  /-- the tasks each queue had accepted at the call -/
  marks : ν → List (Task τ)

/-- Where one `drain()` or `drain_all()` call is. -/
inductive Drain (ν : Type v) (τ : Type u) : Type (max u v) where
  /-- not called yet -/
  | idle : Drain ν τ
  /-- polling the first of the remaining queues; the flag is `all_drained` -/
  | draining : DrainCall ν τ → List ν → Bool → Drain ν τ
  /-- returned `all_drained` -/
  | returned : DrainCall ν τ → Bool → Drain ν τ

/-- Running queues, by name, and the calls that drain them. -/
structure Fleet (ν : Type v) (τ : Type u) : Type (max u v) where
  /-- `_queues` -/
  queues : ν → State τ
  /-- the drain calls -/
  drains : ℕ → Drain ν τ

/-- One step of one queue's parties, or of one drain call. -/
inductive FleetLabel (ν : Type v) (τ : Type u) : Type (max u v) where
  /-- a step of the producers, the consumer or the workers of a queue -/
  | queue : ν → Label τ → FleetLabel ν τ
  /-- the `i`-th call starts on the given queues -/
  | drainCall : ℕ → List ν → FleetLabel ν τ
  /-- `while not self._queue.empty()` finds the queue empty -/
  | observeEmpty : ℕ → FleetLabel ν τ
  /-- the queue is not empty and the deadline has passed -/
  | deadline : ℕ → FleetLabel ν τ
  /-- no queue is left: the call returns -/
  | drainReturn : ℕ → FleetLabel ν τ

/-- Is the label a step of `stop()`? A running queue takes none. -/
def Label.isStop : Label τ → Bool
  | .stopCall _ => true
  | .joinReturn _ => true
  | .joinTimeout _ => true
  | .shutdown _ => true
  | .shutdownReturn _ => true
  | _ => false

/-- Queues just constructed, no drain call made. -/
def Fleet.init : Fleet ν τ :=
  ⟨fun _ => FireAndForget.init, fun _ => .idle⟩

/-- The step function of the running queues and the drain calls. -/
def Fleet.step (c : ν → Config τ) (f : Fleet ν τ) : FleetLabel ν τ → Option (Fleet ν τ)
  | .queue q l =>
    if l.isStop then none
    else (FireAndForget.step (c q) (f.queues q) l).map fun s =>
      { f with queues := Function.update f.queues q s }
  | .drainCall i qs =>
    match f.drains i with
    | .idle =>
      some { f with
        drains := Function.update f.drains i
          (.draining ⟨qs, fun q => (f.queues q).accepted⟩ qs true) }
    | _ => none
  | .observeEmpty i =>
    match f.drains i with
    | .draining k (q :: rest) ok =>
      if (f.queues q).queue.isEmpty then
        some { f with drains := Function.update f.drains i (.draining k rest ok) }
      else none
    | _ => none
  | .deadline i =>
    match f.drains i with
    | .draining k (q :: rest) _ =>
      if (f.queues q).queue.isEmpty then none
      else some { f with drains := Function.update f.drains i (.draining k rest false) }
    | _ => none
  | .drainReturn i =>
    match f.drains i with
    | .draining k [] ok =>
      some { f with drains := Function.update f.drains i (.returned k ok) }
    | _ => none

/-- The fleet as a machine. -/
def Fleet.machine (c : ν → Config τ) : Machine (Fleet ν τ) (FleetLabel ν τ) :=
  ⟨Fleet.step c⟩

/-- The branches of `Fleet.step`. -/
inductive FleetMoves (c : ν → Config τ) (f : Fleet ν τ) : FleetLabel ν τ → Fleet ν τ → Prop where
  | queue (q : ν) (l : Label τ) (s : State τ) (hl : l.isStop = false)
      (hs : Moves (c q) (f.queues q) l s) :
    FleetMoves c f (.queue q l) { f with queues := Function.update f.queues q s }
  | drainCall (i : ℕ) (qs : List ν) (hi : f.drains i = .idle) :
    FleetMoves c f (.drainCall i qs) { f with
      drains := Function.update f.drains i
        (.draining ⟨qs, fun q => (f.queues q).accepted⟩ qs true) }
  | observeEmpty (i : ℕ) (k : DrainCall ν τ) (q : ν) (rest : List ν) (ok : Bool)
      (hi : f.drains i = .draining k (q :: rest) ok) (hq : (f.queues q).queue = []) :
    FleetMoves c f (.observeEmpty i) { f with
      drains := Function.update f.drains i (.draining k rest ok) }
  | deadline (i : ℕ) (k : DrainCall ν τ) (q : ν) (rest : List ν) (ok : Bool)
      (hi : f.drains i = .draining k (q :: rest) ok) :
    FleetMoves c f (.deadline i) { f with
      drains := Function.update f.drains i (.draining k rest false) }
  | drainReturn (i : ℕ) (k : DrainCall ν τ) (ok : Bool)
      (hi : f.drains i = .draining k [] ok) :
    FleetMoves c f (.drainReturn i) { f with
      drains := Function.update f.drains i (.returned k ok) }

/-- **Inversion**: every step is one of the listed moves. -/
theorem fleetMoves_of_step {c : ν → Config τ} {f g : Fleet ν τ} {l : FleetLabel ν τ}
    (h : (Fleet.machine c).step f l = some g) : FleetMoves c f l g := by
  change Fleet.step c f l = some g at h
  cases l with
  | queue q l =>
    simp only [Fleet.step] at h
    split at h
    · cases h
    · next hl =>
      obtain ⟨s, hs, rfl⟩ := Option.map_eq_some_iff.mp h
      exact .queue q l s (by simpa using hl) (moves_of_step hs)
  | drainCall i qs =>
    simp only [Fleet.step] at h
    split at h
    · next hi =>
      obtain rfl := Option.some.inj h
      exact .drainCall i qs hi
    · cases h
  | observeEmpty i =>
    simp only [Fleet.step] at h
    split at h
    · next k q rest ok hi =>
      split at h
      · next hq =>
        obtain rfl := Option.some.inj h
        exact .observeEmpty i k q rest ok hi (by simpa using hq)
      · cases h
    · cases h
  | deadline i =>
    simp only [Fleet.step] at h
    split at h
    · next k q rest ok hi =>
      split at h
      · cases h
      · obtain rfl := Option.some.inj h
        exact .deadline i k q rest ok hi
    · cases h
  | drainReturn i =>
    simp only [Fleet.step] at h
    split at h
    · next k ok hi =>
      obtain rfl := Option.some.inj h
      exact .drainReturn i k ok hi
    · cases h

/-! ## One running queue -/

/-- A queue nobody has stopped: its executor accepts every task. -/
structure Running (s : State τ) : Prop where
  /-- the tasks are accounted for -/
  wf : Wf s
  /-- the executor is up -/
  up : s.shutdown = false
  /-- so nothing is lost -/
  lost_nil : s.lost = []

theorem running_init : Running (init : State τ) :=
  ⟨wf_init, rfl, rfl⟩

/-- Steps other than those of `stop()` keep a queue running. -/
theorem Running.step {c : Config τ} {s t : State τ} {l : Label τ} (hs : Running s)
    (hl : l.isStop = false) (h : Moves c s l t) : Running t := by
  refine ⟨hs.wf.step h, ?_, ?_⟩
  · cases h with
    | shutdown i k hi => cases hl
    | _ => exact hs.up
  · cases h with
    | lose t hc hdown =>
      rw [hs.up] at hdown
      cases hdown
    | _ => exact hs.lost_nil

/-- Accepted tasks stay accepted. -/
theorem accepted_prefix_step {c : Config τ} {s t : State τ} {l : Label τ} (h : Moves c s l t) :
    s.accepted <+: t.accepted := by
  cases h with
  | accept fn hfull => exact List.prefix_append _ _
  | _ => exact List.prefix_rfl

/-- Tasks given to the executor stay given. -/
theorem handed_prefix_step {c : Config τ} {s t : State τ} {l : Label τ} (h : Moves c s l t) :
    s.handed <+: t.handed := by
  cases h with
  | handOver t hc hdown => exact List.prefix_append _ _
  | _ => exact List.prefix_rfl

/-! ## The guard and the invariant -/

/-- Whenever the step sees a queue empty, that queue's consumer is not holding
a task accepted before the call. -/
def HandClear (f : Fleet ν τ) (l : FleetLabel ν τ) : Prop :=
  ∀ i k q rest ok, l = .observeEmpty i → f.drains i = .draining k (q :: rest) ok →
    ∀ t, (f.queues q).consumer = .holding t → t ∉ k.marks q

/-- Every task of the queue accepted before the call has been submitted to the
executor. -/
def Delivered (queues : ν → State τ) (k : DrainCall ν τ) (q : ν) : Prop :=
  ∀ t ∈ k.marks q, t ∈ (queues q).handed

/-- What a drain call that still has the queues `rest` to go has achieved. -/
structure Draining (queues : ν → State τ) (k : DrainCall ν τ) (rest : List ν) (ok : Bool) :
    Prop where
  /-- the marks stay among the accepted tasks -/
  marks_accepted : ∀ q, k.marks q <+: (queues q).accepted
  /-- if no deadline was missed, a queue that is done was delivered -/
  done : ok = true → ∀ q ∈ k.queues, q ∈ rest ∨ Delivered queues k q

/-- The invariant of a drain call. -/
def Drain.Inv (queues : ν → State τ) : Drain ν τ → Prop
  | .idle => True
  | .draining k rest ok => Draining queues k rest ok
  | .returned k ok => Draining queues k [] ok

/-- The invariant of the fleet. -/
structure FleetInv (f : Fleet ν τ) : Prop where
  /-- every queue is running -/
  running : ∀ q, Running (f.queues q)
  /-- every drain call -/
  drains : ∀ i, (f.drains i).Inv f.queues

omit [DecidableEq ν] in
theorem fleetInv_init : FleetInv (Fleet.init : Fleet ν τ) :=
  ⟨fun _ => running_init, fun _ => trivial⟩

/-- A step of one queue keeps what a drain call has achieved. -/
theorem Draining.queue_step {c : Config τ} {queues : ν → State τ} {k : DrainCall ν τ}
    {rest : List ν} {ok : Bool} {q : ν} {l : Label τ} {s : State τ}
    (hk : Draining queues k rest ok) (h : Moves c (queues q) l s) :
    Draining (Function.update queues q s) k rest ok := by
  refine ⟨?_, ?_⟩
  · intro p
    by_cases hpq : p = q
    · subst hpq
      rw [Function.update_self]
      exact (hk.marks_accepted p).trans (accepted_prefix_step h)
    · rw [Function.update_of_ne hpq]
      exact hk.marks_accepted p
  · intro hok p hp
    rcases hk.done hok p hp with hrest | hdone
    · exact Or.inl hrest
    · apply Or.inr
      intro t ht
      by_cases hpq : p = q
      · subst hpq
        rw [Function.update_self]
        exact (handed_prefix_step h).subset (hdone t ht)
      · rw [Function.update_of_ne hpq]
        exact hdone t ht

omit [DecidableEq ν] in
/-- Seen empty with a clear hand, a queue has delivered what it had accepted. -/
theorem delivered_of_empty {queues : ν → State τ} {k : DrainCall ν τ} {q : ν}
    (hq : Running (queues q)) (hmarks : k.marks q <+: (queues q).accepted)
    (hempty : (queues q).queue = [])
    (hclear : ∀ t, (queues q).consumer = .holding t → t ∉ k.marks q) : Delivered queues k q := by
  intro t ht
  have hmem : t ∈ (queues q).accepted := hmarks.subset ht
  rw [hq.wf.conserve, hq.lost_nil, hempty, List.append_nil, List.append_nil] at hmem
  rcases List.mem_append.mp hmem with hhanded | hhand
  · exact hhanded
  · exfalso
    rcases hc : (queues q).consumer with _ | _ | _ | _ | t' | _
    case holding =>
      rw [hc] at hhand
      obtain rfl := List.mem_singleton.mp hhand
      exact hclear t hc ht
    all_goals
      rw [hc] at hhand
      exact absurd hhand List.not_mem_nil

omit [DecidableEq ν] in
/-- Moving one drain call on keeps the others. -/
theorem FleetInv.advance {f : Fleet ν τ} (hf : FleetInv f) {i : ℕ} {d : Drain ν τ}
    (hd : d.Inv f.queues) : FleetInv { f with drains := Function.update f.drains i d } := by
  refine ⟨hf.running, ?_⟩
  intro j
  by_cases hij : j = i
  · subst hij
    simpa using hd
  · simpa [hij] using hf.drains j

/-- Every step that meets the guard keeps the invariant. -/
theorem FleetInv.step {c : ν → Config τ} {f g : Fleet ν τ} {l : FleetLabel ν τ}
    (hf : FleetInv f) (hG : HandClear f l) (h : FleetMoves c f l g) : FleetInv g := by
  cases h with
  | queue q l s hl hs =>
    refine ⟨?_, ?_⟩
    · intro p
      by_cases hpq : p = q
      · subst hpq
        simpa using (hf.running p).step hl hs
      · simpa [hpq] using hf.running p
    · intro i
      have hi := hf.drains i
      change (f.drains i).Inv _
      rcases hd : f.drains i with _ | ⟨k, rest, ok⟩ | ⟨k, ok⟩
      · trivial
      · rw [hd] at hi
        exact Draining.queue_step hi hs
      · rw [hd] at hi
        exact Draining.queue_step hi hs
  | drainCall i qs hi =>
    exact hf.advance ⟨fun q => List.prefix_rfl, fun _ q hq => Or.inl hq⟩
  | observeEmpty i k q rest ok hi hq =>
    have hk := hf.drains i
    rw [hi] at hk
    refine hf.advance ⟨hk.marks_accepted, ?_⟩
    intro hok p hp
    rcases hk.done hok p hp with hmem | hdone
    · rcases List.mem_cons.mp hmem with rfl | hmem
      · exact Or.inr (delivered_of_empty (hf.running p) (hk.marks_accepted p) hq
          (hG i k p rest ok rfl hi))
      · exact Or.inl hmem
    · exact Or.inr hdone
  | deadline i k q rest ok hi =>
    have hk := hf.drains i
    rw [hi] at hk
    exact hf.advance ⟨hk.marks_accepted, by simp⟩
  | drainReturn i k ok hi =>
    have hk := hf.drains i
    rw [hi] at hk
    exact hf.advance hk

/-- **A successful drain means delivered, where it does.** In every run in
which a queue is only ever seen empty while its consumer holds no task accepted
before the call: when `drain()` or `drain_all()` has returned `True`, every
task that the drained queues had accepted before the call has been submitted to
their executors. -/
theorem drain_delivers_of_handClear {c : ν → Config τ} {ls : List (FleetLabel ν τ)}
    {f : Fleet ν τ} (hG : (Fleet.machine c).Meets HandClear Fleet.init ls)
    (h : (Fleet.machine c).run Fleet.init ls = some f) {i : ℕ} {k : DrainCall ν τ}
    (hi : f.drains i = .returned k true) :
    ∀ q ∈ k.queues, ∀ t ∈ k.marks q, t ∈ (f.queues q).handed := by
  have hf : FleetInv f :=
    Machine.run_invariant (fun hI hG hstep => hI.step hG (fleetMoves_of_step hstep))
      fleetInv_init hG h
  have hk := hf.drains i
  rw [hi] at hk
  intro q hq
  rcases hk.done rfl q hq with hnil | hdone
  · exact absurd hnil List.not_mem_nil
  · exact hdone

/-- One queue with room for two tasks and one worker. -/
def oneQueue : Unit → Config Unit := fun _ =>
  { maxInFlight := 2, maxWorkers := 1, body := fun _ => .returned }

/-- A task is accepted and the consumer takes it out of the queue; before it
reaches the executor, `drain()` looks. -/
def earlyDrainRun : List (FleetLabel Unit Unit) :=
  [.queue () (.submit ()), .queue () .consume, .queue () .consume, .drainCall 0 [()],
    .observeEmpty 0, .drainReturn 0]

/-- In `earlyDrainRun` `drain()` returns `True` with the task still in the
consumer's hand. -/
theorem drain_misses_task_in_hand :
    ¬ ∀ (c : Unit → Config Unit) (ls : List (FleetLabel Unit Unit)) (f : Fleet Unit Unit) (i : ℕ)
      (k : DrainCall Unit Unit), (Fleet.machine c).run Fleet.init ls = some f →
      f.drains i = .returned k true → ∀ q ∈ k.queues, ∀ t ∈ k.marks q, t ∈ (f.queues q).handed := by
  intro halways
  have hmem := halways oneQueue earlyDrainRun _ 0 ⟨[()], fun _ => [⟨0, ()⟩]⟩ rfl rfl ()
    (List.mem_singleton.mpr rfl) ⟨0, ()⟩ (List.mem_singleton.mpr rfl)
  exact absurd hmem List.not_mem_nil

/-- The same, with the look after the hand-over. -/
def lateDrainRun : List (FleetLabel Unit Unit) :=
  [.queue () (.submit ()), .queue () .consume, .queue () .consume, .drainCall 0 [()],
    .queue () .consume, .observeEmpty 0, .drainReturn 0]

/-- In `lateDrainRun` the task has been submitted when `drain()` has returned. -/
theorem drain_delivers_task :
    ∃ f, (Fleet.machine oneQueue).run Fleet.init lateDrainRun = some f ∧
      (⟨0, ()⟩ : Task Unit) ∈ (f.queues ()).handed := by
  refine ⟨_, rfl, ?_⟩
  have hG : (Fleet.machine oneQueue).Meets HandClear Fleet.init lateDrainRun := by
    simp [lateDrainRun, oneQueue, Machine.Meets, HandClear, Fleet.machine, Fleet.step, Fleet.init,
      step, consume, init, Config.full, Label.isStop]
  exact drain_delivers_of_handClear (i := 0) (k := ⟨[()], fun _ => [⟨0, ()⟩]⟩) hG rfl rfl ()
    (List.mem_singleton.mpr rfl) ⟨0, ()⟩ (List.mem_singleton.mpr rfl)

end FireAndForget

end DjangoBoilerplate
