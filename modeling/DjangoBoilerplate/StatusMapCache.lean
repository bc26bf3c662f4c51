import DjangoBoilerplate.ExceptionHandler
import DjangoBoilerplate.Machine

/-!
# The status map under threads

`register_exception_mapping` and `_get_status_map` of `apps/core/exceptions/handler.py`,
called by any number of threads. A registration takes the lock, appends, invalidates the
cache and releases the lock; a lookup reads the cache without the lock and, if there is
none, takes the lock and rebuilds it. Each of these is a step of its own, so the unlocked
read may fall anywhere, also between an append and the invalidation that follows it.

What makes the unlocked read safe is that a tuple in the cache is never behind: it is a
prefix of the builder that holds every registration that has returned (`Table`). A lookup
can only see more than what had returned when it began (`coherent_of_run`).
-/

namespace DjangoBoilerplate

namespace ExceptionHandler

universe u

namespace Threads

variable {κ : Type u}

/-- Where a call is. A lookup remembers the mappings whose registration had returned when
it began. -/
inductive Phase (κ : Type u) : Type u where
  /-- not called yet -/
  | idle : Phase κ
  /-- a registration that waits for the lock -/
  | registering (m : Mapping κ) : Phase κ
  /-- it holds the lock -/
  | appending (m : Mapping κ) : Phase κ
  /-- it has appended its mapping -/
  | invalidating (m : Mapping κ) : Phase κ
  /-- it has invalidated the cache -/
  | releasing (m : Mapping κ) : Phase κ
  /-- it has returned -/
  | registered (m : Mapping κ) : Phase κ
  /-- a lookup about to read the cache -/
  | reading (since : List (Mapping κ)) : Phase κ
  /-- it found `None`, and waits for the lock -/
  | blocked (since : List (Mapping κ)) : Phase κ
  /-- it holds the lock -/
  | checking (since : List (Mapping κ)) : Phase κ
  /-- it has rebuilt the cache, if that was still `None` -/
  | loading (since : List (Mapping κ)) : Phase κ
  /-- it has read what it returns -/
  | leaving (since : List (Mapping κ)) (result : Option (List (Mapping κ))) : Phase κ
  /-- it has returned -/
  | returned (since : List (Mapping κ)) (result : Option (List (Mapping κ))) : Phase κ

/-- The calls that hold the lock. -/
def Phase.locking : Phase κ → Bool
  | .appending _ | .invalidating _ | .releasing _ => true
  | .checking _ | .loading _ | .leaving _ _ => true
  | _ => false

/-- What had returned when a lookup began. -/
def Phase.since : Phase κ → Option (List (Mapping κ))
  | .reading since | .blocked since | .checking since | .loading since => some since
  | .leaving since _ | .returned since _ => some since
  | _ => none

/-- The module's globals and the calls. -/
structure State (κ : Type u) : Type u where
  /-- the builder and the cache -/
  registry : StatusMap κ
  /-- who holds `_status_map_lock` -/
  lock : Option ℕ
  /-- where each call is -/
  phase : ℕ → Phase κ
  /-- history: the mappings of the registrations that have returned, in order -/
  completed : List (Mapping κ)

/-- One step. -/
inductive Label (κ : Type u) : Type u where
  /-- `register_exception_mapping` is called -/
  | callRegister (i : ℕ) (m : Mapping κ) : Label κ
  /-- `_get_status_map` is called -/
  | callGet (i : ℕ) : Label κ
  /-- a call goes on -/
  | advance (i : ℕ) : Label κ

/-- Before the import registers anything. -/
def State.init : State κ where
  registry := .empty
  lock := none
  phase := fun _ => .idle
  completed := []

/-- Move call `i` to the phase `p`. -/
def State.goto (s : State κ) (i : ℕ) (p : Phase κ) : State κ :=
  { s with phase := Function.update s.phase i p }

/-- The call `i` takes the lock, if it is free. -/
def State.acquire (s : State κ) (i : ℕ) (p : Phase κ) : Option (State κ) :=
  match s.lock with
  | none => some (State.goto { s with lock := some i } i p)
  | some _ => none

/-- A call goes on. -/
def advance (s : State κ) (i : ℕ) : Option (State κ) :=
  match s.phase i with
  | .registering m => s.acquire i (.appending m)
  | .appending m =>
    let registry := { s.registry with builder := s.registry.builder ++ [m] }
    some (State.goto { s with registry := registry } i (.invalidating m))
  | .invalidating m =>
    let registry := { s.registry with cache := none }
    some (State.goto { s with registry := registry } i (.releasing m))
  | .releasing m =>
    some (State.goto { s with lock := none, completed := s.completed ++ [m] } i (.registered m))
  | .reading since =>
    match s.registry.cache with
    | some cached => some (s.goto i (.returned since (some cached)))
    | none => some (s.goto i (.blocked since))
  | .blocked since => s.acquire i (.checking since)
  | .checking since =>
    -- `if _CUSTOM_STATUS_MAP is None`
    let registry := { s.registry with cache := s.registry.cache.or (some s.registry.builder) }
    some (State.goto { s with registry := registry } i (.loading since))
  | .loading since => some (s.goto i (.leaving since s.registry.cache))
  | .leaving since result => some (State.goto { s with lock := none } i (.returned since result))
  | .idle | .registered _ | .returned _ _ => none

/-- The step function. -/
def step (s : State κ) : Label κ → Option (State κ)
  | .callRegister i m =>
    match s.phase i with
    | .idle => some (s.goto i (.registering m))
    | _ => none
  | .callGet i =>
    match s.phase i with
    | .idle => some (s.goto i (.reading s.completed))
    | _ => none
  | .advance i => advance s i

/-- The threads. -/
def machine : Machine (State κ) (Label κ) where
  step := step

/-! ## The invariant -/

/-- Nothing is under way: every mapping's registration has returned, and the cache is
`None` or the builder. -/
def Settled (registry : StatusMap κ) (completed : List (Mapping κ)) : Prop :=
  completed = registry.builder ∧ registry.Fresh

/-- A tuple in the cache is a prefix of the builder that is not behind. -/
structure Table (registry : StatusMap κ) (completed : List (Mapping κ)) : Prop where
  completed_builder : completed <+: registry.builder
  completed_cache : ∀ {t}, registry.cache = some t → completed <+: t
  cache_builder : ∀ {t}, registry.cache = some t → t <+: registry.builder

/-- What a call knows of the registry. -/
def Phase.Holds (registry : StatusMap κ) (completed : List (Mapping κ)) : Phase κ → Prop
  | .idle | .registering _ => True
  | .appending _ => Settled registry completed
  | .invalidating m => registry.builder = completed ++ [m]
  | .releasing m => registry.builder = completed ++ [m] ∧ registry.cache = none
  | .registered m => m ∈ completed
  | .reading since | .blocked since => since <+: completed
  | .checking since => since <+: completed ∧ Settled registry completed
  | .loading since =>
    since <+: completed ∧ Settled registry completed ∧ registry.cache = some registry.builder
  | .leaving since result =>
    since <+: completed ∧ Settled registry completed ∧ result = some registry.builder
  | .returned since result => ∃ t, result = some t ∧ since <+: t ∧ t <+: registry.builder

/-- The invariant of every run. -/
structure Coherent (s : State κ) : Prop where
  table : Table s.registry s.completed
  settled : s.lock = none → Settled s.registry s.completed
  holder : ∀ i, s.lock = some i ↔ (s.phase i).locking = true
  holds : ∀ i, (s.phase i).Holds s.registry s.completed

theorem coherent_init : Coherent (State.init : State κ) where
  table :=
    { completed_builder := List.prefix_refl []
      completed_cache := fun h => by cases h
      cache_builder := fun h => by cases h }
  settled := fun _ => ⟨rfl, Or.inl rfl⟩
  holder := fun i => by simp [State.init, Phase.locking]
  holds := fun _ => trivial

theorem Settled.table {registry : StatusMap κ} {completed : List (Mapping κ)}
    (h : Settled registry completed) : Table registry completed := by
  obtain ⟨rfl, hfresh⟩ := h
  have hcache : ∀ {t}, registry.cache = some t → t = registry.builder := by
    intro t ht
    rcases hfresh with hnone | hsome
    · rw [hnone] at ht
      cases ht
    · exact Option.some.inj (ht.symm.trans hsome)
  exact
    { completed_builder := List.prefix_refl _
      completed_cache := fun ht => by rw [hcache ht]
      cache_builder := fun ht => by rw [hcache ht] }

/-- What a call without the lock knows stays true while the registry grows. -/
theorem Phase.Holds.mono {registry registry' : StatusMap κ}
    {completed completed' : List (Mapping κ)} (hcompleted : completed <+: completed')
    (hbuilder : registry.builder <+: registry'.builder) {p : Phase κ} (hp : p.locking = false)
    (h : p.Holds registry completed) :
    p.Holds registry' completed' := by
  cases p with
  | idle => trivial
  | registering m => trivial
  | registered m => exact hcompleted.subset h
  | reading since => exact h.trans hcompleted
  | blocked since => exact h.trans hcompleted
  | returned since result =>
    obtain ⟨t, ht, hsince, hprefix⟩ := h
    exact ⟨t, ht, hsince, hprefix.trans hbuilder⟩
  | appending m | invalidating m | releasing m | checking m | loading m | leaving m result =>
    cases hp

/-- A step of the call `i` keeps the invariant if it leaves the registry alone or holds
the lock, and its new phase is in order. -/
theorem Coherent.move {s t : State κ} (h : Coherent s) {i : ℕ} {p : Phase κ}
    (hphase : t.phase = Function.update s.phase i p)
    (hothers : ∀ j, j ≠ i → (t.lock = some j ↔ s.lock = some j))
    (hself : t.lock = some i ↔ p.locking = true)
    (hframe : (t.registry = s.registry ∧ t.completed = s.completed) ∨
      (s.lock = some i ∧ s.completed <+: t.completed ∧
        s.registry.builder <+: t.registry.builder))
    (htable : Table t.registry t.completed)
    (hsettled : t.lock = none → Settled t.registry t.completed)
    (hp : p.Holds t.registry t.completed) : Coherent t where
  table := htable
  settled := hsettled
  holder := by
    intro j
    rw [hphase]
    rcases eq_or_ne j i with rfl | hne
    · rw [Function.update_self, hself]
    · rw [Function.update_of_ne hne, hothers j hne, h.holder j]
  holds := by
    intro j
    rw [hphase]
    rcases eq_or_ne j i with rfl | hne
    · rw [Function.update_self]
      exact hp
    · rw [Function.update_of_ne hne]
      rcases hframe with ⟨hregistry, hcompleted⟩ | ⟨hlock, hcompleted, hbuilder⟩
      · rw [hregistry, hcompleted]
        exact h.holds j
      · -- `i` holds the lock, so `j` does not
        have hfree : (s.phase j).locking = false := by
          rw [Bool.eq_false_iff]
          intro hj
          have heq : some i = some j := hlock.symm.trans ((h.holder j).mpr hj)
          exact hne (Option.some.inj heq).symm
        exact (h.holds j).mono hcompleted hbuilder hfree

/-- A step that only moves the call, and neither takes nor releases the lock. -/
theorem Coherent.goto {s : State κ} (h : Coherent s) {i : ℕ} {p : Phase κ}
    (hlocking : p.locking = (s.phase i).locking) (hp : p.Holds s.registry s.completed) :
    Coherent (s.goto i p) :=
  h.move rfl (fun _ _ => Iff.rfl) (by rw [hlocking]; exact h.holder i) (Or.inl ⟨rfl, rfl⟩) h.table
    h.settled hp

/-- Whoever takes the lock finds nothing under way. -/
theorem Coherent.acquire {s t : State κ} (h : Coherent s) {i : ℕ} {p : Phase κ}
    (hacquire : s.acquire i p = some t) (hlocking : p.locking = true)
    (hp : Settled s.registry s.completed → p.Holds s.registry s.completed) : Coherent t := by
  cases hlock : s.lock with
  | some j => simp [State.acquire, hlock] at hacquire
  | none =>
    simp only [State.acquire, hlock, Option.some.injEq] at hacquire
    subst hacquire
    refine h.move rfl ?_ ?_ (Or.inl ⟨rfl, rfl⟩) h.table ?_ (hp (h.settled hlock))
    · intro j hne
      simpa [State.goto, hlock] using hne.symm
    · simp [State.goto, hlocking]
    · intro hnone
      simp [State.goto] at hnone

/-- A step that changes the registry under the lock and keeps the lock. -/
theorem Coherent.update {s : State κ} (h : Coherent s) {i : ℕ} {p : Phase κ}
    {registry : StatusMap κ} (hlock : s.lock = some i) (hlocking : p.locking = true)
    (hbuilder : s.registry.builder <+: registry.builder) (htable : Table registry s.completed)
    (hp : p.Holds registry s.completed) :
    Coherent (State.goto { s with registry := registry } i p) := by
  refine h.move rfl (fun _ _ => Iff.rfl) ?_ (Or.inr ⟨hlock, List.prefix_refl _, hbuilder⟩) htable
    ?_ hp
  · simp [State.goto, hlock, hlocking]
  · intro hnone
    simp [State.goto, hlock] at hnone

/-- A step that releases the lock, with nothing under way. -/
theorem Coherent.release {s : State κ} (h : Coherent s) {i : ℕ} {p : Phase κ}
    {completed : List (Mapping κ)} (hlock : s.lock = some i) (hlocking : p.locking = false)
    (hcompleted : s.completed <+: completed) (hsettled : Settled s.registry completed)
    (hp : p.Holds s.registry completed) :
    Coherent (State.goto { s with lock := none, completed := completed } i p) := by
  refine h.move rfl ?_ ?_ (Or.inr ⟨hlock, hcompleted, List.prefix_refl _⟩) hsettled.table
    (fun _ => hsettled) hp
  · intro j hne
    simpa [State.goto, hlock] using hne.symm
  · simp [State.goto, hlocking]

theorem Coherent.advance {s t : State κ} (h : Coherent s) {i : ℕ}
    (hstep : advance s i = some t) : Coherent t := by
  have hholds := h.holds i
  have hlock := (h.holder i).mpr
  cases hphase : s.phase i with
  | idle | registered m | returned m result => simp [Threads.advance, hphase] at hstep
  | registering m =>
    simp only [Threads.advance, hphase] at hstep
    exact h.acquire hstep rfl id
  | blocked since =>
    simp only [Threads.advance, hphase] at hstep
    rw [hphase] at hholds
    exact h.acquire hstep rfl fun hsettled => ⟨hholds, hsettled⟩
  | appending m =>
    rw [hphase] at hholds hlock
    obtain ⟨hcompleted, hfresh⟩ := hholds
    obtain rfl : _ = t := by simpa [Threads.advance, hphase] using hstep
    refine h.update (hlock rfl) rfl (List.prefix_append _ _) ?_ ?_
    · -- the cache is as it was, and the builder has grown
      exact
        { completed_builder := h.table.completed_builder.trans (List.prefix_append _ _)
          completed_cache := h.table.completed_cache
          cache_builder := fun ht => (h.table.cache_builder ht).trans (List.prefix_append _ _) }
    · exact congrArg (· ++ [m]) hcompleted.symm
  | invalidating m =>
    rw [hphase] at hholds hlock
    obtain rfl : _ = t := by simpa [Threads.advance, hphase] using hstep
    refine h.update (hlock rfl) rfl (List.prefix_refl _) ?_ ⟨hholds, rfl⟩
    exact
      { completed_builder := h.table.completed_builder
        completed_cache := fun ht => by cases ht
        cache_builder := fun ht => by cases ht }
  | releasing m =>
    rw [hphase] at hholds hlock
    obtain ⟨hbuilder, hcache⟩ := hholds
    obtain rfl : _ = t := by simpa [Threads.advance, hphase] using hstep
    refine h.release (hlock rfl) rfl (List.prefix_append _ _) ⟨hbuilder.symm, Or.inl hcache⟩ ?_
    exact List.mem_append_right _ (List.mem_singleton_self m)
  | reading since =>
    rw [hphase] at hholds
    -- the unlocked read: a tuple it finds is not behind what had returned at any time before
    cases hcache : s.registry.cache with
    | some cached =>
      obtain rfl : _ = t := by simpa [Threads.advance, hphase, hcache] using hstep
      refine h.goto (by rw [hphase]; rfl) ⟨cached, rfl, ?_, h.table.cache_builder hcache⟩
      exact hholds.trans (h.table.completed_cache hcache)
    | none =>
      obtain rfl : _ = t := by simpa [Threads.advance, hphase, hcache] using hstep
      exact h.goto (by rw [hphase]; rfl) hholds
  | checking since =>
    rw [hphase] at hholds hlock
    obtain ⟨hsince, hcompleted, hfresh⟩ := hholds
    obtain rfl : _ = t := by simpa [Threads.advance, hphase] using hstep
    have hcache : s.registry.cache.getD s.registry.builder = s.registry.builder := by
      rcases hfresh with hnone | hsome
      · rw [hnone, Option.getD_none]
      · rw [hsome, Option.getD_some]
    rw [hcache]
    have hsettled : Settled { s.registry with cache := some s.registry.builder } s.completed :=
      ⟨hcompleted, Or.inr rfl⟩
    exact h.update (hlock rfl) rfl (List.prefix_refl _) hsettled.table ⟨hsince, hsettled, rfl⟩
  | loading since =>
    rw [hphase] at hholds
    obtain ⟨hsince, hsettled, hcache⟩ := hholds
    obtain rfl : _ = t := by simpa [Threads.advance, hphase] using hstep
    exact h.goto (by rw [hphase]; rfl) ⟨hsince, hsettled, hcache⟩
  | leaving since result =>
    rw [hphase] at hholds hlock
    obtain ⟨hsince, hsettled, hresult⟩ := hholds
    obtain rfl : _ = t := by simpa [Threads.advance, hphase] using hstep
    refine h.release (hlock rfl) rfl (List.prefix_refl _) hsettled ⟨_, hresult, ?_, ?_⟩
    · exact hsince.trans h.table.completed_builder
    · exact List.prefix_refl _

theorem Coherent.step {s t : State κ} (h : Coherent s) {l : Label κ}
    (hstep : machine.step s l = some t) : Coherent t := by
  cases l with
  | callRegister i m =>
    simp only [machine, Threads.step] at hstep
    split at hstep
    next hphase =>
      obtain rfl := Option.some.inj hstep
      exact h.goto (by rw [hphase]; rfl) trivial
    next => cases hstep
  | callGet i =>
    simp only [machine, Threads.step] at hstep
    split at hstep
    next hphase =>
      obtain rfl := Option.some.inj hstep
      exact h.goto (by rw [hphase]; rfl) (List.prefix_refl _)
    next => cases hstep
  | advance i => exact h.advance hstep

theorem coherent_of_run {ls : List (Label κ)} {s : State κ}
    (hrun : machine.run State.init ls = some s) : Coherent s :=
  Machine.run_invariant' (fun h hstep => h.step hstep) coherent_init hrun

/-! ## What a lookup remembers -/

theorem phase_acquire {s t : State κ} {i : ℕ} {p : Phase κ} (h : s.acquire i p = some t) :
    t.phase = Function.update s.phase i p := by
  cases hlock : s.lock with
  | some j => simp [State.acquire, hlock] at h
  | none =>
    simp only [State.acquire, hlock, Option.some.injEq] at h
    subst h
    rfl

/-- A step moves one call, and a call that goes on remembers what it did. -/
theorem moves_of_advance {s t : State κ} {i : ℕ} (hstep : advance s i = some t) :
    ∃ p, t.phase = Function.update s.phase i p ∧ p.since = (s.phase i).since := by
  cases hphase : s.phase i with
  | idle | registered m | returned m result => simp [advance, hphase] at hstep
  | registering m | blocked m =>
    simp only [advance, hphase] at hstep
    exact ⟨_, phase_acquire hstep, rfl⟩
  | reading since =>
    simp only [advance, hphase] at hstep
    split at hstep
    · obtain rfl := Option.some.inj hstep
      exact ⟨_, rfl, rfl⟩
    · obtain rfl := Option.some.inj hstep
      exact ⟨_, rfl, rfl⟩
  | appending m | invalidating m | releasing m | checking m | loading m | leaving m result =>
    simp only [advance, hphase] at hstep
    obtain rfl := Option.some.inj hstep
    exact ⟨_, rfl, rfl⟩

/-- Once a lookup has begun, what it remembers does not change. -/
theorem since_step {s t : State κ} {l : Label κ} {i : ℕ} {since : List (Mapping κ)}
    (h : (s.phase i).since = some since) (hstep : machine.step s l = some t) :
    (t.phase i).since = some since := by
  cases l with
  | callRegister j m =>
    simp only [machine, Threads.step] at hstep
    split at hstep
    next hphase =>
      obtain rfl := Option.some.inj hstep
      have hne : i ≠ j := fun heq => by simp [heq, hphase, Phase.since] at h
      simpa [State.goto, hne] using h
    next => cases hstep
  | callGet j =>
    simp only [machine, Threads.step] at hstep
    split at hstep
    next hphase =>
      obtain rfl := Option.some.inj hstep
      have hne : i ≠ j := fun heq => by simp [heq, hphase, Phase.since] at h
      simpa [State.goto, hne] using h
    next => cases hstep
  | advance j =>
    obtain ⟨p, hphase, hsince⟩ := moves_of_advance hstep
    rw [hphase]
    rcases eq_or_ne i j with rfl | hne
    · rw [Function.update_self, hsince, h]
    · rw [Function.update_of_ne hne, h]

/-- A lookup remembers what had returned when it began. -/
theorem since_of_run {s t : State κ} {ls : List (Label κ)} {i : ℕ}
    (hrun : machine.run s (.callGet i :: ls) = some t) :
    (t.phase i).since = some s.completed := by
  obtain ⟨m, hcall, hrest⟩ := Machine.run_cons_eq_some hrun
  have hbegin : (m.phase i).since = some s.completed := by
    simp only [machine, Threads.step] at hcall
    split at hcall
    next hphase =>
      obtain rfl := Option.some.inj hcall
      simp [State.goto, Phase.since]
    next => cases hcall
  exact Machine.run_invariant' (I := fun s' => (s'.phase i).since = some s.completed)
    (fun h hstep => since_step h hstep) hbegin hrest

/-! ## The cache is coherent -/

/-- In any interleaving, whenever the lock is free the cache is `None` or the builder, and
what a lookup returned is a prefix of the registration order that holds every registration
that had returned when the lookup began. -/
theorem statusMap_coherent {ls : List (Label κ)} {s : State κ}
    (hrun : machine.run State.init ls = some s) :
    (s.lock = none → s.registry.cache = none ∨ s.registry.cache = some s.registry.builder) ∧
      ∀ (before after : List (Label κ)) (i : ℕ) (mid : State κ),
        ls = before ++ .callGet i :: after → machine.run State.init before = some mid →
        ∀ since result, s.phase i = .returned since result →
          ∃ t, result = some t ∧ t <+: s.registry.builder ∧ mid.completed <+: t ∧
            ∀ j m, mid.phase j = .registered m → m ∈ t := by
  have hcoherent : Coherent s := coherent_of_run hrun
  refine ⟨?_, ?_⟩
  · intro hlock
    obtain ⟨-, hfresh⟩ := hcoherent.settled hlock
    exact hfresh
  · intro before after i mid hls hmid since result hphase
    rw [hls] at hrun
    have hsince := since_of_run (Machine.run_of_append hrun hmid)
    have hholds := hcoherent.holds i
    rw [hphase] at hsince hholds
    obtain rfl : since = mid.completed := Option.some.inj hsince
    obtain ⟨t, hresult, hprefix, hbuilder⟩ := hholds
    refine ⟨t, hresult, hbuilder, hprefix, ?_⟩
    intro j m hj
    have hmem := (coherent_of_run hmid).holds j
    rw [hj] at hmem
    exact hprefix.subset hmem

/-- One registration and one lookup that return, and another registration that has
appended its mapping and not yet invalidated the cache. -/
def halfRegistered : List (Label String) :=
  [.callRegister 0 ("S3Exception", 502), .advance 0, .advance 0, .advance 0, .advance 0,
    .callGet 1, .advance 1, .advance 1, .advance 1, .advance 1, .advance 1,
    .callRegister 3 ("ExternalServiceError", 502), .advance 3, .advance 3]

/-- A lookup at that point gets the old tuple, which holds the one registration that had
returned. -/
theorem read_before_invalidation :
    ∃ s : State String,
      machine.run State.init (halfRegistered ++ .callGet 2 :: [.advance 2]) = some s ∧
        s.phase 2 = .returned [("S3Exception", 502)] (some [("S3Exception", 502)]) ∧
        [("S3Exception", 502)] <+: s.registry.builder ∧
        ("S3Exception", 502) ∈ [(("S3Exception", 502) : Mapping String)] := by
  obtain ⟨s, hrun, hphase⟩ : ∃ s : State String,
      machine.run State.init (halfRegistered ++ .callGet 2 :: [.advance 2]) = some s ∧
        s.phase 2 = .returned [("S3Exception", 502)] (some [("S3Exception", 502)]) :=
    ⟨_, rfl, rfl⟩
  obtain ⟨mid, hmid, hregistered⟩ : ∃ mid : State String,
      machine.run State.init halfRegistered = some mid ∧
        mid.phase 0 = .registered ("S3Exception", 502) := ⟨_, rfl, rfl⟩
  obtain ⟨-, hlookup⟩ := statusMap_coherent hrun
  obtain ⟨t, ht, hprefix, -, hmem⟩ := hlookup halfRegistered _ 2 mid rfl hmid _ _ hphase
  obtain rfl := Option.some.inj ht
  exact ⟨s, hrun, hphase, hprefix, hmem 0 _ hregistered⟩

/-! ## A call on its own -/

/-- A registration that nothing interrupts does what `register_exception_mapping` does. -/
theorem run_register_alone {s : State κ} {i : ℕ} (hidle : s.phase i = .idle)
    (hlock : s.lock = none) (m : Mapping κ) :
    ∃ t, machine.run s [.callRegister i m, .advance i, .advance i, .advance i, .advance i] =
        some t ∧
      t.registry = s.registry.registerExceptionMapping m ∧ t.phase i = .registered m := by
  simp [Machine.run, machine, step, advance, State.acquire, State.goto, hidle, hlock,
    StatusMap.registerExceptionMapping]

/-- A lookup that finds no cache and is not interrupted does what `_get_status_map` does. -/
theorem run_get_alone {s : State κ} {i : ℕ} (hidle : s.phase i = .idle) (hlock : s.lock = none)
    (hcache : s.registry.cache = none) :
    ∃ t, machine.run s
        [.callGet i, .advance i, .advance i, .advance i, .advance i, .advance i] = some t ∧
      t.registry = s.registry.getStatusMap.2 ∧
      t.phase i = .returned s.completed (some s.registry.getStatusMap.1) := by
  simp [Machine.run, machine, step, advance, State.acquire, State.goto, hidle, hlock, hcache,
    StatusMap.getStatusMap]

end Threads

end ExceptionHandler

end DjangoBoilerplate
