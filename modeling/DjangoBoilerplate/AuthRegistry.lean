import Mathlib.Data.Char
import Mathlib.Data.List.Lex
import DjangoBoilerplate.Json
import DjangoBoilerplate.Outlines

/-!
# The registry of authentication providers

`apps/core/auth/registry.py`, called by any number of threads: providers are registered and
unregistered while requests ask for the chain of those that the settings name. `enabled_providers`
takes the lock once for each name. A name that nobody has registered is skipped with a warning, the
first time it is found missing; the warning itself is logged after the lock has been released.

A typo never silently disables a provider (`skipped_warned`), and what is registered is never
skipped (`registered_not_skipped`).
-/

namespace DjangoBoilerplate

namespace AuthRegistry

open Outlines

variable {A : Type}

/-! ## The calls -/

/-- What the calls share. -/
structure Memory (A : Type) : Type where
  /-- `_REGISTRY` -/
  registry : List (Str × A)
  /-- `_WARNED_UNKNOWN` -/
  warnedUnknown : List Str
  /-- the warnings: the name, and the names that are registered -/
  log : List (Str × Option (List Str))
  /-- which call has put a name into `_WARNED_UNKNOWN` (not in the source) -/
  claimant : Str → Option ℕ

/-- When the process starts. -/
def Memory.empty : Memory A := ⟨[], [], [], fun _ => none⟩

/-- `enabled_providers` on its way. -/
structure Walk (A : Type) : Type where
  /-- the names it has been through -/
  done : List Str
  /-- the names before it -/
  left : List Str
  /-- `out` -/
  out : List A

/-- A name that the call has looked up. -/
structure Found (A : Type) : Type where
  /-- `name` -/
  name : Str
  /-- `provider` -/
  provider : Option A
  /-- `already_warned` -/
  alreadyWarned : Bool
  /-- `registered_snapshot` -/
  snapshot : Option (List Str)

/-- What the call finds out about a name while it has the lock. -/
def Memory.find (m : Memory A) (name : Str) : Found A where
  name := name
  provider := getItem m.registry name
  alreadyWarned := m.warnedUnknown.contains name
  snapshot :=
    if (getItem m.registry name).isNone then
      some ((keysOf m.registry).mergeSort fun x y => decide (x ≤ y))
    else none

/-- Is there something to warn of? -/
def Found.warns (f : Found A) : Bool := f.provider.isNone && !f.alreadyWarned

/-- Where a call is. -/
inductive Phase (A : Type) : Type where
  /-- not called yet -/
  | idle : Phase A
  /-- `register`, waiting for the lock -/
  | registering (provider : A) : Phase A
  /-- it has the lock -/
  | storing (provider : A) : Phase A
  /-- `unregister`, waiting for the lock -/
  | unregistering (name : Str) : Phase A
  /-- it has the lock -/
  | dropping (name : Str) : Phase A
  /-- one of the two has changed the registry -/
  | changed : Phase A
  /-- one of the two has returned -/
  | done : Phase A
  /-- `enabled_providers`, between two names -/
  | walking (walk : Walk A) : Phase A
  /-- it has the lock for this name -/
  | looking (walk : Walk A) (name : Str) : Phase A
  /-- it has looked it up -/
  | looked (walk : Walk A) (found : Found A) : Phase A
  /-- it has been through `_WARNED_UNKNOWN` -/
  | claimed (walk : Walk A) (found : Found A) : Phase A
  /-- it has released the lock -/
  | released (walk : Walk A) (found : Found A) : Phase A
  /-- it has returned -/
  | returned (names : List Str) (out : List A) : Phase A

/-- One step: a call begins or goes on. -/
inductive Label (A : Type) : Type where
  | register (provider : A) : Label A
  | unregister (name : Str) : Label A
  /-- with what `AUTH_ENABLED_PROVIDERS` is then -/
  | enabledProviders (names : List Str) : Label A
  | advance : Label A

/-- `out.append(provider)`, or `continue`. -/
def Walk.after (walk : Walk A) (found : Found A) : Walk A where
  done := walk.done ++ [found.name]
  left := walk.left
  out := walk.out ++ found.provider.toList

variable (nameOf : A → Str)

/-- The code. -/
def next (i : ℕ) (m : Memory A) : Phase A → Label A → Option (Move (Memory A) (Phase A))
  | .idle, .register provider => some (.go m (.registering provider))
  | .idle, .unregister name => some (.go m (.unregistering name))
  | .idle, .enabledProviders names => some (.go m (.walking ⟨[], names, []⟩))
  | .registering provider, .advance => some (.acquire (.storing provider))
  | .storing provider, .advance =>
    some (.go { m with registry := setItem m.registry (nameOf provider) provider } .changed)
  | .unregistering name, .advance => some (.acquire (.dropping name))
  | .dropping name, .advance =>
    some (.go { m with registry := popItem m.registry name } .changed)
  | .changed, .advance => some (.release m .done)
  | .walking ⟨done, [], out⟩, .advance => some (.go m (.returned done out))
  | .walking ⟨done, name :: left, out⟩, .advance =>
    some (.acquire (.looking ⟨done, left, out⟩ name))
  | .looking walk name, .advance =>
    some (.go m (.looked walk (m.find name)))
  | .looked walk found, .advance =>
    if found.warns then
      some (.go { m with warnedUnknown := found.name :: m.warnedUnknown
                         claimant := Function.update m.claimant found.name (some i) }
        (.claimed walk found))
    else some (.go m (.claimed walk found))
  | .claimed walk found, .advance => some (.release m (.released walk found))
  | .released walk found, .advance =>
    if found.warns then
      some (.go { m with log := m.log ++ [(found.name, found.snapshot)] }
        (.walking (walk.after found)))
    else some (.go m (.walking (walk.after found)))
  | _, _ => none

/-- The threads. -/
def program : Program (Memory A) (Phase A) (Label A) := ⟨next nameOf⟩

/-- What one step is. -/
inductive Moves (i : ℕ) (m : Memory A) : Phase A → Label A → Move (Memory A) (Phase A) → Prop where
  | callRegister {provider : A} :
    Moves i m .idle (.register provider) (.go m (.registering provider))
  | callUnregister {name : Str} :
    Moves i m .idle (.unregister name) (.go m (.unregistering name))
  | callEnabled {names : List Str} :
    Moves i m .idle (.enabledProviders names) (.go m (.walking ⟨[], names, []⟩))
  | lockRegister {provider : A} :
    Moves i m (.registering provider) .advance (.acquire (.storing provider))
  | store {provider : A} :
    Moves i m (.storing provider) .advance
      (.go { m with registry := setItem m.registry (nameOf provider) provider } .changed)
  | lockUnregister {name : Str} :
    Moves i m (.unregistering name) .advance (.acquire (.dropping name))
  | drop {name : Str} :
    Moves i m (.dropping name) .advance
      (.go { m with registry := popItem m.registry name } .changed)
  | unlock : Moves i m .changed .advance (.release m .done)
  | finish {done : List Str} {out : List A} :
    Moves i m (.walking ⟨done, [], out⟩) .advance (.go m (.returned done out))
  | lockName {done left : List Str} {out : List A} {name : Str} :
    Moves i m (.walking ⟨done, name :: left, out⟩) .advance
      (.acquire (.looking ⟨done, left, out⟩ name))
  | look {walk : Walk A} {name : Str} :
    Moves i m (.looking walk name) .advance (.go m (.looked walk (m.find name)))
  | claim {walk : Walk A} {found : Found A} (h : found.warns = true) :
    Moves i m (.looked walk found) .advance
      (.go { m with warnedUnknown := found.name :: m.warnedUnknown
                    claimant := Function.update m.claimant found.name (some i) }
        (.claimed walk found))
  | pass {walk : Walk A} {found : Found A} (h : found.warns = false) :
    Moves i m (.looked walk found) .advance (.go m (.claimed walk found))
  | unlockName {walk : Walk A} {found : Found A} :
    Moves i m (.claimed walk found) .advance (.release m (.released walk found))
  | warn {walk : Walk A} {found : Found A} (h : found.warns = true) :
    Moves i m (.released walk found) .advance
      (.go { m with log := m.log ++ [(found.name, found.snapshot)] }
        (.walking (walk.after found)))
  | skip {walk : Walk A} {found : Found A} (h : found.warns = false) :
    Moves i m (.released walk found) .advance (.go m (.walking (walk.after found)))

variable {nameOf}

/-- The code has no other steps. -/
theorem moves_of_next {i : ℕ} {m : Memory A} {p : Phase A} {l : Label A}
    {move : Move (Memory A) (Phase A)} (h : (program nameOf).next i m p l = some move) :
    Moves nameOf i m p l move := by
  change next nameOf i m p l = some move at h
  revert h
  fun_cases next nameOf i m p l <;> intro h <;> cases h
  all_goals constructor
  all_goals first | assumption | exact eq_false_of_ne_true ‹_›

/-! ## The warnings -/

/-- The phases with the lock. -/
def Phase.locking : Phase A → Bool
  | .storing _ | .dropping _ | .changed | .looking _ _ | .looked _ _ | .claimed _ _ => true
  | _ => false

/-- The name a call is going to warn of. -/
def Phase.pending : Phase A → Option Str
  | .claimed _ found | .released _ found => if found.warns then some found.name else none
  | _ => none

/-- The names that were warned of. -/
def Memory.logged (m : Memory A) : List Str := m.log.map Prod.fst

/-- What the calls of a run are about. -/
structure Calls (A : Type) : Type where
  /-- what `register` is called with -/
  providers : Set A

/-- A step of such a run. -/
def Calls.Has (C : Calls A) : Label A → Prop
  | .register provider => provider ∈ C.providers
  | _ => True

variable (nameOf) in
/-- A name that was looked up: the provider that was found goes by it, or it has been claimed. -/
structure Calls.Hit (C : Calls A) (warned : List Str) (hit : Str × Option A) : Prop where
  provider : ∀ p, hit.2 = some p → nameOf p = hit.1 ∧ p ∈ C.providers
  unknown : hit.2 = none → hit.1 ∈ warned

variable (nameOf) in
/-- What is left of the names that were looked up. -/
def Calls.Told (C : Calls A) (warned : List Str) (walk : Walk A) : Prop :=
  ∃ hits : List (Str × Option A), hits.map Prod.fst = walk.done ∧
    walk.out = hits.filterMap Prod.snd ∧ ∀ hit ∈ hits, C.Hit nameOf warned hit

variable (nameOf) in
/-- What a call knows of the memory. -/
def Phase.Knows (C : Calls A) (warned : List Str) : Phase A → Prop
  | .registering provider | .storing provider => provider ∈ C.providers
  | .walking walk | .looking walk _ => C.Told nameOf warned walk
  | .looked walk found => C.Told nameOf warned walk ∧
      (found.alreadyWarned = true ↔ found.name ∈ warned) ∧
      ∀ p, found.provider = some p → nameOf p = found.name ∧ p ∈ C.providers
  | .claimed walk found | .released walk found =>
      C.Told nameOf warned walk ∧ C.Hit nameOf warned (found.name, found.provider)
  | .returned names out => C.Told nameOf warned ⟨names, [], out⟩
  | _ => True

variable (nameOf) in
/-- What is always true of the memory. -/
structure Sound (C : Calls A) (m : Memory A) : Prop where
  registry : ∀ {name p}, getItem m.registry name = some p → nameOf p = name ∧ p ∈ C.providers
  claimant : ∀ name, name ∈ m.warnedUnknown ↔ ∃ i, m.claimant name = some i
  logged : ∀ name ∈ m.logged, name ∈ m.warnedUnknown
  nodup : m.logged.Nodup

/-- The names this call has claimed and not warned of are those it is going to. -/
def Owes (i : ℕ) (m : Memory A) (p : Phase A) : Prop :=
  ∀ name, p.pending = some name ↔ m.claimant name = some i ∧ name ∉ m.logged

variable {C : Calls A} {m : Memory A} {unknown unknown' : List Str}

/-- What was claimed stays so. -/
theorem Calls.Hit.mono {hit : Str × Option A} (h : C.Hit nameOf unknown hit)
    (hsub : unknown ⊆ unknown') : C.Hit nameOf unknown' hit :=
  ⟨h.provider, fun hnone => hsub (h.unknown hnone)⟩

theorem Calls.Told.mono {walk : Walk A} (h : C.Told nameOf unknown walk)
    (hsub : unknown ⊆ unknown') : C.Told nameOf unknown' walk := by
  obtain ⟨hits, hdone, hout, hhits⟩ := h
  exact ⟨hits, hdone, hout, fun hit hmem => (hhits hit hmem).mono hsub⟩

/-- The walk goes on to the next name. -/
theorem Calls.Told.after {walk : Walk A} {found : Found A}
    (h : C.Told nameOf unknown walk)
    (hhit : C.Hit nameOf unknown (found.name, found.provider)) :
    C.Told nameOf unknown (walk.after found) := by
  obtain ⟨hits, hdone, hout, hhits⟩ := h
  refine ⟨hits ++ [(found.name, found.provider)], ?_, ?_, ?_⟩
  · rw [List.map_append, hdone]
    rfl
  · rw [List.filterMap_append, ← hout]
    cases hprovider : found.provider with
    | none => simp [Walk.after, hprovider]
    | some p => simp [Walk.after, hprovider]
  · intro hit hmem
    rcases List.mem_append.mp hmem with hmem | hmem
    · exact hhits hit hmem
    · obtain rfl := List.mem_singleton.mp hmem
      exact hhit

/-- A call without the lock is not disturbed by a name more in `_WARNED_UNKNOWN`. -/
theorem Phase.Knows.mono {p : Phase A} (h : p.Knows nameOf C unknown) (hlocking : p.locking = false)
    (hsub : unknown ⊆ unknown') : p.Knows nameOf C unknown' := by
  cases p with
  | walking walk => exact Calls.Told.mono h hsub
  | released walk found => exact ⟨h.1.mono hsub, h.2.mono hsub⟩
  | returned names out => exact Calls.Told.mono h hsub
  | registering provider => exact h
  | idle | unregistering | done => trivial
  | storing | dropping | changed | looking | looked | claimed => cases hlocking

theorem Found.warns_iff {found : Found A} :
    found.warns = true ↔ found.provider = none ∧ found.alreadyWarned = false := by
  simp [Found.warns]

/-- A call is about to claim a name that nobody has claimed. -/
theorem Sound.unclaimed (h : Sound nameOf C m) {name : Str} (hnew : name ∉ m.warnedUnknown) :
    (∀ i, m.claimant name ≠ some i) ∧ name ∉ m.logged :=
  ⟨fun i hi => hnew ((h.claimant name).mpr ⟨i, hi⟩), fun hmem => hnew (h.logged name hmem)⟩

/-- The memory once call `i` has claimed a name. -/
def Memory.claimed (m : Memory A) (i : ℕ) (name : Str) : Memory A :=
  { m with warnedUnknown := name :: m.warnedUnknown
           claimant := Function.update m.claimant name (some i) }

theorem Memory.claimant_claimed_self (i : ℕ) (name : Str) :
    (m.claimed i name).claimant name = some i :=
  Function.update_self ..

theorem Memory.claimant_claimed_of_ne {name k : Str} (hne : k ≠ name) (i : ℕ) :
    (m.claimed i name).claimant k = m.claimant k :=
  Function.update_of_ne hne ..

theorem Sound.claimed (h : Sound nameOf C m) (i : ℕ) (name : Str) :
    Sound nameOf C (m.claimed i name) := by
  refine ⟨h.registry, ?_, fun k hk => List.mem_cons_of_mem _ (h.logged k hk), h.nodup⟩
  intro k
  rcases eq_or_ne k name with rfl | hne
  · exact iff_of_true List.mem_cons_self ⟨i, Memory.claimant_claimed_self i k⟩
  · rw [Memory.claimant_claimed_of_ne hne, ← h.claimant k]
    simp [Memory.claimed, hne]

/-- Who claims a name owes the warning. -/
theorem Owes.claim {i : ℕ} {walk : Walk A} {found : Found A} (h : Owes i m (.looked walk found))
    (hsound : Sound nameOf C m) (hwarns : found.warns = true)
    (hnew : found.name ∉ m.warnedUnknown) :
    Owes i (m.claimed i found.name) (.claimed walk found) := by
  intro name
  have hpending : (Phase.claimed walk found).pending = some found.name := if_pos hwarns
  rw [hpending]
  rcases eq_or_ne name found.name with rfl | hne
  · exact iff_of_true rfl ⟨Memory.claimant_claimed_self .., (hsound.unclaimed hnew).2⟩
  · refine iff_of_false (fun heq => hne (Option.some.inj heq).symm) ?_
    rintro ⟨hclaimant, hlogged⟩
    rw [Memory.claimant_claimed_of_ne hne] at hclaimant
    cases (h name).mpr ⟨hclaimant, hlogged⟩

/-- The others owe what they did. -/
theorem Owes.claim_other {i j : ℕ} {p : Phase A} (h : Owes j m p) (hne : j ≠ i)
    (hsound : Sound nameOf C m) {name : Str} (hnew : name ∉ m.warnedUnknown) :
    Owes j (m.claimed i name) p := by
  intro k
  rw [h k]
  rcases eq_or_ne k name with rfl | hk
  · refine iff_of_false (fun hj => (hsound.unclaimed hnew).1 j hj.1) ?_
    rintro ⟨hclaimant, -⟩
    rw [Memory.claimant_claimed_self] at hclaimant
    exact hne (Option.some.inj hclaimant).symm
  · rw [Memory.claimant_claimed_of_ne hk]
    rfl

/-- The memory with one warning more. -/
def Memory.warned (m : Memory A) (found : Found A) : Memory A :=
  { m with log := m.log ++ [(found.name, found.snapshot)] }

theorem Memory.mem_logged_warned {found : Found A} {name : Str} :
    name ∈ (m.warned found).logged ↔ name ∈ m.logged ∨ name = found.name := by
  simp [Memory.logged, Memory.warned]

theorem Sound.warned (h : Sound nameOf C m) {found : Found A}
    (hclaimed : found.name ∈ m.warnedUnknown) (hnew : found.name ∉ m.logged) :
    Sound nameOf C (m.warned found) := by
  refine ⟨h.registry, h.claimant, ?_, ?_⟩
  · intro name hname
    rcases Memory.mem_logged_warned.mp hname with hlogged | rfl
    · exact h.logged name hlogged
    · exact hclaimed
  · have hlogged : (m.warned found).logged = m.logged ++ [found.name] := by
      simp [Memory.logged, Memory.warned]
    rw [hlogged]
    exact List.nodup_append.mpr ⟨h.nodup, List.nodup_singleton _, by
      rintro a ha b hb rfl
      exact hnew (List.mem_singleton.mp hb ▸ ha)⟩

/-- Who has warned owes nothing more. -/
theorem Owes.warn {i : ℕ} {walk after : Walk A} {found : Found A}
    (h : Owes i m (.released walk found)) (hwarns : found.warns = true) :
    Owes i (m.warned found) (.walking after) := by
  have hpending : (Phase.released walk found).pending = some found.name := if_pos hwarns
  intro name
  refine iff_of_false (fun heq => by cases heq) ?_
  rintro ⟨hclaimant, hlogged⟩
  rw [Memory.mem_logged_warned, not_or] at hlogged
  have howed := (h name).mpr ⟨hclaimant, hlogged.1⟩
  rw [hpending] at howed
  exact hlogged.2 (Option.some.inj howed).symm

theorem Owes.warn_other {i j : ℕ} {p : Phase A} (h : Owes j m p) (hne : j ≠ i) {found : Found A}
    (hclaimant : m.claimant found.name = some i) : Owes j (m.warned found) p := by
  intro name
  rw [h name, Memory.mem_logged_warned, not_or]
  constructor
  · rintro ⟨hj, hlogged⟩
    refine ⟨hj, hlogged, ?_⟩
    rintro rfl
    exact hne (Option.some.inj (hj.symm.trans hclaimant))
  · rintro ⟨hj, hlogged, -⟩
    exact ⟨hj, hlogged⟩

/-- A step that leaves a call with what it had to warn of. -/
theorem Owes.of_pending {i : ℕ} {p p' : Phase A} (h : Owes i m p) (hpending : p'.pending = p.pending) :
    Owes i m p' := by
  intro name
  rw [hpending]
  exact h name

variable (nameOf C) in
/-- The proof outline. -/
def outline : Outline (program nameOf) C.Has where
  locking := Phase.locking
  inv := Sound nameOf C
  free := fun _ => True
  holds := fun i m p => Owes i m p ∧ p.Knows nameOf C m.warnedUnknown
  go := by
    intro i m p l m' p' hguard hsound hholds hnext
    obtain ⟨howes, hknows⟩ := hholds
    cases moves_of_next hnext with
    | callRegister => exact ⟨rfl, hsound, ⟨howes.of_pending rfl, hguard⟩, fun _ _ => trivial⟩
    | callUnregister => exact ⟨rfl, hsound, ⟨howes.of_pending rfl, trivial⟩, fun _ _ => trivial⟩
    | callEnabled =>
      refine ⟨rfl, hsound, ⟨howes.of_pending rfl, [], rfl, rfl, ?_⟩, fun _ _ => trivial⟩
      exact fun _ hmem => absurd hmem List.not_mem_nil
    | @store provider =>
      refine ⟨rfl, ⟨?_, hsound.claimant, hsound.logged, hsound.nodup⟩,
        ⟨howes.of_pending rfl, trivial⟩, fun _ _ => trivial⟩
      intro name p hget
      rw [getItem_setItem] at hget
      split at hget
      · next heq =>
        obtain rfl := Option.some.inj hget
        exact ⟨heq.symm, hknows⟩
      · exact hsound.registry hget
    | @drop name =>
      refine ⟨rfl, ⟨?_, hsound.claimant, hsound.logged, hsound.nodup⟩,
        ⟨howes.of_pending rfl, trivial⟩, fun _ _ => trivial⟩
      intro k p hget
      rw [getItem_popItem] at hget
      split at hget
      · cases hget
      · exact hsound.registry hget
    | finish => exact ⟨rfl, hsound, ⟨howes.of_pending rfl, hknows⟩, fun _ _ => trivial⟩
    | look =>
      refine ⟨rfl, hsound, ⟨howes.of_pending rfl, hknows, ?_, fun p hp => hsound.registry hp⟩,
        fun _ _ => trivial⟩
      exact List.contains_iff_mem
    | @claim walk found hwarns =>
      obtain ⟨htold, halready, hprovider⟩ := hknows
      have hnew : found.name ∉ m.warnedUnknown := by
        rw [← halready, (Found.warns_iff.mp hwarns).2]
        exact Bool.false_ne_true
      have hsub : m.warnedUnknown ⊆ found.name :: m.warnedUnknown := List.subset_cons_self ..
      refine ⟨rfl, hsound.claimed i found.name, ⟨howes.claim hsound hwarns hnew, htold.mono hsub,
        hprovider, fun _ => List.mem_cons_self⟩, fun _ _ => trivial⟩
    | @pass walk found hwarns =>
      obtain ⟨htold, halready, hprovider⟩ := hknows
      have hpending : (Phase.claimed walk found).pending = none := if_neg (by simp [hwarns])
      refine ⟨rfl, hsound, ⟨howes.of_pending hpending, htold, hprovider, ?_⟩, fun _ _ => trivial⟩
      intro hnone
      have hprovider : found.provider = none := hnone
      rw [← halready]
      simpa [Found.warns, hprovider] using hwarns
    | @warn walk found hwarns =>
      obtain ⟨htold, hhit⟩ := hknows
      have hpending : (Phase.released walk found).pending = some found.name := if_pos hwarns
      have hclaimed := hhit.unknown (Found.warns_iff.mp hwarns).1
      exact ⟨rfl, hsound.warned hclaimed ((howes _).mp hpending).2,
        ⟨howes.warn hwarns, htold.after hhit⟩, fun _ _ => trivial⟩
    | @skip walk found hwarns =>
      obtain ⟨htold, hhit⟩ := hknows
      have hpending : (Phase.released walk found).pending = none := if_neg (by simp [hwarns])
      exact ⟨rfl, hsound, ⟨howes.of_pending hpending.symm, htold.after hhit⟩, fun _ _ => trivial⟩
  go_others := by
    intro i j m p q l m' p' hguard hne hsound hholds hnext hlocking hq
    obtain ⟨howes, hknows⟩ := hholds
    cases moves_of_next hnext with
    | @claim walk found hwarns =>
      have hnew : found.name ∉ m.warnedUnknown := by
        rw [← hknows.2.1, (Found.warns_iff.mp hwarns).2]
        exact Bool.false_ne_true
      exact ⟨hq.1.claim_other hne hsound hnew,
        hq.2.mono (hlocking rfl) (List.subset_cons_self ..)⟩
    | @warn walk found hwarns =>
      have hpending : (Phase.released walk found).pending = some found.name := if_pos hwarns
      exact ⟨hq.1.warn_other hne ((howes _).mp hpending).1, hq.2⟩
    | _ => exact hq
  acquire := by
    intro i m p l p' _ _ _ hholds hnext
    obtain ⟨howes, hknows⟩ := hholds
    cases moves_of_next hnext with
    | lockRegister => exact ⟨rfl, howes.of_pending rfl, hknows⟩
    | lockUnregister => exact ⟨rfl, howes.of_pending rfl, trivial⟩
    | lockName => exact ⟨rfl, howes.of_pending rfl, hknows⟩
  release := by
    intro i m p l m' p' _ hsound hholds hnext
    obtain ⟨howes, hknows⟩ := hholds
    cases moves_of_next hnext with
    | unlock => exact ⟨rfl, rfl, hsound, trivial, howes.of_pending rfl, trivial⟩
    | unlockName => exact ⟨rfl, rfl, hsound, trivial, howes.of_pending rfl, hknows⟩
  release_others := by
    intro i j m p q l m' p' _ _ _ _ hnext _ hq
    cases moves_of_next hnext with
    | unlock | unlockName => exact hq

/-- The call was made with the names that it goes through. -/
def Phase.Asked (ls : List (ℕ × Label A)) (i : ℕ) : Phase A → Prop
  | .walking walk => (i, .enabledProviders (walk.done ++ walk.left)) ∈ ls
  | .looking walk name => (i, .enabledProviders (walk.done ++ name :: walk.left)) ∈ ls
  | .looked walk found | .claimed walk found | .released walk found =>
    (i, .enabledProviders (walk.done ++ found.name :: walk.left)) ∈ ls
  | .returned names _ => (i, .enabledProviders names) ∈ ls
  | _ => True

theorem Phase.Asked.snoc {ls : List (ℕ × Label A)} {i : ℕ} {p : Phase A} (h : p.Asked ls i)
    (l : ℕ × Label A) : p.Asked (ls ++ [l]) i := by
  cases p with
  | walking | looking | looked | claimed | released | returned => exact List.mem_append_left _ h
  | _ => trivial

/-- A call goes through the names it was made with. -/
theorem asked_of_run {ls : List (ℕ × Label A)} {s : State (Memory A) (Phase A)}
    (hrun : (program nameOf).machine.run (State.init .empty .idle) ls = some s) (i : ℕ) :
    (s.phase i).Asked ls i := by
  refine phases_of_run (J := fun ls i p => p.Asked ls i) (fun _ => trivial)
    (fun l h => h.snoc l) ?_ hrun i
  intro ls m i l move _ hasked hnext
  have hmoves := moves_of_next hnext
  generalize m.phase i = p at hasked hmoves
  cases hmoves with
  | callEnabled => exact List.mem_append_right _ (List.mem_singleton_self _)
  | @finish done out =>
    have hnames : (i, Label.enabledProviders (done ++ [])) ∈ ls := hasked
    rw [List.append_nil] at hnames
    exact List.mem_append_left _ hnames
  | @warn walk found h | @skip walk found h =>
    have hnames : (i, Label.enabledProviders (walk.done ++ found.name :: walk.left)) ∈ ls := hasked
    refine List.mem_append_left _ ?_
    simpa [Walk.after] using hnames
  | lockName | look | claim | pass | unlockName => exact List.mem_append_left _ hasked
  | _ => trivial

/-- **Warnings.** However the calls interleave, there is one warning at most about each name; and of
every chain that was returned, each name the call was made with has either its provider in the chain,
in the order of the names, or there is a warning about it, or a call that is about to log one. -/
theorem skipped_warned {ls : List (ℕ × Label A)} {s : State (Memory A) (Phase A)}
    (hrun : (program nameOf).machine.run (State.init .empty .idle) ls = some s) :
    s.memory.logged.Nodup ∧
      ∀ {i names out}, s.phase i = .returned names out →
        (i, .enabledProviders names) ∈ ls ∧
          ∃ hits : List (Str × Option A), hits.map Prod.fst = names ∧
            out = hits.filterMap Prod.snd ∧ ∀ hit ∈ hits,
              (∀ p, hit.2 = some p → nameOf p = hit.1 ∧ ∃ j, (j, .register p) ∈ ls) ∧
                (hit.2 = none →
                  hit.1 ∈ s.memory.logged ∨ ∃ j, (s.phase j).pending = some hit.1) := by
  let C : Calls A := ⟨{p | ∃ j, (j, Label.register p) ∈ ls}⟩
  have hguard : ∀ l ∈ ls, C.Has l.2 := by
    rintro ⟨j, l⟩ hmem
    cases l with
    | register provider => exact ⟨j, hmem⟩
    | _ => trivial
  have hinit : (outline nameOf C).Valid (State.init .empty .idle) := by
    refine Outline.valid_init ⟨?_, ?_, ?_, List.nodup_nil⟩ trivial rfl fun i => ⟨?_, trivial⟩
    · intro name p hget
      cases hget
    · intro name
      simp [Memory.empty]
    · intro name hmem
      cases hmem
    · intro name
      simp [Memory.empty, Phase.pending]
  have hvalid := Outline.valid_of_run hinit hguard hrun
  have hsound : Sound nameOf C s.memory := hvalid.inv
  refine ⟨hsound.nodup, ?_⟩
  intro i names out hphase
  have htold := (hvalid.holds i).2
  have hasked := asked_of_run hrun i
  rw [hphase] at htold hasked
  obtain ⟨hits, hdone, hout, hhits⟩ := htold
  refine ⟨hasked, hits, hdone, hout, fun hit hmem => ⟨(hhits hit hmem).provider, ?_⟩⟩
  intro hnone
  obtain ⟨j, hj⟩ := (hsound.claimant hit.1).mp ((hhits hit hmem).unknown hnone)
  by_cases hlogged : hit.1 ∈ s.memory.logged
  · exact .inl hlogged
  · exact .inr ⟨j, ((hvalid.holds j).1 hit.1).mpr ⟨hj, hlogged⟩⟩

/-- Two requests look up the chain, of which one name is a typo; one of them warns. -/
def typo : List (ℕ × Label Str) :=
  (0, .register "api_key".toList) :: List.replicate 3 (0, .advance) ++
    [(1, .enabledProviders ["jwt".toList, "api_key".toList]),
      (2, .enabledProviders ["jwt".toList, "api_key".toList])] ++
    List.replicate 4 (1, .advance) ++ List.replicate 11 (2, .advance)

theorem skipped_warned_typo :
    ∃ s, (program (id : Str → Str)).machine.run (State.init .empty .idle) typo = some s ∧
      s.memory.logged.Nodup ∧ s.phase 2 = .returned ["jwt".toList, "api_key".toList]
        ["api_key".toList] ∧ (s.phase 1).pending = some "jwt".toList := by
  obtain ⟨s, hrun, hreturned, hpending⟩ :
      ∃ s, (program (id : Str → Str)).machine.run (State.init .empty .idle) typo = some s ∧
        s.phase 2 = .returned ["jwt".toList, "api_key".toList] ["api_key".toList] ∧
          (s.phase 1).pending = some "jwt".toList := ⟨_, rfl, rfl, rfl⟩
  exact ⟨s, hrun, (skipped_warned hrun).1, hreturned, hpending⟩

/-! ## The chain -/

variable (nameOf) in
/-- Has the walk kept the provider of this name? -/
def Walk.Keeps (name : Str) (walk : Walk A) : Prop :=
  name ∈ walk.done → ∃ p ∈ walk.out, nameOf p = name

variable (nameOf) in
/-- The same at each point of the call. -/
def Phase.Keeps (name : Str) : Phase A → Prop
  | .walking walk | .looking walk _ => walk.Keeps nameOf name
  | .looked walk found | .claimed walk found | .released walk found =>
    walk.Keeps nameOf name ∧
      (found.name = name → ∃ p, found.provider = some p ∧ nameOf p = name)
  | .returned names out => (Walk.mk names [] out).Keeps nameOf name
  | _ => True

/-- Is it a call that takes this name out of the registry? -/
def Phase.Drops (name : Str) : Phase A → Prop
  | .unregistering name' | .dropping name' => name' = name
  | _ => False

theorem Walk.Keeps.after {name : Str} {walk : Walk A} {found : Found A}
    (h : walk.Keeps nameOf name)
    (hfound : found.name = name → ∃ p, found.provider = some p ∧ nameOf p = name) :
    (walk.after found).Keeps nameOf name := by
  intro hmem
  rcases List.mem_append.mp hmem with hmem | hmem
  · obtain ⟨p, hp, hname⟩ := h hmem
    exact ⟨p, List.mem_append_left _ hp, hname⟩
  · obtain ⟨p, hp, hname⟩ := hfound (List.mem_singleton.mp hmem).symm
    refine ⟨p, List.mem_append_right _ ?_, hname⟩
    rw [hp]
    exact List.mem_singleton_self p

variable (nameOf) in
/-- The proof outline for one name and one call, which begins once the name is registered: until
then, `since` is false. -/
def keeping (name : Str) (i : ℕ) (since : Prop) :
    Outline (program nameOf) fun l => l ≠ .unregister name where
  locking := Phase.locking
  inv := fun m => (∀ {k p}, getItem m.registry k = some p → nameOf p = k) ∧
    (since → name ∈ keysOf m.registry)
  free := fun _ => True
  holds := fun j _ p => ¬ p.Drops name ∧ (since → j = i → p.Keeps nameOf name)
  go := by
    intro j m p l m' p' hguard hinv hholds hnext
    obtain ⟨hnames, hregistered⟩ := hinv
    obtain ⟨hdrops, hkeeps⟩ := hholds
    cases moves_of_next hnext with
    | callRegister =>
      exact ⟨rfl, ⟨hnames, hregistered⟩, ⟨hdrops, fun _ _ => trivial⟩, fun _ _ => trivial⟩
    | callUnregister =>
      refine ⟨rfl, ⟨hnames, hregistered⟩, ⟨?_, fun _ _ => trivial⟩, fun _ _ => trivial⟩
      rintro rfl
      exact hguard rfl
    | callEnabled =>
      refine ⟨rfl, ⟨hnames, hregistered⟩, ⟨hdrops, fun _ _ => ?_⟩, fun _ _ => trivial⟩
      exact fun hmem => absurd hmem List.not_mem_nil
    | store =>
      refine ⟨rfl, ⟨?_, fun hsince => ?_⟩, ⟨hdrops, fun _ _ => trivial⟩, fun _ _ => trivial⟩
      · intro k p hget
        rw [getItem_setItem] at hget
        split at hget
        · next heq =>
          obtain rfl := Option.some.inj hget
          exact heq.symm
        · exact hnames hget
      · exact mem_keysOf_setItem.mpr (.inr (hregistered hsince))
    | @drop dropped =>
      refine ⟨rfl, ⟨?_, fun hsince => ?_⟩, ⟨fun h => h, fun _ _ => trivial⟩, fun _ _ => trivial⟩
      · intro k p hget
        rw [getItem_popItem] at hget
        split at hget
        · cases hget
        · exact hnames hget
      · have hne : name ≠ dropped := fun heq => hdrops heq.symm
        rw [← getItem_isSome_iff, getItem_popItem, if_neg hne, getItem_isSome_iff]
        exact hregistered hsince
    | finish => exact ⟨rfl, ⟨hnames, hregistered⟩, ⟨hdrops, hkeeps⟩, fun _ _ => trivial⟩
    | look =>
      refine ⟨rfl, ⟨hnames, hregistered⟩, ⟨hdrops, fun hsince hj => ⟨hkeeps hsince hj, ?_⟩⟩,
        fun _ _ => trivial⟩
      rintro rfl
      obtain ⟨p, hp⟩ := Option.isSome_iff_exists.mp (getItem_isSome_iff.mpr (hregistered hsince))
      exact ⟨p, hp, hnames hp⟩
    | claim | pass =>
      exact ⟨rfl, ⟨hnames, hregistered⟩, ⟨hdrops, hkeeps⟩, fun _ _ => trivial⟩
    | warn | skip =>
      refine ⟨rfl, ⟨hnames, hregistered⟩, ⟨hdrops, fun hsince hj => ?_⟩, fun _ _ => trivial⟩
      exact (hkeeps hsince hj).1.after (hkeeps hsince hj).2
  go_others := fun _ _ _ _ _ _ hq => hq
  acquire := by
    intro j m p l p' _ _ _ hholds hnext
    cases moves_of_next hnext with
    | lockRegister | lockUnregister => exact ⟨rfl, hholds.1, fun _ _ => trivial⟩
    | lockName => exact ⟨rfl, hholds.1, hholds.2⟩
  release := by
    intro j m p l m' p' _ hinv hholds hnext
    cases moves_of_next hnext with
    | unlock => exact ⟨rfl, rfl, hinv, trivial, hholds.1, fun _ _ => trivial⟩
    | unlockName => exact ⟨rfl, rfl, hinv, trivial, hholds⟩
  release_others := fun _ _ _ _ _ _ hq => hq

/-- **The chain.** If a name is registered when a call of `enabled_providers` begins, and nobody
unregisters it, then however the calls interleave, also with registrations that replace the
provider, the chain it returns has a provider of this name. -/
theorem registered_not_skipped {ls ls' : List (ℕ × Label A)} {s t : State (Memory A) (Phase A)}
    {i : ℕ} {name : Str} {names : List Str} {out : List A}
    (hls : ∀ l ∈ ls ++ ls', l.2 ≠ .unregister name)
    (hrun : (program nameOf).machine.run (State.init .empty .idle) ls = some s)
    (hregistered : name ∈ keysOf s.memory.registry) (hidle : s.phase i = .idle)
    (hrun' : (program nameOf).machine.run s ls' = some t)
    (hreturned : t.phase i = .returned names out) (hmem : name ∈ names) :
    ∃ p ∈ out, nameOf p = name := by
  rw [List.forall_mem_append] at hls
  have hinit : (keeping nameOf name i False).Valid (State.init .empty .idle) := by
    refine Outline.valid_init ⟨?_, False.elim⟩ trivial rfl fun _ => ⟨fun h => h, fun h => h.elim⟩
    intro k p hget
    cases hget
  have hbefore := Outline.valid_of_run hinit hls.1 hrun
  have hstart : (keeping nameOf name i True).Valid s := by
    refine ⟨⟨hbefore.inv.1, fun _ => hregistered⟩, hbefore.free, hbefore.holder, fun j => ?_⟩
    refine ⟨(hbefore.holds j).1, ?_⟩
    rintro - rfl
    rw [hidle]
    trivial
  have hafter := Outline.valid_of_run hstart hls.2 hrun'
  have hkeeps := (hafter.holds i).2 trivial rfl
  rw [hreturned] at hkeeps
  exact hkeeps hmem

/-- A provider is registered, by its name and a number, -/
def firstProvider : List (ℕ × Label (Str × ℕ)) :=
  (0, .register ("jwt".toList, 0)) :: List.replicate 3 (0, .advance)

/-- and replaced by another one while a call is under way. -/
def secondProvider : List (ℕ × Label (Str × ℕ)) :=
  [(1, .enabledProviders ["jwt".toList]), (2, .register ("jwt".toList, 1))] ++
    List.replicate 3 (2, .advance) ++ List.replicate 6 (1, .advance)

theorem registered_not_skipped_replaced :
    ∃ s t, (program Prod.fst).machine.run (State.init .empty .idle) firstProvider = some s ∧
      (program Prod.fst).machine.run s secondProvider = some t ∧
      t.phase 1 = .returned ["jwt".toList] [("jwt".toList, 1)] ∧
      ∃ p ∈ [("jwt".toList, 1)], p.1 = "jwt".toList := by
  obtain ⟨s, hrun, hregistered, hidle, t, hrun', hreturned⟩ :
      ∃ s, (program Prod.fst).machine.run (State.init .empty .idle) firstProvider = some s ∧
        keysOf s.memory.registry = ["jwt".toList] ∧ s.phase 1 = .idle ∧
        ∃ t, (program Prod.fst).machine.run s secondProvider = some t ∧
          t.phase 1 = .returned ["jwt".toList] [("jwt".toList, 1)] :=
    ⟨_, rfl, rfl, rfl, _, rfl, rfl⟩
  refine ⟨s, t, hrun, hrun', hreturned, ?_⟩
  refine registered_not_skipped ?_ hrun ?_ hidle hrun' hreturned (List.mem_singleton_self _)
  · simp [firstProvider, secondProvider]
  · rw [hregistered]
    exact List.mem_singleton_self _

end AuthRegistry

end DjangoBoilerplate
