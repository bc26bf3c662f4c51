import DjangoBoilerplate.Outlines
import DjangoBoilerplate.RbacBackend

/-!
# The resource registry under threads

`register_resource`, `resource_for` and `app_resources` of `apps/core/rbac_registry.py`, called by
any number of threads. Only a registration takes the lock. `resource_for` is one lookup; but
`app_resources` iterates over the dictionary, one item a step, and such an iteration raises
`RuntimeError` when it finds that the dictionary has another size than at its beginning.

A registry only grows, and never changes what it has. So whatever a call has returned stays true
for ever, and an iteration that does not raise has seen the registry as it was when it began
(`registry_calls`). When that was is read off the schedule (`Began`).
-/

namespace DjangoBoilerplate

namespace Rbac

namespace Threads

open Outlines

/-! ## The calls -/

/-- Where a call is. -/
inductive Phase : Type where
  /-- not called yet -/
  | idle : Phase
  /-- `register_resource`, waiting for the lock -/
  | waiting (key resource : Str) : Phase
  /-- it holds the lock -/
  | checking (key resource : Str) : Phase
  /-- the key is free -/
  | storing (key resource : Str) : Phase
  /-- the key has this resource -/
  | leaving (key resource : Str) : Phase
  /-- the key has another one -/
  | refusing (key resource : Str) : Phase
  /-- it has returned -/
  | registered (key resource : Str) : Phase
  /-- it has raised `ValueError` -/
  | refused (key resource : Str) : Phase
  /-- `resource_for`, about to look up -/
  | asking (appLabel modelName : Str) : Phase
  /-- it has returned -/
  | answered (appLabel modelName : Str) (resource : Option Str) : Phase
  /-- `app_resources`, about to begin -/
  | listing (appLabel : Str) : Phase
  /-- the iterator: the size it expects, how far it is, and what was kept -/
  | iterating (appLabel : Str) (size pos : ℕ) (kept : List Str) : Phase
  /-- it has returned -/
  | listed (appLabel : Str) (size : ℕ) (resources : List Str) : Phase
  /-- it has raised `RuntimeError` -/
  | interrupted (appLabel : Str) (size : ℕ) : Phase

/-- One step: a call begins or goes on. -/
inductive Label : Type where
  | registerResource (modelDottedName resource : Str) : Label
  | resourceFor (appLabel modelName : Str) : Label
  | appResources (appLabel : Str) : Label
  | advance : Label

variable (u : Casing)

/-- The code. -/
def next (_ : ℕ) (d : Registry) : Phase → Label → Option (Move Registry Phase)
  | .idle, .registerResource name resource => some (.go d (.waiting (u.lower name) resource))
  | .idle, .resourceFor appLabel modelName => some (.go d (.asking appLabel modelName))
  | .idle, .appResources appLabel => some (.go d (.listing appLabel))
  | .waiting key resource, .advance => some (.acquire (.checking key resource))
  | .checking key resource, .advance =>
    match getItem d key with
    | none => some (.go d (.storing key resource))
    | some existing =>
      if existing ≠ resource then some (.go d (.refusing key resource))
      else some (.go d (.leaving key resource))
  | .storing key resource, .advance =>
    some (.go (setItem d key resource) (.leaving key resource))
  | .leaving key resource, .advance => some (.release d (.registered key resource))
  | .refusing key resource, .advance => some (.release d (.refused key resource))
  | .asking appLabel modelName, .advance =>
    some (.go d (.answered appLabel modelName (resourceFor u d appLabel modelName)))
  | .listing appLabel, .advance => some (.go d (.iterating appLabel d.length 0 []))
  | .iterating appLabel size pos kept, .advance =>
    if d.length ≠ size then some (.go d (.interrupted appLabel size))
    else
      match d[pos]? with
      | none => some (.go d (.listed appLabel size kept))
      | some (key, resource) =>
        let kept' := if (u.lower (appLabel ++ ['.'])).isPrefixOf key then kept ++ [resource] else kept
        some (.go d (.iterating appLabel size (pos + 1) kept'))
  | _, _ => none

/-- The threads. -/
def program : Program Registry Phase Label := ⟨next u⟩

/-- What one step is. -/
inductive Moves (d : Registry) : Phase → Label → Move Registry Phase → Prop where
  | callRegister {name resource : Str} :
    Moves d .idle (.registerResource name resource) (.go d (.waiting (u.lower name) resource))
  | callAsk {appLabel modelName : Str} :
    Moves d .idle (.resourceFor appLabel modelName) (.go d (.asking appLabel modelName))
  | callList {appLabel : Str} :
    Moves d .idle (.appResources appLabel) (.go d (.listing appLabel))
  | lock {key resource : Str} :
    Moves d (.waiting key resource) .advance (.acquire (.checking key resource))
  | free {key resource : Str} (h : getItem d key = none) :
    Moves d (.checking key resource) .advance (.go d (.storing key resource))
  | conflict {key resource existing : Str} (h : getItem d key = some existing)
      (hne : existing ≠ resource) :
    Moves d (.checking key resource) .advance (.go d (.refusing key resource))
  | same {key resource : Str} (h : getItem d key = some resource) :
    Moves d (.checking key resource) .advance (.go d (.leaving key resource))
  | store {key resource : Str} :
    Moves d (.storing key resource) .advance
      (.go (setItem d key resource) (.leaving key resource))
  | leave {key resource : Str} :
    Moves d (.leaving key resource) .advance (.release d (.registered key resource))
  | refuse {key resource : Str} :
    Moves d (.refusing key resource) .advance (.release d (.refused key resource))
  | ask {appLabel modelName : Str} :
    Moves d (.asking appLabel modelName) .advance
      (.go d (.answered appLabel modelName (resourceFor u d appLabel modelName)))
  | begin {appLabel : Str} :
    Moves d (.listing appLabel) .advance (.go d (.iterating appLabel d.length 0 []))
  | interrupt {appLabel : Str} {size pos : ℕ} {kept : List Str} (h : d.length ≠ size) :
    Moves d (.iterating appLabel size pos kept) .advance (.go d (.interrupted appLabel size))
  | finish {appLabel : Str} {pos : ℕ} {kept : List Str} (h : d[pos]? = none) :
    Moves d (.iterating appLabel d.length pos kept) .advance
      (.go d (.listed appLabel d.length kept))
  | visit {appLabel : Str} {pos : ℕ} {kept : List Str} {key resource : Str}
      (h : d[pos]? = some (key, resource)) :
    Moves d (.iterating appLabel d.length pos kept) .advance
      (.go d (.iterating appLabel d.length (pos + 1)
        (if (u.lower (appLabel ++ ['.'])).isPrefixOf key then kept ++ [resource] else kept)))

variable {u}

/-- The code has no other steps. -/
theorem moves_of_next {i : ℕ} {d : Registry} {p : Phase} {l : Label} {move : Move Registry Phase}
    (h : (program u).next i d p l = some move) : Moves u d p l move := by
  change next u i d p l = some move at h
  revert h
  fun_cases next u i d p l <;> intro h <;> cases h
  case case7 hget heq => exact .same (not_not.mp heq ▸ hget)
  case case14 heq hnone =>
    cases not_not.mp heq
    exact .finish hnone
  case case15 heq key resource hsome kept' =>
    cases not_not.mp heq
    exact .visit hsome
  all_goals constructor
  all_goals assumption

/-! ## What the calls find -/

/-- The phases with the lock. -/
def Phase.locking : Phase → Bool
  | .checking _ _ | .storing _ _ | .leaving _ _ | .refusing _ _ => true
  | _ => false

variable (u) in
/-- What a call knows of the registry. -/
def Phase.Finds (d : Registry) : Phase → Prop
  | .storing key _ => getItem d key = none
  | .leaving key resource | .registered key resource => getItem d key = some resource
  | .refusing key resource | .refused key resource =>
    ∃ existing, getItem d key = some existing ∧ existing ≠ resource
  | .answered appLabel modelName (some resource) =>
    Rbac.resourceFor u d appLabel modelName = some resource
  | .iterating appLabel size pos kept =>
    size ≤ d.length ∧ pos ≤ size ∧ kept = Rbac.appResources u (d.take pos) appLabel
  | .listed appLabel size resources =>
    size ≤ d.length ∧ resources = Rbac.appResources u (d.take size) appLabel
  | .interrupted _ size => size < d.length
  | _ => True

/-- What was found is still found in a larger registry. -/
theorem getItem_append {d : Registry} {key resource : Str} (h : getItem d key = some resource)
    (new : Registry) : getItem (d ++ new) key = some resource := by
  unfold getItem at h ⊢
  rw [List.lookup_append, h, Option.some_or]

/-- What a call without the lock knows stays true when the registry grows. -/
theorem Phase.Finds.mono {d : Registry} {p : Phase} (h : p.Finds u d) (hlocking : p.locking = false)
    (new : Registry) : p.Finds u (d ++ new) := by
  have hlength : d.length ≤ (d ++ new).length := by simp
  cases p with
  | storing | leaving | refusing => cases hlocking
  | registered key resource => exact getItem_append h new
  | refused key resource =>
    obtain ⟨existing, hget, hne⟩ := h
    exact ⟨existing, getItem_append hget new, hne⟩
  | answered appLabel modelName resource =>
    cases resource with
    | none => trivial
    | some resource => exact getItem_append h new
  | iterating appLabel size pos kept =>
    obtain ⟨hsize, hpos, hkept⟩ := h
    refine ⟨hsize.trans hlength, hpos, ?_⟩
    rw [List.take_append_of_le_length (hpos.trans hsize)]
    exact hkept
  | listed appLabel size resources =>
    obtain ⟨hsize, hresources⟩ := h
    refine ⟨hsize.trans hlength, ?_⟩
    rw [List.take_append_of_le_length hsize]
    exact hresources
  | interrupted appLabel size => exact lt_of_lt_of_le h hlength
  | idle | waiting | checking | asking | listing => trivial

/-- One more item of the iteration. -/
theorem appResources_take_succ {d : Registry} {pos : ℕ} {key resource : Str} (appLabel : Str)
    (h : d[pos]? = some (key, resource)) :
    Rbac.appResources u (d.take (pos + 1)) appLabel =
      if (u.lower (appLabel ++ ['.'])).isPrefixOf key then
        Rbac.appResources u (d.take pos) appLabel ++ [resource]
      else Rbac.appResources u (d.take pos) appLabel := by
  rw [List.take_add_one, h]
  simp only [Rbac.appResources, Option.toList_some, List.filter_append, List.map_append]
  split
  · next hstarts => simp [hstarts]
  · next hstarts => simp [hstarts]

variable (u) in
/-- The proof outline. -/
def outline : Outline (program u) fun _ => True where
  locking := Phase.locking
  inv := fun d => (keysOf d).Nodup
  free := fun _ => True
  holds := fun _ d p => p.Finds u d
  go := by
    intro i d p l d' p' _ hnodup hfinds hnext
    cases moves_of_next hnext with
    | callRegister | callAsk | callList => exact ⟨rfl, hnodup, trivial, fun _ _ => trivial⟩
    | free h => exact ⟨rfl, hnodup, h, fun _ _ => trivial⟩
    | conflict h hne => exact ⟨rfl, hnodup, ⟨_, h, hne⟩, fun _ _ => trivial⟩
    | same h => exact ⟨rfl, hnodup, h, fun _ _ => trivial⟩
    | store =>
      refine ⟨rfl, nodup_setItem hnodup _ _, ?_, fun _ _ => trivial⟩
      exact (getItem_setItem ..).trans (if_pos rfl)
    | @ask appLabel modelName =>
      refine ⟨rfl, hnodup, ?_, fun _ _ => trivial⟩
      cases hget : Rbac.resourceFor u d appLabel modelName with
      | none => trivial
      | some resource => exact hget
    | begin => exact ⟨rfl, hnodup, ⟨le_rfl, Nat.zero_le _, rfl⟩, fun _ _ => trivial⟩
    | interrupt h =>
      obtain ⟨hsize, -, -⟩ := hfinds
      exact ⟨rfl, hnodup, lt_of_le_of_ne hsize h.symm, fun _ _ => trivial⟩
    | finish h =>
      obtain ⟨hsize, hpos, hkept⟩ := hfinds
      refine ⟨rfl, hnodup, ⟨hsize, ?_⟩, fun _ _ => trivial⟩
      rw [hkept, le_antisymm hpos (List.getElem?_eq_none_iff.mp h)]
    | visit h =>
      obtain ⟨hsize, hpos, hkept⟩ := hfinds
      have hlt := (List.getElem?_eq_some_iff.mp h).1
      refine ⟨rfl, hnodup, ⟨hsize, hlt, ?_⟩, fun _ _ => trivial⟩
      rw [appResources_take_succ _ h, hkept]
  go_others := by
    intro i j d p q l d' p' _ _ _ hfinds hnext hlocking hq
    cases moves_of_next hnext with
    | store =>
      have hnew : _ ∉ keysOf d := fun hmem => by
        rw [← getItem_isSome_iff] at hmem
        rw [hfinds] at hmem
        cases hmem
      rw [setItem_of_not_mem _ hnew]
      exact hq.mono (hlocking rfl) _
    | _ => exact hq
  acquire := by
    intro i d p l p' _ _ _ _ hnext
    cases moves_of_next hnext with
    | lock => exact ⟨rfl, trivial⟩
  release := by
    intro i d p l d' p' _ hnodup hfinds hnext
    cases moves_of_next hnext with
    | leave | refuse => exact ⟨rfl, rfl, hnodup, trivial, hfinds⟩
  release_others := by
    intro i j d p q l d' p' _ _ _ _ hnext _ hq
    cases moves_of_next hnext with
    | leave | refuse => exact hq

/-! ## When an iteration began -/

variable (u) in
/-- The iteration of call `i` began when the registry was `d`. -/
def Began (ls : List (ℕ × Label)) (i : ℕ) (appLabel : Str) (d : Registry) : Prop :=
  (program u).machine.Takes (State.init [] .idle) ls fun m l =>
    l = (i, .advance) ∧ m.phase i = .listing appLabel ∧ m.memory = d

variable (u) in
/-- The size that an iterator expects is that of the registry when it began. -/
def Phase.Expects (ls : List (ℕ × Label)) (i : ℕ) : Phase → Prop
  | .iterating appLabel size _ _ => ∃ d, Began u ls i appLabel d ∧ d.length = size
  | .listed appLabel size _ => ∃ d, Began u ls i appLabel d ∧ d.length = size
  | .interrupted appLabel size => ∃ d, Began u ls i appLabel d ∧ d.length = size
  | _ => True

theorem Phase.Expects.snoc {ls : List (ℕ × Label)} {i : ℕ} {p : Phase} (h : p.Expects u ls i)
    (l : ℕ × Label) : p.Expects u (ls ++ [l]) i := by
  cases p with
  | iterating _ _ _ _ | listed _ _ _ | interrupted _ _ =>
    obtain ⟨d, hbegan, hsize⟩ := h
    exact ⟨d, hbegan.snoc l, hsize⟩
  | _ => trivial

/-- An iterator keeps the size it has found at its beginning. -/
theorem expects_of_run {ls : List (ℕ × Label)} {s : State Registry Phase}
    (hrun : (program u).machine.run (State.init [] .idle) ls = some s) (i : ℕ) :
    (s.phase i).Expects u ls i := by
  refine phases_of_run (J := fun ls i p => p.Expects u ls i) (fun _ => trivial)
    (fun l h => h.snoc l) ?_ hrun i
  intro ls m i l move hm hexpects hnext
  have hmoves := moves_of_next hnext
  generalize hp : m.phase i = p at hexpects hmoves
  cases hmoves with
  | begin => exact ⟨m.memory, Machine.takes_of_run hm ⟨rfl, hp, rfl⟩, rfl⟩
  | interrupt h | finish h | visit h =>
    obtain ⟨d, hbegan, hsize⟩ := hexpects
    exact ⟨d, hbegan.snoc _, hsize⟩
  | _ => trivial

theorem valid_start : (outline u).Valid (State.init [] .idle) :=
  Outline.valid_init List.nodup_nil trivial rfl fun _ => trivial

/-- The registry only grows. -/
theorem grows_of_run {ls : List (ℕ × Label)} {m s : State Registry Phase}
    (hvalid : (outline u).Valid m) (hrun : (program u).machine.run m ls = some s) :
    m.memory <+: s.memory := by
  refine (Machine.run_invariant' (I := fun s => (outline u).Valid s ∧ m.memory <+: s.memory) ?_
    ⟨hvalid, List.prefix_rfl⟩ hrun).2
  rintro s ⟨i, l⟩ t ⟨hs, hprefix⟩ hstep
  refine ⟨hs.step trivial hstep, hprefix.trans ?_⟩
  have hfinds := hs.holds i
  rcases step_cases hstep with ⟨d, p, hnext, rfl⟩ | ⟨p, -, -, rfl⟩ | ⟨d, p, hnext, rfl⟩
  · have hmoves := moves_of_next hnext
    generalize s.phase i = q at hfinds hmoves
    cases hmoves with
    | store =>
      -- the key that is stored was found to be free
      have hnew : _ ∉ keysOf s.memory := fun hmem => by
        rw [← getItem_isSome_iff] at hmem
        rw [hfinds] at hmem
        cases hmem
      simp only
      rw [setItem_of_not_mem _ hnew]
      exact List.prefix_append _ _
    | _ => exact List.prefix_rfl
  · exact List.prefix_rfl
  · have hmoves := moves_of_next hnext
    generalize s.phase i = q at hmoves
    cases hmoves with
    | leave | refuse => exact List.prefix_rfl

/-- What an iteration has begun with is still the beginning of the registry. -/
theorem Began.grows {ls : List (ℕ × Label)} {i : ℕ} {appLabel : Str} {d : Registry}
    {s : State Registry Phase} (h : Began u ls i appLabel d)
    (hrun : (program u).machine.run (State.init [] .idle) ls = some s) : d <+: s.memory := by
  obtain ⟨ks, l, ⟨rest, rfl⟩, m, hm, -, -, rfl⟩ := h
  rw [List.append_assoc] at hrun
  exact grows_of_run (Outline.valid_of_run valid_start (fun _ _ => trivial) hm)
    (Machine.run_of_append hrun hm)

/-! ## The calls together -/

/-- **The registry.** However the calls interleave, of those that have ended: a registration that
returned has its resource under its key, and one that was refused another one, so that a key never
changes hands; what `resource_for` returned is still there; `app_resources` returned the resources
of the app in the registry as it was when its iteration began, and raised only because the registry
has grown since. -/
theorem registry_calls {ls : List (ℕ × Label)} {s : State Registry Phase}
    (hrun : (program u).machine.run (State.init [] .idle) ls = some s) :
    (∀ {i key resource}, s.phase i = .registered key resource →
      getItem s.memory key = some resource) ∧
    (∀ {i key resource}, s.phase i = .refused key resource →
      ∃ existing, getItem s.memory key = some existing ∧ existing ≠ resource) ∧
    (∀ {i appLabel modelName resource}, s.phase i = .answered appLabel modelName (some resource) →
      Rbac.resourceFor u s.memory appLabel modelName = some resource) ∧
    (∀ {i appLabel size resources}, s.phase i = .listed appLabel size resources →
      ∃ d, Began u ls i appLabel d ∧ resources = Rbac.appResources u d appLabel) ∧
    (∀ {i appLabel size}, s.phase i = .interrupted appLabel size →
      ∃ d, Began u ls i appLabel d ∧ d.length < s.memory.length) := by
  have hvalid := Outline.valid_of_run valid_start (fun _ _ => trivial) hrun
  have hfinds : ∀ {i p}, s.phase i = p → p.Finds u s.memory := by
    rintro i p rfl
    exact hvalid.holds i
  have hexpects : ∀ {i p}, s.phase i = p → p.Expects u ls i := by
    rintro i p rfl
    exact expects_of_run hrun i
  refine ⟨?_, ?_, ?_, ?_, ?_⟩
  · intro i key resource hphase
    exact hfinds hphase
  · intro i key resource hphase
    exact hfinds hphase
  · intro i appLabel modelName resource hphase
    exact hfinds hphase
  · intro i appLabel size resources hphase
    obtain ⟨d, hbegan, rfl⟩ := hexpects hphase
    refine ⟨d, hbegan, ?_⟩
    rw [(hfinds hphase).2, ← List.prefix_iff_eq_take.mp (hbegan.grows hrun)]
  · intro i appLabel size hphase
    obtain ⟨d, hbegan, rfl⟩ := hexpects hphase
    exact ⟨d, hbegan, hfinds hphase⟩

/-- A registration by thread `i`, without a break. -/
def register (i : ℕ) (name resource : String) : List (ℕ × Label) :=
  (i, .registerResource name.toList resource.toList) :: List.replicate 4 (i, .advance)

/-- Thread 2 iterates while thread 1 registers a second model, thread 3 after that. -/
def growing : List (ℕ × Label) :=
  register 0 "accounts.User" "account" ++
    [(2, .appResources "accounts".toList), (2, .advance), (2, .advance)] ++
    register 1 "accounts.Role" "role" ++
    (2, .advance) :: (3, .appResources "accounts".toList) :: List.replicate 4 (3, .advance)

theorem registry_calls_growing :
    ∃ s, (program Casing.basic).machine.run (State.init [] .idle) growing = some s ∧
      getItem s.memory "accounts.user".toList = some "account".toList ∧
      (s.phase 2 = .interrupted "accounts".toList 1 ∧
        ∃ d, Began Casing.basic growing 2 "accounts".toList d ∧ d.length < s.memory.length) ∧
      s.phase 3 = .listed "accounts".toList 2 ["account".toList, "role".toList] ∧
        ∃ d, Began Casing.basic growing 3 "accounts".toList d ∧
          ["account".toList, "role".toList] =
            Rbac.appResources Casing.basic d "accounts".toList := by
  obtain ⟨s, hrun, hregistered, hinterrupted, hlisted⟩ :
      ∃ s, (program Casing.basic).machine.run (State.init [] .idle) growing = some s ∧
        s.phase 0 = .registered "accounts.user".toList "account".toList ∧
        s.phase 2 = .interrupted "accounts".toList 1 ∧
        s.phase 3 = .listed "accounts".toList 2 ["account".toList, "role".toList] :=
    ⟨_, rfl, rfl, rfl, rfl⟩
  obtain ⟨hkeeps, -, -, hlists, hgrown⟩ := registry_calls hrun
  exact ⟨s, hrun, hkeeps hregistered, ⟨hinterrupted, hgrown hinterrupted⟩, hlisted, hlists hlisted⟩

end Threads

end Rbac

end DjangoBoilerplate
