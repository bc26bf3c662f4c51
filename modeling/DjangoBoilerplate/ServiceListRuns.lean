import DjangoBoilerplate.Machine
import DjangoBoilerplate.ServiceList

/-!
# Listings that share their filters

A caller may build a dictionary of filters once and pass it to `list`, `list_active`, `count`
and `filter` again and again. `list` writes the implicit filter on active rows into the
dictionary it is given, if that is not empty, so that a later call that does not ask for active
rows only gets them all the same.

`answers_fresh_of_asBuilt` says what the caller can do about it: such a call is answered as if
nothing had come before it if the dictionary is still as it was built.
-/

namespace DjangoBoilerplate

namespace ServiceList

variable {R : Type}

/-! ## Calls -/

/-- A call that is given the dictionary. -/
inductive Call : Type where
  /-- `list(filters=d, ..., active_only=...)` -/
  | list (page : Page) (activeOnly : Bool) : Call
  /-- `list_active(filters=d, ...)` -/
  | listActive (page : Page) : Call
  /-- `count(d)` -/
  | count : Call
  /-- `filter(**d)` -/
  | filter : Call

/-- What a call returns or raises. -/
inductive Answer (R : Type) : Type where
  /-- rows -/
  | rows (result : Except ListError (List R)) : Answer R
  /-- a number of rows -/
  | number (result : Except ListError ℕ) : Answer R

/-- Does the call ask for active rows only? -/
def Call.activeOnly : Call → Bool
  | .list _ activeOnly => activeOnly
  | .listActive _ => true
  | .count => false
  | .filter => false

/-- What the call answers, given the dictionary as it is now. -/
def Call.answer (r : Reprs) (orm : Orm R) (svc : Service) (rows : List R) (d : Dict Value) :
    Call → Answer R
  | .list page activeOnly => .rows (ServiceList.list r orm svc rows d page activeOnly)
  | .listActive page => .rows (ServiceList.list r orm svc rows d page true)
  | .count =>
    match applyFilters r orm svc d.items rows with
    | .error e => .number (.error e)
    | .ok qs => .number (.ok qs.length)
  | .filter =>
    -- the keyword arguments are a copy
    match svc.validateFilterKeys r d.items with
    | .error e => .rows (.error e)
    | .ok () => .rows (orm.filter d.items rows)

/-- `d["is_active"] = True`. -/
def setActive (d : Dict Value) : Dict Value where
  items := withActive d.items
  nodup := nodup_setItem d.nodup _ _

/-- The dictionary after the call: `filters or {}` is the caller's own unless it is empty. -/
def Call.leaves (c : Call) (d : Dict Value) : Dict Value :=
  if c.activeOnly && !d.items.isEmpty then setActive d else d

/-! ## Sequences of calls -/

/-- An answer, with the call and the rows there were. -/
structure Answered (R : Type) : Type where
  /-- the call -/
  call : Call
  /-- the rows -/
  rows : List R
  /-- its answer -/
  answer : Answer R

/-- The dictionary, the rows, and the answers so far. -/
structure Session (R : Type) : Type where
  /-- the caller's dictionary -/
  filters : Dict Value
  /-- the rows of the table -/
  rows : List R
  /-- the answers -/
  answers : List (Answered R)

/-- A step: a call, or something else that changes the table. -/
inductive SessionStep (R : Type) : Type where
  /-- a call -/
  | call (c : Call) : SessionStep R
  /-- the rows change -/
  | store (rows : List R) : SessionStep R

/-- One step. -/
def step (r : Reprs) (orm : Orm R) (svc : Service) (s : Session R) :
    SessionStep R → Option (Session R)
  | .call c => some
      { s with
        filters := c.leaves s.filters
        answers := s.answers ++ [⟨c, s.rows, c.answer r orm svc s.rows s.filters⟩] }
  | .store rows => some { s with rows := rows }

/-- Any sequence of steps. -/
def machine (r : Reprs) (orm : Orm R) (svc : Service) : Machine (Session R) (SessionStep R) :=
  ⟨step r orm svc⟩

/-- Nothing called yet. -/
def Session.init (built : Dict Value) (rows : List R) : Session R := ⟨built, rows, []⟩

/-- Every call was answered as if it had been given the dictionary as it was built. -/
def Session.Fresh (r : Reprs) (orm : Orm R) (svc : Service) (built : Dict Value)
    (s : Session R) : Prop :=
  ∀ a ∈ s.answers, a.answer = a.call.answer r orm svc a.rows built

/-- A call that does not ask for active rows only is made while the dictionary is as it was
built. -/
def AsBuilt (built : Dict Value) (s : Session R) : SessionStep R → Prop
  | .call c => c.activeOnly = true ∨ s.filters = built
  | .store _ => True

/-! ## What a step keeps -/

variable {r : Reprs} {orm : Orm R} {svc : Service} {built d : Dict Value}

/-- The dictionary is as it was built, or it is not empty and has the implicit filter, too. -/
def Marked (built d : Dict Value) : Prop :=
  d = built ∨ (built.items.isEmpty = false ∧ d = setActive built)

theorem setActive_setActive (d : Dict Value) : setActive (setActive d) = setActive d := by
  have hitems : withActive (withActive d.items) = withActive d.items := setItem_setItem ..
  simp only [setActive, hitems]

theorem Marked.leaves (h : Marked built d) (c : Call) : Marked built (c.leaves d) := by
  unfold Call.leaves
  split
  · next hwrites =>
    rw [Bool.and_eq_true, Bool.not_eq_true'] at hwrites
    rcases h with rfl | ⟨hne, rfl⟩
    · exact Or.inr ⟨hwrites.2, rfl⟩
    · exact Or.inr ⟨hne, setActive_setActive built⟩
  · exact h

/-- With the implicit filter already there, a call for active rows answers the same. -/
theorem answer_setActive {c : Call} (hc : c.activeOnly = true) (rows : List R) :
    c.answer r orm svc rows (setActive built) = c.answer r orm svc rows built := by
  have hlist : ∀ page, list r orm svc rows (setActive built) page true =
      list r orm svc rows built page true := by
    intro page
    have hitems : withActive (setActive built).items = withActive built.items := setItem_setItem ..
    simp only [list, if_true, hitems]
  cases c with
  | list page activeOnly =>
    obtain rfl : activeOnly = true := hc
    exact congrArg Answer.rows (hlist page)
  | listActive page => exact congrArg Answer.rows (hlist page)
  | count => cases hc
  | filter => cases hc

/-- The invariant of the runs that meet the condition. -/
structure Inv (r : Reprs) (orm : Orm R) (svc : Service) (built : Dict Value) (s : Session R) :
    Prop where
  /-- the dictionary is as built, or marked -/
  marked : Marked built s.filters
  /-- the answers are those of a fresh copy -/
  fresh : s.Fresh r orm svc built

theorem inv_init (built : Dict Value) (rows : List R) :
    Inv r orm svc built (Session.init built rows) :=
  ⟨Or.inl rfl, fun _ ha => absurd ha List.not_mem_nil⟩

/-- **Step lemma.** -/
theorem Inv.step {s t : Session R} {l : SessionStep R} (hs : Inv r orm svc built s)
    (hguard : AsBuilt built s l) (h : (machine r orm svc).step s l = some t) :
    Inv r orm svc built t := by
  cases l with
  | call c =>
    obtain rfl := Option.some.inj h
    refine ⟨hs.marked.leaves c, ?_⟩
    intro a ha
    rcases List.mem_append.mp ha with ha | ha
    · exact hs.fresh a ha
    · obtain rfl := List.mem_singleton.mp ha
      rcases hs.marked with hbuilt | ⟨-, hactive⟩
      · simp only [hbuilt]
      · rcases hguard with hc | hbuilt
        · simp only [hactive, answer_setActive hc]
        · simp only [hbuilt]
  | store rows =>
    obtain rfl := Option.some.inj h
    exact ⟨hs.marked, hs.fresh⟩

/-- **Run lemma.** If calls that do not ask for active rows only are made while the dictionary
is as it was built, every call is answered as if it had been given a fresh copy. -/
theorem answers_fresh_of_asBuilt {rows : List R} {ls : List (SessionStep R)} {s : Session R}
    (hguard : (machine r orm svc).Meets (AsBuilt built) (Session.init built rows) ls)
    (h : (machine r orm svc).run (Session.init built rows) ls = some s) :
    s.Fresh r orm svc built :=
  (Machine.run_invariant Inv.step (inv_init built rows) hguard h).fresh

/-! ## A call that comes too late -/

/-- A service without allow-lists. -/
def openService : Service where
  allowedFilterFields := none
  allowedOrderFields := none
  maxPageSize := 100
  maxPageSize_pos := Nat.succ_pos 99

/-- Everyone called Ann. -/
def annFilter : Dict Value := ⟨[("name".toList, .str "ann".toList)], by decide⟩

/-- Ann is there twice, once inactive. -/
def twoAnns : List (Str × Bool) := [("ann".toList, true), ("ann".toList, false)]

/-- No order, no limit, no offset. -/
def wholePage : Page := ⟨[], none, none⟩

/-- After a `list()`, `list(active_only=False)` misses the inactive row. -/
theorem list_hides_later_rows :
    ¬ ∀ (R : Type) (r : Reprs) (orm : Orm R) (svc : Service) (built : Dict Value)
        (rows : List R) (ls : List (SessionStep R)) (s : Session R),
      svc.allowedFilterFields = none → svc.allowedOrderFields = none →
      (machine r orm svc).run (Session.init built rows) ls = some s →
      s.Fresh r orm svc built := by
  intro halways
  have hfresh := halways (Str × Bool) ⟨fun _ => true, fun _ _ => []⟩ people openService annFilter
    twoAnns [.call (.list wholePage true), .call (.list wholePage false)] _ rfl rfl rfl
  have hanswer := hfresh
    ⟨.list wholePage false, twoAnns, .rows (.ok [("ann".toList, true)])⟩
    (List.mem_cons_of_mem _ List.mem_cons_self)
  have hrows : ([("ann".toList, true)] : List (Str × Bool)) = twoAnns :=
    Except.ok.inj (Answer.rows.inj hanswer)
  exact absurd (congrArg List.length hrows) (by decide)

/-- The other way round both are answered in full. -/
theorem list_all_before_list_active :
    Session.Fresh ⟨fun _ => true, fun _ _ => []⟩ people openService annFilter
      ⟨setActive annFilter, twoAnns,
        [⟨.list wholePage false, twoAnns, .rows (.ok twoAnns)⟩,
          ⟨.list wholePage true, twoAnns, .rows (.ok [("ann".toList, true)])⟩]⟩ := by
  have hguard : (machine ⟨fun _ => true, fun _ _ => []⟩ people openService).Meets
      (AsBuilt annFilter) (Session.init annFilter twoAnns)
      [.call (.list wholePage false), .call (.list wholePage true)] := by
    refine ⟨Or.inr rfl, ?_⟩
    rintro t ⟨⟩
    exact ⟨Or.inl rfl, fun _ _ => trivial⟩
  exact answers_fresh_of_asBuilt hguard rfl

end ServiceList

end DjangoBoilerplate
