import Mathlib.Data.List.Basic

/-!
# Bulk insertion

`BaseService.bulk_create` of `apps/core/base/service.py` against `create`, one row at a time in
one transaction. `create` validates each row against the table as the rows before it left it;
`bulk_create` constructs all rows, then validates all against the table as it was, then inserts
all. `sameContract_iff` says for which lists that comes to the same.

The table is listed in the order of insertion, and a primary key the database gives is not a
part of the row.
-/

namespace DjangoBoilerplate

namespace BulkCreate

variable {D X V : Type}

/-! ## The two paths -/

/-- How a write raises. -/
inductive WriteError : Type where
  /-- the constructor does not take the data -/
  | typeError : WriteError
  /-- `full_clean()` raises `ValidationError` -/
  | validationError : WriteError
  /-- the `INSERT` repeats a value of a unique field -/
  | integrityError : WriteError
deriving DecidableEq

/-- A `BaseModel`. -/
structure Model (D X V : Type) : Type where
  /-- `self.model(**data)`, `none` if it raises -/
  construct : D → Option X
  /-- the field validators: the row with its values cleaned, `none` if one is invalid -/
  clean : X → Option X
  /-- the values of the unique fields; `NULL` repeats nothing -/
  uniqueFields : List (X → Option V)

variable [DecidableEq V] (m : Model D X V)

/-- Do two rows share a value of a unique field? -/
def Model.conflict (x y : X) : Bool := m.uniqueFields.any fun f => (f x).isSome && f x == f y

/-- `instance.full_clean()`: the validators, then `validate_unique()` against the table. -/
def Model.fullClean (rows : List X) (x : X) : Option X :=
  match m.clean x with
  | none => none
  | some y => if rows.any (m.conflict y) then none else some y

/-- `INSERT` of one row. -/
def Model.insert (rows : List X) (y : X) : Except WriteError (List X) :=
  if rows.any (m.conflict y) then .error .integrityError else .ok (rows ++ [y])

/-- `BaseService.create(data)`: the instance, `full_clean()` by `BaseModel.save()`, and the
`INSERT`. -/
def Model.create (rows : List X) (data : D) : Except WriteError (List X) :=
  match m.construct data with
  | none => .error .typeError
  | some x =>
    match m.fullClean rows x with
    | none => .error .validationError
    | some y => m.insert rows y

/-- `create(data)` for each of a list, in one transaction. -/
def Model.createEach : List X → List D → Except WriteError (List X)
  | rows, [] => .ok rows
  | rows, data :: dataList =>
    match m.create rows data with
    | .error e => .error e
    | .ok rows => createEach rows dataList

/-- The rows of `QuerySet.bulk_create`. -/
def Model.insertAll : List X → List X → Except WriteError (List X)
  | rows, [] => .ok rows
  | rows, y :: ys =>
    match m.insert rows y with
    | .error e => .error e
    | .ok rows => insertAll rows ys

/-- `BaseService.bulk_create(data_list)`, with `validate=True` and `ignore_conflicts=False`. -/
def Model.bulkCreate (rows : List X) (dataList : List D) : Except WriteError (List X) :=
  match dataList.mapM m.construct with
  | none => .error .typeError
  | some instances =>
    match instances.mapM (m.fullClean rows) with
    | none => .error .validationError
    | some cleaned => m.insertAll rows cleaned

/-- The table after a write: a transaction that raises is rolled back. -/
def after (rows : List X) (result : Except WriteError (List X)) : List X :=
  match result with
  | .ok rows => rows
  | .error _ => rows

/-- `bulk_create` keeps the contract of `create`: it raises `ValidationError` exactly for the
lists for which creating one after another does, and leaves the same rows. -/
structure SameContract (rows : List X) (dataList : List D) : Prop where
  /-- the same lists are invalid -/
  validation : m.bulkCreate rows dataList = .error .validationError ↔
    m.createEach rows dataList = .error .validationError
  /-- the same rows are inserted -/
  stored : after rows (m.bulkCreate rows dataList) = after rows (m.createEach rows dataList)

/-! ## Rows that go in together -/

/-- New rows none of which repeats a value, stored or new. -/
def Model.Distinct (rows ys : List X) : Prop :=
  (∀ y ∈ ys, rows.any (m.conflict y) = false) ∧ ys.Pairwise fun x y => m.conflict x y = false

theorem Model.distinct_nil (rows : List X) : m.Distinct rows [] :=
  ⟨fun _ hy => absurd hy List.not_mem_nil, .nil⟩

variable {m}

theorem Model.conflict_comm (x y : X) : m.conflict x y = m.conflict y x := by
  rw [Model.conflict, Model.conflict]
  congr 1
  funext f
  cases hx : f x with
  | none =>
    cases hy : f y with
    | none => rfl
    | some w => rfl
  | some v =>
    cases hy : f y with
    | none => rfl
    | some w => simp [BEq.comm (a := v)]

/-- The first of them goes in, and the others are new to the table with it. -/
theorem Model.distinct_cons {rows ys : List X} {y : X} :
    m.Distinct rows (y :: ys) ↔
      rows.any (m.conflict y) = false ∧ m.Distinct (rows ++ [y]) ys := by
  have happend : ∀ z, (rows ++ [y]).any (m.conflict z) = false ↔
      rows.any (m.conflict z) = false ∧ m.conflict y z = false := by
    intro z
    rw [List.any_append, Bool.or_eq_false_iff, List.any_cons, List.any_nil, Bool.or_false,
      Model.conflict_comm z y]
  simp only [Model.Distinct, List.forall_mem_cons, List.pairwise_cons, happend]
  constructor
  · rintro ⟨⟨hy, hys⟩, hyz, hpair⟩
    exact ⟨hy, fun z hz => ⟨hys z hz, hyz z hz⟩, hpair⟩
  · rintro ⟨hy, hboth, hpair⟩
    exact ⟨⟨hy, fun z hz => (hboth z hz).1⟩, fun z hz => (hboth z hz).2, hpair⟩

/-- A row that repeats nothing goes in. -/
theorem Model.insert_of_new {rows : List X} {y : X} (h : rows.any (m.conflict y) = false) :
    m.insert rows y = .ok (rows ++ [y]) := by
  simp [Model.insert, h]

/-- Distinct rows go in, -/
theorem Model.insertAll_of_distinct {rows ys : List X} (h : m.Distinct rows ys) :
    m.insertAll rows ys = .ok (rows ++ ys) := by
  induction ys generalizing rows with
  | nil => rw [Model.insertAll, List.append_nil]
  | cons y ys ih =>
    obtain ⟨hy, hrest⟩ := Model.distinct_cons.mp h
    simp only [Model.insertAll, Model.insert_of_new hy, ih hrest, List.append_assoc,
      List.singleton_append]

/-- and no others do. -/
theorem Model.insertAll_of_not_distinct {rows ys : List X} (h : ¬ m.Distinct rows ys) :
    m.insertAll rows ys = .error .integrityError := by
  induction ys generalizing rows with
  | nil => exact absurd (m.distinct_nil rows) h
  | cons y ys ih =>
    cases hy : rows.any (m.conflict y) with
    | true => simp only [Model.insertAll, Model.insert, hy, if_true]
    | false =>
      simp only [Model.insertAll, Model.insert_of_new hy]
      exact ih fun hrest => h (Model.distinct_cons.mpr ⟨hy, hrest⟩)

/-! ## One after another -/

/-- The instances of the data up to the first that does not construct. -/
def Model.constructed (m : Model D X V) : List D → List X
  | [] => []
  | data :: dataList =>
    match m.construct data with
    | none => []
    | some x => x :: constructed m dataList

/-- Instances that are valid, and distinct once cleaned. -/
def Model.Compatible (m : Model D X V) (rows xs : List X) : Prop :=
  (∀ x ∈ xs, (m.clean x).isSome = true) ∧ m.Distinct rows (xs.filterMap m.clean)

theorem Model.fullClean_eq_some {rows : List X} {x y : X} :
    m.fullClean rows x = some y ↔ m.clean x = some y ∧ rows.any (m.conflict y) = false := by
  rw [Model.fullClean]
  cases hclean : m.clean x with
  | none => simp
  | some z =>
    simp only [Option.some.injEq, Option.ite_none_left_eq_some, Bool.not_eq_true]
    constructor
    · rintro ⟨hnew, rfl⟩
      exact ⟨rfl, hnew⟩
    · rintro ⟨rfl, hnew⟩
      exact ⟨hnew, rfl⟩

theorem Model.compatible_nil (rows : List X) : m.Compatible rows [] :=
  ⟨fun _ hx => absurd hx List.not_mem_nil, m.distinct_nil rows⟩

/-- The first passes `full_clean()`, and the others are compatible with the table it is in. -/
theorem Model.compatible_cons {rows xs : List X} {x : X} :
    m.Compatible rows (x :: xs) ↔
      ∃ y, m.fullClean rows x = some y ∧ m.Compatible (rows ++ [y]) xs := by
  constructor
  · rintro ⟨hvalid, hdistinct⟩
    obtain ⟨hx, hxs⟩ := List.forall_mem_cons.mp hvalid
    obtain ⟨y, hy⟩ := Option.isSome_iff_exists.mp hx
    rw [List.filterMap_cons_some hy] at hdistinct
    obtain ⟨hnew, hrest⟩ := Model.distinct_cons.mp hdistinct
    exact ⟨y, Model.fullClean_eq_some.mpr ⟨hy, hnew⟩, hxs, hrest⟩
  · rintro ⟨y, hclean, hxs, hrest⟩
    obtain ⟨hy, hnew⟩ := Model.fullClean_eq_some.mp hclean
    refine ⟨List.forall_mem_cons.mpr ⟨by rw [hy]; rfl, hxs⟩, ?_⟩
    rw [List.filterMap_cons_some hy]
    exact Model.distinct_cons.mpr ⟨hnew, hrest⟩

/-- What `create` makes of data that constructs and cleans. -/
theorem Model.create_of_fullClean {rows : List X} {data : D} {x y : X}
    (hx : m.construct data = some x) (hy : m.fullClean rows x = some y) :
    m.create rows data = .ok (rows ++ [y]) := by
  obtain ⟨-, hnew⟩ := Model.fullClean_eq_some.mp hy
  simp only [Model.create, hx, hy, Model.insert_of_new hnew]

/-- Compatible rows are created, up to data that does not construct. -/
theorem Model.createEach_of_compatible {rows : List X} {dataList : List D}
    (h : m.Compatible rows (m.constructed dataList)) :
    m.createEach rows dataList =
      if dataList.all fun data => (m.construct data).isSome then
        .ok (rows ++ (m.constructed dataList).filterMap m.clean)
      else .error .typeError := by
  induction dataList generalizing rows with
  | nil => simp [Model.createEach, Model.constructed]
  | cons data dataList ih =>
    cases hx : m.construct data with
    | none => simp [Model.createEach, Model.create, hx]
    | some x =>
      rw [Model.constructed, hx] at h
      obtain ⟨y, hy, hrest⟩ := Model.compatible_cons.mp h
      have hclean := (Model.fullClean_eq_some.mp hy).1
      simp only [Model.createEach, Model.create_of_fullClean hx hy, ih hrest, Model.constructed,
        hx, List.filterMap_cons_some hclean, List.all_cons, Option.isSome_some, Bool.true_and,
        List.append_assoc, List.singleton_append]

/-- The first that is not compatible with those before it is invalid. -/
theorem Model.createEach_of_not_compatible {rows : List X} {dataList : List D}
    (h : ¬ m.Compatible rows (m.constructed dataList)) :
    m.createEach rows dataList = .error .validationError := by
  induction dataList generalizing rows with
  | nil => exact absurd (Model.compatible_nil rows) h
  | cons data dataList ih =>
    cases hx : m.construct data with
    | none =>
      rw [Model.constructed, hx] at h
      exact absurd (Model.compatible_nil rows) h
    | some x =>
      rw [Model.constructed, hx] at h
      cases hy : m.fullClean rows x with
      | none => simp only [Model.createEach, Model.create, hx, hy]
      | some y =>
        simp only [Model.createEach, Model.create_of_fullClean hx hy]
        exact ih fun hrest => h (Model.compatible_cons.mpr ⟨y, hy, hrest⟩)

/-! ## All at once -/

/-- `mapM` gives the values of all, if all have one. -/
theorem mapM_option {α β : Type} (f : α → Option β) (l : List α) :
    l.mapM f = if l.all fun a => (f a).isSome then some (l.filterMap f) else none := by
  induction l with
  | nil => rfl
  | cons a l ih =>
    rw [List.mapM_cons, ih]
    cases ha : f a with
    | none => simp [ha]
    | some b =>
      rw [List.filterMap_cons_some ha, List.all_cons, ha]
      cases hall : l.all fun a => (f a).isSome with
      | true => simp
      | false => simp

omit [DecidableEq V] in
/-- If all data constructs, these are the instances. -/
theorem Model.constructed_of_all {m : Model D X V} {dataList : List D}
    (h : (dataList.all fun data => (m.construct data).isSome) = true) :
    m.constructed dataList = dataList.filterMap m.construct := by
  induction dataList with
  | nil => rfl
  | cons data dataList ih =>
    rw [List.all_cons, Bool.and_eq_true] at h
    obtain ⟨hhead, hrest⟩ := h
    obtain ⟨x, hx⟩ := Option.isSome_iff_exists.mp hhead
    rw [List.filterMap_cons_some hx, ← ih hrest, Model.constructed, hx]

/-- Data that does not construct is found first. -/
theorem Model.bulkCreate_of_not_constructible {rows : List X} {dataList : List D}
    (h : (dataList.all fun data => (m.construct data).isSome) = false) :
    m.bulkCreate rows dataList = .error .typeError := by
  rw [Model.bulkCreate, mapM_option, h]
  rfl

section Constructible

variable {rows : List X} {dataList : List D}
  (hall : (dataList.all fun data => (m.construct data).isSome) = true)
include hall

/-- Then a row that is invalid by itself. -/
theorem Model.bulkCreate_of_rejected (h : ∃ x ∈ m.constructed dataList, m.fullClean rows x = none) :
    m.bulkCreate rows dataList = .error .validationError := by
  have hnone : ((m.constructed dataList).all fun x => (m.fullClean rows x).isSome) = false := by
    obtain ⟨x, hx, hclean⟩ := h
    refine List.all_eq_false.mpr ⟨x, hx, ?_⟩
    rw [hclean]
    exact Bool.false_ne_true
  simp only [Model.bulkCreate, mapM_option, hall, if_true, ← Model.constructed_of_all hall, hnone,
    Bool.false_eq_true, if_false]

/-- Then rows that are invalid together, by the database. -/
theorem Model.bulkCreate_of_accepted
    (h : ∀ x ∈ m.constructed dataList, ∃ y, m.fullClean rows x = some y) :
    m.bulkCreate rows dataList =
      m.insertAll rows ((m.constructed dataList).filterMap m.clean) := by
  have hsome : ((m.constructed dataList).all fun x => (m.fullClean rows x).isSome) = true := by
    refine List.all_eq_true.mpr fun x hx => ?_
    obtain ⟨y, hy⟩ := h x hx
    rw [hy]
    rfl
  have hclean : (m.constructed dataList).filterMap (m.fullClean rows) =
      (m.constructed dataList).filterMap m.clean := by
    refine List.filterMap_congr fun x hx => ?_
    obtain ⟨y, hy⟩ := h x hx
    rw [hy, (Model.fullClean_eq_some.mp hy).1]
  simp only [Model.bulkCreate, mapM_option, hall, if_true, ← Model.constructed_of_all hall, hsome,
    hclean]

end Constructible

/-! ## The paths compared -/

/-- Compatible instances are accepted each. -/
theorem Model.Compatible.accepted {rows xs : List X} (h : m.Compatible rows xs) {x : X}
    (hx : x ∈ xs) : ∃ y, m.fullClean rows x = some y := by
  obtain ⟨hvalid, hnew, -⟩ := h
  obtain ⟨y, hy⟩ := Option.isSome_iff_exists.mp (hvalid x hx)
  exact ⟨y, Model.fullClean_eq_some.mpr ⟨hy, hnew y (List.mem_filterMap.mpr ⟨x, hx, hy⟩)⟩⟩

/-- For compatible instances the two are one. -/
theorem Model.bulkCreate_of_compatible {rows : List X} {dataList : List D}
    (h : m.Compatible rows (m.constructed dataList)) :
    m.bulkCreate rows dataList = m.createEach rows dataList := by
  rw [Model.createEach_of_compatible h]
  cases hall : dataList.all fun data => (m.construct data).isSome with
  | false => exact Model.bulkCreate_of_not_constructible hall
  | true =>
    rw [Model.bulkCreate_of_accepted hall fun x hx => h.accepted hx,
      Model.insertAll_of_distinct h.2]
    rfl

/-- When `bulk_create` raises `ValidationError`. -/
theorem Model.bulkCreate_eq_validationError {rows : List X} {dataList : List D} :
    m.bulkCreate rows dataList = .error .validationError ↔
      (∀ data ∈ dataList, (m.construct data).isSome = true) ∧
        ∃ x ∈ m.constructed dataList, m.fullClean rows x = none := by
  rw [← List.all_eq_true]
  constructor
  · intro h
    cases hall : dataList.all fun data => (m.construct data).isSome with
    | false =>
      rw [Model.bulkCreate_of_not_constructible hall] at h
      cases h
    | true =>
      refine ⟨rfl, ?_⟩
      by_contra hnone
      have haccepted : ∀ x ∈ m.constructed dataList, ∃ y, m.fullClean rows x = some y :=
        fun x hx => Option.ne_none_iff_exists'.mp fun hx' => hnone ⟨x, hx, hx'⟩
      -- the `INSERT` has an error of its own
      rw [Model.bulkCreate_of_accepted hall haccepted] at h
      by_cases hdistinct : m.Distinct rows ((m.constructed dataList).filterMap m.clean)
      · rw [Model.insertAll_of_distinct hdistinct] at h
        cases h
      · rw [Model.insertAll_of_not_distinct hdistinct] at h
        cases h
  · rintro ⟨hall, hrejected⟩
    exact Model.bulkCreate_of_rejected hall hrejected

variable (m)

/-- **Bulk insertion.** `bulk_create` keeps the contract of `create` exactly if all data
constructs and some row is invalid by itself, or the rows up to the first data that does not
construct are compatible with the table and with each other. -/
theorem sameContract_iff (rows : List X) (dataList : List D) :
    SameContract m rows dataList ↔
      ((∀ data ∈ dataList, (m.construct data).isSome = true) ∧
          ∃ x ∈ m.constructed dataList, m.fullClean rows x = none) ∨
        m.Compatible rows (m.constructed dataList) := by
  rw [← Model.bulkCreate_eq_validationError]
  by_cases hcompat : m.Compatible rows (m.constructed dataList)
  · have heq := Model.bulkCreate_of_compatible hcompat
    exact iff_of_true ⟨by rw [heq], by rw [heq]⟩ (Or.inr hcompat)
  · have heach := Model.createEach_of_not_compatible hcompat
    constructor
    · intro h
      exact Or.inl (h.validation.mpr heach)
    · rintro (hbulk | hcompat')
      · exact ⟨iff_of_true hbulk heach, by rw [hbulk, heach]⟩
      · exact absurd hcompat' hcompat

/-- A model with a `code` that is unique, and at most `3`. -/
def codeModel : Model ℕ ℕ ℕ where
  construct := some
  clean x := if x ≤ 3 then some x else none
  uniqueFields := [some]

/-- Two rows with one code: creating them one after another is a `ValidationError`, in bulk it
is an `IntegrityError`. -/
theorem repeated_code_not_sameContract :
    ¬ ∀ (m : Model ℕ ℕ ℕ) (rows dataList : List ℕ), SameContract m rows dataList := by
  intro halways
  have hbulk := (halways codeModel [] [1, 1]).validation.mpr (by decide)
  revert hbulk
  decide

end BulkCreate

end DjangoBoilerplate
