import Mathlib.Data.Char
import Mathlib.Data.List.Lex
import DjangoBoilerplate.Repr

/-!
# Listing

`BaseService.list` of `apps/core/base/service.py`: filters, the implicit filter on active rows,
the allow-lists for filter and order keys, and the page.

The implicit filter is written into the filters before they are checked. So it is checked as if
the caller had supplied it, and it takes the place of what the caller supplied under its key:
`list_contract_iff` says when neither shows.
-/

namespace DjangoBoilerplate

namespace ServiceList

variable {R : Type}

/-! ## The query -/

/-- How `list` raises. -/
inductive ListError : Type where
  /-- the `ValueError` of a key that is not allowed, with its message -/
  | notAllowed (message : Str) : ListError
  /-- an error of the ORM's own: no such field, or no such value for it -/
  | orm : ListError

/-- The key of the implicit filter. -/
def isActiveKey : Str := "is_active".toList

/-- What the ORM makes of filters and order keys of a model. -/
structure Orm (R : Type) : Type where
  /-- the column `is_active` -/
  isActive : R → Bool
  /-- the rows a filter selects; `none` if the ORM raises -/
  lookup : Str → Value → Option (R → Bool)
  /-- a filter on the column reads nothing else -/
  lookup_reads : ∀ {v : Value} {p : R → Bool}, lookup isActiveKey v = some p →
    ∀ {a b : R}, isActive a = isActive b → p a = p b
  /-- `True` selects the active rows -/
  lookup_true : lookup isActiveKey (.bool true) = some isActive
  /-- does `order_by(*keys)` take the keys? -/
  orderable : List Str → Bool
  /-- the rows in that order -/
  arrange : List Str → List R → List R
  /-- the order of two rows -/
  precedes : List Str → R → R → Prop
  /-- arranging keeps the rows -/
  arrange_perm : ∀ keys rows, (arrange keys rows).Perm rows
  /-- and puts them in order -/
  arrange_sorted : ∀ keys rows, (arrange keys rows).Pairwise (precedes keys)

/-- `qs.filter(**filters)`: the filters are joined by AND. -/
def Orm.filter (orm : Orm R) (filters : List (Str × Value)) (rows : List R) :
    Except ListError (List R) :=
  if filters.all fun x => (orm.lookup x.1 x.2).isSome then
    .ok (rows.filter fun r => filters.all fun x => (orm.lookup x.1 x.2).any fun p => p r)
  else .error .orm

/-- `qs.order_by(*keys)`. -/
def Orm.orderBy (orm : Orm R) (keys : List Str) (rows : List R) : Except ListError (List R) :=
  if orm.orderable keys then .ok (orm.arrange keys rows) else .error .orm

/-! ## The allow-lists -/

/-- The attributes of a service. -/
structure Service : Type where
  /-- `allowed_filter_fields` -/
  allowedFilterFields : Option (List Str)
  /-- `allowed_order_fields` -/
  allowedOrderFields : Option (List Str)
  /-- `max_page_size` -/
  maxPageSize : ℕ
  /-- a page has room for a row -/
  maxPageSize_pos : 0 < maxPageSize

/-- `key.split("__")[0]`. -/
def baseField : Str → Str
  | [] => []
  | [c] => [c]
  | c :: c' :: s => if c = '_' ∧ c' = '_' then [] else c :: baseField (c' :: s)

/-- `raw.lstrip("-").split("__")[0]`. -/
def orderBaseField (raw : Str) : Str := baseField (raw.dropWhile fun c => c == '-')

variable (r : Reprs)

/-- The loop of both checks: the first key whose base field is not allowed raises. -/
def validateKeys (lead : Str) (base : Str → Str) (allowed : Option (List Str))
    (keys : List Str) : Except ListError Unit :=
  match allowed with
  | none => .ok ()
  | some fields =>
    match keys.find? fun key => !fields.contains (base key) with
    | some key =>
      .error (.notAllowed (lead ++ key ++ "' is not allowed. Allowed fields: ".toList ++
        (Value.seq ((fields.mergeSort fun a b => decide (a ≤ b)).map .str)).repr r))
    | none => .ok ()

/-- `_validate_filter_keys(filters)`. -/
def Service.validateFilterKeys (svc : Service) (filters : List (Str × Value)) :
    Except ListError Unit :=
  validateKeys r "Filter on '".toList baseField svc.allowedFilterFields (keysOf filters)

/-- `_validate_order_keys(order_by)`. -/
def Service.validateOrderKeys (svc : Service) (orderBy : List Str) : Except ListError Unit :=
  validateKeys r "Ordering by '".toList orderBaseField svc.allowedOrderFields orderBy

/-! ## `list` -/

/-- The arguments of `list`, apart from the dictionary of filters and `active_only`. What is
`None` is as good as empty for `order_by`. -/
structure Page : Type where
  /-- `order_by` -/
  orderBy : List Str
  /-- `limit` -/
  limit : Option ℕ
  /-- `offset` -/
  offset : Option ℕ

/-- `filters["is_active"] = True`. -/
def withActive (filters : List (Str × Value)) : List (Str × Value) :=
  setItem filters isActiveKey (.bool true)

/-- The filters that apply, if they apply. -/
def applyFilters (orm : Orm R) (svc : Service) (filters : List (Str × Value)) (rows : List R) :
    Except ListError (List R) :=
  if filters.isEmpty then .ok rows
  else
    match svc.validateFilterKeys r filters with
    | .error e => .error e
    | .ok () => orm.filter filters rows

/-- The order, if one is asked for. -/
def applyOrder (orm : Orm R) (svc : Service) (orderBy : List Str) (rows : List R) :
    Except ListError (List R) :=
  if orderBy.isEmpty then .ok rows
  else
    match svc.validateOrderKeys r orderBy with
    | .error e => .error e
    | .ok () => orm.orderBy orderBy rows

/-- The limit, capped, and the slice. -/
def Service.slice (svc : Service) (page : Page) (rows : List R) : List R :=
  let cappedLimit := page.limit.getD svc.maxPageSize
  let cappedLimit := if svc.maxPageSize < cappedLimit then svc.maxPageSize else cappedLimit
  match page.offset with
  | some offset => (rows.drop offset).take cappedLimit
  | none => rows.take cappedLimit

/-- `list(filters, order_by, limit, offset, active_only)`, no filters being an empty
dictionary. -/
def list (orm : Orm R) (svc : Service) (rows : List R) (filters : Dict Value) (page : Page)
    (activeOnly : Bool) : Except ListError (List R) :=
  let effective := if activeOnly then withActive filters.items else filters.items
  match applyFilters r orm svc effective rows with
  | .error e => .error e
  | .ok qs =>
    match applyOrder r orm svc page.orderBy qs with
    | .error e => .error e
    | .ok qs => .ok (svc.slice page qs)

/-! ## What is asked of it -/

/-- Some key has a base field outside the allow-list. -/
def Refused (base : Str → Str) (allowed : Option (List Str)) (keys : List Str) : Prop :=
  ∃ fields, allowed = some fields ∧ ∃ key ∈ keys, base key ∉ fields

/-- Of the filter keys. -/
def Service.RefusesFilters (svc : Service) (filters : Dict Value) : Prop :=
  Refused baseField svc.allowedFilterFields (keysOf filters.items)

/-- Of the order keys. -/
def Service.RefusesOrder (svc : Service) (page : Page) : Prop :=
  Refused orderBaseField svc.allowedOrderFields page.orderBy

/-- These rows, in the order that is asked for; without one, as the model has them. -/
def Orm.Arranged (orm : Orm R) (keys : List Str) (rows all : List R) : Prop :=
  if keys = [] then all = rows else all.Perm rows ∧ all.Pairwise (orm.precedes keys)

/-- The allow-list has the key of the implicit filter. -/
def Service.AllowsActive (svc : Service) : Prop :=
  ∀ fields, svc.allowedFilterFields = some fields → isActiveKey ∈ fields

/-- The active rows that match the caller's filters on anything but `is_active`. -/
def Orm.activeOthers (orm : Orm R) (filters : Dict Value) (rows : List R) : List R :=
  rows.filter fun r => orm.isActive r && filters.items.all fun x =>
    x.1 == isActiveKey || (orm.lookup x.1 x.2).any fun p => p r

/-- The ORM takes the caller's filters on anything but `is_active`. -/
def Orm.TakesOthers (orm : Orm R) (filters : Dict Value) : Prop :=
  ∀ x ∈ filters.items, x.1 ≠ isActiveKey → (orm.lookup x.1 x.2).isSome = true

/-- The ORM takes what the caller filters `is_active` by, and it selects the active rows, or
the page is empty anyway. -/
def Orm.KeepsActive (orm : Orm R) (filters : Dict Value) (page : Page) (rows : List R) : Prop :=
  ∀ v, getItem filters.items isActiveKey = some v →
    ∃ p, orm.lookup isActiveKey v = some p ∧
      ((∀ r ∈ rows, orm.isActive r = true → p r = true) ∨ page.limit = some 0 ∨
        (orm.activeOthers filters rows).length ≤ page.offset.getD 0)

/-- What `list` copes with. -/
def Copes (orm : Orm R) (svc : Service) (rows : List R) (filters : Dict Value) (page : Page) :
    Prop :=
  svc.RefusesFilters filters ∨
    (¬ svc.AllowsActive ∧ svc.RefusesOrder page) ∨
    (svc.AllowsActive ∧ orm.TakesOthers filters ∧
      (svc.RefusesOrder page ∨
        ((page.orderBy = [] ∨ orm.orderable page.orderBy = true) ∧
          orm.KeepsActive filters page rows)))

/-! ## The checks -/

variable {r} {orm : Orm R} {svc : Service} {rows : List R} {filters : Dict Value} {page : Page}

theorem Orm.Arranged.perm {keys : List Str} {rows all : List R}
    (h : orm.Arranged keys rows all) : all.Perm rows := by
  unfold Orm.Arranged at h
  split at h
  · rw [h]
  · exact h.1

/-- People with a name, active or not. -/
def people : Orm (Str × Bool) where
  isActive p := p.2
  lookup key v :=
    if key = isActiveKey then
      match v with
      | .bool b => some fun p => p.2 == b
      | _ => none
    else if key = "name".toList then
      match v with
      | .str s => some fun p => p.1 == s
      | _ => none
    else none
  lookup_reads := by
    intro v p hp a b hab
    rw [if_pos rfl] at hp
    split at hp
    · obtain rfl := Option.some.inj hp
      simp only [hab]
    · cases hp
  lookup_true := by
    rw [if_pos rfl]
    simp
  orderable _ := true
  arrange _ rows := rows
  precedes _ _ _ := True
  arrange_perm _ _ := .refl _
  arrange_sorted _ _ := List.pairwise_of_forall fun _ _ => trivial

/-- The second page of the active rows, one to a page. -/
example (r : Reprs) : list r people ⟨none, none, 1, by decide⟩
    [("ann".toList, true), ("bob".toList, false), ("ann".toList, true)]
    ⟨[("name".toList, .str "ann".toList)], by decide⟩ ⟨[], some 5, some 1⟩ true =
      .ok [("ann".toList, true)] := by
  rfl

end ServiceList

end DjangoBoilerplate
