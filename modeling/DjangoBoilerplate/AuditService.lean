import DjangoBoilerplate.CascadeConcurrent
import DjangoBoilerplate.CascadeDelete

/-!
# The service layer and its audit columns

`BaseService.create`, `update` and `delete` stamp `created_by` and `updated_by` with the
acting user. Each does it its own way: `create` by `setdefault` on the caller's `dict`,
`update` by `setattr` on the instance it is about to save, `delete` through
`update_fields` and the cascade's `UPDATE`.

A call can leave something behind for the next one: the `dict` given to `create` is the
caller's own object, and the stamp stays in it. The machine here therefore has the
caller's dictionaries in its state, by their identity. A call that raises is rolled back
in the database, not in the `dict`.
-/

namespace DjangoBoilerplate

namespace Audit

open Cascade

/-! ## Dictionaries and instances -/

/-- The columns of a `BaseModel` the cascade does not look at. -/
structure Columns (X : Type) : Type where
  /-- `created_by_id` -/
  createdBy : Option ℕ
  /-- `created_at` -/
  createdAt : ℕ
  /-- the columns of the model itself -/
  other : X

/-- An entry of a data `dict`. -/
inductive Entry (F X : Type) : Type where
  /-- `"id"`, or its alias `"pk"` -/
  | id : Option ℕ → Entry F X
  /-- `"created_by"`, a user or `None` -/
  | createdBy : Option ℕ → Entry F X
  /-- `"created_by_id"` -/
  | createdById : Option ℕ → Entry F X
  /-- `"updated_by"` -/
  | updatedBy : Option ℕ → Entry F X
  /-- `"updated_by_id"` -/
  | updatedById : Option ℕ → Entry F X
  /-- `"is_active"` -/
  | isActive : Bool → Entry F X
  /-- a foreign key -/
  | fk : F → Option ℕ → Entry F X
  /-- another column -/
  | other : (X → X) → Entry F X

/-- The entries of a `dict`, in order. -/
abbrev Data (F X : Type) : Type := List (Entry F X)

/-- Is it the entry `"created_by"`? -/
def Entry.isCreatedBy {F X : Type} : Entry F X → Bool
  | .createdBy _ => true
  | _ => false

/-- Does its name end in `_id`? -/
def Entry.isAttname {F X : Type} : Entry F X → Bool
  | .createdById _ => true
  | .updatedById _ => true
  | _ => false

/-- A model instance. -/
structure Instance (M F X : Type) : Type where
  /-- the model -/
  model : M
  /-- the primary key, `None` before the first save -/
  pk : Option ℕ
  /-- `is_active` -/
  isActive : Bool
  /-- `updated_by_id` -/
  updatedBy : Option ℕ
  /-- the foreign keys -/
  fk : F → Option ℕ
  /-- the other columns -/
  rest : Columns X

variable {M F X : Type}

/-- The instance a query makes of a row. -/
def instanceOf (r : Row M F (Columns X)) : Instance M F X :=
  ⟨r.model, some r.pk, r.isActive, r.updatedBy, r.fk, r.rest⟩

/-- The row an instance is saved as, under this key. -/
def Instance.row (i : Instance M F X) (pk now : ℕ) : Row M F (Columns X) :=
  ⟨i.model, pk, i.isActive, now, i.updatedBy, i.fk, i.rest⟩

variable [DecidableEq F]

/-- `setattr(instance, name, value)`. -/
def Instance.setattr (i : Instance M F X) : Entry F X → Instance M F X
  | .id pk => { i with pk := pk }
  | .createdBy u => { i with rest := { i.rest with createdBy := u } }
  | .createdById u => { i with rest := { i.rest with createdBy := u } }
  | .updatedBy u => { i with updatedBy := u }
  | .updatedById u => { i with updatedBy := u }
  | .isActive b => { i with isActive := b }
  | .fk f v => { i with fk := Function.update i.fk f v }
  | .other set => { i with rest := { i.rest with other := set i.rest.other } }

/-- `self.model(**data)`: the fields by their names, then what is left, the attribute
names that end in `_id`. -/
def construct (blank : Instance M F X) (data : Data F X) : Instance M F X :=
  (data.filter fun e => !e.isAttname).foldl Instance.setattr blank
    |> (data.filter fun e => e.isAttname).foldl Instance.setattr

/-- `apply_audit_fields(data, user, on_create=True)` of a `dict`:
`data.setdefault("created_by", user)`. -/
def applyAuditFields (data : Data F X) (user : ℕ) : Data F X :=
  if data.any Entry.isCreatedBy then data else data ++ [.createdBy (some user)]

/-! ## The service -/

variable [DecidableEq M]

/-- `instance.save()` of an instance under its key: an `UPDATE` of the row, or an
`INSERT` if there is none. -/
def save (s : Store M F (Columns X)) (r : Row M F (Columns X)) : Store M F (Columns X) :=
  if s.rows.any fun x => x.key == r.key then
    s.update (fun x => x.key == r.key) (fun x => if x.key = r.key then r else x) (by
      intro x
      split
      · next h => exact h.symm
      · rfl)
  else (s.insert [{ r with rest := { r.rest with createdAt := r.updatedAt } }]).getD s

/-- The row `update` works on. -/
def found (s : Store M F (Columns X)) (k : Key M) (activeOnly : Bool) :
    Option (Row M F (Columns X)) :=
  s.rows.find? fun r => r.key == k && (!activeOnly || r.isActive)

/-- The instance `update` saves. -/
def updated (r : Row M F (Columns X)) (data : Data F X) (user : ℕ) : Instance M F X :=
  { data.foldl Instance.setattr (instanceOf r) with updatedBy := some user }

/-- The database and the caller's dictionaries. -/
structure State (M F X : Type) : Type where
  /-- the rows -/
  store : Store M F (Columns X)
  /-- the `dict` objects, by identity -/
  dicts : ℕ → Data F X

/-- A call, or what the caller does to a `dict` of its own in between. `ok` is false
where the call raises: a validation error, a constraint, a field that does not take a
value. -/
inductive Label (M F X : Type) : Type where
  /-- the caller writes to a `dict` -/
  | write (dict : ℕ) (data : Data F X)
  /-- `create(data, user)`; `seq` is the next value of the table's sequence -/
  | create (model : M) (dict user seq now : ℕ) (ok : Bool)
  /-- `update(pk, data, user, active_only)` -/
  | update (k : Key M) (dict user : ℕ) (activeOnly : Bool) (seq now : ℕ) (ok : Bool)
  /-- `delete(pk, user=user)` -/
  | delete (k : Key M) (user : ℕ) (now : ℕ → ℕ) (fuel : ℕ)

variable (sch : Schema M F (Columns X)) (cap : ℕ) (clean : Row M F (Columns X) → Bool)
  (blank : M → Instance M F X)

/-- One call. -/
def step (s : State M F X) : Label M F X → Option (State M F X)
  | .write d data => some { s with dicts := Function.update s.dicts d data }
  | .create m d user seq now ok =>
    let data := applyAuditFields (s.dicts d) user
    -- the caller's `dict` is stamped whether the call goes through or not
    let s := { s with dicts := Function.update s.dicts d data }
    let i := construct (blank m) data
    let row := { i with rest := { i.rest with createdAt := now } }.row (i.pk.getD seq) now
    if ok then
      match s.store.insert [row] with
      | some store => some { s with store := store }
      | none => some s
    else some s
  | .update k d user activeOnly seq now ok =>
    match found s.store k activeOnly with
    | none => some s
    | some r =>
      if ok then
        let i := updated r (s.dicts d) user
        some { s with store := save s.store (i.row (i.pk.getD seq) now) }
      else some s
  | .delete k user now fuel =>
    match delete sch cap clean (some user) now fuel s.store k with
    | none => none
    | some (.ok (store, _)) => some { s with store := store }
    | some (.error _) => some s

/-- The service as a machine. -/
def machine : Machine (State M F X) (Label M F X) := ⟨step sch cap clean blank⟩

end Audit

end DjangoBoilerplate
