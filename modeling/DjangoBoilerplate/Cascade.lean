import DjangoBoilerplate.Layers
import DjangoBoilerplate.Machine

/-!
# Cascading soft delete

`BaseService.delete(pk, soft=True)` and the walk it starts,
`BaseService._cascade_soft_delete_bfs` (`apps/core/base/service.py`), over an
arbitrary schema and an arbitrary store of rows.

The walk is given by its atomic steps (`next`): a row is taken off the frontier,
the relations of its model are gone through one by one, and each relation runs
two queries, a `SELECT` of the active children (`list(related_qs)`) and an
`UPDATE` of the active children (`related_qs.update(...)`). `drive` repeats the
steps with nothing in between; the interleaving with other transactions uses
the same steps.

What is outside the source is taken from Django: `_meta.related_objects` lists
the reverse relations of both kinds, the reverse accessor of a foreign key is a
manager, the reverse accessor of a one-to-one field is the related instance or
raises, and `update()` raises on a field the model does not have.
-/

namespace DjangoBoilerplate

namespace Cascade

/-! ## Schemas and stores -/

/-- `on_delete` of a relation. -/
inductive OnDelete : Type where
  | cascade
  | protect
  | restrict
  | setNull
  | setDefault
  | doNothing
  deriving DecidableEq

/-- The kind of the field behind a reverse relation. -/
inductive RelKind : Type where
  /-- `ForeignKey` -/
  | foreignKey
  /-- `OneToOneField` -/
  | oneToOne
  deriving DecidableEq

/-- An entry of `_meta.related_objects`. -/
structure Rel (M F : Type) : Type where
  /-- `related_model`, the model with the field -/
  relatedModel : M
  /-- the field -/
  field : F
  /-- its kind -/
  kind : RelKind
  /-- its `on_delete` -/
  onDelete : OnDelete

/-- A row is named by its model and its primary key. -/
structure Key (M : Type) : Type where
  /-- the model -/
  model : M
  /-- the primary key -/
  pk : ℕ
  deriving DecidableEq

/-- A row. The audit columns are read only where the model has them. -/
structure Row (M F X : Type) : Type where
  /-- the model -/
  model : M
  /-- the primary key -/
  pk : ℕ
  /-- `is_active` -/
  isActive : Bool
  /-- `updated_at` -/
  updatedAt : ℕ
  /-- `updated_by_id` -/
  updatedBy : Option ℕ
  /-- the foreign keys, `NULL` or a primary key -/
  fk : F → Option ℕ
  /-- the other columns -/
  rest : X

variable {M F X : Type}

/-- The name of a row. -/
def Row.key (r : Row M F X) : Key M := ⟨r.model, r.pk⟩

/-- A schema: what the walk asks of the models. -/
structure Schema (M F X : Type) : Type where
  /-- `hasattr(model, "is_active")` -/
  hasIsActive : M → Bool
  /-- does the model have `updated_at`? -/
  hasUpdatedAt : M → Bool
  /-- `hasattr(model, "updated_by")` -/
  hasUpdatedBy : M → Bool
  /-- `_meta.related_objects` -/
  relatedObjects : M → List (Rel M F)
  /-- the order in which a query returns the rows of a model -/
  ordering : M → List (Row M F X) → List (Row M F X)
  /-- which is some order of them -/
  ordering_perm : ∀ m rows, (ordering m rows).Perm rows

/-- The rows of the database, under distinct names. -/
structure Store (M F X : Type) : Type where
  /-- the rows -/
  rows : List (Row M F X)
  /-- a primary key is unique in its table -/
  nodup : (rows.map Row.key).Nodup

/-- A name names one row. -/
theorem Store.eq_of_key_eq (s : Store M F X) {r r' : Row M F X} (hr : r ∈ s.rows)
    (hr' : r' ∈ s.rows) (h : r.key = r'.key) : r = r' :=
  List.inj_on_of_nodup_map s.nodup hr hr' h

/-- `UPDATE ... WHERE`. -/
def Store.update (s : Store M F X) (p : Row M F X → Bool) (f : Row M F X → Row M F X)
    (hf : ∀ r, (f r).key = r.key) : Store M F X where
  rows := s.rows.map fun r => if p r then f r else r
  nodup := by
    have hkey : ∀ r : Row M F X, (if p r then f r else r).key = r.key := by
      intro r
      split
      · exact hf r
      · rfl
    have hkeys : s.rows.map (Row.key ∘ fun r => if p r then f r else r) = s.rows.map Row.key :=
      List.map_congr_left fun r _ => hkey r
    rw [List.map_map, hkeys]
    exact s.nodup

/-- The columns a soft delete writes: `is_active`, `updated_at` and, when there
is a user and the model has the field, `updated_by`. -/
def Schema.deactivate (sch : Schema M F X) (user : Option ℕ) (now : ℕ) (r : Row M F X) :
    Row M F X :=
  { r with
    isActive := false
    updatedAt := now
    updatedBy := if user.isSome && sch.hasUpdatedBy r.model then user else r.updatedBy }

@[simp] theorem Schema.deactivate_key (sch : Schema M F X) (user : Option ℕ) (now : ℕ)
    (r : Row M F X) : (sch.deactivate user now r).key = r.key := rfl

@[simp] theorem Schema.deactivate_isActive (sch : Schema M F X) (user : Option ℕ) (now : ℕ)
    (r : Row M F X) : (sch.deactivate user now r).isActive = false := rfl

variable [DecidableEq M]

/-- The rows a relation's manager filters on, the active ones or not. -/
def Row.refersTo (r : Row M F X) (cur : Key M) (rel : Rel M F) : Bool :=
  r.model == rel.relatedModel && r.fk rel.field == some cur.pk

/-- `getattr(current, accessor).filter(is_active=True)`. -/
def Row.isActiveChild (r : Row M F X) (cur : Key M) (rel : Rel M F) : Bool :=
  r.refersTo cur rel && r.isActive

/-! ## The walk -/

/-- How the walk raises. -/
inductive Raise : Type where
  /-- the related instance has no `filter` -/
  | attributeError
  /-- there is no related instance -/
  | relatedObjectDoesNotExist
  /-- `update()` names a field the model does not have -/
  | fieldDoesNotExist
  deriving DecidableEq

/-- Where the walk stands. -/
inductive Pc (M F : Type) : Type where
  /-- at the top of `while frontier` -/
  | idle : Pc M F
  /-- in `for rel in current._meta.related_objects`, with the relations to go -/
  | relations (cur : Key M) (depth : ℕ) (rels : List (Rel M F)) : Pc M F
  /-- between the `SELECT` and the `UPDATE` of a relation, with the children -/
  | selected (cur : Key M) (depth : ℕ) (rel : Rel M F) (children : List (Key M))
      (rels : List (Rel M F)) : Pc M F

/-- The walk and the database it works on. -/
structure Walk (M F X : Type) : Type where
  /-- the rows -/
  store : Store M F X
  /-- the deque of instances and depths -/
  frontier : List (Key M × ℕ)
  /-- where it stands -/
  pc : Pc M F
  /-- everything ever put on the frontier -/
  pushed : List (Key M × ℕ)

/-- What a step comes to. -/
inductive Next (M F X : Type) : Type where
  /-- the walk goes on -/
  | step : Walk M F X → Next M F X
  /-- the frontier is empty -/
  | done : Next M F X
  /-- an exception -/
  | raise : Raise → Next M F X

/-- `list(related_qs)`: the active children, in the order of their model. -/
def Schema.select (sch : Schema M F X) (s : Store M F X) (cur : Key M)
    (rel : Rel M F) : List (Key M) :=
  (sch.ordering rel.relatedModel (s.rows.filter fun r => r.isActiveChild cur rel)).map Row.key

/-- One atomic step of `_cascade_soft_delete_bfs`, at a time. `cap` is
`MAX_CASCADE_DEPTH`. -/
def next (sch : Schema M F X) (cap : ℕ) (user : Option ℕ) (now : ℕ)
    (w : Walk M F X) : Next M F X :=
  match w.pc with
  | .idle =>
    match w.frontier with
    | [] => .done
    | (cur, depth) :: rest =>
      if cap ≤ depth then .step { w with frontier := rest }
      else
        .step { w with
          frontier := rest
          pc := .relations cur depth (sch.relatedObjects cur.model) }
  | .relations _ _ [] => .step { w with pc := .idle }
  | .relations cur depth (rel :: rels) =>
    if rel.onDelete ≠ .cascade then .step { w with pc := .relations cur depth rels }
    else if sch.hasIsActive rel.relatedModel = false then
      .step { w with pc := .relations cur depth rels }
    else
      match rel.kind with
      | .oneToOne =>
        -- `getattr(current, accessor)` is an instance, or it raises
        if w.store.rows.any fun r => r.refersTo cur rel then .raise .attributeError
        else .raise .relatedObjectDoesNotExist
      | .foreignKey =>
        .step { w with pc := .selected cur depth rel (sch.select w.store cur rel) rels }
  | .selected cur depth rel children rels =>
    if sch.hasUpdatedAt rel.relatedModel = false then .raise .fieldDoesNotExist
    else
      .step
        { store := w.store.update (fun r => r.isActiveChild cur rel) (sch.deactivate user now)
            (sch.deactivate_key user now)
          frontier := w.frontier ++ children.map fun k => (k, depth + 1)
          pc := .relations cur depth rels
          pushed := w.pushed ++ children.map fun k => (k, depth + 1) }

/-- The walk on its own: step after step, the `n`-th at the time `now n`. `none`
is too little fuel. -/
def drive (sch : Schema M F X) (cap : ℕ) (user : Option ℕ) (now : ℕ → ℕ) :
    ℕ → ℕ → Walk M F X → Option (Except Raise (Walk M F X))
  | 0, _, _ => none
  | fuel + 1, n, w =>
    match next sch cap user (now n) w with
    | .done => some (.ok w)
    | .raise e => some (.error e)
    | .step w' => drive sch cap user now fuel (n + 1) w'

/-- The walk before its first step: the root alone on the frontier. -/
def Walk.start (s : Store M F X) (root : Key M) : Walk M F X where
  store := s
  frontier := [(root, 0)]
  pc := .idle
  pushed := [(root, 0)]

/-- `_cascade_soft_delete_bfs(instance, user)`. -/
def cascadeSoftDeleteBfs (sch : Schema M F X) (cap : ℕ) (user : Option ℕ)
    (now : ℕ → ℕ) (fuel : ℕ) (s : Store M F X) (root : Key M) :
    Option (Except Raise (Walk M F X)) :=
  drive sch cap user now fuel 0 (.start s root)

/-! ## `BaseService.delete` -/

/-- How `delete` raises. -/
inductive DeleteError : Type where
  /-- `instance.save()` fails its validation -/
  | validation : DeleteError
  /-- the walk raised; the transaction is rolled back -/
  | cascade : Raise → DeleteError
  deriving DecidableEq

/-- The row `delete` works on: `.filter(pk=pk).filter(is_active=True).first()`. -/
def Store.active (s : Store M F X) (k : Key M) : Option (Row M F X) :=
  s.rows.find? fun r => r.key == k && r.isActive

/-- `delete(pk, soft=True, user=user)` of a service whose model is `k.model`,
with what it leaves in the database. -/
def delete (sch : Schema M F X) (cap : ℕ) (clean : Row M F X → Bool)
    (user : Option ℕ) (now : ℕ → ℕ) (fuel : ℕ) (s : Store M F X) (k : Key M) :
    Option (Except DeleteError (Store M F X × Bool)) :=
  match s.active k with
  | none => some (.ok (s, false))
  | some r =>
    if clean (sch.deactivate user (now 0) r) then
      let saved := s.update (fun x => x.key == k) (sch.deactivate user (now 0))
        (sch.deactivate_key user (now 0))
      match cascadeSoftDeleteBfs sch cap user (fun n => now (n + 1)) fuel saved k with
      | none => none
      | some (.ok w) => some (.ok (w.store, true))
      | some (.error e) => some (.error (.cascade e))
    else some (.error .validation)

/-! ## What a step can do -/

variable (sch : Schema M F X)

/-- The relations the walk follows: `CASCADE`, to a model with `is_active`. -/
def Rel.Followed (rel : Rel M F) : Prop :=
  rel.onDelete = .cascade ∧ sch.hasIsActive rel.relatedModel = true

/-- The relations it gets through without an exception. -/
def Rel.Safe (rel : Rel M F) : Prop :=
  rel.Followed sch → rel.kind = .foreignKey ∧ sch.hasUpdatedAt rel.relatedModel = true

/-- The steps of the walk, one by one. -/
inductive StepsTo (cap : ℕ) (user : Option ℕ) (now : ℕ) : Walk M F X → Walk M F X → Prop where
  /-- a row at the cap is passed over -/
  | skip {s : Store M F X} {cur : Key M} {depth : ℕ} {rest pushed : List (Key M × ℕ)}
      (hcap : cap ≤ depth) :
    StepsTo cap user now ⟨s, (cur, depth) :: rest, .idle, pushed⟩ ⟨s, rest, .idle, pushed⟩
  /-- a row is taken off the frontier -/
  | pop {s : Store M F X} {cur : Key M} {depth : ℕ} {rest pushed : List (Key M × ℕ)}
      (hcap : depth < cap) :
    StepsTo cap user now ⟨s, (cur, depth) :: rest, .idle, pushed⟩
      ⟨s, rest, .relations cur depth (sch.relatedObjects cur.model), pushed⟩
  /-- a relation is passed over -/
  | ignore {s : Store M F X} {frontier pushed : List (Key M × ℕ)} {cur : Key M} {depth : ℕ}
      {rel : Rel M F} {rels : List (Rel M F)} (hnot : ¬ rel.Followed sch) :
    StepsTo cap user now ⟨s, frontier, .relations cur depth (rel :: rels), pushed⟩
      ⟨s, frontier, .relations cur depth rels, pushed⟩
  /-- its active children are selected -/
  | select {s : Store M F X} {frontier pushed : List (Key M × ℕ)} {cur : Key M} {depth : ℕ}
      {rel : Rel M F} {rels : List (Rel M F)} (hfollowed : rel.Followed sch)
      (hkind : rel.kind = .foreignKey) :
    StepsTo cap user now ⟨s, frontier, .relations cur depth (rel :: rels), pushed⟩
      ⟨s, frontier, .selected cur depth rel (sch.select s cur rel) rels, pushed⟩
  /-- its active children are deactivated, and the selected ones pushed -/
  | update {s : Store M F X} {frontier pushed : List (Key M × ℕ)} {cur : Key M} {depth : ℕ}
      {rel : Rel M F} {children : List (Key M)} {rels : List (Rel M F)}
      (hstamp : sch.hasUpdatedAt rel.relatedModel = true) :
    StepsTo cap user now ⟨s, frontier, .selected cur depth rel children rels, pushed⟩
      ⟨s.update (fun r => r.isActiveChild cur rel) (sch.deactivate user now)
          (sch.deactivate_key user now),
        frontier ++ children.map fun k => (k, depth + 1), .relations cur depth rels,
        pushed ++ children.map fun k => (k, depth + 1)⟩
  /-- the relations are done with -/
  | finish {s : Store M F X} {frontier pushed : List (Key M × ℕ)} {cur : Key M} {depth : ℕ} :
    StepsTo cap user now ⟨s, frontier, .relations cur depth [], pushed⟩
      ⟨s, frontier, .idle, pushed⟩

variable {sch} {cap : ℕ} {user : Option ℕ} {now : ℕ} {w w' : Walk M F X}

/-- **Inversion**: every step is one of these. -/
theorem stepsTo_of_next (h : next sch cap user now w = .step w') :
    StepsTo sch cap user now w w' := by
  obtain ⟨s, frontier, pc, pushed⟩ := w
  cases pc with
  | idle =>
    rcases frontier with _ | ⟨⟨cur, depth⟩, rest⟩
    · cases h
    · simp only [next] at h
      split at h
      · next hcap =>
        cases h
        exact .skip hcap
      · next hcap =>
        cases h
        exact .pop (Nat.not_le.mp hcap)
  | relations cur depth rels =>
    rcases rels with _ | ⟨rel, rels⟩
    · cases h
      exact .finish
    · simp only [next] at h
      split at h
      · next honDelete =>
        cases h
        exact .ignore fun hf => honDelete hf.1
      · next honDelete =>
        split at h
        · next hinactive =>
          cases h
          apply StepsTo.ignore
          rintro ⟨-, hf⟩
          rw [hinactive] at hf
          cases hf
        · next hactive =>
          split at h
          · split at h <;> cases h
          · next hkind =>
            cases h
            exact .select ⟨not_not.mp honDelete, by simpa using hactive⟩ hkind
  | selected cur depth rel children rels =>
    simp only [next] at h
    split at h
    · cases h
    · next hstamp =>
      cases h
      exact .update (by simpa using hstamp)

/-- The walk ends at the top of its loop, with nothing on the frontier. -/
theorem next_done (h : next sch cap user now w = .done) : w.pc = .idle ∧ w.frontier = [] := by
  obtain ⟨s, frontier, pc, pushed⟩ := w
  cases pc with
  | idle =>
    rcases frontier with _ | ⟨⟨cur, depth⟩, rest⟩
    · exact ⟨rfl, rfl⟩
    · simp only [next] at h
      split at h <;> cases h
  | relations cur depth rels =>
    rcases rels with _ | ⟨rel, rels⟩
    · cases h
    · simp only [next] at h
      split at h
      · cases h
      · split at h
        · cases h
        · split at h
          · split at h <;> cases h
          · cases h
  | selected cur depth rel children rels =>
    simp only [next] at h
    split at h <;> cases h

end Cascade

end DjangoBoilerplate
