import DjangoBoilerplate.AuditAttribution

/-!
# Two ways to create a row

`BaseService.create(data, user)` stamps the data, then constructs the instance;
`BaseRepository.add(model(**data), user=user)` constructs it, then stamps the instance.
`apply_audit_fields` of `apps/core/base/audit.py` serves both, but it is two functions: a
`dict` gets a default under `"created_by"`, whatever the model, and an instance gets the
attribute if `hasattr` finds one, whatever the attribute was. `alike_iff` says when this makes
no difference.
-/

namespace DjangoBoilerplate

namespace CreatePaths

open Audit Cascade

variable {M F X : Type}

/-! ## Model classes and their instances -/

/-- The field `created_by` of a model class. -/
inductive CreatorField : Type where
  /-- there is none -/
  | absent : CreatorField
  /-- a foreign key with `null=True`, as `BaseModel` has it -/
  | nullable : CreatorField
  /-- a foreign key with `null=False` -/
  | required : CreatorField
deriving DecidableEq

/-- How a create path raises. -/
inductive Failure : Type where
  /-- the constructor gets a keyword the model has no field for -/
  | typeError : Failure
  /-- the creator an instance names is looked up and not found -/
  | doesNotExist : Failure
  /-- validation or the database refuses the row -/
  | refused : Failure

/-- A model class, over the rows stored so far. -/
structure Model (M F X : Type) : Type where
  /-- its `created_by` -/
  field : CreatorField
  /-- the defaults of its fields -/
  blank : Instance M F X
  /-- do `full_clean()`, where `save` calls it, and the database take the new row? -/
  accepts : Instance M F X → Bool
  /-- a column that is `NOT NULL` takes no `NULL` -/
  accepts_required : field = .required → ∀ {i : Instance M F X}, i.rest.createdBy = none →
    accepts i = false

/-- An instance, with the state of its `created_by`. -/
structure Built (M F X : Type) : Type where
  /-- the fields -/
  fields : Instance M F X
  /-- is the creator's object at hand? -/
  loaded : Bool

/-- Does the data name a creator, by either name? -/
def names (data : Data F X) : Bool := data.any fun e => e.creator.isSome

/-- Without `created_by`, only `created_by_id` can name a creator. -/
theorem names_filter_isAttname {data : Data F X} (h : data.any Entry.isCreatedBy = false) :
    names (data.filter fun e => e.isAttname) = names data := by
  rw [names, names, List.any_filter, Bool.eq_iff_iff, List.any_eq_true, List.any_eq_true]
  constructor
  · rintro ⟨e, he, hboth⟩
    exact ⟨e, he, (Bool.and_eq_true_iff.mp hboth).2⟩
  · rintro ⟨e, he, hsome⟩
    refine ⟨e, he, Bool.and_eq_true_iff.mpr ⟨?_, hsome⟩⟩
    obtain ⟨u, hu⟩ := Option.isSome_iff_exists.mp hsome
    rcases Entry.creator_eq_some.mp hu with rfl | rfl
    · exact absurd rfl (List.any_eq_false.mp h _ he)
    · rfl

section Paths

variable [DecidableEq F]

/-- `setattr(instance, name, value)`. A new `created_by_id` drops the object of another. -/
def Built.setattr (b : Built M F X) (e : Entry F X) : Built M F X where
  fields := b.fields.setattr e
  loaded :=
    match e with
    | .createdBy _ => true
    | .createdById u => b.loaded && b.fields.rest.createdBy == u
    | _ => b.loaded

/-- The instance the constructor makes: the fields by their names, then the attribute names that
end in `_id`. -/
def Model.built (m : Model M F X) (data : Data F X) : Built M F X :=
  (data.filter fun e => !e.isAttname).foldl Built.setattr ⟨m.blank, false⟩
    |> (data.filter fun e => e.isAttname).foldl Built.setattr

/-- `model(**data)`. -/
def Model.construct (m : Model M F X) (data : Data F X) : Except Failure (Built M F X) :=
  if m.field = .absent ∧ names data = true then .error .typeError else .ok (m.built data)

/-- `instance.save()`: the row, under the next key of the sequence if the instance has none. -/
def Model.save (m : Model M F X) (seq now : ℕ) (i : Instance M F X) :
    Except Failure (Row M F (Columns X)) :=
  if m.accepts i then
    .ok ({ i with rest := { i.rest with createdAt := now } }.row (i.pk.getD seq) now)
  else .error .refused

/-! ## Stamping -/

/-- `apply_audit_fields(data, user, on_create=True)` of a `dict`. -/
def stampData (user : Option ℕ) (data : Data F X) : Data F X :=
  match user with
  | none => data
  | some u => applyAuditFields data u

/-- `hasattr(instance, "created_by")`. An instance that names nobody has the attribute if it may
be `None`; of one that names somebody the object is fetched, and `hasattr` lets through the
error if it is not in the table of users. -/
def Model.hasattr (m : Model M F X) (users : ℕ → Bool) (b : Built M F X) : Except Failure Bool :=
  match m.field, b.fields.rest.createdBy with
  | .absent, _ => .ok false
  | .nullable, none => .ok true
  | .required, none => .ok false
  | _, some x => if b.loaded || users x then .ok true else .error .doesNotExist

/-- `apply_audit_fields(instance, user, on_create=True)` of an instance. -/
def Model.stampInstance (m : Model M F X) (users : ℕ → Bool) (user : Option ℕ)
    (b : Built M F X) : Except Failure (Built M F X) :=
  match user with
  | none => .ok b
  | some u =>
    match m.hasattr users b with
    | .error e => .error e
    | .ok true => .ok (b.setattr (.createdBy (some u)))
    | .ok false => .ok b

/-! ## The two paths -/

/-- `BaseService.create(data, user)`, with hooks that do nothing. -/
def Model.create (m : Model M F X) (seq now : ℕ) (user : Option ℕ) (data : Data F X) :
    Except Failure (Row M F (Columns X)) :=
  match m.construct (stampData user data) with
  | .error e => .error e
  | .ok b => m.save seq now b.fields

/-- `BaseRepository.add(instance, user=user)`. -/
def Model.add (m : Model M F X) (users : ℕ → Bool) (seq now : ℕ) (user : Option ℕ)
    (b : Built M F X) : Except Failure (Row M F (Columns X)) :=
  match m.stampInstance users user b with
  | .error e => .error e
  | .ok b => m.save seq now b.fields

/-! ## The row `create` saves -/

/-- A creator set before an entry is forgotten if the entry names one too, and may as well be
set after it if not. -/
theorem setattr_createdBy_setattr (i : Instance M F X) (u : Option ℕ) (e : Entry F X) :
    (i.setattr (.createdBy u)).setattr e =
      if e.creator.isSome then i.setattr e else (i.setattr e).setattr (.createdBy u) := by
  cases e <;> rfl

/-- The same of a list of entries. -/
theorem foldl_setattr_createdBy (i : Instance M F X) (u : Option ℕ) (l : Data F X) :
    l.foldl Instance.setattr (i.setattr (.createdBy u)) =
      if names l then l.foldl Instance.setattr i
      else (l.foldl Instance.setattr i).setattr (.createdBy u) := by
  induction l generalizing i with
  | nil => rfl
  | cons e l ih =>
    have hcons : names (e :: l) = (e.creator.isSome || names l) := rfl
    rw [List.foldl_cons, List.foldl_cons, hcons, setattr_createdBy_setattr]
    cases he : e.creator.isSome with
    | true => rfl
    | false => exact ih _

/-- Stamping data is setting the creator of the instance, unless the data names one. -/
theorem construct_applyAuditFields (i : Instance M F X) (data : Data F X) (u : ℕ) :
    Audit.construct i (applyAuditFields data u) =
      if names data then Audit.construct i data
      else (Audit.construct i data).setattr (.createdBy (some u)) := by
  cases hby : data.any Entry.isCreatedBy with
  | true =>
    have hnames : names data = true := by
      obtain ⟨e, he, hname⟩ := List.any_eq_true.mp hby
      cases e with
      | createdBy v => exact List.any_eq_true.mpr ⟨_, he, rfl⟩
      | _ => cases hname
    rw [applyAuditFields, if_pos hby, if_pos hnames]
  | false =>
    have hstamp : applyAuditFields data u = data ++ [.createdBy (some u)] := by
      rw [applyAuditFields, hby]
      rfl
    -- the stamp is set by its name, so before every attribute name
    have hname : ([.createdBy (some u)] : Data F X).filter (fun e => !e.isAttname) =
        [.createdBy (some u)] := rfl
    have hattname : ([.createdBy (some u)] : Data F X).filter (fun e => e.isAttname) = [] := rfl
    rw [hstamp, Audit.construct, List.filter_append, List.filter_append, hname, hattname,
      List.append_nil, List.foldl_append, List.foldl_cons, List.foldl_nil,
      foldl_setattr_createdBy, names_filter_isAttname hby]
    rfl

/-- The fields of an instance are those `AuditService` has for it. -/
theorem Model.built_fields (m : Model M F X) (data : Data F X) :
    (m.built data).fields = Audit.construct m.blank data := by
  have hfold : ∀ (l : Data F X) (b : Built M F X),
      (l.foldl Built.setattr b).fields = l.foldl Instance.setattr b.fields := by
    intro l b
    exact (List.foldl_hom Built.fields fun _ _ => rfl).symm
  rw [Model.built, hfold, hfold]
  rfl

/-- What `create` saves for a user. -/
theorem Model.create_some (m : Model M F X) (hfield : m.field ≠ .absent) (seq now u : ℕ)
    (data : Data F X) :
    m.create seq now (some u) data =
      m.save seq now (if names data then (m.built data).fields
        else (m.built data).fields.setattr (.createdBy (some u))) := by
  have hok : ∀ d : Data F X, m.construct d = .ok (m.built d) := by
    intro d
    rw [Model.construct, if_neg fun h => hfield h.1]
  rw [Model.create, stampData, hok]
  simp only [Model.built_fields, construct_applyAuditFields]

/-! ## The row `add` saves -/

/-- Has the instance an attribute to stamp? -/
def HasCreator (m : Model M F X) (b : Built M F X) : Prop :=
  m.field = .required → b.fields.rest.createdBy ≠ none

/-- Is the creator it names, if any, at hand or in the table? -/
def Findable (users : ℕ → Bool) (b : Built M F X) : Prop :=
  ∀ x, b.fields.rest.createdBy = some x → b.loaded = true ∨ users x = true

section Add

variable {m : Model M F X} (hfield : m.field ≠ .absent) (users : ℕ → Bool) (seq now u : ℕ)
  {b : Built M F X}
include hfield

/-- It is stamped, -/
theorem Model.add_of_findable (hhas : HasCreator m b) (hfind : Findable users b) :
    m.add users seq now (some u) b = m.save seq now (b.fields.setattr (.createdBy (some u))) := by
  have hattr : m.hasattr users b = .ok true := by
    cases hcreator : b.fields.rest.createdBy with
    | none =>
      cases hm : m.field with
      | absent => exact absurd hm hfield
      | nullable => simp only [Model.hasattr, hm, hcreator]
      | required => exact absurd hcreator (hhas hm)
    | some x =>
      have hthere : (b.loaded || users x) = true := by
        simpa only [Bool.or_eq_true] using hfind x hcreator
      cases hm : m.field with
      | absent => exact absurd hm hfield
      | _ => simp only [Model.hasattr, hm, hcreator, hthere, if_true]
  simp only [Model.add, Model.stampInstance, hattr, Built.setattr]

/-- or `hasattr` raises, -/
theorem Model.add_of_not_findable (hfind : ¬ Findable users b) :
    m.add users seq now (some u) b = .error .doesNotExist := by
  have hattr : m.hasattr users b = .error .doesNotExist := by
    rw [Findable] at hfind
    push Not at hfind
    obtain ⟨x, hcreator, hloaded, husers⟩ := hfind
    cases hm : m.field with
    | absent => exact absurd hm hfield
    | _ => simp [Model.hasattr, hm, hcreator, hloaded, husers]
  simp only [Model.add, Model.stampInstance, hattr]

omit hfield in
/-- or there is nothing to stamp, and no row without a creator. -/
theorem Model.add_of_not_hasCreator (hhas : ¬ HasCreator m b) :
    m.add users seq now (some u) b = .error .refused := by
  rw [HasCreator] at hhas
  push Not at hhas
  obtain ⟨hm, hcreator⟩ := hhas
  have hrefused := m.accepts_required hm hcreator
  simp [Model.add, Model.stampInstance, Model.hasattr, Model.save, hm, hcreator, hrefused]

end Add

/-! ## The paths compared -/

/-- The two paths stamp alike: the one stores a row exactly when the other does, and it is the
same row; without the field or without a user neither stamps anything. -/
structure Alike (m : Model M F X) (users : ℕ → Bool) (seq now : ℕ) (user : Option ℕ)
    (data : Data F X) (b : Built M F X) : Prop where
  /-- the rows stored -/
  rows : (m.create seq now user data).toOption = (m.add users seq now user b).toOption
  /-- nothing to stamp -/
  noop : m.field = .absent ∨ user = none →
    stampData user data = data ∧ m.stampInstance users user b = .ok b

/-- The instance is stamped, and the data names nobody else. -/
def SameStamp (m : Model M F X) (users : ℕ → Bool) (u : ℕ) (data : Data F X)
    (b : Built M F X) : Prop :=
  HasCreator m b ∧ Findable users b ∧
    (names data = false ∨ b.fields.rest.createdBy = some u)

/-- The row is refused under the creator the data names, or the user if it names nobody; and
under the user too, where the instance is stamped. -/
def BothRefused (m : Model M F X) (users : ℕ → Bool) (u : ℕ) (data : Data F X)
    (b : Built M F X) : Prop :=
  m.accepts (if names data then b.fields else b.fields.setattr (.createdBy (some u))) = false ∧
    (HasCreator m b → Findable users b →
      m.accepts (b.fields.setattr (.createdBy (some u))) = false)

omit [DecidableEq F] in
theorem Model.save_toOption_eq_none {m : Model M F X} {seq now : ℕ} {i : Instance M F X} :
    (m.save seq now i).toOption = none ↔ m.accepts i = false := by
  rw [Model.save]
  cases hi : m.accepts i with
  | true => simp [Except.toOption]
  | false => simp [Except.toOption]

/-- Two instances that differ in their creators are saved as one row, or refused. -/
theorem Model.save_toOption_eq_stamped {m : Model M F X} {seq now u : ℕ} {i : Instance M F X} :
    (m.save seq now i).toOption =
        (m.save seq now (i.setattr (.createdBy (some u)))).toOption ↔
      i.rest.createdBy = some u ∨
        (m.accepts i = false ∧ m.accepts (i.setattr (.createdBy (some u))) = false) := by
  constructor
  · intro h
    cases hi : m.accepts i with
    | false =>
      rw [Model.save_toOption_eq_none.mpr hi] at h
      exact Or.inr ⟨rfl, Model.save_toOption_eq_none.mp h.symm⟩
    | true =>
      cases hj : m.accepts (i.setattr (.createdBy (some u))) with
      | false =>
        rw [Model.save_toOption_eq_none.mpr hj, Model.save_toOption_eq_none, hi] at h
        cases h
      | true =>
        simp only [Model.save, hi, hj, if_true, Except.toOption, Option.some.injEq] at h
        exact Or.inl (congrArg (fun r => r.rest.createdBy) h)
  · rintro (hcreator | ⟨hi, hj⟩)
    · have heq : i.setattr (.createdBy (some u)) = i := by
        rw [← hcreator]
        rfl
      rw [heq]
    · rw [Model.save_toOption_eq_none.mpr hi, Model.save_toOption_eq_none.mpr hj]

/-- The rows the two paths store for a user, of a model with the field. -/
theorem rows_eq_iff {m : Model M F X} (hfield : m.field ≠ .absent) (users : ℕ → Bool)
    (seq now u : ℕ) (data : Data F X) :
    (m.create seq now (some u) data).toOption =
        (m.add users seq now (some u) (m.built data)).toOption ↔
      SameStamp m users u data (m.built data) ∨ BothRefused m users u data (m.built data) := by
  rw [m.create_some hfield, SameStamp, BothRefused]
  by_cases hhas : HasCreator m (m.built data)
  · by_cases hfind : Findable users (m.built data)
    · rw [Model.add_of_findable hfield users seq now u hhas hfind]
      cases hnames : names data with
      | true =>
        simp only [if_true, Model.save_toOption_eq_stamped]
        tauto
      | false => simp [hhas, hfind]
    · rw [Model.add_of_not_findable hfield users seq now u hfind]
      exact Model.save_toOption_eq_none.trans (by tauto)
  · rw [Model.add_of_not_hasCreator users seq now u hhas]
    exact Model.save_toOption_eq_none.trans (by tauto)

/-- **The two create paths.** They stamp alike exactly if there is no user, or the model has the
field and the instance is stamped as the data is, or both refuse the row anyway. -/
theorem alike_iff (m : Model M F X) (users : ℕ → Bool) (seq now : ℕ) (user : Option ℕ)
    {data : Data F X} {b : Built M F X} (hvalid : m.construct data = .ok b) :
    Alike m users seq now user data b ↔
      ∀ u, user = some u →
        m.field ≠ .absent ∧ (SameStamp m users u data b ∨ BothRefused m users u data b) := by
  have hb : m.built data = b := by
    rw [Model.construct] at hvalid
    split at hvalid
    · cases hvalid
    · exact Except.ok.inj hvalid
  subst hb
  cases user with
  | none =>
    constructor
    · intro _ u hu
      cases hu
    · intro _
      refine ⟨?_, fun _ => ⟨rfl, rfl⟩⟩
      simp only [Model.create, stampData, hvalid, Model.add, Model.stampInstance]
  | some u =>
    constructor
    · rintro ⟨hrows, hnoop⟩ u' hu
      obtain rfl := Option.some.inj hu
      have hfield : m.field ≠ .absent := by
        intro habsent
        obtain ⟨hdata, -⟩ := hnoop (Or.inl habsent)
        -- data the constructor takes names no creator, and stamped data does
        obtain ⟨v, hv⟩ := exists_createdBy data u
        rw [show applyAuditFields data u = data from hdata] at hv
        have hnames : names data = true := List.any_eq_true.mpr ⟨_, hv, rfl⟩
        rw [Model.construct, if_pos ⟨habsent, hnames⟩] at hvalid
        cases hvalid
      exact ⟨hfield, (rows_eq_iff hfield users seq now u data).mp hrows⟩
    · intro h
      obtain ⟨hfield, hsame⟩ := h u rfl
      refine ⟨(rows_eq_iff hfield users seq now u data).mpr hsame, ?_⟩
      rintro (habsent | hnone)
      · exact absurd habsent hfield
      · cases hnone

end Paths

/-- A model class without the field. -/
def plainModel : Model Unit Unit Unit where
  field := .absent
  blank := blankNode ()
  accepts _ := true
  accepts_required h := nomatch h

/-- A model class that has it from `BaseModel`. -/
def baseModel : Model Unit Unit Unit where
  field := .nullable
  blank := blankNode ()
  accepts _ := true
  accepts_required h := nomatch h

/-- Without the field, `create` raises where `add` stores the row. -/
theorem plain_model_not_alike :
    ¬ ∀ (m : Model Unit Unit Unit) (users : ℕ → Bool) (seq now : ℕ) (user : Option ℕ)
        (data : Data Unit Unit) (b : Built Unit Unit Unit), m.construct data = .ok b →
      Alike m users seq now user data b := by
  intro halways
  have hrows := (halways plainModel (fun _ => true) 0 0 (some 1) [] _ rfl).rows
  cases hrows

/-- A user creates a `BaseModel` from data that names nobody. -/
theorem base_model_alike :
    baseModel.create 3 9 (some 1) [.isActive false] =
        .ok ⟨(), 3, false, 9, none, fun _ => none, ⟨some 1, 9, ()⟩⟩ ∧
      Alike baseModel (fun x => x == 1) 3 9 (some 1) [.isActive false]
        (baseModel.built [.isActive false]) := by
  refine ⟨rfl, (alike_iff baseModel _ 3 9 (some 1) rfl).mpr ?_⟩
  rintro u -
  refine ⟨by decide, Or.inl ⟨?_, ?_, Or.inl rfl⟩⟩
  · intro hrequired
    cases hrequired
  · intro x hx
    cases hx

end CreatePaths

end DjangoBoilerplate
