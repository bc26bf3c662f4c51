import DjangoBoilerplate.Repr
import DjangoBoilerplate.RowAcceptance

/-!
# Profile updates

`UserService.update_profile` of `apps/accounts/services.py` and `UserRepository.update` of
`apps/accounts/repositories.py`: a JSON object is filtered to three fields, the timezone is
looked up in the IANA database, and the rest is set on the row and saved without validation.

The declared errors are two. A value that cannot be hashed, a null and a text that does not fit
its column raise others, and a name that is no string is stored as its `str()`:
`profile_all_or_typed_iff` says for which objects none of this happens.
-/

namespace DjangoBoilerplate

namespace Profile

/-! ## Columns -/

/-- `UPDATABLE_PROFILE_FIELDS`. -/
inductive Field : Type where
  | timezone | firstName | lastName
  deriving DecidableEq

/-- The name of a field. -/
def Field.name : Field → Str
  | .timezone => "timezone".toList
  | .firstName => "first_name".toList
  | .lastName => "last_name".toList

/-- `k in UPDATABLE_PROFILE_FIELDS`: which of the fields is it? -/
def Field.ofName (k : Str) : Option Field :=
  [Field.timezone, Field.firstName, Field.lastName].find? fun f => f.name == k

/-- The column of a field. -/
def Field.column : Field → ApiLog.Column
  | .timezone => ⟨.char 50, false⟩
  | .firstName => ⟨.char 150, false⟩
  | .lastName => ⟨.char 150, false⟩

/-- A row of the user table. -/
structure User (X : Type) : Type where
  /-- the three columns -/
  profile : Field → Str
  /-- the others -/
  rest : X

/-- `zoneinfo.available_timezones()`: names of the IANA database, which are short and plain. -/
structure Zones : Type where
  /-- the names -/
  names : List Str
  /-- each fits the column -/
  fits : ∀ name ∈ names, nul ∉ name ∧ name.length ≤ 50

/-- How `update_profile` raises. -/
inductive ProfileError : Type where
  /-- `NoFieldsToUpdateError` -/
  | noFieldsToUpdate
  /-- `InvalidTimezoneError` -/
  | invalidTimezone
  /-- the `TypeError` of a value that cannot be hashed -/
  | typeError
  /-- the database rejects the row -/
  | database
  deriving DecidableEq

/-! ## The update -/

variable {X : Type}

/-- `CharField.get_prep_value(value)`: `None` and strings as they are, the rest by `str()`. -/
def prep (r : Reprs) : Value → Value
  | .none => .none
  | v => .str (v.toStr r)

/-- The database accepts the value for the field. -/
def accepts (r : Reprs) (x : Str × Value) : Bool :=
  (Field.ofName x.1).any fun f => f.column.accepts (prep r x.2)

/-- `setattr(user, field, value)` and the column that is written for it. -/
def setattr (r : Reprs) (user : User X) (x : Str × Value) : User X :=
  match Field.ofName x.1 with
  | some f => { user with profile := Function.update user.profile f (x.2.toStr r) }
  | none => user

/-- `UserRepository.update(user_id, data)`, with the row it leaves: a rejected `UPDATE` rolls
the transaction back. -/
def update (r : Reprs) (user : User X) (data : List (Str × Value)) :
    Except ProfileError Unit × User X :=
  if data.all (accepts r) then (.ok (), data.foldl (setattr r) user)
  else (.error .database, user)

/-- `update_data["timezone"] not in available_timezones()`, if there is a timezone. -/
def checkTimezone (zones : Zones) : Option Value → Except ProfileError Unit
  | none => .ok ()
  | some (.str s) => if zones.names.contains s then .ok () else .error .invalidTimezone
  -- a list or a dictionary has no hash
  | some (.dict _) => .error .typeError
  | some (.seq _) => .error .typeError
  | some _ => .error .invalidTimezone

/-- `UserService.update_profile(user_id, data)`, with the row it leaves. -/
def updateProfile (zones : Zones) (r : Reprs) (user : User X) (data : Dict Value) :
    Except ProfileError Unit × User X :=
  let updateData := data.items.filter fun x => (Field.ofName x.1).isSome
  if updateData.isEmpty then (.error .noFieldsToUpdate, user)
  else
    match checkTimezone zones (getItem updateData "timezone".toList) with
    | .error e => (.error e, user)
    | .ok () => update r user updateData

/-! ## What is asked of it -/

/-- The value that is supplied for a field. -/
def supplied (data : Dict Value) (f : Field) : Option Value := getItem data.items f.name

/-- The value is the name of a zone. -/
def Zones.Names (zones : Zones) (v : Value) : Prop := ∃ name ∈ zones.names, v = .str name

/-- All of it is done, or one of the two declared errors is raised. -/
structure AllOrTyped (zones : Zones) (user : User X) (data : Dict Value)
    (result : Except ProfileError Unit × User X) : Prop where
  /-- exactly the supplied fields have the supplied values -/
  saved : result.1 = .ok () →
    (∀ f v, supplied data f = some v → v = .str (result.2.profile f)) ∧
      (∀ f, supplied data f = none → result.2.profile f = user.profile f) ∧
      result.2.rest = user.rest
  /-- `NoFieldsToUpdateError` exactly if no field is supplied -/
  noFields : result.1 = .error .noFieldsToUpdate ↔ ∀ f, supplied data f = none
  /-- `InvalidTimezoneError` exactly if a timezone is supplied that is none -/
  invalidTimezone : result.1 = .error .invalidTimezone ↔
    ∃ v, supplied data .timezone = some v ∧ ¬ zones.Names v
  /-- no other error, and the row is as it was -/
  typed : ∀ e, result.1 = .error e →
    (e = .noFieldsToUpdate ∨ e = .invalidTimezone) ∧ result.2 = user

/-- A timezone that can be hashed, and names that are texts which fit their columns unless the
timezone is refused anyway. -/
structure Suitable (zones : Zones) (data : Dict Value) : Prop where
  /-- the timezone is no list and no object -/
  hashable : ∀ v, supplied data .timezone = some v → v.isContainer = false
  /-- the names are texts of at most 150 characters without U+0000 -/
  names : (∀ v, supplied data .timezone = some v → zones.Names v) →
    ∀ f, f ≠ .timezone → ∀ v, supplied data f = some v →
      ∃ s, v = .str s ∧ nul ∉ s ∧ s.length ≤ 150

/-! ## The fields of the object -/

theorem ofName_name (f : Field) : Field.ofName f.name = some f := by
  cases f <;> decide

theorem name_of_ofName {k : Str} {f : Field} (h : Field.ofName k = some f) : f.name = k :=
  beq_iff_eq.mp (List.find?_some (p := fun f : Field => f.name == k) h)

/-- The update has what is supplied. -/
theorem getItem_updateData (data : Dict Value) (f : Field) :
    getItem (data.items.filter fun x => (Field.ofName x.1).isSome) f.name = supplied data f := by
  rw [getItem_filter data.items (fun k => (Field.ofName k).isSome), ofName_name]
  rfl

/-- An item of the update is a supplied field. -/
theorem mem_updateData_iff {data : Dict Value} {x : Str × Value} :
    x ∈ (data.items.filter fun x => (Field.ofName x.1).isSome) ↔
      ∃ f, Field.ofName x.1 = some f ∧ supplied data f = some x.2 := by
  rw [List.mem_filter, Option.isSome_iff_exists]
  refine ⟨?_, ?_⟩
  · rintro ⟨hx, f, hf⟩
    refine ⟨f, hf, ?_⟩
    rw [supplied, name_of_ofName hf]
    exact getItem_of_mem data.nodup hx
  · rintro ⟨f, hf, hsupplied⟩
    rw [supplied, name_of_ofName hf] at hsupplied
    exact ⟨mem_of_getItem hsupplied, f, hf⟩

theorem updateData_isEmpty_iff {data : Dict Value} :
    (data.items.filter fun x => (Field.ofName x.1).isSome).isEmpty = true ↔
      ∀ f, supplied data f = none := by
  rw [List.isEmpty_iff]
  refine ⟨?_, ?_⟩
  · intro h f
    rw [← getItem_updateData, h]
    rfl
  · intro h
    rw [List.eq_nil_iff_forall_not_mem]
    intro x hx
    obtain ⟨f, -, hsupplied⟩ := mem_updateData_iff.mp hx
    rw [h f] at hsupplied
    cases hsupplied

theorem all_accepts_iff {r : Reprs} {data : Dict Value} :
    (data.items.filter fun x => (Field.ofName x.1).isSome).all (accepts r) = true ↔
      ∀ f v, supplied data f = some v → f.column.accepts (prep r v) = true := by
  rw [List.all_eq_true]
  refine ⟨?_, ?_⟩
  · intro h f v hsupplied
    have hx := h (f.name, v) (mem_updateData_iff.mpr ⟨f, ofName_name f, hsupplied⟩)
    simpa [accepts, ofName_name] using hx
  · intro h x hx
    obtain ⟨f, hf, hsupplied⟩ := mem_updateData_iff.mp hx
    simpa [accepts, hf] using h f x.2 hsupplied

theorem profile_setattr (r : Reprs) (user : User X) (k : Str) (v : Value) (f : Field) :
    (setattr r user (k, v)).profile f = if k = f.name then v.toStr r else user.profile f := by
  unfold setattr
  rcases hg : Field.ofName k with _ | g
  · have hne : k ≠ f.name := by
      rintro rfl
      rw [ofName_name] at hg
      cases hg
    rw [if_neg hne]
  · obtain rfl := name_of_ofName hg
    by_cases hfg : g = f
    · subst hfg
      simp
    · have hne : g.name ≠ f.name := by
        intro h
        rw [h, ofName_name] at hg
        exact hfg (Option.some.inj hg).symm
      rw [if_neg hne]
      exact Function.update_of_ne (Ne.symm hfg) _ _

/-- What the loop leaves in the columns. -/
theorem profile_foldl_setattr (r : Reprs) {l : List (Str × Value)} (hnodup : (keysOf l).Nodup)
    (user : User X) (f : Field) :
    (l.foldl (setattr r) user).profile f =
      ((getItem l f.name).map (Value.toStr r)).getD (user.profile f) := by
  induction l generalizing user with
  | nil => rfl
  | cons x l ih =>
    obtain ⟨k, v⟩ := x
    obtain ⟨hk, hnodup⟩ := List.nodup_cons.mp hnodup
    rw [List.foldl_cons, ih hnodup, profile_setattr]
    rcases eq_or_ne k f.name with rfl | hne
    · -- the field does not come again
      simp [getItem_of_not_mem hk, getItem_cons_self]
    · rw [if_neg hne, getItem_cons_of_ne hne.symm]

theorem rest_foldl_setattr (r : Reprs) (l : List (Str × Value)) (user : User X) :
    (l.foldl (setattr r) user).rest = user.rest := by
  induction l generalizing user with
  | nil => rfl
  | cons x l ih =>
    rw [List.foldl_cons, ih]
    unfold setattr
    split <;> rfl

/-! ## The cases -/

variable {zones : Zones} {r : Reprs} {user : User X} {data : Dict Value}

/-- The check of the timezone raises `TypeError` for what cannot be hashed, -/
theorem checkTimezone_typeError_iff {v : Option Value} :
    checkTimezone zones v = .error .typeError ↔ ∃ w, v = some w ∧ w.isContainer = true := by
  rcases v with _ | v
  · simp [checkTimezone]
  cases v with
  | str s =>
    simp only [checkTimezone, Value.isContainer]
    split <;> simp
  | _ => simp [checkTimezone, Value.isContainer]

/-- and lets the names of zones pass. -/
theorem checkTimezone_ok_iff {v : Option Value} :
    checkTimezone zones v = .ok () ↔ ∀ w, v = some w → zones.Names w := by
  rcases v with _ | v
  · simp [checkTimezone]
  cases v with
  | str s =>
    simp only [checkTimezone, Zones.Names]
    split
    · next h => simpa using h
    · next h => simpa using h
  | _ => simp [checkTimezone, Zones.Names]

/-- Its only other answer is `InvalidTimezoneError`. -/
theorem checkTimezone_cases (zones : Zones) (v : Option Value) :
    checkTimezone zones v = .ok () ∨ checkTimezone zones v = .error .typeError ∨
      checkTimezone zones v = .error .invalidTimezone := by
  rcases v with _ | v
  · exact Or.inl rfl
  cases v with
  | str s =>
    rw [checkTimezone]
    split
    · exact Or.inl rfl
    · exact Or.inr (Or.inr rfl)
  | dict items => exact Or.inr (Or.inl rfl)
  | seq items => exact Or.inr (Or.inl rfl)
  | _ => exact Or.inr (Or.inr rfl)

theorem updateProfile_of_none (h : ∀ f, supplied data f = none) :
    updateProfile zones r user data = (.error .noFieldsToUpdate, user) := by
  rw [updateProfile, if_pos (updateData_isEmpty_iff.mpr h)]

theorem updateProfile_of_error {e : ProfileError} (hsome : ¬ ∀ f, supplied data f = none)
    (h : checkTimezone zones (supplied data .timezone) = .error e) :
    updateProfile zones r user data = (.error e, user) := by
  have hcheck : checkTimezone zones (getItem
      (data.items.filter fun x => (Field.ofName x.1).isSome) "timezone".toList) = .error e := by
    rw [← h, ← getItem_updateData]
    rfl
  simp only [updateProfile]
  rw [if_neg (updateData_isEmpty_iff.not.mpr hsome), hcheck]

theorem updateProfile_of_ok (hsome : ¬ ∀ f, supplied data f = none)
    (h : checkTimezone zones (supplied data .timezone) = .ok ()) :
    updateProfile zones r user data =
      update r user (data.items.filter fun x => (Field.ofName x.1).isSome) := by
  have hcheck : checkTimezone zones (getItem
      (data.items.filter fun x => (Field.ofName x.1).isSome) "timezone".toList) = .ok () := by
    rw [← h, ← getItem_updateData]
    rfl
  simp only [updateProfile]
  rw [if_neg (updateData_isEmpty_iff.not.mpr hsome), hcheck]

/-- A text fits its column if it is short and plain. -/
theorem column_accepts_str {f : Field} (hf : f ≠ .timezone) {s : Str} :
    f.column.accepts (prep r (.str s)) = true ↔ nul ∉ s ∧ s.length ≤ 150 := by
  cases f with
  | timezone => exact absurd rfl hf
  | firstName => simp [Field.column, prep, Value.toStr, ApiLog.Column.accepts]
  | lastName => simp [Field.column, prep, Value.toStr, ApiLog.Column.accepts]

/-- The other errors are not declared. -/
theorem not_allOrTyped_error {e : ProfileError} (hfields : e ≠ .noFieldsToUpdate)
    (htimezone : e ≠ .invalidTimezone) : ¬ AllOrTyped zones user data (.error e, user) := by
  intro h
  rcases (h.typed e rfl).1 with he | he
  · exact hfields he
  · exact htimezone he

/-- `NoFieldsToUpdateError` is right if nothing is supplied, -/
theorem allOrTyped_noFields (hnone : ∀ f, supplied data f = none) :
    AllOrTyped zones user data (.error .noFieldsToUpdate, user) := by
  refine ⟨?_, iff_of_true rfl hnone, iff_of_false ?_ ?_, ?_⟩
  · intro h
    cases h
  · intro h
    cases h
  · rintro ⟨v, hv, -⟩
    rw [hnone] at hv
    cases hv
  · rintro _ ⟨⟩
    exact ⟨Or.inl rfl, rfl⟩

/-- and `InvalidTimezoneError` if a timezone is supplied that is none. -/
theorem allOrTyped_invalidTimezone (hsome : ¬ ∀ f, supplied data f = none)
    (hzone : ¬ ∀ v, supplied data .timezone = some v → zones.Names v) :
    AllOrTyped zones user data (.error .invalidTimezone, user) := by
  refine ⟨?_, iff_of_false ?_ hsome, iff_of_true rfl ?_, ?_⟩
  · intro h
    cases h
  · intro h
    cases h
  · simpa using hzone
  · rintro _ ⟨⟩
    exact ⟨Or.inr rfl, rfl⟩

/-- The row is written as supplied exactly if every value is a text that fits its column. -/
theorem allOrTyped_update_iff (hsome : ¬ ∀ f, supplied data f = none)
    (hzone : ∀ v, supplied data .timezone = some v → zones.Names v) :
    AllOrTyped zones user data
        (update r user (data.items.filter fun x => (Field.ofName x.1).isSome)) ↔
      ∀ f v, supplied data f = some v →
        (∃ s, v = .str s) ∧ f.column.accepts (prep r v) = true := by
  have hnodup : (keysOf (data.items.filter fun x => (Field.ofName x.1).isSome)).Nodup :=
    data.nodup.sublist (List.filter_sublist.map Prod.fst)
  have hprofile : ∀ f, ((data.items.filter fun x => (Field.ofName x.1).isSome).foldl
      (setattr r) user).profile f =
        ((supplied data f).map (Value.toStr r)).getD (user.profile f) := by
    intro f
    rw [profile_foldl_setattr r hnodup, getItem_updateData]
  by_cases haccepts : ∀ f v, supplied data f = some v → f.column.accepts (prep r v) = true
  · rw [update, if_pos (all_accepts_iff.mpr haccepts)]
    refine ⟨?_, ?_⟩
    · intro h f v hsupplied
      refine ⟨⟨_, (h.saved rfl).1 f v hsupplied⟩, haccepts f v hsupplied⟩
    · intro h
      refine ⟨fun _ => ⟨?_, ?_, rest_foldl_setattr r _ user⟩, ?_, ?_, ?_⟩
      · intro f v hsupplied
        obtain ⟨⟨s, rfl⟩, -⟩ := h f v hsupplied
        rw [hprofile, hsupplied]
        rfl
      · intro f hsupplied
        rw [hprofile, hsupplied]
        rfl
      · exact iff_of_false (fun h => nomatch h) hsome
      · refine iff_of_false (fun h => nomatch h) ?_
        rintro ⟨v, hv, hnot⟩
        exact hnot (hzone v hv)
      · exact fun e he => nomatch he
  · rw [update, if_neg (all_accepts_iff.not.mpr haccepts)]
    refine iff_of_false (not_allOrTyped_error (by decide) (by decide)) ?_
    exact fun h => haccepts fun f v hsupplied => (h f v hsupplied).2

/-- Nothing to update is suitable. -/
theorem suitable_of_none (hnone : ∀ f, supplied data f = none) : Suitable zones data := by
  refine ⟨?_, ?_⟩
  · intro v hv
    rw [hnone] at hv
    cases hv
  · intro _ f _ v hv
    rw [hnone] at hv
    cases hv

/-- With a timezone that is one, an object is suitable if its values are texts that fit. -/
theorem fits_iff_suitable (hzone : ∀ v, supplied data .timezone = some v → zones.Names v) :
    (∀ f v, supplied data f = some v → (∃ s, v = .str s) ∧ f.column.accepts (prep r v) = true) ↔
      Suitable zones data := by
  refine ⟨?_, ?_⟩
  · intro h
    refine ⟨?_, ?_⟩
    · intro v hv
      obtain ⟨name, -, rfl⟩ := hzone v hv
      rfl
    · intro _ f hf v hv
      obtain ⟨⟨s, rfl⟩, haccepts⟩ := h f v hv
      exact ⟨s, rfl, (column_accepts_str hf).mp haccepts⟩
  · intro h f v hv
    by_cases hf : f = .timezone
    · subst hf
      obtain ⟨name, hname, rfl⟩ := hzone v hv
      refine ⟨⟨name, rfl⟩, ?_⟩
      simpa [Field.column, prep, Value.toStr, ApiLog.Column.accepts] using zones.fits name hname
    · obtain ⟨s, rfl, hfits⟩ := h.names hzone f hf v hv
      exact ⟨⟨s, rfl⟩, (column_accepts_str hf).mpr hfits⟩

/-- `update_profile` does all of it or raises a declared error exactly if the object is
suitable. -/
theorem profile_all_or_typed_iff (zones : Zones) (r : Reprs) (user : User X)
    (data : Dict Value) :
    AllOrTyped zones user data (updateProfile zones r user data) ↔ Suitable zones data := by
  by_cases hnone : ∀ f, supplied data f = none
  · rw [updateProfile_of_none hnone]
    exact iff_of_true (allOrTyped_noFields hnone) (suitable_of_none hnone)
  rcases checkTimezone_cases zones (supplied data .timezone) with hok | herror | hzone
  · have hnames := checkTimezone_ok_iff.mp hok
    rw [updateProfile_of_ok hnone hok, allOrTyped_update_iff hnone hnames]
    exact fits_iff_suitable hnames
  · rw [updateProfile_of_error hnone herror]
    refine iff_of_false (not_allOrTyped_error (by decide) (by decide)) ?_
    intro h
    obtain ⟨v, hv, hcontainer⟩ := checkTimezone_typeError_iff.mp herror
    rw [h.hashable v hv] at hcontainer
    cases hcontainer
  · have hnot : ¬ ∀ v, supplied data .timezone = some v → zones.Names v := by
      intro h
      rw [checkTimezone_ok_iff.mpr h] at hzone
      cases hzone
    rw [updateProfile_of_error hnone hzone]
    refine iff_of_true (allOrTyped_invalidTimezone hnone hnot) ⟨?_, fun h => absurd h hnot⟩
    intro v hv
    rcases hcontainer : v.isContainer with _ | _
    · rfl
    · rw [checkTimezone_typeError_iff.mpr ⟨v, hv, hcontainer⟩] at hzone
      cases hzone

/-- Two zones. -/
def someZones : Zones where
  names := ["UTC".toList, "Asia/Kolkata".toList]
  fits := by decide

/-- A user without names. -/
def someUser : User Unit := ⟨fun _ => [], ()⟩

/-- A null for a first name: the database rejects it. -/
theorem null_name_database_error :
    ¬ ∀ (zones : Zones) (r : Reprs) (user : User Unit) (data : Dict Value),
      AllOrTyped zones user data (updateProfile zones r user data) := by
  intro halways
  have h := halways someZones ⟨fun _ => true, fun _ _ => []⟩ someUser
    ⟨[("first_name".toList, .none)], by decide⟩
  rcases (h.typed .database rfl).1 with he | he
  · cases he
  · cases he

end Profile

end DjangoBoilerplate
