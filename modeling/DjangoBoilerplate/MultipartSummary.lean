import DjangoBoilerplate.MultipartRedaction

/-!
# Which value a multipart entry shows

`summarise_body_for_audit` makes one entry for each value of a form. It then collects the
values in a dictionary by field name, sanitises that, and puts the results back into the
entries by name. A name keeps only its last value on the way, the dictionary is cut to
`MAX_DICT_KEYS` names with a notice under a name of its own, and a name that is dropped
leaves the entry as it was. So the entries and their names are always right
(`shows_iff`), and `summary_faithful_iff` says for which forms their values are.
-/

namespace DjangoBoilerplate

namespace Sanitizers

open LogSanitization

/-! ## The view of a form -/

/-- What `"value"` of an entry holds: files and `bytes` have none. -/
def scalar : FormItem → Option Str
  | .text s => some (clip s)
  | .upload _ _ _ => none
  | .bytes _ => none
  | .other s => some s

/-- The last of the values that are no files or `bytes`. -/
def lastScalar (values : List FormItem) : Option Str :=
  (values.filterMap scalar).getLast?

/-- The fields that have such a value, with the last one. -/
def scalarsOf (items : List (Str × List FormItem)) : List (Str × Str) :=
  items.filterMap fun x => (lastScalar x.2).map fun s => (x.1, s)

/-- The fields of a form that have such a value. -/
def QueryDict.scalars (qd : QueryDict) : List (Str × Str) := scalarsOf qd.items

theorem getItem_fieldEntry_value (name : Str) (item : FormItem) :
    getItem (fieldEntry name item) valueKey = (scalar item).map Value.str := by
  cases item with
  | text s => exact getItem_fieldEntry name s
  | upload filename contentType size =>
    rcases contentType with _ | s
    · rfl
    · cases s <;> rfl
  | bytes b => rfl
  | other s => rfl

theorem getItem_fieldEntry_name (name : Str) (item : FormItem) :
    getItem (fieldEntry name item) nameKey = some (.str name) := by
  cases item <;> rfl

/-- The values of one field, put into the view one after the other. -/
theorem foldl_values (view : List (Str × Value)) (name : Str) (values : List FormItem) :
    values.foldl (fun view item =>
      match getItem (fieldEntry name item) valueKey with
      | some v => setItem view name v
      | Option.none => view) view =
      match lastScalar values with
      | some s => setItem view name (.str s)
      | Option.none => view := by
  induction values using List.reverseRecOn with
  | nil => rfl
  | append_singleton values item ih =>
    rw [List.foldl_append, ih, List.foldl_cons, List.foldl_nil, getItem_fieldEntry_value]
    unfold lastScalar
    rw [List.filterMap_append]
    rcases hitem : scalar item with _ | s
    · simp [hitem]
    · rcases (values.filterMap scalar).getLast? with _ | s'
      · simp [hitem]
      · simp [hitem, setItem_setItem]

/-- The view has the last value of each field, in the order of the form. -/
theorem scalarView_fields (qd : QueryDict) :
    scalarView qd.fields = qd.scalars.map fun x => (x.1, Value.str x.2) := by
  have hfold : ∀ (items : List (Str × List FormItem)) (view : List (Str × Value)),
      (items.map Prod.fst).Nodup → (∀ x ∈ items, x.1 ∉ keysOf view) →
      (items.flatMap fun x => x.2.map fun item => (x.1, fieldEntry x.1 item)).foldl
          (fun view x => match getItem x.2 valueKey with
            | some v => setItem view x.1 v
            | Option.none => view) view =
        view ++ (scalarsOf items).map fun x => (x.1, Value.str x.2) := by
    intro items
    induction items with
    | nil => simp [scalarsOf]
    | cons x items ih =>
      intro view hnodup hnew
      obtain ⟨name, values⟩ := x
      obtain ⟨hname, hnodup⟩ := List.nodup_cons.mp hnodup
      rw [List.flatMap_cons, List.foldl_append, List.foldl_map]
      rw [foldl_values view name values]
      have hview : name ∉ keysOf view := hnew _ List.mem_cons_self
      rcases hlast : lastScalar values with _ | s
      · rw [ih view hnodup fun x hx => hnew x (List.mem_cons_of_mem _ hx)]
        simp [scalarsOf, hlast]
      · -- a name comes once, so that its value goes last
        simp only
        rw [setItem_of_not_mem _ hview, ih _ hnodup]
        · simp [scalarsOf, hlast]
        · intro x hx hmem
          rcases List.mem_append.mp (by simpa [keysOf] using hmem :
            x.1 ∈ keysOf view ++ [name]) with hold | hself
          · exact hnew x (List.mem_cons_of_mem _ hx) hold
          · rw [List.mem_singleton] at hself
            exact hname (List.mem_map.mpr ⟨x, hx, hself⟩)
  have hall := hfold qd.items [] qd.nodup (by simp [keysOf])
  rw [List.nil_append] at hall
  exact hall

theorem nodup_scalarView (qd : QueryDict) : (keysOf (scalarView qd.fields)).Nodup := by
  have hsublist : ∀ items : List (Str × List FormItem),
      ((scalarsOf items).map Prod.fst).Sublist (items.map Prod.fst) := by
    intro items
    induction items with
    | nil => exact .slnil
    | cons x items ih =>
      rcases hlast : lastScalar x.2 with _ | s
      · simpa [scalarsOf, hlast] using ih.cons x.1
      · simpa [scalarsOf, hlast] using ih.cons_cons x.1
  rw [scalarView_fields, keysOf, List.map_map]
  exact qd.nodup.sublist (hsublist qd.items)

/-- The last value of a field is the one the view has under its name. -/
theorem getItem_scalarView {qd : QueryDict} {name w : Str} {values : List FormItem}
    (hfield : (name, values) ∈ qd.items) (hlast : lastScalar values = some w) :
    getItem (scalarView qd.fields) name = some (.str w) := by
  apply getItem_of_mem (nodup_scalarView qd)
  rw [scalarView_fields]
  refine List.mem_map.mpr ⟨(name, w), ?_, rfl⟩
  exact List.mem_filterMap.mpr ⟨(name, values), hfield, by simp [hlast]⟩

/-! ## What is asked of the summary -/

/-- The names and values of a form, in field order and then value order. -/
def QueryDict.pairs (qd : QueryDict) : List (Str × FormItem) :=
  qd.items.flatMap fun (name, values) => values.map fun item => (name, item)

/-- The sanitised form of a value. -/
def sanitised (cfg : Config) (w : Str) : Str :=
  if cfg.sanitizeEnabled then sanitizeStringForLog w cfg.maxStringLength else w

/-- A text that may be shown for the value `s`: the mask, or the sanitised form of `s`. -/
def Stands (cfg : Config) (shown s : Str) : Prop :=
  shown = cfg.maskValue ∨ shown = sanitised cfg (clip s)

/-- An entry for a name and a value: it has the name, and a text that may be shown for the
value if that is a string. -/
def Shows (cfg : Config) (x : Str × FormItem) (entry : Value) : Prop :=
  ∃ e, entry = .dict e ∧ getItem e nameKey = some (.str x.1) ∧
    ∀ s, x.2 = .text s → ∃ shown, getItem e valueKey = some (.str shown) ∧ Stands cfg shown s

/-- One entry for each name and value of the form. -/
def Faithful (cfg : Config) (qd : QueryDict) (summary : Value) : Prop :=
  ∃ entries, summary = .dict [(multipartKey, .bool true), (fieldsKey, .seq entries)] ∧
    List.Forall₂ (Shows cfg) qd.pairs entries

variable (u : Casing) (cfg : Config) (qd : QueryDict)

/-- The string `s` among the values of the field `name` is shown as it should be. -/
def Kept (name : Str) (values : List FormItem) (s : Str) : Prop :=
  if cfg.sanitizeEnabled ∧ cfg.maxDictKeys < qd.scalars.length ∧ name = truncatedKey then
    -- the notice is put in its place
    Stands cfg (decimal (qd.scalars.length - cfg.maxDictKeys) ++ " more keys".toList) s
  else if cfg.sanitizeEnabled ∧
      (name ∉ keysOf (qd.scalars.take cfg.maxDictKeys) ∨ cfg.excludes u name) then
    -- the view does not have the name, and the value stays as it is
    Stands cfg (clip s) s
  else if cfg.sanitizeEnabled ∧ cfg.sensitivePattern name then True
  else ∀ w, lastScalar values = some w → Stands cfg (sanitised cfg w) s

/-! ## The entries -/

/-- The sanitised view. -/
def redactedScalars : List (Str × Value) :=
  itemsOf (sanitizeForLog u cfg (.dict (scalarView qd.fields)) none none none)

/-- Merging keeps the name of an entry. -/
theorem getItem_mergeEntry_name (redacted : List (Str × Value)) (name : Str) (item : FormItem) :
    getItem (mergeEntry redacted name (fieldEntry name item)) nameKey = some (.str name) := by
  have hne : nameKey ≠ valueKey := by decide
  unfold mergeEntry
  split
  · rw [getItem_setItem, if_neg hne, getItem_fieldEntry_name]
  · exact getItem_fieldEntry_name name item

/-- The value of a merged entry. -/
theorem getItem_mergeEntry_value (redacted : List (Str × Value)) (name s : Str) :
    getItem (mergeEntry redacted name (fieldEntry name (.text s))) valueKey =
      some (shownValue redacted (name, s)) := by
  rw [mergeEntry_fieldEntry redacted (name, s)]
  rfl

/-- The name of an entry is always right, so that only the value of a string matters. -/
theorem shows_iff (redacted : List (Str × Value)) (x : Str × FormItem) :
    Shows cfg x (.dict (mergeEntry redacted x.1 (fieldEntry x.1 x.2))) ↔
      ∀ s, x.2 = .text s →
        ∃ shown, shownValue redacted (x.1, s) = .str shown ∧ Stands cfg shown s := by
  obtain ⟨name, item⟩ := x
  refine ⟨?_, ?_⟩
  · rintro ⟨e, he, -, hvalue⟩ s rfl
    obtain ⟨shown, hget, hstands⟩ := hvalue s rfl
    obtain rfl := Value.dict.inj he
    rw [getItem_mergeEntry_value] at hget
    exact ⟨shown, Option.some.inj hget, hstands⟩
  · intro hvalue
    refine ⟨_, rfl, getItem_mergeEntry_name redacted name item, ?_⟩
    rintro s rfl
    obtain ⟨shown, hshown, hstands⟩ := hvalue s rfl
    refine ⟨shown, ?_, hstands⟩
    rw [getItem_mergeEntry_value, hshown]

/-- The summary lists the merged entries in the order of the form. -/
theorem summarise_pairs :
    summariseBodyForAudit u cfg (.form qd) =
      .dict [(multipartKey, .bool true), (fieldsKey, .seq (qd.pairs.map fun x =>
        .dict (mergeEntry (redactedScalars u cfg qd) x.1 (fieldEntry x.1 x.2))))] := by
  have hfields : qd.fields = qd.pairs.map fun x => (x.1, fieldEntry x.1 x.2) := by
    simp [QueryDict.fields, QueryDict.pairs, List.map_flatMap, List.map_map, Function.comp_def]
  have hmap : ∀ f : Str × List (Str × Value) → Value,
      qd.fields.map f = qd.pairs.map fun x => f (x.1, fieldEntry x.1 x.2) := by
    intro f
    rw [hfields, List.map_map]
    rfl
  simp only [summariseBodyForAudit, hmap, redactedScalars]

variable {u cfg qd}

/-- What the redacted view has under a name. -/
theorem getItem_redactedScalars (henabled : cfg.sanitizeEnabled = true) (name : Str) :
    getItem (redactedScalars u cfg qd) name =
      if cfg.maxDictKeys < qd.scalars.length ∧ name = truncatedKey then
        some (.str (decimal (qd.scalars.length - cfg.maxDictKeys) ++ " more keys".toList))
      else if name ∈ keysOf (qd.scalars.take cfg.maxDictKeys) then
        (getItem (scalarView qd.fields) name).bind (redactValue u cfg
          (sanitizeValue u cfg cfg.maxStringLength cfg.maxDictKeys cfg.maxListItems maxDepth) name)
      else none := by
  have hdict : redactedScalars u cfg qd =
      sanitizeDictForLog u cfg
        (sanitizeValue u cfg cfg.maxStringLength cfg.maxDictKeys cfg.maxListItems maxDepth)
        cfg.maxDictKeys (scalarView qd.fields) := by
    simp only [redactedScalars, sanitizeForLog, henabled, if_true]
    rfl
  have hlength : (scalarView qd.fields).length = qd.scalars.length := by
    rw [scalarView_fields, List.length_map]
  have hkeys : keysOf ((scalarView qd.fields).take cfg.maxDictKeys) =
      keysOf (qd.scalars.take cfg.maxDictKeys) := by
    rw [scalarView_fields, ← List.map_take, keysOf, List.map_map]
    rfl
  rw [hdict, getItem_sanitizeDictForLog (nodup_scalarView qd), hlength, hkeys]

/-- A field with a string has a last value. -/
theorem exists_lastScalar {values : List FormItem} {s : Str} (hs : .text s ∈ values) :
    ∃ w, lastScalar values = some w := by
  have hmem : clip s ∈ values.filterMap scalar := List.mem_filterMap.mpr ⟨_, hs, rfl⟩
  rw [lastScalar]
  exact ⟨_, List.getLast?_eq_some_getLast (List.ne_nil_of_mem hmem)⟩

/-- What the redacted view has under the name of a field with a last value. -/
theorem getItem_redacted_of_last (henabled : cfg.sanitizeEnabled = true) {name w : Str}
    (hview : getItem (scalarView qd.fields) name = some (.str w)) :
    getItem (redactedScalars u cfg qd) name =
      if cfg.maxDictKeys < qd.scalars.length ∧ name = truncatedKey then
        some (.str (decimal (qd.scalars.length - cfg.maxDictKeys) ++ " more keys".toList))
      else if name ∉ keysOf (qd.scalars.take cfg.maxDictKeys) ∨ cfg.excludes u name then none
      else if cfg.sensitivePattern name then some (.str cfg.maskValue)
      else some (.str (sanitised cfg w)) := by
  have hsanitised : sanitizeValue u cfg cfg.maxStringLength cfg.maxDictKeys cfg.maxListItems
      maxDepth (.str w) = .str (sanitised cfg w) := by
    rw [sanitised, if_pos henabled]
    rfl
  rw [getItem_redactedScalars henabled, hview, Option.bind_some, redactValue, hsanitised]
  by_cases hmem : name ∈ keysOf (qd.scalars.take cfg.maxDictKeys)
  · simp only [hmem, not_true, false_or, if_true]
  · simp only [hmem, not_false_eq_true, true_or, if_true, if_false]

/-- The text an entry shows for a string may be shown exactly if the string is kept. -/
theorem stands_shownValue_iff {name s : Str} {values : List FormItem}
    (hfield : (name, values) ∈ qd.items) (hs : .text s ∈ values) :
    (∃ shown, shownValue (redactedScalars u cfg qd) (name, s) = .str shown ∧
      Stands cfg shown s) ↔ Kept u cfg qd name values s := by
  obtain ⟨w, hw⟩ := exists_lastScalar hs
  have hview := getItem_scalarView hfield hw
  have hfound : ∀ {t : Str}, getItem (redactedScalars u cfg qd) name = some (.str t) →
      ((∃ shown, shownValue (redactedScalars u cfg qd) (name, s) = .str shown ∧
        Stands cfg shown s) ↔ Stands cfg t s) := by
    intro t ht
    simp [shownValue, ht]
  unfold Kept
  rcases henabled : cfg.sanitizeEnabled with _ | _
  · -- the view is not sanitised
    have hget : getItem (redactedScalars u cfg qd) name = some (.str w) := by
      simp only [redactedScalars, sanitizeForLog, henabled, Bool.false_eq_true, if_false, itemsOf]
      exact hview
    rw [hfound hget]
    simp [hw, sanitised, henabled]
  · have hget : getItem (redactedScalars u cfg qd) name = _ :=
      getItem_redacted_of_last henabled hview
    simp only [true_and]
    split
    · next hnotice =>
      rw [if_pos hnotice] at hget
      exact hfound hget
    · next hnotice =>
      rw [if_neg hnotice] at hget
      split
      · next hdropped =>
        rw [if_pos hdropped] at hget
        simp [shownValue, hget]
      · next hthere =>
        rw [if_neg hthere] at hget
        split
        · next hsensitive =>
          rw [if_pos hsensitive] at hget
          rw [hfound hget]
          exact iff_true_intro (Or.inl rfl)
        · next hsensitive =>
          rw [if_neg hsensitive] at hget
          rw [hfound hget]
          simp [hw]

/-- The strings of a form are what its pairs have. -/
theorem text_mem_pairs {name s : Str} :
    (name, .text s) ∈ qd.pairs ↔ ∃ values, (name, values) ∈ qd.items ∧ .text s ∈ values := by
  simp only [QueryDict.pairs, List.mem_flatMap, List.mem_map, Prod.exists, Prod.mk.injEq]
  refine ⟨?_, ?_⟩
  · rintro ⟨_, values, hfield, item, hitem, rfl, rfl⟩
    exact ⟨values, hfield, hitem⟩
  · rintro ⟨values, hfield, hitem⟩
    exact ⟨name, values, hfield, .text s, hitem, rfl, rfl⟩

/-- **The summary of a form.** Each name and value has its entry, in order, with the mask or
the sanitised form of that very value, exactly if every string of the form is kept. -/
theorem summary_faithful_iff (u : Casing) (cfg : Config) (qd : QueryDict) :
    Faithful cfg qd (summariseBodyForAudit u cfg (.form qd)) ↔
      ∀ name values s, (name, values) ∈ qd.items → .text s ∈ values →
        Kept u cfg qd name values s := by
  have hentries : Faithful cfg qd (summariseBodyForAudit u cfg (.form qd)) ↔
      ∀ x ∈ qd.pairs, Shows cfg x
        (.dict (mergeEntry (redactedScalars u cfg qd) x.1 (fieldEntry x.1 x.2))) := by
    rw [summarise_pairs]
    refine ⟨?_, ?_⟩
    · rintro ⟨entries, hsummary, hshows⟩
      obtain rfl : _ = entries := by simpa using hsummary
      rw [List.forall₂_map_right_iff, List.forall₂_same] at hshows
      exact hshows
    · intro hshows
      refine ⟨_, rfl, ?_⟩
      rw [List.forall₂_map_right_iff, List.forall₂_same]
      exact hshows
  rw [hentries]
  refine ⟨?_, ?_⟩
  · intro hshows name values s hfield hs
    have hx := hshows (name, .text s) (text_mem_pairs.mpr ⟨values, hfield, hs⟩)
    exact (stands_shownValue_iff hfield hs).mp ((shows_iff cfg _ _).mp hx s rfl)
  · rintro hkept ⟨name, item⟩ hx
    refine (shows_iff cfg _ _).mpr ?_
    rintro s rfl
    obtain ⟨values, hfield, hs⟩ := text_mem_pairs.mp hx
    exact (stands_shownValue_iff hfield hs).mpr (hkept name values s hfield hs)

/-- A form with one field of two values. -/
def twoTags : QueryDict where
  items := [("tags".toList, [.text "a".toList, .text "b".toList])]
  nodup := by decide

/-- Both entries of a repeated field show its last value. -/
theorem repeated_field_shows_last :
    ¬ ∀ (u : Casing) (cfg : Config) (qd : QueryDict),
      Faithful cfg qd (summariseBodyForAudit u cfg (.form qd)) := by
  intro halways
  obtain ⟨entries, hsummary, hshows⟩ := halways Casing.basic defaultConfig twoTags
  have hboth : summariseBodyForAudit Casing.basic defaultConfig (.form twoTags) =
      .dict [(multipartKey, .bool true), (fieldsKey, .seq
        [.dict [(nameKey, .str "tags".toList), (valueKey, .str "b".toList)],
          .dict [(nameKey, .str "tags".toList), (valueKey, .str "b".toList)]])] := by
    rfl
  rw [hboth] at hsummary
  obtain rfl : _ = entries := by simpa using hsummary
  -- the entry of the first value
  obtain ⟨e, he, -, hvalue⟩ := (List.forall₂_cons.mp hshows).1
  obtain rfl := Value.dict.inj he
  obtain ⟨shown, hget, hstands⟩ := hvalue "a".toList rfl
  have hshown : Value.str "b".toList = .str shown := Option.some.inj hget
  obtain rfl : "b".toList = shown := Value.str.inj hshown
  rcases hstands with hmask | hown
  · exact absurd hmask (by decide)
  · exact absurd hown (by decide)

end Sanitizers

end DjangoBoilerplate
