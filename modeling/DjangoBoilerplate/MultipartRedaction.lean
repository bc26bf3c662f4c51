import DjangoBoilerplate.Sanitizers

/-!
# What a multipart form leaves in the audit row

`log_inbound` stores `serialize_body(summarise_body_for_audit(form))` for a
multipart request. The summary lists one entry for each value; a view of the
form, sanitised on its own, supplies the values of the entries by name; and the
whole is sanitised once more, which keeps the first ten entries.

The view drops an excluded name where it masks a sensitive one, and an entry
whose name the view does not have keeps its value as it is. So the value of a
field named `password` is in the row (`excluded_field_leaks`), unless the text in
front of it already fills the cap: `secrets_hidden_iff` says when exactly no
secret of a form can influence its row.
-/

namespace DjangoBoilerplate

namespace Sanitizers

open LogSanitization

/-! ## Forms -/

/-- A multipart form without files: field names with their values. -/
structure Form : Type where
  /-- the fields -/
  fields : List (Str × List Str)
  /-- a field name occurs once -/
  nodup : (fields.map Prod.fst).Nodup

/-- The form as the view sees it. -/
def Form.toQueryDict (f : Form) : QueryDict where
  items := f.fields.map fun (name, values) => (name, values.map FormItem.text)
  nodup := by
    rw [List.map_map]
    exact f.nodup

/-- Names and values, one after the other. -/
def entriesOf (fields : List (Str × List Str)) : List (Str × Str) :=
  fields.flatMap fun (name, values) => values.map fun v => (name, v)

/-- The names and values of a form. -/
def Form.entries (f : Form) : List (Str × Str) := entriesOf f.fields

/-- A field with the same name and as many values, and the same values unless
they are secret. -/
def TwinFields (secret : Str → Bool) (x y : Str × List Str) : Prop :=
  x.1 = y.1 ∧ x.2.length = y.2.length ∧ (secret x.1 = false → x.2 = y.2)

/-- Two forms of the same shape that differ only in values under secret names. -/
def Twins (secret : Str → Bool) (f g : Form) : Prop :=
  List.Forall₂ (TwinFields secret) f.fields g.fields

/-- The `request_body` of the row. -/
def requestBody (u : Casing) (cfg : Config) (loads : Str → Option Value)
    (decode : List UInt8 → Str) (maxLen : ℕ) (f : Form) : Option Str :=
  serializeBody u cfg loads decode (summariseBodyForAudit u cfg (.form f.toQueryDict)) maxLen

/-- The entries of twins differ only in secrets. -/
theorem agreeOff_entriesOf {secret : Str → Bool} {fields fields' : List (Str × List Str)}
    (h : List.Forall₂ (TwinFields secret) fields fields') :
    List.Forall₂ (AgreeOff secret) (entriesOf fields) (entriesOf fields') := by
  unfold entriesOf
  induction h with
  | nil => exact .nil
  | @cons x y l l' hxy _ ih =>
    obtain ⟨hname, hlength, hvalues⟩ := hxy
    rw [List.flatMap_cons, List.flatMap_cons]
    refine List.rel_append ?_ ih
    obtain ⟨name, values⟩ := x
    obtain ⟨name', values'⟩ := y
    obtain rfl : name = name' := hname
    rcases hsecret : secret name with _ | _
    · obtain rfl : values = values' := hvalues hsecret
      rw [List.forall₂_same]
      exact fun _ _ => ⟨rfl, fun _ => rfl⟩
    · rw [List.forall₂_map_left_iff, List.forall₂_map_right_iff, List.forall₂_iff_zip]
      refine ⟨hlength, ?_⟩
      intro a b _
      refine ⟨rfl, ?_⟩
      intro hfalse
      rw [show secret name = false from hfalse] at hsecret
      cases hsecret

/-- Every field is its own twin. -/
theorem twinFields_rfl (secret : Str → Bool) (l : List (Str × List Str)) :
    List.Forall₂ (TwinFields secret) l l :=
  List.forall₂_same.mpr fun _ _ => ⟨rfl, rfl, fun _ => rfl⟩

/-- One value can be replaced by another. -/
theorem exists_replace {fields : List (Str × List Str)} {front rest : List (Str × Str)}
    {name v : Str} (h : entriesOf fields = front ++ (name, v) :: rest) (w : Str) :
    ∃ fields', entriesOf fields' = front ++ (name, w) :: rest ∧
      fields'.map Prod.fst = fields.map Prod.fst ∧
      ∀ secret : Str → Bool, secret name = true →
        List.Forall₂ (TwinFields secret) fields fields' := by
  induction fields generalizing front with
  | nil => exact absurd h.symm (List.append_ne_nil_of_right_ne_nil _ (List.cons_ne_nil _ _))
  | cons field fields ih =>
    obtain ⟨n, values⟩ := field
    have hcons : ∀ values' fields', entriesOf ((n, values') :: fields') =
        values'.map (fun v => (n, v)) ++ entriesOf fields' :=
      fun _ _ => List.flatMap_cons
    -- in a later field, with what is in front of it there
    have later : ∀ front', entriesOf fields = front' ++ (name, v) :: rest →
        front = values.map (fun v => (n, v)) ++ front' →
        ∃ fields', entriesOf fields' = front ++ (name, w) :: rest ∧
          fields'.map Prod.fst = ((n, values) :: fields).map Prod.fst ∧
          ∀ secret : Str → Bool, secret name = true →
            List.Forall₂ (TwinFields secret) ((n, values) :: fields) fields' := by
      rintro front' hfields rfl
      obtain ⟨fields', hentries, hnames, htwin⟩ := ih hfields
      refine ⟨(n, values) :: fields', ?_, ?_, ?_⟩
      · rw [hcons, hentries, List.append_assoc]
      · rw [List.map_cons, List.map_cons, hnames]
      · exact fun secret hsecret => .cons ⟨rfl, rfl, fun _ => rfl⟩ (htwin secret hsecret)
    rw [hcons, List.append_eq_append_iff] at h
    rcases h with ⟨front', hfront, hfields⟩ | ⟨mid, hvalues, hrest⟩
    · exact later front' hfields hfront
    · rcases mid with _ | ⟨m, mid⟩
      · exact later [] hrest.symm (by rw [List.append_nil, hvalues, List.append_nil])
      · -- in this field
        obtain rfl : (name, v) = m := (List.cons.inj hrest).1
        obtain rfl : rest = mid ++ entriesOf fields := (List.cons.inj hrest).2
        obtain ⟨before, after, rfl, hbefore, hafter⟩ := List.map_eq_append_iff.mp hvalues
        obtain ⟨x, after, rfl, hx, hmid⟩ := List.map_eq_cons_iff.mp hafter
        obtain ⟨rfl, rfl⟩ := Prod.mk.inj hx
        refine ⟨(n, before ++ w :: after) :: fields, ?_, rfl, ?_⟩
        · rw [hcons, List.map_append, hbefore, List.map_cons, hmid, List.append_assoc,
            List.cons_append]
        · intro secret hsecret
          refine .cons ⟨rfl, by simp, ?_⟩ (twinFields_rfl secret fields)
          intro hfalse
          rw [show secret n = false from hfalse] at hsecret
          cases hsecret

/-! ## The summary -/

/-- The view of the form: the last value under each name. -/
def viewOf (entries : List (Str × Str)) : List (Str × Value) :=
  entries.foldl (fun view x => setItem view x.1 (.str (clip x.2))) []

/-- The entry of a text. -/
theorem getItem_fieldEntry (name v : Str) :
    getItem (fieldEntry name (.text v)) valueKey = some (.str (clip v)) := by
  have hne : (valueKey == nameKey) = false := by decide
  simp [fieldEntry, getItem, List.lookup_cons, hne]

theorem fields_toQueryDict (f : Form) :
    f.toQueryDict.fields = f.entries.map fun x => (x.1, fieldEntry x.1 (.text x.2)) := by
  simp only [QueryDict.fields, Form.toQueryDict, Form.entries, entriesOf, List.flatMap_map,
    List.map_flatMap, List.map_map]
  rfl

theorem scalarView_eq (entries : List (Str × Str)) :
    scalarView (entries.map fun x => (x.1, fieldEntry x.1 (.text x.2))) = viewOf entries := by
  rw [scalarView, viewOf, List.foldl_map]
  simp only [getItem_fieldEntry]

/-- Setting items that agree keeps the agreement. -/
theorem agreeOff_setItem {secret : Str → Bool} {d d' : List (Str × Value)}
    (h : List.Forall₂ (AgreeOff secret) d d') {k : Str} {v v' : Value}
    (hv : secret k = false → v = v') :
    List.Forall₂ (AgreeOff secret) (setItem d k v) (setItem d' k v') := by
  induction h with
  | nil => exact .cons ⟨rfl, hv⟩ .nil
  | @cons x y l l' hxy hl ih =>
    obtain ⟨kx, vx⟩ := x
    obtain ⟨ky, vy⟩ := y
    obtain rfl : kx = ky := hxy.1
    rw [setItem, setItem]
    split
    · exact .cons ⟨rfl, hv⟩ hl
    · exact .cons hxy ih

/-- Views of entries that differ only in secrets differ only in secrets. -/
theorem agreeOff_viewOf {secret : Str → Bool} {e e' : List (Str × Str)}
    (h : List.Forall₂ (AgreeOff secret) e e') :
    List.Forall₂ (AgreeOff secret) (viewOf e) (viewOf e') := by
  have hfold : ∀ {view view' : List (Str × Value)},
      List.Forall₂ (AgreeOff secret) view view' → List.Forall₂ (AgreeOff secret)
        (e.foldl (fun view x => setItem view x.1 (.str (clip x.2))) view)
        (e'.foldl (fun view x => setItem view x.1 (.str (clip x.2))) view') := by
    induction h with
    | nil => exact fun hview => hview
    | @cons x y l l' hxy _ ih =>
      intro view view' hview
      rw [List.foldl_cons, List.foldl_cons, ← hxy.1]
      exact ih (agreeOff_setItem hview fun hpublic => by rw [hxy.2 hpublic])
  exact hfold .nil

/-! ### The names of the view -/

/-- The names of the view are those of the entries. -/
theorem mem_keysOf_viewOf {e : List (Str × Str)} {k : Str} :
    k ∈ keysOf (viewOf e) ↔ k ∈ keysOf e := by
  have hfold : ∀ (view : List (Str × Value)),
      k ∈ keysOf (e.foldl (fun view x => setItem view x.1 (.str (clip x.2))) view) ↔
        k ∈ keysOf view ∨ k ∈ keysOf e := by
    induction e with
    | nil => simp [keysOf]
    | cons x e ih =>
      intro view
      rw [List.foldl_cons, ih, mem_keysOf_setItem]
      simp only [keysOf, List.map_cons, List.mem_cons]
      tauto
  simpa [keysOf, viewOf] using hfold []

/-- Later entries come after the names that are there. -/
theorem keysOf_viewOf_initial (e₁ e₂ : List (Str × Str)) :
    keysOf (viewOf e₁) <+: keysOf (viewOf (e₁ ++ e₂)) := by
  have hfold : ∀ (e : List (Str × Str)) (view : List (Str × Value)),
      keysOf view <+:
        keysOf (e.foldl (fun view x => setItem view x.1 (.str (clip x.2))) view) := by
    intro e
    induction e with
    | nil => exact fun _ => List.prefix_rfl
    | cons x e ih => exact fun view => (keysOf_prefix_setItem view x.1 _).trans (ih _)
  rw [viewOf, viewOf, List.foldl_append]
  exact hfold e₂ _

/-- There are no more names than entries. -/
theorem length_keysOf_viewOf (e : List (Str × Str)) : (keysOf (viewOf e)).length ≤ e.length := by
  have hfold : ∀ (view : List (Str × Value)),
      (keysOf (e.foldl (fun view x => setItem view x.1 (.str (clip x.2))) view)).length ≤
        (keysOf view).length + e.length := by
    induction e with
    | nil => exact fun _ => le_rfl
    | cons x e ih =>
      intro view
      have hset : (keysOf (setItem view x.1 (Value.str (clip x.2)))).length ≤
          (keysOf view).length + 1 := by
        rw [keysOf_setItem]
        split
        · exact Nat.le_succ _
        · simp
      have hrest := ih (setItem view x.1 (Value.str (clip x.2)))
      rw [List.foldl_cons, List.length_cons]
      omega
  simpa [keysOf, viewOf] using hfold []

/-- The names of the first entries are among the first names of the view. -/
theorem mem_take_viewOf {e₁ e₂ : List (Str × Str)} {k : Str} {n : ℕ} (hk : k ∈ keysOf e₁)
    (hn : e₁.length ≤ n) : k ∈ keysOf ((viewOf (e₁ ++ e₂)).take n) := by
  have hlen : (keysOf (viewOf e₁)).length ≤ n := (length_keysOf_viewOf e₁).trans hn
  have hinitial : keysOf (viewOf e₁) <+: (keysOf (viewOf (e₁ ++ e₂))).take n :=
    List.prefix_take_iff.mpr ⟨keysOf_viewOf_initial e₁ e₂, hlen⟩
  have hmap : keysOf ((viewOf (e₁ ++ e₂)).take n) = (keysOf (viewOf (e₁ ++ e₂))).take n :=
    List.map_take
  rw [hmap]
  exact hinitial.subset (mem_keysOf_viewOf.mpr hk)

/-! ### The default settings -/

/-- The keys the summary is built with are neither dropped nor masked. -/
theorem public_keys (u : Casing) :
    ∀ k ∈ [nameKey, valueKey, multipartKey, fieldsKey, truncatedKey],
      defaultConfig.excludes u k = false ∧ defaultConfig.sensitivePattern k = false := by
  have hlower : ∀ k ∈ [nameKey, valueKey, multipartKey, fieldsKey, truncatedKey],
      k.isAscii = true ∧ (defaultConfig.excludedFields.contains (k.map asciiLower)) = false ∧
        defaultConfig.sensitivePattern k = false := by
    decide
  intro k hk
  obtain ⟨hascii, hexcluded, hsensitive⟩ := hlower k hk
  refine ⟨?_, hsensitive⟩
  rw [Config.excludes, u.lower_of_isAscii k hascii]
  exact hexcluded

variable (u : Casing) (maxLen : ℕ)

/-- The values of the view, sanitised. -/
def redactedOf (e : List (Str × Str)) : List (Str × Value) :=
  sanitizeDictForLog u defaultConfig (sanitizeValue u defaultConfig 200 20 10 5) 20 (viewOf e)

/-- A dictionary of two public keys keeps both. -/
theorem sanitizeDictForLog_pair {k k' : Str} (hne : k ≠ k')
    (hk : defaultConfig.excludes u k = false ∧ defaultConfig.sensitivePattern k = false)
    (hk' : defaultConfig.excludes u k' = false ∧ defaultConfig.sensitivePattern k' = false)
    (sanitize : Value → Value) (x y : Value) :
    sanitizeDictForLog u defaultConfig sanitize 20 [(k, x), (k', y)] =
      [(k, sanitize x), (k', sanitize y)] := by
  simp [sanitizeDictForLog, sanitizeItem, hk, hk', setItem, hne]

/-- The cap on strings in the second pass. -/
abbrev maxStr : ℕ := orDefault (some maxLen) 200

/-- The value an entry shows: that of the redacted view, or its own where the
view does not have its name. -/
def shownValue (redacted : List (Str × Value)) (x : Str × Str) : Value :=
  (getItem redacted x.1).getD (.str (clip x.2))

/-- An entry after the second pass. -/
def shownItem (redacted : List (Str × Value)) (x : Str × Str) : Value :=
  .dict [(nameKey, .str (sanitizeStringForLog x.1 (maxStr maxLen))),
    (valueKey, sanitizeValue u defaultConfig (maxStr maxLen) 20 10 3 (shownValue redacted x))]

/-- The entries after the second pass. -/
def shown (e : List (Str × Str)) : List Value :=
  (e.take 10).map (shownItem u maxLen (redactedOf u e)) ++
    if 10 < e.length then
      [.str ("...and ".toList ++ decimal (e.length - 10) ++ " more items".toList)]
    else []

/-- The text up to the first entry. -/
def bodyHead : Str :=
  '\x7b' :: (jsonString multipartKey ++ ": true, ".toList ++ jsonString fieldsKey ++
    ": [".toList)

/-- The text of the body, before it is cut to the cap. -/
def bodyText (e : List (Str × Str)) : Str :=
  bodyHead ++ (Value.seqText (shown u maxLen e) ++ "]\x7d".toList)

/-- The merged entry of a text. -/
theorem mergeEntry_fieldEntry (redacted : List (Str × Value)) (x : Str × Str) :
    mergeEntry redacted x.1 (fieldEntry x.1 (.text x.2)) =
      [(nameKey, .str x.1), (valueKey, shownValue redacted x)] := by
  have hne : nameKey ≠ valueKey := by decide
  rw [mergeEntry, getItem_fieldEntry]
  rcases hget : getItem redacted x.1 with _ | v
  · simp [shownValue, hget, fieldEntry]
  · simp [shownValue, hget, fieldEntry, setItem, hne]

/-- The summary of a form. -/
theorem summarise_form (f : Form) :
    summariseBodyForAudit u defaultConfig (.form f.toQueryDict) =
      .dict [(multipartKey, .bool true), (fieldsKey, .seq (f.entries.map fun x =>
        .dict [(nameKey, .str x.1), (valueKey, shownValue (redactedOf u f.entries) x)]))] := by
  simp only [summariseBodyForAudit, fields_toQueryDict, scalarView_eq, List.map_map]
  have hredacted : itemsOf (sanitizeForLog u defaultConfig (.dict (viewOf f.entries)) Option.none
      Option.none Option.none) = redactedOf u f.entries := rfl
  rw [hredacted]
  simp only [Function.comp_def, mergeEntry_fieldEntry]

/-- The second pass over a summary. -/
theorem sanitize_summary (e : List (Str × Str)) :
    sanitizeForLog u defaultConfig (.dict [(multipartKey, .bool true), (fieldsKey, .seq (e.map
        fun x => .dict [(nameKey, .str x.1), (valueKey, shownValue (redactedOf u e) x)]))])
      (some maxLen) Option.none Option.none =
      .dict [(multipartKey, .bool true), (fieldsKey, .seq (shown u maxLen e))] := by
  have hpublic := public_keys u
  have houter : ∀ sanitize x y, sanitizeDictForLog u defaultConfig sanitize 20
      [(multipartKey, x), (fieldsKey, y)] = [(multipartKey, sanitize x), (fieldsKey, sanitize y)] :=
    sanitizeDictForLog_pair u (by decide) (hpublic _ (by simp)) (hpublic _ (by simp))
  have hinner : ∀ sanitize x y, sanitizeDictForLog u defaultConfig sanitize 20
      [(nameKey, x), (valueKey, y)] = [(nameKey, sanitize x), (valueKey, sanitize y)] :=
    sanitizeDictForLog_pair u (by decide) (hpublic _ (by simp)) (hpublic _ (by simp))
  have hitem : ∀ x : Str × Str, sanitizeValue u defaultConfig (maxStr maxLen) 20 10 4
      (.dict [(nameKey, .str x.1), (valueKey, shownValue (redactedOf u e) x)]) =
        shownItem u maxLen (redactedOf u e) x := by
    intro x
    rw [sanitizeValue, hinner]
    rfl
  have hseq : ∀ items : List Value,
      sanitizeForLog u defaultConfig (.dict [(multipartKey, .bool true), (fieldsKey, .seq items)])
        (some maxLen) Option.none Option.none =
      .dict [(multipartKey, .bool true), (fieldsKey, .seq (sanitizeIterableForLog
        (sanitizeValue u defaultConfig (maxStr maxLen) 20 10 4) 10 items))] := by
    intro items
    have h := houter (sanitizeValue u defaultConfig (maxStr maxLen) 20 10 5) (.bool true)
      (.seq items)
    rw [sanitizeValue, sanitizeValue] at h
    rw [← h]
    rfl
  rw [hseq]
  unfold sanitizeIterableForLog shown
  simp only [← List.map_take, List.map_map, Function.comp_def, hitem, List.length_map]
  split
  · rfl
  · rw [List.append_nil]

/-- **The row of a form.** -/
theorem requestBody_eq (loads : Str → Option Value) (decode : List UInt8 → Str) (f : Form) :
    requestBody u defaultConfig loads decode maxLen f =
      some (truncate (bodyText u maxLen f.entries) maxLen) := by
  rw [requestBody, summarise_form]
  simp only [serializeBody]
  have hencodable := sanitizeValue_encodable u defaultConfig (maxStr maxLen) 20 10 6
    (.dict [(multipartKey, .bool true), (fieldsKey, .seq (f.entries.map fun x =>
      .dict [(nameKey, .str x.1), (valueKey, shownValue (redactedOf u f.entries) x)]))])
  have hsummary := sanitize_summary u maxLen f.entries
  rw [hsummary]
  have heq : sanitizeValue u defaultConfig (maxStr maxLen) 20 10 6
      (.dict [(multipartKey, .bool true), (fieldsKey, .seq (f.entries.map fun x =>
        .dict [(nameKey, .str x.1), (valueKey, shownValue (redactedOf u f.entries) x)]))]) =
      .dict [(multipartKey, .bool true), (fieldsKey, .seq (shown u maxLen f.entries))] := hsummary
  rw [heq] at hencodable
  simp only [dumps, hencodable, if_true, Option.map_some]
  congr 2
  simp [bodyText, bodyHead, Value.text, Value.itemsText]

/-! ## Where a value stands in the text -/

/-- The text up to the opening quote of a value: the entries in front of it, and
its own name. -/
def textBefore (redacted : List (Str × Value)) (front : List (Str × Str)) (name : Str) : Str :=
  bodyHead ++ front.flatMap (fun x => (shownItem u maxLen redacted x).text ++ ", ".toList) ++
    ('\x7b' :: (jsonString nameKey ++ ": ".toList ++
      jsonString (sanitizeStringForLog name (maxStr maxLen)) ++ ", ".toList ++
      jsonString valueKey ++ ": \x22".toList))

variable {u maxLen}

/-- Entries that differ only in secrets have the same redacted view. -/
theorem redactedOf_congr {e e' : List (Str × Str)}
    (h : List.Forall₂ (AgreeOff (defaultConfig.secret u)) e e') :
    redactedOf u e = redactedOf u e' :=
  sanitizeDictForLog_congr ((agreeOff_viewOf h).imp fun _ _ hxy => hxy.map _)

/-- The redacted view does not have the excluded names, -/
theorem getItem_redactedOf {e : List (Str × Str)} {name : Str}
    (h : defaultConfig.excludes u name = true) : getItem (redactedOf u e) name = none := by
  rw [← Option.isNone_iff_eq_none, ← Option.not_isSome, Bool.not_eq_true', Bool.eq_false_iff]
  intro hsome
  exact not_mem_sanitizeDictForLog h (public_keys u truncatedKey (by simp)).1
    (getItem_isSome_iff.mp hsome)

/-- and it does have the other names of the first ten entries. -/
theorem exists_getItem_redactedOf {e₁ e₂ : List (Str × Str)} {name : Str}
    (hmem : name ∈ keysOf e₁) (hlen : e₁.length ≤ 10)
    (h : defaultConfig.excludes u name = false) :
    ∃ v, getItem (redactedOf u (e₁ ++ e₂)) name = some v := by
  rw [← Option.isSome_iff_exists, getItem_isSome_iff]
  exact mem_sanitizeDictForLog (mem_take_viewOf hmem (by omega)) h

/-- So the first ten entries, where none is excluded, show nothing of a secret. -/
theorem map_shownItem_congr (maxLen : ℕ) {front front' : List (Str × Str)}
    (rest : List (Str × Str))
    (h : List.Forall₂ (AgreeOff (defaultConfig.secret u)) front front') (hlen : front.length ≤ 10)
    (hnone : ∀ x ∈ front, defaultConfig.excludes u x.1 = false) :
    front.map (shownItem u maxLen (redactedOf u (front ++ rest))) =
      front'.map (shownItem u maxLen (redactedOf u (front ++ rest))) := by
  rw [← List.forall₂_eq_eq_eq, List.forall₂_map_left_iff, List.forall₂_map_right_iff,
    List.forall₂_iff_zip]
  refine ⟨h.length_eq, ?_⟩
  intro x y hxy
  have hx : x ∈ front := (List.of_mem_zip hxy).1
  have hagree : AgreeOff (defaultConfig.secret u) x y := (List.forall₂_iff_zip.mp h).2 hxy
  -- both show the value of the view
  obtain ⟨v, hv⟩ := exists_getItem_redactedOf (List.mem_map_of_mem hx) hlen (hnone x hx)
  unfold shownItem shownValue
  rw [← hagree.1, hv]
  rfl

/-- The text of a body, around the value of an excluded name. -/
theorem bodyText_split (maxLen : ℕ) {e front rest : List (Str × Str)} {name v : Str}
    (he : e = front ++ (name, v) :: rest) (hlen : front.length < 10)
    (h : defaultConfig.excludes u name = true) :
    ∃ after, bodyText u maxLen e = textBefore u maxLen (redactedOf u e) front name ++
      (jsonChars (sanitizeStringForLog (clip v) (maxStr maxLen)) ++ '\x22' :: after) := by
  have htake : e.take 10 = front ++ (name, v) :: rest.take (9 - front.length) := by
    rw [he, List.take_append, List.take_of_length_le (by omega),
      show 10 - front.length = (9 - front.length) + 1 by omega, List.take_succ_cons]
  have hitem : (shownItem u maxLen (redactedOf u e) (name, v)).text =
      '\x7b' :: (jsonString nameKey ++ ": ".toList ++
        jsonString (sanitizeStringForLog name (maxStr maxLen)) ++ ", ".toList ++
        jsonString valueKey ++ ": \x22".toList ++
        (jsonChars (sanitizeStringForLog (clip v) (maxStr maxLen)) ++ "\x22\x7d".toList)) := by
    have hvalue : shownValue (redactedOf u e) (name, v) = .str (clip v) := by
      rw [shownValue, getItem_redactedOf h]
      rfl
    rw [shownItem, hvalue, sanitizeValue]
    simp [Value.text, Value.itemsText, jsonString]
  refine ⟨'\x7d' :: (Value.restText ((rest.take (9 - front.length)).map
    (shownItem u maxLen (redactedOf u e)) ++ if 10 < e.length then
      [.str ("...and ".toList ++ decimal (e.length - 10) ++ " more items".toList)] else []) ++
    "]\x7d".toList), ?_⟩
  unfold bodyText shown textBefore
  rw [htake, List.map_append, List.map_cons, List.append_assoc, List.cons_append,
    Value.seqText_append, hitem, List.flatMap_map]
  simp only [List.append_assoc, List.cons_append]
  rfl

/-! ## When no secret shows -/

/-- A character in front of the cap is not cut off. -/
theorem getElem?_truncate {text : Str} {n i : ℕ} (hi : i < n) (hlt : i < text.length) :
    (truncate text n)[i]? = text[i]? := by
  simp only [truncate]
  split
  · rfl
  · rw [List.getElem?_append_left (by simp; omega), List.getElem?_take, if_pos hi]

/-- What lies behind the cap is. -/
theorem truncate_append {front rest : Str} {n : ℕ} (hn : n ≤ front.length) (hrest : rest ≠ []) :
    truncate (front ++ rest) n = front.take n ++ "…[truncated]".toList := by
  have hpos : 0 < rest.length := List.length_pos_iff.mpr hrest
  rw [truncate, if_neg (by rw [List.length_append]; omega), List.take_append_of_le_length hn]

/-- Every excluded name among the first ten entries comes after the cap: the text
in front of its value fills it. -/
def SecretsCovered (u : Casing) (maxLen : ℕ) (f : Form) : Prop :=
  ∀ front name v rest, f.entries = front ++ (name, v) :: rest → front.length < 10 →
    defaultConfig.excludes u name = true →
      maxLen ≤ (textBefore u maxLen (redactedOf u f.entries) front name).length

/-- A single letter comes through both passes and the encoding as it is. -/
theorem jsonChars_letter {c : Char} (hc : c = 'a' ∨ c = 'b') :
    jsonChars (sanitizeStringForLog (clip [c]) (maxStr maxLen)) = [c] := by
  have hpos : 1 ≤ maxStr maxLen := by
    unfold maxStr orDefault
    split
    · exact Nat.succ_pos _
    · decide
  have hescape : escapeString (clip [c]) = [c] ∧ jsonChars [c] = [c] := by
    rcases hc with rfl | rfl <;> decide
  have hsanitize : sanitizeStringForLog (clip [c]) (maxStr maxLen) = [c] := by
    unfold sanitizeStringForLog
    simp only [hescape.1]
    rw [if_neg (by simp only [List.length_singleton]; omega)]
  rw [hsanitize, hescape.2]

/-- The entries with another value under a secret name. -/
theorem agreeOff_replace {secret : Str → Bool} {name : Str} (h : secret name = true) (v w : Str)
    (front rest : List (Str × Str)) :
    List.Forall₂ (AgreeOff secret) (front ++ (name, v) :: rest) (front ++ (name, w) :: rest) := by
  have hsame : ∀ l : List (Str × Str), List.Forall₂ (AgreeOff secret) l l :=
    fun _ => List.forall₂_same.mpr fun _ _ => ⟨rfl, fun _ => rfl⟩
  refine List.rel_append (hsame front) (.cons ⟨rfl, ?_⟩ (hsame rest))
  intro hfalse
  rw [show secret name = false from hfalse] at h
  cases h

/-- A value of an excluded name that is not covered shows: with another value the
row would be another. -/
theorem exists_other_row {front rest : List (Str × Str)} {name v : Str}
    (hlen : front.length < 10) (h : defaultConfig.excludes u name = true)
    (hlt : (textBefore u maxLen (redactedOf u (front ++ (name, v) :: rest)) front name).length <
      maxLen) :
    ∃ w, truncate (bodyText u maxLen (front ++ (name, w) :: rest)) maxLen ≠
      truncate (bodyText u maxLen (front ++ (name, v) :: rest)) maxLen := by
  have hsecret : defaultConfig.secret u name = true := by
    simp [Config.secret, h]
  -- the character at the opening of the value, whatever the value
  have hchar : ∀ w, ∃ after,
      (truncate (bodyText u maxLen (front ++ (name, w) :: rest)) maxLen)[(textBefore u maxLen
        (redactedOf u (front ++ (name, v) :: rest)) front name).length]? =
      (jsonChars (sanitizeStringForLog (clip w) (maxStr maxLen)) ++ '\x22' :: after).head? := by
    intro w
    obtain ⟨after, htext⟩ := bodyText_split maxLen
      (rfl : front ++ (name, w) :: rest = _) hlen h
    rw [← redactedOf_congr (agreeOff_replace hsecret v w front rest)] at htext
    refine ⟨after, ?_⟩
    rw [getElem?_truncate hlt (by rw [htext]; simp), htext,
      List.getElem?_append_right le_rfl, Nat.sub_self, List.head?_eq_getElem?]
  obtain ⟨after, hv⟩ := hchar v
  have hletter : ∀ c : Char, c = 'a' ∨ c = 'b' →
      truncate (bodyText u maxLen (front ++ (name, [c]) :: rest)) maxLen =
        truncate (bodyText u maxLen (front ++ (name, v) :: rest)) maxLen →
      some c = (jsonChars (sanitizeStringForLog (clip v) (maxStr maxLen)) ++
        '\x22' :: after).head? := by
    intro c hc heq
    obtain ⟨after', hc'⟩ := hchar [c]
    rw [heq, hv, jsonChars_letter hc] at hc'
    exact hc'.symm
  by_contra hall
  simp only [not_exists, not_not] at hall
  -- the same character cannot be both letters
  have ha := hletter 'a' (Or.inl rfl) (hall _)
  have hb := hletter 'b' (Or.inr rfl) (hall _)
  rw [← hb] at ha
  cases ha

/-- Without excluded names in the first ten entries secrets leave no trace. -/
theorem bodyText_congr {e e' : List (Str × Str)}
    (h : List.Forall₂ (AgreeOff (defaultConfig.secret u)) e e')
    (hnone : ∀ x ∈ e.take 10, defaultConfig.excludes u x.1 = false) :
    bodyText u maxLen e = bodyText u maxLen e' := by
  have hitems := map_shownItem_congr maxLen (e.drop 10) (List.forall₂_take 10 h) (by simp) hnone
  rw [List.take_append_drop] at hitems
  unfold bodyText shown
  rw [hitems, redactedOf_congr h, h.length_eq]

/-- Lists that agree with an append are appends. -/
theorem exists_append_of_forall₂ {α β : Type} {R : α → β → Prop} {a b : List α} {l : List β}
    (h : List.Forall₂ R (a ++ b) l) :
    ∃ a' b', List.Forall₂ R a a' ∧ List.Forall₂ R b b' ∧ l = a' ++ b' := by
  refine ⟨l.take a.length, l.drop a.length, ?_, ?_, (List.take_append_drop _ _).symm⟩
  · simpa using List.forall₂_take a.length h
  · simpa using List.forall₂_drop a.length h

/-- Neither do they behind the cap. -/
theorem truncate_bodyText_congr {e' front rest : List (Str × Str)} {name v : Str}
    (h : List.Forall₂ (AgreeOff (defaultConfig.secret u)) (front ++ (name, v) :: rest) e')
    (hlen : front.length < 10) (hfront : ∀ x ∈ front, defaultConfig.excludes u x.1 = false)
    (hname : defaultConfig.excludes u name = true)
    (hcap : maxLen ≤
      (textBefore u maxLen (redactedOf u (front ++ (name, v) :: rest)) front name).length) :
    truncate (bodyText u maxLen e') maxLen =
      truncate (bodyText u maxLen (front ++ (name, v) :: rest)) maxLen := by
  obtain ⟨front', tail', hfront', htail', rfl⟩ := exists_append_of_forall₂ h
  cases htail' with
  | @cons _ y _ rest' hy hrest' =>
    obtain ⟨name', v'⟩ := y
    obtain rfl : name = name' := hy.1
    have hlen' : front'.length < 10 := by
      rw [← hfront'.length_eq]
      exact hlen
    -- what is in front of the value is the same text
    have hbefore : textBefore u maxLen (redactedOf u (front' ++ (name, v') :: rest')) front' name =
        textBefore u maxLen (redactedOf u (front ++ (name, v) :: rest)) front name := by
      rw [← redactedOf_congr h]
      unfold textBefore
      have hitems := congrArg (List.flatMap fun x : Value => x.text ++ ", ".toList)
        (map_shownItem_congr maxLen ((name, v) :: rest) hfront' hlen.le hfront)
      rw [List.flatMap_map, List.flatMap_map] at hitems
      rw [hitems]
    obtain ⟨after, htext⟩ := bodyText_split maxLen
      (rfl : front ++ (name, v) :: rest = _) hlen hname
    obtain ⟨after', htext'⟩ := bodyText_split maxLen
      (rfl : front' ++ (name, v') :: rest' = _) hlen' hname
    rw [htext, htext', hbefore, truncate_append hcap (by simp), truncate_append hcap (by simp)]

/-- The first excluded name among the first ten entries, if there is one. -/
theorem exists_first_excluded (u : Casing) (e : List (Str × Str)) :
    (∀ x ∈ e.take 10, defaultConfig.excludes u x.1 = false) ∨
      ∃ front name v rest, e = front ++ (name, v) :: rest ∧ front.length < 10 ∧
        (∀ x ∈ front, defaultConfig.excludes u x.1 = false) ∧
        defaultConfig.excludes u name = true := by
  rcases hfind : (e.take 10).find? (fun x => defaultConfig.excludes u x.1) with _ | ⟨name, v⟩
  · apply Or.inl
    intro x hx
    simpa using List.find?_eq_none.mp hfind x hx
  · obtain ⟨hname, front, rest, htake, hfront⟩ := List.find?_eq_some_iff_append.mp hfind
    refine Or.inr ⟨front, name, v, rest ++ e.drop 10, ?_, ?_, ?_, hname⟩
    · rw [← List.cons_append, ← List.append_assoc, ← htake, List.take_append_drop]
    · have hlen := congrArg List.length htake
      simp only [List.length_take, List.length_append, List.length_cons] at hlen
      omega
    · intro x hx
      simpa using hfront x hx

/-- **When the row of a form hides its secrets.** Under the default settings no
twin of a form leaves another row, exactly if every excluded name among the first
ten entries is covered. -/
theorem secrets_hidden_iff (u : Casing) (loads : Str → Option Value)
    (decode : List UInt8 → Str) (maxLen : ℕ) (f : Form) :
    (∀ g, Twins (defaultConfig.secret u) f g →
      requestBody u defaultConfig loads decode maxLen g =
        requestBody u defaultConfig loads decode maxLen f) ↔
      SecretsCovered u maxLen f := by
  refine ⟨?_, ?_⟩
  · -- a value that is not covered can be exchanged for one that leaves another row
    intro hhidden front name v rest he hlen hname
    by_contra hlt
    rw [he] at hlt
    obtain ⟨w, hw⟩ := exists_other_row hlen hname (Nat.not_le.mp hlt)
    obtain ⟨fields, hentries, hnames, htwin⟩ := exists_replace he w
    have hg := hhidden ⟨fields, hnames ▸ f.nodup⟩ (htwin _ (by simp [Config.secret, hname]))
    rw [requestBody_eq, requestBody_eq, he] at hg
    apply hw
    rw [← hentries]
    exact Option.some.inj hg
  · intro hcovered g htwin
    have hagree : List.Forall₂ (AgreeOff (defaultConfig.secret u)) f.entries g.entries :=
      agreeOff_entriesOf htwin
    rw [requestBody_eq, requestBody_eq]
    apply congrArg some
    rcases exists_first_excluded u f.entries with
      hnone | ⟨front, name, v, rest, he, hlen, hfront, hname⟩
    · rw [bodyText_congr hagree hnone]
    · have hcap := hcovered front name v rest he hlen hname
      rw [he] at hagree hcap ⊢
      exact truncate_bodyText_congr hagree hlen hfront hname hcap

/-- A form with a password. -/
def passwordForm (password : String) : Form where
  fields := [("username".toList, ["ada".toList]), ("password".toList, [password.toList])]
  nodup := by
    simp only [List.map_cons, List.map_nil]
    decide

/-- Two forms that differ in the password leave different rows. -/
theorem excluded_field_leaks :
    ¬ ∀ (u : Casing) (loads : Str → Option Value) (decode : List UInt8 → Str) (maxLen : ℕ)
      (f g : Form), Twins (defaultConfig.secret u) f g →
        requestBody u defaultConfig loads decode maxLen f =
          requestBody u defaultConfig loads decode maxLen g := by
  intro halways
  have htwin : Twins (defaultConfig.secret Casing.basic) (passwordForm "hunter2")
      (passwordForm "letmein") := by
    have hlower : Casing.basic.lower ['p', 'a', 's', 's', 'w', 'o', 'r', 'd'] =
        ['p', 'a', 's', 's', 'w', 'o', 'r', 'd'] := by
      decide
    simp [Twins, TwinFields, passwordForm, Config.secret, Config.excludes, defaultConfig, hlower]
  have hrows := halways Casing.basic (fun _ => none) (fun _ => []) 4096 _ _ htwin
  exact absurd hrows (by decide +kernel)

end Sanitizers

end DjangoBoilerplate
