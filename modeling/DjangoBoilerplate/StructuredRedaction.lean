import DjangoBoilerplate.Sanitizers

/-!
# Redaction of structured bodies

Two values are **twins** if they are the same but for what is stored, at any depth,
under secret keys: those `SENSITIVE_PATTERN` matches, and those that are, in lower
case, among the excluded fields. `sanitize_for_log` treats twins alike, and so does
`serialize_body`, whether it is given the values or their JSON texts.

Which key counts as secret is a parameter of the relation; `Config.secret` is the
sanitiser's answer.
-/

namespace DjangoBoilerplate

namespace LogSanitization

/-- The same value, but for what is stored under secret keys. -/
inductive ValueTwins (secret : Str → Bool) : Value → Value → Prop where
  /-- the same -/
  | refl (v : Value) : ValueTwins secret v v
  /-- objects with the same keys in the same order -/
  | dict {items items' : List (Str × Value)} (hkeys : keysOf items = keysOf items')
      (hitems : ∀ p ∈ items.zip items', secret p.1.1 = false → ValueTwins secret p.1.2 p.2.2) :
    ValueTwins secret (.dict items) (.dict items')
  /-- arrays of the same length -/
  | seq {items items' : List Value} (hlen : items.length = items'.length)
      (hitems : ∀ p ∈ items.zip items', ValueTwins secret p.1 p.2) :
    ValueTwins secret (.seq items) (.seq items')

variable {secret : Str → Bool} {u : Casing} {cfg : Config}

/-- The objects' items, pair by pair. -/
theorem forall₂_of_keysOf {items items' : List (Str × Value)} {f : Value → Value}
    (hkeys : keysOf items = keysOf items')
    (hitems : ∀ p ∈ items.zip items', secret p.1.1 = false → f p.1.2 = f p.2.2) :
    List.Forall₂ (fun x y => AgreeOff secret (x.1, f x.2) (y.1, f y.2)) items items' := by
  induction items generalizing items' with
  | nil =>
    cases items' with
    | nil => exact .nil
    | cons y items' => cases hkeys
  | cons x items ih =>
    cases items' with
    | nil => cases hkeys
    | cons y items' =>
      obtain ⟨hkey, hkeys⟩ := List.cons.inj hkeys
      rw [List.zip_cons_cons] at hitems
      obtain ⟨hitem, hitems⟩ := List.forall_mem_cons.mp hitems
      exact .cons ⟨hkey, hitem⟩ (ih hkeys hitems)

/-- ValueTwins are sanitised alike, with any number of levels left. -/
theorem sanitizeValue_congr (maxStr maxKeys maxItems : ℕ) :
    ∀ (left : ℕ) {v v' : Value}, ValueTwins (cfg.secret u) v v' →
      sanitizeValue u cfg maxStr maxKeys maxItems left v =
        sanitizeValue u cfg maxStr maxKeys maxItems left v' := by
  intro left
  induction left with
  | zero =>
    intro v v' h
    rw [sanitizeValue, sanitizeValue]
  | succ left ih =>
    intro v v' h
    cases h with
    | refl => rfl
    | dict hkeys hitems =>
      rw [sanitizeValue, sanitizeValue]
      apply congrArg Value.dict
      apply sanitizeDictForLog_congr
      apply forall₂_of_keysOf hkeys
      intro p hp hpublic
      exact ih (hitems p hp hpublic)
    | seq hlen hitems =>
      rw [sanitizeValue, sanitizeValue]
      apply congrArg Value.seq
      apply sanitizeIterableForLog_congr
      rw [List.forall₂_iff_zip]
      refine ⟨hlen, ?_⟩
      intro x y hxy
      exact ih (hitems (x, y) hxy)

/-- ValueTwins are sanitised alike. -/
theorem sanitizeForLog_congr (henabled : cfg.sanitizeEnabled = true) {v v' : Value}
    (h : ValueTwins (cfg.secret u) v v') (maxStringLength maxDictKeys maxListItems : Option ℕ) :
    sanitizeForLog u cfg v maxStringLength maxDictKeys maxListItems =
      sanitizeForLog u cfg v' maxStringLength maxDictKeys maxListItems := by
  simp only [sanitizeForLog, henabled, if_true]
  exact sanitizeValue_congr _ _ _ _ h

end LogSanitization

namespace Sanitizers

open LogSanitization

variable {u : Casing} {cfg : Config} {loads : Str → Option Value} {decode : List UInt8 → Str}

/-- The ways `serialize_body` can be given a value: as it is, or, if it is an object
or an array, as a text or as bytes that `json.loads` parses to it. -/
inductive Presents (loads : Str → Option Value) (decode : List UInt8 → Str) (v : Value) :
    Value → Prop where
  /-- the value itself -/
  | value : Presents loads decode v v
  /-- a `str` -/
  | text (s : Str) (hv : v.isContainer = true) (hloads : loads s = some v) :
    Presents loads decode v (.str s)
  /-- `bytes` -/
  | bytes (b : List UInt8) (hv : v.isContainer = true) (hloads : loads (decode b) = some v) :
    Presents loads decode v (.bytes b)

/-- A text that parses to an object or an array stands for it. -/
theorem tryParseJson_of_loads {s : Str} {v : Value} (hv : v.isContainer = true)
    (hloads : loads s = some v) : tryParseJson loads s = v := by
  rw [tryParseJson, hloads]
  cases v with
  | dict items => rfl
  | seq items => rfl
  | _ => cases hv

/-- What `serialize_body` sanitises. -/
def structuredOf (loads : Str → Option Value) (decode : List UInt8 → Str) : Value → Value
  | .bytes b => tryParseJson loads (decode b)
  | .str s => tryParseJson loads s
  | v => v

/-- The string a sanitised value becomes. -/
def rendered (redacted : Value) (maxLen : ℕ) : Option Str :=
  match redacted with
  | .str text => some (truncate text maxLen)
  | redacted => (dumps redacted).map fun text => truncate text maxLen

/-- Apart from `None`, a body is parsed, sanitised and rendered. -/
theorem serializeBody_eq {w : Value} (hw : w ≠ .none) (maxLen : ℕ) :
    serializeBody u cfg loads decode w maxLen =
      rendered (sanitizeForLog u cfg (structuredOf loads decode w) (some maxLen) none none)
        maxLen := by
  cases w with
  | none => exact absurd rfl hw
  | _ => rfl

/-- However an object or an array is given, it is the value that is sanitised. -/
theorem structuredOf_presents {v w : Value} (hv : v.isContainer = true)
    (h : Presents loads decode v w) : structuredOf loads decode w = v := by
  cases h with
  | value =>
    cases v with
    | dict items => rfl
    | seq items => rfl
    | _ => cases hv
  | text s _ hloads => exact tryParseJson_of_loads hv hloads
  | bytes b _ hloads => exact tryParseJson_of_loads hv hloads

/-- What presents an object or an array is not `None`. -/
theorem ne_none_of_presents {v w : Value} (hv : v ≠ .none) (h : Presents loads decode v w) :
    w ≠ .none := by
  cases h with
  | value => exact hv
  | text s _ _ => simp
  | bytes b _ _ => simp

/-- A sanitised value is always rendered. -/
theorem rendered_sanitizeForLog (henabled : cfg.sanitizeEnabled = true) (v : Value)
    (maxLen : ℕ) :
    (rendered (sanitizeForLog u cfg v (some maxLen) none none) maxLen).isSome = true := by
  have hencodable :
      (sanitizeForLog u cfg v (some maxLen) none none).encodable = true := by
    simp only [sanitizeForLog, henabled, if_true]
    exact sanitizeValue_encodable u cfg _ _ _ _ v
  generalize sanitizeForLog u cfg v (some maxLen) none none = redacted at hencodable
  cases redacted <;> simp [rendered, dumps, hencodable]

/-- ValueTwins, each given as a value, a text or bytes, become the same string. -/
theorem serializeBody_congr (henabled : cfg.sanitizeEnabled = true) {v v' w w' : Value}
    (h : ValueTwins (cfg.secret u) v v') (hw : Presents loads decode v w)
    (hw' : Presents loads decode v' w') (maxLen : ℕ) :
    serializeBody u cfg loads decode w maxLen = serializeBody u cfg loads decode w' maxLen := by
  have hcontainers : v.isContainer = true → v'.isContainer = true →
      serializeBody u cfg loads decode w maxLen =
        serializeBody u cfg loads decode w' maxLen := by
    intro hv hv'
    have hne : v ≠ .none := by
      rintro rfl
      cases hv
    have hne' : v' ≠ .none := by
      rintro rfl
      cases hv'
    rw [serializeBody_eq (ne_none_of_presents hne hw), structuredOf_presents hv hw,
      serializeBody_eq (ne_none_of_presents hne' hw'), structuredOf_presents hv' hw',
      sanitizeForLog_congr henabled h]
  cases h with
  | refl =>
    cases hv : v.isContainer with
    | true => exact hcontainers hv hv
    | false =>
      -- a scalar is only ever given as it is
      cases hw with
      | value =>
        cases hw' with
        | value => rfl
        | text s hv' _ => exact absurd (hv.symm.trans hv') (by simp)
        | bytes b hv' _ => exact absurd (hv.symm.trans hv') (by simp)
      | text s hv' _ => exact absurd (hv.symm.trans hv') (by simp)
      | bytes b hv' _ => exact absurd (hv.symm.trans hv') (by simp)
  | dict hkeys hitems => exact hcontainers rfl rfl
  | seq hlen hitems => exact hcontainers rfl rfl

/-- **Redaction of structured bodies is non-interfering**: twins are sanitised to the
same value and rendered as the same string, whatever the pattern, the excluded
fields, the mask and the caps, and however each of the two is given. -/
theorem redaction_noninterference (henabled : cfg.sanitizeEnabled = true) {v v' : Value}
    (h : ValueTwins (cfg.secret u) v v') :
    (∀ maxStringLength maxDictKeys maxListItems : Option ℕ,
      sanitizeForLog u cfg v maxStringLength maxDictKeys maxListItems =
        sanitizeForLog u cfg v' maxStringLength maxDictKeys maxListItems) ∧
    ∀ (loads : Str → Option Value) (decode : List UInt8 → Str) (maxLen : ℕ) (w w' : Value),
      Presents loads decode v w → Presents loads decode v' w' →
      serializeBody u cfg loads decode w maxLen = serializeBody u cfg loads decode w' maxLen ∧
        (v ≠ .none → (serializeBody u cfg loads decode w maxLen).isSome = true) := by
  refine ⟨sanitizeForLog_congr henabled h, ?_⟩
  intro loads decode maxLen w w' hw hw'
  refine ⟨serializeBody_congr henabled h hw hw' maxLen, ?_⟩
  intro hv
  rw [serializeBody_eq (ne_none_of_presents hv hw)]
  exact rendered_sanitizeForLog henabled _ _

/-- A list of accounts, with this password in one of them. -/
def accounts (password : Str) : Value :=
  .seq [.dict [("name".toList, .str "ada".toList), ("Password".toList, .str password)],
    .dict [("api_key_id".toList, .dict [("id".toList, .str password)])]]

/-- Its JSON text. -/
def accountsText (password : Str) : Str :=
  "[\x7b\x22name\x22: \x22ada\x22, \x22Password\x22: \x22".toList ++ password ++
    "\x22\x7d, \x7b\x22api_key_id\x22: \x7b\x22id\x22: \x22".toList ++ password ++
    "\x22\x7d\x7d]".toList

/-- What is left of it. -/
def accountsRow : Str :=
  "[\x7b\x22name\x22: \x22ada\x22\x7d, ".toList ++
    "\x7b\x22api_key_id\x22: \x22***REDACTED***\x22\x7d]".toList

/-- `json.loads`, on the texts of the two lists. -/
def loadsAccounts (s : Str) : Option Value :=
  if s = accountsText "hunter2".toList then some (accounts "hunter2".toList)
  else if s = accountsText "swordfish".toList then some (accounts "swordfish".toList)
  else none

/-- The lists are twins under the default settings. -/
theorem twins_accounts (p q : Str) :
    ValueTwins (defaultConfig.secret Casing.basic) (accounts p) (accounts q) := by
  refine ValueTwins.seq (by rfl) ?_
  simp only [List.zip_cons_cons, List.zip_nil_right, List.forall_mem_cons]
  refine ⟨ValueTwins.dict (by rfl) ?_, ValueTwins.dict (by rfl) ?_, by simp⟩
  · simp only [List.zip_cons_cons, List.zip_nil_right, List.forall_mem_cons]
    refine ⟨fun _ => .refl _, ?_, by simp⟩
    intro hpublic
    exact absurd hpublic (by decide)
  · simp only [List.zip_cons_cons, List.zip_nil_right, List.forall_mem_cons]
    refine ⟨?_, by simp⟩
    intro hpublic
    exact absurd hpublic (by decide)

/-- Two such lists, one given as a text, the other as a value. -/
theorem accounts_redacted :
    serializeBody Casing.basic defaultConfig loadsAccounts (fun _ => [])
        (.str (accountsText "hunter2".toList)) 4096 = some accountsRow ∧
    serializeBody Casing.basic defaultConfig loadsAccounts (fun _ => [])
        (.str (accountsText "hunter2".toList)) 4096 =
      serializeBody Casing.basic defaultConfig loadsAccounts (fun _ => [])
        (accounts "swordfish".toList) 4096 := by
  have htext :
      loadsAccounts (accountsText "hunter2".toList) = some (accounts "hunter2".toList) := by
    rw [loadsAccounts, if_pos rfl]
  have hsame := ((redaction_noninterference rfl (twins_accounts "hunter2".toList
    "swordfish".toList)).2 loadsAccounts (fun _ => []) 4096 _ _ (.text _ rfl htext) .value).1
  refine ⟨?_, hsame⟩
  rw [hsame]
  decide +kernel

end Sanitizers

end DjangoBoilerplate
