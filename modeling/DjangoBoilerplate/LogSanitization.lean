import DjangoBoilerplate.Json

/-!
# Log sanitisation

`apps/core/utils/log_sanitization.py`: values on their way into a log line or an
audit row have their control characters escaped, long strings, dictionaries and
lists cut short, sensitive keys masked and excluded keys dropped.

The recursion of `_sanitize_value` is bounded by its depth, so the model recurses
on the levels that are left. `LOG_SANITIZATION` is a record of settings, with the
values `config/settings/base.py` gives it by default.
-/

namespace DjangoBoilerplate

namespace LogSanitization

/-- `LOG_SANITIZATION`. -/
structure Config : Type where
  /-- `SANITIZE_ENABLED` -/
  sanitizeEnabled : Bool
  /-- `MAX_STRING_LENGTH` -/
  maxStringLength : ℕ
  /-- `MAX_DICT_KEYS` -/
  maxDictKeys : ℕ
  /-- `MAX_LIST_ITEMS` -/
  maxListItems : ℕ
  /-- `SENSITIVE_PATTERN`: does it match somewhere in the key? -/
  sensitivePattern : Str → Bool
  /-- `MASK_VALUE` -/
  maskValue : Str
  /-- `EXCLUDED_FIELDS` -/
  excludedFields : List Str

/-- The alternatives of `_BASE_MASK_PATTERN`. -/
def baseMaskPattern : List Str :=
  ["password", "passwd", "secret", "token", "key", "auth", "credential", "api_key", "apikey",
    "private", "session", "cookie", "bearer", "jwt", "access_token", "refresh_token"].map
      String.toList

/-- `LOG_SANITIZATION` of `config/settings/base.py`, with no environment variable
set. -/
def defaultConfig : Config where
  sanitizeEnabled := true
  maxStringLength := 200
  maxDictKeys := 20
  maxListItems := 10
  sensitivePattern := searchIgnoreCase baseMaskPattern
  maskValue := "***REDACTED***".toList
  excludedFields :=
    ["password", "secret_ref", "api_key", "private_key", "access_token"].map String.toList

/-! ## Strings -/

/-- The escaping of `_sanitize_string_for_log`. -/
def escapeString (value : Str) : Str :=
  let sanitized := value.replaceChar '\\' "\\\\".toList
  let sanitized := sanitized.replaceChar '\n' "\\n".toList
  let sanitized := sanitized.replaceChar '\r' "\\r".toList
  let sanitized := sanitized.replaceChar '\t' "\\t".toList
  sanitized.flatMap fun c => if 32 ≤ c.toNat then [c] else "\\x".toList ++ hex 2 c.toNat

/-- `_sanitize_string_for_log(value, max_length)`. -/
def sanitizeStringForLog (value : Str) (maxLength : ℕ) : Str :=
  let sanitized := escapeString value
  if maxLength < sanitized.length then
    let half : ℤ := ((maxLength : ℤ) - 20) / 2
    sanitized.sliceTo half ++ "...".toList ++ sanitized.sliceFrom (-half) ++
      (" (".toList ++ decimal value.length ++ " chars)".toList)
  else sanitized

/-! ## Containers -/

/-- The key of the notice that entries were left out. -/
def truncatedKey : Str := "__truncated__".toList

variable (u : Casing) (cfg : Config)

/-- `lower_key in excluded_fields`. -/
def Config.excludes (key : Str) : Bool :=
  cfg.excludedFields.contains (u.lower key)

/-- One turn of the loop of `_sanitize_dict_for_log`. -/
def sanitizeItem (sanitize : Value → Value) (result : List (Str × Value)) (item : Str × Value) :
    List (Str × Value) :=
  if cfg.excludes u item.1 then result
  else if cfg.sensitivePattern item.1 then setItem result item.1 (.str cfg.maskValue)
  else setItem result item.1 (sanitize item.2)

/-- `_sanitize_dict_for_log`, given the function for the values. -/
def sanitizeDictForLog (sanitize : Value → Value) (maxKeys : ℕ) (items : List (Str × Value)) :
    List (Str × Value) :=
  let result := (items.take maxKeys).foldl (sanitizeItem u cfg sanitize) []
  if maxKeys < items.length then
    setItem result truncatedKey
      (.str (decimal (items.length - maxKeys) ++ " more keys".toList))
  else result

/-- `_sanitize_iterable_for_log`, given the function for the elements. -/
def sanitizeIterableForLog (sanitize : Value → Value) (maxItems : ℕ) (items : List Value) :
    List Value :=
  let result := (items.take maxItems).map sanitize
  if maxItems < items.length then
    result ++ [.str ("...and ".toList ++ decimal (items.length - maxItems) ++
      " more items".toList)]
  else result

/-! ## Values -/

/-- `_sanitize_value` with this many levels left: `max_depth + 1 - depth`. -/
def sanitizeValue (maxStr maxKeys maxItems : ℕ) : ℕ → Value → Value
  | 0, _ => .str "<max depth exceeded>".toList
  | left + 1, value =>
    match value with
    | .none => .none
    | .bool b => .bool b
    | .int n => .int n
    | .float t => .float t
    | .str s => .str (sanitizeStringForLog s maxStr)
    | .bytes b => .str ("<bytes: ".toList ++ decimal b.length ++ " bytes>".toList)
    | .dict items =>
      .dict (sanitizeDictForLog u cfg (sanitizeValue maxStr maxKeys maxItems left) maxKeys items)
    | .seq items =>
      .seq (sanitizeIterableForLog (sanitizeValue maxStr maxKeys maxItems left) maxItems items)
    | .other typeName text =>
      match text with
      | some s => .str (sanitizeStringForLog s maxStr)
      | Option.none => .str (['<'] ++ typeName ++ ": unserializable>".toList)

/-- `max_depth` -/
def maxDepth : ℕ := 5

/-- `given or config[...]`: zero counts as not given. -/
def orDefault (given : Option ℕ) (default : ℕ) : ℕ :=
  match given with
  | some (n + 1) => n + 1
  | _ => default

/-- `sanitize_for_log(value, max_string_length, max_dict_keys, max_list_items)`. -/
def sanitizeForLog (value : Value) (maxStringLength maxDictKeys maxListItems : Option ℕ) :
    Value :=
  if cfg.sanitizeEnabled then
    sanitizeValue u cfg (orDefault maxStringLength cfg.maxStringLength)
      (orDefault maxDictKeys cfg.maxDictKeys) (orDefault maxListItems cfg.maxListItems)
      (maxDepth + 1) value
  else value

/-- A sensitive key is masked, an excluded one dropped, the rest escaped. -/
example :
    dumps (sanitizeForLog Casing.basic defaultConfig (.dict
      [("Password".toList, .str "hunter2".toList), ("auth_header".toList, .int 7),
        ("note".toList, .str "a\nb".toList)]) none none none) =
      some ("\x7b\x22auth_header\x22: \x22***REDACTED***\x22, ".toList ++
        "\x22note\x22: \x22a\\\\nb\x22\x7d".toList) := by
  decide

/-! ## What the sanitiser keeps of a dictionary -/

/-- A key whose value is a secret: it is dropped or masked. -/
def Config.secret (key : Str) : Bool :=
  cfg.excludes u key || cfg.sensitivePattern key

/-- Two items that differ at most in a secret. -/
def AgreeOff {α : Type} (secret : Str → Bool) (x y : Str × α) : Prop :=
  x.1 = y.1 ∧ (secret x.1 = false → x.2 = y.2)

/-- Items that agree still do once their values are mapped. -/
theorem AgreeOff.map {α β : Type} {secret : Str → Bool} {x y : Str × α}
    (h : AgreeOff secret x y) (f : α → β) : AgreeOff secret (x.1, f x.2) (y.1, f y.2) := by
  obtain ⟨hkey, hvalue⟩ := h
  refine ⟨hkey, ?_⟩
  intro hpublic
  exact congrArg f (hvalue hpublic)

variable {u cfg} {sanitize : Value → Value}

/-- A secret leaves no trace in the result. -/
theorem sanitizeItem_congr {x y : Str × Value}
    (h : AgreeOff (cfg.secret u) (x.1, sanitize x.2) (y.1, sanitize y.2))
    (result : List (Str × Value)) :
    sanitizeItem u cfg sanitize result x = sanitizeItem u cfg sanitize result y := by
  obtain ⟨hkey, hvalue⟩ := h
  simp only at hkey hvalue
  simp only [sanitizeItem]
  rw [← hkey]
  split
  · rfl
  · next hexcluded =>
    split
    · rfl
    · next hsensitive =>
      rw [hvalue]
      simp only [Config.secret, Bool.or_eq_false_iff]
      exact ⟨by simpa using hexcluded, by simpa using hsensitive⟩

/-- Dictionaries whose public values are sanitised alike are sanitised to the same
result. -/
theorem sanitizeDictForLog_congr {maxKeys : ℕ} {items items' : List (Str × Value)}
    (h : List.Forall₂
      (fun x y => AgreeOff (cfg.secret u) (x.1, sanitize x.2) (y.1, sanitize y.2)) items items') :
    sanitizeDictForLog u cfg sanitize maxKeys items =
      sanitizeDictForLog u cfg sanitize maxKeys items' := by
  have hfold : ∀ {l l' : List (Str × Value)} (result : List (Str × Value)),
      List.Forall₂
        (fun x y => AgreeOff (cfg.secret u) (x.1, sanitize x.2) (y.1, sanitize y.2)) l l' →
      l.foldl (sanitizeItem u cfg sanitize) result =
        l'.foldl (sanitizeItem u cfg sanitize) result := by
    intro l l' result hl
    induction hl generalizing result with
    | nil => rfl
    | cons hxy _ ih =>
      rw [List.foldl_cons, List.foldl_cons, sanitizeItem_congr hxy]
      exact ih _
  simp only [sanitizeDictForLog]
  rw [hfold [] (List.forall₂_take maxKeys h), h.length_eq]

/-- Lists whose elements are sanitised alike, too. -/
theorem sanitizeIterableForLog_congr {maxItems : ℕ} {items items' : List Value}
    (h : List.Forall₂ (fun x y => sanitize x = sanitize y) items items') :
    sanitizeIterableForLog sanitize maxItems items =
      sanitizeIterableForLog sanitize maxItems items' := by
  have hmap : (items.take maxItems).map sanitize = (items'.take maxItems).map sanitize := by
    rw [← List.forall₂_eq_eq_eq, List.forall₂_map_left_iff, List.forall₂_map_right_iff]
    exact List.forall₂_take maxItems h
  simp only [sanitizeIterableForLog]
  rw [hmap, h.length_eq]

/-- The keys the loop produces: those that are not excluded. -/
theorem mem_keysOf_foldl {l : List (Str × Value)} {result : List (Str × Value)} {k : Str} :
    k ∈ keysOf (l.foldl (sanitizeItem u cfg sanitize) result) ↔
      k ∈ keysOf result ∨ (k ∈ keysOf l ∧ cfg.excludes u k = false) := by
  induction l generalizing result with
  | nil => simp [keysOf]
  | cons x l ih =>
    rw [List.foldl_cons, ih]
    have hitem : k ∈ keysOf (sanitizeItem u cfg sanitize result x) ↔
        k ∈ keysOf result ∨ (k = x.1 ∧ cfg.excludes u k = false) := by
      unfold sanitizeItem
      rcases hexcluded : cfg.excludes u x.1 with _ | _
      · have hkey : k = x.1 ∧ cfg.excludes u k = false ↔ k = x.1 := by
          refine ⟨?_, ?_⟩
          · exact And.left
          · rintro rfl
            exact ⟨rfl, hexcluded⟩
        rw [hkey, or_comm]
        simp only [Bool.false_eq_true, if_false]
        split <;> exact mem_keysOf_setItem
      · simp only [if_true, iff_self_or]
        rintro ⟨rfl, hfalse⟩
        rw [hexcluded] at hfalse
        cases hfalse
    rw [hitem]
    simp only [keysOf, List.map_cons, List.mem_cons]
    tauto

/-- The result is what the loop leaves, with a notice if there were more keys. -/
theorem sanitizeDictForLog_cases (u : Casing) (cfg : Config) (sanitize : Value → Value)
    (maxKeys : ℕ) (items : List (Str × Value)) :
    sanitizeDictForLog u cfg sanitize maxKeys items =
        (items.take maxKeys).foldl (sanitizeItem u cfg sanitize) [] ∨
      ∃ notice, sanitizeDictForLog u cfg sanitize maxKeys items =
        setItem ((items.take maxKeys).foldl (sanitizeItem u cfg sanitize) []) truncatedKey
          (.str notice) := by
  simp only [sanitizeDictForLog]
  split
  · exact Or.inr ⟨_, rfl⟩
  · exact Or.inl rfl

/-- An excluded key is not in the result, -/
theorem not_mem_sanitizeDictForLog {maxKeys : ℕ} {items : List (Str × Value)} {k : Str}
    (hk : cfg.excludes u k = true) (hnotice : cfg.excludes u truncatedKey = false) :
    k ∉ keysOf (sanitizeDictForLog u cfg sanitize maxKeys items) := by
  have hresult : k ∉ keysOf ((items.take maxKeys).foldl (sanitizeItem u cfg sanitize) []) := by
    rw [mem_keysOf_foldl, hk]
    simp [keysOf]
  rcases sanitizeDictForLog_cases u cfg sanitize maxKeys items with heq | ⟨notice, heq⟩
  · rw [heq]
    exact hresult
  · rw [heq, mem_keysOf_setItem]
    rintro (rfl | h)
    · rw [hk] at hnotice
      cases hnotice
    · exact hresult h

/-- and the others among the first keys are. -/
theorem mem_sanitizeDictForLog {maxKeys : ℕ} {items : List (Str × Value)} {k : Str}
    (hmem : k ∈ keysOf (items.take maxKeys)) (hk : cfg.excludes u k = false) :
    k ∈ keysOf (sanitizeDictForLog u cfg sanitize maxKeys items) := by
  have hresult : k ∈ keysOf ((items.take maxKeys).foldl (sanitizeItem u cfg sanitize) []) :=
    mem_keysOf_foldl.mpr (Or.inr ⟨hmem, hk⟩)
  rcases sanitizeDictForLog_cases u cfg sanitize maxKeys items with heq | ⟨notice, heq⟩
  · rw [heq]
    exact hresult
  · rw [heq, mem_keysOf_setItem]
    exact Or.inr hresult

/-- What becomes of the value under a key: nothing if the key is excluded. -/
def redactValue (u : Casing) (cfg : Config) (sanitize : Value → Value) (key : Str) (v : Value) :
    Option Value :=
  if cfg.excludes u key then none
  else if cfg.sensitivePattern key then some (.str cfg.maskValue)
  else some (sanitize v)

theorem getItem_sanitizeItem (result : List (Str × Value)) (item : Str × Value) (k : Str) :
    getItem (sanitizeItem u cfg sanitize result item) k =
      if k = item.1 then (redactValue u cfg sanitize k item.2).or (getItem result k)
      else getItem result k := by
  unfold sanitizeItem redactValue
  rcases eq_or_ne k item.1 with rfl | hne
  · rw [if_pos rfl]
    split
    · rfl
    · split <;> simp [getItem_setItem]
  · rw [if_neg hne]
    split
    · rfl
    · split <;> simp [getItem_setItem, hne]

/-- What the loop leaves under a key. -/
theorem getItem_foldl_sanitizeItem {l : List (Str × Value)} (hnodup : (keysOf l).Nodup)
    (result : List (Str × Value)) (k : Str) :
    getItem (l.foldl (sanitizeItem u cfg sanitize) result) k =
      ((getItem l k).bind (redactValue u cfg sanitize k)).or (getItem result k) := by
  induction l generalizing result with
  | nil => simp [getItem]
  | cons item l ih =>
    obtain ⟨key, v⟩ := item
    obtain ⟨hkey, hnodup⟩ := List.nodup_cons.mp hnodup
    rw [List.foldl_cons, ih hnodup, getItem_sanitizeItem]
    rcases eq_or_ne k key with rfl | hne
    · -- the key does not come again
      simp [getItem_of_not_mem hkey, getItem_cons_self]
    · rw [if_neg hne, getItem_cons_of_ne hne]

/-- What the sanitised dictionary has under a key: the notice, or what becomes of the value
if the key is among the first. -/
theorem getItem_sanitizeDictForLog {items : List (Str × Value)} (hnodup : (keysOf items).Nodup)
    (maxKeys : ℕ) (k : Str) :
    getItem (sanitizeDictForLog u cfg sanitize maxKeys items) k =
      if maxKeys < items.length ∧ k = truncatedKey then
        some (.str (decimal (items.length - maxKeys) ++ " more keys".toList))
      else if k ∈ keysOf (items.take maxKeys) then
        (getItem items k).bind (redactValue u cfg sanitize k)
      else none := by
  have htake : (keysOf (items.take maxKeys)).Nodup := by
    unfold keysOf at hnodup ⊢
    rw [List.map_take]
    exact hnodup.sublist (List.take_sublist _ _)
  have hloop : getItem ((items.take maxKeys).foldl (sanitizeItem u cfg sanitize) []) k =
      if k ∈ keysOf (items.take maxKeys) then
        (getItem items k).bind (redactValue u cfg sanitize k)
      else none := by
    rw [getItem_foldl_sanitizeItem htake, getItem_take]
    split
    · simp [getItem]
    · rfl
  simp only [sanitizeDictForLog]
  rcases lt_or_ge maxKeys items.length with hmore | hall
  · rw [if_pos hmore, getItem_setItem, hloop]
    simp only [hmore, true_and]
  · rw [if_neg hall.not_gt, hloop]
    simp only [hall.not_gt, false_and, if_false]

/-! ## Sanitised values can be encoded -/

/-- What the sanitised dictionary holds: texts of its own, and sanitised values. -/
theorem value_of_mem_sanitizeDictForLog {maxKeys : ℕ} {items : List (Str × Value)}
    {x : Str × Value} (hx : x ∈ sanitizeDictForLog u cfg sanitize maxKeys items) :
    (∃ s, x.2 = .str s) ∨ ∃ y ∈ items, x.2 = sanitize y.2 := by
  have hfold : ∀ (l result : List (Str × Value)),
      x ∈ l.foldl (sanitizeItem u cfg sanitize) result →
        x ∈ result ∨ (∃ s, x.2 = .str s) ∨ ∃ y ∈ l, x.2 = sanitize y.2 := by
    intro l
    induction l with
    | nil => exact fun _ h => Or.inl h
    | cons y l ih =>
      intro result h
      rcases ih _ h with h | h | ⟨z, hz, heq⟩
      · simp only [sanitizeItem] at h
        split at h
        · exact Or.inl h
        · split at h
          · rcases mem_setItem h with rfl | h
            · exact Or.inr (Or.inl ⟨_, rfl⟩)
            · exact Or.inl h
          · rcases mem_setItem h with rfl | h
            · exact Or.inr (Or.inr ⟨y, List.mem_cons_self, rfl⟩)
            · exact Or.inl h
      · exact Or.inr (Or.inl h)
      · exact Or.inr (Or.inr ⟨z, List.mem_cons_of_mem _ hz, heq⟩)
  have hloop : x ∈ (items.take maxKeys).foldl (sanitizeItem u cfg sanitize) [] →
      (∃ s, x.2 = .str s) ∨ ∃ y ∈ items, x.2 = sanitize y.2 := by
    intro h
    rcases hfold _ _ h with h | h | ⟨y, hy, heq⟩
    · cases h
    · exact Or.inl h
    · exact Or.inr ⟨y, List.mem_of_mem_take hy, heq⟩
  rcases sanitizeDictForLog_cases u cfg sanitize maxKeys items with heq | ⟨notice, heq⟩
  · rw [heq] at hx
    exact hloop hx
  · rw [heq] at hx
    rcases mem_setItem hx with rfl | hx
    · exact Or.inl ⟨notice, rfl⟩
    · exact hloop hx

/-- And the sanitised list. -/
theorem mem_sanitizeIterableForLog {maxItems : ℕ} {items : List Value} {v : Value}
    (hv : v ∈ sanitizeIterableForLog sanitize maxItems items) :
    (∃ s, v = .str s) ∨ ∃ w ∈ items, v = sanitize w := by
  have hmap : v ∈ (items.take maxItems).map sanitize → ∃ w ∈ items, v = sanitize w := by
    intro h
    obtain ⟨w, hw, rfl⟩ := List.mem_map.mp h
    exact ⟨w, List.mem_of_mem_take hw, rfl⟩
  simp only [sanitizeIterableForLog] at hv
  split at hv
  · rcases List.mem_append.mp hv with hv | hv
    · exact Or.inr (hmap hv)
    · exact Or.inl ⟨_, List.mem_singleton.mp hv⟩
  · exact Or.inr (hmap hv)

/-- `json.dumps` never raises on a sanitised value. -/
theorem sanitizeValue_encodable (u : Casing) (cfg : Config) (maxStr maxKeys maxItems : ℕ) :
    ∀ (left : ℕ) (v : Value),
      (sanitizeValue u cfg maxStr maxKeys maxItems left v).encodable = true := by
  intro left
  induction left with
  | zero => exact fun _ => rfl
  | succ left ih =>
    intro v
    cases v with
    | none => rfl
    | bool b => rfl
    | int n => rfl
    | float t => rfl
    | str s => rfl
    | bytes b => rfl
    | dict items =>
      rw [sanitizeValue, Value.encodable, Value.itemsEncodable_iff]
      intro x hx
      rcases value_of_mem_sanitizeDictForLog hx with ⟨s, hs⟩ | ⟨y, -, hy⟩
      · rw [hs]
        rfl
      · rw [hy]
        exact ih y.2
    | seq items =>
      rw [sanitizeValue, Value.encodable, Value.seqEncodable_iff]
      intro v hv
      rcases mem_sanitizeIterableForLog hv with ⟨s, rfl⟩ | ⟨w, -, rfl⟩
      · rfl
      · exact ih w
    | other typeName text => cases text <;> rfl

end LogSanitization

end DjangoBoilerplate
