import DjangoBoilerplate.LogEscaping

/-!
# Log injection

What `sanitize_for_log` returns is written to a log, so a control character in any string of
it can forge a log line. Values go through the escaper, and so do the texts of objects. The
keys of a dictionary do not, nor does the name of the type of an object whose `str()` raises:
`log_lines_safe_iff` says that these are the only ways in.
-/

namespace DjangoBoilerplate

/-! ## Strings of a value -/

mutual

/-- The strings anywhere in a value: the values that are strings, and the keys. -/
def Value.strings : Value → List Str
  | .str s => [s]
  | .dict items => Value.itemsStrings items
  | .seq items => Value.seqStrings items
  | _ => []

/-- For the items of a dictionary. -/
def Value.itemsStrings : List (Str × Value) → List Str
  | [] => []
  | (k, v) :: rest => k :: (v.strings ++ Value.itemsStrings rest)

/-- For the elements of a list. -/
def Value.seqStrings : List Value → List Str
  | [] => []
  | v :: rest => v.strings ++ Value.seqStrings rest

end

theorem Value.forall_strings_dict {P : Str → Prop} {items : List (Str × Value)} :
    (∀ s ∈ (Value.dict items).strings, P s) ↔ ∀ x ∈ items, P x.1 ∧ ∀ s ∈ x.2.strings, P s := by
  rw [Value.strings]
  induction items with
  | nil => simp [Value.itemsStrings]
  | cons item items ih =>
    simp only [Value.itemsStrings, List.forall_mem_cons, List.forall_mem_append, ih, and_assoc]

theorem Value.forall_strings_seq {P : Str → Prop} {items : List Value} :
    (∀ s ∈ (Value.seq items).strings, P s) ↔ ∀ v ∈ items, ∀ s ∈ v.strings, P s := by
  rw [Value.strings]
  induction items with
  | nil => simp [Value.seqStrings]
  | cons v items ih =>
    simp only [Value.seqStrings, List.forall_mem_cons, List.forall_mem_append, ih]

theorem Value.forall_strings_str {P : Str → Prop} {s : Str} :
    (∀ t ∈ (Value.str s).strings, P t) ↔ P s := by
  simp [Value.strings]

/-- A value whose dictionaries have every key once. -/
inductive Value.Proper : Value → Prop where
  /-- a value without parts -/
  | leaf {v : Value} (hv : v.isContainer = false) : Value.Proper v
  /-- a dictionary -/
  | dict {items : List (Str × Value)} (hnodup : (keysOf items).Nodup)
    (hitems : ∀ x ∈ items, Value.Proper x.2) : Value.Proper (.dict items)
  /-- a list -/
  | seq {items : List Value} (hitems : ∀ v ∈ items, Value.Proper v) : Value.Proper (.seq items)

namespace LogSanitization

variable {u : Casing} {cfg : Config} {sanitize : Value → Value}

/-! ## Strings of a sanitised dictionary -/

theorem nodup_foldl_sanitizeItem {l result : List (Str × Value)}
    (h : (keysOf result).Nodup) :
    (keysOf (l.foldl (sanitizeItem u cfg sanitize) result)).Nodup := by
  induction l generalizing result with
  | nil => exact h
  | cons item l ih =>
    apply ih
    unfold sanitizeItem
    split
    · exact h
    · split <;> exact nodup_setItem h _ _

theorem nodup_sanitizeDictForLog (maxKeys : ℕ) (items : List (Str × Value)) :
    (keysOf (sanitizeDictForLog u cfg sanitize maxKeys items)).Nodup := by
  have hloop : (keysOf ((items.take maxKeys).foldl (sanitizeItem u cfg sanitize) [])).Nodup :=
    nodup_foldl_sanitizeItem List.nodup_nil
  rcases sanitizeDictForLog_cases u cfg sanitize maxKeys items with heq | ⟨notice, heq⟩
  · rw [heq]
    exact hloop
  · rw [heq]
    exact nodup_setItem hloop _ _

/-- An item of the sanitised dictionary: the notice, or what becomes of one of the first
items. -/
theorem mem_sanitizeDictForLog_iff {items : List (Str × Value)} (hnodup : (keysOf items).Nodup)
    {maxKeys : ℕ} {x : Str × Value} :
    x ∈ sanitizeDictForLog u cfg sanitize maxKeys items ↔
      (maxKeys < items.length ∧ x.1 = truncatedKey ∧
        x.2 = .str (decimal (items.length - maxKeys) ++ " more keys".toList)) ∨
      (¬ (maxKeys < items.length ∧ x.1 = truncatedKey) ∧
        ∃ y ∈ items.take maxKeys, y.1 = x.1 ∧ redactValue u cfg sanitize x.1 y.2 = some x.2) := by
  rw [mem_iff_getItem (nodup_sanitizeDictForLog maxKeys items), getItem_sanitizeDictForLog hnodup]
  by_cases hnotice : maxKeys < items.length ∧ x.1 = truncatedKey
  · rw [if_pos hnotice]
    simp only [hnotice, true_and, not_true_eq_false, false_and, or_false, Option.some.injEq]
    exact eq_comm
  · rw [if_neg hnotice]
    have hleft : ¬ (maxKeys < items.length ∧ x.1 = truncatedKey ∧
        x.2 = .str (decimal (items.length - maxKeys) ++ " more keys".toList)) :=
      fun h => hnotice ⟨h.1, h.2.1⟩
    rw [or_iff_right hleft, and_iff_right hnotice]
    refine ⟨?_, ?_⟩
    · intro h
      split at h
      · next hmem =>
        obtain ⟨v, hv, hredact⟩ := Option.bind_eq_some_iff.mp h
        have hfirst : getItem (items.take maxKeys) x.1 = some v := by
          rw [getItem_take, if_pos hmem]
          exact hv
        exact ⟨(x.1, v), mem_of_getItem hfirst, rfl, hredact⟩
      · cases h
    · rintro ⟨⟨k, v⟩, hy, rfl, hredact⟩
      have hmem : x.1 ∈ keysOf (items.take maxKeys) := List.mem_map.mpr ⟨_, hy, rfl⟩
      rw [if_pos hmem, getItem_of_mem hnodup (List.mem_of_mem_take hy)]
      exact hredact

/-! ## Safe values -/

/-- No string anywhere in the value has a control character. -/
def LineSafe (v : Value) : Prop := ∀ s ∈ v.strings, ControlFree s

theorem lineSafe_str {s : Str} : LineSafe (.str s) ↔ ControlFree s := Value.forall_strings_str

/-- A value that has nothing unescaped where it is read, with this many levels left: of the
first keys those that are not excluded, and the names of types that stand for their object.
A masked value is not read, nor is one whose place the notice takes. -/
def PlainKeys (u : Casing) (cfg : Config) (maxKeys maxItems : ℕ) : ℕ → Value → Prop
  | 0, _ => True
  | left + 1, .dict items =>
    ∀ x ∈ items.take maxKeys, cfg.excludes u x.1 = false →
      ControlFree x.1 ∧
        (cfg.sensitivePattern x.1 = false →
          ¬ (maxKeys < items.length ∧ x.1 = truncatedKey) →
          PlainKeys u cfg maxKeys maxItems left x.2)
  | left + 1, .seq items => ∀ v ∈ items.take maxItems, PlainKeys u cfg maxKeys maxItems left v
  | _ + 1, .other typeName none => ControlFree typeName
  | _ + 1, _ => True

theorem lineSafe_redactValue (hmask : ControlFree cfg.maskValue) {k : Str} {v : Value}
    (hk : cfg.excludes u k = false) :
    (∀ w, redactValue u cfg sanitize k v = some w → LineSafe w) ↔
      (cfg.sensitivePattern k = false → LineSafe (sanitize v)) := by
  rw [redactValue, hk]
  rcases hsensitive : cfg.sensitivePattern k with _ | _
  · simp
  · simp [lineSafe_str, hmask]

/-- The sanitised dictionary is safe if its keys are and what they stand for. -/
theorem lineSafe_sanitizeDictForLog (hmask : ControlFree cfg.maskValue)
    {items : List (Str × Value)} (hnodup : (keysOf items).Nodup) (maxKeys : ℕ) :
    LineSafe (.dict (sanitizeDictForLog u cfg sanitize maxKeys items)) ↔
      ∀ x ∈ items.take maxKeys, cfg.excludes u x.1 = false →
        ControlFree x.1 ∧
          (cfg.sensitivePattern x.1 = false →
            ¬ (maxKeys < items.length ∧ x.1 = truncatedKey) → LineSafe (sanitize x.2)) := by
  have hmore : ControlFree " more keys".toList := by decide
  have hkey : ControlFree truncatedKey := by decide
  rw [LineSafe, Value.forall_strings_dict]
  refine ⟨?_, ?_⟩
  · intro h x hx hpublic
    by_cases hnotice : maxKeys < items.length ∧ x.1 = truncatedKey
    · refine ⟨?_, fun _ hne => absurd hnotice hne⟩
      rw [hnotice.2]
      exact hkey
    · have hitem : ∀ w, redactValue u cfg sanitize x.1 x.2 = some w →
          ControlFree x.1 ∧ LineSafe w := by
        intro w hw
        exact h (x.1, w) ((mem_sanitizeDictForLog_iff hnodup).mpr
          (Or.inr ⟨hnotice, x, hx, rfl, hw⟩))
      obtain ⟨w, hw⟩ : ∃ w, redactValue u cfg sanitize x.1 x.2 = some w := by
        rw [redactValue, hpublic]
        rcases cfg.sensitivePattern x.1 with _ | _
        · exact ⟨_, rfl⟩
        · exact ⟨_, rfl⟩
      refine ⟨(hitem w hw).1, fun hsensitive _ => ?_⟩
      exact (lineSafe_redactValue hmask hpublic).mp (fun w hw => (hitem w hw).2) hsensitive
  · intro h x hx
    rcases (mem_sanitizeDictForLog_iff hnodup).mp hx with ⟨-, hk, hv⟩ | ⟨hnotice, y, hy, hk, hw⟩
    · rw [hk, hv]
      exact ⟨hkey, lineSafe_str.mpr (controlFree_append.mpr ⟨controlFree_decimal _, hmore⟩)⟩
    · have hpublic : cfg.excludes u x.1 = false := by
        rcases hexcluded : cfg.excludes u x.1 with _ | _
        · rfl
        · simp [redactValue, hexcluded] at hw
      obtain ⟨hcontrol, hvalue⟩ := h y hy (by rw [hk]; exact hpublic)
      rw [hk] at hcontrol hvalue
      refine ⟨hcontrol, ?_⟩
      exact (lineSafe_redactValue hmask hpublic).mpr
        (fun hsensitive => hvalue hsensitive hnotice) x.2 hw

/-- And the sanitised list if its elements are. -/
theorem lineSafe_sanitizeIterableForLog (maxItems : ℕ) (items : List Value) :
    LineSafe (.seq (sanitizeIterableForLog sanitize maxItems items)) ↔
      ∀ v ∈ items.take maxItems, LineSafe (sanitize v) := by
  have hnotice : LineSafe (.str ("...and ".toList ++ decimal (items.length - maxItems) ++
      " more items".toList)) := by
    have hlead : ControlFree "...and ".toList := by decide
    have htail : ControlFree " more items".toList := by decide
    rw [lineSafe_str, controlFree_append, controlFree_append]
    exact ⟨⟨hlead, controlFree_decimal _⟩, htail⟩
  have hmap : (∀ v ∈ (items.take maxItems).map sanitize, LineSafe v) ↔
      ∀ v ∈ items.take maxItems, LineSafe (sanitize v) := List.forall_mem_map
  rw [LineSafe, Value.forall_strings_seq, ← hmap, sanitizeIterableForLog]
  split
  · rw [List.forall_mem_append, and_iff_left]
    · rfl
    · intro v hv
      rw [List.mem_singleton.mp hv]
      exact hnotice
  · rfl

theorem lineSafe_sanitizeValue_iff (hmask : ControlFree cfg.maskValue)
    (maxStr maxKeys maxItems : ℕ) :
    ∀ (left : ℕ) {v : Value}, v.Proper →
      (LineSafe (sanitizeValue u cfg maxStr maxKeys maxItems left v) ↔
        PlainKeys u cfg maxKeys maxItems left v) := by
  have hescaped : ∀ s, LineSafe (.str (sanitizeStringForLog s maxStr)) :=
    fun s => lineSafe_str.mpr (controlFree_sanitizeStringForLog s maxStr)
  intro left
  induction left with
  | zero =>
    intro v _
    have hdepth : ControlFree "<max depth exceeded>".toList := by decide
    exact iff_of_true (lineSafe_str.mpr hdepth) trivial
  | succ left ih =>
    intro v hv
    cases hv with
    | dict hnodup hitems =>
      rw [sanitizeValue, lineSafe_sanitizeDictForLog hmask hnodup, PlainKeys]
      refine forall₂_congr fun x hx => ?_
      rw [ih (hitems x (List.mem_of_mem_take hx))]
    | seq hitems =>
      rw [sanitizeValue, lineSafe_sanitizeIterableForLog, PlainKeys]
      refine forall₂_congr fun v hv => ?_
      exact ih (hitems v (List.mem_of_mem_take hv))
    | leaf hleaf =>
      cases v with
      | dict items => cases hleaf
      | seq items => cases hleaf
      | str s => exact iff_of_true (hescaped s) trivial
      | bytes b =>
        have hlead : ControlFree "<bytes: ".toList := by decide
        have htail : ControlFree " bytes>".toList := by decide
        refine iff_of_true (lineSafe_str.mpr ?_) trivial
        rw [controlFree_append, controlFree_append]
        exact ⟨⟨hlead, controlFree_decimal _⟩, htail⟩
      | other typeName text =>
        cases text with
        | some s => exact iff_of_true (hescaped s) trivial
        | none =>
          have hlead : ControlFree ['<'] := by decide
          have htail : ControlFree ": unserializable>".toList := by decide
          rw [sanitizeValue, lineSafe_str, controlFree_append, controlFree_append, PlainKeys,
            and_iff_left htail, and_iff_right hlead]
      | _ => exact iff_of_true (fun s hs => absurd hs List.not_mem_nil) trivial

/-- What `sanitize_for_log` returns cannot forge a log line exactly if the value has plain
keys and type names wherever the sanitiser reads it. -/
theorem log_lines_safe_iff (henabled : cfg.sanitizeEnabled = true)
    (hmask : ControlFree cfg.maskValue) {v : Value} (hv : v.Proper)
    (maxStringLength maxDictKeys maxListItems : Option ℕ) :
    (∀ s ∈ (sanitizeForLog u cfg v maxStringLength maxDictKeys maxListItems).strings,
        ControlFree s) ↔
      PlainKeys u cfg (orDefault maxDictKeys cfg.maxDictKeys)
        (orDefault maxListItems cfg.maxListItems) (maxDepth + 1) v := by
  rw [sanitizeForLog, if_pos henabled]
  exact lineSafe_sanitizeValue_iff hmask _ _ _ _ hv

/-- A dictionary with a line break in its key. -/
def brokenKey : Value := .dict [("a\nb".toList, .int 1)]

/-- The line break of the key gets through. -/
theorem key_breaks_line :
    ¬ ∀ (u : Casing) (cfg : Config) (v : Value), cfg.sanitizeEnabled = true →
      ControlFree cfg.maskValue → v.Proper →
      ∀ s ∈ (sanitizeForLog u cfg v none none none).strings, ControlFree s := by
  intro halways
  have hproper : brokenKey.Proper := by
    refine .dict (by decide) fun x hx => ?_
    obtain rfl := List.mem_singleton.mp hx
    exact .leaf rfl
  have hkey := halways Casing.basic defaultConfig brokenKey rfl (by decide) hproper
    "a\nb".toList (by decide)
  exact absurd hkey (by decide)

/-- A body with control characters in its values only. -/
theorem values_keep_lines :
    LineSafe (sanitizeForLog Casing.basic defaultConfig
      (.dict [("note".toList, .seq [.str "a\nb".toList, .bytes [10]]),
        ("password".toList, .str "\n".toList)]) none none none) := by
  refine (log_lines_safe_iff rfl (by decide) ?_ none none none).mpr ?_
  · refine .dict (by decide) fun x hx => ?_
    rcases List.mem_pair.mp hx with rfl | rfl
    · refine .seq fun v hv => ?_
      rcases List.mem_pair.mp hv with rfl | rfl
      · exact .leaf rfl
      · exact .leaf rfl
    · exact .leaf rfl
  · intro x hx hpublic
    rcases List.mem_pair.mp hx with rfl | rfl
    · refine ⟨by decide, fun _ _ => ?_⟩
      intro v hv
      rcases List.mem_pair.mp hv with rfl | rfl
      · trivial
      · trivial
    · exact absurd hpublic (by decide)

end LogSanitization

end DjangoBoilerplate
