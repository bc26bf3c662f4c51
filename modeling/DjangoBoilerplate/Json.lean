import DjangoBoilerplate.Text

/-!
# Python values and `json.dumps`

The values that pass through the log sanitisers: what a request body, a parsed
JSON text or a structured summary is made of. `dumps` renders one as
`json.dumps(value, default=str)` does, in ASCII, with `", "` and `": "` between
the parts.
-/

namespace DjangoBoilerplate

/-- A Python value. A `dict` has distinct string keys, in insertion order. -/
inductive Value : Type where
  /-- `None` -/
  | none : Value
  /-- a `bool` -/
  | bool (b : Bool) : Value
  /-- an `int` -/
  | int (n : ℤ) : Value
  /-- a `float`, by its `repr` -/
  | float (text : Str) : Value
  /-- a `str` -/
  | str (s : Str) : Value
  /-- `bytes` -/
  | bytes (b : List UInt8) : Value
  /-- a `dict` -/
  | dict (items : List (Str × Value)) : Value
  /-- a `list`, `tuple`, `set` or `frozenset`, in the order it is iterated -/
  | seq (items : List Value) : Value
  /-- any other object, by the name of its type and its `str()`, `none` where
  `str()` raises -/
  | other (typeName : Str) (text : Option Str) : Value

/-- An object or an array. -/
def Value.isContainer : Value → Bool
  | .dict _ => true
  | .seq _ => true
  | _ => false

/-- Induction over a value: a scalar, an object given its members, an array given
its elements. -/
@[elab_as_elim]
theorem Value.induct {P : Value → Prop} (leaf : ∀ v : Value, v.isContainer = false → P v)
    (dict : ∀ items : List (Str × Value), (∀ x ∈ items, P x.2) → P (.dict items))
    (seq : ∀ items : List Value, (∀ v ∈ items, P v) → P (.seq items)) (v : Value) : P v :=
  @Value.rec P (fun items => ∀ x ∈ items, P x.2) (fun items => ∀ v ∈ items, P v) (fun x => P x.2)
    (leaf _ rfl) (fun _ => leaf _ rfl) (fun _ => leaf _ rfl) (fun _ => leaf _ rfl)
    (fun _ => leaf _ rfl) (fun _ => leaf _ rfl) dict seq (fun _ _ => leaf _ rfl)
    (by simp) (fun _ _ hx hitems => List.forall_mem_cons.mpr ⟨hx, hitems⟩)
    (by simp) (fun _ _ hv hitems => List.forall_mem_cons.mpr ⟨hv, hitems⟩)
    (fun _ _ hv => hv) v

/-- `bool(value)`. -/
def Value.truthy : Value → Bool
  | .none => false
  | .bool b => b
  | .int n => n ≠ 0
  | .float t => t ≠ "0.0".toList && t ≠ "-0.0".toList
  | .str s => !s.isEmpty
  | .bytes b => !b.isEmpty
  | .dict items => !items.isEmpty
  | .seq items => !items.isEmpty
  | .other _ _ => true

/-! ## Dictionaries -/

/-- `d[key] = v`: an existing key keeps its place. -/
def setItem {α : Type} : List (Str × α) → Str → α → List (Str × α)
  | [], key, v => [(key, v)]
  | (k, x) :: rest, key, v => if k = key then (key, v) :: rest else (k, x) :: setItem rest key v

/-- `d.get(key)`. -/
def getItem {α : Type} (d : List (Str × α)) (key : Str) : Option α :=
  d.lookup key

/-- The keys of a `dict`, in order. -/
def keysOf {α : Type} (d : List (Str × α)) : List Str := d.map Prod.fst

variable {α : Type}

/-- A `dict` with string keys: every key is there once. -/
structure Dict (α : Type) : Type where
  /-- the items, in insertion order -/
  items : List (Str × α)
  /-- no key twice -/
  nodup : (keysOf items).Nodup

/-- Setting a key that is there keeps the keys; a new one goes last. -/
theorem keysOf_setItem (d : List (Str × α)) (key : Str) (v : α) :
    keysOf (setItem d key v) = if key ∈ keysOf d then keysOf d else keysOf d ++ [key] := by
  induction d with
  | nil => rfl
  | cons item d ih =>
    obtain ⟨k, x⟩ := item
    rw [setItem]
    split
    · next heq => simp [keysOf, heq]
    · next hne =>
      have hkeys : keysOf ((k, x) :: setItem d key v) = k :: keysOf (setItem d key v) := rfl
      have hmem : key ∈ keysOf ((k, x) :: d) ↔ key ∈ keysOf d := by
        simp [keysOf, Ne.symm hne]
      rw [hkeys, ih]
      simp only [hmem]
      split <;> rfl

theorem mem_keysOf_setItem {d : List (Str × α)} {key k : Str} {v : α} :
    k ∈ keysOf (setItem d key v) ↔ k = key ∨ k ∈ keysOf d := by
  rw [keysOf_setItem]
  split
  · next hmem =>
    refine ⟨?_, ?_⟩
    · exact Or.inr
    · rintro (rfl | h)
      · exact hmem
      · exact h
  · simp [or_comm]

theorem length_setItem_le (d : List (Str × α)) (key : Str) (v : α) :
    (setItem d key v).length ≤ d.length + 1 := by
  induction d with
  | nil => exact le_rfl
  | cons item d ih =>
    rw [setItem]
    split
    · exact Nat.le_succ _
    · exact Nat.succ_le_succ ih

/-- Every key is there once. -/
theorem nodup_setItem {d : List (Str × α)} (h : (keysOf d).Nodup) (key : Str) (v : α) :
    (keysOf (setItem d key v)).Nodup := by
  rw [keysOf_setItem]
  split
  · exact h
  · next hnew =>
    rw [← List.concat_eq_append]
    exact h.concat hnew

/-- The keys that were there stay in front. -/
theorem keysOf_prefix_setItem (d : List (Str × α)) (key : Str) (v : α) :
    keysOf d <+: keysOf (setItem d key v) := by
  rw [keysOf_setItem]
  split
  · exact List.prefix_rfl
  · exact List.prefix_append _ _

/-- A key is found exactly if it is there. -/
theorem getItem_isSome_iff {d : List (Str × α)} {key : Str} :
    (getItem d key).isSome = true ↔ key ∈ keysOf d := by
  induction d with
  | nil => simp [getItem, keysOf]
  | cons item d ih =>
    obtain ⟨k, x⟩ := item
    unfold getItem keysOf at ih ⊢
    rcases eq_or_ne key k with rfl | hne
    · simp
    · rw [List.lookup_cons, beq_eq_false_iff_ne.mpr hne]
      simp only [List.map_cons, List.mem_cons, hne, false_or]
      exact ih

theorem getItem_of_not_mem {d : List (Str × α)} {key : Str} (h : key ∉ keysOf d) :
    getItem d key = none := by
  rw [← Option.not_isSome_iff_eq_none, getItem_isSome_iff]
  exact h

theorem getItem_cons_self (key : Str) (v : α) (d : List (Str × α)) :
    getItem ((key, v) :: d) key = some v :=
  List.lookup_cons_self ..

theorem getItem_cons_of_ne {key k : Str} (hne : k ≠ key) (v : α) (d : List (Str × α)) :
    getItem ((key, v) :: d) k = getItem d k := by
  rw [getItem, getItem, List.lookup_cons, beq_eq_false_iff_ne.mpr hne]

/-- What is under a key after another was set. -/
theorem getItem_setItem (d : List (Str × α)) (key : Str) (v : α) (k : Str) :
    getItem (setItem d key v) k = if k = key then some v else getItem d k := by
  induction d with
  | nil =>
    simp only [setItem, getItem, List.lookup_cons, List.lookup_nil]
    split
    next h => simp [(beq_iff_eq.mp h)]
    next h => simp [beq_eq_false_iff_ne.mp h]
  | cons item d ih =>
    obtain ⟨k', x⟩ := item
    rw [setItem]
    rcases eq_or_ne k' key with rfl | hne
    · rw [if_pos rfl]
      rcases eq_or_ne k k' with rfl | hk
      · simp [getItem]
      · simp [getItem, List.lookup_cons, beq_eq_false_iff_ne.mpr hk, hk]
    · rw [if_neg hne]
      rcases eq_or_ne k k' with rfl | hk
      · simp [getItem, hne]
      · simpa [getItem, List.lookup_cons, beq_eq_false_iff_ne.mpr hk] using ih

/-- A key set twice has the later value. -/
theorem setItem_setItem (d : List (Str × α)) (key : Str) (v w : α) :
    setItem (setItem d key v) key w = setItem d key w := by
  induction d with
  | nil => simp [setItem]
  | cons item d ih =>
    obtain ⟨k, x⟩ := item
    rcases eq_or_ne k key with rfl | hne
    · simp [setItem]
    · simp [setItem, hne, ih]

/-- A new key goes last. -/
theorem setItem_of_not_mem {d : List (Str × α)} {key : Str} (v : α) (h : key ∉ keysOf d) :
    setItem d key v = d ++ [(key, v)] := by
  induction d with
  | nil => rfl
  | cons item d ih =>
    obtain ⟨k, x⟩ := item
    obtain ⟨hne, hrest⟩ : key ≠ k ∧ key ∉ keysOf d := by simpa [keysOf] using h
    rw [setItem, if_neg hne.symm, ih hrest, List.cons_append]

/-- The first items decide about the keys they have. -/
theorem getItem_take (d : List (Str × α)) (n : ℕ) (k : Str) :
    getItem (d.take n) k = if k ∈ keysOf (d.take n) then getItem d k else none := by
  split
  · next hmem =>
    obtain ⟨v, hv⟩ := Option.isSome_iff_exists.mp (getItem_isSome_iff.mpr hmem)
    have hsplit : getItem d k = (getItem (d.take n) k).or (getItem (d.drop n) k) := by
      unfold getItem
      rw [← List.lookup_append, List.take_append_drop]
    rw [hsplit, hv, Option.some_or]
  · next hmem => exact getItem_of_not_mem hmem

/-- The items with certain keys have what was under these. -/
theorem getItem_filter (d : List (Str × α)) (p : Str → Bool) (k : Str) :
    getItem (d.filter fun x => p x.1) k = if p k then getItem d k else none := by
  induction d with
  | nil => simp [getItem]
  | cons item d ih =>
    obtain ⟨key, v⟩ := item
    rcases eq_or_ne k key with rfl | hne
    · rcases hp : p k with _ | _
      · simpa [hp] using ih
      · simp [hp, getItem_cons_self]
    · rcases hp : p key with _ | _
      · simpa [hp, getItem_cons_of_ne hne] using ih
      · simpa [hp, getItem_cons_of_ne hne] using ih

/-- An item is found under its key. -/
theorem getItem_of_mem {d : List (Str × α)} {key : Str} {v : α} (hnodup : (keysOf d).Nodup)
    (h : (key, v) ∈ d) : getItem d key = some v := by
  induction d with
  | nil => cases h
  | cons item d ih =>
    obtain ⟨k, x⟩ := item
    obtain ⟨hk, hnodup⟩ := List.nodup_cons.mp hnodup
    rcases List.mem_cons.mp h with heq | hmem
    · obtain ⟨rfl, rfl⟩ := Prod.mk.inj heq
      exact getItem_cons_self key v d
    · have hne : key ≠ k := by
        rintro rfl
        exact hk (List.mem_map.mpr ⟨_, hmem, rfl⟩)
      rw [getItem_cons_of_ne hne]
      exact ih hnodup hmem

/-- What is found is there. -/
theorem mem_of_getItem {d : List (Str × α)} {key : Str} {v : α} (h : getItem d key = some v) :
    (key, v) ∈ d := by
  obtain ⟨d₁, d₂, rfl, -⟩ := List.lookup_eq_some_iff.mp h
  exact List.mem_append_right d₁ List.mem_cons_self

theorem mem_iff_getItem {d : List (Str × α)} (hnodup : (keysOf d).Nodup) {x : Str × α} :
    x ∈ d ↔ getItem d x.1 = some x.2 :=
  ⟨getItem_of_mem hnodup, mem_of_getItem⟩

/-- What was set, or what was there. -/
theorem mem_setItem {d : List (Str × α)} {key : Str} {v : α} {x : Str × α}
    (h : x ∈ setItem d key v) : x = (key, v) ∨ x ∈ d := by
  induction d with
  | nil => exact Or.inl (List.mem_singleton.mp h)
  | cons item d ih =>
    rw [setItem] at h
    split at h
    · rcases List.mem_cons.mp h with h | h
      · exact Or.inl h
      · exact Or.inr (List.mem_cons_of_mem _ h)
    · rcases List.mem_cons.mp h with h | h
      · exact Or.inr (h ▸ List.mem_cons_self ..)
      · rcases ih h with h | h
        · exact Or.inl h
        · exact Or.inr (List.mem_cons_of_mem _ h)

/-- `d.pop(key, None)`: what is left. -/
def popItem (d : List (Str × α)) (key : Str) : List (Str × α) :=
  d.filter fun item => item.1 ≠ key

theorem getItem_popItem (d : List (Str × α)) (key k : Str) :
    getItem (popItem d key) k = if k = key then none else getItem d k := by
  rw [popItem]
  simpa using getItem_filter d (fun k => k ≠ key) k

theorem nodup_popItem {d : List (Str × α)} (h : (keysOf d).Nodup) (key : Str) :
    (keysOf (popItem d key)).Nodup :=
  h.sublist (List.Sublist.map _ List.filter_sublist)

/-! ## Encoding -/

/-- A character inside a JSON string, with `ensure_ascii`. -/
def jsonChar (c : Char) : Str :=
  if c = '\x22' then "\\\x22".toList
  else if c = '\\' then "\\\\".toList
  else if c = '\n' then "\\n".toList
  else if c = '\r' then "\\r".toList
  else if c = '\t' then "\\t".toList
  else if c.toNat = 8 then "\\b".toList
  else if c.toNat = 12 then "\\f".toList
  else if 32 ≤ c.toNat ∧ c.toNat < 127 then [c]
  else if c.toNat < 0x10000 then "\\u".toList ++ hex 4 c.toNat
  else
    -- a surrogate pair
    "\\u".toList ++ hex 4 (0xD800 + (c.toNat - 0x10000) / 0x400) ++
      ("\\u".toList ++ hex 4 (0xDC00 + (c.toNat - 0x10000) % 0x400))

/-- The characters of a JSON string, without its quotes. -/
def jsonChars (s : Str) : Str := s.flatMap jsonChar

/-- A JSON string. -/
def jsonString (s : Str) : Str := '\x22' :: (jsonChars s ++ ['\x22'])

/-- A character inside the `repr` of `bytes`. -/
def byteRepr (quote : Char) (b : UInt8) : Str :=
  let c := Char.ofNat b.toNat
  if c = quote ∨ c = '\\' then ['\\', c]
  else if c = '\t' then "\\t".toList
  else if c = '\n' then "\\n".toList
  else if c = '\r' then "\\r".toList
  else if b.toNat < 32 ∨ 127 ≤ b.toNat then "\\x".toList ++ hex 2 b.toNat
  else [c]

/-- `repr` of `bytes`. -/
def bytesRepr (b : List UInt8) : Str :=
  let quote := if b.contains 39 && !b.contains 34 then '\x22' else '\x27'
  'b' :: quote :: (b.flatMap (byteRepr quote) ++ [quote])

mutual

/-- The text of a value; meaningful where `encodable` holds. -/
def Value.text : Value → Str
  | .none => "null".toList
  | .bool true => "true".toList
  | .bool false => "false".toList
  | .int n => (toString n).toList
  | .float t => t
  | .str s => jsonString s
  | .bytes b => jsonString (bytesRepr b)
  | .dict items => '\x7b' :: (Value.itemsText items ++ ['\x7d'])
  | .seq items => '[' :: (Value.seqText items ++ [']'])
  | .other _ t => jsonString (t.getD [])

/-- The members of an object. -/
def Value.itemsText : List (Str × Value) → Str
  | [] => []
  | [(k, v)] => jsonString k ++ ": ".toList ++ v.text
  | (k, v) :: kv :: rest =>
    jsonString k ++ ": ".toList ++ v.text ++ ", ".toList ++ Value.itemsText (kv :: rest)

/-- The elements of an array. -/
def Value.seqText : List Value → Str
  | [] => []
  | [v] => v.text
  | v :: v' :: rest => v.text ++ ", ".toList ++ Value.seqText (v' :: rest)

end

mutual

/-- Does `json.dumps(value, default=str)` return? It raises where `str()` of an
object does. -/
def Value.encodable : Value → Bool
  | .dict items => Value.itemsEncodable items
  | .seq items => Value.seqEncodable items
  | .other _ t => t.isSome
  | _ => true

/-- For the members of an object. -/
def Value.itemsEncodable : List (Str × Value) → Bool
  | [] => true
  | (_, v) :: rest => v.encodable && Value.itemsEncodable rest

/-- For the elements of an array. -/
def Value.seqEncodable : List Value → Bool
  | [] => true
  | v :: rest => v.encodable && Value.seqEncodable rest

end

theorem Value.itemsEncodable_iff {items : List (Str × Value)} :
    Value.itemsEncodable items = true ↔ ∀ x ∈ items, x.2.encodable = true := by
  induction items with
  | nil => simp [Value.itemsEncodable]
  | cons item items ih =>
    obtain ⟨k, v⟩ := item
    simp [Value.itemsEncodable, ih]

theorem Value.seqEncodable_iff {items : List Value} :
    Value.seqEncodable items = true ↔ ∀ v ∈ items, v.encodable = true := by
  induction items with
  | nil => simp [Value.seqEncodable]
  | cons v items ih => simp [Value.seqEncodable, ih]

/-- What follows an element of an array: the separator and the other elements. -/
def Value.restText : List Value → Str
  | [] => []
  | v :: rest => ", ".toList ++ Value.seqText (v :: rest)

/-- The text of an array, around one of its elements. -/
theorem Value.seqText_append (front : List Value) (v : Value) (rest : List Value) :
    Value.seqText (front ++ v :: rest) =
      front.flatMap (fun x => x.text ++ ", ".toList) ++ (v.text ++ Value.restText rest) := by
  induction front with
  | nil =>
    cases rest with
    | nil => simp [Value.seqText, Value.restText]
    | cons v' rest => simp [Value.seqText, Value.restText]
  | cons x front ih =>
    obtain ⟨y, ys, hys⟩ : ∃ y ys, front ++ v :: rest = y :: ys := by
      cases front with
      | nil => exact ⟨v, rest, rfl⟩
      | cons y ys => exact ⟨y, ys ++ v :: rest, rfl⟩
    rw [List.cons_append, hys, Value.seqText, ← hys, ih, List.flatMap_cons]
    simp only [List.append_assoc]

/-- `json.dumps(value, default=str)`, `none` where it raises. -/
def dumps (v : Value) : Option Str :=
  if v.encodable then some v.text else Option.none

example : dumps (.dict [("a".toList, .seq [.int (-1), .str "é\n".toList]), ("b".toList, .none)]) =
    some "\x7b\x22a\x22: [-1, \x22\\u00e9\\n\x22], \x22b\x22: null\x7d".toList := by
  decide

end DjangoBoilerplate
