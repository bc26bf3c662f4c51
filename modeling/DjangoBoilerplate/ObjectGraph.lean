import DjangoBoilerplate.LogSanitization

/-!
# Sanitising object graphs

A Python container refers to its parts and may be a part of itself, so what `sanitize_for_log`
walks is a graph. `sanitizeRef` is the walk as the code does it, with the depth counted up
from zero and fuel for the recursion, which nothing about the graph bounds.

The depth alone does: the walk of a graph is that of the tree it unfolds to within the levels
that are read (`sanitizeRef_eq`), so it ends, and with what the levels allow
(`sanitizing_bounded`).
-/

namespace DjangoBoilerplate

/-! ## Graphs -/

/-- An object of a graph, whose parts are references. -/
inductive Obj (ρ : Type) : Type where
  /-- a scalar: anything that is no container -/
  | leaf (v : Value) (hv : v.isContainer = false) : Obj ρ
  /-- a `dict`, its keys by their `str()`, which two of them may share -/
  | dict (items : List (Str × ρ)) : Obj ρ
  /-- a `list`, `tuple`, `set` or `frozenset`, in the order it is iterated -/
  | seq (items : List ρ) : Obj ρ

/-- A value is a graph without cycles. -/
def Obj.ofValue (v : Value) : Obj Value :=
  match v with
  | .dict items => .dict items
  | .seq items => .seq items
  | .none => .leaf .none rfl
  | .bool b => .leaf (.bool b) rfl
  | .int n => .leaf (.int n) rfl
  | .float t => .leaf (.float t) rfl
  | .str s => .leaf (.str s) rfl
  | .bytes b => .leaf (.bytes b) rfl
  | .other typeName t => .leaf (.other typeName t) rfl

variable {ρ : Type}

/-- From the reference on containers nest at most so many levels deep, and none has more
entries or elements than allowed. -/
inductive Fits (heap : ρ → Obj ρ) (entries elements : ℕ) : ℕ → ρ → Prop where
  /-- a scalar -/
  | leaf {levels : ℕ} {ref : ρ} {v : Value} {hv : v.isContainer = false}
    (hobj : heap ref = .leaf v hv) : Fits heap entries elements levels ref
  /-- a dictionary -/
  | dict {levels : ℕ} {ref : ρ} {items : List (Str × ρ)} (hobj : heap ref = .dict items)
    (hlength : items.length ≤ entries)
    (hitems : ∀ x ∈ items, Fits heap entries elements levels x.2) :
    Fits heap entries elements (levels + 1) ref
  /-- a list -/
  | seq {levels : ℕ} {ref : ρ} {items : List ρ} (hobj : heap ref = .seq items)
    (hlength : items.length ≤ elements)
    (hitems : ∀ r ∈ items, Fits heap entries elements levels r) :
    Fits heap entries elements (levels + 1) ref

/-- The tree a graph unfolds to within so many levels. -/
def unfolding (heap : ρ → Obj ρ) : ℕ → ρ → Value
  | 0, _ => .none
  | left + 1, ref =>
    match heap ref with
    | .leaf v _ => v
    | .dict items => .dict (items.map fun x => (x.1, unfolding heap left x.2))
    | .seq items => .seq (items.map (unfolding heap left))

namespace LogSanitization

/-! ## The walk -/

variable (u : Casing) (cfg : Config)

/-- One turn of the loop of `_sanitize_dict_for_log`. -/
def sanitizeItemRef (sanitize : ρ → Option Value) (result : List (Str × Value))
    (item : Str × ρ) : Option (List (Str × Value)) :=
  if cfg.excludes u item.1 then some result
  else if cfg.sensitivePattern item.1 then some (setItem result item.1 (.str cfg.maskValue))
  else do
    let value ← sanitize item.2
    return setItem result item.1 value

/-- `_sanitize_dict_for_log`, given the function for the values. -/
def sanitizeDictRef (sanitize : ρ → Option Value) (maxKeys : ℕ) (items : List (Str × ρ)) :
    Option (List (Str × Value)) := do
  let result ← (items.take maxKeys).foldlM (sanitizeItemRef u cfg sanitize) []
  if maxKeys < items.length then
    return setItem result truncatedKey
      (.str (decimal (items.length - maxKeys) ++ " more keys".toList))
  return result

/-- `_sanitize_iterable_for_log`, given the function for the elements. -/
def sanitizeIterableRef (sanitize : ρ → Option Value) (maxItems : ℕ) (items : List ρ) :
    Option (List Value) := do
  let result ← (items.take maxItems).mapM sanitize
  if maxItems < items.length then
    return result ++ [.str ("...and ".toList ++ decimal (items.length - maxItems) ++
      " more items".toList)]
  return result

/-- `_sanitize_value(value, max_str, max_keys, max_items, depth)` of an object of a graph;
`none` if the fuel runs out. -/
def sanitizeRef (heap : ρ → Obj ρ) (maxStr maxKeys maxItems : ℕ) : ℕ → ℕ → ρ → Option Value
  | 0, _, _ => none
  | fuel + 1, depth, ref =>
    if maxDepth < depth then some (.str "<max depth exceeded>".toList)
    else
      match heap ref with
      -- a scalar has no parts, so one level does for it
      | .leaf v _ => some (sanitizeValue u cfg maxStr maxKeys maxItems 1 v)
      | .dict items => do
        let result ← sanitizeDictRef u cfg
          (sanitizeRef heap maxStr maxKeys maxItems fuel (depth + 1)) maxKeys items
        return .dict result
      | .seq items => do
        let result ← sanitizeIterableRef
          (sanitizeRef heap maxStr maxKeys maxItems fuel (depth + 1)) maxItems items
        return .seq result

/-- What `sanitize_for_log` returns. -/
inductive Logged (ρ : Type) : Type where
  /-- what it was given -/
  | unchanged (ref : ρ) : Logged ρ
  /-- a value of its own -/
  | sanitized (v : Value) : Logged ρ

/-- `sanitize_for_log(value, max_string_length, max_dict_keys, max_list_items)` of an object of
a graph. -/
def sanitizeRefForLog (heap : ρ → Obj ρ) (ref : ρ)
    (maxStringLength maxDictKeys maxListItems : Option ℕ) (fuel : ℕ) : Option (Logged ρ) :=
  if cfg.sanitizeEnabled then do
    let v ← sanitizeRef u cfg heap (orDefault maxStringLength cfg.maxStringLength)
      (orDefault maxDictKeys cfg.maxDictKeys) (orDefault maxListItems cfg.maxListItems) fuel 0 ref
    return .sanitized v
  else some (.unchanged ref)

/-! ## The tree that is read -/

section Unfolding

variable {u cfg} {read : ρ → Option Value} {tree : ρ → Value} {sanitize : Value → Value}

theorem foldlM_sanitizeItemRef (hread : ∀ r, read r = some (sanitize (tree r)))
    (l : List (Str × ρ)) (result : List (Str × Value)) :
    l.foldlM (sanitizeItemRef u cfg read) result =
      some ((l.map fun x => (x.1, tree x.2)).foldl (sanitizeItem u cfg sanitize) result) := by
  have hitem : ∀ (result : List (Str × Value)) (x : Str × ρ),
      sanitizeItemRef u cfg read result x =
        some (sanitizeItem u cfg sanitize result (x.1, tree x.2)) := by
    intro result x
    unfold sanitizeItemRef sanitizeItem
    split
    · rfl
    · split
      · rfl
      · rw [hread]
        rfl
  induction l generalizing result with
  | nil => rfl
  | cons x l ih =>
    rw [List.foldlM_cons, hitem]
    exact ih _

theorem sanitizeDictRef_eq (hread : ∀ r, read r = some (sanitize (tree r))) (maxKeys : ℕ)
    (items : List (Str × ρ)) :
    sanitizeDictRef u cfg read maxKeys items =
      some (sanitizeDictForLog u cfg sanitize maxKeys (items.map fun x => (x.1, tree x.2))) := by
  rw [sanitizeDictRef, foldlM_sanitizeItemRef hread, sanitizeDictForLog, ← List.map_take,
    List.length_map]
  simp only [Option.bind_eq_bind, Option.bind_some]
  split <;> rfl

theorem mapM_read (hread : ∀ r, read r = some (sanitize (tree r))) (l : List ρ) :
    l.mapM read = some ((l.map tree).map sanitize) := by
  induction l with
  | nil => rfl
  | cons r l ih =>
    rw [List.mapM_cons, hread, ih]
    rfl

theorem sanitizeIterableRef_eq (hread : ∀ r, read r = some (sanitize (tree r))) (maxItems : ℕ)
    (items : List ρ) :
    sanitizeIterableRef read maxItems items =
      some (sanitizeIterableForLog sanitize maxItems (items.map tree)) := by
  rw [sanitizeIterableRef, mapM_read hread, sanitizeIterableForLog, ← List.map_take,
    List.length_map]
  simp only [Option.bind_eq_bind, Option.bind_some]
  split <;> rfl

/-- A scalar is sanitised alike at every level. -/
theorem sanitizeValue_leaf {v : Value} (hv : v.isContainer = false)
    (maxStr maxKeys maxItems left : ℕ) :
    sanitizeValue u cfg maxStr maxKeys maxItems (left + 1) v =
      sanitizeValue u cfg maxStr maxKeys maxItems 1 v := by
  cases v with
  | dict items => cases hv
  | seq items => cases hv
  | other typeName text => cases text <;> rfl
  | _ => rfl

/-- The walk of a graph is that of the tree it unfolds to within the levels that are left. -/
theorem sanitizeRef_eq (heap : ρ → Obj ρ) (maxStr maxKeys maxItems : ℕ) :
    ∀ {left fuel depth : ℕ}, depth + left = maxDepth + 1 → left < fuel → ∀ ref : ρ,
      sanitizeRef u cfg heap maxStr maxKeys maxItems fuel depth ref =
        some (sanitizeValue u cfg maxStr maxKeys maxItems left (unfolding heap left ref)) := by
  intro left
  induction left with
  | zero =>
    intro fuel depth hdepth hfuel ref
    obtain ⟨fuel, rfl⟩ := Nat.exists_eq_succ_of_ne_zero hfuel.ne'
    rw [sanitizeRef, if_pos (by omega)]
    rfl
  | succ left ih =>
    intro fuel depth hdepth hfuel ref
    obtain ⟨fuel, rfl⟩ := Nat.exists_eq_succ_of_ne_zero (Nat.ne_zero_of_lt hfuel)
    have hparts : ∀ r, sanitizeRef u cfg heap maxStr maxKeys maxItems fuel (depth + 1) r =
        some (sanitizeValue u cfg maxStr maxKeys maxItems left (unfolding heap left r)) :=
      ih (by omega) (by omega)
    rw [sanitizeRef, if_neg (by omega), unfolding]
    cases heap ref with
    | leaf v hv => exact congrArg some (sanitizeValue_leaf hv _ _ _ left).symm
    | dict items =>
      simp only
      rw [sanitizeDictRef_eq hparts, sanitizeValue]
      rfl
    | seq items =>
      simp only
      rw [sanitizeIterableRef_eq hparts, sanitizeValue]
      rfl

end Unfolding

/-! ## The bounds -/

section Bounds

variable {u cfg} {sanitize : Value → Value}

theorem length_sanitizeDictForLog_le (maxKeys : ℕ) (items : List (Str × Value)) :
    (sanitizeDictForLog u cfg sanitize maxKeys items).length ≤ maxKeys + 1 := by
  have hfold : ∀ l result : List (Str × Value),
      (l.foldl (sanitizeItem u cfg sanitize) result).length ≤ result.length + l.length := by
    intro l
    induction l with
    | nil => exact fun _ => le_rfl
    | cons x l ih =>
      intro result
      have hitem : (sanitizeItem u cfg sanitize result x).length ≤ result.length + 1 := by
        unfold sanitizeItem
        split
        · exact Nat.le_succ _
        · split <;> exact length_setItem_le _ _ _
      have hrest := ih (sanitizeItem u cfg sanitize result x)
      rw [List.foldl_cons, List.length_cons]
      omega
  have hloop := hfold (items.take maxKeys) []
  rw [List.length_nil, List.length_take] at hloop
  rcases sanitizeDictForLog_cases u cfg sanitize maxKeys items with heq | ⟨notice, heq⟩
  · rw [heq]
    omega
  · rw [heq]
    refine (length_setItem_le _ _ _).trans ?_
    omega

theorem length_sanitizeIterableForLog_le (maxItems : ℕ) (items : List Value) :
    (sanitizeIterableForLog sanitize maxItems items).length ≤ maxItems + 1 := by
  unfold sanitizeIterableForLog
  split
  · rw [List.length_append, List.length_map, List.length_take, List.length_singleton]
    omega
  · rw [List.length_map, List.length_take]
    omega

theorem fits_leaf {entries elements levels : ℕ} {v : Value} (hv : v.isContainer = false) :
    Fits Obj.ofValue entries elements levels v := by
  cases v with
  | dict items => cases hv
  | seq items => cases hv
  | _ => exact .leaf rfl

theorem fits_sanitizeValue (maxStr maxKeys maxItems : ℕ) :
    ∀ (left : ℕ) (v : Value), Fits Obj.ofValue (maxKeys + 1) (maxItems + 1) left
      (sanitizeValue u cfg maxStr maxKeys maxItems left v) := by
  intro left
  induction left with
  | zero => exact fun _ => fits_leaf rfl
  | succ left ih =>
    intro v
    cases v with
    | none => exact fits_leaf rfl
    | bool b => exact fits_leaf rfl
    | int n => exact fits_leaf rfl
    | float t => exact fits_leaf rfl
    | str s => exact fits_leaf rfl
    | bytes b => exact fits_leaf rfl
    | dict items =>
      rw [sanitizeValue]
      refine .dict rfl (length_sanitizeDictForLog_le maxKeys items) ?_
      intro x hx
      rcases value_of_mem_sanitizeDictForLog hx with ⟨s, hs⟩ | ⟨y, -, hy⟩
      · rw [hs]
        exact fits_leaf rfl
      · rw [hy]
        exact ih y.2
    | seq items =>
      rw [sanitizeValue]
      refine .seq rfl (length_sanitizeIterableForLog_le maxItems items) ?_
      intro v hv
      rcases mem_sanitizeIterableForLog hv with ⟨s, rfl⟩ | ⟨w, -, rfl⟩
      · exact fits_leaf rfl
      · exact ih w
    | other typeName text => cases text <;> exact fits_leaf rfl

/-- With enough fuel, the function returns this. -/
def Returns {α : Type} (f : ℕ → Option α) (a : α) : Prop := ∃ n, ∀ fuel ≥ n, f fuel = some a

/-- If sanitising is switched on, it ends on every graph, and containers nest at most six deep
in the result and have at most one more entry or element than the caps. -/
theorem sanitizing_bounded (henabled : cfg.sanitizeEnabled = true) (heap : ρ → Obj ρ) (ref : ρ)
    (maxStringLength maxDictKeys maxListItems : Option ℕ) :
    ∃ v, Returns (sanitizeRefForLog u cfg heap ref maxStringLength maxDictKeys maxListItems)
        (.sanitized v) ∧
      Fits Obj.ofValue (orDefault maxDictKeys cfg.maxDictKeys + 1)
        (orDefault maxListItems cfg.maxListItems + 1) 6 v := by
  refine ⟨sanitizeValue u cfg (orDefault maxStringLength cfg.maxStringLength) _ _ (maxDepth + 1)
    (unfolding heap (maxDepth + 1) ref), ⟨maxDepth + 2, ?_⟩, fits_sanitizeValue _ _ _ _ _⟩
  intro fuel hfuel
  rw [sanitizeRefForLog, if_pos henabled, sanitizeRef_eq heap _ _ _ (Nat.zero_add _) hfuel]
  rfl

/-- Of what is returned. -/
def Logged.Fits (heap : ρ → Obj ρ) (entries elements levels : ℕ) : Logged ρ → Prop
  | .unchanged ref => DjangoBoilerplate.Fits heap entries elements levels ref
  | .sanitized v => DjangoBoilerplate.Fits Obj.ofValue entries elements levels v

/-- A list whose only element is the list itself. -/
def selfContaining : Unit → Obj Unit := fun _ => .seq [()]

theorem not_fits_selfContaining (entries elements levels : ℕ) :
    ¬ Fits selfContaining entries elements levels () := by
  induction levels with
  | zero =>
    intro h
    cases h with
    | leaf hobj => cases hobj
  | succ levels ih =>
    intro h
    cases h with
    | leaf hobj => cases hobj
    | dict hobj => cases hobj
    | seq hobj hlength hitems =>
      obtain rfl := Obj.seq.inj hobj
      exact ih (hitems () List.mem_cons_self)

/-- With sanitising switched off the list comes back as it is. -/
theorem switched_off_unbounded :
    ¬ ∀ (u : Casing) (cfg : Config) (ρ : Type) (heap : ρ → Obj ρ) (ref : ρ)
        (maxStr maxKeys maxItems : ℕ), 0 < maxStr → 0 < maxKeys → 0 < maxItems →
      ∃ result, Returns (sanitizeRefForLog u cfg heap ref (some maxStr) (some maxKeys)
          (some maxItems)) result ∧
        result.Fits heap (maxKeys + 1) (maxItems + 1) 6 := by
  intro halways
  obtain ⟨result, ⟨n, hreturns⟩, hfits⟩ := halways Casing.basic
    { defaultConfig with sanitizeEnabled := false } Unit selfContaining () 200 20 10
    (by decide) (by decide) (by decide)
  have hsame : some (.unchanged ()) = some result := hreturns n le_rfl
  obtain rfl := Option.some.inj hsame
  exact not_fits_selfContaining _ _ _ hfits

/-- With it switched on, the list is cut off below the sixth level. -/
theorem selfContaining_bounded :
    ∃ v, Returns (sanitizeRefForLog Casing.basic defaultConfig selfContaining () none none none)
        (.sanitized v) ∧
      Fits Obj.ofValue 21 11 6 v :=
  sanitizing_bounded rfl selfContaining () none none none

/-- The marker stands six levels down. -/
example : sanitizeRef Casing.basic defaultConfig selfContaining 200 20 10 7 0 () =
    some (.seq [.seq [.seq [.seq [.seq [.seq [.str "<max depth exceeded>".toList]]]]]]) := by
  rfl

end Bounds

end LogSanitization

end DjangoBoilerplate
