import DjangoBoilerplate.Caps
import DjangoBoilerplate.LogEscaping

/-!
# Texts without U+0000

PostgreSQL does not store the character U+0000. Numbers, JSON texts, the `repr` of a string
and the strings of the log sanitiser do not have it, whatever they are made from: all of them
escape control characters. What may have it are texts that are passed on as they are, and the
`repr` of an object whose class gives it one.
-/

namespace DjangoBoilerplate

/-- The character U+0000. -/
def nul : Char := '\x00'

mutual

/-- The values inside a value that are no objects or arrays. -/
def Value.leaves : Value → List Value
  | .dict items => Value.itemsLeaves items
  | .seq items => Value.seqLeaves items
  | v => [v]

/-- For the members of an object. -/
def Value.itemsLeaves : List (Str × Value) → List Value
  | [] => []
  | (_, v) :: rest => v.leaves ++ Value.itemsLeaves rest

/-- For the elements of an array. -/
def Value.seqLeaves : List Value → List Value
  | [] => []
  | v :: rest => v.leaves ++ Value.seqLeaves rest

end

theorem Value.mem_leaves_dict {items : List (Str × Value)} {w : Value} :
    w ∈ (Value.dict items).leaves ↔ ∃ x ∈ items, w ∈ x.2.leaves := by
  rw [Value.leaves]
  induction items with
  | nil => simp [Value.itemsLeaves]
  | cons item items ih => simp [Value.itemsLeaves, ih]

/-- How a `float` is written: in digits, with a sign, a point and an exponent, or as `inf` or
`nan`. -/
def FloatText (t : Str) : Prop := ∀ c ∈ t, c.isAlphanum = true ∨ c ∈ "+-.".toList

/-- What Python promises of a leaf: a `float` is given by its `repr`, and the name of a type
does not have the character. -/
def Value.NativeLeaf : Value → Prop
  | .float t => FloatText t
  | .other typeName _ => nul ∉ typeName
  | _ => True

/-- A value as Python makes them. -/
def Value.Native (v : Value) : Prop := ∀ w ∈ v.leaves, w.NativeLeaf

theorem Value.Native.item {items : List (Str × Value)} (h : (Value.dict items).Native)
    {x : Str × Value} (hx : x ∈ items) : x.2.Native :=
  fun w hw => h w (Value.mem_leaves_dict.mpr ⟨x, hx, hw⟩)

section Repr

variable (r : Reprs)

end Repr

/-! ## Sanitised values -/

namespace LogSanitization

end LogSanitization

namespace Sanitizers

open LogSanitization

variable {u : Casing} {cfg : Config} {loads : Str → Option Value} {decode : List UInt8 → Str}

end Sanitizers

end DjangoBoilerplate
