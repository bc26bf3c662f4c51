import DjangoBoilerplate.Json

/-!
# `repr` and `str` of Python values

What an f-string makes of a value: a `str` as it is, anything else through its
`repr`, which quotes and escapes the strings inside it.

Which characters beyond ASCII are printable is a Unicode table, and the `repr` of
an object that is none of the built-in kinds is up to its class; both enter as
functions.
-/

namespace DjangoBoilerplate

/-- What `repr` depends on. -/
structure Reprs : Type where
  /-- `str.isprintable()` of a character beyond ASCII -/
  printable : Char → Bool
  /-- `repr` of any other object, by the name of its type and its `str()` -/
  object : Str → Option Str → Str

variable (r : Reprs)

/-- A character inside the `repr` of a `str`. -/
def charRepr (quote c : Char) : Str :=
  if c = quote ∨ c = '\\' then ['\\', c]
  else if c = '\t' then "\\t".toList
  else if c = '\n' then "\\n".toList
  else if c = '\r' then "\\r".toList
  else if c.toNat < 32 ∨ c.toNat = 127 then "\\x".toList ++ hex 2 c.toNat
  else if c.toNat < 127 then [c]
  else if r.printable c then [c]
  else if c.toNat < 0x100 then "\\x".toList ++ hex 2 c.toNat
  else if c.toNat < 0x10000 then "\\u".toList ++ hex 4 c.toNat
  else "\\U".toList ++ hex 8 c.toNat

/-- The quote `repr` puts around a `str`: double only if there are single ones in it
and no double ones. -/
def quoteOf (s : Str) : Char :=
  if s.contains '\x27' && !s.contains '\x22' then '\x22' else '\x27'

/-- `repr` of a `str`. -/
def strRepr (s : Str) : Str :=
  quoteOf s :: (s.flatMap (charRepr r (quoteOf s)) ++ [quoteOf s])

mutual

/-- `repr(value)`, a sequence taken for a `list`. -/
def Value.repr : Value → Str
  | .none => "None".toList
  | .bool true => "True".toList
  | .bool false => "False".toList
  | .int n => (toString n).toList
  | .float t => t
  | .str s => strRepr r s
  | .bytes b => bytesRepr b
  | .dict items => '\x7b' :: (Value.itemsRepr items ++ ['\x7d'])
  | .seq items => '[' :: (Value.seqRepr items ++ [']'])
  | .other typeName t => r.object typeName t

/-- The items of a `dict`. -/
def Value.itemsRepr : List (Str × Value) → Str
  | [] => []
  | [(k, v)] => strRepr r k ++ ": ".toList ++ v.repr
  | (k, v) :: kv :: rest =>
    strRepr r k ++ ": ".toList ++ v.repr ++ ", ".toList ++ Value.itemsRepr (kv :: rest)

/-- The elements of a `list`. -/
def Value.seqRepr : List Value → Str
  | [] => []
  | [v] => v.repr
  | v :: v' :: rest => v.repr ++ ", ".toList ++ Value.seqRepr (v' :: rest)

end

variable {r}

/-- An item with others after it. -/
theorem Value.itemsRepr_cons {k : Str} {v : Value} {rest : List (Str × Value)} (h : rest ≠ []) :
    Value.itemsRepr r ((k, v) :: rest) =
      strRepr r k ++ ": ".toList ++ v.repr r ++ ", ".toList ++ Value.itemsRepr r rest := by
  cases rest with
  | nil => exact absurd rfl h
  | cons kv rest => rw [Value.itemsRepr]

/-- An element with others after it. -/
theorem Value.seqRepr_cons {v : Value} {rest : List Value} (h : rest ≠ []) :
    Value.seqRepr r (v :: rest) = v.repr r ++ ", ".toList ++ Value.seqRepr r rest := by
  cases rest with
  | nil => exact absurd rfl h
  | cons v' rest => rw [Value.seqRepr]

variable (r)

/-- `str(value)`, where it does not raise. -/
def Value.toStr : Value → Str
  | .str s => s
  | .other _ t => t.getD []
  | v => v.repr r

/-- The `repr` of a nested value, with both kinds of quotes. -/
example (r : Reprs) : (Value.dict [("a".toList, .seq [.none, .bool true, .str "it's".toList]),
    ("b".toList, .str "x\n".toList)]).repr r =
      "\x7b'a': [None, True, \x22it's\x22], 'b': 'x\\n'\x7d".toList := by
  simp [Value.repr, Value.itemsRepr, Value.seqRepr, strRepr, quoteOf, charRepr]

end DjangoBoilerplate
