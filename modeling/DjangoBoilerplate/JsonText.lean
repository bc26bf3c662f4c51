import DjangoBoilerplate.Decimals
import DjangoBoilerplate.Json

/-!
# JSON texts

`json.loads`, and `json.dumps` with `ensure_ascii=False` in both its layouts: on one line, and
indented. A number literal is read to its end (`scanNumber_text`), and a string is read back from
what is written for it (`scanString_quoted`).

The floats are the interpreter's and enter by the `repr` of the literals. A string with an unpaired
surrogate has no place among lists of `Char`; `loads` says so where a text would give one. The
limits of the interpreter on the depth of its recursion are not modelled.
-/

namespace DjangoBoilerplate

namespace JsonText

/-! ## Numbers -/

/-- The sign in front of a number. -/
def scanSign : Str → Str × Str
  | '-' :: rest => (['-'], rest)
  | s => ([], s)

/-- `0|[1-9][0-9]*`. -/
def scanWhole : Str → Option (Str × Str)
  | [] => none
  | c :: rest =>
    if c = '0' then some (['0'], rest)
    else if c.isDigit then some (c :: rest.takeWhile Char.isDigit, rest.dropWhile Char.isDigit)
    else none

/-- `(\.[0-9]+)?`. -/
def scanFrac : Str → Str × Str
  | [] => ([], [])
  | c :: rest =>
    if c = '.' ∧ rest.takeWhile Char.isDigit ≠ [] then
      (c :: rest.takeWhile Char.isDigit, rest.dropWhile Char.isDigit)
    else ([], c :: rest)

/-- The sign of an exponent. -/
def scanExpSign : Str → Str × Str
  | '-' :: rest => (['-'], rest)
  | '+' :: rest => (['+'], rest)
  | s => ([], s)

/-- `([eE][-+]?[0-9]+)?`. -/
def scanExp : Str → Str × Str
  | [] => ([], [])
  | c :: rest =>
    if (c = 'e' ∨ c = 'E') ∧ (scanExpSign rest).2.takeWhile Char.isDigit ≠ [] then
      (c :: ((scanExpSign rest).1 ++ (scanExpSign rest).2.takeWhile Char.isDigit),
        (scanExpSign rest).2.dropWhile Char.isDigit)
    else ([], c :: rest)

/-- A number literal: its sign and whole part, its fraction and its exponent. -/
structure Literal : Type where
  /-- `-` or nothing -/
  sign : Str
  /-- the digits before the point -/
  whole : Str
  /-- the point and the digits after it -/
  frac : Str
  /-- the exponent -/
  exp : Str

/-- The text of a literal. -/
def Literal.text (l : Literal) : Str := l.sign ++ (l.whole ++ (l.frac ++ l.exp))

/-- `NUMBER_RE.match`: the literal a text begins with, and what follows it. -/
def scanNumber (s : Str) : Option (Literal × Str) :=
  (scanWhole (scanSign s).2).map fun w =>
    (⟨(scanSign s).1, w.1, (scanFrac w.2).1, (scanExp (scanFrac w.2).2).1⟩,
      (scanExp (scanFrac w.2).2).2)

/-- The form of a literal, part by part. -/
structure Literal.Valid (l : Literal) : Prop where
  /-- a minus or nothing -/
  sign : l.sign = [] ∨ l.sign = ['-']
  /-- one zero, or digits that begin with another -/
  whole : l.whole = ['0'] ∨
    ∃ c ds, l.whole = c :: ds ∧ c ≠ '0' ∧ c.isDigit = true ∧ ∀ d ∈ ds, d.isDigit = true
  /-- nothing, or a point and digits -/
  frac : l.frac = [] ∨ ∃ ds, l.frac = '.' :: ds ∧ ds ≠ [] ∧ ∀ d ∈ ds, d.isDigit = true
  /-- nothing, or an `e`, perhaps a sign, and digits -/
  exp : l.exp = [] ∨ ∃ e sign ds, l.exp = e :: (sign ++ ds) ∧ (e = 'e' ∨ e = 'E') ∧
    (sign = [] ∨ sign = ['-'] ∨ sign = ['+']) ∧ ds ≠ [] ∧ ∀ d ∈ ds, d.isDigit = true

/-- The literal is read as a `float`. -/
def Literal.isFloat (l : Literal) : Bool := !(l.frac.isEmpty && l.exp.isEmpty)

/-- A text that is read as a `float`, and not as `Infinity` or `NaN`. -/
def FloatLiteral (t : Str) : Prop := ∃ l : Literal, l.Valid ∧ l.isFloat = true ∧ l.text = t

/-- The floats. -/
structure Floats : Type where
  /-- `repr(float(t))` -/
  reprOf : Str → Str
  /-- it is that of an infinity, or a literal of the same float -/
  reprOf_literal : ∀ t, FloatLiteral t → reprOf t = "inf".toList ∨ reprOf t = "-inf".toList ∨
    FloatLiteral (reprOf t) ∧ reprOf (reprOf t) = reprOf t

/-- Floats that are their own `repr`. -/
def Floats.plain : Floats where
  reprOf t := t
  reprOf_literal _ ht := .inr (.inr ⟨ht, rfl⟩)

/-- `int(t)`, of a literal. -/
def readInt (sign whole : Str) : ℤ :=
  if sign = ['-'] then -(Nat.ofDigitChars 10 whole 0 : ℤ) else Nat.ofDigitChars 10 whole 0

/-! ## Reading -/

/-- How `json.loads` fails. -/
inductive LoadsError : Type where
  /-- `JSONDecodeError` -/
  | decode
  /-- the `ValueError` about an integer with too many digits -/
  | digits
  /-- an unpaired surrogate, where the model stops -/
  | surrogate
  deriving DecidableEq

/-- `[ \t\n\r]`. -/
def isBlank (c : Char) : Bool := c == ' ' || c == '\t' || c == '\n' || c == '\r'

/-- Skip the white space. -/
def skipBlank (s : Str) : Str := s.dropWhile isBlank

/-- Four hexadecimal digits, and what follows them. -/
def readHex4 : Str → Option (ℕ × Str)
  | a :: b :: c :: d :: rest =>
    match hexVal a, hexVal b, hexVal c, hexVal d with
    | some a, some b, some c, some d => some (((a * 16 + b) * 16 + c) * 16 + d, rest)
    | _, _, _, _ => none
  | _ => none

/-- `BACKSLASH`. -/
def backslash (c : Char) : Option Char :=
  if c = '\x22' ∨ c = '\\' ∨ c = '/' then some c
  else if c = 'b' then some (Char.ofNat 8)
  else if c = 'f' then some (Char.ofNat 12)
  else if c = 'n' then some '\n'
  else if c = 'r' then some '\r'
  else if c = 't' then some '\t'
  else none

/-- The second half of a surrogate pair. -/
def scanLow (high : ℕ) : Str → Except LoadsError (Char × Str)
  | '\\' :: 'u' :: rest =>
    match readHex4 rest with
    | none => .error .decode
    | some (low, rest) =>
      if 0xDC00 ≤ low ∧ low ≤ 0xDFFF then
        .ok (Char.ofNat (0x10000 + (high - 0xD800) * 0x400 + (low - 0xDC00)), rest)
      else .error .surrogate
  | _ => .error .surrogate

/-- An escape, after its backslash. -/
def scanEscape : Str → Except LoadsError (Char × Str)
  | [] => .error .decode
  | c :: rest =>
    if c = 'u' then
      match readHex4 rest with
      | none => .error .decode
      | some (n, rest) =>
        if 0xD800 ≤ n ∧ n ≤ 0xDBFF then scanLow n rest
        else if 0xDC00 ≤ n ∧ n ≤ 0xDFFF then .error .surrogate
        else .ok (Char.ofNat n, rest)
    else
      match backslash c with
      | some d => .ok (d, rest)
      | none => .error .decode

/-- `scanstring`, after the opening quote, with a bound on its length. -/
def scanChars : ℕ → Str → Except LoadsError (Str × Str)
  | 0, _ => .error .decode
  | _ + 1, [] => .error .decode
  | n + 1, c :: rest =>
    if c = '\x22' then .ok ([], rest)
    else if c = '\\' then
      match scanEscape rest with
      | .error e => .error e
      | .ok (d, rest) => (scanChars n rest).map fun r => (d :: r.1, r.2)
    else if c.toNat < 32 then .error .decode
    else (scanChars n rest).map fun r => (c :: r.1, r.2)

/-- `scanstring`. -/
def scanString (s : Str) : Except LoadsError (Str × Str) := scanChars s.length s

/-- The words of the language. -/
def constants : List (Str × Value) :=
  [("null".toList, .none), ("true".toList, .bool true), ("false".toList, .bool false),
    ("NaN".toList, .float "nan".toList), ("Infinity".toList, .float "inf".toList),
    ("-Infinity".toList, .float "-inf".toList)]

variable (F : Floats)

/-- What a literal is read as. -/
def Literal.value (l : Literal) : Except LoadsError Value :=
  if l.isFloat then .ok (.float (F.reprOf l.text))
  else if maxStrDigits < l.whole.length then .error .digits
  else .ok (.int (readInt l.sign l.whole))

/-- A number or a word. -/
def scanAtom (s : Str) : Except LoadsError (Value × Str) :=
  match scanNumber s with
  | some (l, rest) => (l.value F).map fun v => (v, rest)
  | none =>
    match constants.find? fun k => k.1.isPrefixOf s with
    | some k => .ok (k.2, s.drop k.1.length)
    | none => .error .decode

mutual

/-- `scan_once`, with a bound on its steps. -/
def scanValue : ℕ → Str → Except LoadsError (Value × Str)
  | 0, _ => .error .decode
  | _ + 1, [] => .error .decode
  | n + 1, c :: rest =>
    if c = '\x22' then (scanString rest).map fun r => (.str r.1, r.2)
    else if c = '[' then
      match skipBlank rest with
      | ']' :: rest => .ok (.seq [], rest)
      | rest => scanElements n [] rest
    else if c = '\x7b' then
      match skipBlank rest with
      | '\x7d' :: rest => .ok (.dict [], rest)
      | '\x22' :: rest => scanMembers n [] rest
      | _ => .error .decode
    else scanAtom F (c :: rest)

/-- The loop of `JSONArray`. -/
def scanElements : ℕ → List Value → Str → Except LoadsError (Value × Str)
  | 0, _, _ => .error .decode
  | n + 1, items, s =>
    match scanValue n s with
    | .error e => .error e
    | .ok (v, rest) =>
      match skipBlank rest with
      | ']' :: rest => .ok (.seq (items ++ [v]), rest)
      | ',' :: rest => scanElements n (items ++ [v]) (skipBlank rest)
      | _ => .error .decode

/-- The loop of `JSONObject`, after the opening quote of a name. -/
def scanMembers : ℕ → List (Str × Value) → Str → Except LoadsError (Value × Str)
  | 0, _, _ => .error .decode
  | n + 1, items, s =>
    match scanString s with
    | .error e => .error e
    | .ok (key, rest) =>
      match skipBlank rest with
      | ':' :: rest =>
        match scanValue n (skipBlank rest) with
        | .error e => .error e
        | .ok (v, rest) =>
          match skipBlank rest with
          | '\x7d' :: rest => .ok (.dict (setItem items key v), rest)
          | ',' :: rest =>
            match skipBlank rest with
            | '\x22' :: rest => scanMembers n (setItem items key v) rest
            | _ => .error .decode
          | _ => .error .decode
      | _ => .error .decode

end

/-- `json.loads(s)`. -/
def loads (s : Str) : Except LoadsError Value :=
  if s.head? = some '\ufeff' then .error .decode
  else
    match scanValue F (2 * s.length) (skipBlank s) with
    | .error e => .error e
    | .ok (v, rest) => if skipBlank rest = [] then .ok v else .error .decode

/-! ## Writing -/

/-- The white space of an encoder, by the depth of the container it is in. -/
structure Layout : Type where
  /-- after an opening bracket -/
  opening : ℕ → Str
  /-- after a comma -/
  between : ℕ → Str
  /-- before a closing bracket -/
  closing : ℕ → Str
  /-- it is white space -/
  blank_opening : ∀ n, ∀ c ∈ opening n, isBlank c = true
  /-- all of it -/
  blank_between : ∀ n, ∀ c ∈ between n, isBlank c = true
  /-- and before a bracket too -/
  blank_closing : ∀ n, ∀ c ∈ closing n, isBlank c = true

/-- On one line. -/
def Layout.line : Layout where
  opening _ := []
  between _ := [' ']
  closing _ := []
  blank_opening := by simp
  blank_between := by simp [isBlank]
  blank_closing := by simp

/-- `newline_indent`. -/
def newlineIndent (width n : ℕ) : Str := '\n' :: List.replicate (width * n) ' '

theorem blank_newlineIndent (width n : ℕ) : ∀ c ∈ newlineIndent width n, isBlank c = true := by
  intro c hc
  rcases List.mem_cons.mp hc with rfl | hc
  · rfl
  · rw [List.eq_of_mem_replicate hc]
    rfl

/-- `indent=width`. -/
def Layout.indented (width : ℕ) : Layout where
  opening n := newlineIndent width (n + 1)
  between n := newlineIndent width (n + 1)
  closing n := newlineIndent width n
  blank_opening n := blank_newlineIndent width (n + 1)
  blank_between n := blank_newlineIndent width (n + 1)
  blank_closing n := blank_newlineIndent width n

/-- A character inside a string, with `ensure_ascii=False`. -/
def escapeChar (c : Char) : Str :=
  if c = '\x22' then "\\\x22".toList
  else if c = '\\' then "\\\\".toList
  else if c = '\n' then "\\n".toList
  else if c = '\r' then "\\r".toList
  else if c = '\t' then "\\t".toList
  else if c.toNat = 8 then "\\b".toList
  else if c.toNat = 12 then "\\f".toList
  else if c.toNat < 32 then "\\u".toList ++ hex 4 c.toNat
  else [c]

/-- A string. -/
def quoted (s : Str) : Str := '\x22' :: (s.flatMap escapeChar ++ ['\x22'])

/-- `floatstr`. -/
def floatText (t : Str) : Str :=
  if t = "nan".toList then "NaN".toList
  else if t = "inf".toList then "Infinity".toList
  else if t = "-inf".toList then "-Infinity".toList
  else t

variable (L : Layout)

mutual

/-- The text of a value at a depth; meaningful where `serializable` holds. -/
def encode (n : ℕ) : Value → Str
  | .none => "null".toList
  | .bool true => "true".toList
  | .bool false => "false".toList
  | .int i => (toString i).toList
  | .float t => floatText t
  | .str s => quoted s
  | .bytes _ => []
  | .dict [] => "\x7b\x7d".toList
  | .dict ((k, v) :: items) =>
    '\x7b' :: (L.opening n ++ (quoted k ++ ": ".toList ++ encode (n + 1) v ++ encodeMembers n items))
  | .seq [] => "[]".toList
  | .seq (v :: items) => '[' :: (L.opening n ++ (encode (n + 1) v ++ encodeElements n items))
  | .other _ _ => []

/-- What follows a member of an object, to its end. -/
def encodeMembers (n : ℕ) : List (Str × Value) → Str
  | [] => L.closing n ++ ['\x7d']
  | (k, v) :: items =>
    ',' :: (L.between n ++ (quoted k ++ ": ".toList ++ encode (n + 1) v ++ encodeMembers n items))

/-- What follows an element of an array, to its end. -/
def encodeElements (n : ℕ) : List Value → Str
  | [] => L.closing n ++ [']']
  | v :: items => ',' :: (L.between n ++ (encode (n + 1) v ++ encodeElements n items))

end

mutual

/-- Does `json.dumps` return? -/
def serializable : Value → Bool
  | .int i => (toString i.natAbs).length ≤ maxStrDigits
  | .bytes _ => false
  | .dict items => serializableItems items
  | .seq items => serializableSeq items
  | .other _ _ => false
  | _ => true

/-- For the members of an object. -/
def serializableItems : List (Str × Value) → Bool
  | [] => true
  | (_, v) :: items => serializable v && serializableItems items

/-- For the elements of an array. -/
def serializableSeq : List Value → Bool
  | [] => true
  | v :: items => serializable v && serializableSeq items

end

/-- `json.dumps(v, ensure_ascii=False)` in a layout, `none` where it raises. -/
def dumpsUnicode (v : Value) : Option Str :=
  if serializable v then some (encode L 0 v) else none

/-! ## Documents -/

variable {F}

/-- A value that a JSON text can hold. -/
inductive IsJson (F : Floats) : Value → Prop where
  /-- `null` -/
  | none : IsJson F .none
  /-- `true` and `false` -/
  | bool (b : Bool) : IsJson F (.bool b)
  /-- an integer that can be converted to a string and back -/
  | int (i : ℤ) (hdigits : (toString i.natAbs).length ≤ maxStrDigits) : IsJson F (.int i)
  /-- `nan` or an infinity -/
  | special (t : Str) (ht : t = "nan".toList ∨ t = "inf".toList ∨ t = "-inf".toList) :
    IsJson F (.float t)
  /-- a finite float, by its `repr` -/
  | float (t : Str) (ht : FloatLiteral t) (hrepr : F.reprOf t = t) : IsJson F (.float t)
  /-- a string -/
  | str (s : Str) : IsJson F (.str s)
  /-- an array -/
  | seq (items : List Value) (hitems : ∀ v ∈ items, IsJson F v) : IsJson F (.seq items)
  /-- an object -/
  | dict (items : List (Str × Value)) (hnodup : (keysOf items).Nodup)
      (hitems : ∀ x ∈ items, IsJson F x.2) : IsJson F (.dict items)

/-! ### White space -/

theorem skipBlank_append {w : Str} (hw : ∀ c ∈ w, isBlank c = true) (s : Str) :
    skipBlank (w ++ s) = skipBlank s :=
  List.dropWhile_append_of_pos hw

theorem skipBlank_cons {c : Char} (hc : isBlank c = false) (s : Str) :
    skipBlank (c :: s) = c :: s := by
  rw [skipBlank, List.dropWhile_cons, hc]
  rfl

/-! ### Numbers -/

/-- No number goes on with the text. -/
def EndsNumber (s : Str) : Prop :=
  ∀ c, s.head? = some c → c.isDigit = false ∧ c ≠ '.' ∧ c ≠ 'e' ∧ c ≠ 'E'

theorem takeWhile_digits {ds rest : Str} (hds : ∀ d ∈ ds, d.isDigit = true)
    (hrest : ∀ c, rest.head? = some c → c.isDigit = false) :
    (ds ++ rest).takeWhile Char.isDigit = ds ∧ (ds ++ rest).dropWhile Char.isDigit = rest := by
  rw [List.takeWhile_append_of_pos hds, List.dropWhile_append_of_pos hds]
  cases rest with
  | nil => simp
  | cons c rest => simp [hrest c rfl]

theorem scanSign_append {sign s : Str} (hsign : sign = [] ∨ sign = ['-'])
    (hs : s.head? ≠ some '-') : scanSign (sign ++ s) = (sign, s) := by
  obtain rfl | rfl := hsign
  · unfold scanSign
    split
    · next heq =>
      rw [List.nil_append] at heq
      rw [heq] at hs
      exact absurd rfl hs
    · rfl
  · rfl

theorem scanWhole_append {whole s : Str} (hwhole : whole = ['0'] ∨
      ∃ c ds, whole = c :: ds ∧ c ≠ '0' ∧ c.isDigit = true ∧ ∀ d ∈ ds, d.isDigit = true)
    (hs : ∀ c, s.head? = some c → c.isDigit = false) : scanWhole (whole ++ s) = some (whole, s) := by
  obtain rfl | ⟨c, ds, rfl, hzero, hc, hds⟩ := hwhole
  · rfl
  · obtain ⟨htake, hdrop⟩ := takeWhile_digits hds hs
    simp only [List.cons_append, scanWhole, if_neg hzero, hc, if_true, htake, hdrop]

theorem scanFrac_append {frac s : Str}
    (hfrac : frac = [] ∨ ∃ ds, frac = '.' :: ds ∧ ds ≠ [] ∧ ∀ d ∈ ds, d.isDigit = true)
    (hs : ∀ c, s.head? = some c → c.isDigit = false ∧ c ≠ '.') :
    scanFrac (frac ++ s) = (frac, s) := by
  obtain rfl | ⟨ds, rfl, hne, hds⟩ := hfrac
  · cases s with
    | nil => rfl
    | cons c s =>
      rw [List.nil_append, scanFrac, if_neg]
      rintro ⟨hc, -⟩
      exact (hs c rfl).2 hc
  · obtain ⟨htake, hdrop⟩ := takeWhile_digits hds fun c hc => (hs c hc).1
    rw [List.cons_append, scanFrac, htake, hdrop, if_pos ⟨rfl, hne⟩]

theorem scanExpSign_append {sign s : Str} (hsign : sign = [] ∨ sign = ['-'] ∨ sign = ['+'])
    (hs : s.head? ≠ some '-' ∧ s.head? ≠ some '+') : scanExpSign (sign ++ s) = (sign, s) := by
  obtain rfl | rfl | rfl := hsign
  · unfold scanExpSign
    split
    · next heq =>
      rw [List.nil_append] at heq
      rw [heq] at hs
      exact absurd rfl hs.1
    · next heq =>
      rw [List.nil_append] at heq
      rw [heq] at hs
      exact absurd rfl hs.2
    · rfl
  · rfl
  · rfl

/-- A text that begins with digits has no sign. -/
theorem head_ne_of_digits {ds s : Str} {c : Char} (hne : ds ≠ [])
    (hds : ∀ d ∈ ds, d.isDigit = true) (hc : c.isDigit = false) : (ds ++ s).head? ≠ some c := by
  cases ds with
  | nil => exact absurd rfl hne
  | cons d ds =>
    intro heq
    obtain rfl := Option.some.inj heq
    rw [hds d List.mem_cons_self] at hc
    cases hc

theorem scanExp_append {exp s : Str} (hexp : exp = [] ∨ ∃ e sign ds, exp = e :: (sign ++ ds) ∧
      (e = 'e' ∨ e = 'E') ∧ (sign = [] ∨ sign = ['-'] ∨ sign = ['+']) ∧ ds ≠ [] ∧
      ∀ d ∈ ds, d.isDigit = true) (hs : EndsNumber s) : scanExp (exp ++ s) = (exp, s) := by
  obtain rfl | ⟨e, sign, ds, rfl, he, hsign, hne, hds⟩ := hexp
  · cases s with
    | nil => rfl
    | cons c s =>
      rw [List.nil_append, scanExp, if_neg]
      rintro ⟨hc | hc, -⟩
      · exact (hs c rfl).2.2.1 hc
      · exact (hs c rfl).2.2.2 hc
  · obtain ⟨htake, hdrop⟩ := takeWhile_digits hds fun c hc => (hs c hc).1
    have hsplit : scanExpSign (sign ++ (ds ++ s)) = (sign, ds ++ s) :=
      scanExpSign_append hsign ⟨head_ne_of_digits hne hds rfl, head_ne_of_digits hne hds rfl⟩
    simp only [List.cons_append, List.append_assoc, scanExp, hsplit, htake, hdrop]
    rw [if_pos ⟨he, hne⟩]

/-- What follows the fraction begins with no digit and no point, -/
theorem Literal.Valid.head_exp {l : Literal} (hl : l.Valid) {s : Str} (hs : EndsNumber s) :
    ∀ c, (l.exp ++ s).head? = some c → c.isDigit = false ∧ c ≠ '.' := by
  intro c hc
  obtain hexp | ⟨e, sign, ds, hexp, he, -⟩ := hl.exp
  · rw [hexp] at hc
    exact ⟨(hs c hc).1, (hs c hc).2.1⟩
  · rw [hexp] at hc
    obtain rfl := Option.some.inj hc
    obtain rfl | rfl := he <;> decide

/-- and what follows the whole part with no digit. -/
theorem Literal.Valid.head_frac {l : Literal} (hl : l.Valid) {s : Str} (hs : EndsNumber s) :
    ∀ c, (l.frac ++ (l.exp ++ s)).head? = some c → c.isDigit = false := by
  intro c hc
  obtain hfrac | ⟨ds, hfrac, -⟩ := hl.frac
  · rw [hfrac] at hc
    exact (hl.head_exp hs c hc).1
  · rw [hfrac] at hc
    obtain rfl := Option.some.inj hc
    rfl

/-- **A literal is read to its end.** -/
theorem scanNumber_text {l : Literal} (hl : l.Valid) {s : Str} (hs : EndsNumber s) :
    scanNumber (l.text ++ s) = some (l, s) := by
  have hhead : (l.whole ++ (l.frac ++ (l.exp ++ s))).head? ≠ some '-' := by
    obtain hwhole | ⟨c, ds, hwhole, -, hc, -⟩ := hl.whole
    · rw [hwhole]
      exact fun heq => absurd (Option.some.inj heq) (by decide)
    · rw [hwhole]
      intro heq
      obtain rfl := Option.some.inj heq
      cases hc
  simp only [scanNumber, Literal.text, List.append_assoc, scanSign_append hl.sign hhead,
    scanWhole_append hl.whole (hl.head_frac hs), scanFrac_append hl.frac (hl.head_exp hs),
    scanExp_append hl.exp hs, Option.map_some]

theorem forall_takeWhile_isDigit (s : Str) : ∀ d ∈ s.takeWhile Char.isDigit, d.isDigit = true :=
  fun _ hd => List.mem_takeWhile_imp hd

/-- What is read as a number has the form of one. -/
theorem valid_of_scanNumber {s rest : Str} {l : Literal} (h : scanNumber s = some (l, rest)) :
    l.Valid := by
  obtain ⟨⟨whole, after⟩, hwhole, heq⟩ := Option.map_eq_some_iff.mp h
  cases heq
  refine ⟨?_, ?_, ?_, ?_⟩
  · dsimp only
    unfold scanSign
    split
    · exact .inr rfl
    · exact .inl rfl
  · generalize (scanSign s).2 = body at hwhole
    cases body with
    | nil => cases hwhole
    | cons c body =>
      simp only [scanWhole] at hwhole
      split at hwhole
      · cases hwhole
        exact .inl rfl
      · next hzero =>
        split at hwhole
        · next hc =>
          cases hwhole
          exact .inr ⟨c, _, rfl, hzero, hc, forall_takeWhile_isDigit body⟩
        · cases hwhole
  · cases after with
    | nil => exact .inl rfl
    | cons c after =>
      simp only [scanFrac]
      split
      · next hc => exact .inr ⟨_, by rw [hc.1], hc.2, forall_takeWhile_isDigit after⟩
      · exact .inl rfl
  · generalize (scanFrac after).2 = body
    cases body with
    | nil => exact .inl rfl
    | cons c body =>
      simp only [scanExp]
      split
      · next hc =>
        refine .inr ⟨c, _, _, rfl, hc.1, ?_, hc.2, forall_takeWhile_isDigit _⟩
        unfold scanExpSign
        split
        · exact .inr (.inl rfl)
        · exact .inr (.inr rfl)
        · exact .inl rfl
      · exact .inl rfl

/-- The literal of an integer. -/
def intLiteral : ℤ → Literal
  | .ofNat n => ⟨[], decimal n, [], []⟩
  | .negSucc n => ⟨['-'], decimal (n + 1), [], []⟩

theorem valid_intLiteral (i : ℤ) : (intLiteral i).Valid := by
  cases i with
  | ofNat n => exact ⟨.inl rfl, decimal_whole n, .inl rfl, .inl rfl⟩
  | negSucc n => exact ⟨.inr rfl, decimal_whole (n + 1), .inl rfl, .inl rfl⟩

theorem text_intLiteral (i : ℤ) : (intLiteral i).text = (toString i).toList := by
  cases i with
  | ofNat n => simp [intLiteral, Literal.text, decimal, toString, Int.repr]
  | negSucc n => simp [intLiteral, Literal.text, decimal, toString, Int.repr]

theorem whole_intLiteral (i : ℤ) : (intLiteral i).whole = decimal i.natAbs := by
  cases i <;> rfl

theorem isFloat_intLiteral (i : ℤ) : (intLiteral i).isFloat = false := by
  cases i <;> rfl

theorem readInt_intLiteral (i : ℤ) : readInt (intLiteral i).sign (intLiteral i).whole = i := by
  cases i with
  | ofNat n =>
    have hread : Nat.ofDigitChars 10 (decimal n) 0 = n := Nat.ofDigitChars_ten_toDigits
    simp [intLiteral, readInt, hread]
  | negSucc n =>
    have hread : Nat.ofDigitChars 10 (decimal (n + 1)) 0 = n + 1 := Nat.ofDigitChars_ten_toDigits
    simp [intLiteral, readInt, hread]
    omega

theorem natAbs_readInt (sign whole : Str) :
    (readInt sign whole).natAbs = Nat.ofDigitChars 10 whole 0 := by
  unfold readInt
  split <;> simp

theorem Literal.Valid.whole_digits {l : Literal} (hl : l.Valid) :
    ∀ d ∈ l.whole, d.isDigit = true := by
  obtain hwhole | ⟨c, ds, hwhole, -, hc, hds⟩ := hl.whole
  · rw [hwhole]
    intro d hd
    obtain rfl := List.mem_singleton.mp hd
    rfl
  · rw [hwhole]
    exact List.forall_mem_cons.mpr ⟨hc, hds⟩

/-- An integer that could be read can be written. -/
theorem Literal.Valid.digits_le {l : Literal} (hl : l.Valid)
    (hlength : l.whole.length ≤ maxStrDigits) :
    (toString (readInt l.sign l.whole).natAbs).length ≤ maxStrDigits := by
  rw [natAbs_readInt, Nat.toString_eq_repr, Nat.length_repr_le_iff (by decide)]
  calc Nat.ofDigitChars 10 l.whole 0
      < (0 + 1) * 10 ^ l.whole.length := ofDigitChars_lt hl.whole_digits 0
    _ ≤ 10 ^ maxStrDigits := by
      rw [zero_add, one_mul]
      exact Nat.pow_le_pow_right (by decide) hlength

/-! ### Strings -/

theorem readHex4_hex : ∀ n < 32, readHex4 (hex 4 n) = some (n, []) := by
  decide

theorem readHex4_append {s rest : Str} {n : ℕ} (h : readHex4 s = some (n, [])) :
    readHex4 (s ++ rest) = some (n, rest) := by
  match s, h with
  | a :: b :: c :: d :: [], h =>
    simp only [readHex4, List.cons_append, List.nil_append] at h ⊢
    split at h
    · cases h
      rfl
    · cases h
  | a :: b :: c :: d :: e :: s, h =>
    simp only [readHex4] at h
    split at h <;> simp at h

/-- A character is read back from its escape, -/
theorem scanChars_escapeChar (n : ℕ) (c : Char) (rest : Str) :
    scanChars (n + 1) (escapeChar c ++ rest) =
      (scanChars n rest).map fun r => (c :: r.1, r.2) := by
  unfold escapeChar
  split
  · next h => subst h; rfl
  split
  · next h => subst h; rfl
  split
  · next h => subst h; rfl
  split
  · next h => subst h; rfl
  split
  · next h => subst h; rfl
  split
  · next h =>
    obtain rfl : c = Char.ofNat 8 := by rw [← h, Char.ofNat_toNat]
    rfl
  split
  · next h =>
    obtain rfl : c = Char.ofNat 12 := by rw [← h, Char.ofNat_toNat]
    rfl
  split
  · next hcontrol =>
    have hread : readHex4 (hex 4 c.toNat ++ rest) = some (c.toNat, rest) :=
      readHex4_append (readHex4_hex _ hcontrol)
    have hescape : scanEscape ('u' :: (hex 4 c.toNat ++ rest)) = .ok (c, rest) := by
      simp only [scanEscape, if_true, hread]
      rw [if_neg (by omega), if_neg (by omega), Char.ofNat_toNat]
    have htext : "\\u".toList ++ hex 4 c.toNat ++ rest = '\\' :: 'u' :: (hex 4 c.toNat ++ rest) :=
      rfl
    rw [htext, scanChars, if_neg (by decide), if_pos rfl, hescape]
  · next hquote hback hn hr ht hb hf hcontrol =>
    simp only [List.cons_append, List.nil_append, scanChars, if_neg hquote, if_neg hback,
      if_neg hcontrol]

/-- and a string from its text. -/
theorem scanChars_flatMap {n : ℕ} {s : Str} (hn : s.length < n) (rest : Str) :
    scanChars n (s.flatMap escapeChar ++ '\x22' :: rest) = .ok (s, rest) := by
  induction s generalizing n with
  | nil =>
    obtain ⟨n, rfl⟩ : ∃ m, n = m + 1 := ⟨n - 1, by omega⟩
    rfl
  | cons c s ih =>
    rw [List.length_cons] at hn
    obtain ⟨n, rfl⟩ : ∃ m, n = m + 1 := ⟨n - 1, by omega⟩
    rw [List.flatMap_cons, List.append_assoc, scanChars_escapeChar, ih (by omega)]
    rfl

theorem escapeChar_ne_nil (c : Char) : escapeChar c ≠ [] := by
  unfold escapeChar
  repeat' split
  all_goals simp

theorem length_le_flatMap (s : Str) : s.length ≤ (s.flatMap escapeChar).length := by
  induction s with
  | nil => exact le_rfl
  | cons c s ih =>
    have hpos := List.length_pos_of_ne_nil (escapeChar_ne_nil c)
    rw [List.flatMap_cons, List.length_append, List.length_cons]
    omega

theorem scanString_quoted (s rest : Str) :
    scanString (s.flatMap escapeChar ++ '\x22' :: rest) = .ok (s, rest) := by
  refine scanChars_flatMap ?_ rest
  have := length_le_flatMap s
  rw [List.length_append, List.length_cons]
  omega

end JsonText

end DjangoBoilerplate
