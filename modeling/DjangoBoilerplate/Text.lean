import Mathlib.Data.List.DropRight
import Mathlib.Tactic

/-!
# Python strings

A `str` is modelled as the list of its code points, so that slicing, length and
concatenation are those of lists. Only what the modelled functions use of the
string library is here.
-/

namespace DjangoBoilerplate

/-- A Python `str`: the sequence of its code points. -/
abbrev Str : Type := List Char

-- a constant of its own, so that the definitions that test membership all name the same proof
instance : LawfulBEq Str := inferInstance

namespace Str

/-- `str.isascii()`. -/
def isAscii (s : Str) : Bool :=
  s.all fun c => c.toNat < 128

/-- `s[:i]`, where a negative `i` counts from the end. -/
def sliceTo (s : Str) (i : ℤ) : Str :=
  if 0 ≤ i then s.take i.toNat else s.take (s.length + i).toNat

/-- `s[i:]`, where a negative `i` counts from the end. -/
def sliceFrom (s : Str) (i : ℤ) : Str :=
  if 0 ≤ i then s.drop i.toNat else s.drop (s.length + i).toNat

/-- `s.replace(c, new)` for a single character. -/
def replaceChar (s : Str) (c : Char) (new : Str) : Str :=
  s.flatMap fun x => if x = c then new else [x]

/-- `sep.join(parts)`. -/
def join (sep : Str) (parts : List Str) : Str := sep.intercalate parts

/-- Every part but the first comes after a separator. -/
theorem join_cons (sep part : Str) (parts : List Str) :
    join sep (part :: parts) = part ++ parts.flatMap fun p => sep ++ p := by
  induction parts generalizing part with
  | nil => simp [join, List.intercalate]
  | cons p parts ih =>
    rw [List.flatMap_cons, List.append_assoc sep p, ← ih p]
    simp [join, List.intercalate]

/-- Between two lists of parts there is a separator. -/
theorem join_append (sep : Str) {parts parts' : List Str} (h : parts ≠ []) (h' : parts' ≠ []) :
    join sep (parts ++ parts') = join sep parts ++ (sep ++ join sep parts') := by
  cases parts with
  | nil => exact absurd rfl h
  | cons first parts =>
    cases parts' with
    | nil => exact absurd rfl h'
    | cons first' parts' =>
      rw [List.cons_append, join_cons, join_cons, join_cons, List.flatMap_append,
        List.flatMap_cons, List.append_assoc, List.append_assoc]

theorem join_singleton (sep part : Str) : join sep [part] = part := by
  rw [join_cons, List.flatMap_nil, List.append_nil]

/-- A last part comes after a separator. -/
theorem join_concat (sep part : Str) {parts : List Str} (h : parts ≠ []) :
    join sep (parts ++ [part]) = join sep parts ++ (sep ++ part) := by
  rw [join_append sep h (List.cons_ne_nil _ _), join_singleton]

/-- Adding to the last part adds to the whole. -/
theorem join_concat_append (sep part more : Str) (parts : List Str) :
    join sep (parts ++ [part ++ more]) = join sep (parts ++ [part]) ++ more := by
  cases parts with
  | nil => simp [join]
  | cons first parts =>
    rw [join_concat sep _ (List.cons_ne_nil _ _), join_concat sep _ (List.cons_ne_nil _ _)]
    simp

theorem mem_join {sep part : Str} {parts : List Str} (h : part ∈ parts) {c : Char} (hc : c ∈ part) :
    c ∈ join sep parts := by
  cases parts with
  | nil => cases h
  | cons first parts =>
    rw [join_cons, List.mem_append]
    rcases List.mem_cons.mp h with rfl | h
    · exact .inl hc
    · exact .inr (List.mem_flatMap.mpr ⟨part, h, List.mem_append_right _ hc⟩)

theorem replaceChar_append (x y : Str) (c : Char) (new : Str) :
    replaceChar (x ++ y) c new = replaceChar x c new ++ replaceChar y c new :=
  List.flatMap_append

theorem replaceChar_of_not_mem {s : Str} {c : Char} (h : c ∉ s) (new : Str) :
    replaceChar s c new = s := by
  induction s with
  | nil => rfl
  | cons x s ih =>
    obtain ⟨hne, hs⟩ := List.ne_and_not_mem_of_not_mem_cons h
    rw [replaceChar, List.flatMap_cons, if_neg (Ne.symm hne), ← replaceChar, ih hs]
    rfl

/-- Another separator in place of the first. -/
theorem replaceChar_join {sep : Char} {new : Str} {parts : List Str}
    (h : ∀ part ∈ parts, sep ∉ part) :
    replaceChar (join [sep] parts) sep new = join new parts := by
  have hsep : replaceChar [sep] sep new = new := by simp [replaceChar]
  cases parts with
  | nil => rfl
  | cons first parts =>
    rw [join_cons, join_cons, replaceChar_append,
      replaceChar_of_not_mem (h first List.mem_cons_self)]
    congr 1
    rw [replaceChar, List.flatMap_assoc]
    refine List.flatMap_congr fun part hpart => ?_
    rw [← replaceChar, replaceChar_append, hsep,
      replaceChar_of_not_mem (h part (List.mem_cons_of_mem first hpart))]

/-- `s or default`. -/
def orDefault (s default : Str) : Str := if s = [] then default else s

/-- `s.split(sep)` for a single character. -/
def split (sep : Char) : Str → List Str
  | [] => [[]]
  | c :: s =>
    if c = sep then [] :: split sep s
    else
      match split sep s with
      | [] => [[c]]
      | part :: parts => (c :: part) :: parts

/-- `first, rest = s.split(sep, 1)`; `none` is the `ValueError` without a separator. -/
def splitOnce (sep : Char) : Str → Option (Str × Str)
  | [] => none
  | c :: s =>
    if c = sep then some ([], s) else (splitOnce sep s).map fun parts => (c :: parts.1, parts.2)

theorem split_of_not_mem {sep : Char} {s : Str} (h : sep ∉ s) : split sep s = [s] := by
  induction s with
  | nil => rfl
  | cons c s ih =>
    obtain ⟨hne, hs⟩ := List.ne_and_not_mem_of_not_mem_cons h
    rw [split, if_neg (Ne.symm hne), ih hs]

/-- What comes before the first separator is the first part. -/
theorem split_append_cons {sep : Char} {x : Str} (h : sep ∉ x) (y : Str) :
    split sep (x ++ sep :: y) = x :: split sep y := by
  induction x with
  | nil => simp [split]
  | cons c x ih =>
    obtain ⟨hne, hx⟩ := List.ne_and_not_mem_of_not_mem_cons h
    rw [List.cons_append, split, if_neg (Ne.symm hne), ih hx]

theorem split_ne_nil (sep : Char) (s : Str) : split sep s ≠ [] := by
  cases s with
  | nil => exact List.cons_ne_nil _ _
  | cons c s =>
    rw [split]
    split
    · exact List.cons_ne_nil _ _
    · split
      · exact List.cons_ne_nil _ _
      · exact List.cons_ne_nil _ _

/-- A string with a separator has two parts or more. -/
theorem exists_split_of_mem {sep : Char} {s : Str} (h : sep ∈ s) :
    ∃ x y parts, split sep s = x :: y :: parts := by
  obtain ⟨x, y, rfl, hx⟩ := List.eq_append_cons_of_mem h
  rw [split_append_cons hx]
  cases hy : split sep y with
  | nil => exact absurd hy (split_ne_nil sep y)
  | cons part parts => exact ⟨x, part, parts, rfl⟩

/-- One with a second separator has three or more. -/
theorem exists_split_of_mem_mem {sep : Char} {x y : Str} (h : sep ∈ x ∨ sep ∈ y) :
    ∃ a b c parts, split sep (x ++ sep :: y) = a :: b :: c :: parts := by
  by_cases hx : sep ∈ x
  · obtain ⟨a, b, rfl, ha⟩ := List.eq_append_cons_of_mem hx
    have hmem : sep ∈ b ++ sep :: y := List.mem_append_right b List.mem_cons_self
    obtain ⟨c, d, parts, hparts⟩ := exists_split_of_mem hmem
    refine ⟨a, c, d, parts, ?_⟩
    rw [List.append_assoc, List.cons_append, split_append_cons ha, hparts]
  · obtain ⟨c, d, parts, hparts⟩ := exists_split_of_mem (h.resolve_left hx)
    exact ⟨x, c, d, parts, by rw [split_append_cons hx, hparts]⟩

theorem split_append (sep : Char) (x y : Str) :
    split sep (x ++ sep :: y) = split sep x ++ split sep y := by
  induction x with
  | nil => simp [split]
  | cons c x ih =>
    rw [List.cons_append, split, split, ih]
    split
    · rfl
    · cases hx : split sep x with
      | nil => exact absurd hx (split_ne_nil sep x)
      | cons part parts => rfl

/-- The parts make up the string. -/
theorem join_split (sep : Char) (s : Str) : join [sep] (split sep s) = s := by
  induction s with
  | nil => rfl
  | cons c s ih =>
    cases hs : split sep s with
    | nil => exact absurd hs (split_ne_nil sep s)
    | cons part parts =>
      rw [hs, join_cons] at ih
      rw [split, hs]
      split
      · next hc =>
        rw [join_cons, List.flatMap_cons, List.append_assoc, ih, hc]
        rfl
      · rw [join_cons, List.cons_append, ih]

/-- A string begins with another one, up to a separator or the end, exactly if its parts begin with
those of the other. -/
theorem split_prefix_iff {sep : Char} {x s : Str} :
    split sep x <+: split sep s ↔ s = x ∨ x ++ [sep] <+: s := by
  constructor
  · rintro ⟨parts, hparts⟩
    have hs := join_split sep s
    rw [← hparts] at hs
    cases hx : split sep x with
    | nil => exact absurd hx (split_ne_nil sep x)
    | cons first rest =>
      have hjoin := join_split sep x
      rw [hx, join_cons] at hjoin
      rw [hx, List.cons_append, join_cons, List.flatMap_append, ← List.append_assoc, hjoin] at hs
      cases parts with
      | nil => exact .inl (by rw [← hs, List.flatMap_nil, List.append_nil])
      | cons part parts =>
        refine .inr ⟨part ++ parts.flatMap fun p => [sep] ++ p, ?_⟩
        rw [← hs, List.flatMap_cons]
        simp
  · rintro (rfl | ⟨y, rfl⟩)
    · exact List.prefix_refl _
    · rw [List.append_assoc, List.singleton_append, split_append]
      exact List.prefix_append _ _

/-- No part has a separator in it. -/
theorem not_mem_of_mem_split {sep : Char} {s part : Str} (h : part ∈ split sep s) : sep ∉ part := by
  induction s generalizing part with
  | nil =>
    rw [split, List.mem_singleton] at h
    rw [h]
    exact List.not_mem_nil
  | cons c s ih =>
    rw [split] at h
    split at h
    · rcases List.mem_cons.mp h with rfl | h
      · exact List.not_mem_nil
      · exact ih h
    · next hc =>
      cases hs : split sep s with
      | nil => exact absurd hs (split_ne_nil sep s)
      | cons first parts =>
        rw [hs] at h ih
        rcases List.mem_cons.mp h with rfl | h
        · exact List.not_mem_cons_of_ne_of_not_mem (Ne.symm hc) (ih List.mem_cons_self)
        · exact ih (List.mem_cons_of_mem first h)

/-- Joined parts are split again. -/
theorem split_join {sep : Char} {parts : List Str} (hne : parts ≠ [])
    (h : ∀ part ∈ parts, sep ∉ part) : split sep (join [sep] parts) = parts := by
  induction parts with
  | nil => exact absurd rfl hne
  | cons part parts ih =>
    have hpart := h part List.mem_cons_self
    cases parts with
    | nil =>
      rw [join_singleton]
      exact split_of_not_mem hpart
    | cons next parts =>
      have hjoin : join [sep] (part :: next :: parts) =
          part ++ sep :: join [sep] (next :: parts) := by
        rw [join_cons, join_cons]
        simp
      rw [hjoin, split_append_cons hpart, ih (List.cons_ne_nil _ _)]
      intro p hp
      exact h p (List.mem_cons_of_mem part hp)

/-- Different parts make up different strings. -/
theorem join_inj {sep : Char} {parts parts' : List Str} (hne : parts ≠ []) (hne' : parts' ≠ [])
    (h : ∀ part ∈ parts, sep ∉ part) (h' : ∀ part ∈ parts', sep ∉ part) :
    join [sep] parts = join [sep] parts' ↔ parts = parts' := by
  constructor
  · intro heq
    rw [← split_join hne h, heq, split_join hne' h']
  · rintro rfl
    rfl

theorem splitOnce_append_cons {sep : Char} {x : Str} (h : sep ∉ x) (y : Str) :
    splitOnce sep (x ++ sep :: y) = some (x, y) := by
  induction x with
  | nil => simp [splitOnce]
  | cons c x ih =>
    obtain ⟨hne, hx⟩ := List.ne_and_not_mem_of_not_mem_cons h
    rw [List.cons_append, splitOnce, if_neg (Ne.symm hne), ih hx]
    rfl

theorem splitOnce_eq_some {sep : Char} {s x y : Str} (h : splitOnce sep s = some (x, y)) :
    s = x ++ sep :: y ∧ sep ∉ x := by
  induction s generalizing x with
  | nil => cases h
  | cons c s ih =>
    rw [splitOnce] at h
    split at h
    · next hc =>
      cases h
      exact ⟨by rw [hc]; rfl, List.not_mem_nil⟩
    · next hc =>
      obtain ⟨⟨first, rest⟩, hsplit, heq⟩ := Option.map_eq_some_iff.mp h
      cases heq
      obtain ⟨rfl, hfirst⟩ := ih hsplit
      exact ⟨rfl, List.not_mem_cons_of_ne_of_not_mem (Ne.symm hc) hfirst⟩

/-- A text is cut at its first separator in one way only, -/
theorem append_cons_inj {sep : Char} {x x' y y' : Str} (hx : sep ∉ x) (hx' : sep ∉ x')
    (h : x ++ sep :: y = x' ++ sep :: y') : x = x' ∧ y = y' := by
  have hsplit := splitOnce_append_cons hx y
  rw [h, splitOnce_append_cons hx' y'] at hsplit
  injection hsplit with hsplit
  injection hsplit with hfirst hrest
  exact ⟨hfirst.symm, hrest.symm⟩

/-- and no later separator comes before it. -/
theorem append_cons_inj_of_length_le {sep : Char} {x x' y y' : Str} (hx' : sep ∉ x')
    (hle : x.length ≤ x'.length) (h : x ++ sep :: y = x' ++ sep :: y') : x = x' ∧ y = y' := by
  rcases List.append_eq_append_iff.mp h with ⟨z, rfl, hz⟩ | ⟨z, rfl, hz⟩
  · cases z with
    | nil => simpa using hz
    | cons c z =>
      injection hz with hc
      rw [← hc] at hx'
      exact absurd (List.mem_append_right x List.mem_cons_self) hx'
  · have hnil : z = [] := by
      rw [List.length_append] at hle
      exact List.length_eq_zero_iff.mp (by omega)
    subst hnil
    simpa using hz.symm

/-- Checking a string character by character. -/
theorem forall_mem_of_all {p : Char → Prop} [DecidablePred p] {s : Str}
    (h : (s.all fun c => decide (p c)) = true) : ∀ c ∈ s, p c :=
  fun c hc => of_decide_eq_true (List.all_eq_true.mp h c hc)

/-! ### Stripping -/

/-- `s.strip(chars)`: without the characters in question at either end. -/
def stripBy (p : Char → Bool) (s : Str) : Str := (s.dropWhile p).rdropWhile p

/-- `c.isspace()`. -/
def isSpace (c : Char) : Bool :=
  (9 ≤ c.toNat && c.toNat ≤ 13) || (0x1C ≤ c.toNat && c.toNat ≤ 0x20) || c.toNat == 0x85 ||
    c.toNat == 0xA0 || c.toNat == 0x1680 || (0x2000 ≤ c.toNat && c.toNat ≤ 0x200A) ||
    c.toNat == 0x2028 || c.toNat == 0x2029 || c.toNat == 0x202F || c.toNat == 0x205F ||
    c.toNat == 0x3000

/-- `s.strip()`. -/
def strip (s : Str) : Str := s.stripBy isSpace

section Strip

variable {p : Char → Bool} {s : Str}

theorem stripBy_subset : s.stripBy p ⊆ s :=
  fun _ hc => (List.dropWhile_sublist p).subset (List.rdropWhile_prefix p _ |>.subset hc)

/-- What is left begins with another character, -/
theorem head_stripBy (h : s.stripBy p ≠ []) : p ((s.stripBy p).head h) = false := by
  have hdrop : s.dropWhile p ≠ [] := by
    intro hnil
    rw [stripBy, hnil] at h
    exact h rfl
  have hhead : (s.stripBy p).head h = (s.dropWhile p).head hdrop :=
    (List.rdropWhile_prefix p _).head h
  rw [hhead]
  exact List.head_dropWhile_not p hdrop

/-- and ends with one. -/
theorem getLast_stripBy (h : s.stripBy p ≠ []) : p ((s.stripBy p).getLast h) = false :=
  Bool.eq_false_of_not_eq_true (List.rdropWhile_last_not p _ h)

/-- A string is left as it is if it neither begins nor ends with such a character. -/
theorem stripBy_eq_self (hhead : ∀ h : s ≠ [], p (s.head h) = false)
    (hlast : ∀ h : s ≠ [], p (s.getLast h) = false) : s.stripBy p = s := by
  have hdrop : s.dropWhile p = s := by
    cases s with
    | nil => rfl
    | cons c s =>
      have hc : p c = false := hhead (List.cons_ne_nil c s)
      rw [List.dropWhile_cons, hc]
      rfl
  rw [stripBy, hdrop, List.rdropWhile_eq_self_iff]
  intro h
  rw [hlast h]
  exact Bool.false_ne_true

/-- Stripping twice is stripping once. -/
theorem stripBy_stripBy (p : Char → Bool) (s : Str) : (s.stripBy p).stripBy p = s.stripBy p :=
  stripBy_eq_self head_stripBy getLast_stripBy

end Strip

/-! ### Splitting from the right -/

/-- `first, last = s.rsplit(sep, 1)`; `none` is the `ValueError` without a separator. -/
def rsplitOnce (sep : Char) (s : Str) : Option (Str × Str) :=
  (splitOnce sep s.reverse).map fun parts => (parts.2.reverse, parts.1.reverse)

theorem splitOnce_of_not_mem {sep : Char} {s : Str} (h : sep ∉ s) : splitOnce sep s = none := by
  induction s with
  | nil => rfl
  | cons c s ih =>
    obtain ⟨hne, hs⟩ := List.ne_and_not_mem_of_not_mem_cons h
    rw [splitOnce, if_neg (Ne.symm hne), ih hs]
    rfl

theorem rsplitOnce_of_not_mem {sep : Char} {s : Str} (h : sep ∉ s) : rsplitOnce sep s = none := by
  rw [rsplitOnce, splitOnce_of_not_mem (by simpa using h)]
  rfl

/-- What comes after the last separator is the last part. -/
theorem rsplitOnce_append_cons {sep : Char} (x : Str) {y : Str} (h : sep ∉ y) :
    rsplitOnce sep (x ++ sep :: y) = some (x, y) := by
  have hreverse : (x ++ sep :: y).reverse = y.reverse ++ sep :: x.reverse := by simp
  rw [rsplitOnce, hreverse, splitOnce_append_cons (by simpa using h)]
  simp

/-- `s.rsplit(sep, 1)[-1]`. -/
def afterLast (sep : Char) (s : Str) : Str :=
  match rsplitOnce sep s with
  | some (_, last) => last
  | none => s

theorem afterLast_append_cons {sep : Char} (x : Str) {y : Str} (h : sep ∉ y) :
    afterLast sep (x ++ sep :: y) = y := by
  rw [afterLast, rsplitOnce_append_cons x h]

/-- A string with a separator has a last one. -/
theorem exists_rsplit_of_mem {sep : Char} {s : Str} (h : sep ∈ s) :
    ∃ x y, s = x ++ sep :: y ∧ sep ∉ y := by
  obtain ⟨y, x, heq, hy⟩ := List.eq_append_cons_of_mem (List.mem_reverse.mpr h)
  refine ⟨x.reverse, y.reverse, ?_, by simpa using hy⟩
  rw [← List.reverse_reverse s, heq]
  simp

end Str

/-- A number in decimal, as an f-string formats it. -/
def decimal (n : ℕ) : Str := Nat.toDigits 10 n

theorem isDigit_of_mem_decimal {n : ℕ} {c : Char} (h : c ∈ decimal n) : c.isDigit = true :=
  Nat.isDigit_of_mem_toDigits (by decide) (by decide) h

/-- A number in lower-case hexadecimal, padded with zeros to a width: `:02x`. -/
def hex (width n : ℕ) : Str :=
  let digits := Nat.toDigits 16 n
  List.replicate (width - digits.length) '0' ++ digits

/-- Lower case of an ASCII letter; other characters are as they were. -/
def asciiLower (c : Char) : Char :=
  if 'A' ≤ c ∧ c ≤ 'Z' then Char.ofNat (c.toNat + 32) else c

/-- `str.lower()`. The Unicode case tables are outside this model; what is known
of it is what it does to ASCII. -/
structure Casing : Type where
  /-- `str.lower()` -/
  lower : Str → Str
  /-- on ASCII strings it works letter by letter -/
  lower_of_isAscii : ∀ s : Str, s.isAscii = true → lower s = s.map asciiLower

/-- The case tables restricted to ASCII and the Kelvin sign, whose lower case is
`k`. -/
def Casing.basic : Casing where
  lower s := s.map fun c => if c.toNat = 0x212A then 'k' else asciiLower c
  lower_of_isAscii s h := by
    apply List.map_congr_left
    intro c hc
    have hlt : c.toNat < 128 := by
      simpa using List.all_eq_true.mp h c hc
    rw [if_neg (by omega)]

/-- `secrets.compare_digest` on two `str`: `none` is the `TypeError` it raises
when one of them is not ASCII. -/
def compareDigest (a b : Str) : Option Bool :=
  if a.isAscii && b.isAscii then some (a == b) else none

/-- It says yes to equal ASCII strings, -/
theorem compareDigest_eq_true {a b : Str} :
    compareDigest a b = some true ↔ b.isAscii = true ∧ a = b := by
  unfold compareDigest
  split
  · next hascii =>
    rw [Bool.and_eq_true] at hascii
    simp [hascii]
  · next hascii =>
    refine iff_of_false (by simp) ?_
    rintro ⟨hb, rfl⟩
    simp [hb] at hascii

/-- and raises unless both are ASCII. -/
theorem compareDigest_eq_none {a b : Str} :
    compareDigest a b = none ↔ ¬ (a.isAscii = true ∧ b.isAscii = true) := by
  rw [compareDigest, ite_eq_right_iff, Bool.and_eq_true]
  simp

/-! ## Case-insensitive search -/

/-- The characters `re.IGNORECASE` takes for the same ASCII letter: its upper and
lower case, and the four letters whose case folds meet it. -/
def foldCase (c : Char) : Char :=
  if c.toNat = 0x212A then 'k'
  else if c.toNat = 0x17F then 's'
  else if c.toNat = 0x130 ∨ c.toNat = 0x131 then 'i'
  else asciiLower c

/-- `re.compile("a|b|...", re.IGNORECASE).search(s)` for alternatives that are
plain lower-case ASCII words: does one of them occur in the text? -/
def searchIgnoreCase (words : List Str) (s : Str) : Bool :=
  words.any fun w => decide (w <:+: s.map foldCase)

end DjangoBoilerplate
