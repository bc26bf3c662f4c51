import DjangoBoilerplate.LogSanitization
import DjangoBoilerplate.Repr

/-!
# Escaped texts

The characters below U+0020 are what breaks a log line. Numbers, JSON texts, the `repr` of a
string and the strings of the log sanitiser have none of them, whatever they are made from.

The escaping of `_sanitize_string_for_log` is four replacements over the whole string and a
pass over its characters. Together they are one code for characters (`escapeString_eq`), which
`unescape` reads back.
-/

namespace DjangoBoilerplate

/-- A text without characters below U+0020. -/
def ControlFree (s : Str) : Prop := ∀ c ∈ s, 32 ≤ c.toNat

instance (s : Str) : Decidable (ControlFree s) :=
  List.decidableBAll (fun c : Char => 32 ≤ c.toNat) s

theorem controlFree_append {s t : Str} : ControlFree (s ++ t) ↔ ControlFree s ∧ ControlFree t :=
  List.forall_mem_append

theorem controlFree_flatMap {α : Type} {l : List α} {f : α → Str}
    (h : ∀ x, ControlFree (f x)) : ControlFree (l.flatMap f) := by
  intro c hc
  obtain ⟨x, -, hmem⟩ := List.mem_flatMap.mp hc
  exact h x c hmem

/-- A character that is not escaped. -/
theorem controlFree_printable {c : Char} (hc : 32 ≤ c.toNat) : ControlFree [c] := by
  intro x hx
  obtain rfl := List.mem_singleton.mp hx
  exact hc

/-- A text that is chosen by a condition. -/
theorem controlFree_ite {p : Prop} [Decidable p] {s t : Str} (hs : p → ControlFree s)
    (ht : ¬ p → ControlFree t) : ControlFree (if p then s else t) := by
  split
  · next h => exact hs h
  · next h => exact ht h

/-- A slice has the characters of the whole. -/
theorem ControlFree.sliceTo {s : Str} (h : ControlFree s) (i : ℤ) : ControlFree (s.sliceTo i) := by
  intro c hc
  unfold Str.sliceTo at hc
  split at hc <;> exact h c (List.mem_of_mem_take hc)

theorem ControlFree.sliceFrom {s : Str} (h : ControlFree s) (i : ℤ) :
    ControlFree (s.sliceFrom i) := by
  intro c hc
  unfold Str.sliceFrom at hc
  split at hc <;> exact h c (List.mem_of_mem_drop hc)

/-! ## Numbers -/

theorem controlFree_digitChar (d : ℕ) : 32 ≤ d.digitChar.toNat := by
  by_cases hd : d < 16
  · have hsmall : ∀ d < 16, 32 ≤ (Nat.digitChar d).toNat := by decide
    exact hsmall d hd
  · have hlarge : d.digitChar = '*' := Nat.digitChar_eq_star.mpr (by omega)
    rw [hlarge]
    decide

theorem controlFree_toDigits {b : ℕ} (hb : 1 < b) (n : ℕ) : ControlFree (Nat.toDigits b n) := by
  induction n using Nat.strong_induction_on with
  | _ n ih =>
    rw [Nat.toDigits_eq_if hb]
    split
    · exact controlFree_printable (controlFree_digitChar n)
    · next hlarge =>
      have hlt : n / b < n := Nat.div_lt_self (by omega) hb
      exact controlFree_append.mpr
        ⟨ih (n / b) hlt, controlFree_printable (controlFree_digitChar _)⟩

theorem controlFree_decimal (n : ℕ) : ControlFree (decimal n) := controlFree_toDigits (by decide) n

theorem controlFree_hex (width n : ℕ) : ControlFree (hex width n) := by
  refine controlFree_append.mpr ⟨?_, controlFree_toDigits (by decide) n⟩
  intro c hc
  rw [List.eq_of_mem_replicate hc]
  decide

/-- An escape sequence. -/
theorem controlFree_escape {lead : Str} (hlead : ControlFree lead) (width n : ℕ) :
    ControlFree (lead ++ hex width n) :=
  controlFree_append.mpr ⟨hlead, controlFree_hex width n⟩

namespace LogSanitization

/-! ## The code of the sanitiser -/

/-- What the escaping of `_sanitize_string_for_log` makes of a character. -/
def escapeChar (c : Char) : Str :=
  if c = '\\' then "\\\\".toList
  else if c = '\n' then "\\n".toList
  else if c = '\r' then "\\r".toList
  else if c = '\t' then "\\t".toList
  else if 32 ≤ c.toNat then [c]
  else "\\x".toList ++ hex 2 c.toNat

/-- The replacements do not get in each other's way: none of them finds its character in what
an earlier one has put in. -/
theorem escapeString_eq (s : Str) : escapeString s = s.flatMap escapeChar := by
  simp only [escapeString, Str.replaceChar, List.flatMap_assoc]
  congr 1
  funext c
  unfold escapeChar
  by_cases hbackslash : c = '\\'
  · subst hbackslash
    decide
  by_cases hnewline : c = '\n'
  · subst hnewline
    decide
  by_cases hreturn : c = '\r'
  · subst hreturn
    decide
  by_cases htab : c = '\t'
  · subst htab
    decide
  simp only [hbackslash, hnewline, hreturn, htab, if_false, List.flatMap_singleton]

theorem controlFree_escapeChar (c : Char) : ControlFree (escapeChar c) := by
  have hlead : ControlFree "\\x".toList := by decide
  unfold escapeChar
  iterate 4 refine controlFree_ite (fun _ => by decide) fun _ => ?_
  exact controlFree_ite controlFree_printable fun _ => controlFree_escape hlead _ _

theorem controlFree_escapeString (s : Str) : ControlFree (escapeString s) := by
  rw [escapeString_eq]
  exact controlFree_flatMap controlFree_escapeChar

theorem controlFree_sanitizeStringForLog (s : Str) (maxLength : ℕ) :
    ControlFree (sanitizeStringForLog s maxLength) := by
  have hdots : ControlFree "...".toList := by decide
  have hopen : ControlFree " (".toList := by decide
  have hclose : ControlFree " chars)".toList := by decide
  have hescaped := controlFree_escapeString s
  unfold sanitizeStringForLog
  refine controlFree_ite (fun _ => ?_) fun _ => hescaped
  simp only [controlFree_append]
  exact ⟨⟨⟨hescaped.sliceTo _, hdots⟩, hescaped.sliceFrom _⟩,
    ⟨hopen, controlFree_decimal _⟩, hclose⟩

/-! ## Reading it back -/

/-- The value of a hexadecimal digit. -/
def hexDigit (c : Char) : ℕ := if c.isDigit then c.toNat - 48 else c.toNat - 87

/-- Reads an escaped text back. -/
def unescape : Str → Str
  | [] => []
  | '\\' :: 'n' :: s => '\n' :: unescape s
  | '\\' :: 'r' :: s => '\r' :: unescape s
  | '\\' :: 't' :: s => '\t' :: unescape s
  | '\\' :: 'x' :: a :: b :: s => Char.ofNat (16 * hexDigit a + hexDigit b) :: unescape s
  | '\\' :: c :: s => c :: unescape s
  | c :: s => c :: unescape s

/-- A control character is given by two digits. -/
theorem exists_hex_of_control {c : Char} (hc : c.toNat < 32) :
    ∃ a b, hex 2 c.toNat = [a, b] ∧ Char.ofNat (16 * hexDigit a + hexDigit b) = c := by
  have hcode : ∀ n < 32, ∃ a b, hex 2 n = [a, b] ∧ 16 * hexDigit a + hexDigit b = n := by
    intro n hn
    refine ⟨(n / 16).digitChar, (n % 16).digitChar, ?_⟩
    have hall : ∀ n < 32, hex 2 n = [(n / 16).digitChar, (n % 16).digitChar] ∧
        16 * hexDigit (n / 16).digitChar + hexDigit (n % 16).digitChar = n := by
      decide
    exact hall n hn
  obtain ⟨a, b, hhex, hvalue⟩ := hcode c.toNat hc
  refine ⟨a, b, hhex, ?_⟩
  rw [hvalue, Char.ofNat_toNat]

/-- Every code is read as its character, whatever comes after it. -/
theorem unescape_escapeChar_append (c : Char) (rest : Str) :
    unescape (escapeChar c ++ rest) = c :: unescape rest := by
  unfold escapeChar
  by_cases hbackslash : c = '\\'
  · subst hbackslash
    rfl
  by_cases hnewline : c = '\n'
  · subst hnewline
    rfl
  by_cases hreturn : c = '\r'
  · subst hreturn
    rfl
  by_cases htab : c = '\t'
  · subst htab
    rfl
  simp only [hbackslash, hnewline, hreturn, htab, if_false]
  split
  · rw [List.singleton_append, unescape]
    all_goals simp [hbackslash]
  · next hcontrol =>
    obtain ⟨a, b, hhex, hchar⟩ := exists_hex_of_control (Nat.lt_of_not_le hcontrol)
    rw [hhex]
    exact congrArg (· :: unescape rest) hchar

/-- The original can be recovered. -/
theorem unescape_escapeString (s : Str) : unescape (escapeString s) = s := by
  rw [escapeString_eq]
  induction s with
  | nil => rfl
  | cons c s ih => rw [List.flatMap_cons, unescape_escapeChar_append, ih]

/-- `_sanitize_string_for_log` tells texts it does not cut apart, and what it returns, cut or
not, has no control character. -/
theorem sanitizeStringForLog_injective_controlFree :
    (∀ (n : ℕ) (s t : Str), (escapeString s).length ≤ n → (escapeString t).length ≤ n →
      sanitizeStringForLog s n = sanitizeStringForLog t n → s = t) ∧
    ∀ (n : ℕ) (s : Str), ControlFree (sanitizeStringForLog s n) := by
  refine ⟨?_, fun n s => controlFree_sanitizeStringForLog s n⟩
  intro n s t hs ht h
  have huncut : ∀ {x : Str}, (escapeString x).length ≤ n →
      sanitizeStringForLog x n = escapeString x := fun hx => if_neg (Nat.not_lt.mpr hx)
  rw [huncut hs, huncut ht] at h
  calc s = unescape (escapeString s) := (unescape_escapeString s).symm
    _ = unescape (escapeString t) := congrArg unescape h
    _ = t := unescape_escapeString t

/-- A line break and the two characters it is escaped to are told apart. -/
theorem sanitizeStringForLog_newline_ne_lookalike :
    ControlFree (sanitizeStringForLog "a\nb".toList 200) ∧
      sanitizeStringForLog "a\nb".toList 200 ≠ sanitizeStringForLog "a\\nb".toList 200 := by
  refine ⟨sanitizeStringForLog_injective_controlFree.2 200 _, ?_⟩
  intro h
  have heq : "a\nb".toList = "a\\nb".toList :=
    sanitizeStringForLog_injective_controlFree.1 200 _ _ (by decide) (by decide) h
  exact absurd heq (by decide)

end LogSanitization

end DjangoBoilerplate
