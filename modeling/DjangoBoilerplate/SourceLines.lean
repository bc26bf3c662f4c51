import DjangoBoilerplate.Text

/-!
# Lines of a source file

`scripts/check_dormant_imports.py` looks for a waiver on the lines of a statement. The numbers of
the lines come from the parser, which counts newlines; the lines themselves come from
`str.splitlines()`, which knows more line breaks than that. `lineHasWaiver_splitlines` says that
both mean the same lines if the file has no others.
-/

namespace DjangoBoilerplate

namespace Str

/-! ## Line breaks -/

/-- The characters `str.splitlines()` splits at. -/
def isLineBreak (c : Char) : Bool :=
  (10 ≤ c.toNat && c.toNat ≤ 13) || (0x1C ≤ c.toNat && c.toNat ≤ 0x1E) || c.toNat == 0x85 ||
    c.toNat == 0x2028 || c.toNat == 0x2029

/-- `s.splitlines()`. -/
def splitlines : Str → List Str
  | '\r' :: '\n' :: s => [] :: splitlines s
  | c :: s =>
    if isLineBreak c then [] :: splitlines s
    else
      match splitlines s with
      | [] => [[c]]
      | line :: lines => (c :: line) :: lines
  | [] => []

/-- `s` after the given text, if it begins with it. -/
def afterText (text s : Str) : Option Str :=
  if text.isPrefixOf s then some (s.drop text.length) else none

/-- The line breaks are newlines only. -/
def NewlinesOnly (s : Str) : Prop := ∀ c ∈ s, isLineBreak c = true → c = '\n'

theorem splitlines_cons {c : Char} {s : Str} (h : NewlinesOnly (c :: s)) :
    splitlines (c :: s) =
      if c = '\n' then [] :: splitlines s
      else
        match splitlines s with
        | [] => [[c]]
        | line :: lines => (c :: line) :: lines := by
  have hbreak : isLineBreak c = true ↔ c = '\n' := by
    constructor
    · exact h c List.mem_cons_self
    · rintro rfl
      rfl
  rw [splitlines]
  · simp only [hbreak]
  · intro s' hc
    exact absurd (h c List.mem_cons_self (by rw [hc]; rfl)) (by rw [hc]; decide)

/-- Then the lines are what lies between newlines, up to an empty one at the end. -/
theorem split_eq_splitlines {s : Str} (h : NewlinesOnly s) :
    split '\n' s = splitlines s ∨ split '\n' s = splitlines s ++ [[]] := by
  induction s with
  | nil => exact .inr rfl
  | cons c s ih =>
    have hs : NewlinesOnly s := fun x hx => h x (List.mem_cons_of_mem c hx)
    rw [splitlines_cons h, split]
    by_cases hc : c = '\n'
    · rw [if_pos hc, if_pos hc]
      rcases ih hs with ih | ih
      · exact .inl (by rw [ih])
      · exact .inr (by rw [ih]; rfl)
    · rw [if_neg hc, if_neg hc]
      rcases ih hs with ih | ih
      · rw [ih]
        cases splitlines s with
        | nil => exact .inl rfl
        | cons line lines => exact .inl rfl
      · rw [ih]
        cases splitlines s with
        | nil => exact .inl rfl
        | cons line lines => exact .inr rfl

end Str

/-! ## Waivers -/

namespace Dormant

/-- `\s*allow-dormant-import:\s*\S+` at the beginning of a text. -/
def waiverAt (s : Str) : Bool :=
  match Str.afterText "allow-dormant-import:".toList (s.dropWhile Str.isSpace) with
  | some reason => !(reason.dropWhile Str.isSpace).isEmpty
  | none => false

/-- `_WAIVER_RE.search(line)`. -/
def hasWaiver : Str → Bool
  | [] => false
  | c :: s => (c == '#' && waiverAt s) || hasWaiver s

/-- `_line_has_waiver(source_lines, start, end)`. -/
def lineHasWaiver (sourceLines : List Str) (first last : ℕ) : Bool :=
  let lo := max 1 first
  let hi := min sourceLines.length last
  (List.range' lo (hi + 1 - lo)).any fun lineno => hasWaiver (sourceLines.getD (lineno - 1) [])

theorem lineHasWaiver_iff {sourceLines : List Str} {first last : ℕ} :
    lineHasWaiver sourceLines first last = true ↔
      ∃ lineno line, max 1 first ≤ lineno ∧ lineno ≤ last ∧
        sourceLines[lineno - 1]? = some line ∧ hasWaiver line = true := by
  rw [lineHasWaiver, List.any_eq_true]
  constructor
  · rintro ⟨lineno, hmem, hwaiver⟩
    obtain ⟨hlo, hhi⟩ := List.mem_range'_1.mp hmem
    have hlt : lineno - 1 < sourceLines.length := by omega
    rw [List.getD_eq_getElem?_getD, List.getElem?_eq_getElem hlt] at hwaiver
    exact ⟨lineno, _, hlo, by omega, List.getElem?_eq_getElem hlt, hwaiver⟩
  · rintro ⟨lineno, line, hlo, hhi, hline, hwaiver⟩
    obtain ⟨hlt, -⟩ := List.getElem?_eq_some_iff.mp hline
    refine ⟨lineno, List.mem_range'_1.mpr ⟨hlo, by omega⟩, ?_⟩
    rw [List.getD_eq_getElem?_getD, hline]
    exact hwaiver

/-- An empty line at the end has no waiver. -/
theorem lineHasWaiver_concat_nil (sourceLines : List Str) (first last : ℕ) :
    lineHasWaiver (sourceLines ++ [[]]) first last = lineHasWaiver sourceLines first last := by
  rw [Bool.eq_iff_iff, lineHasWaiver_iff, lineHasWaiver_iff]
  refine exists_congr fun lineno => exists_congr fun line => ?_
  refine and_congr_right fun _ => and_congr_right fun _ => and_congr_left fun hwaiver => ?_
  by_cases hlt : lineno - 1 < sourceLines.length
  · rw [List.getElem?_append_left hlt]
  · rw [List.getElem?_append_right (by omega), List.getElem?_eq_none (l := sourceLines) (by omega)]
    refine iff_of_false ?_ (by simp)
    intro hline
    rw [List.mem_singleton.mp (List.mem_of_getElem? hline)] at hwaiver
    cases hwaiver

/-- With no other line breaks than newlines, the gate looks at the lines the parser means. -/
theorem lineHasWaiver_splitlines {source : Str} (h : Str.NewlinesOnly source) (first last : ℕ) :
    lineHasWaiver source.splitlines first last =
      lineHasWaiver (Str.split '\n' source) first last := by
  rcases Str.split_eq_splitlines h with heq | heq
  · rw [heq]
  · rw [heq, lineHasWaiver_concat_nil]

end Dormant

end DjangoBoilerplate
