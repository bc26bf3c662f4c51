import DjangoBoilerplate.Text

/-!
# `str.lower()` and the final sigma

Python lowers a string character by character, but for the capital sigma: at the end of a
word it becomes `ς`, elsewhere `σ`. The end of a word is found by looking both ways, past
the characters that Unicode calls case-ignorable, of which the full stop is one. So what
a part of a string is lowered to depends on what stands around it.

The Unicode tables are outside this model. They enter as a `CaseTable`, with the facts
that are used of them.
-/

namespace DjangoBoilerplate

/-- The Unicode properties `str.lower()` reads. -/
structure CaseTable : Type where
  /-- the lower case of a character on its own -/
  lowerChar : Char → Str
  /-- `Cased` -/
  cased : Char → Bool
  /-- `Case_Ignorable` -/
  caseIgnorable : Char → Bool
  /-- ASCII is lowered letter by letter -/
  lowerChar_of_ascii : ∀ c, c.toNat < 128 → lowerChar c = [asciiLower c]
  /-- what is lower case stays so -/
  lowerChar_stable : ∀ c, ∀ d ∈ lowerChar c, d ≠ 'Σ' ∧ lowerChar d = [d]
  /-- `σ` is lower case -/
  lowerChar_sigma : lowerChar 'σ' = ['σ']
  /-- and so is `ς` -/
  lowerChar_finalSigma : lowerChar 'ς' = ['ς']
  /-- only a full stop is lowered to one -/
  eq_dot_of_mem : ∀ c, '.' ∈ lowerChar c → c = '.'
  /-- the full stop is case-ignorable -/
  caseIgnorable_dot : caseIgnorable '.' = true
  /-- the sigma is not, -/
  caseIgnorable_capitalSigma : caseIgnorable 'Σ' = false
  /-- nor is `m`, -/
  caseIgnorable_m : caseIgnorable 'm' = false
  /-- which is cased -/
  cased_m : cased 'm' = true

namespace CaseTable

variable (t : CaseTable)

/-- Past the case-ignorable characters, does the text begin with a cased one? -/
def startsCased : Str → Bool
  | [] => false
  | c :: s => if t.caseIgnorable c then startsCased s else t.cased c

/-- The lower case of a character between the text before it, last character first, and the
text after it. -/
def lowerAt (before : Str) (c : Char) (after : Str) : Str :=
  if c = 'Σ' then [if t.startsCased before && !t.startsCased after then 'ς' else 'σ']
  else t.lowerChar c

/-- The lower case of a part of a string. -/
def lowerIn (before after : Str) : Str → Str
  | [] => []
  | c :: s => t.lowerAt before c (s ++ after) ++ lowerIn (c :: before) after s

/-- `str.lower()`. -/
def lower (s : Str) : Str := t.lowerIn [] [] s

/-- The text ends in a word that ends in a capital sigma. -/
def EndsInFinalSigma (s : Str) : Prop :=
  ∃ p q, s = p ++ 'Σ' :: q ∧ (∀ c ∈ q, t.caseIgnorable c = true) ∧
    t.startsCased p.reverse = true

variable {t} {before after after' x y : Str}

/-! ## What the surroundings decide -/

theorem startsCased_append_of_ignorable (hx : ∀ c ∈ x, t.caseIgnorable c = true) :
    t.startsCased (x ++ y) = t.startsCased y := by
  induction x with
  | nil => rfl
  | cons c x ih =>
    obtain ⟨hc, hx⟩ := List.forall_mem_cons.mp hx
    rw [List.cons_append, startsCased, if_pos hc, ih hx]

theorem startsCased_append_of_not_ignorable (hx : ∃ c ∈ x, t.caseIgnorable c = false) :
    t.startsCased (x ++ y) = t.startsCased x := by
  induction x with
  | nil =>
    obtain ⟨c, hc, -⟩ := hx
    cases hc
  | cons c x ih =>
    rw [List.cons_append, startsCased, startsCased]
    split
    · next hc =>
      refine ih ?_
      obtain ⟨d, hd, hnot⟩ := hx
      rcases List.mem_cons.mp hd with rfl | hd
      · cases hc.symm.trans hnot
      · exact ⟨d, hd, hnot⟩
    · rfl

/-- A text is case-ignorable throughout, or not. -/
theorem exists_or_forall_ignorable (t : CaseTable) (x : Str) :
    (∃ c ∈ x, t.caseIgnorable c = false) ∨ ∀ c ∈ x, t.caseIgnorable c = true := by
  by_cases h : ∃ c ∈ x, t.caseIgnorable c = false
  · exact .inl h
  · right
    intro c hc
    by_contra hnot
    exact h ⟨c, hc, by simpa using hnot⟩

theorem startsCased_append_congr (h : t.startsCased after = t.startsCased after') :
    t.startsCased (x ++ after) = t.startsCased (x ++ after') := by
  rcases exists_or_forall_ignorable t x with hx | hx
  · rw [startsCased_append_of_not_ignorable hx, startsCased_append_of_not_ignorable hx]
  · rw [startsCased_append_of_ignorable hx, startsCased_append_of_ignorable hx, h]

theorem lowerAt_congr {c : Char} (h : t.startsCased after = t.startsCased after') :
    t.lowerAt before c after = t.lowerAt before c after' := by
  simp only [lowerAt, h]

/-- The text after a part counts only for whether it starts cased. -/
theorem lowerIn_congr (h : t.startsCased after = t.startsCased after') :
    t.lowerIn before after x = t.lowerIn before after' x := by
  induction x generalizing before with
  | nil => rfl
  | cons c x ih => rw [lowerIn, lowerIn, ih, lowerAt_congr (startsCased_append_congr h)]

/-- A string is lowered part by part, each in its place. -/
theorem lowerIn_append :
    t.lowerIn before after (x ++ y) =
      t.lowerIn before (y ++ after) x ++ t.lowerIn (x.reverse ++ before) after y := by
  induction x generalizing before with
  | nil => rfl
  | cons c x ih =>
    rw [List.cons_append, lowerIn, ih, lowerIn, List.append_assoc, List.append_assoc,
      List.reverse_cons, List.append_assoc]
    rfl

/-- **Without a sigma at the end of its last word, the lower case of a text does not depend
on what follows.** -/
theorem lowerIn_eq_of_not_final
    (h : ∀ p q, x = p ++ 'Σ' :: q → (∀ c ∈ q, t.caseIgnorable c = true) →
      t.startsCased (p.reverse ++ before) = false) :
    t.lowerIn before after x = t.lowerIn before after' x := by
  induction x generalizing before with
  | nil => rfl
  | cons c x ih =>
    have hrest : t.lowerIn (c :: before) after x = t.lowerIn (c :: before) after' x := by
      refine ih ?_
      rintro p q rfl hq
      have hcased := h (c :: p) q rfl hq
      rwa [List.reverse_cons, List.append_assoc] at hcased
    have hhead : t.lowerAt before c (x ++ after) = t.lowerAt before c (x ++ after') := by
      rcases exists_or_forall_ignorable t x with hx | hx
      · refine lowerAt_congr ?_
        rw [startsCased_append_of_not_ignorable hx, startsCased_append_of_not_ignorable hx]
      · rw [lowerAt, lowerAt]
        split
        · next hsigma =>
          subst hsigma
          have hbefore : t.startsCased before = false := h [] x rfl hx
          rw [hbefore, Bool.false_and, Bool.false_and]
        · rfl
    rw [lowerIn, lowerIn, hhead, hrest]

/-! ## What is lower case already -/

/-- A character that is its own lower case, wherever it stands. -/
def Stable (t : CaseTable) (c : Char) : Prop := c ≠ 'Σ' ∧ t.lowerChar c = [c]

theorem lowerIn_of_stable (h : ∀ c ∈ x, t.Stable c) : t.lowerIn before after x = x := by
  induction x generalizing before with
  | nil => rfl
  | cons c x ih =>
    obtain ⟨⟨hne, hlower⟩, hx⟩ := List.forall_mem_cons.mp h
    rw [lowerIn, lowerAt, if_neg hne, hlower, ih hx, List.singleton_append]

theorem stable_of_mem_lowerAt {c d : Char} (h : d ∈ t.lowerAt before c after) : t.Stable d := by
  rw [lowerAt] at h
  split at h
  · rw [List.mem_singleton] at h
    split at h
    · exact h ▸ ⟨by decide, t.lowerChar_finalSigma⟩
    · exact h ▸ ⟨by decide, t.lowerChar_sigma⟩
  · exact t.lowerChar_stable c d h

theorem stable_of_mem_lowerIn {d : Char} (h : d ∈ t.lowerIn before after x) : t.Stable d := by
  induction x generalizing before with
  | nil => cases h
  | cons c x ih =>
    rcases List.mem_append.mp h with h | h
    · exact stable_of_mem_lowerAt h
    · exact ih h

/-! ## Full stops -/

theorem dot_not_mem_lowerAt {c : Char} (hc : c ≠ '.') : '.' ∉ t.lowerAt before c after := by
  rw [lowerAt]
  split
  · split <;> decide
  · intro hmem
    exact hc (t.eq_dot_of_mem c hmem)

/-- Lowering makes no full stop. -/
theorem dot_not_mem_lowerIn (hx : '.' ∉ x) : '.' ∉ t.lowerIn before after x := by
  induction x generalizing before with
  | nil => exact hx
  | cons c x ih =>
    obtain ⟨hc, hx⟩ := List.ne_and_not_mem_of_not_mem_cons hx
    rw [lowerIn, List.mem_append, not_or]
    exact ⟨dot_not_mem_lowerAt hc.symm, ih hx⟩

theorem lowerIn_dot :
    t.lowerIn before after ('.' :: y) = '.' :: t.lowerIn ('.' :: before) after y := by
  have hdot : t.lowerChar '.' = ['.'] := t.lowerChar_of_ascii '.' (by decide)
  rw [lowerIn, lowerAt, if_neg (by decide), hdot, List.singleton_append]

/-- A full stop separates the lower cases of what stands around it. -/
theorem lower_append_dot (x y : Str) :
    t.lower (x ++ '.' :: y) =
      t.lowerIn [] ('.' :: y) x ++ '.' :: t.lowerIn ('.' :: x.reverse) [] y := by
  rw [lower, lowerIn_append, lowerIn_dot, List.append_nil, List.append_nil]

/-- **A text without a final sigma is lowered before a full stop as it is before more.** -/
theorem lower_append_dot_of_not_final (hx : ¬ t.EndsInFinalSigma x) (y : Str) :
    t.lower (x ++ '.' :: y) =
      t.lowerIn [] ['.'] x ++ '.' :: t.lowerIn ('.' :: x.reverse) [] y := by
  have hsame : t.lowerIn [] ('.' :: y) x = t.lowerIn [] ['.'] x := by
    refine lowerIn_eq_of_not_final ?_
    intro p q hpq hq
    rw [List.append_nil]
    by_contra hcased
    exact hx ⟨p, q, hpq, hq, by simpa using hcased⟩
  rw [lower_append_dot, hsame]

theorem lower_dot (x : Str) : t.lower (x ++ ['.']) = t.lowerIn [] ['.'] x ++ ['.'] :=
  lower_append_dot x []

/-- The sigma at the end of a text, with what follows the text. -/
theorem lower_of_final {p q : Str} (hq : ∀ c ∈ q, t.caseIgnorable c = true)
    (hp : t.startsCased p.reverse = true) (y : Str) :
    ∃ rest, t.lower (p ++ 'Σ' :: q ++ y) =
      t.lowerIn [] ['Σ'] p ++ (if t.startsCased y then 'σ' else 'ς') :: rest := by
  have hsame : t.lowerIn [] ('Σ' :: (q ++ y)) p = t.lowerIn [] ['Σ'] p := by
    refine lowerIn_congr ?_
    simp [startsCased, t.caseIgnorable_capitalSigma]
  refine ⟨t.lowerIn ('Σ' :: p.reverse) [] (q ++ y), ?_⟩
  rw [List.append_assoc, List.cons_append, lower, lowerIn_append, List.append_nil, hsame, lowerIn,
    lowerAt, if_pos rfl, List.append_nil, List.append_nil, hp,
    startsCased_append_of_ignorable hq, Bool.true_and, List.singleton_append]
  cases t.startsCased y <;> rfl

/-- **With one, a following `m` makes a difference.** -/
theorem not_prefix_of_final (hx : t.EndsInFinalSigma x) :
    ¬ t.lower (x ++ ['.']) <+: t.lower (x ++ ['.', 'm']) := by
  obtain ⟨p, q, rfl, hq, hp⟩ := hx
  obtain ⟨rest, hdot⟩ := lower_of_final hq hp ['.']
  obtain ⟨rest', hmore⟩ := lower_of_final hq hp ['.', 'm']
  have hends : t.startsCased ['.'] = false := by simp [startsCased, t.caseIgnorable_dot]
  have hm : t.startsCased ['.', 'm'] = true := by
    simp [startsCased, t.caseIgnorable_dot, t.caseIgnorable_m, t.cased_m]
  rw [hdot, hmore, hends, hm, List.prefix_append_right_inj, List.cons_prefix_cons]
  rintro ⟨hsigma, -⟩
  revert hsigma
  decide

/-! ## The tables as a `Casing` -/

theorem lowerIn_of_isAscii (h : x.isAscii = true) :
    t.lowerIn before after x = x.map asciiLower := by
  induction x generalizing before with
  | nil => rfl
  | cons c x ih =>
    simp only [Str.isAscii, List.all_cons, Bool.and_eq_true, decide_eq_true_eq] at h
    obtain ⟨hc, hx⟩ := h
    have hne : c ≠ 'Σ' := by
      rintro rfl
      revert hc
      decide
    rw [lowerIn, lowerAt, if_neg hne, t.lowerChar_of_ascii c hc, ih hx, List.singleton_append,
      List.map_cons]

/-- `str.lower()` under these tables. -/
def casing (t : CaseTable) : Casing where
  lower := t.lower
  lower_of_isAscii _ h := lowerIn_of_isAscii h

/-- The letters of the basic Greek alphabet, capital and small. -/
def greekLetters : List (Char × Char) :=
  [('Α', 'α'), ('Β', 'β'), ('Γ', 'γ'), ('Δ', 'δ'), ('Ε', 'ε'), ('Ζ', 'ζ'), ('Η', 'η'), ('Θ', 'θ'),
    ('Ι', 'ι'), ('Κ', 'κ'), ('Λ', 'λ'), ('Μ', 'μ'), ('Ν', 'ν'), ('Ξ', 'ξ'), ('Ο', 'ο'), ('Π', 'π'),
    ('Ρ', 'ρ'), ('Σ', 'σ'), ('Τ', 'τ'), ('Υ', 'υ'), ('Φ', 'φ'), ('Χ', 'χ'), ('Ψ', 'ψ'), ('Ω', 'ω')]

/-- The lower case of an ASCII or a basic Greek letter. -/
def greekLower (c : Char) : Char := (greekLetters.lookup c).getD (asciiLower c)

/-- Lowering an ASCII letter leaves a small one, and other characters as they were. -/
theorem asciiLower_cases (c : Char) :
    asciiLower c = c ∨ ∃ n ∈ List.range' 97 26, asciiLower c = Char.ofNat n := by
  rw [asciiLower]
  split
  · next h =>
    obtain ⟨hA, hZ⟩ := h
    rw [Char.le_def, UInt32.le_iff_toNat_le] at hA hZ
    refine .inr ⟨c.toNat + 32, ?_, rfl⟩
    rw [List.mem_range'_1]
    have hlow : 65 ≤ c.toNat := hA
    have hhigh : c.toNat ≤ 90 := hZ
    omega
  · exact .inl rfl

/-- A letter of the table is lowered by it; any other character is its own lower case, or is
lowered to a small ASCII letter. -/
theorem greekLower_cases (c : Char) :
    (c, greekLower c) ∈ greekLetters ∨
      greekLetters.lookup c = none ∧
        (greekLower c = c ∨ ∃ n ∈ List.range' 97 26, greekLower c = Char.ofNat n) := by
  cases hc : greekLetters.lookup c with
  | some d =>
    obtain ⟨l₁, l₂, hletters, -⟩ := List.lookup_eq_some_iff.mp hc
    have hd : greekLower c = d := by rw [greekLower, hc, Option.getD_some]
    rw [hd, hletters]
    exact .inl (List.mem_append_right l₁ List.mem_cons_self)
  | none =>
    have hascii : greekLower c = asciiLower c := by rw [greekLower, hc, Option.getD_none]
    rw [hascii]
    exact .inr ⟨rfl, asciiLower_cases c⟩

theorem greekLower_stable (c : Char) :
    greekLower c ≠ 'Σ' ∧ greekLower (greekLower c) = greekLower c := by
  have hletters : ∀ l ∈ greekLetters, l.2 ≠ 'Σ' ∧ greekLower l.2 = l.2 := by decide
  have hsmall : ∀ n ∈ List.range' 97 26,
      Char.ofNat n ≠ 'Σ' ∧ greekLower (Char.ofNat n) = Char.ofNat n := by decide
  rcases greekLower_cases c with hmem | ⟨hnone, heq | ⟨n, hn, heq⟩⟩
  · exact hletters _ hmem
  · rw [heq, heq]
    refine ⟨?_, rfl⟩
    rintro rfl
    revert hnone
    decide
  · rw [heq]
    exact hsmall n hn

theorem eq_dot_of_greekLower {c : Char} (h : greekLower c = '.') : c = '.' := by
  have hletters : ∀ l ∈ greekLetters, l.2 ≠ '.' := by decide
  have hsmall : ∀ n ∈ List.range' 97 26, Char.ofNat n ≠ '.' := by decide
  rcases greekLower_cases c with hmem | ⟨-, heq | ⟨n, hn, heq⟩⟩
  · exact absurd h (hletters _ hmem)
  · rw [← heq, h]
  · exact absurd (heq.symm.trans h) (hsmall n hn)

theorem greekLower_of_ascii {c : Char} (h : c.toNat < 128) : greekLower c = asciiLower c := by
  have hletters : ∀ l ∈ greekLetters, 128 ≤ l.1.toNat := by decide
  have hnone : greekLetters.lookup c = none := by
    rw [List.lookup_eq_none_iff]
    intro l hl
    have hle := hletters l hl
    rw [bne_iff_ne]
    rintro rfl
    omega
  rw [greekLower, hnone, Option.getD_none]

/-- The case tables of ASCII and the basic Greek alphabet. -/
def greek : CaseTable where
  lowerChar c := [greekLower c]
  cased c := c.isAlpha || greekLetters.any (fun l => c == l.1 || c == l.2) || c == 'ς'
  caseIgnorable c := ['\x27', '.', ':', '^', '\x60'].contains c
  lowerChar_of_ascii c h := by rw [greekLower_of_ascii h]
  lowerChar_stable c d h := by
    obtain rfl := List.mem_singleton.mp h
    obtain ⟨hne, heq⟩ := greekLower_stable c
    exact ⟨hne, by rw [heq]⟩
  lowerChar_sigma := by decide
  lowerChar_finalSigma := by decide
  eq_dot_of_mem c h := eq_dot_of_greekLower (List.mem_singleton.mp h).symm
  caseIgnorable_dot := by decide
  caseIgnorable_capitalSigma := by decide
  caseIgnorable_m := by decide
  cased_m := by decide

end CaseTable

end DjangoBoilerplate
