import DjangoBoilerplate.Text
import Mathlib.Tactic.Ring

/-!
# Numbers in decimal

What the digits of a number look like (`decimal_whole`), and which texts of digits are those of a
number: the ones without a leading zero (`decimal_ofDigitChars`).
-/

namespace DjangoBoilerplate

/-- The value of a hexadecimal digit. -/
def hexVal (c : Char) : Option ℕ :=
  if c.isDigit then some (c.toNat - 48)
  else if 'a' ≤ c ∧ c ≤ 'f' then some (c.toNat - 87)
  else if 'A' ≤ c ∧ c ≤ 'F' then some (c.toNat - 55)
  else none

/-- `sys.get_int_max_str_digits()`. -/
def maxStrDigits : ℕ := 4300

/-- The digits of a number have no leading zero. -/
theorem decimal_whole (n : ℕ) : decimal n = ['0'] ∨
    ∃ c ds, decimal n = c :: ds ∧ c ≠ '0' ∧ c.isDigit = true ∧ ∀ d ∈ ds, d.isDigit = true := by
  induction n using Nat.strong_induction_on with
  | _ n ih =>
    rcases Nat.lt_or_ge n 10 with hlt | hge
    · rcases Nat.eq_zero_or_pos n with rfl | hpos
      · exact .inl rfl
      · refine .inr ⟨n.digitChar, [], Nat.toDigits_of_lt_base hlt, ?_, ?_, by simp⟩
        · rw [Ne, Nat.digitChar_eq_zero]
          exact hpos.ne'
        · rw [Nat.isDigit_digitChar]
          exact decide_eq_true hlt
    · have hdecimal : decimal n = decimal (n / 10) ++ [(n % 10).digitChar] :=
        Nat.toDigits_of_base_le (by decide) hge
      have hlast : (n % 10).digitChar.isDigit = true := by
        rw [Nat.isDigit_digitChar]
        exact decide_eq_true (Nat.mod_lt n (by decide))
      rcases ih (n / 10) (by omega) with hzero | ⟨c, ds, hcs, hc, hdigit, hds⟩
      · -- `n / 10` is positive
        exfalso
        have hread : Nat.ofDigitChars 10 (decimal (n / 10)) 0 = n / 10 :=
          Nat.ofDigitChars_ten_toDigits
        rw [hzero] at hread
        have : Nat.ofDigitChars 10 ['0'] 0 = 0 := by decide
        omega
      · refine .inr ⟨c, ds ++ [(n % 10).digitChar], by rw [hdecimal, hcs]; rfl, hc, hdigit, ?_⟩
        intro d hd
        rcases List.mem_append.mp hd with hd | hd
        · exact hds d hd
        · rw [List.mem_singleton.mp hd]
          exact hlast

/-- The value of a digit. -/
theorem digit_lt {d : Char} (hd : d.isDigit = true) : d.toNat - '0'.toNat < 10 := by
  simp only [Char.isDigit, Bool.and_eq_true, decide_eq_true_eq] at hd
  have hle : d.toNat ≤ 57 := hd.2
  have : '0'.toNat = 48 := rfl
  omega

theorem digitChar_digit {d : Char} (hd : d.isDigit = true) :
    (d.toNat - '0'.toNat).digitChar = d := by
  have hchars : ∀ n < 10, n.digitChar = Char.ofNat (48 + n) := by decide
  rw [hchars _ (digit_lt hd)]
  simp only [Char.isDigit, Bool.and_eq_true, decide_eq_true_eq] at hd
  have hge : 48 ≤ d.toNat := hd.1
  have h48 : '0'.toNat = 48 := rfl
  rw [h48, Nat.add_sub_cancel' hge, Char.ofNat_toNat]

theorem ofDigitChars_lt {ds : Str} (hds : ∀ d ∈ ds, d.isDigit = true) (init : ℕ) :
    Nat.ofDigitChars 10 ds init < (init + 1) * 10 ^ ds.length := by
  induction ds generalizing init with
  | nil => simp
  | cons d ds ih =>
    obtain ⟨hd, hds⟩ := List.forall_mem_cons.mp hds
    have hlt := digit_lt hd
    rw [Nat.ofDigitChars_cons]
    calc Nat.ofDigitChars 10 ds (10 * init + (d.toNat - '0'.toNat))
        < (10 * init + (d.toNat - '0'.toNat) + 1) * 10 ^ ds.length := ih hds _
      _ ≤ (init + 1) * 10 * 10 ^ ds.length := Nat.mul_le_mul_right _ (by omega)
      _ = (init + 1) * 10 ^ (d :: ds).length := by rw [List.length_cons, pow_succ]; ring

/-- Digits without a leading zero are those of the number that they are read as. -/
theorem decimal_ofDigitChars {ds : Str} (hne : ds ≠ []) (hhead : ds.head? ≠ some '0')
    (hds : ∀ d ∈ ds, d.isDigit = true) : decimal (Nat.ofDigitChars 10 ds 0) = ds := by
  induction ds using List.reverseRecOn with
  | nil => exact absurd rfl hne
  | append_singleton ds d ih =>
    have hd : d.isDigit = true := hds d (by simp)
    have hlast : Nat.toDigits 10 (d.toNat - '0'.toNat) = [d] := by
      rw [Nat.toDigits_of_lt_base (digit_lt hd), digitChar_digit hd]
    have hvalue : Nat.ofDigitChars 10 (ds ++ [d]) 0 =
        10 * Nat.ofDigitChars 10 ds 0 + (d.toNat - '0'.toNat) := by
      rw [Nat.ofDigitChars_append, Nat.ofDigitChars_cons, Nat.ofDigitChars_nil]
    rw [hvalue]
    rcases eq_or_ne ds [] with rfl | hfront
    · rw [Nat.ofDigitChars_nil, Nat.mul_zero, Nat.zero_add]
      exact hlast
    · have hhead' : ds.head? ≠ some '0' := by
        rwa [List.head?_append_of_ne_nil _ hfront] at hhead
      have hread := ih hfront hhead' fun c hc => hds c (List.mem_append_left _ hc)
      have hpos : 0 < Nat.ofDigitChars 10 ds 0 := by
        refine Nat.pos_of_ne_zero fun hzero => hhead' ?_
        rw [← hread, hzero]
        rfl
      rw [decimal, ← Nat.toDigits_append_toDigits (by decide) hpos (digit_lt hd), hlast]
      rw [decimal] at hread
      rw [hread]

end DjangoBoilerplate
