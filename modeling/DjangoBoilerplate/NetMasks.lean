import Mathlib.Data.Nat.Bitwise
import Mathlib.Data.Set.Basic

/-!
# Network masks

Numbers of `w` bits, and the numbers that share their first `p` bits: a **block**. A block is what
a mask leaves of any of its members (`land_netmask_eq_iff`), and a mask says which block it stands
for (`prefixOfInt_netmask`).
-/

namespace DjangoBoilerplate

namespace NetMasks

/-- The mask of the first `p` bits. -/
def netmask (w p : ℕ) : ℕ := (2 ^ w - 1) ^^^ ((2 ^ w - 1) >>> p)

/-- The mask of the others. -/
def hostmask (w p : ℕ) : ℕ := (2 ^ w - 1) ^^^ netmask w p

/-- The numbers that have the first `p` bits of `base`. -/
def block (w p base : ℕ) : Set ℕ := {n | n < 2 ^ w ∧ n / 2 ^ (w - p) = base / 2 ^ (w - p)}

/-- How many of the last bits are zeros, of so many. -/
def trailingZeros (n : ℕ) : ℕ → ℕ
  | 0 => 0
  | bits + 1 => if n % 2 = 0 then trailingZeros (n / 2) bits + 1 else 0

/-- The length of a mask, if the number is one: the ones come first, and then the zeros. -/
def prefixOfInt (w n : ℕ) : Option ℕ :=
  let zeros := trailingZeros n w
  if n >>> zeros = 2 ^ (w - zeros) - 1 then some (w - zeros) else none

/-! ## Bits -/

variable {w p : ℕ}

theorem testBit_ones_shiftRight (i : ℕ) :
    ((2 ^ w - 1) >>> p).testBit i = decide (p + i < w) := by
  rw [Nat.testBit_shiftRight, Nat.testBit_two_pow_sub_one]

theorem testBit_netmask (i : ℕ) :
    (netmask w p).testBit i = (decide (i < w) && !decide (p + i < w)) := by
  rw [netmask, Nat.testBit_xor, Nat.testBit_two_pow_sub_one, testBit_ones_shiftRight]
  by_cases h : p + i < w
  · simp [h, show i < w by omega]
  · simp [h]

theorem hostmask_eq (w p : ℕ) : hostmask w p = 2 ^ (w - p) - 1 := by
  refine Nat.eq_of_testBit_eq fun i => ?_
  rw [hostmask, Nat.testBit_xor, testBit_netmask, Nat.testBit_two_pow_sub_one,
    Nat.testBit_two_pow_sub_one]
  by_cases hi : i < w
  · by_cases h : p + i < w
    · simp [hi, h, show i < w - p by omega]
    · simp [hi, h, show ¬ i < w - p by omega]
  · simp [hi, show ¬ i < w - p by omega]

theorem netmask_eq (hp : p ≤ w) : netmask w p = (2 ^ p - 1) * 2 ^ (w - p) := by
  refine Nat.eq_of_testBit_eq fun i => ?_
  rw [testBit_netmask, ← Nat.shiftLeft_eq, Nat.testBit_shiftLeft, Nat.testBit_two_pow_sub_one]
  by_cases hi : w - p ≤ i
  · simp only [hi, decide_true, Bool.true_and, show ¬ p + i < w by omega, decide_false,
      Bool.not_false, Bool.and_true, decide_eq_decide]
    omega
  · simp [hi, show p + i < w by omega]

theorem netmask_lt (w p : ℕ) : netmask w p < 2 ^ w := by
  refine Nat.lt_pow_two_of_testBit _ fun i hi => ?_
  rw [testBit_netmask]
  simp [show ¬ i < w by omega]

/-- What a mask leaves of a number. -/
theorem land_netmask {n : ℕ} (hp : p ≤ w) (hn : n < 2 ^ w) :
    n &&& netmask w p = n / 2 ^ (w - p) * 2 ^ (w - p) := by
  refine Nat.eq_of_testBit_eq fun i => ?_
  rw [Nat.testBit_and, testBit_netmask, ← Nat.shiftLeft_eq, Nat.testBit_shiftLeft,
    ← Nat.shiftRight_eq_div_pow, Nat.testBit_shiftRight]
  by_cases hi : w - p ≤ i
  · rw [Nat.add_sub_cancel' hi]
    by_cases hlt : i < w
    · simp [hi, hlt, show ¬ p + i < w by omega]
    · have hbit : n.testBit i = false :=
        Nat.testBit_lt_two_pow (hn.trans_le (Nat.pow_le_pow_right (by decide) (by omega)))
      simp [hbit]
  · simp [hi, show p + i < w by omega]

/-- Two numbers are the same behind a mask if they have the same first bits. -/
theorem land_netmask_eq_iff {n base : ℕ} (hp : p ≤ w) (hn : n < 2 ^ w) (hbase : base < 2 ^ w) :
    n &&& netmask w p = base &&& netmask w p ↔ n ∈ block w p base := by
  rw [land_netmask hp hn, land_netmask hp hbase, Nat.mul_left_inj (Nat.two_pow_pos _).ne']
  exact ⟨fun h => ⟨hn, h⟩, fun h => h.2⟩

/-- What a mask leaves of the base is a base of the same block. -/
theorem block_land_netmask {base : ℕ} (hp : p ≤ w) (hbase : base < 2 ^ w) :
    block w p (base &&& netmask w p) = block w p base := by
  rw [land_netmask hp hbase]
  unfold block
  rw [Nat.mul_div_cancel _ (Nat.two_pow_pos _)]

/-! ## Reading a mask -/

theorem trailingZeros_zero (bits : ℕ) : trailingZeros 0 bits = bits := by
  induction bits with
  | zero => rfl
  | succ bits ih => simp [trailingZeros, ih]

theorem trailingZeros_of_odd {n : ℕ} (hn : n % 2 = 1) (bits : ℕ) : trailingZeros n bits = 0 := by
  cases bits with
  | zero => rfl
  | succ bits => simp [trailingZeros, hn]

theorem trailingZeros_mul_two_pow (n : ℕ) {k bits : ℕ} (hk : k ≤ bits) :
    trailingZeros (n * 2 ^ k) bits = trailingZeros n (bits - k) + k := by
  induction k generalizing bits with
  | zero => simp
  | succ k ih =>
    obtain ⟨bits, rfl⟩ : ∃ b, bits = b + 1 := ⟨bits - 1, by omega⟩
    have hmul : n * 2 ^ (k + 1) = n * 2 ^ k * 2 := by rw [Nat.pow_succ, Nat.mul_assoc]
    rw [trailingZeros, hmul, Nat.mul_mod_left, if_pos rfl, Nat.mul_div_cancel _ (by decide),
      ih (by omega), Nat.add_sub_add_right, Nat.add_assoc]

theorem trailingZeros_le (n bits : ℕ) : trailingZeros n bits ≤ bits := by
  induction bits generalizing n with
  | zero => exact le_rfl
  | succ bits ih =>
    rw [trailingZeros]
    split
    · exact Nat.succ_le_succ (ih _)
    · exact Nat.zero_le _

theorem two_pow_trailingZeros_dvd (n bits : ℕ) : 2 ^ trailingZeros n bits ∣ n := by
  induction bits generalizing n with
  | zero => exact one_dvd n
  | succ bits ih =>
    rw [trailingZeros]
    split
    · next heven =>
      obtain ⟨m, hm⟩ := ih (n / 2)
      refine ⟨m, ?_⟩
      rw [Nat.pow_succ, Nat.mul_right_comm, ← hm]
      omega
    · exact one_dvd n

/-- A mask has its length. -/
theorem prefixOfInt_netmask (hp : p ≤ w) : prefixOfInt w (netmask w p) = some p := by
  have hzeros : trailingZeros (netmask w p) w = w - p := by
    rw [netmask_eq hp]
    rcases Nat.eq_zero_or_pos p with rfl | hpos
    · rw [Nat.pow_zero, Nat.sub_self, Nat.zero_mul, trailingZeros_zero, Nat.sub_zero]
    · have hodd : (2 ^ p - 1) % 2 = 1 := by
        have heven : 2 ^ p % 2 = 0 := Nat.mod_eq_zero_of_dvd (dvd_pow_self 2 hpos.ne')
        have := Nat.two_pow_pos p
        omega
      rw [trailingZeros_mul_two_pow _ (Nat.sub_le w p), trailingZeros_of_odd hodd, Nat.zero_add]
  have hlength : w - (w - p) = p := Nat.sub_sub_self hp
  simp only [prefixOfInt, hzeros, hlength]
  rw [if_pos]
  rw [netmask_eq hp, Nat.shiftRight_eq_div_pow, Nat.mul_div_cancel _ (Nat.two_pow_pos _)]

/-- What has a length is the mask of it. -/
theorem netmask_of_prefixOfInt {n : ℕ} (h : prefixOfInt w n = some p) :
    p ≤ w ∧ n = netmask w p := by
  simp only [prefixOfInt] at h
  split at h
  · next hones =>
    obtain rfl := Option.some.inj h
    have hle := trailingZeros_le n w
    refine ⟨Nat.sub_le _ _, ?_⟩
    obtain ⟨m, hm⟩ := two_pow_trailingZeros_dvd n w
    rw [netmask_eq (Nat.sub_le _ _), Nat.sub_sub_self hle, ← hones, Nat.shiftRight_eq_div_pow]
    exact (Nat.div_mul_cancel ⟨m, hm⟩).symm
  · cases h

/-- The mask of the other bits is no mask itself, if there are some of both kinds. -/
theorem prefixOfInt_hostmask (hpos : 0 < p) (hp : p < w) :
    prefixOfInt w (hostmask w p) = none := by
  have hodd : hostmask w p % 2 = 1 := by
    rw [hostmask_eq]
    have heven : 2 ^ (w - p) % 2 = 0 := Nat.mod_eq_zero_of_dvd (dvd_pow_self 2 (by omega))
    have := Nat.two_pow_pos (w - p)
    omega
  have hlt : 2 ^ (w - p) < 2 ^ w := Nat.pow_lt_pow_right (by decide) (by omega)
  have hone := Nat.two_pow_pos (w - p)
  simp only [prefixOfInt, trailingZeros_of_odd hodd, Nat.shiftRight_zero, Nat.sub_zero]
  rw [hostmask_eq, if_neg (by omega)]

/-- The other bits' mask, turned over, is the mask. -/
theorem xor_hostmask (w p : ℕ) : hostmask w p ^^^ (2 ^ w - 1) = netmask w p := by
  rw [hostmask, Nat.xor_comm, Nat.xor_xor_cancel_left]

end NetMasks

end DjangoBoilerplate
