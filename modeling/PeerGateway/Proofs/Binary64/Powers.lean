import Mathlib.Algebra.Order.Field.Power
import Mathlib.Tactic.Positivity
import Mathlib.Tactic.Ring

/-!
# Powers of ten and of two

The logarithm of two to the base ten lies between 3/10 and 28/93, which tells powers of two from
powers of ten for any exponents (`ten_zpow_le_two_zpow`, `two_zpow_le_ten_zpow`). A quotient lies
among the powers of two as the logarithms of its parts say (`two_zpow_log2_sub_le`).
-/

namespace PeerGateway

theorem two_pow_le_ten_pow {a b : ℕ} (h : 28 * a ≤ 93 * b) : 2 ^ a ≤ 10 ^ b := by
  refine (Nat.pow_le_pow_iff_left (by decide : 93 ≠ 0)).mp ?_
  calc (2 ^ a) ^ 93 = (2 ^ 93) ^ a := Nat.pow_right_comm 2 a 93
    _ ≤ (10 ^ 28) ^ a := Nat.pow_le_pow_left (by decide) a
    _ = 10 ^ (28 * a) := (Nat.pow_mul 10 28 a).symm
    _ ≤ 10 ^ (93 * b) := Nat.pow_le_pow_right (by decide) h
    _ = (10 ^ b) ^ 93 := by rw [Nat.mul_comm, Nat.pow_mul]

theorem ten_pow_le_two_pow {a b : ℕ} (h : 10 * a ≤ 3 * b) : 10 ^ a ≤ 2 ^ b := by
  refine (Nat.pow_le_pow_iff_left (by decide : 3 ≠ 0)).mp ?_
  calc (10 ^ a) ^ 3 = (10 ^ 3) ^ a := Nat.pow_right_comm 10 a 3
    _ ≤ (2 ^ 10) ^ a := Nat.pow_le_pow_left (by decide) a
    _ = 2 ^ (10 * a) := (Nat.pow_mul 2 10 a).symm
    _ ≤ 2 ^ (3 * b) := Nat.pow_le_pow_right (by decide) h
    _ = (2 ^ b) ^ 3 := by rw [Nat.mul_comm, Nat.pow_mul]

theorem zpow_eq_inv_pow_toNat {q : ℚ} {a : ℤ} (h : a ≤ 0) : q ^ a = (q ^ (-a).toNat)⁻¹ := by
  rw [← zpow_natCast, Int.toNat_of_nonneg (by omega), zpow_neg, inv_inv]

theorem zpow_eq_pow_toNat {q : ℚ} {a : ℤ} (h : 0 ≤ a) : q ^ a = q ^ a.toNat := by
  rw [← zpow_natCast, Int.toNat_of_nonneg h]

theorem ten_zpow_le_two_zpow {a b : ℤ} (hpos : 0 ≤ b → 10 * a ≤ 3 * b)
    (hneg : b < 0 → 93 * a ≤ 28 * b) : (10 : ℚ) ^ a ≤ 2 ^ b := by
  rcases Int.lt_or_le b 0 with hb | hb
  · have hle := hneg hb
    rw [zpow_eq_inv_pow_toNat (by omega), zpow_eq_inv_pow_toNat hb.le]
    refine inv_anti₀ (by positivity) ?_
    exact_mod_cast two_pow_le_ten_pow (by omega)
  · have hle := hpos hb
    rw [zpow_eq_pow_toNat hb]
    rcases Int.lt_or_le a 0 with ha | ha
    · rw [zpow_eq_inv_pow_toNat ha.le]
      exact (inv_le_one_of_one_le₀ (one_le_pow₀ (by norm_num))).trans (one_le_pow₀ (by norm_num))
    · rw [zpow_eq_pow_toNat ha]
      exact_mod_cast ten_pow_le_two_pow (by omega)

theorem two_zpow_le_ten_zpow {a b : ℤ} (hpos : 0 ≤ a → 28 * a ≤ 93 * b)
    (hneg : a < 0 → 3 * a ≤ 10 * b) : (2 : ℚ) ^ a ≤ 10 ^ b := by
  rcases Int.lt_or_le a 0 with ha | ha
  · have hle := hneg ha
    rw [zpow_eq_inv_pow_toNat ha.le]
    rcases Int.lt_or_le b 0 with hb | hb
    · rw [zpow_eq_inv_pow_toNat hb.le]
      refine inv_anti₀ (by positivity) ?_
      exact_mod_cast ten_pow_le_two_pow (by omega)
    · rw [zpow_eq_pow_toNat hb]
      exact (inv_le_one_of_one_le₀ (one_le_pow₀ (by norm_num))).trans (one_le_pow₀ (by norm_num))
  · have hle := hpos ha
    rw [zpow_eq_pow_toNat ha, zpow_eq_pow_toNat (by omega)]
    exact_mod_cast two_pow_le_ten_pow (by omega)

theorem two_zpow_log2_sub_le {num den : ℕ} (hnum : num ≠ 0) (hden : den ≠ 0) :
    (2 : ℚ) ^ ((Nat.log2 num : ℤ) - Nat.log2 den - 1) ≤ num / den ∧
      (num / den : ℚ) < 2 ^ ((Nat.log2 num : ℤ) - Nat.log2 den + 1) := by
  have hnumle : (2 : ℚ) ^ Nat.log2 num ≤ num := by exact_mod_cast Nat.log2_self_le hnum
  have hnumlt : (num : ℚ) < 2 ^ (Nat.log2 num + 1) := by exact_mod_cast Nat.lt_log2_self
  have hdenle : (2 : ℚ) ^ Nat.log2 den ≤ den := by exact_mod_cast Nat.log2_self_le hden
  have hdenlt : (den : ℚ) < 2 ^ (Nat.log2 den + 1) := by exact_mod_cast Nat.lt_log2_self
  have hpos : (0 : ℚ) < den := by exact_mod_cast Nat.pos_of_ne_zero hden
  constructor
  · rw [le_div_iff₀ hpos]
    calc (2 : ℚ) ^ ((Nat.log2 num : ℤ) - Nat.log2 den - 1) * den
        ≤ 2 ^ ((Nat.log2 num : ℤ) - Nat.log2 den - 1) * 2 ^ (Nat.log2 den + 1) := by gcongr
      _ = 2 ^ Nat.log2 num := by
        rw [← zpow_natCast, ← zpow_natCast, ← zpow_add₀ (by norm_num)]
        congr 1
        push_cast
        ring
      _ ≤ num := hnumle
  · rw [div_lt_iff₀ hpos]
    calc (num : ℚ) < 2 ^ (Nat.log2 num + 1) := hnumlt
      _ = 2 ^ ((Nat.log2 num : ℤ) - Nat.log2 den + 1) * 2 ^ Nat.log2 den := by
        rw [← zpow_natCast, ← zpow_natCast, ← zpow_add₀ (by norm_num)]
        congr 1
        push_cast
        ring
      _ ≤ 2 ^ ((Nat.log2 num : ℤ) - Nat.log2 den + 1) * den := by gcongr

end PeerGateway
