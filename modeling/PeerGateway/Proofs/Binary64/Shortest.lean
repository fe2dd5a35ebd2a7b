import PeerGateway.Binary64.Decimal
import PeerGateway.Proofs.Binary64.Powers
import PeerGateway.Proofs.Binary64.Rounding
import Mathlib.Tactic.FieldSimp

/-!
# Shortest decimals

The shortest decimal of a number is a point of a grid next to it. `decimalExponent_spec`
finds the coarsest grid to try, and seventeen digits after it the grid is finer than the numbers
are (`Binary64.exists_shortest`). So the decimal lies within half a step of its number
(`Binary64.shortest_near`) and has few digits (`Binary64.shortest_digits_lt`).
-/

namespace PeerGateway

/-! ## Powers of ten -/

theorem cast_tenTo (k : ℕ) : ((tenTo k : ℕ) : ℚ) = 10 ^ k := by
  rw [tenTo, Nat.pow_eq, Nat.cast_pow, Nat.cast_ofNat]

theorem tenTo_pos (k : ℕ) : 0 < tenTo k := Nat.pow_pos (by decide)

/-- A power of ten with any exponent as a quotient of two with natural ones. -/
theorem tenTo_div_tenTo (k : ℤ) : (tenTo k.toNat : ℚ) / tenTo (-k).toNat = 10 ^ k := by
  rw [cast_tenTo, cast_tenTo, ← zpow_natCast, ← zpow_natCast, ← zpow_sub₀ (by norm_num)]
  congr 1
  omega

/-- The greatest power of ten that a quotient is not below. -/
theorem decimalExponent_spec {num den : ℕ} (hnum : num ≠ 0) (hden : den ≠ 0)
    (hlow : -1100 ≤ (Nat.log2 num : ℤ) - Nat.log2 den)
    (hhigh : (Nat.log2 num : ℤ) - Nat.log2 den ≤ 1100) :
    (10 : ℚ) ^ decimalExponent num den ≤ num / den ∧
      (num / den : ℚ) < 10 ^ (decimalExponent num den + 1) := by
  obtain ⟨hle, hlt⟩ := two_zpow_log2_sub_le hnum hden
  have hpos : (0 : ℚ) < den := by exact_mod_cast Nat.pos_of_ne_zero hden
  have hfits : ∀ k : ℤ, (if 0 ≤ k then decide (den * tenTo k.toNat ≤ num)
      else decide (den ≤ num * tenTo (-k).toNat)) = decide ((10 : ℚ) ^ k ≤ num / den) := by
    intro k
    split_ifs with hk
    · rw [decide_eq_decide, le_div_iff₀ hpos, zpow_eq_pow_toNat hk, ← cast_tenTo, mul_comm]
      exact_mod_cast Iff.rfl
    · rw [decide_eq_decide, le_div_iff₀ hpos, zpow_eq_inv_pow_toNat (by omega), ← cast_tenTo,
        inv_mul_le_iff₀ (by exact_mod_cast tenTo_pos _), mul_comm]
      exact_mod_cast Iff.rfl
  unfold decimalExponent
  simp only [hfits]
  generalize hL : (Nat.log2 num : ℤ) - Nat.log2 den = L at *
  generalize hg : L * 30103 / 100000 = g
  have hleast : (10 : ℚ) ^ (g - 2) ≤ num / den :=
    (ten_zpow_le_two_zpow (by omega) (by omega)).trans hle
  have hgreatest : (num / den : ℚ) < 10 ^ (g + 2 + 1) :=
    hlt.trans_le (two_zpow_le_ten_zpow (by omega) (by omega))
  -- The first of four powers that is not above the quotient; the next one was tried before.
  simp only [List.find?_cons, List.find?_nil]
  by_cases h2 : (10 : ℚ) ^ (g + 2) ≤ num / den
  · simpa [h2] using hgreatest
  by_cases h1 : (10 : ℚ) ^ (g + 1) ≤ num / den
  · simpa [h2, h1, add_assoc] using not_le.mp h2
  by_cases h0 : (10 : ℚ) ^ g ≤ num / den
  · simpa [h2, h1, h0] using not_le.mp h1
  by_cases hm : (10 : ℚ) ^ (g - 1) ≤ num / den
  · simpa [h2, h1, h0, hm] using not_le.mp h0
  · have hnext : g - 2 + 1 = g - 1 := by ring
    simpa [h2, h1, h0, hm, hnext, hleast] using not_le.mp hm

/-! ## Decimals -/

/-- What a decimal stands for. -/
def Decimal.value (d : Decimal) : ℚ := d.digits * 10 ^ d.exponent

/-- Zeros are moved into the exponent. -/
theorem Decimal.trimmed_spec (fuel : ℕ) (d : Decimal) : (d.trimmed fuel).value = d.value ∧
    (d.trimmed fuel).digits ≤ d.digits ∧ d.exponent ≤ (d.trimmed fuel).exponent := by
  induction fuel generalizing d with
  | zero => exact ⟨rfl, Nat.le_refl _, Int.le_refl _⟩
  | succ fuel ih =>
    unfold trimmed
    split_ifs with hzero
    · obtain ⟨hvalue, hdigits, hexponent⟩ := ih ⟨d.digits / 10, d.exponent + 1⟩
      have hten : d.digits = d.digits / 10 * 10 := by omega
      refine ⟨hvalue.trans ?_, hdigits.trans (Nat.div_le_self _ _), by simp at hexponent; omega⟩
      have hcast : (d.digits : ℚ) = (d.digits / 10 : ℕ) * 10 := by exact_mod_cast hten
      rw [value, value, hcast, zpow_add₀ (by norm_num), zpow_one]
      ring
    · exact ⟨rfl, Nat.le_refl _, Int.le_refl _⟩

/-- The exponent of a decimal's first digit. -/
def Decimal.top (d : Decimal) : ℤ := d.exponent + (Nat.toDigits 10 d.digits).length - 1

/-- A decimal lies from one power of ten to the next. -/
theorem Decimal.top_spec {d : Decimal} (h : 0 < d.digits) :
    (10 : ℚ) ^ d.top ≤ d.value ∧ d.value < 10 ^ (d.top + 1) := by
  have hlength := Nat.length_toDigits_pos (b := 10) (n := d.digits)
  unfold top value
  generalize hcount : (Nat.toDigits 10 d.digits).length = count at *
  have hlow : 10 ^ (count - 1) ≤ d.digits := by
    rcases Nat.eq_or_lt_of_le hlength with hone | hmore
    · rw [← hone]
      exact h
    · refine Nat.not_lt.mp fun hlt => ?_
      have hle := (Nat.length_toDigits_le_iff (by decide) (by omega)).mpr hlt
      omega
  have hhigh : d.digits < 10 ^ count :=
    (Nat.length_toDigits_le_iff (by decide) hlength).mp hcount.le
  have hlow' : (10 : ℚ) ^ (count - 1) ≤ d.digits := by exact_mod_cast hlow
  have hhigh' : (d.digits : ℚ) < 10 ^ count := by exact_mod_cast hhigh
  constructor
  · calc (10 : ℚ) ^ (d.exponent + count - 1) = 10 ^ (count - 1) * 10 ^ d.exponent := by
          rw [← zpow_natCast, ← zpow_add₀ (by norm_num)]
          congr 1
          omega
      _ ≤ d.digits * 10 ^ d.exponent := by gcongr
  · calc (d.digits : ℚ) * 10 ^ d.exponent < 10 ^ count * 10 ^ d.exponent := by gcongr
      _ = 10 ^ (d.exponent + count - 1 + 1) := by
          rw [← zpow_natCast, ← zpow_add₀ (by norm_num)]
          congr 1
          omega

namespace Binary64

variable {value below above unit n : ℕ} {closed : Bool} {top k : ℤ}

/-- A point of the grid lies within the bounds. -/
theorem gridPoint?_near {d : ℕ} (hunit : 0 < unit)
    (h : gridPoint? value below above unit closed k = some d) :
    (value : ℚ) - below ≤ d * 10 ^ k * unit ∧ d * 10 ^ k * unit ≤ (value : ℚ) + above := by
  have hraise : (0 : ℚ) < tenTo (-k).toNat := by exact_mod_cast tenTo_pos _
  suffices value * tenTo (-k).toNat ≤ d * (unit * tenTo k.toNat) + below * tenTo (-k).toNat ∧
      d * (unit * tenTo k.toNat) ≤ value * tenTo (-k).toNat + above * tenTo (-k).toNat by
    obtain ⟨hlow, hhigh⟩ := this
    have hlow' : (value : ℚ) * tenTo (-k).toNat ≤
        d * (unit * tenTo k.toNat) + below * tenTo (-k).toNat := by exact_mod_cast hlow
    have hhigh' : (d : ℚ) * (unit * tenTo k.toNat) ≤
        value * tenTo (-k).toNat + above * tenTo (-k).toNat := by exact_mod_cast hhigh
    have hgrid : (d : ℚ) * 10 ^ k * unit = d * (unit * tenTo k.toNat) / tenTo (-k).toNat := by
      rw [← tenTo_div_tenTo]
      ring
    rw [hgrid, le_div_iff₀ hraise, div_le_iff₀ hraise]
    constructor <;> linarith
  have hpos : 0 < unit * tenTo k.toNat := Nat.mul_pos hunit (tenTo_pos _)
  have hsplit := Nat.div_add_mod' (value * tenTo (-k).toNat) (unit * tenTo k.toNat)
  have hmod := Nat.mod_lt (value * tenTo (-k).toNat) hpos
  unfold gridPoint? at h
  dsimp only at h
  generalize value * tenTo (-k).toNat / (unit * tenTo k.toNat) = low at *
  generalize value * tenTo (-k).toNat % (unit * tenTo k.toNat) = under at *
  generalize value * tenTo (-k).toNat = num at *
  generalize unit * tenTo k.toNat = den at *
  have hnext : (low + 1) * den = low * den + den := Nat.succ_mul _ _
  have hwithin : ∀ distance bound : ℕ, (if closed then decide (distance ≤ bound)
      else decide (distance < bound)) = true → distance ≤ bound := by
    intro distance bound
    split_ifs
    · exact of_decide_eq_true
    · exact fun hlt => (of_decide_eq_true hlt).le
  by_cases hlowHit : (if closed then decide (under ≤ below * tenTo (-k).toNat)
      else decide (under < below * tenTo (-k).toNat)) = true <;>
    by_cases hhighHit : (if closed then decide (den - under ≤ above * tenTo (-k).toNat)
      else decide (den - under < above * tenTo (-k).toNat)) = true <;>
    simp only [hlowHit, hhighHit, Bool.and_self, Bool.and_false, Bool.false_and,
      Bool.false_eq_true, if_true, if_false] at h
  · have hunder := hwithin _ _ hlowHit
    have hleft := hwithin _ _ hhighHit
    split_ifs at h <;> obtain rfl := Option.some.inj h <;> omega
  · have hunder := hwithin _ _ hlowHit
    obtain rfl := Option.some.inj h
    omega
  · have hleft := hwithin _ _ hhighHit
    obtain rfl := Option.some.inj h
    omega
  · exact absurd h (by simp)

/-- A grid finer than the bounds has a point between them. -/
theorem isSome_gridPoint? (hunit : 0 < unit) (hbounds : below ≤ above)
    (h : (10 : ℚ) ^ k * unit < 2 * below) :
    (gridPoint? value below above unit closed k).isSome = true := by
  have hraise : (0 : ℚ) < tenTo (-k).toNat := by exact_mod_cast tenTo_pos _
  have hfine : unit * tenTo k.toNat < 2 * (below * tenTo (-k).toNat) := by
    have hgrid : (10 : ℚ) ^ k * unit = unit * tenTo k.toNat / tenTo (-k).toNat := by
      rw [← tenTo_div_tenTo]
      ring
    rw [hgrid, div_lt_iff₀ hraise, mul_assoc] at h
    exact_mod_cast h
  have hmore := Nat.mul_le_mul_right (tenTo (-k).toNat) hbounds
  have hmod := Nat.mod_lt (value * tenTo (-k).toNat) (Nat.mul_pos hunit (tenTo_pos k.toNat))
  unfold gridPoint?
  dsimp only
  generalize value * tenTo (-k).toNat / (unit * tenTo k.toNat) = low at *
  generalize value * tenTo (-k).toNat % (unit * tenTo k.toNat) = under at *
  generalize unit * tenTo k.toNat = den at *
  have hwithin : ∀ distance bound : ℕ, distance < bound → (if closed then
      decide (distance ≤ bound) else decide (distance < bound)) = true := by
    intro distance bound hlt
    split_ifs
    · exact decide_eq_true hlt.le
    · exact decide_eq_true hlt
  rcases Nat.lt_or_ge under (below * tenTo (-k).toNat) with hnear | hfar
  · simp only [hwithin _ _ hnear, Bool.true_and, if_true]
    split_ifs <;> rfl
  · simp only [hwithin (den - under) (above * tenTo (-k).toNat) (by omega), Bool.and_true, if_true]
    split_ifs <;> rfl

/-- The first grid that has a point is among those that are tried. -/
theorem exists_shortestFrom
    (h : (gridPoint? value below above unit closed (top - 17)).isSome = true) (tries : ℕ) :
    ∀ n, n + tries = 17 → ∃ d k, shortestFrom value below above unit closed top (tries + 1) n =
      (Decimal.mk d k).trimmed 17 ∧ gridPoint? value below above unit closed k = some d ∧
        top - 17 ≤ k := by
  induction tries with
  | zero =>
    intro n hn
    obtain rfl : n = 17 := hn
    obtain ⟨d, hd⟩ := Option.isSome_iff_exists.mp h
    refine ⟨d, top - 17, ?_, hd, Int.le_refl _⟩
    simp only [shortestFrom, Nat.cast_ofNat, hd]
  | succ tries ih =>
    intro n hn
    rw [shortestFrom]
    cases hpoint : gridPoint? value below above unit closed (top - n) with
    | some d => exact ⟨d, top - n, rfl, hpoint, by omega⟩
    | none => exact ih (n + 1) (by omega)

/-! ## The shortest decimal of a number -/

/-- The magnitude of a finite number. -/
def size (x : Binary64) : ℚ := x.quanta / quantaPerUnit

/-- Half the step to the next greater number. -/
def halfStep (x : Binary64) : ℚ := 2 ^ x.scale / 2 / quantaPerUnit

section Shortest

variable {x : Binary64}

theorem quanta_eq (x : Binary64) : x.quanta = x.significand * 2 ^ x.scale := Nat.shiftLeft_eq _ _

theorem cast_quantaPerUnit_pos : (0 : ℚ) < quantaPerUnit := by
  rw [quantaPerUnit_eq]
  positivity

theorem size_pos (h : 0 < x.quanta) : 0 < x.size :=
  div_pos (by exact_mod_cast h) cast_quantaPerUnit_pos

/-- A step is no longer than the number. -/
theorem halfStep_le (h : 0 < x.quanta) : x.halfStep ≤ x.size / 2 := by
  have hsignificand : 1 ≤ x.significand := by
    by_contra hzero
    rw [quanta_eq, Nat.lt_one_iff.mp (Nat.not_le.mp hzero), Nat.zero_mul] at h
    exact Nat.lt_irrefl _ h
  have hstep : (2 : ℚ) ^ x.scale ≤ x.quanta := by
    rw [quanta_eq]
    exact_mod_cast Nat.le_mul_of_pos_left _ hsignificand
  calc x.halfStep = 2 ^ x.scale / quantaPerUnit / 2 := by rw [halfStep]; ring
    _ ≤ x.quanta / quantaPerUnit / 2 :=
        div_le_div_of_nonneg_right
          (div_le_div_of_nonneg_right hstep cast_quantaPerUnit_pos.le) zero_le_two

/-- Finite numbers are small enough for the search of a grid. -/
theorem log2_sub_log2_quarters (h : x.isFinite = true) :
    -1100 ≤ (Nat.log2 (4 * x.quanta) : ℤ) - Nat.log2 (4 * quantaPerUnit) ∧
      (Nat.log2 (4 * x.quanta) : ℤ) - Nat.log2 (4 * quantaPerUnit) ≤ 1100 := by
  have hunit : Nat.log2 (4 * quantaPerUnit) = unitScale + 2 := by
    rw [quantaPerUnit_eq, show 4 * 2 ^ unitScale = 2 ^ (unitScale + 2) by ring, Nat.log2_two_pow]
  have hquanta : Nat.log2 (4 * x.quanta) < greatestScale + 55 := by
    rcases Nat.eq_zero_or_pos x.quanta with hzero | hpos
    · rw [hzero, Nat.mul_zero, Nat.log2_zero]
      exact Nat.succ_pos _
    · refine (Nat.log2_lt (by omega)).mpr ?_
      calc 4 * x.quanta = 2 * (2 * x.quanta) := by ring
        _ < 2 * ((4 * leadingWeight - 1) * 2 ^ greatestScale) :=
            Nat.mul_lt_mul_of_pos_left (two_mul_quanta_lt h) (by decide)
        _ ≤ 2 * (4 * leadingWeight * 2 ^ greatestScale) :=
            Nat.mul_le_mul_left 2 (Nat.mul_le_mul_right _ (Nat.sub_le _ 1))
        _ = 2 ^ (greatestScale + 55) := by
            rw [leadingWeight_eq, Nat.pow_add]
            ring
  unfold unitScale at hunit
  unfold greatestScale at hquanta
  omega

/-- The shortest decimal is, up to its zeros, a point of one of eighteen grids. -/
theorem exists_shortest (h : x.isFinite = true) (hpos : 0 < x.quanta) : ∃ d : ℕ, ∃ k top : ℤ,
    x.shortest = (Decimal.mk d k).trimmed 17 ∧ top - 17 ≤ k ∧
      (10 : ℚ) ^ top ≤ x.size ∧ x.size < 10 ^ (top + 1) ∧
      |(d : ℚ) * 10 ^ k - x.size| ≤ x.halfStep := by
  obtain ⟨hlow, hhigh⟩ := log2_sub_log2_quarters h
  have hunit := quantaPerUnit_pos
  obtain ⟨hle, hlt⟩ := decimalExponent_spec (by omega) (by omega) hlow hhigh
  have hsize : ((4 * x.quanta : ℕ) : ℚ) / (4 * quantaPerUnit : ℕ) = x.size := by
    rw [size]
    push_cast
    field_simp
  rw [hsize] at hle hlt
  clear hlow hhigh
  have hstep : (1 <<< x.scale : ℕ) = 2 ^ x.scale := Nat.one_shiftLeft _
  unfold shortest
  simp only [hstep]
  generalize htop : decimalExponent (4 * x.quanta) (4 * quantaPerUnit) = top at *
  generalize hbelow : (if (x.significand = leadingWeight && decide (0 < x.scale)) = true then
    2 ^ x.scale else 2 * 2 ^ x.scale) = below
  have hbelowle : below ≤ 2 * 2 ^ x.scale := by
    rw [← hbelow]
    split_ifs <;> omega
  have hspacing : (10 : ℚ) ^ (top - 17) * (4 * quantaPerUnit : ℕ) < 2 * below := by
    have hcoarse : 4 * x.quanta < 2 * below * 10 ^ 17 := by
      have hsignificand := x.significand_lt
      have hpow := Nat.two_pow_pos x.scale
      rw [quanta_eq, ← hbelow]
      unfold leadingWeight at *
      split_ifs with hleading
      · simp only [Bool.and_eq_true, decide_eq_true_eq] at hleading
        rw [hleading.1]
        omega
      · nlinarith
    have hquanta : x.size * (4 * quantaPerUnit : ℕ) = (4 * x.quanta : ℕ) := by
      rw [← hsize]
      field_simp
    rw [zpow_sub₀ (by norm_num), div_mul_eq_mul_div, div_lt_iff₀ (by positivity)]
    calc (10 : ℚ) ^ top * (4 * quantaPerUnit : ℕ) ≤ x.size * (4 * quantaPerUnit : ℕ) :=
          mul_le_mul_of_nonneg_right hle (Nat.cast_nonneg _)
      _ = (4 * x.quanta : ℕ) := hquanta
      _ < 2 * below * 10 ^ (17 : ℤ) := by exact_mod_cast hcoarse
  obtain ⟨d, k, hshortest, hpoint, hk⟩ := exists_shortestFrom
    (isSome_gridPoint? (by omega) hbelowle hspacing) 17 0 rfl
  refine ⟨d, k, top, hshortest, hk, hle, hlt, ?_⟩
  obtain ⟨hnear, hnear'⟩ := gridPoint?_near (by omega) hpoint
  have hcast : (below : ℚ) ≤ 2 * 2 ^ x.scale := by exact_mod_cast hbelowle
  push_cast at hnear hnear'
  have hunit' := cast_quantaPerUnit_pos
  have hsize' : x.size * quantaPerUnit = x.quanta := div_mul_cancel₀ _ hunit'.ne'
  have hhalf : x.halfStep * quantaPerUnit = 2 ^ x.scale / 2 := div_mul_cancel₀ _ hunit'.ne'
  rw [abs_le]
  constructor
  · refine le_of_mul_le_mul_right ?_ hunit'
    linarith
  · refine le_of_mul_le_mul_right ?_ hunit'
    linarith

/-- The shortest decimal lies within half a step of its number. -/
theorem shortest_near (h : x.isFinite = true) (hpos : 0 < x.quanta) :
    |x.shortest.value - x.size| ≤ x.halfStep := by
  obtain ⟨d, k, top, hshortest, -, -, -, hnear⟩ := exists_shortest h hpos
  rw [hshortest, (Decimal.trimmed_spec 17 _).1]
  exact hnear

theorem shortest_value_bounds (h : x.isFinite = true) (hpos : 0 < x.quanta) :
    x.size / 2 ≤ x.shortest.value ∧ x.shortest.value ≤ 3 / 2 * x.size := by
  have hnear := abs_le.mp (shortest_near h hpos)
  have hhalf := halfStep_le hpos
  constructor <;> linarith

theorem shortest_digits_pos (h : x.isFinite = true) (hpos : 0 < x.quanta) :
    0 < x.shortest.digits := by
  by_contra hzero
  have hbound := (shortest_value_bounds h hpos).1
  have hsize := size_pos hpos
  rw [Decimal.value, Nat.le_zero.mp (Nat.not_lt.mp hzero), Nat.cast_zero, zero_mul] at hbound
  linarith

/-- A shortest decimal has nineteen digits at most. -/
theorem shortest_digits_lt (h : x.isFinite = true) (hpos : 0 < x.quanta) :
    x.shortest.digits < 10 ^ 19 := by
  obtain ⟨d, k, top, hshortest, hk, -, hsize, hnear⟩ := exists_shortest h hpos
  rw [hshortest]
  refine Nat.lt_of_le_of_lt (Decimal.trimmed_spec 17 _).2.1 ?_
  have hhalf := halfStep_le hpos
  have hvalue : (d : ℚ) * 10 ^ k ≤ 3 / 2 * x.size := by
    have := (abs_le.mp hnear).2
    linarith
  have hgrid : (10 : ℚ) ^ (top - 17) ≤ 10 ^ k := zpow_le_zpow_right₀ (by norm_num) hk
  have hten : (10 : ℚ) ^ (top + 1) = 10 ^ 18 * 10 ^ (top - 17) := by
    rw [← zpow_natCast, ← zpow_add₀ (by norm_num)]
    congr 1
    push_cast
    ring
  have hcast : (d : ℚ) * 10 ^ (top - 17) < 10 ^ 19 * 10 ^ (top - 17) := by
    calc (d : ℚ) * 10 ^ (top - 17) ≤ d * 10 ^ k := by gcongr
      _ ≤ 3 / 2 * x.size := hvalue
      _ < 3 / 2 * (10 ^ 18 * 10 ^ (top - 17)) := by rw [← hten]; linarith
      _ ≤ 10 ^ 19 * 10 ^ (top - 17) := by
        have : (0 : ℚ) < 10 ^ (top - 17) := by positivity
        linarith
  exact_mod_cast lt_of_mul_lt_mul_right hcast (by positivity)

theorem size_lt (h : x.isFinite = true) :
    x.size < 2 ^ ((greatestScale : ℤ) - unitScale + 54) := by
  have hquanta : (2 * x.quanta : ℚ) < 4 * leadingWeight * 2 ^ greatestScale := by
    have hlt := (two_mul_quanta_lt h).trans_le
      (Nat.mul_le_mul_right (2 ^ greatestScale) (Nat.sub_le (4 * leadingWeight) 1))
    exact_mod_cast hlt
  have hpow : (2 : ℚ) ^ ((greatestScale : ℤ) - unitScale + 54) * quantaPerUnit =
      4 * leadingWeight * 2 ^ greatestScale := by
    rw [quantaPerUnit_eq, leadingWeight_eq, Nat.cast_pow, Nat.cast_ofNat, ← zpow_natCast,
      ← zpow_natCast, ← zpow_add₀ (by norm_num), sub_add_eq_add_sub, sub_add_cancel,
      zpow_add₀ (by norm_num)]
    norm_num
    ring
  rw [size, div_lt_iff₀ cast_quantaPerUnit_pos, hpow]
  linarith [Nat.cast_nonneg (α := ℚ) x.quanta]

theorem le_size (hpos : 0 < x.quanta) : (2 : ℚ) ^ (-(unitScale : ℤ)) ≤ x.size := by
  have hone : (1 : ℚ) ≤ x.quanta := by exact_mod_cast hpos
  rw [size, le_div_iff₀ cast_quantaPerUnit_pos, quantaPerUnit_eq, Nat.cast_pow, Nat.cast_ofNat,
    zpow_neg, zpow_natCast, inv_mul_cancel₀ (by positivity)]
  exact hone

/-- The exponent of a shortest decimal has three digits at most. -/
theorem natAbs_top_shortest (h : x.isFinite = true) (hpos : 0 < x.quanta) :
    x.shortest.top.natAbs < 400 := by
  obtain ⟨hle, hlt⟩ := Decimal.top_spec (shortest_digits_pos h hpos)
  obtain ⟨hhalf, hmore⟩ := shortest_value_bounds h hpos
  have hunit : unitScale = 1074 := by rw [unitScale]
  have hgreatest : greatestScale = 2045 := by rw [greatestScale]
  have hgreat : (10 : ℚ) ^ x.shortest.top < 10 ^ (310 : ℤ) := by
    calc (10 : ℚ) ^ x.shortest.top ≤ 3 / 2 * x.size := hle.trans hmore
      _ < 2 ^ ((greatestScale : ℤ) - unitScale + 54) * 2 := by
        linarith [size_lt h, size_pos hpos]
      _ = 2 ^ ((greatestScale : ℤ) - unitScale + 54 + 1) := (zpow_add_one₀ (by norm_num) _).symm
      _ ≤ 10 ^ (310 : ℤ) := two_zpow_le_ten_zpow (by omega) (by omega)
  have hsmall : (10 : ℚ) ^ (-325 : ℤ) < 10 ^ (x.shortest.top + 1) := by
    calc (10 : ℚ) ^ (-325 : ℤ) ≤ 2 ^ (-(unitScale : ℤ) - 1) :=
          ten_zpow_le_two_zpow (by omega) (by omega)
      _ = 2 ^ (-(unitScale : ℤ)) * 2⁻¹ := zpow_sub_one₀ (by norm_num) _
      _ ≤ x.size / 2 := by linarith [le_size hpos]
      _ < 10 ^ (x.shortest.top + 1) := hhalf.trans_lt hlt
  have htop := (zpow_lt_zpow_iff_right₀ (by norm_num)).mp hgreat
  have hbottom := (zpow_lt_zpow_iff_right₀ (by norm_num)).mp hsmall
  omega

end Shortest

end Binary64

end PeerGateway
