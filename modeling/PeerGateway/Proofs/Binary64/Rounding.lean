import PeerGateway.Binary64.Arithmetic
import Mathlib.Algebra.Order.Ring.Nat
import Mathlib.Tactic.Ring
import Mathlib.Tactic.Linarith

/-!
# Rounded numbers

`Binary64.rounded` counts a fraction in units of a power of two of quanta and rounds that count
(`Binary64.exists_rounded`). The result is finite below half a step above the greatest finite
number (`Binary64.isFinite_rounded`), it stays on its side of every power of two
(`Binary64.quanta_rounded_le`, `Binary64.le_quanta_rounded`), and from the least normal number on
it is off by half of the last of 53 places at most (`Binary64.mul_quanta_rounded_le`).

Operations on numbers follow: with a bound on the size of its operands (`Binary64.IsWithin`) an
operation has a finite result, and a bound on that.
-/

namespace PeerGateway

/-! ## The nearest natural -/

section RoundedQuotient

variable {num den k : ℕ}

/-- A rounded quotient is off by a half at most. -/
theorem roundedQuotient_near (num : ℕ) (hden : 0 < den) :
    2 * (roundedQuotient num den * den) ≤ 2 * num + den ∧
      2 * num ≤ 2 * (roundedQuotient num den * den) + den := by
  have hdiv := Nat.div_add_mod' num den
  have hmod := Nat.mod_lt num hden
  have hsucc : (num / den + 1) * den = num / den * den + den := Nat.succ_mul _ _
  unfold roundedQuotient
  dsimp only
  split_ifs <;> omega

theorem roundedQuotient_le (hden : 0 < den) (h : num ≤ k * den) : roundedQuotient num den ≤ k := by
  by_contra hlt
  have hmore := Nat.mul_le_mul_right den (Nat.succ_le_of_lt (Nat.not_le.mp hlt))
  have hnear := (roundedQuotient_near num hden).1
  rw [Nat.succ_mul] at hmore
  omega

theorem le_roundedQuotient (hden : 0 < den) (h : k * den ≤ num) : k ≤ roundedQuotient num den := by
  by_contra hlt
  have hless := Nat.mul_le_mul_right den (Nat.succ_le_of_lt (Nat.not_le.mp hlt))
  have hnear := (roundedQuotient_near num hden).2
  rw [Nat.succ_mul] at hless
  omega

end RoundedQuotient

namespace Binary64

variable {x y : Binary64} {neg : Bool} {num den m shift units j k : ℕ}

/-! ## Words -/

/-- The scale of the greatest finite numbers. -/
@[irreducible] def greatestScale : ℕ := 2045

/-- One counts two to this many quanta. -/
@[irreducible] def unitScale : ℕ := 1074

theorem leadingWeight_eq : leadingWeight = 2 ^ 52 := by decide

theorem quantaPerUnit_eq : quantaPerUnit = 2 ^ unitScale := by
  rw [← Nat.one_shiftLeft, unitScale, quantaPerUnit]

theorem quantaPerUnit_pos : 0 < quantaPerUnit := quantaPerUnit_eq ▸ Nat.two_pow_pos unitScale

theorem isFinite_iff : x.isFinite = true ↔ x.magnitude < infiniteMagnitude := decide_eq_true_iff

theorem toNat_make (h : m < signWeight) :
    (make neg m).bits.toNat = m + if neg then signWeight else 0 := by
  refine UInt64.toNat_ofNat_of_lt' ?_
  unfold signWeight at *
  simp only [UInt64.size]
  split_ifs <;> omega

theorem magnitude_make (h : m < signWeight) : (make neg m).magnitude = m := by
  rw [magnitude, toNat_make h]
  unfold signWeight at *
  split_ifs <;> omega

theorem negative_make (h : m < signWeight) : (make neg m).negative = neg := by
  rw [negative, toNat_make h]
  cases neg <;> simp [h]

theorem isFinite_make (h : m < infiniteMagnitude) : (make neg m).isFinite = true := by
  rw [isFinite_iff, magnitude_make (Nat.lt_trans h (by decide))]
  exact h

theorem isNaN_eq_false (h : x.isFinite = true) : x.isNaN = false := by
  rw [isFinite_iff] at h
  exact decide_eq_false (by omega)

theorem isInfinite_eq_false (h : x.isFinite = true) : x.isInfinite = false := by
  rw [isFinite_iff] at h
  exact decide_eq_false (by omega)

@[simp] theorem magnitude_neg (x : Binary64) : x.neg.magnitude = x.magnitude :=
  magnitude_make (Nat.mod_lt _ (by decide))

@[simp] theorem isFinite_neg (x : Binary64) : x.neg.isFinite = x.isFinite := by
  simp [isFinite]

/-- A significand has 53 bits, and if it has not the leading one it counts quanta. -/
theorem significand_lt (x : Binary64) : x.significand < 2 * leadingWeight := by
  have hfraction : x.fraction < leadingWeight := Nat.mod_lt _ (by decide)
  unfold significand
  split_ifs <;> omega

theorem scale_le (h : x.isFinite = true) : x.scale ≤ greatestScale := by
  rw [isFinite_iff, infiniteMagnitude] at h
  have hfield : x.exponentField < 2047 := (Nat.div_lt_iff_lt_mul (by decide)).mpr h
  unfold scale greatestScale
  omega

/-- The word of a count of units has that count in it, also when the count is carried into the
next power of two. -/
theorem quanta_make (hunits : units ≤ 2 * leadingWeight) (hnorm : shift = 0 ∨ leadingWeight ≤ units)
    (h : shift * leadingWeight + units < infiniteMagnitude) :
    (make neg (shift * leadingWeight + units)).quanta = units * 2 ^ shift := by
  have hmagnitude := @magnitude_make neg _ (Nat.lt_trans h (by decide : _ < signWeight))
  unfold quanta significand scale exponentField fraction
  rw [hmagnitude, Nat.shiftLeft_eq]
  rcases Nat.lt_or_ge units leadingWeight with hlow | hhigh
  · obtain rfl := hnorm.resolve_right (Nat.not_le.mpr hlow)
    rw [Nat.zero_mul, Nat.zero_add, Nat.div_eq_of_lt hlow, Nat.mod_eq_of_lt hlow, if_pos rfl]
  · rcases Nat.eq_or_lt_of_le hunits with rfl | hlow
    · -- The count is carried.
      have hsplit : shift * leadingWeight + 2 * leadingWeight = (shift + 2) * leadingWeight := by
        ring
      rw [hsplit, Nat.mul_div_cancel _ (by decide), Nat.mul_mod_left, if_neg (by omega)]
      rw [show shift + 2 - 1 = shift + 1 by omega, Nat.add_zero, Nat.pow_succ]
      ring
    · obtain ⟨r, rfl⟩ := Nat.exists_eq_add_of_le hhigh
      have hr : r < leadingWeight := by omega
      have hsplit : shift * leadingWeight + (leadingWeight + r) =
          r + leadingWeight * (shift + 1) := by ring
      rw [hsplit, Nat.add_mul_div_left _ _ (by decide), Nat.add_mul_mod_self_left,
        Nat.div_eq_of_lt hr, Nat.mod_eq_of_lt hr, if_neg (by omega)]
      rw [show 0 + (shift + 1) - 1 = shift by omega]

/-! ## Rounding -/

/-- A count of units is rounded: of 53 bits, unless the units are quanta. -/
theorem exists_rounded (neg : Bool) (num : ℕ) (hden : 0 < den) : ∃ shift units,
    rounded neg num den = make neg (min (shift * leadingWeight + units) infiniteMagnitude) ∧
      units = roundedQuotient num (den * 2 ^ shift) ∧ units ≤ 2 * leadingWeight ∧
      (shift = 0 ∨ leadingWeight ≤ units ∧ leadingWeight * (den * 2 ^ shift) ≤ num) := by
  refine ⟨Nat.log2 (num / den) - 52, _, rfl, by rw [Nat.shiftLeft_eq], ?_, ?_⟩
  all_goals rw [Nat.shiftLeft_eq]
  all_goals generalize hL : Nat.log2 (num / den) = L
  · refine roundedQuotient_le (Nat.mul_pos hden (Nat.two_pow_pos _)) ?_
    have hlog : num / den < 2 ^ (L + 1) := hL ▸ Nat.lt_log2_self
    have hpow : 2 ^ (L + 1) ≤ 2 * leadingWeight * 2 ^ (L - 52) := by
      rw [leadingWeight_eq, ← Nat.pow_succ', ← Nat.pow_add]
      exact Nat.pow_le_pow_right (by decide) (by omega)
    calc num ≤ 2 ^ (L + 1) * den := ((Nat.div_lt_iff_lt_mul hden).mp hlog).le
      _ ≤ 2 * leadingWeight * 2 ^ (L - 52) * den := Nat.mul_le_mul_right den hpow
      _ = 2 * leadingWeight * (den * 2 ^ (L - 52)) := by ring
  · rcases Nat.lt_or_ge 52 L with hlarge | hsmall
    · right
      have hne : num / den ≠ 0 := by
        intro hzero
        rw [hzero, Nat.log2_zero] at hL
        omega
      have hlog : 2 ^ L ≤ num / den := hL ▸ Nat.log2_self_le hne
      have hpow : leadingWeight * 2 ^ (L - 52) = 2 ^ L := by
        rw [leadingWeight_eq, ← Nat.pow_add]
        congr 1
        omega
      have hle : leadingWeight * (den * 2 ^ (L - 52)) ≤ num := by
        calc leadingWeight * (den * 2 ^ (L - 52)) = 2 ^ L * den := by rw [← hpow]; ring
          _ ≤ num := (Nat.le_div_iff_mul_le hden).mp hlog
      exact ⟨le_roundedQuotient (Nat.mul_pos hden (Nat.two_pow_pos _)) hle, hle⟩
    · exact Or.inl (by omega)

/-- A fraction that lies less than half a step above the greatest finite number is rounded to a
finite number. -/
theorem isFinite_rounded (hden : 0 < den)
    (h : 2 * num < (4 * leadingWeight - 1) * (den * 2 ^ greatestScale)) :
    (rounded neg num den).isFinite = true := by
  obtain ⟨shift, units, hrounded, hunits, hle, hnorm⟩ := exists_rounded neg num hden
  suffices shift * leadingWeight + units < infiniteMagnitude by
    rw [hrounded, Nat.min_eq_left this.le]
    exact isFinite_make this
  have hshift : shift ≤ greatestScale := by
    rcases hnorm with rfl | ⟨-, hnum⟩
    · exact Nat.zero_le _
    · have hpow : 2 ^ shift * (2 * leadingWeight * den) <
          2 ^ (greatestScale + 1) * (2 * leadingWeight * den) := by
        calc 2 ^ shift * (2 * leadingWeight * den) = 2 * (leadingWeight * (den * 2 ^ shift)) := by
              ring
          _ ≤ 2 * num := Nat.mul_le_mul_left 2 hnum
          _ < (4 * leadingWeight - 1) * (den * 2 ^ greatestScale) := h
          _ ≤ 4 * leadingWeight * (den * 2 ^ greatestScale) :=
              Nat.mul_le_mul_right _ (Nat.sub_le _ 1)
          _ = 2 ^ (greatestScale + 1) * (2 * leadingWeight * den) := by
              rw [Nat.pow_succ]
              ring
      have hlt := (Nat.pow_lt_pow_iff_right (by decide)).mp (Nat.lt_of_mul_lt_mul_right hpow)
      omega
  rcases Nat.eq_or_lt_of_le hshift with rfl | hlow
  · have hlast : units < 2 * leadingWeight := by
      by_contra hge
      obtain rfl := Nat.le_antisymm hle (Nat.not_lt.mp hge)
      have hnear := (roundedQuotient_near num (Nat.mul_pos hden (Nat.two_pow_pos greatestScale))).1
      rw [← hunits] at hnear
      have hstep : 2 * (2 * leadingWeight * (den * 2 ^ greatestScale)) =
          (4 * leadingWeight - 1) * (den * 2 ^ greatestScale) + den * 2 ^ greatestScale := by
        rw [← Nat.succ_mul, ← Nat.mul_assoc]
        rfl
      omega
    simp only [infiniteMagnitude, greatestScale]
    omega
  · have hfield : (shift + 1) * leadingWeight ≤ greatestScale * leadingWeight :=
      Nat.mul_le_mul_right _ hlow
    have hpos : 0 < leadingWeight := by decide
    rw [Nat.succ_mul] at hfield
    simp only [infiniteMagnitude, greatestScale] at *
    omega

/-- What a finite rounded number counts. -/
theorem exists_quanta_rounded (hden : 0 < den) (h : (rounded neg num den).isFinite = true) :
    ∃ shift units, (rounded neg num den).quanta = units * 2 ^ shift ∧
      units = roundedQuotient num (den * 2 ^ shift) ∧
      (shift = 0 ∨ leadingWeight ≤ units ∧ leadingWeight * (den * 2 ^ shift) ≤ num) := by
  obtain ⟨shift, units, hrounded, hunits, hle, hnorm⟩ := exists_rounded neg num hden
  have hlt : shift * leadingWeight + units < infiniteMagnitude := by
    by_contra hge
    rw [hrounded, Nat.min_eq_right (Nat.not_lt.mp hge), isFinite_iff,
      magnitude_make (by decide)] at h
    exact Nat.lt_irrefl _ h
  refine ⟨shift, units, ?_, hunits, hnorm⟩
  rw [hrounded, Nat.min_eq_left hlt.le]
  exact quanta_make hle (hnorm.imp_right And.left) hlt

/-- A fraction is not rounded up past a power of two. -/
theorem quanta_rounded_le (hden : 0 < den) (h : (rounded neg num den).isFinite = true)
    (hnum : num ≤ 2 ^ j * den) : (rounded neg num den).quanta ≤ 2 ^ j := by
  obtain ⟨shift, units, hquanta, hunits, hnorm⟩ := exists_quanta_rounded hden h
  have hshift : shift ≤ j := by
    rcases hnorm with rfl | ⟨-, hle⟩
    · exact Nat.zero_le _
    · have hpow : 2 ^ shift * den ≤ 2 ^ j * den := by
        calc 2 ^ shift * den = 1 * (den * 2 ^ shift) := by ring
          _ ≤ leadingWeight * (den * 2 ^ shift) := Nat.mul_le_mul_right _ (by decide)
          _ ≤ 2 ^ j * den := hle.trans hnum
      exact (Nat.pow_le_pow_iff_right (by decide)).mp (Nat.le_of_mul_le_mul_right hpow hden)
  obtain ⟨i, rfl⟩ := Nat.exists_eq_add_of_le hshift
  have hle : units ≤ 2 ^ i := by
    rw [hunits]
    refine roundedQuotient_le (Nat.mul_pos hden (Nat.two_pow_pos _)) (hnum.trans_eq ?_)
    rw [Nat.pow_add]
    ring
  calc (rounded neg num den).quanta = units * 2 ^ shift := hquanta
    _ ≤ 2 ^ i * 2 ^ shift := Nat.mul_le_mul_right _ hle
    _ = 2 ^ (shift + i) := by rw [Nat.pow_add, Nat.mul_comm]

/-- A fraction is not rounded down past a power of two. -/
theorem le_quanta_rounded (hden : 0 < den) (h : (rounded neg num den).isFinite = true)
    (hnum : 2 ^ j * den ≤ num) : 2 ^ j ≤ (rounded neg num den).quanta := by
  obtain ⟨shift, units, hquanta, hunits, hnorm⟩ := exists_quanta_rounded hden h
  rw [hquanta]
  rcases Nat.le_total shift j with hle | hge
  · obtain ⟨i, rfl⟩ := Nat.exists_eq_add_of_le hle
    have hunits' : 2 ^ i ≤ units := by
      rw [hunits]
      refine le_roundedQuotient (Nat.mul_pos hden (Nat.two_pow_pos _)) (Eq.trans_le ?_ hnum)
      rw [Nat.pow_add]
      ring
    rw [Nat.pow_add, Nat.mul_comm]
    exact Nat.mul_le_mul_right _ hunits'
  · rcases hnorm with rfl | ⟨hnormal, -⟩
    · obtain rfl := Nat.le_zero.mp hge
      have hone : 1 ≤ units := by
        rw [hunits]
        exact le_roundedQuotient (Nat.mul_pos hden (Nat.two_pow_pos _)) (by simpa using hnum)
      simpa using hone
    · calc 2 ^ j ≤ 1 * 2 ^ shift := by
            rw [Nat.one_mul]
            exact Nat.pow_le_pow_right (by decide) hge
        _ ≤ units * 2 ^ shift := Nat.mul_le_mul_right _ (Nat.le_trans (by decide) hnormal)

/-- Normal numbers are rounded up by half of the last of 53 places at most. -/
theorem mul_quanta_rounded_le (hden : 0 < den) (h : (rounded neg num den).isFinite = true)
    (hnum : 2 * leadingWeight * den ≤ num) :
    2 * leadingWeight * ((rounded neg num den).quanta * den) ≤ (2 * leadingWeight + 1) * num := by
  obtain ⟨shift, units, hquanta, hunits, hnorm⟩ := exists_quanta_rounded hden h
  have hnear := (roundedQuotient_near num (Nat.mul_pos hden (Nat.two_pow_pos shift))).1
  rw [← hunits] at hnear
  have hsmall : leadingWeight * (den * 2 ^ shift) ≤ num := by
    rcases hnorm with rfl | ⟨-, hle⟩
    · rw [Nat.pow_zero, Nat.mul_one]
      exact Nat.le_trans (by rw [Nat.mul_assoc]; omega) hnum
    · exact hle
  rw [hquanta]
  calc 2 * leadingWeight * (units * 2 ^ shift * den)
      = leadingWeight * (2 * (units * (den * 2 ^ shift))) := by ring
    _ ≤ leadingWeight * (2 * num + den * 2 ^ shift) := Nat.mul_le_mul_left _ hnear
    _ = 2 * leadingWeight * num + leadingWeight * (den * 2 ^ shift) := by ring
    _ ≤ 2 * leadingWeight * num + num := Nat.add_le_add_left hsmall _
    _ = (2 * leadingWeight + 1) * num := (Nat.succ_mul _ _).symm

/-! ## Operations -/

/-- A finite number of magnitude at most `2 ^ k`. -/
structure IsWithin (k : ℕ) (x : Binary64) : Prop where
  isFinite : x.isFinite = true
  quanta_le : x.quanta ≤ 2 ^ (unitScale + k)

/-- The exponents of two that are finite numbers. -/
def greatestExponent : ℕ := 1023

theorem IsWithin.mono (h : x.IsWithin j) (hjk : j ≤ k) : x.IsWithin k :=
  ⟨h.isFinite, h.quanta_le.trans (Nat.pow_le_pow_right (by decide) (by omega))⟩

theorem isWithin_rounded (hden : 0 < den) (hk : k ≤ greatestExponent)
    (h : num ≤ 2 ^ (unitScale + k) * den) : (rounded neg num den).IsWithin k := by
  have hfinite : (rounded neg num den).isFinite = true := by
    refine isFinite_rounded hden ?_
    have hpow : 2 ^ (unitScale + k) ≤ leadingWeight * 2 ^ greatestScale := by
      rw [leadingWeight_eq, ← Nat.pow_add]
      refine Nat.pow_le_pow_right (by decide) ?_
      simp only [unitScale, greatestScale, greatestExponent] at *
      omega
    calc 2 * num ≤ 2 * (2 ^ (unitScale + k) * den) := Nat.mul_le_mul_left 2 h
      _ ≤ 2 * (leadingWeight * 2 ^ greatestScale * den) :=
          Nat.mul_le_mul_left 2 (Nat.mul_le_mul_right den hpow)
      _ = 2 * leadingWeight * (den * 2 ^ greatestScale) := by ring
      _ < (4 * leadingWeight - 1) * (den * 2 ^ greatestScale) :=
          Nat.mul_lt_mul_of_pos_right (by decide) (Nat.mul_pos hden (Nat.two_pow_pos _))
  exact ⟨hfinite, quanta_rounded_le hden hfinite h⟩

theorem isWithin_ofNat {n : ℕ} (hk : k ≤ greatestExponent) (h : n ≤ 2 ^ k) :
    (ofNat n).IsWithin k := by
  refine isWithin_rounded Nat.one_pos hk ?_
  rw [quantaPerUnit_eq, Nat.pow_add, Nat.mul_one, Nat.mul_comm]
  exact Nat.mul_le_mul_left _ h

/-- Naturals that lie less than half a step above the greatest finite number. -/
theorem isFinite_ofNat {n : ℕ} (h : 2 * n < (4 * leadingWeight - 1) * 2 ^ 971) :
    (ofNat n).isFinite = true := by
  refine isFinite_rounded Nat.one_pos ?_
  have hpow : 2 ^ greatestScale = 2 ^ 971 * quantaPerUnit := by
    rw [quantaPerUnit_eq, ← Nat.pow_add, greatestScale, unitScale]
  rw [hpow, Nat.one_mul, ← Nat.mul_assoc, ← Nat.mul_assoc]
  exact Nat.mul_lt_mul_of_pos_right h quantaPerUnit_pos

theorem isWithin_zero (neg : Bool) (k : ℕ) : (make neg 0).IsWithin k where
  isFinite := isFinite_make (by decide)
  quanta_le := by
    have hquanta := @quanta_make neg 0 0 (by decide) (Or.inl rfl) (by decide)
    rw [Nat.zero_mul, Nat.zero_add, Nat.zero_mul] at hquanta
    rw [hquanta]
    exact Nat.zero_le _

/-- A finite number of magnitude at least `2 ^ k`. -/
structure IsAtLeast (k : ℕ) (x : Binary64) : Prop where
  isFinite : x.isFinite = true
  le_quanta : 2 ^ (unitScale + k) ≤ x.quanta

theorem IsAtLeast.quanta_pos (h : x.IsAtLeast k) : 0 < x.quanta :=
  Nat.lt_of_lt_of_le (Nat.two_pow_pos _) h.le_quanta

theorem isAtLeast_ofNat {n : ℕ} (hn : 2 ^ k ≤ n) (h : (ofNat n).isFinite = true) :
    (ofNat n).IsAtLeast k := by
  refine ⟨h, le_quanta_rounded Nat.one_pos h ?_⟩
  rw [quantaPerUnit_eq, Nat.pow_add, Nat.mul_one, Nat.mul_comm]
  exact Nat.mul_le_mul_right _ hn

theorem isZero_eq_false (h : 0 < x.quanta) : x.isZero = false := by
  refine decide_eq_false fun hzero => Nat.ne_of_gt h ?_
  simp [quanta, significand, exponentField, fraction, hzero]

/-- A finite number lies half a step and more below what would be rounded to infinity. -/
theorem two_mul_quanta_lt (h : x.isFinite = true) :
    2 * x.quanta < (4 * leadingWeight - 1) * 2 ^ greatestScale := by
  have hscale : 2 ^ x.scale ≤ 2 ^ greatestScale := Nat.pow_le_pow_right (by decide) (scale_le h)
  have hsignificand : 2 * x.significand ≤ 4 * leadingWeight - 2 := by
    have := x.significand_lt
    omega
  calc 2 * x.quanta = 2 * x.significand * 2 ^ x.scale := by rw [quanta, Nat.shiftLeft_eq]; ring
    _ ≤ (4 * leadingWeight - 2) * 2 ^ greatestScale := Nat.mul_le_mul hsignificand hscale
    _ < (4 * leadingWeight - 1) * 2 ^ greatestScale :=
        Nat.mul_lt_mul_of_pos_right (by decide) (Nat.two_pow_pos _)

theorem quanta_le_of_isFinite (h : x.isFinite = true) :
    x.quanta ≤ 2 ^ (unitScale + (greatestExponent + 1)) := by
  have hlt : 2 * x.quanta < 2 * 2 ^ (unitScale + (greatestExponent + 1)) := by
    calc 2 * x.quanta < (4 * leadingWeight - 1) * 2 ^ greatestScale := two_mul_quanta_lt h
      _ ≤ 4 * leadingWeight * 2 ^ greatestScale := Nat.mul_le_mul_right _ (Nat.sub_le _ _)
      _ = 2 * 2 ^ (unitScale + (greatestExponent + 1)) := by
          have hsplit : unitScale + (greatestExponent + 1) = 53 + greatestScale := by
            simp only [unitScale, greatestScale, greatestExponent]
          rw [leadingWeight_eq, hsplit, Nat.pow_add]
          ring
  omega

theorem mul_eq_rounded (hx : x.isFinite = true) (hy : y.isFinite = true) :
    x * y = rounded (x.negative != y.negative) (x.quanta * y.quanta) quantaPerUnit := by
  show mul x y = _
  simp [mul, isNaN_eq_false, isInfinite_eq_false, hx, hy]

theorem div_eq_rounded (hx : x.isFinite = true) (hy : y.IsAtLeast k) :
    x / y = rounded (x.negative != y.negative) (x.quanta * quantaPerUnit) y.quanta := by
  have hzero := isZero_eq_false hy.quanta_pos
  show div x y = _
  simp [div, isNaN_eq_false, isInfinite_eq_false, hx, hy.isFinite, hzero]

theorem IsWithin.mul (hx : x.IsWithin j) (hy : y.IsWithin k) (hjk : j + k ≤ greatestExponent) :
    (x * y).IsWithin (j + k) := by
  rw [mul_eq_rounded hx.isFinite hy.isFinite]
  refine isWithin_rounded quantaPerUnit_pos hjk ?_
  calc x.quanta * y.quanta ≤ 2 ^ (unitScale + j) * 2 ^ (unitScale + k) :=
        Nat.mul_le_mul hx.quanta_le hy.quanta_le
    _ = 2 ^ (unitScale + (j + k)) * quantaPerUnit := by
        rw [quantaPerUnit_eq, ← Nat.pow_add, ← Nat.pow_add]
        congr 1
        omega

theorem isWithin_div (hx : x.isFinite = true) (hle : x.quanta ≤ 2 ^ (unitScale + (j + k)))
    (hy : y.IsAtLeast k) (hj : j ≤ greatestExponent) : (x / y).IsWithin j := by
  rw [div_eq_rounded hx hy]
  refine isWithin_rounded hy.quanta_pos hj ?_
  calc x.quanta * quantaPerUnit ≤ 2 ^ (unitScale + (j + k)) * quantaPerUnit :=
        Nat.mul_le_mul_right _ hle
    _ = 2 ^ (unitScale + j) * 2 ^ (unitScale + k) := by
        rw [quantaPerUnit_eq, ← Nat.pow_add, ← Nat.pow_add]
        congr 1
        omega
    _ ≤ 2 ^ (unitScale + j) * y.quanta := Nat.mul_le_mul_left _ hy.le_quanta

/-- The quotient of a finite number by one that is not below one is finite. -/
theorem isFinite_div (hx : x.isFinite = true) (hy : y.IsAtLeast k) :
    (x / y).isFinite = true := by
  rw [div_eq_rounded hx hy]
  have hone : quantaPerUnit ≤ y.quanta :=
    quantaPerUnit_eq ▸ (Nat.pow_le_pow_right (by decide) (Nat.le_add_right _ k)).trans hy.le_quanta
  refine isFinite_rounded hy.quanta_pos ?_
  calc 2 * (x.quanta * quantaPerUnit) ≤ 2 * (x.quanta * y.quanta) :=
        Nat.mul_le_mul_left 2 (Nat.mul_le_mul_left _ hone)
    _ = 2 * x.quanta * y.quanta := by ring
    _ < (4 * leadingWeight - 1) * 2 ^ greatestScale * y.quanta :=
        Nat.mul_lt_mul_of_pos_right (two_mul_quanta_lt hx) hy.quanta_pos
    _ = (4 * leadingWeight - 1) * (y.quanta * 2 ^ greatestScale) := by ring

theorem natAbs_signedQuanta (x : Binary64) : x.signedQuanta.natAbs = x.quanta := by
  unfold signedQuanta
  split_ifs <;> simp

theorem add_eq_ofSigned (hx : x.isFinite = true) (hy : y.isFinite = true) :
    x + y = ofSigned (x.negative && y.negative && x.isZero && y.isZero)
      (x.signedQuanta + y.signedQuanta) 1 := by
  show add x y = _
  simp [add, isNaN_eq_false, isInfinite_eq_false, hx, hy]

theorem IsWithin.add (hx : x.IsWithin k) (hy : y.IsWithin k) (hk : k + 1 ≤ greatestExponent) :
    (x + y).IsWithin (k + 1) := by
  rw [add_eq_ofSigned hx.isFinite hy.isFinite, ofSigned]
  split_ifs
  · exact isWithin_zero _ _
  · refine isWithin_rounded Nat.one_pos hk ?_
    rw [Nat.mul_one]
    calc (x.signedQuanta + y.signedQuanta).natAbs ≤ x.quanta + y.quanta := by
          rw [← natAbs_signedQuanta x, ← natAbs_signedQuanta y]
          exact Int.natAbs_add_le _ _
      _ ≤ 2 ^ (unitScale + k) + 2 ^ (unitScale + k) := Nat.add_le_add hx.quanta_le hy.quanta_le
      _ = 2 ^ (unitScale + (k + 1)) := by rw [← Nat.add_assoc, Nat.pow_succ]; ring

theorem negative_rounded (neg : Bool) (num den : ℕ) : (rounded neg num den).negative = neg :=
  negative_make (Nat.lt_of_le_of_lt (Nat.min_le_right _ _) (by decide))

theorem negative_ofNat (n : ℕ) : (ofNat n).negative = false := negative_rounded _ _ _

theorem signedQuanta_of_negative_eq_false (h : x.negative = false) :
    x.signedQuanta = (x.quanta : Int) := by
  rw [signedQuanta, h]
  rfl

/-- A sum of numbers that are not negative is at least what the first is. -/
theorem IsAtLeast.add (hx : x.IsAtLeast k) (hxneg : x.negative = false)
    (hy : y.isFinite = true) (hyneg : y.negative = false) (h : (x + y).isFinite = true) :
    (x + y).IsAtLeast k := by
  have hsum : x + y = rounded false (x.quanta + y.quanta) 1 := by
    have hpos := hx.quanta_pos
    rw [add_eq_ofSigned hx.isFinite hy, ofSigned, signedQuanta_of_negative_eq_false hxneg,
      signedQuanta_of_negative_eq_false hyneg, ← Int.natCast_add, if_neg (by omega),
      decide_eq_false (by omega), Int.natAbs_natCast]
  rw [hsum] at h ⊢
  refine ⟨h, le_quanta_rounded Nat.one_pos h ?_⟩
  rw [Nat.mul_one]
  exact hx.le_quanta.trans (Nat.le_add_right _ _)

theorem IsWithin.cappedAt (hx : x.IsWithin k) (hy : y.IsWithin k) : (x.cappedAt y).IsWithin k := by
  unfold Binary64.cappedAt
  split_ifs
  · exact hx
  · exact hy

end Binary64

end PeerGateway
