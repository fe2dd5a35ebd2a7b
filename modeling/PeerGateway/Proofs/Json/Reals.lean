import PeerGateway.Proofs.Binary64.Shortest
import PeerGateway.Proofs.Json.Numerals
import PeerGateway.Proofs.Json.Strings

/-!
# Texts of real numbers

The text of a finite number is a JSON number, and what is read is finite again
(`Json.exists_readNumber_realText`). It need not be the number that was written, since the reader
rounds more than once: it takes the digits as an integer and scales that by a power of ten.

The text of a decimal is read as its digits and an exponent
(`Json.exists_numberRest_decimalText`). Scaling down always comes to a finite number
(`Json.exists_scaled_of_neg`); scaling up does because a shortest decimal lies close to its number
and the greatest two numbers are read back exactly (`Json.exists_scaled_shortest`).
-/

namespace PeerGateway

namespace Json

/-! ## Digits -/

/-- The characters are decimal digits. -/
def AreDigits (cs : List Char) : Prop := ∀ c ∈ cs, c.isDigit = true

theorem areDigits_zeros (k : ℕ) : AreDigits (List.replicate k '0') := fun c hc => by
  rw [List.eq_of_mem_replicate hc]
  decide

theorem areDigits_toDigits (n : ℕ) : AreDigits (Nat.toDigits 10 n) := fun _ =>
  Nat.isDigit_of_mem_toDigits (by decide) (by decide)

theorem AreDigits.append {cs ds : List Char} (hcs : AreDigits cs) (hds : AreDigits ds) :
    AreDigits (cs ++ ds) := fun c hc => (List.mem_append.mp hc).elim (hcs c) (hds c)

/-- Digits that fit into a word are gathered. -/
theorem gatherDigits_ofChars {cs : List Char} (hcs : AreDigits cs) (s : Bytes) :
    ∀ v held, Nat.ofDigitChars 10 cs v < UInt64.size →
      gatherDigits { value := v, held := held } (Bytes.ofChars cs ++ s) =
        gatherDigits { value := Nat.ofDigitChars 10 cs v, held := held + cs.length } s := by
  induction cs with
  | nil => exact fun v held _ => rfl
  | cons c cs ih =>
    intro v held hlt
    obtain ⟨b, hb, hdigit, hvalue, -⟩ := Bytes.exists_byte_of_isDigit (hcs c List.mem_cons_self)
    rw [Nat.ofDigitChars_cons, Nat.mul_comm 10] at hlt
    have hfits : (Digits.mk v held 0).fits (c.toNat - '0'.toNat) = true := by
      have := Nat.lt_of_le_of_lt (le_ofDigitChars cs _) hlt
      simpa [Digits.fits] using this
    rw [Bytes.ofChars_cons, hb, List.append_assoc, List.singleton_append, gatherDigits,
      if_pos hdigit]
    simp only [hvalue, hfits, if_true]
    rw [ih (fun d hd => hcs d (List.mem_cons_of_mem c hd)) _ _ hlt, Nat.ofDigitChars_cons,
      Nat.mul_comm 10, List.length_cons, Nat.add_assoc, Nat.add_comm 1]

/-- Digits end where no digit follows. -/
theorem gatherDigits_end (d : Digits) {s : Bytes} (h : ∀ b ∈ s.head?, Bytes.isDigit b = false) :
    gatherDigits d s = (d, s) := by
  cases s with
  | nil => rfl
  | cons b s => simp [gatherDigits, h b rfl]

/-! ## Numbers with a point and an exponent -/

section Parts

variable {neg down : Bool} {significand : ℕ} {exponent : ℤ} {n : Number}
  {whole fraction : List Char} {tail : Bytes}

theorem exponentOrEnd_nil (h : realOf neg significand exponent = .ok n) :
    exponentOrEnd neg significand exponent [] = .ok (n, []) := by
  simp only [exponentOrEnd, h]

/-- The digits before the point. Zero may not come first unless it is alone. -/
theorem numberRest_ofChars (hwhole : AreDigits whole) (hne : whole ≠ [])
    (hlead : whole.head? = some '0' → whole = ['0'])
    (hlt : Nat.ofDigitChars 10 whole 0 < UInt64.size)
    (htail : ∀ b ∈ tail.head?, Bytes.isDigit b = false) :
    numberRest neg (Bytes.ofChars whole ++ tail) =
      numberEnd neg { value := Nat.ofDigitChars 10 whole 0, held := whole.length } tail := by
  have hgather := gatherDigits_ofChars hwhole tail 0 0 hlt
  rw [gatherDigits_end _ htail, Nat.zero_add] at hgather
  obtain ⟨c, cs, rfl⟩ := List.exists_cons_of_ne_nil hne
  obtain ⟨b, hb, hdigit, -, hzero⟩ := Bytes.exists_byte_of_isDigit (hwhole c List.mem_cons_self)
  rw [Bytes.ofChars_cons, hb, List.append_assoc, List.singleton_append] at hgather ⊢
  have hfirst : ¬(b = Bytes.ascii '0' &&
      (Bytes.ofChars cs ++ tail).head?.any Bytes.isDigit) = true := by
    intro hlong
    obtain ⟨hbyte, hmore⟩ := Bool.and_eq_true_iff.mp hlong
    obtain rfl := hzero (of_decide_eq_true hbyte)
    obtain rfl : cs = [] := (List.cons.inj (hlead rfl)).2
    rw [Bytes.ofChars_nil, List.nil_append] at hmore
    cases hb : tail.head? with
    | none => simp [hb] at hmore
    | some b => simp [hb, htail b hb] at hmore
  simp only [numberRest, hdigit, Bool.not_true, Bool.false_eq_true, if_false,
    if_neg hfirst, hgather]

/-- The digits after the point count down the exponent. -/
theorem numberRest_point (hwhole : AreDigits whole) (hne : whole ≠ [])
    (hlead : whole.head? = some '0' → whole = ['0']) (hfraction : AreDigits fraction)
    (hfne : fraction ≠ []) (hlt : Nat.ofDigitChars 10 (whole ++ fraction) 0 < UInt64.size)
    (htail : ∀ b ∈ tail.head?, Bytes.isDigit b = false) :
    numberRest neg (Bytes.ofChars whole ++ Bytes.ascii '.' :: (Bytes.ofChars fraction ++ tail)) =
      exponentOrEnd neg (Nat.ofDigitChars 10 (whole ++ fraction) 0) (-(fraction.length : ℤ))
        tail := by
  rw [Nat.ofDigitChars_append] at hlt ⊢
  have hwholelt := Nat.lt_of_le_of_lt (le_ofDigitChars fraction _) hlt
  have hlength : fraction.length ≠ 0 := fun h => hfne (List.length_eq_zero_iff.mp h)
  have hpoint : ∀ b ∈ (Bytes.ascii '.' :: (Bytes.ofChars fraction ++ tail)).head?,
      Bytes.isDigit b = false := by
    intro b hb
    obtain rfl := Option.some.inj hb
    decide
  rw [numberRest_ofChars hwhole hne hlead hwholelt hpoint]
  simp [numberEnd, fractionRest, gatherDigits_ofChars hfraction tail _ 0 hlt,
    gatherDigits_end _ htail, hlength]

/-- The digits of an exponent that is small enough for a number. -/
theorem decimal_exponent : ∀ m < 400, (decimal m).takeWhile Bytes.isDigit = decimal m ∧
    (decimal m).dropWhile Bytes.isDigit = [] ∧ (decimal m).head?.any Bytes.isDigit = true ∧
    (decimal m).foldl
      (fun n d => if exponentLimit < n then n else n * 10 + (d.toNat - 48)) 0 = m := by
  decide +kernel

theorem exponentDigits_decimal {m : ℕ} (hm : m < 400) {start : ℤ}
    (hexponent : (if down then start - m else start + m) = exponent)
    (hlimit : exponent.natAbs < 1000) (h : realOf neg significand exponent = .ok n) :
    exponentDigits neg significand start down (decimal m) = .ok (n, []) := by
  obtain ⟨htake, hdrop, hhead, hvalue⟩ := decimal_exponent m hm
  obtain ⟨i, t, hi, htext, -⟩ := exists_decimal_eq_cons m
  have hsmall : ¬exponentLimit < m := by
    unfold exponentLimit
    omega
  have hclamp : clampExponent exponent = exponent := by
    unfold clampExponent exponentLimit
    omega
  rw [htext] at htake hdrop hvalue ⊢
  simp only [exponentDigits, isDigit_digitByte i hi, if_true, htake, hdrop, hvalue, if_neg hsmall,
    hexponent, hclamp, h]

/-- The sign of an exponent as it is written. -/
def exponentMark (down : Bool) : Char := if down then '-' else '+'

theorem exponentRest_decimal {m : ℕ} (hm : m < 400) {start : ℤ}
    (hexponent : (if down then start - m else start + m) = exponent)
    (hlimit : exponent.natAbs < 1000) (h : realOf neg significand exponent = .ok n) :
    exponentRest neg significand start (Bytes.ascii (exponentMark down) :: decimal m) =
      .ok (n, []) := by
  have hdigits := exponentDigits_decimal hm hexponent hlimit h
  cases down with
  | true => exact hdigits
  | false => exact hdigits

end Parts

/-! ## The text of a decimal -/

theorem ofChars_point (cs ds : List Char) :
    Bytes.ofChars (cs ++ '.' :: ds) = Bytes.ofChars cs ++ Bytes.ascii '.' :: Bytes.ofChars ds :=
  List.flatMap_append

theorem AreDigits.take {cs : List Char} (h : AreDigits cs) (k : ℕ) : AreDigits (cs.take k) :=
  fun c hc => h c (List.mem_of_mem_take hc)

theorem AreDigits.drop {cs : List Char} (h : AreDigits cs) (k : ℕ) : AreDigits (cs.drop k) :=
  fun c hc => h c (List.mem_of_mem_drop hc)

section DecimalText

variable {neg : Bool} {d : Decimal} {n : Number}

/-- The digits of an integer that is written positionally, and one zero more, fit into a word. -/
theorem integer_lt (htop : d.top < 16) (hexponent : 0 ≤ d.exponent) :
    10 * (10 ^ d.exponent.toNat * d.digits) < UInt64.size := by
  have hlength := Nat.length_toDigits_pos (b := 10) (n := d.digits)
  have hdigits : d.digits < 10 ^ (Nat.toDigits 10 d.digits).length :=
    (Nat.length_toDigits_le_iff (by decide) hlength).mp (Nat.le_refl _)
  have hpow : 10 ^ d.exponent.toNat * 10 ^ (Nat.toDigits 10 d.digits).length ≤ 10 ^ 16 := by
    rw [← Nat.pow_add]
    refine Nat.pow_le_pow_right (by decide) ?_
    unfold Decimal.top at htop
    omega
  have hless : 10 ^ d.exponent.toNat * d.digits <
      10 ^ d.exponent.toNat * 10 ^ (Nat.toDigits 10 d.digits).length :=
    Nat.mul_lt_mul_of_pos_left hdigits (Nat.pow_pos (by decide))
  simp only [UInt64.size]
  omega

/-- An integer is written with a point and a zero. -/
theorem numberRest_integer (hpos : 0 < d.digits) (htop : d.top < 16) (hexponent : 0 ≤ d.exponent)
    (h : realOf neg (10 * (10 ^ d.exponent.toNat * d.digits)) (-1) = .ok n) :
    numberRest neg (Bytes.ofChars ((Nat.toDigits 10 d.digits ++
      List.replicate d.exponent.toNat '0') ++ '.' :: ['0'])) = .ok (n, []) := by
  have hvalue : Nat.ofDigitChars 10 (Nat.toDigits 10 d.digits ++
      List.replicate d.exponent.toNat '0' ++ ['0']) 0 =
        10 * (10 ^ d.exponent.toNat * d.digits) := by
    rw [Nat.ofDigitChars_append, Nat.ofDigitChars_append, Nat.ofDigitChars_ten_toDigits,
      Nat.ofDigitChars_replicate_zero]
    rfl
  have hread := @numberRest_point neg
    (Nat.toDigits 10 d.digits ++ List.replicate d.exponent.toNat '0') ['0'] []
    ((areDigits_toDigits _).append (areDigits_zeros _)) (by simp) ?_ (areDigits_zeros 1)
    (by simp) (hvalue.trans_lt (integer_lt htop hexponent)) (by simp)
  · rw [ofChars_point]
    rw [hvalue, List.append_nil] at hread
    exact hread.trans (exponentOrEnd_nil h)
  · intro hzero
    rw [List.head?_append_of_ne_nil _ Nat.toDigits_ne_nil] at hzero
    exact absurd (eq_zero_of_head?_toDigits (by decide) (by decide) hzero) (Nat.ne_of_gt hpos)

/-- A decimal with digits on both sides of the point. -/
theorem numberRest_mixed (hpos : 0 < d.digits) (hlt : d.digits < 10 ^ 19)
    (hexponent : d.exponent < 0) (htop : 0 ≤ d.top)
    (h : realOf neg d.digits d.exponent = .ok n) :
    numberRest neg (Bytes.ofChars ((Nat.toDigits 10 d.digits).take (d.top + 1).toNat ++
      '.' :: (Nat.toDigits 10 d.digits).drop (d.top + 1).toNat)) = .ok (n, []) := by
  have hvalue : Nat.ofDigitChars 10 ((Nat.toDigits 10 d.digits).take (d.top + 1).toNat ++
      (Nat.toDigits 10 d.digits).drop (d.top + 1).toNat) 0 = d.digits := by
    rw [List.take_append_drop, Nat.ofDigitChars_ten_toDigits]
  have hcount : (d.top + 1).toNat < (Nat.toDigits 10 d.digits).length := by
    unfold Decimal.top at htop ⊢
    omega
  have hlength : -(((Nat.toDigits 10 d.digits).drop (d.top + 1).toNat).length : ℤ) =
      d.exponent := by
    rw [List.length_drop]
    unfold Decimal.top at *
    omega
  have hsmall : d.digits < UInt64.size := hlt.trans (by decide)
  have hhead : ((Nat.toDigits 10 d.digits).take (d.top + 1).toNat).head? =
      (Nat.toDigits 10 d.digits).head? := by
    rw [List.head?_take, if_neg (by omega)]
  have hread := @numberRest_point neg ((Nat.toDigits 10 d.digits).take (d.top + 1).toNat)
    ((Nat.toDigits 10 d.digits).drop (d.top + 1).toNat) [] ((areDigits_toDigits _).take _) ?_ ?_
    ((areDigits_toDigits _).drop _) ?_ (hvalue.trans_lt hsmall) (by simp)
  · rw [ofChars_point]
    rw [hvalue, hlength, List.append_nil] at hread
    exact hread.trans (exponentOrEnd_nil h)
  · intro hnil
    rw [hnil] at hhead
    exact Nat.toDigits_ne_nil (List.head?_eq_none_iff.mp hhead.symm)
  · intro hzero
    rw [hhead] at hzero
    exact absurd (eq_zero_of_head?_toDigits (by decide) (by decide) hzero) (Nat.ne_of_gt hpos)
  · intro hnil
    rw [List.drop_eq_nil_iff] at hnil
    omega

/-- A decimal below one. -/
theorem numberRest_fraction (hlt : d.digits < 10 ^ 19) (htop : d.top < 0)
    (h : realOf neg d.digits d.exponent = .ok n) :
    numberRest neg (Bytes.ofChars (['0'] ++ '.' ::
      (List.replicate (-d.top - 1).toNat '0' ++ Nat.toDigits 10 d.digits))) = .ok (n, []) := by
  have hvalue : Nat.ofDigitChars 10 (['0'] ++
      (List.replicate (-d.top - 1).toNat '0' ++ Nat.toDigits 10 d.digits)) 0 = d.digits := by
    rw [Nat.ofDigitChars_append, Nat.ofDigitChars_append, Nat.ofDigitChars_replicate_zero]
    exact Nat.ofDigitChars_ten_toDigits
  have hlength : -((List.replicate (-d.top - 1).toNat '0' ++
      Nat.toDigits 10 d.digits).length : ℤ) = d.exponent := by
    rw [List.length_append, List.length_replicate]
    unfold Decimal.top at *
    omega
  have hsmall : d.digits < UInt64.size := hlt.trans (by decide)
  have hread := @numberRest_point neg ['0'] (List.replicate (-d.top - 1).toNat '0' ++
    Nat.toDigits 10 d.digits) [] (areDigits_zeros 1) (by simp) (fun _ => rfl)
    ((areDigits_zeros _).append (areDigits_toDigits _)) (by simp [Nat.toDigits_ne_nil])
    (hvalue.trans_lt hsmall) (by simp)
  rw [ofChars_point]
  rw [hvalue, hlength, List.append_nil] at hread
  exact hread.trans (exponentOrEnd_nil h)

/-- A decimal with one digit before the point and an exponent. -/
theorem numberRest_scientific (hlt : d.digits < 10 ^ 19) (htop : d.top.natAbs < 400) {c : Char}
    {cs : List Char}
    (hdigits : Nat.toDigits 10 d.digits = c :: cs) (h : realOf neg d.digits d.exponent = .ok n) :
    numberRest neg (Bytes.ofChars (c :: (if cs = [] then [] else '.' :: cs)) ++
      Bytes.ascii 'e' :: Bytes.ascii (exponentMark (decide (d.top < 0))) ::
        decimal d.top.natAbs) = .ok (n, []) := by
  have hvalue : Nat.ofDigitChars 10 ([c] ++ cs) 0 = d.digits := by
    rw [List.singleton_append, ← hdigits, Nat.ofDigitChars_ten_toDigits]
  have hall : AreDigits (c :: cs) := hdigits ▸ areDigits_toDigits _
  have hone : AreDigits [c] := fun e he =>
    List.mem_singleton.mp he ▸ hall c List.mem_cons_self
  have hrest : AreDigits cs := fun e he => hall e (List.mem_cons_of_mem c he)
  have hlead : [c].head? = some '0' → [c] = ['0'] := fun hc => by simpa using hc
  have hsmall : d.digits < UInt64.size := hlt.trans (by decide)
  have hcount : cs.length ≤ 18 := by
    have := (Nat.length_toDigits_le_iff (by decide) (by decide : 0 < 19)).mpr hlt
    rw [hdigits, List.length_cons] at this
    omega
  have htopeq : d.top = d.exponent + cs.length := by
    rw [Decimal.top, hdigits, List.length_cons]
    omega
  have hexponent : (if decide (d.top < 0) = true then -(cs.length : ℤ) - d.top.natAbs
      else -(cs.length : ℤ) + d.top.natAbs) = d.exponent := by
    simp only [decide_eq_true_eq]
    split_ifs <;> omega
  have htail : ∀ b ∈ (Bytes.ascii 'e' :: Bytes.ascii (exponentMark (decide (d.top < 0))) ::
      decimal d.top.natAbs).head?, Bytes.isDigit b = false := by
    intro b hb
    obtain rfl := Option.some.inj hb
    decide
  have hread := exponentRest_decimal htop hexponent (by omega) h
  have he : (Bytes.ascii 'e' = Bytes.ascii 'e' || Bytes.ascii 'e' = Bytes.ascii 'E') = true := by
    decide
  split_ifs with hnil
  · subst hnil
    rw [List.append_nil] at hvalue
    rw [numberRest_ofChars hone (by simp) hlead (hvalue.trans_lt hsmall) htail, hvalue]
    have hpoint : Bytes.ascii 'e' ≠ Bytes.ascii '.' := by decide
    simpa [numberEnd, hpoint] using hread
  · have hpoint := @numberRest_point neg [c] cs _ hone (by simp) hlead hrest hnil
      (hvalue.trans_lt hsmall) htail
    rw [hvalue] at hpoint
    rw [← List.singleton_append, ofChars_point, List.append_assoc, List.cons_append, hpoint,
      exponentOrEnd, if_pos he]
    exact hread

/-- The text of a decimal whose exponent is not small. -/
theorem decimalText_scientific (hplain : ¬(-5 ≤ d.top ∧ d.top < 16)) {c : Char} {cs : List Char}
    (hdigits : Nat.toDigits 10 d.digits = c :: cs) : Bytes.ofString (Binary64.decimalText d) =
      Bytes.ofChars (c :: (if cs = [] then [] else '.' :: cs)) ++
        Bytes.ascii 'e' :: Bytes.ascii (exponentMark (decide (d.top < 0))) ::
          decimal d.top.natAbs := by
  have htop : d.exponent + (c :: cs).length - 1 = d.top := by rw [Decimal.top, hdigits]
  have hbytes (cs : List Char) (down : Bool) (m : ℕ) : Bytes.ofString (String.ofList cs ++ "e" ++
      (if down then "-" else "+") ++ toString m) =
        Bytes.ofChars cs ++ Bytes.ascii 'e' :: Bytes.ascii (exponentMark down) :: decimal m := by
    rw [Nat.toString_eq_ofList_toDigits]
    cases down <;>
      simp [Bytes.ofString, Bytes.ofChars, exponentMark, decimal] <;> rfl
  unfold Binary64.decimalText
  simp only [hdigits, htop, Binary64.plainRange, Bool.and_eq_true, decide_eq_true_eq,
    if_neg hplain]
  cases cs with
  | nil => simpa using hbytes [c] (decide (d.top < 0)) d.top.natAbs
  | cons e cs => simpa using hbytes (c :: '.' :: e :: cs) (decide (d.top < 0)) d.top.natAbs

/-- The text of a decimal is read as its digits and its exponent, unless the exponent that is read
is negative. -/
theorem exists_numberRest_decimalText (neg : Bool) (hpos : 0 < d.digits) (hlt : d.digits < 10 ^ 19)
    (htop : d.top.natAbs < 400) : ∃ significand exponent, significand < UInt64.size ∧
      (exponent < 0 ∨ significand = d.digits ∧ exponent = d.exponent) ∧
        ∀ n, realOf neg significand exponent = .ok n →
          numberRest neg (Bytes.ofString (Binary64.decimalText d)) = .ok (n, []) := by
  have hsmall : d.digits < UInt64.size := hlt.trans (by decide)
  by_cases hplain : -5 ≤ d.top ∧ d.top < 16
  · have htopeq : d.exponent + (Nat.toDigits 10 d.digits).length - 1 = d.top := rfl
    unfold Binary64.decimalText
    simp only [htopeq, Binary64.plainRange, Bool.and_eq_true, decide_eq_true_eq, if_pos hplain]
    split_ifs with hexponent hwhole
    · refine ⟨_, -1, integer_lt hplain.2 hexponent, Or.inl (by decide), fun n h => ?_⟩
      have hread := numberRest_integer hpos hplain.2 hexponent h
      simpa [Bytes.ofString] using hread
    · refine ⟨_, _, hsmall, Or.inr ⟨rfl, rfl⟩, fun n h => ?_⟩
      have hread := numberRest_mixed hpos hlt (by omega) hwhole h
      rwa [Bytes.ofString, String.toList_ofList]
    · refine ⟨_, _, hsmall, Or.inr ⟨rfl, rfl⟩, fun n h => ?_⟩
      have hread := numberRest_fraction hlt (by omega) h
      simpa [Bytes.ofString] using hread
  · obtain ⟨c, cs, hdigits⟩ := List.exists_cons_of_ne_nil
      (Nat.toDigits_ne_nil : Nat.toDigits 10 d.digits ≠ [])
    refine ⟨_, _, hsmall, Or.inr ⟨rfl, rfl⟩, fun n h => ?_⟩
    rw [decimalText_scientific hplain hdigits]
    exact numberRest_scientific hlt htop hdigits h

end DecimalText

/-! ## Scaling -/

section Scaling

open Binary64

variable {x : Binary64}

/-- Powers of ten by which a number is scaled. -/
theorem ofDecimal_one {k : ℕ} (hk : k ≤ scaleStep) :
    ofDecimal false 1 k = ofNat (10 ^ k) ∧ (ofNat (10 ^ k)).isFinite = true := by
  have hten : 10 ^ k ≤ 10 ^ scaleStep := Nat.pow_le_pow_right (by decide) hk
  constructor
  · have hlog : Nat.log2 1 = 0 := by decide
    have hone : (1 : ℕ) ≠ 0 := by decide
    unfold ofDecimal
    simp only [hlog, if_neg hone, Nat.cast_zero, Int.zero_mul, Int.zero_ediv, Int.zero_add]
    unfold scaleStep at hk
    rw [if_neg (by omega), if_neg (by omega), if_pos (by omega), Int.toNat_natCast, Nat.one_mul]
    rfl
  · refine isFinite_ofNat (Nat.lt_of_le_of_lt (Nat.mul_le_mul_left 2 hten) ?_)
    decide +kernel

theorem isAtLeast_ofDecimal_one {k : ℕ} (hk : k ≤ scaleStep) :
    (ofDecimal false 1 k).IsAtLeast 0 := by
  obtain ⟨heq, hfinite⟩ := ofDecimal_one hk
  rw [heq]
  exact isAtLeast_ofNat (Nat.pow_pos (by decide)) hfinite

/-- Scaling down comes to a finite number. -/
theorem exists_scaled_of_neg (fuel : ℕ) : ∀ {x : Binary64} {exponent : ℤ}, x.isFinite = true →
    exponent < 0 → ∃ y, scaled x exponent fuel = .ok y ∧ y.isFinite = true := by
  induction fuel with
  | zero => exact fun hx _ => ⟨_, rfl, hx⟩
  | succ fuel ih =>
    intro x exponent hx hneg
    unfold scaled
    split_ifs with hstep hup hzero hup
    · omega
    · exact ⟨_, rfl, isFinite_div hx (isAtLeast_ofDecimal_one hstep)⟩
    · exact ⟨_, rfl, hx⟩
    · omega
    · refine ih (isFinite_div hx (isAtLeast_ofDecimal_one (Nat.le_refl _))) ?_
      unfold scaleStep at *
      omega

/-- Scaling up comes to a finite number if the result, rounded up three times, is below what is
rounded to infinity. -/
theorem exists_scaled_of_room {digits k : ℕ} (hpos : 0 < digits) (hdigits : digits < 10 ^ 19)
    (hk : k ≤ scaleStep) (hroom : 2 * (digits * 10 ^ k * quantaPerUnit) ≤
      (4 * leadingWeight - 5) * 2 ^ greatestScale) :
    ∃ y, scaled (ofNat digits) k 4 = .ok y ∧ y.isFinite = true := by
  obtain ⟨hpower, hfinite⟩ := ofDecimal_one hk
  have hwithin : (ofNat digits).IsWithin 64 :=
    isWithin_ofNat (by decide) (hdigits.le.trans (by decide))
  have hcount : ∀ n : ℕ, 0 < n → (ofNat n).isFinite = true → 2 * leadingWeight *
      (ofNat n).quanta ≤ (2 * leadingWeight + 1) * (n * quantaPerUnit) := by
    intro n hn hfin
    have hnormal : 2 * leadingWeight * 1 ≤ n * quantaPerUnit := by
      have hunit : 2 * leadingWeight ≤ quantaPerUnit := by decide +kernel
      exact (Nat.mul_one _).trans_le (hunit.trans (Nat.le_mul_of_pos_left _ hn))
    have hle := mul_quanta_rounded_le Nat.one_pos hfin hnormal
    rwa [Nat.mul_one] at hle
  have hproduct : (ofNat digits * ofNat (10 ^ k)).isFinite = true := by
    rw [mul_eq_rounded hwithin.isFinite hfinite]
    refine isFinite_rounded quantaPerUnit_pos ?_
    have hx := hcount digits hpos hwithin.isFinite
    have hy := hcount (10 ^ k) (Nat.pow_pos (by decide)) hfinite
    refine Nat.lt_of_mul_lt_mul_left (a := (2 * leadingWeight) * (2 * leadingWeight)) ?_
    calc (2 * leadingWeight) * (2 * leadingWeight) *
          (2 * ((ofNat digits).quanta * (ofNat (10 ^ k)).quanta))
        = 2 * ((2 * leadingWeight * (ofNat digits).quanta) *
            (2 * leadingWeight * (ofNat (10 ^ k)).quanta)) := by ring
      _ ≤ 2 * (((2 * leadingWeight + 1) * (digits * quantaPerUnit)) *
            ((2 * leadingWeight + 1) * (10 ^ k * quantaPerUnit))) :=
          Nat.mul_le_mul_left 2 (Nat.mul_le_mul hx hy)
      _ = (2 * leadingWeight + 1) * (2 * leadingWeight + 1) * quantaPerUnit *
            (2 * (digits * 10 ^ k * quantaPerUnit)) := by ring
      _ ≤ (2 * leadingWeight + 1) * (2 * leadingWeight + 1) * quantaPerUnit *
            ((4 * leadingWeight - 5) * 2 ^ greatestScale) := Nat.mul_le_mul_left _ hroom
      _ = (2 * leadingWeight + 1) * (2 * leadingWeight + 1) * (4 * leadingWeight - 5) *
            (quantaPerUnit * 2 ^ greatestScale) := by ring
      _ < (2 * leadingWeight) * (2 * leadingWeight) * (4 * leadingWeight - 1) *
            (quantaPerUnit * 2 ^ greatestScale) :=
          Nat.mul_lt_mul_of_pos_right (by decide)
            (Nat.mul_pos quantaPerUnit_pos (Nat.two_pow_pos _))
      _ = (2 * leadingWeight) * (2 * leadingWeight) *
            ((4 * leadingWeight - 1) * (quantaPerUnit * 2 ^ greatestScale)) := by ring
  refine ⟨_, ?_, hproduct⟩
  simp only [scaled, if_pos hk, Int.natAbs_natCast, Int.natCast_nonneg, if_true, hpower,
    isInfinite_eq_false hproduct, Bool.false_eq_true, if_false]

/-- The greatest two magnitudes leave the least room above. -/
theorem room_or_greatest (h : x.isFinite = true) :
    2 * x.quanta + 2 ^ x.scale ≤ (4 * leadingWeight - 5) * 2 ^ greatestScale ∨
      x.magnitude = infiniteMagnitude - 1 ∨ x.magnitude = infiniteMagnitude - 2 := by
  have hsignificand := x.significand_lt
  rw [quanta_eq]
  rcases Nat.eq_or_lt_of_le (scale_le h) with hscale | hscale
  · rw [hscale]
    rcases Nat.lt_or_ge (2 * x.significand + 1) (4 * leadingWeight - 4) with hroom | hlast
    · left
      calc 2 * (x.significand * 2 ^ greatestScale) + 2 ^ greatestScale
          = (2 * x.significand + 1) * 2 ^ greatestScale := by ring
        _ ≤ (4 * leadingWeight - 5) * 2 ^ greatestScale :=
            Nat.mul_le_mul_right _ (Nat.le_sub_one_of_lt hroom)
    · right
      have hfield : x.exponentField = 2046 := by
        rw [scale, greatestScale] at hscale
        omega
      have hfraction : x.significand = leadingWeight + x.fraction := by
        rw [significand, if_neg (by omega)]
      have hmagnitude : 2046 * leadingWeight + x.fraction = x.magnitude := by
        have hsplit := Nat.div_add_mod' x.magnitude leadingWeight
        rwa [← exponentField, ← fraction, hfield] at hsplit
      simp only [infiniteMagnitude, leadingWeight] at *
      omega
  · left
    have hpow : 2 ^ x.scale * 2 ≤ 2 ^ greatestScale := by
      rw [← Nat.pow_succ]
      exact Nat.pow_le_pow_right (by decide) hscale
    calc 2 * (x.significand * 2 ^ x.scale) + 2 ^ x.scale
        = (2 * x.significand + 1) * 2 ^ x.scale := by ring
      _ ≤ (4 * leadingWeight - 5) * 2 * 2 ^ x.scale := by
          refine Nat.mul_le_mul_right _ ?_
          simp only [leadingWeight] at *
          omega
      _ = (4 * leadingWeight - 5) * (2 ^ x.scale * 2) := by ring
      _ ≤ (4 * leadingWeight - 5) * 2 ^ greatestScale := Nat.mul_le_mul_left _ hpow

/-- The shortest decimal is that of the magnitude. -/
theorem shortest_congr {x y : Binary64} (h : x.magnitude = y.magnitude) :
    x.shortest = y.shortest := by
  have hsignificand : x.significand = y.significand := by
    rw [significand, significand, exponentField, exponentField, fraction, fraction, h]
  have hscale : x.scale = y.scale := by
    rw [scale, scale, exponentField, exponentField, h]
  have hquanta : x.quanta = y.quanta := by
    rw [quanta, quanta, hsignificand, hscale]
  unfold shortest
  rw [hsignificand, hscale, hquanta]

/-- The greatest two numbers. -/
theorem exists_scaled_greatest {m : ℕ}
    (hm : m = infiniteMagnitude - 1 ∨ m = infiniteMagnitude - 2) :
    ∃ y, scaled (ofNat (make false m).shortest.digits) (make false m).shortest.exponent 4 = .ok y ∧
      y.isFinite = true := by
  rcases hm with rfl | rfl
  · have hshortest : (make false (infiniteMagnitude - 1)).shortest = ⟨17976931348623157, 292⟩ := by
      decide +kernel
    rw [hshortest]
    exact ⟨make false (infiniteMagnitude - 1), by decide +kernel, by decide⟩
  · have hshortest : (make false (infiniteMagnitude - 2)).shortest = ⟨17976931348623155, 292⟩ := by
      decide +kernel
    rw [hshortest]
    exact ⟨make false (infiniteMagnitude - 1), by decide +kernel, by decide⟩

/-- Shortest decimals that are scaled up come to a finite number. -/
theorem exists_scaled_shortest (h : x.isFinite = true) (hpos : 0 < x.quanta)
    (hexponent : 0 ≤ x.shortest.exponent) : ∃ y,
      scaled (ofNat x.shortest.digits) x.shortest.exponent 4 = .ok y ∧ y.isFinite = true := by
  rcases room_or_greatest h with hroom | hlast
  · obtain ⟨k, hk⟩ := Int.eq_ofNat_of_zero_le hexponent
    have hdigits := shortest_digits_pos h hpos
    have hunit := cast_quantaPerUnit_pos
    have hvalue : x.shortest.value = (x.shortest.digits * 10 ^ k : ℕ) := by
      rw [Decimal.value, hk, zpow_natCast]
      push_cast
      rfl
    have hle : 2 * (x.shortest.digits * 10 ^ k * quantaPerUnit) ≤ 2 * x.quanta + 2 ^ x.scale := by
      have hnear := (abs_le.mp (shortest_near h hpos)).2
      have hsize : x.size * quantaPerUnit = x.quanta := div_mul_cancel₀ _ hunit.ne'
      have hhalf : x.halfStep * quantaPerUnit = 2 ^ x.scale / 2 := div_mul_cancel₀ _ hunit.ne'
      have hmul := mul_le_mul_of_nonneg_right hnear hunit.le
      rw [hvalue] at hmul
      have hcast : (2 * ((x.shortest.digits * 10 ^ k : ℕ) * quantaPerUnit) : ℚ) ≤
          2 * x.quanta + 2 ^ x.scale := by linarith
      exact_mod_cast hcast
    have hsmall : k ≤ scaleStep := by
      by_contra hlarge
      have hpow : 10 ^ (scaleStep + 1) ≤ 10 ^ k := Nat.pow_le_pow_right (by decide) (by omega)
      have hten := hpow.trans (Nat.le_mul_of_pos_left (10 ^ k) hdigits)
      have hover : (4 * leadingWeight - 5) * 2 ^ greatestScale <
          2 * (10 ^ (scaleStep + 1) * quantaPerUnit) := by decide +kernel
      have := Nat.mul_le_mul_left 2 (Nat.mul_le_mul_right quantaPerUnit hten)
      omega
    obtain ⟨y, hy, hfinite⟩ := exists_scaled_of_room hdigits (shortest_digits_lt h hpos) hsmall
      (hle.trans hroom)
    exact ⟨y, hk ▸ hy, hfinite⟩
  · have hlt : x.magnitude < signWeight := Nat.lt_of_lt_of_le (isFinite_iff.mp h) (by decide)
    rw [shortest_congr (@magnitude_make false _ hlt).symm]
    exact exists_scaled_greatest hlast

/-! ## The text of a number -/

theorem isZero_iff : x.isZero = true ↔ x.quanta = 0 := by
  rw [isZero, decide_eq_true_iff]
  constructor
  · intro hzero
    simp [quanta, significand, exponentField, fraction, hzero]
  · intro hzero
    by_contra hne
    have hsplit := Nat.div_add_mod' x.magnitude leadingWeight
    rw [quanta_eq, Nat.mul_eq_zero] at hzero
    have hsignificand := hzero.resolve_right (Nat.two_pow_pos _).ne'
    unfold significand at hsignificand
    split_ifs at hsignificand with hfield
    · rw [← exponentField, ← fraction, hfield, hsignificand] at hsplit
      omega
    · have hpos : 0 < leadingWeight := by decide
      omega

/-- A signed number is as finite as its magnitude. -/
theorem realOf_of_scaled {neg : Bool} {significand : ℕ} {exponent : ℤ} {y : Binary64}
    (h : scaled (ofNat significand) exponent 4 = .ok y) (hy : y.isFinite = true) :
    ∃ z, realOf neg significand exponent = .ok (.real z) ∧ z.isFinite = true := by
  refine ⟨if neg then -y else y, by simp only [realOf, h], ?_⟩
  split_ifs
  · exact (isFinite_neg y).trans hy
  · exact hy

theorem exists_scaled_of_word {significand : ℕ} {exponent : ℤ} (hlt : significand < UInt64.size)
    (hneg : exponent < 0) :
    ∃ y, scaled (ofNat significand) exponent 4 = .ok y ∧ y.isFinite = true :=
  exists_scaled_of_neg 4 (@isWithin_ofNat 64 significand (by decide) hlt.le).isFinite hneg

/-- The text of a finite number without its sign is read as a finite number. -/
theorem exists_numberRest_text (neg : Bool) (h : x.isFinite = true) : ∃ y,
    numberRest neg (Bytes.ofString (if x.isZero then "0.0" else decimalText x.shortest)) =
      .ok (.real y, []) ∧ y.isFinite = true := by
  split_ifs with hzero
  · obtain ⟨y, hy, hfinite⟩ := @exists_scaled_of_word 0 (-1) (by decide) (by decide)
    obtain ⟨z, hz, hzfinite⟩ := @realOf_of_scaled neg _ _ _ hy hfinite
    refine ⟨z, ?_, hzfinite⟩
    exact (@numberRest_point neg ['0'] ['0'] [] (areDigits_zeros 1) (by simp) (fun _ => rfl)
      (areDigits_zeros 1) (by simp) (by decide) (by simp)).trans (exponentOrEnd_nil hz)
  · have hpos : 0 < x.quanta := Nat.pos_of_ne_zero fun hquanta => hzero (isZero_iff.mpr hquanta)
    obtain ⟨significand, exponent, hlt, hcase, hread⟩ := exists_numberRest_decimalText neg
      (shortest_digits_pos h hpos) (shortest_digits_lt h hpos) (natAbs_top_shortest h hpos)
    have hscaled : ∃ y, scaled (ofNat significand) exponent 4 = .ok y ∧ y.isFinite = true := by
      rcases Int.lt_or_le exponent 0 with hneg | hnonneg
      · exact exists_scaled_of_word hlt hneg
      · obtain ⟨rfl, rfl⟩ := hcase.resolve_left (Int.not_lt.mpr hnonneg)
        exact exists_scaled_shortest h hpos hnonneg
    obtain ⟨y, hy, hfinite⟩ := hscaled
    obtain ⟨z, hz, hzfinite⟩ := realOf_of_scaled hy hfinite
    exact ⟨z, hread _ hz, hzfinite⟩

/-- The text of a finite number is a number, and that is finite. -/
theorem exists_readNumber_realText (h : x.isFinite = true) : ∃ b s y, realText x = b :: s ∧
    (b = Bytes.ascii '-' || Bytes.isDigit b) = true ∧ readNumber b s = .ok (.real y, []) ∧
      y.isFinite = true := by
  obtain ⟨y, hread, hfinite⟩ := exists_numberRest_text x.negative h
  have htext : realText x = Bytes.ofString ((if x.negative then "-" else "") ++
      if x.isZero then "0.0" else decimalText x.shortest) := by
    rw [realText, Binary64.text?, if_pos h]
  generalize (if x.isZero then "0.0" else decimalText x.shortest) = t at *
  cases hneg : x.negative with
  | true =>
    rw [hneg] at hread htext
    refine ⟨Bytes.ascii '-', Bytes.ofString t, y, ?_, by decide, ?_, hfinite⟩
    · rw [htext]
      simp [Bytes.ofString]
      rfl
    · simp only [readNumber, if_true, hread]
  | false =>
    rw [hneg] at hread htext
    have htext' : realText x = Bytes.ofString t := by simpa using htext
    cases hbytes : Bytes.ofString t with
    | nil =>
      rw [hbytes] at hread
      simp [numberRest] at hread
    | cons b s =>
      rw [hbytes] at hread
      have hdigit : Bytes.isDigit b = true := by
        cases hnone : Bytes.isDigit b with
        | true => rfl
        | false => simp [numberRest, hnone] at hread
      have hminus : b ≠ Bytes.ascii '-' := by
        rintro rfl
        exact absurd hdigit (by decide)
      refine ⟨b, s, y, htext'.trans hbytes, by simp [hdigit], ?_, hfinite⟩
      simp only [readNumber, if_neg hminus, hread]

end Scaling

end Json

end PeerGateway
