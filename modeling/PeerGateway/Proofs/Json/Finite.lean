import PeerGateway.Schema.Read
import PeerGateway.Proofs.Json.Reals

/-!
# Numbers that are read are finite

A number that grows to infinity while it is scaled is out of range (`isFinite_of_scaled`), so every
number that is read is finite (`gives_readNumber`), and all numbers of a JSON value are
(`gives_read`). `Gives` says of a reader that what it reads, if it does, has a property.
-/

namespace PeerGateway

namespace Json

open Binary64

/-- What is read has a property. -/
def Gives {α : Type} (P : α → Prop) (r : Except Fault (α × Bytes)) : Prop :=
  ∀ a s, r = .ok (a, s) → P a

section Gives

variable {α : Type} {P : α → Prop} {a : α} {s : Bytes}

theorem gives_error (f : Fault) : Gives P (.error f) := fun _ _ h => nomatch h

theorem gives_ok (h : P a) : Gives P (.ok (a, s)) := fun _ _ heq => by
  obtain ⟨rfl, -⟩ := Prod.mk.inj (Except.ok.inj heq)
  exact h

/-- All elements of a list that is read have the property of each. -/
theorem gives_elements {element : Bytes → Except Fault (α × Bytes)}
    (helement : ∀ s, Gives P (element s)) (fuel : ℕ) : ∀ (first : Bool) (read : List α) (s : Bytes),
    (∀ a ∈ read, P a) →
      Gives (fun as : List α => ∀ a ∈ as, P a) (elements element fuel first read s) := by
  induction fuel with
  | zero => exact fun _ _ _ _ => gives_error _
  | succ fuel ih =>
    intro first read s hread
    unfold elements
    split
    · exact gives_error _
    · split
      · exact gives_error _
      · exact gives_ok fun a ha => hread a (List.mem_reverse.mp ha)
    · split
      · exact gives_error _
      · rename_i b s heq
        exact ih _ _ _ (List.forall_mem_cons.mpr ⟨helement _ b s heq, hread⟩)

end Gives

/-! ## Numbers -/

/-- The binary64 number nearest to a number is finite. -/
def Number.IsFinite (n : Number) : Prop := ∀ x ∈ n.real?, x.isFinite = true

theorem isFinite_ofFraction (neg : Bool) {n : ℕ} (h : n < UInt64.size) :
    (ofFraction neg n 1).isFinite = true := by
  have hwithin : (ofFraction neg n 1).IsWithin 64 := by
    refine isWithin_rounded Nat.one_pos (by decide) ?_
    rw [quantaPerUnit_eq, Nat.pow_add, Nat.mul_one, Nat.mul_comm]
    exact Nat.mul_le_mul_left _ h.le
  exact hwithin.isFinite

theorem value_gatherDigits_lt (d : Digits) (s : Bytes) (h : d.value < UInt64.size) :
    (gatherDigits d s).1.value < UInt64.size := by
  fun_induction gatherDigits d s with
  | case1 => exact h
  | case2 d b s _ digit hfits ih =>
    refine ih ?_
    simp only [Digits.fits, Bool.and_eq_true, decide_eq_true_eq] at hfits
    exact hfits.2
  | case3 d b s _ digit _ ih => exact ih h
  | case4 => exact h

/-- The product of two finite numbers is finite unless it is rounded to infinity. -/
theorem isFinite_mul {x y : Binary64} (hx : x.isFinite = true) (hy : y.isFinite = true)
    (h : (x * y).isInfinite = false) : (x * y).isFinite = true := by
  rw [mul_eq_rounded hx hy] at h ⊢
  have hle : (rounded (x.negative != y.negative) (x.quanta * y.quanta) quantaPerUnit).magnitude ≤
      infiniteMagnitude := by
    rw [rounded, magnitude_make (Nat.lt_of_le_of_lt (Nat.min_le_right _ _) (by decide))]
    exact Nat.min_le_right _ _
  exact isFinite_iff.mpr (Nat.lt_of_le_of_ne hle (of_decide_eq_false h))

theorem isFinite_of_scaled (fuel : ℕ) : ∀ {x y : Binary64} {exponent : ℤ}, x.isFinite = true →
    scaled x exponent fuel = .ok y → y.isFinite = true := by
  induction fuel with
  | zero => exact fun hx h => Except.ok.inj h ▸ hx
  | succ fuel ih =>
    intro x y exponent hx h
    unfold scaled at h
    dsimp only at h
    split_ifs at h with hstep _ hinfinite
    · obtain rfl := Except.ok.inj h
      obtain ⟨hpower, hfinite⟩ := ofDecimal_one hstep
      exact isFinite_mul hx (hpower ▸ hfinite) (Bool.not_eq_true _ ▸ hinfinite)
    · exact Except.ok.inj h ▸ isFinite_div hx (isAtLeast_ofDecimal_one hstep)
    · exact Except.ok.inj h ▸ hx
    · exact ih (isFinite_div hx (isAtLeast_ofDecimal_one (Nat.le_refl _))) h

section Reading

variable {neg : Bool} {significand : ℕ} {exponent : ℤ} {s : Bytes}

theorem isFinite_of_realOf {n : Number} (hlt : significand < UInt64.size)
    (h : realOf neg significand exponent = .ok n) : n.IsFinite := by
  unfold realOf at h
  split at h
  · cases h
  · rename_i x hx
    obtain rfl := Except.ok.inj h
    have hfinite := isFinite_of_scaled 4 (isFinite_ofFraction false hlt) hx
    intro y hy
    obtain rfl := Option.some.inj hy
    split_ifs
    · exact (isFinite_neg x).trans hfinite
    · exact hfinite

theorem gives_realOf (hlt : significand < UInt64.size) :
    Gives Number.IsFinite (match realOf neg significand exponent with
      | .error f => .error f
      | .ok n => .ok (n, s)) := by
  split
  · exact gives_error _
  · rename_i n hn
    exact gives_ok (isFinite_of_realOf hlt hn)

theorem gives_exponentDigits {down : Bool} (hlt : significand < UInt64.size) :
    Gives Number.IsFinite (exponentDigits neg significand exponent down s) := by
  unfold exponentDigits
  split
  · exact gives_error _
  · dsimp only
    split
    · split
      · split
        · exact gives_error _
        · refine gives_ok fun x hx => ?_
          obtain rfl := Option.some.inj hx
          cases neg <;> decide
      · exact gives_realOf hlt
    · exact gives_error _

theorem gives_exponentOrEnd (hlt : significand < UInt64.size) :
    Gives Number.IsFinite (exponentOrEnd neg significand exponent s) := by
  unfold exponentOrEnd
  split
  · split_ifs
    · exact gives_exponentDigits hlt
    · exact gives_realOf hlt
  · exact gives_realOf hlt

theorem gives_fractionRest (hlt : significand < UInt64.size) :
    Gives Number.IsFinite (fractionRest neg significand exponent s) := by
  have hvalue := value_gatherDigits_lt ⟨significand, 0, 0⟩ s hlt
  unfold fractionRest
  dsimp only
  split_ifs
  · exact gives_error _
  · exact gives_error _
  · exact gives_exponentOrEnd hvalue

theorem isFinite_wholeNumber (hlt : significand < UInt64.size) :
    (wholeNumber neg significand).IsFinite := by
  intro x hx
  unfold wholeNumber at hx
  split_ifs at hx with hneg hword
  · obtain rfl := Option.some.inj hx
    rw [ofInt, Int.natAbs_neg, Int.natAbs_natCast]
    exact isFinite_ofFraction _ hlt
  · obtain rfl := Option.some.inj hx
    exact (isFinite_neg _).trans (isFinite_ofFraction false hlt)
  · obtain rfl := Option.some.inj hx
    exact isFinite_ofFraction false (UInt64.toNat_lt _)

theorem gives_numberEnd {d : Digits} (hlt : d.value < UInt64.size) :
    Gives Number.IsFinite (numberEnd neg d s) := by
  unfold numberEnd
  split
  · split_ifs
    · exact gives_fractionRest hlt
    · exact gives_exponentDigits hlt
    · exact gives_ok (isFinite_wholeNumber hlt)
    · exact gives_exponentOrEnd hlt
  · split_ifs
    · exact gives_ok (isFinite_wholeNumber hlt)
    · exact gives_exponentOrEnd hlt

theorem gives_numberRest : Gives Number.IsFinite (numberRest neg s) := by
  have hvalue := value_gatherDigits_lt ⟨0, 0, 0⟩ s (by decide)
  unfold numberRest
  split
  · exact gives_error _
  · split
    · exact gives_error _
    · split
      · exact gives_error _
      · exact gives_numberEnd hvalue

/-- Every number that is read is finite. -/
theorem gives_readNumber {b : UInt8} : Gives Number.IsFinite (readNumber b s) := by
  unfold readNumber
  split_ifs
  · exact gives_numberRest
  · exact gives_numberRest

end Reading

/-! ## Values -/

mutual

/-- All numbers in a value are finite. -/
def NumbersAreFinite : Json → Prop
  | .number n => n.IsFinite
  | .list es => ElementsAreFinite es
  | .object ms => MembersAreFinite ms
  | _ => True

def ElementsAreFinite : List Json → Prop
  | [] => True
  | e :: es => e.NumbersAreFinite ∧ ElementsAreFinite es

def MembersAreFinite : List (String × Json) → Prop
  | [] => True
  | (_, v) :: ms => v.NumbersAreFinite ∧ MembersAreFinite ms

end

theorem elementsAreFinite_iff {es : List Json} :
    ElementsAreFinite es ↔ ∀ e ∈ es, e.NumbersAreFinite := by
  induction es with
  | nil => simp [ElementsAreFinite]
  | cons e es ih => simp [ElementsAreFinite, ih]

theorem membersAreFinite_iff {ms : List (String × Json)} :
    MembersAreFinite ms ↔ ∀ m ∈ ms, m.2.NumbersAreFinite := by
  induction ms with
  | nil => simp [MembersAreFinite]
  | cons m ms ih => simp [MembersAreFinite, ih]

theorem gives_readMembers {bound : ℕ} {value : Bytes → Except Fault (Json × Bytes)}
    (hvalue : ∀ s, Gives NumbersAreFinite (value s)) (fuel : ℕ) :
    ∀ (first : Bool) (read : List (String × Json)) (s : Bytes),
      (∀ m ∈ read, m.2.NumbersAreFinite) →
        Gives MembersAreFinite (readMembers bound value fuel first read s) := by
  induction fuel with
  | zero => exact fun _ _ _ _ => gives_error _
  | succ fuel ih =>
    intro first read s hread
    unfold readMembers
    split
    · exact gives_error _
    · split
      · exact gives_error _
      · exact gives_ok (membersAreFinite_iff.mpr fun m hm => hread m (List.mem_reverse.mp hm))
    · split
      · exact gives_error _
      · split
        · exact gives_error _
        · rename_i v s heq
          exact ih _ _ _ (List.forall_mem_cons.mpr ⟨hvalue _ v s heq, hread⟩)

theorem gives_literal {v : Json} (hv : v.NumbersAreFinite) (letters : String) (s : Bytes) :
    Gives NumbersAreFinite (match literalRest (Bytes.ofString letters) s with
      | .error f => .error f
      | .ok s => .ok (v, s)) := by
  split
  · exact gives_error _
  · exact gives_ok hv

/-- A value's numbers are finite if those of the values inside are. -/
theorem gives_read_of {bound depth : ℕ}
    (h : ∀ d s, depth = d + 1 → Gives NumbersAreFinite (read bound d s)) (s : Bytes) :
    Gives NumbersAreFinite (read bound depth s) := by
  unfold read
  dsimp only
  split
  · exact gives_error _
  split_ifs
  case pos => exact @gives_literal .null trivial _ _
  case pos => exact @gives_literal (.flag true) trivial _ _
  case pos => exact @gives_literal (.flag false) trivial _ _
  case pos =>
    split
    · exact gives_error _
    · rename_i n s hn
      exact gives_ok (gives_readNumber n s hn)
  case pos =>
    split
    · exact gives_error _
    · exact gives_ok trivial
  case pos =>
    split
    · exact gives_error _
    · split
      · exact gives_error _
      · rename_i es s hes
        exact gives_ok (elementsAreFinite_iff.mpr
          (gives_elements (fun s => h _ s rfl) _ _ [] _ (by simp) es s hes))
  case pos =>
    split
    · exact gives_error _
    · split
      · exact gives_error _
      · rename_i ms s hms
        exact gives_ok (gives_readMembers (fun s => h _ s rfl) _ _ [] _ (by simp) ms s hms)
  case neg => exact gives_error _

/-- All numbers in a value that is read are finite. -/
theorem gives_read {bound : ℕ} (depth : ℕ) :
    ∀ s, Gives NumbersAreFinite (read bound depth s) := by
  induction depth with
  | zero => exact gives_read_of fun d s hd => nomatch hd
  | succ depth ih =>
    refine gives_read_of fun d s hd => ?_
    obtain rfl := Nat.succ.inj hd
    exact ih s

end Json

end PeerGateway
