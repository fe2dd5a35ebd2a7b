import PeerGateway.Settings.Layer
import PeerGateway.Proofs.Text.Parts

/-!
# Literals

What a text is as a value of a schema (`Schema.IsLiteral`): any text is a text, `true` and `1` or
`false` and `0` are truth values, decimal digits are a number (`Settings.IsNumeral`), and a list of
texts is what stands between commas (`Settings.IsItems`). A text is read as at most one value
(`Schema.literal?`), which it is (`Schema.literal?_eq_some_iff`).
-/

namespace PeerGateway

namespace Settings

/-! ## Numbers -/

/-- Characters are the decimal digits of a number. -/
def IsDigits (cs : List Char) (n : Nat) : Prop :=
  cs ≠ [] ∧ (∀ c ∈ cs, c.isDigit = true) ∧ Nat.ofDigitChars 10 cs 0 = n

/-- A text is the decimal digits of a number, with a plus sign in front or without. -/
def IsNumeral (t : String) (n : Nat) : Prop :=
  IsDigits t.toList n ∨ ∃ digits, t.toList = '+' :: digits ∧ IsDigits digits n

theorem digitsValue_eq (cs : List Char) : Binary64.digitsValue cs = Nat.ofDigitChars 10 cs 0 := by
  unfold Binary64.digitsValue Nat.ofDigitChars
  congr 1
  funext n c
  rw [Nat.mul_comm]
  rfl

variable {limit n : Nat}

theorem not_isDigits_plus (digits : List Char) : ¬IsDigits ('+' :: digits) n :=
  fun h => absurd (h.2.1 '+' List.mem_cons_self) (by decide)

/-- Digits are read as the number that they are of, if it is below the limit. -/
theorem read_eq_some_iff {cs : List Char} :
    (if !cs.isEmpty && cs.all Binary64.isDigit then
      if Binary64.digitsValue cs < limit then some (Binary64.digitsValue cs) else none
    else none) = some n ↔ IsDigits cs n ∧ n < limit := by
  have hdigits : (!cs.isEmpty && cs.all Binary64.isDigit) = true ↔
      cs ≠ [] ∧ ∀ c ∈ cs, c.isDigit = true := by
    rw [Bool.and_eq_true, Bool.not_eq_true', List.isEmpty_eq_false_iff, List.all_eq_true]
    rfl
  simp only [Option.ite_none_right_eq_some, hdigits, Option.some.injEq, digitsValue_eq, IsDigits]
  constructor
  · rintro ⟨⟨hne, hcs⟩, hlt, rfl⟩
    exact ⟨⟨hne, hcs, rfl⟩, hlt⟩
  · rintro ⟨⟨hne, hcs, rfl⟩, hlt⟩
    exact ⟨⟨hne, hcs⟩, hlt, rfl⟩

theorem naturalOf?_eq_some_iff {t : String} :
    naturalOf? limit t = some n ↔ IsNumeral t n ∧ n < limit := by
  unfold naturalOf? naturalBelow? IsNumeral
  split
  case h_1 rest ht =>
    rw [ht, read_eq_some_iff]
    simp [not_isDigits_plus]
  case h_2 hplus =>
    have hno : ¬∃ digits, t.toList = '+' :: digits ∧ IsDigits digits n :=
      fun ⟨digits, ht, _⟩ => hplus digits ht
    rw [read_eq_some_iff, or_iff_left hno]

/-- Numbers of a fixed width are read from the numerals of their values. -/
theorem map_naturalOf?_eq_some_iff {α : Type} {size : Nat} {ofNat : Nat → α} {toNat : α → Nat}
    (hofNat : ∀ v, ofNat (toNat v) = v) (htoNat : ∀ n < size, toNat (ofNat n) = n)
    (hlt : ∀ v, toNat v < size) {t : String} {v : α} :
    (naturalOf? size t).map ofNat = some v ↔ IsNumeral t (toNat v) := by
  constructor
  · intro h
    obtain ⟨n, hn, rfl⟩ := Option.map_eq_some_iff.mp h
    obtain ⟨hnumeral, hlt⟩ := naturalOf?_eq_some_iff.mp hn
    rwa [htoNat n hlt]
  · intro h
    rw [naturalOf?_eq_some_iff.mpr ⟨h, hlt v⟩, Option.map_some, hofNat]

/-! ## Lists -/

/-- A text is some parts with commas between, and these items are what is left of the parts without
blank characters around them and without empty ones. -/
def IsItems (t : String) (items : List String) : Prop :=
  ∃ parts : List (List Char), parts ≠ [] ∧ (∀ part ∈ parts, ',' ∉ part) ∧
    t.toList = [','].intercalate parts ∧
    items = (parts.map fun part => String.ofList (trimmed part)).filter (· ≠ "")

end Settings

theorem Settings.commaItems_eq_iff {t : String} {items : List String} :
    commaItems t = items ↔ IsItems t items := by
  constructor
  · rintro rfl
    obtain ⟨hne, hparts, ht⟩ := splitAtChar_eq_iff.mp (rfl : splitAtChar ',' t.toList = _)
    exact ⟨_, hne, hparts, ht, rfl⟩
  · rintro ⟨parts, hne, hparts, ht, rfl⟩
    rw [commaItems, splitAtChar_eq_iff.mpr ⟨hne, hparts, ht⟩]

/-! ## Values of a schema -/

namespace Schema

open Settings

/-- A text is a value of a schema, written as one writes it outside of any file. -/
def IsLiteral : (s : Schema) → String → s.Value → Prop
  | .text, t, v => v = t
  | .flag, t, v => (t = "true" ∨ t = "1") ∧ v = true ∨ (t = "false" ∨ t = "0") ∧ v = false
  | .word16, t, v => IsNumeral t v.toNat
  | .word64, t, v => IsNumeral t v.toNat
  | .real, t, v => Binary64.parse? t = some v
  | .list .text, t, v => IsItems t v
  | _, _, _ => False

/-- The value that a text is. -/
def literal? : (s : Schema) → String → Option s.Value
  | .text, t => some t
  | .flag, t =>
    if t = "true" ∨ t = "1" then some true else if t = "false" ∨ t = "0" then some false else none
  | .word16, t => (naturalOf? UInt16.size t).map UInt16.ofNat
  | .word64, t => (naturalOf? UInt64.size t).map UInt64.ofNat
  | .real, t => Binary64.parse? t
  | .list .text, t => some (commaItems t)
  | _, _ => none

theorem literal?_eq_some_iff {s : Schema} {t : String} {v : s.Value} :
    s.literal? t = some v ↔ s.IsLiteral t v := by
  cases s with
  | text => simp [literal?, IsLiteral, eq_comm]
  | flag =>
    have hone : t = "true" ∨ t = "1" → ¬(t = "false" ∨ t = "0") := by
      rintro (rfl | rfl) <;> decide
    simp only [literal?, IsLiteral]
    split_ifs with htrue hfalse
    · simp only [htrue, hone htrue, true_and, false_and, or_false, Option.some.injEq, eq_comm]
    · simp only [htrue, hfalse, true_and, false_and, false_or, Option.some.injEq, eq_comm]
    · simp only [htrue, hfalse, false_and, or_false]
  | word16 =>
    exact map_naturalOf?_eq_some_iff (fun _ => UInt16.ofNat_toNat)
      (fun _ => UInt16.toNat_ofNat_of_lt) UInt16.toNat_lt
  | word64 =>
    exact map_naturalOf?_eq_some_iff (fun _ => UInt64.ofNat_toNat)
      (fun _ => UInt64.toNat_ofNat_of_lt) UInt64.toNat_lt
  | real => rfl
  | list element =>
    cases element with
    | text => exact Option.some_inj.trans commaItems_eq_iff
    | _ => simp [literal?, IsLiteral]
  | choice | record => simp [literal?, IsLiteral]

end Schema

end PeerGateway
