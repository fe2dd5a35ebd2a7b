import PeerGateway.Json.Value
import PeerGateway.Proofs.Text.Digits

/-!
# Numbers read back

A natural number of a 64-bit word is written with decimal digits and reads back
(`Json.numberRest_decimal`). The digits of a number go on until a byte comes that is none of a
number's, so what follows a number must not begin with such a byte (`Json.EndsNumber`). Apart from
that, what follows does not matter: a number that is read off the front of a text is read off the
front of every longer one (`Json.readNumber_append`).
-/

namespace PeerGateway

namespace Json

/-- What may follow a number: nothing, or a byte with which no number goes on. -/
def EndsNumber (rest : Bytes) : Prop :=
  ∀ b ∈ rest.head?, Bytes.isDigit b = false ∧ b ≠ Bytes.ascii '.' ∧ b ≠ Bytes.ascii 'e' ∧
    b ≠ Bytes.ascii 'E'

theorem endsNumber_nil : EndsNumber [] := by
  simp [EndsNumber]

variable {r : Bytes}

theorem EndsNumber.head {b : UInt8} {s : Bytes} (h : EndsNumber (b :: s)) :
    Bytes.isDigit b = false ∧ b ≠ Bytes.ascii '.' ∧ b ≠ Bytes.ascii 'e' ∧ b ≠ Bytes.ascii 'E' :=
  h b rfl

/-! ## Digits -/

theorem takeWhile_isDigit_append (hr : EndsNumber r) :
    ∀ s : Bytes, (s ++ r).takeWhile Bytes.isDigit = s.takeWhile Bytes.isDigit
  | [] => by
    cases r with
    | nil => rfl
    | cons b r => simp [hr.head.1]
  | b :: s => by
    simp only [List.cons_append, List.takeWhile_cons, takeWhile_isDigit_append hr s]

theorem dropWhile_isDigit_append (hr : EndsNumber r) :
    ∀ s : Bytes, (s ++ r).dropWhile Bytes.isDigit = s.dropWhile Bytes.isDigit ++ r
  | [] => by
    cases r with
    | nil => rfl
    | cons b r => simp [hr.head.1]
  | b :: s => by
    simp only [List.cons_append, List.dropWhile_cons, dropWhile_isDigit_append hr s]
    split_ifs <;> rfl

theorem gatherDigits_append (hr : EndsNumber r) : ∀ (s : Bytes) (d : Digits),
    gatherDigits d (s ++ r) = ((gatherDigits d s).1, (gatherDigits d s).2 ++ r)
  | [], d => by
    cases r with
    | nil => rfl
    | cons b r => simp [gatherDigits, hr.head.1]
  | b :: s, d => by
    simp only [List.cons_append, gatherDigits]
    split_ifs
    · exact gatherDigits_append hr s _
    · exact gatherDigits_append hr s _
    · rfl

/-! ## Longer texts -/

section Longer

variable {neg down : Bool} {significand : ℕ} {exponent : Int} {s t : Bytes} {n : Number}

/-- The number and the bytes after it, of a text that is longer at the end. -/
def longer (r : Bytes) : Except Fault (Number × Bytes) → Except Fault (Number × Bytes) :=
  Except.map fun x => (x.1, x.2 ++ r)

theorem longer_eq_ok {result : Except Fault (Number × Bytes)} (h : result = .ok (n, t)) :
    longer r result = .ok (n, t ++ r) := by
  rw [h]
  rfl

theorem exponentDigits_append (hr : EndsNumber r) (hs : s ≠ []) :
    exponentDigits neg significand exponent down (s ++ r) =
      longer r (exponentDigits neg significand exponent down s) := by
  obtain ⟨b, s, rfl⟩ := List.exists_cons_of_ne_nil hs
  have htake := takeWhile_isDigit_append hr (b :: s)
  have hdrop := dropWhile_isDigit_append hr (b :: s)
  rw [List.cons_append] at htake hdrop
  simp only [exponentDigits, List.cons_append, htake, hdrop]
  split
  · split
    · split <;> rfl
    · cases realOf neg significand _ <;> rfl
  · rfl

/-- The sign of an exponent is followed by a digit, so more bytes at the end do not change it. -/
theorem exponentSign_append (hs : s ≠ []) :
    exponentSign (s ++ r) = ((exponentSign s).1, (exponentSign s).2 ++ r) := by
  cases s with
  | nil => exact absurd rfl hs
  | cons b s =>
    simp only [List.cons_append, exponentSign]
    split_ifs <;> rfl

theorem exponentRest_append (hr : EndsNumber r)
    (h : exponentRest neg significand exponent s = .ok (n, t)) :
    exponentRest neg significand exponent (s ++ r) = .ok (n, t ++ r) := by
  have hdigits : (exponentSign s).2 ≠ [] := by
    intro hnil
    simp [exponentRest, exponentDigits, hnil] at h
  have hs : s ≠ [] := by
    rintro rfl
    exact hdigits rfl
  simp only [exponentRest, exponentSign_append hs]
  rw [exponentDigits_append hr hdigits]
  exact longer_eq_ok h

theorem exponentOrEnd_append (hr : EndsNumber r)
    (h : exponentOrEnd neg significand exponent s = .ok (n, t)) :
    exponentOrEnd neg significand exponent (s ++ r) = .ok (n, t ++ r) := by
  cases s with
  | nil =>
    simp only [exponentOrEnd] at h
    split at h
    · simp at h
    · rename_i x hx
      obtain ⟨rfl, rfl⟩ := Prod.mk.inj (Except.ok.inj h)
      cases r with
      | nil => simp only [List.append_nil, exponentOrEnd, hx]
      | cons b r =>
        obtain ⟨-, -, he, hE⟩ := hr.head
        simp [exponentOrEnd, hx, he, hE]
  | cons b s =>
    simp only [exponentOrEnd, List.cons_append] at h ⊢
    split_ifs at h ⊢
    · exact exponentRest_append hr h
    · split at h
      · simp at h
      · obtain ⟨rfl, rfl⟩ := Prod.mk.inj (Except.ok.inj h)
        rfl

theorem fractionRest_append (hr : EndsNumber r)
    (h : fractionRest neg significand exponent s = .ok (n, t)) :
    fractionRest neg significand exponent (s ++ r) = .ok (n, t ++ r) := by
  simp only [fractionRest, gatherDigits_append hr] at h ⊢
  split_ifs at h ⊢ with hnone
  exact exponentOrEnd_append hr h

theorem numberEnd_append (hr : EndsNumber r) {d : Digits} (h : numberEnd neg d s = .ok (n, t)) :
    numberEnd neg d (s ++ r) = .ok (n, t ++ r) := by
  cases s with
  | nil =>
    cases r with
    | nil => simpa using h
    | cons b r =>
      obtain ⟨-, hpoint, he, hE⟩ := hr.head
      simp only [numberEnd, List.nil_append, hpoint, he, hE, if_false, decide_false,
        Bool.or_self, Bool.false_eq_true] at h ⊢
      split_ifs at h ⊢
      · obtain ⟨rfl, rfl⟩ := Prod.mk.inj (Except.ok.inj h)
        rfl
      · exact exponentOrEnd_append hr h
  | cons c s =>
    simp only [numberEnd, List.cons_append] at h ⊢
    split_ifs at h ⊢
    · exact fractionRest_append hr h
    · exact exponentRest_append hr h
    · obtain ⟨rfl, rfl⟩ := Prod.mk.inj (Except.ok.inj h)
      rfl
    · exact exponentOrEnd_append hr h

theorem numberRest_append (hr : EndsNumber r) (h : numberRest neg s = .ok (n, t)) :
    numberRest neg (s ++ r) = .ok (n, t ++ r) := by
  cases s with
  | nil => simp [numberRest] at h
  | cons b s =>
    have hhead : (s ++ r).head?.any Bytes.isDigit = s.head?.any Bytes.isDigit := by
      cases s with
      | nil =>
        cases r with
        | nil => rfl
        | cons c r => simp [hr.head.1]
      | cons c s => rfl
    have hgather := gatherDigits_append hr (b :: s) { value := 0 }
    rw [List.cons_append] at hgather
    simp only [numberRest, List.cons_append, hhead, hgather] at h ⊢
    split_ifs at h ⊢
    exact numberEnd_append hr h

/-- A number that is read off the front of a text is read off the front of a longer one. -/
theorem readNumber_append {b : UInt8} (hr : EndsNumber r) (h : readNumber b s = .ok (n, t)) :
    readNumber b (s ++ r) = .ok (n, t ++ r) := by
  unfold readNumber at h ⊢
  split_ifs at h ⊢
  · exact numberRest_append hr h
  · rw [← List.cons_append]
    exact numberRest_append hr h

end Longer

/-! ## Natural numbers -/

/-- The byte of a decimal digit. -/
def digitByte (i : ℕ) : UInt8 := UInt8.ofNat (48 + i)

theorem isDigit_digitByte : ∀ i < 10, Bytes.isDigit (digitByte i) = true := by
  decide

theorem toNat_digitByte {i : ℕ} (h : i < 10) : (digitByte i).toNat = 48 + i := by
  rw [digitByte, UInt8.toNat_ofNat']
  omega

theorem utf8EncodeChar_digitChar :
    ∀ i < 10, String.utf8EncodeChar (Nat.digitChar i) = [digitByte i] := by
  decide

theorem decimal_of_lt {n : ℕ} (h : n < 10) : decimal n = [digitByte n] := by
  simp [decimal, Nat.toDigits_of_lt_base h, Bytes.ofChars, utf8EncodeChar_digitChar n h]

theorem decimal_of_le {n : ℕ} (h : 10 ≤ n) :
    decimal n = decimal (n / 10) ++ [digitByte (n % 10)] := by
  have hlast := utf8EncodeChar_digitChar (n % 10) (Nat.mod_lt n (by decide))
  simp [decimal, Nat.toDigits_of_base_le (by decide) h, Bytes.ofChars, hlast]

theorem exists_decimal_eq_cons (n : ℕ) :
    ∃ i t, i < 10 ∧ decimal n = digitByte i :: t ∧ (i = 0 → n = 0) := by
  obtain ⟨i, cs, hi, htext, hzero⟩ := exists_toDigits_eq_cons (by decide : 1 < 10) n
  refine ⟨i, Bytes.ofChars cs, hi, ?_, hzero⟩
  rw [decimal, htext, Bytes.ofChars, List.flatMap_cons, utf8EncodeChar_digitChar i hi]
  rfl

theorem gatherDigits_digitByte {d : Digits} {i : ℕ} (s : Bytes) (hi : i < 10)
    (hfits : d.fits i = true) : gatherDigits d (digitByte i :: s) =
      gatherDigits { d with value := d.value * 10 + i, held := d.held + 1 } s := by
  have hdigit : (digitByte i).toNat - 48 = i := by rw [toNat_digitByte hi]; omega
  simp only [gatherDigits, isDigit_digitByte i hi, if_true, hdigit, hfits]

/-- Digits that fit into a word are gathered to the number that they are written for. -/
theorem gatherDigits_decimal {n : ℕ} (hn : n < UInt64.size) (s : Bytes) :
    ∃ held, gatherDigits { value := 0 } (decimal n ++ s) =
      gatherDigits { value := n, held := held } s := by
  induction n using Nat.strongRecOn generalizing s with
  | ind n ih =>
    rcases Nat.lt_or_ge n 10 with hlt | hge
    · refine ⟨1, ?_⟩
      have hfits : (Digits.mk 0 0 0).fits n = true := by simp [Digits.fits]; omega
      rw [decimal_of_lt hlt, List.singleton_append, gatherDigits_digitByte s hlt hfits]
      simp
    · obtain ⟨held, hhigh⟩ := ih (n / 10) (by omega) (by omega) (digitByte (n % 10) :: s)
      have hvalue : n / 10 * 10 + n % 10 = n := by omega
      have hfits : (Digits.mk (n / 10) held 0).fits (n % 10) = true := by
        simp [Digits.fits, hvalue, hn]
      refine ⟨held + 1, ?_⟩
      rw [decimal_of_le hge, List.append_assoc, List.singleton_append, hhigh,
        gatherDigits_digitByte s (by omega) hfits]
      simp only [hvalue]

/-- The decimal text of a word is read as that word. -/
theorem numberRest_decimal {n : ℕ} (hn : n < UInt64.size) (hr : EndsNumber r) :
    numberRest false (decimal n ++ r) = .ok (.whole (UInt64.ofNat n), r) := by
  have halone : numberRest false (decimal n) = .ok (.whole (UInt64.ofNat n), []) := by
    obtain ⟨held, hgather⟩ := gatherDigits_decimal hn []
    obtain ⟨i, t, hi, htext, hzero⟩ := exists_decimal_eq_cons n
    have hlead : ¬(digitByte i = Bytes.ascii '0' && t.head?.any Bytes.isDigit) = true := by
      intro hlead
      obtain ⟨hbyte, hmore⟩ := Bool.and_eq_true_iff.mp hlead
      have hi0 : i = 0 := by
        have hzeroByte := congrArg UInt8.toNat (of_decide_eq_true hbyte)
        simpa [toNat_digitByte hi, Bytes.ascii] using hzeroByte
      have htail : digitByte i :: t = [digitByte 0] := by
        rw [← htext, hzero hi0]
        exact decimal_of_lt (by decide)
      simp [(List.cons.inj htail).2] at hmore
    rw [List.append_nil, htext] at hgather
    rw [htext, numberRest, if_neg (by simp [isDigit_digitByte i hi]), if_neg hlead, hgather]
    simp [gatherDigits, numberEnd, wholeNumber]
  exact numberRest_append hr halone

end Json

end PeerGateway
