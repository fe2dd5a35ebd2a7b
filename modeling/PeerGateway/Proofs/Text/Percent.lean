import PeerGateway.Text.Percent
import PeerGateway.Proofs.Text.Bytes

/-!
# What percent-encoded text stands for

Text may have some of its characters percent-encoded and others not. `Percent.Spells` says so of
the bytes of both, one byte after the other, and what is encoded is neither a percent sign nor a
hexadecimal digit, so decoding gives the same for both (`Percent.Spells.decoded`). Decoding never
makes bytes more (`Percent.length_decoded_le`).
-/

namespace PeerGateway

namespace Percent

/-! ## One escape -/

/-- The byte that two bytes after a percent sign stand for, if they are digits, and what follows
them. -/
def escaped? : Bytes → Option (UInt8 × Bytes)
  | c :: d :: rest =>
    match Bytes.hexValue? c, Bytes.hexValue? d with
    | some x, some y => some (UInt8.ofNat (16 * x + y), rest)
    | _, _ => none
  | _ => none

theorem escaped?_of_hexValue?_eq_none {c : UInt8} (h : Bytes.hexValue? c = none) (s : Bytes) :
    escaped? (c :: s) = none := by
  cases s <;> simp [escaped?, h]

theorem escaped?_of_second {d : UInt8} (h : Bytes.hexValue? d = none) (c : UInt8) (s : Bytes) :
    escaped? (c :: d :: s) = none := by
  rw [escaped?, h]
  cases Bytes.hexValue? c <;> rfl

theorem decoded_cons_of_ne {b : UInt8} (h : b ≠ Bytes.ascii '%') (s : Bytes) :
    decoded (b :: s) = b :: decoded s := by
  rcases s with _ | ⟨c, _ | ⟨d, rest⟩⟩
  · rfl
  · rfl
  · rw [decoded, if_neg h]

theorem decoded_percent (s : Bytes) : decoded (Bytes.ascii '%' :: s) =
    match escaped? s with
    | some (b, rest) => b :: decoded rest
    | none => Bytes.ascii '%' :: decoded s := by
  rcases s with _ | ⟨c, _ | ⟨d, rest⟩⟩
  · rfl
  · rfl
  · rw [decoded, if_pos rfl, escaped?]
    cases Bytes.hexValue? c with
    | none => rfl
    | some x => cases Bytes.hexValue? d <;> rfl

/-- Decoding makes bytes less, if anything. -/
theorem length_decoded_le (s : Bytes) : (decoded s).length ≤ s.length := by
  fun_induction decoded s with
  | case1 b c d rest x y hx hy ih =>
    simp only [List.length_cons]
    omega
  | case2 b c d rest h ih =>
    simp only [List.length_cons] at ih ⊢
    omega
  | case3 s h => exact Nat.le_refl _

/-! ## Bytes of which some are encoded -/

/-- The escape of a byte. -/
def escape (b : UInt8) : Bytes := Bytes.ofChars (encodedByte b)

theorem escape_eq (b : UInt8) : ∃ c d, escape b = [Bytes.ascii '%', c, d] ∧
    ∀ s, escaped? (c :: d :: s) = some (b, s) := by
  have hlt : b.toNat < 256 := b.toNat_lt
  obtain ⟨c, hc, hhigh⟩ := Bytes.hexValue?_toUpper_digitChar (b.toNat / 16) (by omega)
  obtain ⟨d, hd, hlow⟩ := Bytes.hexValue?_toUpper_digitChar (b.toNat % 16) (by omega)
  have hvalue : 16 * (b.toNat / 16) + b.toNat % 16 = b.toNat := Nat.div_add_mod _ _
  refine ⟨c, d, ?_, fun s => ?_⟩
  · simp only [escape, encodedByte, List.map_cons, List.map_nil, Bytes.ofChars_cons, hc, hd,
      Bytes.ofChars_nil]
    rfl
  · simp only [escaped?, hhigh, hlow, hvalue, UInt8.ofNat_toNat]

/-- A byte that can be encoded without a change of meaning. -/
def IsFree (b : UInt8) : Prop := b ≠ Bytes.ascii '%' ∧ Bytes.hexValue? b = none

/-- Bytes, and the same bytes with some of them encoded. -/
inductive Spells : Bytes → Bytes → Prop
  | nil : Spells [] []
  | plain (b : UInt8) {s t : Bytes} (h : Spells s t) : Spells (b :: s) (b :: t)
  | encoded {b : UInt8} {s t : Bytes} (hb : IsFree b) (h : Spells s t) :
      Spells (escape b ++ s) (b :: t)

namespace Spells

variable {s t s' t' : Bytes}

theorem refl : ∀ s : Bytes, Spells s s
  | [] => .nil
  | b :: s => .plain b (refl s)

theorem append (h : Spells s t) (h' : Spells s' t') : Spells (s ++ s') (t ++ t') := by
  induction h with
  | nil => exact h'
  | plain b _ ih => exact .plain b ih
  | encoded hb _ ih =>
    rw [List.append_assoc, List.cons_append]
    exact .encoded hb ih

/-- All bytes can be encoded if each can. -/
theorem of_isFree : ∀ {t : Bytes}, (∀ b ∈ t, IsFree b) → Spells (t.flatMap escape) t
  | [], _ => .nil
  | b :: t, h => by
    rw [List.flatMap_cons]
    exact .encoded (h b List.mem_cons_self) (of_isFree fun b hb => h b (List.mem_cons_of_mem _ hb))

/-- What is encoded is no part of another escape. -/
theorem escaped?_cases (h : Spells s t) : (escaped? s = none ∧ escaped? t = none) ∨
    ∃ b s' t', escaped? s = some (b, s') ∧ escaped? t = some (b, t') ∧ Spells s' t' ∧
      t'.length < t.length := by
  have hpercent : Bytes.hexValue? (Bytes.ascii '%') = none := by decide
  cases h with
  | nil => exact Or.inl ⟨rfl, rfl⟩
  | @encoded c s t hc h =>
    obtain ⟨x, y, hescape, -⟩ := escape_eq c
    refine Or.inl ⟨?_, escaped?_of_hexValue?_eq_none hc.2 t⟩
    rw [hescape]
    exact escaped?_of_hexValue?_eq_none hpercent _
  | @plain c s t h =>
    cases h with
    | nil => exact Or.inl ⟨rfl, rfl⟩
    | @encoded d s t hd h =>
      obtain ⟨x, y, hescape, -⟩ := escape_eq d
      refine Or.inl ⟨?_, escaped?_of_second hd.2 c t⟩
      rw [hescape]
      exact escaped?_of_second hpercent c _
    | @plain d s t h =>
      cases hx : Bytes.hexValue? c with
      | none =>
        exact Or.inl ⟨escaped?_of_hexValue?_eq_none hx _, escaped?_of_hexValue?_eq_none hx _⟩
      | some x =>
        cases hy : Bytes.hexValue? d with
        | none => exact Or.inl ⟨escaped?_of_second hy c _, escaped?_of_second hy c _⟩
        | some y =>
          refine Or.inr ⟨UInt8.ofNat (16 * x + y), s, t, ?_, ?_, h, ?_⟩
          · simp only [escaped?, hx, hy]
          · simp only [escaped?, hx, hy]
          · simp only [List.length_cons]
            omega

/-- Bytes stand for the same, whether some of them are encoded or not. -/
theorem decoded (h : Spells s t) : decoded s = decoded t := by
  -- An escape takes two bytes more, so the induction is on the number of bytes.
  induction hn : t.length using Nat.strongRecOn generalizing s t with
  | ind n ih =>
    cases h with
    | nil => rfl
    | @encoded b s t hb h =>
      obtain ⟨c, d, hescape, hescaped⟩ := escape_eq b
      have hrest := ih t.length (by rw [← hn, List.length_cons]; omega) h rfl
      rw [hescape, List.cons_append, decoded_percent]
      simp only [List.cons_append, List.nil_append, hescaped]
      rw [decoded_cons_of_ne hb.1, hrest]
    | @plain b s t h =>
      have hrest := ih t.length (by rw [← hn, List.length_cons]; omega) h rfl
      by_cases hb : b = Bytes.ascii '%'
      · subst hb
        rw [decoded_percent, decoded_percent]
        obtain ⟨hs, ht⟩ | ⟨b, s', t', hs, ht, hafter, hlt⟩ := h.escaped?_cases
        · rw [hs, ht, hrest]
        · rw [hs, ht]
          have hlonger : t'.length < n := by rw [← hn, List.length_cons]; omega
          exact congrArg (b :: ·) (ih t'.length hlonger hafter rfl)
      · rw [decoded_cons_of_ne hb, decoded_cons_of_ne hb, hrest]

end Spells

/-! ## Encoded text -/

/-- What has no percent sign after it was encoded was not changed. -/
theorem eq_of_encoded_eq {special : Char → Bool} {s t : List Char} (ht : '%' ∉ t)
    (h : encoded special s = t) : s = t := by
  subst h
  induction s with
  | nil => rfl
  | cons c s ih =>
    rw [encoded, List.flatMap_cons, ← encoded] at ht ⊢
    obtain ⟨hfirst, hrest⟩ := not_or.mp (List.mem_append.not.mp ht)
    rw [← ih hrest]
    split_ifs at hfirst ⊢ with hc
    · -- An escape begins with a percent sign, and no character is without bytes.
      obtain ⟨b, bs, hbytes⟩ := List.exists_cons_of_ne_nil (@String.utf8EncodeChar_ne_nil c)
      rw [hbytes, List.flatMap_cons] at hfirst
      simp [encodedByte] at hfirst
    · rfl

theorem encoded_ne_nil {special : Char → Bool} {s : List Char} (h : s ≠ []) :
    encoded special s ≠ [] := fun hnil =>
  h (eq_of_encoded_eq List.not_mem_nil hnil)

theorem ofChars_flatMap_encodedByte (bs : Bytes) :
    Bytes.ofChars (bs.flatMap encodedByte) = bs.flatMap escape := by
  unfold escape Bytes.ofChars
  exact List.flatMap_assoc

/-- The bytes of a character that is encoded can be encoded without a change of meaning, unless it
is a percent sign or a hexadecimal digit. -/
theorem isFree_of_mem {special : Char → Bool} (hspecial : ∀ c : Char, special c = true →
    c.toNat ≤ 0x7F → IsFree (UInt8.ofNat c.toNat)) {c : Char}
    (hc : (c.toNat ≤ 0x1F || 0x7E < c.toNat || special c) = true) :
    ∀ b ∈ String.utf8EncodeChar c, IsFree b := by
  have hedge : ∀ n < 0x80, n ≤ 0x1F ∨ n = 0x7F →
      UInt8.ofNat n ≠ Bytes.ascii '%' ∧ Bytes.hexValue? (UInt8.ofNat n) = none := by decide
  have hbeyond : ∀ b : UInt8, 0x80 ≤ b.toNat → IsFree b := by
    intro b hb
    have hnot : ∀ k : UInt8, k.toNat < 0x80 → ¬b ≤ k := fun k hk h =>
      absurd (UInt8.le_iff_toNat_le.mp h) (by omega)
    constructor
    · rintro rfl
      exact absurd hb (by decide)
    · unfold Bytes.hexValue?
      rw [if_neg fun h => hnot _ (by decide) h.2, if_neg fun h => hnot _ (by decide) h.2,
        if_neg fun h => hnot _ (by decide) h.2]
  intro b hb
  by_cases hascii : c.toNat ≤ 0x7F
  · rw [Bytes.utf8EncodeChar_ascii hascii, List.mem_singleton] at hb
    subst hb
    simp only [Bool.or_eq_true, decide_eq_true_eq] at hc
    rcases hc with hc | hc
    · exact hedge c.toNat (by omega) (by omega)
    · exact hspecial c hc hascii
  · exact hbeyond b (Bytes.le_of_mem_utf8EncodeChar (by omega) b hb)

/-- Text with some characters encoded stands for the same as the text itself. -/
theorem decoded_encoded {special : Char → Bool} (hspecial : ∀ c : Char, special c = true →
    c.toNat ≤ 0x7F → IsFree (UInt8.ofNat c.toNat)) (cs : List Char) :
    decoded (Bytes.ofChars (encoded special cs)) = decoded (Bytes.ofChars cs) := by
  refine Spells.decoded ?_
  induction cs with
  | nil => exact .nil
  | cons c cs ih =>
    have hsplit : Bytes.ofChars (encoded special (c :: cs)) =
        Bytes.ofChars (if (c.toNat ≤ 0x1F || 0x7E < c.toNat || special c) = true then
          (String.utf8EncodeChar c).flatMap encodedByte else [c]) ++
        Bytes.ofChars (encoded special cs) := by
      rw [encoded, List.flatMap_cons, Bytes.ofChars, List.flatMap_append]
      rfl
    rw [hsplit, Bytes.ofChars_cons]
    refine Spells.append ?_ ih
    split_ifs with hc
    · rw [ofChars_flatMap_encodedByte]
      exact .of_isFree (isFree_of_mem hspecial hc)
    · simpa using Spells.refl (String.utf8EncodeChar c)

end Percent

end PeerGateway
