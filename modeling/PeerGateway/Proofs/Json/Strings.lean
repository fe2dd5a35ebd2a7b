import PeerGateway.Json.Value
import PeerGateway.Proofs.Text.Bytes

/-!
# Strings read back

A string is written as its characters between quotes, some of them escaped. Inside a string the
reader goes from byte to byte: a plain byte (`Json.IsPlain`) stands for itself, and an escape for
the UTF-8 form of a character. `Json.steps_escaped` says that what is written for a character is
read as its UTF-8 form, for every character, and `Json.stringRest_quoted` that a string is read
back whatever follows it.
-/

namespace PeerGateway

namespace Json

/-! ## Bytes of a string -/

/-- A byte that stands for itself inside a string. -/
def IsPlain (b : UInt8) : Prop := b ≠ Bytes.ascii '"' ∧ b ≠ Bytes.ascii '\\' ∧ ¬b < 0x20

/-- Plain bytes are read as they are. -/
theorem stringContent_plain (fuel : ℕ) (s : Bytes) : ∀ (bs read : Bytes), (∀ b ∈ bs, IsPlain b) →
    stringContent (fuel + bs.length) read (bs ++ s) = stringContent fuel (bs.reverse ++ read) s
  | [], _, _ => rfl
  | b :: bs, read, h => by
    obtain ⟨hquote, hslash, hcontrol⟩ := h b List.mem_cons_self
    have hrest : ∀ b ∈ bs, IsPlain b := fun b hb => h b (List.mem_cons_of_mem _ hb)
    rw [List.length_cons, ← Nat.add_assoc, List.cons_append, stringContent, if_neg hquote,
      if_neg hslash, if_neg hcontrol, stringContent_plain fuel s bs (b :: read) hrest,
      List.reverse_cons, List.append_assoc, List.singleton_append]

/-- An escape is read as the bytes that it stands for. -/
theorem stringContent_escape {s s' c : Bytes} (fuel : ℕ) (read : Bytes)
    (h : escape s = .ok (c, s')) :
    stringContent (fuel + 1) read (Bytes.ascii '\\' :: s) =
      stringContent fuel (c.reverse ++ read) s' := by
  rw [stringContent, if_neg (by decide), if_pos rfl, h]
  show stringContent fuel (c.reverseAux read) s' = _
  rw [List.reverseAux_eq]

/-! ## Escaped characters -/

/-- A control character's escape reads back. -/
theorem unicodeEscape_hexPair {n : ℕ} (hn : n < 0x20) (s : Bytes) :
    unicodeEscape (Bytes.ascii '0' :: Bytes.ascii '0' ::
      (Bytes.ofChars (Bytes.hexPair (UInt8.ofNat n)) ++ s)) = .ok (Char.ofNat n, s) := by
  have hbyte : (UInt8.ofNat n).toNat = n := by rw [UInt8.toNat_ofNat']; omega
  obtain ⟨b, hb, hhigh⟩ := Bytes.hexValue?_digitChar (n / 16) (by omega)
  obtain ⟨b', hb', hlow⟩ := Bytes.hexValue?_digitChar (n % 16) (by omega)
  have hzero : Bytes.hexValue? (Bytes.ascii '0') = some 0 := by decide
  have hvalue : ((0 * 16 + 0) * 16 + n / 16) * 16 + n % 16 = n := by omega
  simp only [unicodeEscape, Bytes.hexPair, hbyte, Bytes.ofChars_cons, hb, hb', Bytes.ofChars_nil,
    List.cons_append, List.nil_append, hexQuad, hzero, hhigh, hlow, hvalue]
  rw [if_neg (by omega), if_neg (by omega)]

/-- The bytes written for a character are read as its UTF-8 form, in some of their number of
steps. -/
def Steps (bs content : Bytes) : Prop :=
  ∃ n ≤ bs.length, ∀ fuel read s, stringContent (fuel + n) read (bs ++ s) =
    stringContent fuel (content.reverse ++ read) s

theorem steps_short {letter : UInt8} {code : ℕ} {c : Char} (hc : c.toNat = code)
    (hcode : code ≤ 0x7F) (hletter : letter ≠ Bytes.ascii 'u')
    (h : shortEscape? letter = some (UInt8.ofNat code)) :
    Steps [Bytes.ascii '\\', letter] (String.utf8EncodeChar c) := by
  refine ⟨1, by simp, fun fuel read s => ?_⟩
  rw [Bytes.utf8EncodeChar_ascii (hc ▸ hcode), hc]
  refine stringContent_escape fuel read ?_
  show escape (letter :: s) = _
  rw [escape, if_neg hletter, h]

theorem steps_control {c : Char} (h : c.toNat < 0x20) :
    Steps (Bytes.ofString "\\u00" ++ Bytes.ofChars (Bytes.hexPair (UInt8.ofNat c.toNat)))
      (String.utf8EncodeChar c) := by
  have hopen : Bytes.ofString "\\u00" =
      [Bytes.ascii '\\', Bytes.ascii 'u', Bytes.ascii '0', Bytes.ascii '0'] := by decide
  refine ⟨1, by simp [hopen], fun fuel read s => ?_⟩
  rw [hopen, List.append_assoc]
  refine stringContent_escape fuel read ?_
  show escape (Bytes.ascii 'u' :: Bytes.ascii '0' :: Bytes.ascii '0' ::
    (Bytes.ofChars (Bytes.hexPair (UInt8.ofNat c.toNat)) ++ s)) = _
  rw [escape, if_pos rfl, unicodeEscape_hexPair h, Char.ofNat_toNat]

/-- A character that needs no escape has plain bytes only. -/
theorem isPlain_of_mem {c : Char} (hquote : c ≠ '"') (hslash : c ≠ '\\')
    (hcontrol : ¬c.toNat < 0x20) : ∀ b ∈ String.utf8EncodeChar c, IsPlain b := by
  intro b hb
  by_cases hascii : c.toNat ≤ 0x7F
  · rw [Bytes.utf8EncodeChar_ascii hascii, List.mem_singleton] at hb
    have hbyte : b.toNat = c.toNat := by rw [hb, UInt8.toNat_ofNat']; omega
    refine ⟨fun h => hquote ?_, fun h => hslash ?_, fun h => hcontrol ?_⟩
    · exact Char.toNat_inj.mp (hbyte ▸ h ▸ rfl)
    · exact Char.toNat_inj.mp (hbyte ▸ h ▸ rfl)
    · exact hbyte ▸ UInt8.lt_iff_toNat_lt.mp h
  · have hhigh := Bytes.le_of_mem_utf8EncodeChar (Nat.lt_of_not_le hascii) b hb
    refine ⟨?_, ?_, fun h => ?_⟩
    · rintro rfl
      exact absurd hhigh (by decide)
    · rintro rfl
      exact absurd hhigh (by decide)
    · exact absurd (UInt8.lt_iff_toNat_lt.mp h) (Nat.not_lt_of_le (Nat.le_trans (by decide) hhigh))

theorem steps_escaped (c : Char) : Steps (escaped c) (String.utf8EncodeChar c) := by
  unfold escaped
  split_ifs with hquote hslash h8 hC hA hD h9 hcontrol
  · exact steps_short (hquote ▸ rfl : c.toNat = 0x22) (by decide) (by decide) (by decide)
  · exact steps_short (hslash ▸ rfl : c.toNat = 0x5C) (by decide) (by decide) (by decide)
  · exact steps_short h8 (by decide) (by decide) (by decide)
  · exact steps_short hC (by decide) (by decide) (by decide)
  · exact steps_short hA (by decide) (by decide) (by decide)
  · exact steps_short hD (by decide) (by decide) (by decide)
  · exact steps_short h9 (by decide) (by decide) (by decide)
  · exact steps_control hcontrol
  · exact ⟨_, Nat.le_refl _, fun fuel read s =>
      stringContent_plain fuel s _ read (isPlain_of_mem hquote hslash hcontrol)⟩

/-! ## Strings -/

/-- The content of a string is read up to its closing quote. -/
theorem stringContent_escaped (rest : Bytes) : ∀ (cs : List Char) (fuel : ℕ) (read : Bytes),
    (cs.flatMap escaped).length < fuel →
    stringContent fuel read (cs.flatMap escaped ++ Bytes.ascii '"' :: rest) =
      .ok (read.reverse ++ Bytes.ofChars cs, rest)
  | [], fuel + 1, read, _ => by
    rw [List.flatMap_nil, List.nil_append, stringContent, if_pos rfl, Bytes.ofChars_nil,
      List.append_nil]
  | c :: cs, fuel, read, h => by
    obtain ⟨n, hn, hstep⟩ := steps_escaped c
    rw [List.flatMap_cons, List.length_append] at h
    obtain ⟨fuel, rfl⟩ : ∃ k, fuel = k + n := ⟨fuel - n, by omega⟩
    rw [List.flatMap_cons, List.append_assoc, hstep,
      stringContent_escaped rest cs fuel _ (by omega)]
    simp

/-- A string reads back after its opening quote. -/
theorem stringRest_quoted {bound : ℕ} (t : String) (rest : Bytes)
    (h : (t.toList.flatMap escaped).length ≤ bound) :
    stringRest bound (t.toList.flatMap escaped ++ Bytes.ascii '"' :: rest) = .ok (t, rest) := by
  rw [stringRest, stringContent_escaped rest _ _ _ (Nat.lt_succ_of_le h)]
  simp only [List.reverse_nil, List.nil_append, Bytes.text?_ofChars, String.ofList_toList]

end Json

end PeerGateway
