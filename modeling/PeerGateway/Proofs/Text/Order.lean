import PeerGateway.Message.Basic
import PeerGateway.Proofs.Text.Bytes
import Mathlib.Data.String.Basic

/-!
# The order of text

Text is ordered by its characters. The UTF-8 form of a lesser character is less than that of a
greater one whatever follows them (`Bytes.utf8EncodeChar_append_lt`), so the order is that of the
bytes (`Bytes.ofString_lt_ofString_iff`), and so is the order of identifiers
(`NodeId.compare_eq_lt_iff`).
-/

namespace PeerGateway

namespace Bytes

/-- A lesser character has no more bytes than a greater one, and the first byte that differs is
less. -/
theorem utf8EncodeChar_append_lt {c d : Char} (h : c < d) (s t : Bytes) :
    String.utf8EncodeChar c ++ s < String.utf8EncodeChar d ++ t := by
  have hlt : c.val.toNat < d.val.toNat := UInt32.lt_iff_toNat_lt.mp h
  have hmax : d.val.toNat < 0x110000 := by
    have := d.valid
    rcases this with h | ⟨-, h⟩ <;> omega
  unfold String.utf8EncodeChar
  dsimp only
  -- By the lengths of both. Where they differ so do the first bytes, and else the parts of the
  -- characters are compared one after the other.
  split_ifs <;>
    simp only [List.cons_append, List.nil_append, List.cons_lt_cons_iff, UInt8.lt_iff_toNat_lt,
      ← UInt8.toNat_inj, UInt8.toNat_ofNat'] <;>
    simp (disch := omega) only [Nat.mod_eq_of_lt] <;> omega

theorem ofChars_lt_of_lt {cs ds : List Char} (h : cs < ds) : ofChars cs < ofChars ds := by
  induction cs generalizing ds with
  | nil =>
    cases ds with
    | nil => exact absurd h (List.lt_irrefl _)
    | cons d ds =>
      rw [ofChars_cons]
      obtain ⟨b, bs, hbytes⟩ := List.exists_cons_of_ne_nil (@String.utf8EncodeChar_ne_nil d)
      rw [hbytes]
      exact List.nil_lt_cons _ _
  | cons c cs ih =>
    cases ds with
    | nil => exact absurd h (List.not_lt_nil _)
    | cons d ds =>
      rw [ofChars_cons, ofChars_cons]
      rcases List.cons_lt_cons_iff.mp h with hlt | ⟨rfl, hrest⟩
      · exact utf8EncodeChar_append_lt hlt _ _
      · exact List.append_left_lt (ih hrest)

/-- Text stands before other text exactly if its bytes do. -/
theorem ofString_lt_ofString_iff {s t : String} : ofString s < ofString t ↔ s < t := by
  refine ⟨fun h => ?_, ofChars_lt_of_lt⟩
  rcases lt_trichotomy s t with hlt | rfl | hgt
  · exact hlt
  · exact absurd h (List.lt_irrefl _)
  · exact absurd (ofChars_lt_of_lt hgt) (List.lt_asymm h)

end Bytes

theorem NodeId.compare_eq_lt_iff {a b : NodeId} :
    compare a b = .lt ↔ Bytes.ofString a.text < Bytes.ofString b.text := by
  rw [Bytes.ofString_lt_ofString_iff]
  exact compareOfLessAndEq_eq_lt

end PeerGateway
