import PeerGateway.Text.Bytes
import Mathlib.Data.List.Flatten
import Mathlib.Tactic.Common

/-!
# Bytes and text

The UTF-8 form of a character is one byte for ASCII and bytes beyond ASCII for the others. The bytes
of a text determine it (`Bytes.text?_ofChars`, `Bytes.ofString_of_text?`), and a part of a text that
takes as many bytes is all of it (`Bytes.eq_of_sublist`).
-/

namespace PeerGateway

/-! ## Words and arrays -/

/-- A word of sixteen bits is its two bytes. -/
theorem ofNat_toUInt8_div (g : UInt16) :
    UInt16.ofNat ((g / 256).toUInt8.toNat * 256 + g.toUInt8.toNat) = g := by
  have hlt : g.toNat < 65536 := g.toNat_lt
  have hhigh : (g / 256).toUInt8.toNat = g.toNat / 256 := by
    rw [UInt16.toNat_toUInt8, UInt16.toNat_div]
    exact Nat.mod_eq_of_lt (show g.toNat / 256 < 256 by omega)
  have hlow : g.toUInt8.toNat = g.toNat % 256 := UInt16.toNat_toUInt8 g
  rw [hhigh, hlow, Nat.div_add_mod', UInt16.ofNat_toNat]

theorem toList_loop (bs : ByteArray) (i : ℕ) (read : List UInt8) :
    ByteArray.toList.loop bs i read = read.reverse ++ bs.data.toList.drop i := by
  fun_induction ByteArray.toList.loop bs i read with
  | case1 i read hlt ih =>
    have hget : bs.get! i = _ := getElem!_pos bs.data i hlt
    rw [ih, hget, List.drop_eq_getElem_cons (i := i) hlt, List.reverse_cons, List.append_assoc,
      List.singleton_append, Array.getElem_toList]
  | case2 i read hge =>
    rw [List.drop_eq_nil_of_le (Nat.le_of_not_lt hge), List.append_nil]

/-- The bytes of an array that is made of bytes are these. -/
theorem toList_mk_toArray (bs : List UInt8) : (ByteArray.mk bs.toArray).toList = bs := by
  show ByteArray.toList.loop _ 0 [] = bs
  rw [toList_loop]
  rfl

namespace Bytes

/-! ## Characters -/

/-- A character is no surrogate, and in one of the planes. -/
theorem toNat_cases (c : Char) : c.toNat < 0xD800 ∨ 0xDFFF < c.toNat ∧ c.toNat < 0x110000 :=
  c.valid

theorem utf8EncodeChar_ascii {c : Char} (h : c.toNat ≤ 0x7F) :
    String.utf8EncodeChar c = [UInt8.ofNat c.toNat] :=
  if_pos h

/-- The bytes of a character beyond ASCII are beyond ASCII. -/
theorem le_of_mem_utf8EncodeChar {c : Char} (h : 0x7F < c.toNat) :
    ∀ b ∈ String.utf8EncodeChar c, 0x80 ≤ b.toNat := by
  have hv : ¬c.val.toNat ≤ 127 := Nat.not_le.mpr h
  unfold String.utf8EncodeChar
  simp only [if_neg hv]
  split_ifs <;>
  · simp only [List.mem_cons, List.not_mem_nil, or_false]
    rintro b (rfl | rfl | rfl | rfl) <;> simp only [UInt8.toNat_ofNat'] <;> omega

/-- The byte of a decimal digit. -/
theorem exists_byte_of_isDigit {c : Char} (h : c.isDigit = true) : ∃ b,
    String.utf8EncodeChar c = [b] ∧ isDigit b = true ∧ b.toNat - 48 = c.toNat - '0'.toNat ∧
      (b = ascii '0' → c = '0') := by
  obtain ⟨hlow, hhigh⟩ : 48 ≤ c.toNat ∧ c.toNat ≤ 57 := Char.isDigit_iff_toNat.mp h
  have hbyte : (UInt8.ofNat c.toNat).toNat = c.toNat := by
    rw [UInt8.toNat_ofNat']
    omega
  refine ⟨UInt8.ofNat c.toNat, utf8EncodeChar_ascii (by omega), ?_, ?_, fun hzero => ?_⟩
  · simp only [isDigit, Bool.and_eq_true, decide_eq_true_eq, UInt8.le_iff_toNat_le, hbyte]
    exact ⟨hlow, hhigh⟩
  · rw [hbyte]
    rfl
  · have hnat := congrArg UInt8.toNat hzero
    rw [hbyte] at hnat
    exact Char.toNat_inj.mp hnat

/-- A digit of a byte in hexadecimal reads back. -/
theorem hexValue?_digitChar : ∀ i < 16, ∃ b, String.utf8EncodeChar (Nat.digitChar i) = [b] ∧
    hexValue? b = some i := by
  intro i hi
  refine ⟨UInt8.ofNat (Nat.digitChar i).toNat, utf8EncodeChar_ascii ?_, ?_⟩ <;>
    revert i <;> decide

theorem hexValue?_toUpper_digitChar : ∀ i < 16, ∃ b,
    String.utf8EncodeChar (Nat.digitChar i).toUpper = [b] ∧ hexValue? b = some i := by
  intro i hi
  refine ⟨UInt8.ofNat (Nat.digitChar i).toUpper.toNat, utf8EncodeChar_ascii ?_, ?_⟩ <;>
    revert i <;> decide

/-! ## Texts -/

@[simp] theorem ofChars_nil : ofChars [] = [] :=
  rfl

@[simp] theorem ofChars_cons (c : Char) (cs : List Char) :
    ofChars (c :: cs) = String.utf8EncodeChar c ++ ofChars cs :=
  List.flatMap_cons

/-- The UTF-8 form of characters reads back. -/
theorem text?_ofChars (cs : List Char) : text? (ofChars cs) = some (String.ofList cs) := by
  have hbytes : (⟨(ofChars cs).toArray⟩ : ByteArray) = cs.utf8Encode :=
    ByteArray.ext List.data_toByteArray.symm
  rw [text?, hbytes, String.fromUTF8?, dif_pos ByteArray.isValidUTF8_utf8Encode]
  rfl

/-- Bytes that are text are the UTF-8 form of it. -/
theorem ofString_of_text? {bs : Bytes} {t : String} (h : text? bs = some t) : ofString t = bs := by
  unfold text? String.fromUTF8? at h
  split at h
  · rename_i hvalid
    obtain rfl := Option.some.inj h
    have hbytes : (String.fromUTF8 ⟨bs.toArray⟩ hvalid).toList.utf8Encode = ⟨bs.toArray⟩ :=
      String.utf8Encode_toList
    have harray : (ofString (String.fromUTF8 ⟨bs.toArray⟩ hvalid)).toArray = bs.toArray :=
      List.data_toByteArray.symm.trans (congrArg ByteArray.data hbytes)
    exact List.toArray_inj harray
  · simp at h

theorem length_ofChars_cons (c : Char) (cs : List Char) :
    (ofChars cs).length < (ofChars (c :: cs)).length := by
  rw [ofChars_cons, List.length_append]
  have hpos : 0 < (String.utf8EncodeChar c).length :=
    List.length_pos_iff.mpr String.utf8EncodeChar_ne_nil
  omega

theorem length_ofChars_le_of_sublist {s t : List Char} (h : s.Sublist t) :
    (ofChars s).length ≤ (ofChars t).length :=
  (h.flatMap String.utf8EncodeChar).length_le

/-- A part of a text that takes as many bytes is all of it. -/
theorem eq_of_sublist {s t : List Char} (h : s.Sublist t)
    (hlength : (ofChars t).length ≤ (ofChars s).length) : s = t := by
  induction h with
  | slnil => rfl
  | cons c h ih =>
    have hless := length_ofChars_le_of_sublist h
    exact absurd (Nat.lt_of_lt_of_le (length_ofChars_cons c _) hlength) (by omega)
  | cons_cons c h ih =>
    rw [ofChars_cons, ofChars_cons, List.length_append, List.length_append] at hlength
    rw [ih (by omega)]

end Bytes

end PeerGateway
