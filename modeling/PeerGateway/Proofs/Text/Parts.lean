import PeerGateway.Text.Blank
import Mathlib.Data.List.Basic

/-!
# Parts of a text

What stands between the places of a character (`splitAtChar`) are the parts without that character
which give the text when they are put together with it (`splitAtChar_eq_iff`).
-/

namespace PeerGateway

variable {c : Char} {s t part : List Char}

theorem splitAtChar_of_not_mem (h : c ∉ s) : splitAtChar c s = [s] := by
  induction s with
  | nil => rfl
  | cons d rest ih =>
    obtain ⟨hne, hrest⟩ := not_or.mp (List.mem_cons.not.mp h)
    rw [splitAtChar, if_neg (Ne.symm hne), ih hrest]

theorem splitAtChar_append (h : c ∉ s) : splitAtChar c (s ++ c :: t) = s :: splitAtChar c t := by
  induction s with
  | nil => rw [List.nil_append, splitAtChar, if_pos rfl]
  | cons d rest ih =>
    obtain ⟨hne, hrest⟩ := not_or.mp (List.mem_cons.not.mp h)
    rw [List.cons_append, splitAtChar, if_neg (Ne.symm hne), ih hrest]

/-- Parts that are put together with the character in front of each are taken apart again. -/
theorem splitAtChar_flatMap {parts : List (List Char)} (h : ∀ part ∈ parts, c ∉ part) :
    splitAtChar c (parts.flatMap (c :: ·)) = [] :: parts := by
  induction parts with
  | nil => rfl
  | cons part parts ih =>
    have hrest := ih fun p hp => h p (List.mem_cons_of_mem _ hp)
    have hpart := h part List.mem_cons_self
    rw [List.flatMap_cons, List.cons_append, splitAtChar, if_pos rfl]
    congr 1
    cases parts with
    | nil => rw [List.flatMap_nil, List.append_nil, splitAtChar_of_not_mem hpart]
    | cons next parts =>
      rw [List.flatMap_cons, List.cons_append, splitAtChar, if_pos rfl] at hrest
      rw [List.flatMap_cons, List.cons_append, splitAtChar_append hpart, (List.cons.inj hrest).2]

/-- A part has no place of the character. -/
theorem not_mem_of_mem_splitAtChar (h : part ∈ splitAtChar c s) : c ∉ part := by
  induction s generalizing part with
  | nil =>
    obtain rfl := List.mem_singleton.mp h
    exact List.not_mem_nil
  | cons d rest ih =>
    unfold splitAtChar at h
    split_ifs at h with hd
    · rcases List.mem_cons.mp h with rfl | h
      · exact List.not_mem_nil
      · exact ih h
    · split at h
      · obtain rfl := List.mem_singleton.mp h
        simpa using Ne.symm hd
      · rename_i first parts hrest
        rcases List.mem_cons.mp h with rfl | h
        · have hfirst := ih (hrest ▸ List.mem_cons_self)
          simpa [Ne.symm hd] using hfirst
        · exact ih (hrest ▸ List.mem_cons_of_mem _ h)

theorem sublist_of_mem_splitAtChar (h : part ∈ splitAtChar c s) : part.Sublist s := by
  induction s generalizing part with
  | nil =>
    obtain rfl := List.mem_singleton.mp h
    exact List.Sublist.refl _
  | cons d rest ih =>
    unfold splitAtChar at h
    split_ifs at h with hd
    · rcases List.mem_cons.mp h with rfl | h
      · exact List.nil_sublist _
      · exact (ih h).cons d
    · split at h
      · obtain rfl := List.mem_singleton.mp h
        simp
      · rename_i first parts hrest
        rcases List.mem_cons.mp h with rfl | h
        · exact (ih (hrest ▸ List.mem_cons_self)).cons_cons d
        · exact (ih (hrest ▸ List.mem_cons_of_mem _ h)).cons d

theorem splitAtChar_eq_splitOn (c : Char) (s : List Char) : splitAtChar c s = s.splitOn c := by
  induction s with
  | nil => rfl
  | cons d rest ih =>
    rw [List.splitOn_cons_eq_if_modifyHead, ← ih, splitAtChar]
    by_cases hd : d = c
    · simp [hd]
    · simp only [hd, if_false, beq_iff_eq]
      cases hrest : splitAtChar c rest with
      | nil => exact absurd (ih ▸ hrest) (List.splitOn_ne_nil c rest)
      | cons part parts => rfl

/-- What stands between the places of a character are the parts that give the text when they are put
together with it. -/
theorem splitAtChar_eq_iff {c : Char} {s : List Char} {parts : List (List Char)} :
    splitAtChar c s = parts ↔
      parts ≠ [] ∧ (∀ part ∈ parts, c ∉ part) ∧ s = [c].intercalate parts := by
  rw [splitAtChar_eq_splitOn]
  constructor
  · rintro rfl
    refine ⟨List.splitOn_ne_nil c s, fun part hpart => ?_, (List.intercalate_splitOn c).symm⟩
    rw [← splitAtChar_eq_splitOn] at hpart
    exact not_mem_of_mem_splitAtChar hpart
  · rintro ⟨hne, hparts, rfl⟩
    exact List.splitOn_intercalate c hparts hne

end PeerGateway
