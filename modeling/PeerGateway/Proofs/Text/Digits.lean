import PeerGateway.Text.Digit
import Mathlib.Tactic.Common

/-!
# Rows of digits

A number in a base of at most sixteen is written as digits of that base (`isSome_of_mem_toDigits`),
which stand for it (`foldl_toDigits`), and only zero has a zero in front
(`eq_zero_of_head?_toDigits`).
-/

namespace PeerGateway

section Base

variable {base n : ℕ}

theorem digitIn?_digitChar {d : ℕ} (hbase : base ≤ 16) (hd : d < base) :
    digitIn? base (Nat.digitChar d) = some d := by
  have hhex : ∀ d < 16, digitIn? 16 (Nat.digitChar d) = some d := by decide
  have hvalue := hhex d (by omega)
  unfold digitIn? at hvalue ⊢
  rw [Option.filter_eq_some_iff] at hvalue ⊢
  exact ⟨hvalue.1, decide_eq_true hd⟩

theorem isSome_of_mem_toDigits (hb : 1 < base) (hbase : base ≤ 16) :
    ∀ c ∈ Nat.toDigits base n, (digitIn? base c).isSome = true := by
  induction n using Nat.strongRecOn with
  | ind n ih =>
    intro c hc
    rcases Nat.lt_or_ge n base with hlt | hge
    · rw [Nat.toDigits_of_lt_base hlt, List.mem_singleton] at hc
      rw [hc, digitIn?_digitChar hbase hlt]
      rfl
    · rw [Nat.toDigits_of_base_le hb hge, List.mem_append, List.mem_singleton] at hc
      rcases hc with hc | rfl
      · exact ih (n / base) (Nat.div_lt_self (by omega) hb) c hc
      · rw [digitIn?_digitChar hbase (Nat.mod_lt n (by omega))]
        rfl

theorem foldl_toDigits (hb : 1 < base) (hbase : base ≤ 16) (n : ℕ) :
    (Nat.toDigits base n).foldl (fun n c => n * base + (digitIn? base c).getD 0) 0 = n := by
  induction n using Nat.strongRecOn with
  | ind n ih =>
    rcases Nat.lt_or_ge n base with hlt | hge
    · rw [Nat.toDigits_of_lt_base hlt]
      simp [digitIn?_digitChar hbase hlt]
    · rw [Nat.toDigits_of_base_le hb hge, List.foldl_append,
        ih (n / base) (Nat.div_lt_self (by omega) hb)]
      simp only [List.foldl_cons, List.foldl_nil,
        digitIn?_digitChar hbase (Nat.mod_lt n (by omega : 0 < base)), Option.getD_some]
      exact Nat.div_add_mod' n base

/-- A number is written with a digit in front, which is a zero only for zero. -/
theorem exists_toDigits_eq_cons (hb : 1 < base) (n : ℕ) : ∃ i cs,
    i < base ∧ Nat.toDigits base n = Nat.digitChar i :: cs ∧ (i = 0 → n = 0) := by
  induction n using Nat.strongRecOn with
  | ind n ih =>
    rcases Nat.lt_or_ge n base with hlt | hge
    · exact ⟨n, [], hlt, Nat.toDigits_of_lt_base hlt, id⟩
    · obtain ⟨i, cs, hi, htext, hzero⟩ := ih (n / base) (Nat.div_lt_self (by omega) hb)
      refine ⟨i, cs ++ [Nat.digitChar (n % base)], hi, ?_, fun h => ?_⟩
      · rw [Nat.toDigits_of_base_le hb hge, htext, List.cons_append]
      · exact absurd (hzero h) (Nat.ne_of_gt (Nat.div_pos hge (by omega)))

/-- Only zero is written with a zero in front. -/
theorem eq_zero_of_head?_toDigits (hb : 1 < base) (hbase : base ≤ 16)
    (h : (Nat.toDigits base n).head? = some '0') : n = 0 := by
  obtain ⟨i, cs, hi, htext, hzero⟩ := exists_toDigits_eq_cons hb n
  have hdigit : ∀ d < 16, Nat.digitChar d = '0' → d = 0 := by decide
  rw [htext, List.head?_cons] at h
  exact hzero (hdigit i (by omega) (Option.some.inj h))

end Base

/-- More digits make no number less. -/
theorem le_ofDigitChars (cs : List Char) : ∀ v, v ≤ Nat.ofDigitChars 10 cs v := by
  induction cs with
  | nil => exact Nat.le_refl
  | cons c cs ih =>
    intro v
    rw [Nat.ofDigitChars_cons]
    exact Nat.le_trans (by omega) (ih _)

end PeerGateway
