import PeerGateway.Time
import Mathlib.Tactic.Common

/-!
# Readings of the clocks

How long ago something was, on the steady clock (`Instant.since`), and where a window begins on the
wall clock (`WallTime.before`). No reading of the wall clock is before `WallTime.earliest`, and the
epoch stands in for one that would be.
-/

namespace PeerGateway

/-! ## The steady clock -/

namespace Instant

variable {now earlier later : Instant} {d : Span}

theorem le_since_iff (h : earlier ≤ now) : d ≤ now.since earlier ↔ earlier + d ≤ now := by
  unfold since
  simp only [Instant, Span] at *
  omega

theorem since_le_since (h : earlier ≤ later) : now.since later ≤ now.since earlier :=
  Int.toNat_le_toNat (Int.sub_le_sub_left h now)

end Instant

/-! ## The wall clock -/

namespace WallTime

variable {t now s : WallTime} {window : Span}

theorem getD_since? (now earlier : WallTime) :
    (now.since? earlier).getD 0 = (now - earlier).toNat := by
  unfold since?
  split
  · rfl
  · rename_i hlater
    exact (Int.toNat_of_nonpos (Int.sub_nonpos_of_le (Int.le_of_lt (Int.not_le.mp hlater)))).symm

/-- What lies in the window that ends now is not cut off at any reading before. The epoch, which
stands in for a cutoff that would be too early, cuts nothing off that is not before it. -/
theorem before_le (ht : t ≤ now) (hs : 0 ≤ s) (hwindow : now - window ≤ s) :
    t.before window ≤ s := by
  unfold before
  split
  · have hcut : t - window ≤ now - window := Int.sub_le_sub_right ht window
    exact Int.le_trans hcut hwindow
  · exact hs

/-- The purge at a reading does not cut the reading itself off, unless it is before the epoch and
the window reaches back further than any reading. -/
theorem before_le_self_iff : now.before window ≤ now ↔ 0 ≤ now ∨ earliest ≤ now - window := by
  unfold before
  split_ifs with hreach
  · exact iff_of_true (Int.sub_le_self now (Int.natCast_nonneg _)) (Or.inr hreach)
  · exact (or_iff_left hreach).symm

/-- The milliseconds of a reading a span before, if the reading itself is within a 64-bit word of
milliseconds; zero where that is before the epoch. -/
theorem toNat_epochMillis_before (h : now < UInt64.size * Span.nanosPerMilli) :
    (now.before window).epochMillis.toNat = (now - window).toNat / Span.nanosPerMilli := by
  unfold before epochMillis
  rw [UInt64.toNat_ofNat']
  split_ifs with hreach
  · have hpos : 0 < UInt64.size * Span.nanosPerMilli := by decide
    refine Nat.mod_eq_of_lt ((Nat.div_lt_iff_lt_mul (by decide)).mpr ?_)
    show (now - window).toNat < UInt64.size * Span.nanosPerMilli
    simp only [WallTime] at h ⊢
    omega
  · have hnone : (now - window).toNat = 0 := by
      have hearliest : earliest < 0 := by decide
      simp only [WallTime] at hreach hearliest ⊢
      omega
    simp [hnone]

end WallTime

end PeerGateway
