import PeerGateway.Proofs.Binary64.Rounding
import PeerGateway.Proofs.Load.Requests

/-!
# Bounds of a load

The numbers of a load are finite as long as what they are made from is: those of a node's own
snapshot (`LoadRecord.IsBounded.isFinite_snapshot`) if its readings are percentages and its sums fit
into words, and the shares of a peer's score (`LoadRecord.IsBounded.shares_scoreOf`) if its snapshot
and its round trip are bounded, which every run of a record preserves (`LoadRecord.IsBounded.run`).
Only the weights can make a total grow to infinity or stand for no number, and those of magnitude
four or less do not (`Score.isFinite_total_ofSnapshot`).
-/

namespace PeerGateway

open Binary64

/-! ## Readings of the machine -/

/-- Both readings are percentages. -/
def HostLoad.InRange (h : HostLoad) : Prop := inRange h.cpu = true ∧ inRange h.memory = true

instance (h : HostLoad) : Decidable h.InRange := inferInstanceAs (Decidable (_ ∧ _))

theorem HostLoad.isFinite_of_inRange {x : Binary64} (h : inRange x = true) : x.isFinite = true := by
  simp only [inRange, Binary64.le, Bool.and_eq_true, decide_eq_true_eq] at h
  obtain ⟨⟨-, hlow⟩, -, hhigh⟩ := h
  have hzero : (0 : Binary64).place = 0 := by decide +kernel
  have hhundred : (100 : Binary64).place < infiniteMagnitude := by decide +kernel
  rw [isFinite_iff]
  rw [hzero, place] at hlow
  rw [place] at hhigh
  split_ifs at hlow hhigh <;> omega

/-! ## Spans -/

namespace Span

/-- The seconds of a span fit into a 64-bit word. -/
def Fits (d : Span) : Prop := d.secs < UInt64.size

instance (d : Span) : Decidable d.Fits := inferInstanceAs (Decidable (_ < _))

variable {d : Span} {k : ℕ}

theorem isWithin_remainder : (ofNat (d % nanosPerSecond)).IsWithin 30 :=
  isWithin_ofNat (by decide) ((Nat.mod_lt d (by decide)).le.trans (by decide))

theorem isAtLeast_nanosPerSecond : (ofNat nanosPerSecond).IsAtLeast 0 :=
  isAtLeast_ofNat (by decide) (@isWithin_ofNat 30 _ (by decide) (by decide)).isFinite

theorem isWithin_seconds (hlow : 30 ≤ k) (hk : k + 1 ≤ greatestExponent) (h : d.secs ≤ 2 ^ k) :
    d.seconds.IsWithin (k + 1) := by
  have hquotient := isWithin_div (@isWithin_remainder d).isFinite isWithin_remainder.quanta_le
    isAtLeast_nanosPerSecond (by decide)
  exact (isWithin_ofNat (by omega) h).add (hquotient.mono hlow) hk

theorem isWithin_milliseconds (hlow : 30 ≤ k) (hk : k + 11 ≤ greatestExponent)
    (h : d.secs ≤ 2 ^ k) : (Score.milliseconds d).IsWithin (k + 11) :=
  (isWithin_seconds hlow (by omega) h).mul (@isWithin_ofNat 10 1000 (by decide) (by decide)) hk

/-- A span that is not shorter than a second is a number of at least one. -/
theorem isAtLeast_seconds (hone : 1 ≤ d.secs) (h : d.Fits) : d.seconds.IsAtLeast 0 := by
  have hsecs : (ofNat d.secs).IsAtLeast 0 :=
    isAtLeast_ofNat hone (@isWithin_ofNat 64 _ (by decide) h.le).isFinite
  have hfinite := (@isWithin_seconds d 64 (by decide) (by decide) h.le).isFinite
  refine hsecs.add (negative_ofNat _)
    (isFinite_div isWithin_remainder.isFinite isAtLeast_nanosPerSecond) ?_ hfinite
  rw [div_eq_rounded isWithin_remainder.isFinite isAtLeast_nanosPerSecond, negative_rounded,
    negative_ofNat, negative_ofNat]
  rfl

theorem secs_ofSeconds_le {x : Binary64} (h : x.IsWithin k) : (ofSeconds x).secs ≤ 2 ^ k := by
  have hle : ofSeconds x ≤ 2 ^ k * nanosPerSecond := by
    refine roundedQuotient_le quantaPerUnit_pos ?_
    calc x.quanta * nanosPerSecond ≤ 2 ^ (unitScale + k) * nanosPerSecond :=
          Nat.mul_le_mul_right _ h.quanta_le
      _ = 2 ^ k * nanosPerSecond * quantaPerUnit := by
          rw [quantaPerUnit_eq, Nat.pow_add]
          ring
  exact Nat.div_le_of_le_mul (hle.trans_eq (Nat.mul_comm _ _))

end Span

/-! ## Scores -/

/-- Every number of a snapshot is finite. -/
def Snapshot.isFinite (m : Snapshot) : Bool :=
  m.cpuUsage.isFinite && m.memoryUsage.isFinite && m.requestsPerSec.isFinite &&
    m.averageLatencyMs.isFinite && m.errorRate.isFinite

/-- Every weight has a magnitude of at most four. -/
structure Weights.AreModerate (w : Weights) : Prop where
  cpu : w.cpu.IsWithin 2
  memory : w.memory.IsWithin 2
  rps : w.rps.IsWithin 2
  latency : w.latency.IsWithin 2

theorem Weights.areModerate_default : AreModerate .default := by
  have hquarter : (ofFraction false 1 4).IsWithin 2 := by
    refine isWithin_rounded (by decide) (by decide) ?_
    rw [quantaPerUnit_eq, Nat.one_mul, Nat.pow_add, Nat.mul_assoc]
    exact Nat.le_mul_of_pos_right _ (by decide)
  exact ⟨hquarter, hquarter, hquarter, hquarter⟩

namespace Score

/-- The exponent of a bound on the shares of a score. -/
@[irreducible] def shareExponent : ℕ := 1018

/-- What shares are multiplied with and added up to is still finite. -/
theorem shareExponent_le : shareExponent + 5 ≤ greatestExponent := by
  unfold shareExponent
  decide

/-- The shares of a score are bounded, whatever the total is. -/
structure SharesAreBounded (s : Score) : Prop where
  cpu : s.cpu.IsWithin shareExponent
  memory : s.memory.IsWithin shareExponent
  rps : s.rps.IsWithin shareExponent
  latency : s.latency.IsWithin shareExponent

/-- What a finite number is divided by leaves a bounded share of it. -/
theorem isWithin_share {x y : Binary64} (hx : x.isFinite = true) (hy : y.IsAtLeast 6) :
    (x / y).IsWithin shareExponent := by
  refine isWithin_div hx ?_ hy ((Nat.le_add_right _ 5).trans shareExponent_le)
  have hsum : shareExponent + 6 = greatestExponent + 1 := by
    unfold shareExponent
    decide
  rw [hsum]
  exact quanta_le_of_isFinite hx

theorem isWithin_one : (ofNat 1).IsWithin shareExponent :=
  (@isWithin_ofNat 0 1 (by decide) (by decide)).mono (Nat.zero_le _)

/-- The score of any numbers has bounded shares if they are finite. -/
theorem sharesAreBounded_score (w : Weights) {cpu memory rps latency : Binary64}
    (hcpu : cpu.isFinite = true) (hmemory : memory.isFinite = true) (hrps : rps.isFinite = true)
    (hlatency : latency.isFinite = true) :
    SharesAreBounded (Load.score w cpu memory rps latency) := by
  have hhundred : (ofNat 100).IsAtLeast 6 :=
    isAtLeast_ofNat (by decide) (@isWithin_ofNat 7 _ (by decide) (by decide)).isFinite
  have hthousand : (ofNat 1000).IsAtLeast 6 :=
    isAtLeast_ofNat (by decide) (@isWithin_ofNat 10 _ (by decide) (by decide)).isFinite
  exact ⟨isWithin_share hcpu hhundred, isWithin_share hmemory hhundred,
    (isWithin_share hrps hthousand).cappedAt isWithin_one,
    (isWithin_share hlatency hthousand).cappedAt isWithin_one⟩

theorem sharesAreBounded_ofSnapshot (w : Weights) {m : Snapshot} {latency : Span} {k : ℕ}
    (hm : m.isFinite = true) (hlow : 30 ≤ k) (hk : k + 11 ≤ greatestExponent)
    (hlatency : latency.secs ≤ 2 ^ k) : (ofSnapshot w m latency).SharesAreBounded := by
  have hms := (Span.isWithin_milliseconds hlow hk hlatency).isFinite
  simp only [Snapshot.isFinite, Bool.and_eq_true] at hm
  obtain ⟨⟨⟨⟨hcpu, hmemory⟩, hrps⟩, -⟩, -⟩ := hm
  exact sharesAreBounded_score w hcpu hmemory hrps hms

theorem sharesAreBounded_unknown : unknown.SharesAreBounded := by
  have hone : (1 : Binary64).IsWithin shareExponent := isWithin_one
  exact ⟨hone, hone, hone, hone⟩

theorem isFinite_total_unknown : unknown.total.isFinite = true :=
  sharesAreBounded_unknown.cpu.isFinite

theorem total_ofSnapshot (w : Weights) (m : Snapshot) (latency : Span) :
    let s := ofSnapshot w m latency
    s.total = s.cpu * w.cpu + s.memory * w.memory + s.rps * w.rps + s.latency * w.latency :=
  rfl

theorem isFinite_total_ofSnapshot {w : Weights} {m : Snapshot} {latency : Span}
    (hw : Weights.AreModerate w) (h : (ofSnapshot w m latency).SharesAreBounded) :
    (ofSnapshot w m latency).total.isFinite = true := by
  have hle := shareExponent_le
  have hcpu := h.cpu.mul hw.cpu (by omega)
  have hmemory := h.memory.mul hw.memory (by omega)
  have hrps := h.rps.mul hw.rps (by omega)
  have hlatency := h.latency.mul hw.latency (by omega)
  have htwo := hcpu.add hmemory (by omega)
  have hthree := htwo.add (hrps.mono (by omega)) (by omega)
  rw [total_ofSnapshot]
  exact (hthree.add (hlatency.mono (by omega)) (by omega)).isFinite

end Score

/-! ## A node's own load -/

/-- The sums of a window fit into words. -/
structure Totals.Fit (t : Totals) : Prop where
  requests : t.requests < UInt64.size
  duration : t.duration.Fits

namespace LoadRecord

variable {c : LoadRecord} {now : WallTime}

theorem isFinite_zero : (0 : Binary64).isFinite = true :=
  (@isWithin_ofNat 0 0 (by decide) (by decide)).isFinite

section Totals

variable {t : Totals}

theorem isAtLeast_requests (hpos : t.requests ≠ 0) (h : t.Fit) : (ofNat t.requests).IsAtLeast 0 :=
  isAtLeast_ofNat (Nat.pos_of_ne_zero hpos)
    (@isWithin_ofNat 64 _ (by decide) h.requests.le).isFinite

theorem isFinite_errorRate (h : t.Fit) (herrors : t.errors ≤ t.requests) :
    (errorRate t).isFinite = true := by
  unfold errorRate
  split_ifs with hzero
  · exact isFinite_zero
  · have herrors' : (ofNat t.errors).IsWithin 64 :=
      isWithin_ofNat (by decide) (herrors.trans h.requests.le)
    have hquotient := isWithin_div herrors'.isFinite herrors'.quanta_le
      (isAtLeast_requests hzero h) (by decide)
    exact (hquotient.mul (@isWithin_ofNat 7 100 (by decide) (by decide)) (by decide)).isFinite

theorem isWithin_averageLatencyMs (h : t.Fit) : (averageLatencyMs t).IsWithin 75 := by
  unfold averageLatencyMs
  split_ifs with hzero
  · exact isWithin_ofNat (by decide) (by decide)
  · have hseconds := @Span.isWithin_milliseconds _ 64 (by decide) (by decide) h.duration.le
    exact isWithin_div hseconds.isFinite hseconds.quanta_le (isAtLeast_requests hzero h) (by decide)

end Totals

theorem errors_totals_le (c : LoadRecord) (now : WallTime) :
    (c.totals now).errors ≤ (c.totals now).requests := by
  rw [totals, Totals.of_eq]
  exact List.countP_le_length

/-! ## Records -/

/-- What a record holds is bounded. The window, which requests are divided by, is not shorter than a
second. -/
structure IsBounded (c : LoadRecord) : Prop where
  host : c.host.InRange
  window_secs : 1 ≤ c.window.secs
  window_fits : c.window.Fits
  snapshots : ∀ id m, c.snapshotOf? id = some m → m.isFinite = true
  latencies : ∀ id d, c.latencyOf? id = some d → d.Fits

/-- What a record is told of a peer is bounded. -/
def Event.IsBounded : Event → Prop
  | .update m latency _ => m.isFinite = true ∧ latency.Fits
  | _ => True

namespace IsBounded

theorem purge (h : c.IsBounded) (now : WallTime) : (c.purge now).IsBounded where
  host := h.host
  window_secs := h.window_secs
  window_fits := h.window_fits
  snapshots id m hm := by
    rw [snapshotOf?, LoadRecord.purge, Std.ExtTreeMap.getElem?_filter'] at hm
    exact h.snapshots id m (Option.filter_eq_some_iff.mp hm).1
  latencies id d hd := by
    simp only [latencyOf?, LoadRecord.purge] at hd
    split_ifs at hd
    · exact h.latencies id d hd
    · rw [Std.ExtTreeMap.getElem?_filter'] at hd
      exact h.latencies id d (Option.filter_eq_some_iff.mp hd).1

theorem finish (h : c.IsBounded) (id : String) (isError : Bool) (now : WallTime) :
    (c.finish id isError now).IsBounded := by
  unfold LoadRecord.finish
  split
  · exact h
  · refine purge ?_ now
    exact ⟨h.host, h.window_secs, h.window_fits, h.snapshots, h.latencies⟩

theorem update (h : c.IsBounded) {m : Snapshot} {latency : Span} (hm : m.isFinite = true)
    (hlatency : latency.Fits) (now : WallTime) : (c.update m latency now).IsBounded := by
  unfold LoadRecord.update
  split
  · exact h
  · refine purge ?_ now
    refine ⟨h.host, h.window_secs, h.window_fits, fun id m' hm' => ?_, fun id d hd => ?_⟩
    · simp only [snapshotOf?, Std.ExtTreeMap.getElem?_insert] at hm'
      split_ifs at hm'
      · exact Option.some.inj hm' ▸ hm
      · exact h.snapshots id m' hm'
    · simp only [latencyOf?, Std.ExtTreeMap.getElem?_insert] at hd
      split_ifs at hd
      · exact Option.some.inj hd ▸ hlatency
      · exact h.latencies id d hd

theorem step (h : c.IsBounded) {event : Event} (hevent : event.IsBounded) :
    (c.step event).IsBounded := by
  cases event with
  | start r => exact ⟨h.host, h.window_secs, h.window_fits, h.snapshots, h.latencies⟩
  | finish id isError now => exact h.finish id isError now
  | update m latency now => exact h.update hevent.1 hevent.2 now
  | purge now => exact h.purge now

theorem run (h : c.IsBounded) {events : List Event} (hevents : ∀ e ∈ events, e.IsBounded) :
    (c.run events).IsBounded := by
  induction events generalizing c with
  | nil => exact h
  | cons e events ih =>
    obtain ⟨he, hevents⟩ := List.forall_mem_cons.mp hevents
    exact ih (h.step he) hevents

/-- The numbers of a node's own snapshot are finite if the sums of its window fit. -/
theorem isFinite_snapshot (h : c.IsBounded) (hfit : (c.totals now).Fit) :
    (c.snapshot now).isFinite = true := by
  have hcpu := HostLoad.isFinite_of_inRange h.host.1
  have hmemory := HostLoad.isFinite_of_inRange h.host.2
  have hrequests := (@isWithin_ofNat 64 _ (by decide) hfit.requests.le).isFinite
  have hrps := isFinite_div hrequests (Span.isAtLeast_seconds h.window_secs h.window_fits)
  have hlatency := (isWithin_averageLatencyMs hfit).isFinite
  have herrors := isFinite_errorRate hfit (c.errors_totals_le now)
  simp only [Snapshot.isFinite, snapshot, hcpu, hmemory, hrps, hlatency, herrors, Bool.and_true]

theorem shares_ownScore (h : c.IsBounded) (hfit : (c.totals now).Fit) :
    (c.ownScore now).SharesAreBounded := by
  have hlatency := isWithin_averageLatencyMs hfit
  have hthousand : (ofNat 1000).IsAtLeast 0 :=
    isAtLeast_ofNat (by decide) (@isWithin_ofNat 10 _ (by decide) (by decide)).isFinite
  have hsecs := Span.secs_ofSeconds_le
    (isWithin_div hlatency.isFinite hlatency.quanta_le hthousand (by decide))
  exact Score.sharesAreBounded_ofSnapshot c.weights (h.isFinite_snapshot hfit) (by decide)
    (by decide) hsecs

theorem shares_scoreOf (h : c.IsBounded) (id : NodeId) : (c.scoreOf id).SharesAreBounded := by
  unfold scoreOf
  split
  · rename_i m hm
    have hlatency : ((c.latencyOf? id).getD 0).secs ≤ 2 ^ 64 := by
      cases hd : c.latencyOf? id with
      | none => exact Nat.zero_le _
      | some d => exact (h.latencies id d hd).le
    exact Score.sharesAreBounded_ofSnapshot c.weights (h.snapshots id m hm) (by decide) (by decide)
      hlatency
  · exact Score.sharesAreBounded_unknown

theorem isFinite_total_ownScore (h : c.IsBounded) (hfit : (c.totals now).Fit)
    (hw : c.weights.AreModerate) : (c.ownScore now).total.isFinite = true :=
  Score.isFinite_total_ofSnapshot hw (h.shares_ownScore hfit)

theorem isFinite_total_scoreOf (h : c.IsBounded) (hw : c.weights.AreModerate) (id : NodeId) :
    (c.scoreOf id).total.isFinite = true := by
  have hshares := h.shares_scoreOf id
  unfold scoreOf at hshares ⊢
  split at hshares
  · exact Score.isFinite_total_ofSnapshot hw hshares
  · exact Score.isFinite_total_unknown

end IsBounded

end LoadRecord

end PeerGateway
