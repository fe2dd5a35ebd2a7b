import PeerGateway.Directory.Join
import PeerGateway.Load.Record
import Mathlib.Algebra.Order.Field.Rat
import Mathlib.Tactic.GCongr
import Mathlib.Tactic.Linarith
import Mathlib.Tactic.Positivity

/-!
# Scores in exact numbers

The sum of a score over the rational numbers (`Load.score` at `ℚ`), where no step rounds. With
weights that are not negative it grows with each of its numbers (`Load.total_mono`). With weights of
sum one at most, a load in its range has a total between zero and one (`Load.total_nonneg`,
`Load.total_le_sum`), so no node with a snapshot has a total above that of a node without one
(`LoadRecord.exactScoreOf_le`). `LoadRecord.scoreIn` is the score of a node in any numbers: read in
binary64 it is the one that nodes are ranked by (`LoadRecord.scoreIn_binary64`), read exactly it is
`LoadRecord.exactScoreOf`.
-/

namespace PeerGateway

instance : LoadNumber ℚ where
  ofNat := Nat.cast
  cappedAt := min

/-! ## Numbers, exactly -/

/-- The value of a binary64 number. One that is not finite has a magnitude beyond all that are. -/
def Binary64.exact (x : Binary64) : ℚ := x.signedQuanta / quantaPerUnit

example : (Binary64.ofFraction true 5 2).exact = -5 / 2 := by decide +kernel

/-- The milliseconds of a span. -/
def Span.exactMilliseconds (d : Span) : ℚ := d / nanosPerSecond * 1000

/-- Weights in other numbers. -/
def WeightsOf.map {α β : Type} (f : α → β) (w : WeightsOf α) : WeightsOf β :=
  ⟨f w.cpu, f w.memory, f w.rps, f w.latency⟩

/-- No weight is negative. -/
structure WeightsOf.AreNonneg (w : WeightsOf ℚ) : Prop where
  cpu : 0 ≤ w.cpu
  memory : 0 ≤ w.memory
  rps : 0 ≤ w.rps
  latency : 0 ≤ w.latency

/-- All weights together. -/
def WeightsOf.sum (w : WeightsOf ℚ) : ℚ := w.cpu + w.memory + w.rps + w.latency

namespace Load

/-! ## The sum -/

variable {w : WeightsOf ℚ} {cpu memory rps latency cpu' memory' rps' latency' : ℚ}

theorem total_score : (score w cpu memory rps latency).total =
    cpu / 100 * w.cpu + memory / 100 * w.memory + min (rps / 1000) 1 * w.rps +
      min (latency / 1000) 1 * w.latency :=
  rfl

/-- A total grows with each of the numbers. -/
theorem total_mono (hw : w.AreNonneg) (hcpu : cpu ≤ cpu') (hmemory : memory ≤ memory')
    (hrps : rps ≤ rps') (hlatency : latency ≤ latency') :
    (score w cpu memory rps latency).total ≤ (score w cpu' memory' rps' latency').total := by
  obtain ⟨hc, hm, hr, hl⟩ := hw
  rw [total_score, total_score]
  gcongr

/-- The numbers of a load are in their range: two percentages, and a rate that is not negative. -/
structure InRange (cpu memory rps : ℚ) : Prop where
  cpu_nonneg : 0 ≤ cpu
  cpu_le : cpu ≤ 100
  memory_nonneg : 0 ≤ memory
  memory_le : memory ≤ 100
  rps_nonneg : 0 ≤ rps

/-- The total of no load is zero, and any other is no less. -/
theorem total_nonneg (hw : w.AreNonneg) (h : InRange cpu memory rps) (hlatency : 0 ≤ latency) :
    0 ≤ (score w cpu memory rps latency).total := by
  have hnone : (score w 0 0 0 0).total = 0 := by simp [total_score]
  exact hnone ▸ total_mono hw h.cpu_nonneg h.memory_nonneg h.rps_nonneg hlatency

/-- Every share of a load in its range is one at most, so the total is at most the weights. -/
theorem total_le_sum (hw : w.AreNonneg) (h : InRange cpu memory rps) :
    (score w cpu memory rps latency).total ≤ w.sum := by
  have hcpu : cpu / 100 ≤ 1 := by linarith [h.cpu_le]
  have hmemory : memory / 100 ≤ 1 := by linarith [h.memory_le]
  rw [total_score, WeightsOf.sum]
  exact add_le_add (add_le_add (add_le_add (mul_le_of_le_one_left hw.cpu hcpu)
    (mul_le_of_le_one_left hw.memory hmemory))
    (mul_le_of_le_one_left hw.rps (min_le_right _ _)))
    (mul_le_of_le_one_left hw.latency (min_le_right _ _))

end Load

/-! ## Scores of nodes -/

/-- The load that a snapshot tells of is in its range. -/
def Snapshot.InRange (m : Snapshot) : Prop :=
  Load.InRange m.cpuUsage.exact m.memoryUsage.exact m.requestsPerSec.exact

namespace LoadRecord

variable {c : LoadRecord} {id k : NodeId}

/-- The score of a peer in some numbers, for a reading of binary64 numbers and of spans in them. -/
def scoreIn {α : Type} [LoadNumber α] (number : Binary64 → α) (milliseconds : Span → α)
    (c : LoadRecord) (id : NodeId) : ScoreOf α :=
  match c.snapshotOf? id with
  | some m =>
    Load.score (c.weights.map number) (number m.cpuUsage) (number m.memoryUsage)
      (number m.requestsPerSec) (milliseconds ((c.latencyOf? id).getD 0))
  | none =>
    let one : α := LoadNumber.ofNat 1
    ⟨one, one, one, one, one⟩

theorem scoreIn_binary64 : c.scoreIn (fun x => x) Score.milliseconds id = c.scoreOf id := rfl

/-- The score of a peer in exact numbers. -/
def exactScoreOf (c : LoadRecord) (id : NodeId) : ScoreOf ℚ :=
  c.scoreIn Binary64.exact Span.exactMilliseconds id

theorem total_exactScoreOf {m : Snapshot} (h : c.snapshotOf? id = some m) :
    (c.exactScoreOf id).total = (Load.score (c.weights.map Binary64.exact) m.cpuUsage.exact
      m.memoryUsage.exact m.requestsPerSec.exact
      (Span.exactMilliseconds ((c.latencyOf? id).getD 0))).total := by
  rw [exactScoreOf, scoreIn, h]

theorem total_exactScoreOf_unknown (h : c.snapshotOf? id = none) :
    (c.exactScoreOf id).total = 1 := by
  rw [exactScoreOf, scoreIn, h]
  exact Nat.cast_one

/-- A node with a snapshot in range has a total that is one at most, which is that of a node
without a snapshot. -/
theorem exactScoreOf_le {m : Snapshot} (hw : (c.weights.map Binary64.exact).AreNonneg)
    (hsum : (c.weights.map Binary64.exact).sum ≤ 1) (hid : c.snapshotOf? id = some m)
    (hm : m.InRange) (hk : c.snapshotOf? k = none) :
    (c.exactScoreOf id).total ≤ (c.exactScoreOf k).total := by
  rw [total_exactScoreOf hid, total_exactScoreOf_unknown hk]
  exact (Load.total_le_sum hw hm).trans hsum

end LoadRecord

namespace Load

/-- In exact numbers, with weights that are not negative : no number of a load that is raised lowers
the total. If the weights are also one at most together, the total of a load in range lies between
zero and one. So of all connected peers of a node, those with a snapshot have no greater totals than
those without one, if the snapshots are in range. -/
theorem exact_totals {w : WeightsOf ℚ} (hw : w.AreNonneg) :
    (∀ {cpu cpu' memory memory' rps rps' latency latency' : ℚ}, cpu ≤ cpu' → memory ≤ memory' →
      rps ≤ rps' → latency ≤ latency' →
      (score w cpu memory rps latency).total ≤ (score w cpu' memory' rps' latency').total) ∧
    (w.sum ≤ 1 →
      (∀ {cpu memory rps latency : ℚ}, InRange cpu memory rps → 0 ≤ latency →
        0 ≤ (score w cpu memory rps latency).total ∧
          (score w cpu memory rps latency).total ≤ 1) ∧
      ∀ (d : Directory) (c : LoadRecord), c.weights.map Binary64.exact = w →
        (∀ id m, c.snapshotOf? id = some m → m.InRange) →
        ∀ id ∈ d.connected.map Peer.nodeId, ∀ k ∈ d.connected.map Peer.nodeId,
          c.snapshotOf? id ≠ none → c.snapshotOf? k = none →
          (c.exactScoreOf id).total ≤ (c.exactScoreOf k).total) := by
  refine ⟨total_mono hw, fun hsum => ⟨fun h hlatency => ?_, ?_⟩⟩
  · exact ⟨total_nonneg hw h hlatency, (total_le_sum hw h).trans hsum⟩
  · rintro d c rfl hrange id - k - hid hk
    obtain ⟨m, hm⟩ := Option.ne_none_iff_exists'.mp hid
    exact LoadRecord.exactScoreOf_le hw hsum hm (hrange id m hm) hk

/-- Two peers are connected. -/
def twoConnected : Directory :=
  let d : Directory := ⟨⟨"n"⟩, "n:7400", 8, ∅⟩
  let d := (d.takeIn ⟨⟨"p"⟩, "p:7400", [], false⟩ false 0).2
  (d.takeIn ⟨⟨"q"⟩, "q:7400", [], false⟩ false 0).2

/-- The load of the first. -/
def oneLoad : Snapshot := ⟨⟨"p"⟩, "p:8080", 80, 50, 250, 0, 0, 0, 0⟩

/-- One of them has told of its load. -/
def oneKnown : LoadRecord :=
  let c : LoadRecord :=
    { nodeId := ⟨"n"⟩, address := "n:8080", window := 1, weights := .default, host := ⟨0, 0⟩ }
  c.update oneLoad (.ofMillis 500) 0

theorem exact_totals_oneKnown :
    let w := Weights.default.map Binary64.exact
    w.AreNonneg ∧ w.sum ≤ 1 ∧ (score w 80 50 250 500).total ≤ (score w 80 60 5000 500).total ∧
      (0 ≤ (score w 80 50 250 500).total ∧ (score w 80 50 250 500).total ≤ 1) ∧
      (oneKnown.exactScoreOf ⟨"p"⟩).total ≤ (oneKnown.exactScoreOf ⟨"q"⟩).total := by
  intro w
  have hw : w.AreNonneg := by constructor <;> decide +kernel
  have hsum : w.sum ≤ 1 := by decide +kernel
  have hlist : oneKnown.snapshots.toList = [(⟨"p"⟩, oneLoad)] := by decide +kernel
  have hrange : ∀ id m, oneKnown.snapshotOf? id = some m → m.InRange := by
    intro id m hm
    have hmem := Std.ExtTreeMap.mem_toList_iff_getElem?_eq_some.mpr hm
    rw [hlist] at hmem
    obtain ⟨rfl, rfl⟩ := Prod.mk.inj (List.mem_singleton.mp hmem)
    constructor <;> decide +kernel
  have hids : twoConnected.connected.map Peer.nodeId = [⟨"p"⟩, ⟨"q"⟩] := by decide +kernel
  obtain ⟨hmono, hbounds⟩ := exact_totals hw
  obtain ⟨hwithin, hknown⟩ := hbounds hsum
  exact ⟨hw, hsum, hmono le_rfl (by norm_num) (by norm_num) le_rfl,
    hwithin (by constructor <;> norm_num) (by norm_num),
    hknown twoConnected oneKnown rfl hrange ⟨"p"⟩ (by simp [hids]) ⟨"q"⟩ (by simp [hids])
      (by decide +kernel) (by decide +kernel)⟩

end Load

end PeerGateway
