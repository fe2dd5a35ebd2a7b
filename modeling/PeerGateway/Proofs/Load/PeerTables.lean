import PeerGateway.Proofs.Load.Lifecycle
import PeerGateway.Proofs.Load.Snapshots
import PeerGateway.Proofs.Time

/-!
# Snapshots and round trips in step

A record keeps the snapshots of its peers in one table and the times of their round trips in
another. A purge goes through the second one only if it took something out of the first, but all
the same a peer is in both or in neither (`LoadRecord.InStep`): every step keeps them so
(`LoadRecord.InStep.step`), and every run (`LoadRecord.inStep_run`).

What a step leaves of the snapshots can be told from its reading of the clock
(`LoadRecord.InStep.held_step`), and `LoadRecord.peers_run` puts both together for the states that
a run comes to.
-/

namespace PeerGateway

namespace LoadRecord

variable {c : LoadRecord} {id : NodeId} {m : Snapshot} {latency : Span} {now : WallTime}

/-! ## Tables in step -/

/-- A peer has both a snapshot and a round trip or neither, a snapshot is held under the identifier
of its node, and the record's own node is no peer. -/
structure InStep (c : LoadRecord) : Prop where
  isSome_latencyOf? : ∀ id, (c.latencyOf? id).isSome = (c.snapshotOf? id).isSome
  nodeId_eq : ∀ id m, c.snapshotOf? id = some m → m.nodeId = id
  own : c.snapshotOf? c.nodeId = none

theorem InStep.latencyOf?_eq_none (h : c.InStep) (hnone : c.snapshotOf? id = none) :
    c.latencyOf? id = none := by
  have hsome := h.isSome_latencyOf? id
  rw [hnone] at hsome
  exact Option.isNone_iff_eq_none.mp (Option.isSome_eq_false_iff.mp hsome)

/-- A purge leaves the round trips to the peers whose snapshots it leaves. -/
theorem InStep.latencyOf?_purge (h : c.InStep) (now : WallTime) (id : NodeId) :
    (c.purge now).latencyOf? id =
      if ((c.purge now).snapshotOf? id).isSome then c.latencyOf? id else none := by
  rcases latencyOf?_purge_cases c id now with ⟨hsame, hall⟩ | hlatency
  · rw [hsame, snapshotOf?_purge]
    cases hm : c.snapshotOf? id with
    | none => exact h.latencyOf?_eq_none hm
    | some m => simp [not_not.mp (hall id m hm)]
  · exact hlatency

theorem InStep.purge (h : c.InStep) (now : WallTime) : (c.purge now).InStep where
  isSome_latencyOf? id := by
    rw [h.latencyOf?_purge]
    cases hm : (c.purge now).snapshotOf? id with
    | none => rfl
    | some m =>
      rw [snapshotOf?_purge, Option.filter_eq_some_iff] at hm
      simp [h.isSome_latencyOf?, hm.1]
  nodeId_eq id m hm := by
    rw [snapshotOf?_purge, Option.filter_eq_some_iff] at hm
    exact h.nodeId_eq id m hm.1
  own := by
    rw [snapshotOf?_purge, show (c.purge now).nodeId = c.nodeId from rfl, h.own]
    rfl

/-- A record with one more snapshot and round trip, before the purge that follows. -/
def told (c : LoadRecord) (m : Snapshot) (latency : Span) : LoadRecord :=
  { c with
    snapshots := c.snapshots.insert m.nodeId m
    latencies := c.latencies.insert m.nodeId latency }

theorem snapshotOf?_told :
    (c.told m latency).snapshotOf? id = if m.nodeId = id then some m else c.snapshotOf? id := by
  simp [told, snapshotOf?, Std.ExtTreeMap.getElem?_insert]

theorem latencyOf?_told :
    (c.told m latency).latencyOf? id =
      if m.nodeId = id then some latency else c.latencyOf? id := by
  simp [told, latencyOf?, Std.ExtTreeMap.getElem?_insert]

theorem InStep.told (h : c.InStep) (hother : m.nodeId ≠ c.nodeId) (latency : Span) :
    (c.told m latency).InStep where
  isSome_latencyOf? id := by
    rw [snapshotOf?_told, latencyOf?_told]
    split_ifs
    · rfl
    · exact h.isSome_latencyOf? id
  nodeId_eq id m' hm' := by
    rw [snapshotOf?_told] at hm'
    split_ifs at hm' with hid
    · exact Option.some.inj hm' ▸ hid
    · exact h.nodeId_eq id m' hm'
  own := by
    rw [snapshotOf?_told, show (c.told m latency).nodeId = c.nodeId from rfl, if_neg hother]
    exact h.own

/-- A record after what an event tells of a peer, before the purge that follows. -/
def toldBy (c : LoadRecord) : Event → LoadRecord
  | .update m latency _ => c.told m latency
  | _ => c

/-- A step leaves the tables of peers as they are, or purges them after what it is told. -/
theorem tables_step (c : LoadRecord) (e : Event) :
    (c.purgedAt? e = none ∧ (c.step e).snapshots = c.snapshots ∧
        (c.step e).latencies = c.latencies) ∨
      ∃ now, c.purgedAt? e = some now ∧
        (c.step e).snapshots = ((c.toldBy e).purge now).snapshots ∧
        (c.step e).latencies = ((c.toldBy e).purge now).latencies := by
  cases e with
  | start r => exact Or.inl ⟨rfl, rfl, rfl⟩
  | finish key isError now =>
    cases hactive : c.active[key]? with
    | none => exact Or.inl (by simp [purgedAt?, step, finish, hactive])
    | some r =>
      refine Or.inr ⟨now, by simp [purgedAt?, hactive], ?_⟩
      rw [step, finish, hactive]
      exact ⟨rfl, rfl⟩
  | update m latency now =>
    by_cases hown : m.nodeId = c.nodeId
    · exact Or.inl (by simp [purgedAt?, step, update, hown])
    · exact Or.inr ⟨now, by simp [purgedAt?, step, update, hown, toldBy, told]⟩
  | purge now => exact Or.inr ⟨now, rfl, rfl, rfl⟩

theorem InStep.congr (h : c.InStep) {c' : LoadRecord} (hid : c'.nodeId = c.nodeId)
    (hsnapshots : c'.snapshots = c.snapshots) (hlatencies : c'.latencies = c.latencies) :
    c'.InStep := by
  constructor
  · simpa only [snapshotOf?, latencyOf?, hsnapshots, hlatencies] using h.isSome_latencyOf?
  · simpa only [snapshotOf?, hsnapshots] using h.nodeId_eq
  · simpa only [snapshotOf?, hsnapshots, hid] using h.own

/-- An event that is followed by a purge tells of no peer that is the record's own node. -/
theorem InStep.toldBy (h : c.InStep) {e : Event} (hpurged : c.purgedAt? e = some now) :
    (c.toldBy e).InStep := by
  cases e with
  | update m latency now =>
    rw [purgedAt?] at hpurged
    split_ifs at hpurged with hown
    exact h.told hown latency
  | start | finish | purge => exact h

theorem InStep.step (h : c.InStep) (e : Event) : (c.step e).InStep := by
  have hid : (c.step e).nodeId = c.nodeId := (c.sameNode_step e).nodeId
  obtain ⟨-, hsnapshots, hlatencies⟩ | ⟨now, hpurged, hsnapshots, hlatencies⟩ := tables_step c e
  · exact h.congr hid hsnapshots hlatencies
  · have hpurge : ((c.toldBy e).purge now).nodeId = c.nodeId := by cases e <;> rfl
    exact ((h.toldBy hpurged).purge now).congr (hid.trans hpurge.symm) hsnapshots hlatencies

theorem inStep_run (h : c.InStep) (events : List Event) : (c.run events).InStep := by
  induction events generalizing c with
  | nil => exact h
  | cons e events ih => exact ih (h.step e)

/-- The score of a peer is that of its snapshot with its round trip, or that of an unknown load if
there is neither. -/
theorem InStep.scoreOf_cases (h : c.InStep) (id : NodeId) :
    (c.snapshotOf? id = none ∧ c.latencyOf? id = none ∧ c.scoreOf id = .unknown) ∨
      ∃ m latency, c.snapshotOf? id = some m ∧ c.latencyOf? id = some latency ∧
        c.scoreOf id = .ofSnapshot c.weights m latency := by
  unfold scoreOf
  cases hm : c.snapshotOf? id with
  | none => exact Or.inl ⟨rfl, h.latencyOf?_eq_none hm, rfl⟩
  | some m =>
    have hsome : (c.latencyOf? id).isSome = true := by rw [h.isSome_latencyOf?, hm]; rfl
    obtain ⟨latency, hlatency⟩ := Option.isSome_iff_exists.mp hsome
    exact Or.inr ⟨m, latency, rfl, hlatency, by simp [hlatency]⟩

/-! ## What a step leaves -/

/-- What an event tells of a peer. -/
def Event.tells? (id : NodeId) : Event → Option (Snapshot × Span)
  | .update m latency _ => if m.nodeId = id then some (m, latency) else none
  | _ => none

theorem snapshotOf?_toldBy (c : LoadRecord) (e : Event) (id : NodeId) :
    (c.toldBy e).snapshotOf? id = ((e.tells? id).map Prod.fst).or (c.snapshotOf? id) := by
  cases e with
  | update m latency now =>
    rw [toldBy, snapshotOf?_told, Event.tells?]
    split_ifs <;> rfl
  | start | finish | purge => rfl

theorem latencyOf?_toldBy (c : LoadRecord) (e : Event) (id : NodeId) :
    (c.toldBy e).latencyOf? id = ((e.tells? id).map Prod.snd).or (c.latencyOf? id) := by
  cases e with
  | update m latency now =>
    rw [toldBy, latencyOf?_told, Event.tells?]
    split_ifs <;> rfl
  | start | finish | purge => rfl

/-- A step that purges leaves just the snapshots that are not before the window, the one that it is
told included, each with the last round trip. -/
theorem InStep.held_step (h : c.InStep) {e : Event} (hpurged : c.purgedAt? e = some now)
    (hclock : now < UInt64.size * Span.nanosPerMilli) (id : NodeId) :
    (c.step e).snapshotOf? id = (((e.tells? id).map Prod.fst).or (c.snapshotOf? id)).filter
        (fun m => decide ((now - c.window).toNat / Span.nanosPerMilli ≤ m.timestamp.toNat)) ∧
      (c.step e).latencyOf? id = if ((c.step e).snapshotOf? id).isSome then
        ((e.tells? id).map Prod.snd).or (c.latencyOf? id) else none := by
  obtain ⟨hnone, -⟩ | ⟨now', hsome, hsnapshots, hlatencies⟩ := tables_step c e
  · exact nomatch hpurged.symm.trans hnone
  obtain rfl : now' = now := Option.some.inj (hsome.symm.trans hpurged)
  have hwindow : (c.toldBy e).window = c.window := by cases e <;> rfl
  have hsnapshot : (c.step e).snapshotOf? id = ((c.toldBy e).purge now').snapshotOf? id :=
    congrArg (·[id]?) hsnapshots
  have hlatency : (c.step e).latencyOf? id = ((c.toldBy e).purge now').latencyOf? id :=
    congrArg (·[id]?) hlatencies
  constructor
  · rw [hsnapshot, snapshotOf?_purge, snapshotOf?_toldBy, hwindow]
    simp only [UInt64.le_iff_toNat_le, WallTime.toNat_epochMillis_before hclock]
  · rw [hlatency, (h.toldBy hpurged).latencyOf?_purge, ← hsnapshot, latencyOf?_toldBy]

/-! ## Runs -/

theorem inStep_new (nodeId : NodeId) (address : String) (window : Span) (weights : Weights)
    (host : HostLoad) : InStep { nodeId, address, window, weights, host } :=
  ⟨fun id => by simp [latencyOf?, snapshotOf?], fun id m hm => by simp [snapshotOf?] at hm,
    by simp [snapshotOf?]⟩

/-- After any run a record has a round trip just to those peers that it has a snapshot of, never to
its own node, and each snapshot under the identifier of its node. So the score of a peer is that of
an unknown load exactly if there is no snapshot, and exactly if there is no round trip. An event
that is followed by a purge leaves exactly the snapshots that are not before the millisecond at
which the window begins, the one that it tells of included, each with the last round trip. One that
is told too late leaves neither behind. -/
theorem peers_run (nodeId : NodeId) (address : String) (window : Span) (weights : Weights)
    (host : HostLoad) (events : List Event) :
    let c := run { nodeId, address, window, weights, host } events
    (∀ id, (c.latencyOf? id).isSome = (c.snapshotOf? id).isSome) ∧
      c.snapshotOf? nodeId = none ∧
      (∀ id m, c.snapshotOf? id = some m → m.nodeId = id) ∧
      (∀ id, (c.snapshotOf? id = none ∧ c.latencyOf? id = none ∧ c.scoreOf id = .unknown) ∨
        ∃ m latency, c.snapshotOf? id = some m ∧ c.latencyOf? id = some latency ∧
          c.scoreOf id = .ofSnapshot weights m latency) ∧
      (∀ e now, c.purgedAt? e = some now → now < UInt64.size * Span.nanosPerMilli → ∀ id,
        (c.step e).snapshotOf? id = (((e.tells? id).map Prod.fst).or (c.snapshotOf? id)).filter
            (fun m => decide ((now - window).toNat / Span.nanosPerMilli ≤ m.timestamp.toNat)) ∧
          (c.step e).latencyOf? id = if ((c.step e).snapshotOf? id).isSome then
            ((e.tells? id).map Prod.snd).or (c.latencyOf? id) else none) ∧
      ∀ m latency (now : WallTime), m.nodeId ≠ nodeId → now < UInt64.size * Span.nanosPerMilli →
        m.timestamp.toNat < (now - window).toNat / Span.nanosPerMilli →
        (c.update m latency now).snapshotOf? m.nodeId = none ∧
          (c.update m latency now).latencyOf? m.nodeId = none := by
  intro c
  have hstep : c.InStep := inStep_run (inStep_new nodeId address window weights host) events
  have hsame : SameNode { nodeId, address, window, weights, host } c := sameNode_run _ events
  have hown : c.nodeId = nodeId := hsame.nodeId
  have hwindow : c.window = window := hsame.window
  have hweights : c.weights = weights := hsame.weights
  have hheld : ∀ e now, c.purgedAt? e = some now → now < UInt64.size * Span.nanosPerMilli → _ :=
    fun e now hpurged hclock => hstep.held_step hpurged hclock
  rw [hwindow] at hheld
  refine ⟨hstep.isSome_latencyOf?, hown ▸ hstep.own, hstep.nodeId_eq,
    hweights ▸ hstep.scoreOf_cases, hheld, fun m latency now hother hclock hlate => ?_⟩
  have hpurged : c.purgedAt? (.update m latency now) = some now := if_neg (hown ▸ hother)
  obtain ⟨hsnapshot, hlatency⟩ := hheld _ now hpurged hclock m.nodeId
  have hnone : (c.update m latency now).snapshotOf? m.nodeId = none := by
    rw [step, Event.tells?, if_pos rfl] at hsnapshot
    refine hsnapshot.trans (Option.filter_some_eq_none.mpr ?_)
    rw [decide_eq_true_iff]
    exact Nat.not_le.mpr hlate
  exact ⟨hnone, hlatency.trans (by rw [step, hnone]; rfl)⟩

/-- An idle node as it tells of itself at a time in milliseconds. -/
def idleSnapshot (id : String) (timestamp : UInt64) : Snapshot :=
  ⟨⟨id⟩, "", 0, 0, 0, 0, 0, 0, timestamp⟩

/-- A record of the last second, after a peer told of itself in time. -/
def afterInTime : LoadRecord :=
  run { nodeId := ⟨"n"⟩, address := "", window := 1000000000, weights := ⟨1, 0, 0, 0⟩,
        host := default } [.update (idleSnapshot "p" 500) 7 1200000000]

/-- Another peer tells of itself too late. -/
theorem peers_run_afterInTime :
    (afterInTime.update (idleSnapshot "q" 100) 9 1300000000).snapshotOf? ⟨"p"⟩ =
        some (idleSnapshot "p" 500) ∧
      (afterInTime.update (idleSnapshot "q" 100) 9 1300000000).latencyOf? ⟨"q"⟩ = none := by
  obtain ⟨-, -, -, -, hheld, hlate⟩ := peers_run ⟨"n"⟩ "" 1000000000 ⟨1, 0, 0, 0⟩ default
    [.update (idleSnapshot "p" 500) 7 1200000000]
  have hfirst := hheld (.update (idleSnapshot "q" 100) 9 1300000000) 1300000000 rfl (by decide)
    ⟨"p"⟩
  exact ⟨hfirst.1.trans (by decide +kernel),
    (hlate (idleSnapshot "q" 100) 9 1300000000 (by decide) (by decide) (by decide)).2⟩

end LoadRecord

end PeerGateway
