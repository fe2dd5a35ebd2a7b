import PeerGateway.Proofs.Load.Requests
import Mathlib.Tactic.SplitIfs

/-!
# What a record holds of a peer

A record holds the last snapshot that it was told of a peer, and the time of the round trip that
came with it. It forgets both at once, at a purge whose cutoff the snapshot is before, and a purge
follows every change.

`LoadRecord.Holds` says so of one peer, with the readings of the clock that may have been too late
for it. What is told of other peers adds readings and changes nothing else
(`LoadRecord.Holds.step`), so the last update of a peer decides, whatever comes before and after it
(`LoadRecord.holds_run_of_mem`).
-/

namespace PeerGateway

namespace LoadRecord

/-- A snapshot is before the window that ends at a reading of the clock. -/
def Expires (window : Span) (m : Snapshot) (t : WallTime) : Prop :=
  ¬ (t.before window).epochMillis ≤ m.timestamp

/-- A record holds just this of a peer, or nothing since the snapshot was before the window at one
of the readings. A round trip without a snapshot may be forgotten at any of them. -/
def Holds (c : LoadRecord) (id : NodeId) (m? : Option Snapshot) (latency? : Option Span)
    (readings : List WallTime) : Prop :=
  (c.snapshotOf? id = m? ∧ c.latencyOf? id = latency?) ∨
    (c.snapshotOf? id = none ∧ c.latencyOf? id = none ∧
      ∀ m, m? = some m → ∃ t ∈ readings, Expires c.window m t)

variable {c : LoadRecord} {id : NodeId} {m : Snapshot} {m? : Option Snapshot} {latency : Span}
  {latency? : Option Span} {now : WallTime} {readings later : List WallTime}

/-! ## Purges -/

theorem snapshotOf?_purge : (c.purge now).snapshotOf? id =
    (c.snapshotOf? id).filter fun m => decide ((now.before c.window).epochMillis ≤ m.timestamp) :=
  Std.ExtTreeMap.getElem?_filter'

/-- A purge leaves the round trips alone if it lets no snapshot go, and else those that are of a
snapshot which is still there. -/
theorem latencyOf?_purge_cases (c : LoadRecord) (id : NodeId) (now : WallTime) :
    ((c.purge now).latencyOf? id = c.latencyOf? id ∧
      ∀ k m, c.snapshotOf? k = some m → ¬ Expires c.window m now) ∨
    (c.purge now).latencyOf? id =
      if ((c.purge now).snapshotOf? id).isSome then c.latencyOf? id else none := by
  by_cases hsize : (c.purge now).snapshots.size = c.snapshots.size
  · refine Or.inl ⟨congrArg (·[id]?) (if_pos hsize), fun k m hm hexpires => ?_⟩
    obtain ⟨hk, rfl⟩ := Std.ExtTreeMap.getElem?_eq_some_iff.mp hm
    exact hexpires (of_decide_eq_true (Std.ExtTreeMap.size_filter_eq_size_iff.mp hsize k hk))
  · refine Or.inr ?_
    have hlatencies : (c.purge now).latencies =
        c.latencies.filter fun k _ => (c.purge now).snapshots.contains k := if_neg hsize
    rw [latencyOf?, hlatencies, Std.ExtTreeMap.getElem?_filter',
      Std.ExtTreeMap.contains_eq_isSome_getElem?, snapshotOf?, latencyOf?]
    cases (c.purge now).snapshots[id]? <;> cases c.latencies[id]? <;> rfl

theorem Holds.purge (h : c.Holds id m? latency? readings) (now : WallTime) :
    (c.purge now).Holds id m? latency? (readings ++ [now]) := by
  rcases h with ⟨rfl, rfl⟩ | ⟨hnone, hlatency, hexpired⟩
  · by_cases hkept : (c.purge now).snapshotOf? id = c.snapshotOf? id
    · rcases latencyOf?_purge_cases c id now with ⟨hsame, -⟩ | hsame
      · exact Or.inl ⟨hkept, hsame⟩
      · cases hm : c.snapshotOf? id with
        | some m =>
          rw [hkept, hm] at hsame
          exact Or.inl ⟨hkept.trans hm, hsame⟩
        | none =>
          rw [hkept, hm] at hsame
          exact Or.inr ⟨hkept.trans hm, hsame, nofun⟩
    · -- The snapshot is gone, so its round trip is.
      cases hm : c.snapshotOf? id with
      | none => exact absurd (by rw [snapshotOf?_purge, hm]; rfl) hkept
      | some m =>
        rw [snapshotOf?_purge, hm, Option.filter_some_eq_some, decide_eq_true_iff] at hkept
        have hgone : (c.purge now).snapshotOf? id = none := by
          rw [snapshotOf?_purge, hm, Option.filter_some_eq_none, decide_eq_true_iff]
          exact hkept
        refine Or.inr ⟨hgone, ?_, fun m' hm' => ⟨now, by simp, Option.some.inj hm' ▸ hkept⟩⟩
        rcases latencyOf?_purge_cases c id now with ⟨-, hall⟩ | hsame
        · exact absurd hkept (hall id m hm)
        · rw [hsame, hgone]
          rfl
  · have hgone : (c.purge now).snapshotOf? id = none := by rw [snapshotOf?_purge, hnone]; rfl
    refine Or.inr ⟨hgone, ?_, fun m hm => ?_⟩
    · rcases latencyOf?_purge_cases c id now with ⟨hsame, -⟩ | hsame
      · exact hsame.trans hlatency
      · rw [hsame, hgone]
        rfl
    · obtain ⟨t, ht, hexpires⟩ := hexpired m hm
      exact ⟨t, List.mem_append_left _ ht, hexpires⟩

/-! ## Runs -/

theorem Holds.refl (c : LoadRecord) (id : NodeId) (readings : List WallTime) :
    c.Holds id (c.snapshotOf? id) (c.latencyOf? id) readings :=
  Or.inl ⟨rfl, rfl⟩

theorem Holds.mono (h : c.Holds id m? latency? readings) (hsub : readings ⊆ later) :
    c.Holds id m? latency? later := by
  rcases h with hkept | ⟨hnone, hlatency, hexpired⟩
  · exact Or.inl hkept
  · refine Or.inr ⟨hnone, hlatency, fun m hm => ?_⟩
    obtain ⟨t, ht, hexpires⟩ := hexpired m hm
    exact ⟨t, hsub ht, hexpires⟩

/-- An update makes a record hold what it tells of a peer. -/
theorem holds_update (hid : m.nodeId ≠ c.nodeId) :
    (c.update m latency now).Holds m.nodeId (some m) (some latency) [now] := by
  have htold : Holds
      { c with
        snapshots := c.snapshots.insert m.nodeId m
        latencies := c.latencies.insert m.nodeId latency } m.nodeId (some m) (some latency) [] :=
    Or.inl ⟨Std.ExtTreeMap.getElem?_insert_self, Std.ExtTreeMap.getElem?_insert_self⟩
  rw [update, if_neg hid]
  exact htold.purge now

/-- An update leaves alone what a record holds of other peers. -/
theorem Holds.update (h : c.Holds id m? latency? readings) (hid : m.nodeId ≠ id) :
    (c.update m latency now).Holds id m? latency? (readings ++ [now]) := by
  have hother : Holds
      { c with
        snapshots := c.snapshots.insert m.nodeId m
        latencies := c.latencies.insert m.nodeId latency } id m? latency? readings := by
    have hne : compare m.nodeId id ≠ .eq := fun heq => hid (Std.LawfulEqOrd.eq_of_compare heq)
    simpa only [Holds, snapshotOf?, latencyOf?, Std.ExtTreeMap.getElem?_insert, if_neg hne] using h
  unfold LoadRecord.update
  split_ifs
  · exact h.mono (List.subset_append_left _ _)
  · exact hother.purge now

/-- An event leaves alone what a record holds of a peer, unless it is told something else of it. -/
theorem Holds.step (h : c.Holds id m? latency? readings) (event : Event)
    (htold : ∀ m latency now, event = .update m latency now → m.nodeId = id →
      m? = some m ∧ latency? = some latency) :
    (c.step event).Holds id m? latency? (readings ++ event.reading?.toList) := by
  cases event with
  | start r => exact h.mono (List.subset_append_left _ _)
  | finish key isError now =>
    show (c.finish key isError now).Holds _ _ _ _
    unfold finish
    split
    · exact h.mono (List.subset_append_left _ _)
    · rename_i r _
      have hcompleted : Holds
          { c with
            active := c.active.erase key
            history := c.history ++ [⟨r.path, (now.since? r.startTime).getD 0, isError, now⟩] }
          id m? latency? readings := h
      exact hcompleted.purge now
  | update m latency now =>
    by_cases hid : m.nodeId = id
    · obtain ⟨rfl, rfl⟩ := htold m latency now rfl hid
      by_cases hself : m.nodeId = c.nodeId
      · rw [LoadRecord.step, LoadRecord.update, if_pos hself]
        exact h.mono (List.subset_append_left _ _)
      · exact hid ▸ (holds_update hself).mono (List.subset_append_right _ _)
    · exact h.update hid
  | purge now => exact h.purge now

theorem Holds.run (h : c.Holds id m? latency? readings) {events : List Event}
    (htold : ∀ m latency now, .update m latency now ∈ events → m.nodeId = id →
      m? = some m ∧ latency? = some latency) :
    (c.run events).Holds id m? latency? (readings ++ events.filterMap Event.reading?) := by
  induction events generalizing c readings with
  | nil => exact h.mono (List.subset_append_left _ _)
  | cons event events ih =>
    have hstep := h.step event fun m latency now heq =>
      htold m latency now (heq ▸ List.mem_cons_self)
    refine (ih hstep fun m latency now hmem =>
      htold m latency now (List.mem_cons_of_mem event hmem)).mono ?_
    cases hreading : event.reading? with
    | none => simp [hreading]
    | some t => simp [hreading]

/-- After any run a record holds what it was told of a peer, if it was told one thing only. -/
theorem holds_run_of_mem {events : List Event} (hmem : .update m latency now ∈ events)
    (hid : m.nodeId ≠ c.nodeId)
    (htold : ∀ m' latency' now', .update m' latency' now' ∈ events → m'.nodeId = m.nodeId →
      some m = some m' ∧ some latency = some latency') :
    (c.run events).Holds m.nodeId (some m) (some latency) (events.filterMap Event.reading?) := by
  obtain ⟨before, after, rfl⟩ := List.append_of_mem hmem
  have hstep : ((c.run before).step (.update m latency now)).Holds m.nodeId (some m) (some latency)
      [now] := holds_update ((c.sameNode_run before).nodeId ▸ hid)
  have hrun := hstep.run fun m' latency' now' hlater =>
    htold m' latency' now' (List.mem_append_right _ (List.mem_cons_of_mem _ hlater))
  rw [run, List.foldl_append, List.foldl_cons]
  refine hrun.mono ?_
  rw [List.filterMap_append, List.filterMap_cons]
  exact List.subset_append_right _ _

end LoadRecord

end PeerGateway
