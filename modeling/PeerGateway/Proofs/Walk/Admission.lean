import PeerGateway.Proofs.Walk.Reservations

/-!
# Room for a node that takes the walking one in

In any surroundings a walk turns down a node that took it in for want of room exactly if it does
not know the node and its directory is full when the answer arrives (`Stage.refused_iff_isFull`).

There was room when the walk went on to the candidate. In undisturbed surroundings the
directory can be full then only by the place that the walk itself keeps, under the identifier
that the candidate was offered under, when another one answers (`Stage.CrowdsOut`).
-/

namespace PeerGateway

variable {σ : Type} {s : Surroundings σ}

namespace Walk

theorem confirm_ne_networkFull (d : Directory) (id : NodeId) (now : Instant) :
    d.confirm id now ≠ .error .networkFull := by
  unfold Directory.confirm
  cases d.find? id <;> simp

/-- A peer is refused for want of room if it is unknown and there is none. -/
theorem enrol_eq_networkFull_iff {peer : Peer} {state : σ}
    (hne : peer.nodeId ≠ (s.directory state).localId) :
    (enrol s peer state).1 = .error .networkFull ↔
      (s.directory state).find? peer.nodeId = none ∧ (s.directory state).isFull = true := by
  cases hplace : (s.directory state).place peer .connected (s.now state).steady with
  | error e =>
    simp only [enrol, hplace]
    unfold Directory.place at hplace
    rw [if_neg hne, Directory.contains_eq_isSome] at hplace
    split_ifs at hplace with hknown hfull
    rw [← Except.error.inj hplace, ← Option.isNone_iff_eq_none]
    exact iff_of_true rfl ⟨by simpa using hknown, hfull⟩
  | ok placed =>
    obtain ⟨-, hplaced⟩ := Directory.place_eq_ok_iff.mp hplace
    constructor
    · intro h
      simp only [enrol, hplace] at h
      split at h
      · rename_i e he
        exact absurd (he.trans (congrArg _ (Except.error.inj h))) (confirm_ne_networkFull _ _ _)
      · simp at h
    · rintro ⟨hnone, hfull⟩
      rcases hplaced with ⟨hknown, -⟩ | ⟨-, hroom, -⟩
      · exact absurd hnone hknown
      · rw [Directory.isFull_eq_false_iff.mpr hroom] at hfull
        simp at hfull

/-- A place that was kept takes no room once it is given back. -/
theorem size_releaseOffered_le {d d' : Directory} {c : Candidate} {now : Instant}
    (h : reserveOffered d c now = .ok d') : (releaseOffered d' c).size ≤ d.size := by
  unfold reserveOffered at h
  unfold releaseOffered
  split at h
  · rename_i offered hc
    have hrelease := Directory.release_eq d' offered
    obtain ⟨-, ⟨-, rfl⟩ | ⟨hnone, -, rfl⟩⟩ := Directory.place_eq_ok_iff.mp h
    · rcases hrelease with ⟨heq, -⟩ | ⟨heq, -⟩ <;> simp only [heq]
      · exact Directory.size_drop_le
      · exact le_rfl
    · rcases hrelease with ⟨heq, -⟩ | ⟨-, hne⟩
      · simp [heq, Directory.size_drop, Directory.size_put, Directory.contains_eq_isSome,
          hnone]
      · simp [Entry.fresh] at hne
  · obtain rfl := Except.ok.inj h
    simp

end Walk

namespace Stage

open Walk

variable {w : Walk} {x : Stage σ} {r : JoinResponse}

/-- A node that took the walking one in and names no port is enrolled right away. -/
theorem next_of_natPort_eq_none (hr : x.reply s = .ok (.joinResponse r))
    (hsuccess : r.success = true) (hport : r.natPort = none) :
    let enrolled := enrol s { nodeId := r.nodeId, address := x.candidate.address } (x.answered s)
    (∃ e, enrolled.1 = .error e ∧ x.next s =
      (((x.walk.visit r.nodeId).failed x.candidate.address (.protocol e)).enqueue r,
        giveBackOther s x.candidate r.nodeId enrolled.2)) ∨
    (enrolled.1 = .ok () ∧ x.next s = (((x.walk.visit r.nodeId).connected r.nodeId).enqueue r,
      giveBackOther s x.candidate r.nodeId enrolled.2)) := by
  have harrived : punchIfAsked s x.candidate r (x.answered s) = (.ok (), x.answered s) := by
    rw [punchIfAsked, hport]
  have hcases := accepted_cases x.walk x.candidate r (x.answered s) (s := s)
  rw [harrived, ← next_of_accepted hr hsuccess] at hcases
  refine hcases.resolve_left ?_
  rintro ⟨port, e, hport', -, -⟩
  simp [hport] at hport'

theorem refused_iff_isFull (hr : x.reply s = .ok (.joinResponse r)) (hsuccess : r.success = true)
    (hport : r.natPort = none) (hne : r.nodeId ≠ (s.directory (x.answered s)).localId) :
    (x.next s).1.outcome =
        x.walk.outcome.fail x.candidate.address (.protocol .networkFull) ↔
      (s.directory (x.answered s)).find? r.nodeId = none ∧
        (s.directory (x.answered s)).isFull = true := by
  let peer : Peer := { nodeId := r.nodeId, address := x.candidate.address }
  have hrefused : (enrol s peer (x.answered s)).1 = .error .networkFull ↔
      (s.directory (x.answered s)).find? r.nodeId = none ∧
        (s.directory (x.answered s)).isFull = true := enrol_eq_networkFull_iff hne
  rw [← hrefused]
  rcases next_of_natPort_eq_none hr hsuccess hport with ⟨e, herror, heq⟩ | ⟨hok, heq⟩
  · rw [heq, herror]
    simp [enqueue, failed, visit, WalkOutcome.fail]
  · rw [heq, hok]
    simp [enqueue, connected, visit, WalkOutcome.connect, WalkOutcome.fail]

/-- The last place is kept for a candidate that was offered under another identifier than that of
a node, and neither is known. -/
def CrowdsOut (s : Surroundings σ) (x : Stage σ) (id : NodeId) : Prop :=
  ∃ offered, x.candidate.nodeId = some offered ∧ offered ≠ id ∧
    (s.directory x.before).find? offered = none ∧ (s.directory x.before).find? id = none ∧
    (s.directory x.before).size + 1 = (s.directory x.before).capacity

namespace Follows

/-- The directory is full for a node when the answer arrives exactly if the place that the walk
keeps crowds the node out. -/
theorem isFull_answered_iff (hs : s.Undisturbed) (hx : x.Follows s w) (id : NodeId) :
    (s.directory (x.answered s)).find? id = none ∧ (s.directory (x.answered s)).isFull = true ↔
      x.CrowdsOut s id := by
  obtain ⟨hroom, -, ⟨now, hreserve⟩, -, -⟩ := hx.kept hs.toQuiet
  rw [show s.directory (x.answered s) = s.directory x.asking from directory_ask hs _ _ _]
  have hlt := Directory.isFull_eq_false_iff.mp hroom
  unfold CrowdsOut
  unfold reserveOffered at hreserve
  split at hreserve
  · rename_i offered hc
    obtain ⟨-, ⟨hknown, heq⟩ | ⟨hnone, -, heq⟩⟩ := Directory.place_eq_ok_iff.mp hreserve <;>
      rw [heq]
    · refine iff_of_false (fun h => by simp [hroom] at h) ?_
      rintro ⟨offered', hc', -, hnone, -⟩
      obtain rfl := Option.some.inj (hc.symm.trans hc')
      exact hknown hnone
    · rw [Directory.find?_put, Directory.isFull, Directory.size_put, Directory.capacity_put,
        Directory.contains_eq_isSome, hnone]
      simp only [Option.isSome_none, Bool.false_eq_true, if_false, decide_eq_true_eq]
      constructor
      · rintro ⟨hid, hfull⟩
        split_ifs at hid with hne
        exact ⟨offered, hc, hne, hnone, hid, by omega⟩
      · rintro ⟨offered', hc', hne, -, hid, hlast⟩
        obtain rfl := Option.some.inj (hc.symm.trans hc')
        exact ⟨by rw [if_neg hne, hid], hlast.ge⟩
  · rename_i hc
    obtain heq := Except.ok.inj hreserve
    rw [← heq]
    refine iff_of_false (fun h => by simp [hroom] at h) ?_
    rintro ⟨offered, hc', -⟩
    simp [hc] at hc'

/-- A node that took the walking one in, and is not crowded out, is connected to. -/
theorem outcome_of_not_crowdsOut (hs : s.Undisturbed) (hx : x.Follows s w)
    (hr : x.reply s = .ok (.joinResponse r)) (hsuccess : r.success = true)
    (hport : r.natPort = none) (hne : r.nodeId ≠ (s.directory x.before).localId)
    (hout : ¬ x.CrowdsOut s r.nodeId) :
    (x.next s).1.outcome = x.walk.outcome.connect r.nodeId := by
  obtain ⟨-, -, ⟨now, hreserve⟩, -, -⟩ := hx.kept hs.toQuiet
  have hanswered : s.directory (x.answered s) = s.directory x.asking := directory_ask hs _ _ _
  rcases next_of_natPort_eq_none hr hsuccess hport with ⟨e, herror, -⟩ | ⟨-, heq⟩
  · rcases enrol_cases hs.toQuiet { nodeId := r.nodeId, address := x.candidate.address }
      (x.answered s) with ⟨hself, -⟩ | ⟨-, hnone, hfull, -⟩ | ⟨-, -, hok, -⟩
    · rw [hanswered, (becomes_reserveOffered hreserve).sameNode.localId] at hself
      exact absurd hself hne
    · exact absurd ((hx.isFull_answered_iff hs r.nodeId).mp ⟨hnone, hfull⟩) hout
    · rw [hok] at herror
      simp at herror
  · rw [heq]
    rfl

/-- A node that took the walking one in, and is crowded out, is turned down for want of room, and
there is room as soon as the attempt is over. -/
theorem outcome_of_crowdsOut (hs : s.Undisturbed) (hx : x.Follows s w)
    (hr : x.reply s = .ok (.joinResponse r)) (hsuccess : r.success = true)
    (hport : r.natPort = none) (hne : r.nodeId ≠ (s.directory x.before).localId)
    (hout : x.CrowdsOut s r.nodeId) :
    (x.next s).1.outcome = x.walk.outcome.fail x.candidate.address (.protocol .networkFull) ∧
      (s.directory (x.next s).2).contains r.nodeId = false ∧
      (s.directory (x.next s).2).isFull = false := by
  obtain ⟨hroom, -, ⟨now, hreserve⟩, -, -⟩ := hx.kept hs.toQuiet
  have hanswered : s.directory (x.answered s) = s.directory x.asking := directory_ask hs _ _ _
  have hreserved := (becomes_reserveOffered hreserve).sameNode
  have hne' : r.nodeId ≠ (s.directory (x.answered s)).localId := by
    rwa [hanswered, hreserved.localId]
  have hfull := (hx.isFull_answered_iff hs r.nodeId).mpr hout
  obtain ⟨offered, hc, hoffered, -, hunknown, -⟩ := hout
  have hother : x.candidate.nodeId ≠ some r.nodeId := by simpa [hc] using hoffered
  let peer : Peer := { nodeId := r.nodeId, address := x.candidate.address }
  have herror : (enrol s peer (x.answered s)).1 = .error .networkFull :=
    (enrol_eq_networkFull_iff hne').mpr hfull
  have hdirectory : s.directory (x.next s).2 =
      releaseOffered (s.directory x.asking) x.candidate := by
    rcases next_of_natPort_eq_none hr hsuccess hport with ⟨e, -, heq⟩ | ⟨hok, -⟩
    · rw [heq, directory_giveBackOther hs.toQuiet, if_neg hother,
        directory_enrol_of_error hs.toQuiet herror, hanswered]
    · rw [herror] at hok
      simp at hok
  refine ⟨(refused_iff_isFull hr hsuccess hport hne').mpr hfull, ?_, ?_⟩
  · rw [Directory.contains_eq_false_iff, hdirectory, stateOf?_releaseOffered,
      stateWithout?_reserveOffered hreserve, stateWithout?_of_ne hother,
      Directory.stateOf?_eq_none_iff.mpr hunknown]
  · rw [Directory.isFull_eq_false_iff, hdirectory,
      (becomes_releaseOffered _ _).sameNode.capacity, hreserved.capacity]
    exact Nat.lt_of_le_of_lt (size_releaseOffered_le hreserve)
      (Directory.isFull_eq_false_iff.mp hroom)

end Follows

end Stage

namespace Walk

/-- In any surroundings a node that took the walking one in is turned down for want of room exactly
if it is unknown and there is none when its answer arrives. In undisturbed surroundings that is
so exactly if the walk keeps the last place for another identifier ; otherwise the node is a
connection of the walk and a connected peer after it. -/
theorem refused_for_room_iff (s : Surroundings σ) :
    (∀ (x : Stage σ) (r : JoinResponse), x.reply s = .ok (.joinResponse r) → r.success = true →
      r.natPort = none → r.nodeId ≠ (s.directory (x.answered s)).localId →
      ((x.next s).1.outcome =
          x.walk.outcome.fail x.candidate.address (.protocol .networkFull) ↔
        (s.directory (x.answered s)).find? r.nodeId = none ∧
          (s.directory (x.answered s)).isFull = true)) ∧
    (s.Undisturbed → ∀ limit seeds state outcome last,
      run s limit (ofSeeds seeds) state = (some outcome, last) →
      ∀ x ∈ stages s limit (ofSeeds seeds) state, ∀ r, x.reply s = .ok (.joinResponse r) →
        r.success = true → r.natPort = none → r.nodeId ≠ (s.directory x.before).localId →
        (¬ x.CrowdsOut s r.nodeId →
          (x.next s).1.outcome = x.walk.outcome.connect r.nodeId ∧
          r.nodeId ∈ outcome.connected ∧
          (s.directory last).stateOf? r.nodeId = some .connected) ∧
        (x.CrowdsOut s r.nodeId →
          (x.next s).1.outcome =
            x.walk.outcome.fail x.candidate.address (.protocol .networkFull) ∧
          (s.directory (x.next s).2).contains r.nodeId = false ∧
          (s.directory (x.next s).2).isFull = false)) := by
  refine ⟨fun x r hr hsuccess hport hne => Stage.refused_iff_isFull hr hsuccess hport hne,
    fun hs limit seeds state outcome last h x hx r hr hsuccess hport hne => ?_⟩
  obtain ⟨⟨w, hfollows⟩, hlasts⟩ := (lasts_run hs h).2 x hx
  refine ⟨fun hout => ?_, hfollows.outcome_of_crowdsOut hs hr hsuccess hport hne⟩
  have houtcome := hfollows.outcome_of_not_crowdsOut hs hr hsuccess hport hne hout
  have hmem : r.nodeId ∈ outcome.connected := by
    refine hlasts.connected ?_
    rw [houtcome]
    exact List.mem_append_right _ (List.mem_singleton.mpr rfl)
  exact ⟨houtcome, hmem, by rw [stateOf?_run hs h, if_pos hmem]⟩

/-- The outcome of a walk that is sent on to a peer which goes by another identifier now. -/
def turnedDown : WalkOutcome where
  failures := [⟨"s:1", .protocol .networkFull⟩, ⟨"p:7400", .protocol .networkFull⟩]

/-- A peer that goes by another identifier now, and takes the node in. -/
def renamed : JoinResponse := .accepted ⟨"q"⟩ "p:7400" []

/-- A node with one place. -/
def narrow : Node := (Mesh.lone ⟨"a"⟩).withDirectory ⟨⟨"a"⟩, "a:7400", 1, ∅⟩

/-- The peer is turned down for want of room, though there is room right after it was. -/
theorem refused_for_room_iff_renamed :
    let s := sentOn (.ok (.joinResponse renamed))
    s.Undisturbed ∧ ∃ last x, run s 3 (ofSeeds ["s:1"]) narrow = (some turnedDown, last) ∧
      x ∈ stages s 3 (ofSeeds ["s:1"]) narrow ∧ x.reply s = .ok (.joinResponse renamed) ∧
      (s.directory x.before).isFull = false ∧ (s.directory (x.answered s)).isFull = true ∧
      (x.next s).1.outcome =
        x.walk.outcome.fail x.candidate.address (.protocol .networkFull) ∧
      (s.directory (x.next s).2).isFull = false := by
  intro s
  have hs : s.Undisturbed := undisturbed_answering _
  have hrun : run s 3 (ofSeeds ["s:1"]) narrow =
      (some turnedDown, (run s 3 (ofSeeds ["s:1"]) narrow).2) := Prod.ext (by decide) rfl
  -- The second stage is the one at the peer.
  obtain ⟨x, hx, hr, hroom, hne, hne', hout⟩ : ∃ x, x ∈ stages s 3 (ofSeeds ["s:1"]) narrow ∧
      x.reply s = .ok (.joinResponse renamed) ∧ (s.directory x.before).isFull = false ∧
      renamed.nodeId ≠ (s.directory x.before).localId ∧
      renamed.nodeId ≠ (s.directory (x.answered s)).localId ∧ x.CrowdsOut s renamed.nodeId :=
    ⟨_, List.mem_of_getElem? (i := 1) rfl, rfl, rfl, by decide, by decide, ⟨"p"⟩, rfl, by decide,
      rfl, rfl, rfl⟩
  obtain ⟨hany, hundisturbed⟩ := refused_for_room_iff s
  obtain ⟨-, hcrowded⟩ := hundisturbed hs _ _ _ _ _ hrun x hx renamed hr rfl rfl hne
  obtain ⟨houtcome, -, hafter⟩ := hcrowded hout
  have hfull := ((hany x renamed hr rfl rfl hne').mp houtcome).2
  exact ⟨hs, _, x, hrun, hx, hr, hroom, hfull, houtcome, hafter⟩

/-- A walk does not enrol every node that took its own one in. -/
theorem not_run_enrols_accepting : ¬ ∀ s : Surroundings Node, s.Undisturbed →
    ∀ limit seeds state outcome last, run s limit (ofSeeds seeds) state = (some outcome, last) →
      ∀ x ∈ stages s limit (ofSeeds seeds) state, ∀ r, x.reply s = .ok (.joinResponse r) →
        r.success = true → r.natPort = none → r.nodeId ≠ (s.directory x.before).localId →
        r.nodeId ∈ outcome.connected := by
  intro h
  let s := sentOn (.ok (.joinResponse renamed))
  have hrun : run s 3 (ofSeeds ["s:1"]) narrow =
      (some turnedDown, (run s 3 (ofSeeds ["s:1"]) narrow).2) := Prod.ext (by decide) rfl
  obtain ⟨x, hx, hr, hne⟩ : ∃ x, x ∈ stages s 3 (ofSeeds ["s:1"]) narrow ∧
      x.reply s = .ok (.joinResponse renamed) ∧
      renamed.nodeId ≠ (s.directory x.before).localId :=
    ⟨_, List.mem_of_getElem? (i := 1) rfl, rfl, by decide⟩
  have hconnected := h s (undisturbed_answering _) _ _ _ _ _ hrun x hx renamed hr rfl rfl hne
  exact absurd hconnected (by decide)

end Walk

end PeerGateway
