import PeerGateway.Proofs.Directory.Silence

/-!
# The last sign of life

A connected peer was last heard at some instant (`Directory.heardAt?`). A sign of life sets it, and
so does a join request of the peer if it is accepted and the peer is connected already or has not to
punch. A sweep asks how long ago it was, and all that is done for other peers leaves it alone : what
is given up for a joiner is stale, and what is released is joining.
-/

namespace PeerGateway

/-- When the peer of an entry was last heard, if it is connected. -/
def Entry.heardAt? (e : Entry) : Option Instant :=
  if e.state = .connected then some e.lastSeen else none

namespace Directory

/-- When a connected peer was last heard. -/
def heardAt? (d : Directory) (j : NodeId) : Option Instant := (d.find? j).bind Entry.heardAt?

variable {d : Directory} {id j : NodeId} {e : Entry} {now t : Instant}

theorem heardAt?_eq_some_iff : d.heardAt? j = some t ↔
    ∃ e, d.find? j = some e ∧ e.state = .connected ∧ e.lastSeen = t := by
  simp [heardAt?, Entry.heardAt?, Option.bind_eq_some_iff]

theorem heardAt?_eq_none_iff : d.heardAt? j = none ↔ d.stateOf? j ≠ some .connected := by
  simp only [heardAt?, stateOf?]
  cases d.find? j with
  | none => simp
  | some e => simp [Entry.heardAt?]

theorem heardAt?_put :
    (d.put id e).heardAt? j = if id = j then e.heardAt? else d.heardAt? j := by
  simp only [heardAt?, find?_put]
  split_ifs <;> rfl

theorem heardAt?_drop : (d.drop id).heardAt? j = if id = j then none else d.heardAt? j := by
  simp only [heardAt?, find?_drop]
  split_ifs <;> rfl

theorem heardAt?_hear : (d.hear id now).2.heardAt? j =
    if id = j ∧ d.stateOf? j ≠ none then some now else d.heardAt? j := by
  rcases hear_eq d id now with ⟨heq, hnone⟩ | ⟨e, he, heq⟩ <;> rw [heq]
  · rw [if_neg]
    rintro ⟨rfl, hknown⟩
    exact hknown (stateOf?_eq_none_iff.mpr hnone)
  · rw [heardAt?_put, Entry.heardAt?, if_pos state_seen, lastSeen_seen]
    by_cases hid : id = j
    · subst hid
      have hknown : d.stateOf? id ≠ none := by simp [stateOf?, he]
      rw [if_pos rfl, if_pos ⟨rfl, hknown⟩]
    · rw [if_neg hid, if_neg fun h => hid h.1]

/-- Only what is joining is released. -/
theorem heardAt?_release : (d.release id).heardAt? j = d.heardAt? j := by
  rcases release_eq d id with ⟨heq, hjoining⟩ | ⟨heq, -⟩ <;> rw [heq]
  rw [heardAt?_drop]
  split_ifs with hid
  · subst hid
    exact (heardAt?_eq_none_iff.mpr (by simp [hjoining])).symm
  · rfl

theorem heardAt?_remove : (((d.remove id).map Prod.snd).toOption.getD d).heardAt? j =
    if id = j then none else d.heardAt? j := by
  unfold remove
  cases hfind : d.find? id with
  | some e => exact heardAt?_drop
  | none =>
    show d.heardAt? j = _
    split_ifs with hid
    · subst hid
      rw [heardAt?, hfind, Option.bind_none]
    · rfl

theorem heardAt?_place {peer : Peer} {state : PeerState} :
    ((d.place peer state now).toOption.getD d).heardAt? j =
      if peer.nodeId = j ∧ d.stateOf? j = none ∧ (d.place peer state now).isOk = true then
        if state = .connected then some now else none
      else d.heardAt? j := by
  cases hplace : d.place peer state now with
  | error => simp [Except.toOption, Except.isOk, Except.toBool]
  | ok d' =>
    obtain ⟨-, ⟨hknown, rfl⟩ | ⟨hnone, -, rfl⟩⟩ := place_eq_ok_iff.mp hplace
    · rw [if_neg]
      · rfl
      · rintro ⟨rfl, hnone, -⟩
        exact hknown (stateOf?_eq_none_iff.mp hnone)
    · simp only [Except.toOption, Option.getD_some, heardAt?_put, Except.isOk, Except.toBool,
        and_true]
      by_cases hid : peer.nodeId = j
      · subst hid
        rw [if_pos rfl, if_pos ⟨rfl, stateOf?_eq_none_iff.mpr hnone⟩]
        rfl
      · rw [if_neg hid, if_neg fun h => hid h.1]

/-- A sweep asks of every connected peer how long ago it was heard. -/
theorem heardAt?_sweep {window grace : Span} : (d.sweep now window grace).2.heardAt? j =
    (d.heardAt? j).filter fun t => now.since t < window := by
  simp only [heardAt?, find?_sweep]
  cases d.find? j with
  | none => rfl
  | some e =>
    simp only [Option.bind_some, Entry.swept?, Entry.fate]
    have hnone : e.state ≠ .connected → e.heardAt? = none := fun h => if_neg h
    cases hstate : e.state with
    | connected =>
      have hheard : e.heardAt? = some e.lastSeen := if_pos hstate
      have hmoved : (e.moved .stale now).heardAt? = none := rfl
      by_cases hsilent : window ≤ now.since e.lastSeen
      · simp [hsilent, hheard, hmoved, Option.filter, Nat.not_lt.mpr hsilent]
      · simp [hsilent, hheard, Option.filter, Nat.not_le.mp hsilent]
    | stale => split_ifs <;> simp [hnone, hstate]
    | joining => split_ifs <;> simp [hnone, hstate]

section TakeIn

variable {r : JoinRequest} {await : Bool}

theorem heardAt?_rejoined {state : PeerState} : (rejoined e r state now).heardAt? =
    if e.state = .connected ∨ state = .connected then some now else none := by
  rw [Entry.heardAt?, state_rejoined, lastSeen_rejoined]
  by_cases hstate : e.state = .connected <;> simp [hstate]

theorem joinerState_eq_connected_iff : joinerState await = .connected ↔ await = false := by
  cases await <;> simp [joinerState]

/-- A joiner that is accepted is heard if it is connected already or has not to punch. -/
theorem heardAt?_takeIn_joiner : (d.takeIn r await now).2.heardAt? r.nodeId =
    if (d.takeIn r await now).1.success = true ∧
      (d.stateOf? r.nodeId = some .connected ∨ await = false) then some now
    else d.heardAt? r.nodeId := by
  have hnew : (newcomer r await now).heardAt? = if await = false then some now else none :=
    if_congr joinerState_eq_connected_iff rfl rfl
  rcases takeIn_cases d r await now with ⟨-, heq⟩ | ⟨e, d', -, he, rfl, heq⟩ |
    ⟨-, -, -, -, heq⟩ | ⟨victim, -, hnone, -, -, heq⟩ | ⟨-, hnone, -, heq⟩ <;> rw [heq]
  · simp
  · have hstate : d.stateOf? r.nodeId = some e.state := by simp [stateOf?, he]
    simp only [success_accept, true_and, heardAt?_put, if_true, heardAt?_rejoined, hstate,
      Option.some.injEq, joinerState_eq_connected_iff]
    split_ifs with hheard
    · rfl
    · rw [not_or] at hheard
      exact (heardAt?_eq_none_iff.mpr (by simp [hstate, hheard.1])).symm
  · simp
  · simp [hnew, stateOf?, heardAt?, hnone]
  · simp [hnew, stateOf?, heardAt?, hnone]

/-- Only a stale peer is given up for a joiner. -/
theorem Consistent.heardAt?_takeIn_other (hd : d.Consistent) (hne : r.nodeId ≠ j) :
    (d.takeIn r await now).2.heardAt? j = d.heardAt? j := by
  rcases takeIn_cases d r await now with ⟨-, heq⟩ | ⟨e, d', -, -, rfl, heq⟩ |
    ⟨-, -, -, -, heq⟩ | ⟨victim, -, -, -, hvictim, heq⟩ | ⟨-, -, -, heq⟩ <;> rw [heq]
  · rw [heardAt?_put, if_neg hne]
  · rw [heardAt?_put, if_neg hne, heardAt?_drop]
    split_ifs with hid
    · subst hid
      obtain ⟨id, e, he, hstale, rfl⟩ := find?_of_oldestStale? hvictim
      rw [(hd.entry id e he).nodeId, heardAt?, he]
      simp [Entry.heardAt?, hstale]
    · rfl
  · rw [heardAt?_put, if_neg hne]

end TakeIn

/-! ## Signs of life, and nothing else -/

section Hears

variable {ops : List Operation}

theorem find?_after_unheard (hops : ∀ op ∈ ops, ∃ k s, op = .hear k s ∧ k ≠ id) :
    (d.after ops).find? id = d.find? id := by
  induction ops generalizing d with
  | nil => rfl
  | cons op ops ih =>
    obtain ⟨⟨k, s, rfl, hne⟩, hlater⟩ := List.forall_mem_cons.mp hops
    have hhear : (d.perform (.hear k s)).find? id = d.find? id := find?_hear.trans (if_neg hne)
    exact (ih hlater).trans hhear

/-- Signs of life bring no peer in, and take none out. -/
theorem find?_after_hears_eq_none_iff (hops : ∀ op ∈ ops, ∃ k s, op = .hear k s) :
    (d.after ops).find? id = none ↔ d.find? id = none := by
  induction ops generalizing d with
  | nil => rfl
  | cons op ops ih =>
    obtain ⟨⟨k, s, rfl⟩, hlater⟩ := List.forall_mem_cons.mp hops
    have hhear : (d.perform (.hear k s)).find? id =
        if k = id then (d.find? id).map (·.seen s) else d.find? id := find?_hear
    refine (ih hlater).trans ?_
    rw [hhear]
    split_ifs
    · exact Option.map_eq_none_iff
    · rfl

/-- One sign of life of a peer, as often as it is noted. -/
theorem find?_after_heard (hops : ∀ op ∈ ops, ∃ k s, op = .hear k s ∧ (k = id → s = t))
    (hheard : .hear id t ∈ ops) : (d.after ops).find? id = (d.find? id).map (·.seen t) := by
  induction ops generalizing d with
  | nil => exact absurd hheard List.not_mem_nil
  | cons op ops ih =>
    obtain ⟨⟨k, s, rfl, htime⟩, hlater⟩ := List.forall_mem_cons.mp hops
    have hhear : (d.perform (.hear k s)).find? id =
        if k = id then (d.find? id).map (·.seen s) else d.find? id := find?_hear
    by_cases hagain : .hear id t ∈ ops
    · refine (ih hlater hagain).trans ?_
      rw [hhear]
      split_ifs with hid
      · rw [htime hid, Option.map_map]
        exact congrArg (Option.map · (d.find? id)) (funext fun _ => seen_seen)
      · rfl
    · obtain ⟨rfl, rfl⟩ := Operation.hear.inj ((List.mem_cons.mp hheard).resolve_right hagain)
      have hlast : ∀ op ∈ ops, ∃ k s, op = .hear k s ∧ k ≠ id := fun op hop => by
        obtain ⟨k, s, rfl, htime⟩ := hlater op hop
        exact ⟨k, s, rfl, fun hid => hagain (htime hid ▸ hid ▸ hop)⟩
      exact (find?_after_unheard hlast).trans (hhear.trans (if_pos rfl))

end Hears

end Directory

end PeerGateway
