import PeerGateway.Proofs.Directory.Consistent

/-!
# The states of peers

What the operations on a directory do to the state of each peer. A sign of life makes a known peer
connected, and only a joining one is released. An accepted joiner is connected if it was before,
and otherwise in the state in which joiners are taken in. All other peers keep their states when a
joiner is taken in, but for the one that may be given up for it.
-/

namespace PeerGateway

namespace Directory

variable {d d' : Directory} {id k : NodeId} {e : Entry} {now : Instant}

@[simp] theorem stateOf?_put :
    (d.put id e).stateOf? k = if id = k then some e.state else d.stateOf? k := by
  simp only [stateOf?, find?_put]
  split_ifs <;> rfl

@[simp] theorem stateOf?_drop :
    (d.drop id).stateOf? k = if id = k then none else d.stateOf? k := by
  simp only [stateOf?, find?_drop]
  split_ifs <;> rfl

theorem stateOf?_eq_none_iff : d.stateOf? id = none ↔ d.find? id = none :=
  Option.map_eq_none_iff

theorem contains_eq_false_iff : d.contains id = false ↔ d.stateOf? id = none := by
  rw [contains_eq_isSome, Option.isSome_eq_false_iff, Option.isNone_iff_eq_none,
    stateOf?_eq_none_iff]

theorem state_seen : (e.seen now).state = .connected := by
  dsimp only [Entry.seen]
  split_ifs with h
  · exact h
  · rfl

theorem lastSeen_seen : (e.seen now).lastSeen = now := by
  dsimp only [Entry.seen]
  split_ifs <;> rfl

theorem seen_seen : (e.seen now).seen now = e.seen now := by
  conv_lhs => rw [Entry.seen]
  dsimp only
  rw [if_pos (show (e.seen now).state = .connected from state_seen)]
  exact congrArg (fun t => { e.seen now with lastSeen := t }) lastSeen_seen.symm

theorem find?_hear : (d.hear id now).2.find? k =
    if id = k then (d.find? k).map (·.seen now) else d.find? k := by
  rcases hear_eq d id now with ⟨heq, hnone⟩ | ⟨e, he, heq⟩ <;> rw [heq]
  · split_ifs with hid
    · rw [← hid, hnone]
      rfl
    · rfl
  · rw [find?_put]
    split_ifs with hid
    · rw [← hid, he]
      rfl
    · rfl

theorem stateOf?_hear : (d.hear id now).2.stateOf? k =
    if id = k ∧ d.stateOf? k ≠ none then some .connected else d.stateOf? k := by
  rcases hear_eq d id now with ⟨heq, hnone⟩ | ⟨e, he, heq⟩ <;> rw [heq]
  · rw [if_neg]
    rintro ⟨rfl, hknown⟩
    exact hknown (stateOf?_eq_none_iff.mpr hnone)
  · rw [stateOf?_put, state_seen]
    by_cases hid : id = k
    · subst hid
      have hknown : d.stateOf? id ≠ none := by simp [stateOf?, he]
      rw [if_pos rfl, if_pos ⟨rfl, hknown⟩]
    · rw [if_neg hid, if_neg fun h => hid h.1]

theorem stateOf?_release : (d.release id).stateOf? k =
    if id = k ∧ d.stateOf? k = some .joining then none else d.stateOf? k := by
  rcases release_eq d id with ⟨heq, hjoining⟩ | ⟨heq, hne⟩ <;> rw [heq]
  · rw [stateOf?_drop]
    by_cases hid : id = k
    · subst hid
      rw [if_pos rfl, if_pos ⟨rfl, hjoining⟩]
    · rw [if_neg hid, if_neg fun h => hid h.1]
  · rw [if_neg]
    rintro ⟨rfl, hjoining⟩
    exact hne hjoining

/-! ## Taking in joiners -/

variable {r : JoinRequest} {await : Bool}

theorem state_rejoined {state : PeerState} : (rejoined e r state now).state =
    if e.state = .connected then .connected else state := by
  dsimp only [rejoined]
  split_ifs with h
  · exact h
  · rfl

/-- An accepted joiner is connected if it was before, and else in the state in which joiners are
taken in. -/
theorem stateOf?_takeIn_joiner : (d.takeIn r await now).2.stateOf? r.nodeId =
    if (d.takeIn r await now).1.success = true then
      if d.stateOf? r.nodeId = some .connected then some .connected else some (joinerState await)
    else d.stateOf? r.nodeId := by
  rcases takeIn_cases d r await now with ⟨-, heq⟩ | ⟨e, d', -, he, rfl, heq⟩ |
    ⟨-, -, -, -, heq⟩ | ⟨victim, -, hnone, -, -, heq⟩ | ⟨-, hnone, -, heq⟩ <;> rw [heq]
  · simp
  · have hstate : d.stateOf? r.nodeId = some e.state := by simp [stateOf?, he]
    simp only [success_accept, if_true, stateOf?_put, state_rejoined, hstate, Option.some.injEq]
    split_ifs <;> rfl
  · simp
  · simp [stateOf?_eq_none_iff.mpr hnone, newcomer, Entry.fresh]
  · simp [stateOf?_eq_none_iff.mpr hnone, newcomer, Entry.fresh]

/-- A peer keeps its state when another one joins, or is given up. -/
theorem stateOf?_takeIn_other (hne : r.nodeId ≠ k) :
    (d.takeIn r await now).2.stateOf? k = d.stateOf? k ∨
      (d.takeIn r await now).2.stateOf? k = none := by
  rcases takeIn_cases d r await now with ⟨-, heq⟩ | ⟨e, d', -, -, rfl, heq⟩ |
    ⟨-, -, -, -, heq⟩ | ⟨victim, -, -, -, -, heq⟩ | ⟨-, -, -, heq⟩ <;> rw [heq]
  · exact Or.inl rfl
  · rw [stateOf?_put, if_neg hne]
    exact Or.inl rfl
  · exact Or.inl rfl
  · rw [stateOf?_put, if_neg hne, stateOf?_drop]
    split_ifs
    · exact Or.inr rfl
    · exact Or.inl rfl
  · rw [stateOf?_put, if_neg hne]
    exact Or.inl rfl

end Directory

end PeerGateway
