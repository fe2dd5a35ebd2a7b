import PeerGateway.Proofs.Directory.States

/-!
# The two ends of a link

A joiner and the node that takes it in each have the other in their directory. The answer to a
join request is a loop, a refusal for want of room, or takes the joiner in
(`Directory.Consistent.takeIn_answer`), and only the last changes the directory : the joiner is
then connected at its address (`Directory.ConnectedAt`), and nothing is offered but what was
there before.

At the joiner's end a peer can be enrolled if there was a place for it
(`Directory.exists_enrolled`), and peers that are connected stay so
(`Directory.KeepsConnected`).
-/

namespace PeerGateway

namespace Directory

variable {d d' : Directory} {id k : NodeId} {e : Entry} {now : Instant}

/-! ## The end that is asked -/

/-- A peer is connected, and at an address. -/
def ConnectedAt (d : Directory) (id : NodeId) (address : String) : Prop :=
  ∃ e, d.find? id = some e ∧ e.state = .connected ∧ e.peer.address = address

theorem connectedAt_put (hstate : e.state = .connected) :
    (d.put id e).ConnectedAt id e.peer.address :=
  ⟨e, by simp, hstate, rfl⟩

theorem address_rejoined (r : JoinRequest) {state : PeerState} :
    (rejoined e r state now).peer.address = r.address := by
  dsimp only [rejoined]
  split_ifs <;> rfl

/-- An answer offers only peers that were known before under their own identifiers, and not the
joiner itself. -/
def OffersKnown (d : Directory) (joiner : NodeId) (offered : List Peer) : Prop :=
  ∀ p ∈ offered, ∃ e, d.find? p.nodeId = some e ∧ e.peer = p ∧ p.nodeId ≠ joiner

theorem Consistent.offersKnown (h : d.Consistent) (joiner : NodeId) :
    d.OffersKnown joiner (d.alternatives joiner) := by
  intro p hp
  obtain ⟨id, e, he, rfl, hne, -⟩ := mem_alternatives hp
  have hid := (h.entry id e he).nodeId
  exact ⟨e, by rw [hid, he], rfl, hne⟩

/-- What is offered after a change to the joiner's own entry was known before it. -/
theorem OffersKnown.of_find? {joiner : NodeId} {offered : List Peer}
    (h : d'.OffersKnown joiner offered)
    (hfind : ∀ k ≠ joiner, ∀ e, d'.find? k = some e → d.find? k = some e) :
    d.OffersKnown joiner offered := by
  intro p hp
  obtain ⟨e, he, hpeer, hne⟩ := h p hp
  exact ⟨e, hfind _ hne e he, hpeer, hne⟩

/-- How a node that waits for no traversal answers a join request. -/
theorem Consistent.takeIn_answer (h : d.Consistent) (r : JoinRequest) (now : Instant) :
    (r.loopsAt d.localId = true ∧ d.takeIn r false now = (d.reject .networkJoinLoop [], d)) ∨
    (r.loopsAt d.localId = false ∧ ∃ offered, d.OffersKnown r.nodeId offered ∧
      d.takeIn r false now = (d.reject .networkFull offered, d)) ∨
    (r.loopsAt d.localId = false ∧ ∃ offered d', d.OffersKnown r.nodeId offered ∧
      d.takeIn r false now = (d.accept offered, d') ∧ d.SameNode d' ∧
      d'.ConnectedAt r.nodeId r.address) := by
  have hsame := SameNode.takeIn d r false now
  rcases takeIn_cases d r false now with ⟨hl, heq⟩ | ⟨e, d', hl, he, rfl, heq⟩ |
    ⟨hl, -, -, -, heq⟩ | ⟨victim, hl, -, -, -, heq⟩ | ⟨hl, -, -, heq⟩ <;> rw [heq] at hsame ⊢
  · exact Or.inl ⟨hl, rfl⟩
  · refine Or.inr (Or.inr ⟨hl, _, _, ?_, rfl, hsame, ?_⟩)
    · have hput : (d.put r.nodeId (rejoined e r (joinerState false) now)).Consistent :=
        h.replace he ((h.entry _ _ he).rejoined r)
      refine (hput.offersKnown r.nodeId).of_find? fun k hk f hf => ?_
      rwa [find?_put, if_neg (Ne.symm hk)] at hf
    · have haddress : (rejoined e r (joinerState false) now).peer.address = r.address :=
        address_rejoined r
      rw [← haddress]
      exact connectedAt_put (state_rejoined.trans (ite_self _))
  · exact Or.inr (Or.inl ⟨hl, _, h.offersKnown r.nodeId, rfl⟩)
  · refine Or.inr (Or.inr ⟨hl, _, _, ?_, rfl, hsame, connectedAt_put rfl⟩)
    refine ((h.drop victim).offersKnown r.nodeId).of_find? fun k _ f hf => ?_
    rw [find?_drop] at hf
    split_ifs at hf
    exact hf
  · exact Or.inr (Or.inr ⟨hl, _, _, h.offersKnown r.nodeId, rfl, hsame, connectedAt_put rfl⟩)

/-! ## The end that asks -/

/-- The peers that are connected stay connected. -/
def KeepsConnected (d d' : Directory) : Prop :=
  ∀ id, d.stateOf? id = some .connected → d'.stateOf? id = some .connected

namespace KeepsConnected

theorem trans {d'' : Directory} (h : d.KeepsConnected d') (h' : d'.KeepsConnected d'') :
    d.KeepsConnected d'' :=
  fun id hid => h' id (h id hid)

theorem put (hstate : e.state = .connected) : d.KeepsConnected (d.put id e) := by
  intro k hk
  rw [stateOf?_put]
  split_ifs
  · rw [hstate]
  · exact hk

theorem place {peer : Peer} {state : PeerState} (h : d.place peer state now = .ok d') :
    d.KeepsConnected d' := by
  obtain ⟨-, ⟨-, rfl⟩ | ⟨hnone, -, rfl⟩⟩ := place_eq_ok_iff.mp h
  · exact fun _ hid => hid
  · intro k hk
    have hne : peer.nodeId ≠ k := by
      rintro rfl
      simp [stateOf?, hnone] at hk
    rwa [stateOf?_put, if_neg hne]

theorem release (d : Directory) (id : NodeId) : d.KeepsConnected (d.release id) := by
  intro k hk
  rcases release_eq d id with ⟨heq, hjoining⟩ | ⟨heq, -⟩ <;> rw [heq]
  · have hne : id ≠ k := by
      rintro rfl
      simp [hjoining] at hk
    rwa [stateOf?_drop, if_neg hne]
  · exact hk

end KeepsConnected

/-- A peer that is known, or for which there is room, can be placed, and nothing else changes. -/
theorem exists_placed (peer : Peer) (hne : peer.nodeId ≠ d.localId)
    (hplace : d.find? peer.nodeId ≠ none ∨ d.size < d.capacity) (state : PeerState)
    (now : Instant) : ∃ placed e, d.place peer state now = .ok placed ∧
      placed.find? peer.nodeId = some e ∧ ∀ k, peer.nodeId ≠ k → placed.find? k = d.find? k := by
  simp only [place_eq_ok_iff]
  cases hfind : d.find? peer.nodeId with
  | some e => exact ⟨d, e, ⟨hne, Or.inl ⟨by simp, rfl⟩⟩, hfind, fun _ _ => rfl⟩
  | none =>
    have hroom := hplace.resolve_left (by simp [hfind])
    refine ⟨d.put peer.nodeId (.fresh peer state now), _, ⟨hne, Or.inr ⟨rfl, hroom, rfl⟩⟩,
      by rw [find?_put, if_pos rfl], fun k hk => ?_⟩
    rw [find?_put, if_neg hk]

/-- A peer that is known, or for which there is room, can be enrolled. -/
theorem exists_enrolled (peer : Peer) (hne : peer.nodeId ≠ d.localId)
    (hplace : d.find? peer.nodeId ≠ none ∨ d.size < d.capacity) (now now' : Instant) :
    ∃ placed d', d.place peer .connected now = .ok placed ∧
      placed.confirm peer.nodeId now' = .ok d' ∧ d.SameNode d' ∧ d.KeepsConnected d' ∧
      d'.stateOf? peer.nodeId = some .connected := by
  obtain ⟨placed, e, hplaced, he, -⟩ := exists_placed peer hne hplace .connected now
  have hconfirm : placed.confirm peer.nodeId now' = .ok (placed.put peer.nodeId (e.seen now')) :=
    confirm_eq_ok_iff.mpr ⟨e, he, rfl⟩
  refine ⟨placed, _, hplaced, hconfirm, (SameNode.place hplaced).trans (.confirm hconfirm),
    (KeepsConnected.place hplaced).trans (.put state_seen), ?_⟩
  rw [stateOf?_put, if_pos rfl, state_seen]

end Directory

end PeerGateway
