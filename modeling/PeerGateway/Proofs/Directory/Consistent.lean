import PeerGateway.Proofs.Directory.Lookup

/-!
# Consistent directories

A directory is consistent (`Directory.Consistent`) if it has at most as many entries as its
capacity, none of the node itself, and every entry is the one of the identifier it is kept
under and says of itself what its state says (`Entry.ConsistentAt`).

Whatever is done to a directory is a list of operations (`Directory.Operation`), which
`Directory.after` carries out. `Directory.Becomes` says that some operations lead from one
directory to another, and consistency is kept by all of them (`Directory.Becomes.consistent`).
-/

namespace PeerGateway

/-- The entry is the one of the identifier, and its peer is connected and it has a time since
when it is stale exactly if its state says so. -/
structure Entry.ConsistentAt (e : Entry) (id : NodeId) : Prop where
  nodeId : e.peer.nodeId = id
  connected : e.peer.connected = true ↔ e.state = .connected
  staleSince : e.staleSince.isSome = true ↔ e.state = .stale

namespace Entry

variable {e : Entry} {id : NodeId} {state : PeerState} {now : Instant}

theorem consistentAt_fresh (peer : Peer) (hs : state ≠ .stale) :
    (fresh peer state now).ConsistentAt peer.nodeId :=
  ⟨rfl, by simp [fresh], by simp [fresh, hs]⟩

namespace ConsistentAt

theorem moved (h : e.ConsistentAt id) : (e.moved state now).ConsistentAt id :=
  ⟨h.nodeId, by simp [Entry.moved], by by_cases hs : state = .stale <;> simp [Entry.moved, hs]⟩

theorem seen (h : e.ConsistentAt id) : (e.seen now).ConsistentAt id := by
  have h' : ({ e with lastSeen := now } : Entry).ConsistentAt id := ⟨h.1, h.2, h.3⟩
  dsimp only [Entry.seen]
  split_ifs
  · exact h'
  · exact h'.moved

theorem rejoined (h : e.ConsistentAt id) (r : JoinRequest) :
    (Directory.rejoined e r state now).ConsistentAt id := by
  have h' : ({ e with peer := { e.peer with address := r.address }, lastSeen := now }
      : Entry).ConsistentAt id := ⟨h.1, h.2, h.3⟩
  dsimp only [Directory.rejoined]
  split_ifs
  · exact h'
  · exact h'.moved

theorem swept {window grace : Span} {e' : Entry} (h : e.ConsistentAt id)
    (he : e.swept? now window grace = some e') : e'.ConsistentAt id := by
  unfold Entry.swept? at he
  split at he
  · exact Option.some.inj he ▸ h
  · exact Option.some.inj he ▸ h.moved
  · simp at he

end ConsistentAt

end Entry

namespace Directory

/-- At most `capacity` entries, none of the node itself, and each consistent under its
identifier. -/
structure Consistent (d : Directory) : Prop where
  size_le : d.size ≤ d.capacity
  localId_absent : d.find? d.localId = none
  entry : ∀ id e, d.find? id = some e → e.ConsistentAt id

variable {d d' : Directory} {id : NodeId} {e : Entry} {now : Instant}

theorem consistent_empty (id : NodeId) (address : String) (capacity : Nat) :
    Consistent ⟨id, address, capacity, ∅⟩ := by
  constructor <;> simp [size, find?]

namespace Consistent

theorem put (h : d.Consistent) (hid : id ≠ d.localId) (he : e.ConsistentAt id)
    (hroom : d.find? id ≠ none ∨ d.size < d.capacity) : (d.put id e).Consistent := by
  refine ⟨?_, ?_, fun k f hk => ?_⟩
  · rw [size_put, capacity_put, contains_eq_isSome]
    have := h.size_le
    rcases hroom with hknown | hroom
    · rwa [if_pos (Option.isSome_iff_ne_none.mpr hknown)]
    · split_ifs <;> omega
  · rw [find?_put, localId_put, if_neg hid, h.localId_absent]
  · rw [find?_put] at hk
    split_ifs at hk with hik
    · rwa [← hik, ← Option.some.inj hk]
    · exact h.entry k f hk

theorem drop (h : d.Consistent) (id : NodeId) : (d.drop id).Consistent := by
  refine ⟨Nat.le_trans size_drop_le h.size_le, ?_, fun k f hk => ?_⟩
  · rw [find?_drop, localId_drop, h.localId_absent, ite_self]
  · rw [find?_drop] at hk
    split_ifs at hk
    exact h.entry k f hk

theorem ne_localId (h : d.Consistent) (hid : d.find? id = some e) : id ≠ d.localId := by
  rintro rfl
  simp [h.localId_absent] at hid

/-- The entries are listed in the order of their identifiers. -/
theorem pairwise_list (h : d.Consistent) :
    d.list.Pairwise fun a b => compare a.peer.nodeId b.peer.nodeId = .lt := by
  have hkeys : d.entries.toList.Pairwise fun a b => compare a.1 b.1 = .lt :=
    Std.ExtTreeMap.ordered_keys_toList
  refine List.pairwise_map.mpr (hkeys.imp_of_mem fun {a b} ha hb hlt => ?_)
  have hfind : ∀ m ∈ d.entries.toList, m.2.peer.nodeId = m.1 := fun m hm =>
    (h.entry m.1 m.2 (Std.ExtTreeMap.mem_toList_iff_getElem?_eq_some.mp hm)).nodeId
  rwa [hfind a ha, hfind b hb]

theorem nodup_filter_list (h : d.Consistent) (p : Entry → Bool) :
    (((d.list.filter p).map Entry.peer).map Peer.nodeId).Nodup := by
  rw [List.map_map]
  refine List.pairwise_map.mpr ((h.pairwise_list.filter p).imp fun {a b} hlt heq => ?_)
  dsimp only [Function.comp_apply] at heq
  rw [Std.LawfulEqOrd.compare_eq_iff_eq.mpr heq] at hlt
  exact absurd hlt (by decide)

/-- An entry may be replaced by one that is consistent. -/
theorem replace (h : d.Consistent) (hid : d.find? id = some e) {e' : Entry}
    (he : e'.ConsistentAt id) : (d.put id e').Consistent :=
  h.put (h.ne_localId hid) he (Or.inl (by simp [hid]))

theorem place (h : d.Consistent) {peer : Peer} {state : PeerState} (hs : state ≠ .stale)
    (hd : d.place peer state now = .ok d') : d'.Consistent := by
  obtain ⟨hne, ⟨-, rfl⟩ | ⟨-, hroom, rfl⟩⟩ := place_eq_ok_iff.mp hd
  · exact h
  · exact h.put hne (Entry.consistentAt_fresh peer hs) (Or.inr hroom)

theorem confirm (h : d.Consistent) (hd : d.confirm id now = .ok d') : d'.Consistent := by
  obtain ⟨e, he, rfl⟩ := confirm_eq_ok_iff.mp hd
  exact h.replace he (h.entry _ _ he).seen

theorem enrol (h : d.Consistent) {peer : Peer} (hd : d.enrol peer now = .ok d') :
    d'.Consistent := by
  obtain ⟨placed, hp, hc⟩ := enrol_eq_ok_iff.mp hd
  exact (h.place (by simp) hp).confirm hc

theorem release (h : d.Consistent) (id : NodeId) : (d.release id).Consistent := by
  rcases release_eq d id with ⟨hr, -⟩ | ⟨hr, -⟩ <;> rw [hr]
  · exact h.drop id
  · exact h

theorem hear (h : d.Consistent) (id : NodeId) (now : Instant) : (d.hear id now).2.Consistent := by
  rcases hear_eq d id now with ⟨hh, -⟩ | ⟨e, he, hh⟩ <;> rw [hh]
  · exact h
  · exact h.replace he (h.entry _ _ he).seen

theorem remove (h : d.Consistent) {p : Peer} (hd : d.remove id = .ok (p, d')) :
    d'.Consistent := by
  obtain ⟨e, -, -, rfl⟩ := remove_eq_ok_iff.mp hd
  exact h.drop id

theorem sweep (h : d.Consistent) (now : Instant) (window grace : Span) :
    (d.sweep now window grace).2.Consistent := by
  refine ⟨Nat.le_trans size_sweep_le h.size_le, ?_, fun k f hk => ?_⟩
  · rw [find?_sweep]
    show (d.find? d.localId).bind _ = none
    rw [h.localId_absent, Option.bind_none]
  · rw [find?_sweep] at hk
    obtain ⟨e, he, hf⟩ := Option.bind_eq_some_iff.mp hk
    exact (h.entry k e he).swept hf

theorem joinerState_ne_stale {await : Bool} : joinerState await ≠ .stale := by
  cases await <;> simp [joinerState]

theorem consistentAt_newcomer (r : JoinRequest) (await : Bool) (now : Instant) :
    (newcomer r await now).ConsistentAt r.nodeId :=
  Entry.consistentAt_fresh _ joinerState_ne_stale

theorem takeIn (h : d.Consistent) (r : JoinRequest) (await : Bool) (now : Instant) :
    (d.takeIn r await now).2.Consistent := by
  have ne_localId_of_loopsAt : r.loopsAt d.localId = false → r.nodeId ≠ d.localId := by
    simp [JoinRequest.loopsAt]
  rcases takeIn_cases d r await now with ⟨-, heq⟩ | ⟨e, d', -, he, rfl, heq⟩ |
    ⟨-, -, -, -, heq⟩ | ⟨victim, hl, -, -, hv, heq⟩ | ⟨hl, -, hroom, heq⟩ <;> rw [heq]
  · exact h
  · exact h.replace he ((h.entry _ _ he).rejoined r)
  · exact h
  · refine (h.drop victim).put (ne_localId_of_loopsAt hl) (consistentAt_newcomer r await now) ?_
    -- The victim is an entry of its own identifier, so dropping it makes room.
    obtain ⟨id, e, he, -, rfl⟩ := find?_of_oldestStale? hv
    have hid := (h.entry id e he).nodeId
    have hpos := size_pos_of_find? he
    have := h.size_le
    right
    rw [size_drop, capacity_drop, contains_eq_isSome, hid, he]
    simp only [Option.isSome_some, if_true]
    omega
  · exact h.put (ne_localId_of_loopsAt hl) (consistentAt_newcomer r await now)
      (Or.inr (isFull_eq_false_iff.mp hroom))

end Consistent

/-! ## Operations -/

/-- What can be done to a directory at one time. -/
inductive Operation
  | takeIn (request : JoinRequest) (awaitTraversal : Bool) (now : Instant)
  | reserve (peer : Peer) (now : Instant)
  /-- The first half of `enrol`. -/
  | place (peer : Peer) (now : Instant)
  | enrol (peer : Peer) (now : Instant)
  | confirm (id : NodeId) (now : Instant)
  | release (id : NodeId)
  | hear (id : NodeId) (now : Instant)
  | sweep (now : Instant) (window grace : Span)
  | remove (id : NodeId)

/-- The directory after an operation, which is the same if the operation is refused. -/
def perform (d : Directory) : Operation → Directory
  | .takeIn r await now => (d.takeIn r await now).2
  | .reserve peer now => (d.reserve peer now).toOption.getD d
  | .place peer now => (d.place peer .connected now).toOption.getD d
  | .enrol peer now => (d.enrol peer now).toOption.getD d
  | .confirm id now => (d.confirm id now).toOption.getD d
  | .release id => d.release id
  | .hear id now => (d.hear id now).2
  | .sweep now window grace => (d.sweep now window grace).2
  | .remove id => ((d.remove id).map Prod.snd).toOption.getD d

/-- The directory after operations. -/
def after (d : Directory) (ops : List Operation) : Directory := ops.foldl perform d

theorem Consistent.getD (h : d.Consistent) {result : Except ProtocolError Directory}
    (hr : ∀ d', result = .ok d' → d'.Consistent) : (result.toOption.getD d).Consistent := by
  cases result with
  | ok d' => exact hr d' rfl
  | error => exact h

theorem Consistent.perform (h : d.Consistent) (op : Operation) : (d.perform op).Consistent := by
  cases op with
  | takeIn r await now => exact h.takeIn r await now
  | reserve peer now => exact h.getD fun d' hd => h.place (by simp) hd
  | place peer now => exact h.getD fun d' hd => h.place (by simp) hd
  | enrol peer now => exact h.getD fun d' hd => h.enrol hd
  | confirm id now => exact h.getD fun d' hd => h.confirm hd
  | release id => exact h.release id
  | hear id now => exact h.hear id now
  | sweep now window grace => exact h.sweep now window grace
  | remove id =>
    refine h.getD fun d' hd => ?_
    cases hr : d.remove id with
    | ok r =>
      rw [hr] at hd
      exact Except.ok.inj hd ▸ h.remove hr
    | error => simp [hr, Except.map] at hd

theorem Consistent.after (h : d.Consistent) (ops : List Operation) : (d.after ops).Consistent := by
  induction ops generalizing d with
  | nil => exact h
  | cons op ops ih => exact ih (h.perform op)

/-! ## What operations leave alone -/

/-- Two directories of one node, with the same address and capacity. -/
structure SameNode (d d' : Directory) : Prop where
  localId : d'.localId = d.localId
  localAddress : d'.localAddress = d.localAddress
  capacity : d'.capacity = d.capacity

namespace SameNode

theorem refl (d : Directory) : d.SameNode d :=
  ⟨rfl, rfl, rfl⟩

theorem trans {d'' : Directory} (h : d.SameNode d') (h' : d'.SameNode d'') : d.SameNode d'' :=
  ⟨h'.1.trans h.1, h'.2.trans h.2, h'.3.trans h.3⟩

theorem put (d : Directory) (id : NodeId) (e : Entry) : d.SameNode (d.put id e) :=
  ⟨rfl, rfl, rfl⟩

theorem drop (d : Directory) (id : NodeId) : d.SameNode (d.drop id) :=
  ⟨rfl, rfl, rfl⟩

theorem getD {result : Except ProtocolError Directory}
    (h : ∀ d', result = .ok d' → d.SameNode d') : d.SameNode (result.toOption.getD d) := by
  cases result with
  | ok d' => exact h d' rfl
  | error => exact refl d

theorem place {peer : Peer} {state : PeerState} (h : d.place peer state now = .ok d') :
    d.SameNode d' := by
  obtain ⟨-, ⟨-, rfl⟩ | ⟨-, -, rfl⟩⟩ := place_eq_ok_iff.mp h
  · exact refl d'
  · exact put d _ _

theorem confirm (h : d.confirm id now = .ok d') : d.SameNode d' := by
  obtain ⟨e, -, rfl⟩ := confirm_eq_ok_iff.mp h
  exact put d _ _

theorem takeIn (d : Directory) (r : JoinRequest) (await : Bool) (now : Instant) :
    d.SameNode (d.takeIn r await now).2 := by
  rcases takeIn_cases d r await now with ⟨-, heq⟩ | ⟨e, d', -, -, rfl, heq⟩ |
    ⟨-, -, -, -, heq⟩ | ⟨victim, -, -, -, -, heq⟩ | ⟨-, -, -, heq⟩ <;> rw [heq]
  · exact refl d
  · exact put d _ _
  · exact refl d
  · exact (drop d victim).trans (put _ _ _)
  · exact put d _ _

theorem perform (d : Directory) (op : Operation) : d.SameNode (d.perform op) := by
  cases op with
  | takeIn r await now => exact takeIn d r await now
  | reserve peer now => exact getD fun d' hd => place hd
  | place peer now => exact getD fun d' hd => place hd
  | enrol peer now =>
    refine getD fun d' hd => ?_
    obtain ⟨placed, hp, hc⟩ := enrol_eq_ok_iff.mp hd
    exact (place hp).trans (confirm hc)
  | confirm id now => exact getD fun d' hd => confirm hd
  | release id =>
    rcases release_eq d id with ⟨h, -⟩ | ⟨h, -⟩ <;> rw [Directory.perform, h]
    · exact drop d id
    · exact refl d
  | hear id now =>
    rcases hear_eq d id now with ⟨h, -⟩ | ⟨e, -, h⟩ <;>
      rw [Directory.perform, h]
    · exact refl d
    · exact put d _ _
  | sweep => exact ⟨rfl, rfl, rfl⟩
  | remove id =>
    refine getD fun d' hd => ?_
    unfold remove at hd
    split at hd
    · simp [Except.map] at hd
    · exact Except.ok.inj hd ▸ drop d id

end SameNode

/-- Some operations lead from a directory to another. -/
def Becomes (d d' : Directory) : Prop := ∃ ops, d' = d.after ops

namespace Becomes

theorem refl (d : Directory) : d.Becomes d :=
  ⟨[], rfl⟩

theorem trans {d'' : Directory} (h : d.Becomes d') (h' : d'.Becomes d'') : d.Becomes d'' := by
  obtain ⟨ops, rfl⟩ := h
  obtain ⟨ops', rfl⟩ := h'
  exact ⟨ops ++ ops', (List.foldl_append ..).symm⟩

theorem perform (d : Directory) (op : Operation) : d.Becomes (d.perform op) :=
  ⟨[op], rfl⟩

theorem sameNode (h : d.Becomes d') : d.SameNode d' := by
  obtain ⟨ops, rfl⟩ := h
  induction ops generalizing d with
  | nil => exact .refl d
  | cons op ops ih => exact (SameNode.perform d op).trans ih

theorem consistent (h : d.Becomes d') (hd : d.Consistent) : d'.Consistent := by
  obtain ⟨ops, rfl⟩ := h
  exact hd.after ops

end Becomes

end Directory

end PeerGateway
