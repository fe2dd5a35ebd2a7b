import PeerGateway.Directory.Join
import PeerGateway.Directory.Sweep
import Mathlib.Tactic.Common
import Mathlib.Tactic.SplitIfs

/-!
# What a directory knows after an operation

A directory is seen through `Directory.find?` and `Directory.size`. The first section says
what `Directory.put` and `Directory.drop` do to both, and the others say the same of the
operations, each of which puts an entry, drops one or changes nothing
(`Directory.place_eq_ok_iff`, `Directory.confirm_eq_ok_iff`, `Directory.release_eq`).

`Directory.takeIn_cases` lists the five ways in which a join request is answered.
-/

namespace PeerGateway

theorem JoinRequest.loopsAt_iff {r : JoinRequest} {id : NodeId} :
    r.loopsAt id = true ↔ id ∈ r.visited ∨ r.nodeId = id := by
  simp [loopsAt]

namespace Directory

variable {d d' : Directory} {id k : NodeId} {e : Entry}

/-! ## Entries put in and dropped -/

@[simp] theorem localId_put : (d.put id e).localId = d.localId :=
  rfl

@[simp] theorem capacity_put : (d.put id e).capacity = d.capacity :=
  rfl

@[simp] theorem localId_drop : (d.drop id).localId = d.localId :=
  rfl

@[simp] theorem capacity_drop : (d.drop id).capacity = d.capacity :=
  rfl

@[simp] theorem find?_put : (d.put id e).find? k = if id = k then some e else d.find? k := by
  simp [find?, put, Std.ExtTreeMap.getElem?_insert]

@[simp] theorem find?_drop : (d.drop id).find? k = if id = k then none else d.find? k := by
  simp [find?, drop, Std.ExtTreeMap.getElem?_erase]

theorem contains_eq_isSome : d.contains id = (d.find? id).isSome := by
  simp [contains, find?]

theorem size_put : (d.put id e).size = if d.contains id then d.size else d.size + 1 :=
  Std.ExtTreeMap.size_insert

theorem size_drop : (d.drop id).size = if d.contains id then d.size - 1 else d.size :=
  Std.ExtTreeMap.size_erase

theorem size_drop_le : (d.drop id).size ≤ d.size := by
  rw [size_drop]
  split <;> omega

theorem size_pos_of_find? (h : d.find? id = some e) : 0 < d.size := by
  have hne : d.entries ≠ ∅ := by
    intro h0
    simp [find?, h0] at h
  have := mt Std.ExtTreeMap.eq_empty_iff_size_eq_zero.mpr hne
  rw [size]
  omega

theorem isFull_eq_false_iff : d.isFull = false ↔ d.size < d.capacity := by
  simp [isFull]

/-- The listed entries are those that can be found. -/
theorem mem_list : e ∈ d.list ↔ ∃ id, d.find? id = some e := by
  simp only [list, List.mem_map, Prod.exists, exists_eq_right, find?,
    Std.ExtTreeMap.mem_toList_iff_getElem?_eq_some]

/-! ## Peers that this node asks -/

variable {peer : Peer} {state : PeerState} {now : Instant}

/-- A place is given to a peer that is not this node, if it is known or there is room. -/
theorem place_eq_ok_iff :
    d.place peer state now = .ok d' ↔ peer.nodeId ≠ d.localId ∧
      (d.find? peer.nodeId ≠ none ∧ d' = d ∨
        d.find? peer.nodeId = none ∧ d.size < d.capacity ∧
          d' = d.put peer.nodeId (.fresh peer state now)) := by
  unfold place
  rw [contains_eq_isSome, ← isFull_eq_false_iff]
  split_ifs with hself hknown hfull
  · simp [hself]
  · have hne := Option.isSome_iff_ne_none.mp hknown
    simp only [Except.ok.injEq, ne_eq, hself, not_false_eq_true, hne, true_and, false_and, or_false]
    exact eq_comm
  · simp [hself, hfull, Option.not_isSome_iff_eq_none.mp hknown]
  · simp [hself, hfull, Option.not_isSome_iff_eq_none.mp hknown, eq_comm]

theorem confirm_eq_ok_iff :
    d.confirm id now = .ok d' ↔ ∃ e, d.find? id = some e ∧ d' = d.put id (e.seen now) := by
  unfold confirm
  cases h : d.find? id <;> simp [eq_comm]

/-- To enrol a peer is to place it and confirm it. -/
theorem enrol_eq_ok_iff :
    d.enrol peer now = .ok d' ↔
      ∃ placed, d.place peer .connected now = .ok placed ∧
        placed.confirm peer.nodeId now = .ok d' := by
  unfold enrol
  cases d.place peer .connected now <;> simp

theorem release_eq (d : Directory) (id : NodeId) :
    d.release id = d.drop id ∧ d.stateOf? id = some .joining ∨
    d.release id = d ∧ d.stateOf? id ≠ some .joining := by
  unfold release
  split_ifs with h
  · exact Or.inl ⟨rfl, h⟩
  · exact Or.inr ⟨rfl, h⟩

/-! ## Signs of life and departures -/

theorem hear_eq (d : Directory) (id : NodeId) (now : Instant) :
    (d.hear id now).2 = d ∧ d.find? id = none ∨
    ∃ e, d.find? id = some e ∧ (d.hear id now).2 = d.put id (e.seen now) := by
  unfold hear
  cases h : d.find? id <;> simp

theorem remove_eq_ok_iff {p : Peer} : d.remove id = .ok (p, d') ↔
    ∃ e, d.find? id = some e ∧ p = e.peer ∧ d' = d.drop id := by
  unfold remove
  cases h : d.find? id <;> simp [eq_comm]

theorem find?_sweep {window grace : Span} : (d.sweep now window grace).2.find? k =
    (d.find? k).bind fun e => e.swept? now window grace := by
  simp [sweep, find?]

theorem size_sweep_le {window grace : Span} : (d.sweep now window grace).2.size ≤ d.size :=
  Std.ExtTreeMap.size_filterMap_le_size

/-! ## Join requests -/

variable {r : JoinRequest} {await : Bool}

theorem mem_of_leastBy? {α : Type} {key : α → Int} :
    ∀ {l : List α} {a : α}, leastBy? key l = some a → a ∈ l
  | [], a, h => by simp [leastBy?] at h
  | b :: rest, a, h => by
    unfold leastBy? at h
    split at h
    · simp_all
    · rename_i c hc
      have := mem_of_leastBy? hc
      split_ifs at h <;> simp_all

/-- The oldest stale peer is a stale entry's. -/
theorem find?_of_oldestStale? {victim : NodeId} (h : d.oldestStale? = some victim) :
    ∃ id e, d.find? id = some e ∧ e.state = .stale ∧ e.peer.nodeId = victim := by
  obtain ⟨e, he, rfl⟩ := Option.map_eq_some_iff.mp h
  obtain ⟨hmem, hstate⟩ := List.mem_filter.mp (mem_of_leastBy? he)
  obtain ⟨id, hid⟩ := mem_list.mp hmem
  exact ⟨id, e, hid, by simpa using hstate, rfl⟩

/-- The state in which a joiner is taken in. -/
def joinerState (await : Bool) : PeerState := if await then .joining else .connected

/-- The entry of a joiner that is new. -/
def newcomer (r : JoinRequest) (await : Bool) (now : Instant) : Entry :=
  .fresh ⟨r.nodeId, r.address, false⟩ (joinerState await) now

@[simp] theorem success_accept (offered : List Peer) : (d.accept offered).success = true :=
  rfl

@[simp] theorem success_reject (error : ProtocolError) (offered : List Peer) :
    (d.reject error offered).success = false :=
  rfl

/-- A request is turned away as a loop, refreshes a known joiner, is turned away for want of
room, is taken in for the oldest stale peer, or is taken in where there is room. -/
theorem takeIn_cases (d : Directory) (r : JoinRequest) (await : Bool) (now : Instant) :
    (r.loopsAt d.localId = true ∧ d.takeIn r await now = (d.reject .networkJoinLoop [], d)) ∨
    (∃ e d', r.loopsAt d.localId = false ∧ d.find? r.nodeId = some e ∧
      d' = d.put r.nodeId (rejoined e r (joinerState await) now) ∧
      d.takeIn r await now = (d'.accept (d'.alternatives r.nodeId), d')) ∨
    (r.loopsAt d.localId = false ∧ d.find? r.nodeId = none ∧ d.isFull = true ∧
      d.oldestStale? = none ∧
      d.takeIn r await now = (d.reject .networkFull (d.alternatives r.nodeId), d)) ∨
    (∃ victim, r.loopsAt d.localId = false ∧ d.find? r.nodeId = none ∧ d.isFull = true ∧
      d.oldestStale? = some victim ∧
      d.takeIn r await now = ((d.drop victim).accept ((d.drop victim).alternatives r.nodeId),
        (d.drop victim).put r.nodeId (newcomer r await now))) ∨
    (r.loopsAt d.localId = false ∧ d.find? r.nodeId = none ∧ d.isFull = false ∧
      d.takeIn r await now = (d.accept (d.alternatives r.nodeId),
        d.put r.nodeId (newcomer r await now))) := by
  unfold takeIn newcomer joinerState
  cases hloop : r.loopsAt d.localId with
  | true => simp
  | false =>
    cases hfind : d.find? r.nodeId with
    | some e => simp
    | none =>
      cases hfull : d.isFull with
      | false => simp
      | true => cases hstale : d.oldestStale? <;> simp

/-- The peers that are offered to a joiner are entries of others that are not joining. -/
theorem mem_alternatives {joiner : NodeId} {p : Peer} (h : p ∈ d.alternatives joiner) :
    ∃ id e, d.find? id = some e ∧ e.peer = p ∧ p.nodeId ≠ joiner ∧ e.state ≠ .joining := by
  unfold alternatives at h
  obtain ⟨e, he, rfl⟩ := List.mem_map.mp h
  have hmem := List.mem_of_mem_take he
  simp only [List.mem_append, List.mem_filter, Bool.and_eq_true, decide_eq_true_eq] at hmem
  rcases hmem with ⟨hl, hne, hstate⟩ | ⟨hl, hne, hstate⟩ <;>
  · obtain ⟨id, hid⟩ := mem_list.mp hl
    exact ⟨id, e, hid, rfl, hne, by simp [hstate]⟩

end Directory

end PeerGateway
