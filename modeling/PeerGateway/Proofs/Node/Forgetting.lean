import PeerGateway.Proofs.Directory.Joins
import PeerGateway.Proofs.Node.Exchanges

/-!
# What is forgotten of peers that are gone

A peer that leaves is forgotten : the connections to its address are dropped. But not every peer
that a node loses is. A join request can cost the node a peer (`Node.GivesUp`), either a stale one
that has to make room for the joiner or the joiner itself where no hole can be opened for it, and
then nothing is forgotten (`Node.receive_loses`).

A round forgets those of the peers with which it began that its sweep takes out
(`Node.mem_forgotten_closeRound_iff`). Those are connected or stale, so a joining peer that is taken
out keeps its connections, unless another peer at the same address is taken out as well.
`Activity.forgotten_iff` says both of a node with all that it has under way.
-/

namespace PeerGateway

/-! ## Peers that a directory loses -/

namespace Directory

variable {d : Directory} {id : NodeId} {now : Instant}

/-- A joiner takes the place of one of those that have been stale the longest. -/
theorem Consistent.loses_takeIn (hd : d.Consistent) {r : JoinRequest} {await : Bool}
    (h : d.Loses (d.takeIn r await now).2 id) :
    d.find? r.nodeId = none ∧ d.capacity ≤ d.size ∧ d.IsOldestStale id := by
  have hanswered := hd.answered r await now
  revert h hanswered
  generalize (d.takeIn r await now).1 = answer
  generalize (d.takeIn r await now).2 = d'
  rintro h (_ | _ | ⟨-, -, hadmits, -⟩)
  · exact absurd h.2 h.1
  · exact absurd h.2 h.1
  · obtain ⟨hnew, hfull⟩ := hadmits.loses_iff.mp ⟨id, h⟩
    exact ⟨hnew, hfull, hadmits.oldest id h⟩

/-- A sweep reports the peers that it takes out. -/
theorem loses_sweep_iff {window grace : Span} : d.Loses (d.sweep now window grace).2 id ↔
    .left id ∈ (d.sweep now window grace).1 := by
  rw [Loses, find?_sweep, left_mem_sweep_iff]
  cases d.find? id with
  | none => simp
  | some e =>
    simp only [Option.bind_some, Option.some.injEq, exists_eq_left', Entry.swept?]
    cases e.fate now window grace <;> simp

/-- The peers that a round is with are those that are not joining. -/
theorem mem_known {p : Peer} : p ∈ d.known ↔
    ∃ id e, d.find? id = some e ∧ e.state ≠ .joining ∧ e.peer = p := by
  simp only [known, List.mem_map, List.mem_filter, mem_list, decide_eq_true_eq]
  constructor
  · rintro ⟨e, ⟨⟨id, he⟩, hstate⟩, rfl⟩
    exact ⟨id, e, he, hstate, rfl⟩
  · rintro ⟨id, e, he, hstate, rfl⟩
    exact ⟨e, ⟨⟨id, he⟩, hstate⟩, rfl⟩

end Directory

namespace Node

variable {n : Node} {id : NodeId} {e : Entry} {m : Message} {r : JoinRequest}
  {port : Option UInt16} {now : Moment}

/-! ## Messages -/

/-- How a join request costs a node a peer. -/
inductive GivesUp (n : Node) (r : JoinRequest) (port : Option UInt16) (id : NodeId) : Prop
  /-- The joiner is new and there is no room for it, so it takes the place of a stale peer. -/
  | place (hnew : n.directory.find? r.nodeId = none)
    (hfull : n.directory.capacity ≤ n.directory.size) (holdest : n.directory.IsOldestStale id)
  /-- The joiner, which is not connected, has to punch and no hole can be opened for it. -/
  | hole (hjoiner : r.nodeId = id) (hport : port = none) (hpunch : n.traverses r = true)
    (hstate : n.directory.stateOf? id ≠ some .connected)

/-- A joiner that was taken in is released where it has to punch and no hole can be opened. -/
theorem directory_receive_joinRequest_cases (n : Node) (r : JoinRequest) (port : Option UInt16)
    (now : Moment) :
    let taken := (n.directory.takeIn r (n.traverses r) now.steady).2
    (n.receive (.joinRequest r) port now).node.directory = taken ∨
      port = none ∧ n.traverses r = true ∧
        (n.receive (.joinRequest r) port now).node.directory = taken.release r.nodeId := by
  intro taken
  cases port with
  | some port => exact Or.inl (n.directory_receive_joinRequest r port now)
  | none =>
    rw [Activity.directory_unopened]
    split_ifs with hpunch
    · exact Or.inr ⟨rfl, (Bool.and_eq_true_iff.mp hpunch).1, rfl⟩
    · exact Or.inl rfl

theorem givesUp_of_loses (hd : n.directory.Consistent)
    (h : n.directory.Loses (n.receive (.joinRequest r) port now).node.directory id) :
    n.GivesUp r port id := by
  have hplace : n.directory.Loses (n.directory.takeIn r (n.traverses r) now.steady).2 id →
      n.GivesUp r port id := fun hloses => by
    obtain ⟨hnew, hfull, holdest⟩ := hd.loses_takeIn hloses
    exact .place hnew hfull holdest
  rcases n.directory_receive_joinRequest_cases r port now with heq | ⟨hport, hpunch, heq⟩ <;>
    rw [heq] at h
  · exact hplace h
  · rcases Directory.release_eq (n.directory.takeIn r (n.traverses r) now.steady).2 r.nodeId with
      ⟨hreleased, hjoining⟩ | ⟨hreleased, -⟩ <;> rw [hreleased] at h
    · by_cases hid : r.nodeId = id
      · refine .hole hid hport hpunch fun hconnected => ?_
        -- A joiner that is connected already stays so, and is not released.
        rw [Directory.stateOf?_takeIn_joiner, hid, hconnected, if_pos rfl, ite_self] at hjoining
        cases hjoining
      · have hgone := h.2
        rw [Directory.find?_drop, if_neg hid] at hgone
        exact hplace ⟨h.1, hgone⟩
    · exact hplace h

theorem forgotten_receive_joinRequest : (n.receive (.joinRequest r) port now).forgotten = [] := by
  simp only [receive, replyToJoin]
  split_ifs
  · cases port <;> rfl
  · rfl

/-- A node loses a peer to a message if the peer leaves, and then forgets it, or if a join request
costs it the peer, and then forgets nothing. -/
theorem receive_loses (hd : n.directory.Consistent) (he : n.directory.find? id = some e)
    (hgone : (n.receive m port now).node.directory.find? id = none) :
    m = .leave id ∧ (n.receive m port now).forgotten = [e.peer.address] ∨
    ∃ r, m = .joinRequest r ∧ n.GivesUp r port id ∧ (n.receive m port now).forgotten = [] := by
  have hknown : n.directory.find? id ≠ none := Option.ne_none_iff_exists'.mpr ⟨e, he⟩
  have hheard : ∀ k, (n.directory.hear k now.steady).2.find? id ≠ none := fun k hnone => by
    rw [Directory.find?_hear, he] at hnone
    split_ifs at hnone
    cases hnone
  cases m with
  | joinRequest r =>
    exact Or.inr ⟨r, rfl, givesUp_of_loses hd ⟨hknown, hgone⟩, forgotten_receive_joinRequest⟩
  | joinResponse => exact absurd hgone hknown
  | metrics m => exact absurd hgone (hheard m.nodeId)
  | ping beat => exact absurd hgone (hheard beat.nodeId)
  | pong => exact absurd hgone hknown
  | leave k =>
    simp only [receive, receiveLeave] at hgone ⊢
    cases hremove : n.directory.remove k with
    | error =>
      rw [hremove] at hgone
      exact absurd hgone hknown
    | ok removed =>
      rcases removed with ⟨p, d⟩
      rw [hremove] at hgone
      obtain ⟨f, hf, rfl, rfl⟩ := Directory.remove_eq_ok_iff.mp hremove
      have hid : k = id := by
        by_contra hne
        exact hknown ((Directory.find?_drop.trans (if_neg hne)).symm.trans hgone)
      subst hid
      obtain rfl := Option.some.inj (hf.symm.trans he)
      exact Or.inl ⟨rfl, rfl⟩

/-! ## Ends of rounds -/

theorem find?_nodeId_eq_some_iff {peers : List Peer} (hnodup : (peers.map Peer.nodeId).Nodup)
    {p : Peer} : (peers.find? fun q => q.nodeId = id) = some p ↔ p ∈ peers ∧ p.nodeId = id := by
  constructor
  · intro hfound
    exact ⟨List.mem_of_find?_eq_some hfound, by simpa using List.find?_some hfound⟩
  · rintro ⟨hp, rfl⟩
    cases hfound : peers.find? fun q => q.nodeId = p.nodeId with
    | none => simpa using List.find?_eq_none.mp hfound p hp
    | some q =>
      have hid : q.nodeId = p.nodeId := by simpa using List.find?_some hfound
      rw [List.inj_on_of_nodup_map hnodup (List.mem_of_find?_eq_some hfound) hp hid]

/-- A round forgets those of its peers that are taken out at its end. -/
theorem mem_forgotten_closeRound_iff {peers : List Peer} (hnodup : (peers.map Peer.nodeId).Nodup)
    {address : String} : address ∈ (n.closeRound peers now).2.2 ↔ ∃ p ∈ peers,
      p.address = address ∧ n.directory.Loses (n.closeRound peers now).1.directory p.nodeId := by
  have hloses : ∀ id, n.directory.Loses (n.closeRound peers now).1.directory id ↔
      .left id ∈ (n.closeRound peers now).2.1 := fun _ => Directory.loses_sweep_iff
  simp only [hloses]
  show address ∈ List.filterMap _ (n.closeRound peers now).2.1 ↔ _
  rw [List.mem_filterMap]
  constructor
  · rintro ⟨_ | id, ht, hfound⟩
    · cases hfound
    · obtain ⟨p, hp, rfl⟩ := Option.map_eq_some_iff.mp hfound
      obtain ⟨hmem, rfl⟩ := (find?_nodeId_eq_some_iff hnodup).mp hp
      exact ⟨p, hmem, rfl, ht⟩
  · rintro ⟨p, hp, rfl, hleft⟩
    exact ⟨.left p.nodeId, hleft,
      congrArg (Option.map _) ((find?_nodeId_eq_some_iff hnodup).mpr ⟨hp, rfl⟩)⟩

end Node

namespace Activity

section Round

variable {x : Activity} {talks : List (Peer × Talk)} {events : List Event}

/-- The answers of a round bring no peer in, and take none out. -/
theorem Course.find?_eq_none_iff {k : ℕ} {id : NodeId} (hc : x.Course talks k events)
    (h : Interleaves talks k events) : (x.after events).node.directory.find? id = none ↔
      x.node.directory.find? id = none := by
  rw [hc.directory]
  refine Directory.find?_after_hears_eq_none_iff fun op hop => ?_
  obtain ⟨c, -, -, rfl⟩ := h.mem_heard.mp hop
  exact ⟨_, _, rfl⟩

/-- A node that loses a peer to a message forgets it exactly if the message was a leave of the peer,
and otherwise a join request costs it the peer. At the end of a round, in whatever order the answers
came, it forgets the addresses of those peers that it loses and that were connected or stale when
the round began, so that of a joining one only if it is one of theirs as well. -/
theorem forgotten_iff (hd : x.node.directory.Consistent) :
    (∀ id e m port now, x.node.directory.find? id = some e →
      let reaction := x.node.receive m port now
      reaction.node.directory.find? id = none →
      (e.peer.address ∈ reaction.forgotten ↔ m = .leave id) ∧
      (m ≠ .leave id → ∃ r, m = .joinRequest r ∧ x.node.GivesUp r port id)) ∧
    ∀ talks events now, talks.map Prod.fst = x.node.directory.known →
      Interleaves talks x.rounds.length events →
      let y := (x.step .roundBegins).after events
      let closed := y.node.closeRound x.node.directory.known now
      (y.step (.roundEnds x.rounds.length now)).node = closed.1 ∧
      ∀ address, address ∈ closed.2.2 ↔ ∃ id e, x.node.directory.find? id = some e ∧
        e.state ≠ .joining ∧ e.peer.address = address ∧
        closed.1.directory.find? id = none := by
  constructor
  · intro id e m port now he reaction hgone
    rcases Node.receive_loses hd he hgone with ⟨rfl, hforgotten⟩ | ⟨r, rfl, hgives, hforgotten⟩
    · refine ⟨iff_of_true ?_ rfl, fun hne => absurd rfl hne⟩
      rw [hforgotten]
      exact List.mem_singleton_self _
    · refine ⟨iff_of_false ?_ nofun, fun _ => ⟨r, rfl, hgives⟩⟩
      rw [hforgotten]
      exact List.not_mem_nil
  · intro talks events now hpeers hevents y closed
    have hcourse : (x.step .roundBegins).Course talks x.rounds.length events :=
      course hevents.starts (course_begun hpeers)
    refine ⟨hcourse.node_roundEnds hpeers hevents now, fun address => ?_⟩
    refine (Node.mem_forgotten_closeRound_iff (hd.nodup_filter_list _)).trans ?_
    constructor
    · rintro ⟨p, hp, haddress, hlost⟩
      obtain ⟨id, e, he, hstate, rfl⟩ := Directory.mem_known.mp hp
      rw [(hd.entry id e he).nodeId] at hlost
      exact ⟨id, e, he, hstate, haddress, hlost.2⟩
    · rintro ⟨id, e, he, hstate, haddress, hgone⟩
      refine ⟨e.peer, Directory.mem_known.mpr ⟨id, e, he, hstate, rfl⟩, haddress, ?_⟩
      rw [(hd.entry id e he).nodeId]
      refine ⟨fun hnone => ?_, hgone⟩
      have habsent := (hcourse.find?_eq_none_iff hevents).mp hnone
      exact absurd (he.symm.trans habsent) (Option.some_ne_none e)

/-- A full node on which `s` has been stale since 60, and `j` joining. -/
def besideSilent : Activity where
  node := { Mesh.lone ⟨"n"⟩ with
    directory := Directory.after ⟨⟨"n"⟩, "n:7400", 2, ∅⟩
      [.takeIn ⟨⟨"s"⟩, "s:7400", [], false⟩ false 0, .sweep 60 60 120,
        .takeIn ⟨⟨"j"⟩, "j:7400", [], true⟩ true 60]
    policy := ⟨60, 120, true, 0⟩ }

/-- The peer `s` does not answer. -/
def unanswered : List (Peer × Talk) :=
  [(⟨⟨"s"⟩, "s:7400", false⟩, ⟨200, .error (.closed "s:7400"), ⟨200, 200⟩,
    .error (.closed "s:7400"), ⟨200, 200⟩⟩)]

def unansweredEvents : List Event :=
  [.pings 0 0 200, .ponged 0 0 (.error (.closed "s:7400")) ⟨200, 200⟩]

theorem interleaves_unansweredEvents : Interleaves unanswered 0 unansweredEvents where
  only e he := by
    simp only [unansweredEvents, List.mem_cons, List.not_mem_nil, or_false] at he
    rcases he with rfl | rfl
    exacts [⟨0, by decide, rfl⟩, ⟨0, by decide, rfl⟩]
  each i p t hi := by
    rcases i with _ | i
    · cases hi
      rfl
    · cases hi

/-- The end of the round that it does not answer. -/
def closedUnanswered : Node × List Transition × List String :=
  ((besideSilent.step .roundBegins).after unansweredEvents).node.closeRound
    besideSilent.node.directory.known ⟨200, 200⟩

theorem consistent_besideSilent : besideSilent.node.directory.Consistent :=
  (Directory.consistent_empty _ _ _).after _

/-- Both peers are taken out at the end of the round, and only `s` is forgotten. Another joiner
takes the place of `s`, which is not forgotten then, as it is if it leaves. -/
theorem forgotten_iff_besideSilent :
    let n := besideSilent.node
    n.directory.Consistent ∧
    "s:7400" ∈ closedUnanswered.2.2 ∧
    closedUnanswered.1.directory.find? ⟨"j"⟩ = none ∧ "j:7400" ∉ closedUnanswered.2.2 ∧
    "s:7400" ∈ (n.receive (.leave ⟨"s"⟩) none ⟨100, 100⟩).forgotten ∧
    "s:7400" ∉ (n.receive (.joinRequest ⟨⟨"q"⟩, "q:7400", [], false⟩) none ⟨100, 100⟩).forgotten ∧
    n.GivesUp ⟨⟨"q"⟩, "q:7400", [], false⟩ none ⟨"s"⟩ := by
  intro n
  obtain ⟨hmessage, hround⟩ := forgotten_iff consistent_besideSilent
  obtain ⟨-, hclosed⟩ := hround unanswered unansweredEvents ⟨200, 200⟩ (by decide +kernel)
    interleaves_unansweredEvents
  have hs : n.directory.find? ⟨"s"⟩ = some ⟨⟨⟨"s"⟩, "s:7400", false⟩, .stale, 0, some 60⟩ := by
    decide +kernel
  obtain ⟨hleft, -⟩ := hmessage ⟨"s"⟩ _ (.leave ⟨"s"⟩) none ⟨100, 100⟩ hs (by decide +kernel)
  obtain ⟨hkept, hgiven⟩ := hmessage ⟨"s"⟩ _ (.joinRequest ⟨⟨"q"⟩, "q:7400", [], false⟩) none
    ⟨100, 100⟩ hs (by decide +kernel)
  obtain ⟨r, hr, hgives⟩ := hgiven nofun
  obtain rfl := Message.joinRequest.inj hr
  refine ⟨consistent_besideSilent,
    (hclosed _).mpr ⟨⟨"s"⟩, _, hs, by decide, rfl, by decide +kernel⟩,
    by decide +kernel, fun hforgotten => ?_, hleft.mpr rfl, mt hkept.mp nofun, hgives⟩
  obtain ⟨id, e, he, hstate, haddress, -⟩ := (hclosed _).mp hforgotten
  have hlist : ∀ f ∈ n.directory.list, f.state ≠ .joining → f.peer.address ≠ "j:7400" := by
    decide +kernel
  exact hlist e (Directory.mem_list.mpr ⟨id, he⟩) hstate haddress

/-- A node need not forget a peer that it loses, whether to a message or at the end of a round. -/
theorem not_forgotten :
    (¬ ∀ (n : Node) (m : Message) (port : Option UInt16) (now : Moment) (id : NodeId) (e : Entry),
      n.directory.Consistent → n.directory.find? id = some e →
      (n.receive m port now).node.directory.find? id = none →
      e.peer.address ∈ (n.receive m port now).forgotten) ∧
    ¬ ∀ (x : Activity) (talks : List (Peer × Talk)) (events : List Event) (now : Moment)
      (id : NodeId) (e : Entry), x.node.directory.Consistent →
      talks.map Prod.fst = x.node.directory.known → Interleaves talks x.rounds.length events →
      x.node.directory.find? id = some e →
      let closed := ((x.step .roundBegins).after events).node.closeRound x.node.directory.known now
      closed.1.directory.find? id = none → e.peer.address ∈ closed.2.2 := by
  constructor
  · intro h
    have hforgotten := h besideSilent.node (.joinRequest ⟨⟨"q"⟩, "q:7400", [], false⟩) none
      ⟨100, 100⟩ ⟨"s"⟩ ⟨⟨⟨"s"⟩, "s:7400", false⟩, .stale, 0, some 60⟩ consistent_besideSilent
      (by decide +kernel) (by decide +kernel)
    exact absurd hforgotten (by decide +kernel)
  · intro h
    have hforgotten := h besideSilent unanswered unansweredEvents ⟨200, 200⟩ ⟨"j"⟩
      ⟨⟨⟨"j"⟩, "j:7400", false⟩, .joining, 60, none⟩ consistent_besideSilent (by decide +kernel)
      interleaves_unansweredEvents (by decide +kernel) (by decide +kernel)
    exact absurd hforgotten (by decide +kernel)

end Round

end Activity

end PeerGateway
