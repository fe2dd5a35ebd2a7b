import PeerGateway.Proofs.Mesh.Delivery
import PeerGateway.Node.Activity

/-!
# Rounds as events

A node that runs a heartbeat round goes from one exchange to the next, while others act on it by
messages and holes (`Surroundings.Eventful`, `Mesh.eventful_around`). This is one of the orders in
which the events of an `Activity` may happen : each exchange takes three events of its own
(`Activity.tracks_exchange`), and what others do goes between them (`Activity.Tracks.happenings`).
So the node after the round is the node after some events (`Activity.heartbeat_is_run`), and what
holds of all events holds of rounds.
-/

namespace PeerGateway

variable {σ : Type}

/-- Surroundings in which others act on the node by messages and holes only, and only while it
waits for an answer. -/
structure Surroundings.Eventful (s : Surroundings σ) : Prop extends s.Lawful where
  request : ∀ address message state (x : Responder), x.node = s.node state →
    ∃ events, (x.after events).node = s.node (s.request address message state).2
  forget : ∀ address state, s.node (s.forget address state) = s.node state

namespace Activity

variable {x : Activity} {n : Node} {k : ℕ} {done rest : List OngoingExchange} {peer : Peer}

/-- An activity has come to a node, and a round of it to these exchanges. -/
structure Tracks (x : Activity) (n : Node) (k : ℕ) (round : List OngoingExchange) : Prop where
  node : x.node = n
  round : x.round? k = some round

theorem after_append (events later : List Event) :
    x.after (events ++ later) = (x.after events).after later :=
  List.foldl_append

theorem after_happens (happenings : List Happening) :
    x.after (happenings.map .happens) =
      { x with toResponder := x.toResponder.after happenings } := by
  induction happenings generalizing x with
  | nil => rfl
  | cons e happenings ih => exact ih

namespace Tracks

variable {stage stage' : Exchange.Stage}

theorem exchange? (h : x.Tracks n k (done ++ ⟨peer, stage⟩ :: rest)) :
    x.exchange? k done.length = some ⟨peer, stage⟩ := by
  simp [Activity.exchange?, h.round]

theorem setStage (h : x.Tracks n k (done ++ ⟨peer, stage⟩ :: rest)) :
    (x.setStage k done.length stage').Tracks n k (done ++ ⟨peer, stage'⟩ :: rest) where
  node := h.node
  round := by
    have hround := h.round
    unfold round? at hround ⊢
    rw [Option.join_eq_some_iff] at hround ⊢
    simp [Activity.setStage, hround, List.modify_eq_take_cons_drop]

theorem withNode {round : List OngoingExchange} (h : x.Tracks n k round) (n' : Node) :
    (x.withNode n').Tracks n' k round :=
  ⟨rfl, h.round⟩

/-- What others do leaves the rounds alone. -/
theorem happenings {s : Surroundings σ} (hs : s.Eventful) {state : σ}
    {round : List OngoingExchange} (h : x.Tracks (s.node state) k round) (address : String)
    (message : Message) : ∃ events,
      (x.after events).Tracks (s.node (s.request address message state).2) k round := by
  obtain ⟨happenings, hnode⟩ := hs.request address message state x.toResponder h.node
  refine ⟨happenings.map .happens, ?_⟩
  rw [after_happens]
  exact ⟨hnode, h.round⟩

theorem pings (h : x.Tracks n k (done ++ ⟨peer, .due⟩ :: rest)) (now : Instant) :
    (x.step (.pings k done.length now)).Tracks n k (done ++ ⟨peer, .pinged now⟩ :: rest) := by
  simp only [step, h.exchange?]
  exact h.setStage

theorem ponged_ok {sentAt : Instant} {roundTrip : Span} {n' : Node}
    (h : x.Tracks n k (done ++ ⟨peer, .pinged sentAt⟩ :: rest))
    {reply : Except NetworkError Message} {now : Moment}
    (hponged : Exchange.ponged peer sentAt reply n now = (.ok roundTrip, n')) :
    (x.step (.ponged k done.length reply now)).Tracks n' k
      (done ++ ⟨peer, .trading roundTrip⟩ :: rest) := by
  simp only [step, h.exchange?, h.node, hponged]
  exact (h.withNode n').setStage

theorem ponged_error {sentAt : Instant} {e : NetworkError} {n' : Node}
    (h : x.Tracks n k (done ++ ⟨peer, .pinged sentAt⟩ :: rest))
    {reply : Except NetworkError Message} {now : Moment}
    (hponged : Exchange.ponged peer sentAt reply n now = (.error e, n')) :
    (x.step (.ponged k done.length reply now)).Tracks n' k (done ++ ⟨peer, .over⟩ :: rest) := by
  simp only [step, h.exchange?, h.node, hponged]
  exact (h.withNode n').setStage

theorem traded {roundTrip : Span} (h : x.Tracks n k (done ++ ⟨peer, .trading roundTrip⟩ :: rest))
    (reply : Except NetworkError Message) (now : Moment) :
    (x.step (.traded k done.length reply now)).Tracks
      (Exchange.traded peer roundTrip reply n now).2 k (done ++ ⟨peer, .over⟩ :: rest) := by
  simp only [step, h.exchange?, h.node]
  exact (h.withNode _).setStage

theorem roundEnds {peers : List Peer} (h : x.Tracks n k (peers.map (⟨·, .over⟩))) (now : Moment) :
    (x.step (.roundEnds k now)).node = (n.closeRound peers now).1 := by
  have hpeers : (peers.map fun p => (⟨p, .over⟩ : OngoingExchange)).map OngoingExchange.peer =
      peers := by
    rw [List.map_map]
    exact List.map_id peers
  simp only [step, h.round, h.node, hpeers]
  rw [if_pos (by simp)]
  rfl

end Tracks

section Surroundings

variable {s : Surroundings σ} (hs : s.Eventful)

include hs

/-- An exchange takes its own events, and those that others bring about meanwhile. -/
theorem tracks_exchange (own : Snapshot) {state : σ}
    (h : x.Tracks (s.node state) k (done ++ ⟨peer, .due⟩ :: rest)) : ∃ events,
      (x.after events).Tracks (s.node (Node.exchange s own peer state).2) k
        (done ++ ⟨peer, .over⟩ :: rest) := by
  have hpinging := (h.pings (s.now state).steady).happenings hs peer.address
    (Exchange.ping (s.node state) (s.now state))
  rcases hping : s.request peer.address (Exchange.ping (s.node state) (s.now state)) state with
    ⟨reply, state₁⟩
  rw [hping] at hpinging
  obtain ⟨pinging, hpinged⟩ := hpinging
  rcases hponged : Exchange.ponged peer (s.now state).steady reply (s.node state₁) (s.now state₁)
    with ⟨_ | roundTrip, n⟩
  · refine ⟨.pings k done.length (s.now state).steady :: pinging ++
      [.ponged k done.length reply (s.now state₁)], ?_⟩
    rw [after_append]
    simp only [Node.exchange, hping, hponged, hs.node_setNode]
    exact hpinged.ponged_error hponged
  · have htrading := hpinged.ponged_ok hponged
    rw [← hs.node_setNode n state₁] at htrading
    have hpushing := htrading.happenings hs peer.address (.metrics own)
    rcases hpush : s.request peer.address (.metrics own) (s.setNode n state₁) with ⟨reply', state₂⟩
    rw [hpush] at hpushing
    obtain ⟨pushing, hpushed⟩ := hpushing
    refine ⟨.pings k done.length (s.now state).steady :: pinging ++
      (.ponged k done.length reply (s.now state₁) :: pushing ++
        [.traded k done.length reply' (s.now state₂)]), ?_⟩
    rw [after_append]
    simp only [Node.exchange, hping, hponged, hpush, hs.node_setNode]
    rw [after_append]
    exact hpushed.traded reply' (s.now state₂)

theorem tracks_exchanges (own : Snapshot) (peers : List Peer) (report : RoundReport) {state : σ}
    (h : x.Tracks (s.node state) k (done ++ peers.map (⟨·, .due⟩))) : ∃ events,
      (x.after events).Tracks (s.node (Node.exchanges s own peers report state).2) k
        (done ++ peers.map (⟨·, .over⟩)) := by
  induction peers generalizing x done report state with
  | nil => exact ⟨[], h⟩
  | cons peer peers ih =>
    obtain ⟨events, hover⟩ := tracks_exchange hs own h
    rw [List.append_cons] at hover
    obtain ⟨later, hdone⟩ := ih (report.count (Node.exchange s own peer state).1) hover
    refine ⟨events ++ later, ?_⟩
    rw [after_append, List.map_cons, List.append_cons]
    exact hdone

theorem node_forgetAll (addresses : List String) (state : σ) :
    s.node (Node.forgetAll s addresses state) = s.node state := by
  induction addresses generalizing state with
  | nil => rfl
  | cons address addresses ih => exact (ih _).trans (hs.forget address state)

/-- A heartbeat round is a run of events. -/
theorem heartbeat_is_run (x : Activity) {state : σ} (hx : x.node = s.node state) :
    ∃ events, (x.after events).node = s.node (Node.heartbeat s state).2 := by
  have hbegun : (x.step .roundBegins).Tracks (s.node state) x.rounds.length
      ([] ++ (s.node state).directory.known.map (⟨·, .due⟩)) :=
    ⟨hx, by simp [round?, step, hx]⟩
  obtain ⟨events, hdone⟩ := tracks_exchanges hs
    ((s.node state).load.snapshot (s.now state).wall) (s.node state).directory.known {} hbegun
  rcases hexchanged : Node.exchanges s ((s.node state).load.snapshot (s.now state).wall)
    (s.node state).directory.known {} state with ⟨report, state'⟩
  rw [hexchanged] at hdone
  refine ⟨.roundBegins :: events ++ [.roundEnds x.rounds.length (s.now state')], ?_⟩
  rw [after_append]
  simp only [Node.heartbeat, hexchanged, node_forgetAll hs, hs.node_setNode]
  exact hdone.roundEnds (s.now state')

end Surroundings

end Activity

namespace Mesh

variable {m m' : Mesh} {id k : NodeId}

/-- Others have acted on a node by messages and holes. -/
def ActedOn (id : NodeId) (m m' : Mesh) : Prop :=
  ∀ x : Responder, x.node = m.node id → ∃ events, (x.after events).node = m'.node id

theorem ActedOn.of_node_eq (h : m'.node id = m.node id) : ActedOn id m m' :=
  fun _ hx => ⟨[], hx.trans h.symm⟩

theorem ActedOn.behind {m₁ : Mesh} (h : ActedOn id m₁ m') (hnode : m₁.node id = m.node id) :
    ActedOn id m m' :=
  fun x hx => h x (hx.trans hnode.symm)

theorem node_foldl_forget (addresses : List String) (m : Mesh) :
    (addresses.foldl (fun m address => m.logged (.forget address)) m).node id = m.node id := by
  induction addresses generalizing m with
  | nil => rfl
  | cons address addresses ih => exact ih _

theorem node_receive (message : Message) (host : Option Ip) :
    (m.receive k message host).2.node id =
      if k = id then ((m.node k).receive (host.elim message fun ip => Node.pinnedTo ip.text message)
        (some m.nextPort) m.clock).node
      else m.node id := by
  have hput : ∀ r : Reaction, (r.forgotten.foldl (fun m address => m.logged (.forget address))
      (m.setNode k r.node)).node id = if k = id then r.node else m.node id := fun r =>
    (node_foldl_forget _ _).trans (node_setNode _)
  cases host with
  | none =>
    simp only [receive, Option.elim]
    generalize (m.node k).receive message (some m.nextPort) m.clock = r
    cases r.hole <;> exact hput r
  | some ip =>
    simp only [receive, Option.elim, Node.receiveFrom]
    generalize (m.node k).receive (Node.pinnedTo ip.text message) (some m.nextPort) m.clock = r
    cases r.hole <;> exact hput r

theorem actedOn_receive (message : Message) (host : Option Ip) :
    ActedOn id m (m.receive k message host).2 := by
  intro x hx
  by_cases hid : k = id
  · refine ⟨[.received (host.elim message fun ip => Node.pinnedTo ip.text message) m.nextPort
      m.clock], ?_⟩
    rw [node_receive, if_pos hid, hid, ← hx]
    rfl
  · refine ⟨[], ?_⟩
    rw [node_receive, if_neg hid]
    exact hx

theorem actedOn_deliver (address : String) (message : Message) :
    ActedOn id m (m.deliver k address message).2 := by
  unfold deliver
  dsimp only
  split
  · exact .of_node_eq rfl
  · exact actedOn_receive (m := m.advance ((m.latencies[address]?).getD 0)) message _

theorem node_takeCanned (address : String) : (m.takeCanned address).2.node id = m.node id := by
  unfold takeCanned
  split <;> rfl

theorem actedOn_request (address : String) (message : Message) :
    ActedOn id m (m.request k address message).2 := by
  let sent := m.logged (.request address message)
  have hcanned : (sent.takeCanned address).2.node id = m.node id := node_takeCanned address
  have hdelivered : ActedOn id m ((sent.takeCanned address).2.deliver k address message).2 :=
    (actedOn_deliver address message).behind hcanned
  unfold request
  dsimp only
  split
  · exact .of_node_eq hcanned
  · exact .of_node_eq hcanned
  · exact .of_node_eq hcanned
  · rw [show m.logged (.request address message) = sent from rfl]
    generalize (sent.takeCanned address).2.deliver k address message = delivered at hdelivered ⊢
    rcases delivered with ⟨_ | _ | _, m₂⟩ <;> exact hdelivered

/-- Whatever a node of a mesh sends, others act on it by messages only. -/
theorem eventful_around (id : NodeId) : (around id).Eventful where
  node_setNode := (quiet_around id).node_setNode
  forget _ _ := rfl
  request address message _ := actedOn_request address message

end Mesh

end PeerGateway
