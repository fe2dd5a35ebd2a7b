import PeerGateway.Node.Basic

/-!
# Heartbeat

In a heartbeat round a node pings every peer that is connected or stale
(`Exchange.ponged`) and then trades snapshots with it (`Exchange.traded`). A peer is
reached when it answered both under its own identifier. At the end the node sweeps its
directory and purges its record of load (`Node.closeRound`).

`Node.heartbeat` runs a round with one peer after the other, and `Node.leave` tells all
peers that the node leaves.
-/

namespace PeerGateway

namespace Exchange

/-- The ping that starts an exchange. -/
def ping (n : Node) (now : Moment) : Message := .ping ⟨n.id, now.wall.epochMillis⟩

/-- Takes the answer to a ping that was sent at an instant: only the peer itself answers
rightly, and this is a sign of life. The result is the time of the round trip. -/
def ponged (peer : Peer) (sentAt : Instant) (reply : Except NetworkError Message) (n : Node)
    (now : Moment) : Except NetworkError Span × Node :=
  match reply with
  | .error e => (.error e, n)
  | .ok (.pong beat) =>
    if beat.nodeId = peer.nodeId then
      (.ok (now.steady.since sentAt),
        n.withDirectory (n.directory.hear peer.nodeId now.steady).2)
    else (.error (.protocol .invalidMessage), n)
  | .ok m => (.error (.unexpectedReply .pong m.type), n)

/-- Takes the answer to a snapshot: the peer's own, with the peer's host in its address if
that names none. -/
def traded (peer : Peer) (roundTrip : Span) (reply : Except NetworkError Message) (n : Node)
    (now : Moment) : Except NetworkError Unit × Node :=
  match reply with
  | .error e => (.error e, n)
  | .ok (.metrics m) =>
    if m.nodeId = peer.nodeId then
      let m := { m with address := pinned m.address (hostPart peer.address) }
      (.ok (), n.withLoad (n.load.update m roundTrip now.wall))
    else (.error (.protocol .invalidMessage), n)
  | .ok m => (.error (.unexpectedReply .metrics m.type), n)

end Exchange

/-- What a round came to. -/
structure RoundReport where
  reached : Nat := 0
  failed : Nat := 0
  transitions : List Transition := []
  deriving DecidableEq, Repr

/-- The report with the result of one more exchange. -/
def RoundReport.count (r : RoundReport) : Except NetworkError Unit → RoundReport
  | .ok () => { r with reached := r.reached + 1 }
  | .error _ => { r with failed := r.failed + 1 }

namespace Node

/-- Ends a round with some peers: the node after it, what changed, and the addresses of
those peers that are gone. -/
def closeRound (n : Node) (peers : List Peer) (now : Moment) :
    Node × List Transition × List String :=
  let (transitions, d) := n.directory.sweep now.steady n.policy.window n.policy.staleGrace
  let gone := transitions.filterMap fun t =>
    match t with
    | .left id => (peers.find? fun p => p.nodeId = id).map Peer.address
    | .stale _ => none
  ({ n with directory := d, load := n.load.purge now.wall }, transitions, gone)

variable {σ : Type}

/-- The whole exchange with one peer, to which `own` is pushed. -/
def exchange (s : Surroundings σ) (own : Snapshot) (peer : Peer) (state : σ) :
    Except NetworkError Unit × σ :=
  let sentAt := s.now state
  let (reply, state) := s.request peer.address (Exchange.ping (s.node state) sentAt) state
  let (pong, n) := Exchange.ponged peer sentAt.steady reply (s.node state) (s.now state)
  let state := s.setNode n state
  match pong with
  | .error e => (.error e, state)
  | .ok roundTrip =>
    let (reply, state) := s.request peer.address (.metrics own) state
    let (result, n) := Exchange.traded peer roundTrip reply (s.node state) (s.now state)
    (result, s.setNode n state)

/-- The exchanges with peers, one after the other, counted in a report. -/
def exchanges (s : Surroundings σ) (own : Snapshot) :
    List Peer → RoundReport → σ → RoundReport × σ
  | [], report, state => (report, state)
  | peer :: rest, report, state =>
    let (result, state) := exchange s own peer state
    exchanges s own rest (report.count result) state

/-- Drops what is kept of connections to addresses. -/
def forgetAll (s : Surroundings σ) (addresses : List String) (state : σ) : σ :=
  addresses.foldl (fun state address => s.forget address state) state

/-- One heartbeat round. -/
def heartbeat (s : Surroundings σ) (state : σ) : RoundReport × σ :=
  let n := s.node state
  let peers := n.directory.known
  let own := n.load.snapshot (s.now state).wall
  let (report, state) := exchanges s own peers {} state
  let (n, transitions, gone) := (s.node state).closeRound peers (s.now state)
  ({ report with transitions }, forgetAll s gone (s.setNode n state))

/-- The time from one round to the next: a quarter of the window, or ten milliseconds if
that is shorter. -/
def heartbeatPeriod (n : Node) : Span := max (n.policy.window / 4) (Span.ofMillis 10)

/-- Tells all known peers that this node leaves. -/
def leave (s : Surroundings σ) (state : σ) : σ :=
  let n := s.node state
  n.directory.known.foldl
    (fun state peer => (s.notify peer.address (.leave n.id) state).2) state

end Node

end PeerGateway
