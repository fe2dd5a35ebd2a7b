import PeerGateway.Gateway.Basic
import PeerGateway.Message.Codec

/-!
# The interface of a gateway

What a gateway tells of its node: its status, its peers, the load of all nodes, their
scores and the best of them. Every answer is a record with a schema; `Endpoint.ofPath?`
finds the endpoint that a path names and `Gateway.ask` gives its answer.
-/

namespace PeerGateway

open Http

/-! ## Records -/

@[reducible] def Score.schema : Schema :=
  .record true <|
    .field "cpu" .required .real <|
    .field "memory" .required .real <|
    .field "rps" .required .real <|
    .field "latency" .required .real <|
    .field "total" .required .real .empty

def Score.ofValue : Score.schema.Value → Score
  | (cpu, memory, rps, latency, total, ()) => ⟨cpu, memory, rps, latency, total⟩

def Score.value (s : Score) : Score.schema.Value :=
  (s.cpu, s.memory, s.rps, s.latency, s.total, ())

/-- How many peers there are in each state, and how many there may be. -/
structure PeerTally where
  connected : UInt64
  stale : UInt64
  joining : UInt64
  max : UInt64
  deriving DecidableEq, Repr

@[reducible] def PeerTally.schema : Schema :=
  .record true <|
    .field "connected" .required .word64 <|
    .field "stale" .required .word64 <|
    .field "joining" .required .word64 <|
    .field "max" .required .word64 .empty

def PeerTally.ofValue : PeerTally.schema.Value → PeerTally
  | (connected, stale, joining, max, ()) => ⟨connected, stale, joining, max⟩

def PeerTally.value (c : PeerTally) : PeerTally.schema.Value :=
  (c.connected, c.stale, c.joining, c.max, ())

/-- The status of a node. -/
structure StatusReport where
  nodeId : String
  overlayAddress : String
  httpAddress : String
  uptimeSecs : UInt64
  peers : PeerTally
  activeRequests : UInt64
  ownScore : Score
  scoreThreshold : Binary64
  localBackend : Bool
  deriving DecidableEq

@[reducible] def StatusReport.schema : Schema :=
  .record true <|
    .field "node_id" .required .text <|
    .field "overlay_addr" .required .text <|
    .field "http_addr" .required .text <|
    .field "uptime_secs" .required .word64 <|
    .field "peers" .required PeerTally.schema <|
    .field "active_requests" .required .word64 <|
    .field "local_score" .required Score.schema <|
    .field "score_threshold" .required .real <|
    .field "local_backend" .required .flag .empty

def StatusReport.ofValue : StatusReport.schema.Value → StatusReport
  | (id, overlay, http, uptime, peers, active, score, threshold, backend, ()) =>
    ⟨id, overlay, http, uptime, .ofValue peers, active, .ofValue score, threshold, backend⟩

def StatusReport.value (r : StatusReport) : StatusReport.schema.Value :=
  (r.nodeId, r.overlayAddress, r.httpAddress, r.uptimeSecs, r.peers.value, r.activeRequests,
    r.ownScore.value, r.scoreThreshold, r.localBackend, ())

/-- What a node knows of one peer. -/
structure PeerReport where
  nodeId : String
  address : String
  state : String
  lastSeenSecs : UInt64
  staleSecs : Option UInt64
  /-- Where requests to the peer go, by its last snapshot. -/
  httpAddress : Option String
  rttMs : Option Binary64
  score : Binary64
  deriving DecidableEq

@[reducible] def PeerReport.schema : Schema :=
  .record true <|
    .field "node_id" .required .text <|
    .field "address" .required .text <|
    .field "state" .required .text <|
    .field "last_seen_secs" .required .word64 <|
    .field "stale_secs" .nullable .word64 <|
    .field "http_addr" .nullable .text <|
    .field "rtt_ms" .nullable .real <|
    .field "score" .required .real .empty

def PeerReport.ofValue : PeerReport.schema.Value → PeerReport
  | (id, address, state, seen, stale, http, rtt, score, ()) =>
    ⟨id, address, state, seen, stale, http, rtt, score⟩

def PeerReport.value (r : PeerReport) : PeerReport.schema.Value :=
  (r.nodeId, r.address, r.state, r.lastSeenSecs, r.staleSecs, r.httpAddress, r.rttMs, r.score, ())

@[reducible] def PeersReport.schema : Schema :=
  .record true <| .field "peers" .required (.list PeerReport.schema) .empty

/-- The peer that was dropped. -/
structure DropReport where
  nodeId : String
  address : String
  deriving DecidableEq, Repr

@[reducible] def DropReport.schema : Schema :=
  .record true <|
    .field "node_id" .required .text <|
    .field "address" .required .text .empty

def DropReport.ofValue : DropReport.schema.Value → DropReport
  | (id, address, ()) => ⟨id, address⟩

def DropReport.value (r : DropReport) : DropReport.schema.Value := (r.nodeId, r.address, ())

/-- The load of a node and of its peers. -/
structure LoadReport where
  here : Snapshot
  peers : List Snapshot
  deriving DecidableEq

@[reducible] def LoadReport.schema : Schema :=
  .record true <|
    .field "local" .required Snapshot.schema <|
    .field "peers" .required (.list Snapshot.schema) .empty

def LoadReport.ofValue : LoadReport.schema.Value → LoadReport
  | (here, peers, ()) => ⟨.ofValue here, peers.map Snapshot.ofValue⟩

def LoadReport.value (r : LoadReport) : LoadReport.schema.Value :=
  (r.here.value, r.peers.map Snapshot.value, ())

@[reducible] def ScoredPeer.schema : Schema :=
  .record true <|
    .field "node_id" .required .text <|
    .field "score" .required Score.schema .empty

/-- The scores of a node and of its connected peers, the best peer first. -/
structure ScoreReport where
  here : Score
  peers : List (String × Score)
  deriving DecidableEq

@[reducible] def ScoreReport.schema : Schema :=
  .record true <|
    .field "local" .required Score.schema <|
    .field "peers" .required (.list ScoredPeer.schema) .empty

def ScoreReport.ofValue : ScoreReport.schema.Value → ScoreReport
  | (here, peers, ()) => ⟨.ofValue here, peers.map fun p => (p.1, .ofValue p.2.1)⟩

def ScoreReport.value (r : ScoreReport) : ScoreReport.schema.Value :=
  (r.here.value, r.peers.map fun p => (p.1, p.2.value, ()), ())

@[reducible] def SelectionReport.schema : Schema :=
  .record true <|
    .field "selection" .required
      (.record true <|
        .field "target" .required .text <|
        .field "node_id" .defaulted .text .empty) <|
    .field "route" .required .text .empty

/-- The text of a peer's state. -/
def PeerState.name : PeerState → String
  | .joining => "joining"
  | .connected => "connected"
  | .stale => "stale"

/-! ## What is told -/

namespace Gateway

/-- How many peers of a node are in a state. -/
def count (n : Node) (state : PeerState) : UInt64 :=
  UInt64.ofNat (n.directory.list.countP fun e => e.state = state)

/-- The status of a node. -/
def statusReport (g : Gateway) (n : Node) (now : Moment) : StatusReport where
  nodeId := n.load.nodeId.text
  overlayAddress := n.address
  httpAddress := n.load.address
  uptimeSecs := UInt64.ofNat (now.steady.since g.started).secs
  peers := ⟨count n .connected, count n .stale, count n .joining, UInt64.ofNat n.directory.capacity⟩
  activeRequests := UInt64.ofNat n.load.active.size
  ownScore := n.load.ownScore now.wall
  scoreThreshold := g.rule.threshold
  localBackend := g.hasBackend

/-- What a node knows of the peer of an entry. -/
def peerReport (n : Node) (e : Entry) (now : Moment) : PeerReport :=
  let id := e.peer.nodeId
  { nodeId := id.text
    address := e.peer.address
    state := e.state.name
    lastSeenSecs := UInt64.ofNat (now.steady.since e.lastSeen).secs
    staleSecs := e.staleSince.map fun t => UInt64.ofNat (now.steady.since t).secs
    httpAddress := (n.load.snapshotOf? id).map Snapshot.address
    rttMs := (n.load.latencyOf? id).map Score.milliseconds
    score := (n.load.scoreOf id).total }

/-- What a node knows of its peers. -/
def peersReport (n : Node) (now : Moment) : PeersReport.schema.Value :=
  (n.directory.list.map fun e => (peerReport n e now).value, ())

/-- The load of a node and of its peers. -/
def loadReport (n : Node) (now : Moment) : LoadReport :=
  ⟨n.load.snapshot now.wall, n.load.peerSnapshots⟩

/-- The scores of a node and of its connected peers. -/
def scoreReport (n : Node) (now : Moment) : ScoreReport :=
  ⟨n.load.ownScore now.wall,
    (ranked n.directory n.load).map fun r => (r.1.text, r.2)⟩

/-- The best peer of a node, and where a request would run now. -/
def selectionReport (g : Gateway) (n : Node) (now : Moment) : SelectionReport.schema.Value :=
  let selection := match select n.directory n.load with
    | .here => ("local", none, ())
    | .peer id => ("peer", some id.text, ())
  let route := match g.rule.route n.directory n.load false now.wall with
    | .here => "local"
    | .forward id _ => id.text
  (selection, route, ())

end Gateway

/-! ## Endpoints -/

/-- A part of the interface. -/
inductive Endpoint
  | status
  | peers
  /-- One peer, under an identifier that may be percent-encoded. -/
  | peer (segment : String)
  | metrics
  | scores
  | select
  deriving DecidableEq, Repr

namespace Endpoint

/-- The endpoint that a path names. -/
def ofPath? (path : String) : Option Endpoint :=
  match (splitAtChar '/' path.toList).map String.ofList with
  | ["", "api", "status"] => some .status
  | ["", "api", "peers"] => some .peers
  | ["", "api", "peers", segment] => if segment.isEmpty then none else some (.peer segment)
  | ["", "api", "metrics"] => some .metrics
  | ["", "api", "scores"] => some .scores
  | ["", "api", "select"] => some .select
  | _ => none

/-- The methods that an endpoint takes. -/
def methods : Endpoint → List String
  | .peer _ => ["GET", "HEAD", "DELETE"]
  | _ => ["GET", "HEAD"]

/-- The methods of an endpoint as a header field tells them. -/
def allowed (e : Endpoint) : String := String.intercalate "," e.methods

/-- The identifier that a path segment names, if it is UTF-8 when it is decoded. -/
def identifier? (segment : String) : Option NodeId :=
  (Bytes.text? (Percent.decoded (Bytes.ofString segment))).map NodeId.mk

end Endpoint

namespace Gateway

/-- The answer about a peer that is not there. -/
def unknownPeer : Response := .ofText 404 ProtocolError.peerNotFound.text

/-- The answer to a path whose identifier is not UTF-8. -/
def badIdentifier : Response := .ofText 400 "Invalid URL: Invalid UTF-8 in `id`"

/-- Tells what is known of a peer. -/
def inspectPeer (n : Node) (id : NodeId) (now : Moment) : Response :=
  match n.directory.find? id with
  | some e => .ofJson (PeerReport.schema.bytes (peerReport n e now).value)
  | none => unknownPeer

/-- Takes a peer out of the directory. -/
def dropPeer (n : Node) (id : NodeId) : Node × Response :=
  match n.directory.remove id with
  | .ok (peer, d) =>
    (n.withDirectory d, .ofJson (DropReport.schema.bytes (peer.nodeId.text, peer.address, ())))
  | .error e => (n, .ofText 404 e.text)

/-- The answer of an endpoint to a method that it takes. -/
def ask (g : Gateway) (n : Node) (endpoint : Endpoint) (method : String) (now : Moment) :
    Node × Response :=
  match endpoint with
  | .status => (n, .ofJson (StatusReport.schema.bytes (g.statusReport n now).value))
  | .peers => (n, .ofJson (PeersReport.schema.bytes (peersReport n now)))
  | .peer segment =>
    match Endpoint.identifier? segment with
    | none => (n, badIdentifier)
    | some id => if method = "DELETE" then dropPeer n id else (n, inspectPeer n id now)
  | .metrics => (n, .ofJson (LoadReport.schema.bytes (loadReport n now).value))
  | .scores => (n, .ofJson (ScoreReport.schema.bytes (scoreReport n now).value))
  | .select => (n, .ofJson (SelectionReport.schema.bytes (g.selectionReport n now)))

end Gateway

end PeerGateway
