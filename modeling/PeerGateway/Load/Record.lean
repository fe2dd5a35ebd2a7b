import PeerGateway.Load.Host
import PeerGateway.Load.Score
import Std.Data.ExtTreeMap

/-!
# Records of load

What a node knows of load: its own requests, under way and completed within a window, and
the last snapshot of every peer with the time that a round trip to it took.

`LoadRecord.start` and `LoadRecord.finish` follow requests, `LoadRecord.snapshot` sums the
window up, `LoadRecord.update` takes in a peer's snapshot. `LoadRecord.purge` forgets what
has left the window; it follows every change.
-/

namespace PeerGateway

/-- A request under way. -/
structure ActiveRequest where
  id : String
  startTime : WallTime
  method : String
  path : String
  /-- Another node relayed it. -/
  fromPeer : Bool
  deriving DecidableEq, Repr

/-- A completed request. -/
structure Completion where
  path : String
  duration : Span
  isError : Bool
  completedAt : WallTime
  deriving DecidableEq, Repr

/-- Requests, errors and time, summed. -/
structure Totals where
  requests : Nat := 0
  errors : Nat := 0
  duration : Span := 0
  deriving DecidableEq, Repr

/-- The sums with one more completion. -/
def Totals.add (t : Totals) (c : Completion) : Totals where
  requests := t.requests + 1
  errors := if c.isError then t.errors + 1 else t.errors
  duration := t.duration + c.duration

/-- The sums over completions. -/
def Totals.of (cs : List Completion) : Totals := cs.foldl Totals.add {}

/-- Whether a completion lies in the window that ends now, both ends included. -/
def Completion.fallsIn (c : Completion) (now : WallTime) (window : Span) : Bool :=
  (now.since? c.completedAt).any (· ≤ window)

/-- What a node knows of load. -/
structure LoadRecord where
  nodeId : NodeId
  /-- The HTTP address that goes into the node's own snapshots. -/
  address : String
  window : Span
  weights : Weights
  host : HostLoad
  active : Std.ExtTreeMap String ActiveRequest compare := ∅
  history : List Completion := []
  snapshots : Std.ExtTreeMap NodeId Snapshot compare := ∅
  latencies : Std.ExtTreeMap NodeId Span compare := ∅

namespace LoadRecord

/-- Forgets what lies before the window that ends now. -/
def purge (c : LoadRecord) (now : WallTime) : LoadRecord :=
  let cutoff := now.before c.window
  let snapshots := c.snapshots.filter fun _ m => decide (cutoff.epochMillis ≤ m.timestamp)
  { c with
    history := c.history.filter fun s => decide (cutoff ≤ s.completedAt)
    snapshots := snapshots
    latencies :=
      if snapshots.size = c.snapshots.size then c.latencies
      else c.latencies.filter fun id _ => snapshots.contains id }

/-! ## Requests -/

/-- Notes the start of a request; a later start under the same identifier replaces it. -/
def start (c : LoadRecord) (r : ActiveRequest) : LoadRecord :=
  { c with active := c.active.insert r.id r }

/-- Completes a request that is under way; for any other identifier nothing happens. -/
def finish (c : LoadRecord) (id : String) (isError : Bool) (now : WallTime) : LoadRecord :=
  match c.active[id]? with
  | none => c
  | some r =>
    let completion : Completion := ⟨r.path, (now.since? r.startTime).getD 0, isError, now⟩
    purge
      { c with active := c.active.erase id, history := c.history ++ [completion] } now

/-! ## The node's own load -/

/-- The completed requests of the window that ends now, summed up. -/
def totals (c : LoadRecord) (now : WallTime) : Totals :=
  .of (c.history.filter fun s => s.fallsIn now c.window)

/-- The share of errors in percent. -/
def errorRate (t : Totals) : Binary64 :=
  if t.requests = 0 then 0 else .ofNat t.errors / .ofNat t.requests * 100

/-- The average duration in milliseconds. -/
def averageLatencyMs (t : Totals) : Binary64 :=
  if t.requests = 0 then 0 else Span.seconds t.duration * 1000 / .ofNat t.requests

/-- The load of this node now. -/
def snapshot (c : LoadRecord) (now : WallTime) : Snapshot :=
  let t := c.totals now
  { nodeId := c.nodeId
    address := c.address
    cpuUsage := c.host.cpu
    memoryUsage := c.host.memory
    requestsPerSec := .ofNat t.requests / Span.seconds c.window
    averageLatencyMs := averageLatencyMs t
    activeRequests := UInt64.ofNat c.active.size
    errorRate := errorRate t
    timestamp := now.epochMillis }

/-- The score of this node now; its latency is the average duration of its requests. -/
def ownScore (c : LoadRecord) (now : WallTime) : Score :=
  let m := c.snapshot now
  .ofSnapshot c.weights m (.ofSeconds (m.averageLatencyMs / 1000))

/-! ## The load of peers -/

/-- Takes in a snapshot of another node with the time of a round trip to it. -/
def update (c : LoadRecord) (m : Snapshot) (latency : Span) (now : WallTime) : LoadRecord :=
  if m.nodeId = c.nodeId then c
  else
    purge
      { c with
        snapshots := c.snapshots.insert m.nodeId m
        latencies := c.latencies.insert m.nodeId latency } now

/-- The last snapshot of a peer. -/
def snapshotOf? (c : LoadRecord) (id : NodeId) : Option Snapshot := c.snapshots[id]?

/-- The time of the last round trip to a peer. -/
def latencyOf? (c : LoadRecord) (id : NodeId) : Option Span := c.latencies[id]?

/-- The snapshots of all peers in the order of their identifiers. -/
def peerSnapshots (c : LoadRecord) : List Snapshot := c.snapshots.toList.map Prod.snd

/-- The score of a peer by its last snapshot. -/
def scoreOf (c : LoadRecord) (id : NodeId) : Score :=
  match c.snapshotOf? id with
  | some m => .ofSnapshot c.weights m ((c.latencyOf? id).getD 0)
  | none => .unknown

end LoadRecord

end PeerGateway
