import PeerGateway.Directory.Basic
import PeerGateway.Load.Record

/-!
# Ranking and routing

The connected peers by rising score (`ranked`), the best of them (`select`), and where a
request runs (`RelayRule.route`): here, unless the best peer beats this node by more than a
threshold and says where to send it.
-/

namespace PeerGateway

/-- The order of the ranking: by total score, then by identifier. -/
def Ranked.precedes (a b : NodeId × Score) : Bool :=
  ((a.2.total.totalCompare b.2.total).then (compare a.1 b.1)).isLE

/-- The connected peers with their scores, the best first. -/
def ranked (d : Directory) (c : LoadRecord) : List (NodeId × Score) :=
  let peers := (d.connected.map Peer.nodeId).filter (· ≠ d.localId)
  (peers.map fun id => (id, c.scoreOf id)).mergeSort Ranked.precedes

/-- The choice of a node. -/
inductive Selection
  | here
  | peer (id : NodeId)
  deriving DecidableEq, Repr

/-- The best connected peer, or this node if there is none. -/
def select (d : Directory) (c : LoadRecord) : Selection :=
  match (ranked d c).head? with
  | some (id, _) => .peer id
  | none => .here

/-- Where a request runs. -/
inductive Route
  | here
  | forward (id : NodeId) (address : String)
  deriving DecidableEq, Repr

/-- By how much a peer must beat this node. -/
structure RelayRule where
  threshold : Binary64

namespace RelayRule

/-- The rule with a threshold, which counts as zero if it is below. -/
def ofThreshold (x : Binary64) : RelayRule := ⟨x.atLeast 0⟩

/-- Where a request runs. One that a peer relayed runs here. -/
def route (rule : RelayRule) (d : Directory) (c : LoadRecord) (fromPeer : Bool) (now : WallTime) :
    Route :=
  if fromPeer then .here
  else
    match (ranked d c).head? with
    | none => .here
    | some (id, best) =>
      if ((c.ownScore now).total - best.total).le rule.threshold then .here
      else
        match c.snapshotOf? id with
        | some m => if m.address.isEmpty then .here else .forward id m.address
        | none => .here

end RelayRule

end PeerGateway
