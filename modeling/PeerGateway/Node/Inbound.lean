import PeerGateway.Node.Basic

/-!
# Messages that a node receives

`Node.receive` is what a node does with a message: the node after it, the answer, and what
else it came to (`Reaction`). A joiner may be behind a NAT as the node is; the node then
opens a hole for it, and the joiner stays joining until the hole is probed
(`Node.holeProbed`) or given up (`Node.holeFailed`).

A message from a known sender goes through `Node.receiveFrom`, which puts the sender's
host into addresses that name none.
-/

namespace PeerGateway

/-- A port that was opened for a joiner to punch to. -/
structure Hole where
  joiner : NodeId
  port : UInt16
  deriving DecidableEq, Repr

/-- What a message came to. -/
structure Reaction where
  node : Node
  reply : Option Message := none
  /-- Addresses whose connections are dropped. -/
  forgotten : List String := []
  hole : Option Hole := none

namespace Node

/-- Answers a join request. `port` is the port that can be opened for the joiner, if one
can be. -/
def replyToJoin (n : Node) (r : JoinRequest) (port : Option UInt16) (now : Moment) : Reaction :=
  let traverse := r.behindNat && n.policy.behindNat
  let (response, d) := n.directory.takeIn r traverse now.steady
  if traverse && response.success then
    match port with
    | some p =>
      { node := n.withDirectory d
        reply := some (.joinResponse { response with natPort := some p })
        hole := some ⟨r.nodeId, p⟩ }
    | none =>
      { node := n.withDirectory (d.release r.nodeId)
        reply := some (.joinResponse
          { response with success := false, error := some .natPunchFailed }) }
  else { node := n.withDirectory d, reply := some (.joinResponse response) }

/-- Takes in a snapshot that its node sent, and answers with this node's own. A round trip
to the sender that was measured before still counts. -/
def receiveSnapshot (n : Node) (m : Snapshot) (now : Moment) : Reaction :=
  let d := (n.directory.hear m.nodeId now.steady).2
  let c := n.load.update m ((n.load.latencyOf? m.nodeId).getD 0) now.wall
  { node := { n with directory := d, load := c }, reply := some (.metrics (c.snapshot now.wall)) }

/-- Takes out a peer that leaves. -/
def receiveLeave (n : Node) (id : NodeId) : Reaction :=
  match n.directory.remove id with
  | .ok (peer, d) => { node := n.withDirectory d, forgotten := [peer.address] }
  | .error _ => { node := n }

/-- What a node does with a message. Answers that nobody waits for are dropped. -/
def receive (n : Node) (m : Message) (port : Option UInt16) (now : Moment) : Reaction :=
  match m with
  | .joinRequest r => n.replyToJoin r port now
  | .metrics m => n.receiveSnapshot m now
  | .ping beat =>
    { node := n.withDirectory (n.directory.hear beat.nodeId now.steady).2
      reply := some (.pong ⟨n.id, beat.timestamp⟩) }
  | .leave id => n.receiveLeave id
  | .joinResponse _ => { node := n }
  | .pong _ => { node := n }

/-- A message with the host of its sender in addresses that name none. -/
def pinnedTo (host : String) : Message → Message
  | .joinRequest r => .joinRequest { r with address := pinned r.address host }
  | .metrics m => .metrics { m with address := pinned m.address host }
  | m => m

/-- What a node does with a message of a sender at an address. -/
def receiveFrom (n : Node) (m : Message) (sender : Ip) (port : Option UInt16) (now : Moment) :
    Reaction :=
  n.receive (pinnedTo sender.text m) port now

/-- A joiner has probed the hole that was opened for it. -/
def holeProbed (n : Node) (joiner : NodeId) (now : Instant) : Node :=
  match n.directory.confirm joiner now with
  | .ok d => n.withDirectory d
  | .error _ => n

/-- The hole that was opened for a joiner was not probed in time. -/
def holeFailed (n : Node) (joiner : NodeId) : Node := n.withDirectory (n.directory.release joiner)

end Node

end PeerGateway
