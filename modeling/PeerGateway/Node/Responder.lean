import PeerGateway.Node.Inbound

/-!
# A node and its holes

A node behind a NAT opens a hole for each joiner that it takes in and that is behind a NAT as well.
`Responder` is such a node with its holes, and `Happening` what may happen to it: a message comes,
or a hole is probed or given up. A hole comes to something once, and knows no more than its joiner.
-/

namespace PeerGateway

/-- A node with the holes that it opened, in order. One that has come to something is closed. -/
structure Responder where
  node : Node
  holes : List (Option Hole) := []

/-- What happens to a node that opens holes. A hole is told by its place among all that were
opened. -/
inductive Happening
  /-- A message arrives, and a hole that is opened for it gets the port. -/
  | received (message : Message) (port : UInt16) (now : Moment)
  | probed (hole : Nat) (now : Instant)
  | expired (hole : Nat)

namespace Responder

/-- A hole that is open. -/
def openHole? (x : Responder) (k : Nat) : Option Hole := (x.holes[k]?).join

/-- Closes a hole, which the node has seen to. -/
def close (x : Responder) (k : Nat) (n : Node) : Responder := ⟨n, x.holes.set k none⟩

/-- What happens to a node, and to its holes. -/
def step (x : Responder) : Happening → Responder
  | .received m port now =>
    let reaction := x.node.receive m (some port) now
    ⟨reaction.node, x.holes ++ reaction.hole.toList.map some⟩
  | .probed k now =>
    match x.openHole? k with
    | some hole => x.close k (x.node.holeProbed hole.joiner now)
    | none => x
  | .expired k =>
    match x.openHole? k with
    | some hole => x.close k (x.node.holeFailed hole.joiner)
    | none => x

/-- The node after all that happens. -/
def after (x : Responder) (events : List Happening) : Responder := events.foldl step x

end Responder

end PeerGateway
