import PeerGateway.Node.Inbound
import PeerGateway.Transport.Punch

/-!
# Datagrams between a joiner and a hole

`Punching` is a hole and a joiner that punches to it, with the datagrams that are on their way
between them, and `Punching.Event` is what may happen next: one of them arrives or is lost, or the
time of the joiner's attempt is up. All that arrive do so well before that, so an attempt ends with
nothing on its way. The hole waits at least as long as the attempts take together.

Each end makes of it what it can: the joiner by its own result (`Puncher.result?`), the node that
opened the hole by whether it was probed (`Mouth.settle`).
-/

namespace PeerGateway

/-- A datagram on its way. -/
inductive Datagram
  | toHole (content : Bytes)
  | toJoiner (content : Bytes)
  deriving DecidableEq, Repr

/-- How far a joiner has come. -/
inductive Puncher
  /-- It has sent a probe and waits, and has some attempts left after this one. -/
  | waiting (left : Nat)
  | ended (done : Bool)
  deriving DecidableEq, Repr

namespace Puncher

/-- What a joiner does with a datagram from an address. -/
def receive (p : Puncher) (target : SocketAddress) (datagram : Bytes) (sender : SocketAddress) :
    Puncher :=
  match p with
  | .waiting left => if Punch.isDone target datagram sender then .ended true else .waiting left
  | .ended done => .ended done

/-- What the punching came to, once it has. -/
def result? : Puncher → Option (Except ProtocolError Unit)
  | .waiting _ => none
  | .ended true => some (.ok ())
  | .ended false => some (.error .natPunchFailed)

end Puncher

/-- A hole and a joiner that punches to it. -/
structure Punching where
  joiner : SocketAddress
  /-- The address of the hole. -/
  target : SocketAddress
  puncher : Puncher
  mouth : Mouth := .waiting
  inFlight : List Datagram := []
  deriving DecidableEq, Repr

namespace Punching

/-- The joiner has sent its first probe. -/
def start (joiner target : SocketAddress) : Punching where
  joiner := joiner
  target := target
  puncher := .waiting (Punch.attempts - 1)
  inFlight := [.toHole Punch.probe]

/-- What happens to a joiner and a hole. A datagram is told by its place. -/
inductive Event
  | arrives (i : Nat)
  | lost (i : Nat)
  /-- The time of an attempt is up. -/
  | slotEnds
  deriving DecidableEq, Repr

/-- What happens to a joiner and a hole. -/
def step (x : Punching) : Event → Punching
  | .arrives i =>
    match x.inFlight[i]? with
    | some (.toHole content) =>
      let (mouth, reply) := x.mouth.receive content x.joiner
      { x with mouth, inFlight := x.inFlight.eraseIdx i ++ (reply.map .toJoiner).toList }
    | some (.toJoiner content) =>
      { x with
        puncher := x.puncher.receive x.target content x.target
        inFlight := x.inFlight.eraseIdx i }
    | none => x
  | .lost i => { x with inFlight := x.inFlight.eraseIdx i }
  | .slotEnds =>
    match x.inFlight, x.puncher with
    | [], .waiting 0 => { x with puncher := .ended false }
    | [], .waiting (left + 1) =>
      { x with puncher := .waiting left, inFlight := [.toHole Punch.probe] }
    | _, _ => x

/-- The joiner and the hole after all that happens. -/
def after (x : Punching) (events : List Event) : Punching := events.foldl step x

end Punching

/-- What a node makes of the hole that it opened for a joiner, when the hole's time is up at the
latest. -/
def Mouth.settle (m : Mouth) (joiner : NodeId) (now : Instant) (n : Node) : Node :=
  if m.isProbed then n.holeProbed joiner now else n.holeFailed joiner

end PeerGateway
