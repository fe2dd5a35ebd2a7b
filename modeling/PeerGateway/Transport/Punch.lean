import PeerGateway.Address.Socket
import PeerGateway.Text.Bytes

/-!
# Punching holes

Two nodes behind NATs reach each other when one opens a hole, a port that waits for a
probe, and the other sends probes to it until one is acknowledged. `Mouth` is the hole's
end: it acknowledges the first probe and then waits no more. `Punch` is the other end: it
has a few attempts, each a probe and a wait for the acknowledgement.

`Punch.through` plays both ends against a network that loses datagrams.
-/

namespace PeerGateway

namespace Punch

/-- The datagram that asks for an acknowledgement. -/
def probe : Bytes := Bytes.ofString "gatemesh/punch"

/-- The datagram that acknowledges a probe. -/
def acknowledgement : Bytes := Bytes.ofString "gatemesh/punch-ack"

/-- The number of probes. -/
def attempts : Nat := 4

/-- How long each probe's acknowledgement is waited for. -/
def patience (timeout : Span) : Span := timeout / attempts

end Punch

/-- The port of a hole. -/
inductive Mouth
  | waiting
  /-- It was probed from an address. -/
  | probed (joiner : SocketAddress)
  deriving DecidableEq, Repr

/-- What a hole does with a datagram: the hole after it, and what it sends back. All but the
first probe is left without an answer. -/
def Mouth.receive (m : Mouth) (datagram : Bytes) (sender : SocketAddress) :
    Mouth × Option Bytes :=
  match m with
  | .probed _ => (m, none)
  | .waiting =>
    if datagram = Punch.probe then (.probed sender, some Punch.acknowledgement) else (m, none)

/-- Whether a hole was probed before it was given up. -/
def Mouth.isProbed : Mouth → Bool
  | .probed _ => true
  | .waiting => false

namespace Punch

/-- Whether a datagram from an address ends the punching of a target. -/
def isDone (target : SocketAddress) (datagram : Bytes) (sender : SocketAddress) : Bool :=
  sender = target && datagram = acknowledgement

/-- What becomes of the datagrams of one attempt. -/
structure Losses where
  probe : Bool
  acknowledgement : Bool
  deriving DecidableEq, Repr

/-- One attempt of a joiner on a hole: whether it ends the punching, and the hole after it. -/
def attempt (joiner target : SocketAddress) (lost : Losses) (m : Mouth) : Bool × Mouth :=
  if lost.probe then (false, m)
  else
    match m.receive probe joiner with
    | (m, some reply) => (!lost.acknowledgement && isDone target reply target, m)
    | (m, none) => (false, m)

/-- The attempts of a joiner on a hole, one for each list entry, up to the first that ends
the punching: whether there is one, and the hole after it. -/
def through (joiner target : SocketAddress) : List Losses → Mouth → Bool × Mouth
  | [], m => (false, m)
  | lost :: rest, m =>
    match attempt joiner target lost m with
    | (true, m) => (true, m)
    | (false, m) => through joiner target rest m

end Punch

end PeerGateway
