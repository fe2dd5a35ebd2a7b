import PeerGateway.Control.Answer
import PeerGateway.Http.Wire
import Std.Async.DNS
import Std.Async.TCP

/-!
# The command line

Asks a gateway and prints its answer.
-/

namespace PeerGateway.Control

/-- The number of an address for the socket of a port. -/
def socketOf (u : Http.Url) : Ip → Std.Net.SocketAddress
  | .v4 a b c d => .v4 ⟨⟨#v[a, b, c, d]⟩, UInt16.ofNat u.port⟩
  | .v6 a b c d e f g h => .v6 ⟨⟨#v[a, b, c, d, e, f, g, h]⟩, UInt16.ofNat u.port⟩

/-- The numbers of a host, which is looked up if it is a name. -/
def socketsOf (u : Http.Url) : IO (List Std.Net.SocketAddress) :=
  match u.host with
  | .ip address => pure [socketOf u address]
  | .name host => do
    let found ← (Std.Async.DNS.getAddrInfo host (toString u.port)).block
    return found.toList.map fun address =>
      match address with
      | .v4 ip => .v4 ⟨ip, UInt16.ofNat u.port⟩
      | .v6 ip => .v6 ⟨ip, UInt16.ofNat u.port⟩

/-- Reads a connection to its end. -/
partial def readAll (client : Std.Async.TCP.Socket.Client) (sofar : ByteArray) : IO ByteArray := do
  match ← (client.recv? 65536).block with
  | none => return sofar
  | some bytes => readAll client (sofar ++ bytes)

/-- Connects to the first socket that lets one. -/
def connectAny : List Std.Net.SocketAddress → IO (Option Std.Async.TCP.Socket.Client)
  | [] => return none
  | address :: rest => do
    try
      let client ← Std.Async.TCP.Socket.Client.mk
      (client.connect address).block
      return some client
    catch _ => connectAny rest

/-- Sends a request to a host and waits for the answer. -/
def send (u : Http.Url) (r : Http.Request) : IO Delivery := do
  let some client ← connectAny (← try socketsOf u catch _ => pure []) | return .unreachable
  try
    (client.send (r.bytes u)).block
    let received ← readAll client .empty
    return match Http.Response.ofBytes? received.toList with
      | some response => .answered response
      | none => .broken
  catch _ => return .broken

/-- Runs a command. -/
def ask (c : Command) (l : Listener) : IO Outcome := do
  let delivery ← match (c.request l).prepare? with
    | none => pure Delivery.broken
    | some (u, r) => send u r
  return c.conclude l delivery

end PeerGateway.Control

open PeerGateway.Control

def main (arguments : List String) : IO UInt32 := do
  let outcome ← match (Invocation.parse arguments).settle with
    | .inl outcome => pure outcome
    | .inr (c, l) => ask c l
  for line in outcome.output do IO.println line
  for line in outcome.complaint do IO.eprintln line
  return outcome.code
