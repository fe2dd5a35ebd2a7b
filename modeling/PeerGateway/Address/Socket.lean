import PeerGateway.Address.Ip
import PeerGateway.Message.Basic

/-!
# Socket addresses

An internet address with a port. `SocketAddress.parse?` reads one, `pinned` puts a host
that was observed into an address that names none, and `Dial.target` says what an
address leads to when it is dialled.
-/

namespace PeerGateway

/-- An internet address and a port. -/
structure SocketAddress where
  ip : Ip
  port : UInt16
  deriving DecidableEq, Repr

namespace SocketAddress

/-- Takes a colon and a port. -/
def takePort (s : List Char) : Option (UInt16 × List Char) := do
  let (n, s) ← Ip.takeBelow UInt16.size 10 none true (← Ip.takeChar ':' s)
  return (UInt16.ofNat n, s)

/-- Takes a version 4 address and a port. -/
def takeV4 (s : List Char) : Option (SocketAddress × List Char) := do
  let ((a, b, c, d), s) ← Ip.takeV4 s
  let (port, s) ← takePort s
  return (⟨.v4 a b c d, port⟩, s)

/-- Leaves out a scope, a percent sign and a number, if there is one. -/
def skipScope (s : List Char) : List Char :=
  match (Ip.takeChar '%' s).bind (Ip.takeBelow UInt32.size 10 none true) with
  | some (_, rest) => rest
  | none => s

/-- Takes a version 6 address in brackets and a port. -/
def takeV6 (s : List Char) : Option (SocketAddress × List Char) := do
  let (ip, s) ← Ip.takeV6 (← Ip.takeChar '[' s)
  let s ← Ip.takeChar ']' (skipScope s)
  let (port, s) ← takePort s
  return (⟨ip, port⟩, s)

/-- The socket address that a text is. -/
def parse? (s : String) : Option SocketAddress :=
  match (takeV4 s.toList).or (takeV6 s.toList) with
  | some (a, []) => some a
  | _ => none

end SocketAddress

/-- The part of an address before its last colon; all of it if it has none. -/
def hostPart (address : String) : String :=
  let cs := address.toList.reverse
  match cs.dropWhile (· ≠ ':') with
  | [] => address
  | _ :: host => String.ofList host.reverse

/-- A host with a port; a version 6 host gets brackets unless it has them. -/
def withPort (host : String) (port : UInt16) : String :=
  let bare := host.toList.contains ':' && host.toList.head? != some '['
  if bare then "[" ++ host ++ "]:" ++ toString port.toNat
  else host ++ ":" ++ toString port.toNat

/-- An address whose host stands for every address of the machine, with the given host in
its place; any other address as it is. -/
def pinned (address host : String) : String :=
  match SocketAddress.parse? address with
  | some a => if a.ip.isUnspecified then withPort host a.port else address
  | none => address

/-- Decimal digits, with a plus sign in front or without, as a number below a limit. -/
def naturalBelow? (limit : Nat) (s : List Char) : Option Nat :=
  let digits := match s with
    | '+' :: rest => rest
    | s => s
  if !digits.isEmpty && digits.all Binary64.isDigit then
    let n := Binary64.digitsValue digits
    if n < limit then some n else none
  else none

namespace Dial

/-- What an address leads to. -/
inductive Target
  | socket (address : SocketAddress)
  | name (host : String) (port : UInt16)
  deriving DecidableEq, Repr

/-- What an address leads to when it is dialled: a socket address, or a host to look up
and a port after the last colon. -/
def target (address : String) : Except IoFault Target :=
  match SocketAddress.parse? address with
  | some a => .ok (.socket a)
  | none =>
    if address.toList.contains ':' then
      let port := (address.toList.reverse.takeWhile (· ≠ ':')).reverse
      match naturalBelow? UInt16.size port with
      | some n => .ok (.name (hostPart address) (UInt16.ofNat n))
      | none => .error .badPort
    else .error .badSocketAddress

end Dial

end PeerGateway
