import PeerGateway.Address.Ip
import PeerGateway.Domain.Basic
import PeerGateway.Http.Basic
import PeerGateway.Text.Percent

/-!
# Web addresses

The address of a resource under the `http` scheme, read as browsers read it: tabs and line
ends are dropped, backslashes count as slashes, a user before the host is left out, and a
host is a domain name in any script or an internet address in any of its notations.
`Url.parse?` reads an address, `Host.parse?` its host and `Url.pathOf` its path.

`Url.target` is what a request to the address asks its host for.
-/

namespace PeerGateway.Http

/-- The host of an address. -/
inductive Host
  | name (text : String)
  | ip (address : Ip)
  deriving DecidableEq, Repr

namespace Host

/-- Characters that no host has. -/
def isForbidden (c : Char) : Bool :=
  c.toNat ≤ 0x20 || c.toNat = 0x7F || "#/:<>?@[\\]^|%".toList.contains c

/-- Characters that a host can have, but not the host of a request. -/
def isUnsendable (c : Char) : Bool := "\"`\x7b\x7d".toList.contains c

/-- The base of a number's notation, and its digits without the mark of the base. -/
def notation? : List Char → Nat × List Char
  | '0' :: 'x' :: ds => (16, ds)
  | '0' :: 'X' :: ds => (16, ds)
  | '0' :: d :: ds => (8, d :: ds)
  | ds => (10, ds)

/-- The value of a number in decimal, octal after a zero, or hexadecimal after `0x`. -/
def number? (s : List Char) : Option Nat :=
  let (base, digits) := notation? s
  if s.isEmpty then none
  else numberIn? base digits

/-- The parts of a host between points; a point at the end ends the last part. -/
def parts (s : List Char) : List (List Char) :=
  let ps := splitAtChar '.' s
  if 1 < ps.length && ps.getLast? = some [] then ps.dropLast else ps

/-- Whether the last part of a host is a number, so that all of it must be one. -/
def endsInNumber (s : List Char) : Bool :=
  match (parts s).getLast? with
  | none => false
  | some last =>
    (!last.isEmpty && last.all fun c => (digitIn? 10 c).isSome) || (number? last).isSome

/-- The address of numbers of which the last one fills the rest of the four bytes. -/
def ofNumbers? (front : List Nat) (last : Nat) : Option Ip :=
  let high := front.foldl (fun n b => n * 256 + b) 0
  let room := 1 <<< (8 * (4 - front.length))
  let value := high * room + last
  if 3 < front.length || front.any (255 < ·) || room ≤ last then none
  else some <| .v4 (UInt8.ofNat (value >>> 24)) (UInt8.ofNat (value >>> 16))
    (UInt8.ofNat (value >>> 8)) (UInt8.ofNat value)

/-- The address of version 4 that a host with a number at its end is. -/
def numeric? (s : List Char) : Option Ip := do
  let numbers ← (parts s).mapM number?
  ofNumbers? numbers.dropLast (← numbers.getLast?)

/-- The address of version 6 in brackets. -/
def bracketed? (s : List Char) : Option Ip :=
  match Ip.takeV6 s with
  | some (address, [']']) => some address
  | _ => none

/-- The host that a text names. The name may have percent-encoded characters. -/
def parse? (s : List Char) : Option Host :=
  match s with
  | '[' :: rest => (bracketed? rest).map .ip
  | s => do
    let text ← Bytes.text? (Percent.decoded (Bytes.ofChars s))
    let cs ← Domain.ascii? text.toList
    if cs.isEmpty || cs.any isForbidden then none
    else if endsInNumber cs then (numeric? cs).map .ip
    else some (.name (String.ofList cs))

/-- Whether a request can be sent to the host. -/
def isSendable : Host → Bool
  | .name text => !text.toList.any isUnsendable
  | .ip _ => true

end Host

/-- A web address. -/
structure Url where
  host : Host
  port : Nat := 80
  /-- The path, from its slash on. -/
  path : String := "/"
  query : Option String := none
  deriving DecidableEq, Repr

namespace Url

/-- Whether a character ends the host and port. -/
def endsHost (c : Char) : Bool := c = '/' || c = '\\' || c = '?' || c = '#'

/-- Drops a user in front of a host: all up to the last at sign. -/
def withoutUser (s : List Char) : List Char :=
  (s.reverse.takeWhile (· ≠ '@')).reverse

/-- The host in front of a port's colon, and the rest from the colon on. A colon between
brackets belongs to the host. -/
def splitHost : Bool → List Char → List Char × List Char
  | _, [] => ([], [])
  | bracketed, c :: rest =>
    if c = ':' && !bracketed then ([], c :: rest)
    else
      let (host, port) :=
        splitHost (if c = '[' then true else if c = ']' then false else bracketed) rest
      (c :: host, port)

/-- The port after a host: a colon and a number, or a colon alone, or nothing. -/
def port? : List Char → Option Nat
  | [] => some 80
  | [':'] => some 80
  | _ :: digits =>
    (numberIn? 10 digits).filter (· < UInt16.size)

/-- Whether a path segment stands for the place itself. -/
def isHere (s : List Char) : Bool :=
  s.map Char.toLower ∈ [".".toList, "%2e".toList]

/-- Whether a path segment leads one up. -/
def isUp (s : List Char) : Bool :=
  s.map Char.toLower ∈ ["..".toList, ".%2e".toList, "%2e.".toList, "%2e%2e".toList]

/-- Follows path segments from those already gone through; the place itself and the way up
leave a slash when they come last. -/
def follow : List (List Char) → List (List Char) → List (List Char)
  | done, [] => done
  | done, s :: rest =>
    let ending := if rest.isEmpty then [[]] else []
    if isUp s then follow (done.dropLast ++ ending) rest
    else if isHere s then follow (done ++ ending) rest
    else follow (done ++ [s]) rest

/-- Characters that are encoded in a path. -/
def isPathSpecial (c : Char) : Bool := " \"#<>?`\x7b\x7d".toList.contains c

/-- Characters that are encoded in a query. -/
def isQuerySpecial (c : Char) : Bool := " \"#<>'".toList.contains c

/-- The path of an address. -/
def pathOf (s : List Char) : String :=
  let slashed := s.map fun c => if c = '\\' then '/' else c
  let segments := follow [] (splitAtChar '/' (slashed.drop 1))
  String.ofList (segments.flatMap fun s => '/' :: Percent.encoded isPathSpecial s)

/-- Reads an address from its host on. -/
def ofAuthority? (s : List Char) : Option Url := do
  let (host, port) := splitHost false (withoutUser (s.takeWhile fun c => !endsHost c))
  let rest := (s.dropWhile fun c => !endsHost c).takeWhile (· ≠ '#')
  let query := match rest.dropWhile (· ≠ '?') with
    | [] => none
    | _ :: q => some (String.ofList (Percent.encoded isQuerySpecial q))
  return { host := ← Host.parse? host, port := ← port? port
           path := pathOf (rest.takeWhile (· ≠ '?')), query }

/-- The characters that count: without controls and spaces at the ends, and without tabs
and line ends. -/
def significant (s : List Char) : List Char :=
  let isEdge (c : Char) : Bool := c.toNat ≤ 0x20
  let inner := ((s.dropWhile isEdge).reverse.dropWhile isEdge).reverse
  inner.filter fun c => c ≠ '\t' && c ≠ '\n' && c ≠ '\r'

/-- The address that a text names under the `http` scheme. -/
def parse? (s : String) : Option Url :=
  let cs := significant s.toList
  if (cs.take 5).map Char.toLower = "http:".toList then
    ofAuthority? ((cs.drop 5).dropWhile fun c => c = '/' || c = '\\')
  else none

/-- What a request to the address asks for. -/
def target (u : Url) : Target := { path := u.path, query := u.query }

end Url

end PeerGateway.Http
