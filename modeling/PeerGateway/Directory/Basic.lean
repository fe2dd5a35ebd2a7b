import PeerGateway.Message.Basic
import Std.Data.ExtTreeMap

/-!
# The directory of peers

The peers that a node knows, at most `capacity` of them. A peer is `joining` until the
way to it is proven, then `connected`, and `stale` once it has been silent for too long;
a message from it makes it connected again.

`Directory.reserve` and `Directory.enrol` put in peers that this node asks to take it in,
`Directory.release` gives a reservation back, and `Directory.hear` notes a sign of
life. How joiners are taken in is in `Directory.Join`, how silence counts in
`Directory.Sweep`.
-/

namespace PeerGateway

/-- How far the link to a peer has come. -/
inductive PeerState
  | joining
  | connected
  | stale
  deriving DecidableEq, Repr

/-- What a directory knows of a peer. -/
structure Entry where
  peer : Peer
  state : PeerState
  lastSeen : Instant
  /-- Since when the peer is stale. -/
  staleSince : Option Instant := none
  deriving DecidableEq, Repr

namespace Entry

/-- The entry of a peer that is new. -/
def fresh (peer : Peer) (state : PeerState) (now : Instant) : Entry where
  peer := { peer with connected := state == .connected }
  state := state
  lastSeen := now

/-- An entry moved to a state. -/
def moved (e : Entry) (state : PeerState) (now : Instant) : Entry :=
  { e with
    peer := { e.peer with connected := state == .connected }
    state := state
    staleSince := if state = .stale then some now else none }

/-- An entry after a sign of life: it is connected. -/
def seen (e : Entry) (now : Instant) : Entry :=
  let e := { e with lastSeen := now }
  if e.state = .connected then e else e.moved .connected now

/-- Since when a stale peer is stale. -/
def staleFrom (e : Entry) : Instant := e.staleSince.getD e.lastSeen

end Entry

/-- The peers of a node, under their identifiers. -/
structure Directory where
  /-- The node's own identifier. -/
  localId : NodeId
  /-- The node's own overlay address, as told to joiners. -/
  localAddress : String
  capacity : Nat
  entries : Std.ExtTreeMap NodeId Entry compare := ∅

namespace Directory

/-! ## Questions -/

/-- The entry of a peer. -/
def find? (d : Directory) (id : NodeId) : Option Entry := d.entries[id]?

/-- The state of a peer. -/
def stateOf? (d : Directory) (id : NodeId) : Option PeerState := (d.find? id).map Entry.state

/-- Whether a peer is known. -/
def contains (d : Directory) (id : NodeId) : Bool := d.entries.contains id

/-- The number of peers. -/
def size (d : Directory) : Nat := d.entries.size

/-- Whether there is no room for another peer. -/
def isFull (d : Directory) : Bool := decide (d.capacity ≤ d.size)

/-- All entries in the order of the identifiers. -/
def list (d : Directory) : List Entry := d.entries.toList.map Prod.snd

/-- The connected peers in the order of their identifiers. -/
def connected (d : Directory) : List Peer :=
  (d.list.filter fun e => e.state = .connected).map Entry.peer

/-- The connected and stale peers in the order of their identifiers. -/
def known (d : Directory) : List Peer :=
  (d.list.filter fun e => e.state ≠ .joining).map Entry.peer

/-! ## Entries -/

/-- The directory with an entry put in, or replaced. -/
def put (d : Directory) (id : NodeId) (e : Entry) : Directory :=
  { d with entries := d.entries.insert id e }

/-- The directory without a peer. -/
def drop (d : Directory) (id : NodeId) : Directory := { d with entries := d.entries.erase id }

/-! ## Peers that this node asks -/

/-- Puts in a peer in a state if there is room; one that is known stays as it is, and the
node itself is never a peer. -/
def place (d : Directory) (peer : Peer) (state : PeerState) (now : Instant) :
    Except ProtocolError Directory :=
  if peer.nodeId = d.localId then .error .networkJoinLoop
  else if d.contains peer.nodeId then .ok d
  else if d.isFull then .error .networkFull
  else .ok (d.put peer.nodeId (.fresh peer state now))

/-- Keeps a place for a peer that is about to be asked. -/
def reserve (d : Directory) (peer : Peer) (now : Instant) : Except ProtocolError Directory :=
  d.place peer .joining now

/-- Makes a known peer connected. -/
def confirm (d : Directory) (id : NodeId) (now : Instant) : Except ProtocolError Directory :=
  match d.find? id with
  | none => .error .peerNotFound
  | some e => .ok (d.put id (e.seen now))

/-- Puts in a peer that took this node in. -/
def enrol (d : Directory) (peer : Peer) (now : Instant) : Except ProtocolError Directory :=
  match d.place peer .connected now with
  | .error e => .error e
  | .ok d => d.confirm peer.nodeId now

/-- Takes out a peer that is still joining. -/
def release (d : Directory) (id : NodeId) : Directory :=
  if d.stateOf? id = some .joining then d.drop id else d

/-! ## Signs of life and departures -/

/-- Notes a sign of life of a peer, and tells whether it is known. -/
def hear (d : Directory) (id : NodeId) (now : Instant) : Bool × Directory :=
  match d.find? id with
  | none => (false, d)
  | some e => (true, d.put id (e.seen now))

/-- Takes out a peer. -/
def remove (d : Directory) (id : NodeId) : Except ProtocolError (Peer × Directory) :=
  match d.find? id with
  | none => .error .peerNotFound
  | some e => .ok (e.peer, d.drop id)

end Directory

end PeerGateway
