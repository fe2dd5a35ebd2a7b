import PeerGateway.Directory.Basic

/-!
# Taking in joiners

A request that has been here before, or is the node's own, is a loop. A known joiner is
refreshed; a new one is put in if there is room, or in the place of the peer that has been
stale the longest; otherwise the directory is full. Every answer but that to a loop offers
the joiner other peers.
-/

namespace PeerGateway

/-- The first of the elements with the least key. -/
def leastBy? {α : Type} (key : α → Int) : List α → Option α
  | [] => none
  | a :: rest =>
    match leastBy? key rest with
    | none => some a
    | some b => if key b < key a then some b else some a

/-- The most peers that are offered to a joiner. -/
def mostOffered : Nat := 8

namespace JoinRequest

/-- Whether a request has been to a node, or is that node's own. -/
def loopsAt (r : JoinRequest) (id : NodeId) : Bool := r.visited.contains id || r.nodeId == id

end JoinRequest

namespace Directory

/-- The peers to offer a joiner: first the connected ones, then the stale ones, each in the
order of their identifiers. -/
def alternatives (d : Directory) (joiner : NodeId) : List Peer :=
  let others (state : PeerState) : List Entry :=
    d.list.filter fun e => e.peer.nodeId ≠ joiner && e.state = state
  ((others .connected ++ others .stale).take mostOffered).map Entry.peer

/-- The stale peer to give up first: the one that has been stale the longest. -/
def oldestStale? (d : Directory) : Option NodeId :=
  (leastBy? Entry.staleFrom (d.list.filter fun e => e.state = .stale)).map (·.peer.nodeId)

/-- The answer that takes a joiner in. -/
def accept (d : Directory) (alternatives : List Peer) : JoinResponse :=
  .accepted d.localId d.localAddress alternatives

/-- The answer that turns a joiner away. -/
def reject (d : Directory) (error : ProtocolError) (alternatives : List Peer) : JoinResponse :=
  .rejected d.localId d.localAddress error alternatives

/-- A known joiner's entry after it joins again: at the address it gives now. -/
def rejoined (e : Entry) (r : JoinRequest) (state : PeerState) (now : Instant) : Entry :=
  let e := { e with peer := { e.peer with address := r.address }, lastSeen := now }
  if e.state = .connected then e else e.moved state now

/-- Answers a join request. A joiner that has to prove the way to it is joining at first,
unless it is connected already. -/
def takeIn (d : Directory) (r : JoinRequest) (awaitTraversal : Bool) (now : Instant) :
    JoinResponse × Directory :=
  let state : PeerState := if awaitTraversal then .joining else .connected
  let insert (d : Directory) : JoinResponse × Directory :=
    (d.accept (d.alternatives r.nodeId),
      d.put r.nodeId (.fresh ⟨r.nodeId, r.address, false⟩ state now))
  if r.loopsAt d.localId then (d.reject .networkJoinLoop [], d)
  else
    match d.find? r.nodeId with
    | some e =>
      let d := d.put r.nodeId (rejoined e r state now)
      (d.accept (d.alternatives r.nodeId), d)
    | none =>
      if d.isFull then
        match d.oldestStale? with
        | some victim => insert (d.drop victim)
        | none => (d.reject .networkFull (d.alternatives r.nodeId), d)
      else insert d

end Directory

end PeerGateway
