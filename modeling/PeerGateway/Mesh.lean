import PeerGateway.Node.Inbound
import PeerGateway.Node.Round
import PeerGateway.Node.Walk

/-!
# A mesh in one place

Nodes whose messages are delivered at once, without a network: an address leads to the
node that is registered there. Time stands still unless it is moved, or a reply takes the
time that its address is given. Addresses may have replies of their own, which come before
the node there, and every call of the nodes is kept in a log.

`Mesh.around` is what one of the nodes acts in. Holes that nobody probed are given up when
the mesh settles (`Mesh.settle`).
-/

namespace PeerGateway

/-- A reply that an address gives before the node there does. -/
inductive CannedReply
  | message (reply : Message)
  | closed
  | timeout
  /-- The request goes on to the node. -/
  | passed

/-- A call of a node to others. -/
inductive Call
  | request (address : String) (message : Message)
  | notify (address : String) (message : Message)
  | forget (address : String)

/-- Nodes and the state of what is between them. -/
structure Mesh where
  clock : Moment
  nodes : Std.ExtTreeMap NodeId Node compare := ∅
  /-- The hosts that the messages of nodes are seen to come from, if that is known. -/
  hosts : Std.ExtTreeMap NodeId Ip compare := ∅
  /-- The nodes that addresses lead to. -/
  routes : Std.ExtTreeMap String NodeId compare := ∅
  canned : Std.ExtTreeMap String (List CannedReply) compare := ∅
  latencies : Std.ExtTreeMap String Span compare := ∅
  /-- The calls so far, the last one first. -/
  log : List Call := []
  /-- The open holes with the nodes that opened them, the oldest first. -/
  holes : List (NodeId × Hole) := []
  /-- Whether datagrams reach this machine itself. -/
  loopback : Bool := true
  /-- The port that the next hole gets. -/
  nextPort : UInt16 := 49152

namespace Mesh

/-- A node that knows nobody and has no room for anybody. -/
def lone (id : NodeId) : Node where
  directory := { localId := id, localAddress := "", capacity := 0 }
  load := { nodeId := id, address := "", window := 0, weights := .default, host := ⟨0, 0⟩ }
  policy := ⟨0, 0, false, 0⟩

/-- The node of an identifier. -/
def node (m : Mesh) (id : NodeId) : Node := (m.nodes[id]?).getD (lone id)

/-- The mesh with a node replaced. -/
def setNode (m : Mesh) (id : NodeId) (n : Node) : Mesh := { m with nodes := m.nodes.insert id n }

/-- The mesh with both clocks moved on. -/
def advance (m : Mesh) (d : Int) : Mesh :=
  { m with clock := ⟨m.clock.steady + d, m.clock.wall + d⟩ }

/-- The mesh with one more call in its log. -/
def logged (m : Mesh) (c : Call) : Mesh := { m with log := c :: m.log }

/-- Lets a node receive a message, whose sender's host may be known. -/
def receive (m : Mesh) (id : NodeId) (message : Message) (host : Option Ip) :
    Option Message × Mesh :=
  let n := m.node id
  let r := match host with
    | some ip => n.receiveFrom message ip (some m.nextPort) m.clock
    | none => n.receive message (some m.nextPort) m.clock
  let m := m.setNode id r.node
  let m := r.forgotten.foldl (fun m address => m.logged (.forget address)) m
  let m := match r.hole with
    | some hole => { m with holes := m.holes ++ [(id, hole)], nextPort := m.nextPort + 1 }
    | none => m
  (r.reply, m)

/-- Delivers a message of a node to an address. -/
def deliver (m : Mesh) (sender : NodeId) (address : String) (message : Message) :
    Except NetworkError (Option Message) × Mesh :=
  let m := m.advance ((m.latencies[address]?).getD 0)
  match m.routes[address]? with
  | none => (.error (.io (.other address)), m)
  | some id =>
    let (reply, m) := m.receive id message (m.hosts[sender]?)
    (.ok reply, m)

/-- Takes the next canned reply of an address. -/
def takeCanned (m : Mesh) (address : String) : Option CannedReply × Mesh :=
  match m.canned[address]? with
  | some (r :: rest) => (some r, { m with canned := m.canned.insert address rest })
  | _ => (none, m)

/-- How long a canned timeout takes. -/
def cannedTimeout : Span := .ofSecs 3

/-- Sends a request of a node to an address and gives the reply. -/
def request (m : Mesh) (sender : NodeId) (address : String) (message : Message) :
    Except NetworkError Message × Mesh :=
  let m := m.logged (.request address message)
  let (canned, m) := m.takeCanned address
  match canned with
  | some (.message reply) => (.ok reply, m)
  | some .closed => (.error (.closed address), m)
  | some .timeout => (.error (.timeout cannedTimeout), m.advance cannedTimeout)
  | _ =>
    match m.deliver sender address message with
    | (.error e, m) => (.error e, m)
    | (.ok (some reply), m) => (.ok reply, m)
    | (.ok none, m) => (.error (.closed address), m)

/-- Sends a message of a node to an address. -/
def notify (m : Mesh) (sender : NodeId) (address : String) (message : Message) :
    Except NetworkError Unit × Mesh :=
  match (m.logged (.notify address message)).deliver sender address message with
  | (.error e, m) => (.error e, m)
  | (.ok _, m) => (.ok (), m)

/-- Punches the way to a port at the host of an address: it must be this machine, and the
port that of an open hole, which is then probed. -/
def punch (m : Mesh) (address : String) (port : UInt16) : Except ProtocolError Unit × Mesh :=
  let here := m.loopback && (SocketAddress.parse? address).any (·.ip = .v4 127 0 0 1)
  match m.holes.find? fun h => here && h.2.port = port with
  | none => (.error .natPunchFailed, m)
  | some (id, hole) =>
    (.ok (), { m.setNode id ((m.node id).holeProbed hole.joiner m.clock.steady) with
      holes := m.holes.filter (· ≠ (id, hole)) })

/-- What a node of the mesh acts in. Others act only when it sends them something. -/
def around (id : NodeId) : Surroundings Mesh where
  node m := m.node id
  setNode n m := m.setNode id n
  now m := m.clock
  meanwhile m := m
  request address message m := m.request id address message
  notify address message m := m.notify id address message
  forget address m := m.logged (.forget address)
  punch address port m := m.punch address port

/-- Gives up all open holes, the oldest first. -/
def settle (m : Mesh) : Mesh :=
  { m.holes.foldl (fun m h => m.setNode h.1 ((m.node h.1).holeFailed h.2.joiner)) m with
    holes := [] }

/-- All addresses that a walk can come upon: those of its seeds and of all directories and
canned replies, and the nodes' own. -/
def reachable (m : Mesh) (seeds : List String) : List String :=
  let offered : CannedReply → List String
    | .message (.joinResponse r) => r.alternatives.map Peer.address
    | _ => []
  seeds ++
    m.nodes.toList.flatMap
      (fun e => e.2.address :: e.2.directory.list.map fun e => e.peer.address) ++
    m.canned.toList.flatMap (fun e => e.2.flatMap offered)

/-- Lets a node walk from seeds. No walk sends more requests than there are addresses that
it can come upon. -/
def walk (m : Mesh) (id : NodeId) (seeds : List String) : WalkOutcome × Mesh :=
  let (outcome, m) := (Walk.ofSeeds seeds).run (around id) ((m.reachable seeds).length + 1) m
  (outcome.getD {}, m.settle)

/-- Lets a node run one heartbeat round. -/
def heartbeat (m : Mesh) (id : NodeId) : RoundReport × Mesh := Node.heartbeat (around id) m

/-- Lets a node run its heartbeat for a time, in which the clocks do not move. -/
def heartbeats (m : Mesh) (id : NodeId) (time : Span) : Mesh :=
  (List.range (time / (m.node id).heartbeatPeriod + 1)).foldl (fun m _ => (m.heartbeat id).2) m

/-- Lets a node leave. -/
def leave (m : Mesh) (id : NodeId) : Mesh := Node.leave (around id) m

end Mesh

end PeerGateway
