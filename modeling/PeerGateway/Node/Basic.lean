import PeerGateway.Directory.Join
import PeerGateway.Directory.Sweep
import PeerGateway.Load.Record
import PeerGateway.Settings.Basic

/-!
# Nodes

A node is its directory, its record of load and the settings that its part in the overlay
depends on. `Surroundings` is what it acts in: clocks, other nodes and the network, whose
state may hold more than the node itself.
-/

namespace PeerGateway

/-- What a node's part in the overlay depends on. -/
structure NodePolicy where
  /-- A peer silent for so long is stale. -/
  window : Span
  staleGrace : Span
  behindNat : Bool
  punchTimeout : Span
  deriving DecidableEq, Repr

/-- The policy of settings. -/
def Settings.policy (s : Settings) : NodePolicy :=
  ⟨s.window, s.staleGrace, s.behindNat, s.punchTimeout⟩

/-- A node of the overlay. -/
structure Node where
  directory : Directory
  load : LoadRecord
  policy : NodePolicy

namespace Node

def id (n : Node) : NodeId := n.directory.localId

def address (n : Node) : String := n.directory.localAddress

/-- A node with another directory. -/
def withDirectory (n : Node) (d : Directory) : Node := { n with directory := d }

/-- A node with another record of load. -/
def withLoad (n : Node) (c : LoadRecord) : Node := { n with load := c }

end Node

/-- What a node acts in. The state `σ` has the node itself in it, for others may send it
messages while it acts or waits for an answer. -/
structure Surroundings (σ : Type) where
  node : σ → Node
  setNode : Node → σ → σ
  now : σ → Moment
  /-- What others do between two accesses of the node to its own directory. -/
  meanwhile : σ → σ
  /-- Sends a message to an address and waits for the answer. -/
  request : String → Message → σ → Except NetworkError Message × σ
  /-- Sends a message to an address. -/
  notify : String → Message → σ → Except NetworkError Unit × σ
  /-- Drops what is kept of connections to an address. -/
  forget : String → σ → σ
  /-- Punches a way to a port at the host of an address. -/
  punch : String → UInt16 → σ → Except ProtocolError Unit × σ

namespace Surroundings

variable {σ : Type}

/-- The directory of the acting node. -/
def directory (s : Surroundings σ) (state : σ) : Directory := (s.node state).directory

/-- Changes the directory of the acting node. -/
def setDirectory (s : Surroundings σ) (d : Directory) (state : σ) : σ :=
  s.setNode ((s.node state).withDirectory d) state

end Surroundings

end PeerGateway
