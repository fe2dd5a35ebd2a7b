import PeerGateway.Time

/-!
# Messages of the overlay

The six messages that gateway nodes exchange, what they carry, and the errors that a
join can be refused with. `Message.type` is a message's kind; its payload's JSON form is
in `Message.Codec`.
-/

namespace PeerGateway

/-- The identifier of a node, ordered as its text. -/
structure NodeId where
  text : String
  deriving DecidableEq, Hashable, Repr, Inhabited

namespace NodeId

instance : Ord NodeId := ⟨fun a b => compare a.text b.text⟩

instance : Std.TransOrd NodeId where
  eq_swap := Std.OrientedOrd.eq_swap (α := String)
  isLE_trans := Std.TransOrd.isLE_trans (α := String)

instance : Std.LawfulEqOrd NodeId where
  compare_self := Std.ReflOrd.compare_self (α := String)
  eq_of_compare {a b} h := by
    cases a; cases b
    exact congrArg NodeId.mk (Std.LawfulEqOrd.eq_of_compare (α := String) h)

end NodeId

/-- A node as others know it: its overlay address and whether it is connected. -/
structure Peer where
  nodeId : NodeId
  address : String
  connected : Bool := false
  deriving DecidableEq, Repr

/-- The load of one node at one time, sent and replaced as a whole. Usages and the error
rate are percentages; the address is the one its HTTP requests go to. -/
structure Snapshot where
  nodeId : NodeId
  address : String
  cpuUsage : Binary64
  memoryUsage : Binary64
  requestsPerSec : Binary64
  averageLatencyMs : Binary64
  activeRequests : UInt64
  errorRate : Binary64
  timestamp : UInt64
  deriving DecidableEq

/-- Why a join or a message was refused, as said on the wire. -/
inductive ProtocolError
  | networkFull
  | peerNotFound
  | invalidMessage
  | natPunchFailed
  | networkJoinLoop
  deriving DecidableEq, Repr

namespace ProtocolError

/-- The error in words. -/
def text : ProtocolError → String
  | .networkFull => "network is full"
  | .peerNotFound => "peer not found"
  | .invalidMessage => "invalid message"
  | .natPunchFailed => "NAT punch failed"
  | .networkJoinLoop => "join request looped back"

end ProtocolError

/-- Asks to become a peer. `visited` are the nodes that the joiner has been to. -/
structure JoinRequest where
  nodeId : NodeId
  address : String
  visited : List NodeId := []
  behindNat : Bool := false
  deriving DecidableEq, Repr

/-- The answer to a join request: whether the joiner was taken in, other peers that it
may ask, and the port to punch to if the answering node opened one. -/
structure JoinResponse where
  success : Bool
  error : Option ProtocolError
  alternatives : List Peer
  natPort : Option UInt16
  nodeId : NodeId
  address : String
  deriving DecidableEq, Repr

/-- The body of a ping and of the pong that echoes its timestamp. -/
structure Heartbeat where
  nodeId : NodeId
  timestamp : UInt64
  deriving DecidableEq, Repr

/-- A message between two nodes. -/
inductive Message
  | joinRequest (request : JoinRequest)
  | joinResponse (response : JoinResponse)
  | metrics (snapshot : Snapshot)
  | ping (beat : Heartbeat)
  | pong (beat : Heartbeat)
  | leave (nodeId : NodeId)
  deriving DecidableEq

/-- The kind of a message. -/
inductive MessageType
  | joinRequest
  | joinResponse
  | metrics
  | ping
  | pong
  | leave
  deriving DecidableEq, Repr

namespace MessageType

/-- The kind as it is named in errors. -/
def name : MessageType → String
  | .joinRequest => "join_request"
  | .joinResponse => "join_response"
  | .metrics => "metrics"
  | .ping => "ping"
  | .pong => "pong"
  | .leave => "leave"

end MessageType

/-- The kind of a message. -/
def Message.type : Message → MessageType
  | .joinRequest _ => .joinRequest
  | .joinResponse _ => .joinResponse
  | .metrics _ => .metrics
  | .ping _ => .ping
  | .pong _ => .pong
  | .leave _ => .leave

/-- A failure of reading, writing or connecting below the messages. -/
inductive IoFault
  /-- No route to the address. -/
  | networkUnreachable
  /-- The address has no port. -/
  | badSocketAddress
  /-- The address ends in what is no port. -/
  | badPort
  /-- The host of the address has no known number. -/
  | unresolved
  /-- A frame is longer than is allowed. -/
  | frameTooBig
  /-- The stream ended inside a frame. -/
  | bytesRemaining
  /-- Another failure, in words. -/
  | other (reason : String)
  deriving DecidableEq, Repr

/-- The failure in words. -/
def IoFault.text : IoFault → String
  | .networkUnreachable => "Network is unreachable (os error 101)"
  | .badSocketAddress => "invalid socket address"
  | .badPort => "invalid port value"
  | .unresolved => "failed to lookup address information: Temporary failure in name resolution"
  | .frameTooBig => "frame size too big"
  | .bytesRemaining => "bytes remaining on stream"
  | .other reason => reason

/-- Why a request to another node failed. -/
inductive NetworkError
  | protocol (kind : ProtocolError)
  | timeout (after : Span)
  | io (fault : IoFault)
  | closed (address : String)
  | unexpectedReply (expected got : MessageType)
  deriving DecidableEq, Repr

namespace NetworkError

/-- The error in words. -/
def text : NetworkError → String
  | .protocol kind => kind.text
  | .timeout d => "timed out after " ++ Span.text d
  | .io fault => "i/o error: " ++ fault.text
  | .closed address => "connection to " ++ address ++ " closed"
  | .unexpectedReply expected got =>
    "unexpected reply: expected " ++ expected.name ++ ", got " ++ got.name

/-- The protocol error behind a failure, if it is one. -/
def kind? : NetworkError → Option ProtocolError
  | .protocol kind => some kind
  | .unexpectedReply _ _ => some .invalidMessage
  | _ => none

end NetworkError

/-! ## Constructions -/

/-- The answer that takes a joiner in. -/
def JoinResponse.accepted (nodeId : NodeId) (address : String) (alternatives : List Peer) :
    JoinResponse :=
  ⟨true, none, alternatives, none, nodeId, address⟩

/-- The answer that turns a joiner away. -/
def JoinResponse.rejected (nodeId : NodeId) (address : String) (error : ProtocolError)
    (alternatives : List Peer) : JoinResponse :=
  ⟨false, some error, alternatives, none, nodeId, address⟩

end PeerGateway
