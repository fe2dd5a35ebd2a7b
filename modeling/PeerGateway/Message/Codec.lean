import PeerGateway.Message.Basic
import PeerGateway.Schema.Kept

/-!
# The JSON form of messages

A message is an object with a `type` and a `payload`, or a list of the two. The payload's
schema follows from the type (`MessageType.schema`), so a payload that comes before its
type is kept as a JSON value until the type is known. Members of other names are skipped.

`Message.bytes` writes a message and `Message.ofBytes` reads one.
-/

namespace PeerGateway

open Json

/-! ## Schemas of the payloads -/

namespace ProtocolError

/-- The names of the errors on the wire. -/
@[reducible] def names : List String :=
  ["NetworkFull", "PeerNotFound", "InvalidMessage", "NatPunchFailed", "NetworkJoinLoop"]

/-- The error of a name's position. -/
def ofIndex : Fin names.length → ProtocolError
  | 0 => .networkFull
  | 1 => .peerNotFound
  | 2 => .invalidMessage
  | 3 => .natPunchFailed
  | 4 => .networkJoinLoop

/-- The position of an error's name. -/
def index : ProtocolError → Fin names.length
  | .networkFull => 0
  | .peerNotFound => 1
  | .invalidMessage => 2
  | .natPunchFailed => 3
  | .networkJoinLoop => 4

/-- The name of an error on the wire. -/
def name (e : ProtocolError) : String := names.get e.index

end ProtocolError

@[reducible] def Peer.schema : Schema :=
  .record true <|
    .field "node_id" .required .text <|
    .field "address" .required .text <|
    .field "connected" .required .flag .empty

def Peer.ofValue : Peer.schema.Value → Peer
  | (id, address, connected, ()) => ⟨⟨id⟩, address, connected⟩

def Peer.value (p : Peer) : Peer.schema.Value := (p.nodeId.text, p.address, p.connected, ())

@[reducible] def Snapshot.schema : Schema :=
  .record true <|
    .field "node_id" .required .text <|
    .field "address" .required .text <|
    .field "cpu_usage" .required .real <|
    .field "memory_usage" .required .real <|
    .field "requests_per_sec" .required .real <|
    .field "average_latency_ms" .required .real <|
    .field "active_requests" .required .word64 <|
    .field "error_rate" .required .real <|
    .field "timestamp" .required .word64 .empty

def Snapshot.ofValue : Snapshot.schema.Value → Snapshot
  | (id, address, cpu, memory, rps, latency, active, errors, timestamp, ()) =>
    ⟨⟨id⟩, address, cpu, memory, rps, latency, active, errors, timestamp⟩

def Snapshot.value (m : Snapshot) : Snapshot.schema.Value :=
  (m.nodeId.text, m.address, m.cpuUsage, m.memoryUsage, m.requestsPerSec,
    m.averageLatencyMs, m.activeRequests, m.errorRate, m.timestamp, ())

@[reducible] def JoinRequest.schema : Schema :=
  .record true <|
    .field "node_id" .required .text <|
    .field "address" .required .text <|
    .field "visited_nodes" .defaulted (.list .text) <|
    .field "behind_nat" .defaulted .flag .empty

def JoinRequest.ofValue : JoinRequest.schema.Value → JoinRequest
  | (id, address, visited, behindNat, ()) =>
    ⟨⟨id⟩, address, (visited.getD []).map NodeId.mk, behindNat.getD false⟩

def JoinRequest.value (r : JoinRequest) : JoinRequest.schema.Value :=
  (r.nodeId.text, r.address, some (r.visited.map NodeId.text), some r.behindNat, ())

@[reducible] def JoinResponse.schema : Schema :=
  .record true <|
    .field "success" .required .flag <|
    .field "error" .nullable (.choice ProtocolError.names) <|
    .field "alternative_peers" .defaulted (.list Peer.schema) <|
    .field "nat_port" .nullable .word16 <|
    .field "node_id" .required .text <|
    .field "address" .required .text .empty

def JoinResponse.ofValue : JoinResponse.schema.Value → JoinResponse
  | (success, error, alternatives, natPort, id, address, ()) =>
    ⟨success, error.map ProtocolError.ofIndex, (alternatives.getD []).map Peer.ofValue,
      natPort, ⟨id⟩, address⟩

def JoinResponse.value (r : JoinResponse) : JoinResponse.schema.Value :=
  (r.success, r.error.map ProtocolError.index, some (r.alternatives.map Peer.value),
    r.natPort, r.nodeId.text, r.address, ())

@[reducible] def Heartbeat.schema : Schema :=
  .record true <|
    .field "node_id" .required .text <|
    .field "timestamp" .required .word64 .empty

def Heartbeat.ofValue : Heartbeat.schema.Value → Heartbeat
  | (id, timestamp, ()) => ⟨⟨id⟩, timestamp⟩

def Heartbeat.value (b : Heartbeat) : Heartbeat.schema.Value := (b.nodeId.text, b.timestamp, ())

/-- A departure is an object only, never a list. -/
@[reducible] def Message.leaveSchema : Schema :=
  .record false <| .field "node_id" .required .text .empty

namespace MessageType

/-- The kinds as they are named in a message. -/
@[reducible] def tags : List String :=
  ["JoinRequest", "JoinResponse", "Metrics", "Ping", "Pong", "Leave"]

/-- The kind of a tag's position. -/
def ofIndex : Fin tags.length → MessageType
  | 0 => .joinRequest
  | 1 => .joinResponse
  | 2 => .metrics
  | 3 => .ping
  | 4 => .pong
  | 5 => .leave

/-- The position of a kind's tag. -/
def index : MessageType → Fin tags.length
  | .joinRequest => 0
  | .joinResponse => 1
  | .metrics => 2
  | .ping => 3
  | .pong => 4
  | .leave => 5

/-- The tag of a kind. -/
def tag (t : MessageType) : String := tags.get t.index

/-- The schema of the payload of a kind of message. -/
@[reducible] def schema : MessageType → Schema
  | .joinRequest => JoinRequest.schema
  | .joinResponse => JoinResponse.schema
  | .metrics => Snapshot.schema
  | .ping => Heartbeat.schema
  | .pong => Heartbeat.schema
  | .leave => Message.leaveSchema

end MessageType

namespace Message

/-- The message of a kind with a given payload. -/
def ofPayload : (t : MessageType) → t.schema.Value → Message
  | .joinRequest, v => .joinRequest (.ofValue v)
  | .joinResponse, v => .joinResponse (.ofValue v)
  | .metrics, v => .metrics (.ofValue v)
  | .ping, v => .ping (.ofValue v)
  | .pong, v => .pong (.ofValue v)
  | .leave, (id, ()) => .leave ⟨id⟩

/-- The payload of a message. -/
def payload : (m : Message) → m.type.schema.Value
  | .joinRequest r => r.value
  | .joinResponse r => r.value
  | .metrics m => m.value
  | .ping b => b.value
  | .pong b => b.value
  | .leave id => (id.text, ())

/-! ## Writing and reading -/

/-- The JSON text of a message. -/
def bytes (m : Message) : Bytes :=
  Json.braced [Json.memberText "type" (Json.quoted m.type.tag),
    Json.memberText "payload" (m.type.schema.bytes m.payload)]

/-- Reads a message's kind as the member of an object: a choice of the tags. -/
def readTag (bound : Nat) (s : Bytes) : Except Fault (MessageType × Bytes) :=
  match Schema.readChoice MessageType.tags bound s with
  | .error f => .error f
  | .ok (i, s) => .ok (.ofIndex i, s)

/-- Reads a message's kind as the element of a list: a string that is one of the tags. -/
def readListedTag (bound : Nat) (s : Bytes) : Except Fault (MessageType × Bytes) :=
  match Schema.readText bound s with
  | .error f => .error f
  | .ok (name, s) =>
    match MessageType.tags.finIdxOf? name with
    | some i => .ok (.ofIndex i, s)
    | none => .error .mismatched

/-- Reads the payload of a kind of message. -/
def readPayload (bound : Nat) (t : MessageType) (s : Bytes) : Except Fault (Message × Bytes) :=
  match t.schema.read bound s with
  | .error f => .error f
  | .ok (v, s) => .ok (ofPayload t v, s)

/-- A member of a message's object that has a meaning. -/
inductive Part
  | type
  | payload
  deriving DecidableEq

/-- The part of a member's name. -/
def Part.ofName? (name : String) : Option Part :=
  if name = "type" then some .type else if name = "payload" then some .payload else none

/-- Moves to the next member that has a meaning, skipping others, up to its colon. -/
def nextPart (bound : Nat) : Nat → Bool → Bytes → Except Fault (Option Part × Bytes)
  | 0, _, _ => .error .malformed
  | fuel + 1, first, s =>
    match nextMember bound first s with
    | .error f => .error f
    | .ok none => .ok (none, s)
    | .ok (some (name, s)) =>
      match Part.ofName? name with
      | some p => .ok (some p, s)
      | none =>
        match colon s with
        | .error f => .error f
        | .ok s =>
          match skipValue bound s with
          | .error f => .error f
          | .ok s => nextPart bound fuel false s

/-- Ends a message's object; neither part may come again. -/
def finishObject (bound : Nat) (m : Message) (s : Bytes) : Except Fault (Message × Bytes) :=
  match nextPart bound (bound + 1) false s with
  | .error f => .error f
  | .ok (some _, _) => .error .mismatched
  | .ok (none, s) =>
    match closeObject s with
    | .error f => .error f
    | .ok s => .ok (m, s)

/-- Reads a message's object from the value of its type on. -/
def readTypeFirst (bound : Nat) (s : Bytes) : Except Fault (Message × Bytes) :=
  match colon s with
  | .error f => .error f
  | .ok s =>
    match readTag bound s with
    | .error f => .error f
    | .ok (t, s) =>
      match nextPart bound (bound + 1) false s with
      | .error f => .error f
      | .ok (some .payload, s) =>
        match colon s with
        | .error f => .error f
        | .ok s =>
          match readPayload bound t s with
          | .error f => .error f
          | .ok (m, s) => finishObject bound m s
      | .ok (_, _) => .error .mismatched

/-- Reads a message's object from the value of its payload on. -/
def readPayloadFirst (bound : Nat) (s : Bytes) : Except Fault (Message × Bytes) :=
  match colon s with
  | .error f => .error f
  | .ok s =>
    match Json.read bound (depthLimit - 1) s with
    | .error f => .error f
    | .ok (kept, s) =>
      match nextPart bound (bound + 1) false s with
      | .error f => .error f
      | .ok (some .type, s) =>
        match colon s with
        | .error f => .error f
        | .ok s =>
          match readTag bound s with
          | .error f => .error f
          | .ok (t, s) =>
            match t.schema.ofJson? kept with
            | none => .error .mismatched
            | some v => finishObject bound (ofPayload t v) s
      | .ok (_, _) => .error .mismatched

/-- Reads a message's list after its opening bracket. -/
def readList (bound : Nat) (s : Bytes) : Except Fault (Message × Bytes) :=
  match nextElement true s with
  | .error f => .error f
  | .ok none => .error .mismatched
  | .ok (some s) =>
    match readListedTag bound s with
    | .error f => .error f
    | .ok (t, s) =>
      match nextElement false s with
      | .error f => .error f
      | .ok none => .error .mismatched
      | .ok (some s) =>
        match readPayload bound t s with
        | .error f => .error f
        | .ok (m, s) =>
          match closeList s with
          | .error f => .error f
          | .ok s => .ok (m, s)

/-- Reads a message from the front of a text. -/
def read (bound : Nat) (s : Bytes) : Except Fault (Message × Bytes) :=
  match skipBlank s with
  | [] => .error .ended
  | b :: rest =>
    if b = Bytes.ascii '[' then readList bound rest
    else if b = Bytes.ascii '{' then
      match nextPart bound (bound + 1) true rest with
      | .error f => .error f
      | .ok (none, _) => .error .mismatched
      | .ok (some .type, s) => readTypeFirst bound s
      | .ok (some .payload, s) => readPayloadFirst bound s
    else .error (Schema.mismatchAt bound (b :: rest))

/-- Reads a message. -/
def ofBytes (s : Bytes) : Except Fault Message := whole (read s.length) s

end Message

end PeerGateway
