import PeerGateway.Gateway.Basic

/-!
# Relaying

A request that is not for the interface runs on the backend or goes to a peer.
`Gateway.plan` decides which, and `Gateway.relayed` goes on once the relay has come to
something: only a peer that could not be reached leaves the request to the backend, for
any other peer may have run it. `Relay.outgoing` is what is sent to the peer, marked so
that it relays the request no further.

A backend that is a server of its own gets requests through `Backend.outgoing?`.
-/

namespace PeerGateway

open Http

/-- The most bytes of a body that is sent on. -/
def maxRelayedBody : Nat := 16 * 1024 * 1024

/-- Header fields that concern one connection only. -/
def hopFields : List String := ["host", "connection", "content-length", "transfer-encoding"]

/-- The path and query of a request below the address of another host. -/
def Http.Request.urlAt (r : Http.Request) (base : String) : String := base ++ r.target.pathAndQuery

/-- An answer of another host as it is passed on. -/
def passedOn (r : Response) : Response := { r with headers := r.headers.without hopFields }

/-- A request on its way to a peer. -/
structure Relay where
  peer : NodeId
  /-- The HTTP address of the peer. -/
  address : String
  request : Request

/-- What a node sends to the peer. It is marked with the node's identifier, if that can be
the value of a header field. -/
def Relay.outgoing (relay : Relay) (sender : NodeId) (timeout : Span) : Outgoing :=
  let headers := relay.request.headers.without hopFields
  { url := relay.request.urlAt ("http://" ++ relay.address)
    method := relay.request.method
    headers :=
      if Headers.isValue sender.text then headers.set fromPeerField sender.text else headers
    body := relay.request.body
    timeout }

/-- What becomes of a request that is not relayed, or not any more. -/
inductive Settlement
  | answer (response : Response)
  /-- The backend runs it. -/
  | serve (request : Request)

/-- What becomes of a request. -/
inductive Plan
  | settle (settlement : Settlement)
  | relay (relay : Relay)

namespace Gateway

/-- The answer when there is nothing to run a request. -/
def noBackend : Response := .ofText 503 "no backend available"

/-- Leaves a request to the backend, if there is one. -/
def keep (g : Gateway) (r : Request) : Settlement :=
  if g.hasBackend then .serve r else .answer noBackend

/-- The best connected peer, if it has told its HTTP address. -/
def fallbackPeer (n : Node) : Option (NodeId × String) :=
  match select n.directory n.load with
  | .here => none
  | .peer id =>
    match n.load.snapshotOf? id with
    | some m => if m.address.isEmpty then none else some (id, m.address)
    | none => none

/-- The peer that a request goes to, with its address. A node without a backend sends all
requests to its best peer, except those that a peer relayed. -/
def relayTarget (g : Gateway) (n : Node) (r : Request) (now : Moment) :
    Option (NodeId × String) :=
  match g.rule.route n.directory n.load r.isFromPeer now.wall with
  | .forward id address => some (id, address)
  | .here => if !g.hasBackend && !r.isFromPeer then fallbackPeer n else none

/-- The answer to a request whose body is too large to be relayed. -/
def bodyTooLarge : Response := .ofText 413 "request body: length limit exceeded"

/-- What becomes of a request that is not for the interface. -/
def plan (g : Gateway) (n : Node) (r : Request) (now : Moment) : Plan :=
  match g.relayTarget n r now with
  | none => .settle (g.keep r)
  | some (peer, address) =>
    if maxRelayedBody < r.body.size then
      .settle (.answer bodyTooLarge)
    else .relay ⟨peer, address, r⟩

/-- The answer when a relay failed after the request was sent. -/
def relayFailed (status : Nat) : Response := .ofText status "relay failed"

/-- What becomes of a request once its relay has come to something. -/
def relayed (g : Gateway) (relay : Relay) : Delivery → Settlement
  | .answered response => .answer (passedOn response)
  | .unreachable => g.keep relay.request
  | .timedOut => .answer (relayFailed 504)
  | .broken => .answer (relayFailed 502)

end Gateway

namespace Backend

/-- An address without slashes at its end. -/
def base (address : String) : String :=
  String.ofList (address.toList.reverse.dropWhile (· = '/')).reverse

/-- What is sent to the server under an address; none if the body is too large. -/
def outgoing? (address : String) (r : Request) (timeout : Span) : Option Outgoing :=
  if maxRelayedBody < r.body.size then none
  else some
    { url := r.urlAt (base address)
      method := r.method
      headers := (r.headers.without hopFields).without [fromPeerField]
      body := r.body
      timeout }

/-- The answer when the server gave none. -/
def unavailable : Response := .ofText 502 "upstream unavailable"

/-- The answer after a delivery to the server. -/
def answer : Delivery → Response
  | .answered response => passedOn response
  | _ => unavailable

end Backend

end PeerGateway
