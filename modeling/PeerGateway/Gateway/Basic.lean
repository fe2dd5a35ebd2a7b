import PeerGateway.Http.Url
import PeerGateway.Node.Basic
import PeerGateway.Routing

/-!
# Gateways

A gateway answers HTTP requests for a node: some at its interface, others by running them
on its backend or relaying them to a peer. `Outlets` is what it acts in: the node, the
clocks, the application beside it and the network, which delivers requests to other hosts
(`Delivery`) once a client has put them in order (`Outgoing.prepare?`).
-/

namespace PeerGateway

/-- What runs the requests that stay on a node. -/
inductive Backend
  /-- Nothing: all requests are relayed. -/
  | absent
  /-- A server, reached under an address. -/
  | server (address : String)
  /-- An application in the same process. -/
  | application
  deriving DecidableEq, Repr

/-- How a node answers HTTP requests. -/
structure Gateway where
  rule : RelayRule
  /-- How long a relayed request may take. -/
  relayTimeout : Span := .ofSecs 10
  backend : Backend := .absent
  /-- When the gateway was started. -/
  started : Instant

/-- Whether there is a backend. -/
def Gateway.hasBackend (g : Gateway) : Bool := g.backend ≠ .absent

/-- The header field that marks a request which a peer relayed. -/
def fromPeerField : String := "x-gatemesh-from-peer"

/-- Whether a peer relayed a request. -/
def Http.Request.isFromPeer (r : Http.Request) : Bool := r.headers.has fromPeerField

/-- A request to another host. -/
structure Outgoing where
  url : String
  method : String
  headers : Http.Headers
  body : ByteArray
  timeout : Span

/-- The address of a request to another host and the request as it is sent, which says
that any type of answer will do unless it says otherwise; none if it cannot be sent. -/
def Outgoing.prepare? (o : Outgoing) : Option (Http.Url × Http.Request) :=
  match Http.Url.parse? o.url with
  | none => none
  | some url =>
    if url.host.isSendable then
      let headers := if o.headers.has "accept" then o.headers else o.headers.add "accept" "*/*"
      some (url, { method := o.method, target := url.target, headers, body := o.body })
    else none

/-- What the sending of a request to another host came to. -/
inductive Delivery
  | answered (response : Http.Response)
  /-- No connection was made, so nothing was sent. -/
  | unreachable
  | timedOut
  | broken

/-- What a gateway acts in. The state `σ` has its node in it. -/
structure Outlets (σ : Type) where
  node : σ → Node
  setNode : Node → σ → σ
  now : σ → Moment
  /-- Sends a request to a host and waits for the answer, but not longer than a time. -/
  send : Http.Url → Http.Request → Span → σ → Delivery × σ
  /-- Lets the application beside the gateway run a request. There is no answer if the
  client went away before. -/
  run : Http.Request → σ → Option Http.Response × σ

/-- Sends a request to another host. One that may take no time is given up before a
connection is tried. -/
def Outlets.deliver {σ : Type} (s : Outlets σ) (o : Outgoing) (state : σ) : Delivery × σ :=
  match o.prepare? with
  | none => (.broken, state)
  | some (url, request) =>
    if o.timeout = 0 then (.timedOut, state) else s.send url request o.timeout state

end PeerGateway
