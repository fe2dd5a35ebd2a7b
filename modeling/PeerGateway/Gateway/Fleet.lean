import PeerGateway.Gateway.Service

/-!
# Gateways that relay to each other

A request that a gateway relays may arrive at another gateway, which answers it or relays it on.
`Fleet` is what decides the rest : where a request goes that is sent to a host, what becomes of the
answer, what the backends answer, and what the nodes are, which others may change at any time.

`Fleet.visit` follows a request from one gateway to the next, over a bounded number of them, and
keeps a record of who sent it on and who let a backend run it (`Deed`). A client that follows an
answer to another place sends a request of its own, which is not part of the way of the first.
-/

namespace PeerGateway

open Http

/-- What came back to a gateway that had sent a request on. -/
inductive Return
  | answered (response : Response)
  /-- No answer came in time. -/
  | late
  /-- The connection broke, or what came was no answer. -/
  | broken

/-- What a request that was sent came to. -/
def Return.delivery : Return → Delivery
  | .answered response => .answered response
  | .late => .timedOut
  | .broken => .broken

/-- Where a request went that was sent to a host. -/
inductive Passage (ι : Type)
  /-- Nowhere, for no connection was made. -/
  | refused
  /-- To a host that is no gateway of the fleet, or it was lost. -/
  | strays (back : Return)
  /-- To a gateway, which enters it under a token. Fields may have been added to its header. -/
  | arrives (place : ι) (token : String) (added : Headers)

/-- What was done with a request. -/
inductive Deed (ι : Type)
  /-- A node sent it to a peer, or tried to. -/
  | forwarded (place : ι) (sender : NodeId) (request : Request)
  /-- The backend beside a gateway got it to run. -/
  | served (place : ι) (request : Request)

namespace Deed

variable {ι : Type}

def isForwarded : Deed ι → Bool
  | .forwarded .. => true
  | .served .. => false

def isServed : Deed ι → Bool
  | .forwarded .. => false
  | .served .. => true

end Deed

/-- Gateways at places, and what they act in. -/
structure Fleet (ι σ : Type) where
  gateway : ι → Gateway
  node : ι → σ → Node
  setNode : ι → Node → σ → σ
  now : ι → σ → Moment
  /-- Where a request goes that a gateway sends to a host, to wait for the answer no longer than a
  time. -/
  passage : ι → Url → Request → Span → σ → Passage ι × σ
  /-- What comes back to a gateway from another one, which gave an answer or was left before. -/
  wayBack : ι → ι → Option Response → Span → σ → Return × σ
  /-- The network between a gateway and the server that is its backend. -/
  upstream : ι → Url → Request → Span → σ → Delivery × σ
  /-- The application that is the backend of a gateway. -/
  application : ι → Request → σ → Option Response × σ

/-- A gateway whose backend, if it has one, is an application. -/
def Gateway.fronting (g : Gateway) : Gateway :=
  { g with backend := if g.hasBackend then .application else .absent }

/-- What a gateway acts in, with its backend as the application. -/
def Outlets.fronting {σ : Type} (s : Outlets σ) (g : Gateway) : Outlets σ :=
  { s with run := Gateway.serve s g }

namespace Fleet

variable {ι σ : Type} (w : Fleet ι σ)

/-- What the backend of a gateway acts in. -/
def behind (p : ι) : Outlets σ where
  node := w.node p
  setNode := w.setNode p
  now := w.now p
  send := w.upstream p
  run := w.application p

/-- What gateways do with requests that arrive. -/
abbrev Visits (ι σ : Type) : Type :=
  ι → String → Request → σ × List (Deed ι) → Option Response × (σ × List (Deed ι))

/-- Sends a request of a gateway to a host. -/
def send (next : Visits ι σ) (p : ι) (url : Url) (request : Request) (timeout : Span)
    (x : σ × List (Deed ι)) : Delivery × (σ × List (Deed ι)) :=
  let deeds := x.2 ++ [.forwarded p (w.node p x.1).load.nodeId request]
  match w.passage p url request timeout x.1 with
  | (.refused, state) => (.unreachable, (state, deeds))
  | (.strays back, state) => (back.delivery, (state, deeds))
  | (.arrives q token added, state) =>
    let (answer, x) :=
      next q token { request with headers := request.headers ++ added } (state, deeds)
    let (back, state) := w.wayBack p q answer timeout x.1
    (back.delivery, (state, x.2))

/-- What a gateway acts in, with a record of what was done with the request. -/
def outlets (next : Visits ι σ) (p : ι) : Outlets (σ × List (Deed ι)) where
  node x := w.node p x.1
  setNode n x := (w.setNode p n x.1, x.2)
  now x := w.now p x.1
  send := w.send next p
  run request x :=
    let (answer, state) := Gateway.serve (w.behind p) (w.gateway p) request x.1
    (answer, (state, x.2 ++ [.served p request]))

/-- Lets a gateway handle a request that arrives at it, and others that it is relayed to, but no
more than a number of them on its way. -/
def visit : Nat → Visits ι σ
  | 0 => fun _ _ _ x => (none, x)
  | n + 1 => fun p token request x =>
    Gateway.handle (w.outlets (visit n) p) (w.gateway p).fronting token request x

end Fleet

end PeerGateway
