import PeerGateway.Gateway.Interface
import PeerGateway.Gateway.Relay

/-!
# Answering requests

`Gateway.handle` answers a request in the surroundings of a gateway. The request is
entered in the node's record of load before anything else happens to it and completed at
the end, as an error if its status says so or if the client went away (`Gateway.begun`,
`Gateway.ended`). In between, questions about what is allowed across origins are answered
for every path, endpoints of the interface for their methods, and all else goes where
`Gateway.plan` says.

`dressed` gives every answer the header fields for other origins.
-/

namespace PeerGateway

open Http

namespace Gateway

/-! ## Accounting -/

/-- A node with a request entered under a token that no other request has. -/
def begun (n : Node) (token : String) (r : Request) (now : WallTime) : Node :=
  n.withLoad <| n.load.start
    { id := token, startTime := now, method := r.method, path := r.target.pathText
      fromPeer := r.isFromPeer }

/-- A node with a request completed, which got an answer or got none. -/
def ended (n : Node) (token : String) (answer : Option Response) (now : WallTime) : Node :=
  let isError := match answer with
    | some r => r.isError
    | none => true
  n.withLoad (n.load.finish token isError now)

/-! ## Answers for other origins -/

/-- The answer to a question about what is allowed. -/
def preflight : Response where
  status := 200
  headers := [("access-control-allow-methods", "*"), ("access-control-allow-headers", "*")]

/-- An answer with the header fields that every answer has. -/
def dressed (r : Response) : Response :=
  let asked := "origin, access-control-request-method, access-control-request-headers"
  { r with headers := (r.headers.set "access-control-allow-origin" "*").add "vary" asked }

/-- An answer without its body where the method asks for none. -/
def bodiless (method : String) (r : Response) : Response :=
  if method = "HEAD" || (method = "CONNECT" && r.isSuccess) then { r with body := .empty } else r

/-- An answer with the methods of the endpoint. -/
def allowing (endpoint : Option Endpoint) (r : Response) : Response :=
  match endpoint with
  | some e => { r with headers := r.headers.add "allow" e.allowed }
  | none => r

/-- The answer to a method that an endpoint does not take. -/
def methodNotAllowed (e : Endpoint) : Response := allowing (some e) { status := 405 }

/-! ## Running -/

variable {σ : Type}

/-- Lets the backend run a request. -/
def serve (s : Outlets σ) (g : Gateway) (r : Request) (state : σ) : Option Response × σ :=
  match g.backend with
  | .absent => (some noBackend, state)
  | .application => s.run r state
  | .server address =>
    match Backend.outgoing? address r g.relayTimeout with
    | none => (some Backend.unavailable, state)
    | some outgoing =>
      let (delivery, state) := s.deliver outgoing state
      (some (Backend.answer delivery), state)

/-- Finds the answer of a request that is not relayed. -/
def settle (s : Outlets σ) (g : Gateway) (x : Settlement) (state : σ) : Option Response × σ :=
  match x with
  | .answer r => (some r, state)
  | .serve r => serve s g r state

/-- Finds the answer to a request that is not for the interface. -/
def carry (s : Outlets σ) (g : Gateway) (r : Request) (state : σ) : Option Response × σ :=
  match g.plan (s.node state) r (s.now state) with
  | .settle x => settle s g x state
  | .relay relay =>
    let outgoing := relay.outgoing (s.node state).load.nodeId g.relayTimeout
    let (delivery, state) := s.deliver outgoing state
    settle s g (g.relayed relay delivery) state

/-- Finds the answer to a request. -/
def respond (s : Outlets σ) (g : Gateway) (r : Request) (state : σ) : Option Response × σ :=
  let endpoint := Endpoint.ofPath? r.target.pathText
  if r.method = "OPTIONS" then (some (allowing endpoint preflight), state)
  else
    match endpoint with
    | none => carry s g r state
    | some e =>
      if e.methods.contains r.method then
        let (n, answer) := g.ask (s.node state) e r.method (s.now state)
        (some answer, s.setNode n state)
      else (some (methodNotAllowed e), state)

/-- Answers a request, which is entered under a token. There is no answer if the client
went away. -/
def handle (s : Outlets σ) (g : Gateway) (token : String) (r : Request) (state : σ) :
    Option Response × σ :=
  let state := s.setNode (begun (s.node state) token r (s.now state).wall) state
  let (answer, state) := respond s g r state
  let state := s.setNode (ended (s.node state) token answer (s.now state).wall) state
  (answer.map fun a => dressed (bodiless r.method a), state)

end Gateway

end PeerGateway
