import PeerGateway.Gateway.Service

/-!
# Requests under way

Many requests are under way at a node at one time. Each begins when its task is first run: it is
entered in the node's record of load, and a guard (`InFlight`) stands for the entry. The guard
completes the entry when there is an answer. When the guard goes and has not done so, for the
task was dropped while it waited, it completes the entry as an error.

`Tracking` is a node with all requests that came in, and `Tracking.Event` is what may happen next:
something to one of the requests, or anything else that the node does meanwhile.
`Gateway.handle` is the life of one request.
-/

namespace PeerGateway

open Http

/-- Stands for the entry of a request that is under way. -/
structure InFlight where
  token : String
  done : Bool := false
  deriving DecidableEq, Repr

namespace InFlight

/-- Completes the request. -/
def finish (g : InFlight) (isError : Bool) (now : WallTime) (n : Node) : InFlight × Node :=
  ({ g with done := true }, n.withLoad (n.load.finish g.token isError now))

/-- What a guard that goes does to the node. -/
def release (g : InFlight) (now : WallTime) (n : Node) : Node :=
  if g.done then n else (g.finish true now n).2

end InFlight

/-- The time of a request that has begun and ended. -/
structure Lifetime where
  began : WallTime
  ended : WallTime
  /-- There is none if the task was dropped. -/
  answer : Option Response

/-- How far a request has come. -/
inductive TrackedRequest.Stage
  /-- Its task was not run yet. -/
  | waiting
  /-- Its handler runs or waits. -/
  | running (began : WallTime) (guard : InFlight)
  /-- It was answered, and its task is still there. -/
  | answered (life : Lifetime) (guard : InFlight)
  /-- Its task is gone. There is no lifetime if it was never run. -/
  | gone (life : Option Lifetime)

/-- A request with its task. -/
structure TrackedRequest where
  token : String
  request : Request
  stage : TrackedRequest.Stage := .waiting

/-- A node and the requests that came in, in order. -/
structure Tracking where
  node : Node
  requests : List TrackedRequest := []

namespace Tracking

/-- What happens to a node and its requests. A request is told by its place. -/
inductive Event
  | arrives (token : String) (request : Request)
  /-- The task of a request is run for the first time. -/
  | begins (k : Nat) (now : WallTime)
  /-- The handler of a request returns. -/
  | returns (k : Nat) (answer : Response) (now : WallTime)
  /-- The task of a request goes: it is over, or it is dropped before. -/
  | goes (k : Nat) (now : WallTime)
  /-- The snapshot of a peer is taken in. -/
  | updates (m : Snapshot) (latency : Span) (now : WallTime)
  | purges (now : WallTime)
  /-- The directory changes. -/
  | directs (d : Directory)

/-- A tracking with its node in another state. -/
def withNode (x : Tracking) (n : Node) : Tracking := { x with node := n }

/-- A tracking with a request at another stage. -/
def setStage (x : Tracking) (k : Nat) (stage : TrackedRequest.Stage) : Tracking :=
  { x with requests := x.requests.modify k ({ · with stage }) }

/-- What happens to a node and its requests. -/
def step (x : Tracking) : Event → Tracking
  | .arrives token request => { x with requests := x.requests ++ [{ token, request }] }
  | .begins k now =>
    match x.requests[k]? with
    | some ⟨token, request, .waiting⟩ =>
      (x.withNode (Gateway.begun x.node token request now)).setStage k (.running now { token })
    | _ => x
  | .returns k answer now =>
    match x.requests[k]? with
    | some ⟨_, _, .running began guard⟩ =>
      let (guard, n) := guard.finish answer.isError now x.node
      (x.withNode n).setStage k (.answered ⟨began, now, some answer⟩ guard)
    | _ => x
  | .goes k now =>
    match x.requests[k]? with
    | some ⟨_, _, .waiting⟩ => x.setStage k (.gone none)
    | some ⟨_, _, .running began guard⟩ =>
      (x.withNode (guard.release now x.node)).setStage k (.gone (some ⟨began, now, none⟩))
    | some ⟨_, _, .answered life guard⟩ =>
      (x.withNode (guard.release now x.node)).setStage k (.gone (some life))
    | _ => x
  | .updates m latency now => x.withNode (x.node.withLoad (x.node.load.update m latency now))
  | .purges now => x.withNode (x.node.withLoad (x.node.load.purge now))
  | .directs d => x.withNode (x.node.withDirectory d)

/-- The node and its requests after all that happens. -/
def after (x : Tracking) (events : List Event) : Tracking := events.foldl step x

end Tracking

end PeerGateway
