import PeerGateway.Node.Responder
import PeerGateway.Node.Round

/-!
# A node with all that it has under way

A node answers messages and sees to its holes while heartbeat rounds and a join walk of its own are
under way. `Activity` is a node with its holes and rounds, and `Activity.Event` is what may happen
next in any of them: the exchanges of a round go on at the same time, and their answers arrive in
any order. A round ends once all its exchanges are over.

A joiner whose hole cannot be opened is given up at once (`unopened`). If other things happen before
that, it is a message and a hole that is given up later.
-/

namespace PeerGateway

/-- How far the exchange with a peer has come. -/
inductive Exchange.Stage
  /-- The ping is still to be sent. -/
  | due
  /-- The ping was sent at an instant, and its answer is awaited. -/
  | pinged (sentAt : Instant)
  /-- The ping was answered, and the answer to the snapshot is awaited. -/
  | trading (roundTrip : Span)
  | over
  deriving DecidableEq, Repr

/-- An exchange of a round. -/
structure OngoingExchange where
  peer : Peer
  stage : Exchange.Stage
  deriving DecidableEq, Repr

/-- A node with its holes and its heartbeat rounds. -/
structure Activity extends Responder where
  /-- The exchanges of the rounds that were begun, in order. A round that has ended has none. -/
  rounds : List (Option (List OngoingExchange)) := []

namespace Activity

/-- What happens to a node. A round, and an exchange of it, is told by its place. -/
inductive Event
  /-- A message comes, or a hole comes to something. -/
  | happens (event : Happening)
  /-- A join request comes while no hole can be opened. -/
  | unopened (request : JoinRequest) (now : Moment)
  /-- A round begins with all peers that are connected or stale. -/
  | roundBegins
  /-- The ping of an exchange is sent. -/
  | pings (round exchange : Nat) (now : Instant)
  /-- The answer to a ping arrives, or there is none. -/
  | ponged (round exchange : Nat) (reply : Except NetworkError Message) (now : Moment)
  /-- The answer to a snapshot arrives, or there is none. -/
  | traded (round exchange : Nat) (reply : Except NetworkError Message) (now : Moment)
  | roundEnds (round : Nat) (now : Moment)
  /-- A walk keeps a place for a candidate. -/
  | reserves (peer : Peer) (now : Instant)
  /-- A walk places a peer that took the node in. -/
  | places (peer : Peer) (now : Instant)
  /-- A walk confirms a peer that it has placed. -/
  | confirms (id : NodeId) (now : Instant)
  /-- A walk gives a place back. -/
  | releases (id : NodeId)
  /-- An operator takes a peer out. -/
  | drops (id : NodeId)

/-- An activity with its node in another state. -/
def withNode (x : Activity) (n : Node) : Activity := { x with node := n }

/-- An activity with another directory, unless that was refused. -/
def withDirectory (x : Activity) : Except ProtocolError Directory → Activity
  | .ok d => x.withNode (x.node.withDirectory d)
  | .error _ => x

/-- The exchanges of a round that is under way. -/
def round? (x : Activity) (k : Nat) : Option (List OngoingExchange) := (x.rounds[k]?).join

/-- An exchange of a round that is under way. -/
def exchange? (x : Activity) (k i : Nat) : Option OngoingExchange := (x.round? k).bind (·[i]?)

/-- An activity with an exchange at another stage. -/
def setStage (x : Activity) (k i : Nat) (stage : Exchange.Stage) : Activity :=
  { x with rounds := x.rounds.modify k (·.map (·.modify i ({ · with stage }))) }

/-- What happens to a node, and to what it has under way. -/
def step (x : Activity) : Event → Activity
  | .happens e => { x with toResponder := x.toResponder.step e }
  | .unopened r now => x.withNode (x.node.receive (.joinRequest r) none now).node
  | .roundBegins =>
    { x with rounds := x.rounds ++ [some (x.node.directory.known.map (⟨·, .due⟩))] }
  | .pings k i now =>
    match x.exchange? k i with
    | some ⟨_, .due⟩ => x.setStage k i (.pinged now)
    | _ => x
  | .ponged k i reply now =>
    match x.exchange? k i with
    | some ⟨peer, .pinged sentAt⟩ =>
      match Exchange.ponged peer sentAt reply x.node now with
      | (.ok roundTrip, n) => (x.withNode n).setStage k i (.trading roundTrip)
      | (.error _, n) => (x.withNode n).setStage k i .over
    | _ => x
  | .traded k i reply now =>
    match x.exchange? k i with
    | some ⟨peer, .trading roundTrip⟩ =>
      (x.withNode (Exchange.traded peer roundTrip reply x.node now).2).setStage k i .over
    | _ => x
  | .roundEnds k now =>
    match x.round? k with
    | some exchanges =>
      if exchanges.all fun c => c.stage = .over then
        { x.withNode (x.node.closeRound (exchanges.map (·.peer)) now).1 with
          rounds := x.rounds.set k none }
      else x
    | none => x
  | .reserves peer now => x.withDirectory (x.node.directory.reserve peer now)
  | .places peer now => x.withDirectory (x.node.directory.place peer .connected now)
  | .confirms id now => x.withDirectory (x.node.directory.confirm id now)
  | .releases id => x.withNode (x.node.withDirectory (x.node.directory.release id))
  | .drops id => x.withDirectory ((x.node.directory.remove id).map Prod.snd)

/-- The node after all that happens. -/
def after (x : Activity) (events : List Event) : Activity := events.foldl step x

end Activity

end PeerGateway
