import PeerGateway.Node.Activity
import PeerGateway.Node.Errand

/-!
# Nodes that act at the same time

An `Overlay` is any number of nodes with all that they have under way, and `Overlay.Event` is what
may happen next at one of them. Any message may arrive at a node, at any time and any number of
times, those that other nodes send as well as others.

An answer is another matter: a walk hears only what some node has answered (`Overlay.answers`), but
it may be late, be heard again, or be the answer to another request.
-/

namespace PeerGateway

/-- Whether something that happens to a node is neither a message nor a move of a walk. -/
def Activity.Event.isOwn : Activity.Event → Bool
  | .happens (.received ..) => false
  | .happens (.probed ..) => true
  | .happens (.expired ..) => true
  | .unopened .. => false
  | .roundBegins => true
  | .pings .. => true
  | .ponged .. => true
  | .traded .. => true
  | .roundEnds .. => true
  | .reserves .. => false
  | .places .. => false
  | .confirms .. => false
  | .releases .. => false
  | .drops .. => true

/-- A node with all that it has under way: its holes, its heartbeat rounds and its walks. -/
structure Member extends Activity where
  /-- The walks that were begun, in order. -/
  errands : List Errand := []

namespace Member

/-- A member that has reacted to a message. -/
def reacted (x : Member) (reaction : Reaction) : Member :=
  { x with node := reaction.node, holes := x.holes ++ reaction.hole.toList.map some }

/-- A member that sets out on one more walk. -/
def setOut (x : Member) (seeds : List String) : Member :=
  { x with errands := x.errands ++ [.ofSeeds seeds] }

/-- A member that makes the next move of a walk. -/
def walk (x : Member) (k : Nat) (now : Instant) : Member :=
  match x.errands[k]? with
  | some e =>
    let next := e.act x.node.directory now
    { x with
      node := next.2.elim x.node x.node.withDirectory
      errands := x.errands.set k next.1 }
  | none => x

end Member

/-- Nodes that act at the same time. -/
structure Overlay (ι : Type) where
  members : ι → Member
  /-- The answers that were given, in order. -/
  answers : List Message := []

namespace Overlay

variable {ι : Type}

/-- Nodes that have done nothing yet. -/
def ofNodes (nodes : ι → Node) : Overlay ι := { members := fun i => { node := nodes i } }

/-- What happens in an overlay. A walk of a node and an answer are told by their places. -/
inductive Event (ι : Type)
  /-- A message arrives. A hole can be opened at the port, if there is one. -/
  | arrives (i : ι) (message : Message) (sender : Ip) (port : Option UInt16) (now : Moment)
  /-- A node sees to a matter of its own. -/
  | tends (i : ι) (matter : { e : Activity.Event // e.isOwn = true })
  /-- A node sets out on a walk. -/
  | setsOut (i : ι) (seeds : List String)
  /-- A walk makes its next move. -/
  | walks (i : ι) (errand : Nat) (now : Instant)
  /-- A walk hears an answer, or that there is none. -/
  | hears (i : ι) (errand : Nat) (answer : Except NetworkError Nat)
  /-- A walk has punched. -/
  | punches (i : ι) (errand : Nat) (result : Except ProtocolError Unit)

variable [DecidableEq ι]

/-- An overlay with one member changed. -/
def change (x : Overlay ι) (i : ι) (f : Member → Member) : Overlay ι :=
  { x with members := fun j => if j = i then f (x.members j) else x.members j }

/-- An overlay with one walk of a member changed. -/
def changeErrand (x : Overlay ι) (i : ι) (k : Nat) (f : Errand → Errand) : Overlay ι :=
  x.change i fun member => { member with errands := member.errands.modify k f }

/-- What happens in an overlay. -/
def step (x : Overlay ι) : Event ι → Overlay ι
  | .arrives i m sender port now =>
    let reaction := (x.members i).node.receiveFrom m sender port now
    { x.change i (·.reacted reaction) with answers := x.answers ++ reaction.reply.toList }
  | .tends i matter =>
    x.change i fun member => { member with toActivity := member.toActivity.step matter }
  | .setsOut i seeds => x.change i (·.setOut seeds)
  | .walks i k now => x.change i (·.walk k now)
  | .hears i k (.error e) => x.changeErrand i k (·.hear (.error e))
  | .hears i k (.ok n) =>
    match x.answers[n]? with
    | some m => x.changeErrand i k (·.hear (.ok m))
    | none => x
  | .punches i k result => x.changeErrand i k (·.punched result)

/-- The overlay after all that happens. -/
def after (x : Overlay ι) (events : List (Event ι)) : Overlay ι := events.foldl step x

end Overlay

end PeerGateway
