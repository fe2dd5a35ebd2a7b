import PeerGateway.Frame
import Std.Data.ExtTreeMap

/-!
# Requests to other nodes

A node keeps one connection per address and uses it for one exchange at a time: a request
stands in line for its turn, writes its message and takes the next thing that comes over
the connection as its reply. A request that fails, for whatever reason, has the connection
of its address dropped from the pool, and the next one dials again; others that stand in
line on the dropped connection keep their places.

`Pool` is a machine. What happens to it are `Pool.start`, `Pool.dialled`, `Pool.arrived`,
`Pool.expired` and `Pool.forget`; each gives the pool after it and what is to be done
(`Pool.Effect`).
-/

namespace PeerGateway

/-- What comes over a connection. -/
inductive Arrival
  | message (reply : Message)
  /-- A frame whose body is no message. -/
  | malformed
  | fault (fault : IoFault)
  /-- The end of the stream. -/
  | ended
  deriving DecidableEq

/-- What a request to an address makes of an arrival. -/
def Arrival.reply (address : String) : Arrival → Except NetworkError Message
  | .message m => .ok m
  | .malformed => .error (.protocol .invalidMessage)
  | .fault f => .error (.io f)
  | .ended => .error (.closed address)

/-- A request under way. Its ticket is its own. -/
structure PendingRequest where
  ticket : Nat
  address : String
  message : Message
  deriving DecidableEq

/-- A connection. -/
structure Connection where
  /-- The requests in line. The first one has written its message. -/
  line : List PendingRequest := []
  /-- What came and was not taken yet, the oldest first. -/
  inbox : List Arrival := []

/-- The connections of a node to others and the requests on them. -/
structure Pool where
  timeout : Span
  /-- The connection that the next request to an address uses. -/
  pooled : Std.ExtTreeMap String Nat compare := ∅
  connections : Std.ExtTreeMap Nat Connection compare := ∅
  /-- The requests that wait for a new connection. -/
  dialling : List PendingRequest := []
  /-- The number of connections so far. -/
  opened : Nat := 0

namespace Pool

/-- What a pool has done. -/
inductive Effect
  /-- Opens a connection to the address of a request. -/
  | dial (request : PendingRequest)
  /-- Writes the message of a request to a connection. -/
  | write (connection : Nat) (request : PendingRequest)
  /-- Gives up the turn of a request on a connection, with no reply taken. -/
  | giveUp (connection : Nat) (request : PendingRequest)
  /-- Ends a request with its result. -/
  | finish (request : PendingRequest) (result : Except NetworkError Message)

/-- A connection, which is as new if nothing happened to it. -/
def connection (p : Pool) (id : Nat) : Connection := (p.connections[id]?).getD {}

/-- Whether a message fits into a frame. -/
def fits (m : Message) : Bool := m.bytes.length ≤ Frame.maxLength

/-- Gives requests in line their turns, one after the other: each writes its message and
takes the next arrival, as long as there is one. -/
def turns (connection : Nat) :
    List PendingRequest → List Arrival → List PendingRequest × List Arrival × List Effect
  | [], inbox => ([], inbox, [])
  | e :: rest, inbox =>
    if fits e.message then
      match inbox with
      | [] => (e :: rest, [], [.write connection e])
      | a :: inbox =>
        let (line, inbox, effects) := turns connection rest inbox
        (line, inbox, .write connection e :: .finish e (a.reply e.address) :: effects)
    else
      let (line, inbox, effects) := turns connection rest inbox
      (line, inbox, .finish e (.error (.io .frameTooBig)) :: effects)

/-- Drops the connection of an address from the pool. -/
def forget (p : Pool) (address : String) : Pool := { p with pooled := p.pooled.erase address }

/-- Drops the connections of all requests that ended with an error. -/
def heed (p : Pool) (effects : List Effect) : Pool :=
  effects.foldl (fun p effect =>
    match effect with
    | .finish e (.error _) => p.forget e.address
    | _ => p) p

/-- Puts a connection in order after requests got their turns on it. -/
def keep (p : Pool) (connection : Nat) (first : List Effect)
    (after : List PendingRequest × List Arrival × List Effect) : Pool × List Effect :=
  let (line, inbox, effects) := after
  let effects := first ++ effects
  ({ p with connections := p.connections.insert connection ⟨line, inbox⟩ }.heed effects, effects)

/-- Puts a request in line for a connection. -/
def queue (p : Pool) (connection : Nat) (e : PendingRequest) : Pool × List Effect :=
  let c := p.connection connection
  match c.line with
  | [] => p.keep connection [] (turns connection [e] c.inbox)
  | line => p.keep connection [] (line ++ [e], c.inbox, [])

/-- Starts a request: on the connection of its address, or on a new one. -/
def start (p : Pool) (e : PendingRequest) : Pool × List Effect :=
  match p.pooled[e.address]? with
  | some connection => p.queue connection e
  | none => ({ p with dialling := p.dialling ++ [e] }, [.dial e])

/-- Puts a new connection to an address into the pool. It takes the place of the one that the
address may have by now. -/
def connect (p : Pool) (address : String) : Pool :=
  { p with opened := p.opened + 1, pooled := p.pooled.insert address p.opened }

/-- The dialling of a request came to something. -/
def dialled (p : Pool) (ticket : Nat) (result : Except IoFault Unit) : Pool × List Effect :=
  match p.dialling.find? fun e => e.ticket = ticket with
  | none => (p, [])
  | some e =>
    let p := { p with dialling := p.dialling.filter fun e => e.ticket ≠ ticket }
    match result with
    | .error f => (p.forget e.address, [.finish e (.error (.io f))])
    | .ok () => (p.connect e.address).queue p.opened e

/-- Something came over a connection: the request that has its turn takes it. -/
def arrived (p : Pool) (connection : Nat) (a : Arrival) : Pool × List Effect :=
  let c := p.connection connection
  match c.line with
  | [] => p.keep connection [] ([], c.inbox ++ [a], [])
  | e :: rest =>
    p.keep connection [.finish e (a.reply e.address)] (turns connection rest c.inbox)

/-- The connection on which a request is in line. -/
def connectionOf? (p : Pool) (ticket : Nat) : Option (Nat × Connection) :=
  p.connections.toList.find? fun c => c.2.line.any fun e => e.ticket = ticket

/-- The time of a request is over. If it had its turn, the next one in line gets it. -/
def expired (p : Pool) (ticket : Nat) : Pool × List Effect :=
  let late (e : PendingRequest) : Effect := .finish e (.error (.timeout p.timeout))
  match p.dialling.find? fun e => e.ticket = ticket with
  | some e =>
    ({ p with dialling := p.dialling.filter fun e => e.ticket ≠ ticket }.heed [late e], [late e])
  | none =>
    match p.connectionOf? ticket with
    | none => (p, [])
    | some (connection, c) =>
      let rest := c.line.filter fun e => e.ticket ≠ ticket
      match c.line with
      | [] => (p, [])
      | e :: _ =>
        if e.ticket = ticket then
          p.keep connection [.giveUp connection e, late e] (turns connection rest c.inbox)
        else
          let gone := c.line.filter fun e => e.ticket = ticket
          p.keep connection (gone.map late) (rest, c.inbox, [])

/-- The number of connections in the pool. -/
def size (p : Pool) : Nat := p.pooled.size

end Pool

/-- What sending a message without a reply comes to: it has a connection of its own, and
what becomes of it is known once the dialling and the writing have come to something;
`none` is for what was still going on when the time of a request was over. -/
def Pool.notice (p : Pool) (m : Message) (dialled written : Option (Except IoFault Unit)) :
    Except NetworkError Unit :=
  match dialled, written with
  | none, _ => .error (.timeout p.timeout)
  | some (.error f), _ => .error (.io f)
  | some (.ok ()), written =>
    if !Pool.fits m then .error (.io .frameTooBig)
    else match written with
      | none => .error (.timeout p.timeout)
      | some result => result.mapError .io

end PeerGateway
