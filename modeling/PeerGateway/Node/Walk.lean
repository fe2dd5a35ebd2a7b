import PeerGateway.Node.Basic

/-!
# The join walk

A node joins the overlay by asking candidates, one after the other: first the seeds, then
the peers that the answers offer. Nobody is asked twice at one address, and the walk ends
when the directory is full or no candidate is left. Each attempt is either in
`WalkOutcome.connected` or in `WalkOutcome.failures`.

`Walk.advance` goes on to the next candidate that is asked and keeps a place for it,
`Walk.attempt` asks it and takes its answer (`Walk.accepted`, `Walk.refused`), and `Walk.run`
does so until the walk is over. Others may act on the node between any two accesses of the
walk to the directory (`Surroundings.meanwhile`).
-/

namespace PeerGateway

/-- A node to ask, and under which identifier it was offered, if it was. -/
structure Candidate where
  nodeId : Option NodeId := none
  address : String
  deriving DecidableEq, Repr

/-- An attempt that did not make a connection. -/
structure FailedAttempt where
  address : String
  error : NetworkError
  deriving DecidableEq, Repr

/-- What a walk came to, in the order of the attempts. -/
structure WalkOutcome where
  connected : List NodeId := []
  failures : List FailedAttempt := []
  deriving DecidableEq, Repr

namespace WalkOutcome

/-- Whether some attempt made a connection. -/
def isSuccess (o : WalkOutcome) : Bool := !o.connected.isEmpty

/-- The outcome with one more failure. -/
def fail (o : WalkOutcome) (address : String) (error : NetworkError) : WalkOutcome :=
  { o with failures := o.failures ++ [⟨address, error⟩] }

/-- The outcome with one more connection. -/
def connect (o : WalkOutcome) (id : NodeId) : WalkOutcome :=
  { o with connected := o.connected ++ [id] }

end WalkOutcome

/-- How far a walk has come. -/
structure Walk where
  /-- The candidates that are left, the next one first. -/
  queue : List Candidate
  /-- The nodes that gave an answer which later requests tell of. -/
  visited : List NodeId := []
  /-- The addresses that were asked. -/
  tried : List String := []
  outcome : WalkOutcome := {}
  deriving DecidableEq, Repr

namespace Walk

/-- The walk that starts at seeds. -/
def ofSeeds (seeds : List String) : Walk := { queue := seeds.map fun a => { address := a } }

/-- Whether a candidate is worth asking: it is not this node, no peer that is connected, and
nobody that was visited. -/
def isWorthAsking (w : Walk) (d : Directory) (c : Candidate) : Bool :=
  if c.address = d.localAddress then false
  else
    match c.nodeId with
    | none => true
    | some id => id ≠ d.localId && !w.visited.contains id && d.stateOf? id ≠ some .connected

/-- The walk with one more failure. -/
def failed (w : Walk) (address : String) (error : NetworkError) : Walk :=
  { w with outcome := w.outcome.fail address error }

/-- The walk with one more connection. -/
def connected (w : Walk) (id : NodeId) : Walk := { w with outcome := w.outcome.connect id }

/-- The walk that has asked at one more address and has these candidates left. -/
def asking (w : Walk) (address : String) (rest : List Candidate) : Walk :=
  { w with tried := w.tried ++ [address], queue := rest }

/-- The walk with the peers that an answer offers at the end of its queue. -/
def enqueue (w : Walk) (r : JoinResponse) : Walk :=
  { w with
    queue := w.queue ++
      r.alternatives.map fun p => { nodeId := some p.nodeId, address := p.address } }

/-- The walk after a visit that later requests tell of. -/
def visit (w : Walk) (id : NodeId) : Walk := { w with visited := w.visited ++ [id] }

/-- The request that a node sends on its walk. -/
def request (w : Walk) (n : Node) : JoinRequest := ⟨n.id, n.address, w.visited, n.policy.behindNat⟩

/-- The walk after an answer that turns this node away. -/
def refused (w : Walk) (c : Candidate) (r : JoinResponse) : Walk :=
  match r.error with
  | some .networkFull => ((w.visit r.nodeId).enqueue r).failed c.address (.protocol .networkFull)
  | some .natPunchFailed =>
    ((w.visit r.nodeId).enqueue r).failed c.address (.protocol .natPunchFailed)
  | some e => w.failed c.address (.protocol e)
  | none => w.failed c.address (.protocol .invalidMessage)

/-- Keeps a place for a candidate that was offered under an identifier. -/
def reserveOffered (d : Directory) (c : Candidate) (now : Instant) :
    Except ProtocolError Directory :=
  match c.nodeId with
  | some id => d.reserve { nodeId := id, address := c.address } now
  | none => .ok d

/-- Gives back the place that was kept for a candidate. -/
def releaseOffered (d : Directory) (c : Candidate) : Directory :=
  match c.nodeId with
  | some id => d.release id
  | none => d

/-! ## Running a walk -/

variable {σ : Type}

/-- What a walk does next. -/
inductive Move
  | finished (outcome : WalkOutcome)
  | asks (candidate : Candidate) (walk : Walk)

/-- Gives back the place that was kept for a candidate. -/
def giveBack (s : Surroundings σ) (c : Candidate) (state : σ) : σ :=
  s.setDirectory (releaseOffered (s.directory state) c) state

/-- Goes on from candidate to candidate up to one that is asked. -/
def advanceFrom (s : Surroundings σ) : List Candidate → Walk → σ → Move × σ
  | [], w, state => (.finished w.outcome, state)
  | c :: rest, w, state =>
    let state := s.meanwhile state
    if (s.directory state).isFull then (.finished w.outcome, state)
    else
      let state := s.meanwhile state
      if !w.isWorthAsking (s.directory state) c || w.tried.contains c.address then
        advanceFrom s rest w state
      else
        let w := w.asking c.address rest
        let state := s.meanwhile state
        match reserveOffered (s.directory state) c (s.now state).steady with
        | .ok d => (.asks c w, s.setDirectory d state)
        | .error e =>
          advanceFrom s rest (w.failed c.address (.protocol e)) (giveBack s c (s.meanwhile state))

/-- Goes on to the next candidate that is asked, for whom a place is kept. -/
def advance (s : Surroundings σ) (w : Walk) (state : σ) : Move × σ :=
  advanceFrom s w.queue w state

/-- Punches the way to a candidate that names a port. -/
def punchIfAsked (s : Surroundings σ) (c : Candidate) (r : JoinResponse) (state : σ) :
    Except ProtocolError Unit × σ :=
  match r.natPort with
  | some port => s.punch c.address port state
  | none => (.ok (), state)

/-- Puts in a peer that took this node in: it is placed, and then confirmed. -/
def enrol (s : Surroundings σ) (peer : Peer) (state : σ) : Except ProtocolError Unit × σ :=
  match (s.directory state).place peer .connected (s.now state).steady with
  | .error e => (.error e, state)
  | .ok d =>
    let state := s.meanwhile (s.setDirectory d state)
    match (s.directory state).confirm peer.nodeId (s.now state).steady with
    | .error e => (.error e, state)
    | .ok d => (.ok (), s.setDirectory d state)

/-- Gives back the place that was kept for a candidate if it answered under another
identifier than it was offered under. -/
def giveBackOther (s : Surroundings σ) (c : Candidate) (id : NodeId) (state : σ) : σ :=
  if c.nodeId = some id then state else giveBack s c (s.meanwhile state)

/-- Ends an attempt that was accepted: the way to the candidate is punched if it names a
port, and it becomes a connected peer under the identifier of its answer. -/
def accepted (s : Surroundings σ) (w : Walk) (c : Candidate) (r : JoinResponse) (state : σ) :
    Walk × σ :=
  let w := w.visit r.nodeId
  let punched := punchIfAsked s c r state
  let enrolled := match punched.1 with
    | .ok () => enrol s { nodeId := r.nodeId, address := c.address } punched.2
    | .error e => (.error e, punched.2)
  let w := match enrolled.1 with
    | .ok () => w.connected r.nodeId
    | .error e => w.failed c.address (.protocol e)
  (w.enqueue r, giveBackOther s c r.nodeId enrolled.2)

/-- Takes the answer of a candidate. -/
def answered (s : Surroundings σ) (w : Walk) (c : Candidate) (reply : Except NetworkError Message)
    (state : σ) : Walk × σ :=
  match reply with
  | .error e => (w.failed c.address e, giveBack s c state)
  | .ok (.joinResponse r) =>
    if r.success then w.accepted s c r state else (w.refused c r, giveBack s c state)
  | .ok m => (w.failed c.address (.unexpectedReply .joinResponse m.type), giveBack s c state)

/-- Asks a candidate. -/
def ask (s : Surroundings σ) (w : Walk) (c : Candidate) (state : σ) :
    Except NetworkError Message × σ :=
  s.request c.address (.joinRequest (w.request (s.node state))) state

/-- Asks a candidate and takes its answer. -/
def attempt (s : Surroundings σ) (w : Walk) (c : Candidate) (state : σ) : Walk × σ :=
  let asked := w.ask s c state
  w.answered s c asked.1 asked.2

/-- Runs a walk, sending at most `limit` requests; there is no outcome if that is too few. -/
def run (s : Surroundings σ) : Nat → Walk → σ → Option WalkOutcome × σ
  | 0, _, state => (none, state)
  | limit + 1, w, state =>
    match w.advance s state with
    | (.finished outcome, state) => (some outcome, state)
    | (.asks c w, state) =>
      let next := w.attempt s c state
      run s limit next.1 next.2

end Walk

end PeerGateway
