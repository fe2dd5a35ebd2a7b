import PeerGateway.Node.Walk

/-!
# A join walk move by move

An `Errand` is a walk that is under way, by what it does next. Each of its moves has at most one
access to the directory of its node (`Errand.act`), so that anything else may happen before the
next one. When it asks a candidate it waits for the answer (`Errand.hear`), and when it punches for
the way (`Errand.punched`).

`Walk.run` makes these moves one after the other.
-/

namespace PeerGateway

/-- A walk that is under way, with the candidate and the answer that it is at. -/
inductive Errand
  /-- It goes on to the next candidate. -/
  | looks (w : Walk)
  /-- It weighs whether a candidate is worth asking. -/
  | weighs (w : Walk) (c : Candidate)
  /-- It keeps a place for a candidate. -/
  | reserves (w : Walk) (c : Candidate)
  /-- It waits for the answer of a candidate. -/
  | asks (w : Walk) (c : Candidate)
  /-- It gives back the place that was kept for a candidate. -/
  | givesBack (w : Walk) (c : Candidate)
  /-- It punches for the way to a candidate that took the node in. -/
  | punches (w : Walk) (c : Candidate) (r : JoinResponse) (port : UInt16)
  /-- It places a candidate that took the node in. -/
  | places (w : Walk) (c : Candidate) (r : JoinResponse)
  /-- It confirms a candidate that it has placed. -/
  | confirms (w : Walk) (c : Candidate) (r : JoinResponse)
  /-- It is done with a candidate that took the node in. -/
  | parts (w : Walk) (c : Candidate) (r : JoinResponse)
  | finished (outcome : WalkOutcome)
  deriving DecidableEq, Repr

namespace Errand

/-- The walk that sets out from seeds. -/
def ofSeeds (seeds : List String) : Errand := .looks (.ofSeeds seeds)

/-- The next move, and the directory after it if the move changes it. A walk that waits makes
none. -/
def act (e : Errand) (d : Directory) (now : Instant) : Errand × Option Directory :=
  match e with
  | .looks w =>
    match w.queue with
    | [] => (.finished w.outcome, none)
    | c :: rest =>
      if d.isFull then (.finished w.outcome, none) else (.weighs { w with queue := rest } c, none)
  | .weighs w c =>
    if !w.isWorthAsking d c || w.tried.contains c.address then (.looks w, none)
    else (.reserves (w.asking c.address w.queue) c, none)
  | .reserves w c =>
    match Walk.reserveOffered d c now with
    | .ok d => (.asks w c, some d)
    | .error e => (.givesBack (w.failed c.address (.protocol e)) c, none)
  | .givesBack w c => (.looks w, some (Walk.releaseOffered d c))
  | .places w c r =>
    match d.place { nodeId := r.nodeId, address := c.address } .connected now with
    | .ok d => (.confirms w c r, some d)
    | .error e => (.parts (w.failed c.address (.protocol e)) c r, none)
  | .confirms w c r =>
    match d.confirm r.nodeId now with
    | .ok d => (.parts (w.connected r.nodeId) c r, some d)
    | .error e => (.parts (w.failed c.address (.protocol e)) c r, none)
  | .parts w c r =>
    (.looks (w.enqueue r),
      if c.nodeId = some r.nodeId then none else some (Walk.releaseOffered d c))
  | .asks .. | .punches .. | .finished .. => (e, none)

/-- The walk after an answer, if it waits for one. -/
def hear (e : Errand) (reply : Except NetworkError Message) : Errand :=
  match e with
  | .asks w c =>
    match reply with
    | .error e => .givesBack (w.failed c.address e) c
    | .ok (.joinResponse r) =>
      if r.success then
        match r.natPort with
        | some port => .punches (w.visit r.nodeId) c r port
        | none => .places (w.visit r.nodeId) c r
      else .givesBack (w.refused c r) c
    | .ok m => .givesBack (w.failed c.address (.unexpectedReply .joinResponse m.type)) c
  | e => e

/-- The walk after it has punched, if it does. -/
def punched (e : Errand) (result : Except ProtocolError Unit) : Errand :=
  match e with
  | .punches w c r _ =>
    match result with
    | .ok () => .places w c r
    | .error e => .parts (w.failed c.address (.protocol e)) c r
  | e => e

end Errand

end PeerGateway
