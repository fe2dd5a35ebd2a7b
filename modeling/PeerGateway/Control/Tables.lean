import PeerGateway.Gateway.Interface

/-!
# Tables

The answers of a gateway as lines of text. Numbers have a fixed number of decimal places,
and columns are as wide as their widest usual content.
-/

namespace PeerGateway.Control

/-- A text at the left of a column. -/
def left (width : Nat) (s : String) : String :=
  s ++ String.ofList (List.replicate (width - s.length) ' ')

/-- A text at the right of a column. -/
def right (width : Nat) (s : String) : String :=
  String.ofList (List.replicate (width - s.length) ' ') ++ s

/-- The columns of a row, after the label at its left. -/
def row (label : String) (columns : List (Nat × String)) : String :=
  "  " ++ left 24 label ++ String.join (columns.map fun c => " " ++ right c.1 c.2)

/-- The line above and below a title. -/
def rule : String := String.ofList (List.replicate 39 '═')

/-- A title between lines. -/
def titled (title : String) : List String := [rule, "  " ++ title, rule]

/-! ## Status -/

/-- A value under its name. -/
def item (name value : String) : String := "  " ++ left 16 name ++ " : " ++ value

/-- The counts of peers in words. -/
def countsText (c : PeerTally) : String :=
  toString c.connected.toNat ++ " connected, " ++ toString c.stale.toNat ++ " stale, " ++
    toString c.joining.toNat ++ " joining (max " ++ toString c.max.toNat ++ ")"

/-- The lines of a status. -/
def statusLines (r : StatusReport) : List String :=
  titled "Gatemesh Node Status" ++
    [item "Node ID" r.nodeId,
      item "Overlay address" r.overlayAddress,
      item "HTTP address" r.httpAddress,
      item "Uptime" (toString r.uptimeSecs.toNat ++ "s"),
      item "Peers" (countsText r.peers),
      item "Active requests" (toString r.activeRequests.toNat),
      item "Local score" (r.ownScore.total.fixed 3),
      item "Relay threshold" (r.scoreThreshold.fixed 3),
      item "Local backend" (if r.localBackend then "yes" else "no (relay only)")]

/-! ## Peers -/

/-- The lines of one peer. -/
def peerLines (r : PeerReport) : List String :=
  let rtt := match r.rttMs with
    | some ms => ms.fixed 1 ++ "ms"
    | none => "-"
  ["  ┌─ " ++ r.nodeId,
    "  │  overlay   : " ++ r.address,
    "  │  http      : " ++ r.httpAddress.getD "-",
    "  │  state     : " ++ r.state,
    "  │  rtt       : " ++ rtt,
    "  │  score     : " ++ r.score.fixed 3,
    "  └─ last seen : " ++ toString r.lastSeenSecs.toNat ++ "s ago"]

/-- The lines of all peers. -/
def peersLines (rs : List PeerReport) : List String :=
  if rs.isEmpty then ["No peers yet."]
  else titled ("Peers (" ++ toString rs.length ++ ")") ++ rs.flatMap peerLines

/-- The line of a peer that was dropped. -/
def dropLine (r : DropReport) : String :=
  "✓ Peer dropped: " ++ r.nodeId ++ " (" ++ r.address ++ ")"

/-! ## Load -/

/-- The line of a node's load. -/
def loadLine (label : String) (m : Snapshot) : String :=
  row label [(6, m.cpuUsage.fixed 1), (6, m.memoryUsage.fixed 1), (8, m.requestsPerSec.fixed 2),
    (9, m.averageLatencyMs.fixed 1), (6, m.errorRate.fixed 1)]

/-- The lines of the load of all nodes. -/
def loadLines (r : LoadReport) : List String :=
  titled "Load Metrics" ++
    [row "NODE" [(6, "CPU%"), (6, "MEM%"), (8, "REQ/S"), (9, "LAT(ms)"), (6, "ERR%")],
      loadLine "(local)" r.here] ++
    (r.peers.map fun m => loadLine m.nodeId.text m) ++
    if r.peers.isEmpty then ["", "  No peer metrics received yet."] else []

/-- The line of a node's score. -/
def scoreLine (label : String) (s : Score) : String :=
  row label [(6, s.cpu.fixed 3), (6, s.memory.fixed 3), (6, s.rps.fixed 3),
    (6, s.latency.fixed 3), (7, s.total.fixed 3)]

/-- The lines of all scores. -/
def scoreLines (r : ScoreReport) : List String :=
  [row "NODE" [(6, "CPU"), (6, "MEM"), (6, "RPS"), (6, "LAT"), (7, "TOTAL")],
    scoreLine "(local)" r.here] ++
    r.peers.map fun p => scoreLine p.1 p.2

/-! ## Selection -/

/-- The string member of a value. -/
def textMember? (name : String) (j : Json) : Option String := (j.member? name).bind Json.text?

/-- The lines of a selection. What is missing from it is told as such. -/
def selectionLines (j : Json) : List String :=
  let best := ((j.member? "selection").bind (textMember? "node_id")).getD "(none, local)"
  ["  Best peer : " ++ best, "  Route now : " ++ (textMember? "route" j).getD "?"]

end PeerGateway.Control
