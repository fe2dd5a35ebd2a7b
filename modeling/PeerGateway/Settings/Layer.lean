import PeerGateway.Settings.Basic
import PeerGateway.Schema.Tabular
import PeerGateway.Text.Blank
import PeerGateway.Toml.Document

/-!
# Where settings come from

A layer of settings is read from a TOML table (`Layer.ofToml?`), in which every section
and every field may be missing, or from the variables of the environment
(`Layer.ofEnvironment`), of which one that is not a value of its field gives none.
`Settings.toml` writes settings as a TOML document.
-/

namespace PeerGateway

namespace Settings

/-! ## From a TOML table -/

@[reducible] def nodeSchema : Schema :=
  .record true <|
    .field "node_id" .defaulted .text <|
    .field "listen_addr" .defaulted .text <|
    .field "advertise_addr" .defaulted .text <|
    .field "http_port" .defaulted .word16 <|
    .field "upstream_url" .defaulted .text <|
    .field "max_peers" .defaulted .word64 <|
    .field "seed_peers" .defaulted (.list .text) .empty

@[reducible] def weightsSchema : Schema :=
  .record true <|
    .field "cpu" .defaulted .real <|
    .field "memory" .defaulted .real <|
    .field "rps" .defaulted .real <|
    .field "latency" .defaulted .real .empty

@[reducible] def metricsSchema : Schema :=
  .record true <|
    .field "window_secs" .defaulted .word64 <|
    .field "weights" .defaulted weightsSchema .empty

@[reducible] def balancerSchema : Schema :=
  .record true <|
    .field "score_threshold" .defaulted .real <|
    .field "relay_timeout_ms" .defaulted .word64 .empty

@[reducible] def natSchema : Schema :=
  .record true <|
    .field "behind_nat" .defaulted .flag <|
    .field "punch_timeout_ms" .defaulted .word64 .empty

@[reducible] def networkSchema : Schema :=
  .record true <|
    .field "request_timeout_ms" .defaulted .word64 <|
    .field "stale_grace_secs" .defaulted .word64 .empty

@[reducible] def schema : Schema :=
  .record true <|
    .field "node" .defaulted nodeSchema <|
    .field "metrics" .defaulted metricsSchema <|
    .field "balancer" .defaulted balancerSchema <|
    .field "nat" .defaulted natSchema <|
    .field "network" .defaulted networkSchema .empty

namespace Layer

/-- The weights of a section. -/
def weightsOf : weightsSchema.Value → WeightsOf (Option Binary64)
  | (cpu, memory, rps, latency, ()) => ⟨cpu, memory, rps, latency⟩

/-- The settings of the sections that are there. -/
def ofValue : schema.Value → Layer
  | (node, metrics, balancer, nat, network, ()) =>
    let (nodeId, listenAddress, advertiseAddress, httpPort, backendUrl, maxPeers, seedPeers, ()) :=
      node.getD (none, none, none, none, none, none, none, ())
    let (windowSecs, weights, ()) := metrics.getD (none, none, ())
    let (scoreThreshold, relayTimeoutMs, ()) := balancer.getD (none, none, ())
    let (behindNat, punchTimeoutMs, ()) := nat.getD (none, none, ())
    let (requestTimeoutMs, staleGraceSecs, ()) := network.getD (none, none, ())
    { nodeId, listenAddress, advertiseAddress, httpPort, backendUrl, maxPeers, seedPeers
      windowSecs, weights := weightsOf (weights.getD (none, none, none, none, ()))
      scoreThreshold, relayTimeoutMs, behindNat, punchTimeoutMs, requestTimeoutMs
      staleGraceSecs }

/-- The settings of a table. -/
def ofToml? (t : Toml) : Option Layer := (schema.ofToml? t).map ofValue

end Layer

/-! ## From the environment -/

/-- The variables that are set, with what they are set to. -/
abbrev Environment := List (String × Bytes)

/-- The text that a variable is set to; none if it is not set or not set to text. -/
def Environment.text? (env : Environment) (name : String) : Option String :=
  (env.lookup name).bind Bytes.text?

/-- The items of a list with commas between, without blank characters around them and
without empty ones. -/
def commaItems (s : String) : List String :=
  ((splitAtChar ',' s.toList).map fun part => String.ofList (trimmed part)).filter (· ≠ "")

/-- A natural number below a limit. -/
def naturalOf? (limit : Nat) (s : String) : Option Nat := naturalBelow? limit s.toList

/-- The settings of the variables. Whatever the variable of the flag is set to gives it a
value, which is true for `true` and `1` alone. -/
def Layer.ofEnvironment (text? : String → Option String) : Layer where
  nodeId := text? "GATEMESH_NODE__NODE_ID"
  listenAddress := text? "GATEMESH_NODE__LISTEN_ADDR"
  advertiseAddress := text? "GATEMESH_NODE__ADVERTISE_ADDR"
  httpPort := ((text? "GATEMESH_NODE__HTTP_PORT").bind (naturalOf? UInt16.size)).map UInt16.ofNat
  backendUrl := text? "GATEMESH_NODE__UPSTREAM_URL"
  maxPeers := ((text? "GATEMESH_NODE__MAX_PEERS").bind (naturalOf? UInt64.size)).map UInt64.ofNat
  seedPeers := (text? "GATEMESH_NODE__SEED_PEERS").map commaItems
  windowSecs :=
    ((text? "GATEMESH_METRICS__WINDOW_SECS").bind (naturalOf? UInt64.size)).map UInt64.ofNat
  scoreThreshold := (text? "GATEMESH_BALANCER__SCORE_THRESHOLD").bind Binary64.parse?
  behindNat := (text? "GATEMESH_NAT__BEHIND_NAT").map fun v => v == "true" || v == "1"

/-- The settings that a file's layer and the environment make of the defaults. -/
def resolve (file : Layer) (text? : String → Option String) : Settings :=
  (Layer.ofEnvironment text?).onto (file.onto default)

/-! ## As a TOML document -/

/-- A character of a TOML string between double quotes. -/
def quotedChar (c : Char) : List Char :=
  if c = '"' then ['\\', '"']
  else if c = '\\' then ['\\', '\\']
  else if c = '\n' then ['\\', 'n']
  else if c = '\t' then ['\\', 't']
  else if Toml.isPrintable c then [c]
  else
    let n := c.toNat
    ['\\', 'u', '0', '0', Nat.digitChar (n / 16), Nat.digitChar (n % 16)]

/-- A TOML string. -/
def quoted (s : String) : String :=
  "\"" ++ String.ofList (s.toList.flatMap quotedChar) ++ "\""

/-- A TOML number. -/
def realText (x : Binary64) : String :=
  match x.text? with
  | some t => t
  | none => if x.isNaN then "nan" else if x.negative then "-inf" else "inf"

/-- A TOML truth value. -/
def flagText (b : Bool) : String := if b then "true" else "false"

/-- A section: its header and its settings. -/
def section_ (name : String) (settings : List (String × String)) : String :=
  "[" ++ name ++ "]\n" ++ String.join (settings.map fun (key, v) => key ++ " = " ++ v ++ "\n")

/-- The settings as a TOML document: a section after the other, with a blank line
between. -/
def toml (s : Settings) : String :=
  "\n".intercalate
    [section_ "node"
      [("node_id", quoted s.nodeId), ("listen_addr", quoted s.listenAddress),
        ("advertise_addr", quoted s.advertiseAddress),
        ("http_port", toString s.httpPort.toNat), ("upstream_url", quoted s.backendUrl),
        ("max_peers", toString s.maxPeers.toNat),
        ("seed_peers", "[" ++ ", ".intercalate (s.seedPeers.map quoted) ++ "]")],
    section_ "metrics" [("window_secs", toString s.windowSecs.toNat)],
    section_ "metrics.weights"
      [("cpu", realText s.weights.cpu), ("memory", realText s.weights.memory),
        ("rps", realText s.weights.rps), ("latency", realText s.weights.latency)],
    section_ "balancer"
      [("score_threshold", realText s.scoreThreshold),
        ("relay_timeout_ms", toString s.relayTimeoutMs.toNat)],
    section_ "nat"
      [("behind_nat", flagText s.behindNat),
        ("punch_timeout_ms", toString s.punchTimeoutMs.toNat)],
    section_ "network"
      [("request_timeout_ms", toString s.requestTimeoutMs.toNat),
        ("stale_grace_secs", toString s.staleGraceSecs.toNat)]]

end Settings

end PeerGateway
