import PeerGateway.Load.Score
import PeerGateway.Address.Socket

/-!
# Settings

The settings of a node, `Settings`, and a `Settings.Layer`, which gives a value to some of
them. Settings come from layers over the defaults, field by field: `Layer.onto`.
-/

namespace PeerGateway

/-- The settings of a node. -/
structure Settings where
  /-- Empty: a fresh one is made. -/
  nodeId : String
  /-- The overlay address to listen on. -/
  listenAddress : String
  /-- The overlay address told to peers; empty: the one to listen on. -/
  advertiseAddress : String
  httpPort : UInt16
  /-- The backend for requests served here; empty: there is none. -/
  backendUrl : String
  maxPeers : UInt64
  /-- The overlay addresses to join at the start. -/
  seedPeers : List String
  /-- The window of statistics and of silence, in seconds. -/
  windowSecs : UInt64
  weights : Weights
  /-- A request is relayed only to a peer that scores better by more than this. -/
  scoreThreshold : Binary64
  relayTimeoutMs : UInt64
  behindNat : Bool
  punchTimeoutMs : UInt64
  requestTimeoutMs : UInt64
  /-- How long a stale peer is kept. -/
  staleGraceSecs : UInt64
  deriving DecidableEq

namespace Settings

/-- The settings of a node that is given none. -/
def default : Settings where
  nodeId := ""
  listenAddress := "0.0.0.0:7400"
  advertiseAddress := ""
  httpPort := 8080
  backendUrl := ""
  maxPeers := 16
  seedPeers := []
  windowSecs := 60
  weights := Weights.default
  scoreThreshold := .ofFraction false 1 10
  relayTimeoutMs := 10000
  behindNat := false
  punchTimeoutMs := 2000
  requestTimeoutMs := 3000
  staleGraceSecs := 120

/-- Values for some of the settings. -/
structure Layer where
  nodeId : Option String := none
  listenAddress : Option String := none
  advertiseAddress : Option String := none
  httpPort : Option UInt16 := none
  backendUrl : Option String := none
  maxPeers : Option UInt64 := none
  seedPeers : Option (List String) := none
  windowSecs : Option UInt64 := none
  weights : WeightsOf (Option Binary64) := ⟨none, none, none, none⟩
  scoreThreshold : Option Binary64 := none
  relayTimeoutMs : Option UInt64 := none
  behindNat : Option Bool := none
  punchTimeoutMs : Option UInt64 := none
  requestTimeoutMs : Option UInt64 := none
  staleGraceSecs : Option UInt64 := none
  deriving DecidableEq

/-- The settings with the values of a layer where it has one. -/
def Layer.onto (l : Layer) (s : Settings) : Settings where
  nodeId := l.nodeId.getD s.nodeId
  listenAddress := l.listenAddress.getD s.listenAddress
  advertiseAddress := l.advertiseAddress.getD s.advertiseAddress
  httpPort := l.httpPort.getD s.httpPort
  backendUrl := l.backendUrl.getD s.backendUrl
  maxPeers := l.maxPeers.getD s.maxPeers
  seedPeers := l.seedPeers.getD s.seedPeers
  windowSecs := l.windowSecs.getD s.windowSecs
  weights :=
    { cpu := l.weights.cpu.getD s.weights.cpu
      memory := l.weights.memory.getD s.weights.memory
      rps := l.weights.rps.getD s.weights.rps
      latency := l.weights.latency.getD s.weights.latency }
  scoreThreshold := l.scoreThreshold.getD s.scoreThreshold
  relayTimeoutMs := l.relayTimeoutMs.getD s.relayTimeoutMs
  behindNat := l.behindNat.getD s.behindNat
  punchTimeoutMs := l.punchTimeoutMs.getD s.punchTimeoutMs
  requestTimeoutMs := l.requestTimeoutMs.getD s.requestTimeoutMs
  staleGraceSecs := l.staleGraceSecs.getD s.staleGraceSecs

/-! ## What follows from the settings -/

/-- The overlay address told to peers. -/
def overlayAddress (s : Settings) : String :=
  if s.advertiseAddress.isEmpty then s.listenAddress else s.advertiseAddress

/-- The HTTP address told to peers: the host of the overlay address with the HTTP port. -/
def httpAddress (s : Settings) : String :=
  hostPart s.overlayAddress ++ ":" ++ toString s.httpPort.toNat

/-- The window, of one second at least. -/
def window (s : Settings) : Span := .ofSecs (max s.windowSecs.toNat 1)

def staleGrace (s : Settings) : Span := .ofSecs s.staleGraceSecs.toNat
def punchTimeout (s : Settings) : Span := .ofMillis s.punchTimeoutMs.toNat
def requestTimeout (s : Settings) : Span := .ofMillis s.requestTimeoutMs.toNat
def relayTimeout (s : Settings) : Span := .ofMillis s.relayTimeoutMs.toNat

end Settings

end PeerGateway
