import PeerGateway.Gateway.Basic

/-!
# From settings

The node (`Settings.node`) and the gateway (`Settings.gateway`) that are started with settings.
-/

namespace PeerGateway

namespace Settings

/-- The identifier of the node, for which a fresh one serves if there is none. -/
def ownId (s : Settings) (fresh : NodeId) : NodeId :=
  if s.nodeId.isEmpty then fresh else ⟨s.nodeId⟩

/-- The node as it starts, on a machine with given readings. -/
def node (s : Settings) (fresh : NodeId) (host : HostLoad) : Node where
  directory :=
    { localId := s.ownId fresh
      localAddress := s.overlayAddress
      capacity := s.maxPeers.toNat }
  load :=
    { nodeId := s.ownId fresh
      address := s.httpAddress
      window := s.window
      weights := s.weights
      host := host }
  policy := s.policy

/-- The gateway of the node. -/
def gateway (s : Settings) (started : Instant) : Gateway where
  rule := .ofThreshold s.scoreThreshold
  relayTimeout := s.relayTimeout
  backend := if s.backendUrl.isEmpty then .absent else .server s.backendUrl
  started := started

end Settings

end PeerGateway
