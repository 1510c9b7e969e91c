import SwarmP2p.Model.Node

/-! # A small swarm

A library under the node that can be computed with. It keeps the peers that are
connected or being dialed and the next free ids; every address and every response is
accepted, and any event that says nothing about a dial may come at any time. -/

namespace SwarmP2p

namespace Loopback

structure State where
  connected : List PeerId := []
  dialing : List PeerId := []
  requests : Nat := 0
  queries : Nat := 0
  deriving DecidableEq, Repr

/-- An outbound attempt ends with a connection or an error; a connection may also come
from the other side. -/
def next (s : State) (event : SwarmEvent String String) (s' : State) : Prop :=
  match event with
  | .connectionEstablished p _ =>
      s' = { s with connected := p :: s.connected } ∨
        (p ∈ s.dialing ∧
          s' = { s with connected := p :: s.connected, dialing := s.dialing.erase p })
  | .connectionClosed p _ =>
      p ∈ s.connected ∧ s' = { s with connected := s.connected.erase p }
  | .outgoingConnectionError (some p) _ =>
      p ∈ s.dialing ∧ s' = { s with dialing := s.dialing.erase p }
  | _ => s' = s

/-- A peer is not dialed twice, nor when it is connected. -/
def dial (s : State) (p : PeerId) : State × Except String Unit :=
  if p ∈ s.connected ∨ p ∈ s.dialing then (s, .error "dial condition not met")
  else ({ s with dialing := p :: s.dialing }, .ok ())

def query (s : State) : State × QueryId := ({ s with queries := s.queries + 1 }, ⟨s.queries⟩)

def startQuery (s : State) : State × Except String QueryId :=
  ((query s).1, .ok (query s).2)

end Loopback

def loopback : Libp2p String String where
  State := Loopback.State
  Initial s := s = {}
  next := Loopback.next
  isConnected s p := decide (p ∈ s.connected)
  listeners _ := []
  externalAddresses _ := []
  dial := Loopback.dial
  disconnectPeerId s p := (s, if p ∈ s.connected then .ok () else .error ())
  listenOn s _ := (s, .ok ())
  addPeerAddress s _ _ := s
  addExternalAddress s _ := s
  sendRequest s _ _ := ({ s with requests := s.requests + 1 }, ⟨s.requests⟩)
  sendResponse s _ _ := (s, .ok ())
  kadAddAddress s _ _ := s
  kadBootstrap := Loopback.startQuery
  kadGetRecord s _ := Loopback.query s
  kadPutRecord s _ := Loopback.startQuery s
  kadGetProviders s _ := Loopback.query s
  kadGetClosestPeers s _ := Loopback.query s
  kadStartProviding s _ := Loopback.startQuery s
  kadStopProviding s _ := s
  kadRemoveRecord s _ := s
  multiaddrLe _ _ := true
  displayPeerId _ := "peer"
  mergeStats a b :=
    { duration := b.duration
      numRequests := a.numRequests + b.numRequests
      numSuccesses := a.numSuccesses + b.numSuccesses
      numFailures := a.numFailures + b.numFailures }

namespace Loopback

/-- A configuration without addresses and roles. -/
def config (bootstrapPeers : List (PeerId × Multiaddr)) : NodeConfig where
  protocolVersion := "/loopback/1.0.0"
  listenAddrs := []
  bootstrapPeers := bootstrapPeers
  enableRelayClient := false
  infrastructureMode := .off
  reqRespTimeout := 60
  dataChannelLimits := default

/-- The node that `start` returns for it. -/
def node (bootstrapPeers : List (PeerId × Multiaddr)) : Node loopback where
  loop := EventLoop.connectBootstrapPeers
    { swarm := ⟨({} : State), false, false, []⟩
      commandRx := .new _
      eventTx := .new _
      activeCommands := []
      protocolVersion := "/loopback/1.0.0"
      pendingChannels := .new 60
      pendingIdCounter := 0
      bootstrapPeers := fun _ => none
      enableRelayClient := false
      lanHelper := none
      advertisedLanAddrs := [] }
    bootstrapPeers
  phase := .top
  calls := fun _ => none
  handles := fun _ => {}
  clients := 1
  frontend := .receiving
  dataChannels := .new default
  now := 0

theorem started (bootstrapPeers : List (PeerId × Multiaddr)) :
    Started loopback (config bootstrapPeers) (node bootstrapPeers) :=
  ⟨{}, rfl, rfl⟩

theorem reachable (bootstrapPeers : List (PeerId × Multiaddr)) :
    Reachable loopback (config bootstrapPeers) (node bootstrapPeers) :=
  .initial (started bootstrapPeers)

/-! ### A peer -/

def peer : PeerId := ⟨[1]⟩

/-- The peer is a bootstrap peer, so it is being dialed. -/
def bootstrapping : Node loopback := node [(peer, [])]

def pingEvent : SwarmEvent String String := .behaviour (.ping peer (.ok 0))

end Loopback

end SwarmP2p
