import SwarmP2p.Library.Chain
import SwarmP2p.Library.Channel
import SwarmP2p.Model.Command
import SwarmP2p.Model.PendingMap
import Mathlib.Logic.Function.Basic

/-! # The event loop

`EventLoop` has the fields of the source's struct; the ends of the channels and the
clones of the pending map that clients hold refer to the same queue and table, so they
are kept once, here. The data-channel fields are in `DataChannels`. -/

namespace SwarmP2p

def commandChannelSize : Nat := 32

def eventChannelSize : Nat := 64

/-! ## Node events -/

inductive NatStatus where
  | natPublic
  | natUnknown
  deriving DecidableEq, Repr

inductive NodeEvent (Req : Type) where
  | listening (addr : Multiaddr)
  | peersDiscovered (peers : List (PeerId × Multiaddr))
  | peerConnected (peerId : PeerId)
  | peerDisconnected (peerId : PeerId)
  | identifyReceived (peerId : PeerId) (agentVersion protocolVersion : String)
      (listenAddrs : List Multiaddr) (protocols : List String)
  | pingSuccess (peerId : PeerId) (rttMs : Nat)
  | natStatusChanged (status : NatStatus) (publicAddr : Option Multiaddr)
  | holePunchSucceeded (peerId : PeerId)
  | holePunchFailed (peerId : PeerId) (error : String)
  | relayReservationAccepted (relayPeerId : PeerId) (renewal : Bool)
  | relayServerReservationAccepted (srcPeerId : PeerId) (renewed : Bool)
  | relayServerReservationDenied (srcPeerId : PeerId) (status : String)
  | relayServerReservationClosed (srcPeerId : PeerId)
  | relayServerCircuitAccepted (srcPeerId dstPeerId : PeerId)
  | relayServerCircuitDenied (srcPeerId dstPeerId : PeerId) (status : String)
  | relayServerCircuitClosed (srcPeerId dstPeerId : PeerId)
  | lanHelperStatusChanged (relayServerEnabled : Bool) (advertisedAddrs : List Multiaddr)
  | inboundRequest (peerId : PeerId) (pendingId : Nat) (request : Req)

/-! ## LAN addresses -/

namespace Ipv4Addr

def isPrivate (ip : Ipv4Addr) : Bool :=
  ip.a == 10 || (ip.a == 172 && 16 ≤ ip.b && ip.b ≤ 31) || (ip.a == 192 && ip.b == 168)

def isLoopback (ip : Ipv4Addr) : Bool := ip.a == 127

def isLinkLocal (ip : Ipv4Addr) : Bool := ip.a == 169 && ip.b == 254

def isUnspecified (ip : Ipv4Addr) : Bool := ip == ⟨0, 0, 0, 0⟩

end Ipv4Addr

namespace Ipv6Addr

def isLoopback (ip : Ipv6Addr) : Bool := ip == ⟨#v[0, 0, 0, 0, 0, 0, 0, 1]⟩

def isUnspecified (ip : Ipv6Addr) : Bool := ip == ⟨#v[0, 0, 0, 0, 0, 0, 0, 0]⟩

end Ipv6Addr

/-- The test that `is_usable_lan_addr` makes of each component. -/
def isUsableLanComponent : Protocol → Bool
  | .ip4 ip => ip.isPrivate && !ip.isLoopback && !ip.isLinkLocal && !ip.isUnspecified
  | .ip6 ip =>
      (ip.segments[0] &&& 0xfe00) == 0xfc00 && !ip.isLoopback && !ip.isUnspecified
  | _ => false

def isUsableLanAddr (addr : Multiaddr) : Bool := addr.any isUsableLanComponent

/-! ## The loop's state -/

abbrev HandleId := Nat

/-- `CommandTask`: a command and the handle on which it answers. -/
structure Task (Req Resp : Type) where
  command : Command Req Resp
  handle : HandleId

structure EventLoop {Req Resp : Type} (L : Libp2p Req Resp) where
  swarm : Swarm L
  commandRx : Channel commandChannelSize (Task Req Resp)
  eventTx : Channel eventChannelSize (NodeEvent Req)
  activeCommands : List (Task Req Resp)
  protocolVersion : String
  pendingChannels : PendingMap Nat ResponseChannel
  pendingIdCounter : Nat
  bootstrapPeers : PeerId → Option (List Multiaddr)
  enableRelayClient : Bool
  lanHelper : Option LanHelperConfig
  advertisedLanAddrs : List Multiaddr

variable {Req Resp : Type} {L : Libp2p Req Resp}

/-- `CommandTask::on_event_boxed` as an offer in the command chain: what it puts out is
the call of `handle.finish`, if there is one. -/
def Task.onEvent (L : Libp2p Req Resp) (self : Task Req Resp) (event : SwarmEvent Req Resp) :
    Chain.Offer (Task Req Resp) (HandleId × Result (Output Resp)) (SwarmEvent Req Resp) :=
  let r := self.command.onEvent L event
  ⟨⟨r.handler, self.handle⟩, (r.finished.map (fun x => (self.handle, x))).toList, r.keep,
    r.remaining⟩

namespace EventLoop

def startListen (self : EventLoop L) : List Multiaddr → Result (EventLoop L)
  | [] => .ok self
  | addr :: addrs =>
      match self.swarm.listenOn addr with
      | (swarm, .ok ()) => startListen { self with swarm := swarm } addrs
      | (_, .error e) => .error (.listen e)

/-- `bootstrap_peers.entry(peer_id).or_default().extend(addrs)`. -/
def extendBootstrapPeers (self : EventLoop L) (peerId : PeerId) (addrs : List Multiaddr) :
    EventLoop L :=
  { self with
    bootstrapPeers := Function.update self.bootstrapPeers peerId
      (some ((self.bootstrapPeers peerId).getD [] ++ addrs)) }

/-- The body of the loop over the configured peers. -/
def connectBootstrapPeer (self : EventLoop L) (entry : PeerId × Multiaddr) : EventLoop L :=
  let swarm := self.swarm.kadAddAddress entry.1 entry.2
  let swarm := swarm.addPeerAddress entry.1 entry.2
  let self := { self with swarm := (swarm.dial entry.1).1 }
  if self.enableRelayClient then self.extendBootstrapPeers entry.1 [entry.2] else self

def connectBootstrapPeers (self : EventLoop L) (peers : List (PeerId × Multiaddr)) :
    EventLoop L :=
  peers.foldl connectBootstrapPeer self

/-- The circuit address on which a reservation at the peer is requested. -/
def relayAddr (peerId : PeerId) (addr : Multiaddr) : Multiaddr :=
  let base :=
    if addr.any Protocol.isP2p then addr else addr.with (.p2p peerId)
  base.with .p2pCircuit

def requestRelayReservations (self : EventLoop L) (peerId : PeerId) (addrs : List Multiaddr) :
    EventLoop L :=
  { self with
    swarm := addrs.foldl (fun swarm addr => (swarm.listenOn (relayAddr peerId addr)).1)
      self.swarm }

/-- What `handle_command` does with the request that a command left in `run`. -/
def scheduleRelayReservations (self : EventLoop L) :
    Option (PeerId × List Multiaddr) → EventLoop L
  | none => self
  | some (peerId, addrs) =>
      if self.swarm.isConnected peerId then self.requestRelayReservations peerId addrs
      else self.extendBootstrapPeers peerId addrs

/-- `next_pending_id`: `AtomicU64::fetch_add` wraps. -/
def nextPendingId (self : EventLoop L) : EventLoop L × Nat :=
  ({ self with pendingIdCounter := (self.pendingIdCounter + 1) % wordSize },
    self.pendingIdCounter)

/-- `event_tx.try_send` of a status event, whose failure is only logged. -/
def trySendStatus (self : EventLoop L) (event : NodeEvent Req) : EventLoop L :=
  match self.eventTx.trySend event with
  | .ok eventTx => { self with eventTx := eventTx }
  | .error _ => self

def advertise (self : EventLoop L) (addr : Multiaddr) : EventLoop L :=
  if isUsableLanAddr addr && !self.advertisedLanAddrs.contains addr then
    { self with
      swarm := self.swarm.addExternalAddress addr
      advertisedLanAddrs := self.advertisedLanAddrs ++ [addr] }
  else self

def maybeAnnounceLanHelperAddr (self : EventLoop L) (addr : Multiaddr) : EventLoop L :=
  match self.lanHelper with
  | none => self
  | some config =>
      if config.announcePrivateAddrs then
        let self := self.advertise addr
        self.trySendStatus
          (.lanHelperStatusChanged self.swarm.relayServer self.advertisedLanAddrs)
      else self

def dialDiscovered (swarm : Swarm L) (peerId : PeerId) : Swarm L :=
  if swarm.isConnected peerId then swarm else (swarm.dial peerId).1

/-- The arm for `mdns::Event::Discovered`; `order` is the order in which the set of
discovered peers iterates. -/
def handleDiscovered (self : EventLoop L) (order : List PeerId)
    (peers : List (PeerId × Multiaddr)) : EventLoop L :=
  let swarm := peers.foldl (fun s entry => s.addPeerAddress entry.1 entry.2) self.swarm
  { self with swarm := order.foldl dialDiscovered swarm }

def registerListenAddr (peerId : PeerId) (swarm : Swarm L) (addr : Multiaddr) : Swarm L :=
  (swarm.kadAddAddress peerId addr).addPeerAddress peerId addr

/-- The arm for `identify::Event::Received`. -/
def handleIdentify (self : EventLoop L) (peerId : PeerId) (info : IdentifyInfo) :
    EventLoop L :=
  if info.protocolVersion = self.protocolVersion then
    let self := { self with
      swarm := info.listenAddrs.foldl (registerListenAddr peerId) self.swarm }
    match self.bootstrapPeers peerId with
    | none => self
    | some addrs =>
        { self with
          bootstrapPeers := Function.update self.bootstrapPeers peerId none
        }.requestRelayReservations peerId addrs
  else self

def convertRelayServerEvent : RelayServerEvent → Option (NodeEvent Req)
  | .reservationReqAccepted srcPeerId renewed =>
      some (.relayServerReservationAccepted srcPeerId renewed)
  | .reservationReqDenied srcPeerId status =>
      some (.relayServerReservationDenied srcPeerId status)
  | .reservationClosed srcPeerId => some (.relayServerReservationClosed srcPeerId)
  | .reservationTimedOut srcPeerId => some (.relayServerReservationClosed srcPeerId)
  | .circuitReqAccepted srcPeerId dstPeerId =>
      some (.relayServerCircuitAccepted srcPeerId dstPeerId)
  | .circuitReqDenied srcPeerId dstPeerId status =>
      some (.relayServerCircuitDenied srcPeerId dstPeerId status)
  | .circuitClosed srcPeerId dstPeerId => some (.relayServerCircuitClosed srcPeerId dstPeerId)
  | .transientFailure => none

def convertBehaviourEvent (self : EventLoop L) (now : Nat) (order : List PeerId) :
    CoreBehaviourEvent Req Resp → EventLoop L × Option (NodeEvent Req)
  | .relayClient (.reservationReqAccepted relayPeerId renewal) =>
      (self, some (.relayReservationAccepted relayPeerId renewal))
  | .relayClient (.outboundCircuitEstablished _) => (self, none)
  | .relayClient (.inboundCircuitEstablished _) => (self, none)
  | .relayServer event => (self, convertRelayServerEvent event)
  | .reqResp (.request peer request channel) =>
      let (self, pendingId) := self.nextPendingId
      ({ self with pendingChannels := self.pendingChannels.insert now pendingId channel },
        some (.inboundRequest peer pendingId request))
  | .dcutr remotePeerId (.ok ()) => (self, some (.holePunchSucceeded remotePeerId))
  | .dcutr remotePeerId (.error e) => (self, some (.holePunchFailed remotePeerId e))
  | .mdnsDiscovered peers =>
      (self.handleDiscovered order peers, some (.peersDiscovered peers))
  | .ping peer (.ok rttNanos) =>
      (self, some (.pingSuccess peer (rttNanos / 1000000 % wordSize)))
  | .identifyReceived peerId info =>
      (self.handleIdentify peerId info,
        some (.identifyReceived peerId info.agentVersion info.protocolVersion
          info.listenAddrs info.protocols))
  | .autonat testedAddr _ (.ok ()) =>
      (self, some (.natStatusChanged .natPublic (some testedAddr)))
  | .autonat _ _ (.error _) => (self, none)
  | .kad (.routingUpdated peer addresses) =>
      ({ self with
        swarm := addresses.foldl (fun s addr => s.addPeerAddress peer addr) self.swarm }, none)
  | _ => (self, none)

def convertToNodeEvent (self : EventLoop L) (now : Nat) (order : List PeerId) :
    SwarmEvent Req Resp → EventLoop L × Option (NodeEvent Req)
  | .behaviour event => self.convertBehaviourEvent now order event
  | .newListenAddr address =>
      (self.maybeAnnounceLanHelperAddr address, some (.listening address))
  -- Only the first connection to a peer and the loss of the last one are reported.
  | .connectionEstablished peerId numEstablished =>
      (self, if numEstablished = 1 then some (.peerConnected peerId) else none)
  | .connectionClosed peerId numEstablished =>
      (self, if numEstablished = 0 then some (.peerDisconnected peerId) else none)
  | _ => (self, none)

end EventLoop

/-- The peers of a discovery event, as the set over which the handler iterates. -/
def SwarmEvent.discoveredPeers : SwarmEvent Req Resp → List PeerId
  | .behaviour (.mdnsDiscovered peers) => peers.map Prod.fst
  | _ => []

/-- `order` lists the discovered peers once each. -/
def IterationOrder (event : SwarmEvent Req Resp) (order : List PeerId) : Prop :=
  order.Nodup ∧ ∀ p, p ∈ order ↔ p ∈ event.discoveredPeers

end SwarmP2p
