import SwarmP2p.Model.Types

/-! # libp2p as the node sees it

The events that the swarm returns, and the calls that the node makes. What libp2p
does is a parameter, `Libp2p`; no law is assumed of it here. -/

namespace SwarmP2p

/-! ## Events -/

structure BootstrapOk where
  peer : PeerId
  numRemaining : Nat

/-- `FoundProviders` carries a set, listed here in the order in which it iterates. -/
structure PeerSet where
  elems : List PeerId
  nodup : elems.Nodup

inductive GetProvidersOk where
  | foundProviders (providers : PeerSet)
  | finishedWithNoAdditionalRecord (closestPeers : List PeerId)

inductive GetRecordOk where
  | foundRecord (record : Record)
  | finishedWithNoAdditionalRecord

/-- The result of one query step. An error is given by its debug text. `other` is a
query that the node never starts, such as a republication. -/
inductive QueryResult where
  | bootstrap (res : Except String BootstrapOk)
  | getClosestPeers (res : Except String (List PeerId))
  | getProviders (res : Except String GetProvidersOk)
  | getRecord (res : Except String GetRecordOk)
  | putRecord (res : Except String Unit)
  | startProviding (res : Except String Unit)
  | other

inductive KadEvent where
  | outboundQueryProgressed (id : QueryId) (result : QueryResult) (stats : QueryStats)
      (last : Bool)
  | routingUpdated (peer : PeerId) (addresses : List Multiaddr)
  | other

inductive OutboundFailure where
  | dialFailure
  | timeout
  | connectionClosed
  | unsupportedProtocols
  | other
  deriving DecidableEq, Repr

/-- `other` is an inbound failure or the notice that a response was sent. -/
inductive ReqRespEvent (Req Resp : Type) where
  | request (peer : PeerId) (request : Req) (channel : ResponseChannel)
  | response (peer : PeerId) (requestId : OutboundRequestId) (response : Resp)
  | outboundFailure (peer : PeerId) (requestId : OutboundRequestId) (error : OutboundFailure)
  | other

inductive RelayClientEvent where
  | reservationReqAccepted (relayPeerId : PeerId) (renewal : Bool)
  | outboundCircuitEstablished (relayPeerId : PeerId)
  | inboundCircuitEstablished (srcPeerId : PeerId)

/-- `transientFailure` stands for the five deprecated failure reports. -/
inductive RelayServerEvent where
  | reservationReqAccepted (srcPeerId : PeerId) (renewed : Bool)
  | reservationReqDenied (srcPeerId : PeerId) (status : String)
  | reservationClosed (srcPeerId : PeerId)
  | reservationTimedOut (srcPeerId : PeerId)
  | circuitReqAccepted (srcPeerId dstPeerId : PeerId)
  | circuitReqDenied (srcPeerId dstPeerId : PeerId) (status : String)
  | circuitClosed (srcPeerId dstPeerId : PeerId)
  | transientFailure

structure IdentifyInfo where
  protocolVersion : String
  agentVersion : String
  listenAddrs : List Multiaddr
  protocols : List String

inductive CoreBehaviourEvent (Req Resp : Type) where
  | ping (peer : PeerId) (rttNanos : Except String Nat)
  | identifyReceived (peerId : PeerId) (info : IdentifyInfo)
  | identifyOther
  | kad (event : KadEvent)
  | reqResp (event : ReqRespEvent Req Resp)
  | mdnsDiscovered (peers : List (PeerId × Multiaddr))
  | mdnsExpired (peers : List (PeerId × Multiaddr))
  | relayClient (event : RelayClientEvent)
  | relayServer (event : RelayServerEvent)
  | autonat (testedAddr : Multiaddr) (server : PeerId) (result : Except String Unit)
  | dcutr (remotePeerId : PeerId) (result : Except String Unit)

inductive SwarmEvent (Req Resp : Type) where
  | behaviour (event : CoreBehaviourEvent Req Resp)
  | connectionEstablished (peerId : PeerId) (numEstablished : Nat)
  | connectionClosed (peerId : PeerId) (numEstablished : Nat)
  | outgoingConnectionError (peerId : Option PeerId) (error : String)
  | incomingConnectionError
  | newListenAddr (address : Multiaddr)
  | expiredListenAddr (address : Multiaddr)
  | listenerClosed (addresses : List Multiaddr)
  | listenerError
  | other

/-! ## Calls -/

/-- The library under the node. `next s e s'` says that the swarm, polled in `s`, may
return `e` and be in `s'`; the other fields are the calls that the node makes.
`multiaddrLe` is the order that sorts addresses, `displayPeerId` prints a peer. -/
structure Libp2p (Req Resp : Type) where
  State : Type
  Initial : State → Prop
  next : State → SwarmEvent Req Resp → State → Prop
  isConnected : State → PeerId → Bool
  listeners : State → List Multiaddr
  externalAddresses : State → List Multiaddr
  dial : State → PeerId → State × Except String Unit
  disconnectPeerId : State → PeerId → State × Except Unit Unit
  listenOn : State → Multiaddr → State × Except String Unit
  addPeerAddress : State → PeerId → Multiaddr → State
  addExternalAddress : State → Multiaddr → State
  sendRequest : State → PeerId → Req → State × OutboundRequestId
  sendResponse : State → ResponseChannel → Resp → State × Except Unit Unit
  kadAddAddress : State → PeerId → Multiaddr → State
  kadBootstrap : State → State × Except String QueryId
  kadGetRecord : State → RecordKey → State × QueryId
  kadPutRecord : State → Record → State × Except String QueryId
  kadGetProviders : State → RecordKey → State × QueryId
  kadGetClosestPeers : State → RecordKey → State × QueryId
  kadStartProviding : State → RecordKey → State × Except String QueryId
  kadStopProviding : State → RecordKey → State
  kadRemoveRecord : State → RecordKey → State
  multiaddrLe : Multiaddr → Multiaddr → Bool
  displayPeerId : PeerId → String
  mergeStats : QueryStats → QueryStats → QueryStats

/-- A call that changes the swarm, with what libp2p answered. -/
inductive SwarmCall (Resp : Type) where
  | dial (peerId : PeerId) (accepted : Bool)
  | disconnectPeerId (peerId : PeerId) (accepted : Bool)
  | listenOn (addr : Multiaddr) (accepted : Bool)
  | addPeerAddress (peerId : PeerId) (addr : Multiaddr)
  | addExternalAddress (addr : Multiaddr)
  | sendRequest (peerId : PeerId) (id : OutboundRequestId)
  | sendResponse (channel : ResponseChannel) (response : Resp) (accepted : Bool)
  | kadAddAddress (peerId : PeerId) (addr : Multiaddr)
  | kadQuery (id : QueryId)
  | kadStopProviding (key : RecordKey)
  | kadRemoveRecord (key : RecordKey)

/-- The swarm together with the calls made on it so far, oldest first. The two flags
say which relay behaviours `CoreBehaviour::new` has switched on. -/
structure Swarm {Req Resp : Type} (L : Libp2p Req Resp) where
  state : L.State
  relayClient : Bool
  relayServer : Bool
  calls : List (SwarmCall Resp)

namespace Swarm

variable {Req Resp : Type} {L : Libp2p Req Resp}

/-- The swarm after a call that led to `state`. -/
def record (s : Swarm L) (state : L.State) (call : SwarmCall Resp) : Swarm L :=
  { s with state := state, calls := s.calls ++ [call] }

def isConnected (s : Swarm L) (peerId : PeerId) : Bool := L.isConnected s.state peerId

def dial (s : Swarm L) (peerId : PeerId) : Swarm L × Except String Unit :=
  let r := L.dial s.state peerId
  (s.record r.1 (.dial peerId r.2.isOk), r.2)

def disconnectPeerId (s : Swarm L) (peerId : PeerId) : Swarm L × Except Unit Unit :=
  let r := L.disconnectPeerId s.state peerId
  (s.record r.1 (.disconnectPeerId peerId r.2.isOk), r.2)

def listenOn (s : Swarm L) (addr : Multiaddr) : Swarm L × Except String Unit :=
  let r := L.listenOn s.state addr
  (s.record r.1 (.listenOn addr r.2.isOk), r.2)

def addPeerAddress (s : Swarm L) (peerId : PeerId) (addr : Multiaddr) : Swarm L :=
  s.record (L.addPeerAddress s.state peerId addr) (.addPeerAddress peerId addr)

def addExternalAddress (s : Swarm L) (addr : Multiaddr) : Swarm L :=
  s.record (L.addExternalAddress s.state addr) (.addExternalAddress addr)

def sendRequest (s : Swarm L) (peerId : PeerId) (request : Req) :
    Swarm L × OutboundRequestId :=
  let r := L.sendRequest s.state peerId request
  (s.record r.1 (.sendRequest peerId r.2), r.2)

def sendResponse (s : Swarm L) (channel : ResponseChannel) (response : Resp) :
    Swarm L × Except Unit Unit :=
  let r := L.sendResponse s.state channel response
  (s.record r.1 (.sendResponse channel response r.2.isOk), r.2)

def kadAddAddress (s : Swarm L) (peerId : PeerId) (addr : Multiaddr) : Swarm L :=
  s.record (L.kadAddAddress s.state peerId addr) (.kadAddAddress peerId addr)

/-- A Kad call that may start a query. -/
def startQuery (s : Swarm L) (r : L.State × Except String QueryId) :
    Swarm L × Except String QueryId :=
  match r.2 with
  | .ok id => (s.record r.1 (.kadQuery id), .ok id)
  | .error e => ({ s with state := r.1 }, .error e)

/-- A Kad call that always starts a query. -/
def query (s : Swarm L) (r : L.State × QueryId) : Swarm L × QueryId :=
  (s.record r.1 (.kadQuery r.2), r.2)

def kadBootstrap (s : Swarm L) : Swarm L × Except String QueryId :=
  s.startQuery (L.kadBootstrap s.state)

def kadGetRecord (s : Swarm L) (key : RecordKey) : Swarm L × QueryId :=
  s.query (L.kadGetRecord s.state key)

def kadPutRecord (s : Swarm L) (record : Record) : Swarm L × Except String QueryId :=
  s.startQuery (L.kadPutRecord s.state record)

def kadGetProviders (s : Swarm L) (key : RecordKey) : Swarm L × QueryId :=
  s.query (L.kadGetProviders s.state key)

def kadGetClosestPeers (s : Swarm L) (key : RecordKey) : Swarm L × QueryId :=
  s.query (L.kadGetClosestPeers s.state key)

def kadStartProviding (s : Swarm L) (key : RecordKey) : Swarm L × Except String QueryId :=
  s.startQuery (L.kadStartProviding s.state key)

def kadStopProviding (s : Swarm L) (key : RecordKey) : Swarm L :=
  s.record (L.kadStopProviding s.state key) (.kadStopProviding key)

def kadRemoveRecord (s : Swarm L) (key : RecordKey) : Swarm L :=
  s.record (L.kadRemoveRecord s.state key) (.kadRemoveRecord key)

end Swarm

end SwarmP2p
