import Mathlib.Algebra.Group.Nat.Defs
import Mathlib.Tactic.Common

/-! # Values shared by the node and libp2p -/

namespace SwarmP2p

/-- A peer is known by the bytes of its multihash. -/
structure PeerId where
  bytes : List UInt8
  deriving DecidableEq, Repr

structure Ipv4Addr where
  a : UInt8
  b : UInt8
  c : UInt8
  d : UInt8
  deriving DecidableEq, Repr

structure Ipv6Addr where
  segments : Vector UInt16 8
  deriving DecidableEq, Repr

/-- One component of a multiaddress. The node looks into IP, `/p2p` and
`/p2p-circuit` components only; `other` is any further one, by its code and data. -/
inductive Protocol where
  | ip4 (ip : Ipv4Addr)
  | ip6 (ip : Ipv6Addr)
  | p2p (peerId : PeerId)
  | p2pCircuit
  | other (code : Nat) (data : List UInt8)
  deriving DecidableEq, Repr

def Protocol.isP2p : Protocol → Bool
  | .p2p _ => true
  | _ => false

abbrev Multiaddr := List Protocol

/-- `Multiaddr::with` appends a component. -/
def Multiaddr.with (addr : Multiaddr) (p : Protocol) : Multiaddr := addr ++ [p]

abbrev StreamProtocol := String

structure RecordKey where
  bytes : List UInt8
  deriving DecidableEq, Repr

structure Record where
  key : RecordKey
  value : List UInt8
  deriving DecidableEq, Repr

structure QueryId where
  val : Nat
  deriving DecidableEq, Repr

structure OutboundRequestId where
  val : Nat
  deriving DecidableEq, Repr

/-- The one-shot sender on which an inbound request is answered. The name tells the
senders of different requests apart. -/
structure ResponseChannel where
  name : Nat
  deriving DecidableEq, Repr

/-! ### Errors -/

inductive NetworkFailureKind where
  | timeout
  | dialFailure
  | unsupportedProtocol
  | connectionClosed
  | cancelled
  | codecError
  | resourceLimitExceeded
  | unknown
  deriving DecidableEq, Repr

inductive DataChannelCloseReason where
  | normal
  | connectionClosed
  | localCancelled
  | unsupportedProtocol
  | resourceLimitExceeded
  | io (detail : String)
  deriving DecidableEq, Repr

/-- The variants of `Error` that the modelled code makes. -/
inductive Error where
  | dial (message : String)
  | listen (message : String)
  | kad (message : String)
  | requestResponse (message : String)
  | behaviour (message : String)
  | network (kind : NetworkFailureKind)
  | dataChannel (reason : DataChannelCloseReason)
  deriving DecidableEq, Repr

abbrev Result (α : Type) := Except Error α

inductive Poll (α : Type) where
  | ready (value : α)
  | pending
  deriving DecidableEq, Repr

/-! ### Kad query statistics -/

/-- `kad::QueryStats`: counters of one query. -/
structure QueryStats where
  duration : Option Nat
  numRequests : Nat
  numSuccesses : Nat
  numFailures : Nat
  deriving DecidableEq, Repr

structure QueryStatsInfo where
  duration : Option Nat
  numRequests : Nat
  numSuccesses : Nat
  numFailures : Nat
  deriving DecidableEq, Repr

def QueryStatsInfo.fromStats (value : QueryStats) : QueryStatsInfo where
  duration := value.duration
  numRequests := value.numRequests
  numSuccesses := value.numSuccesses
  numFailures := value.numFailures

structure BootstrapResult where
  numRemaining : Nat
  stats : QueryStatsInfo
  deriving DecidableEq, Repr

structure GetRecordResult where
  record : Record
  stats : QueryStatsInfo
  deriving DecidableEq, Repr

structure GetProvidersResult where
  providers : List PeerId
  stats : QueryStatsInfo
  deriving DecidableEq, Repr

structure GetClosestPeersResult where
  peers : List PeerId
  stats : QueryStatsInfo
  deriving DecidableEq, Repr

/-! ### Configuration -/

structure InfrastructureRoles where
  kadServer : Bool
  relayServer : Bool
  deriving DecidableEq, Repr

/-- The part of the LAN helper configuration that the event loop reads. -/
structure LanHelperConfig where
  announcePrivateAddrs : Bool
  deriving DecidableEq, Repr

inductive InfrastructureMode where
  | off
  | lanHelper (config : LanHelperConfig)
  deriving DecidableEq, Repr

/-- `usize` and `u64` values. -/
def wordSize : Nat := 2 ^ 64

structure DataChannelLimits where
  maxInboundPerPeer : Nat
  maxOutboundPerPeer : Nat
  maxPerProtocol : Nat
  inbound_lt : maxInboundPerPeer < wordSize
  outbound_lt : maxOutboundPerPeer < wordSize
  protocol_lt : maxPerProtocol < wordSize

instance : Inhabited DataChannelLimits :=
  ⟨4, 4, 64, by decide, by decide, by decide⟩

/-- The part of the node configuration that reaches the event loop. -/
structure NodeConfig where
  protocolVersion : String
  listenAddrs : List Multiaddr
  bootstrapPeers : List (PeerId × Multiaddr)
  enableRelayClient : Bool
  infrastructureMode : InfrastructureMode
  reqRespTimeout : Nat
  dataChannelLimits : DataChannelLimits

end SwarmP2p
