import SwarmP2p.Library.Channel
import SwarmP2p.Library.Tally
import SwarmP2p.Model.Types

/-! # Data channels and their quota

The registry, the futures that open outbound channels, the inbound queue and the
handles in the hands of the application, with every step that touches one of them.
The registry itself stores counters only; `live` lists the guards that exist. -/

namespace SwarmP2p

inductive DataChannelDirection where
  | outbound
  | inbound
  deriving DecidableEq, Repr

structure DataChannelId where
  val : Nat
  deriving DecidableEq, Repr

/-- The byte stream itself, which only its name tells apart from others. -/
structure Stream where
  name : Nat
  deriving DecidableEq, Repr

/-- A guard is a value with one owner. The serial number, which the source does not
have, tells guards of the same peer, protocol and direction apart. -/
structure ChannelGuard where
  serial : Nat
  peer : PeerId
  protocol : StreamProtocol
  direction : DataChannelDirection
  deriving DecidableEq, Repr

/-! ## The registry -/

structure RegistryInner where
  inboundPerPeer : PeerId → Option Nat
  outboundPerPeer : PeerId → Option Nat
  perProtocol : StreamProtocol → Option Nat

def RegistryInner.empty : RegistryInner := ⟨fun _ => none, fun _ => none, fun _ => none⟩

/-- The map that counts the channels of one direction. -/
def RegistryInner.perPeer (inner : RegistryInner) :
    DataChannelDirection → PeerId → Option Nat
  | .inbound => inner.inboundPerPeer
  | .outbound => inner.outboundPerPeer

def RegistryInner.setPerPeer (inner : RegistryInner) (direction : DataChannelDirection)
    (m : PeerId → Option Nat) : RegistryInner :=
  match direction with
  | .inbound => { inner with inboundPerPeer := m }
  | .outbound => { inner with outboundPerPeer := m }

def DataChannelLimits.perPeer (limits : DataChannelLimits) : DataChannelDirection → Nat
  | .inbound => limits.maxInboundPerPeer
  | .outbound => limits.maxOutboundPerPeer

structure ChannelRegistry where
  limits : DataChannelLimits
  inner : RegistryInner

/-- `ChannelRegistry::try_acquire`: the counters with one more channel, or `none` when a
limit is reached. -/
def ChannelRegistry.tryAcquire (self : ChannelRegistry) (peer : PeerId)
    (protocol : StreamProtocol) (direction : DataChannelDirection) : Option ChannelRegistry :=
  let perPeerCount := (self.inner.perPeer direction peer).getD 0
  let perProtocolCount := (self.inner.perProtocol protocol).getD 0
  if perPeerCount ≥ self.limits.perPeer direction ∨
      perProtocolCount ≥ self.limits.maxPerProtocol then none
  else
    let inner := self.inner.setPerPeer direction
      (Tally.incr wordSize (self.inner.perPeer direction) peer)
    some { self with
      inner := { inner with perProtocol := Tally.incr wordSize inner.perProtocol protocol } }

/-- `ChannelGuard::drop`. -/
def ChannelGuard.drop (self : ChannelGuard) (inner : RegistryInner) : RegistryInner :=
  let inner := inner.setPerPeer self.direction
    (Tally.decr (inner.perPeer self.direction) self.peer)
  { inner with perProtocol := Tally.decr inner.perProtocol self.protocol }

/-! ## Handles and futures -/

structure DataChannel where
  id : DataChannelId
  peer : PeerId
  protocol : StreamProtocol
  direction : DataChannelDirection
  stream : Stream
  guard : Option ChannelGuard
  deriving DecidableEq, Repr

structure InboundDataChannel where
  channel : DataChannel
  deriving DecidableEq, Repr

/-- A stream that `into_stream` took out of its handle, with the handle's metadata. -/
structure UnwrappedStream where
  peer : PeerId
  protocol : StreamProtocol
  direction : DataChannelDirection
  stream : Stream
  deriving DecidableEq, Repr

inductive OpenState where
  | init
  | opening (id : DataChannelId) (guard : ChannelGuard)
  | finished
  deriving DecidableEq, Repr

structure DataChannelOpenFuture where
  peer : PeerId
  protocol : StreamProtocol
  state : OpenState
  deriving DecidableEq, Repr

inductive OpenStreamError where
  | unsupportedProtocol
  | io (error : String)
  | other
  deriving DecidableEq, Repr

def mapOpenStreamError : OpenStreamError → Error
  | .unsupportedProtocol => .dataChannel .unsupportedProtocol
  | .io e => .dataChannel (.io e)
  | .other => .network .unknown

/-- How a poll of `open_stream` under its timeout ends. -/
inductive StreamPoll where
  | pending
  | opened (stream : Stream)
  | failed (error : OpenStreamError)
  | elapsed
  deriving DecidableEq, Repr

def dcInboundChannelSize : Nat := 16

@[ext] structure DataChannels where
  registry : ChannelRegistry
  channelIdCounter : Nat
  /-- The futures that exist, in the order of their creation. -/
  opens : List DataChannelOpenFuture
  inboundDc : Channel dcInboundChannelSize InboundDataChannel
  /-- The handles that the application holds. -/
  held : List DataChannel
  unwrapped : List UnwrappedStream
  live : List ChannelGuard
  nextSerial : Nat

namespace DataChannels

def new (limits : DataChannelLimits) : DataChannels where
  registry := ⟨limits, .empty⟩
  channelIdCounter := 0
  opens := []
  inboundDc := .new _
  held := []
  unwrapped := []
  live := []
  nextSerial := 0

/-- `try_acquire` with the guard it returns. -/
def acquire (s : DataChannels) (peer : PeerId) (protocol : StreamProtocol)
    (direction : DataChannelDirection) : Option (ChannelGuard × DataChannels) :=
  (s.registry.tryAcquire peer protocol direction).map fun registry =>
    let guard := ⟨s.nextSerial, peer, protocol, direction⟩
    (guard, { s with
      registry := registry
      live := guard :: s.live
      nextSerial := s.nextSerial + 1 })

def release (s : DataChannels) (guard : ChannelGuard) : DataChannels :=
  { s with
    registry := { s.registry with inner := guard.drop s.registry.inner }
    live := s.live.erase guard }

/-- What dropping a value that may own a guard does to the registry. -/
def releaseOption (s : DataChannels) : Option ChannelGuard → DataChannels
  | some guard => s.release guard
  | none => s

/-- `DataChannelId::next`. -/
def nextId (s : DataChannels) : DataChannelId × DataChannels :=
  (⟨s.channelIdCounter⟩, { s with channelIdCounter := (s.channelIdCounter + 1) % wordSize })

/-- `EventLoop::handle_inbound_channel`. A handle that `try_send` gives back is dropped
at the end of the `match`. -/
def handleInboundChannel (s : DataChannels) (protocol : StreamProtocol) (peer : PeerId)
    (stream : Stream) : DataChannels :=
  match s.acquire peer protocol .inbound with
  | none => s
  | some (guard, s) =>
      let (id, s) := s.nextId
      let channel : DataChannel := ⟨id, peer, protocol, .inbound, stream, some guard⟩
      match s.inboundDc.trySend ⟨channel⟩ with
      | .ok inboundDc => { s with inboundDc := inboundDc }
      | .error _ => s.release guard

end DataChannels

namespace DataChannelOpenFuture

def guard (self : DataChannelOpenFuture) : Option ChannelGuard :=
  match self.state with
  | .opening _ guard => some guard
  | _ => none

/-- The arm `OpenState::Opening`: one poll of `open_stream_with_guard`, whose locals go
away when it ends. -/
def pollOpening (self : DataChannelOpenFuture) (id : DataChannelId) (guard : ChannelGuard)
    (s : DataChannels) :
    StreamPoll → DataChannelOpenFuture × DataChannels × Poll (Result DataChannel)
  | .pending => ({ self with state := .opening id guard }, s, .pending)
  | .opened stream =>
      ({ self with state := .finished }, s,
        .ready (.ok ⟨id, self.peer, self.protocol, .outbound, stream, some guard⟩))
  | .failed e =>
      ({ self with state := .finished }, s.release guard,
        .ready (.error (mapOpenStreamError e)))
  | .elapsed =>
      ({ self with state := .finished }, s.release guard, .ready (.error (.network .timeout)))

/-- `DataChannelOpenFuture::poll`; `none` is the panic on a finished future. -/
def poll (self : DataChannelOpenFuture) (s : DataChannels) (outcome : StreamPoll) :
    Option (DataChannelOpenFuture × DataChannels × Poll (Result DataChannel)) :=
  match self.state with
  | .init =>
      match s.acquire self.peer self.protocol .outbound with
      | none =>
          some ({ self with state := .finished }, s,
            .ready (.error (.dataChannel .resourceLimitExceeded)))
      | some (guard, s) =>
          let (id, s) := s.nextId
          some (self.pollOpening id guard s outcome)
  | .opening id guard => some (self.pollOpening id guard s outcome)
  | .finished => none

end DataChannelOpenFuture

/-- The handle that a poll gives to its caller. -/
def deliveredChannel : Poll (Result DataChannel) → List DataChannel
  | .ready (.ok channel) => [channel]
  | _ => []

/-! ## Steps -/

/-- A position in a list of futures, handles or streams is given by the number of
entries in front of it. -/
inductive DataChannelLabel where
  | openDataChannel (peer : PeerId) (protocol : StreamProtocol)
  | pollOpen (index : Nat) (outcome : StreamPoll)
  | dropOpen (index : Nat)
  | inbound (protocol : StreamProtocol) (peer : PeerId) (stream : Stream)
  | recvChannel
  | dropChannelReceiver
  | dropChannel (index : Nat)
  | intoStream (index : Nat)
  | dropStream (index : Nat)
  deriving DecidableEq, Repr

inductive DataChannelStep : DataChannels → DataChannelLabel → DataChannels → Prop where
  | openDataChannel (s peer protocol) :
      DataChannelStep s (.openDataChannel peer protocol)
        { s with opens := s.opens ++ [⟨peer, protocol, .init⟩] }
  | pollOpen {s : DataChannels} {front back f f' t r} (outcome)
      (h : s.opens = front ++ f :: back) (hp : f.poll s outcome = some (f', t, r)) :
      DataChannelStep s (.pollOpen front.length outcome)
        { t with
          opens := front ++ f' :: back
          held := t.held ++ deliveredChannel r }
  | dropOpen {s : DataChannels} {front back f} (h : s.opens = front ++ f :: back) :
      DataChannelStep s (.dropOpen front.length)
        { s.releaseOption f.guard with opens := front ++ back }
  | inbound (s protocol peer stream) :
      DataChannelStep s (.inbound protocol peer stream)
        (s.handleInboundChannel protocol peer stream)
  | recvChannel {s : DataChannels} {inbound inboundDc}
      (h : s.inboundDc.tryRecv = some (inbound, inboundDc)) :
      DataChannelStep s .recvChannel
        { s with inboundDc := inboundDc, held := s.held ++ [inbound.channel] }
  | dropChannelReceiver (s : DataChannels) :
      DataChannelStep s .dropChannelReceiver
        { s.inboundDc.queue.foldl (fun s i => s.releaseOption i.channel.guard) s with
          inboundDc := s.inboundDc.closeRx }
  | dropChannel {s : DataChannels} {front back channel}
      (h : s.held = front ++ channel :: back) :
      DataChannelStep s (.dropChannel front.length)
        { s.releaseOption channel.guard with held := front ++ back }
  | intoStream {s : DataChannels} {front back channel}
      (h : s.held = front ++ channel :: back) :
      DataChannelStep s (.intoStream front.length)
        { s.releaseOption channel.guard with
          held := front ++ back
          unwrapped := s.unwrapped ++
            [⟨channel.peer, channel.protocol, channel.direction, channel.stream⟩] }
  | dropStream {s : DataChannels} {front back x} (h : s.unwrapped = front ++ x :: back) :
      DataChannelStep s (.dropStream front.length) { s with unwrapped := front ++ back }

end SwarmP2p
