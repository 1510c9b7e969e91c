import SwarmP2p.Model.Libp2p
import Mathlib.Data.List.Destutter

/-! # Commands

The result handle that ties a command to its caller, and the sixteen commands. Each
command has the two functions of `CommandHandler`: `run`, and `onEvent` with what it
does to an event that the swarm returns. No `on_event` of the source touches the swarm
it is given, so `onEvent` has no such argument. -/

namespace SwarmP2p

/-! ## Result handles -/

abbrev Waker := Nat

/-- The state behind a `ResultHandle`. The last two fields record the past and are
read by no function: every result the handle was finished with, and every waker it
has woken, oldest first. -/
structure ResultState (R : Type) where
  result : Option (Result R) := none
  waker : Option Waker := none
  cancelled : Bool := false
  outcomes : List (Result R) := []
  wakes : List Waker := []

namespace ResultState

variable {R : Type}

def poll (state : ResultState R) (waker : Waker) : ResultState R × Poll (Result R) :=
  match state.result with
  | some result => ({ state with result := none }, .ready result)
  | none => ({ state with waker := some waker }, .pending)

def finish (state : ResultState R) (result : Result R) : ResultState R :=
  { state with
    result := some result
    waker := none
    outcomes := state.outcomes ++ [result]
    wakes := state.wakes ++ state.waker.toList }

def cancel (state : ResultState R) : ResultState R := { state with cancelled := true }

@[simp] theorem finish_result (s : ResultState R) (r : Result R) :
    (s.finish r).result = some r := rfl

@[simp] theorem finish_cancelled (s : ResultState R) (r : Result R) :
    (s.finish r).cancelled = s.cancelled := rfl

@[simp] theorem finish_outcomes (s : ResultState R) (r : Result R) :
    (s.finish r).outcomes = s.outcomes ++ [r] := rfl

@[simp] theorem cancel_result (s : ResultState R) : s.cancel.result = s.result := rfl

@[simp] theorem cancel_cancelled (s : ResultState R) : s.cancel.cancelled = true := rfl

@[simp] theorem cancel_outcomes (s : ResultState R) : s.cancel.outcomes = s.outcomes := rfl

theorem poll_of_some {s : ResultState R} {r : Result R} (h : s.result = some r) (w : Waker) :
    s.poll w = ({ s with result := none }, .ready r) := by
  simp [poll, h]

theorem poll_of_none {s : ResultState R} (h : s.result = none) (w : Waker) :
    s.poll w = ({ s with waker := some w }, .pending) := by
  simp [poll, h]

end ResultState

/-! ## The two functions of a command -/

/-- What `run` leaves: the command, the swarm, and the result if it called
`handle.finish`. -/
structure Ran {Req Resp : Type} (L : Libp2p Req Resp) (T R : Type) where
  handler : T
  swarm : Swarm L
  finished : Option (Result R)

/-- What `on_event` leaves: the command, the result if it called `handle.finish`,
`keep_active` and `remaining_event`. -/
structure OnEvent (Req Resp T R : Type) where
  handler : T
  finished : Option (Result R)
  keep : Bool
  remaining : Option (SwarmEvent Req Resp)

def Ran.map {Req Resp T R U S : Type} {L : Libp2p Req Resp} (f : T → U) (g : R → S)
    (r : Ran L T R) : Ran L U S :=
  ⟨f r.handler, r.swarm, r.finished.map (Except.map g)⟩

def OnEvent.map {Req Resp T R U S : Type} (f : T → U) (g : R → S)
    (r : OnEvent Req Resp T R) : OnEvent Req Resp U S :=
  ⟨f r.handler, r.finished.map (Except.map g), r.keep, r.remaining⟩

/-- `CommandHandler::on_event` as the trait provides it. -/
def defaultOnEvent {Req Resp T R : Type} (self : T) (event : SwarmEvent Req Resp) :
    OnEvent Req Resp T R :=
  ⟨self, none, false, some event⟩

/-- The arm `other => (true, Some(other))`. -/
def passEvent {Req Resp T R : Type} (self : T) (event : SwarmEvent Req Resp) :
    OnEvent Req Resp T R :=
  ⟨self, none, true, some event⟩

variable {Req Resp : Type} {L : Libp2p Req Resp}

/-! ## Connection commands -/

structure DialCommand where
  peerId : PeerId

def DialCommand.run (self : DialCommand) (swarm : Swarm L) : Ran L DialCommand Unit :=
  if swarm.isConnected self.peerId then ⟨self, swarm, some (.ok ())⟩
  else
    match swarm.dial self.peerId with
    | (swarm, .ok ()) => ⟨self, swarm, none⟩
    | (swarm, .error e) => ⟨self, swarm, some (.error (.dial e))⟩

def DialCommand.onEvent (self : DialCommand) (event : SwarmEvent Req Resp) :
    OnEvent Req Resp DialCommand Unit :=
  match event with
  | .connectionEstablished peerId _ =>
      if peerId = self.peerId then ⟨self, some (.ok ()), false, some event⟩
      else passEvent self event
  | .outgoingConnectionError (some peerId) error =>
      if peerId = self.peerId then ⟨self, some (.error (.dial error)), false, some event⟩
      else passEvent self event
  | _ => passEvent self event

structure DisconnectCommand where
  peerId : PeerId

def DisconnectCommand.run (self : DisconnectCommand) (swarm : Swarm L) :
    Ran L DisconnectCommand Unit :=
  match swarm.disconnectPeerId self.peerId with
  | (swarm, .ok ()) => ⟨self, swarm, none⟩
  | (swarm, .error ()) =>
      ⟨self, swarm,
        some (.error (.dial ("peer " ++ L.displayPeerId self.peerId ++ " is not connected")))⟩

def DisconnectCommand.onEvent (self : DisconnectCommand) (event : SwarmEvent Req Resp) :
    OnEvent Req Resp DisconnectCommand Unit :=
  match event with
  | .connectionClosed peerId numEstablished =>
      if peerId = self.peerId ∧ numEstablished = 0 then ⟨self, some (.ok ()), false, some event⟩
      else passEvent self event
  | _ => passEvent self event

structure IsConnectedCommand where
  peerId : PeerId

def IsConnectedCommand.run (self : IsConnectedCommand) (swarm : Swarm L) :
    Ran L IsConnectedCommand Bool :=
  ⟨self, swarm, some (.ok (swarm.isConnected self.peerId))⟩

structure GetListenAddrsCommand where

/-- Sorted, then without consecutive duplicates. -/
def GetListenAddrsCommand.run (self : GetListenAddrsCommand) (swarm : Swarm L) :
    Ran L GetListenAddrsCommand (List Multiaddr) :=
  let addrs := L.listeners swarm.state ++ L.externalAddresses swarm.state
  ⟨self, swarm, some (.ok ((addrs.mergeSort L.multiaddrLe).destutter (· ≠ ·)))⟩

structure AddPeerAddrsCommand where
  peerId : PeerId
  addrs : List Multiaddr

def AddPeerAddrsCommand.run (self : AddPeerAddrsCommand) (swarm : Swarm L) :
    Ran L AddPeerAddrsCommand Unit :=
  let swarm := self.addrs.foldl (fun s addr => s.addPeerAddress self.peerId addr) swarm
  ⟨self, swarm, some (.ok ())⟩

structure AddInfrastructurePeerCommand where
  peerId : PeerId
  addrs : List Multiaddr
  roles : InfrastructureRoles
  pendingRelayAddrs : Option (List Multiaddr)

def AddInfrastructurePeerCommand.new (peerId : PeerId) (addrs : List Multiaddr)
    (roles : InfrastructureRoles) : AddInfrastructurePeerCommand :=
  ⟨peerId, addrs, roles, none⟩

/-- The body of the loop over the addresses. -/
def AddInfrastructurePeerCommand.register (self : AddInfrastructurePeerCommand)
    (swarm : Swarm L) (addr : Multiaddr) : Swarm L :=
  let swarm := swarm.addPeerAddress self.peerId addr
  if self.roles.kadServer then swarm.kadAddAddress self.peerId addr else swarm

/-- A refused dial is only logged: every path answers `Ok`. -/
def AddInfrastructurePeerCommand.run (self : AddInfrastructurePeerCommand)
    (swarm : Swarm L) : Ran L AddInfrastructurePeerCommand Unit :=
  let swarm := self.addrs.foldl self.register swarm
  let self :=
    if self.roles.relayServer && swarm.relayClient then
      { self with pendingRelayAddrs := some self.addrs }
    else self
  if swarm.isConnected self.peerId then ⟨self, swarm, some (.ok ())⟩
  else ⟨self, (swarm.dial self.peerId).1, some (.ok ())⟩

def AddInfrastructurePeerCommand.takeRelayReservationRequest
    (self : AddInfrastructurePeerCommand) :
    AddInfrastructurePeerCommand × Option (PeerId × List Multiaddr) :=
  ({ self with pendingRelayAddrs := none },
    self.pendingRelayAddrs.map (fun addrs => (self.peerId, addrs)))

/-! ## Request-response commands -/

structure SendRequestCommand (Req : Type) where
  peerId : PeerId
  request : Option Req
  requestId : Option OutboundRequestId

def SendRequestCommand.new (peerId : PeerId) (request : Req) : SendRequestCommand Req :=
  ⟨peerId, some request, none⟩

def SendRequestCommand.run (self : SendRequestCommand Req) (swarm : Swarm L) :
    Ran L (SendRequestCommand Req) Resp :=
  match self.request with
  | none => ⟨self, swarm, some (.error (.requestResponse "SendRequest: run called twice"))⟩
  | some request =>
      match swarm.sendRequest self.peerId request with
      | (swarm, requestId) =>
          ⟨{ self with request := none, requestId := some requestId }, swarm, none⟩

def mapOutboundFailure (err : OutboundFailure) : Error :=
  .network (match err with
    | .dialFailure => .dialFailure
    | .timeout => .timeout
    | .connectionClosed => .connectionClosed
    | .unsupportedProtocols => .unsupportedProtocol
    | .other => .unknown)

def SendRequestCommand.onEvent (self : SendRequestCommand Req)
    (event : SwarmEvent Req Resp) : OnEvent Req Resp (SendRequestCommand Req) Resp :=
  match event with
  | .behaviour (.reqResp (.response peer requestId response)) =>
      if self.requestId = some requestId ∧ peer = self.peerId then
        ⟨self, some (.ok response), false, none⟩
      else passEvent self event
  | .behaviour (.reqResp (.outboundFailure peer requestId error)) =>
      if self.requestId = some requestId ∧ peer = self.peerId then
        ⟨self, some (.error (mapOutboundFailure error)), false, none⟩
      else passEvent self event
  | _ => passEvent self event

structure SendResponseCommand (Resp : Type) where
  channel : Option ResponseChannel
  response : Option Resp

def SendResponseCommand.new (channel : ResponseChannel) (response : Resp) :
    SendResponseCommand Resp :=
  ⟨some channel, some response⟩

def SendResponseCommand.run (self : SendResponseCommand Resp) (swarm : Swarm L) :
    Ran L (SendResponseCommand Resp) Unit :=
  match self.channel, self.response with
  | some channel, some response =>
      match swarm.sendResponse channel response with
      | (swarm, .ok ()) => ⟨⟨none, none⟩, swarm, some (.ok ())⟩
      | (swarm, .error ()) =>
          ⟨⟨none, none⟩, swarm,
            some (.error (.requestResponse "Failed to send response: channel closed"))⟩
  | _, _ =>
      ⟨⟨none, none⟩, swarm, some (.error (.requestResponse "SendResponse: run called twice"))⟩

/-! ## Kad commands -/

/-- `merge_stats`: the statistics after one more step of a query. -/
def mergeStats (L : Libp2p Req Resp) (existing : Option QueryStats) (incoming : QueryStats) :
    Option QueryStats :=
  some (match existing with
    | some s => L.mergeStats s incoming
    | none => incoming)

/-- Hence the `unwrap` that follows a merge never fails. -/
theorem mergeStats_isSome (existing : Option QueryStats) (incoming : QueryStats) :
    (mergeStats L existing incoming).isSome := rfl

/-- `QueryStatsInfo::from(self.stats.as_ref().unwrap())` right after a merge. -/
def mergedInfo (L : Libp2p Req Resp) (existing : Option QueryStats) (incoming : QueryStats) :
    QueryStatsInfo :=
  .fromStats ((mergeStats L existing incoming).get (mergeStats_isSome existing incoming))

structure BootstrapCommand where
  queryId : Option QueryId
  stats : Option QueryStats

def BootstrapCommand.new : BootstrapCommand := ⟨none, none⟩

def BootstrapCommand.run (self : BootstrapCommand) (swarm : Swarm L) :
    Ran L BootstrapCommand BootstrapResult :=
  match swarm.kadBootstrap with
  | (swarm, .ok id) => ⟨{ self with queryId := some id }, swarm, none⟩
  | (swarm, .error _) =>
      ⟨self, swarm, some (.error (.kad "Bootstrap failed: no known peers"))⟩

def BootstrapCommand.onEvent (L : Libp2p Req Resp) (self : BootstrapCommand)
    (event : SwarmEvent Req Resp) : OnEvent Req Resp BootstrapCommand BootstrapResult :=
  match event with
  | .behaviour (.kad (.outboundQueryProgressed id (.bootstrap res) stats last)) =>
      if self.queryId = some id then
        let merged := { self with stats := mergeStats L self.stats stats }
        match res with
        | .error e => ⟨merged, some (.error (.kad ("Bootstrap: " ++ e))), false, none⟩
        | .ok ok =>
            if last then
              ⟨merged, some (.ok ⟨ok.numRemaining, mergedInfo L self.stats stats⟩), false, none⟩
            else ⟨merged, none, true, none⟩
      else passEvent self event
  | _ => passEvent self event

structure GetRecordCommand where
  key : RecordKey
  queryId : Option QueryId
  record : Option Record
  stats : Option QueryStats

def GetRecordCommand.new (key : RecordKey) : GetRecordCommand := ⟨key, none, none, none⟩

def GetRecordCommand.run (self : GetRecordCommand) (swarm : Swarm L) :
    Ran L GetRecordCommand GetRecordResult :=
  match swarm.kadGetRecord self.key with
  | (swarm, id) => ⟨{ self with queryId := some id }, swarm, none⟩

/-- The record held after a successful step: the first one found is kept. -/
def GetRecordCommand.hold (self : GetRecordCommand) (ok : GetRecordOk) : Option Record :=
  match self.record, ok with
  | none, .foundRecord record => some record
  | held, _ => held

/-- The end of a query step: wait, or answer with the record held. -/
def GetRecordCommand.conclude (self : GetRecordCommand) (info : QueryStatsInfo) (last : Bool) :
    OnEvent Req Resp GetRecordCommand GetRecordResult :=
  if last then
    match self.record with
    | some record => ⟨{ self with record := none }, some (.ok ⟨record, info⟩), false, none⟩
    | none => ⟨self, some (.error (.kad "Record not found")), false, none⟩
  else ⟨self, none, true, none⟩

def GetRecordCommand.onEvent (L : Libp2p Req Resp) (self : GetRecordCommand)
    (event : SwarmEvent Req Resp) : OnEvent Req Resp GetRecordCommand GetRecordResult :=
  match event with
  | .behaviour (.kad (.outboundQueryProgressed id (.getRecord res) stats last)) =>
      if self.queryId = some id then
        let merged := { self with stats := mergeStats L self.stats stats }
        let info := mergedInfo L self.stats stats
        match res with
        | .ok ok => { merged with record := self.hold ok }.conclude info last
        | .error e =>
            -- An error ends the query only when it comes last and no record is held.
            if self.record.isNone && last then
              ⟨merged, some (.error (.kad ("GetRecord: " ++ e))), false, none⟩
            else merged.conclude info last
      else passEvent self event
  | _ => passEvent self event

structure GetProvidersCommand where
  key : RecordKey
  queryId : Option QueryId
  providers : List PeerId
  stats : Option QueryStats

def GetProvidersCommand.new (key : RecordKey) : GetProvidersCommand := ⟨key, none, [], none⟩

def GetProvidersCommand.run (self : GetProvidersCommand) (swarm : Swarm L) :
    Ran L GetProvidersCommand GetProvidersResult :=
  match swarm.kadGetProviders self.key with
  | (swarm, id) => ⟨{ self with queryId := some id }, swarm, none⟩

/-- The end of a query step: wait, or answer with the providers collected. -/
def GetProvidersCommand.conclude (self : GetProvidersCommand) (info : QueryStatsInfo)
    (last : Bool) : OnEvent Req Resp GetProvidersCommand GetProvidersResult :=
  if last then
    ⟨{ self with providers := [] }, some (.ok ⟨self.providers, info⟩), false, none⟩
  else ⟨self, none, true, none⟩

def GetProvidersCommand.onEvent (L : Libp2p Req Resp) (self : GetProvidersCommand)
    (event : SwarmEvent Req Resp) : OnEvent Req Resp GetProvidersCommand GetProvidersResult :=
  match event with
  | .behaviour (.kad (.outboundQueryProgressed id (.getProviders res) stats last)) =>
      if self.queryId = some id then
        let merged := { self with stats := mergeStats L self.stats stats }
        let info := mergedInfo L self.stats stats
        match res with
        | .ok (.foundProviders providers) =>
            { merged with providers := self.providers ++ providers.elems }.conclude info last
        | .ok (.finishedWithNoAdditionalRecord _) => merged.conclude info last
        | .error e => ⟨merged, some (.error (.kad ("GetProviders: " ++ e))), false, none⟩
      else passEvent self event
  | _ => passEvent self event

structure GetClosestPeersCommand where
  key : RecordKey
  queryId : Option QueryId
  peers : List PeerId
  stats : Option QueryStats

def GetClosestPeersCommand.new (key : RecordKey) : GetClosestPeersCommand :=
  ⟨key, none, [], none⟩

def GetClosestPeersCommand.run (self : GetClosestPeersCommand) (swarm : Swarm L) :
    Ran L GetClosestPeersCommand GetClosestPeersResult :=
  match swarm.kadGetClosestPeers self.key with
  | (swarm, id) => ⟨{ self with queryId := some id }, swarm, none⟩

def GetClosestPeersCommand.onEvent (L : Libp2p Req Resp) (self : GetClosestPeersCommand)
    (event : SwarmEvent Req Resp) :
    OnEvent Req Resp GetClosestPeersCommand GetClosestPeersResult :=
  match event with
  | .behaviour (.kad (.outboundQueryProgressed id (.getClosestPeers res) stats last)) =>
      if self.queryId = some id then
        let merged := { self with stats := mergeStats L self.stats stats }
        match res with
        | .error e => ⟨merged, some (.error (.kad ("GetClosestPeers: " ++ e))), false, none⟩
        | .ok peers =>
            if last then
              ⟨{ merged with peers := [] },
                some (.ok ⟨self.peers ++ peers, mergedInfo L self.stats stats⟩), false, none⟩
            else ⟨{ merged with peers := self.peers ++ peers }, none, true, none⟩
      else passEvent self event
  | _ => passEvent self event

/-- The answer of the two commands that publish: nothing is read from a step that is
not the last one. -/
def publishAnswer (errorPrefix : String) (res : Except String Unit) (info : QueryStatsInfo) :
    Result QueryStatsInfo :=
  match res with
  | .ok () => .ok info
  | .error e => .error (.kad (errorPrefix ++ e))

structure PutRecordCommand where
  record : Record
  queryId : Option QueryId
  stats : Option QueryStats

def PutRecordCommand.new (record : Record) : PutRecordCommand := ⟨record, none, none⟩

def PutRecordCommand.run (self : PutRecordCommand) (swarm : Swarm L) :
    Ran L PutRecordCommand QueryStatsInfo :=
  match swarm.kadPutRecord self.record with
  | (swarm, .ok id) => ⟨{ self with queryId := some id }, swarm, none⟩
  | (swarm, .error e) => ⟨self, swarm, some (.error (.kad ("PutRecord store: " ++ e)))⟩

def PutRecordCommand.onEvent (L : Libp2p Req Resp) (self : PutRecordCommand)
    (event : SwarmEvent Req Resp) : OnEvent Req Resp PutRecordCommand QueryStatsInfo :=
  match event with
  | .behaviour (.kad (.outboundQueryProgressed id (.putRecord res) stats last)) =>
      if self.queryId = some id then
        let merged := { self with stats := mergeStats L self.stats stats }
        if last then
          ⟨merged, some (publishAnswer "PutRecord: " res (mergedInfo L self.stats stats)),
            false, none⟩
        else ⟨merged, none, true, none⟩
      else passEvent self event
  | _ => passEvent self event

structure StartProvideCommand where
  key : RecordKey
  queryId : Option QueryId
  stats : Option QueryStats

def StartProvideCommand.new (key : RecordKey) : StartProvideCommand := ⟨key, none, none⟩

def StartProvideCommand.run (self : StartProvideCommand) (swarm : Swarm L) :
    Ran L StartProvideCommand QueryStatsInfo :=
  match swarm.kadStartProviding self.key with
  | (swarm, .ok id) => ⟨{ self with queryId := some id }, swarm, none⟩
  | (swarm, .error e) => ⟨self, swarm, some (.error (.kad ("StartProviding store: " ++ e)))⟩

def StartProvideCommand.onEvent (L : Libp2p Req Resp) (self : StartProvideCommand)
    (event : SwarmEvent Req Resp) : OnEvent Req Resp StartProvideCommand QueryStatsInfo :=
  match event with
  | .behaviour (.kad (.outboundQueryProgressed id (.startProviding res) stats last)) =>
      if self.queryId = some id then
        let merged := { self with stats := mergeStats L self.stats stats }
        if last then
          ⟨merged, some (publishAnswer "Provide: " res (mergedInfo L self.stats stats)),
            false, none⟩
        else ⟨merged, none, true, none⟩
      else passEvent self event
  | _ => passEvent self event

structure StopProvideCommand where
  key : RecordKey

def StopProvideCommand.run (self : StopProvideCommand) (swarm : Swarm L) :
    Ran L StopProvideCommand Unit :=
  ⟨self, swarm.kadStopProviding self.key, some (.ok ())⟩

structure RemoveRecordCommand where
  key : RecordKey

def RemoveRecordCommand.run (self : RemoveRecordCommand) (swarm : Swarm L) :
    Ran L RemoveRecordCommand Unit :=
  ⟨self, swarm.kadRemoveRecord self.key, some (.ok ())⟩

/-! ## The boxed command -/

/-- The results of all command types. -/
inductive Output (Resp : Type) where
  | unit
  | connected (value : Bool)
  | addrs (value : List Multiaddr)
  | response (value : Resp)
  | bootstrap (value : BootstrapResult)
  | record (value : GetRecordResult)
  | providers (value : GetProvidersResult)
  | closestPeers (value : GetClosestPeersResult)
  | stats (value : QueryStatsInfo)

inductive Command (Req Resp : Type) where
  | dial (c : DialCommand)
  | disconnect (c : DisconnectCommand)
  | isConnected (c : IsConnectedCommand)
  | getListenAddrs (c : GetListenAddrsCommand)
  | addPeerAddrs (c : AddPeerAddrsCommand)
  | addInfrastructurePeer (c : AddInfrastructurePeerCommand)
  | sendRequest (c : SendRequestCommand Req)
  | sendResponse (c : SendResponseCommand Resp)
  | bootstrap (c : BootstrapCommand)
  | getRecord (c : GetRecordCommand)
  | putRecord (c : PutRecordCommand)
  | getProviders (c : GetProvidersCommand)
  | getClosestPeers (c : GetClosestPeersCommand)
  | startProvide (c : StartProvideCommand)
  | stopProvide (c : StopProvideCommand)
  | removeRecord (c : RemoveRecordCommand)

namespace Command

/-- `CommandTask::run_boxed`. -/
def run (self : Command Req Resp) (swarm : Swarm L) :
    Ran L (Command Req Resp) (Output Resp) :=
  match self with
  | .dial c => (c.run swarm).map .dial fun _ => .unit
  | .disconnect c => (c.run swarm).map .disconnect fun _ => .unit
  | .isConnected c => (c.run swarm).map .isConnected .connected
  | .getListenAddrs c => (c.run swarm).map .getListenAddrs .addrs
  | .addPeerAddrs c => (c.run swarm).map .addPeerAddrs fun _ => .unit
  | .addInfrastructurePeer c => (c.run swarm).map .addInfrastructurePeer fun _ => .unit
  | .sendRequest c => (c.run swarm).map .sendRequest .response
  | .sendResponse c => (c.run swarm).map .sendResponse fun _ => .unit
  | .bootstrap c => (c.run swarm).map .bootstrap .bootstrap
  | .getRecord c => (c.run swarm).map .getRecord .record
  | .putRecord c => (c.run swarm).map .putRecord .stats
  | .getProviders c => (c.run swarm).map .getProviders .providers
  | .getClosestPeers c => (c.run swarm).map .getClosestPeers .closestPeers
  | .startProvide c => (c.run swarm).map .startProvide .stats
  | .stopProvide c => (c.run swarm).map .stopProvide fun _ => .unit
  | .removeRecord c => (c.run swarm).map .removeRecord fun _ => .unit

/-- `CommandTask::on_event_boxed`. -/
def onEvent (L : Libp2p Req Resp) (self : Command Req Resp) (event : SwarmEvent Req Resp) :
    OnEvent Req Resp (Command Req Resp) (Output Resp) :=
  match self with
  | .dial c => (c.onEvent event).map .dial fun _ => .unit
  | .disconnect c => (c.onEvent event).map .disconnect fun _ => .unit
  | .sendRequest c => (c.onEvent event).map .sendRequest .response
  | .bootstrap c => (c.onEvent L event).map .bootstrap .bootstrap
  | .getRecord c => (c.onEvent L event).map .getRecord .record
  | .putRecord c => (c.onEvent L event).map .putRecord .stats
  | .getProviders c => (c.onEvent L event).map .getProviders .providers
  | .getClosestPeers c => (c.onEvent L event).map .getClosestPeers .closestPeers
  | .startProvide c => (c.onEvent L event).map .startProvide .stats
  | _ => defaultOnEvent self event

/-- `CommandTask::take_relay_reservation_request`. -/
def takeRelayReservationRequest (self : Command Req Resp) :
    Command Req Resp × Option (PeerId × List Multiaddr) :=
  match self with
  | .addInfrastructurePeer c =>
      (.addInfrastructurePeer c.takeRelayReservationRequest.1, c.takeRelayReservationRequest.2)
  | _ => (self, none)

end Command

end SwarmP2p
