import SwarmP2p.Verification.Call.Answer
import SwarmP2p.Verification.EventLoop.Received
import SwarmP2p.Verification.Response.Pairing

/-! # What the application is told

The events that the application gets are a function of what the swarm returned. No call, no
command in the chain and no part of the state of the loop but the number of the requests
so far has a say in them. -/

namespace SwarmP2p

variable {Req Resp : Type} {L : Libp2p Req Resp}

/-! ### A view of the swarm -/

/-- What a swarm event says to the application. A request is announced under this id. -/
def SwarmEvent.report? (pendingId : Nat) : SwarmEvent Req Resp → Option (NodeEvent Req)
  | .newListenAddr address => some (.listening address)
  | .connectionEstablished peerId numEstablished =>
      if numEstablished = 1 then some (.peerConnected peerId) else none
  | .connectionClosed peerId numEstablished =>
      if numEstablished = 0 then some (.peerDisconnected peerId) else none
  | .behaviour (.mdnsDiscovered peers) => some (.peersDiscovered peers)
  | .behaviour (.identifyReceived peerId info) =>
      some (.identifyReceived peerId info.agentVersion info.protocolVersion info.listenAddrs
        info.protocols)
  | .behaviour (.ping peer (.ok rttNanos)) =>
      some (.pingSuccess peer (rttNanos / 1000000 % wordSize))
  | .behaviour (.reqResp (.request peer request _)) =>
      some (.inboundRequest peer pendingId request)
  | .behaviour (.autonat testedAddr _ (.ok ())) =>
      some (.natStatusChanged .natPublic (some testedAddr))
  | .behaviour (.dcutr peer (.ok ())) => some (.holePunchSucceeded peer)
  | .behaviour (.dcutr peer (.error e)) => some (.holePunchFailed peer e)
  | .behaviour (.relayClient (.reservationReqAccepted relay renewal)) =>
      some (.relayReservationAccepted relay renewal)
  | .behaviour (.relayServer event) => EventLoop.convertRelayServerEvent event
  | _ => none

/-- The id of the next request, after this event. -/
def SwarmEvent.nextId (pendingId : Nat) (event : SwarmEvent Req Resp) : Nat :=
  if event.isRequest then (pendingId + 1) % wordSize else pendingId

/-- What a sequence of events says, when the next request gets this id. -/
def toldFrom (pendingId : Nat) : List (SwarmEvent Req Resp) → List (NodeEvent Req)
  | [] => []
  | event :: events =>
      (event.report? pendingId).toList ++ toldFrom (event.nextId pendingId) events

/-- What the events say to the application, the status of the LAN helper apart. -/
def told (events : List (SwarmEvent Req Resp)) : List (NodeEvent Req) := toldFrom 0 events

theorem toldFrom_append (pendingId : Nat) (events more : List (SwarmEvent Req Resp)) :
    toldFrom pendingId (events ++ more) =
      toldFrom pendingId events ++ toldFrom (events.foldl SwarmEvent.nextId pendingId) more := by
  induction events generalizing pendingId with
  | nil => rfl
  | cons event events ih => simp [toldFrom, ih]

/-! ### The code of the loop -/

theorem convertToNodeEvent_report (loop : EventLoop L) (now : Nat) (order : List PeerId)
    (event : SwarmEvent Req Resp) :
    (loop.convertToNodeEvent now order event).2 = event.report? loop.pendingIdCounter := by
  cases event with
  | behaviour event =>
      cases event with
      | ping peer rttNanos => cases rttNanos <;> rfl
      | kad event => cases event <;> rfl
      | reqResp event => cases event <;> rfl
      | relayClient event => cases event <;> rfl
      | autonat testedAddr server result => cases result <;> rfl
      | dcutr remotePeerId result => cases result <;> rfl
      | _ => rfl
  | _ => rfl

/-- What a command consumes would say nothing to the application. -/
theorem SwarmEvent.report?_of_id {event : SwarmEvent Req Resp} {id : EventId}
    (h : event.id? = some id) (pendingId : Nat) : event.report? pendingId = none := by
  unfold SwarmEvent.id? at h
  split at h
  · rfl
  · rfl
  · rfl
  · cases h

/-! ### Steps and runs -/

theorem Node.handleSwarmEvent_report (n : Node L) (order : List PeerId)
    (event : SwarmEvent Req Resp) :
    (n.handleSwarmEvent order event).phase.unsent =
      (event.report? n.loop.pendingIdCounter).toList := by
  rcases n.handleSwarmEvent_cases order event with ⟨hconsumed, heq⟩ | ⟨_, heq⟩
  · cases hid : event.id? with
    | none =>
        rw [dispatch_remaining n.loop.activeCommands hid] at hconsumed
        cases hconsumed
    | some id =>
        rw [heq, event.report?_of_id hid]
        rfl
  · rw [heq]
    dsimp only
    rw [convertToNodeEvent_report]
    cases event.report? n.loop.pendingIdCounter <;> rfl

theorem Node.handleSwarmEvent_nextId (n : Node L) (order : List PeerId)
    (event : SwarmEvent Req Resp) :
    (n.handleSwarmEvent order event).loop.pendingIdCounter =
      event.nextId n.loop.pendingIdCounter := by
  cases hr : event.isRequest with
  | false =>
      rw [SwarmEvent.nextId, hr]
      exact (n.handleSwarmEvent_pending order hr).1
  | true =>
      obtain ⟨peer, request, channel, rfl⟩ := EventLoop.isRequest_eq_true hr
      exact (n.handleSwarmEvent_request order peer request channel).1

theorem Node.firstPoll_pendingIdCounter (n : Node L) (id : HandleId)
    (c : ClientCall Req Resp) (command : Command Req Resp) (waker : Waker) :
    (n.firstPoll id c command waker).loop.pendingIdCounter = n.loop.pendingIdCounter := by
  unfold firstPoll
  split <;> rfl

/-- One step says what its event says, if it has one. -/
theorem Step.reported_eq {n m : Node L} {l : Label Req Resp} (h : Step n l m) :
    reported? ⟨n, l, m⟩ = toldFrom n.loop.pendingIdCounter l.swarmEvent?.toList ∧
      m.loop.pendingIdCounter =
        l.swarmEvent?.toList.foldl SwarmEvent.nextId n.loop.pendingIdCounter := by
  cases h with
  | @swarmEvent event state order hp h ho =>
      refine ⟨?_, (n.withSwarmState state).handleSwarmEvent_nextId order event⟩
      exact ((n.withSwarmState state).handleSwarmEvent_report order event).trans
        (List.append_nil _).symm
  | @firstPoll id c command waker h hp =>
      exact ⟨rfl, n.firstPoll_pendingIdCounter id c command waker⟩
  | @handleCommand task hp => exact ⟨rfl, (n.handleCommand_kept task).2.2.2⟩
  | @beginSend event hp => exact ⟨rfl, (n.pollSend_pending event).1⟩
  | @resumeSend event hp h => exact ⟨rfl, (n.pollSend_pending event).1⟩
  | _ => exact ⟨rfl, rfl⟩

theorem Run.reported_eq {config : NodeConfig} {n m : Node L}
    {π : List (Transition.Trans (Node L) (Label Req Resp))} (hs : Started L config n)
    (h : Run L n π m) :
    reported π = told (swarmEvents π) ∧
      m.loop.pendingIdCounter = (swarmEvents π).foldl SwarmEvent.nextId 0 := by
  induction h with
  | nil => exact ⟨rfl, hs.fresh.pendingIdCounter_eq⟩
  | @snoc π a l b hp hstep ih =>
      obtain ⟨hreport, hcounter⟩ := hstep.reported_eq
      rw [swarmEvents_snoc, List.foldl_append, ← ih.2]
      refine ⟨?_, hcounter⟩
      rw [told, toldFrom_append, ← ih.2, ← hreport, reported, List.flatMap_append,
        List.flatMap_singleton]
      exact congrArg (· ++ _) ih.1

/-- What the application gets is told by the events that the swarm returned, in order, whole
and once while there is a receiver, and by nothing else. -/
theorem reports_determined {config : NodeConfig} {n m : Node L}
    {π : List (Transition.Trans (Node L) (Label Req Resp))} (hs : Started L config n)
    (h : Run L n π m) :
    (m.loop.eventTx.rxAlive = true → told (swarmEvents π) =
        reportsOf (received π) ++ reportsOf (m.loop.eventTx.queue ++ m.phase.unsent)) ∧
      reportsOf (received π) <+: told (swarmEvents π) := by
  rw [← (h.reported_eq hs).1]
  exact h.fifo hs

open Loopback in
/-- Two pings tell two reports, whatever call is made between them. -/
theorem reports_determined_awaited :
    told (swarmEvents awaitSteps) = [pingReport, slowReport] ∧
      told (swarmEvents awaitSteps) = reportsOf (received awaitSteps) ++
        reportsOf (awaitReported.loop.eventTx.queue ++ awaitReported.phase.unsent) ∧
      reportsOf (received awaitSteps) <+: told (swarmEvents awaitSteps) := by
  obtain ⟨halive, hprefix⟩ := reports_determined (started []) awaitSteps_run
  exact ⟨rfl, halive rfl, hprefix⟩

end SwarmP2p
