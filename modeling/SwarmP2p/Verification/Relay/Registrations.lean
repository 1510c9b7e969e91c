import SwarmP2p.Library.Deferred
import SwarmP2p.Verification.Call.Origin
import SwarmP2p.Verification.Relay.Reservations

/-! # Registrations and listen requests

The addresses registered for relay are deferred work under their peer: requested at once
while the peer is connected, otherwise kept until it identifies itself with the node's own
protocol version. Every run of the node is a run of that store. -/

namespace SwarmP2p

variable {Req Resp : Type} {L : Libp2p Req Resp}

/-! ### Events of a run -/

/-- What a step does to the reservations at a peer. -/
inductive RelayStep where
  | register (addrs : List Multiaddr)
  | connect
  | disconnect
  | identify (info : IdentifyInfo)

def Node.relayStep? (n : Node L) : Label Req Resp → Option (PeerId × RelayStep)
  | .handleCommand =>
      match n.phase with
      | .running ⟨.addInfrastructurePeer c, _⟩ =>
          if c.roles.relayServer = true then some (c.peerId, .register c.addrs) else none
      | _ => none
  | .swarmEvent (.connectionEstablished p numEstablished) =>
      if numEstablished = 1 then some (p, .connect) else none
  | .swarmEvent (.connectionClosed p numEstablished) =>
      if numEstablished = 0 then some (p, .disconnect) else none
  | .swarmEvent (.behaviour (.identifyReceived p info)) => some (p, .identify info)
  | _ => none

/-- The step as an event of the store of deferred addresses. -/
def Node.relayEvent? (n : Node L) : Label Req Resp → Option (Deferred.Event PeerId Multiaddr)
  | .handleCommand =>
      match n.phase with
      | .running ⟨.addInfrastructurePeer c, _⟩ =>
          if c.roles.relayServer = true ∧ n.loop.swarm.relayClient = true then
            some (.submit c.peerId c.addrs ((c.run n.loop.swarm).swarm.isConnected c.peerId))
          else none
      | _ => none
  | .swarmEvent (.behaviour (.identifyReceived p info)) =>
      if info.protocolVersion = n.loop.protocolVersion then some (.serve p) else none
  | _ => none

/-- The bootstrap entries, which are kept before the node runs. -/
def NodeConfig.relayEvents (config : NodeConfig) : List (Deferred.Event PeerId Multiaddr) :=
  if config.enableRelayClient = true then
    config.bootstrapPeers.map fun entry => .submit entry.1 [entry.2] false
  else []

def relayEvents (π : List (Transition.Trans (Node L) (Label Req Resp))) :
    List (Deferred.Event PeerId Multiaddr) :=
  π.filterMap fun x => x.pre.relayEvent? x.label

/-- Of the events of the swarm only an Identify serves what is kept. -/
theorem Node.relayEvent?_swarmEvent (n : Node L) {event : SwarmEvent Req Resp}
    (he : ∀ p info, event ≠ .behaviour (.identifyReceived p info)) :
    n.relayEvent? (.swarmEvent event) = none := by
  unfold relayEvent?
  split
  · rename_i heq
    cases heq
  · rename_i p info heq
    exact absurd (Label.swarmEvent.inj heq) (he p info)
  · rfl

theorem relayEvents_snoc (π : List (Transition.Trans (Node L) (Label Req Resp)))
    (x : Transition.Trans (Node L) (Label Req Resp)) :
    relayEvents (π ++ [x]) = relayEvents π ++ (x.pre.relayEvent? x.label).toList := by
  rw [relayEvents, List.filterMap_append]
  cases h : x.pre.relayEvent? x.label <;> simp [relayEvents, h]

/-! ### Code that touches neither -/

namespace EventLoop

/-- Nothing is kept or requested. -/
structure SameRelay (a b : EventLoop L) : Prop where
  bootstrapPeers : b.bootstrapPeers = a.bootstrapPeers
  requests : b.swarm.listenRequests = a.swarm.listenRequests

theorem convertToNodeEvent_sameRelay (self : EventLoop L) (now : Nat) (order : List PeerId)
    {event : SwarmEvent Req Resp}
    (he : ∀ p info, event ≠ .behaviour (.identifyReceived p info)) :
    SameRelay self (self.convertToNodeEvent now order event).1 := by
  have hkept : ∀ {t : Swarm L}, Swarm.Uses (fun call => call.listenOn? = none) self.swarm t →
      t.listenRequests = self.swarm.listenRequests :=
    fun h => h.filterMap_calls fun _ hcall => hcall
  unfold convertToNodeEvent
  split
  · unfold convertBehaviourEvent
    split
    all_goals try exact ⟨rfl, rfl⟩
    · exact ⟨rfl, hkept (self.handleDiscovered_uses order _ (fun _ _ => rfl)
        fun _ _ _ => rfl).swarm⟩
    · exact absurd rfl (he _ _)
    · exact ⟨rfl, hkept (.foldl _ (fun _ _ _ => Swarm.Uses.refl.addPeerAddress _ _ (by rfl))
        self.swarm)⟩
  · rename_i addr
    refine ⟨?_, hkept (self.maybeAnnounceLanHelperAddr_uses addr (by rfl)).swarm⟩
    unfold maybeAnnounceLanHelperAddr
    split
    · rfl
    · split
      · obtain ⟨eventTx, heq⟩ := (self.advertise addr).trySendStatus_eq
          (.lanHelperStatusChanged (self.advertise addr).swarm.relayServer
            (self.advertise addr).advertisedLanAddrs)
        dsimp only
        rw [heq]
        unfold advertise
        split <;> rfl
      · rfl
  · exact ⟨rfl, rfl⟩
  · exact ⟨rfl, rfl⟩
  · exact ⟨rfl, rfl⟩

end EventLoop

/-! ### The tie -/

/-- The requests for the addresses that were not deferred any longer, in order. -/
def circuits (done : List (PeerId × Multiaddr)) : List Multiaddr :=
  done.map fun x => EventLoop.relayAddr x.1 x.2

/-- The loop keeps what the store keeps and has requested what the store has done, after the
requests `base`. -/
structure Defers (base : List Multiaddr) (s : Deferred.Store PeerId Multiaddr)
    (loop : EventLoop L) : Prop where
  waiting : loop.bootstrapPeers = s.waiting
  requests : loop.swarm.listenRequests = base ++ circuits s.done

theorem Defers.kept {base : List Multiaddr} {s : Deferred.Store PeerId Multiaddr}
    {loop : EventLoop L} (h : Defers base s loop) (p : PeerId) :
    (loop.bootstrapPeers p).getD [] = s.kept p :=
  congrArg (Option.getD · []) (congrFun h.waiting p)

theorem Defers.same {base : List Multiaddr} {s : Deferred.Store PeerId Multiaddr}
    {a b : EventLoop L} (h : Defers base s a) (hab : a.SameRelay b) : Defers base s b :=
  ⟨hab.bootstrapPeers.trans h.waiting, hab.requests.trans h.requests⟩

theorem circuits_append (done more : List (PeerId × Multiaddr)) :
    circuits (done ++ more) = circuits done ++ circuits more := List.map_append

theorem circuits_pairs (p : PeerId) (addrs : List Multiaddr) :
    circuits (addrs.map (Prod.mk p)) = addrs.map (EventLoop.relayAddr p) := List.map_map

/-! ### The start -/

theorem EventLoop.startListen_relay {self loop : EventLoop L} {addrs : List Multiaddr}
    (h : self.startListen addrs = .ok loop) :
    loop.bootstrapPeers = self.bootstrapPeers ∧
      loop.swarm.listenRequests = self.swarm.listenRequests ++ addrs := by
  induction addrs generalizing self with
  | nil =>
      obtain rfl := Except.ok.inj h
      exact ⟨rfl, (List.append_nil _).symm⟩
  | cons addr addrs ih =>
      unfold startListen at h
      split at h
      · rename_i swarm hlisten
        obtain ⟨hpeers, hrequests⟩ := ih h
        refine ⟨hpeers, hrequests.trans ?_⟩
        have hone : swarm.listenRequests = self.swarm.listenRequests ++ [addr] := by
          rw [show swarm = (self.swarm.listenOn addr).1 by rw [hlisten]]
          exact List.filterMap_append
        rw [show ({ self with swarm := swarm } : EventLoop L).swarm.listenRequests = _ from hone,
          List.append_assoc]
        rfl
      · cases h

/-- An address that is kept for a peer. -/
theorem Defers.extendBootstrapPeers {base : List Multiaddr}
    {s : Deferred.Store PeerId Multiaddr} {loop : EventLoop L} (h : Defers base s loop)
    (p : PeerId) (addrs : List Multiaddr) :
    Defers base (s.step (.submit p addrs false)) (loop.extendBootstrapPeers p addrs) := by
  refine ⟨?_, h.requests⟩
  show Function.update loop.bootstrapPeers p _ = Function.update s.waiting p _
  rw [h.kept, h.waiting]

/-- Addresses that are requested at once. -/
theorem Defers.requestRelayReservations {base : List Multiaddr}
    {s : Deferred.Store PeerId Multiaddr} {loop : EventLoop L} (h : Defers base s loop)
    (p : PeerId) (addrs : List Multiaddr) :
    Defers base (s.step (.submit p addrs true)) (loop.requestRelayReservations p addrs) := by
  refine ⟨h.waiting, ?_⟩
  rw [loop.requestRelayReservations_listenRequests, h.requests, List.append_assoc]
  show _ = base ++ circuits (s.done ++ addrs.map (Prod.mk p))
  rw [circuits_append, circuits_pairs]

theorem Defers.connectBootstrapPeer {base : List Multiaddr}
    {s : Deferred.Store PeerId Multiaddr} {loop : EventLoop L} (h : Defers base s loop)
    (entry : PeerId × Multiaddr) :
    (loop.connectBootstrapPeer entry).enableRelayClient = loop.enableRelayClient ∧
      Defers base
        (if loop.enableRelayClient = true then s.step (.submit entry.1 [entry.2] false) else s)
        (loop.connectBootstrapPeer entry) := by
  have hdialed : Defers base s { loop with
      swarm := (((loop.swarm.kadAddAddress entry.1 entry.2).addPeerAddress entry.1 entry.2).dial
        entry.1).1 } := by
    have huses := ((Swarm.Uses.refl.kadAddAddress (P := fun call => call.listenOn? = none)
      (s := loop.swarm) entry.1 entry.2 rfl).addPeerAddress entry.1 entry.2 rfl).dial entry.1
        fun _ => rfl
    exact h.same ⟨rfl, huses.filterMap_calls fun _ hcall => hcall⟩
  simp only [EventLoop.connectBootstrapPeer]
  split
  · exact ⟨rfl, hdialed.extendBootstrapPeers entry.1 [entry.2]⟩
  · exact ⟨rfl, hdialed⟩

/-- With the relay client on, each bootstrap entry is kept for its peer. -/
theorem Defers.connectBootstrapPeers {base : List Multiaddr}
    {s : Deferred.Store PeerId Multiaddr} {loop : EventLoop L} (h : Defers base s loop)
    (peers : List (PeerId × Multiaddr)) :
    Defers base
      (s.run (if loop.enableRelayClient = true then
        peers.map fun entry => .submit entry.1 [entry.2] false else []))
      (loop.connectBootstrapPeers peers) := by
  induction peers generalizing s loop with
  | nil =>
      rw [List.map_nil, ite_self]
      exact h
  | cons entry peers ih =>
      obtain ⟨hclient, hone⟩ := h.connectBootstrapPeer entry
      have hrest := ih hone
      rw [hclient] at hrest
      by_cases henabled : loop.enableRelayClient = true
      · simp only [henabled, if_true] at hrest ⊢
        exact hrest
      · simp only [henabled] at hrest ⊢
        exact hrest

theorem Started.defers {config : NodeConfig} {n : Node L} (h : Started L config n) :
    Defers config.listenAddrs (Deferred.Store.empty.run config.relayEvents) n.loop := by
  obtain ⟨state, _, hs⟩ := h
  simp only [start] at hs
  split at hs
  · cases hs
  · rename_i loop heq
    obtain rfl := Except.ok.inj hs
    obtain ⟨hpeers, hrequests⟩ := EventLoop.startListen_relay heq
    have hsame := (EventLoop.startListen_uses (P := fun _ => True) heq
      fun _ _ => trivial).same.enableRelayClient
    have hlistened : Defers config.listenAddrs Deferred.Store.empty loop :=
      ⟨hpeers, by rw [hrequests]; exact (List.append_nil _).symm⟩
    have hconnected := hlistened.connectBootstrapPeers config.bootstrapPeers
    rw [hsame] at hconnected
    exact hconnected

/-! ### Steps -/

theorem Defers.scheduleRelayReservations {base : List Multiaddr}
    {s : Deferred.Store PeerId Multiaddr} {loop : EventLoop L} (h : Defers base s loop)
    (request : Option (PeerId × List Multiaddr)) :
    Defers base
      (s.run (request.map fun r => .submit r.1 r.2 (loop.swarm.isConnected r.1)).toList)
      (loop.scheduleRelayReservations request) := by
  cases request with
  | none => exact h
  | some request =>
      obtain ⟨p, addrs⟩ := request
      simp only [EventLoop.scheduleRelayReservations, Option.map_some, Option.toList_some,
        Deferred.Store.run_cons, Deferred.Store.run_nil]
      split
      · rename_i hconnected
        rw [hconnected]
        exact h.requestRelayReservations p addrs
      · rename_i hapart
        rw [Bool.not_eq_true] at hapart
        rw [hapart]
        exact h.extendBootstrapPeers p addrs

theorem Defers.handleIdentify {base : List Multiaddr} {s : Deferred.Store PeerId Multiaddr}
    {loop : EventLoop L} (h : Defers base s loop) (p : PeerId) (info : IdentifyInfo) :
    Defers base (if info.protocolVersion = loop.protocolVersion then s.step (.serve p) else s)
      (loop.handleIdentify p info) := by
  by_cases hv : info.protocolVersion = loop.protocolVersion
  · rw [if_pos hv]
    refine ⟨?_, ?_⟩
    · show _ = Function.update s.waiting p none
      simp only [EventLoop.handleIdentify, hv, if_true]
      split
      · rename_i hnone
        rw [← h.waiting]
        exact (Function.update_eq_self_iff.mpr hnone.symm).symm
      · rw [← h.waiting]
        rfl
    · rw [loop.handleIdentify_listenRequests p hv, h.requests, h.kept, List.append_assoc]
      show _ = base ++ circuits (s.done ++ (s.kept p).map (Prod.mk p))
      rw [circuits_append, circuits_pairs]
  · rw [if_neg hv, EventLoop.handleIdentify, if_neg hv]
    exact h

/-- A command that was not taken before leaves its request with the relay client and the
role only. -/
theorem AddInfrastructurePeerCommand.run_request_eq (self : AddInfrastructurePeerCommand)
    (hnew : self.pendingRelayAddrs = none) (swarm : Swarm L) :
    (self.run swarm).handler.takeRelayReservationRequest.2 =
      if self.roles.relayServer = true ∧ swarm.relayClient = true then
        some (self.peerId, self.addrs)
      else none := by
  by_cases hrole : self.roles.relayServer = true ∧ swarm.relayClient = true
  · rw [if_pos hrole, self.run_request hrole.2 hrole.1]
  · have hoff : (self.roles.relayServer && (self.addrs.foldl self.register swarm).relayClient) =
        false := by
      rw [self.register_relayClient, Bool.eq_false_iff, ne_eq, Bool.and_eq_true]
      exact hrole
    rw [if_neg hrole]
    simp only [run, hoff, Bool.false_eq_true, if_false]
    split <;> simp [takeRelayReservationRequest, hnew]

/-- The request is that of an event of the store. -/
theorem Node.relayEvent?_handleCommand {config : NodeConfig} {n : Node L} {task : Task Req Resp}
    (hr : Reachable L config n) (hp : n.phase = .running task) :
    n.relayEvent? .handleCommand =
      (task.command.run n.loop.swarm).handler.takeRelayReservationRequest.2.map fun r =>
        .submit r.1 r.2 ((task.command.run n.loop.swarm).swarm.isConnected r.1) := by
  have hmade := Reachable.made hr task
    (Desk.mem_unrun.mpr (.inl (by simp [Node.desk, hp, LoopPhase.task?])))
  obtain ⟨command, handle⟩ := task
  cases command with
  | addInfrastructurePeer c =>
      have hnew : c.pendingRelayAddrs = none := by
        obtain ⟨⟨call, taken, phase⟩, _, hcommand⟩ := hmade
        cases call <;> simp [Call.command] at hcommand
        rw [← hcommand]
        rfl
      have hrequest := c.run_request_eq hnew n.loop.swarm
      show _ = ((c.run n.loop.swarm).handler.takeRelayReservationRequest.2).map _
      simp only [relayEvent?, hp, hrequest]
      by_cases hrole : c.roles.relayServer = true ∧ n.loop.swarm.relayClient = true
      · rw [if_pos hrole, if_pos hrole]
        rfl
      · rw [if_neg hrole, if_neg hrole]
        rfl
  | _ =>
      simp only [relayEvent?, hp]
      rfl

theorem Defers.handleCommand {base : List Multiaddr} {s : Deferred.Store PeerId Multiaddr}
    {config : NodeConfig} {n : Node L} {task : Task Req Resp} (h : Defers base s n.loop)
    (hr : Reachable L config n) (hp : n.phase = .running task) :
    Defers base (s.run (n.relayEvent? .handleCommand).toList) (n.handleCommand task).loop := by
  have hrun : Defers base s { n.loop with swarm := (task.command.run n.loop.swarm).swarm } :=
    h.same ⟨rfl, (task.command.run_uses n.loop.swarm).listenRequests_eq fun _ _ => id⟩
  rw [n.relayEvent?_handleCommand hr hp]
  have hscheduled := hrun.scheduleRelayReservations
    (task.command.run n.loop.swarm).handler.takeRelayReservationRequest.2
  exact ⟨hscheduled.waiting, hscheduled.requests⟩

theorem Defers.convertToNodeEvent {base : List Multiaddr} {s : Deferred.Store PeerId Multiaddr}
    {n : Node L} (loop : EventLoop L) (hv : loop.protocolVersion = n.loop.protocolVersion)
    (h : Defers base s loop) (now : Nat) (order : List PeerId) (event : SwarmEvent Req Resp) :
    Defers base (s.run (n.relayEvent? (.swarmEvent event)).toList)
      (loop.convertToNodeEvent now order event).1 := by
  by_cases he : ∃ p info, event = .behaviour (.identifyReceived p info)
  · obtain ⟨p, info, rfl⟩ := he
    have hidentified := h.handleIdentify p info
    show Defers base _ (loop.handleIdentify p info)
    rw [hv] at hidentified
    simp only [Node.relayEvent?]
    split at hidentified <;> rename_i hversion <;> simpa [hversion] using hidentified
  · have hother : ∀ p info, event ≠ .behaviour (.identifyReceived p info) :=
      fun p info heq => he ⟨p, info, heq⟩
    rw [n.relayEvent?_swarmEvent hother]
    exact h.same (loop.convertToNodeEvent_sameRelay now order hother)

theorem Node.firstPoll_sameRelay (n : Node L) (id : HandleId) (c : ClientCall Req Resp)
    (command : Command Req Resp) (waker : Waker) :
    n.loop.SameRelay (n.firstPoll id c command waker).loop := by
  unfold firstPoll
  split <;> exact ⟨rfl, rfl⟩

theorem Node.pollSend_sameRelay (n : Node L) (event : NodeEvent Req) :
    n.loop.SameRelay (n.pollSend event).loop := by
  unfold pollSend
  split <;> exact ⟨rfl, rfl⟩

theorem Step.defers {base : List Multiaddr} {s : Deferred.Store PeerId Multiaddr}
    {config : NodeConfig} {n m : Node L} {l : Label Req Resp} (hr : Reachable L config n)
    (h : Step n l m) (hd : Defers base s n.loop) :
    Defers base (s.run (n.relayEvent? l).toList) m.loop := by
  cases h with
  | handleCommand hp => exact hd.handleCommand hr hp
  | @swarmEvent event state order hp h ho =>
      have hoffered : ∀ commands, Defers base s (n.offered state commands) :=
        fun _ => ⟨hd.waiting, hd.requests⟩
      rcases (n.withSwarmState state).handleSwarmEvent_cases order event with ⟨hrem, heq⟩ | ⟨_, heq⟩
      · have hother : ∀ p info, event ≠ .behaviour (.identifyReceived p info) := by
          rintro p info rfl
          rw [dispatch_remaining _ rfl] at hrem
          cases hrem
        rw [heq, n.relayEvent?_swarmEvent hother]
        exact ⟨hd.waiting, hd.requests⟩
      · rw [heq]
        exact (hoffered _).convertToNodeEvent (n.offered state _) rfl n.now order event
  | @firstPoll id c command waker hc hp =>
      exact hd.same (n.firstPoll_sameRelay id c command waker)
  | beginSend hp => exact hd.same (n.pollSend_sameRelay _)
  | resumeSend hp h => exact hd.same (n.pollSend_sameRelay _)
  | _ => exact ⟨hd.waiting, hd.requests⟩

/-- Every run of the node is a run of the store. -/
theorem Run.defers {base : List Multiaddr} {s : Deferred.Store PeerId Multiaddr}
    {config : NodeConfig} {n m : Node L}
    {π : List (Transition.Trans (Node L) (Label Req Resp))} (hr : Reachable L config n)
    (h : Run L n π m) (hd : Defers base s n.loop) :
    Defers base (s.run (relayEvents π)) m.loop := by
  induction h with
  | nil => exact hd
  | snoc hp hs ih =>
      rw [relayEvents_snoc, Deferred.Store.run_append]
      exact hs.defers (Transition.Reachable.path hr hp) ih

theorem Run.defers_started {config : NodeConfig} {n m : Node L}
    {π : List (Transition.Trans (Node L) (Label Req Resp))} (hs : Started L config n)
    (h : Run L n π m) :
    Defers config.listenAddrs (Deferred.Store.empty.run (config.relayEvents ++ relayEvents π))
      m.loop := by
  rw [Deferred.Store.run_append]
  exact Run.defers (.initial hs) h hs.defers

/-! ### A registration -/

namespace Loopback

def openConfig : NodeConfig := { config [] with enableRelayClient := true }

/-- A relay client that knows no peer. -/
def openNode : Node counting :=
  { relayNode with
    loop := { relayNode.loop with
      swarm := ⟨({} : State), true, false, []⟩
      bootstrapPeers := fun _ => none } }

theorem openStarted : Started counting openConfig openNode := ⟨{}, rfl, rfl⟩

def relayRoles : InfrastructureRoles := ⟨false, true⟩

def registrationCall : Call String String := .addInfrastructurePeer peer [relayAddress] relayRoles

def registration (id : HandleId) : Task String String :=
  ⟨.addInfrastructurePeer (.new peer [relayAddress] relayRoles), id⟩

def registrationQueued (n : Node counting) (id : HandleId) : Node counting :=
  (n.openCall id registrationCall).firstPoll id (registrationCall.opened none)
    (registration id).command 0

/-- The loop has received the command. -/
def registering (n : Node counting) (id : HandleId) : Node counting :=
  { (registrationQueued n id).sweep with
    loop := { (registrationQueued n id).sweep.loop with commandRx := .new _ }
    phase := .running (registration id) }

/-- A client has registered the relay. -/
def registered (n : Node counting) (id : HandleId) : Node counting :=
  (registering n id).handleCommand (registration id)

def registerSteps (n : Node counting) (id : HandleId) :
    List (Transition.Trans (Node counting) (Label String String)) :=
  [⟨n, .openCall id registrationCall, n.openCall id registrationCall⟩,
    ⟨n.openCall id registrationCall, .firstPoll id 0, registrationQueued n id⟩,
    ⟨registrationQueued n id, .sweep, (registrationQueued n id).sweep⟩,
    ⟨(registrationQueued n id).sweep, .recvCommand, registering n id⟩,
    ⟨registering n id, .handleCommand, registered n id⟩]

theorem registered_run {n : Node counting} (id : HandleId) (hp : n.phase = .top)
    (hc : 0 < n.clients) (hid : n.calls id = none) (hq : n.loop.commandRx = .new _) :
    Run counting n (registerSteps n id) (registered n id) := by
  have hopen : Step n (.openCall id registrationCall) (n.openCall id registrationCall) :=
    .openCall registrationCall hc hid
  have hpoll : Step (n.openCall id registrationCall) (.firstPoll id 0)
      (registrationQueued n id) := .firstPoll 0 (Function.update_self ..) rfl
  have hsweep : Step (registrationQueued n id) .sweep (registrationQueued n id).sweep :=
    .sweep ((Node.firstPoll_phase _ _ _ _ _).trans hp)
  have hqueued : (registrationQueued n id).loop.commandRx =
      (Channel.new _).push (registration id) (by decide) := by
    have haccepts : (n.openCall id registrationCall).loop.commandRx.Accepts := by
      show n.loop.commandRx.Accepts
      rw [hq]
      decide
    rw [registrationQueued, Node.firstPoll_of_accepts _ _ _ _ _ haccepts]
    show n.loop.commandRx.push (registration id) haccepts.2 = _
    congr 1
  have hrecv : Step (registrationQueued n id).sweep .recvCommand (registering n id) := by
    refine .recvCommand rfl ?_
    show (registrationQueued n id).loop.commandRx.tryRecv = _
    rw [hqueued]
    rfl
  exact ((((Transition.Path.single hopen).snoc hpoll).snoc hsweep).snoc hrecv).snoc
    (.handleCommand rfl)

/-! ### What the relay does -/

/-- The relay connects. -/
def up (n : Node counting) : Node counting :=
  n.reported connectedState (.connectionEstablished peer 1) (.peerConnected peer)

def upSteps (n : Node counting) : List (Transition.Trans (Node counting) (Label String String)) :=
  n.turnSteps connectedState (.connectionEstablished peer 1) ++
    [⟨n.turn connectedState (.connectionEstablished peer 1), .beginSend, up n⟩]

theorem up_run {n : Node counting} (hp : n.phase = .top)
    (hnext : Loopback.next n.loop.swarm.state (.connectionEstablished peer 1) connectedState)
    (hcount : n.loop.swarm.state.connected = [])
    (hr : (n.turn connectedState (.connectionEstablished peer 1)).phase =
      .sending (.peerConnected peer)) : Run counting n (upSteps n) (up n) := by
  refine n.reported_run _ _ _ hp ⟨hnext, ?_⟩ rfl hr
  show 1 = n.loop.swarm.state.connected.count peer + 1
  rw [hcount]
  rfl

def identify (info : IdentifyInfo) : SwarmEvent String String :=
  .behaviour (.identifyReceived peer info)

/-- The relay identifies itself. -/
def identified (info : IdentifyInfo) (n : Node counting) : Node counting :=
  n.reported connectedState (identify info)
    (.identifyReceived peer info.agentVersion info.protocolVersion info.listenAddrs
      info.protocols)

def identifiedSteps (info : IdentifyInfo) (n : Node counting) :
    List (Transition.Trans (Node counting) (Label String String)) :=
  n.turnSteps connectedState (identify info) ++
    [⟨n.turn connectedState (identify info), .beginSend, identified info n⟩]

theorem identified_run {n : Node counting} (info : IdentifyInfo) (hp : n.phase = .top)
    (hstate : n.loop.swarm.state = connectedState)
    (hr : (n.turn connectedState (identify info)).phase = .sending (.identifyReceived peer
      info.agentVersion info.protocolVersion info.listenAddrs info.protocols)) :
    Run counting n (identifiedSteps info n) (identified info n) :=
  n.reported_run connectedState (identify info) _ hp ⟨hstate.symm, trivial⟩ rfl hr

end Loopback

end SwarmP2p
