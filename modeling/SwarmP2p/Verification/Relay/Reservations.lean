import SwarmP2p.Verification.Relay.Sessions

/-! # Relay reservations in every session

An address that is registered for relay is requested at once when the peer is connected;
otherwise it is kept until the peer next identifies itself, and then given up. So a
session whose Identify finds an address neither requested nor kept goes without it. -/

namespace SwarmP2p

variable {Req Resp : Type} {L : Libp2p Req Resp}

/-- Every registered address of a peer that is identified in its current session has been
requested in that session. -/
def RelayLog.Requested (log : RelayLog) : Prop :=
  ∀ p s, log.session p = some s → s.identified = true →
    ∀ addr ∈ log.registered p, EventLoop.relayAddr p addr ∈ s.requested

/-- When a peer identifies itself in a session, each of its registered addresses has been
requested in the session or is still kept. -/
def RelayLog.Covers (version : String) (log : RelayLog) (n : Node L) (l : Label Req Resp) :
    Prop :=
  ∀ p s, l.identifies version p = true → log.session p = some s →
    ∀ addr ∈ log.registered p, EventLoop.relayAddr p addr ∈ s.requested ∨
      EventLoop.relayAddr p addr ∈
        ((n.loop.bootstrapPeers p).getD []).map (EventLoop.relayAddr p)

/-! ### Requests of one step -/

theorem EventLoop.handleIdentify_listenRequests (self : EventLoop L) (peerId : PeerId)
    {info : IdentifyInfo} (hv : info.protocolVersion = self.protocolVersion) :
    (self.handleIdentify peerId info).swarm.listenRequests =
      self.swarm.listenRequests ++
        ((self.bootstrapPeers peerId).getD []).map (relayAddr peerId) := by
  have hregister : (info.listenAddrs.foldl (registerListenAddr peerId)
      self.swarm).listenRequests = self.swarm.listenRequests :=
    (Swarm.Uses.foldl (P := fun call => call.listenOn? = none) info.listenAddrs
      (fun s addr _ => registerListenAddr_uses peerId s addr rfl rfl)
      self.swarm).listenRequests_eq fun _ _ => by simp [SwarmCall.listenOn?]
  simp only [handleIdentify, hv, if_true]
  split
  · rename_i hnone
    rw [hnone, hregister]
    exact (List.append_nil _).symm
  · rename_i addrs hsome
    rw [requestRelayReservations_listenRequests, hregister, hsome]
    rfl

theorem Step.identified_requests {n m : Node L} {p : PeerId} {info : IdentifyInfo}
    (h : Step n (.swarmEvent (.behaviour (.identifyReceived p info))) m)
    (hv : info.protocolVersion = n.loop.protocolVersion) :
    n.listenRequests m =
      ((n.loop.bootstrapPeers p).getD []).map (EventLoop.relayAddr p) := by
  obtain ⟨state, commands, order, _, _, hloop⟩ := h.converted rfl
  have hrequests : m.loop.swarm.listenRequests = n.loop.swarm.listenRequests ++
      ((n.loop.bootstrapPeers p).getD []).map (EventLoop.relayAddr p) := by
    rw [hloop]
    exact (n.offered state commands).handleIdentify_listenRequests p hv
  rw [Node.listenRequests, hrequests, List.drop_left]

theorem AddInfrastructurePeerCommand.register_relayClient (self : AddInfrastructurePeerCommand)
    (swarm : Swarm L) : (self.addrs.foldl self.register swarm).relayClient = swarm.relayClient :=
  (Swarm.Uses.foldl (P := fun _ : SwarmCall Resp => True) self.addrs (fun s _ _ =>
    self.register_uses s trivial fun _ => trivial) swarm).relayClient_eq

/-- The command leaves its request exactly as the source's `run` does: with the relay
client on, and with the role. -/
theorem AddInfrastructurePeerCommand.run_request (self : AddInfrastructurePeerCommand)
    {swarm : Swarm L} (hclient : swarm.relayClient = true) (hrole : self.roles.relayServer = true) :
    (self.run swarm).handler.takeRelayReservationRequest.2 = some (self.peerId, self.addrs) := by
  have hflag : (self.addrs.foldl self.register swarm).relayClient = true :=
    (self.register_relayClient swarm).trans hclient
  simp only [run, hflag, hrole, Bool.and_self, if_true]
  split <;> rfl

theorem Node.handleCommand_requests (n : Node L) {c : AddInfrastructurePeerCommand}
    {handle : HandleId} (hclient : n.loop.swarm.relayClient = true)
    (hrole : c.roles.relayServer = true)
    (hconnected : (c.run n.loop.swarm).swarm.isConnected c.peerId = true) :
    n.listenRequests (n.handleCommand ⟨.addInfrastructurePeer c, handle⟩) =
      c.addrs.map (EventLoop.relayAddr c.peerId) := by
  have hrequest := c.run_request hclient hrole
  have hloop : (n.handleCommand ⟨.addInfrastructurePeer c, handle⟩).loop.swarm =
      (EventLoop.requestRelayReservations { n.loop with swarm := (c.run n.loop.swarm).swarm }
        c.peerId c.addrs).swarm := by
    show (EventLoop.scheduleRelayReservations { n.loop with swarm := (c.run n.loop.swarm).swarm }
      (c.run n.loop.swarm).handler.takeRelayReservationRequest.2).swarm = _
    rw [hrequest]
    simp only [EventLoop.scheduleRelayReservations, hconnected, if_true]
  have hrun : (c.run n.loop.swarm).swarm.listenRequests = n.loop.swarm.listenRequests :=
    (c.run_uses n.loop.swarm).listenRequests_eq fun _ _ => id
  rw [Node.listenRequests, hloop, EventLoop.requestRelayReservations_listenRequests, hrun,
    List.drop_left]

/-- What a step registers at a connected peer, it requests. -/
theorem Step.registered_requests {count : L.State → PeerId → Nat}
    (hcount : CountsConnections L count) {n m : Node L} {l : Label Req Resp} (h : Step n l m)
    (hclient : n.loop.swarm.relayClient = true) {p : PeerId}
    (hp : 0 < count n.loop.swarm.state p) :
    ∀ addr ∈ n.registers p l, EventLoop.relayAddr p addr ∈ n.listenRequests m := by
  intro addr ha
  unfold Node.registers at ha
  split at ha
  · split at ha
    · rename_i c handle hphase
      split at ha
      · rename_i hc
        obtain ⟨rfl, hrole⟩ := hc
        cases h with
        | handleCommand hrunning =>
            obtain rfl := LoopPhase.running.inj (hrunning.symm.trans hphase)
            have hconnected : (c.run n.loop.swarm).swarm.isConnected c.peerId = true := by
              refine (hcount.isConnected _ _).mpr ?_
              rwa [hcount.called ((c.run_uses n.loop.swarm).mono fun _ _ => trivial)]
            rw [n.handleCommand_requests hclient hrole hconnected]
            exact List.mem_map_of_mem ha
      · cases ha
    · cases ha
  · cases ha

/-! ### Runs -/

/-- A session goes on with what the step requests, or is left alone, or is new. -/
theorem observeSession_eq_some {version : String} {p : PeerId} {session : Option Session}
    {n m : Node L} {l : Label Req Resp} {s' : Session}
    (h : observeSession version p session ⟨n, l, m⟩ = some s') :
    (∃ s, session = some s ∧
        s' = ⟨s.requested ++ n.listenRequests m, s.identified || l.identifies version p⟩) ∨
      (session = some s' ∧ l.identifies version p = false ∧ n.registers p l = []) ∨
      s' = ⟨[], false⟩ := by
  unfold observeSession at h
  dsimp only at h
  split at h
  · split at h
    · exact .inr (.inr (Option.some.inj h).symm)
    · exact .inr (.inl ⟨h, rfl, rfl⟩)
  · split at h
    · cases h
    · exact .inr (.inl ⟨h, rfl, rfl⟩)
  · obtain ⟨s, hs, rfl⟩ := Option.map_eq_some_iff.mp h
    exact .inl ⟨s, hs, rfl⟩

theorem RelayLog.Requested.step {count : L.State → PeerId → Nat}
    (hcount : CountsConnections L count) {config : NodeConfig} {log : RelayLog} {n m : Node L}
    {l : Label Req Resp} (h : log.Requested) (ht : RelayTied config count log n)
    (hs : Step n l m) (hc : log.Covers config.protocolVersion n l) :
    (log.observe config.protocolVersion ⟨n, l, m⟩).Requested := by
  intro p s' hsession hidentified addr ha
  have hregistered : addr ∈ log.registered p ∨ addr ∈ n.registers p l := List.mem_append.mp ha
  rcases observeSession_eq_some hsession with ⟨s, hsome, rfl⟩ | ⟨hsome, _, hnone⟩ | rfl
  · refine List.mem_append.mpr ?_
    rcases hregistered with hold | hnew
    · rcases Bool.or_eq_true_iff.mp hidentified with hbefore | hnow
      · exact .inl (h p s hsome hbefore addr hold)
      · refine (hc p s hnow hsome addr hold).imp_right fun hkept => ?_
        obtain ⟨info, rfl, hv⟩ := Label.eq_of_identifies hnow
        rwa [hs.identified_requests (hv.trans ht.protocolVersion.symm)]
    · have hconnected := (ht.session p).mp (by rw [hsome]; rfl)
      exact .inr (hs.registered_requests hcount ht.relayClient hconnected addr hnew)
  · rw [hnone] at hregistered
    exact h p s' hsome hidentified addr (hregistered.resolve_right List.not_mem_nil)
  · cases hidentified

/-- An Identify that finds an address neither requested nor kept leaves the session
without it. -/
theorem RelayTied.not_requested {count : L.State → PeerId → Nat} {config : NodeConfig}
    {log : RelayLog} {n m : Node L} {l : Label Req Resp} (ht : RelayTied config count log n)
    (hs : Step n l m) (hc : ¬log.Covers config.protocolVersion n l) :
    ¬(log.observe config.protocolVersion ⟨n, l, m⟩).Requested := by
  intro hrequested
  refine hc fun p s hnow hsome addr ha => ?_
  obtain ⟨info, rfl, hv⟩ := Label.eq_of_identifies hnow
  have hsession : observeSession config.protocolVersion p (log.session p)
      ⟨n, .swarmEvent (.behaviour (.identifyReceived p info)), m⟩ =
        some ⟨s.requested ++ n.listenRequests m, s.identified || true⟩ := by
    rw [hsome, ← hnow]
    rfl
  have hmem := hrequested p _ hsession (Bool.or_true _) addr (List.mem_append_left _ ha)
  rw [hs.identified_requests (hv.trans ht.protocolVersion.symm)] at hmem
  exact List.mem_append.mp hmem

/-- In every session each registered address is requested, exactly as long as every
Identify of a session finds it requested or kept. -/
theorem reservations_requested_iff {count : L.State → PeerId → Nat}
    (hcount : CountsConnections L count) {config : NodeConfig}
    (hrelay : config.enableRelayClient = true) {n m : Node L}
    {π : List (Transition.Trans (Node L) (Label Req Resp))} (hs : Started L config n)
    (h : Run L n π m) :
    (∀ x ∈ Transition.watch (RelayLog.observe config.protocolVersion) (.initial config) π,
        x.post.1.Requested) ↔
      ∀ x ∈ Transition.watch (RelayLog.observe config.protocolVersion) (.initial config) π,
        x.pre.1.Covers config.protocolVersion x.pre.2 x.label := by
  have hw := h.watch (RelayLog.observe config.protocolVersion) (.initial config)
  refine hw.safe_iff_meets (I := fun a => RelayTied config count a.1 a.2)
    (P := fun a => a.1.Requested) (C := fun a l => a.1.Covers config.protocolVersion a.2 l)
    ?_ ?_ ?_ (hs.relayTied hcount hrelay) ?_
  · rintro a l b ha ⟨hstep, hlog⟩
    rw [hlog]
    exact ha.step hcount hstep
  · rintro a l b hI ha ⟨hstep, hlog⟩ hc
    rw [hlog]
    exact ha.step hcount hI hstep hc
  · rintro a l b hI ⟨hstep, hlog⟩ hc
    rw [hlog]
    exact hI.not_requested hstep hc
  · intro p s hsession
    cases hsession

/-! ### A relay that is lost and found again -/

namespace Loopback

def relayAddress : Multiaddr := [.ip4 ⟨10, 0, 0, 1⟩, .other 6 [15, 161]]

def relayConfig : NodeConfig :=
  { config [(peer, relayAddress)] with enableRelayClient := true }

def relayNode : Node counting where
  loop := EventLoop.connectBootstrapPeers
    { swarm := ⟨({} : State), true, false, []⟩
      commandRx := .new _
      eventTx := .new _
      activeCommands := []
      protocolVersion := "/loopback/1.0.0"
      pendingChannels := .new 60
      pendingIdCounter := 0
      bootstrapPeers := fun _ => none
      enableRelayClient := true
      lanHelper := none
      advertisedLanAddrs := [] }
    [(peer, relayAddress)]
  phase := .top
  calls := fun _ => none
  handles := fun _ => {}
  clients := 1
  frontend := .receiving
  dataChannels := .new default
  now := 0

theorem relayStarted : Started counting relayConfig relayNode := ⟨{}, rfl, rfl⟩

def connectedState : State := { connected := [peer] }

def relayInfo : IdentifyInfo := ⟨"/loopback/1.0.0", "agent", [], []⟩

def identifyEvent : SwarmEvent String String := .behaviour (.identifyReceived peer relayInfo)

def identifyReport : NodeEvent String := .identifyReceived peer "agent" "/loopback/1.0.0" [] []

def relayConnected : Node counting :=
  relayNode.reported connectedState (.connectionEstablished peer 1) (.peerConnected peer)

def relayIdentified : Node counting :=
  relayConnected.reported connectedState identifyEvent identifyReport

def relayClosed : Node counting :=
  relayIdentified.reported ({} : State) (.connectionClosed peer 0) (.peerDisconnected peer)

def relayReconnected : Node counting :=
  relayClosed.reported connectedState (.connectionEstablished peer 1) (.peerConnected peer)

/-- The steps of the first connection. -/
def relaySteps : List (Transition.Trans (Node counting) (Label String String)) :=
  relayNode.turnSteps connectedState (.connectionEstablished peer 1) ++
    [⟨relayNode.turn connectedState (.connectionEstablished peer 1), .beginSend, relayConnected⟩]

theorem relayConnected_run : Run counting relayNode relaySteps relayConnected :=
  relayNode.reported_run _ _ _ rfl ⟨.inr ⟨by decide, rfl⟩, rfl⟩ rfl rfl

end Loopback

open Loopback in
/-- The relay identifies itself again after a new connection, and nothing is requested. -/
theorem reservation_not_renewed :
    ∃ (n m : Node counting) (π : List (Transition.Trans (Node counting) (Label String String))),
      relayConfig.enableRelayClient = true ∧ Started counting relayConfig n ∧
        Run counting n π m ∧
        ¬∀ x ∈ Transition.watch (RelayLog.observe relayConfig.protocolVersion)
          (.initial relayConfig) π, x.post.1.Requested := by
  have hidentified := relayConnected.reported_run connectedState identifyEvent identifyReport rfl
    ⟨rfl, trivial⟩ rfl rfl
  have hclosed := relayIdentified.reported_run ({} : State) (.connectionClosed peer 0)
    (.peerDisconnected peer) rfl ⟨⟨by decide, rfl⟩, rfl⟩ rfl rfl
  have hreconnected := relayClosed.reported_run connectedState (.connectionEstablished peer 1)
    (.peerConnected peer) rfl ⟨.inl rfl, rfl⟩ rfl rfl
  have hagain := relayReconnected.turn_run connectedState identifyEvent rfl ⟨rfl, trivial⟩ rfl
  refine ⟨relayNode, _, _, rfl, relayStarted, (((relayConnected_run.append hidentified).append
    hclosed).append hreconnected).append hagain, fun hall => ?_⟩
  have hlast := hall _ (List.mem_of_getLast? rfl)
  exact absurd (hlast peer ⟨[], true⟩ rfl rfl relayAddress (by decide)) (by decide)

open Loopback in
/-- In the first session the reservation is requested. -/
theorem reservations_requested_iff_first :
    RelayLog.Requested
      ((relaySteps ++ relayConnected.turnSteps connectedState identifyEvent).foldl
        (RelayLog.observe relayConfig.protocolVersion) (.initial relayConfig)) := by
  have hrun := relayConnected_run.append
    (relayConnected.turn_run connectedState identifyEvent rfl ⟨rfl, trivial⟩ rfl)
  refine (reservations_requested_iff counting_counts rfl relayStarted hrun).mpr ?_ _
    (List.mem_of_getLast? rfl)
  refine List.forall_mem_cons.mpr ⟨fun p s h => (by cases h), ?_⟩
  refine List.forall_mem_cons.mpr ⟨fun p s h => (by cases h), ?_⟩
  refine List.forall_mem_cons.mpr ⟨fun p s h => (by cases h), ?_⟩
  refine List.forall_mem_cons.mpr ⟨fun p s h => (by cases h), ?_⟩
  refine List.forall_mem_singleton.mpr fun p s h _ addr ha => .inr ?_
  obtain rfl : peer = p := by
    obtain ⟨_, heq, _⟩ := Label.eq_of_identifies h
    cases heq
    rfl
  revert addr
  decide

end SwarmP2p
