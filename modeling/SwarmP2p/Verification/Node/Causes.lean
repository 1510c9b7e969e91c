import SwarmP2p.Verification.Call.Answer
import SwarmP2p.Verification.Call.Order
import SwarmP2p.Verification.LanHelper.Direct
import SwarmP2p.Verification.Relay.Repeats

/-! # Why the node calls libp2p

The node does nothing on its own account. Every call in the log of the swarm was asked for:
by the configuration, by a call of a client whose command the loop has run, or by an event
of the swarm. -/

namespace SwarmP2p

variable {Req Resp : Type} {L : Libp2p Req Resp}

/-! ### Who asks -/

/-- The circuit addresses of relays, if the relay client is on. -/
def NodeConfig.AsksRelay (config : NodeConfig) (relays : List (PeerId × Multiaddr))
    (addr : Multiaddr) : Prop :=
  config.enableRelayClient = true ∧ ∃ entry ∈ relays, addr = EventLoop.relayAddr entry.1 entry.2

/-- The calls that the configuration asks for. -/
def NodeConfig.Asks (config : NodeConfig) : SwarmCall Resp → Prop
  | .listenOn addr _ => addr ∈ config.listenAddrs ∨ config.AsksRelay config.bootstrapPeers addr
  | .kadAddAddress peerId addr => (peerId, addr) ∈ config.bootstrapPeers
  | .addPeerAddress peerId addr => (peerId, addr) ∈ config.bootstrapPeers
  | .dial peerId _ => peerId ∈ config.bootstrapPeers.map Prod.fst
  | _ => False

/-- The calls that a method asks for, with what it took from the pending map. -/
def Call.Asks (config : NodeConfig) (taken : Option ResponseChannel) :
    Call Req Resp → SwarmCall Resp → Prop
  | .dial p, .dial q _ => q = p
  | .disconnect p, .disconnectPeerId q _ => q = p
  | .addPeerAddrs p addrs, .addPeerAddress q addr => q = p ∧ addr ∈ addrs
  | .addInfrastructurePeer p addrs _, .addPeerAddress q addr => q = p ∧ addr ∈ addrs
  | .addInfrastructurePeer p addrs roles, .kadAddAddress q addr =>
      q = p ∧ addr ∈ addrs ∧ roles.kadServer = true
  | .addInfrastructurePeer p _ _, .dial q _ => q = p
  | .addInfrastructurePeer p addrs roles, .listenOn addr _ =>
      roles.relayServer = true ∧ config.AsksRelay (addrs.map (Prod.mk p)) addr
  | .sendRequest p _, .sendRequest q _ => q = p
  | .sendResponse _ response, .sendResponse channel r _ => taken = some channel ∧ r = response
  | .bootstrap, .kadQuery _ => True
  | .getRecord _, .kadQuery _ => True
  | .putRecord _, .kadQuery _ => True
  | .getProviders _, .kadQuery _ => True
  | .getClosestPeers _, .kadQuery _ => True
  | .startProvide _, .kadQuery _ => True
  | .stopProvide key, .kadStopProviding k => k = key
  | .removeRecord key, .kadRemoveRecord k => k = key
  | _, _ => False

/-- The helper announces private addresses. -/
def NodeConfig.Announces (config : NodeConfig) : Prop :=
  ∃ c, config.infrastructureMode = .lanHelper c ∧ c.announcePrivateAddrs = true

/-- The calls that an event of the swarm asks for. -/
def SwarmEvent.Asks (config : NodeConfig) : SwarmEvent Req Resp → SwarmCall Resp → Prop
  | .behaviour (.mdnsDiscovered peers), .addPeerAddress p addr => (p, addr) ∈ peers
  | .behaviour (.mdnsDiscovered peers), .dial p _ => p ∈ peers.map Prod.fst
  | .behaviour (.identifyReceived p info), .addPeerAddress q addr =>
      q = p ∧ addr ∈ info.listenAddrs ∧ info.protocolVersion = config.protocolVersion
  | .behaviour (.identifyReceived p info), .kadAddAddress q addr =>
      q = p ∧ addr ∈ info.listenAddrs ∧ info.protocolVersion = config.protocolVersion
  | .behaviour (.kad (.routingUpdated p addresses)), .addPeerAddress q addr =>
      q = p ∧ addr ∈ addresses
  | .newListenAddr address, .addExternalAddress addr =>
      addr = address ∧ isUsableLanAddr addr = true ∧ config.Announces
  | _, _ => False

/-- The loop has run the command of this call. -/
def HasRun (π : List (Transition.Trans (Node L) (Label Req Resp))) (m : Node L)
    (c : ClientCall Req Resp) : Prop :=
  ∃ t ∈ executed π, m.calls t.handle = some c

/-- Somebody has asked for the call. -/
def Asked (config : NodeConfig) (π : List (Transition.Trans (Node L) (Label Req Resp)))
    (m : Node L) (call : SwarmCall Resp) : Prop :=
  config.Asks call ∨ (∃ c, HasRun π m c ∧ c.call.Asks config c.taken call) ∨
    ∃ event ∈ swarmEvents π, event.Asks config call

/-! ### Commands -/

theorem Call.run_asks (config : NodeConfig) {call : Call Req Resp}
    {taken : Option ResponseChannel} {command : Command Req Resp}
    (h : call.command taken = some command) (swarm : Swarm L) :
    Swarm.Uses (call.Asks config taken) swarm (command.run swarm).swarm := by
  cases call with
  | dial p =>
      cases h
      exact DialCommand.run_uses _ swarm fun _ => rfl
  | isConnected | getAddrs =>
      cases h
      exact .refl
  | disconnect p =>
      cases h
      exact DisconnectCommand.run_uses _ swarm fun _ => rfl
  | addPeerAddrs p addrs =>
      cases h
      exact .foldl addrs (fun _ _ ha => Swarm.Uses.refl.addPeerAddress _ _ ⟨rfl, ha⟩) swarm
  | addInfrastructurePeer p addrs roles =>
      cases h
      have hregister : Swarm.Uses
          ((Call.addInfrastructurePeer p addrs roles : Call Req Resp).Asks config taken) swarm
          (addrs.foldl (AddInfrastructurePeerCommand.new p addrs roles).register swarm) :=
        .foldl _ (fun s _ ha => AddInfrastructurePeerCommand.register_uses _ s ⟨rfl, ha⟩
          fun hkad => ⟨rfl, ha, hkad⟩) _
      simp only [Command.run, AddInfrastructurePeerCommand.run]
      split
      · split
        · exact hregister
        · exact hregister.dial _ fun _ => rfl
      · split
        · exact hregister
        · exact hregister.dial _ fun _ => rfl
  | sendRequest p request =>
      cases h
      exact SendRequestCommand.run_uses _ swarm fun _ => rfl
  | sendResponse pendingId response =>
      obtain ⟨channel, rfl, rfl⟩ := Option.map_eq_some_iff.mp h
      have hcall := (Swarm.Uses.refl (s := swarm)).sendResponse channel response
        (P := (Call.sendResponse pendingId response : Call Req Resp).Asks config (some channel))
        fun _ => ⟨rfl, rfl⟩
      simp only [Command.run, SendResponseCommand.new, SendResponseCommand.run]
      split <;> exact hcall.of_fst (by assumption)
  | bootstrap =>
      cases h
      simp only [Command.run, BootstrapCommand.run]
      split <;> exact (Swarm.Uses.refl.kadBootstrap fun _ => trivial).of_fst (by assumption)
  | getRecord key =>
      cases h
      exact Swarm.Uses.refl.kadGetRecord _ fun _ => trivial
  | putRecord record =>
      cases h
      simp only [Command.run, PutRecordCommand.run]
      split <;> exact (Swarm.Uses.refl.kadPutRecord _ fun _ => trivial).of_fst (by assumption)
  | getProviders key =>
      cases h
      exact Swarm.Uses.refl.kadGetProviders _ fun _ => trivial
  | getClosestPeers key =>
      cases h
      exact Swarm.Uses.refl.kadGetClosestPeers _ fun _ => trivial
  | startProvide key =>
      cases h
      simp only [Command.run, StartProvideCommand.run]
      split <;> exact (Swarm.Uses.refl.kadStartProviding _ fun _ => trivial).of_fst (by assumption)
  | stopProvide key =>
      cases h
      exact Swarm.Uses.refl.kadStopProviding _ rfl
  | removeRecord key =>
      cases h
      exact Swarm.Uses.refl.kadRemoveRecord _ rfl

/-! ### The code of the loop -/

/-- The loop runs under the configuration with which the node was started. -/
structure EventLoop.Configured (config : NodeConfig) (loop : EventLoop L) : Prop where
  protocolVersion : loop.protocolVersion = config.protocolVersion
  lanHelper : ∀ c, loop.lanHelper = some c → config.infrastructureMode = .lanHelper c
  relayClient : loop.swarm.relayClient = config.enableRelayClient

theorem EventLoop.Configured.same {config : NodeConfig} {a b : EventLoop L}
    (h : a.Configured config) (hsame : a.SameConfig b)
    (hclient : b.swarm.relayClient = a.swarm.relayClient) : b.Configured config :=
  ⟨hsame.protocolVersion.trans h.protocolVersion,
    fun c hc => h.lanHelper c (hsame.lanHelper ▸ hc), hclient.trans h.relayClient⟩

theorem Started.configured {config : NodeConfig} {n : Node L} (h : Started L config n) :
    n.loop.Configured config := by
  obtain ⟨first, loop, heq, hloop, _, _, hversion, hclient, hhelper⟩ := h.built
  have hlistened := EventLoop.startListen_uses (P := fun _ => True) heq fun _ _ => trivial
  have hconnected := loop.connectBootstrapPeers_uses (P := fun _ => True)
    config.bootstrapPeers (fun _ _ => trivial) (fun _ _ => trivial) fun _ _ _ => trivial
  have huses := hlistened.trans hconnected
  rw [hloop]
  exact EventLoop.Configured.same ⟨hversion, hhelper, hclient⟩ huses.same
    huses.swarm.relayClient_eq

theorem Reachable.configured {config : NodeConfig} {n : Node L} (h : Reachable L config n) :
    n.loop.Configured config :=
  Transition.Reachable.invariant (I := fun n : Node L => n.loop.Configured config) h
    (fun _ hs => hs.configured) fun _ _ _ hc hs => by
      obtain ⟨_, hmoved⟩ := hs.moved
      exact hc.same hmoved.same hmoved.uses.relayClient_eq

namespace EventLoop

variable {config : NodeConfig} {P : SwarmCall Resp → Prop}

theorem maybeAnnounceLanHelperAddr_asks (self : EventLoop L) (addr : Multiaddr)
    (hexternal : isUsableLanAddr addr = true → self.AnnouncesPrivate →
      P (.addExternalAddress addr)) :
    Swarm.Uses P self.swarm (self.maybeAnnounceLanHelperAddr addr).swarm := by
  unfold maybeAnnounceLanHelperAddr
  split
  · exact .refl
  · rename_i c hhelper
    split
    · rename_i hannounce
      obtain ⟨eventTx, heq⟩ := (self.advertise addr).trySendStatus_eq
        (.lanHelperStatusChanged (self.advertise addr).swarm.relayServer
          (self.advertise addr).advertisedLanAddrs)
      dsimp only
      rw [heq]
      show Swarm.Uses P self.swarm (self.advertise addr).swarm
      unfold advertise
      split
      · rename_i hnew
        exact Swarm.Uses.refl.addExternalAddress addr
          (hexternal (Bool.and_eq_true_iff.mp hnew).1 ⟨c, hhelper, hannounce⟩)
      · exact .refl
    · exact .refl

/-- The loop asks to listen, or makes a call that the event asks for. -/
theorem convertToNodeEvent_asks (self : EventLoop L) (hc : self.Configured config) (now : Nat)
    {order : List PeerId} {event : SwarmEvent Req Resp} (ho : IterationOrder event order) :
    Swarm.Uses (fun call => (∃ addr accepted, call = .listenOn addr accepted) ∨
        event.Asks config call)
      self.swarm (self.convertToNodeEvent now order event).1.swarm := by
  cases event with
  | behaviour event =>
      simp only [convertToNodeEvent]
      unfold convertBehaviourEvent
      split
      all_goals try exact .refl
      · exact (self.handleDiscovered_uses order _ (fun _ h => .inr h)
          fun p hp _ => .inr ((ho.2 p).mp hp)).swarm
      · exact (self.handleIdentify_uses _ _
          (fun hv _ h => .inr ⟨rfl, h, hv.trans hc.protocolVersion⟩)
          (fun hv _ h => .inr ⟨rfl, h, hv.trans hc.protocolVersion⟩)
          fun addr accepted => .inl ⟨addr, accepted, rfl⟩).swarm
      · exact .foldl _ (fun _ _ h => Swarm.Uses.refl.addPeerAddress _ _ (.inr ⟨rfl, h⟩)) _
  | newListenAddr addr =>
      refine self.maybeAnnounceLanHelperAddr_asks addr fun husable hannounces => .inr ?_
      obtain ⟨c, hhelper, hannounce⟩ := hannounces
      exact ⟨rfl, husable, c, hc.lanHelper c hhelper, hannounce⟩
  | _ => exact .refl

end EventLoop

/-! ### Steps -/

/-- A call that a step makes is asked for, or is a request to listen. -/
theorem Step.asked {config : NodeConfig} {n m : Node L} {l : Label Req Resp}
    (hr : Reachable L config n) (h : Step n l m) {call : SwarmCall Resp}
    (hc : call ∈ m.loop.swarm.calls) :
    call ∈ n.loop.swarm.calls ∨ (∃ addr accepted, call = .listenOn addr accepted) ∨
      (l = .handleCommand ∧ ∃ task c, n.phase = .running task ∧
        n.calls task.handle = some c ∧ c.call.Asks config c.taken call) ∨
      ∃ event, l = .swarmEvent event ∧ event.Asks config call := by
  cases h with
  | @handleCommand task hp =>
      obtain ⟨loop, huses, heq⟩ := n.handleCommand_loop task
      rw [heq] at hc
      rcases huses.swarm.mem_calls hc with hc | hlisten
      · obtain ⟨c, hcall, hcommand⟩ := hr.made task (n.running_unrun hp)
        rcases (Call.run_asks config hcommand n.loop.swarm).mem_calls hc with hold | hasks
        · exact .inl hold
        · exact .inr (.inr (.inl ⟨rfl, task, c, hp, hcall, hasks⟩))
      · exact .inr (.inl hlisten)
  | @swarmEvent event state order hp h ho =>
      rcases (n.withSwarmState state).handleSwarmEvent_cases order event with ⟨_, heq⟩ | ⟨_, heq⟩
      · rw [heq] at hc
        exact .inl hc
      · rw [heq] at hc
        have hconfigured : n.loop.Configured config := hr.configured
        have hasks := EventLoop.convertToNodeEvent_asks
          { (n.withSwarmState state).loop with
            activeCommands :=
              (Chain.dispatch (Task.onEvent L) n.loop.activeCommands event).commands }
          ⟨hconfigured.protocolVersion, hconfigured.lanHelper, hconfigured.relayClient⟩ n.now ho
        rcases hasks.mem_calls hc with hold | hlisten | hasks
        · exact .inl hold
        · exact .inr (.inl hlisten)
        · exact .inr (.inr (.inr ⟨event, rfl, hasks⟩))
  | firstPoll waker h hp =>
      rw [(n.firstPoll_swarm ..).1] at hc
      exact .inl hc
  | beginSend hp =>
      rw [(n.pollSend_swarm _).1] at hc
      exact .inl hc
  | resumeSend hp h =>
      rw [(n.pollSend_swarm _).1] at hc
      exact .inl hc
  | _ => exact .inl hc

/-! ### Runs -/

theorem Started.asked {config : NodeConfig} {n : Node L} (h : Started L config n)
    {call : SwarmCall Resp} (hc : call ∈ n.loop.swarm.calls) :
    (∃ addr accepted, call = .listenOn addr accepted) ∨ config.Asks call := by
  obtain ⟨loop, hnew, huses⟩ := h.uses
    (P := fun call => (∃ addr accepted, call = .listenOn addr accepted) ∨ config.Asks call)
    (fun addr accepted => .inl ⟨addr, accepted, rfl⟩) (fun _ he => .inr he) (fun _ he => .inr he)
    fun _ he _ => .inr (List.mem_map_of_mem he)
  refine (huses.swarm.mem_calls hc).resolve_left fun hold => ?_
  rw [hnew.calls] at hold
  cases hold

/-- A command that a step runs belongs to a call. -/
theorem Run.hasRun {n m : Node L} {π : List (Transition.Trans (Node L) (Label Req Resp))}
    (h : Run L n π m) {x : Transition.Trans (Node L) (Label Req Resp)} (hx : x ∈ π)
    (hl : x.label = .handleCommand) {task : Task Req Resp} (hp : x.pre.phase = .running task)
    {c : ClientCall Req Resp} (hc : x.pre.calls task.handle = some c) :
    ∃ c', HasRun π m c' ∧ c'.call = c.call ∧ c'.taken = c.taken := by
  obtain ⟨_, χ, _, _, hs, hafter⟩ := h.split hx
  obtain ⟨c₁, hc₁, hcall₁, htaken₁⟩ := Desk.SameCalls.of_step hs.desk task.handle c hc
  obtain ⟨c₂, hc₂, hcall₂, htaken₂⟩ := Run.sameCalls hafter task.handle c₁ hc₁
  refine ⟨c₂, ⟨task, List.mem_flatMap.mpr ⟨x, hx, ?_⟩, hc₂⟩, hcall₂.trans hcall₁,
    htaken₂.trans htaken₁⟩
  rw [hl]
  simp [Desk.executed?, Node.desk_running _ hp]

/-- Addresses are registered for relay by calls whose command the loop has run. -/
theorem Run.relay_asked {config : NodeConfig} {n m : Node L}
    {π : List (Transition.Trans (Node L) (Label Req Resp))} (hs : Started L config n)
    (h : Run L n π m) {p : PeerId} {addrs : List Multiaddr} {now : Bool}
    (hmem : .submit p addrs now ∈ relayEvents π) :
    ∃ c roles, HasRun π m c ∧ c.call = .addInfrastructurePeer p addrs roles ∧
      roles.relayServer = true ∧ config.enableRelayClient = true := by
  obtain ⟨x, hx, hevent⟩ := List.mem_filterMap.mp hmem
  obtain ⟨ρ, _, _, hbefore, _, _⟩ := h.split hx
  have hr : Reachable L config x.pre := ⟨n, ρ, hs, hbefore⟩
  unfold Node.relayEvent? at hevent
  split at hevent
  · rename_i hl
    split at hevent
    · rename_i command handle hp
      split at hevent
      · rename_i hrole
        obtain ⟨rfl, rfl, _⟩ := Deferred.Event.submit.inj (Option.some.inj hevent)
        obtain ⟨⟨call, taken, phase⟩, hc, hcommand⟩ := hr.made
          ⟨.addInfrastructurePeer command, handle⟩ (Node.running_unrun _ hp)
        have hcall : call =
            .addInfrastructurePeer command.peerId command.addrs command.roles := by
          cases call <;> simp [Call.command] at hcommand
          rw [← hcommand]
          rfl
        obtain ⟨c, hrun, hsame, _⟩ := h.hasRun hx hl hp hc
        exact ⟨c, command.roles, hrun, hsame.trans hcall, hrole.1,
          hr.configured.relayClient ▸ hrole.2⟩
      · cases hevent
    · cases hevent
  · split at hevent <;> cases hevent
  · cases hevent

theorem Run.listen_asked {config : NodeConfig} {n m : Node L}
    {π : List (Transition.Trans (Node L) (Label Req Resp))} (hs : Started L config n)
    (h : Run L n π m) {addr : Multiaddr} {accepted : Bool}
    (hc : .listenOn addr accepted ∈ m.loop.swarm.calls) :
    Asked config π m (.listenOn addr accepted) := by
  have hrequest : addr ∈ m.loop.swarm.listenRequests :=
    List.mem_filterMap.mpr ⟨_, hc, rfl⟩
  rw [(Run.listenRequests_perm hs h).mem_iff, servedCircuits] at hrequest
  rcases List.mem_append.mp hrequest with hlisten | hcircuit
  · exact .inl (.inl hlisten)
  · obtain ⟨⟨p, base⟩, hserved, rfl⟩ := List.mem_map.mp hcircuit
    obtain ⟨addrs, now, hsubmit, hbase⟩ := Deferred.mem_served hserved
    rcases List.mem_append.mp hsubmit with hsubmit | hsubmit
    · -- The relay is a bootstrap peer.
      unfold NodeConfig.relayEvents at hsubmit
      split at hsubmit
      · rename_i henabled
        obtain ⟨entry, hentry, heq⟩ := List.mem_map.mp hsubmit
        obtain ⟨hp, haddrs, _⟩ := Deferred.Event.submit.inj heq
        rw [← haddrs, List.mem_singleton] at hbase
        exact .inl (.inr ⟨henabled, entry, hentry, by rw [hp, ← hbase]⟩)
      · cases hsubmit
    · obtain ⟨c, roles, hrun, hcall, hrole, henabled⟩ := h.relay_asked hs hsubmit
      refine .inr (.inl ⟨c, hrun, ?_⟩)
      rw [hcall]
      exact ⟨hrole, henabled, (p, base), List.mem_map_of_mem hbase, rfl⟩

/-- Every call that the node has made on libp2p was asked for by its configuration, by a call
of a client whose command the loop has run, or by an event of the swarm. -/
theorem calls_asked {config : NodeConfig} {n m : Node L}
    {π : List (Transition.Trans (Node L) (Label Req Resp))} (hs : Started L config n)
    (h : Run L n π m) : ∀ call ∈ m.loop.swarm.calls, Asked config π m call := by
  intro call hc
  have hlisten : (∃ addr accepted, call = .listenOn addr accepted) → Asked config π m call := by
    rintro ⟨addr, accepted, rfl⟩
    exact Run.listen_asked hs h hc
  by_cases hstart : call ∈ n.loop.swarm.calls
  · rcases hs.asked hstart with hlist | hasks
    · exact hlisten hlist
    · exact .inl hasks
  · obtain ⟨x, hx, hstep, hbefore, hafter⟩ := h.happens
      (P := fun n : Node L => call ∈ n.loop.swarm.calls) hstart hc
    obtain ⟨ρ, _, _, hpath, _, _⟩ := h.split hx
    have hr : Reachable L config x.pre := ⟨n, ρ, hs, hpath⟩
    rcases (hstep.asked hr hafter).resolve_left hbefore with
      hlist | ⟨hl, task, c, hp, hcall, hasks⟩ | ⟨event, hl, hasks⟩
    · exact hlisten hlist
    · obtain ⟨c', hrun, hsame, htaken⟩ := h.hasRun hx hl hp hcall
      exact .inr (.inl ⟨c', hrun, by rwa [hsame, htaken]⟩)
    · refine .inr (.inr ⟨event, List.mem_filterMap.mpr ⟨x, hx, ?_⟩, hasks⟩)
      rw [hl]
      rfl

open Loopback in
/-- The bootstrap entry asks for the first dial, the client for the second. -/
theorem calls_asked_dial :
    dialRefused.loop.swarm.calls =
        [.kadAddAddress peer [], .addPeerAddress peer [], .dial peer true, .dial peer false] ∧
      ∀ call ∈ dialRefused.loop.swarm.calls,
        Asked (config [(peer, [])]) dialSteps dialRefused call :=
  ⟨rfl, calls_asked (started _) dialSteps_run⟩

end SwarmP2p
