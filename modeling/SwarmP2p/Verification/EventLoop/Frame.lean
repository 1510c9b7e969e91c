import SwarmP2p.Model.EventLoop
import SwarmP2p.Verification.Swarm.Uses

/-! # What the event loop leaves alone

Apart from the command chain, the code of the loop neither touches the commands nor
hands out an id or a response, and only an inbound request touches the pending map. -/

namespace SwarmP2p

variable {Req Resp : Type} {L : Libp2p Req Resp}

/-- The event carries an inbound request. -/
def SwarmEvent.isRequest : SwarmEvent Req Resp → Bool
  | .behaviour (.reqResp (.request _ _ _)) => true
  | _ => false

/-- The calls that the loop may make on an event, as far as they tell one event from
another. -/
def SwarmEvent.MayCall (protocolVersion : String) (event : SwarmEvent Req Resp) :
    SwarmCall Resp → Prop
  | .addExternalAddress addr => event = .newListenAddr addr
  | .kadAddAddress peerId _ => ∃ info, event = .behaviour (.identifyReceived peerId info) ∧
      info.protocolVersion = protocolVersion
  | _ => True

namespace EventLoop

/-- What every stretch of the loop's own code keeps. -/
structure Kept (a b : EventLoop L) : Prop where
  activeCommands : b.activeCommands = a.activeCommands
  commandRx : b.commandRx = a.commandRx
  pendingChannels : b.pendingChannels = a.pendingChannels
  pendingIdCounter : b.pendingIdCounter = a.pendingIdCounter
  swarm : Swarm.Kept a.swarm b.swarm

/-- What no code of the loop changes after the start. -/
structure SameConfig (a b : EventLoop L) : Prop where
  protocolVersion : b.protocolVersion = a.protocolVersion
  enableRelayClient : b.enableRelayClient = a.enableRelayClient
  lanHelper : b.lanHelper = a.lanHelper

theorem SameConfig.trans {a b c : EventLoop L} (h : SameConfig a b) (k : SameConfig b c) :
    SameConfig a c :=
  ⟨k.protocolVersion.trans h.protocolVersion, k.enableRelayClient.trans h.enableRelayClient,
    k.lanHelper.trans h.lanHelper⟩

/-- A stretch of the loop's own code that makes only calls that `P` allows. It advertises
an address and sends a status only where it may register an address. -/
structure Uses (P : SwarmCall Resp → Prop) (a b : EventLoop L) : Prop where
  activeCommands : b.activeCommands = a.activeCommands
  commandRx : b.commandRx = a.commandRx
  pendingChannels : b.pendingChannels = a.pendingChannels
  pendingIdCounter : b.pendingIdCounter = a.pendingIdCounter
  same : SameConfig a b
  advertised : (∀ addr, ¬P (.addExternalAddress addr)) →
    b.advertisedLanAddrs = a.advertisedLanAddrs
  eventTx : (∀ addr, ¬P (.addExternalAddress addr)) → b.eventTx = a.eventTx
  swarm : Swarm.Uses P a.swarm b.swarm

namespace Uses

variable {P Q : SwarmCall Resp → Prop} {a b c : EventLoop L}

/-- A change of the swarm alone. -/
theorem of_swarm (a : EventLoop L) {s : Swarm L} (h : Swarm.Uses P a.swarm s) :
    Uses P a { a with swarm := s } :=
  ⟨rfl, rfl, rfl, rfl, ⟨rfl, rfl, rfl⟩, fun _ => rfl, fun _ => rfl, h⟩

theorem refl (a : EventLoop L) : Uses P a a := of_swarm a .refl

theorem trans (h : Uses P a b) (k : Uses P b c) : Uses P a c :=
  ⟨k.activeCommands.trans h.activeCommands, k.commandRx.trans h.commandRx,
    k.pendingChannels.trans h.pendingChannels, k.pendingIdCounter.trans h.pendingIdCounter,
    h.same.trans k.same, fun hp => (k.advertised hp).trans (h.advertised hp),
    fun hp => (k.eventTx hp).trans (h.eventTx hp), h.swarm.trans k.swarm⟩

theorem mono (h : Uses Q a b) (hq : ∀ call, Q call → P call) : Uses P a b :=
  ⟨h.activeCommands, h.commandRx, h.pendingChannels, h.pendingIdCounter, h.same,
    fun hp => h.advertised fun addr hcall => hp addr (hq _ hcall),
    fun hp => h.eventTx fun addr hcall => hp addr (hq _ hcall), h.swarm.mono hq⟩

theorem foldl {α : Type} {f : EventLoop L → α → EventLoop L} (l : List α)
    (h : ∀ s, ∀ x ∈ l, Uses P s (f s x)) (s : EventLoop L) : Uses P s (l.foldl f s) := by
  induction l generalizing s with
  | nil => exact refl s
  | cons x l ih =>
      exact (h s x (List.mem_cons_self ..)).trans
        (ih (fun s x hx => h s x (List.mem_cons_of_mem _ hx)) (f s x))

theorem kept (h : Uses SwarmCall.Housekeeping a b) : Kept a b :=
  ⟨h.activeCommands, h.commandRx, h.pendingChannels, h.pendingIdCounter, .of_uses h.swarm⟩

end Uses

variable {P : SwarmCall Resp → Prop}

theorem extendBootstrapPeers_uses (self : EventLoop L) (peerId : PeerId)
    (addrs : List Multiaddr) : Uses P self (self.extendBootstrapPeers peerId addrs) :=
  ⟨rfl, rfl, rfl, rfl, ⟨rfl, rfl, rfl⟩, fun _ => rfl, fun _ => rfl, .refl⟩

theorem startListen_uses {self loop : EventLoop L} {addrs : List Multiaddr}
    (h : self.startListen addrs = .ok loop)
    (hlisten : ∀ addr accepted, P (.listenOn addr accepted)) : Uses P self loop := by
  induction addrs generalizing self with
  | nil =>
      obtain rfl := Except.ok.inj h
      exact .refl _
  | cons addr addrs ih =>
      have hcall := (Swarm.Uses.refl (s := self.swarm)).listenOn addr (hlisten addr)
      unfold startListen at h
      split at h
      · exact (Uses.of_swarm self (hcall.of_fst (by assumption))).trans (ih h)
      · cases h

theorem connectBootstrapPeer_uses (self : EventLoop L) (entry : PeerId × Multiaddr)
    (hkad : P (.kadAddAddress entry.1 entry.2)) (hadd : P (.addPeerAddress entry.1 entry.2))
    (hdial : ∀ accepted, P (.dial entry.1 accepted)) :
    Uses P self (self.connectBootstrapPeer entry) := by
  have hs := Uses.of_swarm self
    (((Swarm.Uses.refl.kadAddAddress _ _ hkad).addPeerAddress _ _ hadd).dial _ hdial)
  simp only [connectBootstrapPeer]
  split
  · exact hs.trans (extendBootstrapPeers_uses _ _ _)
  · exact hs

theorem connectBootstrapPeers_uses (self : EventLoop L) (peers : List (PeerId × Multiaddr))
    (hkad : ∀ entry ∈ peers, P (.kadAddAddress entry.1 entry.2))
    (hadd : ∀ entry ∈ peers, P (.addPeerAddress entry.1 entry.2))
    (hdial : ∀ entry ∈ peers, ∀ accepted, P (.dial entry.1 accepted)) :
    Uses P self (self.connectBootstrapPeers peers) :=
  .foldl peers (fun loop entry he =>
    loop.connectBootstrapPeer_uses entry (hkad entry he) (hadd entry he) (hdial entry he)) self

theorem requestRelayReservations_uses (self : EventLoop L) (peerId : PeerId)
    (addrs : List Multiaddr) (hlisten : ∀ addr accepted, P (.listenOn addr accepted)) :
    Uses P self (self.requestRelayReservations peerId addrs) :=
  .of_swarm self
    (.foldl addrs (fun _ _ _ => Swarm.Uses.refl.listenOn _ (hlisten _)) self.swarm)

theorem scheduleRelayReservations_uses (self : EventLoop L)
    (request : Option (PeerId × List Multiaddr))
    (hlisten : ∀ addr accepted, P (.listenOn addr accepted)) :
    Uses P self (self.scheduleRelayReservations request) := by
  cases request with
  | none => exact .refl self
  | some request =>
      simp only [scheduleRelayReservations]
      split
      · exact requestRelayReservations_uses self _ _ hlisten
      · exact extendBootstrapPeers_uses self _ _

theorem trySendStatus_eq (self : EventLoop L) (event : NodeEvent Req) :
    ∃ eventTx, self.trySendStatus event = { self with eventTx := eventTx } := by
  unfold trySendStatus
  split
  · exact ⟨_, rfl⟩
  · exact ⟨self.eventTx, rfl⟩

theorem advertise_uses (self : EventLoop L) (addr : Multiaddr)
    (hexternal : P (.addExternalAddress addr)) : Uses P self (self.advertise addr) := by
  unfold advertise
  split
  · exact ⟨rfl, rfl, rfl, rfl, ⟨rfl, rfl, rfl⟩, fun hp => absurd hexternal (hp addr),
      fun _ => rfl, Swarm.Uses.refl.addExternalAddress _ hexternal⟩
  · exact .refl self

theorem maybeAnnounceLanHelperAddr_uses (self : EventLoop L) (addr : Multiaddr)
    (hexternal : P (.addExternalAddress addr)) :
    Uses P self (self.maybeAnnounceLanHelperAddr addr) := by
  have hadvertise := self.advertise_uses addr hexternal
  unfold maybeAnnounceLanHelperAddr
  split
  · exact .refl self
  · split
    · obtain ⟨eventTx, heq⟩ := (self.advertise addr).trySendStatus_eq
        (.lanHelperStatusChanged (self.advertise addr).swarm.relayServer
          (self.advertise addr).advertisedLanAddrs)
      dsimp only
      rw [heq]
      exact hadvertise.trans ⟨rfl, rfl, rfl, rfl, ⟨rfl, rfl, rfl⟩, fun _ => rfl,
        fun hp => absurd hexternal (hp addr), .refl⟩
    · exact .refl self

theorem dialDiscovered_uses (swarm : Swarm L) (peerId : PeerId)
    (hdial : ∀ accepted, P (.dial peerId accepted)) :
    Swarm.Uses P swarm (dialDiscovered swarm peerId) := by
  unfold dialDiscovered
  split
  · exact .refl
  · exact Swarm.Uses.refl.dial _ hdial

theorem handleDiscovered_uses (self : EventLoop L) (order : List PeerId)
    (peers : List (PeerId × Multiaddr))
    (hadd : ∀ entry ∈ peers, P (.addPeerAddress entry.1 entry.2))
    (hdial : ∀ p ∈ order, ∀ accepted, P (.dial p accepted)) :
    Uses P self (self.handleDiscovered order peers) := by
  have hadded : Swarm.Uses P self.swarm
      (peers.foldl (fun s entry => s.addPeerAddress entry.1 entry.2) self.swarm) :=
    .foldl peers (fun _ entry he => Swarm.Uses.refl.addPeerAddress _ _ (hadd entry he)) self.swarm
  exact .of_swarm self
    (hadded.trans (.foldl order (fun s p hp => dialDiscovered_uses s p (hdial p hp)) _))

theorem registerListenAddr_uses (peerId : PeerId) (swarm : Swarm L) (addr : Multiaddr)
    (hkad : P (.kadAddAddress peerId addr)) (hadd : P (.addPeerAddress peerId addr)) :
    Swarm.Uses P swarm (registerListenAddr peerId swarm addr) :=
  (Swarm.Uses.refl.kadAddAddress _ _ hkad).addPeerAddress _ _ hadd

theorem handleIdentify_uses (self : EventLoop L) (peerId : PeerId) (info : IdentifyInfo)
    (hkad : info.protocolVersion = self.protocolVersion →
      ∀ addr ∈ info.listenAddrs, P (.kadAddAddress peerId addr))
    (hadd : info.protocolVersion = self.protocolVersion →
      ∀ addr ∈ info.listenAddrs, P (.addPeerAddress peerId addr))
    (hlisten : ∀ addr accepted, P (.listenOn addr accepted)) :
    Uses P self (self.handleIdentify peerId info) := by
  simp only [handleIdentify]
  split
  · rename_i hversion
    have hs := Uses.of_swarm self (.foldl info.listenAddrs (fun s addr ha =>
      registerListenAddr_uses peerId s addr (hkad hversion addr ha) (hadd hversion addr ha))
      self.swarm)
    split
    · exact hs
    · refine hs.trans (.trans ?_ (requestRelayReservations_uses _ peerId _ hlisten))
      exact ⟨rfl, rfl, rfl, rfl, ⟨rfl, rfl, rfl⟩, fun _ => rfl, fun _ => rfl, .refl⟩
  · exact .refl self

theorem convertBehaviourEvent_uses (self : EventLoop L) (now : Nat) (order : List PeerId)
    (event : CoreBehaviourEvent Req Resp)
    (hr : (SwarmEvent.behaviour event).isRequest = false) :
    Uses (fun call => call.Housekeeping ∧
        (SwarmEvent.behaviour event).MayCall self.protocolVersion call)
      self (self.convertBehaviourEvent now order event).1 := by
  unfold convertBehaviourEvent
  split
  all_goals try exact .refl self
  · cases hr
  · exact handleDiscovered_uses self order _ (fun _ _ => ⟨⟨rfl, rfl⟩, trivial⟩)
      fun _ _ _ => ⟨⟨rfl, rfl⟩, trivial⟩
  · exact handleIdentify_uses self _ _ (fun hv _ _ => ⟨⟨rfl, rfl⟩, _, rfl, hv⟩)
      (fun _ _ _ => ⟨⟨rfl, rfl⟩, trivial⟩) fun _ _ => ⟨⟨rfl, rfl⟩, trivial⟩
  · exact .of_swarm self (.foldl _ (fun _ _ _ =>
      Swarm.Uses.refl.addPeerAddress _ _ ⟨⟨rfl, rfl⟩, trivial⟩) self.swarm)

/-- Any event but an inbound request. -/
theorem convertToNodeEvent_uses (self : EventLoop L) (now : Nat) (order : List PeerId)
    (event : SwarmEvent Req Resp) (hr : event.isRequest = false) :
    Uses (fun call => call.Housekeeping ∧ event.MayCall self.protocolVersion call) self
      (self.convertToNodeEvent now order event).1 := by
  unfold convertToNodeEvent
  split
  · exact convertBehaviourEvent_uses self now order _ hr
  · exact maybeAnnounceLanHelperAddr_uses self _ ⟨⟨rfl, rfl⟩, rfl⟩
  · exact .refl self
  · exact .refl self
  · exact .refl self

theorem convertToNodeEvent_kept (self : EventLoop L) (now : Nat) (order : List PeerId)
    (event : SwarmEvent Req Resp) (hr : event.isRequest = false) :
    Kept self (self.convertToNodeEvent now order event).1 :=
  ((self.convertToNodeEvent_uses now order event hr).mono fun _ h => h.1).kept

/-- An inbound request: its channel is stored under the next id and announced. -/
theorem convertToNodeEvent_request (self : EventLoop L) (now : Nat) (order : List PeerId)
    (peer : PeerId) (request : Req) (channel : ResponseChannel) :
    self.convertToNodeEvent now order (.behaviour (.reqResp (.request peer request channel))) =
      ({ self with
          pendingIdCounter := (self.pendingIdCounter + 1) % wordSize
          pendingChannels :=
            self.pendingChannels.insert now self.pendingIdCounter channel },
        some (.inboundRequest peer self.pendingIdCounter request)) :=
  rfl

theorem isRequest_eq_true {event : SwarmEvent Req Resp} (h : event.isRequest = true) :
    ∃ peer request channel, event = .behaviour (.reqResp (.request peer request channel)) := by
  unfold SwarmEvent.isRequest at h
  split at h
  · exact ⟨_, _, _, rfl⟩
  · cases h

/-- The commands, the command queue and the swarm's log of ids and responses, for any
event. -/
theorem convertToNodeEvent_commands (self : EventLoop L) (now : Nat) (order : List PeerId)
    (event : SwarmEvent Req Resp) :
    (self.convertToNodeEvent now order event).1.activeCommands = self.activeCommands ∧
      (self.convertToNodeEvent now order event).1.commandRx = self.commandRx ∧
      Swarm.Kept self.swarm (self.convertToNodeEvent now order event).1.swarm := by
  cases hr : event.isRequest with
  | false =>
      have h := convertToNodeEvent_kept self now order event hr
      exact ⟨h.activeCommands, h.commandRx, h.swarm⟩
  | true =>
      obtain ⟨peer, request, channel, rfl⟩ := isRequest_eq_true hr
      exact ⟨rfl, rfl, .refl _⟩

/-- An event that carries an id is reported to nobody. -/
theorem convertToNodeEvent_of_id (self : EventLoop L) (now : Nat) (order : List PeerId)
    {event : SwarmEvent Req Resp} {id : EventId} (h : event.id? = some id) :
    self.convertToNodeEvent now order event = (self, none) := by
  unfold SwarmEvent.id? at h
  split at h
  · rfl
  · rfl
  · rfl
  · cases h

end EventLoop

end SwarmP2p
