import SwarmP2p.Verification.Call.Desk
import SwarmP2p.Verification.Swarm.Uses

/-! # Which calls a step makes

Every step of the node, with the calls on the swarm that it may make and the
configuration that it leaves alone. -/

namespace SwarmP2p

variable {Req Resp : Type} {L : Libp2p Req Resp}

/-- An Identify of the peer with the given protocol version. -/
def Label.identifies (version : String) (p : PeerId) : Label Req Resp → Bool
  | .swarmEvent (.behaviour (.identifyReceived q info)) =>
      decide (q = p) && info.protocolVersion == version
  | _ => false

theorem Label.eq_of_identifies {l : Label Req Resp} {version : String} {p : PeerId}
    (h : l.identifies version p = true) :
    ∃ info, l = .swarmEvent (.behaviour (.identifyReceived p info)) ∧
      info.protocolVersion = version := by
  unfold identifies at h
  split at h
  · obtain ⟨hp, hv⟩ := Bool.and_eq_true_iff.mp h
    obtain rfl := of_decide_eq_true hp
    exact ⟨_, rfl, eq_of_beq hv⟩
  · cases h

/-! ### The start -/

/-- The loop before its first call, with an empty log. -/
structure EventLoop.New (config : NodeConfig) (loop : EventLoop L) : Prop where
  state : L.Initial loop.swarm.state
  relayClient : loop.swarm.relayClient = config.enableRelayClient
  calls : loop.swarm.calls = []
  protocolVersion : loop.protocolVersion = config.protocolVersion
  advertisedLanAddrs : loop.advertisedLanAddrs = []

/-- A node starts with calls on a new swarm. -/
theorem Started.uses {P : SwarmCall Resp → Prop} {config : NodeConfig} {n : Node L}
    (h : Started L config n) (hlisten : ∀ addr accepted, P (.listenOn addr accepted))
    (hkad : ∀ entry ∈ config.bootstrapPeers, P (.kadAddAddress entry.1 entry.2))
    (hadd : ∀ entry ∈ config.bootstrapPeers, P (.addPeerAddress entry.1 entry.2))
    (hdial : ∀ entry ∈ config.bootstrapPeers, ∀ accepted, P (.dial entry.1 accepted)) :
    ∃ loop : EventLoop L, loop.New config ∧ loop.Uses P n.loop := by
  obtain ⟨state, hstate, hs⟩ := h
  simp only [start] at hs
  split at hs
  · cases hs
  · rename_i loop heq
    obtain rfl := Except.ok.inj hs
    have hlistened := EventLoop.startListen_uses heq hlisten
    have hconnected := loop.connectBootstrapPeers_uses config.bootstrapPeers hkad hadd hdial
    exact ⟨_, ⟨hstate, rfl, rfl, rfl, rfl⟩, hlistened.trans hconnected⟩

/-! ### Steps -/

/-- The calls that a step may make. -/
def Node.MayCall (n : Node L) : Label Req Resp → SwarmCall Resp → Prop
  | .handleCommand, call => (∃ addr accepted, call = .listenOn addr accepted) ∨
      ∃ task, n.phase = .running task ∧ task.command.MayCall call
  | .swarmEvent event, call => event.MayCall n.loop.protocolVersion call
  | _, _ => False

/-- The swarm is polled, or not, and then called. -/
structure SwarmMoved (n m : Node L) (l : Label Req Resp) (state : L.State) : Prop where
  polled : (∀ event, l ≠ .swarmEvent event) ∧ state = n.loop.swarm.state ∨
    ∃ event, l = .swarmEvent event ∧ L.next n.loop.swarm.state event state
  uses : Swarm.Uses (n.MayCall l) { n.loop.swarm with state := state } m.loop.swarm
  same : n.loop.SameConfig m.loop
  advertised : (∀ addr, l ≠ .swarmEvent (.newListenAddr addr)) →
    m.loop.advertisedLanAddrs = n.loop.advertisedLanAddrs

theorem SwarmMoved.of_eq {n m : Node L} {l : Label Req Resp}
    (hl : ∀ event, l ≠ .swarmEvent event) (hswarm : m.loop.swarm = n.loop.swarm)
    (hsame : n.loop.SameConfig m.loop)
    (hlan : m.loop.advertisedLanAddrs = n.loop.advertisedLanAddrs) :
    SwarmMoved n m l n.loop.swarm.state :=
  ⟨.inl ⟨hl, rfl⟩, hswarm ▸ .refl, hsame, fun _ => hlan⟩

theorem Node.handleCommand_moved (n : Node L) {task : Task Req Resp}
    (hp : n.phase = .running task) :
    SwarmMoved n (n.handleCommand task) .handleCommand n.loop.swarm.state := by
  obtain ⟨loop, huses, heq⟩ := n.handleCommand_loop task
  have hrun := (task.command.run_uses n.loop.swarm).mono
    (P := n.MayCall .handleCommand) fun call hcall => .inr ⟨task, hp, hcall⟩
  have hrequests := huses.swarm.mono (P := n.MayCall .handleCommand) fun call hcall => .inl hcall
  refine ⟨.inl ⟨by simp, rfl⟩, ?_, ?_, fun _ => ?_⟩
  · rw [heq]
    exact hrun.trans hrequests
  · rw [heq]
    exact ⟨huses.same.protocolVersion, huses.same.enableRelayClient, huses.same.lanHelper⟩
  · rw [heq]
    refine huses.advertised ?_
    rintro addr ⟨_, _, he⟩
    cases he

theorem Node.handleSwarmEvent_moved (n : Node L) {state : L.State} (order : List PeerId)
    {event : SwarmEvent Req Resp} (h : L.next n.loop.swarm.state event state) :
    SwarmMoved n ((n.withSwarmState state).handleSwarmEvent order event) (.swarmEvent event)
      state := by
  rcases (n.withSwarmState state).handleSwarmEvent_cases order event with ⟨_, heq⟩ | ⟨_, heq⟩
  · rw [heq]
    exact ⟨.inr ⟨event, rfl, h⟩, .refl, ⟨rfl, rfl, rfl⟩, fun _ => rfl⟩
  · rw [heq]
    cases hr : event.isRequest with
    | true =>
        obtain ⟨peer, request, channel, rfl⟩ := EventLoop.isRequest_eq_true hr
        exact ⟨.inr ⟨_, rfl, h⟩, .refl, ⟨rfl, rfl, rfl⟩, fun _ => rfl⟩
    | false =>
        have huses := EventLoop.convertToNodeEvent_uses
          { (n.withSwarmState state).loop with
            activeCommands :=
              (Chain.dispatch (Task.onEvent L) n.loop.activeCommands event).commands }
          n.now order event hr
        refine ⟨.inr ⟨event, rfl, h⟩, huses.swarm.mono fun _ hcall => hcall.2,
          ⟨huses.same.protocolVersion, huses.same.enableRelayClient, huses.same.lanHelper⟩,
          fun hl => huses.advertised fun addr hcall => hl addr ?_⟩
        exact congrArg _ (show event = .newListenAddr addr from hcall.2)

theorem Node.pollSend_swarm (n : Node L) (event : NodeEvent Req) :
    (n.pollSend event).loop.swarm = n.loop.swarm ∧
      (n.pollSend event).loop.advertisedLanAddrs = n.loop.advertisedLanAddrs ∧
      n.loop.SameConfig (n.pollSend event).loop := by
  unfold pollSend
  split <;> exact ⟨rfl, rfl, ⟨rfl, rfl, rfl⟩⟩

theorem Node.firstPoll_swarm (n : Node L) (id : HandleId) (c : ClientCall Req Resp)
    (command : Command Req Resp) (waker : Waker) :
    (n.firstPoll id c command waker).loop.swarm = n.loop.swarm ∧
      (n.firstPoll id c command waker).loop.advertisedLanAddrs = n.loop.advertisedLanAddrs ∧
      n.loop.SameConfig (n.firstPoll id c command waker).loop := by
  unfold firstPoll
  split <;> exact ⟨rfl, rfl, ⟨rfl, rfl, rfl⟩⟩

theorem Step.moved {n m : Node L} {l : Label Req Resp} (h : Step n l m) :
    ∃ state, SwarmMoved n m l state := by
  cases h with
  | @firstPoll id c command waker hc hp =>
      obtain ⟨hswarm, hlan, hsame⟩ := n.firstPoll_swarm id c command waker
      exact ⟨_, .of_eq (by simp) hswarm hsame hlan⟩
  | handleCommand hp => exact ⟨_, n.handleCommand_moved hp⟩
  | swarmEvent hp h ho => exact ⟨_, n.handleSwarmEvent_moved _ h⟩
  | beginSend hp =>
      obtain ⟨hswarm, hlan, hsame⟩ := n.pollSend_swarm _
      exact ⟨_, .of_eq (by simp) hswarm hsame hlan⟩
  | resumeSend hp h =>
      obtain ⟨hswarm, hlan, hsame⟩ := n.pollSend_swarm _
      exact ⟨_, .of_eq (by simp) hswarm hsame hlan⟩
  | _ => exact ⟨_, .of_eq (by simp) rfl ⟨rfl, rfl, rfl⟩ rfl⟩

/-- The loop with the swarm polled, after the commands have seen the event. -/
def Node.offered (n : Node L) (state : L.State) (commands : List (Task Req Resp)) :
    EventLoop L :=
  { n.loop with
    swarm := { n.loop.swarm with state := state }
    activeCommands := commands }

/-- An event that belongs to no command reaches the loop. -/
theorem Step.converted {n m : Node L} {event : SwarmEvent Req Resp}
    (h : Step n (.swarmEvent event) m) (hid : event.id? = none) :
    ∃ state commands order, L.next n.loop.swarm.state event state ∧ n.phase = .selecting ∧
      m.loop = ((n.offered state commands).convertToNodeEvent n.now order event).1 := by
  cases h with
  | @swarmEvent event state order hp h ho =>
      refine ⟨state,
        (Chain.dispatch (Task.onEvent L) n.loop.activeCommands event).commands, order, h, hp, ?_⟩
      rcases (n.withSwarmState state).handleSwarmEvent_cases order event with ⟨hrem, _⟩ | ⟨_, heq⟩
      · rw [dispatch_remaining _ hid] at hrem
        cases hrem
      · rw [heq]
        rfl

end SwarmP2p
