import SwarmP2p.Verification.Call.Invariant

/-! # Runs of the node

The state in which `start` leaves a node, and what every run keeps: the invariant of
the desk, and the tie between the loop, its receiver and the senders. -/

namespace SwarmP2p

variable {Req Resp : Type} {L : Libp2p Req Resp}

/-! ### The started node -/

/-- A node that has done nothing but start. -/
structure Fresh (config : NodeConfig) (n : Node L) : Prop where
  desk_eq : n.desk = ⟨fun _ => none, fun _ => {}, [], none, [], [], []⟩
  phase_eq : n.phase = .top
  commandRx_eq : n.loop.commandRx = .new _
  pendingChannels_eq : n.loop.pendingChannels = .new config.reqRespTimeout
  pendingIdCounter_eq : n.loop.pendingIdCounter = 0
  frontend_eq : n.frontend = .receiving
  dataChannels_eq : n.dataChannels = .new config.dataChannelLimits

theorem Started.fresh {config : NodeConfig} {n : Node L} (h : Started L config n) :
    Fresh config n := by
  obtain ⟨state, _, hs⟩ := h
  simp only [start] at hs
  split at hs
  · cases hs
  · rename_i loop heq
    obtain rfl := Except.ok.inj hs
    have hlistened := EventLoop.startListen_uses (P := SwarmCall.Housekeeping) heq
      fun _ _ => ⟨rfl, rfl⟩
    have hconnected := loop.connectBootstrapPeers_uses (P := SwarmCall.Housekeeping)
      config.bootstrapPeers (fun _ _ => ⟨rfl, rfl⟩) (fun _ _ => ⟨rfl, rfl⟩)
      fun _ _ _ => ⟨rfl, rfl⟩
    have hk := (hlistened.trans hconnected).kept
    refine ⟨?_, rfl, hk.commandRx, hk.pendingChannels, hk.pendingIdCounter, rfl, rfl⟩
    exact Desk.ext rfl rfl (congrArg Channel.queue hk.commandRx) rfl hk.activeCommands
      hk.swarm.ids_eq hk.swarm.responses_eq

/-- A node starts by listening, and then connects to its bootstrap peers. -/
theorem Started.built {config : NodeConfig} {n : Node L} (h : Started L config n) :
    ∃ first loop : EventLoop L, first.startListen config.listenAddrs = .ok loop ∧
      n.loop = loop.connectBootstrapPeers config.bootstrapPeers ∧
      first.swarm.calls = [] ∧ first.eventTx = .new _ ∧
      first.protocolVersion = config.protocolVersion ∧
      first.swarm.relayClient = config.enableRelayClient ∧
      ∀ c, first.lanHelper = some c → config.infrastructureMode = .lanHelper c := by
  obtain ⟨state, _, hs⟩ := h
  simp only [start] at hs
  split at hs
  · cases hs
  · rename_i loop heq
    obtain rfl := Except.ok.inj hs
    refine ⟨_, loop, heq, rfl, rfl, rfl, rfl, rfl, fun c hc => ?_⟩
    cases hmode : config.infrastructureMode with
    | off => simp [hmode] at hc
    | lanHelper c' => simpa [hmode] using hc

/-! ### Turns of the loop -/

/-- A turn in which the swarm returns an event, and is then in `state`. -/
def Node.turn (n : Node L) (state : L.State) (event : SwarmEvent Req Resp) : Node L :=
  (n.sweep.withSwarmState state).handleSwarmEvent [] event

def Node.turnSteps (n : Node L) (state : L.State) (event : SwarmEvent Req Resp) :
    List (Transition.Trans (Node L) (Label Req Resp)) :=
  [⟨n, .sweep, n.sweep⟩, ⟨n.sweep, .swarmEvent event, n.turn state event⟩]

theorem Node.turn_run (n : Node L) (state : L.State) (event : SwarmEvent Req Resp)
    (hp : n.phase = .top) (h : L.next n.loop.swarm.state event state)
    (ho : event.discoveredPeers = []) : Run L n (n.turnSteps state event) (n.turn state event) := by
  refine (Transition.Path.single (.sweep hp)).snoc (.swarmEvent rfl h ⟨List.nodup_nil, fun p => ?_⟩)
  rw [ho]

/-- A turn in which the loop reports the event. -/
def Node.reported (n : Node L) (state : L.State) (event : SwarmEvent Req Resp)
    (report : NodeEvent Req) : Node L :=
  (n.turn state event).pollSend report

theorem Node.reported_run (n : Node L) (state : L.State) (event : SwarmEvent Req Resp)
    (report : NodeEvent Req) (hp : n.phase = .top) (h : L.next n.loop.swarm.state event state)
    (ho : event.discoveredPeers = []) (hr : (n.turn state event).phase = .sending report) :
    Run L n (n.turnSteps state event ++
      [⟨n.turn state event, .beginSend, n.reported state event report⟩])
      (n.reported state event report) :=
  (n.turn_run state event hp h ho).snoc (.beginSend hr)

/-! ### Invariants of all runs -/

theorem Desk.Inv.of_empty (ids : List EventId) (responses : List (ResponseChannel × Resp)) :
    Inv (⟨fun _ => none, fun _ => {}, [], none, [], ids, responses⟩ : Desk Req Resp) := by
  constructor <;> simp [Desk.tasks, Desk.unrun]

theorem Fresh.inv {config : NodeConfig} {n : Node L} (h : Fresh config n) : n.desk.Inv := by
  rw [h.desk_eq]
  exact .of_empty [] []

theorem Reachable.inv {config : NodeConfig} {n : Node L} (h : Reachable L config n) :
    n.desk.Inv :=
  Transition.Reachable.invariant (I := fun n => n.desk.Inv) h (fun _ hs => hs.fresh.inv)
    fun _ _ _ hi hs => hi.step hs.desk

/-- The receiver of commands lives as long as the loop, and the loop ends when all
senders are gone, for good. -/
structure Wired (n : Node L) : Prop where
  rxAlive_iff : n.loop.commandRx.rxAlive = true ↔ n.phase ≠ .terminated
  noSenders : n.phase = .terminated → n.NoSenders

theorem Fresh.wired {config : NodeConfig} {n : Node L} (h : Fresh config n) : Wired n := by
  constructor
  · simp [h.commandRx_eq, h.phase_eq]
  · simp [h.phase_eq]

/-- A step that keeps the senders and the command queue and does not end the loop. -/
theorem Wired.of_eq {n m : Node L} (hw : Wired n)
    (hrx : m.loop.commandRx.rxAlive = n.loop.commandRx.rxAlive)
    (hphase : m.phase = .terminated ↔ n.phase = .terminated)
    (hs : n.phase = .terminated → n.NoSenders → m.NoSenders) : Wired m := by
  refine ⟨?_, ?_⟩
  · rw [hrx, hw.rxAlive_iff, not_iff_not]
    exact hphase.symm
  · intro hm
    have hn := hphase.mp hm
    exact hs hn (hw.noSenders hn)

/-- A call that can still be polled holds a sender. -/
theorem Node.NoSenders.not_terminated {n : Node L} (hw : Wired n) {id : HandleId}
    {c : ClientCall Req Resp} (h : n.calls id = some c) (hp : c.phase.HoldsSender) :
    n.phase ≠ .terminated := fun ht => (hw.noSenders ht).2 id c h hp

theorem Node.setPhase_noSenders {n : Node L} {id : HandleId} {c : ClientCall Req Resp}
    {phase : CallPhase Req Resp} (h : n.NoSenders) (hp : ¬phase.HoldsSender) :
    (n.setPhase id c phase).NoSenders := by
  refine ⟨h.1, ?_⟩
  intro id' c' hc'
  rcases call_of_update rfl hc' with ⟨rfl, rfl⟩ | ⟨_, hc'⟩
  · exact hp
  · exact h.2 id' c' hc'

theorem Node.handleSwarmEvent_commandRx (n : Node L) (order : List PeerId)
    (event : SwarmEvent Req Resp) :
    (n.handleSwarmEvent order event).loop.commandRx = n.loop.commandRx := by
  simp only [Node.handleSwarmEvent]
  split
  · rfl
  · exact (EventLoop.convertToNodeEvent_commands _ _ _ _).2.1

theorem Node.handleSwarmEvent_phase_ne (n : Node L) (order : List PeerId)
    (event : SwarmEvent Req Resp) : (n.handleSwarmEvent order event).phase ≠ .terminated := by
  simp only [Node.handleSwarmEvent]
  split
  · simp
  · dsimp only
    split <;> simp

theorem Node.pollSend_loop (n : Node L) (event : NodeEvent Req) :
    (n.pollSend event).loop.commandRx = n.loop.commandRx ∧
      (n.pollSend event).phase ≠ .terminated ∧ (n.pollSend event).calls = n.calls ∧
      (n.pollSend event).clients = n.clients := by
  unfold Node.pollSend
  split <;> simp

theorem Wired.step {n m : Node L} {l : Label Req Resp} (hw : Wired n) (h : Step n l m) :
    Wired m := by
  cases h with
  | cloneClient h => exact hw.of_eq rfl .rfl fun _ hs => absurd hs.1 (Nat.pos_iff_ne_zero.mp h)
  | dropClient h => exact hw.of_eq rfl .rfl fun _ hs => absurd hs.1 (Nat.pos_iff_ne_zero.mp h)
  | openCall call hc h =>
      exact hw.of_eq rfl .rfl fun _ hs => absurd hs.1 (Nat.pos_iff_ne_zero.mp hc)
  | @firstPoll id c command waker h hp =>
      have ht : n.phase ≠ .terminated :=
        Node.NoSenders.not_terminated hw h (by simp [hp, CallPhase.HoldsSender])
      have hrx : (n.firstPoll id c command waker).loop.commandRx.rxAlive =
          n.loop.commandRx.rxAlive := by
        unfold Node.firstPoll
        split
        · rename_i heq
          obtain ⟨ha, rfl⟩ := (Channel.trySend_ok_iff _ _ _).mp heq
          rfl
        · rfl
      exact hw.of_eq hrx (by rw [Node.firstPoll_phase]) fun hn => absurd hn ht
  | handlePoll h hp =>
      exact hw.of_eq rfl .rfl fun hn => absurd hn
        (Node.NoSenders.not_terminated hw h (by simp [hp, CallPhase.HoldsSender]))
  | pollAgain waker h hp =>
      exact hw.of_eq rfl .rfl fun hn => absurd hn
        (Node.NoSenders.not_terminated hw h (by simp [hp, CallPhase.HoldsSender]))
  | dropCall h hp =>
      exact hw.of_eq rfl .rfl fun _ hs =>
        Node.setPhase_noSenders hs (by simp [CallPhase.HoldsSender])
  | sweep hp => exact hw.of_eq rfl (by simp [Node.sweep, hp]) fun hn => by simp [hp] at hn
  | recvCommand hp h =>
      refine hw.of_eq (Channel.tryRecv_eq_some h).2 (by simp [hp]) fun hn => ?_
      simp [hp] at hn
  | @handleCommand task hp =>
      have hrx := (n.handleCommand_kept task).1
      refine hw.of_eq (congrArg Channel.rxAlive hrx) ?_ fun hn => by simp [hp] at hn
      simp [Node.handleCommand, hp]
  | @swarmEvent event state order hp h ho =>
      refine hw.of_eq ?_ ?_ fun hn => by simp [hp] at hn
      · rw [Node.handleSwarmEvent_commandRx]
        rfl
      · simp [Node.handleSwarmEvent_phase_ne, hp]
  | inboundChannel protocol peer stream hp =>
      exact hw.of_eq rfl (by simp [hp]) fun hn => by simp [hp] at hn
  | @beginSend event hp =>
      obtain ⟨hrx, hphase, _⟩ := n.pollSend_loop event
      exact hw.of_eq (by rw [hrx]) (by simp [hphase, hp]) fun hn => by simp [hp] at hn
  | @resumeSend event hp h =>
      obtain ⟨hrx, hphase, _⟩ := n.pollSend_loop event
      exact hw.of_eq (by rw [hrx]) (by simp [hphase, hp]) fun hn => by simp [hp] at hn
  | shutdown hp hq hs => exact ⟨by simp [Node.shutdown], fun _ => hs⟩
  | _ => exact hw.of_eq rfl .rfl fun _ hs => hs

theorem Reachable.wired {config : NodeConfig} {n : Node L} (h : Reachable L config n) :
    Wired n :=
  Transition.Reachable.invariant (I := Wired) h (fun _ hs => hs.fresh.wired)
    fun _ _ _ hw hs => hw.step hs

end SwarmP2p
