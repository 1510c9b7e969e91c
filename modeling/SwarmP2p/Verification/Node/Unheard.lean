import SwarmP2p.Verification.Node.Shutdown

/-! # The node without a receiver of its events

Who receives the node events, how fast, and whether anybody does, makes no difference to
anything else. Seen without the event channel, the runs of a node are the runs of the node
whose receiver was dropped at the start. -/

namespace SwarmP2p

variable {Req Resp : Type} {L : Libp2p Req Resp}

/-! ### Dropping the receiver -/

def EventLoop.unheard (loop : EventLoop L) : EventLoop L :=
  { loop with eventTx := loop.eventTx.closeRx }

/-- Nobody waits for room in a channel without a receiver. -/
def LoopPhase.unheard : LoopPhase Req Resp → LoopPhase Req Resp
  | .suspended event => .sending event
  | phase => phase

/-- The node as it would be had the receiver been dropped at the start. -/
def Node.unheard (n : Node L) : Node L :=
  { n with loop := n.loop.unheard, phase := n.phase.unheard, frontend := .closed }

/-- What a step is for the node without a receiver. -/
def unheardLabel? (x : Transition.Trans (Node L) (Label Req Resp)) : Option (Label Req Resp) :=
  match x.label with
  | .recvEvent | .awaitCall _ | .callDone | .nextEvent | .dropReceiver => none
  | .beginSend =>
      match x.post.phase with
      | .suspended _ => none
      | _ => some .beginSend
  | .resumeSend => some .beginSend
  | label => some label

def unheardSteps (π : List (Transition.Trans (Node L) (Label Req Resp))) :
    List (Transition.Trans (Node L) (Label Req Resp)) :=
  π.filterMap (Transition.Trans.seen Node.unheard unheardLabel?)

/-! ### The code of the loop -/

namespace EventLoop

theorem trySendStatus_unheard (self : EventLoop L) (event : NodeEvent Req) :
    self.unheard.trySendStatus event = (self.trySendStatus event).unheard := by
  have hclosed : self.unheard.trySendStatus event = self.unheard := rfl
  rw [hclosed, trySendStatus]
  split <;> rfl

theorem advertise_unheard (self : EventLoop L) (addr : Multiaddr) :
    self.unheard.advertise addr = (self.advertise addr).unheard := by
  have hlan : self.unheard.advertisedLanAddrs = self.advertisedLanAddrs := rfl
  unfold advertise
  rw [hlan]
  split <;> rfl

theorem maybeAnnounceLanHelperAddr_unheard (self : EventLoop L) (addr : Multiaddr) :
    self.unheard.maybeAnnounceLanHelperAddr addr =
      (self.maybeAnnounceLanHelperAddr addr).unheard := by
  have hhelper : self.unheard.lanHelper = self.lanHelper := rfl
  simp only [maybeAnnounceLanHelperAddr, hhelper, advertise_unheard]
  split
  · rfl
  · split
    · exact trySendStatus_unheard _ _
    · rfl

theorem handleIdentify_unheard (self : EventLoop L) (peerId : PeerId) (info : IdentifyInfo) :
    self.unheard.handleIdentify peerId info = (self.handleIdentify peerId info).unheard := by
  have hversion : self.unheard.protocolVersion = self.protocolVersion := rfl
  have hpeers : self.unheard.bootstrapPeers = self.bootstrapPeers := rfl
  simp only [handleIdentify, hversion, hpeers]
  split
  · split <;> rfl
  · rfl

theorem scheduleRelayReservations_unheard (self : EventLoop L)
    (request : Option (PeerId × List Multiaddr)) :
    self.unheard.scheduleRelayReservations request =
      (self.scheduleRelayReservations request).unheard := by
  have hswarm : self.unheard.swarm = self.swarm := rfl
  rcases request with _ | ⟨peerId, addrs⟩
  · rfl
  · simp only [scheduleRelayReservations, hswarm]
    split <;> rfl

theorem convertToNodeEvent_unheard (self : EventLoop L) (now : Nat) (order : List PeerId)
    (event : SwarmEvent Req Resp) :
    self.unheard.convertToNodeEvent now order event =
      ((self.convertToNodeEvent now order event).1.unheard,
        (self.convertToNodeEvent now order event).2) := by
  cases event with
  | behaviour event =>
      simp only [convertToNodeEvent]
      unfold convertBehaviourEvent
      split
      all_goals first | rfl | simp only [handleIdentify_unheard]
  | newListenAddr addr =>
      simp only [convertToNodeEvent, maybeAnnounceLanHelperAddr_unheard]
  | _ => rfl

end EventLoop

/-! ### The steps of the node -/

namespace Node

theorem firstPoll_unheard (n : Node L) (id : HandleId) (c : ClientCall Req Resp)
    (command : Command Req Resp) (waker : Waker) :
    n.unheard.firstPoll id c command waker = (n.firstPoll id c command waker).unheard := by
  have hrx : n.unheard.loop.commandRx = n.loop.commandRx := rfl
  unfold firstPoll
  rw [hrx]
  split <;> rfl

theorem handleCommand_unheard (n : Node L) (task : Task Req Resp) :
    n.unheard.handleCommand task = (n.handleCommand task).unheard := by
  have hloop := EventLoop.scheduleRelayReservations_unheard
    { n.loop with swarm := (task.command.run n.loop.swarm).swarm }
    (task.command.run n.loop.swarm).handler.takeRelayReservationRequest.2
  exact congrArg
    (fun loop : EventLoop L =>
      { n.unheard with
        loop := { loop with
          activeCommands := loop.activeCommands ++ [task.afterRun n.loop.swarm] }
        handles := (n.handleCommand task).handles
        phase := .top })
    hloop

theorem handleSwarmEvent_unheard (n : Node L) (order : List PeerId)
    (event : SwarmEvent Req Resp) :
    n.unheard.handleSwarmEvent order event = (n.handleSwarmEvent order event).unheard := by
  have hactive : n.unheard.loop.activeCommands = n.loop.activeCommands := rfl
  simp only [handleSwarmEvent, hactive]
  generalize Chain.dispatch (Task.onEvent L) n.loop.activeCommands event = d
  split
  · rfl
  · rename_i event' _
    let taken : EventLoop L := { n.loop with activeCommands := d.commands }
    have hconvert : EventLoop.convertToNodeEvent
        { n.unheard.loop with activeCommands := d.commands } n.unheard.now order event' =
          ((taken.convertToNodeEvent n.now order event').1.unheard,
            (taken.convertToNodeEvent n.now order event').2) :=
      taken.convertToNodeEvent_unheard n.now order event'
    rw [hconvert]
    generalize taken.convertToNodeEvent n.now order event' = result
    rcases result with ⟨loop, _ | nodeEvent⟩ <;> rfl

end Node

theorem Node.unheard_phase {n : Node L} {phase : LoopPhase Req Resp} (h : n.phase = phase) :
    n.unheard.phase = phase.unheard := congrArg LoopPhase.unheard h

/-- A poll of the send ends it, or suspends it. -/
theorem Node.pollSend_cases (n : Node L) (event : NodeEvent Req) :
    (n.pollSend event).phase = .suspended event ∧
        n.pollSend event = { n with phase := .suspended event } ∨
      (n.pollSend event).phase = .top ∧
        (n.pollSend event).unheard = { n.unheard with phase := .top } := by
  unfold pollSend
  split
  · exact .inr ⟨rfl, rfl⟩
  · exact .inr ⟨rfl, rfl⟩
  · exact .inl ⟨rfl, rfl⟩

theorem Step.unheard_step {n m : Node L} {l k : Label Req Resp} (h : Step n l m)
    (hk : unheardLabel? ⟨n, l, m⟩ = some k) : Step n.unheard k m.unheard := by
  cases h with
  | cloneClient h =>
      cases hk
      exact .cloneClient (n := n.unheard) h
  | dropClient h =>
      cases hk
      exact .dropClient (n := n.unheard) h
  | openCall call hc h =>
      cases hk
      exact .openCall (n := n.unheard) call hc h
  | firstPoll waker h hp =>
      cases hk
      rw [← Node.firstPoll_unheard]
      exact .firstPoll (n := n.unheard) waker h hp
  | handlePoll h hp =>
      cases hk
      exact .handlePoll (n := n.unheard) h hp
  | pollAgain waker h hp =>
      cases hk
      exact .pollAgain (n := n.unheard) waker h hp
  | dropCall h hp =>
      cases hk
      exact .dropCall (n := n.unheard) h hp
  | sweep hp =>
      cases hk
      exact .sweep (n.unheard_phase hp)
  | recvCommand hp h =>
      cases hk
      exact .recvCommand (n := n.unheard) (n.unheard_phase hp) h
  | handleCommand hp =>
      cases hk
      rw [← Node.handleCommand_unheard]
      exact .handleCommand (n.unheard_phase hp)
  | swarmEvent hp h ho =>
      cases hk
      rw [← Node.handleSwarmEvent_unheard]
      exact .swarmEvent (n := n.unheard) (n.unheard_phase hp) h ho
  | inboundChannel protocol peer stream hp =>
      cases hk
      exact .inboundChannel (n := n.unheard) protocol peer stream (n.unheard_phase hp)
  | @beginSend event hp =>
      rcases n.pollSend_cases event with ⟨hphase, _⟩ | ⟨hphase, hsent⟩
      · simp [unheardLabel?, hphase] at hk
      · obtain rfl : Label.beginSend = k := by simpa [unheardLabel?, hphase] using hk
        rw [hsent]
        exact .beginSend (n.unheard_phase hp)
  | @resumeSend event hp h =>
      cases hk
      rcases n.pollSend_cases event with ⟨hphase, _⟩ | ⟨_, hsent⟩
      · have hfull : ¬n.EventsFull := fun hf => h ((n.trySend_full_iff event).mpr hf)
        rw [Node.pollSend_phase_of_not_full hfull] at hphase
        cases hphase
      · rw [hsent]
        exact .beginSend (n.unheard_phase hp)
  | shutdown hp hq hs =>
      cases hk
      exact .shutdown (n := n.unheard) (n.unheard_phase hp) hq hs
  | recvEvent | awaitCall | callDone | nextEvent | dropReceiver => cases hk
  | tick duration =>
      cases hk
      exact .tick (n := n.unheard) duration
  | purge =>
      cases hk
      exact .purge (n := n.unheard)
  | dataChannel hl h =>
      cases hk
      exact .dataChannel (n := n.unheard) hl h

theorem Step.unheard_idle {n m : Node L} {l : Label Req Resp} (h : Step n l m)
    (hk : unheardLabel? ⟨n, l, m⟩ = none) : m.unheard = n.unheard := by
  cases h with
  | @beginSend event hp =>
      rcases n.pollSend_cases event with ⟨_, hsent⟩ | ⟨hphase, _⟩
      · rw [hsent, Node.unheard, Node.unheard, hp]
        rfl
      · simp [unheardLabel?, hphase] at hk
  | recvEvent | awaitCall | callDone | nextEvent | dropReceiver => rfl
  | _ => cases hk

/-! ### With a receiver again -/

/-- The owner of the receiver waits for an event, and the loop does not wait for room. -/
structure Node.Listening (n : Node L) : Prop where
  frontend : n.frontend = .receiving
  alive : n.loop.eventTx.rxAlive = true
  moving : ∀ event, n.phase ≠ .suspended event

theorem Started.listening {config : NodeConfig} {n : Node L} (h : Started L config n) :
    n.Listening := by
  refine ⟨h.fresh.frontend_eq, by simp [h.eventTx_eq], fun event => ?_⟩
  simp [h.fresh.phase_eq]

theorem Node.Listening.phase_eq {n : Node L} (hn : n.Listening) {phase : LoopPhase Req Resp}
    (h : n.unheard.phase = phase) : n.phase = phase := by
  rw [← h]
  show n.phase = n.phase.unheard
  cases hp : n.phase with
  | suspended event => exact absurd hp (hn.moving event)
  | _ => rfl

theorem Step.listening {n m : Node L} {l : Label Req Resp} (h : Step n l m)
    (hn : n.Listening) (hl : l ≠ .dropReceiver) (hf : m.frontend = n.frontend)
    (hp : ∀ event, m.phase ≠ .suspended event) : m.Listening := by
  refine ⟨hf.trans hn.frontend, ?_, hp⟩
  cases h.passage with
  | took _ _ _ _ halive | moved _ _ _ halive => exact halive.trans hn.alive
  | dropped hdrop => exact absurd hdrop hl

/-- What the node without a receiver can do, the node with one does by the run `ρ`. -/
def Node.Shows (n : Node L) (k : Label Req Resp) (v : Node L)
    (ρ : List (Transition.Trans (Node L) (Label Req Resp))) : Prop :=
  ∃ m, Run L n ρ m ∧ m.Listening ∧ m.unheard = v ∧ unheardSteps ρ = [⟨n.unheard, k, v⟩]

/-- Most steps are taken as they are. -/
theorem Step.shows {n m v : Node L} {k : Label Req Resp} (h : Step n k m) (hn : n.Listening)
    (hk : unheardLabel? ⟨n, k, m⟩ = some k) (hf : m.frontend = n.frontend)
    (hp : ∀ event, m.phase ≠ .suspended event) (hv : m.unheard = v) :
    n.Shows k v [⟨n, k, m⟩] := by
  have hl : k ≠ .dropReceiver := by
    rintro rfl
    cases hk
  exact ⟨m, .single h, h.listening hn hl hf hp, hv,
    by simp [unheardSteps, Transition.Trans.seen, hk, hv]⟩

theorem Node.handleSwarmEvent_moving (n : Node L) (order : List PeerId)
    (event : SwarmEvent Req Resp) (e : NodeEvent Req) :
    (n.handleSwarmEvent order event).phase ≠ .suspended e := by
  rcases n.handleSwarmEvent_cases order event with ⟨_, heq⟩ | ⟨_, heq⟩
  · simp [heq]
  · rw [heq]
    dsimp only
    split <;> simp

theorem Node.Listening.sends_of_room {n : Node L} (hn : n.Listening) {event : NodeEvent Req}
    (hp : n.phase = .sending event) (hroom : ¬n.EventsFull) :
    ∃ ρ, n.Shows .beginSend { n.unheard with phase := .top } ρ := by
  have hphase : (n.pollSend event).phase = .top := Node.pollSend_phase_of_not_full hroom
  have hsent : (n.pollSend event).unheard = { n.unheard with phase := .top } := by
    rcases n.pollSend_cases event with ⟨hsuspended, _⟩ | ⟨_, hsent⟩
    · rw [hphase] at hsuspended
      cases hsuspended
    · exact hsent
  exact ⟨_, (Step.beginSend hp).shows hn (by simp [unheardLabel?, hphase])
    (n.pollSend_frontend event) (by simp [hphase]) hsent⟩

/-- The receiver makes room first, if there is none. -/
theorem Node.Listening.sends {n : Node L} (hn : n.Listening) {event : NodeEvent Req}
    (hp : n.phase = .sending event) :
    ∃ ρ, n.Shows .beginSend { n.unheard with phase := .top } ρ := by
  by_cases hfull : n.EventsFull
  · cases hrecv : n.loop.eventTx.tryRecv with
    | none =>
        refine absurd ?_ hfull.2
        rw [Channel.HasRoom, Channel.tryRecv_eq_none hrecv]
        exact Nat.zero_lt_succ _
    | some x =>
        obtain ⟨first, eventTx⟩ := x
        obtain ⟨hqueue, halive⟩ := Channel.tryRecv_eq_some hrecv
        have htook := Step.recvEvent (n := n) hn.frontend hrecv
        let handling : Node L :=
          { n with loop := { n.loop with eventTx := eventTx }, frontend := .handling }
        have hback := Step.nextEvent (n := handling) rfl
        let drained : Node L := { handling with frontend := .receiving }
        have hdrained : drained.Listening := ⟨rfl, halive.trans hn.alive, hn.moving⟩
        have hroom : ¬drained.EventsFull := fun hd => hd.2 <| by
          have hbound := n.loop.eventTx.bounded
          rw [hqueue, List.length_cons] at hbound
          exact hbound
        obtain ⟨ρ, m, hrun, hm, hv, hseen⟩ := hdrained.sends_of_room hp hroom
        refine ⟨[⟨n, .recvEvent, handling⟩] ++ [⟨handling, .nextEvent, drained⟩] ++ ρ, m,
          ((Transition.Path.single htook).append (.single hback)).append hrun, hm, hv, ?_⟩
        rw [unheardSteps, List.filterMap_append]
        exact hseen
  · exact hn.sends_of_room hp hfull

/-- Each step of the node without a receiver is what can be seen of a run of the node whose
receiver takes the events in time. -/
theorem Node.Listening.shows {n v : Node L} {k : Label Req Resp} (hn : n.Listening)
    (h : Step n.unheard k v) : ∃ ρ, n.Shows k v ρ := by
  generalize hu : n.unheard = u at h
  cases h with
  | cloneClient h =>
      subst hu
      exact ⟨_, (Step.cloneClient (n := n) h).shows hn rfl rfl hn.moving rfl⟩
  | dropClient h =>
      subst hu
      exact ⟨_, (Step.dropClient (n := n) h).shows hn rfl rfl hn.moving rfl⟩
  | openCall call hc h =>
      subst hu
      exact ⟨_, (Step.openCall (n := n) call hc h).shows hn rfl rfl hn.moving rfl⟩
  | firstPoll waker h hp =>
      subst hu
      refine ⟨_, (Step.firstPoll (n := n) waker h hp).shows hn rfl
        (n.firstPoll_frontend ..) ?_ (n.firstPoll_unheard ..).symm⟩
      rw [n.firstPoll_phase]
      exact hn.moving
  | handlePoll h hp =>
      subst hu
      exact ⟨_, (Step.handlePoll (n := n) h hp).shows hn rfl rfl hn.moving rfl⟩
  | pollAgain waker h hp =>
      subst hu
      exact ⟨_, (Step.pollAgain (n := n) waker h hp).shows hn rfl rfl hn.moving rfl⟩
  | dropCall h hp =>
      subst hu
      exact ⟨_, (Step.dropCall (n := n) h hp).shows hn rfl rfl hn.moving rfl⟩
  | sweep hp =>
      subst hu
      exact ⟨_, (Step.sweep (hn.phase_eq hp)).shows hn rfl rfl (by simp [Node.sweep]) rfl⟩
  | recvCommand hp h =>
      subst hu
      exact ⟨_, (Step.recvCommand (n := n) (hn.phase_eq hp) h).shows hn rfl rfl (by simp) rfl⟩
  | @handleCommand task hp =>
      subst hu
      have htop : (n.handleCommand task).phase = .top := rfl
      exact ⟨_, (Step.handleCommand (hn.phase_eq hp)).shows hn rfl rfl (by simp [htop])
        (n.handleCommand_unheard task).symm⟩
  | @swarmEvent event state order hp h ho =>
      subst hu
      exact ⟨_, (Step.swarmEvent (n := n) (hn.phase_eq hp) h ho).shows hn rfl
        ((n.withSwarmState state).handleSwarmEvent_frontend order event)
        ((n.withSwarmState state).handleSwarmEvent_moving order event)
        ((n.withSwarmState state).handleSwarmEvent_unheard order event).symm⟩
  | inboundChannel protocol peer stream hp =>
      subst hu
      exact ⟨_, (Step.inboundChannel (n := n) protocol peer stream (hn.phase_eq hp)).shows hn
        rfl rfl (by simp) rfl⟩
  | beginSend hp =>
      subst hu
      exact hn.sends (hn.phase_eq hp)
  | resumeSend hp h =>
      subst hu
      exact absurd (hn.phase_eq hp) (hn.moving _)
  | shutdown hp hq hs =>
      subst hu
      exact ⟨_, (Step.shutdown (n := n) (hn.phase_eq hp) hq hs).shows hn rfl rfl
        (by simp [Node.shutdown]) rfl⟩
  | recvEvent hf h | awaitCall hf h hp | callDone hf h hp | nextEvent hf =>
      subst hu
      cases hf
  | dropReceiver hf =>
      subst hu
      exact absurd rfl hf
  | tick duration =>
      subst hu
      exact ⟨_, (Step.tick (n := n) duration).shows hn rfl rfl hn.moving rfl⟩
  | purge =>
      subst hu
      exact ⟨_, (Step.purge (n := n)).shows hn rfl rfl hn.moving rfl⟩
  | dataChannel hl h =>
      subst hu
      exact ⟨_, (Step.dataChannel (n := n) hl h).shows hn rfl rfl hn.moving rfl⟩

/-! ### Runs -/

/-- What a node does, apart from its reports, does not depend on who receives them: every
run is, seen without them, a run of the node whose receiver is gone, and that node does
nothing that the node with a receiver cannot do. -/
theorem reports_change_nothing {config : NodeConfig} {n : Node L} (hs : Started L config n) :
    (∀ π m, Run L n π m → Run L n.unheard (unheardSteps π) m.unheard) ∧
      ∀ π v, Run L n.unheard π v →
        ∃ ρ m, Run L n ρ m ∧ m.unheard = v ∧ unheardSteps ρ = π := by
  refine ⟨fun π m h => h.project Node.unheard unheardLabel?
    (fun _ _ _ _ hstep hk => hstep.unheard_step hk)
    fun _ _ _ hstep hk => hstep.unheard_idle hk, fun π v h => ?_⟩
  obtain ⟨ρ, m, hrun, _, hv, hseen⟩ :=
    Transition.Path.lift Node.unheard unheardLabel? (fun a k v ha hstep => ha.shows hstep) h
      hs.listening
  exact ⟨ρ, m, hrun, hv, hseen⟩

/-- Without a receiver the ping is lost where it was sent. -/
theorem reports_change_nothing_ping :
    Run loopback (Loopback.node []).unheard (unheardSteps Loopback.pingSteps)
        Loopback.handlingPing.unheard ∧ (unheardSteps Loopback.pingSteps).length = 3 :=
  ⟨(reports_change_nothing (Loopback.started [])).1 _ _ Loopback.pingSteps_run, rfl⟩

end SwarmP2p
