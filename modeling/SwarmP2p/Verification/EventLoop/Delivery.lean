import SwarmP2p.Verification.Call.Desk

/-! # What enters the event queue

A node event is made from a swarm event, waits in the loop until the queue has room, and
then enters the queue. The LAN helper's status goes there at once. Nothing else is sent,
and nothing is lost while the receiver is alive. -/

namespace SwarmP2p

variable {Req Resp : Type} {L : Libp2p Req Resp}

/-- The node event that the loop has made and not sent yet. -/
def LoopPhase.unsent : LoopPhase Req Resp → List (NodeEvent Req)
  | .sending event => [event]
  | .suspended event => [event]
  | _ => []

/-- The node events that enter the queue between two states. -/
def Node.entered (n m : Node L) : List (NodeEvent Req) :=
  m.loop.eventTx.queue.drop n.loop.eventTx.queue.length

/-- The node events sent in a run, oldest first. -/
def sentEvents (π : List (Transition.Trans (Node L) (Label Req Resp))) : List (NodeEvent Req) :=
  π.flatMap fun x => x.pre.entered x.post

/-! ### The code of the loop -/

namespace EventLoop

/-- While an event is translated, one status event at most enters the queue, and none where
there is no receiver. It lists what is advertised then. -/
structure Announces (a b : EventLoop L) (status : List (NodeEvent Req)) : Prop where
  queue : b.eventTx.queue = a.eventTx.queue ++ status
  rxAlive : b.eventTx.rxAlive = a.eventTx.rxAlive
  length_le : status.length ≤ 1
  of_dead : a.eventTx.rxAlive = false → status = []
  status : ∀ e ∈ status, e = .lanHelperStatusChanged b.swarm.relayServer b.advertisedLanAddrs

theorem Announces.of_eq {a b : EventLoop L} (h : b.eventTx = a.eventTx) : Announces a b [] :=
  ⟨by rw [h, List.append_nil], by rw [h], Nat.zero_le 1, fun _ => rfl, fun _ he => (by cases he)⟩

theorem trySendStatus_announces (self : EventLoop L) :
    ∃ status, Announces self (self.trySendStatus
      (.lanHelperStatusChanged self.swarm.relayServer self.advertisedLanAddrs)) status := by
  unfold trySendStatus
  split
  · rename_i eventTx heq
    obtain ⟨ha, rfl⟩ := (Channel.trySend_ok_iff _ _ _).mp heq
    refine ⟨_, rfl, rfl, le_refl 1, fun hdead => ?_, fun e he => List.mem_singleton.mp he⟩
    rw [ha.1] at hdead
    cases hdead
  · exact ⟨[], .of_eq rfl⟩

theorem advertise_eventTx (self : EventLoop L) (addr : Multiaddr) :
    (self.advertise addr).eventTx = self.eventTx := by
  unfold advertise
  split <;> rfl

theorem maybeAnnounceLanHelperAddr_announces (self : EventLoop L) (addr : Multiaddr) :
    ∃ status, Announces self (self.maybeAnnounceLanHelperAddr addr) status := by
  unfold maybeAnnounceLanHelperAddr
  split
  · exact ⟨[], .of_eq rfl⟩
  · split
    · obtain ⟨status, h⟩ := trySendStatus_announces (self.advertise addr)
      refine ⟨status, ?_, ?_, h.length_le, ?_, h.status⟩
      · rw [← self.advertise_eventTx addr]
        exact h.queue
      · rw [← self.advertise_eventTx addr]
        exact h.rxAlive
      · rw [← self.advertise_eventTx addr]
        exact h.of_dead
    · exact ⟨[], .of_eq rfl⟩

theorem convertToNodeEvent_announces (self : EventLoop L) (now : Nat) (order : List PeerId)
    (event : SwarmEvent Req Resp) :
    ∃ status, Announces self (self.convertToNodeEvent now order event).1 status := by
  by_cases hl : ∃ addr, event = .newListenAddr addr
  · obtain ⟨addr, rfl⟩ := hl
    exact maybeAnnounceLanHelperAddr_announces self addr
  · cases hr : event.isRequest with
    | true =>
        obtain ⟨peer, request, channel, rfl⟩ := isRequest_eq_true hr
        exact ⟨[], .of_eq rfl⟩
    | false =>
        have huses := self.convertToNodeEvent_uses now order event hr
        exact ⟨[], .of_eq (huses.eventTx fun addr hcall => hl ⟨addr, hcall.2⟩)⟩

/-- The status is sent at once, never left for later. -/
theorem convertToNodeEvent_ne_status (self : EventLoop L) (now : Nat) (order : List PeerId)
    (event : SwarmEvent Req Resp) {enabled : Bool} {addrs : List Multiaddr} :
    (self.convertToNodeEvent now order event).2 ≠
      some (.lanHelperStatusChanged enabled addrs) := by
  unfold convertToNodeEvent
  split
  · unfold convertBehaviourEvent
    split
    all_goals try simp
    unfold convertRelayServerEvent
    split <;> simp
  · simp
  · simp
  · simp
  · simp

end EventLoop

/-! ### Steps -/

/-- What a step does to the events on their way. -/
inductive Delivery (n m : Node L) (l : Label Req Resp) : Prop where
  | quiet (hl : ∀ event, l ≠ .swarmEvent event) (hrecv : l ≠ .recvEvent)
      (heq : m.loop.eventTx = n.loop.eventTx) (hunsent : m.phase.unsent = n.phase.unsent)
  | took (event : NodeEvent Req) (hl : l = .recvEvent)
      (hqueue : n.loop.eventTx.queue = event :: m.loop.eventTx.queue)
      (hunsent : m.phase.unsent = n.phase.unsent)
      (halive : m.loop.eventTx.rxAlive = n.loop.eventTx.rxAlive)
  | dropped (hl : l = .dropReceiver) (hqueue : m.loop.eventTx.queue = [])
      (hdead : m.loop.eventTx.rxAlive = false) (hunsent : m.phase.unsent = n.phase.unsent)
  | sent (event : NodeEvent Req) (hl : ∀ event, l ≠ .swarmEvent event) (hrecv : l ≠ .recvEvent)
      (hbefore : n.phase.unsent = [event])
      (hsent : n.loop.eventTx.trySend event = .ok m.loop.eventTx) (hunsent : m.phase.unsent = [])
  | lost (hl : ∀ event, l ≠ .swarmEvent event) (hrecv : l ≠ .recvEvent)
      (hdead : n.loop.eventTx.rxAlive = false) (heq : m.loop.eventTx = n.loop.eventTx)
      (hunsent : m.phase.unsent = [])
  | consumed (event : SwarmEvent Req Resp) (hl : l = .swarmEvent event)
      (howned : event.id? ≠ none) (heq : m.loop.eventTx = n.loop.eventTx)
      (hbefore : n.phase.unsent = []) (hunsent : m.phase.unsent = [])
  | converted (event : SwarmEvent Req Resp) (hl : l = .swarmEvent event)
      (loop : EventLoop L) (order : List PeerId) (hbefore : n.phase.unsent = [])
      (hloop : m.loop = (loop.convertToNodeEvent n.now order event).1)
      (heq : loop.eventTx = n.loop.eventTx)
      (hunsent : m.phase.unsent = (loop.convertToNodeEvent n.now order event).2.toList)

theorem Node.entered_of_eq {n m : Node L} (h : m.loop.eventTx = n.loop.eventTx) :
    n.entered m = [] := by
  simp [Node.entered, h]

theorem Node.entered_of_took {n m : Node L} {event : NodeEvent Req}
    (h : n.loop.eventTx.queue = event :: m.loop.eventTx.queue) : n.entered m = [] := by
  simp [Node.entered, h]

theorem Node.entered_of_sent {n m : Node L} {event : NodeEvent Req}
    (h : n.loop.eventTx.trySend event = .ok m.loop.eventTx) : n.entered m = [event] := by
  obtain ⟨_, hpushed⟩ := (Channel.trySend_ok_iff _ _ _).mp h
  rw [Node.entered, hpushed]
  simp

/-- What enters the queue while an event is translated. -/
theorem Node.announces {n m : Node L} {loop : EventLoop L} {now : Nat} {order : List PeerId}
    {event : SwarmEvent Req Resp} (hloop : m.loop = (loop.convertToNodeEvent now order event).1)
    (heq : loop.eventTx = n.loop.eventTx) : loop.Announces m.loop (n.entered m) := by
  obtain ⟨status, ha⟩ := loop.convertToNodeEvent_announces now order event
  rw [← hloop] at ha
  have hentered : n.entered m = status := by
    rw [Node.entered, ha.queue, heq, List.drop_left]
  exact hentered ▸ ha

theorem Delivery.of_converted {n m : Node L} {loop : EventLoop L} {order : List PeerId}
    {event : SwarmEvent Req Resp}
    (hloop : m.loop = (loop.convertToNodeEvent n.now order event).1)
    (hphase : m.phase = match (loop.convertToNodeEvent n.now order event).2 with
      | some nodeEvent => .sending nodeEvent
      | none => .top)
    (heq : loop.eventTx = n.loop.eventTx) (hbefore : n.phase.unsent = []) :
    Delivery n m (.swarmEvent event) := by
  refine .converted event rfl loop order hbefore hloop heq ?_
  rw [hphase]
  cases (loop.convertToNodeEvent n.now order event).2 <;> rfl

theorem Node.handleSwarmEvent_delivery (n : Node L) (state : L.State) (order : List PeerId)
    (event : SwarmEvent Req Resp) (hp : n.phase = .selecting) :
    Delivery n ((n.withSwarmState state).handleSwarmEvent order event) (.swarmEvent event) := by
  have hbefore : n.phase.unsent = [] := by simp [hp, LoopPhase.unsent]
  rcases (n.withSwarmState state).handleSwarmEvent_cases order event with ⟨hrem, h⟩ | ⟨_, h⟩
  · have howned : event.id? ≠ none := fun hid => by
      rw [dispatch_remaining _ hid] at hrem
      cases hrem
    rw [h]
    exact .consumed event rfl howned rfl hbefore rfl
  · rw [h]
    exact .of_converted rfl rfl rfl hbefore

theorem Node.pollSend_delivery (n : Node L) {event : NodeEvent Req} {l : Label Req Resp}
    (hl : ∀ event, l ≠ .swarmEvent event) (hrecv : l ≠ .recvEvent)
    (hn : n.phase.unsent = [event]) : Delivery n (n.pollSend event) l := by
  unfold Node.pollSend
  split
  · rename_i eventTx heq
    exact .sent event hl hrecv hn heq rfl
  · rename_i heq
    refine .lost hl hrecv ?_ rfl rfl
    by_contra halive
    simp only [Bool.not_eq_false] at halive
    simp only [Channel.trySend, halive, ite_true] at heq
    split at heq <;> cases heq
  · exact .quiet hl hrecv rfl hn.symm

theorem Node.firstPoll_eventTx (n : Node L) (id : HandleId) (c : ClientCall Req Resp)
    (command : Command Req Resp) (waker : Waker) :
    (n.firstPoll id c command waker).loop.eventTx = n.loop.eventTx := by
  unfold firstPoll
  split <;> rfl

theorem Step.delivery {n m : Node L} {l : Label Req Resp} (h : Step n l m) :
    Delivery n m l := by
  cases h with
  | @firstPoll id c command waker hc hp =>
      exact .quiet (by simp) (by simp) (n.firstPoll_eventTx id c command waker)
        (by rw [n.firstPoll_phase])
  | sweep hp =>
      exact .quiet (by simp) (by simp) rfl (by simp [Node.sweep, hp, LoopPhase.unsent])
  | recvCommand hp h => exact .quiet (by simp) (by simp) rfl (by simp [hp, LoopPhase.unsent])
  | @handleCommand task hp =>
      exact .quiet (by simp) (by simp) (n.handleCommand_kept task).2.1
        (by simp [Node.handleCommand, hp, LoopPhase.unsent])
  | swarmEvent hp h ho => exact n.handleSwarmEvent_delivery _ _ _ hp
  | inboundChannel protocol peer stream hp =>
      exact .quiet (by simp) (by simp) rfl (by simp [hp, LoopPhase.unsent])
  | beginSend hp => exact n.pollSend_delivery (by simp) (by simp) (by simp [hp, LoopPhase.unsent])
  | resumeSend hp h =>
      exact n.pollSend_delivery (by simp) (by simp) (by simp [hp, LoopPhase.unsent])
  | shutdown hp hq hs =>
      exact .quiet (by simp) (by simp) rfl (by simp [Node.shutdown, hp, LoopPhase.unsent])
  | recvEvent hf h =>
      obtain ⟨hqueue, halive⟩ := Channel.tryRecv_eq_some h
      exact .took _ rfl hqueue rfl halive
  | dropReceiver hf => exact .dropped rfl rfl rfl rfl
  | _ => exact .quiet (by simp) (by simp) rfl rfl

end SwarmP2p
