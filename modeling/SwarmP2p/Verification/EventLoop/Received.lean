import SwarmP2p.Library.History
import SwarmP2p.Verification.EventLoop.Delivery
import SwarmP2p.Verification.Frontend.Deadlock

/-! # From the loop to the receiver

What the loop makes of swarm events reaches the owner of the receiver in order, all of it
and once, as long as there is a receiver. Only the LAN helper's status events may be
dropped on the way, and they overtake nothing. -/

namespace SwarmP2p

variable {Req Resp : Type} {L : Libp2p Req Resp}

/-- The status events of the LAN helper are sent with `try_send`. -/
def NodeEvent.isStatus : NodeEvent Req → Bool
  | .lanHelperStatusChanged _ _ => true
  | _ => false

/-- The events that the loop returns from `convert_to_node_event`. -/
def reportsOf (events : List (NodeEvent Req)) : List (NodeEvent Req) :=
  events.filter fun e => !e.isStatus

/-- The node event that the loop makes in a step. -/
def reported? (x : Transition.Trans (Node L) (Label Req Resp)) : List (NodeEvent Req) :=
  match x.label with
  | .swarmEvent _ => x.post.phase.unsent
  | _ => []

/-- The node event that the receiver takes in a step. -/
def received? (x : Transition.Trans (Node L) (Label Req Resp)) : List (NodeEvent Req) :=
  match x.label with
  | .recvEvent => x.pre.loop.eventTx.queue.head?.toList
  | _ => []

def reported (π : List (Transition.Trans (Node L) (Label Req Resp))) : List (NodeEvent Req) :=
  π.flatMap reported?

def received (π : List (Transition.Trans (Node L) (Label Req Resp))) : List (NodeEvent Req) :=
  π.flatMap received?

/-- The node events on their way. -/
def Node.underway (n : Node L) : List (NodeEvent Req) :=
  reportsOf (n.loop.eventTx.queue ++ n.phase.unsent)

def reportFifo : Transition.Fifo (Node L) (Label Req Resp) (NodeEvent Req) where
  isOpen n := n.loop.eventTx.rxAlive = true
  queue := Node.underway
  enters := reported?
  leaves x := reportsOf (received? x)

/-! ### Steps -/

theorem NodeEvent.isStatus_eq_false {event : NodeEvent Req}
    (h : ∀ enabled addrs, event ≠ .lanHelperStatusChanged enabled addrs) :
    event.isStatus = false := by
  cases event with
  | lanHelperStatusChanged enabled addrs => exact absurd rfl (h enabled addrs)
  | _ => rfl

/-- What a step does to the channel of node events. -/
inductive Passage (n m : Node L) (l : Label Req Resp) : Prop where
  | took (event : NodeEvent Req) (hl : l = .recvEvent)
      (hqueue : n.loop.eventTx.queue = event :: m.loop.eventTx.queue)
      (hunsent : m.phase.unsent = n.phase.unsent)
      (halive : m.loop.eventTx.rxAlive = n.loop.eventTx.rxAlive)
  | dropped (hl : l = .dropReceiver) (hqueue : m.loop.eventTx.queue = [])
      (halive : m.loop.eventTx.rxAlive = false)
  | moved (hl : l ≠ .recvEvent) (new : List (NodeEvent Req))
      (hqueue : m.loop.eventTx.queue = n.loop.eventTx.queue ++ new)
      (halive : m.loop.eventTx.rxAlive = n.loop.eventTx.rxAlive)
      (hroom : n.loop.eventTx.rxAlive = false → new = [])
      (hpass : n.loop.eventTx.rxAlive = true →
        reportsOf n.phase.unsent ++ reported? ⟨n, l, m⟩ = reportsOf (new ++ m.phase.unsent))

/-- A step without a swarm event makes no node event. -/
theorem Passage.of_silent {n m : Node L} {l : Label Req Resp} (hl : l ≠ .recvEvent)
    (hevent : ∀ event, l ≠ .swarmEvent event) (new : List (NodeEvent Req))
    (hqueue : m.loop.eventTx.queue = n.loop.eventTx.queue ++ new)
    (halive : m.loop.eventTx.rxAlive = n.loop.eventTx.rxAlive)
    (hroom : n.loop.eventTx.rxAlive = false → new = [])
    (hpass : n.loop.eventTx.rxAlive = true → n.phase.unsent = new ++ m.phase.unsent) :
    Passage n m l := by
  refine .moved hl new hqueue halive hroom fun ha => ?_
  have hnone : reported? (⟨n, l, m⟩ : Transition.Trans (Node L) (Label Req Resp)) = [] := by
    unfold reported?
    split
    · rename_i event heq
      exact absurd heq (hevent event)
    · rfl
  rw [hnone, hpass ha, List.append_nil]

theorem reportsOf_status {events : List (NodeEvent Req)} (h : ∀ e ∈ events, e.isStatus = true) :
    reportsOf events = [] :=
  List.filter_eq_nil_iff.mpr fun e he => by simp [h e he]

theorem reportsOf_unsent {events : List (NodeEvent Req)} (h : ∀ e ∈ events, e.isStatus = false) :
    reportsOf events = events :=
  List.filter_eq_self.mpr fun e he => by simp [h e he]

/-- The loop has translated an event itself. -/
theorem Passage.of_converted {n m : Node L} {loop : EventLoop L} {order : List PeerId}
    {event : SwarmEvent Req Resp}
    (hloop : m.loop = (loop.convertToNodeEvent n.now order event).1)
    (heq : loop.eventTx = n.loop.eventTx) (hn : n.phase.unsent = [])
    (hunsent : m.phase.unsent = (loop.convertToNodeEvent n.now order event).2.toList) :
    Passage n m (.swarmEvent event) := by
  obtain ⟨status, ha⟩ := loop.convertToNodeEvent_announces n.now order event
  have hreport : reportsOf m.phase.unsent = m.phase.unsent := by
    rw [hunsent]
    refine reportsOf_unsent fun e he => NodeEvent.isStatus_eq_false fun enabled addrs hstatus => ?_
    exact loop.convertToNodeEvent_ne_status n.now order event
      (hstatus ▸ Option.mem_toList.mp he)
  rw [← hloop] at ha
  have hstatus : reportsOf status = [] := reportsOf_status fun e he => by
    rw [ha.status e he]
    rfl
  refine .moved (by simp) status (heq ▸ ha.queue) (heq ▸ ha.rxAlive)
    (fun hdead => ha.of_dead (heq ▸ hdead)) fun _ => ?_
  have happend : reportsOf (status ++ m.phase.unsent) =
      reportsOf status ++ reportsOf m.phase.unsent := List.filter_append _ _
  rw [happend, hstatus, hn, hreport]
  rfl

/-- How the events on their way pass the channel. -/
theorem Delivery.passage {n m : Node L} {l : Label Req Resp} (h : Delivery n m l) :
    Passage n m l := by
  cases h with
  | quiet hl hrecv heq hunsent =>
      exact .of_silent hrecv hl [] (by rw [heq, List.append_nil]) (by rw [heq]) (fun _ => rfl)
        fun _ => hunsent.symm
  | took event hl hqueue hunsent halive => exact .took event hl hqueue hunsent halive
  | dropped hl hqueue hdead => exact .dropped hl hqueue hdead
  | sent event hl hrecv hbefore hsent hunsent =>
      obtain ⟨ha, hpushed⟩ := (Channel.trySend_ok_iff _ _ _).mp hsent
      refine .of_silent hrecv hl [event] (by rw [hpushed]; rfl) (by rw [hpushed]; rfl)
        (fun hdead => ?_) fun _ => by rw [hbefore, hunsent, List.append_nil]
      rw [ha.1] at hdead
      cases hdead
  | lost hl hrecv hdead heq hunsent =>
      refine .of_silent hrecv hl [] (by rw [heq, List.append_nil]) (by rw [heq]) (fun _ => rfl)
        fun halive => ?_
      rw [hdead] at halive
      cases halive
  | consumed event hl howned heq hbefore hunsent =>
      subst hl
      refine .moved (by simp) [] (by rw [heq, List.append_nil]) (by rw [heq]) (fun _ => rfl)
        fun _ => ?_
      rw [hbefore, hunsent, reported?, hunsent]
      rfl
  | converted event hl loop order hbefore hloop heq hunsent =>
      subst hl
      exact .of_converted hloop heq hbefore hunsent

theorem Step.passage {n m : Node L} {l : Label Req Resp} (h : Step n l m) : Passage n m l :=
  h.delivery.passage

/-! ### Runs -/

/-- Without a receiver the channel is empty. -/
def Node.NothingLeft (n : Node L) : Prop :=
  n.loop.eventTx.rxAlive = false → n.loop.eventTx.queue = []

theorem Passage.nothingLeft {n m : Node L} {l : Label Req Resp} (hn : n.NothingLeft)
    (h : Passage n m l) : m.NothingLeft := by
  intro hdead
  cases h with
  | took event hl hqueue hunsent halive =>
      rw [hn (halive ▸ hdead)] at hqueue
      cases hqueue
  | dropped hl hqueue halive => exact hqueue
  | moved hl new hqueue halive hroom hpass =>
      rw [halive] at hdead
      rw [hqueue, hroom hdead, hn hdead]
      rfl

theorem received?_of_ne {n m : Node L} {l : Label Req Resp} (hl : l ≠ .recvEvent) :
    received? (⟨n, l, m⟩ : Transition.Trans (Node L) (Label Req Resp)) = [] := by
  unfold received?
  split
  · exact absurd (by assumption) hl
  · rfl

theorem reportsOf_append (events more : List (NodeEvent Req)) :
    reportsOf (events ++ more) = reportsOf events ++ reportsOf more :=
  List.filter_append _ _

/-- While there is a receiver, what it takes is in front of what is on its way. -/
theorem Passage.open {n m : Node L} {l : Label Req Resp} (h : Passage n m l)
    (ha : m.loop.eventTx.rxAlive = true) : n.loop.eventTx.rxAlive = true ∧
      n.underway ++ reported? ⟨n, l, m⟩ = reportsOf (received? ⟨n, l, m⟩) ++ m.underway := by
  cases h with
  | took event hl hqueue hunsent halive =>
      subst hl
      have htook : received? (⟨n, .recvEvent, m⟩ :
          Transition.Trans (Node L) (Label Req Resp)) = [event] := by
        simp [received?, hqueue]
      have hqueue' : n.loop.eventTx.queue = [event] ++ m.loop.eventTx.queue := hqueue
      refine ⟨halive ▸ ha, ?_⟩
      rw [htook]
      simp only [reported?, Node.underway, hqueue', hunsent, reportsOf_append, List.append_nil,
        List.append_assoc]
  | dropped hl hqueue halive =>
      rw [halive] at ha
      cases ha
  | moved hl new hqueue halive hroom hpass =>
      refine ⟨halive ▸ ha, ?_⟩
      rw [received?_of_ne hl]
      simp only [Node.underway, hqueue, reportsOf_append, List.append_assoc]
      rw [hpass (halive ▸ ha), reportsOf_append]
      rfl

theorem Passage.closed {n m : Node L} {l : Label Req Resp} (hn : n.NothingLeft)
    (h : Passage n m l) (ha : ¬m.loop.eventTx.rxAlive = true) :
    reportsOf (received? ⟨n, l, m⟩) = [] := by
  cases h with
  | took event hl hqueue hunsent halive =>
      rw [hn (by simpa [halive] using ha)] at hqueue
      cases hqueue
  | dropped hl hqueue halive =>
      subst hl
      rfl
  | moved hl new hqueue halive hroom hpass =>
      rw [received?_of_ne hl]
      rfl

theorem Started.eventTx_eq {config : NodeConfig} {n : Node L} (h : Started L config n) :
    n.loop.eventTx = .new _ := by
  obtain ⟨first, loop, heq, hloop, _, hempty, _⟩ := h.built
  -- No call of the start registers an external address, so no status is sent.
  have hlistened := EventLoop.startListen_uses
    (P := fun call => ∀ addr, call ≠ .addExternalAddress addr) heq fun _ _ _ => by simp
  have hconnected := loop.connectBootstrapPeers_uses
    (P := fun call => ∀ addr, call ≠ .addExternalAddress addr) config.bootstrapPeers
    (fun _ _ _ => by simp) (fun _ _ _ => by simp) fun _ _ _ _ => by simp
  rw [hloop, (hlistened.trans hconnected).eventTx fun addr h => h addr rfl, hempty]

/-- The reports of a run pass the channel first in, first out. -/
theorem Run.fifo {config : NodeConfig} {n m : Node L}
    {π : List (Transition.Trans (Node L) (Label Req Resp))} (hs : Started L config n)
    (h : Run L n π m) :
    (m.loop.eventTx.rxAlive = true →
        reported π = reportsOf (received π) ++ m.underway) ∧
      reportsOf (received π) <+: reported π := by
  have hempty : n.underway = [] := by
    simp [Node.underway, hs.eventTx_eq, hs.fresh.phase_eq, LoopPhase.unsent, reportsOf]
  have halive : n.NothingLeft := fun hdead => by
    rw [hs.eventTx_eq] at hdead
    cases hdead
  have hreceived : reportsOf (received π) = π.flatMap fun x => reportsOf (received? x) :=
    List.filter_flatMap
  rw [hreceived]
  exact h.delivery (I := Node.NothingLeft) reportFifo
    (fun _ _ _ hn hs => hs.passage.nothingLeft hn)
    (fun _ _ _ hn hs => ⟨hs.passage.open, hs.passage.closed hn⟩) halive hempty

/-- What the loop reports reaches the receiver in order, whole and once: while there is a
receiver, the reports are those received, then those in the channel and the one being
sent; and what a receiver got before it was dropped is where the reports begin. -/
theorem reports_in_order {config : NodeConfig} {n m : Node L}
    {π : List (Transition.Trans (Node L) (Label Req Resp))} (hs : Started L config n)
    (h : Run L n π m) :
    (m.loop.eventTx.rxAlive = true → reported π =
        reportsOf (received π) ++ reportsOf (m.loop.eventTx.queue ++ m.phase.unsent)) ∧
      reportsOf (received π) <+: reported π :=
  h.fifo hs

open Loopback in
/-- The first report was received, and the second waits in the channel. -/
theorem reports_in_order_awaited :
    reported awaitSteps = [pingReport, slowReport] ∧
      reportsOf (received awaitSteps) = [pingReport] ∧
      reported awaitSteps = reportsOf (received awaitSteps) ++
        reportsOf (awaitReported.loop.eventTx.queue ++ awaitReported.phase.unsent) :=
  ⟨rfl, rfl, (reports_in_order (started []) awaitSteps_run).1 rfl⟩

end SwarmP2p
