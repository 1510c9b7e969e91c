import SwarmP2p.Verification.Call.Prompt
import SwarmP2p.Verification.EventLoop.Received
import SwarmP2p.Verification.Peer.Presence
import SwarmP2p.Verification.Relay.Registrations

/-! # Two views of a connection

An application learns of connections from the node events and from `is_connected`. Both
agree: the answer is what the last report about the peer says, among the reports made when
the command ran. -/

namespace SwarmP2p

variable {Req Resp : Type} {L : Libp2p Req Resp}

/-- A step reports on a peer what its event says about it. -/
theorem Step.reported_presence {n m : Node L} {l : Label Req Resp} (h : Step n l m)
    (p : PeerId) : presence p (reported? ⟨n, l, m⟩) = l.report p := by
  cases l with
  | swarmEvent event =>
      cases h.delivery with
      | quiet hl | sent _ hl | lost hl => exact absurd rfl (hl event)
      | took _ hl | dropped hl => cases hl
      | consumed event' hl howned heq hbefore hunsent =>
          obtain rfl := Label.swarmEvent.inj hl
          rw [reported?, hunsent, Label.report_of_id p howned]
          rfl
      | converted event' hl loop order hbefore hloop heq hunsent =>
          obtain rfl := Label.swarmEvent.inj hl
          rw [reported?, hunsent, loop.convertToNodeEvent_presence]
  | _ => rfl

/-- A report says that the peer is connected exactly when a step makes it so. -/
theorem Label.connects_eq (p : PeerId) (l : Label Req Resp) (reports : List Bool) :
    (reports ++ l.report p).getLast?.getD false =
      l.connects p (reports.getLast?.getD false) := by
  cases l with
  | swarmEvent event =>
      cases event with
      | connectionEstablished q k =>
          by_cases h : q = p ∧ k = 1 <;> simp [Label.report, Label.connects, h]
      | connectionClosed q k =>
          by_cases h : q = p ∧ k = 0 <;> simp [Label.report, Label.connects, h]
      | _ => simp [Label.report, Label.connects]
  | _ => simp [Label.report, Label.connects]

theorem Started.not_connected {config : NodeConfig} {count : L.State → PeerId → Nat}
    (hcount : CountsConnections L count) {n : Node L} (h : Started L config n) (p : PeerId) :
    n.loop.swarm.isConnected p = false := by
  obtain ⟨loop, hnew, huses⟩ := h.uses (P := fun _ => True)
    (fun _ _ => trivial) (fun _ _ => trivial) (fun _ _ => trivial) fun _ _ _ => trivial
  rw [hcount.isConnected_eq, hcount.called huses.swarm, hcount.initial hnew.state]
  rfl

/-- The last report says whether the peer is connected. -/
theorem Run.reported_connected {config : NodeConfig} {count : L.State → PeerId → Nat}
    (hcount : CountsConnections L count) {n m : Node L}
    {π : List (Transition.Trans (Node L) (Label Req Resp))} (hs : Started L config n)
    (h : Run L n π m) (p : PeerId) :
    (presence p (reported π)).getLast?.getD false = m.loop.swarm.isConnected p := by
  induction h with
  | nil => exact (hs.not_connected hcount p).symm
  | @snoc π a l b hp hstep ih =>
      have hlast : presence p (reported (π ++ [⟨a, l, b⟩])) =
          presence p (reported π) ++ l.report p := by
        rw [reported, List.flatMap_append, List.flatMap_singleton, presence_append,
          hstep.reported_presence p]
        rfl
      rw [hlast, hstep.isConnected_eq hcount, ← ih, l.connects_eq p]

/-- `is_connected` answers what the last report about the peer says, of the reports made
before a moment that lies between the first poll of the call and its last. -/
theorem is_connected_agrees {config : NodeConfig} {count : L.State → PeerId → Nat}
    (hcount : CountsConnections L count) {n m : Node L}
    {π : List (Transition.Trans (Node L) (Label Req Resp))} (hs : Started L config n)
    (h : Run L n π m) {id : HandleId} {c : ClientCall Req Resp} {p : PeerId}
    {r : Result (Output Resp)} (hc : m.calls id = some c) (hcall : c.call = .isConnected p)
    (hp : c.phase = .ready r) :
    ∃ χ a ρ b, Executes n m π ⟨.isConnected ⟨p⟩, id⟩ χ a ρ ∧ r = .ok (.connected b) ∧
      (b = true ↔ (presence p (reported χ)).getLast? = some true) ∧
      (∃ x ∈ χ, ∃ waker, x.label = .firstPoll id waker) ∧ ∃ x ∈ ρ, x.label = .handlePoll id := by
  have hcommand : c.call.command c.taken = some (.isConnected ⟨p⟩) := by
    rw [hcall]
    rfl
  obtain ⟨χ, a, ρ, he, hr, hfirst, hlast⟩ := h.prompt_atomic hs hc hcommand rfl hp
  refine ⟨χ, a, ρ, a.loop.swarm.isConnected p, he, (Option.some.inj hr).symm, ?_, hfirst, hlast⟩
  rw [← Run.reported_connected hcount hs he.before p]
  cases (presence p (reported χ)).getLast? <;> simp

/-! ### A peer that has connected -/

namespace Loopback

def viewQueued : Node counting :=
  ((up openNode).openCall 0 (.isConnected peer)).firstPoll 0
    ⟨.isConnected peer, none, .created (.isConnected ⟨peer⟩)⟩ (.isConnected ⟨peer⟩) 0

def viewReceived : Node counting :=
  { viewQueued.sweep with
    loop := { viewQueued.sweep.loop with commandRx := .new _ }
    phase := .running ⟨.isConnected ⟨peer⟩, 0⟩ }

def viewRun : Node counting := viewReceived.handleCommand ⟨.isConnected ⟨peer⟩, 0⟩

def viewReady : Node counting := viewRun.handlePoll 0 ⟨.isConnected peer, none, .polling 0⟩ 0

theorem view_run : ∃ π, Run counting openNode π viewReady := by
  have hup : Run counting openNode (upSteps openNode) (up openNode) :=
    up_run rfl (.inl rfl) rfl rfl
  have hopen : Step (up openNode) (.openCall 0 (.isConnected peer)) _ :=
    .openCall (.isConnected peer) (by decide) rfl
  have hpoll : Step _ (.firstPoll 0 0) viewQueued := .firstPoll 0 rfl rfl
  have hrecv : Step viewQueued.sweep .recvCommand viewReceived := .recvCommand rfl rfl
  exact ⟨_, (((((hup.snoc hopen).snoc hpoll).snoc (.sweep rfl)).snoc hrecv).snoc
    (.handleCommand rfl)).snoc (.handlePoll rfl rfl)⟩

end Loopback

open Loopback in
theorem is_connected_agrees_asked :
    ∃ π χ a ρ, Executes openNode viewReady π ⟨.isConnected ⟨peer⟩, 0⟩ χ a ρ ∧
      (presence peer (reported χ)).getLast? = some true := by
  obtain ⟨π, hrun⟩ := view_run
  have hcall : viewReady.calls 0 =
      some ⟨.isConnected peer, none, .ready (.ok (.connected true))⟩ := rfl
  obtain ⟨χ, a, ρ, b, he, hb, hagrees, _⟩ :=
    is_connected_agrees counting_counts openStarted hrun hcall rfl rfl
  obtain rfl := Output.connected.inj (Except.ok.inj hb)
  exact ⟨π, χ, a, ρ, he, hagrees.mp rfl⟩

end SwarmP2p
