import Mathlib.Data.List.Chain
import SwarmP2p.Model.Loopback
import SwarmP2p.Verification.EventLoop.Delivery
import SwarmP2p.Verification.Node.Run
import SwarmP2p.Verification.Swarm.Connections

/-! # Connected and disconnected

The loop counts nothing itself: it reports the connection that libp2p counts as the
first, and the loss of the one after which libp2p counts zero. What is sent is what is
reported, and the reports of a peer alternate because the counts go up and down by one. -/

namespace SwarmP2p

variable {Req Resp : Type} {L : Libp2p Req Resp}

/-! ### Connections -/

/-- The number of connections to a peer after an event. -/
def Label.countConnections (p : PeerId) (count : Nat) : Label Req Resp → Nat
  | .swarmEvent (.connectionEstablished q _) => if q = p then count + 1 else count
  | .swarmEvent (.connectionClosed q _) => if q = p then count - 1 else count
  | _ => count

/-- The number of connections to a peer after a run. -/
def connections (p : PeerId) (π : List (Transition.Trans (Node L) (Label Req Resp))) : Nat :=
  π.foldl (fun count x => x.label.countConnections p count) 0

/-- `num_established` is the number of connections to the peer after the change. -/
def Label.CountExact (count : PeerId → Nat) : Label Req Resp → Prop
  | .swarmEvent (.connectionEstablished p numEstablished) => numEstablished = count p + 1
  | .swarmEvent (.connectionClosed p numEstablished) => count p = numEstablished + 1
  | _ => True

def CountsExact (π : List (Transition.Trans (Node L) (Label Req Resp))) : Prop :=
  ∀ ρ x χ, π = ρ ++ x :: χ → x.label.CountExact fun p => connections p ρ

theorem CountsExact.nil :
    CountsExact ([] : List (Transition.Trans (Node L) (Label Req Resp))) := by
  intro ρ x χ heq
  simp at heq

theorem CountsExact.snoc {π : List (Transition.Trans (Node L) (Label Req Resp))}
    (h : CountsExact π) {x : Transition.Trans (Node L) (Label Req Resp)}
    (hx : x.label.CountExact fun p => connections p π) : CountsExact (π ++ [x]) := by
  intro ρ y χ heq
  rcases List.eq_nil_or_concat χ with rfl | ⟨χ, z, rfl⟩
  · obtain ⟨rfl, hy⟩ := List.append_inj' heq rfl
    obtain rfl := List.singleton_inj.mp hy
    exact hx
  · rw [List.concat_eq_append, ← List.cons_append, ← List.append_assoc] at heq
    exact h ρ y χ (List.append_inj' heq rfl).1

/-! ### Reports -/

/-- What a node event says about a peer: connected, disconnected, or nothing. -/
def NodeEvent.presence? (p : PeerId) : NodeEvent Req → Option Bool
  | .peerConnected q => if q = p then some true else none
  | .peerDisconnected q => if q = p then some false else none
  | _ => none

/-- What is sent about a peer in a run. -/
def presence (p : PeerId) (events : List (NodeEvent Req)) : List Bool :=
  events.filterMap (NodeEvent.presence? p)

/-- What a step makes the loop report about a peer. -/
def Label.report (p : PeerId) : Label Req Resp → List Bool
  | .swarmEvent (.connectionEstablished q numEstablished) =>
      if q = p ∧ numEstablished = 1 then [true] else []
  | .swarmEvent (.connectionClosed q numEstablished) =>
      if q = p ∧ numEstablished = 0 then [false] else []
  | _ => []

/-- Connected first, then in turns. -/
def Alternates (bs : List Bool) : Prop := (false :: bs).IsChain (· ≠ ·)

/-! ### What is sent is what is reported -/

namespace EventLoop

theorem convertRelayServerEvent_presence (p : PeerId) (event : RelayServerEvent) :
    presence p (convertRelayServerEvent event : Option (NodeEvent Req)).toList = [] := by
  cases event <;> rfl

theorem convertBehaviourEvent_presence (self : EventLoop L) (now : Nat) (order : List PeerId)
    (p : PeerId) (event : CoreBehaviourEvent Req Resp) :
    presence p (self.convertBehaviourEvent now order event).2.toList = [] := by
  unfold convertBehaviourEvent
  split
  all_goals try rfl
  exact convertRelayServerEvent_presence p _

theorem convertToNodeEvent_presence (self : EventLoop L) (now : Nat) (order : List PeerId)
    (p : PeerId) (event : SwarmEvent Req Resp) :
    presence p (self.convertToNodeEvent now order event).2.toList =
      (Label.swarmEvent event).report p := by
  cases event with
  | behaviour event => exact convertBehaviourEvent_presence self now order p event
  | connectionEstablished q numEstablished =>
      by_cases hk : numEstablished = 1 <;> by_cases hq : q = p <;>
        simp [convertToNodeEvent, presence, NodeEvent.presence?, Label.report, hk, hq]
  | connectionClosed q numEstablished =>
      by_cases hk : numEstablished = 0 <;> by_cases hq : q = p <;>
        simp [convertToNodeEvent, presence, NodeEvent.presence?, Label.report, hk, hq]
  | _ => rfl

end EventLoop

/-- An event that names a query or a request says nothing about connections. -/
theorem Label.report_of_id (p : PeerId) {event : SwarmEvent Req Resp} (h : event.id? ≠ none) :
    (Label.swarmEvent event : Label Req Resp).report p = [] := by
  cases event with
  | connectionEstablished q k => exact absurd rfl h
  | connectionClosed q k => exact absurd rfl h
  | _ => rfl

theorem Label.report_of_ne (p : PeerId) {l : Label Req Resp}
    (h : ∀ event, l ≠ .swarmEvent event) : l.report p = [] := by
  cases l with
  | swarmEvent event => exact absurd rfl (h event)
  | _ => rfl

theorem presence_append (p : PeerId) (es fs : List (NodeEvent Req)) :
    presence p (es ++ fs) = presence p es ++ presence p fs := List.filterMap_append

theorem EventLoop.Announces.presence {a b : EventLoop L} {status : List (NodeEvent Req)}
    (h : a.Announces b status) (p : PeerId) : SwarmP2p.presence p status = [] :=
  List.filterMap_eq_nil_iff.mpr fun e he => by
    rw [h.status e he]
    rfl

/-- As long as the receiver lives, what was reported is sent or about to be sent. -/
theorem Delivery.presence {n m : Node L} {l : Label Req Resp} (h : Delivery n m l)
    (halive : m.loop.eventTx.rxAlive = true) (p : PeerId) :
    n.loop.eventTx.rxAlive = true ∧
      SwarmP2p.presence p (n.entered m) ++ SwarmP2p.presence p m.phase.unsent =
        SwarmP2p.presence p n.phase.unsent ++ l.report p := by
  cases h with
  | quiet hl _ heq hunsent =>
      refine ⟨heq ▸ halive, ?_⟩
      rw [Node.entered_of_eq heq, hunsent, Label.report_of_ne p hl, List.append_nil]
      rfl
  | took event hl hqueue hunsent hsame =>
      refine ⟨hsame ▸ halive, ?_⟩
      rw [Node.entered_of_took hqueue, hunsent, Label.report_of_ne p (by simp [hl]),
        List.append_nil]
      rfl
  | dropped hl hqueue hdead =>
      rw [halive] at hdead
      cases hdead
  | sent event hl _ hbefore hsent hunsent =>
      obtain ⟨ha, _⟩ := (Channel.trySend_ok_iff _ _ _).mp hsent
      refine ⟨ha.1, ?_⟩
      rw [Node.entered_of_sent hsent, hbefore, hunsent, Label.report_of_ne p hl]
      rfl
  | lost hl _ hdead heq =>
      rw [heq, hdead] at halive
      cases halive
  | consumed event hl howned heq hbefore hunsent =>
      refine ⟨heq ▸ halive, ?_⟩
      rw [Node.entered_of_eq heq, hbefore, hunsent, hl, Label.report_of_id p howned]
      rfl
  | converted event hl loop order hbefore hloop heq hunsent =>
      have ha := Node.announces hloop heq
      refine ⟨?_, ?_⟩
      · rw [← heq, ← ha.rxAlive, halive]
      · rw [ha.presence, hbefore, hunsent, hl, loop.convertToNodeEvent_presence]
        rfl

theorem sentEvents_presence {n m : Node L}
    {π : List (Transition.Trans (Node L) (Label Req Resp))} (h : Run L n π m)
    (hn : n.phase.unsent = []) (halive : m.loop.eventTx.rxAlive = true) (p : PeerId) :
    presence p (sentEvents π) ++ presence p m.phase.unsent =
      π.flatMap fun x => x.label.report p := by
  induction h with
  | nil =>
      rw [hn]
      rfl
  | @snoc π t l u hp hs ih =>
      obtain ⟨hbefore, hstep⟩ := hs.delivery.presence halive p
      rw [sentEvents, List.flatMap_append, presence_append, List.append_assoc,
        List.flatMap_append, ← ih hbefore]
      simp only [List.flatMap_singleton, List.append_assoc]
      rw [hstep]
      rfl

/-! ### Reports alternate -/

/-- A report says what has changed: whether there is a connection. -/
theorem Label.CountExact.report {count : PeerId → Nat} {l : Label Req Resp}
    (h : l.CountExact count) (p : PeerId) :
    (l.report p = [] ∧ (0 < l.countConnections p (count p) ↔ 0 < count p)) ∨
      (l.report p = [decide (0 < l.countConnections p (count p))] ∧
        ¬(0 < l.countConnections p (count p) ↔ 0 < count p)) := by
  cases l with
  | swarmEvent event =>
      cases event with
      | connectionEstablished q numEstablished =>
          obtain rfl : numEstablished = count q + 1 := h
          by_cases hq : q = p
          · subst hq
            by_cases hk : count q = 0
            · exact .inr ⟨by simp [Label.report, countConnections, hk],
                by simp [countConnections, hk]⟩
            · exact .inl ⟨by simp [Label.report, hk],
                by simp [countConnections, Nat.pos_iff_ne_zero, hk]⟩
          · exact .inl ⟨by simp [Label.report, hq], by simp [countConnections, hq]⟩
      | connectionClosed q numEstablished =>
          have hcount : count q = numEstablished + 1 := h
          by_cases hq : q = p
          · subst hq
            by_cases hk : numEstablished = 0
            · exact .inr ⟨by simp [Label.report, countConnections, hcount, hk],
                by simp [countConnections, hcount, hk]⟩
            · exact .inl ⟨by simp [Label.report, hk],
                by simp [countConnections, hcount, Nat.pos_iff_ne_zero, hk]⟩
          · exact .inl ⟨by simp [Label.report, hq], by simp [countConnections, hq]⟩
      | _ => exact .inl ⟨rfl, .rfl⟩
  | _ => exact .inl ⟨rfl, .rfl⟩

theorem Alternates.append {bs : List Bool} {b : Bool} (h : Alternates bs)
    (hlast : (false :: bs).getLast? = some (!b)) : Alternates (bs ++ [b]) := by
  refine List.isChain_append.mpr ⟨h, List.isChain_singleton b, ?_⟩
  intro x hx y hy
  rw [hlast] at hx
  obtain rfl := Option.some.inj hx
  obtain rfl := Option.some.inj hy
  simp

theorem Alternates.of_append {bs cs : List Bool} (h : Alternates (bs ++ cs)) :
    Alternates bs := by
  have hchain : ((false :: bs) ++ cs).IsChain (· ≠ ·) := h
  exact hchain.left_of_append

theorem CountsExact.alternates
    {π : List (Transition.Trans (Node L) (Label Req Resp))} (h : CountsExact π) (p : PeerId) :
    Alternates (π.flatMap fun x => x.label.report p) ∧
      (false :: π.flatMap fun x => x.label.report p).getLast? =
        some (decide (0 < connections p π)) := by
  induction π using List.reverseRecOn with
  | nil => exact ⟨List.isChain_singleton false, rfl⟩
  | append_singleton π x ih =>
      obtain ⟨hchain, hlast⟩ := ih fun ρ y χ heq => h ρ y (χ ++ [x]) (by simp [heq])
      have hcount : connections p (π ++ [x]) =
          x.label.countConnections p (connections p π) := by
        simp [connections]
      rw [List.flatMap_append, List.flatMap_singleton, hcount]
      rcases (h π x [] rfl).report p with ⟨hnone, hsame⟩ | ⟨hsome, hchanged⟩
      · rw [hnone, List.append_nil, decide_eq_decide.mpr hsame]
        exact ⟨hchain, hlast⟩
      · rw [hsome]
        refine ⟨hchain.append (hlast.trans ?_), ?_⟩
        · rw [Option.some_inj]
          grind
        · rw [← List.cons_append, List.getLast?_append]
          rfl

/-! ### Runs -/

/-- What is sent about a peer alternates, beginning with a connection; the last report says
whether there is one; and no command takes a connection event away. -/
theorem presence_alternates {config : NodeConfig} {n m : Node L}
    {π : List (Transition.Trans (Node L) (Label Req Resp))} (hs : Started L config n)
    (h : Run L n π m) (hcounts : CountsExact π) (halive : m.loop.eventTx.rxAlive = true) :
    (∀ p, Alternates (presence p (sentEvents π))) ∧
      (m.phase.unsent = [] → ∀ p,
        ((presence p (sentEvents π)).getLast? = some true ↔ 0 < connections p π)) ∧
      ∀ x ∈ π, ∀ event, x.label = .swarmEvent event → event.IsConnection →
        ∀ t ∈ x.pre.loop.activeCommands, (t.onEvent L event).remaining = some event := by
  have hn : n.phase.unsent = [] := by rw [hs.fresh.phase_eq]; rfl
  have hsent := sentEvents_presence h hn halive
  refine ⟨fun p => ?_, fun hunsent p => ?_, ?_⟩
  · have halt := (hcounts.alternates p).1
    rw [← hsent p] at halt
    exact halt.of_append
  · have hlast := (hcounts.alternates p).2
    have hnone : presence p ([] : List (NodeEvent Req)) = [] := rfl
    rw [← hsent p, hunsent, hnone, List.append_nil, List.getLast?_cons,
      Option.some_inj] at hlast
    cases hbs : (presence p (sentEvents π)).getLast? with
    | none =>
        rw [hbs] at hlast
        simpa using hlast
    | some b =>
        rw [hbs] at hlast
        obtain rfl : b = decide (0 < connections p π) := hlast
        simp
  · intro x hx event hl hevent t ht
    cases hr : (t.onEvent L event).remaining with
    | some e => rw [t.onEvent_remaining event e hr]
    | none =>
        obtain ⟨id, _, hid⟩ := Command.owns_of_consumed hr
        rw [hevent.id?_eq] at hid
        cases hid

/-- A peer connects, and the report of it is sent. -/
theorem presence_alternates_connected :
    let connected := (Loopback.bootstrapping.sweep.withSwarmState
      { connected := [Loopback.peer] }).handleSwarmEvent [] (.connectionEstablished Loopback.peer 1)
    let reported := connected.pollSend (.peerConnected Loopback.peer)
    let π : List (Transition.Trans (Node loopback) (Label String String)) :=
      [⟨Loopback.bootstrapping, .sweep, Loopback.bootstrapping.sweep⟩,
        ⟨Loopback.bootstrapping.sweep, .swarmEvent (.connectionEstablished Loopback.peer 1),
          connected⟩,
        ⟨connected, .beginSend, reported⟩]
    (presence Loopback.peer (sentEvents π)).getLast? = some true ↔
      0 < connections Loopback.peer π := by
  intro connected reported π
  have hconnected : Step Loopback.bootstrapping.sweep
      (.swarmEvent (.connectionEstablished Loopback.peer 1)) connected :=
    .swarmEvent rfl (.inr ⟨by decide, rfl⟩) ⟨List.nodup_nil, fun _ => .rfl⟩
  have hrun : Run loopback Loopback.bootstrapping π reported :=
    ((Transition.Path.single (.sweep rfl)).snoc hconnected).snoc (.beginSend rfl)
  have hcounts : CountsExact π :=
    ((CountsExact.nil.snoc (x := ⟨_, .sweep, _⟩) trivial).snoc
      (x := ⟨_, .swarmEvent (.connectionEstablished Loopback.peer 1), _⟩) rfl).snoc
      (x := ⟨_, .beginSend, _⟩) trivial
  exact (presence_alternates (Loopback.started _) hrun hcounts rfl).2.1 rfl Loopback.peer

end SwarmP2p
