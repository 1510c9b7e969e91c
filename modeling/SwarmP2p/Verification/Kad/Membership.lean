import SwarmP2p.Library.History
import SwarmP2p.Model.Loopback
import SwarmP2p.Verification.EventLoop.Uses
import SwarmP2p.Verification.Node.Run

/-! # Who gets into the routing table

Three doors are the node's own: the bootstrap list, the command that registers a Kad
server, and Identify, which checks the protocol version. Through the fourth, libp2p
inserts a peer by itself and reports it by `RoutingUpdated`, and nobody checks. -/

namespace SwarmP2p

variable {Req Resp : Type} {L : Libp2p Req Resp}

/-! ### Admission -/

/-- A step runs `add_infrastructure_peer` for the peer with the Kad role. -/
def Node.RegistersKad (n : Node L) (p : PeerId) : Label Req Resp → Prop
  | .handleCommand => ∃ c handle, n.phase = .running ⟨.addInfrastructurePeer c, handle⟩ ∧
      c.roles.kadServer = true ∧ c.peerId = p
  | _ => False

theorem Node.RegistersKad.label_eq {n : Node L} {p : PeerId} {l : Label Req Resp}
    (h : n.RegistersKad p l) : l = .handleCommand := by
  cases l with
  | handleCommand => rfl
  | _ => exact h.elim

/-- The peer is one of the node's own network, by what has happened so far. -/
inductive Admitted (config : NodeConfig)
    (past : List (Transition.Trans (Node L) (Label Req Resp))) (p : PeerId) : Prop where
  | bootstrap {addr} (h : (p, addr) ∈ config.bootstrapPeers)
  | registered {x} (hx : x ∈ past) (h : x.pre.RegistersKad p x.label)
  | identified {x} (hx : x ∈ past) (h : x.label.identifies config.protocolVersion p = true)

/-- libp2p reports that the peer is in the routing table. -/
def Label.Updates (p : PeerId) (l : Label Req Resp) : Prop :=
  ∃ addresses, l = .swarmEvent (.behaviour (.kad (.routingUpdated p addresses)))

/-- The peer has been inserted by the node or by libp2p. -/
def InTable (past : List (Transition.Trans (Node L) (Label Req Resp))) (n : Node L)
    (p : PeerId) : Prop :=
  (∃ addr, .kadAddAddress p addr ∈ n.loop.swarm.calls) ∨ ∃ x ∈ past, x.label.Updates p

/-- Addresses of the peer have been put into the address book on a `RoutingUpdated`. -/
def Copied (past : List (Transition.Trans (Node L) (Label Req Resp))) (p : PeerId) : Prop :=
  ∃ x ∈ past, (∃ q, x.label.Updates q) ∧ ∃ addr, .addPeerAddress p addr ∈
    x.post.loop.swarm.calls.drop x.pre.loop.swarm.calls.length

/-- Nobody but the admitted is in the routing table, or in the address book because of
it. -/
def TableIsolated (config : NodeConfig)
    (past : List (Transition.Trans (Node L) (Label Req Resp))) (n : Node L) : Prop :=
  ∀ p, InTable past n p ∨ Copied past p → Admitted config past p

/-- libp2p inserts admitted peers only. -/
def UpdatesAdmitted (config : NodeConfig)
    (past : List (Transition.Trans (Node L) (Label Req Resp))) (l : Label Req Resp) : Prop :=
  ∀ p, l.Updates p → Admitted config past p

def observePast (past : List (Transition.Trans (Node L) (Label Req Resp)))
    (x : Transition.Trans (Node L) (Label Req Resp)) :
    List (Transition.Trans (Node L) (Label Req Resp)) := past ++ [x]

theorem Admitted.snoc {config : NodeConfig}
    {past : List (Transition.Trans (Node L) (Label Req Resp))} {p : PeerId}
    (h : Admitted config past p) (x : Transition.Trans (Node L) (Label Req Resp)) :
    Admitted config (past ++ [x]) p := by
  cases h with
  | bootstrap h => exact .bootstrap h
  | registered hx h => exact .registered (List.mem_append_left _ hx) h
  | identified hx h => exact .identified (List.mem_append_left _ hx) h

/-! ### The node's own doors -/

/-- What the start puts into the table is configured. -/
theorem Started.kadPeers {config : NodeConfig} {n : Node L} (h : Started L config n) :
    n.loop.protocolVersion = config.protocolVersion ∧
      ∀ p addr, .kadAddAddress p addr ∈ n.loop.swarm.calls →
        (p, addr) ∈ config.bootstrapPeers := by
  obtain ⟨loop, hnew, huses⟩ := h.uses
    (P := fun call => ∀ p addr, call = .kadAddAddress p addr → (p, addr) ∈ config.bootstrapPeers)
    (fun _ _ _ _ he => (by cases he)) (fun _ he _ _ heq => (by cases heq; exact he))
    (fun _ _ _ _ he => (by cases he)) fun _ _ _ _ _ he => (by cases he)
  refine ⟨huses.same.protocolVersion.trans hnew.protocolVersion, fun p addr hc => ?_⟩
  rcases huses.swarm.mem_calls hc with hc | hc
  · rw [hnew.calls] at hc
    cases hc
  · exact hc p addr rfl

/-- A peer that a step puts into the table is admitted by that step. -/
theorem Step.kadPeers {config : NodeConfig} {n m : Node L} {l : Label Req Resp}
    (h : Step n l m) (hv : n.loop.protocolVersion = config.protocolVersion) {p : PeerId}
    {addr : Multiaddr} (hc : .kadAddAddress p addr ∈ m.loop.swarm.calls) :
    .kadAddAddress p addr ∈ n.loop.swarm.calls ∨ n.RegistersKad p l ∨
      l.identifies config.protocolVersion p = true := by
  obtain ⟨state, hm⟩ := h.moved
  refine (hm.uses.mem_calls hc).imp_right fun hnew => ?_
  cases l with
  | handleCommand =>
      obtain ⟨_, _, he⟩ | ⟨⟨command, handle⟩, hrunning, c, rfl, hkad, rfl, _⟩ := hnew
      · cases he
      · exact .inl ⟨c, handle, hrunning, hkad, rfl⟩
  | swarmEvent event =>
      obtain ⟨info, rfl, hversion⟩ := hnew
      exact .inr (by simp [Label.identifies, hversion, hv])
  | _ => exact hnew.elim

/-! ### The fourth door -/

/-- The handler copies addresses of the reported peer and of nobody else. -/
theorem Step.copied {n m : Node L} {q : PeerId} {addresses : List Multiaddr}
    (h : Step n (.swarmEvent (.behaviour (.kad (.routingUpdated q addresses)))) m)
    {p : PeerId} {addr : Multiaddr} (hc : .addPeerAddress p addr ∈
      m.loop.swarm.calls.drop n.loop.swarm.calls.length) : p = q := by
  obtain ⟨state, commands, order, _, _, hloop⟩ := h.converted rfl
  have huses : Swarm.Uses (fun call => ∀ r a, call = .addPeerAddress r a → r = q)
      (n.offered state commands).swarm m.loop.swarm := by
    rw [hloop]
    refine .foldl addresses (fun s a _ => .addPeerAddress .refl _ _ ?_) _
    intro r b he
    exact (SwarmCall.addPeerAddress.inj he).1.symm
  obtain ⟨log, hlog, hall⟩ := huses.calls
  rw [hlog] at hc
  have hmem : .addPeerAddress p addr ∈ log := by
    rwa [show (n.offered state commands).swarm.calls = n.loop.swarm.calls from rfl,
      List.drop_left] at hc
  exact hall _ hmem p addr rfl

theorem TableIsolated.step {config : NodeConfig}
    {past : List (Transition.Trans (Node L) (Label Req Resp))} {n m : Node L}
    {l : Label Req Resp} (h : TableIsolated config past n)
    (hv : n.loop.protocolVersion = config.protocolVersion) (hs : Step n l m)
    (hc : UpdatesAdmitted config past l) : TableIsolated config (past ++ [⟨n, l, m⟩]) m := by
  have hlast : ⟨n, l, m⟩ ∈ past ++ [⟨n, l, m⟩] :=
    List.mem_append_right _ (List.mem_singleton_self _)
  rintro p ((⟨addr, hcall⟩ | ⟨x, hx, hupdates⟩) | ⟨x, hx, hupdates, addr, hcall⟩)
  · rcases hs.kadPeers hv hcall with hold | hregisters | hidentifies
    · exact (h p (.inl (.inl ⟨addr, hold⟩))).snoc _
    · exact .registered hlast hregisters
    · exact .identified hlast hidentifies
  · rcases List.mem_append.mp hx with hx | hx
    · exact (h p (.inl (.inr ⟨x, hx, hupdates⟩))).snoc _
    · obtain rfl := List.mem_singleton.mp hx
      exact (hc p hupdates).snoc _
  · rcases List.mem_append.mp hx with hx | hx
    · exact (h p (.inr ⟨x, hx, hupdates, addr, hcall⟩)).snoc _
    · obtain rfl := List.mem_singleton.mp hx
      obtain ⟨q, addresses, rfl⟩ := hupdates
      obtain rfl := hs.copied hcall
      exact (hc p ⟨addresses, rfl⟩).snoc _

/-- A report about a peer does not admit it. -/
theorem Label.Updates.not_tableIsolated {config : NodeConfig}
    {past : List (Transition.Trans (Node L) (Label Req Resp))} {n m : Node L}
    {l : Label Req Resp} {p : PeerId} (h : l.Updates p) (hp : ¬Admitted config past p) :
    ¬TableIsolated config (past ++ [⟨n, l, m⟩]) m := by
  intro hi
  obtain ⟨addresses, rfl⟩ := h
  have hadmitted := hi p (.inl (.inr ⟨_, List.mem_append_right _ (List.mem_singleton_self _),
    addresses, rfl⟩))
  cases hadmitted with
  | bootstrap h => exact hp (.bootstrap h)
  | registered hx h =>
      rcases List.mem_append.mp hx with hx | hx
      · exact hp (.registered hx h)
      · obtain rfl := List.mem_singleton.mp hx
        exact h
  | identified hx h =>
      rcases List.mem_append.mp hx with hx | hx
      · exact hp (.identified hx h)
      · obtain rfl := List.mem_singleton.mp hx
        cases h

/-! ### Runs -/

/-- The routing table is isolated in every state, exactly as long as libp2p inserts
admitted peers only. -/
theorem table_isolated_iff {config : NodeConfig} {n m : Node L}
    {π : List (Transition.Trans (Node L) (Label Req Resp))} (hs : Started L config n)
    (h : Run L n π m) :
    (∀ x ∈ Transition.watch observePast [] π, TableIsolated config x.post.1 x.post.2) ↔
      ∀ x ∈ Transition.watch observePast [] π, UpdatesAdmitted config x.pre.1 x.label := by
  have hw := h.watch observePast []
  refine hw.safe_iff_meets
    (I := fun a => a.2.loop.protocolVersion = config.protocolVersion)
    (P := fun a => TableIsolated config a.1 a.2) (C := fun a l => UpdatesAdmitted config a.1 l)
    ?_ ?_ ?_ ?_ ?_
  · rintro a l b ha ⟨hstep, _⟩
    obtain ⟨_, hm⟩ := hstep.moved
    exact hm.same.protocolVersion.trans ha
  · rintro a l b hv ha ⟨hstep, hpast⟩ hc
    rw [hpast]
    exact ha.step hv hstep hc
  · rintro a l b _ ⟨hstep, hpast⟩ hc
    rw [hpast]
    obtain ⟨p, hupdates, hp⟩ : ∃ p, l.Updates p ∧ ¬Admitted config a.1 p := by
      simpa [UpdatesAdmitted] using hc
    exact hupdates.not_tableIsolated hp
  · exact hs.kadPeers.1
  · rintro p ((⟨addr, hcall⟩ | ⟨x, hx, _⟩) | ⟨x, hx, _⟩)
    · exact .bootstrap (hs.kadPeers.2 p addr hcall)
    · cases hx
    · cases hx

/-! ### A peer of another network -/

namespace Loopback

def strangerState : State := { connected := [peer] }

def strangerAddr : Multiaddr := [.ip4 ⟨10, 0, 0, 2⟩, .other 6 [15, 161]]

def strangerInfo : IdentifyInfo :=
  ⟨"/stranger/1.0.0", "agent", [strangerAddr], ["/ipfs/kad/1.0.0"]⟩

def strangerConnected : Node loopback :=
  (node []).reported strangerState (.connectionEstablished peer 1) (.peerConnected peer)

/-- The node does not put the peer into its table. -/
def strangerIdentified : Node loopback :=
  strangerConnected.reported strangerState (.behaviour (.identifyReceived peer strangerInfo))
    (.identifyReceived peer "agent" "/stranger/1.0.0" [strangerAddr] ["/ipfs/kad/1.0.0"])

/-- What happens up to the report about the peer. -/
def strangerLabels : List (Label String String) :=
  [.sweep, .swarmEvent (.connectionEstablished peer 1), .beginSend,
    .sweep, .swarmEvent (.behaviour (.identifyReceived peer strangerInfo)), .beginSend,
    .sweep, .swarmEvent (.behaviour (.kad (.routingUpdated peer [strangerAddr])))]

theorem stranger_not_admitted
    {past : List (Transition.Trans (Node loopback) (Label String String))}
    (h : past.map (·.label) = strangerLabels) : ¬Admitted (config []) past peer := by
  intro hadmitted
  cases hadmitted with
  | bootstrap h => cases h
  | @registered x hx hkad =>
      have hl : x.label ∈ strangerLabels := h ▸ List.mem_map_of_mem hx
      rw [hkad.label_eq] at hl
      simp [strangerLabels] at hl
  | @identified x hx hsame =>
      have hl : x.label ∈ strangerLabels := h ▸ List.mem_map_of_mem hx
      obtain ⟨info, heq, hv⟩ := Label.eq_of_identifies hsame
      rw [heq] at hl
      obtain rfl : info = strangerInfo := by simpa [strangerLabels] using hl
      exact absurd hv (by decide)

def updatedEvent : SwarmEvent String String :=
  .behaviour (.kad (.routingUpdated peer [strangerAddr]))

theorem bootstrapping_updated :
    Run loopback bootstrapping (bootstrapping.turnSteps bootstrapping.loop.swarm.state
      updatedEvent) (bootstrapping.turn bootstrapping.loop.swarm.state updatedEvent) :=
  bootstrapping.turn_run _ _ rfl rfl rfl

end Loopback

open Loopback in
/-- libp2p inserts a peer with another protocol version. -/
theorem stranger_in_table :
    ∃ (n m : Node loopback) (π : List (Transition.Trans (Node loopback) (Label String String))),
      Started loopback (config []) n ∧ Run loopback n π m ∧
        ¬∀ x ∈ Transition.watch observePast [] π, TableIsolated (config []) x.post.1 x.post.2 := by
  have hconnected := (node []).reported_run strangerState (.connectionEstablished peer 1)
    (.peerConnected peer) rfl (.inl rfl) rfl rfl
  have hidentified := strangerConnected.reported_run strangerState
    (.behaviour (.identifyReceived peer strangerInfo))
    (.identifyReceived peer "agent" "/stranger/1.0.0" [strangerAddr] ["/ipfs/kad/1.0.0"])
    rfl rfl rfl rfl
  have hupdated := strangerIdentified.turn_run strangerState updatedEvent rfl rfl rfl
  refine ⟨_, _, _, started [], (hconnected.append hidentified).append hupdated, fun hall => ?_⟩
  have hlast := hall _ (List.mem_of_getLast? rfl)
  exact stranger_not_admitted rfl
    (hlast peer (.inl (.inr ⟨_, List.mem_of_getLast? rfl, [strangerAddr], rfl⟩)))

open Loopback in
/-- A bootstrap peer may be inserted. -/
theorem table_isolated_iff_bootstrap :
    TableIsolated (config [(peer, [])])
      (bootstrapping.turnSteps bootstrapping.loop.swarm.state updatedEvent)
      (bootstrapping.turn bootstrapping.loop.swarm.state updatedEvent) := by
  refine (table_isolated_iff (started _) bootstrapping_updated).mpr ?_ _
    (List.mem_of_getLast? rfl)
  refine List.forall_mem_cons.mpr ⟨fun p ⟨_, h⟩ => (by cases h), ?_⟩
  refine List.forall_mem_singleton.mpr fun p ⟨_, h⟩ => ?_
  cases h
  exact .bootstrap (List.mem_singleton_self _)

end SwarmP2p
