import SwarmP2p.Library.History
import SwarmP2p.Verification.EventLoop.Uses
import SwarmP2p.Verification.Node.Run
import SwarmP2p.Verification.Swarm.Connections

/-! # Connection sessions of relays

A session of a peer lasts from its first connection to the loss of its last one. The log
of a run keeps, for every peer, the addresses registered for relay and what has happened
in the current session. -/

namespace SwarmP2p

variable {Req Resp : Type} {L : Libp2p Req Resp}

/-! ### Listen requests -/

def SwarmCall.listenOn? : SwarmCall Resp → Option Multiaddr
  | .listenOn addr _ => some addr
  | _ => none

/-- The addresses on which the node has asked to listen, oldest first. -/
def Swarm.listenRequests (s : Swarm L) : List Multiaddr := s.calls.filterMap SwarmCall.listenOn?

/-- The addresses on which it has asked to listen between two states. -/
def Node.listenRequests (n m : Node L) : List Multiaddr :=
  m.loop.swarm.listenRequests.drop n.loop.swarm.listenRequests.length

theorem Swarm.Uses.listenRequests_eq {P : SwarmCall Resp → Prop} {s t : Swarm L}
    (h : Uses P s t) (hp : ∀ addr accepted, ¬P (.listenOn addr accepted)) :
    t.listenRequests = s.listenRequests := by
  refine h.filterMap_calls fun call hcall => ?_
  cases call with
  | listenOn addr accepted => exact absurd hcall (hp addr accepted)
  | _ => rfl

theorem EventLoop.requestRelayReservations_listenRequests (self : EventLoop L)
    (peerId : PeerId) (addrs : List Multiaddr) :
    (self.requestRelayReservations peerId addrs).swarm.listenRequests =
      self.swarm.listenRequests ++ addrs.map (relayAddr peerId) := by
  show (addrs.foldl (fun swarm addr => (swarm.listenOn (relayAddr peerId addr)).1)
    self.swarm).listenRequests = _
  generalize self.swarm = swarm
  induction addrs generalizing swarm with
  | nil => exact (List.append_nil _).symm
  | cons addr addrs ih =>
      have hone : (swarm.listenOn (relayAddr peerId addr)).1.listenRequests =
          swarm.listenRequests ++ [relayAddr peerId addr] := List.filterMap_append
      rw [List.foldl_cons, ih, hone, List.append_assoc]
      rfl

/-! ### The log -/

/-- What has happened since the first connection to a peer. -/
structure Session where
  requested : List Multiaddr
  /-- The peer has sent an Identify with the node's own protocol version. -/
  identified : Bool

structure RelayLog where
  registered : PeerId → List Multiaddr
  session : PeerId → Option Session

def RelayLog.initial (config : NodeConfig) : RelayLog where
  registered p := (config.bootstrapPeers.filter (·.1 = p)).map Prod.snd
  session _ := none

/-- The addresses that a step registers for relay at a peer. -/
def Node.registers (n : Node L) (p : PeerId) : Label Req Resp → List Multiaddr
  | .handleCommand =>
      match n.phase with
      | .running ⟨.addInfrastructurePeer c, _⟩ =>
          if c.peerId = p ∧ c.roles.relayServer = true then c.addrs else []
      | _ => []
  | _ => []

def observeSession (version : String) (p : PeerId) (session : Option Session)
    (x : Transition.Trans (Node L) (Label Req Resp)) : Option Session :=
  match x.label with
  | .swarmEvent (.connectionEstablished q numEstablished) =>
      if q = p ∧ numEstablished = 1 then some ⟨[], false⟩ else session
  | .swarmEvent (.connectionClosed q numEstablished) =>
      if q = p ∧ numEstablished = 0 then none else session
  | label => session.map fun s =>
      ⟨s.requested ++ x.pre.listenRequests x.post, s.identified || label.identifies version p⟩

def RelayLog.observe (version : String) (log : RelayLog)
    (x : Transition.Trans (Node L) (Label Req Resp)) : RelayLog where
  registered p := log.registered p ++ x.pre.registers p x.label
  session p := observeSession version p (log.session p) x

/-! ### Connected peers -/

/-- Whether a peer is connected after a step, as libp2p reports it. -/
def Label.connects (p : PeerId) (was : Bool) : Label Req Resp → Bool
  | .swarmEvent (.connectionEstablished q numEstablished) =>
      if q = p ∧ numEstablished = 1 then true else was
  | .swarmEvent (.connectionClosed q numEstablished) =>
      if q = p ∧ numEstablished = 0 then false else was
  | _ => was

theorem Label.connects_of_not {p : PeerId} {was : Bool} {l : Label Req Resp}
    (hl : ∀ event, l = .swarmEvent event → ¬event.IsConnection) : l.connects p was = was := by
  unfold connects
  split
  · exact absurd trivial (hl _ rfl)
  · exact absurd trivial (hl _ rfl)
  · rfl

/-- Any step that is not about a connection keeps the counts. -/
theorem SwarmMoved.count_eq {count : L.State → PeerId → Nat} (hcount : CountsConnections L count)
    {n m : Node L} {l : Label Req Resp} {state : L.State} (h : SwarmMoved n m l state)
    (hl : ∀ event, l = .swarmEvent event → ¬event.IsConnection) :
    count m.loop.swarm.state = count n.loop.swarm.state := by
  rw [hcount.called (h.uses.mono fun _ _ => trivial)]
  rcases h.polled with ⟨_, rfl⟩ | ⟨event, rfl, hnext⟩
  · rfl
  · exact hcount.polled hnext (hl event rfl)

theorem CountsConnections.isConnected_eq {count : L.State → PeerId → Nat}
    (hcount : CountsConnections L count) (s : Swarm L) (p : PeerId) :
    s.isConnected p = decide (0 < count s.state p) := by
  rw [Bool.eq_iff_iff, decide_eq_true_iff]
  exact hcount.isConnected s.state p

/-- A peer is connected from its first connection to the loss of its last one. -/
theorem Step.isConnected_eq {count : L.State → PeerId → Nat} (hcount : CountsConnections L count)
    {n m : Node L} {l : Label Req Resp} (h : Step n l m) (p : PeerId) :
    m.loop.swarm.isConnected p = l.connects p (n.loop.swarm.isConnected p) := by
  obtain ⟨state, hm⟩ := h.moved
  rw [hcount.isConnected_eq, hcount.isConnected_eq]
  by_cases hl : ∃ event, l = .swarmEvent event ∧ event.IsConnection
  · obtain ⟨event, rfl, hevent⟩ := hl
    obtain ⟨_, he, hnext⟩ := hm.polled.resolve_left fun hq => hq.1 event rfl
    obtain rfl := Label.swarmEvent.inj he
    rw [hcount.called (hm.uses.mono fun _ _ => trivial)]
    cases event with
    | connectionEstablished q k =>
        obtain ⟨hk, hstate⟩ := hcount.established hnext
        rw [hstate]
        by_cases hq : q = p
        · subst hq
          rw [Function.update_self]
          by_cases hone : k = 1
          · simp [Label.connects, hone]
          · simp only [Label.connects, hone, and_false, if_false, decide_eq_decide]
            omega
        · rw [Function.update_of_ne (Ne.symm hq), Label.connects, if_neg fun hc => hq hc.1]
    | connectionClosed q k =>
        obtain ⟨hk, hstate⟩ := hcount.closed hnext
        rw [hstate]
        by_cases hq : q = p
        · subst hq
          rw [Function.update_self]
          by_cases hzero : k = 0
          · simp [Label.connects, hzero]
          · simp only [Label.connects, hzero, and_false, if_false, decide_eq_decide]
            omega
        · rw [Function.update_of_ne (Ne.symm hq), Label.connects, if_neg fun hc => hq hc.1]
    | _ => exact hevent.elim
  · have hne : ∀ event, l = .swarmEvent event → ¬event.IsConnection :=
      fun event he hevent => hl ⟨event, he, hevent⟩
    rw [hm.count_eq hcount hne, Label.connects_of_not hne]

/-! ### Sessions and connections -/

/-- What every run keeps: a session is there exactly while there is a connection. -/
structure RelayTied (config : NodeConfig) (count : L.State → PeerId → Nat) (log : RelayLog)
    (n : Node L) : Prop where
  session : ∀ p, (log.session p).isSome = true ↔ 0 < count n.loop.swarm.state p
  protocolVersion : n.loop.protocolVersion = config.protocolVersion
  relayClient : n.loop.swarm.relayClient = true

theorem Started.relayTied {count : L.State → PeerId → Nat} (hcount : CountsConnections L count)
    {config : NodeConfig} (hrelay : config.enableRelayClient = true) {n : Node L}
    (h : Started L config n) : RelayTied config count (RelayLog.initial config) n := by
  obtain ⟨loop, hnew, huses⟩ := h.uses (P := fun _ => True)
    (fun _ _ => trivial) (fun _ _ => trivial) (fun _ _ => trivial) fun _ _ _ => trivial
  refine ⟨fun p => ?_, huses.same.protocolVersion.trans hnew.protocolVersion,
    huses.swarm.relayClient_eq.trans (hnew.relayClient.trans hrelay)⟩
  rw [hcount.called huses.swarm, hcount.initial hnew.state]
  exact ⟨fun h => (by cases h), fun h => absurd h (Nat.lt_irrefl 0)⟩

theorem observeSession_isSome (version : String) (p : PeerId) (session : Option Session)
    (x : Transition.Trans (Node L) (Label Req Resp)) :
    (observeSession version p session x).isSome = x.label.connects p session.isSome := by
  unfold observeSession Label.connects
  split
  · split <;> rfl
  · split <;> rfl
  · exact Option.isSome_map

theorem RelayTied.step {count : L.State → PeerId → Nat} (hcount : CountsConnections L count)
    {config : NodeConfig} {log : RelayLog} {n m : Node L} {l : Label Req Resp}
    (h : RelayTied config count log n) (hs : Step n l m) :
    RelayTied config count (log.observe config.protocolVersion ⟨n, l, m⟩) m := by
  obtain ⟨state, hm⟩ := hs.moved
  refine ⟨fun p => ?_, hm.same.protocolVersion.trans h.protocolVersion,
    hm.uses.relayClient_eq.trans h.relayClient⟩
  have hbefore : (log.session p).isSome = n.loop.swarm.isConnected p := by
    rw [Bool.eq_iff_iff, h.session p]
    exact (hcount.isConnected _ p).symm
  have hafter : (observeSession config.protocolVersion p (log.session p) ⟨n, l, m⟩).isSome =
      m.loop.swarm.isConnected p := by
    rw [observeSession_isSome, hbefore, hs.isConnected_eq hcount]
  show (observeSession config.protocolVersion p (log.session p) ⟨n, l, m⟩).isSome = true ↔ _
  rw [hafter]
  exact hcount.isConnected _ p

end SwarmP2p
