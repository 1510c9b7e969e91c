import SwarmP2p.Model.Loopback
import SwarmP2p.Verification.Swarm.Uses

/-! # Addresses before a dial

A dial tries the addresses that are registered when it is called. The arm for discovered
peers registers the whole list first and then dials each peer; the loop over the bootstrap
peers registers and dials entry by entry. -/

namespace SwarmP2p

variable {Req Resp : Type} {L : Libp2p Req Resp}

def SwarmCall.dial? : SwarmCall Resp → Option PeerId
  | .dial peerId _ => some peerId
  | _ => none

def SwarmCall.registration (entry : PeerId × Multiaddr) : SwarmCall Resp :=
  .addPeerAddress entry.1 entry.2

def SwarmCall.attempt (d : PeerId × Bool) : SwarmCall Resp := .dial d.1 d.2

/-- The calls made between two states of the swarm, oldest first. -/
def Swarm.callsSince (s t : Swarm L) : List (SwarmCall Resp) := t.calls.drop s.calls.length

theorem Swarm.dial_calls (s : Swarm L) (p : PeerId) :
    ∃ accepted, (s.dial p).1.calls = s.calls ++ [.dial p accepted] := ⟨_, rfl⟩

/-- Before a peer is dialed, all its listed addresses are registered, and no peer is dialed
twice. -/
structure RegistersThenDials (peers : List (PeerId × Multiaddr))
    (calls : List (SwarmCall Resp)) : Prop where
  registered : ∀ front p accepted rest, calls = front ++ .dial p accepted :: rest →
    ∀ addr, (p, addr) ∈ peers → .addPeerAddress p addr ∈ front
  once : (calls.filterMap SwarmCall.dial?).Nodup

namespace EventLoop

/-! ### Discovered peers -/

theorem registered_calls (peers : List (PeerId × Multiaddr)) (swarm : Swarm L) :
    (peers.foldl (fun s entry => s.addPeerAddress entry.1 entry.2) swarm).calls =
      swarm.calls ++ peers.map SwarmCall.registration := by
  induction peers generalizing swarm with
  | nil => exact (List.append_nil _).symm
  | cons entry peers ih =>
      rw [List.foldl_cons, ih, List.map_cons, List.append_cons]
      rfl

theorem dialDiscovered_calls (swarm : Swarm L) (p : PeerId) :
    (dialDiscovered swarm p).calls = swarm.calls ∨
      ∃ accepted, (dialDiscovered swarm p).calls = swarm.calls ++ [.dial p accepted] := by
  unfold dialDiscovered
  split
  · exact .inl rfl
  · exact .inr (swarm.dial_calls p)

theorem dialed_calls (order : List PeerId) (swarm : Swarm L) :
    ∃ dials : List (PeerId × Bool),
      (order.foldl dialDiscovered swarm).calls =
          swarm.calls ++ dials.map SwarmCall.attempt ∧
        (dials.map Prod.fst).Sublist order := by
  induction order generalizing swarm with
  | nil => exact ⟨[], (List.append_nil _).symm, .slnil⟩
  | cons p order ih =>
      obtain ⟨dials, hcalls, hsub⟩ := ih (dialDiscovered swarm p)
      rw [List.foldl_cons, hcalls]
      rcases dialDiscovered_calls swarm p with hsame | ⟨accepted, hdial⟩
      · exact ⟨dials, by rw [hsame], hsub.cons p⟩
      · refine ⟨(p, accepted) :: dials, ?_, hsub.cons_cons p⟩
        rw [hdial, List.append_assoc]
        rfl

theorem dials_of_registered (peers : List (PeerId × Multiaddr)) (dials : List (PeerId × Bool)) :
    (peers.map SwarmCall.registration ++
      dials.map (SwarmCall.attempt : _ → SwarmCall Resp)).filterMap SwarmCall.dial? =
        dials.map Prod.fst := by
  have hnone : (peers.map (SwarmCall.registration : _ → SwarmCall Resp)).filterMap
      SwarmCall.dial? = [] := by
    rw [List.filterMap_map, List.filterMap_eq_nil_iff]
    exact fun _ _ => rfl
  have hsome : SwarmCall.dial? ∘ (SwarmCall.attempt : _ → SwarmCall Resp) = some ∘ Prod.fst := rfl
  rw [List.filterMap_append, hnone, List.filterMap_map, hsome, List.filterMap_eq_map,
    List.nil_append]

theorem handleDiscovered_registers (self : EventLoop L) {order : List PeerId}
    (peers : List (PeerId × Multiaddr)) (ho : order.Nodup) :
    RegistersThenDials peers (self.swarm.callsSince (self.handleDiscovered order peers).swarm) := by
  obtain ⟨dials, hdials, hsub⟩ := dialed_calls order
    (peers.foldl (fun s entry => s.addPeerAddress entry.1 entry.2) self.swarm)
  have hcalls : self.swarm.callsSince (self.handleDiscovered order peers).swarm =
      peers.map SwarmCall.registration ++ dials.map SwarmCall.attempt := by
    rw [Swarm.callsSince]
    show List.drop _ (order.foldl dialDiscovered _).calls = _
    rw [hdials, registered_calls, List.append_assoc, List.drop_left]
  rw [hcalls]
  refine ⟨?_, ?_⟩
  · intro front p accepted rest heq addr hmem
    -- The dial is not among the registrations, so these come before it.
    have hfront : peers.map SwarmCall.registration <+: front := by
      rcases List.append_eq_append_iff.mp heq with ⟨more, hfront, _⟩ | ⟨more, hfront, htail⟩
      · exact ⟨more, hfront.symm⟩
      · cases more with
        | nil => exact ⟨[], by rw [hfront]; simp⟩
        | cons call more =>
            obtain rfl := (List.cons.inj htail).1
            have hdial : (.dial p accepted : SwarmCall Resp) ∈
                peers.map SwarmCall.registration := by
              rw [hfront]
              exact List.mem_append_right _ (List.mem_cons_self ..)
            simp [SwarmCall.registration] at hdial
    exact hfront.subset (List.mem_map.mpr ⟨(p, addr), hmem, rfl⟩)
  · rw [dials_of_registered]
    exact hsub.nodup ho

/-! ### Bootstrap peers -/

theorem connectBootstrapPeer_calls (self : EventLoop L) (entry : PeerId × Multiaddr) :
    ∃ accepted, (self.connectBootstrapPeer entry).swarm.calls = self.swarm.calls ++
      [.kadAddAddress entry.1 entry.2, .addPeerAddress entry.1 entry.2,
        .dial entry.1 accepted] := by
  have hcalls : (self.connectBootstrapPeer entry).swarm =
      (((self.swarm.kadAddAddress entry.1 entry.2).addPeerAddress entry.1 entry.2).dial
        entry.1).1 := by
    simp only [connectBootstrapPeer]
    split <;> rfl
  obtain ⟨accepted, hdial⟩ := Swarm.dial_calls
    ((self.swarm.kadAddAddress entry.1 entry.2).addPeerAddress entry.1 entry.2) entry.1
  refine ⟨accepted, ?_⟩
  rw [hcalls, hdial]
  show self.swarm.calls ++ [_] ++ [_] ++ [_] = _
  rw [List.append_assoc, List.append_assoc]
  rfl

/-- Every entry is dialed, right after it was registered. -/
theorem connectBootstrapPeers_calls (self : EventLoop L) (peers : List (PeerId × Multiaddr)) :
    ∃ log, (self.connectBootstrapPeers peers).swarm.calls = self.swarm.calls ++ log ∧
      log.filterMap SwarmCall.dial? = peers.map Prod.fst ∧
      ∀ front p accepted rest, log = front ++ .dial p accepted :: rest →
        ∃ addr, (p, addr) ∈ peers ∧ .addPeerAddress p addr ∈ front := by
  induction peers generalizing self with
  | nil => exact ⟨[], (List.append_nil _).symm, rfl, by simp⟩
  | cons entry peers ih =>
      obtain ⟨accepted, hone⟩ := self.connectBootstrapPeer_calls entry
      obtain ⟨log, hcalls, hdialed, hregistered⟩ := ih (self.connectBootstrapPeer entry)
      refine ⟨[.kadAddAddress entry.1 entry.2, .addPeerAddress entry.1 entry.2,
        .dial entry.1 accepted] ++ log, ?_, ?_, ?_⟩
      · rw [← List.append_assoc, ← hone]
        exact hcalls
      · rw [List.filterMap_append, hdialed]
        rfl
      · intro front p accepted' rest heq
        rcases front with _ | ⟨c₁, _ | ⟨c₂, _ | ⟨c₃, front⟩⟩⟩
        · simp at heq
        · simp at heq
        · simp only [List.cons_append, List.nil_append, List.cons.injEq,
            SwarmCall.dial.injEq] at heq
          obtain ⟨rfl, rfl, ⟨rfl, _⟩, _⟩ := heq
          exact ⟨entry.2, List.mem_cons_self .., by simp⟩
        · simp only [List.cons_append, List.nil_append, List.cons.injEq] at heq
          obtain ⟨addr, hmem, hadd⟩ := hregistered front p accepted' rest heq.2.2.2
          exact ⟨addr, List.mem_cons_of_mem _ hmem,
            List.mem_cons_of_mem _ (List.mem_cons_of_mem _ (List.mem_cons_of_mem _ hadd))⟩

theorem connectBootstrapPeers_registers_iff (self : EventLoop L)
    (peers : List (PeerId × Multiaddr)) :
    RegistersThenDials peers (self.swarm.callsSince (self.connectBootstrapPeers peers).swarm) ↔
      (peers.map Prod.fst).Nodup := by
  obtain ⟨log, hcalls, hdialed, hregistered⟩ := self.connectBootstrapPeers_calls peers
  rw [Swarm.callsSince, hcalls, List.drop_left]
  refine ⟨fun h => hdialed ▸ h.once, fun h => ⟨?_, hdialed.symm ▸ h⟩⟩
  intro front p accepted rest heq addr hmem
  obtain ⟨addr', hmem', hadd⟩ := hregistered front p accepted rest heq
  have hsame : (p, addr') = (p, addr) := List.inj_on_of_nodup_map h hmem' hmem rfl
  exact (Prod.mk.inj hsame).2 ▸ hadd

/-- Discovered peers are always dialed once, with all their addresses; bootstrap peers exactly
when no peer is listed twice. -/
theorem registers_then_dials_iff (self : EventLoop L) (peers : List (PeerId × Multiaddr)) :
    (∀ now order, IterationOrder
        (.behaviour (.mdnsDiscovered peers) : SwarmEvent Req Resp) order →
      RegistersThenDials peers (self.swarm.callsSince
        (self.convertToNodeEvent now order (.behaviour (.mdnsDiscovered peers))).1.swarm)) ∧
    (RegistersThenDials peers
        (self.swarm.callsSince (self.connectBootstrapPeers peers).swarm) ↔
      (peers.map Prod.fst).Nodup) :=
  ⟨fun _ _ ho => self.handleDiscovered_registers peers ho.1,
    self.connectBootstrapPeers_registers_iff peers⟩

end EventLoop

/-! ### TCP and QUIC -/

namespace Loopback

def tcpAddress : Multiaddr := [.ip4 ⟨203, 0, 113, 7⟩, .other 6 [15, 161]]

def quicAddress : Multiaddr := [.ip4 ⟨203, 0, 113, 7⟩, .other 273 [15, 161], .other 461 []]

/-- One bootstrap node with its two addresses. -/
def documentedPeers : List (PeerId × Multiaddr) := [(peer, tcpAddress), (peer, quicAddress)]

end Loopback

open Loopback in
/-- The peer is dialed when its first address is registered, and again with the second. -/
theorem bootstrap_dials_early :
    ¬RegistersThenDials documentedPeers ((node []).loop.swarm.callsSince
      ((node []).loop.connectBootstrapPeers documentedPeers).swarm) := by
  intro h
  have hmem := h.registered [.kadAddAddress peer tcpAddress, .addPeerAddress peer tcpAddress] peer
    true _ rfl quicAddress (by decide)
  simp [tcpAddress, quicAddress] at hmem

open Loopback in
/-- Of two distinct peers each is dialed with its own address. -/
theorem registers_then_dials_iff_distinct :
    RegistersThenDials [(peer, []), (⟨[2]⟩, [])] ((node []).loop.swarm.callsSince
      ((node []).loop.connectBootstrapPeers [(peer, []), (⟨[2]⟩, [])]).swarm) :=
  ((node []).loop.registers_then_dials_iff _).2.mpr (by decide)

end SwarmP2p
