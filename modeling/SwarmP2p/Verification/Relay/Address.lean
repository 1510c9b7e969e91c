import SwarmP2p.Verification.Relay.Sessions

/-! # The address of a reservation

The peer is appended to an address that names no peer, and `/p2p-circuit` follows. Any
`/p2p` component counts as naming the peer, wherever it stands and whomever it names. -/

namespace SwarmP2p

variable {Req Resp : Type} {L : Libp2p Req Resp}

/-- The address without the component of this peer at its end. -/
def Multiaddr.withoutPeer (peerId : PeerId) (addr : Multiaddr) : Multiaddr :=
  if addr.getLast? = some (.p2p peerId) then addr.dropLast else addr

/-- Listening on `request` asks the peer itself for a reservation, at the address given. -/
structure AsksPeer (peerId : PeerId) (addr request : Multiaddr) : Prop where
  request_eq : request = addr.withoutPeer peerId ++ [.p2p peerId, .p2pCircuit]
  hop : ∀ q, [.p2p q, .p2pCircuit] <:+ request → q = peerId

/-- The address ends with the peer, or names no peer at all. -/
def Multiaddr.EndsAt (peerId : PeerId) (addr : Multiaddr) : Prop :=
  addr.getLast? = some (.p2p peerId) ∨ ∀ q, .p2p q ∉ addr

theorem any_isP2p (addr : Multiaddr) : addr.any Protocol.isP2p = true ↔ ∃ q, .p2p q ∈ addr := by
  rw [List.any_eq_true]
  constructor
  · rintro ⟨c, hc, hp⟩
    cases c with
    | p2p q => exact ⟨q, hc⟩
    | _ => cases hp
  · rintro ⟨q, hq⟩
    exact ⟨_, hq, rfl⟩

namespace EventLoop

theorem relayAddr_of_named {peerId q : PeerId} {addr : Multiaddr} (h : .p2p q ∈ addr) :
    relayAddr peerId addr = addr ++ [.p2pCircuit] := by
  have hany := (any_isP2p addr).mpr ⟨q, h⟩
  simp only [relayAddr, hany, if_true, Multiaddr.with]

theorem relayAddr_of_unnamed {peerId : PeerId} {addr : Multiaddr} (h : ∀ q, .p2p q ∉ addr) :
    relayAddr peerId addr = addr ++ [.p2p peerId, .p2pCircuit] := by
  have hany : addr.any Protocol.isP2p = false := by
    rw [Bool.eq_false_iff, ne_eq, any_isP2p]
    exact fun ⟨q, hq⟩ => h q hq
  simp only [relayAddr, hany, Multiaddr.with, Bool.false_eq_true, if_false, List.append_assoc,
    List.cons_append, List.nil_append]

/-- An address that ends with the peer, or names none, leads to the peer. -/
theorem relayAddr_eq_of_endsAt {peerId : PeerId} {addr : Multiaddr} (h : addr.EndsAt peerId) :
    relayAddr peerId addr = addr.withoutPeer peerId ++ [.p2p peerId, .p2pCircuit] := by
  rcases h with hlast | hnone
  · have hmem := List.mem_of_getLast? hlast
    have hsplit : addr.dropLast ++ [.p2p peerId] = addr :=
      List.dropLast_append_getLast? _ hlast
    calc relayAddr peerId addr = addr.dropLast ++ [.p2p peerId] ++ [.p2pCircuit] := by
          rw [relayAddr_of_named hmem, hsplit]
      _ = addr.withoutPeer peerId ++ [.p2p peerId, .p2pCircuit] := by
          rw [Multiaddr.withoutPeer, if_pos hlast, List.append_assoc]
          rfl
  · have hlast : addr.getLast? ≠ some (.p2p peerId) :=
      fun hlast => hnone peerId (List.mem_of_getLast? hlast)
    rw [relayAddr_of_unnamed hnone, Multiaddr.withoutPeer, if_neg hlast]

/-- An address that names some peer, but does not end with this one, is used as it is. -/
theorem relayAddr_ne_of_not_endsAt {peerId : PeerId} {addr : Multiaddr}
    (h : ¬addr.EndsAt peerId) :
    relayAddr peerId addr ≠ addr.withoutPeer peerId ++ [.p2p peerId, .p2pCircuit] := by
  have hlast : addr.getLast? ≠ some (.p2p peerId) := fun hlast => h (.inl hlast)
  obtain ⟨q, hq⟩ : ∃ q, .p2p q ∈ addr := by
    by_contra hnone
    exact h (.inr (not_exists.mp hnone))
  rw [relayAddr_of_named hq, Multiaddr.withoutPeer, if_neg hlast]
  intro heq
  have hlength := congrArg List.length heq
  simp at hlength

theorem relayAddr_asks_iff (peerId : PeerId) (addr : Multiaddr) :
    AsksPeer peerId addr (relayAddr peerId addr) ↔ addr.EndsAt peerId := by
  constructor
  · intro h
    by_contra hends
    exact relayAddr_ne_of_not_endsAt hends h.request_eq
  · intro h
    have heq := relayAddr_eq_of_endsAt h
    refine ⟨heq, ?_⟩
    rintro q ⟨front, hfront⟩
    rw [heq] at hfront
    have hsame := List.append_inj_right' hfront rfl
    exact Protocol.p2p.inj (List.cons.inj hsame).1

/-- Every listen request asks the peer itself exactly when every address ends with the peer
or names none. -/
theorem reservations_ask_peer_iff (self : EventLoop L) (peerId : PeerId)
    (addrs : List Multiaddr) :
    List.Forall₂ (AsksPeer peerId) addrs
        ((self.requestRelayReservations peerId addrs).swarm.listenRequests.drop
          self.swarm.listenRequests.length) ↔
      ∀ addr ∈ addrs, addr.EndsAt peerId := by
  rw [requestRelayReservations_listenRequests, List.drop_left, List.forall₂_map_right_iff,
    List.forall₂_same]
  exact forall₂_congr fun addr _ => relayAddr_asks_iff peerId addr

end EventLoop

/-! ### Another peer's address -/

namespace Loopback

def tcpAddr (components : List Protocol) : Multiaddr :=
  [.ip4 ⟨10, 0, 0, 1⟩, .other 6 [15, 161]] ++ components

def otherPeer : PeerId := ⟨[2]⟩

end Loopback

open Loopback in
/-- The reservation is asked of the peer that the address names. -/
theorem reservation_asked_elsewhere :
    ¬List.Forall₂ (AsksPeer peer) [tcpAddr [.p2p otherPeer]]
      (((node []).loop.requestRelayReservations peer
        [tcpAddr [.p2p otherPeer]]).swarm.listenRequests.drop
          (node []).loop.swarm.listenRequests.length) := by
  intro h
  have hask : AsksPeer peer (tcpAddr [.p2p otherPeer])
      (tcpAddr [.p2p otherPeer, .p2pCircuit]) := (List.forall₂_cons.mp h).1
  exact absurd (hask.hop otherPeer ⟨tcpAddr [], rfl⟩) (by decide)

end SwarmP2p
