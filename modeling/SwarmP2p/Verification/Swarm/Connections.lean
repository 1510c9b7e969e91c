import Mathlib.Logic.Function.Basic
import SwarmP2p.Model.Loopback
import SwarmP2p.Verification.Swarm.Calls
import SwarmP2p.Verification.Swarm.Uses

/-! # How libp2p counts connections

Connections open and close only while the swarm is polled, one at a time, and a peer is
connected as long as it has one. `counting` is the small swarm under this rule. -/

namespace SwarmP2p

variable {Req Resp : Type} {L : Libp2p Req Resp}

/-- The event is about a connection to a peer. -/
def SwarmEvent.IsConnection : SwarmEvent Req Resp → Prop
  | .connectionEstablished _ _ => True
  | .connectionClosed _ _ => True
  | _ => False

theorem SwarmEvent.IsConnection.id?_eq {event : SwarmEvent Req Resp} (h : event.IsConnection) :
    event.id? = none := by
  cases event with
  | connectionEstablished p k => rfl
  | connectionClosed p k => rfl
  | _ => exact h.elim

structure CountsConnections (L : Libp2p Req Resp) (count : L.State → PeerId → Nat) : Prop where
  initial {s} (h : L.Initial s) : count s = fun _ => 0
  isConnected (s p) : L.isConnected s p = true ↔ 0 < count s p
  established {s p k s'} (h : L.next s (.connectionEstablished p k) s') :
    k = count s p + 1 ∧ count s' = Function.update (count s) p k
  closed {s p k s'} (h : L.next s (.connectionClosed p k) s') :
    count s p = k + 1 ∧ count s' = Function.update (count s) p k
  polled {s event s'} (h : L.next s event s') (he : ¬event.IsConnection) : count s' = count s
  /-- No call opens or closes a connection at once. -/
  called {s t : Swarm L} (h : Swarm.Uses (fun _ => True) s t) : count t.state = count s.state

namespace Loopback

/-- `num_established` is the number of connections after the change. -/
def Exact (s : State) : SwarmEvent String String → Prop
  | .connectionEstablished p k => k = s.connected.count p + 1
  | .connectionClosed p k => s.connected.count p = k + 1
  | _ => True

def counting : Libp2p String String :=
  { loopback with next := fun s event s' => next s event s' ∧ Exact s event }

theorem count_cons (connected : List PeerId) (p : PeerId) :
    (fun q => (p :: connected).count q) =
      Function.update (fun q => connected.count q) p (connected.count p + 1) := by
  funext q
  by_cases hq : q = p
  · subst hq
    rw [Function.update_self, List.count_cons_self]
  · rw [Function.update_of_ne hq, List.count_cons_of_ne (Ne.symm hq)]

theorem count_erase (connected : List PeerId) (p : PeerId) :
    (fun q => (connected.erase p).count q) =
      Function.update (fun q => connected.count q) p (connected.count p - 1) := by
  funext q
  by_cases hq : q = p
  · subst hq
    rw [Function.update_self, List.count_erase_self]
  · rw [Function.update_of_ne hq, List.count_erase_of_ne hq]

theorem dial_connected (s : State) (p : PeerId) : (dial s p).1.connected = s.connected := by
  unfold dial
  split <;> rfl

/-- Of the calls only a dial and a query change the small swarm. -/
theorem uses_connected {P : SwarmCall String → Prop} {s t : Swarm counting}
    (h : Swarm.Uses P s t) : t.state.connected = s.state.connected := by
  induction h with
  | refl => rfl
  | dial _ p _ ih => exact (dial_connected _ p).trans ih
  | _ => assumption

theorem counting_counts : CountsConnections counting fun s p => s.connected.count p where
  initial h := by
    subst h
    rfl
  isConnected s p := by
    rw [List.count_pos_iff]
    exact decide_eq_true_iff
  established {s p k s'} h := by
    obtain ⟨hnext, hk⟩ := h
    refine ⟨hk, ?_⟩
    rw [show k = s.connected.count p + 1 from hk, ← count_cons]
    rcases hnext with rfl | ⟨_, rfl⟩ <;> rfl
  closed {s p k s'} h := by
    obtain ⟨⟨_, rfl⟩, hk⟩ := h
    have hk : s.connected.count p = k + 1 := hk
    refine ⟨hk, ?_⟩
    rw [show k = s.connected.count p - 1 by omega]
    exact count_erase _ p
  polled {s event s'} h he := by
    obtain ⟨hnext, _⟩ := h
    cases event with
    | connectionEstablished p k => exact absurd trivial he
    | connectionClosed p k => exact absurd trivial he
    | outgoingConnectionError peer error =>
        cases peer with
        | none => rw [show s' = s from hnext]
        | some p =>
            obtain ⟨_, rfl⟩ := hnext
            rfl
    | _ => rw [show s' = s from hnext]
  called h := by rw [uses_connected h]

end Loopback

end SwarmP2p
