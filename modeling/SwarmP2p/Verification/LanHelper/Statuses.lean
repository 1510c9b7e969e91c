import Mathlib.Data.List.Infix
import SwarmP2p.Library.History
import SwarmP2p.Verification.EventLoop.Received
import SwarmP2p.Verification.LanHelper.Advertised

/-! # The statuses that a receiver sees

A status may be lost when the queue is full, but those that arrive never go back: each
lists what the one before it listed, and maybe more. -/

namespace SwarmP2p

variable {Req Resp : Type} {L : Libp2p Req Resp}

/-- The addresses that a status event lists. -/
def NodeEvent.advertised? : NodeEvent Req → Option (List Multiaddr)
  | .lanHelperStatusChanged _ addrs => some addrs
  | _ => none

def statusesOf (events : List (NodeEvent Req)) : List (List Multiaddr) :=
  events.filterMap NodeEvent.advertised?

theorem NodeEvent.eq_of_advertised {event : NodeEvent Req} {addrs : List Multiaddr}
    (h : event.advertised? = some addrs) :
    ∃ enabled, event = .lanHelperStatusChanged enabled addrs := by
  cases event with
  | lanHelperStatusChanged enabled addrs' =>
      obtain rfl := Option.some.inj h
      exact ⟨enabled, rfl⟩
  | _ => cases h

/-! ### One step -/

theorem EventLoop.Advertised.prefix {addr : Multiaddr} {a b : EventLoop L}
    (h : Advertised addr a b) : a.advertisedLanAddrs <+: b.advertisedLanAddrs := by
  cases h with
  | same hlist _ => exact hlist ▸ List.prefix_refl _
  | added _ hlist _ => exact hlist ▸ List.prefix_append _ _

theorem Step.advertised_prefix {n m : Node L} {l : Label Req Resp} (h : Step n l m) :
    n.loop.advertisedLanAddrs <+: m.loop.advertisedLanAddrs := by
  rcases h.advertised with ⟨hlist, _⟩ | ⟨addr, _, hadded⟩
  · exact hlist ▸ List.prefix_refl _
  · exact hadded.prefix

theorem HelperTied.status_view {n m : Node L} {l : Label Req Resp} (h : HelperTied n)
    (hs : Step n l m) : ∀ addrs ∈ statusesOf (n.entered m), addrs = m.loop.advertisedLanAddrs := by
  intro addrs ha
  obtain ⟨event, he, hadv⟩ := List.mem_filterMap.mp ha
  obtain ⟨enabled, rfl⟩ := NodeEvent.eq_of_advertised hadv
  exact h.status hs he

/-- What the receiver takes was in the queue or enters it, and nothing is there twice. -/
theorem Passage.kept {n m : Node L} {l : Label Req Resp} (h : Passage n m l) :
    (received? ⟨n, l, m⟩ ++ m.loop.eventTx.queue).Sublist
      (n.loop.eventTx.queue ++ n.entered m) := by
  cases h with
  | took event hl hqueue _ _ =>
      subst hl
      simp [received?, Node.entered, hqueue]
  | dropped hl hqueue _ =>
      subst hl
      simp [received?, hqueue]
  | moved hl new hqueue _ _ _ =>
      rw [received?_of_ne hl, Node.entered, hqueue, List.drop_left]
      simp

/-! ### Runs -/

/-- What was received and what waits to be was sent, in this order. -/
theorem Run.received_sublist {n m : Node L}
    {π : List (Transition.Trans (Node L) (Label Req Resp))} (h : Run L n π m)
    (hn : n.loop.eventTx.queue = []) :
    (received π ++ m.loop.eventTx.queue).Sublist (sentEvents π) := by
  induction h with
  | nil => simp [received, hn]
  | @snoc π t l u _ hs ih =>
      have hlast := (List.Sublist.refl (received π)).append hs.passage.kept
      have hwhole := hlast.trans ((List.append_assoc ..).symm ▸ ih.append (.refl (t.entered u)))
      simpa [received, sentEvents] using hwhole

/-- The statuses that a receiver got or will get list more and more of the addresses that
the node has registered as its own with libp2p, in the order in which it did. -/
theorem statuses_grow {config : NodeConfig} {n m : Node L}
    {π : List (Transition.Trans (Node L) (Label Req Resp))} (hs : Started L config n)
    (h : Run L n π m) :
    (statusesOf (received π ++ m.loop.eventTx.queue)).Pairwise (· <+: ·) ∧
      ∀ addrs ∈ statusesOf (received π ++ m.loop.eventTx.queue),
        addrs.Nodup ∧ addrs <+: m.loop.swarm.external := by
  obtain ⟨hchain, hbelow⟩ := h.snapshots (· <+: ·) (fun n => n.loop.advertisedLanAddrs)
    (fun x => statusesOf (x.pre.entered x.post)) (I := HelperTied)
    (fun _ _ _ ht hs => ht.step hs) (fun _ _ _ _ hs => hs.advertised_prefix)
    (fun _ _ _ ht hs => ht.status_view hs) hs.helperTied
  have hempty : n.loop.eventTx.queue = [] := by rw [hs.eventTx_eq, Channel.new_queue]
  have hsub : (statusesOf (received π ++ m.loop.eventTx.queue)).Sublist
      (π.flatMap fun x => statusesOf (x.pre.entered x.post)) := by
    have hfilter := (h.received_sublist hempty).filterMap NodeEvent.advertised?
    rwa [sentEvents, List.filterMap_flatMap] at hfilter
  have htied : HelperTied m := h.invariant hs.helperTied fun _ _ _ ht hs => ht.step hs
  refine ⟨hchain.sublist hsub, fun addrs ha => ?_⟩
  have hprefix := hbelow addrs (hsub.subset ha)
  exact ⟨htied.nodup.sublist hprefix.sublist, htied.external ▸ hprefix⟩

namespace Loopback

def secondAddr : Multiaddr := [.ip4 ⟨10, 0, 0, 7⟩, .other 6 [15, 161]]

def lanGrown : Node loopback :=
  lanReported.reported ({} : State) (.newListenAddr secondAddr) (.listening secondAddr)

/-- The node listens on two private addresses, one after the other. -/
def lanSteps : List (Transition.Trans (Node loopback) (Label String String)) :=
  lanNode.turnSteps ({} : State) (.newListenAddr lanAddr) ++
    [⟨lanNode.turn ({} : State) (.newListenAddr lanAddr), .beginSend, lanReported⟩] ++
    (lanReported.turnSteps ({} : State) (.newListenAddr secondAddr) ++
      [⟨lanReported.turn ({} : State) (.newListenAddr secondAddr), .beginSend, lanGrown⟩])

theorem lanSteps_run : Run loopback lanNode lanSteps lanGrown :=
  lanReported_run.append (lanReported.reported_run _ _ _ rfl rfl rfl rfl)

end Loopback

open Loopback in
/-- The statuses of the two addresses wait in the queue. -/
theorem statuses_grow_second :
    statusesOf (received lanSteps ++ lanGrown.loop.eventTx.queue) =
        [[lanAddr], [lanAddr, secondAddr]] ∧
      [lanAddr] <+: [lanAddr, secondAddr] ∧
      [lanAddr, secondAddr] <+: lanGrown.loop.swarm.external := by
  have hstatuses : statusesOf (received lanSteps ++ lanGrown.loop.eventTx.queue) =
      [[lanAddr], [lanAddr, secondAddr]] := rfl
  obtain ⟨hchain, hexternal⟩ := statuses_grow lanStarted lanSteps_run
  rw [hstatuses] at hchain hexternal
  exact ⟨hstatuses, List.rel_of_pairwise_cons hchain (List.mem_singleton_self _),
    (hexternal _ (List.mem_cons_of_mem _ (List.mem_singleton_self _))).2⟩

end SwarmP2p
