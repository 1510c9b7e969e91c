import SwarmP2p.Library.History
import SwarmP2p.Model.Loopback
import SwarmP2p.Verification.EventLoop.Delivery
import SwarmP2p.Verification.EventLoop.Uses
import SwarmP2p.Verification.Node.Run

/-! # Advertised addresses and listen addresses

The LAN helper's list, the external addresses and the status events agree in every
state. That all of them are listen addresses holds as long as no advertised address goes
away: nothing takes an address off the list. -/

namespace SwarmP2p

variable {Req Resp : Type} {L : Libp2p Req Resp}

/-! ### Listen addresses -/

/-- The addresses on which libp2p listens, by its own reports. -/
def Label.listening (addrs : List Multiaddr) : Label Req Resp → List Multiaddr
  | .swarmEvent (.newListenAddr addr) => addrs ++ [addr]
  | .swarmEvent (.expiredListenAddr addr) => addrs.filter (· ≠ addr)
  | .swarmEvent (.listenerClosed gone) => addrs.filter (· ∉ gone)
  | _ => addrs

def observeListening (addrs : List Multiaddr)
    (x : Transition.Trans (Node L) (Label Req Resp)) : List Multiaddr :=
  x.label.listening addrs

/-- No advertised address goes away. -/
def KeepsAdvertised (n : Node L) : Label Req Resp → Prop
  | .swarmEvent (.expiredListenAddr addr) => addr ∉ n.loop.advertisedLanAddrs
  | .swarmEvent (.listenerClosed gone) => ∀ addr ∈ gone, addr ∉ n.loop.advertisedLanAddrs
  | _ => True

/-! ### External addresses -/

def SwarmCall.external? : SwarmCall Resp → Option Multiaddr
  | .addExternalAddress addr => some addr
  | _ => none

/-- The external addresses that the node has registered, oldest first. -/
def Swarm.external (s : Swarm L) : List Multiaddr := s.calls.filterMap SwarmCall.external?

theorem Swarm.Uses.external_eq {P : SwarmCall Resp → Prop} {s t : Swarm L} (h : Uses P s t)
    (hp : ∀ addr, ¬P (.addExternalAddress addr)) : t.external = s.external := by
  refine h.filterMap_calls fun call hcall => ?_
  cases call with
  | addExternalAddress addr => exact absurd hcall (hp addr)
  | _ => rfl

theorem Swarm.addExternalAddress_external (s : Swarm L) (addr : Multiaddr) :
    (s.addExternalAddress addr).external = s.external ++ [addr] :=
  List.filterMap_append

/-! ### One step -/

namespace EventLoop

/-- The address is added to the list and to the external addresses, or it is not. -/
inductive Advertised (addr : Multiaddr) (a b : EventLoop L) : Prop where
  | same (hlist : b.advertisedLanAddrs = a.advertisedLanAddrs)
      (hexternal : b.swarm.external = a.swarm.external)
  | added (hnew : addr ∉ a.advertisedLanAddrs)
      (hlist : b.advertisedLanAddrs = a.advertisedLanAddrs ++ [addr])
      (hexternal : b.swarm.external = a.swarm.external ++ [addr])

theorem advertise_advertised (self : EventLoop L) (addr : Multiaddr) :
    Advertised addr self (self.advertise addr) := by
  unfold advertise
  split
  · rename_i h
    refine .added ?_ rfl (Swarm.addExternalAddress_external _ _)
    simpa using (Bool.and_eq_true_iff.mp h).2
  · exact .same rfl rfl

theorem maybeAnnounceLanHelperAddr_advertised (self : EventLoop L) (addr : Multiaddr) :
    Advertised addr self (self.maybeAnnounceLanHelperAddr addr) := by
  unfold maybeAnnounceLanHelperAddr
  split
  · exact .same rfl rfl
  · split
    · obtain ⟨eventTx, heq⟩ := (self.advertise addr).trySendStatus_eq
        (.lanHelperStatusChanged (self.advertise addr).swarm.relayServer
          (self.advertise addr).advertisedLanAddrs)
      dsimp only
      rw [heq]
      cases self.advertise_advertised addr with
      | same hlist hexternal => exact .same hlist hexternal
      | added hnew hlist hexternal => exact .added hnew hlist hexternal
    · exact .same rfl rfl

end EventLoop

theorem Step.advertised {n m : Node L} {l : Label Req Resp} (h : Step n l m) :
    (m.loop.advertisedLanAddrs = n.loop.advertisedLanAddrs ∧
        m.loop.swarm.external = n.loop.swarm.external) ∨
      ∃ addr, l = .swarmEvent (.newListenAddr addr) ∧ n.loop.Advertised addr m.loop := by
  by_cases hl : ∃ addr, l = .swarmEvent (.newListenAddr addr)
  · obtain ⟨addr, rfl⟩ := hl
    obtain ⟨state, commands, order, _, _, hloop⟩ := h.converted rfl
    refine .inr ⟨addr, rfl, ?_⟩
    rw [hloop]
    cases (n.offered state commands).maybeAnnounceLanHelperAddr_advertised addr with
    | same hlist hexternal => exact .same hlist hexternal
    | added hnew hlist hexternal => exact .added hnew hlist hexternal
  · obtain ⟨state, hm⟩ := h.moved
    have hne : ∀ addr, l ≠ .swarmEvent (.newListenAddr addr) := fun addr he => hl ⟨addr, he⟩
    refine .inl ⟨hm.advertised hne, ?_⟩
    refine (hm.uses.external_eq fun addr hcall => ?_).trans rfl
    cases l with
    | handleCommand =>
        rcases hcall with ⟨_, _, he⟩ | ⟨_, _, he⟩
        · cases he
        · exact he
    | swarmEvent event => exact hne addr (congrArg _ hcall)
    | _ => exact hcall

/-! ### The three lists -/

/-- What the LAN helper keeps in every state. -/
structure HelperTied (n : Node L) : Prop where
  external : n.loop.swarm.external = n.loop.advertisedLanAddrs
  nodup : n.loop.advertisedLanAddrs.Nodup
  unsent : ∀ enabled addrs, .lanHelperStatusChanged enabled addrs ∉ n.phase.unsent

theorem Started.nothing_advertised {config : NodeConfig} {n : Node L}
    (h : Started L config n) :
    n.loop.advertisedLanAddrs = [] ∧ n.loop.swarm.external = [] := by
  obtain ⟨loop, hnew, huses⟩ := h.uses (P := fun call => call.external? = none)
    (fun _ _ => rfl) (fun _ _ => rfl) (fun _ _ => rfl) fun _ _ _ => rfl
  have hnone : ∀ addr, ¬(SwarmCall.addExternalAddress addr : SwarmCall Resp).external? = none :=
    fun _ => by simp [SwarmCall.external?]
  refine ⟨(huses.advertised hnone).trans hnew.advertisedLanAddrs,
    (huses.swarm.external_eq hnone).trans ?_⟩
  rw [Swarm.external, hnew.calls]
  rfl

theorem Started.helperTied {config : NodeConfig} {n : Node L} (h : Started L config n) :
    HelperTied n := by
  obtain ⟨hlist, hexternal⟩ := h.nothing_advertised
  exact ⟨hexternal.trans hlist.symm, hlist ▸ List.nodup_nil,
    by simp [h.fresh.phase_eq, LoopPhase.unsent]⟩

theorem HelperTied.step {n m : Node L} {l : Label Req Resp} (h : HelperTied n)
    (hs : Step n l m) : HelperTied m := by
  have hlists : m.loop.swarm.external = m.loop.advertisedLanAddrs ∧
      m.loop.advertisedLanAddrs.Nodup := by
    rcases hs.advertised with ⟨hlist, hexternal⟩ | ⟨addr, _, hadded⟩
    · rw [hlist, hexternal]
      exact ⟨h.external, h.nodup⟩
    · cases hadded with
      | same hlist hexternal =>
          rw [hlist, hexternal]
          exact ⟨h.external, h.nodup⟩
      | added hnew hlist hexternal =>
          rw [hlist, hexternal, h.external]
          exact ⟨rfl, List.concat_eq_append ▸ h.nodup.concat hnew⟩
  refine ⟨hlists.1, hlists.2, fun enabled addrs hm => ?_⟩
  cases hs.delivery with
  | quiet _ _ _ hunsent | took _ _ _ hunsent | dropped _ _ _ hunsent =>
      exact h.unsent enabled addrs (hunsent ▸ hm)
  | sent _ _ _ _ _ hunsent | lost _ _ _ _ hunsent | consumed _ _ _ _ _ hunsent =>
      simp [hunsent] at hm
  | converted event hl loop order hbefore hloop heq hunsent =>
      rw [hunsent, Option.mem_toList] at hm
      exact loop.convertToNodeEvent_ne_status _ order event hm

/-- A status event that is sent lists what is advertised then. -/
theorem HelperTied.status {n m : Node L} {l : Label Req Resp} (h : HelperTied n)
    (hs : Step n l m) {enabled : Bool} {addrs : List Multiaddr}
    (hm : .lanHelperStatusChanged enabled addrs ∈ n.entered m) :
    addrs = m.loop.advertisedLanAddrs := by
  cases hs.delivery with
  | quiet _ _ heq | lost _ _ _ heq | consumed _ _ _ heq => simp [Node.entered_of_eq heq] at hm
  | took event hl hqueue => simp [Node.entered_of_took hqueue] at hm
  | dropped hl hqueue => simp [Node.entered, hqueue] at hm
  | sent event hl hrecv hbefore hsent =>
      rw [Node.entered_of_sent hsent, ← hbefore] at hm
      exact absurd hm (h.unsent enabled addrs)
  | converted event hl loop order hbefore hloop heq hunsent =>
      exact (NodeEvent.lanHelperStatusChanged.inj ((Node.announces hloop heq).status _ hm)).2

/-! ### Runs -/

/-- After a step, everything that the helper has given out is a listen address. -/
structure HelperSound (listening : List Multiaddr) (n m : Node L) : Prop where
  advertised : ∀ addr ∈ m.loop.advertisedLanAddrs, addr ∈ listening
  nodup : m.loop.advertisedLanAddrs.Nodup
  external : ∀ addr ∈ m.loop.swarm.external, addr ∈ listening
  events : ∀ enabled addrs, .lanHelperStatusChanged enabled addrs ∈ n.entered m →
    addrs.Nodup ∧ ∀ addr ∈ addrs, addr ∈ listening

theorem HelperTied.sound_iff {n m : Node L} {l : Label Req Resp} (h : HelperTied n)
    (hs : Step n l m) (listening : List Multiaddr) :
    HelperSound listening n m ↔ ∀ addr ∈ m.loop.advertisedLanAddrs, addr ∈ listening := by
  refine ⟨fun hsound => hsound.advertised, fun hall => ?_⟩
  have hm := h.step hs
  refine ⟨hall, hm.nodup, hm.external ▸ hall, fun enabled addrs he => ?_⟩
  obtain rfl := h.status hs he
  exact ⟨hm.nodup, hall⟩

theorem Step.keepsAdvertised {n m : Node L} {l : Label Req Resp} (hs : Step n l m)
    {listening : List Multiaddr} (h : ∀ addr ∈ n.loop.advertisedLanAddrs, addr ∈ listening)
    (hc : KeepsAdvertised n l) :
    ∀ addr ∈ m.loop.advertisedLanAddrs, addr ∈ l.listening listening := by
  intro addr hm
  rcases hs.advertised with ⟨hlist, _⟩ | ⟨new, rfl, hadded⟩
  · rw [hlist] at hm
    have hold := h addr hm
    unfold Label.listening
    split
    · exact List.mem_append_left _ hold
    · refine List.mem_filter.mpr ⟨hold, decide_eq_true fun he => ?_⟩
      exact hc (he ▸ hm)
    · refine List.mem_filter.mpr ⟨hold, decide_eq_true fun hgone => ?_⟩
      exact hc addr hgone hm
    · exact hold
  · cases hadded with
    | same hlist _ => exact List.mem_append_left _ (h addr (hlist ▸ hm))
    | added _ hlist _ =>
        rw [hlist] at hm
        exact List.mem_append.mpr ((List.mem_append.mp hm).imp_left (h addr))

/-- An advertised address that goes away stays advertised. -/
theorem Step.not_keepsAdvertised {n m : Node L} {l : Label Req Resp} (hs : Step n l m)
    (listening : List Multiaddr) (hc : ¬KeepsAdvertised n l) :
    ¬∀ addr ∈ m.loop.advertisedLanAddrs, addr ∈ l.listening listening := by
  intro hall
  refine hc ?_
  unfold KeepsAdvertised
  split
  · rename_i addr
    intro hm
    have hlist : m.loop.advertisedLanAddrs = n.loop.advertisedLanAddrs :=
      (hs.advertised.resolve_right (by simp)).1
    have hstill := List.mem_filter.mp (hall addr (hlist ▸ hm))
    simp at hstill
  · rename_i gone
    intro addr hgone hm
    have hlist : m.loop.advertisedLanAddrs = n.loop.advertisedLanAddrs :=
      (hs.advertised.resolve_right (by simp)).1
    have hstill := List.mem_filter.mp (hall addr (hlist ▸ hm))
    exact absurd hgone (of_decide_eq_true hstill.2)
  · trivial

/-- Whatever the helper gives out is listened on, and nothing twice, exactly as long as no
advertised address goes away. -/
theorem helper_sound_iff {config : NodeConfig} {n m : Node L}
    {π : List (Transition.Trans (Node L) (Label Req Resp))} (hs : Started L config n)
    (h : Run L n π m) :
    (∀ x ∈ Transition.watch observeListening [] π,
        HelperSound x.post.1 x.pre.2 x.post.2) ↔
      ∀ x ∈ Transition.watch observeListening [] π, KeepsAdvertised x.pre.2 x.label := by
  have hw := h.watch observeListening []
  have hI : ∀ a l b, HelperTied a.2 → Transition.Watched Step observeListening a l b →
      HelperTied (L := L) b.2 := fun _ _ _ ha hab => ha.step hab.1
  have hstart : ∀ addr ∈ n.loop.advertisedLanAddrs, addr ∈ ([] : List Multiaddr) := by
    simp [hs.nothing_advertised.1]
  refine Iff.trans ?_ (hw.safe_iff_meets (I := fun a => HelperTied a.2)
    (P := fun a => ∀ addr ∈ a.2.loop.advertisedLanAddrs, addr ∈ a.1)
    (C := fun a l => KeepsAdvertised a.2 l) hI ?_ ?_ hs.helperTied hstart)
  · refine forall₂_congr fun x hx => ?_
    obtain ⟨_, hp, hstep⟩ := hw.mem x hx
    exact (hp.invariant hs.helperTied hI).sound_iff hstep.1 x.post.1
  · intro a l b _ ha hab hc
    rw [hab.2]
    exact hab.1.keepsAdvertised ha hc
  · intro a l b _ hab hc
    rw [hab.2]
    exact hab.1.not_keepsAdvertised a.1 hc

/-! ### An interface goes down -/

namespace Loopback

def lanConfig : NodeConfig := { config [] with infrastructureMode := .lanHelper ⟨true⟩ }

def lanNode : Node loopback :=
  { node [] with
    loop := { (node []).loop with
      swarm := ⟨({} : State), false, true, []⟩
      lanHelper := some ⟨true⟩ } }

theorem lanStarted : Started loopback lanConfig lanNode := ⟨{}, rfl, rfl⟩

def lanAddr : Multiaddr := [.ip4 ⟨192, 168, 1, 10⟩, .other 6 [15, 161]]

/-- The node listens on a private address and advertises it. -/
def lanReported : Node loopback :=
  lanNode.reported ({} : State) (.newListenAddr lanAddr) (.listening lanAddr)

theorem lanReported_run :
    Run loopback lanNode
      (lanNode.turnSteps ({} : State) (.newListenAddr lanAddr) ++
        [⟨lanNode.turn ({} : State) (.newListenAddr lanAddr), .beginSend, lanReported⟩])
      lanReported :=
  lanNode.reported_run _ _ _ rfl rfl rfl rfl

/-- The interface goes down. -/
theorem lanExpired_run :
    Run loopback lanReported
      (lanReported.turnSteps ({} : State) (.expiredListenAddr lanAddr))
      (lanReported.turn ({} : State) (.expiredListenAddr lanAddr)) :=
  lanReported.turn_run _ _ rfl rfl rfl

end Loopback

/-- The address that expired is still advertised. -/
theorem helper_keeps_expired :
    ∃ (n m : Node loopback) (π : List (Transition.Trans (Node loopback) (Label String String))),
      Started loopback Loopback.lanConfig n ∧ Run loopback n π m ∧
        ¬∀ x ∈ Transition.watch observeListening [] π,
          HelperSound x.post.1 x.pre.2 x.post.2 := by
  refine ⟨Loopback.lanNode, _, _, Loopback.lanStarted,
    Loopback.lanReported_run.append Loopback.lanExpired_run, fun hall => ?_⟩
  have hlast := (hall _ (List.mem_of_getLast? rfl)).advertised Loopback.lanAddr
    (List.mem_singleton_self _)
  exact absurd hlast (by decide)

/-- While the interface is up, what is advertised is listened on. -/
theorem helper_sound_iff_listening :
    HelperSound [Loopback.lanAddr] Loopback.lanNode.sweep
      (Loopback.lanNode.turn ({} : Loopback.State) (.newListenAddr Loopback.lanAddr)) := by
  have hrun := Loopback.lanNode.turn_run ({} : Loopback.State)
    (.newListenAddr Loopback.lanAddr) rfl rfl rfl
  exact (helper_sound_iff Loopback.lanStarted hrun).mpr
    (by simp [Node.turnSteps, Transition.watch, KeepsAdvertised]) _ (List.mem_of_getLast? rfl)

end SwarmP2p
