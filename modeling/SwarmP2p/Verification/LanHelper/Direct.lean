import SwarmP2p.Verification.LanHelper.Advertised

/-! # Direct addresses

The LAN helper tests whether some component of a listen address is a private one. In an
address that leads through a relay this may be the relay's, so what is advertised is
direct as long as the node listens on no such address. -/

namespace SwarmP2p

variable {Req Resp : Type} {L : Libp2p Req Resp}

/-! ### Private networks -/

def Ipv4Addr.Rfc1918 (ip : Ipv4Addr) : Prop :=
  ip.a = 10 ∨ (ip.a = 172 ∧ 16 ≤ ip.b ∧ ip.b ≤ 31) ∨ (ip.a = 192 ∧ ip.b = 168)

/-- The block `fc00::/7`. -/
def Ipv6Addr.UniqueLocal (ip : Ipv6Addr) : Prop :=
  (0xfc00 : UInt16) ≤ ip.segments.get 0 ∧ ip.segments.get 0 ≤ (0xfdff : UInt16)

def Protocol.InPrivateNetwork : Protocol → Prop
  | .ip4 ip => ip.Rfc1918
  | .ip6 ip => ip.UniqueLocal
  | _ => False

/-- An address of the node itself in a private network. -/
structure Multiaddr.DirectPrivate (addr : Multiaddr) : Prop where
  network : ∃ c, addr.head? = some c ∧ c.InPrivateNetwork
  direct : .p2pCircuit ∉ addr

theorem Ipv4Addr.isPrivate_iff (ip : Ipv4Addr) : ip.isPrivate = true ↔ ip.Rfc1918 := by
  simp [isPrivate, Rfc1918, or_assoc, and_assoc]

/-- A private address is in none of the other ranges. -/
theorem Ipv4Addr.Rfc1918.ordinary {ip : Ipv4Addr} (h : ip.Rfc1918) :
    ip.isLoopback = false ∧ ip.isLinkLocal = false ∧ ip.isUnspecified = false := by
  obtain ⟨a, b, c, d⟩ := ip
  rcases h with h | ⟨h, _⟩ | ⟨h, _⟩ <;>
  · obtain rfl : a = _ := h
    simp [isLoopback, isLinkLocal, isUnspecified]

/-- The upper seven bits of a 16-bit word. -/
theorem and_fe00 {x : Nat} (h : x < 2 ^ 16) : x &&& 0xfe00 = x / 2 ^ 9 * 2 ^ 9 := by
  have hmask : 0xfe00 = (2 ^ 7 - 1) * 2 ^ 9 := rfl
  rw [hmask]
  refine Nat.eq_of_testBit_eq fun i => ?_
  rw [Nat.testBit_and, Nat.testBit_mul_two_pow, Nat.testBit_mul_two_pow,
    Nat.testBit_two_pow_sub_one, Nat.testBit_div_two_pow]
  by_cases hlow : 9 ≤ i
  · by_cases hhigh : i < 16
    · have hbit : i - 9 < 7 := by omega
      simp [hlow, hbit]
    · have hpow : 2 ^ 16 ≤ 2 ^ i := Nat.pow_le_pow_right (by decide) (by omega)
      have hzero : x.testBit i = false := Nat.testBit_lt_two_pow (h.trans_le hpow)
      simp [hlow, hzero]
  · simp [hlow]

theorem Ipv6Addr.uniqueLocal_iff (ip : Ipv6Addr) :
    ((ip.segments.get 0 &&& 0xfe00) == 0xfc00) = true ↔ ip.UniqueLocal := by
  have hx := (ip.segments.get 0).toNat_lt
  rw [beq_iff_eq, UniqueLocal, ← UInt16.toNat_inj, UInt16.toNat_and, UInt16.le_iff_toNat_le,
    UInt16.le_iff_toNat_le]
  show (ip.segments.get 0).toNat &&& 0xfe00 = 0xfc00 ↔
    0xfc00 ≤ (ip.segments.get 0).toNat ∧ (ip.segments.get 0).toNat ≤ 0xfdff
  rw [and_fe00 hx]
  omega

theorem Ipv6Addr.UniqueLocal.ordinary {ip : Ipv6Addr} (h : ip.UniqueLocal) :
    ip.isLoopback = false ∧ ip.isUnspecified = false := by
  have hne : ∀ segments : Vector UInt16 8, segments.get 0 = 0 → ip ≠ ⟨segments⟩ := by
    rintro segments hzero rfl
    obtain ⟨hlow, _⟩ := h
    rw [hzero] at hlow
    exact absurd hlow (by decide)
  exact ⟨beq_eq_false_iff_ne.mpr (hne _ rfl), beq_eq_false_iff_ne.mpr (hne _ rfl)⟩

theorem isUsableLanComponent_iff (c : Protocol) :
    isUsableLanComponent c = true ↔ c.InPrivateNetwork := by
  cases c with
  | ip4 ip =>
      simp only [isUsableLanComponent, Protocol.InPrivateNetwork, Bool.and_eq_true,
        Bool.not_eq_true', ip.isPrivate_iff]
      exact ⟨fun h => h.1.1.1, fun h => ⟨⟨⟨h, h.ordinary.1⟩, h.ordinary.2.1⟩, h.ordinary.2.2⟩⟩
  | ip6 ip =>
      have hlocal : ((ip.segments[0] &&& 0xfe00) == 0xfc00) = true ↔ ip.UniqueLocal :=
        ip.uniqueLocal_iff
      simp only [isUsableLanComponent, Protocol.InPrivateNetwork, Bool.and_eq_true,
        Bool.not_eq_true', hlocal]
      exact ⟨fun h => h.1.1, fun h => ⟨⟨h, h.ordinary.1⟩, h.ordinary.2⟩⟩
  | _ => simp [isUsableLanComponent, Protocol.InPrivateNetwork]

theorem isUsableLanAddr_iff (addr : Multiaddr) :
    isUsableLanAddr addr = true ↔ ∃ c ∈ addr, c.InPrivateNetwork := by
  simp only [isUsableLanAddr, List.any_eq_true, isUsableLanComponent_iff]

/-! ### One step -/

namespace EventLoop

/-- The node is a LAN helper that announces its addresses. -/
def AnnouncesPrivate (self : EventLoop L) : Prop :=
  ∃ config, self.lanHelper = some config ∧ config.announcePrivateAddrs = true

theorem mem_advertise {self : EventLoop L} {addr a : Multiaddr} :
    a ∈ (self.advertise addr).advertisedLanAddrs ↔
      a ∈ self.advertisedLanAddrs ∨ (a = addr ∧ isUsableLanAddr addr = true) := by
  unfold advertise
  split
  · rename_i h
    simp [(Bool.and_eq_true_iff.mp h).1]
  · rename_i h
    refine ⟨.inl, fun hmem => hmem.elim id ?_⟩
    rintro ⟨rfl, husable⟩
    simpa [husable] using h

theorem mem_maybeAnnounceLanHelperAddr {self : EventLoop L} {addr a : Multiaddr} :
    a ∈ (self.maybeAnnounceLanHelperAddr addr).advertisedLanAddrs ↔
      a ∈ self.advertisedLanAddrs ∨
        (a = addr ∧ self.AnnouncesPrivate ∧ isUsableLanAddr addr = true) := by
  unfold maybeAnnounceLanHelperAddr AnnouncesPrivate
  split
  · rename_i hnone
    simp [hnone]
  · rename_i config hconfig
    split
    · rename_i hannounce
      obtain ⟨eventTx, heq⟩ := (self.advertise addr).trySendStatus_eq
        (.lanHelperStatusChanged (self.advertise addr).swarm.relayServer
          (self.advertise addr).advertisedLanAddrs)
      dsimp only
      rw [heq, hconfig]
      simpa [hannounce] using mem_advertise
    · rename_i hquiet
      simp [hconfig, hquiet]

end EventLoop

/-- The node starts to listen on no address that has a private component without being a
direct private address, unless it announces nothing. -/
def ListensDirectly (n : Node L) : Label Req Resp → Prop
  | .swarmEvent (.newListenAddr addr) =>
      n.loop.AnnouncesPrivate → (∃ c ∈ addr, c.InPrivateNetwork) → addr.DirectPrivate
  | _ => True

theorem HelperTied.mem_external {n m : Node L} {l : Label Req Resp} (h : HelperTied n)
    (hs : Step n l m) {a : Multiaddr} :
    a ∈ m.loop.swarm.external ↔ a ∈ n.loop.swarm.external ∨
      (l = .swarmEvent (.newListenAddr a) ∧ n.loop.AnnouncesPrivate ∧
        ∃ c ∈ a, c.InPrivateNetwork) := by
  rw [h.external, (h.step hs).external]
  by_cases hl : ∃ addr, l = .swarmEvent (.newListenAddr addr)
  · obtain ⟨addr, rfl⟩ := hl
    obtain ⟨state, commands, order, _, _, hloop⟩ := hs.converted rfl
    rw [hloop]
    refine EventLoop.mem_maybeAnnounceLanHelperAddr.trans (or_congr Iff.rfl ?_)
    constructor
    · rintro ⟨rfl, hannounces, husable⟩
      exact ⟨rfl, hannounces, (isUsableLanAddr_iff a).mp husable⟩
    · rintro ⟨heq, hannounces, hprivate⟩
      cases heq
      exact ⟨rfl, hannounces, (isUsableLanAddr_iff a).mpr hprivate⟩
  · have hother : ∀ addr, l ≠ .swarmEvent (.newListenAddr addr) := fun addr he => hl ⟨addr, he⟩
    have hlist := (hs.advertised.resolve_right fun ⟨addr, he, _⟩ => hother addr he).1
    rw [hlist]
    exact ⟨.inl, fun hmem => hmem.elim id fun he => absurd he.1 (hother a)⟩

/-! ### Runs -/

/-- What the helper has registered is direct and private, exactly as long as it listens on
no other address that has a private component. -/
theorem helper_direct_iff {config : NodeConfig} {n m : Node L}
    {π : List (Transition.Trans (Node L) (Label Req Resp))} (hs : Started L config n)
    (h : Run L n π m) :
    (∀ x ∈ π, ∀ addr ∈ x.post.loop.swarm.external, addr.DirectPrivate) ↔
      ∀ x ∈ π, ListensDirectly x.pre x.label := by
  refine h.safe_iff_meets (P := fun a => ∀ addr ∈ a.loop.swarm.external, addr.DirectPrivate)
    (fun _ _ _ ha hab => HelperTied.step ha hab) ?_ ?_ hs.helperTied ?_
  · intro a l b hI ha hab hc addr hmem
    rcases (hI.mem_external hab).mp hmem with hold | ⟨rfl, hannounces, hprivate⟩
    · exact ha addr hold
    · exact hc hannounces hprivate
  · intro a l b hI hab hc hall
    unfold ListensDirectly at hc
    split at hc
    · rename_i addr
      refine hc fun hannounces hprivate => hall addr ?_
      exact (hI.mem_external hab).mpr (.inr ⟨rfl, hannounces, hprivate⟩)
    · exact hc trivial
  · simp [hs.nothing_advertised.2]

/-! ### A relay inside the LAN -/

namespace Loopback

/-- A helper that is also a client of other relays. -/
def helperConfig : NodeConfig := { lanConfig with enableRelayClient := true }

def helperNode : Node loopback :=
  { lanNode with
    loop := { lanNode.loop with
      swarm := ⟨({} : State), true, true, []⟩
      enableRelayClient := true } }

theorem helperStarted : Started loopback helperConfig helperNode := ⟨{}, rfl, rfl⟩

/-- The address at which the node is reached through a relay in its network. -/
def relayedAddr : Multiaddr := lanAddr ++ [.p2p peer, .p2pCircuit]

end Loopback

open Loopback in
/-- The relayed address is advertised. -/
theorem helper_advertises_relayed :
    ∃ (n m : Node loopback) (π : List (Transition.Trans (Node loopback) (Label String String))),
      Started loopback helperConfig n ∧ Run loopback n π m ∧
        ¬∀ x ∈ π, ∀ addr ∈ x.post.loop.swarm.external, addr.DirectPrivate := by
  refine ⟨helperNode, _, _, helperStarted,
    helperNode.turn_run ({} : State) (.newListenAddr relayedAddr) rfl rfl rfl, fun hall => ?_⟩
  have hlast := hall _ (List.mem_of_getLast? rfl) relayedAddr (List.mem_singleton_self _)
  exact hlast.direct (by decide)

open Loopback in
/-- The node's own address in the network is advertised. -/
theorem helper_direct_iff_own :
    lanAddr.DirectPrivate ∧
      ∀ x ∈ helperNode.turnSteps ({} : State) (.newListenAddr lanAddr),
        ∀ addr ∈ x.post.loop.swarm.external, addr.DirectPrivate := by
  have hdirect : lanAddr.DirectPrivate := ⟨⟨_, rfl, .inr (.inr ⟨rfl, rfl⟩)⟩, by decide⟩
  refine ⟨hdirect, ?_⟩
  have hrun := helperNode.turn_run ({} : State) (.newListenAddr lanAddr) rfl rfl rfl
  exact (helper_direct_iff helperStarted hrun).mpr
    (by simp [Node.turnSteps, ListensDirectly, hdirect])

end SwarmP2p
