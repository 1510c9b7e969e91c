import Mathlib.Data.Multiset.AddSub
import SwarmP2p.Library.Transition
import SwarmP2p.Verification.DataChannel.Accounts

/-! # The registry as a bag of guards

What the quota registry is for: a bag of live guards with an upper bound for each peer
and direction and for each protocol. The registry keeps counters instead of the bag;
along every run of acquisitions and drops the two agree. -/

namespace SwarmP2p

/-! ### The bag -/

/-- What the limits see of a guard. -/
structure GuardKey where
  peer : PeerId
  protocol : StreamProtocol
  direction : DataChannelDirection
  deriving DecidableEq, Repr

def ChannelGuard.key (g : ChannelGuard) : GuardKey := ⟨g.peer, g.protocol, g.direction⟩

theorem ChannelGuard.owned_peerKey (g : ChannelGuard) (d : DataChannelDirection) (p : PeerId) :
    g.owned.peerKey d = some p ↔ g.key.direction = d ∧ g.key.peer = p := by
  obtain ⟨serial, peer, protocol, direction⟩ := g
  by_cases hd : direction = d <;> simp [owned, QuotaOwner.peerKey, key, hd]

namespace GuardBag

/-- The guards of one peer in one direction. -/
def peerCount (bag : Multiset GuardKey) (direction : DataChannelDirection) (peer : PeerId) :
    Nat :=
  bag.countP fun k => k.direction = direction ∧ k.peer = peer

/-- The guards of one protocol in both directions. -/
def protocolCount (bag : Multiset GuardKey) (protocol : StreamProtocol) : Nat :=
  bag.countP fun k => k.protocol = protocol

def Allows (limits : DataChannelLimits) (bag : Multiset GuardKey) (k : GuardKey) : Prop :=
  peerCount bag k.direction k.peer < limits.perPeer k.direction ∧
    protocolCount bag k.protocol < limits.maxPerProtocol

end GuardBag

inductive RegistryLabel where
  | tryAcquire (key : GuardKey) (granted : Bool)
  | drop (key : GuardKey)

inductive BagStep (limits : DataChannelLimits) :
    Multiset GuardKey → RegistryLabel → Multiset GuardKey → Prop where
  | granted {bag k} (h : GuardBag.Allows limits bag k) :
      BagStep limits bag (.tryAcquire k true) (k ::ₘ bag)
  | refused {bag k} (h : ¬GuardBag.Allows limits bag k) :
      BagStep limits bag (.tryAcquire k false) bag
  | drop {bag k} (h : k ∈ bag) : BagStep limits bag (.drop k) (bag.erase k)

/-! ### The registry with the guards it has handed out -/

structure RegistryState where
  registry : ChannelRegistry
  guards : List ChannelGuard

namespace RegistryState

def new (limits : DataChannelLimits) : RegistryState := ⟨⟨limits, .empty⟩, []⟩

/-- A call of `try_acquire`, and whether it returned a guard. -/
def tryAcquire (s : RegistryState) (serial : Nat) (k : GuardKey) : RegistryState × Bool :=
  match s.registry.tryAcquire k.peer k.protocol k.direction with
  | some registry => (⟨registry, ⟨serial, k.peer, k.protocol, k.direction⟩ :: s.guards⟩, true)
  | none => (s, false)

def bag (s : RegistryState) : Multiset GuardKey := s.guards.map ChannelGuard.key

end RegistryState

inductive RegistryStep : RegistryState → RegistryLabel → RegistryState → Prop where
  | tryAcquire (s : RegistryState) (serial k) :
      RegistryStep s (.tryAcquire k (s.tryAcquire serial k).2) (s.tryAcquire serial k).1
  | drop {s : RegistryState} {front g back} (h : s.guards = front ++ g :: back) :
      RegistryStep s (.drop g.key)
        ⟨{ s.registry with inner := g.drop s.registry.inner }, front ++ back⟩

/-! ### Exact counters -/

/-- A counter is there when it is positive. -/
def exactCounter (n : Nat) : Option Nat := if n = 0 then none else some n

theorem exactCounter_pos {n : Nat} (h : 0 < n) : exactCounter n = some (n - 1 + 1) := by
  rw [exactCounter, if_neg (by omega), Nat.sub_add_cancel h]

namespace RegistryState

/-- The three maps hold the positive counts of the bag and nothing else. -/
structure Exact (s : RegistryState) : Prop where
  perPeer : ∀ d p, s.registry.inner.perPeer d p = exactCounter (GuardBag.peerCount s.bag d p)
  perProtocol : ∀ q,
    s.registry.inner.perProtocol q = exactCounter (GuardBag.protocolCount s.bag q)

theorem peerCount_bag (s : RegistryState) (d : DataChannelDirection) (p : PeerId) :
    Tally.count (QuotaOwner.peerKey d) (s.guards.map ChannelGuard.owned) p =
      GuardBag.peerCount s.bag d p := by
  simp only [Tally.count, GuardBag.peerCount, bag, Multiset.coe_countP, List.countP_map]
  refine List.countP_congr fun g _ => ?_
  exact decide_eq_true_iff.trans ((g.owned_peerKey d p).trans decide_eq_true_iff.symm)

theorem protocolCount_bag (s : RegistryState) (q : StreamProtocol) :
    Tally.count QuotaOwner.protocolKey (s.guards.map ChannelGuard.owned) q =
      GuardBag.protocolCount s.bag q := by
  simp only [Tally.count, GuardBag.protocolCount, bag, Multiset.coe_countP, List.countP_map]
  refine List.countP_congr fun g _ => ?_
  exact decide_eq_true_iff.trans (Option.some_inj.trans decide_eq_true_iff.symm)

theorem exact_iff_counts (s : RegistryState) :
    s.Exact ↔ s.registry.inner.Counts (s.guards.map ChannelGuard.owned) := by
  constructor
  · intro h
    refine ⟨fun d p => ?_, fun q => ?_⟩
    · rw [s.peerCount_bag]
      exact h.perPeer d p
    · rw [s.protocolCount_bag]
      exact h.perProtocol q
  · intro h
    refine ⟨fun d p => ?_, fun q => ?_⟩
    · rw [← s.peerCount_bag]
      exact h.perPeer d p
    · rw [← s.protocolCount_bag]
      exact h.perProtocol q

namespace Exact

variable {s t : RegistryState} {l : RegistryLabel}

theorem new (limits : DataChannelLimits) : (new limits).Exact :=
  (exact_iff_counts _).mpr .empty

theorem getD (h : s.Exact) (k : GuardKey) :
    (s.registry.inner.perPeer k.direction k.peer).getD 0 =
        GuardBag.peerCount s.bag k.direction k.peer ∧
      (s.registry.inner.perProtocol k.protocol).getD 0 =
        GuardBag.protocolCount s.bag k.protocol := by
  have hc := (exact_iff_counts s).mp h
  rw [← s.peerCount_bag, ← s.protocolCount_bag]
  exact ⟨(hc.perPeer k.direction).getD _, hc.perProtocol.getD _⟩

theorem tryAcquire_isSome (h : s.Exact) (k : GuardKey) :
    (s.registry.tryAcquire k.peer k.protocol k.direction).isSome ↔
      GuardBag.Allows s.registry.limits s.bag k := by
  simp only [ChannelRegistry.tryAcquire, (h.getD k).1, (h.getD k).2, GuardBag.Allows]
  split
  · simp only [Option.isSome_none, Bool.false_eq_true, false_iff]
    omega
  · simp only [Option.isSome_some, true_iff]
    omega

theorem counts (h : s.Exact) : s.registry.inner.Counts (s.guards.map ChannelGuard.owned) :=
  (exact_iff_counts s).mp h

/-- A guard that is alive has both of its counters. -/
theorem counted (h : s.Exact) {g : ChannelGuard} (hg : g ∈ s.guards) :
    (∃ n, s.registry.inner.perPeer g.direction g.peer = some (n + 1)) ∧
      ∃ n, s.registry.inner.perProtocol g.protocol = some (n + 1) := by
  have hkey : g.key ∈ s.bag := Multiset.mem_coe.mpr (List.mem_map_of_mem hg)
  have hpeer : 0 < GuardBag.peerCount s.bag g.direction g.peer :=
    Multiset.countP_pos.mpr ⟨_, hkey, rfl, rfl⟩
  have hprotocol : 0 < GuardBag.protocolCount s.bag g.protocol :=
    Multiset.countP_pos.mpr ⟨_, hkey, rfl⟩
  rw [h.perPeer, h.perProtocol]
  exact ⟨⟨_, exactCounter_pos hpeer⟩, ⟨_, exactCounter_pos hprotocol⟩⟩

/-- What a granted call has checked, and what it leaves behind. -/
theorem granted (h : s.Exact) (serial : Nat) {k : GuardKey}
    (hk : GuardBag.Allows s.registry.limits s.bag k) :
    (s.tryAcquire serial k).2 = true ∧ (s.tryAcquire serial k).1.bag = k ::ₘ s.bag ∧
      (s.tryAcquire serial k).1.Exact ∧
      (s.tryAcquire serial k).1.registry.limits = s.registry.limits := by
  obtain ⟨registry, hr⟩ := Option.isSome_iff_exists.mp ((h.tryAcquire_isSome k).mpr hk)
  have hgrant := ChannelRegistry.tryAcquire_granted h.counts hr
  have heq : s.tryAcquire serial k =
      (⟨registry, ⟨serial, k.peer, k.protocol, k.direction⟩ :: s.guards⟩, true) := by
    simp only [RegistryState.tryAcquire, hr]
  rw [heq]
  exact ⟨rfl, rfl, (exact_iff_counts _).mpr (hgrant.counts _), hgrant.limits_eq⟩

theorem refused (h : s.Exact) {serial : Nat} {k : GuardKey}
    (hk : ¬GuardBag.Allows s.registry.limits s.bag k) : s.tryAcquire serial k = (s, false) := by
  have hr : s.registry.tryAcquire k.peer k.protocol k.direction = none :=
    Option.not_isSome_iff_eq_none.mp fun hs => hk ((h.tryAcquire_isSome k).mp hs)
  simp only [RegistryState.tryAcquire, hr]

theorem drop (h : s.Exact) {front back : List ChannelGuard} {g : ChannelGuard}
    (hg : s.guards = front ++ g :: back) :
    (⟨{ s.registry with inner := g.drop s.registry.inner }, front ++ back⟩ :
      RegistryState).Exact := by
  have hperm : (s.guards.map ChannelGuard.owned).Perm
      (g.owned :: (front ++ back).map ChannelGuard.owned) := by
    rw [hg]
    exact List.perm_middle.map _
  exact (exact_iff_counts _).mpr (h.counts.perm hperm).drop

end Exact

/-! ### Runs -/

/-- The counters are exact, and the limits are those the registry was made with. -/
structure Refining (limits : DataChannelLimits) (s : RegistryState) : Prop where
  exact : s.Exact
  limits : s.registry.limits = limits

/-- What a call does to the registry and what it never meets. -/
structure Sound (s : RegistryState) (l : RegistryLabel) (t : RegistryState) : Prop where
  refused : ∀ k, l = .tryAcquire k false → t.registry.inner = s.registry.inner
  no_overflow : ∀ k, l = .tryAcquire k true →
    (s.registry.inner.perPeer k.direction k.peer).getD 0 + 1 < wordSize ∧
      (s.registry.inner.perProtocol k.protocol).getD 0 + 1 < wordSize
  no_missing : ∀ k, l = .drop k →
    (∃ n, s.registry.inner.perPeer k.direction k.peer = some (n + 1)) ∧
      ∃ n, s.registry.inner.perProtocol k.protocol = some (n + 1)

namespace Refining

variable {limits : DataChannelLimits} {s t : RegistryState} {l : RegistryLabel}

theorem step (h : s.Refining limits) (hs : RegistryStep s l t) : t.Refining limits := by
  obtain ⟨hexact, rfl⟩ := h
  cases hs with
  | tryAcquire serial k =>
      by_cases hk : GuardBag.Allows s.registry.limits s.bag k
      · obtain ⟨_, _, hexact', hlimits⟩ := hexact.granted serial hk
        exact ⟨hexact', hlimits⟩
      · rw [hexact.refused hk]
        exact ⟨hexact, rfl⟩
  | drop hg => exact ⟨hexact.drop hg, rfl⟩

theorem bagStep (h : s.Refining limits) (hs : RegistryStep s l t) :
    BagStep limits s.bag l t.bag := by
  obtain ⟨hexact, rfl⟩ := h
  cases hs with
  | tryAcquire serial k =>
      by_cases hk : GuardBag.Allows s.registry.limits s.bag k
      · obtain ⟨hgranted, hbag, _, _⟩ := hexact.granted serial hk
        rw [hgranted, hbag]
        exact .granted hk
      · rw [hexact.refused hk]
        exact .refused hk
  | @drop front g back hg =>
      have hbag : s.bag = g.key ::ₘ
          (⟨{ s.registry with inner := g.drop s.registry.inner }, front ++ back⟩ :
            RegistryState).bag := by
        simp only [bag, hg, Multiset.cons_coe]
        exact Multiset.coe_eq_coe.mpr (List.perm_middle.map ChannelGuard.key)
      have hmem : g.key ∈ s.bag := by
        rw [hbag]
        exact Multiset.mem_cons_self ..
      have herase : BagStep s.registry.limits s.bag _ _ := .drop hmem
      rw [hbag, Multiset.erase_cons_head, ← hbag] at herase
      exact herase

theorem sound (h : s.Refining limits) (hs : RegistryStep s l t) : s.Sound l t := by
  obtain ⟨hexact, rfl⟩ := h
  cases hs with
  | tryAcquire serial k =>
      refine ⟨?_, ?_, fun _ hl => (by cases hl)⟩
      all_goals
        intro k' hl
        obtain ⟨rfl, hresult⟩ := RegistryLabel.tryAcquire.inj hl
      · by_cases hk : GuardBag.Allows s.registry.limits s.bag k
        · rw [(hexact.granted serial hk).1] at hresult
          cases hresult
        · rw [hexact.refused hk]
      · by_cases hk : GuardBag.Allows s.registry.limits s.bag k
        · have hpeer := s.registry.limits.perPeer_lt k.direction
          have hprotocol := s.registry.limits.protocol_lt
          obtain ⟨hroom, hroom'⟩ := hk
          rw [(hexact.getD k).1, (hexact.getD k).2]
          omega
        · rw [hexact.refused hk] at hresult
          cases hresult
  | @drop front g back hg =>
      refine ⟨fun _ hl => (by cases hl), fun _ hl => (by cases hl), ?_⟩
      intro k hl
      obtain rfl := RegistryLabel.drop.inj hl
      exact hexact.counted (by simp [hg])

end Refining

end RegistryState

/-- Every run of a new registry is a run of the bag of its live guards, and at the end of
it the counters are those of the bag. -/
theorem registry_refines_bag {limits : DataChannelLimits} {s : RegistryState}
    {π : List (Transition.Trans RegistryState RegistryLabel)}
    (h : Transition.Path RegistryStep (RegistryState.new limits) π s) :
    Transition.Path (BagStep limits) 0 (π.map (.map RegistryState.bag)) s.bag ∧
      s.Exact ∧ ∀ x ∈ π, x.pre.Exact ∧ x.pre.Sound x.label x.post := by
  have hnew : (RegistryState.new limits).Refining limits := ⟨.new limits, rfl⟩
  have hstep := fun a l b (ha : RegistryState.Refining limits a) (hs : RegistryStep a l b) =>
    ha.step hs
  refine ⟨h.refine _ hstep (fun _ _ _ ha hs => ha.bagStep hs) hnew,
    (h.invariant hnew hstep).exact, ?_⟩
  intro x hx
  obtain ⟨ρ, hp, hs⟩ := h.mem x hx
  have hpre := hp.invariant hnew hstep
  exact ⟨hpre.exact, hpre.sound hs⟩

/-- A guard is acquired, a second one is refused, and the first is dropped. -/
theorem registry_refines_bag_dropped :
    let limits : DataChannelLimits := ⟨1, 1, 1, by decide, by decide, by decide⟩
    let k : GuardKey := ⟨⟨[1]⟩, "/transfer", .outbound⟩
    let s := ((RegistryState.new limits).tryAcquire 0 k).1
    let t : RegistryState :=
      ⟨{ s.registry with
        inner := (⟨0, k.peer, k.protocol, k.direction⟩ : ChannelGuard).drop s.registry.inner }, []⟩
    let π : List (Transition.Trans RegistryState RegistryLabel) :=
      [⟨.new limits, .tryAcquire k true, s⟩, ⟨s, .tryAcquire k false, s⟩, ⟨s, .drop k, t⟩]
    Transition.Path (BagStep limits) 0 (π.map (.map RegistryState.bag)) t.bag ∧
      t.Exact ∧ ∀ x ∈ π, x.pre.Exact ∧ x.pre.Sound x.label x.post := by
  intro limits k s t π
  have hgranted : RegistryStep (.new limits) (.tryAcquire k true) s := .tryAcquire _ 0 k
  have hrefused : RegistryStep s (.tryAcquire k false) s := .tryAcquire s 1 k
  have hdrop : RegistryStep s (.drop k) t :=
    @RegistryStep.drop s [] ⟨0, k.peer, k.protocol, k.direction⟩ [] rfl
  exact registry_refines_bag (((Transition.Path.single hgranted).snoc hrefused).snoc hdrop)

end SwarmP2p
