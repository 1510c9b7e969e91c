import Mathlib.Algebra.Order.Group.Multiset
import SwarmP2p.Library.History
import SwarmP2p.Model.PendingMap

/-! # The ledger of a pending map

Inserts, takes and purges of the clones of one map meet in its lock, so a run is a
sequence of them with the clock advancing in between. What goes in comes out once: the
entries inserted are the entries held together with those taken, replaced and purged. -/

namespace SwarmP2p

namespace PendingMap

variable {K V : Type}

/-! ### Runs -/

/-- The table that all clones share, and the clock. -/
structure Clocked (K V : Type) where
  map : PendingMap K V
  now : Nat

/-- The calls, each with what it returned. The cleanup task ignores what its purge
returns. -/
inductive MapLabel (K V : Type) where
  | tick
  | insert (key : K) (value : V)
  | take (key : K) (result : Option V)
  | purgeExpired (removed : Nat)
  | cleanup

def MapLabel.Purges : MapLabel K V → Prop
  | .purgeExpired _ => True
  | .cleanup => True
  | _ => False

inductive MapStep [DecidableEq K] : Clocked K V → MapLabel K V → Clocked K V → Prop where
  | tick (s : Clocked K V) {now : Nat} (h : s.now ≤ now) : MapStep s .tick { s with now := now }
  | insert (s : Clocked K V) (key value) :
      MapStep s (.insert key value) { s with map := s.map.insert s.now key value }
  | take (s : Clocked K V) (key) :
      MapStep s (.take key (s.map.take key).1) { s with map := (s.map.take key).2 }
  | purgeExpired (s : Clocked K V) :
      MapStep s (.purgeExpired (s.map.purgeExpired s.now).2)
        { s with map := (s.map.purgeExpired s.now).1 }
  | cleanup (s : Clocked K V) :
      MapStep s .cleanup { s with map := (s.map.purgeExpired s.now).1 }

abbrev MapTrans (K V : Type) := Transition.Trans (Clocked K V) (MapLabel K V)

/-! ### Accounts -/

abbrev Entries (K V : Type) := Multiset (K × PendingEntry V)

/-- The entries of the table. -/
def held (s : Clocked K V) : Entries K V := s.map.entries

def inserted (x : MapTrans K V) : Entries K V :=
  match x.label with
  | .insert key value => {(key, ⟨value, x.pre.now⟩)}
  | _ => 0

/-- The sum of an account over a run. -/
def total (account : MapTrans K V → Entries K V) (π : List (MapTrans K V)) : Entries K V :=
  (π.map account).sum

theorem total_add (f g : MapTrans K V → Entries K V) (π : List (MapTrans K V)) :
    total (fun x => f x + g x) π = total f π + total g π := by
  simp [total, List.sum_map_add]

theorem held_nodup (s : Clocked K V) : (held s).Nodup :=
  Multiset.coe_nodup.mpr (List.Nodup.of_map _ s.map.nodupKeys)

/-! ### Purges -/

/-- What a purge at this time removes. -/
def expired (s : Clocked K V) : Entries K V :=
  (held s).filter fun e => s.map.ttl ≤ s.now - e.2.createdAt

theorem purge_add_expired (s : Clocked K V) :
    held { s with map := (s.map.purgeExpired s.now).1 } + expired s = held s := by
  have hkept : held { s with map := (s.map.purgeExpired s.now).1 } =
      (held s).filter fun e => s.now - e.2.createdAt < s.map.ttl := rfl
  have hexpired : expired s = (held s).filter fun e => ¬s.now - e.2.createdAt < s.map.ttl :=
    Multiset.filter_congr fun e _ => Nat.not_lt.symm
  rw [hkept, hexpired]
  exact Multiset.filter_add_not _ _

/-- The count that a purge returns. -/
theorem purge_count (s : Clocked K V) :
    (s.map.purgeExpired s.now).2 = Multiset.card (expired s) := by
  have hcard := congrArg Multiset.card (purge_add_expired s)
  rw [Multiset.card_add] at hcard
  have hafter : Multiset.card (held { s with map := (s.map.purgeExpired s.now).1 }) =
      (s.map.purgeExpired s.now).1.len := rfl
  have hbefore : Multiset.card (held s) = s.map.len := rfl
  have hcount : (s.map.purgeExpired s.now).2 =
      s.map.len - (s.map.purgeExpired s.now).1.len := rfl
  omega

variable [DecidableEq K]

/-- What the table holds under one key. -/
def under (m : PendingMap K V) (key : K) : Entries K V :=
  ((m.get? key).toList.map (Prod.mk key) : List (K × PendingEntry V))

/-- The entry that a take has given to its caller. -/
def taken (x : MapTrans K V) : Entries K V :=
  match x.label with
  | .take key (some _) => x.pre.map.under key
  | _ => 0

/-- The entry whose place an insert has taken. -/
def replaced (x : MapTrans K V) : Entries K V :=
  match x.label with
  | .insert key _ => x.pre.map.under key
  | _ => 0

/-- The entries that are no longer there after a purge. -/
def purged (x : MapTrans K V) : Entries K V :=
  match x.label with
  | .purgeExpired _ => (held x.pre).filter fun e => x.post.map.get? e.1 = none
  | .cleanup => (held x.pre).filter fun e => x.post.map.get? e.1 = none
  | _ => 0

/-! ### The table -/

theorem mem_under (m : PendingMap K V) (key : K) (e : K × PendingEntry V) :
    e ∈ m.under key ↔ e.1 = key ∧ e ∈ m.entries := by
  obtain ⟨k, e⟩ := e
  simp only [under, Multiset.mem_coe, List.mem_map, Option.mem_toList, get?_eq_some_iff,
    Prod.mk.injEq]
  constructor
  · rintro ⟨_, he, rfl, rfl⟩
    exact ⟨rfl, he⟩
  · rintro ⟨rfl, he⟩
    exact ⟨e, he, rfl, rfl⟩

theorem under_of_some {m : PendingMap K V} {key : K} {e : PendingEntry V}
    (h : m.get? key = some e) : m.under key = {(key, e)} := by
  simp [under, h]

theorem under_of_none {m : PendingMap K V} {key : K} (h : m.get? key = none) :
    m.under key = 0 := by
  simp [under, h]

theorem under_nodup (m : PendingMap K V) (key : K) : (m.under key).Nodup := by
  cases h : m.get? key with
  | none =>
      rw [under_of_none h]
      exact Multiset.nodup_zero
  | some e =>
      rw [under_of_some h]
      exact Multiset.nodup_singleton _

/-- Removing a key splits off what is under it. -/
theorem remove_add_under (s : Clocked K V) (key : K) :
    held { s with map := s.map.remove key } + s.map.under key = held s := by
  have hunder : s.map.under key = (held s).filter fun e => ¬e.1 ≠ key := by
    refine ((s.map.under_nodup key).ext ((held_nodup s).filter _)).mpr fun e => ?_
    rw [mem_under, Multiset.mem_filter, held, Multiset.mem_coe, not_not, and_comm]
  have hremove : held { s with map := s.map.remove key } =
      (held s).filter fun e => e.1 ≠ key := rfl
  rw [hunder, hremove]
  exact Multiset.filter_add_not _ _

/-- The entries that a purge takes out are those that it does not retain. -/
theorem get?_retain_eq_none {m : PendingMap K V} {p : K × PendingEntry V → Bool}
    {e : K × PendingEntry V} (he : e ∈ m.entries) :
    (m.retain p).get? e.1 = none ↔ p e = false := by
  constructor
  · intro hnone
    by_contra hp
    have hmem : (e.1, e.2) ∈ (m.retain p).entries :=
      List.mem_filter.mpr ⟨he, by simpa using hp⟩
    rw [← get?_eq_some_iff, hnone] at hmem
    cases hmem
  · intro hp
    cases h : (m.retain p).get? e.1 with
    | none => rfl
    | some e' =>
        have hm := get?_retain_of_some h
        rw [(m.get?_eq_some_iff _ _).mpr he] at hm
        obtain rfl := Option.some.inj hm
        have hkept := (List.mem_filter.mp ((get?_eq_some_iff _ _ _).mp h)).2
        rw [hp] at hkept
        cases hkept

theorem filter_purged (s : Clocked K V) :
    ((held s).filter fun e => (s.map.purgeExpired s.now).1.get? e.1 = none) = expired s := by
  refine Multiset.filter_congr fun e he => ?_
  have hr := get?_retain_eq_none (p := fun e => decide (s.now - e.2.createdAt < s.map.ttl))
    (Multiset.mem_coe.mp he)
  rw [decide_eq_false_iff_not, Nat.not_lt] at hr
  exact hr

/-! ### Steps -/

variable {s t : Clocked K V} {l : MapLabel K V}

/-- No step makes or loses an entry. -/
theorem MapStep.balance (h : MapStep s l t) :
    held s + inserted ⟨s, l, t⟩ =
      held t + (taken ⟨s, l, t⟩ + replaced ⟨s, l, t⟩ + purged ⟨s, l, t⟩) := by
  cases h with
  | tick _ => simp [inserted, taken, replaced, purged, held]
  | insert key value =>
      have hheld : held { s with map := s.map.insert s.now key value } =
          {(key, ⟨value, s.now⟩)} + held { s with map := s.map.remove key } := rfl
      simp only [inserted, taken, replaced, purged, zero_add, add_zero]
      rw [hheld, ← remove_add_under s key, add_comm]
      exact (add_assoc _ _ _).symm
  | take key =>
      have htaken : taken ⟨s, .take key (s.map.take key).1,
          { s with map := (s.map.take key).2 }⟩ = s.map.under key := by
        cases hg : s.map.get? key with
        | none => simp only [taken, PendingMap.take, hg, Option.map_none, under_of_none hg]
        | some e => simp only [taken, PendingMap.take, hg, Option.map_some]
      rw [htaken]
      simp only [inserted, replaced, purged, add_zero]
      exact (remove_add_under s key).symm
  | purgeExpired =>
      simp only [inserted, taken, replaced, purged, zero_add, add_zero, filter_purged]
      exact (purge_add_expired s).symm
  | cleanup =>
      simp only [inserted, taken, replaced, purged, zero_add, add_zero, filter_purged]
      exact (purge_add_expired s).symm

/-- No entry was made in the future. -/
structure Aged (ttl : Nat) (s : Clocked K V) : Prop where
  ttl_eq : s.map.ttl = ttl
  past : ∀ e ∈ held s, e.2.createdAt ≤ s.now

omit [DecidableEq K] in
theorem Aged.of_le {ttl : Nat} (h : Aged ttl s) (httl : t.map.ttl = s.map.ttl)
    (hnow : t.now = s.now) (hle : held t ≤ held s) : Aged ttl t := by
  refine ⟨httl.trans h.ttl_eq, fun e he => ?_⟩
  rw [hnow]
  exact h.past e (Multiset.mem_of_le hle he)

theorem Aged.step {ttl : Nat} (h : Aged ttl s) (hs : MapStep s l t) : Aged ttl t := by
  cases hs with
  | tick hnow => exact ⟨h.ttl_eq, fun e he => (h.past e he).trans hnow⟩
  | insert key value =>
      refine ⟨h.ttl_eq, fun e he => ?_⟩
      rcases List.mem_cons.mp (Multiset.mem_coe.mp he) with rfl | he
      · exact le_refl _
      · exact h.past e (Multiset.mem_of_le
          ((remove_add_under s key).le.trans' (Multiset.le_add_right _ _)) he)
  | take key =>
      exact h.of_le rfl rfl ((remove_add_under s key).le.trans' (Multiset.le_add_right _ _))
  | purgeExpired =>
      exact h.of_le rfl rfl ((purge_add_expired s).le.trans' (Multiset.le_add_right _ _))
  | cleanup =>
      exact h.of_le rfl rfl ((purge_add_expired s).le.trans' (Multiset.le_add_right _ _))

/-- What a call returns, and which entries it may touch. -/
structure Sound (ttl : Nat) (x : MapTrans K V) : Prop where
  take_some : ∀ key value, x.label = .take key (some value) →
    ∃ createdAt, taken x = {(key, ⟨value, createdAt⟩)}
  take_none : ∀ key, x.label = .take key none → ∀ e ∈ held x.pre, e.1 ≠ key
  same_key : ∀ key value, x.label = .insert key value → ∀ e ∈ replaced x, e.1 = key
  aged : ∀ e ∈ purged x, e.2.createdAt + ttl ≤ x.pre.now
  young : x.label.Purges → ∀ e ∈ held x.post, x.post.now < e.2.createdAt + ttl
  count : ∀ removed, x.label = .purgeExpired removed → removed = Multiset.card (purged x)

theorem Sound.of_take {ttl : Nat} (s : Clocked K V) (key : K) (t : Clocked K V) :
    Sound ttl ⟨s, .take key (s.map.take key).1, t⟩ := by
  refine ⟨?_, ?_, fun _ _ hl => (by cases hl), (fun _ he => absurd he (Multiset.notMem_zero _)),
    False.elim, fun _ hl => (by cases hl)⟩
  · intro key' value hl
    obtain ⟨rfl, hresult⟩ := MapLabel.take.inj hl
    obtain ⟨e, hg, rfl⟩ := Option.map_eq_some_iff.mp hresult
    exact ⟨e.createdAt, by simp only [taken, hresult, under_of_some hg]⟩
  · intro key' hl e he
    obtain ⟨rfl, hresult⟩ := MapLabel.take.inj hl
    rintro rfl
    rw [PendingMap.take, (s.map.get?_eq_some_iff _ _).mpr he] at hresult
    cases hresult

omit [DecidableEq K] in
theorem Aged.of_purge {ttl : Nat} (h : Aged ttl s) :
    (∀ e ∈ expired s, e.2.createdAt + ttl ≤ s.now) ∧
      ∀ e ∈ held { s with map := (s.map.purgeExpired s.now).1 }, s.now < e.2.createdAt + ttl := by
  refine ⟨fun e he => ?_, fun e he => ?_⟩
  · obtain ⟨he, hage⟩ := Multiset.mem_filter.mp he
    have hpast := h.past e he
    rw [h.ttl_eq] at hage
    omega
  · obtain ⟨he, hage⟩ := List.mem_filter.mp (Multiset.mem_coe.mp he)
    have hyoung := of_decide_eq_true hage
    rw [h.ttl_eq] at hyoung
    omega

theorem Aged.sound {ttl : Nat} (h : Aged ttl s) (hs : MapStep s l t) : Sound ttl ⟨s, l, t⟩ := by
  cases hs with
  | tick hnow =>
      exact ⟨fun _ _ hl => (by cases hl), fun _ hl => (by cases hl), fun _ _ hl => (by cases hl),
        fun _ he => absurd he (Multiset.notMem_zero _), False.elim, fun _ hl => (by cases hl)⟩
  | insert key value =>
      refine ⟨fun _ _ hl => (by cases hl), fun _ hl => (by cases hl), ?_,
        fun _ he => absurd he (Multiset.notMem_zero _), False.elim, fun _ hl => (by cases hl)⟩
      intro key' value' hl e he
      obtain ⟨rfl, rfl⟩ := MapLabel.insert.inj hl
      exact ((mem_under _ _ _).mp he).1
  | take key => exact .of_take s key _
  | purgeExpired =>
      refine ⟨fun _ _ hl => (by cases hl), fun _ hl => (by cases hl), fun _ _ hl => (by cases hl),
        fun e he => ?_, fun _ => h.of_purge.2, fun removed hl => ?_⟩
      · exact h.of_purge.1 e (by rwa [← filter_purged])
      · obtain rfl := MapLabel.purgeExpired.inj hl
        rw [purge_count, ← filter_purged]
        rfl
  | cleanup =>
      refine ⟨fun _ _ hl => (by cases hl), fun _ hl => (by cases hl), fun _ _ hl => (by cases hl),
        fun e he => ?_, fun _ => h.of_purge.2, fun _ hl => (by cases hl)⟩
      exact h.of_purge.1 e (by rwa [← filter_purged])

/-! ### The ledger -/

/-- Every entry that was inserted is held, or was taken, replaced or purged once. -/
theorem entries_accounted {ttl now : Nat} {s : Clocked K V} {π : List (MapTrans K V)}
    (h : Transition.Path MapStep ⟨.new ttl, now⟩ π s) :
    total inserted π = held s + (total taken π + total replaced π + total purged π) ∧
      ∀ x ∈ π, Sound ttl x := by
  have hnew : Aged ttl (⟨.new ttl, now⟩ : Clocked K V) :=
    ⟨rfl, fun _ he => absurd he (Multiset.notMem_zero _)⟩
  have hstep := fun (a : Clocked K V) l b (ha : Aged ttl a) (hs : MapStep a l b) => ha.step hs
  refine ⟨?_, fun x hx => ?_⟩
  · have hbalance : held ⟨.new ttl, now⟩ + total inserted π =
        held s + total (fun x => taken x + replaced x + purged x) π :=
      h.balance hstep (fun _ _ _ _ hs => hs.balance) hnew
    have hempty : held (⟨.new ttl, now⟩ : Clocked K V) = 0 := rfl
    rw [hempty, zero_add] at hbalance
    rw [← total_add, ← total_add]
    exact hbalance
  · obtain ⟨ρ, hp, hs⟩ := h.mem x hx
    exact (hp.invariant hnew hstep).sound hs

/-- Two inserts under one key; the second entry is purged when its time is up. -/
theorem entries_accounted_purged :
    let s₀ : Clocked Nat String := ⟨.new 2, 0⟩
    let s₁ : Clocked Nat String := { s₀ with map := s₀.map.insert 0 7 "first" }
    let s₂ : Clocked Nat String := { s₁ with map := s₁.map.insert 0 7 "second" }
    let s₃ : Clocked Nat String := { s₂ with now := 2 }
    let s₄ : Clocked Nat String := { s₃ with map := (s₃.map.purgeExpired 2).1 }
    let π : List (MapTrans Nat String) :=
      [⟨s₀, .insert 7 "first", s₁⟩, ⟨s₁, .insert 7 "second", s₂⟩, ⟨s₂, .tick, s₃⟩,
        ⟨s₃, .purgeExpired 1, s₄⟩]
    total inserted π = held s₄ + (total taken π + total replaced π + total purged π) ∧
      ∀ x ∈ π, Sound 2 x := by
  intro s₀ s₁ s₂ s₃ s₄ π
  have hfirst : MapStep s₀ (.insert 7 "first") s₁ := .insert s₀ 7 "first"
  have hsecond : MapStep s₁ (.insert 7 "second") s₂ := .insert s₁ 7 "second"
  have htick : MapStep s₂ .tick s₃ := .tick s₂ (Nat.zero_le 2)
  have hpurge : MapStep s₃ (.purgeExpired 1) s₄ := .purgeExpired s₃
  exact entries_accounted ((((Transition.Path.single hfirst).snoc hsecond).snoc htick).snoc hpurge)

end PendingMap

end SwarmP2p
