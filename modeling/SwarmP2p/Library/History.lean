import Mathlib.Algebra.BigOperators.Group.List.Basic
import Mathlib.Algebra.GroupWithZero.Nat
import Mathlib.Data.Multiset.Bind
import SwarmP2p.Library.Transition

/-! # History variables

A history variable is a value computed from the transitions taken so far. It only
watches: every run carries it along, and the rules for runs apply to the pair. -/

namespace Transition

universe u v w

variable {σ : Type u} {ℓ : Type v} {η : Type w} {step : σ → ℓ → σ → Prop}
variable {observe : η → Trans σ ℓ → η}

/-- The system whose states are paired with the history so far. -/
def Watched (step : σ → ℓ → σ → Prop) (observe : η → Trans σ ℓ → η) :
    η × σ → ℓ → η × σ → Prop :=
  fun a l b => step a.2 l b.2 ∧ b.1 = observe a.1 ⟨a.2, l, b.2⟩

/-- The transitions of a run with the history before and after each of them. -/
def watch (observe : η → Trans σ ℓ → η) (h : η) :
    List (Trans σ ℓ) → List (Trans (η × σ) ℓ)
  | [] => []
  | x :: π => ⟨(h, x.pre), x.label, (observe h x, x.post)⟩ :: watch observe (observe h x) π

theorem watch_append (h : η) (π ρ : List (Trans σ ℓ)) :
    watch observe h (π ++ ρ) = watch observe h π ++ watch observe (π.foldl observe h) ρ := by
  induction π generalizing h with
  | nil => rfl
  | cons x π ih => simp [watch, ih]

theorem Path.watch (observe : η → Trans σ ℓ → η) (h₀ : η) {s t : σ} {π : List (Trans σ ℓ)}
    (h : Path step s π t) :
    Path (Watched step observe) (h₀, s) (watch observe h₀ π) (π.foldl observe h₀, t) := by
  induction h with
  | nil => exact .nil
  | @snoc π t l u _ hs ih =>
      rw [watch_append, List.foldl_append]
      exact .snoc ih ⟨hs, rfl⟩

/-! ### Balances -/

/-- When every step balances what it takes in against what it puts out, so does every run. -/
theorem Path.balance {M : Type*} [AddCommMonoid M] {I : σ → Prop} {stock : σ → M}
    {inflow outflow : Trans σ ℓ → M} (hI : ∀ a l b, I a → step a l b → I b)
    (hstep : ∀ a l b, I a → step a l b →
      stock a + inflow ⟨a, l, b⟩ = stock b + outflow ⟨a, l, b⟩)
    {s t : σ} {π : List (Trans σ ℓ)} (h : Path step s π t) (hIs : I s) :
    stock s + (π.map inflow).sum = stock t + (π.map outflow).sum := by
  induction h with
  | nil => rfl
  | @snoc π t l u hp hs ih =>
      simp only [List.map_append, List.sum_append, List.map_singleton, List.sum_singleton]
      calc stock s + ((π.map inflow).sum + inflow ⟨t, l, u⟩)
          = stock t + inflow ⟨t, l, u⟩ + (π.map outflow).sum := by
            rw [← add_assoc, ih, add_right_comm]
        _ = stock u + ((π.map outflow).sum + outflow ⟨t, l, u⟩) := by
            rw [hstep t l u (hp.invariant hIs hI) hs, add_assoc, add_comm (outflow _)]

/-- The same for what is kept in lists, in any order. -/
theorem Path.balance_perm {α : Type w} (stock : σ → List α) (inflow outflow : Trans σ ℓ → List α)
    (hstep : ∀ a l b, step a l b →
      (stock a ++ inflow ⟨a, l, b⟩).Perm (stock b ++ outflow ⟨a, l, b⟩))
    {s t : σ} {π : List (Trans σ ℓ)} (h : Path step s π t) :
    (stock s ++ π.flatMap inflow).Perm (stock t ++ π.flatMap outflow) := by
  have hsum : ∀ f : Trans σ ℓ → List α,
      (π.map fun x => (f x : Multiset α)).sum = (π.flatMap f : Multiset α) := fun f => by
    rw [← Multiset.coe_bind, Multiset.bind, Multiset.join, Multiset.map_coe, Multiset.sum_coe]
  have hbalance := @Path.balance σ ℓ step (Multiset α) _ (fun _ => True) (fun s => stock s)
    (fun x => inflow x) (fun x => outflow x) (fun _ _ _ _ _ => trivial)
    (fun a l b _ hs => Multiset.coe_eq_coe.mpr (hstep a l b hs)) s t π h trivial
  rw [hsum, hsum] at hbalance
  exact Multiset.coe_eq_coe.mp hbalance

/-- When every step pays its cost out of a potential and what it is credited, a run costs no
more than the potential at its start and all the credit. -/
theorem Path.budget {I : σ → Prop} {Φ : σ → ℕ} {cost credit : Trans σ ℓ → ℕ}
    (hI : ∀ a l b, I a → step a l b → I b)
    (hstep : ∀ a l b, I a → step a l b → Φ b + cost ⟨a, l, b⟩ ≤ Φ a + credit ⟨a, l, b⟩)
    {s t : σ} {π : List (Trans σ ℓ)} (h : Path step s π t) (hIs : I s) :
    Φ t + (π.map cost).sum ≤ Φ s + (π.map credit).sum := by
  induction h with
  | nil => simp
  | @snoc π t l u hp hs ih =>
      simp only [List.map_append, List.sum_append, List.map_singleton, List.sum_singleton]
      have hlast := hstep t l u (hp.invariant hIs hI) hs
      omega

/-- Without credit, a run costs no more than the potential at its start. -/
theorem Path.potential {I : σ → Prop} {Φ : σ → ℕ} {cost : Trans σ ℓ → ℕ}
    (hI : ∀ a l b, I a → step a l b → I b)
    (hstep : ∀ a l b, I a → step a l b → Φ b + cost ⟨a, l, b⟩ ≤ Φ a)
    {s t : σ} {π : List (Trans σ ℓ)} (h : Path step s π t) (hIs : I s) :
    Φ t + (π.map cost).sum ≤ Φ s := by
  have hbudget : Φ t + (π.map cost).sum ≤ Φ s + (π.map fun _ => 0).sum := h.budget hI hstep hIs
  simpa using hbudget

/-- A system that can always take a step of its own which lowers a measure, unless it is
done, can be brought to its end by such steps. -/
theorem exists_path_to {I : σ → Prop} (Done : σ → Prop) (P : ℓ → Prop) (Φ : σ → ℕ)
    (hI : ∀ a l b, I a → P l → step a l b → I b)
    (hprogress : ∀ a, I a → ¬Done a → ∃ l b, P l ∧ step a l b ∧ Φ b < Φ a) {s : σ} (hs : I s) :
    ∃ π t, Path step s π t ∧ Done t ∧ π.length ≤ Φ s ∧ ∀ x ∈ π, P x.label := by
  generalize hk : Φ s = k
  induction k using Nat.strongRecOn generalizing s with
  | ind k ih =>
      by_cases hd : Done s
      · exact ⟨[], s, .nil, hd, Nat.zero_le _, by simp⟩
      · obtain ⟨l, b, hl, hstep, hlt⟩ := hprogress s hs hd
        obtain ⟨π, t, hpath, hdone, hlen, hall⟩ := ih (Φ b) (hk ▸ hlt) (hI _ _ _ hs hl hstep) rfl
        refine ⟨⟨s, l, b⟩ :: π, t, (Path.single hstep).append hpath, hdone, ?_, ?_⟩
        · rw [List.length_cons]
          omega
        · intro x hx
          rcases List.mem_cons.mp hx with rfl | hx
          · exact hl
          · exact hall x hx

/-! ### Snapshots -/

/-- Snapshots of something that only grows are each below all later ones. -/
theorem Path.snapshots {α : Type w} (R : α → α → Prop) [IsPreorder α R] {I : σ → Prop}
    (view : σ → α) (log : Trans σ ℓ → List α) (hI : ∀ a l b, I a → step a l b → I b)
    (hgrow : ∀ a l b, I a → step a l b → R (view a) (view b))
    (hlog : ∀ a l b, I a → step a l b → ∀ v ∈ log ⟨a, l, b⟩, v = view b) {s t : σ}
    {π : List (Trans σ ℓ)} (h : Path step s π t) (hIs : I s) :
    (π.flatMap log).Pairwise R ∧ ∀ v ∈ π.flatMap log, R v (view t) := by
  induction h with
  | nil => simp
  | @snoc π t l u hp hs ih =>
      have hIt := hp.invariant hIs hI
      have hbelow : ∀ v ∈ π.flatMap log, R v (view u) := fun v hv =>
        trans_of R (ih.2 v hv) (hgrow t l u hIt hs)
      have hnew : ∀ v ∈ log ⟨t, l, u⟩, v = view u := hlog t l u hIt hs
      rw [List.flatMap_append, List.flatMap_singleton]
      refine ⟨List.pairwise_append.mpr ⟨ih.1, ?_, fun v hv w hw => ?_⟩, fun v hv => ?_⟩
      · refine List.pairwise_of_forall_mem_list fun v hv w hw => ?_
        rw [hnew v hv, hnew w hw]
        exact refl_of R _
      · rw [hnew w hw]
        exact hbelow v hv
      · rcases List.mem_append.mp hv with hv | hv
        · exact hbelow v hv
        · rw [hnew v hv]
          exact refl_of R _

/-! ### Queues -/

/-- A queue between a sender and a receiver who may go. -/
structure Fifo (σ : Type u) (ℓ : Type v) (α : Type w) where
  isOpen : σ → Prop
  queue : σ → List α
  enters : Trans σ ℓ → List α
  leaves : Trans σ ℓ → List α

/-- As long as the queue is open, the step appends what enters and takes from the front
what leaves, and afterwards nothing leaves. -/
structure Fifo.Serves {α : Type w} (q : Fifo σ ℓ α) (x : Trans σ ℓ) : Prop where
  opened (h : q.isOpen x.post) : q.isOpen x.pre ∧
    q.queue x.pre ++ q.enters x = q.leaves x ++ q.queue x.post
  closed (h : ¬q.isOpen x.post) : q.leaves x = []

/-- Over a run what enters a queue leaves it in order, up to what is still queued or was
lost. -/
theorem Path.delivery {α : Type w} {I : σ → Prop} (q : Fifo σ ℓ α)
    (hI : ∀ a l b, I a → step a l b → I b)
    (hstep : ∀ a l b, I a → step a l b → q.Serves ⟨a, l, b⟩) {s t : σ}
    {π : List (Trans σ ℓ)} (h : Path step s π t) (hIs : I s) (hq : q.queue s = []) :
    (q.isOpen t → π.flatMap q.enters = π.flatMap q.leaves ++ q.queue t) ∧
      π.flatMap q.leaves <+: π.flatMap q.enters := by
  induction h with
  | nil => simp [hq]
  | @snoc π t l u hp hs ih =>
      have hserves := hstep t l u (hp.invariant hIs hI) hs
      simp only [List.flatMap_append, List.flatMap_singleton]
      by_cases hu : q.isOpen u
      · obtain ⟨ht, hmoved⟩ := hserves.opened hu
        have hwhole : π.flatMap q.enters ++ q.enters ⟨t, l, u⟩ =
            π.flatMap q.leaves ++ q.leaves ⟨t, l, u⟩ ++ q.queue u := by
          rw [ih.1 ht, List.append_assoc, hmoved, List.append_assoc]
        exact ⟨fun _ => hwhole, q.queue u, hwhole.symm⟩
      · rw [hserves.closed hu, List.append_nil]
        exact ⟨fun h => absurd h hu, ih.2.trans (List.prefix_append _ _)⟩

end Transition
