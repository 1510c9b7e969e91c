import Mathlib.Data.List.Basic
import Mathlib.Tactic.Common

/-! # Runs of a labelled transition system

A run keeps every transition it takes, so that a property may speak about its
states, its labels and the order of both. The rules at the end turn one-step
facts into facts about whole runs. -/

namespace Transition

universe u v

/-- One step of a run together with the states before and after it. -/
structure Trans (σ : Type u) (ℓ : Type v) where
  pre : σ
  label : ℓ
  post : σ

variable {σ : Type u} {ℓ : Type v} {step : σ → ℓ → σ → Prop}

def Trans.map {τ : Type*} (f : σ → τ) (x : Trans σ ℓ) : Trans τ ℓ := ⟨f x.pre, x.label, f x.post⟩

/-- `Path step s π t`: the transitions `π`, oldest first, lead from `s` to `t`. -/
inductive Path (step : σ → ℓ → σ → Prop) (s : σ) : List (Trans σ ℓ) → σ → Prop where
  | nil : Path step s [] s
  | snoc {π t l u} : Path step s π t → step t l u → Path step s (π ++ [⟨t, l, u⟩]) u

theorem Path.single {s t : σ} {l : ℓ} (h : step s l t) : Path step s [⟨s, l, t⟩] t :=
  .snoc (π := []) .nil h

theorem Path.append {s t u : σ} {π ρ : List (Trans σ ℓ)} (h : Path step s π t)
    (k : Path step t ρ u) : Path step s (π ++ ρ) u := by
  induction k with
  | nil => simpa using h
  | snoc _ hs ih =>
      rw [← List.append_assoc]
      exact .snoc ih hs

/-- Every transition of a path is a step, taken after a shorter path. -/
theorem Path.mem {s t : σ} {π : List (Trans σ ℓ)} (h : Path step s π t) :
    ∀ x ∈ π, ∃ ρ, Path step s ρ x.pre ∧ step x.pre x.label x.post := by
  induction h with
  | nil => simp
  | @snoc π t l u hp hs ih =>
      intro x hx
      rcases List.mem_append.mp hx with hx | hx
      · exact ih x hx
      · obtain rfl := List.mem_singleton.mp hx
        exact ⟨π, hp, hs⟩

theorem Path.of_append {s t : σ} {π ρ : List (Trans σ ℓ)} (h : Path step s (π ++ ρ) t) :
    ∃ u, Path step s π u ∧ Path step u ρ t := by
  generalize hc : π ++ ρ = χ at h
  induction h generalizing ρ with
  | nil =>
      obtain ⟨rfl, rfl⟩ := List.append_eq_nil_iff.mp hc
      exact ⟨s, .nil, .nil⟩
  | @snoc χ t l u hp hs ih =>
      rcases List.eq_nil_or_concat ρ with rfl | ⟨ρ, x, rfl⟩
      · rw [List.append_nil] at hc
        subst hc
        exact ⟨u, hp.snoc hs, .nil⟩
      · rw [List.concat_eq_append, ← List.append_assoc] at hc
        obtain ⟨hχ, hx⟩ := List.append_inj' hc rfl
        obtain rfl := List.singleton_inj.mp hx
        obtain ⟨v, h₁, h₂⟩ := ih hχ
        refine ⟨v, h₁, ?_⟩
        rw [List.concat_eq_append]
        exact h₂.snoc hs

/-- A path goes to, through and on from each of its transitions. -/
theorem Path.split {s t : σ} {π : List (Trans σ ℓ)} (h : Path step s π t) {x : Trans σ ℓ}
    (hx : x ∈ π) : ∃ ρ χ, π = ρ ++ [x] ++ χ ∧ Path step s ρ x.pre ∧
      step x.pre x.label x.post ∧ Path step x.post χ t := by
  obtain ⟨ρ, χ, rfl⟩ := List.append_of_mem hx
  rw [List.append_cons] at h
  obtain ⟨u, h₁, h₂⟩ := h.of_append
  refine ⟨ρ, χ, List.append_cons .., ?_⟩
  generalize hc : ρ ++ [x] = τ at h₁
  cases h₁ with
  | nil => simp at hc
  | snoc hp hs =>
      obtain ⟨rfl, hx⟩ := List.append_inj' hc rfl
      obtain rfl := List.singleton_inj.mp hx
      exact ⟨hp, hs, h₂⟩

/-- Of two transitions of a path, the one leads to the end of the other, or comes after
it. -/
theorem Path.order {s t : σ} {π : List (Trans σ ℓ)} (h : Path step s π t) {x y : Trans σ ℓ}
    (hx : x ∈ π) (hy : y ∈ π) :
    (∃ χ, Path step x.post χ y.post) ∨ ∃ χ, Path step y.post χ x.pre := by
  obtain ⟨ρ, χ, rfl, hp, hs, hq⟩ := h.split hy
  rcases List.mem_append.mp hx with hx | hx
  · obtain ⟨_, χ', _, _, _, hx⟩ := (hp.snoc hs).split hx
    exact .inl ⟨χ', hx⟩
  · obtain ⟨ρ', _, _, hx, _, _⟩ := hq.split hx
    exact .inr ⟨ρ', hx⟩

/-- What holds at the start and is kept by every step holds at the end. -/
theorem Path.invariant {I : σ → Prop} {s t : σ} {π : List (Trans σ ℓ)}
    (h : Path step s π t) (h0 : I s) (hstep : ∀ a l b, I a → step a l b → I b) : I t := by
  induction h with
  | nil => exact h0
  | snoc _ hs ih => exact hstep _ _ _ ih hs

/-- What holds at the end and did not hold at the start came about in a step. -/
theorem Path.happens {P : σ → Prop} {s t : σ} {π : List (Trans σ ℓ)} (h : Path step s π t)
    (hs : ¬P s) (ht : P t) : ∃ x ∈ π, step x.pre x.label x.post ∧ ¬P x.pre ∧ P x.post := by
  induction h with
  | nil => exact absurd ht hs
  | @snoc π t l u hp hstep ih =>
      by_cases hprev : P t
      · obtain ⟨x, hx, hturn⟩ := ih hprev
        exact ⟨x, List.mem_append_left _ hx, hturn⟩
      · exact ⟨⟨t, l, u⟩, by simp, hstep, hprev, ht⟩

/-- A state reached from one of the initial states. -/
def Reachable (init : σ → Prop) (step : σ → ℓ → σ → Prop) (s : σ) : Prop :=
  ∃ s₀ π, init s₀ ∧ Path step s₀ π s

theorem Reachable.invariant {init : σ → Prop} {I : σ → Prop} {s : σ}
    (h : Reachable init step s) (h0 : ∀ a, init a → I a)
    (hstep : ∀ a l b, I a → step a l b → I b) : I s := by
  obtain ⟨s₀, π, hi, hp⟩ := h
  exact hp.invariant (h0 s₀ hi) hstep

theorem Reachable.initial {init : σ → Prop} {s : σ} (h : init s) : Reachable init step s :=
  ⟨s, [], h, .nil⟩

theorem Reachable.next {init : σ → Prop} {s t : σ} {l : ℓ} (h : Reachable init step s)
    (hs : step s l t) : Reachable init step t := by
  obtain ⟨s₀, π, hi, hp⟩ := h
  exact ⟨s₀, _, hi, hp.snoc hs⟩

theorem Reachable.path {init : σ → Prop} {s t : σ} {π : List (Trans σ ℓ)}
    (h : Reachable init step s) (hp : Path step s π t) : Reachable init step t := by
  obtain ⟨s₀, ρ, hi, hr⟩ := h
  exact ⟨s₀, _, hi, hr.append hp⟩

/-- Refinement: when every step is, seen through `f`, a step of another system, every run
is a run of that system. -/
theorem Path.refine {τ : Type*} {step' : τ → ℓ → τ → Prop} {I : σ → Prop} (f : σ → τ)
    (hI : ∀ a l b, I a → step a l b → I b)
    (hsim : ∀ a l b, I a → step a l b → step' (f a) l (f b))
    {s t : σ} {π : List (Trans σ ℓ)} (h : Path step s π t) (hIs : I s) :
    Path step' (f s) (π.map (Trans.map f)) (f t) := by
  induction h with
  | nil => exact .nil
  | snoc hp hs ih =>
      rw [List.map_append]
      exact ih.snoc (hsim _ _ _ (hp.invariant hIs hI) hs)

/-- What a transition is in another system: one of its transitions, or none at all. -/
def Trans.seen {τ κ : Type*} (f : σ → τ) (label : Trans σ ℓ → Option κ) (x : Trans σ ℓ) :
    Option (Trans τ κ) :=
  (label x).map (⟨f x.pre, ·, f x.post⟩)

/-- Projection: when every step is, seen through `f`, a step of another system or none at
all, the steps of a run that are make up a run of that system. -/
theorem Path.project {τ κ : Type*} {step' : τ → κ → τ → Prop} (f : σ → τ)
    (label : Trans σ ℓ → Option κ)
    (hstep : ∀ a l b k, step a l b → label ⟨a, l, b⟩ = some k → step' (f a) k (f b))
    (hidle : ∀ a l b, step a l b → label ⟨a, l, b⟩ = none → f b = f a)
    {s t : σ} {π : List (Trans σ ℓ)} (h : Path step s π t) :
    Path step' (f s) (π.filterMap (Trans.seen f label)) (f t) := by
  induction h with
  | nil => exact .nil
  | @snoc π t l u _ hs ih =>
      rw [List.filterMap_append]
      cases hl : label ⟨t, l, u⟩ with
      | none => simpa [Trans.seen, hl, hidle t l u hs hl] using ih
      | some k => simpa [Trans.seen, hl] using ih.snoc (hstep t l u k hs hl)

/-- The converse: when every step of the other system is what can be seen of a run, so is
every run of that system. -/
theorem Path.lift {τ κ : Type*} {step' : τ → κ → τ → Prop} {I : σ → Prop} (f : σ → τ)
    (label : Trans σ ℓ → Option κ)
    (hlift : ∀ a k v, I a → step' (f a) k v → ∃ ρ b, Path step a ρ b ∧ I b ∧ f b = v ∧
      ρ.filterMap (Trans.seen f label) = [⟨f a, k, v⟩])
    {s : σ} {v : τ} {π : List (Trans τ κ)} (h : Path step' (f s) π v) (hIs : I s) :
    ∃ ρ t, Path step s ρ t ∧ I t ∧ f t = v ∧ ρ.filterMap (Trans.seen f label) = π := by
  induction h with
  | nil => exact ⟨[], s, .nil, hIs, rfl, rfl⟩
  | snoc _ hs ih =>
      obtain ⟨ρ, t, hpath, hI, rfl, rfl⟩ := ih
      obtain ⟨χ, u, hlast, hIu, rfl, hseen⟩ := hlift t _ _ hI hs
      exact ⟨ρ ++ χ, u, hpath.append hlast, hIu, rfl, by rw [List.filterMap_append, hseen]⟩

/-! ### Runs whose steps meet a condition -/

/-- A state property survives a run whose steps all meet `C`, when an invariant
`I` of all steps makes `C` sufficient for the next state. -/
theorem Path.safe_of_meets {I P : σ → Prop} {C : σ → ℓ → Prop}
    (hI : ∀ a l b, I a → step a l b → I b)
    (hgood : ∀ a l b, I a → P a → step a l b → C a l → P b)
    {s t : σ} {π : List (Trans σ ℓ)} (h : Path step s π t) (hIs : I s) (hPs : P s)
    (hC : ∀ x ∈ π, C x.pre x.label) : P t ∧ ∀ x ∈ π, P x.post := by
  induction h with
  | nil => exact ⟨hPs, by simp⟩
  | @snoc π t l u hp hs ih =>
      have hprev := ih (fun x hx => hC x (by simp [hx]))
      have hlast : P u :=
        hgood t l u (hp.invariant hIs hI) hprev.1 hs (hC ⟨t, l, u⟩ (by simp))
      refine ⟨hlast, ?_⟩
      intro x hx
      rcases List.mem_append.mp hx with hx | hx
      · exact hprev.2 x hx
      · obtain rfl := List.mem_singleton.mp hx
        exact hlast

/-- If, besides, a step outside `C` always breaks `P`, then the runs that stay
inside `P` are exactly the runs whose steps all meet `C`. -/
theorem Path.safe_iff_meets {I P : σ → Prop} {C : σ → ℓ → Prop}
    (hI : ∀ a l b, I a → step a l b → I b)
    (hgood : ∀ a l b, I a → P a → step a l b → C a l → P b)
    (hbad : ∀ a l b, I a → step a l b → ¬ C a l → ¬ P b)
    {s t : σ} {π : List (Trans σ ℓ)} (h : Path step s π t) (hIs : I s) (hPs : P s) :
    (∀ x ∈ π, P x.post) ↔ ∀ x ∈ π, C x.pre x.label := by
  refine ⟨?_, fun hC => (h.safe_of_meets hI hgood hIs hPs hC).2⟩
  intro hP x hx
  obtain ⟨ρ, hp, hs⟩ := h.mem x hx
  by_contra hC
  exact hbad _ _ _ (hp.invariant hIs hI) hs hC (hP x hx)

/-- A property of single steps that is equivalent to `C` under an invariant holds
along a run exactly when all of the run's steps meet `C`. -/
theorem Path.steps_iff_meets {I : σ → Prop} {Q : σ → ℓ → σ → Prop} {C : σ → ℓ → Prop}
    (hI : ∀ a l b, I a → step a l b → I b)
    (hQ : ∀ a l b, I a → step a l b → (Q a l b ↔ C a l))
    {s t : σ} {π : List (Trans σ ℓ)} (h : Path step s π t) (hIs : I s) :
    (∀ x ∈ π, Q x.pre x.label x.post) ↔ ∀ x ∈ π, C x.pre x.label := by
  have hx : ∀ x ∈ π, (Q x.pre x.label x.post ↔ C x.pre x.label) := by
    intro x hx
    obtain ⟨ρ, hp, hs⟩ := h.mem x hx
    exact hQ _ _ _ (hp.invariant hIs hI) hs
  exact ⟨fun h x hm => (hx x hm).mp (h x hm), fun h x hm => (hx x hm).mpr (h x hm)⟩

end Transition
