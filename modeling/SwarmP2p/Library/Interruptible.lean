import Mathlib.Data.List.Basic
import Mathlib.Tactic.Common

/-! # Computations that may be interrupted

A computation acts on a state in atomic steps and ends with a result or an error. It may
be stopped after any number of its steps, and leaves the state that it has reached. -/

universe u

/-- The states after each step, oldest first, and the result. -/
structure Outcome (σ ε α : Type u) where
  states : List σ
  result : Except ε α

def Interruptible (σ ε α : Type u) : Type u := σ → Outcome σ ε α

namespace Interruptible

variable {σ ε α β : Type u}

/-- The state in which the computation ends. -/
def final (m : Interruptible σ ε α) (s : σ) : σ := (m s).states.getLast?.getD s

/-- The state after `i` steps. -/
def stopped (m : Interruptible σ ε α) (s : σ) (i : Nat) : σ :=
  ((m s).states.take i).getLast?.getD s

/-- A computation that takes no step. -/
def lift (r : Except ε α) : Interruptible σ ε α := fun _ => ⟨[], r⟩

/-- One atomic step. -/
def act (f : σ → σ × Except ε α) : Interruptible σ ε α := fun s => ⟨[(f s).1], (f s).2⟩

/-- The second computation runs where the first one ends; an error ends both. -/
def andThen (m : Interruptible σ ε α) (f : α → Interruptible σ ε β) : Interruptible σ ε β :=
  fun s =>
    match (m s).result with
    | .ok a => ⟨(m s).states ++ (f a (m.final s)).states, (f a (m.final s)).result⟩
    | .error e => ⟨(m s).states, .error e⟩

instance : Monad (Interruptible σ ε) where
  pure a := lift (.ok a)
  bind := andThen

theorem bind_apply {m : Interruptible σ ε α} {s : σ} {a : α} (f : α → Interruptible σ ε β)
    (h : (m s).result = .ok a) :
    (m >>= f) s = ⟨(m s).states ++ (f a (m.final s)).states, (f a (m.final s)).result⟩ := by
  show andThen m f s = _
  rw [andThen, h]

/-- A computation that ran to its end cannot be stopped any more. -/
theorem stopped_of_le {m : Interruptible σ ε α} {s : σ} {i : Nat}
    (h : (m s).states.length ≤ i) : m.stopped s i = m.final s := by
  rw [stopped, List.take_of_length_le h, final]

end Interruptible
