import Mathlib.Data.List.Basic
import Mathlib.Tactic.Common

/-! # Bounded channels

A multi-producer, single-consumer queue of fixed capacity, as seen by all of its
ends at once. That the queue fits its capacity is part of the type. -/

universe u

structure Channel (capacity : Nat) (α : Type u) where
  queue : List α
  /-- Whether the receiving end still exists. -/
  rxAlive : Bool
  bounded : queue.length ≤ capacity

namespace Channel

/-- Why a message was refused. -/
inductive TrySendError where
  | full
  | closed
  deriving DecidableEq, Repr

variable {capacity : Nat} {α : Type u}

def new (capacity : Nat) : Channel capacity α := ⟨[], true, Nat.zero_le _⟩

def HasRoom (c : Channel capacity α) : Prop := c.queue.length < capacity

instance (c : Channel capacity α) : Decidable c.HasRoom :=
  inferInstanceAs (Decidable (_ < _))

/-- A send that does not wait succeeds in exactly these states. -/
def Accepts (c : Channel capacity α) : Prop := c.rxAlive = true ∧ c.HasRoom

instance (c : Channel capacity α) : Decidable c.Accepts :=
  inferInstanceAs (Decidable (_ ∧ _))

def push (c : Channel capacity α) (a : α) (h : c.HasRoom) : Channel capacity α :=
  ⟨c.queue ++ [a], c.rxAlive, by rw [List.length_append]; exact h⟩

def trySend (c : Channel capacity α) (a : α) : Except TrySendError (Channel capacity α) :=
  if c.rxAlive then
    if h : c.HasRoom then .ok (c.push a h) else .error .full
  else .error .closed

/-- The oldest message and the channel without it. -/
def tryRecv (c : Channel capacity α) : Option (α × Channel capacity α) :=
  match h : c.queue with
  | [] => none
  | a :: rest => some (a, ⟨rest, c.rxAlive, by
      have hb := c.bounded
      rw [h, List.length_cons] at hb
      exact Nat.le_of_succ_le hb⟩)

/-- The receiving end is dropped, and with it what was still queued. -/
def closeRx (_ : Channel capacity α) : Channel capacity α := ⟨[], false, Nat.zero_le _⟩

@[simp] theorem new_queue : (new capacity : Channel capacity α).queue = [] := rfl

@[simp] theorem new_rxAlive : (new capacity : Channel capacity α).rxAlive = true := rfl

@[simp] theorem push_queue (c : Channel capacity α) (a : α) (h : c.HasRoom) :
    (c.push a h).queue = c.queue ++ [a] := rfl

@[simp] theorem push_rxAlive (c : Channel capacity α) (a : α) (h : c.HasRoom) :
    (c.push a h).rxAlive = c.rxAlive := rfl

@[simp] theorem closeRx_queue (c : Channel capacity α) : c.closeRx.queue = [] := rfl

@[simp] theorem closeRx_rxAlive (c : Channel capacity α) : c.closeRx.rxAlive = false := rfl

theorem trySend_of_accepts {c : Channel capacity α} (a : α) (h : c.Accepts) :
    c.trySend a = .ok (c.push a h.2) := by
  simp [trySend, h.1, h.2]

theorem trySend_of_not_accepts {c : Channel capacity α} (a : α) (h : ¬c.Accepts) :
    ∃ e, c.trySend a = .error e := by
  by_cases ha : c.rxAlive = true
  · have hr : ¬c.HasRoom := fun hr => h ⟨ha, hr⟩
    exact ⟨.full, by simp [trySend, ha, hr]⟩
  · exact ⟨.closed, by simp [trySend, ha]⟩

/-- A send is refused exactly when the channel has no room or no receiver. -/
theorem trySend_ok_iff (c : Channel capacity α) (a : α) (d : Channel capacity α) :
    c.trySend a = .ok d ↔ ∃ h : c.Accepts, d = c.push a h.2 := by
  constructor
  · intro h
    by_cases ha : c.Accepts
    · rw [trySend_of_accepts a ha] at h
      exact ⟨ha, (Except.ok.inj h).symm⟩
    · obtain ⟨e, he⟩ := trySend_of_not_accepts a ha
      rw [he] at h
      cases h
  · rintro ⟨ha, rfl⟩
    exact trySend_of_accepts a ha

theorem tryRecv_eq_some {c d : Channel capacity α} {a : α} (h : c.tryRecv = some (a, d)) :
    c.queue = a :: d.queue ∧ d.rxAlive = c.rxAlive := by
  unfold tryRecv at h
  split at h
  · cases h
  · rename_i b rest hq
    obtain ⟨rfl, rfl⟩ := Prod.mk.inj (Option.some.inj h)
    exact ⟨hq, rfl⟩

theorem tryRecv_eq_none {c : Channel capacity α} (h : c.tryRecv = none) : c.queue = [] := by
  unfold tryRecv at h
  split at h
  · assumption
  · cases h

end Channel
