import Mathlib.Data.List.Basic

/-! # Reading up to a decision

A reader says what a sequence of reports amounts to: the first report that decides gives
a value, from what was reported before it. A machine that takes the reports one by one
follows a reader when its state is what it would hold after them. -/

namespace Reading

universe u v w x

variable {α : Type u} {β : Type v} {σ : Type w} {ε : Type x}

structure Reader (α : Type u) (β : Type v) where
  decides : α → Bool
  value : List α → α → β

/-- The value of the first deciding report, when `front` has been read before. -/
def Reader.answerAfter (r : Reader α β) (front : List α) : List α → Option β
  | [] => none
  | x :: xs => if r.decides x then some (r.value front x) else r.answerAfter (front ++ [x]) xs

def Reader.answer (r : Reader α β) (xs : List α) : Option β := r.answerAfter [] xs

/-- The first value that a machine gives on a sequence of events. -/
def drive (next : σ → ε → Option β × σ) : σ → List ε → Option β
  | _, [] => none
  | s, e :: es =>
      match (next s e).1 with
      | some b => some b
      | none => drive next (next s e).2 es

/-- On the events that are reports the machine does what the reader says, and the others
leave its state alone. -/
structure Follows (next : σ → ε → Option β × σ) (read? : ε → Option α) (r : Reader α β)
    (held : List α → σ) : Prop where
  ignores (front e) (h : read? e = none) : next (held front) e = (none, held front)
  waits (front e x) (h : read? e = some x) (hd : r.decides x = false) :
    next (held front) e = (none, held (front ++ [x]))
  answers (front e x) (h : read? e = some x) (hd : r.decides x = true) :
    (next (held front) e).1 = some (r.value front x)

variable {next : σ → ε → Option β × σ} {read? : ε → Option α} {r : Reader α β}
variable {held : List α → σ}

theorem Follows.drive_held (h : Follows next read? r held) (front : List α) (es : List ε) :
    drive next (held front) es = r.answerAfter front (es.filterMap read?) := by
  induction es generalizing front with
  | nil => rfl
  | cons e es ih =>
      rw [drive]
      cases he : read? e with
      | none =>
          rw [List.filterMap_cons_none he, h.ignores front e he]
          exact ih front
      | some x =>
          rw [List.filterMap_cons_some he, Reader.answerAfter]
          cases hd : r.decides x with
          | true =>
              rw [h.answers front e x he hd]
              rfl
          | false =>
              rw [h.waits front e x he hd]
              exact ih (front ++ [x])

end Reading
