import Mathlib.Data.List.Basic
import Mathlib.Data.List.Perm.Basic
import Mathlib.Logic.Function.Basic
import Mathlib.Tactic.Common

/-! # Counters of a list, kept in a map

A map from keys to counters, without zero entries, counts the entries of a list by a
partial key. Counters are machine words, so the increment wraps. -/

namespace Tally

universe u v

variable {K : Type u} {α : Type v} [DecidableEq K]

/-- `*map.entry(key).or_default() += 1` on words below `modulus`. -/
def incr (modulus : Nat) (m : K → Option Nat) (key : K) : K → Option Nat :=
  Function.update m key (some (((m key).getD 0 + 1) % modulus))

/-- A saturating decrement of an entry that is there, which removes it at zero. -/
def decr (m : K → Option Nat) (key : K) : K → Option Nat :=
  match m key with
  | none => m
  | some c => Function.update m key (if c - 1 = 0 then none else some (c - 1))

/-- How many entries of the list have this key. -/
def count (sel : α → Option K) (l : List α) (key : K) : Nat :=
  l.countP (fun a => decide (sel a = some key))

/-- The map holds the positive counts of the list and nothing else. -/
def Tallied (m : K → Option Nat) (sel : α → Option K) (l : List α) : Prop :=
  ∀ key, m key = if count sel l key = 0 then none else some (count sel l key)

@[simp] theorem count_nil (sel : α → Option K) (key : K) : count sel ([] : List α) key = 0 := rfl

theorem count_cons (sel : α → Option K) (a : α) (l : List α) (key : K) :
    count sel (a :: l) key = count sel l key + if sel a = some key then 1 else 0 := by
  simp [count, List.countP_cons]

theorem count_append (sel : α → Option K) (l k : List α) (key : K) :
    count sel (l ++ k) key = count sel l key + count sel k key := by
  simp [count]

theorem count_perm {sel : α → Option K} {l k : List α} (h : l.Perm k) (key : K) :
    count sel l key = count sel k key :=
  h.countP_eq _

theorem tallied_nil (sel : α → Option K) : Tallied (fun _ => none) sel ([] : List α) := by
  intro key
  simp

/-- No entry of the map is left when the list is empty. -/
theorem Tallied.eq_none {m : K → Option Nat} {sel : α → Option K} (h : Tallied m sel [])
    (key : K) : m key = none := by
  simpa using h key

theorem Tallied.perm {m : K → Option Nat} {sel : α → Option K} {l k : List α}
    (h : Tallied m sel l) (hp : l.Perm k) : Tallied m sel k := by
  intro key
  rw [h key, count_perm hp key]

theorem Tallied.getD {m : K → Option Nat} {sel : α → Option K} {l : List α}
    (h : Tallied m sel l) (key : K) : (m key).getD 0 = count sel l key := by
  rw [h key]
  split <;> simp_all

/-- An entry without a key is not counted. -/
theorem tallied_cons_none {m : K → Option Nat} {sel : α → Option K} {a : α} {l : List α}
    (ha : sel a = none) : Tallied m sel (a :: l) ↔ Tallied m sel l := by
  simp [Tallied, count_cons, ha]

/-- Below the modulus the increment counts one more entry. -/
theorem Tallied.incr {modulus : Nat} {m : K → Option Nat} {sel : α → Option K} {a : α}
    {l : List α} {key : K} (h : Tallied m sel l) (ha : sel a = some key)
    (hlt : count sel l key + 1 < modulus) :
    Tallied (incr modulus m key) sel (a :: l) := by
  intro other
  rw [count_cons, ha]
  by_cases ho : other = key
  · subst ho
    simp [Tally.incr, h.getD, Nat.mod_eq_of_lt hlt]
  · have hne : ¬key = other := fun hk => ho hk.symm
    simp [Tally.incr, Function.update_of_ne ho, h other, hne]

/-- The decrement finds the entry it needs and forgets one entry of the list. -/
theorem Tallied.decr {m : K → Option Nat} {sel : α → Option K} {a : α} {l : List α} {key : K}
    (h : Tallied m sel (a :: l)) (ha : sel a = some key) : Tallied (decr m key) sel l := by
  have hkey : m key = some (count sel l key + 1) := by
    rw [h key, count_cons, ha]
    simp
  intro other
  simp only [Tally.decr, hkey]
  by_cases ho : other = key
  · subst ho
    simp
  · have hne : ¬key = other := fun hk => ho hk.symm
    simp [Function.update_of_ne ho, h other, count_cons, ha, hne]

end Tally
