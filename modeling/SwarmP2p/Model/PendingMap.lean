import Mathlib.Data.List.Basic
import Mathlib.Data.List.Nodup
import Mathlib.Tactic.Common

/-! # `PendingMap`

A map whose entries are taken at most once and disappear after a time to live. All
clones share one table, so the model is that table; every function below is one
critical section. Times are those of a monotonic clock. -/

namespace SwarmP2p

structure PendingEntry (V : Type) where
  value : V
  createdAt : Nat

/-- The table as the list of its entries, newest first, one for each key. -/
structure PendingMap (K V : Type) where
  entries : List (K × PendingEntry V)
  ttl : Nat
  nodupKeys : (entries.map Prod.fst).Nodup

namespace PendingMap

variable {K V : Type} [DecidableEq K]

def new (ttl : Nat) : PendingMap K V := ⟨[], ttl, List.nodup_nil⟩

/-- The entries that satisfy `p`. -/
def retain (m : PendingMap K V) (p : K × PendingEntry V → Bool) : PendingMap K V :=
  ⟨m.entries.filter p, m.ttl, m.nodupKeys.sublist ((List.filter_sublist).map _)⟩

def remove (m : PendingMap K V) (key : K) : PendingMap K V :=
  m.retain (fun e => decide (e.1 ≠ key))

theorem not_mem_keys_remove (m : PendingMap K V) (key : K) :
    key ∉ (m.remove key).entries.map Prod.fst := by
  simp [remove, retain]

def insert (m : PendingMap K V) (now : Nat) (key : K) (value : V) : PendingMap K V :=
  ⟨(key, ⟨value, now⟩) :: (m.remove key).entries, m.ttl,
    List.nodup_cons.mpr ⟨m.not_mem_keys_remove key, (m.remove key).nodupKeys⟩⟩

/-- The entry stored under a key. -/
def get? (m : PendingMap K V) (key : K) : Option (PendingEntry V) :=
  (m.entries.find? (fun e => decide (e.1 = key))).map Prod.snd

def take (m : PendingMap K V) (key : K) : Option V × PendingMap K V :=
  ((m.get? key).map PendingEntry.value, m.remove key)

def len (m : PendingMap K V) : Nat := m.entries.length

/-- `purge_expired_entries` at time `now`: the map and the number of entries removed. -/
def purgeExpired (m : PendingMap K V) (now : Nat) : PendingMap K V × Nat :=
  let kept := m.retain (fun e => decide (now - e.2.createdAt < m.ttl))
  (kept, m.len - kept.len)

/-! ### Lookups -/

theorem get?_eq_some_iff (m : PendingMap K V) (key : K) (e : PendingEntry V) :
    m.get? key = some e ↔ (key, e) ∈ m.entries := by
  obtain ⟨entries, ttl, nodup⟩ := m
  simp only [get?]
  induction entries with
  | nil => simp
  | cons x rest ih =>
      obtain ⟨k, v⟩ := x
      simp only [List.map_cons, List.nodup_cons] at nodup
      by_cases hk : k = key
      · subst hk
        have hnot : ∀ e, (k, e) ∉ rest := fun e he =>
          nodup.1 (List.mem_map_of_mem (f := Prod.fst) he)
        simp [hnot, eq_comm]
      · have hne : key ≠ k := fun h => hk h.symm
        simpa [hk, hne] using ih nodup.2

theorem get?_retain_of_some {m : PendingMap K V} {p : K × PendingEntry V → Bool} {key : K}
    {e : PendingEntry V} (h : (m.retain p).get? key = some e) : m.get? key = some e := by
  rw [get?_eq_some_iff] at h ⊢
  exact (List.mem_filter.mp h).1

@[simp] theorem get?_remove_self (m : PendingMap K V) (key : K) :
    (m.remove key).get? key = none := by
  cases h : (m.remove key).get? key with
  | none => rfl
  | some e =>
      rw [get?_eq_some_iff] at h
      exact absurd (List.mem_map_of_mem (f := Prod.fst) h) (m.not_mem_keys_remove key)

theorem get?_remove_of_ne (m : PendingMap K V) {key other : K} (h : other ≠ key) :
    (m.remove key).get? other = m.get? other := by
  cases ho : m.get? other with
  | none =>
      cases hr : (m.remove key).get? other with
      | none => rfl
      | some e =>
          have := get?_retain_of_some hr
          rw [ho] at this
          cases this
  | some e =>
      rw [get?_eq_some_iff] at ho ⊢
      exact List.mem_filter.mpr ⟨ho, by simpa using h⟩

@[simp] theorem get?_insert_self (m : PendingMap K V) (now : Nat) (key : K) (value : V) :
    (m.insert now key value).get? key = some ⟨value, now⟩ := by
  rw [get?_eq_some_iff]
  simp [insert]

theorem get?_insert_of_ne (m : PendingMap K V) (now : Nat) (value : V) {key other : K}
    (h : other ≠ key) : (m.insert now key value).get? other = m.get? other := by
  have hne : key ≠ other := fun hk => h hk.symm
  rw [← get?_remove_of_ne m h]
  simp [get?, insert, hne]

/-- A take that finds nothing leaves the map as it was. -/
theorem take_of_none {m : PendingMap K V} {key : K} (h : m.get? key = none) :
    m.take key = (none, m) := by
  have hall : ∀ x ∈ m.entries, x.1 ≠ key := by
    rintro ⟨k, e⟩ hx rfl
    rw [← get?_eq_some_iff, h] at hx
    cases hx
  have hentries : (m.remove key).entries = m.entries := by
    simp only [remove, retain, List.filter_eq_self]
    intro x hx
    simpa using hall x hx
  obtain ⟨entries, ttl, nodup⟩ := m
  simp only [take, h, Option.map_none, Prod.mk.injEq, true_and]
  simp only [remove, retain] at hentries ⊢
  simp only [hentries]

end PendingMap

end SwarmP2p
