import Mathlib.Data.List.Count
import Mathlib.Logic.Function.Basic
import Mathlib.Tactic.Common

/-! # Deferred work

Items are submitted under a key. They are done at once, or kept until the key is served,
when all that is kept under it is done. Each key depends on its own events only, and what
is done in the end is exactly what was served. -/

namespace Deferred

universe u v

variable {K : Type u} {V : Type v}

inductive Event (K : Type u) (V : Type v) where
  | submit (key : K) (items : List V) (now : Bool)
  | serve (key : K)

def Event.key : Event K V → K
  | .submit key _ _ => key
  | .serve key => key

def Event.serves [DecidableEq K] (k : K) : Event K V → Bool
  | .submit _ _ _ => false
  | .serve key => key = k

/-- The items that are done in the end: those submitted now, and those whose key is served
later. -/
def served [DecidableEq K] : List (Event K V) → List (K × V)
  | [] => []
  | .submit key items now :: events =>
      (if now = true ∨ events.any (Event.serves key) = true then items.map (Prod.mk key) else []) ++
        served events
  | .serve _ :: events => served events

/-- Only what was submitted is served. -/
theorem mem_served [DecidableEq K] {events : List (Event K V)} {x : K × V}
    (h : x ∈ served events) :
    ∃ items now, Event.submit x.1 items now ∈ events ∧ x.2 ∈ items := by
  induction events with
  | nil => cases h
  | cons e events ih =>
      have hrest : x ∈ served events →
          ∃ items now, Event.submit x.1 items now ∈ e :: events ∧ x.2 ∈ items := fun hx => by
        obtain ⟨items, now, hmem, hitem⟩ := ih hx
        exact ⟨items, now, List.mem_cons_of_mem _ hmem, hitem⟩
      cases e with
      | submit key items now =>
          rcases List.mem_append.mp h with hx | hx
          · split at hx
            · obtain ⟨v, hv, rfl⟩ := List.mem_map.mp hx
              exact ⟨items, now, List.mem_cons_self .., hv⟩
            · cases hx
          · exact hrest hx
      | serve key => exact hrest h

/-- What waits under each key, and what was done, oldest first. -/
structure Store (K : Type u) (V : Type v) where
  waiting : K → Option (List V)
  done : List (K × V)

namespace Store

def empty : Store K V := ⟨fun _ => none, []⟩

/-- The items that wait under a key. -/
def kept (s : Store K V) (k : K) : List V := (s.waiting k).getD []

variable [DecidableEq K]

def step (s : Store K V) : Event K V → Store K V
  | .submit key items true => { s with done := s.done ++ items.map (Prod.mk key) }
  | .submit key items false =>
      { s with waiting := Function.update s.waiting key (some (s.kept key ++ items)) }
  | .serve key =>
      ⟨Function.update s.waiting key none, s.done ++ (s.kept key).map (Prod.mk key)⟩

def run (s : Store K V) (events : List (Event K V)) : Store K V := events.foldl step s

@[simp] theorem run_nil (s : Store K V) : s.run [] = s := rfl

@[simp] theorem run_cons (s : Store K V) (e : Event K V) (events : List (Event K V)) :
    s.run (e :: events) = (s.step e).run events := rfl

theorem run_append (s : Store K V) (events more : List (Event K V)) :
    s.run (events ++ more) = (s.run events).run more := List.foldl_append

/-! ### One key -/

/-- What was done under a key. -/
def doneFor (s : Store K V) (k : K) : List V :=
  (s.done.filter fun x => x.1 = k).map Prod.snd

theorem pairs_filter_self (k : K) (items : List V) :
    ((items.map (Prod.mk k)).filter fun x => x.1 = k).map Prod.snd = items := by
  induction items with
  | nil => rfl
  | cons v items ih => simpa using ih

theorem pairs_filter_of_ne {k k' : K} (h : k ≠ k') (items : List V) :
    (items.map (Prod.mk k)).filter (fun x => decide (x.1 = k')) = [] := by
  rw [List.filter_map, List.map_eq_nil_iff, List.filter_eq_nil_iff]
  intro v _
  simpa using h

@[simp] theorem submit_now_waiting (s : Store K V) (k : K) (items : List V) :
    (s.step (.submit k items true)).waiting = s.waiting := rfl

@[simp] theorem submit_now_doneFor (s : Store K V) (k : K) (items : List V) :
    (s.step (.submit k items true)).doneFor k = s.doneFor k ++ items := by
  rw [doneFor, step, List.filter_append, List.map_append, pairs_filter_self]
  rfl

@[simp] theorem submit_later_waiting (s : Store K V) (k : K) (items : List V) :
    (s.step (.submit k items false)).waiting k = some (s.kept k ++ items) :=
  Function.update_self ..

@[simp] theorem submit_now_kept (s : Store K V) (k : K) (items : List V) :
    (s.step (.submit k items true)).kept k = s.kept k := rfl

@[simp] theorem submit_later_kept (s : Store K V) (k : K) (items : List V) :
    (s.step (.submit k items false)).kept k = s.kept k ++ items :=
  congrArg (Option.getD · []) (submit_later_waiting s k items)

@[simp] theorem submit_later_doneFor (s : Store K V) (k k' : K) (items : List V) :
    (s.step (.submit k items false)).doneFor k' = s.doneFor k' := rfl

@[simp] theorem serve_waiting (s : Store K V) (k : K) : (s.step (.serve k)).waiting k = none :=
  Function.update_self ..

@[simp] theorem serve_doneFor (s : Store K V) (k : K) :
    (s.step (.serve k)).doneFor k = s.doneFor k ++ s.kept k := by
  rw [doneFor, step, List.filter_append, List.map_append, pairs_filter_self]
  rfl

/-- What an event does, it does under its key. -/
theorem step_done (s : Store K V) (e : Event K V) :
    ∃ items : List V, (s.step e).done = s.done ++ items.map (Prod.mk e.key) ∧
      (s.step e).doneFor e.key = s.doneFor e.key ++ items := by
  cases e with
  | submit key items now =>
      cases now with
      | true => exact ⟨items, rfl, s.submit_now_doneFor key items⟩
      | false => exact ⟨[], (List.append_nil _).symm, (List.append_nil _).symm⟩
  | serve key => exact ⟨s.kept key, rfl, s.serve_doneFor key⟩

/-- An event of another key changes nothing. -/
theorem step_of_ne (s : Store K V) {e : Event K V} {k : K} (h : e.key ≠ k) :
    (s.step e).waiting k = s.waiting k ∧ (s.step e).doneFor k = s.doneFor k := by
  have hdone : ∀ items : List V,
      ((s.done ++ items.map (Prod.mk e.key)).filter fun x => x.1 = k) =
        s.done.filter fun x => x.1 = k := by
    intro items
    rw [List.filter_append, pairs_filter_of_ne h, List.append_nil]
  cases e with
  | submit key items now =>
      cases now with
      | true => exact ⟨rfl, congrArg _ (hdone items)⟩
      | false => exact ⟨Function.update_of_ne (Ne.symm h) _ _, rfl⟩
  | serve key => exact ⟨Function.update_of_ne (Ne.symm h) _ _, congrArg _ (hdone _)⟩

/-- Two stores that agree on a key agree on it after an event of that key. -/
theorem step_congr {s t : Store K V} {k : K} {e : Event K V}
    (hw : s.waiting k = t.waiting k) (hd : s.doneFor k = t.doneFor k) (he : e.key = k) :
    (s.step e).waiting k = (t.step e).waiting k ∧
      (s.step e).doneFor k = (t.step e).doneFor k := by
  subst he
  have hkept : s.kept e.key = t.kept e.key := congrArg (Option.getD · []) hw
  cases e with
  | submit key items now =>
      cases now with
      | true => exact ⟨hw, by simp only [Event.key, submit_now_doneFor] at hd ⊢; rw [hd]⟩
      | false =>
          refine ⟨?_, hd⟩
          simp only [Event.key, submit_later_waiting] at hkept ⊢
          rw [hkept]
  | serve key =>
      simp only [Event.key, serve_waiting, serve_doneFor] at hkept hd ⊢
      exact ⟨trivial, by rw [hd, hkept]⟩

/-- A key depends on its own events only. -/
theorem run_filter (s : Store K V) (events : List (Event K V)) (k : K) :
    (s.run events).waiting k = (s.run (events.filter fun e => e.key = k)).waiting k ∧
      (s.run events).doneFor k = (s.run (events.filter fun e => e.key = k)).doneFor k := by
  have hgen : ∀ (s t : Store K V), s.waiting k = t.waiting k → s.doneFor k = t.doneFor k →
      (s.run events).waiting k = (t.run (events.filter fun e => e.key = k)).waiting k ∧
        (s.run events).doneFor k = (t.run (events.filter fun e => e.key = k)).doneFor k := by
    induction events with
    | nil => exact fun s t hw hd => ⟨hw, hd⟩
    | cons e events ih =>
        intro s t hw hd
        by_cases he : e.key = k
        · rw [List.filter_cons_of_pos (by simpa using he)]
          obtain ⟨hw', hd'⟩ := step_congr hw hd he
          exact ih _ _ hw' hd'
        · rw [List.filter_cons_of_neg (by simpa using he)]
          obtain ⟨hw', hd'⟩ := s.step_of_ne he
          exact ih _ _ (hw'.trans hw) (hd'.trans hd)
  exact hgen s s rfl rfl

/-! ### All keys -/

variable [DecidableEq V]

theorem count_pairs (k k' : K) (v : V) (items : List V) :
    (items.map (Prod.mk k')).count (k, v) = if k' = k then items.count v else 0 := by
  split
  · rename_i h
    subst h
    exact List.count_map_of_injective _ _ (fun _ _ h => (Prod.mk.inj h).2) v
  · rename_i h
    refine List.count_eq_zero.mpr fun hmem => h ?_
    obtain ⟨_, _, heq⟩ := List.mem_map.mp hmem
    exact (Prod.mk.inj heq).1

/-- Events of other keys are not counted. -/
theorem served_cons_of_ne {e : Event K V} {k : K} (h : e.key ≠ k) (events : List (Event K V))
    (v : V) :
    (e :: events).any (Event.serves k) = events.any (Event.serves k) ∧
      (served (e :: events)).count (k, v) = (served events).count (k, v) := by
  cases e with
  | submit key items now =>
      refine ⟨rfl, ?_⟩
      rw [served, List.count_append]
      split
      · rw [count_pairs, if_neg (show key ≠ k from h), Nat.zero_add]
      · rw [List.count_nil, Nat.zero_add]
  | serve key => exact ⟨by simp [Event.serves, show key ≠ k from h], rfl⟩

/-- By induction on the events, for anything that waits before them. -/
theorem count_run (s : Store K V) (events : List (Event K V)) (k : K) (v : V) :
    (s.run events).done.count (k, v) = s.done.count (k, v) +
      (if events.any (Event.serves k) = true then (s.kept k).count v else 0) +
        (served events).count (k, v) := by
  induction events generalizing s with
  | nil => rfl
  | cons e events ih =>
      rw [run_cons, ih]
      by_cases hk : e.key = k
      · cases e with
        | submit key items now =>
            obtain rfl : key = k := hk
            have hany : (Event.submit key items now :: events).any (Event.serves key) =
                events.any (Event.serves key) := rfl
            rw [hany, served, List.count_append]
            cases now with
            | true =>
                have hdone : (s.step (.submit key items true)).done =
                    s.done ++ items.map (Prod.mk key) := rfl
                rw [hdone, submit_now_kept, List.count_append, if_pos (Or.inl rfl)]
                omega
            | false =>
                have hdone : (s.step (.submit key items false)).done = s.done := rfl
                rw [hdone, submit_later_kept, List.count_append]
                by_cases hserved : events.any (Event.serves key) = true
                · rw [if_pos hserved, if_pos hserved, if_pos (Or.inr hserved), count_pairs,
                    if_pos rfl]
                  omega
                · rw [if_neg hserved, if_neg hserved, if_neg (by simpa using hserved),
                    List.count_nil, Nat.zero_add]
        | serve key =>
            obtain rfl : key = k := hk
            have hany : (Event.serve key :: events).any (Event.serves key) = true := by
              simp [Event.serves]
            have hdone : (s.step (.serve key)).done =
                s.done ++ (s.kept key).map (Prod.mk key) := rfl
            have hkept : (s.step (.serve key)).kept key = [] :=
              congrArg (Option.getD · []) (s.serve_waiting key)
            rw [hany, hdone, hkept, served, List.count_append, count_pairs, List.count_nil,
              ite_self, if_pos rfl, if_pos rfl, Nat.add_zero]
      · obtain ⟨hany, hserved⟩ := served_cons_of_ne hk events v
        obtain ⟨items, hdone, _⟩ := s.step_done e
        have hkept : (s.step e).kept k = s.kept k :=
          congrArg (Option.getD · []) (s.step_of_ne hk).1
        rw [hany, hserved, hkept, hdone, List.count_append, count_pairs, if_neg hk, Nat.add_zero]

/-- What is done in the end is what was served, each item as often. -/
theorem done_perm_served (events : List (Event K V)) :
    (empty.run events).done.Perm (served events) := by
  rw [List.perm_iff_count]
  rintro ⟨k, v⟩
  rw [count_run]
  simp [empty, kept]

end Store

end Deferred
