import Mathlib.Data.List.Basic
import Mathlib.Data.List.Perm.Basic
import Mathlib.Tactic.Common

/-! # A chain of responsibility kept in a vector

An event is offered to the commands of a vector one after the other. A command may
consume the event, which ends the chain, and may leave the vector, whose last entry
then takes its place. `chain` says what such a chain computes when nothing moves;
`dispatch` is the loop over the vector. The loop is the chain over some
reordering of the vector. -/

namespace Chain

universe u v w

/-- What one command does with an event: its own new state, what it puts out,
whether it stays, and the event if it passes it on. -/
structure Offer (C : Type u) (O : Type v) (E : Type w) where
  command : C
  output : List O
  keep : Bool
  remaining : Option E

/-- The vector, what was put out, and the event if nobody consumed it. -/
structure Outcome (C : Type u) (O : Type v) (E : Type w) where
  commands : List C
  output : List O
  remaining : Option E

variable {C : Type u} {O : Type v} {E : Type w} (onEvent : C → E → Offer C O E)

/-- The command as it stays behind, if it does. -/
def kept (event : E) (c : C) : List C :=
  if (onEvent c event).keep then [(onEvent c event).command] else []

def chain : List C → E → Outcome C O E
  | [], event => ⟨[], [], some event⟩
  | c :: cs, event =>
      match (onEvent c event).remaining with
      | none => ⟨kept onEvent event c ++ cs, (onEvent c event).output, none⟩
      | some event' =>
          ⟨kept onEvent event c ++ (chain cs event').commands,
            (onEvent c event).output ++ (chain cs event').output,
            (chain cs event').remaining⟩

/-- `Vec::swap_remove`: the last entry takes the place of the removed one. -/
def swapRemove (cs : List C) (i : Nat) : List C :=
  match cs.getLast? with
  | none => []
  | some last => (cs.set i last).dropLast

/-- The variables of the dispatch loop. -/
structure Loop (C : Type u) (O : Type v) (E : Type w) where
  commands : List C
  index : Nat
  output : List O
  remaining : Option E

/-- One turn of the loop, or `none` when the loop has ended: the index has reached
the end of the vector or the event is gone. -/
def Loop.turn (s : Loop C O E) : Option (Loop C O E) :=
  match s.commands[s.index]?, s.remaining with
  | some c, some event =>
      let r := onEvent c event
      let commands := s.commands.set s.index r.command
      if r.keep then some ⟨commands, s.index + 1, s.output ++ r.output, r.remaining⟩
      else some ⟨swapRemove commands s.index, s.index, s.output ++ r.output, r.remaining⟩
  | _, _ => none

/-- At most `fuel` turns. -/
def Loop.run : Nat → Loop C O E → Loop C O E
  | 0, s => s
  | fuel + 1, s =>
      match s.turn onEvent with
      | none => s
      | some s' => Loop.run fuel s'

def Loop.start (commands : List C) (event : E) : Loop C O E :=
  ⟨commands, 0, [], some event⟩

/-- Every turn advances the index or shortens the vector, so as many turns as there
are commands are enough; see `dispatch_exits`. -/
def dispatch (commands : List C) (event : E) : Loop C O E :=
  Loop.run onEvent commands.length (Loop.start commands event)

/-! ### Removal by swapping -/

/-- What `swapRemove` leaves of the entries behind the removed one. -/
def lastToFront (cs : List C) : List C :=
  match cs.getLast? with
  | none => []
  | some last => last :: cs.dropLast

theorem lastToFront_perm (cs : List C) : (lastToFront cs).Perm cs := by
  cases h : cs.getLast? with
  | none =>
      obtain rfl := List.getLast?_eq_none_iff.mp h
      simp [lastToFront]
  | some last =>
      have hcs : cs.dropLast ++ [last] = cs := List.dropLast_append_getLast? last h
      have hp : (last :: cs.dropLast).Perm (cs.dropLast ++ [last]) :=
        (List.perm_append_singleton last cs.dropLast).symm
      rw [hcs] at hp
      simpa [lastToFront, h] using hp

theorem swapRemove_append_cons (front : List C) (c : C) (cs : List C) :
    swapRemove (front ++ c :: cs) front.length = front ++ lastToFront cs := by
  cases h : cs.getLast? with
  | none =>
      obtain rfl := List.getLast?_eq_none_iff.mp h
      simp [swapRemove, lastToFront]
  | some last =>
      have hcs : cs ≠ [] := by
        rintro rfl
        simp at h
      have hlast : (front ++ c :: cs).getLast? = some last := by
        simp [List.getLast?_append, List.getLast?_cons, h]
      have hdrop : (last :: cs).dropLast = last :: cs.dropLast :=
        List.dropLast_cons_of_ne_nil hcs
      have hset : (front ++ c :: cs).set front.length last = front ++ last :: cs := by
        simp
      simp only [swapRemove, lastToFront, hlast, h, hset]
      rw [List.dropLast_append_of_ne_nil (by simp), hdrop]

/-! ### The loop is a chain -/

/-- A turn at the first command of the rest. -/
theorem turn_cons (front rest : List C) (c : C) (out : List O) (event : E) :
    Loop.turn onEvent ⟨front ++ c :: rest, front.length, out, some event⟩ =
      some (if (onEvent c event).keep then
        ⟨front ++ (onEvent c event).command :: rest, front.length + 1,
          out ++ (onEvent c event).output, (onEvent c event).remaining⟩
      else
        ⟨front ++ lastToFront rest, front.length,
          out ++ (onEvent c event).output, (onEvent c event).remaining⟩) := by
  have hset : (front ++ c :: rest).set front.length (onEvent c event).command =
      front ++ (onEvent c event).command :: rest := by
    simp
  have hget : (front ++ c :: rest)[front.length]? = some c := by simp
  simp only [Loop.turn, hget, hset, swapRemove_append_cons]
  split <;> rfl

theorem turn_none_of_remaining (s : Loop C O E) (h : s.remaining = none) :
    s.turn onEvent = none := by
  simp [Loop.turn, h]

theorem run_of_turn_none (fuel : Nat) (s : Loop C O E) (h : s.turn onEvent = none) :
    Loop.run onEvent fuel s = s := by
  cases fuel with
  | zero => rfl
  | succ fuel => simp [Loop.run, h]

/-- With enough fuel for the entries from the index on, the loop ends, and it has
computed the chain over some order of these entries. -/
theorem run_eq_chain (fuel : Nat) (front rest : List C) (out : List O) (event : E)
    (hfuel : rest.length ≤ fuel) :
    ∃ order, order.Perm rest ∧
      (∃ left, (Loop.run onEvent fuel
          ⟨front ++ rest, front.length, out, some event⟩).commands = front ++ left ∧
        left.Perm (chain onEvent order event).commands) ∧
      (Loop.run onEvent fuel ⟨front ++ rest, front.length, out, some event⟩).output =
        out ++ (chain onEvent order event).output ∧
      (Loop.run onEvent fuel ⟨front ++ rest, front.length, out, some event⟩).remaining =
        (chain onEvent order event).remaining ∧
      Loop.turn onEvent
        (Loop.run onEvent fuel ⟨front ++ rest, front.length, out, some event⟩) = none := by
  induction fuel generalizing front rest out event with
  | zero =>
      obtain rfl : rest = [] := List.length_eq_zero_iff.mp (Nat.le_zero.mp hfuel)
      exact ⟨[], .refl _, ⟨[], by simp [Loop.run], .refl _⟩, by simp [Loop.run, chain],
        by simp [Loop.run, chain], by simp [Loop.run, Loop.turn]⟩
  | succ fuel ih =>
      cases rest with
      | nil =>
          have hturn : Loop.turn onEvent ⟨front ++ [], front.length, out, some event⟩ = none := by
            simp [Loop.turn]
          rw [run_of_turn_none onEvent _ _ hturn]
          exact ⟨[], .refl _, ⟨[], rfl, .refl _⟩, by simp [chain], by simp [chain], hturn⟩
      | cons c rest =>
          have hlen : rest.length ≤ fuel := by simpa using hfuel
          rw [Loop.run, turn_cons]
          cases hrem : (onEvent c event).remaining with
          | none =>
              -- The event is consumed: whatever fuel is left, the loop has ended.
              by_cases hk : (onEvent c event).keep
              · simp only [hk, ite_true]
                rw [run_of_turn_none onEvent _ _ (turn_none_of_remaining onEvent _ rfl)]
                exact ⟨c :: rest, .refl _,
                  ⟨_, rfl, by simp [chain, hrem, kept, hk]⟩, by simp [chain, hrem],
                  by simp [chain, hrem], turn_none_of_remaining onEvent _ rfl⟩
              · simp only [hk, Bool.false_eq_true, ite_false]
                rw [run_of_turn_none onEvent _ _ (turn_none_of_remaining onEvent _ rfl)]
                exact ⟨c :: rest, .refl _,
                  ⟨_, rfl, by simpa [chain, hrem, kept, hk] using lastToFront_perm rest⟩,
                  by simp [chain, hrem], by simp [chain, hrem],
                  turn_none_of_remaining onEvent _ rfl⟩
          | some event' =>
              by_cases hk : (onEvent c event).keep
              · simp only [hk, ite_true]
                obtain ⟨order, hord, ⟨left, hleft, hperm⟩, hout, hrest, hturn⟩ :=
                  ih (front ++ [(onEvent c event).command]) rest
                    (out ++ (onEvent c event).output) event' hlen
                simp only [List.append_assoc, List.singleton_append, List.length_append,
                  List.length_singleton] at hleft hout hrest hturn
                refine ⟨c :: order, hord.cons c, ⟨_, hleft, ?_⟩, ?_, ?_, hturn⟩
                · simpa [chain, hrem, kept, hk] using hperm.cons (onEvent c event).command
                · simpa [chain, hrem] using hout
                · simpa [chain, hrem] using hrest
              · simp only [hk, Bool.false_eq_true, ite_false]
                have hlast := lastToFront_perm rest
                obtain ⟨order, hord, ⟨left, hleft, hperm⟩, hout, hrest, hturn⟩ :=
                  ih front (lastToFront rest) (out ++ (onEvent c event).output) event'
                    (by simpa [hlast.length_eq] using hlen)
                refine ⟨c :: order, (hord.trans hlast).cons c, ⟨left, hleft, ?_⟩, ?_, ?_, hturn⟩
                · simpa [chain, hrem, kept, hk] using hperm
                · simpa [chain, hrem] using hout
                · simpa [chain, hrem] using hrest

/-- `commands.length` turns are enough: the loop has ended. -/
theorem dispatch_exits (commands : List C) (event : E) :
    (dispatch onEvent commands event).turn onEvent = none := by
  obtain ⟨_, _, _, _, _, hturn⟩ :=
    run_eq_chain onEvent commands.length [] commands [] event (Nat.le_refl _)
  exact hturn

/-- The loop computes the chain over some order of the vector. -/
theorem dispatch_eq_chain (commands : List C) (event : E) :
    ∃ order, order.Perm commands ∧
      (dispatch onEvent commands event).commands.Perm (chain onEvent order event).commands ∧
      (dispatch onEvent commands event).output = (chain onEvent order event).output ∧
      (dispatch onEvent commands event).remaining =
        (chain onEvent order event).remaining := by
  obtain ⟨order, hord, ⟨left, hleft, hperm⟩, hout, hrem, _⟩ :=
    run_eq_chain onEvent commands.length [] commands [] event (Nat.le_refl _)
  have hcommands : (dispatch onEvent commands event).commands = left := hleft
  have houtput : (dispatch onEvent commands event).output = (chain onEvent order event).output :=
    hout
  refine ⟨order, hord, ?_, houtput, hrem⟩
  rw [hcommands]
  exact hperm

/-! ### Events that are passed on unchanged -/

/-- When a passed event is the event that was offered, the chain splits its order
into the commands that were offered the event and those behind a consumer. -/
theorem chain_split (hsame : ∀ c event event', (onEvent c event).remaining = some event' →
    event' = event) (order : List C) (event : E) :
    ∃ visited skipped, order = visited ++ skipped ∧
      (chain onEvent order event).commands =
        visited.flatMap (kept onEvent event) ++ skipped ∧
      (chain onEvent order event).output =
        visited.flatMap (fun c => (onEvent c event).output) ∧
      ((skipped = [] ∧ (chain onEvent order event).remaining = some event ∧
          ∀ c ∈ visited, (onEvent c event).remaining = some event) ∨
        ((chain onEvent order event).remaining = none ∧
          ∃ c ∈ visited, (onEvent c event).remaining = none)) := by
  induction order with
  | nil => exact ⟨[], [], rfl, rfl, rfl, .inl ⟨rfl, rfl, by simp⟩⟩
  | cons c order ih =>
      cases hrem : (onEvent c event).remaining with
      | none =>
          exact ⟨[c], order, rfl, by simp [chain, hrem], by simp [chain, hrem],
            .inr ⟨by simp [chain, hrem], c, by simp, hrem⟩⟩
      | some event' =>
          obtain rfl := hsame c event event' hrem
          obtain ⟨visited, skipped, rfl, hcommands, hout, hend⟩ := ih
          refine ⟨c :: visited, skipped, rfl, ?_, ?_, ?_⟩
          · simp [chain, hrem, hcommands]
          · simp [chain, hrem, hout]
          · rcases hend with ⟨hs, hr, hall⟩ | ⟨hr, d, hd, hnone⟩
            · refine .inl ⟨hs, by simpa [chain, hrem] using hr, ?_⟩
              intro d hd
              rcases List.mem_cons.mp hd with rfl | hd
              · exact hrem
              · exact hall d hd
            · exact .inr ⟨by simpa [chain, hrem] using hr, d, by simp [hd], hnone⟩

/-- The contract of the dispatch loop: every command is offered the event at most
once, and one that was not offered it stands behind a consumer. -/
structure Dispatched (commands : List C) (event : E) (visited skipped : List C)
    (d : Loop C O E) : Prop where
  perm : (visited ++ skipped).Perm commands
  commands_perm : d.commands.Perm (visited.flatMap (kept onEvent event) ++ skipped)
  output_eq : d.output = visited.flatMap (fun c => (onEvent c event).output)
  ending : (skipped = [] ∧ d.remaining = some event ∧
      ∀ c ∈ visited, (onEvent c event).remaining = some event) ∨
    (d.remaining = none ∧ ∃ c ∈ visited, (onEvent c event).remaining = none)

theorem dispatch_spec (hsame : ∀ c event event', (onEvent c event).remaining = some event' →
    event' = event) (commands : List C) (event : E) :
    ∃ visited skipped,
      Dispatched onEvent commands event visited skipped (dispatch onEvent commands event) := by
  obtain ⟨order, hord, hcommands, hout, hrem⟩ := dispatch_eq_chain onEvent commands event
  obtain ⟨visited, skipped, rfl, hc, ho, hend⟩ := chain_split onEvent hsame order event
  refine ⟨visited, skipped, hord, ?_, ?_, ?_⟩
  · rw [← hc]
    exact hcommands
  · rw [hout, ho]
  · rw [hrem]
    exact hend

end Chain
