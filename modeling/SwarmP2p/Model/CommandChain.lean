import SwarmP2p.Library.Chain

/-! # The command chain

`handle_swarm_event` over commands of any kind. `active_commands` holds trait objects,
so nothing is known here of what an `on_event` does with the swarm, with its command and
with the event. `S` is everything the call may change besides the command, `N` the type
of node events. -/

namespace SwarmP2p.CommandChain

variable {S C E N : Type}

/-- `OnEventResult`, with the swarm and the command as the call leaves them. -/
structure OnEventResult (S C E : Type) where
  swarm : S
  command : C
  keepActive : Bool
  remainingEvent : Option E

/-- A call of `on_event_boxed`: the swarm, the command and the event it was given. -/
structure OnEventCall (S C E : Type) where
  swarm : S
  command : C
  event : E

def OnEventCall.result (onEvent : S → C → E → OnEventResult S C E) (call : OnEventCall S C E) :
    OnEventResult S C E :=
  onEvent call.swarm call.command call.event

/-- The command as the call leaves it in the chain, if it does. -/
def OnEventCall.kept? (onEvent : S → C → E → OnEventResult S C E) (call : OnEventCall S C E) :
    Option C :=
  if (call.result onEvent).keepActive then some (call.result onEvent).command else none

/-- The variables of the loop; `calls` records the calls made so far and is read by
no function. -/
structure ChainState (S C E : Type) where
  swarm : S
  activeCommands : List C
  i : Nat
  remaining : Option E
  calls : List (OnEventCall S C E)

def ChainState.start (swarm : S) (activeCommands : List C) (event : E) : ChainState S C E :=
  ⟨swarm, activeCommands, 0, some event, []⟩

/-- One turn of the `while` loop, or `none` where the loop is left: `i` has reached the
end of the vector, or `remaining.take()` finds nothing. -/
def ChainState.turn (onEvent : S → C → E → OnEventResult S C E) (s : ChainState S C E) :
    Option (ChainState S C E) :=
  match s.activeCommands[s.i]?, s.remaining with
  | some command, some event =>
      let call : OnEventCall S C E := ⟨s.swarm, command, event⟩
      let r := call.result onEvent
      let activeCommands := s.activeCommands.set s.i r.command
      some
        { swarm := r.swarm
          activeCommands :=
            if r.keepActive then activeCommands else Chain.swapRemove activeCommands s.i
          i := if r.keepActive then s.i + 1 else s.i
          remaining := r.remainingEvent
          calls := s.calls ++ [call] }
  | _, _ => none

theorem swapRemove_length (cs : List C) (i : Nat) :
    (Chain.swapRemove cs i).length = cs.length - 1 := by
  unfold Chain.swapRemove
  split
  · rename_i h
    rw [List.getLast?_eq_none_iff.mp h]
    rfl
  · rw [List.length_dropLast, List.length_set]

/-- A turn moves on, or the vector gets shorter. -/
theorem ChainState.turn_decreases {onEvent : S → C → E → OnEventResult S C E}
    {s t : ChainState S C E} (h : s.turn onEvent = some t) :
    t.activeCommands.length - t.i < s.activeCommands.length - s.i := by
  unfold turn at h
  split at h
  · rename_i command event hget hrem
    obtain ⟨hi, _⟩ := List.getElem?_eq_some_iff.mp hget
    obtain rfl := Option.some.inj h
    dsimp only
    split
    · rw [List.length_set]
      omega
    · rw [swapRemove_length, List.length_set]
      omega
  · cases h

/-- The loop, run until it is left. -/
def ChainState.exit (onEvent : S → C → E → OnEventResult S C E) (s : ChainState S C E) :
    ChainState S C E :=
  match _h : s.turn onEvent with
  | none => s
  | some t => t.exit onEvent
termination_by s.activeCommands.length - s.i
decreasing_by exact turn_decreases ‹_›

theorem ChainState.exit_of_none {onEvent : S → C → E → OnEventResult S C E}
    {s : ChainState S C E} (h : s.turn onEvent = none) : s.exit onEvent = s := by
  rw [exit]
  split
  · rfl
  · rename_i t ht
    rw [h] at ht
    cases ht

theorem ChainState.exit_of_some {onEvent : S → C → E → OnEventResult S C E}
    {s t : ChainState S C E} (h : s.turn onEvent = some t) :
    s.exit onEvent = t.exit onEvent := by
  rw [exit]
  split
  · rename_i hnone
    rw [h] at hnone
    cases hnone
  · rename_i u hu
    rw [h] at hu
    obtain rfl := Option.some.inj hu
    rfl

/-- What `handle_swarm_event` leaves: `converted` lists the events that
`convert_to_node_event` was called with, `nodeEvent` is what goes to `event_tx.send`. -/
structure Handled (S C E N : Type) where
  swarm : S
  activeCommands : List C
  calls : List (OnEventCall S C E)
  converted : List E
  nodeEvent : Option N

def handleSwarmEvent (onEvent : S → C → E → OnEventResult S C E)
    (convertToNodeEvent : S → E → S × Option N) (swarm : S) (activeCommands : List C)
    (event : E) : Handled S C E N :=
  let s := (ChainState.start swarm activeCommands event).exit onEvent
  match s.remaining with
  | none => ⟨s.swarm, s.activeCommands, s.calls, [], none⟩
  | some event =>
      let (swarm, nodeEvent) := convertToNodeEvent s.swarm event
      ⟨swarm, s.activeCommands, s.calls, [event], nodeEvent⟩

end SwarmP2p.CommandChain
