import Mathlib.Data.List.Chain
import SwarmP2p.Model.CommandChain
import SwarmP2p.Model.Node

/-! # What the command chain does

The loop is followed turn by turn: the commands that have been called and stay stand in
front of the index, those that have not been called stand behind it. The chain of the
node is an instance. -/

namespace SwarmP2p.CommandChain

variable {S C E N : Type} {onEvent : S → C → E → OnEventResult S C E}

/-- The later call gets the event that the earlier one returned, and the swarm as it
left it. -/
def OnEventCall.HandsOn (onEvent : S → C → E → OnEventResult S C E)
    (a b : OnEventCall S C E) : Prop :=
  (a.result onEvent).remainingEvent = some b.event ∧ (a.result onEvent).swarm = b.swarm

/-- What holds at the head of the loop, with `rest` the commands not yet called. -/
structure Offering (onEvent : S → C → E → OnEventResult S C E) (swarm : S)
    (commands : List C) (event : E) (s : ChainState S C E) (rest : List C) : Prop where
  split : s.activeCommands = s.calls.filterMap (OnEventCall.kept? onEvent) ++ rest
  index : s.i = (s.calls.filterMap (OnEventCall.kept? onEvent)).length
  perm : (s.calls.map OnEventCall.command ++ rest).Perm commands
  first : ∀ call, s.calls.head? = some call → call.swarm = swarm ∧ call.event = event
  handedOn : s.calls.IsChain (OnEventCall.HandsOn onEvent)
  last : (s.calls = [] ∧ s.swarm = swarm ∧ s.remaining = some event) ∨
    ∃ call, s.calls.getLast? = some call ∧ (call.result onEvent).swarm = s.swarm ∧
      (call.result onEvent).remainingEvent = s.remaining

namespace Offering

variable {swarm : S} {commands : List C} {event : E} {s t : ChainState S C E} {rest : List C}

theorem start (swarm : S) (commands : List C) (event : E) :
    Offering onEvent swarm commands event (.start swarm commands event) commands :=
  ⟨rfl, rfl, .refl _, by simp [ChainState.start], .nil, .inl ⟨rfl, rfl, rfl⟩⟩

/-- A turn calls the first command of the rest. -/
theorem turn_eq (h : Offering onEvent swarm commands event s rest)
    (ht : s.turn onEvent = some t) :
    ∃ (call : OnEventCall S C E) (rest' : List C), rest = call.command :: rest' ∧
      call.swarm = s.swarm ∧ s.remaining = some call.event ∧
      t = { swarm := (call.result onEvent).swarm
            activeCommands :=
              s.calls.filterMap (OnEventCall.kept? onEvent) ++
                if (call.result onEvent).keepActive then
                  (call.result onEvent).command :: rest'
                else Chain.lastToFront rest'
            i := if (call.result onEvent).keepActive then s.i + 1 else s.i
            remaining := (call.result onEvent).remainingEvent
            calls := s.calls ++ [call] } := by
  unfold ChainState.turn at ht
  split at ht
  · rename_i c e hget hrem
    obtain rfl := Option.some.inj ht
    rw [h.split, h.index, List.getElem?_append_right (le_refl _), Nat.sub_self] at hget
    cases rest with
    | nil => cases hget
    | cons c' rest' =>
        obtain rfl : c' = c := Option.some.inj hget
        refine ⟨⟨s.swarm, c', e⟩, rest', rfl, rfl, hrem, ?_⟩
        simp only [h.split, h.index, List.set_append_right _ _ (le_refl _), Nat.sub_self,
          List.set_cons_zero, Chain.swapRemove_append_cons]
        split <;> rfl
  · cases ht

theorem turn (h : Offering onEvent swarm commands event s rest)
    (ht : s.turn onEvent = some t) :
    ∃ rest', Offering onEvent swarm commands event t rest' := by
  obtain ⟨call, rest', rfl, hswarm, hrem, rfl⟩ := h.turn_eq ht
  have hfirst : ∀ a, (s.calls ++ [call]).head? = some a → a.swarm = swarm ∧ a.event = event := by
    intro a ha
    rcases h.last with ⟨hnil, hs, he⟩ | ⟨last, hlast, _⟩
    · obtain rfl : call = a := by simpa [hnil] using ha
      rw [hrem] at he
      exact ⟨hswarm.trans hs, Option.some.inj he⟩
    · refine h.first a ?_
      cases hc : s.calls with
      | nil => simp [hc] at hlast
      | cons b calls => simpa [hc] using ha
  have hchain : (s.calls ++ [call]).IsChain (OnEventCall.HandsOn onEvent) := by
    refine List.isChain_append.mpr ⟨h.handedOn, .singleton _, ?_⟩
    intro a ha b hb
    obtain rfl : call = b := by simpa using hb
    rcases h.last with ⟨hnil, _⟩ | ⟨last, hlast, hs, he⟩
    · simp [hnil] at ha
    · obtain rfl : last = a := by
        rw [hlast] at ha
        simpa using ha
      exact ⟨he.trans hrem, hs.trans hswarm.symm⟩
  have hlast : ∃ a, (s.calls ++ [call]).getLast? = some a ∧
      (a.result onEvent).swarm = (call.result onEvent).swarm ∧
      (a.result onEvent).remainingEvent = (call.result onEvent).remainingEvent :=
    ⟨call, by simp, rfl, rfl⟩
  by_cases hk : (call.result onEvent).keepActive = true
  · refine ⟨rest', ?_, ?_, ?_, hfirst, hchain, .inr hlast⟩
    · simp [hk, OnEventCall.kept?]
    · simp [hk, OnEventCall.kept?, h.index]
    · simpa using h.perm
  · refine ⟨Chain.lastToFront rest', ?_, ?_, ?_, hfirst, hchain, .inr hlast⟩
    · simp [hk, OnEventCall.kept?]
    · simp [hk, OnEventCall.kept?, h.index]
    · have hperm := (Chain.lastToFront_perm rest').append_left
        (s.calls.map OnEventCall.command ++ [call.command])
      simpa using hperm.trans (by simpa using h.perm)

end Offering

end SwarmP2p.CommandChain

namespace SwarmP2p

variable {Req Resp : Type} {L : Libp2p Req Resp}

/-! ### The chain of the node -/

/-- `on_event_boxed` of a task, which changes nothing but the handles. -/
def Task.onEventResult (L : Libp2p Req Resp) (handles : HandleId → ResultState (Output Resp))
    (self : Task Req Resp) (event : SwarmEvent Req Resp) :
    CommandChain.OnEventResult (HandleId → ResultState (Output Resp)) (Task Req Resp)
      (SwarmEvent Req Resp) :=
  let r := self.onEvent L event
  ⟨finishAll handles r.output, r.command, r.keep, r.remaining⟩

/-- The two loops stand at the same place: one collects what is to be finished, the
other has finished it. -/
structure SameLoop (handles : HandleId → ResultState (Output Resp))
    (d : Chain.Loop (Task Req Resp) (HandleId × Result (Output Resp)) (SwarmEvent Req Resp))
    (s : CommandChain.ChainState (HandleId → ResultState (Output Resp)) (Task Req Resp)
      (SwarmEvent Req Resp)) : Prop where
  swarm : s.swarm = finishAll handles d.output
  activeCommands : s.activeCommands = d.commands
  i : s.i = d.index
  remaining : s.remaining = d.remaining

namespace SameLoop

variable {handles : HandleId → ResultState (Output Resp)}
  {d d' : Chain.Loop (Task Req Resp) (HandleId × Result (Output Resp)) (SwarmEvent Req Resp)}
  {s : CommandChain.ChainState (HandleId → ResultState (Output Resp)) (Task Req Resp)
    (SwarmEvent Req Resp)}

theorem turn_none (h : SameLoop handles d s) (hd : d.turn (Task.onEvent L) = none) :
    s.turn (Task.onEventResult L) = none := by
  unfold Chain.Loop.turn at hd
  unfold CommandChain.ChainState.turn
  rw [h.activeCommands, h.i, h.remaining]
  split at hd
  · dsimp only at hd
    split at hd <;> cases hd
  · rename_i hno
    split
    · rename_i c e hget hrem
      exact absurd hrem (hno c e hget)
    · rfl

theorem turn_some (h : SameLoop handles d s) (hd : d.turn (Task.onEvent L) = some d') :
    ∃ s', s.turn (Task.onEventResult L) = some s' ∧ SameLoop handles d' s' := by
  unfold Chain.Loop.turn at hd
  unfold CommandChain.ChainState.turn
  rw [h.activeCommands, h.i, h.remaining]
  split at hd
  · rename_i task event hget hrem
    rw [hget, hrem]
    refine ⟨_, rfl, ?_⟩
    have hresult : CommandChain.OnEventCall.result (Task.onEventResult L) ⟨s.swarm, task, event⟩ =
        task.onEventResult L s.swarm event := rfl
    rw [hresult]
    dsimp only at hd
    split at hd
    · rename_i hkeep
      obtain rfl := Option.some.inj hd
      refine ⟨?_, ?_, ?_, rfl⟩
      · simp only [Task.onEventResult, finishAll_append, h.swarm]
      · simp [Task.onEventResult, hkeep]
      · simp [Task.onEventResult, hkeep]
    · rename_i hkeep
      obtain rfl := Option.some.inj hd
      refine ⟨?_, ?_, ?_, rfl⟩
      · simp only [Task.onEventResult, finishAll_append, h.swarm]
      · simp [Task.onEventResult, hkeep]
      · simp [Task.onEventResult, hkeep]
  · cases hd

theorem exit (h : SameLoop handles d s) {fuel : Nat}
    (hexit : (Chain.Loop.run (Task.onEvent L) fuel d).turn (Task.onEvent L) = none) :
    SameLoop handles (Chain.Loop.run (Task.onEvent L) fuel d)
      (s.exit (Task.onEventResult L)) := by
  induction fuel generalizing d s with
  | zero =>
      rw [CommandChain.ChainState.exit_of_none (h.turn_none hexit)]
      exact h
  | succ fuel ih =>
      cases hd : d.turn (Task.onEvent L) with
      | none =>
          have hrun : Chain.Loop.run (Task.onEvent L) (fuel + 1) d = d := by
            simp [Chain.Loop.run, hd]
          rw [hrun, CommandChain.ChainState.exit_of_none (h.turn_none hd)]
          exact h
      | some d' =>
          obtain ⟨s', hs, h'⟩ := h.turn_some hd
          have hrun : Chain.Loop.run (Task.onEvent L) (fuel + 1) d =
              Chain.Loop.run (Task.onEvent L) fuel d' := by
            simp [Chain.Loop.run, hd]
          rw [hrun] at hexit ⊢
          rw [CommandChain.ChainState.exit_of_some hs]
          exact ih h' hexit

end SameLoop

/-- The node's `handle_swarm_event` is the one for any commands, up to the conversion. -/
theorem Node.handleSwarmEvent_eq (n : Node L) (order : List PeerId)
    (event : SwarmEvent Req Resp) :
    let s := (CommandChain.ChainState.start n.handles n.loop.activeCommands event).exit
      (Task.onEventResult L)
    let loop := { n.loop with activeCommands := s.activeCommands }
    n.handleSwarmEvent order event =
      match s.remaining with
      | none => { n with loop := loop, handles := s.swarm, phase := .top }
      | some event =>
          { n with
            loop := (loop.convertToNodeEvent n.now order event).1
            handles := s.swarm
            phase := match (loop.convertToNodeEvent n.now order event).2 with
              | some nodeEvent => .sending nodeEvent
              | none => .top } := by
  have hstart : SameLoop n.handles (.start n.loop.activeCommands event)
      (.start n.handles n.loop.activeCommands event) := ⟨rfl, rfl, rfl, rfl⟩
  have h := hstart.exit
    (Chain.dispatch_exits (Task.onEvent L) n.loop.activeCommands event)
  dsimp only
  rw [h.swarm, h.activeCommands, h.remaining]
  rfl

end SwarmP2p
