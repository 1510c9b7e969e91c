import SwarmP2p.Verification.Call.Isolation

/-! # What a method returns

A call has an answer only after its command was run. A command with an id then answers
what it makes, by itself, of the events that came for it. -/

namespace SwarmP2p

variable {Req Resp : Type} {L : Libp2p Req Resp}

/-! ### Commands that have run -/

/-- The command of the call is in the chain, or it has answered. -/
def Desk.Begun (d : Desk Req Resp) (id : HandleId) : Prop :=
  (d.handles id).outcomes ≠ [] ∨ ∃ t ∈ d.active, t.handle = id

/-- The loop runs the command of the call. -/
def RunsCommand (id : HandleId) (x : Transition.Trans (Node L) (Label Req Resp)) : Prop :=
  x.label = .handleCommand ∧ ∃ task, x.pre.phase = .running task ∧ task.handle = id

theorem Desk.Begun.of_update {d d' : Desk Req Resp} {id id' : HandleId}
    {handle : ResultState (Output Resp)} (hb : d'.Begun id)
    (hhandles : d'.handles = Function.update d.handles id' handle)
    (hout : handle.outcomes = (d.handles id').outcomes) (hactive : d'.active = d.active) :
    d.Begun id := by
  rcases hb with hb | hb
  · rw [hhandles, Desk.outcomes_update d id id' hout] at hb
    exact .inl hb
  · rw [hactive] at hb
    exact .inr hb

/-- Only the step that runs a command begins it. -/
theorem DeskStep.begun {d d' : Desk Req Resp} {l : Label Req Resp}
    (hn : (d.active.map Task.handle).Nodup) (h : DeskStep L d l d') {id : HandleId}
    (hb : d'.Begun id) :
    d.Begun id ∨ l = .handleCommand ∧ ∃ task, d.running = some task ∧ task.handle = id := by
  cases h with
  | @openCall id' call taken h =>
      rcases hb with hb | hb
      · by_cases hid : id = id'
        · subst hid
          simp at hb
        · simp only [Function.update_of_ne hid] at hb
          exact .inl (.inl hb)
      · exact .inl (.inr hb)
  | ready h hp hr => exact .inl (hb.of_update rfl rfl rfl)
  | pending h hp hr => exact .inl (hb.of_update rfl rfl rfl)
  | dropCall h => exact .inl (hb.of_update rfl rfl rfl)
  | sweep hrun =>
      refine .inl (hb.imp_right ?_)
      rintro ⟨t, ht, hid⟩
      exact ⟨t, List.mem_of_mem_filter ht, hid⟩
  | @handleCommand task swarm hrun hids hresp =>
      by_cases hid : task.handle = id
      · exact .inr ⟨rfl, task, hrun, hid⟩
      · refine .inl (hb.imp ?_ ?_)
        · intro hout
          simp only [task.runOutput_apply swarm, Function.update_of_ne (Ne.symm hid)] at hout
          exact hout
        · rintro ⟨t, ht, hh⟩
          rcases List.mem_append.mp ht with ht | ht
          · exact ⟨t, ht, hh⟩
          · obtain rfl := List.mem_singleton.mp ht
            exact absurd hh hid
  | @dispatch event visited skipped out hrun h =>
      have hoff := offered_of_dispatched hn h
      rcases hb with hb | ⟨u, hu, rfl⟩
      · rcases hoff.handle_cases id with hh | ⟨t, ht, hid, _⟩
        · rw [hh] at hb
          exact .inl (.inl hb)
        · exact .inl (.inr ⟨t, ht, hid⟩)
      · obtain ⟨t, ht, hid, _⟩ := hoff.origin hu
        exact .inl (.inr ⟨t, ht, hid⟩)
  | shutdown hrun hq hs =>
      refine .inl (hb.imp_right ?_)
      rintro ⟨t, ht, _⟩
      cases ht
  | _ => exact .inl hb

theorem Run.runsCommand {config : NodeConfig} {n m : Node L}
    {π : List (Transition.Trans (Node L) (Label Req Resp))} (hf : Fresh config n)
    (h : Run L n π m) {id : HandleId} (hb : m.desk.Begun id) : ∃ x ∈ π, RunsCommand id x := by
  induction h with
  | nil =>
      rw [hf.desk_eq] at hb
      rcases hb with hb | ⟨t, ht, _⟩
      · exact absurd rfl hb
      · cases ht
  | @snoc π a l b hp hs ih =>
      have hi := (Run.ids_subset hp hf.inv).1
      rcases hs.desk.begun hi.active_nodup hb with hb | ⟨rfl, task, hrun, hid⟩
      · obtain ⟨x, hx, hran⟩ := ih hb
        exact ⟨x, List.mem_append_left _ hx, hran⟩
      · have hphase : a.phase = .running task := by
          simp only [Node.desk, LoopPhase.task?] at hrun
          split at hrun
          · rename_i heq
            rw [heq, Option.some.inj hrun]
          · cases hrun
        exact ⟨_, List.mem_append_right _ (List.mem_singleton_self _), rfl, task, hphase, hid⟩

/-! ### Answers -/

def Label.swarmEvent? : Label Req Resp → Option (SwarmEvent Req Resp)
  | .swarmEvent event => some event
  | _ => none

/-- The events that the swarm returns in a run, in order. -/
def swarmEvents (π : List (Transition.Trans (Node L) (Label Req Resp))) :
    List (SwarmEvent Req Resp) :=
  π.filterMap fun x => x.label.swarmEvent?

theorem swarmEvents_snoc (π : List (Transition.Trans (Node L) (Label Req Resp))) (a : Node L)
    (l : Label Req Resp) (b : Node L) :
    swarmEvents (π ++ [⟨a, l, b⟩]) = swarmEvents π ++ l.swarmEvent?.toList := by
  rw [swarmEvents, List.filterMap_append]
  cases h : l.swarmEvent? <;> simp [swarmEvents, h]

theorem ownEvents_eq_filter (id : EventId)
    (π : List (Transition.Trans (Node L) (Label Req Resp))) :
    ownEvents (some id) π =
      (swarmEvents π).filter fun event => decide (event.id? = some id) := by
  rw [ownEvents, swarmEvents, List.filter_filterMap]
  congr 1
  funext x
  cases x.label with
  | swarmEvent event =>
      by_cases h : event.id? = some id <;>
        simp [Label.ownEvent?, Label.swarmEvent?, Option.filter, h]
  | _ => rfl

theorem Run.outcomes_alone {config : NodeConfig} {n m : Node L} {task : Task Req Resp}
    {ρ : List (Transition.Trans (Node L) (Label Req Resp))} {c : ClientCall Req Resp}
    (hr : Reachable L config n) (hp : n.phase = .running task) (hk : task.command.kind = .tracked)
    (h : Run L (n.handleCommand task) ρ m) (hids : m.loop.swarm.ids.Nodup)
    (hc : m.calls task.handle = some c) (hd : c.phase ≠ .dropped) :
    (m.handles task.handle).outcomes =
      (task.command.runAlone n.loop.swarm (ownEvents (task.own n.loop.swarm) ρ)).toList := by
  have hnext : Reachable L config (n.handleCommand task) := hr.next (.handleCommand hp)
  have hsole : ∀ i, task.own n.loop.swarm = some i →
      (n.handleCommand task).desk.Sole i task.handle := fun i hown =>
    Node.sole_start hr.inv hr.known hp
      (hids.sublist (Run.ids_subset h hnext.inv).2.sublist) hown
  exact (Run.progress h hnext.inv hsole (Node.progress_start hr.inv hp hk) hids).2.outcomes_eq
    hc hd

/-- The step of a run in which the loop runs a task. -/
structure Executes (n m : Node L) (π : List (Transition.Trans (Node L) (Label Req Resp)))
    (task : Task Req Resp) (χ : List (Transition.Trans (Node L) (Label Req Resp))) (a : Node L)
    (ρ : List (Transition.Trans (Node L) (Label Req Resp))) : Prop where
  run : π = χ ++ [⟨a, .handleCommand, a.handleCommand task⟩] ++ ρ
  before : Run L n χ a
  phase : a.phase = .running task
  after : Run L (a.handleCommand task) ρ m

/-- A call with an answer had its command run. -/
theorem Run.executes {config : NodeConfig} {n m : Node L}
    {π : List (Transition.Trans (Node L) (Label Req Resp))} (hs : Started L config n)
    (h : Run L n π m) {id : HandleId} {c : ClientCall Req Resp} {command : Command Req Resp}
    {r : Result (Output Resp)} (hc : m.calls id = some c)
    (hcommand : c.call.command c.taken = some command) (hp : c.phase = .ready r) :
    ∃ χ a ρ, Executes n m π ⟨command, id⟩ χ a ρ := by
  have hreach : Reachable L config m := ⟨n, π, hs, h⟩
  have hbegun : m.desk.Begun id := .inl (List.ne_nil_of_mem ((hreach.received id).2 c r hc hp))
  obtain ⟨⟨a, l, b⟩, hx, hl, task, hphase, rfl⟩ := Run.runsCommand hs.fresh h hbegun
  obtain ⟨χ, ρ, hπ, hbefore, hstep, hafter⟩ := h.split hx
  simp only at hl hphase hbefore hstep hafter
  subst hl
  have ha : Reachable L config a := ⟨n, χ, hs, hbefore⟩
  obtain ⟨task', hphase', rfl⟩ : ∃ task', a.phase = .running task' ∧
      b = a.handleCommand task' := by
    cases hstep with
    | handleCommand hp => exact ⟨_, hp, rfl⟩
  rw [hphase] at hphase'
  obtain rfl := LoopPhase.running.inj hphase'
  -- The command is the one that the call made when it was opened.
  obtain ⟨c₀, hc₀, hmade⟩ := ha.made task (a.running_unrun hphase)
  obtain ⟨c', hc', hcall, htaken⟩ :=
    Run.sameCalls ((Transition.Path.single hstep).append hafter) task.handle c₀ hc₀
  have hsame : c' = c := Option.some.inj (hc'.symm.trans hc)
  subst hsame
  rw [hcall, htaken, hmade] at hcommand
  obtain rfl := Option.some.inj hcommand
  exact ⟨χ, a, ρ, hπ, hbefore, hphase, hafter⟩

/-- A command with an id answers what it makes of the events that came for it. -/
theorem Run.answeredAlone {config : NodeConfig} {n m : Node L}
    {π : List (Transition.Trans (Node L) (Label Req Resp))} (hs : Started L config n)
    (h : Run L n π m) (hids : m.loop.swarm.ids.Nodup) {id : HandleId}
    {c : ClientCall Req Resp} {command : Command Req Resp} {r : Result (Output Resp)}
    (hc : m.calls id = some c) (hcommand : c.call.command c.taken = some command)
    (hk : command.kind = .tracked) (hp : c.phase = .ready r) :
    ∃ χ a ρ, Executes n m π ⟨command, id⟩ χ a ρ ∧
      command.runAlone a.loop.swarm
        (ownEvents ((⟨command, id⟩ : Task Req Resp).own a.loop.swarm) ρ) = some r := by
  have hreach : Reachable L config m := ⟨n, π, hs, h⟩
  obtain ⟨χ, a, ρ, he⟩ := h.executes hs hc hcommand hp
  have ha : Reachable L config a := ⟨n, χ, hs, he.before⟩
  have hmem : r ∈ (m.handles id).outcomes := (hreach.received id).2 c r hc hp
  rw [Run.outcomes_alone ha he.phase hk he.after hids hc (by simp [hp])] at hmem
  exact ⟨χ, a, ρ, he, Option.mem_toList.mp hmem⟩

end SwarmP2p
