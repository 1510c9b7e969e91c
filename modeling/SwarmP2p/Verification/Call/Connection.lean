import SwarmP2p.Verification.Call.Answer

/-! # Calls that wait for a connection

A dial or disconnect command stays in the chain until an event about its peer comes. No
command consumes such an event, so every call that waits for it is answered in the turn
in which it comes, whatever order the chain has by then. -/

namespace SwarmP2p

variable {Req Resp : Type} {L : Libp2p Req Resp}

/-- What the command answers to an event. -/
def Command.verdict? (L : Libp2p Req Resp) (c : Command Req Resp) (event : SwarmEvent Req Resp) :
    Option (Result (Output Resp)) :=
  (c.onEvent L event).finished

theorem Command.ownId?_connection {c : Command Req Resp} (hk : c.kind = .connection) :
    c.ownId? = none := by
  cases c <;> first | rfl | cases hk

namespace Desk

/-- A call whose command has run and has answered `ran` there, with the events that came
since: it still waits, or the first event that the command answers has come. -/
inductive Watching (L : Libp2p Req Resp) (d : Desk Req Resp) (task : Task Req Resp)
    (ran : List (Result (Output Resp))) (events : List (SwarmEvent Req Resp)) : Prop where
  | waiting (ht : task ∈ d.active) (hout : (d.handles task.handle).outcomes = ran)
      (hnone : events.findSome? (task.command.verdict? L) = none)
  | answered (r : Result (Output Resp)) (hcall : d.calls task.handle ≠ none)
      (hgone : ∀ t ∈ d.active, t.handle ≠ task.handle)
      (hout : (d.handles task.handle).outcomes = ran ++ [r])
      (hfirst : events.findSome? (task.command.verdict? L) = some r)
  | dropped (c : ClientCall Req Resp) (hc : d.calls task.handle = some c)
      (hp : c.phase = .dropped)

namespace Watching

variable {d d' : Desk Req Resp} {task : Task Req Resp} {ran : List (Result (Output Resp))}
  {events : List (SwarmEvent Req Resp)}

theorem quiet {l : Label Req Resp} (hi : d.Inv) (hw : Watching L d task ran events)
    (h : DeskStep L d l d') (hevent : ∀ event, l ≠ .swarmEvent event) :
    Watching L d' task ran events := by
  cases hw with
  | waiting ht hout hnone =>
      obtain ⟨c, hc, _⟩ := hi.sent task (mem_tasks.mpr (.inr ht))
      have hrun : ∀ u, d.running = some u → u.handle ≠ task.handle := fun u hu =>
        (hi.active_ne_unrun ht (mem_unrun.mpr (.inl hu))).symm
      have hout' := outcomes_eq hi.active_nodup h (by simp [hc]) hevent hrun
      rcases hi.stays h hevent ht with ht' | ⟨c', hc', hp'⟩
      · exact .waiting ht' (hout'.trans hout) hnone
      · exact .dropped c' hc' hp'
  | answered r hcall hgone hout hfirst =>
      have hrun : ∀ u, d.running = some u → u.handle ≠ task.handle := by
        intro u hu hid
        have hempty := (hi.unrun u (mem_unrun.mpr (.inl hu))).2.1
        rw [hid, hout] at hempty
        simp at hempty
      obtain ⟨c, hc⟩ := Option.ne_none_iff_exists'.mp hcall
      obtain ⟨c', hc', _⟩ := SameCalls.of_step h task.handle c hc
      have hout' := outcomes_eq hi.active_nodup h hcall hevent hrun
      refine .answered r (by simp [hc']) ?_ (hout'.trans hout) hfirst
      intro u hu
      rcases enters h hevent hu with hu | ⟨t, ht, hhandle⟩
      · exact hgone u hu
      · exact hhandle ▸ hrun t ht
  | dropped c hc hp =>
      obtain ⟨c', hc', hp'⟩ := dropped_stays h hc hp
      exact .dropped c' hc' hp'

/-- The command is offered every event that it answers. -/
theorem event {event : SwarmEvent Req Resp} (hi : d.Inv) (hk : task.command.kind = .connection)
    (hw : Watching L d task ran events) (h : DeskStep L d (.swarmEvent event) d') :
    Watching L d' task ran (events ++ [event]) := by
  have hoff := h.offered hi.active_nodup
  have hspec := Command.connection_spec L hk event
  cases hw with
  | waiting ht hout hnone =>
      obtain ⟨c, hc, _⟩ := hi.sent task (mem_tasks.mpr (.inr ht))
      have hfirst : (events ++ [event]).findSome? (task.command.verdict? L) =
          task.command.verdict? L event := by
        simp [List.findSome?_append, hnone]
      rcases hoff.fate task ht with ⟨hhandle, hactive⟩ | ⟨hhandle, hactive, u, hu, hne, hown⟩
      · have hsame : task.afterEvent L event = task := by
          rw [Task.afterEvent, hspec.handler_eq]
        cases hf : task.command.verdict? L event with
        | none =>
            refine .waiting ((hactive task).mpr ⟨hspec.keep_iff.mpr hf, hsame.symm⟩).1 ?_
              (hfirst.trans hf)
            rw [hhandle, show (task.command.onEvent L event).finished = none from hf]
            exact hout
        | some r =>
            refine .answered r (by rw [h.calls_eq, hc]; simp) ?_ ?_ (hfirst.trans hf)
            · intro t ht' hid
              have hkeep := hspec.keep_iff.mp ((hactive t).mp ⟨ht', hid⟩).1
              rw [show (task.command.onEvent L event).finished = some r from hf] at hkeep
              cases hkeep
            · rw [hhandle, show (task.command.onEvent L event).finished = some r from hf,
                ResultState.settle_some, ResultState.finish_outcomes, hout]
      · -- Who consumes the event has an id, and then the command does not answer it.
        obtain ⟨i, _, hevent⟩ := hown
        have hf : task.command.verdict? L event = none :=
          (Command.onEvent_of_foreign hevent (by simp [Command.ownId?_connection hk])).1
        exact .waiting ((hactive task).mpr rfl).1 (hhandle ▸ hout) (hfirst.trans hf)
  | answered r hcall hgone hout hfirst =>
      refine .answered r (by rwa [h.calls_eq]) ?_ ?_ ?_
      · intro u hu
        obtain ⟨t, ht, hhandle, _⟩ := hoff.origin hu
        exact hhandle ▸ hgone t ht
      · rw [hoff.outside task.handle hgone, hout]
      · simp [List.findSome?_append, hfirst]
  | dropped c hc hp => exact .dropped c (by rw [h.calls_eq, hc]) hp

theorem step {l : Label Req Resp} (hi : d.Inv) (hk : task.command.kind = .connection)
    (hw : Watching L d task ran events) (h : DeskStep L d l d') :
    Watching L d' task ran (events ++ l.swarmEvent?.toList) := by
  cases l with
  | swarmEvent event => exact hw.event hi hk h
  | _ =>
      simp only [Label.swarmEvent?, Option.toList_none, List.append_nil]
      exact hw.quiet hi h (by simp)

/-- The call has been answered with what `run` answered and with the first answer since. -/
theorem outcomes_eq (hw : Watching L d task ran events) {c : ClientCall Req Resp}
    (hc : d.calls task.handle = some c) (hd : c.phase ≠ .dropped) :
    (d.handles task.handle).outcomes =
      ran ++ (events.findSome? (task.command.verdict? L)).toList := by
  cases hw with
  | waiting ht hout hnone => simp [hout, hnone]
  | answered r hcall hgone hout hfirst => simp [hout, hfirst]
  | dropped c' hc' hp =>
      rw [hc] at hc'
      obtain rfl := Option.some.inj hc'
      exact absurd hp hd

end Watching

end Desk

/-! ### Runs -/

theorem Node.watching_start {n : Node L} (hi : n.desk.Inv) {task : Task Req Resp}
    (hp : n.phase = .running task) (hk : task.command.kind = .connection) :
    Desk.Watching L (n.handleCommand task).desk task
      (task.command.run n.loop.swarm).finished.toList [] := by
  obtain ⟨hid, hempty, _⟩ := hi.unrun task (n.running_unrun hp)
  have hspec := Command.run_spec hid n.loop.swarm
  have hsame : task.afterRun n.loop.swarm = task := by
    rw [Task.afterRun, hspec.connection hk,
      Command.takeRelayReservationRequest_of_kind_ne (by simp [hk])]
  have hhandle : (n.handleCommand task).desk.handles task.handle =
      (n.handles task.handle).settle (task.command.run n.loop.swarm).finished :=
    (n.handleCommand_settle task task.handle).trans (if_pos rfl)
  have hempty' : (n.handles task.handle).outcomes = [] := hempty
  refine .waiting ?_ ?_ rfl
  · rw [show (n.handleCommand task).desk.active = _ from n.handleCommand_active task, hsame]
    exact List.mem_append_right _ (List.mem_singleton_self _)
  · rw [hhandle, ResultState.settle_outcomes, hempty', List.nil_append]

theorem Run.watching {config : NodeConfig} {n m : Node L} {task : Task Req Resp}
    {ran : List (Result (Output Resp))}
    {ρ : List (Transition.Trans (Node L) (Label Req Resp))} (hr : Reachable L config n)
    (h : Run L n ρ m) (hk : task.command.kind = .connection)
    (hw : Desk.Watching L n.desk task ran []) :
    Desk.Watching L m.desk task ran (swarmEvents ρ) := by
  induction h with
  | nil => exact hw
  | @snoc ρ a l b hp hs ih =>
      have ha : Reachable L config a := hr.path hp
      rw [swarmEvents_snoc]
      exact ih.step ha.inv hk hs.desk

/-- A call that waits for a connection is answered by its command at once, or by the first
event since that says something about it, in the turn of that event. -/
theorem connections_answered {config : NodeConfig} {n m : Node L} {task : Task Req Resp}
    {ρ : List (Transition.Trans (Node L) (Label Req Resp))} {c : ClientCall Req Resp}
    (hr : Reachable L config n) (hp : n.phase = .running task)
    (hk : task.command.kind = .connection) (h : Run L (n.handleCommand task) ρ m)
    (hc : m.calls task.handle = some c) (hd : c.phase ≠ .dropped) :
    (m.handles task.handle).outcomes = (task.command.run n.loop.swarm).finished.toList ++
      ((swarmEvents ρ).findSome? (task.command.verdict? L)).toList :=
  (Run.watching (hr.next (.handleCommand hp)) h hk
    (Node.watching_start hr.inv hp hk)).outcomes_eq hc hd

open Loopback in
/-- The dial is refused at once, and the connection that is made then answers it again. -/
theorem connections_answered_overtaken :
    (dialOvertaken.handles 0).outcomes =
      [.error (.dial "dial condition not met"), .ok .unit] := by
  have hrun : Run loopback dialRefused
      [⟨dialRefused, .sweep, dialRefused.sweep⟩,
        ⟨dialRefused.sweep, .swarmEvent (.connectionEstablished peer 1), dialOvertaken⟩]
      dialOvertaken :=
    (Transition.Path.single (.sweep rfl)).snoc
      (.swarmEvent rfl (.inr ⟨by decide, rfl⟩) ⟨List.nodup_nil, fun _ => .rfl⟩)
  have hp : dialReceived.phase = .running ⟨.dial ⟨peer⟩, 0⟩ := rfl
  exact connections_answered (c := ⟨.dial peer, none, .pending⟩) dialReceived_reachable hp rfl
    hrun rfl (by simp)

end SwarmP2p
