import SwarmP2p.Verification.Call.Answer
import SwarmP2p.Verification.Call.Phases

/-! # Calls that are answered at once

Seven methods are answered by `run` itself. Such a call takes effect at one moment between
its first poll and its last, when the loop runs its command; it is answered then, once, and
with what holds of the swarm at that moment. -/

namespace SwarmP2p

variable {Req Resp : Type} {L : Libp2p Req Resp}

namespace Desk

/-- A prompt command has answered. -/
structure Answered (d : Desk Req Resp) (id : HandleId) (r : Result (Output Resp)) : Prop where
  call : d.calls id ≠ none
  outcomes : (d.handles id).outcomes = [r]
  kind : ∀ t ∈ d.active, t.handle = id → t.command.kind = .prompt

theorem Answered.step {d d' : Desk Req Resp} {l : Label Req Resp} {id : HandleId}
    {r : Result (Output Resp)} (hi : d.Inv) (ha : d.Answered id r) (h : DeskStep L d l d') :
    d'.Answered id r := by
  obtain ⟨c, hc⟩ := Option.ne_none_iff_exists'.mp ha.call
  obtain ⟨c', hc', _⟩ := SameCalls.of_step h id c hc
  have hcall : d'.calls id ≠ none := by simp [hc']
  have hrun : ∀ u, d.running = some u → u.handle ≠ id := by
    rintro u hu rfl
    have hempty := (hi.unrun u (mem_unrun.mpr (.inl hu))).2.1
    rw [ha.outcomes] at hempty
    cases hempty
  by_cases hevent : ∃ event, l = .swarmEvent event
  · obtain ⟨event, rfl⟩ := hevent
    have hoff := h.offered hi.active_nodup
    refine ⟨hcall, ?_, ?_⟩
    · rcases hoff.handle_cases id with hh | ⟨t, ht, hid, hh⟩
      · rw [hh, ha.outcomes]
      · rw [hh, Command.prompt_spec L (ha.kind t ht hid) event]
        exact ha.outcomes
    · intro u hu hid
      obtain ⟨t, ht, hhandle, rfl | rfl⟩ := hoff.origin hu
      · exact ha.kind _ ht hid
      · exact (Command.onEvent_kind t.command event).trans (ha.kind t ht (hhandle.trans hid))
  · have hquiet : ∀ event, l ≠ .swarmEvent event := fun event he => hevent ⟨event, he⟩
    refine ⟨hcall, (outcomes_eq hi.active_nodup h ha.call hquiet hrun).trans ha.outcomes, ?_⟩
    intro u hu hid
    rcases enters h hquiet hu with hu | ⟨t, ht, hhandle⟩
    · exact ha.kind u hu hid
    · exact absurd (hhandle.trans hid) (hrun t ht)

end Desk

theorem Node.answered_start {n : Node L} (hi : n.desk.Inv) {task : Task Req Resp}
    (hp : n.phase = .running task) (hk : task.command.kind = .prompt) :
    ∃ r, (task.command.run n.loop.swarm).finished = some r ∧
      (n.handleCommand task).desk.Answered task.handle r := by
  have hmem : task ∈ n.desk.unrun := n.running_unrun hp
  obtain ⟨hid, hempty, _⟩ := hi.unrun task hmem
  have hspec := Command.run_spec hid n.loop.swarm
  obtain ⟨r, hr⟩ := Option.ne_none_iff_exists'.mp (hspec.prompt hk)
  obtain ⟨c, hc, _⟩ := hi.sent task (Desk.mem_tasks.mpr (.inl hmem))
  have hhandle : (n.handleCommand task).desk.handles task.handle =
      (n.handles task.handle).settle (task.command.run n.loop.swarm).finished :=
    (n.handleCommand_settle task task.handle).trans (if_pos rfl)
  have hempty' : (n.handles task.handle).outcomes = [] := hempty
  refine ⟨r, hr, ?_, ?_, ?_⟩
  · rw [show (n.handleCommand task).desk.calls task.handle = some c from hc]
    simp
  · rw [hhandle, hr, ResultState.settle_some, ResultState.finish_outcomes, hempty']
    rfl
  · intro t ht hid
    rw [show (n.handleCommand task).desk.active = _ from n.handleCommand_active task] at ht
    rcases List.mem_append.mp ht with ht | ht
    · exact absurd hid (hi.active_ne_unrun ht hmem)
    · obtain rfl := List.mem_singleton.mp ht
      exact (Command.takeRelayReservationRequest_kind _).trans (hspec.kind_eq.trans hk)

theorem Run.answered {config : NodeConfig} {n m : Node L}
    {ρ : List (Transition.Trans (Node L) (Label Req Resp))} (hr : Reachable L config n)
    (h : Run L n ρ m) {id : HandleId} {r : Result (Output Resp)} (ha : n.desk.Answered id r) :
    m.desk.Answered id r := by
  induction h with
  | nil => exact ha
  | @snoc ρ a l b hp hs ih =>
      have hreach : Reachable L config a := hr.path hp
      exact ih.step hreach.inv hs.desk

/-! ### Between the first poll and the last -/

theorem Run.dropped_stays {n m : Node L} {π : List (Transition.Trans (Node L) (Label Req Resp))}
    (h : Run L n π m) {id : HandleId}
    (hd : ∃ c, n.calls id = some c ∧ c.phase = .dropped) :
    ∃ c, m.calls id = some c ∧ c.phase = .dropped :=
  h.invariant (I := fun n : Node L => ∃ c, n.calls id = some c ∧ c.phase = .dropped) hd
    fun _ _ _ ⟨_, hc, hp⟩ hs => Desk.dropped_stays hs.desk hc hp

theorem Run.first_poll {n m : Node L} {π : List (Transition.Trans (Node L) (Label Req Resp))}
    (h : Run L n π m) {id : HandleId} (hn : n.calls id = none) {c : ClientCall Req Resp}
    (hc : m.calls id = some c) (hp : c.phase.Polled) :
    ∃ x ∈ π, ∃ waker, x.label = .firstPoll id waker := by
  obtain ⟨x, hx, hs, hbefore, c', hc', hp'⟩ := h.happens
    (P := fun n : Node L => ∃ c, n.calls id = some c ∧ c.phase.Polled) (by simp [hn])
    ⟨c, hc, hp⟩
  exact ⟨x, hx, hs.desk.first_poll (fun c hc hp => hbefore ⟨c, hc, hp⟩) hc' hp'⟩

theorem Run.last_poll {n m : Node L} {π : List (Transition.Trans (Node L) (Label Req Resp))}
    (h : Run L n π m) {id : HandleId} (hn : ∀ c r, n.calls id = some c → c.phase ≠ .ready r)
    {c : ClientCall Req Resp} {r : Result (Output Resp)} (hc : m.calls id = some c)
    (hp : c.phase = .ready r) : ∃ x ∈ π, x.label = .handlePoll id := by
  obtain ⟨x, hx, hs, hbefore, c', hc', r', hp'⟩ := h.happens
    (P := fun n : Node L => ∃ c, n.calls id = some c ∧ ∃ r, c.phase = .ready r)
    (fun ⟨c, hc, r, hp⟩ => hn c r hc hp) ⟨c, hc, r, hp⟩
  exact ⟨x, hx, hs.desk.last_poll (fun c r hc hp => hbefore ⟨c, hc, r, hp⟩) hc' hp'⟩

theorem Run.prompt_atomic {config : NodeConfig} {n m : Node L}
    {π : List (Transition.Trans (Node L) (Label Req Resp))} (h : Run L n π m)
    (hs : Started L config n) {id : HandleId} {c : ClientCall Req Resp}
    {command : Command Req Resp} {r : Result (Output Resp)} (hc : m.calls id = some c)
    (hcommand : c.call.command c.taken = some command) (hk : command.kind = .prompt)
    (hp : c.phase = .ready r) :
    ∃ χ a ρ, Executes n m π ⟨command, id⟩ χ a ρ ∧
      (command.run a.loop.swarm).finished = some r ∧
      (∃ x ∈ χ, ∃ waker, x.label = .firstPoll id waker) ∧ ∃ x ∈ ρ, x.label = .handlePoll id := by
  obtain ⟨χ, a, ρ, he⟩ := h.executes hs hc hcommand hp
  have hreach : Reachable L config m := ⟨n, π, hs, h⟩
  have ha : Reachable L config a := ⟨n, χ, hs, he.before⟩
  have hunrun : (⟨command, id⟩ : Task Req Resp) ∈ a.desk.unrun := a.running_unrun he.phase
  obtain ⟨_, hempty, _⟩ := ha.inv.unrun _ hunrun
  obtain ⟨c', hc', hsent⟩ := ha.inv.sent _ (Desk.mem_tasks.mpr (.inl hunrun))
  refine ⟨χ, a, ρ, he, ?_, ?_, ?_⟩
  · obtain ⟨r', hr', hanswered⟩ := Node.answered_start ha.inv he.phase hk
    have hend := Run.answered (ha.next (.handleCommand he.phase)) he.after hanswered
    have hmem := (hreach.received id).2 c r hc hp
    rw [hend.outcomes] at hmem
    rw [hr', List.mem_singleton.mp hmem]
  · have hn : n.desk.calls id = none := by rw [hs.fresh.desk_eq]
    apply he.before.first_poll hn hc'
    cases hphase : c'.phase with
    | dropped =>
        -- A call that is dropped gets no answer any more.
        obtain ⟨c'', hc'', hdropped⟩ := Run.dropped_stays
          ((Transition.Path.single (.handleCommand he.phase)).append he.after) ⟨c', hc', hphase⟩
        rw [hc] at hc''
        obtain rfl := Option.some.inj hc''
        rw [hp] at hdropped
        cases hdropped
    | _ =>
        rw [hphase] at hsent
        exact hsent
  · refine he.after.last_poll (fun c'' r' hc'' hready => ?_) hc hp
    have hmem := (ha.received id).2 c'' r' hc'' hready
    rw [hempty] at hmem
    cases hmem

/-- A call that is answered at once takes effect at one step of the run, after its first poll
and before its last, and returns what its command answers at that step; and a command that
was run has answered this and nothing else, whether its caller still waits or not. -/
theorem prompt_calls_atomic {config : NodeConfig} {n m : Node L}
    {π : List (Transition.Trans (Node L) (Label Req Resp))} (hs : Started L config n)
    (h : Run L n π m) :
    (∀ id c command r, m.calls id = some c → c.call.command c.taken = some command →
        command.kind = .prompt → c.phase = .ready r →
          ∃ χ a ρ, Executes n m π ⟨command, id⟩ χ a ρ ∧
            (command.run a.loop.swarm).finished = some r ∧
            (∃ x ∈ χ, ∃ waker, x.label = .firstPoll id waker) ∧
            ∃ x ∈ ρ, x.label = .handlePoll id) ∧
      ∀ task χ a ρ, Executes n m π task χ a ρ → task.command.kind = .prompt →
        ∃ r, (task.command.run a.loop.swarm).finished = some r ∧
          (m.handles task.handle).outcomes = [r] := by
  refine ⟨fun id c command r hc hcommand hk hp => h.prompt_atomic hs hc hcommand hk hp, ?_⟩
  intro task χ a ρ he hk
  have ha : Reachable L config a := ⟨n, χ, hs, he.before⟩
  obtain ⟨r, hr, hanswered⟩ := Node.answered_start ha.inv he.phase hk
  have hend := Run.answered (ha.next (.handleCommand he.phase)) he.after hanswered
  exact ⟨r, hr, hend.outcomes⟩

/-! ### A call -/

namespace Loopback

def stopTask : Task String String := ⟨.stopProvide ⟨key⟩, 0⟩

def stopQueued : Node loopback :=
  ((node []).openCall 0 (.stopProvide key)).firstPoll 0
    ⟨.stopProvide key, none, .created (.stopProvide ⟨key⟩)⟩ (.stopProvide ⟨key⟩) 0

def stopReceived : Node loopback :=
  { stopQueued.sweep with
    loop := { stopQueued.sweep.loop with commandRx := .new _ }
    phase := .running stopTask }

def stopReady : Node loopback :=
  (stopReceived.handleCommand stopTask).handlePoll 0 ⟨.stopProvide key, none, .polling 0⟩ 0

theorem stop_run : ∃ π, Run loopback (node []) π stopReady := by
  have hopen : Step (node []) (.openCall 0 (.stopProvide key)) _ :=
    .openCall (.stopProvide key) (by decide) rfl
  have hpoll : Step _ (.firstPoll 0 0) stopQueued := .firstPoll 0 rfl rfl
  have hrecv : Step stopQueued.sweep .recvCommand stopReceived := .recvCommand rfl rfl
  exact ⟨_, (((((Transition.Path.single hopen).snoc hpoll).snoc (.sweep rfl)).snoc hrecv).snoc
    (.handleCommand rfl)).snoc (.handlePoll rfl rfl)⟩

end Loopback

open Loopback in
theorem prompt_calls_atomic_stop :
    ∃ π χ a ρ, Executes (node []) stopReady π stopTask χ a ρ ∧
      ∃ x ∈ χ, ∃ waker, x.label = .firstPoll 0 waker := by
  obtain ⟨π, hrun⟩ := stop_run
  have hcall : stopReady.calls 0 = some ⟨.stopProvide key, none, .ready (.ok .unit)⟩ := rfl
  obtain ⟨χ, a, ρ, he, _, hfirst, _⟩ :=
    (prompt_calls_atomic (started []) hrun).1 0 _ _ _ hcall rfl rfl rfl
  exact ⟨π, χ, a, ρ, he, hfirst⟩

end SwarmP2p
