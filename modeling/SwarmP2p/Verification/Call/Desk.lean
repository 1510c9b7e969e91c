import SwarmP2p.Model.Node
import SwarmP2p.Verification.Command.Contract
import SwarmP2p.Verification.EventLoop.Frame

/-! # The desk

The part of the node that a call sees: the callers, their handles, and the tasks on
their way through the queue and the chain. A step of the node is a step at the desk,
and every fact about calls is proved from the latter. -/

namespace SwarmP2p

variable {Req Resp : Type} {L : Libp2p Req Resp}

/-- Besides the calls, the ids that libp2p handed out and the responses that it was
handed. -/
@[ext] structure Desk (Req Resp : Type) where
  calls : HandleId → Option (ClientCall Req Resp)
  handles : HandleId → ResultState (Output Resp)
  queue : List (Task Req Resp)
  running : Option (Task Req Resp)
  active : List (Task Req Resp)
  ids : List EventId
  responses : List (ResponseChannel × Resp)

/-- The command that the loop is running. -/
def LoopPhase.task? : LoopPhase Req Resp → Option (Task Req Resp)
  | .running task => some task
  | _ => none

def Node.desk (n : Node L) : Desk Req Resp where
  calls := n.calls
  handles := n.handles
  queue := n.loop.commandRx.queue
  running := n.phase.task?
  active := n.loop.activeCommands
  ids := n.loop.swarm.ids
  responses := n.loop.swarm.responses

/-- After a change of one call, a call is that one or an old one. -/
theorem call_of_update {calls calls' : HandleId → Option (ClientCall Req Resp)}
    {id id' : HandleId} {c c' : ClientCall Req Resp}
    (hcalls : calls' = Function.update calls id (some c)) (h : calls' id' = some c') :
    (id' = id ∧ c' = c) ∨ (id' ≠ id ∧ calls id' = some c') := by
  rw [hcalls] at h
  by_cases hid : id' = id
  · subst hid
    rw [Function.update_self] at h
    exact .inl ⟨rfl, (Option.some.inj h).symm⟩
  · rw [Function.update_of_ne hid] at h
    exact .inr ⟨hid, h⟩

theorem Call.opened_ne_refused (call : Call Req Resp) (taken : Option ResponseChannel)
    (command : Command Req Resp) : (call.opened taken).phase ≠ .refused command := by
  rcases call.opened_phase taken with ⟨_, _, hp⟩ | ⟨_, hp⟩ <;> simp [hp]

theorem Call.opened_not_waiting (call : Call Req Resp) (taken : Option ResponseChannel) :
    ¬(call.opened taken).phase.Waiting := by
  rcases call.opened_phase taken with ⟨_, _, hp⟩ | ⟨_, hp⟩ <;> rw [hp] <;> exact not_false

namespace Desk

/-- The tasks that the loop has not run to the end of `run`. -/
def unrun (d : Desk Req Resp) : List (Task Req Resp) := d.running.toList ++ d.queue

/-- The tasks that still have a place. -/
def tasks (d : Desk Req Resp) : List (Task Req Resp) := d.unrun ++ d.active

def setPhase (d : Desk Req Resp) (id : HandleId) (c : ClientCall Req Resp)
    (phase : CallPhase Req Resp) : Desk Req Resp :=
  { d with calls := Function.update d.calls id (some { c with phase := phase }) }

end Desk

/-- The steps of the node that the desk does not notice. -/
def Label.Idle : Label Req Resp → Prop
  | .openCall _ _ | .firstPoll _ _ | .handlePoll _ | .pollAgain _ _ | .dropCall _ | .sweep
  | .recvCommand | .handleCommand | .swarmEvent _ | .shutdown => False
  | _ => True

/-- What a command becomes when it is run: the handler that goes into the chain. -/
def Task.afterRun (task : Task Req Resp) (swarm : Swarm L) : Task Req Resp :=
  ⟨(task.command.run swarm).handler.takeRelayReservationRequest.1, task.handle⟩

/-- The calls of `handle.finish` that running a task makes. -/
def Task.runOutput (task : Task Req Resp) (swarm : Swarm L) :
    List (HandleId × Result (Output Resp)) :=
  ((task.command.run swarm).finished.map (fun x => (task.handle, x))).toList

inductive DeskStep (L : Libp2p Req Resp) :
    Desk Req Resp → Label Req Resp → Desk Req Resp → Prop where
  | idle {d l} (hl : l.Idle) : DeskStep L d l d
  | openCall {d id} (call taken) (h : d.calls id = none) :
      DeskStep L d (.openCall id call)
        { d with
          calls := Function.update d.calls id (some (call.opened taken))
          handles := Function.update d.handles id {} }
  | accept {d id c command} (waker) (h : d.calls id = some c)
      (hp : c.phase = .created command) :
      DeskStep L d (.firstPoll id waker)
        { d.setPhase id c (.polling waker) with queue := d.queue ++ [⟨command, id⟩] }
  | refuse {d id c command} (waker) (h : d.calls id = some c)
      (hp : c.phase = .created command) :
      DeskStep L d (.firstPoll id waker) (d.setPhase id c (.refused command))
  | ready {d id c waker result} (h : d.calls id = some c) (hp : c.phase = .polling waker)
      (hr : (d.handles id).result = some result) :
      DeskStep L d (.handlePoll id)
        { d.setPhase id c (.ready result) with
          handles := Function.update d.handles id { d.handles id with result := none } }
  | pending {d id c waker} (h : d.calls id = some c) (hp : c.phase = .polling waker)
      (hr : (d.handles id).result = none) :
      DeskStep L d (.handlePoll id)
        { d.setPhase id c .pending with
          handles := Function.update d.handles id { d.handles id with waker := some waker } }
  | pollAgain {d id c} (waker) (h : d.calls id = some c) (hp : c.phase = .pending) :
      DeskStep L d (.pollAgain id waker) (d.setPhase id c (.polling waker))
  | dropCall {d id c} (h : d.calls id = some c) :
      DeskStep L d (.dropCall id)
        { d.setPhase id c .dropped with
          handles := Function.update d.handles id (d.handles id).cancel }
  | sweep {d} (hrun : d.running = none) :
      DeskStep L d .sweep
        { d with active := d.active.filter (fun t => !(d.handles t.handle).cancelled) }
  | recvCommand {d task rest} (hrun : d.running = none) (hq : d.queue = task :: rest) :
      DeskStep L d .recvCommand { d with queue := rest, running := some task }
  | handleCommand {d task} (swarm : Swarm L) (hrun : d.running = some task)
      (hids : d.ids = swarm.ids) (hresp : d.responses = swarm.responses) :
      DeskStep L d .handleCommand
        { d with
          running := none
          active := d.active ++ [task.afterRun swarm]
          handles := finishAll d.handles (task.runOutput swarm)
          ids := (task.command.run swarm).swarm.ids
          responses := (task.command.run swarm).swarm.responses }
  | dispatch {d event visited skipped out} (hrun : d.running = none)
      (h : Chain.Dispatched (Task.onEvent L) d.active event visited skipped out) :
      DeskStep L d (.swarmEvent event)
        { d with active := out.commands, handles := finishAll d.handles out.output }
  | shutdown {d} (hrun : d.running = none) (hq : d.queue = [])
      (hs : ∀ id c, d.calls id = some c → ¬c.phase.HoldsSender) :
      DeskStep L d .shutdown { d with active := [] }

/-! ### One call -/

/-- What a step may do to a call that has been opened. -/
inductive CallPhase.Moves : CallPhase Req Resp → CallPhase Req Resp → Prop where
  | same (p) : Moves p p
  | accept (command waker) : Moves (.created command) (.polling waker)
  | refuse (command) : Moves (.created command) (.refused command)
  | ready (waker result) : Moves (.polling waker) (.ready result)
  | pending (waker) : Moves (.polling waker) .pending
  | pollAgain (waker) : Moves .pending (.polling waker)
  | dropCall (p) : Moves p .dropped

/-- A call stays, with its arguments; only its phase moves. -/
theorem DeskStep.call {d d' : Desk Req Resp} {l : Label Req Resp} (h : DeskStep L d l d')
    {id : HandleId} {c : ClientCall Req Resp} (hc : d.calls id = some c) :
    ∃ phase, d'.calls id = some { c with phase := phase } ∧ c.phase.Moves phase := by
  have hupdate : ∀ {id' c'} (phase : CallPhase Req Resp), d.calls id' = some c' →
      c'.phase.Moves phase → ∃ phase', Function.update d.calls id'
        (some { c' with phase := phase }) id = some { c with phase := phase' } ∧
          c.phase.Moves phase' := by
    intro id' c' phase h' hm
    by_cases hid : id = id'
    · subst hid
      rw [hc] at h'
      obtain rfl := Option.some.inj h'
      exact ⟨phase, Function.update_self .., hm⟩
    · exact ⟨c.phase, by rw [Function.update_of_ne hid, hc], .same _⟩
  cases h with
  | @openCall id' call taken h =>
      refine ⟨c.phase, (Function.update_of_ne ?_ _ _).trans hc, .same _⟩
      rintro rfl
      rw [h] at hc
      cases hc
  | accept waker h hp => exact hupdate _ h (hp ▸ .accept _ _)
  | refuse waker h hp => exact hupdate _ h (hp ▸ .refuse _)
  | ready h hp hr => exact hupdate _ h (hp ▸ .ready _ _)
  | pending h hp hr => exact hupdate _ h (hp ▸ .pending _)
  | pollAgain waker h hp => exact hupdate _ h (hp ▸ .pollAgain _)
  | dropCall h => exact hupdate _ h (.dropCall _)
  | _ => exact ⟨c.phase, hc, .same _⟩

/-! ### Steps of the node -/

theorem Node.firstPoll_desk (n : Node L) {id : HandleId} {c : ClientCall Req Resp}
    {command : Command Req Resp} (waker : Waker) (h : n.calls id = some c)
    (hp : c.phase = .created command) :
    DeskStep L n.desk (.firstPoll id waker) (n.firstPoll id c command waker).desk := by
  by_cases ha : n.loop.commandRx.Accepts
  · rw [n.firstPoll_of_accepts id c command waker ha]
    exact .accept waker h hp
  · rw [n.firstPoll_of_not_accepts id c command waker ha]
    exact .refuse waker h hp

theorem Node.handlePoll_desk (n : Node L) {id : HandleId} {c : ClientCall Req Resp}
    {waker : Waker} (h : n.calls id = some c) (hp : c.phase = .polling waker) :
    DeskStep L n.desk (.handlePoll id) (n.handlePoll id c waker).desk := by
  cases hr : (n.handles id).result with
  | some result =>
      rw [Node.handlePoll, ResultState.poll_of_some hr]
      exact .ready h hp hr
  | none =>
      rw [Node.handlePoll, ResultState.poll_of_none hr]
      exact .pending h hp hr

/-- Once a command has run, the loop requests reservations and appends the command. -/
theorem Node.handleCommand_loop (n : Node L) (task : Task Req Resp) :
    ∃ loop, EventLoop.Uses (fun call => ∃ addr accepted, call = .listenOn addr accepted)
        { n.loop with swarm := (task.command.run n.loop.swarm).swarm } loop ∧
      (n.handleCommand task).loop =
        { loop with
          activeCommands := n.loop.activeCommands ++ [task.afterRun n.loop.swarm] } := by
  have huses := EventLoop.scheduleRelayReservations_uses
    (P := fun call => ∃ addr accepted, call = .listenOn addr accepted)
    { n.loop with swarm := (task.command.run n.loop.swarm).swarm }
    (task.command.run n.loop.swarm).handler.takeRelayReservationRequest.2
    fun addr accepted => ⟨addr, accepted, rfl⟩
  have hactive : n.loop.activeCommands = _ := huses.activeCommands.symm
  refine ⟨_, huses, ?_⟩
  rw [hactive]
  rfl

theorem Node.handleCommand_active (n : Node L) (task : Task Req Resp) :
    (n.handleCommand task).loop.activeCommands =
      n.loop.activeCommands ++ [task.afterRun n.loop.swarm] := by
  obtain ⟨loop, _, heq⟩ := n.handleCommand_loop task
  rw [heq]

theorem Node.handleCommand_swarm (n : Node L) (task : Task Req Resp) :
    Swarm.Kept (task.command.run n.loop.swarm).swarm (n.handleCommand task).loop.swarm := by
  obtain ⟨loop, huses, heq⟩ := n.handleCommand_loop task
  rw [heq]
  refine .of_uses (huses.swarm.mono fun call hcall => ?_)
  obtain ⟨_, _, rfl⟩ := hcall
  exact ⟨rfl, rfl⟩

/-- The queues and the pending map stay as they are. -/
theorem Node.handleCommand_kept (n : Node L) (task : Task Req Resp) :
    (n.handleCommand task).loop.commandRx = n.loop.commandRx ∧
      (n.handleCommand task).loop.eventTx = n.loop.eventTx ∧
      (n.handleCommand task).loop.pendingChannels = n.loop.pendingChannels ∧
      (n.handleCommand task).loop.pendingIdCounter = n.loop.pendingIdCounter := by
  obtain ⟨loop, huses, heq⟩ := n.handleCommand_loop task
  rw [heq]
  refine ⟨huses.commandRx, huses.eventTx ?_, huses.pendingChannels, huses.pendingIdCounter⟩
  rintro addr ⟨_, _, he⟩
  cases he

theorem Node.handleCommand_desk (n : Node L) {task : Task Req Resp}
    (hp : n.phase = .running task) :
    DeskStep L n.desk .handleCommand (n.handleCommand task).desk := by
  have hrun : n.desk.running = some task := by simp [Node.desk, hp, LoopPhase.task?]
  have hstep := DeskStep.handleCommand (L := L) n.loop.swarm hrun rfl rfl
  convert hstep using 1
  apply Desk.ext
  · rfl
  · rfl
  · exact congrArg Channel.queue (n.handleCommand_kept task).1
  · rfl
  · exact n.handleCommand_active task
  · exact (n.handleCommand_swarm task).ids_eq
  · exact (n.handleCommand_swarm task).responses_eq

/-- The task as the chain leaves it is the task that was offered the event. -/
theorem Task.onEvent_remaining (task : Task Req Resp) (event e : SwarmEvent Req Resp)
    (h : (task.onEvent L event).remaining = some e) : e = event :=
  Command.onEvent_remaining h

/-- An event without an id is consumed by no command. -/
theorem dispatch_remaining (active : List (Task Req Resp)) {event : SwarmEvent Req Resp}
    (h : event.id? = none) :
    (Chain.dispatch (Task.onEvent L) active event).remaining = some event := by
  obtain ⟨visited, skipped, hd⟩ :=
    Chain.dispatch_spec (Task.onEvent L) Task.onEvent_remaining active event
  rcases hd.ending with ⟨_, hr, _⟩ | ⟨_, t, _, hnone⟩
  · exact hr
  · obtain ⟨id, _, hid⟩ := Command.owns_of_consumed hnone
    rw [h] at hid
    cases hid

/-- A command consumes the event, or the loop translates the event itself. -/
theorem Node.handleSwarmEvent_cases (n : Node L) (order : List PeerId)
    (event : SwarmEvent Req Resp) :
    let d := Chain.dispatch (Task.onEvent L) n.loop.activeCommands event
    let loop := { n.loop with activeCommands := d.commands }
    let handles := finishAll n.handles d.output
    (d.remaining = none ∧ n.handleSwarmEvent order event =
        { n with loop := loop, handles := handles, phase := .top }) ∨
      (d.remaining = some event ∧ n.handleSwarmEvent order event =
        { n with
          loop := (loop.convertToNodeEvent n.now order event).1
          handles := handles
          phase := match (loop.convertToNodeEvent n.now order event).2 with
            | some nodeEvent => .sending nodeEvent
            | none => .top }) := by
  intro d loop handles
  obtain ⟨visited, skipped, hd⟩ :=
    Chain.dispatch_spec (Task.onEvent L) Task.onEvent_remaining n.loop.activeCommands event
  rcases hd.ending with ⟨_, hrem, _⟩ | ⟨hrem, _⟩
  · refine .inr ⟨hrem, ?_⟩
    simp only [Node.handleSwarmEvent, hrem]
    rfl
  · refine .inl ⟨hrem, ?_⟩
    simp only [Node.handleSwarmEvent, hrem]
    rfl

theorem Node.handleSwarmEvent_desk (n : Node L) (order : List PeerId)
    (event : SwarmEvent Req Resp) (hp : n.phase.task? = none) :
    DeskStep L n.desk (.swarmEvent event) (n.handleSwarmEvent order event).desk := by
  obtain ⟨visited, skipped, hd⟩ :=
    Chain.dispatch_spec (Task.onEvent L) Task.onEvent_remaining n.loop.activeCommands event
  have hstep := DeskStep.dispatch (d := n.desk) hp hd
  have hrun : n.desk.running = none := hp
  convert hstep using 1
  simp only [Node.handleSwarmEvent]
  generalize Chain.dispatch (Task.onEvent L) n.loop.activeCommands event = out
  split
  · exact Desk.ext rfl rfl rfl hrun.symm rfl rfl rfl
  · rename_i e _
    obtain ⟨hactive, hrx, hswarm⟩ := EventLoop.convertToNodeEvent_commands
      { n.loop with activeCommands := out.commands } n.now order e
    refine Desk.ext rfl rfl (congrArg Channel.queue hrx) ?_ hactive hswarm.ids_eq
      hswarm.responses_eq
    refine Eq.trans ?_ hrun.symm
    simp only [Node.desk]
    split <;> rfl

theorem Node.pollSend_desk (n : Node L) {event : NodeEvent Req} (hp : n.phase.task? = none) :
    (n.pollSend event).desk = n.desk := by
  have hrun : none = n.desk.running := hp.symm
  unfold Node.pollSend
  split
  · exact Desk.ext rfl rfl rfl hrun rfl rfl rfl
  · exact Desk.ext rfl rfl rfl hrun rfl rfl rfl
  · exact Desk.ext rfl rfl rfl hrun rfl rfl rfl

/-- Every step of the node is a step at its desk. -/
theorem Step.desk {n m : Node L} {l : Label Req Resp} (h : Step n l m) :
    DeskStep L n.desk l m.desk := by
  cases h with
  | openCall call hc h => exact .openCall call _ h
  | firstPoll waker h hp => exact n.firstPoll_desk waker h hp
  | handlePoll h hp => exact n.handlePoll_desk h hp
  | pollAgain waker h hp => exact .pollAgain waker h hp
  | dropCall h hp => exact .dropCall h
  | sweep hp =>
      have hrun : n.desk.running = none := by simp [Node.desk, hp, LoopPhase.task?]
      convert DeskStep.sweep (L := L) hrun using 1
      exact Desk.ext rfl rfl rfl hrun.symm rfl rfl rfl
  | recvCommand hp h =>
      have hrun : n.desk.running = none := by simp [Node.desk, hp, LoopPhase.task?]
      exact .recvCommand hrun (Channel.tryRecv_eq_some h).1
  | handleCommand hp => exact n.handleCommand_desk hp
  | @swarmEvent event state order hp h ho =>
      exact (n.withSwarmState state).handleSwarmEvent_desk order event
        (by simp [Node.withSwarmState, hp, LoopPhase.task?])
  | shutdown hp hq hs =>
      have hrun : n.desk.running = none := by simp [Node.desk, hp, LoopPhase.task?]
      convert DeskStep.shutdown (L := L) hrun hq hs.2 using 1
      exact Desk.ext rfl rfl hq.symm hrun.symm rfl rfl rfl
  | inboundChannel protocol peer stream hp =>
      have hrun : none = n.desk.running := by simp [Node.desk, hp, LoopPhase.task?]
      convert DeskStep.idle (L := L) (d := n.desk)
        (l := .inboundChannel protocol peer stream) trivial using 1
      exact Desk.ext rfl rfl rfl hrun rfl rfl rfl
  | beginSend hp =>
      rw [n.pollSend_desk (by simp [hp, LoopPhase.task?])]
      exact .idle trivial
  | resumeSend hp h =>
      rw [n.pollSend_desk (by simp [hp, LoopPhase.task?])]
      exact .idle trivial
  | _ => exact .idle trivial

end SwarmP2p
