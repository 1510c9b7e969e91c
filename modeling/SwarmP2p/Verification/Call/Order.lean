import SwarmP2p.Library.History
import SwarmP2p.Verification.Call.OneShot
import SwarmP2p.Verification.Call.Origin

/-! # The order of commands

The loop runs the commands in the order in which their first polls put them into the
channel, each of them once, and it does not end before the last one. -/

namespace SwarmP2p

variable {Req Resp : Type} {L : Libp2p Req Resp}

/-- The command that a first poll puts into the channel. -/
def Desk.accepted? (d d' : Desk Req Resp) : Label Req Resp → Option (Task Req Resp)
  | .firstPoll id _ =>
      match d.calls id, d'.calls id with
      | some ⟨_, _, .created command⟩, some ⟨_, _, .polling _⟩ => some ⟨command, id⟩
      | _, _ => none
  | _ => none

/-- The command that a step runs. -/
def Desk.executed? (d : Desk Req Resp) : Label Req Resp → Option (Task Req Resp)
  | .handleCommand => d.running
  | _ => none

/-- The commands that the channel takes in a run, oldest first. -/
def accepted (π : List (Transition.Trans (Node L) (Label Req Resp))) : List (Task Req Resp) :=
  π.flatMap fun x => (x.pre.desk.accepted? x.post.desk x.label).toList

/-- The commands that the loop runs in a run, oldest first. -/
def executed (π : List (Transition.Trans (Node L) (Label Req Resp))) : List (Task Req Resp) :=
  π.flatMap fun x => (x.pre.desk.executed? x.label).toList

/-- The command channel with the command that the loop has taken from it. -/
def commandFifo : Transition.Fifo (Node L) (Label Req Resp) (Task Req Resp) where
  isOpen _ := True
  queue n := n.desk.unrun
  enters x := (x.pre.desk.accepted? x.post.desk x.label).toList
  leaves x := (x.pre.desk.executed? x.label).toList

/-! ### Steps -/

/-- What a first poll may do, and that no other step accepts a command. -/
theorem DeskStep.accepted?_cases {d d' : Desk Req Resp} {l : Label Req Resp}
    (h : DeskStep L d l d') : d.accepted? d' l = none ∨
      ∃ id c command waker, d.calls id = some c ∧ c.phase = .created command ∧
        d' = { d.setPhase id c (.polling waker) with queue := d.queue ++ [⟨command, id⟩] } ∧
        d.accepted? d' l = some ⟨command, id⟩ ∧ d.executed? l = none := by
  cases h with
  | idle hl => cases l <;> first | exact .inl rfl | exact hl.elim
  | @accept id c command waker h hp =>
      refine .inr ⟨id, c, command, waker, h, hp, rfl, ?_, rfl⟩
      obtain ⟨call, taken, phase⟩ := c
      obtain rfl : phase = .created command := hp
      simp [Desk.accepted?, Desk.setPhase, h]
  | @refuse id c command waker h hp =>
      apply Or.inl
      simp only [Desk.accepted?, Desk.setPhase, Function.update_self]
      split
      · rename_i hpost
        cases Option.some.inj hpost
      · rfl
  | _ => exact .inl rfl

theorem DeskStep.fifo {d d' : Desk Req Resp} {l : Label Req Resp} (h : DeskStep L d l d') :
    d.unrun ++ (d.accepted? d' l).toList = (d.executed? l).toList ++ d'.unrun := by
  rcases h.accepted?_cases with hnone | ⟨id, c, command, waker, _, _, rfl, hsome, hexec⟩
  · rw [hnone, Option.toList_none, List.append_nil]
    cases h with
    | idle hl => cases l <;> first | rfl | exact hl.elim
    | @accept id c command waker h hp =>
        obtain ⟨call, taken, phase⟩ := c
        obtain rfl : phase = .created command := hp
        simp [Desk.accepted?, Desk.setPhase, h] at hnone
    | recvCommand hrun hq => simp [Desk.executed?, Desk.unrun, hrun, hq]
    | handleCommand swarm hrun hids hresp => simp [Desk.executed?, Desk.unrun, hrun]
    | _ => rfl
  · rw [hsome, hexec]
    exact List.append_assoc _ _ _

/-- Each command that was accepted is that of a sent call, and no call sends two. -/
structure Accepted (log : List (Task Req Resp)) (d : Desk Req Resp) : Prop where
  call : ∀ t ∈ log, ∃ c, d.calls t.handle = some c ∧ c.phase.Sent ∧
    c.call.command c.taken = some t.command
  nodup : (log.map Task.handle).Nodup

theorem Accepted.keep {log : List (Task Req Resp)} {d d' : Desk Req Resp}
    {l : Label Req Resp} (ha : Accepted log d) (h : DeskStep L d l d') : Accepted log d' := by
  refine ⟨?_, ha.nodup⟩
  intro t ht
  obtain ⟨c, hc, hs, hcommand⟩ := ha.call t ht
  obtain ⟨phase, hc', hmoves⟩ := h.call hc
  exact ⟨_, hc', hmoves.sent hs, hcommand⟩

theorem Accepted.step {log : List (Task Req Resp)} {d d' : Desk Req Resp}
    {l : Label Req Resp} (ho : d.Origins) (ha : Accepted log d) (h : DeskStep L d l d') :
    Accepted (log ++ (d.accepted? d' l).toList) d' := by
  have hkept := ha.keep h
  rcases h.accepted?_cases with hnone | ⟨id, c, command, waker, hc, hp, hd, hsome, _⟩
  · rw [hnone, Option.toList_none, List.append_nil]
    exact hkept
  · rw [hsome, Option.toList_some]
    refine ⟨?_, ?_⟩
    · intro t ht
      rcases List.mem_append.mp ht with ht | ht
      · exact hkept.call t ht
      · obtain rfl := List.mem_singleton.mp ht
        rw [hd]
        exact ⟨_, Function.update_self .., trivial, ho.unsent id c command hc (.inl hp)⟩
    · rw [List.map_append, List.nodup_append]
      refine ⟨ha.nodup, by simp, ?_⟩
      intro i hi j hj hij
      obtain ⟨t, ht, rfl⟩ := List.mem_map.mp hi
      obtain rfl : j = id := by simpa using hj
      -- The call of an earlier command is past its first poll.
      obtain ⟨c', hc', hs, _⟩ := ha.call t ht
      rw [hij, hc] at hc'
      rw [← Option.some.inj hc', hp] at hs
      exact hs

/-! ### The end of the loop -/

theorem Step.drained {n m : Node L} {l : Label Req Resp} (hw : Wired n)
    (hn : n.phase = .terminated → n.loop.commandRx.queue = []) (h : Step n l m) :
    m.phase = .terminated → m.loop.commandRx.queue = [] := by
  intro ht
  cases h with
  | @firstPoll id c command waker h hp =>
      rw [Node.firstPoll_phase] at ht
      exact absurd ht (Node.NoSenders.not_terminated hw h (by simp [hp, CallPhase.HoldsSender]))
  | sweep hp => cases ht
  | recvCommand hp h => cases ht
  | handleCommand hp => cases ht
  | swarmEvent hp h ho => exact absurd ht (Node.handleSwarmEvent_phase_ne _ _ _)
  | inboundChannel protocol peer stream hp => cases ht
  | beginSend hp => exact absurd ht (n.pollSend_loop _).2.1
  | resumeSend hp h => exact absurd ht (n.pollSend_loop _).2.1
  | shutdown hp hq hs => rfl
  | _ => exact hn ht

theorem Reachable.drained {config : NodeConfig} {n : Node L} (h : Reachable L config n)
    (ht : n.phase = .terminated) : n.desk.unrun = [] := by
  have hqueue : n.phase = .terminated → n.loop.commandRx.queue = [] := by
    refine (Transition.Reachable.invariant (I := fun n : Node L => Wired n ∧
      (n.phase = .terminated → n.loop.commandRx.queue = [])) h ?_ ?_).2
    · intro a hs
      exact ⟨hs.fresh.wired, fun ht => by rw [hs.fresh.phase_eq] at ht; cases ht⟩
    · intro a l b ha hs
      exact ⟨ha.1.step hs, hs.drained ha.1 ha.2⟩
  simp [Desk.unrun, Node.desk, ht, LoopPhase.task?, hqueue ht]

/-! ### Runs -/

theorem Run.accepted {config : NodeConfig} {n m : Node L}
    {π : List (Transition.Trans (Node L) (Label Req Resp))} (hs : Started L config n)
    (h : Run L n π m) : Accepted (accepted π) m.desk := by
  induction h with
  | nil => exact ⟨fun t ht => (by cases ht), List.nodup_nil⟩
  | @snoc π a l b hp hstep ih =>
      have ha : Reachable L config a := ⟨n, π, hs, hp⟩
      rw [SwarmP2p.accepted, List.flatMap_append, List.flatMap_singleton]
      exact ih.step ha.origins hstep.desk

theorem Run.accepted_eq {config : NodeConfig} {n m : Node L}
    {π : List (Transition.Trans (Node L) (Label Req Resp))} (hs : Started L config n)
    (h : Run L n π m) : SwarmP2p.accepted π = executed π ++ m.desk.unrun := by
  have hempty : n.desk.unrun = [] := by
    rw [hs.fresh.desk_eq]
    rfl
  exact (h.delivery (I := fun _ => True) commandFifo (fun _ _ _ _ _ => trivial)
    (fun _ _ _ _ hs => ⟨fun _ => ⟨trivial, hs.desk.fifo⟩, fun hno => absurd trivial hno⟩)
    trivial hempty).1 trivial

/-- The commands that calls have sent are run one by one in the order of the first polls:
those that have run and those still waiting are the accepted ones, each call has one, and
once the loop has ended none is left. -/
theorem commands_in_order {config : NodeConfig} {n m : Node L}
    {π : List (Transition.Trans (Node L) (Label Req Resp))} (hs : Started L config n)
    (h : Run L n π m) :
    accepted π = executed π ++ m.desk.unrun ∧ ((accepted π).map Task.handle).Nodup ∧
      (∀ t ∈ accepted π, ∃ c, m.calls t.handle = some c ∧
        c.call.command c.taken = some t.command) ∧
      (m.phase = .terminated → executed π = accepted π) := by
  have hfifo := Run.accepted_eq hs h
  have hlog := h.accepted hs
  refine ⟨hfifo, hlog.nodup, ?_, ?_⟩
  · intro t ht
    obtain ⟨c, hc, _, hcommand⟩ := hlog.call t ht
    exact ⟨c, hc, hcommand⟩
  · intro ht
    have hreach : Reachable L config m := ⟨n, π, hs, h⟩
    rw [hfifo, hreach.drained ht, List.append_nil]

namespace Loopback

def addrsTask : Task String String := ⟨.getListenAddrs {}, 1⟩

def bothOpened : Node loopback := dialOpened.openCall 1 .getAddrs

def addrsQueued : Node loopback :=
  bothOpened.firstPoll 1 ⟨.getAddrs, none, .created addrsTask.command⟩ addrsTask.command 0

def bothQueued : Node loopback :=
  addrsQueued.firstPoll 0 ⟨.dial peer, none, .created (.dial ⟨peer⟩)⟩ (.dial ⟨peer⟩) 0

def addrsReceived : Node loopback :=
  { bothQueued.sweep with
    loop := { bothQueued.sweep.loop with
      commandRx := (Channel.new _).push ⟨.dial ⟨peer⟩, 0⟩ (by decide) }
    phase := .running addrsTask }

def addrsRun : Node loopback := addrsReceived.handleCommand addrsTask

/-- The call that was opened last is polled first, and its command is run. -/
def bothSteps : List (Transition.Trans (Node loopback) (Label String String)) :=
  [⟨bootstrapping, .openCall 0 (.dial peer), dialOpened⟩,
    ⟨dialOpened, .openCall 1 .getAddrs, bothOpened⟩,
    ⟨bothOpened, .firstPoll 1 0, addrsQueued⟩,
    ⟨addrsQueued, .firstPoll 0 0, bothQueued⟩,
    ⟨bothQueued, .sweep, bothQueued.sweep⟩,
    ⟨bothQueued.sweep, .recvCommand, addrsReceived⟩,
    ⟨addrsReceived, .handleCommand, addrsRun⟩]

theorem bothSteps_run : Run loopback bootstrapping bothSteps addrsRun :=
  ((((((Transition.Path.single (Step.openCall (.dial peer) (by decide) rfl)).snoc
    (.openCall .getAddrs (by decide) rfl)).snoc (.firstPoll 0 rfl rfl)).snoc
    (.firstPoll 0 rfl rfl)).snoc (.sweep rfl)).snoc (.recvCommand rfl rfl)).snoc
    (.handleCommand rfl)

end Loopback

open Loopback in
/-- One of the two accepted commands has run, and the other still waits. -/
theorem commands_in_order_both :
    (executed bothSteps).map Task.handle = [1] ∧
      addrsRun.desk.unrun = [⟨.dial ⟨peer⟩, 0⟩] ∧
      accepted bothSteps = executed bothSteps ++ addrsRun.desk.unrun :=
  ⟨rfl, rfl, (commands_in_order (started _) bothSteps_run).1⟩

end SwarmP2p
