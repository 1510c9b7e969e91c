import SwarmP2p.Verification.Call.OneShot

/-! # The first poll

A refused `try_send` is reported as a closed channel, whatever the reason. The only
reason that occurs in a run is a full queue: a call that can be polled holds a sender,
and the loop does not end before the last sender is gone. -/

namespace SwarmP2p

variable {Req Resp : Type} {L : Libp2p Req Resp}

/-! ### No command answers with the error of a closed channel -/

theorem Command.run_ne_closed (c : Command Req Resp) (swarm : Swarm L) :
    (c.run swarm).finished ≠ some (.error commandChannelClosed) := by
  unfold commandChannelClosed
  cases c with
  | dial c =>
      simp only [run, DialCommand.run]
      split
      · simp [Ran.map, Except.map]
      · split <;> simp [Ran.map, Except.map]
  | disconnect c =>
      simp only [run, DisconnectCommand.run]
      split <;> simp [Ran.map, Except.map]
  | addInfrastructurePeer c =>
      simp only [run, AddInfrastructurePeerCommand.run]
      split
      · split <;> simp [Ran.map, Except.map]
      · split <;> simp [Ran.map, Except.map]
  | sendRequest c =>
      simp only [run, SendRequestCommand.run]
      split <;> simp [Ran.map, Except.map]
  | sendResponse c =>
      simp only [run, SendResponseCommand.run]
      split
      · split <;> simp [Ran.map, Except.map]
      · simp [Ran.map, Except.map]
  | bootstrap c =>
      simp only [run, BootstrapCommand.run]
      split <;> simp [Ran.map, Except.map]
  | putRecord c =>
      simp only [run, PutRecordCommand.run]
      split <;> simp [Ran.map, Except.map]
  | startProvide c =>
      simp only [run, StartProvideCommand.run]
      split <;> simp [Ran.map, Except.map]
  | _ => intro h; cases h

theorem Command.onEvent_ne_closed (c : Command Req Resp) (event : SwarmEvent Req Resp) :
    (c.onEvent L event).finished ≠ some (.error commandChannelClosed) := by
  unfold commandChannelClosed
  cases c with
  | dial c =>
      simp only [onEvent, DialCommand.onEvent]
      split
      · split <;> simp [OnEvent.map, Except.map, passEvent]
      · split <;> simp [OnEvent.map, Except.map, passEvent]
      · simp [OnEvent.map, passEvent]
  | disconnect c =>
      simp only [onEvent, DisconnectCommand.onEvent]
      split
      · split <;> simp [OnEvent.map, Except.map, passEvent]
      · simp [OnEvent.map, passEvent]
  | sendRequest c =>
      simp only [onEvent, SendRequestCommand.onEvent]
      split
      · split <;> simp [OnEvent.map, Except.map, passEvent]
      · split <;> simp [OnEvent.map, Except.map, passEvent, mapOutboundFailure]
      · simp [OnEvent.map, passEvent]
  | bootstrap c =>
      simp only [onEvent, BootstrapCommand.onEvent]
      split
      · split
        · split
          · simp [OnEvent.map, Except.map]
          · split <;> simp [OnEvent.map, Except.map]
        · simp [OnEvent.map, passEvent]
      · simp [OnEvent.map, passEvent]
  | getRecord c =>
      simp only [onEvent, GetRecordCommand.onEvent, GetRecordCommand.conclude]
      split
      · split
        · split
          · split
            · split <;> simp [OnEvent.map, Except.map]
            · simp [OnEvent.map]
          · split
            · simp [OnEvent.map, Except.map]
            · split
              · split <;> simp [OnEvent.map, Except.map]
              · simp [OnEvent.map]
        · simp [OnEvent.map, passEvent]
      · simp [OnEvent.map, passEvent]
  | putRecord c =>
      simp only [onEvent, PutRecordCommand.onEvent, publishAnswer]
      split
      · split
        · split
          · split <;> simp [OnEvent.map, Except.map]
          · simp [OnEvent.map]
        · simp [OnEvent.map, passEvent]
      · simp [OnEvent.map, passEvent]
  | getProviders c =>
      simp only [onEvent, GetProvidersCommand.onEvent, GetProvidersCommand.conclude]
      split
      · split
        · split
          · split <;> simp [OnEvent.map, Except.map]
          · split <;> simp [OnEvent.map, Except.map]
          · simp [OnEvent.map, Except.map]
        · simp [OnEvent.map, passEvent]
      · simp [OnEvent.map, passEvent]
  | getClosestPeers c =>
      simp only [onEvent, GetClosestPeersCommand.onEvent]
      split
      · split
        · split
          · simp [OnEvent.map, Except.map]
          · split <;> simp [OnEvent.map, Except.map]
        · simp [OnEvent.map, passEvent]
      · simp [OnEvent.map, passEvent]
  | startProvide c =>
      simp only [onEvent, StartProvideCommand.onEvent, publishAnswer]
      split
      · split
        · split
          · split <;> simp [OnEvent.map, Except.map]
          · simp [OnEvent.map]
        · simp [OnEvent.map, passEvent]
      · simp [OnEvent.map, passEvent]
  | _ => intro h; cases h

namespace Desk

/-- No stored result is the error of a closed channel. -/
def Honest (d : Desk Req Resp) : Prop :=
  ∀ id, (d.handles id).result ≠ some (.error commandChannelClosed)

theorem settle_ne_closed {s : ResultState (Output Resp)} {r : Option (Result (Output Resp))}
    (hs : s.result ≠ some (.error commandChannelClosed))
    (hr : r ≠ some (.error commandChannelClosed)) :
    (s.settle r).result ≠ some (.error commandChannelClosed) := by
  cases r with
  | none => exact hs
  | some r => exact hr

theorem Honest.step {d d' : Desk Req Resp} {l : Label Req Resp} (hi : d.Inv) (ho : d.Honest)
    (h : DeskStep L d l d') : d'.Honest := by
  intro id
  have hstep := h.handle hi.active_nodup id
  generalize d'.handles id = s at hstep ⊢
  cases hstep with
  | same => exact ho id
  | opened call hl h => simp
  | ready hl => simp
  | pending waker hl => exact ho id
  | dropCall hl => exact ho id
  | ran task swarm hrun hid => exact settle_ne_closed (ho id) (Command.run_ne_closed _ _)
  | answered t event hl ht hid => exact settle_ne_closed (ho id) (Command.onEvent_ne_closed _ _)

/-- The call has failed with the error of a closed channel. -/
def FailedClosed (d : Desk Req Resp) (id : HandleId) : Prop :=
  ∃ c, d.calls id = some c ∧ c.phase.answer = some (.error commandChannelClosed)

theorem failedClosed_of_update {d : Desk Req Resp} {id id' : HandleId}
    {c : ClientCall Req Resp} (hc : c.phase.answer ≠ some (.error commandChannelClosed))
    {calls : HandleId → Option (ClientCall Req Resp)}
    (hcalls : calls = Function.update d.calls id (some c))
    (h : ∃ c, calls id' = some c ∧ c.phase.answer = some (.error commandChannelClosed)) :
    d.FailedClosed id' := by
  obtain ⟨c', hc', ha⟩ := h
  rcases call_of_update hcalls hc' with ⟨rfl, rfl⟩ | ⟨_, hc'⟩
  · exact absurd ha hc
  · exact ⟨c', hc', ha⟩

theorem opened_ne_closed (call : Call Req Resp) (taken : Option ResponseChannel) :
    (call.opened taken).phase.answer ≠ some (.error commandChannelClosed) := by
  rcases call.opened_phase taken with ⟨_, _, hp⟩ | ⟨_, hp⟩
  · simp [hp, CallPhase.answer]
  · rw [hp]
    unfold Call.noPendingChannel commandChannelClosed
    split <;> simp [CallPhase.answer]

/-- Only a first poll fails in this way. -/
theorem Honest.failedClosed {d d' : Desk Req Resp} {l : Label Req Resp} (ho : d.Honest)
    (h : DeskStep L d l d') (hl : ∀ id waker, l ≠ .firstPoll id waker) {id : HandleId}
    (hf : d'.FailedClosed id) : d.FailedClosed id := by
  cases h with
  | openCall call taken h => exact failedClosed_of_update (opened_ne_closed call taken) rfl hf
  | accept waker h hp => exact absurd rfl (hl _ _)
  | refuse waker h hp => exact absurd rfl (hl _ _)
  | @ready id' c waker result h hp hr =>
      refine failedClosed_of_update ?_ rfl hf
      intro ha
      exact ho id' (hr.trans ha)
  | pending h hp hr => exact failedClosed_of_update (by simp [CallPhase.answer]) rfl hf
  | pollAgain waker h hp => exact failedClosed_of_update (by simp [CallPhase.answer]) rfl hf
  | dropCall h => exact failedClosed_of_update (by simp [CallPhase.answer]) rfl hf
  | _ => exact hf

end Desk

/-! ### The first poll of a call -/

/-- A step does not fail a call with the error of a closed channel while the loop lives,
and a first poll gets its command into the queue while the loop lives. -/
def Enqueues (n : Node L) (l : Label Req Resp) (m : Node L) : Prop :=
  (∀ id, m.desk.FailedClosed id → ¬n.desk.FailedClosed id → n.phase = .terminated) ∧
    ∀ id waker c command, l = .firstPoll id waker → n.calls id = some c →
      c.phase = .created command → n.phase ≠ .terminated →
      m.loop.commandRx.queue = n.loop.commandRx.queue ++ [⟨command, id⟩]

/-- The queue of commands has a free place at a first poll, or the loop has ended. -/
def Node.RoomToPoll (n : Node L) : Label Req Resp → Prop
  | .firstPoll _ _ =>
      n.phase = .terminated ∨ n.loop.commandRx.queue.length < commandChannelSize
  | _ => True

theorem enqueues_firstPoll_iff {n : Node L} {id : HandleId} {c : ClientCall Req Resp}
    {command : Command Req Resp} (waker : Waker) (hw : Wired n) (h : n.calls id = some c)
    (hp : c.phase = .created command) :
    Enqueues n (.firstPoll id waker) (n.firstPoll id c command waker) ↔
      n.RoomToPoll (.firstPoll id waker) := by
  have halive : n.phase ≠ .terminated :=
    Node.NoSenders.not_terminated hw h (by simp [hp, CallPhase.HoldsSender])
  have hrx : n.loop.commandRx.rxAlive = true := hw.rxAlive_iff.mpr halive
  by_cases ha : n.loop.commandRx.Accepts
  · rw [n.firstPoll_of_accepts id c command waker ha]
    refine ⟨fun _ => .inr ha.2, fun _ => ⟨?_, ?_⟩⟩
    · intro id' hf hn
      have hpolling : ({ c with phase := .polling waker } : ClientCall Req Resp).phase.answer ≠
          some (.error commandChannelClosed) := by
        simp [CallPhase.answer]
      exact (hn (Desk.failedClosed_of_update hpolling rfl hf)).elim
    · rintro id' waker' c' command' hl hc' hp' _
      obtain ⟨rfl, rfl⟩ := Label.firstPoll.inj hl
      rw [h] at hc'
      obtain rfl := Option.some.inj hc'
      rw [hp] at hp'
      obtain rfl := CallPhase.created.inj hp'
      rfl
  · rw [n.firstPoll_of_not_accepts id c command waker ha]
    have hfull : ¬n.loop.commandRx.queue.length < commandChannelSize := fun hr => ha ⟨hrx, hr⟩
    have hroom : ¬n.RoomToPoll (.firstPoll id waker) := by
      simp [Node.RoomToPoll, halive, hfull]
    refine ⟨fun hq => absurd (hq.1 id ?_ ?_) halive, fun hr => absurd hr hroom⟩
    · exact ⟨_, Function.update_self .., rfl⟩
    · rintro ⟨c', hc', hans⟩
      have hc'' : n.calls id = some c' := hc'
      rw [h] at hc''
      obtain rfl := Option.some.inj hc''
      rw [hp] at hans
      cases hans

theorem Step.enqueues_room {n m : Node L} {l : Label Req Resp} (hw : Wired n)
    (ho : n.desk.Honest) (h : Step n l m) : Enqueues n l m ↔ n.RoomToPoll l := by
  by_cases hl : ∃ id waker, l = .firstPoll id waker
  · obtain ⟨id, waker, rfl⟩ := hl
    cases h with
    | firstPoll _ h hp => exact enqueues_firstPoll_iff waker hw h hp
  · simp only [not_exists] at hl
    refine ⟨fun _ => ?_, fun _ => ⟨?_, ?_⟩⟩
    · cases l with
      | firstPoll id waker => exact absurd rfl (hl id waker)
      | _ => trivial
    · intro id hf hn
      exact absurd (ho.failedClosed h.desk hl hf) hn
    · intro id waker _ _ hl'
      exact absurd hl' (hl id waker)

theorem Fresh.honest {config : NodeConfig} {n : Node L} (h : Fresh config n) :
    n.desk.Honest := by
  rw [h.desk_eq]
  intro id
  simp

/-- No call is told that the channel is closed while the loop lives, and every first poll gets
its command into the queue, exactly as long as the queue has a free place at a first poll. -/
theorem enqueues_iff {config : NodeConfig} {n m : Node L}
    {π : List (Transition.Trans (Node L) (Label Req Resp))} (hs : Started L config n)
    (h : Run L n π m) :
    (∀ x ∈ π, Enqueues x.pre x.label x.post) ↔ ∀ x ∈ π, x.pre.RoomToPoll x.label :=
  Transition.Path.steps_iff_meets
    (I := fun n => n.desk.Inv ∧ Wired n ∧ n.desk.Honest) (Q := Enqueues)
    (C := fun n l => n.RoomToPoll l)
    (fun _ _ _ hi hs => ⟨hi.1.step hs.desk, hi.2.1.step hs, hi.2.2.step hi.1 hs.desk⟩)
    (fun _ _ _ hi hs => hs.enqueues_room hi.2.1 hi.2.2) h
    ⟨hs.fresh.inv, hs.fresh.wired, hs.fresh.honest⟩

theorem Node.failedClosed_of_refused {n : Node L} {id : HandleId} {c : ClientCall Req Resp}
    {command : Command Req Resp} (h : n.calls id = some c) (hp : c.phase = .refused command) :
    n.desk.FailedClosed id :=
  ⟨c, h, by simp [hp, CallPhase.answer]⟩

open Loopback in
/-- The first poll of the dial finds room in the queue. -/
theorem enqueues_iff_dialed :
    dialQueued.loop.commandRx.queue = [⟨.dial ⟨peer⟩, 0⟩] ∧
      ∀ x ∈ dialSteps, Enqueues x.pre x.label x.post := by
  refine ⟨rfl, (enqueues_iff (started _) dialSteps_run).mpr ?_⟩
  have hroom : dialOpened.loop.commandRx.queue.length < commandChannelSize := by decide
  simp [dialSteps, Node.RoomToPoll, hroom]

/-! ### A full queue -/

namespace Loopback

/-- `k` calls, each polled once, while the loop does nothing. -/
def fill (n : Node loopback) : Nat → Node loopback
  | 0 => n
  | k + 1 =>
      ((fill n k).openCall k .getAddrs).firstPoll k
        ⟨.getAddrs, none, .created (.getListenAddrs {})⟩ (.getListenAddrs {}) 0

theorem fill_spec {n : Node loopback} (hc : n.clients = 1) (hn : ∀ id, n.calls id = none)
    (k : Nat) : (fill n k).clients = 1 ∧ ∀ id, k ≤ id → (fill n k).calls id = none := by
  induction k with
  | zero => exact ⟨hc, fun id _ => hn id⟩
  | succ k ih =>
      refine ⟨?_, ?_⟩
      · rw [fill, Node.firstPoll_clients]
        exact ih.1
      · intro id hid
        have hne : id ≠ k := Nat.ne_of_gt hid
        rw [fill, Node.firstPoll_calls_of_ne _ _ _ _ hne]
        exact (Function.update_of_ne hne _ _).trans (ih.2 id (Nat.le_of_succ_le hid))

theorem fill_reachable {config : NodeConfig} {n : Node loopback}
    (h : Reachable loopback config n) (hc : n.clients = 1) (hn : ∀ id, n.calls id = none)
    (k : Nat) : Reachable loopback config (fill n k) := by
  induction k with
  | zero => exact h
  | succ k ih =>
      obtain ⟨hclients, hcalls⟩ := fill_spec hc hn k
      have hopen : Step (fill n k) (.openCall k .getAddrs) ((fill n k).openCall k .getAddrs) :=
        .openCall _ (by omega) (hcalls k (le_refl k))
      exact (ih.next hopen).next (.firstPoll 0 (Function.update_self ..) rfl)

/-- The calls fill the queue one by one and leave the rest of the node alone. -/
theorem fill_queue {n : Node loopback} (hq : n.loop.commandRx = .new _) {k : Nat}
    (hk : k ≤ commandChannelSize) :
    (fill n k).loop.commandRx.rxAlive = true ∧ (fill n k).loop.commandRx.queue.length = k ∧
      (fill n k).loop.pendingChannels = n.loop.pendingChannels ∧ (fill n k).phase = n.phase := by
  induction k with
  | zero => simp [fill, hq]
  | succ k ih =>
      obtain ⟨halive, hlen, hpending, hphase⟩ := ih (Nat.le_of_succ_le hk)
      have ha : ((fill n k).openCall k .getAddrs).loop.commandRx.Accepts := by
        refine ⟨halive, ?_⟩
        show (fill n k).loop.commandRx.queue.length < commandChannelSize
        omega
      rw [fill, Node.firstPoll_of_accepts _ _ _ _ _ ha]
      refine ⟨halive, ?_, hpending, hphase⟩
      show ((fill n k).loop.commandRx.queue ++ [_]).length = k + 1
      rw [List.length_append, hlen]
      rfl

theorem fill_not_accepts {n : Node loopback} (hq : n.loop.commandRx = .new _) :
    ¬(fill n commandChannelSize).loop.commandRx.Accepts := by
  intro ha
  have hlen := (fill_queue hq (le_refl commandChannelSize)).2.1
  have hroom : (fill n commandChannelSize).loop.commandRx.queue.length < commandChannelSize :=
    ha.2
  omega

/-- A call on a full queue is refused. -/
theorem fill_refused {n : Node loopback} {k : Nat} (h : ¬(fill n k).loop.commandRx.Accepts) :
    (fill n (k + 1)).phase = (fill n k).phase ∧
      (fill n (k + 1)).calls k =
        some ⟨.getAddrs, none, .refused (.getListenAddrs {})⟩ := by
  have hfull : ¬((fill n k).openCall k .getAddrs).loop.commandRx.Accepts := h
  rw [fill, Node.firstPoll_of_not_accepts _ _ _ _ _ hfull]
  exact ⟨rfl, Function.update_self ..⟩

end Loopback

/-- With all places of the queue taken, the next call is told that the channel is
closed, though the loop is alive. -/
theorem full_queue_reported_closed :
    Reachable loopback (Loopback.config [])
        (Loopback.fill (Loopback.node []) (commandChannelSize + 1)) ∧
      (Loopback.fill (Loopback.node []) (commandChannelSize + 1)).phase = .top ∧
      (Loopback.fill (Loopback.node []) (commandChannelSize + 1)).desk.FailedClosed
        commandChannelSize := by
  have hphase := (Loopback.fill_queue (n := Loopback.node []) rfl
    (le_refl commandChannelSize)).2.2.2
  obtain ⟨hsame, hcall⟩ := Loopback.fill_refused
    (Loopback.fill_not_accepts (n := Loopback.node []) rfl)
  exact ⟨Loopback.fill_reachable (Loopback.reachable []) rfl (fun _ => rfl) _,
    hsame.trans hphase, Node.failedClosed_of_refused hcall rfl⟩

end SwarmP2p
