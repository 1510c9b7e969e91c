import SwarmP2p.Library.History
import SwarmP2p.Verification.Call.OneShot
import SwarmP2p.Verification.Call.Phases
import SwarmP2p.Verification.EventLoop.Received

/-! # Shutdown

Once the last client and the last future are dropped, nothing enters the command channel
any more, and nobody waits for an answer. Every step that the loop and the owner of the
receiver then take brings the end of the loop closer, events of the swarm put it off by a
bounded number of steps, and one of the two can always go on. -/

namespace SwarmP2p

variable {Req Resp : Type} {L : Libp2p Req Resp}

/-! ### What is left to do -/

/-- The steps of the loop and of the receiver's owner that no one else causes. -/
def Label.own : Label Req Resp → ℕ
  | .sweep | .recvCommand | .handleCommand | .beginSend | .resumeSend | .shutdown => 1
  | .recvEvent | .callDone | .nextEvent => 1
  | _ => 0

/-- The steps that what comes from outside can add. -/
def Label.load : Label Req Resp → ℕ
  | .swarmEvent _ => 7
  | .firstPoll _ _ => 3
  | .inboundChannel _ _ _ | .awaitCall _ => 1
  | _ => 0

/-- The own steps from this point to the end, with none of the queues counted. -/
def LoopPhase.work : LoopPhase Req Resp → ℕ
  | .terminated => 0
  | .selecting => 1
  | .top => 2
  | .running _ => 3
  | .suspended _ => 5
  | .sending _ => 6

def Frontend.work : Frontend → ℕ
  | .closed => 0
  | .receiving => 0
  | .handling => 1
  | .awaiting _ => 2

/-- A command in the channel is received, run and swept after; a node event is received and
handled. -/
def Node.work (n : Node L) : ℕ :=
  3 * n.loop.commandRx.queue.length + n.phase.work + 2 * n.loop.eventTx.queue.length +
    n.frontend.work

/-! ### Nobody sends -/

theorem Node.NoSenders.step {n m : Node L} {l : Label Req Resp} (hn : n.NoSenders)
    (h : Step n l m) : m.NoSenders := by
  cases h with
  | cloneClient h | dropClient h | openCall _ h =>
      exact absurd hn.1 (Nat.pos_iff_ne_zero.mp h)
  | firstPoll _ h hp | handlePoll h hp | pollAgain _ h hp =>
      exact absurd (by simp [hp, CallPhase.HoldsSender]) (hn.2 _ _ h)
  | dropCall h hp => exact Node.setPhase_noSenders hn (by simp [CallPhase.HoldsSender])
  | swarmEvent hp h ho =>
      rcases Node.handleSwarmEvent_cases _ _ _ with ⟨_, heq⟩ | ⟨_, heq⟩
      · rw [heq]
        exact hn
      · rw [heq]
        exact hn
  | @beginSend event hp =>
      obtain ⟨_, _, hcalls, hclients⟩ := n.pollSend_loop event
      exact ⟨hclients.trans hn.1, hcalls ▸ hn.2⟩
  | @resumeSend event hp h =>
      obtain ⟨_, _, hcalls, hclients⟩ := n.pollSend_loop event
      exact ⟨hclients.trans hn.1, hcalls ▸ hn.2⟩
  | _ => exact hn

/-! ### One step -/

/-- An event puts one status into the queue at most. -/
theorem EventLoop.convertToNodeEvent_length (self : EventLoop L) (now : Nat)
    (order : List PeerId) (event : SwarmEvent Req Resp) :
    (self.convertToNodeEvent now order event).1.eventTx.queue.length ≤
      self.eventTx.queue.length + 1 := by
  obtain ⟨status, ha⟩ := self.convertToNodeEvent_announces now order event
  rw [ha.queue, List.length_append]
  exact Nat.add_le_add_left ha.length_le _

theorem Node.handleSwarmEvent_length (n : Node L) (order : List PeerId)
    (event : SwarmEvent Req Resp) :
    (n.handleSwarmEvent order event).loop.eventTx.queue.length ≤
      n.loop.eventTx.queue.length + 1 := by
  rcases n.handleSwarmEvent_cases order event with ⟨_, heq⟩ | ⟨_, heq⟩
  · rw [heq]
    exact Nat.le_succ _
  · rw [heq]
    exact EventLoop.convertToNodeEvent_length _ _ _ _

theorem LoopPhase.work_le (phase : LoopPhase Req Resp) : phase.work ≤ 6 := by
  cases phase <;> simp [work]

theorem Node.handleSwarmEvent_frontend (n : Node L) (order : List PeerId)
    (event : SwarmEvent Req Resp) : (n.handleSwarmEvent order event).frontend = n.frontend := by
  rcases n.handleSwarmEvent_cases order event with ⟨_, heq⟩ | ⟨_, heq⟩ <;> rw [heq]

theorem Node.handleSwarmEvent_work (n : Node L) (order : List PeerId)
    (event : SwarmEvent Req Resp) (hp : n.phase = .selecting) :
    (n.handleSwarmEvent order event).work ≤ n.work + 7 := by
  have hlength := n.handleSwarmEvent_length order event
  have hphase := (n.handleSwarmEvent order event).phase.work_le
  have hselecting : n.phase.work = 1 := by rw [hp, LoopPhase.work]
  rw [work, work, n.handleSwarmEvent_commandRx order event, n.handleSwarmEvent_frontend]
  omega

theorem Node.pollSend_work (n : Node L) {event : NodeEvent Req}
    (hp : n.phase = .sending event ∨ n.phase = .suspended event ∧ ¬n.EventsFull) :
    (n.pollSend event).work + 1 ≤ n.work := by
  by_cases hf : n.EventsFull
  · rw [pollSend_of_full hf]
    rcases hp with hp | ⟨_, hno⟩
    · simp only [work, hp, LoopPhase.work]
      omega
    · exact absurd hf hno
  · -- The event is in the queue or lost, and the loop is back at its head.
    have hwork : 5 ≤ n.phase.work := by
      rcases hp with hp | ⟨hp, _⟩ <;> simp [hp, LoopPhase.work]
    have htop : (LoopPhase.top : LoopPhase Req Resp).work = 2 := rfl
    unfold pollSend
    split
    · rename_i eventTx heq
      obtain ⟨ha, rfl⟩ := (Channel.trySend_ok_iff _ _ _).mp heq
      simp only [work, htop, Channel.push_queue, List.length_append, List.length_singleton]
      omega
    · simp only [work, htop]
      omega
    · rename_i heq
      exact absurd ((n.trySend_full_iff event).mp heq) hf

theorem Node.firstPoll_work (n : Node L) (id : HandleId) (c : ClientCall Req Resp)
    (command : Command Req Resp) (waker : Waker) :
    (n.firstPoll id c command waker).work ≤ n.work + 3 := by
  by_cases ha : n.loop.commandRx.Accepts
  · rw [n.firstPoll_of_accepts id c command waker ha]
    simp only [work, Node.setPhase, Channel.push_queue, List.length_append, List.length_singleton]
    omega
  · rw [n.firstPoll_of_not_accepts id c command waker ha]
    exact Nat.le_add_right _ _

/-- Each own step is paid for, and only what comes from outside adds work. -/
theorem Step.pays {n m : Node L} {l : Label Req Resp} (h : Step n l m) :
    m.work + l.own ≤ n.work + l.load := by
  cases h with
  | @firstPoll id c command waker h hp => exact n.firstPoll_work id c command waker
  | awaitCall hf h hp =>
      simp only [Node.work, hf, Frontend.work, Label.own, Label.load]
      omega
  | sweep hp =>
      simp only [Node.work, Node.sweep, hp, LoopPhase.work, Label.own, Label.load]
      omega
  | recvCommand hp h =>
      obtain ⟨hq, _⟩ := Channel.tryRecv_eq_some h
      simp only [Node.work, hp, LoopPhase.work, Label.own, Label.load, hq, List.length_cons]
      omega
  | @handleCommand task hp =>
      obtain ⟨hcommands, hevents, _⟩ := n.handleCommand_kept task
      have hphase : (n.handleCommand task).phase = .top := rfl
      have hfrontend : (n.handleCommand task).frontend = n.frontend := rfl
      simp only [Node.work, hp, LoopPhase.work, Label.own, Label.load, hcommands, hevents, hphase,
        hfrontend]
      omega
  | swarmEvent hp h ho => exact (n.withSwarmState _).handleSwarmEvent_work _ _ hp
  | inboundChannel protocol peer stream hp =>
      simp only [Node.work, hp, LoopPhase.work, Label.own, Label.load]
      omega
  | beginSend hp => exact n.pollSend_work (.inl hp)
  | @resumeSend event hp h =>
      exact n.pollSend_work (.inr ⟨hp, fun hf => h ((n.trySend_full_iff event).mpr hf)⟩)
  | shutdown hp hq hs =>
      simp only [Node.work, Node.shutdown, hp, LoopPhase.work, Label.own, Label.load,
        Channel.closeRx_queue, List.length_nil]
      omega
  | recvEvent hf h =>
      obtain ⟨hq, _⟩ := Channel.tryRecv_eq_some h
      simp only [Node.work, hf, Frontend.work, Label.own, Label.load, hq, List.length_cons]
      omega
  | callDone hf h hp =>
      simp only [Node.work, hf, Frontend.work, Label.own, Label.load]
      omega
  | nextEvent hf =>
      simp only [Node.work, hf, Frontend.work, Label.own, Label.load]
      omega
  | dropReceiver hf =>
      simp only [Node.work, Frontend.work, Label.own, Label.load, Channel.closeRx_queue,
        List.length_nil]
      omega
  | _ => exact le_refl _

/-! ### Somebody can go on -/

/-- The owner of the receiver has it as long as it lives, and awaits calls that were made. -/
structure Node.Attended (n : Node L) : Prop where
  closed : n.frontend = .closed → n.loop.eventTx.rxAlive = false
  awaited : ∀ id, n.frontend = .awaiting id → n.calls id ≠ none

theorem Node.pollSend_frontend (n : Node L) (event : NodeEvent Req) :
    (n.pollSend event).frontend = n.frontend := by
  unfold pollSend
  split <;> rfl

theorem Node.firstPoll_frontend (n : Node L) (id : HandleId) (c : ClientCall Req Resp)
    (command : Command Req Resp) (waker : Waker) :
    (n.firstPoll id c command waker).frontend = n.frontend := by
  unfold firstPoll
  split <;> rfl

/-- What a step does to the owner of the receiver. -/
inductive FrontendStep (n : Node L) (l : Label Req Resp) : Frontend → Prop where
  | same : FrontendStep n l n.frontend
  | handling : FrontendStep n l .handling
  | receiving : FrontendStep n l .receiving
  | awaiting {id} (hl : l = .awaitCall id) (h : n.calls id ≠ none) :
      FrontendStep n l (.awaiting id)
  | closed (hl : l = .dropReceiver) : FrontendStep n l .closed

theorem Step.frontendStep {n m : Node L} {l : Label Req Resp} (h : Step n l m) :
    FrontendStep n l m.frontend := by
  cases h with
  | @firstPoll id c command waker => exact n.firstPoll_frontend id c command waker ▸ .same
  | @swarmEvent event state order =>
      exact (n.withSwarmState state).handleSwarmEvent_frontend order event ▸ .same
  | beginSend | resumeSend => exact n.pollSend_frontend _ ▸ .same
  | recvEvent | callDone => exact .handling
  | nextEvent => exact .receiving
  | awaitCall hf h hp => exact .awaiting rfl (by simp [h])
  | dropReceiver => exact .closed rfl
  | _ => exact .same

theorem Passage.dead {n m : Node L} {l : Label Req Resp} (h : Passage n m l)
    (hn : n.loop.eventTx.rxAlive = false) : m.loop.eventTx.rxAlive = false := by
  cases h with
  | took _ _ _ _ halive | moved _ _ _ halive => exact halive.trans hn
  | dropped _ _ halive => exact halive

theorem Step.dropReceiver_dead {n m : Node L} (h : Step n .dropReceiver m) :
    m.loop.eventTx.rxAlive = false := by
  cases h with
  | dropReceiver hf => rfl

theorem Node.Attended.step {n m : Node L} {l : Label Req Resp} (ha : n.Attended)
    (h : Step n l m) : m.Attended := by
  have hmade {id} (hid : n.calls id ≠ none) : m.calls id ≠ none := h.desk.made hid
  have hfrontend := h.frontendStep
  generalize hf : m.frontend = f at hfrontend
  cases hfrontend with
  | same =>
      exact ⟨fun hc => h.passage.dead (ha.closed (hf ▸ hc)), fun id hid =>
        hmade (ha.awaited id (hf ▸ hid))⟩
  | handling | receiving =>
      exact ⟨fun hc => absurd (hf ▸ hc) (by simp), fun id hid => absurd (hf ▸ hid) (by simp)⟩
  | @awaiting id _ hid =>
      refine ⟨fun hc => absurd (hf ▸ hc) (by simp), fun id' hid' => hmade ?_⟩
      obtain rfl := Frontend.awaiting.inj (hf.symm.trans hid')
      exact hid
  | closed hl =>
      subst hl
      exact ⟨fun _ => h.dropReceiver_dead, fun id hid => absurd (hf ▸ hid) (by simp)⟩

theorem Reachable.attended {config : NodeConfig} {n : Node L} (h : Reachable L config n) :
    n.Attended :=
  Transition.Reachable.invariant (I := Node.Attended) h
    (fun n hs => ⟨by simp [hs.fresh.frontend_eq], by simp [hs.fresh.frontend_eq]⟩)
    fun _ _ _ ha hs => ha.step hs

/-- An own step can be taken. -/
def Node.GoesOn (n : Node L) : Prop := ∃ l m, l.own = 1 ∧ Step n l m

/-- The receiver's owner takes the loop out of a full queue, if no call keeps it. -/
theorem Node.Attended.makes_room {n : Node L} (ha : n.Attended) (hf : n.EventsFull)
    (hawaiting : ∀ id, n.frontend = .awaiting id → n.GoesOn) : n.GoesOn := by
  cases hfrontend : n.frontend with
  | closed =>
      have hdead := ha.closed hfrontend
      rw [hf.1] at hdead
      cases hdead
  | handling => exact ⟨.nextEvent, _, rfl, .nextEvent hfrontend⟩
  | receiving =>
      cases hrecv : n.loop.eventTx.tryRecv with
      | some x => exact ⟨.recvEvent, _, rfl, .recvEvent hfrontend hrecv⟩
      | none =>
          refine absurd ?_ hf.2
          rw [Channel.HasRoom, Channel.tryRecv_eq_none hrecv]
          exact Nat.zero_lt_succ _
  | awaiting id => exact hawaiting id hfrontend

/-- As long as the loop has not ended, it or the receiver's owner has a step to take, unless
the loop waits in `select!` or a call keeps the owner. -/
theorem Node.Attended.goes_on {n : Node L} (ha : n.Attended) (ht : n.phase ≠ .terminated)
    (hselecting : n.phase = .selecting → n.GoesOn)
    (hawaiting : ∀ id, n.frontend = .awaiting id → n.GoesOn) : n.GoesOn := by
  cases hp : n.phase with
  | top => exact ⟨.sweep, _, rfl, .sweep hp⟩
  | selecting => exact hselecting hp
  | running task => exact ⟨.handleCommand, _, rfl, .handleCommand hp⟩
  | sending event => exact ⟨.beginSend, _, rfl, .beginSend hp⟩
  | suspended event =>
      by_cases hf : n.EventsFull
      · exact ha.makes_room hf hawaiting
      · exact ⟨.resumeSend, _, rfl,
          .resumeSend hp fun hfull => hf ((n.trySend_full_iff event).mp hfull)⟩
  | terminated => exact absurd hp ht

/-- When nobody sends, the loop empties its channel and ends, and no call is waited for. -/
theorem Node.Attended.ends {n : Node L} (ha : n.Attended) (hn : n.NoSenders)
    (ht : n.phase ≠ .terminated) : n.GoesOn := by
  refine ha.goes_on ht (fun hp => ?_) fun id hfrontend => ?_
  · cases hrecv : n.loop.commandRx.tryRecv with
    | some x => exact ⟨.recvCommand, _, rfl, .recvCommand hp hrecv⟩
    | none => exact ⟨.shutdown, _, rfl, .shutdown hp (Channel.tryRecv_eq_none hrecv) hn⟩
  · obtain ⟨c, hc⟩ := Option.ne_none_iff_exists'.mp (ha.awaited id hfrontend)
    refine ⟨.callDone, _, rfl, .callDone hfrontend hc ?_⟩
    have hheld := hn.2 id c hc
    cases hp : c.phase with
    | failed error => exact .inl rfl
    | dropped => exact .inr rfl
    | _ => exact absurd hheld (by simp [hp, CallPhase.HoldsSender])

/-- An own step carries no load. -/
theorem Label.load_of_own {l : Label Req Resp} (h : l.own = 1) : l.load = 0 := by
  cases l <;> first | rfl | cases h

/-- An own step lowers the work that is left. -/
theorem Step.work_lt {n m : Node L} {l : Label Req Resp} (h : Step n l m) (hl : l.own = 1) :
    m.work < n.work := by
  have hpays := h.pays
  rw [hl, Label.load_of_own hl] at hpays
  omega

/-! ### The end -/

/-- Once all senders are gone, the loop and the receiver's owner take no more steps of their
own than there is work left and the outside adds, and until the loop has ended one of them
can go on. So by itself the node comes to its end, in as many steps at most. -/
theorem shutdown_bounded {config : NodeConfig} {n : Node L} (hr : Reachable L config n)
    (hn : n.NoSenders) :
    (∀ ρ m, Run L n ρ m →
      m.work + (ρ.map fun x => x.label.own).sum ≤
          n.work + (ρ.map fun x => x.label.load).sum ∧
        (m.phase = .terminated ∨ m.GoesOn)) ∧
      ∃ ρ m, Run L n ρ m ∧ m.phase = .terminated ∧ ρ.length ≤ n.work ∧
        ∀ x ∈ ρ, x.label.own = 1 := by
  have hI : ∀ a l b, a.Attended ∧ a.NoSenders → Step (L := L) a l b →
      b.Attended ∧ b.NoSenders := fun _ _ _ ha hs => ⟨ha.1.step hs, ha.2.step hs⟩
  have hI0 : n.Attended ∧ n.NoSenders := ⟨hr.attended, hn⟩
  refine ⟨fun ρ m h => ⟨h.budget hI (fun _ _ _ _ hs => hs.pays) hI0, ?_⟩, ?_⟩
  · obtain ⟨ha, hs⟩ := h.invariant hI0 hI
    exact or_iff_not_imp_left.mpr (ha.ends hs)
  · refine Transition.exists_path_to (fun n => n.phase = .terminated) (fun l => l.own = 1)
      Node.work (fun a l b ha _ hs => hI a l b ha hs) (fun a ha ht => ?_) hI0
    obtain ⟨l, b, hl, hs⟩ := ha.1.ends ha.2 ht
    exact ⟨l, b, hl, hs, hs.work_lt hl⟩

namespace Loopback

def dialGivenUp : Node loopback := dialPending.dropCall 0 ⟨.dial peer, none, .pending⟩

/-- The only client leaves with its dial still in the channel. -/
def deserted : Node loopback := { dialGivenUp with clients := 0 }

theorem deserted_reachable : Reachable loopback (config [(peer, [])]) deserted :=
  ((dialQueued_reachable.next (.handlePoll rfl rfl)).next (.dropCall rfl (by simp))).next
    (.dropClient (n := dialGivenUp) Nat.one_pos)

theorem deserted_noSenders : deserted.NoSenders := by
  refine ⟨rfl, fun id c hc => ?_⟩
  by_cases hid : id = 0
  · subst hid
    obtain rfl : ⟨.dial peer, none, .dropped⟩ = c := Option.some.inj hc
    simp [CallPhase.HoldsSender]
  · have hnone : deserted.calls id = none := calc
      deserted.calls id = dialPending.calls id := Function.update_of_ne hid _ _
      _ = dialQueued.calls id := Function.update_of_ne hid _ _
      _ = dialOpened.calls id := dialOpened.firstPoll_calls_of_ne _ _ 0 hid
      _ = none := Function.update_of_ne hid _ _
    rw [hnone] at hc
    cases hc

end Loopback

open Loopback in
theorem shutdown_bounded_deserted :
    deserted.work = 5 ∧ ∃ ρ m, Run loopback deserted ρ m ∧ m.phase = .terminated ∧
      ρ.length ≤ 5 ∧ ∀ x ∈ ρ, x.label.own = 1 :=
  ⟨rfl, (shutdown_bounded deserted_reachable deserted_noSenders).2⟩

end SwarmP2p
