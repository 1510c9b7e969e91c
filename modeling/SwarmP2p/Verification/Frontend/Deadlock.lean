import SwarmP2p.Model.Loopback
import SwarmP2p.Verification.Node.Run

/-! # The loop and its consumer

The loop waits for room in the event queue, the consumer of events waits for a command
that the loop has not run: nobody moves again. The wait cycle can close at two steps,
and a run meets it exactly when it takes one of them. -/

namespace SwarmP2p

variable {Req Resp : Type} {L : Libp2p Req Resp}

namespace Node

/-- The event queue is full, and its receiver is alive. -/
def EventsFull (n : Node L) : Prop :=
  n.loop.eventTx.rxAlive = true ∧ ¬n.loop.eventTx.HasRoom

/-- The consumer of events waits for a command that is still queued. -/
def AwaitsQueued (n : Node L) : Prop :=
  ∃ id c, n.frontend = .awaiting id ∧ n.calls id = some c ∧ c.phase.Waiting ∧
    ∃ t ∈ n.loop.commandRx.queue, t.handle = id

/-- The loop is suspended in `event_tx.send` on a full queue, and the task that holds
the receiver waits for a command that the loop has not run yet. -/
def Deadlocked (n : Node L) : Prop :=
  (∃ event, n.phase = .suspended event) ∧ n.EventsFull ∧ n.AwaitsQueued

/-- The two ways into the deadlock: the loop starts to send while the consumer already
waits, or the consumer gets its command into the queue while the loop already waits. -/
def AvoidsCycle (n : Node L) : Label Req Resp → Prop
  | .beginSend => ¬(n.EventsFull ∧ n.AwaitsQueued)
  | .firstPoll id _ =>
      ¬((∃ event, n.phase = .suspended event) ∧ n.EventsFull ∧ n.frontend = .awaiting id ∧
        n.loop.commandRx.Accepts)
  | _ => True

theorem trySend_full_iff (n : Node L) (event : NodeEvent Req) :
    n.loop.eventTx.trySend event = .error .full ↔ n.EventsFull := by
  unfold Channel.trySend EventsFull
  split
  · rename_i ha
    split
    · rename_i hr
      simp [hr]
    · rename_i hr
      simp [ha, hr]
  · rename_i ha
    simp [ha]

theorem pollSend_of_full {n : Node L} {event : NodeEvent Req} (h : n.EventsFull) :
    n.pollSend event = { n with phase := .suspended event } := by
  rw [pollSend, (n.trySend_full_iff event).mpr h]

theorem pollSend_phase_of_not_full {n : Node L} {event : NodeEvent Req}
    (h : ¬n.EventsFull) : (n.pollSend event).phase = .top := by
  unfold pollSend
  split
  · rfl
  · rfl
  · rename_i heq
    exact absurd ((n.trySend_full_iff event).mp heq) h

/-- A deadlock was there before, unless the step put the awaited command into the queue
or moved the loop or its consumer. -/
theorem Deadlocked.before {n m : Node L} (h : m.Deadlocked) (hphase : m.phase = n.phase)
    (hevents : m.loop.eventTx = n.loop.eventTx) (hfrontend : m.frontend = n.frontend)
    (hqueue : ∀ t ∈ m.loop.commandRx.queue, n.frontend = .awaiting t.handle →
      t ∈ n.loop.commandRx.queue)
    (hcalls : ∀ id c, m.calls id = some c → c.phase.Waiting → n.frontend = .awaiting id →
      ∃ c', n.calls id = some c' ∧ c'.phase.Waiting) : n.Deadlocked := by
  obtain ⟨⟨event, he⟩, hfull, id, c, hf, hc, hw, t, ht, rfl⟩ := h
  rw [hfrontend] at hf
  obtain ⟨c', hc', hw'⟩ := hcalls _ c hc hw hf
  refine ⟨⟨event, hphase ▸ he⟩, ?_, t.handle, c', hf, hc', hw', t, hqueue t ht hf, rfl⟩
  unfold EventsFull at hfull ⊢
  rwa [hevents] at hfull

/-- The calls after a step that sets the phase of one call. -/
theorem waiting_of_update {n : Node L} {id id' : HandleId} {c c' : ClientCall Req Resp}
    {phase : CallPhase Req Resp} (h : n.calls id = some c)
    (hp : phase.Waiting → c.phase.Waiting)
    (hc : Function.update n.calls id (some { c with phase := phase }) id' = some c')
    (hw : c'.phase.Waiting) : ∃ c, n.calls id' = some c ∧ c.phase.Waiting := by
  rcases call_of_update rfl hc with ⟨rfl, rfl⟩ | ⟨_, hc⟩
  · exact ⟨c, h, hp hw⟩
  · exact ⟨c', hc, hw⟩

end Node

theorem Step.not_deadlocked {n m : Node L} {l : Label Req Resp} (hn : ¬n.Deadlocked)
    (h : Step n l m) (hc : n.AvoidsCycle l) : ¬m.Deadlocked := by
  intro hm
  cases h with
  | @openCall id call hcl h =>
      refine hn (hm.before rfl rfl rfl (fun t ht _ => ht) ?_)
      intro id' c hc' hw _
      rcases call_of_update rfl hc' with ⟨rfl, rfl⟩ | ⟨_, hold⟩
      · exact absurd hw (Call.opened_not_waiting _ _)
      · exact ⟨c, hold, hw⟩
  | @firstPoll id c command waker h hp =>
      by_cases ha : n.loop.commandRx.Accepts
      · rw [n.firstPoll_of_accepts id c command waker ha] at hm
        -- The command that entered the queue is not the awaited one.
        have hother : n.frontend ≠ .awaiting id := fun hf => hc ⟨hm.1, hm.2.1, hf, ha⟩
        refine hn (hm.before rfl rfl rfl ?_ ?_)
        · intro t ht hf
          rcases List.mem_append.mp ht with ht | ht
          · exact ht
          · obtain rfl := List.mem_singleton.mp ht
            exact absurd hf hother
        · intro id' c' hc' hw hf
          have hid : id' ≠ id := by
            rintro rfl
            exact hother hf
          have hold : Function.update n.calls id _ id' = some c' := hc'
          rw [Function.update_of_ne hid] at hold
          exact ⟨c', hold, hw⟩
      · rw [n.firstPoll_of_not_accepts id c command waker ha] at hm
        refine hn (hm.before rfl rfl rfl (fun t ht _ => ht) ?_)
        intro id' c' hc' hw _
        refine Node.waiting_of_update h ?_ hc' hw
        rintro ⟨⟩
  | handlePoll h hp =>
      refine hn (hm.before rfl rfl rfl (fun t ht _ => ht) ?_)
      intro id' c' hc' hw _
      exact Node.waiting_of_update h (fun _ => by simp [hp, CallPhase.Waiting]) hc' hw
  | pollAgain waker h hp =>
      refine hn (hm.before rfl rfl rfl (fun t ht _ => ht) ?_)
      intro id' c' hc' hw _
      exact Node.waiting_of_update h (fun _ => by simp [hp, CallPhase.Waiting]) hc' hw
  | dropCall h hp =>
      refine hn (hm.before rfl rfl rfl (fun t ht _ => ht) ?_)
      intro id' c' hc' hw _
      refine Node.waiting_of_update h ?_ hc' hw
      rintro ⟨⟩
  | sweep hp =>
      obtain ⟨⟨event, he⟩, _⟩ := hm
      cases he
  | recvCommand hp h =>
      obtain ⟨⟨event, he⟩, _⟩ := hm
      cases he
  | handleCommand hp =>
      obtain ⟨⟨event, he⟩, _⟩ := hm
      cases he
  | swarmEvent hp h ho =>
      obtain ⟨⟨event, he⟩, _⟩ := hm
      simp only [Node.handleSwarmEvent] at he
      split at he
      · cases he
      · dsimp only at he
        split at he <;> cases he
  | inboundChannel protocol peer stream hp =>
      obtain ⟨⟨event, he⟩, _⟩ := hm
      cases he
  | @beginSend event hp =>
      by_cases hf : n.EventsFull
      · rw [Node.pollSend_of_full hf] at hm
        exact hc ⟨hf, hm.2.2⟩
      · obtain ⟨⟨event', he⟩, _⟩ := hm
        rw [Node.pollSend_phase_of_not_full hf] at he
        cases he
  | @resumeSend event hp h =>
      obtain ⟨⟨event', he⟩, _⟩ := hm
      rw [Node.pollSend_phase_of_not_full fun hf => h ((n.trySend_full_iff event).mpr hf)] at he
      cases he
  | shutdown hp hq hs =>
      obtain ⟨⟨event, he⟩, _⟩ := hm
      cases he
  | recvEvent hf h =>
      obtain ⟨_, _, _, _, hf', _⟩ := hm
      cases hf'
  | @awaitCall id c command hf h hp =>
      obtain ⟨_, _, id', c', hf', hc', hw, _⟩ := hm
      obtain rfl := Frontend.awaiting.inj hf'
      have hcall : n.calls id = some c' := hc'
      rw [h] at hcall
      obtain rfl := Option.some.inj hcall
      rw [hp] at hw
      exact hw
  | callDone hf h hp =>
      obtain ⟨_, _, _, _, hf', _⟩ := hm
      cases hf'
  | nextEvent hf =>
      obtain ⟨_, _, _, _, hf', _⟩ := hm
      cases hf'
  | dropReceiver hf =>
      obtain ⟨_, _, _, _, hf', _⟩ := hm
      cases hf'
  | _ => exact hn hm

/-- Either of the two steps closes the cycle. -/
theorem Step.deadlocked {n m : Node L} {l : Label Req Resp} (h : Step n l m)
    (hc : ¬n.AvoidsCycle l) : m.Deadlocked := by
  cases h with
  | @firstPoll id c command waker h hp =>
      obtain ⟨hsuspended, hfull, hf, ha⟩ := not_not.mp hc
      rw [n.firstPoll_of_accepts id c command waker ha]
      exact ⟨hsuspended, hfull, id, _, hf, Function.update_self .., trivial, ⟨command, id⟩,
        List.mem_append_right _ (List.mem_singleton.mpr rfl), rfl⟩
  | @beginSend event hp =>
      obtain ⟨hfull, hawaits⟩ := not_not.mp hc
      rw [Node.pollSend_of_full hfull]
      exact ⟨⟨event, rfl⟩, hfull, hawaits⟩
  | _ => exact absurd trivial hc

theorem Fresh.not_deadlocked {config : NodeConfig} {n : Node L} (h : Fresh config n) :
    ¬n.Deadlocked := by
  rintro ⟨⟨event, he⟩, _⟩
  rw [h.phase_eq] at he
  cases he

/-- The loop and its consumer never wait for each other, exactly as long as the loop does not
begin to wait while the consumer awaits a queued command, and the consumer does not get the
awaited command into the queue while the loop waits. -/
theorem deadlock_free_iff {config : NodeConfig} {n m : Node L}
    {π : List (Transition.Trans (Node L) (Label Req Resp))} (hs : Started L config n)
    (h : Run L n π m) :
    (∀ x ∈ π, ¬x.post.Deadlocked) ↔ ∀ x ∈ π, x.pre.AvoidsCycle x.label :=
  Transition.Path.safe_iff_meets (I := fun _ => True) (P := fun n => ¬n.Deadlocked)
    (C := fun n l => n.AvoidsCycle l) (fun _ _ _ _ _ => trivial)
    (fun _ _ _ _ hn hs hc => hs.not_deadlocked hn hc)
    (fun _ _ _ _ hs hc => not_not.mpr (hs.deadlocked hc)) h trivial hs.fresh.not_deadlocked

/-! ### A consumer that awaits a call -/

namespace Loopback

def pingReport : NodeEvent String := .pingSuccess peer 0

/-- A turn of the loop up to the point where it reports a ping. -/
def sendingPing (n : Node loopback) : Node loopback :=
  (n.sweep.withSwarmState n.loop.swarm.state).handleSwarmEvent [] pingEvent

/-- `k` pings in a row. -/
def pings (n : Node loopback) : Nat → Node loopback
  | 0 => n
  | k + 1 => (sendingPing (pings n k)).pollSend pingReport

/-- The consumer has received one ping and handles it. -/
def handlingPing : Node loopback :=
  { pings (node []) 1 with
    loop := { (pings (node []) 1).loop with eventTx := .new _ }
    frontend := .handling }

/-- A ping on its way from the swarm to the receiver. -/
def pingSteps : List (Transition.Trans (Node loopback) (Label String String)) :=
  [⟨node [], .sweep, (node []).sweep⟩,
    ⟨(node []).sweep, .swarmEvent pingEvent, sendingPing (node [])⟩,
    ⟨sendingPing (node []), .beginSend, pings (node []) 1⟩,
    ⟨pings (node []) 1, .recvEvent, handlingPing⟩]

theorem pingSteps_run : Run loopback (node []) pingSteps handlingPing := by
  have hevent : Step (node []).sweep (.swarmEvent pingEvent) (sendingPing (node [])) :=
    .swarmEvent rfl rfl ⟨List.nodup_nil, fun _ => .rfl⟩
  exact (((Transition.Path.single (.sweep rfl)).snoc hevent).snoc (.beginSend rfl)).snoc
    (.recvEvent rfl rfl)

def slowPing : SwarmEvent String String := .behaviour (.ping peer (.ok 2000000))

def slowReport : NodeEvent String := .pingSuccess peer 2

def awaitOpened : Node loopback := handlingPing.openCall 0 .getAddrs

def awaitStarted : Node loopback := { awaitOpened with frontend := .awaiting 0 }

def awaitQueued : Node loopback :=
  awaitStarted.firstPoll 0 ⟨.getAddrs, none, .created (.getListenAddrs {})⟩ (.getListenAddrs {}) 0

def awaitReporting : Node loopback :=
  (awaitQueued.sweep.withSwarmState awaitQueued.loop.swarm.state).handleSwarmEvent [] slowPing

def awaitReported : Node loopback := awaitReporting.pollSend slowReport

/-- The consumer receives the ping and awaits a call; meanwhile the loop sends another. -/
def awaitSteps : List (Transition.Trans (Node loopback) (Label String String)) :=
  pingSteps ++
    [⟨handlingPing, .openCall 0 .getAddrs, awaitOpened⟩,
      ⟨awaitOpened, .awaitCall 0, awaitStarted⟩,
      ⟨awaitStarted, .firstPoll 0 0, awaitQueued⟩,
      ⟨awaitQueued, .sweep, awaitQueued.sweep⟩,
      ⟨awaitQueued.sweep, .swarmEvent slowPing, awaitReporting⟩,
      ⟨awaitReporting, .beginSend, awaitReported⟩]

theorem awaitSteps_run : Run loopback (node []) awaitSteps awaitReported := by
  have hopen : Step handlingPing (.openCall 0 .getAddrs) awaitOpened :=
    .openCall .getAddrs (by decide) rfl
  have hevent : Step awaitQueued.sweep (.swarmEvent slowPing) awaitReporting :=
    .swarmEvent rfl rfl ⟨List.nodup_nil, fun _ => .rfl⟩
  exact (((((pingSteps_run.snoc hopen).snoc (.awaitCall rfl rfl rfl)).snoc
    (.firstPoll 0 rfl rfl)).snoc (.sweep rfl)).snoc hevent).snoc (.beginSend rfl)

end Loopback

open Loopback in
/-- The consumer awaits a call whose command is queued when the loop sends its report. -/
theorem deadlock_free_iff_awaited :
    awaitReporting.AwaitsQueued ∧ awaitReported.loop.eventTx.queue = [slowReport] ∧
      ∀ x ∈ awaitSteps, ¬x.post.Deadlocked := by
  have hawaits : awaitReporting.AwaitsQueued :=
    ⟨0, _, rfl, rfl, trivial, _, List.mem_singleton_self _, rfl⟩
  refine ⟨hawaits, rfl, (deadlock_free_iff (started []) awaitSteps_run).mpr ?_⟩
  have hroom : ∀ n : Node loopback, n.loop.eventTx.queue = [] → n.AvoidsCycle .beginSend :=
    fun n hn hcycle => hcycle.1.2 (by simp [Channel.HasRoom, hn, eventChannelSize])
  have hpoll : awaitStarted.AvoidsCycle (.firstPoll 0 0) := by
    rintro ⟨⟨event, he⟩, _⟩
    cases he
  simp only [awaitSteps, pingSteps, List.cons_append, List.nil_append, List.forall_mem_cons]
  exact ⟨trivial, trivial, hroom _ rfl, trivial, trivial, trivial, hpoll, trivial, trivial,
    hroom _ rfl, by simp⟩

/-! ### A full event queue -/

namespace Loopback

theorem sendingPing_eq {n : Node loopback} (ha : n.loop.activeCommands = []) :
    sendingPing n = { n with phase := .sending pingReport } := by
  obtain ⟨⟨swarm, rx, tx, active, _, _, _, _, _, _, _⟩, _, _, _, _, _, _, _⟩ := n
  obtain rfl : active = [] := ha
  rfl

theorem sendingPing_reachable {config : NodeConfig} {n : Node loopback}
    (h : Reachable loopback config n) (hp : n.phase = .top) :
    Reachable loopback config (sendingPing n) :=
  (h.next (.sweep hp)).next (.swarmEvent rfl rfl ⟨List.nodup_nil, fun _ => .rfl⟩)

/-- The pings fill the event queue one by one and leave the rest of the node alone. -/
theorem pings_spec {n : Node loopback} (hp : n.phase = .top)
    (ha : n.loop.activeCommands = []) (ht : n.loop.eventTx = .new _) {k : Nat}
    (hk : k ≤ eventChannelSize) :
    ∃ eventTx, pings n k = { n with loop := { n.loop with eventTx := eventTx } } ∧
      eventTx.rxAlive = true ∧ eventTx.queue.length = k := by
  induction k with
  | zero => exact ⟨n.loop.eventTx, rfl, by simp [ht], by simp [ht]⟩
  | succ k ih =>
      obtain ⟨eventTx, heq, halive, hlen⟩ := ih (Nat.le_of_succ_le hk)
      have hroom : eventTx.HasRoom := by
        show eventTx.queue.length < eventChannelSize
        omega
      have hactive : (pings n k).loop.activeCommands = [] := by
        rw [heq]
        exact ha
      refine ⟨eventTx.push pingReport hroom, ?_, halive, ?_⟩
      · rw [pings, sendingPing_eq hactive, heq, Node.pollSend]
        simp only [Channel.trySend_of_accepts pingReport ⟨halive, hroom⟩]
        rw [hp]
      · simp [hlen]

theorem pings_reachable {config : NodeConfig} {n : Node loopback}
    (h : Reachable loopback config n) (hp : n.phase = .top)
    (ha : n.loop.activeCommands = []) (ht : n.loop.eventTx = .new _) {k : Nat}
    (hk : k ≤ eventChannelSize) : Reachable loopback config (pings n k) := by
  induction k with
  | zero => exact h
  | succ k ih =>
      obtain ⟨eventTx, heq, _⟩ := pings_spec hp ha ht (Nat.le_of_succ_le hk)
      have hping := sendingPing_reachable (ih (Nat.le_of_succ_le hk)) (by rw [heq]; exact hp)
      refine hping.next (.beginSend ?_)
      rw [sendingPing_eq (by rw [heq]; exact ha)]

theorem handlingPing_reachable : Reachable loopback (config []) handlingPing :=
  (reachable []).path pingSteps_run

end Loopback

/-- A consumer that dials while the loop is suspended closes the cycle. -/
theorem Node.deadlocked_of_dial {config : NodeConfig} {n : Node L} (h : Reachable L config n)
    {event : NodeEvent Req} (hp : n.phase = .suspended event) (hfull : n.EventsFull)
    (hf : n.frontend = .handling) (hc : 0 < n.clients) (id : HandleId)
    (hid : n.calls id = none) (ha : n.loop.commandRx.Accepts) (peerId : PeerId) :
    ∃ m, Reachable L config m ∧ m.Deadlocked := by
  have hopen := h.next (.openCall (.dial peerId) hc hid)
  have hcall : (n.openCall id (.dial peerId)).calls id =
      some ⟨.dial peerId, none, .created (.dial ⟨peerId⟩)⟩ := Function.update_self ..
  have hawait := hopen.next (.awaitCall hf hcall rfl)
  have hpoll : Step { n.openCall id (.dial peerId) with frontend := .awaiting id }
    (.firstPoll id 0) _ := .firstPoll 0 hcall rfl
  exact ⟨_, hawait.next hpoll,
    hpoll.deadlocked (not_not.mpr ⟨⟨event, hp⟩, hfull, rfl, ha⟩)⟩

/-- While the consumer handles one event the loop fills the queue with pings and is
suspended; then the consumer dials. -/
theorem deadlock_reached :
    ∃ n, Reachable loopback (Loopback.config []) n ∧ n.Deadlocked := by
  obtain ⟨eventTx, heq, halive, hlen⟩ := Loopback.pings_spec (n := Loopback.handlingPing) rfl
    rfl rfl (le_refl eventChannelSize)
  have hreach := Loopback.pings_reachable Loopback.handlingPing_reachable rfl rfl rfl
    (le_refl eventChannelSize)
  rw [heq] at hreach
  have hsending := Loopback.sendingPing_reachable hreach rfl
  rw [Loopback.sendingPing_eq rfl] at hsending
  have hfull : ¬eventTx.HasRoom := fun hr => by
    have hlt : eventTx.queue.length < eventChannelSize := hr
    omega
  have haccepts : Loopback.handlingPing.loop.commandRx.Accepts := ⟨rfl, by decide⟩
  have hsuspended := hsending.next (.beginSend rfl)
  rw [Node.pollSend_of_full ⟨halive, hfull⟩] at hsuspended
  exact Node.deadlocked_of_dial hsuspended rfl ⟨halive, hfull⟩ rfl Nat.one_pos 0
    rfl haccepts Loopback.peer

end SwarmP2p
