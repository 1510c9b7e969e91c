import SwarmP2p.Library.History
import SwarmP2p.Verification.Call.OneShot

/-! # No lost wakeup

A poll that returns `Pending` leaves its waker in the handle, in the same critical
section in which it found no result. So the waker is still there when the result comes,
whenever that is, and `finish` wakes it. -/

namespace SwarmP2p

variable {Req Resp : Type} {L : Libp2p Req Resp}

/-! ### The log of a run -/

/-- A poll that returned `Pending`: the waker that it registered, and how many times the
handle had woken anybody by then. -/
structure PendingPoll where
  waker : Waker
  wakes : Nat

/-- What the callers and the queue have seen. -/
structure CallLog where
  /-- The most recent poll of each call, if it returned `Pending`. -/
  lastPoll : HandleId → Option PendingPoll
  enqueued : List HandleId
  ran : List HandleId

namespace CallLog

def empty : CallLog := ⟨fun _ => none, [], []⟩

/-- What a poll of the handle returned. -/
def returned (d d' : Desk Req Resp) (id : HandleId) : Option PendingPoll :=
  match (d.calls id).map ClientCall.phase, (d'.calls id).map ClientCall.phase with
  | some (.polling waker), some .pending => some ⟨waker, (d'.handles id).wakes.length⟩
  | _, _ => none

def note (log : CallLog) (d : Desk Req Resp) (l : Label Req Resp) (d' : Desk Req Resp) :
    CallLog where
  lastPoll := match l with
    | .handlePoll id => Function.update log.lastPoll id (returned d d' id)
    | _ => log.lastPoll
  enqueued := log.enqueued ++ (d'.queue.drop d.queue.length).map Task.handle
  ran := match l with
    | .handleCommand => log.ran ++ d.running.toList.map Task.handle
    | _ => log.ran

def observe (log : CallLog) (x : Transition.Trans (Node L) (Label Req Resp)) : CallLog :=
  log.note x.pre.desk x.label x.post.desk

end CallLog

/-- The log of a run. -/
def callLog (π : List (Transition.Trans (Node L) (Label Req Resp))) : CallLog :=
  π.foldl CallLog.observe .empty

/-! ### The waker -/

/-- The waker of the poll was woken since, or it is still there and there is no result. -/
structure PendingPoll.Registered (p : PendingPoll) (s : ResultState (Output Resp)) : Prop where
  wakes_le : p.wakes ≤ s.wakes.length
  woken : p.waker ∈ s.wakes.drop p.wakes ∨ (s.waker = some p.waker ∧ s.result = none)

namespace PendingPoll.Registered

variable {p : PendingPoll} {s : ResultState (Output Resp)}

theorem of_poll (hr : s.result = none) (waker : Waker) :
    Registered ⟨waker, s.wakes.length⟩ { s with waker := some waker } :=
  ⟨le_refl _, .inr ⟨rfl, hr⟩⟩

theorem finish (h : p.Registered s) (r : Result (Output Resp)) : p.Registered (s.finish r) := by
  have hle : p.wakes ≤ (s.wakes ++ s.waker.toList).length := by
    rw [List.length_append]
    exact Nat.le_add_right_of_le h.wakes_le
  refine ⟨hle, .inl ?_⟩
  have hdrop : (s.finish r).wakes.drop p.wakes = s.wakes.drop p.wakes ++ s.waker.toList :=
    List.drop_append_of_le_length h.wakes_le
  rw [hdrop]
  rcases h.woken with hw | ⟨hw, _⟩
  · exact List.mem_append_left _ hw
  · exact List.mem_append_right _ (by simp [hw])

theorem settle (h : p.Registered s) (r : Option (Result (Output Resp))) :
    p.Registered (s.settle r) := by
  cases r with
  | none => exact h
  | some r => exact h.finish r

theorem cancel (h : p.Registered s) : p.Registered s.cancel := ⟨h.wakes_le, h.woken⟩

end PendingPoll.Registered

/-! ### The invariant -/

namespace Desk

/-- The last poll of a call left its waker in the handle. -/
structure PollsRegistered (log : CallLog) (d : Desk Req Resp) : Prop where
  opened : ∀ id p, log.lastPoll id = some p → d.calls id ≠ none
  registered : ∀ id p, log.lastPoll id = some p → p.Registered (d.handles id)

/-- The accounts of the command queue. -/
structure Enqueued (log : CallLog) (d : Desk Req Resp) : Prop where
  nodup : log.enqueued.Nodup
  /-- A command that was enqueued has left its future. -/
  left : ∀ id ∈ log.enqueued, ∃ c, d.calls id = some c ∧ ∀ command, c.phase ≠ .created command
  /-- A command that was enqueued has run, or waits for it. -/
  account : log.enqueued.Perm (log.ran ++ d.unrun.map Task.handle)

variable {log : CallLog} {d d' : Desk Req Resp} {l : Label Req Resp}

/-- A call that was opened stays. -/
theorem calls_ne_none (h : DeskStep L d l d') {id : HandleId} (hc : d.calls id ≠ none) :
    d'.calls id ≠ none := by
  obtain ⟨c, hc⟩ := Option.ne_none_iff_exists'.mp hc
  obtain ⟨phase, hc', _⟩ := h.call hc
  simp [hc']

/-- Nothing but a poll touches the waker of a call without waking it. -/
theorem registered_step (hi : d.Inv) (h : DeskStep L d l d') {id : HandleId}
    (hl : l ≠ .handlePoll id) (hc : d.calls id ≠ none) {p : PendingPoll}
    (hp : p.Registered (d.handles id)) : p.Registered (d'.handles id) := by
  have hstep := h.handle hi.active_nodup id
  generalize d'.handles id = s at hstep ⊢
  cases hstep with
  | same => exact hp
  | opened call hopen h => exact absurd h hc
  | ready hpoll => exact absurd hpoll hl
  | pending waker hpoll => exact absurd hpoll hl
  | dropCall hdrop => exact hp.cancel
  | ran task swarm hrun hid => exact hp.settle _
  | answered t event hevent ht hid => exact hp.settle _

theorem PollsRegistered.step (h : PollsRegistered log d) (hi : d.Inv) (hs : DeskStep L d l d') :
    PollsRegistered (log.note d l d') d' := by
  have hkept : ∀ id p, l ≠ .handlePoll id → log.lastPoll id = some p →
      d'.calls id ≠ none ∧ p.Registered (d'.handles id) := fun id p hl hlast =>
    ⟨calls_ne_none hs (h.opened id p hlast),
      registered_step hi hs hl (h.opened id p hlast) (h.registered id p hlast)⟩
  cases l with
  | handlePoll id =>
      have hother : ∀ id' p, id' ≠ id → (log.note d (.handlePoll id) d').lastPoll id' = some p →
          d'.calls id' ≠ none ∧ p.Registered (d'.handles id') := by
        intro id' p hid hlast
        have hsame : (log.note d (.handlePoll id) d').lastPoll id' = log.lastPoll id' :=
          Function.update_of_ne hid _ _
        refine hkept id' p ?_ (hsame ▸ hlast)
        rintro ⟨⟩
        exact hid rfl
      have hself : ∀ p, (log.note d (.handlePoll id) d').lastPoll id = some p →
          d'.calls id ≠ none ∧ p.Registered (d'.handles id) := by
        intro p hlast
        rw [show (log.note d (.handlePoll id) d').lastPoll id = CallLog.returned d d' id from
          Function.update_self ..] at hlast
        cases hs with
        | idle hl => exact hl.elim
        | @ready _ c waker result hc hp hr =>
            simp [CallLog.returned, hc, hp, setPhase] at hlast
        | @pending _ c waker hc hp hr =>
            simp only [CallLog.returned, hc, hp, setPhase, Function.update_self,
              Option.map_some, Option.some.injEq] at hlast ⊢
            subst hlast
            exact ⟨by simp, .of_poll hr waker⟩
      refine ⟨fun id' p hlast => ?_, fun id' p hlast => ?_⟩
      · by_cases hid : id' = id
        · exact hid ▸ (hself p (hid ▸ hlast)).1
        · exact (hother id' p hid hlast).1
      · by_cases hid : id' = id
        · exact hid ▸ (hself p (hid ▸ hlast)).2
        · exact (hother id' p hid hlast).2
  | _ =>
      exact ⟨fun id p hlast => (hkept id p (by simp) hlast).1,
        fun id p hlast => (hkept id p (by simp) hlast).2⟩

/-- A command that has left its future does not come back. -/
theorem left_step (h : DeskStep L d l d') {id : HandleId}
    (hid : ∃ c, d.calls id = some c ∧ ∀ command, c.phase ≠ .created command) :
    ∃ c, d'.calls id = some c ∧ ∀ command, c.phase ≠ .created command := by
  obtain ⟨c, hc, hphase⟩ := hid
  obtain ⟨phase, hc', hmoves⟩ := h.call hc
  refine ⟨_, hc', fun command heq => ?_⟩
  obtain rfl : phase = .created command := heq
  generalize hp : c.phase = p at hmoves
  cases hmoves with
  | same => exact hphase command hp

/-- A step that adds nothing to the queue and runs nothing. -/
theorem Enqueued.of_quiet (h : Enqueued log d) (hs : DeskStep L d l d')
    (hl : l ≠ .handleCommand) (hlen : d'.queue.length ≤ d.queue.length)
    (hunrun : d'.unrun = d.unrun) : Enqueued (log.note d l d') d' := by
  have henqueued : (log.note d l d').enqueued = log.enqueued := by
    simp [CallLog.note, List.drop_eq_nil_of_le hlen]
  have hran : (log.note d l d').ran = log.ran := by
    cases l <;> first | rfl | exact absurd rfl hl
  refine ⟨?_, ?_, ?_⟩
  · rw [henqueued]
    exact h.nodup
  · rw [henqueued]
    exact fun id hid => left_step hs (h.left id hid)
  · rw [henqueued, hran, hunrun]
    exact h.account

theorem Enqueued.step (h : Enqueued log d) (hs : DeskStep L d l d') :
    Enqueued (log.note d l d') d' := by
  have hleft := fun id hid => left_step hs (h.left id hid)
  have hquiet := h.of_quiet hs
  cases hs with
  | idle hl => exact hquiet (by rintro rfl; exact hl) (le_refl _) rfl
  | openCall call taken hnone => exact hquiet (by simp) (le_refl _) rfl
  | @accept id c command waker hc hp =>
      have hid : id ∉ log.enqueued := by
        intro hmem
        obtain ⟨c', hc', hphase⟩ := h.left id hmem
        rw [hc] at hc'
        obtain rfl := Option.some.inj hc'
        exact hphase command hp
      have henqueued : (log.note d (.firstPoll id waker)
          { d.setPhase id c (.polling waker) with
            queue := d.queue ++ [⟨command, id⟩] }).enqueued = log.enqueued ++ [id] := by
        simp [CallLog.note]
      refine ⟨?_, ?_, ?_⟩
      · rw [henqueued]
        exact (List.nodup_append_comm.mp (List.nodup_cons.mpr ⟨hid, h.nodup⟩))
      · rw [henqueued]
        intro id' hmem
        rcases List.mem_append.mp hmem with hmem | hmem
        · exact hleft id' hmem
        · obtain rfl := List.mem_singleton.mp hmem
          exact ⟨_, Function.update_self .., by simp⟩
      · rw [henqueued]
        have hunrun : ({ d.setPhase id c (.polling waker) with
            queue := d.queue ++ [⟨command, id⟩] } : Desk Req Resp).unrun =
              d.unrun ++ [⟨command, id⟩] := (List.append_assoc _ _ _).symm
        rw [hunrun, List.map_append, ← List.append_assoc]
        exact h.account.append_right _
  | refuse waker hc hp => exact hquiet (by simp) (le_refl _) rfl
  | ready hc hp hr => exact hquiet (by simp) (le_refl _) rfl
  | pending hc hp hr => exact hquiet (by simp) (le_refl _) rfl
  | pollAgain waker hc hp => exact hquiet (by simp) (le_refl _) rfl
  | dropCall hc => exact hquiet (by simp) (le_refl _) rfl
  | sweep hrun => exact hquiet (by simp) (le_refl _) rfl
  | recvCommand hrun hq => exact hquiet (by simp) (by simp [hq]) (by simp [unrun, hrun, hq])
  | @handleCommand task swarm hrun hids hresp =>
      have hunrun : d.unrun = task :: d.queue := by simp [unrun, hrun]
      refine ⟨?_, ?_, ?_⟩
      · simpa [CallLog.note] using h.nodup
      · simpa [CallLog.note] using h.left
      · have haccount := h.account
        rw [hunrun, List.map_cons] at haccount
        simpa [CallLog.note, unrun, hrun] using haccount
  | dispatch hrun hd => exact hquiet (by simp) (le_refl _) rfl
  | shutdown hrun hq hs => exact hquiet (by simp) (le_refl _) rfl

end Desk

/-- What a run and its log keep. -/
structure Node.Logged (log : CallLog) (n : Node L) : Prop where
  inv : n.desk.Inv
  polls : n.desk.PollsRegistered log
  queue : n.desk.Enqueued log

theorem Fresh.logged {config : NodeConfig} {n : Node L} (h : Fresh config n) :
    n.Logged .empty := by
  refine ⟨h.inv, ⟨fun _ _ hlast => (by cases hlast), fun _ _ hlast => (by cases hlast)⟩, ?_⟩
  rw [h.desk_eq]
  exact ⟨List.nodup_nil, fun _ hid => (by cases hid), .refl _⟩

theorem Node.Logged.step {log : CallLog} {n m : Node L} {l : Label Req Resp}
    (h : n.Logged log) (hs : Step n l m) : m.Logged (log.observe ⟨n, l, m⟩) :=
  ⟨h.inv.step hs.desk, h.polls.step h.inv hs.desk, h.queue.step hs.desk⟩

theorem Run.logged {config : NodeConfig} {n m : Node L}
    {π : List (Transition.Trans (Node L) (Label Req Resp))} (hs : Started L config n)
    (h : Run L n π m) : m.Logged (callLog π) :=
  (h.watch CallLog.observe .empty).invariant
    (I := fun x => x.2.Logged x.1) hs.fresh.logged fun _ _ _ hi hw => by
      rw [hw.2]
      exact hi.step hw.1

/-- A result that a caller has not seen has woken the waker of its last poll, and no command is
put into the queue, or run, twice. -/
theorem no_lost_wakeup {config : NodeConfig} {n m : Node L}
    {π : List (Transition.Trans (Node L) (Label Req Resp))} (hs : Started L config n)
    (h : Run L n π m) :
    (∀ id p, (callLog π).lastPoll id = some p → (m.handles id).result.isSome →
        p.waker ∈ (m.handles id).wakes.drop p.wakes) ∧
      (callLog π).enqueued.Nodup ∧ (callLog π).ran.Nodup := by
  have hlog := Run.logged hs h
  refine ⟨fun id p hlast hresult => ?_, hlog.queue.nodup, ?_⟩
  · rcases (hlog.polls.registered id p hlast).woken with hw | ⟨_, hnone⟩
    · exact hw
    · rw [show (m.handles id).result = none from hnone] at hresult
      cases hresult
  · have hran := hlog.queue.account.nodup_iff.mp hlog.queue.nodup
    exact (List.nodup_append.mp hran).1

/-- The refusal of the dial wakes the caller that polled before. -/
theorem no_lost_wakeup_refused :
    (0 : Waker) ∈ (Loopback.dialRefused.handles 0).wakes.drop 0 ∧
      (callLog Loopback.dialSteps).enqueued.Nodup ∧ (callLog Loopback.dialSteps).ran.Nodup := by
  obtain ⟨hwoken, hqueue⟩ := no_lost_wakeup (Loopback.started _) Loopback.dialSteps_run
  exact ⟨hwoken 0 ⟨0, 0⟩ rfl rfl, hqueue⟩

end SwarmP2p
