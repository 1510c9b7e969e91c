import SwarmP2p.Model.Loopback
import SwarmP2p.Verification.Node.Run

/-! # One-shot results

`finish` overwrites a result that is not polled yet, so a second call of it can change
an answer. Only the two commands that wait for connections can be finished twice: they
stay in the chain after they have answered in `run`, and still match events. -/

namespace SwarmP2p

variable {Req Resp : Type} {L : Libp2p Req Resp}

/-- A dial or disconnect command, and an event that its `match` answers. -/
def Command.MatchesConnection : Command Req Resp → SwarmEvent Req Resp → Prop
  | .dial c, .connectionEstablished peerId _ => peerId = c.peerId
  | .dial c, .outgoingConnectionError (some peerId) _ => peerId = c.peerId
  | .disconnect c, .connectionClosed peerId numEstablished =>
      peerId = c.peerId ∧ numEstablished = 0
  | _, _ => False

theorem Command.matchesConnection_iff {c : Command Req Resp} (hk : c.kind = .connection)
    (event : SwarmEvent Req Resp) :
    c.MatchesConnection event ↔ (c.onEvent L event).finished ≠ none := by
  cases c with
  | dial c =>
      simp only [onEvent, DialCommand.onEvent]
      split
      · split <;> simp_all [MatchesConnection, OnEvent.map, passEvent]
      · split <;> simp_all [MatchesConnection, OnEvent.map, passEvent]
      · rename_i h₁ h₂
        unfold MatchesConnection
        split <;> simp_all [OnEvent.map, passEvent]
  | disconnect c =>
      simp only [onEvent, DisconnectCommand.onEvent]
      split
      · split <;> simp_all [MatchesConnection, OnEvent.map, passEvent]
      · unfold MatchesConnection
        split <;> simp_all [OnEvent.map, passEvent]
  | _ => cases hk

theorem Command.MatchesConnection.kind_eq {c : Command Req Resp} {event : SwarmEvent Req Resp}
    (h : c.MatchesConnection event) : c.kind = .connection := by
  cases c with
  | dial c => rfl
  | disconnect c => rfl
  | _ => exact h.elim

/-- An event about a connection carries no id. -/
theorem Command.MatchesConnection.id?_eq {c : Command Req Resp} {event : SwarmEvent Req Resp}
    (h : c.MatchesConnection event) : event.id? = none := by
  unfold MatchesConnection at h
  split at h
  · rfl
  · rfl
  · rfl
  · exact h.elim

namespace Desk

/-- Every handle was finished at most once, and what is stored or received is that
first outcome. -/
def OneShot (d : Desk Req Resp) : Prop :=
  ∀ id, (d.handles id).outcomes.length ≤ 1 ∧
    (∀ r, (d.handles id).result = some r → (d.handles id).outcomes.head? = some r) ∧
    (∀ c r, d.calls id = some c → c.phase = .ready r →
      (d.handles id).outcomes.head? = some r)

/-- No command that has answered is in the chain and matches the event. -/
def NoSecondAnswer (d : Desk Req Resp) : Label Req Resp → Prop
  | .swarmEvent event =>
      ∀ t ∈ d.active, (d.handles t.handle).outcomes ≠ [] → ¬t.command.MatchesConnection event
  | _ => True

/-- A command that has answered answers again only on a connection event. -/
theorem Inv.finished_none {d : Desk Req Resp} (hi : d.Inv) {t : Task Req Resp}
    (ht : t ∈ d.active) (ha : (d.handles t.handle).outcomes ≠ []) {event : SwarmEvent Req Resp}
    (hm : ¬t.command.MatchesConnection event) : (t.command.onEvent L event).finished = none := by
  cases hk : t.command.kind with
  | connection =>
      by_contra hf
      exact hm ((Command.matchesConnection_iff hk event).mpr hf)
  | prompt => rw [Command.prompt_spec L hk event, defaultOnEvent]
  | tracked =>
      have hown := hi.answered t ht ha
      rw [(Command.tracked_spec L hk event).foreign (by simp [hown]), passEvent]

/-- The first `finish` of a handle. -/
theorem OneShot.settle {s : ResultState (Output Resp)} (r : Option (Result (Output Resp)))
    (hlen : s.outcomes.length ≤ 1)
    (hres : ∀ r, s.result = some r → s.outcomes.head? = some r)
    (h : s.outcomes ≠ [] → r = none) :
    (s.settle r).outcomes.length ≤ 1 ∧
      (∀ x, (s.settle r).result = some x → (s.settle r).outcomes.head? = some x) ∧
      ∀ x, s.outcomes.head? = some x → (s.settle r).outcomes.head? = some x := by
  cases r with
  | none => exact ⟨hlen, hres, fun _ hx => hx⟩
  | some r =>
      have hnil : s.outcomes = [] := by
        by_contra hne
        cases h hne
      simp [hnil]

/-- A step that changes one call and its handle. -/
theorem OneShot.update {d d' : Desk Req Resp} (ho : d.OneShot) {id : HandleId}
    {c : ClientCall Req Resp} {handle : ResultState (Output Resp)}
    (hcalls : d'.calls = Function.update d.calls id (some c))
    (hhandles : d'.handles = Function.update d.handles id handle)
    (hlen : handle.outcomes.length ≤ 1)
    (hres : ∀ r, handle.result = some r → handle.outcomes.head? = some r)
    (hready : ∀ r, c.phase = .ready r → handle.outcomes.head? = some r) : d'.OneShot := by
  intro id'
  rw [hcalls, hhandles]
  by_cases hid : id' = id
  · subst hid
    simp only [Function.update_self, Option.some.injEq]
    refine ⟨hlen, hres, ?_⟩
    rintro c' r rfl hp
    exact hready r hp
  · simp only [Function.update_of_ne hid]
    exact ho id'

/-- The same for a step that leaves the handle alone. -/
theorem OneShot.update_phase {d d' : Desk Req Resp} (ho : d.OneShot) {id : HandleId}
    {c : ClientCall Req Resp} (hcalls : d'.calls = Function.update d.calls id (some c))
    (hhandles : d'.handles = d.handles) (hready : ∀ r, c.phase ≠ .ready r) : d'.OneShot := by
  have hsame : d'.handles = Function.update d.handles id (d.handles id) := by
    rw [hhandles, Function.update_eq_self]
  exact ho.update hcalls hsame (ho id).1 (ho id).2.1 fun r hp => absurd hp (hready r)

theorem OneShot.step {d d' : Desk Req Resp} {l : Label Req Resp} (hi : d.Inv) (ho : d.OneShot)
    (h : DeskStep L d l d') (hc : d.NoSecondAnswer l) : d'.OneShot := by
  cases h with
  | openCall call taken h =>
      refine ho.update rfl rfl (by simp) (by simp) ?_
      intro r hp
      rcases call.opened_phase taken with ⟨_, _, hphase⟩ | ⟨_, hphase⟩ <;>
        rw [hphase] at hp <;> cases hp
  | accept waker h hp => exact ho.update_phase rfl rfl (by simp)
  | refuse waker h hp => exact ho.update_phase rfl rfl (by simp)
  | @ready id c waker result h hp hr =>
      refine ho.update rfl rfl ?_ ?_ ?_
      · exact (ho id).1
      · rintro r ⟨⟩
      · intro r hready
        rw [← CallPhase.ready.inj hready]
        exact (ho id).2.1 result hr
  | @pending id c waker h hp hr =>
      refine ho.update rfl rfl ?_ ?_ ?_
      · exact (ho id).1
      · exact (ho id).2.1
      · rintro r ⟨⟩
  | pollAgain waker h hp => exact ho.update_phase rfl rfl (by simp)
  | @dropCall id c h =>
      refine ho.update rfl rfl ?_ ?_ ?_
      · exact (ho id).1
      · exact (ho id).2.1
      · rintro r ⟨⟩
  | @handleCommand task swarm hrun hids hresp =>
      intro id
      rw [task.runOutput_apply swarm]
      by_cases hid : id = task.handle
      · subst hid
        have hempty := (hi.unrun task (mem_unrun.mpr (.inl hrun))).2.1
        obtain ⟨hlen, hres, hfirst⟩ := OneShot.settle
          (task.command.run swarm).finished (ho task.handle).1 (ho task.handle).2.1
          (fun hne => absurd hempty hne)
        simp only [Function.update_self]
        exact ⟨hlen, hres, fun c r hc hp => hfirst r ((ho task.handle).2.2 c r hc hp)⟩
      · simp only [Function.update_of_ne hid]
        exact ho id
  | @dispatch event visited skipped out hrun h =>
      have hoff := offered_of_dispatched hi.active_nodup h
      intro id
      rcases hoff.handle_cases id with hh | ⟨t, ht, rfl, hh⟩
      · rw [hh]
        exact ho id
      · obtain ⟨hlen, hres, hfirst⟩ := OneShot.settle
          (t.command.onEvent L event).finished (ho t.handle).1 (ho t.handle).2.1
          (fun hne => hi.finished_none ht hne (hc t ht hne))
        rw [hh]
        exact ⟨hlen, hres, fun c r hc hp => hfirst r ((ho t.handle).2.2 c r hc hp)⟩
  | _ => exact ho

/-- A step outside the condition finishes a handle a second time. -/
theorem not_oneShot_of_second {d d' : Desk Req Resp} {l : Label Req Resp} (hi : d.Inv)
    (h : DeskStep L d l d') (hc : ¬d.NoSecondAnswer l) : ¬d'.OneShot := by
  cases h with
  | @dispatch event visited skipped out hrun h =>
      have hoff := offered_of_dispatched hi.active_nodup h
      simp only [NoSecondAnswer, not_forall, not_not] at hc
      obtain ⟨t, ht, hne, hm⟩ := hc
      have hfin := (Command.matchesConnection_iff (L := L) hm.kind_eq event).mp hm
      obtain ⟨r, hr⟩ := Option.ne_none_iff_exists'.mp hfin
      intro ho
      have hlen := (ho t.handle).1
      rcases hoff.fate t ht with ⟨hh, _⟩ | ⟨_, _, u, _, _, _, _, hown⟩
      · rw [hh, hr, ResultState.settle_some, ResultState.finish_outcomes,
          List.length_append] at hlen
        have hpos := List.length_pos_iff.mpr hne
        simp only [List.length_singleton] at hlen
        omega
      · rw [hm.id?_eq] at hown
        cases hown
  | idle hl =>
      cases l with
      | swarmEvent event => exact hl.elim
      | _ => exact absurd trivial hc
  | _ => exact absurd trivial hc

end Desk

theorem Fresh.oneShot {config : NodeConfig} {n : Node L} (h : Fresh config n) :
    n.desk.OneShot := by
  rw [h.desk_eq]
  intro id
  simp

/-- Every handle is finished once at most, and its first answer is the one the caller gets,
exactly as long as no command that has answered matches a connection event. -/
theorem one_shot_iff {config : NodeConfig} {n m : Node L}
    {π : List (Transition.Trans (Node L) (Label Req Resp))} (hs : Started L config n)
    (h : Run L n π m) :
    (∀ x ∈ π, x.post.desk.OneShot) ↔ ∀ x ∈ π, x.pre.desk.NoSecondAnswer x.label :=
  Transition.Path.safe_iff_meets (I := fun n => n.desk.Inv) (P := fun n => n.desk.OneShot)
    (C := fun n l => n.desk.NoSecondAnswer l) (fun _ _ _ hi hs => hi.step hs.desk)
    (fun _ _ _ hi ho hs hc => ho.step hi hs.desk hc)
    (fun _ _ _ hi hs hc => Desk.not_oneShot_of_second hi hs.desk hc)
    h hs.fresh.inv hs.fresh.oneShot

/-! ### A dial that meets another one

The bootstrap peer is being dialed when a client dials it too. The second attempt is
refused, and then the first one succeeds. -/

namespace Loopback

def dialOpened : Node loopback := bootstrapping.openCall 0 (.dial peer)

def dialQueued : Node loopback :=
  dialOpened.firstPoll 0 ⟨.dial peer, none, .created (.dial ⟨peer⟩)⟩ (.dial ⟨peer⟩) 0

def dialPending : Node loopback := dialQueued.handlePoll 0 ⟨.dial peer, none, .polling 0⟩ 0

def dialReceived : Node loopback :=
  { dialPending.sweep with
    loop := { dialPending.sweep.loop with commandRx := .new _ }
    phase := .running ⟨.dial ⟨peer⟩, 0⟩ }

def dialRefused : Node loopback := dialReceived.handleCommand ⟨.dial ⟨peer⟩, 0⟩

def dialOvertaken : Node loopback :=
  (dialRefused.sweep.withSwarmState { connected := [peer] }).handleSwarmEvent []
    (.connectionEstablished peer 1)

/-- The steps of the second attempt, up to its refusal. -/
def dialSteps : List (Transition.Trans (Node loopback) (Label String String)) :=
  [⟨bootstrapping, .openCall 0 (.dial peer), dialOpened⟩,
    ⟨dialOpened, .firstPoll 0 0, dialQueued⟩,
    ⟨dialQueued, .handlePoll 0, dialPending⟩,
    ⟨dialPending, .sweep, dialPending.sweep⟩,
    ⟨dialPending.sweep, .recvCommand, dialReceived⟩,
    ⟨dialReceived, .handleCommand, dialRefused⟩]

theorem dialSteps_run : Run loopback bootstrapping dialSteps dialRefused :=
  (((((Transition.Path.single (Step.openCall (.dial peer) (by decide) rfl)).snoc
    (.firstPoll 0 rfl rfl)).snoc (.handlePoll rfl rfl)).snoc (.sweep rfl)).snoc
    (.recvCommand rfl rfl)).snoc (.handleCommand rfl)

theorem dialQueued_reachable : Reachable loopback (config [(peer, [])]) dialQueued :=
  ((reachable [(peer, [])]).next (.openCall (.dial peer) (by decide) rfl)).next
    (.firstPoll 0 rfl rfl)

theorem dialReceived_reachable : Reachable loopback (config [(peer, [])]) dialReceived :=
  ((dialQueued_reachable.next (.handlePoll rfl rfl)).next (.sweep rfl)).next
    (.recvCommand rfl rfl)

theorem dialRefused_reachable : Reachable loopback (config [(peer, [])]) dialRefused :=
  dialReceived_reachable.next (.handleCommand rfl)

theorem dialOvertaken_reachable : Reachable loopback (config [(peer, [])]) dialOvertaken :=
  (dialRefused_reachable.next (.sweep rfl)).next
    (.swarmEvent rfl (.inr ⟨by decide, rfl⟩) ⟨List.nodup_nil, fun _ => .rfl⟩)

end Loopback

open Loopback in
/-- Up to the refusal the handle of the dial is finished once. -/
theorem one_shot_iff_refused :
    (dialRefused.handles 0).outcomes = [.error (.dial "dial condition not met")] ∧
      ∀ x ∈ dialSteps, x.post.desk.OneShot :=
  ⟨rfl, (one_shot_iff (started _) dialSteps_run).mpr (by simp [dialSteps, Desk.NoSecondAnswer])⟩

/-- The refused dial answers with an error, which the other attempt overwrites before
the caller polls again. -/
theorem dial_answer_overwritten :
    Reachable loopback (Loopback.config [(Loopback.peer, [])]) Loopback.dialOvertaken ∧
      (Loopback.dialOvertaken.handles 0).outcomes =
        [.error (.dial "dial condition not met"), .ok .unit] ∧
      (Loopback.dialOvertaken.handles 0).result = some (.ok .unit) ∧
      ¬Loopback.dialOvertaken.desk.OneShot := by
  have hout : (Loopback.dialOvertaken.handles 0).outcomes =
      [.error (.dial "dial condition not met"), .ok .unit] := rfl
  refine ⟨Loopback.dialOvertaken_reachable, hout, rfl, ?_⟩
  intro ho
  have hlen : (Loopback.dialOvertaken.handles 0).outcomes.length ≤ 1 := (ho 0).1
  rw [hout] at hlen
  exact absurd hlen (by decide)

end SwarmP2p
