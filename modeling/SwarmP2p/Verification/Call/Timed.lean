import SwarmP2p.Model.Timed
import SwarmP2p.Verification.Call.Cancelled

/-! # Requests that time out

Seen without its timers, a run of timed requests is a run of the node in which the calls
that time out are dropped, so that what holds of every run and what becomes of a dropped
call holds of them too. -/

namespace SwarmP2p

variable {Req Resp : Type} {L : Libp2p Req Resp}

/-! ### The run of the node -/

/-- The step of the node under a step of timed requests. -/
def TimedLabel.node? : TimedLabel Req Resp → Option (Label Req Resp)
  | .node l => some l
  | .sendRequest id peerId request _ => some (.openCall id (.sendRequest peerId request))
  | .waits _ => none
  | .elapses id => some (.dropCall id)

def nodeSteps (π : List (Transition.Trans (TimedNode L) (TimedLabel Req Resp))) :
    List (Transition.Trans (Node L) (Label Req Resp)) :=
  π.filterMap fun x => x.label.node?.map (⟨x.pre.node, ·, x.post.node⟩)

theorem TimedStep.node_step {t u : TimedNode L} {l : TimedLabel Req Resp}
    {k : Label Req Resp} (h : TimedStep t l u) (hl : l.node? = some k) :
    Step t.node k u.node := by
  cases h with
  | waits => cases hl
  | node h | poll _ _ _ h | sendRequest _ _ _ h | ready _ h | pending _ h | elapses _ _ h =>
      cases hl
      exact h

theorem TimedStep.node_idle {t u : TimedNode L} {l : TimedLabel Req Resp}
    (h : TimedStep t l u) (hl : l.node? = none) : u.node = t.node := by
  cases h with
  | waits => rfl
  | _ => cases hl

theorem TimedRun.node {t u : TimedNode L}
    {π : List (Transition.Trans (TimedNode L) (TimedLabel Req Resp))} (h : TimedRun L t π u) :
    Run L t.node (nodeSteps π) u.node :=
  Transition.Path.project TimedNode.node (fun x => x.label.node?)
    (fun _ _ _ _ hs hl => hs.node_step hl) (fun _ _ _ hs hl => hs.node_idle hl) h

/-! ### Timers -/

def Timer.deadline : Timer → Nat
  | .armed deadline | .asked deadline | .elapsed deadline => deadline

/-- The step armed the timer of the call. -/
def Arms (id : HandleId) (deadline : Nat)
    (x : Transition.Trans (TimedNode L) (TimedLabel Req Resp)) : Prop :=
  ∃ peerId request options timeout, x.label = .sendRequest id peerId request options ∧
    options.timeout = some timeout ∧ x.pre.node.now + timeout = deadline

/-- The call whose future a step polls or drops. -/
def TimedLabel.future? (l : TimedLabel Req Resp) : Option HandleId :=
  l.node?.bind Label.future?

/-- What a step does to the timer of a call. -/
inductive TimerStep (t : TimedNode L) (l : TimedLabel Req Resp) (u : TimedNode L)
    (id : HandleId) : Option Timer → Prop where
  | same (h : l.future? = some id → ∀ x, t.timer id = some x → ∃ deadline, x = .armed deadline) :
      TimerStep t l u id (t.timer id)
  | sent {peerId request options} (hl : l = .sendRequest id peerId request options)
      (h : t.node.calls id = none) (hu : u.node.calls id ≠ none) :
      TimerStep t l u id (options.timeout.map fun timeout => .armed (t.node.now + timeout))
  | asked {deadline c} (ht : t.timer id = some (.armed deadline))
      (hc : u.node.calls id = some c) (hp : c.phase = .pending) :
      TimerStep t l u id (some (.asked deadline))
  | waits {deadline} (ht : t.timer id = some (.asked deadline)) (hu : u.node = t.node) :
      TimerStep t l u id (some (.armed deadline))
  | elapses {deadline c} (ht : t.timer id = some (.asked deadline)) (hl : l = .elapses id)
      (hd : deadline ≤ t.node.now) (hc : u.node.calls id = some c) (hp : c.phase = .dropped) :
      TimerStep t l u id (some (.elapsed deadline))

theorem TimerStep.set {t u : TimedNode L} {l : TimedLabel Req Resp} {id id' : HandleId}
    {timer : Option Timer} (hl : l.future? ≠ some id' → l.future? = none)
    (hu : u.timer = Function.update t.timer id' timer) (h : TimerStep t l u id' timer) :
    TimerStep t l u id (u.timer id) := by
  by_cases hid : id = id'
  · subst hid
    rw [hu, Function.update_self]
    exact h
  · rw [hu, Function.update_of_ne hid]
    refine .same fun hf => ?_
    rw [hl (by rw [hf]; simpa using hid)] at hf
    cases hf

theorem Step.openCall_calls {n m : Node L} {id : HandleId} {call : Call Req Resp}
    (h : Step n (.openCall id call) m) : n.calls id = none ∧ m.calls id ≠ none := by
  cases h with
  | openCall call hc h => exact ⟨h, by simp [Node.openCall]⟩

theorem Step.dropCall_calls {n m : Node L} {id : HandleId} (h : Step n (.dropCall id) m) :
    ∃ c, m.calls id = some c ∧ c.phase = .dropped := by
  cases h with
  | dropCall h hp => exact ⟨_, Function.update_self _ _ _, rfl⟩

theorem TimedStep.timerStep {t u : TimedNode L} {l : TimedLabel Req Resp}
    (h : TimedStep t l u) (id : HandleId) : TimerStep t l u id (u.timer id) := by
  cases h with
  | node h hfree => exact .same fun hf x hx => by simp [hfree id hf] at hx
  | poll ht hl hne h =>
      refine .same fun hf x hx => ?_
      obtain rfl := Option.some.inj (hl.symm.trans hf)
      exact ⟨_, Option.some.inj (hx.symm.trans ht)⟩
  | ready ht h hp =>
      refine .same fun hf x hx => ?_
      obtain rfl := Option.some.inj hf
      exact ⟨_, Option.some.inj (hx.symm.trans ht)⟩
  | sendRequest peerId request options h =>
      exact .set (fun _ => rfl) rfl (.sent rfl h.openCall_calls.1 h.openCall_calls.2)
  | pending ht h hc hp => exact .set (absurd rfl) rfl (.asked ht hc hp)
  | waits ht hd => exact .set (fun _ => rfl) rfl (.waits ht rfl)
  | elapses ht hd h =>
      obtain ⟨c, hc, hp⟩ := h.dropCall_calls
      exact .set (absurd rfl) rfl (.elapses ht rfl hd hc hp)

/-! ### The call under its timer -/

/-- The phases of a call with such a timer. -/
def Timer.Allows : Timer → CallPhase Req Resp → Prop
  | .armed _, _ => True
  | .asked _, phase => phase = .pending
  | .elapsed _, phase => phase = .dropped

def TimedNode.Inv (t : TimedNode L) : Prop :=
  ∀ id x, t.timer id = some x → ∃ c, t.node.calls id = some c ∧ x.Allows c.phase

/-- Only its own polls, and its drop, change a call. -/
theorem Step.call_kept {n m : Node L} {l : Label Req Resp} {id : HandleId}
    {c : ClientCall Req Resp} (h : Step n l m) (hl : l.future? ≠ some id)
    (hc : n.calls id = some c) : m.calls id = some c := by
  obtain ⟨c', hc', _⟩ := Desk.SameCalls.of_step h.desk id c hc
  cases h.desk.callStep hc' with
  | same h' => exact hc'.trans (h'.symm.trans hc)
  | opened _ _ _ h' => exact absurd (hc.symm.trans h') (by simp)
  | firstPoll _ _ hl' | handlePoll _ hl' | pollAgain _ hl' | dropCall hl' =>
      exact absurd (by rw [hl']; rfl) hl

theorem TimedStep.call_kept {t u : TimedNode L} {l : TimedLabel Req Resp} {id : HandleId}
    {c : ClientCall Req Resp} (h : TimedStep t l u) (hl : l.future? ≠ some id)
    (hc : t.node.calls id = some c) : u.node.calls id = some c := by
  cases hk : l.node? with
  | none => rw [h.node_idle hk, hc]
  | some k => exact (h.node_step hk).call_kept (by simpa [TimedLabel.future?, hk] using hl) hc

theorem TimedStep.made {t u : TimedNode L} {l : TimedLabel Req Resp} {id : HandleId}
    (h : TimedStep t l u) (hc : t.node.calls id ≠ none) : u.node.calls id ≠ none := by
  cases hk : l.node? with
  | none => rwa [h.node_idle hk]
  | some k => exact (h.node_step hk).desk.made hc

theorem TimedNode.Inv.step {t u : TimedNode L} {l : TimedLabel Req Resp} (hi : t.Inv)
    (h : TimedStep t l u) : u.Inv := by
  intro id x hx
  have hstep := h.timerStep id
  rw [hx] at hstep
  generalize ho : some x = o at hstep
  cases hstep with
  | same hf =>
      obtain ⟨c, hc, ha⟩ := hi id x ho.symm
      by_cases hl : l.future? = some id
      · obtain ⟨deadline, rfl⟩ := hf hl x ho.symm
        have hmade : t.node.calls id ≠ none := by simp [hc]
        obtain ⟨c', hc'⟩ := Option.ne_none_iff_exists'.mp (h.made hmade)
        exact ⟨c', hc', trivial⟩
      · exact ⟨c, h.call_kept hl hc, ha⟩
  | @sent peerId request options hl hn hu =>
      obtain ⟨c, hc⟩ := Option.ne_none_iff_exists'.mp hu
      obtain ⟨timeout, _, rfl⟩ := Option.map_eq_some_iff.mp ho.symm
      exact ⟨c, hc, trivial⟩
  | asked ht hc hp =>
      cases ho
      exact ⟨_, hc, hp⟩
  | waits ht hu =>
      cases ho
      obtain ⟨c, hc, _⟩ := hi id _ ht
      exact ⟨c, by rw [hu, hc], trivial⟩
  | elapses ht hl hd hc hp =>
      cases ho
      exact ⟨_, hc, hp⟩

theorem TimedStarted.inv {config : NodeConfig} {t : TimedNode L} (h : TimedStarted L config t) :
    t.Inv := by
  intro id x hx
  rw [h.timer] at hx
  cases hx

/-- A timer has the deadline that it was given when the request was made. -/
theorem TimedRun.armed {t u : TimedNode L}
    {π : List (Transition.Trans (TimedNode L) (TimedLabel Req Resp))}
    (h0 : ∀ id, t.timer id = none) (h : TimedRun L t π u) {id : HandleId} {x : Timer}
    (hu : u.timer id = some x) : ∃ y ∈ π, Arms id x.deadline y := by
  induction h generalizing x with
  | nil =>
      rw [h0] at hu
      cases hu
  | @snoc π t l u hp hs ih =>
      have hbefore {x' : Timer} (ht : t.timer id = some x') (hd : x'.deadline = x.deadline) :
          ∃ y ∈ π ++ [⟨t, l, u⟩], Arms id x.deadline y := by
        obtain ⟨y, hy, ha⟩ := ih ht
        exact ⟨y, List.mem_append_left _ hy, hd ▸ ha⟩
      have hstep := hs.timerStep id
      rw [hu] at hstep
      generalize ho : some x = o at hstep
      cases hstep with
      | same => exact hbefore ho.symm rfl
      | sent hl =>
          obtain ⟨timeout, htimeout, rfl⟩ := Option.map_eq_some_iff.mp ho.symm
          exact ⟨⟨t, l, u⟩, by simp, _, _, _, timeout, hl, htimeout, rfl⟩
      | asked ht | waits ht | elapses ht =>
          cases ho
          exact hbefore ht rfl

namespace Loopback

end Loopback

end SwarmP2p
