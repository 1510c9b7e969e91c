import SwarmP2p.Library.History
import SwarmP2p.Verification.Call.Answer
import SwarmP2p.Verification.Call.Phases

/-! # Calls that were given up

Dropping a call only marks its handle. The loop removes the command when it next comes to
the head of its cycle, so the command sees one more event at most, whatever else the
callers and the swarm do meanwhile. -/

namespace SwarmP2p

variable {Req Resp : Type} {L : Libp2p Req Resp}

/-- The command of the call is in the chain. -/
def Node.Chained (n : Node L) (id : HandleId) : Prop :=
  ∃ t ∈ n.loop.activeCommands, t.handle = id

instance (n : Node L) (id : HandleId) : Decidable (n.Chained id) :=
  inferInstanceAs (Decidable (∃ t ∈ n.loop.activeCommands, t.handle = id))

/-- The event that a step offers to a chain with the command of the call in it. -/
def offersTo? (id : HandleId) (x : Transition.Trans (Node L) (Label Req Resp)) :
    Option (SwarmEvent Req Resp) :=
  if x.pre.Chained id then x.label.swarmEvent? else none

def offersTo (id : HandleId) (π : List (Transition.Trans (Node L) (Label Req Resp))) :
    List (SwarmEvent Req Resp) :=
  π.filterMap (offersTo? id)

/-! ### Handles of dropped calls -/

/-- The handles of the dropped calls are marked. -/
def Desk.Marked (d : Desk Req Resp) : Prop :=
  ∀ id c, d.calls id = some c → c.phase = .dropped → (d.handles id).cancelled = true

theorem DeskStep.cancelled_stays {d d' : Desk Req Resp} {l : Label Req Resp}
    (hn : (d.active.map Task.handle).Nodup) (h : DeskStep L d l d') {id : HandleId}
    (hcall : d.calls id ≠ none) (hc : (d.handles id).cancelled = true) :
    (d'.handles id).cancelled = true := by
  have hstep := h.handle hn id
  generalize d'.handles id = s at hstep ⊢
  cases hstep with
  | opened call hl h => exact absurd h hcall
  | dropCall hl => rfl
  | ran task swarm hrun hid => exact (ResultState.settle_cancelled _ _).trans hc
  | answered t event hl ht hid => exact (ResultState.settle_cancelled _ _).trans hc
  | _ => exact hc

theorem DeskStep.dropCall_cancelled {d d' : Desk Req Resp} {id : HandleId}
    (h : DeskStep L d (.dropCall id) d') : (d'.handles id).cancelled = true := by
  cases h with
  | idle hl => exact hl.elim
  | dropCall h =>
      show (Function.update d.handles id (d.handles id).cancel id).cancelled = true
      rw [Function.update_self, ResultState.cancel_cancelled]

theorem Desk.Marked.step {d d' : Desk Req Resp} {l : Label Req Resp} (hi : d.Inv)
    (hm : d.Marked) (h : DeskStep L d l d') : d'.Marked := by
  intro id c hc hp
  cases h.callStep hc with
  | same h' => exact h.cancelled_stays hi.active_nodup (by simp [h']) (hm id c h' hp)
  | opened call taken =>
      rcases call.opened_phase taken with ⟨_, _, hphase⟩ | ⟨_, hphase⟩ <;> simp [hphase] at hp
  | firstPoll waker phase hl h' hp' hphase => rcases hphase with rfl | rfl <;> cases hp
  | handlePoll phase hl h' hp' hphase => rcases hphase with rfl | ⟨_, rfl⟩ <;> cases hp
  | pollAgain => cases hp
  | dropCall hl h' =>
      subst hl
      exact h.dropCall_cancelled

theorem Reachable.marked {config : NodeConfig} {n : Node L} (h : Reachable L config n) :
    n.desk.Marked := by
  refine (Transition.Reachable.invariant (I := fun n : Node L => n.desk.Inv ∧ n.desk.Marked) h
    (fun n hs => ⟨hs.fresh.inv, ?_⟩) fun _ _ _ hm hs => ⟨hm.1.step hs.desk, ?_⟩).2
  · rw [hs.fresh.desk_eq]
    intro id c hc
    cases hc
  · exact hm.2.step hm.1 hs.desk

/-! ### The chain in `select!` -/

theorem Node.handleSwarmEvent_not_selecting (n : Node L) (order : List PeerId)
    (event : SwarmEvent Req Resp) : (n.handleSwarmEvent order event).phase ≠ .selecting := by
  rcases n.handleSwarmEvent_cases order event with ⟨_, h⟩ | ⟨_, h⟩
  · rw [h]
    simp
  · rw [h]
    dsimp only
    split <;> simp

theorem Node.pollSend_not_selecting (n : Node L) (event : NodeEvent Req) :
    (n.pollSend event).phase ≠ .selecting := by
  unfold Node.pollSend
  split <;> simp

theorem Node.firstPoll_active (n : Node L) (id : HandleId) (c : ClientCall Req Resp)
    (command : Command Req Resp) (waker : Waker) :
    (n.firstPoll id c command waker).loop.activeCommands = n.loop.activeCommands := by
  unfold firstPoll
  split <;> rfl

/-- The loop comes to `select!` by removing what was cancelled, and stays there until it
takes up something. -/
theorem Step.selecting {n m : Node L} {l : Label Req Resp} (h : Step n l m)
    (hm : m.phase = .selecting) :
    (l = .sweep ∧ m = n.sweep) ∨
      ((∀ event, l ≠ .swarmEvent event) ∧ n.phase = .selecting ∧
        m.loop.activeCommands = n.loop.activeCommands) := by
  cases h with
  | sweep hp => exact .inl ⟨rfl, rfl⟩
  | firstPoll waker h hp =>
      exact .inr ⟨by simp, by rwa [Node.firstPoll_phase] at hm, n.firstPoll_active _ _ _ _⟩
  | swarmEvent hp h ho => exact absurd hm (Node.handleSwarmEvent_not_selecting _ _ _)
  | beginSend hp => exact absurd hm (n.pollSend_not_selecting _)
  | resumeSend hp h => exact absurd hm (n.pollSend_not_selecting _)
  | recvCommand | handleCommand | inboundChannel | shutdown => cases hm
  | _ => exact .inr ⟨by simp, hm, rfl⟩

theorem Step.eq_sweep {n m : Node L} (h : Step n .sweep m) : m = n.sweep := by
  cases h with
  | sweep hp => rfl

/-! ### What a cancelled command still sees -/

/-- One event may still come when the loop stands in `select!` with the command in its
chain. -/
def Node.exposure (id : HandleId) (n : Node L) : ℕ :=
  match n.phase with
  | .selecting => if n.Chained id then 1 else 0
  | _ => 0

def offersCount (id : HandleId) (x : Transition.Trans (Node L) (Label Req Resp)) : ℕ :=
  (offersTo? id x).toList.length

/-- What is true of a call from the moment in which it is dropped. -/
structure Node.GaveUp (id : HandleId) (n : Node L) : Prop where
  inv : n.desk.Inv
  call : n.calls id ≠ none
  cancelled : (n.handles id).cancelled = true

theorem Node.GaveUp.step {id : HandleId} {n m : Node L} {l : Label Req Resp}
    (hg : n.GaveUp id) (h : Step n l m) : m.GaveUp id :=
  ⟨hg.inv.step h.desk, h.desk.made hg.call,
    h.desk.cancelled_stays hg.inv.active_nodup hg.call hg.cancelled⟩

theorem Node.GaveUp.sweep {id : HandleId} {n : Node L} (hg : n.GaveUp id) :
    ¬n.sweep.Chained id := by
  rintro ⟨t, ht, rfl⟩
  have hkept := (List.mem_filter.mp ht).2
  rw [hg.cancelled] at hkept
  cases hkept

theorem Node.exposure_of_ne {id : HandleId} {n : Node L} (h : n.phase ≠ .selecting) :
    n.exposure id = 0 := by
  unfold exposure
  split
  · exact absurd ‹_› h
  · rfl

theorem Node.exposure_selecting {id : HandleId} {n : Node L} (h : n.phase = .selecting) :
    n.exposure id = if n.Chained id then 1 else 0 := by
  rw [exposure, h]

theorem Node.GaveUp.pays {id : HandleId} {n m : Node L} {l : Label Req Resp}
    (hg : n.GaveUp id) (h : Step n l m) :
    m.exposure id + offersCount id ⟨n, l, m⟩ ≤ n.exposure id := by
  by_cases hevent : ∃ event, l = .swarmEvent event
  · obtain ⟨event, rfl⟩ := hevent
    have hn : n.phase = .selecting := by
      cases h with
      | swarmEvent hp => exact hp
    have hm : m.phase ≠ .selecting := by
      cases h with
      | swarmEvent hp => exact Node.handleSwarmEvent_not_selecting _ _ _
    rw [exposure_of_ne hm, exposure_selecting hn, offersCount, offersTo?]
    split <;> simp [Label.swarmEvent?]
  · have hcost : offersCount id ⟨n, l, m⟩ = 0 := by
      have hnone : l.swarmEvent? = none := by
        unfold Label.swarmEvent?
        split
        · exact absurd ⟨_, rfl⟩ hevent
        · rfl
      simp [offersCount, offersTo?, hnone]
    rw [hcost, Nat.add_zero]
    by_cases hm : m.phase = .selecting
    · rcases h.selecting hm with ⟨rfl, rfl⟩ | ⟨_, hn, hsame⟩
      · rw [exposure_selecting hm, if_neg hg.sweep]
        exact Nat.zero_le _
      · have hchained : m.Chained id ↔ n.Chained id := by rw [Node.Chained, hsame, Node.Chained]
        rw [exposure_selecting hm, exposure_selecting hn]
        simp only [hchained, le_refl]
    · rw [exposure_of_ne hm]
      exact Nat.zero_le _

theorem offersTo_length (id : HandleId) (π : List (Transition.Trans (Node L) (Label Req Resp))) :
    (offersTo id π).length = (π.map (offersCount id)).sum := by
  induction π with
  | nil => rfl
  | cons x π ih =>
      rw [List.map_cons, List.sum_cons, ← ih, offersTo, offersTo, List.filterMap_cons,
        offersCount]
      cases offersTo? id x <;> simp [Nat.add_comm]

theorem Reachable.gaveUp {config : NodeConfig} {n : Node L} (h : Reachable L config n)
    {id : HandleId} {c : ClientCall Req Resp} (hc : n.calls id = some c)
    (hd : c.phase = .dropped) : n.GaveUp id :=
  ⟨h.inv, by simp [hc], h.marked id c hc hd⟩

theorem Node.exposure_le_one (n : Node L) {id : HandleId} : n.exposure id ≤ 1 := by
  unfold exposure
  split
  · split <;> simp
  · simp

theorem Node.GaveUp.offered {id : HandleId} {n m : Node L}
    {ρ : List (Transition.Trans (Node L) (Label Req Resp))} (hg : n.GaveUp id)
    (h : Run L n ρ m) : (offersTo id ρ).length ≤ n.exposure id := by
  rw [offersTo_length]
  exact (Nat.le_add_left _ _).trans (h.potential (I := Node.GaveUp id)
    (fun _ _ _ hg hs => hg.step hs) (fun _ _ _ hg hs => hg.pays hs) hg)

theorem Node.GaveUp.swept {id : HandleId} {n m : Node L}
    {ρ : List (Transition.Trans (Node L) (Label Req Resp))} (hg : n.GaveUp id)
    (h : Run L n ρ m) {x : Transition.Trans (Node L) (Label Req Resp)} (hx : x ∈ ρ)
    (hl : x.label = .sweep) : ¬x.post.Chained id := by
  obtain ⟨χ, _, _, hbefore, hs, _⟩ := h.split hx
  have hgx : x.pre.GaveUp id := hbefore.invariant hg fun _ _ _ hg hs => hg.step hs
  rw [hl] at hs
  rw [hs.eq_sweep]
  exact hgx.sweep

/-- From the moment in which a call is dropped, its command is offered one event at most,
and none if the loop is not in `select!` just then; and each time the loop comes to the head
of its cycle, the chain is without it. -/
theorem cancelled_commands_leave {config : NodeConfig} {n m : Node L}
    {ρ : List (Transition.Trans (Node L) (Label Req Resp))} {id : HandleId}
    {c : ClientCall Req Resp} (hr : Reachable L config n) (hc : n.calls id = some c)
    (hd : c.phase = .dropped) (h : Run L n ρ m) :
    (offersTo id ρ).length ≤ 1 ∧ (n.phase ≠ .selecting → offersTo id ρ = []) ∧
      ∀ x ∈ ρ, x.label = .sweep → ∀ t ∈ x.post.loop.activeCommands, t.handle ≠ id := by
  have hg := hr.gaveUp hc hd
  have hbound := hg.offered h
  refine ⟨hbound.trans (n.exposure_le_one), fun hn => ?_, fun x hx hl t ht hid => ?_⟩
  · rw [Node.exposure_of_ne hn] at hbound
    exact List.length_eq_zero_iff.mp (Nat.le_zero.mp hbound)
  · exact hg.swept h hx hl ⟨t, ht, hid⟩

namespace Loopback

/-- A client gives up a dial whose command is in the chain. -/
def dialDropped : Node loopback :=
  dialRefused.sweep.dropCall 0 ⟨.dial peer, none, .pending⟩

def dialPinged : Node loopback :=
  (dialDropped.withSwarmState dialDropped.loop.swarm.state).handleSwarmEvent [] pingEvent

theorem dialDropped_reachable : Reachable loopback (config [(peer, [])]) dialDropped :=
  (dialRefused_reachable.next (.sweep rfl)).next (.dropCall rfl (by simp))

end Loopback

open Loopback in
theorem cancelled_commands_leave_dial :
    offersTo 0 [⟨dialDropped, .swarmEvent pingEvent, dialPinged⟩] = [pingEvent] ∧
      (offersTo 0 [⟨dialDropped, .swarmEvent pingEvent, dialPinged⟩]).length ≤ 1 := by
  have hrun : Run loopback dialDropped [⟨dialDropped, .swarmEvent pingEvent, dialPinged⟩]
      dialPinged := .single (.swarmEvent rfl rfl ⟨List.nodup_nil, fun _ => .rfl⟩)
  exact ⟨rfl, (cancelled_commands_leave (c := ⟨.dial peer, none, .dropped⟩)
    dialDropped_reachable rfl rfl hrun).1⟩

end SwarmP2p
