import SwarmP2p.Verification.Call.Order
import SwarmP2p.Verification.Node.Shutdown

/-! # Every command gets its turn

A command that the channel has accepted is never more than a bounded number of own steps
away from being run. What comes from outside can put it off, and the owner of the receiver
can keep the loop waiting, but as long as it does not wait for a call itself, the node can
always go on. -/

namespace SwarmP2p

variable {Req Resp : Type} {L : Libp2p Req Resp}

/-- The owner of the receiver does not wait for a call. -/
def Node.Attentive (n : Node L) : Prop := ∀ id, n.frontend ≠ .awaiting id

/-- The work that is left when both queues are full. -/
def maxWork : ℕ := 3 * commandChannelSize + 2 * eventChannelSize + 8

theorem Frontend.work_le (frontend : Frontend) : frontend.work ≤ 2 := by
  cases frontend <;> simp [work]

theorem Node.work_le (n : Node L) : n.work ≤ maxWork := by
  have hcommands := n.loop.commandRx.bounded
  have hevents := n.loop.eventTx.bounded
  have hphase := n.phase.work_le
  have hfrontend := n.frontend.work_le
  unfold work maxWork
  omega

/-- An own step starts no wait. -/
theorem Node.Attentive.step {n m : Node L} {l : Label Req Resp} (hn : n.Attentive)
    (h : Step n l m) (hl : l.own = 1) : m.Attentive := by
  intro id hid
  have hfrontend := h.frontendStep
  rw [hid] at hfrontend
  generalize hf : Frontend.awaiting id = f at hfrontend
  cases hfrontend with
  | same => exact hn id hf.symm
  | awaiting hawait =>
      subst hawait
      cases hl
  | handling | receiving | closed => cases hf

/-- While a command waits for its turn, the loop has something to do. -/
theorem Reachable.goes_on {config : NodeConfig} {n : Node L} (hr : Reachable L config n)
    {task : Task Req Resp} (ht : task ∈ n.desk.unrun) (hn : n.Attentive) : n.GoesOn := by
  refine hr.attended.goes_on (fun hterminated => ?_) (fun hp => ?_)
    fun id hid => absurd hid (hn id)
  · rw [hr.drained hterminated] at ht
    cases ht
  · cases hrecv : n.loop.commandRx.tryRecv with
    | some x => exact ⟨.recvCommand, _, rfl, .recvCommand hp hrecv⟩
    | none =>
        have hempty : n.desk.unrun = [] := by
          simp [Desk.unrun, Node.desk, hp, LoopPhase.task?, Channel.tryRecv_eq_none hrecv]
        rw [hempty] at ht
        cases ht

/-- A command stops waiting for its turn when it is run. -/
theorem Run.leaves_unrun {n m : Node L} {ρ : List (Transition.Trans (Node L) (Label Req Resp))}
    (h : Run L n ρ m) {task : Task Req Resp} (ht : task ∈ n.desk.unrun)
    (hm : task ∉ m.desk.unrun) : task ∈ executed ρ := by
  obtain ⟨x, hx, hs, hbefore, hafter⟩ := h.happens
    (P := fun n : Node L => task ∉ n.desk.unrun) (not_not_intro ht) hm
  have hmem : task ∈ (x.pre.desk.executed? x.label).toList ++ x.post.desk.unrun :=
    hs.desk.fifo ▸ List.mem_append_left _ (not_not.mp hbefore)
  exact List.mem_flatMap.mpr ⟨x, hx, (List.mem_append.mp hmem).resolve_right hafter⟩

/-- As long as a command that waits for its turn is not run, the node takes no more own
steps than it has work and gets from outside, and can take one unless the owner of the
receiver waits for a call. If it does not, own steps alone get the command run. -/
theorem commands_get_run {config : NodeConfig} {n : Node L} {task : Task Req Resp}
    (hr : Reachable L config n) (ht : task ∈ n.desk.unrun) :
    (∀ ρ m, Run L n ρ m → task ∉ executed ρ →
      (ρ.map fun x => x.label.own).sum ≤ maxWork + (ρ.map fun x => x.label.load).sum ∧
        (m.Attentive → m.GoesOn)) ∧
      (n.Attentive → ∃ ρ m, Run L n ρ m ∧ task ∈ executed ρ ∧ ρ.length ≤ maxWork ∧
        ∀ x ∈ ρ, x.label.own = 1) := by
  refine ⟨fun ρ m h hno => ⟨?_, ?_⟩, fun hn => ?_⟩
  · have hbudget : m.work + (ρ.map fun x => x.label.own).sum ≤
        n.work + (ρ.map fun x => x.label.load).sum :=
      h.budget (I := fun _ => True) (fun _ _ _ _ _ => trivial) (fun _ _ _ _ hs => hs.pays)
        trivial
    have hwork := n.work_le
    omega
  · have hreach : Reachable L config m := hr.path h
    have hwaits : task ∈ m.desk.unrun := by
      by_contra hm
      exact hno (h.leaves_unrun ht hm)
    exact hreach.goes_on hwaits
  · obtain ⟨ρ, m, h, hm, hlen, hown⟩ := Transition.exists_path_to
      (I := fun a : Node L => Reachable L config a ∧ a.Attentive)
      (fun a => task ∉ a.desk.unrun) (fun l : Label Req Resp => l.own = 1) Node.work
      (fun _ _ _ ha hl hs => ⟨ha.1.next hs, ha.2.step hs hl⟩)
      (fun a ha hwaits => by
        obtain ⟨l, b, hl, hs⟩ := ha.1.goes_on (not_not.mp hwaits) ha.2
        exact ⟨l, b, hl, hs, hs.work_lt hl⟩) ⟨hr, hn⟩
    exact ⟨ρ, m, h, Run.leaves_unrun h ht hm, hlen.trans n.work_le, hown⟩

open Loopback in
theorem commands_get_run_queued :
    ∃ ρ m, Run loopback dialQueued ρ m ∧ ⟨.dial ⟨peer⟩, 0⟩ ∈ executed ρ ∧
      ρ.length ≤ maxWork ∧ ∀ x ∈ ρ, x.label.own = 1 :=
  (commands_get_run dialQueued_reachable (List.mem_singleton.mpr rfl)).2 fun id hid => by cases hid

end SwarmP2p
