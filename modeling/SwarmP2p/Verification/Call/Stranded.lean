import SwarmP2p.Verification.Call.OneShot

/-! # No stranded caller

A call that waits can still be answered: its command has a place, or its result is
stored. The chain lets a command go only when this stays true, and the loop ends only
when nobody waits. -/

namespace SwarmP2p

variable {Req Resp : Type} {L : Libp2p Req Resp}

/-- The command of a call is queued, being run or in the chain, or its result is
stored. -/
def Node.Served (n : Node L) (id : HandleId) : Prop :=
  (∃ t ∈ n.loop.commandRx.queue, t.handle = id) ∨
    (∃ t, n.phase = .running t ∧ t.handle = id) ∨
    (∃ t ∈ n.loop.activeCommands, t.handle = id) ∨
    (n.handles id).result.isSome

theorem LoopPhase.task?_eq_some {phase : LoopPhase Req Resp} {t : Task Req Resp} :
    phase.task? = some t ↔ phase = .running t := by
  cases phase <;> simp [task?]

theorem Desk.Inv.served {n : Node L} (hi : n.desk.Inv) {id : HandleId}
    {c : ClientCall Req Resp} (h : n.calls id = some c) (hw : c.phase.Waiting) :
    n.Served id := by
  rcases hi.waiting id c h hw with ⟨t, ht, hid⟩ | hr
  · rcases mem_tasks.mp ht with ht | ht
    · rcases mem_unrun.mp ht with ht | ht
      · exact .inr (.inl ⟨t, LoopPhase.task?_eq_some.mp ht, hid⟩)
      · exact .inl ⟨t, ht, hid⟩
    · exact .inr (.inr (.inl ⟨t, ht, hid⟩))
  · exact .inr (.inr (.inr hr))

/-- A task leaves the chain answered or abandoned. -/
theorem Desk.Inv.leaves {d d' : Desk Req Resp} {l : Label Req Resp} (hi : d.Inv)
    (h : DeskStep L d l d') {t : Task Req Resp} (ht : t ∈ d.active)
    (hgone : ∀ u ∈ d'.active, u.handle ≠ t.handle) :
    (d'.handles t.handle).outcomes ≠ [] ∨
      ∃ c, d'.calls t.handle = some c ∧ c.phase = .dropped := by
  cases l with
  | swarmEvent event =>
      have ho := h.offered hi.active_nodup
      rcases ho.fate t ht with ⟨hh, hactive⟩ | ⟨hh, hactive, _⟩
      · have hkeep : (t.command.onEvent L event).keep = false := by
          by_contra hk
          simp only [Bool.not_eq_false] at hk
          exact hgone _ ((hactive _).mpr ⟨hk, rfl⟩).1 rfl
        refine .inl ?_
        rw [hh, ResultState.settle_outcomes]
        rcases Command.onEvent_leaves hkeep with hf | hk
        · obtain ⟨r, hr⟩ := Option.ne_none_iff_exists'.mp hf
          simp [hr]
        · simp [hi.prompt t ht hk]
      · exact absurd rfl (hgone t ((hactive t).mpr rfl).1)
  | _ => exact (hi.stays h (by simp) ht).elim (fun ht => absurd rfl (hgone t ht)) .inr

/-- A caller that waits has a command on its way or a result; a command that leaves the chain
has answered, unless its caller gave up; and nobody waits once the loop has ended. -/
theorem no_stranded_caller {config : NodeConfig} {n : Node L} (h : Reachable L config n) :
    (∀ id c, n.calls id = some c → c.phase.Waiting → n.Served id) ∧
      (∀ l m, Step n l m → ∀ t ∈ n.loop.activeCommands,
        (∀ u ∈ m.loop.activeCommands, u.handle ≠ t.handle) →
        (m.handles t.handle).outcomes ≠ [] ∨
          ∃ c, m.calls t.handle = some c ∧ c.phase = .dropped) ∧
      (n.phase = .terminated → ∀ id c, n.calls id = some c → ¬c.phase.Waiting) := by
  refine ⟨fun id c => h.inv.served, ?_, ?_⟩
  · intro l m hs t ht hgone
    exact h.inv.leaves hs.desk ht hgone
  · intro hterm id c hc hw
    refine (h.wired.noSenders hterm).2 id c hc ?_
    cases hp : c.phase <;> simp_all [CallPhase.Waiting, CallPhase.HoldsSender]

theorem no_stranded_caller_queued : Loopback.dialQueued.Served 0 :=
  (no_stranded_caller Loopback.dialQueued_reachable).1 0 _ rfl trivial

end SwarmP2p
