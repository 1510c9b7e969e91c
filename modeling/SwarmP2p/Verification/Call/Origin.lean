import SwarmP2p.Verification.Node.Run

/-! # Where commands come from

A command still tells which call made it: whom it dials, and which response it hands
over on which channel. -/

namespace SwarmP2p

variable {Req Resp : Type} {L : Libp2p Req Resp}

/-! ### What a command keeps of its call -/

namespace Command

/-- The peer that a dial command dials. -/
def dialTarget? : Command Req Resp → Option PeerId
  | .dial c => some c.peerId
  | _ => none

theorem dialTarget?_of_kind_ne {c : Command Req Resp} (hk : c.kind ≠ .connection) :
    c.dialTarget? = none := by
  cases c with
  | dial c => exact absurd rfl hk
  | _ => rfl

theorem response?_of_kind_ne {c : Command Req Resp} (hk : c.kind ≠ .prompt) :
    c.response? = none := by
  cases c with
  | sendResponse c => exact absurd rfl hk
  | _ => rfl

theorem onEvent_dialTarget? (c : Command Req Resp) (event : SwarmEvent Req Resp) :
    (c.onEvent L event).handler.dialTarget? = c.dialTarget? := by
  by_cases hk : c.kind = .connection
  · rw [(connection_spec L hk event).handler_eq]
  · rw [dialTarget?_of_kind_ne hk, dialTarget?_of_kind_ne]
    rwa [onEvent_kind]

theorem onEvent_response? (c : Command Req Resp) (event : SwarmEvent Req Resp) :
    (c.onEvent L event).handler.response? = c.response? := by
  by_cases hk : c.kind = .prompt
  · rw [prompt_spec L hk event, defaultOnEvent]
  · rw [response?_of_kind_ne hk, response?_of_kind_ne]
    rwa [onEvent_kind]

end Command

def Call.dialTarget? : Call Req Resp → Option PeerId
  | .dial peerId => some peerId
  | _ => none

/-- The command may be that of a call which took `taken` from the pending map. -/
structure Command.Follows (command : Command Req Resp) (c : ClientCall Req Resp) : Prop where
  dialTarget : command.dialTarget? = c.call.dialTarget?
  response : ∀ channel response, command.response? = some (channel, response) →
    c.taken = some channel ∧ ∃ pendingId, c.call = .sendResponse pendingId response

theorem Command.Follows.of_eq {command command' : Command Req Resp} {c c' : ClientCall Req Resp}
    (h : command.Follows c) (hdial : command'.dialTarget? = command.dialTarget?)
    (hresponse : command'.response? = none ∨ command'.response? = command.response?)
    (hcall : c'.call = c.call) (htaken : c'.taken = c.taken) : command'.Follows c' := by
  refine ⟨by rw [hdial, hcall, h.dialTarget], ?_⟩
  intro channel response hr
  rw [hcall, htaken]
  rcases hresponse with hnone | heq
  · rw [hnone] at hr
    cases hr
  · exact h.response channel response (heq ▸ hr)

theorem Call.command_follows {c : ClientCall Req Resp} {command : Command Req Resp}
    (h : c.call.command c.taken = some command) : command.Follows c := by
  obtain ⟨call, taken, phase⟩ := c
  cases call with
  | sendResponse pendingId response =>
      obtain ⟨channel, htaken, rfl⟩ := Option.map_eq_some_iff.mp h
      refine ⟨rfl, ?_⟩
      intro ch resp hr
      obtain ⟨rfl, rfl⟩ := Prod.mk.inj (Option.some.inj hr)
      exact ⟨htaken, pendingId, rfl⟩
  | _ =>
      obtain rfl := Option.some.inj h
      exact ⟨rfl, fun _ _ hr => by cases hr⟩

theorem Task.afterRun_follows {t : Task Req Resp} {c : ClientCall Req Resp}
    (h : t.command.Follows c) (hid : t.command.ownId? = none) (swarm : Swarm L) :
    (t.afterRun swarm).command.Follows c := by
  have hspec := Command.run_spec hid swarm
  refine h.of_eq ?_ (.inl ?_) rfl rfl
  · by_cases hk : t.command.kind = .connection
    · have hkr : (t.command.run swarm).handler.kind ≠ .prompt := by
        rw [hspec.kind_eq, hk]
        simp
      have hcommand : (t.afterRun swarm).command =
          (t.command.run swarm).handler.takeRelayReservationRequest.1 := rfl
      rw [hcommand, Command.takeRelayReservationRequest_of_kind_ne hkr, hspec.connection hk]
    · rw [Command.dialTarget?_of_kind_ne hk, Command.dialTarget?_of_kind_ne]
      intro hkr
      have hkind := Command.takeRelayReservationRequest_kind (t.command.run swarm).handler
      rw [hspec.kind_eq] at hkind
      exact hk (hkind.symm.trans hkr)
  · exact (Command.takeRelayReservationRequest_response? _).trans hspec.response_none

theorem Task.afterEvent_follows {t : Task Req Resp} {c : ClientCall Req Resp}
    (h : t.command.Follows c) (event : SwarmEvent Req Resp) :
    (t.afterEvent L event).command.Follows c :=
  h.of_eq (Command.onEvent_dialTarget? _ _) (.inr (Command.onEvent_response? _ _)) rfl rfl

/-! ### The invariant -/

namespace Desk

structure Origins (d : Desk Req Resp) : Prop where
  unsent : ∀ id c command, d.calls id = some c →
    c.phase = .created command ∨ c.phase = .refused command →
      c.call.command c.taken = some command
  failed : ∀ id c error, d.calls id = some c → c.phase = .failed error →
    c.call.command c.taken = none
  task : ∀ t ∈ d.tasks, ∃ c, d.calls t.handle = some c ∧ t.command.Follows c

/-- Calls keep their arguments. -/
def SameCalls (d d' : Desk Req Resp) : Prop :=
  ∀ id c, d.calls id = some c →
    ∃ c', d'.calls id = some c' ∧ c'.call = c.call ∧ c'.taken = c.taken

theorem sameCalls_update (d : Desk Req Resp) {id : HandleId} {c : ClientCall Req Resp}
    (h : d.calls id = some c) (phase : CallPhase Req Resp) {d' : Desk Req Resp}
    (hcalls : d'.calls = Function.update d.calls id (some { c with phase := phase })) :
    d.SameCalls d' := by
  intro id' c' hc'
  by_cases hid : id' = id
  · subst hid
    rw [h] at hc'
    obtain rfl := Option.some.inj hc'
    exact ⟨{ c with phase := phase }, by rw [hcalls, Function.update_self], rfl, rfl⟩
  · exact ⟨c', by rw [hcalls, Function.update_of_ne hid, hc'], rfl, rfl⟩

theorem SameCalls.of_step {d d' : Desk Req Resp} {l : Label Req Resp} (h : DeskStep L d l d') :
    d.SameCalls d' := by
  intro id c hc
  obtain ⟨phase, hc', _⟩ := h.call hc
  exact ⟨_, hc', rfl, rfl⟩

namespace Origins

/-- A step that sets the phase of one call. -/
theorem update {d d' : Desk Req Resp} (ho : d.Origins) {id : HandleId}
    {c : ClientCall Req Resp} (h : d.calls id = some c) (phase : CallPhase Req Resp)
    (hcalls : d'.calls = Function.update d.calls id (some { c with phase := phase }))
    (hunsent : ∀ command, phase = .created command ∨ phase = .refused command →
      c.call.command c.taken = some command)
    (hfailed : ∀ error, phase ≠ .failed error)
    (htask : ∀ t ∈ d'.tasks, t ∈ d.tasks ∨ t.handle = id ∧ t.command.Follows c) :
    d'.Origins := by
  have hsame := sameCalls_update d h phase hcalls
  refine ⟨?_, ?_, ?_⟩
  · intro id' c' command hc' hp
    rcases call_of_update hcalls hc' with ⟨rfl, rfl⟩ | ⟨_, hc'⟩
    · exact hunsent command hp
    · exact ho.unsent id' c' command hc' hp
  · intro id' c' error hc' hp
    rcases call_of_update hcalls hc' with ⟨rfl, rfl⟩ | ⟨_, hc'⟩
    · exact absurd hp (hfailed error)
    · exact ho.failed id' c' error hc' hp
  · intro t ht
    rcases htask t ht with ht | ⟨rfl, hf⟩
    · obtain ⟨c', hc', hf⟩ := ho.task t ht
      obtain ⟨c'', hc'', hcall, htaken⟩ := hsame t.handle c' hc'
      exact ⟨c'', hc'', hf.of_eq rfl (.inr rfl) hcall htaken⟩
    · exact ⟨{ c with phase := phase }, by rw [hcalls, Function.update_self],
        hf.of_eq rfl (.inr rfl) rfl rfl⟩

/-- A step that leaves the calls alone. -/
theorem of_tasks {d d' : Desk Req Resp} (ho : d.Origins) (hcalls : d'.calls = d.calls)
    (htask : ∀ t ∈ d'.tasks, ∃ c, d.calls t.handle = some c ∧ t.command.Follows c) :
    d'.Origins := by
  refine ⟨?_, ?_, ?_⟩
  · rw [hcalls]
    exact ho.unsent
  · rw [hcalls]
    exact ho.failed
  · rw [hcalls]
    exact htask

theorem step {d d' : Desk Req Resp} {l : Label Req Resp} (hi : d.Inv) (ho : d.Origins)
    (h : DeskStep L d l d') : d'.Origins := by
  cases h with
  | idle hl => exact ho
  | @openCall id call taken h =>
      refine ⟨?_, ?_, ?_⟩
      · intro id' c command hc hp
        rcases call_of_update rfl hc with ⟨rfl, rfl⟩ | ⟨_, hc⟩
        · rcases call.opened_phase taken with ⟨command', heq, hphase⟩ | ⟨_, hphase⟩
          · rw [hphase] at hp
            rcases hp with hp | hp
            · rw [← CallPhase.created.inj hp]
              exact heq
            · cases hp
          · rw [hphase] at hp
            rcases hp with hp | hp <;> cases hp
        · exact ho.unsent id' c command hc hp
      · intro id' c error hc hp
        rcases call_of_update rfl hc with ⟨rfl, rfl⟩ | ⟨_, hc⟩
        · rcases call.opened_phase taken with ⟨_, _, hphase⟩ | ⟨hnone, _⟩
          · rw [hphase] at hp
            cases hp
          · exact hnone
        · exact ho.failed id' c error hc hp
      · intro t ht
        obtain ⟨c, hc, hf⟩ := ho.task t ht
        have hid : t.handle ≠ id := by
          rintro rfl
          rw [h] at hc
          cases hc
        exact ⟨c, by simpa [Function.update_of_ne hid] using hc, hf⟩
  | @accept id c command waker h hp =>
      refine ho.update h (.polling waker) rfl (by simp) (by simp) ?_
      intro t ht
      have hcommand := ho.unsent id c command h (.inl hp)
      simp only [mem_tasks, mem_unrun, setPhase, List.mem_append, List.mem_singleton] at ht ⊢
      rcases ht with (ht | ht | rfl) | ht
      · exact .inl (.inl (.inl ht))
      · exact .inl (.inl (.inr ht))
      · exact .inr ⟨rfl, Call.command_follows hcommand⟩
      · exact .inl (.inr ht)
  | @refuse id c command waker h hp =>
      refine ho.update h (.refused command) rfl ?_ (by simp) (fun t ht => .inl ht)
      intro command' hc
      rcases hc with hc | hc
      · cases hc
      · rw [← CallPhase.refused.inj hc]
        exact ho.unsent id c command h (.inl hp)
  | ready h hp hr => exact ho.update h _ rfl (by simp) (by simp) fun t ht => .inl ht
  | pending h hp hr => exact ho.update h _ rfl (by simp) (by simp) fun t ht => .inl ht
  | pollAgain waker h hp => exact ho.update h _ rfl (by simp) (by simp) fun t ht => .inl ht
  | dropCall h => exact ho.update h _ rfl (by simp) (by simp) fun t ht => .inl ht
  | sweep hrun =>
      refine ho.of_tasks rfl fun t ht => ho.task t ?_
      simp only [mem_tasks, mem_unrun, List.mem_filter] at ht ⊢
      exact ht.imp_right And.left
  | @recvCommand task rest hrun hq =>
      refine ho.of_tasks rfl fun t ht => ho.task t ?_
      simp only [mem_tasks, mem_unrun, hq, List.mem_cons, Option.some.injEq] at ht ⊢
      rcases ht with (rfl | ht) | ht
      · exact .inl (.inr (.inl rfl))
      · exact .inl (.inr (.inr ht))
      · exact .inr ht
  | @handleCommand task swarm hrun hids hresp =>
      have hmem : task ∈ d.unrun := mem_unrun.mpr (.inl hrun)
      refine ho.of_tasks rfl fun t ht => ?_
      simp only [mem_tasks, mem_unrun, List.mem_append, List.mem_singleton] at ht
      rcases ht with (ht | ht) | ht | rfl
      · cases ht
      · exact ho.task t (mem_tasks.mpr (.inl (mem_unrun.mpr (.inr ht))))
      · exact ho.task t (mem_tasks.mpr (.inr ht))
      · obtain ⟨c, hc, hf⟩ := ho.task task (mem_tasks.mpr (.inl hmem))
        exact ⟨c, hc, task.afterRun_follows hf (hi.unrun task hmem).1 swarm⟩
  | @dispatch event visited skipped out hrun h =>
      have hoff := offered_of_dispatched hi.active_nodup h
      refine ho.of_tasks rfl fun u hu => ?_
      rcases mem_tasks.mp hu with hu | hu
      · exact ho.task u (mem_tasks.mpr (.inl hu))
      · obtain ⟨t, ht, hhandle, hu⟩ := hoff.origin hu
        obtain ⟨c, hc, hf⟩ := ho.task t (mem_tasks.mpr (.inr ht))
        rw [hhandle] at hc
        rcases hu with rfl | rfl
        · exact ⟨c, hc, hf⟩
        · exact ⟨c, hc, t.afterEvent_follows hf event⟩
  | shutdown hrun hq hs =>
      refine ho.of_tasks rfl fun t ht => ho.task t ?_
      simp only [mem_tasks, List.not_mem_nil, or_false] at ht
      exact mem_tasks.mpr (.inl ht)

end Origins

end Desk

theorem Fresh.origins {config : NodeConfig} {n : Node L} (h : Fresh config n) :
    n.desk.Origins := by
  rw [h.desk_eq]
  constructor <;> simp [Desk.tasks, Desk.unrun]

theorem Reachable.origins {config : NodeConfig} {n : Node L} (h : Reachable L config n) :
    n.desk.Origins :=
  (Transition.Reachable.invariant (I := fun n => n.desk.Inv ∧ n.desk.Origins) h
    (fun _ hs => ⟨hs.fresh.inv, hs.fresh.origins⟩)
    fun _ _ _ hi hs => ⟨hi.1.step hs.desk, hi.2.step hi.1 hs.desk⟩).2

/-! ### Commands that have not run -/

/-- A command that has not run is the one that its call made. -/
def Desk.Made (d : Desk Req Resp) : Prop :=
  ∀ t ∈ d.unrun, ∃ c, d.calls t.handle = some c ∧ c.call.command c.taken = some t.command

theorem DeskStep.unrun {d d' : Desk Req Resp} {l : Label Req Resp} (h : DeskStep L d l d')
    {t : Task Req Resp} (ht : t ∈ d'.unrun) :
    t ∈ d.unrun ∨ ∃ c, d.calls t.handle = some c ∧ c.phase = .created t.command := by
  cases h with
  | @accept id c command waker hc hp =>
      simp only [Desk.mem_unrun, Desk.setPhase, List.mem_append, List.mem_singleton] at ht ⊢
      rcases ht with ht | ht | rfl
      · exact .inl (.inl ht)
      · exact .inl (.inr ht)
      · exact .inr ⟨c, hc, hp⟩
  | @recvCommand task rest hrun hq =>
      simp only [Desk.mem_unrun, hq, List.mem_cons, Option.some.injEq] at ht ⊢
      rcases ht with rfl | ht
      · exact .inl (.inr (.inl rfl))
      · exact .inl (.inr (.inr ht))
  | handleCommand swarm hrun hids hresp =>
      simp only [Desk.mem_unrun] at ht ⊢
      rcases ht with ht | ht
      · cases ht
      · exact .inl (.inr ht)
  | _ => exact .inl ht

theorem Desk.Made.step {d d' : Desk Req Resp} {l : Label Req Resp} (ho : d.Origins) (hm : d.Made)
    (h : DeskStep L d l d') : d'.Made := by
  intro t ht
  rcases h.unrun ht with ht | ⟨c, hc, hp⟩
  · obtain ⟨c, hc, hcommand⟩ := hm t ht
    obtain ⟨phase, hc', _⟩ := h.call hc
    exact ⟨_, hc', hcommand⟩
  · obtain ⟨phase, hc', _⟩ := h.call hc
    exact ⟨_, hc', ho.unsent t.handle c t.command hc (.inl hp)⟩

theorem Reachable.made {config : NodeConfig} {n : Node L} (h : Reachable L config n) :
    n.desk.Made := by
  have hkept := Transition.Reachable.invariant
    (I := fun n : Node L => (n.desk.Inv ∧ n.desk.Origins) ∧ n.desk.Made) h
    (fun _ hs => ⟨⟨hs.fresh.inv, hs.fresh.origins⟩,
      by simp [Desk.Made, hs.fresh.desk_eq, Desk.unrun]⟩)
    fun _ _ _ hi hs => ⟨⟨hi.1.1.step hs.desk, hi.1.2.step hi.1.1 hs.desk⟩,
      hi.2.step hi.1.2 hs.desk⟩
  exact hkept.2

/-- Along a run calls keep their arguments and what they took. -/
theorem Run.sameCalls {n m : Node L} {π : List (Transition.Trans (Node L) (Label Req Resp))}
    (h : Run L n π m) : n.desk.SameCalls m.desk := by
  refine Transition.Path.invariant (I := fun m : Node L => n.desk.SameCalls m.desk) h
    (fun id c hc => ⟨c, hc, rfl, rfl⟩) ?_
  intro a l b ha hs id c hc
  obtain ⟨c', hc', hcall, htaken⟩ := ha id c hc
  obtain ⟨c'', hc'', hcall', htaken'⟩ := Desk.SameCalls.of_step hs.desk id c' hc'
  exact ⟨c'', hc'', hcall'.trans hcall, htaken'.trans htaken⟩

end SwarmP2p
