import SwarmP2p.Verification.Call.Dispatch

/-! # The invariant of the desk

Every task belongs to one sent call, a call that waits has a task or a result, and a
command that has answered cannot answer again unless it waits for connections. -/

namespace SwarmP2p

variable {Req Resp : Type} {L : Libp2p Req Resp}

/-- The command of the call went into the queue, or the call is dropped. -/
def CallPhase.Sent : CallPhase Req Resp → Prop
  | .polling _ | .pending | .ready _ | .dropped => True
  | _ => False

theorem CallPhase.Moves.sent {p q : CallPhase Req Resp} (h : p.Moves q) (hs : p.Sent) :
    q.Sent := by
  cases h with
  | same => exact hs
  | refuse => exact hs.elim
  | _ => trivial

/-- No method makes a command that has an id already. -/
theorem Call.command_ownId? {call : Call Req Resp} {taken : Option ResponseChannel}
    {command : Command Req Resp} (h : call.command taken = some command) :
    command.ownId? = none := by
  cases call with
  | sendResponse pendingId response =>
      obtain ⟨channel, _, rfl⟩ := Option.map_eq_some_iff.mp h
      rfl
  | _ =>
      obtain rfl := Option.some.inj h
      rfl

namespace Desk

structure Inv (d : Desk Req Resp) : Prop where
  nodup : (d.tasks.map Task.handle).Nodup
  sent : ∀ t ∈ d.tasks, ∃ c, d.calls t.handle = some c ∧ c.phase.Sent
  cancelled : ∀ id, (d.handles id).cancelled = true →
    ∃ c, d.calls id = some c ∧ c.phase = .dropped
  /-- Before its command has run, a handle is empty and the command has no id. -/
  unrun : ∀ t ∈ d.unrun, t.command.ownId? = none ∧
    (d.handles t.handle).outcomes = [] ∧ (d.handles t.handle).result = none
  created : ∀ id c command, d.calls id = some c → c.phase = .created command →
    command.ownId? = none ∧ (d.handles id).outcomes = [] ∧ (d.handles id).result = none
  waiting : ∀ id c, d.calls id = some c → c.phase.Waiting →
    (∃ t ∈ d.tasks, t.handle = id) ∨ (d.handles id).result.isSome
  /-- A decided result is stored until its caller polls. -/
  stored : ∀ id c, d.calls id = some c → c.phase.Waiting →
    (d.handles id).outcomes ≠ [] → (d.handles id).result.isSome
  prompt : ∀ t ∈ d.active, t.command.kind = .prompt → (d.handles t.handle).outcomes ≠ []
  answered : ∀ t ∈ d.active, (d.handles t.handle).outcomes ≠ [] → t.command.ownId? = none

theorem mem_tasks {d : Desk Req Resp} {t : Task Req Resp} :
    t ∈ d.tasks ↔ t ∈ d.unrun ∨ t ∈ d.active := by
  simp [tasks]

theorem mem_unrun {d : Desk Req Resp} {t : Task Req Resp} :
    t ∈ d.unrun ↔ d.running = some t ∨ t ∈ d.queue := by
  simp [unrun]

namespace Inv

variable {d d' : Desk Req Resp}

/-- No task of another place has the handle of an active one. -/
theorem active_ne_unrun (hi : Inv d) {t u : Task Req Resp} (ht : t ∈ d.active)
    (hu : u ∈ d.unrun) : t.handle ≠ u.handle := by
  have hn := hi.nodup
  rw [tasks, List.map_append, List.nodup_append] at hn
  exact fun h => hn.2.2 _ (List.mem_map_of_mem hu) _ (List.mem_map_of_mem ht) h.symm

theorem active_nodup (hi : Inv d) : (d.active.map Task.handle).Nodup := by
  have hn := hi.nodup
  rw [tasks, List.map_append, List.nodup_append] at hn
  exact hn.2.1

/-- A call that is not sent has no task. -/
theorem not_task (hi : Inv d) {id : HandleId} {c : ClientCall Req Resp}
    (h : d.calls id = some c) (hp : ¬c.phase.Sent) {t : Task Req Resp} (ht : t ∈ d.tasks) :
    t.handle ≠ id := by
  rintro rfl
  obtain ⟨c', hc', hs⟩ := hi.sent t ht
  rw [h] at hc'
  obtain rfl := Option.some.inj hc'
  exact hp hs

/-- A step that changes the phase and the handle of one call only. -/
theorem update (hi : Inv d) {id : HandleId} {c : ClientCall Req Resp}
    (h : d.calls id = some c) (phase : CallPhase Req Resp) (handle : ResultState (Output Resp))
    (hsent : c.phase.Sent → phase.Sent) (hcancelled : handle.cancelled = true → phase = .dropped)
    (hout : handle.outcomes = (d.handles id).outcomes)
    (hres : (d.handles id).result = none → handle.result = none)
    (hcreated : ∀ command, phase ≠ .created command)
    (hwait : phase.Waiting → c.phase.Waiting ∧ handle.result = (d.handles id).result) :
    Inv { d.setPhase id c phase with handles := Function.update d.handles id handle } := by
  refine ⟨hi.nodup, ?_, ?_, ?_, ?_, ?_, ?_, ?_, ?_⟩
  · intro t ht
    obtain ⟨c', hc', hs⟩ := hi.sent t ht
    by_cases hid : t.handle = id
    · subst hid
      rw [h] at hc'
      obtain rfl := Option.some.inj hc'
      exact ⟨_, Function.update_self .., hsent hs⟩
    · exact ⟨c', by simpa [setPhase, Function.update_of_ne hid] using hc', hs⟩
  · intro id' hcan
    by_cases hid : id' = id
    · subst hid
      simp only [Function.update_self] at hcan
      exact ⟨_, Function.update_self .., hcancelled hcan⟩
    · simp only [Function.update_of_ne hid, setPhase] at hcan ⊢
      exact hi.cancelled id' hcan
  · intro t ht
    obtain ⟨hown, ho, hr⟩ := hi.unrun t ht
    refine ⟨hown, ?_⟩
    by_cases hid : t.handle = id
    · subst hid
      simpa [hout] using ⟨ho, hres hr⟩
    · simpa [Function.update_of_ne hid] using ⟨ho, hr⟩
  · intro id' c' command hc' hp
    rcases call_of_update rfl hc' with ⟨rfl, rfl⟩ | ⟨hid, hc'⟩
    · exact absurd hp (hcreated command)
    · simp only [Function.update_of_ne hid]
      exact hi.created id' c' command hc' hp
  · intro id' c' hc' hw
    rcases call_of_update rfl hc' with ⟨rfl, rfl⟩ | ⟨hid, hc'⟩
    · simp only [Function.update_self]
      rw [(hwait hw).2]
      exact hi.waiting id' c h (hwait hw).1
    · simp only [Function.update_of_ne hid]
      exact hi.waiting id' c' hc' hw
  · intro id' c' hc' hw
    rcases call_of_update rfl hc' with ⟨rfl, rfl⟩ | ⟨hid, hc'⟩
    · simp only [Function.update_self]
      rw [(hwait hw).2, hout]
      exact hi.stored id' c h (hwait hw).1
    · simp only [Function.update_of_ne hid]
      exact hi.stored id' c' hc' hw
  · intro t ht hk
    have ho := hi.prompt t ht hk
    by_cases hid : t.handle = id
    · subst hid
      simpa [hout] using ho
    · simpa [Function.update_of_ne hid] using ho
  · intro t ht ho
    refine hi.answered t ht ?_
    by_cases hid : t.handle = id
    · subst hid
      simpa [hout] using ho
    · simpa [Function.update_of_ne hid] using ho

/-- The same for a step that leaves the handle alone. -/
theorem update_phase (hi : Inv d) {id : HandleId} {c : ClientCall Req Resp}
    (h : d.calls id = some c) (phase : CallPhase Req Resp) (hsent : c.phase.Sent → phase.Sent)
    (hdropped : c.phase ≠ .dropped) (hcreated : ∀ command, phase ≠ .created command)
    (hwait : phase.Waiting → c.phase.Waiting) : Inv (d.setPhase id c phase) := by
  have hu := hi.update h phase (d.handles id) hsent ?_ rfl (fun hr => hr)
    hcreated (fun hw => ⟨hwait hw, rfl⟩)
  · rw [Function.update_eq_self] at hu
    exact hu
  · intro hcan
    obtain ⟨c', hc', hd⟩ := hi.cancelled id hcan
    rw [h] at hc'
    obtain rfl := Option.some.inj hc'
    exact absurd hd hdropped

/-- Tasks leave the chain. -/
theorem remove (hi : Inv d) {active : List (Task Req Resp)} (hsub : active.Sublist d.active)
    (hgone : ∀ t ∈ d.active, t ∉ active → ∀ c, d.calls t.handle = some c → ¬c.phase.Waiting) :
    Inv { d with active := active } := by
  have hmem : ∀ t, t ∈ ({ d with active := active } : Desk Req Resp).tasks → t ∈ d.tasks := by
    intro t ht
    rcases mem_tasks.mp ht with ht | ht
    · exact mem_tasks.mpr (.inl ht)
    · exact mem_tasks.mpr (.inr (hsub.subset ht))
  refine ⟨?_, fun t ht => hi.sent t (hmem t ht), hi.cancelled, hi.unrun, hi.created, ?_,
    hi.stored, fun t ht => hi.prompt t (hsub.subset ht),
    fun t ht => hi.answered t (hsub.subset ht)⟩
  · exact hi.nodup.sublist (((List.Sublist.refl d.unrun).append hsub).map Task.handle)
  · intro id c hc hw
    rcases hi.waiting id c hc hw with ⟨t, ht, rfl⟩ | hr
    · refine .inl ⟨t, mem_tasks.mpr ?_, rfl⟩
      rcases mem_tasks.mp ht with ht | ht
      · exact .inl ht
      · refine .inr ?_
        by_contra hn
        exact hgone t ht hn c hc hw
    · exact .inr hr

theorem openCall (hi : Inv d) {id : HandleId} (h : d.calls id = none)
    (call : Call Req Resp) (taken : Option ResponseChannel)
    (hown : ∀ command, call.command taken = some command → command.ownId? = none) :
    Inv { d with
      calls := Function.update d.calls id (some (call.opened taken))
      handles := Function.update d.handles id {} } := by
  have htask : ∀ t ∈ d.tasks, t.handle ≠ id := by
    rintro t ht rfl
    obtain ⟨c, hc, _⟩ := hi.sent t ht
    rw [h] at hc
    cases hc
  have hwait := call.opened_not_waiting taken
  refine ⟨hi.nodup, ?_, ?_, ?_, ?_, ?_, ?_, ?_, ?_⟩
  · intro t ht
    simpa [Function.update_of_ne (htask t ht)] using hi.sent t ht
  · intro id' hcan
    by_cases hid : id' = id
    · subst hid
      simp at hcan
    · simp only [Function.update_of_ne hid] at hcan ⊢
      exact hi.cancelled id' hcan
  · intro t ht
    simpa [Function.update_of_ne (htask t (mem_tasks.mpr (.inl ht)))] using hi.unrun t ht
  · intro id' c command hc hp
    rcases call_of_update rfl hc with ⟨rfl, rfl⟩ | ⟨hid, hc⟩
    · simp only [Function.update_self]
      refine ⟨hown command ?_, by simp⟩
      rcases call.opened_phase taken with ⟨command', heq, hphase⟩ | ⟨_, hphase⟩
      · rw [hphase] at hp
        rw [← CallPhase.created.inj hp]
        exact heq
      · rw [hphase] at hp
        cases hp
    · simp only [Function.update_of_ne hid]
      exact hi.created id' c command hc hp
  · intro id' c hc hw
    rcases call_of_update rfl hc with ⟨rfl, rfl⟩ | ⟨hid, hc⟩
    · exact absurd hw hwait
    · simp only [Function.update_of_ne hid]
      exact hi.waiting id' c hc hw
  · intro id' c hc hw
    rcases call_of_update rfl hc with ⟨rfl, rfl⟩ | ⟨hid, hc⟩
    · exact absurd hw hwait
    · simp only [Function.update_of_ne hid]
      exact hi.stored id' c hc hw
  · intro t ht
    simpa [Function.update_of_ne (htask t (mem_tasks.mpr (.inr ht)))] using hi.prompt t ht
  · intro t ht
    simpa [Function.update_of_ne (htask t (mem_tasks.mpr (.inr ht)))] using hi.answered t ht

theorem accept (hi : Inv d) {id : HandleId} {c : ClientCall Req Resp}
    {command : Command Req Resp} (waker : Waker) (h : d.calls id = some c)
    (hp : c.phase = .created command) :
    Inv { d.setPhase id c (.polling waker) with queue := d.queue ++ [⟨command, id⟩] } := by
  have hnew : ∀ t ∈ d.tasks, t.handle ≠ id := fun t ht =>
    hi.not_task h (by simp [hp, CallPhase.Sent]) ht
  obtain ⟨hown, hout, hres⟩ := hi.created id c command h hp
  have hunrun : ({ d.setPhase id c (.polling waker) with queue := d.queue ++ [⟨command, id⟩] } :
      Desk Req Resp).unrun = d.unrun ++ [⟨command, id⟩] :=
    (List.append_assoc _ _ _).symm
  have hmem : ∀ t, t ∈ ({ d.setPhase id c (.polling waker) with
      queue := d.queue ++ [⟨command, id⟩] } : Desk Req Resp).tasks ↔
      t = ⟨command, id⟩ ∨ t ∈ d.tasks := by
    intro t
    rw [mem_tasks, hunrun, mem_tasks]
    simp only [List.mem_append, List.mem_singleton, setPhase]
    grind
  refine ⟨?_, ?_, ?_, ?_, ?_, ?_, ?_, hi.prompt, hi.answered⟩
  · have hperm : ((d.unrun ++ [(⟨command, id⟩ : Task Req Resp)]) ++ d.active).Perm
        (⟨command, id⟩ :: d.tasks) := by
      rw [List.append_assoc]
      exact List.perm_middle
    rw [tasks, hunrun]
    refine (hperm.map Task.handle).nodup_iff.mpr ?_
    rw [List.map_cons, List.nodup_cons]
    refine ⟨?_, hi.nodup⟩
    intro hm
    obtain ⟨t, ht, hhandle⟩ := List.mem_map.mp hm
    exact hnew t ht hhandle
  · intro t ht
    rcases (hmem t).mp ht with rfl | ht
    · exact ⟨_, Function.update_self .., trivial⟩
    · simpa [setPhase, Function.update_of_ne (hnew t ht)] using hi.sent t ht
  · intro id' hcan
    obtain ⟨c', hc', hd⟩ := hi.cancelled id' hcan
    have hid : id' ≠ id := by
      rintro rfl
      rw [h] at hc'
      obtain rfl := Option.some.inj hc'
      rw [hp] at hd
      cases hd
    exact ⟨c', by simpa [setPhase, Function.update_of_ne hid] using hc', hd⟩
  · intro t ht
    rw [hunrun] at ht
    rcases List.mem_append.mp ht with ht | ht
    · exact hi.unrun t ht
    · obtain rfl := List.mem_singleton.mp ht
      exact ⟨hown, hout, hres⟩
  · intro id' c' command' hc' hp'
    rcases call_of_update rfl hc' with ⟨rfl, rfl⟩ | ⟨_, hc'⟩
    · cases hp'
    · exact hi.created id' c' command' hc' hp'
  · intro id' c' hc' hw
    by_cases hid : id' = id
    · subst hid
      exact .inl ⟨⟨command, id'⟩, (hmem _).mpr (.inl rfl), rfl⟩
    · simp only [setPhase, Function.update_of_ne hid] at hc'
      rcases hi.waiting id' c' hc' hw with ⟨t, ht, hhandle⟩ | hr
      · exact .inl ⟨t, (hmem t).mpr (.inr ht), hhandle⟩
      · exact .inr hr
  · intro id' c' hc' hw ho
    by_cases hid : id' = id
    · subst hid
      exact absurd hout ho
    · simp only [setPhase, Function.update_of_ne hid] at hc'
      exact hi.stored id' c' hc' hw ho

/-- What a settled handle keeps. -/
theorem settle_isSome {s : ResultState (Output Resp)} (r : Option (Result (Output Resp)))
    (h : s.result.isSome) : (s.settle r).result.isSome := by
  cases r with
  | none => exact h
  | some r => rfl

/-- The loop has run the command of the task that it holds. -/
theorem handleCommand (hi : Inv d) {task : Task Req Resp} (swarm : Swarm L)
    (hrun : d.running = some task) (ids : List EventId)
    (responses : List (ResponseChannel × Resp)) :
    Inv { d with
      running := none
      active := d.active ++ [task.afterRun swarm]
      handles := finishAll d.handles (task.runOutput swarm)
      ids := ids
      responses := responses } := by
  have hunrun : d.unrun = task :: d.queue := by simp [Desk.unrun, hrun]
  have htask : task ∈ d.tasks := mem_tasks.mpr (.inl (by simp [hunrun]))
  obtain ⟨hown, hout, hres⟩ := hi.unrun task (by simp [hunrun])
  have hspec := Command.run_spec hown swarm
  have hn := hi.nodup
  rw [tasks, hunrun, List.cons_append, List.map_cons, List.nodup_cons] at hn
  have hother : ∀ t, t ∈ d.queue ∨ t ∈ d.active → t.handle ≠ task.handle := by
    rintro t ht heq
    exact hn.1 (List.mem_map.mpr ⟨t, List.mem_append.mpr ht, heq⟩)
  obtain ⟨ctask, hctask, hsent⟩ := hi.sent task htask
  have hmem : ∀ t, t ∈ ({ d with
      running := none
      active := d.active ++ [task.afterRun swarm]
      handles := finishAll d.handles (task.runOutput swarm)
      ids := ids
      responses := responses } : Desk Req Resp).tasks ↔
      t = task.afterRun swarm ∨ t ∈ d.queue ∨ t ∈ d.active := by
    intro t
    simp only [mem_tasks, mem_unrun, List.mem_append, List.mem_singleton]
    grind
  rw [task.runOutput_apply swarm]
  refine ⟨?_, ?_, ?_, ?_, ?_, ?_, ?_, ?_, ?_⟩
  · have hperm : (d.queue ++ (d.active ++ [task.afterRun swarm])).Perm
        (task.afterRun swarm :: (d.queue ++ d.active)) := by
      rw [← List.append_assoc]
      exact List.perm_append_singleton _ _
    have hm := hperm.map Task.handle
    exact hm.nodup_iff.mpr (List.nodup_cons.mpr hn)
  · intro t ht
    rcases (hmem t).mp ht with rfl | ht
    · exact ⟨ctask, hctask, hsent⟩
    · refine hi.sent t (mem_tasks.mpr ?_)
      rcases ht with ht | ht
      · exact .inl (mem_unrun.mpr (.inr ht))
      · exact .inr ht
  · intro id hcan
    refine hi.cancelled id ?_
    by_cases hid : id = task.handle
    · subst hid
      simpa [ResultState.settle_cancelled] using hcan
    · simpa [Function.update_of_ne hid] using hcan
  · intro t ht
    have hq : t ∈ d.queue := ht
    have hne := hother t (.inl hq)
    simpa [Function.update_of_ne hne] using hi.unrun t (mem_unrun.mpr (.inr hq))
  · intro id c command hc hp
    have hid : id ≠ task.handle := (hi.not_task hc (by simp [hp, CallPhase.Sent]) htask).symm
    simpa [Function.update_of_ne hid] using hi.created id c command hc hp
  · intro id c hc hw
    rcases hi.waiting id c hc hw with ⟨t, ht, rfl⟩ | hr
    · by_cases hid : t.handle = task.handle
      · exact .inl ⟨task.afterRun swarm, (hmem _).mpr (.inl rfl), hid.symm⟩
      · refine .inl ⟨t, (hmem t).mpr (.inr ?_), rfl⟩
        rcases mem_tasks.mp ht with ht | ht
        · rw [hunrun] at ht
          rcases List.mem_cons.mp ht with rfl | ht
          · exact absurd rfl hid
          · exact .inl ht
        · exact .inr ht
    · refine .inr ?_
      by_cases hid : id = task.handle
      · subst hid
        simpa using settle_isSome _ hr
      · simpa [Function.update_of_ne hid] using hr
  · intro id c hc hw ho
    by_cases hid : id = task.handle
    · subst hid
      simp only [Function.update_self, ResultState.settle_outcomes, hout,
        List.nil_append] at ho ⊢
      cases hf : (task.command.run swarm).finished with
      | none =>
          rw [hf] at ho
          exact absurd rfl ho
      | some r => rfl
    · simp only [Function.update_of_ne hid] at ho ⊢
      exact hi.stored id c hc hw ho
  · intro t ht hk
    rcases List.mem_append.mp ht with ht | ht
    · simpa [Function.update_of_ne (hother t (.inr ht))] using hi.prompt t ht hk
    · obtain rfl := List.mem_singleton.mp ht
      have hfin : (task.command.run swarm).finished ≠ none := by
        refine hspec.prompt ?_
        rw [← hspec.kind_eq, ← hk]
        exact (Command.takeRelayReservationRequest_kind _).symm
      have hhandle : (task.afterRun swarm).handle = task.handle := rfl
      rw [hhandle]
      simp only [Function.update_self, ResultState.settle_outcomes]
      cases hf : (task.command.run swarm).finished with
      | none => exact absurd hf hfin
      | some r => simp
  · intro t ht ho
    rcases List.mem_append.mp ht with ht | ht
    · refine hi.answered t ht ?_
      simpa [Function.update_of_ne (hother t (.inr ht))] using ho
    · obtain rfl := List.mem_singleton.mp ht
      refine (Command.takeRelayReservationRequest_ownId? _).trans (hspec.ownId_of_finished ?_)
      intro hf
      have hhandle : (task.afterRun swarm).handle = task.handle := rfl
      rw [hhandle] at ho
      simp [hf, hout] at ho

/-- An event has gone along the chain. -/
theorem dispatch (hi : Inv d) {event : SwarmEvent Req Resp} (ho : Offered L d d' event)
    (hcalls : d'.calls = d.calls) (hunrun : d'.unrun = d.unrun) : Inv d' := by
  -- An active task afterwards was active before, and what it became is its fate.
  have hback : ∀ u ∈ d'.active, ∃ t ∈ d.active, t.handle = u.handle := by
    intro u hu
    obtain ⟨t, ht, hhandle⟩ :=
      List.mem_map.mp (ho.handles_subperm.subset (List.mem_map_of_mem hu))
    exact ⟨t, ht, hhandle⟩
  have hsettled : ∀ t ∈ d.active,
      ∃ r, d'.handles t.handle = (d.handles t.handle).settle r := by
    intro t ht
    rcases ho.fate t ht with ⟨hh, _⟩ | ⟨hh, _, _⟩
    · exact ⟨_, hh⟩
    · exact ⟨none, hh⟩
  have hsettle : ∀ id, ∃ r, d'.handles id = (d.handles id).settle r := by
    intro id
    by_cases hid : ∃ t ∈ d.active, t.handle = id
    · obtain ⟨t, ht, rfl⟩ := hid
      exact hsettled t ht
    · exact ⟨none, ho.outside id (by simpa using hid)⟩
  have hsame : ∀ t ∈ d.unrun, d'.handles t.handle = d.handles t.handle := fun t ht =>
    ho.outside t.handle fun u hu => hi.active_ne_unrun hu ht
  refine ⟨?_, ?_, ?_, ?_, ?_, ?_, ?_, ?_, ?_⟩
  · have hn := hi.nodup
    rw [tasks, List.map_append] at hn ⊢
    rw [hunrun]
    obtain ⟨l, hl, hsub⟩ := (List.subperm_append_left (d.unrun.map Task.handle)).mpr
      ho.handles_subperm
    exact hl.nodup_iff.mp (hn.sublist hsub)
  · intro t ht
    rw [hcalls]
    rcases mem_tasks.mp ht with ht | ht
    · rw [hunrun] at ht
      exact hi.sent t (mem_tasks.mpr (.inl ht))
    · obtain ⟨u, hu, hhandle⟩ := hback t ht
      rw [← hhandle]
      exact hi.sent u (mem_tasks.mpr (.inr hu))
  · intro id hcan
    obtain ⟨r, hr⟩ := hsettle id
    rw [hr, ResultState.settle_cancelled] at hcan
    rw [hcalls]
    exact hi.cancelled id hcan
  · intro t ht
    rw [hunrun] at ht
    rw [hsame t ht]
    exact hi.unrun t ht
  · intro id c command hc hp
    rw [hcalls] at hc
    have heq : d'.handles id = d.handles id := ho.outside id fun t ht =>
      hi.not_task hc (by simp [hp, CallPhase.Sent]) (mem_tasks.mpr (.inr ht))
    rw [heq]
    exact hi.created id c command hc hp
  · intro id c hc hw
    rw [hcalls] at hc
    rcases hi.waiting id c hc hw with ⟨t, ht, rfl⟩ | hr
    · rcases mem_tasks.mp ht with ht | ht
      · exact .inl ⟨t, mem_tasks.mpr (.inl (hunrun ▸ ht)), rfl⟩
      · rcases ho.fate t ht with ⟨hh, hactive⟩ | ⟨_, hactive, _⟩
        · cases hkeep : (t.command.onEvent L event).keep with
          | true =>
              exact .inl ⟨t.afterEvent L event,
                mem_tasks.mpr (.inr ((hactive _).mpr ⟨hkeep, rfl⟩).1), rfl⟩
          | false =>
              -- The task leaves, so its handle is finished now or was before.
              refine .inr ?_
              rw [hh]
              rcases Command.onEvent_leaves hkeep with hf | hk
              · obtain ⟨r, hr⟩ := Option.ne_none_iff_exists'.mp hf
                rw [hr]
                rfl
              · exact settle_isSome _ (hi.stored _ c hc hw (hi.prompt t ht hk))
        · exact .inl ⟨t, mem_tasks.mpr (.inr ((hactive t).mpr rfl).1), rfl⟩
    · obtain ⟨r, hs⟩ := hsettle id
      rw [hs]
      exact .inr (settle_isSome r hr)
  · intro id c hc hw hout
    rw [hcalls] at hc
    obtain ⟨r, hs⟩ := hsettle id
    rw [hs] at hout ⊢
    cases r with
    | none => exact hi.stored id c hc hw hout
    | some r => rfl
  · intro u hu hk
    obtain ⟨t, ht, hhandle⟩ := hback u hu
    obtain ⟨r, hs⟩ := hsettled t ht
    have hkind : t.command.kind = .prompt := by
      rcases ho.fate t ht with ⟨_, hactive⟩ | ⟨_, hactive, _⟩
      · obtain ⟨_, rfl⟩ := (hactive u).mp ⟨hu, hhandle.symm⟩
        rw [← hk]
        exact (Command.onEvent_kind t.command event).symm
      · obtain rfl := (hactive u).mp ⟨hu, hhandle.symm⟩
        exact hk
    have hout := hi.prompt t ht hkind
    rw [← hhandle, hs, ResultState.settle_outcomes]
    simp [hout]
  · intro u hu hout
    obtain ⟨t, ht, hhandle⟩ := hback u hu
    rw [← hhandle] at hout
    rcases ho.fate t ht with ⟨hh, hactive⟩ | ⟨hh, hactive, _⟩
    · obtain ⟨hkeep, rfl⟩ := (hactive u).mp ⟨hu, hhandle.symm⟩
      have hf : (t.command.onEvent L event).finished = none := by
        by_contra hne
        rw [Command.onEvent_keep_of_finished hne] at hkeep
        cases hkeep
      rw [hh, hf] at hout
      exact (Command.onEvent_ownId? t.command event).trans (hi.answered t ht hout)
    · obtain rfl := (hactive u).mp ⟨hu, hhandle.symm⟩
      rw [hh] at hout
      exact hi.answered u ht hout

end Inv

/-! ### Runs -/

theorem Inv.step {d d' : Desk Req Resp} {l : Label Req Resp} (hi : Inv d)
    (h : DeskStep L d l d') : Inv d' := by
  cases h with
  | idle hl => exact hi
  | openCall call taken h => exact hi.openCall h call taken (fun _ => Call.command_ownId?)
  | accept waker h hp => exact hi.accept waker h hp
  | refuse waker h hp =>
      exact hi.update_phase h _ (by simp [hp, CallPhase.Sent]) (by simp [hp]) (by simp)
        (by simp [CallPhase.Waiting])
  | ready h hp hr =>
      refine hi.update h _ _ (fun _ => trivial) ?_ rfl (fun _ => rfl) (by simp)
        (by simp [CallPhase.Waiting])
      intro hcan
      obtain ⟨c', hc', hd⟩ := hi.cancelled _ hcan
      rw [h] at hc'
      obtain rfl := Option.some.inj hc'
      rw [hp] at hd
      cases hd
  | pending h hp hr =>
      refine hi.update h _ _ (fun _ => trivial) ?_ rfl (fun hr => hr) (by simp)
        (fun _ => ⟨by simp [hp, CallPhase.Waiting], rfl⟩)
      intro hcan
      obtain ⟨c', hc', hd⟩ := hi.cancelled _ hcan
      rw [h] at hc'
      obtain rfl := Option.some.inj hc'
      rw [hp] at hd
      cases hd
  | pollAgain waker h hp =>
      exact hi.update_phase h _ (fun _ => trivial) (by simp [hp]) (by simp)
        (by simp [hp, CallPhase.Waiting])
  | dropCall h =>
      exact hi.update h _ _ (fun _ => trivial) (fun _ => rfl) rfl (fun hr => hr) (by simp)
        (by simp [CallPhase.Waiting])
  | sweep hrun =>
      refine hi.remove List.filter_sublist ?_
      intro t ht hgone c hc hw
      have hcan : (d.handles t.handle).cancelled = true := by simpa [ht] using hgone
      obtain ⟨c', hc', hd⟩ := hi.cancelled _ hcan
      rw [hc] at hc'
      obtain rfl := Option.some.inj hc'
      rw [hd] at hw
      exact hw
  | @recvCommand task rest hrun hq =>
      have hunrun : ({ d with queue := rest, running := some task } : Desk Req Resp).unrun =
          d.unrun := by
        simp [Desk.unrun, hrun, hq]
      have htasks : ({ d with queue := rest, running := some task } : Desk Req Resp).tasks =
          d.tasks := congrArg (· ++ d.active) hunrun
      refine ⟨?_, ?_, hi.cancelled, ?_, hi.created, ?_, hi.stored, hi.prompt, hi.answered⟩
      · rw [htasks]
        exact hi.nodup
      · rw [htasks]
        exact hi.sent
      · rw [hunrun]
        exact hi.unrun
      · rw [htasks]
        exact hi.waiting
  | handleCommand swarm hrun hids hresp => exact hi.handleCommand swarm hrun _ _
  | dispatch hrun h =>
      exact hi.dispatch (offered_of_dispatched hi.active_nodup h) rfl rfl
  | shutdown hrun hq hs =>
      refine hi.remove (List.nil_sublist _) ?_
      intro t _ _ c hc hw
      refine hs _ c hc ?_
      cases hph : c.phase <;> simp_all [CallPhase.Waiting, CallPhase.HoldsSender]

/-- Without an event, only the task of a call that was given up leaves the chain. -/
theorem Inv.stays {d d' : Desk Req Resp} {l : Label Req Resp} (hi : Inv d)
    (h : DeskStep L d l d') (hevent : ∀ event, l ≠ .swarmEvent event) {t : Task Req Resp}
    (ht : t ∈ d.active) :
    t ∈ d'.active ∨ ∃ c, d'.calls t.handle = some c ∧ c.phase = .dropped := by
  cases h with
  | sweep hrun =>
      cases hcan : (d.handles t.handle).cancelled with
      | true => exact .inr (hi.cancelled _ hcan)
      | false => exact .inl (List.mem_filter.mpr ⟨ht, by simp [hcan]⟩)
  | handleCommand swarm hrun hids hresp => exact .inl (List.mem_append_left _ ht)
  | dispatch hrun h => exact absurd rfl (hevent _)
  | shutdown hrun hq hs =>
      obtain ⟨c, hc, hsent⟩ := hi.sent t (mem_tasks.mpr (.inr ht))
      refine .inr ⟨c, hc, ?_⟩
      have hn := hs _ c hc
      cases hp : c.phase <;> simp_all [CallPhase.Sent, CallPhase.HoldsSender]
  | _ => exact .inl ht

end Desk

theorem Node.desk_running (n : Node L) {task : Task Req Resp} (hp : n.phase = .running task) :
    n.desk.running = some task := by
  simp [Node.desk, hp, LoopPhase.task?]

/-- A command that is being run has not been run before. -/
theorem Node.running_unrun (n : Node L) {task : Task Req Resp} (hp : n.phase = .running task) :
    task ∈ n.desk.unrun :=
  Desk.mem_unrun.mpr (.inl (n.desk_running hp))

end SwarmP2p
