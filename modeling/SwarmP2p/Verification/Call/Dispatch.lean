import SwarmP2p.Verification.Call.Desk

/-! # One event and every task

What the chain does with one event, told task by task. Handles belong to one task
each, so the answers of different tasks do not meet. -/

namespace SwarmP2p

variable {Req Resp : Type} {L : Libp2p Req Resp}

/-! ### Several calls of `finish` -/

/-- The handle after a piece of code that may have called `finish`. -/
def ResultState.settle {R : Type} (s : ResultState R) : Option (Result R) → ResultState R
  | none => s
  | some result => s.finish result

@[simp] theorem ResultState.settle_none {R : Type} (s : ResultState R) : s.settle none = s := rfl

@[simp] theorem ResultState.settle_some {R : Type} (s : ResultState R) (r : Result R) :
    s.settle (some r) = s.finish r := rfl

theorem ResultState.settle_cancelled {R : Type} (s : ResultState R) (r : Option (Result R)) :
    (s.settle r).cancelled = s.cancelled := by
  cases r <;> rfl

theorem ResultState.settle_outcomes {R : Type} (s : ResultState R) (r : Option (Result R)) :
    (s.settle r).outcomes = s.outcomes ++ r.toList := by
  cases r <;> simp

theorem finishAll_of_not_mem (handles : HandleId → ResultState (Output Resp))
    {rs : List (HandleId × Result (Output Resp))} {id : HandleId}
    (h : ∀ x ∈ rs, x.1 ≠ id) : finishAll handles rs id = handles id := by
  induction rs generalizing handles with
  | nil => rfl
  | cons x rs ih =>
      have hx : id ≠ x.1 := (h x (by simp)).symm
      have hrest : finishAll handles (x :: rs) id =
          finishAll (Function.update handles x.1 ((handles x.1).finish x.2)) rs id := rfl
      rw [hrest, ih _ (fun y hy => h y (by simp [hy])), Function.update_of_ne hx]

/-- The `finish` of one task. -/
theorem finishAll_option (handles : HandleId → ResultState (Output Resp)) (id : HandleId)
    (r : Option (Result (Output Resp))) :
    finishAll handles (r.map (fun x => (id, x))).toList =
      Function.update handles id ((handles id).settle r) := by
  cases r with
  | none => simp [finishAll]
  | some r => rfl

theorem Task.runOutput_apply (task : Task Req Resp) (swarm : Swarm L)
    (handles : HandleId → ResultState (Output Resp)) :
    finishAll handles (task.runOutput swarm) =
      Function.update handles task.handle
        ((handles task.handle).settle (task.command.run swarm).finished) :=
  finishAll_option handles task.handle _

theorem Node.handleCommand_settle (n : Node L) (task : Task Req Resp) (id : HandleId) :
    (n.handleCommand task).handles id = if id = task.handle
      then (n.handles id).settle (task.command.run n.loop.swarm).finished
      else n.handles id := by
  have h : (n.handleCommand task).handles = _ :=
    finishAll_option n.handles task.handle (task.command.run n.loop.swarm).finished
  rw [h]
  by_cases hid : id = task.handle
  · subst hid
    simp
  · simp [hid]

/-- The task as it stays in the chain after the event. -/
def Task.afterEvent (L : Libp2p Req Resp) (task : Task Req Resp) (event : SwarmEvent Req Resp) :
    Task Req Resp :=
  ⟨(task.command.onEvent L event).handler, task.handle⟩

theorem mem_visited_output {visited : List (Task Req Resp)} {event : SwarmEvent Req Resp}
    {x : HandleId × Result (Output Resp)}
    (h : x ∈ visited.flatMap (fun t => (t.onEvent L event).output)) :
    ∃ t ∈ visited, t.handle = x.1 := by
  obtain ⟨t, ht, hx⟩ := List.mem_flatMap.mp h
  simp only [Task.onEvent, Option.mem_toList, Option.map_eq_some_iff] at hx
  obtain ⟨_, _, rfl⟩ := hx
  exact ⟨t, ht, rfl⟩

theorem finishAll_visited (handles : HandleId → ResultState (Output Resp))
    {visited : List (Task Req Resp)} (hn : (visited.map Task.handle).Nodup)
    (event : SwarmEvent Req Resp) {t : Task Req Resp} (ht : t ∈ visited) :
    finishAll handles (visited.flatMap (fun t => (t.onEvent L event).output)) t.handle =
      (handles t.handle).settle (t.command.onEvent L event).finished := by
  induction visited generalizing handles with
  | nil => cases ht
  | cons u visited ih =>
      simp only [List.map_cons, List.nodup_cons] at hn
      rw [List.flatMap_cons, finishAll_append]
      have hu : finishAll handles (u.onEvent L event).output =
          Function.update handles u.handle
            ((handles u.handle).settle (u.command.onEvent L event).finished) :=
        finishAll_option handles u.handle _
      rw [hu]
      rcases List.mem_cons.mp ht with rfl | ht
      · rw [finishAll_of_not_mem, Function.update_self]
        intro x hx heq
        obtain ⟨v, hv, hhandle⟩ := mem_visited_output hx
        exact hn.1 (List.mem_map.mpr ⟨v, hv, hhandle.trans heq⟩)
      · have hne : t.handle ≠ u.handle := fun heq =>
          hn.1 (List.mem_map.mpr ⟨t, ht, heq⟩)
        rw [ih _ hn.2 ht, Function.update_of_ne hne]

/-! ### Steps that call no `finish` -/

namespace Desk

/-- Handles that a step changes without calling `finish`. -/
theorem outcomes_update (d : Desk Req Resp) (id id' : HandleId)
    {handle : ResultState (Output Resp)} (h : handle.outcomes = (d.handles id').outcomes) :
    (Function.update d.handles id' handle id).outcomes = (d.handles id).outcomes := by
  by_cases hid : id = id'
  · subst hid
    rw [Function.update_self, h]
  · rw [Function.update_of_ne hid]

end Desk

/-! ### The two fates of a task -/

/-- A task is offered the event, or it stands behind the owner of the event. -/
inductive Fate (L : Libp2p Req Resp) (d d' : Desk Req Resp) (event : SwarmEvent Req Resp)
    (t : Task Req Resp) : Prop where
  | offered
      (hhandle : d'.handles t.handle =
        (d.handles t.handle).settle (t.command.onEvent L event).finished)
      (hactive : ∀ u, (u ∈ d'.active ∧ u.handle = t.handle) ↔
        ((t.command.onEvent L event).keep = true ∧ u = t.afterEvent L event))
  | skipped
      (hhandle : d'.handles t.handle = d.handles t.handle)
      (hactive : ∀ u, (u ∈ d'.active ∧ u.handle = t.handle) ↔ u = t)
      (hconsumer : ∃ u ∈ d.active, u.handle ≠ t.handle ∧ u.command.Owns event)

/-- All that one event does at the desk. -/
structure Offered (L : Libp2p Req Resp) (d d' : Desk Req Resp)
    (event : SwarmEvent Req Resp) : Prop where
  fate : ∀ t ∈ d.active, Fate L d d' event t
  outside : ∀ id, (∀ t ∈ d.active, t.handle ≠ id) → d'.handles id = d.handles id
  handles_subperm : (d'.active.map Task.handle).Subperm (d.active.map Task.handle)

theorem mem_kept {event : SwarmEvent Req Resp} {t u : Task Req Resp} :
    u ∈ Chain.kept (Task.onEvent L) event t ↔
      (t.command.onEvent L event).keep = true ∧ u = t.afterEvent L event := by
  have hkeep : (t.onEvent L event).keep = (t.command.onEvent L event).keep := rfl
  have hcommand : (t.onEvent L event).command = t.afterEvent L event := rfl
  unfold Chain.kept
  rw [hkeep, hcommand]
  split <;> simp [*]

theorem kept_handles_sublist (event : SwarmEvent Req Resp) (visited : List (Task Req Resp)) :
    ((visited.flatMap (Chain.kept (Task.onEvent L) event)).map Task.handle).Sublist
      (visited.map Task.handle) := by
  induction visited with
  | nil => simp
  | cons t visited ih =>
      have ht : ((Chain.kept (Task.onEvent L) event t).map Task.handle).Sublist [t.handle] := by
        unfold Chain.kept
        split <;> simp [Task.onEvent]
      simpa using ht.append ih

theorem offered_of_dispatched {d : Desk Req Resp} {event : SwarmEvent Req Resp}
    {visited skipped : List (Task Req Resp)}
    {out : Chain.Loop (Task Req Resp) (HandleId × Result (Output Resp)) (SwarmEvent Req Resp)}
    (hn : (d.active.map Task.handle).Nodup)
    (h : Chain.Dispatched (Task.onEvent L) d.active event visited skipped out) :
    Offered L d { d with active := out.commands, handles := finishAll d.handles out.output }
      event := by
  have hperm := h.perm.map Task.handle
  have hsplit : ((visited ++ skipped).map Task.handle).Nodup := hperm.nodup_iff.mpr hn
  rw [List.map_append, List.nodup_append] at hsplit
  obtain ⟨hvisited, hskipped, hdisjoint⟩ := hsplit
  have hmem : ∀ u, u ∈ out.commands ↔
      (∃ t ∈ visited, (t.command.onEvent L event).keep = true ∧ u = t.afterEvent L event) ∨
        u ∈ skipped := by
    intro u
    rw [h.commands_perm.mem_iff, List.mem_append, List.mem_flatMap]
    simp only [mem_kept]
  refine ⟨?_, ?_, ?_⟩
  · intro t ht
    rcases List.mem_append.mp (h.perm.mem_iff.mpr ht) with ht | ht
    · refine .offered ?_ ?_
      · change finishAll d.handles out.output t.handle = _
        rw [h.output_eq, finishAll_visited d.handles hvisited event ht]
      · intro u
        refine (and_congr_left' (hmem u)).trans ?_
        constructor
        · rintro ⟨⟨v, hv, hkeep, rfl⟩ | hu, hhandle⟩
          · obtain rfl := List.inj_on_of_nodup_map hvisited hv ht hhandle
            exact ⟨hkeep, rfl⟩
          · exact absurd hhandle.symm
              (hdisjoint _ (List.mem_map_of_mem ht) _ (List.mem_map_of_mem hu))
        · rintro ⟨hkeep, rfl⟩
          exact ⟨.inl ⟨t, ht, hkeep, rfl⟩, rfl⟩
    · refine .skipped ?_ ?_ ?_
      · change finishAll d.handles out.output t.handle = _
        rw [h.output_eq, finishAll_of_not_mem]
        intro x hx heq
        obtain ⟨v, hv, hhandle⟩ := mem_visited_output hx
        exact hdisjoint _ (List.mem_map_of_mem hv) _ (List.mem_map_of_mem ht)
          (hhandle.trans heq)
      · intro u
        refine (and_congr_left' (hmem u)).trans ?_
        constructor
        · rintro ⟨⟨v, hv, _, rfl⟩ | hu, hhandle⟩
          · exact absurd hhandle
              (hdisjoint _ (List.mem_map_of_mem hv) _ (List.mem_map_of_mem ht))
          · exact List.inj_on_of_nodup_map hskipped hu ht hhandle
        · rintro rfl
          exact ⟨.inr ht, rfl⟩
      · rcases h.ending with ⟨hnil, _, _⟩ | ⟨_, v, hv, hnone⟩
        · rw [hnil] at ht
          cases ht
        · exact ⟨v, h.perm.mem_iff.mp (List.mem_append_left _ hv),
            hdisjoint _ (List.mem_map_of_mem hv) _ (List.mem_map_of_mem ht),
            Command.owns_of_consumed hnone⟩
  · intro id hid
    change finishAll d.handles out.output id = _
    rw [h.output_eq, finishAll_of_not_mem]
    intro x hx heq
    obtain ⟨v, hv, hhandle⟩ := mem_visited_output hx
    exact hid v (h.perm.mem_iff.mp (List.mem_append_left _ hv)) (hhandle.trans heq)
  · refine ((h.commands_perm.map Task.handle).subperm).trans ?_
    rw [List.map_append]
    have hsub := (kept_handles_sublist (L := L) event visited).append
      (List.Sublist.refl (skipped.map Task.handle))
    rw [List.map_append] at hperm
    exact hsub.subperm.trans hperm.subperm

/-- A swarm event at the desk. -/
theorem DeskStep.offered {d d' : Desk Req Resp} {event : SwarmEvent Req Resp}
    (hn : (d.active.map Task.handle).Nodup) (h : DeskStep L d (.swarmEvent event) d') :
    Offered L d d' event := by
  cases h with
  | idle hl => exact hl.elim
  | dispatch hrun h => exact offered_of_dispatched hn h

theorem DeskStep.calls_eq {d d' : Desk Req Resp} {event : SwarmEvent Req Resp}
    (h : DeskStep L d (.swarmEvent event) d') : d'.calls = d.calls := by
  cases h with
  | idle hl => exact hl.elim
  | dispatch hrun h => rfl

/-- What the event does to a handle: nothing, or what a command in the chain does. -/
theorem Offered.handle_cases {d d' : Desk Req Resp} {event : SwarmEvent Req Resp}
    (h : Offered L d d' event) (id : HandleId) :
    d'.handles id = d.handles id ∨ ∃ t ∈ d.active, t.handle = id ∧
      d'.handles id = (d.handles id).settle (t.command.onEvent L event).finished := by
  by_cases hid : ∃ t ∈ d.active, t.handle = id
  · obtain ⟨t, ht, rfl⟩ := hid
    rcases h.fate t ht with ⟨hhandle, _⟩ | ⟨hhandle, _⟩
    · exact .inr ⟨t, ht, rfl, hhandle⟩
    · exact .inl hhandle
  · exact .inl (h.outside id fun t ht hh => hid ⟨t, ht, hh⟩)

/-- A task in the chain after the event stood there before, as it is or one event
earlier. -/
theorem Offered.origin {d d' : Desk Req Resp} {event : SwarmEvent Req Resp}
    (h : Offered L d d' event) {u : Task Req Resp} (hu : u ∈ d'.active) :
    ∃ t ∈ d.active, t.handle = u.handle ∧ (u = t ∨ u = t.afterEvent L event) := by
  obtain ⟨t, ht, hhandle⟩ :=
    List.mem_map.mp (h.handles_subperm.subset (List.mem_map_of_mem hu))
  refine ⟨t, ht, hhandle, ?_⟩
  rcases h.fate t ht with ⟨_, hactive⟩ | ⟨_, hactive, _⟩
  · exact .inr ((hactive u).mp ⟨hu, hhandle.symm⟩).2
  · exact .inl ((hactive u).mp ⟨hu, hhandle.symm⟩)

/-! ### One handle -/

namespace Desk

/-- What a step may do to a handle. -/
inductive HandleStep (L : Libp2p Req Resp) (d : Desk Req Resp) (l : Label Req Resp)
    (id : HandleId) : ResultState (Output Resp) → Prop where
  | same : HandleStep L d l id (d.handles id)
  | opened (call) (hl : l = .openCall id call) (h : d.calls id = none) : HandleStep L d l id {}
  | ready (hl : l = .handlePoll id) : HandleStep L d l id { d.handles id with result := none }
  | pending (waker) (hl : l = .handlePoll id) :
      HandleStep L d l id { d.handles id with waker := some waker }
  | dropCall (hl : l = .dropCall id) : HandleStep L d l id (d.handles id).cancel
  | ran (task) (swarm : Swarm L) (hrun : d.running = some task) (hid : task.handle = id) :
      HandleStep L d l id ((d.handles id).settle (task.command.run swarm).finished)
  | answered (t event) (hl : l = .swarmEvent event) (ht : t ∈ d.active) (hid : t.handle = id) :
      HandleStep L d l id ((d.handles id).settle (t.command.onEvent L event).finished)

theorem HandleStep.of_update {d : Desk Req Resp} {l : Label Req Resp} {id id' : HandleId}
    {s : ResultState (Output Resp)} (h : id = id' → d.HandleStep L l id s) :
    d.HandleStep L l id (Function.update d.handles id' s id) := by
  by_cases hid : id = id'
  · subst hid
    rw [Function.update_self]
    exact h rfl
  · rw [Function.update_of_ne hid]
    exact .same

end Desk

theorem DeskStep.handle {d d' : Desk Req Resp} {l : Label Req Resp}
    (hn : (d.active.map Task.handle).Nodup) (h : DeskStep L d l d') (id : HandleId) :
    d.HandleStep L l id (d'.handles id) := by
  cases h with
  | openCall call taken h =>
      refine .of_update ?_
      rintro rfl
      exact .opened call rfl h
  | ready h hp hr =>
      refine .of_update ?_
      rintro rfl
      exact .ready rfl
  | pending h hp hr =>
      refine .of_update ?_
      rintro rfl
      exact .pending _ rfl
  | dropCall h =>
      refine .of_update ?_
      rintro rfl
      exact .dropCall rfl
  | @handleCommand task swarm hrun hids hresp =>
      rw [task.runOutput_apply swarm]
      refine .of_update ?_
      rintro rfl
      exact .ran task swarm hrun rfl
  | dispatch hrun h =>
      rcases (offered_of_dispatched hn h).handle_cases id with hh | ⟨t, ht, hid, hh⟩
      · rw [hh]
        exact .same
      · rw [hh]
        exact .answered t _ rfl ht hid
  | _ => exact .same

/-- A handle is finished on an event, or when its command is run. -/
theorem Desk.outcomes_eq {d d' : Desk Req Resp} {l : Label Req Resp}
    (hn : (d.active.map Task.handle).Nodup) (h : DeskStep L d l d') {id : HandleId}
    (hcall : d.calls id ≠ none) (hevent : ∀ event, l ≠ .swarmEvent event)
    (hrun : ∀ t, d.running = some t → t.handle ≠ id) :
    (d'.handles id).outcomes = (d.handles id).outcomes := by
  have hstep := h.handle hn id
  generalize d'.handles id = s at hstep ⊢
  cases hstep with
  | opened call hl h => exact absurd h hcall
  | ran task swarm h hid => exact absurd hid (hrun task h)
  | answered t event hl ht hid => exact absurd hl (hevent event)
  | _ => rfl

end SwarmP2p
