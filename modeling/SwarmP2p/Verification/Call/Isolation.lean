import SwarmP2p.Model.Loopback
import SwarmP2p.Verification.Call.OneShot
import SwarmP2p.Verification.Call.Origin

/-! # Isolation

A command with an id is answered from the events that carry this id, as if it were
alone: whatever else is in the chain neither takes these events away nor adds to them. -/

namespace SwarmP2p

variable {Req Resp : Type} {L : Libp2p Req Resp}

/-! ### A command by itself -/

/-- The answer of a command that is offered these events and no others. -/
def Command.alone (L : Libp2p Req Resp) :
    Command Req Resp → List (SwarmEvent Req Resp) → Option (Result (Output Resp))
  | _, [] => none
  | self, event :: events =>
      match (self.onEvent L event).finished with
      | some result => some result
      | none =>
          if (self.onEvent L event).keep then (self.onEvent L event).handler.alone L events
          else none

/-- The answer of a command that is run on this swarm and then offered these events. -/
def Command.runAlone (self : Command Req Resp) (swarm : Swarm L)
    (events : List (SwarmEvent Req Resp)) : Option (Result (Output Resp)) :=
  match (self.run swarm).finished with
  | some result => some result
  | none => (self.run swarm).handler.alone L events

/-- The event of a step, if it carries this id. -/
def Label.ownEvent? (own : Option EventId) : Label Req Resp → Option (SwarmEvent Req Resp)
  | .swarmEvent event => if event.id?.isSome ∧ event.id? = own then some event else none
  | _ => none

/-- The events of a run that carry this id, in order. -/
def ownEvents (own : Option EventId)
    (π : List (Transition.Trans (Node L) (Label Req Resp))) : List (SwarmEvent Req Resp) :=
  π.filterMap fun x => x.label.ownEvent? own

/-! ### Ids -/

/-- A command without the id of the event lets it pass and does not answer. -/
theorem Command.onEvent_of_foreign {c : Command Req Resp} {event : SwarmEvent Req Resp}
    {id : EventId} (he : event.id? = some id) (hc : c.ownId? ≠ some id) :
    (c.onEvent L event).finished = none ∧ (c.onEvent L event).remaining = some event := by
  cases hk : c.kind with
  | connection =>
      refine ⟨?_, (connection_spec L hk event).remaining_eq⟩
      by_contra hf
      have hid := ((matchesConnection_iff hk event).mpr hf).id?_eq
      rw [he] at hid
      cases hid
  | prompt => simp [prompt_spec L hk event, defaultOnEvent]
  | tracked =>
      have hforeign : ¬∃ id, c.ownId? = some id ∧ event.id? = some id := by
        rintro ⟨id', hown, he'⟩
        rw [he] at he'
        exact hc (Option.some.inj he' ▸ hown)
      simp [(tracked_spec L hk event).foreign hforeign, passEvent]

namespace Desk

/-- The commands in the chain have ids that libp2p handed out. -/
def Known (d : Desk Req Resp) : Prop :=
  ∀ t ∈ d.active, ∀ i, t.command.ownId? = some i → i ∈ d.ids

/-- The id was handed out, and no command in the chain but that of `id` has it. -/
structure Sole (d : Desk Req Resp) (i : EventId) (id : HandleId) : Prop where
  mem : i ∈ d.ids
  handle_eq : ∀ t ∈ d.active, t.command.ownId? = some i → t.handle = id

/-- A step hands out one id at most, to the command that it runs. -/
structure Issued (d d' : Desk Req Resp) (new : Option EventId) : Prop where
  ids_eq : d'.ids = d.ids ++ new.toList
  active : ∀ u ∈ d'.active,
    (∃ t ∈ d.active, t.handle = u.handle ∧ t.command.ownId? = u.command.ownId?) ∨
      u.command.ownId? = new

theorem Issued.of_subset {d d' : Desk Req Resp} (hids : d'.ids = d.ids)
    (hactive : ∀ u ∈ d'.active, u ∈ d.active) : Issued d d' none :=
  ⟨by simp [hids], fun u hu => .inl ⟨u, hactive u hu, rfl, rfl⟩⟩

theorem Inv.issued {d d' : Desk Req Resp} {l : Label Req Resp} (hi : d.Inv)
    (h : DeskStep L d l d') : ∃ new, Issued d d' new := by
  cases h with
  | sweep hrun => exact ⟨none, .of_subset rfl fun u hu => List.mem_of_mem_filter hu⟩
  | @handleCommand task swarm hrun hids hresp =>
      have hspec := Command.run_spec (hi.unrun task (mem_unrun.mpr (.inl hrun))).1 swarm
      refine ⟨(task.command.run swarm).handler.ownId?, ?_, ?_⟩
      · rw [hids]
        exact hspec.called.ids_eq
      · intro u hu
        rcases List.mem_append.mp hu with hu | hu
        · exact .inl ⟨u, hu, rfl, rfl⟩
        · obtain rfl := List.mem_singleton.mp hu
          exact .inr (Command.takeRelayReservationRequest_ownId? _)
  | @dispatch event visited skipped out hrun h =>
      have hoff := offered_of_dispatched hi.active_nodup h
      refine ⟨none, by simp, fun u hu => .inl ?_⟩
      obtain ⟨t, ht, hhandle, rfl | rfl⟩ := hoff.origin hu
      · exact ⟨_, ht, hhandle, rfl⟩
      · exact ⟨t, ht, hhandle, (Command.onEvent_ownId? _ _).symm⟩
  | shutdown hrun hq hs => exact ⟨none, .of_subset rfl fun u hu => by cases hu⟩
  | _ => exact ⟨none, .of_subset rfl fun u hu => hu⟩

theorem Issued.grows {d d' : Desk Req Resp} {new : Option EventId} (h : Issued d d' new) :
    d.ids <+: d'.ids :=
  ⟨new.toList, h.ids_eq.symm⟩

theorem Known.step {d d' : Desk Req Resp} {new : Option EventId} (hk : d.Known)
    (h : Issued d d' new) : d'.Known := by
  intro u hu i hi
  rw [h.ids_eq, List.mem_append]
  rcases h.active u hu with ⟨t, ht, _, hid⟩ | hid
  · exact .inl (hk t ht i (hid.trans hi))
  · exact .inr (by simp [← hid, hi])

/-- A new id is not an old one. -/
theorem Sole.step {d d' : Desk Req Resp} {new : Option EventId} {i : EventId} {id : HandleId}
    (hs : d.Sole i id) (h : Issued d d' new) (hn : d'.ids.Nodup) : d'.Sole i id := by
  refine ⟨h.grows.subset hs.mem, ?_⟩
  intro u hu hi
  rcases h.active u hu with ⟨t, ht, hhandle, hid⟩ | hid
  · exact hhandle.symm.trans (hs.handle_eq t ht (hid.trans hi))
  · rw [h.ids_eq, ← hid, hi, List.nodup_append] at hn
    exact absurd rfl (hn.2.2 i hs.mem i (by simp))

/-! ### Answers come from `finish` -/

/-- What is stored or received was an outcome of the handle. -/
def Received (d : Desk Req Resp) : Prop :=
  ∀ id, (∀ r, (d.handles id).result = some r → r ∈ (d.handles id).outcomes) ∧
    ∀ c r, d.calls id = some c → c.phase = .ready r → r ∈ (d.handles id).outcomes

theorem Received.update {d d' : Desk Req Resp} (hr : d.Received) {id : HandleId}
    {c : ClientCall Req Resp} {handle : ResultState (Output Resp)}
    (hcalls : d'.calls = Function.update d.calls id (some c))
    (hhandles : d'.handles = Function.update d.handles id handle)
    (hresult : ∀ r, handle.result = some r → r ∈ handle.outcomes)
    (hready : ∀ r, c.phase = .ready r → r ∈ handle.outcomes) : d'.Received := by
  intro id'
  rw [hcalls, hhandles]
  by_cases hid : id' = id
  · subst hid
    simp only [Function.update_self, Option.some.injEq]
    refine ⟨hresult, ?_⟩
    rintro c' r rfl hp
    exact hready r hp
  · simp only [Function.update_of_ne hid]
    exact hr id'

/-- A step that leaves the handles alone. -/
theorem Received.update_phase {d d' : Desk Req Resp} (hr : d.Received) {id : HandleId}
    {c : ClientCall Req Resp} (hcalls : d'.calls = Function.update d.calls id (some c))
    (hhandles : d'.handles = d.handles) (hready : ∀ r, c.phase ≠ .ready r) : d'.Received := by
  have hsame : d'.handles = Function.update d.handles id (d.handles id) := by
    rw [hhandles, Function.update_eq_self]
  exact hr.update hcalls hsame (hr id).1 fun r hp => absurd hp (hready r)

/-- A step that may have called `finish`. -/
theorem Received.settle {d d' : Desk Req Resp} (hr : d.Received) (hcalls : d'.calls = d.calls)
    (hhandles : ∀ id, ∃ r, d'.handles id = (d.handles id).settle r) : d'.Received := by
  intro id
  obtain ⟨r, hh⟩ := hhandles id
  rw [hcalls, hh]
  cases r with
  | none => exact hr id
  | some r =>
      refine ⟨?_, ?_⟩
      · intro x hx
        obtain rfl := Option.some.inj hx
        simp
      · intro c x hc hp
        exact List.mem_append_left _ ((hr id).2 c x hc hp)

theorem Received.step {d d' : Desk Req Resp} {l : Label Req Resp} (hi : d.Inv)
    (hr : d.Received) (h : DeskStep L d l d') : d'.Received := by
  cases h with
  | openCall call taken h =>
      refine hr.update rfl rfl (by simp) ?_
      intro r hp
      rcases call.opened_phase taken with ⟨_, _, hphase⟩ | ⟨_, hphase⟩ <;>
        rw [hphase] at hp <;> cases hp
  | accept waker h hp => exact hr.update_phase rfl rfl (by simp)
  | refuse waker h hp => exact hr.update_phase rfl rfl (by simp)
  | @ready id c waker result h hp hres =>
      refine hr.update rfl rfl (by simp) ?_
      intro r hready
      rw [← CallPhase.ready.inj hready]
      exact (hr id).1 result hres
  | @pending id c waker h hp hres => exact hr.update rfl rfl (hr id).1 (by simp)
  | pollAgain waker h hp => exact hr.update_phase rfl rfl (by simp)
  | @dropCall id c h => exact hr.update rfl rfl (hr id).1 (by simp)
  | @handleCommand task swarm hrun hids hresp =>
      refine hr.settle rfl fun id => ?_
      rw [task.runOutput_apply swarm]
      by_cases hid : id = task.handle
      · subst hid
        exact ⟨_, Function.update_self ..⟩
      · exact ⟨none, Function.update_of_ne hid ..⟩
  | @dispatch event visited skipped out hrun h =>
      have hoff := offered_of_dispatched hi.active_nodup h
      refine hr.settle rfl fun id => ?_
      rcases hoff.handle_cases id with hh | ⟨t, _, _, hh⟩
      · exact ⟨none, hh⟩
      · exact ⟨_, hh⟩
  | _ => exact hr

/-! ### Progress of one command -/

/-- A call whose command has run, with the events of its own that came since: it waits
and `answer` goes on with the command in the chain, or it has the answer, or it was
given up. -/
inductive Progress (L : Libp2p Req Resp) (d : Desk Req Resp) (id : HandleId)
    (own : Option EventId) (answer : List (SwarmEvent Req Resp) → Option (Result (Output Resp)))
    (events : List (SwarmEvent Req Resp)) : Prop where
  | waiting (t : Task Req Resp) (ht : t ∈ d.active) (hid : t.handle = id)
      (hkind : t.command.kind = .tracked) (hown : t.command.ownId? = own)
      (hout : (d.handles id).outcomes = [])
      (hanswer : ∀ more, answer (events ++ more) = t.command.alone L more)
  | answered (r : Result (Output Resp)) (hcall : d.calls id ≠ none)
      (hkind : ∀ t ∈ d.active, t.handle = id → t.command.kind = .tracked)
      (hout : (d.handles id).outcomes = [r]) (hanswer : ∀ more, answer (events ++ more) = some r)
  | dropped (c : ClientCall Req Resp) (hc : d.calls id = some c) (hp : c.phase = .dropped)

theorem dropped_stays {d d' : Desk Req Resp} {l : Label Req Resp} (h : DeskStep L d l d')
    {id : HandleId} {c : ClientCall Req Resp} (hc : d.calls id = some c)
    (hp : c.phase = .dropped) : ∃ c', d'.calls id = some c' ∧ c'.phase = .dropped := by
  obtain ⟨phase, hc', hmoves⟩ := h.call hc
  refine ⟨_, hc', ?_⟩
  rw [hp] at hmoves
  cases hmoves with
  | same => rfl
  | dropCall => rfl

/-- Without an event, only the command that was run enters the chain. -/
theorem enters {d d' : Desk Req Resp} {l : Label Req Resp} (h : DeskStep L d l d')
    (hevent : ∀ event, l ≠ .swarmEvent event) {u : Task Req Resp} (hu : u ∈ d'.active) :
    u ∈ d.active ∨ ∃ task, d.running = some task ∧ task.handle = u.handle := by
  cases h with
  | sweep hrun => exact .inl (List.mem_of_mem_filter hu)
  | @handleCommand task swarm hrun hids hresp =>
      rcases List.mem_append.mp hu with hu | hu
      · exact .inl hu
      · obtain rfl := List.mem_singleton.mp hu
        exact .inr ⟨task, hrun, rfl⟩
  | dispatch hrun h => exact absurd rfl (hevent _)
  | shutdown hrun hq hs => cases hu
  | _ => exact .inl hu

namespace Progress

variable {d d' : Desk Req Resp} {id : HandleId} {own : Option EventId}
  {answer : List (SwarmEvent Req Resp) → Option (Result (Output Resp))}
  {events : List (SwarmEvent Req Resp)}

/-- A step without an event does not answer. -/
theorem quiet {l : Label Req Resp} (hi : d.Inv) (hp : Progress L d id own answer events)
    (h : DeskStep L d l d') (hevent : ∀ event, l ≠ .swarmEvent event) :
    Progress L d' id own answer events := by
  cases hp with
  | waiting t ht hid hkind hown hout hanswer =>
      subst hid
      obtain ⟨c, hc, _⟩ := hi.sent t (mem_tasks.mpr (.inr ht))
      have hrun : ∀ u, d.running = some u → u.handle ≠ t.handle := fun u hu =>
        (hi.active_ne_unrun ht (mem_unrun.mpr (.inl hu))).symm
      have hout' := outcomes_eq hi.active_nodup h (by simp [hc]) hevent hrun
      rcases hi.stays h hevent ht with ht' | ⟨c', hc', hp'⟩
      · exact .waiting t ht' rfl hkind hown (hout'.trans hout) hanswer
      · exact .dropped c' hc' hp'
  | answered r hcall hkind hout hanswer =>
      have hrun : ∀ u, d.running = some u → u.handle ≠ id := by
        rintro u hu rfl
        rw [(hi.unrun u (mem_unrun.mpr (.inl hu))).2.1] at hout
        cases hout
      obtain ⟨c, hc⟩ := Option.ne_none_iff_exists'.mp hcall
      obtain ⟨c', hc', _⟩ := SameCalls.of_step h id c hc
      have hout' := outcomes_eq hi.active_nodup h hcall hevent hrun
      refine .answered r (by simp [hc']) ?_ (hout'.trans hout) hanswer
      intro u hu hid
      rcases enters h hevent hu with hu | ⟨task, htask, hhandle⟩
      · exact hkind u hu hid
      · exact absurd (hhandle.trans hid) (hrun task htask)
  | dropped c hc hp =>
      obtain ⟨c', hc', hp'⟩ := dropped_stays h hc hp
      exact .dropped c' hc' hp'

/-- The command takes one event of its own. -/
theorem take {t : Task Req Resp} {event : SwarmEvent Req Resp}
    (hkind : t.command.kind = .tracked) (hown : t.command.ownId? = own)
    (hout : (d.handles t.handle).outcomes = [])
    (hanswer : ∀ more, answer (events ++ more) = t.command.alone L more)
    (hcalls : d'.calls = d.calls) (hcall : d.calls t.handle ≠ none)
    (hhandle : d'.handles t.handle =
      (d.handles t.handle).settle (t.command.onEvent L event).finished)
    (hactive : ∀ u, (u ∈ d'.active ∧ u.handle = t.handle) ↔
      ((t.command.onEvent L event).keep = true ∧ u = t.afterEvent L event)) :
    Progress L d' t.handle own answer (events ++ [event]) := by
  have hkeep := (Command.tracked_spec L hkind event).keep_iff
  have hnext : ∀ more, answer (events ++ [event] ++ more) =
      t.command.alone L (event :: more) := by
    intro more
    rw [List.append_assoc]
    exact hanswer (event :: more)
  cases hf : (t.command.onEvent L event).finished with
  | none =>
      refine .waiting (t.afterEvent L event) ((hactive _).mpr ⟨hkeep.mpr hf, rfl⟩).1 rfl ?_ ?_ ?_ ?_
      · exact (Command.onEvent_kind t.command event).trans hkind
      · exact (Command.onEvent_ownId? t.command event).trans hown
      · rw [hhandle, hf]
        exact hout
      · intro more
        rw [hnext]
        simp [Command.alone, hf, hkeep.mpr hf, Task.afterEvent]
  | some r =>
      refine .answered r (by rwa [hcalls]) ?_ ?_ ?_
      · intro u hu hid
        have hgone := ((hactive u).mp ⟨hu, hid⟩).1
        rw [hkeep, hf] at hgone
        cases hgone
      · rw [hhandle, hf, ResultState.settle_some, ResultState.finish_outcomes, hout]
        rfl
      · intro more
        rw [hnext]
        simp [Command.alone, hf]

/-- An event of the command's own is offered to it, and another event changes nothing. -/
theorem event {event : SwarmEvent Req Resp} (hi : d.Inv)
    (hs : ∀ i, own = some i → d.Sole i id) (hp : Progress L d id own answer events)
    (h : DeskStep L d (.swarmEvent event) d') :
    Progress L d' id own answer
      (events ++ ((Label.swarmEvent event : Label Req Resp).ownEvent? own).toList) := by
  have hoff := h.offered hi.active_nodup
  cases hp with
  | waiting t ht hid hkind hown hout hanswer =>
      subst hid
      obtain ⟨c, hc, _⟩ := hi.sent t (mem_tasks.mpr (.inr ht))
      by_cases hevent : event.id?.isSome ∧ event.id? = own
      · rw [Label.ownEvent?, if_pos hevent]
        rcases hoff.fate t ht with ⟨hh, hactive⟩ | ⟨_, _, u, hu, hne, i, hi', he⟩
        · exact take hkind hown hout hanswer h.calls_eq (by simp [hc]) hh hactive
        · -- The consumer would have the same id.
          exact absurd ((hs i (hevent.2.symm.trans he)).handle_eq u hu hi') hne
      · rw [Label.ownEvent?, if_neg hevent, Option.toList_none, List.append_nil]
        have hforeign : ¬∃ i, t.command.ownId? = some i ∧ event.id? = some i := by
          rintro ⟨i, hi', he⟩
          exact hevent ⟨by simp [he], he.trans (hi'.symm.trans hown)⟩
        have hpass := (Command.tracked_spec L hkind event).foreign hforeign
        have hstay : t ∈ d'.active ∧ d'.handles t.handle = d.handles t.handle := by
          rcases hoff.fate t ht with ⟨hh, hactive⟩ | ⟨hh, hactive, _⟩
          · rw [hpass] at hh hactive
            refine ⟨((hactive t).mpr ⟨rfl, ?_⟩).1, hh⟩
            rw [Task.afterEvent, hpass]
            rfl
          · exact ⟨((hactive t).mpr rfl).1, hh⟩
        exact .waiting t hstay.1 rfl hkind hown (hstay.2 ▸ hout) hanswer
  | answered r hcall hkind hout hanswer =>
      refine .answered r (by rwa [h.calls_eq]) ?_ ?_ ?_
      · intro u hu hid
        obtain ⟨t, ht, hhandle, rfl | rfl⟩ := hoff.origin hu
        · exact hkind _ ht hid
        · exact (Command.onEvent_kind t.command event).trans (hkind t ht hid)
      · by_cases hid : ∃ t ∈ d.active, t.handle = id
        · obtain ⟨t, ht, rfl⟩ := hid
          have hnone : (t.command.onEvent L event).finished = none := by
            refine hi.finished_none ht (by simp [hout]) fun hm => ?_
            have hconnection := hm.kind_eq
            rw [hkind t ht rfl] at hconnection
            cases hconnection
          rcases hoff.fate t ht with ⟨hh, _⟩ | ⟨hh, _⟩
          · rw [hh, hnone]
            exact hout
          · rw [hh]
            exact hout
        · rw [hoff.outside id fun t ht hh => hid ⟨t, ht, hh⟩]
          exact hout
      · intro more
        rw [List.append_assoc]
        exact hanswer _
  | dropped c hc hp => exact .dropped c ((congrFun h.calls_eq id).trans hc) hp

theorem step {l : Label Req Resp} (hi : d.Inv) (hs : ∀ i, own = some i → d.Sole i id)
    (hp : Progress L d id own answer events) (h : DeskStep L d l d') :
    Progress L d' id own answer (events ++ (l.ownEvent? own).toList) := by
  cases l with
  | swarmEvent event => exact hp.event hi hs h
  | _ =>
      simp only [Label.ownEvent?, Option.toList_none, List.append_nil]
      exact hp.quiet hi h (by simp)

/-- The answer is that of the command alone, unless the call was given up. -/
theorem outcomes_eq (hp : Progress L d id own answer events) {c : ClientCall Req Resp}
    (hc : d.calls id = some c) (hdropped : c.phase ≠ .dropped) :
    (d.handles id).outcomes = (answer events).toList := by
  cases hp with
  | waiting t ht hid hkind hown hout hanswer =>
      have halone := hanswer []
      rw [List.append_nil] at halone
      rw [hout, halone]
      rfl
  | answered r hcall hkind hout hanswer =>
      have hdone := hanswer []
      rw [List.append_nil] at hdone
      rw [hout, hdone]
      rfl
  | dropped c' hc' hp =>
      rw [hc] at hc'
      exact absurd (Option.some.inj hc' ▸ hp) hdropped

end Progress

end Desk

/-! ### Runs -/

theorem Run.ids_subset {n m : Node L} {π : List (Transition.Trans (Node L) (Label Req Resp))}
    (h : Run L n π m) (hi : n.desk.Inv) : m.desk.Inv ∧ n.desk.ids <+: m.desk.ids := by
  refine Transition.Path.invariant
    (I := fun m : Node L => m.desk.Inv ∧ n.desk.ids <+: m.desk.ids) h
    ⟨hi, [], List.append_nil _⟩ ?_
  rintro a l b ⟨ha, hsub⟩ hs
  obtain ⟨new, hnew⟩ := ha.issued hs.desk
  exact ⟨ha.step hs.desk, hsub.trans hnew.grows⟩

theorem Reachable.known {config : NodeConfig} {n : Node L} (h : Reachable L config n) :
    n.desk.Known := by
  refine (Transition.Reachable.invariant
    (I := fun n : Node L => n.desk.Inv ∧ n.desk.Known) h ?_ ?_).2
  · intro a hs
    refine ⟨hs.fresh.inv, ?_⟩
    rw [hs.fresh.desk_eq]
    intro t ht
    cases ht
  · rintro a l b ⟨hi, hk⟩ hs
    obtain ⟨new, hnew⟩ := hi.issued hs.desk
    exact ⟨hi.step hs.desk, hk.step hnew⟩

theorem Reachable.received {config : NodeConfig} {n : Node L} (h : Reachable L config n) :
    n.desk.Received := by
  refine (Transition.Reachable.invariant
    (I := fun n : Node L => n.desk.Inv ∧ n.desk.Received) h ?_ ?_).2
  · intro a hs
    refine ⟨hs.fresh.inv, ?_⟩
    rw [hs.fresh.desk_eq]
    intro id
    simp
  · rintro a l b ⟨hi, hr⟩ hs
    exact ⟨hi.step hs.desk, hr.step hi hs.desk⟩

theorem Run.progress {n m : Node L} {ρ : List (Transition.Trans (Node L) (Label Req Resp))}
    {id : HandleId} {own : Option EventId}
    {answer : List (SwarmEvent Req Resp) → Option (Result (Output Resp))}
    (h : Run L n ρ m) (hi : n.desk.Inv) (hs : ∀ i, own = some i → n.desk.Sole i id)
    (hp : Desk.Progress L n.desk id own answer []) (hids : m.desk.ids.Nodup) :
    (∀ i, own = some i → m.desk.Sole i id) ∧
      Desk.Progress L m.desk id own answer (ownEvents own ρ) := by
  induction h with
  | nil => exact ⟨hs, hp⟩
  | @snoc ρ a l b hpath hstep ih =>
      have ha := (Run.ids_subset hpath hi).1
      obtain ⟨new, hnew⟩ := ha.issued hstep.desk
      obtain ⟨hsole, hprogress⟩ := ih (hids.sublist hnew.grows.sublist)
      refine ⟨fun i hown => (hsole i hown).step hnew hids, ?_⟩
      have hlast : ownEvents own (ρ ++ [⟨a, l, b⟩]) =
          ownEvents own ρ ++ (l.ownEvent? own).toList := by
        unfold ownEvents
        rw [List.filterMap_append, List.filterMap_cons]
        cases l.ownEvent? own <;> rfl
      rw [hlast]
      exact hprogress.step ha hsole hstep.desk

/-! ### What a command answers -/

/-- The id that the command got when it ran. -/
def Task.own (task : Task Req Resp) (swarm : Swarm L) : Option EventId :=
  (task.command.run swarm).handler.ownId?

/-- What the caller of a command sees of a run that starts after the command has run.
Its events are taken by nobody else, and those that come too late reach nobody. -/
structure Isolated (n : Node L) (task : Task Req Resp)
    (ρ : List (Transition.Trans (Node L) (Label Req Resp))) (m : Node L) : Prop where
  answer : ∀ c, m.calls task.handle = some c → c.phase ≠ .dropped →
    (m.handles task.handle).outcomes =
      (task.command.runAlone n.loop.swarm (ownEvents (task.own n.loop.swarm) ρ)).toList
  received : ∀ c r, m.calls task.handle = some c → c.phase = .ready r →
    task.command.runAlone n.loop.swarm (ownEvents (task.own n.loop.swarm) ρ) = some r
  untouched : ∀ x ∈ ρ, ∀ event, x.label.ownEvent? (task.own n.loop.swarm) = some event →
    ∀ t ∈ x.pre.loop.activeCommands, t.handle ≠ task.handle →
      (t.command.onEvent L event).remaining = some event
  unreported : ∀ x ∈ ρ, ∀ event, x.label.ownEvent? (task.own n.loop.swarm) = some event →
    x.post.phase = .top
  leftover : ∀ x ∈ ρ, ∀ event, x.label.ownEvent? (task.own n.loop.swarm) = some event →
    (x.pre.handles task.handle).outcomes ≠ [] ∨
      (∃ c, x.pre.calls task.handle = some c ∧ c.phase = .dropped) →
    x.post.calls = x.pre.calls ∧
      ∀ id c, x.post.calls id = some c → c.phase ≠ .dropped →
        x.post.handles id = x.pre.handles id

theorem Label.ownEvent?_eq_some {own : Option EventId} {l : Label Req Resp}
    {event : SwarmEvent Req Resp} (h : l.ownEvent? own = some event) :
    l = .swarmEvent event ∧ ∃ i, event.id? = some i ∧ own = some i := by
  cases l with
  | swarmEvent e =>
      simp only [ownEvent?] at h
      split at h
      · rename_i hown
        obtain rfl := Option.some.inj h
        obtain ⟨i, hi⟩ := Option.isSome_iff_exists.mp hown.1
        exact ⟨rfl, i, hi, hown.2.symm.trans hi⟩
      · cases h
  | _ => cases h

/-- An event with an id is translated into no node event. -/
theorem Step.phase_of_id {n m : Node L} {event : SwarmEvent Req Resp} {i : EventId}
    (h : Step n (.swarmEvent event) m) (hi : event.id? = some i) : m.phase = .top := by
  cases h with
  | @swarmEvent _ state order hp hn ho =>
      rcases (n.withSwarmState state).handleSwarmEvent_cases order event with ⟨_, h⟩ | ⟨_, h⟩
      · rw [h]
      · rw [h, EventLoop.convertToNodeEvent_of_id _ _ _ hi]

theorem Desk.Inv.leftover {d d' : Desk Req Resp} {event : SwarmEvent Req Resp} {i : EventId}
    {id : HandleId} (hi : d.Inv) (hs : d.Sole i id) (hevent : event.id? = some i)
    (h : DeskStep L d (.swarmEvent event) d')
    (hdone : (d.handles id).outcomes ≠ [] ∨ ∃ c, d.calls id = some c ∧ c.phase = .dropped)
    {id' : HandleId} {c : ClientCall Req Resp} (hc : d'.calls id' = some c)
    (hp : c.phase ≠ .dropped) : d'.handles id' = d.handles id' := by
  have hoff := h.offered hi.active_nodup
  rcases hoff.handle_cases id' with hh | ⟨t, ht, rfl, hh⟩
  · exact hh
  · have hnone : (t.command.onEvent L event).finished = none := by
      by_cases hown : t.command.ownId? = some i
      · have hhandle := hs.handle_eq t ht hown
        rcases hdone with hout | ⟨c', hc', hp'⟩
        · rw [← hhandle] at hout
          rw [hi.answered t ht hout] at hown
          cases hown
        · rw [h.calls_eq, hhandle, hc'] at hc
          exact absurd (Option.some.inj hc ▸ hp') hp
      · exact (Command.onEvent_of_foreign hevent hown).1
    rw [hh, hnone, ResultState.settle_none]

/-- The command has run and waits, or it has answered in `run`. -/
theorem Node.progress_start {n : Node L} (hi : n.desk.Inv) {task : Task Req Resp}
    (hp : n.phase = .running task) (hk : task.command.kind = .tracked) :
    Desk.Progress L (n.handleCommand task).desk task.handle (task.own n.loop.swarm)
      (task.command.runAlone n.loop.swarm) [] := by
  have hmem : task ∈ n.desk.unrun :=
    Desk.mem_unrun.mpr (.inl (by simp [Node.desk, hp, LoopPhase.task?]))
  obtain ⟨hid, hempty, _⟩ := hi.unrun task hmem
  have hspec := Command.run_spec hid n.loop.swarm
  obtain ⟨c, hc, _⟩ := hi.sent task (Desk.mem_tasks.mpr (.inl hmem))
  have hhandler : (task.afterRun n.loop.swarm).command =
      (task.command.run n.loop.swarm).handler := by
    have hkind : (task.command.run n.loop.swarm).handler.kind ≠ .prompt := by
      rw [hspec.kind_eq, hk]
      simp
    exact congrArg Prod.fst (Command.takeRelayReservationRequest_of_kind_ne hkind)
  have hactive : ∀ t ∈ (n.handleCommand task).desk.active, t.handle = task.handle →
      t = task.afterRun n.loop.swarm := by
    intro t ht hhandle
    rw [show (n.handleCommand task).desk.active = _ from n.handleCommand_active task] at ht
    rcases List.mem_append.mp ht with ht | ht
    · exact absurd hhandle (hi.active_ne_unrun ht hmem)
    · exact List.mem_singleton.mp ht
  have hhandle : (n.handleCommand task).desk.handles task.handle =
      (n.handles task.handle).settle (task.command.run n.loop.swarm).finished :=
    (n.handleCommand_settle task task.handle).trans (if_pos rfl)
  have hempty' : (n.handles task.handle).outcomes = [] := hempty
  cases hf : (task.command.run n.loop.swarm).finished with
  | none =>
      refine .waiting (task.afterRun n.loop.swarm) ?_ rfl ?_ ?_ ?_ ?_
      · rw [show (n.handleCommand task).desk.active = _ from n.handleCommand_active task]
        exact List.mem_append_right _ (List.mem_singleton_self _)
      · rw [hhandler, hspec.kind_eq, hk]
      · rw [hhandler]
        rfl
      · rw [hhandle, hf]
        exact hempty'
      · intro more
        rw [hhandler, List.nil_append, Command.runAlone, hf]
  | some r =>
      refine .answered r ?_ ?_ ?_ ?_
      · rw [show (n.handleCommand task).desk.calls task.handle = some c from hc]
        simp
      · intro t ht hid
        rw [hactive t ht hid, hhandler, hspec.kind_eq, hk]
      · rw [hhandle, hf, ResultState.settle_some, ResultState.finish_outcomes, hempty']
        rfl
      · intro more
        rw [Command.runAlone, hf]

theorem Node.sole_start {n : Node L} (hi : n.desk.Inv) (hknown : n.desk.Known)
    {task : Task Req Resp} (hp : n.phase = .running task)
    (hids : (n.handleCommand task).desk.ids.Nodup) {i : EventId}
    (hown : task.own n.loop.swarm = some i) :
    (n.handleCommand task).desk.Sole i task.handle := by
  have hmem : task ∈ n.desk.unrun :=
    Desk.mem_unrun.mpr (.inl (by simp [Node.desk, hp, LoopPhase.task?]))
  have hspec := Command.run_spec (hi.unrun task hmem).1 n.loop.swarm
  have hgrown : (n.handleCommand task).desk.ids = n.desk.ids ++ [i] := by
    have hcalled := hspec.called.ids_eq
    rw [show (task.command.run n.loop.swarm).handler.ownId? = some i from hown] at hcalled
    exact (n.handleCommand_swarm task).ids_eq.trans hcalled
  refine ⟨by simp [hgrown], ?_⟩
  intro t ht hid
  rw [show (n.handleCommand task).desk.active = _ from n.handleCommand_active task] at ht
  rcases List.mem_append.mp ht with ht | ht
  · rw [hgrown, List.nodup_append] at hids
    exact absurd rfl (hids.2.2 i (hknown t ht i hid) i (by simp))
  · obtain rfl := List.mem_singleton.mp ht
    rfl

/-- The answer of a command depends on the events with its own id alone, and nobody else takes
them, whatever runs beside it. -/
theorem isolation {config : NodeConfig} {n m : Node L} {task : Task Req Resp}
    {ρ : List (Transition.Trans (Node L) (Label Req Resp))} (hr : Reachable L config n)
    (hp : n.phase = .running task) (hk : task.command.kind = .tracked)
    (h : Run L (n.handleCommand task) ρ m) (hids : m.loop.swarm.ids.Nodup) :
    Isolated n task ρ m := by
  have hr' : Reachable L config (n.handleCommand task) := hr.next (.handleCommand hp)
  have hi' := hr'.inv
  have hsole : ∀ i, task.own n.loop.swarm = some i →
      (n.handleCommand task).desk.Sole i task.handle := fun i hown =>
    Node.sole_start hr.inv hr.known hp
      (hids.sublist (Run.ids_subset h hi').2.sublist) hown
  have hstart := Node.progress_start hr.inv hp hk
  -- The same at each step of the run, whose ids are among those of its end.
  have hstep : ∀ x ∈ ρ, ∀ event, x.label.ownEvent? (task.own n.loop.swarm) = some event →
      x.pre.desk.Inv ∧ Step x.pre (.swarmEvent event) x.post ∧
        ∃ i, event.id? = some i ∧ x.pre.desk.Sole i task.handle := by
    intro x hx event hown
    obtain ⟨hlabel, i, hevent, hi⟩ := Label.ownEvent?_eq_some hown
    obtain ⟨π, χ, _, hbefore, hs, hafter⟩ := h.split hx
    have hinv := (Run.ids_subset hbefore hi').1
    obtain ⟨new, hnew⟩ := hinv.issued hs.desk
    have hsub := hnew.grows.trans (Run.ids_subset hafter (hinv.step hs.desk)).2
    rw [hlabel] at hs
    exact ⟨hinv, hs, i, hevent,
      (Run.progress hbefore hi' hsole hstart (hids.sublist hsub.sublist)).1 i hi⟩
  have hend := (Run.progress h hi' hsole hstart hids).2
  refine ⟨?_, ?_, ?_, ?_, ?_⟩
  · intro c hc hdropped
    exact hend.outcomes_eq hc hdropped
  · intro c r hc hready
    have hend' : Reachable L config m := hr'.path h
    have hmem := (hend'.received task.handle).2 c r hc hready
    rw [hend.outcomes_eq hc (by simp [hready])] at hmem
    exact Option.mem_toList.mp hmem
  · intro x hx event hown t ht hne
    obtain ⟨_, _, i, hevent, hs⟩ := hstep x hx event hown
    exact (Command.onEvent_of_foreign hevent fun hid => hne (hs.handle_eq t ht hid)).2
  · intro x hx event hown
    obtain ⟨_, hs, i, hevent, _⟩ := hstep x hx event hown
    exact hs.phase_of_id hevent
  · intro x hx event hown hdone
    obtain ⟨hinv, hs, i, hevent, hsole⟩ := hstep x hx event hown
    exact ⟨hs.desk.calls_eq, fun id c hc hp' =>
      hinv.leftover hsole hevent hs.desk hdone hc hp'⟩

/-! ### A query -/

namespace Loopback

def key : RecordKey := ⟨[1]⟩

def recordTask : Task String String := ⟨.getRecord (.new key), 0⟩

def recordQueued : Node loopback :=
  ((node []).openCall 0 (.getRecord key)).firstPoll 0
    ⟨.getRecord key, none, .created (.getRecord (.new key))⟩ (.getRecord (.new key)) 0

def recordReceived : Node loopback :=
  { recordQueued.sweep with
    loop := { recordQueued.sweep.loop with commandRx := .new _ }
    phase := .running recordTask }

def recordStarted : Node loopback := recordReceived.handleCommand recordTask

/-- The only step of the query, with the record. -/
def recordEvent : SwarmEvent String String :=
  .behaviour (.kad (.outboundQueryProgressed ⟨0⟩ (.getRecord (.ok (.foundRecord ⟨key, [2]⟩)))
    ⟨none, 1, 1, 0⟩ true))

def recordFound : Node loopback :=
  (recordStarted.sweep.withSwarmState recordStarted.loop.swarm.state).handleSwarmEvent []
    recordEvent

def recordReady : Node loopback :=
  recordFound.handlePoll 0 ⟨.getRecord key, none, .polling 0⟩ 0

theorem recordReceived_reachable : Reachable loopback (config []) recordReceived :=
  ((((reachable []).next (.openCall (.getRecord key) (by decide) rfl)).next
    (.firstPoll 0 rfl rfl)).next (.sweep rfl)).next (.recvCommand rfl rfl)

end Loopback

theorem isolation_record :
    Isolated Loopback.recordReceived Loopback.recordTask
      [⟨Loopback.recordStarted, .sweep, Loopback.recordStarted.sweep⟩,
        ⟨Loopback.recordStarted.sweep, .swarmEvent Loopback.recordEvent, Loopback.recordFound⟩,
        ⟨Loopback.recordFound, .handlePoll 0, Loopback.recordReady⟩]
      Loopback.recordReady :=
  isolation Loopback.recordReceived_reachable rfl rfl
    (((Transition.Path.single (.sweep rfl)).snoc
      (.swarmEvent rfl rfl ⟨List.nodup_nil, fun _ => .rfl⟩)).snoc (.handlePoll rfl rfl))
    (by decide)

end SwarmP2p
