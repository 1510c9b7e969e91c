import SwarmP2p.Verification.Call.Isolation

/-! # The steps of a query

A lookup answers from the progress events of its query, in order. Each of them merges
its statistics into those held; the one marked as the last ends the query. -/

namespace SwarmP2p

variable {Req Resp : Type} {L : Libp2p Req Resp}

/-- What a progress event reports. -/
structure QueryStep where
  result : QueryResult
  stats : QueryStats

namespace QueryStep

def event (id : QueryId) (last : Bool) (s : QueryStep) : SwarmEvent Req Resp :=
  .behaviour (.kad (.outboundQueryProgressed id s.result s.stats last))

/-- The providers of the step, if it found some. -/
def found (s : QueryStep) : List PeerId :=
  match s.result with
  | .getProviders (.ok (.foundProviders providers)) => providers.elems
  | _ => []

/-- The record of the step, if it found one. -/
def record? (s : QueryStep) : Option Record :=
  match s.result with
  | .getRecord (.ok (.foundRecord record)) => some record
  | _ => none

theorem found_nodup (s : QueryStep) : s.found.Nodup := by
  unfold found
  split
  · rename_i providers _
    exact providers.nodup
  · exact List.nodup_nil

end QueryStep

/-- Among the events, those of the query are these steps, and the final one is marked as
the last. -/
def ProgressOf (id : QueryId) (events : List (SwarmEvent Req Resp)) (steps : List QueryStep)
    (final : QueryStep) : Prop :=
  events.filter (fun event => decide (event.id? = some (.query id))) =
    steps.map (QueryStep.event id false) ++ [final.event id true]

/-- A command with an id does not notice the events that carry another id or none. -/
theorem Command.alone_filter {c : Command Req Resp} {id : EventId} (hk : c.kind = .tracked)
    (hid : c.ownId? = some id) (events : List (SwarmEvent Req Resp)) :
    c.alone L events = c.alone L (events.filter fun event => decide (event.id? = some id)) := by
  induction events generalizing c with
  | nil => rfl
  | cons event events ih =>
      by_cases he : event.id? = some id
      · rw [List.filter_cons_of_pos (by simpa using he)]
        have hrest := ih ((c.onEvent_kind event).trans hk)
          (((tracked_spec (L := L) hk event).ownId_eq).trans hid)
        simp only [alone, hrest]
      · rw [List.filter_cons_of_neg (by simpa using he), ← ih hk hid]
        have hpass := (tracked_spec (L := L) hk event).foreign (by
          rintro ⟨i, hi, hevent⟩
          rw [hid] at hi
          exact he (Option.some.inj hi ▸ hevent))
        simp [alone, hpass, passEvent]

/-! ### Statistics -/

/-- The statistics that are held after these steps. -/
def mergedStats (L : Libp2p Req Resp) (held : Option QueryStats) (steps : List QueryStep) :
    Option QueryStats :=
  steps.foldl (fun stats s => mergeStats L stats s.stats) held

/-! ### `get_providers` -/

namespace GetProvidersCommand

theorem onEvent_found {c : GetProvidersCommand} {id : QueryId} (hid : c.queryId = some id)
    {s : QueryStep} {ok : GetProvidersOk} (hs : s.result = .getProviders (.ok ok))
    (last : Bool) :
    c.onEvent L (s.event id last : SwarmEvent Req Resp) =
      conclude
        { c with
          stats := mergeStats L c.stats s.stats
          providers := c.providers ++ s.found }
        (mergedInfo L c.stats s.stats) last := by
  simp only [QueryStep.event, QueryStep.found, hs, onEvent, hid, if_true]
  cases ok with
  | foundProviders providers => rfl
  | finishedWithNoAdditionalRecord peers =>
      dsimp only
      rw [List.append_nil]

/-- Without errors, the batches are appended one after the other. -/
theorem alone_found {c : GetProvidersCommand} {id : QueryId} (hid : c.queryId = some id)
    {steps : List QueryStep} {final : QueryStep}
    (hs : ∀ s ∈ steps, ∃ ok, s.result = .getProviders (.ok ok))
    (hf : ∃ ok, final.result = .getProviders (.ok ok)) :
    (Command.getProviders c : Command Req Resp).alone L
        (steps.map (QueryStep.event id false) ++ [final.event id true]) =
      some (.ok (.providers ⟨c.providers ++ (steps ++ [final]).flatMap QueryStep.found,
        mergedInfo L (mergedStats L c.stats steps) final.stats⟩)) := by
  induction steps generalizing c with
  | nil =>
      obtain ⟨ok, hok⟩ := hf
      have hone := onEvent_found (L := L) hid hok true
      simp [Command.alone, Command.onEvent, hone, conclude, OnEvent.map, Except.map, mergedStats]
  | cons s steps ih =>
      obtain ⟨ok, hok⟩ := hs s (List.mem_cons_self ..)
      have hone := onEvent_found (L := L) hid hok false
      have hrest := ih (c := { c with
          stats := mergeStats L c.stats s.stats
          providers := c.providers ++ s.found }) hid
        fun t ht => hs t (List.mem_cons_of_mem _ ht)
      simp only [List.map_cons, List.cons_append, Command.alone, Command.onEvent, hone, conclude,
        OnEvent.map, Option.map_none, if_false, if_true, Bool.false_eq_true]
      rw [hrest]
      simp [mergedStats]

theorem onEvent_error {c : GetProvidersCommand} {id : QueryId} (hid : c.queryId = some id)
    {s : QueryStep} {e : String} (hs : s.result = .getProviders (.error e)) (last : Bool) :
    (c.onEvent L (s.event id last : SwarmEvent Req Resp)).finished =
      some (.error (.kad ("GetProviders: " ++ e))) := by
  simp only [QueryStep.event, hs, onEvent, hid, if_true]

/-- An answer means that no step was an error. -/
theorem ok_of_alone {c : GetProvidersCommand} {id : QueryId} (hid : c.queryId = some id)
    {steps : List QueryStep} {final : QueryStep}
    (hs : ∀ s ∈ steps, ∃ res, s.result = .getProviders res)
    (hf : ∃ res, final.result = .getProviders res) {output : Output Resp}
    (h : (Command.getProviders c : Command Req Resp).alone L
      (steps.map (QueryStep.event id false) ++ [final.event id true]) = some (.ok output)) :
    (∀ s ∈ steps, ∃ ok, s.result = .getProviders (.ok ok)) ∧
      ∃ ok, final.result = .getProviders (.ok ok) := by
  induction steps generalizing c with
  | nil =>
      obtain ⟨res, hres⟩ := hf
      cases res with
      | ok ok => exact ⟨fun s hmem => (by cases hmem), ok, hres⟩
      | error e =>
          have hone : (c.onEvent L (final.event id true : SwarmEvent Req Resp)).finished = _ :=
            onEvent_error hid hres true
          simp [Command.alone, Command.onEvent, hone, OnEvent.map, Except.map] at h
  | cons s steps ih =>
      obtain ⟨res, hres⟩ := hs s (List.mem_cons_self ..)
      cases res with
      | ok ok =>
          have hone := onEvent_found (L := L) hid hres false
          simp only [List.map_cons, List.cons_append, Command.alone, Command.onEvent, hone,
            conclude, OnEvent.map, Option.map_none, if_false, if_true, Bool.false_eq_true] at h
          obtain ⟨hrest, hlast⟩ := ih (c := { c with
              stats := mergeStats L c.stats s.stats
              providers := c.providers ++ s.found }) hid
            (fun t ht => hs t (List.mem_cons_of_mem _ ht)) h
          exact ⟨List.forall_mem_cons.mpr ⟨⟨ok, hres⟩, hrest⟩, hlast⟩
      | error e =>
          have hone : (c.onEvent L (s.event id false : SwarmEvent Req Resp)).finished = _ :=
            onEvent_error hid hres false
          simp [Command.alone, Command.onEvent, hone, OnEvent.map, Except.map] at h

end GetProvidersCommand

/-! ### `get_record` -/

namespace GetRecordCommand

theorem hold_eq (c : GetRecordCommand) {s : QueryStep} {ok : GetRecordOk}
    (hs : s.result = .getRecord (.ok ok)) : c.hold ok = c.record.or s.record? := by
  cases hr : c.record <;> cases ok <;> simp [hold, hr, QueryStep.record?, hs]

theorem record?_of_error {s : QueryStep} {e : String} (hs : s.result = .getRecord (.error e)) :
    s.record? = none := by
  simp [QueryStep.record?, hs]

/-- A step that is not the last keeps the first record found, and answers nothing. -/
theorem onEvent_waits {c : GetRecordCommand} {id : QueryId} (hid : c.queryId = some id)
    {s : QueryStep} {res : Except String GetRecordOk} (hs : s.result = .getRecord res) :
    c.onEvent L (s.event id false : SwarmEvent Req Resp) =
      ⟨{ c with stats := mergeStats L c.stats s.stats, record := c.record.or s.record? },
        none, true, none⟩ := by
  cases res with
  | ok ok =>
      simp only [QueryStep.event, hs, onEvent, hid, if_true, c.hold_eq hs]
      rfl
  | error e =>
      simp only [QueryStep.event, hs, onEvent, hid, if_true, record?_of_error hs, Option.or_none]
      simp [conclude]

theorem onEvent_answers {c : GetRecordCommand} {id : QueryId} (hid : c.queryId = some id)
    {s : QueryStep} {res : Except String GetRecordOk} (hs : s.result = .getRecord res)
    {result : GetRecordResult}
    (h : (c.onEvent L (s.event id true : SwarmEvent Req Resp)).finished = some (.ok result)) :
    result.stats = mergedInfo L c.stats s.stats := by
  have hconclude : ∀ {self : GetRecordCommand} {info : QueryStatsInfo},
      (self.conclude info true : OnEvent Req Resp GetRecordCommand GetRecordResult).finished =
        some (.ok result) → result.stats = info := by
    intro self info h
    unfold conclude at h
    simp only [if_true] at h
    split at h
    · cases h
      rfl
    · cases h
  simp only [QueryStep.event, hs, onEvent, hid, if_true] at h
  cases res with
  | ok ok => exact hconclude h
  | error e =>
      dsimp only at h
      split at h
      · cases h
      · exact hconclude h

/-- An answer carries the statistics merged over all steps. -/
theorem stats_of_alone {c : GetRecordCommand} {id : QueryId} (hid : c.queryId = some id)
    {steps : List QueryStep} {final : QueryStep}
    (hs : ∀ s ∈ steps, ∃ res, s.result = .getRecord res)
    (hf : ∃ res, final.result = .getRecord res) {output : Output Resp}
    (h : (Command.getRecord c : Command Req Resp).alone L
      (steps.map (QueryStep.event id false) ++ [final.event id true]) = some (.ok output)) :
    ∃ record, output =
      .record ⟨record, mergedInfo L (mergedStats L c.stats steps) final.stats⟩ := by
  induction steps generalizing c with
  | nil =>
      obtain ⟨res, hres⟩ := hf
      cases hfin : (c.onEvent L (final.event id true : SwarmEvent Req Resp)).finished with
      | none => simp [Command.alone, Command.onEvent, OnEvent.map, hfin] at h
      | some answer =>
          simp only [List.map_nil, List.nil_append, Command.alone, Command.onEvent, OnEvent.map,
            hfin, Option.map_some, Option.some.injEq] at h
          cases answer with
          | error e => cases h
          | ok result =>
              obtain rfl := Except.ok.inj h
              refine ⟨result.record, congrArg Output.record ?_⟩
              rw [show mergedStats L c.stats [] = c.stats from rfl,
                ← onEvent_answers hid hres hfin]
  | cons s steps ih =>
      obtain ⟨res, hres⟩ := hs s (List.mem_cons_self ..)
      have hone : c.onEvent L (s.event id false : SwarmEvent Req Resp) = _ :=
        onEvent_waits hid hres
      simp only [List.map_cons, List.cons_append, Command.alone, Command.onEvent, hone,
        OnEvent.map, Option.map_none, if_true] at h
      exact ih (c := { c with
          stats := mergeStats L c.stats s.stats
          record := c.record.or s.record? }) hid (fun t ht => hs t (List.mem_cons_of_mem _ ht)) h

end GetRecordCommand

end SwarmP2p
