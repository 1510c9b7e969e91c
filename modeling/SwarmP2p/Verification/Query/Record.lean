import SwarmP2p.Verification.Query.Stats

/-! # The record of a key

A query keeps the first record that one of its steps finds, and answers with it at the
last step. An error is returned only when it comes last and nothing has been found. -/

namespace SwarmP2p

variable {Req Resp : Type} {L : Libp2p Req Resp}

/-- What the command leaves at each event, up to the one after which it is removed from
the chain. -/
def GetRecordCommand.trace (L : Libp2p Req Resp) :
    GetRecordCommand → List (SwarmEvent Req Resp) →
      List (OnEvent Req Resp GetRecordCommand GetRecordResult)
  | _, [] => []
  | self, event :: events =>
      let r := self.onEvent L event
      if r.keep then r :: r.handler.trace L events else [r]

/-- The command stays active. It consumes the event when it is one of the query's own;
then it has statistics to unwrap. -/
structure Waits (id : QueryId) (event : SwarmEvent Req Resp)
    (r : OnEvent Req Resp GetRecordCommand GetRecordResult) : Prop where
  finished : r.finished = none
  keep : r.keep = true
  remaining : r.remaining = if event.id? = some (.query id) then none else some event
  stats : event.id? = some (.query id) → r.handler.stats.isSome = true

/-- The command consumes the event, answers and is done. -/
structure Answers (record : Option Record)
    (r : OnEvent Req Resp GetRecordCommand GetRecordResult) : Prop where
  keep : r.keep = false
  remaining : r.remaining = none
  finished : ∃ stats, r.handler.stats = some stats ∧
    match record with
    | some record => r.finished = some (.ok ⟨record, .fromStats stats⟩)
    | none => ∃ e, r.finished = some (.error e)

namespace GetRecordCommand

theorem trace_of_keep {c : GetRecordCommand} {event : SwarmEvent Req Resp}
    (events : List (SwarmEvent Req Resp)) (h : (c.onEvent L event).keep = true) :
    c.trace L (event :: events) =
      c.onEvent L event :: (c.onEvent L event).handler.trace L events := by
  simp only [trace, h, if_true]

theorem onEvent_foreign {c : GetRecordCommand} {id : QueryId} (hid : c.queryId = some id)
    {event : SwarmEvent Req Resp} (he : event.id? ≠ some (.query id)) :
    Waits id event (c.onEvent L event) ∧ (c.onEvent L event).handler = c := by
  have hpass : c.onEvent L event = passEvent c event := by
    refine (c.onEvent_spec event).foreign ?_
    rintro ⟨i, hi, hevent⟩
    rw [hid] at hi
    exact he (hevent.trans hi.symm)
  rw [hpass]
  exact ⟨⟨rfl, rfl, (if_neg he).symm, fun h => absurd h he⟩, rfl⟩

theorem conclude_answers (c : GetRecordCommand) {stats : QueryStats} (hs : c.stats = some stats) :
    Answers c.record
      (c.conclude (.fromStats stats) true : OnEvent Req Resp GetRecordCommand GetRecordResult) := by
  unfold conclude
  cases hr : c.record with
  | some record => exact ⟨rfl, rfl, stats, hs, rfl⟩
  | none => exact ⟨rfl, rfl, stats, hs, _, rfl⟩

theorem onEvent_last {c : GetRecordCommand} {id : QueryId} (hid : c.queryId = some id)
    {s : QueryStep} {res : Except String GetRecordOk} (hs : s.result = .getRecord res) :
    Answers (c.record.or s.record?) (c.onEvent L (s.event id true : SwarmEvent Req Resp)) := by
  cases res with
  | ok ok =>
      simp only [QueryStep.event, hs, onEvent, hid, if_true, c.hold_eq hs]
      exact conclude_answers
        ⟨c.key, some id, c.record.or s.record?, mergeStats L c.stats s.stats⟩ rfl
  | error e =>
      simp only [QueryStep.event, hs, onEvent, hid, if_true, record?_of_error hs, Option.or_none,
        Bool.and_true]
      split
      · rename_i hnone
        rw [Option.isNone_iff_eq_none.mp hnone]
        exact ⟨rfl, rfl, _, rfl, _, rfl⟩
      · exact conclude_answers ⟨c.key, some id, c.record, mergeStats L c.stats s.stats⟩ rfl

/-- By induction on the events, for any record that is held before them. -/
theorem trace_spec {c : GetRecordCommand} {id : QueryId} (hid : c.queryId = some id)
    {events : List (SwarmEvent Req Resp)} {steps : List QueryStep} {final : QueryStep}
    (h : ProgressOf id events steps final)
    (hs : ∀ s ∈ steps ++ [final], ∃ res, s.result = .getRecord res) :
    ∃ front rest waits answer,
      events = front ++ final.event id true :: rest ∧
        (∀ event ∈ rest, event.id? ≠ some (.query id)) ∧
        c.trace L events = waits ++ [answer] ∧ List.Forall₂ (Waits id) front waits ∧
        Answers (c.record.or ((steps ++ [final]).findSome? QueryStep.record?)) answer := by
  induction events generalizing c steps with
  | nil => simp [ProgressOf] at h
  | cons event events ih =>
      by_cases he : event.id? = some (.query id)
      · rw [ProgressOf, List.filter_cons_of_pos (by simpa using he)] at h
        cases steps with
        | nil =>
            obtain ⟨rfl, hrest⟩ := List.cons.inj h
            obtain ⟨res, hres⟩ := hs final (List.mem_singleton_self _)
            have hlast := onEvent_last (L := L) hid hres
            refine ⟨[], events, [], c.onEvent L (final.event id true), rfl, ?_, ?_, .nil, ?_⟩
            · simpa using hrest
            · simp [trace, hlast.keep]
            · simpa using hlast
        | cons s steps =>
            obtain ⟨rfl, hrest⟩ := List.cons.inj h
            obtain ⟨res, hres⟩ := hs s (List.mem_cons_self ..)
            have hone := onEvent_waits (L := L) hid hres
            obtain ⟨front, rest, waits, answer, rfl, hown, htrace, hwaits, hanswer⟩ :=
              ih (c := { c with
                  stats := mergeStats L c.stats s.stats
                  record := c.record.or s.record? }) hid hrest
                fun t ht => hs t (List.mem_cons_of_mem _ ht)
            refine ⟨_ :: front, rest, c.onEvent L (s.event id false) :: waits, answer, rfl, hown,
              ?_, .cons ?_ hwaits, ?_⟩
            · rw [trace_of_keep _ (by rw [hone]), hone, htrace]
              rfl
            · rw [hone]
              exact ⟨rfl, rfl, (if_pos rfl).symm, fun _ => rfl⟩
            · rw [List.cons_append, List.findSome?_cons]
              cases hr : s.record? with
              | none => simpa [hr] using hanswer
              | some record => simpa [hr, Option.or_assoc] using hanswer
      · rw [ProgressOf, List.filter_cons_of_neg (by simpa using he)] at h
        obtain ⟨hpass, hsame⟩ := onEvent_foreign (L := L) hid he
        obtain ⟨front, rest, waits, answer, rfl, hown, htrace, hwaits, hanswer⟩ := ih hid h hs
        refine ⟨event :: front, rest, c.onEvent L event :: waits, answer, rfl, hown, ?_,
          .cons hpass hwaits, hanswer⟩
        rw [trace_of_keep _ hpass.keep, hsame, htrace]
        rfl

/-- The answer of the isolated command is the one of the trace. -/
theorem alone_eq_trace (c : GetRecordCommand) (events : List (SwarmEvent Req Resp)) :
    (Command.getRecord c : Command Req Resp).alone L events =
      ((c.trace L events).findSome? OnEvent.finished).map (Except.map Output.record) := by
  induction events generalizing c with
  | nil => rfl
  | cons event events ih =>
      simp only [Command.alone, trace, Command.onEvent, OnEvent.map]
      by_cases hkeep : (c.onEvent L event).keep = true
      · simp only [hkeep, if_true, List.findSome?_cons]
        cases (c.onEvent L event).finished with
        | none => exact ih _
        | some answer => rfl
      · simp only [hkeep, if_false, Bool.false_eq_true, List.findSome?_cons, List.findSome?_nil]
        cases (c.onEvent L event).finished <;> rfl

end GetRecordCommand

/-- The command waits up to the final event of its query and answers there, with the first
record found if there is one, and with an error otherwise. -/
theorem getRecord_answers_at_last (key : RecordKey) (swarm : Swarm L)
    {events : List (SwarmEvent Req Resp)} {steps : List QueryStep} {final : QueryStep}
    (h : ProgressOf (swarm.kadGetRecord key).2 events steps final)
    (hs : ∀ s ∈ steps ++ [final], ∃ res, s.result = .getRecord res) :
    ((GetRecordCommand.new key).run swarm).finished = none ∧
      ∃ front rest waits answer,
        events = front ++ final.event (swarm.kadGetRecord key).2 true :: rest ∧
          (∀ event ∈ rest, event.id? ≠ some (.query (swarm.kadGetRecord key).2)) ∧
          ((GetRecordCommand.new key).run swarm).handler.trace L events = waits ++ [answer] ∧
          List.Forall₂ (Waits (swarm.kadGetRecord key).2) front waits ∧
          Answers ((steps ++ [final]).findSome? QueryStep.record?) answer :=
  ⟨rfl, GetRecordCommand.trace_spec rfl h hs⟩

/-! ### Errors around a record -/

namespace Loopback

def failedStep : QueryStep := ⟨.getRecord (.error "timeout"), ⟨none, 1, 0, 1⟩⟩

/-- An error, the record, a foreign event, and an error at the end. -/
def recordAmongErrors : List (SwarmEvent String String) :=
  [failedStep.event ⟨0⟩ false, (recordStep ⟨none, 1, 1, 0⟩).event ⟨0⟩ false, pingEvent,
    failedStep.event ⟨0⟩ true]

end Loopback

open Loopback in
theorem getRecord_answers_at_last_found :
    ∃ answer ∈ ((GetRecordCommand.new key).run (node []).loop.swarm).handler.trace loopback
      recordAmongErrors, Answers (some ⟨key, [2]⟩) answer := by
  have hprogress : ProgressOf ((node []).loop.swarm.kadGetRecord key).2 recordAmongErrors
      [failedStep, recordStep ⟨none, 1, 1, 0⟩] failedStep := rfl
  obtain ⟨_, _, _, _, answer, _, _, htrace, _, hanswer⟩ := getRecord_answers_at_last key
    (node []).loop.swarm hprogress (by simp [failedStep, recordStep])
  exact ⟨answer, by simp [htrace], hanswer⟩

end SwarmP2p
