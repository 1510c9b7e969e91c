import SwarmP2p.Library.Reader
import SwarmP2p.Verification.Call.Answer
import SwarmP2p.Verification.Query.Steps

/-! # What the queries answer

Six methods start a query and answer from its progress events. Each of them is a reader
of these events: three stop at the first error, and all stop at the event marked as the
last. Whatever else happens on the node, the caller gets the value of the reader. -/

namespace SwarmP2p

variable {Req Resp : Type} {L : Libp2p Req Resp}

/-! ### Reports -/

/-- A step, and whether it is marked as the last. -/
structure QueryReport where
  step : QueryStep
  last : Bool

def QueryResult.error? : QueryResult → Option String
  | .bootstrap (.error e) => some e
  | .getClosestPeers (.error e) => some e
  | .getProviders (.error e) => some e
  | .getRecord (.error e) => some e
  | .putRecord (.error e) => some e
  | .startProviding (.error e) => some e
  | _ => none

namespace QueryStep

/-- The nodes that the step says are left to ask. -/
def remaining (s : QueryStep) : Nat :=
  match s.result with
  | .bootstrap (.ok ok) => ok.numRemaining
  | _ => 0

def closest (s : QueryStep) : List PeerId :=
  match s.result with
  | .getClosestPeers (.ok peers) => peers
  | _ => []

/-- The error of the step, or the output if it has none. -/
def orError (s : QueryStep) (text : String) (output : Output Resp) : Result (Output Resp) :=
  match s.result.error? with
  | some e => .error (.kad (text ++ e))
  | none => .ok output

end QueryStep

/-! ### Queries -/

/-- A method that starts a query. -/
inductive Query where
  | bootstrap
  | getRecord (key : RecordKey)
  | putRecord (record : Record)
  | getProviders (key : RecordKey)
  | getClosestPeers (key : RecordKey)
  | startProvide (key : RecordKey)

namespace Query

def command : Query → Command Req Resp
  | .bootstrap => .bootstrap .new
  | .getRecord key => .getRecord (.new key)
  | .putRecord record => .putRecord (.new record)
  | .getProviders key => .getProviders (.new key)
  | .getClosestPeers key => .getClosestPeers (.new key)
  | .startProvide key => .startProvide (.new key)

/-- The query that libp2p starts, or why there is none. -/
def start (swarm : Swarm L) : Query → Except Error QueryId
  | .bootstrap => swarm.kadBootstrap.2.mapError fun _ => .kad "Bootstrap failed: no known peers"
  | .getRecord key => .ok (swarm.kadGetRecord key).2
  | .putRecord record => (swarm.kadPutRecord record).2.mapError fun e =>
      .kad ("PutRecord store: " ++ e)
  | .getProviders key => .ok (swarm.kadGetProviders key).2
  | .getClosestPeers key => .ok (swarm.kadGetClosestPeers key).2
  | .startProvide key => (swarm.kadStartProviding key).2.mapError fun e =>
      .kad ("StartProviding store: " ++ e)

/-- The results of the query's own events. -/
def reports : Query → QueryResult → Bool
  | .bootstrap, .bootstrap _ => true
  | .getRecord _, .getRecord _ => true
  | .putRecord _, .putRecord _ => true
  | .getProviders _, .getProviders _ => true
  | .getClosestPeers _, .getClosestPeers _ => true
  | .startProvide _, .startProviding _ => true
  | _, _ => false

/-- The report that an event carries for the query. -/
def report? (q : Query) (id : QueryId) : SwarmEvent Req Resp → Option QueryReport
  | .behaviour (.kad (.outboundQueryProgressed id' result stats last)) =>
      if id = id' ∧ q.reports result then some ⟨⟨result, stats⟩, last⟩ else none
  | _ => none

/-- The first error ends the query. -/
def failsFast : Query → Bool
  | .bootstrap | .getProviders _ | .getClosestPeers _ => true
  | .getRecord _ | .putRecord _ | .startProvide _ => false

/-- The answer at the deciding step, after the steps before it. -/
def value (steps : List QueryStep) (final : QueryStep) (info : QueryStatsInfo) :
    Query → Result (Output Resp)
  | .bootstrap => final.orError "Bootstrap: " (.bootstrap ⟨final.remaining, info⟩)
  | .getRecord _ =>
      match (steps ++ [final]).findSome? QueryStep.record? with
      | some record => .ok (.record ⟨record, info⟩)
      | none =>
          match final.result.error? with
          | some e => .error (.kad ("GetRecord: " ++ e))
          | none => .error (.kad "Record not found")
  | .putRecord _ => final.orError "PutRecord: " (.stats info)
  | .getProviders _ => final.orError "GetProviders: "
      (.providers ⟨(steps ++ [final]).flatMap QueryStep.found, info⟩)
  | .getClosestPeers _ => final.orError "GetClosestPeers: "
      (.closestPeers ⟨(steps ++ [final]).flatMap QueryStep.closest, info⟩)
  | .startProvide _ => final.orError "Provide: " (.stats info)

def reader (L : Libp2p Req Resp) (q : Query) :
    Reading.Reader QueryReport (Result (Output Resp)) where
  decides r := r.last || (q.failsFast && r.step.result.error?.isSome)
  value front r := q.value (front.map QueryReport.step) r.step
    (mergedInfo L (mergedStats L none (front.map QueryReport.step)) r.step.stats)

/-- What the method amounts to when it is run on this swarm and the swarm then returns
these events. -/
def answer (q : Query) (swarm : Swarm L) (events : List (SwarmEvent Req Resp)) :
    Option (Result (Output Resp)) :=
  match q.start swarm with
  | .error e => some (.error e)
  | .ok id => (q.reader L).answer (events.filterMap (q.report? id))

/-- The command after these reports. -/
def held (L : Libp2p Req Resp) (id : QueryId) (q : Query) (front : List QueryReport) :
    Command Req Resp :=
  let steps := front.map QueryReport.step
  let stats := mergedStats L none steps
  match q with
  | .bootstrap => .bootstrap ⟨some id, stats⟩
  | .getRecord key => .getRecord ⟨key, some id, steps.findSome? QueryStep.record?, stats⟩
  | .putRecord record => .putRecord ⟨record, some id, stats⟩
  | .getProviders key => .getProviders ⟨key, some id, steps.flatMap QueryStep.found, stats⟩
  | .getClosestPeers key =>
      .getClosestPeers ⟨key, some id, steps.flatMap QueryStep.closest, stats⟩
  | .startProvide key => .startProvide ⟨key, some id, stats⟩

end Query

/-! ### Events -/

/-- The machine that a command in the chain is. -/
def Command.next (L : Libp2p Req Resp) (c : Command Req Resp) (event : SwarmEvent Req Resp) :
    Option (Result (Output Resp)) × Command Req Resp :=
  ((c.onEvent L event).finished, (c.onEvent L event).handler)

theorem Command.alone_eq_drive {c : Command Req Resp} (hk : c.kind = .tracked)
    (events : List (SwarmEvent Req Resp)) :
    c.alone L events = Reading.drive (Command.next L) c events := by
  induction events generalizing c with
  | nil => rfl
  | cons event events ih =>
      have hkeep := (tracked_spec L hk event).keep_iff
      rw [alone, Reading.drive, next]
      cases hf : (c.onEvent L event).finished with
      | some r => rfl
      | none =>
          rw [if_pos (hkeep.mpr hf)]
          exact ih ((onEvent_kind c event).trans hk)

namespace Query

theorem report?_eq_some {q : Query} {id : QueryId} {event : SwarmEvent Req Resp}
    {r : QueryReport} (h : q.report? id event = some r) :
    event = r.step.event id r.last ∧ q.reports r.step.result = true := by
  unfold report? at h
  split at h
  · split at h
    · rename_i hown
      obtain rfl := Option.some.inj h
      exact ⟨by rw [hown.1]; rfl, hown.2⟩
    · cases h
  · cases h

theorem onEvent_ignored {q : Query} {id : QueryId} {event : SwarmEvent Req Resp}
    (h : q.report? id event = none) (front : List QueryReport) :
    Command.next L (q.held L id front) event = (none, q.held L id front) := by
  have hforeign : ∀ id' result stats last, event = .behaviour (.kad
      (.outboundQueryProgressed id' result stats last)) → id = id' → q.reports result = false := by
    rintro id' result stats last rfl hid
    simpa [report?, hid] using h
  cases event with
  | behaviour event =>
      cases event with
      | kad event =>
          cases event with
          | outboundQueryProgressed id' result stats last =>
              have hne := hforeign id' result stats last rfl
              cases q <;> cases result <;> first | rfl | skip
              all_goals
                simp only [reports, Bool.true_eq_false, imp_false] at hne
                simp [Command.next, held, Command.onEvent, BootstrapCommand.onEvent,
                  GetRecordCommand.onEvent, PutRecordCommand.onEvent,
                  GetProvidersCommand.onEvent, GetClosestPeersCommand.onEvent,
                  StartProvideCommand.onEvent, hne, passEvent, OnEvent.map]
          | _ => cases q <;> rfl
      | _ => cases q <;> rfl
  | _ => cases q <;> rfl

theorem mergedStats_snoc (L : Libp2p Req Resp) (stats : Option QueryStats)
    (steps : List QueryStep) (s : QueryStep) :
    mergedStats L stats (steps ++ [s]) = mergeStats L (mergedStats L stats steps) s.stats :=
  List.foldl_append

theorem next_waits {q : Query} {r : QueryReport} (id : QueryId) (front : List QueryReport)
    (hown : q.reports r.step.result = true) (hd : (q.reader L).decides r = false) :
    Command.next L (q.held L id front) (r.step.event id r.last : SwarmEvent Req Resp) =
      (none, q.held L id (front ++ [r])) := by
  obtain ⟨⟨result, stats⟩, last⟩ := r
  obtain ⟨rfl, herr⟩ : last = false ∧ (q.failsFast = true → result.error? = none) := by
    simpa [reader, Bool.or_eq_false_iff] using hd
  simp only [held, List.map_append, List.map_singleton, mergedStats_snoc]
  cases q with
  | bootstrap =>
      cases result with
      | bootstrap res =>
          cases res with
          | ok ok => simp [Command.next, Command.onEvent, QueryStep.event,
              BootstrapCommand.onEvent, OnEvent.map]
          | error e => cases herr rfl
      | _ => cases hown
  | getRecord key =>
      cases result with
      | getRecord res =>
          simp [Command.next, Command.onEvent, OnEvent.map, GetRecordCommand.onEvent_waits]
      | _ => cases hown
  | putRecord record =>
      cases result with
      | putRecord res => simp [Command.next, Command.onEvent, QueryStep.event,
          PutRecordCommand.onEvent, OnEvent.map]
      | _ => cases hown
  | getProviders key =>
      cases result with
      | getProviders res =>
          cases res with
          | ok ok => simp [Command.next, Command.onEvent, OnEvent.map,
              GetProvidersCommand.onEvent_found, GetProvidersCommand.conclude]
          | error e => cases herr rfl
      | _ => cases hown
  | getClosestPeers key =>
      cases result with
      | getClosestPeers res =>
          cases res with
          | ok ok => simp [Command.next, Command.onEvent, QueryStep.event, QueryStep.closest,
              GetClosestPeersCommand.onEvent, OnEvent.map]
          | error e => cases herr rfl
      | _ => cases hown
  | startProvide key =>
      cases result with
      | startProviding res => simp [Command.next, Command.onEvent, QueryStep.event,
          StartProvideCommand.onEvent, OnEvent.map]
      | _ => cases hown

theorem next_answers {q : Query} {r : QueryReport} (id : QueryId) (front : List QueryReport)
    (hown : q.reports r.step.result = true) (hd : (q.reader L).decides r = true) :
    (Command.next L (q.held L id front) (r.step.event id r.last : SwarmEvent Req Resp)).1 =
      some ((q.reader L).value front r) := by
  obtain ⟨⟨result, stats⟩, last⟩ := r
  have hdecided : last = true ∨ (q.failsFast = true ∧ result.error?.isSome = true) := by
    simpa [reader, Bool.or_eq_true] using hd
  simp only [held, reader]
  cases q with
  | bootstrap =>
      cases result with
      | bootstrap res =>
          cases res with
          | ok ok =>
              obtain rfl : last = true := hdecided.resolve_right fun h => by cases h.2
              simp [Command.next, Command.onEvent, QueryStep.event, value, QueryStep.orError,
                QueryResult.error?, QueryStep.remaining, BootstrapCommand.onEvent, OnEvent.map,
                Except.map]
          | error e => simp [Command.next, Command.onEvent, QueryStep.event, value,
              QueryStep.orError, QueryResult.error?, BootstrapCommand.onEvent, OnEvent.map,
              Except.map]
      | _ => cases hown
  | getRecord key =>
      cases result with
      | getRecord res =>
          obtain rfl : last = true := hdecided.resolve_right fun h => by cases h.1
          simp only [value, List.findSome?_append, List.findSome?_singleton]
          generalize (front.map QueryReport.step).findSome? QueryStep.record? = record
          generalize mergedStats L none (front.map QueryReport.step) = held
          cases res with
          | ok ok =>
              cases record <;> cases ok <;> simp [Command.next, Command.onEvent,
                QueryStep.event, QueryStep.record?, QueryResult.error?, GetRecordCommand.onEvent,
                GetRecordCommand.hold, GetRecordCommand.conclude, OnEvent.map, Except.map]
          | error e =>
              cases record <;> simp [Command.next, Command.onEvent, QueryStep.event,
                QueryStep.record?, QueryResult.error?, GetRecordCommand.onEvent,
                GetRecordCommand.conclude, OnEvent.map, Except.map]
      | _ => cases hown
  | putRecord record =>
      cases result with
      | putRecord res =>
          obtain rfl : last = true := hdecided.resolve_right fun h => by cases h.1
          cases res <;> simp [Command.next, Command.onEvent, QueryStep.event, value,
            QueryStep.orError, QueryResult.error?, PutRecordCommand.onEvent, publishAnswer,
            OnEvent.map, Except.map]
      | _ => cases hown
  | getProviders key =>
      cases result with
      | getProviders res =>
          cases res with
          | ok ok =>
              obtain rfl : last = true := hdecided.resolve_right fun h => by cases h.2
              simp [Command.next, Command.onEvent, OnEvent.map, value, QueryStep.orError,
                QueryResult.error?, Except.map, GetProvidersCommand.onEvent_found,
                GetProvidersCommand.conclude]
          | error e => simp [Command.next, Command.onEvent, OnEvent.map, value,
              QueryStep.orError, QueryResult.error?, Except.map,
              GetProvidersCommand.onEvent_error]
      | _ => cases hown
  | getClosestPeers key =>
      cases result with
      | getClosestPeers res =>
          cases res with
          | ok ok =>
              obtain rfl : last = true := hdecided.resolve_right fun h => by cases h.2
              simp [Command.next, Command.onEvent, QueryStep.event, QueryStep.closest, value,
                QueryStep.orError, QueryResult.error?, GetClosestPeersCommand.onEvent,
                OnEvent.map, Except.map]
          | error e => simp [Command.next, Command.onEvent, QueryStep.event, value,
              QueryStep.orError, QueryResult.error?, GetClosestPeersCommand.onEvent, OnEvent.map,
              Except.map]
      | _ => cases hown
  | startProvide key =>
      cases result with
      | startProviding res =>
          obtain rfl : last = true := hdecided.resolve_right fun h => by cases h.1
          cases res <;> simp [Command.next, Command.onEvent, QueryStep.event, value,
            QueryStep.orError, QueryResult.error?, StartProvideCommand.onEvent, publishAnswer,
            OnEvent.map, Except.map]
      | _ => cases hown

theorem follows (q : Query) (id : QueryId) :
    Reading.Follows (Command.next L) (q.report? id : SwarmEvent Req Resp → _) (q.reader L)
      (q.held L id) where
  ignores front _ h := onEvent_ignored h front
  waits front event r h hd := by
    obtain ⟨rfl, hown⟩ := report?_eq_some h
    exact next_waits id front hown hd
  answers front event r h hd := by
    obtain ⟨rfl, hown⟩ := report?_eq_some h
    exact next_answers id front hown hd

/-! ### Runs -/

/-- The command waits for the query that it has started, or has answered at once. -/
theorem run_start (q : Query) (swarm : Swarm L) :
    match q.start swarm with
    | .ok id => (q.command.run swarm).finished = none ∧
        (q.command.run swarm).handler = q.held L id []
    | .error e => (q.command.run swarm).finished = some (.error e) := by
  cases q with
  | bootstrap =>
      simp only [start, command, Command.run, BootstrapCommand.run]
      obtain ⟨_, e | id⟩ := swarm.kadBootstrap
      · rfl
      · exact ⟨rfl, rfl⟩
  | putRecord record =>
      simp only [start, command, Command.run, PutRecordCommand.run, PutRecordCommand.new]
      obtain ⟨_, e | id⟩ := swarm.kadPutRecord record
      · rfl
      · exact ⟨rfl, rfl⟩
  | startProvide key =>
      simp only [start, command, Command.run, StartProvideCommand.run, StartProvideCommand.new]
      obtain ⟨_, e | id⟩ := swarm.kadStartProviding key
      · rfl
      · exact ⟨rfl, rfl⟩
  | _ => exact ⟨rfl, rfl⟩

theorem command_kind (q : Query) : (q.command : Command Req Resp).kind = .tracked := by
  cases q <;> rfl

theorem held_ownId? (q : Query) (id : QueryId) (front : List QueryReport) :
    (q.held L id front).ownId? = some (.query id) := by
  cases q <;> rfl

theorem held_kind (q : Query) (id : QueryId) (front : List QueryReport) :
    (q.held L id front).kind = .tracked := by
  cases q <;> rfl

/-- By itself the command answers what its reader does. -/
theorem runAlone_eq (q : Query) (id : HandleId) (swarm : Swarm L)
    (ρ : List (Transition.Trans (Node L) (Label Req Resp))) :
    q.command.runAlone swarm (ownEvents ((⟨q.command, id⟩ : Task Req Resp).own swarm) ρ) =
      q.answer swarm (swarmEvents ρ) := by
  have hrun := q.run_start swarm
  rw [Command.runAlone, answer]
  cases hs : q.start swarm with
  | error e =>
      rw [hs] at hrun
      rw [hrun]
  | ok queryId =>
      rw [hs] at hrun
      rw [hrun.1, Task.own, hrun.2, held_ownId?, ownEvents_eq_filter]
      dsimp only
      rw [← Command.alone_filter (q.held_kind queryId []) (q.held_ownId? queryId []),
        Command.alone_eq_drive (q.held_kind queryId []), (q.follows queryId).drive_held]
      rfl

end Query

/-- A call that is ready has the one answer there is. -/
theorem Reachable.ready_eq {config : NodeConfig} {m : Node L} (hr : Reachable L config m)
    {id : HandleId} {c : ClientCall Req Resp} {r : Result (Output Resp)}
    {answer : Option (Result (Output Resp))} (hc : m.calls id = some c)
    (hp : c.phase = .ready r) (h : (m.handles id).outcomes = answer.toList) :
    answer = some r := by
  have hmem : r ∈ (m.handles id).outcomes := (hr.received id).2 c r hc hp
  rw [h] at hmem
  exact Option.mem_toList.mp hmem

/-- Once its command has run, a method is answered exactly when the reader of its query
decides, and with what the reader gives, whatever else goes on in between. -/
theorem queries_answered {config : NodeConfig} {n m : Node L} {q : Query} {id : HandleId}
    {ρ : List (Transition.Trans (Node L) (Label Req Resp))} {c : ClientCall Req Resp}
    (hr : Reachable L config n) (hp : n.phase = .running ⟨q.command, id⟩)
    (h : Run L (n.handleCommand ⟨q.command, id⟩) ρ m) (hids : m.loop.swarm.ids.Nodup)
    (hc : m.calls id = some c) (hd : c.phase ≠ .dropped) :
    (m.handles id).outcomes = (q.answer n.loop.swarm (swarmEvents ρ)).toList ∧
      ∀ r, c.phase = .ready r → q.answer n.loop.swarm (swarmEvents ρ) = some r := by
  have houtcomes : (m.handles id).outcomes =
      (q.answer n.loop.swarm (swarmEvents ρ)).toList := by
    rw [← q.runAlone_eq id]
    exact Run.outcomes_alone hr hp q.command_kind h hids hc hd
  exact ⟨houtcomes, fun r hready =>
    Reachable.ready_eq ((hr.next (.handleCommand hp)).path h) hc hready houtcomes⟩

open Loopback in
theorem queries_answered_record :
    (Query.getRecord key).answer recordReceived.loop.swarm [recordEvent] =
      some (.ok (.record ⟨⟨key, [2]⟩, ⟨none, 1, 1, 0⟩⟩)) := by
  have hrun : Run loopback recordStarted
      [⟨recordStarted, .sweep, recordStarted.sweep⟩,
        ⟨recordStarted.sweep, .swarmEvent recordEvent, recordFound⟩,
        ⟨recordFound, .handlePoll 0, recordReady⟩] recordReady :=
    ((Transition.Path.single (.sweep rfl)).snoc
      (.swarmEvent rfl rfl ⟨List.nodup_nil, fun _ => .rfl⟩)).snoc (.handlePoll rfl rfl)
  exact (queries_answered (q := .getRecord key) recordReceived_reachable rfl hrun (by decide)
    rfl (by simp)).2 _ rfl

end SwarmP2p
