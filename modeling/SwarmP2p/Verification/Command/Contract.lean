import SwarmP2p.Model.Command
import SwarmP2p.Verification.Swarm.Uses

/-! # What a command may do

Every command belongs to one of three kinds, and one contract for each kind says all
that the rest of the development uses of its `run` and `on_event`. -/

namespace SwarmP2p

variable {Req Resp : Type} {L : Libp2p Req Resp}

/-! ### Kinds -/

inductive CommandKind where
  /-- Answered by an event about a connection, or at once. -/
  | connection
  /-- Answered in `run`; the default `on_event` removes it. -/
  | prompt
  /-- Answered from the events that carry one id. -/
  | tracked
  deriving DecidableEq, Repr

namespace Command

def kind : Command Req Resp → CommandKind
  | .dial _ | .disconnect _ => .connection
  | .sendRequest _ | .bootstrap _ | .getRecord _ | .putRecord _ | .getProviders _
  | .getClosestPeers _ | .startProvide _ => .tracked
  | _ => .prompt

/-- The id that libp2p gave the command. -/
def ownId? : Command Req Resp → Option EventId
  | .sendRequest c => c.requestId.map .request
  | .bootstrap c => c.queryId.map .query
  | .getRecord c => c.queryId.map .query
  | .putRecord c => c.queryId.map .query
  | .getProviders c => c.queryId.map .query
  | .getClosestPeers c => c.queryId.map .query
  | .startProvide c => c.queryId.map .query
  | _ => none

/-- The event carries the id of the command. -/
def Owns (self : Command Req Resp) (event : SwarmEvent Req Resp) : Prop :=
  ∃ id, self.ownId? = some id ∧ event.id? = some id

end Command

/-! ### Events -/

/-- What `on_event` of a command with an id may do: an event with another id goes by,
and the command stays exactly as long as it has not answered. -/
structure TrackedSpec {T R : Type} (ownId : T → Option EventId) (c : T)
    (event : SwarmEvent Req Resp) (r : OnEvent Req Resp T R) : Prop where
  foreign : ¬(∃ id, ownId c = some id ∧ event.id? = some id) → r = passEvent c event
  same : ∀ e, r.remaining = some e → e = event
  keep_iff : r.keep = true ↔ r.finished = none
  ownId_eq : ownId r.handler = ownId c

theorem TrackedSpec.of_pass {T R : Type} {ownId : T → Option EventId} {self : T}
    {event : SwarmEvent Req Resp} :
    TrackedSpec ownId self event (passEvent self event : OnEvent Req Resp T R) := by
  refine ⟨fun _ => rfl, ?_, by simp [passEvent], rfl⟩
  intro e he
  exact (Option.some.inj he).symm

/-- A step on an event of the command's own that consumes it. -/
theorem TrackedSpec.of_consumed {T R : Type} {ownId : T → Option EventId} {self : T}
    {event : SwarmEvent Req Resp} {r : OnEvent Req Resp T R}
    (howns : ∃ id, ownId self = some id ∧ event.id? = some id) (hrem : r.remaining = none)
    (hkeep : r.keep = true ↔ r.finished = none) (hown : ownId r.handler = ownId self) :
    TrackedSpec ownId self event r := by
  refine ⟨fun hn => absurd howns hn, ?_, hkeep, hown⟩
  intro e he
  rw [hrem] at he
  cases he

theorem SendRequestCommand.onEvent_spec (self : SendRequestCommand Req)
    (event : SwarmEvent Req Resp) :
    TrackedSpec (fun c => c.requestId.map .request) self event (self.onEvent event) := by
  unfold SendRequestCommand.onEvent
  split
  all_goals try split
  all_goals try exact .of_pass
  all_goals
    rename_i h
    exact .of_consumed ⟨_, by simp [h.1], rfl⟩ rfl (by simp) rfl

/-- A progress event of the query that a Kad command has started. -/
theorem owns_of_queryId {queryId : Option QueryId} {id : QueryId} (h : queryId = some id)
    (result : QueryResult) (stats : QueryStats) (last : Bool) :
    ∃ i, queryId.map EventId.query = some i ∧
      (SwarmEvent.behaviour (.kad (.outboundQueryProgressed id result stats last)) :
        SwarmEvent Req Resp).id? = some i :=
  ⟨.query id, by rw [h]; rfl, rfl⟩

theorem BootstrapCommand.onEvent_spec (self : BootstrapCommand) (event : SwarmEvent Req Resp) :
    TrackedSpec (fun c => c.queryId.map .query) self event (self.onEvent L event) := by
  unfold BootstrapCommand.onEvent
  split
  · split
    · rename_i h
      dsimp only
      split
      · exact .of_consumed (owns_of_queryId h _ _ _) rfl (by simp) rfl
      · split
        · exact .of_consumed (owns_of_queryId h _ _ _) rfl (by simp) rfl
        · exact .of_consumed (owns_of_queryId h _ _ _) rfl (by simp) rfl
    · exact .of_pass
  · exact .of_pass

/-- The end of a query step consumes its event. -/
theorem GetRecordCommand.conclude_spec {self : GetRecordCommand} {event : SwarmEvent Req Resp}
    {c : GetRecordCommand} (info : QueryStatsInfo) (last : Bool)
    (hc : c.queryId = self.queryId)
    (howns : ∃ i, self.queryId.map EventId.query = some i ∧ event.id? = some i) :
    TrackedSpec (fun c => c.queryId.map .query) self event (c.conclude info last) := by
  unfold GetRecordCommand.conclude
  split
  · split
    · exact .of_consumed howns rfl (by simp) (by simp [hc])
    · exact .of_consumed howns rfl (by simp) (by simp [hc])
  · exact .of_consumed howns rfl (by simp) (by simp [hc])

theorem GetRecordCommand.onEvent_spec (self : GetRecordCommand) (event : SwarmEvent Req Resp) :
    TrackedSpec (fun c => c.queryId.map .query) self event (self.onEvent L event) := by
  unfold GetRecordCommand.onEvent
  split
  · split
    · rename_i h
      dsimp only
      split
      · exact conclude_spec _ _ rfl (owns_of_queryId h _ _ _)
      · split
        · exact .of_consumed (owns_of_queryId h _ _ _) rfl (by simp) rfl
        · exact conclude_spec _ _ rfl (owns_of_queryId h _ _ _)
    · exact .of_pass
  · exact .of_pass

theorem GetProvidersCommand.conclude_spec {self : GetProvidersCommand}
    {event : SwarmEvent Req Resp} {c : GetProvidersCommand} (info : QueryStatsInfo)
    (last : Bool) (hc : c.queryId = self.queryId)
    (howns : ∃ i, self.queryId.map EventId.query = some i ∧ event.id? = some i) :
    TrackedSpec (fun c => c.queryId.map .query) self event (c.conclude info last) := by
  unfold GetProvidersCommand.conclude
  split
  · exact .of_consumed howns rfl (by simp) (by simp [hc])
  · exact .of_consumed howns rfl (by simp) (by simp [hc])

theorem GetProvidersCommand.onEvent_spec (self : GetProvidersCommand)
    (event : SwarmEvent Req Resp) :
    TrackedSpec (fun c => c.queryId.map .query) self event (self.onEvent L event) := by
  unfold GetProvidersCommand.onEvent
  split
  · split
    · rename_i h
      dsimp only
      split
      · exact conclude_spec _ _ rfl (owns_of_queryId h _ _ _)
      · exact conclude_spec _ _ rfl (owns_of_queryId h _ _ _)
      · exact .of_consumed (owns_of_queryId h _ _ _) rfl (by simp) rfl
    · exact .of_pass
  · exact .of_pass

theorem GetClosestPeersCommand.onEvent_spec (self : GetClosestPeersCommand)
    (event : SwarmEvent Req Resp) :
    TrackedSpec (fun c => c.queryId.map .query) self event (self.onEvent L event) := by
  unfold GetClosestPeersCommand.onEvent
  split
  · split
    · rename_i h
      dsimp only
      split
      · exact .of_consumed (owns_of_queryId h _ _ _) rfl (by simp) rfl
      · split
        · exact .of_consumed (owns_of_queryId h _ _ _) rfl (by simp) rfl
        · exact .of_consumed (owns_of_queryId h _ _ _) rfl (by simp) rfl
    · exact .of_pass
  · exact .of_pass

theorem PutRecordCommand.onEvent_spec (self : PutRecordCommand) (event : SwarmEvent Req Resp) :
    TrackedSpec (fun c => c.queryId.map .query) self event (self.onEvent L event) := by
  unfold PutRecordCommand.onEvent
  split
  · split
    · rename_i h
      dsimp only
      split
      · exact .of_consumed (owns_of_queryId h _ _ _) rfl (by simp) rfl
      · exact .of_consumed (owns_of_queryId h _ _ _) rfl (by simp) rfl
    · exact .of_pass
  · exact .of_pass

theorem StartProvideCommand.onEvent_spec (self : StartProvideCommand)
    (event : SwarmEvent Req Resp) :
    TrackedSpec (fun c => c.queryId.map .query) self event (self.onEvent L event) := by
  unfold StartProvideCommand.onEvent
  split
  · split
    · rename_i h
      dsimp only
      split
      · exact .of_consumed (owns_of_queryId h _ _ _) rfl (by simp) rfl
      · exact .of_consumed (owns_of_queryId h _ _ _) rfl (by simp) rfl
    · exact .of_pass
  · exact .of_pass

/-- What `on_event` of the two connection commands may do: the event always goes by
unchanged, and the command goes when it answers. -/
structure ConnectionSpec {T R : Type} (c : T) (event : SwarmEvent Req Resp)
    (r : OnEvent Req Resp T R) : Prop where
  handler_eq : r.handler = c
  remaining_eq : r.remaining = some event
  keep_iff : r.keep = true ↔ r.finished = none

theorem DialCommand.onEvent_spec (self : DialCommand) (event : SwarmEvent Req Resp) :
    ConnectionSpec self event (self.onEvent event) := by
  unfold DialCommand.onEvent
  split
  · split
    · exact ⟨rfl, rfl, by simp⟩
    · exact ⟨rfl, rfl, by simp [passEvent]⟩
  · split
    · exact ⟨rfl, rfl, by simp⟩
    · exact ⟨rfl, rfl, by simp [passEvent]⟩
  · exact ⟨rfl, rfl, by simp [passEvent]⟩

theorem DisconnectCommand.onEvent_spec (self : DisconnectCommand)
    (event : SwarmEvent Req Resp) : ConnectionSpec self event (self.onEvent event) := by
  unfold DisconnectCommand.onEvent
  split
  · split
    · exact ⟨rfl, rfl, by simp⟩
    · exact ⟨rfl, rfl, by simp [passEvent]⟩
  · exact ⟨rfl, rfl, by simp [passEvent]⟩

namespace Command

variable (L)

/-! ### The boxed command -/

/-- A contract of a command type carries over to the boxed command. -/
theorem tracked_map {T R : Type} {own : T → Option EventId} {self : T}
    {event : SwarmEvent Req Resp} {r : OnEvent Req Resp T R} (f : T → Command Req Resp)
    (g : R → Output Resp) (hf : ∀ c, (f c).ownId? = own c) (h : TrackedSpec own self event r) :
    TrackedSpec ownId? (f self) event (r.map f g) := by
  refine ⟨?_, ?_, ?_, ?_⟩
  · intro hn
    rw [h.foreign (by simpa [hf] using hn)]
    rfl
  · intro e he
    exact h.same e he
  · simpa [OnEvent.map] using h.keep_iff
  · simpa [OnEvent.map, hf] using h.ownId_eq

theorem tracked_spec {c : Command Req Resp} (hk : c.kind = .tracked)
    (event : SwarmEvent Req Resp) : TrackedSpec ownId? c event (c.onEvent L event) := by
  cases c with
  | sendRequest c => exact tracked_map .sendRequest _ (fun _ => rfl) (c.onEvent_spec event)
  | bootstrap c => exact tracked_map .bootstrap _ (fun _ => rfl) (c.onEvent_spec event)
  | getRecord c => exact tracked_map .getRecord _ (fun _ => rfl) (c.onEvent_spec event)
  | putRecord c => exact tracked_map .putRecord _ (fun _ => rfl) (c.onEvent_spec event)
  | getProviders c => exact tracked_map .getProviders _ (fun _ => rfl) (c.onEvent_spec event)
  | getClosestPeers c =>
      exact tracked_map .getClosestPeers _ (fun _ => rfl) (c.onEvent_spec event)
  | startProvide c => exact tracked_map .startProvide _ (fun _ => rfl) (c.onEvent_spec event)
  | _ => cases hk

theorem connection_map {T R : Type} {self : T} {event : SwarmEvent Req Resp}
    {r : OnEvent Req Resp T R} (f : T → Command Req Resp) (g : R → Output Resp)
    (h : ConnectionSpec self event r) : ConnectionSpec (f self) event (r.map f g) := by
  refine ⟨?_, ?_, ?_⟩
  · simp [OnEvent.map, h.handler_eq]
  · simpa [OnEvent.map] using h.remaining_eq
  · simpa [OnEvent.map] using h.keep_iff

theorem connection_spec {c : Command Req Resp} (hk : c.kind = .connection)
    (event : SwarmEvent Req Resp) : ConnectionSpec c event (c.onEvent L event) := by
  cases c with
  | dial c => exact connection_map .dial _ (c.onEvent_spec event)
  | disconnect c => exact connection_map .disconnect _ (c.onEvent_spec event)
  | _ => cases hk

theorem prompt_spec {c : Command Req Resp} (hk : c.kind = .prompt)
    (event : SwarmEvent Req Resp) : c.onEvent L event = defaultOnEvent c event := by
  cases c with
  | dial c => cases hk
  | disconnect c => cases hk
  | sendRequest c => cases hk
  | bootstrap c => cases hk
  | getRecord c => cases hk
  | putRecord c => cases hk
  | getProviders c => cases hk
  | getClosestPeers c => cases hk
  | startProvide c => cases hk
  | _ => rfl

variable {L}

/-- A command passes on the event it was offered, if it passes one on. -/
theorem onEvent_remaining {c : Command Req Resp} {event e : SwarmEvent Req Resp}
    (h : (c.onEvent L event).remaining = some e) : e = event := by
  cases hk : c.kind with
  | connection =>
      rw [(connection_spec L hk event).remaining_eq] at h
      exact (Option.some.inj h).symm
  | prompt =>
      rw [prompt_spec L hk event] at h
      exact (Option.some.inj h).symm
  | tracked => exact (tracked_spec L hk event).same e h

/-- Only the command whose id an event carries consumes it. -/
theorem owns_of_consumed {c : Command Req Resp} {event : SwarmEvent Req Resp}
    (h : (c.onEvent L event).remaining = none) : c.Owns event := by
  by_contra hn
  cases hk : c.kind with
  | connection =>
      rw [(connection_spec L hk event).remaining_eq] at h
      cases h
  | prompt =>
      rw [prompt_spec L hk event] at h
      cases h
  | tracked =>
      rw [(tracked_spec L hk event).foreign hn] at h
      cases h

/-- A command that leaves has answered, or had answered when it ran. -/
theorem onEvent_leaves {c : Command Req Resp} {event : SwarmEvent Req Resp}
    (h : (c.onEvent L event).keep = false) :
    (c.onEvent L event).finished ≠ none ∨ c.kind = .prompt := by
  cases hk : c.kind with
  | connection =>
      refine .inl fun hf => ?_
      rw [(connection_spec L hk event).keep_iff.mpr hf] at h
      cases h
  | prompt => exact .inr rfl
  | tracked =>
      refine .inl fun hf => ?_
      rw [(tracked_spec L hk event).keep_iff.mpr hf] at h
      cases h

/-- A command that answers leaves. -/
theorem onEvent_keep_of_finished {c : Command Req Resp} {event : SwarmEvent Req Resp}
    (h : (c.onEvent L event).finished ≠ none) : (c.onEvent L event).keep = false := by
  by_contra hkeep
  simp only [Bool.not_eq_false] at hkeep
  cases hk : c.kind with
  | connection => exact h ((connection_spec L hk event).keep_iff.mp hkeep)
  | prompt =>
      rw [prompt_spec L hk event] at hkeep
      cases hkeep
  | tracked => exact h ((tracked_spec L hk event).keep_iff.mp hkeep)

theorem onEvent_ownId? (c : Command Req Resp) (event : SwarmEvent Req Resp) :
    (c.onEvent L event).handler.ownId? = c.ownId? := by
  cases hk : c.kind with
  | connection => rw [(connection_spec L hk event).handler_eq]
  | prompt =>
      rw [prompt_spec L hk event]
      rfl
  | tracked => exact (tracked_spec L hk event).ownId_eq

theorem onEvent_kind (c : Command Req Resp) (event : SwarmEvent Req Resp) :
    (c.onEvent L event).handler.kind = c.kind := by
  cases c <;> rfl

/-! ### Running -/

/-- The response that a command still has to hand over, and its channel. -/
def response? : Command Req Resp → Option (ResponseChannel × Resp)
  | .sendResponse ⟨some channel, some response⟩ => some (channel, response)
  | _ => none

/-- What `run` of a command without an id may do. A command that answers gets no id,
and the ids and responses that pass are those of the command. -/
structure RunSpec (c : Command Req Resp) (swarm : Swarm L)
    (r : Ran L (Command Req Resp) (Output Resp)) : Prop where
  kind_eq : r.handler.kind = c.kind
  connection : c.kind = .connection → r.handler = c
  prompt : c.kind = .prompt → r.finished ≠ none
  ownId_of_finished : r.finished ≠ none → r.handler.ownId? = none
  response_none : r.handler.response? = none
  called : Swarm.Called swarm r.swarm r.handler.ownId?.toList c.response?.toList

theorem RunSpec.of_kept {c : Command Req Resp} {swarm : Swarm L}
    {r : Ran L (Command Req Resp) (Output Resp)} (hkind : r.handler.kind = c.kind)
    (hconn : c.kind = .connection → r.handler = c)
    (hprompt : c.kind = .prompt → r.finished ≠ none) (hid : r.handler.ownId? = none)
    (hr : r.handler.response? = none) (hc : c.response? = none)
    (hs : Swarm.Kept swarm r.swarm) : RunSpec c swarm r := by
  refine ⟨hkind, hconn, hprompt, fun _ => hid, hr, ?_⟩
  rw [hid, hc]
  exact hs.called

/-- A Kad command that has started its query. -/
theorem RunSpec.of_query {c : Command Req Resp} {swarm : Swarm L}
    {r : Ran L (Command Req Resp) (Output Resp)} {id : QueryId}
    (hkind : r.handler.kind = c.kind) (hc : c.kind = .tracked) (hfin : r.finished = none)
    (hid : r.handler.ownId? = some (.query id)) (hr : r.handler.response? = none)
    (hresp : c.response? = none) (hs : Swarm.Called swarm r.swarm [.query id] []) :
    RunSpec c swarm r := by
  refine ⟨hkind, by simp [hc], by simp [hc], fun h => absurd hfin h, hr, ?_⟩
  rw [hid, hresp]
  exact hs

theorem addInfrastructurePeer_spec (c : AddInfrastructurePeerCommand) (swarm : Swarm L) :
    RunSpec (.addInfrastructurePeer c) swarm ((Command.addInfrastructurePeer c).run swarm) := by
  have h : Swarm.Kept swarm (c.addrs.foldl c.register swarm) :=
    .of_uses (.foldl c.addrs (fun s _ _ => c.register_uses s ⟨rfl, rfl⟩ fun _ => ⟨rfl, rfl⟩) swarm)
  simp only [run, AddInfrastructurePeerCommand.run]
  generalize (if c.roles.relayServer && (c.addrs.foldl c.register swarm).relayClient then
    { c with pendingRelayAddrs := some c.addrs } else c) = c'
  split
  · exact .of_kept rfl (by simp [kind]) (by simp [Ran.map]) rfl rfl rfl h
  · exact .of_kept rfl (by simp [kind]) (by simp [Ran.map]) rfl rfl rfl (h.trans (.dial _ _))

/-- `run` of a command that has not run yet. -/
theorem run_spec {c : Command Req Resp} (hid : c.ownId? = none) (swarm : Swarm L) :
    RunSpec c swarm (c.run swarm) := by
  cases c with
  | dial c =>
      have hd := Swarm.Kept.dial swarm c.peerId
      simp only [run, DialCommand.run]
      split
      · exact .of_kept rfl (fun _ => rfl) (by simp [kind]) rfl rfl rfl (.refl swarm)
      · split
        all_goals
          rename_i heq
          rw [heq] at hd
          exact .of_kept rfl (fun _ => rfl) (by simp [kind]) rfl rfl rfl hd
  | disconnect c =>
      have hd := Swarm.Kept.disconnectPeerId swarm c.peerId
      simp only [run, DisconnectCommand.run]
      split
      all_goals
        rename_i heq
        rw [heq] at hd
        exact .of_kept rfl (fun _ => rfl) (by simp [kind]) rfl rfl rfl hd
  | isConnected c => exact .of_kept rfl (by simp [kind]) (by simp [run, Ran.map,
      IsConnectedCommand.run]) rfl rfl rfl (.refl swarm)
  | getListenAddrs c => exact .of_kept rfl (by simp [kind]) (by simp [run, Ran.map,
      GetListenAddrsCommand.run]) rfl rfl rfl (.refl swarm)
  | addPeerAddrs c => exact .of_kept rfl (by simp [kind]) (by simp [run, Ran.map,
      AddPeerAddrsCommand.run]) rfl rfl rfl (.of_uses (c.run_uses swarm fun _ => ⟨rfl, rfl⟩))
  | addInfrastructurePeer c => exact addInfrastructurePeer_spec c swarm
  | sendRequest c =>
      have hown : c.requestId = none := by simpa [ownId?] using hid
      simp only [run, SendRequestCommand.run]
      split
      · exact .of_kept rfl (by simp [kind]) (by simp [kind]) (by simp [Ran.map, ownId?, hown])
          rfl rfl (.refl swarm)
      · exact ⟨rfl, by simp [kind], by simp [kind], by simp [Ran.map], rfl,
          swarm.sendRequest_called c.peerId _⟩
  | sendResponse c =>
      obtain ⟨channel, response⟩ := c
      simp only [run, SendResponseCommand.run]
      split
      · rename_i ch resp
        have hs := swarm.sendResponse_called ch resp
        split
        all_goals
          rename_i heq
          rw [heq] at hs
          exact ⟨rfl, by simp [kind], by simp [Ran.map], fun _ => rfl, rfl, hs⟩
      · rename_i hne
        refine .of_kept rfl (by simp [kind]) (by simp [Ran.map]) rfl rfl ?_ (.refl swarm)
        cases channel with
        | none => rfl
        | some ch =>
            cases response with
            | none => rfl
            | some resp => exact absurd rfl (hne ch resp rfl)
  | bootstrap c =>
      have hown : c.queryId = none := by simpa [ownId?] using hid
      simp only [run, BootstrapCommand.run]
      split
      · rename_i heq
        exact .of_query rfl rfl rfl rfl rfl rfl (Swarm.startQuery_ok heq)
      · rename_i heq
        exact .of_kept rfl (by simp [kind]) (by simp [kind]) (by simp [Ran.map, ownId?, hown])
          rfl rfl (Swarm.startQuery_error heq)
  | getRecord c => exact .of_query rfl rfl rfl rfl rfl rfl (swarm.query_called _)
  | putRecord c =>
      have hown : c.queryId = none := by simpa [ownId?] using hid
      simp only [run, PutRecordCommand.run]
      split
      · rename_i heq
        exact .of_query rfl rfl rfl rfl rfl rfl (Swarm.startQuery_ok heq)
      · rename_i heq
        exact .of_kept rfl (by simp [kind]) (by simp [kind]) (by simp [Ran.map, ownId?, hown])
          rfl rfl (Swarm.startQuery_error heq)
  | getProviders c => exact .of_query rfl rfl rfl rfl rfl rfl (swarm.query_called _)
  | getClosestPeers c => exact .of_query rfl rfl rfl rfl rfl rfl (swarm.query_called _)
  | startProvide c =>
      have hown : c.queryId = none := by simpa [ownId?] using hid
      simp only [run, StartProvideCommand.run]
      split
      · rename_i heq
        exact .of_query rfl rfl rfl rfl rfl rfl (Swarm.startQuery_ok heq)
      · rename_i heq
        exact .of_kept rfl (by simp [kind]) (by simp [kind]) (by simp [Ran.map, ownId?, hown])
          rfl rfl (Swarm.startQuery_error heq)
  | stopProvide c => exact .of_kept rfl (by simp [kind]) (by simp [run, Ran.map,
      StopProvideCommand.run]) rfl rfl rfl (.kadStopProviding swarm c.key)
  | removeRecord c => exact .of_kept rfl (by simp [kind]) (by simp [run, Ran.map,
      RemoveRecordCommand.run]) rfl rfl rfl (.kadRemoveRecord swarm c.key)

/-! ### The relay request -/

theorem takeRelayReservationRequest_kind (c : Command Req Resp) :
    c.takeRelayReservationRequest.1.kind = c.kind := by
  cases c <;> rfl

theorem takeRelayReservationRequest_ownId? (c : Command Req Resp) :
    c.takeRelayReservationRequest.1.ownId? = c.ownId? := by
  cases c <;> rfl

theorem takeRelayReservationRequest_response? (c : Command Req Resp) :
    c.takeRelayReservationRequest.1.response? = c.response? := by
  cases c <;> rfl

/-- Only the command for infrastructure peers is changed. -/
theorem takeRelayReservationRequest_of_kind_ne {c : Command Req Resp} (hk : c.kind ≠ .prompt) :
    c.takeRelayReservationRequest = (c, none) := by
  cases c with
  | addInfrastructurePeer c => exact absurd rfl hk
  | _ => rfl

end Command

end SwarmP2p
