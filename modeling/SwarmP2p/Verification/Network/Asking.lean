import SwarmP2p.Model.Network
import SwarmP2p.Verification.Call.Answer
import SwarmP2p.Verification.Response.Pairing

/-! # Requests that a node sends

Each request that libp2p gets is that of one call of `send_request` and goes there under
an id of its own. The call answers with a response only when an event brought one for
this id. -/

namespace SwarmP2p

variable {Req Resp : Type} {L : Libp2p Req Resp}

/-! ### What a run asks and hears -/

/-- The requests that a run hands to libp2p. -/
def asks (π : List (Transition.Trans (Node L) (Label Req Resp))) : List (Ask Req) :=
  π.filterMap fun x => x.pre.asks? x.label

/-- The response that an event brings. -/
def Label.reply? : Label Req Resp → Option (Reply Resp)
  | .swarmEvent (.behaviour (.reqResp (.response source id response))) =>
      some ⟨source, id, response⟩
  | _ => none

/-- The responses that libp2p returns in a run. -/
def replies (π : List (Transition.Trans (Node L) (Label Req Resp))) : List (Reply Resp) :=
  π.filterMap fun x => x.label.reply?

theorem asks_snoc (π : List (Transition.Trans (Node L) (Label Req Resp)))
    (x : Transition.Trans (Node L) (Label Req Resp)) :
    asks (π ++ [x]) = asks π ++ (x.pre.asks? x.label).toList := by
  rw [asks, List.filterMap_append]
  cases hx : x.pre.asks? x.label <;> simp [asks, hx]

theorem replies_snoc (π : List (Transition.Trans (Node L) (Label Req Resp)))
    (x : Transition.Trans (Node L) (Label Req Resp)) :
    replies (π ++ [x]) = replies π ++ x.label.reply?.toList := by
  rw [replies, List.filterMap_append]
  cases hx : x.label.reply? <;> simp [replies, hx]

theorem Node.asks?_eq_some {n : Node L} {l : Label Req Resp} {x : Ask Req}
    (h : n.asks? l = some x) :
    l = .handleCommand ∧ x.id = (n.loop.swarm.sendRequest x.target x.request).2 ∧
      ∃ requestId,
        n.phase = .running ⟨.sendRequest ⟨x.target, some x.request, requestId⟩, x.call⟩ := by
  unfold Node.asks? at h
  split at h
  · split at h
    · rename_i heq
      obtain rfl := Option.some.inj h
      exact ⟨rfl, rfl, _, heq⟩
    · cases h
  · cases h

theorem Call.eq_sendRequest {call : Call Req Resp} {taken : Option ResponseChannel}
    {c : SendRequestCommand Req} (h : call.command taken = some (.sendRequest c)) :
    ∃ peerId request, call = .sendRequest peerId request ∧ c = .new peerId request := by
  cases call with
  | sendRequest peerId request =>
      exact ⟨peerId, request, rfl, (Command.sendRequest.inj (Option.some.inj h)).symm⟩
  | sendResponse pendingId response =>
      obtain ⟨_, _, h⟩ := Option.map_eq_some_iff.mp h
      cases h
  | _ => cases h

theorem Node.handleCommand_unrun (n : Node L) (task : Task Req Resp) :
    (n.handleCommand task).desk.unrun = n.desk.queue :=
  congrArg Channel.queue (n.handleCommand_kept task).1

/-- No task in the queue is of the call whose command is run. -/
theorem Desk.Inv.queue_ne {d : Desk Req Resp} (hi : d.Inv) {task : Task Req Resp}
    (hrun : d.running = some task) : ∀ t ∈ d.queue, t.handle ≠ task.handle := by
  have hunrun : d.unrun = task :: d.queue := by simp [Desk.unrun, hrun]
  have hn := hi.nodup
  rw [Desk.tasks, hunrun, List.cons_append, List.map_cons, List.nodup_cons] at hn
  intro t ht heq
  exact hn.1 (List.mem_map.mpr ⟨t, List.mem_append_left _ ht, heq⟩)

/-! ### The requests of the calls -/

/-- The requests so far: each is that of a call whose command has run. -/
structure Asking (log : List (Ask Req)) (d : Desk Req Resp) : Prop where
  ids : (log.map fun x => EventId.request x.id).Sublist d.ids
  call : ∀ x ∈ log, ∃ c, d.calls x.call = some c ∧ c.call = .sendRequest x.target x.request ∧
    c.phase.Sent ∧ ∀ t ∈ d.unrun, t.handle ≠ x.call
  nodup : (log.map Ask.call).Nodup

namespace Asking

variable {log : List (Ask Req)}

theorem keep {d d' : Desk Req Resp} {l : Label Req Resp} (hi : d.Inv) (ha : Asking log d)
    (h : DeskStep L d l d') : Asking log d' := by
  obtain ⟨new, hnew⟩ := hi.issued h
  refine ⟨ha.ids.trans hnew.grows.sublist, ?_, ha.nodup⟩
  intro x hx
  obtain ⟨c, hc, hcall, hs, hrun⟩ := ha.call x hx
  obtain ⟨phase, hc', hmoves⟩ := h.call hc
  refine ⟨_, hc', hcall, hmoves.sent hs, ?_⟩
  intro t ht hid
  obtain ⟨u, hu, huid⟩ := Desk.unrun_of_sent h hc hs t ht hid
  exact hrun u hu huid

theorem step {n m : Node L} {l : Label Req Resp} (hi : n.desk.Inv) (hm : n.desk.Made)
    (ha : Asking log n.desk) (h : Step n l m) :
    Asking (log ++ (n.asks? l).toList) m.desk := by
  have hkept := ha.keep hi h.desk
  cases hx : n.asks? l with
  | none => simpa using hkept
  | some x =>
      obtain ⟨rfl, hid, requestId, hp⟩ := n.asks?_eq_some hx
      obtain rfl : m = n.handleCommand ⟨_, x.call⟩ := by
        cases h with
        | handleCommand hp' =>
            rw [hp] at hp'
            rw [LoopPhase.running.inj hp']
      have hmem : (⟨.sendRequest ⟨x.target, some x.request, requestId⟩, x.call⟩ : Task Req Resp) ∈
          n.desk.unrun := n.running_unrun hp
      obtain ⟨c, hc, hmade⟩ := hm _ hmem
      obtain ⟨peerId, request, hcall, hnew⟩ := Call.eq_sendRequest hmade
      obtain ⟨rfl, hrequest, rfl⟩ := SendRequestCommand.mk.inj hnew
      obtain rfl := Option.some.inj hrequest
      refine ⟨?_, ?_, ?_⟩
      · have hids : (n.handleCommand ⟨.sendRequest (.new x.target x.request), x.call⟩).desk.ids =
            n.desk.ids ++ [.request x.id] := by
          rw [hid]
          exact ((n.handleCommand_swarm _).ids_eq).trans
            (n.loop.swarm.sendRequest_called x.target x.request).ids_eq
        rw [List.map_append]
        exact hids ▸ ha.ids.append (List.Sublist.refl _)
      · intro y hy
        rcases List.mem_append.mp hy with hy | hy
        · exact hkept.call y hy
        · obtain rfl := List.mem_singleton.mp hy
          obtain ⟨c', hc', hs⟩ := hi.sent _ (Desk.mem_tasks.mpr (.inl hmem))
          have hsame : c' = c := Option.some.inj (hc'.symm.trans hc)
          subst hsame
          refine ⟨c', hc, hcall, hs, fun t ht => ?_⟩
          rw [Node.handleCommand_unrun] at ht
          exact hi.queue_ne (n.desk_running hp) t ht
      · rw [List.map_append, List.nodup_append]
        refine ⟨ha.nodup, by simp, ?_⟩
        intro id hin id' hin' heq
        obtain ⟨y, hy, rfl⟩ := List.mem_map.mp hin
        obtain rfl : id' = x.call := by simpa using hin'
        obtain ⟨_, _, _, _, hrun⟩ := ha.call y hy
        exact hrun _ hmem heq.symm

end Asking

theorem Run.asking {config : NodeConfig} {n m : Node L}
    {π : List (Transition.Trans (Node L) (Label Req Resp))} (hs : Started L config n)
    (h : Run L n π m) : Asking (asks π) m.desk := by
  induction h with
  | nil => exact ⟨List.nil_sublist _, fun x hx => (by cases hx), List.nodup_nil⟩
  | @snoc π a l b hp hstep ih =>
      have ha : Reachable L config a := ⟨n, π, hs, hp⟩
      rw [asks_snoc]
      exact ih.step ha.inv ha.made hstep

/-! ### The responses that the calls get -/

theorem SendRequestCommand.onEvent_handler (c : SendRequestCommand Req)
    (event : SwarmEvent Req Resp) : (c.onEvent event).handler = c := by
  unfold onEvent
  split
  · split <;> rfl
  · split <;> rfl
  · rfl

/-- The command answers with a response that came from its peer for its id. -/
theorem SendRequestCommand.onEvent_response {c : SendRequestCommand Req}
    {event : SwarmEvent Req Resp} {response : Resp}
    (h : (c.onEvent event).finished = some (.ok response)) :
    ∃ id, c.requestId = some id ∧
      event = .behaviour (.reqResp (.response c.peerId id response)) := by
  unfold onEvent at h
  split at h
  · rename_i peer id resp
    split at h
    · rename_i hid
      obtain rfl := Except.ok.inj (Option.some.inj h)
      exact ⟨id, hid.1, by rw [hid.2]⟩
    · cases h
  · split at h <;> cases h
  · cases h

theorem SendRequestCommand.response_of_alone {c : SendRequestCommand Req}
    {events : List (SwarmEvent Req Resp)} {response : Resp}
    (h : (Command.sendRequest c).alone L events = some (.ok (.response response))) :
    ∃ id, c.requestId = some id ∧
      SwarmEvent.behaviour (.reqResp (.response c.peerId id response)) ∈ events := by
  induction events with
  | nil => cases h
  | cons event events ih =>
      simp only [Command.alone, Command.onEvent, OnEvent.map, c.onEvent_handler] at h
      cases hf : (c.onEvent event).finished with
      | some r =>
          rw [hf] at h
          cases r with
          | error e => cases h
          | ok resp =>
              obtain rfl : resp = response :=
                Output.response.inj (Except.ok.inj (Option.some.inj h))
              obtain ⟨id, hid, rfl⟩ := onEvent_response hf
              exact ⟨id, hid, List.mem_cons_self⟩
      | none =>
          rw [hf] at h
          simp only [Option.map_none] at h
          split at h
          · obtain ⟨id, hid, hmem⟩ := ih h
            exact ⟨id, hid, List.mem_cons_of_mem _ hmem⟩
          · cases h

/-- A call of `send_request` that has a response: the run asked for it, and the response
came from the peer under the id of the request. -/
theorem Run.reply_of_response {config : NodeConfig} {n m : Node L}
    {π : List (Transition.Trans (Node L) (Label Req Resp))} (hs : Started L config n)
    (h : Run L n π m) (hids : m.loop.swarm.ids.Nodup) {id : HandleId}
    {c : ClientCall Req Resp} {peerId : PeerId} {request : Req} {response : Resp}
    (hc : m.calls id = some c) (hcall : c.call = .sendRequest peerId request)
    (hp : c.phase = .ready (.ok (.response response))) :
    ∃ x ∈ asks π, x.call = id ∧ x.target = peerId ∧ x.request = request ∧
      (⟨peerId, x.id, response⟩ : Reply Resp) ∈ replies π := by
  have hcommand : c.call.command c.taken = some (.sendRequest (.new peerId request)) := by
    rw [hcall]
    rfl
  obtain ⟨χ, a, ρ, ⟨hπ, _, hphase, _⟩, hanswer⟩ :=
    h.answeredAlone hs hids hc hcommand rfl hp
  have hasks : a.asks? .handleCommand =
      some ⟨id, peerId, (a.loop.swarm.sendRequest peerId request).2, request⟩ := by
    rw [Node.asks?, hphase]
    rfl
  obtain ⟨own, hown, hmem⟩ := SendRequestCommand.response_of_alone
    (c := ⟨peerId, none, some (a.loop.swarm.sendRequest peerId request).2⟩) hanswer
  obtain rfl := Option.some.inj hown
  obtain ⟨y, hy, hevent⟩ := List.mem_filterMap.mp hmem
  obtain ⟨hlabel, _⟩ := Label.ownEvent?_eq_some hevent
  have hreply : y.label.reply? =
      some ⟨peerId, (a.loop.swarm.sendRequest peerId request).2, response⟩ := by
    rw [hlabel]
    rfl
  have hran : ⟨a, .handleCommand, a.handleCommand ⟨.sendRequest (.new peerId request), id⟩⟩ ∈ π :=
    by simp [hπ]
  have hheard : y ∈ π := by
    rw [hπ]
    exact List.mem_append_right _ hy
  exact ⟨_, List.mem_filterMap.mpr ⟨_, hran, hasks⟩, rfl, rfl, rfl,
    List.mem_filterMap.mpr ⟨y, hheard, hreply⟩⟩

end SwarmP2p
