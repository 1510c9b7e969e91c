import SwarmP2p.Model.Loopback
import SwarmP2p.Verification.Call.Origin

/-! # Requests and their responses

An inbound request lends its channel to the pending map under a fresh id, a call of
`send_response` with that id takes it, its command carries it, and libp2p gets it at
most once. One invariant follows the channel through all of these hands. -/

namespace SwarmP2p

variable {Req Resp : Type} {L : Libp2p Req Resp}

/-! ### What a run announces -/

/-- The channel of an inbound request. -/
def Label.request? : Label Req Resp → Option ResponseChannel
  | .swarmEvent (.behaviour (.reqResp (.request _ _ channel))) => some channel
  | _ => none

/-- The inbound requests of a run, by their channels. -/
def requests (π : List (Transition.Trans (Node L) (Label Req Resp))) : List ResponseChannel :=
  π.filterMap fun x => x.label.request?

/-- The id in the node event that the loop is about to send. -/
def LoopPhase.announced? : LoopPhase Req Resp → Option Nat
  | .sending (.inboundRequest _ pendingId _) => some pendingId
  | _ => none

/-- An inbound request and the id under which it is announced. -/
def announcement? (x : Transition.Trans (Node L) (Label Req Resp)) :
    Option (ResponseChannel × Nat) :=
  match x.label.request?, x.post.phase.announced? with
  | some channel, some pendingId => some (channel, pendingId)
  | _, _ => none

def announcements (π : List (Transition.Trans (Node L) (Label Req Resp))) :
    List (ResponseChannel × Nat) :=
  π.filterMap announcement?

/-! ### Steps that touch the map -/

theorem Node.handleSwarmEvent_request (n : Node L) (order : List PeerId) (peer : PeerId)
    (request : Req) (channel : ResponseChannel) :
    let m := n.handleSwarmEvent order (.behaviour (.reqResp (.request peer request channel)))
    m.loop.pendingIdCounter = (n.loop.pendingIdCounter + 1) % wordSize ∧
      m.loop.pendingChannels =
        n.loop.pendingChannels.insert n.now n.loop.pendingIdCounter channel ∧
      m.phase = .sending (.inboundRequest peer n.loop.pendingIdCounter request) ∧
      m.calls = n.calls := by
  have hpassed : (Chain.dispatch (Task.onEvent L) n.loop.activeCommands
      (.behaviour (.reqResp (.request peer request channel)))).remaining =
      some (.behaviour (.reqResp (.request peer request channel))) :=
    dispatch_remaining n.loop.activeCommands rfl
  simp only [Node.handleSwarmEvent, hpassed, EventLoop.convertToNodeEvent_request, and_self]

theorem Node.handleSwarmEvent_pending (n : Node L) (order : List PeerId)
    {event : SwarmEvent Req Resp} (hr : event.isRequest = false) :
    (n.handleSwarmEvent order event).loop.pendingIdCounter = n.loop.pendingIdCounter ∧
      (n.handleSwarmEvent order event).loop.pendingChannels = n.loop.pendingChannels ∧
      (n.handleSwarmEvent order event).calls = n.calls := by
  rcases n.handleSwarmEvent_cases order event with ⟨_, h⟩ | ⟨_, h⟩
  · rw [h]
    exact ⟨rfl, rfl, rfl⟩
  · rw [h]
    have hk := EventLoop.convertToNodeEvent_kept
      { n.loop with
        activeCommands := (Chain.dispatch (Task.onEvent L) n.loop.activeCommands event).commands }
      n.now order event hr
    exact ⟨hk.pendingIdCounter, hk.pendingChannels, rfl⟩

/-- The calls of `m` are calls of `n` with the same arguments. -/
def Node.CallsFrom (n m : Node L) : Prop :=
  ∀ id c, m.calls id = some c →
    ∃ c', n.calls id = some c' ∧ c'.call = c.call ∧ c'.taken = c.taken

theorem Node.CallsFrom.of_eq {n m : Node L} (h : m.calls = n.calls) : n.CallsFrom m := by
  intro id c hc
  exact ⟨c, by rw [← h, hc], rfl, rfl⟩

theorem Node.CallsFrom.of_update {n m : Node L} {id : HandleId} {c : ClientCall Req Resp}
    (h : n.calls id = some c) (phase : CallPhase Req Resp)
    (hcalls : m.calls = Function.update n.calls id (some { c with phase := phase })) :
    n.CallsFrom m := by
  intro id' c' hc'
  rcases call_of_update hcalls hc' with ⟨rfl, rfl⟩ | ⟨_, hc'⟩
  · exact ⟨c, h, rfl, rfl⟩
  · exact ⟨c', hc', rfl, rfl⟩

/-- What a step does to the counter, the pending map and the arguments of calls. -/
inductive Registered (n m : Node L) (l : Label Req Resp) : Prop where
  | opened (id : HandleId) (call : Call Req Resp) (hl : l = .openCall id call)
      (hcounter : m.loop.pendingIdCounter = n.loop.pendingIdCounter)
      (hmap : m.loop.pendingChannels = (call.take n.loop.pendingChannels).2)
      (hfresh : n.calls id = none)
      (hcalls : m.calls = Function.update n.calls id
        (some (call.opened (call.take n.loop.pendingChannels).1)))
  | request (channel : ResponseChannel) (hl : l.request? = some channel)
      (hphase : m.phase.announced? = some n.loop.pendingIdCounter)
      (hcounter : m.loop.pendingIdCounter = (n.loop.pendingIdCounter + 1) % wordSize)
      (hmap : m.loop.pendingChannels =
        n.loop.pendingChannels.insert n.now n.loop.pendingIdCounter channel)
      (hcalls : n.CallsFrom m)
  | other (hl : l.request? = none) (hno : ∀ id call, l ≠ .openCall id call)
      (hcounter : m.loop.pendingIdCounter = n.loop.pendingIdCounter)
      (hmap : ∀ pendingId entry, m.loop.pendingChannels.get? pendingId = some entry →
        n.loop.pendingChannels.get? pendingId = some entry)
      (hcalls : n.CallsFrom m)

theorem Label.request?_eq_none {event : SwarmEvent Req Resp} (h : event.isRequest = false) :
    (Label.swarmEvent event : Label Req Resp).request? = none := by
  unfold request?
  split
  · rename_i heq
    cases heq
    cases h
  · rfl

theorem Node.pollSend_pending (n : Node L) (event : NodeEvent Req) :
    (n.pollSend event).loop.pendingIdCounter = n.loop.pendingIdCounter ∧
      (n.pollSend event).loop.pendingChannels = n.loop.pendingChannels := by
  unfold Node.pollSend
  split <;> simp

theorem Step.registered {n m : Node L} {l : Label Req Resp} (h : Step n l m) :
    Registered n m l := by
  cases h with
  | openCall call hc h => exact .opened _ call rfl rfl rfl h rfl
  | @firstPoll id c command waker h hp =>
      by_cases ha : n.loop.commandRx.Accepts
      · rw [n.firstPoll_of_accepts id c command waker ha]
        exact .other rfl (by simp) rfl (fun _ _ he => he) (.of_update h _ rfl)
      · rw [n.firstPoll_of_not_accepts id c command waker ha]
        exact .other rfl (by simp) rfl (fun _ _ he => he) (.of_update h _ rfl)
  | handlePoll h hp =>
      exact .other rfl (by simp) rfl (fun _ _ he => he) (.of_update h _ rfl)
  | pollAgain waker h hp =>
      exact .other rfl (by simp) rfl (fun _ _ he => he) (.of_update h _ rfl)
  | dropCall h hp => exact .other rfl (by simp) rfl (fun _ _ he => he) (.of_update h _ rfl)
  | @handleCommand task hp =>
      obtain ⟨_, _, hmap, hcounter⟩ := n.handleCommand_kept task
      refine .other rfl (by simp) hcounter ?_ (.of_eq rfl)
      intro pendingId entry he
      rwa [hmap] at he
  | @swarmEvent event state order hp h ho =>
      cases hr : event.isRequest with
      | false =>
          obtain ⟨hcounter, hmap, hcalls⟩ :=
            (n.withSwarmState state).handleSwarmEvent_pending order hr
          refine .other (Label.request?_eq_none hr) (by simp) hcounter ?_ (.of_eq hcalls)
          intro pendingId entry he
          rwa [hmap] at he
      | true =>
          obtain ⟨peer, request, channel, rfl⟩ := EventLoop.isRequest_eq_true hr
          obtain ⟨hcounter, hmap, hphase, hcalls⟩ :=
            (n.withSwarmState state).handleSwarmEvent_request order peer request channel
          refine .request channel rfl ?_ hcounter hmap (.of_eq hcalls)
          rw [hphase]
          rfl
  | @beginSend event hp =>
      obtain ⟨hcounter, hmap⟩ := n.pollSend_pending event
      exact .other rfl (by simp) hcounter (fun _ _ he => hmap ▸ he)
        (.of_eq (n.pollSend_loop event).2.2.1)
  | @resumeSend event hp h =>
      obtain ⟨hcounter, hmap⟩ := n.pollSend_pending event
      exact .other rfl (by simp) hcounter (fun _ _ he => hmap ▸ he)
        (.of_eq (n.pollSend_loop event).2.2.1)
  | purge =>
      exact .other rfl (by simp) rfl (fun _ _ he => PendingMap.get?_retain_of_some he)
        (.of_eq rfl)
  | _ => exact .other rfl (by simp) rfl (fun _ _ he => he) (.of_eq rfl)

/-! ### From the request to the taker -/

theorem Call.take_eq_some {call : Call Req Resp} {m : PendingMap Nat ResponseChannel}
    {channel : ResponseChannel} (h : (call.take m).1 = some channel) :
    ∃ pendingId response entry, call = .sendResponse pendingId response ∧
      m.get? pendingId = some entry ∧ entry.value = channel ∧
      (call.take m).2.get? pendingId = none := by
  cases call with
  | sendResponse pendingId response =>
      obtain ⟨entry, hget, hvalue⟩ := Option.map_eq_some_iff.mp h
      exact ⟨pendingId, response, entry, rfl, hget, hvalue, PendingMap.get?_remove_self _ _⟩
  | _ => cases h

theorem Call.get?_take {call : Call Req Resp} {m : PendingMap Nat ResponseChannel}
    {pendingId : Nat} {entry : PendingEntry ResponseChannel}
    (h : (call.take m).2.get? pendingId = some entry) : m.get? pendingId = some entry := by
  cases call with
  | sendResponse key response => exact PendingMap.get?_retain_of_some h
  | _ => exact h

/-- A channel is in the map under the id announced for it, or one call has taken it. -/
structure Paired (anns : List (ResponseChannel × Nat)) (n : Node L) : Prop where
  counter : n.loop.pendingIdCounter = anns.length % wordSize
  ids : anns.map Prod.snd = List.range anns.length
  stored : ∀ pendingId entry, n.loop.pendingChannels.get? pendingId = some entry →
    (entry.value, pendingId) ∈ anns
  taken : ∀ id c channel, n.calls id = some c → c.taken = some channel →
    ∃ pendingId response, c.call = .sendResponse pendingId response ∧
      (channel, pendingId) ∈ anns ∧ n.loop.pendingChannels.get? pendingId = none
  once : ∀ id id' c c' channel, n.calls id = some c → n.calls id' = some c' →
    c.taken = some channel → c'.taken = some channel → id = id'

namespace Paired

variable {anns : List (ResponseChannel × Nat)} {n m : Node L}

/-- An announced id is below the number of announcements. -/
theorem lt_length (hp : Paired anns n) {channel : ResponseChannel} {pendingId : Nat}
    (h : (channel, pendingId) ∈ anns) : pendingId < anns.length := by
  have hmem : pendingId ∈ anns.map Prod.snd := List.mem_map_of_mem (f := Prod.snd) h
  rw [hp.ids] at hmem
  exact List.mem_range.mp hmem

/-- Before the counter wraps, nothing is stored under the next id. -/
theorem next_free (hp : Paired anns n) (hlt : anns.length < wordSize) :
    n.loop.pendingChannels.get? n.loop.pendingIdCounter = none := by
  cases hget : n.loop.pendingChannels.get? n.loop.pendingIdCounter with
  | none => rfl
  | some entry =>
      have hid := hp.lt_length (hp.stored _ entry hget)
      rw [hp.counter, Nat.mod_eq_of_lt hlt] at hid
      exact absurd hid (lt_irrefl _)

theorem opened (hp : Paired anns n) (hn : (anns.map Prod.fst).Nodup) {id : HandleId}
    {call : Call Req Resp} (hcounter : m.loop.pendingIdCounter = n.loop.pendingIdCounter)
    (hmap : m.loop.pendingChannels = (call.take n.loop.pendingChannels).2)
    (hfresh : n.calls id = none)
    (hcalls : m.calls = Function.update n.calls id
      (some (call.opened (call.take n.loop.pendingChannels).1))) : Paired anns m := by
  have hsub : ∀ pendingId entry, m.loop.pendingChannels.get? pendingId = some entry →
      n.loop.pendingChannels.get? pendingId = some entry := by
    intro pendingId entry he
    rw [hmap] at he
    exact Call.get?_take he
  -- What the new call takes was stored, so no other call has it.
  have hnew : ∀ channel, (call.take n.loop.pendingChannels).1 = some channel →
      ∀ id' c', n.calls id' = some c' → c'.taken ≠ some channel := by
    intro channel htake id' c' hc' ht
    obtain ⟨pendingId, _, entry, _, hget, hvalue, _⟩ := Call.take_eq_some htake
    obtain ⟨pendingId', _, _, hann', hnone⟩ := hp.taken id' c' channel hc' ht
    have hann := hp.stored pendingId entry hget
    rw [hvalue] at hann
    have hsame := List.inj_on_of_nodup_map hn hann hann' rfl
    rw [Prod.mk.inj hsame |>.2, hnone] at hget
    cases hget
  refine ⟨hcounter.trans hp.counter, hp.ids, fun pendingId entry he =>
    hp.stored pendingId entry (hsub _ _ he), ?_, ?_⟩
  · intro id' c channel hc ht
    rcases call_of_update hcalls hc with ⟨rfl, rfl⟩ | ⟨_, hc⟩
    · obtain ⟨pendingId, response, entry, hcall, hget, hvalue, hnone⟩ := Call.take_eq_some ht
      refine ⟨pendingId, response, hcall, hvalue ▸ hp.stored pendingId entry hget, ?_⟩
      rw [hmap]
      exact hnone
    · obtain ⟨pendingId, response, hcall, hann, hnone⟩ := hp.taken id' c channel hc ht
      refine ⟨pendingId, response, hcall, hann, ?_⟩
      cases hget : m.loop.pendingChannels.get? pendingId with
      | none => rfl
      | some entry =>
          have := hsub _ _ hget
          rw [hnone] at this
          cases this
  · intro id₁ id₂ c₁ c₂ channel h₁ h₂ ht₁ ht₂
    rcases call_of_update hcalls h₁ with ⟨rfl, rfl⟩ | ⟨_, h₁⟩
    · rcases call_of_update hcalls h₂ with ⟨rfl, _⟩ | ⟨_, h₂⟩
      · rfl
      · exact absurd ht₂ (hnew channel ht₁ id₂ c₂ h₂)
    · rcases call_of_update hcalls h₂ with ⟨rfl, rfl⟩ | ⟨_, h₂⟩
      · exact absurd ht₁ (hnew channel ht₂ id₁ c₁ h₁)
      · exact hp.once id₁ id₂ c₁ c₂ channel h₁ h₂ ht₁ ht₂

/-- Calls that keep their arguments have taken what they had taken. -/
theorem once_of_calls (hp : Paired anns n) (hcalls : n.CallsFrom m) (id id' : HandleId)
    (c c' : ClientCall Req Resp) (channel : ResponseChannel) (h : m.calls id = some c)
    (h' : m.calls id' = some c') (ht : c.taken = some channel)
    (ht' : c'.taken = some channel) : id = id' := by
  obtain ⟨b, hb, _, hbt⟩ := hcalls id c h
  obtain ⟨b', hb', _, hbt'⟩ := hcalls id' c' h'
  exact hp.once id id' b b' channel hb hb' (hbt.trans ht) (hbt'.trans ht')

theorem request (hp : Paired anns n) (hlt : anns.length < wordSize) {now : Nat}
    {channel : ResponseChannel}
    (hcounter : m.loop.pendingIdCounter = (n.loop.pendingIdCounter + 1) % wordSize)
    (hmap : m.loop.pendingChannels =
      n.loop.pendingChannels.insert now n.loop.pendingIdCounter channel)
    (hcalls : n.CallsFrom m) : Paired (anns ++ [(channel, n.loop.pendingIdCounter)]) m := by
  have hnext : n.loop.pendingIdCounter = anns.length := by
    rw [hp.counter, Nat.mod_eq_of_lt hlt]
  refine ⟨?_, ?_, ?_, ?_, hp.once_of_calls hcalls⟩
  · rw [hcounter, hnext, List.length_append, List.length_singleton]
  · rw [List.map_append, hp.ids, hnext, List.length_append, List.length_singleton,
      List.range_succ]
    rfl
  · intro pendingId entry he
    by_cases hid : pendingId = n.loop.pendingIdCounter
    · subst hid
      rw [hmap, PendingMap.get?_insert_self] at he
      obtain rfl := Option.some.inj he
      simp
    · rw [hmap, PendingMap.get?_insert_of_ne _ _ _ hid] at he
      exact List.mem_append_left _ (hp.stored pendingId entry he)
  · intro id c ch hc ht
    obtain ⟨c', hc', hcall, htaken⟩ := hcalls id c hc
    obtain ⟨pendingId, response, hcall', hann, hnone⟩ :=
      hp.taken id c' ch hc' (htaken.trans ht)
    refine ⟨pendingId, response, hcall ▸ hcall', List.mem_append_left _ hann, ?_⟩
    have hid : pendingId ≠ n.loop.pendingIdCounter := by
      have := hp.lt_length hann
      omega
    rw [hmap, PendingMap.get?_insert_of_ne _ _ _ hid, hnone]

theorem other (hp : Paired anns n)
    (hcounter : m.loop.pendingIdCounter = n.loop.pendingIdCounter)
    (hmap : ∀ pendingId entry, m.loop.pendingChannels.get? pendingId = some entry →
      n.loop.pendingChannels.get? pendingId = some entry)
    (hcalls : n.CallsFrom m) : Paired anns m := by
  refine ⟨hcounter.trans hp.counter, hp.ids, fun pendingId entry he =>
    hp.stored pendingId entry (hmap _ _ he), ?_, hp.once_of_calls hcalls⟩
  intro id c ch hc ht
  obtain ⟨c', hc', hcall, htaken⟩ := hcalls id c hc
  obtain ⟨pendingId, response, hcall', hann, hnone⟩ := hp.taken id c' ch hc' (htaken.trans ht)
  refine ⟨pendingId, response, hcall ▸ hcall', hann, ?_⟩
  cases hget : m.loop.pendingChannels.get? pendingId with
  | none => rfl
  | some entry =>
      have := hmap _ _ hget
      rw [hnone] at this
      cases this

end Paired

theorem announcement?_eq_none {n m : Node L} {l : Label Req Resp} (h : l.request? = none) :
    announcement? (⟨n, l, m⟩ : Transition.Trans (Node L) (Label Req Resp)) = none := by
  simp [announcement?, h]

theorem Paired.step {anns : List (ResponseChannel × Nat)} {n m : Node L}
    {l : Label Req Resp} (hp : Paired anns n) (h : Step n l m)
    (hn : (anns.map Prod.fst).Nodup)
    (hlen : (anns ++ (announcement? ⟨n, l, m⟩).toList).length ≤ wordSize) :
    Paired (anns ++ (announcement? ⟨n, l, m⟩).toList) m := by
  cases h.registered with
  | opened id call hl hcounter hmap hfresh hcalls =>
      rw [announcement?_eq_none (by rw [hl]; rfl), Option.toList_none, List.append_nil]
      exact hp.opened hn hcounter hmap hfresh hcalls
  | request channel hl hphase hcounter hmap hcalls =>
      have hann : announcement? (⟨n, l, m⟩ : Transition.Trans (Node L) (Label Req Resp)) =
          some (channel, n.loop.pendingIdCounter) := by
        simp [announcement?, hl, hphase]
      rw [hann] at hlen ⊢
      refine hp.request ?_ hcounter hmap hcalls
      simp at hlen
      omega
  | other hl hno hcounter hmap hcalls =>
      rw [announcement?_eq_none hl, Option.toList_none, List.append_nil]
      exact hp.other hcounter hmap hcalls

/-! ### From the taker to libp2p -/

namespace Desk

/-- Every response handed over is that of a call that took its channel and whose command
has run; no channel is used twice. -/
structure Handed (d : Desk Req Resp) : Prop where
  handed : ∀ channel response, (channel, response) ∈ d.responses →
    ∃ id c pendingId, d.calls id = some c ∧ c.taken = some channel ∧
      c.call = .sendResponse pendingId response ∧ c.phase.Sent ∧
      ∀ t ∈ d.unrun, t.handle ≠ id
  nodup : (d.responses.map Prod.fst).Nodup

/-- The command of a sent call is not enqueued a second time. -/
theorem unrun_of_sent {d d' : Desk Req Resp} {l : Label Req Resp} (h : DeskStep L d l d')
    {id : HandleId} {c : ClientCall Req Resp} (hc : d.calls id = some c) (hs : c.phase.Sent) :
    ∀ t ∈ d'.unrun, t.handle = id → ∃ u ∈ d.unrun, u.handle = id := by
  intro t ht hh
  cases h with
  | @accept id' c₀ command waker h hp =>
      rcases mem_unrun.mp ht with ht | ht
      · exact ⟨t, mem_unrun.mpr (.inl ht), hh⟩
      · rcases List.mem_append.mp ht with ht | ht
        · exact ⟨t, mem_unrun.mpr (.inr ht), hh⟩
        · obtain rfl := List.mem_singleton.mp ht
          obtain rfl : id' = id := hh
          rw [h] at hc
          obtain rfl := Option.some.inj hc
          rw [hp] at hs
          exact hs.elim
  | @recvCommand task rest hrun hq =>
      rcases mem_unrun.mp ht with ht | ht
      · obtain rfl := Option.some.inj ht
        exact ⟨task, mem_unrun.mpr (.inr (by simp [hq])), hh⟩
      · exact ⟨t, mem_unrun.mpr (.inr (by rw [hq]; exact List.mem_cons_of_mem _ ht)), hh⟩
  | handleCommand swarm hrun hids hresp =>
      rcases mem_unrun.mp ht with ht | ht
      · cases ht
      · exact ⟨t, mem_unrun.mpr (.inr ht), hh⟩
  | _ => exact ⟨t, ht, hh⟩

/-- Where no response passes, nothing changes. -/
theorem Handed.of_responses_eq {d d' : Desk Req Resp} {l : Label Req Resp} (hh : d.Handed)
    (h : DeskStep L d l d') (hr : d'.responses = d.responses) : d'.Handed := by
  refine ⟨?_, by rw [hr]; exact hh.nodup⟩
  intro channel response hmem
  rw [hr] at hmem
  obtain ⟨id, c, pendingId, hc, htaken, hcall, hs, hrun⟩ := hh.handed channel response hmem
  obtain ⟨phase, hc', hmoves⟩ := h.call hc
  refine ⟨id, _, pendingId, hc', htaken, hcall, hmoves.sent hs, ?_⟩
  intro t ht heq
  obtain ⟨u, hu, huid⟩ := unrun_of_sent h hc hs t ht heq
  exact hrun u hu huid

theorem Handed.step {d d' : Desk Req Resp} {l : Label Req Resp} (hi : d.Inv)
    (ho : d.Origins)
    (honce : ∀ id id' c c' channel, d.calls id = some c → d.calls id' = some c' →
      c.taken = some channel → c'.taken = some channel → id = id')
    (hh : d.Handed) (h : DeskStep L d l d') : d'.Handed := by
  have hstep := h
  cases h with
  | @handleCommand task swarm hrun hids hresp =>
      have hmem : task ∈ d.unrun := mem_unrun.mpr (.inl hrun)
      have hspec := Command.run_spec (hi.unrun task hmem).1 swarm
      have hlog : (task.command.run swarm).swarm.responses =
          d.responses ++ task.command.response?.toList := by
        rw [hspec.called.responses_eq, hresp]
      cases hr : task.command.response? with
      | none =>
          refine hh.of_responses_eq hstep ?_
          simp only
          rw [hlog, hr, Option.toList_none, List.append_nil]
      | some r =>
          obtain ⟨channel, response⟩ := r
          obtain ⟨c, hc, hf⟩ := ho.task task (mem_tasks.mpr (.inl hmem))
          obtain ⟨htaken, pendingId, hcall⟩ := hf.response channel response hr
          obtain ⟨c', hc', hs⟩ := hi.sent task (mem_tasks.mpr (.inl hmem))
          rw [hc] at hc'
          obtain rfl := Option.some.inj hc'
          have hunrun : d.unrun = task :: d.queue := by simp [Desk.unrun, hrun]
          have hn := hi.nodup
          rw [Desk.tasks, hunrun, List.cons_append, List.map_cons, List.nodup_cons] at hn
          have hqueue : ∀ t ∈ d.queue, t.handle ≠ task.handle := by
            intro t ht heq
            exact hn.1 (List.mem_map.mpr ⟨t, List.mem_append_left _ ht, heq⟩)
          rw [hr, Option.toList_some] at hlog
          refine ⟨?_, ?_⟩
          · intro ch resp hin
            simp only at hin
            rw [hlog] at hin
            rcases List.mem_append.mp hin with hin | hin
            · obtain ⟨id, c₁, pendingId₁, hc₁, htaken₁, hcall₁, hs₁, hrun₁⟩ :=
                hh.handed ch resp hin
              refine ⟨id, c₁, pendingId₁, hc₁, htaken₁, hcall₁, hs₁, ?_⟩
              intro t ht
              exact hrun₁ t (mem_unrun.mpr (.inr ht))
            · obtain ⟨rfl, rfl⟩ := Prod.mk.inj (List.mem_singleton.mp hin)
              exact ⟨task.handle, c, pendingId, hc, htaken, hcall, hs, hqueue⟩
          · simp only
            rw [hlog, List.map_append, List.nodup_append]
            refine ⟨hh.nodup, by simp, ?_⟩
            intro ch hin ch' hin' heq
            obtain ⟨⟨ch₁, resp⟩, hpair, rfl⟩ := List.mem_map.mp hin
            obtain rfl : ch' = channel := by simpa using hin'
            obtain ⟨id, c₁, _, hc₁, htaken₁, _, _, hrun₁⟩ := hh.handed ch₁ resp hpair
            have hid := honce id task.handle c₁ c ch' hc₁ hc (heq ▸ htaken₁) htaken
            exact hrun₁ task hmem hid.symm
  | _ => exact hh.of_responses_eq hstep rfl

end Desk

/-! ### Runs -/

/-- What a run with its announcements keeps. -/
structure PairedRun (anns : List (ResponseChannel × Nat)) (n : Node L) : Prop where
  inv : n.desk.Inv
  origins : n.desk.Origins
  paired : Paired anns n
  handed : n.desk.Handed

theorem PairedRun.step {anns : List (ResponseChannel × Nat)} {n m : Node L}
    {l : Label Req Resp} (hp : PairedRun anns n) (h : Step n l m)
    (hn : (anns.map Prod.fst).Nodup)
    (hlen : (anns ++ (announcement? ⟨n, l, m⟩).toList).length ≤ wordSize) :
    PairedRun (anns ++ (announcement? ⟨n, l, m⟩).toList) m :=
  ⟨hp.inv.step h.desk, hp.origins.step hp.inv h.desk, hp.paired.step h hn hlen,
    hp.handed.step hp.inv hp.origins hp.paired.once h.desk⟩

theorem Fresh.pairedRun {config : NodeConfig} {n : Node L} (h : Fresh config n) :
    PairedRun [] n := by
  have hcalls : n.calls = fun _ => none := congrArg Desk.calls h.desk_eq
  have hresp : n.desk.responses = [] := congrArg Desk.responses h.desk_eq
  refine ⟨h.inv, h.origins, ⟨?_, rfl, ?_, ?_, ?_⟩, ⟨?_, ?_⟩⟩
  · rw [h.pendingIdCounter_eq]
    rfl
  · intro pendingId entry he
    rw [h.pendingChannels_eq] at he
    cases he
  · intro id c channel hc
    rw [hcalls] at hc
    cases hc
  · intro id id' c c' channel hc
    rw [hcalls] at hc
    cases hc
  · intro channel response hmem
    rw [hresp] at hmem
    cases hmem
  · rw [hresp]
    exact List.nodup_nil

theorem announcements_snoc (π : List (Transition.Trans (Node L) (Label Req Resp)))
    (x : Transition.Trans (Node L) (Label Req Resp)) :
    announcements (π ++ [x]) = announcements π ++ (announcement? x).toList := by
  rw [announcements, List.filterMap_append]
  cases hx : announcement? x <;> simp [announcements, hx]

theorem requests_snoc (π : List (Transition.Trans (Node L) (Label Req Resp)))
    (x : Transition.Trans (Node L) (Label Req Resp)) :
    requests (π ++ [x]) = requests π ++ x.label.request?.toList := by
  rw [requests, List.filterMap_append]
  cases hx : x.label.request? <;> simp [requests, hx]

/-- Every inbound request is announced. -/
theorem announcements_fst {n m : Node L}
    {π : List (Transition.Trans (Node L) (Label Req Resp))} (h : Run L n π m) :
    (announcements π).map Prod.fst = requests π := by
  induction h with
  | nil => rfl
  | @snoc π a l b hp hs ih =>
      have hlast : (announcement? (⟨a, l, b⟩ : Transition.Trans (Node L) (Label Req Resp))).map
          Prod.fst = l.request? := by
        cases hs.registered with
        | opened id call hl hcounter hmap hfresh hcalls =>
            rw [announcement?_eq_none (by rw [hl]; rfl), hl]
            rfl
        | request channel hl hphase hcounter hmap hcalls =>
            simp [announcement?, hl, hphase]
        | other hl hno hcounter hmap hcalls =>
            rw [announcement?_eq_none hl, hl]
            rfl
      rw [announcements_snoc, requests_snoc, List.map_append, ih, ← hlast]
      cases announcement? (⟨a, l, b⟩ : Transition.Trans (Node L) (Label Req Resp)) <;> rfl

theorem Run.paired {config : NodeConfig} {n m : Node L}
    {π : List (Transition.Trans (Node L) (Label Req Resp))} (hf : Fresh config n)
    (h : Run L n π m) (hn : (requests π).Nodup) (hlen : (requests π).length ≤ wordSize) :
    PairedRun (announcements π) m := by
  induction h with
  | nil => exact hf.pairedRun
  | @snoc π a l b hp hs ih =>
      have hwhole := announcements_fst (hp.snoc hs)
      have hsub : (requests π).Sublist (requests (π ++ [⟨a, l, b⟩])) := by
        rw [requests_snoc]
        exact List.sublist_append_left _ _
      have hprev := ih (hn.sublist hsub) (hsub.length_le.trans hlen)
      rw [announcements_snoc] at hwhole ⊢
      refine hprev.step hs ?_ ?_
      · rw [announcements_fst hp]
        exact hn.sublist hsub
      · rw [← hwhole, List.length_map] at hlen
        exact hlen

/-- Requests are announced under distinct ids at free places of the map; a response that
libp2p gets was passed to `send_response` with the id of its request, once; and of the
calls with one id at most one gets the channel. -/
theorem response_pairing {config : NodeConfig} {n m : Node L}
    {π : List (Transition.Trans (Node L) (Label Req Resp))} (hs : Started L config n)
    (h : Run L n π m) (hn : (requests π).Nodup) (hlen : (requests π).length ≤ 2 ^ 64) :
    (announcements π).map Prod.fst = requests π ∧
      ((announcements π).map Prod.snd).Nodup ∧
      (∀ x ∈ π, ∀ channel pendingId, announcement? x = some (channel, pendingId) →
        x.pre.loop.pendingChannels.get? pendingId = none ∧
          x.post.loop.pendingChannels.get? pendingId = some ⟨channel, x.pre.now⟩) ∧
      (∀ channel response, (channel, response) ∈ m.loop.swarm.responses →
        ∃ pendingId id c, (channel, pendingId) ∈ announcements π ∧ m.calls id = some c ∧
          c.call = .sendResponse pendingId response) ∧
      (m.loop.swarm.responses.map Prod.fst).Nodup ∧
      ∀ id id' c c' pendingId response response', m.calls id = some c →
        m.calls id' = some c' → c.call = .sendResponse pendingId response →
        c'.call = .sendResponse pendingId response' → c.taken.isSome → c'.taken.isSome →
        id = id' := by
  have hp := Run.paired hs.fresh h hn hlen
  have hids : ((announcements π).map Prod.snd).Nodup := by
    rw [hp.paired.ids]
    exact List.nodup_range
  refine ⟨announcements_fst h, hids, ?_, ?_, hp.handed.nodup, ?_⟩
  · intro x hx channel pendingId hann
    obtain ⟨ρ, χ, rfl, hpre, hstep, _⟩ := h.split hx
    have hsub : (requests (ρ ++ [x])).Sublist (requests (ρ ++ [x] ++ χ)) := by
      exact (List.sublist_append_left (ρ ++ [x]) χ).filterMap _
    have hsub' : (requests ρ).Sublist (requests (ρ ++ [x])) := by
      rw [requests_snoc]
      exact List.sublist_append_left _ _
    have hprev := Run.paired hs.fresh hpre (hn.sublist (hsub'.trans hsub))
      ((hsub'.trans hsub).length_le.trans hlen)
    have hlt : (announcements ρ).length < wordSize := by
      have hfst : (announcements (ρ ++ [x])).map Prod.fst = requests (ρ ++ [x]) :=
        announcements_fst (hpre.snoc hstep)
      have hwhole := congrArg List.length hfst
      rw [List.length_map, announcements_snoc, hann] at hwhole
      have hle := hsub.length_le.trans hlen
      simp only [List.length_append, Option.toList_some, List.length_singleton] at hwhole
      unfold wordSize
      omega
    cases hstep.registered with
    | opened id call hl hcounter hmap hfresh hcalls =>
        rw [announcement?_eq_none (by rw [hl]; rfl)] at hann
        cases hann
    | request ch hl hphase hcounter hmap hcalls =>
        have hpair : announcement? x = some (ch, x.pre.loop.pendingIdCounter) := by
          simp [announcement?, hl, hphase]
        rw [hpair] at hann
        obtain ⟨rfl, rfl⟩ := Prod.mk.inj (Option.some.inj hann)
        exact ⟨hprev.paired.next_free hlt, by rw [hmap, PendingMap.get?_insert_self]⟩
    | other hl hno hcounter hmap hcalls =>
        rw [announcement?_eq_none hl] at hann
        cases hann
  · intro channel response hmem
    obtain ⟨id, c, pendingId, hc, htaken, hcall, _⟩ := hp.handed.handed channel response hmem
    obtain ⟨pendingId', response', hcall', hann, _⟩ := hp.paired.taken id c channel hc htaken
    rw [hcall] at hcall'
    obtain ⟨rfl, rfl⟩ := Call.sendResponse.inj hcall'
    exact ⟨pendingId, id, c, hann, hc, hcall⟩
  · intro id id' c c' pendingId response response' hc hc' hcall hcall' ht ht'
    obtain ⟨channel, ht⟩ := Option.isSome_iff_exists.mp ht
    obtain ⟨channel', ht'⟩ := Option.isSome_iff_exists.mp ht'
    obtain ⟨p, r, hp₁, hann, _⟩ := hp.paired.taken id c channel hc ht
    obtain ⟨p', r', hp₂, hann', _⟩ := hp.paired.taken id' c' channel' hc' ht'
    obtain ⟨rfl, rfl⟩ := Call.sendResponse.inj (hcall.symm.trans hp₁)
    obtain ⟨rfl, rfl⟩ := Call.sendResponse.inj (hcall'.symm.trans hp₂)
    have hpair := List.inj_on_of_nodup_map hids hann hann' rfl
    obtain ⟨rfl, _⟩ := Prod.mk.inj hpair
    exact hp.paired.once id id' c c' channel hc hc' ht ht'

/-! ### Two inbound requests -/

namespace Loopback

def requestEvent : SwarmEvent String String :=
  .behaviour (.reqResp (.request peer "request" ⟨7⟩))

def announcing : Node loopback :=
  ((node []).sweep.withSwarmState ({} : State)).handleSwarmEvent [] requestEvent

/-- The node has announced a request. -/
def requested : Node loopback := announcing.pollSend (.inboundRequest peer 0 "request")

def secondEvent : SwarmEvent String String :=
  .behaviour (.reqResp (.request peer "second" ⟨8⟩))

def announcingSecond : Node loopback :=
  (requested.sweep.withSwarmState ({} : State)).handleSwarmEvent [] secondEvent

def requestedTwice : Node loopback := announcingSecond.pollSend (.inboundRequest peer 1 "second")

def respondOpened : Node loopback := requestedTwice.openCall 0 (.sendResponse 0 "response")

def respondTask : Task String String := ⟨.sendResponse (.new ⟨7⟩ "response"), 0⟩

def respondQueued : Node loopback :=
  respondOpened.firstPoll 0 ⟨.sendResponse 0 "response", some ⟨7⟩, .created respondTask.command⟩
    respondTask.command 0

def respondReceived : Node loopback :=
  { respondQueued.sweep with
    loop := { respondQueued.sweep.loop with commandRx := .new _ }
    phase := .running respondTask }

def responded : Node loopback := respondReceived.handleCommand respondTask

def requestSteps : List (Transition.Trans (Node loopback) (Label String String)) :=
  [⟨node [], .sweep, (node []).sweep⟩, ⟨(node []).sweep, .swarmEvent requestEvent, announcing⟩,
    ⟨announcing, .beginSend, requested⟩]

/-- Two requests are announced, and the first one is answered. -/
def respondSteps : List (Transition.Trans (Node loopback) (Label String String)) :=
  requestSteps ++
    [⟨requested, .sweep, requested.sweep⟩,
      ⟨requested.sweep, .swarmEvent secondEvent, announcingSecond⟩,
      ⟨announcingSecond, .beginSend, requestedTwice⟩,
      ⟨requestedTwice, .openCall 0 (.sendResponse 0 "response"), respondOpened⟩,
      ⟨respondOpened, .firstPoll 0 0, respondQueued⟩,
      ⟨respondQueued, .sweep, respondQueued.sweep⟩,
      ⟨respondQueued.sweep, .recvCommand, respondReceived⟩,
      ⟨respondReceived, .handleCommand, responded⟩]

theorem requestSteps_run : Run loopback (node []) requestSteps requested := by
  have hevent : Step (node []).sweep (.swarmEvent requestEvent) announcing :=
    .swarmEvent rfl rfl ⟨List.nodup_nil, fun _ => .rfl⟩
  exact ((Transition.Path.single (.sweep rfl)).snoc hevent).snoc (.beginSend rfl)

theorem requested_reachable : Reachable loopback (config []) requested :=
  (reachable []).path requestSteps_run

theorem respondSteps_run : Run loopback (node []) respondSteps responded := by
  have hevent : Step requested.sweep (.swarmEvent secondEvent) announcingSecond :=
    .swarmEvent rfl rfl ⟨List.nodup_nil, fun _ => .rfl⟩
  exact (((((((requestSteps_run.snoc (.sweep rfl)).snoc hevent).snoc (.beginSend rfl)).snoc
    (.openCall (.sendResponse 0 "response") (by decide) rfl)).snoc (.firstPoll 0 rfl rfl)).snoc
    (.sweep rfl)).snoc (.recvCommand rfl rfl)).snoc (.handleCommand rfl)

theorem respondSteps_requests :
    (requests respondSteps).Nodup ∧ (requests respondSteps).length ≤ 2 ^ 64 :=
  ⟨by decide, by decide⟩

end Loopback

open Loopback in
/-- The response goes to the request under whose id it was passed. -/
theorem response_pairing_responded :
    announcements respondSteps = [(⟨7⟩, 0), (⟨8⟩, 1)] ∧
      responded.loop.swarm.responses = [(⟨7⟩, "response")] ∧
      ((announcements respondSteps).map Prod.snd).Nodup ∧
      ∃ pendingId id c, (⟨7⟩, pendingId) ∈ announcements respondSteps ∧
        responded.calls id = some c ∧ c.call = .sendResponse pendingId "response" := by
  obtain ⟨_, hids, _, hresponses, _⟩ := response_pairing (started []) respondSteps_run
    respondSteps_requests.1 respondSteps_requests.2
  exact ⟨rfl, rfl, hids, hresponses ⟨7⟩ "response" (List.mem_singleton_self _)⟩

end SwarmP2p
