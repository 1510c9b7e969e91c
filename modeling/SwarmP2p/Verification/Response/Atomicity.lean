import SwarmP2p.Verification.Call.Enqueue
import SwarmP2p.Verification.Response.Pairing

/-! # Failed responses

`send_response` takes the channel out of the pending map before it knows whether its
command will be accepted. A call that finds no channel leaves the map alone; a call that
is refused has lost the channel. -/

namespace SwarmP2p

variable {Req Resp : Type} {L : Libp2p Req Resp}

/-- The call to which a step belongs. -/
def Label.callId? : Label Req Resp → Option HandleId
  | .openCall id _ | .firstPoll id _ | .handlePoll id | .pollAgain id _ | .dropCall id => some id
  | _ => none

/-- The call returned an error without its command having been accepted. -/
def CallPhase.FailedUnsent : CallPhase Req Resp → Prop
  | .refused _ | .failed _ => True
  | _ => False

/-- A call of `send_response`. -/
def ClientCall.IsResponse (c : ClientCall Req Resp) : Prop :=
  ∃ pendingId response, c.call = .sendResponse pendingId response

/-- Calls of `send_response` that fail unsent leave the pending map as it was, and no
channel is dropped with a refused command. -/
structure AtomicResponses (π : List (Transition.Trans (Node L) (Label Req Resp))) : Prop where
  map_unchanged : ∀ x ∈ π, ∀ y ∈ π, ∀ id c, x.label.callId? = some id →
    y.post.calls id = some c → c.IsResponse → c.phase.FailedUnsent →
      x.post.loop.pendingChannels = x.pre.loop.pendingChannels
  channel_kept : ∀ y ∈ π, ∀ id c command, y.post.calls id = some c → c.IsResponse →
    c.phase = .refused command → command.response? = none

/-- The command queue accepts at the first poll of a response. -/
def Node.RoomToRespond (n : Node L) : Label Req Resp → Prop
  | .firstPoll id _ =>
      (∃ c, n.calls id = some c ∧ c.IsResponse) → n.loop.commandRx.Accepts
  | _ => True

/-! ### What a call takes -/

theorem Call.take_of_none {call : Call Req Resp} {m : PendingMap Nat ResponseChannel}
    (h : (call.take m).1 = none) : (call.take m).2 = m := by
  cases call with
  | sendResponse pendingId response =>
      have hget : m.get? pendingId = none := Option.map_eq_none_iff.mp h
      exact congrArg Prod.snd (PendingMap.take_of_none hget)
  | _ => rfl

theorem ClientCall.IsResponse.response?_ne {c : ClientCall Req Resp} (h : c.IsResponse)
    {command : Command Req Resp} (hc : c.call.command c.taken = some command) :
    command.response? ≠ none := by
  obtain ⟨pendingId, response, hcall⟩ := h
  rw [hcall] at hc
  obtain ⟨channel, _, rfl⟩ := Option.map_eq_some_iff.mp hc
  simp [Command.response?, SendResponseCommand.new]

theorem ClientCall.IsResponse.taken_eq_none {c : ClientCall Req Resp} (h : c.IsResponse)
    (hc : c.call.command c.taken = none) : c.taken = none := by
  obtain ⟨pendingId, response, hcall⟩ := h
  rw [hcall] at hc
  exact Option.map_eq_none_iff.mp hc

/-- The steps of a call touch the map only when the method takes a channel. -/
theorem Step.pendingChannels_of_call {n m : Node L} {l : Label Req Resp} (h : Step n l m)
    {id : HandleId} (hl : l.callId? = some id)
    (htaken : ∀ c, n.calls id = none → m.calls id = some c → c.taken = none) :
    m.loop.pendingChannels = n.loop.pendingChannels := by
  cases h with
  | openCall call hc h =>
      obtain rfl := Option.some.inj hl
      exact Call.take_of_none (htaken _ h (Function.update_self ..))
  | firstPoll waker h hp => exact n.firstPoll_pendingChannels _ _ _ _
  | handlePoll h hp => rfl
  | pollAgain waker h hp => rfl
  | dropCall h hp => rfl
  | _ => cases hl

/-! ### Refused responses -/

/-- No response is refused. -/
def Node.NoneRefused (n : Node L) : Prop :=
  ∀ id c command, n.calls id = some c → c.IsResponse → c.phase ≠ .refused command

theorem Node.NoneRefused.update {n m : Node L} (hn : n.NoneRefused) {id : HandleId}
    {c : ClientCall Req Resp} (hcalls : m.calls = Function.update n.calls id (some c))
    (hc : c.IsResponse → ∀ command, c.phase ≠ .refused command) : m.NoneRefused := by
  intro id' c' command hc' hr
  rcases call_of_update hcalls hc' with ⟨rfl, rfl⟩ | ⟨_, hc'⟩
  · exact hc hr command
  · exact hn id' c' command hc' hr

theorem Node.NoneRefused.step {n m : Node L} {l : Label Req Resp} (hn : n.NoneRefused)
    (h : Step n l m) (hc : n.RoomToRespond l) : m.NoneRefused := by
  cases h with
  | openCall call hcl h =>
      exact hn.update rfl fun _ command => Call.opened_ne_refused _ _ command
  | @firstPoll id c command waker h hp =>
      by_cases ha : n.loop.commandRx.Accepts
      · rw [n.firstPoll_of_accepts id c command waker ha]
        exact hn.update rfl fun _ => by simp
      · rw [n.firstPoll_of_not_accepts id c command waker ha]
        exact hn.update rfl fun hr => absurd (hc ⟨c, h, hr⟩) ha
  | handlePoll h hp =>
      refine hn.update rfl fun _ command => ?_
      dsimp only
      split <;> simp
  | pollAgain waker h hp => exact hn.update rfl fun _ => by simp
  | dropCall h hp => exact hn.update rfl fun _ => by simp
  | swarmEvent hp h ho =>
      intro id c command hcalls
      simp only [Node.handleSwarmEvent] at hcalls
      split at hcalls <;> exact hn id c command hcalls
  | beginSend hp =>
      intro id c command hcalls
      rw [(n.pollSend_loop _).2.2.1] at hcalls
      exact hn id c command hcalls
  | resumeSend hp h =>
      intro id c command hcalls
      rw [(n.pollSend_loop _).2.2.1] at hcalls
      exact hn id c command hcalls
  | _ => exact hn

/-- A step outside the condition drops a channel with the command. -/
theorem Step.drops_channel {n m : Node L} {l : Label Req Resp} (h : Step n l m)
    (ho : n.desk.Origins) (hc : ¬n.RoomToRespond l) :
    ∃ id c command, m.calls id = some c ∧ c.IsResponse ∧ c.phase = .refused command ∧
      command.response? ≠ none := by
  cases h with
  | @firstPoll id c command waker h hp =>
      obtain ⟨⟨c', hc', hr⟩, ha⟩ := Classical.not_imp.mp hc
      obtain rfl : c' = c := Option.some.inj (hc'.symm.trans h)
      rw [n.firstPoll_of_not_accepts id c' command waker ha]
      exact ⟨id, _, command, Function.update_self .., hr, rfl,
        hr.response?_ne (ho.unsent id c' command h (.inl hp))⟩
  | _ => exact absurd trivial hc

/-- A call that failed unsent, in a run without refused responses, took nothing. -/
theorem Node.NoneRefused.taken_eq_none {n : Node L} (hn : n.NoneRefused)
    (ho : n.desk.Origins) {id : HandleId} {c : ClientCall Req Resp} (h : n.calls id = some c)
    (hr : c.IsResponse) (hf : c.phase.FailedUnsent) : c.taken = none := by
  cases hp : c.phase with
  | refused command => exact absurd hp (hn id c command h hr)
  | failed error => exact hr.taken_eq_none (ho.failed id c error h hp)
  | _ => rw [hp] at hf; exact hf.elim

/-- Calls that fail unsent leave the pending map alone and lose no channel, exactly as long as
the command queue accepts at the first poll of every response. -/
theorem response_atomicity_iff {config : NodeConfig} {n m : Node L}
    {π : List (Transition.Trans (Node L) (Label Req Resp))} (hs : Started L config n)
    (h : Run L n π m) :
    AtomicResponses π ↔ ∀ x ∈ π, x.pre.RoomToRespond x.label := by
  have hreach : ∀ x ∈ π, Reachable L config x.pre ∧ Step x.pre x.label x.post := by
    intro x hx
    obtain ⟨ρ, hp, hstep⟩ := h.mem x hx
    exact ⟨⟨n, ρ, hs, hp⟩, hstep⟩
  constructor
  · intro hatomic x hx
    obtain ⟨hpre, hstep⟩ := hreach x hx
    by_contra hroom
    obtain ⟨id, c, command, hc, hr, hp, hne⟩ :=
      hstep.drops_channel (Reachable.origins hpre) hroom
    exact hne (hatomic.channel_kept x hx id c command hc hr hp)
  · intro hroom
    have hnone : ∀ x ∈ π, x.post.NoneRefused :=
      (Transition.Path.safe_of_meets (I := fun _ => True) (P := fun n : Node L => n.NoneRefused)
        (C := fun n l => n.RoomToRespond l) (fun _ _ _ _ _ => trivial)
        (fun _ _ _ _ hn hs hc => hn.step hs hc) h trivial (fun id c command hc => by
          have hcalls : n.calls = fun _ => none := congrArg Desk.calls hs.fresh.desk_eq
          rw [hcalls] at hc
          cases hc) hroom).2
    refine ⟨?_, fun y hy id c command hc hr hp => absurd hp (hnone y hy id c command hc hr)⟩
    intro x hx y hy id c hl hc hr hf
    obtain ⟨hpre, hstep⟩ := hreach x hx
    obtain ⟨hprey, hstepy⟩ := hreach y hy
    have htaken := (hnone y hy).taken_eq_none (Reachable.origins (hprey.next hstepy))
      hc hr hf
    refine hstep.pendingChannels_of_call hl fun c' hfresh hc' => ?_
    -- The call opened at `x` is the call that has failed at `y`.
    rcases h.order hx hy with ⟨χ, hp⟩ | ⟨χ, hp⟩
    · obtain ⟨c'', hc'', _, ht⟩ := Run.sameCalls hp id c' hc'
      have hcc : c'' = c := Option.some.inj (hc''.symm.trans hc)
      rw [← ht, hcc, htaken]
    · obtain ⟨c'', hc'', _⟩ := Run.sameCalls hp id c hc
      have hcalls : x.pre.calls id = some c'' := hc''
      rw [hfresh] at hcalls
      cases hcalls

open Loopback in
/-- The command of the response finds room in the queue. -/
theorem response_atomicity_iff_responded :
    respondQueued.loop.commandRx.queue = [respondTask] ∧ AtomicResponses respondSteps := by
  refine ⟨rfl, (response_atomicity_iff (started []) respondSteps_run).mpr ?_⟩
  have hpoll : respondOpened.RoomToRespond (.firstPoll 0 0) := fun _ => ⟨rfl, by decide⟩
  simp only [respondSteps, requestSteps, List.cons_append, List.nil_append, List.forall_mem_cons]
  exact ⟨trivial, trivial, trivial, trivial, trivial, trivial, trivial, hpoll, trivial, trivial,
    trivial, by simp⟩

/-- A response on a full queue takes the channel out of the map and loses it. -/
theorem Node.loses_channel {config : NodeConfig} {n : Node L} (h : Reachable L config n)
    (hfull : ¬n.loop.commandRx.Accepts) (hc : 0 < n.clients) {id : HandleId}
    (hid : n.calls id = none) {pendingId : Nat} {entry : PendingEntry ResponseChannel}
    (hget : n.loop.pendingChannels.get? pendingId = some entry) (response : Resp) :
    ∃ s π m, Started L config s ∧ Run L s π m ∧ ¬AtomicResponses π ∧
      m.loop.pendingChannels.get? pendingId = none ∧ m.phase = n.phase := by
  obtain ⟨s, π, hs, hp⟩ := h
  have hopen : Step n (.openCall id (.sendResponse pendingId response))
      (n.openCall id (.sendResponse pendingId response)) := .openCall _ hc hid
  have htaken : (n.loop.pendingChannels.take pendingId).1 = some entry.value := by
    simp [PendingMap.take, hget]
  have hcall : (n.openCall id (.sendResponse pendingId response)).calls id =
      some ⟨.sendResponse pendingId response, some entry.value,
        .created (.sendResponse (.new entry.value response))⟩ := by
    have hnew : (n.openCall id (.sendResponse pendingId response)).calls id =
        some ((Call.sendResponse pendingId response).opened
          (n.loop.pendingChannels.take pendingId).1) := Function.update_self ..
    rw [hnew, htaken]
    rfl
  have hpoll : Step (n.openCall id (.sendResponse pendingId response)) (.firstPoll id 0) _ :=
    .firstPoll 0 hcall rfl
  have hreach : Reachable L config (n.openCall id (.sendResponse pendingId response)) :=
    ⟨s, _, hs, hp.snoc hopen⟩
  have hroom : ¬(n.openCall id (.sendResponse pendingId response)).RoomToRespond
      (.firstPoll id 0) := fun hr => hfull (hr ⟨_, hcall, pendingId, response, rfl⟩)
  refine ⟨s, _, _, hs, (hp.snoc hopen).snoc hpoll, ?_, ?_, ?_⟩
  · intro hatomic
    obtain ⟨id', c, command, hc', hr, hp', hne⟩ :=
      hpoll.drops_channel (Reachable.origins hreach) hroom
    exact hne (hatomic.channel_kept _ (List.mem_append_right _ (List.mem_singleton.mpr rfl))
      id' c command hc' hr hp')
  · rw [Node.firstPoll_pendingChannels]
    exact PendingMap.get?_remove_self _ _
  · exact Node.firstPoll_phase _ _ _ _ _

/-- One request is pending and all places of the queue are taken. -/
theorem refused_response_loses_channel :
    ∃ s π m, Started loopback (Loopback.config []) s ∧ Run loopback s π m ∧
      ¬AtomicResponses π ∧ m.loop.pendingChannels.get? 0 = none ∧ m.phase = .top := by
  have hspec := Loopback.fill_queue (n := Loopback.requested) rfl (le_refl commandChannelSize)
  obtain ⟨hclients, hcalls⟩ := Loopback.fill_spec (n := Loopback.requested) rfl (fun _ => rfl)
    commandChannelSize
  have hget : (Loopback.fill Loopback.requested commandChannelSize).loop.pendingChannels.get? 0 =
      some ⟨⟨7⟩, 0⟩ := by
    rw [hspec.2.2.1]
    rfl
  obtain ⟨s, π, m, hs, hp, hatomic, hlost, hphase⟩ := Node.loses_channel
    (Loopback.fill_reachable Loopback.requested_reachable rfl (fun _ => rfl) _)
    (Loopback.fill_not_accepts rfl) (by omega) (hcalls _ (le_refl _)) hget "response"
  exact ⟨s, π, m, hs, hp, hatomic, hlost, hphase.trans hspec.2.2.2⟩

end SwarmP2p
