import SwarmP2p.Verification.Call.Order
import SwarmP2p.Verification.PendingMap.Ledger
import SwarmP2p.Verification.Response.Pairing

/-! # The account of an inbound request

A request waits in the pending map until a call of `send_response` takes its channel or its
time is up, and only one of the two happens. What was taken goes to libp2p when the command
of that call is run. -/

namespace SwarmP2p

variable {Req Resp : Type} {L : Libp2p Req Resp}

/-! ### What happens to a request -/

/-- The entry that an inbound request makes, under its id. -/
def arrival? (x : Transition.Trans (Node L) (Label Req Resp)) :
    Option (Nat × PendingEntry ResponseChannel) :=
  x.label.request?.map fun channel => (x.pre.loop.pendingIdCounter, ⟨channel, x.pre.now⟩)

def arrivals (π : List (Transition.Trans (Node L) (Label Req Resp))) :
    List (Nat × PendingEntry ResponseChannel) :=
  π.filterMap arrival?

/-- Something is stored under the id. -/
def Node.waits (pendingId : Nat) (n : Node L) : Bool :=
  (n.loop.pendingChannels.get? pendingId).isSome

def arrives (pendingId : Nat) (x : Transition.Trans (Node L) (Label Req Resp)) : Bool :=
  (arrival? x).any fun a => decide (a.1 = pendingId)

/-- The call is one of `send_response` with the id. -/
def Call.respondsTo (pendingId : Nat) : Call Req Resp → Bool
  | .sendResponse key _ => decide (key = pendingId)
  | _ => false

/-- A call takes what is stored under the id. -/
def takes (pendingId : Nat) (x : Transition.Trans (Node L) (Label Req Resp)) : Bool :=
  match x.label with
  | .openCall _ call => call.respondsTo pendingId && x.pre.waits pendingId
  | _ => false

/-- A purge removes what is stored under the id. -/
def expires (pendingId : Nat) (x : Transition.Trans (Node L) (Label Req Resp)) : Bool :=
  match x.label with
  | .purge => x.pre.waits pendingId && !x.post.waits pendingId
  | _ => false

/-! ### Steps -/

/-- What a step does to the pending map. -/
inductive MapMoved (n m : Node L) : Label Req Resp → Prop where
  | opened (id call) (hmap : m.loop.pendingChannels = (call.take n.loop.pendingChannels).2)
      (hcalls : m.calls id = some (call.opened (call.take n.loop.pendingChannels).1)) :
      MapMoved n m (.openCall id call)
  | request {l} (channel) (hl : l.request? = some channel)
      (hmap : m.loop.pendingChannels =
        n.loop.pendingChannels.insert n.now n.loop.pendingIdCounter channel) : MapMoved n m l
  | purge (hmap : m.loop.pendingChannels = (n.loop.pendingChannels.purgeExpired n.now).1) :
      MapMoved n m .purge
  | same {l} (hl : l.request? = none) (hcall : ∀ id call, l ≠ .openCall id call)
      (hpurge : l ≠ .purge) (hmap : m.loop.pendingChannels = n.loop.pendingChannels) :
      MapMoved n m l

theorem Step.mapMoved {n m : Node L} {l : Label Req Resp} (h : Step n l m) :
    MapMoved n m l := by
  cases h with
  | openCall call hc h => exact .opened _ call rfl (Function.update_self ..)
  | @firstPoll id c command waker h hp =>
      exact .same rfl (by simp) (by simp) (n.firstPoll_pendingChannels id c command waker)
  | @handleCommand task hp =>
      exact .same rfl (by simp) (by simp) (n.handleCommand_kept task).2.2.1
  | @swarmEvent event state order hp h ho =>
      cases hr : event.isRequest with
      | false =>
          exact .same (Label.request?_eq_none hr) (by simp) (by simp)
            ((n.withSwarmState state).handleSwarmEvent_pending order hr).2.1
      | true =>
          obtain ⟨peer, request, channel, rfl⟩ := EventLoop.isRequest_eq_true hr
          exact .request channel rfl ((n.withSwarmState state).handleSwarmEvent_request order
            peer request channel).2.1
  | beginSend hp => exact .same rfl (by simp) (by simp) (n.pollSend_pending _).2
  | resumeSend hp h => exact .same rfl (by simp) (by simp) (n.pollSend_pending _).2
  | purge => exact .purge rfl
  | _ => exact .same rfl (by simp) (by simp) rfl

theorem takes_eq_false {n m : Node L} {l : Label Req Resp} {pendingId : Nat}
    (hcall : ∀ id call, l ≠ .openCall id call) :
    takes pendingId (⟨n, l, m⟩ : Transition.Trans (Node L) (Label Req Resp)) = false := by
  unfold takes
  split
  · exact absurd (by assumption) (hcall _ _)
  · rfl

theorem expires_eq_false {n m : Node L} {l : Label Req Resp} {pendingId : Nat}
    (hl : l ≠ .purge) :
    expires pendingId (⟨n, l, m⟩ : Transition.Trans (Node L) (Label Req Resp)) = false := by
  unfold expires
  split
  · exact absurd (by assumption) hl
  · rfl

theorem arrives_eq_false {n m : Node L} {l : Label Req Resp} {pendingId : Nat}
    (hl : l.request? = none) :
    arrives pendingId (⟨n, l, m⟩ : Transition.Trans (Node L) (Label Req Resp)) = false := by
  simp [arrives, arrival?, hl]

theorem Call.waits_take (call : Call Req Resp) (map : PendingMap Nat ResponseChannel)
    (pendingId : Nat) :
    ((call.take map).2.get? pendingId).isSome.toNat +
        (call.respondsTo pendingId && (map.get? pendingId).isSome).toNat =
      (map.get? pendingId).isSome.toNat := by
  cases call with
  | sendResponse key response =>
      by_cases hkey : key = pendingId
      · subst hkey
        simp [take, PendingMap.take, respondsTo]
      · have hne : pendingId ≠ key := fun h => hkey h.symm
        simp [take, PendingMap.take, PendingMap.get?_remove_of_ne _ hne, respondsTo, hkey]
  | _ => simp [take, respondsTo]

/-- A request that arrives waits, and one that waits no more was taken or has expired. -/
theorem Step.account {n m : Node L} {l : Label Req Resp} (h : Step n l m) (pendingId : Nat)
    (hfree : l.request? ≠ none →
      n.loop.pendingChannels.get? n.loop.pendingIdCounter = none) :
    (m.waits pendingId).toNat + (takes pendingId ⟨n, l, m⟩).toNat +
        (expires pendingId ⟨n, l, m⟩).toNat =
      (n.waits pendingId).toNat + (arrives pendingId ⟨n, l, m⟩).toNat := by
  cases h.mapMoved with
  | opened id call hmap hcalls =>
      have htake := call.waits_take n.loop.pendingChannels pendingId
      rw [expires_eq_false (by simp), arrives_eq_false rfl, Node.waits, hmap]
      simpa [takes, Node.waits] using htake
  | request channel hl hmap =>
      rw [takes_eq_false (fun id call he => by rw [he] at hl; cases hl),
        expires_eq_false (fun he => by rw [he] at hl; cases hl)]
      by_cases hid : pendingId = n.loop.pendingIdCounter
      · subst hid
        have hempty := hfree (by simp [hl])
        simp [Node.waits, hmap, hempty, arrives, arrival?, hl]
      · have hne : n.loop.pendingIdCounter ≠ pendingId := fun h => hid h.symm
        simp [Node.waits, hmap, PendingMap.get?_insert_of_ne _ _ _ hid, arrives, arrival?, hl, hne]
  | purge hmap =>
      rw [takes_eq_false (by simp), arrives_eq_false rfl]
      have hkept : m.waits pendingId = true → n.waits pendingId = true := by
        intro hm
        obtain ⟨entry, he⟩ := Option.isSome_iff_exists.mp hm
        rw [hmap] at he
        exact Option.isSome_iff_exists.mpr ⟨entry, PendingMap.get?_retain_of_some he⟩
      cases hm : m.waits pendingId with
      | true => simp [expires, hm, hkept hm]
      | false => cases hn : n.waits pendingId <;> simp [expires, hm, hn]
  | same hl hcall hpurge hmap =>
      rw [takes_eq_false hcall, expires_eq_false hpurge, arrives_eq_false hl, Node.waits, hmap,
        Node.waits]
      rfl

/-- A call with the id takes what is stored under it. -/
theorem Step.taken {n m : Node L} {l : Label Req Resp} (h : Step n l m) {pendingId : Nat}
    (ht : takes pendingId ⟨n, l, m⟩ = true) :
    ∃ id response c entry, l = .openCall id (.sendResponse pendingId response) ∧
      n.loop.pendingChannels.get? pendingId = some entry ∧ m.calls id = some c ∧
      c.taken = some entry.value := by
  cases h.mapMoved with
  | opened id call hmap hcalls =>
      obtain ⟨hresponds, hwaits⟩ := Bool.and_eq_true_iff.mp ht
      obtain ⟨entry, he⟩ := Option.isSome_iff_exists.mp hwaits
      cases call with
      | sendResponse key response =>
          obtain rfl := of_decide_eq_true hresponds
          refine ⟨id, response, _, entry, rfl, he, hcalls, ?_⟩
          show (n.loop.pendingChannels.get? key).map PendingEntry.value = _
          rw [he, Option.map_some]
      | _ => cases hresponds
  | request channel hl =>
      rw [takes_eq_false fun id call he => by rw [he] at hl; cases hl] at ht
      cases ht
  | purge => cases ht
  | same _ hcall =>
      rw [takes_eq_false hcall] at ht
      cases ht

/-- A purge removes what is as old as the time to live. -/
theorem Step.expired {n m : Node L} {l : Label Req Resp} (h : Step n l m) {pendingId : Nat}
    (hx : expires pendingId ⟨n, l, m⟩ = true) :
    ∃ entry, n.loop.pendingChannels.get? pendingId = some entry ∧
      n.loop.pendingChannels.ttl ≤ n.now - entry.createdAt := by
  cases h.mapMoved with
  | purge hmap =>
      obtain ⟨hbefore, hafter⟩ := Bool.and_eq_true_iff.mp hx
      obtain ⟨entry, he⟩ := Option.isSome_iff_exists.mp hbefore
      refine ⟨entry, he, ?_⟩
      have hgone : m.loop.pendingChannels.get? pendingId = none := by
        simpa [Node.waits] using hafter
      rw [hmap] at hgone
      have hmem := (PendingMap.get?_eq_some_iff _ _ _).mp he
      have hold := (PendingMap.get?_retain_eq_none (e := (pendingId, entry)) hmem).mp hgone
      exact Nat.not_lt.mp (of_decide_eq_false hold)
  | opened => cases hx
  | request channel hl =>
      rw [expires_eq_false fun he => by rw [he] at hl; cases hl] at hx
      cases hx
  | same _ _ hpurge =>
      rw [expires_eq_false hpurge] at hx
      cases hx

/-- What is stored arrived, and is as old as it is. -/
structure Stored (ttl : Nat) (arrived : List (Nat × PendingEntry ResponseChannel))
    (n : Node L) : Prop where
  ttl_eq : n.loop.pendingChannels.ttl = ttl
  stored : ∀ pendingId entry, n.loop.pendingChannels.get? pendingId = some entry →
    (pendingId, entry) ∈ arrived

theorem Call.take_ttl (call : Call Req Resp) (map : PendingMap Nat ResponseChannel) :
    (call.take map).2.ttl = map.ttl := by
  cases call <;> rfl

theorem Stored.step {ttl : Nat} {arrived : List (Nat × PendingEntry ResponseChannel)}
    {n m : Node L} {l : Label Req Resp} (hst : Stored ttl arrived n) (h : Step n l m) :
    Stored ttl (arrived ++ (arrival? ⟨n, l, m⟩).toList) m := by
  cases h.mapMoved with
  | opened id call hmap hcalls =>
      refine ⟨hmap ▸ (call.take_ttl _).trans hst.ttl_eq, fun pendingId entry he => ?_⟩
      rw [hmap] at he
      exact List.mem_append_left _ (hst.stored _ _ (Call.get?_take he))
  | request channel hl hmap =>
      refine ⟨hmap ▸ hst.ttl_eq, fun pendingId entry he => ?_⟩
      by_cases hid : pendingId = n.loop.pendingIdCounter
      · subst hid
        rw [hmap, PendingMap.get?_insert_self] at he
        obtain rfl := Option.some.inj he
        simp [arrival?, hl]
      · rw [hmap, PendingMap.get?_insert_of_ne _ _ _ hid] at he
        exact List.mem_append_left _ (hst.stored _ _ he)
  | purge hmap =>
      refine ⟨hmap ▸ hst.ttl_eq, fun pendingId entry he => ?_⟩
      rw [hmap] at he
      exact List.mem_append_left _ (hst.stored _ _ (PendingMap.get?_retain_of_some he))
  | same hl hcall hpurge hmap =>
      refine ⟨hmap ▸ hst.ttl_eq, fun pendingId entry he => ?_⟩
      rw [hmap] at he
      exact List.mem_append_left _ (hst.stored _ _ he)

/-! ### Runs -/

theorem arrivals_snoc (π : List (Transition.Trans (Node L) (Label Req Resp)))
    (x : Transition.Trans (Node L) (Label Req Resp)) :
    arrivals (π ++ [x]) = arrivals π ++ (arrival? x).toList := by
  rw [arrivals, List.filterMap_append]
  cases hx : arrival? x <;> simp [arrivals, hx]

/-- The id of a request is the one under which it is announced. -/
theorem arrivals_fst {n m : Node L}
    {π : List (Transition.Trans (Node L) (Label Req Resp))} (h : Run L n π m) :
    (arrivals π).map Prod.fst = (announcements π).map Prod.snd := by
  induction h with
  | nil => rfl
  | @snoc π a l b hp hs ih =>
      have hlast : (arrival? (⟨a, l, b⟩ : Transition.Trans (Node L) (Label Req Resp))).map
          Prod.fst = (announcement? ⟨a, l, b⟩).map Prod.snd := by
        cases hs.registered with
        | opened id call hl => simp [arrival?, announcement?, hl, Label.request?]
        | request channel hl hphase => simp [arrival?, announcement?, hl, hphase]
        | other hl => simp [arrival?, announcement?, hl]
      rw [arrivals_snoc, announcements_snoc, List.map_append, List.map_append, ih,
        ← Option.toList_map, ← Option.toList_map, hlast]

theorem countP_arrives (pendingId : Nat)
    (π : List (Transition.Trans (Node L) (Label Req Resp))) :
    π.countP (arrives pendingId) = ((arrivals π).map Prod.fst).count pendingId := by
  rw [List.count, List.countP_map, arrivals, List.countP_filterMap]
  refine List.countP_congr fun x _ => ?_
  unfold arrives
  cases arrival? x <;> simp

theorem countP_snoc {α : Type*} (p : α → Bool) (π : List α) (x : α) :
    (π ++ [x]).countP p = π.countP p + (p x).toNat := by
  rw [List.countP_append, List.countP_singleton]
  cases p x <;> rfl

theorem Run.account {config : NodeConfig} {n m : Node L}
    {π : List (Transition.Trans (Node L) (Label Req Resp))} (hf : Fresh config n)
    (h : Run L n π m) (hn : (requests π).Nodup) (hlen : (requests π).length ≤ wordSize)
    (pendingId : Nat) :
    (m.waits pendingId).toNat + π.countP (takes pendingId) + π.countP (expires pendingId) =
      π.countP (arrives pendingId) := by
  induction h with
  | nil => simp [Node.waits, hf.pendingChannels_eq, PendingMap.new, PendingMap.get?]
  | @snoc π a l b hp hs ih =>
      have hsub : (requests π).Sublist (requests (π ++ [⟨a, l, b⟩])) := by
        rw [requests_snoc]
        exact List.sublist_append_left _ _
      have hpaired := Run.paired hf hp (hn.sublist hsub) (hsub.length_le.trans hlen)
      have hstep := hs.account pendingId fun hr => by
        apply hpaired.paired.next_free
        obtain ⟨channel, hchannel⟩ := Option.ne_none_iff_exists'.mp hr
        rw [← List.length_map (f := Prod.fst), announcements_fst hp]
        rw [requests_snoc, hchannel, List.length_append] at hlen
        exact hlen
      have hbefore := ih (hn.sublist hsub) (hsub.length_le.trans hlen)
      simp only [countP_snoc]
      omega

theorem Run.stored {config : NodeConfig} {n m : Node L}
    {π : List (Transition.Trans (Node L) (Label Req Resp))} (hf : Fresh config n)
    (h : Run L n π m) : Stored config.reqRespTimeout (arrivals π) m := by
  induction h with
  | nil =>
      refine ⟨by rw [hf.pendingChannels_eq, PendingMap.new], fun pendingId entry he => ?_⟩
      rw [hf.pendingChannels_eq] at he
      cases he
  | @snoc π a l b hp hs ih =>
      rw [arrivals_snoc]
      exact ih.step hs

/-! ### What libp2p gets -/

theorem DeskStep.responses_eq {d d' : Desk Req Resp} {l : Label Req Resp} (hi : d.Inv)
    (h : DeskStep L d l d') :
    d'.responses = d.responses ++
      ((d.executed? l).toList.filterMap fun t => t.command.response?) := by
  cases h with
  | idle hl => cases l <;> first | exact hl.elim | simp [Desk.executed?]
  | @handleCommand task swarm hrun hids hresp =>
      have hspec := Command.run_spec (hi.unrun task (Desk.mem_unrun.mpr (.inl hrun))).1 swarm
      have hlog : (task.command.run swarm).swarm.responses =
          d.responses ++ task.command.response?.toList := by
        rw [hspec.called.responses_eq, hresp]
      simp only [Desk.executed?, hrun, Option.toList_some, hlog]
      cases hr : task.command.response? <;> simp [hr]
  | _ => simp [Desk.executed?, Desk.setPhase]

/-- Libp2p gets the responses of the commands that were run, in their order. -/
theorem Run.responses_eq {config : NodeConfig} {n m : Node L}
    {π : List (Transition.Trans (Node L) (Label Req Resp))} (hs : Started L config n)
    (h : Run L n π m) :
    m.loop.swarm.responses = (executed π).filterMap fun t => t.command.response? := by
  induction h with
  | nil => exact congrArg Desk.responses hs.fresh.desk_eq
  | @snoc π a l b hp hstep ih =>
      have ha : Reachable L config a := ⟨n, π, hs, hp⟩
      have hlast : b.loop.swarm.responses = _ := hstep.desk.responses_eq ha.inv
      have hprev : a.desk.responses = a.loop.swarm.responses := rfl
      rw [hlast, hprev, ih, executed, executed, List.flatMap_append, List.filterMap_append,
        List.flatMap_singleton]

/-- Libp2p got a response on a channel if the call that took the channel has run its
command. -/
theorem Run.handed_iff {config : NodeConfig} {n m : Node L}
    {π : List (Transition.Trans (Node L) (Label Req Resp))} (hs : Started L config n)
    (h : Run L n π m) (hn : (requests π).Nodup) (hlen : (requests π).length ≤ wordSize)
    {id : HandleId} {c : ClientCall Req Resp} {channel : ResponseChannel}
    (hc : m.calls id = some c) (ht : c.taken = some channel) :
    (∃ response, (channel, response) ∈ m.loop.swarm.responses) ↔
      ∃ t ∈ executed π, t.handle = id := by
  have hpaired := Run.paired hs.fresh h hn hlen
  have hlog := h.accepted hs
  have hrun {t : Task Req Resp} (htask : t ∈ executed π) : t ∈ SwarmP2p.accepted π := by
    rw [Run.accepted_eq hs h]
    exact List.mem_append_left _ htask
  rw [h.responses_eq hs]
  constructor
  · rintro ⟨response, hresponse⟩
    obtain ⟨t, htask, hr⟩ := List.mem_filterMap.mp hresponse
    obtain ⟨c', hc', _, hcommand⟩ := hlog.call t (hrun htask)
    have htaken := ((Call.command_follows hcommand).response channel response hr).1
    exact ⟨t, htask, hpaired.paired.once t.handle id c' c channel hc' hc htaken ht⟩
  · rintro ⟨t, htask, rfl⟩
    obtain ⟨c', hc', _, hcommand⟩ := hlog.call t (hrun htask)
    obtain rfl := Option.some.inj (hc.symm.trans hc')
    obtain ⟨pendingId, response, hcall, _⟩ := hpaired.paired.taken _ _ channel hc ht
    refine ⟨response, List.mem_filterMap.mpr ⟨t, htask, ?_⟩⟩
    rw [hcall, ht] at hcommand
    rw [← Option.some.inj hcommand]
    rfl

/-- Each inbound request is accounted for once: it waits under its id, or one call of
`send_response` with that id took its channel, or one purge removed it, and that not before
its time was up. And libp2p got a response on the channel if and only if the command of the
call that took it was run. -/
theorem requests_accounted {config : NodeConfig} {n m : Node L}
    {π : List (Transition.Trans (Node L) (Label Req Resp))} (hs : Started L config n)
    (h : Run L n π m) (hn : (requests π).Nodup) (hlen : (requests π).length ≤ 2 ^ 64)
    {pendingId : Nat} {entry : PendingEntry ResponseChannel}
    (ha : (pendingId, entry) ∈ arrivals π) :
    (m.waits pendingId).toNat + π.countP (takes pendingId) + π.countP (expires pendingId) = 1 ∧
      (∀ e, m.loop.pendingChannels.get? pendingId = some e → e = entry) ∧
      (∀ x ∈ π, takes pendingId x = true → ∃ id response c,
        x.label = .openCall id (.sendResponse pendingId response) ∧
          m.calls id = some c ∧ c.taken = some entry.value) ∧
      (∀ x ∈ π, expires pendingId x = true →
        config.reqRespTimeout ≤ x.pre.now - entry.createdAt) ∧
      ∀ id c, m.calls id = some c → c.taken = some entry.value →
        ((∃ response, (entry.value, response) ∈ m.loop.swarm.responses) ↔
          ∃ t ∈ executed π, t.handle = id) := by
  have hkeys : ((arrivals π).map Prod.fst).Nodup := by
    rw [arrivals_fst h, (Run.paired hs.fresh h hn hlen).paired.ids]
    exact List.nodup_range
  -- What is stored under the id at any time of the run is the entry of the request.
  have hentry {ρ χ : List (Transition.Trans (Node L) (Label Req Resp))} {u : Node L}
      (hπ : π = ρ ++ χ) (hp : Run L n ρ u) (e : PendingEntry ResponseChannel)
      (he : u.loop.pendingChannels.get? pendingId = some e) : e = entry := by
    have hmem : (pendingId, e) ∈ arrivals π := by
      rw [hπ, arrivals, List.filterMap_append]
      exact List.mem_append_left _ ((hp.stored hs.fresh).stored _ _ he)
    exact (Prod.mk.inj (List.inj_on_of_nodup_map hkeys hmem ha rfl)).2
  refine ⟨?_, fun e he => hentry (List.append_nil π).symm h e he, ?_, ?_,
    fun id c hc ht => h.handed_iff hs hn hlen hc ht⟩
  · rw [h.account hs.fresh hn hlen pendingId, countP_arrives]
    exact List.count_eq_one_of_mem hkeys (List.mem_map_of_mem (f := Prod.fst) ha)
  · intro x hx htakes
    obtain ⟨ρ, χ, hπ, hp, hstep, hq⟩ := h.split hx
    rw [List.append_assoc] at hπ
    obtain ⟨id, response, c, e, hl, he, hc, htaken⟩ := hstep.taken htakes
    obtain ⟨c', hc', _, hsame⟩ := Run.sameCalls hq id c hc
    rw [hentry hπ hp e he] at htaken
    exact ⟨id, response, c', hl, hc', hsame.trans htaken⟩
  · intro x hx hexpires
    obtain ⟨ρ, χ, hπ, hp, hstep, _⟩ := h.split hx
    rw [List.append_assoc] at hπ
    obtain ⟨e, he, hage⟩ := hstep.expired hexpires
    rw [(Run.stored hs.fresh hp).ttl_eq, hentry hπ hp e he] at hage
    exact hage

open Loopback in
/-- The first request was taken by the call that answered it, and the second one waits. -/
theorem requests_accounted_responded :
    (respondSteps.countP (takes 0) = 1 ∧
        (responded.waits 0).toNat + respondSteps.countP (takes 0) +
          respondSteps.countP (expires 0) = 1) ∧
      (responded.waits 1 = true ∧
        (responded.waits 1).toNat + respondSteps.countP (takes 1) +
          respondSteps.countP (expires 1) = 1) ∧
      ∀ id c, responded.calls id = some c → c.taken = some ⟨7⟩ →
        ((∃ response, (⟨7⟩, response) ∈ responded.loop.swarm.responses) ↔
          ∃ t ∈ executed respondSteps, t.handle = id) := by
  have hfirst : (0, ⟨⟨7⟩, 0⟩) ∈ arrivals respondSteps := List.mem_cons_self
  have hsecond : (1, ⟨⟨8⟩, 0⟩) ∈ arrivals respondSteps :=
    List.mem_cons_of_mem _ (List.mem_singleton_self _)
  obtain ⟨haccount, _, _, _, hhanded⟩ := requests_accounted (started []) respondSteps_run
    respondSteps_requests.1 respondSteps_requests.2 hfirst
  have hwaiting := (requests_accounted (started []) respondSteps_run
    respondSteps_requests.1 respondSteps_requests.2 hsecond).1
  exact ⟨⟨rfl, haccount⟩, ⟨rfl, hwaiting⟩, hhanded⟩

end SwarmP2p
