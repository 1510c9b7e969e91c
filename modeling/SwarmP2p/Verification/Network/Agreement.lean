import SwarmP2p.Model.Loopback
import SwarmP2p.Verification.EventLoop.Uses
import SwarmP2p.Verification.Network.Asking

/-! # Agreement between two nodes

What one node gets as the response to its request is what the other node's application
passed to `send_response` for that request. A run of the network is a run of every
node, so the facts about single runs apply at both ends; between the ends libp2p
carries each message at most once. -/

namespace SwarmP2p

variable {Req Resp : Type} {L : Libp2p Req Resp}

/-! ### Runs of the network at one peer -/

/-- The steps that a peer takes in a run of the network, with the log kept for it. -/
structure Network.Projected (N : Network L) (p : PeerId) (n : Node L)
    (π : List (Transition.Trans (Node L) (Label Req Resp))) : Prop where
  run : Run L n π (N.node p)
  asked : N.asked p = asks π
  arrived : (N.arrived p).map (fun y => (y.channel, y.pendingId)) = announcements π
  replied : N.replied p = replies π

theorem Label.request?_of_not_message {l : Label Req Resp} (h : ¬l.IsMessage) :
    l.request? = none := by
  unfold request?
  split
  · exact absurd trivial h
  · rfl

theorem Label.reply?_of_not_message {l : Label Req Resp} (h : ¬l.IsMessage) :
    l.reply? = none := by
  unfold reply?
  split
  · exact absurd trivial h
  · rfl

namespace Network.Projected

variable {N N' : Network L} {p : PeerId} {n : Node L}
  {π : List (Transition.Trans (Node L) (Label Req Resp))}

/-- A step of another peer. -/
theorem of_eq (hp : N.Projected p n π) (hnode : N'.node p = N.node p)
    (hasked : N'.asked p = N.asked p) (harrived : N'.arrived p = N.arrived p)
    (hreplied : N'.replied p = N.replied p) : N'.Projected p n π :=
  ⟨hnode ▸ hp.run, hasked ▸ hp.asked, harrived ▸ hp.arrived, hreplied ▸ hp.replied⟩

/-- A step of the peer itself. -/
theorem snoc (hp : N.Projected p n π) {l : Label Req Resp}
    (h : Step (N.node p) l (N'.node p))
    (hasked : N'.asked p = N.asked p ++ ((N.node p).asks? l).toList)
    (harrived : (N'.arrived p).map (fun y => (y.channel, y.pendingId)) =
      (N.arrived p).map (fun y => (y.channel, y.pendingId)) ++
        (announcement? ⟨N.node p, l, N'.node p⟩).toList)
    (hreplied : N'.replied p = N.replied p ++ l.reply?.toList) :
    N'.Projected p n (π ++ [⟨N.node p, l, N'.node p⟩]) := by
  refine ⟨hp.run.snoc h, ?_, ?_, ?_⟩
  · rw [asks_snoc, hasked, hp.asked]
  · rw [announcements_snoc, harrived, hp.arrived]
  · rw [replies_snoc, hreplied, hp.replied]

theorem step {l : NetworkLabel Req Resp} (hp : N.Projected p n π) (h : NetworkStep N l N') :
    ∃ ρ, N'.Projected p n ρ := by
  cases h with
  | @own q label m h hl =>
      by_cases hq : p = q
      · subst hq
        refine ⟨_, hp.snoc (l := label) (by simpa using h) (by simp) ?_ ?_⟩
        · rw [announcement?_eq_none (Label.request?_of_not_message hl)]
          simp
        · rw [Label.reply?_of_not_message hl]
          simp
      · exact ⟨π, hp.of_eq (by simp [hq]) (by simp [hq]) rfl rfl⟩
  | @request source ask channel pendingId m ha hnew hchannel h hphase =>
      by_cases hq : p = ask.target
      · subst hq
        refine ⟨_, hp.snoc
          (l := .swarmEvent (.behaviour (.reqResp (.request source ask.request channel))))
          (by simpa using h) (by simp [Node.asks?]) ?_ (by simp [Label.reply?])⟩
        simp [announcement?, Label.request?, hphase, LoopPhase.announced?]
      · exact ⟨π, hp.of_eq (by simp [hq]) rfl (by simp [hq]) rfl⟩
  | @response target x response m hx hs hnew h =>
      by_cases hq : p = x.source
      · subst hq
        refine ⟨_, hp.snoc
          (l := .swarmEvent (.behaviour (.reqResp (.response target x.id response))))
          (by simpa using h) (by simp [Node.asks?]) ?_ (by simp [Label.reply?])⟩
        rw [announcement?_eq_none rfl]
        simp
      · exact ⟨π, hp.of_eq (by simp [hq]) rfl rfl (by simp [hq])⟩

end Network.Projected

/-- A run of the network is a run of every node. -/
theorem NetworkReachable.projected {config : PeerId → NodeConfig} {N : Network L}
    (h : NetworkReachable L config N) (p : PeerId) :
    ∃ n π, Started L (config p) n ∧ N.Projected p n π := by
  refine Transition.Reachable.invariant
    (I := fun N : Network L => ∃ n π, Started L (config p) n ∧ N.Projected p n π) h ?_ ?_
  · intro N hs
    refine ⟨N.node p, [], hs.node p, .nil, hs.asked p, ?_, hs.replied p⟩
    rw [hs.arrived p]
    rfl
  · rintro N l N' ⟨n, π, hs, hp⟩ h
    obtain ⟨ρ, hρ⟩ := hp.step h
    exact ⟨n, ρ, hs, hρ⟩

/-! ### Messages on their way -/

/-- Every message comes from the node that sent it, and none comes twice. -/
structure Network.Carried (N : Network L) : Prop where
  arrived : ∀ p, ∀ y ∈ N.arrived p, ∃ x ∈ N.asked y.source, x.target = p ∧ x.id = y.id ∧
    x.request = y.request
  once : ∀ p, ∀ y ∈ N.arrived p, ∀ y' ∈ N.arrived p, y.source = y'.source → y.id = y'.id → y = y'
  channels : ∀ p, ((N.arrived p).map Arrival.channel).Nodup
  replied : ∀ p, ∀ r ∈ N.replied p, ∃ y ∈ N.arrived r.source, y.source = p ∧ y.id = r.id ∧
    (y.channel, r.response) ∈ (N.node r.source).loop.swarm.responses

/-- The log of calls on the swarm only grows. -/
theorem Step.responses_prefix {n m : Node L} {l : Label Req Resp} (h : Step n l m) :
    n.loop.swarm.responses <+: m.loop.swarm.responses := by
  obtain ⟨state, hm⟩ := h.moved
  obtain ⟨log, hlog, _⟩ := hm.uses.calls
  refine ⟨log.filterMap SwarmCall.response?, ?_⟩
  simp only [Swarm.responses, hlog, List.filterMap_append]

theorem mem_of_update {α : Type} {f : PeerId → List α} {p q : PeerId} {l : List α} {x : α}
    (h : x ∈ f q) : x ∈ Function.update f p (f p ++ l) q := by
  by_cases hq : q = p
  · subst hq
    simp [h]
  · simpa [hq] using h

/-- A log to which one entry is added. -/
theorem mem_update_append {α : Type} {f : PeerId → List α} {p q : PeerId} {x y : α} :
    x ∈ Function.update f p (f p ++ [y]) q ↔ x ∈ f q ∨ q = p ∧ x = y := by
  by_cases hq : q = p
  · subst hq
    simp
  · simp [hq]

theorem responses_of_update {N : Network L} {p q : PeerId} {l : Label Req Resp} {m : Node L}
    (h : Step (N.node p) l m) {r : ResponseChannel × Resp}
    (hr : r ∈ (N.node q).loop.swarm.responses) :
    r ∈ (Function.update N.node p m q).loop.swarm.responses := by
  by_cases hq : q = p
  · subst hq
    rw [Function.update_self]
    exact h.responses_prefix.subset hr
  · rwa [Function.update_of_ne hq]

theorem Network.Carried.step {N N' : Network L} {l : NetworkLabel Req Resp} (hc : N.Carried)
    (h : NetworkStep N l N') : N'.Carried := by
  cases h with
  | @own q label m h hl =>
      refine ⟨?_, hc.once, hc.channels, ?_⟩
      · intro p y hy
        obtain ⟨x, hx, hxy⟩ := hc.arrived p y hy
        exact ⟨x, mem_of_update hx, hxy⟩
      · intro p r hr
        obtain ⟨y, hy, hsource, hid, hresp⟩ := hc.replied p r hr
        exact ⟨y, hy, hsource, hid, responses_of_update h hresp⟩
  | @request source ask channel pendingId m ha hnew hchannel h hphase =>
      refine ⟨?_, ?_, ?_, ?_⟩
      · intro p y hy
        rcases mem_update_append.mp hy with hy | ⟨rfl, rfl⟩
        · exact hc.arrived p y hy
        · exact ⟨ask, ha, rfl, rfl, rfl⟩
      · intro p y hy y' hy' hsource hid
        rcases mem_update_append.mp hy with hy | ⟨rfl, rfl⟩ <;>
          rcases mem_update_append.mp hy' with hy' | ⟨hp, rfl⟩
        · exact hc.once p y hy y' hy' hsource hid
        · exact absurd hid (hnew y (hp ▸ hy) hsource)
        · exact absurd hid.symm (hnew y' hy' hsource.symm)
        · rfl
      · intro p
        by_cases hp : p = ask.target
        · subst hp
          simp only [Function.update_self, List.map_append, List.map_singleton]
          rw [List.nodup_append]
          refine ⟨hc.channels _, by simp, ?_⟩
          intro ch hin ch' hin' heq
          obtain ⟨y, hy, rfl⟩ := List.mem_map.mp hin
          obtain rfl := List.mem_singleton.mp hin'
          exact hchannel y hy heq
        · simp only [Function.update_of_ne hp]
          exact hc.channels p
      · intro p r hr
        obtain ⟨y, hy, hsource, hid, hresp⟩ := hc.replied p r hr
        exact ⟨y, mem_of_update hy, hsource, hid, responses_of_update h hresp⟩
  | @response target x response m hx hs hnew h =>
      refine ⟨hc.arrived, hc.once, hc.channels, ?_⟩
      intro p r hr
      rcases mem_update_append.mp hr with hr | ⟨rfl, rfl⟩
      · obtain ⟨y, hy, hsource, hid, hresp⟩ := hc.replied p r hr
        exact ⟨y, hy, hsource, hid, responses_of_update h hresp⟩
      · exact ⟨x, hx, rfl, rfl, responses_of_update h (List.mem_filterMap.mpr ⟨_, hs, rfl⟩)⟩

theorem NetworkReachable.carried {config : PeerId → NodeConfig} {N : Network L}
    (h : NetworkReachable L config N) : N.Carried := by
  refine Transition.Reachable.invariant h ?_ fun _ _ _ hc hs => hc.step hs
  intro N hs
  constructor <;> simp [hs.arrived, hs.replied]

/-! ### Agreement -/

/-- Call `id'` of `send_response` at `b` took the channel of the request that call `id` at
`a` sent. -/
structure Network.Answers (N : Network L) (a : PeerId) (id : HandleId) (b : PeerId)
    (id' : HandleId) (response : Resp) : Prop where
  exists_arrival : ∃ x ∈ N.asked a, ∃ y ∈ N.arrived b, x.call = id ∧ x.target = b ∧
    y.source = a ∧ y.id = x.id ∧ y.request = x.request ∧
    ∃ c, (N.node b).calls id' = some c ∧ c.call = .sendResponse y.pendingId response ∧
      c.taken = some y.channel

namespace NetworkReachable

variable {config : PeerId → NodeConfig} {N : Network L}

theorem asking (h : NetworkReachable L config N) (p : PeerId) :
    Asking (N.asked p) (N.node p).desk := by
  obtain ⟨n, π, hs, hp⟩ := h.projected p
  rw [hp.asked]
  exact hp.run.asking hs

theorem pairedRun (h : NetworkReachable L config N) (p : PeerId)
    (hlen : (N.arrived p).length ≤ wordSize) :
    PairedRun ((N.arrived p).map fun y => (y.channel, y.pendingId)) (N.node p) := by
  obtain ⟨n, π, hs, hp⟩ := h.projected p
  have hrequests : requests π = (N.arrived p).map Arrival.channel := by
    rw [← announcements_fst hp.run, ← hp.arrived, List.map_map]
    rfl
  rw [hp.arrived]
  refine Run.paired hs.fresh hp.run ?_ ?_
  · rw [hrequests]
    exact h.carried.channels p
  · rw [hrequests, List.length_map]
    exact hlen

/-- A call has sent at most one request. -/
theorem asked_of_call (h : NetworkReachable L config N) {p : PeerId} {x y : Ask Req}
    (hx : x ∈ N.asked p) (hy : y ∈ N.asked p) (hcall : x.call = y.call) : x = y :=
  List.inj_on_of_nodup_map (h.asking p).nodup hx hy hcall

theorem asked_of_id (h : NetworkReachable L config N) {p : PeerId}
    (hids : (N.node p).loop.swarm.ids.Nodup) {x y : Ask Req} (hx : x ∈ N.asked p)
    (hy : y ∈ N.asked p) (hid : x.id = y.id) : x = y := by
  have hn := hids.sublist (h.asking p).ids
  exact List.inj_on_of_nodup_map hn hx hy (congrArg EventId.request hid)

theorem answers_of_response (h : NetworkReachable L config N)
    (hids : ∀ p, (N.node p).loop.swarm.ids.Nodup)
    (hlen : ∀ p, (N.arrived p).length ≤ wordSize) {a b : PeerId} {id : HandleId}
    {c : ClientCall Req Resp} {request : Req} {response : Resp}
    (hc : (N.node a).calls id = some c) (hcall : c.call = .sendRequest b request)
    (hp : c.phase = .ready (.ok (.response response))) :
    ∃ id', N.Answers a id b id' response := by
  obtain ⟨n, π, hs, hproj⟩ := h.projected a
  obtain ⟨x, hx, rfl, rfl, rfl, hreply⟩ :=
    hproj.run.reply_of_response hs (hids a) hc hcall hp
  rw [← hproj.asked] at hx
  rw [← hproj.replied] at hreply
  obtain ⟨y, hy, hsource, hid, hresp⟩ := h.carried.replied a _ hreply
  -- The arrival is that of the request which the call sent.
  obtain ⟨x', hx', _, hid', hrequest⟩ := h.carried.arrived x.target y hy
  rw [hsource] at hx'
  obtain rfl := h.asked_of_id (hids a) hx' hx (hid'.trans hid)
  have hpaired := h.pairedRun x'.target (hlen _)
  obtain ⟨id', c', pendingId, hc', htaken, hcall', _⟩ :=
    hpaired.handed.handed y.channel response hresp
  obtain ⟨pendingId', response', hcall'', hann, _⟩ :=
    hpaired.paired.taken id' c' y.channel hc' htaken
  rw [hcall'] at hcall''
  obtain ⟨rfl, rfl⟩ := Call.sendResponse.inj hcall''
  obtain ⟨y', hy', hpair⟩ := List.mem_map.mp hann
  obtain ⟨hchannel, rfl⟩ := Prod.mk.inj hpair
  obtain rfl := List.inj_on_of_nodup_map (h.carried.channels _) hy' hy hchannel
  exact ⟨id', ⟨x', hx, y', hy, rfl, rfl, hsource, hid, hrequest.symm, c', hc', hcall', htaken⟩⟩

/-- A call of `send_request` is answered by one call of `send_response` only. -/
theorem answers_unique (h : NetworkReachable L config N)
    (hlen : ∀ p, (N.arrived p).length ≤ wordSize) {a b b' : PeerId} {id id₁ id₂ : HandleId}
    {r r' : Resp} (h₁ : N.Answers a id b id₁ r) (h₂ : N.Answers a id b' id₂ r') :
    b = b' ∧ id₁ = id₂ := by
  obtain ⟨x, hx, y, hy, rfl, rfl, hsource, hid, _, c, hc, _, htaken⟩ := h₁
  obtain ⟨x', hx', y', hy', hcall, rfl, hsource', hid', _, c', hc', _, htaken'⟩ := h₂
  obtain rfl := h.asked_of_call hx' hx hcall
  obtain rfl := h.carried.once _ y hy y' hy' (hsource.trans hsource'.symm) (hid.trans hid'.symm)
  exact ⟨rfl, (h.pairedRun _ (hlen _)).paired.once id₁ id₂ c c' y.channel hc hc' htaken htaken'⟩

/-- A call of `send_response` answers one call of `send_request` only. -/
theorem answers_injective (h : NetworkReachable L config N)
    (hids : ∀ p, (N.node p).loop.swarm.ids.Nodup) {a a' b : PeerId} {id id₁ id₂ : HandleId}
    {r r' : Resp} (h₁ : N.Answers a id₁ b id r) (h₂ : N.Answers a' id₂ b id r') :
    a = a' ∧ id₁ = id₂ := by
  obtain ⟨x, hx, y, hy, rfl, _, rfl, hid, _, c, hc, _, htaken⟩ := h₁
  obtain ⟨x', hx', y', hy', rfl, _, rfl, hid', _, c', hc', _, htaken'⟩ := h₂
  have hsame : c' = c := Option.some.inj (hc'.symm.trans hc)
  rw [hsame, htaken] at htaken'
  obtain rfl := List.inj_on_of_nodup_map (h.carried.channels b) hy hy'
    (Option.some.inj htaken')
  obtain rfl := h.asked_of_id (hids _) hx hx' (hid.symm.trans hid')
  exact ⟨rfl, rfl⟩

end NetworkReachable

/-- A response that a call of `send_request` returns was passed to `send_response` by the
peer that was asked, with the id under which it had announced this very request, and the
calls at the two ends belong to each other alone. -/
theorem responses_agree {config : PeerId → NodeConfig} {N : Network L}
    (h : NetworkReachable L config N) (hids : ∀ p, (N.node p).loop.swarm.ids.Nodup)
    (hlen : ∀ p, (N.arrived p).length ≤ 2 ^ 64) :
    (∀ a b id c request response, (N.node a).calls id = some c →
        c.call = .sendRequest b request → c.phase = .ready (.ok (.response response)) →
          ∃ id', N.Answers a id b id' response) ∧
      (∀ a b b' id id₁ id₂ response response', N.Answers a id b id₁ response →
        N.Answers a id b' id₂ response' → b = b' ∧ id₁ = id₂) ∧
      ∀ a a' b id id₁ id₂ response response', N.Answers a id₁ b id response →
        N.Answers a' id₂ b id response' → a = a' ∧ id₁ = id₂ :=
  ⟨fun _ _ _ _ _ _ hc hcall hp => h.answers_of_response hids hlen hc hcall hp,
    fun _ _ _ _ _ _ _ _ h₁ h₂ => h.answers_unique hlen h₁ h₂,
    fun _ _ _ _ _ _ _ _ h₁ h₂ => h.answers_injective hids h₁ h₂⟩

/-! ### Two nodes -/

/-- Steps that one node takes by itself. -/
def Network.own (N : Network L) (p : PeerId)
    (π : List (Transition.Trans (Node L) (Label Req Resp))) (m : Node L) : Network L :=
  { N with
    node := Function.update N.node p m
    asked := Function.update N.asked p (N.asked p ++ asks π) }

theorem NetworkReachable.own {config : PeerId → NodeConfig} {N : Network L}
    (h : NetworkReachable L config N) {p : PeerId} {m : Node L}
    {π : List (Transition.Trans (Node L) (Label Req Resp))} (hr : Run L (N.node p) π m)
    (hl : ∀ x ∈ π, ¬x.label.IsMessage) : NetworkReachable L config (N.own p π m) := by
  induction hr with
  | nil => simpa [Network.own, asks] using h
  | @snoc π a l b hr hs ih =>
      have hprev := ih fun x hx => hl x (List.mem_append_left _ hx)
      have hstep : NetworkStep (N.own p π a) (.own p l) _ :=
        .own (show Step ((N.own p π a).node p) l b by simpa [Network.own] using hs)
          (hl ⟨a, l, b⟩ (by simp))
      convert hprev.next hstep using 1
      simp [Network.own, asks_snoc]

namespace Loopback

def asker : PeerId := ⟨[1]⟩

def answerer : PeerId := ⟨[2]⟩

def pair : Network loopback := ⟨fun _ => node [], fun _ => [], fun _ => [], fun _ => []⟩

theorem pair_started : NetworkStarted loopback (fun _ => config []) pair :=
  ⟨fun _ => started [], fun _ => rfl, fun _ => rfl, fun _ => rfl⟩

def askTask : Task String String := ⟨.sendRequest (.new answerer "request"), 0⟩

def askQueued : Node loopback :=
  ((node []).openCall 0 (.sendRequest answerer "request")).firstPoll 0
    ⟨.sendRequest answerer "request", none, .created askTask.command⟩ askTask.command 0

def askReceived : Node loopback :=
  { askQueued.sweep with
    loop := { askQueued.sweep.loop with commandRx := .new _ }
    phase := .running askTask }

def asked : Node loopback := (askReceived.handleCommand askTask).sweep

def askSteps : List (Transition.Trans (Node loopback) (Label String String)) :=
  [⟨node [], .openCall 0 (.sendRequest answerer "request"),
      (node []).openCall 0 (.sendRequest answerer "request")⟩,
    ⟨(node []).openCall 0 (.sendRequest answerer "request"), .firstPoll 0 0, askQueued⟩,
    ⟨askQueued, .sweep, askQueued.sweep⟩, ⟨askQueued.sweep, .recvCommand, askReceived⟩,
    ⟨askReceived, .handleCommand, askReceived.handleCommand askTask⟩,
    ⟨askReceived.handleCommand askTask, .sweep, asked⟩]

theorem askSteps_run : Run loopback (node []) askSteps asked :=
  (((((Transition.Path.single (Step.openCall _ (by decide) rfl)).snoc
    (.firstPoll 0 rfl rfl)).snoc (.sweep rfl)).snoc (.recvCommand rfl rfl)).snoc
    (.handleCommand rfl)).snoc (.sweep rfl)

/-- The request is on its way, and the other node waits for events. -/
def sent : Network loopback :=
  (pair.own asker askSteps asked).own answerer [⟨node [], .sweep, (node []).sweep⟩]
    (node []).sweep

def ask : Ask String := ⟨0, answerer, ⟨0⟩, "request"⟩

theorem sent_reachable : NetworkReachable loopback (fun _ => config []) sent := by
  have hasked := NetworkReachable.own (.initial pair_started) (p := asker) askSteps_run
    (by simp [askSteps, Label.IsMessage])
  exact hasked.own (.single (.sweep rfl)) (by simp [Label.IsMessage])

def reporting : Node loopback :=
  ((node []).sweep.withSwarmState ({} : State)).handleSwarmEvent []
    (.behaviour (.reqResp (.request asker "request" ⟨7⟩)))

def arrival : Arrival String := ⟨asker, ⟨0⟩, "request", ⟨7⟩, 0⟩

def arrived : Network loopback :=
  { sent with
    node := Function.update sent.node answerer reporting
    arrived := Function.update sent.arrived answerer (sent.arrived answerer ++ [arrival]) }

theorem arrived_reachable : NetworkReachable loopback (fun _ => config []) arrived :=
  sent_reachable.next (l := .request asker ask ⟨7⟩)
    (.request (show ask ∈ [ask] from List.mem_singleton_self ask) (fun _ h => by cases h)
      (fun _ h => by cases h) (.swarmEvent rfl rfl ⟨List.nodup_nil, fun _ => .rfl⟩) rfl)

def answerTask : Task String String := ⟨.sendResponse (.new ⟨7⟩ "response"), 0⟩

def announced : Node loopback := reporting.pollSend (.inboundRequest asker 0 "request")

def answerQueued : Node loopback :=
  (announced.openCall 0 (.sendResponse 0 "response")).firstPoll 0
    ⟨.sendResponse 0 "response", some ⟨7⟩, .created answerTask.command⟩ answerTask.command 0

def answerReceived : Node loopback :=
  { answerQueued.sweep with
    loop := { answerQueued.sweep.loop with commandRx := .new _ }
    phase := .running answerTask }

def answered : Node loopback := answerReceived.handleCommand answerTask

def answerSteps : List (Transition.Trans (Node loopback) (Label String String)) :=
  [⟨reporting, .beginSend, announced⟩,
    ⟨announced, .openCall 0 (.sendResponse 0 "response"),
      announced.openCall 0 (.sendResponse 0 "response")⟩,
    ⟨announced.openCall 0 (.sendResponse 0 "response"), .firstPoll 0 0, answerQueued⟩,
    ⟨answerQueued, .sweep, answerQueued.sweep⟩,
    ⟨answerQueued.sweep, .recvCommand, answerReceived⟩,
    ⟨answerReceived, .handleCommand, answered⟩]

theorem answerSteps_run : Run loopback reporting answerSteps answered :=
  (((((Transition.Path.single (Step.beginSend rfl)).snoc
    (.openCall _ (by decide) rfl)).snoc (.firstPoll 0 rfl rfl)).snoc (.sweep rfl)).snoc
    (.recvCommand rfl rfl)).snoc (.handleCommand rfl)

/-- The response is on its way back. -/
def responding : Network loopback := arrived.own answerer answerSteps answered

theorem responding_reachable : NetworkReachable loopback (fun _ => config []) responding :=
  arrived_reachable.own answerSteps_run (by simp [answerSteps, Label.IsMessage])

def replied : Node loopback :=
  (asked.withSwarmState asked.loop.swarm.state).handleSwarmEvent []
    (.behaviour (.reqResp (.response answerer ⟨0⟩ "response")))

def replyReady : Node loopback :=
  replied.handlePoll 0 ⟨.sendRequest answerer "request", none, .polling 0⟩ 0

/-- The call of `send_request` has its response. -/
def exchanged : Network loopback :=
  Network.own
    { responding with
      node := Function.update responding.node asker replied
      replied := Function.update responding.replied asker
        (responding.replied asker ++ [⟨answerer, ⟨0⟩, "response"⟩]) }
    asker [⟨replied, .handlePoll 0, replyReady⟩] replyReady

theorem exchanged_reachable : NetworkReachable loopback (fun _ => config []) exchanged := by
  have hcalls : SwarmCall.sendResponse ⟨7⟩ "response" true ∈
      (responding.node answerer).loop.swarm.calls :=
    show _ ∈ [SwarmCall.sendResponse ⟨7⟩ "response" true] from List.mem_singleton_self _
  have hreplied : NetworkReachable loopback (fun _ => config []) _ :=
    responding_reachable.next (l := .response answerer arrival "response") (.response
      (show arrival ∈ [arrival] from List.mem_singleton_self arrival) hcalls
      (fun _ h => by cases h) (.swarmEvent rfl rfl ⟨List.nodup_nil, fun _ => .rfl⟩))
  exact hreplied.own (.single (.handlePoll rfl rfl)) (by simp [Label.IsMessage])

theorem exchanged_ids (p : PeerId) : (exchanged.node p).loop.swarm.ids.Nodup := by
  by_cases h : p = asker
  · subst h
    decide
  · by_cases h' : p = answerer
    · subst h'
      decide
    · have hnode : exchanged.node p = node [] := by
        simp [exchanged, responding, arrived, sent, Network.own, pair, h, h']
      rw [hnode]
      exact List.nodup_nil

theorem exchanged_arrived (p : PeerId) : (exchanged.arrived p).length ≤ 2 ^ 64 := by
  by_cases h : p = answerer
  · subst h
    decide
  · have hnil : exchanged.arrived p = [] := by
      simp [exchanged, responding, arrived, sent, Network.own, pair, h]
    rw [hnil]
    exact Nat.zero_le _

end Loopback

theorem responses_agree_exchanged :
    ∃ id, Loopback.exchanged.Answers Loopback.asker 0 Loopback.answerer id "response" :=
  (responses_agree Loopback.exchanged_reachable Loopback.exchanged_ids
    Loopback.exchanged_arrived).1
    Loopback.asker Loopback.answerer 0 _ "request" "response" rfl rfl rfl

end SwarmP2p
