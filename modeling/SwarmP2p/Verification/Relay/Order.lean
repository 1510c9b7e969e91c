import SwarmP2p.Verification.Relay.Registrations

/-! # The order of a registration

A relay is registered before it connects and identifies itself, in between, or afterwards.
A registration that finds the peer connected is requested at once, whatever the peer
speaks; an earlier one waits for an Identify with the node's own protocol version. -/

namespace SwarmP2p

variable {Req Resp : Type} {L : Libp2p Req Resp}

/-! ### One peer -/

/-- What a step does at one peer. -/
def Node.relayStepAt (n : Node L) (p : PeerId) (l : Label Req Resp) : Option RelayStep :=
  match n.relayStep? l with
  | some (q, s) => if q = p then some s else none
  | none => none

def relaySteps (p : PeerId) (π : List (Transition.Trans (Node L) (Label Req Resp))) :
    List RelayStep :=
  π.filterMap fun x => x.pre.relayStepAt p x.label

/-- The addresses requested in the steps of one peer. -/
def requestsFor (p : PeerId) (π : List (Transition.Trans (Node L) (Label Req Resp))) :
    List Multiaddr :=
  π.flatMap fun x =>
    if (x.pre.relayStepAt p x.label).isSome = true then x.pre.listenRequests x.post else []

/-- Two runs that have requested the same addresses at a peer and keep the same. -/
structure SameRelayOutcome (p : PeerId)
    (π π' : List (Transition.Trans (Node L) (Label Req Resp))) (m m' : Node L) : Prop where
  requested : ∀ circuit, circuit ∈ requestsFor p π ↔ circuit ∈ requestsFor p π'
  kept : m.loop.bootstrapPeers p = m'.loop.bootstrapPeers p

/-! ### Steps of a peer as events -/

namespace RelayStep

def connects (was : Bool) : RelayStep → Bool
  | .connect => true
  | .disconnect => false
  | _ => was

def event? (version : String) (p : PeerId) (connected : Bool) :
    RelayStep → Option (Deferred.Event PeerId Multiaddr)
  | .register addrs => some (.submit p addrs connected)
  | .identify info => if info.protocolVersion = version then some (.serve p) else none
  | _ => none

/-- The events of a peer that is connected or not before its steps. -/
def events (version : String) (p : PeerId) :
    Bool → List RelayStep → List (Deferred.Event PeerId Multiaddr)
  | _, [] => []
  | connected, s :: steps =>
      (s.event? version p connected).toList ++ events version p (s.connects connected) steps

theorem events_append (version : String) (p : PeerId) (connected : Bool)
    (steps more : List RelayStep) :
    events version p connected (steps ++ more) = events version p connected steps ++
      events version p (steps.foldl connects connected) more := by
  induction steps generalizing connected with
  | nil => rfl
  | cons s steps ih =>
      rw [List.cons_append, events, ih, events, List.append_assoc]
      rfl

end RelayStep

theorem Node.relayStepAt_eq_some {n : Node L} {p : PeerId} {l : Label Req Resp} {s : RelayStep} :
    n.relayStepAt p l = some s ↔ n.relayStep? l = some (p, s) := by
  unfold relayStepAt
  split
  · rename_i q s' heq
    rw [heq]
    split
    · rename_i hq
      subst hq
      simp
    · rename_i hq
      simp [hq]
  · rename_i hnone
    simp [hnone]

theorem RelayStep.key_of_event? {version : String} {p : PeerId} {connected : Bool}
    {s : RelayStep} {e : Deferred.Event PeerId Multiaddr}
    (h : s.event? version p connected = some e) : e.key = p := by
  cases s with
  | register addrs =>
      obtain rfl := Option.some.inj h
      rfl
  | identify info =>
      simp only [event?] at h
      split at h
      · obtain rfl := Option.some.inj h
        rfl
      · cases h
  | _ => cases h

/-- All that a step can do: nothing about a relay, or one step at one peer. -/
theorem Node.relayStep?_cases {count : L.State → PeerId → Nat}
    (hcount : CountsConnections L count) {n : Node L} (hclient : n.loop.swarm.relayClient = true)
    (l : Label Req Resp) :
    (n.relayStep? l = none ∧ n.relayEvent? l = none ∧ ∀ p was, l.connects p was = was) ∨
      ∃ q s, n.relayStep? l = some (q, s) ∧
        n.relayEvent? l = s.event? n.loop.protocolVersion q (n.loop.swarm.isConnected q) ∧
        ∀ p was, l.connects p was = if q = p then s.connects was else was := by
  cases l with
  | handleCommand =>
      cases hphase : n.phase with
      | running task =>
          obtain ⟨command, handle⟩ := task
          cases command with
          | addInfrastructurePeer c =>
              have hsame : (c.run n.loop.swarm).swarm.isConnected c.peerId =
                  n.loop.swarm.isConnected c.peerId := by
                rw [hcount.isConnected_eq, hcount.isConnected_eq,
                  hcount.called ((c.run_uses n.loop.swarm).mono fun _ _ => trivial)]
              by_cases hrole : c.roles.relayServer = true
              · refine .inr ⟨c.peerId, .register c.addrs, ?_, ?_, fun p was => (ite_self _).symm⟩
                · simp [relayStep?, hphase, hrole]
                · simp [relayEvent?, hphase, hrole, hclient, hsame, RelayStep.event?]
              · refine .inl ⟨?_, ?_, fun _ _ => rfl⟩
                · simp [relayStep?, hphase, hrole]
                · simp [relayEvent?, hphase, hrole]
          | _ =>
              exact .inl ⟨by simp [relayStep?, hphase], by simp [relayEvent?, hphase],
                fun _ _ => rfl⟩
      | _ =>
          exact .inl ⟨by simp [relayStep?, hphase], by simp [relayEvent?, hphase], fun _ _ => rfl⟩
  | swarmEvent event =>
      cases event with
      | connectionEstablished q k =>
          by_cases hk : k = 1
          · exact .inr ⟨q, .connect, by simp [relayStep?, hk], rfl, fun p was => by
              simp [Label.connects, RelayStep.connects, hk]⟩
          · exact .inl ⟨by simp [relayStep?, hk], rfl, fun p was => by simp [Label.connects, hk]⟩
      | connectionClosed q k =>
          by_cases hk : k = 0
          · exact .inr ⟨q, .disconnect, by simp [relayStep?, hk], rfl, fun p was => by
              simp [Label.connects, RelayStep.connects, hk]⟩
          · exact .inl ⟨by simp [relayStep?, hk], rfl, fun p was => by simp [Label.connects, hk]⟩
      | behaviour event =>
          cases event with
          | identifyReceived q info =>
              exact .inr ⟨q, .identify info, rfl, rfl, fun p was => (ite_self _).symm⟩
          | _ => exact .inl ⟨rfl, rfl, fun _ _ => rfl⟩
      | _ => exact .inl ⟨rfl, rfl, fun _ _ => rfl⟩
  | _ => exact .inl ⟨rfl, rfl, fun _ _ => rfl⟩

/-- The same for one peer: whether it is connected afterwards, and the events at it. -/
theorem Node.relayStepAt_spec {count : L.State → PeerId → Nat}
    (hcount : CountsConnections L count) {n : Node L} (hclient : n.loop.swarm.relayClient = true)
    (p : PeerId) (l : Label Req Resp) :
    (∀ was, l.connects p was = (n.relayStepAt p l).toList.foldl RelayStep.connects was) ∧
      (n.relayEvent? l).toList.filter (fun e => e.key = p) =
        ((n.relayStepAt p l).bind
          (RelayStep.event? n.loop.protocolVersion p (n.loop.swarm.isConnected p))).toList := by
  rcases n.relayStep?_cases hcount hclient l with ⟨hstep, hevent, hconnects⟩ |
    ⟨q, s, hstep, hevent, hconnects⟩
  · have hnone : n.relayStepAt p l = none := by rw [relayStepAt, hstep]
    rw [hnone, hevent]
    exact ⟨fun was => hconnects p was, rfl⟩
  · by_cases hq : q = p
    · subst hq
      rw [relayStepAt_eq_some.mpr hstep, hevent]
      refine ⟨fun was => (hconnects q was).trans (if_pos rfl), ?_⟩
      refine List.filter_eq_self.mpr fun e he => ?_
      exact decide_eq_true (RelayStep.key_of_event? (Option.mem_toList.mp he))
    · have hnone : n.relayStepAt p l = none := by simp [relayStepAt, hstep, hq]
      rw [hnone, hevent]
      refine ⟨fun was => (hconnects p was).trans (if_neg hq), ?_⟩
      refine List.filter_eq_nil_iff.mpr fun e he => ?_
      rw [RelayStep.key_of_event? (Option.mem_toList.mp he)]
      simpa using hq

/-! ### Runs -/

theorem Run.relay_settings {n m : Node L}
    {π : List (Transition.Trans (Node L) (Label Req Resp))} (h : Run L n π m) :
    m.loop.swarm.relayClient = n.loop.swarm.relayClient ∧
      m.loop.protocolVersion = n.loop.protocolVersion := by
  induction h with
  | nil => exact ⟨rfl, rfl⟩
  | snoc _ hs ih =>
      obtain ⟨state, hm⟩ := hs.moved
      exact ⟨hm.uses.relayClient_eq.trans ih.1, hm.same.protocolVersion.trans ih.2⟩

/-- The events of a run at one peer are those of its steps at that peer. -/
theorem Run.relayEvents_filter {count : L.State → PeerId → Nat}
    (hcount : CountsConnections L count) {n m : Node L}
    {π : List (Transition.Trans (Node L) (Label Req Resp))} (h : Run L n π m)
    (hclient : n.loop.swarm.relayClient = true) (p : PeerId) :
    m.loop.swarm.isConnected p =
        (relaySteps p π).foldl RelayStep.connects (n.loop.swarm.isConnected p) ∧
      (relayEvents π).filter (fun e => e.key = p) =
        RelayStep.events n.loop.protocolVersion p (n.loop.swarm.isConnected p)
          (relaySteps p π) := by
  induction h with
  | nil => exact ⟨rfl, rfl⟩
  | @snoc π t l u hp hs ih =>
      obtain ⟨hconnected, hevents⟩ := ih
      obtain ⟨hclient', hversion⟩ := Run.relay_settings hp
      have hsteps : relaySteps p (π ++ [⟨t, l, u⟩]) =
          relaySteps p π ++ (t.relayStepAt p l).toList := by
        rw [relaySteps, List.filterMap_append]
        cases hstep : t.relayStepAt p l <;> simp [relaySteps, hstep]
      obtain ⟨hconnects, hfilter⟩ := t.relayStepAt_spec hcount (hclient'.trans hclient) p l
      rw [hsteps]
      refine ⟨?_, ?_⟩
      · rw [List.foldl_append, ← hconnected, ← hconnects]
        exact hs.isConnected_eq hcount p
      · rw [relayEvents_snoc, List.filter_append, hevents, hfilter, RelayStep.events_append,
          ← hconnected, hversion]
        cases t.relayStepAt p l with
        | none => rfl
        | some s => exact congrArg _ (List.append_nil _).symm

theorem NodeConfig.relayEvents_doneFor (config : NodeConfig) (p : PeerId) :
    (Deferred.Store.empty.run config.relayEvents).doneFor p = [] := by
  have hlater : ∀ (peers : List (PeerId × Multiaddr)) (s : Deferred.Store PeerId Multiaddr),
      (s.run (peers.map fun entry => .submit entry.1 [entry.2] false)).doneFor p =
        s.doneFor p := by
    intro peers
    induction peers with
    | nil => exact fun _ => rfl
    | cons entry peers ih => exact fun s => ih _
  unfold relayEvents
  split
  · exact hlater _ _
  · rfl

/-- An event of the store comes from a step at its peer. -/
theorem Node.relayStep?_of_relayEvent? {n : Node L} {l : Label Req Resp}
    {e : Deferred.Event PeerId Multiaddr} (h : n.relayEvent? l = some e) :
    ∃ s, n.relayStep? l = some (e.key, s) := by
  unfold relayEvent? at h
  split at h
  · split at h
    · rename_i c _ hphase
      split at h
      · rename_i hrole
        obtain rfl := Option.some.inj h
        exact ⟨.register c.addrs, by simp [relayStep?, hphase, hrole.1, Deferred.Event.key]⟩
      · cases h
    · cases h
  · rename_i p info
    split at h
    · obtain rfl := Option.some.inj h
      exact ⟨.identify info, rfl⟩
    · cases h
  · cases h

/-- What a step requests is what the store does in it. -/
theorem Defers.listenRequests_eq {base : List Multiaddr} {s s' : Deferred.Store PeerId Multiaddr}
    {n m : Node L} (hn : Defers base s n.loop) (hm : Defers base s' m.loop)
    {done : List (PeerId × Multiaddr)} (hdone : s'.done = s.done ++ done) :
    n.listenRequests m = circuits done := by
  rw [Node.listenRequests, hm.requests, hdone, circuits_append, ← List.append_assoc,
    ← hn.requests, List.drop_left]

/-- What is requested in the steps of a peer is what the store has done for it. -/
theorem Run.requestsFor_eq {config : NodeConfig} {n m : Node L}
    {π : List (Transition.Trans (Node L) (Label Req Resp))} (hs : Started L config n)
    (h : Run L n π m) (p : PeerId) :
    requestsFor p π =
      ((Deferred.Store.empty.run (config.relayEvents ++ relayEvents π)).doneFor p).map
        (EventLoop.relayAddr p) := by
  induction h with
  | nil =>
      rw [relayEvents, List.filterMap_nil, List.append_nil, config.relayEvents_doneFor]
      rfl
  | @snoc π t l u hp hstep ih =>
      have hbefore := Run.defers_started hs hp
      have hafter := Run.defers_started hs (hp.snoc hstep)
      rw [relayEvents_snoc, ← List.append_assoc, Deferred.Store.run_append] at hafter ⊢
      rw [requestsFor, List.flatMap_append, ← requestsFor, ih, List.flatMap_singleton]
      generalize Deferred.Store.empty.run (config.relayEvents ++ relayEvents π) = s at *
      cases hevent : t.relayEvent? l with
      | none =>
          rw [hevent] at hafter
          have hnone : t.listenRequests u = [] :=
            hbefore.listenRequests_eq hafter (List.append_nil _).symm
          rw [hnone, ite_self, List.append_nil]
          rfl
      | some e =>
          rw [hevent] at hafter
          obtain ⟨s', hs'⟩ := Node.relayStep?_of_relayEvent? hevent
          obtain ⟨items, hdone, hitems⟩ := s.step_done e
          have hnew := (hbefore.listenRequests_eq hafter hdone).trans (circuits_pairs e.key items)
          show _ = ((s.step e).doneFor p).map _
          by_cases hkey : e.key = p
          · subst hkey
            rw [Node.relayStepAt_eq_some.mpr hs', Option.isSome_some, if_pos rfl, hnew, hitems,
              List.map_append]
          · have hother : t.relayStepAt p l = none := by
              simp [Node.relayStepAt, hs', hkey]
            rw [hother, (s.step_of_ne hkey).2]
            exact List.append_nil _

/-- With the relay client on, the outcome of a run at a peer follows from its steps there. -/
theorem Run.relay_outcome {count : L.State → PeerId → Nat} (hcount : CountsConnections L count)
    {config : NodeConfig} (hrelay : config.enableRelayClient = true) {n₀ n m : Node L}
    {ρ π : List (Transition.Trans (Node L) (Label Req Resp))} (hs : Started L config n₀)
    (hρ : Run L n₀ ρ n) (h : Run L n π m) {p : PeerId} {steps : List RelayStep}
    (hsteps : relaySteps p π = steps) :
    let s := (Deferred.Store.empty.run (config.relayEvents ++ relayEvents ρ)).run
      (RelayStep.events config.protocolVersion p (n.loop.swarm.isConnected p) steps)
    requestsFor p (ρ ++ π) = (s.doneFor p).map (EventLoop.relayAddr p) ∧
      m.loop.bootstrapPeers p = s.waiting p := by
  have htied := hs.relayTied hcount hrelay
  obtain ⟨hclient, hversion⟩ := Run.relay_settings hρ
  obtain ⟨_, hevents⟩ := Run.relayEvents_filter hcount h (hclient.trans htied.relayClient) p
  rw [hsteps, hversion, htied.protocolVersion] at hevents
  have hrun : config.relayEvents ++ relayEvents (ρ ++ π) =
      (config.relayEvents ++ relayEvents ρ) ++ relayEvents π := by
    rw [relayEvents, List.filterMap_append, List.append_assoc]
    rfl
  obtain ⟨hwaiting, hdone⟩ := Deferred.Store.run_filter
    (Deferred.Store.empty.run (config.relayEvents ++ relayEvents ρ)) (relayEvents π) p
  rw [hevents] at hwaiting hdone
  refine ⟨?_, ?_⟩
  · rw [Run.requestsFor_eq hs (hρ.append h), hrun, Deferred.Store.run_append, hdone]
  · rw [(Run.defers_started hs (hρ.append h)).waiting, hrun, Deferred.Store.run_append, hwaiting]

/-! ### Three orders -/

/-- Registered earlier, a peer that identifies itself with the node's own protocol version
ends as one that is registered later; any other peer does not, unless nothing is
registered. -/
theorem registration_commutes_iff {count : L.State → PeerId → Nat}
    (hcount : CountsConnections L count) {config : NodeConfig}
    (hrelay : config.enableRelayClient = true) {n₀ n before between after : Node L}
    {ρ π₁ π₂ π₃ : List (Transition.Trans (Node L) (Label Req Resp))}
    (hs : Started L config n₀) (hρ : Run L n₀ ρ n) {p : PeerId} {addrs : List Multiaddr}
    {info : IdentifyInfo} (hapart : n.loop.swarm.isConnected p = false)
    (h₁ : Run L n π₁ before) (h₂ : Run L n π₂ between) (h₃ : Run L n π₃ after)
    (hbefore : relaySteps p π₁ = [.register addrs, .connect, .identify info])
    (hbetween : relaySteps p π₂ = [.connect, .register addrs, .identify info])
    (hafter : relaySteps p π₃ = [.connect, .identify info, .register addrs]) :
    (SameRelayOutcome p (ρ ++ π₁) (ρ ++ π₂) before between ∧
        SameRelayOutcome p (ρ ++ π₂) (ρ ++ π₃) between after) ↔
      info.protocolVersion = config.protocolVersion ∨
        (addrs = [] ∧ (n.loop.bootstrapPeers p).isSome = true) := by
  obtain ⟨hdone₁, hwaiting₁⟩ := Run.relay_outcome hcount hrelay hs hρ h₁ hbefore
  obtain ⟨hdone₂, hwaiting₂⟩ := Run.relay_outcome hcount hrelay hs hρ h₂ hbetween
  obtain ⟨hdone₃, hwaiting₃⟩ := Run.relay_outcome hcount hrelay hs hρ h₃ hafter
  have hkept := congrFun (Run.defers_started hs hρ).waiting p
  generalize Deferred.Store.empty.run (config.relayEvents ++ relayEvents ρ) = s at *
  rw [hapart] at hdone₁ hwaiting₁ hdone₂ hwaiting₂ hdone₃ hwaiting₃
  by_cases hv : info.protocolVersion = config.protocolVersion
  · simp only [RelayStep.events, RelayStep.event?, RelayStep.connects, hv, if_true,
      Option.toList_some, Option.toList_none, List.nil_append, List.cons_append,
      Deferred.Store.run_cons, Deferred.Store.run_nil, Deferred.Store.submit_now_doneFor,
      Deferred.Store.submit_now_kept, Deferred.Store.submit_now_waiting,
      Deferred.Store.submit_later_doneFor, Deferred.Store.submit_later_kept,
      Deferred.Store.serve_doneFor, Deferred.Store.serve_waiting, List.map_append]
      at hdone₁ hwaiting₁ hdone₂ hwaiting₂ hdone₃ hwaiting₃
    refine iff_of_true ⟨⟨fun circuit => ?_, ?_⟩, ⟨fun circuit => ?_, ?_⟩⟩ (.inl hv)
    · rw [hdone₁, hdone₂]
      simp only [List.mem_append]
      tauto
    · rw [hwaiting₁, hwaiting₂]
    · rw [hdone₂, hdone₃]
      simp only [List.mem_append]
      tauto
    · rw [hwaiting₂, hwaiting₃]
  · simp only [RelayStep.events, RelayStep.event?, RelayStep.connects, hv, if_false,
      Option.toList_some, Option.toList_none, List.nil_append, List.append_nil,
      Deferred.Store.run_cons, Deferred.Store.run_nil, Deferred.Store.submit_now_doneFor,
      Deferred.Store.submit_now_waiting, Deferred.Store.submit_later_doneFor,
      Deferred.Store.submit_later_waiting, List.map_append]
      at hdone₁ hwaiting₁ hdone₂ hwaiting₂ hdone₃ hwaiting₃
    have hlast : SameRelayOutcome p (ρ ++ π₂) (ρ ++ π₃) between after :=
      ⟨fun _ => by rw [hdone₂, hdone₃], by rw [hwaiting₂, hwaiting₃]⟩
    constructor
    · rintro ⟨hfirst, _⟩
      have hentry : some (s.kept p ++ addrs) = s.waiting p := by
        rw [← hwaiting₁, ← hwaiting₂]
        exact hfirst.kept
      have hsame : s.kept p ++ addrs = s.kept p := congrArg (Option.getD · []) hentry
      refine .inr ⟨List.append_right_eq_self.mp hsame, ?_⟩
      rw [hkept, ← hentry]
      rfl
    · rintro (hmatch | ⟨rfl, hentry⟩)
      · exact absurd hmatch hv
      · rw [hkept] at hentry
        obtain ⟨kept, hsome⟩ := Option.isSome_iff_exists.mp hentry
        refine ⟨⟨fun _ => by rw [hdone₁, hdone₂]; simp, ?_⟩, hlast⟩
        rw [hwaiting₁, hwaiting₂, hsome, List.append_nil, Deferred.Store.kept, hsome]
        rfl

/-! ### A relay of another version -/

namespace Loopback

def otherInfo : IdentifyInfo := ⟨"/other/1.0.0", "agent", [], []⟩

def beforeSteps (info : IdentifyInfo) :
    List (Transition.Trans (Node counting) (Label String String)) :=
  registerSteps openNode 0 ++ upSteps (registered openNode 0) ++
    identifiedSteps info (up (registered openNode 0))

def betweenSteps (info : IdentifyInfo) :
    List (Transition.Trans (Node counting) (Label String String)) :=
  upSteps openNode ++ registerSteps (up openNode) 0 ++
    identifiedSteps info (registered (up openNode) 0)

def afterSteps (info : IdentifyInfo) :
    List (Transition.Trans (Node counting) (Label String String)) :=
  upSteps openNode ++ identifiedSteps info (up openNode) ++
    registerSteps (identified info (up openNode)) 0

theorem before_run (info : IdentifyInfo) :
    Run counting openNode (beforeSteps info) (identified info (up (registered openNode 0))) :=
  ((registered_run 0 rfl (by decide) rfl rfl).append
    (up_run rfl (.inr ⟨by decide, rfl⟩) rfl rfl)).append (identified_run info rfl rfl rfl)

theorem between_run (info : IdentifyInfo) :
    Run counting openNode (betweenSteps info) (identified info (registered (up openNode) 0)) :=
  ((up_run rfl (.inl rfl) rfl rfl).append (registered_run 0 rfl (by decide) rfl rfl)).append
    (identified_run info rfl rfl rfl)

end Loopback

open Loopback in
/-- Registered before its connection, the relay of another version is never asked; connected
before its registration, it is asked at once. -/
theorem registration_order_matters :
    ∃ (n m m' : Node counting)
      (π π' : List (Transition.Trans (Node counting) (Label String String))),
      openConfig.enableRelayClient = true ∧ Started counting openConfig n ∧
        n.loop.swarm.isConnected peer = false ∧ Run counting n π m ∧ Run counting n π' m' ∧
        relaySteps peer π = [.register [relayAddress], .connect, .identify otherInfo] ∧
        relaySteps peer π' = [.connect, .register [relayAddress], .identify otherInfo] ∧
        ¬SameRelayOutcome peer π π' m m' := by
  refine ⟨openNode, _, _, beforeSteps otherInfo, betweenSteps otherInfo, rfl, openStarted, rfl,
    before_run otherInfo, between_run otherInfo, rfl, rfl, fun h => ?_⟩
  exact absurd h.kept (by decide)

open Loopback in
/-- With the node's own version the three orders end alike. -/
theorem registration_commutes_iff_own :
    SameRelayOutcome peer (beforeSteps relayInfo) (betweenSteps relayInfo)
        (identified relayInfo (up (registered openNode 0)))
        (identified relayInfo (registered (up openNode) 0)) ∧
      SameRelayOutcome peer (betweenSteps relayInfo) (afterSteps relayInfo)
        (identified relayInfo (registered (up openNode) 0))
        (registered (identified relayInfo (up openNode)) 0) := by
  have hafter : Run counting openNode (afterSteps relayInfo)
      (registered (identified relayInfo (up openNode)) 0) :=
    ((up_run rfl (.inl rfl) rfl rfl).append (identified_run relayInfo rfl rfl rfl)).append
      (registered_run 0 rfl (by decide) rfl rfl)
  exact (registration_commutes_iff counting_counts rfl openStarted .nil rfl
    (before_run relayInfo) (between_run relayInfo) hafter rfl rfl rfl).mpr (.inl rfl)

end SwarmP2p
