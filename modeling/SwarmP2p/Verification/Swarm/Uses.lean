import SwarmP2p.Model.EventLoop
import SwarmP2p.Verification.Swarm.Calls

/-! # Which calls a stretch of code may make

`Uses P s t` is the swarm going from `s` to `t` by calls that `P` allows. A stretch of
code is described once by the calls that it may make; what holds of the log, of the two
flags and of the library's state follows from that. -/

namespace SwarmP2p

variable {Req Resp : Type} {L : Libp2p Req Resp}

namespace Swarm

inductive Uses (P : SwarmCall Resp → Prop) (s : Swarm L) : Swarm L → Prop where
  | refl : Uses P s s
  | dial {t} (h : Uses P s t) (peerId) (hp : ∀ accepted, P (.dial peerId accepted)) :
      Uses P s (t.dial peerId).1
  | disconnectPeerId {t} (h : Uses P s t) (peerId)
      (hp : ∀ accepted, P (.disconnectPeerId peerId accepted)) :
      Uses P s (t.disconnectPeerId peerId).1
  | listenOn {t} (h : Uses P s t) (addr) (hp : ∀ accepted, P (.listenOn addr accepted)) :
      Uses P s (t.listenOn addr).1
  | addPeerAddress {t} (h : Uses P s t) (peerId addr) (hp : P (.addPeerAddress peerId addr)) :
      Uses P s (t.addPeerAddress peerId addr)
  | addExternalAddress {t} (h : Uses P s t) (addr) (hp : P (.addExternalAddress addr)) :
      Uses P s (t.addExternalAddress addr)
  | sendRequest {t} (h : Uses P s t) (peerId request) (hp : ∀ id, P (.sendRequest peerId id)) :
      Uses P s (t.sendRequest peerId request).1
  | sendResponse {t} (h : Uses P s t) (channel response)
      (hp : ∀ accepted, P (.sendResponse channel response accepted)) :
      Uses P s (t.sendResponse channel response).1
  | kadAddAddress {t} (h : Uses P s t) (peerId addr) (hp : P (.kadAddAddress peerId addr)) :
      Uses P s (t.kadAddAddress peerId addr)
  | kadBootstrap {t} (h : Uses P s t) (hp : ∀ id, P (.kadQuery id)) : Uses P s t.kadBootstrap.1
  | kadGetRecord {t} (h : Uses P s t) (key) (hp : ∀ id, P (.kadQuery id)) :
      Uses P s (t.kadGetRecord key).1
  | kadPutRecord {t} (h : Uses P s t) (record) (hp : ∀ id, P (.kadQuery id)) :
      Uses P s (t.kadPutRecord record).1
  | kadGetProviders {t} (h : Uses P s t) (key) (hp : ∀ id, P (.kadQuery id)) :
      Uses P s (t.kadGetProviders key).1
  | kadGetClosestPeers {t} (h : Uses P s t) (key) (hp : ∀ id, P (.kadQuery id)) :
      Uses P s (t.kadGetClosestPeers key).1
  | kadStartProviding {t} (h : Uses P s t) (key) (hp : ∀ id, P (.kadQuery id)) :
      Uses P s (t.kadStartProviding key).1
  | kadStopProviding {t} (h : Uses P s t) (key) (hp : P (.kadStopProviding key)) :
      Uses P s (t.kadStopProviding key)
  | kadRemoveRecord {t} (h : Uses P s t) (key) (hp : P (.kadRemoveRecord key)) :
      Uses P s (t.kadRemoveRecord key)

namespace Uses

variable {P Q : SwarmCall Resp → Prop} {s t u : Swarm L}

/-- A longer stretch, whose second part was described more closely. -/
theorem extend (h : Uses P s t) (k : Uses Q t u) (hq : ∀ call, Q call → P call) : Uses P s u := by
  induction k with
  | refl => exact h
  | dial _ peerId hp ih => exact ih.dial peerId fun _ => hq _ (hp _)
  | disconnectPeerId _ peerId hp ih => exact ih.disconnectPeerId peerId fun _ => hq _ (hp _)
  | listenOn _ addr hp ih => exact ih.listenOn addr fun _ => hq _ (hp _)
  | addPeerAddress _ peerId addr hp ih => exact ih.addPeerAddress peerId addr (hq _ hp)
  | addExternalAddress _ addr hp ih => exact ih.addExternalAddress addr (hq _ hp)
  | sendRequest _ peerId request hp ih => exact ih.sendRequest peerId request fun _ => hq _ (hp _)
  | sendResponse _ channel response hp ih =>
      exact ih.sendResponse channel response fun _ => hq _ (hp _)
  | kadAddAddress _ peerId addr hp ih => exact ih.kadAddAddress peerId addr (hq _ hp)
  | kadBootstrap _ hp ih => exact ih.kadBootstrap fun _ => hq _ (hp _)
  | kadGetRecord _ key hp ih => exact ih.kadGetRecord key fun _ => hq _ (hp _)
  | kadPutRecord _ record hp ih => exact ih.kadPutRecord record fun _ => hq _ (hp _)
  | kadGetProviders _ key hp ih => exact ih.kadGetProviders key fun _ => hq _ (hp _)
  | kadGetClosestPeers _ key hp ih => exact ih.kadGetClosestPeers key fun _ => hq _ (hp _)
  | kadStartProviding _ key hp ih => exact ih.kadStartProviding key fun _ => hq _ (hp _)
  | kadStopProviding _ key hp ih => exact ih.kadStopProviding key (hq _ hp)
  | kadRemoveRecord _ key hp ih => exact ih.kadRemoveRecord key (hq _ hp)

theorem trans (h : Uses P s t) (k : Uses P t u) : Uses P s u := h.extend k fun _ hp => hp

theorem mono (h : Uses Q s t) (hq : ∀ call, Q call → P call) : Uses P s t :=
  Uses.refl.extend h hq

theorem foldl {α : Type} {f : Swarm L → α → Swarm L} (l : List α)
    (h : ∀ s, ∀ a ∈ l, Uses P s (f s a)) (s : Swarm L) : Uses P s (l.foldl f s) := by
  induction l generalizing s with
  | nil => exact .refl
  | cons a l ih =>
      exact (h s a (List.mem_cons_self ..)).trans
        (ih (fun s a ha => h s a (List.mem_cons_of_mem _ ha)) (f s a))

/-- The log of a query that may not start. -/
theorem startQuery_calls (s : Swarm L) (r : L.State × Except String QueryId) :
    ∃ log, (s.startQuery r).1.calls = s.calls ++ log ∧ ∀ call ∈ log, ∃ id, call = .kadQuery id := by
  unfold startQuery
  split
  · exact ⟨[_], rfl, fun call hc => ⟨_, List.mem_singleton.mp hc⟩⟩
  · exact ⟨[], (List.append_nil _).symm, fun _ hc => (by cases hc)⟩

theorem startQuery_flags (s : Swarm L) (r : L.State × Except String QueryId) :
    (s.startQuery r).1.relayClient = s.relayClient ∧
      (s.startQuery r).1.relayServer = s.relayServer ∧ (s.startQuery r).1.state = r.1 := by
  unfold startQuery
  split <;> exact ⟨rfl, rfl, rfl⟩

theorem calls (h : Uses P s t) : ∃ log, t.calls = s.calls ++ log ∧ ∀ call ∈ log, P call := by
  have hrecord : ∀ {t : Swarm L} (state : L.State) (call : SwarmCall Resp), P call →
      (∃ log, t.calls = s.calls ++ log ∧ ∀ call ∈ log, P call) →
        ∃ log, (t.record state call).calls = s.calls ++ log ∧ ∀ call ∈ log, P call := by
    rintro t state call hcall ⟨log, hlog, hall⟩
    refine ⟨log ++ [call], by simp [record, hlog], ?_⟩
    intro c hc
    rcases List.mem_append.mp hc with hc | hc
    · exact hall c hc
    · exact List.mem_singleton.mp hc ▸ hcall
  have hquery : ∀ {t : Swarm L} (r : L.State × Except String QueryId),
      (∀ id, P (.kadQuery id)) → (∃ log, t.calls = s.calls ++ log ∧ ∀ call ∈ log, P call) →
        ∃ log, (t.startQuery r).1.calls = s.calls ++ log ∧ ∀ call ∈ log, P call := by
    rintro t r hid ⟨log, hlog, hall⟩
    obtain ⟨more, hmore, hmall⟩ := startQuery_calls t r
    refine ⟨log ++ more, by rw [hmore, hlog, List.append_assoc], ?_⟩
    intro c hc
    rcases List.mem_append.mp hc with hc | hc
    · exact hall c hc
    · obtain ⟨id, rfl⟩ := hmall c hc
      exact hid id
  induction h with
  | refl => exact ⟨[], (List.append_nil _).symm, fun _ hc => (by cases hc)⟩
  | dial _ peerId hp ih => exact hrecord _ _ (hp _) ih
  | disconnectPeerId _ peerId hp ih => exact hrecord _ _ (hp _) ih
  | listenOn _ addr hp ih => exact hrecord _ _ (hp _) ih
  | addPeerAddress _ peerId addr hp ih => exact hrecord _ _ hp ih
  | addExternalAddress _ addr hp ih => exact hrecord _ _ hp ih
  | sendRequest _ peerId request hp ih => exact hrecord _ _ (hp _) ih
  | sendResponse _ channel response hp ih => exact hrecord _ _ (hp _) ih
  | kadAddAddress _ peerId addr hp ih => exact hrecord _ _ hp ih
  | kadBootstrap _ hp ih => exact hquery _ hp ih
  | kadGetRecord _ key hp ih => exact hrecord _ _ (hp _) ih
  | kadPutRecord _ record hp ih => exact hquery _ hp ih
  | kadGetProviders _ key hp ih => exact hrecord _ _ (hp _) ih
  | kadGetClosestPeers _ key hp ih => exact hrecord _ _ (hp _) ih
  | kadStartProviding _ key hp ih => exact hquery _ hp ih
  | kadStopProviding _ key hp ih => exact hrecord _ _ hp ih
  | kadRemoveRecord _ key hp ih => exact hrecord _ _ hp ih

theorem relayClient_eq (h : Uses P s t) : t.relayClient = s.relayClient := by
  induction h with
  | refl => rfl
  | kadBootstrap _ _ ih => exact (startQuery_flags _ _).1.trans ih
  | kadPutRecord _ _ _ ih => exact (startQuery_flags _ _).1.trans ih
  | kadStartProviding _ _ _ ih => exact (startQuery_flags _ _).1.trans ih
  | _ => assumption

theorem of_fst {α : Type} {r : Swarm L × α} {a : α} (h : Uses P s r.1) (heq : r = (t, a)) :
    Uses P s t := by
  rwa [heq] at h

/-- A call in the log was there before or was allowed. -/
theorem mem_calls (h : Uses P s t) {call : SwarmCall Resp} (hc : call ∈ t.calls) :
    call ∈ s.calls ∨ P call := by
  obtain ⟨log, hlog, hall⟩ := h.calls
  rw [hlog] at hc
  exact (List.mem_append.mp hc).imp_right (hall call)

/-- A part of the log that no allowed call belongs to is left as it is. -/
theorem filterMap_calls {α : Type} (h : Uses P s t) {f : SwarmCall Resp → Option α}
    (hf : ∀ call, P call → f call = none) : t.calls.filterMap f = s.calls.filterMap f := by
  obtain ⟨log, hlog, hall⟩ := h.calls
  have hnone : log.filterMap f = [] :=
    List.filterMap_eq_nil_iff.mpr fun call hc => hf call (hall call hc)
  rw [hlog, List.filterMap_append, hnone, List.append_nil]

end Uses

theorem Kept.of_uses {s t : Swarm L} (h : Uses SwarmCall.Housekeeping s t) : Kept s t := h.calls

end Swarm

/-! ### Commands -/

/-- The calls that a command may make in `run`, as far as they tell one command from
another: none registers an external address or listens, and only one fills the Kad
table. -/
def Command.MayCall (self : Command Req Resp) : SwarmCall Resp → Prop
  | .listenOn _ _ => False
  | .addExternalAddress _ => False
  | .kadAddAddress peerId addr =>
      ∃ c, self = .addInfrastructurePeer c ∧ c.roles.kadServer = true ∧ c.peerId = peerId ∧
        addr ∈ c.addrs
  | _ => True

theorem AddInfrastructurePeerCommand.register_uses {P : SwarmCall Resp → Prop}
    (self : AddInfrastructurePeerCommand) (swarm : Swarm L) {addr : Multiaddr}
    (hadd : P (.addPeerAddress self.peerId addr))
    (hkad : self.roles.kadServer = true → P (.kadAddAddress self.peerId addr)) :
    Swarm.Uses P swarm (self.register swarm addr) := by
  unfold register
  dsimp only
  split
  · rename_i hserver
    exact (Swarm.Uses.refl.addPeerAddress _ _ hadd).kadAddAddress _ _ (hkad hserver)
  · exact Swarm.Uses.refl.addPeerAddress _ _ hadd

theorem DialCommand.run_uses {P : SwarmCall Resp → Prop} (self : DialCommand) (swarm : Swarm L)
    (hp : ∀ accepted, P (.dial self.peerId accepted)) :
    Swarm.Uses P swarm (self.run swarm).swarm := by
  have hdial := (Swarm.Uses.refl (s := swarm)).dial self.peerId hp
  unfold run
  split
  · exact .refl
  · split
    · exact hdial.of_fst (by assumption)
    · exact hdial.of_fst (by assumption)

theorem DisconnectCommand.run_uses {P : SwarmCall Resp → Prop} (self : DisconnectCommand)
    (swarm : Swarm L) (hp : ∀ accepted, P (.disconnectPeerId self.peerId accepted)) :
    Swarm.Uses P swarm (self.run swarm).swarm := by
  have hcall := (Swarm.Uses.refl (s := swarm)).disconnectPeerId self.peerId hp
  unfold run
  split
  · exact hcall.of_fst (by assumption)
  · exact hcall.of_fst (by assumption)

theorem AddPeerAddrsCommand.run_uses {P : SwarmCall Resp → Prop} (self : AddPeerAddrsCommand)
    (swarm : Swarm L) (hp : ∀ addr, P (.addPeerAddress self.peerId addr)) :
    Swarm.Uses P swarm (self.run swarm).swarm :=
  .foldl _ (fun _ addr _ => Swarm.Uses.refl.addPeerAddress _ _ (hp addr)) _

theorem AddInfrastructurePeerCommand.run_uses (self : AddInfrastructurePeerCommand)
    (swarm : Swarm L) :
    Swarm.Uses (Command.addInfrastructurePeer self : Command Req Resp).MayCall swarm
      (self.run swarm).swarm := by
  have hregister : Swarm.Uses (Command.addInfrastructurePeer self : Command Req Resp).MayCall
      swarm (self.addrs.foldl self.register swarm) :=
    .foldl _ (fun s addr h => self.register_uses s trivial fun hkad =>
      ⟨self, rfl, hkad, rfl, h⟩) _
  simp only [run]
  split
  · split
    · exact hregister
    · exact hregister.dial _ fun _ => trivial
  · split
    · exact hregister
    · exact hregister.dial _ fun _ => trivial

theorem SendRequestCommand.run_uses {P : SwarmCall Resp → Prop} (self : SendRequestCommand Req)
    (swarm : Swarm L) (hp : ∀ id, P (.sendRequest self.peerId id)) :
    Swarm.Uses P swarm (self.run swarm).swarm := by
  unfold run
  split
  · exact .refl
  · exact Swarm.Uses.refl.sendRequest _ _ hp

theorem SendResponseCommand.run_uses {P : SwarmCall Resp → Prop}
    (self : SendResponseCommand Resp) (swarm : Swarm L)
    (hp : ∀ channel response accepted, P (.sendResponse channel response accepted)) :
    Swarm.Uses P swarm (self.run swarm).swarm := by
  unfold run
  split
  · rename_i channel response _ _
    have hcall := (Swarm.Uses.refl (s := swarm)).sendResponse channel response (hp _ _)
    split
    · exact hcall.of_fst (by assumption)
    · exact hcall.of_fst (by assumption)
  · exact .refl

theorem Command.run_uses (self : Command Req Resp) (swarm : Swarm L) :
    Swarm.Uses self.MayCall swarm (self.run swarm).swarm := by
  cases self with
  | dial c => exact c.run_uses swarm fun _ => trivial
  | disconnect c => exact c.run_uses swarm fun _ => trivial
  | addPeerAddrs c => exact c.run_uses swarm fun _ => trivial
  | addInfrastructurePeer c => exact c.run_uses swarm
  | sendRequest c => exact c.run_uses swarm fun _ => trivial
  | sendResponse c => exact c.run_uses swarm fun _ _ _ => trivial
  | bootstrap c =>
      simp only [run, BootstrapCommand.run]
      split <;> exact (Swarm.Uses.refl.kadBootstrap fun _ => trivial).of_fst (by assumption)
  | getRecord c => exact Swarm.Uses.refl.kadGetRecord _ fun _ => trivial
  | putRecord c =>
      simp only [run, PutRecordCommand.run]
      split <;> exact (Swarm.Uses.refl.kadPutRecord _ fun _ => trivial).of_fst (by assumption)
  | getProviders c => exact Swarm.Uses.refl.kadGetProviders _ fun _ => trivial
  | getClosestPeers c => exact Swarm.Uses.refl.kadGetClosestPeers _ fun _ => trivial
  | startProvide c =>
      simp only [run, StartProvideCommand.run]
      split <;> exact (Swarm.Uses.refl.kadStartProviding _ fun _ => trivial).of_fst (by assumption)
  | stopProvide c => exact Swarm.Uses.refl.kadStopProviding _ trivial
  | removeRecord c => exact Swarm.Uses.refl.kadRemoveRecord _ trivial
  | isConnected c => exact .refl
  | getListenAddrs c => exact .refl

end SwarmP2p
