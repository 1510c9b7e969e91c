import SwarmP2p.Verification.Node.Causes

/-! # The addresses that libp2p is told

What the swarm's address book and the routing table of Kad are told about the peers is, in
order and without repetition or omission, what the configuration, the commands and the
events of the run say. -/

namespace SwarmP2p

variable {Req Resp : Type} {L : Libp2p Req Resp}

/-- An address of a peer, for the address book of the swarm or for the routing table. -/
inductive AddressEntry where
  | swarm (peerId : PeerId) (addr : Multiaddr)
  | kad (peerId : PeerId) (addr : Multiaddr)
  deriving DecidableEq, Repr

namespace AddressEntry

/-- `kad.add_address`, then `add_peer_address`. -/
def both (peerId : PeerId) (addr : Multiaddr) : List AddressEntry :=
  [.kad peerId addr, .swarm peerId addr]

end AddressEntry

def SwarmCall.entry? : SwarmCall Resp → Option AddressEntry
  | .addPeerAddress peerId addr => some (.swarm peerId addr)
  | .kadAddAddress peerId addr => some (.kad peerId addr)
  | _ => none

/-- The addresses that libp2p has been told, oldest first. -/
def Swarm.entries (s : Swarm L) : List AddressEntry := s.calls.filterMap SwarmCall.entry?

/-- The addresses that a command brings. -/
def Command.entries : Command Req Resp → List AddressEntry
  | .addPeerAddrs c => c.addrs.map (.swarm c.peerId)
  | .addInfrastructurePeer c =>
      c.addrs.flatMap fun addr =>
        if c.roles.kadServer then [.swarm c.peerId addr, .kad c.peerId addr]
        else [.swarm c.peerId addr]
  | _ => []

/-- The addresses that an event brings to a node with this protocol version. -/
def SwarmEvent.entries (protocolVersion : String) : SwarmEvent Req Resp → List AddressEntry
  | .behaviour (.mdnsDiscovered peers) => peers.map fun entry => .swarm entry.1 entry.2
  | .behaviour (.identifyReceived p info) =>
      if info.protocolVersion = protocolVersion then
        info.listenAddrs.flatMap (AddressEntry.both p)
      else []
  | .behaviour (.kad (.routingUpdated p addresses)) => addresses.map (.swarm p)
  | _ => []

/-- The addresses that a step brings. -/
def entriesOf (config : NodeConfig) (x : Transition.Trans (Node L) (Label Req Resp)) :
    List AddressEntry :=
  match x.label, x.pre.phase with
  | .handleCommand, .running task => task.command.entries
  | .swarmEvent event, _ => event.entries config.protocolVersion
  | _, _ => []

/-! ### The swarm -/

namespace Swarm

theorem Uses.entries_eq {P : SwarmCall Resp → Prop} {s t : Swarm L} (h : Uses P s t)
    (hp : ∀ call, P call → call.entry? = none) : t.entries = s.entries :=
  h.filterMap_calls hp

@[simp] theorem addPeerAddress_entries (s : Swarm L) (p : PeerId) (addr : Multiaddr) :
    (s.addPeerAddress p addr).entries = s.entries ++ [.swarm p addr] :=
  List.filterMap_append

@[simp] theorem kadAddAddress_entries (s : Swarm L) (p : PeerId) (addr : Multiaddr) :
    (s.kadAddAddress p addr).entries = s.entries ++ [.kad p addr] :=
  List.filterMap_append

@[simp] theorem dial_entries (s : Swarm L) (p : PeerId) : (s.dial p).1.entries = s.entries :=
  (Uses.refl.dial p (P := fun call => call.entry? = none) fun _ => rfl).entries_eq fun _ h => h

theorem foldl_entries {α : Type} {f : Swarm L → α → Swarm L} {g : α → List AddressEntry}
    (hf : ∀ s x, (f s x).entries = s.entries ++ g x) (xs : List α) (s : Swarm L) :
    (xs.foldl f s).entries = s.entries ++ xs.flatMap g := by
  induction xs generalizing s with
  | nil => exact (List.append_nil _).symm
  | cons x xs ih => rw [List.foldl_cons, ih, hf, List.flatMap_cons, List.append_assoc]

end Swarm

/-! ### Commands -/

theorem AddInfrastructurePeerCommand.register_entries (self : AddInfrastructurePeerCommand)
    (swarm : Swarm L) (addr : Multiaddr) :
    (self.register swarm addr).entries = swarm.entries ++
      if self.roles.kadServer then [.swarm self.peerId addr, .kad self.peerId addr]
      else [.swarm self.peerId addr] := by
  unfold register
  dsimp only
  split
  · rw [Swarm.kadAddAddress_entries, Swarm.addPeerAddress_entries, List.append_assoc]
    rfl
  · rw [Swarm.addPeerAddress_entries]

/-- A command of a call brings what it was made with. -/
theorem Call.run_entries (config : NodeConfig) {call : Call Req Resp}
    {taken : Option ResponseChannel} {command : Command Req Resp}
    (h : call.command taken = some command) (swarm : Swarm L) :
    (command.run swarm).swarm.entries = swarm.entries ++ command.entries := by
  have hasks := Call.run_asks config h swarm
  cases call with
  | addPeerAddrs p addrs =>
      cases h
      have hfold := Swarm.foldl_entries (L := L) (fun s addr => s.addPeerAddress_entries p addr)
        addrs swarm
      rwa [← List.map_eq_flatMap] at hfold
  | addInfrastructurePeer p addrs roles =>
      cases h
      have hfold := Swarm.foldl_entries (L := L)
        (AddInfrastructurePeerCommand.register_entries (.new p addrs roles)) addrs swarm
      simp only [Command.run, AddInfrastructurePeerCommand.run]
      split
      · split
        · exact hfold
        · exact (Swarm.dial_entries _ _).trans hfold
      · split
        · exact hfold
        · exact (Swarm.dial_entries _ _).trans hfold
  | sendResponse pendingId response =>
      obtain ⟨channel, rfl, rfl⟩ := Option.map_eq_some_iff.mp h
      refine (hasks.entries_eq fun call hcall => ?_).trans (List.append_nil _).symm
      cases call <;> first | rfl | exact hcall.elim
  | _ =>
      cases h
      refine (hasks.entries_eq fun call hcall => ?_).trans (List.append_nil _).symm
      cases call <;> first | rfl | exact hcall.elim

/-! ### The code of the loop -/

namespace EventLoop

theorem registerListenAddr_entries (p : PeerId) (swarm : Swarm L) (addr : Multiaddr) :
    (registerListenAddr p swarm addr).entries = swarm.entries ++ AddressEntry.both p addr := by
  rw [registerListenAddr, Swarm.addPeerAddress_entries, Swarm.kadAddAddress_entries,
    List.append_assoc]
  rfl

theorem requestRelayReservations_entries (self : EventLoop L) (p : PeerId)
    (addrs : List Multiaddr) :
    (self.requestRelayReservations p addrs).swarm.entries = self.swarm.entries :=
  (self.requestRelayReservations_uses (P := fun call => call.entry? = none) p addrs
    fun _ _ => rfl).swarm.entries_eq fun _ h => h

theorem handleIdentify_entries (self : EventLoop L) (p : PeerId) (info : IdentifyInfo) :
    (self.handleIdentify p info).swarm.entries = self.swarm.entries ++
      if info.protocolVersion = self.protocolVersion then
        info.listenAddrs.flatMap (AddressEntry.both p)
      else [] := by
  simp only [handleIdentify]
  split
  · have hregistered := Swarm.foldl_entries (L := L) (registerListenAddr_entries p)
      info.listenAddrs self.swarm
    split
    · exact hregistered
    · rw [requestRelayReservations_entries]
      exact hregistered
  · exact (List.append_nil _).symm

theorem handleDiscovered_entries (self : EventLoop L) (order : List PeerId)
    (peers : List (PeerId × Multiaddr)) :
    (self.handleDiscovered order peers).swarm.entries =
      self.swarm.entries ++ peers.map fun entry => .swarm entry.1 entry.2 := by
  have hfold := Swarm.foldl_entries (L := L)
    (fun s (entry : PeerId × Multiaddr) => s.addPeerAddress_entries entry.1 entry.2) peers
    self.swarm
  rw [← List.map_eq_flatMap] at hfold
  rw [← hfold]
  exact (Swarm.Uses.foldl order (fun s p _ => dialDiscovered_uses
    (P := fun call => call.entry? = none) s p fun _ => rfl) _).entries_eq fun _ h => h

theorem convertToNodeEvent_entries (self : EventLoop L) (now : Nat) (order : List PeerId)
    (event : SwarmEvent Req Resp) :
    (self.convertToNodeEvent now order event).1.swarm.entries =
      self.swarm.entries ++ event.entries self.protocolVersion := by
  cases event with
  | behaviour event =>
      simp only [convertToNodeEvent]
      unfold convertBehaviourEvent
      split
      all_goals try exact (List.append_nil _).symm
      · exact self.handleDiscovered_entries order _
      · exact self.handleIdentify_entries _ _
      · rename_i peer addresses
        have hfold := Swarm.foldl_entries (L := L)
          (fun s addr => s.addPeerAddress_entries peer addr) addresses self.swarm
        rwa [← List.map_eq_flatMap] at hfold
      · -- No other event brings addresses.
        refine Eq.trans (List.append_nil _).symm (congrArg _ ?_)
        unfold SwarmEvent.entries
        split <;> simp_all
  | newListenAddr addr =>
      refine Eq.trans ?_ (List.append_nil _).symm
      exact (self.maybeAnnounceLanHelperAddr_asks (P := fun call => call.entry? = none) addr
        fun _ _ => rfl).entries_eq fun _ h => h
  | _ => exact (List.append_nil _).symm

end EventLoop

/-! ### Steps and runs -/

/-- An event that a command consumes brings no addresses. -/
theorem SwarmEvent.entries_of_consumed {active : List (Task Req Resp)}
    (event : SwarmEvent Req Resp) {version : String}
    (h : (Chain.dispatch (Task.onEvent L) active event).remaining = none) :
    event.entries version = [] := by
  cases hid : event.id? with
  | none =>
      rw [dispatch_remaining active hid] at h
      cases h
  | some id =>
      unfold SwarmEvent.id? at hid
      split at hid
      · rfl
      · rfl
      · rfl
      · cases hid

theorem EventLoop.startListen_entries {self loop : EventLoop L} {addrs : List Multiaddr}
    (h : self.startListen addrs = .ok loop) : loop.swarm.entries = self.swarm.entries :=
  (EventLoop.startListen_uses (P := fun call => call.entry? = none) h
    fun _ _ => rfl).swarm.entries_eq fun _ h => h

theorem EventLoop.connectBootstrapPeers_entries (self : EventLoop L)
    (peers : List (PeerId × Multiaddr)) :
    (self.connectBootstrapPeers peers).swarm.entries =
      self.swarm.entries ++ peers.flatMap fun entry => AddressEntry.both entry.1 entry.2 := by
  unfold connectBootstrapPeers
  induction peers generalizing self with
  | nil => exact (List.append_nil _).symm
  | cons entry peers ih =>
      have hentry : (self.connectBootstrapPeer entry).swarm.entries =
          self.swarm.entries ++ AddressEntry.both entry.1 entry.2 := by
        have hregistered := registerListenAddr_entries entry.1 self.swarm entry.2
        simp only [connectBootstrapPeer]
        split
        · exact (Swarm.dial_entries _ _).trans hregistered
        · exact (Swarm.dial_entries _ _).trans hregistered
      rw [List.foldl_cons, ih, hentry, List.flatMap_cons, List.append_assoc]

theorem Started.entries {config : NodeConfig} {n : Node L} (h : Started L config n) :
    n.loop.swarm.entries =
      config.bootstrapPeers.flatMap fun entry => AddressEntry.both entry.1 entry.2 := by
  obtain ⟨first, loop, heq, hloop, hcalls, _⟩ := h.built
  have hempty : first.swarm.entries = [] := by rw [Swarm.entries, hcalls, List.filterMap_nil]
  have hlistened := (EventLoop.startListen_entries heq).trans hempty
  rw [hloop, loop.connectBootstrapPeers_entries, hlistened, List.nil_append]

theorem Step.entries {config : NodeConfig} {n m : Node L} {l : Label Req Resp}
    (hr : Reachable L config n) (h : Step n l m) :
    m.loop.swarm.entries = n.loop.swarm.entries ++ entriesOf config ⟨n, l, m⟩ := by
  cases h with
  | @handleCommand task hp =>
      obtain ⟨loop, huses, heq⟩ := n.handleCommand_loop task
      obtain ⟨c, _, hcommand⟩ := hr.made task (n.running_unrun hp)
      have hrequests : loop.swarm.entries = (task.command.run n.loop.swarm).swarm.entries := by
        refine huses.swarm.entries_eq fun call hlisten => ?_
        obtain ⟨_, _, rfl⟩ := hlisten
        rfl
      rw [heq, entriesOf, hp]
      exact hrequests.trans (Call.run_entries config hcommand n.loop.swarm)
  | @swarmEvent event state order hp h ho =>
      show _ = _ ++ event.entries config.protocolVersion
      rcases (n.withSwarmState state).handleSwarmEvent_cases order event with
        ⟨hconsumed, heq⟩ | ⟨_, heq⟩
      · rw [event.entries_of_consumed hconsumed, heq]
        exact (List.append_nil _).symm
      · have hversion : n.loop.protocolVersion = config.protocolVersion :=
          (Reachable.configured hr).protocolVersion
        rw [heq, ← hversion]
        exact EventLoop.convertToNodeEvent_entries _ _ _ _
  | @firstPoll id c command waker h hp =>
      rw [(n.firstPoll_swarm id c command waker).1]
      exact (List.append_nil _).symm
  | beginSend hp =>
      rw [(n.pollSend_swarm _).1]
      exact (List.append_nil _).symm
  | resumeSend hp h =>
      rw [(n.pollSend_swarm _).1]
      exact (List.append_nil _).symm
  | _ => exact (List.append_nil _).symm

/-- What libp2p has been told about addresses is what the bootstrap entries say, and then
what the steps of the run bring, one after the other: the commands that the loop runs, and
the events, of which an Identify counts only with the node's own protocol version. -/
theorem addresses_accounted {config : NodeConfig} {n m : Node L}
    {π : List (Transition.Trans (Node L) (Label Req Resp))} (hs : Started L config n)
    (h : Run L n π m) :
    m.loop.swarm.entries =
      (config.bootstrapPeers.flatMap fun entry => AddressEntry.both entry.1 entry.2) ++
        π.flatMap (entriesOf config) := by
  induction h with
  | nil => exact hs.entries.trans (List.append_nil _).symm
  | @snoc π a l b hp hstep ih =>
      have ha : Reachable L config a := ⟨n, π, hs, hp⟩
      rw [hstep.entries ha, ih, List.flatMap_append, List.flatMap_singleton, List.append_assoc]

open Loopback in
/-- The registration of a relay brings its address. -/
theorem addresses_accounted_once : once.loop.swarm.entries = [.swarm peer relayAddress] :=
  (addresses_accounted openStarted once_run).trans rfl

end SwarmP2p
