import SwarmP2p.Library.Transition
import SwarmP2p.Model.DataChannel
import SwarmP2p.Model.EventLoop

/-! # The node

The event loop, the calls that clients have in progress, the task that consumes node
events, and the data channels, with every atomic step that one of them can take. Steps
of different parties interleave freely. -/

namespace SwarmP2p

/-! ## Calls -/

/-- A call of a `NetClient` method that goes through the command loop. -/
inductive Call (Req Resp : Type) where
  | dial (peerId : PeerId)
  | isConnected (peerId : PeerId)
  | disconnect (peerId : PeerId)
  | getAddrs
  | addPeerAddrs (peerId : PeerId) (addrs : List Multiaddr)
  | addInfrastructurePeer (peerId : PeerId) (addrs : List Multiaddr)
      (roles : InfrastructureRoles)
  | sendRequest (peerId : PeerId) (request : Req)
  | sendResponse (pendingId : Nat) (response : Resp)
  | bootstrap
  | getRecord (key : RecordKey)
  | putRecord (record : Record)
  | getProviders (key : RecordKey)
  | getClosestPeers (key : RecordKey)
  | startProvide (key : RecordKey)
  | stopProvide (key : RecordKey)
  | removeRecord (key : RecordKey)

/-- How far a call has come. -/
inductive CallPhase (Req Resp : Type) where
  /-- A `CommandFuture` that still holds its handler. -/
  | created (command : Command Req Resp)
  /-- Inside `poll`: the command is sent, the handle not polled yet. -/
  | polling (waker : Waker)
  /-- The last poll returned `Pending`. -/
  | pending
  /-- A poll of the handle returned `Ready`. -/
  | ready (result : Result (Output Resp))
  /-- `try_send` failed: the first poll returned `Ready` with an error, and the command
  was dropped unsent. -/
  | refused (command : Command Req Resp)
  /-- The method returned an error before it made a `CommandFuture`. -/
  | failed (error : Error)
  | dropped

/-- A call with its arguments; `taken` is what `send_response` took from the pending
map. -/
structure ClientCall (Req Resp : Type) where
  call : Call Req Resp
  taken : Option ResponseChannel
  phase : CallPhase Req Resp

def commandChannelClosed : Error := .behaviour "command channel closed"

/-- What the call has returned to its caller. -/
def CallPhase.answer {Req Resp : Type} : CallPhase Req Resp → Option (Result (Output Resp))
  | .ready result => some result
  | .refused _ => some (.error commandChannelClosed)
  | .failed error => some (.error error)
  | _ => none

/-- Polled at least once, not ready, not dropped. -/
def CallPhase.Waiting {Req Resp : Type} : CallPhase Req Resp → Prop
  | .polling _ => True
  | .pending => True
  | _ => False

/-- A `CommandFuture` keeps a clone of the sender until it is dropped. -/
def CallPhase.HoldsSender {Req Resp : Type} : CallPhase Req Resp → Prop
  | .failed _ => False
  | .dropped => False
  | _ => True

/-! ## The state -/

/-- Where the event loop stands. -/
inductive LoopPhase (Req Resp : Type) where
  /-- At the head of the loop, before cancelled commands are removed. -/
  | top
  /-- In `select!`. -/
  | selecting
  /-- In `handle_command`. -/
  | running (task : Task Req Resp)
  /-- About to poll `event_tx.send`. -/
  | sending (event : NodeEvent Req)
  /-- Suspended in `event_tx.send`. -/
  | suspended (event : NodeEvent Req)
  | terminated

/-- The task that owns the `EventReceiver`. -/
inductive Frontend where
  | receiving
  /-- Between two receptions. -/
  | handling
  /-- In `await` on a call, between two receptions. -/
  | awaiting (id : HandleId)
  /-- The receiver is dropped. -/
  | closed
  deriving DecidableEq, Repr

structure Node {Req Resp : Type} (L : Libp2p Req Resp) where
  loop : EventLoop L
  phase : LoopPhase Req Resp
  calls : HandleId → Option (ClientCall Req Resp)
  handles : HandleId → ResultState (Output Resp)
  clients : Nat
  frontend : Frontend
  dataChannels : DataChannels
  now : Nat

variable {Req Resp : Type} {L : Libp2p Req Resp}

/-- `node::start`, for a swarm that was built in state `state`. -/
def start (L : Libp2p Req Resp) (config : NodeConfig) (state : L.State) : Result (Node L) :=
  let lanHelper := match config.infrastructureMode with
    | .lanHelper c => some c
    | .off => none
  let loop : EventLoop L :=
    { swarm := ⟨state, config.enableRelayClient, lanHelper.isSome, []⟩
      commandRx := .new _
      eventTx := .new _
      activeCommands := []
      protocolVersion := config.protocolVersion
      pendingChannels := .new config.reqRespTimeout
      pendingIdCounter := 0
      bootstrapPeers := fun _ => none
      enableRelayClient := config.enableRelayClient
      lanHelper := lanHelper
      advertisedLanAddrs := [] }
  match loop.startListen config.listenAddrs with
  | .error e => .error e
  | .ok loop =>
      .ok
        { loop := loop.connectBootstrapPeers config.bootstrapPeers
          phase := .top
          calls := fun _ => none
          handles := fun _ => {}
          clients := 1
          frontend := .receiving
          dataChannels := .new config.dataChannelLimits
          now := 0 }

/-- The calls of `handle.finish` in a list, in order. -/
def finishAll (handles : HandleId → ResultState (Output Resp))
    (results : List (HandleId × Result (Output Resp))) : HandleId → ResultState (Output Resp) :=
  results.foldl (fun hs x => Function.update hs x.1 ((hs x.1).finish x.2)) handles

theorem finishAll_append (handles : HandleId → ResultState (Output Resp))
    (rs qs : List (HandleId × Result (Output Resp))) :
    finishAll handles (rs ++ qs) = finishAll (finishAll handles rs) qs :=
  List.foldl_append

namespace Call

/-- The command of the method, which `send_response` makes from the channel it takes. -/
def command : Call Req Resp → Option ResponseChannel → Option (Command Req Resp)
  | .dial p, _ => some (.dial ⟨p⟩)
  | .isConnected p, _ => some (.isConnected ⟨p⟩)
  | .disconnect p, _ => some (.disconnect ⟨p⟩)
  | .getAddrs, _ => some (.getListenAddrs {})
  | .addPeerAddrs p addrs, _ => some (.addPeerAddrs ⟨p, addrs⟩)
  | .addInfrastructurePeer p addrs roles, _ =>
      some (.addInfrastructurePeer (.new p addrs roles))
  | .sendRequest p request, _ => some (.sendRequest (.new p request))
  | .sendResponse _ response, channel =>
      channel.map (fun channel => .sendResponse (.new channel response))
  | .bootstrap, _ => some (.bootstrap .new)
  | .getRecord key, _ => some (.getRecord (.new key))
  | .putRecord record, _ => some (.putRecord (.new record))
  | .getProviders key, _ => some (.getProviders (.new key))
  | .getClosestPeers key, _ => some (.getClosestPeers (.new key))
  | .startProvide key, _ => some (.startProvide (.new key))
  | .stopProvide key, _ => some (.stopProvide ⟨key⟩)
  | .removeRecord key, _ => some (.removeRecord ⟨key⟩)

/-- What the method takes from the pending map before it makes its command. -/
def take (m : PendingMap Nat ResponseChannel) :
    Call Req Resp → Option ResponseChannel × PendingMap Nat ResponseChannel
  | .sendResponse pendingId _ => m.take pendingId
  | _ => (none, m)

/-- The error of `send_response` for an id that is not in the map. -/
def noPendingChannel : Call Req Resp → Error
  | .sendResponse pendingId _ => .requestResponse ("No pending channel for pending_id=" ++
      toString pendingId ++ " (expired or already responded)")
  | _ => .requestResponse ""

/-- The call as its method leaves it when the future is made. -/
def opened (call : Call Req Resp) (taken : Option ResponseChannel) : ClientCall Req Resp :=
  ⟨call, taken,
    match call.command taken with
    | some command => .created command
    | none => .failed call.noPendingChannel⟩

theorem opened_phase (call : Call Req Resp) (taken : Option ResponseChannel) :
    (∃ command, call.command taken = some command ∧
        (call.opened taken).phase = .created command) ∨
      (call.command taken = none ∧
        (call.opened taken).phase = .failed call.noPendingChannel) := by
  cases h : call.command taken with
  | some command => exact .inl ⟨command, rfl, by simp [opened, h]⟩
  | none => exact .inr ⟨rfl, by simp [opened, h]⟩

end Call

namespace Node

/-! ### Callers -/

/-- A method of `NetClient` up to the point where its `CommandFuture` exists. -/
def openCall (n : Node L) (id : HandleId) (call : Call Req Resp) : Node L :=
  let (taken, pendingChannels) := call.take n.loop.pendingChannels
  { n with
    loop := { n.loop with pendingChannels := pendingChannels }
    calls := Function.update n.calls id (some (call.opened taken))
    handles := Function.update n.handles id {} }

def setPhase (n : Node L) (id : HandleId) (c : ClientCall Req Resp)
    (phase : CallPhase Req Resp) : Node L :=
  { n with calls := Function.update n.calls id (some { c with phase := phase }) }

/-- The first half of the first `CommandFuture::poll`: `try_send`. -/
def firstPoll (n : Node L) (id : HandleId) (c : ClientCall Req Resp)
    (command : Command Req Resp) (waker : Waker) : Node L :=
  match n.loop.commandRx.trySend ⟨command, id⟩ with
  | .ok commandRx =>
      { n with loop := { n.loop with commandRx := commandRx } }.setPhase id c (.polling waker)
  | .error _ => n.setPhase id c (.refused command)

theorem firstPoll_of_accepts (n : Node L) (id : HandleId) (c : ClientCall Req Resp)
    (command : Command Req Resp) (waker : Waker) (ha : n.loop.commandRx.Accepts) :
    n.firstPoll id c command waker =
      { n with
        loop := { n.loop with commandRx := n.loop.commandRx.push ⟨command, id⟩ ha.2 }
      }.setPhase id c (.polling waker) := by
  rw [firstPoll, Channel.trySend_of_accepts _ ha]

theorem firstPoll_of_not_accepts (n : Node L) (id : HandleId) (c : ClientCall Req Resp)
    (command : Command Req Resp) (waker : Waker) (ha : ¬n.loop.commandRx.Accepts) :
    n.firstPoll id c command waker = n.setPhase id c (.refused command) := by
  obtain ⟨e, he⟩ := Channel.trySend_of_not_accepts (⟨command, id⟩ : Task Req Resp) ha
  rw [firstPoll, he]

theorem firstPoll_phase (n : Node L) (id : HandleId) (c : ClientCall Req Resp)
    (command : Command Req Resp) (waker : Waker) :
    (n.firstPoll id c command waker).phase = n.phase := by
  unfold firstPoll
  split <;> rfl

theorem firstPoll_clients (n : Node L) (id : HandleId) (c : ClientCall Req Resp)
    (command : Command Req Resp) (waker : Waker) :
    (n.firstPoll id c command waker).clients = n.clients := by
  unfold firstPoll
  split <;> rfl

theorem firstPoll_pendingChannels (n : Node L) (id : HandleId) (c : ClientCall Req Resp)
    (command : Command Req Resp) (waker : Waker) :
    (n.firstPoll id c command waker).loop.pendingChannels = n.loop.pendingChannels := by
  unfold firstPoll
  split <;> rfl

theorem firstPoll_calls_of_ne (n : Node L) {id id' : HandleId} (c : ClientCall Req Resp)
    (command : Command Req Resp) (waker : Waker) (h : id' ≠ id) :
    (n.firstPoll id c command waker).calls id' = n.calls id' := by
  unfold firstPoll
  split <;> exact Function.update_of_ne h _ _

/-- The second half of every poll: `self.handle.poll(cx)`. -/
def handlePoll (n : Node L) (id : HandleId) (c : ClientCall Req Resp) (waker : Waker) :
    Node L :=
  let (handle, poll) := (n.handles id).poll waker
  { n with handles := Function.update n.handles id handle }.setPhase id c
    (match poll with
      | .ready result => .ready result
      | .pending => .pending)

/-- Dropping the call: `CommandFuture::drop` marks the handle. -/
def dropCall (n : Node L) (id : HandleId) (c : ClientCall Req Resp) : Node L :=
  { n with handles := Function.update n.handles id (n.handles id).cancel }.setPhase id c .dropped

/-- No `NetClient` and no `CommandFuture` is left. -/
def NoSenders (n : Node L) : Prop :=
  n.clients = 0 ∧ ∀ id c, n.calls id = some c → ¬c.phase.HoldsSender

/-! ### Event loop -/

/-- `active_commands.retain(|cmd| !cmd.is_cancelled())`. -/
def sweep (n : Node L) : Node L :=
  { n with
    loop := { n.loop with
      activeCommands := n.loop.activeCommands.filter
        (fun t => !(n.handles t.handle).cancelled) }
    phase := .selecting }

def handleCommand (n : Node L) (task : Task Req Resp) : Node L :=
  let r := task.command.run n.loop.swarm
  let (command, request) := r.handler.takeRelayReservationRequest
  let loop := { n.loop with swarm := r.swarm }.scheduleRelayReservations request
  { n with
    loop := { loop with activeCommands := loop.activeCommands ++ [⟨command, task.handle⟩] }
    handles := finishAll n.handles (r.finished.map (fun x => (task.handle, x))).toList
    phase := .top }

/-- `handle_swarm_event` up to the point where it sends the node event. -/
def handleSwarmEvent (n : Node L) (order : List PeerId) (event : SwarmEvent Req Resp) :
    Node L :=
  let d := Chain.dispatch (Task.onEvent L) n.loop.activeCommands event
  let loop := { n.loop with activeCommands := d.commands }
  let n := { n with handles := finishAll n.handles d.output }
  match d.remaining with
  | none => { n with loop := loop, phase := .top }
  | some event =>
      let (loop, nodeEvent) := loop.convertToNodeEvent n.now order event
      { n with
        loop := loop
        phase := match nodeEvent with
          | some nodeEvent => .sending nodeEvent
          | none => .top }

/-- The swarm in the state in which it returned an event. -/
def withSwarmState (n : Node L) (state : L.State) : Node L :=
  { n with loop := { n.loop with swarm := { n.loop.swarm with state := state } } }

/-- A poll of `event_tx.send(event)`. With the receiver gone it fails, and the failure is
ignored. -/
def pollSend (n : Node L) (event : NodeEvent Req) : Node L :=
  match n.loop.eventTx.trySend event with
  | .ok eventTx => { n with loop := { n.loop with eventTx := eventTx }, phase := .top }
  | .error .closed => { n with phase := .top }
  | .error .full => { n with phase := .suspended event }

/-- `command_rx.recv()` returned `None`: `run` returns and drops the loop. -/
def shutdown (n : Node L) : Node L :=
  { n with
    loop := { n.loop with commandRx := n.loop.commandRx.closeRx, activeCommands := [] }
    phase := .terminated }

end Node

/-! ## Steps -/

inductive Label (Req Resp : Type) where
  | cloneClient
  | dropClient
  | openCall (id : HandleId) (call : Call Req Resp)
  | firstPoll (id : HandleId) (waker : Waker)
  | handlePoll (id : HandleId)
  | pollAgain (id : HandleId) (waker : Waker)
  | dropCall (id : HandleId)
  | sweep
  | recvCommand
  | handleCommand
  | swarmEvent (event : SwarmEvent Req Resp)
  | inboundChannel (protocol : StreamProtocol) (peer : PeerId) (stream : Stream)
  | beginSend
  | resumeSend
  | shutdown
  | recvEvent
  | awaitCall (id : HandleId)
  | callDone
  | nextEvent
  | dropReceiver
  | tick (duration : Nat)
  | purge
  | dataChannel (label : DataChannelLabel)

/-- The steps of the node. A `NetClient` is alive while a method is called on it. -/
inductive Step : Node L → Label Req Resp → Node L → Prop where
  | cloneClient {n : Node L} (h : 0 < n.clients) :
      Step n .cloneClient { n with clients := n.clients + 1 }
  | dropClient {n : Node L} (h : 0 < n.clients) :
      Step n .dropClient { n with clients := n.clients - 1 }
  | openCall {n : Node L} {id} (call) (hc : 0 < n.clients) (h : n.calls id = none) :
      Step n (.openCall id call) (n.openCall id call)
  | firstPoll {n : Node L} {id c command} (waker) (h : n.calls id = some c)
      (hp : c.phase = .created command) :
      Step n (.firstPoll id waker) (n.firstPoll id c command waker)
  | handlePoll {n : Node L} {id c waker} (h : n.calls id = some c)
      (hp : c.phase = .polling waker) : Step n (.handlePoll id) (n.handlePoll id c waker)
  | pollAgain {n : Node L} {id c} (waker) (h : n.calls id = some c) (hp : c.phase = .pending) :
      Step n (.pollAgain id waker) (n.setPhase id c (.polling waker))
  | dropCall {n : Node L} {id c} (h : n.calls id = some c)
      (hp : ∀ waker, c.phase ≠ .polling waker) : Step n (.dropCall id) (n.dropCall id c)
  | sweep {n : Node L} (hp : n.phase = .top) : Step n .sweep n.sweep
  | recvCommand {n : Node L} {task commandRx} (hp : n.phase = .selecting)
      (h : n.loop.commandRx.tryRecv = some (task, commandRx)) :
      Step n .recvCommand
        { n with loop := { n.loop with commandRx := commandRx }, phase := .running task }
  | handleCommand {n : Node L} {task} (hp : n.phase = .running task) :
      Step n .handleCommand (n.handleCommand task)
  | swarmEvent {n : Node L} {event state order} (hp : n.phase = .selecting)
      (h : L.next n.loop.swarm.state event state) (ho : IterationOrder event order) :
      Step n (.swarmEvent event) ((n.withSwarmState state).handleSwarmEvent order event)
  | inboundChannel {n : Node L} (protocol peer stream) (hp : n.phase = .selecting) :
      Step n (.inboundChannel protocol peer stream)
        { n with
          dataChannels := n.dataChannels.handleInboundChannel protocol peer stream
          phase := .top }
  | beginSend {n : Node L} {event} (hp : n.phase = .sending event) :
      Step n .beginSend (n.pollSend event)
  | resumeSend {n : Node L} {event} (hp : n.phase = .suspended event)
      (h : n.loop.eventTx.trySend event ≠ .error .full) : Step n .resumeSend (n.pollSend event)
  | shutdown {n : Node L} (hp : n.phase = .selecting) (hq : n.loop.commandRx.queue = [])
      (hs : n.NoSenders) : Step n .shutdown n.shutdown
  | recvEvent {n : Node L} {event eventTx} (hf : n.frontend = .receiving)
      (h : n.loop.eventTx.tryRecv = some (event, eventTx)) :
      Step n .recvEvent
        { n with loop := { n.loop with eventTx := eventTx }, frontend := .handling }
  | awaitCall {n : Node L} {id c command} (hf : n.frontend = .handling)
      (h : n.calls id = some c) (hp : c.phase = .created command) :
      Step n (.awaitCall id) { n with frontend := .awaiting id }
  | callDone {n : Node L} {id c} (hf : n.frontend = .awaiting id) (h : n.calls id = some c)
      (hp : c.phase.answer.isSome ∨ c.phase = .dropped) :
      Step n .callDone { n with frontend := .handling }
  | nextEvent {n : Node L} (hf : n.frontend = .handling) :
      Step n .nextEvent { n with frontend := .receiving }
  | dropReceiver {n : Node L} (hf : n.frontend ≠ .closed) :
      Step n .dropReceiver
        { n with
          loop := { n.loop with eventTx := n.loop.eventTx.closeRx }
          frontend := .closed }
  | tick {n : Node L} (duration) : Step n (.tick duration) { n with now := n.now + duration }
  | purge {n : Node L} :
      Step n .purge
        { n with
          loop := { n.loop with
            pendingChannels := (n.loop.pendingChannels.purgeExpired n.now).1 } }
  | dataChannel {n : Node L} {label dataChannels}
      (hl : ∀ protocol peer stream, label ≠ .inbound protocol peer stream)
      (h : DataChannelStep n.dataChannels label dataChannels) :
      Step n (.dataChannel label) { n with dataChannels := dataChannels }

/-- The nodes that `start` returns for a configuration. -/
def Started (L : Libp2p Req Resp) (config : NodeConfig) (n : Node L) : Prop :=
  ∃ state, L.Initial state ∧ start L config state = .ok n

abbrev Run (L : Libp2p Req Resp) :
    Node L → List (Transition.Trans (Node L) (Label Req Resp)) → Node L → Prop :=
  Transition.Path Step

/-- The states of all runs of a node. -/
abbrev Reachable (L : Libp2p Req Resp) (config : NodeConfig) : Node L → Prop :=
  Transition.Reachable (Started L config) Step

end SwarmP2p
