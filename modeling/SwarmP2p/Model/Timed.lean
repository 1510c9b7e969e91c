import SwarmP2p.Model.Node

/-! # Requests with a timeout

`send_request_with_options` puts the call under a `tokio::time::timeout` when the options
have one. A poll of it polls the call first, and asks the timer only if the call is not
ready; when the time is up, the call is dropped. Without a timeout the method is
`send_request`. -/

namespace SwarmP2p

structure RequestOptions where
  timeout : Option Nat := none

/-- The timer of a call. -/
inductive Timer where
  | armed (deadline : Nat)
  /-- The call was not ready, and the same poll asks the timer next. -/
  | asked (deadline : Nat)
  /-- The method has returned `NetworkFailureKind::Timeout`. -/
  | elapsed (deadline : Nat)
  deriving DecidableEq, Repr

structure TimedNode {Req Resp : Type} (L : Libp2p Req Resp) where
  node : Node L
  timer : HandleId → Option Timer

inductive TimedLabel (Req Resp : Type) where
  | node (label : Label Req Resp)
  | sendRequest (id : HandleId) (peerId : PeerId) (request : Req) (options : RequestOptions)
  | waits (id : HandleId)
  | elapses (id : HandleId)

variable {Req Resp : Type} {L : Libp2p Req Resp}

/-- The call whose future a step polls or drops. -/
def Label.future? : Label Req Resp → Option HandleId
  | .firstPoll id _ | .handlePoll id | .pollAgain id _ | .dropCall id => some id
  | _ => none

namespace TimedNode

def setTimer (t : TimedNode L) (id : HandleId) (timer : Option Timer) : TimedNode L :=
  { t with timer := Function.update t.timer id timer }

/-- What the method has returned. -/
def answer (t : TimedNode L) (id : HandleId) : Option (Result (Output Resp)) :=
  match t.timer id with
  | some (.elapsed _) => some (.error (.network .timeout))
  | _ => (t.node.calls id).bind fun c => c.phase.answer

end TimedNode

inductive TimedStep : TimedNode L → TimedLabel Req Resp → TimedNode L → Prop where
  | node {t : TimedNode L} {l m} (h : Step t.node l m)
      (hfree : ∀ id, l.future? = some id → t.timer id = none) :
      TimedStep t (.node l) { t with node := m }
  | sendRequest {t : TimedNode L} {id m} (peerId request) (options : RequestOptions)
      (h : Step t.node (.openCall id (.sendRequest peerId request)) m) :
      TimedStep t (.sendRequest id peerId request options)
        ({ t with node := m }.setTimer id
          (options.timeout.map fun timeout => .armed (t.node.now + timeout)))
  | poll {t : TimedNode L} {id deadline l m} (ht : t.timer id = some (.armed deadline))
      (hl : l.future? = some id) (hne : l ≠ .handlePoll id) (h : Step t.node l m) :
      TimedStep t (.node l) { t with node := m }
  | ready {t : TimedNode L} {id deadline m} (ht : t.timer id = some (.armed deadline))
      (h : Step t.node (.handlePoll id) m)
      (hp : ∃ c r, m.calls id = some c ∧ c.phase = .ready r) :
      TimedStep t (.node (.handlePoll id)) { t with node := m }
  | pending {t : TimedNode L} {id deadline c m} (ht : t.timer id = some (.armed deadline))
      (h : Step t.node (.handlePoll id) m) (hc : m.calls id = some c) (hp : c.phase = .pending) :
      TimedStep t (.node (.handlePoll id))
        ({ t with node := m }.setTimer id (some (.asked deadline)))
  | waits {t : TimedNode L} {id deadline} (ht : t.timer id = some (.asked deadline))
      (hd : t.node.now < deadline) :
      TimedStep t (.waits id) (t.setTimer id (some (.armed deadline)))
  | elapses {t : TimedNode L} {id deadline m} (ht : t.timer id = some (.asked deadline))
      (hd : deadline ≤ t.node.now) (h : Step t.node (.dropCall id) m) :
      TimedStep t (.elapses id) ({ t with node := m }.setTimer id (some (.elapsed deadline)))

structure TimedStarted (L : Libp2p Req Resp) (config : NodeConfig) (t : TimedNode L) :
    Prop where
  node : Started L config t.node
  timer (id) : t.timer id = none

abbrev TimedRun (L : Libp2p Req Resp) :
    TimedNode L → List (Transition.Trans (TimedNode L) (TimedLabel Req Resp)) → TimedNode L →
      Prop :=
  Transition.Path TimedStep

end SwarmP2p
