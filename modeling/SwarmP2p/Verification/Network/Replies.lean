import SwarmP2p.Verification.Call.Connection
import SwarmP2p.Verification.Network.Agreement
import SwarmP2p.Verification.Query.Answers

/-! # Calls that wait for a response

A request is answered by the first event that comes from its peer under its own id, the
response or a failure, and by nothing else. -/

namespace SwarmP2p

variable {Req Resp : Type} {L : Libp2p Req Resp}

/-- What an event says to who waits for this peer's response under this id. -/
def SwarmEvent.reply? (peerId : PeerId) (requestId : OutboundRequestId) :
    SwarmEvent Req Resp → Option (Result (Output Resp))
  | .behaviour (.reqResp (.response peer id response)) =>
      if id = requestId ∧ peer = peerId then some (.ok (.response response)) else none
  | .behaviour (.reqResp (.outboundFailure peer id error)) =>
      if id = requestId ∧ peer = peerId then some (.error (mapOutboundFailure error)) else none
  | _ => none

/-- A command that the events do not change answers the first one that it has an answer to. -/
theorem Command.alone_eq_findSome? {c : Command Req Resp} (hk : c.kind = .tracked)
    (hsame : ∀ event, (c.onEvent L event).handler = c) (events : List (SwarmEvent Req Resp)) :
    c.alone L events = events.findSome? (c.verdict? L) := by
  induction events with
  | nil => rfl
  | cons event events ih =>
      have hkeep := (tracked_spec L hk event).keep_iff
      rw [alone, List.findSome?_cons, verdict?]
      cases hf : (c.onEvent L event).finished with
      | some r => rfl
      | none => rw [if_pos (hkeep.mpr hf), hsame, ih]

namespace SendRequestCommand

/-- The command once the request has been sent. -/
def sent (peerId : PeerId) (requestId : OutboundRequestId) : SendRequestCommand Req :=
  ⟨peerId, none, some requestId⟩

theorem sent_verdict? (peerId : PeerId) (requestId : OutboundRequestId)
    (event : SwarmEvent Req Resp) :
    (Command.sendRequest (sent peerId requestId)).verdict? L event =
      event.reply? peerId requestId := by
  have hown : ∀ id peer, ((sent peerId requestId : SendRequestCommand Req).requestId = some id ∧
      peer = (sent peerId requestId : SendRequestCommand Req).peerId) ↔
      id = requestId ∧ peer = peerId := fun id peer => by simp [sent, eq_comm]
  cases event with
  | behaviour event =>
      cases event with
      | reqResp event =>
          cases event with
          | response peer id response =>
              simp only [Command.verdict?, Command.onEvent, onEvent, hown, SwarmEvent.reply?]
              split <;> rfl
          | outboundFailure peer id error =>
              simp only [Command.verdict?, Command.onEvent, onEvent, hown, SwarmEvent.reply?]
              split <;> rfl
          | _ => rfl
      | _ => rfl
  | _ => rfl

/-- By itself the command waits for the reply. -/
theorem runAlone_eq (peerId : PeerId) (request : Req) (id : HandleId) (swarm : Swarm L)
    (ρ : List (Transition.Trans (Node L) (Label Req Resp))) :
    (Command.sendRequest (.new peerId request)).runAlone swarm
        (ownEvents ((⟨.sendRequest (.new peerId request), id⟩ : Task Req Resp).own swarm) ρ) =
      (swarmEvents ρ).findSome?
        (SwarmEvent.reply? peerId (swarm.sendRequest peerId request).2) := by
  let requestId := (swarm.sendRequest peerId request).2
  let waiting : Command Req Resp := .sendRequest (sent peerId requestId)
  have hsame : ∀ event, (waiting.onEvent L event).handler = waiting := fun event =>
    congrArg Command.sendRequest (onEvent_handler (sent peerId requestId) event)
  have hown : waiting.alone L (ownEvents (some (.request requestId)) ρ) =
      waiting.alone L (swarmEvents ρ) := by
    rw [ownEvents_eq_filter]
    exact (Command.alone_filter rfl rfl (swarmEvents ρ)).symm
  rw [← funext (sent_verdict? (L := L) peerId requestId)]
  exact hown.trans (Command.alone_eq_findSome? rfl hsame (swarmEvents ρ))

end SendRequestCommand

/-- Once its command has run, a request is answered by the first reply from its peer under
the id that libp2p gave it, whatever else goes on in between. -/
theorem requests_answered {config : NodeConfig} {n m : Node L} {peerId : PeerId}
    {request : Req} {id : HandleId} {ρ : List (Transition.Trans (Node L) (Label Req Resp))}
    {c : ClientCall Req Resp} (hr : Reachable L config n)
    (hp : n.phase = .running ⟨.sendRequest (.new peerId request), id⟩)
    (h : Run L (n.handleCommand ⟨.sendRequest (.new peerId request), id⟩) ρ m)
    (hids : m.loop.swarm.ids.Nodup) (hc : m.calls id = some c) (hd : c.phase ≠ .dropped) :
    (m.handles id).outcomes =
        ((swarmEvents ρ).findSome?
          (SwarmEvent.reply? peerId (n.loop.swarm.sendRequest peerId request).2)).toList ∧
      ∀ r, c.phase = .ready r →
        (swarmEvents ρ).findSome?
          (SwarmEvent.reply? peerId (n.loop.swarm.sendRequest peerId request).2) = some r := by
  have houtcomes : (m.handles id).outcomes = ((swarmEvents ρ).findSome?
      (SwarmEvent.reply? peerId (n.loop.swarm.sendRequest peerId request).2)).toList := by
    rw [← SendRequestCommand.runAlone_eq peerId request id]
    exact Run.outcomes_alone hr hp rfl h hids hc hd
  exact ⟨houtcomes, fun r hready =>
    Reachable.ready_eq ((hr.next (.handleCommand hp)).path h) hc hready houtcomes⟩

open Loopback in
theorem requests_answered_replied :
    [(.behaviour (.reqResp (.response answerer ⟨0⟩ "response")) :
        SwarmEvent String String)].findSome? (SwarmEvent.reply? answerer ⟨0⟩) =
      some (.ok (.response "response")) := by
  have hsteps : Run loopback (node []) (askSteps.take 4) askReceived :=
    (((Transition.Path.single (Step.openCall _ (by decide) rfl)).snoc
      (.firstPoll 0 rfl rfl)).snoc (.sweep rfl)).snoc (.recvCommand rfl rfl)
  have hrun : Run loopback (askReceived.handleCommand askTask)
      [⟨askReceived.handleCommand askTask, .sweep, asked⟩,
        ⟨asked, .swarmEvent (.behaviour (.reqResp (.response answerer ⟨0⟩ "response"))), replied⟩,
        ⟨replied, .handlePoll 0, replyReady⟩] replyReady :=
    ((Transition.Path.single (.sweep rfl)).snoc
      (.swarmEvent rfl rfl ⟨List.nodup_nil, fun _ => .rfl⟩)).snoc (.handlePoll rfl rfl)
  have hp : askReceived.phase = .running ⟨.sendRequest (.new answerer "request"), 0⟩ := rfl
  exact (requests_answered ((reachable []).path hsteps) hp hrun (by decide) rfl (by simp)).2 _ rfl

end SwarmP2p
