import SwarmP2p.Model.Node

/-! # A network of nodes

Every peer runs a node. What one of them hands to libp2p for another may be lost or may
overtake what was handed over before, but it arrives once at most, and a response arrives
where its request came from. All other events of the swarms come as `Libp2p` lets them. -/

namespace SwarmP2p

/-- A request that a node has handed to libp2p, and the call that it did so for. -/
structure Ask (Req : Type) where
  call : HandleId
  target : PeerId
  id : OutboundRequestId
  request : Req

/-- A request that has arrived, the channel on which libp2p takes its answer, and the id
under which the node has announced it. -/
structure Arrival (Req : Type) where
  source : PeerId
  id : OutboundRequestId
  request : Req
  channel : ResponseChannel
  pendingId : Nat

/-- A response that has come back. -/
structure Reply (Resp : Type) where
  source : PeerId
  id : OutboundRequestId
  response : Resp

structure Network {Req Resp : Type} (L : Libp2p Req Resp) where
  node : PeerId → Node L
  asked : PeerId → List (Ask Req)
  arrived : PeerId → List (Arrival Req)
  replied : PeerId → List (Reply Resp)

variable {Req Resp : Type} {L : Libp2p Req Resp}

/-- The event comes from another peer through the request-response protocol. -/
def Label.IsMessage : Label Req Resp → Prop
  | .swarmEvent (.behaviour (.reqResp (.request _ _ _))) => True
  | .swarmEvent (.behaviour (.reqResp (.response _ _ _))) => True
  | _ => False

/-- The request that a step hands to libp2p. -/
def Node.asks? (n : Node L) : Label Req Resp → Option (Ask Req)
  | .handleCommand =>
      match n.phase with
      | .running ⟨.sendRequest ⟨peerId, some request, _⟩, handle⟩ =>
          some ⟨handle, peerId, (n.loop.swarm.sendRequest peerId request).2, request⟩
      | _ => none
  | _ => none

inductive NetworkLabel (Req Resp : Type) where
  | own (peer : PeerId) (label : Label Req Resp)
  | request (source : PeerId) (ask : Ask Req) (channel : ResponseChannel)
  | response (target : PeerId) (arrival : Arrival Req) (response : Resp)

inductive NetworkStep : Network L → NetworkLabel Req Resp → Network L → Prop where
  | own {N : Network L} {p label m} (h : Step (N.node p) label m) (hl : ¬label.IsMessage) :
      NetworkStep N (.own p label)
        { N with
          node := Function.update N.node p m
          asked := Function.update N.asked p (N.asked p ++ ((N.node p).asks? label).toList) }
  | request {N : Network L} {source ask channel pendingId m} (ha : ask ∈ N.asked source)
      (hnew : ∀ x ∈ N.arrived ask.target, x.source = source → x.id ≠ ask.id)
      (hchannel : ∀ x ∈ N.arrived ask.target, x.channel ≠ channel)
      (h : Step (N.node ask.target)
        (.swarmEvent (.behaviour (.reqResp (.request source ask.request channel)))) m)
      (hp : m.phase = .sending (.inboundRequest source pendingId ask.request)) :
      NetworkStep N (.request source ask channel)
        { N with
          node := Function.update N.node ask.target m
          arrived := Function.update N.arrived ask.target (N.arrived ask.target ++
            [⟨source, ask.id, ask.request, channel, pendingId⟩]) }
  | response {N : Network L} {target x response m} (hx : x ∈ N.arrived target)
      (hs : .sendResponse x.channel response true ∈ (N.node target).loop.swarm.calls)
      (hnew : ∀ r ∈ N.replied x.source, r.source = target → r.id ≠ x.id)
      (h : Step (N.node x.source)
        (.swarmEvent (.behaviour (.reqResp (.response target x.id response)))) m) :
      NetworkStep N (.response target x response)
        { N with
          node := Function.update N.node x.source m
          replied := Function.update N.replied x.source (N.replied x.source ++
            [⟨target, x.id, response⟩]) }

/-- Nodes that have just started, and nothing on its way. -/
structure NetworkStarted (L : Libp2p Req Resp) (config : PeerId → NodeConfig)
    (N : Network L) : Prop where
  node (p) : Started L (config p) (N.node p)
  asked (p) : N.asked p = []
  arrived (p) : N.arrived p = []
  replied (p) : N.replied p = []

abbrev NetworkReachable (L : Libp2p Req Resp) (config : PeerId → NodeConfig) :
    Network L → Prop :=
  Transition.Reachable (NetworkStarted L config) NetworkStep

end SwarmP2p
