import SwarmP2p.Verification.Relay.Registrations

/-! # Repeated registrations

Registrations of a peer pile up: nothing compares an address with those that are kept or
already requested. So each circuit address is requested once for every registration that
found its peer connected or that a later Identify served. -/

namespace SwarmP2p

variable {Req Resp : Type} {L : Libp2p Req Resp}

/-- The addresses of the configuration, and the circuit addresses of the bootstrap entries
and registrations that were served, each as often as it was given. -/
def servedCircuits (config : NodeConfig)
    (π : List (Transition.Trans (Node L) (Label Req Resp))) : List Multiaddr :=
  config.listenAddrs ++ circuits (Deferred.served (config.relayEvents ++ relayEvents π))

/-- A run asks to listen on exactly these. -/
theorem Run.listenRequests_perm {config : NodeConfig} {n m : Node L}
    {π : List (Transition.Trans (Node L) (Label Req Resp))} (hs : Started L config n)
    (h : Run L n π m) : m.loop.swarm.listenRequests.Perm (servedCircuits config π) := by
  have hserved := Deferred.Store.done_perm_served (config.relayEvents ++ relayEvents π)
  rw [(Run.defers_started hs h).requests]
  exact (hserved.map _).append_left _

/-- A circuit address is requested once at most exactly when it was served once at most. -/
theorem requested_once_iff {config : NodeConfig} {n m : Node L}
    {π : List (Transition.Trans (Node L) (Label Req Resp))} (hs : Started L config n)
    (h : Run L n π m) (p : PeerId) (addr : Multiaddr) :
    m.loop.swarm.listenRequests.count (EventLoop.relayAddr p addr) ≤ 1 ↔
      (servedCircuits config π).count (EventLoop.relayAddr p addr) ≤ 1 := by
  rw [(Run.listenRequests_perm hs h).count_eq]

/-! ### A registration that is tried again -/

namespace Loopback

def once : Node counting := registered openNode 0

def twice : Node counting := registered once 1

theorem once_run : Run counting openNode (registerSteps openNode 0) once :=
  registered_run 0 rfl (by decide) rfl rfl

theorem twice_run : Run counting once (registerSteps once 1) twice :=
  registered_run 1 rfl (by decide) rfl rfl

end Loopback

open Loopback in
/-- The relay is registered again before it answers, and asked twice. -/
theorem circuit_requested_twice :
    ∃ (n m : Node counting) (π : List (Transition.Trans (Node counting) (Label String String))),
      openConfig.enableRelayClient = true ∧ Started counting openConfig n ∧ Run counting n π m ∧
        (∀ x ∈ π, ∀ k, x.label ≠ .swarmEvent (.connectionClosed peer k)) ∧
        ¬m.loop.swarm.listenRequests.count (EventLoop.relayAddr peer relayAddress) ≤ 1 := by
  have hup := up_run (n := twice) rfl (.inr ⟨by decide, rfl⟩) rfl rfl
  have hidentified := identified_run (n := up twice) relayInfo rfl rfl rfl
  refine ⟨openNode, _, _, rfl, openStarted,
    ((once_run.append twice_run).append hup).append hidentified, ?_, by decide⟩
  simp [registerSteps, upSteps, identifiedSteps, Node.turnSteps, identify]

open Loopback in
/-- A relay that is registered once is asked once. -/
theorem requested_once_iff_single :
    (identified relayInfo (up once)).loop.swarm.listenRequests.count
      (EventLoop.relayAddr peer relayAddress) ≤ 1 := by
  have hup := up_run (n := once) rfl (.inr ⟨by decide, rfl⟩) rfl rfl
  have hidentified := identified_run (n := up once) relayInfo rfl rfl rfl
  exact (requested_once_iff openStarted ((once_run.append hup).append hidentified) peer
    relayAddress).mpr (by decide)

end SwarmP2p
