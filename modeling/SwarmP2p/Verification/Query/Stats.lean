import Mathlib.Algebra.GroupWithZero.Nat
import Mathlib.Algebra.Order.BigOperators.Group.List
import Mathlib.Algebra.Order.Group.Nat
import SwarmP2p.Verification.Query.Providers

/-! # The statistics of a query

Each progress event carries the totals of its query so far, and the commands add them
up. So the counters returned are sums over all events; a counter is the final total only
when the events before the last have counted nothing. -/

namespace SwarmP2p

variable {Req Resp : Type} {L : Libp2p Req Resp}

/-! ### Counters -/

inductive Counter where
  | requests
  | successes
  | failures
  deriving DecidableEq, Repr

def QueryStats.count (s : QueryStats) : Counter → Nat
  | .requests => s.numRequests
  | .successes => s.numSuccesses
  | .failures => s.numFailures

def QueryStatsInfo.count (s : QueryStatsInfo) : Counter → Nat
  | .requests => s.numRequests
  | .successes => s.numSuccesses
  | .failures => s.numFailures

/-- `QueryStats::merge` adds the counters. -/
def MergeAdds (L : Libp2p Req Resp) : Prop :=
  ∀ a b k, (L.mergeStats a b).count k = a.count k + b.count k

/-- What has been counted in the statistics held. -/
def heldCount (held : Option QueryStats) (k : Counter) : Nat :=
  match held with
  | some stats => stats.count k
  | none => 0

theorem MergeAdds.mergeStats_count (h : MergeAdds L) (held : Option QueryStats)
    (stats : QueryStats) (k : Counter) :
    heldCount (mergeStats L held stats) k = heldCount held k + stats.count k := by
  cases held with
  | none => exact (Nat.zero_add _).symm
  | some held => exact h held stats k

theorem MergeAdds.mergedStats_count (h : MergeAdds L) (held : Option QueryStats)
    (steps : List QueryStep) (k : Counter) :
    heldCount (mergedStats L held steps) k =
      heldCount held k + (steps.map fun s => s.stats.count k).sum := by
  induction steps generalizing held with
  | nil => exact (Nat.add_zero _).symm
  | cons s steps ih =>
      calc heldCount (mergedStats L (mergeStats L held s.stats) steps) k
          = heldCount (mergeStats L held s.stats) k + (steps.map fun s => s.stats.count k).sum :=
            ih _
        _ = heldCount held k + ((s :: steps).map fun s => s.stats.count k).sum := by
            rw [h.mergeStats_count, List.map_cons, List.sum_cons, Nat.add_assoc]

/-- The counters of the answer are sums over all steps. -/
theorem MergeAdds.mergedInfo_count (h : MergeAdds L) (steps : List QueryStep)
    (final : QueryStep) (k : Counter) :
    (mergedInfo L (mergedStats L none steps) final.stats).count k =
      (steps.map fun s => s.stats.count k).sum + final.stats.count k := by
  have hinfo : (mergedInfo L (mergedStats L none steps) final.stats).count k =
      heldCount (mergeStats L (mergedStats L none steps) final.stats) k := by
    cases k <;> rfl
  rw [hinfo, h.mergeStats_count, h.mergedStats_count, heldCount, Nat.zero_add]

/-! ### Lookups -/

/-- The two queries that look something up under a key. -/
inductive Lookup where
  | record (key : RecordKey)
  | providers (key : RecordKey)

namespace Lookup

def command : Lookup → Command Req Resp
  | .record key => .getRecord (.new key)
  | .providers key => .getProviders (.new key)

/-- The query that libp2p starts for it. -/
def queryId (swarm : Swarm L) : Lookup → QueryId
  | .record key => (swarm.kadGetRecord key).2
  | .providers key => (swarm.kadGetProviders key).2

/-- The results with which libp2p reports on it. -/
def Reports : Lookup → QueryResult → Prop
  | .record _, result => ∃ res, result = .getRecord res
  | .providers _, result => ∃ res, result = .getProviders res

end Lookup

def Output.stats? : Output Resp → Option QueryStatsInfo
  | .record result => some result.stats
  | .providers result => some result.stats
  | _ => none

theorem Lookup.stats_of_answer (lookup : Lookup) (swarm : Swarm L)
    {events : List (SwarmEvent Req Resp)} {steps : List QueryStep} {final : QueryStep}
    (h : ProgressOf (lookup.queryId swarm) events steps final)
    (hs : ∀ s ∈ steps ++ [final], lookup.Reports s.result) {output : Output Resp}
    (ha : lookup.command.runAlone swarm events = some (.ok output)) :
    output.stats? = some (mergedInfo L (mergedStats L none steps) final.stats) := by
  have hsteps := fun s hmem => hs s (List.mem_append_left _ hmem)
  have hfinal := hs final (List.mem_append_right _ (List.mem_singleton_self _))
  cases lookup with
  | record key =>
      change (Command.getRecord ⟨key, some (swarm.kadGetRecord key).2, none, none⟩).alone L
        events = some (.ok output) at ha
      have hown : ProgressOf (swarm.kadGetRecord key).2 events steps final := h
      rw [Command.alone_filter rfl rfl, hown] at ha
      obtain ⟨record, rfl⟩ := GetRecordCommand.stats_of_alone rfl hsteps hfinal ha
      rfl
  | providers key =>
      change (Command.getProviders ⟨key, some (swarm.kadGetProviders key).2, [], none⟩).alone L
        events = some (.ok output) at ha
      have hown : ProgressOf (swarm.kadGetProviders key).2 events steps final := h
      rw [Command.alone_filter rfl rfl, hown] at ha
      obtain ⟨hok, hlast⟩ := GetProvidersCommand.ok_of_alone rfl hsteps hfinal ha
      rw [GetProvidersCommand.alone_found rfl hok hlast] at ha
      obtain rfl := Except.ok.inj (Option.some.inj ha)
      rfl

/-- A counter of an answer is the final total of the query exactly when every progress event
before the last has counted nothing. -/
theorem lookup_totals_iff (hadds : MergeAdds L) (lookup : Lookup) (swarm : Swarm L)
    {events : List (SwarmEvent Req Resp)} {steps : List QueryStep} {final : QueryStep}
    (h : ProgressOf (lookup.queryId swarm) events steps final)
    (hs : ∀ s ∈ steps ++ [final], lookup.Reports s.result) {output : Output Resp}
    (ha : lookup.command.runAlone swarm events = some (.ok output)) :
    ∃ info, output.stats? = some info ∧ ∀ k : Counter,
      info.count k = final.stats.count k ↔ ∀ s ∈ steps, s.stats.count k = 0 := by
  refine ⟨_, lookup.stats_of_answer swarm h hs ha, fun k => ?_⟩
  rw [hadds.mergedInfo_count, Nat.add_eq_right, List.sum_eq_zero_iff]
  simp

/-! ### A second event -/

namespace Loopback

theorem mergeAdds : MergeAdds loopback := fun _ _ k => by
  cases k <;> rfl

/-- A step that finds the record and reports these totals. -/
def recordStep (stats : QueryStats) : QueryStep :=
  ⟨.getRecord (.ok (.foundRecord ⟨key, [2]⟩)), stats⟩

def recordFinished : QueryStep :=
  ⟨.getRecord (.ok .finishedWithNoAdditionalRecord), ⟨none, 2, 2, 0⟩⟩

def recordEvents (stats : QueryStats) : List (SwarmEvent String String) :=
  [(recordStep stats).event ⟨0⟩ false, recordFinished.event ⟨0⟩ true]

end Loopback

open Loopback in
/-- The query has sent two requests, and three are reported. -/
theorem totals_added_up :
    MergeAdds loopback ∧
      ProgressOf ((Lookup.record key).queryId (node []).loop.swarm)
        (recordEvents ⟨none, 1, 1, 0⟩) [recordStep ⟨none, 1, 1, 0⟩] recordFinished ∧
      (∀ s ∈ [recordStep ⟨none, 1, 1, 0⟩, recordFinished],
        (Lookup.record key).Reports s.result) ∧
      ∃ output info, (Lookup.record key).command.runAlone (node []).loop.swarm
          (recordEvents ⟨none, 1, 1, 0⟩) = some (.ok output) ∧ output.stats? = some info ∧
        ¬∀ k, info.count k = recordFinished.stats.count k := by
  refine ⟨mergeAdds, rfl, ?_, _, _, rfl, rfl, fun h => absurd (h .requests) (by decide)⟩
  simp [recordStep, recordFinished, Lookup.Reports]

open Loopback in
/-- A record of the node's own store costs no request. -/
theorem lookup_totals_iff_local :
    ∃ info, (Output.record ⟨⟨key, [2]⟩, ⟨none, 2, 2, 0⟩⟩ : Output String).stats? = some info ∧
      info.count = recordFinished.stats.count := by
  have hprogress : ProgressOf ((Lookup.record key).queryId (node []).loop.swarm)
      (recordEvents ⟨none, 0, 0, 0⟩) [recordStep ⟨none, 0, 0, 0⟩] recordFinished := rfl
  obtain ⟨info, hinfo, htotals⟩ := lookup_totals_iff mergeAdds (.record key)
    (node []).loop.swarm hprogress (by simp [recordStep, recordFinished, Lookup.Reports]) rfl
  refine ⟨info, hinfo, funext fun k => (htotals k).mpr (List.forall_mem_singleton.mpr ?_)⟩
  cases k <;> rfl

end SwarmP2p
