import SwarmP2p.Verification.Query.Steps

/-! # The providers of a key

The batches of providers are appended, so the list returned is their union with every
provider once exactly when no provider is reported in two batches. -/

namespace SwarmP2p

variable {Req Resp : Type} {L : Libp2p Req Resp}

/-- Every provider that one of the steps has found, and each of them once. -/
def UnionOf (steps : List QueryStep) (providers : List PeerId) : Prop :=
  providers.Nodup ∧ ∀ p, p ∈ providers ↔ ∃ s ∈ steps, p ∈ s.found

/-- The appended batches are the union when they are disjoint, and only then. -/
theorem unionOf_flatMap_iff (steps : List QueryStep) :
    UnionOf steps (steps.flatMap QueryStep.found) ↔
      steps.Pairwise fun s t => s.found.Disjoint t.found := by
  have hnodup : (steps.flatMap QueryStep.found).Nodup ↔
      steps.Pairwise fun s t => s.found.Disjoint t.found := by
    rw [List.nodup_flatMap]
    exact and_iff_right fun s _ => s.found_nodup
  exact ⟨fun h => hnodup.mp h.1, fun h => ⟨hnodup.mpr h, fun p => List.mem_flatMap⟩⟩

theorem GetProvidersCommand.runAlone_found (key : RecordKey) (swarm : Swarm L)
    {events : List (SwarmEvent Req Resp)} {steps : List QueryStep} {final : QueryStep}
    (h : ProgressOf (swarm.kadGetProviders key).2 events steps final)
    (hs : ∀ s ∈ steps, ∃ ok, s.result = .getProviders (.ok ok))
    (hf : ∃ ok, final.result = .getProviders (.ok ok)) :
    (Command.getProviders (.new key)).runAlone swarm events =
      some (.ok (.providers ⟨(steps ++ [final]).flatMap QueryStep.found,
        mergedInfo L (mergedStats L none steps) final.stats⟩)) := by
  show ((Command.getProviders ⟨key, some (swarm.kadGetProviders key).2, [], none⟩).alone L
    events) = _
  rw [Command.alone_filter rfl rfl, h]
  exact alone_found rfl hs hf

/-- What the caller of a successful query gets is the union of the batches exactly when no
provider is in two of them. -/
theorem providers_union_iff (key : RecordKey) (swarm : Swarm L)
    {events : List (SwarmEvent Req Resp)} {steps : List QueryStep} {final : QueryStep}
    (h : ProgressOf (swarm.kadGetProviders key).2 events steps final)
    (hs : ∀ s ∈ steps ++ [final], ∃ ok, s.result = .getProviders (.ok ok)) :
    ∃ result, (Command.getProviders (.new key)).runAlone swarm events =
        some (.ok (.providers result)) ∧
      (UnionOf (steps ++ [final]) result.providers ↔
        (steps ++ [final]).Pairwise fun s t => s.found.Disjoint t.found) :=
  ⟨_, GetProvidersCommand.runAlone_found key swarm h
      (fun s hmem => hs s (List.mem_append_left _ hmem))
      (hs final (List.mem_append_right _ (List.mem_singleton_self _))),
    unionOf_flatMap_iff (steps ++ [final])⟩

/-! ### Two nodes that know providers -/

namespace Loopback

def provider (k : UInt8) : PeerId := ⟨[k]⟩

/-- The batches of the two nodes; the provider `1` is in both. -/
def batchSteps : List QueryStep :=
  [⟨.getProviders (.ok (.foundProviders ⟨[provider 1, provider 3], by decide⟩)), ⟨none, 1, 1, 0⟩⟩,
    ⟨.getProviders (.ok (.foundProviders ⟨[provider 1, provider 4], by decide⟩)),
      ⟨none, 2, 2, 0⟩⟩]

/-- The batches of two nodes that know different providers. -/
def distinctSteps : List QueryStep :=
  [⟨.getProviders (.ok (.foundProviders ⟨[provider 1, provider 3], by decide⟩)), ⟨none, 1, 1, 0⟩⟩,
    ⟨.getProviders (.ok (.foundProviders ⟨[provider 4, provider 5], by decide⟩)),
      ⟨none, 2, 2, 0⟩⟩]

def finishedStep : QueryStep :=
  ⟨.getProviders (.ok (.finishedWithNoAdditionalRecord [])), ⟨none, 2, 2, 0⟩⟩

/-- The events of a query, with a foreign one between them. -/
def queryEvents (steps : List QueryStep) : List (SwarmEvent String String) :=
  steps.map (QueryStep.event ⟨0⟩ false) ++ [pingEvent, finishedStep.event ⟨0⟩ true]

theorem queryEvents_progress (steps : List QueryStep) :
    ProgressOf ⟨0⟩ (queryEvents steps) steps finishedStep := by
  have hall : (steps.map (QueryStep.event ⟨0⟩ false : QueryStep → SwarmEvent String String)).filter
      (fun event => decide (event.id? = some (.query ⟨0⟩))) =
        steps.map (QueryStep.event ⟨0⟩ false) := by
    rw [List.filter_eq_self]
    intro event hevent
    obtain ⟨s, _, rfl⟩ := List.mem_map.mp hevent
    rfl
  rw [ProgressOf, queryEvents, List.filter_append, hall]
  rfl

end Loopback

open Loopback in
/-- The common provider is returned twice. -/
theorem common_provider_repeated :
    ProgressOf ((node []).loop.swarm.kadGetProviders key).2 (queryEvents batchSteps) batchSteps
        finishedStep ∧
      (∀ s ∈ batchSteps ++ [finishedStep], ∃ ok, s.result = .getProviders (.ok ok)) ∧
      ∃ result, (Command.getProviders (.new key)).runAlone (node []).loop.swarm
          (queryEvents batchSteps) = some (.ok (.providers result)) ∧
        ¬UnionOf (batchSteps ++ [finishedStep]) result.providers := by
  refine ⟨queryEvents_progress batchSteps, ?_, _, rfl, fun h => absurd h.1 (by decide)⟩
  simp [batchSteps, finishedStep]

open Loopback in
/-- Providers from two nodes that have none in common are returned once each. -/
theorem providers_union_iff_distinct :
    ∃ result, (Command.getProviders (.new key)).runAlone (node []).loop.swarm
        (queryEvents distinctSteps) = some (.ok (.providers result)) ∧
      result.providers = [provider 1, provider 3, provider 4, provider 5] ∧
      UnionOf (distinctSteps ++ [finishedStep]) result.providers := by
  obtain ⟨result, hanswer, hunion⟩ := providers_union_iff key (node []).loop.swarm
    (queryEvents_progress distinctSteps) (by simp [distinctSteps, finishedStep])
  have hdisjoint : (distinctSteps ++ [finishedStep]).Pairwise fun s t =>
      s.found.Disjoint t.found :=
    (List.nodup_flatMap.mp (by decide :
      ((distinctSteps ++ [finishedStep]).flatMap QueryStep.found).Nodup)).2
  have hproviders : result.providers = [provider 1, provider 3, provider 4, provider 5] := by
    cases hanswer
    rfl
  exact ⟨result, hanswer, hproviders, hunion.mpr hdisjoint⟩

end SwarmP2p
