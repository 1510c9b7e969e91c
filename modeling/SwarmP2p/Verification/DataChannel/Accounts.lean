import SwarmP2p.Model.DataChannel

/-! # Quota accounts

Futures that open a channel and handles own the guards. The accounts balance when the
live guards are those of the owners and the registry counts the owners; every step
moves guards and owners together. -/

namespace SwarmP2p

/-! ### Owners -/

structure QuotaOwner where
  peer : PeerId
  protocol : StreamProtocol
  direction : DataChannelDirection
  guard : Option ChannelGuard
  deriving DecidableEq, Repr

/-- The owner that a guard was made for. -/
def ChannelGuard.owned (g : ChannelGuard) : QuotaOwner :=
  ⟨g.peer, g.protocol, g.direction, some g⟩

def DataChannel.owner (c : DataChannel) : QuotaOwner :=
  ⟨c.peer, c.protocol, c.direction, c.guard⟩

/-- Only a future in state `Opening` owns quota. -/
def DataChannelOpenFuture.owner? (f : DataChannelOpenFuture) : Option QuotaOwner :=
  match f.state with
  | .opening _ guard => some ⟨f.peer, f.protocol, .outbound, some guard⟩
  | _ => none

namespace DataChannelOpenFuture

theorem guard_owner? (f : DataChannelOpenFuture) :
    f.owner?.toList.filterMap QuotaOwner.guard = f.guard.toList := by
  obtain ⟨peer, protocol, state⟩ := f
  cases state <;> rfl

theorem owner?_of_finished (f : DataChannelOpenFuture) (h : f.state = .finished) :
    f.owner? = none := by
  unfold owner?
  rw [h]

theorem guard_of_finished (f : DataChannelOpenFuture) (h : f.state = .finished) :
    f.guard = none := by
  unfold guard
  rw [h]

theorem pollOpening_ready {f f' : DataChannelOpenFuture} {id : DataChannelId}
    {guard : ChannelGuard} {s t : DataChannels} {outcome : StreamPoll}
    {result : Result DataChannel}
    (h : f.pollOpening id guard s outcome = (f', t, .ready result)) : f'.state = .finished := by
  cases outcome with
  | pending => cases h
  | opened stream =>
      cases h
      rfl
  | failed e =>
      cases h
      rfl
  | elapsed =>
      cases h
      rfl

/-- A future that has returned is finished. -/
theorem poll_ready {f f' : DataChannelOpenFuture} {s t : DataChannels} {outcome : StreamPoll}
    {result : Result DataChannel} (h : f.poll s outcome = some (f', t, .ready result)) :
    f'.state = .finished := by
  unfold poll at h
  split at h
  · split at h
    · cases h
      rfl
    · exact pollOpening_ready (Option.some.inj h)
  · exact pollOpening_ready (Option.some.inj h)
  · cases h

end DataChannelOpenFuture

theorem DataChannel.guard_owner (c : DataChannel) :
    [c.owner].filterMap QuotaOwner.guard = c.guard.toList := by
  obtain ⟨id, peer, protocol, direction, stream, guard⟩ := c
  cases guard <;> rfl

/-- The handles that exist, queued or held. -/
def DataChannels.handles (s : DataChannels) : List DataChannel :=
  s.inboundDc.queue.map InboundDataChannel.channel ++ s.held

def DataChannels.owners (s : DataChannels) : List QuotaOwner :=
  s.opens.filterMap DataChannelOpenFuture.owner? ++ s.handles.map DataChannel.owner

/-- The key of an owner in the counters of one direction. -/
def QuotaOwner.peerKey (direction : DataChannelDirection) (o : QuotaOwner) : Option PeerId :=
  if o.direction = direction then some o.peer else none

theorem QuotaOwner.peerKey_of_ne {o : QuotaOwner} {d : DataChannelDirection}
    (h : o.direction ≠ d) : o.peerKey d = none :=
  if_neg h

def QuotaOwner.protocolKey (o : QuotaOwner) : Option StreamProtocol := some o.protocol

/-! ### The registry -/

namespace RegistryInner

@[simp] theorem perPeer_setPerPeer (inner : RegistryInner) (d d' : DataChannelDirection)
    (m : PeerId → Option Nat) :
    (inner.setPerPeer d m).perPeer d' = if d' = d then m else inner.perPeer d' := by
  cases d <;> cases d' <;> rfl

@[simp] theorem setPerPeer_perProtocol (inner : RegistryInner) (d : DataChannelDirection)
    (m : PeerId → Option Nat) : (inner.setPerPeer d m).perProtocol = inner.perProtocol := by
  cases d <;> rfl

@[simp] theorem perPeer_perProtocol (inner : RegistryInner) (d : DataChannelDirection)
    (m : StreamProtocol → Option Nat) :
    ({ inner with perProtocol := m } : RegistryInner).perPeer d = inner.perPeer d := by
  cases d <;> rfl

/-- The counters of the registry count these owners. -/
structure Counts (inner : RegistryInner) (os : List QuotaOwner) : Prop where
  perPeer : ∀ d, Tally.Tallied (inner.perPeer d) (QuotaOwner.peerKey d) os
  perProtocol : Tally.Tallied inner.perProtocol QuotaOwner.protocolKey os

theorem Counts.empty : Counts .empty [] :=
  ⟨fun d => by cases d <;> exact Tally.tallied_nil _, Tally.tallied_nil _⟩

theorem Counts.perm {inner : RegistryInner} {os os' : List QuotaOwner} (h : Counts inner os)
    (hp : os.Perm os') : Counts inner os' :=
  ⟨fun d => (h.perPeer d).perm hp, h.perProtocol.perm hp⟩

/-- With no owner left the registry is as it was made. -/
theorem Counts.eq_empty {inner : RegistryInner} (h : Counts inner []) : inner = .empty := by
  obtain ⟨inbound, outbound, protocol⟩ := inner
  have hin : inbound = fun _ => none := funext (h.perPeer .inbound).eq_none
  have hout : outbound = fun _ => none := funext (h.perPeer .outbound).eq_none
  have hprotocol : protocol = fun _ => none := funext h.perProtocol.eq_none
  rw [hin, hout, hprotocol]
  rfl

theorem Counts.drop {inner : RegistryInner} {g : ChannelGuard} {os : List QuotaOwner}
    (h : Counts inner (g.owned :: os)) : Counts (g.drop inner) os := by
  refine ⟨?_, ?_⟩
  · intro d
    simp only [ChannelGuard.drop, perPeer_perProtocol, perPeer_setPerPeer]
    split
    · rename_i hd
      subst hd
      exact (h.perPeer g.direction).decr (if_pos rfl)
    · rename_i hd
      exact (Tally.tallied_cons_none (QuotaOwner.peerKey_of_ne (Ne.symm hd))).mp (h.perPeer d)
  · simp only [ChannelGuard.drop, setPerPeer_perProtocol]
    exact h.perProtocol.decr rfl

end RegistryInner

/-- What a successful `try_acquire` has checked and done. -/
structure ChannelRegistry.Granted (r r' : ChannelRegistry) (peer : PeerId)
    (protocol : StreamProtocol) (direction : DataChannelDirection) (os : List QuotaOwner) :
    Prop where
  limits_eq : r'.limits = r.limits
  below_peer : Tally.count (QuotaOwner.peerKey direction) os peer < r.limits.perPeer direction
  below_protocol : Tally.count QuotaOwner.protocolKey os protocol < r.limits.maxPerProtocol
  counts : ∀ guard, r'.inner.Counts (⟨peer, protocol, direction, guard⟩ :: os)

theorem DataChannelLimits.perPeer_lt (limits : DataChannelLimits) (d : DataChannelDirection) :
    limits.perPeer d < wordSize := by
  cases d
  · exact limits.outbound_lt
  · exact limits.inbound_lt

theorem ChannelRegistry.tryAcquire_granted {r r' : ChannelRegistry} {peer : PeerId}
    {protocol : StreamProtocol} {direction : DataChannelDirection} {os : List QuotaOwner}
    (hc : r.inner.Counts os) (h : r.tryAcquire peer protocol direction = some r') :
    r.Granted r' peer protocol direction os := by
  simp only [tryAcquire, (hc.perPeer direction).getD, hc.perProtocol.getD] at h
  split at h
  · cases h
  rename_i hroom
  obtain ⟨hpeer, hprotocol⟩ := not_or.mp hroom
  obtain rfl := Option.some.inj h
  have hlt := r.limits.perPeer_lt direction
  have hlt' := r.limits.protocol_lt
  refine ⟨rfl, Nat.lt_of_not_ge hpeer, Nat.lt_of_not_ge hprotocol, fun guard => ⟨?_, ?_⟩⟩
  · intro d
    simp only [RegistryInner.perPeer_perProtocol, RegistryInner.perPeer_setPerPeer]
    split
    · rename_i hd
      subst hd
      exact (hc.perPeer d).incr (if_pos rfl) (by omega)
    · rename_i hd
      exact (Tally.tallied_cons_none (QuotaOwner.peerKey_of_ne (Ne.symm hd))).mpr
        (hc.perPeer d)
  · simp only [RegistryInner.setPerPeer_perProtocol]
    exact hc.perProtocol.incr rfl (by omega)

/-! ### Accounts -/

namespace DataChannels

/-- Each live guard belongs to exactly one of the owners `os`, and was made for it. -/
structure Accounts (s : DataChannels) (os : List QuotaOwner) : Prop where
  nodup : s.live.Nodup
  serial : ∀ g ∈ s.live, g.serial < s.nextSerial
  guards : (s.live.map ChannelGuard.owned).Perm os
  counts : s.registry.inner.Counts os

namespace Accounts

variable {s t : DataChannels} {os : List QuotaOwner}

theorem new (limits : DataChannelLimits) : Accounts (.new limits) [] :=
  ⟨List.nodup_nil, (fun _ hg => by cases hg), List.Perm.refl _, RegistryInner.Counts.empty⟩

theorem perm {os' : List QuotaOwner} (h : Accounts s os) (hp : os.Perm os') :
    Accounts s os' :=
  ⟨h.nodup, h.serial, h.guards.trans hp, h.counts.perm hp⟩

/-- The accounts read three fields of the state. -/
theorem of_eq (h : Accounts s os) (hregistry : t.registry = s.registry)
    (hlive : t.live = s.live) (hserial : t.nextSerial = s.nextSerial) : Accounts t os := by
  refine ⟨?_, ?_, ?_, ?_⟩
  · rw [hlive]
    exact h.nodup
  · rw [hlive, hserial]
    exact h.serial
  · rw [hlive]
    exact h.guards
  · rw [hregistry]
    exact h.counts

/-- Every owner on the accounts holds a live guard that was made for it. -/
theorem guard_of_mem (h : Accounts s os) {o : QuotaOwner} (ho : o ∈ os) :
    ∃ g ∈ s.live, o = g.owned := by
  obtain ⟨g, hg, rfl⟩ := List.mem_map.mp (h.guards.mem_iff.mpr ho)
  exact ⟨g, hg, rfl⟩

theorem acquire {peer : PeerId} {protocol : StreamProtocol} {direction : DataChannelDirection}
    {guard : ChannelGuard} (h : Accounts s os)
    (ha : s.acquire peer protocol direction = some (guard, t)) :
    Accounts t (⟨peer, protocol, direction, some guard⟩ :: os) := by
  obtain ⟨registry, hr, heq⟩ := Option.map_eq_some_iff.mp ha
  obtain ⟨rfl, rfl⟩ := Prod.mk.inj heq
  refine ⟨?_, ?_, ?_, ?_⟩
  · refine List.nodup_cons.mpr ⟨?_, h.nodup⟩
    intro hg
    exact absurd (h.serial _ hg) (Nat.lt_irrefl _)
  · intro g hg
    rcases List.mem_cons.mp hg with rfl | hg
    · exact Nat.lt_succ_self _
    · exact Nat.lt_succ_of_lt (h.serial g hg)
  · exact h.guards.cons _
  · exact (ChannelRegistry.tryAcquire_granted h.counts hr).counts _

theorem release {g : ChannelGuard} (h : Accounts s (g.owned :: os)) :
    Accounts (s.release g) os := by
  have hg : g ∈ s.live := by
    obtain ⟨g', hg', heq⟩ := h.guard_of_mem (List.mem_cons_self ..)
    have hguard : some g = some g' := congrArg QuotaOwner.guard heq
    rwa [Option.some.inj hguard]
  refine ⟨h.nodup.erase g, ?_, ?_, h.counts.drop⟩
  · intro g' hg'
    exact h.serial g' (List.mem_of_mem_erase hg')
  · have hp := (List.perm_cons_erase hg).symm.map ChannelGuard.owned
    exact (hp.trans h.guards).cons_inv

/-- Dropping an owner gives its guard back. -/
theorem releaseOption {o : QuotaOwner} (h : Accounts s (o :: os)) :
    Accounts (s.releaseOption o.guard) os := by
  obtain ⟨g, _, rfl⟩ := h.guard_of_mem (List.mem_cons_self ..)
  exact h.release

end Accounts

end DataChannels

end SwarmP2p
