import SwarmP2p.Verification.DataChannel.Quota

/-! # Limits on streams

The registry counts guards. `into_stream` gives the guard back and keeps the stream, so
the limits bound the streams only as long as no quota is granted that the streams in use
without a handle have already taken. -/

namespace SwarmP2p

variable {Req Resp : Type} {L : Libp2p Req Resp}

/-- The quota that an unwrapped stream does not hold. -/
def UnwrappedStream.occupant (x : UnwrappedStream) : QuotaOwner :=
  ⟨x.peer, x.protocol, x.direction, none⟩

namespace DataChannels

/-- The streams that the node has handed out and that still exist. -/
def streams (s : DataChannels) : List QuotaOwner :=
  s.handles.map DataChannel.owner ++ s.unwrapped.map UnwrappedStream.occupant

/-- The owners of quota and the streams without a handle. -/
def occupants (s : DataChannels) : List QuotaOwner :=
  s.owners ++ s.unwrapped.map UnwrappedStream.occupant

/-- What a step asks the registry for. -/
def asks (s : DataChannels) : DataChannelLabel → Option QuotaOwner
  | .pollOpen index _ =>
      match s.opens[index]? with
      | some ⟨peer, protocol, .init⟩ => some ⟨peer, protocol, .outbound, none⟩
      | _ => none
  | .inbound protocol peer _ => some ⟨peer, protocol, .inbound, none⟩
  | _ => none

end DataChannels

namespace DataChannelLimits

/-- No counter of these owners exceeds its limit. -/
structure Within (limits : DataChannelLimits) (os : List QuotaOwner) : Prop where
  perPeer : ∀ d peer, Tally.count (QuotaOwner.peerKey d) os peer ≤ limits.perPeer d
  perProtocol : ∀ protocol,
    Tally.count QuotaOwner.protocolKey os protocol ≤ limits.maxPerProtocol

/-- One more owner fits in. -/
structure Room (limits : DataChannelLimits) (os : List QuotaOwner) (o : QuotaOwner) : Prop where
  peer : Tally.count (QuotaOwner.peerKey o.direction) os o.peer < limits.perPeer o.direction
  protocol : Tally.count QuotaOwner.protocolKey os o.protocol < limits.maxPerProtocol

theorem Within.cons {limits : DataChannelLimits} {os : List QuotaOwner} {o : QuotaOwner}
    (h : limits.Within os) (hr : limits.Room os o) : limits.Within (o :: os) := by
  refine ⟨?_, ?_⟩
  · intro d peer
    have hcount := h.perPeer d peer
    rw [Tally.count_cons]
    split
    · rename_i hkey
      unfold QuotaOwner.peerKey at hkey
      split at hkey
      · rename_i hd
        obtain rfl := Option.some.inj hkey
        subst hd
        exact hr.peer
      · cases hkey
    · exact hcount
  · intro protocol
    have hcount := h.perProtocol protocol
    rw [Tally.count_cons]
    split
    · rename_i hkey
      obtain rfl := Option.some.inj hkey
      exact hr.protocol
    · exact hcount

end DataChannelLimits

/-- Where the guards leave room for the quota that a step asks for, the guards and the
streams without a handle together leave room. -/
def Node.GrantsInRoom (n : Node L) (l : Label Req Resp) : Prop :=
  ∀ label o, l.dataChannel? = some label → n.dataChannels.asks label = some o →
    n.dataChannels.registry.limits.Room n.dataChannels.owners o →
      n.dataChannels.registry.limits.Room n.dataChannels.occupants o

/-! ### Comparing owners -/

/-- Every counter of `os` is at most that of `os'`. -/
structure AtMost (os os' : List QuotaOwner) : Prop where
  perPeer : ∀ d peer, Tally.count (QuotaOwner.peerKey d) os peer ≤
    Tally.count (QuotaOwner.peerKey d) os' peer
  perProtocol : ∀ protocol, Tally.count QuotaOwner.protocolKey os protocol ≤
    Tally.count QuotaOwner.protocolKey os' protocol

namespace AtMost

variable {os os' : List QuotaOwner}

theorem of_subperm (h : os.Subperm os') : AtMost os os' :=
  ⟨fun _ _ => h.countP_le _, fun _ => h.countP_le _⟩

/-- Some owners are gone. -/
theorem of_gone {gone : List QuotaOwner} (h : os'.Perm (gone ++ os)) : AtMost os os' :=
  of_subperm ((List.sublist_append_right gone os).subperm.trans h.symm.subperm)

theorem refl (os : List QuotaOwner) : AtMost os os := .of_subperm (.refl os)

theorem trans {os'' : List QuotaOwner} (h : AtMost os os') (k : AtMost os' os'') :
    AtMost os os'' :=
  ⟨fun d peer => (h.perPeer d peer).trans (k.perPeer d peer),
    fun protocol => (h.perProtocol protocol).trans (k.perProtocol protocol)⟩

theorem append_right (h : AtMost os os') (rest : List QuotaOwner) :
    AtMost (os ++ rest) (os' ++ rest) := by
  refine ⟨?_, ?_⟩
  · intro d peer
    rw [Tally.count_append, Tally.count_append]
    exact Nat.add_le_add_right (h.perPeer d peer) _
  · intro protocol
    rw [Tally.count_append, Tally.count_append]
    exact Nat.add_le_add_right (h.perProtocol protocol) _

theorem cons (h : AtMost os os') (o : QuotaOwner) : AtMost (o :: os) (o :: os') := by
  refine ⟨?_, ?_⟩
  · intro d peer
    rw [Tally.count_cons, Tally.count_cons]
    exact Nat.add_le_add_right (h.perPeer d peer) _
  · intro protocol
    rw [Tally.count_cons, Tally.count_cons]
    exact Nat.add_le_add_right (h.perProtocol protocol) _

/-- The guard does not count. -/
theorem guard (peer : PeerId) (protocol : StreamProtocol) (direction : DataChannelDirection)
    (g g' : Option ChannelGuard) :
    AtMost [⟨peer, protocol, direction, g⟩] [⟨peer, protocol, direction, g'⟩] :=
  ⟨fun _ _ => le_refl _, fun _ => le_refl _⟩

theorem within {limits : DataChannelLimits} (h : AtMost os os') (hw : limits.Within os') :
    limits.Within os :=
  ⟨fun d peer => (h.perPeer d peer).trans (hw.perPeer d peer),
    fun protocol => (h.perProtocol protocol).trans (hw.perProtocol protocol)⟩

end AtMost

/-! ### Steps -/

namespace DataChannels

variable {s t : DataChannels}

theorem room_of_acquire {peer : PeerId} {protocol : StreamProtocol}
    {direction : DataChannelDirection} {guard : ChannelGuard} {os : List QuotaOwner}
    (hc : s.registry.inner.Counts os) (ha : s.acquire peer protocol direction = some (guard, t)) :
    s.registry.limits.Room os ⟨peer, protocol, direction, none⟩ := by
  obtain ⟨registry, hr, _⟩ := Option.map_eq_some_iff.mp ha
  have hgranted := ChannelRegistry.tryAcquire_granted hc hr
  exact ⟨hgranted.below_peer, hgranted.below_protocol⟩

theorem pollOpening_atMost {f f' : DataChannelOpenFuture} {id : DataChannelId}
    {guard : ChannelGuard} {outcome : StreamPoll} {r : Poll (Result DataChannel)}
    (hp : f.pollOpening id guard s outcome = (f', t, r)) :
    AtMost (f'.owner?.toList ++ (deliveredChannel r).map DataChannel.owner)
      [⟨f.peer, f.protocol, .outbound, some guard⟩] := by
  cases outcome with
  | pending =>
      cases hp
      exact .refl _
  | opened stream =>
      cases hp
      exact .refl _
  | failed e =>
      cases hp
      exact .of_subperm (List.nil_subperm)
  | elapsed =>
      cases hp
      exact .of_subperm (List.nil_subperm)

/-- A poll makes no new owner, or asks for quota and is granted it. -/
theorem poll_atMost {f f' : DataChannelOpenFuture} {outcome : StreamPoll}
    {r : Poll (Result DataChannel)} {os : List QuotaOwner}
    (hc : s.registry.inner.Counts os) (hp : f.poll s outcome = some (f', t, r)) :
    AtMost (f'.owner?.toList ++ (deliveredChannel r).map DataChannel.owner) f.owner?.toList ∨
      (f.state = .init ∧
        s.registry.limits.Room os ⟨f.peer, f.protocol, .outbound, none⟩ ∧
        AtMost (f'.owner?.toList ++ (deliveredChannel r).map DataChannel.owner)
          [⟨f.peer, f.protocol, .outbound, none⟩]) := by
  obtain ⟨peer, protocol, state⟩ := f
  cases state with
  | init =>
      cases ha : s.acquire peer protocol .outbound with
      | none =>
          simp only [DataChannelOpenFuture.poll, ha, Option.some.injEq, Prod.mk.injEq] at hp
          obtain ⟨rfl, rfl, rfl⟩ := hp
          exact .inl (.refl _)
      | some x =>
          obtain ⟨guard, u⟩ := x
          simp only [DataChannelOpenFuture.poll, ha, Option.some.injEq] at hp
          exact .inr ⟨rfl, room_of_acquire hc ha, (pollOpening_atMost hp).trans (.guard ..)⟩
  | opening id guard => exact .inl (pollOpening_atMost (Option.some.inj hp))
  | finished => cases hp

/-- Every step keeps the limits and what is not a channel. -/
theorem Accounts.step_limits {l : DataChannelLabel} (h : Accounts s s.owners)
    (hs : DataChannelStep s l t) : t.registry.limits = s.registry.limits := by
  cases hs with
  | pollOpen outcome ho hp => exact ((h.perm (owners_of_opens ho)).poll hp).2.limits
  | inbound protocol peer stream =>
      unfold DataChannels.handleInboundChannel
      cases ha : s.acquire peer protocol .inbound with
      | none => rfl
      | some x =>
          have hlimits := (acquire_kept ha).limits
          simp only
          split <;> exact hlimits
  | dropOpen ho => exact (s.releaseOption_kept _).limits
  | dropChannelReceiver => exact (s.releaseQueue_kept _).limits
  | dropChannel hc => exact (s.releaseOption_kept _).limits
  | intoStream hc => exact (s.releaseOption_kept _).limits
  | _ => rfl

/-- The event loop makes one owner at most, and only after it was granted quota. -/
theorem Accounts.handleInboundChannel_atMost (h : Accounts s s.owners)
    (protocol : StreamProtocol) (peer : PeerId) (stream : Stream) :
    (s.handleInboundChannel protocol peer stream).unwrapped = s.unwrapped ∧
      (AtMost (s.handleInboundChannel protocol peer stream).owners s.owners ∨
        s.registry.limits.Room s.owners ⟨peer, protocol, .inbound, none⟩ ∧
          AtMost (s.handleInboundChannel protocol peer stream).owners
            (⟨peer, protocol, .inbound, none⟩ :: s.owners)) := by
  unfold DataChannels.handleInboundChannel
  cases ha : s.acquire peer protocol .inbound with
  | none => exact ⟨rfl, .inl (.refl _)⟩
  | some x =>
      obtain ⟨guard, u⟩ := x
      have hk := acquire_kept ha
      simp only
      split
      · rename_i inboundDc heq
        obtain ⟨hacc, rfl⟩ := (Channel.trySend_ok_iff _ _ _).mp heq
        have hpush := owners_of_push (s := u.nextId.2) (Channel.push_queue _
          ⟨⟨u.nextId.1, peer, protocol, .inbound, stream, some guard⟩⟩ hacc.2)
        have howners : u.nextId.2.owners = s.owners := hk.owners_eq
        rw [howners] at hpush
        refine ⟨hk.unwrapped, .inr ⟨room_of_acquire h.counts ha, ?_⟩⟩
        exact (AtMost.of_subperm hpush.symm.subperm).trans
          ((AtMost.guard peer protocol .inbound _ _).append_right s.owners)
      · exact ⟨hk.unwrapped, .inl (.of_subperm (List.Perm.of_eq hk.owners_eq).subperm)⟩

theorem occupants_atMost (hunwrapped : t.unwrapped = s.unwrapped)
    (h : AtMost t.owners s.owners) : AtMost t.occupants s.occupants := by
  unfold occupants
  rw [hunwrapped]
  exact h.append_right _

theorem occupants_atMost_cons {o : QuotaOwner} (hunwrapped : t.unwrapped = s.unwrapped)
    (h : AtMost t.owners (o :: s.owners)) : AtMost t.occupants (o :: s.occupants) := by
  unfold occupants
  rw [hunwrapped]
  exact h.append_right _

theorem asks_of_init {front back : List DataChannelOpenFuture} {f : DataChannelOpenFuture}
    (h : s.opens = front ++ f :: back) (hf : f.state = .init) (outcome : StreamPoll) :
    s.asks (.pollOpen front.length outcome) = some ⟨f.peer, f.protocol, .outbound, none⟩ := by
  obtain ⟨peer, protocol, state⟩ := f
  obtain rfl : state = .init := hf
  simp [asks, h]

/-- A step makes no new occupant, or asks for quota and is granted it. -/
theorem Accounts.step_atMost {l : DataChannelLabel} (h : Accounts s s.owners)
    (hs : DataChannelStep s l t) :
    AtMost t.occupants s.occupants ∨
      ∃ o, s.asks l = some o ∧ s.registry.limits.Room s.owners o ∧
        AtMost t.occupants (o :: s.occupants) := by
  cases hs with
  | openDataChannel peer protocol =>
      refine .inl (occupants_atMost rfl ?_)
      rw [owners_openDataChannel]
      exact .refl _
  | @pollOpen front back f f' t r outcome ho hp =>
      have hkept := ((h.perm (owners_of_opens ho)).poll hp).2
      have hbefore := owners_of_opens ho
      have hafter := owners_pollOpen front back f' r hkept
      rw [← List.append_assoc] at hafter
      have hle := AtMost.of_subperm hafter.symm.subperm
      rcases poll_atMost h.counts hp with hsame | ⟨hinit, hroom, hnew⟩
      · refine .inl (occupants_atMost hkept.unwrapped ?_)
        exact (hle.trans (hsame.append_right _)).trans (.of_subperm hbefore.symm.subperm)
      · refine .inr ⟨_, asks_of_init ho hinit outcome, hroom, ?_⟩
        exact occupants_atMost_cons hkept.unwrapped
          ((hle.trans (hnew.append_right _)).trans ((AtMost.of_gone hbefore).cons _))
  | dropOpen ho =>
      exact .inl (occupants_atMost (s.releaseOption_kept _).unwrapped
        (.of_gone (owners_dropOpen ho)))
  | inbound protocol peer stream =>
      obtain ⟨hunwrapped, hgrant⟩ := h.handleInboundChannel_atMost protocol peer stream
      rcases hgrant with hle | ⟨hroom, hle⟩
      · exact .inl (occupants_atMost hunwrapped hle)
      · exact .inr ⟨_, rfl, hroom, occupants_atMost_cons hunwrapped hle⟩
  | recvChannel hr =>
      exact .inl (occupants_atMost rfl (.of_subperm (owners_recvChannel hr).symm.subperm))
  | dropChannelReceiver =>
      exact .inl (occupants_atMost (s.releaseQueue_kept _).unwrapped
        (.of_gone s.owners_dropReceiver))
  | dropChannel hc =>
      exact .inl (occupants_atMost (s.releaseOption_kept _).unwrapped
        (AtMost.of_gone (List.singleton_append ▸ owners_dropChannel hc)))
  | @intoStream front back channel hc =>
      have hmoved : AtMost
          (({ s.releaseOption channel.guard with held := front ++ back } : DataChannels).owners ++
            (s.unwrapped ++ [(⟨channel.peer, channel.protocol, channel.direction,
              channel.stream⟩ : UnwrappedStream)]).map UnwrappedStream.occupant)
          s.occupants := by
        rw [List.map_append, ← List.append_assoc]
        have hguard := (AtMost.guard channel.peer channel.protocol channel.direction none
          channel.guard).append_right
            (({ s.releaseOption channel.guard with held := front ++ back } : DataChannels).owners ++
              s.unwrapped.map UnwrappedStream.occupant)
        refine (AtMost.of_subperm List.perm_append_comm.subperm).trans (hguard.trans ?_)
        exact .of_subperm ((owners_dropChannel hc).symm.append_right _).subperm
      exact .inl hmoved
  | @dropStream front back x hx =>
      refine .inl (.of_subperm (List.Sublist.subperm ?_))
      have hsub := ((List.sublist_cons_self x back).append_left front).map
        UnwrappedStream.occupant
      rw [← hx] at hsub
      exact hsub.append_left s.owners

theorem streams_atMost (s : DataChannels) : AtMost s.streams s.occupants :=
  .of_gone (.of_eq (List.append_assoc ..))

end DataChannels

/-! ### Runs -/

/-- The limits are those of the configuration, and the accounts balance. -/
structure Node.Limited (config : NodeConfig) (n : Node L) : Prop where
  accounts : n.dataChannels.Accounts n.dataChannels.owners
  limits : n.dataChannels.registry.limits = config.dataChannelLimits

theorem Fresh.limited {config : NodeConfig} {n : Node L} (h : Fresh config n) :
    n.Limited config :=
  ⟨h.accounts, by rw [h.dataChannels_eq]; rfl⟩

theorem Fresh.within {config : NodeConfig} {n : Node L} (h : Fresh config n) :
    config.dataChannelLimits.Within n.dataChannels.occupants := by
  rw [h.dataChannels_eq]
  exact ⟨fun _ _ => Nat.zero_le _, fun _ => Nat.zero_le _⟩

theorem Node.Limited.step {config : NodeConfig} {n m : Node L} {l : Label Req Resp}
    (hl : n.Limited config) (h : Step n l m) : m.Limited config := by
  cases hd : l.dataChannel? with
  | none => exact ⟨h.dataChannels_eq hd ▸ hl.accounts, h.dataChannels_eq hd ▸ hl.limits⟩
  | some label =>
      have hs := h.dataChannelStep hd
      exact ⟨hl.accounts.step hs, (hl.accounts.step_limits hs).trans hl.limits⟩

theorem Step.within {config : NodeConfig} {n m : Node L} {l : Label Req Resp}
    (hl : n.Limited config) (hw : config.dataChannelLimits.Within n.dataChannels.occupants)
    (h : Step n l m) (hc : n.GrantsInRoom l) :
    config.dataChannelLimits.Within m.dataChannels.occupants := by
  cases hd : l.dataChannel? with
  | none =>
      rw [h.dataChannels_eq hd]
      exact hw
  | some label =>
      rcases hl.accounts.step_atMost (h.dataChannelStep hd) with hle | ⟨o, hasks, hroom, hle⟩
      · exact hle.within hw
      · have hfree := hc label o hd hasks hroom
        rw [hl.limits] at hfree
        exact hle.within (hw.cons hfree)

/-- The streams in use stay within the limits, as long as quota is granted only where the
streams in use leave room. -/
theorem streams_within_limits {config : NodeConfig} {n m : Node L}
    {π : List (Transition.Trans (Node L) (Label Req Resp))} (hs : Started L config n)
    (h : Run L n π m) (hc : ∀ x ∈ π, x.pre.GrantsInRoom x.label) :
    config.dataChannelLimits.Within n.dataChannels.streams ∧
      ∀ x ∈ π, config.dataChannelLimits.Within x.post.dataChannels.streams := by
  have hrun := Transition.Path.safe_of_meets (I := fun n => n.Limited config)
    (P := fun n => config.dataChannelLimits.Within n.dataChannels.occupants)
    (C := fun n l => n.GrantsInRoom l) (fun _ _ _ hl hs => hl.step hs)
    (fun _ _ _ hl hw hs hc => hs.within hl hw hc) h hs.fresh.limited hs.fresh.within hc
  exact ⟨n.dataChannels.streams_atMost.within hs.fresh.within,
    fun x hx => x.post.dataChannels.streams_atMost.within (hrun.2 x hx)⟩

theorem streams_within_limits_delivered :
    (Loopback.config []).dataChannelLimits.Within
        (Loopback.dataNode (Loopback.unwrapped 0)).dataChannels.streams ∧
      ∀ x ∈ [(⟨Loopback.dataNode (Loopback.unwrapped 0),
            .dataChannel (.openDataChannel Loopback.peer Loopback.protocol),
            Loopback.dataNode (Loopback.asking 0)⟩ :
          Transition.Trans (Node loopback) (Label String String)),
          ⟨Loopback.dataNode (Loopback.asking 0),
            .dataChannel (.pollOpen 0 (.opened Loopback.stream)),
            Loopback.dataNode (Loopback.delivered 0)⟩],
        (Loopback.config []).dataChannelLimits.Within x.post.dataChannels.streams := by
  refine streams_within_limits (Loopback.started [])
    (.snoc (.single (.dataChannel (by simp) (Loopback.asking_step 0)))
      (.dataChannel (by simp) (Loopback.delivered_step 0))) ?_
  intro x hx label o hl ha hroom
  rcases List.mem_cons.mp hx with rfl | hx
  · obtain rfl := Option.some.inj hl
    cases ha
  · obtain rfl := List.mem_singleton.mp hx
    obtain rfl := Option.some.inj hl
    obtain rfl := Option.some.inj ha
    exact ⟨by decide, by decide⟩

/-! ### Channels taken apart

A channel is opened, its stream is taken out of the handle, and the next one is
opened. -/

namespace Loopback

theorem update_none {K : Type} [DecidableEq K] (key : K) :
    Function.update (Function.update (fun _ => none) key (some 1)) key none =
      (fun _ => none : K → Option Nat) := by
  rw [Function.update_idem]
  exact Function.update_eq_self key _

/-- Once the guard is dropped the registry is empty again. -/
theorem guard_drop (k : Nat) : (guard k).drop (delivered k).registry.inner = .empty :=
  congrArg₂ (fun outbound protocols => RegistryInner.mk (fun _ => none) outbound protocols)
    (update_none peer) (update_none protocol)

theorem unwrapped_step (k : Nat) :
    DataChannelStep { delivered k with opens := [] } (.intoStream 0) (unwrapped (k + 1)) := by
  convert DataChannelStep.intoStream (s := { delivered k with opens := [] })
    (show (delivered k).held = [] ++ channel k :: [] from rfl) using 1
  · rfl
  refine DataChannels.ext ?_ ?_ rfl rfl rfl ?_ ?_ rfl
  · exact congrArg (ChannelRegistry.mk default) (guard_drop k).symm
  · exact (Nat.mod_add_mod k wordSize 1).symm
  · exact List.replicate_succ'
  · exact (List.erase_cons_head ..).symm

theorem unwrapped_reachable (k : Nat) :
    Reachable loopback (config []) (dataNode (unwrapped k)) := by
  induction k with
  | zero => exact reachable []
  | succ k ih =>
      have hdropped := DataChannelStep.dropOpen
        (show (delivered k).opens = [] ++ ⟨peer, protocol, .finished⟩ :: [] from rfl)
      exact dataNode_reachable
        (dataNode_reachable (delivered_of_unwrapped ih) hdropped (by simp))
        (unwrapped_step k) (by simp)

end Loopback

/-- Five outbound streams to one peer, where four are allowed: each was taken out of its
handle before the next was opened. -/
theorem unwrapped_streams_exceed_limits :
    Reachable loopback (Loopback.config []) (Loopback.dataNode (Loopback.unwrapped 5)) ∧
      (Loopback.config []).dataChannelLimits.maxOutboundPerPeer = 4 ∧
      (Loopback.unwrapped 5).streams.length = 5 ∧
      ¬(Loopback.config []).dataChannelLimits.Within (Loopback.unwrapped 5).streams := by
  refine ⟨Loopback.unwrapped_reachable 5, rfl, rfl, ?_⟩
  intro hw
  exact absurd (hw.perPeer .outbound Loopback.peer) (by decide)

end SwarmP2p
