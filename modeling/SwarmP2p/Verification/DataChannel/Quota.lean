import SwarmP2p.Model.Loopback
import SwarmP2p.Verification.DataChannel.Accounts
import SwarmP2p.Verification.Node.Run

/-! # Exact quota

Each step of a future, a handle or the event loop keeps the accounts balanced, so in
every reachable state the live guards are those of the owners. -/

namespace SwarmP2p

variable {Req Resp : Type} {L : Libp2p Req Resp}

namespace DataChannels

variable {s t : DataChannels} {os : List QuotaOwner}

/-! ### Polls of a future -/

/-- What acquiring and releasing guards leave alone. -/
structure Kept (s t : DataChannels) : Prop where
  opens : t.opens = s.opens
  inboundDc : t.inboundDc = s.inboundDc
  held : t.held = s.held
  unwrapped : t.unwrapped = s.unwrapped
  limits : t.registry.limits = s.registry.limits

theorem Kept.refl (s : DataChannels) : Kept s s := ⟨rfl, rfl, rfl, rfl, rfl⟩

theorem Kept.trans {u : DataChannels} (h : Kept s t) (k : Kept t u) : Kept s u :=
  ⟨k.opens.trans h.opens, k.inboundDc.trans h.inboundDc, k.held.trans h.held,
    k.unwrapped.trans h.unwrapped, k.limits.trans h.limits⟩

theorem Kept.owners_eq (h : Kept s t) : t.owners = s.owners := by
  unfold owners handles
  rw [h.opens, h.inboundDc, h.held]

theorem release_kept (s : DataChannels) (guard : ChannelGuard) : Kept s (s.release guard) :=
  ⟨rfl, rfl, rfl, rfl, rfl⟩

theorem releaseOption_kept (s : DataChannels) (guard : Option ChannelGuard) :
    Kept s (s.releaseOption guard) := by
  cases guard with
  | none => exact .refl s
  | some guard => exact s.release_kept guard

theorem acquire_kept {peer : PeerId} {protocol : StreamProtocol}
    {direction : DataChannelDirection} {guard : ChannelGuard}
    (ha : s.acquire peer protocol direction = some (guard, t)) : Kept s t := by
  obtain ⟨registry, hr, heq⟩ := Option.map_eq_some_iff.mp ha
  obtain ⟨rfl, rfl⟩ := Prod.mk.inj heq
  refine ⟨rfl, rfl, rfl, rfl, ?_⟩
  simp only [ChannelRegistry.tryAcquire] at hr
  split at hr
  · cases hr
  · obtain rfl := Option.some.inj hr
    rfl

theorem acquire_live {peer : PeerId} {protocol : StreamProtocol}
    {direction : DataChannelDirection} {guard : ChannelGuard}
    (ha : s.acquire peer protocol direction = some (guard, t)) : t.live = guard :: s.live := by
  obtain ⟨registry, _, heq⟩ := Option.map_eq_some_iff.mp ha
  obtain ⟨rfl, rfl⟩ := Prod.mk.inj heq
  rfl

theorem Accounts.pollOpening {f f' : DataChannelOpenFuture} {id : DataChannelId}
    {guard : ChannelGuard} {outcome : StreamPoll} {r : Poll (Result DataChannel)}
    (h : Accounts s (⟨f.peer, f.protocol, .outbound, some guard⟩ :: os))
    (hp : f.pollOpening id guard s outcome = (f', t, r)) :
    Accounts t (f'.owner?.toList ++ ((deliveredChannel r).map DataChannel.owner ++ os)) ∧
      Kept s t := by
  cases outcome with
  | pending =>
      simp only [DataChannelOpenFuture.pollOpening, Prod.mk.injEq] at hp
      obtain ⟨rfl, rfl, rfl⟩ := hp
      exact ⟨h, .refl s⟩
  | opened stream =>
      simp only [DataChannelOpenFuture.pollOpening, Prod.mk.injEq] at hp
      obtain ⟨rfl, rfl, rfl⟩ := hp
      exact ⟨h, .refl s⟩
  | failed e =>
      simp only [DataChannelOpenFuture.pollOpening, Prod.mk.injEq] at hp
      obtain ⟨rfl, rfl, rfl⟩ := hp
      exact ⟨h.releaseOption, s.release_kept guard⟩
  | elapsed =>
      simp only [DataChannelOpenFuture.pollOpening, Prod.mk.injEq] at hp
      obtain ⟨rfl, rfl, rfl⟩ := hp
      exact ⟨h.releaseOption, s.release_kept guard⟩

/-- A poll moves the guard from the future to the handle, or gives it back. -/
theorem Accounts.poll {f f' : DataChannelOpenFuture} {outcome : StreamPoll}
    {r : Poll (Result DataChannel)} (h : Accounts s (f.owner?.toList ++ os))
    (hp : f.poll s outcome = some (f', t, r)) :
    Accounts t (f'.owner?.toList ++ ((deliveredChannel r).map DataChannel.owner ++ os)) ∧
      Kept s t := by
  obtain ⟨peer, protocol, state⟩ := f
  cases state with
  | init =>
      cases ha : s.acquire peer protocol .outbound with
      | none =>
          simp only [DataChannelOpenFuture.poll, ha, Option.some.injEq, Prod.mk.injEq] at hp
          obtain ⟨rfl, rfl, rfl⟩ := hp
          exact ⟨h, .refl s⟩
      | some x =>
          obtain ⟨guard, u⟩ := x
          simp only [DataChannelOpenFuture.poll, ha, Option.some.injEq] at hp
          have hu : Accounts u.nextId.2 (⟨peer, protocol, .outbound, some guard⟩ :: os) :=
            (Accounts.acquire h ha).of_eq rfl rfl rfl
          have hnext : Kept u u.nextId.2 := ⟨rfl, rfl, rfl, rfl, rfl⟩
          obtain ⟨haccounts, hkept⟩ := hu.pollOpening hp
          exact ⟨haccounts, ((acquire_kept ha).trans hnext).trans hkept⟩
  | opening id guard =>
      have hp' := Option.some.inj hp
      exact Accounts.pollOpening h hp'
  | finished => cases hp

/-! ### The owners after a step -/

theorem releaseQueue_kept (s : DataChannels) (queue : List InboundDataChannel) :
    Kept s (queue.foldl (fun s i => s.releaseOption i.channel.guard) s) := by
  induction queue generalizing s with
  | nil => exact .refl s
  | cons i queue ih => exact (s.releaseOption_kept i.channel.guard).trans (ih _)

theorem filterMap_split {α β : Type} (g : α → Option β) (front back : List α) (a : α) :
    ((front ++ a :: back).filterMap g).Perm
      ((g a).toList ++ (front ++ back).filterMap g) := by
  rw [List.filterMap_append, List.filterMap_append, List.filterMap_cons]
  cases g a with
  | none => exact .refl _
  | some b => exact List.perm_middle

/-- One future in front of the other owners. -/
theorem owners_of_opens {front back : List DataChannelOpenFuture} {f : DataChannelOpenFuture}
    (h : s.opens = front ++ f :: back) :
    s.owners.Perm (f.owner?.toList ++
      ((front ++ back).filterMap DataChannelOpenFuture.owner? ++
        s.handles.map DataChannel.owner)) := by
  unfold owners
  rw [h, ← List.append_assoc]
  exact (filterMap_split _ front back f).append_right _

/-- One held handle in front of the other owners. -/
theorem owners_of_held {front back : List DataChannel} {channel : DataChannel}
    (h : s.held = front ++ channel :: back) :
    s.owners.Perm (channel.owner :: ({ s with held := front ++ back } : DataChannels).owners) := by
  unfold owners handles
  rw [h]
  simp only [List.map_append, List.map_cons, ← List.append_assoc]
  exact List.perm_middle

/-- A handle that joins the inbound queue. -/
theorem owners_of_push {inboundDc : Channel dcInboundChannelSize InboundDataChannel}
    {channel : DataChannel} (h : inboundDc.queue = s.inboundDc.queue ++ [⟨channel⟩]) :
    (channel.owner :: s.owners).Perm ({ s with inboundDc := inboundDc } : DataChannels).owners := by
  unfold owners handles
  rw [h]
  simp only [List.map_append, List.map_cons, List.map_nil, List.append_assoc,
    List.cons_append, List.nil_append]
  rw [← List.append_assoc, ← List.append_assoc]
  exact List.perm_middle.symm

theorem owners_openDataChannel (s : DataChannels) (peer : PeerId) (protocol : StreamProtocol) :
    ({ s with opens := s.opens ++ [⟨peer, protocol, .init⟩] } : DataChannels).owners =
      s.owners := by
  have hinit : [(⟨peer, protocol, .init⟩ : DataChannelOpenFuture)].filterMap
      DataChannelOpenFuture.owner? = [] := rfl
  simp [owners, handles, hinit]

theorem owners_pollOpen (front back : List DataChannelOpenFuture) (f' : DataChannelOpenFuture)
    (r : Poll (Result DataChannel)) (hk : Kept s t) :
    (f'.owner?.toList ++ ((deliveredChannel r).map DataChannel.owner ++
      ((front ++ back).filterMap DataChannelOpenFuture.owner? ++
        s.handles.map DataChannel.owner))).Perm
      ({ t with
        opens := front ++ f' :: back
        held := t.held ++ deliveredChannel r } : DataChannels).owners := by
  refine .trans (.append_left _ ?_) (owners_of_opens (s := { t with
    opens := front ++ f' :: back
    held := t.held ++ deliveredChannel r }) rfl).symm
  have hhandles : ({ t with
      opens := front ++ f' :: back
      held := t.held ++ deliveredChannel r } : DataChannels).handles =
      s.handles ++ deliveredChannel r := by
    simp only [handles, hk.inboundDc, hk.held, List.append_assoc]
  rw [hhandles, List.map_append, ← List.append_assoc (List.filterMap _ _)]
  exact List.perm_append_comm

theorem owners_dropOpen {front back : List DataChannelOpenFuture} {f : DataChannelOpenFuture}
    (h : s.opens = front ++ f :: back) :
    s.owners.Perm (f.owner?.toList ++
      ({ s.releaseOption f.guard with opens := front ++ back } : DataChannels).owners) := by
  refine (owners_of_opens h).trans (.of_eq ?_)
  have hk := s.releaseOption_kept f.guard
  simp only [owners, handles, hk.inboundDc, hk.held]

theorem owners_recvChannel {inbound : InboundDataChannel}
    {inboundDc : Channel dcInboundChannelSize InboundDataChannel}
    (h : s.inboundDc.tryRecv = some (inbound, inboundDc)) :
    s.owners.Perm ({ s with
      inboundDc := inboundDc
      held := s.held ++ [inbound.channel] } : DataChannels).owners := by
  simp only [owners, handles, (Channel.tryRecv_eq_some h).1, List.map_append,
    List.map_cons, List.map_nil, List.cons_append]
  refine .append_left _ ?_
  rw [← List.append_assoc]
  exact (List.perm_append_singleton _ _).symm

theorem owners_dropReceiver (s : DataChannels) :
    s.owners.Perm (s.inboundDc.queue.map (fun i => i.channel.owner) ++
      ({ s.inboundDc.queue.foldl (fun s i => s.releaseOption i.channel.guard) s with
        inboundDc := s.inboundDc.closeRx } : DataChannels).owners) := by
  have hk := s.releaseQueue_kept s.inboundDc.queue
  simp only [owners, handles, hk.opens, hk.held, List.map_append, List.map_map,
    Channel.closeRx_queue, List.map_nil, List.nil_append]
  exact List.perm_append_comm_assoc _ _ _

theorem owners_dropChannel {front back : List DataChannel} {channel : DataChannel}
    (h : s.held = front ++ channel :: back) :
    s.owners.Perm (channel.owner ::
      ({ s.releaseOption channel.guard with held := front ++ back } : DataChannels).owners) := by
  refine (owners_of_held h).trans (.of_eq ?_)
  have hk := s.releaseOption_kept channel.guard
  simp only [owners, handles, hk.inboundDc, hk.opens]

/-! ### Steps -/

theorem Accounts.releaseQueue {queue : List InboundDataChannel}
    (h : Accounts s (queue.map (fun i => i.channel.owner) ++ os)) :
    Accounts (queue.foldl (fun s i => s.releaseOption i.channel.guard) s) os := by
  induction queue generalizing s with
  | nil => exact h
  | cons i queue ih => exact ih (Accounts.releaseOption h)

theorem Accounts.releaseFuture {f : DataChannelOpenFuture}
    (h : Accounts s (f.owner?.toList ++ os)) : Accounts (s.releaseOption f.guard) os := by
  obtain ⟨peer, protocol, state⟩ := f
  cases state with
  | opening id guard => exact Accounts.releaseOption h
  | _ => exact h

theorem Accounts.handleInboundChannel (h : Accounts s s.owners) (protocol : StreamProtocol)
    (peer : PeerId) (stream : Stream) :
    Accounts (s.handleInboundChannel protocol peer stream)
      (s.handleInboundChannel protocol peer stream).owners := by
  unfold DataChannels.handleInboundChannel
  cases ha : s.acquire peer protocol .inbound with
  | none => exact h
  | some x =>
      obtain ⟨guard, u⟩ := x
      have hu : Accounts u.nextId.2
          (⟨peer, protocol, .inbound, some guard⟩ :: u.nextId.2.owners) := by
        have hacquired := h.acquire ha
        rw [← (acquire_kept ha).owners_eq] at hacquired
        exact hacquired.of_eq rfl rfl rfl
      simp only
      split
      · rename_i inboundDc heq
        obtain ⟨hacc, rfl⟩ := (Channel.trySend_ok_iff _ _ _).mp heq
        have hpush := owners_of_push (s := u.nextId.2) (Channel.push_queue _
          ⟨⟨u.nextId.1, peer, protocol, .inbound, stream, some guard⟩⟩ hacc.2)
        exact (hu.perm hpush).of_eq rfl rfl rfl
      · exact Accounts.releaseOption hu

/-- Every step keeps the accounts balanced. -/
theorem Accounts.step {l : DataChannelLabel} (h : Accounts s s.owners)
    (hs : DataChannelStep s l t) : Accounts t t.owners := by
  cases hs with
  | openDataChannel peer protocol =>
      rw [owners_openDataChannel]
      exact h.of_eq rfl rfl rfl
  | pollOpen outcome ho hp =>
      obtain ⟨haccounts, hkept⟩ := (h.perm (owners_of_opens ho)).poll hp
      exact (haccounts.perm (owners_pollOpen _ _ _ _ hkept)).of_eq rfl rfl rfl
  | dropOpen ho => exact (h.perm (owners_dropOpen ho)).releaseFuture.of_eq rfl rfl rfl
  | inbound protocol peer stream => exact h.handleInboundChannel protocol peer stream
  | recvChannel hr => exact (h.perm (owners_recvChannel hr)).of_eq rfl rfl rfl
  | dropChannelReceiver =>
      exact (h.perm s.owners_dropReceiver).releaseQueue.of_eq rfl rfl rfl
  | dropChannel hc =>
      exact (h.perm (owners_dropChannel hc)).releaseOption.of_eq rfl rfl rfl
  | intoStream hc =>
      exact (h.perm (owners_dropChannel hc)).releaseOption.of_eq rfl rfl rfl
  | dropStream hx => exact h.of_eq rfl rfl rfl

/-! ### Exactness -/

/-- The guards of the owners, and nothing else, are live. -/
theorem Accounts.live_perm (h : Accounts s os) : (os.filterMap QuotaOwner.guard).Perm s.live := by
  have hlive : (s.live.map ChannelGuard.owned).filterMap QuotaOwner.guard = s.live := by
    rw [List.filterMap_map]
    exact List.filterMap_some
  rw [← hlive]
  exact (h.guards.filterMap _).symm

end DataChannels

/-- In one state of the data channels: the live guards and the owners correspond one to
one, with the same peer, protocol and direction, and the registry counts the owners.
Futures that were not polled, errors, drops and refusals leave no quota behind. -/
structure QuotaExact (s : DataChannels) : Prop where
  nodup : s.live.Nodup
  owners : (s.live.map ChannelGuard.owned).Perm s.owners
  counts : s.registry.inner.Counts s.owners
  unpolled : ∀ front back f, s.opens = front ++ f :: back → f.state = .init →
    ({ s with opens := front ++ back } : DataChannels).owners = s.owners
  failed : ∀ front back f f' t outcome e, s.opens = front ++ f :: back →
    f.poll s outcome = some (f', t, .ready (.error e)) →
      f'.guard = none ∧ (f.guard.toList ++ t.live).Perm s.live
  cancelled : ∀ front back f, s.opens = front ++ f :: back →
    (f.guard.toList ++ (s.releaseOption f.guard).live).Perm s.live
  closed : ∀ front back channel, s.held = front ++ channel :: back →
    (channel.guard.toList ++ (s.releaseOption channel.guard).live).Perm s.live
  refused : ∀ protocol peer stream,
    s.registry.tryAcquire peer protocol .inbound = none ∨ ¬s.inboundDc.Accepts →
      (s.handleInboundChannel protocol peer stream).live = s.live
  empty : s.owners = [] → s.registry.inner = .empty

theorem DataChannels.Accounts.quotaExact {s : DataChannels} (h : s.Accounts s.owners) :
    QuotaExact s where
  nodup := h.nodup
  owners := h.guards
  counts := h.counts
  unpolled front back f ho hf := by
    have hnone : f.owner? = none := by
      unfold DataChannelOpenFuture.owner?
      rw [hf]
    simp [owners, handles, ho, hnone]
  failed front back f f' t outcome e ho hp := by
    have hs := h.perm (owners_of_opens ho)
    have ht := (hs.poll hp).1
    have hfinished := DataChannelOpenFuture.poll_ready hp
    rw [f'.owner?_of_finished hfinished] at ht
    refine ⟨f'.guard_of_finished hfinished, ?_⟩
    have hlive := hs.live_perm
    rw [List.filterMap_append, f.guard_owner?] at hlive
    exact (ht.live_perm.symm.append_left _).trans hlive
  cancelled front back f ho := by
    have hs := h.perm (owners_of_opens ho)
    have hlive := hs.live_perm
    rw [List.filterMap_append, f.guard_owner?] at hlive
    exact (hs.releaseFuture.live_perm.symm.append_left _).trans hlive
  closed front back channel hc := by
    have hs := h.perm (owners_of_held hc)
    have hlive := hs.live_perm
    rw [← List.singleton_append, List.filterMap_append, channel.guard_owner] at hlive
    exact (hs.releaseOption.live_perm.symm.append_left _).trans hlive
  refused protocol peer stream hno := by
    unfold DataChannels.handleInboundChannel
    cases ha : s.acquire peer protocol .inbound with
    | none => rfl
    | some x =>
        obtain ⟨guard, u⟩ := x
        have hfull : ¬u.nextId.2.inboundDc.Accepts := by
          show ¬u.inboundDc.Accepts
          rw [(acquire_kept ha).inboundDc]
          refine hno.resolve_left fun hlimit => ?_
          rw [DataChannels.acquire, hlimit] at ha
          cases ha
        obtain ⟨e, he⟩ := Channel.trySend_of_not_accepts
          (⟨⟨u.nextId.1, peer, protocol, .inbound, stream, some guard⟩⟩ : InboundDataChannel) hfull
        simp only [he]
        show u.live.erase guard = s.live
        rw [acquire_live ha, List.erase_cons_head]
  empty hnone := by
    have hc := h.counts
    rw [hnone] at hc
    exact hc.eq_empty

/-! ### The node -/

def Label.dataChannel? : Label Req Resp → Option DataChannelLabel
  | .inboundChannel protocol peer stream => some (.inbound protocol peer stream)
  | .dataChannel label => some label
  | _ => none

theorem Step.dataChannelStep {n m : Node L} {l : Label Req Resp} (h : Step n l m)
    {label : DataChannelLabel} (hl : l.dataChannel? = some label) :
    DataChannelStep n.dataChannels label m.dataChannels := by
  cases h with
  | inboundChannel protocol peer stream hp =>
      obtain rfl := Option.some.inj hl
      exact .inbound _ protocol peer stream
  | dataChannel hne h =>
      obtain rfl := Option.some.inj hl
      exact h
  | _ => cases hl

theorem Node.handleSwarmEvent_dataChannels (n : Node L) (order : List PeerId)
    (event : SwarmEvent Req Resp) :
    (n.handleSwarmEvent order event).dataChannels = n.dataChannels := by
  rcases n.handleSwarmEvent_cases order event with ⟨_, h⟩ | ⟨_, h⟩ <;> rw [h]

theorem Step.dataChannels_eq {n m : Node L} {l : Label Req Resp} (h : Step n l m)
    (hl : l.dataChannel? = none) : m.dataChannels = n.dataChannels := by
  cases h with
  | firstPoll waker h hp =>
      unfold Node.firstPoll
      split <;> rfl
  | swarmEvent hp h ho => exact Node.handleSwarmEvent_dataChannels _ _ _
  | inboundChannel protocol peer stream hp => cases hl
  | beginSend hp =>
      unfold Node.pollSend
      split <;> rfl
  | resumeSend hp h =>
      unfold Node.pollSend
      split <;> rfl
  | dataChannel hne h => cases hl
  | _ => rfl

/-- What every data-channel step keeps holds along the runs of a node. -/
theorem Step.dataChannels {P : DataChannels → Prop}
    (hP : ∀ s l t, P s → DataChannelStep s l t → P t) {n m : Node L} {l : Label Req Resp}
    (hn : P n.dataChannels) (h : Step n l m) : P m.dataChannels := by
  cases hl : l.dataChannel? with
  | none =>
      rw [h.dataChannels_eq hl]
      exact hn
  | some label => exact hP _ _ _ hn (h.dataChannelStep hl)

theorem Fresh.accounts {config : NodeConfig} {n : Node L} (h : Fresh config n) :
    n.dataChannels.Accounts n.dataChannels.owners := by
  rw [h.dataChannels_eq]
  exact .new _

theorem Reachable.accounts {config : NodeConfig} {n : Node L} (h : Reachable L config n) :
    n.dataChannels.Accounts n.dataChannels.owners :=
  Transition.Reachable.invariant
    (I := fun n : Node L => n.dataChannels.Accounts n.dataChannels.owners) h
    (fun _ hs => hs.fresh.accounts) fun _ _ _ ha hs =>
      hs.dataChannels (P := fun s => s.Accounts s.owners) (fun _ _ _ ha hs => ha.step hs) ha

/-- In every reachable state the registry counts exactly the channels and openings that exist. -/
theorem quota_exact {config : NodeConfig} {n : Node L} (h : Reachable L config n) :
    QuotaExact n.dataChannels :=
  h.accounts.quotaExact

/-! ### A channel and its stream -/

namespace Loopback

def protocol : StreamProtocol := "/loopback/data/1"

def stream : Stream := ⟨0⟩

def dataNode (s : DataChannels) : Node loopback := { node [] with dataChannels := s }

/-- `k` streams are in use without their handles. -/
def unwrapped (k : Nat) : DataChannels :=
  { DataChannels.new default with
    channelIdCounter := k % wordSize
    unwrapped := List.replicate k ⟨peer, protocol, .outbound, stream⟩
    nextSerial := k }

def asking (k : Nat) : DataChannels := { unwrapped k with opens := [⟨peer, protocol, .init⟩] }

def guard (k : Nat) : ChannelGuard := ⟨k, peer, protocol, .outbound⟩

def channel (k : Nat) : DataChannel :=
  ⟨⟨k % wordSize⟩, peer, protocol, .outbound, stream, some (guard k)⟩

def delivered (k : Nat) : DataChannels :=
  { asking k with
    registry := ⟨default, ⟨fun _ => none, Function.update (fun _ => none) peer (some 1),
      Function.update (fun _ => none) protocol (some 1)⟩⟩
    channelIdCounter := (k % wordSize + 1) % wordSize
    opens := [⟨peer, protocol, .finished⟩]
    held := [channel k]
    live := [guard k]
    nextSerial := k + 1 }

theorem dataNode_reachable {s t : DataChannels} {l : DataChannelLabel}
    (h : Reachable loopback (config []) (dataNode s)) (hs : DataChannelStep s l t)
    (hl : ∀ protocol peer stream, l ≠ .inbound protocol peer stream) :
    Reachable loopback (config []) (dataNode t) :=
  h.next (.dataChannel hl hs)

theorem asking_step (k : Nat) :
    DataChannelStep (unwrapped k) (.openDataChannel peer protocol) (asking k) :=
  .openDataChannel _ _ _

theorem delivered_step (k : Nat) :
    DataChannelStep (asking k) (.pollOpen 0 (.opened stream)) (delivered k) :=
  .pollOpen (.opened stream)
    (show (asking k).opens = [] ++ ⟨peer, protocol, .init⟩ :: [] from rfl) rfl

theorem delivered_of_unwrapped {k : Nat}
    (h : Reachable loopback (config []) (dataNode (unwrapped k))) :
    Reachable loopback (config []) (dataNode (delivered k)) :=
  dataNode_reachable (dataNode_reachable h (asking_step k) (by simp)) (delivered_step k) (by simp)

end Loopback

theorem quota_exact_delivered :
    (Loopback.delivered 0).owners = [(Loopback.guard 0).owned] ∧
      QuotaExact (Loopback.delivered 0) :=
  ⟨rfl, quota_exact (n := Loopback.dataNode (Loopback.delivered 0))
    (Loopback.delivered_of_unwrapped (Loopback.reachable []))⟩

end SwarmP2p
