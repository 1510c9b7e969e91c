import SwarmP2p.Verification.DataChannel.Delivery

/-! # No stream is lost or doubled

Each stream that libp2p hands over is in one place: in the queue, in a handle, or out of
its handle, with the peer, the protocol and the direction it came with. It leaves when the
application drops it, and an incoming one also when the registry or the queue refuses it. -/

namespace SwarmP2p

variable {Req Resp : Type} {L : Libp2p Req Resp}

/-- The stream of a handle, as `into_stream` takes it out. -/
def DataChannel.bare (self : DataChannel) : UnwrappedStream :=
  ⟨self.peer, self.protocol, self.direction, self.stream⟩

/-- What a poll that ends so gets from libp2p: a future that is refused quota opens no
stream. -/
def DataChannelOpenFuture.gets (self : DataChannelOpenFuture) (s : DataChannels) :
    StreamPoll → List UnwrappedStream
  | .opened stream =>
      if self.state = .init → (s.acquire self.peer self.protocol .outbound).isSome then
        [⟨self.peer, self.protocol, .outbound, stream⟩]
      else []
  | _ => []

namespace DataChannels

/-- The streams that exist. -/
def carried (s : DataChannels) : List UnwrappedStream :=
  s.handles.map DataChannel.bare ++ s.unwrapped

/-- There is quota for an incoming channel, and room in the queue. -/
def Admits (s : DataChannels) (protocol : StreamProtocol) (peer : PeerId) : Prop :=
  (s.acquire peer protocol .inbound).isSome ∧ s.inboundDc.Accepts

instance (s : DataChannels) (protocol : StreamProtocol) (peer : PeerId) :
    Decidable (s.Admits protocol peer) :=
  inferInstanceAs (Decidable (_ ∧ _))

/-- The stream that libp2p hands over in a step. -/
def hands (s : DataChannels) : DataChannelLabel → List UnwrappedStream
  | .inbound protocol peer stream => [⟨peer, protocol, .inbound, stream⟩]
  | .pollOpen index outcome => s.opens[index]?.toList.flatMap (·.gets s outcome)
  | _ => []

/-- The streams that go away in a step. -/
def drops (s : DataChannels) : DataChannelLabel → List UnwrappedStream
  | .inbound protocol peer stream =>
      if s.Admits protocol peer then [] else [⟨peer, protocol, .inbound, stream⟩]
  | .dropChannelReceiver => s.inboundDc.queue.map (·.channel.bare)
  | .dropChannel index => s.held[index]?.toList.map DataChannel.bare
  | .dropStream index => s.unwrapped[index]?.toList
  | _ => []

def handed (σ : List (Transition.Trans DataChannels DataChannelLabel)) : List UnwrappedStream :=
  σ.flatMap fun x => x.pre.hands x.label

def dropped (σ : List (Transition.Trans DataChannels DataChannelLabel)) : List UnwrappedStream :=
  σ.flatMap fun x => x.pre.drops x.label

variable {s t : DataChannels} {l : DataChannelLabel}

theorem Kept.carried_eq (h : Kept s t) : t.carried = s.carried := by
  unfold carried handles
  rw [h.inboundDc, h.held, h.unwrapped]

/-- One held handle in front of the other streams. -/
theorem carried_of_held {front back : List DataChannel} {channel : DataChannel}
    (h : s.held = front ++ channel :: back) :
    s.carried.Perm
      (channel.bare :: ({ s with held := front ++ back } : DataChannels).carried) := by
  unfold carried handles
  rw [h]
  simp only [List.map_append, List.map_cons, ← List.append_assoc, ← List.cons_append]
  exact List.perm_middle.append_right _

/-- Handles that the application gets. -/
theorem carried_give (s : DataChannels) (channels : List DataChannel) :
    (channels.map DataChannel.bare ++ s.carried).Perm
      ({ s with held := s.held ++ channels } : DataChannels).carried := by
  have hhandles : ({ s with held := s.held ++ channels } : DataChannels).handles =
      s.handles ++ channels := (List.append_assoc _ _ _).symm
  rw [carried, carried, hhandles, List.map_append, ← List.append_assoc]
  exact List.perm_append_comm.append_right _

/-! ### Polls and the event loop -/

theorem pollOpening_gets {f f' : DataChannelOpenFuture} {id : DataChannelId}
    {guard : ChannelGuard} {outcome : StreamPoll} {r : Poll (Result DataChannel)}
    (hp : f.pollOpening id guard s outcome = (f', t, r)) :
    (deliveredChannel r).map DataChannel.bare =
      match outcome with
      | .opened stream => [⟨f.peer, f.protocol, .outbound, stream⟩]
      | _ => [] := by
  cases outcome <;> cases hp <;> rfl

/-- The handle that a poll gives out carries the stream that libp2p opened. -/
theorem poll_gets {f f' : DataChannelOpenFuture} {outcome : StreamPoll}
    {r : Poll (Result DataChannel)} (hp : f.poll s outcome = some (f', t, r)) :
    (deliveredChannel r).map DataChannel.bare = f.gets s outcome := by
  rcases poll_cases hp with ⟨hinit, ha, _, _, rfl⟩ | ⟨guard, u, hinit, ha, hp⟩ |
    ⟨id, guard, hopening, hp⟩
  · cases outcome <;> simp [deliveredChannel, DataChannelOpenFuture.gets, hinit, ha]
  · rw [pollOpening_gets hp]
    cases outcome <;> simp [DataChannelOpenFuture.gets, hinit, ha]
  · rw [pollOpening_gets hp]
    cases outcome <;> simp [DataChannelOpenFuture.gets, hopening]

/-- An incoming stream is queued, or dropped at once. -/
theorem handleInboundChannel_carried (s : DataChannels) (protocol : StreamProtocol)
    (peer : PeerId) (stream : Stream) :
    (⟨peer, protocol, .inbound, stream⟩ :: s.carried).Perm
      ((if s.Admits protocol peer then [] else [⟨peer, protocol, .inbound, stream⟩]) ++
        (s.handleInboundChannel protocol peer stream).carried) := by
  unfold handleInboundChannel
  cases ha : s.acquire peer protocol .inbound with
  | none => rw [if_neg (by simp [Admits, ha]), List.singleton_append]
  | some x =>
      obtain ⟨guard, u⟩ := x
      have hkept : Kept s u.nextId.2 := (acquire_kept ha).trans ⟨rfl, rfl, rfl, rfl, rfl⟩
      have hadmits : s.Admits protocol peer ↔ u.nextId.2.inboundDc.Accepts := by
        rw [hkept.inboundDc]
        simp [Admits, ha]
      dsimp only
      by_cases hyes : s.Admits protocol peer
      · rw [Channel.trySend_of_accepts _ (hadmits.mp hyes), if_pos hyes, List.nil_append,
          ← hkept.carried_eq]
        simp only [carried, handles, Channel.push_queue, List.map_append, List.map_cons,
          List.map_nil, List.append_assoc]
        exact List.perm_middle.symm
      · obtain ⟨e, he⟩ := Channel.trySend_of_not_accepts
          (⟨⟨u.nextId.1, peer, protocol, .inbound, stream, some guard⟩⟩ : InboundDataChannel)
          (mt hadmits.mpr hyes)
        rw [he, if_neg hyes, List.singleton_append,
          (hkept.trans (u.nextId.2.release_kept guard)).carried_eq]

/-! ### Steps and runs -/

theorem step_accounted (h : DataChannelStep s l t) :
    (s.hands l ++ s.carried).Perm (s.drops l ++ t.carried) := by
  cases h with
  | openDataChannel peer protocol => exact .refl _
  | @pollOpen front back f f' t r outcome h hp =>
      have hhands : s.hands (.pollOpen front.length outcome) = f.gets s outcome := by
        simp [hands, h]
      rw [hhands, ← poll_gets hp, ← (poll_ids hp).1.carried_eq]
      exact t.carried_give (deliveredChannel r)
  | @dropOpen front back f h => exact .of_eq (s.releaseOption_kept f.guard).carried_eq.symm
  | inbound protocol peer stream => exact s.handleInboundChannel_carried protocol peer stream
  | @recvChannel inbound inboundDc h =>
      have hqueue : s.carried = inbound.channel.bare ::
          ({ s with inboundDc := inboundDc } : DataChannels).carried := by
        simp [carried, handles, (Channel.tryRecv_eq_some h).1]
      rw [show s.hands .recvChannel ++ s.carried = s.carried from rfl, hqueue]
      exact carried_give { s with inboundDc := inboundDc } [inbound.channel]
  | dropChannelReceiver =>
      have hkept := s.releaseQueue_kept s.inboundDc.queue
      exact .of_eq (by simp [hands, drops, carried, handles, hkept.held, hkept.unwrapped])
  | @dropChannel front back channel h =>
      have hdrops : s.drops (.dropChannel front.length) = [channel.bare] := by
        simp [drops, h]
      have hkept := s.releaseOption_kept channel.guard
      rw [hdrops]
      refine (carried_of_held h).trans (.of_eq ?_)
      simp [carried, handles, hkept.inboundDc, hkept.unwrapped]
  | @intoStream front back channel h =>
      have hkept := s.releaseOption_kept channel.guard
      refine (carried_of_held h).trans ((List.perm_append_singleton _ _).symm.trans (.of_eq ?_))
      simp [drops, carried, handles, hkept.inboundDc, DataChannel.bare]
  | @dropStream front back x h =>
      have hdrops : s.drops (.dropStream front.length) = [x] := by
        simp [drops, h]
      show s.carried.Perm _
      rw [hdrops, carried, h]
      exact (List.perm_middle.append_left _).trans List.perm_middle

end DataChannels

/-- Whatever libp2p hands over in a run exists in one place, as it came, or was dropped; so
no two handles ever share a stream that was handed over once. -/
theorem streams_accounted {config : NodeConfig} {n m : Node L}
    {π : List (Transition.Trans (Node L) (Label Req Resp))} (hs : Started L config n)
    (h : Run L n π m) :
    (DataChannels.handed (dataChannelSteps π)).Perm
        (m.dataChannels.carried ++ DataChannels.dropped (dataChannelSteps π)) ∧
      (((DataChannels.handed (dataChannelSteps π)).map UnwrappedStream.stream).Nodup →
        (m.dataChannels.carried.map UnwrappedStream.stream).Nodup) := by
  have hnew : n.dataChannels.carried = [] := by
    rw [hs.fresh.dataChannels_eq]
    rfl
  have hbalance := Transition.Path.balance_perm DataChannels.carried
    (fun x => x.pre.hands x.label) (fun x => x.pre.drops x.label)
    (fun a l b hs => List.perm_append_comm.trans
      ((DataChannels.step_accounted hs).trans List.perm_append_comm)) h.dataChannels
  rw [hnew, List.nil_append] at hbalance
  refine ⟨hbalance, fun hnodup => ?_⟩
  have hwhole := (hbalance.map UnwrappedStream.stream).nodup_iff.mp hnodup
  rw [List.map_append] at hwhole
  exact (List.nodup_append.mp hwhole).1

open Loopback in
/-- The stream that was opened is in the handle. -/
theorem streams_accounted_opened :
    (delivered 0).carried = [⟨peer, protocol, .outbound, stream⟩] ∧
      (DataChannels.handed (dataChannelSteps openSteps)).Perm
        ((delivered 0).carried ++ DataChannels.dropped (dataChannelSteps openSteps)) :=
  ⟨rfl, (streams_accounted (started []) openSteps_run).1⟩

end SwarmP2p
