import SwarmP2p.Library.History
import SwarmP2p.Verification.DataChannel.Quota

/-! # Which channels the application gets

Incoming channels are handed out in the order in which the loop accepted them, each once.
All channels that a node hands out, whichever side opened them, have different ids, until
the counter of the ids wraps. -/

namespace SwarmP2p

variable {Req Resp : Type} {L : Libp2p Req Resp}

/-- The steps of a run that concern data channels. -/
def dataChannelSteps (π : List (Transition.Trans (Node L) (Label Req Resp))) :
    List (Transition.Trans DataChannels DataChannelLabel) :=
  π.filterMap fun x =>
    x.label.dataChannel?.map (⟨x.pre.dataChannels, ·, x.post.dataChannels⟩)

theorem Run.dataChannels {n m : Node L}
    {π : List (Transition.Trans (Node L) (Label Req Resp))} (h : Run L n π m) :
    Transition.Path DataChannelStep n.dataChannels (dataChannelSteps π) m.dataChannels :=
  h.project Node.dataChannels (fun x => x.label.dataChannel?)
    (fun _ _ _ _ hs hl => hs.dataChannelStep hl) fun _ _ _ hs hl => hs.dataChannels_eq hl

namespace DataChannels

/-- The incoming channel that a step puts into the queue. -/
def queued? (x : Transition.Trans DataChannels DataChannelLabel) : List InboundDataChannel :=
  match x.label with
  | .inbound _ _ _ => x.post.inboundDc.queue.drop x.pre.inboundDc.queue.length
  | _ => []

/-- The incoming channel that a step takes out of the queue. -/
def taken? (x : Transition.Trans DataChannels DataChannelLabel) : List InboundDataChannel :=
  match x.label with
  | .recvChannel => x.pre.inboundDc.queue.head?.toList
  | _ => []

/-- The handle that a step gives to the application. -/
def given? (x : Transition.Trans DataChannels DataChannelLabel) : List DataChannel :=
  match x.label with
  | .recvChannel => x.post.held.drop x.pre.held.length
  | .pollOpen _ _ => x.post.held.drop x.pre.held.length
  | _ => []

def queued (π : List (Transition.Trans DataChannels DataChannelLabel)) :
    List InboundDataChannel :=
  π.flatMap queued?

def taken (π : List (Transition.Trans DataChannels DataChannelLabel)) :
    List InboundDataChannel :=
  π.flatMap taken?

def given (π : List (Transition.Trans DataChannels DataChannelLabel)) : List DataChannel :=
  π.flatMap given?

def inboundFifo : Transition.Fifo DataChannels DataChannelLabel InboundDataChannel where
  isOpen s := s.inboundDc.rxAlive = true
  queue s := s.inboundDc.queue
  enters := queued?
  leaves := taken?

end DataChannels

/-- The id that a future has taken for its channel. -/
def DataChannelOpenFuture.id? (f : DataChannelOpenFuture) : Option DataChannelId :=
  match f.state with
  | .opening id _ => some id
  | _ => none

namespace DataChannels

variable {s t : DataChannels} {l : DataChannelLabel}

/-! ### Ids -/

/-- The ids of the channels that are queued or being opened. -/
def ids (s : DataChannels) : List DataChannelId :=
  s.inboundDc.queue.map (·.channel.id) ++ s.opens.filterMap DataChannelOpenFuture.id?

/-- A piece of code takes these ids from the counter, one for each guard it acquires. -/
inductive Draws (s t : DataChannels) : List DataChannelId → Prop where
  | none (hcounter : t.channelIdCounter = s.channelIdCounter)
      (hserial : t.nextSerial = s.nextSerial) : Draws s t []
  | next (hcounter : t.channelIdCounter = (s.channelIdCounter + 1) % wordSize)
      (hserial : t.nextSerial = s.nextSerial + 1) : Draws s t [⟨s.channelIdCounter⟩]

theorem Draws.of_eq {u : DataChannels} {new : List DataChannelId} (h : Draws s t new)
    (hcounter : u.channelIdCounter = t.channelIdCounter) (hserial : u.nextSerial = t.nextSerial) :
    Draws s u new := by
  cases h with
  | none hc hs => exact .none (hcounter.trans hc) (hserial.trans hs)
  | next hc hs => exact .next (hcounter.trans hc) (hserial.trans hs)

theorem releaseOption_draws (s : DataChannels) (guard : Option ChannelGuard) :
    Draws s (s.releaseOption guard) [] := by
  cases guard with
  | none => exact .none rfl rfl
  | some guard => exact .none rfl rfl

theorem releaseQueue_draws (s : DataChannels) (queue : List InboundDataChannel) :
    Draws s (queue.foldl (fun s i => s.releaseOption i.channel.guard) s) [] := by
  induction queue generalizing s with
  | nil => exact .none rfl rfl
  | cons i queue ih =>
      have hfirst := s.releaseOption_draws i.channel.guard
      cases ih (s.releaseOption i.channel.guard) with
      | none hcounter hserial => exact hfirst.of_eq hcounter hserial

/-- Acquiring a guard and taking an id go together. -/
theorem acquire_draws {peer : PeerId} {protocol : StreamProtocol}
    {direction : DataChannelDirection} {guard : ChannelGuard}
    (ha : s.acquire peer protocol direction = some (guard, t)) :
    t.nextId.1 = ⟨s.channelIdCounter⟩ ∧ Draws s t.nextId.2 [⟨s.channelIdCounter⟩] := by
  obtain ⟨registry, _, heq⟩ := Option.map_eq_some_iff.mp ha
  obtain ⟨rfl, rfl⟩ := Prod.mk.inj heq
  exact ⟨rfl, .next rfl rfl⟩

/-- A future that has its id keeps it, gives it to the handle, or loses it. -/
theorem pollOpening_ids {f f' : DataChannelOpenFuture} {id : DataChannelId}
    {guard : ChannelGuard} {outcome : StreamPoll} {r : Poll (Result DataChannel)}
    (hp : f.pollOpening id guard s outcome = (f', t, r)) :
    Kept s t ∧ Draws s t [] ∧
      ((deliveredChannel r).map DataChannel.id ++ f'.id?.toList).Sublist [id] := by
  cases outcome <;> simp only [DataChannelOpenFuture.pollOpening, Prod.mk.injEq] at hp <;>
    obtain ⟨rfl, rfl, rfl⟩ := hp
  · exact ⟨.refl s, .none rfl rfl, .refl _⟩
  · exact ⟨.refl s, .none rfl rfl, .refl _⟩
  · exact ⟨s.release_kept guard, .none rfl rfl, List.nil_sublist _⟩
  · exact ⟨s.release_kept guard, .none rfl rfl, List.nil_sublist _⟩

/-- A poll is refused a guard, or takes one and an id, or goes on with those it has. -/
theorem poll_cases {f f' : DataChannelOpenFuture} {outcome : StreamPoll}
    {r : Poll (Result DataChannel)} (hp : f.poll s outcome = some (f', t, r)) :
    (f.state = .init ∧ s.acquire f.peer f.protocol .outbound = none ∧
        f' = { f with state := .finished } ∧ t = s ∧
        r = .ready (.error (.dataChannel .resourceLimitExceeded))) ∨
      (∃ guard u, f.state = .init ∧ s.acquire f.peer f.protocol .outbound = some (guard, u) ∧
        f.pollOpening u.nextId.1 guard u.nextId.2 outcome = (f', t, r)) ∨
      ∃ id guard, f.state = .opening id guard ∧
        f.pollOpening id guard s outcome = (f', t, r) := by
  unfold DataChannelOpenFuture.poll at hp
  split at hp
  · rename_i hinit
    split at hp
    · rename_i hrefused
      cases hp
      exact .inl ⟨hinit, hrefused, rfl, rfl, rfl⟩
    · rename_i guard u hgranted
      exact .inr (.inl ⟨guard, u, hinit, hgranted, Option.some.inj hp⟩)
  · rename_i id guard hopening
    exact .inr (.inr ⟨id, guard, hopening, Option.some.inj hp⟩)
  · cases hp

theorem poll_ids {f f' : DataChannelOpenFuture} {outcome : StreamPoll}
    {r : Poll (Result DataChannel)} (hp : f.poll s outcome = some (f', t, r)) :
    Kept s t ∧ ∃ new, Draws s t new ∧
      ((deliveredChannel r).map DataChannel.id ++ f'.id?.toList).Sublist
        (new ++ f.id?.toList) := by
  rcases poll_cases hp with ⟨_, _, rfl, rfl, rfl⟩ | ⟨guard, u, hinit, ha, hp⟩ |
    ⟨id, guard, hopening, hp⟩
  · exact ⟨.refl t, [], .none rfl rfl, List.nil_sublist _⟩
  · obtain ⟨hid, hdraws⟩ := acquire_draws ha
    have hnext : Kept u u.nextId.2 := ⟨rfl, rfl, rfl, rfl, rfl⟩
    have hfresh : f.id? = none := by rw [DataChannelOpenFuture.id?, hinit]
    obtain ⟨hkept, hnone, hsub⟩ := pollOpening_ids hp
    cases hnone with
    | none hcounter hserial =>
        refine ⟨((acquire_kept ha).trans hnext).trans hkept, _,
          hdraws.of_eq hcounter hserial, ?_⟩
        rw [hid] at hsub
        rw [hfresh]
        exact hsub
  · obtain ⟨hkept, hnone, hsub⟩ := pollOpening_ids hp
    have hown : f.id? = some id := by rw [DataChannelOpenFuture.id?, hopening]
    rw [hown]
    exact ⟨hkept, [], hnone, hsub⟩

/-! ### Steps -/

/-- One future in front of the other ids. -/
theorem ids_of_opens {front back : List DataChannelOpenFuture} {f : DataChannelOpenFuture}
    (h : s.opens = front ++ f :: back) :
    s.ids.Perm (f.id?.toList ++ (s.inboundDc.queue.map (·.channel.id) ++
      (front ++ back).filterMap DataChannelOpenFuture.id?)) := by
  rw [ids, h]
  apply ((filterMap_split _ front back f).append_left _).trans
  rw [← List.append_assoc, ← List.append_assoc]
  exact List.perm_append_comm.append_right _

theorem handleInboundChannel_ids (s : DataChannels) (protocol : StreamProtocol) (peer : PeerId)
    (stream : Stream) : ∃ new, Draws s (s.handleInboundChannel protocol peer stream) new ∧
      (s.handleInboundChannel protocol peer stream).ids.Subperm (new ++ s.ids) := by
  unfold handleInboundChannel
  cases ha : s.acquire peer protocol .inbound with
  | none => exact ⟨[], .none rfl rfl, List.Subperm.refl _⟩
  | some x =>
      obtain ⟨guard, u⟩ := x
      obtain ⟨hid, hdraws⟩ := acquire_draws ha
      have hkept := acquire_kept ha
      dsimp only
      split
      · rename_i inboundDc heq
        obtain ⟨hroom, rfl⟩ := (Channel.trySend_ok_iff _ _ _).mp heq
        refine ⟨_, hdraws.of_eq rfl rfl, ?_⟩
        have hinbound : u.nextId.2.inboundDc = s.inboundDc := hkept.inboundDc
        have hopens : u.nextId.2.opens = s.opens := hkept.opens
        have hqueue : ((u.nextId.2.inboundDc.push
            ⟨⟨u.nextId.1, peer, protocol, .inbound, stream, some guard⟩⟩ hroom.2).queue.map
              fun i => i.channel.id) =
            s.inboundDc.queue.map (·.channel.id) ++ [⟨s.channelIdCounter⟩] := by
          rw [Channel.push_queue, List.map_append, hinbound, ← hid]
          rfl
        simp only [ids]
        rw [hqueue, hopens]
        exact ((List.perm_append_singleton _ _).append_right _).subperm
      · refine ⟨_, hdraws.of_eq rfl rfl, ?_⟩
        have hids : (u.nextId.2.release guard).ids = s.ids := by
          rw [ids, ids, show (u.nextId.2.release guard).inboundDc = s.inboundDc from
            hkept.inboundDc, show (u.nextId.2.release guard).opens = s.opens from hkept.opens]
        rw [hids]
        exact (List.sublist_append_right _ _).subperm

/-- Every id in use after a step was in use before or is drawn in it. -/
theorem step_ids (h : DataChannelStep s l t) : ∃ new, Draws s t new ∧
    ((given? ⟨s, l, t⟩).map DataChannel.id ++ t.ids).Subperm (new ++ s.ids) := by
  cases h with
  | openDataChannel peer protocol =>
      refine ⟨[], .none rfl rfl, ?_⟩
      have hnone : DataChannelOpenFuture.id? ⟨peer, protocol, .init⟩ = none := rfl
      simp [given?, ids, hnone, List.Subperm.refl]
  | @pollOpen front back f f' u r outcome h hp =>
      obtain ⟨hkept, new, hdraws, hsub⟩ := poll_ids hp
      refine ⟨new, hdraws.of_eq rfl rfl, ?_⟩
      have hgiven : given? (⟨s, .pollOpen front.length outcome,
          { u with opens := front ++ f' :: back, held := u.held ++ deliveredChannel r }⟩ :
            Transition.Trans DataChannels DataChannelLabel) = deliveredChannel r := by
        simp [given?, hkept.held]
      have hafter := ids_of_opens (s := { u with
        opens := front ++ f' :: back, held := u.held ++ deliveredChannel r }) rfl
      have hbefore := (ids_of_opens h).append_left new
      rw [hgiven]
      refine (hafter.append_left _).subperm.trans (List.Subperm.trans ?_ hbefore.symm.subperm)
      rw [← List.append_assoc, ← List.append_assoc new, hkept.inboundDc]
      exact (hsub.append (List.Sublist.refl _)).subperm
  | @dropOpen front back f h =>
      refine ⟨[], (s.releaseOption_draws f.guard).of_eq rfl rfl, ?_⟩
      have hkept := s.releaseOption_kept f.guard
      refine List.Subperm.trans ?_ (ids_of_opens h).symm.subperm
      simp only [given?, ids, hkept.inboundDc, List.map_nil, List.nil_append]
      exact (List.sublist_append_right _ _).subperm
  | inbound protocol peer stream => exact s.handleInboundChannel_ids protocol peer stream
  | @recvChannel inbound inboundDc h =>
      obtain ⟨hqueue, _⟩ := Channel.tryRecv_eq_some h
      refine ⟨[], .none rfl rfl, ?_⟩
      simp [given?, ids, hqueue, List.Subperm.refl]
  | dropChannelReceiver =>
      refine ⟨[], (s.releaseQueue_draws s.inboundDc.queue).of_eq rfl rfl, ?_⟩
      have hkept := s.releaseQueue_kept s.inboundDc.queue
      simp only [given?, ids, hkept.opens, Channel.closeRx_queue, List.map_nil, List.nil_append]
      exact (List.sublist_append_right _ _).subperm
  | @dropChannel front back channel h =>
      have hkept := s.releaseOption_kept channel.guard
      refine ⟨[], (s.releaseOption_draws channel.guard).of_eq rfl rfl, ?_⟩
      simp [given?, ids, hkept.inboundDc, hkept.opens, List.Subperm.refl]
  | @intoStream front back channel h =>
      have hkept := s.releaseOption_kept channel.guard
      refine ⟨[], (s.releaseOption_draws channel.guard).of_eq rfl rfl, ?_⟩
      simp [given?, ids, hkept.inboundDc, hkept.opens, List.Subperm.refl]
  | dropStream h =>
      refine ⟨[], .none rfl rfl, ?_⟩
      simp [given?, ids, List.Subperm.refl]

theorem nodup_of_subperm {α : Type} {xs ys : List α} (h : xs.Subperm ys) (hn : ys.Nodup) :
    xs.Nodup := by
  obtain ⟨zs, hperm, hsub⟩ := h
  exact hperm.nodup_iff.mp (hn.sublist hsub)

/-- The ids handed out so far and those in use come from the counter, once each. -/
structure Numbered (out : List DataChannel) (s : DataChannels) : Prop where
  counter : s.channelIdCounter = s.nextSerial % wordSize
  distinct : s.nextSerial ≤ wordSize → (out.map DataChannel.id ++ s.ids).Nodup ∧
    ∀ id ∈ out.map DataChannel.id ++ s.ids, id.val < s.nextSerial

theorem Numbered.step {out : List DataChannel} (hn : Numbered out s)
    (h : DataChannelStep s l t) : Numbered (out ++ given? ⟨s, l, t⟩) t := by
  obtain ⟨new, hdraws, hsub⟩ := step_ids h
  have hwhole : ((out ++ given? ⟨s, l, t⟩).map DataChannel.id ++ t.ids).Subperm
      (new ++ (out.map DataChannel.id ++ s.ids)) := by
    rw [List.map_append, List.append_assoc]
    apply ((List.subperm_append_left _).mpr hsub).trans
    rw [← List.append_assoc, ← List.append_assoc]
    exact (List.perm_append_comm.append_right _).subperm
  cases hdraws with
  | none hcounter hserial =>
      refine ⟨by rw [hcounter, hserial, hn.counter], fun hle => ?_⟩
      rw [hserial] at hle
      obtain ⟨hnodup, hlt⟩ := hn.distinct hle
      refine ⟨nodup_of_subperm hwhole hnodup, fun id hid => ?_⟩
      rw [hserial]
      exact hlt id (hwhole.subset hid)
  | next hcounter hserial =>
      refine ⟨by rw [hcounter, hserial, hn.counter, Nat.mod_add_mod], fun hle => ?_⟩
      rw [hserial] at hle
      obtain ⟨hnodup, hlt⟩ := hn.distinct (by omega)
      have hval : s.channelIdCounter = s.nextSerial := by
        rw [hn.counter, Nat.mod_eq_of_lt (by omega)]
      -- The new id is the number of the ids drawn before, so it is none of them.
      have hfresh : (⟨s.channelIdCounter⟩ : DataChannelId) ∉ out.map DataChannel.id ++ s.ids := by
        intro hmem
        have hless : s.channelIdCounter < s.nextSerial := hlt _ hmem
        omega
      refine ⟨nodup_of_subperm hwhole (List.nodup_cons.mpr ⟨hfresh, hnodup⟩), fun id hid => ?_⟩
      rcases List.mem_cons.mp (hwhole.subset hid) with rfl | hid
      · show s.channelIdCounter < t.nextSerial
        omega
      · have hless := hlt id hid
        omega

/-! ### The queue of incoming channels -/

/-- What a step does to the queue. -/
inductive Inbound (s t : DataChannels) (l : DataChannelLabel) : Prop where
  | same (hl : l ≠ .recvChannel) (heq : t.inboundDc = s.inboundDc)
  | pushed (i : InboundDataChannel) (protocol peer stream) (hl : l = .inbound protocol peer stream)
      (halive : s.inboundDc.rxAlive = true) (hopen : t.inboundDc.rxAlive = true)
      (hqueue : t.inboundDc.queue = s.inboundDc.queue ++ [i])
  | took (i : InboundDataChannel) (hl : l = .recvChannel)
      (hqueue : s.inboundDc.queue = i :: t.inboundDc.queue)
      (halive : t.inboundDc.rxAlive = s.inboundDc.rxAlive)
  | closed (hl : l = .dropChannelReceiver) (heq : t.inboundDc = s.inboundDc.closeRx)

theorem handleInboundChannel_inbound (s : DataChannels) (protocol : StreamProtocol)
    (peer : PeerId) (stream : Stream) :
    Inbound s (s.handleInboundChannel protocol peer stream) (.inbound protocol peer stream) := by
  unfold handleInboundChannel
  cases ha : s.acquire peer protocol .inbound with
  | none => exact .same (by simp) rfl
  | some x =>
      obtain ⟨guard, u⟩ := x
      have hinbound : u.nextId.2.inboundDc = s.inboundDc := (acquire_kept ha).inboundDc
      dsimp only
      split
      · rename_i inboundDc heq
        obtain ⟨hroom, rfl⟩ := (Channel.trySend_ok_iff _ _ _).mp heq
        rw [hinbound] at hroom
        refine .pushed ⟨⟨u.nextId.1, peer, protocol, .inbound, stream, some guard⟩⟩ protocol peer
          stream rfl hroom.1 ?_ ?_
        · rw [Channel.push_rxAlive, hinbound, hroom.1]
        · rw [Channel.push_queue, hinbound]
      · exact .same (by simp) hinbound

theorem step_inbound (h : DataChannelStep s l t) : Inbound s t l := by
  cases h with
  | openDataChannel peer protocol => exact .same (by simp) rfl
  | pollOpen outcome h hp => exact .same (by simp) (poll_ids hp).1.inboundDc
  | @dropOpen front back f h => exact .same (by simp) (s.releaseOption_kept f.guard).inboundDc
  | inbound protocol peer stream => exact s.handleInboundChannel_inbound protocol peer stream
  | recvChannel h =>
      obtain ⟨hqueue, halive⟩ := Channel.tryRecv_eq_some h
      exact .took _ rfl hqueue halive
  | dropChannelReceiver => exact .closed rfl rfl
  | @dropChannel front back channel h =>
      exact .same (by simp) (s.releaseOption_kept channel.guard).inboundDc
  | @intoStream front back channel h =>
      exact .same (by simp) (s.releaseOption_kept channel.guard).inboundDc
  | dropStream h => exact .same (by simp) rfl

/-- Without a receiver the queue is empty. -/
def NothingLeft (s : DataChannels) : Prop :=
  s.inboundDc.rxAlive = false → s.inboundDc.queue = []

theorem Inbound.nothingLeft (hn : s.NothingLeft) (h : Inbound s t l) : t.NothingLeft := by
  intro hdead
  cases h with
  | same hl heq => rw [heq, hn (by rw [← heq, hdead])]
  | pushed i protocol peer stream hl halive hopen hqueue =>
      rw [hopen] at hdead
      cases hdead
  | took i hl hqueue halive =>
      rw [hn (by rw [← halive, hdead])] at hqueue
      cases hqueue
  | closed hl heq => rw [heq, Channel.closeRx_queue]

/-- While there is a receiver, what enters the queue leaves it at the other end. -/
theorem Inbound.open (h : Inbound s t l) (ha : t.inboundDc.rxAlive = true) :
    s.inboundDc.rxAlive = true ∧
      s.inboundDc.queue ++ queued? ⟨s, l, t⟩ = taken? ⟨s, l, t⟩ ++ t.inboundDc.queue := by
  cases h with
  | same hl heq =>
      refine ⟨by rw [← heq, ha], ?_⟩
      cases l <;> simp_all [queued?, taken?]
  | pushed i protocol peer stream hl halive hopen hqueue =>
      subst hl
      exact ⟨halive, by simp [queued?, taken?, hqueue]⟩
  | took i hl hqueue halive =>
      subst hl
      exact ⟨by rw [← halive, ha], by simp [queued?, taken?, hqueue]⟩
  | closed hl heq =>
      rw [heq] at ha
      cases ha

theorem Inbound.dropped (hn : s.NothingLeft) (h : Inbound s t l)
    (ha : ¬t.inboundDc.rxAlive = true) : taken? ⟨s, l, t⟩ = [] := by
  cases h with
  | same hl heq => cases l <;> first | rfl | exact absurd rfl hl
  | pushed i protocol peer stream hl halive hopen hqueue => exact absurd hopen ha
  | took i hl hqueue halive =>
      rw [hn (by rw [← halive]; simpa using ha)] at hqueue
      cases hqueue
  | closed hl heq =>
      subst hl
      rfl

end DataChannels

/-! ### Runs -/

theorem DataChannels.numbered {s t : DataChannels}
    {σ : List (Transition.Trans DataChannels DataChannelLabel)}
    (h : Transition.Path DataChannelStep s σ t) (hs : DataChannels.Numbered [] s) :
    DataChannels.Numbered (DataChannels.given σ) t := by
  induction h with
  | nil => exact hs
  | snoc _ hstep ih =>
      rw [DataChannels.given, List.flatMap_append, List.flatMap_singleton]
      exact ih.step hstep

/-- The incoming channels that the loop accepted are received in order, whole and once,
as long as their receiver exists, and a receiver that was dropped got the first of them;
all channels that the application ever gets have different ids, up to the wrap of the
counter. -/
theorem channels_delivered {config : NodeConfig} {n m : Node L}
    {π : List (Transition.Trans (Node L) (Label Req Resp))} (hs : Started L config n)
    (h : Run L n π m) :
    (m.dataChannels.inboundDc.rxAlive = true →
        DataChannels.queued (dataChannelSteps π) =
          DataChannels.taken (dataChannelSteps π) ++ m.dataChannels.inboundDc.queue) ∧
      DataChannels.taken (dataChannelSteps π) <+: DataChannels.queued (dataChannelSteps π) ∧
      (m.dataChannels.nextSerial ≤ 2 ^ 64 →
        ((DataChannels.given (dataChannelSteps π)).map DataChannel.id).Nodup) := by
  have hnew : n.dataChannels = .new config.dataChannelLimits := hs.fresh.dataChannels_eq
  have hleft : n.dataChannels.NothingLeft := by
    rw [hnew]
    exact fun _ => rfl
  have hnumbered : DataChannels.Numbered [] n.dataChannels := by
    rw [hnew]
    exact ⟨rfl, fun _ => ⟨List.nodup_nil, fun _ hid => (by cases hid)⟩⟩
  obtain ⟨hwhole, hfront⟩ := h.dataChannels.delivery (I := DataChannels.NothingLeft)
    DataChannels.inboundFifo
    (fun _ _ _ hn hs => (DataChannels.step_inbound hs).nothingLeft hn)
    (fun _ _ _ hn hs => ⟨(DataChannels.step_inbound hs).open,
      (DataChannels.step_inbound hs).dropped hn⟩) hleft (by rw [hnew]; rfl)
  refine ⟨hwhole, hfront, fun hle => ?_⟩
  have hdistinct := (DataChannels.numbered h.dataChannels hnumbered).distinct hle
  exact (List.nodup_append.mp hdistinct.1).1

namespace Loopback

/-- A future is made, and its first poll opens the stream. -/
def openSteps : List (Transition.Trans (Node loopback) (Label String String)) :=
  [⟨node [], .dataChannel (.openDataChannel peer protocol), dataNode (asking 0)⟩,
    ⟨dataNode (asking 0), .dataChannel (.pollOpen 0 (.opened stream)), dataNode (delivered 0)⟩]

theorem openSteps_run : Run loopback (node []) openSteps (dataNode (delivered 0)) := by
  have hask : Step (node []) (.dataChannel (.openDataChannel peer protocol))
      (dataNode (asking 0)) :=
    .dataChannel (by simp) (asking_step 0)
  have hopen : Step (dataNode (asking 0)) (.dataChannel (.pollOpen 0 (.opened stream)))
      (dataNode (delivered 0)) :=
    .dataChannel (by simp) (delivered_step 0)
  exact (Transition.Path.single hask).snoc hopen

end Loopback

theorem channels_delivered_opened :
    ∃ π, Run loopback (Loopback.node []) π (Loopback.dataNode (Loopback.delivered 0)) ∧
      DataChannels.given (dataChannelSteps π) = [Loopback.channel 0] ∧
      ((DataChannels.given (dataChannelSteps π)).map DataChannel.id).Nodup :=
  ⟨Loopback.openSteps, Loopback.openSteps_run, rfl,
    (channels_delivered (Loopback.started []) Loopback.openSteps_run).2.2 (by decide)⟩

end SwarmP2p
