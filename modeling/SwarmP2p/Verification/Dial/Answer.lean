import SwarmP2p.Model.Loopback
import SwarmP2p.Verification.Call.OneShot
import SwarmP2p.Verification.Call.Origin

/-! # Dial answers

Several parts of the node dial the same peer, and libp2p runs one attempt at a time. A
`dial` call that fails may therefore fail while another attempt is on its way, or when
the peer is connected already. The three steps at which a call is answered with an error
are told apart here. -/

namespace SwarmP2p

variable {Req Resp : Type} {L : Libp2p Req Resp}

/-- `Swarm::dial` of libp2p, with the number of attempts in flight to a peer. A dial is
refused when the peer is connected or being dialed, and starts nothing then; the error
event ends one attempt and says nothing about connections. -/
structure DialContract (L : Libp2p Req Resp) (attempts : L.State → PeerId → Nat) : Prop where
  refuses : ∀ s p, L.isConnected s p = true ∨ 0 < attempts s p →
    ∃ e, (L.dial s p).2 = .error e
  refused_same : ∀ s p e, (L.dial s p).2 = .error e →
    L.isConnected (L.dial s p).1 p = L.isConnected s p ∧
      attempts (L.dial s p).1 p = attempts s p
  failed : ∀ s p e s', L.next s (.outgoingConnectionError (some p) e) s' →
    L.isConnected s' p = L.isConnected s p ∧ attempts s p = attempts s' p + 1

/-- The peer has no established connection and no attempt in flight. -/
def Node.Unreached (attempts : L.State → PeerId → Nat) (n : Node L) (p : PeerId) : Prop :=
  L.isConnected n.loop.swarm.state p = false ∧ attempts n.loop.swarm.state p = 0

/-- The first poll of the call was refused. -/
def Desk.Refused (d : Desk Req Resp) (id : HandleId) : Prop :=
  ∃ c command, d.calls id = some c ∧ c.phase = .refused command

/-- Between `d` and `d'` the call is answered with an error: its handle is finished with
one, or its first poll is refused. -/
def Desk.AnsweredErr (d d' : Desk Req Resp) (id : HandleId) : Prop :=
  (∃ e, (d'.handles id).outcomes = (d.handles id).outcomes ++ [.error e]) ∨
    (d'.Refused id ∧ ¬d.Refused id)

/-- A dial call whose caller has not given up is answered with an error only when its
peer is unreached. -/
def HonestDials (attempts : L.State → PeerId → Nat) (n m : Node L) : Prop :=
  ∀ id c p, m.calls id = some c → c.call = .dial p → c.phase ≠ .dropped →
    n.desk.AnsweredErr m.desk id → m.Unreached attempts p

/-- A command that dials `p` for a caller who has not given up. -/
def Node.DialsFor (n : Node L) (t : Task Req Resp) (p : PeerId) : Prop :=
  t.command.dialTarget? = some p ∧ ∃ c, n.calls t.handle = some c ∧ c.phase ≠ .dropped

/-- The dial is run when its peer is connected or nobody dials it; an attempt fails when
it was the only one and nobody waits at a connected peer; and a dial is not polled on a
full queue, unless its peer is unreached. -/
def Node.DialsClear (attempts : L.State → PeerId → Nat) (n : Node L) :
    Label Req Resp → Prop
  | .handleCommand => ∀ t p, n.phase = .running t → n.DialsFor t p →
      L.isConnected n.loop.swarm.state p = true ∨ attempts n.loop.swarm.state p = 0
  | .swarmEvent (.outgoingConnectionError (some p) _) =>
      (∃ t ∈ n.loop.activeCommands, n.DialsFor t p) →
        L.isConnected n.loop.swarm.state p = false ∧ attempts n.loop.swarm.state p ≤ 1
  | .firstPoll id _ => ∀ c p, n.calls id = some c → c.call = .dial p →
      n.loop.commandRx.Accepts ∨ n.Unreached attempts p
  | _ => True

/-! ### Steps that answer nobody with an error -/

namespace Desk

theorem not_answeredErr_of_eq {d d' : Desk Req Resp} {id : HandleId}
    (hout : (d'.handles id).outcomes = (d.handles id).outcomes)
    (href : d'.Refused id → d.Refused id) : ¬d.AnsweredErr d' id := by
  rintro (⟨e, he⟩ | ⟨hr, hn⟩)
  · rw [hout] at he
    simp at he
  · exact hn (href hr)

theorem refused_of_update {d d' : Desk Req Resp} {id id' : HandleId}
    {c : ClientCall Req Resp} (hc : ∀ command, c.phase ≠ .refused command)
    (hcalls : d'.calls = Function.update d.calls id' (some c)) (h : d'.Refused id) :
    d.Refused id := by
  obtain ⟨c', command, hc', hp⟩ := h
  rcases call_of_update hcalls hc' with ⟨rfl, rfl⟩ | ⟨_, hc'⟩
  · exact absurd hp (hc command)
  · exact ⟨c', command, hc', hp⟩

theorem not_answeredErr {d d' : Desk Req Resp} {l : Label Req Resp} (h : DeskStep L d l d')
    (hpoll : ∀ id waker, l ≠ .firstPoll id waker) (hrun : l ≠ .handleCommand)
    (hevent : ∀ event, l ≠ .swarmEvent event) (id : HandleId) : ¬d.AnsweredErr d' id := by
  cases h with
  | @openCall id' call taken h =>
      rintro (⟨e, he⟩ | ⟨hr, hn⟩)
      · by_cases hid : id = id'
        · subst hid
          simp at he
        · simp [Function.update_of_ne hid] at he
      · exact hn (refused_of_update (call.opened_ne_refused taken) rfl hr)
  | accept waker h hp => exact absurd rfl (hpoll _ _)
  | refuse waker h hp => exact absurd rfl (hpoll _ _)
  | ready h hp hr =>
      exact not_answeredErr_of_eq (d.outcomes_update id _ rfl)
        (refused_of_update (by simp) rfl)
  | pending h hp hr =>
      exact not_answeredErr_of_eq (d.outcomes_update id _ rfl)
        (refused_of_update (by simp) rfl)
  | pollAgain waker h hp =>
      exact not_answeredErr_of_eq rfl (refused_of_update (by simp) rfl)
  | dropCall h =>
      exact not_answeredErr_of_eq (d.outcomes_update id _ rfl)
        (refused_of_update (by simp) rfl)
  | handleCommand swarm hrun' hids hresp => exact absurd rfl hrun
  | dispatch hrun' h => exact absurd rfl (hevent _)
  | _ => exact not_answeredErr_of_eq rfl fun hr => hr

end Desk

/-! ### Dial commands -/

theorem Command.eq_dial {c : Command Req Resp} {p : PeerId} (h : c.dialTarget? = some p) :
    c = .dial ⟨p⟩ := by
  cases c with
  | dial c =>
      obtain rfl := Option.some.inj h
      rfl
  | _ => cases h

theorem Call.eq_dial {call : Call Req Resp} {p : PeerId} (h : call.dialTarget? = some p) :
    call = .dial p := by
  cases call with
  | dial q =>
      obtain rfl := Option.some.inj h
      rfl
  | _ => cases h

/-- The call of a dial command is a dial of the same peer. -/
theorem Desk.Origins.dial {d : Desk Req Resp} (ho : d.Origins) {t : Task Req Resp}
    (ht : t ∈ d.tasks) {c : ClientCall Req Resp} (hc : d.calls t.handle = some c) {p : PeerId} :
    c.call = .dial p ↔ t.command = .dial ⟨p⟩ := by
  obtain ⟨c', hc', hf⟩ := ho.task t ht
  rw [hc] at hc'
  obtain rfl := Option.some.inj hc'
  constructor
  · intro hcall
    refine Command.eq_dial ?_
    rw [hf.dialTarget, hcall]
    rfl
  · intro hcommand
    refine Call.eq_dial ?_
    rw [← hf.dialTarget, hcommand]
    rfl

theorem DialCommand.run_error_iff (c : DialCommand) (swarm : Swarm L) :
    (∃ e, (c.run swarm).finished = some (.error e)) ↔
      L.isConnected swarm.state c.peerId = false ∧
        ∃ e, (L.dial swarm.state c.peerId).2 = .error e := by
  unfold run Swarm.isConnected Swarm.dial
  cases hcon : L.isConnected swarm.state c.peerId with
  | true => simp
  | false =>
      rcases L.dial swarm.state c.peerId with ⟨state, e | u⟩
      · simp
      · simp

theorem DialCommand.onEvent_error_iff (c : DialCommand) (event : SwarmEvent Req Resp) :
    (∃ e, (c.onEvent event).finished = some (.error e)) ↔
      ∃ e, event = .outgoingConnectionError (some c.peerId) e := by
  unfold onEvent
  split
  · split <;> simp [passEvent]
  · split
    · simp_all
    · simp_all [passEvent]
  · rename_i h₁ h₂
    refine ⟨?_, ?_⟩
    · simp [passEvent]
    · rintro ⟨e, he⟩
      exact (h₂ _ _ he).elim

/-- A dial that fails in `run` leaves the peer as it is. -/
theorem DialContract.run {attempts : L.State → PeerId → Nat} (hd : DialContract L attempts)
    {c : DialCommand} {swarm : Swarm L} (h : ∃ e, (c.run swarm).finished = some (.error e)) :
    L.isConnected (c.run swarm).swarm.state c.peerId = false ∧
      attempts (c.run swarm).swarm.state c.peerId = attempts swarm.state c.peerId := by
  obtain ⟨hcon, e, he⟩ := (c.run_error_iff swarm).mp h
  have hstate : (c.run swarm).swarm.state = (L.dial swarm.state c.peerId).1 := by
    unfold DialCommand.run Swarm.isConnected Swarm.dial
    rw [hcon]
    generalize L.dial swarm.state c.peerId = r at he ⊢
    obtain ⟨state, e | u⟩ := r
    · rfl
    · cases he
  obtain ⟨hsame, hattempts⟩ := hd.refused_same _ _ _ he
  rw [hstate]
  exact ⟨hsame.trans hcon, hattempts⟩

/-- The error of a dial is the error of its command. -/
theorem error_of_map {r : Option (Result Unit)} :
    (∃ e, r.map (Except.map fun _ => (Output.unit : Output Resp)) = some (.error e)) ↔
      ∃ e, r = some (.error e) := by
  rcases r with _ | r | r <;> simp [Except.map]

theorem Desk.answeredErr_settle {d d' : Desk Req Resp} {id : HandleId}
    {r : Option (Result (Output Resp))} (hcalls : d'.calls = d.calls)
    (h : d'.handles id = (d.handles id).settle r) :
    d.AnsweredErr d' id ↔ ∃ e, r = some (.error e) := by
  have href : ¬(d'.Refused id ∧ ¬d.Refused id) := by
    unfold Refused
    rw [hcalls]
    exact fun h => h.2 h.1
  unfold AnsweredErr
  rw [h, ResultState.settle_outcomes, or_iff_left href]
  rcases r with _ | r | r <;> simp

/-! ### The three steps -/

section Steps

variable {attempts : L.State → PeerId → Nat} {n m : Node L}

theorem Node.handleCommand_honest (hd : DialContract L attempts) {task : Task Req Resp}
    (hp : n.phase = .running task) (ho : n.desk.Origins) :
    HonestDials attempts n (n.handleCommand task) ↔ n.DialsClear attempts .handleCommand := by
  have htask : task ∈ n.desk.tasks := by
    refine Desk.mem_tasks.mpr (.inl (Desk.mem_unrun.mpr (.inl ?_)))
    simp [Node.desk, hp, LoopPhase.task?]
  have hsettle : (n.handleCommand task).desk.handles task.handle =
      (n.desk.handles task.handle).settle (task.command.run n.loop.swarm).finished :=
    (n.handleCommand_settle task task.handle).trans (if_pos rfl)
  have hanswer : n.desk.AnsweredErr (n.handleCommand task).desk task.handle ↔
      ∃ e, (task.command.run n.loop.swarm).finished = some (.error e) :=
    Desk.answeredErr_settle rfl hsettle
  constructor
  · rintro hh t p hp' ⟨htarget, c, hc, hdropped⟩
    rw [hp] at hp'
    obtain rfl := LoopPhase.running.inj hp'
    have hcommand := Command.eq_dial htarget
    by_contra hno
    obtain ⟨hcon, hpos⟩ := not_or.mp hno
    have he := hd.refuses n.loop.swarm.state p (.inr (Nat.pos_of_ne_zero hpos))
    have herr := ((⟨p⟩ : DialCommand).run_error_iff n.loop.swarm).mpr ⟨by simpa using hcon, he⟩
    have hun := hh task.handle c p hc ((ho.dial htask hc).mpr hcommand) hdropped
      (hanswer.mpr (by rw [hcommand]; exact error_of_map.mpr herr))
    have hattempts : attempts (n.handleCommand task).loop.swarm.state p =
        attempts n.loop.swarm.state p := by
      obtain ⟨command, handle⟩ := task
      obtain rfl : command = _ := hcommand
      exact (hd.run herr).2
    exact hpos (hattempts.symm.trans hun.2)
  · rintro hclear id c p hc hcall hdropped ha
    by_cases hid : id = task.handle
    · subst hid
      have hcommand := (ho.dial htask hc).mp hcall
      have herr : ∃ e, ((⟨p⟩ : DialCommand).run n.loop.swarm).finished = some (.error e) := by
        have he := hanswer.mp ha
        rw [hcommand] at he
        exact error_of_map.mp he
      have hrun := hd.run herr
      have hcon := (((⟨p⟩ : DialCommand).run_error_iff n.loop.swarm).mp herr).1
      have hzero : attempts n.loop.swarm.state p = 0 := by
        rcases hclear task p hp ⟨by rw [hcommand]; rfl, c, hc, hdropped⟩ with hyes | hzero
        · rw [hcon] at hyes
          cases hyes
        · exact hzero
      have hstate : (n.handleCommand task).loop.swarm.state =
          ((⟨p⟩ : DialCommand).run n.loop.swarm).swarm.state := by
        obtain ⟨command, handle⟩ := task
        obtain rfl : command = _ := hcommand
        rfl
      unfold Node.Unreached
      rw [hstate]
      exact ⟨hrun.1, hrun.2.trans hzero⟩
    · refine absurd ha (Desk.not_answeredErr_of_eq ?_ fun h => h)
      exact congrArg ResultState.outcomes ((n.handleCommand_settle task id).trans (if_neg hid))

theorem Node.firstPoll_honest {id : HandleId} {c : ClientCall Req Resp}
    {command : Command Req Resp} (waker : Waker) (h : n.calls id = some c)
    (hp : c.phase = .created command) :
    HonestDials attempts n (n.firstPoll id c command waker) ↔
      n.DialsClear attempts (.firstPoll id waker) := by
  by_cases hacc : n.loop.commandRx.Accepts
  · refine iff_of_true ?_ fun c p hc hcall => .inl hacc
    rw [n.firstPoll_of_accepts id c command waker hacc]
    intro id' c' p hc' hcall hdropped ha
    refine absurd ha (Desk.not_answeredErr_of_eq rfl fun hr => ?_)
    exact Desk.refused_of_update (c := { c with phase := .polling waker }) (by simp) rfl hr
  · rw [n.firstPoll_of_not_accepts id c command waker hacc]
    constructor
    · intro hh c' p hc' hcall
      rw [h] at hc'
      obtain rfl := Option.some.inj hc'
      refine .inr (hh id { c with phase := .refused command } p (Function.update_self ..)
        hcall (by simp) (.inr ⟨⟨_, command, Function.update_self .., rfl⟩, ?_⟩))
      rintro ⟨c', command', hc', hp'⟩
      have hcc : n.calls id = some c' := hc'
      rw [h] at hcc
      obtain rfl := Option.some.inj hcc
      rw [hp] at hp'
      cases hp'
    · intro hclear id' c' p hc' hcall hdropped ha
      by_cases hid : id' = id
      · subst hid
        have hcc : some c' = some { c with phase := .refused command } :=
          hc'.symm.trans (Function.update_self ..)
        obtain rfl := Option.some.inj hcc
        exact (hclear c p h hcall).resolve_left hacc
      · refine absurd ha (Desk.not_answeredErr_of_eq rfl ?_)
        rintro ⟨c'', command', hc'', hp'⟩
        exact ⟨c'', command', (Function.update_of_ne hid _ _).symm.trans hc'', hp'⟩

/-- An attempt that failed leaves the swarm as libp2p reports it. -/
theorem Node.handleSwarmEvent_error (n : Node L) (order : List PeerId) (p : Option PeerId)
    (e : String) :
    (n.handleSwarmEvent order (.outgoingConnectionError p e)).loop.swarm = n.loop.swarm := by
  rcases n.handleSwarmEvent_cases order (.outgoingConnectionError p e) with ⟨_, h⟩ | ⟨_, h⟩
  · rw [h]
  · rw [h]
    rfl

theorem Node.handleSwarmEvent_honest (hd : DialContract L attempts) {state : L.State}
    {order : List PeerId} {event : SwarmEvent Req Resp}
    (h : Step n (.swarmEvent event) ((n.withSwarmState state).handleSwarmEvent order event))
    (hnext : L.next n.loop.swarm.state event state) (hi : n.desk.Inv) (ho : n.desk.Origins) :
    HonestDials attempts n ((n.withSwarmState state).handleSwarmEvent order event) ↔
      n.DialsClear attempts (.swarmEvent event) := by
  have hoff := h.desk.offered hi.active_nodup
  have hcalls := h.desk.calls_eq
  -- The command of an active dial answers with an error exactly when an attempt fails.
  have hanswer : ∀ t ∈ n.loop.activeCommands, ∀ p, t.command = .dial ⟨p⟩ →
      (n.desk.AnsweredErr ((n.withSwarmState state).handleSwarmEvent order event).desk t.handle ↔
        ∃ e, event = .outgoingConnectionError (some p) e) := by
    intro t ht p hcommand
    have hfinished : (∃ e, (t.command.onEvent L event).finished = some (.error e)) ↔
        ∃ e, event = .outgoingConnectionError (some p) e := by
      rw [hcommand]
      exact error_of_map.trans (DialCommand.onEvent_error_iff ⟨p⟩ event)
    rcases hoff.fate t ht with ⟨hhandle, _⟩ | ⟨hhandle, _, u, _, _, _, _, hown⟩
    · exact (Desk.answeredErr_settle hcalls hhandle).trans hfinished
    · refine iff_of_false ?_ ?_
      · exact Desk.not_answeredErr_of_eq (congrArg ResultState.outcomes hhandle)
          (by unfold Desk.Refused; rw [hcalls]; exact fun h => h)
      · rintro ⟨e, rfl⟩
        cases hown
  constructor
  · intro hh
    cases event with
    | outgoingConnectionError p? e =>
        cases p? with
        | none => trivial
        | some p =>
            rintro ⟨t, ht, htarget, c, hc, hdropped⟩
            have hcommand := Command.eq_dial htarget
            have hcall := (ho.dial (Desk.mem_tasks.mpr (.inr ht)) hc).mpr hcommand
            have hun := hh t.handle c p ((congrFun hcalls _).trans hc) hcall hdropped
              ((hanswer t ht p hcommand).mpr ⟨e, rfl⟩)
            unfold Node.Unreached at hun
            rw [Node.handleSwarmEvent_error] at hun
            obtain ⟨hcon, hattempts⟩ := hd.failed _ _ _ _ hnext
            exact ⟨hcon.symm.trans hun.1, hattempts.trans (congrArg (· + 1) hun.2) |>.le⟩
    | _ => trivial
  · intro hclear id c p hc hcall hdropped ha
    have hcn : n.calls id = some c := (congrFun hcalls id).symm.trans hc
    by_cases hid : ∃ t ∈ n.loop.activeCommands, t.handle = id
    · obtain ⟨t, ht, rfl⟩ := hid
      have hcommand := (ho.dial (Desk.mem_tasks.mpr (.inr ht)) hcn).mp hcall
      obtain ⟨e, rfl⟩ := (hanswer t ht p hcommand).mp ha
      obtain ⟨hcon, hone⟩ := hclear ⟨t, ht, by rw [hcommand]; rfl, c, hcn, hdropped⟩
      obtain ⟨hsame, hattempts⟩ := hd.failed _ _ _ _ hnext
      have hzero : attempts state p = 0 := by omega
      unfold Node.Unreached
      rw [Node.handleSwarmEvent_error]
      exact ⟨hsame.trans hcon, hzero⟩
    · refine absurd ha (Desk.not_answeredErr_of_eq ?_ ?_)
      · exact congrArg ResultState.outcomes
          (hoff.outside id fun t ht hhandle => hid ⟨t, ht, hhandle⟩)
      · unfold Desk.Refused
        rw [hcalls]
        exact fun h => h

end Steps

theorem Step.honestDials {attempts : L.State → PeerId → Nat} (hd : DialContract L attempts)
    {n m : Node L} {l : Label Req Resp} (hi : n.desk.Inv) (ho : n.desk.Origins)
    (h : Step n l m) : HonestDials attempts n m ↔ n.DialsClear attempts l := by
  have hdesk := h.desk
  have hother : (∀ id waker, l ≠ .firstPoll id waker) → l ≠ .handleCommand →
      (∀ event, l ≠ .swarmEvent event) → HonestDials attempts n m :=
    fun hpoll hrun hevent id c p hc hcall hdropped ha =>
      absurd ha (Desk.not_answeredErr hdesk hpoll hrun hevent id)
  cases h with
  | firstPoll waker h hp => exact Node.firstPoll_honest waker h hp
  | handleCommand hp => exact Node.handleCommand_honest hd hp ho
  | @swarmEvent event state order hp hnext hord =>
      exact Node.handleSwarmEvent_honest hd (.swarmEvent hp hnext hord) hnext hi ho
  | _ => exact iff_of_true (hother (by simp) (by simp) (by simp)) trivial

/-! ### Runs -/

/-- A dial call is answered with an error only when its peer is neither connected nor being
dialed, exactly as long as every dial is run, fails and is polled in the clear. -/
theorem dial_answers_iff {attempts : L.State → PeerId → Nat} (hd : DialContract L attempts)
    {config : NodeConfig} {n m : Node L}
    {π : List (Transition.Trans (Node L) (Label Req Resp))} (hs : Started L config n)
    (h : Run L n π m) :
    (∀ x ∈ π, HonestDials attempts x.pre x.post) ↔
      ∀ x ∈ π, x.pre.DialsClear attempts x.label :=
  Transition.Path.steps_iff_meets (I := fun n => n.desk.Inv ∧ n.desk.Origins)
    (Q := fun n _ m => HonestDials attempts n m) (C := fun n l => n.DialsClear attempts l)
    (fun _ _ _ hi hs => ⟨hi.1.step hs.desk, hi.2.step hi.1 hs.desk⟩)
    (fun _ _ _ hi hs => hs.honestDials hd hi.1 hi.2)
    h ⟨hs.fresh.inv, hs.fresh.origins⟩

theorem Loopback.dialContract :
    DialContract loopback (fun s : Loopback.State => fun p => s.dialing.count p) where
  refuses s p h := by
    have hp : p ∈ s.connected ∨ p ∈ s.dialing :=
      h.imp of_decide_eq_true List.count_pos_iff.mp
    exact ⟨_, congrArg Prod.snd (if_pos hp)⟩
  refused_same s p e h := by
    have hp : p ∈ s.connected ∨ p ∈ s.dialing := by
      by_contra hno
      have hok : (Loopback.dial s p).2 = .ok () := congrArg Prod.snd (if_neg hno)
      cases hok.symm.trans h
    have hs : (loopback.dial s p).1 = s := congrArg Prod.fst (if_pos hp)
    rw [hs]
    exact ⟨rfl, rfl⟩
  failed s p e s' h := by
    obtain ⟨hp, rfl⟩ := h
    refine ⟨rfl, ?_⟩
    have hpos := List.count_pos_iff.mpr hp
    have herase : (s.dialing.erase p).count p = s.dialing.count p - 1 := List.count_erase_self
    show s.dialing.count p = (s.dialing.erase p).count p + 1
    omega

/-! ### A dial that fails -/

namespace Loopback

def failOpened : Node loopback := (node []).openCall 0 (.dial peer)

def failQueued : Node loopback :=
  failOpened.firstPoll 0 ⟨.dial peer, none, .created (.dial ⟨peer⟩)⟩ (.dial ⟨peer⟩) 0

def failReceived : Node loopback :=
  { failQueued.sweep with
    loop := { failQueued.sweep.loop with commandRx := .new _ }
    phase := .running ⟨.dial ⟨peer⟩, 0⟩ }

def failStarted : Node loopback := failReceived.handleCommand ⟨.dial ⟨peer⟩, 0⟩

def failEvent : SwarmEvent String String :=
  .outgoingConnectionError (some peer) "connection refused"

def dialFailed : Node loopback :=
  (failStarted.sweep.withSwarmState {}).handleSwarmEvent [] failEvent

/-- Nobody else dials the peer, and the attempt of the call fails. -/
def failSteps : List (Transition.Trans (Node loopback) (Label String String)) :=
  [⟨node [], .openCall 0 (.dial peer), failOpened⟩,
    ⟨failOpened, .firstPoll 0 0, failQueued⟩,
    ⟨failQueued, .sweep, failQueued.sweep⟩,
    ⟨failQueued.sweep, .recvCommand, failReceived⟩,
    ⟨failReceived, .handleCommand, failStarted⟩,
    ⟨failStarted, .sweep, failStarted.sweep⟩,
    ⟨failStarted.sweep, .swarmEvent failEvent, dialFailed⟩]

theorem failSteps_run : Run loopback (node []) failSteps dialFailed :=
  ((((((Transition.Path.single (Step.openCall (.dial peer) (by decide) rfl)).snoc
    (.firstPoll 0 rfl rfl)).snoc (.sweep rfl)).snoc (.recvCommand rfl rfl)).snoc
    (.handleCommand rfl)).snoc (.sweep rfl)).snoc
    (.swarmEvent rfl ⟨List.mem_singleton_self _, rfl⟩ ⟨List.nodup_nil, fun _ => .rfl⟩)

end Loopback

open Loopback in
/-- The only attempt has ended when the call is answered with its error. -/
theorem dial_answers_iff_failed :
    failStarted.loop.swarm.state.dialing = [peer] ∧
      (dialFailed.handles 0).result = some (.error (.dial "connection refused")) ∧
      ∀ x ∈ failSteps,
        HonestDials (fun s : Loopback.State => fun p => s.dialing.count p) x.pre x.post := by
  refine ⟨rfl, rfl, (dial_answers_iff dialContract (started _) failSteps_run).mpr ?_⟩
  have hpoll : failOpened.DialsClear (fun s : Loopback.State => fun p => s.dialing.count p)
      (.firstPoll 0 0) := fun _ _ _ _ => .inl ⟨rfl, by decide⟩
  have hrun : failReceived.DialsClear (fun s : Loopback.State => fun p => s.dialing.count p)
      .handleCommand := fun _ _ _ _ => .inr rfl
  have hevent : failStarted.sweep.DialsClear
      (fun s : Loopback.State => fun p => s.dialing.count p) (.swarmEvent failEvent) :=
    fun _ => ⟨rfl, le_refl 1⟩
  simp only [failSteps, List.forall_mem_cons]
  exact ⟨trivial, hpoll, trivial, trivial, hrun, trivial, hevent, by simp⟩

/-- A dial of the bootstrap peer is answered with an error while the attempt of the
bootstrap goes on. -/
theorem dial_error_during_attempt :
    Reachable loopback (Loopback.config [(Loopback.peer, [])]) Loopback.dialReceived ∧
      Step Loopback.dialReceived .handleCommand Loopback.dialRefused ∧
      Loopback.dialRefused.loop.swarm.state.dialing = [Loopback.peer] ∧
      (Loopback.dialRefused.handles 0).result =
        some (.error (.dial "dial condition not met")) ∧
      ¬HonestDials (fun s : Loopback.State => fun p => s.dialing.count p)
        Loopback.dialReceived Loopback.dialRefused := by
  have hattempt : Loopback.dialRefused.loop.swarm.state.dialing = [Loopback.peer] := rfl
  refine ⟨Loopback.dialReceived_reachable, .handleCommand rfl, hattempt, rfl, ?_⟩
  intro hh
  have hun := hh 0 ⟨.dial Loopback.peer, none, .pending⟩ Loopback.peer rfl rfl (by simp)
    (.inl ⟨.dial "dial condition not met", rfl⟩)
  have hzero : List.count Loopback.peer Loopback.dialRefused.loop.swarm.state.dialing = 0 :=
    hun.2
  rw [hattempt] at hzero
  exact absurd hzero (by decide)

end SwarmP2p
