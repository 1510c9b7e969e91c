import SwarmP2p.Verification.Call.Desk

/-! # The phases of a call

What a step has done to a call, read off the call after it. -/

namespace SwarmP2p

variable {Req Resp : Type} {L : Libp2p Req Resp}

namespace Desk

/-- Where the call after a step comes from. -/
inductive CallStep (d : Desk Req Resp) (l : Label Req Resp) (id : HandleId) :
    ClientCall Req Resp → Prop where
  | same {c} (h : d.calls id = some c) : CallStep d l id c
  | opened (call taken) (hl : l = .openCall id call) (h : d.calls id = none) :
      CallStep d l id (call.opened taken)
  | firstPoll {c command} (waker phase) (hl : l = .firstPoll id waker)
      (h : d.calls id = some c) (hp : c.phase = .created command)
      (hphase : phase = .polling waker ∨ phase = .refused command) :
      CallStep d l id { c with phase := phase }
  | handlePoll {c waker} (phase) (hl : l = .handlePoll id) (h : d.calls id = some c)
      (hp : c.phase = .polling waker) (hphase : phase = .pending ∨ ∃ r, phase = .ready r) :
      CallStep d l id { c with phase := phase }
  | pollAgain {c} (waker) (hl : l = .pollAgain id waker) (h : d.calls id = some c)
      (hp : c.phase = .pending) : CallStep d l id { c with phase := .polling waker }
  | dropCall {c} (hl : l = .dropCall id) (h : d.calls id = some c) :
      CallStep d l id { c with phase := .dropped }

end Desk

theorem DeskStep.callStep {d d' : Desk Req Resp} {l : Label Req Resp} (h : DeskStep L d l d')
    {id : HandleId} {c : ClientCall Req Resp} (hc : d'.calls id = some c) :
    d.CallStep l id c := by
  cases h with
  | openCall call taken h =>
      rcases call_of_update rfl hc with ⟨rfl, rfl⟩ | ⟨_, hc⟩
      · exact .opened call taken rfl h
      · exact .same hc
  | accept waker h hp =>
      rcases call_of_update rfl hc with ⟨rfl, rfl⟩ | ⟨_, hc⟩
      · exact .firstPoll waker _ rfl h hp (.inl rfl)
      · exact .same hc
  | refuse waker h hp =>
      rcases call_of_update rfl hc with ⟨rfl, rfl⟩ | ⟨_, hc⟩
      · exact .firstPoll waker _ rfl h hp (.inr rfl)
      · exact .same hc
  | ready h hp hr =>
      rcases call_of_update rfl hc with ⟨rfl, rfl⟩ | ⟨_, hc⟩
      · exact .handlePoll _ rfl h hp (.inr ⟨_, rfl⟩)
      · exact .same hc
  | pending h hp hr =>
      rcases call_of_update rfl hc with ⟨rfl, rfl⟩ | ⟨_, hc⟩
      · exact .handlePoll _ rfl h hp (.inl rfl)
      · exact .same hc
  | pollAgain waker h hp =>
      rcases call_of_update rfl hc with ⟨rfl, rfl⟩ | ⟨_, hc⟩
      · exact .pollAgain waker rfl h hp
      · exact .same hc
  | dropCall h =>
      rcases call_of_update rfl hc with ⟨rfl, rfl⟩ | ⟨_, hc⟩
      · exact .dropCall rfl h
      · exact .same hc
  | _ => exact .same hc

/-- A call that was made is never forgotten. -/
theorem DeskStep.made {d d' : Desk Req Resp} {l : Label Req Resp} (h : DeskStep L d l d')
    {id : HandleId} (hid : d.calls id ≠ none) : d'.calls id ≠ none := by
  obtain ⟨c, hc⟩ := Option.ne_none_iff_exists'.mp hid
  obtain ⟨phase, hc', _⟩ := h.call hc
  rw [hc']
  simp

/-! ### The first poll and the last -/

/-- The command was sent, and the call is not dropped. -/
def CallPhase.Polled : CallPhase Req Resp → Prop
  | .polling _ | .pending | .ready _ => True
  | _ => False

theorem Call.opened_not_polled (call : Call Req Resp) (taken : Option ResponseChannel) :
    ¬(call.opened taken).phase.Polled := by
  rcases call.opened_phase taken with ⟨_, _, hp⟩ | ⟨_, hp⟩ <;> rw [hp] <;> exact not_false

theorem DeskStep.first_poll {d d' : Desk Req Resp} {l : Label Req Resp} (h : DeskStep L d l d')
    {id : HandleId} (hbefore : ∀ c, d.calls id = some c → ¬c.phase.Polled)
    {c : ClientCall Req Resp} (hc : d'.calls id = some c) (hp : c.phase.Polled) :
    ∃ waker, l = .firstPoll id waker := by
  cases h.callStep hc with
  | same h => exact absurd hp (hbefore c h)
  | opened call taken => exact absurd hp (call.opened_not_polled taken)
  | firstPoll waker phase hl => exact ⟨waker, hl⟩
  | handlePoll phase hl h hp' => exact absurd (by rw [hp']; trivial) (hbefore _ h)
  | pollAgain waker hl h hp' => exact absurd (by rw [hp']; trivial) (hbefore _ h)
  | dropCall => exact hp.elim

/-- Only a poll of the handle gives a call its answer. -/
theorem DeskStep.last_poll {d d' : Desk Req Resp} {l : Label Req Resp} (h : DeskStep L d l d')
    {id : HandleId} (hbefore : ∀ c r, d.calls id = some c → c.phase ≠ .ready r)
    {c : ClientCall Req Resp} {r : Result (Output Resp)} (hc : d'.calls id = some c)
    (hp : c.phase = .ready r) : l = .handlePoll id := by
  cases h.callStep hc with
  | same h => exact absurd hp (hbefore c r h)
  | opened call taken =>
      exact absurd (by rw [hp]; trivial) (call.opened_not_polled taken)
  | firstPoll waker phase hl h hp' hphase =>
      rcases hphase with rfl | rfl <;> cases hp
  | handlePoll phase hl => exact hl
  | pollAgain => cases hp
  | dropCall => cases hp

end SwarmP2p
