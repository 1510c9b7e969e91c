import SwarmP2p.Model.Libp2p

/-! # The calls made on the swarm

Which of the logged calls hand out an id or a response, and how a stretch of code
extends the log. -/

namespace SwarmP2p

variable {Req Resp : Type} {L : Libp2p Req Resp}

/-- The ids by which libp2p ties an event to the call that caused it. -/
inductive EventId where
  | query (id : QueryId)
  | request (id : OutboundRequestId)
  deriving DecidableEq, Repr

/-- The id that an event carries. -/
def SwarmEvent.id? : SwarmEvent Req Resp → Option EventId
  | .behaviour (.kad (.outboundQueryProgressed id _ _ _)) => some (.query id)
  | .behaviour (.reqResp (.response _ id _)) => some (.request id)
  | .behaviour (.reqResp (.outboundFailure _ id _)) => some (.request id)
  | _ => none

namespace SwarmCall

/-- The id that libp2p handed out. -/
def id? : SwarmCall Resp → Option EventId
  | .sendRequest _ id => some (.request id)
  | .kadQuery id => some (.query id)
  | _ => none

/-- The channel on which a response was handed over, with the response. -/
def response? : SwarmCall Resp → Option (ResponseChannel × Resp)
  | .sendResponse channel response _ => some (channel, response)
  | _ => none

/-- Neither an id nor a response passes. -/
def Housekeeping (call : SwarmCall Resp) : Prop := call.id? = none ∧ call.response? = none

end SwarmCall

namespace Swarm

/-- The ids handed out so far, oldest first. -/
def ids (s : Swarm L) : List EventId := s.calls.filterMap SwarmCall.id?

/-- The responses handed over so far, oldest first. -/
def responses (s : Swarm L) : List (ResponseChannel × Resp) :=
  s.calls.filterMap SwarmCall.response?

/-- Between `s` and `t` the swarm was called for housekeeping only. -/
def Kept (s t : Swarm L) : Prop :=
  ∃ log, t.calls = s.calls ++ log ∧ ∀ call ∈ log, call.Housekeeping

namespace Kept

variable {s t u : Swarm L}

theorem refl (s : Swarm L) : Kept s s := ⟨[], by simp, by simp⟩

theorem of_calls_eq (h : t.calls = s.calls) : Kept s t := ⟨[], by simp [h], by simp⟩

theorem trans (h : Kept s t) (k : Kept t u) : Kept s u := by
  obtain ⟨log, hlog, hq⟩ := h
  obtain ⟨more, hmore, hr⟩ := k
  refine ⟨log ++ more, by rw [hmore, hlog, List.append_assoc], ?_⟩
  intro call hc
  rcases List.mem_append.mp hc with hc | hc
  · exact hq call hc
  · exact hr call hc

theorem record (s : Swarm L) (state : L.State) {call : SwarmCall Resp}
    (h : call.Housekeeping) : Kept s (s.record state call) :=
  ⟨[call], rfl, by simpa using h⟩

theorem ids_eq (h : Kept s t) : t.ids = s.ids := by
  obtain ⟨log, hlog, hq⟩ := h
  have hnil : log.filterMap SwarmCall.id? = [] :=
    List.filterMap_eq_nil_iff.mpr fun call hc => (hq call hc).1
  simp [ids, hlog, hnil]

theorem responses_eq (h : Kept s t) : t.responses = s.responses := by
  obtain ⟨log, hlog, hq⟩ := h
  have hnil : log.filterMap SwarmCall.response? = [] :=
    List.filterMap_eq_nil_iff.mpr fun call hc => (hq call hc).2
  simp [responses, hlog, hnil]

theorem dial (s : Swarm L) (peerId : PeerId) : Kept s (s.dial peerId).1 :=
  record _ _ ⟨rfl, rfl⟩

theorem disconnectPeerId (s : Swarm L) (peerId : PeerId) :
    Kept s (s.disconnectPeerId peerId).1 :=
  record _ _ ⟨rfl, rfl⟩

theorem kadStopProviding (s : Swarm L) (key : RecordKey) : Kept s (s.kadStopProviding key) :=
  record _ _ ⟨rfl, rfl⟩

theorem kadRemoveRecord (s : Swarm L) (key : RecordKey) : Kept s (s.kadRemoveRecord key) :=
  record _ _ ⟨rfl, rfl⟩

end Kept

/-- Between `s` and `t` exactly these ids were handed out and these responses handed
over. -/
structure Called (s t : Swarm L) (ids : List EventId)
    (responses : List (ResponseChannel × Resp)) : Prop where
  ids_eq : t.ids = s.ids ++ ids
  responses_eq : t.responses = s.responses ++ responses

theorem Kept.called {s t : Swarm L} (h : Kept s t) : Called s t [] [] :=
  ⟨by simp [h.ids_eq], by simp [h.responses_eq]⟩

theorem sendRequest_called (s : Swarm L) (peerId : PeerId) (request : Req) :
    Called s (s.sendRequest peerId request).1 [.request (s.sendRequest peerId request).2] [] := by
  constructor <;> simp [sendRequest, record, ids, responses, SwarmCall.id?, SwarmCall.response?]

theorem sendResponse_called (s : Swarm L) (channel : ResponseChannel) (response : Resp) :
    Called s (s.sendResponse channel response).1 [] [(channel, response)] := by
  constructor <;> simp [sendResponse, record, ids, responses, SwarmCall.id?, SwarmCall.response?]

theorem query_called (s : Swarm L) (r : L.State × QueryId) :
    Called s (s.query r).1 [.query (s.query r).2] [] := by
  constructor <;> simp [query, record, ids, responses, SwarmCall.id?, SwarmCall.response?]

theorem startQuery_ok {s t : Swarm L} {r : L.State × Except String QueryId} {id : QueryId}
    (h : s.startQuery r = (t, .ok id)) : Called s t [.query id] [] := by
  unfold startQuery at h
  split at h
  · obtain ⟨rfl, hid⟩ := Prod.mk.inj h
    obtain rfl := Except.ok.inj hid
    constructor <;> simp [record, ids, responses, SwarmCall.id?, SwarmCall.response?]
  · cases h

theorem startQuery_error {s t : Swarm L} {r : L.State × Except String QueryId} {e : String}
    (h : s.startQuery r = (t, .error e)) : Kept s t := by
  unfold startQuery at h
  split at h
  · cases h
  · obtain ⟨rfl, _⟩ := Prod.mk.inj h
    exact .of_calls_eq rfl

end Swarm

end SwarmP2p
