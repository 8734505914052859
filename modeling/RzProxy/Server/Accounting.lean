import RzProxy.Server.Requests

/-!
# What is counted in a run

The counters of the proxy are moved by requests as they come in and by responses as they are made,
in any order. At any time they are what the requests so far account for: a client that goes away has
been counted as a request and is counted as nothing else, no response is counted twice, and a
request that the route refuses is not counted at all.

## Main definitions

* `Outcome`: what a response was made of
* `Outcome.bytes`, `Outcome.errors`: what it is counted as
* `outcomes`: the outcomes of a run so far
* `Proxy.taken`: the bodies that the route took

## Main results

* `decode_eq_book`: what a decoder does to the counters
* `Proxy.Moves.outcomes`: what a step adds to the outcomes, and to the counters
* `counters_of_reach`: the counters are those of the requests
-/

namespace RzProxy

open ByteString Evaluation Machines

/-! ## Replies that are counted -/

section Decidable

variable (env : Env) (D : Decoder) (payload : Bytes)

theorem unsuccessful_iff_any : Unsuccessful payload ↔
    (takeHead payload).any (fun head => decide (head.1 ≠ utf8 "SUCCESS")) = true := by
  unfold Unsuccessful
  rcases takeHead payload with _ | ⟨status, fieldCount, rest⟩ <;> simp

instance : Decidable (Unsuccessful payload) :=
  decidable_of_iff' _ (unsuccessful_iff_any payload)

instance : Decidable (Accepted env D payload) :=
  decidable_of_iff _ (status_answer_iff D payload)

instance (fieldCount : UInt16) : (D : Decoder) → Decidable (D.Counts fieldCount)
  | .simple | .scalarU8 _ | .boolean _ | .propRoomDateList | .getPropRoomDay =>
    inferInstanceAs (Decidable True)
  | .searchProp | .propRoomList => inferInstanceAs (Decidable (fieldCount = 0))
  | .searchAvail => inferInstanceAs (Decidable False)
  | .getSegments => inferInstanceAs (Decidable (fieldCount ≠ 0))

theorem sent_iff_any : Sent env D payload ↔ Unsuccessful payload ∨ Accepted env D payload ∧
    (takeHead payload).any
      (fun head => decide (head.1 = utf8 "SUCCESS" ∧ D.Counts head.2.1)) = true := by
  refine or_congr_right (and_congr_right fun _ => ?_)
  rcases takeHead payload with _ | ⟨status, fieldCount, rest⟩
  · simp
  · simp only [Option.any_some, decide_eq_true_eq]
    constructor
    · rintro ⟨fieldCount', rest', hhead, hcounts⟩
      cases hhead
      exact ⟨rfl, hcounts⟩
    · rintro ⟨rfl, hcounts⟩
      exact ⟨fieldCount, rest, rfl, hcounts⟩

instance : Decidable (Sent env D payload) := decidable_of_iff' _ (sent_iff_any env D payload)

end Decidable

/-- What a response was made of: an error of the proxy, or a reply that a decoder read in an
environment. -/
inductive Outcome
  | failed (e : RZError)
  | replied (env : Env) (D : Decoder) (payload : Bytes)

namespace Outcome

def response : Outcome → Response
  | failed e => (errorResponse ⟨0, 0⟩ e).1
  | replied env D payload => respond (D.answer env payload)

/-- The bytes that are counted as sent. -/
def bytes : Outcome → ℕ
  | failed _ => 0
  | replied env D payload =>
    if Sent env D payload then (respond (D.answer env payload)).body.length else 0

/-- The errors of clients that are counted. -/
def errors : Outcome → ℕ
  | failed _ => 1
  | replied _ _ payload => if Unsuccessful payload then 1 else 0

/-- A successful reply whose decoder does not accept it. -/
def Malformed : Outcome → Prop
  | failed _ => False
  | replied env D payload => ¬ Unsuccessful payload ∧ ¬ Accepted env D payload

instance : DecidablePred Malformed
  | failed _ => inferInstanceAs (Decidable False)
  | replied _ _ _ => inferInstanceAs (Decidable (_ ∧ _))

/-- A response is an error exactly if it is counted as one, or the proxy makes it of a reply. -/
theorem isError_response (o : Outcome) :
    (if o.response.status.IsError then 1 else 0) = o.errors + if o.Malformed then 1 else 0 := by
  cases o with
  | failed e =>
    have herror : (failed e).response.status.IsError :=
      show StatusCode.badRequest.IsError by decide
    rw [if_pos herror]
    rfl
  | replied env D payload =>
    have herror : (respond (D.answer env payload)).status.IsError ↔ ¬ Accepted env D payload :=
      StatusCode.isError_iff.trans (not_congr (status_answer_iff D payload))
    simp only [response, errors, Malformed, herror]
    by_cases hfailed : Unsuccessful payload
    · have haccepted : ¬ Accepted env D payload := fun h => h.not_unsuccessful hfailed
      simp [hfailed, haccepted]
    · by_cases haccepted : Accepted env D payload <;> simp [hfailed, haccepted]

end Outcome

/-- The counters after a response. -/
def Metrics.book (m : Metrics) (o : Outcome) : Metrics :=
  ⟨m.bytesSent + o.bytes, m.clientErrors + o.errors⟩

/-- **What a decoder does to the counters.** -/
theorem decode_eq_book (env : Env) (metrics : Metrics) (D : Decoder) (payload : Bytes) :
    D.decode env metrics payload =
      .ok (respond (D.answer env payload), metrics.book (.replied env D payload)) := by
  cases hhead : takeHead payload with
  | none =>
    obtain ⟨metrics', hdecode, hnone⟩ := answers_decode env metrics D payload
    obtain ⟨hsent, hfailed⟩ : ¬ Sent env D payload ∧ ¬ Unsuccessful payload :=
      not_sent_of_none hhead
    rw [hdecode, hnone (by rw [Decoder.answer, answerOf, hhead])]
    simp [Metrics.book, Outcome.bytes, Outcome.errors, hsent, hfailed]
  | some head =>
    obtain ⟨status, fieldCount, rest⟩ := head
    by_cases hstatus : status = utf8 "SUCCESS"
    · subst hstatus
      have hfailed := not_unsuccessful hhead
      have hsent : Sent env D payload ↔ Accepted env D payload ∧ D.Counts fieldCount :=
        sent_iff_of_success hhead
      by_cases haccepted : Accepted env D payload
      · obtain ⟨metrics', hdecode, hcounted, hnot⟩ := decode_of_accepted metrics hhead haccepted
        rw [hdecode]
        by_cases hcounts : D.Counts fieldCount
        · rw [hcounted hcounts]
          simp [Metrics.book, Metrics.addBytesSent, Outcome.bytes, Outcome.errors, hsent, haccepted,
            hcounts, hfailed]
        · rw [hnot hcounts]
          simp [Metrics.book, Outcome.bytes, Outcome.errors, hsent, hcounts, hfailed]
      · rw [decode_of_not_accepted hhead haccepted]
        simp [Metrics.book, Outcome.bytes, Outcome.errors, hsent, haccepted, hfailed]
    · have hfailed : Unsuccessful payload := ⟨status, fieldCount, rest, hhead, hstatus⟩
      have hsent : Sent env D payload := .inl hfailed
      have hanswer : D.answer env payload = some (unsuccessful status fieldCount rest) := by
        rw [Decoder.answer, answerOf, hhead]
        exact if_neg hstatus
      rw [decode_eq_errorReply env metrics D hhead hstatus, ← respond_unsuccessful, ← hanswer]
      simp [Metrics.book, Metrics.addBytesSent, Metrics.incClientErrors, Outcome.bytes,
        Outcome.errors, hsent, hfailed]

/-! ## Outcomes -/

variable {fromSlice : Bytes → Option Value} {s s' : Proxy} {ev : Event}

variable (fromSlice) in
/-- What the response to a request was made of, once it was made. -/
def HttpRequest.outcome? (h : State) (r : HttpRequest) : Option Outcome :=
  match r.handling with
  | .responded env _ =>
    match request fromSlice r.body, r.result h with
    | .error e, _ => some (.failed e)
    | .ok _, some (.error e) => some (.failed e)
    | .ok (_, D), some (.ok payload) => some (.replied env D payload)
    | .ok _, none => none
  | _ => none

variable (fromSlice) in
/-- The outcomes so far, in the order of the requests. -/
def outcomes (s : Proxy) : List Outcome :=
  s.requests.filterMap (HttpRequest.outcome? fromSlice s.handler)

/-- A response is that of its outcome. -/
theorem HttpRequest.Traced.outcome_eq {h : State} {r : HttpRequest} (hr : r.Traced fromSlice h)
    {env : Env} {rsp : Response} (hrsp : r.handling = .responded env rsp) :
    ∃ o, r.outcome? fromSlice h = some o ∧ o.response = rsp := by
  obtain ⟨hexchange, -⟩ := hr.responded env rsp hrsp
  simp only [HttpRequest.outcome?, hrsp]
  unfold exchange at hexchange
  split at hexchange
  next e hreq hresult =>
    rw [hreq]
    exact ⟨_, rfl, Option.some.inj hexchange⟩
  next e hreq hresult =>
    rw [hreq, hresult]
    exact ⟨_, rfl, Option.some.inj hexchange⟩
  next D payload hreq hresult =>
    rw [hreq, hresult]
    exact ⟨_, rfl, Option.some.inj hexchange⟩
  · cases hexchange

/-- What the handler does changes no outcome. -/
theorem Traced.filterMap_outcome {h h' : State} {a : Action} {asked : List CallId}
    {requests : List HttpRequest} (ht : Traced fromSlice h asked requests)
    (hstep : h.step a = some h') :
    requests.filterMap (HttpRequest.outcome? fromSlice h') =
      requests.filterMap (HttpRequest.outcome? fromSlice h) := by
  refine List.filterMap_congr fun r hr => ?_
  obtain ⟨i, hi⟩ := List.mem_iff_getElem?.mp hr
  cases hrsp : r.handling with
  | responded env rsp =>
    simp only [HttpRequest.outcome?, hrsp,
      (ht.requests i r hi).result_eq hstep (fun k => ht.lt hi) hrsp]
  | _ => simp only [HttpRequest.outcome?, hrsp]

/-- A response that is made adds its outcome. -/
theorem perm_filterMap_set {α β : Type*} {f : α → Option β} {l : List α} {i : ℕ} {a b : α} {c : β}
    (hi : l[i]? = some a) (ha : f a = none) (hb : f b = some c) :
    ((l.set i b).filterMap f).Perm (c :: l.filterMap f) := by
  induction l generalizing i with
  | nil => cases hi
  | cons x l ih =>
    cases i with
    | zero =>
      obtain rfl := Option.some.inj hi
      rw [List.set_cons_zero, List.filterMap_cons_some hb, List.filterMap_cons_none ha]
    | succ i =>
      rw [List.set_cons_succ, List.filterMap_cons, List.filterMap_cons]
      cases f x with
      | none => exact ih hi
      | some y => exact ((ih hi).cons y).trans (.swap c y _)

/-- **What a step adds** to the outcomes: nothing, or the outcome of the response that it makes,
which is booked. -/
theorem Proxy.Moves.outcomes (hm : s.Moves fromSlice ev s')
    (ht : Traced fromSlice s.handler s.asked s.requests) :
    (outcomes fromSlice s').Perm (outcomes fromSlice s) ∧ s'.metrics = s.metrics ∨
      ∃ o, (outcomes fromSlice s').Perm (o :: outcomes fromSlice s) ∧
        s'.metrics = s.metrics.book o := by
  unfold RzProxy.outcomes
  cases hm with
  | handler _ step | ask _ _ step | interrupt _ _ step =>
    exact .inl ⟨.of_eq (ht.filterMap_outcome step), rfl⟩
  | giveUp | fail | serve | refuse | retry | cancel | stop | year => exact .inl ⟨.refl _, rfl⟩
  | tooLong phase long =>
    refine .inl ⟨.of_eq ?_, rfl⟩
    rw [List.filterMap_append, List.filterMap_cons_none (by simp only [HttpRequest.outcome?]),
      List.filterMap_nil, List.append_nil]
  | @reject body e phase fits req =>
    refine .inr ⟨.failed e, ?_, rfl⟩
    rw [List.filterMap_append,
      List.filterMap_cons_some (b := Outcome.failed e) (by simp only [HttpRequest.outcome?, req])]
    exact List.perm_append_singleton _ _
  | accept phase fits req step =>
    refine .inl ⟨.of_eq ?_, rfl⟩
    rw [List.filterMap_append, List.filterMap_cons_none (by simp only [HttpRequest.outcome?]),
      List.filterMap_nil, List.append_nil]
    exact ht.filterMap_outcome step
  | @respond i k body call result rsp metrics req pc rsp_eq =>
    have hr := ht.requests i _ req
    obtain ⟨rfl, -⟩ : call = some k ∧ _ := hr.waiting k rfl
    obtain ⟨D, hreq⟩ := hr.asks k rfl
    have hresult : (s.handler.calls k).result = some result := Call.result_eq_some_iff.mpr pc
    have houtcome (o : Outcome)
        (ho : (match result with
          | .error e => Outcome.failed e
          | .ok payload => .replied s.env D payload) = o) :
        HttpRequest.outcome? fromSlice s.handler ⟨body, .responded s.env rsp, some k⟩ = some o := by
      subst ho
      simp only [HttpRequest.outcome?, hreq, HttpRequest.result, Option.bind_some, hresult]
      cases result <;> rfl
    refine .inr ⟨_, perm_filterMap_set req rfl (houtcome _ rfl), ?_⟩
    cases result with
    | error e =>
      rw [process, hreq] at rsp_eq
      exact ((Prod.mk.inj (Except.ok.inj rsp_eq)).2).symm
    | ok payload =>
      rw [process, hreq] at rsp_eq
      change D.decode s.env s.metrics payload = _ at rsp_eq
      rw [decode_eq_book] at rsp_eq
      exact ((Prod.mk.inj (Except.ok.inj rsp_eq)).2).symm
  | @hangUp i k body call handler req step =>
    have hset := filterMap_set (f := HttpRequest.outcome? fromSlice handler)
      (b := ⟨body, .dropped, call⟩) req rfl
    exact .inl ⟨.of_eq (hset.trans (ht.filterMap_outcome step)), rfl⟩

/-! ## The counters of a run -/

/-- The lengths of the bodies that the route took. -/
def Proxy.taken (s : Proxy) : List ℕ :=
  (s.requests.map fun r => r.body.length).filter (· ≤ bodyLimit)

variable (fromSlice) in
/-- The counters are those of the requests that the route took, and of the outcomes. -/
structure Accounts (s : Proxy) : Prop where
  commands : s.commands = s.taken.length
  bytesReceived : s.bytesReceived = s.taken.sum
  bytesSent : s.metrics.bytesSent = ((outcomes fromSlice s).map Outcome.bytes).sum
  clientErrors : s.metrics.clientErrors = ((outcomes fromSlice s).map Outcome.errors).sum

theorem Proxy.taken_append {r : HttpRequest} (h : s'.requests = s.requests ++ [r]) :
    s'.taken = s.taken ++ [r.body.length].filter (· ≤ bodyLimit) := by
  rw [Proxy.taken, h, List.map_append, List.filter_append]
  rfl

/-- The body of a request stays. -/
theorem Proxy.taken_set {i : ℕ} {body : Bytes} {handling handling' : Handling}
    {call : Option CallId} (hi : s.requests[i]? = some ⟨body, handling, call⟩)
    (h : s'.requests = s.requests.set i ⟨body, handling', call⟩) : s'.taken = s.taken := by
  have hlengths := filterMap_set (f := some ∘ fun r : HttpRequest => r.body.length)
    (b := ⟨body, handling', call⟩) hi rfl
  rw [List.filterMap_eq_map] at hlengths
  rw [Proxy.taken, Proxy.taken, h, hlengths]

/-- A step counts what the route takes. -/
theorem Proxy.Moves.received (hm : s.Moves fromSlice ev s')
    (h : s.commands = s.taken.length ∧ s.bytesReceived = s.taken.sum) :
    s'.commands = s'.taken.length ∧ s'.bytesReceived = s'.taken.sum := by
  obtain ⟨hcommands, hreceived⟩ := h
  cases hm with
  | tooLong phase long =>
    have hnone := decide_eq_false (Nat.not_le_of_lt long)
    rw [Proxy.taken_append (s := s) rfl, List.filter_cons_of_neg (by simpa using hnone)]
    simpa using ⟨hcommands, hreceived⟩
  | reject phase fits | accept phase fits =>
    rw [Proxy.taken_append (s := s) rfl, List.filter_cons_of_pos (by simpa using fits)]
    simp [hcommands, hreceived]
  | respond req | hangUp req =>
    rw [Proxy.taken_set req rfl]
    exact ⟨hcommands, hreceived⟩
  | _ => exact ⟨hcommands, hreceived⟩

theorem accounts_of_reach (hs : (proxy fromSlice).Reachable s) : Accounts fromSlice s := by
  refine hs.invariant (P := Accounts fromSlice) ?_ fun s ev s' hr h _ hstep => ?_
  · rintro s ⟨cfg, env, rfl⟩
    exact ⟨rfl, rfl, rfl, rfl⟩
  · have hm := Proxy.moves_of_step hstep
    obtain ⟨hcommands, hreceived⟩ := hm.received ⟨h.commands, h.bytesReceived⟩
    rcases hm.outcomes (traced_of_reach hr) with ⟨hperm, hmetrics⟩ | ⟨o, hperm, hmetrics⟩
    · refine ⟨hcommands, hreceived, ?_, ?_⟩
      · rw [hmetrics, (hperm.map _).sum_eq, h.bytesSent]
      · rw [hmetrics, (hperm.map _).sum_eq, h.clientErrors]
    · refine ⟨hcommands, hreceived, ?_, ?_⟩
      · rw [hmetrics, (hperm.map _).sum_eq, List.map_cons, List.sum_cons, ← h.bytesSent]
        exact Nat.add_comm _ _
      · rw [hmetrics, (hperm.map _).sum_eq, List.map_cons, List.sum_cons, ← h.clientErrors]
        exact Nat.add_comm _ _

theorem countP_isError (l : List Outcome) :
    l.countP (fun o => decide o.response.status.IsError) =
      (l.map Outcome.errors).sum + l.countP (fun o => decide o.Malformed) := by
  induction l with
  | nil => rfl
  | cons o l ih =>
    have ho := o.isError_response
    rw [List.countP_cons, List.countP_cons, List.map_cons, List.sum_cons, ih]
    simp only [decide_eq_true_eq]
    omega

/-- **The counters of a run**: all that the route took is counted, and of what was answered all but
the bytes of answers that a decoder does not count, and the errors that the proxy makes of replies.
Every response is the response to one of these outcomes. -/
theorem counters_of_reach (hs : (proxy fromSlice).Reachable s) :
    Accounts fromSlice s ∧
      (outcomes fromSlice s).countP (fun o => decide o.response.status.IsError) =
        s.metrics.clientErrors + (outcomes fromSlice s).countP (fun o => decide o.Malformed) ∧
      ∀ r ∈ s.requests, ∀ env rsp, r.handling = .responded env rsp →
        ∃ o ∈ outcomes fromSlice s, o.response = rsp := by
  have haccounts := accounts_of_reach hs
  refine ⟨haccounts, ?_, fun r hr env rsp hrsp => ?_⟩
  · rw [haccounts.clientErrors, countP_isError]
  · obtain ⟨i, hi⟩ := List.mem_iff_getElem?.mp hr
    obtain ⟨o, ho, heq⟩ := ((traced_of_reach hs).requests i r hi).outcome_eq hrsp
    exact ⟨o, List.mem_filterMap.mpr ⟨r, hr, ho⟩, heq⟩

/-- A request that is rejected, one that is answered and one whose client goes away. -/
theorem counters_of_reach_three_requests :
    ∃ s, (proxy segmentsFromSlice).run
        (Proxy.initial ⟨.standalone, "host", 1, 1⟩ (.documented []))
        (segmentsRun ++ [.request []] ++ replyRun 1 (successBytes []) ++
          [.respond 0, .request segmentsBody, .hangUp 2]) = some s ∧
      s.commands = 3 ∧ s.metrics.clientErrors = 1 ∧ Accounts segmentsFromSlice s := by
  have hrun : ((proxy segmentsFromSlice).run
      (Proxy.initial ⟨.standalone, "host", 1, 1⟩ (.documented []))
      (segmentsRun ++ [.request []] ++ replyRun 1 (successBytes []) ++
        [.respond 0, .request segmentsBody, .hangUp 2])).map
        (fun s => (s.commands, s.metrics.clientErrors)) = some (3, 1) := by decide +kernel
  obtain ⟨s, hs, hstate⟩ := Option.map_eq_some_iff.mp hrun
  obtain ⟨hcommands, herrors⟩ := Prod.mk.inj hstate
  exact ⟨s, hs, hcommands, herrors,
    (counters_of_reach (Machine.Reach.run (.init ⟨_, _, rfl⟩) (fun _ _ _ => trivial) hs)).1⟩

end RzProxy
