import RzProxy.Handler.Attempts
import RzProxy.Processor.Accounting
import RzProxy.Server.System

/-!
# Requests and their calls

Every call of the handler is made for one request or for one attempt to get the rate features, and a
request makes one call at most. Its response is determined by its body and by the result of its
call: so a response that tells what the backend said tells what one frame said, and no frame is told
to two clients.

## Main definitions

* `proxySimulation`: the proxy does to the handler what the handler does
* `Traced`: the calls belong to the requests that made them
* `exchange`: what a client is told

## Main results

* `traced_of_reach`: it holds in every reachable state
* `response_of_reach`: whose reply a client is told
* `goes_on_of_run`: a request waits only for the backend
-/

namespace RzProxy

open ByteString Machines

/-! ## Calls -/

section Calls

variable {h h' : State} {a : Action} {k : CallId}

/-- What a call asks for. -/
def Call.asks (call : Call) : Request :=
  { segment := call.segment, isWrite := call.isWrite, payload := call.payload }

/-- The result of a call that is over. -/
def Call.result (call : Call) : Option (Except RZError Bytes) :=
  match call.pc with
  | .finished result => some result
  | _ => none

theorem Call.result_eq_some_iff {call : Call} {result : Except RZError Bytes} :
    call.result = some result ↔ call.pc = .finished result := by
  unfold Call.result
  cases call.pc <;> simp

theorem asks_of_step (hstep : h.step a = some h') (hk : k < h.callCount) :
    (h'.calls k).asks = (h.calls k).asks := by
  obtain ⟨h₁, hc, rfl⟩ := step_cases hstep
  obtain ⟨hsegment, hwrite, hpayload⟩ := hc.call hk
  show (h₁.calls k).asks = _
  rw [Call.asks, Call.asks, hsegment, hwrite, hpayload]

theorem callCount_of_internal (hstep : h.step a = some h') (ha : a.internal = true) :
    h'.callCount = h.callCount := by
  obtain ⟨h₁, hc, rfl⟩ := step_cases hstep
  show h₁.callCount = _
  cases hc with
  | newCall => cases ha
  | _ => rfl

/-- A call that begins. -/
theorem begun_of_step {r : Request} (hstep : h.step r.action = some h') :
    h'.callCount = h.callCount + 1 ∧ (h'.calls h.callCount).asks = r ∧
      (h'.calls h.callCount).pc ≠ .dropped := by
  obtain ⟨h₁, hact, rfl⟩ := Option.map_eq_some_iff.mp hstep
  obtain rfl := Option.some.inj hact
  have hcall : (h.newCall r.segment r.isWrite r.payload).tick.reap.calls h.callCount = _ :=
    Function.update_self ..
  rw [hcall]
  refine ⟨rfl, rfl, ?_⟩
  dsimp only
  split_ifs <;> nofun

/-- A call whose future is dropped. -/
theorem dropped_of_step (hstep : h.step (.cancel k) = some h') :
    h'.callCount = h.callCount ∧ k < h.callCount ∧ (h'.calls k).pc = .dropped := by
  obtain ⟨h₁, hact, rfl⟩ := Option.map_eq_some_iff.mp hstep
  have hcount : h₁.callCount = h.callCount := by
    cases change_of_act hact <;> rfl
  simp only [State.act, Option.ite_none_right_eq_some] at hact
  obtain ⟨hk, hact⟩ := hact
  refine ⟨hcount, hk, ?_⟩
  show (h₁.calls k).pc = .dropped
  unfold State.cancel at hact
  split at hact <;> cases hact <;> exact pc_setPc _ k _

/-- A call that returned `Ok` was answered by a frame. -/
theorem exists_answeredBy {b : Bytes} (hs : handler.Reachable h)
    (hpc : (h.calls k).pc = .finished (.ok b)) : ∃ c n, AnsweredBy h k b c n := by
  have hcorr := correlated_of_reach hs
  obtain ⟨x, hlast, hx, hcall, hsent⟩ := hcorr.answered hpc
  obtain ⟨f, n, t, hn, hf, hid, hpayload, hstored, ht⟩ := hcorr.sent hx hsent
  have hframe := (fed_of_reach hs _).getElem?_frames hn
  exact ⟨(h.chans x).conn, n, x, t, f, hlast, hcall, rfl, hstored, hn, hf,
    by rw [hframe, hpayload], hid, ht⟩

/-- A frame answers one call. -/
theorem AnsweredBy.unique {j : CallId} {b b' : Bytes} {c : ConnId} {n : ℕ}
    (hj : AnsweredBy h j b c n) (hk : AnsweredBy h k b' c n) : j = k := by
  obtain ⟨x, -, f, -, hxj, -, -, hn, hf, -⟩ := hj
  obtain ⟨x', -, f', -, hxk, -, -, hn', hf', -⟩ := hk
  obtain rfl := Option.some.inj (hn.symm.trans hn')
  rw [← hxj, ← hxk, ← hf, ← hf']

end Calls

/-! ## The handler in the proxy -/

variable {fromSlice : Bytes → Option Value} {s s' : Proxy} {ev : Event}

/-- What a step of the proxy does to the handler. -/
theorem Proxy.Moves.handler_cases (h : s.Moves fromSlice ev s') :
    s'.handler = s.handler ∧ (∀ a, ev ≠ .handler a) ∨
      ∃ a, s.handler.step a = some s'.handler ∧
        ∀ b, b.internal = true → (a = b ↔ ev = .handler b) := by
  cases h with
  | handler internal step => exact .inr ⟨_, step, fun b _ => by simp⟩
  | ask _ _ step | accept _ _ _ step =>
    refine .inr ⟨_, step, fun b hb => iff_of_false ?_ (by simp)⟩
    rintro rfl
    cases hb
  | interrupt _ _ step | hangUp _ step =>
    refine .inr ⟨_, step, fun b hb => iff_of_false ?_ (by simp)⟩
    rintro rfl
    cases hb
  | _ => exact .inl ⟨rfl, by simp⟩

/-- A condition on the steps that the handler and the backend take by themselves. -/
def OnHandler (ok : State → Action → Prop) (s : Proxy) (ev : Event) : Prop :=
  ∀ a, ev = .handler a → ok s.handler a

/-- **The proxy does to its handler** what the handler can do. -/
def proxySimulation (fromSlice : Bytes → Option Value) {ok : State → Action → Prop}
    (hok : ∀ s a, a.internal = false → ok s a) :
    Simulation (proxy fromSlice) (OnHandler ok) handler ok where
  map := Proxy.handler
  init := by
    rintro s ⟨cfg, env, rfl⟩
    exact ⟨cfg, rfl⟩
  step := by
    intro s ev s' _ _ hev hstep
    rcases (Proxy.moves_of_step hstep).handler_cases with ⟨he, -⟩ | ⟨a, ha, hiff⟩
    · exact ⟨[], he ▸ .nil _⟩
    · refine ⟨[a], .single ?_ ha⟩
      cases hint : a.internal with
      | true => exact hev a ((hiff a hint).mp rfl)
      | false => exact hok _ a hint

theorem reach_handler (hs : (proxy fromSlice).Reachable s) : handler.Reachable s.handler :=
  (proxySimulation fromSlice fun _ _ _ => trivial).reach (hs.mono fun _ _ _ _ _ => trivial)

/-! ## What a client is told -/

section Exchange

variable (fromSlice) (env : Env)

/-- The response to a body, where `result` is the result of its call. -/
def exchange (body : Bytes) (result : Option (Except RZError Bytes)) : Option Response :=
  match request fromSlice body, result with
  | .error e, none => some (errorResponse ⟨0, 0⟩ e).1
  | .ok _, some (.error e) => some (errorResponse ⟨0, 0⟩ e).1
  | .ok (_, D), some (.ok payload) => some (respond (D.answer env payload))
  | _, _ => none

/-- `process` gives the response, and never panics. -/
theorem process_eq_exchange (metrics : Metrics) (body : Bytes) {p : Request × Decoder}
    (hreq : request fromSlice body = .ok p) (result : Except RZError Bytes) :
    ∃ rsp metrics', exchange fromSlice env body (some result) = some rsp ∧
      process env metrics fromSlice (fun _ => result) body = .ok (rsp, metrics') := by
  cases result with
  | error e =>
    refine ⟨(errorResponse metrics e).1, (errorResponse metrics e).2, ?_, ?_⟩
    · simp only [exchange, hreq]
      rfl
    · rw [process, hreq]
  | ok payload =>
    obtain ⟨metrics', hdecode, -⟩ := answers_decode env metrics p.2 payload
    refine ⟨respond (p.2.answer env payload), metrics', ?_, ?_⟩
    · simp only [exchange, hreq]
    · rw [process, hreq]
      exact hdecode

end Exchange

/-- The result of the call that was made for a request. -/
def HttpRequest.result (r : HttpRequest) (h : State) : Option (Except RZError Bytes) :=
  r.call.bind fun k => (h.calls k).result

/-! ## Requests and their calls -/

variable (fromSlice) in
/-- The call of a request asks for what its body says, and the request is where its call is. -/
structure HttpRequest.Traced (h : State) (r : HttpRequest) : Prop where
  asks : ∀ k, r.call = some k → ∃ D, request fromSlice r.body = .ok ((h.calls k).asks, D)
  waiting : ∀ k, r.handling = .waiting k → r.call = some k ∧ (h.calls k).pc ≠ .dropped
  responded : ∀ env rsp, r.handling = .responded env rsp →
    exchange fromSlice env r.body (r.result h) = some rsp ∧
      ∀ k, r.call = some k → (h.calls k).pc.left = 0
  dropped : r.handling = .dropped → ∃ k, r.call = some k ∧ (h.calls k).pc = .dropped
  refused : r.handling = .refused → r.call = none ∧ bodyLimit < r.body.length
  fits : r.handling ≠ .refused → r.body.length ≤ bodyLimit

variable (fromSlice) in
/-- Every call is made for one attempt to get the rate features or for one request. -/
structure Traced (h : State) (asked : List CallId) (requests : List HttpRequest) : Prop where
  perm : (asked ++ requests.filterMap HttpRequest.call).Perm (List.range h.callCount)
  asked : ∀ k ∈ asked, (h.calls k).asks = codecsRequest
  requests : ∀ (i : ℕ) (r : HttpRequest), requests[i]? = some r → r.Traced fromSlice h

section Lists

variable {α β : Type*} {f : α → Option β} {l : List α} {i j : ℕ} {a b : α} {c : β}

theorem filterMap_set (hi : l[i]? = some a) (hf : f b = f a) :
    (l.set i b).filterMap f = l.filterMap f := by
  induction l generalizing i with
  | nil => cases hi
  | cons x l ih =>
    cases i with
    | zero =>
      obtain rfl := Option.some.inj hi
      rw [List.set_cons_zero, List.filterMap_cons, List.filterMap_cons, hf]
    | succ i => rw [List.set_cons_succ, List.filterMap_cons, List.filterMap_cons, ih hi]

theorem eq_of_nodup_filterMap (h : (l.filterMap f).Nodup) (hi : l[i]? = some a)
    (hj : l[j]? = some b) (ha : f a = some c) (hb : f b = some c) : i = j := by
  obtain ⟨hil, rfl⟩ := List.getElem?_eq_some_iff.mp hi
  obtain ⟨hjl, rfl⟩ := List.getElem?_eq_some_iff.mp hj
  have hpair := List.pairwise_iff_getElem.mp (List.pairwise_filterMap.mp h)
  by_contra hne
  rcases Nat.lt_or_gt_of_ne hne with hlt | hlt
  · exact hpair i j hil hjl hlt c ha c hb rfl
  · exact hpair j i hjl hil hlt c hb c ha rfl

end Lists

section Traced

variable {h h' : State} {a : Action} {asked : List CallId} {requests : List HttpRequest}
  {r : HttpRequest} {i j : ℕ} {k : CallId} {body : Bytes}

/-- A response that was made tells of a call that stays as it is. -/
theorem HttpRequest.Traced.result_eq (hr : r.Traced fromSlice h) (hstep : h.step a = some h')
    (hk : ∀ k, r.call = some k → k < h.callCount) {env : Env} {rsp : Response}
    (hrsp : r.handling = .responded env rsp) : r.result h' = r.result h := by
  unfold HttpRequest.result
  cases hc : r.call with
  | none => rfl
  | some k =>
    rw [Option.bind_some, Option.bind_some,
      calls_of_step hstep (hk k hc) ((hr.responded env rsp hrsp).2 k hc)]

/-- A step that does not drop the call of a request. -/
theorem HttpRequest.Traced.step (hr : r.Traced fromSlice h) (hstep : h.step a = some h')
    (hk : ∀ k, r.call = some k → k < h.callCount)
    (ha : ∀ k, r.handling = .waiting k → a ≠ .cancel k) :
    r.Traced fromSlice h' := by
  refine ⟨fun k hc => ?_, fun k hw => ?_, fun env rsp hrsp => ?_, fun hd => ?_, hr.refused,
    hr.fits⟩
  · rw [asks_of_step hstep (hk k hc)]
    exact hr.asks k hc
  · obtain ⟨hc, hpc⟩ := hr.waiting k hw
    exact ⟨hc, pc_ne_dropped_of_step hstep (hk k hc) (ha k hw) hpc⟩
  · obtain ⟨hexchange, hover⟩ := hr.responded env rsp hrsp
    rw [hr.result_eq hstep hk hrsp]
    exact ⟨hexchange, fun k hc => calls_of_step hstep (hk k hc) (hover k hc) ▸ hover k hc⟩
  · obtain ⟨k, hc, hpc⟩ := hr.dropped hd
    exact ⟨k, hc, calls_of_step hstep (hk k hc) (by rw [hpc]; rfl) ▸ hpc⟩

theorem Traced.lt (ht : Traced fromSlice h asked requests) (hi : requests[i]? = some r)
    (hc : r.call = some k) : k < h.callCount := by
  have hmem : k ∈ asked ++ requests.filterMap HttpRequest.call :=
    List.mem_append_right _ (List.mem_filterMap.mpr ⟨r, List.mem_of_getElem? hi, hc⟩)
  exact List.mem_range.mp (ht.perm.mem_iff.mp hmem)

theorem Traced.lt_of_asked (ht : Traced fromSlice h asked requests) (hk : k ∈ asked) :
    k < h.callCount :=
  List.mem_range.mp (ht.perm.mem_iff.mp (List.mem_append_left _ hk))

theorem Traced.nodup (ht : Traced fromSlice h asked requests) :
    (asked ++ requests.filterMap HttpRequest.call).Nodup :=
  ht.perm.nodup_iff.mpr List.nodup_range

/-- No two requests have one call. -/
theorem Traced.eq_of_call (ht : Traced fromSlice h asked requests) {r' : HttpRequest}
    (hi : requests[i]? = some r) (hj : requests[j]? = some r') (hc : r.call = some k)
    (hc' : r'.call = some k) : i = j :=
  eq_of_nodup_filterMap (List.nodup_append.mp ht.nodup).2.1 hi hj hc hc'

/-- A step that drops no call, or one that was made by `async_main`. -/
theorem Traced.internal (ht : Traced fromSlice h asked requests) (hstep : h.step a = some h')
    (hcount : h'.callCount = h.callCount) (ha : ∀ k, a = .cancel k → k ∈ asked) :
    Traced fromSlice h' asked requests := by
  refine ⟨hcount ▸ ht.perm, fun k hk => ?_, fun i r hi => ?_⟩
  · rw [asks_of_step hstep (ht.lt_of_asked hk)]
    exact ht.asked k hk
  · refine (ht.requests i r hi).step hstep (fun k => ht.lt hi) fun k hw hcancel => ?_
    have hmem : k ∈ requests.filterMap HttpRequest.call := List.mem_filterMap.mpr
      ⟨r, List.mem_of_getElem? hi, ((ht.requests i r hi).waiting k hw).1⟩
    exact (List.nodup_append.mp ht.nodup).2.2 k (ha k hcancel) k hmem rfl

/-- An attempt to get the rate features begins. -/
theorem Traced.ask (ht : Traced fromSlice h asked requests)
    (hstep : h.step codecsRequest.action = some h') :
    Traced fromSlice h' (asked ++ [h.callCount]) requests := by
  obtain ⟨hcount, hasks, -⟩ := begun_of_step hstep
  refine ⟨?_, fun k hk => ?_, fun i r hi => ?_⟩
  · rw [hcount, List.range_succ, List.append_assoc]
    exact (List.perm_append_comm.append_left asked).trans
      (List.append_assoc .. ▸ ht.perm.append_right _)
  · rcases List.mem_append.mp hk with hk | hk
    · rw [asks_of_step hstep (ht.lt_of_asked hk)]
      exact ht.asked k hk
    · obtain rfl := List.mem_singleton.mp hk
      exact hasks
  · exact (ht.requests i r hi).step hstep (fun k => ht.lt hi) fun k _ => nofun

/-- What is said of the requests before a new one. -/
theorem getElem?_append_singleton_cases {α : Type*} {l : List α} {x y : α} {i : ℕ}
    (h : (l ++ [x])[i]? = some y) : l[i]? = some y ∨ y = x := by
  rcases Nat.lt_or_ge i l.length with hi | hi
  · exact .inl (List.getElem?_append_left hi ▸ h)
  · rw [List.getElem?_append_right hi] at h
    exact .inr (List.mem_singleton.mp (List.mem_of_getElem? h))

/-- A request that is not rejected makes its call. -/
theorem Traced.accept (ht : Traced fromSlice h asked requests) {q : Request} {D : Decoder}
    (hfits : body.length ≤ bodyLimit) (hstep : h.step q.action = some h')
    (hreq : request fromSlice body = .ok (q, D)) :
    Traced fromSlice h' asked (requests ++ [⟨body, .waiting h.callCount, some h.callCount⟩]) := by
  obtain ⟨hcount, hasks, hpc⟩ := begun_of_step hstep
  refine ⟨?_, fun k hk => ?_, fun i r hi => ?_⟩
  · rw [hcount, List.range_succ, List.filterMap_append, ← List.append_assoc]
    exact ht.perm.append_right _
  · rw [asks_of_step hstep (ht.lt_of_asked hk)]
    exact ht.asked k hk
  · rcases getElem?_append_singleton_cases hi with hi | rfl
    · exact (ht.requests i r hi).step hstep (fun k => ht.lt hi) fun k _ => nofun
    · refine ⟨fun k hk => ?_, fun k hk => ?_, nofun, nofun, nofun, fun _ => hfits⟩
      · obtain rfl := Option.some.inj hk
        exact ⟨D, hasks ▸ hreq⟩
      · cases hk
        exact ⟨rfl, hpc⟩

/-- A request that makes no call. -/
theorem Traced.append (ht : Traced fromSlice h asked requests) (hr : r.Traced fromSlice h)
    (hc : r.call = none) : Traced fromSlice h asked (requests ++ [r]) := by
  refine ⟨?_, ht.asked, fun i r' hi => ?_⟩
  · simpa [List.filterMap_append, List.filterMap_cons_none hc] using ht.perm
  · rcases getElem?_append_singleton_cases hi with hi | rfl
    · exact ht.requests i r' hi
    · exact hr

theorem traced_of_tooLong (h : State) (hlong : bodyLimit < body.length) :
    HttpRequest.Traced fromSlice h ⟨body, .refused, none⟩ :=
  ⟨nofun, nofun, nofun, nofun, fun _ => ⟨rfl, hlong⟩, fun hne => absurd rfl hne⟩

theorem traced_of_reject (h : State) {e : RZError} (hfits : body.length ≤ bodyLimit)
    (hreq : request fromSlice body = .error e) (env : Env) :
    HttpRequest.Traced fromSlice h
      ⟨body, .responded env (errorResponse ⟨0, 0⟩ e).1, none⟩ := by
  refine ⟨nofun, nofun, fun env' rsp hrsp => ?_, nofun, nofun, fun _ => hfits⟩
  cases hrsp
  refine ⟨?_, nofun⟩
  show exchange fromSlice env body none = _
  simp only [exchange, hreq]

/-- A request whose call is over is answered. -/
theorem Traced.respond (ht : Traced fromSlice h asked requests) {call : Option CallId}
    {result : Except RZError Bytes} {env : Env} {rsp : Response}
    (hi : requests[i]? = some ⟨body, .waiting k, call⟩) (hpc : (h.calls k).pc = .finished result)
    (hrsp : exchange fromSlice env body (some result) = some rsp) :
    Traced fromSlice h asked (requests.set i ⟨body, .responded env rsp, call⟩) := by
  have hr := ht.requests i _ hi
  obtain ⟨rfl, -⟩ : call = some k ∧ _ := hr.waiting k rfl
  refine ⟨?_, ht.asked, fun j r hj => ?_⟩
  · rw [filterMap_set (f := HttpRequest.call) (b := ⟨body, .responded env rsp, some k⟩) hi rfl]
    exact ht.perm
  · rw [List.getElem?_set] at hj
    split_ifs at hj
    · obtain rfl := Option.some.inj hj
      refine ⟨hr.asks, nofun, fun env' rsp' he => ?_, nofun, nofun, fun _ => hr.fits nofun⟩
      cases he
      refine ⟨?_, fun j hj => ?_⟩
      · show exchange fromSlice env body (h.calls k).result = _
        rw [Call.result_eq_some_iff.mpr hpc]
        exact hrsp
      · obtain rfl := Option.some.inj hj
        rw [hpc]
        rfl
    · exact ht.requests j r hj

/-- A request is dropped with its call. -/
theorem Traced.hangUp (ht : Traced fromSlice h asked requests) {call : Option CallId}
    (hi : requests[i]? = some ⟨body, .waiting k, call⟩) (hstep : h.step (.cancel k) = some h') :
    Traced fromSlice h' asked (requests.set i ⟨body, .dropped, call⟩) := by
  obtain ⟨hcount, hk, hpc⟩ := dropped_of_step hstep
  have hr := ht.requests i _ hi
  obtain ⟨rfl, -⟩ : call = some k ∧ _ := hr.waiting k rfl
  refine ⟨?_, fun j hj => ?_, fun j r hj => ?_⟩
  · rw [filterMap_set (f := HttpRequest.call) (b := ⟨body, .dropped, some k⟩) hi rfl, hcount]
    exact ht.perm
  · rw [asks_of_step hstep (ht.lt_of_asked hj)]
    exact ht.asked j hj
  · rw [List.getElem?_set] at hj
    split_ifs at hj with hij
    · obtain rfl := Option.some.inj hj
      refine ⟨fun j hj => ?_, nofun, nofun, fun _ => ⟨k, rfl, hpc⟩, nofun,
        fun _ => hr.fits nofun⟩
      obtain rfl := Option.some.inj hj
      rw [asks_of_step hstep hk]
      exact hr.asks k rfl
    · refine (ht.requests j r hj).step hstep (fun k => ht.lt hj) fun k' hw hcancel => hij ?_
      obtain rfl := Action.cancel.inj hcancel
      exact ht.eq_of_call hi hj rfl ((ht.requests j r hj).waiting k hw).1

end Traced

/-- The attempt that goes on is the last one. -/
def Asking (s : Proxy) : Prop := ∀ k, s.phase = .asking k → k ∈ s.asked

theorem Proxy.Moves.traced (hm : s.Moves fromSlice ev s')
    (h : Traced fromSlice s.handler s.asked s.requests ∧ Asking s) :
    Traced fromSlice s'.handler s'.asked s'.requests ∧ Asking s' := by
  obtain ⟨ht, hasking⟩ := h
  cases hm with
  | @handler a _ internal step =>
    refine ⟨ht.internal step (callCount_of_internal step internal) ?_, hasking⟩
    rintro k rfl
    cases internal
  | ask _ _ step =>
    refine ⟨ht.ask step, fun k hk => ?_⟩
    obtain rfl := Phase.asking.inj hk
    exact List.mem_append_right _ List.mem_cons_self
  | giveUp | fail | serve | refuse | retry | stop => exact ⟨ht, nofun⟩
  | cancel => exact ⟨ht, hasking⟩
  | year => exact ⟨ht, hasking⟩
  | interrupt _ phase step =>
    refine ⟨ht.internal step (dropped_of_step step).1 ?_, nofun⟩
    rintro k hk
    obtain rfl := Action.cancel.inj hk
    exact hasking _ phase
  | tooLong phase long => exact ⟨ht.append (traced_of_tooLong s.handler long) rfl, hasking⟩
  | reject phase fits req =>
    exact ⟨ht.append (traced_of_reject s.handler fits req s.env) rfl, hasking⟩
  | accept phase fits req step => exact ⟨ht.accept fits step req, hasking⟩
  | @respond i k body call result rsp metrics req pc rsp_eq =>
    refine ⟨ht.respond req pc ?_, hasking⟩
    obtain ⟨D, hreq⟩ := (ht.requests i _ req).asks k ((ht.requests i _ req).waiting k rfl).1
    obtain ⟨rsp', metrics', hexchange, hprocess⟩ :=
      process_eq_exchange fromSlice s.env s.metrics body hreq result
    obtain ⟨rfl, -⟩ := Prod.mk.inj (Except.ok.inj (rsp_eq.symm.trans hprocess))
    exact hexchange
  | hangUp req step => exact ⟨ht.hangUp req step, hasking⟩

/-- **Requests and their calls**: they belong together in every reachable state. -/
theorem traced_of_reach (hs : (proxy fromSlice).Reachable s) :
    Traced fromSlice s.handler s.asked s.requests := by
  have hinv : Traced fromSlice s.handler s.asked s.requests ∧ Asking s := by
    refine hs.invariant (P := fun s => Traced fromSlice s.handler s.asked s.requests ∧ Asking s)
      ?_ fun s ev s' _ h _ hstep => (Proxy.moves_of_step hstep).traced h
    rintro s ⟨cfg, env, rfl⟩
    exact ⟨⟨.refl _, nofun, nofun⟩, nofun⟩
  exact hinv.1

/-! ## Whose reply a client is told -/

/-- Why a client is told `rsp`: its request was rejected, or its call failed, or its call was
answered by the frame `n` of the connection `c`. -/
inductive Told (fromSlice : Bytes → Option Value) (h : State) (env : Env) (rsp : Response)
    (r : HttpRequest) (c : ConnId) (n : ℕ) : Prop
  | rejected {e : RZError} (call : r.call = none) (req : request fromSlice r.body = .error e)
      (rsp_eq : rsp = (errorResponse ⟨0, 0⟩ e).1)
  | failed {k : CallId} {D : Decoder} {e : RZError} (call : r.call = some k)
      (req : request fromSlice r.body = .ok ((h.calls k).asks, D))
      (pc : (h.calls k).pc = .finished (.error e)) (rsp_eq : rsp = (errorResponse ⟨0, 0⟩ e).1)
  | replied {k : CallId} {D : Decoder} {payload : Bytes} (call : r.call = some k)
      (req : request fromSlice r.body = .ok ((h.calls k).asks, D))
      (pc : (h.calls k).pc = .finished (.ok payload)) (frame : AnsweredBy h k payload c n)
      (rsp_eq : rsp = respond (D.answer env payload))

/-- The call of a request was answered by the backend. -/
def HttpRequest.Replied (h : State) (r : HttpRequest) : Prop :=
  ∃ k payload, r.call = some k ∧ (h.calls k).pc = .finished (.ok payload)

/-- A response that was made tells the result of its call. -/
theorem HttpRequest.Traced.told {h : State} {r : HttpRequest} {env : Env} {rsp : Response}
    {c : ConnId} {n : ℕ} (hr : r.Traced fromSlice h) (hrsp : r.handling = .responded env rsp)
    (hframe : ∀ k payload, r.call = some k → (h.calls k).pc = .finished (.ok payload) →
      AnsweredBy h k payload c n) : Told fromSlice h env rsp r c n := by
  obtain ⟨hexchange, -⟩ := hr.responded env rsp hrsp
  cases hc : r.call with
  | none =>
    rw [HttpRequest.result, hc, Option.bind_none] at hexchange
    cases hreq : request fromSlice r.body with
    | error e =>
      simp only [exchange, hreq, Option.some.injEq] at hexchange
      exact .rejected hc hreq hexchange.symm
    | ok p => simp [exchange, hreq] at hexchange
  | some k =>
    obtain ⟨D, hreq⟩ := hr.asks k hc
    rw [HttpRequest.result, hc, Option.bind_some] at hexchange
    cases hresult : (h.calls k).result with
    | none => simp [exchange, hreq, hresult] at hexchange
    | some result =>
      have hpc := Call.result_eq_some_iff.mp hresult
      cases result with
      | error e =>
        simp only [exchange, hreq, hresult, Option.some.injEq] at hexchange
        exact .failed hc hreq hpc hexchange.symm
      | ok payload =>
        simp only [exchange, hreq, hresult, Option.some.injEq] at hexchange
        exact .replied hc hreq hpc (hframe k payload hc hpc) hexchange.symm

/-- **End to end**: every response tells the error of its own request or of its own call, or what
one frame says that the backend sent for this call; no frame is told to two clients; and the route
refuses the bodies that are too long, without a call, and no others. -/
theorem response_of_reach (hs : (proxy fromSlice).Reachable s) :
    ∃ frameOf : ℕ → ConnId × ℕ,
      (∀ i r env rsp, s.requests[i]? = some r → r.handling = .responded env rsp →
        Told fromSlice s.handler env rsp r (frameOf i).1 (frameOf i).2) ∧
      (∀ i j r r', s.requests[i]? = some r → s.requests[j]? = some r' → r.Replied s.handler →
        r'.Replied s.handler → frameOf i = frameOf j → i = j) ∧
      ∀ (i : ℕ) r, s.requests[i]? = some r → (r.handling = .refused ↔ bodyLimit < r.body.length) ∧
        (r.handling = .refused → r.call = none) := by
  have ht := traced_of_reach hs
  have hframe : ∀ i : ℕ, ∃ cn : ConnId × ℕ, ∀ r, s.requests[i]? = some r → ∀ k payload,
      r.call = some k → (s.handler.calls k).pc = .finished (.ok payload) →
      AnsweredBy s.handler k payload cn.1 cn.2 := by
    intro i
    by_cases hreplied : ∃ r, s.requests[i]? = some r ∧ r.Replied s.handler
    · obtain ⟨r, hi, k, payload, hk, hpc⟩ := hreplied
      obtain ⟨c, n, hframe⟩ := exists_answeredBy (reach_handler hs) hpc
      refine ⟨(c, n), fun r' hi' k' payload' hk' hpc' => ?_⟩
      obtain rfl := Option.some.inj (hi.symm.trans hi')
      obtain rfl := Option.some.inj (hk.symm.trans hk')
      obtain rfl := Except.ok.inj (Pc.finished.inj (hpc.symm.trans hpc'))
      exact hframe
    · exact ⟨(0, 0), fun r hi k payload hk hpc => absurd ⟨r, hi, k, payload, hk, hpc⟩ hreplied⟩
  choose frameOf hframeOf using hframe
  refine ⟨frameOf, fun i r env rsp hi hrsp => ?_, fun i j r r' hi hj hr hr' hij => ?_,
    fun i r hi => ⟨?_, fun h => ((ht.requests i r hi).refused h).1⟩⟩
  · exact (ht.requests i r hi).told hrsp (hframeOf i r hi)
  · obtain ⟨k, payload, hk, hpc⟩ := hr
    obtain ⟨k', payload', hk', hpc'⟩ := hr'
    have hframe := hframeOf i r hi k payload hk hpc
    rw [hij] at hframe
    obtain rfl := hframe.unique (hframeOf j r' hj k' payload' hk' hpc')
    exact ht.eq_of_call hi hj hk hk'
  · refine ⟨fun h => ((ht.requests i r hi).refused h).2, fun hlong => ?_⟩
    by_contra hne
    exact absurd ((ht.requests i r hi).fits hne) (Nat.not_le_of_lt hlong)

/-- The response to a request, if it was made. -/
def HttpRequest.response? (r : HttpRequest) : Option Response :=
  match r.handling with
  | .responded _ rsp => some rsp
  | _ => none

/-- A request for the segments, and its parser. -/
def segmentsBody : Bytes :=
  utf8 "\x7b\"command\":\"GETSEGMENTS\",\"segment\":\"eu\",\"body\":\x7b\x7d\x7d"

def segmentsFromSlice (bytes : Bytes) : Option Value :=
  if bytes = segmentsBody then
    some (.object [("command", .string "GETSEGMENTS"), ("segment", .string "eu"),
      ("body", .object [])])
  else none

/-- The steps from a call to its result, on a pool of one connection. -/
def replyRun (k : CallId) (payload : Bytes) : List Event :=
  List.replicate 5 (.handler (.exec k)) ++ [.handler (.write 0),
    .handler (.deliver 0 (prependHeader (UInt32.ofNat (k + 1)) payload)),
    .handler (.recv 0 (9 + payload.length)), .handler (.read 0), .handler (.read 0),
    .handler (.exec k)]

/-- The proxy is told the rate features, and one request is made. -/
def segmentsRun : List Event :=
  List.replicate 3 (.handler (.reconnect true)) ++ .main :: replyRun 0 (codecsReply "wifi") ++
    [.main, .request segmentsBody]

/-- A request for the segments that is answered. -/
theorem response_of_reach_segments :
    ∃ s r env rsp c n, (proxy segmentsFromSlice).run
        (Proxy.initial ⟨.standalone, "host", 1, 1⟩ (.documented []))
        (segmentsRun ++ replyRun 1 (successBytes []) ++ [.respond 0]) = some s ∧
      s.requests[0]? = some r ∧ rsp.status = .ok ∧
      Told segmentsFromSlice s.handler env rsp r c n := by
  have hrun : ((proxy segmentsFromSlice).run
      (Proxy.initial ⟨.standalone, "host", 1, 1⟩ (.documented []))
      (segmentsRun ++ replyRun 1 (successBytes []) ++ [.respond 0])).map
        (fun s => s.requests.map fun r => r.response?.map Response.status) =
      some [some .ok] := by decide +kernel
  obtain ⟨s, hs, hmap⟩ := Option.map_eq_some_iff.mp hrun
  obtain ⟨r, hreqs, hrsp⟩ : ∃ r, s.requests = [r] ∧ r.response?.map Response.status = some .ok := by
    rcases hreqs : s.requests with _ | ⟨r, _ | ⟨r', l⟩⟩ <;> rw [hreqs] at hmap
    · cases hmap
    · exact ⟨r, rfl, List.head_eq_of_cons_eq hmap⟩
    · simp at hmap
  have hi : s.requests[0]? = some r := by rw [hreqs]; rfl
  obtain ⟨frameOf, htold, -⟩ :=
    response_of_reach (Machine.Reach.run (.init ⟨_, _, rfl⟩) (fun _ _ _ => trivial) hs)
  obtain ⟨body, handling, call⟩ := r
  cases handling with
  | responded env rsp =>
    exact ⟨s, _, env, rsp, _, _, hs, hi, Option.some.inj hrsp, htold 0 _ env rsp hi rfl⟩
  | _ => cases hrsp

/-! ## Requests that wait -/

theorem stepsLeft_of_moves (hs : (proxy fromSlice).Reachable s) (hm : s.Moves fromSlice ev s')
    (k : CallId) : (if ev = .handler (.exec k) then 1 else 0) + s'.handler.stepsLeft k ≤
      s.handler.stepsLeft k := by
  rcases hm.handler_cases with ⟨he, hne⟩ | ⟨a, hstep, ha⟩
  · rw [if_neg (hne _), he, Nat.zero_add]
  · have hle := stepsLeft_step (reach_handler hs) k hstep
    simp only [← ha (.exec k) rfl]
    exact hle

/-- A request whose call is over can be answered. -/
theorem exists_respond (ht : Traced fromSlice s.handler s.asked s.requests) {i : ℕ} {k : CallId}
    {body : Bytes} {call : Option CallId} {result : Except RZError Bytes}
    (hi : s.requests[i]? = some ⟨body, .waiting k, call⟩)
    (hpc : (s.handler.calls k).pc = .finished result) :
    ∃ rsp metrics, (proxy fromSlice).step s (.respond i) = some { s with
      metrics, requests := s.requests.set i ⟨body, .responded s.env rsp, call⟩ } := by
  have hr := ht.requests i _ hi
  obtain ⟨D, hreq⟩ := hr.asks k (hr.waiting k rfl).1
  obtain ⟨rsp, metrics, -, hprocess⟩ :=
    process_eq_exchange fromSlice s.env s.metrics body hreq result
  refine ⟨rsp, metrics, ?_⟩
  show s.respond fromSlice i = _
  simp only [Proxy.respond, hi, hpc, hprocess]

/-- **A request waits only for the backend**: its call takes twenty steps at most, and a request
that is not answered can be answered or its call can take a step, unless the call waits for the
pool, for its queue or for its reply. -/
theorem goes_on_of_run {cfg : Config} {env : Env} {es : List Event}
    (hrun : (proxy fromSlice).run (Proxy.initial cfg env) es = some s) {i : ℕ} {r : HttpRequest}
    {k : CallId} (hi : s.requests[i]? = some r) (hwait : r.handling = .waiting k) :
    es.count (.handler (.exec k)) ≤ 20 ∧
      (((proxy fromSlice).step s (.respond i)).isSome ∨
        ((proxy fromSlice).step s (.handler (.exec k))).isSome ∨ Blocked s.handler k) := by
  have hpath := Machine.path_iff_run.mpr hrun
  have hs : (proxy fromSlice).Reachable s := Machine.Reach.path (.init ⟨cfg, env, rfl⟩) hpath
  have ht := traced_of_reach hs
  obtain ⟨hc, hpc⟩ := (ht.requests i r hi).waiting k hwait
  refine ⟨?_, ?_⟩
  · have hle := Machine.Path.count_add_le (fun s => s.handler.stepsLeft k)
      (l := .handler (.exec k))
      (fun s ev s' hs _ hstep => stepsLeft_of_moves hs (Proxy.moves_of_step hstep) k)
      (.init ⟨cfg, env, rfl⟩) hpath
    exact (Nat.le_add_right _ _).trans hle
  · cases hexec : s.handler.exec k with
    | some h =>
      refine .inr (.inl ?_)
      simp [proxy, Proxy.step, Action.internal, State.step, State.act, ht.lt hi hc, hexec]
    | none =>
      rcases blocked_of_exec_eq_none (reach_handler hs) hexec with hleft | hblocked
      · refine .inl ?_
        obtain ⟨result, hresult⟩ : ∃ result, (s.handler.calls k).pc = .finished result := by
          cases hp : (s.handler.calls k).pc with
          | finished result => exact ⟨result, rfl⟩
          | dropped => exact absurd hp hpc
          | _ =>
            rw [hp] at hleft
            cases hleft
        obtain ⟨body, handling, call⟩ := r
        obtain rfl : handling = .waiting k := hwait
        obtain ⟨rsp, metrics, hstep⟩ := exists_respond ht hi hresult
        rw [hstep]
        rfl
      · exact .inr (.inr hblocked)

/-- A request that waits for the reply of the backend. -/
theorem goes_on_of_run_segments :
    ∃ s r, (proxy segmentsFromSlice).run
        (Proxy.initial ⟨.standalone, "host", 1, 1⟩ (.documented []))
        (segmentsRun ++ List.replicate 5 (.handler (.exec 1))) = some s ∧
      s.requests[0]? = some r ∧ r.handling = .waiting 1 ∧
      (((proxy segmentsFromSlice).step s (.respond 0)).isSome ∨
        ((proxy segmentsFromSlice).step s (.handler (.exec 1))).isSome ∨ Blocked s.handler 1) := by
  have hrun : ((proxy segmentsFromSlice).run
      (Proxy.initial ⟨.standalone, "host", 1, 1⟩ (.documented []))
      (segmentsRun ++ List.replicate 5 (.handler (.exec 1)))).map
        (fun s => s.requests.map fun r => r.handling.waits) = some [some 1] := by decide +kernel
  obtain ⟨s, hs, hmap⟩ := Option.map_eq_some_iff.mp hrun
  rcases hreqs : s.requests with _ | ⟨⟨body, handling, call⟩, _ | ⟨r', l⟩⟩ <;> rw [hreqs] at hmap
  · cases hmap
  · cases handling with
    | waiting k =>
      obtain rfl : k = 1 := Option.some.inj (List.head_eq_of_cons_eq hmap)
      have hi : s.requests[0]? = some ⟨body, .waiting 1, call⟩ := by rw [hreqs]; rfl
      exact ⟨s, _, hs, hi, rfl, (goes_on_of_run hs hi rfl).2⟩
    | _ => cases hmap
  · simp at hmap

end RzProxy
