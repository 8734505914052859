import RzProxy.Handler.Ending
import RzProxy.Server.Frames

/-!
# Requests that are answered

What holds of a call holds of the request that waits for it. As long as the call does not hang the
request can be answered, by the handler and the backend alone and with nothing done to the other
requests. Once it hangs the request is never answered: no time limit stands around it, neither in
`execute` nor in the server, so that its client waits until it goes away.

## Main definitions

* `Attends`: the steps that bring a request to its answer

## Main results

* `path_handler`: the handler takes its steps in the proxy
* `HttpRequest.Kept`: a request is the same through a run, until it is answered or dropped
* `answered_of_reach`: a request can be answered, or never is
-/

namespace RzProxy

open ByteString Machines

variable {fromSlice : Bytes → Option Value} {s s' : Proxy} {ev : Event}

/-- The steps that bring the request `i` to its answer, which its call `k` is to give. -/
def Attends (i : ℕ) (k : CallId) (s : Proxy) : Event → Prop
  | .handler a => Assists k s.handler a
  | .respond j => j = i
  | _ => False

theorem Assists.internal {h : State} {a : Action} {k : CallId} (ha : Assists k h a) :
    a.internal = true := by
  cases a with
  | call | cancel =>
    obtain ⟨c, -, hserves⟩ := ha
    exact hserves.elim
  | _ => rfl

theorem wellBehaved_of_not_internal (h : State) (a : Action) (ha : a.internal = false) :
    WellBehaved h a := by
  cases a <;> trivial

/-! ## The handler by itself -/

/-- **The handler takes its steps in the proxy**, which leaves everything else as it is. -/
theorem path_handler {ok : State → Action → Prop} {okProxy : Proxy → Event → Prop}
    (hint : ∀ h a, ok h a → a.internal = true)
    (hok : ∀ s a, ok s.handler a → okProxy s (.handler a)) {h h' : State} {as : List Action}
    (hpath : handler.Path ok h as h') (hs : s.handler = h) :
    (proxy fromSlice).Path okProxy s (as.map .handler) { s with handler := h' } := by
  induction hpath generalizing s with
  | nil =>
    subst hs
    exact .nil s
  | @cons _ h₁ _ a as meets step _ ih =>
    subst hs
    have hstep : (proxy fromSlice).step s (.handler a) = some { s with handler := h₁ } := by
      simp only [proxy, Proxy.step, hint _ a meets, if_true]
      exact Option.map_eq_some_iff.mpr ⟨h₁, step, rfl⟩
    exact .cons (hok s a meets) hstep (ih rfl)

/-! ## A request through a run -/

/-- A request has its body and its call for good. -/
def HttpRequest.Kept (r : HttpRequest) (i : ℕ) (s : Proxy) : Prop :=
  ∃ r', s.requests[i]? = some r' ∧ r'.body = r.body ∧ r'.call = r.call

theorem HttpRequest.Kept.set {r : HttpRequest} {i j : ℕ} {body : Bytes} {call : Option CallId}
    {old new : Handling} (h : r.Kept i s) (hj : s.requests[j]? = some ⟨body, old, call⟩)
    (hs' : s'.requests = s.requests.set j ⟨body, new, call⟩) : r.Kept i s' := by
  obtain ⟨r', hr', hbody, hcall⟩ := h
  unfold HttpRequest.Kept
  rw [hs', List.getElem?_set]
  by_cases hji : j = i
  · subst hji
    obtain rfl := Option.some.inj (hj.symm.trans hr')
    have hlt := (List.getElem?_eq_some_iff.mp hj).1
    exact ⟨⟨body, new, call⟩, by rw [if_pos rfl, if_pos hlt], hbody, hcall⟩
  · exact ⟨r', by rw [if_neg hji, hr'], hbody, hcall⟩

theorem Proxy.Moves.kept {r : HttpRequest} {i : ℕ} (hm : s.Moves fromSlice ev s')
    (h : r.Kept i s) : r.Kept i s' := by
  cases hm with
  | tooLong | reject | accept =>
    obtain ⟨r', hr', hsame⟩ := h
    have hlt := (List.getElem?_eq_some_iff.mp hr').1
    exact ⟨r', by rw [List.getElem?_append_left hlt, hr'], hsame⟩
  | respond req | hangUp req => exact h.set req rfl
  | _ => exact h

/-- What a request that was waiting is, where its call did not end. -/
theorem waits_of_kept {h : State} {r r' : HttpRequest} {k : CallId} (hr' : r'.Traced fromSlice h)
    (hbody : r'.body = r.body) (hcall : r'.call = r.call) (hwait : r.handling = .waiting k)
    (hc : r.call = some k) (hlost : Lost h k ∨ (h.calls k).pc = .dropped) :
    r' = r ∨ r' = { r with handling := .dropped } := by
  obtain ⟨body, handling, call⟩ := r
  obtain ⟨body', handling', call'⟩ := r'
  subst hbody hcall hwait hc
  cases handling' with
  | waiting j =>
    obtain rfl := Option.some.inj (hr'.waiting j rfl).1
    exact .inl rfl
  | dropped => exact .inr rfl
  | refused => cases (hr'.refused rfl).1
  | responded env rsp =>
    obtain ⟨D, hreq⟩ := hr'.asks k rfl
    obtain ⟨hexchange, hover⟩ := hr'.responded env rsp rfl
    rcases hlost with hlost | hpc
    · exact absurd (hover k rfl) hlost.left_ne
    · have hresult : HttpRequest.result ⟨body', .responded env rsp, some k⟩ h = none := by
        rw [HttpRequest.result, Option.bind_some, Call.result, hpc]
      simp [exchange, hreq, hresult] at hexchange

/-! ## The answer to a request -/

/-- **A request is answered** or waits for good: as long as its call does not hang, the handler and
a backend that behaves well can bring it to its answer, which changes no other request; and once its
call hangs it is never answered, until its future is dropped. -/
theorem answered_of_reach (hs : (proxy fromSlice).Reach (OnHandler WellBehaved) s)
    (hfew : FewRequests s) {i : ℕ} {r : HttpRequest} {k : CallId} (hi : s.requests[i]? = some r)
    (hwait : r.handling = .waiting k) :
    (¬ Lost s.handler k → ∃ es s' rsp, (proxy fromSlice).Path (Attends i k) s es s' ∧
      s'.requests = s.requests.set i { r with handling := .responded s.env rsp }) ∧
    (Lost s.handler k → ∀ es s', (proxy fromSlice).Path (OnHandler WellBehaved) s es s' →
      FewRequests s' → s'.requests[i]? = some r ∨
        s'.requests[i]? = some { r with handling := .dropped }) := by
  let f : Simulation (proxy fromSlice) (OnHandler WellBehaved) handler WellBehaved :=
    proxySimulation fromSlice wellBehaved_of_not_internal
  have hr : (proxy fromSlice).Reachable s := hs.mono fun _ _ _ => trivial
  have hh : handler.Reach WellBehaved s.handler := f.reach hs
  have ht := traced_of_reach hr
  obtain ⟨hc, hpc⟩ := (ht.requests i r hi).waiting k hwait
  have hk : k < s.handler.callCount := ht.lt hi hc
  constructor
  · intro hlost
    obtain ⟨as, h, hpath, -, -, result, hresult⟩ :=
      exists_finished hh (hfew.callCount_le hr) hk hpc hlost
    have hlift : (proxy fromSlice).Path (Attends i k) s (as.map .handler)
        { s with handler := h } :=
      path_handler (fun _ _ => Assists.internal) (fun _ _ ha => ha) hpath rfl
    have hr' : (proxy fromSlice).Reachable { s with handler := h } :=
      hr.path (hlift.mono fun _ _ _ => trivial)
    obtain ⟨body, handling, call⟩ := r
    obtain rfl : handling = .waiting k := hwait
    obtain ⟨rsp, metrics, hstep⟩ := exists_respond (traced_of_reach hr') hi hresult
    exact ⟨_, _, rsp, hlift.append (.single (show Attends i k _ (.respond i) from rfl) hstep), rfl⟩
  · intro hlost es s' hpath hfew'
    have hr' : (proxy fromSlice).Reachable s' := hr.path (hpath.mono fun _ _ _ => trivial)
    obtain ⟨as, hpath'⟩ := f.path hs hpath
    have hlost' := lost_of_path hh hk hpath' (hfew'.callCount_le hr') hlost
    obtain ⟨r', hi', hbody, hcall⟩ : r.Kept i s' :=
      hpath.invariant (P := fun s => r.Kept i s)
        (fun s ev s' _ h _ hstep => (Proxy.moves_of_step hstep).kept h) hs ⟨r, hi, rfl, rfl⟩
    rw [hi']
    exact (waits_of_kept ((traced_of_reach hr').requests i r' hi') hbody hcall hwait hc hlost').imp
      (congrArg some) (congrArg some)

/-- A request for the segments whose call is made. -/
theorem answered_of_reach_segments :
    ∃ s₁ s r, (proxy segmentsFromSlice).run
        (Proxy.initial ⟨.standalone, "host", 1, 1⟩ (.documented [])) (segmentsRun.take 10) =
          some s₁ ∧
      (proxy segmentsFromSlice).run s₁ (segmentsRun.drop 10) = some s ∧ s.requests[0]? = some r ∧
      ∃ es s' rsp, (proxy segmentsFromSlice).Path (Attends 0 1) s es s' ∧
        s'.requests = s.requests.set 0 { r with handling := .responded s.env rsp } := by
  have hrun₁ : ((proxy segmentsFromSlice).run
      (Proxy.initial ⟨.standalone, "host", 1, 1⟩ (.documented [])) (segmentsRun.take 10)).map
        (fun s => ((s.handler.conns 0).requestIds, (s.handler.conns 0).received)) =
      some ([1], []) := by decide +kernel
  have hrun : (((proxy segmentsFromSlice).run
      (Proxy.initial ⟨.standalone, "host", 1, 1⟩ (.documented [])) (segmentsRun.take 10)).bind
        fun s₁ => (proxy segmentsFromSlice).run s₁ (segmentsRun.drop 10)).map (fun s =>
          (s.requests.map fun r => r.handling.waits, (s.handler.calls 1).pc.sendsOn,
            (s.handler.calls 1).pc.left)) =
      some ([some 1], none, 6) := by decide +kernel
  obtain ⟨s₁, hs₁, hsent⟩ := Option.map_eq_some_iff.mp hrun₁
  obtain ⟨hids, hreceived⟩ := Prod.mk.inj hsent
  obtain ⟨s, hs, hstate⟩ := Option.map_eq_some_iff.mp hrun
  rw [hs₁, Option.bind_some] at hs
  simp only [Prod.mk.injEq] at hstate
  obtain ⟨hreqs, hsends, hleft⟩ := hstate
  have hr₁ : (proxy segmentsFromSlice).Reach (OnHandler WellBehaved) s₁ :=
    Machine.Reach.run (.init ⟨_, _, rfl⟩)
      (by simp [segmentsRun, replyRun, OnHandler, WellBehaved]) hs₁
  have hok : OnHandler WellBehaved s₁
      (.handler (.deliver 0 (prependHeader 1 (codecsReply "wifi")))) := by
    rintro a ⟨⟩
    refine ⟨1, codecsReply "wifi", rfl, ⟨7, _, rfl, by decide, by decide⟩, ?_⟩
    rw [hids, Connection.replyIds, Connection.frames, hreceived, frameSplitter_split_nil]
    decide
  obtain ⟨s₂, hs₂, hs₃⟩ : ∃ s₂, (proxy segmentsFromSlice).step s₁
      (.handler (.deliver 0 (prependHeader 1 (codecsReply "wifi")))) = some s₂ ∧
        (proxy segmentsFromSlice).run s₂ (segmentsRun.drop 11) = some s :=
    Option.bind_eq_some_iff.mp hs
  have hr : (proxy segmentsFromSlice).Reach (OnHandler WellBehaved) s :=
    Machine.Reach.run (.step hr₁ hok hs₂)
      (by simp [segmentsRun, replyRun, OnHandler, WellBehaved]) hs₃
  have hfew : FewRequests s := by
    rw [FewRequests, ← List.length_map (fun r => r.handling.waits), hreqs]
    decide
  have hlost : ¬ Lost s.handler 1 := by
    refine not_lost_of_pc hsends fun c id x hpc => ?_
    rw [hpc] at hleft
    cases hleft
  obtain ⟨r, hi, hwait⟩ : ∃ r, s.requests[0]? = some r ∧ r.handling.waits = some 1 := by
    have hget : (s.requests.map fun r => r.handling.waits)[0]? = some (some 1) := by rw [hreqs]; rfl
    rw [List.getElem?_map] at hget
    exact Option.map_eq_some_iff.mp hget
  obtain ⟨body, handling, call⟩ := r
  cases handling with
  | waiting k =>
    obtain rfl : k = 1 := Option.some.inj hwait
    exact ⟨s₁, s, _, hs₁, hs, hi, (answered_of_reach hr hfew hi rfl).1 hlost⟩
  | _ => cases hwait

end RzProxy
