import RzProxy.Handler.Attempts
import RzProxy.Handler.Backend

/-!
# The frames of calls

A frame that is queued or on a wire was put there by its call, under the one id that the call drew.
So of all frames in all queues and on all wires, one at most is that of a given call.

## Main results

* `served_of_reach`: the frames have channels of their own
* `requests_of_reach`: no call has two frames
* `queued_of_reach`: a frame was put in the queue by its call
-/

namespace RzProxy

open ByteString Streaming Machines

variable {s s' : State} {a : Action}

/-- As long as no id was drawn twice, the requests have channels of their own. -/
theorem served_of_reach (hs : handler.Reachable s) (hb : Bounded s) : Served s := by
  refine hs.invariant_of_bound (P := Served) (fun _ _ _ hst => Bounded.of_step hst) ?_
    (fun s a s' hr hb _ h _ hstep => ?_) hb
  · rintro s ⟨cfg, rfl⟩
    exact ⟨nofun, fun _ => List.nodup_nil⟩
  · obtain ⟨s₁, hc, rfl⟩ := step_cases hstep
    have h₁ : Served s₁ := h.change (correlated_of_reach hr) (kept_of_reach hr hb) hc
    have htick : Served s₁.tick := ⟨h₁.1, h₁.2⟩
    exact htick.reap

/-- **One frame for each call**: of the frames in all queues and on all wires, no two are those of
one call. -/
theorem requests_of_reach (hs : handler.Reachable s) (hle : s.callCount ≤ 2 ^ 32) :
    (∀ c, ((s.conns c).requests.map fun r => (s.chans r.1).call).Nodup) ∧
      ∀ {c d x y i j}, (x, i) ∈ (s.conns c).requests → (y, j) ∈ (s.conns d).requests →
        (s.chans x).call = (s.chans y).call → c = d ∧ x = y ∧ i = j := by
  have hsingle := single_of_reach hs hle
  have hserved := served_of_reach hs (hsingle.bounded hs hle)
  have hone {c d x y i j} (hx : (x, i) ∈ (s.conns c).requests)
      (hy : (y, j) ∈ (s.conns d).requests) (hxy : (s.chans x).call = (s.chans y).call) :
      c = d ∧ x = y ∧ i = j := by
    obtain ⟨hxl, hxc, hxi, -⟩ := hserved.request hx
    obtain ⟨hyl, hyc, hyj, -⟩ := hserved.request hy
    obtain rfl := hsingle.eq_of_call hxl hyl hxy
    exact ⟨hxc.symm.trans hyc, rfl, hxi.symm.trans hyj⟩
  refine ⟨fun c => ?_, hone⟩
  refine List.Nodup.map_on ?_ (.of_map _ (hserved.nodup c))
  rintro ⟨x, i⟩ hx ⟨y, j⟩ hy hxy
  obtain ⟨-, rfl, rfl⟩ := hone hx hy hxy
  rfl

/-! ## Frames and the calls that queued them -/

theorem Change.queued_subset (h : Change s a s') {k : CallId} (hk : k < s.callCount) :
    (s.calls k).queued ⊆ (s'.calls k).queued := by
  rcases h.calls k with he | hm
  · rw [he]
    exact List.Subset.refl _
  · generalize s'.calls k = call' at hm
    cases hm with
    | new _ _ _ hnew => exact absurd hnew hk.ne
    | wait _ after =>
      rcases after with ⟨-, rfl⟩ | ⟨-, rfl⟩
      · exact List.subset_append_left _ _
      · exact List.Subset.refl _
    | _ => exact List.Subset.refl _

/-- A frame that is new on a connection was put in its queue by a call. -/
theorem Change.mem_requests (h : Change s a s') {c : ConnId} {x : ChanId} {id : UInt32}
    (hx : (x, id) ∈ (s'.conns c).requests) : (x, id) ∈ (s.conns c).requests ∨
      ∃ k < s.callCount, (s.calls k).pc = .send c id x ∧ (s'.calls k).queued ≠ [] := by
  have hupd : ∀ {d : ConnId} {k : Connection}, (x, id) ∈ (Function.update s.conns d k c).requests →
      (x, id) ∈ (s.conns c).requests ∨ c = d ∧ (x, id) ∈ k.requests :=
    of_update_or (P := fun k : Connection => (x, id) ∈ k.requests)
  cases h with
  | newCall | move | answered | unanswered | cancel | cancelStore | lock | connect => exact .inl hx
  | draw | store | sendFailed | take =>
    rcases hupd hx with hold | ⟨rfl, hnew⟩
    · exact .inl hold
    · exact .inl hnew
  | conn hd hl =>
    rcases hupd hx with hold | ⟨rfl, hnew⟩
    · exact .inl hold
    · exact .inl (hl.requests.subset hnew)
  | @queue k d corrId y conn hk pc isOpen push =>
    rcases hupd hx with hold | ⟨rfl, hnew⟩
    · exact .inl hold
    · rw [Connection.requests_push push] at hnew
      refine (List.mem_append.mp hnew).imp_right fun hnew => ?_
      obtain ⟨rfl, rfl⟩ := Prod.mk.inj (List.mem_singleton.mp hnew)
      refine ⟨k, hk, pc, ?_⟩
      rw [calls_setCall]
      exact List.append_ne_nil_of_right_ne_nil _ (List.cons_ne_nil _ _)

/-- **A frame was put in the queue** by its call. -/
theorem queued_of_reach (hs : handler.Reachable s) {c : ConnId} {x : ChanId} {id : UInt32}
    (hx : (x, id) ∈ (s.conns c).requests) : x < s.chanCount ∧ (s.chans x).call < s.callCount ∧
      (s.calls (s.chans x).call).queued ≠ [] := by
  refine hs.invariant (P := fun s => ∀ c x id, (x, id) ∈ (s.conns c).requests → x < s.chanCount ∧
    (s.chans x).call < s.callCount ∧ (s.calls (s.chans x).call).queued ≠ []) ?_
    (fun s a s' hr h _ hstep => ?_) c x id hx
  · rintro s ⟨cfg, rfl⟩ c x id hx
    cases hx
  · obtain ⟨s₁, hc, rfl⟩ := step_cases hstep
    intro c x id hx
    have hx₁ : (x, id) ∈ (s₁.conns c).requests := by
      have hsent := sent_reap s₁.tick c
      simp only [Connection.sent] at hsent
      rw [Connection.requests, hsent] at hx
      exact hx
    have hcall : (s₁.tick.reap.chans x).call = (s₁.chans x).call := by
      show (if _ then _ else s₁.chans x : Chan).call = _
      split_ifs <;> rfl
    rw [hcall]
    show x < s₁.chanCount ∧ (s₁.chans x).call < s₁.callCount ∧
      (s₁.calls (s₁.chans x).call).queued ≠ []
    rcases hc.mem_requests hx₁ with hold | ⟨k, hk, hpc, hqueued⟩
    · obtain ⟨hlt, hcalllt, hne⟩ := h c x id hold
      obtain ⟨hlt', hl, -⟩ := hc.chan hlt
      rw [show (s₁.chans x).call = (s.chans x).call from congrArg (·.1) hl]
      exact ⟨hlt', hcalllt.trans_le hc.callCount_le,
        fun hnil => hne (List.subset_nil.mp (hnil ▸ hc.queued_subset hcalllt))⟩
    · obtain ⟨hlt, hxk, -⟩ := (correlated_of_reach hr).attempt (k := k) (by rw [hpc]; rfl)
      obtain ⟨hlt', hl, -⟩ := hc.chan hlt
      rw [show (s₁.chans x).call = k from (congrArg (·.1) hl).trans hxk]
      exact ⟨hlt', hk.trans_le hc.callCount_le, hqueued⟩

end RzProxy
