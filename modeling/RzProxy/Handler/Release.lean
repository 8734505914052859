import RzProxy.Handler.Pending

/-!
# Connections that are never released

The write task of a connection ends its loop when a write fails or when every sender of the queue is
gone. One sender is a field of the `ConnectionInner` that the task itself holds, so the second never
happens, and a write task whose socket takes every frame outlives all other holders of its
connection, which is then neither dropped nor counted off the gauge. Connections are released in
exactly those runs in which the last other holder lets go only once the write task has ended.

## Main definitions

* `Holder`, `Holds`: the holders of a connection apart from its write task
* `NoLeak`: a connection without such a holder was dropped, and the gauge counts the others
* `WriteTaskFirst`: the condition on a step

## Main results

* `not_forall_noLeak`: a stream that ends leaves a connection behind
* `noLeak_iff`: what leaks are connections that only their write task holds
* `noLeak_of_reach`: nothing leaks in runs whose steps meet the condition
-/

namespace RzProxy

open Machines

/-- A holder of a connection apart from its write task. -/
inductive Holder
  | slot (i : ℕ)
  | readTask
  | keepalive
  | call (k : CallId)
  deriving DecidableEq

def Holds (s : State) (c : ConnId) : Holder → Prop
  | .slot i => s.slots[i]? = some (some c)
  | .readTask => (s.conns c).readTask ≠ .done
  | .keepalive => (s.conns c).keepalive ≠ .done
  | .call k => k < s.callCount ∧ (s.calls k).pc.holds = some c

namespace State

/-- Somebody holds the `ConnectionInner`: a slot, a call, or a task other than the write task. -/
def otherHolder (s : State) (c : ConnId) : Bool :=
  s.slots.contains (some c) || (s.conns c).readTask ≠ .done || (s.conns c).keepalive ≠ .done ||
    (List.range s.callCount).any fun k => (s.calls k).pc.holds = some c

theorem held_eq (s : State) (c : ConnId) :
    s.held c = (s.otherHolder c || (s.conns c).writeTask ≠ .done) := by
  simp only [held, otherHolder, Connection.heldByTask]
  cases s.slots.contains (some c) <;> cases decide ((s.conns c).writeTask ≠ .done) <;> simp

theorem otherHolder_iff (s : State) (c : ConnId) : s.otherHolder c = true ↔ ∃ h, Holds s c h := by
  simp only [otherHolder, Bool.or_eq_true, List.contains_iff_mem, decide_eq_true_eq,
    List.any_eq_true, List.mem_range]
  constructor
  · rintro (((hs | hr) | hk) | ⟨k, hk, hc⟩)
    · obtain ⟨i, hi⟩ := List.mem_iff_getElem?.mp hs
      exact ⟨.slot i, hi⟩
    · exact ⟨.readTask, hr⟩
    · exact ⟨.keepalive, hk⟩
    · exact ⟨.call k, hk, hc⟩
  · rintro ⟨i | _ | _ | k, h⟩
    · exact .inl (.inl (.inl (List.mem_of_getElem? h)))
    · exact .inl (.inl (.inr h))
    · exact .inl (.inr h)
    · exact .inr ⟨k, h⟩

end State

/-- A connection that nobody but its write task could hold was dropped, and the gauge
`backend_connections` counts those that somebody else holds. -/
structure NoLeak (s : State) : Prop where
  dropped : ∀ c < s.connCount, s.otherHolder c = false → (s.conns c).dropped = true
  gauge : s.backendConnections = ((List.range s.connCount).filter s.otherHolder).length

/-- With its next step a holder of the connection `c` lets go of it. -/
def LetsGo (s : State) (c : ConnId) : Action → Holder → Prop
  | .reconnect connected, .slot i =>
    connected = true ∧ s.reconnecting = some i ∧ s.isClosed c = true
  | .read d, .readTask => d = c ∧ (s.conns c).readTask = .leaving
  | .keepalive d, .keepalive =>
    d = c ∧ ((s.conns c).keepalive = .ticking ∧ (s.conns c).closed = true ∨
      (s.conns c).keepalive = .sending ∧ (s.conns c).queueOpen = false)
  | .exec k, .call j => j = k ∧
    match (s.calls k).pc with
    | .check _ => s.isClosed c = true ∧ 3 ≤ (s.calls k).attempts + 1
    | .wait _ _ x => (s.chans x).oneshot ≠ .closed ∨ 3 ≤ (s.calls k).attempts + 1
    | .sleep _ => True
    | _ => False
  | .cancel k, .call j => j = k
  | _, _ => False

/-- The last holder of a connection apart from its write task lets go of it only once the write task
has ended. -/
def WriteTaskFirst (s : State) (a : Action) : Prop :=
  ∀ c < s.connCount, ∀ h, Holds s c h → LetsGo s c a h →
    (∃ h' ≠ h, Holds s c h') ∨ (s.conns c).writeTask = .done

/-- **A stream that ends** leaves its connection behind: the read task and the keepalive task end
and the slot is filled anew, but the write task waits at its queue. -/
theorem not_forall_noLeak : ¬ ∀ s, handler.Reachable s → NoLeak s := by
  intro h
  have hrun : (handler.run (State.initial ⟨.standalone, "host", 1, 1⟩)
      [.reconnect true, .reconnect true, .reconnect true, .readError 0, .read 0, .read 0,
        .keepalive 0, .reconnect true, .reconnect true]).map (fun s =>
          (s.connCount, s.otherHolder 0, (s.conns 0).dropped, s.backendConnections)) =
      some (2, false, false, 2) := by decide
  obtain ⟨s, hs, hstate⟩ := Option.map_eq_some_iff.mp hrun
  simp only [Prod.mk.injEq] at hstate
  obtain ⟨hcount, hother, hdropped, -⟩ := hstate
  have hr : handler.Reachable s := Machine.Reach.run (.init ⟨_, rfl⟩) (fun _ _ _ => trivial) hs
  have htrue := (h s hr).dropped 0 (by omega) hother
  rw [hdropped] at htrue
  cases htrue

/-! ## What is dropped, and what the gauge counts -/

variable {s : State}

/-- A connection that somebody holds was not dropped. -/
theorem Holding.not_dropped (hs : Holding s) {c : ConnId} (h : s.held c = true) :
    (s.conns c).dropped = false := by
  simp only [State.held, Bool.or_eq_true, List.contains_iff_mem, List.any_eq_true, List.mem_range,
    decide_eq_true_eq] at h
  rcases h with (h | h) | ⟨k, -, h⟩
  · exact hs.slot h
  · exact hs.task h
  · exact (hs.call h).2

theorem held_reap (s : State) (c : ConnId) : s.reap.held c = s.held c := by
  have htask : (s.reap.conns c).heldByTask = (s.conns c).heldByTask := by
    rw [conns_reap]
    split_ifs <;> rfl
  simp only [State.held, htask]
  rfl

/-- What nobody holds was dropped. -/
theorem dropped_of_reach (hs : handler.Reachable s) {c : ConnId} (hc : c < s.connCount)
    (hh : s.held c = false) : (s.conns c).dropped = true := by
  cases hs with
  | init hi =>
    obtain ⟨cfg, rfl⟩ := hi
    cases hc
  | step _ _ hstep =>
    obtain ⟨s₁, -, rfl⟩ := step_cases hstep
    rw [held_reap] at hh
    rw [conns_reap]
    split_ifs with hr
    · rfl
    · have hlt : c < s₁.tick.connCount := hc
      simpa [State.reaped, hlt, hh] using hr

/-- The connections that were made and not dropped. -/
def State.undropped (s : State) : List ConnId :=
  (List.range s.connCount).filter fun c => !(s.conns c).dropped

theorem Change.backendConnections {s' : State} {a : Action} (h : Change s a s') :
    s'.backendConnections - s.backendConnections = s'.connCount - s.connCount ∧
      (s'.connCount = s.connCount ∨ s'.connCount = s.connCount + 1) := by
  cases h with
  | connect connected i reconnecting =>
    refine ⟨?_, .inr rfl⟩
    simp [State.connect]
  | _ => exact ⟨by simp [State.newCall, State.setCall, State.setPc, State.drawCorrId, State.store,
      State.setConn, State.closeChan, State.setChan], .inl rfl⟩

/-- The gauge counts the connections that were not dropped. -/
theorem gauge_of_reach (hs : handler.Reachable s) :
    s.backendConnections = s.undropped.length := by
  refine hs.invariant (P := fun s => s.backendConnections = s.undropped.length) ?_
    fun s a s' hr h _ hstep => ?_
  · rintro s ⟨cfg, rfl⟩
    rfl
  · obtain ⟨s₁, hc, rfl⟩ := step_cases hstep
    -- a step of a party drops no connection: only `reap` does
    have hdropped : (fun c => !(s₁.conns c).dropped) = fun c => !(s.conns c).dropped := by
      funext c
      rw [hc.dropped]
    have h₁ : s₁.backendConnections = s₁.undropped.length := by
      obtain ⟨hsub, hcount | hcount⟩ := hc.backendConnections
      · rw [State.undropped, hdropped, hcount]
        rw [hcount] at hsub
        rw [State.undropped] at h
        omega
      · have hnew : (s.conns s.connCount).dropped = false :=
          (holding_of_reach hr).unmade (le_refl _)
        rw [State.undropped, hdropped, hcount, List.range_succ, List.filter_append]
        simp only [List.filter_cons, hnew, Bool.not_false, if_true, List.filter_nil,
          List.length_append, List.length_singleton, Nat.cast_add, Nat.cast_one]
        rw [hcount] at hsub
        rw [State.undropped] at h
        push_cast at hsub
        omega
    have hsplit := List.length_eq_length_filter_add (l := s₁.undropped) s₁.tick.reaped
    have hreaped : s₁.undropped.filter s₁.tick.reaped =
        (List.range s₁.connCount).filter s₁.tick.reaped := by
      rw [State.undropped, List.filter_filter]
      refine List.filter_congr fun c _ => ?_
      cases hr : s₁.tick.reaped c with
      | false => rfl
      | true =>
        simp only [State.reaped, Bool.and_eq_true, Bool.not_eq_true'] at hr
        have hd : (s₁.conns c).dropped = false := hr.1.2
        simp [hd]
    have hrest : s₁.undropped.filter (fun c => !s₁.tick.reaped c) = s₁.tick.reap.undropped := by
      rw [State.undropped, List.filter_filter]
      refine List.filter_congr fun c _ => ?_
      rw [conns_reap]
      split_ifs with hr
      · simp [hr, Connection.drop]
      · simp only [Bool.not_eq_true] at hr
        simp only [hr, Bool.not_false, Bool.true_and]
        rfl
    rw [hreaped, hrest] at hsplit
    show s₁.backendConnections - ((List.range s₁.connCount).filter s₁.tick.reaped).length = _
    rw [h₁]
    omega

/-- **What leaks** are the connections that only their write task holds. -/
theorem noLeak_iff (hr : handler.Reachable s) : NoLeak s ↔
    ∀ c < s.connCount, s.otherHolder c = true ∨ (s.conns c).writeTask = .done := by
  constructor
  · intro h c hc
    rw [or_iff_not_imp_left]
    intro hother
    have hd := h.dropped c hc (by simpa using hother)
    by_contra hw
    have hheld : s.held c = true := by rw [s.held_eq]; simp [hw]
    rw [(holding_of_reach hr).not_dropped hheld] at hd
    cases hd
  · intro h
    -- then the write task is never the only holder
    have heq : ∀ c < s.connCount, s.held c = s.otherHolder c := by
      intro c hc
      rw [s.held_eq]
      rcases h c hc with ho | hw
      · simp [ho]
      · simp [hw]
    refine ⟨fun c hc ho => dropped_of_reach hr hc ((heq c hc).trans ho), ?_⟩
    rw [gauge_of_reach hr, State.undropped]
    refine congrArg (fun l : List ConnId => (l.length : ℤ)) (List.filter_congr fun c hc => ?_)
    rw [← heq c (List.mem_range.mp hc)]
    cases hh : s.held c with
    | true => simp [(holding_of_reach hr).not_dropped hh]
    | false => simp [dropped_of_reach hr (List.mem_range.mp hc) hh]

/-! ## Who lets go -/

theorem LetsGo.eq {c : ConnId} {a : Action} {p p' : Holder} (h : LetsGo s c a p)
    (h' : LetsGo s c a p') : p = p' := by
  cases a <;> cases p <;> cases p' <;> simp only [LetsGo] at h h'
  case reconnect.slot.slot =>
    have hi := h.2.1.symm.trans h'.2.1
    rw [Option.some.inj hi]
  case exec.call.call => rw [h.1, h'.1]
  case cancel.call.call => rw [h, h']
  all_goals rfl

/-- A slot is filled anew only by the task that refills the pool, when it comes to it and finds its
connection closed. -/
theorem slots_reconnectClosed (s : State) (connected : Bool) :
    (s.reconnectClosed connected).slots = s.slots ∨ ∃ i, connected = true ∧
      s.reconnecting = some i ∧ (∀ c, s.slots[i]? = some (some c) → s.isClosed c = true) ∧
        (s.reconnectClosed connected).slots = s.slots.set i (some s.connCount) := by
  unfold State.reconnectClosed
  split
  · exact .inl rfl
  next i hi =>
    split
    · exact .inl rfl
    next slot hslot =>
      dsimp only
      split_ifs with hconnect
      · simp only [Bool.and_eq_true] at hconnect
        refine .inr ⟨i, hconnect.2, hi, fun c hc => ?_, rfl⟩
        rw [hslot, Option.some.injEq] at hc
        subst hc
        exact hconnect.1
      · exact .inl rfl

theorem Connection.keepalive_of_tick {m : ℕ} {k k' : Connection} (h : k.keepaliveTick m = some k')
    (hd : k'.keepalive = .done) : k.keepalive = .ticking ∧ k.closed = true ∨
      k.keepalive = .sending ∧ k.queueOpen = false := by
  unfold keepaliveTick at h
  split at h
  next hk =>
    split_ifs at h with hc <;> obtain rfl := Option.some.inj h
    · exact .inl ⟨hk, hc⟩
    · cases hd
  next hk =>
    split_ifs at h with hq
    · obtain ⟨k₁, -, rfl⟩ := Option.map_eq_some_iff.mp h
      cases hd
    · exact .inr ⟨hk, by simpa using hq⟩
  · cases h

/-- A call that does not hold a connection any more has failed for the third time, or its round is
over. -/
theorem letsGo_of_exec {s₁ : State} {k : CallId} {c : ConnId} (h : s.exec k = some s₁)
    (hc : (s.calls k).pc.holds = some c) (hc' : (s₁.calls k).pc.holds ≠ some c) :
    LetsGo s c (.exec k) (.call k) := by
  refine ⟨rfl, ?_⟩
  cases hpc : (s.calls k).pc with
  | pick | finished | dropped => rw [hpc] at hc; cases hc
  | sleep => trivial
  | check d =>
    rw [hpc] at hc
    obtain rfl := Option.some.inj hc
    simp only [State.exec, hpc, Option.some.injEq] at h
    subst h
    split_ifs at hc' with hclosed
    · refine ⟨hclosed, ?_⟩
      by_contra hlt
      refine hc' ?_
      rw [State.retry, calls_setCall]
      simp only [if_neg hlt]
      rfl
    · exact absurd (by rw [pc_setPc]; rfl) hc'
  | draw d =>
    rw [hpc] at hc
    simp only [State.exec, hpc, Option.some.injEq] at h
    subst h
    exact absurd (by rw [pc_drawCorrId]; exact hc) hc'
  | store d id x =>
    rw [hpc] at hc
    simp only [State.exec, hpc, Option.some.injEq] at h
    subst h
    exact absurd (by rw [pc_setPc]; exact hc) hc'
  | send d id x =>
    rw [hpc] at hc
    simp only [State.exec, hpc, Option.map_eq_some_iff] at h
    obtain ⟨s₂, -, rfl⟩ := h
    exact absurd (by rw [pc_setPc]; exact hc) hc'
  | wait d id x =>
    rw [hpc] at hc
    obtain rfl := Option.some.inj hc
    show (s.chans x).oneshot ≠ .closed ∨ 3 ≤ (s.calls k).attempts + 1
    rw [or_iff_not_imp_left, not_not]
    intro hclosed
    simp only [State.exec, hpc, hclosed, Option.some.injEq] at h
    subst h
    by_contra hlt
    refine hc' ?_
    rw [State.retry, calls_setCall]
    simp only [if_neg hlt]
    rfl

/-- A connection's tasks move by themselves. -/
theorem Change.tasks {s' : State} {a : Action} (h : Change s a s') (c : ConnId) :
    ((s'.conns c).readTask = (s.conns c).readTask ∧
        (s'.conns c).keepalive = (s.conns c).keepalive ∧
          (s'.conns c).writeTask = (s.conns c).writeTask) ∨
      (s.conns c).Local s.cfg.maxActiveConns c a (s'.conns c) := by
  rcases h.conns c with he | hm
  · rw [he]
    exact .inl ⟨rfl, rfl, rfl⟩
  · generalize s'.conns c = k' at hm
    cases hm with
    | alone hl => exact .inr hl
    | push push =>
      rw [Connection.push_eq push]
      exact .inl ⟨rfl, rfl, rfl⟩
    | draw | register | refuse | take => exact .inl ⟨rfl, rfl, rfl⟩

theorem Change.slots_eq {s' : State} {a : Action} (h : Change s a s')
    (ha : ∀ connected, a ≠ .reconnect connected) : s'.slots = s.slots := by
  cases h with
  | connect connected => exact absurd rfl (ha connected)
  | _ => rfl

/-- **Who no longer holds a connection has let go of it.** -/
theorem letsGo_of_act {s₁ : State} {a : Action} (h : s.act a = some s₁) {c : ConnId} {p : Holder}
    (hp : Holds s c p) (hp' : ¬ Holds s₁ c p) : LetsGo s c a p := by
  have hc := change_of_act h
  cases p with
  | slot i =>
    by_cases ha : ∃ connected, a = .reconnect connected
    · obtain ⟨connected, rfl⟩ := ha
      obtain rfl := Option.some.inj h
      rcases slots_reconnectClosed s connected with hs | ⟨j, hcon, hj, hclosed, hs⟩
      · exact absurd (show _[i]? = _ by rw [hs]; exact hp) hp'
      · by_cases hij : j = i
        · subst hij
          exact ⟨hcon, hj, hclosed c hp⟩
        · refine absurd ?_ hp'
          show (s.reconnectClosed connected).slots[i]? = _
          rw [hs, List.getElem?_set_ne hij]
          exact hp
    · refine absurd ?_ hp'
      show s₁.slots[i]? = _
      rw [hc.slots_eq fun connected he => ha ⟨connected, he⟩]
      exact hp
  | readTask =>
    have hdone : (s₁.conns c).readTask = .done := not_not.mp hp'
    rcases hc.tasks c with ⟨htask, -⟩ | hl
    · exact absurd (htask ▸ hdone) hp
    · generalize s₁.conns c = k' at hl hdone
      cases hl with
      | readDone task => exact ⟨rfl, task⟩
      | unknownId | readError | malformed | readClosed => cases hdone
      | _ => exact absurd hdone hp
  | keepalive =>
    have hdone : (s₁.conns c).keepalive = .done := not_not.mp hp'
    have ha : a = .keepalive c := by
      rcases hc.tasks c with ⟨-, htask, -⟩ | hl
      · exact absurd (htask ▸ hdone) hp
      · generalize s₁.conns c = k' at hl hdone
        cases hl with
        | keepaliveStop | keepaliveTick | keepaliveSend => rfl
        | _ => exact absurd hdone hp
    subst ha
    have h' : s.onConn c (Connection.keepaliveTick s.cfg.maxActiveConns) = some s₁ := h
    unfold State.onConn at h'
    split_ifs at h'
    obtain ⟨k', hk', rfl⟩ := Option.map_eq_some_iff.mp h'
    refine ⟨rfl, Connection.keepalive_of_tick hk' ?_⟩
    change (Function.update s.conns c k' c).keepalive = _ at hdone
    rwa [Function.update_self] at hdone
  | call k =>
    obtain ⟨hk, hhold⟩ := hp
    have hhold' : (s₁.calls k).pc.holds ≠ some c := fun he => hp' ⟨hk.trans_le hc.callCount_le, he⟩
    rcases hc.calls k with he | hm
    · exact absurd (he ▸ hhold) hhold'
    · have ha : a = .exec k ∨ a = .cancel k := by
        generalize s₁.calls k = call' at hm
        cases hm with
        | new _ _ _ hnew => exact absurd hnew hk.ne
        | cancel => exact .inr rfl
        | _ => exact .inl rfl
      rcases ha with rfl | rfl
      · change (if k < s.callCount then s.exec k else none) = some s₁ at h
        rw [if_pos hk] at h
        exact letsGo_of_exec h hhold hhold'
      · rfl

theorem holds_tick_reap (s : State) (c : ConnId) (p : Holder) :
    Holds s.tick.reap c p ↔ Holds s c p := by
  have htask : (s.tick.reap.conns c).readTask = (s.conns c).readTask ∧
      (s.tick.reap.conns c).keepalive = (s.conns c).keepalive := by
    rw [conns_reap]
    split_ifs <;> exact ⟨rfl, rfl⟩
  cases p with
  | slot i => exact Iff.rfl
  | readTask => rw [Holds, htask.1, Holds]
  | keepalive => rw [Holds, htask.2, Holds]
  | call k => exact Iff.rfl

/-! ## Nothing leaks -/

theorem Change.writeTask_done {s' : State} {a : Action} (h : Change s a s') {c : ConnId}
    (hw : (s.conns c).writeTask = .done) : (s'.conns c).writeTask = .done := by
  rcases h.tasks c with ⟨-, -, htask⟩ | hl
  · rw [htask, hw]
  · generalize s'.conns c = k' at hl
    cases hl with
    | writeClosed task => rw [hw] at task; cases task
    | writeDone => rfl
    | writeError task => rw [hw] at task; cases task
    | _ => exact hw

/-- A read task ends with its own step. -/
theorem Change.readTask_ne_done {s' : State} {a : Action} (h : Change s a s') {c : ConnId}
    (hr : (s.conns c).readTask ≠ .done) (ha : a = .read c → s.connCount ≤ c) :
    (s'.conns c).readTask ≠ .done := by
  rcases h.tasks c with ⟨htask, -⟩ | hl
  · rwa [htask]
  · generalize hk' : s'.conns c = k' at hl
    cases hl with
    | readDone =>
      have hc := ha rfl
      cases h with
      | conn hd hl =>
        change Function.update s.conns _ _ c = _ at hk'
        rw [Function.update_of_ne (hd.trans_le hc).ne'] at hk'
        exact absurd (congrArg Connection.readTask hk') hr
      | take hd => exact absurd hc (Nat.not_le_of_lt hd)
    | unknownId => nofun
    | readError => nofun
    | malformed => nofun
    | readClosed => nofun
    | _ => exact hr

theorem readTask_tick_reap (s : State) (c : ConnId) :
    (s.tick.reap.conns c).readTask = (s.conns c).readTask := by
  rw [conns_reap]
  split_ifs <;> rfl

/-- A connection that was not made yet has its read task before it. -/
theorem readTask_of_unmade {ok : State → Action → Prop} (hs : handler.Reach ok s) {c : ConnId}
    (hc : s.connCount ≤ c) : (s.conns c).readTask ≠ .done := by
  refine hs.invariant (P := fun s => ∀ c, s.connCount ≤ c → (s.conns c).readTask ≠ .done) ?_
    (fun s a s' _ h _ hstep => ?_) c hc
  · rintro s ⟨cfg, rfl⟩ c - hdone
    cases hdone
  · obtain ⟨s₁, hchange, rfl⟩ := step_cases hstep
    intro d hd
    have hd' : s.connCount ≤ d := hchange.connCount_le.trans hd
    rw [readTask_tick_reap]
    exact hchange.readTask_ne_done (h d hd') fun _ => hd'

/-- **Nothing leaks** in a run in which write tasks end first. -/
theorem noLeak_of_reach (hs : handler.Reach WriteTaskFirst s) : NoLeak s := by
  rw [noLeak_iff hs.reachable]
  refine hs.invariant (P := fun s => ∀ c < s.connCount,
    s.otherHolder c = true ∨ (s.conns c).writeTask = .done) ?_ fun s a s' hr h hok hstep => ?_
  · rintro s ⟨cfg, rfl⟩ c hc
    cases hc
  · obtain ⟨s₁, hact, rfl⟩ := Option.map_eq_some_iff.mp hstep
    have hchange := change_of_act hact
    intro c _
    have hholds : (∃ p, Holds s₁ c p) → s₁.tick.reap.otherHolder c = true := by
      rintro ⟨p, hp⟩
      exact (State.otherHolder_iff _ c).mpr ⟨p, (holds_tick_reap s₁ c p).mpr hp⟩
    have hwrite : (s.conns c).writeTask = .done → (s₁.tick.reap.conns c).writeTask = .done := by
      intro hw
      rw [conns_reap]
      split_ifs <;> exact hchange.writeTask_done hw
    by_cases hc : c < s.connCount
    · rcases h c hc with ho | hw
      · obtain ⟨p, hp⟩ := (s.otherHolder_iff c).mp ho
        by_cases hp₁ : Holds s₁ c p
        · exact .inl (hholds ⟨p, hp₁⟩)
        · have hgo := letsGo_of_act hact hp hp₁
          rcases hok c hc p hp hgo with ⟨p', hne, hp'⟩ | hw
          · refine .inl (hholds ⟨p', ?_⟩)
            by_contra hp'₁
            exact hne ((letsGo_of_act hact hp' hp'₁).eq hgo)
          · exact .inr (hwrite hw)
      · exact .inr (hwrite hw)
    · have hnew := readTask_of_unmade hr (Nat.le_of_not_lt hc)
      exact .inl (hholds ⟨.readTask, hchange.readTask_ne_done hnew fun _ => Nat.le_of_not_lt hc⟩)

/-- While no read task moves, write tasks need not have ended. -/
theorem reach_writeTaskFirst (hs : handler.Reach (fun _ a => ∀ c, a ≠ .read c) s) :
    handler.Reach WriteTaskFirst s ∧ ∀ c, (s.conns c).readTask ≠ .done := by
  refine hs.invariant
    (P := fun s => handler.Reach WriteTaskFirst s ∧ ∀ c, (s.conns c).readTask ≠ .done) ?_
    fun s a s' _ h ha hstep => ?_
  · rintro s ⟨cfg, rfl⟩
    exact ⟨.init ⟨cfg, rfl⟩, nofun⟩
  · obtain ⟨hr, htask⟩ := h
    refine ⟨.step hr ?_ hstep, fun c => ?_⟩
    · intro c _ p _ hgo
      refine .inl ⟨.readTask, ?_, htask c⟩
      rintro rfl
      cases a with
      | read d => exact ha d rfl
      | _ => exact hgo
    · obtain ⟨s₁, hchange, rfl⟩ := step_cases hstep
      rw [readTask_tick_reap]
      exact hchange.readTask_ne_done (htask c) fun he => absurd he (ha c)

theorem writeTaskFirst_read {c : ConnId} (hw : (s.conns c).writeTask = .done) :
    WriteTaskFirst s (.read c) := by
  intro d _ p _ hgo
  cases p with
  | readTask =>
    obtain ⟨rfl, -⟩ := hgo
    exact .inr hw
  | _ => cases hgo

/-- A connection whose write fails is released once its read task has ended too. -/
theorem noLeak_of_reach_write_error :
    ∃ s₁ s₂ s, handler.run (State.initial ⟨.standalone, "host", 1, 1⟩)
        [.reconnect true, .reconnect true, .reconnect true, .call "eu" false [1, 65], .exec 0,
          .exec 0, .exec 0, .exec 0, .exec 0, .writeError 0 false, .write 0, .write 0,
          .keepalive 0, .reconnect true, .reconnect true, .cancel 0, .readError 0] = some s₁ ∧
      handler.step s₁ (.read 0) = some s₂ ∧ handler.step s₂ (.read 0) = some s ∧
      s.connCount = 2 ∧ (s.conns 0).dropped = true ∧ NoLeak s := by
  have hrun₁ : (handler.run (State.initial ⟨.standalone, "host", 1, 1⟩)
      [.reconnect true, .reconnect true, .reconnect true, .call "eu" false [1, 65], .exec 0,
        .exec 0, .exec 0, .exec 0, .exec 0, .writeError 0 false, .write 0, .write 0,
        .keepalive 0, .reconnect true, .reconnect true, .cancel 0, .readError 0]).map
      (fun s => (s.conns 0).writeTask) = some .done := by decide
  have hrun : ((handler.run (State.initial ⟨.standalone, "host", 1, 1⟩)
      [.reconnect true, .reconnect true, .reconnect true, .call "eu" false [1, 65], .exec 0,
        .exec 0, .exec 0, .exec 0, .exec 0, .writeError 0 false, .write 0, .write 0,
        .keepalive 0, .reconnect true, .reconnect true, .cancel 0, .readError 0]).bind fun s₁ =>
          handler.run s₁ [.read 0, .read 0]).map (fun s => (s.connCount, (s.conns 0).dropped)) =
      some (2, true) := by decide
  obtain ⟨s₁, hs₁, hw₁⟩ := Option.map_eq_some_iff.mp hrun₁
  obtain ⟨s, hs, hstate⟩ := Option.map_eq_some_iff.mp hrun
  rw [hs₁, Option.bind_some] at hs
  obtain ⟨s₂, hs₂, hs⟩ := Option.bind_eq_some_iff.mp hs
  obtain ⟨s₃, hs₃, hs⟩ := Option.bind_eq_some_iff.mp hs
  obtain rfl := Option.some.inj hs
  have hr₁ : handler.Reach WriteTaskFirst s₁ :=
    (reach_writeTaskFirst (Machine.Reach.run (.init ⟨_, rfl⟩) (by simp) hs₁)).1
  have hw₂ : (s₂.conns 0).writeTask = .done := by
    obtain ⟨s', hchange, rfl⟩ := step_cases hs₂
    rw [conns_reap]
    split_ifs <;> exact hchange.writeTask_done hw₁
  have hr₂ : handler.Reach WriteTaskFirst s₂ := .step hr₁ (writeTaskFirst_read hw₁) hs₂
  exact ⟨s₁, s₂, s₃, hs₁, hs₂, hs₃, congrArg Prod.fst hstate, congrArg Prod.snd hstate,
    noLeak_of_reach (.step hr₂ (writeTaskFirst_read hw₂) hs₃)⟩

end RzProxy
