import RzProxy.Handler.RoundRobin
import RzProxy.Handler.Service
import Mathlib.Data.Finset.Card

/-!
# Attempts

A call makes three attempts at most. Each takes it through the same program points, so there is a
bound on the steps that it takes by itself. An attempt that fails does so for want of a connection,
before an id is drawn: the call itself holds the connection that it sends on, and with it the sender
that it waits for. So there are no more ids than calls, and what holds within `2 ^ 32` ids holds for
as long as no more calls were begun.

## Main definitions

* `Call.stepsLeft`: the steps that are left to a call
* `Single`: a call has one channel

## Main results

* `count_exec_le`: a call takes at most twenty steps of its own
* `drawn_le_calls`: one id is drawn for each call, at most
-/

namespace RzProxy

open ByteString Streaming Machines

/-- The steps that are left in an attempt, and for one that sleeps in the next. -/
def Pc.left : Pc → ℕ
  | .sleep _ => 7
  | .pick => 6
  | .check _ => 5
  | .draw _ => 4
  | .store _ _ _ => 3
  | .send _ _ _ => 2
  | .wait _ _ _ => 1
  | .finished _ | .dropped => 0

/-- The steps that are left to a call, if all its attempts fail. -/
def Call.stepsLeft (call : Call) : ℕ :=
  if call.pc.left = 0 then 0 else 7 * (2 - call.attempts) + call.pc.left

variable {s s' : State} {a : Action}

/-! ## One step -/

/-- What the next step of a call is: it goes on, or its attempt fails. -/
inductive Advances (s : State) (k : CallId) (s' : State) : Prop
  | on (attempts : (s'.calls k).attempts = (s.calls k).attempts)
      (left : (s'.calls k).pc.left < (s.calls k).pc.left)
  | again (held : Option ConnId) (error : RZError) (left : 0 < (s.calls k).pc.left)
      (attempts : (s'.calls k).attempts = (s.calls k).attempts + 1)
      (pc : (s'.calls k).pc = if 3 ≤ (s.calls k).attempts + 1 then .finished (.error error)
        else .sleep held)

theorem advances_retry (t : State) {k : CallId} (hcall : t.calls k = s.calls k)
    (hleft : 0 < (s.calls k).pc.left) (held : Option ConnId) (error : RZError) :
    Advances s k (t.retry k held error) := by
  refine .again held error hleft ?_ ?_
  · rw [State.retry, calls_setCall, hcall]
  · rw [State.retry, calls_setCall, hcall]

theorem advances_setPc (t : State) {k : CallId} (hcall : t.calls k = s.calls k) (pc : Pc)
    (hleft : pc.left < (s.calls k).pc.left) : Advances s k (t.setPc k pc) := by
  refine .on ?_ ?_
  · rw [State.setPc, calls_setCall, hcall]
  · rw [pc_setPc]
    exact hleft

/-- **A step of a call** goes on in its attempt, or ends it. -/
theorem advances_of_exec {k : CallId} (h : s.exec k = some s') : Advances s k s' := by
  cases hpc : (s.calls k).pc with
  | pick =>
    obtain ⟨idx, ⟨-, rfl⟩ | ⟨c, -, rfl⟩⟩ := exec_of_pick hpc h
    · exact advances_retry (s := s) { s with nextConn := idx } rfl (by simp [hpc, Pc.left]) _ _
    · exact advances_setPc (s := s) { s with nextConn := idx } rfl _ (by simp [hpc, Pc.left])
  | check c =>
    simp only [State.exec, hpc, Option.some.injEq] at h
    subst h
    split_ifs
    · exact advances_retry s rfl (by simp [hpc, Pc.left]) _ _
    · exact advances_setPc s rfl _ (by simp [hpc, Pc.left])
  | draw c =>
    obtain rfl := by simpa [State.exec, hpc] using h
    refine .on ?_ ?_
    · rw [calls_drawCorrId]
    · rw [calls_drawCorrId, hpc]
      simp [Pc.left]
  | store c id x =>
    obtain rfl := by simpa [State.exec, hpc] using h
    exact advances_setPc (s := s) (k := k) (s.store c id x) rfl _ (by simp [hpc, Pc.left])
  | send c id x =>
    simp only [State.exec, hpc] at h
    obtain ⟨t, ht, rfl⟩ := Option.map_eq_some_iff.mp h
    have hsame : (t.calls k).attempts = (s.calls k).attempts := by
      simp only [State.sendFrame] at ht
      split_ifs at ht
      · obtain ⟨conn, -, rfl⟩ := Option.map_eq_some_iff.mp ht
        rw [calls_setCall]
        rfl
      · obtain rfl := Option.some.inj ht
        rfl
    refine .on ?_ ?_
    · rw [State.setPc, calls_setCall, hsame]
    · rw [pc_setPc, hpc]
      simp [Pc.left]
  | wait c id x =>
    cases ho : (s.chans x).oneshot with
    | empty => simp [State.exec, hpc, ho] at h
    | sent b =>
      obtain rfl := by simpa [State.exec, hpc, ho] using h
      exact advances_setPc (s := s) (k := k) s rfl _ (by simp [hpc, Pc.left])
    | closed =>
      simp only [State.exec, hpc, ho, Option.some.injEq] at h
      subst h
      exact advances_retry _ (by rfl) (by simp [hpc, Pc.left]) _ _
  | sleep held =>
    obtain rfl := by simpa [State.exec, hpc] using h
    exact advances_setPc (s := s) (k := k) s rfl _ (by simp [hpc, Pc.left])
  | finished r => simp [State.exec, hpc] at h
  | dropped => simp [State.exec, hpc] at h

theorem Advances.stepsLeft {k : CallId} (h : Advances s k s') :
    (s'.calls k).stepsLeft + 1 ≤ (s.calls k).stepsLeft := by
  unfold Call.stepsLeft
  cases h with
  | on attempts left =>
    rw [attempts]
    split_ifs <;> omega
  | again held error left attempts pc =>
    rw [attempts]
    by_cases h3 : 3 ≤ (s.calls k).attempts + 1
    · have hleft : (s'.calls k).pc.left = 0 := by
        rw [pc, if_pos h3]
        rfl
      split_ifs <;> omega
    · have hleft : (s'.calls k).pc.left = 7 := by
        rw [pc, if_neg h3]
        rfl
      split_ifs <;> omega

/-! ## Steps of others -/

/-- What others do to a call: nothing, unless they begin it or drop it. -/
theorem Change.calls_of_ne (h : Change s a s') {k : CallId} (ha : a ≠ .exec k) :
    s'.calls k = s.calls k ∨ (s'.calls k).pc.left = 0 ∨
      k = s.callCount ∧ (s'.calls k).pc = .pick ∧ (s'.calls k).attempts = 0 := by
  rcases h.calls k with he | hm
  · exact .inl he
  generalize s'.calls k = call' at hm
  cases hm with
  | new segment isWrite payload hk =>
    dsimp only
    split_ifs
    · exact .inr (.inl rfl)
    · exact .inr (.inr ⟨hk, rfl, rfl⟩)
  | cancel => exact .inr (.inl rfl)
  | _ => exact absurd rfl ha

theorem Pc.Between.left_ne {pc : Pc} (h : pc.Between) : pc.left ≠ 0 := by
  cases pc with
  | pick | check | draw | sleep => exact Nat.succ_ne_zero _
  | store | send | wait | finished | dropped => cases h

/-- A call that is over stays as it is. -/
theorem calls_of_step {k : CallId} (hstep : handler.step s a = some s') (hk : k < s.callCount)
    (hpc : (s.calls k).pc.left = 0) : s'.calls k = s.calls k := by
  obtain ⟨s₁, hact, rfl⟩ := Option.map_eq_some_iff.mp hstep
  show s₁.calls k = s.calls k
  have hne {pc : Pc} (he : (s.calls k).pc = pc) (hpos : pc.left ≠ 0) : False := hpos (he ▸ hpc)
  rcases (change_of_act hact).calls k with he | hm
  · exact he
  · generalize s₁.calls k = call' at hm
    cases hm with
    | new _ _ _ hnew => exact absurd hnew hk.ne
    | between _ _ before => exact absurd hpc before.left_ne
    | cancel =>
      simp only [State.act, if_pos hk] at hact
      cases hp : (s.calls k).pc with
      | finished result | dropped => simp [State.cancel, hp] at hact
      | _ => exact (hne hp (Nat.succ_ne_zero _)).elim
    | draw pc | store pc | wait pc | answered pc | unanswered _ pc =>
      exact (hne pc (Nat.succ_ne_zero _)).elim

/-- Only a client that goes away drops the future of a call. -/
theorem pc_ne_dropped_of_step {k : CallId} (hstep : handler.step s a = some s')
    (hk : k < s.callCount) (ha : a ≠ .cancel k) (hpc : (s.calls k).pc ≠ .dropped) :
    (s'.calls k).pc ≠ .dropped := by
  obtain ⟨s₁, hc, rfl⟩ := step_cases hstep
  show (s₁.calls k).pc ≠ _
  rcases hc.calls k with he | hm
  · rwa [he]
  · generalize s₁.calls k = call' at hm
    cases hm with
    | new _ _ _ hnew => exact absurd hnew hk.ne
    | between _ _ _ after =>
      rcases after with hb | ⟨e, rfl⟩
      · rintro rfl
        cases hb
      · nofun
    | unanswered _ _ _ after => rcases after with rfl | rfl <;> nofun
    | cancel => exact absurd rfl ha
    | draw | store | wait | answered => nofun

/-! ## The steps of a call -/

/-- The steps that a call may still take by itself, begun or not. -/
def State.stepsLeft (s : State) (k : CallId) : ℕ :=
  if k < s.callCount then (s.calls k).stepsLeft else 20

theorem stepsLeft_step (hs : handler.Reachable s) (k : CallId)
    (hstep : handler.step s a = some s') :
    (if a = .exec k then 1 else 0) + s'.stepsLeft k ≤ s.stepsLeft k := by
  obtain ⟨s₁, hact, rfl⟩ := Option.map_eq_some_iff.mp hstep
  have hc := change_of_act hact
  have hcount := hc.callCount_le
  unfold State.stepsLeft
  show _ + (if k < s₁.callCount then (s₁.calls k).stepsLeft else 20) ≤ _
  by_cases ha : a = .exec k
  · subst ha
    simp only [State.act, Option.ite_none_right_eq_some] at hact
    have hle := (advances_of_exec hact.2).stepsLeft
    rw [if_pos rfl, if_pos hact.1, if_pos (Nat.lt_of_lt_of_le hact.1 hcount)]
    omega
  · rw [if_neg ha, Nat.zero_add]
    have hunmade (hk : ¬ k < s.callCount) : (s.calls k).stepsLeft = 0 := by
      rw [Call.stepsLeft, (dropped_of_le hs (Nat.le_of_not_lt hk)).1]
      rfl
    rcases hc.calls_of_ne ha with he | h0 | ⟨rfl, hpick, h0⟩
    · rw [he]
      split_ifs with hk' hk
      · exact le_refl _
      · exact (hunmade hk).trans_le (Nat.zero_le _)
      · exact absurd (Nat.lt_of_lt_of_le ‹_› hcount) hk'
      · exact le_refl _
    · rw [Call.stepsLeft, if_pos h0]
      split_ifs with hk' hk
      · exact Nat.zero_le _
      · exact Nat.zero_le _
      · exact absurd (Nat.lt_of_lt_of_le ‹_› hcount) hk'
      · exact le_refl _
    · rw [if_neg (Nat.lt_irrefl _), Call.stepsLeft, hpick, h0]
      split_ifs <;> decide

theorem count_exec_le {cfg : Config} {as : List Action}
    (hrun : handler.run (State.initial cfg) as = some s) (k : CallId) :
    as.count (.exec k) ≤ 20 := by
  have hle := Machine.Path.count_add_le (fun s => s.stepsLeft k) (l := .exec k)
    (fun s a s' hs _ hstep => stepsLeft_step hs k hstep) (.init ⟨cfg, rfl⟩)
    (Machine.path_iff_run.mpr hrun)
  exact (Nat.le_add_right _ _).trans hle

/-- What a call can be waiting for: the lock of the pool, a place in the queue of its connection, or
an answer. -/
inductive Blocked (s : State) (k : CallId) : Prop
  | pool (pc : (s.calls k).pc = .pick) (locked : s.reconnecting.isSome)
  | queue {c : ConnId} {id : UInt32} {x : ChanId} (pc : (s.calls k).pc = .send c id x)
      (isOpen : (s.conns c).queueOpen = true)
      (full : max s.cfg.maxActiveConns 2048 ≤ (s.conns c).queue.length)
  | answer {c : ConnId} {id : UInt32} {x : ChanId} (pc : (s.calls k).pc = .wait c id x)
      (empty : (s.chans x).oneshot = .empty)

/-- A call that can take no step is over, or blocked. -/
theorem blocked_of_exec_eq_none (hs : handler.Reachable s) {k : CallId} (h : s.exec k = none) :
    (s.calls k).pc.left = 0 ∨ Blocked s k := by
  cases hpc : (s.calls k).pc with
  | pick =>
    obtain ⟨found, idx, hnext⟩ := nextConnection_of_reachable hs
    simp only [State.exec, hpc, hnext] at h
    split_ifs at h with hlock
    · exact .inr (.pool hpc hlock)
    · cases found <;> cases h
  | send c id x =>
    simp only [State.exec, hpc, State.sendFrame, Connection.push, Option.map_eq_none_iff] at h
    split_ifs at h with hopen hroom
    · cases h
    · exact .inr (.queue hpc hopen (Nat.le_of_not_lt hroom))
  | wait c id x =>
    cases ho : (s.chans x).oneshot with
    | empty => exact .inr (.answer hpc ho)
    | sent b => simp [State.exec, hpc, ho] at h
    | closed => simp [State.exec, hpc, ho] at h
  | finished r | dropped => exact .inl rfl
  | check c | draw c | store c id x | sleep held => simp [State.exec, hpc] at h

/-- **A call takes at most twenty steps of its own**, in every run and whatever the others do; and
as long as it is not over, it takes the next one unless it has to wait for the pool, for its queue
or for its answer. -/
theorem execute_bounded {cfg : Config} {as : List Action}
    (hrun : handler.run (State.initial cfg) as = some s) (k : CallId) :
    as.count (.exec k) ≤ 20 ∧ ((s.calls k).pc.left ≠ 0 → (s.exec k).isSome ∨ Blocked s k) := by
  refine ⟨count_exec_le hrun k, fun hleft => ?_⟩
  have hr : handler.Reachable s := Machine.Reach.run (.init ⟨cfg, rfl⟩) (fun _ _ _ => trivial) hrun
  cases hexec : s.exec k with
  | some s' => exact .inl rfl
  | none => exact .inr ((blocked_of_exec_eq_none hr hexec).resolve_left hleft)

/-- A call that fails three times, for want of a connection. -/
theorem execute_bounded_no_connection :
    ∃ s, handler.run (State.initial ⟨.router, "host", 1, 1⟩)
        [.call "eu" true [1, 65], .exec 0, .exec 0, .exec 0, .exec 0, .exec 0] = some s ∧
      [Action.call "eu" true [1, 65], .exec 0, .exec 0, .exec 0, .exec 0, .exec 0].count
        (.exec 0) ≤ 20 := by
  have hrun : (handler.run (State.initial ⟨.router, "host", 1, 1⟩)
      [.call "eu" true [1, 65], .exec 0, .exec 0, .exec 0, .exec 0, .exec 0]).isSome := by decide
  obtain ⟨s, hs⟩ := Option.isSome_iff_exists.mp hrun
  exact ⟨s, hs, (execute_bounded hs 0).1⟩

/-! ## The ids that are drawn -/

/-- An id is drawn with a channel of its own. -/
theorem Change.drawn_add_le (h : Change s a s') (c : ConnId) :
    (s'.conns c).drawn + s.chanCount ≤ (s.conns c).drawn + s'.chanCount := by
  rcases h.tame_or_special with ht | hsp
  · rw [ht.chanCount, show (s'.conns c).drawn = (s.conns c).drawn from
      congrArg (fun r => r.2.2.1) (ht.conns c)]
  · cases hsp with
    | @draw k d =>
      rw [drawn_drawCorrId]
      show _ ≤ _ + (s.chanCount + 1)
      split_ifs <;> omega
    | answered | cancelStore => exact le_refl _
    | @store k d id x =>
      have hdrawn : ∀ e, ((s.store d id x).conns e).drawn = (s.conns e).drawn :=
        apply_update_eq Connection.drawn rfl
      exact Nat.add_le_add_right (hdrawn c).le _
    | @take d header payload x =>
      have hdrawn : ∀ e, (Function.update s.conns d ((s.conns d).take header payload x s.clock) e
          ).drawn = (s.conns e).drawn :=
        apply_update_eq Connection.drawn rfl
      exact Nat.add_le_add_right (hdrawn c).le _

theorem drawn_le_chanCount {ok : State → Action → Prop} (hs : handler.Reach ok s) (c : ConnId) :
    (s.conns c).drawn ≤ s.chanCount := by
  refine hs.invariant (P := fun s => ∀ c, (s.conns c).drawn ≤ s.chanCount) ?_
    (fun s a s' _ h _ hstep => ?_) c
  · rintro s ⟨cfg, rfl⟩ c
    exact le_refl 0
  · obtain ⟨s₁, hc, rfl⟩ := step_cases hstep
    intro c
    have hle := hc.drawn_add_le c
    have hold := h c
    rw [drawn_reap]
    show (s₁.conns c).drawn ≤ s₁.chanCount
    omega

/-- A call has one channel, which it makes in the attempt that it sends in. -/
structure Single (s : State) : Prop where
  between : ∀ k, (s.calls k).pc.Between → (s.calls k).last = none
  last : ∀ x < s.chanCount, (s.chans x).call < s.callCount ∧
    (s.calls (s.chans x).call).last = some x

theorem Call.Moves.last_of_between {k : CallId} {call call' : Call} (h : call.Moves s k a call')
    (hcall : call.pc.Between → call.last = none)
    (hopen : ∀ {c id x}, call.pc = .wait c id x → (s.chans x).oneshot ≠ .closed)
    (hpc : call'.pc.Between) : call'.last = none := by
  cases h with
  | new => rfl
  | between _ _ before => exact hcall before
  | unanswered _ pc closed => exact absurd closed (hopen pc)
  | draw | store | wait | answered | cancel => cases hpc

/-- A step draws for a call that has drawn nothing. -/
theorem Single.change (h : Single s) (hc : Change s a s')
    (hopen : ∀ {k c id x}, (s.calls k).pc = .wait c id x → (s.chans x).oneshot ≠ .closed) :
    Single s' := by
  refine ⟨fun k hpc => ?_, fun x hx => ?_⟩
  · rcases hc.calls k with he | hm
    · rw [he] at hpc ⊢
      exact h.between k hpc
    · exact hm.last_of_between (h.between k) hopen hpc
  · by_cases hold : x < s.chanCount
    · obtain ⟨hlt, hlast⟩ := h.last x hold
      obtain ⟨-, hlabel, -⟩ := hc.chan hold
      have hcall : (s'.chans x).call = (s.chans x).call := congrArg (·.1) hlabel
      rw [hcall]
      refine ⟨hlt.trans_le hc.callCount_le, ?_⟩
      rcases hc.calls (s.chans x).call with he | hm
      · rw [he]
        exact hlast
      · generalize s'.calls (s.chans x).call = call' at hm
        cases hm with
        | new _ _ _ hnew => exact absurd hnew hlt.ne
        | draw pc =>
          rw [h.between _ (by rw [pc]; trivial)] at hlast
          cases hlast
        | _ => exact hlast
    · cases hc with
      | @draw k c hk pc =>
        obtain rfl : x = s.chanCount :=
          Nat.le_antisymm (Nat.lt_succ_iff.mp hx) (Nat.le_of_not_lt hold)
        rw [chans_drawCorrId]
        refine ⟨hk, ?_⟩
        rw [calls_drawCorrId]
      | _ => exact absurd hx hold

/-- Different channels are those of different calls. -/
theorem Single.eq_of_call (h : Single s) {x y : ChanId} (hx : x < s.chanCount)
    (hy : y < s.chanCount) (hcall : (s.chans x).call = (s.chans y).call) : x = y := by
  have hlast := (h.last x hx).2
  rw [hcall, (h.last y hy).2] at hlast
  exact (Option.some.inj hlast).symm

theorem Single.chanCount_le (h : Single s) : s.chanCount ≤ s.callCount := by
  have hcard := Finset.card_le_card_of_injOn (s := Finset.range s.chanCount)
    (t := Finset.range s.callCount) (fun x => (s.chans x).call)
    (fun x hx => Finset.mem_range.mpr (h.last x (Finset.mem_range.mp hx)).1)
    fun x hx y hy => h.eq_of_call (Finset.mem_range.mp hx) (Finset.mem_range.mp hy)
  rwa [Finset.card_range, Finset.card_range] at hcard

/-- While calls have one channel each, a bound on the calls is one on the ids. -/
theorem Single.bounded (h : Single s) (hs : handler.Reachable s) (hle : s.callCount ≤ 2 ^ 32) :
    Bounded s := fun c =>
  (drawn_le_chanCount hs c).trans (h.chanCount_le.trans hle)

/-- As long as no more than `2 ^ 32` calls were begun, they have one channel each. -/
theorem single_of_reach (hs : handler.Reachable s) (hle : s.callCount ≤ 2 ^ 32) : Single s := by
  refine hs.invariant_of_bound (B := fun s => s.callCount ≤ 2 ^ 32) (P := Single)
    (fun s a s' hst hle => ?_) ?_ (fun s a s' hr hle _ h _ hstep => ?_) hle
  · obtain ⟨s₁, hc, rfl⟩ := step_cases hst
    exact hc.callCount_le.trans hle
  · rintro s ⟨cfg, rfl⟩
    exact ⟨fun _ _ => rfl, nofun⟩
  · obtain ⟨s₁, hc, rfl⟩ := step_cases hstep
    -- so far no id was drawn twice, so that no sender of a call that waits was dropped
    have hkept := kept_of_reach hr (h.bounded hr hle)
    have h₁ : Single s₁ := h.change hc (hkept.not_closed (correlated_of_reach hr)
      (holding_of_reach hr))
    refine ⟨h₁.between, fun x hx => ?_⟩
    have hcall : (s₁.tick.reap.chans x).call = (s₁.chans x).call := by
      show (if _ then _ else s₁.chans x : Chan).call = _
      split_ifs <;> rfl
    rw [hcall]
    exact h₁.last x hx

/-- **One id for each call**: as long as no more than `2 ^ 32` calls were begun, a call draws one id
at most, on all connections together, and so no connection has drawn an id twice. A call that has
sent its frame never makes another attempt. -/
theorem drawn_le_calls (hs : handler.Reachable s) (hle : s.callCount ≤ 2 ^ 32) :
    Bounded s ∧ (∀ c, (s.conns c).drawn ≤ s.callCount) ∧
      (∀ x < s.chanCount, ∀ y < s.chanCount, (s.chans x).call = (s.chans y).call → x = y) ∧
      ∀ k, (s.calls k).pc.Between → (s.calls k).last = none := by
  have hsingle := single_of_reach hs hle
  exact ⟨hsingle.bounded hs hle,
    fun c => (drawn_le_chanCount hs c).trans hsingle.chanCount_le,
    fun x hx y hy hcall => hsingle.eq_of_call hx hy hcall, hsingle.between⟩

/-- A call that draws an id on the first connection. -/
theorem drawn_le_calls_one_call :
    ∃ s, handler.run (State.initial ⟨.router, "host", 1, 1⟩)
        [.reconnect true, .reconnect true, .reconnect true, .call "eu" true [1, 65], .exec 0,
          .exec 0, .exec 0] = some s ∧
      s.callCount = 1 ∧ (s.conns 0).drawn = 1 ∧ (s.conns 0).drawn ≤ s.callCount := by
  have hrun : ((handler.run (State.initial ⟨.router, "host", 1, 1⟩)
      [.reconnect true, .reconnect true, .reconnect true, .call "eu" true [1, 65], .exec 0,
        .exec 0, .exec 0]).map fun s => (s.callCount, (s.conns 0).drawn)) = some (1, 1) := by
    decide
  obtain ⟨s, hs, hd⟩ := Option.map_eq_some_iff.mp hrun
  obtain ⟨hcount, hdrawn⟩ := Prod.mk.inj hd
  have hr : handler.Reachable s :=
    Machine.Reach.run (.init ⟨_, rfl⟩) (fun _ _ _ => trivial) hs
  exact ⟨s, hs, hcount, hdrawn, (drawn_le_calls hr (by rw [hcount]; decide)).2.1 0⟩

end RzProxy
