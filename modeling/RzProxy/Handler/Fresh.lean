import RzProxy.Handler.Pending

/-!
# Fresh ids

The counter of correlation ids goes around `u32` without a look at the map of waiting senders, and
an unanswered sender stays in that map for as long as its connection. So a store takes the place of
a sender that somebody waits for once the counter has come around to its id. This does not happen in
runs in which no id is drawn while a sender is pending whose id was drawn a whole number of turns
before; after a draw that breaks this it can happen with the next step.

## Main definitions

* `FreshStores`: the stores that calls are about to make
* `DrawsInTurn`: the condition on a step

## Main results

* `not_forall_freshStores`: the counter comes around to the id of a call that waits
* `freshStores_of_reach`: every store is made under a vacant id in runs whose steps meet the
  condition
* `exists_not_freshStores_of_step`: after a step that does not meet it some continuation comes to
  a store that is not
-/

namespace RzProxy

open Machines

/-- Every store that a call is about to make is made under an id that is no key of the map. -/
def FreshStores (s : State) : Prop :=
  ∀ k c id x, (s.calls k).pc = .store c id x → (s.conns c).demux id = none

/-- A sender of the connection `c` that is stored in its map, or that its call is about to store. -/
def Pending (s : State) (c : ConnId) (x : ChanId) : Prop :=
  (∃ id, (s.conns c).demux id = some x) ∨ ∃ k id, (s.calls k).pc = .store c id x

/-- No id is drawn while a sender of the connection is pending whose id was drawn a whole number of
turns of the counter before. -/
def DrawsInTurn (s : State) : Action → Prop
  | .exec k => ∀ c, (s.calls k).pc = .draw c → ∀ x, Pending s c x →
      ¬ 2 ^ 32 ∣ (s.conns c).drawn - (s.chans x).draw
  | _ => True

variable {s : State}

/-! ## A counter that comes around -/

/-- Where nobody let go of a connection, nothing is dropped. -/
theorem reap_eq_self (h : ∀ c, s.reaped c = false) : s.reap = s := by
  have hnone : (List.range s.connCount).filter s.reaped = [] := by simp [h]
  unfold State.reap
  simp only [h, hnone, Bool.false_eq_true, false_and, if_false, List.length_nil, Nat.cast_zero,
    sub_zero]

/-- The pool is one open connection, on which a call waits under the first id and from which `n` ids
were drawn. -/
structure Looped (n : ℕ) (s : State) : Prop where
  reach : handler.Reachable s
  slots : s.slots = [some 0]
  idle : s.reconnecting = none
  nextConn : s.nextConn = 0
  connCount : s.connCount = 1
  isOpen : (s.conns 0).closed = false
  waits : (s.conns 0).demux 1 = some 0
  drawn : (s.conns 0).drawn = n

/-- Some such state has a call at `pc`. -/
def LoopedAt (n : ℕ) (pc : Pc) : Prop := ∃ s k, Looped n s ∧ k < s.callCount ∧ (s.calls k).pc = pc

theorem Looped.step {n : ℕ} {s₁ : State} {a : Action} (h : Looped n s) (hact : s.act a = some s₁)
    (hslots : s₁.slots = s.slots) (hidle : s₁.reconnecting = s.reconnecting)
    (hnext : s₁.nextConn = s.nextConn) (hcount : s₁.connCount = s.connCount)
    (hclosed : (s₁.conns 0).closed = (s.conns 0).closed)
    (hdemux : (s₁.conns 0).demux = (s.conns 0).demux) {m : ℕ} (hdrawn : (s₁.conns 0).drawn = m) :
    Looped m s₁.tick := by
  have hreap : s₁.tick.reap = s₁.tick := by
    apply reap_eq_self
    intro c
    have hc : s₁.tick.connCount = 1 := hcount.trans h.connCount
    have hs : s₁.tick.slots = [some 0] := hslots.trans h.slots
    by_cases h0 : c = 0
    · simp [State.reaped, State.held, hs, h0]
    · simp [State.reaped, hc, h0]
  have hstep : handler.step s a = some s₁.tick := by
    show Option.map _ (s.act a) = _
    rw [hact, Option.map_some, hreap]
  exact ⟨.step h.reach trivial hstep, hslots.trans h.slots, hidle.trans h.idle,
    hnext.trans h.nextConn, hcount.trans h.connCount, hclosed.trans h.isOpen,
    (congrFun hdemux 1).trans h.waits, hdrawn⟩

theorem Looped.call {n : ℕ} (h : Looped n s) : LoopedAt n .pick := by
  have h₁ := h.step (a := .call "eu" false [1]) rfl rfl rfl rfl rfl rfl rfl h.drawn
  refine ⟨_, s.callCount, h₁, Nat.lt_succ_self _, ?_⟩
  show (Function.update s.calls s.callCount _ s.callCount).pc = _
  rw [Function.update_self]
  rfl

theorem LoopedAt.pick {n : ℕ} (h : LoopedAt n .pick) : LoopedAt n (.check 0) := by
  obtain ⟨s, k, h, hk, hpc⟩ := h
  have hscan : nextConnection s.isClosed s.slots s.nextConn = .ok (some 0, 0) := by
    simp [nextConnection, scanSlots, h.slots, h.nextConn, State.isClosed, h.isOpen]
  have hact : s.act (.exec k) = some ({ s with nextConn := 0 }.setPc k (.check 0)) := by
    simp [State.act, hk, State.exec, hpc, h.idle, hscan]
  have h₁ := h.step hact rfl rfl h.nextConn.symm rfl rfl rfl h.drawn
  exact ⟨_, k, h₁, hk, pc_setPc _ _ _⟩

theorem LoopedAt.check {n : ℕ} (h : LoopedAt n (.check 0)) : LoopedAt n (.draw 0) := by
  obtain ⟨s, k, h, hk, hpc⟩ := h
  have hact : s.act (.exec k) = some (s.setPc k (.draw 0)) := by
    simp [State.act, hk, State.exec, hpc, State.isClosed, h.isOpen]
  have h₁ := h.step hact rfl rfl rfl rfl rfl rfl h.drawn
  exact ⟨_, k, h₁, hk, pc_setPc _ _ _⟩

theorem LoopedAt.draw {n : ℕ} (h : LoopedAt n (.draw 0)) :
    ∃ x, LoopedAt (n + 1) (.store 0 (UInt32.ofNat (1 + n)) x) := by
  obtain ⟨s, k, h, hk, hpc⟩ := h
  have hact : s.act (.exec k) = some (s.drawCorrId k 0) := by
    simp [State.act, hk, State.exec, hpc]
  have hconn := conns_drawCorrId s k 0
  have hdrawn : ((s.drawCorrId k 0).conns 0).drawn = n + 1 := by
    rw [hconn, ← h.drawn]
    rfl
  have h₁ := h.step hact rfl rfl rfl rfl (by rw [hconn]; rfl) (by rw [hconn]; rfl) hdrawn
  refine ⟨s.chanCount, _, k, h₁, hk, ?_⟩
  rw [← h.drawn, ← (correlated_of_reach h.reach).corrId]
  exact pc_drawCorrId s k 0

/-- A client that goes away before its sender is stored leaves nothing but a drawn id. -/
theorem LoopedAt.cancel {n : ℕ} {id : UInt32} {x : ChanId} (h : LoopedAt n (.store 0 id x)) :
    ∃ s, Looped n s := by
  obtain ⟨s, k, h, hk, hpc⟩ := h
  have hact : s.act (.cancel k) = some ((s.closeChan x).setPc k .dropped) := by
    simp [State.act, hk, State.cancel, hpc]
  exact ⟨_, h.step hact rfl rfl rfl rfl rfl rfl h.drawn⟩

theorem exists_looped (n : ℕ) : ∃ s, Looped (n + 1) s := by
  -- induction on the ids drawn, each by a call that is cancelled before its store
  induction n with
  | zero =>
    have hrun : (handler.run (State.initial ⟨.standalone, "host", 1, 1⟩)
        [.reconnect true, .reconnect true, .reconnect true, .call "eu" false [1], .exec 0, .exec 0,
          .exec 0, .exec 0, .exec 0]).map (fun s => ((s.slots, s.reconnecting, s.nextConn,
            s.connCount), ((s.conns 0).closed, (s.conns 0).demux 1, (s.conns 0).drawn))) =
        some (([some 0], none, 0, 1), (false, some 0, 1)) := by decide
    obtain ⟨s, hs, hstate⟩ := Option.map_eq_some_iff.mp hrun
    simp only [Prod.mk.injEq] at hstate
    obtain ⟨⟨h₁, h₂, h₃, h₄⟩, h₅, h₆, h₇⟩ := hstate
    exact ⟨s, Machine.Reach.run (.init ⟨_, rfl⟩) (fun _ _ _ => trivial) hs, h₁, h₂, h₃, h₄, h₅, h₆,
      h₇⟩
  | succ n ih =>
    obtain ⟨s, hs⟩ := ih
    obtain ⟨x, hx⟩ := hs.call.pick.check.draw
    exact hx.cancel

/-- **The counter comes around** to the id of a call that waits. -/
theorem not_forall_freshStores : ¬ ∀ s, handler.Reachable s → FreshStores s := by
  intro h
  -- after `2 ^ 32` ids the first is drawn again, and its call still waits
  obtain ⟨s₀, hs₀⟩ := exists_looped (2 ^ 32 - 1)
  obtain ⟨x, s, k, hs, -, hpc⟩ := hs₀.call.pick.check.draw
  have hnone := h s hs.reach k 0 _ x hpc
  have hid : UInt32.ofNat (1 + (2 ^ 32 - 1 + 1)) = 1 := by rfl
  rw [hid, hs.waits] at hnone
  cases hnone

/-! ## Draws in turn -/

theorem Correlated.pending (h : Correlated s) {c : ConnId} {x : ChanId} (hx : Pending s c x) :
    x < s.chanCount ∧ (s.chans x).conn = c := by
  rcases hx with ⟨id, he⟩ | ⟨k, id, hpc⟩
  · obtain ⟨hlt, hc, -⟩ := h.entry he
    exact ⟨hlt, hc⟩
  · obtain ⟨hlt, -, hc, -⟩ := h.attempt (k := k) (by rw [hpc]; rfl)
    exact ⟨hlt, hc⟩

/-- The next id of a connection is that of an earlier channel after whole turns of the counter. -/
theorem Correlated.corrId_eq_iff (h : Correlated s) {c : ConnId} {x : ChanId}
    (hx : x < s.chanCount) (hc : (s.chans x).conn = c) :
    (s.chans x).corrId = (s.conns c).corrId ↔ 2 ^ 32 ∣ (s.conns c).drawn - (s.chans x).draw := by
  obtain ⟨hid, hlt⟩ := h.drawn hx
  rw [hc] at hlt
  rw [hid, h.corrId c, ← UInt32.toNat_inj, UInt32.toNat_ofNat', UInt32.toNat_ofNat']
  -- both ids are places in the sequence of draws modulo `2 ^ 32`
  constructor
  · intro hmod
    omega
  · intro hdvd
    omega

/-- Pending senders of one connection have different ids. -/
def Apart (s : State) : Prop :=
  ∀ c x y, Pending s c x → Pending s c y → (s.chans x).corrId = (s.chans y).corrId → x = y

theorem Apart.freshStores (h : Apart s) (hcorr : Correlated s) : FreshStores s := by
  intro k c id x hpc
  apply hcorr.vacant hpc
  intro y hy
  obtain ⟨-, -, -, hid, -⟩ := hcorr.attempt (k := k) (by rw [hpc]; rfl)
  exact h c y x (.inl ⟨id, hy⟩) (.inr ⟨k, id, hpc⟩) ((hcorr.entry hy).2.2.1.trans hid.symm)

/-- A sender becomes pending when the id of its channel is drawn. -/
theorem Change.pending {s' : State} {a : Action} (h : Change s a s') {c : ConnId} {x : ChanId}
    (hx : Pending s' c x) : Pending s c x ∨ ∃ k, a = .exec k ∧ (s.calls k).pc = .draw c ∧
      x = s.chanCount ∧ (s'.calls k).pc = .store c (s.conns c).corrId x := by
  rcases hx with ⟨id, he⟩ | ⟨k, id, hpc⟩
  · rcases h.entry he with he | ⟨k, hpc, -⟩
    · exact .inl (.inl ⟨id, he⟩)
    · exact .inl (.inr ⟨k, id, hpc⟩)
  · rcases h.storing hpc with hpc | ⟨ha, hdraw, rfl, hx⟩
    · exact .inl (.inr ⟨k, id, hpc⟩)
    · exact .inr ⟨k, ha, hdraw, hx, hpc⟩

theorem Apart.change {s' : State} {a : Action} (h : Apart s) (hcorr : Correlated s)
    (hok : DrawsInTurn s a) (hc : Change s a s') : Apart s' := by
  have hcorr' := hcorr.change hc
  have hold : ∀ {c x}, Pending s c x → (s'.chans x).corrId = (s.chans x).corrId := by
    intro c x hx
    obtain ⟨-, hl, -⟩ := hc.chan (hcorr.pending hx).1
    exact congrArg (fun l => l.2.2.1) hl
  have hnew : ∀ {c x y k}, Pending s c x → a = .exec k → (s.calls k).pc = .draw c →
      (s'.calls k).pc = .store c (s.conns c).corrId y →
      (s'.chans x).corrId ≠ (s'.chans y).corrId := by
    rintro c x y k hx rfl hdraw hpc heq
    obtain ⟨-, -, -, hid, -⟩ := hcorr'.attempt (s := s'.tick) (k := k)
      (show (s'.calls k).pc.attempt = _ by rw [hpc]; rfl)
    obtain ⟨hlt, hconn⟩ := hcorr.pending hx
    exact hok c hdraw x hx
      ((hcorr.corrId_eq_iff hlt hconn).mp ((hold hx).symm.trans (heq.trans hid)))
  intro c x y hx hy heq
  rcases hc.pending hx with hx | ⟨j, hj, hjd, hxj, hjs⟩ <;>
    rcases hc.pending hy with hy | ⟨k, hk, hkd, hyk, hks⟩
  · exact h c x y hx hy ((hold hx).symm.trans (heq.trans (hold hy)))
  · exact absurd heq (hnew hx hk hkd hks)
  · exact absurd heq.symm (hnew hy hj hjd hjs)
  · exact hxj.trans hyk.symm

theorem Apart.reap (h : Apart s) : Apart s.reap := by
  have hpending : ∀ {c x}, Pending s.reap c x → Pending s c x := by
    rintro c x (⟨id, he⟩ | hpc)
    · rw [conns_reap] at he
      split_ifs at he
      · cases he
      · exact .inl ⟨id, he⟩
    · exact .inr hpc
  have hid : ∀ x, (s.reap.chans x).corrId = (s.chans x).corrId := by
    intro x
    show (if _ then _ else s.chans x : Chan).corrId = _
    split_ifs <;> rfl
  intro c x y hx hy heq
  rw [hid, hid] at heq
  exact h c x y (hpending hx) (hpending hy) heq

theorem apart_of_reach (hs : handler.Reach DrawsInTurn s) : Apart s := by
  refine hs.invariant ?_ fun s a s' hr h hok hstep => ?_
  · rintro s ⟨cfg, rfl⟩ c x y (⟨id, he⟩ | ⟨k, id, hpc⟩)
    · cases he
    · cases hpc
  · obtain ⟨s₁, hc, rfl⟩ := step_cases hstep
    have h₁ : Apart s₁ := h.change (correlated_of_reach hr) hok hc
    exact Apart.reap (s := s₁.tick) h₁

/-- **Stores are fresh** in a run whose ids are drawn in turn. -/
theorem freshStores_of_reach (hs : handler.Reach DrawsInTurn s) : FreshStores s :=
  (apart_of_reach hs).freshStores (correlated_of_reach hs)

/-- The step of a call that is about to draw. -/
theorem eq_of_step_draw {s' : State} {k : CallId} {c : ConnId} (hpc : (s.calls k).pc = .draw c)
    (hstep : handler.step s (.exec k) = some s') :
    k < s.callCount ∧ s' = (s.drawCorrId k c).tick.reap := by
  change Option.map _ (if k < s.callCount then s.exec k else none) = some s' at hstep
  split_ifs at hstep with hk
  · simp only [State.exec, hpc, Option.map_some, Option.some.injEq] at hstep
    exact ⟨hk, hstep.symm⟩
  · cases hstep

/-- While the counter has not come around, every draw is in turn. -/
theorem reach_drawsInTurn (hs : handler.Reachable s) (hb : Bounded s) :
    handler.Reach DrawsInTurn s := by
  refine hs.invariant_of_bound (P := fun s => handler.Reach DrawsInTurn s)
    (fun _ _ _ hst => Bounded.of_step hst) (fun s hi => .init hi)
    (fun s a s' hr _ hb' h _ hstep => .step h ?_ hstep) hb
  cases a with
  | exec k =>
    intro c hpc x hx hdvd
    have hcorr := correlated_of_reach hr
    obtain ⟨hlt, hc⟩ := hcorr.pending hx
    have hdraw := (hcorr.drawn hlt).2
    rw [hc] at hdraw
    have hdrawn : (s.conns c).drawn + 1 ≤ 2 ^ 32 := by
      obtain ⟨-, rfl⟩ := eq_of_step_draw hpc hstep
      have hself : ((s.drawCorrId k c).conns c).drawn = (s.conns c).drawn + 1 := by
        rw [drawn_drawCorrId, if_pos rfl]
      exact hself ▸ (drawn_reap (s.drawCorrId k c).tick c) ▸ hb' c
    exact absurd (Nat.le_of_dvd (by omega) hdvd) (by omega)
  | _ => trivial

/-- A call about to store its sender while another waits. -/
theorem freshStores_of_reach_two_calls :
    ∃ s, handler.run (State.initial ⟨.standalone, "host", 1, 1⟩)
        [.reconnect true, .reconnect true, .reconnect true, .call "eu" false [1, 65], .exec 0,
          .exec 0, .exec 0, .exec 0, .exec 0, .call "eu" true [1, 66], .exec 1, .exec 1,
          .exec 1] = some s ∧
      (s.calls 0).pc = .wait 0 1 0 ∧ (s.calls 1).pc = .store 0 2 1 ∧ FreshStores s := by
  have hrun : (handler.run (State.initial ⟨.standalone, "host", 1, 1⟩)
      [.reconnect true, .reconnect true, .reconnect true, .call "eu" false [1, 65], .exec 0,
        .exec 0, .exec 0, .exec 0, .exec 0, .call "eu" true [1, 66], .exec 1, .exec 1,
        .exec 1]).map (fun s => ((s.calls 0).pc, (s.calls 1).pc, s.clock)) =
      some (.wait 0 1 0, .store 0 2 1, 13) := by decide
  obtain ⟨s, hs, hstate⟩ := Option.map_eq_some_iff.mp hrun
  simp only [Prod.mk.injEq] at hstate
  obtain ⟨hpc₀, hpc₁, hclock⟩ := hstate
  have hr : handler.Reachable s := Machine.Reach.run (.init ⟨_, rfl⟩) (fun _ _ _ => trivial) hs
  have hb := bounded_of_clock hr (by rw [hclock]; decide)
  exact ⟨s, hs, hpc₀, hpc₁, freshStores_of_reach (reach_drawsInTurn hr hb)⟩

/-! ## Draws out of turn -/

/-- A store is not fresh after `reap` where it was not before. -/
theorem Holding.not_freshStores_reap (hh : Holding s) {k : CallId} {c : ConnId} {i : UInt32}
    {x y : ChanId} (hpc : (s.calls k).pc = .store c i x) (he : (s.conns c).demux i = some y) :
    ¬ FreshStores s.reap := by
  intro h
  have hnone := h k c i x hpc
  rw [conns_reap_of_held (hh.held (k := k) (by rw [hpc]; rfl)), he] at hnone
  cases hnone

/-- **The condition is needed**: after a draw that does not meet it a store that is not fresh is
about to be made, at once or in the continuation in which the pending sender is stored next. -/
theorem exists_not_freshStores_of_step {s' : State} {a : Action} (hr : handler.Reachable s)
    (hok : ¬ DrawsInTurn s a) (hstep : handler.step s a = some s') :
    ¬ FreshStores s' ∨ ∃ j s'', handler.step s' (.exec j) = some s'' ∧ ¬ FreshStores s'' := by
  cases a with
  | exec k =>
    simp only [DrawsInTurn, not_forall, not_not] at hok
    obtain ⟨c, hpc, x, hx, hdvd⟩ := hok
    have hcorr := correlated_of_reach hr
    obtain ⟨hlt, hconn⟩ := hcorr.pending hx
    have hid := (hcorr.corrId_eq_iff hlt hconn).mpr hdvd
    obtain ⟨hk, rfl⟩ := eq_of_step_draw hpc hstep
    have hh := holding_of_reach hr
    have hdraw : Change s (.exec k) (s.drawCorrId k c) := .draw hk hpc
    have hself := pc_drawCorrId s k c
    have hh₁ := (hh.change hdraw).tick
    rcases hx with ⟨id, he⟩ | ⟨j, id, hpcj⟩
    · -- the pending sender is stored already
      refine .inl (hh₁.not_freshStores_reap hself (y := x) ?_)
      obtain ⟨-, -, hid', -⟩ := hcorr.entry he
      show ((s.drawCorrId k c).conns c).demux _ = _
      rw [demux_drawCorrId, ← hid, hid', he]
    · -- its call stores it first
      obtain ⟨-, -, -, hid', -⟩ := hcorr.attempt (k := j) (by rw [hpcj]; rfl)
      have hjk : j ≠ k := by
        rintro rfl
        rw [hpc] at hpcj
        cases hpcj
      have hj : j < s.callCount := (hh.call (k := j) (c := c) (by rw [hpcj]; rfl)).1
      generalize hs₂ : (s.drawCorrId k c).tick.reap = s₂
      have hcalls₂ : s₂.calls = (s.drawCorrId k c).calls := hs₂ ▸ rfl
      have hcount₂ : s₂.callCount = s.callCount := hs₂ ▸ rfl
      have hpcj₂ : (s₂.calls j).pc = .store c id x := by
        rw [hcalls₂]
        rw [calls_drawCorrId_of_ne s k c hjk]
        exact hpcj
      have hh₂ : Holding s₂ := hs₂ ▸ hh₁.reap
      have hstore : Change s₂ (.exec j) ((s₂.store c id x).setPc j (.send c id x)) :=
        .store (hcount₂ ▸ hj) hpcj₂
      refine .inr ⟨j, ((s₂.store c id x).setPc j (.send c id x)).tick.reap, ?_, ?_⟩
      · show Option.map _ (if j < s₂.callCount then s₂.exec j else none) = _
        rw [hcount₂, if_pos hj]
        simp only [State.exec, hpcj₂, Option.map_some]
      · refine (hh₂.change hstore).tick.not_freshStores_reap (k := k) (c := c) (i := id)
          (x := s.chanCount) (y := x) ?_ ?_
        · show (Function.update s₂.calls j _ k).pc = _
          rw [Function.update_of_ne (Ne.symm hjk), hcalls₂, hself, ← hid, hid']
        · show ((s₂.store c id x).conns c).demux id = _
          rw [conns_store, if_pos rfl]
          exact Function.update_self ..
  | _ => exact absurd trivial hok

end RzProxy
