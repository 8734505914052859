import RzProxy.Handler.Attempts
import RzProxy.Handler.Pool
import Mathlib.Data.Prod.Lex

/-!
# Progress

A call that cannot go on waits for the task that refills the pool, for a place in the queue of its
connection, or for its reply. The proxy does not make it wait for good: the task lets the pool go
after it has looked at each slot, whether or not it can connect, and the write task makes room in
the queue, or closes it. So a call that gets no further waits for the backend.

## Main definitions

* `Internal`: the steps that get a call going
* `Settled`: a call that is over, or waits for its reply
* `State.holdup`: the steps of others that a call has to wait for

## Main results

* `settles_of_reach`: every call gets to where only the backend can keep it
-/

namespace RzProxy

open ByteString Streaming Machines

variable {s s' : State} {a : Action}

/-! ## Who holds a call up -/

/-- The steps that get a call going: its own, those of the task that refills the pool, even if it
cannot connect, and those of write tasks. -/
def Internal (k : CallId) : Action → Prop
  | .exec j => j = k
  | .reconnect connected => connected = false
  | .write _ => True
  | _ => False

/-- A call that is over, or waits for its reply. -/
def Settled (s : State) (k : CallId) : Prop :=
  (s.calls k).pc.left = 0 ∨
    ∃ c id x, (s.calls k).pc = .wait c id x ∧ (s.chans x).oneshot = .empty

/-- The steps of a write task before there is a place in its queue, or no queue. -/
def Connection.holdup (m : ℕ) (k : Connection) : ℕ :=
  match k.writeTask with
  | .running => k.queue.length + 1 - max m 2048
  | .closing => 2
  | .leaving => 1
  | .done => 0

/-- The steps of others that a call has to wait for, if it is not its reply that it waits for. -/
def State.holdup (s : State) (k : CallId) : ℕ :=
  match (s.calls k).pc with
  | .pick =>
    match s.reconnecting with
    | some i => s.slots.length - i + 1
    | none => 0
  | .send c _ _ => (s.conns c).holdup s.cfg.maxActiveConns
  | _ => 0

/-! ## The pool -/

/-- The task that refills the pool touches no call. -/
theorem calls_reconnectClosed (s : State) (connected : Bool) :
    (s.reconnectClosed connected).calls = s.calls ∧
      (s.reconnectClosed connected).callCount = s.callCount := by
  unfold State.reconnectClosed
  split
  · exact ⟨rfl, rfl⟩
  · split
    · exact ⟨rfl, rfl⟩
    · dsimp only
      split_ifs <;> exact ⟨rfl, rfl⟩

/-- The task that refills the pool gets on, whether or not it can connect. -/
theorem holdup_reconnectClosed {k : CallId} (hpc : (s.calls k).pc = .pick)
    (hlock : s.reconnecting.isSome) : (s.reconnectClosed false).holdup k < s.holdup k := by
  obtain ⟨i, hi⟩ := Option.isSome_iff_exists.mp hlock
  have hcalls : ((s.reconnectClosed false).calls k).pc = .pick := by
    rw [(calls_reconnectClosed s false).1]
    exact hpc
  rw [State.holdup, State.holdup, hcalls, hpc, hi]
  cases hslot : s.slots[i]? with
  | none =>
    simp only [State.reconnectClosed, hi, hslot]
    exact Nat.succ_pos _
  | some slot =>
    have hlt := (List.getElem?_eq_some_iff.mp hslot).1
    simp only [State.reconnectClosed, hi, hslot, Bool.and_false, Bool.false_eq_true, if_false]
    omega

/-! ## The queue -/

/-- A queue is there as long as its write task is. -/
theorem writeTask_of_queueOpen {ok : State → Action → Prop} (hs : handler.Reach ok s) (c : ConnId)
    (hopen : (s.conns c).queueOpen = true) : (s.conns c).writeTask ≠ .done := by
  refine hs.invariant
    (P := fun s => ∀ c, (s.conns c).queueOpen = true → (s.conns c).writeTask ≠ .done) ?_
    (fun s a s' _ h _ hstep => ?_) c hopen
  · rintro s ⟨cfg, rfl⟩ c -
    nofun
  · obtain ⟨s₁, hc, rfl⟩ := step_cases hstep
    intro c hopen
    have h₁ : (s₁.conns c).queueOpen = true → (s₁.conns c).writeTask ≠ .done := by
      rcases hc.conns c with he | hm
      · rw [he]
        exact h c
      · generalize s₁.conns c = k' at hm
        cases hm with
        | alone hl =>
          cases hl with
          | writeDone => nofun
          | writeClosed | writeError => exact fun _ => nofun
          | _ => exact h c
        | push push =>
          rw [Connection.push_eq push]
          exact h c
        | draw | register | refuse | take => exact h c
    rw [conns_reap] at hopen ⊢
    split_ifs at hopen ⊢
    · exact h₁ hopen
    · exact h₁ hopen

/-- A write task makes room in a queue that is full, or closes it. -/
theorem Connection.exists_write {m : ℕ} {k : Connection} (htask : k.writeTask ≠ .done)
    (hfull : max m 2048 ≤ k.queue.length) :
    ∃ k', k.write = some k' ∧ k'.holdup m < k.holdup m := by
  cases hw : k.writeTask with
  | running =>
    cases hq : k.queue with
    | nil =>
      rw [hq, List.length_nil] at hfull
      omega
    | cons frame queue =>
      refine ⟨{ k with queue := queue, written := k.written ++ [frame] },
        by simp only [Connection.write, hw, hq], ?_⟩
      rw [hq, List.length_cons] at hfull
      simp only [Connection.holdup, hw, hq, List.length_cons]
      omega
  | closing =>
    refine ⟨{ k with closed := true, writeTask := .leaving },
      by simp only [Connection.write, hw], ?_⟩
    simp only [Connection.holdup, hw]
    decide
  | leaving =>
    refine ⟨{ k with queueOpen := false, queue := [], writeTask := .done },
      by simp only [Connection.write, hw], ?_⟩
    simp only [Connection.holdup, hw]
    decide
  | done => exact absurd hw htask

/-- A call holds only connections that were made. -/
theorem lt_connCount_of_holds (hs : handler.Reachable s) {k : CallId} {c : ConnId}
    (hk : (s.calls k).pc.holds = some c) : c < s.connCount := by
  refine hs.invariant (P := fun s => ∀ k c, (s.calls k).pc.holds = some c → c < s.connCount) ?_
    (fun s a s' hr h _ hstep => ?_) k c hk
  · rintro s ⟨cfg, rfl⟩ k c hk
    cases hk
  · obtain ⟨s₁, hc, rfl⟩ := step_cases hstep
    intro k c hk
    rcases hc.holds hk with hold | ⟨-, hslot⟩
    · exact (h k c hold).trans_le hc.connCount_le
    · exact ((pool_of_reach hr).made c hslot).trans_le hc.connCount_le

/-! ## Progress -/

/-- What holds a call up does not depend on the clock, nor on connections that nobody holds. -/
theorem holdup_tick_reap (hs : Holding s) (k : CallId) : s.tick.reap.holdup k = s.holdup k := by
  show (match (s.calls k).pc with
    | .pick => _
    | .send c _ _ => (s.tick.reap.conns c).holdup s.cfg.maxActiveConns
    | _ => _) = _
  cases hpc : (s.calls k).pc with
  | send c id x =>
    have hheld : s.tick.held c = true := hs.tick.held (k := k) (show _ = _ by
      show (s.calls k).pc.holds = _
      rw [hpc]
      rfl)
    rw [State.holdup, hpc]
    dsimp only
    rw [conns_reap_of_held hheld]
    rfl
  | pick =>
    rw [State.holdup, hpc]
    rfl
  | _ => rw [State.holdup, hpc]

/-- A call that is not settled can go on, or what holds it up can. -/
theorem exists_internal_step (hs : handler.Reachable s) {k : CallId} (hk : k < s.callCount)
    (hleft : ¬ Settled s k) : ∃ a s', Internal k a ∧ handler.step s a = some s' ∧
      toLex (s'.stepsLeft k, s'.holdup k) < toLex (s.stepsLeft k, s.holdup k) := by
  have hother {a : Action} {s₁ : State} (ha : a ≠ .exec k) (hact : s.act a = some s₁)
      (hlt : s₁.holdup k < s.holdup k) :
      ∃ s', handler.step s a = some s' ∧
        toLex (s'.stepsLeft k, s'.holdup k) < toLex (s.stepsLeft k, s.holdup k) := by
    have hstep : handler.step s a = some s₁.tick.reap := step_of_act hact
    have hle := stepsLeft_step hs k hstep
    rw [if_neg ha, Nat.zero_add] at hle
    rw [← holdup_tick_reap ((holding_of_reach hs).change (change_of_act hact)) k] at hlt
    refine ⟨_, hstep, Prod.Lex.toLex_lt_toLex.mpr ?_⟩
    exact hle.lt_or_eq.imp_right fun he => ⟨he, hlt⟩
  cases hexec : s.exec k with
  | some s₁ =>
    have hstep : handler.step s (.exec k) = some s₁.tick.reap := step_of_exec hk hexec
    have hle := stepsLeft_step hs k hstep
    rw [if_pos rfl] at hle
    exact ⟨.exec k, _, rfl, hstep, Prod.Lex.toLex_lt_toLex.mpr (.inl (by omega))⟩
  | none =>
    rcases blocked_of_exec_eq_none hs hexec with h0 | hblocked
    · exact absurd (.inl h0) hleft
    cases hblocked with
    | pool pc locked =>
      obtain ⟨s', hstep, hlt⟩ := hother (a := .reconnect false) (by simp) rfl
        (holdup_reconnectClosed pc locked)
      exact ⟨.reconnect false, s', rfl, hstep, hlt⟩
    | @queue c id x pc isOpen full =>
      obtain ⟨k', hwrite, hlt⟩ :=
        Connection.exists_write (writeTask_of_queueOpen hs c isOpen) full
      have hc : c < s.connCount := lt_connCount_of_holds hs (k := k) (by rw [pc]; rfl)
      have hact : s.act (.write c) = some (s.setConn c k') := by
        simp only [State.act, State.onConn, if_pos hc, hwrite, Option.map_some]
      obtain ⟨s', hstep, hlt⟩ := hother (a := .write c) (by simp) hact (by
        have hpc : ((s.setConn c k').calls k).pc = .send c id x := pc
        have hself : (s.setConn c k').conns c = k' := Function.update_self ..
        rw [State.holdup, State.holdup, hpc, pc]
        dsimp only
        rw [hself]
        exact hlt)
      exact ⟨.write c, s', trivial, hstep, hlt⟩
    | @answer c id x pc empty => exact absurd (.inr ⟨c, id, x, pc, empty⟩) hleft

/-- **Only the backend keeps a call waiting**: whatever state the others left, some steps of the
call, of the task that refills the pool and of write tasks get it to where it is over or waits for
its reply, without a connection being made and without anything from the backend. -/
theorem settles_of_reach (hs : handler.Reachable s) {k : CallId} (hk : k < s.callCount) :
    ∃ as s', (∀ a ∈ as, Internal k a) ∧ handler.run s as = some s' ∧ Settled s' k := by
  have hrun : ∃ as s', handler.Path (fun _ a => Internal k a) s as s' ∧
      (handler.Reachable s' ∧ k < s'.callCount) ∧ Settled s' k := by
    refine Machine.exists_path_of_rank (P := fun s => handler.Reachable s ∧ k < s.callCount)
      (fun s => toLex (s.stepsLeft k, s.holdup k)) (fun s₁ h₁ hleft => ?_) ⟨hs, hk⟩
    obtain ⟨hs₁, hk₁⟩ := h₁
    obtain ⟨a, s₂, ha, hstep, hlt⟩ := exists_internal_step hs₁ hk₁ hleft
    have hk₂ : k < s₂.callCount := by
      obtain ⟨t, hc, rfl⟩ := step_cases hstep
      exact hk₁.trans_le hc.callCount_le
    exact ⟨[a], s₂, .single ha hstep, ⟨.step hs₁ trivial hstep, hk₂⟩, hlt⟩
  obtain ⟨as, s', hpath, -, hsettled⟩ := hrun
  obtain ⟨has, hrun⟩ := Machine.path_own_iff.mp hpath
  exact ⟨as, s', has, hrun, hsettled⟩

/-- A call that finds the pool locked. -/
theorem settles_of_reach_locked :
    ∃ s, handler.run (State.initial ⟨.router, "host", 1, 1⟩)
        [.reconnect true, .call "eu" true [1, 65]] = some s ∧ (s.exec 0).isNone ∧
      ∃ as s', (∀ a ∈ as, Internal 0 a) ∧ handler.run s as = some s' ∧ Settled s' 0 := by
  have hrun : (handler.run (State.initial ⟨.router, "host", 1, 1⟩)
      [.reconnect true, .call "eu" true [1, 65]]).map
        (fun s => ((s.exec 0).isNone, s.callCount)) = some (true, 1) := by decide
  obtain ⟨s, hs, hstate⟩ := Option.map_eq_some_iff.mp hrun
  obtain ⟨hnone, hcount⟩ := Prod.mk.inj hstate
  have hr : handler.Reachable s := Machine.Reach.run (.init ⟨_, rfl⟩) (fun _ _ _ => trivial) hs
  exact ⟨s, hs, hnone, settles_of_reach hr (by rw [hcount]; decide)⟩

end RzProxy
