import RzProxy.Handler.Wire
import RzProxy.Library.Simulation

/-!
# The queue of a connection

The frames of a connection are written in the order in which they were queued, and none is left out
before one that is written. What is lost is lost at the end: the write task that met an error writes
nothing any more.

## Main definitions

* `Follows`: how the frames of a connection go on
* `InRoom`: the queue keeps to its capacity

## Main results

* `follows_of_run`: how they go on in a run
* `written_of_run`: frames are written in the order of the queue
-/

namespace RzProxy

open ByteString Streaming Machines

variable {s s' : State} {a : Action} {m : ℕ} {c : ConnId} {frame : QueuedFrame}

namespace Connection

variable {k k' k₀ : Connection}

/-- All frames that there were are written or queued, or the write task will write no more than it
has, which are the first of them. -/
def Follows (k₀ k : Connection) : Prop :=
  k₀.sent <+: k.sent ∨ k.writeTask ≠ .running ∧ k.written <+: k₀.sent

theorem Follows.refl (k : Connection) : Follows k k := .inl (List.prefix_refl _)

theorem Follows.congr (h : k₀.Follows k) (hsent : k'.sent = k.sent)
    (htask : k'.writeTask = k.writeTask) (hwritten : k'.written = k.written) : k₀.Follows k' := by
  rw [Follows, hsent, htask, hwritten]
  exact h

/-- A frame that is queued is the last one. -/
theorem Follows.queue (h : k₀.Follows k) (frame : QueuedFrame) (hsent : k'.sent = k.sent ++ [frame])
    (htask : k'.writeTask = k.writeTask) (hwritten : k'.written = k.written) : k₀.Follows k' := by
  rw [Follows, hsent, htask, hwritten]
  exact h.imp_left fun h => h.trans (List.prefix_append _ _)

/-- The write task stops, and what was written is the first of what was sent. -/
theorem Follows.stop (h : k₀.Follows k) (htask : k'.writeTask ≠ .running)
    (hwritten : k'.written = k.written) (hsent : k.written <+: k'.sent) : k₀.Follows k' := by
  have hcomparable : k₀.sent <+: k.written ∨ k.written <+: k₀.sent := by
    rcases h with h | ⟨-, h⟩
    · exact List.prefix_or_prefix_of_prefix h (List.prefix_append _ _)
    · exact .inr h
  rcases hcomparable with hle | hle
  · exact .inl (hle.trans hsent)
  · exact .inr ⟨htask, hwritten ▸ hle⟩

theorem Follows.step (h : k₀.Follows k) (hl : k.Local m c a k') : k₀.Follows k' := by
  cases hl with
  | write task next =>
    refine h.imp (fun h => ?_) fun h => absurd task h.1
    simpa [sent, next] using h
  | writeError task next =>
    rename_i whole frame queue
    cases whole
    · refine h.stop (by simp) rfl ?_
      exact List.prefix_append _ _
    · refine .inl ((h.resolve_right fun h => h.1 task).trans ?_)
      simp [sent, next]
  | writeClosed task =>
    exact h.imp id fun h => ⟨by simp, h.2⟩
  | writeDone task =>
    refine h.stop (by simp) rfl ?_
    exact List.prefix_append _ _
  | keepaliveSend => exact h.queue .keepalive (List.append_assoc ..).symm rfl rfl
  | _ => exact h.congr rfl rfl rfl

theorem Follows.move (h : k₀.Follows k) (hm : k.Moves m c a k') : k₀.Follows k' := by
  cases hm with
  | alone hl => exact h.step hl
  | push push =>
    rw [Connection.push_eq push]
    exact h.queue _ (List.append_assoc ..).symm rfl rfl
  | draw | register | refuse | take => exact h.congr rfl rfl rfl

/-- The queue keeps to its capacity. -/
def InRoom (m : ℕ) (k : Connection) : Prop := k.queue.length ≤ max m 2048

theorem InRoom.push (h : k.push m frame = some k') : k'.InRoom m := by
  rw [Connection.push] at h
  split_ifs at h with hlt
  obtain rfl := Option.some.inj h
  rw [InRoom, List.length_append, List.length_singleton]
  exact hlt

theorem InRoom.of_le (h : k.InRoom m) (hle : k'.queue.length ≤ k.queue.length) : k'.InRoom m :=
  hle.trans h

theorem InRoom.keepaliveTick (h : k.InRoom m) (hk : k.keepaliveTick m = some k') : k'.InRoom m := by
  unfold Connection.keepaliveTick at hk
  split at hk
  · split_ifs at hk <;> obtain rfl := Option.some.inj hk <;> exact h
  · split_ifs at hk
    · obtain ⟨k₁, hpush, rfl⟩ := Option.map_eq_some_iff.mp hk
      exact (InRoom.push hpush : k₁.InRoom m)
    · obtain rfl := Option.some.inj hk
      exact h
  · cases hk

theorem InRoom.move (h : k.InRoom m) (hm : k.Moves m c a k') (ha : a ≠ .keepalive c) :
    k'.InRoom m := by
  cases hm with
  | push hpush => exact .push hpush
  | alone hl =>
    cases hl with
    | write _ next | writeError _ next => exact h.of_le (by simp [next])
    | writeDone => exact h.of_le (Nat.zero_le _)
    | keepaliveSend => exact absurd rfl ha
    | _ => exact h
  | draw | register | refuse | take => exact h

end Connection

/-! ## Runs -/

theorem Change.follows (h : Change s a s') {k₀ : Connection} (hk : k₀.Follows (s.conns c)) :
    k₀.Follows (s'.conns c) := by
  rcases h.conns c with he | hm
  · rwa [he]
  · exact hk.move hm

theorem follows_of_run {as : List Action} (hrun : handler.run s as = some s') (c : ConnId) :
    (s.conns c).Follows (s'.conns c) := by
  have hpath := Machine.path_iff_run.mpr hrun
  clear hrun
  suffices h : ∀ k₀ : Connection, k₀.Follows (s.conns c) → k₀.Follows (s'.conns c) from
    h _ (.refl _)
  induction hpath with
  | nil => exact fun _ hk => hk
  | cons _ hstep _ ih =>
    intro k₀ hk
    obtain ⟨s₁, hc, rfl⟩ := step_cases hstep
    refine ih k₀ ?_
    have h₁ : k₀.Follows (s₁.tick.conns c) := hc.follows hk
    rw [conns_reap]
    split_ifs
    · exact h₁.congr rfl rfl rfl
    · exact h₁

theorem inRoom_of_reach (hs : handler.Reachable s) (c : ConnId) :
    (s.conns c).InRoom s.cfg.maxActiveConns := by
  refine hs.invariant (P := fun s => ∀ c, (s.conns c).InRoom s.cfg.maxActiveConns) ?_
    (fun s a s' _ h _ hstep => ?_) c
  · rintro s ⟨cfg, rfl⟩ c
    exact Nat.zero_le _
  · obtain ⟨s₁, hact, rfl⟩ := Option.map_eq_some_iff.mp hstep
    have hc := change_of_act hact
    intro c
    have h₁ : (s₁.conns c).InRoom s.cfg.maxActiveConns := by
      rcases hc.conns c with he | hm
      · rw [he]
        exact h c
      · by_cases ha : a = .keepalive c
        · subst ha
          obtain ⟨-, hmap⟩ := Option.ite_none_right_eq_some.mp hact
          obtain ⟨k, hk, rfl⟩ := Option.map_eq_some_iff.mp hmap
          rw [show (s.setConn c k).conns c = k from Function.update_self ..]
          exact (h c).keepaliveTick hk
        · exact (h c).move hm ha
    rw [conns_reap, show s₁.tick.reap.cfg = s.cfg from hc.cfg]
    split_ifs <;> exact h₁

/-- **First in, first out**: what is written after a run is the first of what was written or queued
before it, or all of that and more. As long as the write task is in its loop nothing is lost, and
the queue never holds more than its capacity. -/
theorem written_of_run (hs : handler.Reachable s) {as : List Action}
    (hrun : handler.run s as = some s') (c : ConnId) :
    ((s'.conns c).written <+: (s.conns c).sent ∨ (s.conns c).sent <+: (s'.conns c).written) ∧
      ((s'.conns c).writeTask = .running → (s.conns c).sent <+: (s'.conns c).sent) ∧
      (s'.conns c).queue.length ≤ max s'.cfg.maxActiveConns 2048 := by
  have hroom := inRoom_of_reach (hs.path (Machine.path_iff_run.mpr hrun)) c
  rcases follows_of_run hrun c with hle | ⟨htask, hle⟩
  · have hcomparable := List.prefix_or_prefix_of_prefix (List.prefix_append _ _) hle
    exact ⟨hcomparable, fun _ => hle, hroom⟩
  · exact ⟨.inl hle, fun hrunning => absurd hrunning htask, hroom⟩

/-- A keepalive that is queued between two requests is written between them. -/
theorem written_of_run_keepalive :
    ∃ s s', handler.run (State.initial ⟨.router, "host", 1, 1⟩)
        [.reconnect true, .reconnect true, .reconnect true, .call "eu" false [1, 65],
          .call "us" true [1, 66], .exec 0, .exec 0, .exec 0, .exec 0, .exec 0, .keepalive 0,
          .keepalive 0] = some s ∧
      handler.run s [.exec 1, .exec 1, .exec 1, .exec 1, .exec 1, .write 0, .write 0, .write 0] =
        some s' ∧
      (s.conns 0).sent.length = 2 ∧ (s'.conns 0).written.length = 3 ∧
      (s.conns 0).sent <+: (s'.conns 0).written := by
  have hrun : (handler.run (State.initial ⟨.router, "host", 1, 1⟩)
      [.reconnect true, .reconnect true, .reconnect true, .call "eu" false [1, 65],
        .call "us" true [1, 66], .exec 0, .exec 0, .exec 0, .exec 0, .exec 0, .keepalive 0,
        .keepalive 0]).map (fun s => ((s.conns 0).sent.length, (handler.run s [.exec 1, .exec 1,
          .exec 1, .exec 1, .exec 1, .write 0, .write 0, .write 0]).map
            fun s' => (s'.conns 0).written.length)) = some (2, some 3) := by decide
  obtain ⟨s, hs, hstate⟩ := Option.map_eq_some_iff.mp hrun
  obtain ⟨hsent, hrun'⟩ := Prod.mk.inj hstate
  obtain ⟨s', hs', hwritten⟩ := Option.map_eq_some_iff.mp hrun'
  have hr : handler.Reachable s := Machine.Reach.run (.init ⟨_, rfl⟩) (fun _ _ _ => trivial) hs
  refine ⟨s, s', hs, hs', hsent, hwritten, ?_⟩
  refine (written_of_run hr hs' 0).1.resolve_left fun hle => ?_
  have hlen := hle.length_le
  omega

end RzProxy
