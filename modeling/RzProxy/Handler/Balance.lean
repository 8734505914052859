import RzProxy.Handler.Pool
import RzProxy.Handler.RoundRobin
import RzProxy.Library.Turns

/-!
# The load of the connections

Calls pick their connections while others do other things, and each finds the cursor where the last
one left it. While no connection is opened or closed, the open ones take turns over all calls,
whoever makes them, so that none is picked two times more than another.

## Main definitions

* `picks`: the connections that are picked in a run
* `State.openConns`: the open connections, from the cursor on

## Main results

* `picks_eq_turns`: what is picked are the turns of the open connections
* `balanced_of_run`: the load is balanced
-/

namespace RzProxy

open Machines Queues

variable {s s' : State} {a : Action} {c : ConnId}

/-- The connection that a call is about to look at again. -/
def Pc.checks : Pc → Option ConnId
  | .check c => some c
  | _ => none

/-- The connection that a step picked for a call. -/
def State.picked (s : State) : Action → Option ConnId
  | .exec k => (s.calls k).pc.checks
  | _ => none

/-- The connections that are picked in a run, in turn. -/
def picks (s : State) : List Action → List ConnId
  | [] => []
  | a :: as =>
    match handler.step s a with
    | none => []
    | some s' => (s'.picked a).toList ++ picks s' as

/-- The open connections of the pool, from the cursor on. -/
def State.openConns (s : State) : List ConnId :=
  (s.slots.rotate s.nextConn).filterMap (openIn s.isClosed)

/-! ## The cursor -/

/-- A call that picks a connection takes the first open one from the cursor, which goes to the
back. -/
theorem turn_of_nextConnection {isClosed : ConnId → Bool} {slots : List (Option ConnId)}
    {idx idx' n : ℕ} {found : Option ConnId} (hcursor : Cursor n idx) (hn : slots.length = n)
    (h : nextConnection isClosed slots idx = .ok (found, idx')) :
    Turn found ((slots.rotate idx).filterMap (openIn isClosed))
      ((slots.rotate idx').filterMap (openIn isClosed)) := by
  subst hn
  rcases Nat.eq_zero_or_pos slots.length with hempty | hpos
  · obtain rfl := List.eq_nil_of_length_eq_zero hempty
    cases h
    exact .nobody _
  · have hidx := hcursor.lt hpos
    cases hopen : (slots.rotate idx).filterMap (openIn isClosed) with
    | nil =>
      have hnone : ∀ slot ∈ slots, openIn isClosed slot = none := fun slot hslot =>
        List.filterMap_eq_nil_iff.mp hopen slot (List.mem_rotate.mpr hslot)
      obtain ⟨i, -, hscan⟩ := scanSlots_of_forall (n := slots.length) hnone hidx
      rw [nextConnection, hscan] at h
      cases h
      rw [List.filterMap_eq_nil_iff.mpr fun slot hslot => hnone slot (List.mem_rotate.mp hslot)]
      exact .nobody []
    | cons c cs =>
      obtain ⟨skipped, slot, rest, hrotate, hskipped, hslot, hrest⟩ :=
        List.filterMap_eq_cons_iff.mp hopen
      have hlen := congrArg List.length hrotate
      rw [List.length_rotate, List.length_append, List.length_cons] at hlen
      obtain ⟨i, -, hscan, hback⟩ := scanSlots_of_found (n := slots.length) hrotate hidx hskipped
        hslot (by omega)
      rw [nextConnection, hscan] at h
      cases h
      rw [hback, List.filterMap_append, List.filterMap_append, hrest,
        List.filterMap_eq_nil_iff.mpr hskipped, List.append_nil, List.filterMap_cons_some hslot,
        List.filterMap_nil]
      exact .first c cs

/-- A call that fails an attempt looks at no connection. -/
theorem checks_retry (s : State) (k : CallId) (held : Option ConnId) (error : RZError) :
    ((s.retry k held error).calls k).pc.checks = none := by
  rw [State.retry, calls_setCall]
  dsimp only
  split_ifs
  · rfl
  · rfl

/-- A call that is not at `pick` leaves the cursor. -/
theorem picked_of_exec {k : CallId} (h : s.exec k = some s') (hpc : (s.calls k).pc ≠ .pick) :
    s'.picked (.exec k) = none ∧ s'.nextConn = s.nextConn := by
  have hset (t : State) (pc : Pc) (hchecks : pc.checks = none) :
      (t.setPc k pc).picked (.exec k) = none := by
    rw [State.picked, pc_setPc, hchecks]
  cases hp : (s.calls k).pc with
  | pick => exact absurd hp hpc
  | check c =>
    obtain rfl := by simpa [State.exec, hp] using h
    split_ifs
    · exact ⟨checks_retry .., rfl⟩
    · exact ⟨hset _ _ rfl, rfl⟩
  | draw c =>
    obtain rfl := by simpa [State.exec, hp] using h
    refine ⟨?_, rfl⟩
    rw [State.picked, pc_drawCorrId]
    rfl
  | store c corrId x | sleep held =>
    obtain rfl := by simpa [State.exec, hp] using h
    exact ⟨hset _ _ rfl, rfl⟩
  | send c corrId x =>
    simp only [State.exec, hp] at h
    obtain ⟨t, ht, rfl⟩ := Option.map_eq_some_iff.mp h
    refine ⟨hset _ _ rfl, ?_⟩
    simp only [State.sendFrame] at ht
    split_ifs at ht
    · obtain ⟨conn, -, rfl⟩ := Option.map_eq_some_iff.mp ht
      rfl
    · obtain rfl := Option.some.inj ht
      rfl
  | wait c corrId x =>
    cases ho : (s.chans x).oneshot with
    | empty => simp [State.exec, hp, ho] at h
    | sent b =>
      obtain rfl := by simpa [State.exec, hp, ho] using h
      exact ⟨hset _ _ rfl, rfl⟩
    | closed =>
      simp only [State.exec, hp, ho, Option.some.injEq] at h
      subst h
      exact ⟨checks_retry .., rfl⟩
  | finished r | dropped => simp [State.exec, hp] at h

/-- Only a call that picks a connection moves the cursor. -/
theorem picked_of_act (hact : s.act a = some s') :
    (s'.picked a = none ∧ s'.nextConn = s.nextConn) ∨
      nextConnection s.isClosed s.slots s.nextConn = .ok (s'.picked a, s'.nextConn) := by
  by_cases ha : ∃ k, a = .exec k
  · obtain ⟨k, rfl⟩ := ha
    simp only [State.act, Option.ite_none_right_eq_some] at hact
    by_cases hpc : (s.calls k).pc = .pick
    · refine .inr ?_
      obtain ⟨idx, ⟨hnext, rfl⟩ | ⟨c, hnext, rfl⟩⟩ := exec_of_pick hpc hact.2
      · rw [State.picked, checks_retry]
        exact hnext
      · rw [State.picked, pc_setPc]
        exact hnext
    · exact .inl (picked_of_exec hact.2 hpc)
  · have hnone : s'.picked a = none := by
      cases a with
      | exec k => exact absurd ⟨k, rfl⟩ ha
      | _ => rfl
    refine .inl ⟨hnone, ?_⟩
    cases change_of_act hact with
    | move | draw | store | queue | sendFailed | answered | unanswered => exact absurd ⟨_, rfl⟩ ha
    | _ => rfl

/-! ## The open connections -/

theorem mem_openConns : c ∈ s.openConns ↔ some c ∈ s.slots ∧ s.isClosed c = false := by
  rw [State.openConns, List.mem_filterMap]
  constructor
  · rintro ⟨slot, hslot, hopen⟩
    obtain ⟨rfl, hc⟩ := Option.filter_eq_some_iff.mp hopen
    exact ⟨List.mem_rotate.mp hslot, by simpa using hc⟩
  · rintro ⟨hslot, hc⟩
    refine ⟨some c, List.mem_rotate.mpr hslot, Option.filter_eq_some_iff.mpr ⟨rfl, ?_⟩⟩
    rw [hc]
    rfl

theorem nodup_openConns (hs : handler.Reachable s) : s.openConns.Nodup := by
  have hrotated : s.openConns ~r s.slots.filterMap (openIn s.isClosed) := filterMap_rotate_isRotated
  rw [hrotated.perm.nodup_iff, List.Nodup, List.pairwise_filterMap, List.pairwise_iff_getElem]
  intro i j hi hj hij c hc d hd
  rintro rfl
  obtain ⟨hci, -⟩ := Option.filter_eq_some_iff.mp hc
  obtain ⟨hcj, -⟩ := Option.filter_eq_some_iff.mp hd
  have hsame := (pool_of_reach hs).unique (List.getElem?_eq_some_iff.mpr ⟨hi, hci⟩)
    (List.getElem?_eq_some_iff.mpr ⟨hj, hcj⟩)
  omega

/-- Where no connection is made, the slots stay as they are. -/
theorem slots_of_step (hstep : handler.step s a = some s') (hcount : s'.connCount = s.connCount) :
    s'.slots = s.slots := by
  cases refills_of_step hstep with
  | same slots => exact slots
  | connect _ _ _ connCount => omega

/-- A step that neither opens nor closes a connection is a turn of the open ones. -/
theorem turn_of_step (hs : handler.Reachable s) (hstep : handler.step s a = some s')
    (hcount : s'.connCount = s.connCount)
    (hclosed : ∀ c, some c ∈ s.slots → s'.isClosed c = true → s.isClosed c = true) :
    Turn (s'.picked a) s.openConns s'.openConns := by
  have hopen : s'.openConns = (s.slots.rotate s'.nextConn).filterMap (openIn s.isClosed) := by
    rw [State.openConns, slots_of_step hstep hcount]
    refine List.filterMap_congr fun slot hslot => ?_
    cases slot with
    | none => rfl
    | some c =>
      have hsame : s'.isClosed c = s.isClosed c := by
        rw [Bool.eq_iff_iff]
        exact ⟨hclosed c (List.mem_rotate.mp hslot), isClosed_of_step hstep⟩
      rw [openIn, openIn, Option.filter_some, Option.filter_some, hsame]
  rw [hopen, State.openConns]
  obtain ⟨s₁, hact, rfl⟩ := Option.map_eq_some_iff.mp hstep
  have hpicked : s₁.tick.reap.picked a = s₁.picked a := by
    cases a <;> rfl
  rw [hpicked]
  show Turn _ _ ((s.slots.rotate s₁.nextConn).filterMap (openIn s.isClosed))
  rcases picked_of_act hact with ⟨hnone, hnext⟩ | hnext
  · rw [hnone, hnext]
    exact .nobody _
  · exact turn_of_nextConnection (cursor_of_reachable hs) rfl hnext

/-! ## Runs -/

theorem connCount_le_of_path {as : List Action} (h : handler.Path (fun _ _ => True) s as s') :
    s.connCount ≤ s'.connCount := by
  induction h with
  | nil => exact le_refl _
  | cons _ hstep _ ih =>
    obtain ⟨s₁, hc, rfl⟩ := step_cases hstep
    exact hc.connCount_le.trans ih

/-- **What is picked are the turns of the open connections**, in a run in which none is opened and
none is closed. -/
theorem picks_eq_turns {as : List Action} (hs : handler.Reachable s)
    (hrun : handler.run s as = some s') (hcount : s'.connCount = s.connCount)
    (hclosed : ∀ c, some c ∈ s.slots → s'.isClosed c = true → s.isClosed c = true) :
    picks s as = turns (picks s as).length s.openConns := by
  induction as generalizing s with
  | nil => rfl
  | cons a as ih =>
    obtain ⟨s₁, hstep, hrun⟩ := Option.bind_eq_some_iff.mp hrun
    have hpath := Machine.path_iff_run.mpr hrun
    -- what is there at both ends was there all the time
    have hcount₁ : s₁.connCount = s.connCount := by
      have hle := connCount_le_of_path (Machine.Path.single trivial hstep)
      have hle' := connCount_le_of_path hpath
      omega
    have hclosed₁ : ∀ c, some c ∈ s.slots → s₁.isClosed c = true → s.isClosed c = true :=
      fun c hc hcclosed => hclosed c hc (isClosed_of_path hpath hcclosed)
    have hrest := ih (.step hs trivial hstep) hrun (hcount.trans hcount₁.symm)
      fun c hc hcclosed => by
        rw [slots_of_step hstep hcount₁] at hc
        exact isClosed_of_step hstep (hclosed c hc hcclosed)
    simp only [picks, hstep]
    exact (turn_of_step hs hstep hcount₁ hclosed₁).turns_eq hrest

/-- **The load is balanced**: as long as no connection is opened or closed, calls pick open
connections only, and none of these two times more than another, in whatever order the steps of all
parties come. -/
theorem balanced_of_run {as : List Action} (hs : handler.Reachable s)
    (hrun : handler.run s as = some s') (hcount : s'.connCount = s.connCount)
    (hclosed : ∀ c, some c ∈ s.slots → s'.isClosed c = true → s.isClosed c = true) :
    (∀ c ∈ picks s as, some c ∈ s.slots ∧ s.isClosed c = false) ∧
      ∀ c d, some c ∈ s.slots → s.isClosed c = false → some d ∈ s.slots → s.isClosed d = false →
        (picks s as).count c ≤ (picks s as).count d + 1 := by
  have hturns := picks_eq_turns hs hrun hcount hclosed
  refine ⟨fun c hc => ?_, fun c d hc hcopen hd hdopen => ?_⟩
  · rw [hturns] at hc
    exact mem_openConns.mp (mem_of_mem_turns hc)
  · rw [hturns]
    exact count_turns_le _ (nodup_openConns hs) (mem_openConns.mpr ⟨hc, hcopen⟩)
      (mem_openConns.mpr ⟨hd, hdopen⟩)

/-- Three calls on two connections. -/
theorem balanced_of_run_three_calls :
    ∃ s as s', handler.run (State.initial ⟨.router, "host", 2, 1⟩)
        (List.replicate 4 (.reconnect true)) = some s ∧
      as = [.call "eu" true [1, 65], .call "eu" true [1, 66], .exec 1, .exec 1,
        .call "eu" true [1, 67], .exec 0, .exec 2] ∧
      handler.run s as = some s' ∧ picks s as = [0, 1, 0] ∧
      (picks s as).count 0 ≤ (picks s as).count 1 + 1 := by
  have hpool : (handler.run (State.initial ⟨.router, "host", 2, 1⟩)
      (List.replicate 4 (.reconnect true))).map (fun s =>
        (s.connCount, s.slots, s.isClosed 0, s.isClosed 1)) =
      some (2, [some 0, some 1], false, false) := by decide
  have hrun : (handler.run (State.initial ⟨.router, "host", 2, 1⟩)
      (List.replicate 4 (.reconnect true))).map (fun s =>
        ((handler.run s [.call "eu" true [1, 65], .call "eu" true [1, 66], .exec 1, .exec 1,
          .call "eu" true [1, 67], .exec 0, .exec 2]).map fun s' =>
            (s'.connCount, s'.isClosed 0, s'.isClosed 1),
          picks s [.call "eu" true [1, 65], .call "eu" true [1, 66], .exec 1, .exec 1,
            .call "eu" true [1, 67], .exec 0, .exec 2])) =
      some (some (2, false, false), [0, 1, 0]) := by decide
  obtain ⟨s, hs, hstate⟩ := Option.map_eq_some_iff.mp hpool
  simp only [Prod.mk.injEq] at hstate
  obtain ⟨hcount, hslots, hopen₀, hopen₁⟩ := hstate
  rw [hs, Option.map_some, Option.some.injEq, Prod.mk.injEq] at hrun
  obtain ⟨hrun', hpicks⟩ := hrun
  obtain ⟨s', hs', hstate'⟩ := Option.map_eq_some_iff.mp hrun'
  simp only [Prod.mk.injEq] at hstate'
  obtain ⟨hcount', hopen₀', hopen₁'⟩ := hstate'
  have hr : handler.Reachable s := Machine.Reach.run (.init ⟨_, rfl⟩) (fun _ _ _ => trivial) hs
  have hclosed : ∀ c, some c ∈ s.slots → s'.isClosed c = true → s.isClosed c = true := by
    intro c hc hclosed
    rw [hslots] at hc
    obtain rfl | rfl : c = 0 ∨ c = 1 := by simpa using hc
    · rw [hopen₀'] at hclosed
      cases hclosed
    · rw [hopen₁'] at hclosed
      cases hclosed
  refine ⟨s, _, s', hs, rfl, hs', hpicks, ?_⟩
  exact (balanced_of_run hr hs' (hcount'.trans hcount.symm) hclosed).2 0 1 (by simp [hslots]) hopen₀
    (by simp [hslots]) hopen₁

end RzProxy
