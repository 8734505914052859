import RzProxy.Handler.Release
import RzProxy.Handler.Wire
import RzProxy.Library.Simulation
import Mathlib.Data.List.Perm.Subperm

/-!
# The pool

The task that refills the pool puts a new connection only where there is none, or one that is
closed. So an open connection is never lost: it is in one slot of the pool, and stays there until it
is closed.

## Main definitions

* `Pool`: every open connection is in a slot of its own

## Main results

* `pool_of_reach`: it holds in every reachable state
* `slots_of_run`: the slots of a run
-/

namespace RzProxy

open ByteString Streaming Machines

variable {s s' : State} {a : Action} {c : ConnId}

/-! ## Steps -/

theorem Connection.Local.closed {m : ℕ} {k k' : Connection} (h : k.Local m c a k')
    (hk : k.closed = true) : k'.closed = true := by
  cases h with
  | close | readClosed | writeClosed => rfl
  | _ => exact hk

/-- A connection that is closed stays closed. -/
theorem Change.isClosed (h : Change s a s') (hc : s.isClosed c = true) : s'.isClosed c = true := by
  rcases h.conns c with he | hm
  · rw [State.isClosed, he]
    exact hc
  · have hclosed : (s.conns c).closed = true := hc
    rw [State.isClosed]
    generalize s'.conns c = k' at hm
    cases hm with
    | alone hl => exact hl.closed hclosed
    | push push =>
      rw [Connection.push_eq push]
      exact hclosed
    | draw | register | refuse | take => exact hclosed

theorem isClosed_reap (s : State) (c : ConnId) : s.reap.isClosed c = s.isClosed c := by
  rw [State.isClosed, conns_reap]
  split_ifs <;> rfl

theorem isClosed_of_step (hstep : handler.step s a = some s') (hc : s.isClosed c = true) :
    s'.isClosed c = true := by
  obtain ⟨s₁, h, rfl⟩ := step_cases hstep
  rw [isClosed_reap]
  exact h.isClosed hc

/-- What a step does to the pool: nothing, or it fills a slot that had no open connection. -/
inductive Refills (s s' : State) : Prop
  | same (slots : s'.slots = s.slots) (connCount : s'.connCount = s.connCount)
  | connect {i : ℕ} {slot : Option ConnId} (slot_eq : s.slots[i]? = some slot)
      (closed : ∀ c, slot = some c → s.isClosed c = true)
      (slots : s'.slots = s.slots.set i (some s.connCount))
      (connCount : s'.connCount = s.connCount + 1)

theorem refills_reconnectClosed (s : State) (connected : Bool) :
    Refills s (s.reconnectClosed connected) := by
  unfold State.reconnectClosed
  split
  · exact .same rfl rfl
  next i hi =>
    split
    · exact .same rfl rfl
    next slot hslot =>
      dsimp only
      split_ifs with hconnect
      · simp only [Bool.and_eq_true] at hconnect
        refine .connect hslot (fun c hc => ?_) rfl rfl
        subst hc
        exact hconnect.1
      · exact .same rfl rfl

theorem refills_of_step (hstep : handler.step s a = some s') : Refills s s' := by
  obtain ⟨s₁, hact, rfl⟩ := Option.map_eq_some_iff.mp hstep
  suffices h : Refills s s₁ by
    cases h with
    | same slots connCount => exact .same slots connCount
    | connect slot_eq closed slots connCount => exact .connect slot_eq closed slots connCount
  by_cases ha : ∃ connected, a = .reconnect connected
  · obtain ⟨connected, rfl⟩ := ha
    obtain rfl := Option.some.inj hact
    exact refills_reconnectClosed s connected
  · have hne : ∀ connected, a ≠ .reconnect connected := fun b he => ha ⟨b, he⟩
    have hc := change_of_act hact
    refine .same (hc.slots_eq hne) ?_
    cases hc with
    | connect connected => exact absurd rfl (hne connected)
    | _ => rfl

/-! ## Slots and connections -/

/-- Every open connection is in a slot of its own. -/
structure Pool (s : State) : Prop where
  made : ∀ c, some c ∈ s.slots → c < s.connCount
  unique : ∀ {i j : ℕ} {c}, s.slots[i]? = some (some c) → s.slots[j]? = some (some c) → i = j
  kept : ∀ c < s.connCount, s.isClosed c = false → some c ∈ s.slots

theorem Pool.step (h : Pool s) (hstep : handler.step s a = some s') : Pool s' := by
  have hopen {c : ConnId} (hc : s'.isClosed c = false) : s.isClosed c = false := by
    by_contra hne
    rw [isClosed_of_step hstep (Bool.not_eq_false _ ▸ hne)] at hc
    cases hc
  cases refills_of_step hstep with
  | same slots connCount =>
    refine ⟨?_, ?_, ?_⟩ <;> rw [slots]
    · rw [connCount]
      exact h.made
    · exact h.unique
    · rw [connCount]
      exact fun c hc ho => h.kept c hc (hopen ho)
  | @connect i slot slot_eq closed slots connCount =>
    have hnew {j : ℕ} (hj : s.slots[j]? = some (some s.connCount)) : False :=
      Nat.lt_irrefl _ (h.made _ (List.mem_of_getElem? hj))
    refine ⟨fun c hc => ?_, fun {j j' c} hj hj' => ?_, fun c hc ho => ?_⟩
    · rw [slots] at hc
      rw [connCount]
      rcases List.mem_or_eq_of_mem_set hc with hc | hc
      · exact Nat.lt_succ_of_lt (h.made c hc)
      · exact Option.some.inj hc ▸ Nat.lt_succ_self _
    · rw [slots, List.getElem?_set] at hj hj'
      split_ifs at hj hj' with hij hlt hij' hij'
      · exact hij.symm.trans hij'
      · obtain rfl := Option.some.inj (Option.some.inj hj)
        exact (hnew hj').elim
      · obtain rfl := Option.some.inj (Option.some.inj hj')
        exact (hnew hj).elim
      · exact h.unique hj hj'
    · rw [slots]
      rw [connCount] at hc
      rcases Nat.lt_succ_iff_lt_or_eq.mp hc with hc | rfl
      · obtain ⟨j, hj⟩ := List.mem_iff_getElem?.mp (h.kept c hc (hopen ho))
        have hne : i ≠ j := by
          rintro rfl
          have hclosed := closed c (Option.some.inj (slot_eq.symm.trans hj))
          rw [hopen ho] at hclosed
          cases hclosed
        refine List.mem_of_getElem? (i := j) ?_
        rw [List.getElem?_set_ne hne]
        exact hj
      · exact List.mem_set (List.getElem?_eq_some_iff.mp slot_eq).1 _

theorem pool_of_reach (hs : handler.Reachable s) : Pool s := by
  refine hs.invariant (P := Pool) ?_ fun s a s' _ h _ hstep => h.step hstep
  rintro s ⟨cfg, rfl⟩
  refine ⟨fun c hc => ?_, fun {i j c} hi => ?_, nofun⟩
  · cases List.eq_of_mem_replicate hc
  · cases List.eq_of_mem_replicate (List.mem_of_getElem? hi)

theorem length_slots_of_reach (hs : handler.Reachable s) : s.slots.length = s.cfg.connPerNode := by
  refine hs.invariant (P := fun s => s.slots.length = s.cfg.connPerNode) ?_
    fun s a s' _ h _ hstep => ?_
  · rintro s ⟨cfg, rfl⟩
    exact List.length_replicate
  · have hcfg : s'.cfg = s.cfg := by
      obtain ⟨s₁, hc, rfl⟩ := step_cases hstep
      exact hc.cfg
    rw [hcfg, ← h]
    cases refills_of_step hstep with
    | same slots => rw [slots]
    | connect _ _ slots => rw [slots, List.length_set]

/-- There are no more open connections than slots. -/
theorem Pool.length_open_le (h : Pool s) :
    ((List.range s.connCount).filter fun c => !s.isClosed c).length ≤ s.slots.length := by
  have hsub : ((List.range s.connCount).filter fun c => !s.isClosed c) ⊆ s.slots.filterMap id := by
    intro c hc
    obtain ⟨hlt, hopen⟩ := List.mem_filter.mp hc
    have hclosed : s.isClosed c = false := by simpa using hopen
    exact List.mem_filterMap.mpr ⟨_, h.kept c (List.mem_range.mp hlt) hclosed, rfl⟩
  calc ((List.range s.connCount).filter fun c => !s.isClosed c).length
      ≤ (s.slots.filterMap id).length :=
        (List.Nodup.subperm (List.nodup_range.filter _) hsub).length_le
    _ ≤ s.slots.length := List.length_filterMap_le _ _

/-! ## Runs -/

theorem isClosed_of_path {as : List Action} (h : handler.Path (fun _ _ => True) s as s')
    (hc : s.isClosed c = true) : s'.isClosed c = true := by
  induction h with
  | nil => exact hc
  | cons _ hstep _ ih => exact ih (isClosed_of_step hstep hc)

/-- A slot keeps its connection while that is open. -/
theorem getElem?_slots_of_path {as : List Action} (h : handler.Path (fun _ _ => True) s as s')
    {i : ℕ} (hi : s.slots[i]? = some (some c)) (hopen : s'.isClosed c = false) :
    s'.slots[i]? = some (some c) := by
  induction h with
  | nil => exact hi
  | cons hok hstep hpath ih =>
    refine ih ?_ hopen
    cases refills_of_step hstep with
    | same slots =>
      rw [slots]
      exact hi
    | @connect j slot slot_eq closed slots =>
      rw [slots, List.getElem?_set_ne]
      · exact hi
      · rintro rfl
        rw [isClosed_of_path (.cons hok hstep hpath)
          (closed c (Option.some.inj (slot_eq.symm.trans hi)))] at hopen
        cases hopen

/-- **An open connection is never lost**: in a run it is in one slot of the pool, where it stays
until it is closed, so that there are never more open connections than slots. -/
theorem slots_of_run (hs : handler.Reachable s) {as : List Action}
    (hrun : handler.run s as = some s') :
    (∀ c < s'.connCount, s'.isClosed c = false → ∃! i : ℕ, s'.slots[i]? = some (some c)) ∧
      (∀ (i : ℕ) c, s.slots[i]? = some (some c) → s'.isClosed c = false →
        s'.slots[i]? = some (some c)) ∧
      s'.slots.length = s'.cfg.connPerNode ∧
      ((List.range s'.connCount).filter fun c => !s'.isClosed c).length ≤ s'.cfg.connPerNode := by
  have hpath := Machine.path_iff_run.mpr hrun
  have hs' := hs.path hpath
  have hpool := pool_of_reach hs'
  have hlen := length_slots_of_reach hs'
  refine ⟨fun c hc hopen => ?_, fun i c hi hopen => getElem?_slots_of_path hpath hi hopen, hlen,
    hlen ▸ hpool.length_open_le⟩
  obtain ⟨i, hi⟩ := List.mem_iff_getElem?.mp (hpool.kept c hc hopen)
  exact ⟨i, hi, fun j hj => hpool.unique hj hi⟩

/-- The first of two connections is closed, and replaced. -/
theorem slots_of_run_close :
    ∃ s s', handler.run (State.initial ⟨.router, "host", 2, 1⟩)
        [.reconnect true, .reconnect true, .reconnect true, .reconnect true] = some s ∧
      handler.run s [.close 0, .reconnect true, .reconnect true, .reconnect true] = some s' ∧
      s'.slots = [some 2, some 1] ∧ (s.slots[1]? = some (some 1) → s'.isClosed 1 = false →
        s'.slots[1]? = some (some 1)) ∧ s'.slots.length = 2 := by
  have hrun : (handler.run (State.initial ⟨.router, "host", 2, 1⟩)
      [.reconnect true, .reconnect true, .reconnect true, .reconnect true]).map
        (fun s => (handler.run s [.close 0, .reconnect true, .reconnect true, .reconnect true]).map
          fun s' => (s'.slots, s'.cfg.connPerNode)) =
      some (some ([some 2, some 1], 2)) := by decide
  obtain ⟨s, hs, hstate⟩ := Option.map_eq_some_iff.mp hrun
  obtain ⟨s', hs', hslots⟩ := Option.map_eq_some_iff.mp hstate
  obtain ⟨hslots, hcfg⟩ := Prod.mk.inj hslots
  have hr : handler.Reachable s := Machine.Reach.run (.init ⟨_, rfl⟩) (fun _ _ _ => trivial) hs
  obtain ⟨-, hstays, hlen, -⟩ := slots_of_run hr hs'
  exact ⟨s, s', hs, hs', hslots, hstays 1 1, hlen.trans hcfg⟩

end RzProxy
