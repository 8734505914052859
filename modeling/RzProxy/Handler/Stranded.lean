import RzProxy.Handler.Pending

/-!
# Stranded calls

A read loop that ends leaves the senders in its connection's map where they are, and so does a send
that fails; nothing else takes them out, and no timeout is enforced. A call that waits for one of
them waits forever. This does not happen in exactly those runs in which no loop ends while somebody
waits, and nobody begins to wait on a dead connection with a sender that is still stored.

## Main definitions

* `Connection.Dead`: the read loop has ended, or a send has failed
* `Stranded`: a call waits for a sender stored in a dead connection
* `StrandsNobody`: the condition on a step
* `State.strandsNobody`: a check for the condition

## Main results

* `not_forall_not_stranded`: a stream that ends strands the call that waits
* `not_stranded_of_reach`: no call is stranded in runs whose steps meet the condition
* `stranded_of_step`: a step that does not meet it strands a call
-/

namespace RzProxy

open ByteString Streaming Machines

/-- The read loop has ended, or the queue was dropped so that a send failed. -/
def Connection.Dead (k : Connection) : Prop := k.readTask ≠ .running ∨ k.sendFailed = true

/-- Some call waits for a sender that is stored in the map of `c`. -/
def AwaitsStored (s : State) (c : ConnId) : Prop :=
  ∃ k id x, (s.calls k).pc = .wait c id x ∧ (s.conns c).demux id = some x

/-- Some call waits for a sender that is stored in a dead connection. -/
def Stranded (s : State) : Prop := ∃ c, (s.conns c).Dead ∧ AwaitsStored s c

/-- The next step of the read task leaves the loop: the frame in hand has an unknown id, or the
buffer begins with a malformed frame. -/
def Connection.LeavesLoop (k : Connection) : Prop :=
  k.readTask = .running ∧
    match k.inHand with
    | some (header, _) => k.demux header.clrId = none
    | none => ∃ e, frameSplitter.look k.buf = .fail e

/-- A step that strands nobody: a read loop ends only while nobody waits for a sender stored in its
connection; a call goes on from its send to wait on a connection that is dead or has lost its queue
only once its sender is no longer stored; and a send fails only while nobody waits so. -/
def StrandsNobody (s : State) : Action → Prop
  | .readError c => ¬ AwaitsStored s c
  | .read c => (s.conns c).LeavesLoop → ¬ AwaitsStored s c
  | .exec k => ∀ c id x, (s.calls k).pc = .send c id x →
      ((s.conns c).Dead ∨ (s.conns c).queueOpen = false → (s.conns c).demux id ≠ some x) ∧
        ((s.conns c).queueOpen = false → ¬ AwaitsStored s c)
  | _ => True

/-- **A stream that ends** strands the call that waits for its answer. -/
theorem not_forall_not_stranded : ¬ ∀ s, handler.Reachable s → ¬ Stranded s := by
  intro h
  have hrun : (handler.run (State.initial ⟨.standalone, "host", 1, 1⟩)
      [.reconnect true, .reconnect true, .reconnect true, .call "eu" false [1, 65], .exec 0,
        .exec 0, .exec 0, .exec 0, .exec 0, .readError 0]).map
      (fun s => ((s.calls 0).pc, (s.conns 0).demux 1, (s.conns 0).readTask)) =
        some (.wait 0 1 0, some 0, .closing) := by decide
  obtain ⟨s, hs, hstate⟩ := Option.map_eq_some_iff.mp hrun
  simp only [Prod.mk.injEq] at hstate
  obtain ⟨hpc, hdemux, htask⟩ := hstate
  refine h s (Machine.Reach.run (.init ⟨_, rfl⟩) (fun _ _ _ => trivial) hs) ?_
  exact ⟨0, .inl (by rw [htask]; nofun), 0, 1, 0, hpc, hdemux⟩

/-! ## Steps that strand nobody -/

variable {s : State}

theorem Connection.Local.dead {m : ℕ} {c : ConnId} {a : Action} {k k' : Connection}
    (h : k.Local m c a k') (hd : k'.Dead) :
    k.Dead ∨ a = .readError c ∨ a = .read c ∧ k.LeavesLoop := by
  cases h with
  | readError => exact .inr (.inl rfl)
  | malformed task hand look =>
    refine .inr (.inr ⟨rfl, task, ?_⟩)
    rw [hand]
    exact ⟨_, look⟩
  | unknownId task hand unknown =>
    refine .inr (.inr ⟨rfl, task, ?_⟩)
    rw [hand]
    exact unknown
  | readClosed task => exact .inl (.inl (by rw [task]; nofun))
  | readDone task => exact .inl (.inl (by rw [task]; nofun))
  | _ => exact .inl hd

/-- A connection dies by the end of its read loop, or by a send that fails. -/
theorem Change.dead {s' : State} {a : Action} (h : Change s a s') {c : ConnId}
    (hd : (s'.conns c).Dead) : (s.conns c).Dead ∨ a = .readError c ∨
      (a = .read c ∧ (s.conns c).LeavesLoop) ∨
      ∃ k id x, a = .exec k ∧ (s.calls k).pc = .send c id x ∧ (s.conns c).queueOpen = false := by
  have hupd : ∀ {d : ConnId} {k : Connection}, (Function.update s.conns d k c).Dead →
      (s.conns c).Dead ∨ c = d ∧ k.Dead :=
    of_update_or (P := Connection.Dead)
  cases h with
  | newCall | move | answered | unanswered | cancel | cancelStore | lock | connect => exact .inl hd
  | draw | store | take =>
    rcases hupd hd with hold | ⟨rfl, hnew⟩
    · exact .inl hold
    · exact .inl hnew
  | queue hk pc isOpen push =>
    rw [Connection.push_eq push] at hd
    rcases hupd hd with hold | ⟨rfl, hnew⟩
    · exact .inl hold
    · exact .inl hnew
  | @sendFailed k d i x hk pc gone =>
    rcases hupd hd with hold | ⟨rfl, -⟩
    · exact .inl hold
    · exact .inr (.inr (.inr ⟨k, i, x, rfl, pc, gone⟩))
  | conn hc hl =>
    rcases hupd hd with hold | ⟨rfl, hnew⟩
    · exact .inl hold
    · rcases hl.dead hnew with hd | hd | hd
      · exact .inl hd
      · exact .inr (.inl hd)
      · exact .inr (.inr (.inl hd))

/-- A call that waits for a stored sender did so before, or has just sent its frame. -/
theorem Change.awaits {s' : State} {a : Action} (h : Change s a s') (hcorr : Correlated s)
    {k : CallId} {c : ConnId} {id : UInt32} {x : ChanId} (hk : (s'.calls k).pc = .wait c id x)
    (he : (s'.conns c).demux id = some x) : (s.conns c).demux id = some x ∧
      ((s.calls k).pc = .wait c id x ∨ a = .exec k ∧ (s.calls k).pc = .send c id x) := by
  -- were the sender stored by this step, two calls would have its channel
  refine ⟨?_, h.wait hk⟩
  rcases h.entry he with he | ⟨j, hj, hj'⟩
  · exact he
  · have hjk : j ≠ k := by
      rintro rfl
      rw [hj'] at hk
      cases hk
    have ha : (s.calls k).pc.attempt = some (c, id, x) := by
      rcases h.wait hk with hw | ⟨-, hw⟩ <;> rw [hw] <;> rfl
    exact absurd rfl (hcorr.ne_of_call hjk (a := (c, id, x)) (by rw [hj]; rfl) ha)

theorem not_stranded_change {s' : State} {a : Action} (h : ¬ Stranded s) (hcorr : Correlated s)
    (hok : StrandsNobody s a) (hc : Change s a s') : ¬ Stranded s' := by
  rintro ⟨c, hdead, k, id, x, hpc, hdemux⟩
  obtain ⟨he, hw⟩ := hc.awaits hcorr hpc hdemux
  rcases hw with hw | ⟨rfl, hsend⟩
  · -- the call waited before, so the connection has just died
    have hawait : AwaitsStored s c := ⟨k, id, x, hw, he⟩
    -- each way to die is one that the condition forbids while the call waits
    rcases hc.dead hdead with hd | rfl | ⟨rfl, hleaves⟩ | ⟨j, i, y, rfl, hj, hgone⟩
    · exact h ⟨c, hd, hawait⟩
    · exact hok hawait
    · exact hok hleaves hawait
    · exact (hok c i y hj).2 hgone hawait
  · -- the call has just begun to wait
    refine (hok c id x hsend).1 ?_ he
    rcases hc.dead hdead with hd | ha | ⟨ha, -⟩ | ⟨j, i, y, -, -, hgone⟩
    · exact .inl hd
    · cases ha
    · cases ha
    · exact .inr hgone

/-- **No call is stranded** in a run whose steps strand nobody. -/
theorem not_stranded_of_reach (hs : handler.Reach StrandsNobody s) : ¬ Stranded s := by
  refine hs.invariant (P := fun s => ¬ Stranded s) ?_ fun s a s' hr h hok hstep => ?_
  · rintro s ⟨cfg, rfl⟩ ⟨c, -, k, id, x, hpc, -⟩
    cases hpc
  · obtain ⟨s₁, hc, rfl⟩ := step_cases hstep
    rintro ⟨c, hdead, k, id, x, hpc, hdemux⟩
    rw [conns_reap] at hdead hdemux
    split_ifs at hdead hdemux
    · cases hdemux
    · exact not_stranded_change h (correlated_of_reach hr) hok hc ⟨c, hdead, k, id, x, hpc, hdemux⟩

/-! ## The condition can be checked -/

/-- Whether some call waits for a sender that is stored in the map of `c`. -/
def State.awaitsStored (s : State) (c : ConnId) : Bool :=
  (List.range s.callCount).any fun k =>
    match (s.calls k).pc with
    | .wait d id x => d = c && (s.conns c).demux id = some x
    | _ => false

theorem Holding.awaitsStored_iff (hh : Holding s) {c : ConnId} :
    s.awaitsStored c = true ↔ AwaitsStored s c := by
  simp only [State.awaitsStored, List.any_eq_true, List.mem_range]
  constructor
  · rintro ⟨k, -, hk⟩
    split at hk
    · next d id x hpc =>
      simp only [Bool.and_eq_true, decide_eq_true_eq] at hk
      exact ⟨k, id, x, hk.1 ▸ hpc, hk.2⟩
    · cases hk
  · rintro ⟨k, id, x, hpc, he⟩
    refine ⟨k, (hh.call (k := k) (c := c) (by rw [hpc]; rfl)).1, ?_⟩
    simp [hpc, he]

/-- Whether the next step of the read task leaves the loop. -/
def Connection.leavesLoop (k : Connection) : Bool :=
  k.readTask = .running &&
    match k.inHand with
    | some (header, _) => k.demux header.clrId = none
    | none =>
      match frameSplitter.look k.buf with
      | .fail _ => true
      | _ => false

theorem Connection.leavesLoop_iff {k : Connection} : k.leavesLoop = true ↔ k.LeavesLoop := by
  rw [Connection.leavesLoop, Connection.LeavesLoop, Bool.and_eq_true, decide_eq_true_eq]
  refine and_congr_right fun _ => ?_
  cases k.inHand with
  | some => exact decide_eq_true_iff
  | none => cases frameSplitter.look k.buf <;> simp

/-- Whether a step strands nobody. -/
def State.strandsNobody (s : State) : Action → Bool
  | .readError c => !s.awaitsStored c
  | .read c => !(s.conns c).leavesLoop || !s.awaitsStored c
  | .exec k =>
    match (s.calls k).pc with
    | .send c id x =>
      let conn := s.conns c
      let alive := conn.readTask = .running && !conn.sendFailed && conn.queueOpen
      (alive || conn.demux id ≠ some x) && (conn.queueOpen || !s.awaitsStored c)
    | _ => true
  | _ => true

theorem Holding.strandsNobody_iff (hh : Holding s) (a : Action) :
    s.strandsNobody a = true ↔ StrandsNobody s a := by
  cases a with
  | readError c => simp [State.strandsNobody, StrandsNobody, ← hh.awaitsStored_iff]
  | read c =>
    simp only [State.strandsNobody, StrandsNobody, ← hh.awaitsStored_iff,
      ← Connection.leavesLoop_iff]
    cases (s.conns c).leavesLoop <;> simp
  | exec k =>
    simp only [State.strandsNobody, StrandsNobody, ← hh.awaitsStored_iff, Connection.Dead]
    cases hpc : (s.calls k).pc with
    | send c id x => grind
    | _ => simp
  | _ => simp [State.strandsNobody, StrandsNobody]

/-- Two calls on two connections: the first is answered and its connection ends, the second goes
on waiting on the other one. -/
def answeredRun : List Action :=
  [.reconnect true, .reconnect true, .reconnect true, .reconnect true, .call "eu" false [1, 65],
    .call "us" false [1, 66], .exec 0, .exec 1, .exec 0, .exec 1, .exec 0, .exec 1, .exec 0,
    .exec 1, .exec 0, .exec 1, .write 0, .deliver 0 (prependHeader 1 [0, 0, 0]), .recv 0 12,
    .read 0, .read 0, .exec 0, .readError 0]

/-- A connection that ends between two calls, one of which was answered on it. -/
theorem not_stranded_of_reach_two_calls :
    ∃ s, handler.run (State.initial ⟨.standalone, "host", 2, 1⟩) answeredRun = some s ∧
      (s.calls 0).pc = .finished (.ok [0, 0, 0]) ∧ (s.conns 0).Dead ∧ AwaitsStored s 1 ∧
      ¬ Stranded s := by
  have hrun : (handler.checkedRun State.strandsNobody (State.initial ⟨.standalone, "host", 2, 1⟩)
      answeredRun).map (fun s => ((s.calls 0).pc, (s.calls 1).pc, (s.conns 0).readTask,
        (s.conns 1).demux 1)) =
      some (.finished (.ok [0, 0, 0]), .wait 1 1 1, .closing, some 1) := by decide +kernel
  obtain ⟨s, hs, hstate⟩ := Option.map_eq_some_iff.mp hrun
  simp only [Prod.mk.injEq] at hstate
  obtain ⟨hpc₀, hpc₁, htask, hdemux⟩ := hstate
  have hinit : handler.Reach StrandsNobody (State.initial ⟨.standalone, "host", 2, 1⟩) :=
    .init ⟨_, rfl⟩
  obtain ⟨hs, hr⟩ :=
    hinit.checkedRun (fun s a hr => ((holding_of_reach hr).strandsNobody_iff a).mp) hs
  exact ⟨s, hs, hpc₀, .inl (by simp [htask]), ⟨1, 1, 1, hpc₁, hdemux⟩, not_stranded_of_reach hr⟩

/-! ## Steps that strand a call -/

/-- What waits for a stored sender goes on waiting after `reap`. -/
theorem Holding.awaitsStored_reap (hh : Holding s) {c : ConnId} (h : AwaitsStored s c) :
    AwaitsStored s.reap c ∧ (s.reap.conns c) = s.conns c := by
  obtain ⟨k, id, x, hpc, he⟩ := h
  have hhold : (s.calls k).pc.holds = some c := by rw [hpc]; rfl
  have hc : s.reap.conns c = s.conns c := conns_reap_of_held (hh.held hhold)
  exact ⟨⟨k, id, x, hpc, by rw [hc]; exact he⟩, hc⟩

theorem Stranded.tick_reap (hh : Holding s) (h : Stranded s) : Stranded s.tick.reap := by
  obtain ⟨c, hd, ha⟩ := h
  obtain ⟨ha', hc⟩ := hh.tick.awaitsStored_reap (c := c) ha
  exact ⟨c, by rw [hc]; exact hd, ha'⟩

theorem awaitsStored_setConn {c : ConnId} {k : Connection} (h : AwaitsStored s c)
    (hd : k.demux = (s.conns c).demux) : AwaitsStored (s.setConn c k) c := by
  obtain ⟨j, id, x, hpc, he⟩ := h
  refine ⟨j, id, x, hpc, ?_⟩
  show (Function.update s.conns c k c).demux id = some x
  rw [Function.update_self, hd]
  exact he

theorem Connection.Local.leaves {m : ℕ} {c : ConnId} {k k' : Connection}
    (h : k.Local m c (.read c) k') (hl : k.LeavesLoop) :
    k'.readTask = .closing ∧ k'.demux = k.demux := by
  obtain ⟨task, hl⟩ := hl
  cases h with
  | malformed | unknownId => exact ⟨rfl, rfl⟩
  | drain _ hand look =>
    rw [hand] at hl
    obtain ⟨e, hl⟩ := hl
    rw [look] at hl
    cases hl
  | readClosed task' => rw [task] at task'; cases task'
  | readDone task' => rw [task] at task'; cases task'

theorem stranded_of_exec {s' : State} {k : CallId} (hok : ¬ StrandsNobody s (.exec k))
    (hc : Change s (.exec k) s') : Stranded s' := by
  simp only [StrandsNobody, not_forall] at hok
  obtain ⟨c, id, x, hpc, hok⟩ := hok
  -- after the send the call waits on a dead connection, and whoever waited there still does
  have hwait : ∀ {conn : Connection} {call : Call} {s' : State},
      s'.conns = Function.update s.conns c conn → s'.calls = Function.update s.calls k call →
      call.pc = .wait c id x → conn.demux = (s.conns c).demux → conn.Dead →
      (s.conns c).demux id = some x ∨ AwaitsStored s c → Stranded s' := by
    intro conn call s' hconns hcalls hw hd hdead hawait
    refine ⟨c, by rw [hconns, Function.update_self]; exact hdead, ?_⟩
    rcases hawait with he | ⟨j, i, y, hj, he⟩
    · refine ⟨k, id, x, by rw [hcalls, Function.update_self]; exact hw, ?_⟩
      rw [hconns, Function.update_self, hd]
      exact he
    · have hjk : j ≠ k := by
        rintro rfl
        rw [hpc] at hj
        cases hj
      refine ⟨j, i, y, by rw [hcalls, Function.update_of_ne hjk]; exact hj, ?_⟩
      rw [hconns, Function.update_self, hd]
      exact he
  cases hc with
  | move _ _ _ before => rw [hpc] at before; cases before
  | draw _ pc => rw [hpc] at pc; cases pc
  | store _ pc => rw [hpc] at pc; cases pc
  | answered _ pc => rw [hpc] at pc; cases pc
  | unanswered _ pc => rw [hpc] at pc; cases pc
  | conn _ hl => cases hl
  | queue hk pc isOpen push =>
    rw [hpc] at pc
    cases pc
    have hfirst : (s.conns c).Dead ∧ (s.conns c).demux id = some x := by
      by_contra hne
      refine hok ⟨fun hd he => hne ⟨?_, he⟩, fun hq => ?_⟩
      · rcases hd with hd | hq
        · exact hd
        · rw [isOpen] at hq; cases hq
      · rw [isOpen] at hq; cases hq
    rw [Connection.push_eq push]
    exact hwait rfl rfl rfl rfl hfirst.1 (.inl hfirst.2)
  | sendFailed hk pc gone =>
    rw [hpc] at pc
    cases pc
    have hone : (s.conns c).demux id = some x ∨ AwaitsStored s c := by
      by_contra hne
      rw [not_or] at hne
      exact hok ⟨fun _ => hne.1, fun _ => hne.2⟩
    exact hwait rfl rfl rfl rfl (.inr rfl) hone

/-- A step that does not meet the condition strands a call. -/
theorem stranded_of_change {s' : State} {a : Action} (hok : ¬ StrandsNobody s a)
    (hc : Change s a s') : Stranded s' := by
  cases a with
  | exec k => exact stranded_of_exec hok hc
  | readError c =>
    have hawait : AwaitsStored s c := not_not.mp hok
    cases hc with
    | conn _ hl =>
      cases hl with
      | readError wants =>
        refine ⟨c, .inl ?_, awaitsStored_setConn hawait rfl⟩
        show (Function.update s.conns c _ c).readTask ≠ _
        rw [Function.update_self]
        nofun
  | read c =>
    simp only [StrandsNobody, Classical.not_imp, not_not] at hok
    obtain ⟨hleaves, hawait⟩ := hok
    cases hc with
    | @conn _ d k' _ hl =>
      obtain rfl : d = c := by cases hl <;> rfl
      obtain ⟨htask, hdemux⟩ := hl.leaves hleaves
      refine ⟨d, .inl ?_, awaitsStored_setConn hawait hdemux⟩
      show (Function.update s.conns d _ d).readTask ≠ _
      rw [Function.update_self, htask]
      nofun
    | @take _ header payload x _ task hand stored =>
      have hl : (s.conns c).demux header.clrId = none := by simpa [hand] using hleaves.2
      rw [stored] at hl
      cases hl
  | _ => exact absurd trivial hok

/-- **The condition is exact**: a step that does not meet it strands a call. -/
theorem stranded_of_step {s' : State} {a : Action} (hr : handler.Reachable s)
    (hok : ¬ StrandsNobody s a) (hstep : handler.step s a = some s') : Stranded s' := by
  obtain ⟨s₁, hc, rfl⟩ := step_cases hstep
  exact (stranded_of_change hok hc).tick_reap ((holding_of_reach hr).change hc)

end RzProxy
