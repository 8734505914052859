import RzProxy.Handler.Pool
import RzProxy.Handler.RoundRobin

/-!
# The pool is refilled

The task that refills the pool makes one pass over the slots after the other. A pass looks at each
slot once, and what it has looked at has a connection that was open then, or is new. So wherever a
run begins, the rest of the pass that goes on and one more renew every slot, if connecting succeeds
and whatever calls, loops and clients do in between.

## Main definitions

* `State.passLeft`: what is left of the pass that goes on
* `Renewed`: a slot has a connection that is not an old one
* `Due`: how many steps of the task renew all slots at most

## Main results

* `Due.pass`, `Due.other`: a step of the task is one step less, and no other undoes one
* `refilled_of_run`: enough steps of the task renew all slots
-/

namespace RzProxy

open ByteString Machines

variable {s s' : State} {a : Action} {c : ConnId} {old : ConnId → Bool} {i n : ℕ}

/-- The steps that are left to the pass of `reconnect_closed` that goes on: a look at each slot that
is left, and the end. -/
def State.passLeft (s : State) : ℕ :=
  match s.reconnecting with
  | none => 0
  | some i => s.slots.length - i + 1

/-- The slot has a connection, which is not an old one. -/
def Renewed (old : ConnId → Bool) (s : State) (i : ℕ) : Prop :=
  ∃ c, s.slots[i]? = some (some c) ∧ old c = false

/-- All slots are renewed after `n` more steps of the task, at most: they are, or a pass has renewed
those that it has looked at, or a pass is to begin. -/
inductive Due (old : ConnId → Bool) (n : ℕ) (s : State) : Prop
  | done (renewed : ∀ i < s.slots.length, Renewed old s i)
  | passing {i : ℕ} (at_slot : s.reconnecting = some i) (renewed : ∀ j < i, Renewed old s j)
      (left : s.slots.length - i ≤ n)
  | waiting (left : s.passLeft + s.slots.length + 1 ≤ n)

/-! ## Connections that are not made yet -/

/-- Only a connection that was made is closed. -/
theorem Change.made_of_closed (h : Change s a s') (hc : s'.isClosed c = true) :
    s.isClosed c = true ∨ c < s.connCount := by
  have hupd {d : ConnId} {conn : Connection}
      (h : (Function.update s.conns d conn c).closed = true)
      (hd : conn.closed = (s.conns d).closed) : (s.conns c).closed = true := by
    rwa [apply_update_eq Connection.closed hd] at h
  cases h with
  | newCall | move | answered | unanswered | cancel | cancelStore | lock | connect => exact .inl hc
  | draw | store | sendFailed | take => exact .inl (hupd hc rfl)
  | queue _ _ _ push => exact .inl (hupd hc (by rw [Connection.push_eq push]))
  | @conn _ d k' hd hl =>
    by_cases hcd : c = d
    · subst hcd
      exact .inr hd
    · refine .inl ?_
      change (Function.update s.conns d k' c).closed = true at hc
      rwa [Function.update_of_ne hcd] at hc

theorem lt_connCount_of_isClosed (hs : handler.Reachable s) (hc : s.isClosed c = true) :
    c < s.connCount := by
  refine hs.invariant (P := fun s => ∀ c, s.isClosed c = true → c < s.connCount) ?_
    (fun s a s' _ h _ hstep => ?_) c hc
  · rintro s ⟨cfg, rfl⟩ c hc
    cases hc
  · obtain ⟨s₁, hchange, rfl⟩ := step_cases hstep
    intro c hc
    rw [isClosed_reap] at hc
    have hlt : c < s.connCount := (hchange.made_of_closed hc).elim (h c) id
    exact hlt.trans_le hchange.connCount_le

/-! ## Steps of the task -/

/-- What the task does next if connecting succeeds: it begins a pass, looks at a slot, which has an
open connection or a new one then, or ends the pass. -/
inductive Passes (s s' : State) : Prop
  | begin (before : s.reconnecting = none) (after : s'.reconnecting = some 0)
  | look {i : ℕ} {c : ConnId} (before : s.reconnecting = some i) (left : i < s.slots.length)
      (after : s'.reconnecting = some (i + 1)) (slot : s'.slots[i]? = some (some c))
      (opened : s.isClosed c = false)
  | finish {i : ℕ} (before : s.reconnecting = some i) (left : s.slots.length ≤ i)
      (after : s'.reconnecting = none)

theorem passes_of_step (hs : handler.Reachable s)
    (hstep : handler.step s (.reconnect true) = some s') : Passes s s' := by
  have hact : s.act (.reconnect true) = some (s.reconnectClosed true) := rfl
  obtain rfl := Option.some.inj ((step_of_act hact).symm.trans hstep)
  suffices h : Passes s (s.reconnectClosed true) by
    cases h with
    | begin before after => exact .begin before after
    | look before left after slot opened => exact .look before left after slot opened
    | finish before left after => exact .finish before left after
  have hnew : s.isClosed s.connCount = false := by
    by_contra hne
    exact Nat.lt_irrefl _ (lt_connCount_of_isClosed hs (Bool.not_eq_false _ ▸ hne))
  cases hbefore : s.reconnecting with
  | none => exact .begin hbefore (by simp [State.reconnectClosed, hbefore])
  | some i =>
    cases hslot : s.slots[i]? with
    | none =>
      refine .finish hbefore (List.getElem?_eq_none_iff.mp hslot) ?_
      simp [State.reconnectClosed, hbefore, hslot]
    | some slot =>
      have hlt := (List.getElem?_eq_some_iff.mp hslot).1
      have hset : (s.slots.set i (some s.connCount))[i]? = some (some s.connCount) := by
        rw [List.getElem?_set_self hlt]
      cases slot with
      | none =>
        refine .look hbefore hlt ?_ (c := s.connCount) ?_ hnew <;>
          simp only [State.reconnectClosed, hbefore, hslot, Bool.and_true, if_true]
        · rfl
        · exact hset
      | some c =>
        cases hclosed : s.isClosed c with
        | true =>
          refine .look hbefore hlt ?_ (c := s.connCount) ?_ hnew <;>
            simp only [State.reconnectClosed, hbefore, hslot, hclosed, Bool.and_true, if_true]
          · rfl
          · exact hset
        | false =>
          refine .look hbefore hlt ?_ (c := c) ?_ hclosed <;>
            simp only [State.reconnectClosed, hbefore, hslot, hclosed, Bool.and_true,
              Bool.false_eq_true, if_false]

/-- Only the task has its place in the pass. -/
theorem reconnecting_of_step (hstep : handler.step s a = some s') (ha : ∀ b, a ≠ .reconnect b) :
    s'.reconnecting = s.reconnecting ∧ s'.slots = s.slots := by
  obtain ⟨s₁, hc, rfl⟩ := step_cases hstep
  refine ⟨?_, hc.slots_eq ha⟩
  show s₁.reconnecting = _
  cases hc with
  | lock connected | connect connected => exact absurd rfl (ha connected)
  | _ => rfl

theorem length_slots_of_step (hstep : handler.step s a = some s') :
    s'.slots.length = s.slots.length := by
  cases refills_of_step hstep with
  | same slots => rw [slots]
  | connect _ _ slots => rw [slots, List.length_set]

theorem Renewed.set (h : Renewed old s i) {j : ℕ} (hnew : old c = false)
    (hslots : s'.slots = s.slots.set j (some c)) : Renewed old s' i := by
  obtain ⟨d, hd, hold⟩ := h
  unfold Renewed
  rw [hslots, List.getElem?_set]
  have hlt := (List.getElem?_eq_some_iff.mp hd).1
  by_cases hji : j = i
  · subst hji
    exact ⟨c, by rw [if_pos rfl, if_pos hlt], hnew⟩
  · exact ⟨d, by rw [if_neg hji, hd], hold⟩

/-- No step takes a connection from a slot but for a new one. -/
theorem Renewed.step (h : Renewed old s i) (hold : ∀ c, old c = true → c < s.connCount)
    (hstep : handler.step s a = some s') : Renewed old s' i := by
  cases refills_of_step hstep with
  | same slots =>
    unfold Renewed
    rw [slots]
    exact h
  | connect _ _ slots =>
    refine h.set ?_ slots
    by_contra hne
    exact Nat.lt_irrefl _ (hold _ (by simpa using hne))

/-! ## Enough steps of the task -/

/-- A step of the task is one step less. -/
theorem Due.pass (h : Due old (n + 1) s) (hs : handler.Reachable s)
    (hold : ∀ c, old c = true → s.isClosed c = true)
    (hstep : handler.step s (.reconnect true) = some s') : Due old n s' := by
  have hrenewed {i : ℕ} (h : Renewed old s i) : Renewed old s' i :=
    h.step (fun c hc => lt_connCount_of_isClosed hs (hold c hc)) hstep
  have hlen := length_slots_of_step hstep
  have hpass := passes_of_step hs hstep
  cases h with
  | done renewed => exact .done fun i hi => hrenewed (renewed i (hlen ▸ hi))
  | @passing i at_slot renewed left =>
    cases hpass with
    | begin before =>
      rw [at_slot] at before
      cases before
    | @look j c before hlt after slot opened =>
      obtain rfl := Option.some.inj (at_slot.symm.trans before)
      refine .passing after (fun j hj => ?_) (by omega)
      rcases Nat.lt_succ_iff_lt_or_eq.mp hj with hj | rfl
      · exact hrenewed (renewed j hj)
      · refine ⟨c, slot, ?_⟩
        by_contra hne
        rw [hold c (by simpa using hne)] at opened
        cases opened
    | @finish j before hle =>
      obtain rfl := Option.some.inj (at_slot.symm.trans before)
      exact .done fun j hj => hrenewed (renewed j (by omega))
  | waiting left =>
    cases hpass with
    | begin before after =>
      simp only [State.passLeft, before] at left
      exact .passing after (fun j hj => absurd hj (Nat.not_lt_zero j)) (by omega)
    | look before hlt after =>
      simp only [State.passLeft, before] at left
      refine .waiting ?_
      simp only [State.passLeft, after]
      omega
    | finish before hle after =>
      simp only [State.passLeft, before] at left
      refine .waiting ?_
      simp only [State.passLeft, after]
      omega

/-- No other step undoes one. -/
theorem Due.other (h : Due old n s) (hstep : handler.step s a = some s')
    (ha : ∀ b, a ≠ .reconnect b) : Due old n s' := by
  obtain ⟨hat, hslots⟩ := reconnecting_of_step hstep ha
  have hrenewed {i : ℕ} (h : Renewed old s i) : Renewed old s' i := by
    unfold Renewed
    rw [hslots]
    exact h
  cases h with
  | done renewed => exact .done fun i hi => hrenewed (renewed i (hslots ▸ hi))
  | passing at_slot renewed left =>
    exact .passing (hat.trans at_slot) (fun j hj => hrenewed (renewed j hj)) (hslots ▸ left)
  | waiting left =>
    refine .waiting ?_
    rw [State.passLeft, hat, hslots]
    exact left

/-- A pass that has nothing left to do has renewed all slots. -/
theorem Due.renewed (h : Due old 0 s) (hi : i < s.slots.length) : Renewed old s i := by
  cases h with
  | done renewed => exact renewed i hi
  | passing _ renewed left => exact renewed i (by omega)
  | waiting left => omega

/-- Enough steps of the task, among any others. -/
theorem Due.path (h : Due old n s) (hs : handler.Reachable s)
    (hold : ∀ c, old c = true → s.isClosed c = true) {as : List Action}
    (hpath : handler.Path (fun _ a => a ≠ .reconnect false) s as s')
    (hn : as.count (.reconnect true) = n) : Due old 0 s' := by
  have hstep {t t' : State} {a : Action} (ht : handler.Reachable t)
      (hclosed : ∀ c, old c = true → t.isClosed c = true) (hstep : handler.step t a = some t') :
      handler.Reachable t' ∧ ∀ c, old c = true → t'.isClosed c = true :=
    ⟨.step ht trivial hstep, fun c hc => isClosed_of_step hstep (hclosed c hc)⟩
  have hend := hpath.countdown (n := 0) (l := .reconnect true)
    (D := fun n t => (handler.Reachable t ∧ ∀ c, old c = true → t.isClosed c = true) ∧
      Due old n t)
    (fun n t t' ht hdue => ⟨hstep hdue.1.1 hdue.1.2 ht, hdue.2.pass hdue.1.1 hdue.1.2 ht⟩)
    (fun n t a t' hne ha ht hdue => ⟨hstep hdue.1.1 hdue.1.2 ht, hdue.2.other ht fun b hb => ?_⟩)
    ⟨⟨hs, hold⟩, hn ▸ h⟩
  · exact hend.2
  · cases b with
    | true => exact ha hb
    | false => exact hne hb

theorem Due.mono {m : ℕ} (h : Due old n s) (hnm : n ≤ m) : Due old m s := by
  cases h with
  | done renewed => exact .done renewed
  | passing at_slot renewed left => exact .passing at_slot renewed (left.trans hnm)
  | waiting left => exact .waiting (left.trans hnm)

/-- **The pool is refilled**: if connecting succeeds, then once the task has got through the rest of
its pass and looked at each slot once more, every slot has a connection that was open when the run
began, or was made in it. So as long as none is closed in the run, a call finds a connection. -/
theorem refilled_of_run (hs : handler.Reachable s) {as : List Action}
    (hrun : handler.run s as = some s') (hup : Action.reconnect false ∉ as)
    (hturns : s.passLeft + s.cfg.connPerNode + 1 ≤ as.count (.reconnect true)) :
    (∀ i < s.cfg.connPerNode, Renewed s.isClosed s' i) ∧
      (0 < s.cfg.connPerNode → (∀ c, s'.isClosed c = true → s.isClosed c = true) →
        ∃ c idx, nextConnection s'.isClosed s'.slots s'.nextConn = .ok (some c, idx)) := by
  have hlen := length_slots_of_reach hs
  have hdue : Due s.isClosed (as.count (.reconnect true)) s :=
    (Due.waiting (hlen ▸ le_rfl)).mono hturns
  have hpath := Machine.path_own_iff.mpr ⟨fun a ha => ne_of_mem_of_not_mem ha hup, hrun⟩
  have hrun' := Machine.path_iff_run.mpr hrun
  have hlen' : s'.slots.length = s.cfg.connPerNode :=
    hrun'.invariant (P := fun t => t.slots.length = s.cfg.connPerNode)
      (fun t a t' _ ht _ hstep => (length_slots_of_step hstep).trans ht) hs hlen
  have hrenewed : ∀ i < s.cfg.connPerNode, Renewed s.isClosed s' i := fun i hi =>
    (hdue.path hs (fun _ hc => hc) hpath rfl).renewed (hlen'.symm ▸ hi)
  refine ⟨hrenewed, fun hpos hkept => ?_⟩
  have hs' := hs.path hrun'
  obtain ⟨found, idx, hnext, hnone, -⟩ :=
    (cursor_of_reachable hs').nextConnection s'.isClosed rfl
  cases found with
  | some c => exact ⟨c, idx, hnext⟩
  | none =>
    obtain ⟨c, hc, hold⟩ := hrenewed 0 hpos
    have hopen : s'.isClosed c = false := by
      by_contra hne
      rw [hkept c (by simpa using hne)] at hold
      cases hold
    have hslot := hnone.mp rfl (some c) (List.mem_of_getElem? hc)
    simp [openIn, Option.filter, hopen] at hslot

/-- One of two connections is closed, and replaced while a call begins. The call will find one. -/
theorem refilled_of_run_close :
    ∃ s s', handler.run (State.initial ⟨.router, "host", 2, 1⟩)
        [.reconnect true, .reconnect true, .reconnect true, .reconnect true, .close 0] = some s ∧
      handler.run s [.reconnect true, .call "eu" false [1, 65], .reconnect true,
        .reconnect true] = some s' ∧
      s.isClosed 0 = true ∧ Renewed s.isClosed s' 0 ∧ Renewed s.isClosed s' 1 ∧
      ∃ c idx, nextConnection s'.isClosed s'.slots s'.nextConn = .ok (some c, idx) := by
  have hrun : ((handler.run (State.initial ⟨.router, "host", 2, 1⟩)
      [.reconnect true, .reconnect true, .reconnect true, .reconnect true, .close 0]).bind fun s =>
        (handler.run s [.reconnect true, .call "eu" false [1, 65], .reconnect true,
          .reconnect true]).map fun s' =>
            ((s.isClosed 0, s.passLeft, s.cfg.connPerNode),
              (s'.connCount, s'.isClosed 1, s'.isClosed 2))) =
      some ((true, 0, 2), (3, false, false)) := by decide
  obtain ⟨s, hs, hstate⟩ := Option.bind_eq_some_iff.mp hrun
  obtain ⟨s', hs', hstate⟩ := Option.map_eq_some_iff.mp hstate
  simp only [Prod.mk.injEq] at hstate
  obtain ⟨⟨hclosed, hleft, hcfg⟩, hcount, hopen⟩ := hstate
  have hr : handler.Reachable s := Machine.Reach.run (.init ⟨_, rfl⟩) (fun _ _ _ => trivial) hs
  have hr' : handler.Reachable s' := Machine.Reach.run hr (fun _ _ _ => trivial) hs'
  obtain ⟨hrenewed, hfound⟩ := refilled_of_run hr hs' (by decide) (by rw [hleft, hcfg]; decide)
  refine ⟨s, s', hs, hs', hclosed, hrenewed 0 (by rw [hcfg]; decide),
    hrenewed 1 (by rw [hcfg]; decide), hfound (by rw [hcfg]; decide) fun (c : ℕ) hc => ?_⟩
  have hlt : c < 3 := hcount ▸ lt_connCount_of_isClosed hr' hc
  obtain rfl | rfl | rfl : c = 0 ∨ c = 1 ∨ c = 2 := by omega
  · exact hclosed
  · rw [hopen.1] at hc
    cases hc
  · rw [hopen.2] at hc
    cases hc

end RzProxy
