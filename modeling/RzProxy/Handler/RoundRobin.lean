import RzProxy.Handler.Change
import Mathlib.Data.List.Rotate

/-!
# The round robin over the pool

The cursor is moved before its slot is looked at, and stays where a call stopped, so the next call
goes on with the slot after the one that it returned. In terms of the slots in cyclic order from the
cursor, a call takes slots from the front to the back until it has taken an open one. As many calls
as there are open slots take all of them to the back, and in that order.

## Main definitions

* `openIn`: the connection of a slot, when it is open
* `Cursor`: the cursors that calls leave behind in a pool of fixed size
* `nextConnections`: consecutive calls of `next_connection`

## Main results

* `nextConnection_complete_fair`: a call finds a connection whenever there is one, and calls take
  turns over all of them
* `cursor_of_reachable`: the cursor of the handler is such a cursor
-/

namespace RzProxy

open Machines Evaluation

/-! ## One call -/

section Calls

variable (isClosed : ConnId → Bool)

/-- The connection of a slot, when it is open. -/
def openIn (slot : Option ConnId) : Option ConnId := slot.filter fun c => !isClosed c

variable {isClosed} {slots rest skipped : List (Option ConnId)} {slot : Option ConnId}
  {idx idx' n : ℕ} {c : ConnId}

/-- The slot at the cursor goes to the back. -/
theorem rotate_next (h : slots.rotate idx = slot :: rest) :
    slots.rotate ((idx + 1) % slots.length) = rest ++ [slot] := by
  rw [List.rotate_mod, ← List.rotate_rotate, h, List.rotate_cons_succ, List.rotate_zero]

/-- The first slot from the cursor is the one at the cursor. -/
theorem getElem?_of_rotate (h : slots.rotate idx = slot :: rest) (hidx : idx < slots.length) :
    slots[idx]? = some slot := by
  rw [← List.head?_rotate hidx, h, List.head?_cons]

theorem scanSlots_of_open (h : slots.rotate idx = slot :: rest) (hidx : idx < slots.length)
    (hopen : openIn isClosed slot = some c) :
    scanSlots isClosed slots (n + 1) idx = .ok (some c, (idx + 1) % slots.length) := by
  obtain ⟨rfl, hc⟩ := Option.filter_eq_some_iff.mp hopen
  have hc : ¬ isClosed c = true := by simpa using hc
  simp only [scanSlots, getElem?_of_rotate h hidx, if_neg hc]

theorem scanSlots_of_not_open (h : slots.rotate idx = slot :: rest) (hidx : idx < slots.length)
    (hopen : openIn isClosed slot = none) :
    scanSlots isClosed slots (n + 1) idx =
      scanSlots isClosed slots n ((idx + 1) % slots.length) := by
  cases slot with
  | none => simp only [scanSlots, getElem?_of_rotate h hidx]
  | some c =>
    have hc : isClosed c = true := by simpa [openIn] using hopen
    simp only [scanSlots, getElem?_of_rotate h hidx, if_pos hc]

/-- A scan that comes to an open slot returns its connection, and the slots up to this one go to
the back. -/
theorem scanSlots_of_found (h : slots.rotate idx = skipped ++ slot :: rest)
    (hidx : idx < slots.length) (hskipped : ∀ s ∈ skipped, openIn isClosed s = none)
    (hopen : openIn isClosed slot = some c) (hn : skipped.length < n) :
    ∃ idx' < slots.length, scanSlots isClosed slots n idx = .ok (some c, idx') ∧
      slots.rotate idx' = rest ++ skipped ++ [slot] := by
  induction skipped generalizing idx rest n with
  | nil =>
    obtain ⟨n, rfl⟩ := Nat.exists_eq_succ_of_ne_zero (show n ≠ 0 by rintro rfl; cases hn)
    refine ⟨_, Nat.mod_lt _ (by omega), scanSlots_of_open h hidx hopen, ?_⟩
    rw [rotate_next h, List.append_nil]
  | cons s skipped ih =>
    rw [List.length_cons] at hn
    obtain ⟨n, rfl⟩ := Nat.exists_eq_succ_of_ne_zero (show n ≠ 0 by omega)
    have hrotate : slots.rotate ((idx + 1) % slots.length) =
        skipped ++ slot :: (rest ++ [s]) := by
      rw [List.cons_append] at h
      rw [rotate_next h, List.append_assoc, List.cons_append]
    obtain ⟨idx', hlt, hscan, hrotate'⟩ := ih hrotate (Nat.mod_lt _ (by omega))
      (fun t ht => hskipped t (List.mem_cons_of_mem s ht)) (show skipped.length < n by omega)
    refine ⟨idx', hlt, ?_, ?_⟩
    · rw [scanSlots_of_not_open h hidx (hskipped s List.mem_cons_self), hscan]
    · rw [hrotate']
      simp

/-- A scan of a pool without open slots returns nothing. -/
theorem scanSlots_of_forall (hslots : ∀ s ∈ slots, openIn isClosed s = none)
    (hidx : idx < slots.length) :
    ∃ idx' < slots.length, scanSlots isClosed slots n idx = .ok (none, idx') := by
  induction n generalizing idx with
  | zero => exact ⟨idx, hidx, rfl⟩
  | succ n ih =>
    have hnext : (idx + 1) % slots.length < slots.length := Nat.mod_lt _ (by omega)
    obtain ⟨idx', hlt, hscan⟩ := ih hnext
    cases h : slots.rotate idx with
    | nil =>
      have hlen := congrArg List.length h
      rw [List.length_rotate, List.length_nil] at hlen
      omega
    | cons slot rest =>
      have hmem : slot ∈ slots := List.mem_rotate.mp (h ▸ List.mem_cons_self)
      exact ⟨idx', hlt, by rw [scanSlots_of_not_open h hidx (hslots slot hmem), hscan]⟩

/-- A call returns the connection of the first open slot from the cursor, if there is one. -/
theorem nextConnection_eq (hidx : idx < slots.length) :
    ∃ idx' < slots.length, nextConnection isClosed slots idx =
      .ok ((slots.rotate idx).findSome? (openIn isClosed), idx') := by
  cases hfind : (slots.rotate idx).findSome? (openIn isClosed) with
  | none =>
    refine scanSlots_of_forall (fun s hs => ?_) hidx
    exact List.findSome?_eq_none_iff.mp hfind s (List.mem_rotate.mpr hs)
  | some c =>
    obtain ⟨skipped, slot, rest, h, hopen, hskipped⟩ := List.findSome?_eq_some_iff.mp hfind
    have hlen := congrArg List.length h
    rw [List.length_rotate, List.length_append, List.length_cons] at hlen
    obtain ⟨idx', hlt, hscan, -⟩ := scanSlots_of_found h hidx hskipped hopen
      (show skipped.length < slots.length by omega)
    exact ⟨idx', hlt, hscan⟩

theorem findSome?_rotate_eq_none_iff :
    (slots.rotate idx).findSome? (openIn isClosed) = none ↔
      ∀ slot ∈ slots, openIn isClosed slot = none := by
  rw [List.findSome?_eq_none_iff]
  exact forall_congr' fun slot => by rw [List.mem_rotate]

/-! ## Consecutive calls -/

variable (isClosed slots) in
/-- What `m` calls return one after the other, with the cursor after them. -/
def nextConnections : ℕ → ℕ → Exec (List (Option ConnId) × ℕ)
  | 0, idx => .ok ([], idx)
  | m + 1, idx => do
    let (found, idx) ← nextConnection isClosed slots idx
    let (founds, idx) ← nextConnections m idx
    return (found :: founds, idx)

/-- As many calls as there are open slots among the first from the cursor return these in turn. -/
theorem nextConnections_of_prefix {cs : List ConnId} {front back : List (Option ConnId)}
    (h : slots.rotate idx = front ++ back) (hidx : idx < slots.length)
    (hfront : front.filterMap (openIn isClosed) = cs) :
    ∃ idx', nextConnections isClosed slots cs.length idx = .ok (cs.map some, idx') := by
  induction cs generalizing idx front back with
  | nil => exact ⟨idx, rfl⟩
  | cons c cs ih =>
    obtain ⟨skipped, slot, rest, rfl, hskipped, hopen, hrest⟩ :=
      List.filterMap_eq_cons_iff.mp hfront
    have hlen := congrArg List.length h
    simp only [List.length_rotate, List.length_append, List.length_cons] at hlen
    rw [List.append_assoc, List.cons_append] at h
    obtain ⟨idx', hlt, hscan, hrotate⟩ := scanSlots_of_found h hidx hskipped hopen
      (show skipped.length < slots.length by omega)
    rw [List.append_assoc, List.append_assoc] at hrotate
    obtain ⟨idx'', hcalls⟩ := ih hrotate hlt hrest
    have hnext : nextConnection isClosed slots idx = .ok (some c, idx') := hscan
    refine ⟨idx'', ?_⟩
    simp only [List.length_cons, nextConnections, hnext, hcalls, bind, Except.bind]
    rfl

/-- The slots from the cursor on have the open connections of all slots, in cyclic order. -/
theorem filterMap_rotate_isRotated :
    (slots.rotate idx).filterMap (openIn isClosed) ~r slots.filterMap (openIn isClosed) := by
  set i := idx % slots.length
  have hslots : slots.filterMap (openIn isClosed) = (slots.take i).filterMap (openIn isClosed) ++
      (slots.drop i).filterMap (openIn isClosed) := by
    rw [← List.filterMap_append, List.take_append_drop]
  rw [List.rotate_eq_drop_append_take_mod, List.filterMap_append, hslots]
  exact List.isRotated_append

end Calls

/-! ## Cursors -/

/-- The cursors of a pool of `n` slots: those that calls leave behind, whatever the slots hold at
each. -/
inductive Cursor (n : ℕ) : ℕ → Prop
  | start : Cursor n 0
  | next {isClosed : ConnId → Bool} {slots : List (Option ConnId)} {found : Option ConnId}
      {idx idx' : ℕ} : Cursor n idx → slots.length = n →
      nextConnection isClosed slots idx = .ok (found, idx') → Cursor n idx'

/-- **The cursor is in the pool**, unless the pool is empty. -/
theorem Cursor.lt {n idx : ℕ} (h : Cursor n idx) (hn : 0 < n) : idx < n := by
  induction h with
  | start => exact hn
  | next hcursor hlen hnext ih =>
    subst hlen
    obtain ⟨idx', hlt, heq⟩ := nextConnection_eq ih
    rw [heq] at hnext
    cases hnext
    exact hlt

/-- A call looks at slots of the pool only, and finds a connection whenever one is open. -/
theorem Cursor.nextConnection {n idx : ℕ} (hcursor : Cursor n idx) (isClosed : ConnId → Bool)
    {slots : List (Option ConnId)} (hlen : slots.length = n) :
    ∃ found idx', RzProxy.nextConnection isClosed slots idx = .ok (found, idx') ∧
      (found = none ↔ ∀ slot ∈ slots, openIn isClosed slot = none) ∧ (0 < n → idx' < n) := by
  subst hlen
  rcases Nat.eq_zero_or_pos slots.length with hempty | hpos
  · obtain rfl := List.eq_nil_of_length_eq_zero hempty
    exact ⟨none, idx, rfl, by simp, fun h => absurd h (by simp)⟩
  · obtain ⟨idx', hlt, hnext⟩ := nextConnection_eq (hcursor.lt hpos)
    exact ⟨_, idx', hnext, findSome?_rotate_eq_none_iff, fun _ => hlt⟩

/-- Consecutive calls, as many as there are open slots, return their connections in turn. -/
theorem Cursor.nextConnections {n idx : ℕ} (hcursor : Cursor n idx) (isClosed : ConnId → Bool)
    {slots : List (Option ConnId)} (hlen : slots.length = n) :
    ∃ idx', RzProxy.nextConnections isClosed slots (slots.filterMap (openIn isClosed)).length idx =
      .ok (((slots.rotate idx).filterMap (openIn isClosed)).map some, idx') := by
  subst hlen
  rcases Nat.eq_zero_or_pos slots.length with hempty | hpos
  · obtain rfl := List.eq_nil_of_length_eq_zero hempty
    exact ⟨idx, by simp [RzProxy.nextConnections]⟩
  · have hturns : (slots.rotate idx).filterMap (openIn isClosed) ~r
        slots.filterMap (openIn isClosed) := filterMap_rotate_isRotated
    rw [← hturns.perm.length_eq]
    exact nextConnections_of_prefix (List.append_nil _).symm (hcursor.lt hpos) rfl

/-! ## The cursor of the handler -/

/-- Only a call that picks a connection moves the cursor. -/
theorem nextConn_of_exec {s s' : State} {k : CallId} (h : s.exec k = some s') :
    s'.nextConn = s.nextConn ∨
      ∃ found, nextConnection s.isClosed s.slots s.nextConn = .ok (found, s'.nextConn) := by
  have hexec := h
  unfold State.exec at h
  cases hpc : (s.calls k).pc with
  | pick =>
    obtain ⟨idx, ⟨hn, rfl⟩ | ⟨c, hn, rfl⟩⟩ := exec_of_pick hpc hexec
    · exact .inr ⟨none, hn⟩
    · exact .inr ⟨some c, hn⟩
  | check c =>
    simp only [hpc] at h
    obtain rfl := Option.some.inj h
    split_ifs
    · exact .inl rfl
    · exact .inl rfl
  | draw c | store c corrId x | sleep held =>
    obtain rfl := by simpa [hpc] using h
    exact .inl rfl
  | send c corrId x =>
    simp only [hpc, State.sendFrame] at h
    split_ifs at h
    · simp only [Option.map_map, Option.map_eq_some_iff] at h
      obtain ⟨conn, -, rfl⟩ := h
      exact .inl rfl
    · obtain rfl := by simpa using h
      exact .inl rfl
  | wait c corrId x =>
    simp only [hpc] at h
    cases ho : (s.chans x).oneshot with
    | empty => simp [ho] at h
    | sent b | closed =>
      obtain rfl := by simpa [ho] using h
      exact .inl rfl
  | finished r | dropped => simp [hpc] at h

/-- A step keeps the number of slots, and moves the cursor by a call of `next_connection` only. -/
theorem pool_of_act {s s' : State} {a : Action} (h : s.act a = some s') :
    s'.slots.length = s.slots.length ∧ (s'.nextConn = s.nextConn ∨
      ∃ found, nextConnection s.isClosed s.slots s.nextConn = .ok (found, s'.nextConn)) := by
  cases change_of_act h with
  | move attempts nextConn hk =>
    rw [State.act, if_pos hk] at h
    exact ⟨rfl, nextConn_of_exec h⟩
  | connect connected i reconnecting => exact ⟨List.length_set, .inl rfl⟩
  | newCall | draw | store | queue | sendFailed | answered | unanswered | cancel | cancelStore
  | lock | conn | take => exact ⟨rfl, .inl rfl⟩

/-- **The cursor of the handler is always one that calls leave behind.** -/
theorem cursor_of_reachable {s : State} (h : handler.Reachable s) :
    Cursor s.slots.length s.nextConn := by
  refine Machine.Reach.invariant (P := fun s => Cursor s.slots.length s.nextConn) ?_ ?_ h
  · rintro s ⟨cfg, rfl⟩
    exact .start
  · intro s a s' _ hcursor _ hstep
    obtain ⟨s₁, hact, rfl⟩ := Option.map_eq_some_iff.mp hstep
    obtain ⟨hlen, hsame | ⟨found, hnext⟩⟩ := pool_of_act hact
    · show Cursor s₁.slots.length s₁.nextConn
      rw [hlen, hsame]
      exact hcursor
    · show Cursor s₁.slots.length s₁.nextConn
      rw [hlen]
      exact hcursor.next rfl hnext

/-- No call panics over its cursor. -/
theorem nextConnection_of_reachable {s : State} (h : handler.Reachable s) :
    ∃ found idx, nextConnection s.isClosed s.slots s.nextConn = .ok (found, idx) := by
  obtain ⟨found, idx, hnext, -⟩ := (cursor_of_reachable h).nextConnection s.isClosed rfl
  exact ⟨found, idx, hnext⟩

/-- **A call finds a connection whenever one is open, and as many calls as there are open
connections return each of them, in cyclic order from the cursor.** -/
theorem nextConnection_complete_fair {n idx : ℕ} (hcursor : Cursor n idx)
    (isClosed : ConnId → Bool) {slots : List (Option ConnId)} (hlen : slots.length = n) :
    (∃ found idx', nextConnection isClosed slots idx = .ok (found, idx') ∧
      (found = none ↔ ∀ slot ∈ slots, openIn isClosed slot = none) ∧ (0 < n → idx' < n)) ∧
    (∃ idx', nextConnections isClosed slots (slots.filterMap (openIn isClosed)).length idx =
      .ok (((slots.rotate idx).filterMap (openIn isClosed)).map some, idx')) ∧
    (slots.rotate idx).filterMap (openIn isClosed) ~r slots.filterMap (openIn isClosed) :=
  ⟨hcursor.nextConnection isClosed hlen, hcursor.nextConnections isClosed hlen,
    filterMap_rotate_isRotated⟩

/-- A pool of three slots, of which the second is empty. -/
theorem nextConnection_complete_fair_three :
    ∃ idx', nextConnections (fun _ => false) [some 0, none, some 1] 2 0 =
      .ok ([some 0, some 1], idx') :=
  (nextConnection_complete_fair (.start : Cursor 3 0) (fun _ => false)
    (show [some 0, none, some 1].length = 3 from rfl)).2.1

end RzProxy
