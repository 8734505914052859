import RzProxy.Handler.Correlation

/-!
# Stored senders stay until they are answered

While no connection draws more than `2 ^ 32` ids, no id comes back, so no sender is stored in the
place of another; and a connection whose senders somebody waits for is held, so it is not dropped
with them. Hence a stored sender stays in its map until a frame takes it, and a call that has put
its frame in a queue never tries again.

## Main definitions

* `Bounded`: no connection has drawn more than `2 ^ 32` ids
* `Holding`: a connection that somebody holds was not dropped
* `Kept`: a stored sender is in its map, or was answered

## Main results

* `kept_of_reach`: stored senders stay
* `length_queued_le_one`: a call puts its frame in a queue at most once
-/

namespace RzProxy

open ByteString Streaming Machines

/-- No connection has drawn more than `2 ^ 32` correlation ids. -/
def Bounded (s : State) : Prop := ∀ c, (s.conns c).drawn ≤ 2 ^ 32

/-! ## What a step keeps of a connection -/

theorem Connection.Local.dropped {m : ℕ} {c : ConnId} {a : Action} {k k' : Connection}
    (h : k.Local m c a k') :
    k'.dropped = k.dropped ∧ (k'.heldByTask = true → k.heldByTask = true) := by
  cases h with
  | unknownId task | readClosed task | readDone task | writeClosed task | writeDone task
  | writeError task | keepaliveStop task | keepaliveTick task | keepaliveSend task =>
    exact ⟨rfl, by simp [Connection.heldByTask, Connection.unknownId, task]⟩
  | readError wants => exact ⟨rfl, by simp [Connection.heldByTask, wants.1]⟩
  | malformed task => exact ⟨rfl, by simp [Connection.heldByTask, task]⟩
  | close | deliver | recv | drain | write => exact ⟨rfl, id⟩

theorem Connection.Moves.dropped {m : ℕ} {c : ConnId} {a : Action} {k k' : Connection}
    (h : k.Moves m c a k') :
    k'.dropped = k.dropped ∧ (k'.heldByTask = true → k.heldByTask = true) := by
  cases h with
  | alone hl => exact hl.dropped
  | push hp => exact Connection.push_eq hp ▸ ⟨rfl, id⟩
  | draw | register | refuse | take => exact ⟨rfl, id⟩

theorem Connection.Moves.drawn_le {m : ℕ} {c : ConnId} {a : Action} {k k' : Connection}
    (h : k.Moves m c a k') :
    k.drawn ≤ k'.drawn := by
  cases h with
  | alone hl => exact (congrArg (fun r => r.2.2.1) hl.registry).ge
  | push hp => exact Connection.push_eq hp ▸ le_refl _
  | draw => exact Nat.le_succ _
  | register | refuse | take => exact le_refl _

theorem Connection.Moves.drawn_le_succ {m : ℕ} {c : ConnId} {a : Action} {k k' : Connection}
    (h : k.Moves m c a k') : k'.drawn ≤ k.drawn + 1 := by
  cases h with
  | alone hl => exact (congrArg (fun r => r.2.2.1) hl.registry).le.trans (Nat.le_succ _)
  | push hp => exact Connection.push_eq hp ▸ Nat.le_succ _
  | draw => exact le_refl _
  | register | refuse | take => exact Nat.le_succ _

theorem conns_reap (s : State) (c : ConnId) :
    s.reap.conns c = if s.reaped c then (s.conns c).drop else s.conns c := rfl

theorem drawn_reap (s : State) (c : ConnId) : (s.reap.conns c).drawn = (s.conns c).drawn := by
  rw [conns_reap]
  split_ifs <;> rfl

/-- No step gets back under the bound. -/
theorem Bounded.of_step {s s' : State} {a : Action} (hstep : handler.step s a = some s')
    (hb : Bounded s') : Bounded s := by
  obtain ⟨s₁, hc, rfl⟩ := step_cases hstep
  intro c
  have hd : (s₁.tick.reap.conns c).drawn = (s₁.conns c).drawn := drawn_reap _ _
  have hle : (s.conns c).drawn ≤ (s₁.conns c).drawn := by
    rcases hc.conns c with he | hm
    · rw [he]
    · exact hm.drawn_le
  exact hle.trans (hd ▸ hb c)

/-! ## Held connections -/

/-- A connection that somebody holds was not dropped, nor one that was not made yet. -/
structure Holding (s : State) : Prop where
  call : ∀ {k c}, (s.calls k).pc.holds = some c → k < s.callCount ∧ (s.conns c).dropped = false
  slot : ∀ {c}, some c ∈ s.slots → (s.conns c).dropped = false
  task : ∀ {c}, (s.conns c).heldByTask = true → (s.conns c).dropped = false
  unmade : ∀ {c}, s.connCount ≤ c → (s.conns c).dropped = false

theorem Change.callCount_le {s s' : State} {a : Action} (h : Change s a s') :
    s.callCount ≤ s'.callCount := by
  cases h with
  | newCall => exact Nat.le_succ _
  | _ => exact le_refl _

theorem Call.Moves.holds {s : State} {k : CallId} {call call' : Call} {a : Action}
    (h : call.Moves s k a call') {c : ConnId} (hc : call'.pc.holds = some c) :
    call.pc.holds = some c ∨ k < s.callCount ∧ some c ∈ s.slots := by
  cases h with
  | new segment isWrite payload =>
    dsimp only at hc
    split_ifs at hc <;> cases hc
  | between attempts hk before after holds => exact (holds c hc).imp_right fun hs => ⟨hk, hs⟩
  | draw pc | store pc | wait pc =>
    rw [pc]
    exact .inl hc
  | unanswered attempts pc closed after =>
    rw [pc]
    rcases after with rfl | rfl
    · exact .inl hc
    · cases hc
  | answered | cancel => cases hc

/-- A call gets hold of a connection only through the pool. -/
theorem Change.holds {s s' : State} {a : Action} (h : Change s a s') {k : CallId} {c : ConnId}
    (hk : (s'.calls k).pc.holds = some c) :
    (s.calls k).pc.holds = some c ∨ k < s.callCount ∧ some c ∈ s.slots := by
  rcases h.calls k with he | hm
  · exact .inl (he ▸ hk)
  · exact hm.holds hk

theorem Change.slots {s s' : State} {a : Action} (h : Change s a s') {c : ConnId}
    (hc : some c ∈ s'.slots) : some c ∈ s.slots ∨ c = s.connCount := by
  cases h with
  | connect connected i reconnecting =>
    rcases List.mem_or_eq_of_mem_set hc with hc | hc
    · exact .inl hc
    · exact .inr (Option.some.inj hc)
  | _ => exact .inl hc

theorem Change.connCount_le {s s' : State} {a : Action} (h : Change s a s') :
    s.connCount ≤ s'.connCount := by
  cases h with
  | connect => exact Nat.le_succ _
  | _ => exact le_refl _

theorem Change.dropped {s s' : State} {a : Action} (h : Change s a s') (c : ConnId) :
    (s'.conns c).dropped = (s.conns c).dropped := by
  rcases h.conns c with he | hm
  · rw [he]
  · exact hm.dropped.1

theorem Holding.change {s s' : State} {a : Action} (hs : Holding s) (h : Change s a s') :
    Holding s' := by
  refine ⟨fun {k c} hk => ?_, fun {c} hc => ?_, fun {c} ht => ?_, fun {c} hc => ?_⟩
  · rw [h.dropped]
    rcases h.holds hk with hk | ⟨hk, hc⟩
    · exact ⟨(hs.call hk).1.trans_le h.callCount_le, (hs.call hk).2⟩
    · exact ⟨hk.trans_le h.callCount_le, hs.slot hc⟩
  · rw [h.dropped]
    rcases h.slots hc with hc | rfl
    · exact hs.slot hc
    · exact hs.unmade (le_refl _)
  · rw [h.dropped]
    rcases h.conns c with he | hm
    · exact hs.task (he ▸ ht)
    · exact hs.task (hm.dropped.2 ht)
  · rw [h.dropped]
    exact hs.unmade (h.connCount_le.trans hc)

theorem Holding.tick {s : State} (hs : Holding s) : Holding s.tick :=
  ⟨hs.call, hs.slot, hs.task, hs.unmade⟩

/-- A call holds its connection. -/
theorem Holding.held {s : State} (hs : Holding s) {k : CallId} {c : ConnId}
    (hk : (s.calls k).pc.holds = some c) : s.held c = true := by
  have hany : ((List.range s.callCount).any fun k => (s.calls k).pc.holds = some c) = true := by
    simp only [List.any_eq_true, List.mem_range, decide_eq_true_eq]
    exact ⟨k, (hs.call hk).1, hk⟩
  simp [State.held, hany]

theorem conns_reap_of_held {s : State} {c : ConnId} (h : s.held c = true) :
    s.reap.conns c = s.conns c := by
  rw [conns_reap, if_neg (by simp [State.reaped, h])]

/-- What somebody holds is not dropped. -/
theorem Holding.reap {s : State} (hs : Holding s) : Holding s.reap := by
  refine ⟨fun {k c} hk => ⟨(hs.call hk).1, ?_⟩, fun {c} hc => ?_, fun {c} ht => ?_,
    fun {c} hc => ?_⟩
  · rw [conns_reap_of_held (hs.held hk)]
    exact (hs.call hk).2
  · have hcon : some c ∈ s.slots := hc
    rw [conns_reap_of_held (by simp [State.held, hcon])]
    exact hs.slot hc
  · have ht' : (s.conns c).heldByTask = true := by
      rw [conns_reap] at ht
      split_ifs at ht <;> exact ht
    rw [conns_reap_of_held (by simp [State.held, ht'])]
    exact hs.task ht'
  · rw [conns_reap, if_neg]
    · exact hs.unmade hc
    · have hlt : ¬ c < s.connCount := by
        have : s.connCount ≤ c := hc
        omega
      simp [State.reaped, hlt]

theorem holding_of_reach {ok : State → Action → Prop} {s : State} (hs : handler.Reach ok s) :
    Holding s := by
  refine hs.invariant ?_ fun s a s' _ h _ hstep => ?_
  · rintro s ⟨cfg, rfl⟩
    refine ⟨nofun, fun {c} hc => ?_, fun _ => rfl, fun _ => rfl⟩
    simp [State.initial] at hc
  · obtain ⟨s₁, hc, rfl⟩ := step_cases hstep
    exact (h.change hc).tick.reap

/-! ## Stored senders -/

variable {s : State}

/-- Under the bound the id of a channel names it among the channels of its connection. -/
theorem Correlated.eq_of_corrId (h : Correlated s) (hb : Bounded s) {x y : ChanId}
    (hx : x < s.chanCount) (hy : y < s.chanCount) (hc : (s.chans x).conn = (s.chans y).conn)
    (hi : (s.chans x).corrId = (s.chans y).corrId) : x = y := by
  obtain ⟨hix, hdx⟩ := h.drawn hx
  obtain ⟨hiy, hdy⟩ := h.drawn hy
  have hbx := hb (s.chans x).conn
  have hby := hb (s.chans y).conn
  refine h.drawInj hx hy hc ?_
  have hmod : (1 + (s.chans x).draw) % 2 ^ 32 = (1 + (s.chans y).draw) % 2 ^ 32 := by
    rw [← UInt32.toNat_ofNat', ← UInt32.toNat_ofNat', ← hix, ← hiy, hi]
  omega

/-- A stored sender is in its map, or was answered, unless its connection was dropped. -/
structure Kept (s : State) : Prop where
  stored : ∀ {k x}, (s.calls k).pc.stored = some x → (s.chans x).storedAt ≠ none
  kept : ∀ {x}, x < s.chanCount → (s.chans x).storedAt ≠ none →
    (s.conns (s.chans x).conn).dropped = false → (s.chans x).oneshot ≠ .closed ∧
      ((s.chans x).oneshot = .empty →
        (s.conns (s.chans x).conn).demux (s.chans x).corrId = some x)

/-- A sender that keeps its entries keeps its place. -/
theorem Kept.of_conns (h : Kept s) {conns : ConnId → Connection} {y : ChanId}
    (hdropped : ∀ d, (conns d).dropped = (s.conns d).dropped)
    (hdemux : ∀ d id, (s.conns d).demux id = some y → (conns d).demux id = some y)
    (hy : y < s.chanCount) (hst : (s.chans y).storedAt ≠ none)
    (hd : (conns (s.chans y).conn).dropped = false) :
    (s.chans y).oneshot ≠ .closed ∧ ((s.chans y).oneshot = .empty →
      (conns (s.chans y).conn).demux (s.chans y).corrId = some y) := by
  rw [hdropped] at hd
  obtain ⟨hne, hentry⟩ := h.kept hy hst hd
  exact ⟨hne, fun he => hdemux _ _ (hentry he)⟩

/-- A sender keeps its entries when one that is not its own changes. -/
theorem demux_update_of_ne {conns : ConnId → Connection} {c d : ConnId} {k : Connection}
    {id id' : UInt32} {v : Option ChanId} {y : ChanId}
    (hk : k.demux = Function.update (conns c).demux id v) (hne : (conns c).demux id ≠ some y)
    (he : (conns d).demux id' = some y) : (Function.update conns c k d).demux id' = some y := by
  by_cases hdc : d = c
  · subst hdc
    have hid : id' ≠ id := fun hid => hne (hid ▸ he)
    rw [Function.update_self, hk, Function.update_of_ne hid]
    exact he
  · rw [Function.update_of_ne hdc]
    exact he

theorem Kept.tame {s' : State} (h : Kept s) (ht : Tame s s') : Kept s' := by
  refine ⟨fun {k x} hk => ?_, fun {x} hx hst hd => ?_⟩
  · rw [ht.chans]
    exact h.stored (ht.stored k x hk)
  · have hdemux : ∀ c, (s'.conns c).demux = (s.conns c).demux := fun c =>
      congrArg (fun r => r.2.1) (ht.conns c)
    have hdropped : ∀ c, (s'.conns c).dropped = (s.conns c).dropped := fun c =>
      congrArg (fun r => r.2.2.2.1) (ht.conns c)
    rw [ht.chanCount] at hx
    rw [ht.chans] at hst hd ⊢
    exact h.of_conns hdropped (fun d id he => hdemux d ▸ he) hx hst hd

/-- A sender that is stored after a call moved was stored before, if the call stored none. -/
theorem stored_of_update {calls : CallId → Call} {k j : CallId} {call : Call} {x : ChanId}
    (h : call.pc.stored = none) (hj : (Function.update calls k call j).pc.stored = some x) :
    (calls j).pc.stored = some x := by
  refine of_update (P := fun call : Call => call.pc.stored = some x) (fun hx => ?_) hj
  rw [h] at hx
  cases hx

theorem Kept.draw (h : Kept s) (hcorr : Correlated s) {k : CallId} {c : ConnId} :
    Kept (s.drawCorrId k c) := by
  have hchan {x : ChanId} (hx : x < s.chanCount) := chans_drawCorrId_of_lt s k c hx
  have hdropped : ∀ d, ((s.drawCorrId k c).conns d).dropped = (s.conns d).dropped :=
    apply_update_eq Connection.dropped rfl
  refine ⟨fun {j x} hj => ?_, fun {x} hx hst hd => ?_⟩
  · have hj' := stored_of_update rfl hj
    have ha : ∃ d id, (s.calls j).pc.attempt = some (d, id, x) := by
      cases hp : (s.calls j).pc <;> simp_all [Pc.stored, Pc.attempt]
    obtain ⟨d, id, ha⟩ := ha
    rw [hchan (hcorr.attempt ha).1]
    exact h.stored hj'
  · rcases Nat.lt_succ_iff_lt_or_eq.mp hx with hx | rfl
    · rw [hchan hx] at hst hd ⊢
      exact h.of_conns hdropped (fun d id he => (demux_drawCorrId s k c d) ▸ he) hx hst hd
    · rw [chans_drawCorrId] at hst
      exact absurd rfl hst

/-- An id is vacant when the only sender that could be stored under it is still with its call. -/
theorem Correlated.vacant (h : Correlated s) {k : CallId} {c : ConnId} {id : UInt32} {x : ChanId}
    (hpc : (s.calls k).pc = .store c id x) (hy : ∀ y, (s.conns c).demux id = some y → y = x) :
    (s.conns c).demux id = none := by
  by_contra hne
  obtain ⟨y, he⟩ := Option.ne_none_iff_exists'.mp hne
  exact h.ne_of_entry hpc he (hy y he)

/-- A store takes no other sender's place. -/
theorem Kept.store (h : Kept s) (hcorr : Correlated s) (hb : Bounded s) {k : CallId} {c : ConnId}
    {id : UInt32} {x : ChanId} (hpc : (s.calls k).pc = .store c id x) :
    Kept ((s.store c id x).setPc k (.send c id x)) := by
  obtain ⟨hempty, -⟩ := hcorr.unstored hpc
  obtain ⟨hx, -, hconn, hid, -⟩ := hcorr.attempt (by rw [hpc]; rfl)
  -- under the bound nobody else's sender is stored under the id
  have hvacant : (s.conns c).demux id = none := by
    refine hcorr.vacant hpc fun y hy => ?_
    obtain ⟨hlt, hc, hi, -⟩ := hcorr.entry hy
    exact hcorr.eq_of_corrId hb hlt hx (hc.trans hconn.symm) (hi.trans hid.symm)
  refine ⟨fun {j y} hj => ?_, fun {y} hy hst hd => ?_⟩
  · show ((s.store c id x).chans y).storedAt ≠ none
    rw [(chans_store s c id x y).2.2]
    split_ifs with hyx
    · exact Option.some_ne_none _
    · refine h.stored (k := j) ?_
      by_cases hjk : j = k
      · subst hjk
        have hyx' : some x = some y := by simpa [State.setPc, State.setCall, Pc.stored] using hj
        exact absurd (Option.some.inj hyx').symm hyx
      · simpa [State.setPc, State.setCall, State.store, hjk] using hj
  · change ((s.store c id x).chans y).storedAt ≠ none at hst
    change ((s.store c id x).conns ((s.store c id x).chans y).conn).dropped = false at hd
    show ((s.store c id x).chans y).oneshot ≠ .closed ∧
      (((s.store c id x).chans y).oneshot = .empty →
        ((s.store c id x).conns ((s.store c id x).chans y).conn).demux
          ((s.store c id x).chans y).corrId = some y)
    obtain ⟨hl, ho, ht⟩ := chans_store s c id x y
    simp only [Chan.label, Prod.mk.injEq] at hl
    obtain ⟨-, hyc, hyi, -⟩ := hl
    have hsome : ¬ (none : Option ChanId) = some y := fun hy => by cases hy
    rw [hyc] at hd
    rw [ht] at hst
    rw [ho, hyc, hyi, hvacant, if_neg hsome]
    by_cases hyx : y = x
    · subst hyx
      rw [hconn, hid, conns_store, if_pos rfl]
      refine ⟨?_, fun _ => Function.update_self ..⟩
      rw [hempty]
      intro he
      cases he
    · rw [if_neg hyx] at hst
      refine h.of_conns (apply_update_eq Connection.dropped rfl) (fun d id' he => ?_) hy hst hd
      exact demux_update_of_ne rfl (hvacant.trans_ne hsome) he

theorem Kept.cancelStore (h : Kept s) (hcorr : Correlated s) {k : CallId} {c : ConnId}
    {id : UInt32} {x : ChanId} (hpc : (s.calls k).pc = .store c id x) :
    Kept ((s.closeChan x).setPc k .dropped) := by
  have hnone := (hcorr.unstored hpc).2
  refine ⟨fun {j y} hj => ?_, fun {y} hy hst hd => ?_⟩
  · have hj' := stored_of_update rfl hj
    have hyx : y ≠ x := by
      rintro rfl
      exact h.stored hj' hnone
    show ((s.closeChan x).chans y).storedAt ≠ none
    rw [chans_closeChan, if_neg hyx]
    exact h.stored hj'
  · change ((s.closeChan x).chans y).storedAt ≠ none at hst
    change (s.conns ((s.closeChan x).chans y).conn).dropped = false at hd
    show ((s.closeChan x).chans y).oneshot ≠ .closed ∧ (((s.closeChan x).chans y).oneshot = .empty →
      (s.conns ((s.closeChan x).chans y).conn).demux ((s.closeChan x).chans y).corrId = some y)
    by_cases hyx : y = x
    · subst hyx
      rw [chans_closeChan, if_pos rfl] at hst
      exact absurd hnone hst
    · rw [chans_closeChan, if_neg hyx] at hst hd ⊢
      exact h.kept hy hst hd

theorem Kept.take (h : Kept s) {c : ConnId} {header : Header}
    {payload : Bytes} {x : ChanId} (hx : (s.conns c).demux header.clrId = some x) :
    Kept ((s.setChan x fun chan => { chan with oneshot := .sent payload }).setConn c
      ((s.conns c).take header payload x s.clock)) := by
  generalize hs' : (s.setChan x fun chan => { chan with oneshot := .sent payload }).setConn c
    ((s.conns c).take header payload x s.clock) = s'
  have hsent : s'.chans x = { s.chans x with oneshot := .sent payload } :=
    hs' ▸ Function.update_self ..
  have hchan : ∀ {y}, y ≠ x → s'.chans y = s.chans y := fun hyx =>
    hs' ▸ Function.update_of_ne hyx _ _
  refine ⟨fun {j y} hj => ?_, fun {y} hy hst hd => ?_⟩
  · have hj' : (s.calls j).pc.stored = some y := by rwa [← hs'] at hj
    by_cases hyx : y = x
    · subst hyx
      rw [hsent]
      exact h.stored hj'
    · rw [hchan hyx]
      exact h.stored hj'
  · have hy' : y < s.chanCount := by rwa [← hs'] at hy
    by_cases hyx : y = x
    · subst hyx
      rw [hsent]
      exact ⟨nofun, nofun⟩
    · have hother : (s.conns c).demux header.clrId ≠ some y := by
        rw [hx]
        exact fun he => hyx (Option.some.inj he).symm
      rw [hchan hyx] at hst hd ⊢
      subst hs'
      refine h.of_conns (apply_update_eq Connection.dropped rfl) (fun d id he => ?_) hy' hst hd
      exact demux_update_of_ne rfl hother he

/-- A connection that is dropped takes only its own senders with it. -/
theorem Kept.reap (h : Kept s) : Kept s.reap := by
  have hchan : ∀ x, s.reap.chans x = if s.reaped (s.chans x).conn ∧
      (s.conns (s.chans x).conn).demux (s.chans x).corrId = some x then
      { s.chans x with oneshot := .closed } else s.chans x := fun _ => rfl
  have hlabel : ∀ x, (s.reap.chans x).conn = (s.chans x).conn ∧
      (s.reap.chans x).storedAt = (s.chans x).storedAt := by
    intro x
    rw [hchan]
    split_ifs <;> exact ⟨rfl, rfl⟩
  refine ⟨fun {k x} hk => ?_, fun {x} hx hst hd => ?_⟩
  · rw [(hlabel x).2]
    exact h.stored hk
  · rw [(hlabel x).2] at hst
    rw [(hlabel x).1, conns_reap] at hd
    have hr : ¬ s.reaped (s.chans x).conn := by
      intro hr
      rw [if_pos hr] at hd
      cases hd
    rw [if_neg hr] at hd
    rw [hchan, if_neg fun h' => hr h'.1, conns_reap, if_neg hr]
    exact h.kept hx hst hd

theorem Kept.change {s' : State} {a : Action} (h : Kept s) (hcorr : Correlated s) (hb : Bounded s)
    (hc : Change s a s') : Kept s' := by
  rcases hc.tame_or_special with ht | hsp
  · exact h.tame ht
  cases hsp with
  | draw => exact h.draw hcorr
  | store pc => exact h.store hcorr hb pc
  | answered =>
    exact ⟨fun hk => h.stored (stored_of_update rfl hk), h.kept⟩
  | cancelStore pc => exact h.cancelStore hcorr pc
  | take stored => exact h.take stored

/-- **Stored senders stay** until they are answered. -/
theorem kept_of_reach {ok : State → Action → Prop} (hs : handler.Reach ok s) (hb : Bounded s) :
    Kept s := by
  -- the counters only grow, so that the bound holds all along the run
  refine hs.invariant_of_bound (fun _ _ _ hst => Bounded.of_step hst) ?_
    (fun s a s' hr hb _ h _ hstep => ?_) hb
  · rintro s ⟨cfg, rfl⟩
    exact ⟨nofun, nofun⟩
  · obtain ⟨s₁, hc, rfl⟩ := step_cases hstep
    exact ((h.change (correlated_of_reach hr) hb hc).tame (tame_tick _)).reap

/-- The sender of a call that waits, or is about to, was not dropped. -/
theorem Kept.not_closed (h : Kept s) (hcorr : Correlated s) (hh : Holding s) {k : CallId}
    {c : ConnId} {id : UInt32} {x : ChanId} (hpc : (s.calls k).pc = .wait c id x) :
    (s.chans x).oneshot ≠ .closed := by
  obtain ⟨hx, -, hc, -⟩ := hcorr.attempt (by rw [hpc]; rfl)
  have hd := (hh.call (k := k) (c := c) (by rw [hpc]; rfl)).2
  exact (h.kept hx (h.stored (by rw [hpc]; rfl)) (hc ▸ hd)).1

/-! ## At most once -/

/-- A call that has not put a frame in a queue in its present attempt. -/
def Pc.Unsent : Pc → Prop
  | .pick | .check _ | .draw _ | .store _ _ _ | .send _ _ _ | .sleep _ => True
  | _ => False

theorem Pc.Between.unsent {pc : Pc} (h : pc.Between) : pc.Unsent := by
  cases pc <;> trivial

/-- A call has put at most one frame in a queue, and none before it waits. -/
def Once (call : Call) : Prop :=
  call.queued.length ≤ 1 ∧ (call.pc.Unsent → call.queued = [])

/-- A call sends nothing new unless it had sent nothing, or its sender was dropped. -/
theorem Call.Moves.once {k : CallId} {call call' : Call} {a : Action} (h : call.Moves s k a call')
    (hcall : Once call)
    (hopen : ∀ {c id x}, call.pc = .wait c id x → (s.chans x).oneshot ≠ .closed) : Once call' := by
  obtain ⟨hle, hnil⟩ := hcall
  cases h with
  | new => exact ⟨Nat.zero_le _, fun _ => rfl⟩
  | between attempts hk before after holds => exact ⟨hle, fun _ => hnil before.unsent⟩
  | draw pc => exact ⟨hle, fun _ => hnil (by rw [pc]; trivial)⟩
  | store pc => exact ⟨hle, fun _ => hnil (by rw [pc]; trivial)⟩
  | @wait c id x pc queued after =>
    have hnone : call.queued = [] := hnil (by rw [pc]; trivial)
    refine ⟨?_, fun hu => by cases hu⟩
    obtain ⟨-, rfl⟩ | ⟨-, rfl⟩ := after
    · show (call.queued ++ _).length ≤ 1
      rw [hnone]
      exact le_refl 1
    · exact hle
  | answered => exact ⟨hle, fun hu => by cases hu⟩
  | unanswered attempts pc closed => exact absurd closed (hopen pc)
  | cancel => exact ⟨hle, fun hu => by cases hu⟩

theorem once_change {s' : State} {a : Action} (h : ∀ k, Once (s.calls k)) (hcorr : Correlated s)
    (hh : Holding s) (hkept : Kept s) (hc : Change s a s') (k : CallId) : Once (s'.calls k) := by
  rcases hc.calls k with he | hm
  · rw [he]
    exact h k
  · exact hm.once (h k) (hkept.not_closed hcorr hh)

/-- **At most once.** A call puts its frame in a send queue at most once. -/
theorem length_queued_le_one (hs : handler.Reachable s) (hb : Bounded s) (k : CallId) :
    (s.calls k).queued.length ≤ 1 := by
  have honce : ∀ k, Once (s.calls k) := by
    refine hs.invariant_of_bound (P := fun s => ∀ k, Once (s.calls k))
      (fun _ _ _ hst => Bounded.of_step hst) ?_ (fun s a s' hr hb _ h _ hstep => ?_) hb
    · rintro s ⟨cfg, rfl⟩ k
      exact ⟨Nat.zero_le _, fun _ => rfl⟩
    · obtain ⟨s₁, hc, rfl⟩ := step_cases hstep
      have h₁ := once_change h (correlated_of_reach hr) (holding_of_reach hr)
        (kept_of_reach hr hb) hc
      exact h₁
  exact (honce k).1

/-- A connection draws at most one id a step. -/
theorem drawn_le_clock {ok : State → Action → Prop} (hs : handler.Reach ok s) (c : ConnId) :
    (s.conns c).drawn ≤ s.clock := by
  refine hs.invariant (P := fun s => ∀ c, (s.conns c).drawn ≤ s.clock) ?_
    (fun s a s' _ h _ hstep => ?_) c
  · rintro s ⟨cfg, rfl⟩ c
    exact le_refl 0
  · obtain ⟨s₁, hc, rfl⟩ := step_cases hstep
    intro d
    have hclock : s.clock ≤ s₁.clock := by cases hc <;> exact le_refl _
    have hd : (s₁.conns d).drawn ≤ s₁.clock + 1 := by
      rcases hc.conns d with he | hm
      · rw [he]
        exact (h d).trans (hclock.trans (Nat.le_succ _))
      · exact hm.drawn_le_succ.trans (Nat.succ_le_succ ((h d).trans hclock))
    exact (drawn_reap _ _).trans_le hd

theorem bounded_of_clock (hs : handler.Reachable s) (h : s.clock ≤ 2 ^ 32) : Bounded s :=
  fun c => (drawn_le_clock hs c).trans h

/-- A call that first finds no connection, and then is answered. -/
theorem length_queued_le_one_after_retry :
    ∃ s, handler.run (State.initial ⟨.router, "host", 1, 1⟩)
        [.call "eu" true [1, 65], .exec 0, .reconnect true, .reconnect true, .reconnect true,
          .exec 0, .exec 0, .exec 0, .exec 0, .exec 0, .exec 0, .write 0,
          .deliver 0 (prependHeader 1 [0, 0, 0]), .recv 0 12, .read 0, .read 0, .exec 0] = some s ∧
      (s.calls 0).pc = .finished (.ok [0, 0, 0]) ∧ (s.calls 0).queued.length ≤ 1 := by
  have hrun : (handler.run (State.initial ⟨.router, "host", 1, 1⟩)
      [.call "eu" true [1, 65], .exec 0, .reconnect true, .reconnect true, .reconnect true,
        .exec 0, .exec 0, .exec 0, .exec 0, .exec 0, .exec 0, .write 0,
        .deliver 0 (prependHeader 1 [0, 0, 0]), .recv 0 12, .read 0, .read 0, .exec 0]).map
        (fun s => ((s.calls 0).pc, s.clock)) = some (.finished (.ok [0, 0, 0]), 17) := by decide
  obtain ⟨s, hs, hpc⟩ := Option.map_eq_some_iff.mp hrun
  have hr : handler.Reachable s :=
    Machine.Reach.run (.init ⟨_, rfl⟩) (fun _ _ _ => trivial) hs
  have hclock : s.clock = 17 := congrArg Prod.snd hpc
  exact ⟨s, hs, congrArg Prod.fst hpc,
    length_queued_le_one hr (bounded_of_clock hr (by rw [hclock]; decide)) 0⟩

end RzProxy
