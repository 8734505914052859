import RzProxy.Handler.Change

/-!
# Who waits for what

The invariant that ties calls, channels and the maps of waiting senders together: a call's attempt
owns the channel it made, a stored sender is filed under the connection and the id of its channel,
ids are drawn in order, and a channel that was sent to was sent a frame of its own connection and
id.

## Main definitions

* `Tame`: a step that leaves channels and registries alone
* `Correlated`: the invariant

## Main results

* `correlated_of_reach`: it holds in every reachable state
-/

namespace RzProxy

open ByteString Streaming Machines

/-- What the invariants of the registries say about a connection depends on this alone. -/
def Connection.registry (k : Connection) :
    UInt32 × (UInt32 → Option ChanId) × ℕ × Bool × List Taken :=
  (k.corrId, k.demux, k.drawn, k.dropped, k.taken)

theorem Connection.Local.registry {m : ℕ} {c : ConnId} {a : Action} {k k' : Connection}
    (h : k.Local m c a k') :
    k'.registry = k.registry := by
  cases h <;> rfl

/-! ## Steps that leave channels and registries alone -/

/-- A call that begins no attempt and gets no answer. -/
structure Call.Tame (call call' : Call) : Prop where
  attempt : ∀ a, call'.pc.attempt = some a → call.pc.attempt = some a ∧ call'.last = call.last
  store : ∀ c id x, call'.pc = .store c id x → call.pc = .store c id x
  answer : ∀ b, call'.pc = .finished (.ok b) → call.pc = .finished (.ok b) ∧ call'.last = call.last

theorem Call.Tame.refl (call : Call) : call.Tame call :=
  ⟨fun _ h => ⟨h, rfl⟩, fun _ _ _ h => h, fun _ h => ⟨h, rfl⟩⟩

/-- A call outside its attempts and without an answer. -/
theorem Call.Tame.of_attempt_eq_none {call call' : Call} (h : call'.pc.attempt = none)
    (hb : ∀ b, call'.pc ≠ .finished (.ok b)) : call.Tame call' := by
  refine ⟨fun a ha => ?_, fun c id x hs => ?_, fun b hf => absurd hf (hb b)⟩
  · rw [h] at ha
    cases ha
  · rw [hs] at h
    cases h

/-- A step that leaves channels and registries alone. -/
structure Tame (s s' : State) : Prop where
  calls : ∀ k, (s.calls k).Tame (s'.calls k)
  stored : ∀ k x, (s'.calls k).pc.stored = some x → (s.calls k).pc.stored = some x
  chans : s'.chans = s.chans
  chanCount : s'.chanCount = s.chanCount
  conns : ∀ c, (s'.conns c).registry = (s.conns c).registry
  clock : s.clock ≤ s'.clock

theorem tame_update {calls : CallId → Call} {k : CallId} {call : Call} (h : (calls k).Tame call)
    (j : CallId) : (calls j).Tame (Function.update calls k call j) := by
  rcases update_eq_or (P := fun j => (calls j).Tame) h j with he | ht
  · rw [he]
    exact .refl _
  · exact ht

/-! ## The invariant -/

/-- The invariant of the registries. -/
structure Correlated (s : State) : Prop where
  /-- The channel of an attempt is the call's own. -/
  attempt : ∀ {k c id x}, (s.calls k).pc.attempt = some (c, id, x) →
    x < s.chanCount ∧ (s.chans x).call = k ∧ (s.chans x).conn = c ∧ (s.chans x).corrId = id ∧
      (s.calls k).last = some x
  /-- A sender that its call still has was neither used nor stored. -/
  unstored : ∀ {k c id x}, (s.calls k).pc = .store c id x →
    (s.chans x).oneshot = .empty ∧ (s.chans x).storedAt = none
  /-- A stored sender is filed under its own connection and id. -/
  entry : ∀ {c id x}, (s.conns c).demux id = some x →
    x < s.chanCount ∧ (s.chans x).conn = c ∧ (s.chans x).corrId = id ∧
      (s.chans x).oneshot = .empty ∧ ∃ t, (s.chans x).storedAt = some t ∧ t < s.clock
  /-- The id of a channel was drawn in its turn. -/
  drawn : ∀ {x}, x < s.chanCount → (s.chans x).corrId = UInt32.ofNat (1 + (s.chans x).draw) ∧
    (s.chans x).draw < (s.conns (s.chans x).conn).drawn
  /-- No two channels of a connection were drawn for in one turn. -/
  drawInj : ∀ {x y}, x < s.chanCount → y < s.chanCount → (s.chans x).conn = (s.chans y).conn →
    (s.chans x).draw = (s.chans y).draw → x = y
  corrId : ∀ c, (s.conns c).corrId = UInt32.ofNat (1 + (s.conns c).drawn)
  /-- A channel was sent the payload of a frame of its connection and id, taken after the store. -/
  sent : ∀ {x p}, x < s.chanCount → (s.chans x).oneshot = .sent p →
    ∃ (f : Taken) (n t : ℕ), (s.conns (s.chans x).conn).taken[n]? = some f ∧ f.chan = x ∧
      f.header.clrId = (s.chans x).corrId ∧ f.payload = p ∧ (s.chans x).storedAt = some t ∧
      t < f.time
  /-- A call returns what its last channel was sent. -/
  answered : ∀ {k b}, (s.calls k).pc = .finished (.ok b) →
    ∃ x, (s.calls k).last = some x ∧ x < s.chanCount ∧ (s.chans x).call = k ∧
      (s.chans x).oneshot = .sent b

/-- A tame step keeps the invariant. -/
theorem Correlated.tame {s s' : State} (h : Correlated s) (ht : Tame s s') : Correlated s' := by
  have hdemux : ∀ c, (s'.conns c).demux = (s.conns c).demux := fun c =>
    congrArg (fun r => r.2.1) (ht.conns c)
  have hdrawn : ∀ c, (s'.conns c).drawn = (s.conns c).drawn := fun c =>
    congrArg (fun r => r.2.2.1) (ht.conns c)
  have htaken : ∀ c, (s'.conns c).taken = (s.conns c).taken := fun c =>
    congrArg (fun r => r.2.2.2.2) (ht.conns c)
  have hcorr : ∀ c, (s'.conns c).corrId = (s.conns c).corrId := fun c =>
    congrArg (fun r => r.1) (ht.conns c)
  have hclock := ht.clock
  refine ⟨?_, ?_, ?_, ?_, ?_, ?_, ?_, ?_⟩
  · intro k c id x ha
    obtain ⟨ha, hl⟩ := (ht.calls k).attempt _ ha
    rw [ht.chans, ht.chanCount, hl]
    exact h.attempt ha
  · intro k c id x hp
    rw [ht.chans]
    exact h.unstored ((ht.calls k).store _ _ _ hp)
  · intro c id x he
    rw [hdemux] at he
    obtain ⟨h₁, h₂, h₃, h₄, t, h₅, h₆⟩ := h.entry he
    rw [ht.chans, ht.chanCount]
    exact ⟨h₁, h₂, h₃, h₄, t, h₅, h₆.trans_le hclock⟩
  · intro x hx
    rw [ht.chanCount] at hx
    rw [ht.chans, hdrawn]
    exact h.drawn hx
  · intro x y hx hy
    rw [ht.chanCount] at hx hy
    rw [ht.chans]
    exact h.drawInj hx hy
  · intro c
    rw [hcorr, hdrawn]
    exact h.corrId c
  · intro x p hx hs
    rw [ht.chanCount] at hx
    rw [ht.chans] at hs ⊢
    rw [htaken]
    exact h.sent hx hs
  · intro k b hp
    obtain ⟨hp, hl⟩ := (ht.calls k).answer b hp
    rw [ht.chans, ht.chanCount, hl]
    exact h.answered hp

/-! ## Drawing, storing, answering and dropping -/

variable {s : State}

/-- The channel that is made next is new. -/
theorem Correlated.draw (h : Correlated s) {k : CallId} {c : ConnId}
    (hpc : (s.calls k).pc = .draw c) : Correlated (s.drawCorrId k c) := by
  have hchan {x : ChanId} (hx : x < s.chanCount) := chans_drawCorrId_of_lt s k c hx
  have hcall {j : CallId} (hj : j ≠ k) := calls_drawCorrId_of_ne s k c hj
  have hself := calls_drawCorrId s k c
  have hnew := chans_drawCorrId s k c
  have hdrawn := drawn_drawCorrId s k c
  have htaken : ∀ d, ((s.drawCorrId k c).conns d).taken = (s.conns d).taken :=
    apply_update_eq Connection.taken rfl
  refine ⟨?_, ?_, ?_, ?_, ?_, ?_, ?_, ?_⟩
  · -- `attempt`: the call that draws begins one, with the new channel
    intro j d id x ha
    by_cases hj : j = k
    · subst hj
      rw [hself] at ha ⊢
      simp only [Pc.attempt, Option.some.injEq, Prod.mk.injEq] at ha
      obtain ⟨rfl, rfl, rfl⟩ := ha
      rw [hnew]
      exact ⟨Nat.lt_succ_self _, rfl, rfl, rfl, rfl⟩
    · rw [hcall hj] at ha ⊢
      obtain ⟨hx, h⟩ := h.attempt ha
      rw [hchan hx]
      exact ⟨Nat.lt_succ_of_lt hx, h⟩
  · -- `unstored`: so is the new sender
    intro j d id x hp
    by_cases hj : j = k
    · subst hj
      rw [hself] at hp
      simp only [Pc.store.injEq] at hp
      obtain ⟨-, -, rfl⟩ := hp
      rw [hnew]
      exact ⟨rfl, rfl⟩
    · rw [hcall hj] at hp
      obtain ⟨hx, -⟩ := h.attempt (k := j) (by rw [hp]; rfl)
      rw [hchan hx]
      exact h.unstored hp
  · intro d id x he
    rw [demux_drawCorrId] at he
    obtain ⟨hx, he⟩ := h.entry he
    rw [hchan hx]
    exact ⟨Nat.lt_succ_of_lt hx, he⟩
  · -- `drawn`: the new channel has the id that the connection was at
    intro x hx
    rcases Nat.lt_succ_iff_lt_or_eq.mp hx with hx | rfl
    · rw [hchan hx, hdrawn]
      exact ⟨(h.drawn hx).1, Nat.lt_of_lt_of_le (h.drawn hx).2 (Nat.le_add_right _ _)⟩
    · rw [hnew, hdrawn, if_pos rfl]
      exact ⟨h.corrId c, Nat.lt_succ_self _⟩
  · -- `drawInj`: earlier draws of the connection have smaller numbers
    intro x y hx hy hcn hdr
    rcases Nat.lt_succ_iff_lt_or_eq.mp hx with hx | rfl <;>
      rcases Nat.lt_succ_iff_lt_or_eq.mp hy with hy | rfl
    · rw [hchan hx, hchan hy] at hcn hdr
      exact h.drawInj hx hy hcn hdr
    · rw [hchan hx, hnew] at hcn hdr
      have := (h.drawn hx).2
      rw [hcn, hdr] at this
      exact absurd this (Nat.lt_irrefl _)
    · rw [hchan hy, hnew] at hcn hdr
      have := (h.drawn hy).2
      rw [← hcn, ← hdr] at this
      exact absurd this (Nat.lt_irrefl _)
    · rfl
  · intro d
    rw [hdrawn]
    split_ifs with hd
    · subst hd
      rw [conns_drawCorrId, ← Nat.add_assoc, UInt32.ofNat_add, ← h.corrId]
      rfl
    · rw [conns_drawCorrId_of_ne s k c hd]
      exact h.corrId d
  · -- `sent`: nothing was sent to the new channel
    intro x p hx hs
    rcases Nat.lt_succ_iff_lt_or_eq.mp hx with hx | rfl
    · rw [hchan hx] at hs ⊢
      rw [htaken]
      exact h.sent hx hs
    · rw [hnew] at hs
      cases hs
  · intro j b hp
    by_cases hj : j = k
    · subst hj
      rw [hself] at hp
      cases hp
    · rw [hcall hj] at hp ⊢
      obtain ⟨x, hl, hx, h⟩ := h.answered hp
      exact ⟨x, hl, Nat.lt_succ_of_lt hx, by rw [hchan hx]; exact h⟩

/-- What an attempt is known by. -/
def Chan.label (chan : Chan) : CallId × ConnId × UInt32 × ℕ :=
  (chan.call, chan.conn, chan.corrId, chan.draw)

theorem Chan.eq_of_label {chan chan' : Chan} (hl : chan'.label = chan.label)
    (ho : chan'.oneshot = chan.oneshot) (ht : chan'.storedAt = chan.storedAt) : chan' = chan := by
  cases chan
  cases chan'
  simp only [Chan.label, Prod.mk.injEq] at hl
  obtain ⟨rfl, rfl, rfl, rfl⟩ := hl
  cases ho
  cases ht
  rfl

/-- A step that begins no attempt: channels keep their labels, and those that were sent to stay as
they are. -/
structure SameLabels (s s' : State) : Prop where
  calls : ∀ k, (s.calls k).Tame (s'.calls k)
  chanCount : s'.chanCount = s.chanCount
  labels : ∀ x, (s'.chans x).label = (s.chans x).label
  corrId : ∀ c, (s'.conns c).corrId = (s.conns c).corrId
  drawn : ∀ c, (s'.conns c).drawn = (s.conns c).drawn
  taken : ∀ (c : ConnId) (n : ℕ) (f : Taken), (s.conns c).taken[n]? = some f →
    (s'.conns c).taken[n]? = some f
  sent : ∀ {x p}, x < s.chanCount → (s.chans x).oneshot = .sent p → s'.chans x = s.chans x

/-- The part of the invariant that is about stored senders and answers has to be shown anew. -/
theorem Correlated.of_sameLabels (s' : State) (h : Correlated s) (hl : SameLabels s s')
    (unstored : ∀ {k c id x}, (s'.calls k).pc = .store c id x →
      (s'.chans x).oneshot = .empty ∧ (s'.chans x).storedAt = none)
    (entry : ∀ {c id x}, (s'.conns c).demux id = some x → x < s.chanCount ∧
      (s.chans x).conn = c ∧ (s.chans x).corrId = id ∧ (s'.chans x).oneshot = .empty ∧
        ∃ t, (s'.chans x).storedAt = some t ∧ t < s'.clock)
    (sent : ∀ {x p}, x < s.chanCount → (s'.chans x).oneshot = .sent p →
      (s.chans x).oneshot = .sent p ∨ ∃ (f : Taken) (n t : ℕ),
        (s'.conns (s.chans x).conn).taken[n]? = some f ∧ f.chan = x ∧
          f.header.clrId = (s.chans x).corrId ∧ f.payload = p ∧ (s'.chans x).storedAt = some t ∧
          t < f.time) :
    Correlated s' := by
  have hcall : ∀ x, (s'.chans x).call = (s.chans x).call := fun x => congrArg (·.1) (hl.labels x)
  have hconn : ∀ x, (s'.chans x).conn = (s.chans x).conn := fun x => congrArg (·.2.1) (hl.labels x)
  have hcorr : ∀ x, (s'.chans x).corrId = (s.chans x).corrId := fun x =>
    congrArg (·.2.2.1) (hl.labels x)
  have hdraw : ∀ x, (s'.chans x).draw = (s.chans x).draw := fun x =>
    congrArg (·.2.2.2) (hl.labels x)
  refine ⟨?_, unstored, ?_, ?_, ?_, ?_, ?_, ?_⟩
  · intro k c id x ha
    obtain ⟨ha, hlast⟩ := (hl.calls k).attempt _ ha
    rw [hl.chanCount, hcall, hconn, hcorr, hlast]
    exact h.attempt ha
  · intro c id x he
    rw [hl.chanCount, hconn, hcorr]
    exact entry he
  · intro x hx
    rw [hl.chanCount] at hx
    rw [hcorr, hdraw, hconn, hl.drawn]
    exact h.drawn hx
  · intro x y hx hy hc hd
    rw [hl.chanCount] at hx hy
    rw [hconn, hconn] at hc
    rw [hdraw, hdraw] at hd
    exact h.drawInj hx hy hc hd
  · intro c
    rw [hl.corrId, hl.drawn]
    exact h.corrId c
  · intro x p hx hs
    rw [hl.chanCount] at hx
    rw [hconn, hcorr]
    -- what was sent before stays in its place among the frames taken
    rcases sent hx hs with hs' | hs'
    · obtain ⟨f, n, t, hn, hf⟩ := h.sent hx hs'
      rw [hl.sent hx hs']
      exact ⟨f, n, t, hl.taken _ _ _ hn, hf⟩
    · exact hs'
  · intro k b hp
    obtain ⟨hp, hlast⟩ := (hl.calls k).answer b hp
    obtain ⟨x, hx, hlt, hc, hb⟩ := h.answered hp
    rw [hl.chanCount, hlast]
    exact ⟨x, hx, hlt, by rw [hl.sent hlt hb]; exact ⟨hc, hb⟩⟩

/-- A channel whose sender is stored is not one whose sender is still with its call. -/
theorem Correlated.ne_of_entry (h : Correlated s) {k : CallId} {c d : ConnId} {id id' : UInt32}
    {x y : ChanId} (hp : (s.calls k).pc = .store c id x) (he : (s.conns d).demux id' = some y) :
    y ≠ x := by
  rintro rfl
  obtain ⟨-, -, -, -, t, ht, -⟩ := h.entry he
  rw [(h.unstored hp).2] at ht
  cases ht

/-- Two attempts have two channels. -/
theorem Correlated.ne_of_call (h : Correlated s) {j k : CallId} (hjk : j ≠ k)
    {a b : ConnId × UInt32 × ChanId} (ha : (s.calls j).pc.attempt = some a)
    (hb : (s.calls k).pc.attempt = some b) : a.2.2 ≠ b.2.2 := by
  intro hab
  obtain ⟨-, hj, -⟩ := h.attempt ha
  obtain ⟨-, hk, -⟩ := h.attempt hb
  exact hjk (hj.symm.trans (hab ▸ hk))

/-- The channels after `store`. -/
theorem chans_store (s : State) (c : ConnId) (id : UInt32) (x y : ChanId) :
    ((s.store c id x).chans y).label = (s.chans y).label ∧
      ((s.store c id x).chans y).oneshot =
        (if (s.conns c).demux id = some y then .closed else (s.chans y).oneshot) ∧
      ((s.store c id x).chans y).storedAt =
        (if y = x then some s.clock else (s.chans y).storedAt) := by
  unfold State.store
  cases ho : (s.conns c).demux id with
  | none =>
    by_cases hy : y = x <;> simp [hy, Chan.label]
  | some old =>
    simp only [Function.update_apply, Chan.label, Option.some.injEq]
    by_cases hy : y = x <;> by_cases hold : y = old <;> by_cases hox : x = old <;>
      simp [hy, hold, hox, Ne.symm]

theorem conns_store (s : State) (c : ConnId) (id : UInt32) (x : ChanId) (d : ConnId) :
    (s.store c id x).conns d =
      if d = c then (s.conns c).register id x else s.conns d := Function.update_apply ..

/-- After `store` an entry is the new one, or one in another place. -/
theorem entry_of_store {c d : ConnId} {id id' : UInt32} {x y : ChanId}
    (he : ((s.store c id x).conns d).demux id' = some y) :
    (d = c ∧ id' = id ∧ y = x) ∨ (s.conns d).demux id' = some y ∧ ¬ (d = c ∧ id' = id) := by
  rw [conns_store] at he
  split_ifs at he with hd
  · simp only [Connection.register, Function.update_apply] at he
    split_ifs at he with hi
    · exact .inl ⟨hd, hi, (Option.some.inj he).symm⟩
    · exact .inr ⟨hd ▸ he, fun hc => hi hc.2⟩
  · exact .inr ⟨he, fun hc => hd hc.1⟩

/-- A sender is stored, and the one stored there before is dropped. -/
theorem Correlated.store (h : Correlated s) {k : CallId} {c : ConnId} {id : UInt32} {x : ChanId}
    (hpc : (s.calls k).pc = .store c id x) :
    Correlated ((s.store c id x).setPc k (.send c id x)).tick := by
  obtain ⟨hempty, -⟩ := h.unstored hpc
  obtain ⟨hx, hcall, hconn, hid, -⟩ := h.attempt (by rw [hpc]; rfl)
  have hne : ∀ {d id' y}, (s.conns d).demux id' = some y → y ≠ x := fun he => h.ne_of_entry hpc he
  have hcalls : ∀ j, (s.calls j).Tame (((s.store c id x).setPc k (.send c id x)).calls j) := by
    intro j
    have ht : (s.calls k).Tame { s.calls k with pc := .send c id x } := by
      refine ⟨fun a ha => ⟨?_, rfl⟩, fun _ _ _ hs => (by cases hs), fun _ hb => (by cases hb)⟩
      rw [hpc]
      exact ha
    exact tame_update ht j
  have hsame : ∀ {y p}, y < s.chanCount → (s.chans y).oneshot = .sent p →
      (s.store c id x).chans y = s.chans y := by
    intro y p _ hs
    obtain ⟨hl, ho, ht⟩ := chans_store s c id x y
    have hyx : y ≠ x := by
      rintro rfl
      rw [hempty] at hs
      cases hs
    -- what was sent to is not stored, so that the store drops another
    have hyd : (s.conns c).demux id ≠ some y := by
      intro he
      rw [(h.entry he).2.2.2.1] at hs
      cases hs
    rw [if_neg hyd] at ho
    rw [if_neg hyx] at ht
    exact Chan.eq_of_label hl ho ht
  refine h.of_sameLabels ((s.store c id x).setPc k (.send c id x)).tick
    ⟨hcalls, rfl, fun y => (chans_store s c id x y).1, apply_update_eq Connection.corrId rfl,
      apply_update_eq Connection.drawn rfl, fun d n f hf => ?_, hsame⟩ ?_ ?_ ?_
  · have htaken : ∀ d, ((s.store c id x).conns d).taken = (s.conns d).taken :=
      apply_update_eq Connection.taken rfl
    exact (congrArg (·[n]?) (htaken d)).trans hf
  · intro j d id' y hs
    have hs' := (hcalls j).store _ _ _ hs
    have hjk : j ≠ k := by
      rintro rfl
      simp [State.setPc, State.setCall, State.tick] at hs
    have hyx : y ≠ x := h.ne_of_call hjk (a := (d, id', y)) (b := (c, id, x)) (by rw [hs']; rfl)
      (by rw [hpc]; rfl)
    have hyd : (s.conns c).demux id ≠ some y := fun he => h.ne_of_entry hs' he rfl
    obtain ⟨-, ho, ht⟩ := chans_store s c id x y
    rw [if_neg hyd] at ho
    rw [if_neg hyx] at ht
    exact ⟨ho.trans (h.unstored hs').1, ht.trans (h.unstored hs').2⟩
  · intro d id' y he
    obtain ⟨-, ho, ht⟩ := chans_store s c id x y
    rcases entry_of_store (s := s) he with ⟨rfl, rfl, rfl⟩ | ⟨he, hold⟩
    · rw [if_neg fun he => hne he rfl] at ho
      rw [if_pos rfl] at ht
      exact ⟨hx, hconn, hid, ho.trans hempty, s.clock, ht, Nat.lt_succ_self _⟩
    · obtain ⟨hy, hc', hi', ho', t, ht', hlt⟩ := h.entry he
      -- a sender that is stored elsewhere is not the one in the way
      have hyd : (s.conns c).demux id ≠ some y := by
        intro he'
        obtain ⟨-, hc'', hi'', -⟩ := h.entry he'
        exact hold ⟨hc'.symm.trans hc'', hi'.symm.trans hi''⟩
      rw [if_neg hyd] at ho
      rw [if_neg (hne he)] at ht
      exact ⟨hy, hc', hi', ho.trans ho', t, ht.trans ht', Nat.lt_succ_of_lt hlt⟩
  · intro y p _ hs
    change ((s.store c id x).chans y).oneshot = _ at hs
    rw [(chans_store s c id x y).2.1] at hs
    split_ifs at hs
    exact .inl hs

/-- A call returns what its channel was sent. -/
theorem Correlated.answer (h : Correlated s) {k : CallId} {c : ConnId} {id : UInt32} {x : ChanId}
    {b : Bytes} (hpc : (s.calls k).pc = .wait c id x) (hb : (s.chans x).oneshot = .sent b) :
    Correlated (s.setPc k (.finished (.ok b))) := by
  obtain ⟨hx, hcall, -, -, hlast⟩ := h.attempt (by rw [hpc]; rfl)
  have hself : (s.setPc k (.finished (.ok b))).calls k =
      { s.calls k with pc := .finished (.ok b) } := Function.update_self ..
  have hother : ∀ {j}, j ≠ k → (s.setPc k (.finished (.ok b))).calls j = s.calls j := fun hj =>
    Function.update_of_ne hj _ _
  refine ⟨?_, ?_, h.entry, h.drawn, h.drawInj, h.corrId, h.sent, ?_⟩
  · intro j d id' y ha
    by_cases hj : j = k
    · rw [hj, hself] at ha
      cases ha
    · rw [hother hj] at ha ⊢
      exact h.attempt ha
  · intro j d id' y hs
    by_cases hj : j = k
    · rw [hj, hself] at hs
      cases hs
    · rw [hother hj] at hs
      exact h.unstored hs
  · intro j b' hp
    by_cases hj : j = k
    · subst hj
      rw [hself] at hp ⊢
      obtain rfl : b = b' := by simpa using hp
      exact ⟨x, hlast, hx, hcall, hb⟩
    · rw [hother hj] at hp ⊢
      exact h.answered hp

/-- A step that drops some senders, each either not used yet, and stores none. -/
structure Drops (s s' : State) : Prop where
  calls : ∀ k, (s.calls k).Tame (s'.calls k)
  chanCount : s'.chanCount = s.chanCount
  chans : ∀ x, s'.chans x = s.chans x ∨
    (s.chans x).oneshot = .empty ∧ s'.chans x = { s.chans x with oneshot := .closed }
  corrId : ∀ c, (s'.conns c).corrId = (s.conns c).corrId
  drawn : ∀ c, (s'.conns c).drawn = (s.conns c).drawn
  taken : ∀ c, (s'.conns c).taken = (s.conns c).taken
  demux : ∀ {c id x}, (s'.conns c).demux id = some x →
    (s.conns c).demux id = some x ∧ s'.chans x = s.chans x
  kept : ∀ {k c id x}, (s'.calls k).pc = .store c id x → s'.chans x = s.chans x
  clock : s.clock ≤ s'.clock

theorem Correlated.drops {s' : State} (h : Correlated s) (hd : Drops s s') : Correlated s' := by
  refine h.of_sameLabels s' ⟨hd.calls, hd.chanCount, fun x => ?_, hd.corrId, hd.drawn,
    fun c n f hf => by rw [hd.taken]; exact hf, fun {x p} _ hs => ?_⟩ ?_ ?_ ?_
  · rcases hd.chans x with hx | ⟨-, hx⟩ <;> rw [hx]
    rfl
  · rcases hd.chans x with hx | ⟨ho, -⟩
    · exact hx
    · rw [ho] at hs
      cases hs
  · intro k c id x hp
    rw [hd.kept hp]
    exact h.unstored ((hd.calls k).store _ _ _ hp)
  · intro c id x he
    obtain ⟨he, hx⟩ := hd.demux he
    obtain ⟨h₁, h₂, h₃, h₄, t, h₅, h₆⟩ := h.entry he
    rw [hx]
    exact ⟨h₁, h₂, h₃, h₄, t, h₅, h₆.trans_le hd.clock⟩
  · intro x p _ hs
    rcases hd.chans x with hx | ⟨-, hx⟩ <;> rw [hx] at hs
    · exact .inl hs
    · cases hs

/-- A future that is dropped while it stores its sender drops the sender. -/
theorem Correlated.cancelStore (h : Correlated s) {k : CallId} {c : ConnId} {id : UInt32}
    {x : ChanId} (hpc : (s.calls k).pc = .store c id x) :
    Correlated ((s.closeChan x).setPc k .dropped) := by
  have ht : (s.calls k).Tame { s.calls k with pc := .dropped } :=
    .of_attempt_eq_none rfl fun b => (by nofun)
  refine h.drops ⟨tame_update ht, rfl, fun y => ?_, fun _ => rfl, fun _ => rfl, fun _ => rfl,
    fun {d id' y} he => ⟨he, ?_⟩, fun {j d id' y} hp => ?_, le_refl _⟩
  · show (s.closeChan x).chans y = _ ∨ _ ∧ (s.closeChan x).chans y = _
    rw [chans_closeChan]
    split_ifs with hy
    · exact .inr ⟨hy ▸ (h.unstored hpc).1, by rw [hy]⟩
    · exact .inl rfl
  · show (s.closeChan x).chans y = _
    rw [chans_closeChan, if_neg (h.ne_of_entry hpc he)]
  · show (s.closeChan x).chans y = _
    have hjk : j ≠ k := by
      rintro rfl
      simp [State.setPc, State.setCall] at hp
    have hp' : (s.calls j).pc = .store d id' y := by
      simpa [State.setPc, State.setCall, State.closeChan, State.setChan, hjk] using hp
    have hyx : y ≠ x := h.ne_of_call hjk (a := (d, id', y)) (b := (c, id, x)) (by rw [hp']; rfl)
      (by rw [hpc]; rfl)
    rw [chans_closeChan, if_neg hyx]

/-- A connection that takes the frame in its hand loses the entry of the frame. -/
theorem entry_of_take {c d : ConnId} {header : Header} {payload : Bytes} {id : UInt32}
    {x y : ChanId} {time : ℕ} (he : (Function.update s.conns c
      ((s.conns c).take header payload x time) d).demux id = some y) :
    (s.conns d).demux id = some y ∧ ¬ (d = c ∧ id = header.clrId) := by
  rw [Function.update_apply] at he
  split_ifs at he with hd
  · simp only [Connection.take, Function.update_apply] at he
    split_ifs at he with hi
    exact ⟨hd ▸ he, fun hc => hi hc.2⟩
  · exact ⟨he, fun hc => hd hc.1⟩

/-- The read loop sends the frame in its hand to the sender it finds. -/
theorem Correlated.take (h : Correlated s) {c : ConnId} {header : Header} {payload : Bytes}
    {x : ChanId} (hx : (s.conns c).demux header.clrId = some x) :
    Correlated ((s.setChan x fun chan => { chan with oneshot := .sent payload }).setConn c
      ((s.conns c).take header payload x s.clock)) := by
  obtain ⟨hlt, hconn, hid, hempty, t, hstored, ht⟩ := h.entry hx
  have hchan : ∀ y, (s.setChan x fun chan => { chan with oneshot := .sent payload }).chans y =
      if y = x then { s.chans x with oneshot := .sent payload } else s.chans y := fun y =>
    Function.update_apply ..
  have hconns : ∀ d, ((s.setChan x fun chan => { chan with oneshot := .sent payload }).setConn c
      ((s.conns c).take header payload x s.clock)).conns d =
      if d = c then (s.conns c).take header payload x s.clock else s.conns d := fun d =>
    Function.update_apply ..
  refine h.of_sameLabels _ ⟨fun _ => .refl _, rfl, apply_update_eq Chan.label rfl,
    apply_update_eq Connection.corrId rfl, apply_update_eq Connection.drawn rfl,
    fun d n f hf => ?_, fun {y p} _ hs => ?_⟩ ?_ ?_ ?_
  · rw [hconns]
    split_ifs with hd
    · subst hd
      have hlen := (List.getElem?_eq_some_iff.mp hf).1
      simpa [Connection.take, List.getElem?_append_left hlen] using hf
    · exact hf
  · have hy : y ≠ x := by
      rintro rfl
      rw [hempty] at hs
      cases hs
    exact (hchan y).trans (if_neg hy)
  · intro k d id y hp
    have hy : y ≠ x := fun he => h.ne_of_entry hp hx he.symm
    have hsame : ((s.setChan x fun chan => { chan with oneshot := .sent payload }).setConn c
        ((s.conns c).take header payload x s.clock)).chans y = s.chans y :=
      (hchan y).trans (if_neg hy)
    rw [hsame]
    exact h.unstored hp
  · intro d id y he
    obtain ⟨he, hold⟩ := entry_of_take he
    obtain ⟨hylt, hyc, hyi, hyo, hyt⟩ := h.entry he
    have hy : y ≠ x := by
      rintro rfl
      exact hold ⟨hyc.symm.trans hconn, hyi.symm.trans hid⟩
    have hsame : ((s.setChan x fun chan => { chan with oneshot := .sent payload }).setConn c
        ((s.conns c).take header payload x s.clock)).chans y = s.chans y :=
      (hchan y).trans (if_neg hy)
    rw [hsame]
    exact ⟨hylt, hyc, hyi, hyo, hyt⟩
  · intro y p _ hs
    have hs' := (congrArg Chan.oneshot (hchan y)).symm.trans hs
    by_cases hy : y = x
    · subst hy
      rw [if_pos rfl] at hs'
      obtain rfl : payload = p := by simpa using hs'
      refine .inr ⟨{ header, payload, chan := y, time := s.clock }, (s.conns c).taken.length, t,
        ?_, rfl, hid.symm, rfl, ?_, ht⟩
      · rw [hconns, if_pos hconn]
        simp [Connection.take]
      · exact (congrArg Chan.storedAt ((hchan y).trans (if_pos rfl))).trans hstored
    · rw [if_neg hy] at hs'
      exact .inl hs'

theorem reap_drops (h : Correlated s) (hstore : ∀ {k c id x}, (s.calls k).pc = .store c id x →
    ∀ d id', (s.conns d).demux id' ≠ some x) : Drops s s.reap := by
  have hconn : ∀ c, s.reap.conns c = if s.reaped c then (s.conns c).drop else s.conns c :=
    fun _ => rfl
  have hchan : ∀ x, s.reap.chans x = if s.reaped (s.chans x).conn ∧
      (s.conns (s.chans x).conn).demux (s.chans x).corrId = some x then
      { s.chans x with oneshot := .closed } else s.chans x := fun _ => rfl
  refine ⟨fun _ => .refl _, rfl, fun x => ?_, fun c => ?_, fun c => ?_, fun c => ?_,
    fun {c id x} he => ?_, fun {k c id x} hp => ?_, le_refl _⟩
  · rw [hchan]
    split_ifs with hr
    · exact .inr ⟨(h.entry hr.2).2.2.2.1, rfl⟩
    · exact .inl rfl
  · rw [hconn]; split_ifs <;> rfl
  · rw [hconn]; split_ifs <;> rfl
  · rw [hconn]; split_ifs <;> rfl
  · rw [hconn] at he
    split_ifs at he with hr
    · cases he
    refine ⟨he, ?_⟩
    rw [hchan, if_neg]
    rintro ⟨hr', -⟩
    exact hr ((h.entry he).2.1 ▸ hr')
  · rw [hchan, if_neg fun hr => hstore hp _ _ hr.2]

/-- Dropping what nobody holds keeps the invariant. -/
theorem Correlated.reap (h : Correlated s) : Correlated s.reap :=
  h.drops (reap_drops h fun hp _ _ he => h.ne_of_entry hp he rfl)

/-! ## The invariant holds in every run -/

theorem tame_tick (s : State) : Tame s s.tick :=
  ⟨fun _ => .refl _, fun _ _ h => h, rfl, rfl, fun _ => rfl, Nat.le_succ _⟩

theorem tame_of_calls {s' : State} (hcalls : ∀ k, (s.calls k).Tame (s'.calls k))
    (hstored : ∀ k x, (s'.calls k).pc.stored = some x → (s.calls k).pc.stored = some x)
    (hchans : s'.chans = s.chans) (hcount : s'.chanCount = s.chanCount)
    (hconns : ∀ c, (s'.conns c).registry = (s.conns c).registry) (hclock : s'.clock = s.clock) :
    Tame s s' :=
  ⟨hcalls, hstored, hchans, hcount, hconns, hclock.ge⟩

/-- A step of one call that begins no attempt and gets no answer. -/
theorem tame_call {k : CallId} {call : Call} {s' : State}
    (hcalls : s'.calls = Function.update s.calls k call) (ht : (s.calls k).Tame call)
    (hstored : ∀ x, call.pc.stored = some x → (s.calls k).pc.stored = some x)
    (hchans : s'.chans = s.chans) (hcount : s'.chanCount = s.chanCount)
    (hconns : ∀ c, (s'.conns c).registry = (s.conns c).registry) (hclock : s'.clock = s.clock) :
    Tame s s' := by
  refine ⟨fun j => ?_, fun j x hj => ?_, hchans, hcount, hconns, hclock.ge⟩
  · rw [hcalls]
    exact tame_update ht j
  · rw [hcalls] at hj
    exact of_update (P := fun call : Call => call.pc.stored = some x) (hstored x) hj

/-- A step from `send` to `wait`. -/
theorem tame_wait {call : Call} {c : ConnId} {id : UInt32} {x : ChanId}
    (hpc : call.pc = .send c id x) (queued : List (ConnId × Bytes)) :
    call.Tame { call with queued := queued, pc := .wait c id x } := by
  refine ⟨fun a ha => ⟨?_, rfl⟩, fun _ _ _ hs => (by cases hs), fun _ hb => (by cases hb)⟩
  rw [hpc]
  exact ha

/-- The steps that are not tame. -/
inductive Special (s : State) : State → Prop
  | draw {k : CallId} {c : ConnId} (pc : (s.calls k).pc = .draw c) : Special s (s.drawCorrId k c)
  | store {k : CallId} {c : ConnId} {id : UInt32} {x : ChanId}
      (pc : (s.calls k).pc = .store c id x) : Special s ((s.store c id x).setPc k (.send c id x))
  | answered {k : CallId} {c : ConnId} {id : UInt32} {x : ChanId} {b : Bytes}
      (pc : (s.calls k).pc = .wait c id x) (sent : (s.chans x).oneshot = .sent b) :
      Special s (s.setPc k (.finished (.ok b)))
  | cancelStore {k : CallId} {c : ConnId} {id : UInt32} {x : ChanId}
      (pc : (s.calls k).pc = .store c id x) : Special s ((s.closeChan x).setPc k .dropped)
  | take {c : ConnId} {header : Header} {payload : Bytes} {x : ChanId}
      (stored : (s.conns c).demux header.clrId = some x) :
      Special s ((s.setChan x fun chan => { chan with oneshot := .sent payload }).setConn c
        ((s.conns c).take header payload x s.clock))

/-- Where a call gets a program counter outside its attempts and no answer, the step is tame. -/
theorem tame_of_attempt_eq_none {k : CallId} {call : Call} {s' : State}
    (hcalls : s'.calls = Function.update s.calls k call) (ha : call.pc.attempt = none)
    (hb : ∀ b, call.pc ≠ .finished (.ok b)) (hchans : s'.chans = s.chans)
    (hcount : s'.chanCount = s.chanCount) (hconns : s'.conns = s.conns)
    (hclock : s'.clock = s.clock) : Tame s s' := by
  refine tame_call hcalls (.of_attempt_eq_none ha hb) (fun x hx => ?_) hchans hcount
    (fun c => by rw [hconns]) hclock
  cases hp : call.pc <;> simp_all [Pc.attempt, Pc.stored]

theorem Change.tame_or_special {s' : State} {a : Action} (h : Change s a s') :
    Tame s s' ∨ Special s s' := by
  cases h with
  | newCall segment isWrite payload =>
    refine .inl (tame_of_attempt_eq_none rfl ?_ (fun b => ?_) rfl rfl rfl rfl) <;> dsimp only
    · split_ifs <;> rfl
    · split_ifs <;> nofun
  | @move k attempts nextConn pc hk before after holds =>
    refine .inl (tame_of_attempt_eq_none rfl ?_ (fun b => ?_) rfl rfl rfl rfl)
    · rcases after with after | ⟨e, rfl⟩
      · exact after.attempt_eq_none
      · rfl
    · rcases after with after | ⟨e, rfl⟩
      · rintro rfl
        cases after
      · nofun
  | draw hk pc => exact .inr (.draw pc)
  | store hk pc => exact .inr (.store pc)
  | queue hk pc isOpen push =>
    rw [Connection.push_eq push]
    refine .inl (tame_call rfl (tame_wait pc _) (fun x hx => ?_) rfl rfl
      (apply_update_eq Connection.registry rfl) rfl)
    rw [pc]
    exact hx
  | @sendFailed k c id x hk pc gone =>
    refine .inl (tame_call rfl (tame_wait pc (s.calls k).queued) (fun x hx => ?_) rfl rfl
      (apply_update_eq Connection.registry rfl) rfl)
    rw [pc]
    exact hx
  | answered hk pc sent => exact .inr (.answered pc sent)
  | unanswered hk pc closed after =>
    refine .inl (tame_of_attempt_eq_none rfl ?_ (fun b => ?_) rfl rfl rfl rfl)
    · rcases after with rfl | rfl <;> rfl
    · rcases after with rfl | rfl <;> nofun
  | cancel =>
    refine .inl (tame_of_attempt_eq_none rfl rfl (fun b => ?_) rfl rfl rfl rfl)
    nofun
  | cancelStore hk pc => exact .inr (.cancelStore pc)
  | lock | connect =>
    exact .inl (tame_of_calls (fun _ => .refl _) (fun _ _ h => h) rfl rfl (fun _ => rfl) rfl)
  | conn hc hl =>
    exact .inl (tame_of_calls (fun _ => .refl _) (fun _ _ h => h) rfl rfl
      (apply_update_eq Connection.registry hl.registry) rfl)
  | take hc task hand stored => exact .inr (.take stored)

/-- What a party does keeps the invariant. -/
theorem Correlated.change {s' : State} {a : Action} (h : Correlated s) (hc : Change s a s') :
    Correlated s'.tick := by
  rcases hc.tame_or_special with ht | hsp
  · exact (h.tame ht).tame (tame_tick _)
  cases hsp with
  | draw pc => exact (h.draw pc).tame (tame_tick _)
  | store pc => exact h.store pc
  | answered pc sent => exact (h.answer pc sent).tame (tame_tick _)
  | cancelStore pc => exact (h.cancelStore pc).tame (tame_tick _)
  | take stored => exact (h.take stored).tame (tame_tick _)

theorem correlated_initial (cfg : Config) : Correlated (State.initial cfg) :=
  ⟨nofun, nofun, nofun, nofun, nofun, fun _ => rfl, nofun, nofun⟩

/-- **The invariant** holds in every reachable state. -/
theorem correlated_of_reach {ok : State → Action → Prop} (hs : handler.Reach ok s) :
    Correlated s := by
  refine hs.invariant ?_ fun s a s' _ h _ hstep => ?_
  · rintro s ⟨cfg, rfl⟩
    exact correlated_initial cfg
  · obtain ⟨s₁, hc, rfl⟩ := step_cases hstep
    exact (h.change hc).reap

/-! ## What a step does to channels and registries -/

/-- Channels keep their labels, and stored senders have been stored. -/
theorem Change.chan {s' : State} {a : Action} (h : Change s a s') {x : ChanId}
    (hx : x < s.chanCount) : x < s'.chanCount ∧ (s'.chans x).label = (s.chans x).label ∧
      ((s.chans x).storedAt ≠ none → (s'.chans x).storedAt ≠ none) := by
  rcases h.tame_or_special with ht | hsp
  · rw [ht.chans, ht.chanCount]
    exact ⟨hx, rfl, id⟩
  cases hsp with
  | @draw k c =>
    rw [chans_drawCorrId_of_lt s k c hx]
    exact ⟨Nat.lt_succ_of_lt hx, rfl, id⟩
  | @store k c id y =>
    obtain ⟨hl, -, ht⟩ := chans_store s c id y x
    refine ⟨hx, hl, fun hst => ?_⟩
    show ((s.store c id y).chans x).storedAt ≠ none
    rw [ht]
    split_ifs
    · nofun
    · exact hst
  | answered => exact ⟨hx, rfl, id⟩
  | @cancelStore k c i y =>
    have hlabel : ∀ x, ((s.closeChan y).chans x).label = (s.chans x).label :=
      apply_update_eq Chan.label rfl
    have hstored : ∀ x, ((s.closeChan y).chans x).storedAt = (s.chans x).storedAt :=
      apply_update_eq Chan.storedAt rfl
    exact ⟨hx, hlabel x, fun hst => (hstored x).trans_ne hst⟩
  | @take c header payload y =>
    let filled := s.setChan y fun chan => { chan with oneshot := .sent payload }
    have hlabel : ∀ x, (filled.chans x).label = (s.chans x).label :=
      apply_update_eq Chan.label rfl
    have hstored : ∀ x, (filled.chans x).storedAt = (s.chans x).storedAt :=
      apply_update_eq Chan.storedAt rfl
    exact ⟨hx, hlabel x, fun hst => (hstored x).trans_ne hst⟩

/-- A sender that is stored was stored before, or is stored by this step. -/
theorem Change.entry {s' : State} {a : Action} (h : Change s a s') {c : ConnId} {id : UInt32}
    {x : ChanId} (he : (s'.conns c).demux id = some x) :
    (s.conns c).demux id = some x ∨
      ∃ k, (s.calls k).pc = .store c id x ∧ (s'.calls k).pc = .send c id x := by
  rcases h.tame_or_special with ht | hsp
  · have hdemux : (s'.conns c).demux = (s.conns c).demux := congrArg (fun r => r.2.1) (ht.conns c)
    exact .inl (hdemux ▸ he)
  cases hsp with
  | @draw k d =>
    rw [demux_drawCorrId] at he
    exact .inl he
  | @store k d i y pc =>
    rcases entry_of_store (s := s) he with ⟨rfl, rfl, rfl⟩ | ⟨he, -⟩
    · exact .inr ⟨k, pc, pc_setPc _ _ _⟩
    · exact .inl he
  | answered => exact .inl he
  | cancelStore => exact .inl he
  | take stored => exact .inl (entry_of_take he).1

end RzProxy
