import RzProxy.Library.AtMostOnce
import RzProxy.Library.Simulation
import RzProxy.Handler.Wire

/-!
# The handler is a service

What a client sees of the handler, with the pool, the tasks, the queues and the sockets taken away:
calls that are registered under a connection and an id, sent at most once, and answered at most
once, by whatever the backend sends. While no connection draws more than `2 ^ 32` ids, the handler
is simulated by the service of such calls. So a call that fails has put nothing in a queue, and no
call ever runs into a timeout.

## Main definitions

* `State.service`: the service that a state of the handler is a state of
* `serviceSimulation`: the simulation

## Main results

* `service_of_run`: every run of the handler is one of the service
* `unsent_of_failed`: a call that fails has sent nothing
-/

namespace RzProxy

open ByteString Streaming Machines

/-! ## The view of a call -/

/-- What a call asks for, and the mode of the proxy. -/
structure Asked where
  mode : Mode
  segment : String
  isWrite : Bool
  payload : Bytes

/-- The frame of a request on a connection, under an id. -/
def Asked.frame (r : Asked) (key : ConnId × UInt32) : ConnId × Bytes :=
  (key.1,
    match r.mode with
    | .standalone => prependHeader key.2 r.payload
    | .router => prependRouterHeader r.segment r.isWrite key.2 r.payload)

/-- What was sent to a channel. -/
def Oneshot.reply? : Oneshot → Option Bytes
  | .sent b => some b
  | .empty | .closed => none

/-- What a channel is registered under, once its sender is stored. -/
def Chan.key? (chan : Chan) : Option (ConnId × UInt32) :=
  chan.storedAt.map fun _ => (chan.conn, chan.corrId)

/-- What a call sees of a channel. -/
def Chan.seen (chan : Chan) : Option (ConnId × UInt32) × Option Bytes :=
  (chan.key?, chan.oneshot.reply?)

abbrev ServiceCall := AtMostOnce.Call Asked (ConnId × UInt32) (ConnId × Bytes) Bytes RZError

namespace State

/-- How far a call has come. -/
def stage (s : State) (call : Call) : AtMostOnce.Stage Bytes RZError :=
  match call.pc with
  | .pick | .check _ | .draw _ | .store _ _ _ | .sleep _ => .idle
  | .send _ _ x | .wait _ _ x => ((s.chans x).oneshot.reply?.map .answered).getD .waiting
  | .finished (.ok b) => .returned b
  | .finished (.error e) => .failed e
  | .dropped => .abandoned

/-- A call, as the service has it. -/
def view (s : State) (call : Call) : ServiceCall where
  request := { mode := s.cfg.mode, segment := call.segment, isWrite := call.isWrite,
               payload := call.payload }
  key := call.last.bind fun x => (s.chans x).key?
  sent := call.queued
  stage := s.stage call

/-- The calls that were begun. -/
def service (s : State) :
    AtMostOnce.Calls CallId Asked (ConnId × UInt32) (ConnId × Bytes) Bytes RZError :=
  fun k => if k < s.callCount then some (s.view (s.calls k)) else none

end State

/-- A service of calls that are made over connections. -/
noncomputable abbrev callService :
    Machine (AtMostOnce.Calls CallId Asked (ConnId × UInt32) (ConnId × Bytes) Bytes RZError)
      (AtMostOnce.Label CallId Asked (ConnId × UInt32) Bytes RZError) :=
  AtMostOnce.service Asked.frame

variable {s s' : State} {a : Action}

theorem view_eq {call : Call} {key : Option (ConnId × UInt32)}
    {stage : AtMostOnce.Stage Bytes RZError}
    (hkey : (call.last.bind fun x => (s.chans x).key?) = key) (hstage : s.stage call = stage) :
    s.view call =
      { request := { mode := s.cfg.mode, segment := call.segment, isWrite := call.isWrite,
                     payload := call.payload }
        key := key, sent := call.queued, stage := stage } := by
  rw [State.view, hkey, hstage]

/-- A call looks the same where its channels do. -/
theorem view_congr {t : State} (hmode : t.cfg.mode = s.cfg.mode) {call : Call}
    (hlast : ∀ x, call.last = some x → (t.chans x).key? = (s.chans x).key?)
    (hstored : ∀ x, call.pc.stored = some x →
      (t.chans x).oneshot.reply? = (s.chans x).oneshot.reply?) :
    t.view call = s.view call := by
  have hkey : (call.last.bind fun x => (t.chans x).key?) =
      call.last.bind fun x => (s.chans x).key? := by
    cases hl : call.last with
    | none => rfl
    | some x => exact hlast x hl
  have hstage : t.stage call = s.stage call := by
    unfold State.stage
    cases hp : call.pc with
    | send c id x | wait c id x =>
      simp only [hstored x (by rw [hp]; rfl)]
    | finished result => cases result <;> rfl
    | _ => rfl
  rw [State.view, State.view, hmode, hkey, hstage]

/-- Only the call that takes part in a step changes in the service. -/
theorem service_eq_update {k : CallId} (hk : k < s'.callCount)
    (hcount : ∀ j, j ≠ k → (j < s'.callCount ↔ j < s.callCount))
    (hview : ∀ j, j ≠ k → j < s.callCount → s'.view (s'.calls j) = s.view (s.calls j)) :
    s'.service = Function.update s.service k (some (s'.view (s'.calls k))) := by
  ext1 j
  by_cases hj : j = k
  · subst hj
    rw [Function.update_self, State.service, if_pos hk]
  · rw [Function.update_of_ne hj, State.service, State.service]
    by_cases hlt : j < s.callCount
    · rw [if_pos hlt, if_pos ((hcount j hj).mpr hlt), hview j hj hlt]
    · rw [if_neg hlt, if_neg fun h => hlt ((hcount j hj).mp h)]

theorem service_congr (hcount : s'.callCount = s.callCount)
    (hview : ∀ j < s.callCount, s'.view (s'.calls j) = s.view (s.calls j)) :
    s'.service = s.service := by
  ext1 j
  rw [State.service, State.service, hcount]
  by_cases hlt : j < s.callCount
  · rw [if_pos hlt, if_pos hlt, hview j hlt]
  · rw [if_neg hlt, if_neg hlt]

/-! ## Channels and calls -/

/-- The last channel of a call is its own. -/
def OwnLast (s : State) : Prop :=
  ∀ {k x}, (s.calls k).last = some x → x < s.chanCount ∧ (s.chans x).call = k

/-- A call that was not begun is as it was at first. -/
theorem Change.calls_of_le (h : Change s a s') {k : CallId} (hk : s'.callCount ≤ k) :
    s'.calls k = s.calls k := by
  cases h with
  | newCall => exact Function.update_of_ne (Nat.ne_of_gt hk) _ _
  | move _ _ hj | draw hj | store hj | queue hj | sendFailed hj | answered hj | unanswered hj
  | cancel hj | cancelStore hj =>
    exact Function.update_of_ne (Nat.ne_of_gt (Nat.lt_of_lt_of_le hj hk)) _ _
  | lock | connect | conn | take => rfl

theorem dropped_of_le {ok : State → Action → Prop} (hs : handler.Reach ok s) {k : CallId}
    (hk : s.callCount ≤ k) : (s.calls k).pc = .dropped ∧ (s.calls k).queued = [] := by
  refine hs.invariant (P := fun s => ∀ k, s.callCount ≤ k →
    (s.calls k).pc = .dropped ∧ (s.calls k).queued = []) ?_ (fun s a s' _ h _ hstep => ?_) k hk
  · rintro s ⟨cfg, rfl⟩ k -
    exact ⟨rfl, rfl⟩
  · obtain ⟨s₁, hc, rfl⟩ := step_cases hstep
    intro k hk
    change s₁.callCount ≤ k at hk
    show (s₁.calls k).pc = .dropped ∧ (s₁.calls k).queued = []
    rw [hc.calls_of_le hk]
    exact h k (hc.callCount_le.trans hk)

theorem Call.Moves.last {k : CallId} {call call' : Call} (h : call.Moves s k a call') :
    call'.last = call.last ∨ call'.last = none ∨
      ∃ c id x, call'.pc = .store c id x ∧ call'.last = some x := by
  cases h with
  | new => exact .inr (.inl rfl)
  | draw pc => exact .inr (.inr ⟨_, _, _, rfl, rfl⟩)
  | _ => exact .inl rfl

theorem OwnLast.change (h : OwnLast s) (hc : Change s a s') (hcorr' : Correlated s'.tick) :
    OwnLast s' := by
  intro k x hx
  have hold (hx : (s.calls k).last = some x) : x < s'.chanCount ∧ (s'.chans x).call = k := by
    obtain ⟨hlt, hcall⟩ := h hx
    obtain ⟨hlt', hlabel, -⟩ := hc.chan hlt
    exact ⟨hlt', (congrArg (·.1) hlabel).trans hcall⟩
  rcases hc.calls k with he | hm
  · exact hold (he ▸ hx)
  · rcases hm.last with hl | hl | ⟨c, id, y, hpc, hl⟩
    · exact hold (hl ▸ hx)
    · rw [hl] at hx
      cases hx
    · obtain rfl : y = x := Option.some.inj (hl.symm.trans hx)
      obtain ⟨hlt, hcall, -⟩ := hcorr'.attempt (k := k) (by
        show (s'.calls k).pc.attempt = _
        rw [hpc]
        rfl)
      exact ⟨hlt, hcall⟩

theorem label_reap (s : State) (x : ChanId) : (s.reap.chans x).label = (s.chans x).label := by
  show (if _ then _ else s.chans x : Chan).label = _
  split_ifs <;> rfl

theorem ownLast_of_reach {ok : State → Action → Prop} (hs : handler.Reach ok s) : OwnLast s := by
  refine hs.invariant (P := fun s => OwnLast s) ?_ fun s a s' hr h _ hstep => ?_
  · rintro s ⟨cfg, rfl⟩ k x hx
    cases hx
  · obtain ⟨s₁, hc, rfl⟩ := step_cases hstep
    have h₁ : OwnLast s₁ := h.change hc ((correlated_of_reach hr).change hc)
    intro k x hx
    obtain ⟨hlt, hcall⟩ := h₁ hx
    exact ⟨hlt, (congrArg (·.1) (label_reap s₁.tick x)).trans hcall⟩

/-- A call that waits, or is about to, waits at its last channel. -/
theorem Correlated.last_of_stored (h : Correlated s) {k : CallId} {x : ChanId}
    (hx : (s.calls k).pc.stored = some x) : (s.calls k).last = some x := by
  cases hp : (s.calls k).pc with
  | send c id y | wait c id y =>
    rw [hp] at hx
    obtain rfl : y = x := Option.some.inj hx
    exact (h.attempt (k := k) (by rw [hp]; rfl)).2.2.2.2
  | _ =>
    rw [hp] at hx
    cases hx

/-- A call that has put nothing in a queue, and one that has, by at most one frame. -/
theorem once_of_reach {ok : State → Action → Prop} (hs : handler.Reach ok s) (hb : Bounded s)
    (k : CallId) : Once (s.calls k) := by
  refine hs.invariant_of_bound (P := fun s => ∀ k, Once (s.calls k))
    (fun _ _ _ hst => Bounded.of_step hst) ?_ (fun s a s' hr hb _ h _ hstep => ?_) hb k
  · rintro s ⟨cfg, rfl⟩ k
    exact ⟨Nat.zero_le _, fun _ => rfl⟩
  · obtain ⟨s₁, hc, rfl⟩ := step_cases hstep
    have h₁ := once_change h (correlated_of_reach hr) (holding_of_reach hr)
      (kept_of_reach hr hb) hc
    exact h₁

/-! ## Steps of the service -/

/-- What a party does in one step, or in several, as the service sees it. -/
def Follows (s s' : State) : Prop :=
  ∃ bs, callService.Path (fun _ _ => True) s.service bs s'.service

theorem Follows.of_eq (h : s'.service = s.service) : Follows s s' := ⟨[], h ▸ .nil _⟩

theorem Follows.act {k : CallId} {b : AtMostOnce.Act (ConnId × UInt32) Bytes RZError}
    (hk : k < s.callCount) (hfresh : AtMostOnce.Fresh s.service b)
    (hact : (s.view (s.calls k)).act Asked.frame b = some (s'.view (s'.calls k)))
    (h : s'.service = Function.update s.service k (some (s'.view (s'.calls k)))) :
    Follows s s' := by
  refine ⟨[.act k b], .single trivial ?_⟩
  have hcall : s.service k = some (s.view (s.calls k)) := if_pos hk
  simp only [AtMostOnce.service, hcall, Option.bind_some, if_pos hfresh, hact, Option.map_some, h]

/-- A step in which one call takes part, and no channels but its own. -/
theorem service_of_call {t : State} (hcorr : Correlated s) (hown : OwnLast s) {k : CallId}
    (hk : k < t.callCount) (hcount : ∀ j, j ≠ k → (j < t.callCount ↔ j < s.callCount))
    (hcfg : t.cfg = s.cfg) (hcalls : ∀ j, j ≠ k → t.calls j = s.calls j)
    (hchans : ∀ x < s.chanCount, (s.chans x).call ≠ k → (t.chans x).seen = (s.chans x).seen) :
    t.service = Function.update s.service k (some (t.view (t.calls k))) := by
  refine service_eq_update hk hcount fun j hj _ => ?_
  -- the channels of another call are not those of `k`
  have hseen : ∀ x, (s.calls j).last = some x → (t.chans x).seen = (s.chans x).seen := by
    intro x hx
    obtain ⟨hlt, hcall⟩ := hown hx
    exact hchans x hlt (hcall.trans_ne hj)
  rw [hcalls j hj]
  exact view_congr (congrArg Config.mode hcfg) (fun x hx => congrArg Prod.fst (hseen x hx))
    fun x hx => congrArg Prod.snd (hseen x (hcorr.last_of_stored hx))

theorem fresh_of_ne {b : AtMostOnce.Act (ConnId × UInt32) Bytes RZError}
    (h : ∀ key, b ≠ .register key) : AtMostOnce.Fresh s.service b :=
  fun key hb => absurd hb (h key)

theorem stage_of_between {call : Call} (h : call.pc.Between) : s.stage call = .idle := by
  unfold State.stage
  cases hp : call.pc <;> first | rfl | (rw [hp] at h; cases h)

theorem stage_of_stored {call : Call} {x : ChanId} (h : call.pc.stored = some x) :
    s.stage call = ((s.chans x).oneshot.reply?.map .answered).getD .waiting := by
  unfold State.stage
  cases hp : call.pc with
  | send c id y | wait c id y =>
    rw [hp] at h
    obtain rfl : y = x := Option.some.inj h
    rfl
  | _ =>
    rw [hp] at h
    cases h

theorem Pc.Between.not_over {pc : Pc} (h : pc.Between) :
    (∀ r, pc ≠ .finished r) ∧ pc ≠ .dropped := by
  cases pc with
  | pick | check | draw | sleep => exact ⟨nofun, nofun⟩
  | _ => cases h

/-- A call that is not over can be abandoned. -/
theorem act_abandon {call : Call} (h : (∀ r, call.pc ≠ .finished r) ∧ call.pc ≠ .dropped) :
    (s.view call).act Asked.frame .abandon = some { s.view call with stage := .abandoned } := by
  have hstage : s.stage call = .idle ∨ s.stage call = .waiting ∨
      ∃ b, s.stage call = .answered b := by
    cases hp : call.pc with
    | send c id x | wait c id x =>
      rw [stage_of_stored (x := x) (by rw [hp]; rfl)]
      cases (s.chans x).oneshot.reply? with
      | none => exact .inr (.inl rfl)
      | some b => exact .inr (.inr ⟨b, rfl⟩)
    | store => exact .inl (by rw [State.stage, hp])
    | finished r => exact absurd hp (h.1 r)
    | dropped => exact absurd hp h.2
    | _ => exact .inl (stage_of_between (by rw [hp]; trivial))
  rcases hstage with hs | hs | ⟨b, hs⟩ <;> simp only [AtMostOnce.Call.act, State.view, hs]

/-- Under the bound no other sender is stored under the id of a call. -/
theorem Correlated.vacant_of_bounded (h : Correlated s) (hb : Bounded s) {k : CallId} {c : ConnId}
    {id : UInt32} {x : ChanId} (hpc : (s.calls k).pc = .store c id x) :
    (s.conns c).demux id = none := by
  obtain ⟨hx, -, hconn, hid, -⟩ := h.attempt (k := k) (by rw [hpc]; rfl)
  refine h.vacant hpc fun y hy => ?_
  obtain ⟨hlt, hc, hi, -⟩ := h.entry hy
  exact h.eq_of_corrId hb hlt hx (hc.trans hconn.symm) (hi.trans hid.symm)

section Steps

variable (hcorr : Correlated s) (hown : OwnLast s)
include hcorr hown

/-- A step of a call that the service does not see. -/
theorem Follows.of_view {k : CallId} (hk : k < s.callCount) (hcount : s'.callCount = s.callCount)
    (hcfg : s'.cfg = s.cfg) (hcalls : ∀ j, j ≠ k → s'.calls j = s.calls j)
    (hchans : ∀ x < s.chanCount, (s.chans x).call ≠ k → (s'.chans x).seen = (s.chans x).seen)
    (hview : s'.view (s'.calls k) = s.view (s.calls k)) : Follows s s' := by
  refine .of_eq ?_
  rw [service_of_call hcorr hown (hcount ▸ hk) (fun _ _ => by rw [hcount]) hcfg hcalls hchans,
    hview]
  exact Function.update_eq_self_iff.mpr (if_pos hk).symm

/-- A call begins; without a payload it fails at once. -/
theorem follows_newCall (segment : String) (isWrite : Bool) (payload : Bytes) :
    Follows s (s.newCall segment isWrite payload) := by
  let request : Asked := { mode := s.cfg.mode, segment, isWrite, payload }
  let s' := s.newCall segment isWrite payload
  have hnone : s.service s.callCount = none := if_neg (Nat.lt_irrefl _)
  have hbegin : callService.step s.service (.begin s.callCount request) =
      some (Function.update s.service s.callCount (some (.fresh request))) := by
    simp only [AtMostOnce.service, hnone, if_true]
  have hservice : s'.service =
      Function.update s.service s.callCount (some (s'.view (s'.calls s.callCount))) := by
    refine service_of_call hcorr hown (Nat.lt_succ_self s.callCount) (fun j hj => ?_) rfl
      (fun j hj => Function.update_of_ne hj _ _) fun _ _ _ => rfl
    exact ⟨fun h => Nat.lt_of_le_of_ne (Nat.lt_succ_iff.mp h) hj, Nat.lt_succ_of_lt⟩
  have hcall : s'.calls s.callCount = _ := Function.update_self ..
  by_cases hp : payload = []
  · have hview : s'.view (s'.calls s.callCount) =
        { request := request, key := none, sent := [],
          stage := .failed (.validation "empty payload") } := by
      rw [hcall, State.view, State.stage, if_pos hp]
      rfl
    have hfail : callService.step
        (Function.update s.service s.callCount (some (.fresh request)))
        (.act s.callCount (.fail (.validation "empty payload"))) = some s'.service := by
      simp only [AtMostOnce.service, Function.update_self, Option.bind_some, hservice, hview]
      rw [if_pos]
      · exact congrArg some (Function.update_idem _ _ _)
      · intro key hkey
        cases hkey
    exact ⟨_, .cons trivial hbegin (.single trivial hfail)⟩
  · have hview : s'.view (s'.calls s.callCount) = .fresh request := by
      rw [hcall, State.view, State.stage, if_neg hp]
      rfl
    rw [← hview, ← hservice] at hbegin
    exact ⟨_, .single trivial hbegin⟩

/-- A call that goes on between two attempts, or gives up. -/
theorem follows_move {k : CallId} (attempts nextConn : ℕ) {pc : Pc} (hk : k < s.callCount)
    (before : (s.calls k).pc.Between) (after : pc.Between ∨ ∃ e, pc = .finished (.error e)) :
    Follows s ({ s with nextConn := nextConn }.setCall k fun call =>
      { call with attempts := attempts, pc := pc }) := by
  let s' := { s with nextConn := nextConn }.setCall k fun call =>
    { call with attempts := attempts, pc := pc }
  have hcall : s'.calls k = { s.calls k with attempts := attempts, pc := pc } :=
    calls_setCall _ _ _
  have hcalls : ∀ j, j ≠ k → s'.calls j = s.calls j := fun j hj => Function.update_of_ne hj _ _
  have hstage := stage_of_between (s := s) before
  rcases after with after | ⟨e, rfl⟩
  · refine .of_view hcorr hown hk rfl rfl hcalls (fun _ _ _ => rfl) ?_
    have hstage' : s'.stage (s'.calls k) = .idle := stage_of_between (by rw [hcall]; exact after)
    rw [State.view, State.view, hstage, hstage', hcall]
    rfl
  · refine .act (b := .fail e) hk (fresh_of_ne (by simp)) ?_
      (service_of_call hcorr hown hk (fun _ _ => Iff.rfl) rfl hcalls fun _ _ _ => rfl)
    simp only [AtMostOnce.Call.act, State.view, hstage]
    rw [hcall]
    rfl

/-- A call that is not over is abandoned, with its channel or without. -/
theorem follows_abandon {k : CallId} (hk : k < s.callCount)
    (hpc : (∀ r, (s.calls k).pc ≠ .finished r) ∧ (s.calls k).pc ≠ .dropped)
    (hcount : s'.callCount = s.callCount) (hcfg : s'.cfg = s.cfg)
    (hcall : s'.calls k = { s.calls k with pc := .dropped })
    (hcalls : ∀ j, j ≠ k → s'.calls j = s.calls j)
    (hchans : ∀ x < s.chanCount, (s.chans x).call ≠ k → (s'.chans x).seen = (s.chans x).seen)
    (hkey : ∀ x, (s.calls k).last = some x → (s'.chans x).key? = (s.chans x).key?) :
    Follows s s' := by
  refine .act (b := .abandon) hk (fresh_of_ne (by simp)) ?_
    (service_of_call hcorr hown (hcount ▸ hk) (fun _ _ => by rw [hcount]) hcfg hcalls hchans)
  have hlast : ((s.calls k).last.bind fun x => (s'.chans x).key?) =
      (s.calls k).last.bind fun x => (s.chans x).key? := by
    cases hl : (s.calls k).last with
    | none => rfl
    | some x => exact hkey x hl
  rw [act_abandon hpc, hcall]
  simp only [State.view, State.stage, hcfg, hlast]

/-- The drawing of an id is not seen, where the call had no channel before. -/
theorem follows_draw {k : CallId} {c : ConnId} (hk : k < s.callCount)
    (hpc : (s.calls k).pc = .draw c) (hkey : (s.view (s.calls k)).key = none) :
    Follows s (s.drawCorrId k c) := by
  refine .of_view hcorr hown hk rfl rfl (fun j hj => calls_drawCorrId_of_ne s k c hj)
    (fun x hx _ => by rw [chans_drawCorrId_of_lt s k c hx]) ?_
  have hkey' : ((s.drawCorrId k c).chans s.chanCount).key? = none := by
    rw [chans_drawCorrId]
    rfl
  have hstage : s.stage (s.calls k) = .idle := stage_of_between (by rw [hpc]; trivial)
  rw [view_eq hkey hstage, calls_drawCorrId]
  exact view_eq hkey' rfl

/-- Under the bound no call was registered before under the id that another has drawn. -/
theorem fresh_of_store {k : CallId} {c : ConnId} {id : UInt32} {x : ChanId}
    (hpc : (s.calls k).pc = .store c id x) (hb : Bounded s) :
    AtMostOnce.Fresh s.service (.register (c, id)) := by
  obtain ⟨hx, -, hconn, hid, -⟩ := hcorr.attempt (k := k) (by rw [hpc]; rfl)
  obtain ⟨-, hnone⟩ := hcorr.unstored hpc
  rintro key hkey j call hj hcall
  obtain rfl : (c, id) = key := by simpa using hkey
  rw [State.service, Option.ite_none_right_eq_some] at hj
  obtain ⟨-, hj⟩ := hj
  obtain rfl := Option.some.inj hj
  obtain ⟨y, hy, hykey⟩ := Option.bind_eq_some_iff.mp hcall
  obtain ⟨t, ht, hpair⟩ := Option.map_eq_some_iff.mp hykey
  obtain ⟨hc, hi⟩ := Prod.mk.inj hpair
  obtain rfl := hcorr.eq_of_corrId hb (hown hy).1 hx (hc.trans hconn.symm) (hi.trans hid.symm)
  rw [hnone] at ht
  cases ht

/-- A sender that is stored registers its call. -/
theorem follows_store {k : CallId} {c : ConnId} {id : UInt32} {x : ChanId} (hk : k < s.callCount)
    (hpc : (s.calls k).pc = .store c id x) (hb : Bounded s) :
    Follows s ((s.store c id x).setPc k (.send c id x)) := by
  obtain ⟨-, hxk, hconn, hid, hlast⟩ := hcorr.attempt (k := k) (by rw [hpc]; rfl)
  obtain ⟨hempty, -⟩ := hcorr.unstored hpc
  have hvacant := hcorr.vacant_of_bounded hb hpc
  have hseen : ∀ y, y ≠ x → ((s.store c id x).chans y).seen = (s.chans y).seen := by
    intro y hy
    obtain ⟨hl, ho, ht⟩ := chans_store s c id x y
    rw [hvacant, if_neg nofun] at ho
    rw [if_neg hy] at ht
    rw [Chan.eq_of_label hl ho ht]
  refine .act hk (fresh_of_store hcorr hown hpc hb) ?_
    (service_of_call (t := (s.store c id x).setPc k (.send c id x)) hcorr hown hk
      (fun _ _ => Iff.rfl) rfl (fun j hj => Function.update_of_ne hj _ _) fun y _ hy => hseen y ?_)
  · let s' := (s.store c id x).setPc k (.send c id x)
    let call' := { s.calls k with pc := .send c id x }
    have hcall : s'.calls k = call' := calls_setCall _ _ _
    obtain ⟨hl, ho, ht⟩ := chans_store s c id x x
    simp only [Chan.label, Prod.mk.injEq] at hl
    rw [hvacant, if_neg nofun, hempty] at ho
    rw [if_pos rfl] at ht
    have hstage : s.stage (s.calls k) = .idle := by rw [State.stage, hpc]
    have hstage' : s'.stage call' = .waiting := by
      show (((s.store c id x).chans x).oneshot.reply?.map _).getD _ = _
      rw [ho]
      rfl
    have hkey' : (call'.last.bind fun y => (s'.chans y).key?) = some (c, id) := by
      show ((s.calls k).last.bind fun y => ((s.store c id x).chans y).key?) = _
      rw [hlast, Option.bind_some, Chan.key?, ht, hl.2.1, hl.2.2.1, hconn, hid]
      rfl
    have hact : (s.view (s.calls k)).act Asked.frame (.register (c, id)) = some
        { s.view (s.calls k) with key := some (c, id), stage := .waiting } := by
      simp only [AtMostOnce.Call.act, State.view, hstage]
    rw [hact, hcall]
    exact congrArg some (view_eq hkey' hstage').symm
  · rintro rfl
    exact hy hxk

/-- A frame that is put in a queue is sent. -/
theorem follows_queue {k : CallId} {c : ConnId} {id : UInt32} {x : ChanId} {conn : Connection}
    (hk : k < s.callCount) (hpc : (s.calls k).pc = .send c id x) (honce : Once (s.calls k))
    (hstored : (s.chans x).storedAt ≠ none) :
    Follows s ((s.setConn c conn).setCall k fun call =>
      { call with queued := call.queued ++ [(c, s.buildFrame (s.calls k) id)]
                  pc := .wait c id x }) := by
  let s' := (s.setConn c conn).setCall k fun call =>
    { call with queued := call.queued ++ [(c, s.buildFrame (s.calls k) id)], pc := .wait c id x }
  obtain ⟨-, -, hconn, hid, hlast⟩ := hcorr.attempt (k := k) (by rw [hpc]; rfl)
  obtain ⟨t, ht⟩ := Option.ne_none_iff_exists'.mp hstored
  have hkey : ((s.calls k).last.bind fun y => (s.chans y).key?) = some (c, id) := by
    rw [hlast, Option.bind_some, Chan.key?, ht, hconn, hid]
    rfl
  have hnil : (s.calls k).queued = [] := honce.2 (by rw [hpc]; trivial)
  have hcall : s'.calls k = { s.calls k with
      queued := (s.calls k).queued ++ [(c, s.buildFrame (s.calls k) id)], pc := .wait c id x } :=
    calls_setCall _ _ _
  have hstage : s.stage (s.calls k) = ((s.chans x).oneshot.reply?.map .answered).getD .waiting :=
    stage_of_stored (by rw [hpc]; rfl)
  refine .act (b := .send) hk (fresh_of_ne (by simp)) ?_
    (service_of_call (t := s') hcorr hown hk (fun _ _ => Iff.rfl) rfl
      (fun j hj => Function.update_of_ne hj _ _) fun _ _ _ => rfl)
  have hframe : Asked.frame (s.view (s.calls k)).request (c, id) =
      (c, s.buildFrame (s.calls k) id) := by
    cases hmode : s.cfg.mode <;> simp only [State.buildFrame, State.view, Asked.frame, hmode]
  have hview' : s'.view (s'.calls k) = { s.view (s.calls k) with
      sent := [(c, s.buildFrame (s.calls k) id)] } := by
    rw [hcall, view_eq hkey hstage, hnil]
    exact view_eq hkey rfl
  rw [hview', ← hframe, view_eq hkey hstage, hnil]
  -- the frame is sent whether or not there is an answer to it already
  cases (s.chans x).oneshot.reply? <;> rfl

/-- A send that fails is not seen. -/
theorem follows_sendFailed {k : CallId} {c : ConnId} {id : UInt32} {x : ChanId}
    {conn : Connection} (hk : k < s.callCount) (hpc : (s.calls k).pc = .send c id x) :
    Follows s ((s.setConn c conn).setPc k (.wait c id x)) := by
  refine .of_view hcorr hown hk rfl rfl (fun j hj => Function.update_of_ne hj _ _)
    (fun _ _ _ => rfl) ?_
  have hcall : ((s.setConn c conn).setPc k (.wait c id x)).calls k =
      { s.calls k with pc := .wait c id x } := calls_setCall _ _ _
  have hstage : s.stage (s.calls k) = ((s.chans x).oneshot.reply?.map .answered).getD .waiting :=
    stage_of_stored (by rw [hpc]; rfl)
  rw [hcall, view_eq rfl hstage]
  exact view_eq rfl rfl

/-- An answer is returned. -/
theorem follows_answered {k : CallId} {c : ConnId} {id : UInt32} {x : ChanId} {b : Bytes}
    (hk : k < s.callCount) (hpc : (s.calls k).pc = .wait c id x)
    (hsent : (s.chans x).oneshot = .sent b) : Follows s (s.setPc k (.finished (.ok b))) := by
  have hcall : (s.setPc k (.finished (.ok b))).calls k =
      { s.calls k with pc := .finished (.ok b) } := calls_setCall _ _ _
  have hstage : s.stage (s.calls k) = .answered b := by
    rw [stage_of_stored (x := x) (by rw [hpc]; rfl), hsent]
    rfl
  refine .act (b := .finish) hk (fresh_of_ne (by simp)) ?_
    (service_of_call (t := s.setPc k (.finished (.ok b))) hcorr hown hk (fun _ _ => Iff.rfl) rfl
      (fun j hj => Function.update_of_ne hj _ _) fun _ _ _ => rfl)
  rw [hcall, view_eq rfl hstage]
  rfl

/-- A reply is for the call that waits for it, if it still does. -/
theorem follows_take (hh : Holding s) {c : ConnId} {header : Header} {payload : Bytes}
    {x : ChanId} (hx : (s.conns c).demux header.clrId = some x) :
    Follows s ((s.setChan x fun chan => { chan with oneshot := .sent payload }).setConn c
      ((s.conns c).take header payload x s.clock)) := by
  let s' := (s.setChan x fun chan => { chan with oneshot := .sent payload }).setConn c
    ((s.conns c).take header payload x s.clock)
  obtain ⟨-, -, -, hempty, -⟩ := hcorr.entry hx
  have hself : s'.chans x = { s.chans x with oneshot := .sent payload } :=
    Function.update_self ..
  have hne : ∀ y, y ≠ x → s'.chans y = s.chans y := fun y hy => Function.update_of_ne hy _ _
  have hkeys : ∀ y, (s'.chans y).key? = (s.chans y).key? := apply_update_eq Chan.key? rfl
  by_cases hw : ∃ k, (s.calls k).pc.stored = some x
  · obtain ⟨k, hk⟩ := hw
    have hlast := hcorr.last_of_stored hk
    have hlt : k < s.callCount := by
      have hholds : ∃ d, (s.calls k).pc.holds = some d := by
        cases hp : (s.calls k).pc <;> simp_all [Pc.stored, Pc.holds]
      obtain ⟨d, hd⟩ := hholds
      exact (hh.call hd).1
    have hstage : s.stage (s.calls k) = .waiting := by
      rw [stage_of_stored hk, hempty]
      rfl
    have hstage' : s'.stage (s.calls k) = .answered payload := by
      rw [stage_of_stored hk, hself]
      rfl
    refine .act (b := .reply payload) hlt (fresh_of_ne (by simp)) ?_
      (service_of_call (t := s') hcorr hown hlt (fun _ _ => Iff.rfl) rfl (fun _ _ => rfl)
        fun y _ hy => ?_)
    · have hkey' : ((s.calls k).last.bind fun y => (s'.chans y).key?) =
          (s.calls k).last.bind fun y => (s.chans y).key? :=
        congrArg _ (funext hkeys)
      have hview' : s'.view (s'.calls k) =
          { s.view (s.calls k) with stage := .answered payload } := view_eq hkey' hstage'
      rw [hview', view_eq rfl hstage]
      rfl
    · rw [hne]
      rintro rfl
      exact hy (hown hlast).2
  · refine .of_eq (service_congr rfl fun j _ => ?_)
    refine view_congr (s := s) (t := s') rfl (fun y _ => hkeys y) fun y hy => ?_
    rw [hne]
    rintro rfl
    exact hw ⟨j, hy⟩

end Steps

/-- Dropping what nobody holds is not seen. -/
theorem service_reap (hcorr : Correlated s) : s.reap.service = s.service := by
  refine service_congr rfl fun j _ => view_congr (s := s) (t := s.reap) rfl (fun x _ => ?_)
    fun x _ => ?_
  · show (if _ then _ else s.chans x : Chan).key? = _
    split_ifs <;> rfl
  · show (if _ then _ else s.chans x : Chan).oneshot.reply? = _
    split_ifs with hr
    · rw [(hcorr.entry hr.2).2.2.2.1]
      rfl
    · rfl

/-! ## The simulation -/

/-- **A step of a party** is a run of the service. -/
theorem follows_of_change (hr : handler.Reachable s) (hb : Bounded s)
    (hsound : ∀ k < s.callCount, (s.view (s.calls k)).Sound Asked.frame) (hc : Change s a s') :
    Follows s s' := by
  have hcorr := correlated_of_reach hr
  have hown : OwnLast s := ownLast_of_reach hr
  have hkept := kept_of_reach hr hb
  have hh := holding_of_reach hr
  cases hc with
  | newCall segment isWrite payload => exact follows_newCall hcorr hown segment isWrite payload
  | move attempts nextConn hk before after holds =>
    exact follows_move hcorr hown attempts nextConn hk before after
  | @draw k c hk pc =>
    have hidle : s.stage (s.calls k) = .idle := stage_of_between (by rw [pc]; trivial)
    exact follows_draw hcorr hown hk pc ((hsound k hk).idle hidle)
  | store hk pc => exact follows_store hcorr hown hk pc hb
  | queue hk pc isOpen push =>
    exact follows_queue hcorr hown hk pc (once_of_reach hr hb _)
      (hkept.stored (by rw [pc]; rfl))
  | sendFailed hk pc gone => exact follows_sendFailed hcorr hown hk pc
  | answered hk pc sent => exact follows_answered hcorr hown hk pc sent
  | unanswered hk pc closed after => exact absurd closed (hkept.not_closed hcorr hh pc)
  | @cancel k hk pc =>
    refine follows_abandon hcorr hown hk ?_ rfl rfl (calls_setCall _ _ _)
      (fun j hj => Function.update_of_ne hj _ _) (fun _ _ _ => rfl) fun _ _ => rfl
    rcases pc with ⟨-, hbetween⟩ | ⟨c, id, x, hpc | hpc⟩
    · exact hbetween.not_over
    · rw [hpc]
      exact ⟨nofun, nofun⟩
    · rw [hpc]
      exact ⟨nofun, nofun⟩
  | @cancelStore k c id x hk pc =>
    obtain ⟨-, hxk, -⟩ := hcorr.attempt (k := k) (by rw [pc]; rfl)
    have hkey : ∀ y, ((s.closeChan x).chans y).key? = (s.chans y).key? :=
      apply_update_eq Chan.key? rfl
    refine follows_abandon hcorr hown hk (by rw [pc]; exact ⟨nofun, nofun⟩) rfl rfl
      (calls_setCall _ _ _) (fun j hj => Function.update_of_ne hj _ _) (fun y _ hy => ?_)
      fun y _ => hkey y
    show ((s.closeChan x).chans y).seen = _
    rw [chans_closeChan, if_neg]
    rintro rfl
    exact hy hxk
  | lock | connect | conn => exact .of_eq rfl
  | take hc task hand stored => exact follows_take hcorr hown hh stored

/-- A step after which every connection is within its `2 ^ 32` ids. -/
def StaysBounded (s : State) (a : Action) : Prop := ∀ s', handler.step s a = some s' → Bounded s'

theorem bounded_of_reach (hs : handler.Reach StaysBounded s) : Bounded s := by
  refine hs.invariant (P := Bounded) ?_ fun s a s' _ _ hok hstep => hok s' hstep
  rintro s ⟨cfg, rfl⟩ c
  exact Nat.zero_le _

/-- **The handler is simulated** by the service of calls. -/
noncomputable def serviceSimulation :
    Simulation handler StaysBounded callService fun _ _ => True where
  map := State.service
  init := by
    rintro s ⟨cfg, rfl⟩
    rfl
  step := by
    intro s a s' hs hservice _ hstep
    obtain ⟨s₁, hc, rfl⟩ := step_cases hstep
    have hr := hs.reachable
    have hfollows := follows_of_change hr (bounded_of_reach hs)
      (fun k hk => AtMostOnce.sound_of_reach hservice (if_pos hk)) hc
    have hreap : s₁.tick.reap.service = s₁.service :=
      service_reap ((correlated_of_reach hr).change hc)
    rw [hreap]
    exact hfollows

theorem reach_of_bounded (hs : handler.Reachable s) (hb : Bounded s) :
    handler.Reach StaysBounded s :=
  (hs.of_bound (fun _ _ _ hstep => Bounded.of_step hstep) hb).mono fun _ _ h => h.2

/-- **Every run is a run of the service**, as long as no connection draws more than `2 ^ 32` ids:
calls are sent at most once, each under its own connection and id. -/
theorem service_of_run {cfg : Config} {as : List Action}
    (hrun : handler.run (State.initial cfg) as = some s) (hb : Bounded s) :
    ∃ bs, callService.run (fun _ => none) bs = some s.service ∧ AtMostOnce.Apart s.service ∧
      ∀ k call, s.service k = some call → call.Sound Asked.frame := by
  have hpath := (Machine.Path.of_bound (fun _ _ _ hstep => Bounded.of_step hstep)
    (Machine.path_iff_run.mpr hrun) hb).1.mono fun _ _ h => h.2
  obtain ⟨bs, hbs⟩ := serviceSimulation.path (.init ⟨cfg, rfl⟩) hpath
  have hreach : callService.Reach (fun _ _ => True) s.service :=
    Machine.Reach.path (.init rfl) hbs
  exact ⟨bs, Machine.path_iff_run.mp hbs, AtMostOnce.apart_of_reach hreach,
    fun _ _ => AtMostOnce.sound_of_reach hreach⟩

/-- One call on a pool of one connection, which is answered. -/
theorem service_of_run_one_call :
    ∃ s bs, handler.run (State.initial ⟨.standalone, "host", 1, 1⟩)
        [.reconnect true, .reconnect true, .reconnect true, .call "eu" false [1, 65], .exec 0,
          .exec 0, .exec 0, .exec 0, .exec 0, .write 0, .deliver 0 (prependHeader 1 [0, 0, 0]),
          .recv 0 12, .read 0, .read 0, .exec 0] = some s ∧
      (s.calls 0).pc = .finished (.ok [0, 0, 0]) ∧
      callService.run (fun _ => none) bs = some s.service := by
  have hrun : (handler.run (State.initial ⟨.standalone, "host", 1, 1⟩)
      [.reconnect true, .reconnect true, .reconnect true, .call "eu" false [1, 65], .exec 0,
        .exec 0, .exec 0, .exec 0, .exec 0, .write 0, .deliver 0 (prependHeader 1 [0, 0, 0]),
        .recv 0 12, .read 0, .read 0, .exec 0]).map (fun s => ((s.calls 0).pc, s.clock)) =
      some (.finished (.ok [0, 0, 0]), 15) := by decide
  obtain ⟨s, hs, hpc⟩ := Option.map_eq_some_iff.mp hrun
  obtain ⟨hpc, hclock⟩ := Prod.mk.inj hpc
  have hr : handler.Reachable s :=
    Machine.Reach.run (.init ⟨_, rfl⟩) (fun _ _ _ => trivial) hs
  obtain ⟨bs, hbs, -⟩ := service_of_run hs (bounded_of_clock hr (by rw [hclock]; decide))
  exact ⟨s, bs, hs, hpc, hbs⟩

/-! ## Calls that fail -/

/-- The error of a call that gives up: no connection was found, or its sender was dropped. -/
theorem error_of_exec {k : CallId} {e : RZError} (h : s.exec k = some s')
    (hk : (s'.calls k).pc = .finished (.error e)) :
    e = .roomzinUnreachable s.cfg.roomzinAddr ∨
      ∃ c id x, (s.calls k).pc = .wait c id x ∧ (s.chans x).oneshot = .closed := by
  have hretry {t : State} {held : Option ConnId} {error : RZError}
      (hk : ((t.retry k held error).calls k).pc = .finished (.error e)) : e = error := by
    rw [State.retry, calls_setCall] at hk
    dsimp only at hk
    split_ifs at hk
    exact (Except.error.inj (Pc.finished.inj hk)).symm
  cases hpc : (s.calls k).pc with
  | pick =>
    obtain ⟨idx, ⟨-, rfl⟩ | ⟨c, -, rfl⟩⟩ := exec_of_pick hpc h
    · exact .inl (hretry hk)
    · rw [pc_setPc] at hk
      cases hk
  | check c =>
    simp only [State.exec, hpc, Option.some.injEq] at h
    subst h
    split_ifs at hk
    · exact .inl (hretry hk)
    · rw [pc_setPc] at hk
      cases hk
  | draw c =>
    obtain rfl := by simpa [State.exec, hpc] using h
    rw [pc_drawCorrId] at hk
    cases hk
  | store c id x | sleep held =>
    obtain rfl := by simpa [State.exec, hpc] using h
    rw [pc_setPc] at hk
    cases hk
  | send c id x =>
    simp only [State.exec, hpc] at h
    obtain ⟨t, -, rfl⟩ := Option.map_eq_some_iff.mp h
    rw [pc_setPc] at hk
    cases hk
  | wait c id x =>
    cases ho : (s.chans x).oneshot with
    | empty => simp [State.exec, hpc, ho] at h
    | sent b =>
      obtain rfl := by simpa [State.exec, hpc, ho] using h
      rw [pc_setPc] at hk
      cases hk
    | closed => exact .inr ⟨c, id, x, rfl, ho⟩
  | finished r => simp [State.exec, hpc] at h
  | dropped => simp [State.exec, hpc] at h

/-- The error of a call that fails before it is sent: it has no payload, or no connection was
found. -/
def Unsendable (s : State) (call : Call) (e : RZError) : Prop :=
  e = .validation "empty payload" ∧ call.payload = [] ∨ e = .roomzinUnreachable s.cfg.roomzinAddr

/-- A call that fails with a step fails before it is sent. -/
theorem unsendable_of_act (hr : handler.Reachable s) (hb : Bounded s) (h : s.act a = some s')
    {k : CallId} {e : RZError} (hk : (s'.calls k).pc = .finished (.error e)) :
    s'.calls k = s.calls k ∨ Unsendable s (s'.calls k) e := by
  have hopen {c : ConnId} {id : UInt32} {x : ChanId} (hpc : (s.calls k).pc = .wait c id x) :=
    (kept_of_reach hr hb).not_closed (correlated_of_reach hr) (holding_of_reach hr) hpc
  rcases (change_of_act h).calls k with he | hm
  · exact .inl he
  refine .inr ?_
  generalize hcall : s'.calls k = call' at hm hk
  cases hm with
  | new segment isWrite payload hnew =>
    dsimp only at hk ⊢
    split_ifs at hk with hp
    exact .inl ⟨(Except.error.inj (Pc.finished.inj hk)).symm, hp⟩
  | between attempts hlt =>
    have hexec : s.exec k = some s' := by simpa only [State.act, if_pos hlt] using h
    rcases error_of_exec hexec (by rw [hcall]; exact hk) with he | ⟨c, id, x, hpc, hclosed⟩
    · exact .inr he
    · exact absurd hclosed (hopen hpc)
  | unanswered attempts hpc closed => exact absurd closed (hopen hpc)
  | draw | store | wait | answered | cancel => cases hk

theorem Change.backendTimeouts (h : Change s a s') :
    s'.backendTimeouts = s.backendTimeouts ∨
      ∃ k c id x, (s.calls k).pc = .wait c id x ∧ (s.chans x).oneshot = .closed := by
  cases h with
  | unanswered hk pc closed => exact .inr ⟨_, _, _, _, pc, closed⟩
  | _ => exact .inl rfl

/-- A call fails before it is sent, so that no timeout is ever counted. -/
theorem unsendable_of_reach (hs : handler.Reachable s) (hb : Bounded s) :
    (∀ k e, (s.calls k).pc = .finished (.error e) → Unsendable s (s.calls k) e) ∧
      s.backendTimeouts = 0 := by
  refine hs.invariant_of_bound (P := fun s => (∀ k e, (s.calls k).pc = .finished (.error e) →
    Unsendable s (s.calls k) e) ∧ s.backendTimeouts = 0)
    (fun _ _ _ hst => Bounded.of_step hst) ?_ (fun s a s' hr hb _ h _ hstep => ?_) hb
  · rintro s ⟨cfg, rfl⟩
    exact ⟨nofun, rfl⟩
  · obtain ⟨s₁, hact, rfl⟩ := Option.map_eq_some_iff.mp hstep
    have hc := change_of_act hact
    obtain ⟨hfailed, htimeouts⟩ := h
    refine ⟨fun k e hk => ?_, ?_⟩
    · have hcfg : s₁.tick.reap.cfg = s.cfg := hc.cfg
      rcases unsendable_of_act hr hb hact hk with he | hu
      · have hu := hfailed k e (he ▸ hk)
        rw [Unsendable, hcfg]
        exact he.symm ▸ hu
      · rw [Unsendable, hcfg]
        exact hu
    · rcases hc.backendTimeouts with he | ⟨k, c, id, x, hpc, hclosed⟩
      · exact he.trans htimeouts
      · exact absurd hclosed ((kept_of_reach hr hb).not_closed (correlated_of_reach hr)
          (holding_of_reach hr) hpc)

/-- A call that has failed has put no frame in a queue. -/
theorem queued_of_failed (hs : handler.Reachable s) (hb : Bounded s) {k : CallId} {e : RZError}
    (hk : (s.calls k).pc = .finished (.error e)) : (s.calls k).queued = [] := by
  have hlt : k < s.callCount := by
    by_contra hge
    rw [(dropped_of_le hs (Nat.le_of_not_lt hge)).1] at hk
    cases hk
  have hsound := AtMostOnce.sound_of_reach (serviceSimulation.reach (reach_of_bounded hs hb))
    (show s.service k = some (s.view (s.calls k)) from if_pos hlt)
  exact hsound.sent_of_key (hsound.failed e (by rw [State.view, State.stage, hk]))

/-- **A call that fails has sent nothing**: it can be made again without doing anything twice. It
fails for want of a payload or of a connection, and never with a timeout. -/
theorem unsent_of_failed (hs : handler.Reachable s) (hb : Bounded s) :
    (∀ k e, (s.calls k).pc = .finished (.error e) →
      (s.calls k).queued = [] ∧ Unsendable s (s.calls k) e) ∧ s.backendTimeouts = 0 := by
  obtain ⟨hfailed, htimeouts⟩ := unsendable_of_reach hs hb
  exact ⟨fun k e hk => ⟨queued_of_failed hs hb hk, hfailed k e hk⟩, htimeouts⟩

/-- A call that finds no connection, three times. -/
theorem unsent_of_failed_no_connection :
    ∃ s, handler.run (State.initial ⟨.router, "host", 1, 1⟩)
        [.call "eu" true [1, 65], .exec 0, .exec 0, .exec 0, .exec 0, .exec 0] = some s ∧
      (s.calls 0).pc = .finished (.error (.roomzinUnreachable "host")) ∧
      (s.calls 0).queued = [] ∧ s.backendTimeouts = 0 := by
  have hrun : (handler.run (State.initial ⟨.router, "host", 1, 1⟩)
      [.call "eu" true [1, 65], .exec 0, .exec 0, .exec 0, .exec 0, .exec 0]).map
        (fun s => ((s.calls 0).pc, s.clock)) =
      some (.finished (.error (.roomzinUnreachable "host")), 6) := by decide
  obtain ⟨s, hs, hpc⟩ := Option.map_eq_some_iff.mp hrun
  obtain ⟨hpc, hclock⟩ := Prod.mk.inj hpc
  have hr : handler.Reachable s :=
    Machine.Reach.run (.init ⟨_, rfl⟩) (fun _ _ _ => trivial) hs
  have hfailed := unsent_of_failed hr (bounded_of_clock hr (by rw [hclock]; decide))
  exact ⟨s, hs, hpc, (hfailed.1 0 _ hpc).1, hfailed.2⟩

end RzProxy
