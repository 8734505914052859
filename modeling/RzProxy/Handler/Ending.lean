import RzProxy.Handler.Lost
import RzProxy.Handler.Progress

/-!
# Calls that come to an end

A call that does not hang can be brought to its end, in whatever state the others left the handler:
its own steps, the task that refills the pool, and the loops of the connection that it holds take it
there, with one reply from the backend at most. So a call hangs exactly if it is lost.

## Main definitions

* `Serves`: the steps that serve a connection
* `Assists`: the steps that bring a call to its end

## Main results

* `closes_of_reach`: a loop that has ended leaves its connection closed
* `exists_flushed`: a write loop gets through its queue
* `ends_of_reach`: a call comes to an end, or hangs for good
-/

namespace RzProxy

open ByteString Streaming Machines

variable {s s' : State} {a : Action} {k : CallId} {c : ConnId}

/-- The steps of the loops of `c`, and the replies on it of a backend that behaves well. -/
def Serves (c : ConnId) (s : State) : Action → Prop
  | .write d | .read d | .recv d _ => d = c
  | .deliver d bytes => d = c ∧ WellBehaved s (.deliver d bytes)
  | _ => False

/-- The steps that bring a call to its end: its own, those of the task that refills the pool, even
if it cannot connect, and those that serve the connection that it holds. -/
def Assists (k : CallId) (s : State) : Action → Prop
  | .exec j => j = k
  | .reconnect connected => connected = false
  | a => ∃ c, (s.calls k).pc.holds = some c ∧ Serves c s a

/-- The backend replies. -/
def Action.isReply : Action → Bool
  | .deliver _ _ => true
  | _ => false

theorem Serves.wellBehaved (h : Serves c s a) : WellBehaved s a := by
  cases a with
  | deliver => exact h.2
  | _ => trivial

theorem Assists.wellBehaved (h : Assists k s a) : WellBehaved s a := by
  cases a with
  | deliver =>
    obtain ⟨c, -, h⟩ := h
    exact h.wellBehaved
  | _ => trivial

/-- What serves a connection leaves the calls as they are. -/
theorem Serves.calls_eq (h : Serves c s a) (hstep : handler.step s a = some s') :
    s'.calls = s.calls := by
  obtain ⟨s₁, hc, rfl⟩ := step_cases hstep
  cases a with
  | write | read | recv | deliver => cases hc <;> rfl
  | _ => exact h.elim

theorem Assists.of_serves (hholds : (s.calls k).pc.holds = some c) (h : Serves c s a) :
    Assists k s a := by
  cases a with
  | write | read | recv | deliver => exact ⟨c, hholds, h⟩
  | _ => exact h.elim

/-- What serves the connection of a call assists the call. -/
theorem path_assists {as : List Action} (hpath : handler.Path (Serves c) s as s')
    (hholds : (s.calls k).pc.holds = some c) : handler.Path (Assists k) s as s' := by
  induction hpath with
  | nil s => exact .nil s
  | cons hserves hstep _ ih =>
    refine .cons (.of_serves hholds hserves) hstep (ih ?_)
    rw [hserves.calls_eq hstep]
    exact hholds

theorem countP_isReply_eq_zero {own : Action → Prop} {as : List Action}
    (hown : ∀ a, own a → a.isReply = false) (hpath : handler.Path (fun _ a => own a) s as s') :
    as.countP Action.isReply = 0 := by
  rw [List.countP_eq_zero]
  intro a ha
  rw [hown a ((Machine.path_own_iff.mp hpath).1 a ha)]
  exact Bool.false_ne_true

theorem countP_isReply_of_eq {b : Action} {as : List Action} (hb : b.isReply = false)
    (hpath : handler.Path (fun _ a => a = b) s as s') : as.countP Action.isReply = 0 := by
  refine countP_isReply_eq_zero (fun a ha => ?_) hpath
  rw [ha, hb]

/-! ## Loops that have ended -/

/-- A loop that has ended leaves its connection closed, and the queue is there as long as its loop
is. -/
structure Connection.Closes (k : Connection) : Prop where
  read : k.readTask = .leaving ∨ k.readTask = .done → k.closed = true
  write : k.writeTask = .leaving ∨ k.writeTask = .done → k.closed = true
  queue : k.writeTask ≠ .done → k.queueOpen = true

theorem Connection.Moves.closes {m : ℕ} {conn conn' : Connection} (hm : conn.Moves m c a conn')
    (h : conn.Closes) : conn'.Closes := by
  cases hm with
  | alone hl =>
    cases hl with
    | close => exact ⟨fun _ => rfl, fun _ => rfl, h.queue⟩
    | readError | malformed => exact ⟨by simp, h.write, h.queue⟩
    | unknownId => exact ⟨by simp [Connection.unknownId], h.write, h.queue⟩
    | readClosed => exact ⟨fun _ => rfl, fun _ => rfl, h.queue⟩
    | readDone task => exact ⟨fun _ => h.read (.inl task), h.write, h.queue⟩
    | writeClosed task =>
      exact ⟨fun _ => rfl, fun _ => rfl, fun _ => h.queue (by rw [task]; simp)⟩
    | writeDone task => exact ⟨h.read, fun _ => h.write (.inl task), fun hne => absurd rfl hne⟩
    | writeError task => exact ⟨h.read, by simp, fun _ => h.queue (by rw [task]; simp)⟩
    | _ => exact ⟨h.read, h.write, h.queue⟩
  | push push =>
    rw [Connection.push_eq push]
    exact ⟨h.read, h.write, h.queue⟩
  | draw | register | refuse | take => exact ⟨h.read, h.write, h.queue⟩

theorem closes_of_reach {ok : State → Action → Prop} (hs : handler.Reach ok s) (c : ConnId) :
    (s.conns c).Closes := by
  refine hs.invariant (P := fun s => ∀ c, (s.conns c).Closes) ?_
    (fun s a s' _ h _ hstep => ?_) c
  · rintro s ⟨cfg, rfl⟩ c
    exact ⟨by simp [State.initial, Connection.fresh], by simp [State.initial, Connection.fresh],
      fun _ => rfl⟩
  · obtain ⟨s₁, hc, rfl⟩ := step_cases hstep
    intro c
    have h₁ : (s₁.conns c).Closes := by
      rcases hc.conns c with he | hm
      · rw [he]
        exact h c
      · exact hm.closes (h c)
    rw [conns_reap]
    split_ifs
    · exact ⟨h₁.read, h₁.write, h₁.queue⟩
    · exact h₁

/-! ## The write loop by itself -/

/-- What the write loop of `c` leaves as it is, as long as it runs. -/
structure OnlyWrites (c : ConnId) (s s' : State) : Prop where
  calls : s'.calls = s.calls
  callCount : s'.callCount = s.callCount
  connCount : s'.connCount = s.connCount
  readTask : (s'.conns c).readTask = (s.conns c).readTask
  writeTask : (s'.conns c).writeTask = (s.conns c).writeTask
  requests : (s'.conns c).requests = (s.conns c).requests

theorem OnlyWrites.refl (c : ConnId) (s : State) : OnlyWrites c s s :=
  ⟨rfl, rfl, rfl, rfl, rfl, rfl⟩

theorem OnlyWrites.trans {s₁ : State} (h : OnlyWrites c s s₁) (h' : OnlyWrites c s₁ s') :
    OnlyWrites c s s' where
  calls := h'.calls.trans h.calls
  callCount := h'.callCount.trans h.callCount
  connCount := h'.connCount.trans h.connCount
  readTask := h'.readTask.trans h.readTask
  writeTask := h'.writeTask.trans h.writeTask
  requests := h'.requests.trans h.requests

/-- **A write loop gets through its queue**, by itself. -/
theorem exists_flushed (hc : c < s.connCount) (hw : (s.conns c).writeTask = .running) :
    ∃ as s', handler.Path (fun _ a => a = .write c) s as s' ∧ OnlyWrites c s s' ∧
      (s'.conns c).queue = [] := by
  refine Machine.exists_path_of_rank (P := OnlyWrites c s) (fun s' => (s'.conns c).queue.length)
    (fun s₁ h₁ hleft => ?_) (.refl c s)
  have hc₁ := h₁.connCount.symm ▸ hc
  have hw₁ := h₁.writeTask.trans hw
  obtain ⟨frame, queue, hq⟩ := List.exists_cons_of_ne_nil hleft
  let conn := { s₁.conns c with queue, written := (s₁.conns c).written ++ [frame] }
  have hwrite : (s₁.conns c).write = some conn := by
    simp only [Connection.write, hw₁, hq, conn]
  have hact : s₁.act (.write c) = some (s₁.setConn c conn) := by
    simp only [State.act, State.onConn, if_pos hc₁, hwrite, Option.map_some]
  refine ⟨[.write c], _, .single rfl (step_of_act hact), h₁.trans ⟨rfl, rfl, rfl, ?_, ?_, ?_⟩, ?_⟩
  · exact apply_setConn_reap Connection.readTask (fun _ => rfl) s₁ c conn
  · exact apply_setConn_reap Connection.writeTask (fun _ => rfl) s₁ c conn
  · rw [apply_setConn_reap Connection.requests fun _ => rfl]
    simp [Connection.requests, conn, hq]
  · rw [apply_setConn_reap Connection.queue fun _ => rfl, hq]
    exact Nat.lt_succ_self _

/-! ## The reply to a request -/

/-- Once everything was taken, a reply to a request was sent to its channel. -/
theorem sent_of_drained (hs : handler.Reach WellBehaved s) (hb : Bounded s)
    (ht : (s.conns c).readTask = .running) (hd : (s.conns c).Drained) {x : ChanId} {id : UInt32}
    (hx : (x, id) ∈ (s.conns c).written.filterMap QueuedFrame.request?)
    (hid : id ∈ (s.conns c).replyIds) : ∃ p, (s.chans x).oneshot = .sent p := by
  have hframes := (fed_of_reach hs c).frames_of_drained ht hd
  rw [Connection.replyIds, hframes, List.map_map] at hid
  obtain ⟨f, hf, hfid⟩ := List.mem_map.mp hid
  obtain ⟨hy, hsent⟩ := exists_request_of_taken hs hb ht hframes hf
  have hserved := (served_and_orderly_of_reach hs hb).1
  obtain ⟨hxl, hxc, hxi, -⟩ := hserved.request (Connection.mem_requests_of_written hx)
  obtain ⟨hyl, hyc, hyi, -⟩ := hserved.request (Connection.mem_requests_of_written hy)
  obtain rfl := (correlated_of_reach hs).eq_of_corrId hb hyl hxl (hyc.trans hxc.symm)
    (hyi.trans (Eq.trans hfid hxi.symm))
  exact ⟨_, hsent⟩

theorem Connection.Orderly.mem_replyIds_deliver {conn : Connection} (h : conn.Orderly)
    (hfed : conn.Fed) (ht : conn.readTask = .running) (id : UInt32) {payload : Bytes}
    (hp : WellFormedPayload payload) : id ∈ (conn.deliver (prependHeader id payload)).replyIds := by
  obtain ⟨replies, hw, hbytes⟩ := h.answering ht
  have hfed' : (conn.deliver (prependHeader id payload)).Fed :=
    hfed.alone (m := 0) (c := 0) (.deliver _)
  have hw' : ∀ f ∈ replies ++ [(id, payload)], WellFormedPayload f.2 := by
    intro f hf
    rcases List.mem_append.mp hf with hf | hf
    · exact hw f hf
    · rw [List.mem_singleton.mp hf]
      exact hp
  have hbytes' : conn.buf ++ (conn.inbound ++ prependHeader id payload) =
      replyBytes (replies ++ [(id, payload)]) := by
    rw [← List.append_assoc, hbytes, replyBytes, replyBytes, List.flatMap_append]
    simp
  rw [hfed'.replyIds_eq ht hw' hbytes', List.map_append]
  simp

/-- The backend can reply to a request that has no reply yet. -/
theorem exists_reply (hs : handler.Reach WellBehaved s) (hb : Bounded s) (hc : c < s.connCount)
    (ht : (s.conns c).readTask = .running) {x : ChanId} {id : UInt32}
    (hx : (x, id) ∈ (s.conns c).written.filterMap QueuedFrame.request?) :
    ∃ as s', handler.Path (Serves c) s as s' ∧ as.countP Action.isReply ≤ 1 ∧
      OnlyWrites c s s' ∧ (s'.conns c).written = (s.conns c).written ∧
        id ∈ (s'.conns c).replyIds := by
  by_cases hid : id ∈ (s.conns c).replyIds
  · exact ⟨[], s, .nil s, Nat.zero_le _, .refl c s, rfl, hid⟩
  have hp : WellFormedPayload [0, 0, 0] := ⟨0, [0, 0], rfl, by decide, by decide⟩
  have hrequest : id ∈ (s.conns c).requestIds := by
    rw [Connection.requestIds_eq]
    exact List.mem_map.mpr ⟨(x, id), hx, rfl⟩
  have hok : WellBehaved s (.deliver c (prependHeader id [0, 0, 0])) := by
    refine ⟨id, [0, 0, 0], rfl, hp, ?_⟩
    rw [List.count_eq_zero.mpr hid]
    exact List.count_pos_iff.mpr hrequest
  let conn := (s.conns c).deliver (prependHeader id [0, 0, 0])
  have hact : s.act (.deliver c (prependHeader id [0, 0, 0])) = some (s.setConn c conn) := by
    simp only [State.act, State.onConn, if_pos hc, Option.map_some, conn]
  have hserves : Serves c s (.deliver c (prependHeader id [0, 0, 0])) := ⟨rfl, hok⟩
  refine ⟨[.deliver c _], _, .single hserves (step_of_act hact), le_rfl,
    ⟨rfl, rfl, rfl, ?_, ?_, ?_⟩, ?_, ?_⟩
  · exact apply_setConn_reap Connection.readTask (fun _ => rfl) s c conn
  · exact apply_setConn_reap Connection.writeTask (fun _ => rfl) s c conn
  · exact apply_setConn_reap Connection.requests (fun _ => rfl) s c conn
  · exact apply_setConn_reap Connection.written (fun _ => rfl) s c conn
  · rw [apply_setConn_reap Connection.replyIds fun _ => rfl]
    have hord := (served_and_orderly_of_reach hs hb).2 c
    exact hord.mem_replyIds_deliver (fed_of_reach hs c) ht id hp

theorem Serves.of_readsFor (h : ReadsFor c a) : Serves c s a := by
  cases a with
  | read | recv => exact h
  | _ => exact h.elim

theorem Serves.of_write (h : a = .write c) : Serves c s a := by
  subst h
  rfl

/-- **A request on the wire is answered** by the backend and the read loop. -/
theorem exists_sent (hs : handler.Reach WellBehaved s) (hle : s.callCount ≤ 2 ^ 32)
    (hc : c < s.connCount) (ht : (s.conns c).readTask = .running) {x : ChanId} {id : UInt32}
    (hx : (x, id) ∈ (s.conns c).written.filterMap QueuedFrame.request?) :
    ∃ as s', handler.Path (Serves c) s as s' ∧ as.countP Action.isReply ≤ 1 ∧
      s'.calls = s.calls ∧ s'.callCount = s.callCount ∧ ∃ p, (s'.chans x).oneshot = .sent p := by
  have hb := (single_of_reach hs.reachable hle).bounded hs.reachable hle
  obtain ⟨as, s₁, hpath₁, hone, hreply, hwritten, hid⟩ := exists_reply hs hb hc ht hx
  have hs₁ := hs.path (hpath₁.mono fun _ _ h => h.wellBehaved)
  have ht₁ := hreply.readTask.trans ht
  obtain ⟨bs, s₂, hpath₂, ⟨hs₂, hreads⟩, hdrained⟩ := exists_drained hs₁
    (hreply.callCount.trans_le hle) (hreply.connCount.symm ▸ hc) ht₁
  have hcount := hreads.callCount.trans hreply.callCount
  have hle₂ := hcount.trans_le hle
  have hb₂ := (single_of_reach hs₂.reachable hle₂).bounded hs₂.reachable hle₂
  have hnone : bs.countP Action.isReply = 0 := by
    refine countP_isReply_eq_zero (fun a ha => ?_) hpath₂
    cases a with
    | read | recv => rfl
    | _ => exact ha.elim
  refine ⟨as ++ bs, s₂, hpath₁.append (hpath₂.mono fun _ _ h => .of_readsFor h),
    by rw [List.countP_append, hnone]; exact hone, hreads.calls.trans hreply.calls, hcount, ?_⟩
  have hx₂ : (x, id) ∈ (s₂.conns c).written.filterMap QueuedFrame.request? := by
    rw [hreads.written, hwritten]
    exact hx
  have hid₂ : id ∈ (s₂.conns c).replyIds := by
    rw [Connection.replyIds, Connection.frames, hreads.received]
    exact hid
  exact sent_of_drained hs₂ hb₂ (hreads.readTask.trans ht₁) hdrained hx₂ hid₂

/-! ## The next step of a call -/

theorem working_of_not_lost (h : ¬ Lost s k) (hpc : (s.calls k).pc.sendsOn = some c) :
    (s.conns c).Working := by
  by_contra hw
  exact h (.sending hpc hw)

/-- A call that neither is about to send nor waits does not hang. -/
theorem not_lost_of_pc (hsends : (s.calls k).pc.sendsOn = none)
    (hwait : ∀ c id x, (s.calls k).pc ≠ .wait c id x) : ¬ Lost s k := by
  intro h
  cases h with
  | sending pc =>
    rw [hsends] at pc
    cases pc
  | waiting pc => exact hwait _ _ _ pc

/-- A call that is about to send where both loops run does not hang. -/
theorem not_lost_of_working (hpc : (s.calls k).pc.sendsOn = some c) (hw : (s.conns c).Working) :
    ¬ Lost s k := by
  intro h
  cases h with
  | sending pc ended =>
    obtain rfl := Option.some.inj (hpc.symm.trans pc)
    exact ended hw
  | waiting pc =>
    rw [pc] at hpc
    cases hpc

/-- A call that can take its next step without hanging after it, once some others have taken
theirs. The backend replies at most once for this, and not at all unless the step is the last. -/
def Ready (s : State) (k : CallId) : Prop :=
  ∃ as t t', handler.Path (Assists k) s as t ∧ t.calls = s.calls ∧ t.callCount = s.callCount ∧
    t.exec k = some t' ∧ ¬ Lost t' k ∧ as.countP Action.isReply ≤ 1 ∧
      (as.countP Action.isReply = 0 ∨ (t'.calls k).pc.left = 0)

theorem Ready.now (h : s.exec k = some s') (hlost : ¬ Lost s' k) : Ready s k :=
  ⟨[], s, s', .nil s, rfl, rfl, h, hlost, Nat.zero_le _, .inl rfl⟩

/-- A call is ready if others, of which none is the backend, can make it so. -/
theorem Ready.of_path (h : Ready s' k) {as : List Action} (hpath : handler.Path (Assists k) s as s')
    (hquiet : as.countP Action.isReply = 0) (hcalls : s'.calls = s.calls)
    (hcount : s'.callCount = s.callCount) : Ready s k := by
  obtain ⟨bs, t, t', hpath', hcalls', hcount', hexec, hlost, hreplies⟩ := h
  refine ⟨as ++ bs, t, t', hpath.append hpath', hcalls'.trans hcalls, hcount'.trans hcount, hexec,
    hlost, ?_⟩
  rwa [List.countP_append, hquiet, Nat.zero_add]

/-- A failed attempt leaves no call that hangs. -/
theorem not_lost_retry (s : State) (k : CallId) (held : Option ConnId) (error : RZError) :
    ¬ Lost (s.retry k held error) k := by
  have hpc : ((s.retry k held error).calls k).pc =
      if 3 ≤ (s.calls k).attempts + 1 then .finished (.error error) else .sleep held := by
    rw [State.retry, calls_setCall]
  refine not_lost_of_pc ?_ fun c id x => ?_ <;> rw [hpc] <;> split_ifs <;> simp [Pc.sendsOn]

theorem ready_of_pick (hs : handler.Reachable s) (hpc : (s.calls k).pc = .pick) : Ready s k := by
  have hunlock : ∃ as t, handler.Path (fun _ a => a = .reconnect false) s as t ∧
      (handler.Reachable t ∧ t.calls = s.calls ∧ t.callCount = s.callCount) ∧
        t.reconnecting = none := by
    refine Machine.exists_path_of_rank
      (P := fun t => handler.Reachable t ∧ t.calls = s.calls ∧ t.callCount = s.callCount)
      (fun t => t.holdup k) (fun t ht hlock => ?_) ⟨hs, rfl, rfl⟩
    obtain ⟨hr, hcalls, hcount⟩ := ht
    have hact : t.act (.reconnect false) = some (t.reconnectClosed false) := rfl
    have hstep : handler.step t (.reconnect false) = some (t.reconnectClosed false).tick.reap := rfl
    obtain ⟨hcalls', hcount'⟩ := calls_reconnectClosed t false
    refine ⟨[.reconnect false], _, .single rfl hstep, ⟨.step hr trivial hstep,
      hcalls'.trans hcalls, hcount'.trans hcount⟩, ?_⟩
    rw [holdup_tick_reap ((holding_of_reach hr).change (change_of_act hact))]
    exact holdup_reconnectClosed (by rw [hcalls]; exact hpc) (Option.isSome_iff_ne_none.mpr hlock)
  obtain ⟨as, t, hrefills, ⟨hr, hcalls, hcount⟩, hlock⟩ := hunlock
  have hpath : handler.Path (Assists k) s as t := by
    refine hrefills.mono fun s a ha => ?_
    subst ha
    rfl
  have hpc' : (t.calls k).pc = .pick := by rw [hcalls]; exact hpc
  refine .of_path ?_ hpath (countP_isReply_of_eq rfl hrefills) hcalls hcount
  obtain ⟨found, idx, hnext⟩ := nextConnection_of_reachable hr
  cases found with
  | none =>
    have hexec : t.exec k = some ({ t with nextConn := idx }.retry k none
        (.roomzinUnreachable t.cfg.roomzinAddr)) := by
      simp [State.exec, hpc', hlock, hnext]
    exact .now hexec (not_lost_retry _ _ _ _)
  | some c =>
    have hexec : t.exec k = some ({ t with nextConn := idx }.setPc k (.check c)) := by
      simp [State.exec, hpc', hlock, hnext]
    refine .now hexec (not_lost_of_pc ?_ fun c id x => ?_) <;> rw [pc_setPc]
    · rfl
    · simp

/-- A call whose connection is closed goes on to its next attempt. -/
theorem exec_of_closed (hpc : (s.calls k).pc = .check c) (hclosed : (s.conns c).closed = true) :
    s.exec k = some (s.retry k (some c) (.roomzinUnreachable s.cfg.roomzinAddr)) := by
  simp only [State.exec, hpc, State.isClosed, hclosed, if_true]

/-- A call goes on once its connection is closed. -/
theorem ready_of_closing (hpc : (s.calls k).pc = .check c) {conn : Connection}
    (hact : s.act a = some (s.setConn c conn)) (ha : Serves c s a) (hquiet : a.isReply = false)
    (hclosed : conn.closed = true) : Ready s k := by
  let t := (s.setConn c conn).tick.reap
  have hassists : Assists k s a := .of_serves (by rw [hpc]; rfl) ha
  have hpath : handler.Path (Assists k) s [a] t := .single hassists (step_of_act hact)
  have hclosed' : (t.conns c).closed = true := by
    rw [apply_setConn_reap Connection.closed fun _ => rfl]
    exact hclosed
  have hready : Ready t k := .now (exec_of_closed hpc hclosed') (not_lost_retry _ _ _ _)
  exact hready.of_path hpath (by simp [hquiet]) rfl rfl

/-- A connection that is open where a loop has ended is about to be closed. -/
theorem Connection.Closes.closing {conn : Connection} (h : conn.Closes)
    (hopen : conn.closed = false) (hw : ¬ conn.Working) :
    conn.readTask = .closing ∨ conn.writeTask = .closing := by
  have hne : conn.closed ≠ true := by simp [hopen]
  cases hread : conn.readTask with
  | closing => exact .inl rfl
  | leaving => exact absurd (h.read (.inl hread)) hne
  | done => exact absurd (h.read (.inr hread)) hne
  | running =>
    cases hwrite : conn.writeTask with
    | running => exact absurd ⟨hread, hwrite⟩ hw
    | closing => exact .inr rfl
    | leaving => exact absurd (h.write (.inl hwrite)) hne
    | done => exact absurd (h.write (.inr hwrite)) hne

theorem ready_of_check (hs : handler.Reachable s) (hc : c < s.connCount)
    (hpc : (s.calls k).pc = .check c) : Ready s k := by
  cases hclosed : (s.conns c).closed with
  | true => exact .now (exec_of_closed hpc hclosed) (not_lost_retry _ _ _ _)
  | false =>
    by_cases hw : (s.conns c).Working
    · have hexec : s.exec k = some (s.setPc k (.draw c)) := by
        simp [State.exec, hpc, State.isClosed, hclosed]
      exact .now hexec (not_lost_of_working (c := c) (by rw [pc_setPc]; rfl) hw)
    · rcases (closes_of_reach hs c).closing hclosed hw with htask | htask
      · let conn := { s.conns c with closed := true, readTask := .leaving }
        have hact : s.act (.read c) = some (s.setConn c conn) := by
          simp only [State.act, State.readTask, State.onConn, if_pos hc, Connection.read, htask,
            Option.map_some, conn]
        exact ready_of_closing hpc hact rfl rfl rfl
      · let conn := { s.conns c with closed := true, writeTask := .leaving }
        have hact : s.act (.write c) = some (s.setConn c conn) := by
          simp only [State.act, State.onConn, if_pos hc, Connection.write, htask, Option.map_some,
            conn]
        exact ready_of_closing hpc hact rfl rfl rfl

theorem ready_of_send (hs : handler.Reachable s) (hc : c < s.connCount)
    {id : UInt32} {x : ChanId} (hpc : (s.calls k).pc = .send c id x) (hw : (s.conns c).Working) :
    Ready s k := by
  obtain ⟨as, t, hpath, hwrites, hqueue⟩ := exists_flushed hc hw.2
  have hpc' : (t.calls k).pc = .send c id x := by rw [hwrites.calls]; exact hpc
  have hrun := hwrites.writeTask.trans hw.2
  have hr := hs.path (hpath.mono fun _ _ _ => trivial)
  have hopen : (t.conns c).queueOpen = true := (closes_of_reach hr c).queue (by rw [hrun]; simp)
  let frame := t.buildFrame (t.calls k) id
  let conn := { t.conns c with queue := [.request x id frame] }
  have hpush : (t.conns c).push t.cfg.maxActiveConns (.request x id frame) = some conn := by
    simp [Connection.push, hqueue, conn]
  have hexec : t.exec k = some (((t.setConn c conn).setCall k fun call =>
      { call with queued := call.queued ++ [(c, frame)] }).setPc k (.wait c id x)) := by
    simp only [State.exec, hpc', State.sendFrame, hopen, if_true, hpush, frame, Option.map_some]
  have hpath' : handler.Path (Assists k) s as t :=
    path_assists (hpath.mono fun _ _ h => .of_write h) (by rw [hpc]; rfl)
  refine .of_path (.now hexec fun hlost => ?_) hpath' (countP_isReply_of_eq rfl hpath)
    hwrites.calls hwrites.callCount
  cases hlost with
  | sending pc =>
    rw [pc_setPc] at pc
    cases pc
  | waiting pc _ ended =>
    rw [pc_setPc] at pc
    cases pc
    have hself : ((t.setConn c conn).setCall k fun call =>
        { call with queued := call.queued ++ [(c, frame)] }).conns c = conn :=
      Function.update_self ..
    refine ended ?_ (.inr ⟨?_, ?_⟩) <;> rw [State.setPc, State.setCall, hself]
    · exact hwrites.readTask.trans hw.1
    · exact hrun
    · simp [conn, QueuedFrame.request?]

/-- A call whose reply has come returns it. -/
theorem exec_of_sent {id : UInt32} {x : ChanId} {p : Bytes} (hpc : (s.calls k).pc = .wait c id x)
    (hp : (s.chans x).oneshot = .sent p) : s.exec k = some (s.setPc k (.finished (.ok p))) := by
  simp only [State.exec, hpc, hp]

theorem not_lost_finished (s : State) (k : CallId) (r : Except RZError Bytes) :
    ¬ Lost (s.setPc k (.finished r)) k := by
  refine not_lost_of_pc ?_ fun c id x => ?_ <;> rw [pc_setPc]
  · rfl
  · simp

/-- A call whose request is on the wire is ready once the backend has replied. -/
theorem ready_of_written (hs : handler.Reach WellBehaved s) (hle : s.callCount ≤ 2 ^ 32)
    (hc : c < s.connCount) {id : UInt32} {x : ChanId} (hpc : (s.calls k).pc = .wait c id x)
    (ht : (s.conns c).readTask = .running)
    (hx : (x, id) ∈ (s.conns c).written.filterMap QueuedFrame.request?) : Ready s k := by
  obtain ⟨as, t, hpath, hone, hcalls, hcount, p, hp⟩ := exists_sent hs hle hc ht hx
  have hpc' : (t.calls k).pc = .wait c id x := by rw [hcalls]; exact hpc
  exact ⟨as, t, _, path_assists hpath (by rw [hpc]; rfl), hcalls, hcount, exec_of_sent hpc' hp,
    not_lost_finished _ _ _, hone, .inr (by rw [pc_setPc]; rfl)⟩

theorem ready_of_wait (hs : handler.Reach WellBehaved s) (hle : s.callCount ≤ 2 ^ 32)
    (hc : c < s.connCount) {id : UInt32} {x : ChanId} (hpc : (s.calls k).pc = .wait c id x)
    (hlost : ¬ Lost s k) : Ready s k := by
  cases ho : (s.chans x).oneshot with
  | sent p => exact .now (exec_of_sent hpc ho) (not_lost_finished _ _ _)
  | closed =>
    have hb := (single_of_reach hs.reachable hle).bounded hs.reachable hle
    exact absurd ho ((kept_of_reach hs hb).not_closed (correlated_of_reach hs)
      (holding_of_reach hs) hpc)
  | empty =>
    have hread : (s.conns c).readTask = .running := by
      by_contra hread
      exact hlost (.waiting hpc ho fun h => absurd h hread)
    have hcarries : (s.conns c).Carries (x, id) := by
      by_contra hcarries
      exact hlost (.waiting hpc ho fun _ => hcarries)
    rcases hcarries with hx | ⟨hwrite, hx⟩
    · exact ready_of_written hs hle hc hpc hread hx
    · obtain ⟨as, t, hpath, hwrites, hqueue⟩ := exists_flushed hc hwrite
      have hpath' : handler.Path (Assists k) s as t :=
        path_assists (hpath.mono fun _ _ h => .of_write h) (by rw [hpc]; rfl)
      have hx' : (x, id) ∈ (t.conns c).written.filterMap QueuedFrame.request? := by
        have hrequest : (x, id) ∈ (t.conns c).requests := by
          rw [hwrites.requests, Connection.requests, List.filterMap_append]
          exact List.mem_append_right _ hx
        rwa [Connection.requests, hqueue, List.append_nil] at hrequest
      have hpc' : (t.calls k).pc = .wait c id x := by rw [hwrites.calls]; exact hpc
      have hready : Ready t k :=
        ready_of_written (hs.path (hpath'.mono fun _ _ h => h.wellBehaved))
          (hwrites.callCount.trans_le hle) (hwrites.connCount.symm ▸ hc) hpc'
          (hwrites.readTask.trans hread) hx'
      exact hready.of_path hpath' (countP_isReply_of_eq rfl hpath) hwrites.calls hwrites.callCount

theorem ready_of_not_lost (hs : handler.Reach WellBehaved s) (hle : s.callCount ≤ 2 ^ 32)
    (hleft : (s.calls k).pc.left ≠ 0) (hlost : ¬ Lost s k) : Ready s k := by
  cases hpc : (s.calls k).pc with
  | pick => exact ready_of_pick hs.reachable hpc
  | check c =>
    exact ready_of_check hs.reachable
      (lt_connCount_of_holds hs.reachable (k := k) (by rw [hpc]; rfl)) hpc
  | draw c =>
    have hw := working_of_not_lost hlost (c := c) (by rw [hpc]; rfl)
    have hexec : s.exec k = some (s.drawCorrId k c) := by simp only [State.exec, hpc]
    refine .now hexec (not_lost_of_working (c := c) (by rw [pc_drawCorrId]; rfl) ?_)
    rw [conns_drawCorrId]
    exact hw
  | store c id x =>
    have hw := working_of_not_lost hlost (c := c) (by rw [hpc]; rfl)
    have hexec : s.exec k = some ((s.store c id x).setPc k (.send c id x)) := by
      simp only [State.exec, hpc]
    refine .now hexec (not_lost_of_working (c := c) (by rw [pc_setPc]; rfl) ?_)
    show ((s.store c id x).conns c).Working
    rw [conns_store, if_pos rfl]
    exact hw
  | send c id x =>
    have hc := lt_connCount_of_holds hs.reachable (k := k) (c := c) (by rw [hpc]; rfl)
    exact ready_of_send hs.reachable hc hpc (working_of_not_lost hlost (by rw [hpc]; rfl))
  | wait c id x =>
    exact ready_of_wait hs hle (lt_connCount_of_holds hs.reachable (k := k) (by rw [hpc]; rfl)) hpc
      hlost
  | sleep held =>
    have hexec : s.exec k = some (s.setPc k .pick) := by simp only [State.exec, hpc]
    refine .now hexec (not_lost_of_pc ?_ fun c id x => ?_) <;> rw [pc_setPc]
    · rfl
    · simp
  | finished r | dropped =>
    rw [hpc] at hleft
    exact absurd rfl hleft

/-! ## The end of a call -/

theorem callCount_of_exec (h : Change s (.exec k) s') : s'.callCount = s.callCount := by
  cases h with
  | conn _ hl => cases hl
  | _ => rfl

/-- A call that does not hang can get nearer to its end; where the backend has to reply for it, to
its end. -/
theorem exists_nearer (hs : handler.Reach WellBehaved s) (hle : s.callCount ≤ 2 ^ 32)
    (hk : k < s.callCount) (hleft : (s.calls k).pc.left ≠ 0) (hlost : ¬ Lost s k) :
    ∃ as s', handler.Path (Assists k) s as s' ∧ s'.callCount = s.callCount ∧
      (s'.calls k).pc ≠ .dropped ∧ ¬ Lost s' k ∧ s'.stepsLeft k < s.stepsLeft k ∧
      as.countP Action.isReply ≤ 1 ∧
        (as.countP Action.isReply = 0 ∨ (s'.calls k).pc.left = 0) := by
  obtain ⟨as, t, t', hpath, hcalls, hcount, hexec, hlost', hone, hlast⟩ :=
    ready_of_not_lost hs hle hleft hlost
  have ht := hs.path (hpath.mono fun _ _ h => h.wellBehaved)
  have hk' : k < t.callCount := hcount.symm ▸ hk
  have hstep : handler.step t (.exec k) = some t'.tick.reap := step_of_exec hk' hexec
  have hc := change_of_exec hk' hexec
  have hsteps := stepsLeft_step ht.reachable k hstep
  rw [if_pos rfl, show t.stepsLeft k = s.stepsLeft k by
    rw [State.stepsLeft, State.stepsLeft, hcalls, hcount]] at hsteps
  have hreplies : (as ++ [Action.exec k]).countP Action.isReply = as.countP Action.isReply := by
    rw [List.countP_append]
    rfl
  refine ⟨as ++ [.exec k], t'.tick.reap,
    hpath.append (.single (show Assists k t (.exec k) from rfl) hstep), ?_, ?_, ?_, by omega,
    hreplies ▸ hone, hreplies ▸ hlast⟩
  · exact (callCount_of_exec hc).trans hcount
  · refine pc_ne_dropped_of_step hstep hk' (by simp) ?_
    rw [hcalls]
    intro hpc
    rw [hpc] at hleft
    exact hleft rfl
  · rwa [lost_tick_reap ((correlated_of_reach ht).change hc) ((holding_of_reach ht).change hc)]

/-- A call that has no step left, and whose client is there, has its result. -/
theorem Pc.exists_finished {pc : Pc} (hleft : pc.left = 0) (hpc : pc ≠ .dropped) :
    ∃ r, pc = .finished r := by
  cases pc with
  | finished r => exact ⟨r, rfl⟩
  | dropped => exact absurd rfl hpc
  | _ => cases hleft

/-- A call that does not hang can be brought to its end. -/
theorem exists_finished (hs : handler.Reach WellBehaved s) (hle : s.callCount ≤ 2 ^ 32)
    (hk : k < s.callCount) (hpc : (s.calls k).pc ≠ .dropped) (hlost : ¬ Lost s k) :
    ∃ as s', handler.Path (Assists k) s as s' ∧ s'.callCount = s.callCount ∧
      as.countP Action.isReply ≤ 1 ∧ ∃ r, (s'.calls k).pc = .finished r := by
  induction hn : s.stepsLeft k using Nat.strong_induction_on generalizing s with
  | h n ih =>
    by_cases hleft : (s.calls k).pc.left = 0
    · exact ⟨[], s, .nil s, rfl, Nat.zero_le _, Pc.exists_finished hleft hpc⟩
    obtain ⟨as, t, hpath, hcount, hpc', hlost', hlt, hone, hlast⟩ :=
      exists_nearer hs hle hk hleft hlost
    -- after a reply there is nothing left to do
    rcases hlast with hnone | hlast
    · have ht := hs.path (hpath.mono fun _ _ h => h.wellBehaved)
      obtain ⟨bs, s', hpath', hcount', hone', hend⟩ :=
        ih _ (hn ▸ hlt) ht (hcount.trans_le hle) (hcount.symm ▸ hk) hpc' hlost' rfl
      refine ⟨as ++ bs, s', hpath.append hpath', hcount'.trans hcount, ?_, hend⟩
      rwa [List.countP_append, hnone, Nat.zero_add]
    · exact ⟨as, t, hpath, hcount, hone, Pc.exists_finished hlast hpc'⟩

/-- **A call comes to its end** or hangs: as long as it does not hang, it can be brought to its end
with one reply at most of a backend that behaves well; and once it hangs it does so for good, until
its client goes away. -/
theorem ends_of_reach (hs : handler.Reach WellBehaved s) (hle : s.callCount ≤ 2 ^ 32)
    (hk : k < s.callCount) (hpc : (s.calls k).pc ≠ .dropped) :
    (¬ Lost s k → ∃ as s', handler.Path (Assists k) s as s' ∧ s'.callCount = s.callCount ∧
      as.countP Action.isReply ≤ 1 ∧ ∃ r, (s'.calls k).pc = .finished r) ∧
    (Lost s k → ∀ as s', handler.Path WellBehaved s as s' → s'.callCount ≤ 2 ^ 32 →
      Lost s' k ∨ (s'.calls k).pc = .dropped) := by
  constructor
  · intro hlost
    exact exists_finished hs hle hk hpc hlost
  · intro hlost as s' hpath hle'
    exact lost_of_path hs hk hpath hle' hlost

/-- A call that has one step left waits for its reply. -/
theorem Pc.eq_wait {pc : Pc} {c : ConnId} {id : UInt32} {x : ChanId} (hleft : pc.left = 1)
    (hattempt : pc.attempt = some (c, id, x)) : pc = .wait c id x := by
  cases pc with
  | wait => simpa [Pc.attempt] using hattempt
  | _ => simp [Pc.left] at hleft

/-- The steps of a call until its request is in the queue of the only connection. -/
def queuedRun : List Action :=
  [.reconnect true, .reconnect true, .reconnect true, .call "eu" false [1, 65], .exec 0, .exec 0,
    .exec 0, .exec 0, .exec 0]

/-- A call whose request is in the queue, before and after its connection breaks. -/
theorem ends_of_reach_broken :
    ∃ s s', handler.run (State.initial ⟨.standalone, "host", 1, 1⟩) queuedRun = some s ∧
      handler.run (State.initial ⟨.standalone, "host", 1, 1⟩) (queuedRun ++ [.readError 0]) =
        some s' ∧
      (∃ as t r, handler.Path (Assists 0) s as t ∧ as.countP Action.isReply ≤ 1 ∧
        (t.calls 0).pc = .finished r) ∧
      ∀ as t, handler.Path WellBehaved s' as t → t.callCount ≤ 2 ^ 32 →
        Lost t 0 ∨ (t.calls 0).pc = .dropped := by
  have hrun : (handler.run (State.initial ⟨.standalone, "host", 1, 1⟩) queuedRun).map (fun s =>
      (s.callCount, (s.calls 0).pc.left, (s.calls 0).pc.attempt)) =
        some (1, 1, some (0, 1, 0)) := by decide
  have hloops : (handler.run (State.initial ⟨.standalone, "host", 1, 1⟩) queuedRun).map (fun s =>
      ((s.conns 0).readTask, (s.conns 0).writeTask,
        (s.conns 0).queue.filterMap QueuedFrame.request?)) =
          some (.running, .running, [(0, 1)]) := by decide
  have hrun' : (handler.run (State.initial ⟨.standalone, "host", 1, 1⟩)
      (queuedRun ++ [.readError 0])).map (fun s =>
        (s.callCount, (s.calls 0).pc.left, (s.calls 0).pc.attempt)) =
          some (1, 1, some (0, 1, 0)) := by decide
  have hloops' : (handler.run (State.initial ⟨.standalone, "host", 1, 1⟩)
      (queuedRun ++ [.readError 0])).map (fun s => ((s.conns 0).readTask, (s.chans 0).oneshot)) =
        some (.closing, .empty) := by decide
  obtain ⟨s, hs, hcall⟩ := Option.map_eq_some_iff.mp hrun
  obtain ⟨s', hs', hcall'⟩ := Option.map_eq_some_iff.mp hrun'
  rw [hs, Option.map_some] at hloops
  rw [hs', Option.map_some] at hloops'
  simp only [Prod.mk.injEq, Option.some.injEq] at hcall hcall' hloops hloops'
  obtain ⟨hcount, hleft, hattempt⟩ := hcall
  obtain ⟨hread, hwrite, hqueue⟩ := hloops
  obtain ⟨hcount', hleft', hattempt'⟩ := hcall'
  obtain ⟨hread', hempty⟩ := hloops'
  have hpc := Pc.eq_wait hleft hattempt
  have hpc' := Pc.eq_wait hleft' hattempt'
  have hr : handler.Reach WellBehaved s :=
    Machine.Reach.run (.init ⟨_, rfl⟩) (by simp [WellBehaved, queuedRun]) hs
  have hr' : handler.Reach WellBehaved s' :=
    Machine.Reach.run (.init ⟨_, rfl⟩) (by simp [WellBehaved, queuedRun]) hs'
  have hlive : ¬ Lost s 0 := by
    intro hlost
    cases hlost with
    | sending pc =>
      rw [hpc] at pc
      cases pc
    | waiting pc _ ended =>
      rw [hpc] at pc
      cases pc
      exact ended hread (.inr ⟨hwrite, by rw [hqueue]; exact List.mem_cons_self⟩)
  have hlost : Lost s' 0 := by
    refine .waiting hpc' hempty fun h => ?_
    rw [hread'] at h
    cases h
  refine ⟨s, s', hs, hs', ?_, ?_⟩
  · obtain ⟨as, t, hpath, -, hone, r, ht⟩ := (ends_of_reach hr (by rw [hcount]; decide)
      (by rw [hcount]; decide) (by rw [hpc]; simp)).1 hlive
    exact ⟨as, t, r, hpath, hone, ht⟩
  · exact (ends_of_reach hr' (by rw [hcount']; decide) (by rw [hcount']; decide)
      (by rw [hpc']; simp)).2 hlost

end RzProxy
