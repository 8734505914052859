import RzProxy.Handler.System

/-!
# What a step can change

The steps of the handler, sorted by what they do to calls, channels and connections. Every invariant
of the system is proved from this list and from what `reap` does.

## Main definitions

* `Connection.Local`: the steps of a connection that touch no channel
* `Change`: what a party can do in one step

## Main results

* `apply_update_eq`, `of_update`: what an update at one place keeps everywhere
* `change_of_act`: a step of a party is one of these
* `Change.conns`, `Change.calls`: what such a step does to a connection, and to a call
* `step_cases`: a step of the system is one of these, then a tick of the clock, then `reap`
-/

namespace RzProxy

open ByteString Streaming

/-! ## Updates at one place -/

section Update

variable {ι β γ : Type} [DecidableEq ι] {f : ι → β} {i : ι} {b : β}

/-- What the new value does not change is the same everywhere. -/
theorem apply_update_eq (g : β → γ) (h : g b = g (f i)) (j : ι) :
    g (Function.update f i b j) = g (f j) := by
  by_cases hj : j = i
  · rw [hj, Function.update_self]
    exact h
  · rw [Function.update_of_ne hj]

/-- What holds after an update held before, or holds of the new value. -/
theorem of_update_or {P : β → Prop} {j : ι} (h : P (Function.update f i b j)) :
    P (f j) ∨ j = i ∧ P b := by
  by_cases hj : j = i
  · rw [hj, Function.update_self] at h
    exact .inr ⟨hj, h⟩
  · rw [Function.update_of_ne hj] at h
    exact .inl h

/-- What holds of the new value only if it held before, held before everywhere. -/
theorem of_update {P : β → Prop} (himp : P b → P (f i)) {j : ι} (h : P (Function.update f i b j)) :
    P (f j) := by
  rcases of_update_or h with hold | ⟨rfl, hnew⟩
  · exact hold
  · exact himp hnew

/-- A value is the old one, or the new one at its place. -/
theorem update_eq_or {P : ι → β → Prop} (h : P i b) (j : ι) :
    Function.update f i b j = f j ∨ P j (Function.update f i b j) := by
  by_cases hj : j = i
  · subst hj
    rw [Function.update_self]
    exact .inr h
  · exact .inl (Function.update_of_ne hj _ _)

end Update

/-! ## Steps -/

/-- The steps of a connection that touch no channel. -/
inductive Connection.Local (m : ℕ) (c : ConnId) (k : Connection) : Action → Connection → Prop
  | close : Local m c k (.close c) k.close
  | deliver (bytes : Bytes) : Local m c k (.deliver c bytes) (k.deliver bytes)
  | recv {n : ℕ} (wants : k.wantsRead) (pos : 0 < n) (le : n ≤ k.inbound.length) :
      Local m c k (.recv c n)
        { k with buf := k.buf ++ k.inbound.take n, inbound := k.inbound.drop n }
  | readError (wants : k.wantsRead) :
      Local m c k (.readError c) { k with readTask := .closing, exit := some .stream }
  | malformed {e : ProtocolError} (task : k.readTask = .running)
      (hand : k.inHand = none) (look : frameSplitter.look k.buf = .fail e) :
      Local m c k (.read c) { k with readTask := .closing, exit := some .malformed }
  | drain {frame : Header × Bytes} {rest : Bytes} (task : k.readTask = .running)
      (hand : k.inHand = none) (look : frameSplitter.look k.buf = .item frame rest) :
      Local m c k (.read c) { k with buf := rest, inHand := some frame }
  | unknownId {header : Header} {payload : Bytes} (task : k.readTask = .running)
      (hand : k.inHand = some (header, payload)) (unknown : k.demux header.clrId = none) :
      Local m c k (.read c) k.unknownId
  | readClosed (task : k.readTask = .closing) :
      Local m c k (.read c) { k with closed := true, readTask := .leaving }
  | readDone (task : k.readTask = .leaving) :
      Local m c k (.read c) { k with readTask := .done }
  | write {frame : QueuedFrame} {queue : List QueuedFrame}
      (task : k.writeTask = .running) (next : k.queue = frame :: queue) :
      Local m c k (.write c) { k with queue := queue, written := k.written ++ [frame] }
  | writeClosed (task : k.writeTask = .closing) :
      Local m c k (.write c) { k with closed := true, writeTask := .leaving }
  | writeDone (task : k.writeTask = .leaving) :
      Local m c k (.write c) { k with queueOpen := false, queue := [], writeTask := .done }
  | writeError {whole : Bool} {frame : QueuedFrame} {queue : List QueuedFrame}
      (task : k.writeTask = .running) (next : k.queue = frame :: queue) :
      Local m c k (.writeError c whole)
        { k with queue := queue, writeTask := .closing,
                 written := if whole then k.written ++ [frame] else k.written }
  | keepaliveStop (task : k.keepalive ≠ .done) :
      Local m c k (.keepalive c) { k with keepalive := .done }
  | keepaliveTick (task : k.keepalive = .ticking) :
      Local m c k (.keepalive c) { k with keepalive := .sending }
  | keepaliveSend (task : k.keepalive = .sending) (isOpen : k.queueOpen = true) :
      Local m c k (.keepalive c)
        { k with queue := k.queue ++ [.keepalive], keepalive := .ticking }

/-- A call that is between two attempts. -/
def Pc.Between : Pc → Prop
  | .pick | .check _ | .draw _ | .sleep _ => True
  | _ => False

theorem Pc.Between.attempt_eq_none {pc : Pc} (h : pc.Between) : pc.attempt = none := by
  cases pc <;> first | rfl | cases h

/-- What a party can do in one step. -/
inductive Change (s : State) : Action → State → Prop
  | newCall (segment : String) (isWrite : Bool) (payload : Bytes) :
      Change s (.call segment isWrite payload) (s.newCall segment isWrite payload)
  /-- A call goes on between two attempts, or gives up. -/
  | move {k : CallId} (attempts nextConn : ℕ) {pc : Pc} (hk : k < s.callCount)
      (before : (s.calls k).pc.Between)
      (after : pc.Between ∨ ∃ e, pc = .finished (.error e))
      (holds : ∀ c, pc.holds = some c → (s.calls k).pc.holds = some c ∨ some c ∈ s.slots) :
      Change s (.exec k)
        ({ s with nextConn := nextConn }.setCall k fun call =>
          { call with attempts := attempts, pc := pc })
  | draw {k : CallId} {c : ConnId} (hk : k < s.callCount) (pc : (s.calls k).pc = .draw c) :
      Change s (.exec k) (s.drawCorrId k c)
  | store {k : CallId} {c : ConnId} {corrId : UInt32} {x : ChanId} (hk : k < s.callCount)
      (pc : (s.calls k).pc = .store c corrId x) :
      Change s (.exec k) ((s.store c corrId x).setPc k (.send c corrId x))
  | queue {k : CallId} {c : ConnId} {corrId : UInt32} {x : ChanId} {conn : Connection}
      (hk : k < s.callCount) (pc : (s.calls k).pc = .send c corrId x)
      (isOpen : (s.conns c).queueOpen = true)
      (push : (s.conns c).push s.cfg.maxActiveConns
        (.request x corrId (s.buildFrame (s.calls k) corrId)) = some conn) :
      Change s (.exec k)
        ((s.setConn c conn).setCall k fun call =>
          { call with queued := call.queued ++ [(c, s.buildFrame (s.calls k) corrId)]
                      pc := .wait c corrId x })
  | sendFailed {k : CallId} {c : ConnId} {corrId : UInt32} {x : ChanId} (hk : k < s.callCount)
      (pc : (s.calls k).pc = .send c corrId x) (gone : (s.conns c).queueOpen = false) :
      Change s (.exec k)
        ((s.setConn c (s.conns c).refuse).setPc k (.wait c corrId x))
  | answered {k : CallId} {c : ConnId} {corrId : UInt32} {x : ChanId} {b : Bytes}
      (hk : k < s.callCount) (pc : (s.calls k).pc = .wait c corrId x)
      (sent : (s.chans x).oneshot = .sent b) :
      Change s (.exec k) (s.setPc k (.finished (.ok b)))
  /-- The sender that a call waits for was dropped. -/
  | unanswered {k : CallId} {c : ConnId} {corrId : UInt32} {x : ChanId} {timeouts attempts : ℕ}
      {pc' : Pc} (hk : k < s.callCount) (pc : (s.calls k).pc = .wait c corrId x)
      (closed : (s.chans x).oneshot = .closed)
      (after : pc' = .sleep (some c) ∨ pc' = .finished (.error .timeout)) :
      Change s (.exec k)
        ({ s with backendTimeouts := timeouts }.setCall k fun call =>
          { call with attempts := attempts, pc := pc' })
  | cancel {k : CallId} (hk : k < s.callCount)
      (pc : (s.calls k).pc.attempt = none ∧ (s.calls k).pc.Between ∨
        ∃ c corrId x, (s.calls k).pc = .send c corrId x ∨ (s.calls k).pc = .wait c corrId x) :
      Change s (.cancel k) (s.setPc k .dropped)
  | cancelStore {k : CallId} {c : ConnId} {corrId : UInt32} {x : ChanId} (hk : k < s.callCount)
      (pc : (s.calls k).pc = .store c corrId x) :
      Change s (.cancel k) ((s.closeChan x).setPc k .dropped)
  /-- The pool: the lock and, in the second case, a new connection. -/
  | lock (connected : Bool) (reconnecting : Option ℕ) :
      Change s (.reconnect connected) { s with reconnecting := reconnecting }
  | connect (connected : Bool) (i : ℕ) (reconnecting : Option ℕ) :
      Change s (.reconnect connected) ({ s with reconnecting := reconnecting }.connect i)
  | conn {a : Action} {c : ConnId} {k' : Connection} (hc : c < s.connCount)
      (h : (s.conns c).Local s.cfg.maxActiveConns c a k') : Change s a (s.setConn c k')
  | take {c : ConnId} {header : Header} {payload : Bytes} {x : ChanId} (hc : c < s.connCount)
      (task : (s.conns c).readTask = .running) (hand : (s.conns c).inHand = some (header, payload))
      (stored : (s.conns c).demux header.clrId = some x) :
      Change s (.read c)
        ((s.setChan x fun chan => { chan with oneshot := .sent payload }).setConn c
          ((s.conns c).take header payload x s.clock))

/-- A step in which a connection takes part. -/
inductive Connection.Moves (m : ℕ) (c : ConnId) (k : Connection) (a : Action) : Connection → Prop
  | alone {k' : Connection} (h : k.Local m c a k') : Moves m c k a k'
  | draw : Moves m c k a k.nextCorrId.2
  | register (corrId : UInt32) (x : ChanId) : Moves m c k a (k.register corrId x)
  | push {frame : QueuedFrame} {k' : Connection} (h : k.push m frame = some k') : Moves m c k a k'
  | refuse : Moves m c k a k.refuse
  | take {header : Header} {payload : Bytes} (x : ChanId) (time : ℕ) (task : k.readTask = .running)
      (hand : k.inHand = some (header, payload)) : Moves m c k a (k.take header payload x time)

/-! ## The call and the connection of a step -/

theorem calls_setCall (s : State) (k : CallId) (f : Call → Call) :
    (s.setCall k f).calls k = f (s.calls k) :=
  Function.update_self ..

theorem pc_setPc (s : State) (k : CallId) (pc : Pc) : ((s.setPc k pc).calls k).pc = pc := by
  rw [State.setPc, calls_setCall]

theorem chans_closeChan (s : State) (x y : ChanId) : (s.closeChan x).chans y =
    if y = x then { s.chans x with oneshot := .closed } else s.chans y :=
  Function.update_apply ..

section Draw

variable (s : State) (k : CallId) (c : ConnId)

theorem calls_drawCorrId : (s.drawCorrId k c).calls k =
    { s.calls k with pc := .store c (s.conns c).corrId s.chanCount, last := some s.chanCount } :=
  Function.update_self ..

theorem pc_drawCorrId :
    ((s.drawCorrId k c).calls k).pc = .store c (s.conns c).corrId s.chanCount := by
  rw [calls_drawCorrId]

theorem calls_drawCorrId_of_ne {j : CallId} (hj : j ≠ k) :
    (s.drawCorrId k c).calls j = s.calls j :=
  Function.update_of_ne hj _ _

/-- The channel that is made next is new. -/
theorem chans_drawCorrId : (s.drawCorrId k c).chans s.chanCount =
    { oneshot := .empty, call := k, conn := c, corrId := (s.conns c).corrId,
      draw := (s.conns c).drawn, storedAt := none } :=
  Function.update_self ..

theorem chans_drawCorrId_of_lt {x : ChanId} (hx : x < s.chanCount) :
    (s.drawCorrId k c).chans x = s.chans x :=
  Function.update_of_ne (Nat.ne_of_lt hx) _ _

theorem conns_drawCorrId : (s.drawCorrId k c).conns c = (s.conns c).nextCorrId.2 :=
  Function.update_self ..

theorem conns_drawCorrId_of_ne {d : ConnId} (hd : d ≠ c) :
    (s.drawCorrId k c).conns d = s.conns d :=
  Function.update_of_ne hd _ _

/-- A draw changes nothing of a connection but its counter. -/
theorem demux_drawCorrId (d : ConnId) :
    ((s.drawCorrId k c).conns d).demux = (s.conns d).demux :=
  apply_update_eq (f := s.conns) (b := (s.conns c).nextCorrId.2) Connection.demux rfl d

theorem drawn_drawCorrId (d : ConnId) :
    ((s.drawCorrId k c).conns d).drawn = (s.conns d).drawn + if d = c then 1 else 0 := by
  by_cases hd : d = c
  · rw [if_pos hd, hd, conns_drawCorrId]
    rfl
  · rw [if_neg hd, conns_drawCorrId_of_ne s k c hd, Nat.add_zero]

end Draw

/-! ## What a step does to connections and calls -/

/-- What a step of a party does to a connection. -/
theorem Change.conns {s s' : State} {a : Action} (h : Change s a s') (d : ConnId) :
    s'.conns d = s.conns d ∨ (s.conns d).Moves s.cfg.maxActiveConns d a (s'.conns d) := by
  have hupd {c : ConnId} {k : Connection} (hk : (s.conns c).Moves s.cfg.maxActiveConns c a k) :=
    update_eq_or (P := fun d => (s.conns d).Moves s.cfg.maxActiveConns d a) (f := s.conns) hk d
  cases h with
  | newCall | move | answered | unanswered | cancel | cancelStore | lock | connect => exact .inl rfl
  | draw => exact hupd .draw
  | store => exact hupd (.register _ _)
  | queue hk pc isOpen push => exact hupd (.push push)
  | sendFailed => exact hupd .refuse
  | conn hc hl => exact hupd (.alone hl)
  | take hc task hand stored => exact hupd (.take _ _ task hand)

/-- A step in which a call takes part. -/
inductive Call.Moves (s : State) (k : CallId) (call : Call) : Action → Call → Prop
  | new (segment : String) (isWrite : Bool) (payload : Bytes) (hk : k = s.callCount) :
      Moves s k call (.call segment isWrite payload)
        { segment, isWrite, payload, attempts := 0, last := none, queued := [],
          pc := if payload = [] then .finished (.error (.validation "empty payload")) else .pick }
  | between (attempts : ℕ) {pc : Pc} (hk : k < s.callCount) (before : call.pc.Between)
      (after : pc.Between ∨ ∃ e, pc = .finished (.error e))
      (holds : ∀ c, pc.holds = some c → call.pc.holds = some c ∨ some c ∈ s.slots) :
      Moves s k call (.exec k) { call with attempts, pc }
  | draw {c : ConnId} (pc : call.pc = .draw c) :
      Moves s k call (.exec k)
        { call with pc := .store c (s.conns c).corrId s.chanCount, last := some s.chanCount }
  | store {c : ConnId} {corrId : UInt32} {x : ChanId} (pc : call.pc = .store c corrId x) :
      Moves s k call (.exec k) { call with pc := .send c corrId x }
  /-- With the frame in the queue, or with a send that failed. -/
  | wait {c : ConnId} {corrId : UInt32} {x : ChanId} (pc : call.pc = .send c corrId x)
      {queued : List (ConnId × Bytes)}
      (after : (s.conns c).queueOpen = true ∧
          queued = call.queued ++ [(c, s.buildFrame call corrId)] ∨
        (s.conns c).queueOpen = false ∧ queued = call.queued) :
      Moves s k call (.exec k) { call with queued, pc := .wait c corrId x }
  | answered {c : ConnId} {corrId : UInt32} {x : ChanId} {b : Bytes}
      (pc : call.pc = .wait c corrId x) (sent : (s.chans x).oneshot = .sent b) :
      Moves s k call (.exec k) { call with pc := .finished (.ok b) }
  | unanswered (attempts : ℕ) {c : ConnId} {corrId : UInt32} {x : ChanId} {pc' : Pc}
      (pc : call.pc = .wait c corrId x) (closed : (s.chans x).oneshot = .closed)
      (after : pc' = .sleep (some c) ∨ pc' = .finished (.error .timeout)) :
      Moves s k call (.exec k) { call with attempts, pc := pc' }
  | cancel : Moves s k call (.cancel k) { call with pc := .dropped }

/-- What a step of a party does to a call. -/
theorem Change.calls {s s' : State} {a : Action} (h : Change s a s') (j : CallId) :
    s'.calls j = s.calls j ∨ (s.calls j).Moves s j a (s'.calls j) := by
  have hupd {k : CallId} {call : Call} (hk : (s.calls k).Moves s k a call) :=
    update_eq_or (P := fun j => (s.calls j).Moves s j a) (f := s.calls) hk j
  cases h with
  | newCall => exact hupd (.new _ _ _ rfl)
  | move attempts _ hk before after holds => exact hupd (.between attempts hk before after holds)
  | draw _ pc => exact hupd (.draw pc)
  | store _ pc => exact hupd (.store pc)
  | queue _ pc isOpen => exact hupd (.wait pc (.inl ⟨isOpen, rfl⟩))
  | sendFailed _ pc gone => exact hupd (.wait pc (.inr ⟨gone, rfl⟩))
  | answered _ pc sent => exact hupd (.answered pc sent)
  | unanswered _ pc closed after => exact hupd (.unanswered _ pc closed after)
  | cancel => exact hupd .cancel
  | cancelStore => exact hupd .cancel
  | lock | connect | conn | take => exact .inl rfl

/-- A call is in an attempt that it has just begun, or in the one it was in, one `await` further. -/
theorem Call.Moves.attempt {s : State} {k : CallId} {call call' : Call} {a : Action}
    (h : call.Moves s k a call') {c : ConnId} {corrId : UInt32} {x : ChanId}
    (ha : call'.pc.attempt = some (c, corrId, x)) : a = .exec k ∧
      (call.pc = .draw c ∧ corrId = (s.conns c).corrId ∧ x = s.chanCount ∧
          call'.pc = .store c corrId x ∨
        call.pc = .store c corrId x ∧ call'.pc = .send c corrId x ∨
        call.pc = .send c corrId x ∧ call'.pc = .wait c corrId x) := by
  cases h with
  | new segment isWrite payload =>
    dsimp only at ha
    split_ifs at ha <;> cases ha
  | between attempts hk before after =>
    dsimp only at ha
    rcases after with after | ⟨e, rfl⟩
    · rw [after.attempt_eq_none] at ha
      cases ha
    · cases ha
  | draw pc =>
    obtain ⟨rfl, rfl, rfl⟩ := by simpa [Pc.attempt] using ha
    exact ⟨rfl, .inl ⟨pc, rfl, rfl, rfl⟩⟩
  | store pc =>
    obtain ⟨rfl, rfl, rfl⟩ := by simpa [Pc.attempt] using ha
    exact ⟨rfl, .inr (.inl ⟨pc, rfl⟩)⟩
  | wait pc =>
    obtain ⟨rfl, rfl, rfl⟩ := by simpa [Pc.attempt] using ha
    exact ⟨rfl, .inr (.inr ⟨pc, rfl⟩)⟩
  | answered => cases ha
  | unanswered attempts pc closed after => rcases after with rfl | rfl <;> cases ha
  | cancel => cases ha

section

variable {s s' : State} {a : Action} {k : CallId} {c : ConnId} {id : UInt32} {x : ChanId}

/-- A call comes to `store` by the drawing of an id. -/
theorem Change.storing (h : Change s a s') (hk : (s'.calls k).pc = .store c id x) :
    (s.calls k).pc = .store c id x ∨ a = .exec k ∧ (s.calls k).pc = .draw c ∧
      id = (s.conns c).corrId ∧ x = s.chanCount := by
  rcases h.calls k with he | hm
  · exact .inl (he ▸ hk)
  · obtain ⟨ha, ⟨hpc, hid, hx, -⟩ | ⟨-, hpc'⟩ | ⟨-, hpc'⟩⟩ := hm.attempt (by rw [hk]; rfl)
    · exact .inr ⟨ha, hpc, hid, hx⟩
    · rw [hk] at hpc'; cases hpc'
    · rw [hk] at hpc'; cases hpc'

/-- A call comes to `send` from `store`. -/
theorem Change.send (h : Change s a s') (hk : (s'.calls k).pc = .send c id x) :
    (s.calls k).pc = .send c id x ∨ (s.calls k).pc = .store c id x := by
  rcases h.calls k with he | hm
  · exact .inl (he ▸ hk)
  · obtain ⟨-, ⟨-, -, -, hpc'⟩ | ⟨hpc, -⟩ | ⟨-, hpc'⟩⟩ := hm.attempt (by rw [hk]; rfl)
    · rw [hk] at hpc'; cases hpc'
    · exact .inr hpc
    · rw [hk] at hpc'; cases hpc'

/-- A call comes to wait from its send. -/
theorem Change.wait (h : Change s a s') (hk : (s'.calls k).pc = .wait c id x) :
    (s.calls k).pc = .wait c id x ∨ a = .exec k ∧ (s.calls k).pc = .send c id x := by
  rcases h.calls k with he | hm
  · exact .inl (he ▸ hk)
  · obtain ⟨ha, ⟨-, -, -, hpc'⟩ | ⟨-, hpc'⟩ | ⟨hpc, -⟩⟩ := hm.attempt (by rw [hk]; rfl)
    · rw [hk] at hpc'; cases hpc'
    · rw [hk] at hpc'; cases hpc'
    · exact .inr ⟨ha, hpc⟩

end

theorem mem_slots_of_scanSlots {isClosed : ConnId → Bool} {slots : List (Option ConnId)}
    {n idx idx' : ℕ} {c : ConnId} (h : scanSlots isClosed slots n idx = .ok (some c, idx')) :
    some c ∈ slots := by
  induction n generalizing idx with
  | zero => simp [scanSlots] at h
  | succ n ih =>
    simp only [scanSlots] at h
    cases hs : slots[idx]? with
    | none => simp [hs] at h
    | some slot =>
      cases slot with
      | none => exact ih (by simpa [hs] using h)
      | some c' =>
        simp only [hs] at h
        split_ifs at h
        · exact ih h
        · simp only [Except.ok.injEq, Prod.mk.injEq, Option.some.injEq] at h
          exact h.1 ▸ List.mem_of_getElem? hs

/-- A failed attempt between two attempts. -/
theorem change_retry {s : State} (idx : ℕ) {k : CallId} {held : Option ConnId} {error : RZError}
    (hk : k < s.callCount) (before : (s.calls k).pc.Between)
    (hheld : ∀ c, held = some c → (s.calls k).pc.holds = some c) :
    Change s (.exec k) ({ s with nextConn := idx }.retry k held error) := by
  refine .move _ idx hk before ?_ ?_
  · split_ifs
    · exact .inr ⟨_, rfl⟩
    · exact .inl trivial
  · intro c hc
    split_ifs at hc
    · cases hc
    · exact .inl (hheld c hc)

/-- A call that picks a connection takes the one that the scan finds, or fails for want of one. -/
theorem exec_of_pick {s s' : State} {k : CallId} (hpc : (s.calls k).pc = .pick)
    (h : s.exec k = some s') : ∃ idx,
    nextConnection s.isClosed s.slots s.nextConn = .ok (none, idx) ∧
      s' = { s with nextConn := idx }.retry k none (.roomzinUnreachable s.cfg.roomzinAddr) ∨
    ∃ c, nextConnection s.isClosed s.slots s.nextConn = .ok (some c, idx) ∧
      s' = { s with nextConn := idx }.setPc k (.check c) := by
  simp only [State.exec, hpc] at h
  split_ifs at h
  cases hn : nextConnection s.isClosed s.slots s.nextConn with
  | error e => simp [hn] at h
  | ok r =>
    obtain ⟨found, idx⟩ := r
    cases found with
    | none => exact ⟨idx, .inl ⟨rfl, by simpa [hn] using h.symm⟩⟩
    | some c => exact ⟨idx, .inr ⟨c, rfl, by simpa [hn] using h.symm⟩⟩

theorem change_of_exec {s s' : State} {k : CallId} (hk : k < s.callCount)
    (h : s.exec k = some s') : Change s (.exec k) s' := by
  have hexec := h
  unfold State.exec at h
  cases hpc : (s.calls k).pc with
  | pick =>
    have hb : (s.calls k).pc.Between := by rw [hpc]; trivial
    obtain ⟨idx, ⟨-, rfl⟩ | ⟨c, hn, rfl⟩⟩ := exec_of_pick hpc hexec
    · exact change_retry idx hk hb (by simp)
    · refine .move (s.calls k).attempts idx hk hb (.inl trivial) fun c' hc => ?_
      obtain rfl : c = c' := by simpa [Pc.holds] using hc
      exact .inr (mem_slots_of_scanSlots hn)
  | check c =>
    have hb : (s.calls k).pc.Between := by rw [hpc]; trivial
    simp only [hpc] at h
    obtain rfl := Option.some.inj h
    split_ifs
    · exact change_retry s.nextConn hk hb (by simp [hpc, Pc.holds])
    · refine .move (s.calls k).attempts s.nextConn hk hb (.inl trivial) fun c' hc => .inl ?_
      simpa [hpc, Pc.holds] using hc
  | draw c =>
    obtain rfl := by simpa [hpc] using h
    exact .draw hk hpc
  | store c corrId x =>
    obtain rfl := by simpa [hpc] using h
    exact .store hk hpc
  | send c corrId x =>
    simp only [hpc, State.sendFrame] at h
    cases hq : (s.conns c).queueOpen with
    | false =>
      obtain rfl := by simpa [hq] using h
      exact .sendFailed hk hpc hq
    | true =>
      simp only [hq, if_true, Option.map_map, Option.map_eq_some_iff] at h
      obtain ⟨conn, hpush, rfl⟩ := h
      have hch := Change.queue hk hpc hq hpush
      simpa [State.setPc, State.setCall, State.setConn, Function.comp] using hch
  | wait c corrId x =>
    simp only [hpc] at h
    cases ho : (s.chans x).oneshot with
    | empty => simp [ho] at h
    | sent b =>
      obtain rfl := by simpa [ho] using h
      exact .answered hk hpc ho
    | closed =>
      simp only [ho, Option.some.injEq] at h
      subst h
      refine .unanswered hk hpc ho ?_
      split_ifs
      · exact .inr rfl
      · exact .inl rfl
  | sleep held =>
    obtain rfl := by simpa [hpc] using h
    exact .move (s.calls k).attempts s.nextConn hk (by rw [hpc]; trivial) (.inl trivial)
      (by simp [Pc.holds])
  | finished r => simp [hpc] at h
  | dropped => simp [hpc] at h

theorem change_of_cancel {s s' : State} {k : CallId} (hk : k < s.callCount)
    (h : s.cancel k = some s') : Change s (.cancel k) s' := by
  unfold State.cancel at h
  cases hpc : (s.calls k).pc with
  | pick | sleep held =>
    obtain rfl := by simpa [hpc] using h
    exact .cancel hk (.inl ⟨by rw [hpc]; rfl, by rw [hpc]; trivial⟩)
  | send c corrId x | wait c corrId x =>
    obtain rfl := by simpa [hpc] using h
    exact .cancel hk (.inr ⟨c, corrId, x, by simp [hpc]⟩)
  | store c corrId x =>
    obtain rfl := by simpa [hpc] using h
    exact .cancelStore hk hpc
  | check c | draw c | finished r | dropped => simp [hpc] at h

theorem Connection.push_eq {m : ℕ} {k k' : Connection} {frame : QueuedFrame}
    (h : k.push m frame = some k') : k' = { k with queue := k.queue ++ [frame] } := by
  unfold push at h
  split_ifs at h
  exact (Option.some.inj h).symm

theorem Connection.local_of_recv {m n : ℕ} {c : ConnId} {k k' : Connection}
    (h : k.recv n = some k') : k.Local m c (.recv c n) k' := by
  unfold recv at h
  split_ifs at h with hw
  obtain rfl := Option.some.inj h
  exact .recv hw.1 hw.2.1 hw.2.2

theorem Connection.local_of_readError {m : ℕ} {c : ConnId} {k k' : Connection}
    (h : k.readError = some k') : k.Local m c (.readError c) k' := by
  unfold readError at h
  split_ifs at h with hw
  obtain rfl := Option.some.inj h
  exact .readError hw

theorem Connection.local_of_read {m : ℕ} {c : ConnId} {k k' : Connection}
    (hand : k.readTask = .running → k.inHand = none) (h : k.read = some k') :
    k.Local m c (.read c) k' := by
  unfold read at h
  split at h
  next task =>
    split at h
    · cases h
    next look =>
      obtain rfl := Option.some.inj h
      exact .malformed task (hand task) look
    next look =>
      obtain rfl := Option.some.inj h
      exact .drain task (hand task) look
  next task =>
    obtain rfl := Option.some.inj h
    exact .readClosed task
  next task =>
    obtain rfl := Option.some.inj h
    exact .readDone task
  · cases h

theorem Connection.local_of_write {m : ℕ} {c : ConnId} {k k' : Connection}
    (h : k.write = some k') : k.Local m c (.write c) k' := by
  unfold write at h
  split at h
  next task =>
    split at h
    · cases h
    next next =>
      obtain rfl := Option.some.inj h
      exact .write task next
  next task =>
    obtain rfl := Option.some.inj h
    exact .writeClosed task
  next task =>
    obtain rfl := Option.some.inj h
    exact .writeDone task
  · cases h

theorem Connection.local_of_writeError {m : ℕ} {c : ConnId} {whole : Bool} {k k' : Connection}
    (h : k.writeError whole = some k') : k.Local m c (.writeError c whole) k' := by
  unfold writeError at h
  split at h
  next task next =>
    obtain rfl := Option.some.inj h
    exact .writeError task next
  · cases h

theorem Connection.local_of_keepaliveTick {m : ℕ} {c : ConnId} {k k' : Connection}
    (h : k.keepaliveTick m = some k') : k.Local m c (.keepalive c) k' := by
  unfold keepaliveTick at h
  split at h
  next task =>
    split_ifs at h <;> obtain rfl := Option.some.inj h
    · exact .keepaliveStop (by rw [task]; nofun)
    · exact .keepaliveTick task
  next task =>
    split_ifs at h with isOpen
    · obtain ⟨k₁, h₁, rfl⟩ := Option.map_eq_some_iff.mp h
      rw [push_eq h₁]
      exact .keepaliveSend task isOpen
    · obtain rfl := Option.some.inj h
      exact .keepaliveStop (by rw [task]; nofun)
  · cases h

theorem change_of_onConn {s s' : State} {c : ConnId} {a : Action}
    {f : Connection → Option Connection} (h : s.onConn c f = some s')
    (hf : ∀ k', f (s.conns c) = some k' → (s.conns c).Local s.cfg.maxActiveConns c a k') :
    Change s a s' := by
  unfold State.onConn at h
  split_ifs at h with hc
  obtain ⟨k', hk', rfl⟩ := Option.map_eq_some_iff.mp h
  exact .conn hc (hf k' hk')

theorem change_of_readTask {s s' : State} {c : ConnId} (h : s.readTask c = some s') :
    Change s (.read c) s' := by
  unfold State.readTask at h
  split_ifs at h with hc
  split at h
  next header payload task hand =>
    obtain rfl := Option.some.inj h
    unfold State.dispatch
    cases hd : (s.conns c).demux header.clrId with
    | none => exact .conn hc (.unknownId task hand hd)
    | some x => exact .take hc task hand hd
  next hne =>
    refine change_of_onConn h fun _ => Connection.local_of_read fun task => ?_
    by_contra hand
    obtain ⟨⟨header, payload⟩, hand⟩ := Option.ne_none_iff_exists'.mp hand
    exact hne header payload task hand

/-- **What a party can do** in one step. -/
theorem change_of_act {s s' : State} {a : Action} (h : s.act a = some s') : Change s a s' := by
  cases a with
  | call segment isWrite payload =>
    obtain rfl := Option.some.inj h
    exact .newCall segment isWrite payload
  | exec k =>
    simp only [State.act] at h
    split_ifs at h with hk
    exact change_of_exec hk h
  | cancel k =>
    simp only [State.act] at h
    split_ifs at h with hk
    exact change_of_cancel hk h
  | reconnect connected =>
    obtain rfl := Option.some.inj h
    unfold State.reconnectClosed
    split
    · exact .lock connected (some 0)
    · split
      · exact .lock connected none
      · dsimp only
        split_ifs
        · exact .connect connected _ _
        · exact .lock connected _
  | close c =>
    refine change_of_onConn (f := fun k => some k.close) h fun k' hk' => ?_
    obtain rfl := Option.some.inj hk'
    exact .close
  | deliver c bytes =>
    refine change_of_onConn (f := fun k => some (k.deliver bytes)) h fun k' hk' => ?_
    obtain rfl := Option.some.inj hk'
    exact .deliver bytes
  | recv c n => exact change_of_onConn h fun _ => Connection.local_of_recv
  | readError c => exact change_of_onConn h fun _ => Connection.local_of_readError
  | read c => exact change_of_readTask h
  | write c => exact change_of_onConn h fun _ => Connection.local_of_write
  | writeError c whole => exact change_of_onConn h fun _ => Connection.local_of_writeError
  | keepalive c => exact change_of_onConn h fun _ => Connection.local_of_keepaliveTick

/-- **A step of the system** is a change, a tick of the clock, and the dropping of what nobody
holds. -/
theorem step_cases {s s' : State} {a : Action} (h : s.step a = some s') :
    ∃ s₁, Change s a s₁ ∧ s' = s₁.tick.reap := by
  obtain ⟨s₁, h₁, rfl⟩ := Option.map_eq_some_iff.mp h
  exact ⟨s₁, change_of_act h₁, rfl⟩

theorem step_of_act {s s' : State} {a : Action} (h : s.act a = some s') :
    s.step a = some s'.tick.reap := by
  rw [State.step, h, Option.map_some]

theorem step_of_exec {s s' : State} {k : CallId} (hk : k < s.callCount) (h : s.exec k = some s') :
    s.step (.exec k) = some s'.tick.reap := by
  apply step_of_act
  rw [State.act, if_pos hk, h]

end RzProxy
