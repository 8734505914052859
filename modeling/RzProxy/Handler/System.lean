import RzProxy.Error
import RzProxy.Library.Flow
import RzProxy.Library.Machine
import RzProxy.Handler.Connection
import Mathlib.Logic.Function.Basic

/-!
# The handler as a system of concurrent parties

Any number of calls of `Handler::execute`, the pool of connections and the task that refills it, the
tasks of every connection, and a backend that sends what it likes. One step takes one party from one
`await` to the next, so every interleaving of the parties is a run.

Two stretches of the source that contain more than one access to shared data are one step. The scan
of `next_connection` is: it holds the cursor's mutex and the pool's read lock, and `closed` is never
cleared, so a scan sees what it would see at its end. So is the lookup of a sender with the send
that follows it: nothing can be done to the channel in between but to drop its receiver.

## Main definitions

* `State`, `Action`: the state of the system, and who moves
* `nextConnection`: the round robin over the pool
* `State.exec`: the next step of a call of `Handler::execute`
* `handler`: the machine
-/

namespace RzProxy

open ByteString Streaming Machines Evaluation

inductive Mode
  | standalone
  | router
  deriving DecidableEq

/-- The settings that the handler reads. -/
structure Config where
  mode : Mode
  roomzinAddr : String
  connPerNode : ℕ
  maxActiveConns : ℕ

/-- A oneshot channel: the sender is there, it has sent, or it was dropped. -/
inductive Oneshot
  | empty
  | sent (b : Bytes)
  | closed
  deriving DecidableEq

/-- A oneshot channel, with the attempt that made it as history: the call, the connection, the id
that was drawn and its place among the ids of the connection, and when the sender was stored. -/
structure Chan where
  oneshot : Oneshot
  call : CallId
  conn : ConnId
  corrId : UInt32
  draw : ℕ
  storedAt : Option ℕ

/-- Where a call of `Handler::execute` is. -/
inductive Pc
  /-- at `next_connection().await` -/
  | pick
  /-- at the guard `!c.is_closed()` -/
  | check (c : ConnId)
  /-- at the making of the channel and the drawing of the id -/
  | draw (c : ConnId)
  /-- at `demux.store(corr_id, resp_tx).await` -/
  | store (c : ConnId) (corrId : UInt32) (x : ChanId)
  /-- at `send_frame(frame).await` -/
  | send (c : ConnId) (corrId : UInt32) (x : ChanId)
  /-- at `resp_rx.await` -/
  | wait (c : ConnId) (corrId : UInt32) (x : ChanId)
  /-- at `sleep(..).await`, with the connection that is still in scope -/
  | sleep (held : Option ConnId)
  | finished (result : Except RZError Bytes)
  /-- the future was dropped at an `await` -/
  | dropped
  deriving DecidableEq

/-- The attempt in whose course the call is: the connection, the id and the channel. -/
def Pc.attempt : Pc → Option (ConnId × UInt32 × ChanId)
  | .store c corrId x | .send c corrId x | .wait c corrId x => some (c, corrId, x)
  | _ => none

/-- The channel whose sender the call has stored. -/
def Pc.stored : Pc → Option ChanId
  | .send _ _ x | .wait _ _ x => some x
  | _ => none

/-- The connection that the call holds. -/
def Pc.holds : Pc → Option ConnId
  | .check c | .draw c | .store c _ _ | .send c _ _ | .wait c _ _ => some c
  | .sleep held => held
  | _ => none

/-- A call of `Handler::execute`. -/
structure Call where
  segment : String
  isWrite : Bool
  payload : Bytes
  attempts : ℕ
  pc : Pc
  /-- History: the channel of the last attempt. -/
  last : Option ChanId
  /-- History: the frames that were put in a send queue. -/
  queued : List (ConnId × Bytes)

/-- The state of the system. Calls, channels and connections are counted as they are made; those not
made yet are in their initial state. -/
structure State where
  cfg : Config
  calls : CallId → Call
  callCount : ℕ
  chans : ChanId → Chan
  chanCount : ℕ
  conns : ConnId → Connection
  connCount : ℕ
  slots : List (Option ConnId)
  nextConn : ℕ
  /-- The slot at which `reconnect_closed` is, which holds the pool's write lock. -/
  reconnecting : Option ℕ
  backendConnections : ℤ
  backendTimeouts : ℕ
  /-- History: how many steps were taken. -/
  clock : ℕ

namespace State

def setCall (s : State) (k : CallId) (f : Call → Call) : State :=
  { s with calls := Function.update s.calls k (f (s.calls k)) }

def setPc (s : State) (k : CallId) (pc : Pc) : State :=
  s.setCall k fun call => { call with pc := pc }

def setChan (s : State) (x : ChanId) (f : Chan → Chan) : State :=
  { s with chans := Function.update s.chans x (f (s.chans x)) }

def setConn (s : State) (c : ConnId) (k : Connection) : State :=
  { s with conns := Function.update s.conns c k }

/-- A step of one connection. -/
def onConn (s : State) (c : ConnId) (f : Connection → Option Connection) : Option State :=
  if c < s.connCount then (f (s.conns c)).map (s.setConn c) else none

end State

/-! ## The pool -/

/-- The scan of `next_connection`: `n` slots from the cursor, which moves on with each. -/
def scanSlots (isClosed : ConnId → Bool) (slots : List (Option ConnId)) :
    ℕ → ℕ → Exec (Option ConnId × ℕ)
  | 0, idx => .ok (none, idx)
  | n + 1, idx =>
    match slots[idx]? with
    | none => .error .index
    | some slot =>
      let idx := (idx + 1) % slots.length
      match slot with
      | some c => if isClosed c then scanSlots isClosed slots n idx else .ok (some c, idx)
      | none => scanSlots isClosed slots n idx

/-- `Handler::next_connection`: an open connection, and the cursor after it. -/
def nextConnection (isClosed : ConnId → Bool) (slots : List (Option ConnId)) (idx : ℕ) :
    Exec (Option ConnId × ℕ) :=
  scanSlots isClosed slots slots.length idx

namespace State

def isClosed (s : State) (c : ConnId) : Bool := (s.conns c).closed

/-- `Connection::connect` for the slot `i`. -/
def connect (s : State) (i : ℕ) : State :=
  { s with slots := s.slots.set i (some s.connCount)
           connCount := s.connCount + 1
           backendConnections := s.backendConnections + 1 }

/-- The next step of `reconnect_closed`: it takes the write lock, looks at each slot in turn, and
lets the lock go. `connected` is the outcome of connecting, where the slot calls for it. -/
def reconnectClosed (s : State) (connected : Bool) : State :=
  match s.reconnecting with
  | none => { s with reconnecting := some 0 }
  | some i =>
    match s.slots[i]? with
    | none => { s with reconnecting := none }
    | some slot =>
      let shouldConnect := match slot with
        | some c => s.isClosed c
        | none => true
      let s := { s with reconnecting := some (i + 1) }
      if shouldConnect && connected then s.connect i else s

/-! ## Calls of `Handler::execute` -/

/-- The frame of a request, which depends on the mode. -/
def buildFrame (s : State) (call : Call) (corrId : UInt32) : Bytes :=
  match s.cfg.mode with
  | .standalone => prependHeader corrId call.payload
  | .router => prependRouterHeader call.segment call.isWrite corrId call.payload

/-- A new call of `Handler::execute`. -/
def newCall (s : State) (segment : String) (isWrite : Bool) (payload : Bytes) : State :=
  let pc := if payload = [] then .finished (.error (.validation "empty payload")) else .pick
  { s with
    calls := Function.update s.calls s.callCount
      { segment, isWrite, payload, attempts := 0, pc, last := none, queued := [] }
    callCount := s.callCount + 1 }

/-- A failed attempt: the third ends the call, the others sleep and go on. -/
def retry (s : State) (k : CallId) (held : Option ConnId) (error : RZError) : State :=
  let attempts := (s.calls k).attempts + 1
  s.setCall k fun call =>
    { call with attempts := attempts
                pc := if 3 ≤ attempts then .finished (.error error) else .sleep held }

/-- The channel of an attempt, and the id drawn for it. -/
def drawCorrId (s : State) (k : CallId) (c : ConnId) : State :=
  let (corrId, conn) := (s.conns c).nextCorrId
  let x := s.chanCount
  let chan : Chan := { oneshot := .empty, call := k, conn := c, corrId := corrId,
                       draw := (s.conns c).drawn, storedAt := none }
  { s with chans := Function.update s.chans x chan
           chanCount := x + 1
           conns := Function.update s.conns c conn
           calls := Function.update s.calls k
             { s.calls k with pc := .store c corrId x, last := some x } }

/-- A sender that is dropped. -/
def closeChan (s : State) (x : ChanId) : State :=
  s.setChan x fun chan => { chan with oneshot := .closed }

/-- `DemuxMap::store`, which drops the sender that was stored under the id before. -/
def store (s : State) (c : ConnId) (corrId : UInt32) (x : ChanId) : State :=
  let chans := match (s.conns c).demux corrId with
    | some old => Function.update s.chans old { s.chans old with oneshot := .closed }
    | none => s.chans
  { s with chans := Function.update chans x { chans x with storedAt := some s.clock }
           conns := Function.update s.conns c ((s.conns c).register corrId x) }

/-- `Connection::send_frame`, which waits for a place in the queue and fails once the queue is
gone. -/
def sendFrame (s : State) (k : CallId) (c : ConnId) (corrId : UInt32) (x : ChanId) :
    Option State :=
  let conn := s.conns c
  if conn.queueOpen then
    let frame := s.buildFrame (s.calls k) corrId
    (conn.push s.cfg.maxActiveConns (.request x corrId frame)).map fun conn =>
      (s.setConn c conn).setCall k fun call => { call with queued := call.queued ++ [(c, frame)] }
  else some (s.setConn c conn.refuse)

/-- The next step of a call. -/
def exec (s : State) (k : CallId) : Option State :=
  let unreachable : RZError := .roomzinUnreachable s.cfg.roomzinAddr
  match (s.calls k).pc with
  | .pick =>
    -- the read lock waits while the task that refills the pool holds the write lock
    if s.reconnecting.isSome then none
    else
      match nextConnection s.isClosed s.slots s.nextConn with
      | .error _ => none
      | .ok (some c, idx) => some ({ s with nextConn := idx }.setPc k (.check c))
      | .ok (none, idx) => some ({ s with nextConn := idx }.retry k none unreachable)
  | .check c => some (if s.isClosed c then s.retry k (some c) unreachable else s.setPc k (.draw c))
  | .draw c => some (s.drawCorrId k c)
  | .store c corrId x => some ((s.store c corrId x).setPc k (.send c corrId x))
  | .send c corrId x => (s.sendFrame k c corrId x).map fun s => s.setPc k (.wait c corrId x)
  | .wait c _ x =>
    match (s.chans x).oneshot with
    | .empty => none
    | .sent b => some (s.setPc k (.finished (.ok b)))
    | .closed =>
      let timedOut := 3 ≤ (s.calls k).attempts + 1
      some ({ s with backendTimeouts := s.backendTimeouts + if timedOut then 1 else 0 }.retry k
        (some c) .timeout)
  | .sleep _ => some (s.setPc k .pick)
  | .finished _ | .dropped => none

/-- The future of a call is dropped, which it can be at an `await`. -/
def cancel (s : State) (k : CallId) : Option State :=
  match (s.calls k).pc with
  | .pick | .send _ _ _ | .wait _ _ _ | .sleep _ => some (s.setPc k .dropped)
  -- the future of `store` holds the sender
  | .store _ _ x => some ((s.closeChan x).setPc k .dropped)
  -- no `await` stands between the guard and the drawing of the id
  | .check _ | .draw _ | .finished _ | .dropped => none

/-! ## The read loop's lookup -/

/-- `DemuxMap::load_remove` for the frame in hand, and the send that follows. A receiver that is
gone leaves the value unread. -/
def dispatch (s : State) (c : ConnId) (header : Header) (payload : Bytes) : State :=
  match (s.conns c).demux header.clrId with
  | none => s.setConn c (s.conns c).unknownId
  | some x =>
    (s.setChan x fun chan => { chan with oneshot := .sent payload }).setConn c
      ((s.conns c).take header payload x s.clock)

/-- The next step of a read task. -/
def readTask (s : State) (c : ConnId) : Option State :=
  if c < s.connCount then
    match (s.conns c).readTask, (s.conns c).inHand with
    | .running, some (header, payload) => some (s.dispatch c header payload)
    | _, _ => s.onConn c Connection.read
  else none

/-! ## Dropping connections -/

/-- Somebody holds the `ConnectionInner`: a slot, a task or a call. -/
def held (s : State) (c : ConnId) : Bool :=
  s.slots.contains (some c) || (s.conns c).heldByTask ||
    (List.range s.callCount).any fun k => (s.calls k).pc.holds = some c

/-- The connections whose last holder let go. -/
def reaped (s : State) (c : ConnId) : Bool :=
  c < s.connCount && !(s.conns c).dropped && !s.held c

/-- The last holder of a `ConnectionInner` drops it, and with it the senders stored in its map. -/
def reap (s : State) : State :=
  { s with
    conns := fun c => if s.reaped c then (s.conns c).drop else s.conns c
    chans := fun x =>
      if s.reaped (s.chans x).conn ∧
          (s.conns (s.chans x).conn).demux (s.chans x).corrId = some x then
        { s.chans x with oneshot := .closed }
      else s.chans x
    backendConnections :=
      s.backendConnections - ((List.range s.connCount).filter s.reaped).length }

end State

/-! ## The machine -/

/-- Who moves: a client that begins a call, a call, a client that goes away, the task that refills
the pool, the backend, or one of the tasks of a connection. -/
inductive Action
  | call (segment : String) (isWrite : Bool) (payload : Bytes)
  | exec (k : CallId)
  | cancel (k : CallId)
  | reconnect (connected : Bool)
  | close (c : ConnId)
  | deliver (c : ConnId) (bytes : Bytes)
  | recv (c : ConnId) (n : ℕ)
  | readError (c : ConnId)
  | read (c : ConnId)
  | write (c : ConnId)
  | writeError (c : ConnId) (whole : Bool)
  | keepalive (c : ConnId)
  deriving DecidableEq

namespace State

/-- What a party does in one step. -/
def act (s : State) : Action → Option State
  | .call segment isWrite payload => some (s.newCall segment isWrite payload)
  | .exec k => if k < s.callCount then s.exec k else none
  | .cancel k => if k < s.callCount then s.cancel k else none
  | .reconnect connected => some (s.reconnectClosed connected)
  | .close c => s.onConn c fun k => some k.close
  | .deliver c bytes => s.onConn c fun k => some (k.deliver bytes)
  | .recv c n => s.onConn c (Connection.recv n)
  | .readError c => s.onConn c Connection.readError
  | .read c => s.readTask c
  | .write c => s.onConn c Connection.write
  | .writeError c whole => s.onConn c (Connection.writeError whole)
  | .keepalive c => s.onConn c (Connection.keepaliveTick s.cfg.maxActiveConns)

def tick (s : State) : State := { s with clock := s.clock + 1 }

/-- One step of the system. -/
def step (s : State) (a : Action) : Option State := (s.act a).map fun s => s.tick.reap

/-- `Handler::new`: a pool of empty slots. -/
def initial (cfg : Config) : State where
  cfg := cfg
  calls := fun _ =>
    { segment := "", isWrite := false, payload := [], attempts := 0, pc := .dropped, last := none,
      queued := [] }
  callCount := 0
  chans := fun _ =>
    { oneshot := .empty, call := 0, conn := 0, corrId := 0, draw := 0, storedAt := none }
  chanCount := 0
  conns := fun _ => .fresh
  connCount := 0
  slots := List.replicate cfg.connPerNode none
  nextConn := 0
  reconnecting := none
  backendConnections := 0
  backendTimeouts := 0
  clock := 0

end State

/-- The handler. -/
def handler : Machine State Action where
  init s := ∃ cfg, s = State.initial cfg
  step := State.step

end RzProxy
