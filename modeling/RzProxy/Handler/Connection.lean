import RzProxy.Protocol.Framing

/-!
# One backend connection

A connection as its three tasks and the callers share it: the counter of correlation ids, the map of
waiting senders, the send queue, the `closed` flag, and the socket. Each task is a function that
takes the task's next step, from one `await` to the next; a step that has to wait is `none`.

Some fields are history: they record what happened and no step reads them.

## Main definitions

* `Connection`: the state of a connection
* `Connection.write`, `Connection.read`, `Connection.keepaliveTick`: the steps of its tasks
-/

namespace RzProxy

open ByteString Streaming

abbrev ConnId := ℕ

abbrev CallId := ℕ

/-- The name of a oneshot channel. -/
abbrev ChanId := ℕ

/-- A frame in the send queue. A request also says whose answer it asks for. -/
inductive QueuedFrame
  | request (chan : ChanId) (corrId : UInt32) (frame : Bytes)
  | keepalive
  deriving DecidableEq

def QueuedFrame.bytes : QueuedFrame → Bytes
  | .request _ _ frame => frame
  | .keepalive => buildKeepaliveFrame

def QueuedFrame.corrId? : QueuedFrame → Option UInt32
  | .request _ corrId _ => some corrId
  | .keepalive => none

/-- Where the write or the read task is: in its loop, past it with `closed` not yet stored, past the
store with its captured values not yet dropped, or gone. -/
inductive Task
  | running
  | closing
  | leaving
  | done
  deriving DecidableEq

/-- Where the keepalive task is: waiting for its ticker, sending, or gone. -/
inductive Keepalive
  | ticking
  | sending
  | done
  deriving DecidableEq

/-- Why the read loop ended: the end of the stream or a read error, a frame that is not well formed,
or a frame whose id no sender is stored for. -/
inductive Exit
  | stream
  | malformed
  | unknownId
  deriving DecidableEq

/-- A frame for which the read loop found a sender, and when. -/
structure Taken where
  header : Header
  payload : Bytes
  chan : ChanId
  time : ℕ
  deriving DecidableEq

structure Connection where
  /-- The next correlation id. -/
  corrId : UInt32
  demux : UInt32 → Option ChanId
  closed : Bool
  queue : List QueuedFrame
  /-- The write task still holds the receiving end of the queue. -/
  queueOpen : Bool
  writeTask : Task
  readTask : Task
  keepalive : Keepalive
  /-- The frame that the read loop looks up next. -/
  inHand : Option (Header × Bytes)
  buf : Bytes
  /-- Bytes the backend sent that were not read yet. -/
  inbound : Bytes
  /-- The `ConnectionInner` was dropped. -/
  dropped : Bool
  /-- History: how many ids were drawn. -/
  drawn : ℕ
  /-- History: the frames the read loop found a sender for. -/
  taken : List Taken
  /-- History: the frames that were written to the socket whole. -/
  written : List QueuedFrame
  /-- History: all bytes the backend sent. -/
  received : Bytes
  /-- History: some `send_frame` failed. -/
  sendFailed : Bool
  /-- History: why the read loop ended. -/
  exit : Option Exit

namespace Connection

/-- A connection as `Connection::connect` returns it. -/
def fresh : Connection where
  corrId := 1
  demux := fun _ => none
  closed := false
  queue := []
  queueOpen := true
  writeTask := .running
  readTask := .running
  keepalive := .ticking
  inHand := none
  buf := []
  inbound := []
  dropped := false
  drawn := 0
  taken := []
  written := []
  received := []
  sendFailed := false
  exit := none

/-- `Connection::next_corr_id`: the id, and the counter one further, around `u32`. -/
def nextCorrId (k : Connection) : UInt32 × Connection :=
  (k.corrId, { k with corrId := k.corrId + 1, drawn := k.drawn + 1 })

/-- `Connection::close`. -/
def close (k : Connection) : Connection := { k with closed := true }

/-- The sender of `chan` is stored under an id, in the place of the one that was. -/
def register (k : Connection) (corrId : UInt32) (chan : ChanId) : Connection :=
  { k with demux := Function.update k.demux corrId (some chan) }

/-- A place in the queue, whose capacity is `max_active_conns.max(2048)`. -/
def push (maxActiveConns : ℕ) (k : Connection) (frame : QueuedFrame) : Option Connection :=
  if k.queue.length < max maxActiveConns 2048 then some { k with queue := k.queue ++ [frame] }
  else none

/-- A `send_frame` that fails: the queue is gone, and the frame with it. -/
def refuse (k : Connection) : Connection := { k with sendFailed := true }

/-! ## The write task -/

/-- The next step of the write task, with a socket that takes the frame. -/
def write (k : Connection) : Option Connection :=
  match k.writeTask with
  | .running =>
    match k.queue with
    -- `recv` waits: the task holds its connection, and with it a sender of the queue
    | [] => none
    | frame :: queue => some { k with queue := queue, written := k.written ++ [frame] }
  | .closing => some { k with closed := true, writeTask := .leaving }
  | .leaving => some { k with queueOpen := false, queue := [], writeTask := .done }
  | .done => none

/-- A write that fails, before or after the whole frame reached the backend. -/
def writeError (whole : Bool) (k : Connection) : Option Connection :=
  match k.writeTask, k.queue with
  | .running, frame :: queue =>
    some { k with queue := queue, writeTask := .closing,
                  written := if whole then k.written ++ [frame] else k.written }
  | _, _ => none

/-! ## The read task -/

/-- The read loop waits for the socket: it has no frame in hand and none in its buffer. -/
def wantsRead (k : Connection) : Prop :=
  k.readTask = .running ∧ k.inHand = none ∧ frameSplitter.look k.buf = .more

instance (k : Connection) : Decidable k.wantsRead := by
  unfold wantsRead; infer_instance

/-- A read of `n` bytes. -/
def recv (n : ℕ) (k : Connection) : Option Connection :=
  if k.wantsRead ∧ 0 < n ∧ n ≤ k.inbound.length then
    some { k with buf := k.buf ++ k.inbound.take n, inbound := k.inbound.drop n }
  else none

/-- The end of the stream, or a read error. -/
def readError (k : Connection) : Option Connection :=
  if k.wantsRead then some { k with readTask := .closing, exit := some .stream } else none

/-- The next step of the read task, up to the lookup of the frame in its hand. -/
def read (k : Connection) : Option Connection :=
  match k.readTask with
  | .running =>
    match frameSplitter.look k.buf with
    | .more => none
    | .fail _ => some { k with readTask := .closing, exit := some .malformed }
    | .item frame rest => some { k with buf := rest, inHand := some frame }
  | .closing => some { k with closed := true, readTask := .leaving }
  | .leaving => some { k with readTask := .done }
  | .done => none

/-- The lookup found no sender: the loop ends. -/
def unknownId (k : Connection) : Connection :=
  { k with inHand := none, readTask := .closing, exit := some .unknownId }

/-- The lookup found the sender of `chan`, and removed it. -/
def take (header : Header) (payload : Bytes) (chan : ChanId) (time : ℕ) (k : Connection) :
    Connection :=
  { k with inHand := none
           demux := Function.update k.demux header.clrId none
           taken := k.taken ++ [{ header, payload, chan, time }] }

/-- The backend sends some bytes. -/
def deliver (bytes : Bytes) (k : Connection) : Connection :=
  { k with inbound := k.inbound ++ bytes, received := k.received ++ bytes }

/-! ## The keepalive task -/

/-- The next step of the keepalive task. -/
def keepaliveTick (maxActiveConns : ℕ) (k : Connection) : Option Connection :=
  match k.keepalive with
  | .ticking =>
    if k.closed then some { k with keepalive := .done } else some { k with keepalive := .sending }
  | .sending =>
    if k.queueOpen then
      (k.push maxActiveConns .keepalive).map fun k => { k with keepalive := .ticking }
    else some { k with keepalive := .done }
  | .done => none

/-- The frames in the bytes the backend sent. -/
def frames (k : Connection) : List (Header × Bytes) := (frameSplitter.split k.received).1

/-- The `ConnectionInner` is dropped, and its map with it. -/
def drop (k : Connection) : Connection := { k with dropped := true, demux := fun _ => none }

/-- Some task holds the `ConnectionInner`. -/
def heldByTask (k : Connection) : Bool :=
  k.writeTask ≠ .done || k.readTask ≠ .done || k.keepalive ≠ .done

end Connection

end RzProxy
