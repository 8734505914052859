import RzProxy.Library.Stream
import RzProxy.Protocol.Frame

/-!
# Framing

Reply frames are a layout of records with a head of nine bytes, and `drainFrameAsync` is the
splitter of that layout fed by a socket. So the way a stream is cut into reads does not matter, and
a concatenation of frames splits into the frames.

The router frame of a request is read back by a parser of its documented layout exactly when the
segment fits its length byte.

## Main definitions

* `drainFrames`: `drainFrameAsync`, repeated on one buffer until its first error
* `frameLayout`, `frameSplitter`: the layout of reply frames
* `parseRouterFrame`: a parser of the layout of router frames

## Main results

* `drainFrames_chunks`: every way of cutting a stream gives its frames
* `parseRouterFrame_prependRouterHeader_iff`: when a router frame can be read back
-/

namespace RzProxy

open ByteString Streaming

/-! ## Reply frames as a layout -/

/-- Reply frames: the head is the magic byte, the id and the length of the payload. -/
def frameLayout : Layout UInt8 (Header × Bytes) ProtocolError where
  headLen := 9
  headLen_pos := by decide
  bodyLen head :=
    if head.getD 0 0 ≠ 0xFF then .error (.missingMagic (head.getD 0 0))
    else .ok (u32FromLE ((head.drop 5).take 4)).toNat
  value head body :=
    match frameHeader (u32FromLE ((head.drop 1).take 4)) body with
    | .error e => .error e
    | .ok hdr => .ok (hdr, body)

/-- The reply frames of a stream, which ends in `ShortFrame`. -/
def frameSplitter : Splitter UInt8 (Header × Bytes) ProtocolError :=
  frameLayout.splitter .shortFrame

@[simp] theorem frameSplitter_split_nil : frameSplitter.split [] = ([], .shortFrame) :=
  Splitter.split_of_more rfl

theorem fill_of_le {n : ℕ} {buf : Bytes} (h : n ≤ buf.length) (reader : Reader) :
    fill n reader buf = (.ok (), reader, buf) := by
  have h' : ¬ buf.length < n := by omega
  rcases reader with _ | ⟨_ | chunk, reader⟩ <;> simp [fill, h']

theorem fill_of_lt_nil {n : ℕ} {buf : Bytes} (h : buf.length < n) :
    fill n [] buf = (.error .shortFrame, [], buf) := by
  simp [fill, h]

theorem fill_of_lt_cons {n : ℕ} {buf : Bytes} (h : buf.length < n) (chunk : Bytes)
    (reader : Reader) :
    fill n (.ok chunk :: reader) buf =
      if chunk = [] then (.error .shortFrame, reader, buf) else fill n reader (buf ++ chunk) := by
  simp [fill, h]

/-- What `drainFrameAsync` does once the head of a frame is in the buffer. -/
theorem drainFrameAsync_of_le {buf : Bytes} (h : 9 ≤ buf.length) (reader : Reader) :
    drainFrameAsync reader buf =
      match frameLayout.bodyLen (buf.take 9) with
      | .error e => (.error e, reader, buf)
      | .ok n =>
        match fill (9 + n) reader buf with
        | (.error e, reader, buf) => (.error e, reader, buf)
        | (.ok (), reader, buf') =>
          match frameHeader (u32FromLE (((buf.take 9).drop 1).take 4)) ((buf'.drop 9).take n) with
          | .error e => (.error e, reader, buf'.drop (9 + n))
          | .ok hdr => (.ok (hdr, (buf'.drop 9).take n), reader, buf'.drop (9 + n)) := by
  simp only [drainFrameAsync, fill_of_le h, frameLayout]
  split_ifs <;> rfl

/-- What is looked at once the head of a frame is in the buffer. -/
theorem look_of_le {buf : Bytes} (h : 9 ≤ buf.length) :
    frameSplitter.look buf =
      match frameLayout.bodyLen (buf.take 9) with
      | .error e => .fail e
      | .ok n =>
        if buf.length < 9 + n then .more
        else
          match frameHeader (u32FromLE (((buf.take 9).drop 1).take 4)) ((buf.drop 9).take n) with
          | .error e => .fail e
          | .ok hdr => .item (hdr, (buf.drop 9).take n) (buf.drop (9 + n)) := by
  show frameLayout.look buf = _
  rw [Layout.look, show frameLayout.headLen = 9 from rfl, if_neg (by omega)]
  cases frameLayout.bodyLen (buf.take 9) with
  | error e => rfl
  | ok n =>
    simp only [frameLayout]
    cases frameHeader (u32FromLE (((buf.take 9).drop 1).take 4)) ((buf.drop 9).take n) with
    | error e => rfl
    | ok hdr => rfl

/-- The head of a frame is there if anything but `more` is seen. -/
theorem le_of_look_ne_more {buf : Bytes} (h : frameSplitter.look buf ≠ .more) :
    9 ≤ buf.length := by
  by_contra hlt
  exact h (if_pos (by simpa [frameLayout] using hlt))

/-- An incomplete frame at the end of the stream. -/
theorem drainFrameAsync_of_more_nil {buf : Bytes} (h : frameSplitter.look buf = .more) :
    drainFrameAsync [] buf = (.error .shortFrame, [], buf) := by
  by_cases h₁ : buf.length < 9
  · simp [drainFrameAsync, fill_of_lt_nil h₁]
  · rw [look_of_le (by omega)] at h
    rw [drainFrameAsync_of_le (by omega)]
    cases hn : frameLayout.bodyLen (buf.take 9) with
    | error e => simp [hn] at h
    | ok n =>
      simp only [hn] at h ⊢
      split_ifs at h with h₂
      · rw [fill_of_lt_nil h₂]
      · split at h <;> cases h

/-- An incomplete frame makes one more read. -/
theorem drainFrameAsync_of_more_cons {buf : Bytes} (h : frameSplitter.look buf = .more)
    (chunk : Bytes) (reader : Reader) :
    drainFrameAsync (.ok chunk :: reader) buf =
      if chunk = [] then (.error .shortFrame, reader, buf)
      else drainFrameAsync reader (buf ++ chunk) := by
  by_cases h₁ : buf.length < 9
  · simp only [drainFrameAsync, fill_of_lt_cons h₁]
    split_ifs <;> rfl
  · have h₁' : 9 ≤ (buf ++ chunk).length := by simp only [List.length_append]; omega
    have ht : (buf ++ chunk).take 9 = buf.take 9 := List.take_append_of_le_length (by omega)
    rw [look_of_le (by omega)] at h
    rw [drainFrameAsync_of_le (by omega), drainFrameAsync_of_le h₁', ht]
    cases hn : frameLayout.bodyLen (buf.take 9) with
    | error e => simp [hn] at h
    | ok n =>
      simp only [hn] at h ⊢
      split_ifs at h with h₂
      · rw [fill_of_lt_cons h₂]
        split_ifs <;> rfl
      · split at h <;> cases h

/-- A frame that is there, or cannot be, is not waited for. -/
theorem drainFrameAsync_of_look {buf : Bytes} (h : frameSplitter.look buf ≠ .more)
    (reader : Reader) :
    (∃ e rest, frameSplitter.look buf = .fail e ∧
      drainFrameAsync reader buf = (.error e, reader, rest)) ∨
    ∃ frame rest, frameSplitter.look buf = .item frame rest ∧
      drainFrameAsync reader buf = (.ok frame, reader, rest) := by
  have h9 : 9 ≤ buf.length := le_of_look_ne_more h
  rw [look_of_le h9] at h ⊢
  rw [drainFrameAsync_of_le h9]
  cases hn : frameLayout.bodyLen (buf.take 9) with
  | error e => exact .inl ⟨e, buf, rfl, rfl⟩
  | ok n =>
    simp only [hn] at h ⊢
    have h₂ : ¬ buf.length < 9 + n := fun hlt => h (if_pos hlt)
    rw [fill_of_le (by omega), if_neg h₂]
    dsimp only
    cases frameHeader (u32FromLE (((buf.take 9).drop 1).take 4)) ((buf.drop 9).take n) with
    | error e => exact .inl ⟨e, _, rfl, rfl⟩
    | ok hdr => exact .inr ⟨_, _, rfl, rfl⟩

/-- A frame that cannot be read. -/
theorem drainFrameAsync_of_fail {buf : Bytes} {e : ProtocolError}
    (h : frameSplitter.look buf = .fail e) (reader : Reader) :
    (drainFrameAsync reader buf).1 = .error e := by
  rcases drainFrameAsync_of_look (by rw [h]; nofun) reader with
    ⟨e', rest, hlook, hdrain⟩ | ⟨frame, rest, hlook, -⟩
  · rw [hlook] at h
    cases h
    rw [hdrain]
  · rw [hlook] at h
    cases h

/-- A frame that can be read. -/
theorem drainFrameAsync_of_item {buf rest : Bytes} {frame : Header × Bytes}
    (h : frameSplitter.look buf = .item frame rest) (reader : Reader) :
    drainFrameAsync reader buf = (.ok frame, reader, rest) := by
  rcases drainFrameAsync_of_look (by rw [h]; nofun) reader with
    ⟨e', rest', hlook, -⟩ | ⟨frame', rest', hlook, hdrain⟩
  · rw [hlook] at h
    cases h
  · rw [hlook] at h
    cases h
    exact hdrain

/-! ## Draining a stream -/

/-- The bytes a reader still holds. -/
def Reader.size (reader : Reader) : ℕ :=
  (reader.map fun r => match r with | .ok chunk => chunk.length | .error _ => 0).sum

/-- A `fill` that succeeds has the bytes asked for, and loses none. -/
theorem fill_ok {n : ℕ} {reader reader' : Reader} {buf buf' : Bytes}
    (h : fill n reader buf = (.ok (), reader', buf')) :
    n ≤ buf'.length ∧ buf'.length + Reader.size reader' = buf.length + Reader.size reader := by
  induction reader generalizing buf with
  | nil =>
    simp only [fill] at h
    split_ifs at h with hn
    · simp at h
    · simp only [Prod.mk.injEq] at h
      obtain ⟨-, rfl, rfl⟩ := h
      omega
  | cons r reader ih =>
    rcases r with e | chunk <;> simp only [fill] at h <;> split_ifs at h with hn
    · simp at h
    · simp only [Prod.mk.injEq] at h
      obtain ⟨-, rfl, rfl⟩ := h
      omega
    · simp at h
    · obtain ⟨hle, hs⟩ := ih h
      refine ⟨hle, hs.trans ?_⟩
      simp only [Reader.size, List.length_append, List.map_cons, List.sum_cons]
      omega
    · simp only [Prod.mk.injEq] at h
      obtain ⟨-, rfl, rfl⟩ := h
      omega

/-- A frame takes some of the bytes. -/
theorem drainFrameAsync_ok {reader reader' : Reader} {buf buf' : Bytes} {frame : Header × Bytes}
    (h : drainFrameAsync reader buf = (.ok frame, reader', buf')) :
    buf'.length + Reader.size reader' < buf.length + Reader.size reader := by
  simp only [drainFrameAsync] at h
  rcases h₁ : fill 9 reader buf with ⟨e | ⟨⟩, reader₁, buf₁⟩
  · simp [h₁] at h
  · simp only [h₁] at h
    split_ifs at h with hm
    · simp at h
    · rcases h₂ : fill (9 + (u32FromLE (((buf₁.take 9).drop 5).take 4)).toNat) reader₁ buf₁ with
        ⟨e | ⟨⟩, reader₂, buf₂⟩
      · simp [h₂] at h
      · simp only [h₂] at h
        split at h
        · simp at h
        · simp only [Prod.mk.injEq] at h
          obtain ⟨-, rfl, rfl⟩ := h
          have hs₁ := (fill_ok h₁).2
          obtain ⟨hle, hs₂⟩ := fill_ok h₂
          simp only [List.length_drop]
          omega

/-- `drainFrameAsync`, repeated on one buffer until its first error: the frames, and the error. -/
def drainFrames (reader : Reader) (buf : Bytes) : List (Header × Bytes) × ProtocolError :=
  match _h : drainFrameAsync reader buf with
  | (.error e, _, _) => ([], e)
  | (.ok frame, reader', buf') =>
    (frame :: (drainFrames reader' buf').1, (drainFrames reader' buf').2)
termination_by buf.length + Reader.size reader
decreasing_by all_goals exact drainFrameAsync_ok _h

theorem drainFrames_of_error {reader : Reader} {buf : Bytes} {e : ProtocolError}
    (h : (drainFrameAsync reader buf).1 = .error e) : drainFrames reader buf = ([], e) := by
  rw [drainFrames]; split <;> simp_all

theorem drainFrames_of_ok {reader reader' : Reader} {buf buf' : Bytes} {frame : Header × Bytes}
    (h : drainFrameAsync reader buf = (.ok frame, reader', buf')) :
    drainFrames reader buf =
      (frame :: (drainFrames reader' buf').1, (drainFrames reader' buf').2) := by
  rw [drainFrames]; split <;> simp_all

/-- The reads of a socket that delivers these chunks and ends. -/
def reads (chunks : List Bytes) : Reader := chunks.map .ok

/-- One frame from a socket is one item of the splitter. -/
theorem drainFrameAsync_reads (chunks : List Bytes) (buf : Bytes) :
    match frameSplitter.next chunks buf with
    | (.error e, _, _) => (drainFrameAsync (reads chunks) buf).1 = .error e
    | (.ok frame, chunks', buf') =>
      drainFrameAsync (reads chunks) buf = (.ok frame, reads chunks', buf') := by
  induction chunks generalizing buf with
  | nil =>
    cases hl : frameSplitter.look buf with
    | more =>
      simp only [Splitter.next, hl, reads, List.map_nil, drainFrameAsync_of_more_nil hl]
      rfl
    | fail e => simpa only [Splitter.next, hl] using drainFrameAsync_of_fail hl _
    | item frame rest => simpa only [Splitter.next, hl] using drainFrameAsync_of_item hl _
  | cons chunk chunks ih =>
    cases hl : frameSplitter.look buf with
    | more =>
      rw [reads, List.map_cons, drainFrameAsync_of_more_cons hl]
      by_cases hc : chunk = []
      · simp only [Splitter.next, hl, hc, if_true]
        rfl
      · simpa only [Splitter.next, hl, hc, if_false, reads] using ih (buf ++ chunk)
    | fail e => simpa only [Splitter.next, hl] using drainFrameAsync_of_fail hl _
    | item frame rest => simpa only [Splitter.next, hl] using drainFrameAsync_of_item hl _

/-- **Draining a socket** is draining the splitter. -/
theorem drainFrames_reads (chunks : List Bytes) (buf : Bytes) :
    drainFrames (reads chunks) buf = frameSplitter.drain chunks buf := by
  induction hn : buf.length + chunks.flatten.length using Nat.strongRecOn
    generalizing chunks buf with
  | ind n ih =>
    have hd := drainFrameAsync_reads chunks buf
    rcases h : frameSplitter.next chunks buf with ⟨e | frame, chunks', buf'⟩
    · simp only [h] at hd
      rw [drainFrames_of_error hd, Splitter.drain_of_error h]
    · simp only [h] at hd
      rw [drainFrames_of_ok hd, Splitter.drain_of_ok h,
        ih _ (hn ▸ (frameSplitter.next_ok h).2) chunks' buf' rfl]

/-! ## Frames that the proxy's own layout writes -/

/-- A payload that carries a status and a field count, with a length that fits its field. -/
def WellFormedPayload (payload : Bytes) : Prop :=
  ∃ b rest, payload = b :: rest ∧ 1 + b.toNat + 2 ≤ payload.length ∧ payload.length < 2 ^ 32

/-- The header of a frame with this id and payload: the status length is the first byte of the
payload, and the field count the two bytes after the status. -/
def expectedHeader (clrid : UInt32) (payload : Bytes) : Header where
  clrId := clrid
  statusLen := payload.headD 0
  fieldCnt := u16FromLE ((payload.drop (1 + (payload.headD 0).toNat)).take 2)

theorem frameHeader_of_wellFormed {payload : Bytes} (h : WellFormedPayload payload)
    (clrid : UInt32) : frameHeader clrid payload = .ok (expectedHeader clrid payload) := by
  obtain ⟨b, rest, rfl, hle, -⟩ := h
  have hle' : ¬ (b :: rest).length < 1 + b.toNat + 2 := by omega
  simp only [frameHeader, if_neg hle', expectedHeader, List.headD_cons]

/-- The head of a frame: nine bytes that give the magic byte, the id and the length of the
payload. -/
theorem exists_head_prependHeader {payload : Bytes} (h : payload.length < 2 ^ 32) (clrid : UInt32) :
    ∃ head, prependHeader clrid payload = head ++ payload ∧ head.length = 9 ∧
      head.getD 0 0 = 0xFF ∧ u32FromLE ((head.drop 1).take 4) = clrid ∧
      (u32FromLE ((head.drop 5).take 4)).toNat = payload.length := by
  have hc := length_le32 clrid
  have hl := length_le32 (UInt32.ofNat payload.length)
  refine ⟨(0xFF : UInt8) :: (le32 clrid ++ le32 (UInt32.ofNat payload.length)),
    by simp [prependHeader], by simp, by rw [List.getD_cons_zero], ?_, ?_⟩
  · rw [List.drop_one, List.tail_cons, ← hc, List.take_left, u32FromLE_le32]
  · rw [List.drop_succ_cons, ← hc, List.drop_left, hc, ← hl, List.take_length, u32FromLE_le32,
      UInt32.toNat_ofNat_of_lt' h]

/-- A frame of `prependHeader` is an item. -/
theorem look_prependHeader {payload : Bytes} (h : WellFormedPayload payload) (clrid : UInt32)
    (rest : Bytes) :
    frameSplitter.look (prependHeader clrid payload ++ rest) =
      .item (expectedHeader clrid payload, payload) rest := by
  have hlt : payload.length < 2 ^ 32 := by
    obtain ⟨_, _, _, _, hlt⟩ := h
    exact hlt
  obtain ⟨head, hframe, hlen, hmagic, hid, hn⟩ := exists_head_prependHeader hlt clrid
  have hbody : frameLayout.bodyLen head = .ok payload.length := by
    simp only [frameLayout, hmagic, ne_eq, not_true_eq_false, if_false, hn]
  have hvalue : frameLayout.value head payload = .ok (expectedHeader clrid payload, payload) := by
    simp only [frameLayout, hid, frameHeader_of_wellFormed h]
  rw [hframe, List.append_assoc]
  exact frameLayout.look_record hlen hbody hvalue rest

/-- **Stream framing.** Draining a socket gives the frames and the error of the uncut stream,
whatever the chunks; and where the stream is a concatenation of frames, it gives those frames in
order and then `ShortFrame`. -/
theorem drainFrames_chunks (chunks : List Bytes) (hne : ∀ c ∈ chunks, c ≠ []) :
    drainFrames (reads chunks) [] = frameSplitter.split chunks.flatten ∧
      ∀ frames : List (UInt32 × Bytes), (∀ f ∈ frames, WellFormedPayload f.2) →
        chunks.flatten = (frames.flatMap fun f => prependHeader f.1 f.2) →
        drainFrames (reads chunks) [] =
          (frames.map fun f => (expectedHeader f.1 f.2, f.2), .shortFrame) := by
  have hsplit : drainFrames (reads chunks) [] = frameSplitter.split chunks.flatten := by
    rw [drainFrames_reads, Splitter.drain_eq_split _ _ _ hne, List.nil_append]
  refine ⟨hsplit, fun frames hw hflat => ?_⟩
  have hlook : ∀ f ∈ frames, ∀ rest, frameSplitter.look (prependHeader f.1 f.2 ++ rest) =
      .item (expectedHeader f.1 f.2, f.2) rest :=
    fun f hf => look_prependHeader (hw f hf) f.1
  have hmany := Splitter.split_flatMap frameSplitter _ _ frames [] hlook
  rw [hsplit, hflat]
  simpa using hmany

/-- Two replies, the second cut inside its head and inside its payload. -/
theorem drainFrames_chunks_two_replies :
    drainFrames (reads [[0xFF, 1, 0, 0, 0, 3, 0, 0, 0, 0, 5, 0, 0xFF, 2], [0, 0],
        [0, 4, 0, 0, 0, 1, 65], [0, 0]]) [] =
      ([({ clrId := 1, statusLen := 0, fieldCnt := 5 }, [0, 5, 0]),
        ({ clrId := 2, statusLen := 1, fieldCnt := 0 }, [1, 65, 0, 0])], .shortFrame) :=
  (drainFrames_chunks [[0xFF, 1, 0, 0, 0, 3, 0, 0, 0, 0, 5, 0, 0xFF, 2], [0, 0],
      [0, 4, 0, 0, 0, 1, 65], [0, 0]] (by decide)).2
    [(1, [0, 5, 0]), (2, [1, 65, 0, 0])]
    (by
      intro f hf
      rcases List.mem_pair.mp hf with rfl | rfl
      · exact ⟨0, [5, 0], rfl, by decide, by decide⟩
      · exact ⟨1, [65, 0, 0], rfl, by decide, by decide⟩)
    (by decide)

/-! ## Router frames -/

/-- A parser of `| magic(1) | clrid(4) | totalLen(4) | payload |` that leaves nothing. -/
def parseShardFrame (frame : Bytes) : Option (UInt32 × Bytes) :=
  match frame with
  | [] => none
  | magic :: rest =>
    let payload := rest.drop 8
    if magic = shardMagic ∧ 8 ≤ rest.length ∧ ofLE ((rest.drop 4).take 4) = payload.length then
      some (u32FromLE (rest.take 4), payload)
    else none

/-- What a router frame carries. -/
structure RouterFrame where
  segment : Bytes
  isWrite : Bool
  clrid : UInt32
  payload : Bytes
  deriving DecidableEq

/-- A parser of `| segmentLen(1) | segment(n) | isWrite(1) | shardFrame |` that leaves nothing. -/
def parseRouterBody (body : Bytes) : Option RouterFrame :=
  match body with
  | [] => none
  | segmentLen :: rest =>
    match rest.drop segmentLen.toNat with
    | [] => none
    | flag :: shardFrame =>
      if flag ≤ 1 then
        (parseShardFrame shardFrame).map fun f =>
          { segment := rest.take segmentLen.toNat, isWrite := flag = 1, clrid := f.1,
            payload := f.2 }
      else none

/-- A parser of the documented layout
`| routerMagic(1) | totalLen(4) | segmentLen(1) | segment(n) | isWrite(1) | shardFrame |`: what the
frame at the front of the stream carries, and the bytes after it. -/
def parseRouterFrame (stream : Bytes) : Option (RouterFrame × Bytes) :=
  match stream with
  | [] => none
  | magic :: rest =>
    let totalLen := ofLE (rest.take 4)
    if magic = routerMagic ∧ 4 + totalLen ≤ rest.length then
      (parseRouterBody ((rest.drop 4).take totalLen)).map fun f => (f, rest.drop (4 + totalLen))
    else none

/-- The layout gives the segment's length one byte. -/
theorem length_segment_of_parseRouterBody {body : Bytes} {f : RouterFrame}
    (h : parseRouterBody body = some f) : f.segment.length ≤ 255 := by
  rcases body with _ | ⟨segmentLen, rest⟩
  · simp [parseRouterBody] at h
  · have hlt := segmentLen.toNat_lt
    simp only [parseRouterBody] at h
    split at h
    · simp at h
    · split_ifs at h
      obtain ⟨_, -, rfl⟩ := Option.map_eq_some_iff.mp h
      simp only [List.length_take]
      omega

theorem length_segment_of_parseRouterFrame {stream rest : Bytes} {f : RouterFrame}
    (h : parseRouterFrame stream = some (f, rest)) : f.segment.length ≤ 255 := by
  rcases stream with _ | ⟨magic, stream⟩
  · simp [parseRouterFrame] at h
  · simp only [parseRouterFrame] at h
    split_ifs at h
    obtain ⟨g, hg, he⟩ := Option.map_eq_some_iff.mp h
    obtain rfl : g = f := congrArg Prod.fst he
    exact length_segment_of_parseRouterBody hg

theorem parseShardFrame_shardFrame (payload : Bytes) (h : payload.length < 2 ^ 32)
    (clrid : UInt32) :
    parseShardFrame (shardMagic :: (le32 clrid ++ (le32 (UInt32.ofNat payload.length) ++ payload)))
      = some (clrid, payload) := by
  have hc := length_le32 clrid
  have hl := length_le32 (UInt32.ofNat payload.length)
  have h₁ :
      (le32 clrid ++ (le32 (UInt32.ofNat payload.length) ++ payload)).take 4 = le32 clrid := by
    rw [← hc, List.take_left]
  have h₂ : (le32 clrid ++ (le32 (UInt32.ofNat payload.length) ++ payload)).drop 4 =
      le32 (UInt32.ofNat payload.length) ++ payload := by
    rw [← hc, List.drop_left]
  have h₃ : (le32 clrid ++ (le32 (UInt32.ofNat payload.length) ++ payload)).drop 8 = payload := by
    rw [show 8 = 4 + 4 from rfl, ← List.drop_drop, h₂, ← hl, List.drop_left]
  have h₄ : ofLE (le32 (UInt32.ofNat payload.length)) = payload.length := by
    rw [le32, ofLE_toLE, UInt32.toNat_ofNat_of_lt' h, Nat.mod_eq_of_lt (by omega)]
  have h₅ : (le32 (UInt32.ofNat payload.length) ++ payload).take 4 =
      le32 (UInt32.ofNat payload.length) := by
    rw [← hl, List.take_left]
  have h₆ : 8 ≤ (le32 clrid ++ (le32 (UInt32.ofNat payload.length) ++ payload)).length := by
    simp only [List.length_append, hc, hl]
    omega
  simp only [parseShardFrame, h₁, h₂, h₃, h₄, h₅, h₆, and_self, if_true, u32FromLE_le32]

theorem length_prependRouterHeader (segment : String) (isWrite : Bool) (clrid : UInt32)
    (payload : Bytes) :
    (prependRouterHeader segment isWrite clrid payload).length =
      5 + (1 + (utf8 segment).length + 1 + (9 + payload.length)) := by
  simp only [prependRouterHeader, List.length_cons, List.length_append, length_le32]
  omega

/-- The two length fields of a router frame whose arithmetic does not wrap. -/
theorem prependRouterHeader_eq {segment : String} {isWrite : Bool} {clrid : UInt32}
    {payload : Bytes} (h : (prependRouterHeader segment isWrite clrid payload).length < 2 ^ 32) :
    prependRouterHeader segment isWrite clrid payload =
      routerMagic :: (toLE 4 (1 + (utf8 segment).length + 1 + (9 + payload.length)) ++
        UInt8.ofNat (utf8 segment).length :: (utf8 segment ++ (if isWrite then 0x01 else 0x00) ::
          shardMagic :: (le32 clrid ++ (le32 (UInt32.ofNat payload.length) ++ payload)))) := by
  rw [length_prependRouterHeader] at h
  have hs : (UInt32.ofNat (utf8 segment).length).toNat = (utf8 segment).length :=
    UInt32.toNat_ofNat_of_lt' (by simp only [UInt32.size]; omega)
  have hp : (UInt32.ofNat payload.length).toNat = payload.length :=
    UInt32.toNat_ofNat_of_lt' (by simp only [UInt32.size]; omega)
  have ht : (1 + UInt32.ofNat (utf8 segment).length + 1 + (9 + UInt32.ofNat payload.length)).toNat
      = 1 + (utf8 segment).length + 1 + (9 + payload.length) := by
    simp only [UInt32.toNat_add, UInt32.reduceToNat, hs, hp]
    omega
  have hb : (UInt32.ofNat (utf8 segment).length).toUInt8 = UInt8.ofNat (utf8 segment).length := by
    rw [← UInt8.toNat_inj, UInt32.toNat_toUInt8, hs, UInt8.toNat_ofNat']
  simp only [prependRouterHeader, hb]
  rw [le32, ht]

/-- **Router framing.** The parser of the documented layout reads a router frame back exactly when
the segment fits its length byte. -/
theorem parseRouterFrame_prependRouterHeader_iff {segment : String} {isWrite : Bool}
    {clrid : UInt32} {payload : Bytes}
    (h : (prependRouterHeader segment isWrite clrid payload).length < 2 ^ 32) :
    parseRouterFrame (prependRouterHeader segment isWrite clrid payload) =
        some ({ segment := utf8 segment, isWrite, clrid, payload }, []) ↔
      (utf8 segment).length ≤ 255 := by
  refine ⟨fun hp => length_segment_of_parseRouterFrame hp, fun hs => ?_⟩
  have hlen := length_prependRouterHeader segment isWrite clrid payload
  have hlt := h
  rw [hlen] at hlt
  have hshard := parseShardFrame_shardFrame payload (by omega) clrid
  have hn : (UInt8.ofNat (utf8 segment).length).toNat = (utf8 segment).length :=
    UInt8.toNat_ofNat_of_lt' (by simp only [UInt8.size]; omega)
  have hflag : (if isWrite then (0x01 : UInt8) else 0x00) ≤ 1 ∧
      decide ((if isWrite then (0x01 : UInt8) else 0x00) = 1) = isWrite := by
    cases isWrite <;> decide
  have hbody : parseRouterBody (UInt8.ofNat (utf8 segment).length :: (utf8 segment ++
      (if isWrite then 0x01 else 0x00) :: shardMagic ::
        (le32 clrid ++ (le32 (UInt32.ofNat payload.length) ++ payload)))) =
      some { segment := utf8 segment, isWrite, clrid, payload } := by
    simp only [parseRouterBody, hn, List.drop_left, List.take_left, hflag, hshard, if_true,
      Option.map_some]
  generalize hr : UInt8.ofNat (utf8 segment).length :: (utf8 segment ++
    (if isWrite then 0x01 else 0x00) :: shardMagic ::
      (le32 clrid ++ (le32 (UInt32.ofNat payload.length) ++ payload))) = body at hbody
  have hbl : body.length = 1 + (utf8 segment).length + 1 + (9 + payload.length) := by
    rw [← hr]
    simp only [List.length_cons, List.length_append, length_le32]
    omega
  rw [prependRouterHeader_eq h, hr]
  generalize hm : 1 + (utf8 segment).length + 1 + (9 + payload.length) = m at hbl hlt
  have ht4 : (toLE 4 m ++ body).take 4 = toLE 4 m := List.take_left' (length_toLE 4 m)
  have hd4 : (toLE 4 m ++ body).drop 4 = body := List.drop_left' (length_toLE 4 m)
  have hm' : ofLE (toLE 4 m) = m := ofLE_toLE_of_lt (by omega)
  have hdm : (toLE 4 m ++ body).drop (4 + m) = [] := by
    rw [← List.drop_drop, hd4, List.drop_eq_nil_of_le (by omega)]
  have hle : 4 + m ≤ (toLE 4 m ++ body).length := by
    simp only [List.length_append, length_toLE]
    omega
  have htm : body.take m = body := List.take_of_length_le (by omega)
  simp only [parseRouterFrame, ht4, hm', hd4, hdm, hle, htm, hbody, and_self, if_true,
    Option.map_some]

/-- A short segment comes back. -/
theorem parseRouterFrame_prependRouterHeader_iff_eu :
    parseRouterFrame (prependRouterHeader "eu" true 7 [0, 1, 2]) =
        some ({ segment := utf8 "eu", isWrite := true, clrid := 7, payload := [0, 1, 2] }, []) ↔
      (utf8 "eu").length ≤ 255 :=
  parseRouterFrame_prependRouterHeader_iff (by decide)

theorem length_utf8_replicate (n : ℕ) :
    (utf8 (String.ofList (List.replicate n 'a'))).length = n := by
  rw [utf8, String.toList_ofList]
  induction n with
  | zero => rfl
  | succ n ih =>
    rw [List.replicate_succ, List.flatMap_cons, List.length_append, ih]
    exact Nat.add_comm 1 n

/-- A segment of 256 letters does not come back: its length byte is 0. -/
theorem not_parseRouterFrame_prependRouterHeader :
    ¬ ∀ (segment : String) (isWrite : Bool) (clrid : UInt32) (payload : Bytes),
      (prependRouterHeader segment isWrite clrid payload).length < 2 ^ 32 →
      parseRouterFrame (prependRouterHeader segment isWrite clrid payload) =
        some ({ segment := utf8 segment, isWrite, clrid, payload }, []) := by
  intro h
  have hu := length_utf8_replicate 256
  generalize String.ofList (List.replicate 256 'a') = segment at hu
  have hp := h segment false 1 [0] (by rw [length_prependRouterHeader, hu]; decide)
  have hle := length_segment_of_parseRouterFrame hp
  rw [hu] at hle
  exact absurd hle (by decide)

end RzProxy
