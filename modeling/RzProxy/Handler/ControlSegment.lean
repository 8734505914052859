import RzProxy.Processor.Required
import RzProxy.Protocol.Framing

/-!
# The control segment

A router takes a frame for a keepalive by its segment, `__keepalive__`, and does not answer it. The
segment of a request is the text that the client sent, which no handler looks at; the frame holds
all of it, under a length byte that keeps its length modulo 256.

## Main definitions

* `readSegment`: the segment that is read off a router frame
* `Reserved`: a segment that is read as the control segment

## Main results

* `segment_of_request`: the segment of a request is that of its body
* `readSegment_ne_iff`: the frame of a request is no control frame, unless its segment is reserved
-/

namespace RzProxy

open ByteString Evaluation

/-! ## The segment of a frame -/

/-- The segment of `| routerMagic(1) | totalLen(4) | segmentLen(1) | segment(n) | ..`. -/
def readSegment (frame : Bytes) : Bytes := (frame.drop 6).take (frame.getD 5 0).toNat

/-- The segment that a parser of the whole layout gives is the one that is read. -/
theorem segment_of_parseRouterFrame {frame : Bytes} {f : RouterFrame}
    (h : parseRouterFrame frame = some (f, [])) : f.segment = readSegment frame := by
  cases frame with
  | nil => cases h
  | cons magic rest =>
    simp only [parseRouterFrame] at h
    split_ifs at h with hle
    obtain ⟨g, hg, he⟩ := Option.map_eq_some_iff.mp h
    obtain ⟨rfl, hend⟩ := Prod.mk.inj he
    have hall : (rest.drop 4).take (ofLE (rest.take 4)) = rest.drop 4 := by
      have := List.drop_eq_nil_iff.mp hend
      refine List.take_of_length_le ?_
      rw [List.length_drop]
      omega
    rw [hall] at hg
    cases hrest : rest.drop 4 with
    | nil =>
      rw [hrest] at hg
      cases hg
    | cons segmentLen body =>
      have hlen : rest.getD 4 0 = segmentLen := by
        rw [List.getD_eq_getElem?_getD, ← List.head?_drop, hrest]
        rfl
      have hbody : rest.drop 5 = body := by
        rw [← List.drop_drop (i := 1) (j := 4), hrest]
        rfl
      rw [hrest] at hg
      simp only [parseRouterBody] at hg
      split at hg
      · cases hg
      · split_ifs at hg
        obtain ⟨_, -, rfl⟩ := Option.map_eq_some_iff.mp hg
        simp only [readSegment, List.drop_succ_cons, List.getD_cons_succ, hlen, hbody]

theorem readSegment_buildKeepaliveFrame : readSegment buildKeepaliveFrame = utf8 keepaliveSegment :=
  rfl

/-- What is read is as much of the segment as the length byte says. -/
theorem readSegment_prependRouterHeader (segment : String) (isWrite : Bool) (clrid : UInt32)
    (payload : Bytes) : readSegment (prependRouterHeader segment isWrite clrid payload) =
      (utf8 segment).take ((utf8 segment).length % 256) := by
  have hbyte : (UInt32.ofNat (utf8 segment).length).toUInt8.toNat =
      (utf8 segment).length % 256 := by
    rw [UInt32.toNat_toUInt8, UInt32.toNat_ofNat', Nat.mod_mod_of_dvd _ (by decide)]
  simp only [readSegment, prependRouterHeader, List.drop_succ_cons, List.getD_cons_succ]
  set rest := utf8 segment ++ (if isWrite then 0x01 else 0x00) ::
    shardMagic :: (le32 clrid ++ (le32 (UInt32.ofNat payload.length) ++ payload))
  set total := le32 _
  set segmentLen := (UInt32.ofNat (utf8 segment).length).toUInt8
  have htotal : total.length = 4 := length_le32 _
  have hdrop : (total ++ segmentLen :: rest).drop 5 = rest := by
    rw [List.drop_append, htotal]
    simp [htotal]
  have hget : (total ++ segmentLen :: rest).getD 4 0 = segmentLen := by
    rw [List.getD_eq_getElem?_getD, List.getElem?_append_right (by omega), htotal]
    rfl
  rw [hdrop, hget, hbyte]
  exact List.take_append_of_le_length (Nat.mod_le _ _)

/-- The segment is read as the control segment: its length is that of the control segment modulo
256, and it begins with it. -/
def Reserved (segment : String) : Prop :=
  (utf8 segment).length % 256 = (utf8 keepaliveSegment).length ∧
    utf8 keepaliveSegment <+: utf8 segment

instance (segment : String) : Decidable (Reserved segment) := inferInstanceAs (Decidable (_ ∧ _))

theorem take_length_eq_iff {bs key : Bytes} : bs.take (bs.length % 256) = key ↔
    bs.length % 256 = key.length ∧ key <+: bs := by
  constructor
  · rintro rfl
    refine ⟨?_, List.take_prefix _ _⟩
    rw [List.length_take, Nat.min_eq_left (Nat.mod_le _ _)]
  · rintro ⟨hlen, hprefix⟩
    rw [hlen]
    exact (List.prefix_iff_eq_take.mp hprefix).symm

/-! ## The segment of a request -/

section Request

variable {seg : String} {payload : Value} {p : Request × Decoder}

theorem segment_of_texts {cmdName : String} {isWrite : Bool} {fieldCount : UInt16}
    {keys : List (UInt16 × String)} {decoder : Decoder}
    (h : processTexts cmdName isWrite fieldCount keys decoder seg payload = .ok p) :
    p.1.segment = seg := by
  obtain ⟨texts, -, h⟩ := exists_of_bind h
  obtain rfl := Except.ok.inj h
  rfl

theorem segment_of_amount {cmdName : String} (h : processAmount cmdName seg payload = .ok p) :
    p.1.segment = seg := by
  obtain ⟨propertyId, -, h⟩ := exists_of_required h
  obtain ⟨roomType, -, h⟩ := exists_of_required h
  obtain ⟨date, -, h⟩ := exists_of_required h
  obtain ⟨amount, -, h⟩ := exists_of_required h
  obtain rfl := Except.ok.inj h
  rfl

theorem segment_of_setProp (h : processSetProp seg payload = .ok p) : p.1.segment = seg := by
  obtain ⟨segment, -, h⟩ := exists_of_required h
  obtain ⟨area, -, h⟩ := exists_of_required h
  obtain ⟨propertyId, -, h⟩ := exists_of_required h
  obtain ⟨propertyType, -, h⟩ := exists_of_required h
  obtain ⟨category, -, h⟩ := exists_of_required h
  obtain ⟨stars, -, h⟩ := exists_of_required h
  obtain ⟨latitude, -, h⟩ := exists_of_required h
  obtain ⟨longitude, -, h⟩ := exists_of_required h
  obtain rfl := Except.ok.inj h
  rfl

theorem segment_of_searchProp (h : processSearchProp seg payload = .ok p) :
    p.1.segment = seg := by
  obtain ⟨segment, -, h⟩ := exists_of_required h
  obtain rfl := Except.ok.inj h
  rfl

theorem segment_of_setRoomPkg (h : processSetRoomPkg seg payload = .ok p) :
    p.1.segment = seg := by
  obtain ⟨propertyId, -, h⟩ := exists_of_required h
  obtain ⟨roomType, -, h⟩ := exists_of_required h
  obtain ⟨date, -, h⟩ := exists_of_required h
  obtain rfl := Except.ok.inj h
  rfl

theorem segment_of_searchAvail (h : processSearchAvail seg payload = .ok p) :
    p.1.segment = seg := by
  obtain ⟨segment, -, h⟩ := exists_of_required h
  obtain ⟨roomType, -, h⟩ := exists_of_required h
  obtain rfl := Except.ok.inj h
  rfl

theorem segment_of_getSegments (h : processGetSegments payload = .ok p) :
    p.1.segment = "GETSEGMENTS" := by
  rw [processGetSegments] at h
  split_ifs at h
  obtain rfl := Except.ok.inj h
  rfl

/-- **The segment of a request** is that of its body, but for the one that asks for all segments. -/
theorem segment_of_request {fromSlice : Bytes → Option Value} {body : Bytes}
    (h : request fromSlice body = .ok p) :
    ∃ json command segment, fromSlice body = some json ∧ text json "command" = some command ∧
      text json "segment" = some segment ∧
      p.1.segment = if command = "GETSEGMENTS" then "GETSEGMENTS" else segment := by
  obtain ⟨json, hjson, h⟩ := exists_of_required h
  obtain ⟨command, hcommand, h⟩ := exists_of_required h
  obtain ⟨segment, hsegment, h⟩ := exists_of_required h
  refine ⟨json, command, segment, hjson, hcommand, hsegment, ?_⟩
  dsimp only at h
  split at h
  · exact segment_of_setProp h
  · exact segment_of_texts h
  · exact segment_of_searchProp h
  · exact segment_of_setRoomPkg h
  · exact segment_of_amount h
  · exact segment_of_amount h
  · exact segment_of_amount h
  · exact segment_of_texts h
  · exact segment_of_texts h
  · exact segment_of_texts h
  · exact segment_of_texts h
  · exact segment_of_texts h
  · exact segment_of_searchAvail h
  · exact segment_of_texts h
  · exact segment_of_texts h
  · exact segment_of_texts h
  · exact segment_of_texts h
  · exact segment_of_getSegments h
  · cases h

end Request

/-- **The frame of a request is no control frame** in router mode, unless its segment is reserved:
only the request for all segments is safe from it. -/
theorem readSegment_ne_iff {fromSlice : Bytes → Option Value} {body : Bytes}
    {p : Request × Decoder} (h : request fromSlice body = .ok p) :
    ∃ json command segment, fromSlice body = some json ∧ text json "command" = some command ∧
      text json "segment" = some segment ∧
      ∀ (s : State) (call : Call) (corrId : UInt32), s.cfg.mode = .router →
        call.segment = p.1.segment → call.isWrite = p.1.isWrite → call.payload = p.1.payload →
        (readSegment (s.buildFrame call corrId) ≠ utf8 keepaliveSegment ↔
          command = "GETSEGMENTS" ∨ ¬ Reserved segment) := by
  obtain ⟨json, command, segment, hjson, hcommand, hsegment, hseg⟩ := segment_of_request h
  refine ⟨json, command, segment, hjson, hcommand, hsegment, ?_⟩
  intro s call corrId hmode hcall _ _
  rw [State.buildFrame, hmode, ne_eq, readSegment_prependRouterHeader, hcall, hseg,
    take_length_eq_iff]
  by_cases hall : command = "GETSEGMENTS"
  · rw [if_pos hall]
    exact iff_of_true (by decide) (.inl hall)
  · rw [if_neg hall]
    exact ⟨.inr, fun h => h.resolve_left hall⟩

/-- A body that asks for the room types of a property. -/
def roomsJson (segment : String) : Value :=
  .object [("command", .string "PROPROOMLIST"), ("segment", .string segment),
    ("body", .object [("property_id", .string "p")])]

/-- The call that is made of the body. -/
def roomsCall (segment : String) : Call where
  segment := segment
  isWrite := false
  payload := commandName "PROPROOMLIST" ++ le16 1 ++ (Field.mk 0x01 0x01 (utf8 "p")).bytes
  attempts := 0
  pc := .pick
  last := none
  queued := []

theorem request_roomsJson (segment : String) :
    request (fun _ => some (roomsJson segment)) [] =
      .ok ({ segment := segment, isWrite := false, payload := (roomsCall segment).payload },
        .propRoomList) := rfl

theorem readSegment_ne_iff_eu :
    readSegment ((State.initial ⟨.router, "", 0, 0⟩).buildFrame (roomsCall "eu") 0) ≠
      utf8 keepaliveSegment := by
  obtain ⟨json, command, segment, hjson, -, hsegment, hiff⟩ :=
    readSegment_ne_iff (request_roomsJson "eu")
  obtain rfl := Option.some.inj hjson
  obtain rfl : "eu" = segment := Option.some.inj hsegment
  exact (hiff _ (roomsCall "eu") 0 rfl rfl rfl rfl).mpr (.inr (by decide))

/-- **A request for the control segment** is framed as a keepalive. -/
theorem not_forall_readSegment_ne :
    ¬ ∀ (fromSlice : Bytes → Option Value) (body : Bytes) (p : Request × Decoder),
      request fromSlice body = .ok p →
      ∀ (s : State) (call : Call) (corrId : UInt32), s.cfg.mode = .router →
        call.segment = p.1.segment → call.isWrite = p.1.isWrite → call.payload = p.1.payload →
        readSegment (s.buildFrame call corrId) ≠ utf8 keepaliveSegment := by
  intro h
  refine h _ _ _ (request_roomsJson keepaliveSegment) (.initial ⟨.router, "", 0, 0⟩)
    (roomsCall keepaliveSegment) 0 rfl rfl rfl rfl ?_
  rw [State.buildFrame, State.initial]
  exact (readSegment_prependRouterHeader _ _ _ _).trans (by decide)

end RzProxy
