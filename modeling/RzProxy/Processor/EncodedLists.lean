import RzProxy.Processor.Encoded

/-!
# Encoded lists

Lists of texts, and of names with counts, come back from the backend in one reply and are answered
with the same list. The decoders of room types and of segments keep the order and the repetitions,
that of dates sorts them and leaves the empty ones out, and that of properties reads a list of one
element as an error message.

## Main definitions

* `texts`, `pairs`: the fields of a list of texts, and of names with counts
* `segmentText`, `errorBody`: the text of a segment, and the body with an error message

## Main results

* `lists_decoded`: room types, dates and segments, and replies with another count
* `searchProp_decoded`: properties, of which there is not one
-/

namespace RzProxy

open ByteString Evaluation Evaluation.Flow JsonText

/-! ## Texts -/

/-- A field for each text. -/
def texts (ss : List Bytes) : List (UInt8 × Bytes) := ss.map fun s => (0x01, s)

section Texts

variable {ss : List Bytes}

@[simp] theorem length_texts : (texts ss).length = ss.length := List.length_map _

theorem strings_texts : Strings (numberFrom 1 (texts ss)) := by
  refine forall_mem_numberFrom (P := fun item => item.1 = 0x01) fun item hitem => ?_
  obtain ⟨s, -, rfl⟩ := List.mem_map.mp hitem
  rfl

/-- The data of the fields are the texts. -/
theorem map_data_texts {β : Type} (g : Bytes → β) :
    (numberFrom 1 (texts ss)).map (fun f => g f.data) = ss.map g := by
  rw [map_numberFrom (g := fun item => g item.2), texts, List.map_map]
  rfl

theorem ofNat_ne_zero {n : ℕ} (hn : n < 2 ^ 16) (h : n ≠ 0) : UInt16.ofNat n ≠ 0 :=
  mt (ofNat_eq_iff hn).mp h

theorem ofNat_ne_one {n : ℕ} (hn : n < 2 ^ 16) (h : n ≠ 1) : UInt16.ofNat n ≠ 1 := by
  rw [ne_eq, ofNat_eq_iff hn]
  exact h

/-- The decoder of room types reads the texts. -/
theorem answer_propRoomList (hlen : ss.length < 2 ^ 16) (hfit : DataFit (texts ss)) :
    answerOf propRoomListAnswer (encoded (texts ss)) =
      some (listAnswer "room_types" (ss.map .lossy)) := by
  rw [encoded, answerOf_announced, propRoomListAnswer, countedFields_announced hfit, if_pos rfl,
    length_texts]
  by_cases hss : ss = []
  · subst hss
    rfl
  · rw [if_neg (ofNat_ne_zero hlen (mt List.eq_nil_of_length_eq_zero hss))]
    simp only [if_pos strings_texts, map_data_texts]

/-- The decoder of dates reads the texts that are not empty, and sorts them. -/
theorem answer_propRoomDateList (hlen : ss.length < 2 ^ 16) (hfit : DataFit (texts ss)) :
    answerOf propRoomDateListAnswer (encoded (texts ss)) = some (listAnswer "dates"
      (((ss.filter (· ≠ [])).insertionSort (· ≤ ·)).map .copied)) := by
  rw [encoded, answerOf_announced, propRoomDateListAnswer, countedFields_announced hfit, if_pos rfl,
    length_texts]
  by_cases hss : ss = []
  · subst hss
    rfl
  · have hdata : (numberFrom 1 (texts ss)).map Field.data = ss :=
      (map_data_texts id).trans (List.map_id ss)
    rw [if_neg (ofNat_ne_zero hlen (mt List.eq_nil_of_length_eq_zero hss))]
    simp only [if_pos strings_texts, hdata]

/-- The decoder of properties reads the texts as property ids, if there is not one. -/
theorem answer_searchProp (hlen : ss.length < 2 ^ 16) (hone : ss.length ≠ 1)
    (hfit : DataFit (texts ss)) :
    answerOf searchPropAnswer (encoded (texts ss)) =
      some (listAnswer "properties" (ss.map fun s => .lossy (propertyId s))) := by
  have hcount : (UInt16.ofNat ss.length).toNat = (numberFrom 1 (texts ss)).length := by
    rw [length_numberFrom, length_texts]
    exact ((ofNat_eq_iff hlen).mp rfl).symm
  have hfields := takeFields_flatMap (fits_numberFrom (k := 1) hfit) []
  rw [List.append_nil, ← hcount] at hfields
  rw [encoded, answerOf_announced, searchPropAnswer, length_texts]
  by_cases hss : ss = []
  · subst hss
    rfl
  · rw [if_neg (ofNat_ne_zero hlen (mt List.eq_nil_of_length_eq_zero hss)),
      if_neg (ofNat_ne_one hlen hone)]
    simp only [hfields, if_pos (And.intro numbered_numberFrom strings_texts),
      map_data_texts fun s => Text.lossy (propertyId s)]

/-- The decoder of properties reads one text as an error message. -/
theorem answer_searchProp_one {s : Bytes} (hfit : DataFit (texts [s])) :
    answerOf searchPropAnswer (encoded (texts [s])) =
      some (if s = [] then errorAnswer .badRequest (.const "UNKNOWN_ERROR") (some [])
        else errorAnswer .badRequest (.copied s) none) := by
  have hs : Field.Fits ⟨1, 0x01, s⟩ := hfit _ List.mem_cons_self
  have hfield := takeField_bytes_append hs []
  rw [List.append_nil] at hfield
  rw [encoded, answerOf_announced]
  show searchPropAnswer 1 (Field.bytes ⟨1, 0x01, s⟩ ++ []) = _
  rw [List.append_nil, searchPropAnswer, if_neg (by decide), if_pos rfl, hfield]
  rfl

end Texts

/-! ## Names with counts -/

/-- Two fields for each name with its count. -/
def pairs (segments : List (Bytes × UInt32)) : List (UInt8 × Bytes) :=
  segments.flatMap fun s => [(0x01, s.1), (0x03, le32 s.2)]

/-- The object of a segment, as it is written. -/
def segmentText (s : Bytes × UInt32) : Bytes :=
  utf8 "\x7b\"segment\":\"" ++ s.1 ++ utf8 "\",\"propCount\":" ++ decimal s.2.toNat ++
    utf8 "\x7d"

section Pairs

variable {segments : List (Bytes × UInt32)}

theorem length_pairs : (pairs segments).length = 2 * segments.length := by
  induction segments with
  | nil => rfl
  | cons s segments ih =>
    rw [pairs, List.flatMap_cons, List.length_append, ← pairs, ih, List.length_cons]
    simp only [List.length_cons, List.length_nil]
    omega

/-- Names and counts are taken in turn. -/
theorem segmentsOf_pairs (k : UInt16) : segmentsOf (numberFrom k (pairs segments)) =
    some segments := by
  induction segments generalizing k with
  | nil => rfl
  | cons s segments ih =>
    show segmentsOf (⟨k, 0x01, s.1⟩ :: ⟨k + 1, 0x03, le32 s.2⟩ ::
      numberFrom (k + 1 + 1) (pairs segments)) = _
    rw [segmentsOf, if_pos ⟨rfl, rfl, length_le32 s.2⟩, ih, Option.map_some, u32FromLE_le32]

theorem answer_getSegments (hlen : 2 * segments.length < 2 ^ 16)
    (hfit : DataFit (pairs segments)) :
    answerOf getSegmentsAnswer (encoded (pairs segments)) =
      some (successAnswer [(.const "segments", .arr (segments.map segmentObject))]) := by
  rw [encoded, answerOf_announced, getSegmentsAnswer, countedFields_announced hfit, if_pos rfl,
    length_pairs]
  by_cases hs : segments = []
  · subst hs
    rfl
  · have hpos := List.length_pos_iff.mpr hs
    rw [if_neg (ofNat_ne_zero hlen (by omega)), Option.bind_some, segmentsOf_pairs]

end Pairs

/-! ## Replies -/

variable (metrics : Metrics)

/-- Room types are answered in order, with their repetitions. -/
theorem decode_propRoomList {types : List String} (hlen : types.length < 2 ^ 16)
    (hfit : DataFit (texts (types.map utf8))) :
    ∃ metrics', decodePropRoomListResponse metrics (encoded (texts (types.map utf8))) =
      .ok (jsonResponse .ok (listBody "room_types" (types.map fun s => quoted (utf8 s))),
        metrics') := by
  have h := answers_propRoomList metrics (encoded (texts (types.map utf8)))
  rw [answer_propRoomList (by rwa [List.length_map]) hfit] at h
  have hwritten (s : String) : quoted (Text.lossy (utf8 s)).written = quoted (utf8 s) :=
    congrArg quoted (lossy_of_valid (validUtf8_iff.mpr ⟨s, rfl⟩))
  simpa only [List.map_map, Function.comp_def, hwritten] using h.eq_list

/-- Dates are sorted, and the empty ones left out. -/
theorem decode_propRoomDateList {dates : List Bytes} (hlen : dates.length < 2 ^ 16)
    (hfit : DataFit (texts dates)) :
    ∃ (sorted : List Bytes) (metrics' : Metrics),
      sorted.Perm (dates.filter (· ≠ [])) ∧ sorted.Pairwise (· ≤ ·) ∧
      decodePropRoomDateListResponse metrics (encoded (texts dates)) =
        .ok (jsonResponse .ok (listBody "dates" (sorted.map quoted)), metrics') := by
  have h := answers_propRoomDateList metrics (encoded (texts dates))
  rw [answer_propRoomDateList hlen hfit] at h
  obtain ⟨metrics', hdecode⟩ := h.eq_list
  rw [List.map_map] at hdecode
  exact ⟨_, metrics', List.perm_insertionSort _ _, List.pairwise_insertionSort _ _, hdecode⟩

/-- Every segment has its own count. -/
theorem decode_getSegments {segments : List (Bytes × UInt32)}
    (hlen : 2 * segments.length < 2 ^ 16) (hfit : DataFit (pairs segments)) :
    ∃ metrics', decodeGetSegmentsResponse metrics (encoded (pairs segments)) =
      .ok (jsonResponse .ok (listBody "segments" (segments.map segmentText)), metrics') := by
  have h := answers_getSegments metrics (encoded (pairs segments))
  rw [answer_getSegments hlen hfit] at h
  have hwritten : (fun v => (v.map Text.written).render) ∘ segmentObject = segmentText := by
    funext s
    rw [Function.comp_apply, segmentObject_eq, segmentText]
    simp only [List.append_assoc]
  obtain ⟨metrics', hdecode⟩ := h.eq_json
  rw [bodyOf_arr, List.map_map, hwritten] at hdecode
  exact ⟨metrics', hdecode⟩

/-- A reply with another count than it announces is refused. -/
theorem decode_of_miscounted {m : UInt16} {items : List (UInt8 × Bytes)}
    (hlen : items.length < 2 ^ 16) (hfit : DataFit items) (h0 : m ≠ 0)
    (hm : m.toNat ≠ items.length) :
    decodePropRoomListResponse metrics (announced m items) = .ok (invalidResponse, metrics) ∧
      decodePropRoomDateListResponse metrics (announced m items) =
        .ok (invalidResponse, metrics) ∧
      decodeGetSegmentsResponse metrics (announced m items) = .ok (invalidResponse, metrics) := by
  have hcount : countedFields m ((numberFrom 1 items).flatMap Field.bytes) = none := by
    rw [countedFields_announced hfit]
    exact if_neg fun h => hm ((ofNat_eq_iff hlen).mp h).symm
  have hrooms : answerOf propRoomListAnswer (announced m items) = none := by
    rw [answerOf_announced, propRoomListAnswer, if_neg h0, hcount]
  have hdates : answerOf propRoomDateListAnswer (announced m items) = none := by
    rw [answerOf_announced, propRoomDateListAnswer, if_neg h0, hcount]
  have hsegments : answerOf getSegmentsAnswer (announced m items) = none := by
    rw [answerOf_announced, getSegmentsAnswer, if_neg h0, hcount, Option.bind_none]
  refine ⟨?_, ?_, ?_⟩
  · exact (hrooms ▸ answers_propRoomList metrics (announced m items)).eq_invalid
  · exact (hdates ▸ answers_propRoomDateList metrics (announced m items)).eq_invalid
  · exact (hsegments ▸ answers_getSegments metrics (announced m items)).eq_invalid

/-- **Lists are answered as they were sent**: room types and segments in order and with
repetitions, dates sorted and without the empty ones; and a reply with another count than it
announces is refused. -/
theorem lists_decoded :
    (∀ types : List String, types.length ≤ 65534 → DataFit (texts (types.map utf8)) →
      ∃ metrics', decodePropRoomListResponse metrics (encoded (texts (types.map utf8))) =
        .ok (jsonResponse .ok (listBody "room_types" (types.map fun s => quoted (utf8 s))),
          metrics')) ∧
    (∀ dates : List Bytes, dates.length ≤ 65534 → DataFit (texts dates) →
      ∃ (sorted : List Bytes) (metrics' : Metrics),
        sorted.Perm (dates.filter (· ≠ [])) ∧ sorted.Pairwise (· ≤ ·) ∧
        decodePropRoomDateListResponse metrics (encoded (texts dates)) =
          .ok (jsonResponse .ok (listBody "dates" (sorted.map quoted)), metrics')) ∧
    (∀ segments : List (Bytes × UInt32), segments.length ≤ 32767 → DataFit (pairs segments) →
      ∃ metrics', decodeGetSegmentsResponse metrics (encoded (pairs segments)) =
        .ok (jsonResponse .ok (listBody "segments" (segments.map segmentText)), metrics')) ∧
    ∀ (m : UInt16) (items : List (UInt8 × Bytes)), items.length ≤ 65534 → DataFit items →
      m ≠ 0 → m.toNat ≠ items.length →
      decodePropRoomListResponse metrics (announced m items) = .ok (invalidResponse, metrics) ∧
        decodePropRoomDateListResponse metrics (announced m items) =
          .ok (invalidResponse, metrics) ∧
        decodeGetSegmentsResponse metrics (announced m items) =
          .ok (invalidResponse, metrics) := by
  refine ⟨?_, ?_, ?_, ?_⟩
  · intro types hlen hfit
    exact decode_propRoomList metrics (by omega) hfit
  · intro dates hlen hfit
    exact decode_propRoomDateList metrics (by omega) hfit
  · intro segments hlen hfit
    exact decode_getSegments metrics (by omega) hfit
  · intro m items hlen hfit h0 hm
    exact decode_of_miscounted metrics (by omega) hfit h0 hm

/-- Two rooms of one type, and a reply that announces three of them. -/
theorem lists_decoded_suites :
    (∃ metrics', decodePropRoomListResponse ⟨0, 0⟩
        (encoded (texts (["suite", "suite"].map utf8))) =
      .ok (jsonResponse .ok (listBody "room_types" [quoted (utf8 "suite"), quoted (utf8 "suite")]),
        metrics')) ∧
    decodePropRoomListResponse ⟨0, 0⟩ (announced 3 (texts (["suite", "suite"].map utf8))) =
      .ok (invalidResponse, ⟨0, 0⟩) :=
  have hfit : DataFit (texts (["suite", "suite"].map utf8)) := by
    unfold DataFit
    decide
  ⟨(lists_decoded ⟨0, 0⟩).1 ["suite", "suite"] (by decide) hfit,
    ((lists_decoded ⟨0, 0⟩).2.2.2 3 _ (by decide) hfit (by decide) (by decide)).1⟩

/-! ## Properties -/

variable (env : Env)

/-- The body with an error message. -/
def errorBody (message : Bytes) : Bytes :=
  utf8 "\x7b\"status\":\"error\",\"message\":\"" ++ message ++ utf8 "\"\x7d"

/-- The strings that the ids stand for. -/
theorem forall₂_bytesToPropertyId (ids : List Bytes) :
    List.Forall₂ (fun id s => bytesToPropertyId env id = .ok s) ids
      (ids.map fun id => fromUtf8Lossy (propertyId id)) := by
  rw [List.forall₂_map_right_iff, List.forall₂_same]
  exact fun id _ => bytesToPropertyId_eq env id

theorem decode_searchProp {ids : List Bytes} (hlen : ids.length < 2 ^ 16) (hone : ids.length ≠ 1)
    (hfit : DataFit (texts ids)) :
    ∃ (strings : List String) (metrics' : Metrics),
      List.Forall₂ (fun id s => bytesToPropertyId env id = .ok s) ids strings ∧
      decodeSearchPropResponse env metrics (encoded (texts ids)) =
        .ok (jsonResponse .ok (listBody "properties" (strings.map fun s => quoted (utf8 s))),
          metrics') := by
  have h := answers_searchProp env metrics (encoded (texts ids))
  rw [answer_searchProp hlen hone hfit] at h
  obtain ⟨metrics', hdecode⟩ := h.eq_list
  refine ⟨_, metrics', forall₂_bytesToPropertyId env ids, ?_⟩
  have hwritten (id : Bytes) : quoted (Text.lossy (propertyId id)).written =
      quoted (utf8 (fromUtf8Lossy (propertyId id))) :=
    congrArg quoted (utf8_fromUtf8Lossy _).symm
  simpa only [List.map_map, Function.comp_def, hwritten] using hdecode

/-- One property is read as an error message. -/
theorem decode_searchProp_one {id : Bytes} (hfit : DataFit (texts [id])) :
    ∃ metrics', decodeSearchPropResponse env metrics (encoded (texts [id])) =
      .ok (jsonResponse .badRequest (errorBody (if id = [] then utf8 "UNKNOWN_ERROR" else id)),
        metrics') := by
  have h := answers_searchProp env metrics (encoded (texts [id]))
  rw [answer_searchProp_one hfit] at h
  have hbody (t : Text) : errorBody t.written = bodyOf (errorMembers t) := errorBody_eq t
  by_cases hid : id = []
  · rw [if_pos hid] at h ⊢
    rw [show utf8 "UNKNOWN_ERROR" = (Text.const "UNKNOWN_ERROR").written from rfl, hbody]
    exact h.eq_json
  · rw [if_neg hid] at h ⊢
    rw [show id = (Text.copied id).written from rfl, hbody]
    exact h.eq_json

/-- **Properties are answered in order, each as the string that its id stands for**, unless there is
one: a reply with one field is read as an error message. -/
theorem searchProp_decoded {ids : List Bytes} (hlen : ids.length ≤ 65535)
    (hfit : DataFit (texts ids)) :
    (ids.length ≠ 1 → ∃ (strings : List String) (metrics' : Metrics),
      List.Forall₂ (fun id s => bytesToPropertyId env id = .ok s) ids strings ∧
      decodeSearchPropResponse env metrics (encoded (texts ids)) =
        .ok (jsonResponse .ok (listBody "properties" (strings.map fun s => quoted (utf8 s))),
          metrics')) ∧
    ∀ id, ids = [id] → ∃ metrics', decodeSearchPropResponse env metrics (encoded (texts ids)) =
      .ok (jsonResponse .badRequest (errorBody (if id = [] then utf8 "UNKNOWN_ERROR" else id)),
        metrics') := by
  refine ⟨fun hone => decode_searchProp metrics env (by omega) hone hfit, ?_⟩
  rintro id rfl
  exact decode_searchProp_one metrics env hfit

/-- A search that finds one property is answered by 400. -/
theorem not_forall_searchProp_decoded :
    ¬ ∀ (metrics : Metrics) (env : Env) (ids : List Bytes), ids.length ≤ 65535 →
      DataFit (texts ids) → ∃ (strings : List String) (metrics' : Metrics),
        List.Forall₂ (fun id s => bytesToPropertyId env id = .ok s) ids strings ∧
        decodeSearchPropResponse env metrics (encoded (texts ids)) =
          .ok (jsonResponse .ok (listBody "properties" (strings.map fun s => quoted (utf8 s))),
            metrics') := by
  intro h
  have hfit : DataFit (texts [List.replicate 16 0x41]) := by
    unfold DataFit
    decide
  obtain ⟨strings, metrics', -, hok⟩ :=
    h ⟨0, 0⟩ (.documented []) [List.replicate 16 0x41] (by decide) hfit
  obtain ⟨_, hbad⟩ := decode_searchProp_one ⟨0, 0⟩ (.documented []) hfit
  rw [hbad] at hok
  have hstatus := congrArg (fun p : Response × Metrics => p.1.status) (Except.ok.inj hok)
  cases hstatus

/-- Two properties with the same id. -/
theorem searchProp_decoded_two :
    ∃ (strings : List String) (metrics' : Metrics),
      List.Forall₂ (fun id s => bytesToPropertyId (.documented []) id = .ok s)
        (List.replicate 2 (List.replicate 16 0x41)) strings ∧
      decodeSearchPropResponse (.documented []) ⟨0, 0⟩
          (encoded (texts (List.replicate 2 (List.replicate 16 0x41)))) =
        .ok (jsonResponse .ok (listBody "properties" (strings.map fun s => quoted (utf8 s))),
          metrics') :=
  have hfit : DataFit (texts (List.replicate 2 (List.replicate 16 0x41))) := by
    unfold DataFit
    decide
  (searchProp_decoded ⟨0, 0⟩ (.documented []) (by decide) hfit).1 (by decide)

end RzProxy
