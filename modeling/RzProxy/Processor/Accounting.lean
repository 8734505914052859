import RzProxy.Processor.Grammar

/-!
# What is counted

A response moves two counters: the bytes of the bodies that are sent, and the errors that clients
are answered with. Each way out of a handler moves them by itself, or does not: the fixed answers of
the proxy and the lists that are put together in a buffer are sent without being counted.

## Main definitions

* `Decoder.Counts`: the replies whose answers a decoder counts, if it accepts them
* `Unsuccessful`, `Accepted`: a reply of the backend is an error, or is answered by 200
* `Sent`: the body of the answer to a reply is counted

## Main results

* `booked_of_decode`: what a decoder does to the counters on a successful reply
* `bytesSent_of_process_iff`: the bytes of the body are counted exactly for these replies
* `clientErrors_of_process_iff`: an error is counted, unless the proxy makes it of a reply
-/

namespace RzProxy

open ByteString Evaluation Evaluation.Flow JsonText

/-! ## Ways out of the decoders -/

section Leaves

variable {ρ : Type} {R : ρ → Prop}

theorem leaves_u16At (data : Bytes) (i : ℕ) : Leaves R (fun _ => True) (u16At data i) := by
  apply (leaves_index data i).bind
  intro a _
  exact (leaves_index data (i + 1)).bind fun _ _ => trivial

theorem leaves_u32At (data : Bytes) (i : ℕ) : Leaves R (fun _ => True) (u32At data i) := by
  apply (leaves_index data i).bind
  intro a _
  apply (leaves_index data (i + 1)).bind
  intro b _
  apply (leaves_index data (i + 2)).bind
  intro c _
  exact (leaves_index data (i + 3)).bind fun _ _ => trivial

theorem leaves_pushSegment {R : Response × Metrics → Prop} (json : Bytes)
    (segment : Bytes × Option UInt32) (i : ℕ) :
    Leaves R (fun _ => True) (pushSegment json segment i) := by
  apply (leaves_unwrap segment.2).bind
  intro propCount _
  trivial

end Leaves

section Rounds

variable {R : Response × Metrics → Prop} {invalid : Response × Metrics} (h : R invalid)
include h

theorem leaves_searchPropRound (env : Env) (data : Bytes) (s : List String × ℕ)
    (expectedId : UInt16) :
    Leaves R (fun _ => True) (searchPropRound env invalid data s expectedId) := by
  obtain ⟨properties, offset⟩ := s
  refine Leaves.returnIf (fun _ => h) fun _ => ?_
  apply (leaves_u16At data offset).bind
  intro fieldId _
  refine Leaves.returnIf (fun _ => h) fun _ => ?_
  apply (leaves_index data (offset + 2)).bind
  intro fieldType _
  refine Leaves.returnIf (fun _ => h) fun _ => ?_
  apply (leaves_u32At data (offset + 3)).bind
  intro fieldLen _
  refine Leaves.returnIf (fun _ => h) fun _ => ?_
  apply (leaves_slice data _ _).bind
  intro rawBytes _
  exact (leaves_call _).bind fun _ _ => trivial

theorem leaves_readStringFields {α : Type} (data : Bytes) (push : List α → Bytes → List α)
    (fieldCount : UInt16) (offset : ℕ) :
    Leaves R (fun _ => True) (readStringFields invalid data push fieldCount offset) := by
  refine Leaves.bind (Q := fun _ => True) (Leaves.whileLoop (fun s _ _ => ?_) _ trivial) ?_
  · obtain ⟨items, expectedId, offset⟩ := s
    apply (leaves_u16At data offset).bind
    intro fieldId _
    refine Leaves.returnIf (fun _ => h) fun _ => ?_
    apply (leaves_index data (offset + 2)).bind
    intro fieldType _
    refine Leaves.returnIf (fun _ => h) fun _ => ?_
    apply (leaves_u32At data (offset + 3)).bind
    intro fieldLen _
    refine Leaves.returnIf (fun _ => h) fun _ => ?_
    exact (leaves_slice data _ _).bind fun _ _ => trivial
  · rintro ⟨items, expectedId, offset⟩ _
    exact Leaves.returnIf (fun _ => h) fun _ => trivial

theorem leaves_readField (data : Bytes) (offset : ℕ) :
    Leaves R (fun _ => True) (readField invalid data offset) := by
  refine Leaves.returnIf (fun _ => h) fun _ => ?_
  apply (leaves_u16At data offset).bind
  intro id _
  apply (leaves_index data (offset + 2)).bind
  intro typ _
  apply (leaves_u32At data (offset + 3)).bind
  intro len _
  refine Leaves.returnIf (fun _ => h) fun _ => ?_
  exact (leaves_slice data _ _).bind fun _ _ => trivial

theorem leaves_getSegmentsRound (data : Bytes)
    (s : List (Bytes × Option UInt32) × UInt16 × ℕ) :
    Leaves R (fun _ => True) (getSegmentsRound invalid data s) := by
  obtain ⟨segments, expectedId, offset⟩ := s
  apply (leaves_u16At data offset).bind
  intro fieldId _
  refine Leaves.returnIf (fun _ => h) fun _ => ?_
  apply (leaves_index data (offset + 2)).bind
  intro fieldType _
  apply (leaves_u32At data (offset + 3)).bind
  intro fieldLen _
  refine Leaves.returnIf (fun _ => h) fun _ => ?_
  apply (leaves_slice data _ _).bind
  intro fieldData _
  apply Leaves.ite
  · intro _
    exact Leaves.returnIf (fun _ => h) fun _ => trivial
  · intro _
    refine Leaves.returnIf (fun _ => h) fun _ => ?_
    apply (leaves_u32At fieldData 0).bind
    intro propCount _
    cases segments.getLast? with
    | none => exact h
    | some last => trivial

theorem leaves_writeDay (env : Env) (daysData : Bytes) (s : Bytes × Bool × ℕ) :
    Leaves R (fun _ => True) (writeDay env invalid daysData s) := by
  obtain ⟨json, firstDay, dOff⟩ := s
  apply (leaves_u16At daysData dOff).bind
  intro datePacked _
  apply (leaves_call _).bind
  intro date _
  apply (leaves_okOr h date).bind
  intro json _
  apply (leaves_index daysData (dOff + 2)).bind
  intro availability _
  apply (leaves_u32At daysData (dOff + 3)).bind
  intro finalPrice _
  exact (leaves_u32At daysData (dOff + 7)).bind fun _ _ => trivial

theorem leaves_searchAvailRound (env : Env) (data : Bytes) (s : AvailState) :
    Leaves R (fun _ => True) (searchAvailRound env invalid data s) := by
  apply (leaves_u16At data s.offset).bind
  intro fieldId _
  refine Leaves.returnIf (fun _ => h) fun _ => ?_
  apply (leaves_index data (s.offset + 2)).bind
  intro fieldType _
  apply (leaves_u32At data (s.offset + 3)).bind
  intro fieldLen _
  refine Leaves.returnIf (fun _ => h) fun _ => ?_
  apply (leaves_slice data _ _).bind
  intro fieldData _
  apply Leaves.ite
  · intro _
    refine Leaves.returnIf (fun _ => h) fun _ => ?_
    exact (leaves_u16At fieldData 0).bind fun _ _ => trivial
  · intro _
    apply Leaves.ite
    · intro _
      apply (leaves_call _).bind
      intro id _
      apply (leaves_okOr h id).bind
      intro json _
      refine Leaves.returnIf (fun _ => h) fun _ => ?_
      apply (leaves_u16At data _).bind
      intro nextId _
      refine Leaves.returnIf (fun _ => h) fun _ => ?_
      apply (leaves_index data _).bind
      intro daysType _
      apply (leaves_u32At data _).bind
      intro daysLen _
      refine Leaves.returnIf (fun _ => h) fun _ => ?_
      apply (leaves_slice data _ _).bind
      intro daysData _
      refine Leaves.returnIf (fun _ => h) fun _ => ?_
      apply (leaves_u16At daysData 0).bind
      intro daysCount _
      refine Leaves.returnIf (fun _ => h) fun _ => ?_
      apply (Leaves.foldlM (S := fun _ => True)
        (fun s _ _ => leaves_writeDay h env daysData s) trivial _).bind
      exact fun _ _ => trivial
    · exact fun _ => h

end Rounds

/-! ## Successful replies -/

/-- The answer to a successful reply that is accepted is counted. -/
def Decoder.Counts (fieldCount : UInt16) : Decoder → Prop
  | simple | scalarU8 _ | boolean _ | propRoomDateList | getPropRoomDay => True
  | searchProp | propRoomList => fieldCount = 0
  | searchAvail => False
  | getSegments => fieldCount ≠ 0

/-- A decoder makes of a successful reply the fixed answer, or one that it counts if `counts`
holds. -/
def Booked (metrics : Metrics) (counts : Prop) (p : Response × Metrics) : Prop :=
  p = (invalidResponse, metrics) ∨ counts ∧ p.2 = metrics.addBytesSent p.1.body.length ∨
    ¬ counts ∧ p.2 = metrics

section Booked

variable {env : Env} {metrics : Metrics} {fieldCount : UInt16} {payload rest : Bytes}

theorem booked_invalid (metrics : Metrics) (counts : Prop) :
    Booked metrics counts (invalidResponse, metrics) := .inl rfl

theorem booked_counted {counts : Prop} (h : counts) (status : StatusCode) (body : Bytes) :
    Booked metrics counts (jsonResponse status body, metrics.addBytesSent body.length) :=
  .inr (.inl ⟨h, rfl⟩)

theorem booked_uncounted {counts : Prop} (h : ¬ counts) (rsp : Response) :
    Booked metrics counts (rsp, metrics) := .inr (.inr ⟨h, rfl⟩)

variable {p : Response × Metrics} {k : UInt16 × ℕ → Flow (Response × Metrics) (Response × Metrics)}

/-- The rest of a decoder, behind the head of a successful reply. -/
theorem booked_of_leaves {counts : Prop}
    (hhead : takeHead payload = some (utf8 "SUCCESS", fieldCount, rest))
    (hk : ∀ off, Leaves (Booked metrics counts) (Booked metrics counts) (k (fieldCount, off)))
    (h : run (readSuccess metrics payload >>= k) = .ok p) : Booked metrics counts p := by
  obtain ⟨off, -, hnext⟩ := exists_readSuccess metrics hhead
  rw [hnext, next_bind] at h
  exact (hk off).of_run h

theorem booked_u8 {fieldName : String} {value : UInt8 → Bytes}
    (hhead : takeHead payload = some (utf8 "SUCCESS", fieldCount, rest))
    (h : decodeU8Response metrics payload fieldName value = .ok p) : Booked metrics True p := by
  have hinvalid := booked_invalid metrics True
  refine booked_of_leaves hhead (fun off => ?_) h
  refine Leaves.returnIf (fun _ => hinvalid) fun _ => ?_
  refine Leaves.returnIf (fun _ => hinvalid) fun _ => ?_
  apply (leaves_u16At payload off).bind
  intro fieldId _
  apply (leaves_index payload (off + 2)).bind
  intro fieldType _
  refine Leaves.returnIf (fun _ => hinvalid) fun _ => ?_
  apply (leaves_u32At payload (off + 3)).bind
  intro fieldLen _
  refine Leaves.returnIf (fun _ => hinvalid) fun _ => ?_
  apply (leaves_index payload (off + 7)).bind
  intro b _
  exact booked_counted trivial _ _

theorem booked_searchProp
    (hhead : takeHead payload = some (utf8 "SUCCESS", fieldCount, rest))
    (h : decodeSearchPropResponse env metrics payload = .ok p) :
    Booked metrics (fieldCount = 0) p := by
  have hinvalid := booked_invalid metrics (fieldCount = 0)
  refine booked_of_leaves hhead (fun off => ?_) h
  refine Leaves.ite (fun h0 => booked_counted h0 _ _) fun h0 => ?_
  refine Leaves.ite (fun _ => ?_) fun _ => ?_
  · refine Leaves.returnIf (fun _ => hinvalid) fun _ => ?_
    apply (leaves_u16At payload off).bind
    intro fieldId _
    apply (leaves_index payload (off + 2)).bind
    intro fieldType _
    refine Leaves.returnIf (fun _ => hinvalid) fun _ => ?_
    apply (leaves_u32At payload (off + 3)).bind
    intro fieldLen _
    refine Leaves.returnIf (fun _ => hinvalid) fun _ => ?_
    apply (leaves_slice payload _ _).bind
    intro message _
    exact booked_uncounted h0 _
  · apply (Leaves.foldlM (S := fun _ => True)
      (fun s id _ => leaves_searchPropRound hinvalid env payload s id) trivial _).bind
    intro s _
    exact booked_uncounted h0 _

theorem booked_propRoomList
    (hhead : takeHead payload = some (utf8 "SUCCESS", fieldCount, rest))
    (h : decodePropRoomListResponse metrics payload = .ok p) :
    Booked metrics (fieldCount = 0) p := by
  have hinvalid := booked_invalid metrics (fieldCount = 0)
  refine booked_of_leaves hhead (fun off => ?_) h
  refine Leaves.ite (fun h0 => booked_counted h0 _ _) fun h0 => ?_
  apply (leaves_readStringFields hinvalid payload _ fieldCount off).bind
  intro roomTypes _
  exact booked_uncounted h0 _

theorem booked_propRoomDateList
    (hhead : takeHead payload = some (utf8 "SUCCESS", fieldCount, rest))
    (h : decodePropRoomDateListResponse metrics payload = .ok p) : Booked metrics True p := by
  have hinvalid := booked_invalid metrics True
  refine booked_of_leaves hhead (fun off => ?_) h
  refine Leaves.ite (fun _ => booked_counted trivial _ _) fun _ => ?_
  apply (leaves_readStringFields hinvalid payload _ fieldCount off).bind
  intro dates _
  exact booked_counted trivial _ _

theorem booked_getPropRoomDay
    (hhead : takeHead payload = some (utf8 "SUCCESS", fieldCount, rest))
    (h : decodeGetPropRoomDayResponse env metrics payload = .ok p) : Booked metrics True p := by
  have hinvalid := booked_invalid metrics True
  refine booked_of_leaves hhead (fun off => ?_) h
  refine Leaves.returnIf (fun _ => hinvalid) fun _ => ?_
  apply (leaves_readField hinvalid payload off).bind
  rintro ⟨id, typ, propertyId, off⟩ _
  refine Leaves.returnIf (fun _ => hinvalid) fun _ => ?_
  apply (leaves_readField hinvalid payload off).bind
  rintro ⟨id, typ, date, off⟩ _
  refine Leaves.returnIf (fun _ => hinvalid) fun _ => ?_
  apply (leaves_readField hinvalid payload off).bind
  rintro ⟨id, typ, availability, off⟩ _
  refine Leaves.returnIf (fun _ => hinvalid) fun _ => ?_
  apply (leaves_index availability 0).bind
  intro _ _
  apply (leaves_readField hinvalid payload off).bind
  rintro ⟨id, typ, price, off⟩ _
  refine Leaves.returnIf (fun _ => hinvalid) fun _ => ?_
  apply (leaves_u32At price 0).bind
  intro _ _
  apply (leaves_readField hinvalid payload off).bind
  rintro ⟨id, typ, mask, off⟩ _
  refine Leaves.returnIf (fun _ => hinvalid) fun _ => ?_
  apply (leaves_u32At mask 0).bind
  intro _ _
  refine Leaves.returnIf (fun _ => hinvalid) fun _ => ?_
  apply (leaves_call _).bind
  intro features _
  apply (leaves_okOr hinvalid features).bind
  intro _ _
  apply (leaves_call _).bind
  intro _ _
  exact booked_counted trivial _ _

theorem booked_getSegments
    (hhead : takeHead payload = some (utf8 "SUCCESS", fieldCount, rest))
    (h : decodeGetSegmentsResponse metrics payload = .ok p) :
    Booked metrics (fieldCount ≠ 0) p := by
  have hinvalid := booked_invalid metrics (fieldCount ≠ 0)
  refine booked_of_leaves hhead (fun off => ?_) h
  refine Leaves.ite (fun h0 => booked_uncounted (not_not.mpr h0) _) fun h0 => ?_
  refine Leaves.returnIf (fun _ => hinvalid) fun _ => ?_
  apply (Leaves.whileLoop (Q := fun _ => True)
    (fun s _ _ => leaves_getSegmentsRound hinvalid payload s) _ trivial).bind
  rintro ⟨segments, expectedId, offset⟩ _
  refine Leaves.returnIf (fun _ => hinvalid) fun _ => ?_
  apply (Leaves.foldlM (S := fun _ => True)
    (fun json p _ => leaves_pushSegment json p.1 p.2) trivial _).bind
  intro json _
  exact booked_counted h0 _ _

theorem booked_searchAvail
    (hhead : takeHead payload = some (utf8 "SUCCESS", fieldCount, rest))
    (h : decodeSearchAvailResponse env metrics payload = .ok p) : Booked metrics False p := by
  have hinvalid := booked_invalid metrics False
  refine booked_of_leaves hhead (fun off => ?_) h
  refine Leaves.ite (fun _ => booked_uncounted id _) fun _ => ?_
  refine Leaves.returnIf (fun _ => hinvalid) fun _ => ?_
  apply (Leaves.whileLoop (Q := fun _ => True)
    (fun s _ _ => leaves_searchAvailRound hinvalid env payload s) _ trivial).bind
  intro s _
  exact Leaves.returnIf (fun _ => hinvalid) fun _ => booked_uncounted id _

/-- **What a decoder does to the counters** on a successful reply. -/
theorem booked_of_decode (D : Decoder)
    (hhead : takeHead payload = some (utf8 "SUCCESS", fieldCount, rest))
    (h : D.decode env metrics payload = .ok p) : Booked metrics (D.Counts fieldCount) p := by
  cases D with
  | simple =>
    refine booked_of_leaves hhead (fun off => ?_) h
    exact Leaves.ite (fun _ => booked_counted trivial _ _) fun _ => booked_invalid metrics True
  | scalarU8 name | boolean name => exact booked_u8 hhead h
  | searchProp => exact booked_searchProp hhead h
  | searchAvail => exact booked_searchAvail hhead h
  | propRoomList => exact booked_propRoomList hhead h
  | propRoomDateList => exact booked_propRoomDateList hhead h
  | getPropRoomDay => exact booked_getPropRoomDay hhead h
  | getSegments => exact booked_getSegments hhead h

end Booked

/-! ## Replies -/

/-- The reply is an error of the backend. -/
def Unsuccessful (payload : Bytes) : Prop :=
  ∃ status fieldCount rest, takeHead payload = some (status, fieldCount, rest) ∧
    status ≠ utf8 "SUCCESS"

/-- The reply is successful, and the decoder accepts its fields. -/
def Accepted (env : Env) (D : Decoder) (payload : Bytes) : Prop :=
  ∃ fieldCount rest fs tail, takeHead payload = some (utf8 "SUCCESS", fieldCount, rest) ∧
    takeFields fs.length rest = some (fs, tail) ∧ D.Accepts env fieldCount fs tail

/-- The body of the answer to the reply is counted: it is an error of the backend, or accepted by a
decoder that counts the answer. -/
def Sent (env : Env) (D : Decoder) (payload : Bytes) : Prop :=
  Unsuccessful payload ∨ Accepted env D payload ∧
    ∃ fieldCount rest, takeHead payload = some (utf8 "SUCCESS", fieldCount, rest) ∧
      D.Counts fieldCount

section Reply

variable {env : Env} {metrics : Metrics} {D : Decoder} {payload status rest : Bytes}
  {fieldCount : UInt16}

theorem not_unsuccessful (hhead : takeHead payload = some (utf8 "SUCCESS", fieldCount, rest)) :
    ¬ Unsuccessful payload := by
  rintro ⟨status, _, _, ht, hne⟩
  rw [hhead] at ht
  cases ht
  exact hne rfl

theorem Accepted.exists_head (h : Accepted env D payload) :
    ∃ fieldCount rest, takeHead payload = some (utf8 "SUCCESS", fieldCount, rest) := by
  obtain ⟨fieldCount, rest, _, _, hhead, -⟩ := h
  exact ⟨fieldCount, rest, hhead⟩

theorem Accepted.not_unsuccessful (h : Accepted env D payload) : ¬ Unsuccessful payload := by
  obtain ⟨fieldCount, rest, hhead⟩ := h.exists_head
  exact RzProxy.not_unsuccessful hhead

/-- All answers to successful replies are successes, but for that of SEARCHPROP to one field. -/
theorem succeeds_or_one (env : Env) (D : Decoder) (fieldCount : UInt16) (rest : Bytes) :
    Succeeds (D.success env fieldCount rest) ∨ D = .searchProp ∧ fieldCount = 1 := by
  by_cases hD : D = .searchProp
  · subst hD
    by_cases h1 : fieldCount = 1
    · exact .inr ⟨rfl, h1⟩
    · exact .inl (succeeds_searchProp h1)
  · exact .inl (succeeds_success hD)

/-- A successful reply that is not accepted is answered without being counted. -/
theorem decode_of_not_accepted
    (hhead : takeHead payload = some (utf8 "SUCCESS", fieldCount, rest))
    (h : ¬ Accepted env D payload) :
    D.decode env metrics payload = .ok (respond (D.answer env payload), metrics) := by
  obtain ⟨metrics', hdecode, hnone⟩ := answers_decode env metrics D payload
  have hanswer : D.answer env payload = D.success env fieldCount rest := by
    rw [Decoder.answer, answerOf, hhead]
    exact if_pos rfl
  have hsame : metrics' = metrics := by
    rcases succeeds_or_one env D fieldCount rest with hsucceeds | ⟨rfl, rfl⟩
    · apply hnone
      rw [hanswer, Option.eq_none_iff_forall_not_mem]
      intro a ha
      refine h ((status_answer_iff D payload).mp ?_)
      rw [hanswer, show D.success env fieldCount rest = some a from ha]
      exact hsucceeds a ha
    · rcases booked_of_decode .searchProp hhead hdecode with hp | ⟨h0, -⟩ | ⟨-, hp⟩
      · exact (Prod.mk.inj hp).2
      · cases h0
      · exact hp
  rw [hdecode, hsame]

variable (metrics) in
/-- The answer to a successful reply that is accepted is counted by the decoders that do so. -/
theorem decode_of_accepted (hhead : takeHead payload = some (utf8 "SUCCESS", fieldCount, rest))
    (h : Accepted env D payload) : ∃ metrics',
    D.decode env metrics payload = .ok (respond (D.answer env payload), metrics') ∧
      (D.Counts fieldCount → metrics' =
        metrics.addBytesSent (respond (D.answer env payload)).body.length) ∧
      (¬ D.Counts fieldCount → metrics' = metrics) := by
  obtain ⟨metrics', hdecode, -⟩ := answers_decode env metrics D payload
  refine ⟨metrics', hdecode, ?_⟩
  have hok : (respond (D.answer env payload)).status = .ok := (status_answer_iff D payload).mpr h
  rcases booked_of_decode D hhead hdecode with hp | ⟨hcounts, hp⟩ | ⟨hcounts, hp⟩
  · rw [(Prod.mk.inj hp).1] at hok
    cases hok
  · exact ⟨fun _ => hp, fun hn => absurd hcounts hn⟩
  · exact ⟨fun hc => absurd hc hcounts, fun _ => hp⟩

/-- No body is empty. -/
theorem length_body_pos (o : Option Answer) : 0 < (respond o).body.length := by
  cases o with
  | none => decide
  | some a => simp [respond, jsonResponse, bodyOf, Json.render]

theorem sent_iff_of_success (hhead : takeHead payload = some (utf8 "SUCCESS", fieldCount, rest)) :
    Sent env D payload ↔ Accepted env D payload ∧ D.Counts fieldCount := by
  constructor
  · rintro (hfailed | ⟨haccepted, _, _, ht, hcounts⟩)
    · exact absurd hfailed (not_unsuccessful hhead)
    · rw [hhead] at ht
      cases ht
      exact ⟨haccepted, hcounts⟩
  · rintro ⟨haccepted, hcounts⟩
    exact .inr ⟨haccepted, fieldCount, rest, hhead, hcounts⟩

/-- Without a head there is nothing to be counted. -/
theorem not_sent_of_none (hhead : takeHead payload = none) :
    ¬ Sent env D payload ∧ ¬ Unsuccessful payload := by
  have hfailed : ¬ Unsuccessful payload := by
    rintro ⟨_, _, _, ht, -⟩
    rw [hhead] at ht
    cases ht
  refine ⟨?_, hfailed⟩
  rintro (h | ⟨-, _, _, ht, -⟩)
  · exact hfailed h
  · rw [hhead] at ht
    cases ht

/-- **What a reply does to the counters.** -/
theorem counters_of_decode (env : Env) (metrics : Metrics) (D : Decoder) (payload : Bytes) :
    ∃ metrics', D.decode env metrics payload = .ok (respond (D.answer env payload), metrics') ∧
      (metrics'.bytesSent = metrics.bytesSent + (respond (D.answer env payload)).body.length ↔
        Sent env D payload) ∧
      (Unsuccessful payload → metrics'.clientErrors = metrics.clientErrors + 1) ∧
      (¬ Unsuccessful payload → metrics'.clientErrors = metrics.clientErrors) := by
  have hpos := length_body_pos (D.answer env payload)
  have hsame : metrics.bytesSent ≠
      metrics.bytesSent + (respond (D.answer env payload)).body.length := by omega
  cases hhead : takeHead payload with
  | none =>
    obtain ⟨metrics', hdecode, hnone⟩ := answers_decode env metrics D payload
    obtain rfl := hnone (by rw [Decoder.answer, answerOf, hhead])
    obtain ⟨hsent, hfailed⟩ : ¬ Sent env D payload ∧ ¬ Unsuccessful payload :=
      not_sent_of_none hhead
    exact ⟨metrics', hdecode, iff_of_false hsame hsent, fun h => absurd h hfailed, fun _ => rfl⟩
  | some head =>
    obtain ⟨status, fieldCount, rest⟩ := head
    by_cases hstatus : status = utf8 "SUCCESS"
    · subst hstatus
      have hfailed := not_unsuccessful hhead
      rw [sent_iff_of_success hhead]
      by_cases haccepted : Accepted env D payload
      · obtain ⟨metrics', hdecode, hcounted, hnot⟩ :=
          decode_of_accepted metrics hhead haccepted
        refine ⟨metrics', hdecode, ?_⟩
        by_cases hcounts : D.Counts fieldCount
        · rw [hcounted hcounts]
          exact ⟨iff_of_true rfl ⟨haccepted, hcounts⟩, fun h => absurd h hfailed, fun _ => rfl⟩
        · rw [hnot hcounts]
          exact ⟨iff_of_false hsame fun h => hcounts h.2, fun h => absurd h hfailed, fun _ => rfl⟩
      · exact ⟨metrics, decode_of_not_accepted hhead haccepted,
          iff_of_false hsame fun h => haccepted h.1, fun h => absurd h hfailed, fun _ => rfl⟩
    · have hfailed : Unsuccessful payload := ⟨status, fieldCount, rest, hhead, hstatus⟩
      have hanswer : D.answer env payload = some (unsuccessful status fieldCount rest) := by
        rw [Decoder.answer, answerOf, hhead]
        exact if_neg hstatus
      rw [hanswer, respond_unsuccessful]
      exact ⟨_, decode_eq_errorReply env metrics D hhead hstatus,
        iff_of_true rfl (.inl hfailed), fun _ => rfl, fun h => absurd hfailed h⟩

end Reply

/-! ## Responses -/

section Exchange

variable (env : Env) (metrics : Metrics) (fromSlice : Bytes → Option Value)
  (execute : Request → Except RZError Bytes) (body : Bytes)

/-- A body is answered with the error of the request or of `execute`, or with the answer to the
reply. -/
theorem process_cases :
    (∃ e, process env metrics fromSlice execute body = .ok (errorResponse metrics e) ∧
      ∀ D payload, ¬ Replied fromSlice execute body D payload) ∨
    ∃ D payload, Replied fromSlice execute body D payload ∧
      process env metrics fromSlice execute body = D.decode env metrics payload := by
  cases hreq : request fromSlice body with
  | error e =>
    refine .inl ⟨e, by rw [process, hreq], ?_⟩
    rintro D payload ⟨r, hreq', -⟩
    rw [hreq] at hreq'
    cases hreq'
  | ok p =>
    obtain ⟨r, D⟩ := p
    cases hexec : execute r with
    | error e =>
      refine .inl ⟨e, by simp only [process, hreq, hexec], ?_⟩
      rintro D payload h
      exact h.not_failed ⟨r, _, hreq, hexec⟩
    | ok payload =>
      exact .inr ⟨D, payload, ⟨r, hreq, hexec⟩, by simp only [process, hreq, hexec]⟩

theorem length_errorResponse_pos (metrics : Metrics) (e : RZError) :
    0 < (errorResponse metrics e).1.body.length := by
  have hpos : 0 < (utf8 "\x7b\"status\":\"error\",\"message\":\"").length := by decide
  rw [errorResponse, jsonResponse, List.length_append, List.length_append]
  omega

/-- **The bytes of a body are counted** exactly if it is the answer to a reply that a decoder counts
the answer to. -/
theorem bytesSent_of_process_iff :
    ∃ rsp metrics', process env metrics fromSlice execute body = .ok (rsp, metrics') ∧
      (metrics'.bytesSent = metrics.bytesSent + rsp.body.length ↔
        ∃ D payload, Replied fromSlice execute body D payload ∧ Sent env D payload) := by
  rcases process_cases env metrics fromSlice execute body with
    ⟨e, hprocess, hnone⟩ | ⟨D, payload, hreplied, hprocess⟩
  · have hpos := length_errorResponse_pos metrics e
    refine ⟨_, _, hprocess, iff_of_false ?_ ?_⟩
    · show metrics.bytesSent ≠ metrics.bytesSent + (errorResponse metrics e).1.body.length
      omega
    · rintro ⟨D, payload, hreplied, -⟩
      exact hnone D payload hreplied
  · obtain ⟨metrics', hdecode, hbytes, -⟩ := counters_of_decode env metrics D payload
    refine ⟨_, metrics', by rw [hprocess, hdecode], hbytes.trans ?_⟩
    constructor
    · exact fun hsent => ⟨D, payload, hreplied, hsent⟩
    · rintro ⟨_, _, hreplied', hsent⟩
      obtain ⟨rfl, rfl⟩ := hreplied.unique hreplied'
      exact hsent

/-- A status code of an error: a client error, or one of the server. -/
def StatusCode.IsError (status : StatusCode) : Prop :=
  status.code / 100 = 4 ∨ status.code / 100 = 5

instance (status : StatusCode) : Decidable status.IsError := inferInstanceAs (Decidable (_ ∨ _))

theorem StatusCode.isError_iff {status : StatusCode} : status.IsError ↔ status ≠ .ok := by
  cases status <;> decide

/-- **An error is counted** once, and nothing else is, exactly if it is not the proxy that makes an
error of a reply. -/
theorem clientErrors_of_process_iff :
    ∃ rsp metrics', process env metrics fromSlice execute body = .ok (rsp, metrics') ∧
      (metrics'.clientErrors = metrics.clientErrors + (if rsp.status.IsError then 1 else 0) ↔
        ∀ D payload, Replied fromSlice execute body D payload →
          Unsuccessful payload ∨ Accepted env D payload) := by
  rcases process_cases env metrics fromSlice execute body with
    ⟨e, hprocess, hnone⟩ | ⟨D, payload, hreplied, hprocess⟩
  · have herror : (errorResponse metrics e).1.status.IsError :=
      show StatusCode.badRequest.IsError by decide
    refine ⟨_, _, hprocess, iff_of_true ?_ ?_⟩
    · exact (congrArg (metrics.clientErrors + ·) (if_pos herror)).symm
    · exact fun D payload hreplied => absurd hreplied (hnone D payload)
  · obtain ⟨metrics', hdecode, -, hfailed, hnot⟩ := counters_of_decode env metrics D payload
    refine ⟨_, metrics', by rw [hprocess, hdecode], ?_⟩
    have hone : (∀ D' payload', Replied fromSlice execute body D' payload' →
        Unsuccessful payload' ∨ Accepted env D' payload') ↔
        Unsuccessful payload ∨ Accepted env D payload := by
      refine ⟨fun h => h D payload hreplied, fun h D' payload' hreplied' => ?_⟩
      obtain ⟨rfl, rfl⟩ := hreplied.unique hreplied'
      exact h
    have herror : (respond (D.answer env payload)).status.IsError ↔ ¬ Accepted env D payload :=
      StatusCode.isError_iff.trans (not_congr (status_answer_iff D payload))
    rw [hone]
    by_cases h : Unsuccessful payload
    · rw [if_pos (herror.mpr fun haccepted => haccepted.not_unsuccessful h), hfailed h]
      exact iff_of_true rfl (.inl h)
    · rw [hnot h]
      by_cases haccepted : Accepted env D payload
      · rw [if_neg fun he => herror.mp he haccepted]
        exact iff_of_true rfl (.inr haccepted)
      · rw [if_pos (herror.mpr haccepted)]
        exact iff_of_false (by omega) (not_or.mpr ⟨h, haccepted⟩)

end Exchange

/-- **A body that is not JSON** is answered with a text whose bytes are not counted. -/
theorem not_forall_bytesSent :
    ¬ ∀ (env : Env) (metrics : Metrics) (fromSlice : Bytes → Option Value)
        (execute : Request → Except RZError Bytes) (body : Bytes) (rsp : Response)
        (metrics' : Metrics), process env metrics fromSlice execute body = .ok (rsp, metrics') →
      metrics'.bytesSent = metrics.bytesSent + rsp.body.length := by
  intro h
  have hbytes := h (.documented []) ⟨0, 0⟩ (fun _ => none) (fun _ => .error .timeout) [] _ _ rfl
  exact absurd hbytes (by decide)

/-- **A reply of one field** to GETSEGMENTS, where a segment takes two, is answered by 500, which is
not counted. -/
theorem not_forall_clientErrors :
    ¬ ∀ (env : Env) (metrics : Metrics) (fromSlice : Bytes → Option Value)
        (execute : Request → Except RZError Bytes) (body : Bytes) (rsp : Response)
        (metrics' : Metrics), process env metrics fromSlice execute body = .ok (rsp, metrics') →
      metrics'.clientErrors = metrics.clientErrors + (if rsp.status.IsError then 1 else 0) := by
  intro h
  have herrors := h (.documented []) ⟨0, 0⟩ (fun _ => some (.object
    [("command", .string "GETSEGMENTS"), ("segment", .string "eu"), ("body", .object [])]))
    (fun _ => .ok (headBytes (utf8 "SUCCESS") 1 ++ (Field.mk 1 0x01 (utf8 "eu")).bytes)) []
    invalidResponse ⟨0, 0⟩ rfl
  exact absurd herrors (by decide)

end RzProxy
