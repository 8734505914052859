import RzProxy.Processor.Days

/-!
# The decoders

Every decoder evaluates on every payload, and gives the response to the answer that the reply
stands for. A successful reply that is cut gives no answer: a cut in the head shows in the length of
the status, a cut in a field in its length, and a cut between two fields in the count of fields.

## Main definitions

* `successBytes`: a successful reply with the given fields

## Main results

* `answers_decode`: every decoder gives the response to its answer
* `exists_decode_eq_ok`: no decoder panics
* `exists_members_of_success`: what is understood is answered with members
* `decode_of_truncated`: a successful reply that is cut is not accepted
-/

namespace RzProxy

open ByteString Evaluation Evaluation.Flow JsonText

variable (env : Env) (metrics : Metrics)

/-- **Every decoder gives the response to its answer.** -/
theorem answers_decode (D : Decoder) (payload : Bytes) :
    Answers metrics (D.answer env payload) (D.decode env metrics payload) := by
  unfold Decoder.answer Decoder.success Decoder.decode
  cases D with
  | simple => exact answers_simple metrics payload
  | scalarU8 name =>
    refine answers_u8 metrics payload name fun b => ?_
    rw [Json.nat, Json.map, Json.render]
  | boolean name =>
    refine answers_u8 metrics payload name fun b => ?_
    by_cases hb : b = 1 <;> simp [hb, Json.map, Json.render]
  | searchProp => exact answers_searchProp env metrics payload
  | searchAvail => exact answers_searchAvail env metrics payload
  | propRoomList => exact answers_propRoomList metrics payload
  | propRoomDateList => exact answers_propRoomDateList metrics payload
  | getPropRoomDay => exact answers_getPropRoomDay env metrics payload
  | getSegments => exact answers_getSegments metrics payload

/-! ## No panic -/

theorem exists_extractErrorMessage_eq_ok (data : Bytes) (fieldCount : UInt16) (off : ℕ) :
    ∃ r, extractErrorMessage data fieldCount off = .ok r := by
  rcases extractErrorMessage_eq data fieldCount off with ⟨e, he, -⟩ | ⟨s, t, he, -⟩
  · exact ⟨_, he⟩
  · exact ⟨_, he⟩

theorem exists_decodeGetCodecsResponse_eq_ok (payload : Bytes) :
    ∃ r, decodeGetCodecsResponse payload = .ok r := by
  simp only [decodeGetCodecsResponse, returnIf_bind]
  rcases readStatus_eq
      (Except.error (.internal "empty payload for GETCODECS") : Except RZError Codecs)
      (.error (.internal "payload too short for status + field count")) payload with
    ⟨-, hr⟩ | ⟨-, -, hr⟩ | ⟨status, fieldCount, off, -, -, hr⟩
  · exact ⟨_, by rw [hr]; rfl⟩
  · exact ⟨_, by rw [hr]; rfl⟩
  simp only [hr, next_bind]
  split_ifs
  · obtain ⟨r, he⟩ := exists_extractErrorMessage_eq_ok payload fieldCount off
    rw [he, call_ok, next_bind]
    cases r <;> exact ⟨_, rfl⟩
  · exact ⟨_, rfl⟩
  · exact ⟨_, rfl⟩
  rename_i h7
  obtain ⟨id, fieldType, len, hid, htype, hlen, ⟨hl, -⟩ | ⟨bytes, hl, -, hs, -⟩⟩ :=
    field_at (ρ := Except RZError Codecs) (Nat.le_of_not_lt h7)
  · simp only [hid, htype, hlen, next_bind, if_pos hl]
    split_ifs <;> exact ⟨_, rfl⟩
  · have hl' : ¬ off + 7 + len.toNat > payload.length := by omega
    simp only [hid, htype, hlen, hs, next_bind, if_neg hl']
    cases fromUtf8 bytes with
    | none => split_ifs <;> exact ⟨_, rfl⟩
    | some s => split_ifs <;> exact ⟨_, rfl⟩

/-- **No decoder panics**, whatever the payload: every index and slice is in range, every loop ends,
no addition of a date overflows, and every segment has its count when it is written. -/
theorem exists_decode_eq_ok (env : Env) (metrics : Metrics) (payload : Bytes) :
    (∀ D : Decoder, ∃ r, D.decode env metrics payload = .ok r) ∧
      (∃ r, decodeGetCodecsResponse payload = .ok r) ∧
      ∀ fieldCount off, ∃ r, extractErrorMessage payload fieldCount off = .ok r := by
  refine ⟨fun D => ?_, exists_decodeGetCodecsResponse_eq_ok payload,
    fun fieldCount off => exists_extractErrorMessage_eq_ok payload fieldCount off⟩
  obtain ⟨metrics', h, -⟩ := answers_decode env metrics D payload
  exact ⟨_, h⟩

/-! ## The answers to successful replies -/

section Success

variable {env : Env} {fieldCount : UInt16} {rest : Bytes} {a : Answer}

theorem exists_of_withField {id : UInt16} {check : Field → Prop} [DecidablePred check] {bs : Bytes}
    {k : Field → Bytes → Option Answer} (h : withField id check bs k = some a) :
    ∃ f rest, k f rest = some a := by
  rw [withField] at h
  split at h
  · cases h
  · rename_i f rest _
    exact ⟨f, rest, (Option.ite_none_right_eq_some.mp h).2⟩

/-- A search for properties is answered with members, unless its reply has one field. -/
theorem exists_members_of_searchPropAnswer (h1 : fieldCount ≠ 1)
    (h : searchPropAnswer fieldCount rest = some a) :
    ∃ members, successAnswer members = a := by
  rw [searchPropAnswer, if_neg h1] at h
  split_ifs at h
  · exact ⟨_, Option.some.inj h⟩
  · split at h
    · cases h
    · split_ifs at h
      exact ⟨_, Option.some.inj h⟩

/-- All decoders but that of SEARCHPROP answer a successful reply with members, if they understand
it. -/
theorem exists_members_of_success {D : Decoder} (hD : D ≠ .searchProp)
    (h : D.success env fieldCount rest = some a) : ∃ members, successAnswer members = a := by
  cases D with
  | searchProp => exact absurd rfl hD
  | simple =>
    simp only [Decoder.success, simpleAnswer, Option.ite_none_right_eq_some] at h
    exact ⟨_, Option.some.inj h.2⟩
  | scalarU8 name | boolean name =>
    simp only [Decoder.success, u8Answer] at h
    split at h
    · cases h
    · split_ifs at h
      exact ⟨_, Option.some.inj h⟩
  | searchAvail | getSegments =>
    simp only [Decoder.success, searchAvailAnswer, getSegmentsAnswer, listAnswer] at h
    split_ifs at h
    · exact ⟨_, Option.some.inj h⟩
    · split at h
      · cases h
      · exact ⟨_, Option.some.inj h⟩
  | propRoomList | propRoomDateList =>
    simp only [Decoder.success, propRoomListAnswer, propRoomDateListAnswer, listAnswer] at h
    split_ifs at h
    · exact ⟨_, Option.some.inj h⟩
    · split at h
      · cases h
      · split_ifs at h
        exact ⟨_, Option.some.inj h⟩
  | getPropRoomDay =>
    simp only [Decoder.success, getPropRoomDayAnswer, Option.ite_none_right_eq_some] at h
    obtain ⟨id, rest, h⟩ := exists_of_withField h.2
    obtain ⟨date, rest, h⟩ := exists_of_withField h
    obtain ⟨availability, rest, h⟩ := exists_of_withField h
    obtain ⟨price, rest, h⟩ := exists_of_withField h
    obtain ⟨mask, rest, h⟩ := exists_of_withField h
    split at h
    · exact ⟨_, Option.some.inj h⟩
    · cases h

end Success

/-! ## Cut replies -/

/-- A successful reply with the given fields. -/
def successBytes (fields : List Field) : Bytes :=
  headBytes (utf8 "SUCCESS") (UInt16.ofNat fields.length) ++ fields.flatMap Field.bytes

section Cut

variable {fields : List Field} {rest : Bytes}

theorem ofNat_length_ne {α : Type} {xs ys : List α} (hx : xs.length < ys.length)
    (hy : ys.length < 2 ^ 16) : UInt16.ofNat xs.length ≠ UInt16.ofNat ys.length := by
  intro h
  rw [← UInt16.toNat_inj, UInt16.toNat_ofNat', UInt16.toNat_ofNat', Nat.mod_eq_of_lt (by omega),
    Nat.mod_eq_of_lt (by omega)] at h
  omega

/-- A cut does not hold as many fields as announced. -/
theorem countedFields_of_cut (hn : fields.length < 2 ^ 16) (hf : ∀ f ∈ fields, f.Fits)
    (h : rest <+: fields.flatMap Field.bytes) (hr : rest ≠ fields.flatMap Field.bytes) :
    countedFields (UInt16.ofNat fields.length) rest = none := by
  rcases fieldsOf_of_cut hf h hr with hnone | ⟨gs, hg, hl⟩
  · exact countedFields_of_none hnone
  · rw [countedFields_of_some hg]
    exact if_neg fun h => ofNat_length_ne hl hn h.2

/-- A field is read off whole, or it is cut. -/
theorem withField_of_cut {f : Field} {id : UInt16} {check : Field → Prop} [DecidablePred check]
    {k : Field → Bytes → Option Answer} (hf : f.Fits)
    (hk : ∀ rest', rest' <+: fields.flatMap Field.bytes → rest' ≠ fields.flatMap Field.bytes →
      k f rest' = none)
    (h : rest <+: (f :: fields).flatMap Field.bytes)
    (hr : rest ≠ (f :: fields).flatMap Field.bytes) : withField id check rest k = none := by
  rw [List.flatMap_cons] at h hr
  rw [withField]
  rcases prefix_append_cases h with ⟨hc, hl⟩ | ⟨rest', rfl, hr'⟩
  · rw [takeField_of_cut hf hc hl]
  · rw [ne_eq, List.append_cancel_left_eq] at hr
    simp only [takeField_bytes_append hf, hk rest' hr' hr, ite_self]

/-- A cut of five fields is not a day. -/
theorem getPropRoomDayAnswer_of_cut (hn : fields.length = 5) (hf : ∀ f ∈ fields, f.Fits)
    (h : rest <+: fields.flatMap Field.bytes) (hr : rest ≠ fields.flatMap Field.bytes) :
    getPropRoomDayAnswer env 5 rest = none := by
  match fields, hn with
  | [id, date, availability, price, mask], _ =>
    simp only [List.forall_mem_cons] at hf
    obtain ⟨hid, hdate, havailability, hprice, hmask, -⟩ := hf
    rw [getPropRoomDayAnswer, if_pos rfl]
    refine withField_of_cut hid (fun rest h hr => ?_) h hr
    refine withField_of_cut hdate (fun rest h hr => ?_) h hr
    refine withField_of_cut havailability (fun rest h hr => ?_) h hr
    refine withField_of_cut hprice (fun rest h hr => ?_) h hr
    refine withField_of_cut hmask (fun rest h hr => ?_) h hr
    exact absurd (List.prefix_nil.mp h) hr

theorem takeField_of_takeFields_one {bs : Bytes} (h : takeFields 1 bs = none) :
    takeField bs = none := by
  rw [takeFields] at h
  split at h
  · assumption
  · cases h

/-- A cut after the head of a successful reply gives no answer. -/
theorem success_of_cut (D : Decoder) (hn : fields.length < 2 ^ 16) (hf : ∀ f ∈ fields, f.Fits)
    (h : rest <+: fields.flatMap Field.bytes) (hr : rest ≠ fields.flatMap Field.bytes) :
    D.success env (UInt16.ofNat fields.length) rest = none := by
  have hcount : (UInt16.ofNat fields.length).toNat = fields.length := by
    rw [UInt16.toNat_ofNat', Nat.mod_eq_of_lt hn]
  have h0 : UInt16.ofNat fields.length ≠ 0 := by
    intro h0
    rw [h0] at hcount
    rw [List.eq_nil_of_length_eq_zero hcount.symm] at h hr
    exact hr (List.prefix_nil.mp h)
  have hcounted := countedFields_of_cut hn hf h hr
  have htake : takeFields fields.length rest = none := takeFields_of_cut hf h hr
  have hone (h1 : UInt16.ofNat fields.length = 1) : takeField rest = none := by
    rw [show fields.length = 1 by rw [← hcount, h1]; rfl] at htake
    exact takeField_of_takeFields_one htake
  have hu8 (name : String) (value : UInt8 → Json Text) :
      u8Answer name value (UInt16.ofNat fields.length) rest = none := by
    rw [u8Answer]
    by_cases h1 : UInt16.ofNat fields.length = 1
    · rw [hone h1]
    · split
      · rfl
      · exact if_neg fun h => h1 h.1
  cases D with
  | simple => exact if_neg h0
  | scalarU8 name => exact hu8 name fun b => .nat b.toNat
  | boolean name => exact hu8 name fun b => .bool (b = 1)
  | searchProp =>
    rw [Decoder.success, searchPropAnswer, if_neg h0, hcount, htake]
    split_ifs with h1
    · rw [hone h1]
    · rfl
  | searchAvail => rw [Decoder.success, searchAvailAnswer, if_neg h0, hcounted, Option.bind_none]
  | propRoomList => rw [Decoder.success, propRoomListAnswer, if_neg h0, hcounted]
  | propRoomDateList => rw [Decoder.success, propRoomDateListAnswer, if_neg h0, hcounted]
  | getPropRoomDay =>
    rw [Decoder.success]
    by_cases h5 : UInt16.ofNat fields.length = 5
    · rw [h5]
      exact getPropRoomDayAnswer_of_cut env (by rw [← hcount, h5]; rfl) hf h hr
    · exact if_neg h5
  | getSegments => rw [Decoder.success, getSegmentsAnswer, if_neg h0, hcounted, Option.bind_none]

/-- **A successful reply that is cut is not accepted**: whatever fields it has, the answer to a
proper prefix is the fixed one to a payload that is not understood, and nothing is counted as
sent. -/
theorem decode_of_truncated (D : Decoder) {fields : List Field} {payload : Bytes}
    (hn : fields.length < 2 ^ 16) (hf : ∀ f ∈ fields, f.Fits)
    (h : payload <+: successBytes fields) (hne : payload ≠ successBytes fields) :
    D.decode env metrics payload = .ok (invalidResponse, metrics) ∧
      invalidResponse.status ≠ .ok := by
  have hstatus : (utf8 "SUCCESS").length < 256 := by decide
  have hnone : D.answer env payload = none := by
    rw [Decoder.answer, answerOf]
    rw [successBytes] at h hne
    rcases prefix_append_cases h with ⟨hc, hl⟩ | ⟨rest, rfl, hr⟩
    · rw [takeHead_of_cut hstatus hc hl]
    · rw [ne_eq, List.append_cancel_left_eq] at hne
      simp only [takeHead_headBytes hstatus, if_true]
      exact success_of_cut env D hn hf hr hne
  obtain ⟨metrics', hd, hm⟩ := answers_decode env metrics D payload
  rw [hd, hnone, hm hnone]
  exact ⟨rfl, by decide⟩

theorem decode_of_truncated_suite :
    Decoder.decode (.documented []) ⟨0, 0⟩ ((successBytes [⟨1, 0x01, utf8 "suite"⟩]).take 17)
        .propRoomList = .ok (invalidResponse, ⟨0, 0⟩) ∧ invalidResponse.status ≠ .ok :=
  decode_of_truncated (.documented []) ⟨0, 0⟩ .propRoomList (by decide)
    (by unfold Field.Fits; decide) (List.take_prefix _ _) (by decide)

end Cut

end RzProxy
