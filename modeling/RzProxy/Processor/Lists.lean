import RzProxy.Processor.Texts

/-!
# The decoders of lists

The shared decoders, and the decoders of property ids, room types, dates and segments, give the
answer that the reply stands for.

## Main results

* `readStringFields_eq`: the loop over string fields reads the fields of the reply
* `answers_simple`, `answers_u8`, `answers_searchProp`, `answers_propRoomList`,
  `answers_propRoomDateList`, `answers_getSegments`
-/

namespace RzProxy

open ByteString Evaluation Evaluation.Flow JsonText

variable {ρ : Type} (env : Env) (metrics : Metrics)

/-! ## Bodies -/

/-- The body of a success with one member. -/
theorem successBody_eq (name : String) (v : Json Text) :
    bodyOf (successAnswer [(.const name, v)]).members =
      utf8 "\x7b\"status\":\"success\",\"" ++ (utf8 name ++ (utf8 "\":" ++
        ((v.map Text.written).render ++ utf8 "\x7d"))) := by
  simp only [bodyOf, successAnswer, mapMembers, Json.map, Json.render, renderMembers, quoted,
    List.append_assoc, List.cons_append, List.nil_append, if_true, Bool.false_eq_true, if_false]
  rfl

theorem mapItems_eq_map {σ τ : Type} (f : σ → τ) (vs : List (Json σ)) :
    mapItems f vs = vs.map (Json.map f) := by
  induction vs with
  | nil => rfl
  | cons v vs ih => rw [mapItems, ih, List.map_cons]

/-- The body of a success with one array. -/
theorem arrayBody_eq (name : String) (vs : List (Json Text)) :
    bodyOf (successAnswer [(.const name, .arr vs)]).members =
      utf8 "\x7b\"status\":\"success\",\"" ++ (utf8 name ++ (utf8 "\":[" ++
        (renderItems true (vs.map (Json.map Text.written)) ++ utf8 "]\x7d"))) := by
  have h1 : utf8 "\":[" = utf8 "\":" ++ [0x5B] := by decide
  rw [successBody_eq, Json.map, Json.render, mapItems_eq_map, h1, utf8_close]
  simp

/-! ## The shared decoders -/

theorem answers_simple (payload : Bytes) :
    Answers metrics (answerOf simpleAnswer payload) (decodeSimpleResponse metrics payload) := by
  refine answers_of_readSuccess fun fieldCount off _ => ?_
  simp only [simpleAnswer]
  split
  · exact answers_next rfl
  · exact answers_next_invalid metrics

theorem answers_u8 (payload : Bytes) (fieldName : String) {value : UInt8 → Bytes}
    {json : UInt8 → Json Text} (hv : ∀ b, value b = ((json b).map Text.written).render) :
    Answers metrics (answerOf (u8Answer fieldName json) payload)
      (decodeU8Response metrics payload fieldName value) := by
  refine answers_of_readSuccess fun fieldCount off _ => ?_
  simp only [returnIf_bind]
  by_cases hc : fieldCount ≠ 1
  · have hn : u8Answer fieldName json fieldCount (payload.drop off) = none := by
      unfold u8Answer
      split
      · rfl
      · exact if_neg fun h => hc h.1
    rw [if_pos hc, hn]
    exact answers_invalid metrics
  rw [if_neg hc, u8Answer]
  by_cases h7 : off + 7 > payload.length
  · rw [if_pos h7, takeField_of_short (by rw [List.length_drop]; omega)]
    exact answers_invalid metrics
  rw [if_neg h7]
  obtain ⟨id, fieldType, len, hid, htype, hlen, ⟨hl, ht⟩ | ⟨bytes, hl, hb, hs, ht, he⟩⟩ :=
    field_at (ρ := Response × Metrics) (Nat.le_of_not_lt h7)
  · simp only [hid, htype, hlen, next_bind, ht]
    split
    · exact answers_invalid metrics
    · rw [if_pos (by omega)]
      exact answers_invalid metrics
  · simp only [hid, htype, hlen, next_bind, ht]
    by_cases hi : id ≠ 1 ∨ fieldType ≠ 0x02
    · rw [if_neg (by tauto), if_pos hi]
      exact answers_invalid metrics
    by_cases hone : len.toNat = 1
    · rw [if_pos (by rw [hb]; tauto), if_neg hi, if_neg (by omega), index_eq (by omega), next_bind]
      refine answers_next ?_
      -- the code reads the byte from the payload, not from the field
      have hval : bytes.getD 0 0 = payload.getD (off + 7) 0 := by
        rw [he, hone, List.drop_eq_getElem_cons (by omega), List.take_succ_cons,
          List.getD_cons_zero, List.getD_eq_getElem?_getD, List.getElem?_eq_getElem (by omega),
          Option.getD_some]
      rw [successBody_eq, ← hv, hval]
      simp
    · rw [if_neg (by omega), if_neg hi, if_pos (.inl hone)]
      exact answers_invalid metrics

/-! ## Lists of strings -/

/-- The loop over string fields, on the fields that are left: the items and the next id. -/
def walkStrings {α : Type} (f : Bytes → List α) :
    List α → UInt16 → List Field → Option (List α × UInt16)
  | items, k, [] => some (items, k)
  | items, k, g :: fs =>
    if g.id = k ∧ g.fieldType = 0x01 then walkStrings f (items ++ f g.data) (k + 1) fs else none

theorem ofNat_length_cons {α : Type} (k : UInt16) (a : α) (as : List α) :
    k + UInt16.ofNat (a :: as).length = k + 1 + UInt16.ofNat as.length := by
  rw [List.length_cons, UInt16.ofNat_add, UInt16.add_comm (UInt16.ofNat as.length),
    UInt16.add_assoc]
  rfl

theorem one_add_sub_one (n : UInt16) : 1 + n - 1 = n := by
  rw [UInt16.add_comm, UInt16.add_sub_cancel]

theorem strings_cons {f : Field} {fs : List Field} :
    Strings (f :: fs) ↔ f.fieldType = 0x01 ∧ Strings fs := List.forall_mem_cons

theorem walkStrings_eq {α : Type} (f : Bytes → List α) (items : List α) (k : UInt16)
    (fs : List Field) :
    walkStrings f items k fs =
      if Numbered k fs ∧ Strings fs then
        some (items ++ fs.flatMap (fun g => f g.data), k + UInt16.ofNat fs.length)
      else none := by
  induction fs generalizing items k with
  | nil => simp [walkStrings, Numbered, Strings]
  | cons g fs ih =>
    simp only [walkStrings, ih, Numbered, strings_cons, List.flatMap_cons, ofNat_length_cons,
      List.append_assoc]
    split_ifs <;> tauto

/-- One round reads a field, if it has the next id and is a string. -/
theorem stringFieldRound_reads {α : Type} {push : List α → Bytes → List α} {f : Bytes → List α}
    (hpush : ∀ items bytes, push items bytes = items ++ f bytes) (data : Bytes)
    (s : List α × UInt16 × ℕ) (h7 : s.2.2 + 7 ≤ data.length) :
    ReadsFields data (fun s => s.2.2) (fun s => walkStrings f s.1 s.2.1)
      (stringFieldRound (invalidResponse, metrics) data push) (invalidResponse, metrics) s := by
  obtain ⟨items, k, off⟩ := s
  obtain ⟨id, fieldType, len, hid, htype, hlen, ⟨hl, ht⟩ | ⟨bytes, hl, -, hs, ht, -⟩⟩ :=
    field_at (ρ := Response × Metrics) (show off + 7 ≤ data.length from h7)
  · refine readsFields_of_none ht ?_
    simp only [stringFieldRound, hid, htype, hlen, next_bind, returnIf_bind, if_pos hl, ite_self]
  have hl' : ¬ off + 7 + len.toNat > data.length := by omega
  by_cases hf : id = k ∧ fieldType = 0x01
  · refine readsFields_one (t := (items ++ f bytes, k + 1, off + 7 + len.toNat)) ht
      (fun fs => if_pos hf) ?_
    simp only [stringFieldRound, hid, htype, hlen, hs, next_bind, returnIf_bind, if_neg hl', hpush,
      if_neg (not_not.mpr hf.1), if_neg (not_not.mpr hf.2), pure_eq]
  · refine readsFields_of_ret ht (fun fs _ _ => if_neg hf) ?_
    simp only [stringFieldRound, hid, htype, hlen, hs, next_bind, returnIf_bind, if_neg hl']
    by_cases hi : id = k
    · rw [if_neg (not_not.mpr hi), if_pos fun h => hf ⟨hi, h⟩]
    · rw [if_pos hi]

/-- The walk over all fields agrees with the strings of the fields. -/
theorem agree_walkStrings {α : Type} (f : Bytes → List α) (fieldCount : UInt16) (fs : List Field) :
    Agree fieldCount id (walkStrings f [] 1 fs)
      ((if Numbered 1 fs ∧ UInt16.ofNat fs.length = fieldCount then some fs else none).bind
        fun fs => if Strings fs then some (fs.flatMap fun g => f g.data) else none) := by
  rw [walkStrings_eq, Agree]
  by_cases hns : Numbered 1 fs ∧ Strings fs
  · rw [if_pos hns]
    by_cases hc : UInt16.ofNat fs.length = fieldCount
    · rw [if_pos ⟨hns.1, hc⟩, Option.bind_some, if_pos hns.2]
      exact .inr ⟨_, _, rfl, rfl, by rw [one_add_sub_one, hc]⟩
    · rw [if_neg fun h => hc h.2]
      refine .inl ⟨rfl, fun items k h => ?_⟩
      obtain ⟨-, rfl⟩ := Prod.mk.inj (Option.some.inj h)
      rwa [one_add_sub_one]
  · rw [if_neg hns]
    refine .inl ⟨?_, fun _ _ h => by cases h⟩
    split_ifs with hn
    · rw [Option.bind_some, if_neg fun h => hns ⟨hn.1, h⟩]
    · rfl

/-- **The loop over string fields** reads all fields of the reply, if they are numbered and strings
and as many as announced. -/
theorem readStringFields_eq {α : Type} {push : List α → Bytes → List α} {f : Bytes → List α}
    (hpush : ∀ items bytes, push items bytes = items ++ f bytes) (data : Bytes)
    (fieldCount : UInt16) (off : ℕ) :
    readStringFields (invalidResponse, metrics) data push fieldCount off =
      match (countedFields fieldCount (data.drop off)).bind
        fun fs => if Strings fs then some (fs.flatMap fun g => f g.data) else none with
      | none => ret (invalidResponse, metrics)
      | some items => next items := by
  have hloop := whileLoop_counted (fun s => (s.1, s.2.1)) (fun _ => rfl)
    (fun s hs => (stringFieldRound_reads metrics hpush data s hs).keepsFields hs) ([], 1, off)
    (agree_walkStrings f fieldCount)
  rw [readStringFields]
  rcases hloop with ⟨hn, hw | ⟨t, hw, hc⟩⟩ | ⟨items, t, hb, hw, rfl, hc⟩
  · rw [hw, hn, ret_bind]
  · rw [hw, hn, next_bind]
    simp only [returnIf_bind, if_pos hc]
  · rw [hw, hb, next_bind]
    simp only [returnIf_bind, if_neg (not_not.mpr hc)]
    rfl

/-- The body of a list of strings, as it is put together from the strings `texts`. -/
theorem listBody_eq (name : String) (texts : List Text) :
    bodyOf (listAnswer name texts).members =
      pushItems pushQuoted (utf8 "\x7b\"status\":\"success\",\"" ++ (utf8 name ++ utf8 "\":["))
        (texts.map Text.written) ++ utf8 "]\x7d" := by
  rw [listAnswer, arrayBody_eq, pushItems_eq pushQuoted_eq, List.map_map, List.map_map]
  simp [Function.comp_def, Json.map]

theorem pushItems_map {α β : Type} (write : Bytes → β → Bytes) (f : α → β) (json : Bytes)
    (items : List α) :
    pushItems (fun json a => write json (f a)) json items = pushItems write json (items.map f) := by
  rw [pushItems, pushItems, List.zipIdx_map, List.foldl_map]
  rfl

/-- Strings are answered with what the rest of a decoder makes of them. -/
theorem answers_readStringFields {α : Type} {push : List α → Bytes → List α} {f : Bytes → List α}
    (hpush : ∀ items bytes, push items bytes = items ++ f bytes) {payload : Bytes}
    {fieldCount : UInt16} {off : ℕ} {answer : List Field → Answer}
    {k : List α → Flow (Response × Metrics) (Response × Metrics)}
    (hk : ∀ fs, Answers metrics (some (answer fs)) (run (k (fs.flatMap fun g => f g.data)))) :
    Answers metrics
      (match countedFields fieldCount (payload.drop off) with
        | none => none
        | some fs => if Strings fs then some (answer fs) else none)
      (run (readStringFields (invalidResponse, metrics) payload push fieldCount off >>= k)) := by
  rw [readStringFields_eq metrics hpush]
  cases countedFields fieldCount (payload.drop off) with
  | none => exact answers_invalid metrics
  | some fs =>
    rw [Option.bind_some]
    by_cases hs : Strings fs
    · simp only [if_pos hs, next_bind]
      exact hk fs
    · simp only [if_neg hs]
      exact answers_invalid metrics

theorem answers_propRoomList (payload : Bytes) :
    Answers metrics (answerOf propRoomListAnswer payload)
      (decodePropRoomListResponse metrics payload) := by
  refine answers_of_readSuccess fun fieldCount off _ => ?_
  rw [propRoomListAnswer]
  by_cases hc : fieldCount = 0
  · simp only [if_pos hc]
    exact answers_next rfl
  simp only [if_neg hc]
  refine answers_readStringFields metrics (f := fun bytes => [fromUtf8Lossy bytes])
    (fun _ _ => rfl) fun fs => answers_next ?_
  have hp : utf8 "\x7b\"status\":\"success\",\"room_types\":[" =
    utf8 "\x7b\"status\":\"success\",\"" ++ (utf8 "room_types" ++ utf8 "\":[") := by decide
  rw [listBody_eq, hp, pushItems_map pushQuoted utf8, ← List.map_eq_flatMap, List.map_map,
    List.map_map]
  simp [Function.comp_def, Text.written]

theorem flatMap_nonempty (fs : List Field) :
    (fs.flatMap fun g => if g.data ≠ [] then [g.data] else []) =
      (fs.map Field.data).filter (· ≠ []) := by
  induction fs with
  | nil => rfl
  | cons f fs ih => by_cases hf : f.data = [] <;> simpa [hf] using ih

theorem answers_propRoomDateList (payload : Bytes) :
    Answers metrics (answerOf propRoomDateListAnswer payload)
      (decodePropRoomDateListResponse metrics payload) := by
  refine answers_of_readSuccess fun fieldCount off _ => ?_
  rw [propRoomDateListAnswer]
  by_cases hc : fieldCount = 0
  · simp only [if_pos hc]
    exact answers_next rfl
  simp only [if_neg hc]
  have hpush (dates : List Bytes) (bytes : Bytes) :
      (if bytes ≠ [] then dates ++ [bytes] else dates) =
        dates ++ if bytes ≠ [] then [bytes] else [] := by
    by_cases hb : bytes = [] <;> simp [hb]
  refine answers_readStringFields metrics (f := fun bytes => if bytes ≠ [] then [bytes] else [])
    hpush fun fs => answers_next ?_
  have hp : utf8 "\x7b\"status\":\"success\",\"dates\":[" =
    utf8 "\x7b\"status\":\"success\",\"" ++ (utf8 "dates" ++ utf8 "\":[") := by decide
  rw [listBody_eq, hp, List.map_map, flatMap_nonempty]
  simp [Function.comp_def, Text.written]

/-! ## Property ids -/

/-- The first `n` fields, numbered from `k` on, all of them strings. -/
def namedFields (k : UInt16) (n : ℕ) (bs : Bytes) : Option (List Field) :=
  match takeFields n bs with
  | none => none
  | some (fs, _) => if Numbered k fs ∧ Strings fs then some fs else none

theorem namedFields_succ (k : UInt16) (n : ℕ) (bs : Bytes) :
    namedFields k (n + 1) bs =
      match takeField bs with
      | none => none
      | some (f, rest) =>
        if f.id = k ∧ f.fieldType = 0x01 then (namedFields (k + 1) n rest).map (f :: ·)
        else none := by
  unfold namedFields
  rw [takeFields]
  cases takeField bs with
  | none => rfl
  | some p =>
    obtain ⟨f, rest⟩ := p
    simp only
    cases takeFields n rest with
    | none => simp
    | some q =>
      simp only [Option.map_some, Numbered, strings_cons]
      split_ifs <;> first | rfl | tauto

/-- **The loop over the expected ids** reads as many fields, if they are numbered and strings. -/
theorem foldlM_searchPropRound_eq (data : Bytes) (n j : ℕ) (properties : List String) (off : ℕ) :
    (namedFields (UInt16.ofNat j) n (data.drop off) = none ∧
      ((List.range' j n).map UInt16.ofNat).foldlM
        (searchPropRound env (invalidResponse, metrics) data) (properties, off) =
        ret (invalidResponse, metrics)) ∨
    ∃ fs off', namedFields (UInt16.ofNat j) n (data.drop off) = some fs ∧
      ((List.range' j n).map UInt16.ofNat).foldlM
        (searchPropRound env (invalidResponse, metrics) data) (properties, off) =
        next (properties ++ fs.map fun f => fromUtf8Lossy (propertyId f.data), off') := by
  -- induction on the rounds left
  induction n generalizing j properties off with
  | zero => exact .inr ⟨[], off, by simp [namedFields, takeFields, Numbered, Strings], by simp⟩
  | succ n ih =>
    rw [List.range'_succ, List.map_cons, List.foldlM_cons, namedFields_succ]
    by_cases h7 : off + 7 > data.length
    · refine .inl ⟨by rw [takeField_of_short (by rw [List.length_drop]; omega)], ?_⟩
      simp only [searchPropRound, returnIf_of_pos h7, ret_bind]
    obtain ⟨id, fieldType, len, hid, htype, hlen, ⟨hl, ht⟩ | ⟨bytes, hl, -, hs, ht, -⟩⟩ :=
      field_at (ρ := Response × Metrics) (Nat.le_of_not_lt h7)
    · refine .inl ⟨by rw [ht], ?_⟩
      simp only [searchPropRound, returnIf_of_neg h7, hid, htype, hlen, next_bind, returnIf_bind,
        if_pos hl, ite_self, ret_bind]
    · have hl' : ¬ off + 7 + len.toNat > data.length := by omega
      simp only [ht, searchPropRound, returnIf_of_neg h7, hid, htype, hlen, hs, next_bind,
        returnIf_bind, if_neg hl', bytesToPropertyId_eq, call_ok, pure_eq]
      by_cases hi : id = UInt16.ofNat j
      · by_cases hf : fieldType = 0x01
        · rw [if_neg (not_not.mpr hi), if_neg (not_not.mpr hf), if_pos ⟨hi, hf⟩, next_bind]
          have hj : UInt16.ofNat (j + 1) = UInt16.ofNat j + 1 := UInt16.ofNat_add j 1
          rw [← hj]
          rcases ih (j + 1) (properties ++ [fromUtf8Lossy (propertyId bytes)])
            (off + 7 + len.toNat) with ⟨hn, hr⟩ | ⟨fs, off', hn, hr⟩
          · exact .inl ⟨by rw [hn]; rfl, hr⟩
          · exact .inr ⟨_, off', by rw [hn]; rfl, by rw [hr]; simp⟩
        · rw [if_neg (not_not.mpr hi), if_pos hf, if_neg fun h => hf h.2, ret_bind]
          exact .inl ⟨rfl, rfl⟩
      · rw [if_pos hi, if_neg fun h => hi h.1, ret_bind]
        exact .inl ⟨rfl, rfl⟩

/-- The single field of a reply is an error message. -/
theorem answers_searchPropMessage (payload : Bytes) (off : ℕ) :
    Answers metrics (searchPropAnswer 1 (payload.drop off))
      (run (searchPropMessage (invalidResponse, metrics) metrics payload off)) := by
  have h01 : ¬ (1 : UInt16) = 0 := by decide
  rw [searchPropAnswer, if_neg h01, if_pos rfl]
  by_cases h7 : off + 7 > payload.length
  · rw [takeField_of_short (by rw [List.length_drop]; omega)]
    simp only [searchPropMessage, returnIf_of_pos h7, ret_bind]
    exact answers_invalid metrics
  obtain ⟨id, fieldType, len, hid, htype, hlen, ⟨hl, ht⟩ | ⟨bytes, hl, -, hs, ht, -⟩⟩ :=
    field_at (ρ := Response × Metrics) (Nat.le_of_not_lt h7)
  · simp only [ht, searchPropMessage, returnIf_of_neg h7, hid, htype, hlen, next_bind,
      returnIf_bind, if_pos hl, ite_self]
    exact answers_invalid metrics
  · have hl' : ¬ off + 7 + len.toNat > payload.length := by omega
    simp only [ht, searchPropMessage, returnIf_of_neg h7, hid, htype, hlen, hs, next_bind,
      returnIf_bind, if_neg hl', pure_eq]
    by_cases hi : id ≠ 1 ∨ fieldType ≠ 0x01
    · rw [if_pos hi, if_neg (by tauto)]
      exact answers_invalid metrics
    · rw [if_neg hi, if_pos (by tauto)]
      by_cases he : bytes = []
      · rw [if_pos he, if_pos he]
        exact answers_next (errorBody_eq (.const "UNKNOWN_ERROR"))
      · rw [if_neg he, if_neg he]
        exact answers_next (errorBody_eq (.copied bytes))

theorem answers_searchProp (payload : Bytes) :
    Answers metrics (answerOf searchPropAnswer payload)
      (decodeSearchPropResponse env metrics payload) := by
  refine answers_of_readSuccess fun fieldCount off _ => ?_
  by_cases h0 : fieldCount = 0
  · rw [searchPropAnswer, if_pos h0]
    simp only [if_pos h0]
    exact answers_next rfl
  simp only [if_neg h0]
  by_cases h1 : fieldCount = 1
  · subst h1
    simp only [if_true]
    exact answers_searchPropMessage metrics payload off
  simp only [if_neg h1]
  have hj : (1 : UInt16) = UInt16.ofNat 1 := rfl
  have hans : searchPropAnswer fieldCount (payload.drop off) =
      (namedFields 1 fieldCount.toNat (payload.drop off)).map fun fs =>
        listAnswer "properties" (fs.map fun f => .lossy (propertyId f.data)) := by
    rw [searchPropAnswer, if_neg h0, if_neg h1, namedFields]
    cases takeFields fieldCount.toNat (payload.drop off) with
    | none => rfl
    | some p =>
      simp only
      split <;> rfl
  rcases foldlM_searchPropRound_eq env metrics payload fieldCount.toNat 1 [] off with
    ⟨hn, hr⟩ | ⟨fs, off', hn, hr⟩
  · rw [hans, hj, hn, hr]
    exact answers_invalid metrics
  · rw [hans, hj, hn, hr, List.nil_append, next_bind]
    refine answers_next ?_
    have hp : utf8 "\x7b\"status\":\"success\",\"properties\":[" =
      utf8 "\x7b\"status\":\"success\",\"" ++ (utf8 "properties" ++ utf8 "\":[") := by decide
    rw [listBody_eq, hp, pushItems_map pushQuoted utf8, List.map_map, List.map_map]
    simp [Function.comp_def, Text.written]

/-! ## Segments -/

/-- The loop over names and counts, on the fields that are left: the segments and the next id. -/
def walkSegments : List (Bytes × Option UInt32) → UInt16 → List Field →
    Option (List (Bytes × Option UInt32) × UInt16)
  | segments, k, [] => some (segments, k)
  | segments, k, f :: fs =>
    if f.id = k then
      if k % 2 = 1 then
        if f.fieldType = 0x01 then walkSegments (segments ++ [(f.data, none)]) (k + 1) fs else none
      else if f.fieldType = 0x03 ∧ f.data.length = 4 then
        match segments.getLast? with
        | some last =>
          walkSegments (segments.dropLast ++ [(last.1, some (u32FromLE f.data))]) (k + 1) fs
        | none => none
      else none
    else none

/-- One round reads a name at an odd id, and its count at an even one. -/
theorem getSegmentsRound_reads (data : Bytes) (s : List (Bytes × Option UInt32) × UInt16 × ℕ)
    (h7 : s.2.2 + 7 ≤ data.length) :
    ReadsFields data (fun s => s.2.2) (fun s => walkSegments s.1 s.2.1)
      (getSegmentsRound (invalidResponse, metrics) data) (invalidResponse, metrics) s := by
  obtain ⟨segments, k, off⟩ := s
  obtain ⟨id, fieldType, len, hid, htype, hlen, ⟨hl, ht⟩ | ⟨bytes, hl, hb, hs, ht, -⟩⟩ :=
    field_at (ρ := Response × Metrics) (show off + 7 ≤ data.length from h7)
  · refine readsFields_of_none ht ?_
    simp only [getSegmentsRound, hid, htype, hlen, next_bind, returnIf_bind, if_pos hl, ite_self]
  have hl' : ¬ off + 7 + len.toNat > data.length := by omega
  by_cases hi : id = k
  swap
  · refine readsFields_of_ret ht (fun fs _ _ => if_neg hi) ?_
    simp only [getSegmentsRound, hid, htype, hlen, next_bind, returnIf_bind, if_pos hi]
  -- odd ids are names, even ids are counts of the name before
  by_cases hodd : k % 2 = 1
  · by_cases hf : fieldType = 0x01
    · refine readsFields_one (t := (segments ++ [(bytes, none)], k + 1, off + 7 + len.toNat)) ht
        (fun fs => by simp only [walkSegments, if_pos hi, if_pos hodd, if_pos hf]) ?_
      simp only [getSegmentsRound, hid, htype, hlen, hs, next_bind, returnIf_bind, if_neg hl',
        if_neg (not_not.mpr hi), if_pos hodd, if_neg (not_not.mpr hf), pure_eq]
    · refine readsFields_of_ret ht
        (fun fs _ _ => by simp only [walkSegments, if_pos hi, if_pos hodd, if_neg hf]) ?_
      simp only [getSegmentsRound, hid, htype, hlen, hs, next_bind, returnIf_bind, if_neg hl',
        if_neg (not_not.mpr hi), if_pos hodd, if_pos hf]
  · by_cases hf : fieldType = 0x03 ∧ bytes.length = 4
    · have hcond : ¬ (fieldType ≠ 0x03 ∨ len.toNat ≠ 4) := by
        rw [← hb]
        tauto
      cases hlast : segments.getLast? with
      | none =>
        refine readsFields_of_ret ht (fun fs _ _ => by
          simp only [walkSegments, if_pos hi, if_neg hodd, if_pos hf, hlast]) ?_
        simp only [getSegmentsRound, hid, htype, hlen, hs, next_bind, returnIf_bind, if_neg hl',
          if_neg (not_not.mpr hi), if_neg hodd, if_neg hcond, u32At_zero hf.2, hlast]
      | some last =>
        refine readsFields_one (t := (segments.dropLast ++ [(last.1, some (u32FromLE bytes))],
          k + 1, off + 7 + len.toNat)) ht (fun fs => by
          simp only [walkSegments, if_pos hi, if_neg hodd, if_pos hf, hlast]) ?_
        simp only [getSegmentsRound, hid, htype, hlen, hs, next_bind, returnIf_bind, if_neg hl',
          if_neg (not_not.mpr hi), if_neg hodd, if_neg hcond, u32At_zero hf.2, hlast, pure_eq]
    · have hcond : fieldType ≠ 0x03 ∨ len.toNat ≠ 4 := by
        rw [← hb]
        tauto
      refine readsFields_of_ret ht
        (fun fs _ _ => by simp only [walkSegments, if_pos hi, if_neg hodd, if_neg hf]) ?_
      simp only [getSegmentsRound, hid, htype, hlen, hs, next_bind, returnIf_bind, if_neg hl',
        if_neg (not_not.mpr hi), if_neg hodd, if_pos hcond]

/-- The next id counts the fields. -/
theorem snd_walkSegments {segments segments' : List (Bytes × Option UInt32)} {k k' : UInt16}
    {fs : List Field} (h : walkSegments segments k fs = some (segments', k')) :
    k' = k + UInt16.ofNat fs.length := by
  induction fs generalizing segments k with
  | nil =>
    cases h
    simp
  | cons f fs ih =>
    rw [ofNat_length_cons]
    rw [walkSegments] at h
    split_ifs at h
    · exact ih h
    · split at h
      · exact ih h
      · cases h

theorem mod_two_eq_one_iff {k : UInt16} : k % 2 = 1 ↔ k.toNat % 2 = 1 := by
  rw [← UInt16.toNat_inj, UInt16.toNat_mod]
  rfl

/-- Ids are odd in turn, also where they wrap around. -/
theorem add_one_mod_two {k : UInt16} (hk : k % 2 = 1) :
    ¬ (k + 1) % 2 = 1 ∧ (k + 1 + 1) % 2 = 1 := by
  have h1 : (1 : UInt16).toNat = 1 := rfl
  simp only [mod_two_eq_one_iff, UInt16.toNat_add, h1] at hk ⊢
  omega

/-- Names and counts in turn, from an odd id on. -/
theorem walkSegments_eq {k : UInt16} (hk : k % 2 = 1) (segments : List (Bytes × Option UInt32))
    {fs : List Field} (hfs : fs.length % 2 = 0) :
    walkSegments segments k fs =
      if Numbered k fs then
        (segmentsOf fs).map fun ps =>
          (segments ++ ps.map fun p => (p.1, some p.2), k + UInt16.ofNat fs.length)
      else none := by
  induction fs using segmentsOf.induct generalizing k segments with
  | case1 => simp [walkSegments, Numbered, segmentsOf]
  | case2 f => simp at hfs
  | case3 name count fs hcond ih =>
    obtain ⟨heven, hodd⟩ := add_one_mod_two hk
    have hfs' : fs.length % 2 = 0 := by
      simp only [List.length_cons] at hfs
      omega
    simp only [walkSegments, if_pos hk, if_neg heven, if_pos hcond.1, if_pos hcond.2,
      List.getLast?_concat, List.dropLast_concat, segmentsOf, if_pos hcond, Numbered,
      ih hodd _ hfs', ofNat_length_cons]
    by_cases hn : name.id = k ∧ count.id = k + 1 ∧ Numbered (k + 1 + 1) fs
    · rw [if_pos hn, if_pos hn.1, if_pos hn.2.1, if_pos hn.2.2]
      cases segmentsOf fs <;> simp
    · rw [if_neg hn]
      split_ifs <;> first | rfl | tauto
  | case4 name count fs hcond =>
    obtain ⟨heven, -⟩ := add_one_mod_two hk
    simp only [walkSegments, if_pos hk, if_neg heven, List.getLast?_concat, List.dropLast_concat,
      segmentsOf, if_neg hcond, Option.map_none, ite_self]
    split_ifs <;> first | rfl | tauto

/-- The object of a segment, as it is put together. -/
theorem segmentObject_eq (s : Bytes × UInt32) :
    ((segmentObject s).map Text.written).render =
      utf8 "\x7b\"segment\":\"" ++ (s.1 ++ (utf8 "\",\"propCount\":" ++
        (decimal s.2.toNat ++ utf8 "\x7d"))) := by
  simp only [segmentObject, Json.map, mapMembers, Json.render, renderMembers, quoted, if_true,
    Bool.false_eq_true, if_false, List.append_assoc, List.cons_append, List.nil_append]
  rfl

theorem pushSegment_some (json : Bytes) (s : Bytes × UInt32) (i : ℕ) :
    pushSegment json (s.1, some s.2) i = next ((if i > 0 then json ++ utf8 "," else json) ++
      ((segmentObject s).map Text.written).render) := by
  simp only [pushSegment, unwrap_some, next_bind, pure_eq, segmentObject_eq, List.append_assoc]

/-- The loop over the segments, each of which has its count. -/
theorem foldlM_pushSegment (segments : List (Bytes × UInt32)) (k : ℕ) (json : Bytes) :
    ((segments.map fun p => (p.1, some p.2)).zipIdx k).foldlM
        (fun json p => pushSegment json p.1 p.2) json =
      next (json ++ renderItems (decide (k = 0))
        (segments.map fun s => (segmentObject s).map Text.written)) := by
  induction segments generalizing k json with
  | nil => simp [renderItems]
  | cons s segments ih =>
    simp only [List.map_cons, List.zipIdx_cons, List.foldlM_cons, pushSegment_some, next_bind, ih,
      renderItems]
    rcases k with _ | k <;> simp [utf8_comma]

/-- Fields that are as many as an even count are even in number. -/
theorem length_even_of_count {n : ℕ} {fieldCount : UInt16} (hn : UInt16.ofNat n = fieldCount)
    (he : fieldCount % 2 = 0) : n % 2 = 0 := by
  have h2 : (2 : UInt16).toNat = 2 := rfl
  rw [← hn, ← UInt16.toNat_inj, UInt16.toNat_mod, UInt16.toNat_ofNat', h2] at he
  simp only [UInt16.toNat_zero] at he
  omega

theorem count_even_of_length {n : ℕ} {fieldCount : UInt16} (hn : UInt16.ofNat n = fieldCount)
    (he : n % 2 = 0) : fieldCount % 2 = 0 := by
  have h2 : (2 : UInt16).toNat = 2 := rfl
  rw [← hn, ← UInt16.toNat_inj, UInt16.toNat_mod, UInt16.toNat_ofNat', h2]
  simp only [UInt16.toNat_zero]
  omega

theorem segmentsOf_length {fs : List Field} {ps : List (Bytes × UInt32)}
    (h : segmentsOf fs = some ps) : fs.length % 2 = 0 := by
  induction fs using segmentsOf.induct generalizing ps with
  | case1 => rfl
  | case2 f => cases h
  | case3 name count fs hcond ih =>
    rw [segmentsOf, if_pos hcond, Option.map_eq_some_iff] at h
    obtain ⟨qs, hq, -⟩ := h
    have := ih hq
    simp only [List.length_cons]
    omega
  | case4 name count fs hcond => rw [segmentsOf, if_neg hcond] at h; cases h

/-- The walk over all fields agrees with the segments, when an even number of fields is
announced. -/
theorem agree_walkSegments (fs : List Field) {fieldCount : UInt16} (he : fieldCount % 2 = 0) :
    Agree fieldCount (fun ps : List (Bytes × UInt32) => ps.map fun p => (p.1, some p.2))
      (walkSegments [] 1 fs)
      ((if Numbered 1 fs ∧ UInt16.ofNat fs.length = fieldCount then some fs else none).bind
        segmentsOf) := by
  by_cases hc : UInt16.ofNat fs.length = fieldCount
  · rw [walkSegments_eq (k := 1) (by decide) [] (length_even_of_count hc he)]
    by_cases hn : Numbered 1 fs
    · rw [if_pos hn, if_pos ⟨hn, hc⟩, Option.bind_some]
      cases segmentsOf fs with
      | none => exact .inl ⟨rfl, fun _ _ h => by cases h⟩
      | some ps => exact .inr ⟨ps, _, rfl, rfl, by rw [one_add_sub_one, hc]⟩
    · rw [if_neg hn, if_neg fun h => hn h.1]
      exact .inl ⟨rfl, fun _ _ h => by cases h⟩
  · rw [if_neg fun h => hc h.2]
    refine .inl ⟨rfl, fun segments k h => ?_⟩
    rw [snd_walkSegments h, one_add_sub_one]
    exact hc

theorem answers_getSegments (payload : Bytes) :
    Answers metrics (answerOf getSegmentsAnswer payload)
      (decodeGetSegmentsResponse metrics payload) := by
  refine answers_of_readSuccess fun fieldCount off _ => ?_
  rw [getSegmentsAnswer]
  by_cases h0 : fieldCount = 0
  · simp only [if_pos h0]
    exact answers_next rfl
  simp only [if_neg h0, returnIf_bind]
  by_cases he : fieldCount % 2 = 0
  · rw [if_neg (not_not.mpr he)]
    have hloop := whileLoop_counted (fun s => (s.1, s.2.1)) (fun _ => rfl)
      (fun s hs => (getSegmentsRound_reads metrics payload s hs).keepsFields hs) ([], 1, off)
      (fun fs => agree_walkSegments fs he)
    rcases hloop with ⟨hn, hw | ⟨t, hw, hc⟩⟩ | ⟨ps, ⟨segments, k, off'⟩, hps, hw, hval, hc⟩
    · rw [hw, hn]
      exact answers_invalid metrics
    · rw [hw, hn, next_bind]
      simp only [if_pos hc]
      exact answers_invalid metrics
    · rw [hw, hps, next_bind]
      simp only at hval hc
      simp only [hc, hval, ne_eq, not_true, if_false, foldlM_pushSegment, next_bind]
      refine answers_next ?_
      have hp : utf8 "\x7b\"status\":\"success\",\"segments\":[" =
        utf8 "\x7b\"status\":\"success\",\"" ++ (utf8 "segments" ++ utf8 "\":[") := by decide
      rw [arrayBody_eq, hp, List.map_map]
      simp [Function.comp_def]
  · rw [if_pos he]
    have hn : (countedFields fieldCount (payload.drop off)).bind segmentsOf = none := by
      rw [Option.bind_eq_none_iff]
      intro fs hfs
      cases hps : segmentsOf fs with
      | none => rfl
      | some ps =>
        exact absurd (count_even_of_length (length_of_countedFields hfs) (segmentsOf_length hps)) he
    rw [hn]
    exact answers_invalid metrics

end RzProxy
