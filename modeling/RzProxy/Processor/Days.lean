import RzProxy.Processor.Lists

/-!
# The decoders of days

The decoder of one day and the decoder of the properties that are available, with a day record of
eleven bytes for each day, give the answer that the reply stands for.

## Main definitions

* `walkAvail`, `walkDays`: what the loop makes of the fields that are left
* `propertyRound`: the part of a round that comes after the field of a property

## Main results

* `readField_eq`: the reading of a field
* `searchAvailRound_reads`: a round reads the fields that the walk takes
* `answers_getPropRoomDay`, `answers_searchAvail`
-/

namespace RzProxy

open ByteString Evaluation Evaluation.Flow JsonText

variable (env : Env) (metrics : Metrics)

/-! ## One day -/

/-- The reading of a field by `read_field!`. -/
theorem readField_eq (data : Bytes) (off : ℕ) :
    (takeField (data.drop off) = none ∧
      readField (invalidResponse, metrics) data off = ret (invalidResponse, metrics)) ∨
    ∃ f off', takeField (data.drop off) = some (f, data.drop off') ∧ off' ≤ data.length ∧
      readField (invalidResponse, metrics) data off = next (f.id, f.fieldType, f.data, off') := by
  by_cases h7 : off + 7 > data.length
  · exact .inl ⟨takeField_of_short (by rw [List.length_drop]; omega),
      by simp only [readField, returnIf_of_pos h7, ret_bind]⟩
  obtain ⟨id, fieldType, len, hid, htype, hlen, ⟨hl, ht⟩ | ⟨bytes, hl, -, hs, ht, -⟩⟩ :=
    field_at (ρ := Response × Metrics) (Nat.le_of_not_lt h7)
  · refine .inl ⟨ht, ?_⟩
    simp only [readField, returnIf_of_neg h7, hid, htype, hlen, next_bind, returnIf_of_pos hl,
      ret_bind]
  · have hl' : ¬ off + 7 + len.toNat > data.length := by omega
    refine .inr ⟨_, _, ht, hl, ?_⟩
    simp only [readField, returnIf_of_neg h7, hid, htype, hlen, hs, next_bind, returnIf_of_neg hl',
      pure_eq]

/-- A field that is read and checked, in a decoder that goes on with `K`. -/
theorem answers_withField {id : UInt16} {check : Field → Prop} [DecidablePred check]
    {k : Field → Bytes → Option Answer} {payload : Bytes} {off : ℕ}
    {K : UInt16 × UInt8 × Bytes × ℕ → Flow (Response × Metrics) (Response × Metrics)}
    (hbad : ∀ f off', ¬ (f.id = id ∧ check f) →
      K (f.id, f.fieldType, f.data, off') = ret (invalidResponse, metrics))
    (hgood : ∀ f off', off' ≤ payload.length → f.id = id → check f →
      Answers metrics (k f (payload.drop off')) (run (K (f.id, f.fieldType, f.data, off')))) :
    Answers metrics (withField id check (payload.drop off) k)
      (run (readField (invalidResponse, metrics) payload off >>= K)) := by
  rw [withField]
  rcases readField_eq metrics payload off with ⟨ht, hr⟩ | ⟨f, off', ht, hoff', hr⟩
  · rw [ht, hr]
    exact answers_invalid metrics
  · rw [ht, hr, next_bind]
    by_cases hc : f.id = id ∧ check f
    · simp only [if_pos hc]
      exact hgood f off' hoff' hc.1 hc.2
    · simp only [if_neg hc, hbad f off' hc]
      exact answers_invalid metrics

/-- The body of one day, as it is put together. -/
theorem roomDayBody_eq (id date : Text) (availability price : ℕ) (features : List String)
    (mask : UInt32) :
    pushItems (fun json feature => pushQuoted json (utf8 feature))
        (utf8 "\x7b\"status\":\"success\",\"property_id\":\"" ++ id.written ++
          utf8 "\",\"date\":\"" ++ date.written ++ utf8 "\",\"availability\":" ++
          decimal availability ++ utf8 ",\"final_price\":" ++ decimal price ++
          utf8 ",\"rate_feature\":[") (maskedFeatures mask 0 (features.take 24)) ++ utf8 "]\x7d" =
      bodyOf (successAnswer [(.const "property_id", .str id), (.const "date", .str date),
        (.const "availability", .nat availability), (.const "final_price", .nat price),
        (.const "rate_feature", featureItems features mask)]).members := by
  rw [pushItems_eq fun json s => pushQuoted_eq json (utf8 s)]
  simp only [bodyOf, successAnswer, mapMembers, map_featureItems, Json.map, Json.nat, Json.render,
    renderMembers, quoted, List.append_assoc, List.cons_append, List.nil_append, if_true,
    Bool.false_eq_true, if_false]
  rfl

theorem answers_getPropRoomDay (payload : Bytes) :
    Answers metrics (answerOf (getPropRoomDayAnswer env) payload)
      (decodeGetPropRoomDayResponse env metrics payload) := by
  refine answers_of_readSuccess fun fieldCount off _ => ?_
  simp only [returnIf_bind, getPropRoomDayAnswer]
  by_cases h5 : fieldCount = 5
  swap
  · rw [if_pos h5, if_neg h5]
    exact answers_invalid metrics
  rw [if_neg (not_not.mpr h5), if_pos h5]
  refine answers_withField metrics ?_ ?_
  · exact fun f off' hc => if_pos (by tauto)
  intro id off _ hi hc
  simp only
  rw [if_neg (by tauto)]
  refine answers_withField metrics ?_ ?_
  · exact fun f off' hc => if_pos (by tauto)
  intro date off _ hi hc
  simp only
  rw [if_neg (by tauto)]
  refine answers_withField metrics ?_ ?_
  · exact fun f off' hc => if_pos (by tauto)
  intro availability off _ hi hc
  simp only
  rw [if_neg (by tauto), index_eq (by omega), next_bind]
  refine answers_withField metrics ?_ ?_
  · exact fun f off' hc => if_pos (by tauto)
  intro price off _ hi hc
  simp only
  rw [if_neg (by tauto), u32At_zero hc.2, next_bind]
  refine answers_withField metrics ?_ ?_
  · exact fun f off' hc => if_pos (by tauto)
  intro mask off hoff hi hc
  simp only
  rw [if_neg (by tauto), u32At_zero hc.2, next_bind]
  by_cases hend : off = payload.length
  · rw [if_neg (not_not.mpr hend), hend, List.drop_length]
    rcases bitmaskToRateFeatureStrings_eq env (u32FromLE mask.data) with
      ⟨hf, e, he⟩ | ⟨features, hf, he⟩
    · rw [hf, he]
      exact answers_invalid metrics
    · have hid : utf8 (fromUtf8Lossy (propertyId id.data)) =
        (Text.lossy (propertyId id.data)).written := utf8_fromUtf8Lossy _
      rw [hf, he]
      simp only [call_ok, okOr_ok, next_bind, bytesToPropertyId_eq, hid]
      exact answers_next (roomDayBody_eq (.lossy (propertyId id.data)) (.date date.data) _ _ _ _)
  · rw [if_pos hend]
    rw [List.drop_eq_getElem_cons (by omega)]
    exact answers_invalid metrics

/-! ## Days of a property -/

/-- The features that are known: none before they are set. -/
abbrev Env.features : List String := env.rateFeatures.getD []

/-- The object of a day, as it is put together. -/
theorem dayObject_eq (date : Bytes) (availability price : ℕ) (features : Json Text) :
    ((Json.obj [(Text.const "date", .str (.copied date)),
      (.const "availability", .nat availability), (.const "final_price", .nat price),
      (.const "rate_feature", features)]).map Text.written).render =
      utf8 "\x7b" ++ (utf8 "\"date\":\"" ++ (date ++ (utf8 "\",\"availability\":" ++
        (decimal availability ++ (utf8 ",\"final_price\":" ++ (decimal price ++ (utf8 "," ++
          (utf8 "\"rate_feature\":" ++ ((features.map Text.written).render ++
            utf8 "\x7d"))))))))) := by
  simp only [Json.map, mapMembers, Json.nat, Json.render, renderMembers, quoted, if_true,
    Bool.false_eq_true, if_false, List.append_assoc, List.cons_append, List.nil_append]
  rfl

/-- The object of the day at `dOff`. -/
theorem writeDay_eq (daysData json : Bytes) (firstDay : Bool) (dOff : ℕ)
    (h : dOff + 11 ≤ daysData.length) :
    (dayObject env env.features ((daysData.drop dOff).take 11) = none ∧
      writeDay env (invalidResponse, metrics) daysData (json, firstDay, dOff) =
        ret (invalidResponse, metrics)) ∨
    ∃ day, dayObject env env.features ((daysData.drop dOff).take 11) = some day ∧
      writeDay env (invalidResponse, metrics) daysData (json, firstDay, dOff) =
        next ((if firstDay then json else json ++ utf8 ",") ++ (day.map Text.written).render, false,
          dOff + 11) := by
  have h2 : (((daysData.drop dOff).take 11).take 2) = (daysData.drop dOff).take 2 := by
    rw [List.take_take]
    rfl
  have ha : ((daysData.drop dOff).take 11).getD 2 0 = daysData.getD (dOff + 2) 0 := by
    simp [List.getD_eq_getElem?_getD]
  have hp (i : ℕ) (hi : i + 4 ≤ 11) : (((daysData.drop dOff).take 11).drop i).take 4 =
      (daysData.drop (dOff + i)).take 4 := by
    rw [List.drop_take, List.take_take, List.drop_drop, min_eq_left (by omega)]
  rw [dayObject, h2, ha, hp 3 (by omega), hp 7 (by omega)]
  unfold writeDay
  simp only [u16At_eq (show dOff + 2 ≤ daysData.length by omega),
    index_eq (show dOff + 2 < daysData.length by omega),
    u32At_eq (show dOff + 3 + 4 ≤ daysData.length by omega),
    u32At_eq (show dOff + 7 + 4 ≤ daysData.length by omega), next_bind]
  rcases writePackedDate_eq env
    ((if firstDay then json else json ++ utf8 ",") ++ utf8 "\x7b" ++ utf8 "\"date\":\"")
    (u16FromLE ((daysData.drop dOff).take 2)) with ⟨hd, e, he⟩ | ⟨date, hd, he⟩
  · refine .inl ⟨by rw [hd]; rfl, ?_⟩
    rw [he]
    rfl
  · refine .inr ⟨_, by rw [hd]; rfl, ?_⟩
    rw [he]
    simp only [call_ok, okOr_ok, next_bind, writeRateFeaturesArray_eq, env.crates.itoaFormat_eq,
      dayObject_eq, List.append_assoc, pure_eq]

/-- The loop over the days, one round for each element of `rounds`. -/
theorem foldlM_writeDay_eq (daysData : Bytes) (rounds : List ℕ) (json : Bytes) (firstDay : Bool)
    (dOff : ℕ) (h : dOff + 11 * rounds.length ≤ daysData.length) :
    (dayObjects env env.features rounds.length (daysData.drop dOff) = none ∧
      rounds.foldlM (fun s _ => writeDay env (invalidResponse, metrics) daysData s)
        (json, firstDay, dOff) = ret (invalidResponse, metrics)) ∨
    ∃ days rest, dayObjects env env.features rounds.length (daysData.drop dOff) = some days ∧
      rounds.foldlM (fun s _ => writeDay env (invalidResponse, metrics) daysData s)
        (json, firstDay, dOff) =
        next (json ++ renderItems firstDay (days.map (Json.map Text.written)), rest) := by
  -- induction on the days left, with the comma of all but the first as part of the state
  induction rounds generalizing json firstDay dOff with
  | nil => exact .inr ⟨[], (firstDay, dOff), rfl, by simp [renderItems]⟩
  | cons i rounds ih =>
    rw [List.length_cons] at h ⊢
    rw [List.foldlM_cons, dayObjects, List.drop_drop]
    rcases writeDay_eq env metrics daysData json firstDay dOff (by omega) with
      ⟨hn, hw⟩ | ⟨day, hs, hw⟩
    · exact .inl ⟨by rw [hn], by rw [hw, ret_bind]⟩
    · rw [hs, hw, next_bind]
      rcases ih ((if firstDay then json else json ++ utf8 ",") ++ (day.map Text.written).render)
        false (dOff + 11) (by omega) with ⟨hn, hr⟩ | ⟨days, rest, hs, hr⟩
      · exact .inl ⟨by simp only [hn, Option.map_none], hr⟩
      · refine .inr ⟨day :: days, rest, by simp only [hs, Option.map_some], ?_⟩
        rw [hr, List.map_cons, renderItems, utf8_comma]
        cases firstDay <;> simp

/-! ## Properties -/

/-- The object of a property, as it is put together. -/
theorem propertyObject_eq (id : Bytes) (days : List (Json Text)) :
    ((propertyObject id days).map Text.written).render =
      utf8 "\x7b" ++ (utf8 "\"property_id\":" ++ (quoted (propertyId id) ++ (utf8 ",\"days\":[" ++
        (renderItems true (days.map (Json.map Text.written)) ++ utf8 "]\x7d")))) := by
  have h1 : utf8 ",\"days\":[" = utf8 ",\"days\":" ++ [0x5B] := by decide
  simp only [propertyObject, Json.map, mapMembers, mapItems_eq_map, Json.render, renderMembers,
    if_true, Bool.false_eq_true, if_false, List.append_assoc, List.cons_append, List.nil_append,
    h1, utf8_close]
  rfl

mutual

/-- The loop over the fields that are left: the buffer and the next id. -/
def walkAvail : Bytes → Bool → UInt16 → List Field → Option (Bytes × UInt16)
  | json, _, k, [] => some (json, k)
  | json, first, k, f :: fs =>
    if f.id = k then
      if k = 1 ∧ f.fieldType = 0x02 then
        if f.data.length = 2 then walkAvail json first (k + 1) fs else none
      else if f.fieldType = 0x01 ∧ k % 2 = 0 then walkDays json first k f.data fs
      else none
    else none

/-- The loop after the field of a property: the days must follow. -/
def walkDays : Bytes → Bool → UInt16 → Bytes → List Field → Option (Bytes × UInt16)
  | _, _, _, _, [] => none
  | json, first, k, property, days :: fs =>
    if days.id = k + 1 ∧ days.fieldType = 0x08 then
      match daysOf env env.features days.data with
      | none => none
      | some items =>
        walkAvail ((if first then json else json ++ utf8 ",") ++
          ((propertyObject property items).map Text.written).render) false (k + 1 + 1) fs
    else none

end

/-- The days of a property, when the data is as long as they say: the loop writes them all or the
reply is invalid. -/
theorem days_eq {daysData json : Bytes} (h2 : 2 ≤ daysData.length)
    (hc : daysData.length = 2 + 11 * (u16FromLE (daysData.take 2)).toNat) :
    (daysOf env env.features daysData = none ∧
      (List.range (u16FromLE (daysData.take 2)).toNat).foldlM
        (fun s _ => writeDay env (invalidResponse, metrics) daysData s) (json, true, 2) =
          ret (invalidResponse, metrics)) ∨
    ∃ items rest, daysOf env env.features daysData = some items ∧
      (List.range (u16FromLE (daysData.take 2)).toNat).foldlM
        (fun s _ => writeDay env (invalidResponse, metrics) daysData s) (json, true, 2) =
          next (json ++ renderItems true (items.map (Json.map Text.written)), rest) := by
  rw [daysOf, if_pos ⟨h2, hc⟩]
  have := foldlM_writeDay_eq env metrics daysData
    (List.range (u16FromLE (daysData.take 2)).toNat) json true 2 (by rw [List.length_range]; omega)
  rwa [List.length_range] at this

/-- What a round does after the field of a property, whose data are `property`. -/
def propertyRound (invalid : Response × Metrics) (data : Bytes) (s : AvailState) (property : Bytes)
    (offset : ℕ) : Flow (Response × Metrics) AvailState := do
  let json := if s.firstProperty then s.json else s.json ++ utf8 ","
  let json := json ++ utf8 "\x7b" ++ utf8 "\"property_id\":"
  let json ← okOr invalid (← call (writeQuotedPropertyId json property))
  let json := json ++ utf8 ",\"days\":["
  returnIf (offset + 7 > data.length) invalid
  let nextId ← u16At data offset
  returnIf (nextId ≠ s.currentField + 1) invalid
  let daysType ← index data (offset + 2)
  let daysLen := (← u32At data (offset + 3)).toNat
  let offset := offset + 7
  returnIf (daysType ≠ 0x08 ∨ offset + daysLen > data.length) invalid
  let daysData ← slice data offset (offset + daysLen)
  let offset := offset + daysLen
  returnIf (daysLen < 2) invalid
  let daysCount ← u16At daysData 0
  returnIf (daysLen ≠ 2 + 11 * daysCount.toNat) invalid
  let (json, _, _) ← (List.range daysCount.toNat).foldlM
    (fun s _ => writeDay env invalid daysData s) (json, true, 2)
  return { json := json ++ utf8 "]\x7d"
           currentField := s.currentField + 1 + 1
           firstProperty := false
           offset := offset }

/-- After a property the walk takes its days, as the round does, or both end. -/
theorem propertyRound_reads (data : Bytes) (s : AvailState) (property : Bytes) (off : ℕ) :
    ((∀ fs tail, takeFields fs.length (data.drop off) = some (fs, tail) →
        walkDays env s.json s.firstProperty s.currentField property fs = none) ∧
      propertyRound env (invalidResponse, metrics) data s property off =
        ret (invalidResponse, metrics)) ∨
    ∃ days t, takeField (data.drop off) = some (days, data.drop t.offset) ∧
      (∀ fs, walkDays env s.json s.firstProperty s.currentField property (days :: fs) =
        walkAvail env t.json t.firstProperty t.currentField fs) ∧
      propertyRound env (invalidResponse, metrics) data s property off = next t := by
  obtain ⟨json, k, first, offset⟩ := s
  have hnone {d : Option (Field × Bytes)} (ht : takeField (data.drop off) = d)
      (hd : ∀ days rest, d = some (days, rest) →
        ∀ fs, walkDays env json first k property (days :: fs) = none)
      (fs : List Field) (tail : Bytes) (hfs : takeFields fs.length (data.drop off) =
        some (fs, tail)) : walkDays env json first k property fs = none := by
    cases fs with
    | nil => rw [walkDays]
    | cons days fs =>
      obtain ⟨_, _, rest, heq, ht', -⟩ := takeFields_succ_eq_some_iff.mp hfs
      cases heq
      exact hd _ rest (ht.symm.trans ht') fs
  by_cases h7 : off + 7 ≤ data.length
  swap
  · refine .inl ⟨hnone (takeField_of_short (by rw [List.length_drop]; omega)) nofun, ?_⟩
    simp only [propertyRound, returnIf_bind, writeQuotedPropertyId_eq, call_ok, next_bind, okOr_ok,
      if_pos (Nat.lt_of_not_le h7)]
  have h7' : ¬ off + 7 > data.length := by omega
  obtain ⟨nextId, daysType, daysLen, hid, htype, hlen,
    ⟨hl, ht⟩ | ⟨daysData, hl, hb, hs, ht, -⟩⟩ := field_at (ρ := Response × Metrics) h7
  · refine .inl ⟨hnone ht nofun, ?_⟩
    simp only [propertyRound, returnIf_bind, writeQuotedPropertyId_eq, call_ok, next_bind, okOr_ok,
      if_neg h7', hid, htype, hlen, if_pos (Or.inr hl), ite_self]
  have hbad (h : ∀ fs, walkDays env json first k property (⟨nextId, daysType, daysData⟩ :: fs) =
      none) := hnone ht fun days rest heq => by
    obtain ⟨rfl, -⟩ := Prod.mk.inj (Option.some.inj heq)
    exact h
  by_cases hnext : nextId = k + 1 ∧ daysType = 0x08
  swap
  · refine .inl ⟨hbad fun fs => by rw [walkDays]; exact if_neg hnext, ?_⟩
    simp only [propertyRound, returnIf_bind, writeQuotedPropertyId_eq, call_ok, next_bind, okOr_ok,
      if_neg h7', hid, htype, hlen]
    by_cases hk : nextId = k + 1
    · rw [if_neg (not_not.mpr hk), if_pos (.inl fun h => hnext ⟨hk, h⟩)]
    · rw [if_pos hk]
  have hdays : ¬ (daysType ≠ 0x08 ∨ off + 7 + daysLen.toNat > data.length) := by
    rintro (h | h)
    · exact h hnext.2
    · omega
  by_cases hsize : 2 ≤ daysData.length ∧
    daysData.length = 2 + 11 * (u16FromLE (daysData.take 2)).toNat
  swap
  · refine .inl ⟨hbad fun fs => by rw [walkDays, if_pos hnext, daysOf, if_neg hsize], ?_⟩
    simp only [propertyRound, returnIf_bind, writeQuotedPropertyId_eq, call_ok, next_bind, okOr_ok,
      if_neg h7', hid, htype, hlen, hs, if_neg (not_not.mpr hnext.1), if_neg hdays]
    rw [← hb]
    by_cases h2 : daysData.length < 2
    · rw [if_pos h2]
    · rw [if_neg h2, u16At_eq (by omega), List.drop_zero, next_bind,
        if_pos fun h => hsize ⟨by omega, h⟩]
  have htwo : ¬ daysData.length < 2 := by omega
  rcases days_eq env metrics hsize.1 hsize.2 with ⟨hd, hw⟩ | ⟨items, rest, hd, hw⟩
  · refine .inl ⟨hbad fun fs => by rw [walkDays, if_pos hnext, hd], ?_⟩
    simp only [propertyRound, returnIf_bind, writeQuotedPropertyId_eq, call_ok, next_bind, okOr_ok,
      if_neg h7', hid, htype, hlen, hs, if_neg (not_not.mpr hnext.1), if_neg hdays]
    rw [← hb, if_neg htwo, u16At_eq (by omega), List.drop_zero, next_bind,
      if_neg (not_not.mpr hsize.2), hw, ret_bind]
  · refine .inr ⟨_, ⟨(if first then json else json ++ utf8 ",") ++
      ((propertyObject property items).map Text.written).render, k + 1 + 1, false,
      off + 7 + daysLen.toNat⟩, ht, fun fs => by simp only [walkDays, if_pos hnext, hd], ?_⟩
    simp only [propertyRound, returnIf_bind, writeQuotedPropertyId_eq, call_ok, next_bind, okOr_ok,
      if_neg h7', hid, htype, hlen, hs, if_neg (not_not.mpr hnext.1), if_neg hdays]
    rw [← hb, if_neg htwo, u16At_eq (by omega), List.drop_zero, next_bind,
      if_neg (not_not.mpr hsize.2), hw, next_bind]
    simp only [propertyObject_eq, List.append_assoc, pure_eq, utf8_close]

/-- One round reads the number of days, or a property and its days. -/
theorem searchAvailRound_reads (data : Bytes) (s : AvailState) (h7 : s.offset + 7 ≤ data.length) :
    ReadsFields data AvailState.offset
      (fun s => walkAvail env s.json s.firstProperty s.currentField)
      (searchAvailRound env (invalidResponse, metrics) data) (invalidResponse, metrics) s := by
  obtain ⟨json, k, first, off⟩ := s
  obtain ⟨id, fieldType, len, hid, htype, hlen, ⟨hl, ht⟩ | ⟨bytes, hl, hb, hs, ht, -⟩⟩ :=
    field_at (ρ := Response × Metrics) (show off + 7 ≤ data.length from h7)
  · refine readsFields_of_none ht ?_
    simp only [searchAvailRound, hid, htype, hlen, next_bind, returnIf_bind, if_pos hl, ite_self]
  have hl' : ¬ off + 7 + len.toNat > data.length := by omega
  by_cases hi : id = k
  swap
  · refine readsFields_of_ret ht (fun fs _ _ => by simp only [walkAvail, if_neg hi]) ?_
    simp only [searchAvailRound, hid, htype, hlen, next_bind, returnIf_bind, if_pos hi]
  by_cases hnum : k = 1 ∧ fieldType = 0x02
  · by_cases h2 : bytes.length = 2
    · refine readsFields_one (t := ⟨json, k + 1, first, off + 7 + len.toNat⟩) ht
        (fun fs => by simp only [walkAvail, if_pos hi, if_pos hnum, if_pos h2]) ?_
      simp only [searchAvailRound, hid, htype, hlen, hs, next_bind, returnIf_bind, if_neg hl',
        if_neg (not_not.mpr hi), if_pos hnum, if_neg (not_not.mpr (hb ▸ h2)),
        u16At_eq (show 0 + 2 ≤ bytes.length by omega), pure_eq]
    · refine readsFields_of_ret ht
        (fun fs _ _ => by simp only [walkAvail, if_pos hi, if_pos hnum, if_neg h2]) ?_
      simp only [searchAvailRound, hid, htype, hlen, hs, next_bind, returnIf_bind, if_neg hl',
        if_neg (not_not.mpr hi), if_pos hnum, if_pos (show len.toNat ≠ 2 from hb ▸ h2)]
  by_cases hprop : fieldType = 0x01 ∧ k % 2 = 0
  swap
  · refine readsFields_of_ret ht
      (fun fs _ _ => by simp only [walkAvail, if_pos hi, if_neg hnum, if_neg hprop]) ?_
    simp only [searchAvailRound, hid, htype, hlen, hs, next_bind, returnIf_bind, if_neg hl',
      if_neg (not_not.mpr hi), if_neg hnum, if_neg hprop]
  have hwalk (fs : List Field) : walkAvail env json first k (⟨id, fieldType, bytes⟩ :: fs) =
      walkDays env json first k bytes fs := by
    simp only [walkAvail, if_pos hi, if_neg hnum, if_pos hprop]
  have hround : searchAvailRound env (invalidResponse, metrics) data ⟨json, k, first, off⟩ =
      propertyRound env (invalidResponse, metrics) data ⟨json, k, first, off⟩ bytes
        (off + 7 + len.toNat) := by
    simp only [searchAvailRound, propertyRound, hid, htype, hlen, hs, next_bind, returnIf_bind,
      if_neg hl', if_neg (not_not.mpr hi), if_neg hnum, if_pos hprop]
  rcases propertyRound_reads env metrics data ⟨json, k, first, off⟩ bytes (off + 7 + len.toNat)
    with ⟨hd, hr⟩ | ⟨days, t, htd, hd, hr⟩
  · exact readsFields_of_ret ht (fun fs tail hfs => (hwalk fs).trans (hd fs tail hfs))
      (hround.trans hr)
  · have hone : walkAvail env json first k [⟨id, fieldType, bytes⟩] = none := by
      rw [hwalk, walkDays]
    exact readsFields_two ht htd hone (fun fs => (hwalk _).trans (hd fs)) (hround.trans hr)

/-- The next id counts the fields. -/
theorem snd_walkAvail {json json' : Bytes} {first : Bool} {k k' : UInt16} {fs : List Field}
    (h : walkAvail env json first k fs = some (json', k')) : k' = k + UInt16.ofNat fs.length := by
  induction hn : fs.length using Nat.strong_induction_on generalizing json first k fs with
  | _ n ih =>
  subst hn
  rcases fs with _ | ⟨f, fs⟩
  · cases h
    simp
  rw [walkAvail] at h
  split_ifs at h
  · rw [ofNat_length_cons]
    exact ih _ (by simp) h rfl
  rcases fs with _ | ⟨days, fs⟩
  · cases h
  rw [walkDays] at h
  split at h
  · split at h
    · cases h
    · rw [ofNat_length_cons, ofNat_length_cons]
      exact ih _ (by simp) h rfl
  · cases h

theorem mod_two_eq_zero_iff {k : UInt16} : k % 2 = 0 ↔ k.toNat % 2 = 0 := by
  rw [← UInt16.toNat_inj, UInt16.toNat_mod]
  rfl

/-- After the days of a property the next id is even again, also where it wraps around. -/
theorem add_two_mod_two {k : UInt16} (hk : k % 2 = 0) : (k + 1 + 1) % 2 = 0 := by
  have h1 : (1 : UInt16).toNat = 1 := rfl
  simp only [mod_two_eq_zero_iff, UInt16.toNat_add, h1] at hk ⊢
  omega

/-- At an even id there is a property, and its days follow. -/
theorem walkAvail_even {k : UInt16} (hk : k % 2 = 0) (json : Bytes) (first : Bool) (f : Field)
    (fs : List Field) :
    walkAvail env json first k (f :: fs) =
      if f.id = k ∧ f.fieldType = 0x01 then walkDays env json first k f.data fs else none := by
  have hne : ¬ (k = 1 ∧ f.fieldType = 0x02) := by
    rintro ⟨rfl, -⟩
    exact absurd hk (by decide)
  simp only [walkAvail, if_neg hne, hk, and_true]
  by_cases hi : f.id = k <;> simp [hi]

/-- Properties and days in turn, from an even id on. -/
theorem walkAvail_eq {k : UInt16} (hk : k % 2 = 0) (json : Bytes) (first : Bool)
    (fs : List Field) :
    walkAvail env json first k fs =
      if Numbered k fs then
        (propertiesOf env env.features fs).map fun ps =>
          (json ++ renderItems first (ps.map (Json.map Text.written)),
            k + UInt16.ofNat fs.length)
      else none := by
  induction fs using propertiesOf.induct env env.features generalizing k json first with
  | case1 => simp [walkAvail, Numbered, propertiesOf, renderItems]
  | case2 f => simp only [walkAvail_even env hk, walkDays, propertiesOf, Option.map_none, ite_self]
  | case3 property days fs hcond hd =>
    simp only [walkAvail_even env hk, walkDays, propertiesOf, if_pos hcond, hd, Option.map_none,
      ite_self]
  | case4 property days fs hcond items hd ih =>
    simp only [walkAvail_even env hk, walkDays, propertiesOf, hd, hcond.1, hcond.2, and_true,
      Numbered, ofNat_length_cons, ih (add_two_mod_two hk)]
    -- a walk stops at the first field out of turn, the list of fields as a whole is refused
    by_cases hn : property.id = k ∧ days.id = k + 1 ∧ Numbered (k + 1 + 1) fs
    · rw [if_pos hn, if_pos hn.1, if_pos hn.2.1, if_pos hn.2.2]
      cases propertiesOf env env.features fs <;> cases first <;> simp [renderItems, utf8_comma]
    · rw [if_neg hn]
      split_ifs <;> first | rfl | tauto
  | case5 property days fs hcond =>
    simp only [walkAvail_even env hk, walkDays, propertiesOf, if_neg hcond, Option.map_none,
      ite_self]
    split_ifs <;> first | rfl | tauto

/-- The number of days, and then properties and days in turn. -/
theorem walkAvail_cons (json : Bytes) (numDays : Field) (fs : List Field) :
    walkAvail env json true 1 (numDays :: fs) =
      if Numbered 1 (numDays :: fs) ∧ numDays.fieldType = 0x02 ∧ numDays.data.length = 2 then
        (propertiesOf env env.features fs).map fun ps =>
          (json ++ renderItems true (ps.map (Json.map Text.written)),
            1 + UInt16.ofNat (numDays :: fs).length)
      else none := by
  have h1 : ¬ (numDays.fieldType = 0x01 ∧ (1 : UInt16) % 2 = 0) := fun h => absurd h.2 (by decide)
  simp only [walkAvail, true_and, if_neg h1, Numbered, ofNat_length_cons,
    walkAvail_eq env (show (1 + 1 : UInt16) % 2 = 0 by decide)]
  split_ifs <;> first | rfl | tauto

theorem propertiesOf_length {features : List String} {fs : List Field} {ps : List (Json Text)}
    (h : propertiesOf env features fs = some ps) : fs.length % 2 = 0 := by
  induction fs using propertiesOf.induct env features generalizing ps with
  | case1 => rfl
  | case2 f => cases h
  | case3 property days fs hcond hd =>
    simp only [propertiesOf, if_pos hcond, hd] at h
    cases h
  | case4 property days fs hcond items hd ih =>
    simp only [propertiesOf, if_pos hcond, hd, Option.map_eq_some_iff] at h
    obtain ⟨qs, hq, -⟩ := h
    have := ih hq
    simp only [List.length_cons]
    omega
  | case5 property days fs hcond => rw [propertiesOf, if_neg hcond] at h; cases h

theorem sub_one_even_of_length {n : ℕ} {fieldCount : UInt16}
    (hn : UInt16.ofNat (n + 1) = fieldCount) (he : n % 2 = 0) : (fieldCount - 1) % 2 = 0 := by
  rw [← hn, UInt16.ofNat_add]
  have : UInt16.ofNat n + UInt16.ofNat 1 - 1 = UInt16.ofNat n := UInt16.add_sub_cancel _ _
  rw [this]
  exact count_even_of_length rfl he

/-- Properties and their days have an odd number of fields, with the number of days before them. -/
theorem availOf_counted {features : List String} {fs : List Field} {ps : List (Json Text)}
    {fieldCount : UInt16} (h : availOf env features fs = some ps)
    (hc : UInt16.ofNat fs.length = fieldCount) : (fieldCount - 1) % 2 = 0 := by
  rcases fs with _ | ⟨numDays, fs⟩
  · cases h
  · rw [availOf] at h
    split_ifs at h
    exact sub_one_even_of_length hc (propertiesOf_length env h)

/-- The walk over all fields agrees with the properties. -/
theorem agree_walkAvail (fs : List Field) {fieldCount : UInt16} (h0 : fieldCount ≠ 0)
    (json : Bytes) :
    Agree fieldCount
      (fun ps : List (Json Text) => json ++ renderItems true (ps.map (Json.map Text.written)))
      (walkAvail env json true 1 fs)
      ((if Numbered 1 fs ∧ UInt16.ofNat fs.length = fieldCount then some fs else none).bind
        (availOf env env.features)) := by
  -- without a field the counter stays at its start, which is not a number of fields
  rcases fs with _ | ⟨numDays, fs⟩
  · refine .inl ⟨by split_ifs <;> rfl, fun json' k h => ?_⟩
    cases h
    exact fun h => h0 h.symm
  rw [walkAvail_cons]
  by_cases hn : Numbered 1 (numDays :: fs) ∧ numDays.fieldType = 0x02 ∧ numDays.data.length = 2
  · rw [if_pos hn]
    by_cases hc : UInt16.ofNat (numDays :: fs).length = fieldCount
    · rw [if_pos ⟨hn.1, hc⟩, Option.bind_some, availOf, if_pos hn.2]
      cases propertiesOf env env.features fs with
      | none => exact .inl ⟨rfl, fun _ _ h => by cases h⟩
      | some ps => exact .inr ⟨ps, _, rfl, rfl, by rw [one_add_sub_one, hc]⟩
    · rw [if_neg fun h => hc h.2]
      refine .inl ⟨rfl, fun json' k h => ?_⟩
      rw [Option.map_eq_some_iff] at h
      obtain ⟨ps, -, h⟩ := h
      cases h
      rwa [one_add_sub_one]
  · rw [if_neg hn]
    refine .inl ⟨?_, fun _ _ h => by cases h⟩
    split_ifs with hc
    · rw [Option.bind_some, availOf, if_neg fun h => hn ⟨hc.1, h⟩]
    · rfl

theorem answers_searchAvail (payload : Bytes) :
    Answers metrics (answerOf (searchAvailAnswer env) payload)
      (decodeSearchAvailResponse env metrics payload) := by
  refine answers_of_readSuccess fun fieldCount off _ => ?_
  rw [searchAvailAnswer]
  by_cases h0 : fieldCount = 0
  · simp only [if_pos h0]
    exact answers_next rfl
  simp only [if_neg h0, returnIf_bind]
  by_cases he : fieldCount < 1 ∨ (fieldCount - 1) % 2 ≠ 0
  · rw [if_pos he]
    have hn : (countedFields fieldCount (payload.drop off)).bind (availOf env env.features) =
        none := by
      cases hps : (countedFields fieldCount (payload.drop off)).bind (availOf env env.features) with
      | none => rfl
      | some ps =>
        obtain ⟨fs, hfs, hav⟩ := Option.bind_eq_some_iff.mp hps
        have heven := availOf_counted env hav (length_of_countedFields hfs)
        exact absurd (he.resolve_left fun h => h0 (UInt16.lt_one_iff.mp h)) (not_not.mpr heven)
    rw [hn]
    exact answers_invalid metrics
  rw [if_neg he]
  have hloop := whileLoop_counted (fun s => (s.json, s.currentField)) (fun _ => rfl)
    (fun s hs => (searchAvailRound_reads env metrics payload s hs).keepsFields hs)
    ⟨utf8 "\x7b\"status\":\"success\",\"properties\":[", 1, true, off⟩
    (fun fs => agree_walkAvail env fs h0 _)
  rcases hloop with ⟨hn, hw | ⟨t, hw, hc⟩⟩ | ⟨ps, t, hps, hw, hjson, hc⟩
  · rw [hw, hn]
    exact answers_invalid metrics
  · rw [hw, hn, next_bind]
    simp only [if_pos hc]
    exact answers_invalid metrics
  · rw [hw, hps, next_bind]
    simp only at hjson hc
    simp only [hc, ne_eq, not_true, if_false]
    refine answers_next ?_
    have hp : utf8 "\x7b\"status\":\"success\",\"properties\":[" =
      utf8 "\x7b\"status\":\"success\",\"" ++ (utf8 "properties" ++ utf8 "\":[") := by decide
    rw [arrayBody_eq, hjson, hp]
    simp

end RzProxy
