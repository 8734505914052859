import RzProxy.Processor.EncodedDays
import RzProxy.Processor.Features

/-!
# The writers of ids and features

Property ids and rate features have two helpers each: one gives strings, for the decoders that put
them in a body themselves, the other writes to the buffer. They are the same text, for ids of any
length and for any mask, as long as the text of an id is UTF-8: only the strings are made of it by
`String::from_utf8_lossy`.

## Main definitions

* `shortText`: the text of an id with the marker, from its two parts
* `maskedNames`: the features of a mask, by their positions
* `DayReply.front`: the body of one day, up to its features

## Main results

* `propertyIds_agree`: an id is written as the string that it stands for
* `rateFeatures_agree`: features are written as the strings of a mask
-/

namespace RzProxy

open ByteString Evaluation Evaluation.Flow JsonText

/-! ## Property ids -/

/-- The text of an id with the marker: two parts, each of which ends at a zero. -/
def shortText (data : Bytes) : Bytes := untilNul (data.take 6) ++ untilNul (data.drop 7)

/-- The text of an id is UTF-8 if that of a short id is. -/
theorem validUtf8_propertyId {data : Bytes}
    (h : data.getD 6 0 = 0xF0 → validUtf8 (shortText data) = true) :
    validUtf8 (propertyId data) = true := by
  rw [propertyId]
  split_ifs with hlen hmarker
  · exact validUtf8_nil
  · exact h hmarker
  · exact validUtf8_hyphenated (uuidBytes data)
  · exact validUtf8_nil

/-- **An id is written as the string that it stands for, in quotes**, in every branch. -/
theorem propertyIds_agree (env : Env) (json : Bytes) {data : Bytes}
    (h : data.getD 6 0 = 0xF0 → validUtf8 (shortText data) = true) :
    ∃ id, bytesToPropertyId env data = .ok id ∧
      writeQuotedPropertyId json data = .ok (.ok (json ++ utf8 "\"" ++ utf8 id ++ utf8 "\"")) := by
  have hid : utf8 (fromUtf8Lossy (propertyId data)) = propertyId data := by
    rw [utf8_fromUtf8Lossy]
    exact lossy_of_valid (validUtf8_propertyId h)
  refine ⟨_, bytesToPropertyId_eq env data, ?_⟩
  rw [writeQuotedPropertyId_eq, hid, utf8_quote, quoted]
  simp only [List.append_assoc, List.cons_append, List.nil_append]

/-- A short id that ends after the marker's part. -/
theorem propertyIds_agree_hotel :
    ∃ id, bytesToPropertyId (.documented []) (utf8 "hotel\x00" ++ [0xF0, 0x2D, 0x31]) = .ok id ∧
      writeQuotedPropertyId (utf8 "[") (utf8 "hotel\x00" ++ [0xF0, 0x2D, 0x31]) =
        .ok (.ok (utf8 "[" ++ utf8 "\"" ++ utf8 id ++ utf8 "\"")) := by
  refine propertyIds_agree (.documented []) (utf8 "[") fun _ => ?_
  have htext : shortText (utf8 "hotel\x00" ++ [0xF0, 0x2D, 0x31]) = utf8 "hotel-1" := by decide
  rw [htext]
  exact validUtf8_utf8 "hotel-1"

/-! ## Rate features -/

/-- The features at the positions below 24 whose bits are set in the mask, in ascending order. -/
def maskedNames (features : List String) (mask : UInt32) : List String :=
  ((List.range (min 24 features.length)).filter fun i => mask.toNat.testBit i).map
    fun i => features.getD i ""

/-- The walk over the features from bit `i` on takes them by their positions. -/
theorem maskedFeatures_eq_map (mask : UInt32) (features : List String) (i : ℕ) :
    maskedFeatures mask i features =
      ((List.range features.length).filter fun j => mask.toNat.testBit (i + j)).map
        fun j => features.getD j "" := by
  induction features generalizing i with
  | nil => rfl
  | cons feature features ih =>
    have hrest : ((List.range features.length).map Nat.succ).filter
        (fun j => mask.toNat.testBit (i + j)) =
          ((List.range features.length).filter fun j => mask.toNat.testBit (i + 1 + j)).map
            Nat.succ := by
      rw [List.filter_map]
      congr 1
      refine List.filter_congr fun j _ => ?_
      rw [Function.comp_apply, Nat.succ_eq_add_one, Nat.add_assoc, Nat.add_comm j]
    rw [maskedFeatures, ih, List.length_cons, List.range_succ_eq_map, List.filter_cons, hrest]
    by_cases hbit : mask.toNat.testBit i = true
    · have hzero : mask.toNat.testBit (i + 0) = true := hbit
      rw [if_pos hbit, if_pos hzero, List.map_cons, List.map_map]
      rfl
    · have hzero : ¬ mask.toNat.testBit (i + 0) = true := hbit
      rw [if_neg hbit, if_neg hzero, List.map_map]
      rfl

/-- The features that the helpers take are those at the positions of the mask. -/
theorem maskedFeatures_take (features : List String) (mask : UInt32) :
    maskedFeatures mask 0 (features.take 24) = maskedNames features mask := by
  rw [maskedFeatures_eq_map, maskedNames, List.length_take]
  simp only [Nat.zero_add]
  refine List.map_congr_left fun j hj => ?_
  have hlt : j < min 24 features.length := List.mem_range.mp (List.mem_of_mem_filter hj)
  rw [List.getD_eq_getElem?_getD, List.getD_eq_getElem?_getD,
    List.getElem?_take_of_lt (by omega)]

section Agree

variable {env : Env} {features : List String}

/-- The array of the features that the mask names. -/
theorem writeRateFeaturesArray_of_some (hfeatures : env.rateFeatures = some features)
    (json : Bytes) (mask : UInt32) : writeRateFeaturesArray env json mask =
      json ++ utf8 "\"rate_feature\":[" ++ featureList features mask ++ utf8 "]" := by
  rw [writeRateFeaturesArray_eq, hfeatures, Option.getD_some, render_featureItems,
    utf8_rateFeature, utf8_bracket]
  simp only [List.append_assoc, List.cons_append, List.nil_append]

/-- The body of one day, up to its features. -/
def DayReply.front (id : String) (r : DayReply) : Bytes :=
  utf8 "\x7b\"status\":\"success\",\"property_id\":\"" ++ utf8 id ++ utf8 "\",\"date\":\"" ++
    utf8 ((fromUtf8 r.date).getD "invalid-date") ++ utf8 "\",\"availability\":" ++
    decimal r.availability.toNat ++ utf8 ",\"final_price\":" ++ decimal r.finalPrice.toNat ++
    utf8 ","

/-- What follows in the body is what the writer of features writes. -/
theorem DayReply.body_eq_front (hfeatures : env.rateFeatures = some features) (id : String)
    (r : DayReply) :
    r.body features id = writeRateFeaturesArray env (r.front id) r.mask ++ utf8 "\x7d" := by
  have hkey : utf8 ",\"rate_feature\":[" = utf8 "," ++ utf8 "\"rate_feature\":[" := by decide
  have hclose : utf8 "]\x7d" = utf8 "]" ++ utf8 "\x7d" := by decide
  rw [writeRateFeaturesArray_of_some hfeatures, body, front, hkey, hclose]
  simp only [List.append_assoc]

/-- **Features are written as the strings of a mask**: those at the positions below 24 whose bits
are set, in ascending order and with commas between them; and one day is answered with the same
array. -/
theorem rateFeatures_agree (hfeatures : env.rateFeatures = some features) (mask : UInt32) :
    ∃ names, bitmaskToRateFeatureStrings env mask = .ok (.ok names) ∧
      names = maskedNames features mask ∧
      (∀ json, writeRateFeaturesArray env json mask = json ++ utf8 "\"rate_feature\":[" ++
        [0x2C].intercalate (names.map fun s => quoted (utf8 s)) ++ utf8 "]") ∧
      ∀ (metrics : Metrics) (r : DayReply), r.mask = mask →
        ∃ id metrics', bytesToPropertyId env r.id = .ok id ∧
          decodeGetPropRoomDayResponse env metrics r.bytes = .ok (jsonResponse .ok
            (writeRateFeaturesArray env (r.front id) mask ++ utf8 "\x7d"), metrics') := by
  refine ⟨_, ((reports_iff hfeatures mask _).mpr rfl).1, maskedFeatures_take features mask,
    fun json => writeRateFeaturesArray_of_some hfeatures json mask, ?_⟩
  rintro metrics r rfl
  have hanswer := answers_getPropRoomDay env metrics r.bytes
  rw [r.answer_bytes hfeatures] at hanswer
  obtain ⟨metrics', hdecode⟩ := hanswer.eq_json
  refine ⟨_, metrics', bytesToPropertyId_eq env r.id, ?_⟩
  rw [← r.body_eq_front hfeatures, ← r.body_eq]
  exact hdecode

/-- Of two features the second is written, and the highest bit of the mask names none. -/
theorem rateFeatures_agree_second :
    ∃ names, bitmaskToRateFeatureStrings (.documented ["BAR", "HB"]) 0x80000002 =
        .ok (.ok names) ∧ names = ["HB"] ∧
      writeRateFeaturesArray (.documented ["BAR", "HB"]) [] 0x80000002 =
        utf8 "\"rate_feature\":[\"HB\"]" := by
  obtain ⟨names, hnames, heq, hwrite, -⟩ := rateFeatures_agree
    (show (Env.documented ["BAR", "HB"]).rateFeatures = some ["BAR", "HB"] from rfl) 0x80000002
  have hHB : names = ["HB"] := heq.trans (by decide)
  refine ⟨names, hnames, hHB, ?_⟩
  rw [hwrite, hHB]
  decide

end Agree

end RzProxy
