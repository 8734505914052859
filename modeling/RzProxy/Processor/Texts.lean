import RzProxy.Processor.Reading
import Mathlib.Data.Nat.Bitwise

/-!
# The texts of the helpers

The helpers neither panic nor overflow, and write the texts that an answer holds: property ids, the
features of a mask, and packed dates.

## Main results

* `bytesToPropertyId_eq`, `writeQuotedPropertyId_eq`: property ids
* `bitmaskToRateFeatureStrings_eq`, `writeRateFeaturesArray_eq`: features
* `writePackedDateBuf_eq`, `writePackedDate_eq`: dates
-/

namespace RzProxy

open ByteString Evaluation Evaluation.Flow JsonText

variable {ρ : Type} (env : Env)

/-! ## Punctuation -/

theorem utf8_comma : utf8 "," = [0x2C] := by decide

theorem utf8_quote : utf8 "\"" = [0x22] := by decide

theorem utf8_dash : utf8 "-" = [0x2D] := by decide

theorem utf8_bracket : utf8 "]" = [0x5D] := by decide

theorem utf8_close : utf8 "]\x7d" = 0x5D :: utf8 "\x7d" := by decide

theorem utf8_rateFeature : utf8 "\"rate_feature\":[" = utf8 "\"rate_feature\":" ++ [0x5B] := by
  decide

/-! ## Arrays -/

theorem pushItems_eq {α : Type} {write : Bytes → α → Bytes} {g : α → Json Bytes}
    (h : ∀ json a, write json a = json ++ (g a).render) (json : Bytes) (items : List α) :
    pushItems write json items = json ++ renderItems true (items.map g) := by
  have aux : ∀ (items : List α) (k : ℕ) (json : Bytes),
      (items.zipIdx k).foldl (fun json p => write (if p.2 > 0 then json ++ utf8 "," else json) p.1)
        json = json ++ renderItems (decide (k = 0)) (items.map g) := by
    intro items
    induction items with
    | nil => simp [renderItems]
    | cons a items ih =>
      intro k json
      rw [List.zipIdx_cons, List.foldl_cons, ih, h, List.map_cons]
      rcases k with _ | k
      · simp [renderItems]
      · simp [renderItems, utf8_comma]
  exact aux items 0 json

theorem pushQuoted_eq (json text : Bytes) :
    pushQuoted json text = json ++ (Json.str text).render := by
  simp [pushQuoted, Json.render, quoted, utf8_quote]

/-! ## Property ids -/

theorem prefix_untilNul (bs : Bytes) : untilNul bs <+: bs := List.takeWhile_prefix _

theorem take_length_untilNul {bs : Bytes} (n : ℕ) :
    bs.take (untilNul (bs.take n)).length = untilNul (bs.take n) :=
  (List.prefix_iff_eq_take.mp ((prefix_untilNul _).trans (List.take_prefix n bs))).symm

/-- A property id as a string. -/
theorem bytesToPropertyId_eq (data : Bytes) :
    bytesToPropertyId env data = .ok (fromUtf8Lossy (propertyId data)) := by
  have hempty : fromUtf8Lossy [] = "" := fromUtf8Lossy_utf8 ""
  unfold bytesToPropertyId propertyId
  by_cases h7 : data.length < 7
  · rw [if_pos h7, hempty]
    simp only [returnIf_of_pos h7, ret_bind, run_ret]
  · simp only [returnIf_of_neg h7, next_bind, index_eq (show 6 < data.length by omega), if_neg h7]
    -- the marker splits a text id in two parts, each of which ends at a zero byte
    by_cases hm : data.getD 6 0 = 0xF0
    · have hll := (prefix_untilNul (data.take 6)).length_le
      have hrl := (prefix_untilNul (data.drop 7)).length_le
      rw [List.length_take] at hll
      rw [List.length_drop] at hrl
      rw [if_pos hm, if_pos hm]
      simp only [slice_zero (show 6 ≤ data.length by omega),
        slice_length (show 7 ≤ data.length by omega), next_bind,
        slice_zero (show (untilNul (data.take 6)).length ≤ data.length by omega),
        slice_of_le (show 7 ≤ 7 + (untilNul (data.drop 7)).length ∧
        7 + (untilNul (data.drop 7)).length ≤ data.length by omega)]
      rw [Nat.add_sub_cancel_left, take_length_untilNul,
        ← List.prefix_iff_eq_take.mp (prefix_untilNul (data.drop 7))]
      rfl
    · rw [if_neg hm, if_neg hm]
      split
      · rw [← env.crates.uuidToString_eq (uuidBytes data) (by simp [uuidBytes]), fromUtf8Lossy_utf8]
        rfl
      · rw [hempty]
        rfl

/-- The hexadecimal digits of a byte. -/
theorem hex2_eq (json : Bytes) (b : UInt8) :
    (hex2 json b : Flow ρ Bytes) = next (json ++
      [(utf8 "0123456789abcdef").getD (b >>> 4).toNat 0,
        (utf8 "0123456789abcdef").getD (b &&& 0x0F).toNat 0]) := by
  have hlen : (utf8 "0123456789abcdef").length = 16 := by decide
  have hhi : (b >>> 4).toNat < 16 := by
    have := b.toNat_lt
    simp only [UInt8.toNat_shiftRight, UInt8.reduceToNat, Nat.reduceMod, Nat.shiftRight_eq_div_pow]
    omega
  have hlo : (b &&& 0x0F).toNat < 16 := by
    simp only [UInt8.toNat_and, UInt8.reduceToNat]
    exact Nat.lt_succ_of_le Nat.and_le_right
  simp only [hex2, index_eq (show (b >>> 4).toNat < _ by rw [hlen]; exact hhi),
    index_eq (show (b &&& 0x0F).toNat < _ by rw [hlen]; exact hlo), next_bind, pure_eq]

theorem length_uuidBytes (data : Bytes) : (uuidBytes data).length = 16 := by
  simp [uuidBytes]

/-- The UUID writer writes the canonical text. -/
theorem writeUuid_eq (json : Bytes) {uuid : Bytes} (h : uuid.length = 16) :
    (writeUuid json uuid : Flow ρ Bytes) = next (json ++ hyphenated uuid) := by
  match uuid, h with
  | [b0, b1, b2, b3, b4, b5, b6, b7, b8, b9, b10, b11, b12, b13, b14, b15], _ =>
    simp [writeUuid, uuidOrder, index, hex2_eq, hyphenated, utf8_dash]

/-- A property id in quotes. -/
theorem writeQuotedPropertyId_eq (json data : Bytes) :
    writeQuotedPropertyId json data = .ok (.ok (json ++ quoted (propertyId data))) := by
  have hqq : utf8 "\"\"" = [0x22, 0x22] := by decide
  unfold writeQuotedPropertyId propertyId
  by_cases h7 : data.length < 7
  · simp only [returnIf_of_pos h7, ret_bind, run_ret, if_pos h7, hqq]
    rfl
  · simp only [returnIf_of_neg h7, next_bind, index_eq (show 6 < data.length by omega), if_neg h7]
    by_cases hm : data.getD 6 0 = 0xF0
    · rw [if_pos hm, if_pos hm]
      simp only [slice_zero (show 6 ≤ data.length by omega),
        slice_length (show 7 ≤ data.length by omega), next_bind, utf8_quote, quoted]
      split
      · simp
      · have hnil : data.drop 7 = [] := List.drop_eq_nil_of_le (by omega)
        simp [hnil, untilNul]
    · rw [if_neg hm, if_neg hm]
      split
      · simp only [writeUuid_eq _ (length_uuidBytes data), next_bind, utf8_quote, quoted]
        simp
      · simp [hqq, quoted]

/-! ## Features -/

theorem toNat_two_pow {i : ℕ} (hi : i < 32) : (UInt32.ofNat (2 ^ i)).toNat = 2 ^ i := by
  rw [UInt32.toNat_ofNat', Nat.mod_eq_of_lt (Nat.pow_lt_pow_right (by decide) hi)]

/-- The test of a bit. -/
theorem and_two_pow_ne_zero (mask : UInt32) {i : ℕ} (hi : i < 32) :
    mask &&& UInt32.ofNat (2 ^ i) ≠ 0 ↔ mask.toNat.testBit i = true := by
  rw [ne_eq, ← UInt32.toNat_inj, UInt32.toNat_and, toNat_two_pow hi, Nat.and_two_pow]
  cases mask.toNat.testBit i <;> simp

theorem one_shiftLeft {i : ℕ} (hi : i < 32) :
    (1 : UInt32) <<< UInt32.ofNat i = UInt32.ofNat (2 ^ i) := by
  have hn : (UInt32.ofNat i).toNat = i := by
    rw [UInt32.toNat_ofNat', Nat.mod_eq_of_lt (by omega)]
  rw [← UInt32.toNat_inj, UInt32.toNat_shiftLeft, toNat_two_pow hi, hn, Nat.mod_eq_of_lt hi,
    Nat.shiftLeft_eq, UInt32.toNat_one, Nat.one_mul,
    Nat.mod_eq_of_lt (Nat.pow_lt_pow_right (by decide) hi)]

theorem two_pow_shiftLeft {i : ℕ} (hi : i < 31) :
    UInt32.ofNat (2 ^ i) <<< (1 : UInt32) = UInt32.ofNat (2 ^ (i + 1)) := by
  rw [← UInt32.toNat_inj, UInt32.toNat_shiftLeft, toNat_two_pow (by omega),
    toNat_two_pow (by omega), UInt32.toNat_one, Nat.mod_eq_of_lt (show 1 < 32 by decide),
    Nat.shiftLeft_eq, pow_one, ← pow_succ,
    Nat.mod_eq_of_lt (Nat.pow_lt_pow_right (by decide) (by omega))]

/-- The loop over the bits from `i` on, with `k` of them left. -/
theorem collectFeatures_eq (features : List String) (mask : UInt32) :
    ∀ (k i : ℕ) (out : List String), i + k ≤ 24 →
      (collectFeatures features mask (List.range' i k) out : Flow ρ (List String)) =
        next (out ++ maskedFeatures mask i ((features.drop i).take k))
  | 0, i, out, _ => by simp [collectFeatures, maskedFeatures]
  | k + 1, i, out, h => by
    rw [List.range'_succ, collectFeatures, one_shiftLeft (by omega)]
    by_cases hi : i ≥ features.length
    · rw [if_pos hi, List.drop_eq_nil_of_le hi]
      simp [maskedFeatures]
    · rw [if_neg hi, List.drop_eq_getElem_cons (by omega), List.take_succ_cons, maskedFeatures]
      by_cases hb : mask.toNat.testBit i = true
      · rw [if_pos ((and_two_pow_ne_zero mask (by omega)).mpr hb), if_pos hb,
          index_of_lt (by omega), next_bind, collectFeatures_eq features mask k _ _ (by omega)]
        simp
      · rw [if_neg (mt (and_two_pow_ne_zero mask (by omega)).mp hb), if_neg hb,
          collectFeatures_eq features mask k _ _ (by omega)]

/-- The features of a mask as strings: an error before the features are set. -/
theorem bitmaskToRateFeatureStrings_eq (mask : UInt32) :
    (env.rateFeatures = none ∧ ∃ e, bitmaskToRateFeatureStrings env mask = .ok (.error e)) ∨
    ∃ features, env.rateFeatures = some features ∧ bitmaskToRateFeatureStrings env mask =
      .ok (.ok (maskedFeatures mask 0 (features.take 24))) := by
  unfold bitmaskToRateFeatureStrings getRateFeatures
  cases env.rateFeatures with
  | none => exact .inl ⟨rfl, _, rfl⟩
  | some features =>
    refine .inr ⟨features, rfl, ?_⟩
    simp only [List.range_eq_range', collectFeatures_eq features mask 24 0 [] (by omega), next_bind]
    simp

theorem map_featureItems (features : List String) (mask : UInt32) :
    (featureItems features mask).map Text.written =
      .arr ((maskedFeatures mask 0 (features.take 24)).map fun s => .str (utf8 s)) := by
  unfold featureItems
  generalize maskedFeatures mask 0 (features.take 24) = names
  rw [Json.map]
  congr 1
  induction names with
  | nil => rfl
  | cons name names ih => rw [List.map_cons, mapItems, ih]; rfl

/-- The loop over the features from bit `i` on. -/
theorem foldl_writeFeature (mask : UInt32) (features : List String) (i : ℕ) (json : Bytes)
    (wroteAny : Bool) (h : i + features.length ≤ 24) :
    (features.foldl (writeFeature mask) (json, wroteAny, UInt32.ofNat (2 ^ i))).1 =
      json ++ renderItems (!wroteAny)
        ((maskedFeatures mask i features).map fun s => .str (utf8 s)) := by
  induction features generalizing i json wroteAny with
  | nil => simp [maskedFeatures, renderItems]
  | cons feature features ih =>
    rw [List.length_cons] at h
    simp only [List.foldl_cons, writeFeature, maskedFeatures,
      two_pow_shiftLeft (show i < 31 by omega)]
    by_cases hb : mask.toNat.testBit i = true
    · rw [if_pos ((and_two_pow_ne_zero mask (by omega)).mpr hb), if_pos hb, ih _ _ _ (by omega)]
      cases wroteAny <;> simp [renderItems, Json.render, quoted, utf8_quote, utf8_comma]
    · rw [if_neg (mt (and_two_pow_ne_zero mask (by omega)).mp hb), if_neg hb, ih _ _ _ (by omega)]

/-- The features of a mask, in a JSON member. -/
theorem writeRateFeaturesArray_eq (json : Bytes) (mask : UInt32) :
    writeRateFeaturesArray env json mask = json ++ (utf8 "\"rate_feature\":" ++
      ((featureItems (env.rateFeatures.getD []) mask).map Text.written).render) := by
  rw [map_featureItems, Json.render]
  unfold writeRateFeaturesArray
  cases env.rateFeatures with
  | none => simp [utf8_rateFeature, utf8_bracket, maskedFeatures, renderItems]
  | some features =>
    have hlen : 0 + (features.take 24).length ≤ 24 := by
      rw [List.length_take]
      omega
    have h1 : (1 : UInt32) = UInt32.ofNat (2 ^ 0) := rfl
    simp only [h1, foldl_writeFeature mask _ 0 _ false hlen, utf8_rateFeature, utf8_bracket,
      Option.getD_some]
    simp

/-! ## Dates -/

theorem addU8_digit {n : UInt32} (h : n.toNat < 10) :
    (addU8 0x30 n.toUInt8 : Flow ρ UInt8) = next (digit n.toNat) := by
  have hz : (0x30 : UInt8).toNat = 0x30 := rfl
  have hn : n.toUInt8.toNat = n.toNat := by
    rw [UInt32.toNat_toUInt8, Nat.mod_eq_of_lt (by omega)]
  have hd : 0x30 + n.toUInt8 = digit n.toNat := by
    rw [← UInt8.toNat_inj, toNat_digit h, UInt8.toNat_add, hn, hz, Nat.mod_eq_of_lt (by omega)]
  rw [addU8, if_pos (by rw [hn, hz]; omega), hd]

/-- A year of four digits. -/
theorem writeU32FourDigits_eq (buf : Bytes) {n : UInt32} (h : n.toNat < 10000) :
    (writeU32FourDigits buf n : Flow ρ Bytes) = next (buf ++ lastDigits 4 n.toNat) := by
  have h1 : (n / 1000).toNat = n.toNat / 10 / 10 / 10 % 10 := by
    simp only [UInt32.toNat_div, UInt32.reduceToNat]
    omega
  have h2 : (n % 1000 / 100).toNat = n.toNat / 10 / 10 % 10 := by
    simp only [UInt32.toNat_div, UInt32.toNat_mod, UInt32.reduceToNat]
    omega
  have h3 : (n % 1000 % 100 / 10).toNat = n.toNat / 10 % 10 := by
    simp only [UInt32.toNat_div, UInt32.toNat_mod, UInt32.reduceToNat]
    omega
  have h4 : (n % 1000 % 100 % 10).toNat = n.toNat % 10 := by
    simp only [UInt32.toNat_mod, UInt32.reduceToNat]
    omega
  simp only [writeU32FourDigits, addU8_digit (show (n / 1000).toNat < 10 by omega),
    addU8_digit (show (n % 1000 / 100).toNat < 10 by omega),
    addU8_digit (show (n % 1000 % 100 / 10).toNat < 10 by omega),
    addU8_digit (show (n % 1000 % 100 % 10).toNat < 10 by omega), next_bind, h1, h2, h3, h4]
  rfl

/-- A month or a day. -/
theorem writeU32TwoDigits_eq (buf : Bytes) {n : ℕ} (h : n < 100) :
    (writeU32TwoDigits buf (UInt32.ofNat n) : Flow ρ Bytes) = next (buf ++ lastDigits 2 n) := by
  have hn : (UInt32.ofNat n).toNat = n := by
    rw [UInt32.toNat_ofNat', Nat.mod_eq_of_lt (by omega)]
  have h1 : (UInt32.ofNat n / 10).toNat = n / 10 := by
    simp only [UInt32.toNat_div, UInt32.reduceToNat, hn]
  have h2 : (UInt32.ofNat n % 10).toNat = n % 10 := by
    simp only [UInt32.toNat_mod, UInt32.reduceToNat, hn]
  have hl : lastDigits 2 n = [digit (n / 10 % 10), digit (n % 10)] := rfl
  unfold writeU32TwoDigits
  by_cases hlt : UInt32.ofNat n < 10
  · have hlt' : n < 10 := by simpa [UInt32.lt_iff_toNat_lt, hn] using hlt
    rw [if_pos hlt, addU8_digit (by omega), next_bind, hn, hl, Nat.div_eq_of_lt hlt',
      Nat.mod_eq_of_lt hlt']
    rfl
  · rw [if_neg hlt, addU8_digit (by omega), next_bind, addU8_digit (by omega), next_bind, h1, h2,
      hl, Nat.mod_eq_of_lt (show n / 10 < 10 by omega)]
    rfl

theorem toNat_ofInt {year : ℤ} (h0 : 0 ≤ year) (hy : year < 10000) :
    (UInt32.ofInt year).toNat = year.toNat := by
  rw [UInt32.ofInt, UInt32.toNat_ofNat']
  omega

/-- A packed date, with the buffer as it is left: unchanged if there is no such day. -/
theorem writePackedDateBuf_eq (json : Bytes) (packed : UInt16) :
    (dateText env packed = none ∧
      ∃ e, writePackedDateBuf env json packed = .ok (.error e, json)) ∨
    ∃ date, dateText env packed = some date ∧
      writePackedDateBuf env json packed = .ok (.ok (), json ++ date) := by
  unfold writePackedDateBuf dateText
  set month := ((packed >>> 5) &&& 0b1111).toNat + 1
  set day := (packed &&& 0b11111).toNat + 1
  set offset := ((packed >>> 9) &&& 0b111).toNat with hoff
  have hoff7 : offset ≤ 7 := by
    rw [hoff, UInt16.toNat_and]
    exact Nat.and_le_right
  have h0 := env.currentYear_nonneg
  have hy := env.currentYear_le
  have hyear {ρ : Type} : (addI32 env.currentYear offset : Flow ρ ℤ) =
      next (env.currentYear + offset) := if_pos ⟨by omega, by omega⟩
  -- the mask of the month lets 13 to 16 pass, that of the day 32
  by_cases hmd : month > 12 ∨ day > 31
  · refine .inl ⟨if_neg fun h => by omega,
      .validation "invalid packed date: month/day out of range", ?_⟩
    simp only [returnIf_of_pos hmd, ret_bind, run_ret]
  · simp only [returnIf_of_neg hmd, next_bind, hyear]
    cases hymd : env.crates.fromYmdOpt (env.currentYear + offset) month day with
    | none => exact .inl ⟨if_neg (by simp), _, rfl⟩
    | some date =>
      have hsame := env.crates.fromYmdOpt_eq hymd
      have hbad : ¬ (date.month ≠ month ∨ date.day ≠ day) := by omega
      have hn := toNat_ofInt (show 0 ≤ env.currentYear + offset by omega) (by omega)
      have hlt : (UInt32.ofInt (env.currentYear + offset)).toNat < 10000 := by omega
      refine .inr ⟨_, if_pos ⟨by omega, by omega, rfl⟩, ?_⟩
      simp only [returnIf_of_neg hbad, next_bind, writeU32FourDigits_eq json hlt,
        writeU32TwoDigits_eq _ (show month < 100 by omega),
        writeU32TwoDigits_eq _ (show day < 100 by omega), hn, utf8_dash, pure_eq, run_next]
      simp

/-- A packed date: an error if there is no such day. -/
theorem writePackedDate_eq (json : Bytes) (packed : UInt16) :
    (dateText env packed = none ∧ ∃ e, writePackedDate env json packed = .ok (.error e)) ∨
    ∃ date, dateText env packed = some date ∧
      writePackedDate env json packed = .ok (.ok (json ++ date)) := by
  unfold writePackedDate
  rcases writePackedDateBuf_eq env json packed with ⟨hnone, e, he⟩ | ⟨date, hsome, hdate⟩
  · exact .inl ⟨hnone, e, by rw [he]; rfl⟩
  · exact .inr ⟨date, hsome, by rw [hdate]; rfl⟩

end RzProxy
