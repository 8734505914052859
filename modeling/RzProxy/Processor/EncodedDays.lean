import RzProxy.Processor.Encoded

/-!
# Encoded days

The backend sends a day in eleven bytes, the days of a property behind their number, and the
properties that are available one after the other with their days; or one day of one room in five
fields. The decoders give every day its own date, numbers and features, refuse a reply with a date
that does not exist, and read a single day from exactly its five fields.

## Main definitions

* `DayRecord`, `PropertyRecord`: a day, and a property with its days
* `DayRecord.Valid`: the date of the day exists
* `DayReply`: one day of one room
* `DayRecord.text`, `PropertyRecord.text`, `DayReply.body`: the objects, as they are written

## Main results

* `dateText_eq`: the text of a date that exists
* `searchAvail_decoded`: properties with their days
* `getPropRoomDay_decoded`: one day, and nothing else
-/

namespace RzProxy

open ByteString Evaluation Evaluation.Flow JsonText

/-! ## All or nothing -/

/-- Of a list whose elements must all pass, the first one must pass and so must the others. -/
theorem ite_forall_cons {α β : Type} {P : α → Prop} [DecidablePred P] (a : α) (as : List α)
    (g : α → β) : (if ∀ x ∈ a :: as, P x then some ((a :: as).map g) else none) =
      if P a then (if ∀ x ∈ as, P x then some (as.map g) else none).map (g a :: ·) else none := by
  by_cases ha : P a
  · rw [if_pos ha]
    by_cases has : ∀ x ∈ as, P x
    · rw [if_pos has, if_pos (List.forall_mem_cons.mpr ⟨ha, has⟩)]
      rfl
    · rw [if_neg has, if_neg (mt (fun h => (List.forall_mem_cons.mp h).2) has)]
      rfl
  · rw [if_neg ha, if_neg (mt (fun h => (List.forall_mem_cons.mp h).1) ha)]

/-! ## Dates -/

/-- The calendar of `chrono`, as it is documented: the dates of the Gregorian calendar. -/
def Crates.Gregorian (crates : Crates) : Prop :=
  ∀ (y : ℤ) (m d : ℕ), 0 ≤ y → y ≤ 9999 →
    ((crates.fromYmdOpt y m d).isSome ↔ 1 ≤ m ∧ m ≤ 12 ∧ 1 ≤ d ∧ d ≤ daysInMonth y m)

theorem gregorian_documented : Crates.documented.Gregorian := by
  intro y m d h0 hy
  show (if _ then some _ else none).isSome ↔ _
  constructor
  · intro h
    split_ifs at h with hc
    · exact hc.2.2
    · cases h
  · intro h
    rw [if_pos ⟨by omega, by omega, h⟩]
    rfl

theorem daysInMonth_le (y : ℤ) (m : ℕ) : daysInMonth y m ≤ 31 := by
  rw [daysInMonth]
  split_ifs <;> decide

/-- A day with its date in sixteen bits, as it is sent. -/
structure DayRecord where
  packed : UInt16
  availability : UInt8
  finalPrice : UInt32
  mask : UInt32

namespace DayRecord

variable (env : Env) (r : DayRecord)

/-- The eleven bytes of a day. -/
def bytes : Bytes := le16 r.packed ++ r.availability :: (le32 r.finalPrice ++ le32 r.mask)

def year : ℤ := env.currentYear + ((r.packed >>> 9) &&& 0b111).toNat

def month : ℕ := ((r.packed >>> 5) &&& 0b1111).toNat + 1

def day : ℕ := (r.packed &&& 0b11111).toNat + 1

/-- There is such a day. -/
def Valid : Prop := r.month ≤ 12 ∧ r.day ≤ daysInMonth (r.year env) r.month

instance : Decidable (r.Valid env) :=
  inferInstanceAs (Decidable (r.month ≤ 12 ∧ r.day ≤ daysInMonth (r.year env) r.month))

/-- The date as `YYYY-MM-DD`. -/
def date : Bytes :=
  lastDigits 4 (r.year env).toNat ++ 0x2D :: (lastDigits 2 r.month ++ 0x2D :: lastDigits 2 r.day)

variable {env}

/-- **The date of a day is written if there is such a day.** -/
theorem dateText_eq (h : env.crates.Gregorian) :
    dateText env r.packed = if r.Valid env then some (r.date env) else none := by
  have hoffset : ((r.packed >>> 9) &&& 0b111).toNat ≤ 7 := by
    rw [UInt16.toNat_and]
    exact Nat.and_le_right
  have h0 := env.currentYear_nonneg
  have hy := env.currentYear_le
  have hgregorian := h (r.year env) r.month r.day (by unfold year; omega) (by unfold year; omega)
  have hle := daysInMonth_le (r.year env) r.month
  refine if_congr ?_ rfl rfl
  show r.month ≤ 12 ∧ r.day ≤ 31 ∧ (env.crates.fromYmdOpt (r.year env) r.month r.day).isSome ↔ _
  rw [hgregorian, Valid]
  have hmonth : 1 ≤ r.month := Nat.le_add_left 1 _
  have hday : 1 ≤ r.day := Nat.le_add_left 1 _
  omega

/-! ## Days -/

theorem length_bytes : r.bytes.length = 11 := by
  rw [bytes, List.length_append, List.length_cons, List.length_append, length_le16, length_le32,
    length_le32]

variable (env) (features : List String)

/-- The object of a day. -/
def object : Json Text :=
  .obj [(.const "date", .str (.copied (r.date env))),
    (.const "availability", .nat r.availability.toNat),
    (.const "final_price", .nat r.finalPrice.toNat),
    (.const "rate_feature", featureItems features r.mask)]

variable {env}

/-- The object that is read off the bytes of a day, if there is such a day. -/
theorem dayObject_bytes (h : env.crates.Gregorian) :
    dayObject env features r.bytes =
      if r.Valid env then some (r.object env features) else none := by
  have hpacked : r.bytes.take 2 = le16 r.packed := List.take_left' (length_le16 _)
  have hrest : r.bytes.drop 2 = r.availability :: (le32 r.finalPrice ++ le32 r.mask) :=
    List.drop_left' (length_le16 _)
  have havailability : r.bytes.getD 2 0 = r.availability := by
    rw [bytes, List.getD_eq_getElem?_getD, List.getElem?_append_right (length_le16 _).le,
      length_le16]
    rfl
  have hnumbers : r.bytes.drop 3 = le32 r.finalPrice ++ le32 r.mask := by
    rw [show 3 = 2 + 1 from rfl, ← List.drop_drop, hrest, List.drop_one, List.tail_cons]
  have hmask : r.bytes.drop 7 = le32 r.mask := by
    rw [show 7 = 3 + 4 from rfl, ← List.drop_drop, hnumbers, List.drop_left' (length_le32 _)]
  rw [dayObject, hpacked, u16FromLE_le16, r.dateText_eq h, havailability, hnumbers, hmask,
    List.take_left' (length_le32 _), u32FromLE_le32, List.take_of_length_le (length_le32 _).le,
    u32FromLE_le32]
  split_ifs
  · rfl
  · rfl

/-- The objects of all days, if there are such days. -/
theorem dayObjects_flatMap (h : env.crates.Gregorian) (days : List DayRecord) :
    dayObjects env features days.length (days.flatMap bytes) =
      if ∀ r ∈ days, r.Valid env then some (days.map (object env · features)) else none := by
  induction days with
  | nil => simp [dayObjects]
  | cons r days ih =>
    have htake : (r.bytes ++ days.flatMap bytes).take 11 = r.bytes := List.take_left' r.length_bytes
    have hdrop : (r.bytes ++ days.flatMap bytes).drop 11 = days.flatMap bytes :=
      List.drop_left' r.length_bytes
    rw [List.flatMap_cons, List.length_cons, dayObjects, htake, hdrop, r.dayObject_bytes features h,
      ih]
    rw [ite_forall_cons]
    by_cases hr : r.Valid env
    · rw [if_pos hr, if_pos hr]
    · rw [if_neg hr, if_neg hr]

/-- The days of a property: their number, and their bytes. -/
def listBytes (days : List DayRecord) : Bytes :=
  le16 (UInt16.ofNat days.length) ++ days.flatMap bytes

theorem length_listBytes (days : List DayRecord) :
    (listBytes days).length = 2 + 11 * days.length := by
  have hdays : (days.flatMap bytes).length = 11 * days.length := by
    induction days with
    | nil => rfl
    | cons r days ih =>
      rw [List.flatMap_cons, List.length_append, r.length_bytes, ih, List.length_cons]
      omega
  rw [listBytes, List.length_append, length_le16, hdays]

/-- As many days are read as there are. -/
theorem daysOf_listBytes (h : env.crates.Gregorian) {days : List DayRecord}
    (hlen : days.length ≤ 65535) : daysOf env features (listBytes days) =
      if ∀ r ∈ days, r.Valid env then some (days.map (object env · features)) else none := by
  have hcount : (u16FromLE ((listBytes days).take 2)).toNat = days.length := by
    rw [listBytes, List.take_left' (length_le16 _), u16FromLE_le16]
    exact ((ofNat_eq_iff (by omega)).mp rfl).symm
  have hdrop : (listBytes days).drop 2 = days.flatMap bytes := List.drop_left' (length_le16 _)
  have hsize := length_listBytes days
  simp only [daysOf, hcount, hdrop]
  rw [if_pos (by omega), dayObjects_flatMap features h]

end DayRecord

/-! ## Properties -/

/-- A property with its days. -/
structure PropertyRecord where
  id : Bytes
  days : List DayRecord
  length_id : id.length < 2 ^ 32
  length_days : days.length ≤ 65535

namespace PropertyRecord

/-- The field of a property, and that of its days. -/
def fields (p : PropertyRecord) : List (UInt8 × Bytes) :=
  [(0x01, p.id), (0x08, DayRecord.listBytes p.days)]

/-- The field of the number of days, and the fields of all properties. -/
def items (numDays : UInt16) (properties : List PropertyRecord) : List (UInt8 × Bytes) :=
  (0x02, le16 numDays) :: properties.flatMap fields

theorem length_items (numDays : UInt16) (properties : List PropertyRecord) :
    (items numDays properties).length = 2 * properties.length + 1 := by
  rw [items, List.length_cons, List.length_flatMap]
  simp [fields, Nat.mul_comm]

theorem dataFit_items (numDays : UInt16) (properties : List PropertyRecord) :
    DataFit (items numDays properties) := by
  intro item hitem
  rcases List.mem_cons.mp hitem with rfl | hitem
  · rw [length_le16]
    decide
  · obtain ⟨p, -, hitem⟩ := List.mem_flatMap.mp hitem
    have hid := p.length_id
    have hdays := p.length_days
    rw [fields, List.mem_cons, List.mem_singleton] at hitem
    rcases hitem with rfl | rfl
    · exact hid
    · rw [DayRecord.length_listBytes]
      omega

/-- All days of a property exist. -/
def Valid (env : Env) (p : PropertyRecord) : Prop := ∀ r ∈ p.days, r.Valid env

instance (env : Env) (p : PropertyRecord) : Decidable (p.Valid env) := List.decidableBAll _ p.days

variable {env : Env} (features : List String)

/-- Properties and their days are taken in turn. -/
theorem propertiesOf_flatMap (h : env.crates.Gregorian) (k : UInt16)
    (properties : List PropertyRecord) :
    propertiesOf env features (numberFrom k (properties.flatMap fields)) =
      if ∀ p ∈ properties, p.Valid env then
        some (properties.map fun p => propertyObject p.id (p.days.map (·.object env features)))
      else none := by
  induction properties generalizing k with
  | nil => simp [numberFrom, propertiesOf]
  | cons p properties ih =>
    have hdays : daysOf env features (DayRecord.listBytes p.days) =
        if p.Valid env then some (p.days.map (·.object env features)) else none :=
      DayRecord.daysOf_listBytes features h p.length_days
    show propertiesOf env features (⟨k, 0x01, p.id⟩ :: ⟨k + 1, 0x08, DayRecord.listBytes p.days⟩ ::
      numberFrom (k + 1 + 1) (properties.flatMap fields)) = _
    rw [propertiesOf, if_pos ⟨rfl, rfl⟩, hdays]
    rw [ite_forall_cons]
    by_cases hp : p.Valid env
    · rw [if_pos hp, if_pos hp, ih]
    · rw [if_neg hp, if_neg hp]

/-- **All properties are answered, or none is.** -/
theorem answer_searchAvail (h : env.crates.Gregorian) (hfeatures : env.rateFeatures = some features)
    (numDays : UInt16) {properties : List PropertyRecord} (hlen : properties.length ≤ 32766) :
    answerOf (searchAvailAnswer env) (encoded (items numDays properties)) =
      if ∀ p ∈ properties, p.Valid env then
        some (successAnswer [(.const "properties", .arr (properties.map fun p =>
          propertyObject p.id (p.days.map (·.object env features))))])
      else none := by
  have hcount : UInt16.ofNat (items numDays properties).length ≠ 0 := by
    rw [length_items, ne_eq, ofNat_eq_iff (by omega)]
    exact Nat.succ_ne_zero _
  have havail : availOf env features (numberFrom 1 (items numDays properties)) =
      propertiesOf env features (numberFrom (1 + 1) (properties.flatMap fields)) := by
    show availOf env features (⟨1, 0x02, le16 numDays⟩ :: numberFrom (1 + 1) _) = _
    rw [availOf, if_pos ⟨rfl, length_le16 numDays⟩]
  rw [encoded, answerOf_announced, searchAvailAnswer, if_neg hcount,
    countedFields_announced (dataFit_items numDays properties), if_pos rfl, Option.bind_some,
    hfeatures, Option.getD_some, havail, propertiesOf_flatMap features h]
  split_ifs
  · rfl
  · rfl

end PropertyRecord

/-! ## Texts -/

/-- The names of the features of a mask, with commas between them. -/
def featureList (features : List String) (mask : UInt32) : Bytes :=
  [0x2C].intercalate ((maskedFeatures mask 0 (features.take 24)).map fun s => quoted (utf8 s))

theorem render_featureItems (features : List String) (mask : UInt32) :
    ((featureItems features mask).map Text.written).render =
      0x5B :: (featureList features mask ++ [0x5D]) := by
  rw [map_featureItems, Json.render, renderItems_eq_intercalate, List.map_map]
  rfl

section Texts

variable (env : Env) (features : List String)

/-- The object of a day, as it is written. -/
def DayRecord.text (r : DayRecord) : Bytes :=
  utf8 "\x7b\"date\":\"" ++ r.date env ++ utf8 "\",\"availability\":" ++
    decimal r.availability.toNat ++ utf8 ",\"final_price\":" ++ decimal r.finalPrice.toNat ++
    utf8 ",\"rate_feature\":[" ++ featureList features r.mask ++ utf8 "]\x7d"

/-- The object of a property, as it is written. -/
def PropertyRecord.text (p : PropertyRecord) : Bytes :=
  utf8 "\x7b\"property_id\":" ++ quoted (propertyId p.id) ++ utf8 ",\"days\":[" ++
    [0x2C].intercalate (p.days.map (DayRecord.text env features)) ++ utf8 "]\x7d"

theorem DayRecord.render_object (r : DayRecord) :
    ((r.object env features).map Text.written).render = r.text env features := by
  have hkey : utf8 ",\"rate_feature\":[" = utf8 "," ++ (utf8 "\"rate_feature\":" ++ [0x5B]) := by
    decide
  rw [object, dayObject_eq, render_featureItems, text, hkey, utf8_close]
  simp only [List.append_assoc, List.cons_append, List.nil_append]
  rfl

theorem PropertyRecord.render_object (p : PropertyRecord) :
    ((propertyObject p.id (p.days.map (·.object env features))).map Text.written).render =
      p.text env features := by
  have hdays : (Json.render ∘ Json.map Text.written) ∘ (·.object env features) =
      DayRecord.text env features := funext (DayRecord.render_object env features)
  rw [propertyObject_eq, renderItems_eq_intercalate, List.map_map, List.map_map, hdays, text]
  simp only [List.append_assoc]
  rfl

end Texts

/-! ## Available properties -/

variable (metrics : Metrics) {env : Env} {features : List String}

/-- **Available properties are answered with their days**, every day with its own date, numbers and
features; and one date that does not exist makes the whole reply invalid. -/
theorem searchAvail_decoded (h : env.crates.Gregorian)
    (hfeatures : env.rateFeatures = some features) (numDays : UInt16)
    {properties : List PropertyRecord} (hlen : properties.length ≤ 32766) :
    ((∀ p ∈ properties, ∀ r ∈ p.days, r.Valid env) → ∃ metrics',
      decodeSearchAvailResponse env metrics (encoded (PropertyRecord.items numDays properties)) =
        .ok (jsonResponse .ok (listBody "properties"
          (properties.map (PropertyRecord.text env features))), metrics')) ∧
    ((∃ p ∈ properties, ∃ r ∈ p.days, ¬ r.Valid env) →
      decodeSearchAvailResponse env metrics (encoded (PropertyRecord.items numDays properties)) =
        .ok (invalidResponse, metrics)) := by
  have hanswer := answers_searchAvail env metrics
    (encoded (PropertyRecord.items numDays properties))
  rw [PropertyRecord.answer_searchAvail features h hfeatures numDays hlen] at hanswer
  constructor
  · intro hvalid
    have hall : ∀ p ∈ properties, p.Valid env := hvalid
    rw [if_pos hall] at hanswer
    obtain ⟨metrics', hdecode⟩ := hanswer.eq_json
    have htext : (fun v => (v.map Text.written).render) ∘
        (fun p : PropertyRecord => propertyObject p.id (p.days.map (·.object env features))) =
        PropertyRecord.text env features := funext (PropertyRecord.render_object env features)
    rw [bodyOf_arr, List.map_map, htext] at hdecode
    exact ⟨metrics', hdecode⟩
  · rintro ⟨p, hp, r, hr, hinvalid⟩
    rw [if_neg fun hvalid => hinvalid (hvalid p hp r hr)] at hanswer
    exact hanswer.eq_invalid

/-- A property with one day. -/
def PropertyRecord.single (r : DayRecord) : PropertyRecord where
  id := List.replicate 16 0x41
  days := [r]
  length_id := by decide
  length_days := by simp

/-- The first of January is a date, the thirtieth of February is none. -/
theorem searchAvail_decoded_january :
    (∃ metrics', decodeSearchAvailResponse (.documented ["BAR"]) ⟨0, 0⟩
        (encoded (PropertyRecord.items 1 [.single ⟨0, 4, 24000, 1⟩])) =
      .ok (jsonResponse .ok (listBody "properties"
        [(PropertyRecord.single ⟨0, 4, 24000, 1⟩).text (.documented ["BAR"]) ["BAR"]]),
        metrics')) ∧
    decodeSearchAvailResponse (.documented ["BAR"]) ⟨0, 0⟩ (encoded (PropertyRecord.items 2
        [.single ⟨0, 4, 24000, 1⟩, .single ⟨61, 4, 24000, 1⟩])) =
      .ok (invalidResponse, ⟨0, 0⟩) :=
  have hcalendar : (Env.documented ["BAR"]).crates.Gregorian := gregorian_documented
  ⟨(searchAvail_decoded ⟨0, 0⟩ hcalendar rfl 1 (by simp)).1 (by decide),
    (searchAvail_decoded ⟨0, 0⟩ hcalendar rfl 2 (by simp)).2
      ⟨_, List.mem_cons_of_mem _ List.mem_cons_self, _, List.mem_cons_self, by decide⟩⟩

/-! ## One day -/

/-- One day of one room. -/
structure DayReply where
  id : Bytes
  date : Bytes
  availability : UInt8
  finalPrice : UInt32
  mask : UInt32
  length_id : id.length < 2 ^ 32
  length_date : date.length < 2 ^ 32

namespace DayReply

/-- The reply: five fields. -/
def bytes (r : DayReply) : Bytes :=
  encoded [(0x01, r.id), (0x01, r.date), (0x02, [r.availability]), (0x03, le32 r.finalPrice),
    (0x03, le32 r.mask)]

/-- The body, with the string that the id stands for. -/
def body (features : List String) (id : String) (r : DayReply) : Bytes :=
  utf8 "\x7b\"status\":\"success\",\"property_id\":\"" ++ utf8 id ++ utf8 "\",\"date\":\"" ++
    utf8 ((fromUtf8 r.date).getD "invalid-date") ++ utf8 "\",\"availability\":" ++
    decimal r.availability.toNat ++ utf8 ",\"final_price\":" ++ decimal r.finalPrice.toNat ++
    utf8 ",\"rate_feature\":[" ++ featureList features r.mask ++ utf8 "]\x7d"

theorem dataFit (r : DayReply) : DataFit [(0x01, r.id), (0x01, r.date), (0x02, [r.availability]),
    (0x03, le32 r.finalPrice), (0x03, le32 r.mask)] := by
  have hbyte : ([r.availability] : Bytes).length < 2 ^ 32 := by
    rw [List.length_singleton]
    decide
  have hle (n : UInt32) : (le32 n).length < 2 ^ 32 := by
    rw [length_le32]
    decide
  simp only [DataFit, List.forall_mem_cons]
  exact ⟨r.length_id, r.length_date, hbyte, hle _, hle _, nofun⟩

/-- The answer to the reply. -/
theorem answer_bytes {env : Env} {features : List String}
    (hfeatures : env.rateFeatures = some features) (r : DayReply) :
    answerOf (getPropRoomDayAnswer env) r.bytes = some (successAnswer [
      (.const "property_id", .str (.lossy (propertyId r.id))),
      (.const "date", .str (.date r.date)),
      (.const "availability", .nat r.availability.toNat),
      (.const "final_price", .nat r.finalPrice.toNat),
      (.const "rate_feature", featureItems features r.mask)]) := by
  have hfit := fits_numberFrom (k := 1) r.dataFit
  simp only [numberFrom, List.forall_mem_cons] at hfit
  obtain ⟨hid, hdate, havailability, hprice, hmask, -⟩ := hfit
  rw [bytes, encoded, answerOf_announced]
  simp only [getPropRoomDayAnswer, numberFrom, List.flatMap_cons, List.flatMap_nil, withField,
    takeField_bytes_append hid, takeField_bytes_append hdate, takeField_bytes_append havailability,
    takeField_bytes_append hprice, takeField_bytes_append hmask, hfeatures, length_le32,
    u32FromLE_le32]
  rfl

/-- The body is that of the answer. -/
theorem body_eq (features : List String) (r : DayReply) :
    bodyOf (successAnswer [
      (.const "property_id", .str (.lossy (propertyId r.id))),
      (.const "date", .str (.date r.date)),
      (.const "availability", .nat r.availability.toNat),
      (.const "final_price", .nat r.finalPrice.toNat),
      (.const "rate_feature", featureItems features r.mask)]).members =
      r.body features (fromUtf8Lossy (propertyId r.id)) := by
  rw [← roomDayBody_eq, pushItems_eq fun json s => pushQuoted_eq json (utf8 s),
    renderItems_eq_intercalate, List.map_map, body, utf8_fromUtf8Lossy]
  rfl

end DayReply

/-- A payload with the status of a success has a head with this status, or it is cut in the head. -/
theorem takeHead_of_success {payload : Bytes} (h : 0x07 :: utf8 "SUCCESS" <+: payload) :
    takeHead payload = none ∨
      ∃ fieldCount rest, takeHead payload = some (utf8 "SUCCESS", fieldCount, rest) := by
  obtain ⟨more, rfl⟩ := h
  have hstatus : (utf8 "SUCCESS" ++ more).take (0x07 : UInt8).toNat = utf8 "SUCCESS" :=
    List.take_left' (by decide)
  rw [List.cons_append, takeHead, hstatus]
  split_ifs
  · exact .inl rfl
  · exact .inr ⟨_, _, rfl⟩

/-- Only five fields that are a day are answered. -/
theorem DayReply.exists_of_answer {env : Env} {payload : Bytes} {a : Answer}
    (hstatus : 0x07 :: utf8 "SUCCESS" <+: payload)
    (h : answerOf (getPropRoomDayAnswer env) payload = some a) :
    ∃ r : DayReply, payload = r.bytes := by
  rcases takeHead_of_success hstatus with hnone | ⟨fieldCount, rest, hhead⟩
  · rw [answerOf, hnone] at h
    cases h
  · rw [answerOf, hhead] at h
    simp only [if_true] at h
    obtain ⟨fs, tail, ht, rfl, rfl, -, id, date, availability, price, mask, rfl, ha, hp, hm⟩ :=
      (isSome_getPropRoomDayAnswer env).mp (Option.isSome_of_eq_some h)
    obtain ⟨hfit, hrest⟩ := bytes_of_takeFields ht
    obtain ⟨hid, hdate, -⟩ := List.forall_mem_cons.mp hfit |>.imp_right List.forall_mem_cons.mp
    obtain ⟨b, rfl⟩ := List.length_eq_one_iff.mp ha
    refine ⟨⟨id, date, b, u32FromLE price, u32FromLE mask, hid, hdate⟩, ?_⟩
    rw [bytes_of_takeHead hhead, hrest, List.append_nil, DayReply.bytes, encoded, announced,
      le32_u32FromLE hp, le32_u32FromLE hm]
    rfl

/-- **A day is answered by 200 if the reply is exactly its five fields**, and the body has the
property id, the date, the numbers and the features of the day; every other reply with the status
of a success is invalid. -/
theorem getPropRoomDay_decoded (hfeatures : env.rateFeatures = some features) {payload : Bytes}
    (hstatus : 0x07 :: utf8 "SUCCESS" <+: payload) :
    ∃ response metrics',
      decodeGetPropRoomDayResponse env metrics payload = .ok (response, metrics') ∧
      (response.status = .ok ↔ ∃ r : DayReply, payload = r.bytes) ∧
      (∀ r : DayReply, payload = r.bytes → ∃ id, bytesToPropertyId env r.id = .ok id ∧
        response = jsonResponse .ok (r.body features id)) ∧
      ((∀ r : DayReply, payload ≠ r.bytes) → response = invalidResponse) := by
  obtain ⟨metrics', hdecode, -⟩ := answers_getPropRoomDay env metrics payload
  have hday (r : DayReply) (hr : payload = r.bytes) :
      respond (answerOf (getPropRoomDayAnswer env) payload) =
        jsonResponse .ok (r.body features (fromUtf8Lossy (propertyId r.id))) := by
    rw [hr, r.answer_bytes hfeatures, respond, r.body_eq]
    rfl
  have hother (hr : ∀ r : DayReply, payload ≠ r.bytes) :
      respond (answerOf (getPropRoomDayAnswer env) payload) = invalidResponse := by
    cases h : answerOf (getPropRoomDayAnswer env) payload with
    | none => rfl
    | some a =>
      obtain ⟨r, heq⟩ := DayReply.exists_of_answer hstatus h
      exact absurd heq (hr r)
  refine ⟨_, metrics', hdecode, ⟨fun hok => ?_, ?_⟩, ?_, hother⟩
  · by_contra hr
    rw [hother (not_exists.mp hr)] at hok
    cases hok
  · rintro ⟨r, hr⟩
    rw [hday r hr]
    rfl
  · intro r hr
    exact ⟨_, bytesToPropertyId_eq env r.id, hday r hr⟩

/-- A day with no features. -/
theorem getPropRoomDay_decoded_day :
    ∃ response metrics', decodeGetPropRoomDayResponse (.documented []) ⟨0, 0⟩
        (DayReply.bytes ⟨List.replicate 16 0x41, utf8 "2026-01-01", 4, 24000, 0, by decide,
          by decide⟩) = .ok (response, metrics') ∧ response.status = .ok := by
  obtain ⟨response, metrics', hdecode, hiff, -⟩ := getPropRoomDay_decoded ⟨0, 0⟩
    (show (Env.documented []).rateFeatures = some [] from rfl)
    (show 0x07 :: utf8 "SUCCESS" <+: DayReply.bytes ⟨List.replicate 16 0x41, utf8 "2026-01-01", 4,
      24000, 0, by decide, by decide⟩ from ⟨_, rfl⟩)
  exact ⟨response, metrics', hdecode, hiff.mpr ⟨_, rfl⟩⟩

end RzProxy
