import RzProxy.Protocol.Response

/-!
# Helpers of the decoders

What the decoders need of the process around them (the rate features, the clock, other crates), and
the helpers that turn packed dates, property ids and feature masks into text.

## Main definitions

* `Crates`, `Env`: what comes from other crates, and the environment of a decoder
* `bitmaskToRateFeatureStrings`, `u16ToDate`, `bytesToPropertyId`: text as a string
* `writePackedDateBuf`, `writeQuotedPropertyId`, `writeRateFeaturesArray`: text added to a buffer
* `writePackedDate`: a date, for a caller that drops the buffer on an error
-/

namespace RzProxy

open ByteString Evaluation Evaluation.Flow JsonText

/-- A date of `chrono`, as far as it is looked at. -/
structure NaiveDate where
  year : ℤ
  month : ℕ
  day : ℕ

/-- The canonical text of a UUID: lower-case hexadecimal with hyphens. -/
def hyphenated (bs : Bytes) : Bytes :=
  let hex (b : UInt8) : Bytes := [(utf8 "0123456789abcdef").getD (b >>> 4).toNat 0,
    (utf8 "0123456789abcdef").getD (b &&& 0x0F).toNat 0]
  let group (i n : ℕ) : Bytes := ((bs.drop i).take n).flatMap hex
  group 0 4 ++ 0x2D :: (group 4 2 ++ 0x2D :: (group 6 2 ++ 0x2D :: (group 8 2 ++
    0x2D :: group 10 6)))

/-- The last `w` decimal digits of a number. -/
def lastDigits : ℕ → ℕ → Bytes
  | 0, _ => []
  | w + 1, n => lastDigits w (n / 10) ++ [digit (n % 10)]

/-- What the decoders use of other crates, with what these document. -/
structure Crates where
  /-- `NaiveDate::from_ymd_opt` of `chrono` -/
  fromYmdOpt : ℤ → ℕ → ℕ → Option NaiveDate
  fromYmdOpt_eq : ∀ {y m d date}, fromYmdOpt y m d = some date → date.month = m ∧ date.day = d
  /-- `format("%Y-%m-%d").to_string()` of a date of `chrono` -/
  formatYmd : NaiveDate → String
  /-- `Buffer::format` of `itoa` -/
  itoaFormat : ℕ → String
  itoaFormat_eq : ∀ n, utf8 (itoaFormat n) = decimal n
  /-- `Uuid::from_bytes(..).to_string()` of `uuid` -/
  uuidToString : Bytes → String
  uuidToString_eq : ∀ bs, bs.length = 16 → utf8 (uuidToString bs) = hyphenated bs

/-- The hexadecimal text of a UUID is ASCII. -/
theorem validUtf8_hyphenated (bs : Bytes) : validUtf8 (hyphenated bs) = true := by
  have hhex (i : ℕ) : (utf8 "0123456789abcdef").getD i 0 < 0x80 := by
    rw [List.getD_eq_getElem?_getD]
    by_cases hi : i < (utf8 "0123456789abcdef").length
    · rw [List.getElem?_eq_getElem hi, Option.getD_some]
      have hall : ((utf8 "0123456789abcdef").all (· < 0x80)) = true := by decide
      exact of_decide_eq_true (List.all_eq_true.mp hall _ (List.getElem_mem hi))
    · rw [List.getElem?_eq_none (by omega), Option.getD_none]
      decide
  refine validUtf8_of_ascii fun b hb => ?_
  simp only [hyphenated, List.mem_append, List.mem_cons, List.mem_flatMap, List.not_mem_nil,
    or_false] at hb
  have h2D : (0x2D : UInt8) < 0x80 := by decide
  rcases hb with ⟨_, -, rfl | rfl⟩ | rfl | ⟨_, -, rfl | rfl⟩ | rfl | ⟨_, -, rfl | rfl⟩ | rfl |
    ⟨_, -, rfl | rfl⟩ | rfl | ⟨_, -, rfl | rfl⟩ <;> first | exact h2D | exact hhex _

/-- The days of a month of the Gregorian calendar. -/
def daysInMonth (y : ℤ) (m : ℕ) : ℕ :=
  if m = 2 then if y % 4 = 0 ∧ (y % 100 ≠ 0 ∨ y % 400 = 0) then 29 else 28
  else if m ∈ [4, 6, 9, 11] then 30 else 31

/-- Crates that do as documented. -/
def Crates.documented : Crates where
  fromYmdOpt y m d :=
    if -262143 ≤ y ∧ y ≤ 262142 ∧ 1 ≤ m ∧ m ≤ 12 ∧ 1 ≤ d ∧ d ≤ daysInMonth y m then
      some { year := y, month := m, day := d }
    else none
  fromYmdOpt_eq h := by
    obtain ⟨-, h⟩ := Option.ite_none_right_eq_some.mp h
    cases h
    exact ⟨rfl, rfl⟩
  formatYmd date := fromUtf8Lossy (lastDigits 4 date.year.toNat ++
    0x2D :: (lastDigits 2 date.month ++ 0x2D :: lastDigits 2 date.day))
  itoaFormat n := fromUtf8Lossy (decimal n)
  itoaFormat_eq n := by rw [utf8_fromUtf8Lossy, lossy_of_valid (validUtf8_decimal n)]
  uuidToString bs := fromUtf8Lossy (hyphenated bs)
  uuidToString_eq bs _ := by rw [utf8_fromUtf8Lossy, lossy_of_valid (validUtf8_hyphenated bs)]

/-- The environment of a decoder: `RATE_FEATURES`, and a clock in a year of four digits. -/
structure Env where
  crates : Crates
  rateFeatures : Option (List String)
  currentYear : ℤ
  currentYear_nonneg : 0 ≤ currentYear
  currentYear_le : currentYear ≤ 9992

/-- An environment with the given features, in the year 2026. -/
def Env.documented (features : List String) : Env where
  crates := .documented
  rateFeatures := some features
  currentYear := 2026
  currentYear_nonneg := by decide
  currentYear_le := by decide

variable {ρ : Type} (env : Env)

/-! ## Rate features -/

def getRateFeatures : Except RZError (List String) :=
  match env.rateFeatures with
  | some rateFeatures => .ok rateFeatures
  | none => .error (.validation "RATE_FEATURES not initialized")

/-- The rounds `is` of the loop over the bits of a mask. -/
def collectFeatures (rateFeatures : List String) (mask : UInt32) :
    List ℕ → List String → Flow ρ (List String)
  | [], out => return out
  | i :: is, out =>
    if i ≥ rateFeatures.length then return out
    else if mask &&& (1 <<< UInt32.ofNat i) ≠ 0 then do
      let feature ← index rateFeatures i
      collectFeatures rateFeatures mask is (out ++ [feature])
    else collectFeatures rateFeatures mask is out

def bitmaskToRateFeatureStrings (mask : UInt32) : Exec (Except RZError (List String)) :=
  match getRateFeatures env with
  | .error e => .ok (.error e)
  | .ok rateFeatures => run do
    let out ← collectFeatures rateFeatures mask (List.range 24) []
    return .ok out

/-- One round of the loop over the features: the buffer, whether one was written, and the bit. -/
def writeFeature (mask : UInt32) (s : Bytes × Bool × UInt32) (feature : String) :
    Bytes × Bool × UInt32 :=
  let (json, wroteAny, bit) := s
  if mask &&& bit ≠ 0 then
    let json := if wroteAny then json ++ utf8 "," else json
    (json ++ utf8 "\"" ++ utf8 feature ++ utf8 "\"", true, bit <<< 1)
  else (json, wroteAny, bit <<< 1)

/-- `"rate_feature":[...]`. -/
def writeRateFeaturesArray (json : Bytes) (mask : UInt32) : Bytes :=
  let json := json ++ utf8 "\"rate_feature\":["
  let json := match env.rateFeatures with
    | none => json
    | some features => ((features.take 24).foldl (writeFeature mask) (json, false, 1)).1
  json ++ utf8 "]"

/-! ## Dates -/

def u16ToDate (packed : UInt16) : Exec (Except RZError String) := run do
  let yearOffset : ℤ := ((packed >>> 9) &&& 0b111).toNat
  let month ← addU8 ((packed >>> 5) &&& 0b1111).toUInt8 1
  let day ← addU8 (packed &&& 0b11111).toUInt8 1
  let targetYear ← addI32 env.currentYear yearOffset
  match env.crates.fromYmdOpt targetYear month.toNat day.toNat with
  | none => return .error (.validation "invalid packed date")
  | some date =>
    returnIf (date.month ≠ month.toNat ∨ date.day ≠ day.toNat)
      (.error (.validation "invalid packed date"))
    return .ok (env.crates.formatYmd date)

def writeU32FourDigits (buf : Bytes) (n : UInt32) : Flow ρ Bytes := do
  let a ← addU8 0x30 (n / 1000).toUInt8
  let n := n % 1000
  let b ← addU8 0x30 (n / 100).toUInt8
  let n := n % 100
  let c ← addU8 0x30 (n / 10).toUInt8
  let d ← addU8 0x30 (n % 10).toUInt8
  return buf ++ [a, b, c, d]

def writeU32TwoDigits (buf : Bytes) (n : UInt32) : Flow ρ Bytes :=
  if n < 10 then do
    let b ← addU8 0x30 n.toUInt8
    return buf ++ [0x30, b]
  else do
    let a ← addU8 0x30 (n / 10).toUInt8
    let b ← addU8 0x30 (n % 10).toUInt8
    return buf ++ [a, b]

/-- `write_packed_date` with the buffer as it leaves it: it writes only when nothing can fail any
more. -/
def writePackedDateBuf (json : Bytes) (packed : UInt16) :
    Exec (Except RZError Unit × Bytes) := run do
  let yearOffset : ℤ := ((packed >>> 9) &&& 0b111).toNat
  let month := ((packed >>> 5) &&& 0b1111).toNat + 1
  let day := (packed &&& 0b11111).toNat + 1
  returnIf (month > 12 ∨ day > 31)
    (.error (.validation "invalid packed date: month/day out of range"), json)
  let targetYear ← addI32 env.currentYear yearOffset
  match env.crates.fromYmdOpt targetYear month day with
  | none => return (.error (.validation "invalid packed date"), json)
  | some date =>
    returnIf (date.month ≠ month ∨ date.day ≠ day)
      (.error (.validation "invalid packed date: overflow"), json)
    -- `target_year as u32`
    let json ← writeU32FourDigits json (UInt32.ofInt targetYear)
    let json ← writeU32TwoDigits (json ++ utf8 "-") (UInt32.ofNat month)
    let json ← writeU32TwoDigits (json ++ utf8 "-") (UInt32.ofNat day)
    return (.ok (), json)

/-- `write_packed_date` for a caller that drops the buffer on an error. -/
def writePackedDate (json : Bytes) (packed : UInt16) : Exec (Except RZError Bytes) :=
  (writePackedDateBuf env json packed).map fun p => p.1.map fun _ => p.2

/-! ## Property ids -/

/-- `uuid_bytes`: the first sixteen bytes, filled up with zeros. -/
def uuidBytes (data : Bytes) : Bytes :=
  let copyLen := min data.length 16
  data.take copyLen ++ List.replicate (16 - copyLen) 0

/-- The versions that a UUID may have in the high half of byte 6. -/
def uuidVersion (b : UInt8) : Bool := (b &&& 0xF0) >>> 4 ∈ ([1, 2, 3, 4, 5, 7] : Bytes)

/-- The bytes before the first zero. -/
def untilNul (bs : Bytes) : Bytes := bs.takeWhile (· ≠ 0)

def bytesToPropertyId (data : Bytes) : Exec String := run do
  returnIf (data.length < 7) ""
  let marker ← index data 6
  if marker = 0xF0 then
    let leftLen := (untilNul (← slice data 0 6)).length
    let rightLen := (untilNul (← slice data 7 data.length)).length
    let left ← slice data 0 leftLen
    let right ← slice data 7 (7 + rightLen)
    return fromUtf8Lossy (left ++ right)
  else if uuidVersion marker then
    return env.crates.uuidToString (uuidBytes data)
  else
    return ""

def hex2 (json : Bytes) (b : UInt8) : Flow ρ Bytes := do
  let hi ← index (utf8 "0123456789abcdef") (b >>> 4).toNat
  let lo ← index (utf8 "0123456789abcdef") (b &&& 0x0F).toNat
  return json ++ [hi, lo]

/-- The order in which a UUID is written: its bytes, and `none` for a hyphen. -/
def uuidOrder : List (Option ℕ) :=
  [some 0, some 1, some 2, some 3, none, some 4, some 5, none, some 6, some 7, none, some 8, some 9,
    none, some 10, some 11, some 12, some 13, some 14, some 15]

/-- The sixteen bytes of a UUID, written in that order. -/
def writeUuid (json uuid : Bytes) : Flow ρ Bytes :=
  uuidOrder.foldlM (fun json i =>
    match i with
    | some i => do hex2 json (← index uuid i)
    | none => return json ++ utf8 "-") json

def writeQuotedPropertyId (json data : Bytes) : Exec (Except RZError Bytes) := run do
  returnIf (data.length < 7) (.ok (json ++ utf8 "\"\""))
  let marker ← index data 6
  if marker = 0xF0 then
    let json := json ++ utf8 "\""
    let left ← slice data 0 6
    let json := json ++ untilNul left
    if data.length ≥ 8 then
      let right ← slice data 7 data.length
      return .ok (json ++ untilNul right ++ utf8 "\"")
    else
      return .ok (json ++ utf8 "\"")
  else if uuidVersion marker then
    let json ← writeUuid (json ++ utf8 "\"") (uuidBytes data)
    return .ok (json ++ utf8 "\"")
  else
    return .ok (json ++ utf8 "\"\"")

end RzProxy
