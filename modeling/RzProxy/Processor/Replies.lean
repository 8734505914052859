import RzProxy.Helper
import Mathlib.Data.List.Sort

/-!
# The decoders of the processors

The decoders that are written out in the modules of the commands. Each reads the head as the shared
decoders do, then the fields by offsets: some in a loop that goes on while seven bytes are left, so
that the number of fields is checked after it.

## Main definitions

* `decodeSearchPropResponse`, `decodePropRoomListResponse`, `decodePropRoomDateListResponse`
* `decodeGetPropRoomDayResponse`, `decodeGetSegmentsResponse`, `decodeSearchAvailResponse`
* `decodeGetCodecsResponse`: the reply that sets the rate features
-/

namespace RzProxy

open ByteString Evaluation Evaluation.Flow JsonText

variable (env : Env)

/-- The emission of the items of an array: a comma before each but the first. -/
def pushItems {α : Type} (write : Bytes → α → Bytes) (json : Bytes) (items : List α) : Bytes :=
  (items.zipIdx.foldl (fun json p => write (if p.2 > 0 then json ++ utf8 "," else json) p.1) json)

/-- `"text"`. -/
def pushQuoted (json text : Bytes) : Bytes := json ++ utf8 "\"" ++ text ++ utf8 "\""

/-! ## SEARCHPROP -/

/-- One round of the loop over the expected ids. -/
def searchPropRound (invalid : Response × Metrics) (data : Bytes) (s : List String × ℕ)
    (expectedId : UInt16) : Flow (Response × Metrics) (List String × ℕ) := do
  let (properties, offset) := s
  returnIf (offset + 7 > data.length) invalid
  let fieldId ← u16At data offset
  returnIf (fieldId ≠ expectedId) invalid
  let fieldType ← index data (offset + 2)
  returnIf (fieldType ≠ 0x01) invalid
  let fieldLen := (← u32At data (offset + 3)).toNat
  let offset := offset + 7
  returnIf (offset + fieldLen > data.length) invalid
  let rawBytes ← slice data offset (offset + fieldLen)
  let propId ← call (bytesToPropertyId env rawBytes)
  return (properties ++ [propId], offset + fieldLen)

/-- The single field of a reply, which is taken for an error message. -/
def searchPropMessage (invalid : Response × Metrics) (metrics : Metrics) (data : Bytes)
    (offset : ℕ) : Flow (Response × Metrics) (Response × Metrics) := do
  returnIf (offset + 7 > data.length) invalid
  let fieldId ← u16At data offset
  let fieldType ← index data (offset + 2)
  returnIf (fieldId ≠ 1 ∨ fieldType ≠ 0x01) invalid
  let fieldLen := (← u32At data (offset + 3)).toNat
  let offset := offset + 7
  returnIf (offset + fieldLen > data.length) invalid
  let message ← slice data offset (offset + fieldLen)
  let msg := if message = [] then utf8 "UNKNOWN_ERROR" else message
  let json := utf8 "\x7b\"status\":\"error\",\"message\":\"" ++ msg ++ utf8 "\"\x7d"
  return (jsonResponse .badRequest json, metrics)

def decodeSearchPropResponse (metrics : Metrics) (payload : Bytes) : Exec (Response × Metrics) :=
  run do
    let data := payload
    let invalid := (invalidResponse, metrics)
    let (fieldCount, offset) ← readSuccess metrics data
    if fieldCount = 0 then
      let rsp := utf8 "\x7b\"status\":\"success\",\"properties\":[]\x7d"
      return (jsonResponse .ok rsp, metrics.addBytesSent rsp.length)
    else if fieldCount = 1 then
      searchPropMessage invalid metrics data offset
    else
      let ids := (List.range' 1 fieldCount.toNat).map UInt16.ofNat
      let (properties, _) ← ids.foldlM (searchPropRound env invalid data) ([], offset)
      let json := utf8 "\x7b\"status\":\"success\",\"properties\":["
      let json := pushItems (fun json prop => pushQuoted json (utf8 prop)) json properties
      return (jsonResponse .ok (json ++ utf8 "]\x7d"), metrics)

/-! ## PROPROOMLIST and PROPROOMDATELIST -/

/-- One round of a loop over string fields: `push` is what the loop does with the data. -/
def stringFieldRound {α : Type} (invalid : Response × Metrics) (data : Bytes)
    (push : List α → Bytes → List α) (s : List α × UInt16 × ℕ) :
    Flow (Response × Metrics) (List α × UInt16 × ℕ) := do
  let (items, expectedId, offset) := s
  let fieldId ← u16At data offset
  returnIf (fieldId ≠ expectedId) invalid
  let fieldType ← index data (offset + 2)
  returnIf (fieldType ≠ 0x01) invalid
  let fieldLen := (← u32At data (offset + 3)).toNat
  let offset := offset + 7
  returnIf (offset + fieldLen > data.length) invalid
  let bytes ← slice data offset (offset + fieldLen)
  return (push items bytes, expectedId + 1, offset + fieldLen)

/-- The loop over string fields, and the check that all of them were there. -/
def readStringFields {α : Type} (invalid : Response × Metrics) (data : Bytes)
    (push : List α → Bytes → List α) (fieldCount : UInt16) (offset : ℕ) :
    Flow (Response × Metrics) (List α) := do
  let (items, expectedId, _) ←
    whileLoop (fun s : List α × UInt16 × ℕ => s.2.2 + 7 ≤ data.length)
      (stringFieldRound invalid data push) (data.length + 1) ([], 1, offset)
  returnIf (expectedId - 1 ≠ fieldCount) invalid
  return items

def decodePropRoomListResponse (metrics : Metrics) (payload : Bytes) :
    Exec (Response × Metrics) := run do
  let data := payload
  let invalid := (invalidResponse, metrics)
  let (fieldCount, offset) ← readSuccess metrics data
  if fieldCount = 0 then
    let rsp := utf8 "\x7b\"status\":\"success\",\"room_types\":[]\x7d"
    return (jsonResponse .ok rsp, metrics.addBytesSent rsp.length)
  else
    let roomTypes ← readStringFields invalid data
      (fun roomTypes bytes => roomTypes ++ [fromUtf8Lossy bytes]) fieldCount offset
    let json := utf8 "\x7b\"status\":\"success\",\"room_types\":["
    let json := pushItems (fun json roomType => pushQuoted json (utf8 roomType)) json roomTypes
    return (jsonResponse .ok (json ++ utf8 "]\x7d"), metrics)

def decodePropRoomDateListResponse (metrics : Metrics) (payload : Bytes) :
    Exec (Response × Metrics) := run do
  let data := payload
  let invalid := (invalidResponse, metrics)
  let (fieldCount, offset) ← readSuccess metrics data
  if fieldCount = 0 then
    let rsp := utf8 "\x7b\"status\":\"success\",\"dates\":[]\x7d"
    return (jsonResponse .ok rsp, metrics.addBytesSent rsp.length)
  else
    let dates ← readStringFields invalid data
      (fun dates bytes => if bytes ≠ [] then dates ++ [bytes] else dates) fieldCount offset
    let dates := dates.insertionSort (· ≤ ·)
    let json := utf8 "\x7b\"status\":\"success\",\"dates\":["
    let json := pushItems pushQuoted json dates ++ utf8 "]\x7d"
    return (jsonResponse .ok json, metrics.addBytesSent json.length)

/-! ## GETPROPROOMDAY -/

/-- `read_field!`: id, type and data of a field, and the offset after it. -/
def readField (invalid : Response × Metrics) (data : Bytes) (offset : ℕ) :
    Flow (Response × Metrics) (UInt16 × UInt8 × Bytes × ℕ) := do
  returnIf (offset + 7 > data.length) invalid
  let id ← u16At data offset
  let typ ← index data (offset + 2)
  let len := (← u32At data (offset + 3)).toNat
  let offset := offset + 7
  returnIf (offset + len > data.length) invalid
  let bytes ← slice data offset (offset + len)
  return (id, typ, bytes, offset + len)

def decodeGetPropRoomDayResponse (metrics : Metrics) (payload : Bytes) :
    Exec (Response × Metrics) := run do
  let data := payload
  let invalid := (invalidResponse, metrics)
  let (fieldCount, offset) ← readSuccess metrics data
  returnIf (fieldCount ≠ 5) invalid
  let (id1, typ1, propertyIdBytes, offset) ← readField invalid data offset
  returnIf (id1 ≠ 1 ∨ typ1 ≠ 0x01) invalid
  let (id2, typ2, dateBytes, offset) ← readField invalid data offset
  returnIf (id2 ≠ 2 ∨ typ2 ≠ 0x01) invalid
  let dateStr := (fromUtf8 dateBytes).getD "invalid-date"
  let (id3, typ3, availBytes, offset) ← readField invalid data offset
  returnIf (id3 ≠ 3 ∨ typ3 ≠ 0x02 ∨ availBytes.length ≠ 1) invalid
  let availability ← index availBytes 0
  let (id4, typ4, priceBytes, offset) ← readField invalid data offset
  returnIf (id4 ≠ 4 ∨ typ4 ≠ 0x03 ∨ priceBytes.length ≠ 4) invalid
  let finalPrice ← u32At priceBytes 0
  let (id5, typ5, rateBytes, offset) ← readField invalid data offset
  returnIf (id5 ≠ 5 ∨ typ5 ≠ 0x03 ∨ rateBytes.length ≠ 4) invalid
  let rateFeatureMask ← u32At rateBytes 0
  returnIf (offset ≠ data.length) invalid
  let rateFeatures ← okOr invalid (← call (bitmaskToRateFeatureStrings env rateFeatureMask))
  let propertyId ← call (bytesToPropertyId env propertyIdBytes)
  let json := utf8 "\x7b\"status\":\"success\",\"property_id\":\"" ++ utf8 propertyId ++
    utf8 "\",\"date\":\"" ++ utf8 dateStr ++ utf8 "\",\"availability\":" ++
    decimal availability.toNat ++ utf8 ",\"final_price\":" ++ decimal finalPrice.toNat ++
    utf8 ",\"rate_feature\":["
  let json := pushItems (fun json feature => pushQuoted json (utf8 feature)) json rateFeatures ++
    utf8 "]\x7d"
  return (jsonResponse .ok json, metrics.addBytesSent json.length)

/-! ## GETSEGMENTS -/

/-- One round of the loop over names (odd ids) and counts (even ids). -/
def getSegmentsRound (invalid : Response × Metrics) (data : Bytes)
    (s : List (Bytes × Option UInt32) × UInt16 × ℕ) :
    Flow (Response × Metrics) (List (Bytes × Option UInt32) × UInt16 × ℕ) := do
  let (segments, expectedId, offset) := s
  let fieldId ← u16At data offset
  returnIf (fieldId ≠ expectedId) invalid
  let fieldType ← index data (offset + 2)
  let fieldLen := (← u32At data (offset + 3)).toNat
  let offset := offset + 7
  returnIf (offset + fieldLen > data.length) invalid
  let fieldData ← slice data offset (offset + fieldLen)
  let offset := offset + fieldLen
  if expectedId % 2 = 1 then
    returnIf (fieldType ≠ 0x01) invalid
    return (segments ++ [(fieldData, none)], expectedId + 1, offset)
  else
    returnIf (fieldType ≠ 0x03 ∨ fieldLen ≠ 4) invalid
    let propCount ← u32At fieldData 0
    match segments.getLast? with
    | some last =>
      return (segments.dropLast ++ [(last.1, some propCount)], expectedId + 1, offset)
    | none => ret invalid

/-- The object of one segment. -/
def pushSegment (json : Bytes) (segment : Bytes × Option UInt32) (i : ℕ) :
    Flow (Response × Metrics) Bytes := do
  let json := if i > 0 then json ++ utf8 "," else json
  let json := json ++ utf8 "\x7b\"segment\":\"" ++ segment.1 ++ utf8 "\",\"propCount\":"
  let propCount ← unwrap segment.2
  return json ++ decimal propCount.toNat ++ utf8 "\x7d"

def decodeGetSegmentsResponse (metrics : Metrics) (payload : Bytes) : Exec (Response × Metrics) :=
  run do
    let data := payload
    let invalid := (invalidResponse, metrics)
    let (fieldCount, offset) ← readSuccess metrics data
    if fieldCount = 0 then
      let rsp := utf8 "\x7b\"status\":\"success\",\"segments\":[]\x7d"
      return (jsonResponse .ok rsp, metrics)
    else
      returnIf (fieldCount % 2 ≠ 0) invalid
      let (segments, expectedId, _) ←
        whileLoop (fun s : List (Bytes × Option UInt32) × UInt16 × ℕ => s.2.2 + 7 ≤ data.length)
          (getSegmentsRound invalid data) (data.length + 1) ([], 1, offset)
      returnIf (expectedId - 1 ≠ fieldCount) invalid
      let json := utf8 "\x7b\"status\":\"success\",\"segments\":["
      let json ← segments.zipIdx.foldlM (fun json p => pushSegment json p.1 p.2) json
      let json := json ++ utf8 "]\x7d"
      return (jsonResponse .ok json, metrics.addBytesSent json.length)

/-! ## SEARCHAVAIL -/

/-- The object of the day at `dOff`: the buffer, whether a day was written, and the offset. -/
def writeDay (invalid : Response × Metrics) (daysData : Bytes) (s : Bytes × Bool × ℕ) :
    Flow (Response × Metrics) (Bytes × Bool × ℕ) := do
  let (json, firstDay, dOff) := s
  let json := if firstDay then json else json ++ utf8 ","
  let json := json ++ utf8 "\x7b" ++ utf8 "\"date\":\""
  let datePacked ← u16At daysData dOff
  let json ← okOr invalid (← call (writePackedDate env json datePacked))
  let availability ← index daysData (dOff + 2)
  let json := json ++ utf8 "\",\"availability\":" ++
    utf8 (env.crates.itoaFormat availability.toNat)
  let finalPrice ← u32At daysData (dOff + 3)
  let json := json ++ utf8 ",\"final_price\":" ++ utf8 (env.crates.itoaFormat finalPrice.toNat)
  let rateMask ← u32At daysData (dOff + 7)
  let json := writeRateFeaturesArray env (json ++ utf8 ",") rateMask
  return (json ++ utf8 "\x7d", false, dOff + 11)

/-- The state of the loop over the fields. -/
structure AvailState where
  json : Bytes
  currentField : UInt16
  firstProperty : Bool
  offset : ℕ

/-- One round of the loop: the number of days, or a property with its days. -/
def searchAvailRound (invalid : Response × Metrics) (data : Bytes) (s : AvailState) :
    Flow (Response × Metrics) AvailState := do
  let fieldId ← u16At data s.offset
  returnIf (fieldId ≠ s.currentField) invalid
  let fieldType ← index data (s.offset + 2)
  let fieldLen := (← u32At data (s.offset + 3)).toNat
  let offset := s.offset + 7
  returnIf (offset + fieldLen > data.length) invalid
  let fieldData ← slice data offset (offset + fieldLen)
  let offset := offset + fieldLen
  if s.currentField = 1 ∧ fieldType = 0x02 then
    returnIf (fieldLen ≠ 2) invalid
    let _numDays ← u16At fieldData 0
    return { s with currentField := s.currentField + 1, offset := offset }
  else if fieldType = 0x01 ∧ s.currentField % 2 = 0 then
    let json := if s.firstProperty then s.json else s.json ++ utf8 ","
    let json := json ++ utf8 "\x7b" ++ utf8 "\"property_id\":"
    let json ← okOr invalid (← call (writeQuotedPropertyId json fieldData))
    let json := json ++ utf8 ",\"days\":["
    returnIf (offset + 7 > data.length) invalid
    let nextId ← u16At data offset
    returnIf (nextId ≠ s.currentField + 1) invalid
    let daysType ← index data (offset + 2)
    let daysLen := (← u32At data (offset + 3)).toNat
    let offset := offset + 7
    returnIf (daysType ≠ 0x08 ∨ offset + daysLen > data.length) invalid
    let daysData ← slice data offset (offset + daysLen)
    let offset := offset + daysLen
    returnIf (daysLen < 2) invalid
    let daysCount ← u16At daysData 0
    returnIf (daysLen ≠ 2 + 11 * daysCount.toNat) invalid
    let (json, _, _) ← (List.range daysCount.toNat).foldlM
      (fun s _ => writeDay env invalid daysData s) (json, true, 2)
    return { json := json ++ utf8 "]\x7d"
             currentField := s.currentField + 1 + 1
             firstProperty := false
             offset := offset }
  else ret invalid

def decodeSearchAvailResponse (metrics : Metrics) (payload : Bytes) : Exec (Response × Metrics) :=
  run do
    let data := payload
    let invalid := (invalidResponse, metrics)
    let (totalFields, offset) ← readSuccess metrics data
    let json := utf8 "\x7b\"status\":\"success\",\"properties\":["
    if totalFields = 0 then
      return (jsonResponse .ok (json ++ utf8 "]\x7d"), metrics)
    else
      returnIf (totalFields < 1 ∨ (totalFields - 1) % 2 ≠ 0) invalid
      let s ← whileLoop (fun s : AvailState => s.offset + 7 ≤ data.length)
        (searchAvailRound env invalid data) (data.length + 1)
        { json := json, currentField := 1, firstProperty := true, offset := offset }
      returnIf (s.currentField - 1 ≠ totalFields) invalid
      return (jsonResponse .ok (s.json ++ utf8 "]\x7d"), metrics)

/-! ## GETCODECS -/

structure Codecs where
  rateFeatures : List String
  deriving DecidableEq

/-- The characters of Unicode's `White_Space`, which `str::trim` takes off. -/
def isWhitespace (c : Char) : Bool :=
  let n := c.toNat
  (0x09 ≤ n && n ≤ 0x0D) || (0x2000 ≤ n && n ≤ 0x200A) ||
    [0x20, 0x85, 0xA0, 0x1680, 0x2028, 0x2029, 0x202F, 0x205F, 0x3000].contains n

/-- `str::trim`. -/
def trim (cs : List Char) : List Char :=
  ((cs.dropWhile isWhitespace).reverse.dropWhile isWhitespace).reverse

/-- A byte as two hexadecimal digits. -/
def hexByte (b : UInt8) : String :=
  String.ofList [Nat.digitChar (b >>> 4).toNat, Nat.digitChar (b &&& 0x0F).toNat]

def decodeGetCodecsResponse (payload : Bytes) : Exec (Except RZError Codecs) := run do
  let data := payload
  let (status, fieldCount, offset) ←
    readStatus (.error (.internal "empty payload for GETCODECS"))
      (.error (.internal "payload too short for status + field count")) data
  if status ≠ utf8 "SUCCESS" then
    match ← call (extractErrorMessage data fieldCount offset) with
    | .error e => return .error e
    | .ok errorMsg => return .error (.internal errorMsg)
  else
    returnIf (fieldCount ≠ 1)
      (.error (.internal ("expected exactly 1 field, got " ++ toString fieldCount)))
    returnIf (offset + 7 > data.length) (.error (.internal "truncated field header"))
    let fieldId ← u16At data offset
    let fieldType ← index data (offset + 2)
    returnIf (fieldId ≠ 1)
      (.error (.internal ("expected field ID 1, got " ++ toString fieldId)))
    let fieldLen := (← u32At data (offset + 3)).toNat
    let offset := offset + 7
    returnIf (offset + fieldLen > data.length) (.error (.internal "truncated field data"))
    let fieldData ← slice data offset (offset + fieldLen)
    if fieldType = 0x01 then
      return .error (.internal ((fromUtf8 fieldData).getD "invalid UTF-8 error message"))
    else
      returnIf (fieldType ≠ 0x09)
        (.error (.internal ("expected field type 0x09, got 0x" ++ hexByte fieldType)))
      match fromUtf8 fieldData with
      | none => return .error (.internal "invalid UTF-8 in codecs payload")
      | some rawStr =>
        let parts := (rawStr.toList.splitOn ',').map fun s => String.ofList (trim s)
        return .ok { rateFeatures := parts.filter fun s => s ≠ "" }

end RzProxy
