import RzProxy.Protocol.Field
import RzProxy.Processor.Replies

/-!
# What a reply says

The answer that a reply stands for, read off the fields of its payload and without offsets: a
status code and the members of a JSON object. A string of the object is the text of a field, and
remembers how the decoder copies that text into the body.

## Main definitions

* `Text`: the text of a field, as it was sent and as it is written
* `Answer`, `respond`: an answer, and the response that holds it
* `Decoder`, `Decoder.decode`, `Decoder.answer`: the decoders, as they are and as they should be
-/

namespace RzProxy

open ByteString Evaluation JsonText

/-! ## Texts and answers -/

/-- The text of a field, and how it is copied into a body. -/
inductive Text
  /-- byte by byte -/
  | copied (bytes : Bytes)
  /-- by `String::from_utf8_lossy` -/
  | lossy (bytes : Bytes)
  /-- by `str::from_utf8`, or else `invalid-date` -/
  | date (bytes : Bytes)

namespace Text

/-- The text as the field carries it. -/
def raw : Text → Bytes
  | copied bytes => bytes
  | lossy bytes => bytes
  | date bytes => bytes

/-- The text as it is written. -/
def written : Text → Bytes
  | copied bytes => bytes
  | lossy bytes => ByteString.lossy bytes
  | date bytes => utf8 ((fromUtf8 bytes).getD "invalid-date")

/-- A fixed text. -/
def const (s : String) : Text := copied (utf8 s)

/-- **Text that is UTF-8 is written as it was sent.** -/
theorem written_of_validUtf8 {t : Text} (h : validUtf8 t.raw = true) : t.written = t.raw := by
  cases t with
  | copied bytes => rfl
  | lossy bytes => exact lossy_of_valid h
  | date bytes =>
    obtain ⟨s, hs⟩ := validUtf8_iff.mp h
    have hs' : fromUtf8 bytes = some s := fromUtf8_eq_some_iff.mpr hs.symm
    simp only [written, raw, hs', Option.getD_some]
    exact hs.symm

end Text

/-- The members of a JSON object. -/
abbrev Members := List (Text × Json Text)

/-- A status code, and the object of the body. -/
structure Answer where
  status : StatusCode
  members : Members
  /-- what the error field says, where the message says something else -/
  replaced : Option Bytes

/-- The members of an error. -/
def errorMembers (message : Text) : Members :=
  [(.const "status", .str (.const "error")), (.const "message", .str message)]

def errorAnswer (status : StatusCode) (message : Text) (replaced : Option Bytes) : Answer :=
  { status := status, members := errorMembers message, replaced := replaced }

def successAnswer (members : Members) : Answer :=
  { status := .ok
    members := (.const "status", .str (.const "success")) :: members
    replaced := none }

/-- The body with the given members, written as the decoders do. -/
def bodyOf (members : Members) : Bytes := (Json.obj (mapMembers Text.written members)).render

/-- The response that holds an answer. -/
def respond : Option Answer → Response
  | none => invalidResponse
  | some a => jsonResponse a.status (bodyOf a.members)

/-! ## Unsuccessful replies -/

/-- The text of an error message, with the known codes replaced. -/
def messageText (bs : Bytes) : Text :=
  match fromUtf8 bs with
  | some s => .const (friendlyMessage s)
  | none => .lossy bs

/-- The error message in the first field. -/
def errorField (fieldCount : UInt16) (rest : Bytes) : Option Bytes :=
  match takeField rest with
  | none => none
  | some (f, _) =>
    if 1 ≤ fieldCount ∧ f.id = 1 ∧ f.fieldType = 0x01 ∧ f.data ≠ [] then some f.data else none

/-- The answer to a reply whose status is not `SUCCESS`: the message in the first field, or else
what is printable of the status. -/
def unsuccessful (status : Bytes) (fieldCount : UInt16) (rest : Bytes) : Answer :=
  match errorField fieldCount rest with
  | none =>
    errorAnswer (errorStatus (fromUtf8Lossy (cleanStatus status))) (.lossy (cleanStatus status))
      none
  | some bs =>
    let message := messageText bs
    errorAnswer (errorStatus (fromUtf8Lossy message.raw)) message
      (if message.raw = bs then none else some bs)

/-- The answer to a reply, where `success` answers a reply with the status `SUCCESS`. -/
def answerOf (success : UInt16 → Bytes → Option Answer) (payload : Bytes) : Option Answer :=
  match takeHead payload with
  | none => none
  | some (status, fieldCount, rest) =>
    if status = utf8 "SUCCESS" then success fieldCount rest
    else some (unsuccessful status fieldCount rest)

/-! ## Fields -/

/-- The ids of the fields count up from `k`, modulo `2 ^ 16`. -/
def Numbered : UInt16 → List Field → Prop
  | _, [] => True
  | k, f :: fs => f.id = k ∧ Numbered (k + 1) fs

instance decidableNumbered : ∀ (k : UInt16) (fs : List Field), Decidable (Numbered k fs)
  | _, [] => inferInstanceAs (Decidable True)
  | k, f :: fs =>
    have := decidableNumbered (k + 1) fs
    inferInstanceAs (Decidable (f.id = k ∧ Numbered (k + 1) fs))

/-- All fields hold strings. -/
def Strings (fs : List Field) : Prop := ∀ f ∈ fs, f.fieldType = 0x01

instance (fs : List Field) : Decidable (Strings fs) := List.decidableBAll _ fs

/-- All fields to the end, when they are numbered and as many as announced. -/
def countedFields (fieldCount : UInt16) (rest : Bytes) : Option (List Field) :=
  match fieldsOf rest with
  | none => none
  | some fs => if Numbered 1 fs ∧ UInt16.ofNat fs.length = fieldCount then some fs else none

theorem countedFields_of_none {fieldCount : UInt16} {rest : Bytes} (h : fieldsOf rest = none) :
    countedFields fieldCount rest = none := by
  rw [countedFields, h]

theorem countedFields_of_some {fieldCount : UInt16} {rest : Bytes} {fs : List Field}
    (h : fieldsOf rest = some fs) :
    countedFields fieldCount rest =
      if Numbered 1 fs ∧ UInt16.ofNat fs.length = fieldCount then some fs else none := by
  rw [countedFields, h]

theorem length_of_countedFields {fieldCount : UInt16} {rest : Bytes} {fs : List Field}
    (h : countedFields fieldCount rest = some fs) : UInt16.ofNat fs.length = fieldCount := by
  rw [countedFields] at h
  split at h
  · cases h
  · split_ifs at h with hc
    cases h
    exact hc.2

/-- A property id: a short string in two parts, or a UUID. -/
def propertyId (bs : Bytes) : Bytes :=
  if bs.length < 7 then []
  else if bs.getD 6 0 = 0xF0 then untilNul (bs.take 6) ++ untilNul (bs.drop 7)
  else if uuidVersion (bs.getD 6 0) then hyphenated (uuidBytes bs)
  else []

/-- The features of a mask, from bit `i` on. -/
def maskedFeatures (mask : UInt32) : ℕ → List String → List String
  | _, [] => []
  | i, feature :: features =>
    if mask.toNat.testBit i then feature :: maskedFeatures mask (i + 1) features
    else maskedFeatures mask (i + 1) features

/-- The array of the features of a mask, of which 24 are known at most. -/
def featureItems (features : List String) (mask : UInt32) : Json Text :=
  .arr ((maskedFeatures mask 0 (features.take 24)).map fun s => .str (.const s))

/-! ## Successful replies -/

variable (env : Env)

def simpleAnswer (fieldCount : UInt16) (_rest : Bytes) : Option Answer :=
  if fieldCount = 0 then some (successAnswer []) else none

def u8Answer (fieldName : String) (value : UInt8 → Json Text) (fieldCount : UInt16)
    (rest : Bytes) : Option Answer :=
  match takeField rest with
  | none => none
  | some (f, _) =>
    if fieldCount = 1 ∧ f.id = 1 ∧ f.fieldType = 0x02 ∧ f.data.length = 1 then
      some (successAnswer [(.const fieldName, value (f.data.getD 0 0))])
    else none

/-- The answer with one array of strings. -/
def listAnswer (name : String) (texts : List Text) : Answer :=
  successAnswer [(.const name, .arr (texts.map Json.str))]

def searchPropAnswer (fieldCount : UInt16) (rest : Bytes) : Option Answer :=
  if fieldCount = 0 then some (listAnswer "properties" [])
  else if fieldCount = 1 then
    match takeField rest with
    | none => none
    | some (f, _) =>
      if f.id = 1 ∧ f.fieldType = 0x01 then
        some (if f.data = [] then errorAnswer .badRequest (.const "UNKNOWN_ERROR") (some [])
          else errorAnswer .badRequest (.copied f.data) none)
      else none
  else
    match takeFields fieldCount.toNat rest with
    | none => none
    | some (fs, _) =>
      if Numbered 1 fs ∧ Strings fs then
        some (listAnswer "properties" (fs.map fun f => .lossy (propertyId f.data)))
      else none

def propRoomListAnswer (fieldCount : UInt16) (rest : Bytes) : Option Answer :=
  if fieldCount = 0 then some (listAnswer "room_types" [])
  else
    match countedFields fieldCount rest with
    | none => none
    | some fs =>
      if Strings fs then some (listAnswer "room_types" (fs.map fun f => .lossy f.data)) else none

def propRoomDateListAnswer (fieldCount : UInt16) (rest : Bytes) : Option Answer :=
  if fieldCount = 0 then some (listAnswer "dates" [])
  else
    match countedFields fieldCount rest with
    | none => none
    | some fs =>
      if Strings fs then
        let dates := ((fs.map Field.data).filter (· ≠ [])).insertionSort (· ≤ ·)
        some (listAnswer "dates" (dates.map Text.copied))
      else none

/-- The next field, if it has the id `id` and passes the check, and what is made of it. -/
def withField (id : UInt16) (check : Field → Prop) [DecidablePred check] (bs : Bytes)
    (k : Field → Bytes → Option Answer) : Option Answer :=
  match takeField bs with
  | none => none
  | some (f, rest) => if f.id = id ∧ check f then k f rest else none

def getPropRoomDayAnswer (fieldCount : UInt16) (rest : Bytes) : Option Answer :=
  if fieldCount = 5 then
    withField 1 (·.fieldType = 0x01) rest fun id rest =>
    withField 2 (·.fieldType = 0x01) rest fun date rest =>
    withField 3 (fun f => f.fieldType = 0x02 ∧ f.data.length = 1) rest fun availability rest =>
    withField 4 (fun f => f.fieldType = 0x03 ∧ f.data.length = 4) rest fun price rest =>
    withField 5 (fun f => f.fieldType = 0x03 ∧ f.data.length = 4) rest fun mask rest =>
      match rest, env.rateFeatures with
      | [], some features =>
        some (successAnswer [
          (.const "property_id", .str (.lossy (propertyId id.data))),
          (.const "date", .str (.date date.data)),
          (.const "availability", .nat (availability.data.getD 0 0).toNat),
          (.const "final_price", .nat (u32FromLE price.data).toNat),
          (.const "rate_feature", featureItems features (u32FromLE mask.data))])
      | _, _ => none
  else none

/-- Names and counts in turn. -/
def segmentsOf : List Field → Option (List (Bytes × UInt32))
  | [] => some []
  | [_] => none
  | name :: count :: fs =>
    if name.fieldType = 0x01 ∧ count.fieldType = 0x03 ∧ count.data.length = 4 then
      (segmentsOf fs).map fun segments => (name.data, u32FromLE count.data) :: segments
    else none

/-- The object of a segment. -/
def segmentObject (s : Bytes × UInt32) : Json Text :=
  .obj [(.const "segment", .str (.copied s.1)), (.const "propCount", .nat s.2.toNat)]

def getSegmentsAnswer (fieldCount : UInt16) (rest : Bytes) : Option Answer :=
  if fieldCount = 0 then some (listAnswer "segments" [])
  else
    match (countedFields fieldCount rest).bind segmentsOf with
    | none => none
    | some segments =>
      some (successAnswer [(.const "segments", .arr (segments.map segmentObject))])

/-- A packed date as `YYYY-MM-DD`, when there is such a day. -/
def dateText (packed : UInt16) : Option Bytes :=
  let year := env.currentYear + ((packed >>> 9) &&& 0b111).toNat
  let month := ((packed >>> 5) &&& 0b1111).toNat + 1
  let day := (packed &&& 0b11111).toNat + 1
  if month ≤ 12 ∧ day ≤ 31 ∧ (env.crates.fromYmdOpt year month day).isSome then
    some (lastDigits 4 year.toNat ++ 0x2D :: (lastDigits 2 month ++ 0x2D :: lastDigits 2 day))
  else none

/-- The object of a day, read off eleven bytes. -/
def dayObject (features : List String) (day : Bytes) : Option (Json Text) :=
  (dateText env (u16FromLE (day.take 2))).map fun date =>
    .obj [(.const "date", .str (.copied date)),
      (.const "availability", .nat (day.getD 2 0).toNat),
      (.const "final_price", .nat (u32FromLE ((day.drop 3).take 4)).toNat),
      (.const "rate_feature", featureItems features (u32FromLE ((day.drop 7).take 4)))]

/-- The objects of `n` days. -/
def dayObjects (features : List String) : ℕ → Bytes → Option (List (Json Text))
  | 0, _ => some []
  | n + 1, bs =>
    match dayObject env features (bs.take 11) with
    | none => none
    | some day => (dayObjects features n (bs.drop 11)).map (day :: ·)

/-- The days of a property: a count and eleven bytes for each. -/
def daysOf (features : List String) (bs : Bytes) : Option (List (Json Text)) :=
  let count := (u16FromLE (bs.take 2)).toNat
  if 2 ≤ bs.length ∧ bs.length = 2 + 11 * count then dayObjects env features count (bs.drop 2)
  else none

/-- The object of a property. -/
def propertyObject (id : Bytes) (days : List (Json Text)) : Json Text :=
  .obj [(.const "property_id", .str (.copied (propertyId id))), (.const "days", .arr days)]

/-- Properties and their days in turn. -/
def propertiesOf (features : List String) : List Field → Option (List (Json Text))
  | [] => some []
  | [_] => none
  | property :: days :: fs =>
    if property.fieldType = 0x01 ∧ days.fieldType = 0x08 then
      match daysOf env features days.data with
      | none => none
      | some items => (propertiesOf features fs).map (propertyObject property.data items :: ·)
    else none

/-- The number of days, and properties and their days. -/
def availOf (features : List String) : List Field → Option (List (Json Text))
  | [] => none
  | numDays :: fs =>
    if numDays.fieldType = 0x02 ∧ numDays.data.length = 2 then propertiesOf env features fs
    else none

def searchAvailAnswer (fieldCount : UInt16) (rest : Bytes) : Option Answer :=
  if fieldCount = 0 then some (listAnswer "properties" [])
  else
    match (countedFields fieldCount rest).bind (availOf env (env.rateFeatures.getD [])) with
    | none => none
    | some properties => some (successAnswer [(.const "properties", .arr properties)])

/-! ## The decoders -/

/-- The decoders of HTTP responses; the shared ones with the name that they are called with. -/
inductive Decoder
  | simple
  | scalarU8 (valueFieldName : String)
  | boolean (fieldName : String)
  | searchProp
  | searchAvail
  | propRoomList
  | propRoomDateList
  | getPropRoomDay
  | getSegments

namespace Decoder

/-- The decoder as it is. -/
def decode (metrics : Metrics) (payload : Bytes) : Decoder → Exec (Response × Metrics)
  | simple => decodeSimpleResponse metrics payload
  | scalarU8 name => decodeScalarU8Response metrics payload name
  | boolean name => decodeBooleanResponse metrics payload name
  | searchProp => decodeSearchPropResponse env metrics payload
  | searchAvail => decodeSearchAvailResponse env metrics payload
  | propRoomList => decodePropRoomListResponse metrics payload
  | propRoomDateList => decodePropRoomDateListResponse metrics payload
  | getPropRoomDay => decodeGetPropRoomDayResponse env metrics payload
  | getSegments => decodeGetSegmentsResponse metrics payload

/-- What a successful reply says: `none` if its fields are not understood. -/
def success : Decoder → UInt16 → Bytes → Option Answer
  | simple => simpleAnswer
  | scalarU8 name => u8Answer name fun b => .nat b.toNat
  | boolean name => u8Answer name fun b => .bool (b = 1)
  | searchProp => searchPropAnswer
  | searchAvail => searchAvailAnswer env
  | propRoomList => propRoomListAnswer
  | propRoomDateList => propRoomDateListAnswer
  | getPropRoomDay => getPropRoomDayAnswer env
  | getSegments => getSegmentsAnswer

/-- What a reply says. -/
def answer (D : Decoder) (payload : Bytes) : Option Answer := answerOf (D.success env) payload

end Decoder

end RzProxy
