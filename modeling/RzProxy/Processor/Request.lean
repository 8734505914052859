import RzProxy.Processor.Answer
import RzProxy.Processor.Value

/-!
# Requests

The handlers of the commands up to their call of `Handler::execute`: the values that they look for
in the body, and the payload that they put together. A handler answers at once with an error when a
value that it requires is not there.

## Main definitions

* `Request`: the arguments of `Handler::execute`
* `Builder`: a payload that is put together, with a placeholder for the count of its fields
* `processSetProp`, ..., `processGetSegments`, `processGetCodecs`: the handlers
* `request`, `process`: the dispatch of a body, and the response to it
-/

namespace RzProxy

open ByteString Evaluation

/-- The arguments of `Handler::execute`. -/
structure Request where
  segment : String
  isWrite : Bool
  payload : Bytes
  deriving DecidableEq

/-! ## Payloads -/

/-- The command name, after its length. -/
def commandName (cmdName : String) : Bytes := UInt8.ofNat (utf8 cmdName).length :: utf8 cmdName

/-- The buffer with a field at its end. -/
def pushField (buf : Bytes) (id : UInt16) (typ : UInt8) (data : Bytes) : Bytes :=
  buf ++ le16 id ++ [typ] ++ le32 (UInt32.ofNat data.length) ++ data

/-- A payload that is put together: the buffer, the position of the count of fields in it, and the
count that `add_field` keeps. -/
structure Builder where
  buf : Bytes
  fieldCountPos : ℕ
  fieldCount : UInt16

namespace Builder

/-- The command name, and a placeholder for the count of fields. -/
def start (cmdName : String) : Builder where
  buf := commandName cmdName ++ le16 0
  fieldCountPos := (commandName cmdName).length
  fieldCount := 0

def addField (b : Builder) (id : UInt16) (typ : UInt8) (data : Bytes) : Builder :=
  { b with buf := pushField b.buf id typ data, fieldCount := b.fieldCount + 1 }

/-- `if let Some(data) = .. { add_field(id, typ, data) }`. -/
def addSome (b : Builder) (id : UInt16) (typ : UInt8) : Option Bytes → Builder
  | none => b
  | some data => b.addField id typ data

/-- The buffer with two bytes written over the placeholder. -/
def patch (b : Builder) (count : Bytes) : Bytes :=
  (b.buf.set b.fieldCountPos (count.getD 0 0)).set (b.fieldCountPos + 1) (count.getD 1 0)

end Builder

/-! ## Handlers -/

/-- A value, or the error that it is missing. -/
def required {α : Type} (message : String) : Option α → Except RZError α
  | some a => .ok a
  | none => .error (.validation message)

/-- The request of a handler, and the decoder of the reply to it. -/
abbrev Prepared := Except RZError (Request × Decoder)

/-- The handlers of commands that require some strings and nothing else: the fields are the strings
under the keys, and their count is written out. -/
def processTexts (cmdName : String) (isWrite : Bool) (fieldCount : UInt16)
    (keys : List (UInt16 × String)) (decoder : Decoder) (seg : String) (payload : Value) :
    Prepared := do
  let texts ← keys.mapM fun key => do
    let s ← required (key.2 ++ " is required") (nonEmptyText payload key.2)
    return (key.1, s)
  let buf := commandName cmdName ++ le16 fieldCount
  let buf := texts.foldl (fun buf t => pushField buf t.1 0x01 (utf8 t.2)) buf
  return ({ segment := seg, isWrite := isWrite, payload := buf }, decoder)

def processPropExist : String → Value → Prepared :=
  processTexts "PROPEXIST" false 1 [(0x01, "property_id")] (.boolean "exists")

def processPropRoomExist : String → Value → Prepared :=
  processTexts "PROPROOMEXIST" false 2 [(0x01, "property_id"), (0x02, "room_type")]
    (.boolean "exists")

def processPropRoomList : String → Value → Prepared :=
  processTexts "PROPROOMLIST" false 1 [(0x01, "property_id")] .propRoomList

def processPropRoomDateList : String → Value → Prepared :=
  processTexts "PROPROOMDATELIST" false 2 [(0x01, "property_id"), (0x02, "room_type")]
    .propRoomDateList

def processGetPropRoomDay : String → Value → Prepared :=
  processTexts "GETPROPROOMDAY" false 3
    [(0x01, "property_id"), (0x02, "room_type"), (0x03, "date")] .getPropRoomDay

def processDelProp : String → Value → Prepared :=
  processTexts "DELPROP" true 1 [(0x01, "property_id")] .simple

def processDelPropDay : String → Value → Prepared :=
  processTexts "DELPROPDAY" true 2 [(0x01, "property_id"), (0x02, "date")] .simple

def processDelPropRoom : String → Value → Prepared :=
  processTexts "DELPROPROOM" true 2 [(0x01, "property_id"), (0x02, "room_type")] .simple

def processDelRoomDay : String → Value → Prepared :=
  processTexts "DELROOMDAY" true 3
    [(0x01, "property_id"), (0x02, "room_type"), (0x03, "date")] .simple

def processDelSegment : String → Value → Prepared :=
  processTexts "DELSEGMENT" true 1 [(0x01, "segment")] .simple

/-- The handlers that set an availability or change it by an amount. -/
def processAmount (cmdName seg : String) (payload : Value) : Prepared := do
  let propertyId ← required "property_id is required" (nonEmptyText payload "property_id")
  let roomType ← required "room_type is required" (nonEmptyText payload "room_type")
  let date ← required "date is required" (nonEmptyText payload "date")
  let amount ← required "amount is required and must be 0-255" (byte payload "amount")
  let b := Builder.start cmdName
  let b := b.addField 0x01 0x01 (utf8 propertyId)
  let b := b.addField 0x02 0x01 (utf8 roomType)
  let b := b.addField 0x03 0x01 (utf8 date)
  let b := b.addField 0x04 0x02 [amount]
  return ({ segment := seg, isWrite := true, payload := b.patch [4, 0] }, .scalarU8 "availability")

def processSetRoomAvl : String → Value → Prepared := processAmount "SETROOMAVL"

def processIncRoomAvl : String → Value → Prepared := processAmount "INCROOMAVL"

def processDecRoomAvl : String → Value → Prepared := processAmount "DECROOMAVL"

def processSetProp (seg : String) (payload : Value) : Prepared := do
  let segment ← required "segment is required" (text payload "segment")
  let area ← required "area is required" (text payload "area")
  let propertyId ← required "property_id is required" (text payload "property_id")
  let propertyType ← required "property_type is required" (text payload "property_type")
  let category ← required "category is required" (text payload "category")
  let stars ← required "stars must be between 1 and 5" (stars payload "stars")
  let latitude ← required "latitude must be between -90 and 90"
    (floatWithin payload "latitude" f64Ninety)
  let longitude ← required "longitude must be between -180 and 180"
    (floatWithin payload "longitude" f64OneEighty)
  let amenities := stringsOf payload "amenities"
  let amenityStr := join amenities
  let b := Builder.start "SETPROP"
  let b := b.addField 0x01 0x01 (utf8 segment)
  let b := b.addField 0x02 0x01 (utf8 area)
  let b := b.addField 0x03 0x01 (utf8 propertyId)
  let b := b.addField 0x04 0x01 (utf8 propertyType)
  let b := b.addField 0x05 0x01 (utf8 category)
  let b := b.addField 0x06 0x02 [stars]
  let b := b.addField 0x07 0x03 (le64 latitude)
  let b := b.addField 0x08 0x03 (le64 longitude)
  let b := b.addField 0x09 0x01 (utf8 amenityStr)
  return ({ segment := seg, isWrite := true, payload := b.patch (le16 b.fieldCount) }, .simple)

def processSearchProp (seg : String) (payload : Value) : Prepared := do
  let segment ← required "segment is required" (text payload "segment")
  let area := text payload "area"
  let propertyType := text payload "property_type"
  let category := text payload "category"
  let stars := stars payload "stars"
  let latitude := floatWithin payload "latitude" f64Ninety
  let longitude := floatWithin payload "longitude" f64OneEighty
  let amenities := stringsOf payload "amenities"
  let limit := u64 payload "limit"
  let b := Builder.start "SEARCHPROP"
  let b := b.addField 0x01 0x01 (utf8 segment)
  let b := b.addSome 0x02 0x01 (area.map utf8)
  let b := b.addSome 0x03 0x01 (propertyType.map utf8)
  let b := b.addSome 0x04 0x02 (stars.map ([·]))
  let b := b.addSome 0x05 0x01 (category.map utf8)
  let b := if amenities = [] then b else b.addField 0x06 0x01 (utf8 (join amenities))
  let b := b.addSome 0x07 0x03 (longitude.map le64)
  let b := b.addSome 0x08 0x03 (latitude.map le64)
  let b := b.addSome 0x09 0x03 (limit.map le64)
  return ({ segment := seg, isWrite := false, payload := b.patch (le16 b.fieldCount) },
    .searchProp)

def processSetRoomPkg (seg : String) (payload : Value) : Prepared := do
  let propertyId ← required "property_id is required" (nonEmptyText payload "property_id")
  let roomType ← required "room_type is required" (nonEmptyText payload "room_type")
  let date ← required "date is required" (nonEmptyText payload "date")
  let availability := byte payload "availability"
  let finalPrice := price payload "final_price"
  let rateFeature := joined payload "rate_features"
  let b := Builder.start "SETROOMPKG"
  let b := b.addField 0x01 0x01 (utf8 propertyId)
  let b := b.addField 0x02 0x01 (utf8 roomType)
  let b := b.addField 0x03 0x01 (utf8 date)
  let b := b.addSome 0x04 0x02 (availability.map ([·]))
  let b := b.addSome 0x05 0x03 (finalPrice.map le32)
  let b := b.addSome 0x06 0x01 (rateFeature.map utf8)
  return ({ segment := seg, isWrite := true, payload := b.patch (le16 b.fieldCount) }, .simple)

def processSearchAvail (seg : String) (payload : Value) : Prepared := do
  let segment ← required "segment is required" (nonEmptyText payload "segment")
  let roomType ← required "room_type is required" (nonEmptyText payload "room_type")
  let area := text payload "area"
  let propertyId := text payload "property_id"
  let propertyType := text payload "type"
  let stars := byte payload "stars"
  let category := text payload "category"
  let amenities := joined payload "amenities"
  let longitude := float payload "longitude"
  let latitude := float payload "latitude"
  let date := joined payload "date"
  let availability := byte payload "availability"
  let finalPrice := price payload "final_price"
  let rateFeature := joined payload "rate_features"
  let limit := u64 payload "limit"
  let b := Builder.start "SEARCHAVAIL"
  let b := b.addField 0x01 0x01 (utf8 segment)
  let b := b.addField 0x02 0x01 (utf8 roomType)
  let b := b.addSome 0x03 0x01 (area.map utf8)
  let b := b.addSome 0x04 0x01 (propertyId.map utf8)
  let b := b.addSome 0x05 0x01 (propertyType.map utf8)
  let b := b.addSome 0x06 0x02 (stars.map ([·]))
  let b := b.addSome 0x07 0x01 (category.map utf8)
  let b := b.addSome 0x08 0x01 (amenities.map utf8)
  let b := b.addSome 0x09 0x03 (longitude.map le64)
  let b := b.addSome 0x0A 0x03 (latitude.map le64)
  let b := b.addSome 0x0B 0x01 (date.map utf8)
  let b := b.addSome 0x0C 0x02 (availability.map ([·]))
  let b := b.addSome 0x0D 0x03 (finalPrice.map le32)
  let b := b.addSome 0x0E 0x01 (rateFeature.map utf8)
  let b := b.addSome 0x0F 0x03 (limit.map le64)
  return ({ segment := seg, isWrite := false, payload := b.patch (le16 b.fieldCount) },
    .searchAvail)

def processGetSegments (payload : Value) : Prepared :=
  if payload.isObject = false then .error (.validation "invalid payload")
  else
    .ok ({ segment := "GETSEGMENTS", isWrite := false
           payload := commandName "GETSEGMENTS" ++ le16 0 }, .getSegments)

/-- The request that asks for the rate features. -/
def codecsRequest : Request where
  segment := "__codecs__"
  isWrite := false
  payload := commandName "GETCODECS" ++ le16 0

def processGetCodecs (execute : Request → Except RZError Bytes) : Exec (Except RZError Codecs) :=
  match execute codecsRequest with
  | .error e => .ok (.error e)
  | .ok fieldData => decodeGetCodecsResponse fieldData

/-! ## The dispatch -/

/-- The request of a body that is parsed by `fromSlice`. -/
def request (fromSlice : Bytes → Option Value) (body : Bytes) : Prepared := do
  let json ← required "Invalid JSON" (fromSlice body)
  let command ← required "Missing command field" (text json "command")
  let segment ← required "Missing segment field" (text json "segment")
  let payload := (json.get "body").getD .null
  match command with
  | "SETPROP" => processSetProp segment payload
  | "PROPEXIST" => processPropExist segment payload
  | "SEARCHPROP" => processSearchProp segment payload
  | "SETROOMPKG" => processSetRoomPkg segment payload
  | "SETROOMAVL" => processSetRoomAvl segment payload
  | "INCROOMAVL" => processIncRoomAvl segment payload
  | "DECROOMAVL" => processDecRoomAvl segment payload
  | "DELROOMDAY" => processDelRoomDay segment payload
  | "PROPROOMEXIST" => processPropRoomExist segment payload
  | "GETPROPROOMDAY" => processGetPropRoomDay segment payload
  | "PROPROOMDATELIST" => processPropRoomDateList segment payload
  | "DELPROPROOM" => processDelPropRoom segment payload
  | "SEARCHAVAIL" => processSearchAvail segment payload
  | "PROPROOMLIST" => processPropRoomList segment payload
  | "DELPROP" => processDelProp segment payload
  | "DELSEGMENT" => processDelSegment segment payload
  | "DELPROPDAY" => processDelPropDay segment payload
  | "GETSEGMENTS" => processGetSegments payload
  | _ => .error (.validation "unsupported command")

/-- The response to a body, where `execute` is `Handler::execute`. -/
def process (env : Env) (metrics : Metrics) (fromSlice : Bytes → Option Value)
    (execute : Request → Except RZError Bytes) (body : Bytes) : Exec (Response × Metrics) :=
  match request fromSlice body with
  | .error e => .ok (errorResponse metrics e)
  | .ok (r, decoder) =>
    match execute r with
    | .error e => .ok (errorResponse metrics e)
    | .ok fieldData => decoder.decode env metrics fieldData

end RzProxy
