import RzProxy.Error
import RzProxy.Library.Flow
import RzProxy.Library.Json
import RzProxy.Protocol.Frame

/-!
# Responses

The HTTP responses that the proxy makes of a reply, and the decoders of the replies that hold no
fields or one byte. A decoder reads the payload by offsets; an index or slice out of range panics.

## Main definitions

* `Response`, `Metrics`: a response, and the counters that making one moves
* `invalidResponse`, `errorResponse`: the fixed answers
* `readSuccess`: the head of a reply, with the answer to an unsuccessful one
* `decodeSimpleResponse`, `decodeScalarU8Response`, `decodeBooleanResponse`: the shared decoders
-/

namespace RzProxy

open ByteString Evaluation Evaluation.Flow JsonText

/-- The HTTP status codes of the responses. -/
inductive StatusCode
  | ok
  | badRequest
  | notFound
  | internalServerError
  | serviceUnavailable
  | gatewayTimeout
  deriving DecidableEq

structure Response where
  status : StatusCode
  contentType : String
  body : Bytes
  deriving DecidableEq

/-- A response with a JSON body. -/
def jsonResponse (status : StatusCode) (body : Bytes) : Response :=
  { status := status, contentType := "application/json", body := body }

structure Metrics where
  bytesSent : ℕ
  clientErrors : ℕ
  deriving DecidableEq

namespace Metrics

def addBytesSent (m : Metrics) (bytes : ℕ) : Metrics := { m with bytesSent := m.bytesSent + bytes }

def incClientErrors (m : Metrics) : Metrics := { m with clientErrors := m.clientErrors + 1 }

end Metrics

/-! ## Fixed answers -/

def buildErrorMessage : RZError → String
  | .validation msg => msg
  | .roomzinUnreachable _ => "Service is temporarily unavailable. Please try again later."
  | .network _ => "Unable to reach the service. Please check your connection and retry."
  | .timeout => "The request took too long. Please try again."
  | .internal _ => "Something went wrong on our end. Please try again later."

def errorResponse (metrics : Metrics) (error : RZError) : Response × Metrics :=
  let message := buildErrorMessage error
  let buf := utf8 "\x7b\"status\":\"error\",\"message\":\"" ++ utf8 message ++ utf8 "\"\x7d"
  (jsonResponse .badRequest buf, metrics.incClientErrors)

def invalidResponse : Response :=
  jsonResponse .internalServerError
    (utf8 "\x7b\"status\":\"error\",\"message\":\"INVALID_RESPONSE_FORMAT\"\x7d")

/-! ## Reading by offsets -/

variable {ρ : Type}

/-- `u16::from_le_bytes([data[i], data[i + 1]])`. -/
def u16At (data : Bytes) (i : ℕ) : Flow ρ UInt16 := do
  let a ← index data i
  let b ← index data (i + 1)
  return u16FromLE [a, b]

/-- `u32::from_le_bytes([data[i], data[i + 1], data[i + 2], data[i + 3]])`. -/
def u32At (data : Bytes) (i : ℕ) : Flow ρ UInt32 := do
  let a ← index data i
  let b ← index data (i + 1)
  let c ← index data (i + 2)
  let d ← index data (i + 3)
  return u32FromLE [a, b, c, d]

/-- The head with which every decoder begins: the status, the count of fields and the offset after
them. `empty` and `short` are what the decoder returns when the head is not there. -/
def readStatus (empty short : ρ) (data : Bytes) : Flow ρ (Bytes × UInt16 × ℕ) := do
  returnIf (data = []) empty
  let statusLen := (← index data 0).toNat
  let minLen := 1 + statusLen + 2
  returnIf (data.length < minLen) short
  let status ← slice data 1 (1 + statusLen)
  let fieldCount ← u16At data (1 + statusLen)
  return (status, fieldCount, 1 + statusLen + 2)

/-! ## Unsuccessful replies -/

/-- The texts that known error codes stand for. -/
def friendlyMessage : String → String
  | "404" => "The requested segment was not found"
  | "503" => "Service is temporarily unavailable. Please try again later."
  | "408" => "The request timed out. Please try again."
  | "500" => "An internal error occurred. Please try again later."
  | other => other

def extractErrorMessage (data : Bytes) (fieldCount : UInt16) (offset : ℕ) :
    Exec (Except RZError String) := run do
  let fallback : Except RZError String :=
    .error (.internal "Failed to extract error message from response")
  returnIf (¬ (fieldCount ≥ 1 ∧ offset + 7 ≤ data.length)) fallback
  let fieldId ← u16At data offset
  let fieldType ← index data (offset + 2)
  returnIf (¬ (fieldId = 1 ∧ fieldType = 0x01)) fallback
  let fieldLen := (← u32At data (offset + 3)).toNat
  let msgOffset := offset + 7
  returnIf (¬ msgOffset + fieldLen ≤ data.length) fallback
  let message ← slice data msgOffset (msgOffset + fieldLen)
  returnIf (message = []) fallback
  match fromUtf8 message with
  | some msgStr => return .ok (friendlyMessage msgStr)
  | none => return .ok (fromUtf8Lossy message)

/-- The status without what is not printable. -/
def cleanStatus (status : Bytes) : Bytes :=
  let clean := status.filter fun b => 0x20 ≤ b ∧ b ≤ 0x7E
  if clean = [] then clean ++ utf8 "UNKNOWN_ERROR" else clean

/-- The HTTP status code for an error message. -/
def errorStatus : String → StatusCode
  | "The requested segment was not found" => .notFound
  | "Service is temporarily unavailable. Please try again later." => .serviceUnavailable
  | "The request timed out. Please try again." => .gatewayTimeout
  | "An internal error occurred. Please try again later." => .internalServerError
  | _ => .badRequest

def handleNonSuccessStatus (metrics : Metrics) (data status : Bytes) (fieldCount : UInt16)
    (offset : ℕ) : Exec (Response × Metrics) := do
  let errorMsg := match ← extractErrorMessage data fieldCount offset with
    | .ok msg => msg
    | .error _ => fromUtf8Lossy (cleanStatus status)
  let json := utf8 "\x7b\"status\":\"error\",\"message\":\"" ++ utf8 errorMsg ++ utf8 "\"\x7d"
  return (jsonResponse (errorStatus errorMsg) json,
    metrics.incClientErrors.addBytesSent json.length)

/-! ## The shared decoders -/

/-- The head of a reply whose status is `SUCCESS`: the count of fields and the offset after it. -/
def readSuccess (metrics : Metrics) (data : Bytes) : Flow (Response × Metrics) (UInt16 × ℕ) := do
  let (status, fieldCount, offset) ←
    readStatus (invalidResponse, metrics) (invalidResponse, metrics) data
  if status ≠ utf8 "SUCCESS" then
    let rsp ← call (handleNonSuccessStatus metrics data status fieldCount offset)
    ret rsp
  else
    return (fieldCount, offset)

def decodeSimpleResponse (metrics : Metrics) (payload : Bytes) : Exec (Response × Metrics) :=
  run do
    let (fieldCount, _) ← readSuccess metrics payload
    if fieldCount = 0 then
      let rsp := utf8 "\x7b\"status\":\"success\"\x7d"
      return (jsonResponse .ok rsp, metrics.addBytesSent rsp.length)
    else
      return (invalidResponse, metrics)

/-- A reply of one field of one byte. -/
def decodeU8Response (metrics : Metrics) (payload : Bytes) (fieldName : String)
    (value : UInt8 → Bytes) : Exec (Response × Metrics) := run do
  let data := payload
  let invalid := (invalidResponse, metrics)
  let (fieldCount, offset) ← readSuccess metrics data
  returnIf (fieldCount ≠ 1) invalid
  returnIf (offset + 7 > data.length) invalid
  let fieldId ← u16At data offset
  let fieldType ← index data (offset + 2)
  returnIf (fieldId ≠ 1 ∨ fieldType ≠ 0x02) invalid
  let fieldLen := (← u32At data (offset + 3)).toNat
  let offset := offset + 7
  returnIf (fieldLen ≠ 1 ∨ offset ≥ data.length) invalid
  let b ← index data offset
  let json := utf8 "\x7b\"status\":\"success\",\"" ++ utf8 fieldName ++ utf8 "\":" ++ value b ++
    utf8 "\x7d"
  return (jsonResponse .ok json, metrics.addBytesSent json.length)

def decodeScalarU8Response (metrics : Metrics) (payload : Bytes) (valueFieldName : String) :
    Exec (Response × Metrics) :=
  decodeU8Response metrics payload valueFieldName fun value => decimal value.toNat

def decodeBooleanResponse (metrics : Metrics) (payload : Bytes) (fieldName : String) :
    Exec (Response × Metrics) :=
  decodeU8Response metrics payload fieldName fun value =>
    if value = 1 then utf8 "true" else utf8 "false"

end RzProxy
