import RzProxy.Processor.Decoder
import RzProxy.Processor.Required

/-!
# Who failed

The status code of a response tells a client whether its request failed, or the service. All
decoders answer an unsuccessful reply alike, with the code for the message of the reply. The errors
of the proxy itself are not told apart: whatever `Handler::execute` failed with, the answer is 400.

## Main definitions

* `knownErrors`: the error codes of the service, with their texts and status codes
* `replyMessage`, `errorReply`: the message of an unsuccessful reply, and the response for a message
* `StatusTells`: the class of a status code tells who failed
* `Misreported`: the cases in which it does not

## Main results

* `decode_of_unsuccessful`: all decoders answer an unsuccessful reply alike
* `statusTells_of_process_iff`: the status code tells who failed, but for those cases
-/

namespace RzProxy

open ByteString Evaluation Evaluation.Flow JsonText

/-! ## Unsuccessful replies -/

/-- The error codes of the service, the texts for them and the status codes for the texts. -/
def knownErrors : List (String × String × StatusCode) :=
  [("404", "The requested segment was not found", .notFound),
    ("503", "Service is temporarily unavailable. Please try again later.", .serviceUnavailable),
    ("408", "The request timed out. Please try again.", .gatewayTimeout),
    ("500", "An internal error occurred. Please try again later.", .internalServerError)]

/-- The text of an error field: that of a known code, or else the field itself. -/
def errorText (data : Bytes) : Bytes :=
  match knownErrors.find? fun e => utf8 e.1 = data with
  | some e => utf8 e.2.1
  | none => lossy data

/-- The printable characters of ASCII. -/
def printable (bs : Bytes) : Bytes := bs.filter fun b => 32 ≤ b.toNat ∧ b.toNat < 127

/-- The message of an unsuccessful reply: the text of its error field, or else what is printable of
its status. -/
def replyMessage (status : Bytes) (fieldCount : UInt16) (rest : Bytes) : Bytes :=
  match errorField fieldCount rest, printable status with
  | some data, _ => errorText data
  | none, [] => utf8 "UNKNOWN_ERROR"
  | none, b :: bs => b :: bs

/-- The status code for a message. -/
def messageStatus (message : Bytes) : StatusCode :=
  match knownErrors.find? fun e => utf8 e.2.1 = message with
  | some e => e.2.2
  | none => .badRequest

/-- The response for a message. -/
def errorReply (message : Bytes) : Response :=
  jsonResponse (messageStatus message)
    (utf8 "\x7b\"status\":\"error\",\"message\":\"" ++ message ++ utf8 "\"\x7d")

theorem utf8_inj {s t : String} : utf8 s = utf8 t ↔ s = t := ⟨utf8_injective, congrArg utf8⟩

theorem messageStatus_utf8 (s : String) : messageStatus (utf8 s) = errorStatus s := by
  unfold errorStatus
  split
  · simp [messageStatus, knownErrors, utf8_inj]
  · simp [messageStatus, knownErrors, utf8_inj]
  · simp [messageStatus, knownErrors, utf8_inj]
  · simp [messageStatus, knownErrors, utf8_inj]
  · rename_i h404 h503 h408 h500
    simp [messageStatus, knownErrors, utf8_inj, Ne.symm h404, Ne.symm h503, Ne.symm h408,
      Ne.symm h500]

theorem errorText_utf8 (s : String) : errorText (utf8 s) = utf8 (friendlyMessage s) := by
  unfold friendlyMessage
  split
  · simp [errorText, knownErrors, utf8_inj]
  · simp [errorText, knownErrors, utf8_inj]
  · simp [errorText, knownErrors, utf8_inj]
  · simp [errorText, knownErrors, utf8_inj]
  · rename_i h404 h503 h408 h500
    simp [errorText, knownErrors, utf8_inj, lossy_utf8, Ne.symm h404, Ne.symm h503, Ne.symm h408,
      Ne.symm h500]

/-- The text of an error field is what the decoders write. -/
theorem errorText_eq (data : Bytes) : errorText data = (messageText data).written := by
  unfold messageText
  cases hs : fromUtf8 data with
  | none =>
    have hne : ∀ s : String, utf8 s ≠ data := by
      intro s h
      rw [fromUtf8_eq_some_iff.mpr h] at hs
      cases hs
    simp [errorText, knownErrors, hne, Text.written]
  | some s =>
    obtain rfl := fromUtf8_eq_some_iff.mp hs
    exact errorText_utf8 s

theorem replyMessage_of_none {fieldCount : UInt16} {rest : Bytes}
    (h : errorField fieldCount rest = none) (status : Bytes) :
    replyMessage status fieldCount rest = cleanStatus status := by
  have hprintable : (status.filter fun b => 0x20 ≤ b ∧ b ≤ 0x7E) = printable status := by
    refine List.filter_congr fun b _ => ?_
    rw [decide_eq_decide, UInt8.le_iff_toNat_le, UInt8.le_iff_toNat_le]
    exact and_congr_right fun _ => Nat.lt_succ_iff.symm
  rw [cleanStatus, hprintable, replyMessage, h]
  cases printable status <;> rfl

/-- What is printable is a text. -/
theorem lossy_cleanStatus (status : Bytes) : lossy (cleanStatus status) = cleanStatus status := by
  refine lossy_of_valid (validUtf8_of_ascii fun b hb => ?_)
  rw [cleanStatus] at hb
  split_ifs at hb with hclean
  · rw [hclean, List.nil_append] at hb
    have hall : (utf8 "UNKNOWN_ERROR").all (· < 0x80) = true := by decide
    exact of_decide_eq_true (List.all_eq_true.mp hall b hb)
  · have := of_decide_eq_true (List.mem_filter.mp hb).2
    exact UInt8.lt_of_le_of_lt this.2 (by decide)

/-- The response to an unsuccessful reply is that for its message. -/
theorem respond_unsuccessful (status : Bytes) (fieldCount : UInt16) (rest : Bytes) :
    respond (some (unsuccessful status fieldCount rest)) =
      errorReply (replyMessage status fieldCount rest) := by
  unfold unsuccessful
  cases hfield : errorField fieldCount rest with
  | none =>
    rw [replyMessage_of_none hfield]
    have hstatus : messageStatus (cleanStatus status) =
        errorStatus (fromUtf8Lossy (cleanStatus status)) := by
      rw [← messageStatus_utf8, utf8_fromUtf8Lossy, lossy_cleanStatus]
    simp only [errorReply, hstatus, respond, errorAnswer, ← errorBody_eq, Text.written,
      lossy_cleanStatus]
  | some data =>
    obtain ⟨s, -, hwritten, hs⟩ := written_messageText data
    have hstatus : messageStatus (messageText data).written =
        errorStatus (fromUtf8Lossy (messageText data).raw) := by
      rw [← hs, ← messageStatus_utf8, hwritten]
    simp only [replyMessage, hfield, errorText_eq, errorReply, hstatus, respond, errorAnswer,
      ← errorBody_eq]

/-- Every decoder begins with the head of the reply. -/
theorem exists_decode_eq_run (env : Env) (metrics : Metrics) (D : Decoder) (payload : Bytes) :
    ∃ k, D.decode env metrics payload = run (readSuccess metrics payload >>= k) := by
  cases D <;> exact ⟨_, rfl⟩

/-- The head of an unsuccessful reply, with the answer to it. -/
theorem readSuccess_of_unsuccessful (metrics : Metrics) {payload status rest : Bytes}
    {fieldCount : UInt16} (hhead : takeHead payload = some (status, fieldCount, rest))
    (hstatus : status ≠ utf8 "SUCCESS") :
    readSuccess metrics payload = ret (errorReply (replyMessage status fieldCount rest),
      metrics.incClientErrors.addBytesSent
        (errorReply (replyMessage status fieldCount rest)).body.length) := by
  rcases readSuccess_eq metrics payload with ⟨hn, -⟩ | ⟨status', fieldCount', off, ht, -, hr⟩
  · rw [hn] at hhead
    cases hhead
  · rw [ht] at hhead
    obtain ⟨rfl, rfl, rfl⟩ : status' = status ∧ fieldCount' = fieldCount ∧
        payload.drop off = rest := by simpa using hhead
    rw [hr, if_neg hstatus, ← respond_unsuccessful]
    rfl

/-- A decoder counts the answer to an unsuccessful reply, as an error and with its body. -/
theorem decode_eq_errorReply (env : Env) (metrics : Metrics) (D : Decoder)
    {payload status rest : Bytes} {fieldCount : UInt16}
    (hhead : takeHead payload = some (status, fieldCount, rest))
    (hstatus : status ≠ utf8 "SUCCESS") : D.decode env metrics payload =
      .ok (errorReply (replyMessage status fieldCount rest), metrics.incClientErrors.addBytesSent
        (errorReply (replyMessage status fieldCount rest)).body.length) := by
  obtain ⟨k, hk⟩ := exists_decode_eq_run env metrics D payload
  rw [hk, readSuccess_of_unsuccessful metrics hhead hstatus, ret_bind, run_ret]

/-- The status code for a message is that of the known error with this text, or else 400. -/
theorem messageStatus_iff (message : Bytes) :
    messageStatus message ≠ .ok ∧
    (∀ e ∈ knownErrors, messageStatus message = e.2.2 ↔ message = utf8 e.2.1) ∧
    (messageStatus message = .badRequest ↔ ∀ e ∈ knownErrors, message ≠ utf8 e.2.1) := by
  by_cases hknown : ∃ e ∈ knownErrors, message = utf8 e.2.1
  · obtain ⟨e, he, rfl⟩ := hknown
    revert e
    simp [messageStatus, knownErrors, utf8_inj]
  · have hne : ∀ e ∈ knownErrors, message ≠ utf8 e.2.1 := fun e he h => hknown ⟨e, he, h⟩
    have hstatus : messageStatus message = .badRequest := by
      rw [messageStatus, List.find?_eq_none.mpr fun e he => by simpa using (hne e he).symm]
    rw [hstatus]
    refine ⟨by decide, fun e he => ⟨?_, fun h => absurd h (hne e he)⟩, fun _ => hne, fun _ => rfl⟩
    revert e
    simp [knownErrors]

/-- **All decoders answer an unsuccessful reply alike**: with its message, under the status code of
that message, which is never that of a success, and they count it. -/
theorem decode_of_unsuccessful (env : Env) (metrics : Metrics) {payload status rest : Bytes}
    {fieldCount : UInt16} (hhead : takeHead payload = some (status, fieldCount, rest))
    (hstatus : status ≠ utf8 "SUCCESS") :
    (∀ D : Decoder, D.decode env metrics payload =
      .ok (errorReply (replyMessage status fieldCount rest), metrics.incClientErrors.addBytesSent
        (errorReply (replyMessage status fieldCount rest)).body.length)) ∧
    messageStatus (replyMessage status fieldCount rest) ≠ .ok ∧
    (∀ e ∈ knownErrors, messageStatus (replyMessage status fieldCount rest) = e.2.2 ↔
      replyMessage status fieldCount rest = utf8 e.2.1) ∧
    (messageStatus (replyMessage status fieldCount rest) = .badRequest ↔
      ∀ e ∈ knownErrors, replyMessage status fieldCount rest ≠ utf8 e.2.1) :=
  ⟨fun D => decode_eq_errorReply env metrics D hhead hstatus, messageStatus_iff _⟩

theorem decode_of_unsuccessful_missing_segment :
    Decoder.decode (.documented []) ⟨0, 0⟩
        (headBytes (utf8 "ERROR") 1 ++ (Field.mk 1 0x01 (utf8 "404")).bytes) .searchProp =
      .ok (errorReply (utf8 "The requested segment was not found"), ⟨66, 1⟩) ∧
    (errorReply (utf8 "The requested segment was not found")).status = .notFound := by
  have hhead : takeHead (headBytes (utf8 "ERROR") 1 ++ (Field.mk 1 0x01 (utf8 "404")).bytes) =
      some (utf8 "ERROR", 1, (Field.mk 1 0x01 (utf8 "404")).bytes) :=
    takeHead_headBytes (by decide) 1 _
  have hmessage : replyMessage (utf8 "ERROR") 1 (Field.mk 1 0x01 (utf8 "404")).bytes =
      utf8 "The requested segment was not found" := by decide
  have hdecode := (decode_of_unsuccessful (.documented []) ⟨0, 0⟩ hhead (by decide)).1 .searchProp
  rw [hmessage] at hdecode
  exact ⟨hdecode, by decide⟩

/-! ## Who failed -/

/-- The number of a status code. -/
def StatusCode.code : StatusCode → ℕ
  | ok => 200
  | badRequest => 400
  | notFound => 404
  | internalServerError => 500
  | serviceUnavailable => 503
  | gatewayTimeout => 504

section Exchange

variable (env : Env) (fromSlice : Bytes → Option Value) (execute : Request → Except RZError Bytes)
  (body : Bytes)

/-- A request is made of the body, and `execute` fails. -/
def Failed (e : RZError) : Prop :=
  ∃ r D, request fromSlice body = .ok (r, D) ∧ execute r = .error e

/-- The backend replies to the request of the body. -/
def Replied (D : Decoder) (payload : Bytes) : Prop :=
  ∃ r, request fromSlice body = .ok (r, D) ∧ execute r = .ok payload

/-- The validation fails: in the handler of the command, or in `execute`. -/
def Invalid : Prop :=
  ∃ message, request fromSlice body = .error (.validation message) ∨
    Failed fromSlice execute body (.validation message)

/-- The message of an unsuccessful reply is a code for an error of the service. -/
def ServiceError (fieldCount : UInt16) (rest : Bytes) : Prop :=
  ∃ code ∈ ["503", "408", "500"], errorField fieldCount rest = some (utf8 code)

/-- The service fails: `execute`, or the backend, or the decoder on a successful reply. -/
inductive ServiceFailed : Prop
  | execute {e : RZError} (failed : Failed fromSlice execute body e)
      (other : ∀ message, e ≠ .validation message)
  | backend {D : Decoder} {payload status : Bytes} {fieldCount : UInt16} {rest : Bytes}
      (replied : Replied fromSlice execute body D payload)
      (head : takeHead payload = some (status, fieldCount, rest)) (other : status ≠ utf8 "SUCCESS")
      (error : ServiceError fieldCount rest)
  | decoder {D : Decoder} {payload : Bytes} {fieldCount : UInt16} {rest : Bytes}
      (replied : Replied fromSlice execute body D payload)
      (head : takeHead payload = some (utf8 "SUCCESS", fieldCount, rest))
      (unaccepted : (respond (D.success env fieldCount rest)).status ≠ .ok)

/-- The class of the status code tells who failed. -/
structure StatusTells (status : StatusCode) : Prop where
  success : status.code / 100 = 2 → ∃ D payload fieldCount rest,
    Replied fromSlice execute body D payload ∧
      takeHead payload = some (utf8 "SUCCESS", fieldCount, rest)
  client : status.code / 100 = 4 → Invalid fromSlice execute body ∨
    ∃ D payload status fieldCount rest, Replied fromSlice execute body D payload ∧
      takeHead payload = some (status, fieldCount, rest) ∧ status ≠ utf8 "SUCCESS" ∧
      ¬ ServiceError fieldCount rest
  server : ServiceFailed env fromSlice execute body → status.code / 100 = 5

/-- A successful reply of one string, which the decoder of SEARCHPROP takes for an error message. -/
def TakenForError (D : Decoder) (fieldCount : UInt16) (rest : Bytes) : Prop :=
  D = .searchProp ∧ fieldCount = 1 ∧
    ∃ f rest', takeField rest = some (f, rest') ∧ f.id = 1 ∧ f.fieldType = 0x01

/-- The answer is 400 and the request is not at fault: `execute` fails, or a successful reply is
taken for an error. -/
inductive Misreported : Prop
  | execute {e : RZError} (failed : Failed fromSlice execute body e)
      (other : ∀ message, e ≠ .validation message)
  | decoder {D : Decoder} {payload : Bytes} {fieldCount : UInt16} {rest : Bytes}
      (replied : Replied fromSlice execute body D payload)
      (head : takeHead payload = some (utf8 "SUCCESS", fieldCount, rest))
      (taken : TakenForError D fieldCount rest)

end Exchange

/-! ## Successful replies -/

variable {env : Env} {fieldCount : UInt16} {rest : Bytes}

/-- An answer, if there is one, is a success. -/
def Succeeds (o : Option Answer) : Prop := ∀ a, o = some a → a.status = .ok

/-- All decoders but that of SEARCHPROP answer a successful reply by 200, if they understand it. -/
theorem succeeds_success {D : Decoder} (hD : D ≠ .searchProp) :
    Succeeds (D.success env fieldCount rest) := by
  intro a h
  obtain ⟨members, rfl⟩ := exists_members_of_success hD h
  rfl

theorem status_respond_of_succeeds {o : Option Answer} (h : Succeeds o) :
    (respond o).status = .ok ∨ (respond o).status = .internalServerError := by
  cases o with
  | none => exact .inr rfl
  | some a => exact .inl (h a rfl)

/-- The decoder of SEARCHPROP answers a reply of more or fewer fields than one as others do. -/
theorem succeeds_searchProp (h : fieldCount ≠ 1) : Succeeds (searchPropAnswer fieldCount rest) := by
  intro a ha
  obtain ⟨members, rfl⟩ := exists_members_of_searchPropAnswer h ha
  rfl

/-- A successful reply that is taken for an error is answered by 400, and all others by 200, or by
500 if they are not understood. -/
theorem status_success (env : Env) (D : Decoder) (fieldCount : UInt16) (rest : Bytes) :
    TakenForError D fieldCount rest ∧
        (respond (D.success env fieldCount rest)).status = .badRequest ∨
      ¬ TakenForError D fieldCount rest ∧
        ((respond (D.success env fieldCount rest)).status = .ok ∨
          (respond (D.success env fieldCount rest)).status = .internalServerError) := by
  by_cases hD : D = .searchProp
  · subst hD
    by_cases hn : fieldCount = 1
    · subst hn
      have h0 : (1 : UInt16) ≠ 0 := by decide
      simp only [TakenForError, Decoder.success, searchPropAnswer, if_neg h0, if_true, true_and]
      cases ht : takeField rest with
      | none => exact .inr ⟨by simp, .inr rfl⟩
      | some p =>
        obtain ⟨f, rest'⟩ := p
        by_cases hf : f.id = 1 ∧ f.fieldType = 0x01
        · refine .inl ⟨⟨f, rest', rfl, hf⟩, ?_⟩
          simp only [if_pos hf]
          split_ifs <;> rfl
        · refine .inr ⟨?_, .inr (by simp only [if_neg hf]; rfl)⟩
          rintro ⟨f', rest'', h, hf'⟩
          obtain ⟨rfl, -⟩ := Prod.mk.inj (Option.some.inj h)
          exact hf hf'
    · exact .inr ⟨fun h => hn h.2.1, status_respond_of_succeeds (succeeds_searchProp hn)⟩
  · exact .inr ⟨fun h => hD h.1, status_respond_of_succeeds (succeeds_success hD)⟩

/-! ## The status code of a response -/

/-- The message of an unsuccessful reply gives a server error if it is a code for one. -/
theorem messageStatus_of_serviceError (status : Bytes) (h : ServiceError fieldCount rest) :
    (messageStatus (replyMessage status fieldCount rest)).code / 100 = 5 := by
  obtain ⟨code, hcode, hfield⟩ := h
  simp only [replyMessage, hfield, errorText_utf8, messageStatus_utf8]
  simp only [List.mem_cons, List.not_mem_nil, or_false] at hcode
  rcases hcode with rfl | rfl | rfl <;> rfl

/-- The status code for a message is that of an error. -/
theorem code_messageStatus (message : Bytes) :
    (messageStatus message).code / 100 = 4 ∨ (messageStatus message).code / 100 = 5 := by
  have hok := (messageStatus_iff message).1
  revert hok
  cases messageStatus message <;> decide

variable {metrics : Metrics} {fromSlice : Bytes → Option Value}
  {execute : Request → Except RZError Bytes} {body : Bytes}

theorem Failed.unique {e e' : RZError} (h : Failed fromSlice execute body e)
    (h' : Failed fromSlice execute body e') : e' = e := by
  obtain ⟨r, D, hreq, hexec⟩ := h
  obtain ⟨r', D', hreq', hexec'⟩ := h'
  obtain ⟨rfl, -⟩ := Prod.mk.inj (Except.ok.inj (hreq.symm.trans hreq'))
  exact Except.error.inj (hexec'.symm.trans hexec)

theorem Replied.unique {D D' : Decoder} {payload payload' : Bytes}
    (h : Replied fromSlice execute body D payload)
    (h' : Replied fromSlice execute body D' payload') : D' = D ∧ payload' = payload := by
  obtain ⟨r, hreq, hexec⟩ := h
  obtain ⟨r', hreq', hexec'⟩ := h'
  obtain ⟨rfl, rfl⟩ := Prod.mk.inj (Except.ok.inj (hreq.symm.trans hreq'))
  exact ⟨rfl, Except.ok.inj (hexec'.symm.trans hexec)⟩

theorem Replied.not_failed {D : Decoder} {payload : Bytes} {e : RZError}
    (h : Replied fromSlice execute body D payload) : ¬ Failed fromSlice execute body e := by
  rintro ⟨r', D', hreq', hexec'⟩
  obtain ⟨r, hreq, hexec⟩ := h
  obtain ⟨rfl, -⟩ := Prod.mk.inj (Except.ok.inj (hreq.symm.trans hreq'))
  rw [hexec] at hexec'
  cases hexec'

theorem Invalid.exists_of_failed {e : RZError} (h : Invalid fromSlice execute body)
    (hfailed : Failed fromSlice execute body e) : ∃ message, e = .validation message := by
  obtain ⟨message, herror | h⟩ := h
  · obtain ⟨r, D, hreq, -⟩ := hfailed
    rw [herror] at hreq
    cases hreq
  · exact ⟨message, h.unique hfailed⟩

theorem Invalid.not_replied {D : Decoder} {payload : Bytes} (h : Invalid fromSlice execute body) :
    ¬ Replied fromSlice execute body D payload := by
  obtain ⟨message, herror | h⟩ := h
  · rintro ⟨r, hreq, -⟩
    rw [herror] at hreq
    cases hreq
  · exact fun hreplied => hreplied.not_failed h

/-- A client error is right where the validation fails. -/
theorem Invalid.statusTells (env : Env) (h : Invalid fromSlice execute body) :
    StatusTells env fromSlice execute body .badRequest ∧ ¬ Misreported fromSlice execute body := by
  refine ⟨⟨fun h => absurd h (by decide), fun _ => .inl h, fun hserver => ?_⟩, ?_⟩
  · cases hserver with
    | execute failed other =>
      obtain ⟨message, rfl⟩ := h.exists_of_failed failed
      exact absurd rfl (other message)
    | backend replied => exact absurd replied h.not_replied
    | decoder replied => exact absurd replied h.not_replied
  · rintro (⟨failed, other⟩ | ⟨replied⟩)
    · obtain ⟨message, rfl⟩ := h.exists_of_failed failed
      exact other message rfl
    · exact h.not_replied replied

/-- A server error is never wrong. -/
theorem statusTells_of_code {status : StatusCode} (h : status.code / 100 = 5) :
    StatusTells env fromSlice execute body status where
  success h' := by omega
  client h' := by omega
  server _ := h

/-- A client error is wrong where the service fails. -/
theorem ServiceFailed.not_statusTells (h : ServiceFailed env fromSlice execute body) :
    ¬ StatusTells env fromSlice execute body .badRequest :=
  fun htells => absurd (htells.server h) (by decide)

section Replied

variable {D : Decoder} {payload status : Bytes}

theorem Replied.misreported_iff (h : Replied fromSlice execute body D payload) :
    Misreported fromSlice execute body ↔ ∃ fieldCount rest,
      takeHead payload = some (utf8 "SUCCESS", fieldCount, rest) ∧
        TakenForError D fieldCount rest := by
  constructor
  · rintro (⟨failed, -⟩ | ⟨replied, head, taken⟩)
    · exact absurd failed h.not_failed
    · obtain ⟨rfl, rfl⟩ := h.unique replied
      exact ⟨_, _, head, taken⟩
  · rintro ⟨fieldCount, rest, head, taken⟩
    exact .decoder h head taken

theorem Replied.serviceFailed_iff (h : Replied fromSlice execute body D payload)
    (hhead : takeHead payload = some (status, fieldCount, rest)) :
    ServiceFailed env fromSlice execute body ↔
      status ≠ utf8 "SUCCESS" ∧ ServiceError fieldCount rest ∨
      status = utf8 "SUCCESS" ∧ (respond (D.success env fieldCount rest)).status ≠ .ok := by
  constructor
  · rintro (⟨failed, -⟩ | ⟨replied, head, other, error⟩ | ⟨replied, head, unaccepted⟩)
    · exact absurd failed h.not_failed
    · obtain ⟨rfl, rfl⟩ := h.unique replied
      rw [hhead] at head
      cases head
      exact .inl ⟨other, error⟩
    · obtain ⟨rfl, rfl⟩ := h.unique replied
      rw [hhead] at head
      cases head
      exact .inr ⟨rfl, unaccepted⟩
  · rintro (⟨other, error⟩ | ⟨rfl, unaccepted⟩)
    · exact .backend h hhead other error
    · exact .decoder h hhead unaccepted

/-- The status code for a successful reply. -/
theorem Replied.statusTells_success (h : Replied fromSlice execute body D payload)
    (hhead : takeHead payload = some (utf8 "SUCCESS", fieldCount, rest)) :
    StatusTells env fromSlice execute body (respond (D.success env fieldCount rest)).status ↔
      ¬ TakenForError D fieldCount rest := by
  rcases status_success env D fieldCount rest with ⟨htaken, hcode⟩ | ⟨htaken, hcode | hcode⟩
  · have hfailed : ServiceFailed env fromSlice execute body :=
      .decoder h hhead (by rw [hcode]; decide)
    rw [hcode]
    exact iff_of_false hfailed.not_statusTells (not_not.mpr htaken)
  · refine iff_of_true ?_ htaken
    rw [hcode]
    refine ⟨fun _ => ⟨D, payload, fieldCount, rest, h, hhead⟩, fun h => absurd h (by decide),
      fun hserver => ?_⟩
    rcases (h.serviceFailed_iff hhead).mp hserver with ⟨hne, -⟩ | ⟨-, hne⟩
    · exact absurd rfl hne
    · exact absurd hcode hne
  · exact iff_of_true (statusTells_of_code (by rw [hcode]; rfl)) htaken

/-- The status code for an unsuccessful reply. -/
theorem Replied.statusTells_unsuccessful (h : Replied fromSlice execute body D payload)
    (hhead : takeHead payload = some (status, fieldCount, rest))
    (hstatus : status ≠ utf8 "SUCCESS") :
    StatusTells env fromSlice execute body
      (messageStatus (replyMessage status fieldCount rest)) := by
  rcases code_messageStatus (replyMessage status fieldCount rest) with hcode | hcode
  · have herror : ¬ ServiceError fieldCount rest := by
      intro herror
      have := messageStatus_of_serviceError status herror
      omega
    refine ⟨fun _ => by omega, fun _ => ?_, fun hserver => ?_⟩
    · exact .inr ⟨D, payload, status, fieldCount, rest, h, hhead, hstatus, herror⟩
    · rcases (h.serviceFailed_iff hhead).mp hserver with ⟨-, he⟩ | ⟨he, -⟩
      · exact absurd he herror
      · exact absurd he hstatus
  · exact statusTells_of_code hcode

/-- The status code for a reply. -/
theorem Replied.statusTells_iff (h : Replied fromSlice execute body D payload) :
    StatusTells env fromSlice execute body (respond (D.answer env payload)).status ↔
      ¬ Misreported fromSlice execute body := by
  rw [h.misreported_iff, Decoder.answer, answerOf]
  cases hhead : takeHead payload with
  | none =>
    have hcode : StatusCode.internalServerError.code / 100 = 5 := by decide
    refine iff_of_true (statusTells_of_code hcode) ?_
    rintro ⟨_, _, ⟨⟩, -⟩
  | some head =>
    obtain ⟨status, fieldCount, rest⟩ := head
    dsimp only
    by_cases hstatus : status = utf8 "SUCCESS"
    · subst hstatus
      rw [if_pos rfl, h.statusTells_success hhead, not_iff_not]
      constructor
      · exact fun htaken => ⟨fieldCount, rest, rfl, htaken⟩
      · rintro ⟨_, _, hsame, htaken⟩
        cases hsame
        exact htaken
    · rw [if_neg hstatus, respond_unsuccessful]
      refine iff_of_true (h.statusTells_unsuccessful hhead hstatus) ?_
      rintro ⟨_, _, hsame, -⟩
      cases hsame
      exact hstatus rfl

end Replied

/-- **The status code tells who failed** if and only if no failure of the service is reported as one
of the client. -/
theorem statusTells_of_process_iff (env : Env) (metrics : Metrics)
    (fromSlice : Bytes → Option Value) (execute : Request → Except RZError Bytes) (body : Bytes) :
    ∃ rsp metrics', process env metrics fromSlice execute body = .ok (rsp, metrics') ∧
      (StatusTells env fromSlice execute body rsp.status ↔
        ¬ Misreported fromSlice execute body) := by
  cases hreq : request fromSlice body with
  | error e =>
    obtain ⟨message, rfl⟩ := Validates.request fromSlice body e hreq
    have hinvalid : Invalid fromSlice execute body := ⟨message, .inl hreq⟩
    obtain ⟨htells, hnot⟩ := hinvalid.statusTells env
    exact ⟨_, _, by rw [process, hreq], iff_of_true htells hnot⟩
  | ok p =>
    obtain ⟨r, D⟩ := p
    cases hexec : execute r with
    | error e =>
      have hfailed : Failed fromSlice execute body e := ⟨r, D, hreq, hexec⟩
      refine ⟨(errorResponse metrics e).1, (errorResponse metrics e).2,
        by simp only [process, hreq, hexec], ?_⟩
      by_cases hother : ∀ message, e ≠ .validation message
      · exact iff_of_false (ServiceFailed.not_statusTells (.execute hfailed hother))
          (not_not.mpr (.execute hfailed hother))
      · obtain ⟨message, rfl⟩ : ∃ message, e = .validation message := by simpa using hother
        have hinvalid : Invalid fromSlice execute body := ⟨message, .inr hfailed⟩
        obtain ⟨htells, hnot⟩ := hinvalid.statusTells env
        exact iff_of_true htells hnot
    | ok payload =>
      obtain ⟨metrics', hdecode, -⟩ := answers_decode env metrics D payload
      exact ⟨respond (D.answer env payload), metrics',
        by simp only [process, hreq, hexec, hdecode], Replied.statusTells_iff ⟨r, hreq, hexec⟩⟩

/-- **A backend that cannot be reached** is answered by 400. -/
theorem not_forall_statusTells :
    ¬ ∀ (env : Env) (metrics : Metrics) (fromSlice : Bytes → Option Value)
        (execute : Request → Except RZError Bytes) (body : Bytes) (rsp : Response)
        (metrics' : Metrics), process env metrics fromSlice execute body = .ok (rsp, metrics') →
      StatusTells env fromSlice execute body rsp.status := by
  intro h
  let unreachable : RZError := .roomzinUnreachable "127.0.0.1:7777"
  have hfailed : Failed (fun _ => some (.object [("command", .string "GETSEGMENTS"),
      ("segment", .string "eu"), ("body", .object [])])) (fun _ => .error unreachable) []
      unreachable := ⟨_, _, rfl, rfl⟩
  exact ServiceFailed.not_statusTells (.execute hfailed fun _ => nofun)
    (h (.documented []) ⟨0, 0⟩ _ _ _ (errorResponse ⟨0, 0⟩ unreachable).1
      (errorResponse ⟨0, 0⟩ unreachable).2 rfl)

end RzProxy
