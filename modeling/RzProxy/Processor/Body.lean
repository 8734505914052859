import RzProxy.Processor.Decoder

/-!
# The bodies of responses

A decoder puts its body together without escaping. The body is a JSON object whose strings are the
texts that the fields of the reply carry exactly when every text may stand between quotes as it is.

## Main definitions

* `WellFormed`: a body is UTF-8, and a JSON object with the given members
* `Decoder.carried`: the members of the object, with the texts as the fields carry them
* `Decoder.Verbatim`: the texts may stand between quotes as they are

## Main results

* `wellFormed_bodyOf_iff`: when a body is well-formed
* `decode_wellFormed_iff`: when the body of a response is
-/

namespace RzProxy

open ByteString Evaluation JsonText

variable (env : Env)

/-! ## Members -/

/-- The body is UTF-8, and a JSON object with the given members. -/
def WellFormed (members : List (Bytes × Json Bytes)) (body : Bytes) : Prop :=
  validUtf8 body = true ∧ Denotes (.value (.obj members)) body

/-- The answer to a payload that is not understood. -/
def invalidMembers : Members := errorMembers (.const "INVALID_RESPONSE_FORMAT")

/-- The members of an answer, with the texts as the fields carry them. -/
def Answer.carried (a : Answer) : List (Bytes × Json Bytes) :=
  match a.replaced with
  | none => mapMembers Text.raw a.members
  | some bs => mapMembers Text.raw (errorMembers (.copied bs))

namespace Decoder

/-- The members of the object that a reply stands for. -/
def carried (D : Decoder) (payload : Bytes) : List (Bytes × Json Bytes) :=
  match D.answer env payload with
  | none => mapMembers Text.raw invalidMembers
  | some a => a.carried

/-- The texts that a reply carries may stand between quotes as they are, and no other text is put in
the place of an error message. -/
def Verbatim (D : Decoder) (payload : Bytes) : Prop :=
  match D.answer env payload with
  | none => True
  | some a => a.replaced = none ∧ ∀ t ∈ stringsMembers a.members, Plain t.raw

end Decoder

/-- **When a body is well-formed**: when the texts may stand between quotes as they are. -/
theorem wellFormed_bodyOf_iff (members : Members) :
    WellFormed (mapMembers Text.raw members) (bodyOf members) ↔
      ∀ t ∈ stringsMembers members, Plain t.raw := by
  have hstrings : (Json.obj (mapMembers Text.raw members)).strings =
      (stringsMembers members).map Text.raw := Json.strings_map (.obj members)
  have hbody (hv : ∀ t ∈ stringsMembers members, validUtf8 t.raw = true) :
      bodyOf members = (Json.obj (mapMembers Text.raw members)).render := by
    rw [bodyOf, mapMembers_congr members fun t ht => Text.written_of_validUtf8 (hv t ht)]
  constructor
  · rintro ⟨-, hd⟩
    have hv : ∀ t ∈ stringsMembers members, validUtf8 t.raw = true := by
      intro t ht
      refine hd.validUtf8_strings t.raw ?_
      rw [Part.strings, hstrings]
      exact List.mem_map_of_mem ht
    rw [hbody hv, denotes_render_iff, hstrings, List.forall_mem_map] at hd
    exact hd
  · intro hp
    have hd : Denotes (.value (.obj (mapMembers Text.raw members))) (bodyOf members) := by
      rw [hbody fun t ht => (hp t ht).1, denotes_render_iff, hstrings, List.forall_mem_map]
      exact hp
    exact ⟨hd.validUtf8, hd⟩

theorem wellFormed_invalidResponse :
    WellFormed (mapMembers Text.raw invalidMembers) invalidResponse.body := by
  refine (wellFormed_bodyOf_iff invalidMembers).mpr fun t ht => ?_
  have hp : Plain (utf8 "status") ∧ Plain (utf8 "error") ∧ Plain (utf8 "message") ∧
      Plain (utf8 "INVALID_RESPONSE_FORMAT") :=
    ⟨plain_utf8 (by decide), plain_utf8 (by decide), plain_utf8 (by decide),
      plain_utf8 (by decide)⟩
  simp only [invalidMembers, errorMembers, stringsMembers, Json.strings, List.cons_append,
    List.nil_append, List.mem_cons, List.not_mem_nil, or_false] at ht
  rcases ht with rfl | rfl | rfl | rfl
  · exact hp.1
  · exact hp.2.1
  · exact hp.2.2.1
  · exact hp.2.2.2

/-! ## Messages in the place of others -/

/-- What an error field may say, and what is put in its place. -/
def replacements : List (Bytes × String) :=
  (utf8 "", "UNKNOWN_ERROR") ::
    ["404", "503", "408", "500"].map fun code => (utf8 code, friendlyMessage code)

theorem friendlyMessage_cases (s : String) :
    friendlyMessage s = s ∨ (utf8 s, friendlyMessage s) ∈ replacements := by
  by_cases h : s ∈ ["404", "503", "408", "500"]
  · exact .inr (List.mem_cons_of_mem _ (List.mem_map_of_mem h))
  · simp only [List.mem_cons, List.not_mem_nil, or_false, not_or] at h
    refine .inl ?_
    unfold friendlyMessage
    split <;> tauto

/-- Only an error message is replaced. -/
theorem replaced_of_success {D : Decoder} {fieldCount : UInt16} {rest bs : Bytes} {a : Answer}
    (h : D.success env fieldCount rest = some a) (hr : a.replaced = some bs) :
    ∃ s, a.members = errorMembers (.const s) ∧ (bs, s) ∈ replacements := by
  by_cases hD : D = .searchProp
  swap
  · obtain ⟨members, rfl⟩ := exists_members_of_success hD h
    cases hr
  subst hD
  by_cases h1 : fieldCount = 1
  swap
  · obtain ⟨members, rfl⟩ := exists_members_of_searchPropAnswer h1 h
    cases hr
  subst h1
  have h0 : (1 : UInt16) ≠ 0 := by decide
  simp only [Decoder.success, searchPropAnswer, if_neg h0, if_true] at h
  split at h
  · cases h
  · split_ifs at h
    · obtain rfl := Option.some.inj h
      obtain rfl := Option.some.inj hr
      exact ⟨_, rfl, List.mem_cons_self ..⟩
    · obtain rfl := Option.some.inj h
      cases hr

theorem replaced_of_answer {D : Decoder} {payload bs : Bytes} {a : Answer}
    (h : D.answer env payload = some a) (hr : a.replaced = some bs) :
    ∃ s, a.members = errorMembers (.const s) ∧ (bs, s) ∈ replacements := by
  rw [Decoder.answer, answerOf] at h
  split at h
  · cases h
  split_ifs at h
  · exact replaced_of_success env h hr
  · obtain rfl := Option.some.inj h
    rw [unsuccessful] at hr ⊢
    split at hr
    · cases hr
    · rename_i msg he
      simp only [errorAnswer] at hr ⊢
      split_ifs at hr with hraw
      obtain rfl := Option.some.inj hr
      unfold messageText at hraw ⊢
      cases hs : fromUtf8 msg with
      | none =>
        rw [hs] at hraw
        exact absurd rfl hraw
      | some s =>
        rw [hs] at hraw
        obtain rfl := fromUtf8_eq_some_iff.mp hs
        refine ⟨friendlyMessage s, rfl, (friendlyMessage_cases s).resolve_left fun h => hraw ?_⟩
        simp only [h]
        rfl

/-- A body with another text in the place of the message is not well-formed: it has no backslash, so
that the message would be the one that is written. -/
theorem not_wellFormed_replaced {bs : Bytes} {s : String} (h : (bs, s) ∈ replacements) :
    ¬ WellFormed (mapMembers Text.raw (errorMembers (.copied bs)))
      (bodyOf (errorMembers (.const s))) := by
  rintro ⟨-, hd⟩
  have hb : 0x5C ∉ bodyOf (errorMembers (.const s)) ∧
      inked (bodyOf (errorMembers (.const s))) ≠
        inked (Json.obj (mapMembers Text.raw (errorMembers (.copied bs)))).render := by
    exact (by decide : ∀ p ∈ replacements, 0x5C ∉ bodyOf (errorMembers (.const p.2)) ∧
      inked (bodyOf (errorMembers (.const p.2))) ≠
        inked (Json.obj (mapMembers Text.raw (errorMembers (.copied p.1)))).render) (bs, s) h
  exact hb.2 (hd.inked_eq hb.1)

theorem wellFormed_respond_iff (D : Decoder) (payload : Bytes) :
    WellFormed (D.carried env payload) (respond (D.answer env payload)).body ↔
      D.Verbatim env payload := by
  unfold Decoder.carried Decoder.Verbatim
  cases ha : D.answer env payload with
  | none =>
    simp only [iff_true]
    exact wellFormed_invalidResponse
  | some a =>
    simp only [Answer.carried]
    cases hr : a.replaced with
    | none =>
      simp only [true_and]
      exact wellFormed_bodyOf_iff a.members
    | some bs =>
      obtain ⟨s, hm, hs⟩ := replaced_of_answer env ha hr
      simp only [reduceCtorEq, false_and, iff_false]
      rw [respond, hm]
      exact not_wellFormed_replaced hs

/-- **When the body of a response is well-formed**: when the texts of the reply may stand between
quotes as they are, and the error message is not replaced. -/
theorem decode_wellFormed_iff (env : Env) (metrics : Metrics) (D : Decoder) (payload : Bytes) :
    ∃ r metrics', D.decode env metrics payload = .ok (r, metrics') ∧
      (WellFormed (D.carried env payload) r.body ↔ D.Verbatim env payload) := by
  obtain ⟨metrics', h, -⟩ := answers_decode env metrics D payload
  exact ⟨_, metrics', h, wellFormed_respond_iff env D payload⟩

/-- A room type with a quote in it. -/
def quotedRoom : List Field := [{ id := 1, fieldType := 0x01, data := utf8 "king\"size" }]

/-- A quote in a room type ends its string early. -/
theorem not_wellFormed_quotedRoom :
    ∃ r metrics', Decoder.decode (.documented ["wifi"]) ⟨0, 0⟩ (successBytes quotedRoom)
        .propRoomList = .ok (r, metrics') ∧
      ¬ WellFormed (Decoder.carried (.documented ["wifi"]) .propRoomList (successBytes quotedRoom))
        r.body := by
  obtain ⟨metrics', h, -⟩ :=
    answers_decode (.documented ["wifi"]) ⟨0, 0⟩ .propRoomList (successBytes quotedRoom)
  refine ⟨_, metrics', h, fun hw => ?_⟩
  have ha : Decoder.answer (.documented ["wifi"]) .propRoomList (successBytes quotedRoom) =
      some (listAnswer "room_types" [.lossy (utf8 "king\"size")]) := by
    have hf : fieldsOf (quotedRoom.flatMap Field.bytes) = some quotedRoom :=
      fieldsOf_flatMap (by unfold Field.Fits; decide)
    have h1 : ¬ UInt16.ofNat quotedRoom.length = 0 := by decide
    rw [Decoder.answer, answerOf, successBytes, takeHead_headBytes (by decide)]
    simp only [if_true, Decoder.success, propRoomListAnswer, if_neg h1, countedFields_of_some hf]
    rfl
  rw [wellFormed_respond_iff, Decoder.Verbatim, ha] at hw
  have hp := (hw.2 (.lossy (utf8 "king\"size")) (by simp [listAnswer, successAnswer,
    stringsMembers, Json.strings, stringsItems])).2 0x22 (by decide)
  exact hp.2.1 rfl

end RzProxy
