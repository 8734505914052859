import RzProxy.Processor.Answer

/-!
# Reading by offsets and reading off the front

The statements of the decoders that read at an offset read in range where the checks before them
say so, and give what the readers of the format take off the front of the rest of the payload.

## Main definitions

* `KeepsFields`, `ReadsFields`: what a round of a loop over fields does to the fields that are left,
  and which of them it reads
* `Agree`: a walk over fields agrees with the answer to them
* `Answers`: a decoder gives the response to an answer

## Main results

* `field_at`: the field at an offset
* `whileLoop_counted`: a loop over the fields of a reply, and the check of their number
* `readSuccess_eq`, `answers_of_readSuccess`: the head of a reply, with the answer to an
  unsuccessful one
-/

namespace RzProxy

open ByteString Evaluation Evaluation.Flow JsonText

variable {ρ : Type}

/-! ## Integers and fields at an offset -/

theorem u16At_eq {data : Bytes} {i : ℕ} (h : i + 2 ≤ data.length) :
    (u16At data i : Flow ρ UInt16) = next (u16FromLE ((data.drop i).take 2)) := by
  have hd : (data.drop i).take 2 = [data[i], data[i + 1]] := by
    rw [List.drop_eq_getElem_cons (by omega), List.drop_eq_getElem_cons (by omega)]
    rfl
  rw [hd]
  simp only [u16At, index_of_lt (show i < data.length by omega),
    index_of_lt (show i + 1 < data.length by omega), next_bind, pure_eq]

theorem u32At_eq {data : Bytes} {i : ℕ} (h : i + 4 ≤ data.length) :
    (u32At data i : Flow ρ UInt32) = next (u32FromLE ((data.drop i).take 4)) := by
  have hd : (data.drop i).take 4 = [data[i], data[i + 1], data[i + 2], data[i + 3]] := by
    rw [List.drop_eq_getElem_cons (by omega), List.drop_eq_getElem_cons (by omega),
      List.drop_eq_getElem_cons (by omega), List.drop_eq_getElem_cons (by omega)]
    rfl
  rw [hd]
  simp only [u32At, index_of_lt (show i < data.length by omega),
    index_of_lt (show i + 1 < data.length by omega),
    index_of_lt (show i + 2 < data.length by omega),
    index_of_lt (show i + 3 < data.length by omega), next_bind, pure_eq]

theorem u32At_zero {bs : Bytes} (h : bs.length = 4) :
    (u32At bs 0 : Flow ρ UInt32) = next (u32FromLE bs) := by
  rw [u32At_eq (by omega), List.drop_zero, ← h, List.take_length]

theorem index_eq {data : Bytes} {i : ℕ} (h : i < data.length) :
    (index data i : Flow ρ UInt8) = next (data.getD i 0) := by
  rw [index_of_lt h, List.getD_eq_getElem?_getD, List.getElem?_eq_getElem h, Option.getD_some]

theorem takeField_of_short {bs : Bytes} (h : bs.length < 7) : takeField bs = none :=
  if_pos (.inl h)

/-- What the statements that read a field at `off` give: its id, type and length, and either the
data is cut or it is the field that `takeField` takes. -/
theorem field_at {data : Bytes} {off : ℕ} (h : off + 7 ≤ data.length) :
    ∃ (id : UInt16) (fieldType : UInt8) (len : UInt32),
      (u16At data off : Flow ρ UInt16) = next id ∧
      (index data (off + 2) : Flow ρ UInt8) = next fieldType ∧
      (u32At data (off + 3) : Flow ρ UInt32) = next len ∧
      ((off + 7 + len.toNat > data.length ∧ takeField (data.drop off) = none) ∨
        ∃ bytes, off + 7 + len.toNat ≤ data.length ∧ bytes.length = len.toNat ∧
          (slice data (off + 7) (off + 7 + len.toNat) : Flow ρ Bytes) = next bytes ∧
          takeField (data.drop off) =
            some (⟨id, fieldType, bytes⟩, data.drop (off + 7 + len.toNat)) ∧
          bytes = (data.drop (off + 7)).take len.toNat) := by
  refine ⟨_, _, _, u16At_eq (by omega), index_eq (by omega), u32At_eq (by omega), ?_⟩
  set len := (u32FromLE ((data.drop (off + 3)).take 4)).toNat with hlen
  by_cases hl : off + 7 + len ≤ data.length
  · refine .inr ⟨(data.drop (off + 7)).take len, hl, ?_, ?_, ?_, rfl⟩
    · rw [List.length_take, List.length_drop]; omega
    · rw [slice_of_le ⟨by omega, hl⟩, Nat.add_sub_cancel_left]
    · simp only [takeField, List.drop_drop, List.length_drop, ← hlen]
      rw [if_neg (by omega), ← Nat.add_assoc]
      simp [List.getD_eq_getElem?_getD]
  · refine .inl ⟨by omega, ?_⟩
    simp only [takeField, List.drop_drop, List.length_drop, ← hlen]
    rw [if_pos (by omega)]

/-! ## Loops over fields -/

section FieldLoop

variable {σ τ α β : Type} {data : Bytes} {offset : σ → ℕ} {walk : σ → List Field → Option τ}

/-- At the end there is no field. -/
theorem bind_fieldsOf_of_end {walk : List Field → Option τ} {off : ℕ}
    (h7 : ¬ off + 7 ≤ data.length) : (fieldsOf (data.drop off)).bind walk = walk [] := by
  rw [fieldsOf_of_short (by rw [List.length_drop]; omega), Option.bind_some]

/-- A round of a loop over fields returns `r`, where `walk` fails on the fields that are left, or
keeps what `walk` makes of them. -/
def KeepsFields (data : Bytes) (offset : σ → ℕ) (walk : σ → List Field → Option τ)
    (body : σ → Flow ρ σ) (r : ρ) (s : σ) : Prop :=
  ((fieldsOf (data.drop (offset s))).bind (walk s) = none ∧ body s = ret r) ∨
    ∃ t, body s = next t ∧ (fieldsOf (data.drop (offset t))).bind (walk t) =
      (fieldsOf (data.drop (offset s))).bind (walk s) ∧ offset s < offset t

/-- A round of a loop over fields returns `r`, where `walk` fails on whatever fields come next, or
reads one or two fields and keeps what `walk` makes of those after them. -/
def ReadsFields (data : Bytes) (offset : σ → ℕ) (walk : σ → List Field → Option τ)
    (body : σ → Flow ρ σ) (r : ρ) (s : σ) : Prop :=
  (body s = ret r ∧ ∀ fs tail, fs ≠ [] →
      takeFields fs.length (data.drop (offset s)) = some (fs, tail) → walk s fs = none) ∨
    ∃ gs t, body s = next t ∧ gs ≠ [] ∧ gs.length ≤ 2 ∧
      takeFields gs.length (data.drop (offset s)) = some (gs, data.drop (offset t)) ∧
      (∀ fs, walk s (gs ++ fs) = walk t fs) ∧
      ∀ fs, fs ≠ [] → fs <+: gs → fs.length < gs.length → walk s fs = none

section Rounds

variable {body : σ → Flow ρ σ} {r : ρ} {s t : σ} {f g : Field} {rest : Bytes}

/-- The next field is cut. -/
theorem readsFields_of_none (ht : takeField (data.drop (offset s)) = none)
    (hb : body s = ret r) : ReadsFields data offset walk body r s := by
  refine .inl ⟨hb, fun fs tail hne h => ?_⟩
  cases fs with
  | nil => exact absurd rfl hne
  | cons f fs =>
    obtain ⟨f, gs, mid, -, ht', -⟩ := takeFields_succ_eq_some_iff.mp h
    rw [ht] at ht'
    cases ht'

/-- The next field is wrong, or those after it. -/
theorem readsFields_of_ret (ht : takeField (data.drop (offset s)) = some (f, rest))
    (hw : ∀ fs tail, takeFields fs.length rest = some (fs, tail) → walk s (f :: fs) = none)
    (hb : body s = ret r) : ReadsFields data offset walk body r s := by
  refine .inl ⟨hb, fun fs tail hne h => ?_⟩
  cases fs with
  | nil => exact absurd rfl hne
  | cons f' fs =>
    obtain ⟨_, _, mid, heq, ht', hg⟩ := takeFields_succ_eq_some_iff.mp h
    cases heq
    rw [ht] at ht'
    cases ht'
    exact hw fs tail hg

/-- One field is read. -/
theorem readsFields_one (ht : takeField (data.drop (offset s)) = some (f, data.drop (offset t)))
    (hw : ∀ fs, walk s (f :: fs) = walk t fs) (hb : body s = next t) :
    ReadsFields data offset walk body r s := by
  refine .inr ⟨[f], t, hb, by simp, by simp, ?_, hw, fun fs hne _ hl => ?_⟩
  · exact takeFields_succ_eq_some_iff.mpr ⟨f, [], _, rfl, ht, rfl⟩
  · exact absurd (List.length_eq_zero_iff.mp (by simpa using hl)) hne

/-- Two fields are read. -/
theorem readsFields_two (ht : takeField (data.drop (offset s)) = some (f, rest))
    (ht' : takeField rest = some (g, data.drop (offset t))) (hone : walk s [f] = none)
    (hw : ∀ fs, walk s (f :: g :: fs) = walk t fs) (hb : body s = next t) :
    ReadsFields data offset walk body r s := by
  refine .inr ⟨[f, g], t, hb, by simp, le_rfl, ?_, hw, fun fs hne hpre hl => ?_⟩
  · exact takeFields_succ_eq_some_iff.mpr ⟨f, [g], rest, rfl, ht,
      takeFields_succ_eq_some_iff.mpr ⟨g, [], _, rfl, ht', rfl⟩⟩
  · match fs, hne with
    | [f'], _ =>
      obtain ⟨rfl, -⟩ := List.cons_prefix_cons.mp hpre
      exact hone
    | _ :: _ :: _, _ => simp at hl

/-- A round that reads fields keeps what all fields that are left come to. -/
theorem ReadsFields.keepsFields (h : ReadsFields data offset walk body r s)
    (h7 : offset s + 7 ≤ data.length) : KeepsFields data offset walk body r s := by
  rcases h with ⟨hb, hnone⟩ | ⟨gs, t, hb, hne, -, hg, hw, -⟩
  · refine .inl ⟨Option.bind_eq_none_iff.mpr fun fs hfs => ?_, hb⟩
    obtain ⟨tail, hl, ht⟩ := fieldsOf_eq_some_iff.mp hfs
    refine hnone fs tail ?_ ht
    rintro rfl
    cases ht
    rw [List.length_drop] at hl
    omega
  · refine .inr ⟨t, hb, ?_, ?_⟩
    · rw [fieldsOf_of_takeFields hg, Option.bind_map]
      exact congrArg _ (funext fun fs => (hw fs).symm)
    · have hpos := List.length_pos_iff.mpr hne
      have hlen := add_length_le_of_takeFields hg
      simp only [List.length_drop] at hlen
      omega

end Rounds

/-- The loop that goes on while the seven bytes before the data are there. -/
theorem whileLoop_fields {body : σ → Flow ρ σ} {out : σ → τ} {r : ρ}
    (hout : ∀ s, walk s [] = some (out s))
    (round : ∀ s, offset s + 7 ≤ data.length → KeepsFields data offset walk body r s) (s : σ) :
    ((fieldsOf (data.drop (offset s))).bind (walk s) = none ∧
      whileLoop (fun s => offset s + 7 ≤ data.length) body (data.length + 1) s = ret r) ∨
    ∃ t, (fieldsOf (data.drop (offset s))).bind (walk s) = some (out t) ∧
      whileLoop (fun s => offset s + 7 ≤ data.length) body (data.length + 1) s = next t := by
  have hround : ∀ s, offset s + 7 ≤ data.length →
      ((fieldsOf (data.drop (offset s))).bind (walk s) = none ∧ body s = ret r) ∨
      ∃ t, body s = next t ∧ (fieldsOf (data.drop (offset t))).bind (walk t) =
        (fieldsOf (data.drop (offset s))).bind (walk s) ∧
        data.length - offset t < data.length - offset s := by
    intro s hs
    rcases round s hs with h | ⟨t, hb, hG, ht⟩
    · exact .inl h
    · exact .inr ⟨t, hb, hG, by omega⟩
  exact whileLoop_eq (fun s hs => (bind_fieldsOf_of_end hs).trans (hout s)) hround (by omega)

/-- The walk over the fields of a reply and the answer to them agree, where the walk also gives the
id after the last field: without an answer it fails, or shows another number of fields. -/
def Agree (fieldCount : UInt16) (value : β → α) (walked : Option (α × UInt16))
    (answer : Option β) : Prop :=
  (answer = none ∧ ∀ a k, walked = some (a, k) → k - 1 ≠ fieldCount) ∨
    ∃ b k, answer = some b ∧ walked = some (value b, k) ∧ k - 1 = fieldCount

/-- **The loop over the fields of a reply**, with the check of their number after it. -/
theorem whileLoop_counted {walk : σ → List Field → Option (α × UInt16)} {body : σ → Flow ρ σ}
    (out : σ → α × UInt16) {r : ρ} {fieldCount : UInt16} {answer : List Field → Option β}
    {value : β → α} (hout : ∀ s, walk s [] = some (out s))
    (round : ∀ s, offset s + 7 ≤ data.length → KeepsFields data offset walk body r s) (s : σ)
    (hagree : ∀ fs, Agree fieldCount value (walk s fs)
      ((if Numbered 1 fs ∧ UInt16.ofNat fs.length = fieldCount then some fs else none).bind
        answer)) :
    ((countedFields fieldCount (data.drop (offset s))).bind answer = none ∧
      (whileLoop (fun s => offset s + 7 ≤ data.length) body (data.length + 1) s = ret r ∨
        ∃ t, whileLoop (fun s => offset s + 7 ≤ data.length) body (data.length + 1) s = next t ∧
          (out t).2 - 1 ≠ fieldCount)) ∨
    ∃ b t, (countedFields fieldCount (data.drop (offset s))).bind answer = some b ∧
      whileLoop (fun s => offset s + 7 ≤ data.length) body (data.length + 1) s = next t ∧
      (out t).1 = value b ∧ (out t).2 - 1 = fieldCount := by
  have hloop := whileLoop_fields hout round s
  cases hf : fieldsOf (data.drop (offset s)) with
  | none =>
    rw [countedFields_of_none hf]
    rw [hf] at hloop
    rcases hloop with ⟨-, hw⟩ | ⟨t, hG, -⟩
    · exact .inl ⟨rfl, .inl hw⟩
    · cases hG
  | some fs =>
    rw [countedFields_of_some hf]
    rw [hf, Option.bind_some] at hloop
    rcases hagree fs with ⟨hn, hk⟩ | ⟨b, k, hb, hv, hc⟩
    · rcases hloop with ⟨-, hw⟩ | ⟨t, hG, hw⟩
      · exact .inl ⟨hn, .inl hw⟩
      · exact .inl ⟨hn, .inr ⟨t, hw, hk _ _ hG⟩⟩
    · rcases hloop with ⟨hG, -⟩ | ⟨t, hG, hw⟩
      · rw [hv] at hG
        cases hG
      · obtain ⟨ha, hk⟩ := Prod.mk.inj (Option.some.inj (hv.symm.trans hG))
        exact .inr ⟨b, t, hb, hw, ha.symm, by rw [← hk, hc]⟩

end FieldLoop

/-! ## The head of a reply -/

/-- The head of a payload, read by offsets. -/
theorem readStatus_eq (empty short : ρ) (data : Bytes) :
    (data = [] ∧ readStatus empty short data = ret empty) ∨
    (data ≠ [] ∧ takeHead data = none ∧ readStatus empty short data = ret short) ∨
    ∃ status fieldCount off, takeHead data = some (status, fieldCount, data.drop off) ∧
      off ≤ data.length ∧ readStatus empty short data = next (status, fieldCount, off) := by
  cases data with
  | nil => exact .inl ⟨rfl, rfl⟩
  | cons b bs =>
    refine .inr ?_
    have h0 : (index (b :: bs) 0 : Flow ρ UInt8) = next b := rfl
    simp only [readStatus, List.cons_ne_nil, not_false_eq_true, returnIf_of_neg, next_bind, h0,
      returnIf_bind, takeHead, List.length_cons]
    by_cases hl : bs.length < b.toNat + 2
    · rw [if_pos hl, if_pos (by omega)]
      exact .inl ⟨List.cons_ne_nil _ _, rfl, rfl⟩
    · rw [if_neg hl, if_neg (by omega)]
      have hs : (slice (b :: bs) 1 (1 + b.toNat) : Flow ρ Bytes) = next (bs.take b.toNat) := by
        rw [slice_of_le ⟨by omega, by rw [List.length_cons]; omega⟩, Nat.add_sub_cancel_left]
        rfl
      have hc : (u16At (b :: bs) (1 + b.toNat) : Flow ρ UInt16) =
          next (u16FromLE ((bs.drop b.toNat).take 2)) := by
        rw [u16At_eq (by rw [List.length_cons]; omega), Nat.add_comm, List.drop_succ_cons]
      refine .inr ⟨_, _, 1 + b.toNat + 2, ?_, by omega, by rw [hs, next_bind, hc]; rfl⟩
      rw [show 1 + b.toNat + 2 = (b.toNat + 2) + 1 by omega, List.drop_succ_cons]

/-! ## Answers -/

/-- The decoder does not panic and gives the response to the answer `a`; it leaves the counters as
they are if there is no answer. -/
def Answers (metrics : Metrics) (a : Option Answer) (r : Exec (Response × Metrics)) : Prop :=
  ∃ metrics', r = .ok (respond a, metrics') ∧ (a = none → metrics' = metrics)

theorem answers_invalid (metrics : Metrics) :
    Answers metrics none (run (ret (invalidResponse, metrics))) :=
  ⟨metrics, rfl, fun _ => rfl⟩

theorem answers_next_invalid (metrics : Metrics) :
    Answers metrics none (run (next (invalidResponse, metrics))) :=
  ⟨metrics, rfl, fun _ => rfl⟩

theorem answers_next {metrics metrics' : Metrics} {a : Answer} {body : Bytes}
    (h : body = bodyOf a.members) :
    Answers metrics (some a) (run (next (jsonResponse a.status body, metrics'))) :=
  ⟨metrics', by rw [h]; rfl, fun h => by cases h⟩

/-! ## Unsuccessful replies -/

/-- An error body, as it is put together. -/
theorem errorBody_eq (t : Text) :
    utf8 "\x7b\"status\":\"error\",\"message\":\"" ++ t.written ++ utf8 "\"\x7d" =
      bodyOf (errorMembers t) := by
  simp only [bodyOf, errorMembers, mapMembers, Json.map, Json.render, renderMembers, quoted,
    List.append_assoc, List.cons_append, List.nil_append, if_true, Bool.false_eq_true, if_false]
  rfl

theorem written_messageText (bs : Bytes) :
    ∃ s, (match fromUtf8 bs with
        | some msgStr => (.ok (friendlyMessage msgStr) : Except RZError String)
        | none => .ok (fromUtf8Lossy bs)) = .ok s ∧
      utf8 s = (messageText bs).written ∧ s = fromUtf8Lossy (messageText bs).raw := by
  unfold messageText
  cases fromUtf8 bs with
  | some msgStr => exact ⟨_, rfl, rfl, (fromUtf8Lossy_utf8 _).symm⟩
  | none => exact ⟨_, rfl, utf8_fromUtf8Lossy bs, rfl⟩

/-- The error message that is extracted is that of the first field. -/
theorem extractErrorMessage_eq (data : Bytes) (fieldCount : UInt16) (off : ℕ) :
    (∃ e, extractErrorMessage data fieldCount off = .ok (.error e) ∧
      errorField fieldCount (data.drop off) = none) ∨
    ∃ s bs, extractErrorMessage data fieldCount off = .ok (.ok s) ∧
      errorField fieldCount (data.drop off) = some bs ∧ utf8 s = (messageText bs).written ∧
      s = fromUtf8Lossy (messageText bs).raw := by
  unfold extractErrorMessage errorField
  by_cases h : fieldCount ≥ 1 ∧ off + 7 ≤ data.length
  · obtain ⟨hc, h7⟩ := h
    have hc' : ¬ ¬ (fieldCount ≥ 1 ∧ off + 7 ≤ data.length) := not_not.mpr ⟨hc, h7⟩
    obtain ⟨id, fieldType, len, hid, htype, hlen, ⟨hl, ht⟩ | ⟨bytes, hl, hb, hs, ht, -⟩⟩ :=
      field_at (ρ := Except RZError String) h7
    · refine .inl ⟨.internal "Failed to extract error message from response", ?_, by rw [ht]⟩
      simp only [returnIf_of_neg hc', hid, htype, hlen, next_bind, returnIf_bind,
        if_pos (show ¬ off + 7 + len.toNat ≤ data.length by omega)]
      split <;> rfl
    · simp only [returnIf_of_neg hc', hid, htype, hlen, hs, next_bind, returnIf_bind, ht,
        if_neg (show ¬ ¬ off + 7 + len.toNat ≤ data.length by omega)]
      by_cases hi : id = 1 ∧ fieldType = 0x01
      · by_cases he : bytes = []
        · exact .inl ⟨_, by rw [if_neg (not_not.mpr hi), if_pos he]; rfl,
            if_neg fun h => h.2.2.2 he⟩
        · obtain ⟨s, hs, hw, hr⟩ := written_messageText bytes
          refine .inr ⟨s, _, ?_, if_pos ⟨hc, hi.1, hi.2, he⟩, hw, hr⟩
          rw [if_neg (not_not.mpr hi), if_neg he, ← hs]
          cases fromUtf8 bytes <;> rfl
      · exact .inl ⟨_, by rw [if_pos hi]; rfl, if_neg fun h => hi ⟨h.2.1, h.2.2.1⟩⟩
  · refine .inl ⟨.internal "Failed to extract error message from response",
      by simp only [returnIf_of_pos h, ret_bind, run_ret], ?_⟩
    split
    · rfl
    · rename_i f rest ht
      refine if_neg fun h' => h ⟨h'.1, ?_⟩
      have := length_of_takeField ht
      rw [List.length_drop] at this
      omega

/-- The answer to a reply whose status is not `SUCCESS`, which is counted. -/
theorem handleNonSuccessStatus_eq (metrics : Metrics) (data status : Bytes)
    (fieldCount : UInt16) (off : ℕ) :
    handleNonSuccessStatus metrics data status fieldCount off =
      .ok (respond (some (unsuccessful status fieldCount (data.drop off))),
        metrics.incClientErrors.addBytesSent
          (bodyOf (unsuccessful status fieldCount (data.drop off)).members).length) := by
  rcases extractErrorMessage_eq data fieldCount off with ⟨e, he, ht⟩ | ⟨s, bs, he, ht, hw, rfl⟩
  · simp only [handleNonSuccessStatus, he, unsuccessful, ht, respond, errorAnswer, ← errorBody_eq,
      Text.written, ← utf8_fromUtf8Lossy]
    rfl
  · simp only [handleNonSuccessStatus, he, unsuccessful, ht, respond, errorAnswer, ← errorBody_eq,
      ← hw]
    rfl

/-- The head of a reply is read as it is taken. -/
theorem readSuccess_eq (metrics : Metrics) (payload : Bytes) :
    (takeHead payload = none ∧ readSuccess metrics payload = ret (invalidResponse, metrics)) ∨
    ∃ status fieldCount off, takeHead payload = some (status, fieldCount, payload.drop off) ∧
      off ≤ payload.length ∧ readSuccess metrics payload =
        if status = utf8 "SUCCESS" then next (fieldCount, off)
        else
          ret (respond (some (unsuccessful status fieldCount (payload.drop off))),
            metrics.incClientErrors.addBytesSent
              (bodyOf (unsuccessful status fieldCount (payload.drop off)).members).length) := by
  unfold readSuccess
  rcases readStatus_eq (invalidResponse, metrics) (invalidResponse, metrics) payload with
    ⟨rfl, hr⟩ | ⟨-, ht, hr⟩ | ⟨status, fieldCount, off, ht, hoff, hr⟩
  · exact .inl ⟨rfl, by rw [hr, ret_bind]⟩
  · exact .inl ⟨ht, by rw [hr, ret_bind]⟩
  · refine .inr ⟨status, fieldCount, off, ht, hoff, ?_⟩
    rw [hr, next_bind]
    dsimp only
    by_cases hs : status = utf8 "SUCCESS"
    · rw [if_pos hs, if_neg (not_not.mpr hs)]
      rfl
    · rw [if_neg hs, if_pos hs, handleNonSuccessStatus_eq]
      rfl

/-- A decoder goes on with the head of a successful reply. -/
theorem exists_readSuccess (metrics : Metrics) {payload rest : Bytes} {fieldCount : UInt16}
    (h : takeHead payload = some (utf8 "SUCCESS", fieldCount, rest)) :
    ∃ off, rest = payload.drop off ∧ readSuccess metrics payload = next (fieldCount, off) := by
  rcases readSuccess_eq metrics payload with ⟨hn, -⟩ | ⟨status, fieldCount', off, ht, -, hr⟩
  · rw [hn] at h
    cases h
  · rw [ht] at h
    cases h
    exact ⟨off, rfl, hr⟩

/-- **The head of a reply**, in a decoder that goes on with `k`: if `k` gives the answer that
`success` reads off what comes after the head, the decoder gives the answer to the reply. -/
theorem answers_of_readSuccess {metrics : Metrics} {success : UInt16 → Bytes → Option Answer}
    {k : UInt16 × ℕ → Flow (Response × Metrics) (Response × Metrics)} {payload : Bytes}
    (h : ∀ fieldCount off, off ≤ payload.length →
      Answers metrics (success fieldCount (payload.drop off)) (run (k (fieldCount, off)))) :
    Answers metrics (answerOf success payload) (run (readSuccess metrics payload >>= k)) := by
  rcases readSuccess_eq metrics payload with ⟨hn, hr⟩ | ⟨status, fieldCount, off, ht, hoff, hr⟩
  · rw [hr, answerOf, hn]
    exact answers_invalid metrics
  · simp only [hr, answerOf, ht]
    by_cases hs : status = utf8 "SUCCESS"
    · rw [if_pos hs, if_pos hs]
      exact h fieldCount off hoff
    · rw [if_neg hs, if_neg hs]
      exact ⟨_, rfl, fun h => by cases h⟩

end RzProxy
