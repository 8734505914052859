import RzProxy.Processor.Status

/-!
# What the decoders accept

The successful replies that a decoder answers by 200, as fields and bytes after them. Each decoder
ends its scan by a rule of its own: at a fixed offset, after the fields that are announced, while
seven bytes are left, or at the end. Only the last one leaves no bytes unread.

## Main definitions

* `Decoder.Accepts`: the fields that a decoder accepts, and the bytes after them
* `Exact`: a payload is a head and as many fields as it announces
* `Leftover`: bytes or fields are left after what a decoder accepts

## Main results

* `status_success_iff`: a decoder answers by 200 what it accepts
* `exact_iff`: an accepted payload is exact, if nothing is left
-/

namespace RzProxy

open ByteString Evaluation Evaluation.Flow JsonText

variable {env : Env} {fieldCount : UInt16} {rest tail : Bytes} {fs : List Field}

/-! ## Accepted fields -/

/-- The fields of a loop that goes on while seven bytes are left: none, without a look at what comes
after the head, or as many as announced, modulo `2 ^ 16`. -/
def Scanned (fieldCount : UInt16) (fs : List Field) (tail : Bytes) : Prop :=
  fieldCount = 0 ∧ fs = [] ∨
    fieldCount ≠ 0 ∧ tail.length < 7 ∧ Numbered 1 fs ∧ UInt16.ofNat fs.length = fieldCount

namespace Decoder

/-- The fields that a decoder accepts in a reply that announces `fieldCount` of them, and the bytes
that it leaves after them. -/
def Accepts (env : Env) (fieldCount : UInt16) (fs : List Field) (tail : Bytes) : Decoder → Prop
  | simple => fieldCount = 0 ∧ fs = []
  | scalarU8 _ | boolean _ => fieldCount = 1 ∧ ∃ data, fs = [⟨1, 0x02, data⟩] ∧ data.length = 1
  | searchProp => fieldCount ≠ 1 ∧ fs.length = fieldCount.toNat ∧ Numbered 1 fs ∧ Strings fs
  | searchAvail => Scanned fieldCount fs tail ∧
    (fieldCount ≠ 0 → (availOf env (env.rateFeatures.getD []) fs).isSome)
  | propRoomList | propRoomDateList => Scanned fieldCount fs tail ∧ Strings fs
  | getPropRoomDay => fieldCount = 5 ∧ tail = [] ∧ env.rateFeatures.isSome ∧
    ∃ id date availability price mask, fs = [⟨1, 0x01, id⟩, ⟨2, 0x01, date⟩,
      ⟨3, 0x02, availability⟩, ⟨4, 0x03, price⟩, ⟨5, 0x03, mask⟩] ∧
      availability.length = 1 ∧ price.length = 4 ∧ mask.length = 4
  | getSegments => Scanned fieldCount fs tail ∧ (segmentsOf fs).isSome

end Decoder

theorem isSome_simpleAnswer : (simpleAnswer fieldCount rest).isSome ↔
    ∃ fs tail, takeFields fs.length rest = some (fs, tail) ∧ fieldCount = 0 ∧ fs = [] := by
  rw [simpleAnswer]
  constructor
  · intro h
    split_ifs at h with h0
    · exact ⟨[], rest, rfl, h0, rfl⟩
    · cases h
  · rintro ⟨fs, tail, -, h0, -⟩
    rw [if_pos h0]
    rfl

theorem isSome_u8Answer (fieldName : String) (value : UInt8 → Json Text) :
    (u8Answer fieldName value fieldCount rest).isSome ↔
      ∃ fs tail, takeFields fs.length rest = some (fs, tail) ∧ fieldCount = 1 ∧
        ∃ data, fs = [⟨1, 0x02, data⟩] ∧ data.length = 1 := by
  rw [u8Answer]
  constructor
  · intro h
    split at h
    · cases h
    · rename_i f tail ht
      split_ifs at h with hf
      · obtain ⟨h1, hid, htype, hlen⟩ := hf
        obtain ⟨id, fieldType, data⟩ := f
        obtain rfl : id = 1 := hid
        obtain rfl : fieldType = 0x02 := htype
        refine ⟨[_], tail, takeFields_succ_eq_some_iff.mpr ⟨_, [], tail, rfl, ht, rfl⟩, h1, data,
          rfl, hlen⟩
      · cases h
  · rintro ⟨fs, tail, hfs, h1, data, rfl, hlen⟩
    obtain ⟨f, gs, mid, heq, ht, -⟩ := takeFields_succ_eq_some_iff.mp hfs
    cases heq
    simp [ht, h1, hlen]

theorem isSome_searchPropAnswer (h1 : fieldCount ≠ 1) :
    (searchPropAnswer fieldCount rest).isSome ↔
      ∃ fs tail, takeFields fs.length rest = some (fs, tail) ∧ fs.length = fieldCount.toNat ∧
        Numbered 1 fs ∧ Strings fs := by
  rw [searchPropAnswer, if_neg h1]
  constructor
  · intro h
    split_ifs at h with h0
    · exact ⟨[], rest, rfl, by rw [h0]; rfl, trivial, by simp [Strings]⟩
    · split at h
      · cases h
      · rename_i fs tail ht
        split_ifs at h with hf
        · have hlen := length_of_takeFields ht
          exact ⟨fs, tail, by rw [hlen]; exact ht, hlen, hf⟩
        · cases h
  · rintro ⟨fs, tail, ht, hlen, hf⟩
    rw [hlen] at ht
    split_ifs
    · rfl
    · simp [ht, hf]

/-- The fields of a loop, when any are announced. -/
theorem countedFields_eq_some_iff : countedFields fieldCount rest = some fs ↔
    ∃ tail, takeFields fs.length rest = some (fs, tail) ∧ tail.length < 7 ∧ Numbered 1 fs ∧
      UInt16.ofNat fs.length = fieldCount := by
  rw [countedFields]
  constructor
  · intro h
    split at h
    · cases h
    · rename_i gs hg
      split_ifs at h with hc
      cases h
      obtain ⟨tail, hl, ht⟩ := fieldsOf_eq_some_iff.mp hg
      exact ⟨tail, ht, hl, hc⟩
  · rintro ⟨tail, ht, hl, hc⟩
    rw [fieldsOf_eq_some_iff.mpr ⟨tail, hl, ht⟩]
    exact if_pos hc

/-- A decoder with a loop accepts the fields that it scans and understands. -/
theorem exists_scanned_iff {P : List Field → Prop} (h0 : fieldCount = 0 → P []) :
    (fieldCount = 0 ∨ ∃ fs, countedFields fieldCount rest = some fs ∧ P fs) ↔
      ∃ fs tail, takeFields fs.length rest = some (fs, tail) ∧
        Scanned fieldCount fs tail ∧ P fs := by
  constructor
  · rintro (hn | ⟨fs, hfs, hP⟩)
    · exact ⟨[], rest, rfl, .inl ⟨hn, rfl⟩, h0 hn⟩
    · obtain ⟨tail, ht, hc⟩ := countedFields_eq_some_iff.mp hfs
      by_cases hn : fieldCount = 0
      · exact ⟨[], rest, rfl, .inl ⟨hn, rfl⟩, h0 hn⟩
      · exact ⟨fs, tail, ht, .inr ⟨hn, hc⟩, hP⟩
  · rintro ⟨fs, tail, ht, ⟨hn, -⟩ | ⟨-, hc⟩, hP⟩
    · exact .inl hn
    · exact .inr ⟨fs, countedFields_eq_some_iff.mpr ⟨tail, ht, hc⟩, hP⟩

/-- A decoder with a loop that checks the fields together. -/
theorem isSome_scan {P : List Field → Prop} [DecidablePred P] {a : Answer}
    {f : List Field → Answer} :
    (if fieldCount = 0 then some a
      else match countedFields fieldCount rest with
        | none => none
        | some fs => if P fs then some (f fs) else none).isSome ↔
      fieldCount = 0 ∨ ∃ fs, countedFields fieldCount rest = some fs ∧ P fs := by
  split_ifs with h0
  · simp [h0]
  · cases countedFields fieldCount rest with
    | none => simp [h0]
    | some fs => simp [h0, apply_ite]

theorem isSome_getSegmentsAnswer : (getSegmentsAnswer fieldCount rest).isSome ↔
    fieldCount = 0 ∨ ∃ fs, countedFields fieldCount rest = some fs ∧ (segmentsOf fs).isSome := by
  rw [getSegmentsAnswer]
  split_ifs with h0
  · simp [h0]
  · cases countedFields fieldCount rest with
    | none => simp [h0]
    | some fs => cases hs : segmentsOf fs <;> simp [h0, hs]

theorem isSome_searchAvailAnswer (env : Env) : (searchAvailAnswer env fieldCount rest).isSome ↔
    fieldCount = 0 ∨ ∃ fs, countedFields fieldCount rest = some fs ∧
      (fieldCount ≠ 0 → (availOf env (env.rateFeatures.getD []) fs).isSome) := by
  rw [searchAvailAnswer]
  split_ifs with h0
  · simp [h0]
  · cases countedFields fieldCount rest with
    | none => simp [h0]
    | some fs => cases hs : availOf env (env.rateFeatures.getD []) fs <;> simp [h0, hs]

theorem isSome_withField {id : UInt16} {check : Field → Prop} [DecidablePred check] {bs : Bytes}
    {k : Field → Bytes → Option Answer} : (withField id check bs k).isSome ↔
      ∃ f tail, takeField bs = some (f, tail) ∧ f.id = id ∧ check f ∧ (k f tail).isSome := by
  rw [withField]
  cases takeField bs with
  | none => simp
  | some p =>
    obtain ⟨f, tail⟩ := p
    by_cases hf : f.id = id ∧ check f
    · simp [hf]
    · refine iff_of_false (by simp [hf]) ?_
      rintro ⟨f', tail', h, hid, hcheck, -⟩
      cases h
      exact hf ⟨hid, hcheck⟩

theorem isSome_getPropRoomDayAnswer (env : Env) :
    (getPropRoomDayAnswer env fieldCount rest).isSome ↔
      ∃ fs tail, takeFields fs.length rest = some (fs, tail) ∧
        Decoder.getPropRoomDay.Accepts env fieldCount fs tail := by
  rw [getPropRoomDayAnswer]
  constructor
  · intro h
    split_ifs at h with h5
    · simp only [isSome_withField] at h
      obtain ⟨⟨_, _, id⟩, _, t1, rfl, rfl, ⟨_, _, date⟩, _, t2, rfl, rfl,
        ⟨_, _, availability⟩, _, t3, rfl, ⟨rfl, ha⟩, ⟨_, _, price⟩, _, t4, rfl, ⟨rfl, hp⟩,
        ⟨_, _, mask⟩, tail, t5, rfl, ⟨rfl, hm⟩, hend⟩ := h
      split at hend
      · rename_i features hfeatures
        refine ⟨[⟨1, 0x01, id⟩, ⟨2, 0x01, date⟩, ⟨3, 0x02, availability⟩, ⟨4, 0x03, price⟩,
          ⟨5, 0x03, mask⟩], [], by simp [takeFields, t1, t2, t3, t4, t5], h5, rfl, ?_, ?_⟩
        · rw [hfeatures]
          rfl
        · exact ⟨id, date, availability, price, mask, rfl, ha, hp, hm⟩
      · cases hend
    · cases h
  · rintro ⟨fs, tail, ht, h5, rfl, hfeatures, id, date, availability, price, mask, rfl, ha, hp, hm⟩
    obtain ⟨features, hfeatures⟩ := Option.isSome_iff_exists.mp hfeatures
    obtain ⟨_, _, _, heq, t1, ht⟩ := takeFields_succ_eq_some_iff.mp ht
    cases heq
    obtain ⟨_, _, _, heq, t2, ht⟩ := takeFields_succ_eq_some_iff.mp ht
    cases heq
    obtain ⟨_, _, _, heq, t3, ht⟩ := takeFields_succ_eq_some_iff.mp ht
    cases heq
    obtain ⟨_, _, _, heq, t4, ht⟩ := takeFields_succ_eq_some_iff.mp ht
    cases heq
    obtain ⟨_, _, _, heq, t5, ht⟩ := takeFields_succ_eq_some_iff.mp ht
    cases heq
    cases ht
    rw [if_pos h5]
    simp only [isSome_withField]
    refine ⟨_, _, t1, rfl, rfl, _, _, t2, rfl, rfl, _, _, t3, rfl, ⟨rfl, ha⟩, _, _, t4, rfl,
      ⟨rfl, hp⟩, _, _, t5, rfl, ⟨rfl, hm⟩, ?_⟩
    rw [hfeatures]
    rfl

/-- Of a decoder whose answers are successes, the response is 200 if there is an answer. -/
theorem status_respond_iff {o : Option Answer} (h : Succeeds o) :
    (respond o).status = .ok ↔ o.isSome := by
  cases o with
  | none => exact iff_of_false (by decide) (by simp)
  | some a => exact iff_of_true (h a rfl) rfl

/-- A SEARCHPROP reply of one field is never answered by 200. -/
theorem status_searchPropAnswer_one : (respond (searchPropAnswer 1 rest)).status ≠ .ok := by
  rw [searchPropAnswer, if_neg (by decide), if_pos rfl]
  have hnone : (respond none).status ≠ .ok := show invalidResponse.status ≠ .ok by decide
  split
  · exact hnone
  · split_ifs
    · exact show StatusCode.badRequest ≠ .ok by decide
    · exact show StatusCode.badRequest ≠ .ok by decide
    · exact hnone

/-- **A decoder answers by 200 what it accepts.** -/
theorem status_success_iff (D : Decoder) : (respond (D.success env fieldCount rest)).status = .ok ↔
    ∃ fs tail, takeFields fs.length rest = some (fs, tail) ∧
      D.Accepts env fieldCount fs tail := by
  have hnil : Strings [] := by simp [Strings]
  by_cases hD : D = .searchProp
  · subst hD
    show (respond (searchPropAnswer fieldCount rest)).status = .ok ↔ _
    by_cases h1 : fieldCount = 1
    · subst h1
      refine iff_of_false status_searchPropAnswer_one ?_
      rintro ⟨_, _, _, hne, _⟩
      exact hne rfl
    · rw [status_respond_iff (succeeds_searchProp h1)]
      refine (isSome_searchPropAnswer h1).trans ?_
      simp [Decoder.Accepts, h1]
  rw [status_respond_iff (succeeds_success hD)]
  cases D with
  | simple => exact isSome_simpleAnswer
  | scalarU8 name => exact isSome_u8Answer name fun b => .nat b.toNat
  | boolean name => exact isSome_u8Answer name fun b => .bool (b = 1)
  | searchProp => exact absurd rfl hD
  | searchAvail =>
    exact (isSome_searchAvailAnswer env).trans (exists_scanned_iff fun h hne => absurd h hne)
  | propRoomList | propRoomDateList => exact isSome_scan.trans (exists_scanned_iff fun _ => hnil)
  | getPropRoomDay => exact isSome_getPropRoomDayAnswer env
  | getSegments => exact isSome_getSegmentsAnswer.trans (exists_scanned_iff fun _ => rfl)

/-- A payload is answered by 200 if it has the head of a success and the decoder accepts what comes
after it. -/
theorem status_answer_iff (D : Decoder) (payload : Bytes) :
    (respond (D.answer env payload)).status = .ok ↔ ∃ fieldCount rest fs tail,
      takeHead payload = some (utf8 "SUCCESS", fieldCount, rest) ∧
        takeFields fs.length rest = some (fs, tail) ∧ D.Accepts env fieldCount fs tail := by
  rw [Decoder.answer, answerOf]
  cases hhead : takeHead payload with
  | none =>
    refine iff_of_false (show invalidResponse.status ≠ .ok by decide) ?_
    rintro ⟨_, _, _, _, ⟨⟩, -⟩
  | some head =>
    obtain ⟨status, fieldCount, rest⟩ := head
    dsimp only
    by_cases hstatus : status = utf8 "SUCCESS"
    · subst hstatus
      rw [if_pos rfl, status_success_iff]
      constructor
      · rintro ⟨fs, tail, ht, haccepts⟩
        exact ⟨fieldCount, rest, fs, tail, rfl, ht, haccepts⟩
      · rintro ⟨_, _, fs, tail, hsame, ht, haccepts⟩
        cases hsame
        exact ⟨fs, tail, ht, haccepts⟩
    · rw [if_neg hstatus, respond_unsuccessful]
      refine iff_of_false (messageStatus_iff _).1 ?_
      rintro ⟨_, _, _, _, hsame, -⟩
      cases hsame
      exact hstatus rfl

/-! ## What is left -/

/-- A payload is the head of a success and as many fields as it announces, to the last byte. -/
def Exact (payload : Bytes) : Prop :=
  ∃ fieldCount rest fs, takeHead payload = some (utf8 "SUCCESS", fieldCount, rest) ∧
    takeFields fieldCount.toNat rest = some (fs, [])

/-- The decoder accepts some fields of a successful reply that are not those announced, or leaves
bytes after them. -/
def Leftover (env : Env) (D : Decoder) (payload : Bytes) : Prop :=
  ∃ fieldCount rest fs tail, takeHead payload = some (utf8 "SUCCESS", fieldCount, rest) ∧
    takeFields fs.length rest = some (fs, tail) ∧ D.Accepts env fieldCount fs tail ∧
    (fs.length ≠ fieldCount.toNat ∨ tail ≠ [])

theorem Scanned.le_length (h : Scanned fieldCount fs tail) : fieldCount.toNat ≤ fs.length := by
  rcases h with ⟨rfl, -⟩ | ⟨-, -, -, h⟩
  · exact Nat.zero_le _
  · rw [← h, UInt16.toNat_ofNat']
    exact Nat.mod_le _ _

/-- No decoder accepts fewer fields than announced. -/
theorem Decoder.Accepts.le_length {D : Decoder} (h : D.Accepts env fieldCount fs tail) :
    fieldCount.toNat ≤ fs.length := by
  cases D with
  | simple =>
    rw [h.1]
    exact Nat.zero_le _
  | scalarU8 name | boolean name =>
    obtain ⟨rfl, data, rfl, -⟩ := h
    exact le_rfl
  | searchProp => exact h.2.1.ge
  | searchAvail | propRoomList | propRoomDateList | getSegments => exact h.1.le_length
  | getPropRoomDay =>
    obtain ⟨rfl, -, -, id, date, availability, price, mask, rfl, -⟩ := h
    exact le_rfl

/-- What is accepted is exact, where nothing is left. -/
theorem Decoder.Accepts.exact_iff {D : Decoder} {payload : Bytes}
    (h : D.Accepts env fieldCount fs tail)
    (hhead : takeHead payload = some (utf8 "SUCCESS", fieldCount, rest))
    (ht : takeFields fs.length rest = some (fs, tail)) :
    Exact payload ↔ fs.length = fieldCount.toNat ∧ tail = [] := by
  rw [← takeFields_exact_iff ht h.le_length]
  constructor
  · rintro ⟨_, _, gs, hsame, hgs⟩
    rw [hhead] at hsame
    cases hsame
    exact ⟨gs, hgs⟩
  · rintro ⟨gs, hgs⟩
    exact ⟨fieldCount, rest, gs, hhead, hgs⟩

/-- **An accepted response has no unread bytes** exactly if nothing is left after what the decoder
accepts. -/
theorem exact_iff_not_leftover (env : Env) (metrics : Metrics) (D : Decoder) (payload : Bytes) :
    ∃ rsp metrics', D.decode env metrics payload = .ok (rsp, metrics') ∧
      ((rsp.status = .ok → Exact payload) ↔ ¬ Leftover env D payload) := by
  obtain ⟨metrics', hdecode, -⟩ := answers_decode env metrics D payload
  refine ⟨_, metrics', hdecode, ?_⟩
  rw [status_answer_iff]
  constructor
  · rintro h ⟨fieldCount, rest, fs, tail, hhead, ht, haccepts, hleft⟩
    have hexact := h ⟨fieldCount, rest, fs, tail, hhead, ht, haccepts⟩
    obtain ⟨hlen, htail⟩ := (haccepts.exact_iff hhead ht).mp hexact
    rcases hleft with hne | hne
    · exact hne hlen
    · exact hne htail
  · rintro h ⟨fieldCount, rest, fs, tail, hhead, ht, haccepts⟩
    by_contra hexact
    rw [haccepts.exact_iff hhead ht, not_and_or] at hexact
    exact h ⟨fieldCount, rest, fs, tail, hhead, ht, haccepts, hexact⟩

/-- **A byte after the last field** of a list is not read. -/
theorem not_forall_exact :
    ¬ ∀ (env : Env) (metrics : Metrics) (D : Decoder) (payload : Bytes) (rsp : Response)
        (metrics' : Metrics), D.decode env metrics payload = .ok (rsp, metrics') →
      rsp.status = .ok → Exact payload := by
  intro h
  obtain ⟨rsp, metrics', hdecode, hiff⟩ := exact_iff_not_leftover (.documented []) ⟨0, 0⟩
    .propRoomList (headBytes (utf8 "SUCCESS") 1 ++ ((Field.mk 1 0x01 (utf8 "suite")).bytes ++ [0]))
  refine hiff.mp (h _ _ _ _ _ _ hdecode) ⟨1, (Field.mk 1 0x01 (utf8 "suite")).bytes ++ [0],
    [⟨1, 0x01, utf8 "suite"⟩], [0], takeHead_headBytes (by decide) 1 _, by decide, ?_, .inr nofun⟩
  exact ⟨.inr (by decide), by decide⟩

end RzProxy
