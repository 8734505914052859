import RzProxy.Processor.Texts

/-!
# Property ids

The backend sends a property id in sixteen bytes: a short text around a marker, padded with zeros,
or a UUID, whose version is in the byte of the marker. The text is taken from the two parts that it
was split into, and the UUID is written with hyphens, so that no two ids are rendered alike.

## Main definitions

* `shortForm`: the sixteen bytes of a short text
* `CanonicalId`: a short text without zeros, or a UUID of a known version
* `CanonicalId.bytes`, `CanonicalId.text`: its sixteen bytes, and its text

## Main results

* `hyphenated_injective`: the text of a UUID gives its bytes
* `propertyIds_rendered`: a canonical id is written as its text, and as no other id
-/

namespace RzProxy

open ByteString Evaluation Evaluation.Flow JsonText

/-! ## Short texts -/

/-- The bytes with zeros after them, up to the width. -/
def zeroPadded (width : ℕ) (bs : Bytes) : Bytes := bs ++ List.replicate (width - bs.length) 0

/-- A text of at most fifteen bytes as a property id: six bytes, the marker, and nine bytes. -/
def shortForm (s : Bytes) : Bytes := zeroPadded 6 (s.take 6) ++ 0xF0 :: zeroPadded 9 (s.drop 6)

theorem length_zeroPadded {width : ℕ} {bs : Bytes} (h : bs.length ≤ width) :
    (zeroPadded width bs).length = width := by
  rw [zeroPadded, List.length_append, List.length_replicate]
  omega

theorem length_take_six (s : Bytes) : (zeroPadded 6 (s.take 6)).length = 6 := by
  refine length_zeroPadded ?_
  rw [List.length_take]
  omega

theorem length_shortForm {s : Bytes} (h : s.length ≤ 15) : (shortForm s).length = 16 := by
  have hright : (zeroPadded 9 (s.drop 6)).length = 9 := by
    refine length_zeroPadded ?_
    rw [List.length_drop]
    omega
  rw [shortForm, List.length_append, List.length_cons, length_take_six, hright]

/-- A text without zeros ends where its padding begins. -/
theorem untilNul_zeroPadded {bs : Bytes} (h : 0 ∉ bs) (width : ℕ) :
    untilNul (zeroPadded width bs) = bs := by
  have hall : ∀ b ∈ bs, decide (b ≠ 0) = true := fun b hb => decide_eq_true fun h0 => h (h0 ▸ hb)
  rw [untilNul, zeroPadded, List.takeWhile_append_of_pos hall]
  cases width - bs.length with
  | zero => simp
  | succ n => simp [List.replicate_succ]

/-- The id of a short text is the text. -/
theorem propertyId_shortForm {s : Bytes} (hnul : 0 ∉ s) (hlen : s.length ≤ 15) :
    propertyId (shortForm s) = s := by
  have hsix := length_take_six s
  have hmarker : (shortForm s).getD 6 0 = 0xF0 := by
    rw [shortForm, List.getD_eq_getElem?_getD, List.getElem?_append_right hsix.le, hsix]
    rfl
  have hleft : (shortForm s).take 6 = zeroPadded 6 (s.take 6) := List.take_left' hsix
  have hright : (shortForm s).drop 7 = zeroPadded 9 (s.drop 6) := by
    rw [shortForm, List.drop_append, hsix, List.drop_of_length_le (by omega)]
    rfl
  have hshort : ¬ (shortForm s).length < 7 := by
    rw [length_shortForm hlen]
    decide
  rw [propertyId, if_neg hshort, if_pos hmarker, hleft, hright,
    untilNul_zeroPadded fun h => hnul (List.mem_of_mem_take h),
    untilNul_zeroPadded fun h => hnul (List.mem_of_mem_drop h), List.take_append_drop]

/-! ## UUIDs -/

/-- A hexadecimal digit. -/
def hexDigit (i : ℕ) : UInt8 := (utf8 "0123456789abcdef").getD i 0

/-- The two hexadecimal digits of a byte. -/
def hexDigits (b : UInt8) : Bytes := [hexDigit (b >>> 4).toNat, hexDigit (b &&& 0x0F).toNat]

theorem toNat_shiftRight_four (b : UInt8) : (b >>> 4).toNat = b.toNat / 16 := by
  simp [UInt8.toNat_shiftRight, Nat.shiftRight_eq_div_pow]

theorem toNat_and_fifteen (b : UInt8) : (b &&& 0x0F).toNat = b.toNat % 16 := by
  rw [UInt8.toNat_and]
  exact Nat.and_two_pow_sub_one_eq_mod b.toNat 4

/-- Different digits are written differently. -/
theorem hexDigit_injOn : ∀ i < 16, ∀ j < 16, hexDigit i = hexDigit j → i = j := by decide

/-- No digit is a hyphen. -/
theorem hexDigit_ne_hyphen (i : ℕ) : hexDigit i ≠ 0x2D := by
  have hall : (utf8 "0123456789abcdef").all (· ≠ 0x2D) = true := by decide
  rw [hexDigit, List.getD_eq_getElem?_getD]
  by_cases hi : i < (utf8 "0123456789abcdef").length
  · rw [List.getElem?_eq_getElem hi, Option.getD_some]
    exact of_decide_eq_true (List.all_eq_true.mp hall _ (List.getElem_mem hi))
  · rw [List.getElem?_eq_none (by omega), Option.getD_none]
    decide

theorem hexDigits_injective : Function.Injective hexDigits := by
  intro b c h
  obtain ⟨hhi, hlo⟩ := List.cons.inj h
  have hb := b.toNat_lt
  have hc := c.toNat_lt
  have hhi := hexDigit_injOn _ (by rw [toNat_shiftRight_four]; omega) _
    (by rw [toNat_shiftRight_four]; omega) hhi
  have hlo := hexDigit_injOn _ (by rw [toNat_and_fifteen]; omega) _
    (by rw [toNat_and_fifteen]; omega) (List.cons.inj hlo).1
  rw [toNat_shiftRight_four, toNat_shiftRight_four] at hhi
  rw [toNat_and_fifteen, toNat_and_fifteen] at hlo
  rw [← UInt8.toNat_inj]
  omega

/-- Bytes are read off their hexadecimal digits. -/
theorem flatMap_hexDigits_injective : Function.Injective (List.flatMap hexDigits) := by
  intro bs cs h
  induction bs generalizing cs with
  | nil =>
    cases cs with
    | nil => rfl
    | cons c cs => cases h
  | cons b bs ih =>
    cases cs with
    | nil => cases h
    | cons c cs =>
      rw [List.flatMap_cons, List.flatMap_cons] at h
      obtain ⟨hdigits, hrest⟩ := List.append_inj h rfl
      rw [hexDigits_injective hdigits, ih hrest]

theorem filter_flatMap_hexDigits (bs : Bytes) :
    (bs.flatMap hexDigits).filter (· ≠ 0x2D) = bs.flatMap hexDigits := by
  refine List.filter_eq_self.mpr fun d hd => decide_eq_true ?_
  obtain ⟨b, -, hd⟩ := List.mem_flatMap.mp hd
  rw [hexDigits, List.mem_cons, List.mem_singleton] at hd
  rcases hd with rfl | rfl
  · exact hexDigit_ne_hyphen _
  · exact hexDigit_ne_hyphen _

/-- Without its hyphens the text of a UUID is the digits of its bytes. -/
theorem filter_hyphenated {bs : Bytes} (h : bs.length = 16) :
    (hyphenated bs).filter (· ≠ 0x2D) = bs.flatMap hexDigits := by
  have hgroups : hyphenated bs = ((bs.drop 0).take 4).flatMap hexDigits ++ 0x2D ::
      (((bs.drop 4).take 2).flatMap hexDigits ++ 0x2D ::
        (((bs.drop 6).take 2).flatMap hexDigits ++ 0x2D ::
          (((bs.drop 8).take 2).flatMap hexDigits ++ 0x2D ::
            ((bs.drop 10).take 6).flatMap hexDigits))) := rfl
  have hhyphen : ∀ ds : Bytes, (0x2D :: ds).filter (· ≠ 0x2D) = ds.filter (· ≠ 0x2D) :=
    fun ds => List.filter_cons_of_neg (by decide)
  rw [hgroups]
  simp only [List.filter_append, hhyphen, filter_flatMap_hexDigits]
  match bs, h with
  | [b0, b1, b2, b3, b4, b5, b6, b7, b8, b9, b10, b11, b12, b13, b14, b15], _ => rfl

/-- **The text of a UUID gives its bytes.** -/
theorem hyphenated_injective {bs cs : Bytes} (hb : bs.length = 16) (hc : cs.length = 16)
    (h : hyphenated bs = hyphenated cs) : bs = cs := by
  apply flatMap_hexDigits_injective
  rw [← filter_hyphenated hb, ← filter_hyphenated hc, h]

theorem length_hyphenated {bs : Bytes} (h : bs.length = 16) : (hyphenated bs).length = 36 := by
  match bs, h with
  | [b0, b1, b2, b3, b4, b5, b6, b7, b8, b9, b10, b11, b12, b13, b14, b15], _ => rfl

/-- The high half of byte 6 is a version that UUIDs have. -/
def HasVersion (id : Bytes) : Prop := (id.getD 6 0).toNat / 16 ∈ [1, 2, 3, 4, 5, 7]

theorem uuidVersion_iff (b : UInt8) :
    uuidVersion b = true ↔ b.toNat / 16 ∈ [1, 2, 3, 4, 5, 7] := by
  have hhalf : ((b &&& 0xF0) >>> 4).toNat = b.toNat / 16 := by
    have hlt := b.toNat_lt
    rw [UInt8.shiftRight_and, show (0xF0 : UInt8) >>> 4 = 0x0F from rfl, UInt8.toNat_and,
      toNat_shiftRight_four]
    exact (Nat.and_two_pow_sub_one_eq_mod _ 4).trans (Nat.mod_eq_of_lt (by omega))
  rw [uuidVersion, decide_eq_true_iff, ← hhalf]
  exact (List.mem_map_of_injective fun _ _ => UInt8.toNat_inj.mp).symm

/-- The id of a UUID is its text. -/
theorem propertyId_uuid {id : Bytes} (hlen : id.length = 16) (hversion : HasVersion id) :
    propertyId id = hyphenated id := by
  have hmarker : id.getD 6 0 ≠ 0xF0 := by
    intro h
    rw [HasVersion, h] at hversion
    revert hversion
    decide
  have hbytes : uuidBytes id = id := by
    rw [uuidBytes, hlen, ← hlen]
    simp
  rw [propertyId, if_neg (by omega), if_neg hmarker, if_pos ((uuidVersion_iff _).mpr hversion),
    hbytes]

/-! ## Canonical ids -/

/-- The ids that the backend sends. -/
inductive CanonicalId
  | short (s : Bytes) (nul : 0 ∉ s) (length : s.length ≤ 15)
  | uuid (bs : Bytes) (length : bs.length = 16) (version : HasVersion bs)

namespace CanonicalId

/-- The id as it is sent. -/
def bytes : CanonicalId → Bytes
  | short s _ _ => shortForm s
  | uuid bs _ _ => bs

/-- The text that the id stands for. -/
def text : CanonicalId → Bytes
  | short s _ _ => s
  | uuid bs _ _ => hyphenated bs

theorem length_bytes (id : CanonicalId) : id.bytes.length = 16 := by
  cases id with
  | short s nul length => exact length_shortForm length
  | uuid bs length version => exact length

theorem propertyId_bytes (id : CanonicalId) : propertyId id.bytes = id.text := by
  cases id with
  | short s nul length => exact propertyId_shortForm nul length
  | uuid bs length version => exact propertyId_uuid length version

/-- **The text of a canonical id gives its bytes.** -/
theorem bytes_eq_of_text_eq {a b : CanonicalId} (h : a.text = b.text) : a.bytes = b.bytes := by
  cases a with
  | short s nul length =>
    cases b with
    | short t nul' length' => exact congrArg shortForm h
    | uuid bs length' version' =>
      have hlen := length_hyphenated length'
      rw [← show s = hyphenated bs from h] at hlen
      omega
  | uuid bs length version =>
    cases b with
    | short t nul' length' =>
      have hlen := length_hyphenated length
      rw [show hyphenated bs = t from h] at hlen
      omega
    | uuid cs length' version' => exact hyphenated_injective length length' h

end CanonicalId

/-- **A canonical id is written as its text in quotes, after what was written before, and no two
ids are written alike.** -/
theorem propertyIds_rendered (json : Bytes) :
    (∀ id : CanonicalId,
      writeQuotedPropertyId json id.bytes = .ok (.ok (json ++ quoted id.text))) ∧
    (∀ bs length version, (CanonicalId.uuid bs length version).text.length = 36) ∧
    ∀ a b : CanonicalId, a.bytes ≠ b.bytes →
      writeQuotedPropertyId json a.bytes ≠ writeQuotedPropertyId json b.bytes := by
  have hwritten : ∀ id : CanonicalId,
      writeQuotedPropertyId json id.bytes = .ok (.ok (json ++ quoted id.text)) := by
    intro id
    rw [writeQuotedPropertyId_eq, id.propertyId_bytes]
  refine ⟨hwritten, fun bs length version => length_hyphenated length, ?_⟩
  intro a b hne h
  rw [hwritten a, hwritten b] at h
  have hquoted : quoted a.text = quoted b.text :=
    List.append_cancel_left (Except.ok.inj (Except.ok.inj h))
  have htext : a.text = b.text := List.append_cancel_right (List.cons.inj hquoted).2
  exact hne (CanonicalId.bytes_eq_of_text_eq htext)

/-- A short id and a UUID of version 4. -/
theorem propertyIds_rendered_hotel :
    writeQuotedPropertyId (utf8 "[") (shortForm (utf8 "hotel-1")) =
      .ok (.ok (utf8 "[\"hotel-1\"")) ∧
    writeQuotedPropertyId (utf8 "[") (shortForm (utf8 "hotel-1")) ≠
      writeQuotedPropertyId (utf8 "[") (List.replicate 16 0x41) :=
  let hotel : CanonicalId := .short (utf8 "hotel-1") (by decide) (by decide)
  let uuid : CanonicalId := .uuid (List.replicate 16 0x41) rfl (by simp [HasVersion])
  ⟨(propertyIds_rendered (utf8 "[")).1 hotel,
    (propertyIds_rendered (utf8 "[")).2.2 hotel uuid (by decide)⟩

end RzProxy
