import RzProxy.Processor.EncodedDays

/-!
# Packed dates

A date is packed in sixteen bits: three for the years from the year of the clock on, four for the
month and five for the day, the latter two less one. Both helpers for dates decode the dates of the
Gregorian calendar to the same text, and refuse the other ones; the writer leaves the buffer as it
is then.

## Main definitions

* `CivilDate`: a date of the Gregorian calendar
* `pack`, `unpack`: its sixteen bits, and the date that they are of
* `Crates.FormatsYmd`: the texts of `chrono`

## Main results

* `unpack_pack`: the dates of eight years keep their value
* `packedDates_decoded`: both helpers decode these dates, and no others
-/

namespace RzProxy

open ByteString Evaluation Evaluation.Flow JsonText

/-! ## Digits -/

theorem length_lastDigits (w n : ℕ) : (lastDigits w n).length = w := by
  induction w generalizing n with
  | zero => rfl
  | succ w ih => rw [lastDigits, List.length_append, ih, List.length_singleton]

theorem lastDigits_lt {w n : ℕ} {b : UInt8} (hb : b ∈ lastDigits w n) : b < 0x80 := by
  induction w generalizing n with
  | zero => cases hb
  | succ w ih =>
    rcases List.mem_append.mp hb with hb | hb
    · exact ih hb
    · obtain rfl := List.mem_singleton.mp hb
      have hn : n % 10 < 10 := Nat.mod_lt n (by decide)
      rw [UInt8.lt_iff_toNat_lt, toNat_digit hn]
      show 0x30 + n % 10 < 0x80
      omega

/-! ## Dates of the calendar -/

/-- A date of the Gregorian calendar. -/
structure CivilDate where
  year : ℤ
  month : ℕ
  day : ℕ
  month_pos : 1 ≤ month
  month_le : month ≤ 12
  day_pos : 1 ≤ day
  day_le : day ≤ daysInMonth year month

/-- The date as `YYYY-MM-DD`. -/
def CivilDate.text (date : CivilDate) : Bytes :=
  lastDigits 4 date.year.toNat ++
    0x2D :: (lastDigits 2 date.month ++ 0x2D :: lastDigits 2 date.day)

theorem CivilDate.length_text (date : CivilDate) : date.text.length = 10 := by
  simp only [text, List.length_append, List.length_cons, length_lastDigits]

/-- The texts of `chrono`, as they are documented: `%Y-%m-%d` is filled up with zeros. -/
def Crates.FormatsYmd (crates : Crates) : Prop :=
  ∀ (y : ℤ) (m d : ℕ) (date : NaiveDate), 0 ≤ y → y ≤ 9999 →
    crates.fromYmdOpt y m d = some date → utf8 (crates.formatYmd date) =
      lastDigits 4 y.toNat ++ 0x2D :: (lastDigits 2 m ++ 0x2D :: lastDigits 2 d)

theorem formatsYmd_documented : Crates.documented.FormatsYmd := by
  intro y m d date _ _ h
  obtain ⟨-, h⟩ := Option.ite_none_right_eq_some.mp h
  obtain rfl := Option.some.inj h
  show utf8 (fromUtf8Lossy _) = _
  rw [utf8_fromUtf8Lossy]
  refine lossy_of_valid (validUtf8_of_ascii fun b hb => ?_)
  have hdash : (0x2D : UInt8) < 0x80 := by decide
  simp only [List.mem_append, List.mem_cons] at hb
  rcases hb with hb | rfl | hb | rfl | hb
  · exact lastDigits_lt hb
  · exact hdash
  · exact lastDigits_lt hb
  · exact hdash
  · exact lastDigits_lt hb

/-! ## Sixteen bits -/

variable (env : Env) (packed : UInt16)

/-- The year of a packed date: that of the clock, and up to seven more. -/
def packedYear : ℤ := env.currentYear + (packed.toNat / 2 ^ 9 % 2 ^ 3 : ℕ)

/-- The month of a packed date, from 1 to 16. -/
def packedMonth : ℕ := packed.toNat / 2 ^ 5 % 2 ^ 4 + 1

/-- The day of a packed date, from 1 to 32. -/
def packedDay : ℕ := packed.toNat % 2 ^ 5 + 1

/-- The date that sixteen bits are of, if there is such a day. -/
def unpack : Option CivilDate :=
  if h : packedMonth packed ≤ 12 ∧
      packedDay packed ≤ daysInMonth (packedYear env packed) (packedMonth packed) then
    some ⟨packedYear env packed, packedMonth packed, packedDay packed, Nat.le_add_left 1 _, h.1,
      Nat.le_add_left 1 _, h.2⟩
  else none

/-- The sixteen bits of a date. -/
def pack (date : CivilDate) : UInt16 :=
  UInt16.ofNat (date.year - env.currentYear).toNat <<< 9 ||| UInt16.ofNat (date.month - 1) <<< 5 |||
    UInt16.ofNat (date.day - 1)

/-- The fields of a date that is packed in given bits. -/
theorem unpack_eq_some_iff {date : CivilDate} : unpack env packed = some date ↔
    date.year = packedYear env packed ∧ date.month = packedMonth packed ∧
      date.day = packedDay packed := by
  constructor
  · intro h
    rw [unpack] at h
    split_ifs at h
    obtain rfl := Option.some.inj h
    exact ⟨rfl, rfl, rfl⟩
  · obtain ⟨year, month, day, -, hmonth, -, hday⟩ := date
    rintro ⟨rfl, rfl, rfl⟩
    rw [unpack, dif_pos ⟨hmonth, hday⟩]

/-- There is such a day if the month has so many. -/
theorem isSome_unpack : (unpack env packed).isSome ↔ packedMonth packed ≤ 12 ∧
    packedDay packed ≤ daysInMonth (packedYear env packed) (packedMonth packed) := by
  rw [unpack]
  split_ifs with h
  · exact iff_of_true rfl h
  · exact iff_of_false nofun h

/-- The `n` bits from bit `k` on. -/
theorem toNat_bits {shift mask : UInt16} {k n : ℕ} (hk : shift.toNat % 16 = k)
    (hmask : mask.toNat = 2 ^ n - 1) :
    ((packed >>> shift) &&& mask).toNat = packed.toNat / 2 ^ k % 2 ^ n := by
  rw [UInt16.toNat_and, UInt16.toNat_shiftRight, hk, hmask, Nat.shiftRight_eq_div_pow,
    Nat.and_two_pow_sub_one_eq_mod]

/-- Three numbers in sixteen bits. -/
theorem toNat_fields {offset month day : ℕ} (ho : offset < 2 ^ 3) (hm : month < 2 ^ 4)
    (hd : day < 2 ^ 5) :
    (UInt16.ofNat offset <<< 9 ||| UInt16.ofNat month <<< 5 ||| UInt16.ofNat day).toNat =
      offset * 2 ^ 9 + (month * 2 ^ 5 + day) := by
  have hofNat {n : ℕ} (hn : n < 2 ^ 16) : (UInt16.ofNat n).toNat = n := by
    rw [UInt16.toNat_ofNat']
    exact Nat.mod_eq_of_lt hn
  have hmonth : month <<< 5 ||| day = month * 2 ^ 5 + day := by
    rw [← Nat.shiftLeft_add_eq_or_of_lt hd, Nat.shiftLeft_eq]
  have hoffset : offset <<< 9 ||| (month * 2 ^ 5 + day) =
      offset * 2 ^ 9 + (month * 2 ^ 5 + day) := by
    rw [← Nat.shiftLeft_add_eq_or_of_lt (show month * 2 ^ 5 + day < 2 ^ 9 by omega),
      Nat.shiftLeft_eq]
  have h9 : offset <<< 9 < 2 ^ 16 := by
    rw [Nat.shiftLeft_eq]
    omega
  have h5 : month <<< 5 < 2 ^ 16 := by
    rw [Nat.shiftLeft_eq]
    omega
  rw [UInt16.toNat_or, UInt16.toNat_or, UInt16.toNat_shiftLeft, UInt16.toNat_shiftLeft,
    hofNat (show offset < 2 ^ 16 by omega), hofNat (show month < 2 ^ 16 by omega),
    hofNat (show day < 2 ^ 16 by omega)]
  show (offset <<< 9 % 2 ^ 16 ||| month <<< 5 % 2 ^ 16) ||| day = _
  rw [Nat.mod_eq_of_lt h9, Nat.mod_eq_of_lt h5, Nat.or_assoc, hmonth, hoffset]

variable {env}

/-- **The dates of eight years keep their value** when they are packed. -/
theorem unpack_pack {date : CivilDate} (h0 : env.currentYear ≤ date.year)
    (h7 : date.year ≤ env.currentYear + 7) : unpack env (pack env date) = some date := by
  have hmonth := date.month_le
  have hday := date.day_le.trans (daysInMonth_le date.year date.month)
  have hm0 := date.month_pos
  have hd0 := date.day_pos
  have hpack : (pack env date).toNat = (date.year - env.currentYear).toNat * 2 ^ 9 +
      ((date.month - 1) * 2 ^ 5 + (date.day - 1)) :=
    toNat_fields (by omega) (by omega) (by omega)
  rw [unpack_eq_some_iff, packedYear, packedMonth, packedDay, hpack]
  refine ⟨?_, ?_, ?_⟩
  all_goals omega

/-! ## The decoders -/

theorem toNat_offset : ((packed >>> 9) &&& 0b111).toNat = packed.toNat / 2 ^ 9 % 2 ^ 3 :=
  toNat_bits packed rfl rfl

theorem toNat_month : ((packed >>> 5) &&& 0b1111).toNat = packed.toNat / 2 ^ 5 % 2 ^ 4 :=
  toNat_bits packed rfl rfl

theorem toNat_day : (packed &&& 0b11111).toNat = packed.toNat % 2 ^ 5 := by
  rw [UInt16.toNat_and]
  exact Nat.and_two_pow_sub_one_eq_mod packed.toNat 5

/-- The year of a packed date has four digits. -/
theorem packedYear_bounds (env : Env) :
    0 ≤ packedYear env packed ∧ packedYear env packed ≤ 9999 := by
  have h0 := env.currentYear_nonneg
  have hy := env.currentYear_le
  rw [packedYear]
  omega

/-- The calendar has the date if there is one. -/
theorem isSome_fromYmdOpt (h : env.crates.Gregorian) :
    (env.crates.fromYmdOpt (packedYear env packed) (packedMonth packed)
      (packedDay packed)).isSome = (unpack env packed).isSome := by
  have hbounds := packedYear_bounds packed env
  have hmonth : 1 ≤ packedMonth packed := Nat.le_add_left 1 _
  have hday : 1 ≤ packedDay packed := Nat.le_add_left 1 _
  rw [Bool.eq_iff_iff, h _ _ _ hbounds.1 hbounds.2, isSome_unpack]
  omega

/-- The text that is written is that of the date. -/
theorem dateText_eq_unpack (h : env.crates.Gregorian) :
    dateText env packed = (unpack env packed).map CivilDate.text := by
  let r : DayRecord := ⟨packed, 0, 0, 0⟩
  have hyear : r.year env = packedYear env packed := by
    rw [DayRecord.year, toNat_offset, packedYear]
  have hmonth : r.month = packedMonth packed := congrArg (· + 1) (toNat_month packed)
  have hday : r.day = packedDay packed := congrArg (· + 1) (toNat_day packed)
  have hvalid : r.Valid env ↔ packedMonth packed ≤ 12 ∧
      packedDay packed ≤ daysInMonth (packedYear env packed) (packedMonth packed) := by
    rw [DayRecord.Valid, hyear, hmonth, hday]
  have htext := r.dateText_eq h
  rw [DayRecord.date, hyear, hmonth, hday] at htext
  rw [show dateText env packed = _ from htext, unpack]
  by_cases hr : r.Valid env
  · rw [if_pos hr, dif_pos (hvalid.mp hr)]
    rfl
  · rw [if_neg hr, dif_neg (mt hvalid.mpr hr)]
    rfl

theorem addU8_one {ρ : Type} {n : UInt16} (h : n.toNat < 255) :
    (addU8 n.toUInt8 1 : Flow ρ UInt8) = next (UInt8.ofNat (n.toNat + 1)) := by
  have hn : n.toUInt8.toNat = n.toNat := by
    rw [UInt16.toNat_toUInt8]
    omega
  have hone : (1 : UInt8).toNat = 1 := rfl
  have hsum : n.toUInt8 + 1 = UInt8.ofNat (n.toNat + 1) := by
    rw [← UInt8.toNat_inj, UInt8.toNat_add, hn, hone, UInt8.toNat_ofNat']
  rw [addU8, if_pos (by rw [hn, hone]; omega), hsum]

/-- The date as a string: that of the calendar, if it has it. -/
theorem u16ToDate_eq (env : Env) : u16ToDate env packed =
    match env.crates.fromYmdOpt (packedYear env packed) (packedMonth packed)
      (packedDay packed) with
    | none => .ok (.error (.validation "invalid packed date"))
    | some date => .ok (.ok (env.crates.formatYmd date)) := by
  have hbounds := packedYear_bounds packed env
  have hmonth : ((packed >>> 5) &&& 0b1111).toNat + 1 = packedMonth packed :=
    congrArg (· + 1) (toNat_month packed)
  have hday : (packed &&& 0b11111).toNat + 1 = packedDay packed :=
    congrArg (· + 1) (toNat_day packed)
  have hm : packedMonth packed ≤ 16 := Nat.mod_lt _ (by decide)
  have hd : packedDay packed ≤ 32 := Nat.mod_lt _ (by decide)
  have hyear {ρ : Type} : (addI32 env.currentYear ((packed >>> 9) &&& 0b111).toNat : Flow ρ ℤ) =
      next (packedYear env packed) := by
    rw [packedYear] at hbounds
    rw [toNat_offset, packedYear, addI32, if_pos ⟨by omega, by omega⟩]
  have htoNat {n : ℕ} (hn : n ≤ 32) : (UInt8.ofNat n).toNat = n := by
    rw [UInt8.toNat_ofNat']
    omega
  unfold u16ToDate
  simp only [addU8_one (show ((packed >>> 5) &&& 0b1111).toNat < 255 by omega),
    addU8_one (show (packed &&& 0b11111).toNat < 255 by omega), next_bind, hmonth, hday, hyear,
    htoNat (show packedMonth packed ≤ 32 by omega), htoNat hd]
  cases hymd : env.crates.fromYmdOpt (packedYear env packed) (packedMonth packed)
      (packedDay packed) with
  | none => rfl
  | some date =>
    have hsame := env.crates.fromYmdOpt_eq hymd
    have hbad : ¬ (date.month ≠ packedMonth packed ∨ date.day ≠ packedDay packed) := by omega
    simp only [returnIf_of_neg hbad, next_bind]
    rfl

/-! ## Both helpers -/

/-- Both helpers decode the bits to the date: the string of the one is what the other adds. -/
def DecodesTo (env : Env) (packed : UInt16) (date : CivilDate) : Prop :=
  ∃ s, u16ToDate env packed = .ok (.ok s) ∧ utf8 s = date.text ∧
    ∀ json, writePackedDateBuf env json packed = .ok (.ok (), json ++ utf8 s)

/-- Both helpers refuse the bits, and the buffer is left as it was. -/
def RefusesDate (env : Env) (packed : UInt16) : Prop :=
  (∃ e, u16ToDate env packed = .ok (.error e)) ∧
    ∀ json, ∃ e, writePackedDateBuf env json packed = .ok (.error e, json)

theorem decodesTo_of_unpack (hcalendar : env.crates.Gregorian) (hformat : env.crates.FormatsYmd)
    {packed : UInt16} {date : CivilDate} (h : unpack env packed = some date) :
    DecodesTo env packed date := by
  have hbounds := packedYear_bounds packed env
  have hsome := isSome_fromYmdOpt packed hcalendar
  rw [h, Option.isSome_some] at hsome
  obtain ⟨naive, hnaive⟩ := Option.isSome_iff_exists.mp hsome
  obtain ⟨hyear, hmonth, hday⟩ := (unpack_eq_some_iff env packed).mp h
  have htext : utf8 (env.crates.formatYmd naive) = date.text := by
    rw [hformat _ _ _ naive hbounds.1 hbounds.2 hnaive, CivilDate.text, hyear, hmonth, hday]
  refine ⟨env.crates.formatYmd naive, ?_, htext, fun json => ?_⟩
  · rw [u16ToDate_eq, hnaive]
  · have hdate := dateText_eq_unpack packed hcalendar
    rw [h, Option.map_some] at hdate
    rcases writePackedDateBuf_eq env json packed with ⟨hnone, -⟩ | ⟨written, hwritten, hbuf⟩
    · rw [hnone] at hdate
      cases hdate
    · rw [hbuf, htext, Option.some.inj (hwritten.symm.trans hdate)]

theorem refusesDate_of_unpack (hcalendar : env.crates.Gregorian) {packed : UInt16}
    (h : unpack env packed = none) : RefusesDate env packed := by
  have hnone := isSome_fromYmdOpt packed hcalendar
  rw [h, Option.isSome_none, Option.isSome_eq_false_iff, Option.isNone_iff_eq_none] at hnone
  refine ⟨⟨.validation "invalid packed date", ?_⟩, fun json => ?_⟩
  · rw [u16ToDate_eq, hnone]
  · have hdate := dateText_eq_unpack packed hcalendar
    rw [h, Option.map_none] at hdate
    rcases writePackedDateBuf_eq env json packed with ⟨-, e, hbuf⟩ | ⟨written, hwritten, -⟩
    · exact ⟨e, hbuf⟩
    · rw [hdate] at hwritten
      cases hwritten

/-- **Packed dates are decoded to the dates that they are of.** The writer succeeds exactly on the
dates of the calendar and adds the ten bytes that the other helper returns; it adds nothing where
both refuse; and every date from the year of the clock to seven years later is packed so that it is
decoded. -/
theorem packedDates_decoded (hcalendar : env.crates.Gregorian)
    (hformat : env.crates.FormatsYmd) :
    (∀ (packed : UInt16) (json : Bytes),
      (∃ json', writePackedDateBuf env json packed = .ok (.ok (), json')) ↔
        packedMonth packed ≤ 12 ∧
          packedDay packed ≤ daysInMonth (packedYear env packed) (packedMonth packed)) ∧
    (∀ packed date, unpack env packed = some date →
      DecodesTo env packed date ∧ date.text.length = 10) ∧
    (∀ packed, unpack env packed = none → RefusesDate env packed) ∧
    (∀ date : CivilDate, env.currentYear ≤ date.year → date.year ≤ env.currentYear + 7 →
      unpack env (pack env date) = some date ∧ DecodesTo env (pack env date) date) := by
  refine ⟨fun packed json => ?_, fun packed date h => ?_, fun packed h => ?_,
    fun date h0 h7 => ?_⟩
  · rw [← isSome_unpack]
    cases h : unpack env packed with
    | none =>
      obtain ⟨e, hbuf⟩ := (refusesDate_of_unpack hcalendar h).2 json
      refine iff_of_false ?_ nofun
      rintro ⟨json', hok⟩
      rw [hbuf] at hok
      cases hok
    | some date =>
      obtain ⟨s, -, -, hbuf⟩ := decodesTo_of_unpack hcalendar hformat h
      exact iff_of_true ⟨_, hbuf json⟩ rfl
  · exact ⟨decodesTo_of_unpack hcalendar hformat h, date.length_text⟩
  · exact refusesDate_of_unpack hcalendar h
  · exact ⟨unpack_pack h0 h7, decodesTo_of_unpack hcalendar hformat (unpack_pack h0 h7)⟩

/-- The twenty-ninth of February is decoded in a leap year. -/
theorem packedDates_decoded_february :
    DecodesTo (.documented []) (pack (.documented [])
      ⟨2028, 2, 29, by decide, by decide, by decide, by decide⟩)
      ⟨2028, 2, 29, by decide, by decide, by decide, by decide⟩ :=
  ((packedDates_decoded (show (Env.documented []).crates.Gregorian from gregorian_documented)
    formatsYmd_documented).2.2.2 _ (by decide) (by decide)).2

end RzProxy
