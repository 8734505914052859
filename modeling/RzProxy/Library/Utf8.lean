import RzProxy.Library.LittleEndian
import Mathlib.Data.List.Basic
import Mathlib.Data.Char

/-!
# UTF-8 text

The bytes of a string, and the reading of arbitrary bytes as text: `pieces` cuts a byte string into
encoded characters and the maximal broken parts between them. Bytes are valid UTF-8 when no part is
broken; the lossy reading puts the replacement character for each broken part.

## Main definitions

* `utf8 s`: the bytes of `s`
* `pieces bs`: the encoded characters and the broken parts of `bs`
* `validUtf8 bs`, `lossy bs`: the test of validity, and the lossy reading
* `fromUtf8 bs`, `fromUtf8Lossy bs`: the string that `bs` holds

## Main results

* `validUtf8_iff`: the valid byte strings are the bytes of strings
* `lossy_of_valid`, `validUtf8_lossy`: the lossy reading changes no valid text, and is valid
* `validUtf8_append_ascii`: an ASCII byte splits a text into two texts
-/

namespace ByteString

/-- The UTF-8 bytes of a string. -/
def utf8 (s : String) : Bytes := s.toList.flatMap String.utf8EncodeChar

theorem utf8_eq_toByteArray (s : String) : s.toByteArray = (utf8 s).toByteArray :=
  String.utf8Encode_toList.symm

theorem utf8_injective {s t : String} (h : utf8 s = utf8 t) : s = t := by
  rw [← String.toByteArray_inj, utf8_eq_toByteArray, utf8_eq_toByteArray, h]

theorem utf8_append (s t : String) : utf8 (s ++ t) = utf8 s ++ utf8 t := by
  rw [utf8, String.toList_append, List.flatMap_append]
  rfl

/-- A continuation byte. -/
def cont (b : UInt8) : Bool := 0x80 ≤ b && b ≤ 0xBF

/-- The bytes that may follow the first byte `a` of a character of three or four bytes. -/
def second (a b : UInt8) : Bool :=
  if a = 0xE0 then 0xA0 ≤ b && b ≤ 0xBF
  else if a = 0xED then 0x80 ≤ b && b ≤ 0x9F
  else if a = 0xF0 then 0x90 ≤ b && b ≤ 0xBF
  else if a = 0xF4 then 0x80 ≤ b && b ≤ 0x8F
  else cont b

/-- Whether a character starts at `a`, and how many bytes it or the broken part in its place takes.
Past the end every byte reads as `0`, which continues nothing. -/
def extent (a : UInt8) (rest : Bytes) : Bool × ℕ :=
  if a < 0x80 then (true, 1)
  else if 0xC2 ≤ a ∧ a ≤ 0xDF then
    if cont (rest.getD 0 0) then (true, 2) else (false, 1)
  else if 0xE0 ≤ a ∧ a ≤ 0xEF then
    if second a (rest.getD 0 0) then
      if cont (rest.getD 1 0) then (true, 3) else (false, 2)
    else (false, 1)
  else if 0xF0 ≤ a ∧ a ≤ 0xF4 then
    if second a (rest.getD 0 0) then
      if cont (rest.getD 1 0) then
        if cont (rest.getD 2 0) then (true, 4) else (false, 3)
      else (false, 2)
    else (false, 1)
  else (false, 1)

/-- The encoded characters of a byte string, and `none` for each broken part. -/
def pieces : Bytes → List (Option Bytes)
  | [] => []
  | a :: rest =>
    (if (extent a rest).1 then some ((a :: rest).take (extent a rest).2) else none) ::
      pieces (rest.drop ((extent a rest).2 - 1))
termination_by bs => bs.length
decreasing_by simp only [List.length_drop, List.length_cons]; omega

/-- `std::str::from_utf8` succeeds. -/
def validUtf8 (bs : Bytes) : Bool := (pieces bs).all Option.isSome

/-- U+FFFD in UTF-8. -/
def replacement : Bytes := [0xEF, 0xBF, 0xBD]

/-- `String::from_utf8_lossy`. -/
def lossy (bs : Bytes) : Bytes := (pieces bs).flatMap fun p => p.getD replacement

@[simp] theorem pieces_nil : pieces [] = [] := by rw [pieces]

@[simp] theorem validUtf8_nil : validUtf8 [] = true := by simp [validUtf8]

/-! ## Encoded characters -/

theorem cont_of_lt {q : UInt8} (h : q < 0x80) : cont q = false := by
  simp only [cont, Bool.and_eq_false_imp, decide_eq_true_eq, decide_eq_false_iff_not]
  intro h'
  exact absurd h (UInt8.not_lt.mpr h')

theorem second_of_lt (a : UInt8) {q : UInt8} (h : q < 0x80) : second a q = false := by
  have h₁ : ¬ (0x80 : UInt8) ≤ q := UInt8.not_le.mpr h
  have h₂ : ¬ (0xA0 : UInt8) ≤ q := fun h' => h₁ (UInt8.le_trans (by decide) h')
  have h₃ : ¬ (0x90 : UInt8) ≤ q := fun h' => h₁ (UInt8.le_trans (by decide) h')
  simp [second, h₁, h₂, h₃, cont_of_lt h]

theorem extent_snd_pos (a : UInt8) (rest : Bytes) : 0 < (extent a rest).2 := by
  unfold extent
  repeat' split
  all_goals simp

theorem exists_char_of_isValidChar {v : ℕ} (h : v.isValidChar) :
    ∃ c : Char, c.val.toNat = v := ⟨Char.ofNatAux v h, rfl⟩

theorem cont_iff {b : UInt8} : cont b = true ↔ 128 ≤ b.toNat ∧ b.toNat ≤ 191 := by
  simp [cont, UInt8.le_iff_toNat_le]

theorem exists_char_one {a : UInt8} (h : a < 0x80) :
    ∃ c : Char, String.utf8EncodeChar c = [a] := by
  have ha : a.toNat < 128 := UInt8.lt_iff_toNat_lt.mp h
  obtain ⟨c, hv⟩ := exists_char_of_isValidChar (v := a.toNat) (Or.inl (by omega))
  exact ⟨c, by simp [String.utf8EncodeChar, hv, show a.toNat ≤ 127 by omega]⟩

theorem exists_char_two {a b : UInt8} (ha : 0xC2 ≤ a ∧ a ≤ 0xDF) (hb : cont b = true) :
    ∃ c : Char, String.utf8EncodeChar c = [a, b] := by
  simp only [UInt8.le_iff_toNat_le, UInt8.reduceToNat, cont_iff] at ha hb
  obtain ⟨c, hv⟩ := exists_char_of_isValidChar
    (v := (a.toNat - 192) * 64 + (b.toNat - 128)) (Or.inl (by omega))
  refine ⟨c, ?_⟩
  simp only [String.utf8EncodeChar, hv]
  rw [if_neg (by omega), if_pos (by omega)]
  simp only [List.cons.injEq, ← UInt8.toNat_inj, UInt8.toNat_ofNat', and_true]
  omega

/-- The second byte of a character of three or four bytes. -/
theorem second_iff {a b : UInt8} (ha : 224 ≤ a.toNat) :
    second a b = true ↔ 128 ≤ b.toNat ∧ b.toNat ≤ 191 ∧ (a.toNat = 224 → 160 ≤ b.toNat) ∧
      (a.toNat = 237 → b.toNat ≤ 159) ∧ (a.toNat = 240 → 144 ≤ b.toNat) ∧
      (a.toNat = 244 → b.toNat ≤ 143) := by
  simp only [second, ← UInt8.toNat_inj, UInt8.reduceToNat]
  split_ifs <;>
    simp only [Bool.and_eq_true, decide_eq_true_eq, UInt8.le_iff_toNat_le, UInt8.reduceToNat,
      cont_iff] <;> omega

theorem exists_char_three {a b c : UInt8} (ha : 0xE0 ≤ a ∧ a ≤ 0xEF)
    (hb : second a b = true) (hc : cont c = true) :
    ∃ x : Char, String.utf8EncodeChar x = [a, b, c] := by
  simp only [UInt8.le_iff_toNat_le, UInt8.reduceToNat, cont_iff] at ha hc
  obtain ⟨hb0, hb1, hlong, hsurrogate, -⟩ := (second_iff (by omega)).mp hb
  have hv' : ((a.toNat - 224) * 4096 + (b.toNat - 128) * 64 + (c.toNat - 128)).isValidChar := by
    by_cases h : a.toNat ≤ 237
    · exact Or.inl (by omega)
    · exact Or.inr (by omega)
  obtain ⟨x, hv⟩ := exists_char_of_isValidChar hv'
  refine ⟨x, ?_⟩
  simp only [String.utf8EncodeChar, hv]
  rw [if_neg (by omega), if_neg (by omega), if_pos (by omega)]
  simp only [List.cons.injEq, ← UInt8.toNat_inj, UInt8.toNat_ofNat', and_true]
  omega

theorem exists_char_four {a b c d : UInt8} (ha : 0xF0 ≤ a ∧ a ≤ 0xF4)
    (hb : second a b = true) (hc : cont c = true) (hd : cont d = true) :
    ∃ x : Char, String.utf8EncodeChar x = [a, b, c, d] := by
  simp only [UInt8.le_iff_toNat_le, UInt8.reduceToNat, cont_iff] at ha hc hd
  obtain ⟨hb0, hb1, -, -, hlong, hlast⟩ := (second_iff (by omega)).mp hb
  obtain ⟨x, hv⟩ := exists_char_of_isValidChar (v := (a.toNat - 240) * 262144 +
    (b.toNat - 128) * 4096 + (c.toNat - 128) * 64 + (d.toNat - 128)) (Or.inr (by omega))
  refine ⟨x, ?_⟩
  simp only [String.utf8EncodeChar, hv]
  rw [if_neg (by omega), if_neg (by omega), if_neg (by omega)]
  simp only [List.cons.injEq, ← UInt8.toNat_inj, UInt8.toNat_ofNat', and_true]
  omega

@[simp] theorem cont_zero : cont 0 = false := by decide

@[simp] theorem second_zero (a : UInt8) : second a 0 = false := second_of_lt a (by decide)

/-- What `extent` takes for a character is the encoding of a character. -/
theorem exists_char_of_extent {a : UInt8} {rest : Bytes} (h : (extent a rest).1 = true) :
    ∃ c : Char, String.utf8EncodeChar c = (a :: rest).take (extent a rest).2 := by
  unfold extent at h ⊢
  split_ifs at h ⊢ with h₁ h₂ hb h₃ hb hc h₄ hb hc hd
  · exact exists_char_one h₁
  · rcases rest with _ | ⟨b, rest⟩
    · simp at hb
    · exact exists_char_two h₂ hb
  · rcases rest with _ | ⟨b, _ | ⟨c, rest⟩⟩
    · simp at hb
    · simp at hc
    · exact exists_char_three h₃ hb hc
  · rcases rest with _ | ⟨b, _ | ⟨c, _ | ⟨d, rest⟩⟩⟩
    · simp at hb
    · simp at hc
    · simp at hd
    · exact exists_char_four h₄ hb hc hd

theorem extent_one {a : UInt8} (ha : a < 0x80) (rest : Bytes) : extent a rest = (true, 1) := by
  rw [extent, if_pos ha]

theorem extent_two {a b : UInt8} (ha : 0xC2 ≤ a ∧ a ≤ 0xDF) (hb : cont b = true)
    (rest : Bytes) : extent a (b :: rest) = (true, 2) := by
  have h₁ : ¬ a < 0x80 := UInt8.not_lt.mpr (UInt8.le_trans (by decide) ha.1)
  simp [extent, h₁, ha, hb]

theorem extent_three {a b c : UInt8} (ha : 0xE0 ≤ a ∧ a ≤ 0xEF) (hb : second a b = true)
    (hc : cont c = true) (rest : Bytes) : extent a (b :: c :: rest) = (true, 3) := by
  have h₁ : ¬ a < 0x80 := UInt8.not_lt.mpr (UInt8.le_trans (by decide) ha.1)
  have h₂ : ¬ a ≤ 0xDF := UInt8.not_le.mpr (UInt8.lt_of_lt_of_le (by decide) ha.1)
  simp [extent, h₁, h₂, ha, hb, hc]

theorem extent_four {a b c d : UInt8} (ha : 0xF0 ≤ a ∧ a ≤ 0xF4) (hb : second a b = true)
    (hc : cont c = true) (hd : cont d = true) (rest : Bytes) :
    extent a (b :: c :: d :: rest) = (true, 4) := by
  have h₁ : ¬ a < 0x80 := UInt8.not_lt.mpr (UInt8.le_trans (by decide) ha.1)
  have h₂ : ¬ a ≤ 0xDF := UInt8.not_le.mpr (UInt8.lt_of_lt_of_le (by decide) ha.1)
  have h₃ : ¬ a ≤ 0xEF := UInt8.not_le.mpr (UInt8.lt_of_lt_of_le (by decide) ha.1)
  simp [extent, h₁, h₂, h₃, ha, hb, hc, hd]

/-- Every encoded character is taken whole by `extent`. -/
theorem extent_utf8EncodeChar (c : Char) :
    ∃ a tail, String.utf8EncodeChar c = a :: tail ∧
      ∀ rest, extent a (tail ++ rest) = (true, tail.length + 1) := by
  have hv : c.val.toNat < 0xD800 ∨ 0xDFFF < c.val.toNat ∧ c.val.toNat < 0x110000 := c.valid
  simp only [String.utf8EncodeChar]
  split_ifs with h₁ h₂ h₃
  · refine ⟨_, _, rfl, fun rest => ?_⟩
    have ha : UInt8.ofNat c.val.toNat < 0x80 := by
      simp only [UInt8.lt_iff_toNat_lt, UInt8.toNat_ofNat', UInt8.reduceToNat]; omega
    exact extent_one ha _
  · refine ⟨_, _, rfl, fun rest => extent_two ?_ ?_ _⟩
    · simp only [UInt8.le_iff_toNat_le, UInt8.toNat_ofNat', UInt8.reduceToNat]; omega
    · simp only [cont_iff, UInt8.toNat_ofNat']; omega
  · refine ⟨_, _, rfl, fun rest => extent_three ?_ ?_ ?_ _⟩
    · simp only [UInt8.le_iff_toNat_le, UInt8.toNat_ofNat', UInt8.reduceToNat]; omega
    · rw [second_iff (by simp only [UInt8.toNat_ofNat']; omega)]
      simp only [UInt8.toNat_ofNat']; omega
    · simp only [cont_iff, UInt8.toNat_ofNat']; omega
  · refine ⟨_, _, rfl, fun rest => extent_four ?_ ?_ ?_ ?_ _⟩
    · simp only [UInt8.le_iff_toNat_le, UInt8.toNat_ofNat', UInt8.reduceToNat]; omega
    · rw [second_iff (by simp only [UInt8.toNat_ofNat']; omega)]
      simp only [UInt8.toNat_ofNat']; omega
    · simp only [cont_iff, UInt8.toNat_ofNat']; omega
    · simp only [cont_iff, UInt8.toNat_ofNat']; omega

theorem utf8EncodeChar_of_lt {c : Char} (h : c.val.toNat < 0x80) :
    String.utf8EncodeChar c = [UInt8.ofNat c.val.toNat] := by
  simp only [String.utf8EncodeChar]
  rw [if_pos (by omega)]

/-- A character beyond ASCII has no ASCII byte. -/
theorem le_of_mem_utf8EncodeChar {c : Char} (h : 0x80 ≤ c.val.toNat) {b : UInt8}
    (hb : b ∈ String.utf8EncodeChar c) : 0x80 ≤ b := by
  have hv : c.val.toNat < 0xD800 ∨ 0xDFFF < c.val.toNat ∧ c.val.toNat < 0x110000 := c.valid
  simp only [String.utf8EncodeChar] at hb
  rw [if_neg (by omega)] at hb
  simp only [UInt8.le_iff_toNat_le, UInt8.reduceToNat]
  split_ifs at hb with h₂ h₃ <;>
    simp only [List.mem_cons, List.not_mem_nil, or_false, ← UInt8.toNat_inj,
      UInt8.toNat_ofNat'] at hb <;> omega

theorem pieces_cons (a : UInt8) (rest : Bytes) :
    pieces (a :: rest) =
      (if (extent a rest).1 then some ((a :: rest).take (extent a rest).2) else none) ::
        pieces (rest.drop ((extent a rest).2 - 1)) := by
  rw [pieces]

/-- A leading character is the first piece. -/
theorem pieces_utf8EncodeChar_append (c : Char) (rest : Bytes) :
    pieces (String.utf8EncodeChar c ++ rest) =
      some (String.utf8EncodeChar c) :: pieces rest := by
  obtain ⟨a, tail, hc, he⟩ := extent_utf8EncodeChar c
  rw [hc, List.cons_append, pieces_cons, he]
  simp

/-! ## Validity and the lossy reading -/

theorem pieces_utf8 (s : String) :
    pieces (utf8 s) = s.toList.map fun c => some (String.utf8EncodeChar c) := by
  rw [utf8]
  induction s.toList with
  | nil => simp
  | cons c cs ih => rw [List.flatMap_cons, pieces_utf8EncodeChar_append, ih, List.map_cons]

@[simp] theorem validUtf8_utf8 (s : String) : validUtf8 (utf8 s) = true := by
  simp [validUtf8, pieces_utf8]

/-- **The valid byte strings** are the bytes of strings. -/
theorem validUtf8_iff {bs : Bytes} : validUtf8 bs = true ↔ ∃ s : String, bs = utf8 s := by
  constructor
  · -- induction on the pieces: each is the encoding of a character
    induction bs using pieces.induct with
    | case1 => exact fun _ => ⟨"", rfl⟩
    | case2 a rest ih =>
      intro h
      rw [validUtf8, pieces_cons, List.all_cons, Bool.and_eq_true] at h
      have he : (extent a rest).1 = true := by
        by_contra hf
        simp [hf] at h
      obtain ⟨c, hc⟩ := exists_char_of_extent he
      obtain ⟨s, hs⟩ := ih h.2
      refine ⟨String.ofList (c :: s.toList), ?_⟩
      have hd : (a :: rest).drop (extent a rest).2 = rest.drop ((extent a rest).2 - 1) := by
        obtain ⟨n, hn⟩ := Nat.exists_eq_add_of_lt (extent_snd_pos a rest)
        simp [hn]
      rw [utf8, String.toList_ofList, List.flatMap_cons, ← utf8, hc, ← hs, ← hd,
        List.take_append_drop]
  · rintro ⟨s, rfl⟩
    exact validUtf8_utf8 s

theorem lossy_utf8 (s : String) : lossy (utf8 s) = utf8 s := by
  rw [lossy, pieces_utf8, List.flatMap_map]
  rfl

/-- **The lossy reading** changes no valid text. -/
theorem lossy_of_valid {bs : Bytes} (h : validUtf8 bs = true) : lossy bs = bs := by
  obtain ⟨s, rfl⟩ := validUtf8_iff.mp h
  exact lossy_utf8 s

/-- A broken part is at most as long as what is left. -/
theorem extent_snd_le (a : UInt8) (rest : Bytes) : (extent a rest).2 ≤ rest.length + 1 := by
  unfold extent
  split_ifs with h₁ h₂ hb h₃ hb hc h₄ hb hc hd
  all_goals try simp only [le_add_iff_nonneg_left, zero_le]
  all_goals
    rcases rest with _ | ⟨b, _ | ⟨c, _ | ⟨d, rest⟩⟩⟩ <;> simp_all

/-- A text followed by an ASCII byte is cut before that byte. -/
theorem extent_append_ascii (a : UInt8) (xs : Bytes) {q : UInt8} (hq : q < 0x80) (ys : Bytes) :
    extent a (xs ++ q :: ys) = extent a xs := by
  have h₁ := cont_of_lt hq
  have h₂ := second_of_lt a hq
  rcases xs with _ | ⟨b, _ | ⟨c, _ | ⟨d, xs⟩⟩⟩ <;> simp [extent, h₁, h₂]

theorem pieces_append_ascii (xs : Bytes) {q : UInt8} (hq : q < 0x80) (ys : Bytes) :
    pieces (xs ++ q :: ys) = pieces xs ++ some [q] :: pieces ys := by
  induction xs using pieces.induct with
  | case1 => simp [pieces_cons, extent_one hq]
  | case2 a rest ih =>
    have hle := extent_snd_le a rest
    have hpos := extent_snd_pos a rest
    have ht : (a :: (rest ++ q :: ys)).take (extent a rest).2 =
        (a :: rest).take (extent a rest).2 := by
      rw [← List.cons_append, List.take_append_of_le_length (by simpa using hle)]
    rw [List.cons_append, pieces_cons, extent_append_ascii a rest hq, pieces_cons a rest,
      List.drop_append_of_le_length (by omega), ih, ht, List.cons_append]

/-- **An ASCII byte splits a text** into two texts. -/
theorem validUtf8_append_ascii (xs : Bytes) {q : UInt8} (hq : q < 0x80) (ys : Bytes) :
    validUtf8 (xs ++ q :: ys) = (validUtf8 xs && validUtf8 ys) := by
  simp [validUtf8, pieces_append_ascii xs hq]

theorem validUtf8_cons_ascii {q : UInt8} (hq : q < 0x80) (ys : Bytes) :
    validUtf8 (q :: ys) = validUtf8 ys := by
  simpa using validUtf8_append_ascii [] hq ys

theorem validUtf8_of_ascii {xs : Bytes} (h : ∀ b ∈ xs, b < 0x80) : validUtf8 xs = true := by
  induction xs with
  | nil => exact validUtf8_nil
  | cons x xs ih =>
    rw [validUtf8_cons_ascii (h x (List.mem_cons_self ..))]
    exact ih fun b hb => h b (List.mem_cons_of_mem _ hb)

theorem validUtf8_append {xs ys : Bytes} (hx : validUtf8 xs = true) (hy : validUtf8 ys = true) :
    validUtf8 (xs ++ ys) = true := by
  obtain ⟨s, rfl⟩ := validUtf8_iff.mp hx
  obtain ⟨t, rfl⟩ := validUtf8_iff.mp hy
  rw [show utf8 s ++ utf8 t = utf8 (s ++ t) by simp [utf8]]
  exact validUtf8_utf8 _

theorem validUtf8_utf8EncodeChar (c : Char) : validUtf8 (String.utf8EncodeChar c) = true := by
  simpa [utf8] using validUtf8_utf8 (String.singleton c)

theorem exists_char_of_mem_pieces {bs xs : Bytes} (h : some xs ∈ pieces bs) :
    ∃ c : Char, String.utf8EncodeChar c = xs := by
  induction bs using pieces.induct with
  | case1 => simp at h
  | case2 a rest ih =>
    rw [pieces_cons, List.mem_cons] at h
    rcases h with h | h
    · by_cases he : (extent a rest).1 = true
      · obtain rfl := by simpa [he] using h
        exact exists_char_of_extent he
      · simp [he] at h
    · exact ih h

theorem utf8_singleton_append (c : Char) (s : String) :
    utf8 (String.singleton c ++ s) = String.utf8EncodeChar c ++ utf8 s := by
  simp [utf8]

/-- Characters and replacements in any order are a text. -/
theorem exists_utf8_of_pieces (ps : List (Option Bytes))
    (h : ∀ xs, some xs ∈ ps → ∃ c : Char, String.utf8EncodeChar c = xs) :
    ∃ s : String, (ps.flatMap fun p => p.getD replacement) = utf8 s := by
  induction ps with
  | nil => exact ⟨"", rfl⟩
  | cons p ps ih =>
    obtain ⟨s, hs⟩ := ih fun xs hx => h xs (List.mem_cons_of_mem _ hx)
    have hp : ∃ c : Char, String.utf8EncodeChar c = p.getD replacement := by
      cases p with
      | none => exact ⟨'\uFFFD', by decide⟩
      | some xs => exact h xs (List.mem_cons_self ..)
    obtain ⟨c, hc⟩ := hp
    exact ⟨String.singleton c ++ s, by rw [List.flatMap_cons, hs, ← hc, utf8_singleton_append]⟩

/-- The lossy reading is valid. -/
theorem validUtf8_lossy (bs : Bytes) : validUtf8 (lossy bs) = true :=
  validUtf8_iff.mpr (exists_utf8_of_pieces _ fun _ => exists_char_of_mem_pieces)

/-! ## Strings read from bytes -/

theorem isValidUTF8_of_validUtf8 {bs : Bytes} (h : validUtf8 bs = true) :
    bs.toByteArray.IsValidUTF8 := by
  obtain ⟨s, rfl⟩ := validUtf8_iff.mp h
  rw [← utf8_eq_toByteArray]
  exact s.isValidUTF8

/-- `str::from_utf8`. -/
def fromUtf8 (bs : Bytes) : Option String :=
  if h : validUtf8 bs = true then
    some (String.ofByteArray bs.toByteArray (isValidUTF8_of_validUtf8 h))
  else none

/-- `String::from_utf8_lossy`, as a string. -/
def fromUtf8Lossy (bs : Bytes) : String :=
  String.ofByteArray (lossy bs).toByteArray (isValidUTF8_of_validUtf8 (validUtf8_lossy bs))

theorem toByteArray_injective {bs cs : Bytes} (h : bs.toByteArray = cs.toByteArray) : bs = cs := by
  simpa using congrArg ByteArray.data h

theorem utf8_ofByteArray {bs : Bytes} (h : bs.toByteArray.IsValidUTF8) :
    utf8 (String.ofByteArray bs.toByteArray h) = bs :=
  toByteArray_injective (utf8_eq_toByteArray _).symm

/-- **Reading a string** succeeds exactly on the bytes of that string. -/
theorem fromUtf8_eq_some_iff {bs : Bytes} {s : String} : fromUtf8 bs = some s ↔ utf8 s = bs := by
  unfold fromUtf8
  constructor
  · intro h
    split at h
    · cases h
      exact utf8_ofByteArray _
    · cases h
  · rintro rfl
    rw [dif_pos (validUtf8_utf8 s)]
    exact congrArg some (utf8_injective (utf8_ofByteArray _))

@[simp] theorem utf8_fromUtf8Lossy (bs : Bytes) : utf8 (fromUtf8Lossy bs) = lossy bs :=
  utf8_ofByteArray _

@[simp] theorem fromUtf8Lossy_utf8 (s : String) : fromUtf8Lossy (utf8 s) = s :=
  utf8_injective (by rw [utf8_fromUtf8Lossy, lossy_utf8])

end ByteString
