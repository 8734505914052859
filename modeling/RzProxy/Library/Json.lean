import RzProxy.Library.Utf8
import Mathlib.Data.Nat.Digits.Lemmas

/-!
# JSON texts

JSON values, the texts that denote them, and the text that is written without escaping anything.
Strings in a value are the bytes they hold; the grammar is over bytes and reads escapes. A text
denotes a value, and can be longer than the unescaped text of that value but not shorter. So an
unescaped text denotes what it was written from exactly when no string needed escaping.

## Main definitions

* `Json σ`: values whose strings are `σ`
* `Denotes part text`: the grammar, over values and the parts of arrays and objects
* `Json.render`: the text with the strings copied as they are
* `Plain s`: the strings that stand for themselves between quotes

## Main results

* `length_render_le`: what a text denotes, written unescaped, is no longer
* `denotes_render_iff`: when an unescaped text denotes what it was written from
-/

namespace JsonText

open ByteString

/-! ## Numbers -/

/-- A decimal digit. -/
def Digit (b : UInt8) : Prop := 0x30 ≤ b ∧ b ≤ 0x39

/-- One digit or more. -/
def Digits (bs : Bytes) : Prop := bs ≠ [] ∧ ∀ b ∈ bs, Digit b

/-- An integer without a sign: no zero in front of it. -/
def Whole (bs : Bytes) : Prop := Digits bs ∧ (bs.head? = some 0x30 → bs = [0x30])

/-- The text of a number: sign, whole part, fraction and exponent. -/
inductive Numeral : Bytes → Prop
  | mk {sign whole fraction exponent : Bytes} (hs : sign = [] ∨ sign = [0x2D]) (hw : Whole whole)
      (hf : fraction = [] ∨ ∃ ds, fraction = 0x2E :: ds ∧ Digits ds)
      (he : exponent = [] ∨ ∃ e s ds, exponent = e :: (s ++ ds) ∧ (e = 0x65 ∨ e = 0x45) ∧
        (s = [] ∨ s = [0x2B] ∨ s = [0x2D]) ∧ Digits ds) :
      Numeral (sign ++ whole ++ fraction ++ exponent)

/-- The decimal digit of `n`. -/
def digit (n : ℕ) : UInt8 := UInt8.ofNat (0x30 + n)

/-- A number in decimal. -/
def decimal (n : ℕ) : Bytes := if n = 0 then [0x30] else ((Nat.digits 10 n).reverse).map digit

theorem toNat_digit {n : ℕ} (h : n < 10) : (digit n).toNat = 0x30 + n := by
  rw [digit, UInt8.toNat_ofNat', Nat.mod_eq_of_lt (by omega)]

theorem digit_digit {n : ℕ} (h : n < 10) : Digit (digit n) := by
  simp only [Digit, UInt8.le_iff_toNat_le, toNat_digit h, UInt8.reduceToNat]
  omega

theorem whole_decimal (n : ℕ) : Whole (decimal n) := by
  by_cases hn : n = 0
  · subst hn
    exact ⟨⟨by simp [decimal], by simp [decimal, Digit]⟩, fun _ => rfl⟩
  · rw [decimal, if_neg hn]
    have hne : Nat.digits 10 n ≠ [] := Nat.digits_ne_nil_iff_ne_zero.mpr hn
    refine ⟨⟨by simpa using hne, ?_⟩, ?_⟩
    · simp only [List.mem_map, List.mem_reverse]
      rintro b ⟨d, hd, rfl⟩
      exact digit_digit (Nat.digits_lt_base (by decide) hd)
    · rw [List.head?_map, List.head?_reverse, List.getLast?_eq_getLast_of_ne_nil hne]
      have hlast := Nat.getLast_digit_ne_zero 10 hn
      have hlt := Nat.digits_lt_base (by decide) (List.getLast_mem hne)
      intro h
      have h' := congrArg UInt8.toNat (Option.some.inj h)
      rw [toNat_digit hlt] at h'
      simp only [UInt8.reduceToNat] at h'
      omega

theorem numeral_decimal (n : ℕ) : Numeral (decimal n) := by
  have h : Numeral ([] ++ decimal n ++ [] ++ []) :=
    .mk (.inl rfl) (whole_decimal n) (.inl rfl) (.inl rfl)
  simpa using h

/-- A number as it is written. -/
structure Lexeme where
  bytes : Bytes
  numeral : Numeral bytes

/-! ## Values -/

/-- A JSON value. A number is kept as it is written. -/
inductive Json (σ : Type)
  | null
  | bool (b : Bool)
  | num (l : Lexeme)
  | str (s : σ)
  | arr (items : List (Json σ))
  | obj (members : List (σ × Json σ))

/-- A value, or a part of an array or an object: all its items or members, one member, or those
after the first. -/
inductive Part (σ : Type)
  | value (v : Json σ)
  | items (vs : List (Json σ))
  | moreItems (vs : List (Json σ))
  | member (k : σ) (v : Json σ)
  | members (ms : List (σ × Json σ))
  | moreMembers (ms : List (σ × Json σ))

/-- A natural number, written in decimal. -/
def Json.nat {σ : Type} (n : ℕ) : Json σ := .num ⟨decimal n, numeral_decimal n⟩

/-! ## Strings -/

/-- A string that stands for itself between quotes: UTF-8 text without quotes, backslashes and
control bytes. -/
def Plain (s : Bytes) : Prop :=
  validUtf8 s = true ∧ ∀ b ∈ s, 0x20 ≤ b ∧ b ≠ 0x22 ∧ b ≠ 0x5C

instance (s : Bytes) : Decidable (Plain s) :=
  have : Decidable (∀ b ∈ s, 0x20 ≤ b ∧ b ≠ 0x22 ∧ b ≠ 0x5C) := List.decidableBAll _ s
  inferInstanceAs (Decidable (_ ∧ _))

/-- A character that stands for itself between quotes. -/
def PlainChar (c : Char) : Prop := 0x20 ≤ c.val ∧ c ≠ '"' ∧ c ≠ '\\'

/-- The two-byte escapes: the byte after the backslash, and the byte meant. -/
def escapes : List (UInt8 × UInt8) :=
  [(0x22, 0x22), (0x5C, 0x5C), (0x2F, 0x2F), (0x62, 0x08), (0x66, 0x0C), (0x6E, 0x0A),
    (0x72, 0x0D), (0x74, 0x09)]

/-- The value of a hexadecimal digit. -/
def hexVal (b : UInt8) : Option ℕ :=
  if 0x30 ≤ b ∧ b ≤ 0x39 then some (b.toNat - 0x30)
  else if 0x41 ≤ b ∧ b ≤ 0x46 then some (b.toNat - 0x37)
  else if 0x61 ≤ b ∧ b ≤ 0x66 then some (b.toNat - 0x57)
  else none

/-- `ds` are four hexadecimal digits of value `v`. -/
def Hex4 (ds : Bytes) (v : ℕ) : Prop :=
  ∃ a b c d, ds.map hexVal = [some a, some b, some c, some d] ∧
    v = 4096 * a + 256 * b + 16 * c + d

/-- `Literal text s`: what stands between the quotes is `text`, and it means the bytes `s`. -/
inductive Literal : Bytes → Bytes → Prop
  | nil : Literal [] []
  | char {c : Char} {text s : Bytes} (hc : PlainChar c) (h : Literal text s) :
      Literal (String.utf8EncodeChar c ++ text) (String.utf8EncodeChar c ++ s)
  | escape {e b : UInt8} {text s : Bytes} (he : (e, b) ∈ escapes) (h : Literal text s) :
      Literal (0x5C :: e :: text) (b :: s)
  | unicode {ds text s : Bytes} {c : Char} (hd : Hex4 ds c.val.toNat) (h : Literal text s) :
      Literal (0x5C :: 0x75 :: (ds ++ text)) (String.utf8EncodeChar c ++ s)
  | surrogates {hi lo text s : Bytes} {u v : ℕ} {c : Char} (hh : Hex4 hi u) (hl : Hex4 lo v)
      (hu : 0xD800 ≤ u ∧ u < 0xDC00) (hv : 0xDC00 ≤ v ∧ v < 0xE000)
      (hc : c.val.toNat = 0x10000 + 0x400 * (u - 0xD800) + (v - 0xDC00)) (h : Literal text s) :
      Literal (0x5C :: 0x75 :: (hi ++ 0x5C :: 0x75 :: (lo ++ text)))
        (String.utf8EncodeChar c ++ s)

theorem Hex4.length {ds : Bytes} {v : ℕ} (h : Hex4 ds v) : ds.length = 4 := by
  obtain ⟨a, b, c, d, h, -⟩ := h
  simpa using congrArg List.length h

theorem length_utf8EncodeChar_le (c : Char) : (String.utf8EncodeChar c).length ≤ 4 := by
  rw [String.length_utf8EncodeChar]
  exact c.utf8Size_le_four

theorem plainChar_iff {c : Char} :
    PlainChar c ↔ 0x20 ≤ c.val.toNat ∧ c.val.toNat ≠ 0x22 ∧ c.val.toNat ≠ 0x5C := by
  simp only [PlainChar, UInt32.le_iff_toNat_le, ne_eq, Char.ext_iff, ← UInt32.toNat_inj]
  rfl

/-- A character is plain exactly when its bytes are. -/
theorem plainChar_iff_bytes {c : Char} :
    PlainChar c ↔ ∀ b ∈ String.utf8EncodeChar c, 0x20 ≤ b ∧ b ≠ 0x22 ∧ b ≠ 0x5C := by
  rw [plainChar_iff]
  by_cases hc : c.val.toNat < 0x80
  · rw [utf8EncodeChar_of_lt hc, List.forall_mem_singleton]
    simp only [UInt8.le_iff_toNat_le, ne_eq, ← UInt8.toNat_inj, UInt8.toNat_ofNat',
      UInt8.reduceToNat]
    rw [Nat.mod_eq_of_lt (by omega)]
  · refine iff_of_true (by omega) fun b hb => ?_
    have h := le_of_mem_utf8EncodeChar (by omega) hb
    simp only [UInt8.le_iff_toNat_le, ne_eq, ← UInt8.toNat_inj, UInt8.reduceToNat] at h ⊢
    omega

/-- **What a text means is no longer than the text**, and is as long only if it is the text. -/
theorem Literal.length_le {text s : Bytes} (h : Literal text s) :
    s.length ≤ text.length ∧ (s.length = text.length → text = s ∧ Plain s) := by
  induction h with
  | nil => exact ⟨le_rfl, fun _ => ⟨rfl, validUtf8_nil, by simp⟩⟩
  | char hc h ih =>
    refine ⟨by simpa using ih.1, fun he => ?_⟩
    obtain ⟨rfl, hv, hp⟩ := ih.2 (by simpa using he)
    refine ⟨rfl, validUtf8_append (validUtf8_utf8EncodeChar _) hv, fun b hb => ?_⟩
    · rcases List.mem_append.mp hb with hb | hb
      · exact plainChar_iff_bytes.mp hc b hb
      · exact hp b hb
  -- an escape is longer than the character it stands for
  | escape he h ih =>
    have := ih.1
    simp only [List.length_cons]
    exact ⟨by omega, fun he => by omega⟩
  | @unicode ds text s c hd h ih =>
    have := ih.1
    have := hd.length
    have := length_utf8EncodeChar_le c
    simp only [List.length_cons, List.length_append]
    exact ⟨by omega, fun he => by omega⟩
  | @surrogates hi lo text s u v c hh hl hu hv hc h ih =>
    have := ih.1
    have := hh.length
    have := hl.length
    have := length_utf8EncodeChar_le c
    simp only [List.length_cons, List.length_append]
    exact ⟨by omega, fun he => by omega⟩

theorem literal_utf8 {cs : List Char} (h : ∀ c ∈ cs, PlainChar c) :
    Literal (cs.flatMap String.utf8EncodeChar) (cs.flatMap String.utf8EncodeChar) := by
  induction cs with
  | nil => exact .nil
  | cons c cs ih =>
    rw [List.flatMap_cons]
    exact .char (h c (List.mem_cons_self ..)) (ih fun d hd => h d (List.mem_cons_of_mem _ hd))

/-- A plain string means itself. -/
theorem literal_of_plain {s : Bytes} (h : Plain s) : Literal s s := by
  obtain ⟨t, rfl⟩ := validUtf8_iff.mp h.1
  refine literal_utf8 fun c hc => plainChar_iff_bytes.mpr fun b hb => h.2 b ?_
  exact List.mem_flatMap.mpr ⟨c, hc, hb⟩

theorem plain_utf8 {s : String}
    (h : ((utf8 s).all fun b => 0x20 ≤ b ∧ b ≠ 0x22 ∧ b ≠ 0x5C) = true) : Plain (utf8 s) :=
  ⟨validUtf8_iff.mpr ⟨s, rfl⟩, fun b hb => of_decide_eq_true (List.all_eq_true.mp h b hb)⟩

theorem hexVal_lt {b : UInt8} {v : ℕ} (h : hexVal b = some v) : b < 0x80 := by
  unfold hexVal at h
  simp only [UInt8.le_iff_toNat_le, UInt8.lt_iff_toNat_lt, UInt8.reduceToNat] at h ⊢
  split_ifs at h <;> omega

theorem Hex4.ascii {ds : Bytes} {v : ℕ} (h : Hex4 ds v) : ∀ b ∈ ds, b < 0x80 := by
  obtain ⟨a, b, c, d, h, -⟩ := h
  intro x hx
  have hm : hexVal x ∈ [some a, some b, some c, some d] := h ▸ List.mem_map_of_mem hx
  cases hv : hexVal x with
  | none => simp [hv] at hm
  | some v => exact hexVal_lt hv

theorem ascii_of_mem_escapes {e b : UInt8} (h : (e, b) ∈ escapes) : e < 0x80 :=
  (by simp [escapes] : ∀ p ∈ escapes, p.1 < 0x80) _ h

/-- The text between the quotes is UTF-8. -/
theorem Literal.validUtf8 {text s : Bytes} (h : Literal text s) : validUtf8 text = true := by
  have hb : (0x5C : UInt8) < 0x80 := by decide
  have hu : (0x75 : UInt8) < 0x80 := by decide
  induction h with
  | nil => exact validUtf8_nil
  | char hc h ih => exact validUtf8_append (validUtf8_utf8EncodeChar _) ih
  | escape he h ih =>
    rw [validUtf8_cons_ascii hb, validUtf8_cons_ascii (ascii_of_mem_escapes he)]
    exact ih
  | unicode hd h ih =>
    rw [validUtf8_cons_ascii hb, validUtf8_cons_ascii hu]
    exact validUtf8_append (validUtf8_of_ascii hd.ascii) ih
  | surrogates hh hl _ _ _ h ih =>
    rw [validUtf8_cons_ascii hb, validUtf8_cons_ascii hu]
    refine validUtf8_append (validUtf8_of_ascii hh.ascii) ?_
    rw [validUtf8_cons_ascii hb, validUtf8_cons_ascii hu]
    exact validUtf8_append (validUtf8_of_ascii hl.ascii) ih

/-- What the text means is UTF-8. -/
theorem Literal.validUtf8_meaning {text s : Bytes} (h : Literal text s) :
    ByteString.validUtf8 s = true := by
  induction h with
  | nil => exact validUtf8_nil
  | char hc h ih => exact validUtf8_append (validUtf8_utf8EncodeChar _) ih
  | escape he h ih =>
    rw [validUtf8_cons_ascii ((by simp [escapes] : ∀ p ∈ escapes, p.2 < 0x80) _ he)]
    exact ih
  | unicode hd h ih => exact validUtf8_append (validUtf8_utf8EncodeChar _) ih
  | surrogates hh hl _ _ _ h ih => exact validUtf8_append (validUtf8_utf8EncodeChar _) ih

/-! ## The grammar -/

/-- White space. -/
def Blank (bs : Bytes) : Prop := ∀ b ∈ bs, b ∈ ([0x20, 0x09, 0x0A, 0x0D] : Bytes)

/-- The bytes of a string between quotes. -/
def quoted (text : Bytes) : Bytes := 0x22 :: (text ++ [0x22])

/-- `Denotes part text`: the text is that of the value or of the part. -/
inductive Denotes : Part Bytes → Bytes → Prop
  | null : Denotes (.value .null) (utf8 "null")
  | bool (b : Bool) : Denotes (.value (.bool b)) (utf8 (if b then "true" else "false"))
  | num (l : Lexeme) : Denotes (.value (.num l)) l.bytes
  | str {text s : Bytes} (h : Literal text s) : Denotes (.value (.str s)) (quoted text)
  | arr {vs : List (Json Bytes)} {text : Bytes} (h : Denotes (.items vs) text) :
      Denotes (.value (.arr vs)) (0x5B :: (text ++ [0x5D]))
  | obj {ms : List (Bytes × Json Bytes)} {text : Bytes} (h : Denotes (.members ms) text) :
      Denotes (.value (.obj ms)) (0x7B :: (text ++ [0x7D]))
  | spaced {v : Json Bytes} {text w w' : Bytes} (hw : Blank w) (hw' : Blank w')
      (h : Denotes (.value v) text) : Denotes (.value v) (w ++ (text ++ w'))
  | noItems {w : Bytes} (hw : Blank w) : Denotes (.items []) w
  | items {v : Json Bytes} {vs : List (Json Bytes)} {text more : Bytes}
      (h : Denotes (.value v) text) (hm : Denotes (.moreItems vs) more) :
      Denotes (.items (v :: vs)) (text ++ more)
  | noMoreItems : Denotes (.moreItems []) []
  | moreItems {v : Json Bytes} {vs : List (Json Bytes)} {text more : Bytes}
      (h : Denotes (.value v) text) (hm : Denotes (.moreItems vs) more) :
      Denotes (.moreItems (v :: vs)) (0x2C :: (text ++ more))
  | member {k key : Bytes} {v : Json Bytes} {text w w' : Bytes} (hw : Blank w) (hw' : Blank w')
      (hk : Literal key k) (h : Denotes (.value v) text) :
      Denotes (.member k v) (w ++ (quoted key ++ (w' ++ 0x3A :: text)))
  | noMembers {w : Bytes} (hw : Blank w) : Denotes (.members []) w
  | members {k : Bytes} {v : Json Bytes} {ms : List (Bytes × Json Bytes)} {text more : Bytes}
      (h : Denotes (.member k v) text) (hm : Denotes (.moreMembers ms) more) :
      Denotes (.members ((k, v) :: ms)) (text ++ more)
  | noMoreMembers : Denotes (.moreMembers []) []
  | moreMembers {k : Bytes} {v : Json Bytes} {ms : List (Bytes × Json Bytes)} {text more : Bytes}
      (h : Denotes (.member k v) text) (hm : Denotes (.moreMembers ms) more) :
      Denotes (.moreMembers ((k, v) :: ms)) (0x2C :: (text ++ more))

/-! ## The unescaped text -/

mutual

/-- The text of a value, with the strings as they are and no white space. -/
def Json.render : Json Bytes → Bytes
  | .null => utf8 "null"
  | .bool b => utf8 (if b then "true" else "false")
  | .num l => l.bytes
  | .str s => quoted s
  | .arr vs => 0x5B :: (renderItems true vs ++ [0x5D])
  | .obj ms => 0x7B :: (renderMembers true ms ++ [0x7D])

/-- The items of an array, the first of them without a comma if `first`. -/
def renderItems : Bool → List (Json Bytes) → Bytes
  | _, [] => []
  | first, v :: vs => (if first then [] else [0x2C]) ++ (v.render ++ renderItems false vs)

/-- The members of an object. -/
def renderMembers : Bool → List (Bytes × Json Bytes) → Bytes
  | _, [] => []
  | first, (k, v) :: ms =>
    (if first then [] else [0x2C]) ++ (quoted k ++ 0x3A :: (v.render ++ renderMembers false ms))

end

mutual

/-- The strings of a value, keys included. -/
def Json.strings {σ : Type} : Json σ → List σ
  | .null | .bool _ | .num _ => []
  | .str s => [s]
  | .arr vs => stringsItems vs
  | .obj ms => stringsMembers ms

/-- The strings of the items of an array. -/
def stringsItems {σ : Type} : List (Json σ) → List σ
  | [] => []
  | v :: vs => v.strings ++ stringsItems vs

/-- The strings of the members of an object. -/
def stringsMembers {σ : Type} : List (σ × Json σ) → List σ
  | [] => []
  | (k, v) :: ms => k :: (v.strings ++ stringsMembers ms)

end

theorem renderItems_true_cons (v : Json Bytes) (vs : List (Json Bytes)) :
    renderItems true (v :: vs) = v.render ++ renderItems false vs := by
  simp [renderItems]

theorem renderItems_false_cons (v : Json Bytes) (vs : List (Json Bytes)) :
    renderItems false (v :: vs) = 0x2C :: (v.render ++ renderItems false vs) := by
  simp [renderItems]

theorem renderMembers_true_cons (k : Bytes) (v : Json Bytes) (ms : List (Bytes × Json Bytes)) :
    renderMembers true ((k, v) :: ms) =
      (quoted k ++ 0x3A :: v.render) ++ renderMembers false ms := by
  simp [renderMembers]

theorem renderMembers_false_cons (k : Bytes) (v : Json Bytes) (ms : List (Bytes × Json Bytes)) :
    renderMembers false ((k, v) :: ms) =
      0x2C :: ((quoted k ++ 0x3A :: v.render) ++ renderMembers false ms) := by
  simp [renderMembers]

/-- The unescaped text of a part. -/
def Part.render : Part Bytes → Bytes
  | .value v => v.render
  | .items vs => renderItems true vs
  | .moreItems vs => renderItems false vs
  | .member k v => quoted k ++ 0x3A :: v.render
  | .members ms => renderMembers true ms
  | .moreMembers ms => renderMembers false ms

/-- The strings of a part. -/
def Part.strings {σ : Type} : Part σ → List σ
  | .value v => v.strings
  | .items vs | .moreItems vs => stringsItems vs
  | .member k v => k :: v.strings
  | .members ms | .moreMembers ms => stringsMembers ms

@[simp] theorem length_quoted (text : Bytes) : (quoted text).length = text.length + 2 := by
  simp [quoted]

/-- **What a text denotes, written unescaped, is no longer than the text**, and it is as long only
if it is the text and all strings are plain. -/
theorem Denotes.length_render_le {p : Part Bytes} {text : Bytes} (h : Denotes p text) :
    p.render.length ≤ text.length ∧
      (p.render.length = text.length → text = p.render ∧ ∀ s ∈ p.strings, Plain s) := by
  induction h with
  | null => exact ⟨le_rfl, fun _ => ⟨rfl, by simp [Part.strings, Json.strings]⟩⟩
  | bool b => exact ⟨le_rfl, fun _ => ⟨rfl, by simp [Part.strings, Json.strings]⟩⟩
  | num l => exact ⟨le_rfl, fun _ => ⟨rfl, by simp [Part.strings, Json.strings]⟩⟩
  | str h =>
    obtain ⟨hle, heq⟩ := h.length_le
    simp only [Part.render, Json.render, Part.strings, Json.strings, length_quoted,
      List.mem_singleton, forall_eq]
    refine ⟨by omega, fun he => ?_⟩
    obtain ⟨rfl, hp⟩ := heq (by omega)
    exact ⟨rfl, hp⟩
  | arr h ih | obj h ih =>
    simp only [Part.render, Json.render, Part.strings, Json.strings, List.length_cons,
      List.length_append, List.length_nil] at ih ⊢
    refine ⟨by omega, fun he => ?_⟩
    obtain ⟨rfl, hs⟩ := ih.2 (by omega)
    exact ⟨rfl, hs⟩
  | @spaced v text w w' hw hw' h ih =>
    simp only [List.length_append]
    refine ⟨by omega, fun he => ?_⟩
    have hw0 : w = [] := List.length_eq_zero_iff.mp (by omega)
    have hw0' : w' = [] := List.length_eq_zero_iff.mp (by omega)
    subst hw0 hw0'
    simpa using ih.2 (by omega)
  | @noItems w hw =>
    simp only [Part.render, renderItems, List.length_nil, Part.strings, stringsItems]
    refine ⟨by omega, fun he => ⟨List.length_eq_zero_iff.mp he.symm, by simp⟩⟩
  | items h hm ih ihm =>
    simp only [Part.render, renderItems_true_cons, Part.strings, stringsItems,
      List.length_append, List.mem_append] at ih ihm ⊢
    refine ⟨by omega, fun he => ?_⟩
    obtain ⟨rfl, hs⟩ := ih.2 (by omega)
    obtain ⟨rfl, hms⟩ := ihm.2 (by omega)
    exact ⟨rfl, fun s hs' => hs'.elim (hs s) (hms s)⟩
  | noMoreItems =>
    exact ⟨le_rfl, fun _ => ⟨rfl, by simp [Part.strings, stringsItems]⟩⟩
  | moreItems h hm ih ihm =>
    simp only [Part.render, renderItems_false_cons, Part.strings, stringsItems,
      List.length_append, List.length_cons, List.mem_append] at ih ihm ⊢
    refine ⟨by omega, fun he => ?_⟩
    obtain ⟨rfl, hs⟩ := ih.2 (by omega)
    obtain ⟨rfl, hms⟩ := ihm.2 (by omega)
    exact ⟨rfl, fun s hs' => hs'.elim (hs s) (hms s)⟩
  | @member k key v text w w' hw hw' hk h ih =>
    obtain ⟨hle, heq⟩ := hk.length_le
    simp only [Part.render, Part.strings, List.length_append, length_quoted, List.length_cons,
      List.mem_cons, forall_eq_or_imp] at ih ⊢
    refine ⟨by omega, fun he => ?_⟩
    have hw0 : w = [] := List.length_eq_zero_iff.mp (by omega)
    have hw0' : w' = [] := List.length_eq_zero_iff.mp (by omega)
    obtain ⟨rfl, hp⟩ := heq (by omega)
    obtain ⟨rfl, hs⟩ := ih.2 (by omega)
    subst hw0 hw0'
    exact ⟨rfl, hp, hs⟩
  | @noMembers w hw =>
    simp only [Part.render, renderMembers, List.length_nil, Part.strings, stringsMembers]
    refine ⟨by omega, fun he => ⟨List.length_eq_zero_iff.mp he.symm, by simp⟩⟩
  | members h hm ih ihm =>
    simp only [Part.render, renderMembers_true_cons, Part.strings, stringsMembers,
      List.length_append, List.mem_append, List.mem_cons, forall_eq_or_imp] at ih ihm ⊢
    refine ⟨by omega, fun he => ?_⟩
    obtain ⟨rfl, hk, hs⟩ := ih.2 (by omega)
    obtain ⟨rfl, hms⟩ := ihm.2 (by omega)
    exact ⟨rfl, hk, fun s hs' => hs'.elim (hs s) (hms s)⟩
  | noMoreMembers =>
    exact ⟨le_rfl, fun _ => ⟨rfl, by simp [Part.strings, stringsMembers]⟩⟩
  | moreMembers h hm ih ihm =>
    simp only [Part.render, renderMembers_false_cons, Part.strings, stringsMembers,
      List.length_append, List.length_cons, List.mem_append, List.mem_cons,
      forall_eq_or_imp] at ih ihm ⊢
    refine ⟨by omega, fun he => ?_⟩
    obtain ⟨rfl, hk, hs⟩ := ih.2 (by omega)
    obtain ⟨rfl, hms⟩ := ihm.2 (by omega)
    exact ⟨rfl, hk, fun s hs' => hs'.elim (hs s) (hms s)⟩

theorem blank_nil : Blank [] := by simp [Blank]

/-- A member without white space. -/
theorem Denotes.member_of_plain {k : Bytes} {v : Json Bytes} (hk : Plain k)
    (h : Denotes (.value v) v.render) : Denotes (.member k v) (quoted k ++ 0x3A :: v.render) :=
  .member blank_nil blank_nil (literal_of_plain hk) h

mutual

/-- The unescaped text of a value whose strings are plain denotes the value. -/
theorem Json.denotes_render : ∀ v : Json Bytes, (∀ s ∈ v.strings, Plain s) →
    Denotes (.value v) v.render
  | .null, _ => .null
  | .bool b, _ => .bool b
  | .num l, _ => .num l
  | .str s, h => .str (literal_of_plain (h s (by simp [Json.strings])))
  | .arr vs, h => .arr (denotes_renderItems vs h).1
  | .obj ms, h => .obj (denotes_renderMembers ms h).1

theorem denotes_renderItems : ∀ vs : List (Json Bytes), (∀ s ∈ stringsItems vs, Plain s) →
    Denotes (.items vs) (renderItems true vs) ∧ Denotes (.moreItems vs) (renderItems false vs)
  | [], _ => ⟨.noItems blank_nil, .noMoreItems⟩
  | v :: vs, h => by
    have hv := v.denotes_render fun s hs => h s (by simp [stringsItems, hs])
    have hvs := (denotes_renderItems vs fun s hs => h s (by simp [stringsItems, hs])).2
    rw [renderItems_true_cons, renderItems_false_cons]
    exact ⟨.items hv hvs, .moreItems hv hvs⟩

theorem denotes_renderMembers : ∀ ms : List (Bytes × Json Bytes),
    (∀ s ∈ stringsMembers ms, Plain s) →
    Denotes (.members ms) (renderMembers true ms) ∧
      Denotes (.moreMembers ms) (renderMembers false ms)
  | [], _ => ⟨.noMembers blank_nil, .noMoreMembers⟩
  | (k, v) :: ms, h => by
    have hv := v.denotes_render fun s hs => h s (by simp [stringsMembers, hs])
    have hm := Denotes.member_of_plain (h k (by simp [stringsMembers])) hv
    have hms := (denotes_renderMembers ms fun s hs => h s (by simp [stringsMembers, hs])).2
    rw [renderMembers_true_cons, renderMembers_false_cons]
    exact ⟨.members hm hms, .moreMembers hm hms⟩

end

/-- **When an unescaped text denotes what it was written from**: when no string needs escaping. -/
theorem denotes_render_iff {v : Json Bytes} :
    Denotes (.value v) v.render ↔ ∀ s ∈ v.strings, Plain s :=
  ⟨fun h => (h.length_render_le.2 rfl).2, v.denotes_render⟩

/-! ## Texts without escapes -/

/-- The bytes that are not white space. -/
def inked (bs : Bytes) : Bytes := bs.filter fun b => b ∉ ([0x20, 0x09, 0x0A, 0x0D] : Bytes)

@[simp] theorem inked_append (xs ys : Bytes) : inked (xs ++ ys) = inked xs ++ inked ys :=
  List.filter_append ..

theorem inked_cons (x : UInt8) (ys : Bytes) :
    inked (x :: ys) =
      if x ∈ ([0x20, 0x09, 0x0A, 0x0D] : Bytes) then inked ys else x :: inked ys := by
  by_cases h : x ∈ ([0x20, 0x09, 0x0A, 0x0D] : Bytes)
  · rw [if_pos h]
    exact List.filter_cons_of_neg (by rwa [decide_eq_true_iff, not_not])
  · rw [if_neg h]
    exact List.filter_cons_of_pos (by rwa [decide_eq_true_iff])

theorem Blank.inked_eq {w : Bytes} (h : Blank w) : inked w = [] :=
  List.filter_eq_nil_iff.mpr fun b hb => by simp [h b hb]

/-- Without a backslash, a text means itself. -/
theorem Literal.eq_of_not_mem {text s : Bytes} (h : Literal text s) (hb : 0x5C ∉ text) :
    text = s := by
  induction h with
  | nil => rfl
  | char hc h ih => rw [ih fun hm => hb (List.mem_append_right _ hm)]
  | escape he h ih => exact absurd (List.mem_cons_self ..) hb
  | unicode hd h ih => exact absurd (List.mem_cons_self ..) hb
  | surrogates hh hl _ _ _ h ih => exact absurd (List.mem_cons_self ..) hb

/-- **A text without a backslash is, but for white space, what it denotes**, written unescaped. -/
theorem Denotes.inked_eq {p : Part Bytes} {text : Bytes} (h : Denotes p text) (hb : 0x5C ∉ text) :
    inked text = inked p.render := by
  induction h with
  | null => rfl
  | bool b => rfl
  | num l => rfl
  | str h =>
    simp only [quoted, List.mem_cons, List.mem_append, not_or] at hb
    rw [h.eq_of_not_mem hb.2.1]
    rfl
  | arr h ih | obj h ih =>
    simp only [List.mem_cons, List.mem_append, not_or] at hb
    simp only [Part.render, Json.render, inked_cons, inked_append] at ih ⊢
    rw [ih hb.2.1]
  | spaced hw hw' h ih =>
    simp only [List.mem_append, not_or] at hb
    rw [inked_append, inked_append, hw.inked_eq, hw'.inked_eq, ih hb.2.1, List.nil_append,
      List.append_nil]
  | noItems hw => exact hw.inked_eq
  | items h hm ih ihm =>
    simp only [List.mem_append, not_or] at hb
    simp only [Part.render, renderItems_true_cons, inked_append] at ih ihm ⊢
    rw [ih hb.1, ihm hb.2]
  | noMoreItems => rfl
  | moreItems h hm ih ihm =>
    simp only [List.mem_cons, List.mem_append, not_or] at hb
    simp only [Part.render, renderItems_false_cons, inked_cons, inked_append] at ih ihm ⊢
    rw [ih hb.2.1, ihm hb.2.2]
  | member hw hw' hk h ih =>
    simp only [quoted, List.mem_cons, List.mem_append, not_or] at hb
    obtain ⟨-, ⟨-, hk', -⟩, -, -, ht⟩ := hb
    rw [hk.eq_of_not_mem hk']
    simp only [Part.render, inked_cons, inked_append, hw.inked_eq, hw'.inked_eq,
      List.nil_append] at ih ⊢
    rw [ih ht]
  | noMembers hw => exact hw.inked_eq
  | members h hm ih ihm =>
    simp only [List.mem_append, not_or] at hb
    simp only [Part.render, renderMembers_true_cons, inked_append] at ih ihm ⊢
    rw [ih hb.1, ihm hb.2]
  | noMoreMembers => rfl
  | moreMembers h hm ih ihm =>
    simp only [List.mem_cons, List.mem_append, not_or] at hb
    simp only [Part.render, renderMembers_false_cons, inked_cons, inked_append] at ih ihm ⊢
    rw [ih hb.2.1, ihm hb.2.2]

/-! ## UTF-8 -/

theorem Blank.ascii {w : Bytes} (h : Blank w) : ∀ b ∈ w, b < 0x80 := fun b hb =>
  (by simp : ∀ b ∈ ([0x20, 0x09, 0x0A, 0x0D] : Bytes), b < 0x80) b (h b hb)

theorem Digit.ascii {b : UInt8} (h : Digit b) : b < 0x80 :=
  UInt8.lt_of_le_of_lt h.2 (by decide)

theorem Numeral.ascii {l : Bytes} (h : Numeral l) : ∀ b ∈ l, b < 0x80 := by
  obtain ⟨hs, hw, hf, he⟩ := h
  have hsign : ∀ s : Bytes, s = [] ∨ s = [0x2B] ∨ s = [0x2D] → ∀ b ∈ s, b < 0x80 := by
    rintro s (rfl | rfl | rfl) <;> simp
  intro b hb
  simp only [List.mem_append] at hb
  rcases hb with ((hb | hb) | hb) | hb
  · exact hsign _ (hs.imp_right .inr) b hb
  · exact (hw.1.2 b hb).ascii
  · rcases hf with rfl | ⟨ds, rfl, hd⟩
    · cases hb
    · rcases List.mem_cons.mp hb with rfl | hb
      · decide
      · exact (hd.2 b hb).ascii
  · rcases he with rfl | ⟨e, s, ds, rfl, hexp, hs, hd⟩
    · cases hb
    · rcases List.mem_cons.mp hb with rfl | hb
      · rcases hexp with rfl | rfl <;> decide
      · rcases List.mem_append.mp hb with hb | hb
        · exact hsign s hs b hb
        · exact (hd.2 b hb).ascii

theorem validUtf8_decimal (n : ℕ) : validUtf8 (decimal n) = true :=
  validUtf8_of_ascii (numeral_decimal n).ascii

theorem validUtf8_quoted {text : Bytes} (h : validUtf8 text = true) :
    validUtf8 (quoted text) = true := by
  rw [quoted, validUtf8_cons_ascii (by decide)]
  exact validUtf8_append h (validUtf8_of_ascii (by simp))

/-- **Every text of the grammar is UTF-8.** -/
theorem Denotes.validUtf8 {p : Part Bytes} {text : Bytes} (h : Denotes p text) :
    validUtf8 text = true := by
  induction h with
  | null => exact validUtf8_utf8 _
  | bool b => exact validUtf8_utf8 _
  | num l => exact validUtf8_of_ascii l.numeral.ascii
  | str h => exact validUtf8_quoted h.validUtf8
  | arr h ih | obj h ih =>
    rw [validUtf8_cons_ascii (by decide)]
    exact validUtf8_append ih (validUtf8_of_ascii (by simp))
  | spaced hw hw' h ih =>
    exact validUtf8_append (validUtf8_of_ascii hw.ascii)
      (validUtf8_append ih (validUtf8_of_ascii hw'.ascii))
  | noItems hw => exact validUtf8_of_ascii hw.ascii
  | items h hm ih ihm => exact validUtf8_append ih ihm
  | noMoreItems => exact validUtf8_nil
  | moreItems h hm ih ihm =>
    rw [validUtf8_cons_ascii (by decide)]
    exact validUtf8_append ih ihm
  | member hw hw' hk h ih =>
    refine validUtf8_append (validUtf8_of_ascii hw.ascii)
      (validUtf8_append (validUtf8_quoted hk.validUtf8)
        (validUtf8_append (validUtf8_of_ascii hw'.ascii) ?_))
    rw [validUtf8_cons_ascii (by decide)]
    exact ih
  | noMembers hw => exact validUtf8_of_ascii hw.ascii
  | members h hm ih ihm => exact validUtf8_append ih ihm
  | noMoreMembers => exact validUtf8_nil
  | moreMembers h hm ih ihm =>
    rw [validUtf8_cons_ascii (by decide)]
    exact validUtf8_append ih ihm

/-- The strings that a text denotes are UTF-8. -/
theorem Denotes.validUtf8_strings {p : Part Bytes} {text : Bytes} (h : Denotes p text) :
    ∀ s ∈ p.strings, ByteString.validUtf8 s = true := by
  induction h with
  | null | bool _ | num _ => simp [Part.strings, Json.strings]
  | str h =>
    intro s hs
    obtain rfl : s = _ := by simpa [Part.strings, Json.strings] using hs
    exact h.validUtf8_meaning
  | arr h ih => exact ih
  | obj h ih => exact ih
  | spaced hw hw' h ih => exact ih
  | noItems _ | noMoreItems => simp [Part.strings, stringsItems]
  | items h hm ih ihm => exact fun s hs => (List.mem_append.mp hs).elim (ih s) (ihm s)
  | moreItems h hm ih ihm => exact fun s hs => (List.mem_append.mp hs).elim (ih s) (ihm s)
  | member hw hw' hk h ih =>
    rintro s (_ | ⟨_, hs⟩)
    · exact hk.validUtf8_meaning
    · exact ih s hs
  | noMembers _ | noMoreMembers => simp [Part.strings, stringsMembers]
  | members h hm ih ihm => exact fun s hs => (List.mem_append.mp hs).elim (ih s) (ihm s)
  | moreMembers h hm ih ihm => exact fun s hs => (List.mem_append.mp hs).elim (ih s) (ihm s)

/-! ## Values over other strings -/

mutual

/-- The value with its strings replaced. -/
def Json.map {σ τ : Type} (f : σ → τ) : Json σ → Json τ
  | .null => .null
  | .bool b => .bool b
  | .num l => .num l
  | .str s => .str (f s)
  | .arr vs => .arr (mapItems f vs)
  | .obj ms => .obj (mapMembers f ms)

/-- The items of an array with their strings replaced. -/
def mapItems {σ τ : Type} (f : σ → τ) : List (Json σ) → List (Json τ)
  | [] => []
  | v :: vs => v.map f :: mapItems f vs

/-- The members of an object with their strings replaced. -/
def mapMembers {σ τ : Type} (f : σ → τ) : List (σ × Json σ) → List (τ × Json τ)
  | [] => []
  | (k, v) :: ms => (f k, v.map f) :: mapMembers f ms

end

section Map

variable {σ τ : Type} {f g : σ → τ}

mutual

theorem Json.map_congr : ∀ v : Json σ, (∀ s ∈ v.strings, f s = g s) → v.map f = v.map g
  | .null, _ => rfl
  | .bool _, _ => rfl
  | .num _, _ => rfl
  | .str s, h => congrArg Json.str (h s (by simp [Json.strings]))
  | .arr vs, h => congrArg Json.arr (mapItems_congr vs h)
  | .obj ms, h => congrArg Json.obj (mapMembers_congr ms h)

theorem mapItems_congr : ∀ vs : List (Json σ), (∀ s ∈ stringsItems vs, f s = g s) →
    mapItems f vs = mapItems g vs
  | [], _ => rfl
  | v :: vs, h => by
    rw [mapItems, mapItems, v.map_congr fun s hs => h s (by simp [stringsItems, hs]),
      mapItems_congr vs fun s hs => h s (by simp [stringsItems, hs])]

theorem mapMembers_congr : ∀ ms : List (σ × Json σ), (∀ s ∈ stringsMembers ms, f s = g s) →
    mapMembers f ms = mapMembers g ms
  | [], _ => rfl
  | (k, v) :: ms, h => by
    rw [mapMembers, mapMembers, h k (by simp [stringsMembers]),
      v.map_congr fun s hs => h s (by simp [stringsMembers, hs]),
      mapMembers_congr ms fun s hs => h s (by simp [stringsMembers, hs])]

end

mutual

theorem Json.strings_map : ∀ v : Json σ, (v.map f).strings = v.strings.map f
  | .null | .bool _ | .num _ => rfl
  | .str _ => rfl
  | .arr vs => stringsItems_map vs
  | .obj ms => stringsMembers_map ms

theorem stringsItems_map : ∀ vs : List (Json σ),
    stringsItems (mapItems f vs) = (stringsItems vs).map f
  | [] => rfl
  | v :: vs => by
    rw [mapItems, stringsItems, v.strings_map, stringsItems_map vs, stringsItems, List.map_append]

theorem stringsMembers_map : ∀ ms : List (σ × Json σ),
    stringsMembers (mapMembers f ms) = (stringsMembers ms).map f
  | [] => rfl
  | (k, v) :: ms => by
    rw [mapMembers, stringsMembers, v.strings_map, stringsMembers_map ms, stringsMembers,
      List.map_cons, List.map_append]

end

end Map

end JsonText
