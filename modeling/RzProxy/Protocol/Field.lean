import RzProxy.Protocol.Frame

/-!
# Fields

A payload is a head (the status of a reply, or the name of a command) with a count of fields, and
the fields: `id(2) type(1) len(4) data`. This is the format as such, with its writer and its
readers; the requests and the decoders of the proxy are compared with it.

## Main definitions

* `Field`, `Field.bytes`: a field, and its bytes
* `takeField`, `takeFields`, `fieldsOf`: one field, a number of fields, and all fields of some bytes
* `headBytes`, `takeHead`: the head of a payload

## Main results

* `takeFields_flatMap`, `fieldsOf_flatMap`, `takeHead_headBytes`: what was written is read back
* `bytes_of_takeField`, `bytes_of_takeFields`, `bytes_of_takeHead`: what is read was written
* `takeFields_exact_iff`, `fieldsOf_eq_some_iff`: what is left after some fields
* `takeFields_of_cut`, `fieldsOf_of_cut`: a cut shows, or only leaves fewer fields
-/

namespace RzProxy

open ByteString

structure Field where
  id : UInt16
  fieldType : UInt8
  data : Bytes
  deriving DecidableEq

namespace Field

/-- The bytes of a field. -/
def bytes (f : Field) : Bytes :=
  le16 f.id ++ f.fieldType :: (le32 (UInt32.ofNat f.data.length) ++ f.data)

/-- The data of the field fits its length. -/
def Fits (f : Field) : Prop := f.data.length < 2 ^ 32

@[simp] theorem length_bytes (f : Field) : f.bytes.length = 7 + f.data.length := by
  simp only [bytes, List.length_append, List.length_cons, length_le16, length_le32]
  omega

end Field

/-! ## Readers -/

/-- The first field of some bytes, and the bytes after it. -/
def takeField (bs : Bytes) : Option (Field × Bytes) :=
  let len := (u32FromLE ((bs.drop 3).take 4)).toNat
  if bs.length < 7 ∨ bs.length < 7 + len then none
  else some (⟨u16FromLE (bs.take 2), bs.getD 2 0, (bs.drop 7).take len⟩, bs.drop (7 + len))

/-- The first `n` fields, and the bytes after them. -/
def takeFields : ℕ → Bytes → Option (List Field × Bytes)
  | 0, bs => some ([], bs)
  | n + 1, bs =>
    match takeField bs with
    | none => none
    | some (f, bs) => (takeFields n bs).map fun p => (f :: p.1, p.2)

theorem length_of_takeField {bs rest : Bytes} {f : Field} (h : takeField bs = some (f, rest)) :
    rest.length + (7 + f.data.length) = bs.length := by
  unfold takeField at h
  simp only at h
  split_ifs at h with hl
  cases h
  simp only [List.length_drop, List.length_take]
  omega

/-- The fields as long as the seven bytes before the data are there: `none` if data is missing. -/
def fieldsOf (bs : Bytes) : Option (List Field) :=
  if bs.length < 7 then some []
  else
    match _h : takeField bs with
    | none => none
    | some (f, rest) => (fieldsOf rest).map (f :: ·)
termination_by bs.length
decreasing_by have := length_of_takeField _h; omega

theorem fieldsOf_of_short {bs : Bytes} (h : bs.length < 7) : fieldsOf bs = some [] := by
  rw [fieldsOf, if_pos h]

theorem fieldsOf_of_some {bs rest : Bytes} {f : Field} (h : 7 ≤ bs.length)
    (ht : takeField bs = some (f, rest)) : fieldsOf bs = (fieldsOf rest).map (f :: ·) := by
  rw [fieldsOf, if_neg (by omega), ht]

/-- The bytes of a status or a command name, and a count of fields. -/
def headBytes (name : Bytes) (fieldCount : UInt16) : Bytes :=
  UInt8.ofNat name.length :: (name ++ le16 fieldCount)

/-- The head of a payload: the status or the command name, the count, and the bytes after it. -/
def takeHead : Bytes → Option (Bytes × UInt16 × Bytes)
  | [] => none
  | b :: bs =>
    if bs.length < b.toNat + 2 then none
    else some (bs.take b.toNat, u16FromLE ((bs.drop b.toNat).take 2), bs.drop (b.toNat + 2))

/-! ## What was written is read back -/

/-- The length in front of the data. -/
theorem Field.length_field {f : Field} (hf : f.Fits) (rest : Bytes) :
    (u32FromLE (((f.bytes ++ rest).drop 3).take 4)).toNat = f.data.length := by
  have h : ((f.bytes ++ rest).drop 3).take 4 = le32 (UInt32.ofNat f.data.length) := by
    simp [bytes, List.drop_append, List.take_append]
  rw [h, u32FromLE_le32, UInt32.toNat_ofNat', Nat.mod_eq_of_lt hf]

theorem takeField_bytes_append {f : Field} (hf : f.Fits) (rest : Bytes) :
    takeField (f.bytes ++ rest) = some (f, rest) := by
  have h7 : (f.bytes ++ rest).drop 7 = f.data ++ rest := by
    simp [Field.bytes, List.drop_append]
  have h2 : (f.bytes ++ rest).take 2 = le16 f.id := by
    simp [Field.bytes]
  have ht : (f.bytes ++ rest).getD 2 0 = f.fieldType := by
    simp [Field.bytes, List.getD_eq_getElem?_getD]
  have hl : (f.bytes ++ rest).length = 7 + f.data.length + rest.length := by simp
  simp only [takeField, f.length_field hf, hl, h2, ht, u16FromLE_le16, h7, ← List.drop_drop]
  rw [if_neg (by omega)]
  simp

theorem takeFields_flatMap {fs : List Field} (hfs : ∀ f ∈ fs, f.Fits) (rest : Bytes) :
    takeFields fs.length (fs.flatMap Field.bytes ++ rest) = some (fs, rest) := by
  induction fs with
  | nil => rfl
  | cons f fs ih =>
    rw [List.flatMap_cons, List.append_assoc, List.length_cons, takeFields,
      takeField_bytes_append (hfs f (List.mem_cons_self ..))]
    simp only [ih fun g hg => hfs g (List.mem_cons_of_mem _ hg), Option.map_some]

theorem fieldsOf_flatMap {fs : List Field} (hfs : ∀ f ∈ fs, f.Fits) :
    fieldsOf (fs.flatMap Field.bytes) = some fs := by
  induction fs with
  | nil => exact fieldsOf_of_short (by simp)
  | cons f fs ih =>
    have h7 : 7 ≤ (f.bytes ++ fs.flatMap Field.bytes).length := by
      rw [List.length_append, Field.length_bytes]
      omega
    rw [List.flatMap_cons, fieldsOf_of_some h7 (takeField_bytes_append
      (hfs f (List.mem_cons_self ..)) _), ih fun g hg => hfs g (List.mem_cons_of_mem _ hg),
      Option.map_some]

theorem takeHead_headBytes {name : Bytes} (hn : name.length < 256) (fieldCount : UInt16)
    (rest : Bytes) :
    takeHead (headBytes name fieldCount ++ rest) = some (name, fieldCount, rest) := by
  have hlen : (UInt8.ofNat name.length).toNat = name.length := by
    rw [UInt8.toNat_ofNat', Nat.mod_eq_of_lt (by omega)]
  simp only [headBytes, List.cons_append, takeHead, hlen, List.length_append, length_le16]
  rw [if_neg (by omega), List.append_assoc, List.take_left, ← List.drop_drop, List.drop_left,
    List.take_left' (length_le16 _), List.drop_left' (length_le16 _), u16FromLE_le16]

/-! ## What is left after some fields -/

theorem takeFields_succ_eq_some_iff {n : ℕ} {bs tail : Bytes} {fs : List Field} :
    takeFields (n + 1) bs = some (fs, tail) ↔ ∃ f gs mid, fs = f :: gs ∧
      takeField bs = some (f, mid) ∧ takeFields n mid = some (gs, tail) := by
  rw [takeFields]
  constructor
  · intro h
    split at h
    · cases h
    · rename_i f mid ht
      obtain ⟨⟨gs, tail'⟩, hg, h⟩ := Option.map_eq_some_iff.mp h
      cases h
      exact ⟨f, gs, mid, rfl, ht, hg⟩
  · rintro ⟨f, gs, mid, rfl, ht, hg⟩
    simp only [ht, hg, Option.map_some]

theorem length_of_takeFields {n : ℕ} {bs tail : Bytes} {fs : List Field}
    (h : takeFields n bs = some (fs, tail)) : fs.length = n := by
  induction n generalizing bs fs with
  | zero =>
    cases h
    rfl
  | succ n ih =>
    obtain ⟨f, gs, mid, rfl, -, hg⟩ := takeFields_succ_eq_some_iff.mp h
    rw [List.length_cons, ih hg]

/-- A field takes seven bytes and its data. -/
theorem add_length_le_of_takeFields {n : ℕ} {bs tail : Bytes} {fs : List Field}
    (h : takeFields n bs = some (fs, tail)) : tail.length + 7 * n ≤ bs.length := by
  induction n generalizing bs fs with
  | zero =>
    cases h
    exact le_rfl
  | succ n ih =>
    obtain ⟨f, gs, mid, -, ht, hg⟩ := takeFields_succ_eq_some_iff.mp h
    have hmid := ih hg
    have hbs := length_of_takeField ht
    omega

/-- Nothing is left after the first `n` of some fields exactly if these are all the fields and there
is nothing after them. -/
theorem takeFields_exact_iff {n : ℕ} {bs tail : Bytes} {fs : List Field}
    (h : takeFields fs.length bs = some (fs, tail)) (hn : n ≤ fs.length) :
    (∃ gs, takeFields n bs = some (gs, [])) ↔ fs.length = n ∧ tail = [] := by
  induction fs generalizing n bs with
  | nil =>
    cases h
    obtain rfl := Nat.le_zero.mp hn
    simp [takeFields]
  | cons f fs ih =>
    obtain ⟨f, gs, mid, hfs, ht, hg⟩ := takeFields_succ_eq_some_iff.mp h
    cases hfs
    cases n with
    | zero =>
      have := length_of_takeField ht
      refine iff_of_false ?_ (by simp)
      rintro ⟨gs, hgs⟩
      cases hgs
      simp only [List.length_nil] at this
      omega
    | succ n =>
      rw [List.length_cons, Nat.add_right_cancel_iff, ← ih hg (by simpa using hn)]
      constructor
      · rintro ⟨gs', hgs'⟩
        obtain ⟨f', gs', mid', -, ht', hg'⟩ := takeFields_succ_eq_some_iff.mp hgs'
        rw [ht] at ht'
        cases ht'
        exact ⟨gs', hg'⟩
      · rintro ⟨gs', hg'⟩
        exact ⟨f :: gs', takeFields_succ_eq_some_iff.mpr ⟨f, gs', mid, rfl, ht, hg'⟩⟩

/-- All fields are a number of fields after which fewer than seven bytes are left. -/
theorem fieldsOf_eq_some_iff {bs : Bytes} {fs : List Field} :
    fieldsOf bs = some fs ↔
      ∃ tail, tail.length < 7 ∧ takeFields fs.length bs = some (fs, tail) := by
  induction fs generalizing bs with
  | nil =>
    constructor
    · intro h
      by_cases h7 : bs.length < 7
      · exact ⟨bs, h7, rfl⟩
      · rw [fieldsOf, if_neg h7] at h
        split at h
        · cases h
        · obtain ⟨_, -, h⟩ := Option.map_eq_some_iff.mp h
          cases h
    · rintro ⟨tail, h7, h⟩
      cases h
      exact fieldsOf_of_short h7
  | cons f fs ih =>
    constructor
    · intro h
      by_cases h7 : bs.length < 7
      · rw [fieldsOf_of_short h7] at h
        cases h
      · rw [fieldsOf, if_neg h7] at h
        split at h
        · cases h
        · rename_i f' mid ht
          obtain ⟨gs, hg, h⟩ := Option.map_eq_some_iff.mp h
          cases h
          obtain ⟨tail, hl, htail⟩ := ih.mp hg
          exact ⟨tail, hl, takeFields_succ_eq_some_iff.mpr ⟨f, fs, mid, rfl, ht, htail⟩⟩
    · rintro ⟨tail, hl, h⟩
      obtain ⟨f', gs, mid, hfs, ht, hg⟩ := takeFields_succ_eq_some_iff.mp h
      cases hfs
      have := length_of_takeField ht
      rw [fieldsOf_of_some (by omega) ht, ih.mpr ⟨tail, hl, hg⟩, Option.map_some]

/-- All fields begin with the first ones. -/
theorem fieldsOf_of_takeFields {bs rest : Bytes} {gs : List Field}
    (h : takeFields gs.length bs = some (gs, rest)) :
    fieldsOf bs = (fieldsOf rest).map (gs ++ ·) := by
  induction gs generalizing bs with
  | nil =>
    cases h
    simp
  | cons g gs ih =>
    obtain ⟨_, _, mid, heq, ht, hg⟩ := takeFields_succ_eq_some_iff.mp h
    cases heq
    have := length_of_takeField ht
    rw [fieldsOf_of_some (by omega) ht, ih hg, Option.map_map]
    rfl

/-- The same fields are read again, if as many. -/
theorem takeFields_append_iff {bs mid tail : Bytes} {gs hs : List Field}
    (h : takeFields gs.length bs = some (gs, mid)) :
    takeFields (gs ++ hs).length bs = some (gs ++ hs, tail) ↔
      takeFields hs.length mid = some (hs, tail) := by
  induction gs generalizing bs with
  | nil =>
    cases h
    rfl
  | cons g gs ih =>
    obtain ⟨_, _, mid', heq, ht, hg⟩ := takeFields_succ_eq_some_iff.mp h
    cases heq
    rw [← ih hg, List.cons_append, List.length_cons, takeFields_succ_eq_some_iff]
    constructor
    · rintro ⟨_, _, _, heq, ht', hr⟩
      cases heq
      rw [ht] at ht'
      cases ht'
      exact hr
    · exact fun hr => ⟨g, gs ++ hs, mid', rfl, ht, hr⟩

/-- Of two readings one begins with the other. -/
theorem prefix_of_takeFields {bs mid tail : Bytes} {fs gs : List Field}
    (hf : takeFields fs.length bs = some (fs, tail)) (hg : takeFields gs.length bs = some (gs, mid))
    (hl : gs.length ≤ fs.length) : gs <+: fs := by
  induction gs generalizing bs fs with
  | nil => exact List.nil_prefix
  | cons g gs ih =>
    cases fs with
    | nil => simp at hl
    | cons f fs =>
      obtain ⟨_, _, mid₁, heq₁, ht₁, hf'⟩ := takeFields_succ_eq_some_iff.mp hf
      obtain ⟨_, _, mid₂, heq₂, ht₂, hg'⟩ := takeFields_succ_eq_some_iff.mp hg
      cases heq₁
      cases heq₂
      rw [ht₁] at ht₂
      cases ht₂
      exact List.cons_prefix_cons.mpr ⟨rfl, ih hf' hg' (by simpa using hl)⟩

/-! ## What is read was written -/

/-- A field that is taken is the bytes at the front. -/
theorem bytes_of_takeField {bs rest : Bytes} {f : Field} (h : takeField bs = some (f, rest)) :
    f.Fits ∧ bs = f.bytes ++ rest := by
  unfold takeField at h
  simp only at h
  split_ifs at h with hl
  obtain ⟨rfl, rfl⟩ := Prod.mk.inj (Option.some.inj h)
  set len := u32FromLE ((bs.drop 3).take 4) with hlen
  have hdata : ((bs.drop 7).take len.toNat).length = len.toNat := by
    rw [List.length_take, List.length_drop]
    omega
  refine ⟨hdata.trans_lt len.toNat_lt, ?_⟩
  have hid : (bs.take 2).length = 2 := by
    rw [List.length_take]
    omega
  have htype : bs.drop 2 = bs.getD 2 0 :: bs.drop 3 := by
    rw [List.drop_eq_getElem_cons (by omega), List.getD_eq_getElem?_getD,
      List.getElem?_eq_getElem (by omega), Option.getD_some]
  have hlength : ((bs.drop 3).take 4).length = 4 := by
    rw [List.length_take, List.length_drop]
    omega
  have hrest : (bs.drop 7).drop len.toNat = bs.drop (7 + len.toNat) := List.drop_drop
  rw [Field.bytes, hdata, UInt32.ofNat_toNat, le16_u16FromLE hid, hlen, le32_u32FromLE hlength,
    ← hlen]
  calc bs = bs.take 2 ++ bs.drop 2 := (List.take_append_drop 2 bs).symm
    _ = bs.take 2 ++ bs.getD 2 0 :: ((bs.drop 3).take 4 ++ (bs.drop 3).drop 4) := by
      rw [htype, List.take_append_drop]
    _ = bs.take 2 ++ bs.getD 2 0 :: ((bs.drop 3).take 4 ++ ((bs.drop 7).take len.toNat ++
        bs.drop (7 + len.toNat))) := by
      rw [List.drop_drop, ← hrest, List.take_append_drop]
    _ = _ := by simp only [List.append_assoc, List.cons_append]

/-- Fields that are taken are the bytes at the front. -/
theorem bytes_of_takeFields {n : ℕ} {bs rest : Bytes} {fs : List Field}
    (h : takeFields n bs = some (fs, rest)) :
    (∀ f ∈ fs, f.Fits) ∧ bs = fs.flatMap Field.bytes ++ rest := by
  induction n generalizing bs fs with
  | zero =>
    cases h
    exact ⟨nofun, rfl⟩
  | succ n ih =>
    obtain ⟨f, gs, mid, rfl, ht, hg⟩ := takeFields_succ_eq_some_iff.mp h
    obtain ⟨hf, rfl⟩ := bytes_of_takeField ht
    obtain ⟨hgs, rfl⟩ := ih hg
    refine ⟨List.forall_mem_cons.mpr ⟨hf, hgs⟩, ?_⟩
    rw [List.flatMap_cons, List.append_assoc]

/-- A head that is taken is the bytes at the front. -/
theorem bytes_of_takeHead {bs name rest : Bytes} {fieldCount : UInt16}
    (h : takeHead bs = some (name, fieldCount, rest)) :
    bs = headBytes name fieldCount ++ rest := by
  cases bs with
  | nil => cases h
  | cons b bs =>
    rw [takeHead] at h
    split_ifs at h with hl
    cases h
    have hname : (bs.take b.toNat).length = b.toNat := by
      rw [List.length_take]
      omega
    have hcount : ((bs.drop b.toNat).take 2).length = 2 := by
      rw [List.length_take, List.length_drop]
      omega
    rw [headBytes, hname, UInt8.ofNat_toNat, le16_u16FromLE hcount, List.cons_append,
      List.append_assoc, ← List.drop_drop, List.take_append_drop, List.take_append_drop]

/-! ## What a cut leaves -/

/-- A prefix of two parts ends in the first part, or in the second. -/
theorem prefix_append_cases {α : Type} {r xs ys : List α} (h : r <+: xs ++ ys) :
    (r <+: xs ∧ r.length < xs.length) ∨ ∃ r', r = xs ++ r' ∧ r' <+: ys := by
  have hx : xs <+: xs ++ ys := List.prefix_append xs ys
  by_cases hl : r.length < xs.length
  · exact .inl ⟨List.prefix_of_prefix_length_le h hx hl.le, hl⟩
  · obtain ⟨r', rfl⟩ := List.prefix_of_prefix_length_le hx h (by omega)
    exact .inr ⟨r', rfl, (List.prefix_append_right_inj xs).mp h⟩

/-- A cut inside a field shows. -/
theorem takeField_of_cut {f : Field} (hf : f.Fits) {r : Bytes} (h : r <+: f.bytes)
    (hr : r.length < f.bytes.length) : takeField r = none := by
  by_cases h7 : r.length < 7
  · exact if_pos (.inl h7)
  · have hlen : (u32FromLE ((r.drop 3).take 4)).toNat = f.data.length := by
      have hd : (r.drop 3).take 4 = (f.bytes.drop 3).take 4 := by
        obtain ⟨t, ht⟩ := h
        rw [← ht, List.drop_append_of_le_length (by omega),
          List.take_append_of_le_length (by rw [List.length_drop]; omega)]
      simpa [hd] using f.length_field hf []
    rw [Field.length_bytes] at hr
    exact if_pos (.inr (by omega))

/-- A number of fields is not read from a cut. -/
theorem takeFields_of_cut {fs : List Field} (hfs : ∀ f ∈ fs, f.Fits) {r : Bytes}
    (h : r <+: fs.flatMap Field.bytes) (hr : r ≠ fs.flatMap Field.bytes) :
    takeFields fs.length r = none := by
  induction fs generalizing r with
  | nil => exact absurd (List.prefix_nil.mp h) hr
  | cons f fs ih =>
    have hf := hfs f (List.mem_cons_self ..)
    rw [List.flatMap_cons] at h hr
    rw [List.length_cons, takeFields]
    rcases prefix_append_cases h with ⟨hc, hl⟩ | ⟨r', rfl, hr'⟩
    · rw [takeField_of_cut hf hc hl]
    · rw [ne_eq, List.append_cancel_left_eq] at hr
      rw [takeField_bytes_append hf]
      simp only [ih (fun g hg => hfs g (List.mem_cons_of_mem _ hg)) hr' hr, Option.map_none]

/-- From a cut, all fields are fewer fields. -/
theorem fieldsOf_of_cut {fs : List Field} (hfs : ∀ f ∈ fs, f.Fits) {r : Bytes}
    (h : r <+: fs.flatMap Field.bytes) (hr : r ≠ fs.flatMap Field.bytes) :
    fieldsOf r = none ∨ ∃ gs, fieldsOf r = some gs ∧ gs.length < fs.length := by
  induction fs generalizing r with
  | nil => exact absurd (List.prefix_nil.mp h) hr
  | cons f fs ih =>
    have hf := hfs f (List.mem_cons_self ..)
    rw [List.flatMap_cons] at h hr
    rw [fieldsOf]
    split
    · exact .inr ⟨[], rfl, by simp⟩
    · rcases prefix_append_cases h with ⟨hc, hl⟩ | ⟨r', rfl, hr'⟩
      · rw [takeField_of_cut hf hc hl]
        exact .inl rfl
      · rw [ne_eq, List.append_cancel_left_eq] at hr
        rw [takeField_bytes_append hf]
        rcases ih (fun g hg => hfs g (List.mem_cons_of_mem _ hg)) hr' hr with hn | ⟨gs, hg, hl⟩
        · exact .inl (by simp only [hn, Option.map_none])
        · exact .inr ⟨f :: gs, by simp only [hg, Option.map_some], by simpa using hl⟩

/-- A cut in the head shows. -/
theorem takeHead_of_cut {name : Bytes} (hn : name.length < 256) {fieldCount : UInt16} {r : Bytes}
    (h : r <+: headBytes name fieldCount) (hr : r.length < (headBytes name fieldCount).length) :
    takeHead r = none := by
  cases r with
  | nil => rfl
  | cons b r =>
    obtain ⟨rfl, -⟩ := List.cons_prefix_cons.mp h
    have hlen : (UInt8.ofNat name.length).toNat = name.length := by
      rw [UInt8.toNat_ofNat', Nat.mod_eq_of_lt (by omega)]
    simp only [headBytes, List.length_cons, List.length_append, length_le16] at hr
    exact if_pos (by omega)

end RzProxy
