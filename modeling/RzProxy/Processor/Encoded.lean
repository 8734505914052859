import RzProxy.Processor.Grammar

/-!
# Encoded replies

A successful reply as the backend puts it together: a count, and a field for each type with its
data, numbered from one. The decoders read the fields back, and refuse a reply with another count;
the bodies that they answer with are lists with commas between the items.

## Main definitions

* `numberFrom`: the fields for types and data
* `announced`, `encoded`: a reply that announces any number of fields, or as many as it has
* `listBody`: a body with a list of items

## Main results

* `countedFields_announced`: the fields are read back if they are as many as announced
* `bodyOf_arr`: the body with one array is a list
-/

namespace RzProxy

open ByteString Evaluation Evaluation.Flow JsonText

/-! ## Replies -/

/-- The fields with the given types and data, numbered from `k`. -/
def numberFrom : UInt16 → List (UInt8 × Bytes) → List Field
  | _, [] => []
  | k, (fieldType, data) :: items => ⟨k, fieldType, data⟩ :: numberFrom (k + 1) items

/-- A successful reply that announces `m` fields. -/
def announced (m : UInt16) (items : List (UInt8 × Bytes)) : Bytes :=
  headBytes (utf8 "SUCCESS") m ++ (numberFrom 1 items).flatMap Field.bytes

/-- A successful reply with the given types and data. -/
def encoded (items : List (UInt8 × Bytes)) : Bytes := announced (UInt16.ofNat items.length) items

/-- The data fit the lengths of their fields. -/
def DataFit (items : List (UInt8 × Bytes)) : Prop := ∀ item ∈ items, item.2.length < 2 ^ 32

section Fields

variable {k m : UInt16} {items : List (UInt8 × Bytes)}

@[simp] theorem length_numberFrom : (numberFrom k items).length = items.length := by
  induction items generalizing k with
  | nil => rfl
  | cons item items ih => rw [numberFrom, List.length_cons, List.length_cons, ih]

theorem numbered_numberFrom : Numbered k (numberFrom k items) := by
  induction items generalizing k with
  | nil => trivial
  | cons item items ih => exact ⟨rfl, ih⟩

/-- The fields have the given types and data. -/
theorem map_numberFrom {β : Type} (g : UInt8 × Bytes → β) :
    (numberFrom k items).map (fun f => g (f.fieldType, f.data)) = items.map g := by
  induction items generalizing k with
  | nil => rfl
  | cons item items ih => rw [numberFrom, List.map_cons, List.map_cons, ih]

/-- What holds of all types and data holds of the fields. -/
theorem forall_mem_numberFrom {P : UInt8 × Bytes → Prop} (h : ∀ item ∈ items, P item) :
    ∀ f ∈ numberFrom k items, P (f.fieldType, f.data) := by
  intro f hf
  have hmem : (f.fieldType, f.data) ∈ items := by
    rw [← List.map_id items, ← map_numberFrom (k := k)]
    exact List.mem_map.mpr ⟨f, hf, rfl⟩
  exact h _ hmem

theorem fits_numberFrom (h : DataFit items) : ∀ f ∈ numberFrom k items, f.Fits :=
  forall_mem_numberFrom (P := fun item => item.2.length < 2 ^ 32) h

/-- The head of an encoded reply is read back. -/
theorem answerOf_announced (success : UInt16 → Bytes → Option Answer) :
    answerOf success (announced m items) =
      success m ((numberFrom 1 items).flatMap Field.bytes) := by
  rw [answerOf, announced, takeHead_headBytes (by decide)]
  exact if_pos rfl

/-- **The fields of a reply are read back if they are as many as announced.** -/
theorem countedFields_announced (h : DataFit items) :
    countedFields m ((numberFrom 1 items).flatMap Field.bytes) =
      if UInt16.ofNat items.length = m then some (numberFrom 1 items) else none := by
  rw [countedFields_of_some (fieldsOf_flatMap (fits_numberFrom h)), length_numberFrom]
  exact if_congr (and_iff_right numbered_numberFrom) rfl rfl

theorem ofNat_eq_iff {n : ℕ} (h : n < 2 ^ 16) : UInt16.ofNat n = m ↔ n = m.toNat := by
  rw [← UInt16.toNat_inj, UInt16.toNat_ofNat', Nat.mod_eq_of_lt (by omega)]

end Fields

/-! ## Bodies -/

/-- A body with a list of items, with commas between them. -/
def listBody (name : String) (items : List Bytes) : Bytes :=
  utf8 "\x7b\"status\":\"success\",\"" ++ utf8 name ++ utf8 "\":[" ++ [0x2C].intercalate items ++
    utf8 "]\x7d"

theorem intercalate_cons_cons {α : Type} (sep xs ys : List α) (rest : List (List α)) :
    sep.intercalate (xs :: ys :: rest) = xs ++ (sep ++ sep.intercalate (ys :: rest)) := by
  simp [List.intercalate]

/-- Items are written with commas between them. -/
theorem renderItems_eq_intercalate : ∀ vs : List (Json Bytes),
    renderItems true vs = [0x2C].intercalate (vs.map Json.render)
  | [] => rfl
  | [v] => by simp [renderItems, List.intercalate]
  | v :: w :: vs => by
    have ih := renderItems_eq_intercalate (w :: vs)
    rw [renderItems_true_cons] at ih
    rw [renderItems_true_cons, renderItems_false_cons, ih]
    simp only [List.map_cons, intercalate_cons_cons, List.singleton_append]

/-- The body of an answer with one array. -/
theorem bodyOf_arr (name : String) (vs : List (Json Text)) :
    bodyOf (successAnswer [(.const name, .arr vs)]).members =
      listBody name (vs.map fun v => (v.map Text.written).render) := by
  rw [arrayBody_eq, renderItems_eq_intercalate, List.map_map, listBody]
  simp only [List.append_assoc]
  rfl

/-- The body of an answer with a list of texts. -/
theorem bodyOf_listAnswer (name : String) (ts : List Text) :
    bodyOf (listAnswer name ts).members = listBody name (ts.map fun t => quoted t.written) := by
  rw [listAnswer, bodyOf_arr, List.map_map]
  rfl

/-! ## Responses -/

section Responses

variable {metrics : Metrics} {r : Exec (Response × Metrics)}

theorem Answers.eq_json {a : Answer} (h : Answers metrics (some a) r) :
    ∃ metrics', r = .ok (jsonResponse a.status (bodyOf a.members), metrics') := by
  obtain ⟨metrics', hr, -⟩ := h
  exact ⟨metrics', hr⟩

theorem Answers.eq_list {name : String} {ts : List Text}
    (h : Answers metrics (some (listAnswer name ts)) r) :
    ∃ metrics', r =
      .ok (jsonResponse .ok (listBody name (ts.map fun t => quoted t.written)), metrics') := by
  rw [← bodyOf_listAnswer]
  exact h.eq_json

theorem Answers.eq_invalid (h : Answers metrics none r) : r = .ok (invalidResponse, metrics) := by
  obtain ⟨metrics', hr, hm⟩ := h
  rw [hr, hm rfl]
  rfl

end Responses

end RzProxy
