import RzProxy.Processor.Integers

/-!
# The filters of a search

The searches take optional filters, each documented with its name, its JSON type and its range. A
handler looks for each filter under a key of its own, and a filter that it does not find widens the
search without a sign of it. The handler of SEARCHPROP looks for the property type under another key
than the documented one.

## Main definitions

* `Kind`, `Filter`: a documented type with its range, and a documented filter with its field
* `Command.documented`: the filters that are documented for a search
* `Value.given`: the value that a body gives for a key, where a null is none
* `Documented`: a body has only documented filters, with values in range or null
* `Carries`: a payload has exactly one field for each filter of the body, which carries its value

## Main results

* `carries_of_request`: the payload of a search carries all filters of the body if and only if
  it is no SEARCHPROP that gives a property type
* `not_forall_carries`: a search for hotels is one for all properties
-/

namespace RzProxy

open ByteString

/-! ## What is documented -/

/-- The JSON type and the range that are documented for a filter. -/
inductive Kind
  | text
  | strings
  | integer (lo hi width : ℕ)
  | float (bound : UInt64)

/-- The value is of the kind, and the bytes carry it. -/
def Kind.Says (v : Value) (data : Bytes) : Kind → Prop
  | text => ∃ s, v = .string s ∧ data = utf8 s
  | strings => ∃ ss, ss ≠ [] ∧ v = .array (ss.map .string) ∧ data = commaSeparated ss
  | integer lo hi width =>
    ∃ n, v = .number (.posInt n) ∧ lo ≤ n.toNat ∧ n.toNat ≤ hi ∧ data = toLE width n.toNat
  | float bound => ∃ x, v.asF64 = some x ∧ absLe bound x = true ∧ data = le64 x

/-- A documented filter, with the field that is to carry it. -/
structure Filter where
  key : String
  id : UInt16
  fieldType : UInt8
  kind : Kind

/-- The filters that are documented for the searches. -/
def Command.documented : Command → List Filter
  | searchProp =>
    [⟨"segment", 0x01, 0x01, .text⟩, ⟨"area", 0x02, 0x01, .text⟩, ⟨"type", 0x03, 0x01, .text⟩,
      ⟨"stars", 0x04, 0x02, .integer 1 5 1⟩, ⟨"category", 0x05, 0x01, .text⟩,
      ⟨"amenities", 0x06, 0x01, .strings⟩, ⟨"longitude", 0x07, 0x03, .float f64OneEighty⟩,
      ⟨"latitude", 0x08, 0x03, .float f64Ninety⟩, ⟨"limit", 0x09, 0x03, .integer 0 (2 ^ 64 - 1) 8⟩]
  | searchAvail =>
    [⟨"segment", 0x01, 0x01, .text⟩, ⟨"room_type", 0x02, 0x01, .text⟩,
      ⟨"area", 0x03, 0x01, .text⟩, ⟨"property_id", 0x04, 0x01, .text⟩,
      ⟨"type", 0x05, 0x01, .text⟩, ⟨"stars", 0x06, 0x02, .integer 1 5 1⟩,
      ⟨"category", 0x07, 0x01, .text⟩, ⟨"amenities", 0x08, 0x01, .strings⟩,
      ⟨"longitude", 0x09, 0x03, .float f64OneEighty⟩, ⟨"latitude", 0x0A, 0x03, .float f64Ninety⟩,
      ⟨"date", 0x0B, 0x01, .strings⟩, ⟨"availability", 0x0C, 0x02, .integer 0 255 1⟩,
      ⟨"final_price", 0x0D, 0x03, .integer 0 (2 ^ 32 - 1) 4⟩,
      ⟨"rate_features", 0x0E, 0x01, .strings⟩, ⟨"limit", 0x0F, 0x03, .integer 0 (2 ^ 64 - 1) 8⟩]
  | _ => []

/-- The value that a body gives for a key: a null is as good as no member. -/
def Value.given (payload : Value) (key : String) : Option Value :=
  match payload.get key with
  | some .null => none
  | o => o

/-- The body is an object of documented filters, with nulls or values of their types and ranges. -/
def Documented (c : Command) (payload : Value) : Prop :=
  ∃ members, payload = .object members ∧ ∀ m ∈ members, ∃ f ∈ c.documented, f.key = m.1 ∧
    (m.2 = .null ∨ ∃ data, f.kind.Says m.2 data)

/-- The bytes are the payload of a command for a body, and have exactly one field for each
documented filter of the body, which carries its value. -/
def Carries (c : Command) (payload : Value) (bs : Bytes) : Prop :=
  c.Built payload bs ∧ ∀ f ∈ c.documented, ∀ v, payload.given f.key = some v →
    ∃ data, f.kind.Says v data ∧
      (c.fields payload).filter (fun g => g.id = f.id) = [⟨f.id, f.fieldType, data⟩]

/-! ## Slots and filters -/

theorem get_of_given {payload v : Value} {key : String} (h : payload.given key = some v) :
    payload.get key = some v ∧ v ≠ .null := by
  rw [Value.given] at h
  split at h
  · cases h
  · next hne =>
    refine ⟨h, ?_⟩
    rintro rfl
    exact hne h

/-- A null is of no kind. -/
theorem given_of_kind {payload v : Value} {key : String} {kind : Kind} {data : Bytes}
    (hget : payload.get key = some v) (h : kind.Says v data) : payload.given key = some v := by
  rw [Value.given, hget]
  cases v with
  | null => cases kind <;> simp [Kind.Says, Value.asF64] at h
  | _ => rfl

/-- The slot reads the filter: its data are those that carry the value. -/
def Reads (payload : Value) (f : Filter) (s : Slot) : Prop :=
  s.id = f.id ∧ s.fieldType = f.fieldType ∧
    ∀ v data, payload.get f.key = some v → f.kind.Says v data → s.data payload = some data

section Slots

variable {payload : Value} {id : UInt16} {key : String}

theorem reads_text : Reads payload ⟨key, id, 0x01, .text⟩ (.text id key) := by
  refine ⟨rfl, rfl, ?_⟩
  rintro v data hget ⟨s, rfl, rfl⟩
  simp [Slot.text, text, hget, Value.asStr]

/-- A text that must not be empty is read where the handler goes on. -/
theorem reads_nonEmptyText (h : ((Slot.nonEmptyText id key).data payload).isSome) :
    Reads payload ⟨key, id, 0x01, .text⟩ (.nonEmptyText id key) := by
  refine ⟨rfl, rfl, ?_⟩
  rintro v data hget ⟨s, rfl, rfl⟩
  have htext : text payload key = some s := by simp [text, hget, Value.asStr]
  simp only [Slot.nonEmptyText, nonEmptyText, htext] at h ⊢
  by_cases hs : s = ""
  · simp [hs] at h
  · simp [hs]

theorem reads_joined : Reads payload ⟨key, id, 0x01, .strings⟩ (.joined id key) := by
  refine ⟨rfl, rfl, ?_⟩
  rintro v data hget ⟨ss, hne, rfl, rfl⟩
  have hstrings : strings (ss.map .string) = ss := by
    simp [strings, List.filterMap_map, Function.comp_def, Value.asStr]
  simp [Slot.joined, stringsOf, hget, Value.asArray, hstrings, hne]

theorem toLE_one (n : UInt64) : toLE 1 n.toNat = [n.toUInt8] := by
  have hbyte : UInt8.ofNat (n.toNat % 256) = n.toUInt8 := by
    rw [← UInt8.toNat_inj]
    simp
  rw [toLE, toLE, hbyte]

theorem reads_stars : Reads payload ⟨key, id, 0x02, .integer 1 5 1⟩ (.stars id key) := by
  refine ⟨rfl, rfl, ?_⟩
  rintro v data hget ⟨n, rfl, hlo, hhi, rfl⟩
  have hrange : 1 ≤ n ∧ n ≤ 5 :=
    ⟨UInt64.le_iff_toNat_le.mpr hlo, UInt64.le_iff_toNat_le.mpr hhi⟩
  simp [Slot.stars, stars, u64, hget, Value.asU64, Option.filter, hrange, toLE_one]

theorem reads_byte {lo hi : ℕ} (h : hi ≤ 255) :
    Reads payload ⟨key, id, 0x02, .integer lo hi 1⟩ (.byte id key) := by
  refine ⟨rfl, rfl, ?_⟩
  rintro v data hget ⟨n, rfl, hlo, hhi, rfl⟩
  have hrange : n ≤ 255 := UInt64.le_iff_toNat_le.mpr (hhi.trans h)
  simp [Slot.byte, byte, u64, hget, Value.asU64, Option.filter, hrange, toLE_one]

theorem reads_price :
    Reads payload ⟨key, id, 0x03, .integer 0 (2 ^ 32 - 1) 4⟩ (.price id key) := by
  refine ⟨rfl, rfl, ?_⟩
  rintro v data hget ⟨n, rfl, -, hhi, rfl⟩
  have hcast : n.toUInt32.toNat = n.toNat := by
    rw [UInt64.toNat_toUInt32, Nat.mod_eq_of_lt (by omega)]
  simp [Slot.price, price, u64, hget, Value.asU64, le32, hcast]

theorem reads_u64 :
    Reads payload ⟨key, id, 0x03, .integer 0 (2 ^ 64 - 1) 8⟩ (.u64 id key) := by
  refine ⟨rfl, rfl, ?_⟩
  rintro v data hget ⟨n, rfl, -, -, rfl⟩
  simp [Slot.u64, u64, hget, Value.asU64, le64]

theorem reads_float {bound : UInt64} :
    Reads payload ⟨key, id, 0x03, .float bound⟩ (.float id key) := by
  refine ⟨rfl, rfl, ?_⟩
  rintro v data hget ⟨x, hx, -, rfl⟩
  simp [Slot.float, float, hget, hx]

theorem reads_floatWithin {bound : UInt64} :
    Reads payload ⟨key, id, 0x03, .float bound⟩ (.floatWithin id key bound) := by
  refine ⟨rfl, rfl, ?_⟩
  rintro v data hget ⟨x, hx, hbound, rfl⟩
  simp [Slot.floatWithin, floatWithin, float, hget, hx, Option.filter, hbound]

/-- A filter that the body does not give is read by any slot of its field. -/
theorem reads_of_not_given {f : Filter} {s : Slot} (hid : s.id = f.id)
    (htype : s.fieldType = f.fieldType) (hnone : payload.given f.key = none) :
    Reads payload f s := by
  refine ⟨hid, htype, fun v data hget hsays => ?_⟩
  rw [given_of_kind hget hsays] at hnone
  cases hnone

end Slots

/-! ## The tables -/

section Tables

variable {payload : Value}

/-- The slots of SEARCHAVAIL read its filters. -/
theorem reads_searchAvail
    (h : ∀ s ∈ Command.searchAvail.required, (s.data payload).isSome) :
    List.Forall₂ (Reads payload) Command.searchAvail.documented
      (Command.searchAvail.required ++ Command.searchAvail.optional) := by
  have hsegment := h (.nonEmptyText 0x01 "segment") (by simp [Command.required])
  have hroomType := h (.nonEmptyText 0x02 "room_type") (by simp [Command.required])
  refine .cons (reads_nonEmptyText hsegment) ?_
  refine .cons (reads_nonEmptyText hroomType) ?_
  refine .cons reads_text ?_
  refine .cons reads_text ?_
  refine .cons reads_text ?_
  refine .cons (reads_byte (by decide)) ?_
  refine .cons reads_text ?_
  refine .cons reads_joined ?_
  refine .cons reads_float ?_
  refine .cons reads_float ?_
  refine .cons reads_joined ?_
  refine .cons (reads_byte le_rfl) ?_
  refine .cons reads_price ?_
  refine .cons reads_joined ?_
  exact .cons reads_u64 .nil

/-- The slots of SEARCHPROP read its filters, if there is no property type among them. -/
theorem reads_searchProp (h : payload.given "type" = none) :
    List.Forall₂ (Reads payload) Command.searchProp.documented
      (Command.searchProp.required ++ Command.searchProp.optional) := by
  refine .cons reads_text ?_
  refine .cons reads_text ?_
  refine .cons (reads_of_not_given rfl rfl h) ?_
  refine .cons reads_stars ?_
  refine .cons reads_text ?_
  refine .cons reads_joined ?_
  refine .cons reads_floatWithin ?_
  refine .cons reads_floatWithin ?_
  exact .cons reads_u64 .nil

theorem exists_of_forall₂ {α β : Type} {R : α → β → Prop} {as : List α} {bs : List β} {a : α}
    (h : List.Forall₂ R as bs) (ha : a ∈ as) : ∃ b ∈ bs, R a b := by
  induction h with
  | nil => cases ha
  | cons hab _ ih =>
    rcases List.mem_cons.mp ha with rfl | ha
    · exact ⟨_, List.mem_cons_self, hab⟩
    · obtain ⟨b, hb, hR⟩ := ih ha
      exact ⟨b, List.mem_cons_of_mem _ hb, hR⟩

/-- Of the fields of some slots with ids that increase, those with the id of a slot are its own. -/
theorem filter_fields {ss : List Slot} {s : Slot} (hids : (ss.map Slot.id).Pairwise (· < ·))
    (hs : s ∈ ss) :
    (ss.flatMap (Slot.fields payload)).filter (fun f => f.id = s.id) = s.fields payload := by
  have hself (t : Slot) : ∀ f ∈ t.fields payload, f.id = t.id := by
    intro f hf
    obtain ⟨data, -, rfl⟩ := Option.map_eq_some_iff.mp (Option.mem_toList.mp hf)
    rfl
  have hall (t : Slot) (ht : t.id = s.id) :
      (t.fields payload).filter (fun f => f.id = s.id) = t.fields payload :=
    List.filter_eq_self.mpr fun f hf => decide_eq_true ((hself t f hf).trans ht)
  have hnone (t : Slot) (ht : t.id ≠ s.id) :
      (t.fields payload).filter (fun f => f.id = s.id) = [] := by
    refine List.filter_eq_nil_iff.mpr fun f hf => ?_
    rw [hself t f hf]
    simpa using ht
  induction ss with
  | nil => cases hs
  | cons t ss ih =>
    rw [List.map_cons, List.pairwise_cons] at hids
    obtain ⟨hlt, hids⟩ := hids
    rw [List.flatMap_cons, List.filter_append]
    rcases List.mem_cons.mp hs with rfl | hs
    · have hrest : (ss.flatMap (Slot.fields payload)).filter (fun f => f.id = s.id) = [] := by
        refine List.filter_eq_nil_iff.mpr fun f hf => ?_
        obtain ⟨t, ht, hf⟩ := List.mem_flatMap.mp hf
        have := hlt t.id (List.mem_map_of_mem ht)
        rw [hself t f hf]
        simpa using (UInt16.ne_of_lt this).symm
      rw [hall s rfl, hrest, List.append_nil]
    · have := hlt s.id (List.mem_map_of_mem hs)
      rw [hnone t (UInt16.ne_of_lt this), ih hids hs, List.nil_append]

end Tables

/-! ## Searches -/

section Search

variable {c : Command} {payload : Value} {bs : Bytes}

/-- A key of a documented body is that of a filter, and its value is null or of its kind. -/
theorem Documented.exists_filter (h : Documented c payload) {key : String} {v : Value}
    (hget : payload.get key = some v) :
    ∃ f ∈ c.documented, f.key = key ∧ (v = .null ∨ ∃ data, f.kind.Says v data) := by
  obtain ⟨members, rfl, hmembers⟩ := h
  obtain ⟨_, _, rfl, -⟩ := List.lookup_eq_some_iff.mp hget
  exact hmembers (key, v) (by simp)

/-- A payload whose slots read the filters carries them. -/
theorem Command.Built.carries (h : c.Built payload bs) (hdoc : Documented c payload)
    (hkeys : (c.documented.map Filter.key).Nodup)
    (hreads : List.Forall₂ (Reads payload) c.documented (c.required ++ c.optional)) :
    Carries c payload bs := by
  refine ⟨h, fun f hf v hgiven => ?_⟩
  obtain ⟨hget, hne⟩ := get_of_given hgiven
  obtain ⟨f', hf', hkey, hv⟩ := hdoc.exists_filter hget
  obtain rfl : f' = f := List.inj_on_of_nodup_map hkeys hf' hf hkey
  obtain ⟨data, hsays⟩ := hv.resolve_left hne
  obtain ⟨s, hs, hid, htype, hdata⟩ := exists_of_forall₂ hreads hf
  refine ⟨data, hsays, ?_⟩
  have hfields : (c.fields payload).filter (fun g => g.id = s.id) = s.fields payload :=
    filter_fields c.pairwise_ids hs
  rw [hid] at hfields
  rw [hfields, Slot.fields, hdata v data hget hsays, hid, htype]
  rfl

/-- The payload of SEARCHPROP has no field for a documented property type. -/
theorem Carries.given_type (h : Carries .searchProp payload bs)
    (hdoc : Documented .searchProp payload) : payload.given "type" = none := by
  by_contra hne
  obtain ⟨v, hgiven⟩ := Option.ne_none_iff_exists'.mp hne
  -- the key that the handler looks for is not documented
  have hnone : payload.get "property_type" = none := by
    by_contra hne
    obtain ⟨v, hget⟩ := Option.ne_none_iff_exists'.mp hne
    obtain ⟨f, hf, hkey, -⟩ := hdoc.exists_filter hget
    have : ∀ f ∈ Command.searchProp.documented, f.key ≠ "property_type" := by
      simp [Command.documented]
    exact this f hf hkey
  obtain ⟨data, -, hfilter⟩ :=
    h.2 ⟨"type", 0x03, 0x01, .text⟩ (by simp [Command.documented]) v hgiven
  have hslot : Slot.text 0x03 "property_type" ∈
      Command.searchProp.required ++ Command.searchProp.optional := by
    simp [Command.required, Command.optional]
  have hfields : (Command.searchProp.fields payload).filter (fun g => g.id = 0x03) =
      (Slot.text 0x03 "property_type").fields payload :=
    filter_fields Command.searchProp.pairwise_ids hslot
  have hempty : (Slot.text 0x03 "property_type").fields payload = [] := by
    simp [Slot.fields, Slot.text, text, hnone]
  rw [hfields, hempty] at hfilter
  cases hfilter

/-- **A search carries all filters of a documented body** if and only if it is no SEARCHPROP with a
property type. -/
theorem carries_of_request {fromSlice : Bytes → Option Value} {body : Bytes}
    {p : Request × Decoder} (h : request fromSlice body = .ok p) :
    ∃ (c : Command) (json : Value), fromSlice body = some json ∧
      text json "command" = some c.name ∧
      (c = .searchProp ∨ c = .searchAvail → Documented c ((json.get "body").getD .null) →
        (Carries c ((json.get "body").getD .null) p.1.payload ↔
          (c = .searchProp → ((json.get "body").getD .null).given "type" = none))) := by
  obtain ⟨c, json, hjson, hcommand, hbuilt⟩ := built_of_request h
  refine ⟨c, json, hjson, hcommand, ?_⟩
  rintro (rfl | rfl) hdoc
  · constructor
    · exact fun hcarries _ => hcarries.given_type hdoc
    · exact fun htype => hbuilt.carries hdoc (by decide) (reads_searchProp (htype rfl))
  · refine iff_of_true ?_ fun hc => by cases hc
    exact hbuilt.carries hdoc (by decide) (reads_searchAvail hbuilt.2)

end Search

/-- A search for a suite, whatever its type. -/
theorem documented_suitePayload : Documented .searchAvail suitePayload := by
  refine ⟨_, rfl, ?_⟩
  simp only [List.forall_mem_cons, List.not_mem_nil, false_implies, implies_true, and_true]
  refine ⟨⟨⟨"segment", 0x01, 0x01, .text⟩, ?_, rfl, .inr ⟨_, _, rfl, rfl⟩⟩,
    ⟨⟨"room_type", 0x02, 0x01, .text⟩, ?_, rfl, .inr ⟨_, _, rfl, rfl⟩⟩,
    ⟨⟨"type", 0x05, 0x01, .text⟩, ?_, rfl, .inl trivial⟩,
    ⟨⟨"stars", 0x06, 0x02, .integer 1 5 1⟩, ?_, rfl,
      .inr ⟨_, 5, rfl, by decide, by decide, rfl⟩⟩,
    ⟨⟨"amenities", 0x08, 0x01, .strings⟩, ?_, rfl,
      .inr ⟨_, ["wifi", "pool"], by simp, rfl, rfl⟩⟩,
    ⟨⟨"longitude", 0x09, 0x03, .float f64OneEighty⟩, ?_, rfl,
      .inr ⟨_, _, rfl, by decide, rfl⟩⟩,
    ⟨⟨"final_price", 0x0D, 0x03, .integer 0 (2 ^ 32 - 1) 4⟩, ?_, rfl,
      .inr ⟨_, 300, rfl, by decide, by decide, rfl⟩⟩⟩ <;> simp [Command.documented]

theorem carries_of_request_suite :
    ∃ p, request parseSuite suiteBody = .ok p ∧ Carries .searchAvail suitePayload p.1.payload := by
  obtain ⟨p, hp, -⟩ := exists_request_suite
  obtain ⟨c, json, hjson, hc, hiff⟩ := carries_of_request hp
  obtain ⟨rfl, rfl⟩ := eq_of_parseSuite hjson hc
  exact ⟨p, hp, (hiff (.inr rfl) documented_suitePayload).mpr fun hc => by cases hc⟩

/-- **A search for hotels** goes out as one for all properties of the segment. -/
theorem not_forall_carries :
    ¬ ∀ (fromSlice : Bytes → Option Value) (body : Bytes) (p : Request × Decoder),
      request fromSlice body = .ok p →
      ∃ (c : Command) (json : Value), fromSlice body = some json ∧
        text json "command" = some c.name ∧
        (c = .searchProp ∨ c = .searchAvail → Documented c ((json.get "body").getD .null) →
          Carries c ((json.get "body").getD .null) p.1.payload) := by
  intro h
  have hp : ∃ p, request (fun _ => some (.object [("command", .string "SEARCHPROP"),
      ("segment", .string "DXB"), ("body", .object [("segment", .string "DXB"),
        ("type", .string "HOTEL")])])) [] = .ok p := by
    rw [request]
    exact ⟨_, rfl⟩
  obtain ⟨p, hp⟩ := hp
  obtain ⟨c, json, hjson, hc, hcarries⟩ := h _ _ p hp
  obtain rfl := Option.some.inj hjson
  have hname : Command.searchProp.name = c.name := Option.some.inj hc
  obtain rfl := Command.name_injective hname
  have hdoc : Documented .searchProp
      (.object [("segment", .string "DXB"), ("type", .string "HOTEL")]) := by
    refine ⟨_, rfl, ?_⟩
    simp only [List.forall_mem_cons, List.not_mem_nil, false_implies, implies_true, and_true]
    exact ⟨⟨⟨"segment", 0x01, 0x01, .text⟩, by simp [Command.documented], rfl,
        .inr ⟨_, _, rfl, rfl⟩⟩,
      ⟨⟨"type", 0x03, 0x01, .text⟩, by simp [Command.documented], rfl, .inr ⟨_, _, rfl, rfl⟩⟩⟩
  have hnone := (hcarries (.inl rfl) hdoc).given_type hdoc
  cases hnone

end RzProxy
