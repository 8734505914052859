import RzProxy.Processor.Request

/-!
# What a request says

The commands with the fields that they require and the fields that they may have, and the payload of
a request read back. Every handler puts together the payload of its command: its name, and the
fields whose values are in the body.

## Main definitions

* `Slot`: a field of a command, with the value that it has in a body
* `Command`, `Command.fields`: the commands, and the fields of a command for a body
* `takeRequest`: a payload read back
* `Encodes`: a payload says the command and its fields

## Main results

* `takeRequest_fields`: the payload of a command is read back
* `Builder.Holds.patch_fieldCount`: what is put together field by field is the payload of a command
* `built_of_request`: every handler puts together the payload of its command
* `encodes_of_request`: every request says its command and the fields for its body
-/

namespace RzProxy

open ByteString Evaluation

/-! ## Slots -/

/-- A field of a command: its id and type, and its data for a body. -/
structure Slot where
  id : UInt16
  fieldType : UInt8
  data : Value → Option Bytes

namespace Slot

variable (id : UInt16) (key : String)

def text : Slot := ⟨id, 0x01, fun payload => (RzProxy.text payload key).map utf8⟩

def nonEmptyText : Slot := ⟨id, 0x01, fun payload => (RzProxy.nonEmptyText payload key).map utf8⟩

/-- The strings of an array, separated by commas, if there are any. -/
def joined : Slot :=
  ⟨id, 0x01, fun payload =>
    if stringsOf payload key = [] then none else some (commaSeparated (stringsOf payload key))⟩

/-- The strings of an array, separated by commas: no bytes if there are none. -/
def joinedAlways : Slot := ⟨id, 0x01, fun payload => some (commaSeparated (stringsOf payload key))⟩

def byte : Slot := ⟨id, 0x02, fun payload => (RzProxy.byte payload key).map ([·])⟩

def stars : Slot := ⟨id, 0x02, fun payload => (RzProxy.stars payload key).map ([·])⟩

def price : Slot := ⟨id, 0x03, fun payload => (RzProxy.price payload key).map le32⟩

def u64 : Slot := ⟨id, 0x03, fun payload => (RzProxy.u64 payload key).map le64⟩

def float : Slot := ⟨id, 0x03, fun payload => (RzProxy.float payload key).map le64⟩

def floatWithin (b : UInt64) : Slot :=
  ⟨id, 0x03, fun payload => (RzProxy.floatWithin payload key b).map le64⟩

/-- The field, if it has data. -/
def fields (payload : Value) (s : Slot) : List Field :=
  ((s.data payload).map (Field.mk s.id s.fieldType)).toList

end Slot

/-! ## Commands -/

inductive Command
  | setProp
  | propExist
  | searchProp
  | setRoomPkg
  | setRoomAvl
  | incRoomAvl
  | decRoomAvl
  | delRoomDay
  | propRoomExist
  | getPropRoomDay
  | propRoomDateList
  | delPropRoom
  | searchAvail
  | propRoomList
  | delProp
  | delSegment
  | delPropDay
  | getSegments
  | getCodecs
  deriving DecidableEq

namespace Command

def name : Command → String
  | setProp => "SETPROP"
  | propExist => "PROPEXIST"
  | searchProp => "SEARCHPROP"
  | setRoomPkg => "SETROOMPKG"
  | setRoomAvl => "SETROOMAVL"
  | incRoomAvl => "INCROOMAVL"
  | decRoomAvl => "DECROOMAVL"
  | delRoomDay => "DELROOMDAY"
  | propRoomExist => "PROPROOMEXIST"
  | getPropRoomDay => "GETPROPROOMDAY"
  | propRoomDateList => "PROPROOMDATELIST"
  | delPropRoom => "DELPROPROOM"
  | searchAvail => "SEARCHAVAIL"
  | propRoomList => "PROPROOMLIST"
  | delProp => "DELPROP"
  | delSegment => "DELSEGMENT"
  | delPropDay => "DELPROPDAY"
  | getSegments => "GETSEGMENTS"
  | getCodecs => "GETCODECS"

/-- The fields that a command has always. -/
def required : Command → List Slot
  | setProp =>
    [.text 0x01 "segment", .text 0x02 "area", .text 0x03 "property_id", .text 0x04 "property_type",
      .text 0x05 "category", .stars 0x06 "stars", .floatWithin 0x07 "latitude" f64Ninety,
      .floatWithin 0x08 "longitude" f64OneEighty, .joinedAlways 0x09 "amenities"]
  | searchProp => [.text 0x01 "segment"]
  | searchAvail => [.nonEmptyText 0x01 "segment", .nonEmptyText 0x02 "room_type"]
  | setRoomAvl | incRoomAvl | decRoomAvl =>
    [.nonEmptyText 0x01 "property_id", .nonEmptyText 0x02 "room_type", .nonEmptyText 0x03 "date",
      .byte 0x04 "amount"]
  | setRoomPkg | delRoomDay | getPropRoomDay =>
    [.nonEmptyText 0x01 "property_id", .nonEmptyText 0x02 "room_type", .nonEmptyText 0x03 "date"]
  | propRoomExist | propRoomDateList | delPropRoom =>
    [.nonEmptyText 0x01 "property_id", .nonEmptyText 0x02 "room_type"]
  | delPropDay => [.nonEmptyText 0x01 "property_id", .nonEmptyText 0x02 "date"]
  | propExist | propRoomList | delProp => [.nonEmptyText 0x01 "property_id"]
  | delSegment => [.nonEmptyText 0x01 "segment"]
  | getSegments | getCodecs => []

/-- The fields that a command has when their values are in the body. -/
def optional : Command → List Slot
  | searchProp =>
    [.text 0x02 "area", .text 0x03 "property_type", .stars 0x04 "stars", .text 0x05 "category",
      .joined 0x06 "amenities", .floatWithin 0x07 "longitude" f64OneEighty,
      .floatWithin 0x08 "latitude" f64Ninety, .u64 0x09 "limit"]
  | setRoomPkg =>
    [.byte 0x04 "availability", .price 0x05 "final_price", .joined 0x06 "rate_features"]
  | searchAvail =>
    [.text 0x03 "area", .text 0x04 "property_id", .text 0x05 "type", .byte 0x06 "stars",
      .text 0x07 "category", .joined 0x08 "amenities", .float 0x09 "longitude",
      .float 0x0A "latitude", .joined 0x0B "date", .byte 0x0C "availability",
      .price 0x0D "final_price", .joined 0x0E "rate_features", .u64 0x0F "limit"]
  | _ => []

/-- The fields of a command for a body. -/
def fields (c : Command) (payload : Value) : List Field :=
  (c.required ++ c.optional).flatMap (Slot.fields payload)

end Command

/-- A payload: the name of its command, and as many fields as it announces, to the last byte. -/
def takeRequest (bs : Bytes) : Option (Bytes × List Field) :=
  match takeHead bs with
  | none => none
  | some (name, fieldCount, rest) =>
    match takeFields fieldCount.toNat rest with
    | some (fs, []) => some (name, fs)
    | _ => none

/-- The payload says the command and its fields for a body: those that it requires are there, and
the ids increase. -/
structure Encodes (c : Command) (payload : Value) (bs : Bytes) : Prop where
  takeRequest_eq : takeRequest bs = some (utf8 c.name, c.fields payload)
  isSome_required : ∀ s ∈ c.required, (s.data payload).isSome
  increasing : ((c.fields payload).map Field.id).Pairwise (· < ·)

/-! ## What the tables say -/

/-- A command is known by its name. -/
theorem Command.name_injective : Function.Injective Command.name := by
  intro c c' h
  revert h
  cases c <;> cases c' <;> decide

theorem Slot.ids_sublist (payload : Value) (ss : List Slot) :
    ((ss.flatMap (Slot.fields payload)).map Field.id).Sublist (ss.map Slot.id) := by
  induction ss with
  | nil => exact .slnil
  | cons s ss ih =>
    rw [List.flatMap_cons, List.map_append, List.map_cons]
    cases hd : s.data payload with
    | none => simpa [Slot.fields, hd] using ih.cons s.id
    | some data => simpa [Slot.fields, hd] using ih

theorem Command.pairwise_ids (c : Command) :
    ((c.required ++ c.optional).map Slot.id).Pairwise (· < ·) := by
  cases c <;> decide

/-- The ids of the fields of a command increase. -/
theorem Command.increasing (c : Command) (payload : Value) :
    ((c.fields payload).map Field.id).Pairwise (· < ·) :=
  c.pairwise_ids.sublist (Slot.ids_sublist payload _)

theorem Command.length_fields_le (c : Command) (payload : Value) :
    (c.fields payload).length ≤ 15 := by
  have h : ((c.required ++ c.optional).map Slot.id).length ≤ 15 := by cases c <;> decide
  have := (Slot.ids_sublist payload (c.required ++ c.optional)).length_le
  rw [List.length_map] at this
  exact this.trans h

/-- The data of a slot fits a field. -/
def Slot.Short (s : Slot) : Prop :=
  ∀ payload : Value, payload.Fits → ∀ data, s.data payload = some data → data.length < 2 ^ 32

namespace Slot

variable (id : UInt16) (key : String)

theorem short_text : (text id key).Short := by
  intro payload h data hd
  obtain ⟨s, hs, rfl⟩ := Option.map_eq_some_iff.mp hd
  exact length_utf8_text h hs

theorem short_nonEmptyText : (nonEmptyText id key).Short := by
  intro payload h data hd
  obtain ⟨s, hs, rfl⟩ := Option.map_eq_some_iff.mp hd
  exact length_utf8_nonEmptyText h hs

theorem short_joined : (joined id key).Short := by
  intro payload h data hd
  obtain ⟨-, hd⟩ := Option.ite_none_left_eq_some.mp hd
  obtain rfl := Option.some.inj hd
  exact length_commaSeparated h

theorem short_joinedAlways : (joinedAlways id key).Short := by
  intro payload h data hd
  obtain rfl := Option.some.inj hd
  exact length_commaSeparated h

/-- The data of a fixed width fits. -/
theorem short_of_length {α : Type} {f : Value → Option α} {g : α → Bytes} {w : ℕ} (id : UInt16)
    (fieldType : UInt8) (hg : ∀ a, (g a).length = w) (hw : w < 2 ^ 32) :
    Short ⟨id, fieldType, fun payload => (f payload).map g⟩ := by
  intro payload _ data hd
  obtain ⟨a, -, rfl⟩ := Option.map_eq_some_iff.mp hd
  rw [hg]
  exact hw

theorem short_byte : (byte id key).Short := short_of_length id 0x02 (fun _ => rfl) (by decide)

theorem short_stars : (stars id key).Short := short_of_length id 0x02 (fun _ => rfl) (by decide)

theorem short_price : (price id key).Short := short_of_length id 0x03 length_le32 (by decide)

theorem short_u64 : (u64 id key).Short := short_of_length id 0x03 length_le64 (by decide)

theorem short_float : (float id key).Short := short_of_length id 0x03 length_le64 (by decide)

theorem short_floatWithin (b : UInt64) : (floatWithin id key b).Short :=
  short_of_length id 0x03 length_le64 (by decide)

end Slot

/-- The fields of a command fit, if the strings of the body do. -/
theorem Command.fits (c : Command) {payload : Value} (h : payload.Fits) :
    ∀ f ∈ c.fields payload, f.Fits := by
  have hshort : ∀ s ∈ c.required ++ c.optional, s.Short := by
    cases c <;> simp [Command.required, Command.optional, Slot.short_text, Slot.short_nonEmptyText,
      Slot.short_joined, Slot.short_joinedAlways, Slot.short_byte, Slot.short_stars,
      Slot.short_price, Slot.short_u64, Slot.short_float, Slot.short_floatWithin]
  intro f hf
  obtain ⟨s, hs, hf⟩ := List.mem_flatMap.mp hf
  obtain ⟨data, hd, rfl⟩ := Option.map_eq_some_iff.mp (Option.mem_toList.mp hf)
  exact hshort s hs payload h data hd

/-! ## Payloads read back -/

theorem pushField_eq (buf : Bytes) (id : UInt16) (typ : UInt8) (data : Bytes) :
    pushField buf id typ data = buf ++ (Field.mk id typ data).bytes := by
  simp [pushField, Field.bytes]

/-- The payload of a command, with its fields for a body. -/
theorem takeRequest_fields (c : Command) {payload : Value} (h : payload.Fits) :
    takeRequest (commandName c.name ++ le16 (UInt16.ofNat (c.fields payload).length) ++
      (c.fields payload).flatMap Field.bytes) = some (utf8 c.name, c.fields payload) := by
  have hname : (utf8 c.name).length < 256 := by cases c <;> decide
  have hcount : (UInt16.ofNat (c.fields payload).length).toNat = (c.fields payload).length := by
    have := c.length_fields_le payload
    rw [UInt16.toNat_ofNat', Nat.mod_eq_of_lt (by omega)]
  have hread := takeFields_flatMap (c.fits h) []
  rw [List.append_nil] at hread
  rw [takeRequest, commandName, List.cons_append, ← headBytes, takeHead_headBytes hname]
  simp only [hcount, hread]

/-- The builder holds the fields of some slots for a body. -/
structure Builder.Holds (b : Builder) (cmdName : String) (payload : Value) (ss : List Slot) :
    Prop where
  buf_eq : b.buf =
    commandName cmdName ++ le16 0 ++ (ss.flatMap (Slot.fields payload)).flatMap Field.bytes
  fieldCountPos_eq : b.fieldCountPos = (commandName cmdName).length
  fieldCount_eq : b.fieldCount = UInt16.ofNat (ss.flatMap (Slot.fields payload)).length

namespace Builder

variable {b : Builder} {cmdName : String} {payload : Value} {ss : List Slot}

theorem holds_start (cmdName : String) (payload : Value) :
    (start cmdName).Holds cmdName payload [] where
  buf_eq := by simp [start]
  fieldCountPos_eq := rfl
  fieldCount_eq := rfl

theorem Holds.addField (h : b.Holds cmdName payload ss) (s : Slot) {data : Bytes}
    (hd : s.data payload = some data) :
    (b.addField s.id s.fieldType data).Holds cmdName payload (ss ++ [s]) where
  buf_eq := by
    simp [Builder.addField, pushField_eq, h.buf_eq, Slot.fields, hd]
  fieldCountPos_eq := h.fieldCountPos_eq
  fieldCount_eq := by
    have hf : s.fields payload = [⟨s.id, s.fieldType, data⟩] := by simp [Slot.fields, hd]
    rw [List.flatMap_append, List.flatMap_singleton, hf, List.length_append, UInt16.ofNat_add,
      ← h.fieldCount_eq]
    rfl

theorem Holds.addSome (h : b.Holds cmdName payload ss) (s : Slot) :
    (b.addSome s.id s.fieldType (s.data payload)).Holds cmdName payload (ss ++ [s]) := by
  cases hd : s.data payload with
  | some data => exact h.addField s hd
  | none =>
    have hf : (ss ++ [s]).flatMap (Slot.fields payload) = ss.flatMap (Slot.fields payload) := by
      simp [Slot.fields, hd]
    exact ⟨by rw [hf]; exact h.buf_eq, h.fieldCountPos_eq, by rw [hf]; exact h.fieldCount_eq⟩

/-- The placeholder is written over, and nothing else. -/
theorem Holds.patch_eq (h : b.Holds cmdName payload ss) {count : Bytes} (hc : count.length = 2) :
    b.patch count =
      commandName cmdName ++ count ++ (ss.flatMap (Slot.fields payload)).flatMap Field.bytes := by
  match count, hc with
  | [lo, hi], _ =>
    rw [patch, h.buf_eq, h.fieldCountPos_eq]
    simp [le16, toLE]

end Builder

/-! ## Handlers -/

/-- The payload is that of a command for a body that has what the command requires. -/
def Command.Built (c : Command) (payload : Value) (bs : Bytes) : Prop :=
  bs = commandName c.name ++ le16 (UInt16.ofNat (c.fields payload).length) ++
      (c.fields payload).flatMap Field.bytes ∧
    ∀ s ∈ c.required, (s.data payload).isSome

theorem Command.Built.encodes {c : Command} {payload : Value} {bs : Bytes}
    (h : c.Built payload bs) (hfits : payload.Fits) : Encodes c payload bs where
  takeRequest_eq := by rw [h.1, takeRequest_fields c hfits]
  isSome_required := h.2
  increasing := c.increasing payload

theorem exists_of_bind {α β : Type} {x : Except RZError α} {f : α → Except RZError β} {r : β}
    (h : (x >>= f) = .ok r) : ∃ a, x = .ok a ∧ f a = .ok r := by
  cases x with
  | error e => cases h
  | ok a => exact ⟨a, rfl, h⟩

/-- A value that is required is there. -/
theorem exists_of_required {α β : Type} {message : String} {o : Option α} {f : α → Except RZError β}
    {r : β} (h : (required message o >>= f) = .ok r) : ∃ a, o = some a ∧ f a = .ok r := by
  cases o with
  | none => cases h
  | some a => exact ⟨a, rfl, h⟩

/-- The count that is kept is that of the fields. -/
theorem Builder.Holds.patch_fieldCount {b : Builder} {payload : Value} {ss : List Slot}
    (c : Command) (h : b.Holds c.name payload ss) (hs : ss = c.required ++ c.optional) :
    b.patch (le16 b.fieldCount) =
      commandName c.name ++ le16 (UInt16.ofNat (c.fields payload).length) ++
        (c.fields payload).flatMap Field.bytes := by
  subst hs
  rw [h.patch_eq (length_le16 _), h.fieldCount_eq]
  rfl

theorem built_setProp {seg : String} {payload : Value} {p : Request × Decoder}
    (h : processSetProp seg payload = .ok p) : Command.setProp.Built payload p.1.payload := by
  obtain ⟨segment, hsegment, h⟩ := exists_of_required h
  obtain ⟨area, harea, h⟩ := exists_of_required h
  obtain ⟨propertyId, hpropertyId, h⟩ := exists_of_required h
  obtain ⟨propertyType, hpropertyType, h⟩ := exists_of_required h
  obtain ⟨category, hcategory, h⟩ := exists_of_required h
  obtain ⟨stars, hstars, h⟩ := exists_of_required h
  obtain ⟨latitude, hlatitude, h⟩ := exists_of_required h
  obtain ⟨longitude, hlongitude, h⟩ := exists_of_required h
  obtain rfl := Except.ok.inj h
  constructor
  · have hb := Builder.holds_start "SETPROP" payload
    have hb := hb.addField (.text 0x01 "segment") (congrArg (Option.map utf8) hsegment)
    have hb := hb.addField (.text 0x02 "area") (congrArg (Option.map utf8) harea)
    have hb := hb.addField (.text 0x03 "property_id") (congrArg (Option.map utf8) hpropertyId)
    have hb := hb.addField (.text 0x04 "property_type") (congrArg (Option.map utf8) hpropertyType)
    have hb := hb.addField (.text 0x05 "category") (congrArg (Option.map utf8) hcategory)
    have hb := hb.addField (.stars 0x06 "stars") (congrArg (Option.map ([·])) hstars)
    have hb := hb.addField (.floatWithin 0x07 "latitude" f64Ninety)
      (congrArg (Option.map le64) hlatitude)
    have hb := hb.addField (.floatWithin 0x08 "longitude" f64OneEighty)
      (congrArg (Option.map le64) hlongitude)
    have hb := hb.addField (.joinedAlways 0x09 "amenities")
      (congrArg some (utf8_join (stringsOf payload "amenities")).symm)
    have hbuf := hb.patch_fieldCount .setProp (by simp [Command.required, Command.optional])
    dsimp only [Slot.text, Slot.stars, Slot.floatWithin, Slot.joinedAlways] at hbuf ⊢
    exact hbuf
  · simp [Command.required, Slot.text, Slot.stars, Slot.floatWithin, Slot.joinedAlways, hsegment,
      harea, hpropertyId, hpropertyType, hcategory, hstars, hlatitude, hlongitude]

/-- Strings that are added when there are any. -/
theorem addSome_joined (b : Builder) (id : UInt16) (payload : Value) (key : String) :
    (if stringsOf payload key = [] then b
      else b.addField id 0x01 (utf8 (join (stringsOf payload key)))) =
      b.addSome id 0x01 ((Slot.joined id key).data payload) := by
  by_cases h : stringsOf payload key = [] <;> simp [h, Slot.joined, utf8_join, Builder.addSome]

/-- The same, where they are joined first. -/
theorem addSome_map_joined (b : Builder) (id : UInt16) (payload : Value) (key : String) :
    b.addSome id 0x01 ((joined payload key).map utf8) =
      b.addSome id 0x01 ((Slot.joined id key).data payload) := by
  rw [← addSome_joined]
  unfold joined stringsOf
  cases (payload.get key).bind Value.asArray with
  | none => rfl
  | some items => by_cases h : strings items = [] <;> simp [h, Builder.addSome]

theorem built_searchProp {seg : String} {payload : Value} {p : Request × Decoder}
    (h : processSearchProp seg payload = .ok p) :
    Command.searchProp.Built payload p.1.payload := by
  obtain ⟨segment, hsegment, h⟩ := exists_of_required h
  simp only [addSome_joined] at h
  obtain rfl := Except.ok.inj h
  constructor
  · have hb := Builder.holds_start "SEARCHPROP" payload
    have hb := hb.addField (.text 0x01 "segment") (congrArg (Option.map utf8) hsegment)
    have hb := hb.addSome (.text 0x02 "area")
    have hb := hb.addSome (.text 0x03 "property_type")
    have hb := hb.addSome (.stars 0x04 "stars")
    have hb := hb.addSome (.text 0x05 "category")
    have hb := hb.addSome (.joined 0x06 "amenities")
    have hb := hb.addSome (.floatWithin 0x07 "longitude" f64OneEighty)
    have hb := hb.addSome (.floatWithin 0x08 "latitude" f64Ninety)
    have hb := hb.addSome (.u64 0x09 "limit")
    have hbuf := hb.patch_fieldCount .searchProp (by simp [Command.required, Command.optional])
    dsimp only [Slot.text, Slot.stars, Slot.joined, Slot.floatWithin, Slot.u64] at hbuf ⊢
    exact hbuf
  · simp [Command.required, Slot.text, hsegment]

theorem built_setRoomPkg {seg : String} {payload : Value} {p : Request × Decoder}
    (h : processSetRoomPkg seg payload = .ok p) :
    Command.setRoomPkg.Built payload p.1.payload := by
  obtain ⟨propertyId, hpropertyId, h⟩ := exists_of_required h
  obtain ⟨roomType, hroomType, h⟩ := exists_of_required h
  obtain ⟨date, hdate, h⟩ := exists_of_required h
  simp only [addSome_map_joined] at h
  obtain rfl := Except.ok.inj h
  constructor
  · have hb := Builder.holds_start "SETROOMPKG" payload
    have hb := hb.addField (.nonEmptyText 0x01 "property_id")
      (congrArg (Option.map utf8) hpropertyId)
    have hb := hb.addField (.nonEmptyText 0x02 "room_type") (congrArg (Option.map utf8) hroomType)
    have hb := hb.addField (.nonEmptyText 0x03 "date") (congrArg (Option.map utf8) hdate)
    have hb := hb.addSome (.byte 0x04 "availability")
    have hb := hb.addSome (.price 0x05 "final_price")
    have hb := hb.addSome (.joined 0x06 "rate_features")
    have hbuf := hb.patch_fieldCount .setRoomPkg (by simp [Command.required, Command.optional])
    dsimp only [Slot.nonEmptyText, Slot.byte, Slot.price, Slot.joined] at hbuf ⊢
    exact hbuf
  · simp [Command.required, Slot.nonEmptyText, hpropertyId, hroomType, hdate]

theorem built_searchAvail {seg : String} {payload : Value} {p : Request × Decoder}
    (h : processSearchAvail seg payload = .ok p) :
    Command.searchAvail.Built payload p.1.payload := by
  obtain ⟨segment, hsegment, h⟩ := exists_of_required h
  obtain ⟨roomType, hroomType, h⟩ := exists_of_required h
  simp only [addSome_map_joined] at h
  obtain rfl := Except.ok.inj h
  constructor
  · have hb := Builder.holds_start "SEARCHAVAIL" payload
    have hb := hb.addField (.nonEmptyText 0x01 "segment") (congrArg (Option.map utf8) hsegment)
    have hb := hb.addField (.nonEmptyText 0x02 "room_type") (congrArg (Option.map utf8) hroomType)
    have hb := hb.addSome (.text 0x03 "area")
    have hb := hb.addSome (.text 0x04 "property_id")
    have hb := hb.addSome (.text 0x05 "type")
    have hb := hb.addSome (.byte 0x06 "stars")
    have hb := hb.addSome (.text 0x07 "category")
    have hb := hb.addSome (.joined 0x08 "amenities")
    have hb := hb.addSome (.float 0x09 "longitude")
    have hb := hb.addSome (.float 0x0A "latitude")
    have hb := hb.addSome (.joined 0x0B "date")
    have hb := hb.addSome (.byte 0x0C "availability")
    have hb := hb.addSome (.price 0x0D "final_price")
    have hb := hb.addSome (.joined 0x0E "rate_features")
    have hb := hb.addSome (.u64 0x0F "limit")
    have hbuf := hb.patch_fieldCount .searchAvail (by simp [Command.required, Command.optional])
    dsimp only [Slot.nonEmptyText, Slot.text, Slot.byte, Slot.price, Slot.joined, Slot.float,
      Slot.u64] at hbuf ⊢
    exact hbuf
  · simp [Command.required, Slot.nonEmptyText, hsegment, hroomType]

/-- The handlers that take an amount: their count is always that of the four fields. -/
theorem built_amount {c : Command} {seg : String} {payload : Value} {p : Request × Decoder}
    (hr : c.required = [.nonEmptyText 0x01 "property_id", .nonEmptyText 0x02 "room_type",
      .nonEmptyText 0x03 "date", .byte 0x04 "amount"])
    (ho : c.optional = []) (h : processAmount c.name seg payload = .ok p) :
    c.Built payload p.1.payload := by
  obtain ⟨propertyId, hpropertyId, h⟩ := exists_of_required h
  obtain ⟨roomType, hroomType, h⟩ := exists_of_required h
  obtain ⟨date, hdate, h⟩ := exists_of_required h
  obtain ⟨amount, hamount, h⟩ := exists_of_required h
  obtain rfl := Except.ok.inj h
  constructor
  · have hb := Builder.holds_start c.name payload
    have hb := hb.addField (.nonEmptyText 0x01 "property_id")
      (congrArg (Option.map utf8) hpropertyId)
    have hb := hb.addField (.nonEmptyText 0x02 "room_type") (congrArg (Option.map utf8) hroomType)
    have hb := hb.addField (.nonEmptyText 0x03 "date") (congrArg (Option.map utf8) hdate)
    have hb := hb.addField (.byte 0x04 "amount") (congrArg (Option.map ([·])) hamount)
    have hbuf := hb.patch_eq (show ([4, 0] : Bytes).length = 2 from rfl)
    have hlen : (c.fields payload).length = 4 := by
      simp [Command.fields, hr, ho, Slot.fields, Slot.nonEmptyText, Slot.byte, hpropertyId,
        hroomType, hdate, hamount]
    have hcount : le16 (UInt16.ofNat (c.fields payload).length) = [4, 0] := by
      rw [hlen]
      rfl
    rw [hcount, Command.fields, hr, ho]
    dsimp only [Slot.nonEmptyText, Slot.byte] at hbuf ⊢
    exact hbuf
  · simp [hr, Slot.nonEmptyText, Slot.byte, hpropertyId, hroomType, hdate, hamount]

/-- The strings that are read are those of the slots. -/
theorem fields_of_mapM {payload : Value} {keys : List (UInt16 × String)}
    {texts : List (UInt16 × String)}
    (h : (keys.mapM fun key => do
      let s ← required (key.2 ++ " is required") (nonEmptyText payload key.2)
      return (key.1, s)) = .ok texts) :
    (keys.map fun key => Slot.nonEmptyText key.1 key.2).flatMap (Slot.fields payload) =
        texts.map (fun t => ⟨t.1, 0x01, utf8 t.2⟩) ∧
      (∀ key ∈ keys, (nonEmptyText payload key.2).isSome) ∧ texts.length = keys.length := by
  -- induction on the keys: each is required, and gives one field
  induction keys generalizing texts with
  | nil =>
    obtain rfl := Except.ok.inj h
    exact ⟨rfl, by simp, rfl⟩
  | cons key keys ih =>
    rw [List.mapM_cons] at h
    obtain ⟨text, htext, h⟩ := exists_of_bind h
    obtain ⟨s, hs, htext⟩ := exists_of_required htext
    obtain rfl := Except.ok.inj htext
    obtain ⟨texts', htexts, h⟩ := exists_of_bind h
    obtain rfl := Except.ok.inj h
    obtain ⟨hfields, hsome, hlen⟩ := ih htexts
    refine ⟨?_, ?_, ?_⟩
    · rw [List.map_cons, List.flatMap_cons, hfields]
      simp [Slot.fields, Slot.nonEmptyText, hs]
    · rw [List.forall_mem_cons]
      exact ⟨by rw [hs]; rfl, hsome⟩
    · rw [List.length_cons, List.length_cons, hlen]

theorem foldl_pushField (texts : List (UInt16 × String)) (buf : Bytes) :
    texts.foldl (fun buf t => pushField buf t.1 0x01 (utf8 t.2)) buf =
      buf ++ (texts.map fun t => Field.mk t.1 0x01 (utf8 t.2)).flatMap Field.bytes := by
  induction texts generalizing buf with
  | nil => simp
  | cons t texts ih =>
    rw [List.foldl_cons, ih, pushField_eq, List.map_cons, List.flatMap_cons, List.append_assoc]

/-- The handlers that take strings: their count is that of the keys. -/
theorem built_texts {c : Command} {isWrite : Bool} {fieldCount : UInt16}
    {keys : List (UInt16 × String)} {decoder : Decoder} {seg : String} {payload : Value}
    {p : Request × Decoder} (hc : fieldCount = UInt16.ofNat keys.length)
    (hr : c.required = keys.map fun key => Slot.nonEmptyText key.1 key.2) (ho : c.optional = [])
    (h : processTexts c.name isWrite fieldCount keys decoder seg payload = .ok p) :
    c.Built payload p.1.payload := by
  obtain ⟨texts, htexts, h⟩ := exists_of_bind h
  obtain rfl := Except.ok.inj h
  obtain ⟨hfields, hsome, hlen⟩ := fields_of_mapM htexts
  have hf : c.fields payload = texts.map fun t => ⟨t.1, 0x01, utf8 t.2⟩ := by
    rw [Command.fields, hr, ho, List.append_nil, hfields]
  constructor
  · rw [hf, foldl_pushField, List.length_map, hlen, ← hc]
  · rw [hr, List.forall_mem_map]
    intro key hkey
    rw [Slot.nonEmptyText, Option.isSome_map]
    exact hsome key hkey

theorem built_getSegments {payload : Value} {p : Request × Decoder}
    (h : processGetSegments payload = .ok p) :
    Command.getSegments.Built payload p.1.payload := by
  rw [processGetSegments] at h
  split_ifs at h
  obtain rfl := Except.ok.inj h
  exact ⟨by simp [Command.fields, Command.required, Command.optional, Command.name],
    by simp [Command.required]⟩

theorem built_getCodecs : Command.getCodecs.Built .null codecsRequest.payload :=
  ⟨by simp [Command.fields, Command.required, Command.optional, codecsRequest, Command.name],
    by simp [Command.required]⟩

/-- **Every handler puts together the payload of its command.** -/
theorem built_of_request {fromSlice : Bytes → Option Value} {body : Bytes} {p : Request × Decoder}
    (h : request fromSlice body = .ok p) :
    ∃ (c : Command) (json : Value), fromSlice body = some json ∧
      text json "command" = some c.name ∧
      c.Built ((json.get "body").getD .null) p.1.payload := by
  obtain ⟨json, hjson, h⟩ := exists_of_required h
  obtain ⟨command, hcommand, h⟩ := exists_of_required h
  obtain ⟨segment, -, h⟩ := exists_of_required h
  dsimp only at h
  split at h
  · exact ⟨.setProp, json, hjson, hcommand, built_setProp h⟩
  · exact ⟨.propExist, json, hjson, hcommand, built_texts rfl rfl rfl h⟩
  · exact ⟨.searchProp, json, hjson, hcommand, built_searchProp h⟩
  · exact ⟨.setRoomPkg, json, hjson, hcommand, built_setRoomPkg h⟩
  · exact ⟨.setRoomAvl, json, hjson, hcommand, built_amount rfl rfl h⟩
  · exact ⟨.incRoomAvl, json, hjson, hcommand, built_amount rfl rfl h⟩
  · exact ⟨.decRoomAvl, json, hjson, hcommand, built_amount rfl rfl h⟩
  · exact ⟨.delRoomDay, json, hjson, hcommand, built_texts rfl rfl rfl h⟩
  · exact ⟨.propRoomExist, json, hjson, hcommand, built_texts rfl rfl rfl h⟩
  · exact ⟨.getPropRoomDay, json, hjson, hcommand, built_texts rfl rfl rfl h⟩
  · exact ⟨.propRoomDateList, json, hjson, hcommand, built_texts rfl rfl rfl h⟩
  · exact ⟨.delPropRoom, json, hjson, hcommand, built_texts rfl rfl rfl h⟩
  · exact ⟨.searchAvail, json, hjson, hcommand, built_searchAvail h⟩
  · exact ⟨.propRoomList, json, hjson, hcommand, built_texts rfl rfl rfl h⟩
  · exact ⟨.delProp, json, hjson, hcommand, built_texts rfl rfl rfl h⟩
  · exact ⟨.delSegment, json, hjson, hcommand, built_texts rfl rfl rfl h⟩
  · exact ⟨.delPropDay, json, hjson, hcommand, built_texts rfl rfl rfl h⟩
  · exact ⟨.getSegments, json, hjson, hcommand, built_getSegments h⟩
  · cases h

/-- **A request says its command and the fields for its body**, as does the one for the codecs: read
back, the payload is the name of the command and its fields, to the last byte. -/
theorem encodes_of_request (fromSlice : Bytes → Option Value) (body : Bytes) :
    (∀ p, request fromSlice body = .ok p → ∃ (c : Command) (json : Value),
      fromSlice body = some json ∧ text json "command" = some c.name ∧
      (((json.get "body").getD .null).Fits →
        Encodes c ((json.get "body").getD .null) p.1.payload)) ∧
    Encodes .getCodecs .null codecsRequest.payload := by
  constructor
  · intro p h
    obtain ⟨c, json, hjson, hcommand, hbuilt⟩ := built_of_request h
    exact ⟨c, json, hjson, hcommand, hbuilt.encodes⟩
  · exact built_getCodecs.encodes fun key v h => by cases h

/-- A body, and what it is parsed to. -/
def suiteBody : Bytes :=
  utf8 ("\x7b\"command\":\"SEARCHAVAIL\",\"segment\":\"eu\",\"body\":\x7b\"segment\":\"eu\"," ++
    "\"room_type\":\"suite\",\"type\":null,\"stars\":5,\"amenities\":[\"wifi\",\"pool\"]," ++
    "\"longitude\":55.25,\"final_price\":300\x7d\x7d")

def suitePayload : Value :=
  .object [("segment", .string "eu"), ("room_type", .string "suite"), ("type", .null),
    ("stars", .number (.posInt 5)), ("amenities", .array [.string "wifi", .string "pool"]),
    ("longitude", .number (.float 0x404BA00000000000)), ("final_price", .number (.posInt 300))]

def suiteJson : Value :=
  .object [("command", .string "SEARCHAVAIL"), ("segment", .string "eu"), ("body", suitePayload)]

def parseSuite (body : Bytes) : Option Value := if body = suiteBody then some suiteJson else none

/-- The payload of the request: six fields, the amenities with a comma between them. -/
def suiteBytes : Bytes :=
  [11, 83, 69, 65, 82, 67, 72, 65, 86, 65, 73, 76, 6, 0] ++
  [1, 0, 1, 2, 0, 0, 0, 101, 117] ++
  [2, 0, 1, 5, 0, 0, 0, 115, 117, 105, 116, 101] ++
  [6, 0, 2, 1, 0, 0, 0, 5] ++
  [8, 0, 1, 9, 0, 0, 0, 119, 105, 102, 105, 44, 112, 111, 111, 108] ++
  [9, 0, 3, 8, 0, 0, 0, 0, 0, 0, 0, 0, 160, 75, 64] ++
  [13, 0, 3, 4, 0, 0, 0, 44, 1, 0, 0]

theorem exists_request_suite :
    ∃ p, request parseSuite suiteBody = .ok p ∧ p.1.payload = suiteBytes := by
  have hparse : parseSuite suiteBody = some suiteJson := if_pos rfl
  rw [request, hparse]
  exact ⟨_, rfl, by decide +kernel⟩

/-- The body is parsed to a search for available properties. -/
theorem eq_of_parseSuite {c : Command} {json : Value} (hjson : parseSuite suiteBody = some json)
    (hc : text json "command" = some c.name) : c = .searchAvail ∧ json = suiteJson := by
  have hparse : parseSuite suiteBody = some suiteJson := if_pos rfl
  obtain rfl := Option.some.inj (hparse.symm.trans hjson)
  have hname : Command.searchAvail.name = c.name := Option.some.inj hc
  exact ⟨(Command.name_injective hname).symm, rfl⟩

theorem encodes_of_request_suite :
    ∃ p, request parseSuite suiteBody = .ok p ∧ p.1.payload = suiteBytes ∧
      Encodes .searchAvail suitePayload p.1.payload := by
  obtain ⟨p, hp, hbytes⟩ := exists_request_suite
  obtain ⟨c, json, hjson, hc, he⟩ := (encodes_of_request parseSuite suiteBody).1 p hp
  obtain ⟨rfl, rfl⟩ := eq_of_parseSuite hjson hc
  have hfits : suitePayload.Fits := Value.fits_object (by simp [Value.Short]; decide)
  exact ⟨p, hp, hbytes, he hfits⟩

end RzProxy
