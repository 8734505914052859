import RzProxy.Processor.Command

/-!
# The integers of a request

The handlers narrow the `u64` of a JSON number to the width of its field. Stars, availabilities and
amounts are checked against their range first, and a limit keeps all eight bytes. A price is cast to
four bytes as it is, so it is transmitted unchanged exactly when it fits them.

## Main definitions

* `Command.integers`: the fields of a command that hold an integer of the body
* `IntegersUnchanged`: these fields, read back, are the integers of the body

## Main results

* `integersUnchanged_of_request`: the integers of a request are unchanged if and only if the price
  is below `2 ^ 32`
* `not_forall_integersUnchanged`: a price of `2 ^ 32` is sent as 0
-/

namespace RzProxy

open ByteString

/-- The fields of a command that hold an integer of the body, with the keys of the integers. -/
def Command.integers : Command → List (UInt16 × String)
  | setProp => [(0x06, "stars")]
  | searchProp => [(0x04, "stars"), (0x09, "limit")]
  | setRoomPkg => [(0x04, "availability"), (0x05, "final_price")]
  | setRoomAvl | incRoomAvl | decRoomAvl => [(0x04, "amount")]
  | searchAvail =>
    [(0x06, "stars"), (0x0C, "availability"), (0x0D, "final_price"), (0x0F, "limit")]
  | _ => []

/-- The bytes are the payload of a command for a body, and the data of each of its integer fields,
read back, is the integer that the body has under the key. -/
def IntegersUnchanged (c : Command) (payload : Value) (bs : Bytes) : Prop :=
  c.Built payload bs ∧ ∀ i ∈ c.integers, ∀ f ∈ c.fields payload, f.id = i.1 →
    (u64 payload i.2).map UInt64.toNat = some (ofLE f.data)

/-- The commands that take a price. -/
def Command.HasPrice (c : Command) : Prop := c = setRoomPkg ∨ c = searchAvail

/-- A price of the body fits four bytes. -/
def PriceFits (payload : Value) : Prop := ∀ n, u64 payload "final_price" = some n → n.toNat < 2 ^ 32

/-! ## The casts -/

variable {payload : Value} {key : String} {data : Bytes}

/-- What is left of a checked integer is the integer. -/
theorem ofLE_of_filter {p : UInt64 → Bool} (hp : ∀ n, p n = true → n.toNat < 256)
    (h : (((u64 payload key).filter p).map UInt64.toUInt8).map ([·]) = some data) :
    (u64 payload key).map UInt64.toNat = some (ofLE data) := by
  obtain ⟨b, hb, rfl⟩ := Option.map_eq_some_iff.mp h
  obtain ⟨n, hn, rfl⟩ := Option.map_eq_some_iff.mp hb
  obtain ⟨hn, hpn⟩ := Option.filter_eq_some_iff.mp hn
  have hlt := hp n hpn
  have hle : ofLE [n.toUInt8] = n.toNat := by
    simp only [ofLE, UInt64.toNat_toUInt8]
    omega
  rw [hn, hle]
  rfl

theorem ofLE_byte (id : UInt16) (h : (Slot.byte id key).data payload = some data) :
    (u64 payload key).map UInt64.toNat = some (ofLE data) := by
  refine ofLE_of_filter (p := fun n => n ≤ 255) (fun n hn => ?_) h
  have hn' : n ≤ 255 := of_decide_eq_true hn
  exact Nat.lt_succ_of_le (UInt64.le_iff_toNat_le.mp hn')

theorem ofLE_stars (id : UInt16) (h : (Slot.stars id key).data payload = some data) :
    (u64 payload key).map UInt64.toNat = some (ofLE data) := by
  refine ofLE_of_filter (p := fun n => 1 ≤ n ∧ n ≤ 5) (fun n hn => ?_) h
  obtain ⟨-, hn'⟩ := of_decide_eq_true hn
  exact (UInt64.le_iff_toNat_le.mp hn').trans_lt (by decide)

theorem ofLE_u64 (id : UInt16) (h : (Slot.u64 id key).data payload = some data) :
    (u64 payload key).map UInt64.toNat = some (ofLE data) := by
  obtain ⟨n, hn, rfl⟩ := Option.map_eq_some_iff.mp h
  rw [hn, le64, ofLE_toLE_of_lt n.toNat_lt]
  rfl

/-- A price loses what does not fit four bytes. -/
theorem ofLE_price (id : UInt16) (h : (Slot.price id key).data payload = some data) :
    ∃ n, u64 payload key = some n ∧ ofLE data = n.toNat % 2 ^ 32 := by
  obtain ⟨p, hp, rfl⟩ := Option.map_eq_some_iff.mp h
  obtain ⟨n, hn, rfl⟩ := Option.map_eq_some_iff.mp hp
  refine ⟨n, hn, ?_⟩
  rw [le32, ofLE_toLE_of_lt n.toUInt32.toNat_lt, UInt64.toNat_toUInt32]

/-! ## The fields -/

/-- A field of a command comes from one of its slots. -/
theorem Command.exists_slot {c : Command} {f : Field} (hf : f ∈ c.fields payload) :
    ∃ s ∈ c.required ++ c.optional, s.id = f.id ∧ s.data payload = some f.data := by
  obtain ⟨s, hs, hf⟩ := List.mem_flatMap.mp hf
  obtain ⟨data, hd, rfl⟩ := Option.map_eq_some_iff.mp (Option.mem_toList.mp hf)
  exact ⟨s, hs, rfl, hd⟩

/-- The slot of an integer field checks its range, keeps all its bytes, or is that of the price. -/
theorem Command.slot_of_integers (c : Command) : ∀ i ∈ c.integers, ∀ s ∈ c.required ++ c.optional,
    s.id = i.1 → s = .byte i.1 i.2 ∨ s = .stars i.1 i.2 ∨ s = .u64 i.1 i.2 ∨
      s = .price i.1 i.2 ∧ i.2 = "final_price" ∧ c.HasPrice := by
  cases c <;> simp [integers, required, optional, HasPrice, Slot.text, Slot.nonEmptyText,
    Slot.joined, Slot.joinedAlways, Slot.byte, Slot.stars, Slot.price, Slot.u64, Slot.float,
    Slot.floatWithin]

/-- The field of the price is there when the body has one. -/
theorem Command.HasPrice.exists_field {c : Command} (hc : c.HasPrice) {n : UInt64}
    (hn : u64 payload "final_price" = some n) :
    ∃ id, (id, "final_price") ∈ c.integers ∧
      (⟨id, 0x03, le32 n.toUInt32⟩ : Field) ∈ c.fields payload := by
  have hslot : ∃ id, (id, "final_price") ∈ c.integers ∧
      Slot.price id "final_price" ∈ c.required ++ c.optional := by
    rcases hc with rfl | rfl
    · exact ⟨0x05, by simp [integers], by simp [required, optional]⟩
    · exact ⟨0x0D, by simp [integers], by simp [required, optional]⟩
  obtain ⟨id, hi, hs⟩ := hslot
  refine ⟨id, hi, List.mem_flatMap.mpr ⟨_, hs, ?_⟩⟩
  simp [Slot.fields, Slot.price, price, hn]

/-- A payload keeps the integers of the body exactly when it keeps the price. -/
theorem Command.Built.integersUnchanged_iff {c : Command} {bs : Bytes} (h : c.Built payload bs) :
    IntegersUnchanged c payload bs ↔ (c.HasPrice → PriceFits payload) := by
  constructor
  · rintro ⟨-, hu⟩ hc n hn
    obtain ⟨id, hi, hf⟩ := hc.exists_field hn
    have hdata := hu _ hi _ hf rfl
    rw [hn, le32, ofLE_toLE_of_lt n.toUInt32.toNat_lt, UInt64.toNat_toUInt32] at hdata
    have heq : n.toNat = n.toNat % 2 ^ 32 := Option.some.inj hdata
    omega
  · intro hfits
    refine ⟨h, fun i hi f hf hid => ?_⟩
    obtain ⟨s, hs, hsid, hd⟩ := Command.exists_slot hf
    rcases c.slot_of_integers i hi s hs (hsid.trans hid) with rfl | rfl | rfl | ⟨rfl, hkey, hc⟩
    · exact ofLE_byte i.1 hd
    · exact ofLE_stars i.1 hd
    · exact ofLE_u64 i.1 hd
    · obtain ⟨n, hn, hdata⟩ := ofLE_price i.1 hd
      rw [hkey] at hn ⊢
      rw [hn, hdata, Nat.mod_eq_of_lt (hfits hc n hn)]
      rfl

/-- **The integers of a request are transmitted unchanged** if and only if the price, where the
command takes one, fits its four bytes. -/
theorem integersUnchanged_of_request {fromSlice : Bytes → Option Value} {body : Bytes}
    {p : Request × Decoder} (h : request fromSlice body = .ok p) :
    ∃ (c : Command) (json : Value), fromSlice body = some json ∧
      text json "command" = some c.name ∧
      (IntegersUnchanged c ((json.get "body").getD .null) p.1.payload ↔
        (c.HasPrice → PriceFits ((json.get "body").getD .null))) := by
  obtain ⟨c, json, hjson, hcommand, hbuilt⟩ := built_of_request h
  exact ⟨c, json, hjson, hcommand, hbuilt.integersUnchanged_iff⟩

/-- A search with a price that fits. -/
theorem integersUnchanged_of_request_suite :
    ∃ p, request parseSuite suiteBody = .ok p ∧
      IntegersUnchanged .searchAvail suitePayload p.1.payload := by
  obtain ⟨p, hp, -⟩ := exists_request_suite
  obtain ⟨c, json, hjson, hc, hiff⟩ := integersUnchanged_of_request hp
  obtain ⟨rfl, rfl⟩ := eq_of_parseSuite hjson hc
  refine ⟨p, hp, hiff.mpr fun _ n hn => ?_⟩
  obtain rfl : 300 = n := Option.some.inj hn
  decide

/-- **A price of `2 ^ 32`** is sent as 0. -/
theorem not_forall_integersUnchanged :
    ¬ ∀ (fromSlice : Bytes → Option Value) (body : Bytes) (p : Request × Decoder),
      request fromSlice body = .ok p →
      ∃ (c : Command) (json : Value), fromSlice body = some json ∧
        text json "command" = some c.name ∧
        IntegersUnchanged c ((json.get "body").getD .null) p.1.payload := by
  intro h
  have hp : ∃ p, request (fun _ => some (.object [("command", .string "SETROOMPKG"),
      ("segment", .string "eu"), ("body", .object [("property_id", .string "p"),
        ("room_type", .string "suite"), ("date", .string "2026-01-01"),
        ("final_price", .number (.posInt 4294967296))])])) [] = .ok p := by
    rw [request]
    exact ⟨_, rfl⟩
  obtain ⟨p, hp⟩ := hp
  obtain ⟨c, json, hjson, hc, hu⟩ := h _ _ p hp
  obtain rfl := Option.some.inj hjson
  have hname : Command.setRoomPkg.name = c.name := Option.some.inj hc
  obtain rfl := Command.name_injective hname
  have hfits := hu.1.integersUnchanged_iff.mp hu (.inl rfl) 4294967296 rfl
  exact absurd hfits (by decide)

end RzProxy
