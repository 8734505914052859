import RzProxy.Error
import RzProxy.Protocol.Frame

/-!
# Values of a request body

The JSON values of `serde_json` that a request body is parsed to, and the extraction of the values
that the handlers of the commands look for. An `f64` is its 64 bits.

## Main definitions

* `Value`: a JSON value, with `get`, `asStr`, `asU64`, `asF64` and `asArray`
* `f64OfInt`, `absLe`: an integer as an `f64`, and the check of a range around zero
* `text`, `nonEmptyText`, `byte`, `stars`, `price`, `number`, `float`, `floatWithin`, `joined`: the
  values that are looked for
* `Value.Fits`: the strings fit the length of a field
-/

namespace RzProxy

open ByteString

/-! ## Floating point -/

/-- The bits of the `f64` next to `n`: ties go to the even one, and a carry moves to the
exponent. -/
def f64OfNat (n : ℕ) : ℕ :=
  if n = 0 then 0
  else
    let e := Nat.log2 n
    if e ≤ 52 then (e + 1022) * 2 ^ 52 + n * 2 ^ (52 - e)
    else
      let half := 2 ^ (e - 53)
      let q := n / (2 * half)
      let r := n % (2 * half)
      let q := if half < r ∨ (r = half ∧ q % 2 = 1) then q + 1 else q
      (e + 1022) * 2 ^ 52 + q

/-- `i as f64`. -/
def f64OfInt (i : ℤ) : UInt64 :=
  if 0 ≤ i then UInt64.ofNat (f64OfNat i.toNat) else UInt64.ofNat (2 ^ 63 + f64OfNat (-i).toNat)

/-- `x >= -b && x <= b`, for the bits of a `b` that is not negative: without their sign, the bits of
two numbers are in the order of the numbers, and those of a NaN are above all. -/
def absLe (b x : UInt64) : Bool := x &&& 0x7FFFFFFFFFFFFFFF ≤ b

/-! ## Values -/

/-- A number of `serde_json`: an integer that fits a `u64`, a negative one, or an `f64`. -/
inductive Number
  | posInt (n : UInt64)
  | negInt (n : Int64)
  | float (bits : UInt64)

inductive Value
  | null
  | bool (b : Bool)
  | number (n : Number)
  | string (s : String)
  | array (items : List Value)
  | object (members : List (String × Value))

namespace Value

/-- `get` with a string: the member of an object. -/
def get (v : Value) (key : String) : Option Value :=
  match v with
  | object members => members.lookup key
  | _ => none

def isObject : Value → Bool
  | object _ => true
  | _ => false

def asStr : Value → Option String
  | string s => some s
  | _ => none

def asU64 : Value → Option UInt64
  | number (.posInt n) => some n
  | _ => none

def asF64 : Value → Option UInt64
  | number (.posInt n) => some (f64OfInt n.toNat)
  | number (.negInt n) => some (f64OfInt n.toInt)
  | number (.float bits) => some bits
  | _ => none

def asArray : Value → Option (List Value)
  | array items => some items
  | _ => none

end Value

/-! ## Values that are looked for -/

section Extraction

variable (payload : Value) (key : String)

def text : Option String := (payload.get key).bind Value.asStr

def nonEmptyText : Option String := (text payload key).filter (· ≠ "")

def u64 : Option UInt64 := (payload.get key).bind Value.asU64

/-- A `u64` of at most 255, `as u8`. -/
def byte : Option UInt8 := ((u64 payload key).filter (· ≤ 255)).map UInt64.toUInt8

/-- A `u64` from 1 to 5, `as u8`. -/
def stars : Option UInt8 := ((u64 payload key).filter fun s => 1 ≤ s ∧ s ≤ 5).map UInt64.toUInt8

/-- A `u64`, `as u32`. -/
def price : Option UInt32 := (u64 payload key).map UInt64.toUInt32

def float : Option UInt64 := (payload.get key).bind Value.asF64

/-- An `f64` from `-b` to `b`. -/
def floatWithin (b : UInt64) : Option UInt64 := (float payload key).filter (absLe b)

/-- The strings among the items of an array. -/
def strings (items : List Value) : List String := items.filterMap Value.asStr

/-- The strings of an array, or none if there is no array. -/
def stringsOf : List String :=
  match (payload.get key).bind Value.asArray with
  | some items => strings items
  | none => []

/-- `strings.join(",")`. -/
def join (ss : List String) : String := ",".intercalate ss

/-- The strings of an array, joined, if there are any. -/
def joined : Option String :=
  match (payload.get key).bind Value.asArray with
  | some items => if strings items = [] then none else some (join (strings items))
  | none => none

end Extraction

/-- The bytes of some strings, with a comma between two. -/
def commaSeparated : List String → Bytes
  | [] => []
  | [s] => utf8 s
  | s :: t :: ss => utf8 s ++ 0x2C :: commaSeparated (t :: ss)

theorem utf8_join (ss : List String) : utf8 (join ss) = commaSeparated ss := by
  induction ss using commaSeparated.induct with
  | case1 => rfl
  | case2 s => rw [join, String.intercalate_singleton, commaSeparated]
  | case3 s t ss ih =>
    rw [join, String.intercalate_cons_cons, ← join, utf8_append, utf8_append, ih, commaSeparated,
      List.append_assoc]
    rfl

/-- The bits of `90.0` and of `180.0`. -/
def f64Ninety : UInt64 := 0x4056800000000000
def f64OneEighty : UInt64 := 0x4066800000000000

example : f64OfInt 90 = f64Ninety ∧ f64OfInt 180 = f64OneEighty ∧
    absLe f64Ninety (f64OfInt (-90)) = true ∧ absLe f64Ninety (f64OfInt (-91)) = false := by
  decide

/-! ## Strings that fit a field -/

/-- A string, or the strings of an array when they are joined, are shorter than `2 ^ 32` bytes. -/
def Value.Short : Value → Prop
  | .string s => (utf8 s).length < 2 ^ 32
  | .array items => (commaSeparated (strings items)).length < 2 ^ 32
  | _ => True

/-- The strings of a body are shorter than `2 ^ 32` bytes. -/
def Value.Fits (payload : Value) : Prop := ∀ key v, payload.get key = some v → v.Short

theorem Value.fits_object {members : List (String × Value)} (h : ∀ m ∈ members, m.2.Short) :
    (Value.object members).Fits := by
  intro key v hv
  obtain ⟨_, _, rfl, -⟩ := List.lookup_eq_some_iff.mp hv
  exact h (key, v) (by simp)

variable {payload : Value} {key : String}

theorem length_utf8_text (h : payload.Fits) {s : String} (hs : text payload key = some s) :
    (utf8 s).length < 2 ^ 32 := by
  obtain ⟨v, hv, hs⟩ := Option.bind_eq_some_iff.mp hs
  have := h key v hv
  cases v <;> cases hs
  exact this

theorem length_utf8_nonEmptyText (h : payload.Fits) {s : String}
    (hs : nonEmptyText payload key = some s) : (utf8 s).length < 2 ^ 32 :=
  length_utf8_text h (Option.filter_eq_some_iff.mp hs).1

theorem length_commaSeparated (h : payload.Fits) :
    (commaSeparated (stringsOf payload key)).length < 2 ^ 32 := by
  rw [stringsOf]
  split
  · rename_i items hi
    obtain ⟨v, hv, hi⟩ := Option.bind_eq_some_iff.mp hi
    have := h key v hv
    cases v <;> cases hi
    exact this
  · decide

end RzProxy
