import RzProxy.Handler.System
import RzProxy.Processor.Command
import RzProxy.Processor.Reading

/-!
# Required strings

A handler looks for the strings that its command requires before it calls `Handler::execute`. A body
without them is answered at once, and the handler of connections does not hear of it: no call
begins, no id is drawn and no frame is queued. The handlers of SETPROP and SEARCHPROP do not ask
whether the strings are empty, as all others do.

## Main definitions

* `Command.strings`: the strings that a command requires in its body
* `State.serve`: a client sends a body
* `Rejected`: a body is answered with a validation error, and nothing else happens
* `PassesEmpty`: the bodies with an empty string that are let through

## Main results

* `Validates.request`: a handler answers at once with validation errors only
* `rejected_iff`: bodies without a required string are rejected, but for those
-/

namespace RzProxy

open ByteString Evaluation

variable {fromSlice : Bytes → Option Value} {body : Bytes} {json payload : Value}

/-! ## Errors of a request -/

/-- The errors of an evaluation are validation errors. -/
def Validates {α : Type} (x : Except RZError α) : Prop :=
  ∀ e, x = .error e → ∃ message, e = .validation message

namespace Validates

variable {α β : Type}

theorem ok (a : α) : Validates (.ok a) := fun _ h => by cases h

theorem error (message : String) : Validates (.error (.validation message) : Except RZError α) := by
  intro e h
  exact ⟨message, (Except.error.inj h).symm⟩

theorem bind {x : Except RZError α} {f : α → Except RZError β} (hx : Validates x)
    (hf : ∀ a, Validates (f a)) : Validates (x >>= f) := by
  intro e h
  cases x with
  | error e' =>
    obtain rfl := Except.error.inj h
    exact hx _ rfl
  | ok a => exact hf a e h

theorem required (message : String) (o : Option α) : Validates (RzProxy.required message o) := by
  cases o with
  | none => exact error message
  | some a => exact ok a

/-- A value that is required, and what is made of it. -/
theorem required_bind {message : String} {o : Option α} {f : α → Except RZError β}
    (hf : ∀ a, Validates (f a)) : Validates (RzProxy.required message o >>= f) :=
  (required message o).bind hf

theorem mapM {f : α → Except RZError β} (hf : ∀ a, Validates (f a)) (as : List α) :
    Validates (as.mapM f) := by
  induction as with
  | nil => exact ok []
  | cons a as ih =>
    rw [List.mapM_cons]
    exact (hf a).bind fun b => ih.bind fun bs => ok (b :: bs)

variable (seg : String) (payload : Value)

theorem processTexts (cmdName : String) (isWrite : Bool) (fieldCount : UInt16)
    (keys : List (UInt16 × String)) (decoder : Decoder) :
    Validates (RzProxy.processTexts cmdName isWrite fieldCount keys decoder seg payload) := by
  refine (mapM (fun key => ?_) keys).bind fun texts => ok _
  exact required_bind fun s => ok (key.1, s)

theorem processAmount (cmdName : String) :
    Validates (RzProxy.processAmount cmdName seg payload) :=
  required_bind fun _ => required_bind fun _ => required_bind fun _ => required_bind fun _ => ok _

theorem processSetProp : Validates (RzProxy.processSetProp seg payload) :=
  required_bind fun _ => required_bind fun _ => required_bind fun _ => required_bind fun _ =>
    required_bind fun _ => required_bind fun _ => required_bind fun _ => required_bind fun _ => ok _

theorem processGetSegments : Validates (RzProxy.processGetSegments payload) := by
  rw [RzProxy.processGetSegments]
  split_ifs
  · exact error "invalid payload"
  · exact ok _

/-- **A handler answers at once with validation errors only.** -/
theorem request (fromSlice : Bytes → Option Value) (body : Bytes) :
    Validates (RzProxy.request fromSlice body) := by
  refine required_bind fun json => required_bind fun command => required_bind fun segment => ?_
  dsimp only
  split
  · exact processSetProp _ _
  · exact processTexts _ _ _ _ _ _ _
  · exact required_bind fun _ => ok _
  · exact required_bind fun _ => required_bind fun _ => required_bind fun _ => ok _
  · exact processAmount _ _ _
  · exact processAmount _ _ _
  · exact processAmount _ _ _
  · exact processTexts _ _ _ _ _ _ _
  · exact processTexts _ _ _ _ _ _ _
  · exact processTexts _ _ _ _ _ _ _
  · exact processTexts _ _ _ _ _ _ _
  · exact processTexts _ _ _ _ _ _ _
  · exact required_bind fun _ => required_bind fun _ => ok _
  · exact processTexts _ _ _ _ _ _ _
  · exact processTexts _ _ _ _ _ _ _
  · exact processTexts _ _ _ _ _ _ _
  · exact processTexts _ _ _ _ _ _ _
  · exact processGetSegments _
  · exact error "unsupported command"

end Validates

/-! ## Rejected bodies -/

/-- The keys of the strings that a command requires. -/
def Command.strings : Command → List String
  | setProp => ["segment", "area", "property_id", "property_type", "category"]
  | searchProp | delSegment => ["segment"]
  | searchAvail => ["segment", "room_type"]
  | setRoomPkg | setRoomAvl | incRoomAvl | decRoomAvl | delRoomDay | getPropRoomDay =>
    ["property_id", "room_type", "date"]
  | propRoomExist | propRoomDateList | delPropRoom => ["property_id", "room_type"]
  | delPropDay => ["property_id", "date"]
  | propExist | propRoomList | delProp => ["property_id"]
  | getSegments | getCodecs => []

/-- The body has a string under the key, and it is not empty. -/
def Given (payload : Value) (key : String) : Prop :=
  ∃ s, payload.get key = some (.string s) ∧ s ≠ ""

/-- A client sends a body: a call of `Handler::execute` begins, if a request is made of it. -/
def State.serve (fromSlice : Bytes → Option Value) (s : State) (body : Bytes) : State :=
  match request fromSlice body with
  | .error _ => s
  | .ok (r, _) => s.newCall r.segment r.isWrite r.payload

/-- The answer to a body is a validation error, which is counted, and the handler of connections
stays as it is. -/
def Rejected (fromSlice : Bytes → Option Value) (body : Bytes) : Prop :=
  (∃ message, ∀ env metrics execute, process env metrics fromSlice execute body =
    .ok (jsonResponse .badRequest (bodyOf (errorMembers (.const message))),
      metrics.incClientErrors)) ∧
    ∀ s : State, s.serve fromSlice body = s

theorem rejected_of_request_error {e : RZError} (h : request fromSlice body = .error e) :
    Rejected fromSlice body := by
  obtain ⟨message, rfl⟩ := Validates.request fromSlice body e h
  refine ⟨⟨message, fun env metrics execute => ?_⟩, fun s => by rw [State.serve, h]⟩
  rw [process, h, ← errorBody_eq (.const message)]
  rfl

theorem not_rejected_of_request_ok {p : Request × Decoder} (h : request fromSlice body = .ok p) :
    ¬ Rejected fromSlice body := by
  rintro ⟨-, hserve⟩
  have hs := congrArg State.callCount (hserve (.initial ⟨.standalone, "", 0, 0⟩))
  rw [State.serve, h] at hs
  exact absurd hs (Nat.succ_ne_self _)

/-! ## Empty strings -/

theorem given_of_nonEmptyText {key : String} (h : (nonEmptyText payload key).isSome) :
    Given payload key := by
  obtain ⟨s, hs⟩ := Option.isSome_iff_exists.mp h
  obtain ⟨htext, hne⟩ := Option.filter_eq_some_iff.mp hs
  obtain ⟨v, hv, hstr⟩ := Option.bind_eq_some_iff.mp htext
  refine ⟨s, ?_, of_decide_eq_true hne⟩
  cases v <;> cases hstr
  exact hv

/-- A string that is there without being given is empty. -/
theorem text_eq_of_not_given {key : String} (h : (text payload key).isSome)
    (hg : ¬ Given payload key) : text payload key = some "" := by
  obtain ⟨s, hs⟩ := Option.isSome_iff_exists.mp h
  by_cases he : s = ""
  · rw [hs, he]
  · refine absurd (given_of_nonEmptyText ?_) hg
    simp [nonEmptyText, hs, he]

/-- The strings of a command are there with all that it requires, and those of all commands but two
are not empty. -/
theorem Command.strings_of_required {c : Command}
    (h : ∀ s ∈ c.required, (s.data payload).isSome) : ∀ key ∈ c.strings,
      (nonEmptyText payload key).isSome ∨
        (c = .setProp ∨ c = .searchProp) ∧ (text payload key).isSome := by
  revert h
  cases c <;> simp +contextual [strings, required, Slot.nonEmptyText, Slot.text]

/-- A body that is let through with an empty string: the command is one of two, all that it requires
is there, and one of its strings is empty. -/
def PassesEmpty (c : Command) (json : Value) : Prop :=
  (c = .setProp ∨ c = .searchProp) ∧ (text json "segment").isSome ∧
    (∀ s ∈ c.required, (s.data ((json.get "body").getD .null)).isSome) ∧
    ∃ key ∈ c.strings, text ((json.get "body").getD .null) key = some ""

/-- With a value that is required, the evaluation goes on. -/
theorem exists_ok_of_required {α β : Type} {message : String} {o : Option α}
    {f : α → Except RZError β} (ho : o.isSome) (hf : ∀ a, o = some a → ∃ b, f a = .ok b) :
    ∃ b, (required message o >>= f) = .ok b := by
  obtain ⟨a, ha⟩ := Option.isSome_iff_exists.mp ho
  rw [ha]
  exact hf a ha

/-- SETPROP and SEARCHPROP take whatever strings they require. -/
theorem exists_request_of_passesEmpty {c : Command} (hjson : fromSlice body = some json)
    (hc : text json "command" = some c.name) (h : PassesEmpty c json) :
    ∃ p, request fromSlice body = .ok p := by
  obtain ⟨hcmd, hseg, hreq, -⟩ := h
  refine exists_ok_of_required (by rw [hjson]; rfl) fun j hj => ?_
  obtain rfl := Option.some.inj (hjson.symm.trans hj)
  refine exists_ok_of_required (by rw [hc]; rfl) fun command hcommand => ?_
  obtain rfl := Option.some.inj (hc.symm.trans hcommand)
  refine exists_ok_of_required hseg fun segment _ => ?_
  rcases hcmd with rfl | rfl
  · simp only [Command.required, List.forall_mem_cons, Slot.text, Slot.stars, Slot.floatWithin,
      Option.isSome_map] at hreq
    obtain ⟨hsegment, harea, hpropertyId, hpropertyType, hcategory, hstars, hlat, hlong, -⟩ := hreq
    show ∃ p, processSetProp segment _ = .ok p
    refine exists_ok_of_required hsegment fun _ _ => exists_ok_of_required harea fun _ _ => ?_
    refine exists_ok_of_required hpropertyId fun _ _ => ?_
    refine exists_ok_of_required hpropertyType fun _ _ => ?_
    refine exists_ok_of_required hcategory fun _ _ => exists_ok_of_required hstars fun _ _ => ?_
    refine exists_ok_of_required hlat fun _ _ => exists_ok_of_required hlong fun _ _ => ⟨_, rfl⟩
  · simp only [Command.required, List.forall_mem_cons, Slot.text, Option.isSome_map] at hreq
    show ∃ p, processSearchProp segment _ = .ok p
    exact exists_ok_of_required hreq.1 fun _ _ => ⟨_, rfl⟩

/-- **Bodies without a required string are rejected**, but for those that pass with an empty one. -/
theorem rejected_iff {c : Command} (hjson : fromSlice body = some json)
    (hc : text json "command" = some c.name) :
    ((∃ key ∈ c.strings, ¬ Given ((json.get "body").getD .null) key) → Rejected fromSlice body) ↔
      ¬ PassesEmpty c json := by
  constructor
  · rintro h hpass
    obtain ⟨key, hkey, hempty⟩ := hpass.2.2.2
    have hmissing : ¬ Given ((json.get "body").getD .null) key := by
      rintro ⟨s, hs, hne⟩
      rw [text, hs] at hempty
      exact hne (Option.some.inj hempty)
    obtain ⟨p, hp⟩ := exists_request_of_passesEmpty hjson hc hpass
    exact not_rejected_of_request_ok hp (h ⟨key, hkey, hmissing⟩)
  · rintro hpass ⟨key, hkey, hmissing⟩
    cases hreq : request fromSlice body with
    | error e => exact rejected_of_request_error hreq
    | ok p =>
      obtain ⟨c', json', hjson', hc', -, hbuilt⟩ := built_of_request hreq
      obtain rfl := Option.some.inj (hjson.symm.trans hjson')
      obtain rfl := Command.name_injective (Option.some.inj (hc.symm.trans hc'))
      rcases Command.strings_of_required hbuilt key hkey with hne | ⟨hcmd, htext⟩
      · exact absurd (given_of_nonEmptyText hne) hmissing
      · refine absurd ⟨hcmd, ?_, hbuilt, key, hkey, text_eq_of_not_given htext hmissing⟩ hpass
        obtain ⟨j, hj, hreq⟩ := exists_of_required hreq
        obtain rfl := Option.some.inj (hjson.symm.trans hj)
        obtain ⟨command, -, hreq⟩ := exists_of_required hreq
        obtain ⟨segment, hsegment, -⟩ := exists_of_required hreq
        rw [hsegment]
        rfl

/-- A property id that is no string. -/
theorem rejected_iff_wrong_type :
    Rejected (fun _ => some (.object [("command", .string "PROPEXIST"), ("segment", .string "eu"),
      ("body", .object [("property_id", .bool true)])])) [] := by
  refine (rejected_iff (c := .propExist) rfl rfl).mpr ?_
    ⟨"property_id", by simp [Command.strings], ?_⟩
  · rintro ⟨hcmd, -⟩
    rcases hcmd with h | h <;> cases h
  · rintro ⟨s, hs, -⟩
    cases hs

/-- **An empty property id** is written to the inventory. -/
theorem not_forall_rejected :
    ¬ ∀ (fromSlice : Bytes → Option Value) (body : Bytes) (json : Value) (c : Command),
      fromSlice body = some json → text json "command" = some c.name →
      (∃ key ∈ c.strings, ¬ Given ((json.get "body").getD .null) key) →
        Rejected fromSlice body := by
  intro h
  have hp : ∃ p, request (fun _ => some (.object [("command", .string "SETPROP"),
      ("segment", .string "eu"), ("body", .object [("segment", .string "eu"),
        ("area", .string "north"), ("property_id", .string ""), ("property_type", .string "HOTEL"),
        ("category", .string "5_STAR"), ("stars", .number (.posInt 5)),
        ("latitude", .number (.posInt 25)),
        ("longitude", .number (.posInt 55))])])) [] = .ok p := by
    rw [request]
    exact ⟨_, rfl⟩
  obtain ⟨p, hp⟩ := hp
  refine not_rejected_of_request_ok hp (h _ _ _ .setProp rfl rfl ?_)
  refine ⟨"property_id", by simp [Command.strings], ?_⟩
  rintro ⟨s, hs, hne⟩
  cases hs
  exact hne rfl

end RzProxy
