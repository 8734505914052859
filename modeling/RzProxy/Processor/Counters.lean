import RzProxy.Processor.Grammar

/-!
# Counters of fields

Four decoders go on while seven bytes are left, and compare the id of each field with a counter of
sixteen bits that also shows, at the end, how many fields there were. The rounds are bounded by the
bytes of the payload and not by the count that it announces, so that the counter leaves its range in
a payload with enough fields in order.

## Main definitions

* `FieldLoop`: a loop over fields, with the offset and the counter of its states
* `FieldLoop.InRange`, `FieldLoop.Reads`: the counter does not wrap around; the fields that are read
* `Scanner`: the four decoders, and their loops
* `LongScan`: the fields of a payload go on in order for longer than the counter

## Main results

* `Scanner.decode_eq`: a decoder is its loop, with the check of the counter after it
* `Scanner.exists_left`: an accepted reply leaves the loop with its counter at the announced count
* `FieldLoop.Walk.inRange_iff`: the counter stays in range if fewer than 65535 fields are in order
* `countersKept_iff`: the counters of a decoder stay in range exactly if the fields end before them
-/

namespace RzProxy

open ByteString Evaluation Evaluation.Flow JsonText

/-! ## Loops with a counter -/

/-- A loop over the fields of a reply: the offset and the counter of a state, one round, and the
state at the offset after the head. -/
structure FieldLoop where
  State : Type
  offset : State → ℕ
  counter : State → UInt16
  round : Bytes → State → Flow (Response × Metrics) State
  start : ℕ → State
  offset_start : ∀ off, offset (start off) = off
  counter_start : ∀ off, counter (start off) = 1

namespace FieldLoop

section Definitions

variable (L : FieldLoop) (data : Bytes) (off : ℕ)

/-- The loop goes on. -/
abbrev Goes (s : L.State) : Prop := L.offset s + 7 ≤ data.length

/-- A round that does not return. -/
abbrev Step : L.State → L.State → Prop := Round (L.Goes data) (L.round data)

/-- The states that the loop comes to. -/
def Visited : L.State → Prop := Relation.ReflTransGen (L.Step data) (L.start off)

/-- The counter does not leave its range: a round makes it larger, which an increment that wraps
around does not, and after the loop one can be taken off it. -/
structure InRange : Prop where
  -- a round that returns has added nothing, but for one to the even id of a property
  increment : ∀ s t, L.Visited data off s → L.Step data s t →
    (L.counter s).toNat < (L.counter t).toNat
  subtraction : ∀ t, L.Visited data off t → ¬ L.Goes data t → 1 ≤ (L.counter t).toNat

/-- The loop ends after it has read the fields `fs`. -/
def Reads (fs : List Field) : Prop :=
  ∃ t, L.Visited data off t ∧ ¬ L.Goes data t ∧
    takeFields fs.length (data.drop off) = some (fs, data.drop (L.offset t))

/-- A walk over fields that a loop follows: the loop reads what the walk does not fail on, and the
counter counts it. -/
structure Walk (metrics : Metrics) where
  Item : Type
  walk : L.State → List Field → Option (Item × UInt16)
  reads : ∀ s, L.Goes data s →
    ReadsFields data L.offset walk (L.round data) (invalidResponse, metrics) s
  ends : ∀ s, ∃ a, walk s [] = some (a, L.counter s)
  counts : ∀ {s fs a k}, walk s fs = some (a, k) → k = L.counter s + UInt16.ofNat fs.length

end Definitions

namespace Walk

variable {L : FieldLoop} {data : Bytes} {off : ℕ} {metrics : Metrics} (W : L.Walk data metrics)
  {s t : L.State} {fs gs : List Field} {tail : Bytes}
include W

/-- A round adds the number of fields that it reads. -/
theorem counter_eq (h : ∀ fs, W.walk s (gs ++ fs) = W.walk t fs) :
    L.counter t = L.counter s + UInt16.ofNat gs.length := by
  obtain ⟨a, ha⟩ := W.ends t
  have hgs := h []
  rw [List.append_nil, ha] at hgs
  exact W.counts hgs

/-- A round that does not wrap around adds it as a number. -/
theorem toNat_counter_eq (h : ∀ fs, W.walk s (gs ++ fs) = W.walk t fs) (hl : gs.length ≤ 2)
    (hlt : (L.counter s).toNat < (L.counter t).toNat) :
    (L.counter t).toNat = (L.counter s).toNat + gs.length := by
  rw [W.counter_eq h, UInt16.toNat_add, UInt16.toNat_ofNat'] at hlt ⊢
  have hs := (L.counter s).toNat_lt
  omega

/-- **What was read**: in a state that the loop comes to, the fields before its offset are
behind. -/
theorem exists_read (h : L.Visited data off t) :
    ∃ fs, takeFields fs.length (data.drop off) = some (fs, data.drop (L.offset t)) ∧
      ∀ gs, W.walk (L.start off) (fs ++ gs) = W.walk t gs := by
  induction h with
  | refl => exact ⟨[], by rw [L.offset_start]; rfl, fun _ => rfl⟩
  | @tail s t _ hstep ih =>
    obtain ⟨fs, hfs, hwalk⟩ := ih
    obtain ⟨hgoes, hround⟩ := hstep
    rcases W.reads s hgoes with ⟨hret, -⟩ | ⟨gs, t', hnext, -, -, hgs, hw, -⟩
    · rw [hround] at hret
      cases hret
    · rw [hround] at hnext
      cases hnext
      refine ⟨fs ++ gs, (takeFields_append_iff hfs).mpr hgs, fun hs => ?_⟩
      rw [List.append_assoc, hwalk, hw]

/-- **What will be read**: the loop reads all fields that the walk does not fail on, and a counter
in range counts them. -/
theorem exists_visited (hs : L.Visited data off s)
    (ht : takeFields fs.length (data.drop (L.offset s)) = some (fs, tail))
    (hw : (W.walk s fs).isSome) :
    ∃ t, L.Visited data off t ∧ tail = data.drop (L.offset t) ∧
      (L.InRange data off → (L.counter t).toNat = (L.counter s).toNat + fs.length) := by
  induction hn : fs.length using Nat.strong_induction_on generalizing s fs with
  | _ n ih =>
  subst hn
  by_cases hne : fs = []
  · subst hne
    cases ht
    exact ⟨s, hs, rfl, fun _ => rfl⟩
  have hgoes : L.Goes data s := by
    have hlen := add_length_le_of_takeFields ht
    have hpos := List.length_pos_iff.mpr hne
    rw [List.length_drop] at hlen
    show L.offset s + 7 ≤ data.length
    omega
  rcases W.reads s hgoes with ⟨-, hnone⟩ | ⟨gs, t, hnext, hgne, hl, hgs, hwt, hshort⟩
  · rw [hnone fs tail hne ht] at hw
    cases hw
  have ht' : L.Visited data off t := hs.tail ⟨hgoes, hnext⟩
  by_cases hle : gs.length ≤ fs.length
  · obtain ⟨fs, rfl⟩ := prefix_of_takeFields ht hgs hle
    have hpos := List.length_pos_iff.mpr hgne
    obtain ⟨u, hu, htail, hcount⟩ := ih fs.length (by rw [List.length_append]; omega) ht'
      ((takeFields_append_iff hgs).mp ht) (by rwa [← hwt]) rfl
    refine ⟨u, hu, htail, fun hrange => ?_⟩
    rw [hcount hrange, W.toNat_counter_eq hwt hl (hrange.increment s t hs ⟨hgoes, hnext⟩),
      List.length_append, Nat.add_assoc]
  · -- the walk does not stop between two fields that are read together
    have hpre := prefix_of_takeFields hgs ht (Nat.le_of_not_le hle)
    rw [hshort fs hne hpre (Nat.lt_of_not_le hle)] at hw
    cases hw

/-- The same from the start. -/
theorem exists_visited_of_start (ht : takeFields fs.length (data.drop off) = some (fs, tail))
    (hw : (W.walk (L.start off) fs).isSome) :
    ∃ t, L.Visited data off t ∧ tail = data.drop (L.offset t) ∧
      (L.InRange data off → (L.counter t).toNat = 1 + fs.length) := by
  have hone : (L.counter (L.start off)).toNat = 1 := by
    rw [L.counter_start]
    rfl
  rw [← hone]
  exact W.exists_visited .refl (by rwa [L.offset_start]) hw

/-- **The counter stays in range** if and only if fewer than 65535 fields are in order. -/
theorem inRange_iff : L.InRange data off ↔
    ∀ fs tail, takeFields fs.length (data.drop off) = some (fs, tail) →
      (W.walk (L.start off) fs).isSome → fs.length < 65535 := by
  constructor
  · intro hrange fs tail ht hw
    obtain ⟨t, -, -, hcount⟩ := W.exists_visited_of_start ht hw
    have hlt := (L.counter t).toNat_lt
    have heq := hcount hrange
    omega
  · intro h
    have hcounter {fs : List Field} {t : L.State}
        (hfs : takeFields fs.length (data.drop off) = some (fs, data.drop (L.offset t)))
        (hwalk : ∀ gs, W.walk (L.start off) (fs ++ gs) = W.walk t gs) :
        (L.counter t).toNat = 1 + fs.length := by
      obtain ⟨a, ha⟩ := W.ends t
      have hsome : (W.walk (L.start off) fs).isSome := by
        rw [← List.append_nil fs, hwalk, ha]
        rfl
      have hlt := h fs _ hfs hsome
      have hone : (1 : UInt16).toNat = 1 := rfl
      rw [W.counter_eq hwalk, L.counter_start, UInt16.toNat_add, UInt16.toNat_ofNat', hone]
      omega
    constructor
    · intro s t hs hstep
      obtain ⟨fs, hfs, hwalk⟩ := W.exists_read hs
      obtain ⟨hgoes, hround⟩ := hstep
      rcases W.reads s hgoes with ⟨hret, -⟩ | ⟨gs, t', hnext, hne, -, hgs, hw, -⟩
      · rw [hround] at hret
        cases hret
      · rw [hround] at hnext
        cases hnext
        have hpos := List.length_pos_iff.mpr hne
        have hboth := hcounter ((takeFields_append_iff hfs).mpr hgs) fun hs => by
          rw [List.append_assoc, hwalk, hw]
        rw [hcounter hfs hwalk, hboth, List.length_append]
        omega
    · intro t ht _
      obtain ⟨fs, hfs, hwalk⟩ := W.exists_read ht
      rw [hcounter hfs hwalk]
      omega

end Walk

end FieldLoop

/-! ## The loops of the decoders -/

variable (env : Env) (metrics : Metrics)

/-- The loop over string fields. -/
def stringFieldLoop {α : Type} (push : List α → Bytes → List α) : FieldLoop where
  State := List α × UInt16 × ℕ
  offset s := s.2.2
  counter s := s.2.1
  round data := stringFieldRound (invalidResponse, metrics) data push
  start off := ([], 1, off)
  offset_start _ := rfl
  counter_start _ := rfl

/-- The loop over segments. -/
def getSegmentsLoop : FieldLoop where
  State := List (Bytes × Option UInt32) × UInt16 × ℕ
  offset s := s.2.2
  counter s := s.2.1
  round data := getSegmentsRound (invalidResponse, metrics) data
  start off := ([], 1, off)
  offset_start _ := rfl
  counter_start _ := rfl

/-- The loop over properties and their days. -/
def searchAvailLoop : FieldLoop where
  State := AvailState
  offset s := s.offset
  counter s := s.currentField
  round data := searchAvailRound env (invalidResponse, metrics) data
  start off := ⟨utf8 "\x7b\"status\":\"success\",\"properties\":[", 1, true, off⟩
  offset_start _ := rfl
  counter_start _ := rfl

/-- The decoders whose loop goes on while seven bytes are left. -/
inductive Scanner
  | propRoomList
  | propRoomDateList
  | getSegments
  | searchAvail

namespace Scanner

def decoder : Scanner → Decoder
  | propRoomList => .propRoomList
  | propRoomDateList => .propRoomDateList
  | getSegments => .getSegments
  | searchAvail => .searchAvail

def loop : Scanner → FieldLoop
  | propRoomList => stringFieldLoop metrics fun roomTypes bytes =>
      roomTypes ++ [fromUtf8Lossy bytes]
  | propRoomDateList => stringFieldLoop metrics fun dates bytes =>
      if bytes ≠ [] then dates ++ [bytes] else dates
  | getSegments => getSegmentsLoop metrics
  | searchAvail => searchAvailLoop env metrics

/-- The loop is entered when that many fields are announced. -/
def Entered (fieldCount : UInt16) : Scanner → Prop
  | propRoomList | propRoomDateList => fieldCount ≠ 0
  | getSegments => fieldCount ≠ 0 ∧ fieldCount % 2 = 0
  | searchAvail => fieldCount ≠ 0 ∧ (fieldCount - 1) % 2 = 0

/-- Fields that the loop goes through, besides their ids. -/
def Format (fs : List Field) : Scanner → Prop
  | propRoomList | propRoomDateList => Strings fs
  | getSegments => ∀ f ∈ fs, if f.id % 2 = 1 then f.fieldType = 0x01
      else f.fieldType = 0x03 ∧ f.data.length = 4
  | searchAvail => (availOf env (env.rateFeatures.getD []) fs).isSome

instance (fieldCount : UInt16) (S : Scanner) : Decidable (S.Entered fieldCount) :=
  match S with
  | propRoomList | propRoomDateList => inferInstanceAs (Decidable (fieldCount ≠ 0))
  | getSegments => inferInstanceAs (Decidable (fieldCount ≠ 0 ∧ fieldCount % 2 = 0))
  | searchAvail => inferInstanceAs (Decidable (fieldCount ≠ 0 ∧ (fieldCount - 1) % 2 = 0))

/-- Two functions that go on in the same way after the head of a reply. -/
theorem run_readSuccess_congr {payload : Bytes}
    {k k' : UInt16 × ℕ → Flow (Response × Metrics) (Response × Metrics)}
    (h : ∀ fieldCount off, k (fieldCount, off) = k' (fieldCount, off)) :
    run (readSuccess metrics payload >>= k) = run (readSuccess metrics payload >>= k') := by
  rw [show k = k' from funext fun p => h p.1 p.2]

/-- **A decoder is its loop**, between the head of the payload and the check of the counter. -/
theorem decode_eq (S : Scanner) : ∃ (empty : Response × Metrics)
    (finish : (S.loop env metrics).State → Flow (Response × Metrics) (Response × Metrics)),
    ∀ payload, S.decoder.decode env metrics payload =
      run (readSuccess metrics payload >>= fun (fieldCount, off) =>
        if fieldCount = 0 then next empty
        else if S.Entered fieldCount then
          whileLoop ((S.loop env metrics).Goes payload) ((S.loop env metrics).round payload)
            (payload.length + 1) ((S.loop env metrics).start off) >>= fun s =>
          if (S.loop env metrics).counter s - 1 ≠ fieldCount then ret (invalidResponse, metrics)
          else finish s
        else ret (invalidResponse, metrics)) := by
  cases S with
  | propRoomList | propRoomDateList =>
    apply Exists.intro
    apply Exists.intro
    intro payload
    refine run_readSuccess_congr metrics fun fieldCount off => ?_
    by_cases h0 : fieldCount = 0
    · simp only [if_pos h0]
      rfl
    simp only [if_neg h0, readStringFields, bind_bind, returnIf_bind, ite_ret_bind]
    exact (if_pos h0).symm
  | getSegments =>
    apply Exists.intro
    apply Exists.intro
    intro payload
    refine run_readSuccess_congr metrics fun fieldCount off => ?_
    by_cases h0 : fieldCount = 0
    · simp only [if_pos h0]
      rfl
    simp only [if_neg h0, returnIf_bind]
    by_cases he : fieldCount % 2 = 0
    · rw [if_neg (not_not.mpr he), if_pos (show Entered fieldCount getSegments from ⟨h0, he⟩)]
      rfl
    · rw [if_pos he, if_neg fun h : Entered fieldCount getSegments => he h.2]
  | searchAvail =>
    apply Exists.intro
    apply Exists.intro
    intro payload
    refine run_readSuccess_congr metrics fun fieldCount off => ?_
    by_cases h0 : fieldCount = 0
    · simp only [if_pos h0]
      rfl
    simp only [if_neg h0, returnIf_bind]
    by_cases he : (fieldCount - 1) % 2 = 0
    · rw [if_neg (fun h => h.elim (fun h => h0 (UInt16.lt_one_iff.mp h)) (· he)),
        if_pos (show Entered fieldCount searchAvail from ⟨h0, he⟩)]
      rfl
    · rw [if_pos (.inr he), if_neg fun h : Entered fieldCount searchAvail => he h.2]

end Scanner

/-! ## The walks of the loops -/

theorem isSome_walkStrings {α : Type} (f : Bytes → List α) (k : UInt16) (fs : List Field) :
    (walkStrings f [] k fs).isSome ↔ Numbered k fs ∧ Strings fs := by
  rw [walkStrings_eq]
  split_ifs with h <;> simp [h]

/-- The loop over string fields follows the walk over them. -/
def stringFieldWalk {α : Type} {push : List α → Bytes → List α} {f : Bytes → List α}
    (hpush : ∀ items bytes, push items bytes = items ++ f bytes) (data : Bytes) :
    (stringFieldLoop metrics push).Walk data metrics where
  Item := List α
  walk s := walkStrings f s.1 s.2.1
  reads := stringFieldRound_reads metrics hpush data
  ends _ := ⟨_, rfl⟩
  counts {s fs a k} h := by
    rw [walkStrings_eq] at h
    split_ifs at h
    cases h
    rfl

/-- The loop over segments follows the walk over names and counts. -/
def getSegmentsWalk (data : Bytes) : (getSegmentsLoop metrics).Walk data metrics where
  Item := List (Bytes × Option UInt32)
  walk s := walkSegments s.1 s.2.1
  reads := getSegmentsRound_reads metrics data
  ends _ := ⟨_, rfl⟩
  counts h := snd_walkSegments h

/-- The loop over properties follows the walk over properties and days. -/
def searchAvailWalk (data : Bytes) : (searchAvailLoop env metrics).Walk data metrics where
  Item := Bytes
  walk s := walkAvail env s.json s.firstProperty s.currentField
  reads := searchAvailRound_reads env metrics data
  ends _ := ⟨_, rfl⟩
  counts h := snd_walkAvail env h

/-- Names at odd ids and counts at even ones. -/
theorem isSome_walkSegments {segments : List (Bytes × Option UInt32)} {k : UInt16}
    {fs : List Field} (hk : k % 2 = 1 ∨ segments ≠ []) :
    (walkSegments segments k fs).isSome ↔
      Numbered k fs ∧ Scanner.getSegments.Format env fs := by
  -- induction on the fields, with a counter that starts anywhere
  induction fs generalizing segments k with
  | nil => simp [walkSegments, Numbered, Scanner.Format]
  | cons f fs ih =>
    simp only [walkSegments, Numbered, Scanner.Format, List.forall_mem_cons] at ih ⊢
    by_cases hi : f.id = k
    swap
    · simp [hi]
    subst hi
    by_cases hodd : f.id % 2 = 1
    · by_cases htype : f.fieldType = 0x01
      · simp only [if_pos, hodd, htype, true_and]
        exact ih (.inr (by simp))
      · simp [hodd, htype]
    · by_cases htype : f.fieldType = 0x03 ∧ f.data.length = 4
      · -- after a name there is a segment that waits for its count
        have hlast := List.getLast?_eq_some_getLast (hk.resolve_left hodd)
        simp only [if_pos, if_neg hodd, htype, hlast, true_and]
        exact ih (.inr (by simp))
      · simp [hodd, htype]

/-- The number of days, properties and days. -/
theorem isSome_walkAvail {json : Bytes} {fs : List Field} (hne : fs ≠ []) :
    (walkAvail env json true 1 fs).isSome ↔
      Numbered 1 fs ∧ Scanner.searchAvail.Format env fs := by
  rcases fs with _ | ⟨numDays, fs⟩
  · exact absurd rfl hne
  rw [walkAvail_cons, Scanner.Format, availOf]
  by_cases hn : Numbered 1 (numDays :: fs)
  · by_cases hdays : numDays.fieldType = 0x02 ∧ numDays.data.length = 2
    · simp [hn, hdays]
    · rw [if_neg fun h => hdays h.2, if_neg hdays]
      simp
  · simp [hn]

namespace Scanner

/-- The walk that the loop of a decoder follows. -/
def walk (data : Bytes) : (S : Scanner) → (S.loop env metrics).Walk data metrics
  | propRoomList => stringFieldWalk metrics (f := fun bytes => [fromUtf8Lossy bytes])
      (fun _ _ => rfl) data
  | propRoomDateList => stringFieldWalk metrics
      (f := fun bytes => if bytes ≠ [] then [bytes] else [])
      (fun items bytes => by by_cases hb : bytes = [] <;> simp [hb]) data
  | getSegments => getSegmentsWalk metrics data
  | searchAvail => searchAvailWalk env metrics data

theorem isSome_walk (S : Scanner) (data : Bytes) (off : ℕ) {fs : List Field} (hne : fs ≠ []) :
    ((S.walk env metrics data).walk ((S.loop env metrics).start off) fs).isSome ↔
      Numbered 1 fs ∧ S.Format env fs := by
  cases S with
  | propRoomList | propRoomDateList => exact isSome_walkStrings _ 1 fs
  | getSegments => exact isSome_walkSegments env (.inl rfl)
  | searchAvail => exact isSome_walkAvail env hne

/-- What a decoder accepts is in order, and there is a loop for it. -/
theorem of_accepts (S : Scanner) {fieldCount : UInt16} {fs : List Field} {tail : Bytes}
    (h0 : fieldCount ≠ 0) (h : S.decoder.Accepts env fieldCount fs tail) :
    tail.length < 7 ∧ UInt16.ofNat fs.length = fieldCount ∧ S.Entered fieldCount ∧
      Numbered 1 fs ∧ S.Format env fs := by
  cases S with
  | propRoomList | propRoomDateList =>
    obtain ⟨⟨hz, -⟩ | ⟨-, htail, hn, hc⟩, hs⟩ := h
    · exact absurd hz h0
    · exact ⟨htail, hc, h0, hn, hs⟩
  | getSegments =>
    obtain ⟨⟨hz, -⟩ | ⟨-, htail, hn, hc⟩, hs⟩ := h
    · exact absurd hz h0
    obtain ⟨segments, hsegments⟩ := Option.isSome_iff_exists.mp hs
    have heven := segmentsOf_length hsegments
    have hwalk : (walkSegments [] 1 fs).isSome := by
      rw [walkSegments_eq rfl [] heven, if_pos hn, hsegments]
      rfl
    exact ⟨htail, hc, ⟨h0, count_even_of_length hc heven⟩,
      (isSome_walkSegments env (.inl rfl)).mp hwalk⟩
  | searchAvail =>
    obtain ⟨⟨hz, -⟩ | ⟨-, htail, hn, hc⟩, hs⟩ := h
    · exact absurd hz h0
    have hs := hs h0
    obtain ⟨properties, hproperties⟩ := Option.isSome_iff_exists.mp hs
    exact ⟨htail, hc, ⟨h0, availOf_counted env hproperties hc⟩, hn, hs⟩

end Scanner

/-! ## Counters in range -/

/-- The counter of a decoder stays in range, and where the reply is answered by 200 as many fields
are read as it announces. -/
structure CountersKept (S : Scanner) (payload : Bytes) : Prop where
  inRange : ∀ fieldCount off, readSuccess metrics payload = next (fieldCount, off) →
    S.Entered fieldCount → (S.loop env metrics).InRange payload off
  counted : ∀ fieldCount off rsp metrics', readSuccess metrics payload = next (fieldCount, off) →
    fieldCount ≠ 0 → S.decoder.decode env metrics payload = .ok (rsp, metrics') →
    rsp.status = .ok → ∃ fs, (S.loop env metrics).Reads payload off fs ∧
      fs.length = fieldCount.toNat

/-- A successful reply, for which the loop is entered, begins with 65535 fields in order. -/
def LongScan (S : Scanner) (payload : Bytes) : Prop :=
  ∃ fieldCount rest fs tail, takeHead payload = some (utf8 "SUCCESS", fieldCount, rest) ∧
    S.Entered fieldCount ∧ takeFields fs.length rest = some (fs, tail) ∧ 65535 ≤ fs.length ∧
    Numbered 1 fs ∧ S.Format env fs

/-- The head of a reply that a decoder goes on with. -/
theorem takeHead_of_readSuccess {payload : Bytes} {fieldCount : UInt16} {off : ℕ}
    (h : readSuccess metrics payload = next (fieldCount, off)) :
    takeHead payload = some (utf8 "SUCCESS", fieldCount, payload.drop off) := by
  rcases readSuccess_eq metrics payload with ⟨-, hr⟩ | ⟨status, fieldCount', off', ht, -, hr⟩
  · rw [hr] at h
    cases h
  · rw [hr] at h
    split_ifs at h with hs
    cases h
    rw [ht, hs]

/-- **The loop of a decoder**: a reply that is answered by 200 leaves it in a state that it comes
to, where the counter is one more than the reply announces. -/
theorem Scanner.exists_left (S : Scanner) {payload : Bytes} {fieldCount : UInt16} {off : ℕ}
    {rsp : Response} {metrics' : Metrics}
    (hread : readSuccess metrics payload = next (fieldCount, off)) (h0 : fieldCount ≠ 0)
    (hdecode : S.decoder.decode env metrics payload = .ok (rsp, metrics'))
    (hstatus : rsp.status = .ok) :
    ∃ t, (S.loop env metrics).Visited payload off t ∧ ¬ (S.loop env metrics).Goes payload t ∧
      (S.loop env metrics).counter t - 1 = fieldCount := by
  have hinvalid {r : Response × Metrics} (hr : r = (invalidResponse, metrics))
      (hrsp : r = (rsp, metrics')) : False := by
    rw [hr] at hrsp
    cases hrsp
    cases hstatus
  obtain ⟨empty, finish, heq⟩ := S.decode_eq env metrics
  rw [heq, hread, next_bind] at hdecode
  dsimp only at hdecode
  rw [if_neg h0] at hdecode
  split_ifs at hdecode with hentered
  · cases hloop : whileLoop ((S.loop env metrics).Goes payload) ((S.loop env metrics).round payload)
        (payload.length + 1) ((S.loop env metrics).start off) with
    | panic p =>
      rw [hloop] at hdecode
      cases hdecode
    | ret r =>
      -- a round returns only where it meets a field that it does not take
      obtain ⟨t, -, hgoes, hret⟩ := rounds_of_whileLoop_ret hloop
      rw [hloop, ret_bind, run_ret] at hdecode
      rcases (S.walk env metrics payload).reads t hgoes with ⟨hr, -⟩ | ⟨_, _, hnext, -⟩
      · rw [hret] at hr
        cases hr
        exact (hinvalid rfl (Except.ok.inj hdecode)).elim
      · rw [hret] at hnext
        cases hnext
    | next t =>
      obtain ⟨hvisited, hend⟩ := rounds_of_whileLoop hloop
      rw [hloop, next_bind] at hdecode
      split_ifs at hdecode with hcount
      · rw [run_ret] at hdecode
        exact (hinvalid rfl (Except.ok.inj hdecode)).elim
      · exact ⟨t, hvisited, hend, not_not.mp hcount⟩
  · rw [run_ret] at hdecode
    exact (hinvalid rfl (Except.ok.inj hdecode)).elim

/-- **The counters of a decoder do not overflow**, and count the fields as a number, exactly if the
payload does not begin with 65535 fields in order. -/
theorem countersKept_iff (env : Env) (metrics : Metrics) (S : Scanner) (payload : Bytes) :
    CountersKept env metrics S payload ↔ ¬ LongScan env S payload := by
  constructor
  · rintro h ⟨fieldCount, rest, fs, tail, hhead, hentered, ht, hlong, horder⟩
    obtain ⟨off, rfl, hread⟩ := exists_readSuccess metrics hhead
    have hne : fs ≠ [] := by
      rintro rfl
      simp at hlong
    have hrange := h.inRange fieldCount off hread hentered
    have hlt := (S.walk env metrics payload).inRange_iff.mp hrange fs tail ht
      ((S.isSome_walk env metrics payload off hne).mpr horder)
    omega
  intro h
  have hshort {fieldCount : UInt16} {rest : Bytes} {fs : List Field} {tail : Bytes}
      (hhead : takeHead payload = some (utf8 "SUCCESS", fieldCount, rest))
      (hentered : S.Entered fieldCount) (ht : takeFields fs.length rest = some (fs, tail))
      (horder : Numbered 1 fs ∧ S.Format env fs) : fs.length < 65535 := by
    by_contra hlong
    exact h ⟨fieldCount, rest, fs, tail, hhead, hentered, ht, Nat.le_of_not_lt hlong, horder⟩
  constructor
  · intro fieldCount off hread hentered
    refine (S.walk env metrics payload).inRange_iff.mpr fun fs tail ht hw => ?_
    by_cases hne : fs = []
    · rw [hne]
      exact Nat.zero_lt_succ _
    · exact hshort (takeHead_of_readSuccess metrics hread) hentered ht
        ((S.isSome_walk env metrics payload off hne).mp hw)
  · intro fieldCount off rsp metrics' hread h0 hdecode hstatus
    have hhead := takeHead_of_readSuccess metrics hread
    obtain ⟨metrics'', hanswer, -⟩ := answers_decode env metrics S.decoder payload
    rw [hdecode] at hanswer
    cases hanswer
    obtain ⟨_, _, fs, tail, hhead', ht, haccepts⟩ :=
      (status_answer_iff S.decoder payload).mp hstatus
    rw [hhead] at hhead'
    cases hhead'
    obtain ⟨htail, hcount, hentered, horder⟩ := S.of_accepts env h0 haccepts
    have hlt := hshort hhead hentered ht horder
    have hne : fs ≠ [] := by
      rintro rfl
      exact h0 hcount.symm
    obtain ⟨t, hvisited, rfl, -⟩ := (S.walk env metrics payload).exists_visited_of_start ht
      ((S.isSome_walk env metrics payload off hne).mpr horder)
    refine ⟨fs, ⟨t, hvisited, ?_, ht⟩, ?_⟩
    · rw [List.length_drop] at htail
      show ¬ (S.loop env metrics).offset t + 7 ≤ payload.length
      omega
    · rw [← hcount, UInt16.toNat_ofNat', Nat.mod_eq_of_lt (by omega)]

/-- Empty strings with the ids from `k` on. -/
def emptyStrings (k : ℕ) : ℕ → List Field
  | 0 => []
  | n + 1 => ⟨UInt16.ofNat k, 0x01, []⟩ :: emptyStrings (k + 1) n

theorem length_emptyStrings (k n : ℕ) : (emptyStrings k n).length = n := by
  induction n generalizing k with
  | zero => rfl
  | succ n ih => rw [emptyStrings, List.length_cons, ih]

theorem numbered_emptyStrings (k n : ℕ) : Numbered (UInt16.ofNat k) (emptyStrings k n) := by
  induction n generalizing k with
  | zero => trivial
  | succ n ih => exact ⟨rfl, by simpa [UInt16.ofNat_add] using ih (k + 1)⟩

theorem mem_emptyStrings {k n : ℕ} {f : Field} (h : f ∈ emptyStrings k n) :
    f.fieldType = 0x01 ∧ f.data = [] := by
  induction n generalizing k with
  | zero => cases h
  | succ n ih =>
    rcases List.mem_cons.mp h with rfl | h
    · exact ⟨rfl, rfl⟩
    · exact ih h

/-- **A list of 65535 room types** takes the counter out of its range. -/
theorem not_forall_countersKept :
    ¬ ∀ (env : Env) (metrics : Metrics) (S : Scanner) (payload : Bytes),
      CountersKept env metrics S payload := by
  intro h
  refine (countersKept_iff _ _ _ _).mp (h (.documented []) ⟨0, 0⟩ .propRoomList
    (successBytes (emptyStrings 1 65535))) ?_
  have hfits : ∀ f ∈ emptyStrings 1 65535, f.Fits := by
    intro f hf
    rw [Field.Fits, (mem_emptyStrings hf).2]
    exact Nat.two_pow_pos 32
  have ht := takeFields_flatMap hfits []
  rw [List.append_nil] at ht
  refine ⟨_, _, _, _, takeHead_headBytes (by decide) _ _, ?_, ht, ?_,
    numbered_emptyStrings 1 65535, fun f hf => (mem_emptyStrings hf).1⟩
  · rw [length_emptyStrings]
    exact (by decide : UInt16.ofNat 65535 ≠ 0)
  · rw [length_emptyStrings]

end RzProxy
