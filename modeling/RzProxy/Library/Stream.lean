import Mathlib.Data.List.Basic
import Mathlib.Tactic.Common

/-!
# Splitting a stream that arrives in chunks

A splitter looks at a buffer and finds it incomplete, broken, or beginning with an item. Its
verdicts survive more input, so what it finds in a stream does not depend on how the stream is cut
into reads: reading chunk by chunk into one buffer gives what splitting the whole stream gives.

## Main definitions

* `Look`, `Splitter`: a verdict on a buffer, and a function giving stable verdicts
* `Splitter.next`: read chunks into the buffer until the splitter has a verdict
* `Splitter.drain`: `next`, repeated on one buffer until the first failure
* `Splitter.split`: the items and the failure of an uncut stream
* `Layout`: records with a head that gives the length of the body

## Main results

* `Splitter.drain_eq_split`: the chunks do not matter
* `Splitter.split_flatMap`: a concatenation of encoded items splits into the items
-/

namespace Streaming

/-- What one look at a buffer finds. -/
inductive Look (β α ε : Type*)
  | more
  | fail (e : ε)
  | item (a : α) (rest : List β)
  deriving DecidableEq

/-- A splitter: verdicts that more input does not change, and items that take some input. -/
structure Splitter (β α ε : Type*) where
  look : List β → Look β α ε
  endOfStream : ε
  length_lt_of_item : ∀ {buf a rest}, look buf = .item a rest → rest.length < buf.length
  item_append : ∀ {buf a rest}, look buf = .item a rest →
    ∀ ys, look (buf ++ ys) = .item a (rest ++ ys)
  fail_append : ∀ {buf e}, look buf = .fail e → ∀ ys, look (buf ++ ys) = .fail e

namespace Splitter

variable {β α ε : Type*} (s : Splitter β α ε)

/-- Look at the buffer, reading one more chunk each time it is incomplete. A read of nothing is the
end of the stream, as is running out of chunks. -/
def next : List (List β) → List β → Except ε α × List (List β) × List β
  | [], buf =>
    match s.look buf with
    | .more => (.error s.endOfStream, [], buf)
    | .fail e => (.error e, [], buf)
    | .item a rest => (.ok a, [], rest)
  | chunk :: chunks, buf =>
    match s.look buf with
    | .more =>
      if chunk = [] then (.error s.endOfStream, chunks, buf) else next chunks (buf ++ chunk)
    | .fail e => (.error e, chunk :: chunks, buf)
    | .item a rest => (.ok a, chunk :: chunks, rest)

theorem next_of_fail {buf : List β} {e : ε} (h : s.look buf = .fail e) (chunks : List (List β)) :
    s.next chunks buf = (.error e, chunks, buf) := by
  cases chunks <;> simp [next, h]

theorem next_of_item {buf rest : List β} {a : α} (h : s.look buf = .item a rest)
    (chunks : List (List β)) : s.next chunks buf = (.ok a, chunks, rest) := by
  cases chunks <;> simp [next, h]

/-- An item found by `next` was taken from the buffer and the chunks together. -/
theorem next_ok {chunks chunks' : List (List β)} {buf buf' : List β} {a : α}
    (h : s.next chunks buf = (.ok a, chunks', buf')) :
    s.look (buf ++ chunks.flatten) = .item a (buf' ++ chunks'.flatten) ∧
      buf'.length + chunks'.flatten.length < buf.length + chunks.flatten.length := by
  -- induction on the reads that are left, with any buffer before them
  induction chunks generalizing buf with
  | nil =>
    cases hl : s.look buf with
    | more => simp [next, hl] at h
    | fail e => simp [next, hl] at h
    | item b rest =>
      simp only [s.next_of_item hl, Prod.mk.injEq, Except.ok.injEq] at h
      obtain ⟨rfl, rfl, rfl⟩ := h
      simpa [hl] using s.length_lt_of_item hl
  | cons chunk chunks ih =>
    cases hl : s.look buf with
    | more =>
      by_cases hc : chunk = []
      · simp [next, hl, hc] at h
      · simp only [next, hl, hc, if_false] at h
        obtain ⟨hi, hlt⟩ := ih h
        refine ⟨by simpa [List.append_assoc] using hi, ?_⟩
        simp only [List.length_append, List.flatten_cons] at hlt ⊢
        omega
    | fail e => simp [s.next_of_fail hl] at h
    | item b rest =>
      simp only [s.next_of_item hl, Prod.mk.injEq, Except.ok.injEq] at h
      obtain ⟨rfl, rfl, rfl⟩ := h
      refine ⟨s.item_append hl _, ?_⟩
      have := s.length_lt_of_item hl
      omega

/-- Call `next` on one buffer until the first failure: the items, and the failure. -/
def drain (chunks : List (List β)) (buf : List β) : List α × ε :=
  match _h : s.next chunks buf with
  | (.error e, _, _) => ([], e)
  | (.ok a, chunks', buf') => (a :: (drain chunks' buf').1, (drain chunks' buf').2)
termination_by buf.length + chunks.flatten.length
decreasing_by all_goals exact (s.next_ok _h).2

/-- The items of an uncut stream, and the failure that ends it. -/
def split (stream : List β) : List α × ε :=
  match _h : s.look stream with
  | .more => ([], s.endOfStream)
  | .fail e => ([], e)
  | .item a rest => (a :: (split rest).1, (split rest).2)
termination_by stream.length
decreasing_by all_goals exact s.length_lt_of_item _h

variable {s}

theorem split_of_more {stream : List β} (h : s.look stream = .more) :
    s.split stream = ([], s.endOfStream) := by
  rw [split]; split <;> simp_all

theorem split_of_fail {stream : List β} {e : ε} (h : s.look stream = .fail e) :
    s.split stream = ([], e) := by
  rw [split]; split <;> simp_all

theorem split_of_item {stream rest : List β} {a : α} (h : s.look stream = .item a rest) :
    s.split stream = (a :: (s.split rest).1, (s.split rest).2) := by
  rw [split]; split <;> simp_all

theorem drain_of_error {chunks chunks' : List (List β)} {buf buf' : List β} {e : ε}
    (h : s.next chunks buf = (.error e, chunks', buf')) : s.drain chunks buf = ([], e) := by
  rw [drain]; split <;> simp_all

theorem drain_of_ok {chunks chunks' : List (List β)} {buf buf' : List β} {a : α}
    (h : s.next chunks buf = (.ok a, chunks', buf')) :
    s.drain chunks buf = (a :: (s.drain chunks' buf').1, (s.drain chunks' buf').2) := by
  rw [drain]; split <;> simp_all

/-- A failure of `next` is the failure of the stream that is left. -/
theorem split_of_next_error {chunks chunks' : List (List β)} {buf buf' : List β} {e : ε}
    (hne : ∀ c ∈ chunks, c ≠ []) (h : s.next chunks buf = (.error e, chunks', buf')) :
    s.split (buf ++ chunks.flatten) = ([], e) := by
  induction chunks generalizing buf with
  | nil =>
    cases hl : s.look buf with
    | more =>
      obtain rfl : s.endOfStream = e := by simpa [next, hl] using congrArg Prod.fst h
      simpa using split_of_more hl
    | fail e' =>
      obtain rfl : e' = e := by simpa [next, hl] using congrArg Prod.fst h
      simpa using split_of_fail hl
    | item b rest => simp [s.next_of_item hl] at h
  | cons chunk chunks ih =>
    cases hl : s.look buf with
    | more =>
      have hc : chunk ≠ [] := hne chunk (by simp)
      simp only [next, hl, hc, if_false] at h
      simpa [List.append_assoc] using ih (fun c hm => hne c (by simp [hm])) h
    | fail e' =>
      obtain rfl : e' = e := by simpa [s.next_of_fail hl] using congrArg Prod.fst h
      exact split_of_fail (s.fail_append hl _)
    | item b rest => simp [s.next_of_item hl] at h

/-- The chunks left by `next` are among the chunks it was given. -/
theorem mem_of_mem_next {chunks chunks' : List (List β)} {buf buf' : List β} {r : Except ε α}
    (h : s.next chunks buf = (r, chunks', buf')) {c : List β} (hc : c ∈ chunks') :
    c ∈ chunks := by
  induction chunks generalizing buf with
  | nil => cases hl : s.look buf <;> simp_all [next]
  | cons chunk chunks ih =>
    cases hl : s.look buf with
    | more =>
      by_cases hn : chunk = []
      · simp only [next, hl, hn, if_true, Prod.mk.injEq] at h
        exact List.mem_cons_of_mem _ (h.2.1 ▸ hc)
      · simp only [next, hl, hn, if_false] at h
        exact List.mem_cons_of_mem _ (ih h)
    | fail e =>
      simp only [s.next_of_fail hl, Prod.mk.injEq] at h
      exact h.2.1 ▸ hc
    | item a rest =>
      simp only [s.next_of_item hl, Prod.mk.injEq] at h
      exact h.2.1 ▸ hc

/-- **The chunks do not matter**: reading a stream chunk by chunk into one buffer gives the items
and the failure of the uncut stream. -/
theorem drain_eq_split (s : Splitter β α ε) (chunks : List (List β)) (buf : List β)
    (hne : ∀ c ∈ chunks, c ≠ []) :
    s.drain chunks buf = s.split (buf ++ chunks.flatten) := by
  induction hn : buf.length + chunks.flatten.length using Nat.strongRecOn
    generalizing chunks buf with
  | ind n ih =>
    rcases h : s.next chunks buf with ⟨e | a, chunks', buf'⟩
    · rw [drain_of_error h, split_of_next_error hne h]
    · obtain ⟨hi, hlt⟩ := s.next_ok h
      rw [drain_of_ok h, split_of_item hi,
        ih _ (hn ▸ hlt) chunks' buf' (fun c hc => hne c (mem_of_mem_next h hc)) rfl]

/-- What is cut off an item is incomplete. -/
theorem look_of_cut {cut ys : List β} {a : α} (h : s.look (cut ++ ys) = .item a [])
    (hne : ys ≠ []) : s.look cut = .more := by
  cases hl : s.look cut with
  | more => rfl
  | fail e =>
    rw [s.fail_append hl] at h
    cases h
  | item b rest =>
    rw [s.item_append hl, Look.item.injEq] at h
    exact absurd (List.append_eq_nil_iff.mp h.2).2 hne

/-- **A concatenation of encoded items** splits into the items, and then as what follows them. -/
theorem split_flatMap (s : Splitter β α ε) {γ : Type*} (enc : γ → List β) (val : γ → α)
    (cs : List γ) (tail : List β)
    (h : ∀ c ∈ cs, ∀ rest, s.look (enc c ++ rest) = .item (val c) rest) :
    s.split (cs.flatMap enc ++ tail) = (cs.map val ++ (s.split tail).1, (s.split tail).2) := by
  induction cs with
  | nil => simp
  | cons c cs ih =>
    have hc := h c (by simp) (cs.flatMap enc ++ tail)
    rw [List.flatMap_cons, List.append_assoc, split_of_item hc,
      ih fun c' hm => h c' (by simp [hm])]
    rfl

end Splitter

/-! ## Records with a head of fixed length -/

/-- A layout of records: a head of fixed length, from which the length of the body is read. -/
structure Layout (β α ε : Type*) where
  headLen : ℕ
  headLen_pos : 0 < headLen
  bodyLen : List β → Except ε ℕ
  value : List β → List β → Except ε α

namespace Layout

variable {β α ε : Type*} (l : Layout β α ε)

/-- A record is looked for once its head is there, and its value once its body is. -/
def look (buf : List β) : Look β α ε :=
  if buf.length < l.headLen then .more
  else
    match l.bodyLen (buf.take l.headLen) with
    | .error e => .fail e
    | .ok n =>
      if buf.length < l.headLen + n then .more
      else
        match l.value (buf.take l.headLen) ((buf.drop l.headLen).take n) with
        | .error e => .fail e
        | .ok a => .item a (buf.drop (l.headLen + n))

theorem look_append {buf : List β} (h : l.look buf ≠ .more) (ys : List β) :
    l.look (buf ++ ys) =
      match l.look buf with
      | .more => .more
      | .fail e => .fail e
      | .item a rest => .item a (rest ++ ys) := by
  -- an answer needs the head, and the head decides how many bytes of body it needs
  unfold look at h ⊢
  by_cases h₁ : buf.length < l.headLen
  · simp [h₁] at h
  have h₁' : ¬ (buf ++ ys).length < l.headLen := by simp only [List.length_append]; omega
  have ht : (buf ++ ys).take l.headLen = buf.take l.headLen :=
    List.take_append_of_le_length (by omega)
  simp only [if_neg h₁, if_neg h₁', ht] at h ⊢
  cases hn : l.bodyLen (buf.take l.headLen) with
  | error e => rfl
  | ok n =>
    simp only [hn] at h ⊢
    by_cases h₂ : buf.length < l.headLen + n
    · simp [h₂] at h
    have h₂' : ¬ (buf ++ ys).length < l.headLen + n := by
      simp only [List.length_append]; omega
    have hb : ((buf ++ ys).drop l.headLen).take n = (buf.drop l.headLen).take n := by
      rw [List.drop_append_of_le_length (by omega),
        List.take_append_of_le_length (by simp only [List.length_drop]; omega)]
    have hd : (buf ++ ys).drop (l.headLen + n) = buf.drop (l.headLen + n) ++ ys :=
      List.drop_append_of_le_length (by omega)
    simp only [if_neg h₂, if_neg h₂', hb, hd]
    rcases l.value (buf.take l.headLen) ((buf.drop l.headLen).take n) with e | a <;> rfl

theorem length_lt_of_look {buf rest : List β} {a : α} (h : l.look buf = .item a rest) :
    rest.length < buf.length := by
  have hp := l.headLen_pos
  unfold look at h
  split_ifs at h with h₁
  rcases hn : l.bodyLen (buf.take l.headLen) with e | n
  · simp [hn] at h
  · simp only [hn] at h
    split_ifs at h with h₂
    rcases hv : l.value (buf.take l.headLen) ((buf.drop l.headLen).take n) with e | a'
    · simp [hv] at h
    · simp only [hv, Look.item.injEq] at h
      obtain ⟨-, rfl⟩ := h
      simp only [List.length_drop]
      omega

/-- The splitter of a layout, and the failure with which a stream of records ends. -/
def splitter (endOfStream : ε) : Splitter β α ε where
  look := l.look
  endOfStream := endOfStream
  length_lt_of_item := l.length_lt_of_look
  item_append h ys := by rw [l.look_append (by simp [h]), h]
  fail_append h ys := by rw [l.look_append (by simp [h]), h]

/-- A head and a body laid out as the head says are a record. -/
theorem look_record {head body : List β} {a : α} (hh : head.length = l.headLen)
    (hn : l.bodyLen head = .ok body.length) (hv : l.value head body = .ok a) (rest : List β) :
    l.look (head ++ (body ++ rest)) = .item a rest := by
  have ht : (head ++ (body ++ rest)).take l.headLen = head := by
    rw [← hh, List.take_left]
  have hd : (head ++ (body ++ rest)).drop l.headLen = body ++ rest := by
    rw [← hh, List.drop_left]
  have hr : (head ++ (body ++ rest)).drop (l.headLen + body.length) = rest := by
    rw [← List.drop_drop, hd, List.drop_left]
  have hl : (head ++ (body ++ rest)).length = l.headLen + body.length + rest.length := by
    simp only [List.length_append]; omega
  simp only [look, ht, hn, hd, List.take_left, hv, hr]
  rw [if_neg (by omega), if_neg (by omega)]

/-- A record that was found is a record in front of any bytes. -/
theorem exists_used_of_look {buf rest : List β} {a : α} (h : l.look buf = .item a rest) :
    ∃ used, buf = used ++ rest ∧ ∀ ys, l.look (used ++ ys) = .item a ys := by
  unfold look at h
  split_ifs at h with h₁
  cases hn : l.bodyLen (buf.take l.headLen) with
  | error e => simp [hn] at h
  | ok n =>
    simp only [hn] at h
    split_ifs at h with h₂
    cases hv : l.value (buf.take l.headLen) ((buf.drop l.headLen).take n) with
    | error e => simp [hv] at h
    | ok a' =>
      simp only [hv, Look.item.injEq] at h
      obtain ⟨rfl, rfl⟩ := h
      have hbody : ((buf.drop l.headLen).take n).length = n := by
        simp only [List.length_take, List.length_drop]
        omega
      refine ⟨buf.take l.headLen ++ (buf.drop l.headLen).take n, ?_, fun ys => ?_⟩
      · rw [List.append_assoc, ← List.drop_drop, List.take_append_drop, List.take_append_drop]
      · rw [List.append_assoc]
        refine l.look_record ?_ (by rw [hbody, hn]) hv ys
        simp only [List.length_take]
        omega

end Layout

end Streaming
