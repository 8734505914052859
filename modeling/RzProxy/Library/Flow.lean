import RzProxy.Library.LittleEndian
import Mathlib.Data.List.Basic
import Mathlib.Logic.Relation
import Mathlib.Tactic.Common

/-!
# Functions that may panic and may return early

The control flow of an imperative function: a statement panics, leaves the function with its
result, or gives the value that the rest of the function goes on with. Indexing and slicing panic
out of range, and a loop that does not end within its fuel counts as a panic, so that a function
that evaluates to a result has read in range and has ended.

## Main definitions

* `Panic`, `Exec`: the ways to panic, and an evaluation that may
* `Flow ρ α`: a statement with value `α` in a function that returns `ρ`
* `index`, `slice`, `unwrap`, `addU8`, `addI32`, `whileLoop`: the statements that may panic
* `Round`: the rounds of a loop, as a relation
* `Leaves R Q`: what holds where a statement returns, and where it goes on

## Main results

* `rounds_of_whileLoop`, `rounds_of_whileLoop_ret`: a loop is left where its rounds take it
* `whileLoop_eq`: the rule for a loop whose rounds keep what the state means
* `Leaves.bind`, `Leaves.whileLoop`, `Leaves.of_run`: the rules for the ways out of a function
-/

namespace Evaluation

/-- The ways in which an evaluation panics, and `fuel` for a loop that did not end. -/
inductive Panic
  | index
  | slice
  | unwrapNone
  | overflow
  | fuel
  deriving DecidableEq

/-- An evaluation that may panic. -/
abbrev Exec := Except Panic

/-- A statement of a function that returns `ρ`: it panics, returns, or goes on with an `α`. -/
inductive Flow (ρ α : Type)
  | panic (p : Panic)
  | ret (r : ρ)
  | next (a : α)
  deriving DecidableEq

namespace Flow

variable {ρ α β : Type}

/-- The rest of the function, after a statement. -/
def bind : Flow ρ α → (α → Flow ρ β) → Flow ρ β
  | panic p, _ => panic p
  | ret r, _ => ret r
  | next a, f => f a

instance : Monad (Flow ρ) where
  pure := next
  bind := bind

@[simp] theorem pure_eq (a : α) : (pure a : Flow ρ α) = next a := rfl

@[simp] theorem panic_bind (p : Panic) (f : α → Flow ρ β) : (panic p >>= f) = panic p := rfl

@[simp] theorem ret_bind (r : ρ) (f : α → Flow ρ β) : (ret r >>= f) = ret r := rfl

@[simp] theorem next_bind (a : α) (f : α → Flow ρ β) : (next a >>= f) = f a := rfl

theorem bind_bind {γ : Type} (x : Flow ρ α) (f : α → Flow ρ β) (g : β → Flow ρ γ) :
    (x >>= f >>= g) = x >>= fun a => f a >>= g := by
  cases x <;> rfl

/-- The value of a function, which returns at its end if not before. -/
def run : Flow ρ ρ → Exec ρ
  | panic p => .error p
  | ret r => .ok r
  | next r => .ok r

@[simp] theorem run_ret (r : ρ) : run (ret r) = .ok r := rfl

@[simp] theorem run_next (r : ρ) : run (next r) = .ok r := rfl

/-- A call of a function. -/
def call : Exec α → Flow ρ α
  | .error p => panic p
  | .ok a => next a

@[simp] theorem call_ok (a : α) : (call (.ok a) : Flow ρ α) = next a := rfl

/-- `if c { return r }`. -/
def returnIf (c : Prop) [Decidable c] (r : ρ) : Flow ρ Unit := if c then ret r else next ()

theorem returnIf_bind (c : Prop) [Decidable c] (r : ρ) (f : Unit → Flow ρ β) :
    (returnIf c r >>= f) = if c then ret r else f () := by
  unfold returnIf
  split <;> rfl

theorem ite_ret_bind (c : Prop) [Decidable c] (r : ρ) (x : Flow ρ α) (f : α → Flow ρ β) :
    ((if c then ret r else x) >>= f) = if c then ret r else x >>= f := by
  split <;> rfl

@[simp] theorem returnIf_of_pos {c : Prop} [Decidable c] (h : c) (r : ρ) :
    returnIf c r = ret r := if_pos h

@[simp] theorem returnIf_of_neg {c : Prop} [Decidable c] (h : ¬ c) (r : ρ) :
    returnIf c r = next () := if_neg h

/-- The value of a result, or a return of `r` on an error. -/
def okOr {ε : Type} (r : ρ) : Except ε α → Flow ρ α
  | .error _ => ret r
  | .ok a => next a

@[simp] theorem okOr_error {ε : Type} (r : ρ) (e : ε) :
    (okOr r (.error e) : Flow ρ α) = ret r := rfl

@[simp] theorem okOr_ok {ε : Type} (r : ρ) (a : α) :
    okOr r (.ok a : Except ε α) = next a := rfl

/-! ## Statements that may panic -/

/-- `data[i]`. -/
def index (data : List α) (i : ℕ) : Flow ρ α :=
  match data[i]? with
  | some a => next a
  | none => panic .index

/-- `&data[i..j]`. -/
def slice (data : List α) (i j : ℕ) : Flow ρ (List α) :=
  if i ≤ j ∧ j ≤ data.length then next ((data.drop i).take (j - i)) else panic .slice

/-- `x.unwrap()`. -/
def unwrap : Option α → Flow ρ α
  | some a => next a
  | none => panic .unwrapNone

theorem index_of_lt {data : List α} {i : ℕ} (h : i < data.length) :
    (index data i : Flow ρ α) = next data[i] := by
  simp [index, h]

theorem slice_of_le {data : List α} {i j : ℕ} (h : i ≤ j ∧ j ≤ data.length) :
    (slice data i j : Flow ρ (List α)) = next ((data.drop i).take (j - i)) := if_pos h

theorem slice_zero {data : List α} {j : ℕ} (h : j ≤ data.length) :
    (slice data 0 j : Flow ρ (List α)) = next (data.take j) :=
  slice_of_le ⟨Nat.zero_le j, h⟩

theorem slice_length {data : List α} {i : ℕ} (h : i ≤ data.length) :
    (slice data i data.length : Flow ρ (List α)) = next (data.drop i) := by
  rw [slice_of_le ⟨h, le_rfl⟩, ← List.length_drop, List.take_length]

/-- `a + b` on `u8`, checked. -/
def addU8 (a b : UInt8) : Flow ρ UInt8 :=
  if a.toNat + b.toNat < 256 then next (a + b) else panic .overflow

/-- `a + b` on `i32`, checked. -/
def addI32 (a b : ℤ) : Flow ρ ℤ :=
  if -2 ^ 31 ≤ a + b ∧ a + b < 2 ^ 31 then next (a + b) else panic .overflow

@[simp] theorem unwrap_some (a : α) : (unwrap (some a) : Flow ρ α) = next a := rfl

/-! ## Loops -/

section Loop

/-- A round of a loop takes `s` to `t`. -/
def Round {σ : Type} (cond : σ → Prop) (body : σ → Flow ρ σ) (s t : σ) : Prop :=
  cond s ∧ body s = next t

variable {σ : Type} (cond : σ → Prop) [DecidablePred cond] (body : σ → Flow ρ σ)

/-- `while cond { body }`, for at most `fuel` rounds. -/
def whileLoop : ℕ → σ → Flow ρ σ
  | 0, s => if cond s then panic .fuel else next s
  | fuel + 1, s => if cond s then body s >>= whileLoop fuel else next s

variable {cond body}

/-- A loop ends where its rounds take it and it does not go on. -/
theorem rounds_of_whileLoop {n : ℕ} {s t : σ} (h : whileLoop cond body n s = next t) :
    Relation.ReflTransGen (Round cond body) s t ∧ ¬ cond t := by
  -- induction on the fuel: the loop ends only where its condition fails
  induction n generalizing s with
  | zero =>
    rw [whileLoop] at h
    split_ifs at h with hc
    cases h
    exact ⟨.refl, hc⟩
  | succ n ih =>
    rw [whileLoop] at h
    split_ifs at h with hc
    · cases hb : body s with
      | panic p =>
        rw [hb] at h
        cases h
      | ret r =>
        rw [hb] at h
        cases h
      | next s' =>
        rw [hb, next_bind] at h
        obtain ⟨hrounds, hend⟩ := ih h
        exact ⟨.head ⟨hc, hb⟩ hrounds, hend⟩
    · cases h
      exact ⟨.refl, hc⟩

/-- A function that returns from a loop returns from the round that its rounds take it to. -/
theorem rounds_of_whileLoop_ret {n : ℕ} {s : σ} {r : ρ} (h : whileLoop cond body n s = ret r) :
    ∃ t, Relation.ReflTransGen (Round cond body) s t ∧ cond t ∧ body t = ret r := by
  induction n generalizing s with
  | zero =>
    rw [whileLoop] at h
    split_ifs at h
  | succ n ih =>
    rw [whileLoop] at h
    split_ifs at h with hc
    cases hb : body s with
    | panic p =>
      rw [hb] at h
      cases h
    | ret r' =>
      rw [hb, ret_bind] at h
      cases h
      exact ⟨s, .refl, hc, hb⟩
    | next s' =>
      rw [hb, next_bind] at h
      obtain ⟨t, hrounds, hend⟩ := ih h
      exact ⟨t, .head ⟨hc, hb⟩ hrounds, hend⟩

/-- **The rule for loops.** `G s` is what the state `s` means: the value that the loop comes to from
there, or `none` when it returns `r`. A round keeps the meaning and makes the state smaller. -/
theorem whileLoop_eq {τ : Type} {G : σ → Option τ} {out : σ → τ} {r : ρ} {size : σ → ℕ}
    (exit : ∀ s, ¬ cond s → G s = some (out s))
    (round : ∀ s, cond s → (G s = none ∧ body s = ret r) ∨
      ∃ t, body s = next t ∧ G t = G s ∧ size t < size s)
    {n : ℕ} {s : σ} (hs : size s < n) :
    (G s = none ∧ whileLoop cond body n s = ret r) ∨
      ∃ t, G s = some (out t) ∧ whileLoop cond body n s = next t := by
  induction n generalizing s with
  | zero => omega
  | succ n ih =>
    rw [whileLoop]
    by_cases hc : cond s
    · rw [if_pos hc]
      rcases round s hc with ⟨hG, hb⟩ | ⟨t, hb, hG, ht⟩
      · exact .inl ⟨hG, by rw [hb, ret_bind]⟩
      · rw [hb, next_bind, ← hG]
        exact ih (by omega)
    · rw [if_neg hc]
      exact .inr ⟨s, exit s hc, rfl⟩

end Loop

/-! ## Ways out -/

/-- Where the statement returns, its result satisfies `R`, and where it goes on, its value satisfies
`Q`. -/
def Leaves (R : ρ → Prop) (Q : α → Prop) : Flow ρ α → Prop
  | panic _ => True
  | ret r => R r
  | next a => Q a

section Leaves

variable {R : ρ → Prop} {Q : α → Prop} {S : β → Prop} {x : Flow ρ α}

theorem Leaves.bind {f : α → Flow ρ β} (hx : Leaves R Q x) (hf : ∀ a, Q a → Leaves R S (f a)) :
    Leaves R S (x >>= f) := by
  cases x with
  | panic p => trivial
  | ret r => exact hx
  | next a => exact hf a hx

theorem Leaves.ite {c : Prop} [Decidable c] {y : Flow ρ α} (hx : c → Leaves R Q x)
    (hy : ¬ c → Leaves R Q y) : Leaves R Q (if c then x else y) := by
  split
  · exact hx ‹c›
  · exact hy ‹¬ c›

theorem Leaves.returnIf {c : Prop} [Decidable c] {r : ρ} {f : Unit → Flow ρ β} (h : c → R r)
    (hf : ¬ c → Leaves R S (f ())) : Leaves R S (returnIf c r >>= f) := by
  rw [returnIf_bind]
  exact Leaves.ite h hf

theorem leaves_okOr {ε : Type} {r : ρ} (h : R r) (e : Except ε α) :
    Leaves R (fun _ => True) (okOr r e) := by
  cases e with
  | error e => exact h
  | ok a => trivial

/-- A call does not return for its caller. -/
theorem leaves_call (e : Exec α) : Leaves R (fun _ => True) (call e) := by
  cases e <;> trivial

theorem leaves_index (data : List α) (i : ℕ) : Leaves R (fun _ => True) (index data i) := by
  unfold index
  split <;> trivial

theorem leaves_slice (data : List α) (i j : ℕ) : Leaves R (fun _ => True) (slice data i j) := by
  unfold slice
  split <;> trivial

theorem leaves_unwrap (o : Option α) : Leaves R (fun _ => True) (unwrap o) := by
  cases o <;> trivial

/-- The rounds of a loop over a list keep what `S` says of the state. -/
theorem Leaves.foldlM {f : β → α → Flow ρ β} (round : ∀ b a, S b → Leaves R S (f b a))
    {b : β} (hb : S b) (as : List α) : Leaves R S (as.foldlM f b) := by
  induction as generalizing b with
  | nil => exact hb
  | cons a as ih => exact (round b a hb).bind fun b' hb' => ih hb'

/-- The rounds of a loop keep what `Q` says of the state. -/
theorem Leaves.whileLoop {cond : α → Prop} [DecidablePred cond] {body : α → Flow ρ α}
    (round : ∀ a, cond a → Q a → Leaves R Q (body a)) (n : ℕ) {a : α} (ha : Q a) :
    Leaves R Q (whileLoop cond body n a) := by
  -- induction on the fuel: a loop that runs out of it panics
  induction n generalizing a with
  | zero => exact Leaves.ite (fun _ => trivial) fun _ => ha
  | succ n ih => exact Leaves.ite (fun hc => (round a hc ha).bind fun a' ha' => ih ha') fun _ => ha

/-- The value of a function whose ways out all satisfy `R`. -/
theorem Leaves.of_run {y : Flow ρ ρ} {r : ρ} (hy : Leaves R R y) (h : run y = .ok r) : R r := by
  cases y with
  | panic p => cases h
  | ret r' =>
    cases h
    exact hy
  | next r' =>
    cases h
    exact hy

end Leaves

end Flow

end Evaluation
