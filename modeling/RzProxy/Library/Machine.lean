import Mathlib.Tactic.Common

/-!
# Machines that take labelled steps

A machine has initial states and a partial function that takes a step under a label; a system of
concurrent parties is one whose labels say which party moves. The states it reaches are gathered by
the condition that the steps of a run meet, so that an assumption about an environment is a
condition on the steps of the environment.

## Main definitions

* `Machine`, `Machine.run`: a machine, and its run under a list of labels
* `Machine.checkedRun`: a run whose steps all pass a check
* `Machine.Reach ok`: the states of runs whose steps all meet `ok`

## Main results

* `Machine.Reach.invariant`: what holds at first and is kept by a step holds in every state
* `Machine.Reach.invariant_of_bound`: the same for what a step keeps only while a bound holds that
  was never exceeded before
-/

namespace Machines

/-- A machine: initial states, and the step that a label allows in a state. -/
structure Machine (σ α : Type*) where
  init : σ → Prop
  step : σ → α → Option σ

namespace Machine

variable {σ α : Type*} (m : Machine σ α)

/-- The states of runs whose steps all meet `ok`. -/
inductive Reach (ok : σ → α → Prop) : σ → Prop
  | init {s : σ} : m.init s → Reach ok s
  | step {s s' : σ} {a : α} : Reach ok s → ok s a → m.step s a = some s' → Reach ok s'

/-- The states of all runs. -/
abbrev Reachable : σ → Prop := m.Reach fun _ _ => True

/-- The run under a list of labels. -/
def run (s : σ) : List α → Option σ
  | [] => some s
  | a :: as => (m.step s a).bind fun s' => run s' as

/-- The run under a list of labels, each of which has to pass a check where it is taken. -/
def checkedRun (check : σ → α → Bool) (s : σ) : List α → Option σ
  | [] => some s
  | a :: as => if check s a then (m.step s a).bind fun s' => checkedRun check s' as else none

variable {m} {ok ok' : σ → α → Prop} {s : σ}

theorem Reach.mono (h : ∀ s a, ok s a → ok' s a) (hs : m.Reach ok s) : m.Reach ok' s := by
  induction hs with
  | init hi => exact .init hi
  | step _ hok hstep ih => exact .step ih (h _ _ hok) hstep

theorem Reach.reachable (hs : m.Reach ok s) : m.Reachable s := hs.mono fun _ _ _ => trivial

/-- A run under labels that always meet the condition. -/
theorem Reach.run {s' : σ} {as : List α} (hs : m.Reach ok s) (hok : ∀ a ∈ as, ∀ s, ok s a)
    (h : m.run s as = some s') : m.Reach ok s' := by
  induction as generalizing s with
  | nil =>
    obtain rfl : s = s' := by simpa [Machine.run] using h
    exact hs
  | cons a as ih =>
    obtain ⟨s₁, h₁, h⟩ := Option.bind_eq_some_iff.mp h
    exact ih (.step hs (hok a (by simp) s) h₁) (fun b hb => hok b (by simp [hb])) h

/-- A run whose labels pass a check, where the check is for the condition. -/
theorem Reach.checkedRun {check : σ → α → Bool} {s' : σ} {as : List α} (hs : m.Reach ok s)
    (hcheck : ∀ s a, m.Reach ok s → check s a = true → ok s a)
    (h : m.checkedRun check s as = some s') : m.run s as = some s' ∧ m.Reach ok s' := by
  induction as generalizing s with
  | nil =>
    obtain rfl : s = s' := by simpa [Machine.checkedRun] using h
    exact ⟨rfl, hs⟩
  | cons a as ih =>
    rw [Machine.checkedRun] at h
    split_ifs at h with ha
    obtain ⟨s₁, h₁, h⟩ := Option.bind_eq_some_iff.mp h
    obtain ⟨hrun, hreach⟩ := ih (.step hs (hcheck s a hs ha) h₁) h
    refine ⟨?_, hreach⟩
    rw [Machine.run, h₁, Option.bind_some, hrun]

/-- **Invariants**: what holds at first and is kept by a step holds in every state reached. -/
theorem Reach.invariant {P : σ → Prop} (hinit : ∀ s, m.init s → P s)
    (hstep : ∀ s a s', m.Reach ok s → P s → ok s a → m.step s a = some s' → P s')
    (hs : m.Reach ok s) : P s := by
  induction hs with
  | init hi => exact hinit _ hi
  | step hr hok hst ih => exact hstep _ _ _ hr ih hok hst

/-- **Invariants under a bound**: where a step cannot get back under the bound, what holds at first
and is kept by the steps that stay under it holds in every state under it. -/
theorem Reach.invariant_of_bound {B P : σ → Prop}
    (hbound : ∀ s a s', m.step s a = some s' → B s' → B s) (hinit : ∀ s, m.init s → P s)
    (hstep : ∀ s a s', m.Reach ok s → B s → B s' → P s → ok s a → m.step s a = some s' → P s')
    (hs : m.Reach ok s) (hB : B s) : P s := by
  induction hs with
  | init hi => exact hinit _ hi
  | step hr hok hst ih =>
    have hB₀ := hbound _ _ _ hst hB
    exact hstep _ _ _ hr hB₀ hB (ih hB₀) hok hst

end Machine

end Machines
