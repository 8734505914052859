import RzProxy.Library.Machine
import Mathlib.Order.WellFounded

/-!
# Simulations between machines

A machine is simulated by another along a map of its states when each of its steps is a run of the
other one: of no step, of one, or of several. What holds in the states that the other machine
reaches then holds of the images of its own.

## Main definitions

* `Machine.Path ok`: a run under a list of labels whose steps all meet `ok`
* `Simulation`: a map of states that takes steps to runs

## Main results

* `Simulation.reach`, `Simulation.path`: runs are taken to runs
* `Machine.Reach.of_bound`: a run that ends under a bound is one whose steps stay under it
* `Machine.Path.count_add_le`: a label that uses up a rank occurs no more often than it allows
* `Machine.Path.invariant`: what the steps of a run keep, it keeps
* `Machine.exists_path_of_rank`: runs that can always lower a rank lead to where they need not
* `Machine.Path.countdown`: a run in which a label occurs often enough gets to the end
-/

namespace Machines

namespace Machine

variable {σ α : Type*} (m : Machine σ α) {ok ok' : σ → α → Prop}

/-- A run under a list of labels whose steps all meet `ok`. -/
inductive Path (ok : σ → α → Prop) : σ → List α → σ → Prop
  | nil (s : σ) : Path ok s [] s
  | cons {s s₁ s' : σ} {a : α} {as : List α} (meets : ok s a) (step : m.step s a = some s₁)
      (rest : Path ok s₁ as s') : Path ok s (a :: as) s'

variable {m} {s s₁ s' : σ} {a : α} {as bs : List α}

theorem Path.single (hok : ok s a) (h : m.step s a = some s') : m.Path ok s [a] s' :=
  .cons hok h (.nil s')

theorem Path.append (h : m.Path ok s as s₁) (h' : m.Path ok s₁ bs s') :
    m.Path ok s (as ++ bs) s' := by
  induction h with
  | nil => exact h'
  | cons hok hstep _ ih => exact .cons hok hstep (ih h')

theorem Path.mono (himp : ∀ s a, ok s a → ok' s a) (h : m.Path ok s as s') :
    m.Path ok' s as s' := by
  induction h with
  | nil => exact .nil _
  | cons hok hstep _ ih => exact .cons (himp _ _ hok) hstep ih

theorem Reach.path (hs : m.Reach ok s) (h : m.Path ok s as s') : m.Reach ok s' := by
  induction h with
  | nil => exact hs
  | cons hok hstep _ ih => exact ih (.step hs hok hstep)

/-- A state that is reached is reached by a run. -/
theorem Reach.exists_path (hs : m.Reach ok s) : ∃ s₀ as, m.init s₀ ∧ m.Path ok s₀ as s := by
  induction hs with
  | init hi => exact ⟨_, [], hi, .nil _⟩
  | step _ hok hstep ih =>
    obtain ⟨s₀, as, hi, hpath⟩ := ih
    exact ⟨s₀, as ++ [_], hi, hpath.append (.single hok hstep)⟩

/-- A run under labels that meet a condition of their own. -/
theorem path_own_iff {own : α → Prop} :
    m.Path (fun _ a => own a) s as s' ↔ (∀ a ∈ as, own a) ∧ m.run s as = some s' := by
  constructor
  · intro h
    induction h with
    | nil => exact ⟨fun a ha => absurd ha List.not_mem_nil, rfl⟩
    | cons hok hstep _ ih =>
      refine ⟨List.forall_mem_cons.mpr ⟨hok, ih.1⟩, ?_⟩
      rw [run, hstep, Option.bind_some, ih.2]
  · rintro ⟨hown, h⟩
    induction as generalizing s with
    | nil =>
      obtain rfl : s = s' := by simpa [run] using h
      exact .nil s
    | cons a as ih =>
      obtain ⟨s₁, h₁, h⟩ := Option.bind_eq_some_iff.mp h
      obtain ⟨ha, has⟩ := List.forall_mem_cons.mp hown
      exact .cons ha h₁ (ih has h)

theorem path_iff_run : m.Path (fun _ _ => True) s as s' ↔ m.run s as = some s' :=
  path_own_iff.trans (and_iff_right fun _ _ => trivial)

/-- Where no step gets back under a bound, a run that ends under it stays under it. -/
theorem Path.of_bound {B : σ → Prop} (hbound : ∀ s a s', m.step s a = some s' → B s' → B s)
    (h : m.Path ok s as s') (hB : B s') :
    m.Path (fun s a => ok s a ∧ ∀ s', m.step s a = some s' → B s') s as s' ∧ B s := by
  induction h with
  | nil => exact ⟨.nil _, hB⟩
  | cons hok hstep _ ih =>
    obtain ⟨hpath, hB₁⟩ := ih hB
    refine ⟨.cons ⟨hok, fun s' hs' => ?_⟩ hstep hpath, hbound _ _ _ hstep hB₁⟩
    obtain rfl := Option.some.inj (hstep.symm.trans hs')
    exact hB₁

/-- Where no step gets back under a bound, a state under it is reached by steps that stay under
it. -/
theorem Reach.of_bound {B : σ → Prop} (hbound : ∀ s a s', m.step s a = some s' → B s' → B s)
    (hs : m.Reach ok s) (hB : B s) :
    m.Reach (fun s a => ok s a ∧ ∀ s', m.step s a = some s' → B s') s := by
  obtain ⟨s₀, as, hi, hpath⟩ := hs.exists_path
  exact Reach.path (.init hi) (hpath.of_bound hbound hB).1

/-- **Ranks**: where the steps under a label use up a rank and no step adds to it, the label occurs
at most as often as the rank allows. -/
theorem Path.count_add_le [DecidableEq α] (rank : σ → ℕ) {l : α}
    (hstep : ∀ s a s', m.Reach ok s → ok s a → m.step s a = some s' →
      (if a = l then 1 else 0) + rank s' ≤ rank s)
    (hs : m.Reach ok s) (h : m.Path ok s as s') : as.count l + rank s' ≤ rank s := by
  induction h with
  | nil => simp
  | @cons s s₁ s' a as hok hst _ ih =>
    have hle := ih (.step hs hok hst)
    have hone := hstep s a s₁ hs hok hst
    rw [List.count_cons]
    by_cases ha : a = l
    · subst ha
      simp only [beq_self_eq_true, if_true] at hone ⊢
      omega
    · simp only [beq_iff_eq, ha, if_false] at hone ⊢
      omega

/-- What the steps of a run keep, it keeps. -/
theorem Path.invariant {P : σ → Prop}
    (hstep : ∀ s a s', m.Reach ok s → P s → ok s a → m.step s a = some s' → P s')
    (hs : m.Reach ok s) (h : m.Path ok s as s') (hP : P s) : P s' := by
  induction h with
  | nil => exact hP
  | cons hok hst _ ih => exact ih (.step hs hok hst) (hstep _ _ _ hs hP hok hst)

/-- **Progress**: where each state that is not done has a run that lowers a rank, some run gets to
one that is. -/
theorem exists_path_of_rank {ι : Type*} [Preorder ι] [WellFoundedLT ι] {P done : σ → Prop}
    (rank : σ → ι)
    (hstep : ∀ s, P s → ¬ done s → ∃ as s', m.Path ok s as s' ∧ P s' ∧ rank s' < rank s)
    (hs : P s) : ∃ as s', m.Path ok s as s' ∧ P s' ∧ done s' := by
  induction hn : rank s using WellFoundedLT.induction generalizing s with
  | ind n ih =>
    by_cases hdone : done s
    · exact ⟨[], s, .nil s, hs, hdone⟩
    · obtain ⟨as, s₁, hpath, hs₁, hlt⟩ := hstep s hs hdone
      obtain ⟨bs, s', hpath', hs', hdone'⟩ := ih (rank s₁) (hn ▸ hlt) hs₁ rfl
      exact ⟨as ++ bs, s', hpath.append hpath', hs', hdone'⟩

/-- **Countdown**: where a step under a label takes one off and no other adds to it, a run with the
label in it often enough gets to the end. -/
theorem Path.countdown [DecidableEq α] {D : ℕ → σ → Prop} {l : α}
    (hlabel : ∀ n s s', m.step s l = some s' → D (n + 1) s → D n s')
    (hother : ∀ n s a s', ok s a → a ≠ l → m.step s a = some s' → D n s → D n s') {n : ℕ}
    (h : m.Path ok s as s') (hD : D (as.count l + n) s) : D n s' := by
  induction h with
  | nil => simpa using hD
  | @cons s s₁ s' a as hok hstep _ ih =>
    refine ih ?_
    rw [List.count_cons] at hD
    by_cases ha : a = l
    · subst ha
      rw [beq_self_eq_true, if_pos rfl, Nat.add_right_comm] at hD
      exact hlabel _ s s₁ hstep hD
    · rw [if_neg (by simpa using ha)] at hD
      exact hother _ s a s₁ hok ha hstep hD

end Machine

/-! ## Simulations -/

variable {σ τ α β : Type*}

/-- A map of states that takes each step of `m` to a run of `n`. The invariants of `n` can be used
to show it. -/
structure Simulation (m : Machine σ α) (ok : σ → α → Prop) (n : Machine τ β) (ok' : τ → β → Prop)
    where
  map : σ → τ
  init : ∀ {s : σ}, m.init s → n.init (map s)
  step : ∀ {s : σ} {a : α} {s' : σ}, m.Reach ok s → n.Reach ok' (map s) → ok s a →
    m.step s a = some s' → ∃ bs, n.Path ok' (map s) bs (map s')

namespace Simulation

variable {m : Machine σ α} {n : Machine τ β} {ok : σ → α → Prop} {ok' : τ → β → Prop} {s s' : σ}
  {as : List α}

/-- **What is reached is taken to what is reached.** -/
theorem reach (f : Simulation m ok n ok') (hs : m.Reach ok s) : n.Reach ok' (f.map s) := by
  induction hs with
  | init hi => exact .init (f.init hi)
  | step hr hok hstep ih =>
    obtain ⟨bs, hbs⟩ := f.step hr ih hok hstep
    exact ih.path hbs

/-- **Runs are taken to runs.** -/
theorem path (f : Simulation m ok n ok') (hs : m.Reach ok s) (h : m.Path ok s as s') :
    ∃ bs, n.Path ok' (f.map s) bs (f.map s') := by
  induction h with
  | nil => exact ⟨[], .nil _⟩
  | cons hok hstep _ ih =>
    obtain ⟨bs, hbs⟩ := f.step hs (f.reach hs) hok hstep
    obtain ⟨cs, hcs⟩ := ih (.step hs hok hstep)
    exact ⟨bs ++ cs, hbs.append hcs⟩

end Simulation

end Machines
