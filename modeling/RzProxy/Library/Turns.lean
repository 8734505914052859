import Mathlib.Data.List.Nodup

/-!
# Taking turns

Those who stand in a queue take turns when whoever has had one goes to the back. However many turns
there were, nobody then has had two more than another.

## Main definitions

* `Turn`: a turn, which somebody has or nobody
* `turns`: who has the next turns

## Main results

* `count_turns_le`: the turns that two have had differ by one at most
-/

namespace Queues

variable {α : Type*}

/-- A turn of the first in the queue, or of nobody. -/
inductive Turn : Option α → List α → List α → Prop
  | nobody (l : List α) : Turn none l l
  | first (a : α) (l : List α) : Turn (some a) (a :: l) (l ++ [a])

/-- Who has the next `n` turns. -/
def turns : ℕ → List α → List α
  | 0, _ => []
  | _ + 1, [] => []
  | n + 1, a :: l => a :: turns n (l ++ [a])

/-- A turn, and those after it. -/
theorem Turn.turns_eq {found : Option α} {l l' rest : List α} (h : Turn found l l')
    (hrest : rest = turns rest.length l') :
    found.toList ++ rest = turns (found.toList ++ rest).length l := by
  cases h with
  | nobody => exact hrest
  | first a l =>
    show a :: rest = a :: turns rest.length (l ++ [a])
    rw [← hrest]

theorem mem_of_mem_turns {n : ℕ} {l : List α} {a : α} (h : a ∈ turns n l) : a ∈ l := by
  induction n generalizing l with
  | zero => cases h
  | succ n ih =>
    cases l with
    | nil => cases h
    | cons b l =>
      rcases List.mem_cons.mp h with rfl | h
      · exact List.mem_cons_self
      · rcases List.mem_append.mp (ih h) with h | h
        · exact List.mem_cons_of_mem b h
        · exact List.mem_singleton.mp h ▸ List.mem_cons_self

variable [DecidableEq α] {l l₁ l₂ l₃ : List α} {a b : α}

/-- Who stands before another one has had as many turns, or one more. -/
theorem count_turns_of_before (n : ℕ) (h : l.Nodup) (hl : l = l₁ ++ a :: (l₂ ++ b :: l₃)) :
    (turns n l).count b ≤ (turns n l).count a ∧
      (turns n l).count a ≤ (turns n l).count b + 1 := by
  induction n generalizing l l₁ l₂ l₃ a b with
  | zero => exact ⟨Nat.le_refl _, Nat.zero_le _⟩
  | succ n ih =>
    subst hl
    have hab : a ≠ b := by
      rintro rfl
      exact (List.nodup_cons.mp (List.nodup_append.mp h).2.1).1 (by simp)
    cases l₁ with
    | nil =>
      have hnodup : ((l₂ ++ b :: l₃) ++ [a]).Nodup :=
        (List.perm_append_singleton a _).nodup_iff.mpr h
      have hback := ih hnodup (show _ = l₂ ++ b :: (l₃ ++ a :: []) by
        rw [List.append_assoc, List.cons_append])
      rw [List.nil_append, turns, List.count_cons_self, List.count_cons_of_ne hab]
      omega
    | cons x l₁ =>
      have hx : x ∉ l₁ ++ a :: (l₂ ++ b :: l₃) := (List.nodup_cons.mp h).1
      have hxa : x ≠ a := by
        rintro rfl
        exact hx (by simp)
      have hxb : x ≠ b := by
        rintro rfl
        exact hx (by simp)
      have hnodup : ((l₁ ++ a :: (l₂ ++ b :: l₃)) ++ [x]).Nodup :=
        (List.perm_append_singleton x _).nodup_iff.mpr h
      have hnext := ih hnodup (show _ = l₁ ++ a :: (l₂ ++ b :: (l₃ ++ [x])) by simp)
      rw [List.cons_append, turns, List.count_cons_of_ne hxa, List.count_cons_of_ne hxb]
      exact hnext

/-- **Turns are fair**: nobody has had two more than another. -/
theorem count_turns_le (n : ℕ) (h : l.Nodup) (ha : a ∈ l) (hb : b ∈ l) :
    (turns n l).count a ≤ (turns n l).count b + 1 := by
  obtain ⟨l₁, l₂, rfl⟩ := List.append_of_mem ha
  rcases List.mem_append.mp hb with hb | hb
  · obtain ⟨l₃, l₄, rfl⟩ := List.append_of_mem hb
    have hle := (count_turns_of_before n h (show _ = l₃ ++ b :: (l₄ ++ a :: l₂) by simp)).1
    exact Nat.le_trans hle (Nat.le_succ _)
  · rcases List.mem_cons.mp hb with rfl | hb
    · exact Nat.le_succ _
    · obtain ⟨l₃, l₄, rfl⟩ := List.append_of_mem hb
      exact (count_turns_of_before n h rfl).2

end Queues
