import RzProxy.Library.Machine
import Mathlib.Logic.Function.Basic

/-!
# Calls that are sent at most once

What a service of remote calls is for, without how it does it. A call is registered under a key that
no other call ever had; its frame is sent once at most, and it takes one reply at most, which may
come before the frame was sent where the other side does not wait for it. A call that was registered
is not tried again, so it fails only while there is nothing to be undone.

## Main definitions

* `Call`, `Call.act`: a call, and what can happen to it
* `service`: any number of calls
* `Sound`: the invariant of a call; `Apart`: no two calls have one key

## Main results

* `sound_of_reach`, `apart_of_reach`: they hold in every reachable state
-/

namespace AtMostOnce

open Machines

/-- How far a call has come. -/
inductive Stage (π ε : Type*)
  | idle
  | waiting
  | answered (reply : π)
  | returned (reply : π)
  | failed (error : ε)
  | abandoned

/-- A call: what it asks for, the key it was registered under, and the frames that were sent. -/
structure Call (ρ κ φ π ε : Type*) where
  request : ρ
  key : Option κ
  sent : List φ
  stage : Stage π ε

/-- What can happen to a call. -/
inductive Act (κ π ε : Type*)
  | register (key : κ)
  | send
  | reply (reply : π)
  | finish
  | fail (error : ε)
  | abandon

variable {ι ρ κ φ π ε : Type*}

namespace Call

/-- A call that has just begun. -/
def fresh (request : ρ) : Call ρ κ φ π ε :=
  { request := request, key := none, sent := [], stage := .idle }

variable (frame : ρ → κ → φ)

/-- What happens to a call, where `frame` makes the frame of a request for a key. -/
def act (call : Call ρ κ φ π ε) : Act κ π ε → Option (Call ρ κ φ π ε)
  | .register key =>
    match call.stage with
    | .idle => some { call with key := some key, stage := .waiting }
    | _ => none
  | .send =>
    match call.stage, call.key, call.sent with
    | .waiting, some key, [] | .answered _, some key, [] =>
      some { call with sent := [frame call.request key] }
    | _, _, _ => none
  | .reply reply =>
    match call.stage with
    | .waiting => some { call with stage := .answered reply }
    | _ => none
  | .finish =>
    match call.stage with
    | .answered reply => some { call with stage := .returned reply }
    | _ => none
  | .fail error =>
    match call.stage with
    | .idle => some { call with stage := .failed error }
    | _ => none
  | .abandon =>
    match call.stage with
    | .idle | .waiting | .answered _ => some { call with stage := .abandoned }
    | _ => none

/-- The invariant of a call: its frame was sent at most once, under its key, and a call that is idle
or failed has no key. -/
structure Sound (call : Call ρ κ φ π ε) : Prop where
  sent : call.sent = [] ∨ ∃ key, call.key = some key ∧ call.sent = [frame call.request key]
  idle : call.stage = .idle → call.key = none
  failed : ∀ e, call.stage = .failed e → call.key = none

variable {frame}

theorem sound_fresh (request : ρ) : (fresh request : Call ρ κ φ π ε).Sound frame :=
  ⟨.inl rfl, fun _ => rfl, nofun⟩

/-- A call without a key has sent nothing. -/
theorem Sound.sent_of_key {call : Call ρ κ φ π ε} (h : call.Sound frame) (hk : call.key = none) :
    call.sent = [] := by
  rcases h.sent with hs | ⟨key, hkey, -⟩
  · exact hs
  · rw [hk] at hkey
    cases hkey

variable {call call' : Call ρ κ φ π ε} {a : Act κ π ε}

/-- **A step of a call**, with the key that it has then. -/
theorem act_cases (h : call.act frame a = some call') : call'.request = call.request ∧
    ((∃ key, a = .register key ∧ call.stage = .idle ∧ call' = { call with
        key := some key, stage := .waiting }) ∨
      (∃ key, call.key = some key ∧ call.sent = [] ∧ call.stage ≠ .idle ∧
        (∀ e, call.stage ≠ .failed e) ∧ call' = { call with
          sent := [frame call.request key] }) ∨
      (call'.key = call.key ∧ call'.sent = call.sent ∧ call'.stage ≠ .idle ∧
        ∀ e, call'.stage = .failed e → call.stage = .idle)) := by
  cases a with
  | register key =>
    simp only [act] at h
    split at h
    next hs =>
      obtain rfl := Option.some.inj h
      exact ⟨rfl, .inl ⟨key, rfl, hs, rfl⟩⟩
    · cases h
  | send =>
    simp only [act] at h
    split at h
    next hs hk hn =>
      obtain rfl := Option.some.inj h
      exact ⟨rfl, .inr (.inl ⟨_, hk, hn, by rw [hs]; nofun, by rw [hs]; nofun, rfl⟩)⟩
    next hs hk hn =>
      obtain rfl := Option.some.inj h
      exact ⟨rfl, .inr (.inl ⟨_, hk, hn, by rw [hs]; nofun, by rw [hs]; nofun, rfl⟩)⟩
    · cases h
  | reply reply | finish | abandon =>
    simp only [act] at h
    split at h <;> cases h
    all_goals exact ⟨rfl, .inr (.inr ⟨rfl, rfl, nofun, nofun⟩)⟩
  | fail error =>
    simp only [act] at h
    split at h
    next hs =>
      obtain rfl := Option.some.inj h
      exact ⟨rfl, .inr (.inr ⟨rfl, rfl, nofun, fun _ _ => hs⟩)⟩
    · cases h

/-- What happens to a call keeps its invariant. -/
theorem Sound.act (hc : call.Sound frame) (h : call.act frame a = some call') :
    call'.Sound frame := by
  obtain ⟨hreq, ⟨key, -, hidle, rfl⟩ | ⟨key, hkey, -, hne, hnf, rfl⟩ | ⟨hkey, hsent, hne, hf⟩⟩ :=
    act_cases h
  · -- an idle call has no key, so it has sent nothing
    exact ⟨.inl (hc.sent_of_key (hc.idle hidle)), nofun, nofun⟩
  · exact ⟨.inr ⟨key, hkey, rfl⟩, fun hs => absurd hs hne, fun e hs => absurd hs (hnf e)⟩
  · refine ⟨?_, fun hs => absurd hs hne, fun e hs => hkey.trans (hc.idle (hf e hs))⟩
    rw [hkey, hsent, hreq]
    exact hc.sent

theorem key_of_act (h : call.act frame a = some call') :
    call'.key = call.key ∨ ∃ key, a = .register key ∧ call'.key = some key := by
  obtain ⟨-, ⟨key, ha, -, rfl⟩ | ⟨key, -, -, -, -, rfl⟩ | ⟨hkey, -⟩⟩ := act_cases h
  · exact .inr ⟨key, ha, rfl⟩
  · exact .inl rfl
  · exact .inl hkey

end Call

/-! ## Any number of calls -/

variable [DecidableEq ι]

/-- The calls that were begun. -/
abbrev Calls (ι ρ κ φ π ε : Type*) := ι → Option (Call ρ κ φ π ε)

/-- A call begins, or something happens to it. -/
inductive Label (ι ρ κ π ε : Type*)
  | begin (i : ι) (request : ρ)
  | act (i : ι) (a : Act κ π ε)

/-- A call is registered under a key that no call has. -/
def Fresh (s : Calls ι ρ κ φ π ε) (a : Act κ π ε) : Prop :=
  ∀ key, a = .register key → ∀ j call, s j = some call → call.key ≠ some key

open Classical in
/-- The service: calls begin, and go on by themselves, but for the keys that they may take. -/
noncomputable def service (frame : ρ → κ → φ) :
    Machine (Calls ι ρ κ φ π ε) (Label ι ρ κ π ε) where
  init s := s = fun _ => none
  step s
    | .begin i request =>
      if s i = none then some (Function.update s i (some (.fresh request))) else none
    | .act i a =>
      (s i).bind fun call =>
        if Fresh s a then (call.act frame a).map fun call => Function.update s i (some call)
        else none

variable {frame : ρ → κ → φ} {s s' : Calls ι ρ κ φ π ε}

/-- **A step of the service**: one call is begun, or goes on. -/
theorem step_cases {l : Label ι ρ κ π ε} (h : (service frame).step s l = some s') :
    ∃ i call', s' = Function.update s i (some call') ∧
      ((s i = none ∧ ∃ request, call' = .fresh request) ∨
        ∃ call a, s i = some call ∧ Fresh s a ∧ call.act frame a = some call') := by
  cases l with
  | begin i request =>
    simp only [service, Option.ite_none_right_eq_some, Option.some.injEq] at h
    obtain ⟨hnone, rfl⟩ := h
    exact ⟨i, _, rfl, .inl ⟨hnone, request, rfl⟩⟩
  | act i a =>
    simp only [service, Option.bind_eq_some_iff, Option.ite_none_right_eq_some,
      Option.map_eq_some_iff] at h
    obtain ⟨call, hcall, hfresh, call', hact, rfl⟩ := h
    exact ⟨i, call', rfl, .inr ⟨call, a, hcall, hfresh, hact⟩⟩

/-- No two calls have one key. -/
def Apart (s : Calls ι ρ κ φ π ε) : Prop :=
  ∀ {i j a b key}, s i = some a → s j = some b → a.key = some key → b.key = some key → i = j

theorem update_some_cases {i j : ι} {call call' : Call ρ κ φ π ε}
    (h : Function.update s i (some call') j = some call) :
    j = i ∧ call = call' ∨ s j = some call := by
  by_cases hj : j = i
  · subst hj
    rw [Function.update_self] at h
    exact .inl ⟨rfl, (Option.some.inj h).symm⟩
  · rw [Function.update_of_ne hj] at h
    exact .inr h

variable {ok : Calls ι ρ κ φ π ε → Label ι ρ κ π ε → Prop}

/-- **Every call is sound** in every reachable state. -/
theorem sound_of_reach (hs : (service frame).Reach ok s) {i : ι} {call : Call ρ κ φ π ε}
    (hi : s i = some call) : call.Sound frame := by
  refine hs.invariant (P := fun s => ∀ i call, s i = some call → call.Sound frame) ?_
    (fun s l s' _ hsound _ hstep => ?_) i call hi
  · rintro s rfl i call hi
    cases hi
  · obtain ⟨i, call', rfl, hnew⟩ := step_cases hstep
    intro j call hj
    rcases update_some_cases hj with ⟨rfl, rfl⟩ | hj
    · rcases hnew with ⟨-, request, rfl⟩ | ⟨call₀, a, hi, -, hact⟩
      · exact Call.sound_fresh request
      · exact (hsound j call₀ hi).act hact
    · exact hsound j call hj

/-- **No two calls have one key** in a reachable state. -/
theorem apart_of_reach (hs : (service frame).Reach ok s) : Apart s := by
  refine hs.invariant (P := fun s => Apart s) ?_ fun s l s' _ hapart _ hstep => ?_
  · rintro s rfl i j a b key hi
    cases hi
  · obtain ⟨i, call', rfl, hnew⟩ := step_cases hstep
    have hkey : ∀ key, call'.key = some key → ∀ j call, j ≠ i → s j = some call →
        call.key ≠ some key := by
      intro key hkey j call hj hcall hk
      rcases hnew with ⟨-, request, rfl⟩ | ⟨call₀, a, hi, hfresh, hact⟩
      · cases hkey
      · rcases Call.key_of_act hact with hsame | ⟨key', rfl, hk'⟩
        · exact hj (hapart hcall hi hk (hsame.symm.trans hkey))
        · rw [hkey, Option.some.injEq] at hk'
          exact hfresh key (by rw [hk']) j call hcall hk
    intro j j' a b key hj hj' ha hb
    rcases update_some_cases hj with ⟨rfl, rfl⟩ | hold <;>
      rcases update_some_cases hj' with ⟨rfl, rfl⟩ | hold'
    · rfl
    · by_contra hne
      exact hkey key ha j' b (Ne.symm hne) hold' hb
    · by_contra hne
      exact hkey key hb j a hne hold ha
    · exact hapart hold hold' ha hb

end AtMostOnce
