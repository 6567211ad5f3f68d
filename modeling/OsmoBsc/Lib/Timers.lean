import Mathlib.Data.Fintype.Basic
import Mathlib.Logic.Function.Basic
import Mathlib.Algebra.Ring.Nat
import OsmoBsc.Lib.Fsm
set_option autoImplicit false

/-! One-shot timers, and a clock that passes none of them before it was handled. -/

namespace Timers
open EventFsm

/-- The time, and when each timer that runs is due. -/
structure Clock (τ : Type) where
  now : Nat := 0
  due : τ → Option Nat := fun _ => none

namespace Clock

variable {τ : Type}

def schedule [DecidableEq τ] (c : Clock τ) (t : τ) (us : Nat) : Clock τ :=
  { c with due := Function.update c.due t (some (c.now + us)) }

def del [DecidableEq τ] (c : Clock τ) (t : τ) : Clock τ := { c with due := Function.update c.due t none }

def pending (c : Clock τ) (t : τ) : Bool := (c.due t).isSome

/-- A timer that is due. -/
def Expired (c : Clock τ) (t : τ) : Prop := ∃ d, c.due t = some d ∧ d ≤ c.now

/-- No timer is overdue after this time. -/
def Allows (c : Clock τ) (us : Nat) : Prop := ∀ t d, c.due t = some d → c.now + us ≤ d

instance (c : Clock τ) (t : τ) : Decidable (c.Expired t) :=
  inferInstanceAs (Decidable (∃ d, c.due t = some d ∧ d ≤ c.now))

instance [Fintype τ] (c : Clock τ) (us : Nat) : Decidable (c.Allows us) :=
  inferInstanceAs (Decidable (∀ t d, c.due t = some d → c.now + us ≤ d))

/-- Time passes, up to the first timer that is due. -/
def elapse [Fintype τ] (c : Clock τ) (us : Nat) : Clock τ :=
  if c.Allows us then { c with now := c.now + us } else c

/-- No timer is overdue. -/
def Prompt (c : Clock τ) : Prop := ∀ t d, c.due t = some d → c.now ≤ d

variable {c : Clock τ} {t t' : τ} {us : Nat}

theorem pending_iff : c.pending t = true ↔ ∃ d, c.due t = some d := Option.isSome_iff_exists

theorem pending_eq_false : c.pending t = false ↔ c.due t = none :=
  Option.isSome_eq_false_iff.trans Option.isNone_iff_eq_none

theorem Expired.pending (h : c.Expired t) : c.pending t = true := by
  obtain ⟨d,hd,-⟩ := h
  exact pending_iff.mpr ⟨d,hd⟩

theorem prompt_fresh : Prompt ({} : Clock τ) := nofun

section Change

variable [DecidableEq τ]

@[simp] theorem schedule_now : (c.schedule t us).now = c.now := rfl

@[simp] theorem del_now : (c.del t).now = c.now := rfl

@[simp] theorem schedule_due : (c.schedule t us).due t = some (c.now + us) := Function.update_self ..

@[simp] theorem del_due : (c.del t).due t = none := Function.update_self ..

theorem schedule_due_of_ne (h : t' ≠ t) : (c.schedule t us).due t' = c.due t' := Function.update_of_ne h ..

theorem del_due_of_ne (h : t' ≠ t) : (c.del t).due t' = c.due t' := Function.update_of_ne h ..

theorem Prompt.schedule (h : c.Prompt) : (c.schedule t us).Prompt := by
  intro t' d hd
  by_cases ht : t' = t
  · subst ht
    rw [schedule_due] at hd
    cases hd
    exact Nat.le_add_right _ _
  · rw [schedule_due_of_ne ht] at hd
    exact h t' d hd

theorem Prompt.del (h : c.Prompt) : (c.del t).Prompt := by
  intro t' d hd
  by_cases ht : t' = t
  · subst ht
    rw [del_due] at hd
    cases hd
  · rw [del_due_of_ne ht] at hd
    exact h t' d hd

end Change

section Time

variable [Fintype τ]

@[simp] theorem elapse_due : (c.elapse us).due = c.due := by
  rw [elapse]
  split <;> rfl

theorem now_le_elapse : c.now ≤ (c.elapse us).now := by
  rw [elapse]
  split
  · exact Nat.le_add_right _ _
  · exact Nat.le_refl _

theorem Prompt.elapse (h : c.Prompt) : (c.elapse us).Prompt := by
  rw [Clock.elapse]
  split
  · assumption
  · exact h

end Time

end Clock

end Timers
