import Mathlib.Data.List.Basic
import Mathlib.Data.List.Nodup
set_option autoImplicit false

/-! Lists in the order of their last use: what is used goes to the end. -/

namespace Recency

variable {α : Type}

/-- `a` is used. -/
def touch [DecidableEq α] (l : List α) (a : α) : List α := l.erase a ++ [a]

/-- `b` was used before `a`. -/
def Before (l : List α) (b a : α) : Prop := [b,a].Sublist l

variable {l l' : List α} {a b c : α}

theorem Before.append (h : Before l b a) : Before (l ++ l') b a := h.trans (List.sublist_append_left _ _)

/-- What is found first was not used after another that would do. -/
theorem Before.find_ne (h : Before l b a) (hl : l.Nodup) {p : α → Bool} (hp : p b = true) :
    l.find? p ≠ some a := by
  intro hfind
  obtain ⟨-,pre,post,rfl,hpre⟩ := List.find?_eq_some_iff_append.mp hfind
  have hb : b ∉ pre := by
    intro hmem
    have hno := hpre b hmem
    rw [hp] at hno
    cases hno
  have hna : a ∉ post := (List.nodup_cons.mp (List.nodup_append.mp hl).2.1).1
  have hrest : [b,a].Sublist (a :: post) := by
    obtain ⟨l1,l2,heq,h1,h2⟩ := List.sublist_append_iff.mp h
    cases l1 with
    | nil =>
      rw [heq,List.nil_append]
      exact h2
    | cons x l1 =>
      obtain rfl : b = x := by simpa using congrArg List.head? heq
      exact absurd (h1.subset List.mem_cons_self) hb
  rcases List.cons_sublist_cons'.mp hrest with hrest | ⟨-,hrest⟩
  · exact hna (hrest.subset (by simp))
  · exact hna (hrest.subset (by simp))

variable [DecidableEq α]

theorem mem_touch_iff (h : a ∈ l) : b ∈ touch l a ↔ b ∈ l := by
  rw [touch,List.mem_append,List.mem_singleton]
  by_cases hb : b = a
  · subst hb
    exact iff_of_true (.inr rfl) h
  · rw [List.mem_erase_of_ne hb,or_iff_left hb]

theorem touch_nodup (h : l.Nodup) : (touch l a).Nodup := by
  rw [touch,List.nodup_append]
  refine ⟨h.erase a,List.nodup_singleton a,fun x hx y hy heq => ?_⟩
  rw [List.mem_singleton.mp hy] at heq
  rw [heq] at hx
  exact h.not_mem_erase hx

/-- Everything else was used before what was used just now. -/
theorem before_touch (h : b ∈ l) (hne : b ≠ a) : Before (touch l a) b a := by
  have hb : [b].Sublist (l.erase a) := List.singleton_sublist.mpr ((List.mem_erase_of_ne hne).mpr h)
  exact hb.append (List.Sublist.refl [a])

/-- What was used before stays so until it is used. -/
theorem Before.touch (h : Before l b a) (hne : c ≠ b) : Before (touch l c) b a := by
  have herase := h.erase c
  rw [List.erase_cons_tail (by simpa using hne.symm)] at herase
  by_cases hca : c = a
  · subst hca
    rw [List.erase_cons_head] at herase
    exact herase.append (List.Sublist.refl [c])
  · rw [List.erase_cons_tail (by simpa using fun heq => hca heq.symm),List.erase_nil] at herase
    exact herase.trans (List.sublist_append_left _ _)

end Recency
