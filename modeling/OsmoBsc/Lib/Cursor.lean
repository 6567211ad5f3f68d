import Mathlib.Data.List.Basic
set_option autoImplicit false

namespace Cursor

/-- Something that is written from its start on: the values up to the cursor, and the
highest place the cursor has been at. -/
@[ext] structure Writer (α : Type) where
  out : List α := []
  peak : Nat := out.length
  length_le_peak : out.length ≤ peak := by simp
  deriving DecidableEq, Repr

section Write

variable {α : Type} (w : Writer α)

def Writer.empty : Writer α := {}

@[simp] theorem Writer.empty_out : (empty : Writer α).out = [] := rfl

@[simp] theorem Writer.empty_peak : (empty : Writer α).peak = 0 := rfl

/-- The place of the cursor. -/
def Writer.cur : Nat := w.out.length

def Writer.put (xs : List α) : Writer α where
  out := w.out ++ xs
  peak := max w.peak (w.cur + xs.length)
  length_le_peak := by
    rw [List.length_append]
    exact Nat.le_max_right ..

/-- The cursor goes back to `old`. -/
def Writer.rollback (old : Nat) : Writer α where
  out := w.out.take old
  peak := w.peak
  length_le_peak := Nat.le_trans (List.length_take_le' ..) w.length_le_peak

@[simp] theorem Writer.put_cur (xs : List α) : (w.put xs).cur = w.cur + xs.length := by
  simp [put,cur]

@[simp] theorem Writer.put_out (xs : List α) : (w.put xs).out = w.out ++ xs := rfl

@[simp] theorem Writer.put_peak (xs : List α) : (w.put xs).peak = max w.peak (w.cur + xs.length) := rfl

@[simp] theorem Writer.put_nil : w.put [] = w := by
  ext1
  · simp
  · exact Nat.max_eq_left w.length_le_peak

@[simp] theorem Writer.put_put (xs ys : List α) : (w.put xs).put ys = w.put (xs ++ ys) := by
  ext1
  · simp
  · simp only [put_peak,put_cur,List.length_append]
    omega

@[simp] theorem Writer.rollback_put_out (xs : List α) : ((w.put xs).rollback w.cur).out = w.out := by
  simp [rollback,put,cur]

@[simp] theorem Writer.rollback_peak (old : Nat) : (w.rollback old).peak = w.peak := rfl

end Write

section Read

variable {α β : Type} {val : Nat → α → β} {read : Nat → β} {pos : Nat}

/-- What is read from `pos` on is `xs`; a value can depend on its place. -/
def Reads (val : Nat → α → β) (read : Nat → β) (pos : Nat) (xs : List α) : Prop :=
  ∀ t x, xs[t]? = some x → read (pos + t) = val (pos + t) x

theorem reads_append {xs ys : List α} :
    Reads val read pos (xs ++ ys) ↔ Reads val read pos xs ∧ Reads val read (pos + xs.length) ys := by
  constructor
  · intro h
    refine ⟨fun t x hx => h t x ?_,fun t x hx => ?_⟩
    · rw [List.getElem?_append_left (List.getElem?_eq_some_iff.mp hx).1]
      exact hx
    · rw [Nat.add_assoc]
      refine h _ x ?_
      rw [List.getElem?_append_right (by omega),Nat.add_sub_cancel_left]
      exact hx
  · rintro ⟨h1,h2⟩ t x hx
    by_cases ht : t < xs.length
    · rw [List.getElem?_append_left ht] at hx
      exact h1 t x hx
    · rw [List.getElem?_append_right (by omega)] at hx
      have h := h2 _ x hx
      rw [show pos + xs.length + (t - xs.length) = pos + t by omega] at h
      exact h

theorem reads_cons {x : α} {xs : List α} :
    Reads val read pos (x :: xs) ↔ read pos = val pos x ∧ Reads val read (pos + 1) xs := by
  rw [← List.singleton_append,reads_append]
  refine and_congr_left fun _ => ⟨fun h => h 0 x rfl,fun h t y hy => ?_⟩
  cases t with
  | zero =>
    cases hy
    exact h
  | succ t => simp at hy

@[simp] theorem reads_nil : Reads val read pos [] := by
  intro t x hx
  simp at hx

end Read

end Cursor
