import Mathlib.Data.List.Basic
set_option autoImplicit false

/-! Readers that start at a place and say where they stop, and what they make of what was written. -/

/-- What is read of a source from a place on, and the place after it. -/
def Reader (σ α : Type) : Type := σ → Nat → α × Nat

namespace Reader

variable {σ α β ω : Type}

instance : Monad (Reader σ) where
  pure a := fun _ pos => (a,pos)
  bind r f := fun s pos => f (r s pos).1 s (r s pos).2

section Decodes

variable (Holds : σ → Nat → List ω → Prop)

/-- Where a source holds `xs` from some place on, the reader makes `a` of it and stops behind it. -/
def Decodes (r : Reader σ α) (xs : List ω) (a : α) : Prop :=
  ∀ s pos, Holds s pos xs → r s pos = (a,pos + xs.length)

variable {Holds} {r : Reader σ α} {f : α → Reader σ β} {xs ys : List ω} {a : α} {b : β}

theorem Decodes.pure (a : α) : Decodes Holds (Pure.pure a) [] a := fun _ _ _ => rfl

/-- What is written in a row is read in a row. -/
theorem Decodes.bind (happend : ∀ s pos xs ys, Holds s pos (xs ++ ys) → Holds s pos xs ∧ Holds s (pos + xs.length) ys)
    (h1 : Decodes Holds r xs a) (h2 : Decodes Holds (f a) ys b) : Decodes Holds (r >>= f) (xs ++ ys) b := by
  intro s pos h
  obtain ⟨hxs,hys⟩ := happend s pos xs ys h
  change f (r s pos).1 s (r s pos).2 = _
  rw [h1 s pos hxs,h2 s _ hys,List.length_append,Nat.add_assoc]

/-- The last of the readers in a row. -/
theorem Decodes.map (happend : ∀ s pos xs ys, Holds s pos (xs ++ ys) → Holds s pos xs ∧ Holds s (pos + xs.length) ys)
    (g : α → β) (h : Decodes Holds r xs a) : Decodes Holds (r >>= fun a => Pure.pure (g a)) xs (g a) := by
  have := h.bind happend (f := fun a => Pure.pure (g a)) (Decodes.pure (g a))
  rwa [List.append_nil] at this

end Decodes

end Reader
