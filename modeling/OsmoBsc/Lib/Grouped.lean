import Mathlib.Data.List.InsertIdx
set_option autoImplicit false

/-! Lists whose equal elements stand next to each other. -/

/-- Between two equal elements there is no other one. -/
def Grouped {α : Type*} (L : List α) : Prop :=
  ∀ (i j k : Nat) (a : α), i ≤ j → j ≤ k → L[i]? = some a → L[k]? = some a → L[j]? = some a

section Grouped

variable {α : Type*} {L : List α} {a : α}

theorem Grouped.nil : Grouped ([] : List α) := by
  intro i j k a _ _ hi
  simp at hi

/-- Taking an element out keeps the others together. -/
theorem Grouped.eraseIdx (h : Grouped L) (pos : Nat) : Grouped (L.eraseIdx pos) := by
  intro i j k a hij hjk hi hk
  rw [List.getElem?_eraseIdx] at hi hk ⊢
  have hmono : ∀ x y, x ≤ y → (if x < pos then x else x+1) ≤ (if y < pos then y else y+1) := by
    intro x y hxy
    split <;> split <;> omega
  have hplace : ∀ x, (if x < pos then L[x]? else L[x+1]?) = L[if x < pos then x else x+1]? := by
    intro x
    split <;> rfl
  rw [hplace] at hi hk ⊢
  exact h _ _ _ a (hmono i j hij) (hmono j k hjk) hi hk

/-- An element of a new kind goes to the end. -/
theorem Grouped.concat (h : Grouped L) (hnew : a ∉ L) : Grouped (L ++ [a]) := by
  intro i j k b hij hjk hi hk
  by_cases hkl : k < L.length
  · rw [List.getElem?_append_left (by omega)] at hi hk ⊢
    exact h i j k b hij hjk hi hk
  · by_cases hil : i < L.length
    · rw [List.getElem?_append_left hil] at hi
      rw [List.getElem?_append_right (by omega),List.getElem?_singleton] at hk
      split at hk
      · cases hk
        exact absurd (List.mem_of_getElem? hi) hnew
      · cases hk
    · have hlast : ∀ x, L.length ≤ x → (L ++ [a])[x]? = some b → x = L.length := by
        intro x hx hb
        rw [List.getElem?_append_right hx,List.getElem?_singleton] at hb
        split at hb
        · omega
        · cases hb
      have h1 := hlast i (by omega) hi
      have h2 := hlast k (by omega) hk
      rw [show j = i by omega]
      exact hi

/-- An element that is there already goes before the first one of its kind. -/
theorem Grouped.insertIdx {pos : Nat} (h : Grouped L) (hpos : L[pos]? = some a)
    (hfirst : ∀ i < pos, L[i]? ≠ some a) : Grouped (L.insertIdx pos a) := by
  have hlen : pos < L.length := (List.getElem?_eq_some_iff.mp hpos).1
  have hbefore : ∀ x < pos, (L.insertIdx pos a)[x]? = L[x]? := fun x hx => List.getElem?_insertIdx_of_lt hx
  have hafter : ∀ x, pos < x → (L.insertIdx pos a)[x]? = L[x - 1]? := fun x hx => List.getElem?_insertIdx_of_gt hx
  have hself : (L.insertIdx pos a)[pos]? = some a := by
    rw [List.getElem?_insertIdx_self,if_pos (by omega)]
  -- A later element of the kind is one of the kind from `pos` on.
  have hkind : ∀ x, pos ≤ x → (L.insertIdx pos a)[x]? = some a → ∀ y, pos ≤ y → y ≤ x →
      (L.insertIdx pos a)[y]? = some a := by
    intro x hx hxa y hy hyx
    rcases Nat.lt_or_ge pos y with hlt | hge
    · rw [hafter x (by omega)] at hxa
      rw [hafter y hlt]
      exact h pos (y - 1) (x - 1) a (by omega) (by omega) hpos hxa
    · rw [show y = pos by omega]
      exact hself
  intro i j k b hij hjk hi hk
  rcases Nat.lt_or_ge i pos with hip | hip
  · rcases Nat.lt_or_ge k pos with hkp | hkp
    · rw [hbefore _ hip] at hi
      rw [hbefore _ hkp] at hk
      rw [hbefore j (by omega)]
      exact h i j k b hij hjk hi hk
    · -- The kind of an element on either side of `pos` would be that of the one at `pos`.
      exfalso
      rw [hbefore _ hip] at hi
      rcases Nat.lt_or_ge pos k with hlt | hge
      · rw [hafter k hlt] at hk
        have hmid := h i pos (k - 1) b (by omega) (by omega) hi hk
        rw [hpos] at hmid
        cases hmid
        exact hfirst i hip hi
      · rw [show k = pos by omega,hself] at hk
        cases hk
        exact hfirst i hip hi
  · rcases Nat.lt_or_ge pos i with hlt | hge
    · rw [hafter i hlt] at hi
      rw [hafter k (by omega)] at hk
      rw [hafter j (by omega)]
      exact h (i - 1) (j - 1) (k - 1) b (by omega) (by omega) hi hk
    · rw [show i = pos by omega,hself] at hi
      cases hi
      exact hkind k (by omega) hk j (by omega) hjk

end Grouped
