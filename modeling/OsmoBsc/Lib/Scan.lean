import Mathlib.Data.List.Basic
set_option autoImplicit false

/-! Scans of a list: one that keeps the first element of the greatest value above a bound, and one that keeps
the index of an element until a later element beats it. -/

namespace Scan

variable {α : Type*} (eligible : α → Bool) (value : α → Nat)

def keepBest : List α → Option α → Nat → Option α
  | [],best,_ => best
  | c :: cs,best,top =>
    if eligible c && top < value c then keepBest cs (some c) (value c) else keepBest cs best top

/-- A scan that keeps an eligible element whenever its value is better than the best so far. -/
def keep (better : Nat → Nat → Prop) [DecidableRel better] : List α → Option α → Nat → Option α
  | [],kept,_ => kept
  | c :: cs,kept,bound =>
    if eligible c = true ∧ better (value c) bound then keep better cs (some c) (value c) else keep better cs kept bound

/-- A scan that keeps the first element of the least value below a bound. -/
def keepWorst (cs : List α) (worst : Option α) (bottom : Nat) : Option α :=
  keep eligible value (· < ·) cs worst bottom

variable {eligible value}

section Keep

variable {better : Nat → Nat → Prop} [DecidableRel better]

/-- Nothing is better than the bound, or the scan ends with an element than which nothing is better. -/
theorem keep_spec (hasymm : ∀ a b, better a b → ¬ better b a) (htrans : ∀ a b c, better a b → better b c → better a c)
    (cs : List α) (kept : Option α) (bound : Nat) :
    (keep eligible value better cs kept bound = kept ∧ ∀ c ∈ cs, eligible c = true → ¬ better (value c) bound)
    ∨ ∃ c ∈ cs, keep eligible value better cs kept bound = some c ∧ eligible c = true ∧ better (value c) bound
      ∧ ∀ d ∈ cs, eligible d = true → ¬ better (value d) (value c) := by
  induction cs generalizing kept bound with
  | nil => exact .inl ⟨rfl,by simp⟩
  | cons c cs ih =>
    rw [keep]
    by_cases hbetter : eligible c = true ∧ better (value c) bound
    · rw [if_pos hbetter]
      right
      rcases ih (some c) (value c) with ⟨heq,hnone⟩ | ⟨d,hd,heq,hel,hdc,hnone⟩
      · refine ⟨c,List.mem_cons_self,heq,hbetter.1,hbetter.2,fun e he hel' => ?_⟩
        rcases List.mem_cons.mp he with rfl | he
        · exact fun h => hasymm _ _ h h
        · exact hnone e he hel'
      · refine ⟨d,List.mem_cons_of_mem c hd,heq,hel,htrans _ _ _ hdc hbetter.2,fun e he hel' => ?_⟩
        rcases List.mem_cons.mp he with rfl | he
        · exact hasymm _ _ hdc
        · exact hnone e he hel'
    · rw [if_neg hbetter]
      have hc : eligible c = true → ¬ better (value c) bound := fun hel h => hbetter ⟨hel,h⟩
      rcases ih kept bound with ⟨heq,hnone⟩ | ⟨d,hd,heq,hel,hdb,hnone⟩
      · refine .inl ⟨heq,fun e he hel' => ?_⟩
        rcases List.mem_cons.mp he with rfl | he
        · exact hc hel'
        · exact hnone e he hel'
      · refine .inr ⟨d,List.mem_cons_of_mem c hd,heq,hel,hdb,fun e he hel' => ?_⟩
        rcases List.mem_cons.mp he with rfl | he
        · exact fun h => hc hel' (htrans _ _ _ h hdb)
        · exact hnone e he hel'

end Keep

theorem keepBest_eq (cs : List α) (best : Option α) (top : Nat) :
    keepBest eligible value cs best top = keep eligible value (fun a b => b < a) cs best top := by
  induction cs generalizing best top with
  | nil => rfl
  | cons c cs ih => simp only [keepBest,keep,ih,Bool.and_eq_true,decide_eq_true_eq]

/-- Nothing is above the bound, or the scan ends with an element that nothing exceeds. -/
theorem keepBest_spec (cs : List α) (best : Option α) (top : Nat) :
    (keepBest eligible value cs best top = best ∧ ∀ c ∈ cs, eligible c = true → value c ≤ top)
    ∨ ∃ c ∈ cs, keepBest eligible value cs best top = some c ∧ eligible c = true ∧ top < value c
      ∧ ∀ c' ∈ cs, eligible c' = true → value c' ≤ value c := by
  have h := @keep_spec _ eligible value (fun a b => b < a) _ (fun a b => Nat.lt_asymm)
    (fun a b c hab hbc => Nat.lt_trans hbc hab) cs best top
  simp only [Nat.not_lt] at h
  rwa [keepBest_eq]

/-- Nothing is below the bound, or the scan ends with an element that is below nothing else. -/
theorem keepWorst_spec (cs : List α) (worst : Option α) (bottom : Nat) :
    (keepWorst eligible value cs worst bottom = worst ∧ ∀ c ∈ cs, eligible c = true → bottom ≤ value c)
    ∨ ∃ c ∈ cs, keepWorst eligible value cs worst bottom = some c ∧ eligible c = true ∧ value c < bottom
      ∧ ∀ c' ∈ cs, eligible c' = true → value c ≤ value c' := by
  have h := @keep_spec _ eligible value (· < ·) _ (fun a b => Nat.lt_asymm) (fun a b c => Nat.lt_trans) cs worst bottom
  simp only [Nat.not_lt] at h
  exact h

section Champion

variable {β : Type*} (beats : β → β → Prop) [DecidableRel beats] (v : Nat → β)

/-- The index that is kept after the elements up to `n`; `beats a b` says that `b` beats `a`. -/
def champion : Nat → Nat
  | 0 => 0
  | n+1 => if beats (v (champion n)) (v (n+1)) then n+1 else champion n

variable {beats v}

theorem champion_le (n : Nat) : champion beats v n ≤ n := by
  induction n with
  | zero => exact Nat.le_refl 0
  | succ n ih =>
    rw [champion]
    split
    · exact Nat.le_refl _
    · exact Nat.le_succ_of_le ih

/-- None of the elements seen beats the one that is kept. -/
theorem champion_unbeaten (hirrefl : ∀ a, ¬ beats a a) (htrans : ∀ a b c, beats a b → beats b c → beats a c)
    (n : Nat) : ∀ i ≤ n, ¬ beats (v (champion beats v n)) (v i) := by
  induction n with
  | zero =>
    intro i hi
    obtain rfl := Nat.le_zero.mp hi
    exact hirrefl _
  | succ n ih =>
    intro i hi
    rw [champion]
    split
    · next hbeats =>
      intro hi'
      rcases Nat.le_succ_iff.mp hi with hle | rfl
      · exact ih i hle (htrans _ _ _ hbeats hi')
      · exact hirrefl _ hi'
    · next hkept =>
      rcases Nat.le_succ_iff.mp hi with hle | rfl
      · exact ih i hle
      · exact hkept

/-- What no later element beats is kept. -/
theorem champion_kept {j n : Nat} (hle : j ≤ n) (h : ∀ i ≤ n, ¬ beats (v (champion beats v j)) (v i)) :
    champion beats v n = champion beats v j := by
  induction n with
  | zero => rw [Nat.le_zero.mp hle]
  | succ n ih =>
    rcases Nat.le_succ_iff.mp hle with hlt | rfl
    · have hsame := ih hlt fun i hi => h i (Nat.le_succ_of_le hi)
      rw [champion,hsame,if_neg (h (n+1) (Nat.le_refl _))]
    · rfl

end Champion

end Scan
