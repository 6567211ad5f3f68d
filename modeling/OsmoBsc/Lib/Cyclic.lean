import Mathlib.Algebra.BigOperators.Ring.Finset
import Mathlib.Algebra.Order.BigOperators.Group.Finset
import Mathlib.Algebra.Group.Action.Defs
import Mathlib.Data.Finset.Max
import Mathlib.Tactic.Ring
set_option autoImplicit false

namespace Cyclic

/-- How far `t` lies after `s` on a circle of `r` points. -/
def after (r s t : ℕ) : ℕ := if s ≤ t then t - s else t + r - s

section Split

variable {S : Finset ℕ} {d : ℕ}

/-- The number of points of `S` among the next `d` ones after `s`, on a circle of
`2*d+1` points. -/
def ahead (S : Finset ℕ) (d s : ℕ) : ℕ :=
  (S.filter fun t => t ≠ s ∧ after (2*d+1) s t ≤ d).card

/-- Of two points one is ahead of the other. -/
theorem after_le_iff {s t : ℕ} (hs : s < 2*d+1) (ht : t < 2*d+1) (hne : t ≠ s) :
    after (2*d+1) s t ≤ d ↔ ¬ after (2*d+1) t s ≤ d := by
  unfold after
  split <;> split <;> omega

theorem ahead_eq_sum (S : Finset ℕ) (d s : ℕ) :
    ahead S d s = ∑ t ∈ S, if t ≠ s ∧ after (2*d+1) s t ≤ d then 1 else 0 := by
  rw [ahead,Finset.card_filter]

theorem ahead_add_behind {s : ℕ} (hS : ∀ t ∈ S, t < 2*d+1) (hs : s ∈ S) :
    ahead S d s + (∑ t ∈ S, if s ≠ t ∧ after (2*d+1) t s ≤ d then 1 else 0) = S.card - 1 := by
  rw [ahead_eq_sum,← Finset.sum_add_distrib,← Finset.card_erase_of_mem hs,
    Finset.card_eq_sum_ones,← Finset.sum_erase S (a := s)]
  · refine Finset.sum_congr rfl fun t ht => ?_
    obtain ⟨hne,ht⟩ := Finset.mem_erase.mp ht
    have h := after_le_iff (hS s hs) (hS t ht) hne
    by_cases hle : after (2*d+1) s t ≤ d
    · simp [hne,hle,h.mp hle]
    · simp [hne.symm,hle,not_not.mp (mt h.mpr hle)]
  · simp

theorem sum_ahead (hS : ∀ t ∈ S, t < 2*d+1) :
    2 * (∑ s ∈ S, ahead S d s) = S.card * (S.card - 1) := by
  have hswap : ∑ s ∈ S, ahead S d s =
      ∑ s ∈ S, ∑ t ∈ S, if s ≠ t ∧ after (2*d+1) t s ≤ d then 1 else 0 := by
    simp only [ahead_eq_sum]
    exact Finset.sum_comm
  calc 2 * (∑ s ∈ S, ahead S d s)
      = ∑ s ∈ S, (ahead S d s + ∑ t ∈ S, if s ≠ t ∧ after (2*d+1) t s ≤ d then 1 else 0) := by
        rw [Finset.sum_add_distrib,← hswap]
        omega
    _ = ∑ s ∈ S, (S.card - 1) := Finset.sum_congr rfl fun s hs => ahead_add_behind hS hs
    _ = S.card * (S.card - 1) := by simp

/-- From one point to the next one at most one point is no longer ahead. -/
theorem ahead_le_next {p s : ℕ} (hp : p < 2*d+1) (hs : s ∈ S) (hS : ∀ t ∈ S, t < 2*d+1)
    (hnext : ∀ t ∈ S, t = p ∨ after (2*d+1) p s ≤ after (2*d+1) p t) :
    ahead S d p ≤ ahead S d s + 1 := by
  have hsub : (S.filter fun t => t ≠ p ∧ after (2*d+1) p t ≤ d) ⊆
      insert s (S.filter fun t => t ≠ s ∧ after (2*d+1) s t ≤ d) := by
    intro t ht
    obtain ⟨ht,hne,hle⟩ := Finset.mem_filter.mp ht
    have hn := (hnext t ht).resolve_left hne
    have hst := hS s hs
    have htt := hS t ht
    by_cases hts : t = s
    · simp [hts]
    · refine Finset.mem_insert_of_mem (Finset.mem_filter.mpr ⟨ht,hts,?_⟩)
      unfold after at hn hle ⊢
      split at hn <;> split at hn <;> split at hle <;> split <;> omega
  exact (Finset.card_le_card hsub).trans (Finset.card_insert_le _ _)

/-- What holds of one point and is passed on to the next one holds of all points. -/
theorem forall_of_next {r : ℕ} {P : ℕ → Prop} {t0 : ℕ} (ht0 : t0 ∈ S) (hS : ∀ t ∈ S, t < r)
    (h0 : P t0)
    (hstep : ∀ p ∈ S, ∀ s ∈ S, P p → (∀ t ∈ S, t = p ∨ after r p s ≤ after r p t) → P s) :
    ∀ s ∈ S, P s := by
  suffices h : ∀ n, ∀ s ∈ S, after r t0 s = n → P s from fun s hs => h _ s hs rfl
  intro n
  induction n using Nat.strongRecOn with
  | ind n ih =>
    intro s hs hn
    by_cases hst : s = t0
    · rw [hst]
      exact h0
    -- the last point before `s`, going round from `t0`
    have hne : (S.filter fun p => after r t0 p < n).Nonempty := by
      refine ⟨t0,Finset.mem_filter.mpr ⟨ht0,?_⟩⟩
      have hst' := hS s hs
      have ht0' := hS t0 ht0
      rw [← hn]
      unfold after
      split <;> split <;> omega
    obtain ⟨p,hp,hmax⟩ := Finset.exists_max_image _ (after r t0) hne
    obtain ⟨hpS,hpn⟩ := Finset.mem_filter.mp hp
    refine hstep p hpS s hs (ih _ hpn p hpS rfl) fun t ht => ?_
    by_cases htn : after r t0 t < n
    · have hle := hmax t (Finset.mem_filter.mpr ⟨ht,htn⟩)
      have h1 := hS t ht
      have h2 := hS p hpS
      have h3 := hS s hs
      have h4 := hS t0 ht0
      by_cases htp : t = p
      · exact .inl htp
      · refine .inr ?_
        unfold after at *
        split at hle <;> split at hle <;> split at hpn <;> split at hn <;> split at htn <;>
          split <;> split <;> omega
    · have h1 := hS t ht
      have h2 := hS p hpS
      have h3 := hS s hs
      have h4 := hS t0 ht0
      refine .inr ?_
      unfold after at *
      split at hpn <;> split at hn <;> split at htn <;> split <;> split <;> omega

/-- Some point has half of the others ahead of it. -/
theorem exists_balanced (hne : S.Nonempty) (hS : ∀ t ∈ S, t < 2*d+1) :
    ∃ s ∈ S, ahead S d s = (S.card - 1) / 2 := by
  have hsum := sum_ahead hS
  have hcard : 0 < S.card := Finset.card_pos.mpr hne
  by_contra hno
  push Not at hno
  -- some point has at least as many points ahead as wanted, and so has the next one
  obtain ⟨t0,ht0,h0⟩ : ∃ t ∈ S, (S.card - 1) / 2 ≤ ahead S d t := by
    by_contra hlt
    push Not at hlt
    have hlt' : ∑ s ∈ S, (ahead S d s + 1) ≤ ∑ s ∈ S, (S.card - 1) / 2 :=
      Finset.sum_le_sum fun s hs => hlt s hs
    rw [Finset.sum_add_distrib,Finset.sum_const,Finset.sum_const,smul_eq_mul,smul_eq_mul] at hlt'
    have hhalf : 2 * (S.card * ((S.card - 1) / 2)) ≤ S.card * (S.card - 1) := by
      have h2 : (S.card - 1) / 2 * 2 ≤ S.card - 1 := Nat.div_mul_le_self _ _
      calc 2 * (S.card * ((S.card - 1) / 2)) = S.card * ((S.card - 1) / 2 * 2) := by ring
        _ ≤ S.card * (S.card - 1) := Nat.mul_le_mul_left _ h2
    omega
  have hall : ∀ s ∈ S, (S.card - 1) / 2 ≤ ahead S d s := by
    refine forall_of_next ht0 hS h0 fun p hp s hs hP hnext => ?_
    have hle := ahead_le_next (hS p hp) hs hS hnext
    have hlt := lt_of_le_of_ne hP (hno p hp).symm
    omega
  have hmore : ∑ s ∈ S, ((S.card - 1) / 2 + 1) ≤ ∑ s ∈ S, ahead S d s :=
    Finset.sum_le_sum fun s hs => lt_of_le_of_ne (hall s hs) (hno s hs).symm
  rw [Finset.sum_const,smul_eq_mul] at hmore
  have hbig : S.card * (S.card - 1) + S.card ≤ 2 * (S.card * ((S.card - 1) / 2 + 1)) := by
    have h2 : S.card - 1 + 1 ≤ ((S.card - 1) / 2 + 1) * 2 := by omega
    calc S.card * (S.card - 1) + S.card = S.card * (S.card - 1 + 1) := by ring
      _ ≤ S.card * (((S.card - 1) / 2 + 1) * 2) := Nat.mul_le_mul_left _ h2
      _ = 2 * (S.card * ((S.card - 1) / 2 + 1)) := by ring
  omega

end Split

end Cyclic
