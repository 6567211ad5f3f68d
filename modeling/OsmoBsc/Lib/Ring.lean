import Mathlib.Logic.Function.Basic
import Mathlib.Data.Fin.Basic
import Mathlib.Algebra.Ring.Nat
set_option autoImplicit false

namespace Ring

variable {α : Type} {c : Nat} [NeZero c]

/-- A ring of `c` places keeps the last values of a history: value number `n` stands at
place `n` modulo `c` until it is overwritten. -/
def Holds (ring : Fin c → α) (hist : List α) : Prop :=
  ∀ n x, hist[n]? = some x → hist.length ≤ n + c → ring (Fin.ofNat c n) = x

theorem holds_nil (ring : Fin c → α) : Holds ring [] := by
  intro n x h
  cases h

theorem ofNat_ne {n m : Nat} (h : n < m) (hc : m < n + c) : Fin.ofNat c n ≠ Fin.ofNat c m := by
  intro he
  have hm : n % c = m % c := congrArg Fin.val he
  have hd : c ∣ m - n := Nat.dvd_of_mod_eq_zero (Nat.sub_mod_eq_zero_of_mod_eq hm.symm)
  have := Nat.le_of_dvd (by omega) hd
  omega

theorem Holds.push {ring : Fin c → α} {hist : List α} (h : Holds ring hist) (x : α) :
    Holds (Function.update ring (Fin.ofNat c hist.length) x) (hist ++ [x]) := by
  intro n y hn hc
  rw [List.length_append,List.length_singleton] at hc
  rcases Nat.lt_trichotomy n hist.length with hlt | rfl | hgt
  · rw [List.getElem?_append_left hlt] at hn
    rw [Function.update_of_ne (ofNat_ne hlt (by omega))]
    exact h n y hn (by omega)
  · rw [List.getElem?_concat_length,Option.some.injEq] at hn
    rw [Function.update_self,hn]
  · rw [List.getElem?_eq_none (by simp; omega)] at hn
    cases hn

/-- The last `m` values are read from the ring in their order. -/
theorem Holds.window {ring : Fin c → α} {hist : List α} (h : Holds ring hist) {m : Nat}
    (hm : m ≤ hist.length) (hc : m ≤ c) :
    (List.range m).map (fun i => ring (Fin.ofNat c (hist.length - m + i))) =
      hist.drop (hist.length - m) := by
  apply List.ext_getElem?
  intro i
  by_cases hi : i < m
  · have hlt : hist.length - m + i < hist.length := by omega
    have hx := List.getElem?_eq_getElem hlt
    have hr := h _ _ hx (by omega)
    rw [List.getElem?_map,List.getElem?_range hi,List.getElem?_drop,hx,Option.map_some,hr]
  · rw [List.getElem?_eq_none (by simp; omega),List.getElem?_eq_none (by simp; omega)]

end Ring
