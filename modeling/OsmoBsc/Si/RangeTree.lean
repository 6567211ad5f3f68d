import OsmoBsc.Lib.Cyclic
import OsmoBsc.Si.RangeEncode
import Mathlib.Data.Finset.Card
set_option autoImplicit false

namespace OsmoBsc.Si
open Cyclic

/-- The frequencies of the subtree below W(k), by the rule of TS 44.018: its range is
`2 ^ bits - 1`, and a null W(k) ends it. -/
def decodeTree (w : Nat → Nat) : (bits k : Nat) → List Nat
  | 0, _ => []
  | bits + 1, k =>
    if w k = 0 then []
    else
      let pivot := w k - 1
      let power := greatestPowerOf2LesserOrEqualTo k
      pivot :: (decodeTree w bits (k + power)).map (fun x => (x + pivot + 2 ^ bits) % (2 ^ (bits + 1) - 1))
        ++ (decodeTree w bits (k + 2 * power)).map (fun x => (x + pivot + 1) % (2 ^ (bits + 1) - 1))

section Mod

variable {r a b p d : Nat}

theorem mod_natCast (n : Nat) : mod (n : Int) r = n % r := by
  have h : (n : Int).tmod r = (n % r : Nat) := by
    rw [Int.tmod_eq_emod_of_nonneg (by omega),Int.natCast_mod]
  simp only [mod,h]
  rw [if_neg (by omega)]
  rfl

theorem mod_sub (ha : a < r) (hb : b < r) : mod ((a : Int) - b) r = after r b a := by
  by_cases h : b ≤ a
  · have ht : ((a : Int) - b).tmod r = (a : Int) - b := Int.tmod_eq_of_lt (by omega) (by omega)
    simp only [mod,after,ht,if_pos h]
    rw [if_neg (by omega)]
    omega
  · have ht : ((a : Int) - b).tmod r = (a : Int) - b := by
      rw [show (a : Int) - b = -((b - a : Nat) : Int) by omega,Int.neg_tmod,
        Int.tmod_eq_of_lt (by omega) (by omega)]
    simp only [mod,after,ht,if_neg h]
    rw [if_pos (by omega)]
    omega

theorem after_left (hp : p < 2*d+1) (ha : a < 2*d+1) :
    (after (2*d+1) ((p+d+1) % (2*d+1)) a < d ↔ d < after (2*d+1) p a)
      ∧ (d < after (2*d+1) p a →
        after (2*d+1) ((p+d+1) % (2*d+1)) a = after (2*d+1) p a - (d+1)) := by
  have hmod : (p+d+1) % (2*d+1) = if p + d + 1 < 2*d+1 then p+d+1 else p - d := by
    split
    · rename_i h
      exact Nat.mod_eq_of_lt h
    · rw [Nat.mod_eq_sub_mod (by omega),Nat.mod_eq_of_lt (by omega)]
      omega
  rw [hmod]
  unfold after
  split <;> split <;> split <;> omega

theorem after_right (hp : p < 2*d+1) (ha : a < 2*d+1) :
    (after (2*d+1) ((p+1) % (2*d+1)) a < d ↔ a ≠ p ∧ after (2*d+1) p a ≤ d)
      ∧ (a ≠ p ∧ after (2*d+1) p a ≤ d →
        after (2*d+1) ((p+1) % (2*d+1)) a = after (2*d+1) p a - 1) := by
  have hmod : (p+1) % (2*d+1) = if p + 1 < 2*d+1 then p+1 else 0 := by
    split
    · rename_i h
      exact Nat.mod_eq_of_lt h
    · rw [Nat.mod_eq_sub_mod (by omega),Nat.mod_eq_of_lt (by omega)]
      omega
  rw [hmod]
  unfold after
  split <;> split <;> split <;> omega

theorem after_add_mod (hp : p < r) (ha : a < r) : (after r p a + p) % r = a := by
  unfold after
  split
  · rw [Nat.sub_add_cancel (by assumption),Nat.mod_eq_of_lt ha]
  · rw [show a + r - p + p = a + r by omega,Nat.add_mod_right,Nat.mod_eq_of_lt ha]

theorem after_lt (hp : p < r) (ha : a < r) : after r p a < r := by
  unfold after
  split <;> omega

theorem after_inj (hp : p < r) (ha : a < r) (hb : b < r) (h : after r p a = after r p b) : a = b := by
  rw [← after_add_mod hp ha,h,after_add_mod hp hb]

end Mod

section Split

variable {d : Nat} {L : List Nat}

theorem countP_eq_card {P : Nat → Prop} [DecidablePred P] (hnd : L.Nodup) :
    L.countP (fun a => P a) = (L.toFinset.filter P).card := by
  rw [List.countP_eq_length_filter,← List.toFinset_card_of_nodup (hnd.filter _),List.toFinset_filter]
  simp

theorem countP_mod_le {p : Nat} (hnd : L.Nodup) (hL : ∀ a ∈ L, a < 2*d+1) (hp : p ∈ L) :
    L.countP (fun (a : Nat) => mod ((a : Int) - p) (2*d+1) ≤ (2*d+1-1)/2) = ahead L.toFinset d p + 1 := by
  have hcongr : L.countP (fun (a : Nat) => mod ((a : Int) - p) (2*d+1) ≤ (2*d+1-1)/2)
      = L.countP (fun a => after (2*d+1) p a ≤ d) := by
    refine List.countP_congr fun a ha => ?_
    rw [mod_sub (hL a ha) (hL p hp),show (2*d+1-1)/2 = d by omega]
  rw [hcongr,countP_eq_card hnd,ahead,← Finset.card_insert_of_notMem (a := p)]
  · congr 1
    ext a
    simp only [Finset.mem_filter,List.mem_toFinset,Finset.mem_insert]
    by_cases hap : a = p
    · simp [hap,hp,after]
    · simp [hap]
  · simp

theorem rangeEncFindIndex_spec (hnd : L.Nodup) (hL : ∀ a ∈ L, a < 2*d+1) (hne : L ≠ []) :
    ∃ i p, rangeEncFindIndex (2*d+1) L = some i ∧ L.getD i 0 = p ∧ p ∈ L
      ∧ ahead L.toFinset d p = (L.length - 1) / 2 := by
  have hlen : 0 < L.length := List.length_pos_iff.mpr hne
  have htest : ∀ p ∈ L, (((L.countP (fun (a : Nat) => mod ((a : Int) - p) (2*d+1) ≤ (2*d+1-1)/2) : Int)
      - 1 == ((L.length : Int) - 1) / 2) = true ↔ ahead L.toFinset d p = (L.length - 1) / 2) := by
    intro p hp
    rw [countP_mod_le hnd hL hp,beq_iff_eq]
    omega
  cases hf : rangeEncFindIndex (2*d+1) L with
  | none =>
    obtain ⟨p,hp,hbal⟩ := exists_balanced (S := L.toFinset) (d := d)
      (by simpa [List.toFinset_nonempty_iff] using hne) (by simpa using hL)
    rw [List.toFinset_card_of_nodup hnd] at hbal
    have hp := List.mem_toFinset.mp hp
    have hno := List.findIdx?_eq_none_iff.mp hf p hp
    rw [(htest p hp).mpr hbal] at hno
    cases hno
  | some i =>
    obtain ⟨hi,htrue,-⟩ := List.findIdx?_eq_some_iff_getElem.mp hf
    refine ⟨i,L[i],rfl,?_,List.getElem_mem hi,(htest _ (List.getElem_mem hi)).mp htrue⟩
    rw [List.getD_eq_getElem?_getD,List.getElem?_eq_getElem hi,Option.getD_some]

/-- What a side of the pivot is made of: `side` tells which points are on it, and
`off` how far before its first point the pivot is. -/
theorem rangeEncSide_eq {origin off : Nat} {side : Nat → Prop} [DecidablePred side] {p : Nat}
    (hor : origin < 2*d+1) (hL : ∀ a ∈ L, a < 2*d+1)
    (hside : ∀ a ∈ L, (after (2*d+1) origin a < d ↔ side a)
      ∧ (side a → after (2*d+1) origin a = after (2*d+1) p a - off)) :
    rangeEncSide (2*d+1) L origin = (L.filter (fun a => side a)).map (fun a => after (2*d+1) p a - off) := by
  unfold rangeEncSide
  rw [← List.filterMap_eq_map,List.filterMap_filter]
  refine List.filterMap_congr fun a ha => ?_
  rw [mod_sub (hL a ha) hor,show (2*d+1)/2 = d by omega]
  obtain ⟨h1,h2⟩ := hside a ha
  by_cases hs : side a
  · rw [if_pos (h1.mpr hs)]
    simp [hs,h2 hs]
  · simp [mt h1.mp hs,hs]

/-- A side of the pivot `p`: no point of it is lost or comes twice, and going back
from it gives the points of `L` that are on it. -/
structure Side (d p off : Nat) (L : List Nat) (side : Nat → Prop) (xs : List Nat) : Prop where
  nodup : xs.Nodup
  lt : ∀ x ∈ xs, x < d
  back : ∀ a, a ∈ xs.map (fun x => (x + p + off) % (2*d+1)) ↔ a ∈ L ∧ side a

theorem Side.of_eq {p off : Nat} {side : Nat → Prop} [DecidablePred side] {xs : List Nat}
    (hxs : xs = (L.filter (fun a => side a)).map (fun a => after (2*d+1) p a - off))
    (hnd : L.Nodup) (hL : ∀ a ∈ L, a < 2*d+1) (hp : p < 2*d+1)
    (hside : ∀ a ∈ L, side a → off ≤ after (2*d+1) p a ∧ after (2*d+1) p a - off < d) :
    Side d p off L side xs := by
  subst hxs
  refine ⟨?_,?_,fun a => ?_⟩
  · refine (hnd.filter _).map_on ?_
    intro a ha b hb h
    obtain ⟨ha,hsa⟩ := List.mem_filter.mp ha
    obtain ⟨hb,hsb⟩ := List.mem_filter.mp hb
    have h1 := (hside a ha (by simpa using hsa)).1
    have h2 := (hside b hb (by simpa using hsb)).1
    exact after_inj hp (hL a ha) (hL b hb) (by omega)
  · intro x hx
    obtain ⟨a,ha,rfl⟩ := List.mem_map.mp hx
    obtain ⟨ha,hsa⟩ := List.mem_filter.mp ha
    exact (hside a ha (by simpa using hsa)).2
  · have hback : ∀ b ∈ L, side b → (after (2*d+1) p b - off + p + off) % (2*d+1) = b := by
      intro b hb hsb
      rw [show after (2*d+1) p b - off + p + off = after (2*d+1) p b + p by
        have := (hside b hb hsb).1
        omega]
      exact after_add_mod hp (hL b hb)
    simp only [List.map_map,List.mem_map,List.mem_filter,Function.comp]
    constructor
    · rintro ⟨b,⟨hb,hsb⟩,rfl⟩
      have hsb : side b := by simpa using hsb
      rw [hback b hb hsb]
      exact ⟨hb,hsb⟩
    · rintro ⟨ha,hsa⟩
      exact ⟨a,⟨ha,by simpa using hsa⟩,hback a ha hsa⟩

variable {p : Nat}

theorem rangeEncSide_left (hnd : L.Nodup) (hL : ∀ a ∈ L, a < 2*d+1) (hp : p ∈ L)
    (hbal : ahead L.toFinset d p = (L.length - 1) / 2) :
    Side d p (d+1) L (fun a => d < after (2*d+1) p a)
        (rangeEncSide (2*d+1) L (mod (p + (2*d+1-1)/2 + 1 : Nat) (2*d+1)))
      ∧ (rangeEncSide (2*d+1) L (mod (p + (2*d+1-1)/2 + 1 : Nat) (2*d+1))).length = L.length / 2 := by
  have hp' := hL p hp
  rw [mod_natCast,show (2*d+1-1)/2 = d by omega]
  have heq := rangeEncSide_eq (L := L) (Nat.mod_lt (p+d+1) (by omega)) hL fun a ha => after_left hp' (hL a ha)
  refine ⟨.of_eq heq hnd hL hp' fun a ha hs => ?_,?_⟩
  · have := after_lt hp' (hL a ha)
    omega
  · rw [heq,List.length_map,← List.countP_eq_length_filter]
    have hall := List.length_eq_countP_add_countP (fun a => decide (d < after (2*d+1) p a)) (l := L)
    have hrest : L.countP (fun a => decide ¬ (decide (d < after (2*d+1) p a) = true)) = ahead L.toFinset d p + 1 := by
      rw [← countP_mod_le hnd hL hp]
      refine List.countP_congr fun a ha => ?_
      rw [mod_sub (hL a ha) hp',show (2*d+1-1)/2 = d by omega]
      simp
    have hlen : 0 < L.length := List.length_pos_of_mem hp
    omega

theorem rangeEncSide_right (hnd : L.Nodup) (hL : ∀ a ∈ L, a < 2*d+1) (hp : p ∈ L)
    (hbal : ahead L.toFinset d p = (L.length - 1) / 2) :
    Side d p 1 L (fun a => a ≠ p ∧ after (2*d+1) p a ≤ d)
        (rangeEncSide (2*d+1) L (mod (p + 1 : Nat) (2*d+1)))
      ∧ (rangeEncSide (2*d+1) L (mod (p + 1 : Nat) (2*d+1))).length = (L.length - 1) / 2 := by
  have hp' := hL p hp
  rw [mod_natCast]
  have heq := rangeEncSide_eq (L := L) (Nat.mod_lt (p+1) (by omega)) hL fun a ha => after_right hp' (hL a ha)
  refine ⟨.of_eq heq hnd hL hp' fun a ha hs => ?_,?_⟩
  · have hpos : 0 < after (2*d+1) p a := by
      have := hL a ha
      have := hs.1
      unfold after
      split <;> omega
    omega
  · rw [heq,List.length_map,← List.countP_eq_length_filter,← hbal]
    exact countP_eq_card hnd

end Split

section Tree

variable {o l : Nat}

/-- The nodes of the subtree whose root is `o + 2 ^ l` are `o + 2 ^ l * m`, numbered by
`m` from 1 on: below the root the left ones have an even number and the right ones an
odd one. -/
theorem left_node (m : Nat) : o + 2 ^ (l+1) * m = o + 2 ^ l * (2 * m) := by
  rw [pow_succ,Nat.mul_assoc]

theorem right_node (m : Nat) : o + 2 ^ l + 2 ^ (l+1) * m = o + 2 ^ l * (2 * m + 1) := by
  rw [pow_succ]
  ring

theorem node_inj {m m' : Nat} (h : o + 2 ^ l * m = o + 2 ^ l * m') : m = m' :=
  Nat.eq_of_mul_eq_mul_left (Nat.two_pow_pos l) (Nat.add_left_cancel h)

theorem greatestPower_node (ho : o < 2 ^ l) : greatestPowerOf2LesserOrEqualTo (o + 2 ^ l) = 2 ^ l := by
  have h := Nat.two_pow_pos l
  have hlog : (o + 2 ^ l).log2 = l := by
    rw [Nat.log2_eq_iff (by omega),pow_succ]
    omega
  rw [greatestPowerOf2LesserOrEqualTo,hlog]

theorem decodeTree_congr {w w' : Nat → Nat} (bits : Nat) (ho : o < 2 ^ l)
    (h : ∀ m, 1 ≤ m → w (o + 2 ^ l * m) = w' (o + 2 ^ l * m)) :
    decodeTree w bits (o + 2 ^ l) = decodeTree w' bits (o + 2 ^ l) := by
  induction bits generalizing o l with
  | zero => rfl
  | succ bits ih =>
    have hroot := h 1 (by omega)
    have hpow : 2 ^ (l+1) = 2 ^ l + 2 ^ l := by rw [pow_succ]; omega
    rw [Nat.mul_one] at hroot
    simp only [decodeTree,hroot,greatestPower_node ho]
    have hleft := ih (o := o) (l := l+1) (by omega) fun m hm => by
      rw [left_node]
      exact h _ (by omega)
    have hright := ih (o := o + 2 ^ l) (l := l+1) (by omega) fun m hm => by
      rw [right_node]
      exact h _ (by omega)
    rw [show o + 2 ^ l + 2 ^ l = o + 2 ^ (l+1) by omega,
      show o + 2 ^ l + 2 * 2 ^ l = o + 2 ^ l + 2 ^ (l+1) by omega,hleft,hright]

theorem decodeTree_length_le {w : Nat → Nat} (bits : Nat) {n : Nat} (ho : o < 2 ^ l)
    (h : ∀ m, n < m → w (o + 2 ^ l * m) = 0) : (decodeTree w bits (o + 2 ^ l)).length ≤ n := by
  induction bits generalizing o l n with
  | zero => exact Nat.zero_le n
  | succ bits ih =>
    have hpow : 2 ^ (l+1) = 2 ^ l + 2 ^ l := by rw [pow_succ]; omega
    simp only [decodeTree,greatestPower_node ho]
    by_cases hroot : w (o + 2 ^ l) = 0
    · simp [hroot]
    · have hpos : 0 < n := by
        rcases Nat.eq_zero_or_pos n with rfl | hpos
        · have := h 1 (by omega)
          rw [Nat.mul_one] at this
          exact absurd this hroot
        · exact hpos
      have hleft := ih (o := o) (l := l+1) (n := n / 2) (by omega) fun m hm => by
        rw [left_node]
        exact h _ (by omega)
      have hright := ih (o := o + 2 ^ l) (l := l+1) (n := (n - 1) / 2) (by omega) fun m hm => by
        rw [right_node]
        exact h _ (by omega)
      rw [if_neg hroot,show o + 2 ^ l + 2 ^ l = o + 2 ^ (l+1) by omega,
        show o + 2 ^ l + 2 * 2 ^ l = o + 2 ^ l + 2 ^ (l+1) by omega]
      simp only [List.length_append,List.length_cons,List.length_map]
      omega

/-- The array `out'` is `out` with the tree of `L` in the subtree of `o + 2 ^ l`. -/
structure Encodes (bits o l : Nat) (L : List Nat) (out out' : IntArray) : Prop where
  frame : ∀ i, (∀ m, 1 ≤ m → m ≤ L.length → i + 1 ≠ o + 2 ^ l * m) → out' i = out i
  value : ∀ m, 1 ≤ m → m ≤ L.length →
    1 ≤ out' (o + 2 ^ l * m - 1) ∧ out' (o + 2 ^ l * m - 1) < 2 ^ (bits - m.log2)
  decode : (∀ m, 1 ≤ m → out (o + 2 ^ l * m - 1) = 0) →
    ∀ a, a ∈ decodeTree (fun k => out' (k - 1)) bits (o + 2 ^ l) ↔ a ∈ L

theorem Encodes.nil (bits : Nat) (out : IntArray) : Encodes bits o l [] out out := by
  refine ⟨fun _ _ => rfl,by simp; omega,fun h0 a => ?_⟩
  have hroot := h0 1 (by omega)
  rw [Nat.mul_one] at hroot
  cases bits with
  | zero => simp [decodeTree]
  | succ bits => simp [decodeTree,hroot]

theorem node_pos {m : Nat} (hm : 1 ≤ m) : 1 ≤ o + 2 ^ l * m := by
  have h := Nat.two_pow_pos l
  have := Nat.mul_pos h hm
  omega

theorem Encodes.node {bits p : Nat} {L left right : List Nat} {out out1 out2 : IntArray}
    (ho : o < 2 ^ l) (hp : p ∈ L) (hL : ∀ a ∈ L, a < 2 ^ (bits+1) - 1)
    (hleft : Encodes bits o (l+1) left (Function.update out (o + 2 ^ l - 1) (1 + p)) out1)
    (hright : Encodes bits (o + 2 ^ l) (l+1) right out1 out2)
    (hsides : ∀ a, a ∈ L ↔ a = p
      ∨ a ∈ left.map (fun x => (x + p + 2 ^ bits) % (2 ^ (bits+1) - 1))
      ∨ a ∈ right.map (fun x => (x + p + 1) % (2 ^ (bits+1) - 1)))
    (hl : left.length = L.length / 2) (hr : right.length = (L.length - 1) / 2) :
    Encodes (bits+1) o l L out out2 := by
  have hlen : 0 < L.length := List.length_pos_of_mem hp
  -- nothing but the right tree writes nodes with an odd number above 1
  have hkeep2 : ∀ m, 1 ≤ m → (∀ m', 1 ≤ m' → m ≠ 2 * m' + 1) →
      out2 (o + 2 ^ l * m - 1) = out1 (o + 2 ^ l * m - 1) := by
    intro m hm hodd
    refine hright.frame _ fun m' hm' _ h => hodd m' hm' ?_
    have := node_pos (o := o) (l := l) hm
    rw [right_node,Nat.sub_add_cancel this] at h
    exact node_inj h
  have hkeep1 : ∀ m, 1 ≤ m → (∀ m', 1 ≤ m' → m ≠ 2 * m') →
      out1 (o + 2 ^ l * m - 1) = Function.update out (o + 2 ^ l - 1) (1 + p) (o + 2 ^ l * m - 1) := by
    intro m hm heven
    refine hleft.frame _ fun m' hm' _ h => heven m' hm' ?_
    have := node_pos (o := o) (l := l) hm
    rw [left_node,Nat.sub_add_cancel this] at h
    exact node_inj h
  have hkeep0 : ∀ m, 2 ≤ m →
      Function.update out (o + 2 ^ l - 1) (1 + p) (o + 2 ^ l * m - 1) = out (o + 2 ^ l * m - 1) := by
    intro m hm
    refine Function.update_of_ne (fun h => ?_) _ _
    have h1 := node_pos (o := o) (l := l) (show 1 ≤ m by omega)
    have h2 := node_pos (o := o) (l := l) (le_refl 1)
    rw [Nat.mul_one] at h2
    have h3 : o + 2 ^ l * m = o + 2 ^ l * 1 := by omega
    have := node_inj h3
    omega
  have hroot : out2 (o + 2 ^ l - 1) = 1 + p := by
    have h2 := hkeep2 1 (by omega) (by omega)
    have h1 := hkeep1 1 (by omega) (by omega)
    rw [Nat.mul_one] at h2 h1
    rw [h2,h1,Function.update_self]
  have hpow : 2 ^ (l+1) = 2 ^ l + 2 ^ l := by rw [pow_succ]; omega
  refine ⟨fun i hi => ?_,fun m hm hmL => ?_,fun h0 a => ?_⟩
  · have h1 := hi 1 (by omega) (by omega)
    rw [hright.frame i fun m' hm' hle => ?_,hleft.frame i fun m' hm' hle => ?_,
      Function.update_of_ne (by omega)]
    · rw [left_node]
      exact hi _ (by omega) (by omega)
    · rw [right_node]
      exact hi _ (by omega) (by omega)
  · rcases Nat.even_or_odd' m with ⟨m',rfl | rfl⟩
    · have hv := hleft.value m' (by omega) (by omega)
      rw [left_node] at hv
      rw [hkeep2 _ hm (by omega),Nat.log2_two_mul (by omega),show bits + 1 - (m'.log2 + 1) = bits - m'.log2 by omega]
      exact hv
    · by_cases hm' : m' = 0
      · subst hm'
        have := hL p hp
        rw [Nat.mul_zero,Nat.zero_add,Nat.mul_one,hroot,show Nat.log2 1 = 0 from rfl,Nat.sub_zero]
        omega
      · have hv := hright.value m' (by omega) (by omega)
        rw [right_node] at hv
        rw [Nat.log2_def,if_pos (by omega),show (2 * m' + 1) / 2 = m' by omega,
          show bits + 1 - (m'.log2 + 1) = bits - m'.log2 by omega]
        exact hv
  · have hdl : ∀ x, x ∈ decodeTree (fun k => out2 (k - 1)) bits (o + 2 ^ (l+1)) ↔ x ∈ left := by
      intro x
      have hcongr : decodeTree (fun k => out2 (k - 1)) bits (o + 2 ^ (l+1))
          = decodeTree (fun k => out1 (k - 1)) bits (o + 2 ^ (l+1)) := by
        refine decodeTree_congr bits (by omega) fun m hm => ?_
        rw [left_node]
        exact hkeep2 _ (by omega) (by omega)
      rw [hcongr]
      refine hleft.decode (fun m hm => ?_) x
      rw [left_node,hkeep0 _ (by omega)]
      exact h0 _ (by omega)
    have hdr : ∀ x, x ∈ decodeTree (fun k => out2 (k - 1)) bits (o + 2 ^ l + 2 ^ (l+1)) ↔ x ∈ right := by
      refine hright.decode fun m hm => ?_
      rw [right_node,hkeep1 _ (by omega) (by omega),hkeep0 _ (by omega)]
      exact h0 _ (by omega)
    rw [hsides a]
    simp only [decodeTree,hroot,greatestPower_node ho,show o + 2 ^ l + 2 ^ l = o + 2 ^ (l+1) by omega,
      show o + 2 ^ l + 2 * 2 ^ l = o + 2 ^ l + 2 ^ (l+1) by omega,show 1 + p - 1 = p by omega]
    rw [if_neg (by omega)]
    simp only [List.cons_append,List.mem_cons,List.mem_append,List.mem_map,hdl,hdr]

/-- How `_range_enc_arfcns` splits a list with a range of `2 ^ (bits+1) - 1` at the pivot `p`. -/
structure Split (bits : Nat) (L : List Nat) (i p : Nat) (left right : List Nat) : Prop where
  two_le : 2 ≤ L.length
  found : rangeEncFindIndex (2 ^ (bits+1) - 1) L = some i
  pivot : L.getD i 0 = p
  mem : p ∈ L
  left_eq : rangeEncSide (2 ^ (bits+1) - 1) L (mod (p + (2 ^ bits - 1) + 1 : Nat) (2 ^ (bits+1) - 1)) = left
  right_eq : rangeEncSide (2 ^ (bits+1) - 1) L (mod (p + 1 : Nat) (2 ^ (bits+1) - 1)) = right
  left_nodup : left.Nodup
  right_nodup : right.Nodup
  left_lt : ∀ x ∈ left, x < 2 ^ bits - 1
  right_lt : ∀ x ∈ right, x < 2 ^ bits - 1
  left_length : left.length = L.length / 2
  right_length : right.length = (L.length - 1) / 2
  sides : ∀ a, a ∈ L ↔ a = p
    ∨ a ∈ left.map (fun x => (x + p + 2 ^ bits) % (2 ^ (bits+1) - 1))
    ∨ a ∈ right.map (fun x => (x + p + 1) % (2 ^ (bits+1) - 1))

theorem exists_split {bits : Nat} {L : List Nat} (hnd : L.Nodup) (hL : ∀ a ∈ L, a < 2 ^ (bits+1) - 1)
    (hlen : 2 ≤ L.length) : ∃ i p left right, Split bits L i p left right := by
  have hpow := Nat.two_pow_pos bits
  have hr : 2 ^ (bits+1) - 1 = 2 * (2 ^ bits - 1) + 1 := by rw [pow_succ]; omega
  have hL' : ∀ a ∈ L, a < 2 * (2 ^ bits - 1) + 1 := by rw [← hr]; exact hL
  have hne : L ≠ [] := by
    rintro rfl
    simp at hlen
  obtain ⟨i,p,hfind,hget,hp,hbal⟩ := rangeEncFindIndex_spec hnd hL' hne
  obtain ⟨hsl,hll⟩ := rangeEncSide_left hnd hL' hp hbal
  obtain ⟨hsr,hlr⟩ := rangeEncSide_right hnd hL' hp hbal
  rw [show (2 * (2 ^ bits - 1) + 1 - 1) / 2 = 2 ^ bits - 1 by omega] at hsl hll
  rw [← hr] at hfind hsl hll hsr hlr
  refine ⟨i,p,_,_,hlen,hfind,hget,hp,rfl,rfl,hsl.nodup,hsr.nodup,hsl.lt,hsr.lt,hll,hlr,fun a => ?_⟩
  have hbl := hsl.back a
  have hbr := hsr.back a
  rw [show 2 ^ bits - 1 + 1 = 2 ^ bits by omega,← hr] at hbl
  rw [← hr] at hbr
  rw [hbl,hbr]
  have hself : after (2 ^ (bits+1) - 1) p p ≤ 2 ^ bits - 1 := by simp [after]
  by_cases hap : a = p
  · simp [hap,hp]
  · by_cases hle : after (2 ^ (bits+1) - 1) p a ≤ 2 ^ bits - 1
    · simp [hap,hle]
    · simp [hap,hle,not_le.mp hle]

/-- The recursion of `range_enc_arfcns` as an induction: `P` is about the list that is
encoded in the subtree of `o + 2 ^ l`. -/
theorem rangeTree_induct {P : Nat → Nat → Nat → List Nat → Prop} (nil : ∀ bits o l, P bits o l [])
    (single : ∀ bits o l a, o < 2 ^ l → a < 2 ^ (bits+1) - 1 → P (bits+1) o l [a])
    (split : ∀ bits o l L i p left right, o < 2 ^ l → L.Nodup → (∀ a ∈ L, a < 2 ^ (bits+1) - 1) →
      Split bits L i p left right → P bits o (l+1) left → P bits (o + 2 ^ l) (l+1) right →
      P (bits+1) o l L)
    (bits : Nat) {o l : Nat} {L : List Nat} (ho : o < 2 ^ l) (hnd : L.Nodup) (hL : ∀ a ∈ L, a < 2 ^ bits - 1) :
    P bits o l L := by
  induction bits generalizing o l L with
  | zero =>
    cases L with
    | nil => exact nil 0 o l
    | cons a L => simpa using hL a (by simp)
  | succ bits ih =>
    have hl1 : 2 ^ (l+1) = 2 ^ l + 2 ^ l := by rw [pow_succ]; omega
    match L with
    | [] => exact nil _ o l
    | [a] => exact single bits o l a ho (hL a (by simp))
    | a :: b :: tail =>
      obtain ⟨i,p,left,right,hs⟩ := exists_split hnd hL (by simp)
      exact split bits o l _ i p left right ho hnd hL hs (ih (by omega) hs.left_nodup hs.left_lt)
        (ih (by omega) hs.right_nodup hs.right_lt)

theorem Split.range_pos {bits i p : Nat} {L left right : List Nat} (_ : Split bits L i p left right) :
    2 ^ (bits+1) - 1 ≠ 0 := by
  have := Nat.two_pow_pos bits
  rw [pow_succ]
  omega

theorem half_left (bits : Nat) : (2 ^ (bits+1) - 1) / 2 = 2 ^ bits - 1 := by
  rw [pow_succ]
  omega

theorem half_right (bits : Nat) : (2 ^ (bits+1) - 1 - 1) / 2 = 2 ^ bits - 1 := by
  rw [pow_succ]
  omega

theorem greatestPower_index (ho : o < 2 ^ l) :
    greatestPowerOf2LesserOrEqualTo (o + 2 ^ l - 1 + 1) = 2 ^ l := by
  rw [Nat.sub_add_cancel (by omega),greatestPower_node ho]

theorem left_index (o l : Nat) : o + 2 ^ l - 1 + 2 ^ l = o + 2 ^ (l+1) - 1 := by
  have := Nat.two_pow_pos l
  rw [pow_succ]
  omega

theorem right_index (o l : Nat) : o + 2 ^ l - 1 + 2 * 2 ^ l = o + 2 ^ l + 2 ^ (l+1) - 1 := by
  have := Nat.two_pow_pos l
  rw [pow_succ]
  omega

theorem rangeEncArfcns_split {range i p index power : Nat} {L : List Nat} (out : IntArray)
    (hlen : 2 ≤ L.length) (hr : range ≠ 0) (hfind : rangeEncFindIndex range L = some i)
    (hget : L.getD i 0 = p) (hpower : greatestPowerOf2LesserOrEqualTo (index + 1) = power) :
    rangeEncArfcns range L out index = ((rangeEncArfcns ((range - 1) / 2)
      (rangeEncSide range L (mod (p + 1 : Nat) range))
      (rangeEncArfcns (range / 2) (rangeEncSide range L (mod (p + (range - 1) / 2 + 1 : Nat) range))
        (Function.update out index (1 + p)) (index + power)).1 (index + 2 * power)).1,.ok ()) := by
  rw [rangeEncArfcns.eq_3,dif_neg hr,hfind]
  · simp only [hget,hpower]
  · rintro rfl
    simp at hlen
  · rintro a rfl
    simp at hlen

theorem Split.rangeEncArfcns_eq {bits i p : Nat} {L left right : List Nat} (h : Split bits L i p left right)
    (ho : o < 2 ^ l) (out : IntArray) :
    rangeEncArfcns (2 ^ (bits+1) - 1) L out (o + 2 ^ l - 1) = ((rangeEncArfcns (2 ^ bits - 1) right
      (rangeEncArfcns (2 ^ bits - 1) left (Function.update out (o + 2 ^ l - 1) (1 + p))
        (o + 2 ^ (l+1) - 1)).1 (o + 2 ^ l + 2 ^ (l+1) - 1)).1,.ok ()) := by
  rw [rangeEncArfcns_split out h.two_le h.range_pos h.found h.pivot (greatestPower_index ho)]
  simp only [half_left,half_right,h.left_eq,h.right_eq,left_index,right_index]

theorem rangeEncArfcns_encodes (bits : Nat) {o l : Nat} {L : List Nat} (out : IntArray) (ho : o < 2 ^ l)
    (hnd : L.Nodup) (hL : ∀ a ∈ L, a < 2 ^ bits - 1) :
    (rangeEncArfcns (2 ^ bits - 1) L out (o + 2 ^ l - 1)).2 = .ok ()
      ∧ Encodes bits o l L out (rangeEncArfcns (2 ^ bits - 1) L out (o + 2 ^ l - 1)).1 := by
  refine rangeTree_induct (P := fun bits o l L => ∀ out,
      (rangeEncArfcns (2 ^ bits - 1) L out (o + 2 ^ l - 1)).2 = .ok ()
        ∧ Encodes bits o l L out (rangeEncArfcns (2 ^ bits - 1) L out (o + 2 ^ l - 1)).1)
    (fun bits o l out => ?_) (fun bits o l a ho ha out => ?_)
    (fun bits o l L i p left right ho _ hL hs ihl ihr out => ?_) bits ho hnd hL out
  · unfold rangeEncArfcns
    exact ⟨rfl,.nil bits out⟩
  · unfold rangeEncArfcns
    exact ⟨rfl,.node ho (by simp) (by simpa using ha) (.nil bits _) (.nil bits _) (by simp) (by simp) (by simp)⟩
  · rw [hs.rangeEncArfcns_eq ho]
    exact ⟨rfl,.node ho hs.mem hL (ihl _).2 (ihr _).2 hs.sides hs.left_length hs.right_length⟩

end Tree

end OsmoBsc.Si
