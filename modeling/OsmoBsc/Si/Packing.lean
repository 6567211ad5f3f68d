import OsmoBsc.Si.RangeEncode
import Mathlib.Data.Nat.Bitwise
set_option autoImplicit false

namespace OsmoBsc.Si

/-- Bit `n` of a buffer, the most significant one of an octet first. -/
def Octets.bit (o : Octets) (n : Nat) : Bool := (o (n / 8)).getLsbD (7 - n % 8)

/-- The number on `len` bits from bit `pos` on. -/
def Octets.field (o : Octets) (pos : Nat) : (len : Nat) → Nat
  | 0 => 0
  | len + 1 => 2 * o.field pos len + (o.bit (pos + len)).toNat

def wWidth (w1Len k : Nat) : Nat := w1Len - k.log2

def wPos (w1Len : Nat) : Nat → Nat
  | 0 => 0
  | k + 1 => wPos w1Len k + wWidth w1Len (k + 1)

/-- W(k) of a list with `wSize` of them that start at bit `start`; the others are null. -/
def Octets.w (o : Octets) (start wSize w1Len k : Nat) : Nat :=
  if 1 ≤ k ∧ k ≤ wSize then o.field (start + wPos w1Len (k - 1)) (wWidth w1Len k) else 0

section Bits

variable {o o' : Octets} {pos len v : Nat}

theorem Octets.field_congr {pos' : Nat} (h : ∀ t < len, o.bit (pos + t) = o'.bit (pos' + t)) :
    o.field pos len = o'.field pos' len := by
  induction len with
  | zero => rfl
  | succ len ih =>
    simp only [field]
    rw [ih fun t ht => h t (by omega),h len (by omega)]

theorem Octets.field_eq (hv : v < 2 ^ len) (h : ∀ t < len, o.bit (pos + t) = v.testBit (len - 1 - t)) :
    o.field pos len = v := by
  induction len generalizing v with
  | zero =>
    simp only [field]
    omega
  | succ len ih =>
    have hdiv : v / 2 < 2 ^ len := by
      rw [pow_succ] at hv
      omega
    have hlow : o.bit (pos + len) = v.testBit 0 := by
      rw [h len (by omega)]
      simp
    simp only [field]
    rw [ih hdiv fun t ht => ?_,hlow,Nat.testBit_zero]
    · rcases Nat.mod_two_eq_zero_or_one v with h2 | h2 <;> simp [h2] <;> omega
    · rw [h t (by omega),← Nat.testBit_succ]
      congr 1
      omega

/-- The bits `pos` to `pos + len - 1` hold `v`, the others are those of `o`. -/
structure Written (o o' : Octets) (pos len v : Nat) : Prop where
  inside : ∀ t < len, o'.bit (pos + t) = v.testBit (len - 1 - t)
  outside : ∀ n, n < pos ∨ pos + len ≤ n → o'.bit n = o.bit n

theorem Octets.bit_update (o : Octets) (octet : Nat) (b : BitVec 8) (n : Nat) :
    Octets.bit (Function.update o octet b) n = if n / 8 = octet then b.getLsbD (7 - n % 8) else o.bit n := by
  unfold Octets.bit
  by_cases h : n / 8 = octet
  · rw [if_pos h,h,Function.update_self]
  · rw [if_neg h,Function.update_of_ne h]

theorem getLsbD_slice (b : BitVec 8) (wk left offs cur i : Nat) (hi : i < 8) :
    ((b &&& ~~~ (BitVec.ofNat 8 (2 ^ cur - 1) <<< (8 - offs)))
      ||| (BitVec.ofNat 8 ((wk >>> left) &&& (2 ^ cur - 1)) <<< (8 - offs))).getLsbD i =
    if 8 - offs ≤ i ∧ i < 8 - offs + cur then wk.testBit (left + (i - (8 - offs))) else b.getLsbD i := by
  simp only [BitVec.getLsbD_or,BitVec.getLsbD_and,BitVec.getLsbD_not,BitVec.getLsbD_shiftLeft,
    BitVec.getLsbD_ofNat,Nat.testBit_and,Nat.testBit_two_pow_sub_one,Nat.testBit_shiftRight]
  by_cases h1 : i < 8 - offs
  · simp [h1,hi,show ¬ (8 - offs ≤ i) by omega]
  · by_cases h2 : i < 8 - offs + cur
    · simp [h1,h2,hi,show 8 - offs ≤ i by omega,show i - (8 - offs) < 8 by omega,
        show i - (8 - offs) < cur by omega]
    · simp [h1,h2,hi,show ¬ (i - (8 - offs) < cur) by omega]

end Bits

section Write

theorem written_slice (wk : Nat) (o : Octets) (octet left : Nat) {offs cur : Nat} (hoffs : offs + cur ≤ 8) :
    Written o (Function.update o octet
      ((o octet &&& ~~~ (BitVec.ofNat 8 (2 ^ cur - 1) <<< (8 - (offs + cur))))
        ||| (BitVec.ofNat 8 ((wk >>> left) &&& (2 ^ cur - 1)) <<< (8 - (offs + cur)))))
      (8 * octet + offs) cur (wk >>> left) := by
  constructor
  · intro t ht
    rw [Octets.bit_update,if_pos (by omega),getLsbD_slice _ _ _ _ _ _ (by omega),if_pos (by omega),
      Nat.testBit_shiftRight]
    congr 1
    omega
  · intro n hn
    rw [Octets.bit_update]
    split
    · rename_i hq
      rw [getLsbD_slice _ _ _ _ _ _ (by omega),if_neg (by omega),← hq]
      rfl
    · rfl

theorem Written.append {wk : Nat} {o o1 o2 : Octets} {pos cur left : Nat}
    (h1 : Written o o1 pos cur (wk >>> left)) (h2 : Written o1 o2 (pos + cur) left wk) :
    Written o o2 pos (cur + left) wk := by
  constructor
  · intro t ht
    by_cases hc : t < cur
    · rw [h2.outside _ (by omega),h1.inside t hc,Nat.testBit_shiftRight]
      congr 1
      omega
    · have hin := h2.inside (t - cur) (by omega)
      rw [show pos + cur + (t - cur) = pos + t by omega] at hin
      rw [hin]
      congr 1
      omega
  · intro n hn
    rw [h2.outside n (by omega),h1.outside n (by omega)]

theorem writeWk_spec (wk wkLeft octetOffs : Nat) {bitOffs : Nat} (o : Octets) (hb : bitOffs < 8) :
    Written o (writeWk wk wkLeft octetOffs bitOffs o).1 (8 * octetOffs + bitOffs) wkLeft wk
      ∧ 8 * (writeWk wk wkLeft octetOffs bitOffs o).2.1 + (writeWk wk wkLeft octetOffs bitOffs o).2.2
        = 8 * octetOffs + bitOffs + wkLeft
      ∧ (writeWk wk wkLeft octetOffs bitOffs o).2.2 < 8 := by
  induction wkLeft using Nat.strongRecOn generalizing octetOffs bitOffs o with
  | ind wkLeft ih =>
    unfold writeWk
    by_cases h0 : wkLeft = 0
    · subst h0
      simp only [Nat.min_zero,if_true]
      exact ⟨⟨by omega,fun n _ => rfl⟩,rfl,hb⟩
    · have hcur : min (8 - bitOffs) wkLeft ≠ 0 := by omega
      simp only [if_neg hcur]
      have hle : min (8 - bitOffs) wkLeft ≤ 8 - bitOffs := Nat.min_le_left ..
      have hle' : min (8 - bitOffs) wkLeft ≤ wkLeft := Nat.min_le_right ..
      generalize min (8 - bitOffs) wkLeft = cur at hcur hle hle'
      have hslice := written_slice wk o octetOffs (wkLeft - cur) (show bitOffs + cur ≤ 8 by omega)
      generalize Function.update o octetOffs _ = o1 at hslice
      split
      · rename_i h8
        obtain ⟨hw,hpos,hlt⟩ := @ih (wkLeft - cur) (by omega) (octetOffs + 1) 0 o1 (by omega)
        rw [show 8 * (octetOffs + 1) + 0 = 8 * octetOffs + bitOffs + cur by omega] at hw
        have happ := hslice.append hw
        rw [show cur + (wkLeft - cur) = wkLeft by omega] at happ
        exact ⟨happ,by omega,hlt⟩
      · rename_i h8
        obtain ⟨hw,hpos,hlt⟩ := @ih (wkLeft - cur) (by omega) octetOffs (bitOffs + cur) o1 (by omega)
        rw [← Nat.add_assoc] at hw
        have happ := hslice.append hw
        rw [show cur + (wkLeft - cur) = wkLeft by omega] at happ
        exact ⟨happ,by omega,hlt⟩

theorem log2_add_one {k : Nat} (hk : 1 ≤ k) :
    (k + 1 = 2 ^ (k.log2 + 1) → (k + 1).log2 = k.log2 + 1)
      ∧ (k + 1 < 2 ^ (k.log2 + 1) → (k + 1).log2 = k.log2) := by
  obtain ⟨hlo,hhi⟩ := (Nat.log2_eq_iff (show k ≠ 0 by omega)).mp rfl
  refine ⟨fun h => ?_,fun h => ?_⟩
  · rw [Nat.log2_eq_iff (by omega),pow_succ 2 (k.log2 + 1)]
    omega
  · rw [Nat.log2_eq_iff (by omega)]
    omega

theorem wPos_mono (w1Len : Nat) {a b : Nat} (h : a ≤ b) : wPos w1Len a ≤ wPos w1Len b := by
  induction h with
  | refl => exact le_refl _
  | step _ ih => exact ih.trans (Nat.le_add_right ..)

/-- What holds before W(k) is written: its tree level, the nodes that are left on it, its width and its place. -/
structure AtWk (w1Len start k wkLen level lvlLeft octetOffs bitOffs : Nat) : Prop where
  one : 1 ≤ k
  onLevel : level = k.log2
  left : lvlLeft + k = 2 ^ (level + 1)
  width : wkLen = wWidth w1Len k
  pos : 8 * octetOffs + bitOffs = start + wPos w1Len (k - 1)
  bits : bitOffs < 8

section Loop

variable {w1Len start n k wkLen level lvlLeft octetOffs bitOffs octetOffs1 bitOffs1 : Nat}

theorem AtWk.wPos_eq (h : AtWk w1Len start k wkLen level lvlLeft octetOffs bitOffs) :
    wPos w1Len k = wPos w1Len (k - 1) + wkLen := by
  obtain ⟨k,rfl⟩ : ∃ k', k = k' + 1 := ⟨k - 1,by have := h.one; omega⟩
  rw [h.width]
  rfl

theorem AtWk.next (h : AtWk w1Len start k wkLen level lvlLeft octetOffs bitOffs)
    (hpos : 8 * octetOffs1 + bitOffs1 = 8 * octetOffs + bitOffs + wkLen) (hb : bitOffs1 < 8) :
    (lvlLeft - 1 = 0 → AtWk w1Len start (k + 1) (wkLen - 1) (level + 1) (2 ^ (level + 1)) octetOffs1 bitOffs1)
      ∧ (lvlLeft - 1 ≠ 0 → AtWk w1Len start (k + 1) wkLen level (lvlLeft - 1) octetOffs1 bitOffs1) := by
  have hlog := log2_add_one h.one
  rw [← h.onLevel] at hlog
  have hlt : k < 2 ^ (level + 1) := by
    rw [h.onLevel]
    exact Nat.lt_log2_self
  have hleft := h.left
  have hplace : 8 * octetOffs1 + bitOffs1 = start + wPos w1Len (k + 1 - 1) := by
    rw [hpos,h.pos,Nat.add_sub_cancel,h.wPos_eq,Nat.add_assoc]
  have hwidth := h.width
  rw [wWidth,← h.onLevel] at hwidth
  constructor
  · intro hdone
    have h2 : k + 1 = 2 ^ (level + 1) := by omega
    refine ⟨by omega,(hlog.1 h2).symm,?_,?_,hplace,hb⟩
    · rw [pow_succ 2 (level + 1)]
      omega
    · rw [wWidth,hlog.1 h2]
      omega
  · intro hmore
    have h2 : k + 1 < 2 ^ (level + 1) := by omega
    refine ⟨by omega,(hlog.2 h2).symm,by omega,?_,hplace,hb⟩
    rw [wWidth,hlog.2 h2]
    exact hwidth

theorem writeAllWnFrom_spec (w : IntArray) (o : Octets)
    (h : AtWk w1Len start k wkLen level lvlLeft octetOffs bitOffs) :
    (∀ i, k ≤ i → i < k + n → ∀ t < wWidth w1Len i,
      (writeAllWnFrom w n k wkLen level lvlLeft octetOffs bitOffs o).bit (start + wPos w1Len (i - 1) + t)
        = (w (i - 1)).testBit (wWidth w1Len i - 1 - t))
    ∧ ∀ j, j < start + wPos w1Len (k - 1) ∨ start + wPos w1Len (k + n - 1) ≤ j →
      (writeAllWnFrom w n k wkLen level lvlLeft octetOffs bitOffs o).bit j = o.bit j := by
  induction n generalizing k wkLen level lvlLeft octetOffs bitOffs o with
  | zero => exact ⟨fun i h1 h2 => by omega,fun j _ => rfl⟩
  | succ n ih =>
    obtain ⟨hw,hnext,hb'⟩ := writeWk_spec (w (k - 1)) wkLen octetOffs o h.bits
    simp only [writeAllWnFrom]
    generalize writeWk (w (k - 1)) wkLen octetOffs bitOffs o = r at hw hnext hb'
    obtain ⟨o1,octetOffs1,bitOffs1⟩ := r
    simp only at hw hnext hb' ⊢
    obtain ⟨hdone,hmore⟩ := h.next hnext hb'
    rw [h.pos] at hw
    have hstep := h.wPos_eq
    have hrec : ∀ o2, o2 = (if lvlLeft - 1 = 0 then
          writeAllWnFrom w n (k + 1) (wkLen - 1) (level + 1) (2 ^ (level + 1)) octetOffs1 bitOffs1 o1
        else writeAllWnFrom w n (k + 1) wkLen level (lvlLeft - 1) octetOffs1 bitOffs1 o1) →
        (∀ i, k + 1 ≤ i → i < k + 1 + n → ∀ t < wWidth w1Len i,
          o2.bit (start + wPos w1Len (i - 1) + t) = (w (i - 1)).testBit (wWidth w1Len i - 1 - t))
        ∧ ∀ j, j < start + wPos w1Len k ∨ start + wPos w1Len (k + 1 + n - 1) ≤ j → o2.bit j = o1.bit j := by
      rintro o2 rfl
      split
      · rename_i hleft
        exact ih o1 (hdone hleft)
      · rename_i hleft
        exact ih o1 (hmore hleft)
    obtain ⟨hinside,hbit⟩ := hrec _ rfl
    refine ⟨fun i hki hin t ht => ?_,fun j hj => ?_⟩
    · rcases Nat.lt_or_ge k i with hlt | hge
      · exact hinside i (by omega) (by omega) t ht
      · obtain rfl : i = k := by omega
        rw [← h.width] at ht ⊢
        rw [hbit _ (.inl (by omega))]
        exact hw.inside t ht
    · have hmono := wPos_mono w1Len (show k ≤ k + 1 + n - 1 by omega)
      rw [show k + (n + 1) - 1 = k + 1 + n - 1 by omega] at hj
      rw [hbit j (by omega)]
      exact hw.outside j (by omega)

theorem atWk_one (w1Len octetOffs : Nat) {bitOffs : Nat} (hb : bitOffs < 8) :
    AtWk w1Len (8 * octetOffs + bitOffs) 1 w1Len 0 1 octetOffs bitOffs :=
  ⟨le_refl 1,rfl,rfl,rfl,rfl,hb⟩

end Loop

theorem writeAllWn_spec (o : Octets) (octetOffs : Nat) {bitOffs : Nat} (w : IntArray) (wSize w1Len : Nat)
    (hb : bitOffs < 8) :
    (∀ k, 1 ≤ k → k ≤ wSize → w (k - 1) < 2 ^ wWidth w1Len k →
      (writeAllWn o octetOffs bitOffs w wSize w1Len).w (8 * octetOffs + bitOffs) wSize w1Len k = w (k - 1))
    ∧ ∀ j, j < 8 * octetOffs + bitOffs →
      (writeAllWn o octetOffs bitOffs w wSize w1Len).bit j = o.bit j := by
  obtain ⟨hinside,houtside⟩ := writeAllWnFrom_spec (n := wSize) w o (atWk_one w1Len octetOffs hb)
  refine ⟨fun k h1 hk hv => ?_,fun j hj => houtside j (.inl hj)⟩
  rw [Octets.w,if_pos ⟨h1,hk⟩]
  exact Octets.field_eq hv (hinside k h1 (by omega))

end Write

end OsmoBsc.Si
