import OsmoBsc.Si.Packing
set_option autoImplicit false

/-! Where write_all_wn() puts the bits of each W(k), in a buffer whose end is watched. -/

namespace OsmoBsc.Si

/-- `writeWk` in a buffer of `size` octets, behind which nothing is written. -/
def writeWkIn (size wk wkLeft octetOffs bitOffs : Nat) (chanList : Octets) : Option (Octets × Nat × Nat) :=
  let curBits := min (8 - bitOffs) wkLeft
  if curBits = 0 then some (chanList,octetOffs,bitOffs)
  else if size ≤ octetOffs then none
  else
    let curMask := 2 ^ curBits - 1
    let left := wkLeft - curBits
    let offs := bitOffs + curBits
    let wkSlice := (wk >>> left) &&& curMask
    let octet := (chanList octetOffs &&& ~~~ (BitVec.ofNat 8 curMask <<< (8 - offs)))
      ||| (BitVec.ofNat 8 wkSlice <<< (8 - offs))
    let chanList := Function.update chanList octetOffs octet
    if offs = 8 then writeWkIn size wk left (octetOffs + 1) 0 chanList
    else writeWkIn size wk left octetOffs offs chanList
  termination_by wkLeft
  decreasing_by all_goals omega

/-- `writeAllWnFrom` in a buffer of `size` octets. -/
def writeAllWnFromIn (size : Nat) (w : IntArray) :
    (n k wkLen level lvlLeft octetOffs bitOffs : Nat) → Octets → Option Octets
  | 0, _, _, _, _, _, _, chanList => some chanList
  | n + 1, k, wkLen, level, lvlLeft, octetOffs, bitOffs, chanList =>
    match writeWkIn size (w (k - 1)) wkLen octetOffs bitOffs chanList with
    | none => none
    | some (chanList,octetOffs,bitOffs) =>
      if lvlLeft - 1 = 0 then
        writeAllWnFromIn size w n (k + 1) (wkLen - 1) (level + 1) (2 ^ (level + 1)) octetOffs bitOffs chanList
      else writeAllWnFromIn size w n (k + 1) wkLen level (lvlLeft - 1) octetOffs bitOffs chanList

/-- `write_all_wn` from octet `octetOffs` of a buffer of `size` octets on. -/
def writeAllWnIn (size : Nat) (chanList : Octets) (octetOffs bitOffs : Nat) (w : IntArray) (wSize w1Len : Nat) :
    Option Octets :=
  writeAllWnFromIn size w wSize 1 w1Len 0 1 octetOffs bitOffs chanList

/-- The calls of `write_all_wn` for the ranges 128, 256, 512 and 1024: the octet and the bit to start at, the number
of values and the width of the first. -/
def rangeFormats : List (Nat × Nat × Nat × Nat) := [(2,1,28,7),(2,1,21,8),(2,1,17,9),(0,6,16,10)]

section Bounds

variable {size : Nat}

theorem writeWkIn_eq (wk wkLeft octetOffs : Nat) {bitOffs : Nat} (o : Octets) (hb : bitOffs < 8)
    (hend : 8 * octetOffs + bitOffs + wkLeft ≤ 8 * size) :
    writeWkIn size wk wkLeft octetOffs bitOffs o = some (writeWk wk wkLeft octetOffs bitOffs o) := by
  induction wkLeft using Nat.strongRecOn generalizing octetOffs bitOffs o with
  | ind wkLeft ih =>
    unfold writeWkIn writeWk
    by_cases h0 : wkLeft = 0
    · subst h0
      simp only [Nat.min_zero,if_true]
    · have hcur : min (8 - bitOffs) wkLeft ≠ 0 := by omega
      simp only [if_neg hcur]
      rw [if_neg (by omega)]
      split
      · exact ih _ (by omega) _ _ (by omega) (by omega)
      · exact ih _ (by omega) _ _ (by omega) (by omega)

theorem writeAllWnFromIn_eq (w : IntArray) {w1Len start n k wkLen level lvlLeft octetOffs bitOffs : Nat} (o : Octets)
    (h : AtWk w1Len start k wkLen level lvlLeft octetOffs bitOffs)
    (hend : start + wPos w1Len (k + n - 1) ≤ 8 * size) :
    writeAllWnFromIn size w n k wkLen level lvlLeft octetOffs bitOffs o
      = some (writeAllWnFrom w n k wkLen level lvlLeft octetOffs bitOffs o) := by
  induction n generalizing k wkLen level lvlLeft octetOffs bitOffs o with
  | zero => rfl
  | succ n ih =>
    obtain ⟨-,hnext,hb'⟩ := writeWk_spec (w (k - 1)) wkLen octetOffs o h.bits
    have hmono := wPos_mono w1Len (show k ≤ k + (n + 1) - 1 by omega)
    have hpos := h.pos
    have hstep := h.wPos_eq
    rw [writeAllWnFromIn,writeAllWnFrom,writeWkIn_eq _ _ _ o h.bits (by omega)]
    generalize writeWk (w (k - 1)) wkLen octetOffs bitOffs o = r at hnext hb'
    obtain ⟨o1,octetOffs1,bitOffs1⟩ := r
    obtain ⟨hdone,hmore⟩ := h.next hnext hb'
    rw [show k + (n + 1) - 1 = k + 1 + n - 1 by omega] at hend
    dsimp only
    split
    · rename_i hleft
      exact ih o1 (hdone hleft) hend
    · rename_i hleft
      exact ih o1 (hmore hleft) hend

theorem rangeFormats_end : ∀ format ∈ rangeFormats, format.2.1 < 8
    ∧ 8 * format.1 + format.2.1 + wPos format.2.2.2 format.2.2.1 ≤ 8 * 16 := by decide

theorem writeAllWnIn_eq {octetOffs bitOffs n w1Len : Nat} (w : IntArray) (o : Octets) (hb : bitOffs < 8)
    (hend : 8 * octetOffs + bitOffs + wPos w1Len n ≤ 8 * size) :
    writeAllWnIn size o octetOffs bitOffs w n w1Len = some (writeAllWn o octetOffs bitOffs w n w1Len) :=
  writeAllWnFromIn_eq w o (atWk_one _ _ hb) (by rwa [Nat.add_sub_cancel_left])

theorem writeAllWnIn_format (w : IntArray) (o : Octets) {format : Nat × Nat × Nat × Nat}
    (hformat : format ∈ rangeFormats) :
    writeAllWnIn 16 o format.1 format.2.1 w format.2.2.1 format.2.2.2
      = some (writeAllWn o format.1 format.2.1 w format.2.2.1 format.2.2.2) := by
  obtain ⟨h8,hend⟩ := rangeFormats_end format hformat
  exact writeAllWnIn_eq w o h8 hend

/-- Each encoder has one of the formats, and stays in the 16 octets of the frequency list. -/
theorem rangeEncRange_inside (chanList : Octets) (f0 : Nat) (f0Included : Bool) (w : IntArray) :
    ∀ encoded ∈ [rangeEncRange128 chanList f0 w,rangeEncRange256 chanList f0 w,rangeEncRange512 chanList f0 w,
        rangeEncRange1024 chanList f0Included w],
      ∃ format ∈ rangeFormats, ∃ o,
        writeAllWnIn 16 o format.1 format.2.1 w format.2.2.1 format.2.2.2 = some encoded := by
  intro encoded hencoded
  simp only [List.mem_cons,List.not_mem_nil,or_false] at hencoded
  rcases hencoded with rfl | rfl | rfl | rfl
  · exact ⟨(2,1,28,7),by decide,_,writeAllWnIn_format w _ (by decide)⟩
  · exact ⟨(2,1,21,8),by decide,_,writeAllWnIn_format w _ (by decide)⟩
  · exact ⟨(2,1,17,9),by decide,_,writeAllWnIn_format w _ (by decide)⟩
  · exact ⟨(0,6,16,10),by decide,_,writeAllWnIn_format w _ (by decide)⟩

end Bounds

/-- The bits of W(k), the most significant one first, follow those of W(1) to W(k-1); no other bit changes, and no
octet is written behind that of the last bit. -/
theorem writeAllWn_packs (o : Octets) (octetOffs : Nat) {bitOffs : Nat} (hb : bitOffs < 8) (w : IntArray)
    (n w1Len : Nat) :
    (∀ k, 1 ≤ k → k ≤ n → ∀ t < wWidth w1Len k,
      (writeAllWn o octetOffs bitOffs w n w1Len).bit (8 * octetOffs + bitOffs + wPos w1Len (k - 1) + t)
        = (w (k - 1)).testBit (wWidth w1Len k - 1 - t))
    ∧ (∀ k, 1 ≤ k → k ≤ n → w (k - 1) < 2 ^ wWidth w1Len k →
      (writeAllWn o octetOffs bitOffs w n w1Len).field (8 * octetOffs + bitOffs + wPos w1Len (k - 1))
        (wWidth w1Len k) = w (k - 1))
    ∧ (∀ j, j < 8 * octetOffs + bitOffs ∨ 8 * octetOffs + bitOffs + wPos w1Len n ≤ j →
      (writeAllWn o octetOffs bitOffs w n w1Len).bit j = o.bit j)
    ∧ (∀ size, 8 * octetOffs + bitOffs + wPos w1Len n ≤ 8 * size →
      writeAllWnIn size o octetOffs bitOffs w n w1Len = some (writeAllWn o octetOffs bitOffs w n w1Len))
    ∧ ∀ format ∈ rangeFormats, writeAllWnIn 16 o format.1 format.2.1 w format.2.2.1 format.2.2.2
      = some (writeAllWn o format.1 format.2.1 w format.2.2.1 format.2.2.2) := by
  obtain ⟨hinside,houtside⟩ := writeAllWnFrom_spec (n := n) w o (atWk_one w1Len octetOffs hb)
  rw [Nat.add_sub_cancel_left] at houtside
  refine ⟨fun k h1 hk => hinside k h1 (by omega),fun k h1 hk hv => ?_,fun j hj => houtside j ?_,
    fun size hend => writeAllWnIn_eq w o hb hend,fun format hformat => writeAllWnIn_format w o hformat⟩
  · exact Octets.field_eq hv (hinside k h1 (by omega))
  · exact hj

/-- The four values 1, 0, 1 and 0 of a tree of width 2, from bit 3 of the first octet on. -/
theorem writeAllWn_packs_four : (writeAllWn (fun _ => 0) 0 3 (fun k => if k % 2 = 0 then 1 else 0) 4 2).field 3 2 = 1 :=
  (writeAllWn_packs (fun _ => 0) 0 (show 3 < 8 by decide) (fun k => if k % 2 = 0 then 1 else 0) 4 2).2.1 1
    (by decide) (by decide) (by decide)

end OsmoBsc.Si
