import OsmoBsc.Si.RangeCalls
import OsmoBsc.Si.RoundTrip
set_option autoImplicit false

namespace OsmoBsc.Si

section Sides

variable {d p i : Nat} {L : List Nat}

theorem mod_eq_emod (data : Int) {r : Nat} (hr : 0 < r) : (mod data r : Int) = data % r := by
  have h0 := Int.emod_nonneg data (b := r) (by omega)
  have h1 := Int.emod_lt_of_pos data (b := r) (by omega)
  unfold mod
  dsimp only
  rw [Int.tmod_eq_emod]
  split
  · rw [if_neg (by omega)]
    omega
  · rw [if_pos (by omega)]
    omega

theorem mod_shift (a p c : Nat) {r : Nat} (hr : 0 < r) :
    (mod ((a : Int) - mod (p + c : Nat) r) r : Int) = ((mod ((a : Int) - p) r : Int) - c) % r := by
  rw [mod_eq_emod _ hr,mod_eq_emod _ hr,mod_eq_emod _ hr,Int.sub_emod,Int.emod_emod,← Int.sub_emod,
    Int.sub_emod ((a - p : Int) % r),Int.emod_emod,← Int.sub_emod]
  congr 1
  omega

theorem mod_lt (data : Int) {r : Nat} (hr : 0 < r) : mod data r < r := by
  have h := mod_eq_emod data hr
  have := Int.emod_lt_of_pos data (b := r) (by omega)
  omega

/-- Seen from the first point of the left half, the points behind the pivot come first. -/
theorem mod_left (a p : Nat) : mod ((a : Int) - mod (p + d + 1 : Nat) (2*d+1)) (2*d+1) < d
    ↔ d < mod ((a : Int) - p) (2*d+1) := by
  have hr : 0 < 2*d+1 := by omega
  have hshift := mod_shift a p (d+1) hr
  have hlt := mod_lt ((a : Int) - p) hr
  rw [← Nat.add_assoc] at hshift
  generalize mod ((a : Int) - p) (2*d+1) = u at hshift hlt
  by_cases h : d < u
  · rw [Int.emod_eq_of_lt (by omega) (by omega)] at hshift
    omega
  · rw [← Int.add_mul_emod_self_left _ _ 1,Int.emod_eq_of_lt (by omega) (by omega)] at hshift
    omega

theorem mod_right (a p : Nat) : mod ((a : Int) - mod (p + 1 : Nat) (2*d+1)) (2*d+1) < d
    ↔ 1 ≤ mod ((a : Int) - p) (2*d+1) ∧ mod ((a : Int) - p) (2*d+1) ≤ d := by
  have hr : 0 < 2*d+1 := by omega
  have hshift := mod_shift a p 1 hr
  have hlt := mod_lt ((a : Int) - p) hr
  generalize mod ((a : Int) - p) (2*d+1) = u at hshift hlt
  by_cases h : 1 ≤ u
  · rw [Int.emod_eq_of_lt (by omega) (by omega)] at hshift
    omega
  · rw [← Int.add_mul_emod_self_left _ _ 1,Int.emod_eq_of_lt (by omega) (by omega)] at hshift
    omega

theorem rangeEncSide_length (range origin : Nat) (L : List Nat) :
    (rangeEncSide range L origin).length
      = L.countP (fun (a : Nat) => mod ((a : Int) - origin) range < range / 2) := by
  induction L with
  | nil => rfl
  | cons a L ih =>
    unfold rangeEncSide at ih ⊢
    by_cases h : mod ((a : Int) - origin) range < range / 2
    · simp [h,ih]
    · simp [h,ih]

theorem countP_right_lt (hp : p ∈ L) :
    L.countP (fun (a : Nat) => 1 ≤ mod ((a : Int) - p) (2*d+1) ∧ mod ((a : Int) - p) (2*d+1) ≤ d)
      < L.countP (fun (a : Nat) => mod ((a : Int) - p) (2*d+1) ≤ d) := by
  have hself : mod ((p : Int) - p) (2*d+1) = 0 := by
    rw [Int.sub_self]
    exact (mod_natCast 0).trans (Nat.zero_mod _)
  have hperm := List.perm_cons_erase hp
  rw [hperm.countP_eq,hperm.countP_eq,List.countP_cons_of_neg (by rw [hself]; simp),
    List.countP_cons_of_pos (by rw [hself]; simp)]
  refine Nat.lt_succ_of_le (List.countP_mono_left fun a _ h => ?_)
  simp only [decide_eq_true_eq] at h ⊢
  exact h.2

/-- A list that may have duplicates: its sides together have fewer elements than it has,
and as many as there is place for. -/
theorem sides_length (hfind : rangeEncFindIndex (2*d+1) L = some i) (hlen : 2 ≤ L.length) (index : Nat) :
    (RangeCall.left ⟨2*d+1,L,index⟩ i).length = L.length / 2
      ∧ (RangeCall.right ⟨2*d+1,L,index⟩ i).length ≤ (L.length - 1) / 2 := by
  obtain ⟨hi,hcount,-⟩ := List.findIdx?_eq_some_iff_getElem.mp hfind
  have hget : L.getD i 0 = L[i] := by rw [List.getD_eq_getElem?_getD,List.getElem?_eq_getElem hi,Option.getD_some]
  have hp : L[i] ∈ L := List.getElem_mem hi
  rw [beq_iff_eq,show (2*d+1-1)/2 = d by omega] at hcount
  unfold RangeCall.left RangeCall.right
  dsimp only
  rw [hget,rangeEncSide_length,rangeEncSide_length,show (2*d+1-1)/2 = d by omega,show (2*d+1)/2 = d by omega]
  simp only [mod_left,mod_right]
  generalize L[i] = p at hp hcount
  have hright := countP_right_lt (d := d) hp
  have hall := List.length_eq_countP_add_countP (fun (a : Nat) => decide (mod ((a : Int) - p) (2*d+1) ≤ d)) (l := L)
  simp only [decide_eq_true_eq,not_le] at hall
  omega

end Sides

section Tree

variable {o l : Nat}

theorem rangeEncWrites_short {range : Nat} {L : List Nat} (hlen : L.length < 2) :
    ∀ w ∈ rangeEncWrites range L (o + 2 ^ l - 1), ∃ m, 1 ≤ m ∧ m ≤ L.length ∧ w.1 + 1 = o + 2 ^ l * m := by
  have hpow := Nat.two_pow_pos l
  match L with
  | [] =>
    rw [rangeEncWrites_nil]
    simp
  | [a] =>
    rw [rangeEncWrites_single]
    intro w hw
    cases List.mem_singleton.mp hw
    exact ⟨1,by simp,by simp,by dsimp only; omega⟩
  | a :: b :: tail =>
    simp only [List.length_cons] at hlen
    omega

/-- Whatever the list is, nothing is written behind as many nodes as it has elements. -/
theorem rangeEncWrites_within (bits : Nat) (ho : o < 2 ^ l) (L : List Nat) :
    ∀ w ∈ rangeEncWrites (2 ^ bits - 1) L (o + 2 ^ l - 1), ∃ m, 1 ≤ m ∧ m ≤ L.length
      ∧ w.1 + 1 = o + 2 ^ l * m := by
  have hpow := Nat.two_pow_pos l
  induction bits generalizing o l L with
  | zero =>
    by_cases hlen : 2 ≤ L.length
    · rw [pow_zero,Nat.sub_self,rangeEncWrites_stuck hlen (.inl rfl)]
      simp
    · exact rangeEncWrites_short (by omega)
  | succ bits ih =>
    by_cases hlen : 2 ≤ L.length
    · have hl1 : 2 ^ (l+1) = 2 ^ l + 2 ^ l := by rw [pow_succ]; omega
      have hbits := Nat.two_pow_pos bits
      have hr : 2 ^ (bits+1) - 1 = 2 * (2 ^ bits - 1) + 1 := by rw [pow_succ]; omega
      cases hfind : rangeEncFindIndex (2 ^ (bits+1) - 1) L with
      | none =>
        rw [rangeEncWrites_stuck hlen (.inr hfind)]
        simp
      | some i =>
        have hsides := sides_length (by rw [← hr]; exact hfind) hlen (o + 2 ^ l - 1)
        rw [← hr] at hsides
        obtain ⟨hleft,hright⟩ := hsides
        intro w hw
        rw [rangeEncWrites_split hlen (by omega) hfind (greatestPower_index ho),half_left,half_right,left_index,
          right_index,List.mem_cons,List.mem_append] at hw
        rcases hw with rfl | hw | hw
        · exact ⟨1,by omega,by omega,by dsimp only; omega⟩
        · obtain ⟨m,h1,h2,hm⟩ := ih (by omega) _ (by omega) w hw
          exact ⟨2 * m,by omega,by omega,by rw [hm,left_node]⟩
        · obtain ⟨m,h1,h2,hm⟩ := ih (by omega) _ (by omega) w hw
          exact ⟨2 * m + 1,by omega,by omega,by rw [hm,right_node]⟩
    · exact rangeEncWrites_short (by omega)

end Tree

/-- The number of ARFCNs for which a list has place: F0, which only ARFCN 0 is in Range
1024, and the W(k). -/
def Gsm48Range.carries (r : Gsm48Range) (arfcns : List Nat) : Nat :=
  match r with
  | .r128 => 29
  | .r256 => 22
  | .r512 => 18
  | .r1024 => if arfcns.contains 0 then 17 else 16

/-- `enc_freq_lst_range` stays within `arfcns` and `w`, and refuses what the list has no
place for. -/
structure FreqListArgs.InBounds (a : FreqListArgs) : Prop where
  arfcns : ∀ chanList, encFreqLstRange a chanList ≠ .error .outOfBounds
  w : ∀ r f0, rangeEncDetermineRange a.selected 0 = some (r,f0) →
    ∀ write ∈ rangeEncWrites r.value (rangeEncFilterArfcns a.selected f0).1 0, write.1 < rangeEncMaxArfcns
  refuses : ∀ r f0, rangeEncDetermineRange a.selected 0 = some (r,f0) →
    r.carries a.selected < a.selected.length → ∀ chanList, ∃ e, encFreqLstRange a chanList = .error e
  passes : ∀ r f0, rangeEncDetermineRange a.selected 0 = some (r,f0) →
    (rangeEncFilterArfcns a.selected f0).1.length ≤ r.carries a.selected

/-- At most 29 ARFCNs, and not 17 without ARFCN 0 that are spread over 512 or more. -/
def FreqListArgs.Fits (a : FreqListArgs) : Prop :=
  a.selected.length ≤ rangeEncMaxArfcns
    ∧ ¬ (a.selected.length = 17 ∧ 0 ∉ a.selected ∧ a.selected.headD 0 + 512 ≤ a.selected.getLastD 0)

section Select

variable {a : FreqListArgs} {is arfcns L : List Nat} {r : Gsm48Range} {f0 : Nat}

theorem encFreqLstSelect_ok (h : arfcns.length + (is.filter a.selects).length ≤ rangeEncMaxArfcns) :
    encFreqLstSelect a is arfcns = .ok (arfcns ++ is.filter a.selects) := by
  induction is generalizing arfcns with
  | nil => simp [encFreqLstSelect]
  | cons i is ih =>
    rw [encFreqLstSelect,if_neg (by omega)]
    by_cases hsel : a.selects i = true
    · rw [List.filter_cons_of_pos hsel,List.length_cons] at h
      rw [if_pos hsel,if_pos (by omega),ih (by simp; omega),List.filter_cons_of_pos hsel,List.append_assoc]
      rfl
    · rw [List.filter_cons_of_neg hsel] at h ⊢
      rw [if_neg hsel,ih h]

theorem encFreqLstSelect_outOfBounds (hfull : arfcns.length ≤ rangeEncMaxArfcns)
    (h : rangeEncMaxArfcns < arfcns.length + (is.filter a.selects).length) :
    encFreqLstSelect a is arfcns = .error .outOfBounds := by
  induction is generalizing arfcns with
  | nil =>
    simp at h
    omega
  | cons i is ih =>
    rw [encFreqLstSelect,if_neg (by omega)]
    by_cases hsel : a.selects i = true
    · rw [List.filter_cons_of_pos hsel,List.length_cons] at h
      rw [if_pos hsel]
      by_cases hlast : arfcns.length < rangeEncMaxArfcns
      · rw [if_pos hlast,ih (by simp; omega) (by simp; omega)]
      · rw [if_neg hlast]
    · rw [List.filter_cons_of_neg hsel] at h
      rw [if_neg hsel,ih hfull h]

theorem rangeEncFilterArfcns_length (L : List Nat) (f0 : Nat) : (rangeEncFilterArfcns L f0).1.length = L.length := by
  have hle := List.length_filterMap_le (fun (a : Nat) =>
    if a = f0 then none else some (mod ((a : Int) - ((f0 : Int) + 1)) 1024)) L
  unfold rangeEncFilterArfcns
  simp only [List.length_append,List.length_drop]
  omega

theorem rangeEncDetermineRange_length (h : rangeEncDetermineRange L 0 = some (r,f0)) :
    L.length ≤ match r with
      | .r128 => 29
      | .r256 => 22
      | .r512 => 18
      | .r1024 => 17 := by
  unfold rangeEncDetermineRange at h
  split at h
  · cases h
    simp
  · dsimp only at h
    split_ifs at h with h1 h2 h3 h4
    all_goals
      cases h
      simp only at *
      omega

theorem rangeEncDetermineRange_r1024 (h : rangeEncDetermineRange L 0 = some (.r1024,f0)) (hlen : L.length = 17) :
    L.headD 0 + 512 ≤ L.getLastD 0 := by
  unfold rangeEncDetermineRange at h
  split at h
  · cases h
  · dsimp only at h
    rw [hlen] at h
    split_ifs at h with h1 h2 h3 h4 <;> cases h
    simp only [List.headD_cons]
    omega

/-- Of 17 ARFCNs that are spread over 512 or more only Range 1024 has place for all. -/
theorem rangeEncDetermineRange_spread (hlen : L.length = 17) (hlt : ∀ x ∈ L, x < 1024)
    (h : L.headD 0 + 512 ≤ L.getLastD 0) : rangeEncDetermineRange L 0 = some (.r1024,0) := by
  match L with
  | [] => simp at hlen
  | first :: tail =>
    have hlast : (first :: tail).getLastD 0 < 1024 := by
      rw [List.getLastD_cons]
      exact hlt _ List.getLastD_mem_cons
    simp only [List.headD_cons] at h
    rw [rangeEncDetermineRange,hlen,if_neg (by omega),if_neg (by omega),if_neg (by omega),if_pos (by omega)]

theorem rangeEncArfcns_ne_outOfBounds (range : Nat) (L : List Nat) (out : IntArray) (index : Nat) :
    (rangeEncArfcns range L out index).2 ≠ .error .outOfBounds := by
  unfold rangeEncArfcns
  split
  · simp
  · simp
  · split
    · simp
    · split <;> simp

theorem rangeEncode_ne_outOfBounds {w : IntArray} {chanList : Octets} :
    rangeEncode r L w f0 chanList ≠ .error .outOfBounds := by
  unfold rangeEncode
  dsimp only
  have hrc := rangeEncArfcns_ne_outOfBounds r.value (rangeEncFilterArfcns L f0).1 w 0
  split
  · rename_i e he
    rintro h
    cases h
    exact hrc he
  · simp

theorem Gsm48Range.value_eq (r : Gsm48Range) : ∃ bits, r.value = 2 ^ bits - 1 := by
  cases r with
  | r128 => exact ⟨7,rfl⟩
  | r256 => exact ⟨8,rfl⟩
  | r512 => exact ⟨9,rfl⟩
  | r1024 => exact ⟨10,rfl⟩

theorem encFreqLstSelect_selected (h : a.selected.length ≤ rangeEncMaxArfcns) :
    encFreqLstSelect a (List.range Bitvec.bits) [] = .ok a.selected := by
  rw [encFreqLstSelect_ok (by simpa [FreqListArgs.selected] using h),List.nil_append,FreqListArgs.selected]

theorem encFreqLstRange_overflow (h : rangeEncMaxArfcns < a.selected.length) (chanList : Octets) :
    encFreqLstRange a chanList = .error .outOfBounds := by
  rw [encFreqLstRange,encFreqLstSelect_outOfBounds (by simp) (by simpa [FreqListArgs.selected] using h)]
  rfl

theorem encFreqLstRange_ne_outOfBounds (h : a.selected.length ≤ rangeEncMaxArfcns) (chanList : Octets) :
    encFreqLstRange a chanList ≠ .error .outOfBounds := by
  rw [encFreqLstRange,encFreqLstSelect_selected h,EventFsm.ok_bind]
  split
  · simp
  · exact rangeEncode_ne_outOfBounds

theorem FreqListArgs.Fits.length_le (h : a.Fits) (hr : rangeEncDetermineRange a.selected 0 = some (r,f0)) :
    a.selected.length ≤ r.carries a.selected := by
  have hlen := rangeEncDetermineRange_length hr
  cases r with
  | r128 => exact hlen
  | r256 => exact hlen
  | r512 => exact hlen
  | r1024 =>
    unfold Gsm48Range.carries
    by_cases h0 : 0 ∈ a.selected
    · simpa [h0] using hlen
    · have h17 : a.selected.length ≠ 17 := fun h17 => h.2 ⟨h17,h0,rangeEncDetermineRange_r1024 hr h17⟩
      simp only [List.contains_eq_mem,h0,decide_false]
      simp only at hlen
      change a.selected.length ≤ 16
      omega

/-- The array accesses of `enc_freq_lst_range` are in bounds and no list is cut off exactly
if the selection fits: the check for the 30th ARFCN comes after it was written, and Range
1024 is chosen for 17 ARFCNs though it has place for 16 besides ARFCN 0. -/
theorem inBounds_iff_fits (a : FreqListArgs) : a.InBounds ↔ a.Fits := by
  constructor
  · intro h
    refine ⟨?_,?_⟩
    · by_contra hlen
      exact h.arfcns (fun _ => 0) (encFreqLstRange_overflow (not_le.mp hlen) _)
    · rintro ⟨hlen,h0,hspread⟩
      have hr := rangeEncDetermineRange_spread hlen (fun x hx => (mem_selected.mp hx).1) hspread
      have hpass := h.passes _ _ hr
      have hcarries : Gsm48Range.r1024.carries a.selected = 16 := by simp [Gsm48Range.carries,h0]
      rw [rangeEncFilterArfcns_length,hcarries] at hpass
      omega
  · intro h
    refine ⟨encFreqLstRange_ne_outOfBounds h.1,fun r f0 hr write hwrite => ?_,fun r f0 hr hlt => ?_,
      fun r f0 hr => ?_⟩
    · obtain ⟨bits,hbits⟩ := r.value_eq
      rw [hbits] at hwrite
      obtain ⟨m,h1,h2,hm⟩ := rangeEncWrites_within bits (o := 0) (l := 0) (by omega) _ write hwrite
      rw [rangeEncFilterArfcns_length] at h2
      have := h.1
      omega
    · have := h.length_le hr
      omega
    · rw [rangeEncFilterArfcns_length]
      exact h.length_le hr

def thirtyNeighbours : FreqListArgs :=
  { neighbours [] false with bv := fun arfcn => arfcn % 8 == 0 && 512 ≤ arfcn && arfcn ≤ 744 }

/-- The last of 30 neighbours that no variable bit map has place for is written behind the
end of the array. -/
theorem selection_not_inBounds : thirtyNeighbours.format = .range ∧ ¬ thirtyNeighbours.InBounds := by
  have hlen : rangeEncMaxArfcns < thirtyNeighbours.selected.length := by decide +kernel
  exact ⟨by decide +kernel,fun h => h.arfcns (fun _ => 0) (encFreqLstRange_overflow hlen _)⟩

end Select

end OsmoBsc.Si
