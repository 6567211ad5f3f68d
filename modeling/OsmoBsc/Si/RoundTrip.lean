import OsmoBsc.Lib.Fsm
import OsmoBsc.Si.FreqList
import OsmoBsc.Si.Packing
import OsmoBsc.Si.RangeTree
set_option autoImplicit false

namespace OsmoBsc.Si

def Octets.origArfcn (o : Octets) : Nat := o.field 7 10

/-- The frequencies of a Range 512, 256 or 128 list: ORIG-ARFCN and, counted from it,
those of the tree. -/
def Octets.decodeRange (o : Octets) (wSize w1Len : Nat) : List Nat :=
  o.origArfcn :: (decodeTree (o.w 17 wSize w1Len) w1Len 1).map fun x => (o.origArfcn + 1 + x) % 1024

/-- The frequencies of a Range 1024 list: ARFCN 0 if F0 says so, and those of the tree. -/
def Octets.decodeRange1024 (o : Octets) : List Nat :=
  (if o.bit 5 then [0] else []) ++ (decodeTree (o.w 6 16 10) 10 1).map (· + 1)

/-- The frequencies of a Frequency List or Cell Channel Description of 16 octets, by the
format in its first octet. -/
def decodeFreqList (o : Octets) : List Nat :=
  match o.bit 0, o.bit 1, o.bit 4, o.bit 5, o.bit 6 with
  | false, false, _, _, _ => (List.range 125).filter fun n => 1 ≤ n && o.bit (128 - n)
  | true, false, false, _, _ => o.decodeRange1024
  | true, false, true, false, false => o.decodeRange 17 9
  | true, false, true, false, true => o.decodeRange 21 8
  | true, false, true, true, false => o.decodeRange 28 7
  | true, false, true, true, true =>
    o.origArfcn :: ((List.range 112).filter fun n => 1 ≤ n && o.bit (16 + n)).map fun n =>
      (o.origArfcn + n) % 1024
  | _, _, _, _, _ => []

section Select

variable {a : FreqListArgs}

theorem encFreqLstSelect_eq {is arfcns L : List Nat} (h : encFreqLstSelect a is arfcns = .ok L) :
    L = arfcns ++ is.filter a.selects := by
  induction is generalizing arfcns with
  | nil =>
    cases h
    simp
  | cons i is ih =>
    unfold encFreqLstSelect at h
    split at h
    · cases h
    · split at h
      · rename_i hsel
        split at h
        · rw [ih h,List.filter_cons_of_pos hsel,List.append_assoc]
          rfl
        · cases h
      · rename_i hsel
        rw [ih h,List.filter_cons_of_neg hsel]

theorem mem_selected {arfcn : Nat} :
    arfcn ∈ a.selected ↔ arfcn < 1024 ∧ a.bv arfcn = true ∧ a.useArfcn arfcn = true := by
  simp [FreqListArgs.selected,FreqListArgs.selects,Bitvec.bits]

theorem selected_nodup : a.selected.Nodup := List.nodup_range.filter _

theorem rangeEncFilterArfcns_without {L : List Nat} (h0 : 0 ∉ L) (hlt : ∀ x ∈ L, x < 1024) :
    rangeEncFilterArfcns L 0 = (L.map (· - 1),false) := by
  have hkept : L.filterMap (fun (x : Nat) =>
      if x = 0 then none else some (mod ((x : Int) - ((0 : Nat) + 1 : Int)) 1024)) = L.map (· - 1) := by
    rw [← List.filterMap_eq_map]
    refine List.filterMap_congr fun x hx => ?_
    have hx0 : x ≠ 0 := by
      rintro rfl
      exact h0 hx
    have hlt := hlt x hx
    rw [if_neg hx0,show (x : Int) - ((0 : Nat) + 1 : Int) = ((x - 1 : Nat) : Int) by omega,mod_natCast,
      Nat.mod_eq_of_lt (by omega)]
    rfl
  unfold rangeEncFilterArfcns
  simp only [hkept]
  simp [h0]

end Select

section Range1024

theorem rangeEncRange1024_header (o : Octets) (f0 : Bool) (w : IntArray) :
    let o' := rangeEncRange1024 o f0 w
    o'.bit 0 = true ∧ o'.bit 1 = false ∧ o'.bit 4 = false ∧ o'.bit 5 = f0 := by
  have h := (writeAllWn_spec (Function.update o 0 (0x80#8 ||| (BitVec.ofBool f0).setWidth 8 <<< 2))
    0 w 16 10 (show 6 < 8 by omega)).2
  refine ⟨?_,?_,?_,?_⟩
  all_goals
    refine (h _ (by omega)).trans ?_
    rw [Octets.bit_update,if_pos (by omega)]
    cases f0 <;> decide

/-- The W(k) of a Range 1024 list: as many as there are frequencies, and null ones after them. -/
theorem rangeEncRange1024_w {L : List Nat} (o : Octets) (f0 : Bool) (hnd : L.Nodup)
    (hL : ∀ x ∈ L, x < 1023) (hlen : L.length ≤ 16) {k : Nat} (hk : 1 ≤ k) :
    (rangeEncRange1024 o f0 (rangeEncArfcns 1023 L (fun _ => 0) 0).1).w 6 16 10 k
        = (rangeEncArfcns 1023 L (fun _ => 0) 0).1 (k - 1)
      ∧ (L.length < k → (rangeEncArfcns 1023 L (fun _ => 0) 0).1 (k - 1) = 0) := by
  have henc := (rangeEncArfcns_encodes 10 (fun _ => 0) (show 0 < 2 ^ 0 by omega) hnd hL).2
  change Encodes 10 0 0 L (fun _ => 0) (rangeEncArfcns 1023 L (fun _ => 0) 0).1 at henc
  generalize (rangeEncArfcns 1023 L (fun _ => 0) 0).1 = w at henc ⊢
  have hzero : L.length < k → w (k - 1) = 0 := by
    intro hk
    refine henc.frame _ fun m hm hmL => ?_
    omega
  refine ⟨?_,hzero⟩
  by_cases hk16 : k ≤ 16
  · refine (writeAllWn_spec _ 0 w 16 10 (show 6 < 8 by omega)).1 k hk hk16 ?_
    by_cases hkL : k ≤ L.length
    · have hv := (henc.value k hk hkL).2
      simpa [wWidth] using hv
    · rw [hzero (by omega)]
      exact Nat.two_pow_pos _
  · rw [hzero (by omega),Octets.w,if_neg (by omega)]

theorem decodeTree_rangeEncRange1024 {L : List Nat} (o : Octets) (f0 : Bool) (hnd : L.Nodup)
    (hL : ∀ x ∈ L, x < 1023) (hlen : L.length ≤ 16) (x : Nat) :
    x ∈ decodeTree ((rangeEncRange1024 o f0 (rangeEncArfcns 1023 L (fun _ => 0) 0).1).w 6 16 10) 10 1
      ↔ x ∈ L := by
  have henc := (rangeEncArfcns_encodes 10 (fun _ => 0) (show 0 < 2 ^ 0 by omega) hnd hL).2
  change Encodes 10 0 0 L (fun _ => 0) (rangeEncArfcns 1023 L (fun _ => 0) 0).1 at henc
  have hcongr : decodeTree ((rangeEncRange1024 o f0 (rangeEncArfcns 1023 L (fun _ => 0) 0).1).w 6 16 10) 10 1
      = decodeTree (fun k => (rangeEncArfcns 1023 L (fun _ => 0) 0).1 (k - 1)) 10 1 :=
    decodeTree_congr (o := 0) (l := 0) 10 (by omega) fun m hm =>
      (rangeEncRange1024_w o f0 hnd hL hlen (by omega)).1
  rw [hcongr]
  exact henc.decode (fun _ _ => rfl) x

/-- The same for a reader of as many W(k) as there are frequencies, each of them once. -/
theorem decodeTree_perm {L : List Nat} {read : Nat → Nat} (o : Octets) (f0 : Bool) (hnd : L.Nodup)
    (hL : ∀ x ∈ L, x < 1023) (hlen : L.length ≤ 16)
    (hread : ∀ k, 1 ≤ k → k ≤ L.length → read k =
      (rangeEncRange1024 o f0 (rangeEncArfcns 1023 L (fun _ => 0) 0).1).w 6 16 10 k)
    (hnull : ∀ k, L.length < k → read k = 0) : (decodeTree read 10 1).Perm L := by
  have hcongr : decodeTree read 10 1
      = decodeTree ((rangeEncRange1024 o f0 (rangeEncArfcns 1023 L (fun _ => 0) 0).1).w 6 16 10) 10 1 := by
    refine decodeTree_congr (o := 0) (l := 0) 10 (by omega) fun m hm => ?_
    by_cases hmL : 0 + 2 ^ 0 * m ≤ L.length
    · exact hread _ (by omega) hmL
    · obtain ⟨hw,hz⟩ := rangeEncRange1024_w o f0 hnd hL hlen (k := 0 + 2 ^ 0 * m) (by omega)
      rw [hnull _ (by omega),hw,hz (by omega)]
  have hle : (decodeTree read 10 1).length ≤ L.length :=
    decodeTree_length_le (o := 0) (l := 0) 10 (by omega) fun m hm => hnull _ (by omega)
  have hsub : L ⊆ decodeTree read 10 1 := fun x hx => by
    rw [hcongr]
    exact (decodeTree_rangeEncRange1024 o f0 hnd hL hlen x).mpr hx
  exact ((hnd.subperm hsub).perm_of_length_le hle).symm

end Range1024

theorem rangeEncode_without {L : List Nat} {chanList o : Octets} (h0 : 0 ∉ L) (hlt : ∀ x ∈ L, x < 1024)
    (h : rangeEncode .r1024 L (fun _ => 0) 0 chanList = .ok o) :
    o = rangeEncRange1024 chanList false (rangeEncArfcns 1023 (L.map (· - 1)) (fun _ => 0) 0).1 := by
  have hvalue : Gsm48Range.r1024.value = 1023 := rfl
  rw [rangeEncode,rangeEncFilterArfcns_without h0 hlt,hvalue] at h
  dsimp only at h
  generalize rangeEncArfcns 1023 (L.map (· - 1)) (fun _ => 0) 0 = r at h ⊢
  obtain ⟨w,rc⟩ := r
  cases rc with
  | error e => cases h
  | ok u => exact (Except.ok.inj h).symm

theorem decodeFreqList_rangeEncRange1024 {L : List Nat} (chanList : Octets) (h0 : 0 ∉ L) (hnd : L.Nodup)
    (hlt : ∀ x ∈ L, x < 1024) (hlen : L.length ≤ 16) (arfcn : Nat) :
    arfcn ∈ decodeFreqList (rangeEncRange1024 chanList false
      (rangeEncArfcns 1023 (L.map (· - 1)) (fun _ => 0) 0).1) ↔ arfcn ∈ L := by
  have hpos : ∀ x ∈ L, x ≠ 0 := fun x hx h => h0 (h ▸ hx)
  have hnd' : (L.map (· - 1)).Nodup := by
    refine hnd.map_on fun x hx y hy h => ?_
    have := hpos x hx
    have := hpos y hy
    omega
  have hlt' : ∀ x ∈ L.map (· - 1), x < 1023 := by
    intro x hx
    obtain ⟨y,hy,rfl⟩ := List.mem_map.mp hx
    have := hlt y hy
    have := hpos y hy
    omega
  obtain ⟨hb0,hb1,hb4,hb5⟩ := rangeEncRange1024_header chanList false
    (rangeEncArfcns 1023 (L.map (· - 1)) (fun _ => 0) 0).1
  have htree := decodeTree_rangeEncRange1024 chanList false hnd' hlt' (by simpa using hlen)
  simp only [decodeFreqList,hb0,hb1,hb4,Octets.decodeRange1024,hb5]
  simp only [Bool.false_eq_true,if_false,List.nil_append,List.mem_map,htree]
  constructor
  · rintro ⟨x,⟨y,hy,rfl⟩,rfl⟩
    have := hpos y hy
    rwa [Nat.sub_add_cancel (by omega)]
  · intro hx
    have := hpos arfcn hx
    exact ⟨arfcn - 1,⟨arfcn,hx,rfl⟩,by omega⟩

/-- What `enc_freq_lst_range` writes in the Range 1024 format without ARFCN 0 and with at
most 16 ARFCNs is read back as it was selected. -/
theorem decodeFreqList_encFreqLstRange {a : FreqListArgs} {o : Octets}
    (henc : encFreqLstRange a (fun _ => 0) = .ok o)
    (hrange : rangeEncDetermineRange a.selected 0 = some (.r1024,0)) (h0 : 0 ∉ a.selected)
    (hlen : a.selected.length ≤ 16) (arfcn : Nat) : arfcn ∈ decodeFreqList o ↔ arfcn ∈ a.selected := by
  have hlt : ∀ x ∈ a.selected, x < 1024 := fun x hx => (mem_selected.mp hx).1
  obtain ⟨L,hL,henc⟩ := EventFsm.bind_eq_ok.mp henc
  have hsel := encFreqLstSelect_eq hL
  rw [List.nil_append,← FreqListArgs.selected] at hsel
  rw [hsel,hrange] at henc
  rw [rangeEncode_without h0 hlt henc,decodeFreqList_rangeEncRange1024 _ h0 selected_nodup hlt hlen]

theorem bitvec2freqList_range {a : FreqListArgs} {o : Octets} (hformat : a.format = .range)
    (hok : bitvec2freqList a = .ok o) : encFreqLstRange a (fun _ => 0) = .ok o := by
  simp only [bitvec2freqList,hformat] at hok
  split at hok
  · rename_i heq
    rw [heq,hok]
  all_goals cases hok

/-- A frequency list in the Range 1024 format without ARFCN 0 and with at most 16
ARFCNs is read back as it was selected. -/
theorem freqList_range_roundTrip (a : FreqListArgs) (o : Octets) (hformat : a.format = .range)
    (hok : bitvec2freqList a = .ok o) (hrange : rangeEncDetermineRange a.selected 0 = some (.r1024,0))
    (h0 : 0 ∉ a.selected) (hlen : a.selected.length ≤ 16) (arfcn : Nat) :
    arfcn ∈ decodeFreqList o ↔ arfcn < 1024 ∧ a.bv arfcn = true ∧ a.useArfcn arfcn = true := by
  rw [decodeFreqList_encFreqLstRange (bitvec2freqList_range hformat hok) hrange h0 hlen,mem_selected]

/-- `gsm_arfcn2band_rc` of an ARFCN without flags. -/
def arfcnBand (arfcn : Nat) : Option GsmBand :=
  if arfcn ≤ 124 ∨ 955 ≤ arfcn ∧ arfcn ≤ 1023 then some .band900
  else if 128 ≤ arfcn ∧ arfcn ≤ 251 then some .band850
  else if 512 ≤ arfcn ∧ arfcn ≤ 885 then some .band1800
  else if 259 ≤ arfcn ∧ arfcn ≤ 293 then some .band450
  else if 306 ≤ arfcn ∧ arfcn ≤ 340 then some .band480
  else if 350 ≤ arfcn ∧ arfcn ≤ 425 then some .band810
  else if 438 ≤ arfcn ∧ arfcn ≤ 511 then some .band750
  else none

/-- The neighbours of a DCS 1800 cell, in the same SI as those of other bands or not. -/
def neighbours (arfcns : List Nat) (combined : Bool) : FreqListArgs where
  gsmArfcn2bandRc := arfcnBand
  bts := { band := .band1800, c0Arfcn := 600, modelForceCombinedSi := combined }
  bv := fun arfcn => arfcns.contains arfcn
  bis := false
  ter := false

theorem freqList_range_roundTrip_combined :
    ∃ o, bitvec2freqList (neighbours [5,600,700] true) = .ok o ∧ ∀ arfcn, arfcn ∈ decodeFreqList o ↔
      arfcn < 1024 ∧ (neighbours [5,600,700] true).bv arfcn = true
        ∧ (neighbours [5,600,700] true).useArfcn arfcn = true := by
  have hok : ∃ o, bitvec2freqList (neighbours [5,600,700] true) = .ok o ∧ True := by decide +kernel
  obtain ⟨o,ho,-⟩ := hok
  exact ⟨o,ho,freqList_range_roundTrip _ o (by decide +kernel) ho (by decide +kernel)
    (by decide +kernel) (by decide +kernel)⟩

/-- ARFCN 512 becomes F0, and the last entry of the array is encoded a second time,
as ARFCN 703. -/
theorem freqList_range_adds_arfcn :
    ∃ o, bitvec2freqList (neighbours [512,600,700] false) = .ok o
      ∧ (neighbours [512,600,700] false).format = .range
      ∧ 703 ∈ decodeFreqList o ∧ (neighbours [512,600,700] false).bv 703 = false := by
  decide +kernel

end OsmoBsc.Si
