import OsmoBsc.Si.SystemInformation
import Mathlib.Data.List.Rotate
set_option autoImplicit false

/-! The mobile allocation of a hopping timeslot, and what a phone makes of it. -/

namespace OsmoBsc.Si

/-- The hopping parameters of `struct gsm_bts_trx_ts` that the mobile allocation is made of and written to. -/
structure Hopping where
  enabled : Bool
  arfcns : Bitvec
  ma : Bitvec := fun _ => false
  maLen : Nat := 0

/-- The octets of `ma_data`. -/
def maDataLen : Nat := 8

/-- `bitvec_set_bit_pos` on `ma`, which refuses a bit that the octets do not have. -/
def maSetBitPos (ma : Bitvec) (bitnum : Nat) (bit : Bool) : Bitvec :=
  if bitnum / 8 < maDataLen then Function.update ma bitnum bit else ma

def maBitnum (maLen nChan : Nat) : Nat := (maLen * 8 + (2 ^ 32 - 1) + (2 ^ 32 - nChan)) % 2 ^ 32

/-- One turn of the second loop of `generate_ma_for_ts`. -/
def maTurn (cellChan tsArfcn : Bitvec) (maLen : Nat) (s : Bitvec × Nat) (i : Nat) : Bitvec × Nat :=
  if !cellChan i then s else (maSetBitPos s.1 (maBitnum maLen s.2) (tsArfcn i),s.2 + 1)

def cellArfcns (cellChan : Bitvec) : List Nat := (List.range Bitvec.bits).filter cellChan

def generateMaForTs (cellChan : Bitvec) (ts : Hopping) : Hopping :=
  if !ts.enabled then { ts with ma := fun _ => false, maLen := 0 }
  else
    let num := (cellArfcns cellChan).length
    let maLen := if num % 8 ≠ 0 then num / 8 + 1 else num / 8
    let s := (List.range Bitvec.bits).foldl (maTurn cellChan ts.arfcns maLen) ((fun _ => false),0)
    let ma := if cellChan 0 then maSetBitPos s.1 (maBitnum maLen (s.2 + 1)) (ts.arfcns 0) else s.1
    { ts with ma := ma, maLen := maLen }

/-- The ARFCNs to which MA C 1, MA C 2 and so on refer: the cell allocation from the lowest on, ARFCN 0 last. -/
def maOrder (cellChan : Bitvec) : List Nat :=
  (cellArfcns cellChan).filter (· ≠ 0) ++ if cellChan 0 then [0] else []

/-- A phone that reads the octets from the last one and its lowest bit on hops on this ARFCN. -/
def Hopping.Selects (ts : Hopping) (cellChan : Bitvec) (arfcn : Nat) : Prop :=
  ∃ i, (maOrder cellChan)[i]? = some arfcn ∧ ts.ma (ts.maLen * 8 - 1 - i) = true

/-- The mobile allocation says on what the timeslot hops; no octet is announced that is not there. -/
def Hopping.Announces (ts : Hopping) (cellChan : Bitvec) : Prop :=
  if (cellArfcns cellChan).length ≤ 64 then
    ts.maLen = ((cellArfcns cellChan).length + 7) / 8
      ∧ ∀ arfcn < Bitvec.bits, ts.Selects cellChan arfcn ↔ ts.arfcns arfcn = true
  else ts.maLen ≤ maDataLen

section Loop

variable {cellChan tsArfcn : Bitvec} {maLen : Nat}

theorem maBitnum_eq {nChan : Nat} (hlen : maLen ≤ maDataLen) (h : nChan < maLen * 8) :
    maBitnum maLen nChan = maLen * 8 - 1 - nChan := by
  simp only [maDataLen] at hlen
  rw [maBitnum]
  omega

/-- The bits of the channels counted so far stay, and each channel of the list gets the next one. -/
theorem maLoop_bits (hlen : maLen ≤ maDataLen) (xs : List Nat) (ma : Bitvec) (k : Nat)
    (hfit : k + (xs.filter cellChan).length ≤ maLen * 8) :
    (xs.foldl (maTurn cellChan tsArfcn maLen) (ma,k)).2 = k + (xs.filter cellChan).length
      ∧ (∀ p, maLen * 8 ≤ p + k → (xs.foldl (maTurn cellChan tsArfcn maLen) (ma,k)).1 p = ma p)
      ∧ ∀ j a, (xs.filter cellChan)[j]? = some a →
        (xs.foldl (maTurn cellChan tsArfcn maLen) (ma,k)).1 (maLen * 8 - 1 - (k + j)) = tsArfcn a := by
  induction xs generalizing ma k with
  | nil => exact ⟨rfl,fun _ _ => rfl,fun j a h => by cases h⟩
  | cons x xs ih =>
    rw [List.foldl_cons]
    cases hx : cellChan x with
    | false =>
      rw [List.filter_cons_of_neg (by rw [hx]; decide)] at hfit ⊢
      rw [maTurn,hx]
      exact ih ma k hfit
    | true =>
      rw [List.filter_cons_of_pos hx,List.length_cons] at hfit ⊢
      rw [maTurn,hx,Bool.not_true,if_neg Bool.false_ne_true]
      dsimp only
      have hbit := @maBitnum_eq maLen k hlen (by omega)
      have hin : (maLen * 8 - 1 - k) / 8 < maDataLen := by
        simp only [maDataLen] at hlen ⊢
        omega
      rw [hbit,maSetBitPos,if_pos hin]
      obtain ⟨hcount,hold,hnew⟩ := ih (Function.update ma (maLen * 8 - 1 - k) (tsArfcn x)) (k+1) (by omega)
      refine ⟨by omega,fun p hp => ?_,fun j a ha => ?_⟩
      · rw [hold p (by omega),Function.update_of_ne (by omega)]
      · cases j with
        | zero =>
          obtain rfl : x = a := Option.some.inj ha
          rw [hold _ (by omega),Nat.add_zero,Function.update_self]
        | succ j =>
          have hj := hnew j a ha
          rwa [show k + 1 + j = k + (j + 1) by omega] at hj

theorem maLen_eq (num : Nat) : (if num % 8 ≠ 0 then num / 8 + 1 else num / 8) = (num + 7) / 8 := by
  split <;> omega

/-- MA C i+1 holds the bit of the i-th ARFCN of the cell allocation, counted from ARFCN 0 on. -/
theorem generateMaForTs_bits {ts : Hopping} (henabled : ts.enabled = true)
    (hfit : (cellArfcns cellChan).length ≤ 64) {j a : Nat} (h : (cellArfcns cellChan)[j]? = some a) :
    (generateMaForTs cellChan ts).ma ((generateMaForTs cellChan ts).maLen * 8 - 1 - j) = ts.arfcns a := by
  rw [generateMaForTs,henabled,Bool.not_true,if_neg Bool.false_ne_true]
  dsimp only
  rw [maLen_eq]
  have hj := (List.getElem?_eq_some_iff.mp h).1
  generalize hn : (cellArfcns cellChan).length = n at hfit hj ⊢
  obtain ⟨hcount,-,hnew⟩ := @maLoop_bits cellChan ts.arfcns ((n + 7) / 8) (by simp only [maDataLen]; omega)
    (List.range Bitvec.bits) (fun _ => false) 0 (by change 0 + (cellArfcns cellChan).length ≤ _; omega)
  have hbit := hnew j a h
  rw [Nat.zero_add] at hbit hcount
  change _ = (cellArfcns cellChan).length at hcount
  split
  · -- the second bit of ARFCN 0 is above all others, or nowhere
    rw [hcount,hn,maSetBitPos]
    split
    · next hin =>
      simp only [maBitnum,maDataLen] at hin
      rw [Function.update_of_ne (by rw [maBitnum]; omega)]
      exact hbit
    · exact hbit
  · exact hbit

end Loop

section Order

variable {cellChan : Bitvec} {a : Nat}

theorem mem_cellArfcns : a ∈ cellArfcns cellChan ↔ a < Bitvec.bits ∧ cellChan a = true := by
  rw [cellArfcns,List.mem_filter,List.mem_range]

theorem maOrder_of_not_zero (h : cellChan 0 = false) : maOrder cellChan = cellArfcns cellChan := by
  rw [maOrder,h,if_neg Bool.false_ne_true,List.append_nil,List.filter_eq_self]
  intro a ha
  have hne : a ≠ 0 := by
    rintro rfl
    rw [(mem_cellArfcns.mp ha).2] at h
    cases h
  exact decide_eq_true hne

theorem maOrder_of_zero (h : cellChan 0 = true) : maOrder cellChan = (cellArfcns cellChan).rotate 1 := by
  have hrange : List.range Bitvec.bits = 0 :: (List.range 1023).map Nat.succ := List.range_succ_eq_map
  have hcells : cellArfcns cellChan = 0 :: ((List.range 1023).map Nat.succ).filter cellChan := by
    rw [cellArfcns,hrange,List.filter_cons_of_pos h]
  have hrest : (((List.range 1023).map Nat.succ).filter cellChan).filter (· ≠ 0)
      = ((List.range 1023).map Nat.succ).filter cellChan := by
    rw [List.filter_eq_self]
    intro a ha
    obtain ⟨b,-,rfl⟩ := List.mem_map.mp (List.mem_filter.mp ha).1
    rfl
  rw [maOrder,hcells,h,if_pos rfl,List.filter_cons_of_neg (by decide),hrest,List.rotate_cons_succ,
    List.rotate_zero]

theorem cellArfcns_nodup (cellChan : Bitvec) : (cellArfcns cellChan).Nodup := by
  unfold cellArfcns
  exact List.nodup_range.filter _

theorem maOrder_perm (cellChan : Bitvec) : (maOrder cellChan).Perm (cellArfcns cellChan) := by
  cases h : cellChan 0 with
  | false => rw [maOrder_of_not_zero h]
  | true =>
    rw [maOrder_of_zero h]
    exact List.rotate_perm _ 1

end Order

section Decoding

variable {cellChan : Bitvec} {ts : Hopping}

theorem generateMaForTs_maLen (henabled : ts.enabled = true) :
    (generateMaForTs cellChan ts).maLen = ((cellArfcns cellChan).length + 7) / 8 := by
  rw [generateMaForTs,henabled,Bool.not_true,if_neg Bool.false_ne_true]
  dsimp only
  rw [maLen_eq]

/-- The phone is right if and only if the two orders have the same bits. -/
theorem selects_iff_map (henabled : ts.enabled = true) (hfit : (cellArfcns cellChan).length ≤ 64)
    (hsub : ∀ a < Bitvec.bits, ts.arfcns a = true → cellChan a = true) :
    (∀ a < Bitvec.bits, (generateMaForTs cellChan ts).Selects cellChan a ↔ ts.arfcns a = true)
      ↔ (maOrder cellChan).map ts.arfcns = (cellArfcns cellChan).map ts.arfcns := by
  have hperm := maOrder_perm cellChan
  have hnodup := hperm.nodup_iff.mpr (cellArfcns_nodup cellChan)
  have hbits : ∀ {i a b : Nat}, (maOrder cellChan)[i]? = some a → (cellArfcns cellChan)[i]? = some b →
      ((generateMaForTs cellChan ts).Selects cellChan a ↔ ts.arfcns b = true) := by
    intro i a b ha hb
    rw [← generateMaForTs_bits henabled hfit hb]
    refine ⟨fun ⟨i',hi',hbit⟩ => ?_,fun hbit => ⟨i,ha,hbit⟩⟩
    have hlt := (List.getElem?_eq_some_iff.mp ha).1
    rwa [(List.getElem?_inj hlt hnodup).mp (ha.trans hi'.symm)]
  constructor
  · intro hright
    apply List.ext_getElem?
    intro i
    rw [List.getElem?_map,List.getElem?_map]
    by_cases hi : i < (cellArfcns cellChan).length
    · have hi' : i < (maOrder cellChan).length := by rwa [hperm.length_eq]
      have ha := List.getElem?_eq_getElem hi'
      have hb := List.getElem?_eq_getElem hi
      have hmem := mem_cellArfcns.mp (hperm.mem_iff.mp (List.mem_of_getElem? ha))
      rw [ha,hb]
      exact congrArg some (Bool.eq_iff_iff.mpr ((hright _ hmem.1).symm.trans (hbits ha hb)))
    · rw [List.getElem?_eq_none (by rw [hperm.length_eq]; omega),List.getElem?_eq_none (by omega)]
  · intro hmap a ha
    by_cases hcell : cellChan a = true
    · obtain ⟨i,hi⟩ := List.mem_iff_getElem?.mp (hperm.mem_iff.mpr (mem_cellArfcns.mpr ⟨ha,hcell⟩))
      have hlt : i < (cellArfcns cellChan).length := by
        rw [← hperm.length_eq]
        exact (List.getElem?_eq_some_iff.mp hi).1
      have hb := List.getElem?_eq_getElem hlt
      rw [hbits hi hb]
      have heq := congrArg (·[i]?) hmap
      simp only [List.getElem?_map,hi,hb,Option.map_some,Option.some.injEq] at heq
      rw [heq]
    · refine iff_of_false ?_ fun hts => hcell (hsub a ha hts)
      rintro ⟨i,hi,-⟩
      exact hcell (mem_cellArfcns.mp (hperm.mem_iff.mp (List.mem_of_getElem? hi))).2

theorem rotated_map_iff (hzero : cellChan 0 = true) (hsub : ∀ a < Bitvec.bits, ts.arfcns a = true → cellChan a = true) :
    (maOrder cellChan).map ts.arfcns = (cellArfcns cellChan).map ts.arfcns
      ↔ (∀ a < Bitvec.bits, ts.arfcns a = false) ∨ ∀ a < Bitvec.bits, cellChan a = true → ts.arfcns a = true := by
  rw [maOrder_of_zero hzero,List.map_rotate,List.rotate_one_eq_self_iff_eq_replicate]
  constructor
  · rintro ⟨bit,hbit⟩
    have hall : ∀ a < Bitvec.bits, cellChan a = true → ts.arfcns a = bit := by
      intro a ha hcell
      exact List.eq_of_mem_replicate (hbit ▸ List.mem_map_of_mem (mem_cellArfcns.mpr ⟨ha,hcell⟩))
    cases bit with
    | true => exact .inr hall
    | false =>
      refine .inl fun a ha => ?_
      cases hts : ts.arfcns a with
      | false => rfl
      | true => exact hts.symm.trans (hall a ha (hsub a ha hts))
  · intro hall
    rcases hall with hnone | hall
    · exact ⟨false,List.eq_replicate_iff.mpr ⟨rfl,fun b hb => by
        obtain ⟨a,ha,rfl⟩ := List.mem_map.mp hb
        exact hnone a (mem_cellArfcns.mp ha).1⟩⟩
    · exact ⟨true,List.eq_replicate_iff.mpr ⟨rfl,fun b hb => by
        obtain ⟨a,ha,rfl⟩ := List.mem_map.mp hb
        exact hall a (mem_cellArfcns.mp ha).1 (mem_cellArfcns.mp ha).2⟩⟩

end Decoding

/-- The mobile allocation is right if and only if the cell allocation has at most 64 ARFCNs and no ARFCN 0, or
the timeslot hops on none of them, or on all. -/
theorem generateMaForTs_announces_iff (bts : SiConfig) (ts : Hopping) (henabled : ts.enabled = true)
    (hsub : ∀ a < Bitvec.bits, ts.arfcns a = true → bts.cellAlloc a = true) :
    (generateMaForTs bts.cellAlloc ts).Announces bts.cellAlloc ↔
      (cellArfcns bts.cellAlloc).length ≤ 64 ∧ (bts.cellAlloc 0 = false
        ∨ (∀ a < Bitvec.bits, ts.arfcns a = false)
        ∨ ∀ a < Bitvec.bits, bts.cellAlloc a = true → ts.arfcns a = true) := by
  have hlen := @generateMaForTs_maLen bts.cellAlloc ts henabled
  have harfcns : (generateMaForTs bts.cellAlloc ts).arfcns = ts.arfcns := by
    rw [generateMaForTs]
    split <;> rfl
  unfold Hopping.Announces
  by_cases hfit : (cellArfcns bts.cellAlloc).length ≤ 64
  · rw [if_pos hfit,and_iff_right hlen,and_iff_right hfit,harfcns,selects_iff_map henabled hfit hsub]
    cases hzero : bts.cellAlloc 0 with
    | false => exact iff_of_true (by rw [maOrder_of_not_zero hzero]) (.inl rfl)
    | true => rw [rotated_map_iff hzero hsub,or_iff_right Bool.true_eq_false.mp]
  · rw [if_neg hfit,hlen]
    refine iff_of_false ?_ fun h => hfit h.1
    simp only [maDataLen]
    omega

def hoppingOn (arfcns : List Nat) : Hopping := { enabled := true, arfcns := fun a => arfcns.contains a }

def hoppingCell (arfcns : List Nat) : SiConfig :=
  { band := .band900, nr := 0, c0Arfcn := 5, c0HoppingArfcns := [(hoppingOn arfcns).arfcns] }

theorem hoppingCell_contains (arfcns : List Nat) : ∀ a < Bitvec.bits,
    (hoppingOn arfcns).arfcns a = true → (hoppingCell arfcns).cellAlloc a = true := by
  intro a _ ha
  simp [SiConfig.cellAlloc,hoppingCell,ha]

theorem generateMaForTs_announces_two :
    (generateMaForTs (hoppingCell [7,9]).cellAlloc (hoppingOn [7,9])).Announces (hoppingCell [7,9]).cellAlloc := by
  have hfit : (cellArfcns (hoppingCell [7,9]).cellAlloc).length ≤ 64 := by decide +kernel
  have hzero : (hoppingCell [7,9]).cellAlloc 0 = false := rfl
  have hiff := generateMaForTs_announces_iff (hoppingCell [7,9]) (hoppingOn [7,9]) rfl (hoppingCell_contains [7,9])
  rw [hiff]
  exact ⟨hfit,.inl hzero⟩

/-- The timeslot hops on ARFCN 0, and the phone on ARFCN 5. -/
theorem generateMaForTs_arfcn0 :
    ¬ (generateMaForTs (hoppingCell [0]).cellAlloc (hoppingOn [0])).Announces (hoppingCell [0]).cellAlloc := by
  have hfit : (cellArfcns (hoppingCell [0]).cellAlloc).length ≤ 64 := by decide +kernel
  rw [Hopping.Announces,if_pos hfit]
  rintro ⟨-,hright⟩
  have hmap := (selects_iff_map rfl hfit (hoppingCell_contains [0])).mp hright
  revert hmap
  decide +kernel

end OsmoBsc.Si
