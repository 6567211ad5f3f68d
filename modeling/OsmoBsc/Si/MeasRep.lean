import OsmoBsc.Si.Announcement
import Mathlib.Tactic.IntervalCases
set_option autoImplicit false

namespace OsmoBsc.Si

structure MeasRepCell where
  rxlev : Nat := 0
  bsic : Nat := 0
  neighIdx : Nat := 0
  arfcn : Nat := 0
  deriving DecidableEq, Repr

/-- `struct gsm_meas_rep`, as far as `gsm48_parse_meas_rep` fills it, with a field for
each of its flags. -/
structure MeasRep where
  ba1 : Bool := false
  ulDtx : Bool := false
  dlValid : Bool := false
  dlFullRxLev : Nat := 0
  dlSubRxLev : Nat := 0
  dlFullRxQual : Nat := 0
  dlSubRxQual : Nat := 0
  numCell : Nat := 0
  cell : Nat → MeasRepCell := fun _ => {}

def mtRrMeasRep : BitVec 8 := 0x15

def Bitvec.ascending (bv : Bitvec) : List Nat := (List.range Bitvec.bits).filter bv

/-- `bitvec_get_nth_set_bit`, which counts from 1 and is 0 when there is no such bit. -/
def bitvecGetNthSetBit (bv : Bitvec) (n : Nat) : Nat := bv.ascending.getD (n - 1) 0

/-- RXLEV, BCCH-FREQ and BSIC of the six cells, as `gsm48_parse_meas_rep` reads them. -/
def measRepFields (data : Nat → Nat) : Nat → Nat × Nat × Nat
  | 0 => (data 3 &&& 0x3f,data 4 >>> 3,((data 4 &&& 0x07) <<< 3) ||| (data 5 >>> 5))
  | 1 => (((data 5 &&& 0x1f) <<< 1) ||| (data 6 >>> 7),(data 6 >>> 2) &&& 0x1f,
    ((data 6 &&& 0x03) <<< 4) ||| (data 7 >>> 4))
  | 2 => (((data 7 &&& 0x0f) <<< 2) ||| (data 8 >>> 6),(data 8 >>> 1) &&& 0x1f,
    ((data 8 &&& 0x01) <<< 5) ||| (data 9 >>> 3))
  | 3 => (((data 9 &&& 0x07) <<< 3) ||| (data 10 >>> 5),data 10 &&& 0x1f,data 11 >>> 2)
  | 4 => (((data 11 &&& 0x03) <<< 4) ||| (data 12 >>> 4),((data 12 &&& 0xf) <<< 1) ||| (data 13 >>> 7),
    (data 13 >>> 1) &&& 0x3f)
  | _ => (((data 13 &&& 0x01) <<< 5) ||| (data 14 >>> 3),((data 14 &&& 0x07) <<< 2) ||| (data 15 >>> 6),
    data 15 &&& 0x3f)

def measRepCell (neighList : Bitvec) (data : Nat → Nat) (k : Nat) : MeasRepCell :=
  let (rxlev,neighIdx,bsic) := measRepFields data k
  { rxlev, neighIdx, bsic, arfcn := bitvecGetNthSetBit neighList (neighIdx + 1) }

def measRepNumCell (data : Nat → Nat) : Nat :=
  let numCell := ((data 3 >>> 6) &&& 0x3) ||| ((data 2 &&& 0x01) <<< 2)
  if numCell < 1 ∨ 6 < numCell then 0 else numCell

/-- `gsm48_parse_meas_rep` for a BTS with this `si_common.neigh_list`, `none` for -EINVAL. -/
def gsm48ParseMeasRep (neighList : Bitvec) (msgType : BitVec 8) (msg : Octets) (rep : MeasRep) :
    Option MeasRep :=
  if msgType ≠ mtRrMeasRep then none
  else
    let data := fun i => (msg i).toNat
    let numCell := measRepNumCell data
    some { ba1 := rep.ba1 || data 0 &&& 0x80 != 0
           ulDtx := rep.ulDtx || data 0 &&& 0x40 != 0
           dlValid := rep.dlValid || data 1 &&& 0x40 == 0
           dlFullRxLev := data 0 &&& 0x3f
           dlSubRxLev := data 1 &&& 0x3f
           dlFullRxQual := (data 2 >>> 4) &&& 0x7
           dlSubRxQual := (data 2 >>> 1) &&& 0x7
           numCell
           cell := fun k => if k < numCell then measRepCell neighList data k else rep.cell k }

/-- The BCCH-FREQ-NCELL of a cell in the Measurement Results, of which each cell has 17
bits: 6 for RXLEV, 5 for BCCH-FREQ and 6 for BSIC. -/
def bcchFreqNcell (msg : Octets) (k : Nat) : Nat := msg.field (32 + 17 * k) 5

/-- The order of the ARFCNs of one message: ascending, with ARFCN 0 last. -/
def baOrder : List Nat := (List.range 1023).map (· + 1) ++ [0]

def baList (lists : SiPart → Octets) : List Nat :=
  [SiPart.plain,.bis,.ter].flatMap fun part =>
    baOrder.filter fun arfcn => (decodeFreqList (lists part)).contains arfcn

/-- Whatever neighbours a phone reports by their index in the BA list, the ARFCNs of these
neighbours are recorded. -/
def IndicesAgree (neighList : Bitvec) (lists : SiPart → Octets) : Prop :=
  ∀ (msg : Octets) (rep rep' : MeasRep), gsm48ParseMeasRep neighList mtRrMeasRep msg rep = some rep' →
    ∀ k < rep'.numCell, ∀ arfcn, (baList lists)[bcchFreqNcell msg k]? = some arfcn →
      (rep'.cell k).arfcn = arfcn

section Fields

theorem testBit_octet (msg : Octets) (n i : Nat) :
    (msg n).toNat.testBit i = (decide (i < 8) && msg.bit (8 * n + (7 - i))) := by
  by_cases hi : i < 8
  · have hq : (8 * n + (7 - i)) / 8 = n := by omega
    have hr : 7 - (8 * n + (7 - i)) % 8 = i := by omega
    rw [Octets.bit,hq,hr,decide_eq_true hi,Bool.true_and]
    rfl
  · rw [decide_eq_false hi,Bool.false_and]
    refine Nat.testBit_lt_two_pow ((msg n).isLt.trans_le ?_)
    exact Nat.pow_le_pow_right (by omega) (by omega)

theorem neighIdx_lt (msg : Octets) (k : Nat) : (measRepFields (fun i => (msg i).toNat) k).2.1 < 2 ^ 5 := by
  have hlt : ∀ n, (msg n).toNat < 256 := fun n => (msg n).isLt
  have hmask : ∀ x, x &&& 0x1f < 2 ^ 5 := fun x => Nat.and_lt_two_pow x (by decide)
  have hwide : ∀ x y : Nat, ∀ m b, x &&& m < 2 ^ (5 - b) → b ≤ 5 → y < 2 ^ 5 →
      ((x &&& m) <<< b) ||| y < 2 ^ 5 := by
    intro x y m b hx hb hy
    refine Nat.or_lt_two_pow ?_ hy
    rw [Nat.shiftLeft_eq]
    calc (x &&& m) * 2 ^ b < 2 ^ (5 - b) * 2 ^ b := Nat.mul_lt_mul_of_pos_right hx (Nat.two_pow_pos b)
      _ = 2 ^ 5 := by rw [← pow_add,Nat.sub_add_cancel hb]
  have hhigh : ∀ n b, 3 ≤ b → (msg n).toNat >>> b < 2 ^ 5 := by
    intro n b hb
    rw [Nat.shiftRight_eq_div_pow]
    refine Nat.div_lt_of_lt_mul ((hlt n).trans_le ?_)
    calc 256 = 2 ^ 3 * 2 ^ 5 := by norm_num
      _ ≤ 2 ^ b * 2 ^ 5 := Nat.mul_le_mul_right _ (Nat.pow_le_pow_right (by omega) hb)
  unfold measRepFields
  split
  · exact hhigh 4 3 (by omega)
  · exact hmask _
  · exact hmask _
  · exact hmask _
  · exact hwide _ _ _ _ (Nat.and_lt_two_pow _ (by decide)) (by omega) (hhigh 13 7 (by omega))
  · exact hwide _ _ _ _ (Nat.and_lt_two_pow _ (by decide)) (by omega) (hhigh 15 6 (by omega))

theorem neighIdx_eq (msg : Octets) {k : Nat} (hk : k < 6) :
    (measRepFields (fun i => (msg i).toNat) k).2.1 = bcchFreqNcell msg k := by
  symm
  refine Octets.field_eq (neighIdx_lt msg k) fun t ht => ?_
  have h31 : (0x1f : Nat) = 2 ^ 5 - 1 := rfl
  have h15 : (0xf : Nat) = 2 ^ 4 - 1 := rfl
  have h7 : (0x07 : Nat) = 2 ^ 3 - 1 := rfl
  interval_cases k
  all_goals
    simp only [measRepFields,h31,h15,h7,Nat.testBit_or,Nat.testBit_shiftLeft,Nat.testBit_shiftRight,
      Nat.testBit_and,Nat.testBit_two_pow_sub_one,testBit_octet]
    interval_cases t <;> simp

end Fields

section Ranks

variable {α : Type} {r r' : α → α → Prop} {L L' : List α} {i : Nat} {x y : α}

/-- What stands before the element of a sorted list is what is less than it. -/
theorem mem_take_iff (hp : L.Pairwise r) (hasymm : ∀ a b, r a b → ¬ r b a) (h : L[i]? = some y) :
    x ∈ L.take i ↔ x ∈ L ∧ r x y := by
  obtain ⟨hi,rfl⟩ := List.getElem?_eq_some_iff.mp h
  have hsplit : L = L.take i ++ L[i] :: L.drop (i + 1) := by
    rw [← List.drop_eq_getElem_cons hi,List.take_append_drop]
  have hpair := hp
  rw [hsplit,List.pairwise_append,List.pairwise_cons] at hpair
  obtain ⟨-,⟨hafter,-⟩,hbefore⟩ := hpair
  constructor
  · intro hx
    exact ⟨List.mem_of_mem_take hx,hbefore x hx _ (List.mem_cons_self ..)⟩
  · rintro ⟨hx,hr⟩
    rw [hsplit] at hx
    rcases List.mem_append.mp hx with hx | hx
    · exact hx
    · rcases List.mem_cons.mp hx with rfl | hx
      · exact absurd hr (hasymm _ _ hr)
      · exact absurd hr (hasymm _ _ (hafter x hx))

theorem length_eq_of_mem_iff (h : L.Nodup) (h' : L'.Nodup) (hmem : ∀ x, x ∈ L ↔ x ∈ L') :
    L.length = L'.length :=
  ((List.perm_ext_iff_of_nodup h h').mpr hmem).length_eq

theorem nodup_of_pairwise (hp : L.Pairwise r) (hasymm : ∀ a b, r a b → ¬ r b a) : L.Nodup := by
  refine hp.imp ?_
  intro a b hr he
  subst he
  exact hasymm _ _ hr hr

theorem take_eq_take (hi : i ≤ L.length)
    (h : ∀ j < i, ∀ y, L[j]? = some y → L'[j]? = some y) : L.take i = L'.take i := by
  refine List.ext_getElem? fun j => ?_
  by_cases hj : j < i
  · have hlt : j < L.length := by omega
    rw [List.getElem?_take_of_lt hj,List.getElem?_take_of_lt hj,h j hj L[j] (List.getElem?_eq_getElem hlt),
      List.getElem?_eq_getElem hlt]
  · rw [List.getElem?_take_eq_none (by omega),List.getElem?_take_eq_none (by omega)]

/-- Two sorted lists agree at the first `n` places of the first one, a place behind the
end of the second counting as `d`, if and only if each element has the same elements
before it in both, or is `d` and comes after just the elements of the second list. -/
theorem getD_agree_iff (d : α) (n : Nat) (hp : L.Pairwise r) (hasymm : ∀ a b, r a b → ¬ r b a)
    (hp' : L'.Pairwise r') (hasymm' : ∀ a b, r' a b → ¬ r' b a) :
    (∀ i < n, ∀ y, L[i]? = some y → L'.getD i d = y) ↔
      ∀ i < n, ∀ y, L[i]? = some y →
        (y ∈ L' ∧ ∀ x, x ∈ L' ∧ r' x y ↔ x ∈ L ∧ r x y)
        ∨ (y = d ∧ d ∉ L' ∧ ∀ x, x ∈ L' ↔ x ∈ L ∧ r x d) := by
  have hnd := nodup_of_pairwise hp hasymm
  have hnd' := nodup_of_pairwise hp' hasymm'
  constructor
  · intro h i hi y hy
    have hiL : i < L.length := (List.getElem?_eq_some_iff.mp hy).1
    have hyd := h i hi y hy
    have hsame : ∀ j < i, j < L'.length → ∀ z, L[j]? = some z → L'[j]? = some z := by
      intro j hj hjL z hz
      have hd := h j (by omega) z hz
      rw [List.getD_eq_getElem _ _ hjL] at hd
      rw [List.getElem?_eq_getElem hjL,hd]
    by_cases hlen : i < L'.length
    · rw [List.getD_eq_getElem _ _ hlen] at hyd
      have hy' : L'[i]? = some y := by rw [List.getElem?_eq_getElem hlen,hyd]
      have htake := take_eq_take hiL.le fun j hj => hsame j hj (by omega)
      refine .inl ⟨hyd ▸ List.getElem_mem hlen,fun x => ?_⟩
      rw [← mem_take_iff hp' hasymm' hy',← mem_take_iff hp hasymm hy,htake]
    · have hd : y = d := by
        rw [List.getD_eq_default _ _ (by omega)] at hyd
        exact hyd.symm
      -- a place of the first list before `i` and behind the end of the second would be `d` too
      have hi' : i = L'.length := by
        by_contra hne
        have hlt : L'.length < i := by omega
        have hz := h L'.length (by omega) L[L'.length] (List.getElem?_eq_getElem (by omega))
        rw [List.getD_eq_default _ _ (by omega),← hd] at hz
        have hyi := (List.getElem?_eq_some_iff.mp hy).2
        have := (List.Nodup.getElem_inj_iff hnd).mp (hyi.trans hz)
        omega
      have htake : L.take i = L' := by
        rw [take_eq_take hiL.le fun j hj => hsame j hj (by omega),hi',List.take_length]
      have hmem : ∀ x, x ∈ L' ↔ x ∈ L ∧ r x d := by
        intro x
        rw [← htake,mem_take_iff hp hasymm hy,hd]
      refine .inr ⟨hd,fun hdL => ?_,hmem⟩
      have hrefl := ((hmem d).mp hdL).2
      exact hasymm _ _ hrefl hrefl
  · intro h i hi y hy
    have hiL : i < L.length := (List.getElem?_eq_some_iff.mp hy).1
    have hlen : (L.take i).length = i := by
      rw [List.length_take]
      omega
    rcases h i hi y hy with ⟨hyL,hmem⟩ | ⟨rfl,-,hmem⟩
    · obtain ⟨k,hk,rfl⟩ := List.getElem_of_mem hyL
      have hk' : L'[k]? = some L'[k] := List.getElem?_eq_getElem hk
      have heq : (L'.take k).length = (L.take i).length :=
        length_eq_of_mem_iff (hnd'.sublist (List.take_sublist ..)) (hnd.sublist (List.take_sublist ..))
          fun x => by rw [mem_take_iff hp' hasymm' hk',mem_take_iff hp hasymm hy,hmem]
      have hki : k = i := by
        rw [hlen,List.length_take] at heq
        omega
      subst hki
      exact List.getD_eq_getElem _ _ hk
    · have heq : L'.length = (L.take i).length :=
        length_eq_of_mem_iff hnd' (hnd.sublist (List.take_sublist ..))
          fun x => by rw [mem_take_iff hp hasymm hy,hmem]
      rw [hlen] at heq
      exact List.getD_eq_default _ _ (by omega)

end Ranks

def SiPart.rank : SiPart → Nat
  | .plain => 0
  | .bis => 1
  | .ter => 2

/-- Of two neighbours, the first one comes before the other in the BA list. -/
def FreqListArgs.before (a : FreqListArgs) (x y : Nat) : Bool :=
  (a.part x).rank < (a.part y).rank || (a.part x == a.part y && x != 0 && (y == 0 || x < y))

def FreqListArgs.announcedBefore (a : FreqListArgs) (arfcn : Nat) : List Nat :=
  (List.range Bitvec.bits).filter fun x => a.bv x && a.before x arfcn

/-- Each neighbour that five bits can name is in `neigh_list` with the same ARFCNs before
it, or it is ARFCN 0 and has all of a `neigh_list` without ARFCN 0 before it. -/
def FreqListArgs.IndicesFit (a : FreqListArgs) (neighList : Bitvec) : Prop :=
  ∀ arfcn < 1024, a.bv arfcn = true → (a.announcedBefore arfcn).length < 32 →
    (neighList arfcn = true ∧ ∀ x < 1024,
      neighList x = true ∧ x < arfcn ↔ a.bv x = true ∧ a.before x arfcn = true)
    ∨ (arfcn = 0 ∧ neighList 0 = false ∧ ∀ x < 1024,
      neighList x = true ↔ a.bv x = true ∧ a.before x 0 = true)

section Indices

variable {net : NeighNetwork} {bts : NeighBts} {lists : SiPart → Octets} {a : FreqListArgs}
  {neighList : Bitvec}

theorem before_asymm (x y : Nat) (h : a.before x y = true) : ¬ a.before y x = true := by
  simp only [FreqListArgs.before,Bool.or_eq_true,Bool.and_eq_true,decide_eq_true_eq,beq_iff_eq,
    bne_iff_ne] at h ⊢
  rcases h with h | ⟨⟨he,h⟩,h'⟩
  · rintro (h2 | ⟨⟨he,-⟩,-⟩)
    · omega
    · rw [he] at h
      omega
  · rw [he]
    rintro (h2 | ⟨⟨-,h2⟩,h3⟩)
    · omega
    · omega

theorem mem_baOrder (x : Nat) : x ∈ baOrder ↔ x < 1024 := by
  simp only [baOrder,List.mem_append,List.mem_map,List.mem_range,List.mem_singleton]
  constructor
  · rintro (⟨i,hi,rfl⟩ | rfl) <;> omega
  · intro hx
    by_cases h0 : x = 0
    · exact .inr h0
    · exact .inl ⟨x - 1,by omega,by omega⟩

theorem baOrder_pairwise : baOrder.Pairwise fun x y => x ≠ 0 ∧ (y = 0 ∨ x < y) := by
  rw [baOrder,List.pairwise_append]
  refine ⟨?_,List.pairwise_singleton ..,?_⟩
  · rw [List.pairwise_map]
    exact List.pairwise_lt_range.imp fun h => ⟨by omega,by omega⟩
  · intro x hx y hy
    obtain ⟨i,-,rfl⟩ := List.mem_map.mp hx
    exact ⟨by omega,.inl (List.mem_singleton.mp hy)⟩

/-- The lists announce the neighbours of `a`, each in the message that it belongs into. -/
def Announces (a : FreqListArgs) (lists : SiPart → Octets) : Prop :=
  ∀ part arfcn, arfcn ∈ decodeFreqList (lists part) ↔ arfcn < 1024 ∧ a.bv arfcn = true ∧ a.part arfcn = part

theorem mem_baList (h : Announces a lists) (x : Nat) : x ∈ baList lists ↔ x < 1024 ∧ a.bv x = true := by
  simp only [baList,List.mem_flatMap,List.mem_filter,mem_baOrder,List.contains_iff_mem,h _ _]
  constructor
  · rintro ⟨part,-,hx,-,hbv,-⟩
    exact ⟨hx,hbv⟩
  · rintro ⟨hx,hbv⟩
    refine ⟨a.part x,?_,hx,hx,hbv,rfl⟩
    cases a.part x <;> simp

theorem baList_pairwise (h : Announces a lists) : (baList lists).Pairwise fun x y => a.before x y = true := by
  rw [baList,List.pairwise_flatMap]
  constructor
  · intro part _
    refine (baOrder_pairwise.filter _).imp_of_mem fun hx hy hlt => ?_
    simp only [List.mem_filter,List.contains_iff_mem,h _ _] at hx hy
    simp [FreqListArgs.before,hx.2.2.2,hy.2.2.2,hlt.1,hlt.2]
  · have hrank : [SiPart.plain,.bis,.ter].Pairwise fun p q => p.rank < q.rank := by decide
    refine hrank.imp fun hlt x hx y hy => ?_
    simp only [List.mem_filter,List.contains_iff_mem,h _ _] at hx hy
    simp [FreqListArgs.before,hx.2.2.2,hy.2.2.2,hlt]

theorem mem_ascending (x : Nat) : x ∈ neighList.ascending ↔ x < 1024 ∧ neighList x = true := by
  simp [Bitvec.ascending,Bitvec.bits]

theorem ascending_pairwise : neighList.ascending.Pairwise (· < ·) := List.pairwise_lt_range.filter _

theorem baList_index (h : Announces a lists) {i arfcn : Nat} (hi : (baList lists)[i]? = some arfcn) :
    i = (a.announcedBefore arfcn).length := by
  have hp := baList_pairwise h
  have hlt : i < (baList lists).length := (List.getElem?_eq_some_iff.mp hi).1
  have hlen : ((baList lists).take i).length = i := by
    rw [List.length_take]
    omega
  rw [← hlen]
  refine length_eq_of_mem_iff ((nodup_of_pairwise hp before_asymm).sublist (List.take_sublist ..))
    (List.nodup_range.filter _) fun x => ?_
  rw [mem_take_iff hp before_asymm hi,mem_baList h]
  simp [FreqListArgs.announcedBefore,Bitvec.bits,and_assoc]

theorem measRepNumCell_le (data : Nat → Nat) : measRepNumCell data ≤ 6 := by
  unfold measRepNumCell
  dsimp only
  split <;> omega

theorem parse_spec {msg : Octets} {rep rep' : MeasRep}
    (h : gsm48ParseMeasRep neighList mtRrMeasRep msg rep = some rep') :
    rep'.numCell = measRepNumCell (fun i => (msg i).toNat) ∧ ∀ k < rep'.numCell,
      (rep'.cell k).arfcn = neighList.ascending.getD (bcchFreqNcell msg k) 0 := by
  unfold gsm48ParseMeasRep at h
  rw [if_neg (by simp)] at h
  have hle := measRepNumCell_le fun i => (msg i).toNat
  cases h
  refine ⟨rfl,fun k hk => ?_⟩
  dsimp only at hk ⊢
  rw [if_pos hk,← neighIdx_eq msg (by omega)]
  unfold measRepCell bitvecGetNthSetBit
  simp only [Nat.add_sub_cancel]

def oneCell (neighIdx : Nat) : Octets := fun n =>
  if n = 3 then 0x40 else if n = 4 then BitVec.ofNat 8 (8 * neighIdx) else 0

theorem bcchFreqNcell_oneCell {i : Nat} (hi : i < 32) : bcchFreqNcell (oneCell i) 0 = i := by
  have h4 : (oneCell i 4).toNat = 8 * i := by
    rw [show oneCell i 4 = BitVec.ofNat 8 (8 * i) from rfl,BitVec.toNat_ofNat]
    omega
  rw [← neighIdx_eq _ (by omega)]
  change (oneCell i 4).toNat >>> 3 = i
  rw [h4,Nat.shiftRight_eq_div_pow]
  omega

theorem measRepNumCell_oneCell (i : Nat) : measRepNumCell (fun n => (oneCell i n).toNat) = 1 := by
  have h3 : (oneCell i 3).toNat = 0x40 := rfl
  have h2 : (oneCell i 2).toNat = 0 := rfl
  simp only [measRepNumCell,h3,h2]
  decide

theorem indicesAgree_iff : IndicesAgree neighList lists ↔
    ∀ i < 32, ∀ arfcn, (baList lists)[i]? = some arfcn → neighList.ascending.getD i 0 = arfcn := by
  constructor
  · intro h i hi arfcn hba
    have hsome : ∃ rep', gsm48ParseMeasRep neighList mtRrMeasRep (oneCell i) {} = some rep' := ⟨_,rfl⟩
    obtain ⟨rep',hrep⟩ := hsome
    have hspec := parse_spec hrep
    rw [measRepNumCell_oneCell] at hspec
    rw [← bcchFreqNcell_oneCell hi] at hba
    have hcell := hspec.2 0 (by omega)
    rw [bcchFreqNcell_oneCell hi] at hcell
    rw [← hcell]
    exact h _ _ rep' hrep 0 (by omega) arfcn hba
  · intro h msg rep rep' hrep k hk arfcn hba
    have hspec := parse_spec hrep
    have hle := measRepNumCell_le fun i => (msg i).toNat
    rw [hspec.2 k hk]
    refine h _ ?_ arfcn hba
    rw [← neighIdx_eq msg (by omega)]
    exact neighIdx_lt msg k

theorem fit_iff (h : Announces a lists) : a.IndicesFit neighList ↔
    ∀ i < 32, ∀ arfcn, (baList lists)[i]? = some arfcn →
      (arfcn ∈ neighList.ascending ∧ ∀ x, x ∈ neighList.ascending ∧ x < arfcn
        ↔ x ∈ baList lists ∧ a.before x arfcn = true)
      ∨ (arfcn = 0 ∧ 0 ∉ neighList.ascending ∧ ∀ x, x ∈ neighList.ascending
        ↔ x ∈ baList lists ∧ a.before x 0 = true) := by
  simp only [mem_ascending,mem_baList h]
  constructor
  · intro hfit i hi arfcn hba
    obtain ⟨hlt,hbv⟩ := (mem_baList h arfcn).mp (List.mem_of_getElem? hba)
    rcases hfit arfcn hlt hbv (baList_index h hba ▸ hi) with ⟨hn,hset⟩ | ⟨h0,hn,hset⟩
    · refine .inl ⟨⟨hlt,hn⟩,fun x => ?_⟩
      by_cases hx : x < 1024
      · simpa [hx] using hset x hx
      · simp [hx]
    · refine .inr ⟨h0,by simp [hn],fun x => ?_⟩
      by_cases hx : x < 1024
      · simpa [hx] using hset x hx
      · simp [hx]
  · intro hall arfcn hlt hbv hcount
    obtain ⟨i,hi⟩ := List.getElem?_of_mem ((mem_baList h arfcn).mpr ⟨hlt,hbv⟩)
    rcases hall i (baList_index h hi ▸ hcount) arfcn hi with ⟨hn,hset⟩ | ⟨h0,hn,hset⟩
    · refine .inl ⟨hn.2,fun x hx => ?_⟩
      simpa [hx] using hset x
    · refine .inr ⟨h0,by simpa using hn,fun x hx => ?_⟩
      simpa [hx] using hset x

/-- The index by which a phone reports a neighbour and the one by which it is looked up
stand for the same ARFCN if and only if both lists have the same ARFCNs before it. -/
theorem indices_agree_iff (net : NeighNetwork) (bts : NeighBts) (lists : SiPart → Octets)
    (hok : ∀ part, generateBcchChanList net bts true part = .ok (lists part))
    (hband : ∀ arfcn, 1 ≤ arfcn → arfcn ≤ 124 → net.gsmArfcn2bandRc arfcn = some .band900)
    (hrange : ∀ part, (net.freqListArgs bts true part).RangeExact)
    (hcombined : (net.freqListArgs bts true .plain).CombinedExact) :
    IndicesAgree (net.neighList bts) lists
      ↔ (net.freqListArgs bts true .plain).IndicesFit (net.neighList bts) := by
  have hann : Announces (net.freqListArgs bts true .plain) lists :=
    fun part arfcn => mem_lists_part (hok part) hband (hrange part) hcombined
  rw [indicesAgree_iff,fit_iff hann]
  exact getD_agree_iff 0 32 (baList_pairwise hann) before_asymm ascending_pairwise
    (fun _ _ hab hba => absurd hab (by omega))

end Indices

theorem indices_agree_iff_dcs : ∃ lists,
    (∀ part, generateBcchChanList { gsmArfcn2bandRc := arfcnBand } (dcsBts [600,610] false) true part
      = .ok (lists part))
    ∧ (IndicesAgree (dcsBts [600,610] false).neighList lists
      ↔ (NeighNetwork.freqListArgs { gsmArfcn2bandRc := arfcnBand } (dcsBts [600,610] false) true
        .plain).IndicesFit (dcsBts [600,610] false).neighList) := by
  have hok : ∀ part, ∃ o, generateBcchChanList { gsmArfcn2bandRc := arfcnBand } (dcsBts [600,610] false)
      true part = .ok o ∧ True := by
    intro part
    cases part <;> decide +kernel
  choose lists hlists using hok
  refine ⟨lists,fun part => (hlists part).1,
    indices_agree_iff { gsmArfcn2bandRc := arfcnBand } (dcsBts [600,610] false) lists
      (fun part => (hlists part).1) ?_ ?_ ?_⟩
  · intro arfcn _ h2
    exact if_pos (.inl h2)
  · intro part hf
    refine absurd hf ?_
    cases part <;> decide +kernel
  · intro h
    cases h

/-- Of the neighbours 5 and 600 of a DCS 1800 cell, a phone reports 600 as the first one,
and ARFCN 5 is recorded. -/
theorem other_band_recorded : ∃ lists,
    (∀ part, generateBcchChanList { gsmArfcn2bandRc := arfcnBand } (dcsBts [5,600] false) true part
      = .ok (lists part))
    ∧ ¬ IndicesAgree (NeighNetwork.neighList { gsmArfcn2bandRc := arfcnBand } (dcsBts [5,600] false))
      lists := by
  have hok : ∀ part, ∃ o, generateBcchChanList { gsmArfcn2bandRc := arfcnBand } (dcsBts [5,600] false)
      true part = .ok o ∧ (decodeFreqList o = if part = .plain then [600] else if part = .ter then [5] else []) := by
    intro part
    cases part <;> decide +kernel
  choose lists hlists using hok
  refine ⟨lists,fun part => (hlists part).1,fun h => ?_⟩
  have hba : (baList lists)[0]? = some 600 := by
    simp only [baList,(hlists _).2]
    decide +kernel
  have hget := indicesAgree_iff.mp h 0 (by omega) 600 hba
  revert hget
  decide +kernel

end OsmoBsc.Si
