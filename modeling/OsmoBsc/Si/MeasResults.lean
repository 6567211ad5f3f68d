import OsmoBsc.GsmData
import OsmoBsc.Si.MeasRep
import Mathlib
set_option autoImplicit false

/-! The Measurement Results of a phone: from the values that it writes to those that are read. -/

namespace OsmoBsc.Si

/-- `v` written to the `len` bits from bit `pos` on. -/
def Octets.put (o : Octets) (pos len v : Nat) : Octets := fun n =>
  BitVec.ofFnLE fun i : Fin 8 =>
    if pos ≤ 8 * n + (7 - i) ∧ 8 * n + (7 - i) < pos + len then
      v.testBit (len - 1 - (8 * n + (7 - i) - pos))
    else (o n).getLsbD i

structure BitField where
  pos : Nat
  len : Nat
  val : Nat

def BitField.Before (f g : BitField) : Prop := f.pos + f.len ≤ g.pos

def Octets.putAll (o : Octets) : List BitField → Octets
  | [] => o
  | f :: fs => (o.put f.pos f.len f.val).putAll fs

/-- What a phone reports on its serving cell. -/
structure ServingCell where
  baUsed : Bool
  dtxUsed : Bool
  measValid : Bool
  rxlevFull : Fin 64
  rxlevSub : Fin 64
  rxqualFull : Fin 8
  rxqualSub : Fin 8

structure NcellReport where
  rxlev : Fin 64
  bcchFreq : Fin 32
  bsic : Fin 64

def ServingCell.fields (s : ServingCell) (noNcell : Fin 8) : List BitField :=
  [BitField.mk 0 1 s.baUsed.toNat,⟨1,1,s.dtxUsed.toNat⟩,⟨2,6,s.rxlevFull⟩,⟨9,1,(!s.measValid).toNat⟩,
    ⟨10,6,s.rxlevSub⟩,⟨17,3,s.rxqualFull⟩,⟨20,3,s.rxqualSub⟩,⟨23,3,noNcell⟩]

/-- The reports from the `k`th one on, 17 bits each. -/
def ncellFields : Nat → List NcellReport → List BitField
  | _, [] => []
  | k, c :: cells => ⟨26 + 17 * k,6,c.rxlev⟩ :: ⟨32 + 17 * k,5,c.bcchFreq⟩ :: ⟨37 + 17 * k,6,c.bsic⟩
      :: ncellFields (k + 1) cells

/-- The Measurement Results with `fill` in the bits that no field takes. -/
def measurementResults (fill : Octets) (s : ServingCell) (noNcell : Fin 8) (cells : List NcellReport) : Octets :=
  fill.putAll (s.fields noNcell ++ ncellFields 0 cells)

/-- What is recorded of a report on a neighbour when the neighbours of the BTS are these. -/
def NcellReport.recorded (neighList : Bitvec) (c : NcellReport) : MeasRepCell :=
  { rxlev := c.rxlev, bsic := c.bsic, neighIdx := c.bcchFreq,
    arfcn := bitvecGetNthSetBit neighList (c.bcchFreq + 1) }

/-- A report that was `rep` has the values of the serving cell. Flags are only ever set; those of a new
report are clear. -/
structure ServingCell.Recorded (s : ServingCell) (rep rep' : MeasRep) : Prop where
  ba1 : rep'.ba1 = (rep.ba1 || s.baUsed)
  ulDtx : rep'.ulDtx = (rep.ulDtx || s.dtxUsed)
  dlValid : rep'.dlValid = (rep.dlValid || s.measValid)
  dlFullRxLev : rep'.dlFullRxLev = s.rxlevFull
  dlSubRxLev : rep'.dlSubRxLev = s.rxlevSub
  dlFullRxQual : rep'.dlFullRxQual = s.rxqualFull
  dlSubRxQual : rep'.dlSubRxQual = s.rxqualSub

section Put

variable {o : Octets} {pos len v : Nat}

theorem written_put (o : Octets) (pos len v : Nat) : Written o (o.put pos len v) pos len v := by
  have hbit : ∀ n, (o.put pos len v).bit n =
      if pos ≤ n ∧ n < pos + len then v.testBit (len - 1 - (n - pos)) else o.bit n := by
    intro n
    have hn : 8 * (n / 8) + (7 - (7 - n % 8)) = n := by omega
    rw [Octets.bit,Octets.put,BitVec.getLsbD_ofFnLE,dif_pos (by omega)]
    simp only [hn,Octets.bit]
  constructor
  · intro t ht
    rw [hbit,if_pos (by omega)]
    congr 1
    omega
  · intro n hn
    rw [hbit,if_neg (by omega)]

theorem bit_putAll (fs : List BitField) (o : Octets) {n : Nat}
    (h : ∀ f ∈ fs, n < f.pos ∨ f.pos + f.len ≤ n) : (o.putAll fs).bit n = o.bit n := by
  induction fs generalizing o with
  | nil => rfl
  | cons f fs ih =>
    simp only [Octets.putAll]
    rw [ih _ fun g hg => h g (List.mem_cons_of_mem _ hg)]
    exact (written_put o f.pos f.len f.val).outside n (h f (List.mem_cons_self ..))

theorem field_putAll {fs : List BitField} (o : Octets) (hp : fs.Pairwise BitField.Before) {f : BitField}
    (hf : f ∈ fs) (hfit : f.val < 2 ^ f.len) : (o.putAll fs).field f.pos f.len = f.val := by
  induction fs generalizing o with
  | nil => cases hf
  | cons g fs ih =>
    obtain ⟨hg,hp⟩ := List.pairwise_cons.mp hp
    simp only [Octets.putAll]
    cases hf with
    | head =>
      refine Octets.field_eq hfit fun t ht => ?_
      rw [bit_putAll fs _ fun h hh => ?_]
      · exact (written_put o f.pos f.len f.val).inside t ht
      · have hbefore : f.pos + f.len ≤ h.pos := hg h hh
        omega
    | tail _ hf => exact ih _ hp hf

theorem Octets.field_of_testBit (h : ∀ i, v.testBit i = (decide (i < len) && o.bit (pos + (len - 1 - i)))) :
    o.field pos len = v := by
  refine Octets.field_eq (Nat.lt_pow_two_of_testBit _ fun i hi => ?_) fun t ht => ?_
  · rw [h i,decide_eq_false (by omega),Bool.false_and]
  · rw [h,decide_eq_true (by omega),Bool.true_and]
    congr 1
    omega

end Put

section Parse

variable (msg : Octets)

theorem testBit_and_mask (x i : Nat) {m b : Nat} (h : m = 2 ^ b - 1) :
    (x &&& m).testBit i = (x.testBit i && decide (i < b)) := by
  rw [h,Nat.testBit_and,Nat.testBit_two_pow_sub_one]

theorem measRepFields_eq {k : Nat} (hk : k < 6) : measRepFields (fun i => (msg i).toNat) k =
    (msg.field (26 + 17 * k) 6,msg.field (32 + 17 * k) 5,msg.field (37 + 17 * k) 6) := by
  have h63 := fun x i => testBit_and_mask x i (show 0x3f = 2 ^ 6 - 1 from rfl)
  have h31 := fun x i => testBit_and_mask x i (show 0x1f = 2 ^ 5 - 1 from rfl)
  have h15 := fun x i => testBit_and_mask x i (show 0x0f = 2 ^ 4 - 1 from rfl)
  have h7 := fun x i => testBit_and_mask x i (show 0x07 = 2 ^ 3 - 1 from rfl)
  have h3 := fun x i => testBit_and_mask x i (show 0x03 = 2 ^ 2 - 1 from rfl)
  have h1 := fun x i => testBit_and_mask x i (show 0x01 = 2 ^ 1 - 1 from rfl)
  refine Prod.ext (Octets.field_of_testBit fun i => ?_).symm
    (Prod.ext (neighIdx_eq msg hk) (Octets.field_of_testBit fun i => ?_).symm)
  all_goals
    interval_cases k
    all_goals
      simp only [measRepFields,h63,h31,h15,h7,h3,h1,Nat.testBit_or,Nat.testBit_shiftLeft,Nat.testBit_shiftRight,
        testBit_octet]
      by_cases hi : i < 6
      · interval_cases i
        all_goals
          simp only [Nat.reduceLT,Nat.reduceLeDiff,Nat.reduceAdd,Nat.reduceSub,Nat.reduceMul,decide_true,
            decide_false,Bool.true_and,Bool.false_and,Bool.and_true,Bool.or_false,Bool.false_or,ge_iff_le]
      · simp [hi]
        try omega

theorem and_bit_ne_zero (x : Nat) {m k : Nat} (h : m = 2 ^ k) : (x &&& m != 0) = x.testBit k := by
  rw [h,Nat.and_two_pow]
  cases x.testBit k <;> simp

theorem noNcell_eq : ((msg 3).toNat >>> 6 &&& 0x3) ||| (((msg 2).toNat &&& 0x01) <<< 2) = msg.field 23 3 := by
  have h3 := fun x i => testBit_and_mask x i (show 0x3 = 2 ^ 2 - 1 from rfl)
  have h1 := fun x i => testBit_and_mask x i (show 0x01 = 2 ^ 1 - 1 from rfl)
  refine (Octets.field_of_testBit fun i => ?_).symm
  simp only [h3,h1,Nat.testBit_or,Nat.testBit_shiftLeft,Nat.testBit_shiftRight,testBit_octet]
  by_cases hi : i < 3
  · interval_cases i <;> simp
  · simp [hi]
    omega

theorem measRepNumCell_eq : measRepNumCell (fun i => (msg i).toNat) =
    if msg.field 23 3 < 1 ∨ 6 < msg.field 23 3 then 0 else msg.field 23 3 := by
  rw [← noNcell_eq]
  rfl

theorem parse_serving {neighList : Bitvec} {msg : Octets} {rep rep' : MeasRep}
    (h : gsm48ParseMeasRep neighList mtRrMeasRep msg rep = some rep') :
    rep'.ba1 = (rep.ba1 || msg.bit 0) ∧ rep'.ulDtx = (rep.ulDtx || msg.bit 1)
      ∧ rep'.dlValid = (rep.dlValid || !msg.bit 9)
      ∧ rep'.dlFullRxLev = msg.field 2 6 ∧ rep'.dlSubRxLev = msg.field 10 6
      ∧ rep'.dlFullRxQual = msg.field 17 3 ∧ rep'.dlSubRxQual = msg.field 20 3 := by
  have h63 := fun x i => testBit_and_mask x i (show 0x3f = 2 ^ 6 - 1 from rfl)
  have h7 := fun x i => testBit_and_mask x i (show 0x7 = 2 ^ 3 - 1 from rfl)
  have hba : ((msg 0).toNat &&& 0x80 != 0) = msg.bit 0 := by
    rw [and_bit_ne_zero _ (show 0x80 = 2 ^ 7 from rfl),testBit_octet]
    rfl
  have hdtx : ((msg 0).toNat &&& 0x40 != 0) = msg.bit 1 := by
    rw [and_bit_ne_zero _ (show 0x40 = 2 ^ 6 from rfl),testBit_octet]
    rfl
  have hvalid : ((msg 1).toNat &&& 0x40 == 0) = !msg.bit 9 := by
    rw [← Bool.not_not (_ == _),← bne,and_bit_ne_zero _ (show 0x40 = 2 ^ 6 from rfl),testBit_octet]
    rfl
  unfold gsm48ParseMeasRep at h
  rw [if_neg (by simp)] at h
  cases h
  refine ⟨by rw [hba],by rw [hdtx],by rw [hvalid],?_,?_,?_,?_⟩
  all_goals
    refine (Octets.field_of_testBit fun i => ?_).symm
    simp only [h63,h7,Nat.testBit_shiftRight,testBit_octet]
  · by_cases hi : i < 6
    · interval_cases i <;> simp
    · simp [hi]
  · by_cases hi : i < 6
    · interval_cases i <;> simp
    · simp [hi]
  · by_cases hi : i < 3
    · interval_cases i <;> simp
    · simp [hi]
  · by_cases hi : i < 3
    · interval_cases i <;> simp
    · simp [hi]

theorem parse_ncells {neighList : Bitvec} {msg : Octets} {rep rep' : MeasRep}
    (h : gsm48ParseMeasRep neighList mtRrMeasRep msg rep = some rep') :
    rep'.numCell = (if msg.field 23 3 < 1 ∨ 6 < msg.field 23 3 then 0 else msg.field 23 3)
      ∧ ∀ k < rep'.numCell, rep'.cell k =
        { rxlev := msg.field (26 + 17 * k) 6, bsic := msg.field (37 + 17 * k) 6,
          neighIdx := msg.field (32 + 17 * k) 5,
          arfcn := bitvecGetNthSetBit neighList (msg.field (32 + 17 * k) 5 + 1) } := by
  unfold gsm48ParseMeasRep at h
  rw [if_neg (by simp)] at h
  have hle := measRepNumCell_le fun i => (msg i).toNat
  cases h
  refine ⟨measRepNumCell_eq msg,fun k hk => ?_⟩
  dsimp only at hk ⊢
  rw [if_pos hk]
  unfold measRepCell
  rw [measRepFields_eq msg (by omega)]

end Parse

section RoundTrip

variable {fill : Octets} {s : ServingCell} {noNcell : Fin 8} {cells : List NcellReport}

theorem ncellFields_pos (cells : List NcellReport) (k : Nat) :
    ∀ f ∈ ncellFields k cells, 26 + 17 * k ≤ f.pos := by
  induction cells generalizing k with
  | nil => exact List.forall_mem_nil _
  | cons c cells ih =>
    simp only [ncellFields,List.forall_mem_cons]
    refine ⟨le_rfl,by omega,by omega,fun f hf => ?_⟩
    have hpos := ih (k + 1) f hf
    omega

theorem ncellFields_pairwise (cells : List NcellReport) (k : Nat) :
    (ncellFields k cells).Pairwise BitField.Before := by
  induction cells generalizing k with
  | nil => exact List.Pairwise.nil
  | cons c cells ih =>
    have hnext : ∀ f ∈ ncellFields (k + 1) cells, 43 + 17 * k ≤ f.pos := by
      intro f hf
      have hpos := ncellFields_pos cells (k + 1) f hf
      omega
    simp only [ncellFields,List.pairwise_cons,List.forall_mem_cons,BitField.Before]
    refine ⟨⟨by omega,by omega,fun f hf => ?_⟩,⟨by omega,fun f hf => ?_⟩,fun f hf => ?_,ih (k + 1)⟩
    all_goals
      have hpos := hnext f hf
      omega

theorem fields_pairwise (s : ServingCell) (noNcell : Fin 8) (cells : List NcellReport) :
    (s.fields noNcell ++ ncellFields 0 cells).Pairwise BitField.Before := by
  rw [List.pairwise_append]
  refine ⟨?_,ncellFields_pairwise cells 0,fun f hf g hg => ?_⟩
  · simp [ServingCell.fields,BitField.Before]
  · have hpos := ncellFields_pos cells 0 g hg
    have hend : ∀ f ∈ s.fields noNcell, f.pos + f.len ≤ 26 := by simp [ServingCell.fields]
    exact (hend f hf).trans hpos

theorem ncellFields_mem {cells : List NcellReport} {i : Nat} {c : NcellReport} (k : Nat) (h : cells[i]? = some c) :
    BitField.mk (26 + 17 * (k + i)) 6 c.rxlev ∈ ncellFields k cells
      ∧ BitField.mk (32 + 17 * (k + i)) 5 c.bcchFreq ∈ ncellFields k cells
      ∧ BitField.mk (37 + 17 * (k + i)) 6 c.bsic ∈ ncellFields k cells := by
  induction cells generalizing k i with
  | nil => cases h
  | cons c' cells ih =>
    cases i with
    | zero =>
      cases h
      simp [ncellFields]
    | succ i =>
      have htail := ih (k + 1) h
      rw [show k + 1 + i = k + (i + 1) by omega] at htail
      simp only [ncellFields,List.mem_cons]
      exact ⟨.inr (.inr (.inr htail.1)),.inr (.inr (.inr htail.2.1)),.inr (.inr (.inr htail.2.2))⟩

theorem field_measurementResults (fill : Octets) {f : BitField}
    (hf : f ∈ s.fields noNcell ++ ncellFields 0 cells) (hfit : f.val < 2 ^ f.len) :
    (measurementResults fill s noNcell cells).field f.pos f.len = f.val :=
  field_putAll fill (fields_pairwise s noNcell cells) hf hfit

theorem bit_eq_of_field {o : Octets} {pos : Nat} {b : Bool} (h : o.field pos 1 = b.toNat) : o.bit pos = b := by
  simp only [Octets.field,Nat.mul_zero,Nat.zero_add,Nat.add_zero] at h
  revert h
  cases o.bit pos <;> cases b <;> decide

variable {neighList : Bitvec} {rep rep' : MeasRep}

theorem serving_roundTrip
    (h : gsm48ParseMeasRep neighList mtRrMeasRep (measurementResults fill s noNcell cells) rep = some rep') :
    s.Recorded rep rep' := by
  obtain ⟨hba,hdtx,hvalid,hfull,hsub,hqfull,hqsub⟩ := parse_serving h
  have hfield : ∀ f ∈ s.fields noNcell, f.val < 2 ^ f.len →
      (measurementResults fill s noNcell cells).field f.pos f.len = f.val :=
    fun f hf hfit => field_measurementResults fill (List.mem_append_left _ hf) hfit
  simp only [ServingCell.fields,List.forall_mem_cons] at hfield
  obtain ⟨h0,h1,h2,h9,h10,h17,h20,-⟩ := hfield
  have hbit : ∀ b : Bool, b.toNat < 2 ^ 1 := by decide
  rw [bit_eq_of_field (h0 (hbit _))] at hba
  rw [bit_eq_of_field (h1 (hbit _))] at hdtx
  rw [bit_eq_of_field (h9 (hbit _)),Bool.not_not] at hvalid
  exact ⟨hba,hdtx,hvalid,hfull.trans (h2 s.rxlevFull.isLt),hsub.trans (h10 s.rxlevSub.isLt),
    hqfull.trans (h17 s.rxqualFull.isLt),hqsub.trans (h20 s.rxqualSub.isLt)⟩

theorem ncells_roundTrip
    (h : gsm48ParseMeasRep neighList mtRrMeasRep (measurementResults fill s noNcell cells) rep = some rep') :
    rep'.numCell = (if noNcell.val < 1 ∨ 6 < noNcell.val then 0 else noNcell.val)
      ∧ ∀ k < rep'.numCell, ∀ c, cells[k]? = some c → rep'.cell k = c.recorded neighList := by
  obtain ⟨hnum,hcell⟩ := parse_ncells h
  have hcount : (measurementResults fill s noNcell cells).field 23 3 = noNcell :=
    field_measurementResults fill (f := ⟨23,3,noNcell⟩) (by simp [ServingCell.fields]) noNcell.isLt
  have hfield : ∀ f ∈ ncellFields 0 cells, f.val < 2 ^ f.len →
      (measurementResults fill s noNcell cells).field f.pos f.len = f.val :=
    fun f hf hfit => field_measurementResults fill (List.mem_append_right _ hf) hfit
  rw [hcount] at hnum
  refine ⟨hnum,fun k hk c hc => ?_⟩
  obtain ⟨hlev,hidx,hbsic⟩ := ncellFields_mem 0 hc
  rw [Nat.zero_add] at hlev hidx hbsic
  rw [hcell k hk,hfield _ hlev c.rxlev.isLt,hfield _ hidx c.bcchFreq.isLt,hfield _ hbsic c.bsic.isLt]
  rfl

end RoundTrip

/-- The values of the serving cell and the reports on up to six neighbours are read as they were written;
the counts 0 and 7 stand for no report. -/
theorem measRep_roundTrip (neighList : Bitvec) (rep : MeasRep) (fill : Octets) (s : ServingCell)
    (cells : List NcellReport) (hn : cells.length ≤ 6) :
    (∃ rep', gsm48ParseMeasRep neighList mtRrMeasRep
          (measurementResults fill s ⟨cells.length,by omega⟩ cells) rep = some rep'
      ∧ s.Recorded rep rep' ∧ rep'.numCell = cells.length
      ∧ (List.range rep'.numCell).map rep'.cell = cells.map (NcellReport.recorded neighList))
    ∧ ∀ noNcell : Fin 8, noNcell = 0 ∨ noNcell = 7 →
      ∃ rep', gsm48ParseMeasRep neighList mtRrMeasRep (measurementResults fill s noNcell cells) rep = some rep'
        ∧ s.Recorded rep rep' ∧ rep'.numCell = 0 := by
  constructor
  · have hparse : ∃ rep', gsm48ParseMeasRep neighList mtRrMeasRep
        (measurementResults fill s ⟨cells.length,by omega⟩ cells) rep = some rep' := ⟨_,rfl⟩
    obtain ⟨rep',hrep⟩ := hparse
    obtain ⟨hnum,hcell⟩ := ncells_roundTrip hrep
    have hlen : rep'.numCell = cells.length := by
      rw [hnum]
      dsimp only
      split <;> omega
    refine ⟨rep',hrep,serving_roundTrip hrep,hlen,List.ext_getElem (by simp [hlen]) fun k hk hk' => ?_⟩
    rw [List.length_map] at hk'
    rw [List.getElem_map,List.getElem_map,List.getElem_range]
    exact hcell k (by omega) _ (List.getElem?_eq_getElem hk')
  · intro noNcell hcount
    have hparse : ∃ rep', gsm48ParseMeasRep neighList mtRrMeasRep
        (measurementResults fill s noNcell cells) rep = some rep' := ⟨_,rfl⟩
    obtain ⟨rep',hrep⟩ := hparse
    refine ⟨rep',hrep,serving_roundTrip hrep,?_⟩
    rw [(ncells_roundTrip hrep).1]
    obtain rfl | rfl := hcount <;> rfl

def sixNcells : List NcellReport := List.replicate 6 ⟨63,31,63⟩

def strongCell : ServingCell := ⟨true,false,true,63,62,0,7⟩

theorem measRep_roundTrip_six :
    (∃ rep', gsm48ParseMeasRep (fun _ => true) mtRrMeasRep
          (measurementResults (fun _ => 0xff) strongCell 6 sixNcells) {} = some rep'
      ∧ strongCell.Recorded {} rep' ∧ rep'.numCell = 6
      ∧ (List.range rep'.numCell).map rep'.cell = sixNcells.map (NcellReport.recorded fun _ => true))
    ∧ ∀ noNcell : Fin 8, noNcell = 0 ∨ noNcell = 7 →
      ∃ rep', gsm48ParseMeasRep (fun _ => true) mtRrMeasRep
          (measurementResults (fun _ => 0xff) strongCell noNcell sixNcells) {} = some rep'
        ∧ strongCell.Recorded {} rep' ∧ rep'.numCell = 0 :=
  measRep_roundTrip (fun _ => true) {} (fun _ => 0xff) strongCell sixNcells (by decide)

end OsmoBsc.Si
