import Mathlib.Algebra.Order.BigOperators.Group.List
import OsmoBsc.Lib.Scan
import OsmoBsc.Rsl.MeasRes
set_option autoImplicit false

/-! Handover algorithm 1: when a measurement report leads to a handover, and to which cell. -/

namespace OsmoBsc.Rsl
open Hodec (calcInitialIdx ring_place)

/-- The loop of meas_rep_n_out_of_m_be(). -/
def countBe (n : Nat) (be : Int) : List Int → Nat → Bool
  | [],_ => false
  | val :: vals,count =>
    let count := if be ≤ val then count + 1 else count
    if n ≤ count then true else countBe n be vals count

def measRepNOutOfMBe (lchan : MeasLchan) (field : MeasRepField) (n m : Nat) (be : Int) : Bool :=
  let idx := calcInitialIdx 10 lchan.measRepIdx m
  countBe n be ((List.range m).map fun i =>
    getField (lchan.measRep (Fin.ofNat 10 ((idx + i) % 2 ^ 32))) field) 0

section Last

variable {lchan : MeasLchan} {reps : List GsmMeasRep}

/-- The ring has the accepted reports behind some that tell nothing of the downlink. -/
def Behind (lchan : MeasLchan) (reps : List GsmMeasRep) : Prop :=
  ∃ old : List GsmMeasRep, (∀ rep ∈ old, rep.dlValid = false) ∧ 10 ≤ old.length
    ∧ Ring.Holds lchan.measRep (old ++ reps) ∧ lchan.measRepIdx = (old ++ reps).length % 10
    ∧ lchan.measRepCount = reps.length

theorem behind_fresh : Behind {} [] := by
  refine ⟨List.replicate 10 {},by simp,by simp,fun n rep hn _ => ?_,by simp,rfl⟩
  rw [List.append_nil,List.getElem?_replicate] at hn
  split at hn
  · cases hn
    rfl
  · cases hn

theorem Behind.step {e : MeasResEvent} (h : Behind lchan reps)
    (hgood : lchan.measRepCount = 0 ∨ e.accepted.isSome = true) :
    Behind (rslRxMeasRes lchan e).2 (reps ++ e.accepted.toList) := by
  obtain ⟨old,hold,hlen,hring,hidx,hcount⟩ := h
  obtain ⟨rep,ta,hacc,hstep⟩ | ⟨left,ta,hacc,hleft,hstep⟩ := rslRxMeasRes_cases lchan e
  · rw [hacc,hstep]
    refine ⟨old,hold,hlen,?_,?_,?_⟩
    · have hpush := hring.push rep
      rw [List.append_assoc,← ofNat_idx,← hidx] at hpush
      exact hpush
    · rw [Option.toList_some,← List.append_assoc,List.length_append,List.length_singleton,hidx]
      dsimp only
      omega
    · rw [Option.toList_some,List.length_append,List.length_singleton,hcount]
  · have hnil : reps = [] := by
      obtain h0 | hsome := hgood
      · exact List.eq_nil_of_length_eq_zero (hcount.symm.trans h0)
      · rw [hacc] at hsome
        cases hsome
    subst hnil
    rw [List.append_nil] at hring hidx
    rw [hacc,hstep,Option.toList_none,List.append_nil]
    refine ⟨old ++ [left],?_,?_,?_,?_,hcount⟩
    · intro rep hrep
      rcases List.mem_append.mp hrep with h | h
      · exact hold rep h
      · rw [List.mem_singleton.mp h,hleft]
    · rw [List.length_append]
      omega
    · have hpush := hring.push left
      rw [← ofNat_idx,← hidx] at hpush
      rw [List.append_nil]
      exact hpush
    · rw [List.append_nil,List.length_append,List.length_singleton,hidx]
      dsimp only
      omega

theorem Behind.kept (h : Behind lchan reps) : Kept lchan reps := by
  obtain ⟨old,-,-,hring,hidx,hcount⟩ := h
  exact ⟨old,hring,hidx,hcount⟩

theorem countBe_iff {n count : Nat} {be : Int} (vals : List Int) (h : count < n) :
    countBe n be vals count = true ↔ n ≤ count + vals.countP fun val => be ≤ val := by
  induction vals generalizing count with
  | nil =>
    rw [countBe,List.countP_nil]
    exact iff_of_false Bool.false_ne_true (by omega)
  | cons val vals ih =>
    simp only [countBe,List.countP_cons,decide_eq_true_eq]
    by_cases hval : be ≤ val
    · rw [if_pos hval,if_pos hval]
      split
      · exact iff_of_true rfl (by omega)
      · rw [ih (by omega)]
        omega
    · rw [if_neg hval,if_neg hval,if_neg (by omega),ih h]
      omega

/-- The last values of a field of the downlink are those of the accepted reports. -/
theorem Behind.nOutOfM (h : Behind lchan reps) {field : MeasRepField} {n m : Nat} {be : Int}
    (hfield : ∀ rep : GsmMeasRep, rep.dlValid = false → getField rep field < be) (hn : 0 < n) (hm : m ≤ 10) :
    measRepNOutOfMBe lchan field n m be = true ↔
      n ≤ (reps.drop (reps.length - m)).countP fun rep => be ≤ getField rep field := by
  obtain ⟨old,hold,hlen,hring,hidx,-⟩ := h
  have hle : m ≤ (old ++ reps).length := by
    rw [List.length_append]
    omega
  have hvals : ((List.range m).map fun i =>
      getField (lchan.measRep (Fin.ofNat 10 ((calcInitialIdx 10 lchan.measRepIdx m + i) % 2 ^ 32))) field)
      = ((old ++ reps).drop ((old ++ reps).length - m)).map fun rep => getField rep field := by
    rw [← hring.window hle hm,List.map_map,hidx]
    refine List.map_congr_left fun i hi => ?_
    rw [ring_place hm hle (List.mem_range.mp hi)]
    rfl
  have hdrop : (old ++ reps).length - m - old.length = reps.length - m := by
    rw [List.length_append]
    omega
  have hnone : (old.drop ((old ++ reps).length - m)).countP (fun rep => decide (be ≤ getField rep field)) = 0 := by
    rw [List.countP_eq_zero]
    intro rep hrep
    have hlt := hfield rep (hold rep (List.mem_of_mem_drop hrep))
    simpa using hlt
  rw [measRepNOutOfMBe,hvals,countBe_iff _ hn,List.countP_map,List.drop_append,hdrop,List.countP_append]
  simp only [Function.comp_def] at hnone ⊢
  rw [hnone,Nat.zero_add,Nat.zero_add]

end Last

theorem acceptedReports_cons (e : MeasResEvent) (es : List MeasResEvent) :
    acceptedReports (e :: es) = e.accepted.toList ++ acceptedReports es := by
  rw [acceptedReports,List.filterMap_cons]
  cases e.accepted <;> rfl

theorem NoneLost.right {n : Nat} {pre post : List MeasResEvent} (h : NoneLost n (pre ++ post)) :
    NoneLost (n + (acceptedReports pre).length) post := by
  induction pre generalizing n with
  | nil => exact h
  | cons e pre ih =>
    rw [acceptedReports_cons,List.length_append,← Nat.add_assoc]
    exact ih h.2

end OsmoBsc.Rsl

namespace OsmoBsc.Hodec.One
open EventFsm
open Rsl (GsmMeasRep measRepNOutOfMBe)

/-- What algorithm 1 reads of the handover configuration of a BTS. -/
structure HandoverCfg where
  algorithm : Nat
  hoActive : Bool
  rxlevAvgWin : Nat
  rxlevNeighAvgWin : Nat
  pwrInterval : Nat
  pwrHysteresis : Nat
  maxDistance : Nat
  deriving DecidableEq, Repr

structure HandoverCfg.Valid (cfg : HandoverCfg) : Prop where
  rxlevAvgWin : 1 ≤ cfg.rxlevAvgWin ∧ cfg.rxlevAvgWin ≤ 10
  rxlevNeighAvgWin : 1 ≤ cfg.rxlevNeighAvgWin ∧ cfg.rxlevNeighAvgWin ≤ 10
  pwrInterval : 1 ≤ cfg.pwrInterval ∧ cfg.pwrInterval ≤ 99
  pwrHysteresis : cfg.pwrHysteresis ≤ 999

/-- One turn of the loop that looks for the best neighbour; the comparisons are those of
`unsigned int`. -/
def betterCell (cfg : HandoverCfg) (rxLev : Nat) (neighMeas : NeighMeas) (best : Option (Fin 10) × Nat)
    (i : Fin 10) : Option (Fin 10) × Nat :=
  let nmp := neighMeas i
  if nmp.arfcn = 0 then best
  else
    let avg := neighMeasAvg nmp cfg.rxlevNeighAvgWin
    if asUnsigned avg < asUnsigned (rxLev + cfg.pwrHysteresis) then best
    else
      let better := avg - rxLev
      if best.2 < asUnsigned better then (some i,asUnsigned better) else best

def bestCell (cfg : HandoverCfg) (rxLev : Nat) (neighMeas : NeighMeas) : Option (Fin 10) :=
  ((List.finRange 10).foldl (betterCell cfg rxLev neighMeas) (none,0)).1

/-- The ARFCN and the BSIC that handover_request() is called with. -/
def attemptHandover (cfg : HandoverCfg) (neighMeas : NeighMeas) (mr : GsmMeasRep) : Option CellId :=
  if !cfg.hoActive then none
  else (bestCell cfg mr.dlFullRxLev neighMeas).map fun i => (neighMeas i).id

/-- The cells of a report, as far as they count. -/
def cellsOf (mr : GsmMeasRep) : Received := received mr.nr mr.toMeasRep

/-- The field of the downlink that counts: of the subset when the BTS used DTX. -/
def dlField (mr : GsmMeasRep) (full sub : Rsl.MeasRepField) : Rsl.MeasRepField :=
  if mr.dlDtx then sub else full

/-- The causes in on_measurement_report(): interference, bad quality, low level, distance and the power
budget, for whose interval there is an assertion. -/
def hasCause (rxlev2dbm : UInt8 → Int) (cfg : HandoverCfg) (lchan : Rsl.MeasLchan) (mr : GsmMeasRep) :
    Except Fault Bool :=
  let avRxlev := rxlev2dbm (.ofInt (Rsl.getMeasRepAvg lchan (dlField mr .dlRxlevFull .dlRxlevSub) cfg.rxlevAvgWin))
  let badQuality := measRepNOutOfMBe lchan (dlField mr .dlRxqualFull .dlRxqualSub) 3 4 5
  if -85 < avRxlev ∧ badQuality = true then .ok true
  else if badQuality then .ok true
  else if avRxlev ≤ -110 then .ok true
  else if cfg.maxDistance < mr.msL1Ta then .ok true
  else if cfg.pwrInterval = 0 then .error .assertFailed
  else .ok (mr.nr.toNat % cfg.pwrInterval = cfg.pwrInterval - 1)

/-- on_measurement_report() takes the neighbours of a report into the table if it has one to six. -/
def takeNeighbours (neighMeas : NeighMeas) (mr : GsmMeasRep) : Except Fault NeighMeas :=
  if 0 < mr.numCell ∧ mr.numCell < 7 then (·.1) <$> processMeasNeigh neighMeas (cellsOf mr).report
  else .ok neighMeas

/-- on_measurement_report(): the table of neighbours after it, and the cell to which a handover is
requested. -/
def onMeasurementReport (rxlev2dbm : UInt8 → Int) (cfg : HandoverCfg) (type : ChanT) (lchan : Rsl.MeasLchan)
    (neighMeas : NeighMeas) (mr : GsmMeasRep) : Except Fault (NeighMeas × Option CellId) :=
  if cfg.algorithm ≠ 1 then .ok (neighMeas,none)
  else match type with
  | .tchF | .tchH => do
    let neighMeas ← takeNeighbours neighMeas mr
    let cause ← hasCause rxlev2dbm cfg lchan mr
    return (neighMeas,if cause then attemptHandover cfg neighMeas mr else none)
  | _ => .ok (neighMeas,none)

/-- An lchan with a call, as far as measurement reports change it. -/
structure Serving where
  type : ChanT
  lchan : Rsl.MeasLchan := {}
  neighMeas : NeighMeas := freshNeighMeas

structure Input where
  cfg : HandoverCfg
  event : Rsl.MeasResEvent

/-- A MEASUREMENT RESULT comes in; an accepted one is signalled to the handover decision. -/
def rxMeasRes (rxlev2dbm : UInt8 → Int) (s : Serving) (i : Input) : Except Fault (Serving × Option CellId) := do
  let lchan := (Rsl.rslRxMeasRes s.lchan i.event).2
  match i.event.accepted with
  | none => return ({ s with lchan },none)
  | some mr =>
    let (neighMeas,target) ← onMeasurementReport rxlev2dbm i.cfg s.type lchan s.neighMeas mr
    return ({ s with lchan, neighMeas },target)

def servingStep (rxlev2dbm : UInt8 → Int) (s : Serving) (i : Input) : Except Fault Serving := do
  let (s,_) ← rxMeasRes rxlev2dbm s i
  return s

def nearReports (reps : List GsmMeasRep) : List Received :=
  (reps.filter fun mr => 0 < mr.numCell).map cellsOf

def meanLevel (cfg : HandoverCfg) (reps : List GsmMeasRep) (id : CellId) : Nat :=
  lastMean cfg.rxlevNeighAvgWin (levels (nearReports reps) id)

def Better (cfg : HandoverCfg) (reps : List GsmMeasRep) (mr : GsmMeasRep) (id : CellId) : Prop :=
  id ∈ idsOf (nearReports reps) ∧ mr.dlFullRxLev + cfg.pwrHysteresis ≤ meanLevel cfg reps id
    ∧ mr.dlFullRxLev < meanLevel cfg reps id

/-- The causes of a handover: bad quality, low level, distance and the power budget. -/
def Cause (rxlev2dbm : UInt8 → Int) (cfg : HandoverCfg) (reps : List GsmMeasRep) (mr : GsmMeasRep) : Prop :=
  3 ≤ (reps.drop (reps.length - 4)).countP
      (fun rep => 5 ≤ Rsl.getField rep (dlField mr .dlRxqualFull .dlRxqualSub))
    ∨ rxlev2dbm (.ofInt (if reps.length < cfg.rxlevAvgWin then -eInval
        else Rsl.meanOf (dlField mr .dlRxlevFull .dlRxlevSub) (reps.drop (reps.length - cfg.rxlevAvgWin)))) ≤ -110
    ∨ cfg.maxDistance < mr.msL1Ta
    ∨ mr.nr.toNat % cfg.pwrInterval = cfg.pwrInterval - 1

section Best

variable {cfg : HandoverCfg} {rxLev : Nat} {neighMeas : NeighMeas}

/-- An entry is in use and its cell that much better than the serving one. -/
def eligible (cfg : HandoverCfg) (rxLev : Nat) (neighMeas : NeighMeas) (i : Fin 10) : Bool :=
  (neighMeas i).arfcn ≠ 0 ∧ ¬ asUnsigned (neighMeasAvg (neighMeas i) cfg.rxlevNeighAvgWin)
    < asUnsigned (rxLev + cfg.pwrHysteresis)

def gain (cfg : HandoverCfg) (rxLev : Nat) (neighMeas : NeighMeas) (i : Fin 10) : Nat :=
  asUnsigned (neighMeasAvg (neighMeas i) cfg.rxlevNeighAvgWin - rxLev)

theorem betterCell_foldl (is : List (Fin 10)) (best : Option (Fin 10)) (top : Nat) :
    (is.foldl (betterCell cfg rxLev neighMeas) (best,top)).1
      = Scan.keepBest (eligible cfg rxLev neighMeas) (gain cfg rxLev neighMeas) is best top := by
  induction is generalizing best top with
  | nil => rfl
  | cons i is ih =>
    rw [List.foldl_cons,Scan.keepBest,betterCell]
    dsimp only
    by_cases hused : (neighMeas i).arfcn = 0
    · rw [if_pos hused,ih,if_neg (by simp [eligible,hused])]
    · rw [if_neg hused]
      by_cases hweak : asUnsigned (neighMeasAvg (neighMeas i) cfg.rxlevNeighAvgWin)
          < asUnsigned (rxLev + cfg.pwrHysteresis)
      · rw [if_pos hweak,ih,if_neg (by simp [eligible,hweak])]
      · have hfold : asUnsigned (neighMeasAvg (neighMeas i) cfg.rxlevNeighAvgWin - rxLev)
            = gain cfg rxLev neighMeas i := rfl
        rw [if_neg hweak,hfold]
        by_cases hgain : top < gain cfg rxLev neighMeas i
        · rw [if_pos hgain,ih,if_pos (by simpa [eligible,hused,hgain] using hweak)]
        · rw [if_neg hgain,ih,if_neg (by simp [hgain])]

theorem asUnsigned_natCast {n : Nat} (h : n < 2 ^ 32) : asUnsigned n = n := by
  rw [asUnsigned]
  omega

/-- The loop ends with the best of the cells that are that much better than the serving cell. -/
theorem bestCell_spec {avg : Fin 10 → Nat} (havg : ∀ i, (neighMeas i).arfcn ≠ 0 →
      neighMeasAvg (neighMeas i) cfg.rxlevNeighAvgWin = avg i ∧ avg i < 2 ^ 32)
    (hsum : rxLev + cfg.pwrHysteresis < 2 ^ 32) :
    let ok := fun i => (neighMeas i).arfcn ≠ 0 ∧ rxLev + cfg.pwrHysteresis ≤ avg i ∧ rxLev < avg i
    (bestCell cfg rxLev neighMeas = none ∧ ∀ i, ¬ ok i)
      ∨ ∃ i, bestCell cfg rxLev neighMeas = some i ∧ ok i ∧ ∀ j, ok j → avg j ≤ avg i := by
  have heligible : ∀ i, eligible cfg rxLev neighMeas i = true ↔
      (neighMeas i).arfcn ≠ 0 ∧ rxLev + cfg.pwrHysteresis ≤ avg i := by
    intro i
    rw [eligible,decide_eq_true_eq]
    refine and_congr_right fun hused => ?_
    obtain ⟨heq,hlt⟩ := havg i hused
    have hcast : ((rxLev : Int) + cfg.pwrHysteresis) = (rxLev + cfg.pwrHysteresis : Nat) := by omega
    rw [heq,asUnsigned_natCast hlt,hcast,asUnsigned_natCast hsum,not_lt]
  have hgain : ∀ i, eligible cfg rxLev neighMeas i = true → gain cfg rxLev neighMeas i = avg i - rxLev := by
    intro i hi
    obtain ⟨hused,hle⟩ := (heligible i).mp hi
    obtain ⟨heq,hlt⟩ := havg i hused
    have hcast : ((avg i : Int) - rxLev) = (avg i - rxLev : Nat) := by omega
    rw [gain,heq,hcast,asUnsigned_natCast (by omega)]
  intro ok
  have hok : ∀ i, ok i → eligible cfg rxLev neighMeas i = true := fun i h => (heligible i).mpr ⟨h.1,h.2.1⟩
  rw [bestCell,betterCell_foldl]
  rcases Scan.keepBest_spec (List.finRange 10) none 0 with ⟨heq,hall⟩ | ⟨i,-,heq,hel,hpos,hall⟩
  · refine .inl ⟨heq,fun i hi => ?_⟩
    have h0 := hall i (List.mem_finRange i) (hok i hi)
    rw [hgain i (hok i hi)] at h0
    have hlt := hi.2.2
    omega
  · rw [hgain i hel] at hpos
    obtain ⟨hused,hle⟩ := (heligible i).mp hel
    refine .inr ⟨i,heq,⟨hused,hle,by omega⟩,fun j hj => ?_⟩
    have hle' := hall j (List.mem_finRange j) (hok j hj)
    rw [hgain j (hok j hj),hgain i hel] at hle'
    have hlt := hj.2.2
    omega

end Best

section Levels

theorem fields_lt {x m s y t : Nat} (hm : m * 2 ^ s < 2 ^ 6) (hy : y < 256) (ht : 2 ≤ t) :
    ((x &&& m) <<< s) ||| (y >>> t) < 2 ^ 6 := by
  have hpow : 2 ^ 2 ≤ 2 ^ t := Nat.pow_le_pow_right (by decide) ht
  refine Nat.or_lt_two_pow ?_ ?_
  · rw [Nat.shiftLeft_eq]
    exact (Nat.mul_le_mul_right _ Nat.and_le_right).trans_lt hm
  · rw [Nat.shiftRight_eq_div_pow]
    exact (Nat.div_le_div_left hpow (by decide)).trans_lt (by omega)

theorem measRepFields_rxlev (msg : Si.Octets) (k : Nat) :
    (Si.measRepFields (fun i => (msg i).toNat) k).1 < 2 ^ 6 := by
  have hoctet : ∀ i, (msg i).toNat < 256 := fun i => (msg i).isLt
  unfold Si.measRepFields
  split
  · exact Nat.and_le_right.trans_lt (by decide)
  all_goals exact fields_lt (by decide) (hoctet _) (by decide)

structure SixBit (mr : GsmMeasRep) : Prop where
  serving : mr.dlFullRxLev < 64
  numCell : mr.numCell < 7
  cell : ∀ k < mr.numCell, (mr.cell k).rxlev < 64

theorem accepted_sixBit {e : Rsl.MeasResEvent} {mr : GsmMeasRep} (h : e.accepted = some mr) : SixBit mr := by
  have hempty : ∀ mr : GsmMeasRep, mr.toMeasRep = {} → SixBit mr := by
    intro mr hdown
    constructor <;> rw [hdown]
    · decide
    · decide
    · exact fun k hk => absurd hk (Nat.not_lt_zero k)
  unfold Rsl.MeasResEvent.accepted at h
  split at h
  · cases h
  · split at h
    · rename_i nr val bsPower _ _ _
      have hdown := (Rsl.fillMeasRep_down e nr val bsPower).1
      dsimp only at h
      split at h
      · cases h
        exact hempty _ hdown
      · rename_i msgType data _
        rw [hdown,Option.map_eq_some_iff] at h
        obtain ⟨rep,hparse,rfl⟩ := h
        unfold Si.gsm48ParseMeasRep at hparse
        split at hparse
        · cases hparse
        · cases hparse
          refine ⟨Nat.and_le_right.trans_lt (by decide),?_,fun k hk => ?_⟩
          · dsimp only [Si.measRepNumCell]
            split <;> omega
          · dsimp only at hk ⊢
            rw [if_pos hk]
            exact measRepFields_rxlev data k
    · cases h

theorem mem_nearReports {reps : List GsmMeasRep} {r : Received} (h : r ∈ nearReports reps) :
    ∃ mr ∈ reps, r = cellsOf mr := by
  obtain ⟨mr,hmr,rfl⟩ := List.mem_map.mp h
  exact ⟨mr,List.mem_of_mem_filter hmr,rfl⟩

theorem level_lt {reps : List GsmMeasRep} (h : ∀ mr ∈ reps, SixBit mr) {r : Received} (hr : r ∈ nearReports reps)
    (id : CellId) : r.level id ≤ 63 := by
  obtain ⟨mr,hmr,rfl⟩ := mem_nearReports hr
  rw [Received.level]
  cases hfind : (cellsOf mr).cell.find? fun c => cellId c = id with
  | none => exact Nat.zero_le _
  | some c =>
    obtain ⟨k,hk,rfl⟩ := List.mem_map.mp (List.mem_of_find?_eq_some hfind)
    exact Nat.le_of_lt_succ ((h mr hmr).cell k (List.mem_range.mp hk))

theorem meanLevel_le {reps : List GsmMeasRep} (h : ∀ mr ∈ reps, SixBit mr) (cfg : HandoverCfg) (id : CellId) :
    meanLevel cfg reps id ≤ 63 := by
  rw [meanLevel,lastMean]
  generalize hn : min cfg.rxlevNeighAvgWin (levels (nearReports reps) id).length = n
  have hsum := List.sum_le_card_nsmul ((levels (nearReports reps) id).drop
    ((levels (nearReports reps) id).length - n)) 63 fun v hv => by
      obtain ⟨r,hr,rfl⟩ := List.mem_map.mp (List.mem_of_mem_drop hv)
      exact level_lt h ((List.dropWhile_sublist _).subset hr) id
  rw [List.length_drop,smul_eq_mul] at hsum
  refine Nat.div_le_of_le_mul (hsum.trans (Nat.mul_le_mul_right _ ?_))
  omega

end Levels

section Decision

variable {cfg : HandoverCfg} {type : ChanT} {lchan : Rsl.MeasLchan}
  {neighMeas neighMeas' : NeighMeas} {reps : List GsmMeasRep} {mr : GsmMeasRep}

theorem avgOf_behind (h : Rsl.Behind lchan reps) (hcfg : cfg.Valid) (field : Rsl.MeasRepField) :
    Rsl.getMeasRepAvg lchan field cfg.rxlevAvgWin = if reps.length < cfg.rxlevAvgWin then -eInval
      else Rsl.meanOf field (reps.drop (reps.length - cfg.rxlevAvgWin)) := by
  obtain ⟨hpos,hle⟩ := hcfg.rxlevAvgWin
  split
  · rename_i hfew
    obtain ⟨-,-,-,-,-,hcount⟩ := h
    rw [Rsl.getMeasRepAvg,if_neg (by omega),if_pos (by omega)]
  · exact h.kept.averages field cfg.rxlevAvgWin hpos (by omega) hle

theorem hasCause_iff (rxlev2dbm : UInt8 → Int) (mr : GsmMeasRep) (hcfg : cfg.Valid) (hring : Rsl.Behind lchan reps) :
    ∃ cause, hasCause rxlev2dbm cfg lchan mr = .ok cause ∧ (cause = true ↔ Cause rxlev2dbm cfg reps mr) := by
  have hqual : measRepNOutOfMBe lchan (dlField mr .dlRxqualFull .dlRxqualSub) 3 4 5 = true ↔
      3 ≤ (reps.drop (reps.length - 4)).countP
        fun rep => 5 ≤ Rsl.getField rep (dlField mr .dlRxqualFull .dlRxqualSub) := by
    refine hring.nOutOfM (fun rep hrep => ?_) (by decide) (by decide)
    unfold dlField
    split <;> simp [Rsl.getField,hrep,eInval]
  have hint : cfg.pwrInterval ≠ 0 := by
    have h := hcfg.pwrInterval.1
    omega
  rw [hasCause,Cause,← hqual,← avgOf_behind hring hcfg]
  generalize rxlev2dbm _ = level
  by_cases hbad : measRepNOutOfMBe lchan (dlField mr .dlRxqualFull .dlRxqualSub) 3 4 5 = true
  · refine ⟨true,?_,iff_of_true rfl (.inl hbad)⟩
    rw [if_pos hbad]
    exact ite_self _
  rw [if_neg fun h => hbad h.2,if_neg hbad,or_iff_right hbad]
  by_cases hlevel : level ≤ -110
  · exact ⟨true,if_pos hlevel,iff_of_true rfl (.inl hlevel)⟩
  rw [if_neg hlevel,or_iff_right hlevel]
  by_cases hfar : cfg.maxDistance < mr.msL1Ta
  · exact ⟨true,if_pos hfar,iff_of_true rfl (.inl hfar)⟩
  rw [if_neg hfar,or_iff_right hfar,if_neg hint]
  exact ⟨_,rfl,decide_eq_true_iff⟩

/-- The reports are such that the table of neighbours has an entry for each cell. -/
structure Tame (reps : List GsmMeasRep) : Prop where
  clean : ∀ r ∈ nearReports reps, Clean r
  few : (idsOf (nearReports reps)).dedup.length ≤ 10
  short : reps.length < 2 ^ 32

/-- An lchan after the reports `reps`. -/
structure Follows (type : ChanT) (reps : List GsmMeasRep) (s : Serving) : Prop where
  type : s.type = type
  ring : Rsl.Behind s.lchan reps
  sixBit : ∀ mr ∈ reps, SixBit mr
  table : Keeps (idsOf (nearReports reps)).toFinset (levels (nearReports reps)) s.neighMeas

theorem follows_fresh (type : ChanT) : Follows type [] { type } where
  type := rfl
  ring := Rsl.behind_fresh
  sixBit := by simp
  table := keeps_fresh _

theorem length_nearReports_le (reps : List GsmMeasRep) : (nearReports reps).length ≤ reps.length := by
  rw [nearReports,List.length_map]
  exact List.length_filter_le _ _

theorem Tame.left {reps' : List GsmMeasRep} (h : Tame (reps ++ reps')) : Tame reps := by
  have hsplit : nearReports (reps ++ reps') = nearReports reps ++ nearReports reps' := by
    rw [nearReports,List.filter_append,List.map_append]
    rfl
  have hsub : (idsOf (nearReports reps)).toFinset ⊆ (idsOf (nearReports (reps ++ reps'))).toFinset := by
    intro id
    rw [hsplit]
    simp only [List.mem_toFinset,idsOf,List.flatMap_append,List.mem_append]
    exact Or.inl
  refine ⟨fun r hr => h.clean r ?_,?_,?_⟩
  · rw [hsplit]
    exact List.mem_append_left _ hr
  · have hcard := Finset.card_le_card hsub
    rw [List.card_toFinset,List.card_toFinset] at hcard
    exact hcard.trans h.few
  · have hlen := h.short
    rw [List.length_append] at hlen
    omega

/-- A handover goes to the best of the cells that are that much better, if there is one. -/
structure Decided (cfg : HandoverCfg) (reps : List GsmMeasRep) (mr : GsmMeasRep) (attempt : Prop)
    (target : Option CellId) : Prop where
  best : ∀ id, target = some id → attempt ∧ Better cfg reps mr id
    ∧ ∀ id', Better cfg reps mr id' → meanLevel cfg reps id' ≤ meanLevel cfg reps id
  none : target = none → attempt → ∀ id, ¬ Better cfg reps mr id

theorem attemptHandover_decided (hcfg : cfg.Valid) (hsix : ∀ mr ∈ reps, SixBit mr) (hmr : SixBit mr)
    (htame : Tame reps) (htable : Keeps (idsOf (nearReports reps)).toFinset (levels (nearReports reps)) neighMeas) :
    Decided cfg reps mr (cfg.hoActive = true) (attemptHandover cfg neighMeas mr) := by
  have htracked := htable.tracked ((length_nearReports_le reps).trans_lt htame.short)
  have havg : ∀ i, (neighMeas i).arfcn ≠ 0 → neighMeasAvg (neighMeas i) cfg.rxlevNeighAvgWin
      = meanLevel cfg reps (neighMeas i).id ∧ meanLevel cfg reps (neighMeas i).id < 2 ^ 32 := by
    intro i hi
    obtain ⟨j,hj,hone,hmean⟩ := htracked _ (List.mem_toFinset.mp (htable.used i hi))
    obtain rfl := hone i rfl
    have hle := meanLevel_le hsix cfg (neighMeas i).id
    exact ⟨hmean _ hcfg.rxlevNeighAvgWin.2,by omega⟩
  have hsum : mr.dlFullRxLev + cfg.pwrHysteresis < 2 ^ 32 := by
    have h1 := hmr.serving
    have h2 := hcfg.pwrHysteresis
    omega
  have hbetter : ∀ id, Better cfg reps mr id ↔ ∃ i, (neighMeas i).id = id ∧ (neighMeas i).arfcn ≠ 0
      ∧ mr.dlFullRxLev + cfg.pwrHysteresis ≤ meanLevel cfg reps (neighMeas i).id
      ∧ mr.dlFullRxLev < meanLevel cfg reps (neighMeas i).id := by
    intro id
    constructor
    · rintro ⟨hid,hle,hlt⟩
      have hid' := List.mem_toFinset.mpr hid
      obtain ⟨i,rfl,-⟩ := htable.all id hid'
      exact ⟨i,rfl,htable.proper _ hid',hle,hlt⟩
    · rintro ⟨i,rfl,hused,hle,hlt⟩
      exact ⟨List.mem_toFinset.mp (htable.used i hused),hle,hlt⟩
  unfold attemptHandover
  cases hactive : cfg.hoActive with
  | false => exact ⟨nofun,nofun⟩
  | true =>
    rcases bestCell_spec havg hsum with
      ⟨hbest,hnone⟩ | ⟨i,hbest,hok,hmax⟩
    · rw [hbest]
      refine ⟨nofun,fun _ _ id hb => ?_⟩
      obtain ⟨i,-,hok⟩ := (hbetter id).mp hb
      exact hnone i hok
    · rw [hbest]
      refine ⟨fun id hid => ?_,nofun⟩
      cases hid
      refine ⟨rfl,(hbetter _).mpr ⟨i,rfl,hok⟩,fun id' hb => ?_⟩
      obtain ⟨j,rfl,hj⟩ := (hbetter id').mp hb
      exact hmax j hj

theorem nearReports_concat (reps : List GsmMeasRep) (mr : GsmMeasRep) : nearReports (reps ++ [mr])
    = if 0 < mr.numCell then nearReports reps ++ [cellsOf mr] else nearReports reps := by
  simp only [nearReports,List.filter_append,List.map_append]
  split <;> simp [*]

theorem Follows.next {s : Serving} {i : Input} (h : Follows type reps s) (rxlev2dbm : UInt8 → Int)
    (htype : type = .tchF ∨ type = .tchH)
    (halg : i.cfg.algorithm = 1) (hcfg : i.cfg.Valid) (hgood : reps.length = 0 ∨ i.event.accepted.isSome = true)
    (htame : Tame (reps ++ i.event.accepted.toList)) :
    ∃ s' target, rxMeasRes rxlev2dbm s i = .ok (s',target) ∧ Follows type (reps ++ i.event.accepted.toList) s'
      ∧ ∀ mr, i.event.accepted = some mr →
        Decided i.cfg (reps ++ [mr]) mr (Cause rxlev2dbm i.cfg (reps ++ [mr]) mr ∧ i.cfg.hoActive = true) target := by
  have hcount : s.lchan.measRepCount = reps.length := by
    obtain ⟨-,-,-,-,-,hcount⟩ := h.ring
    exact hcount
  have hring := h.ring.step (e := i.event) (hcount ▸ hgood)
  unfold rxMeasRes
  dsimp only
  cases hacc : i.event.accepted with
  | none =>
    rw [hacc,Option.toList_none,List.append_nil] at hring
    rw [Option.toList_none,List.append_nil]
    exact ⟨_,none,rfl,⟨h.type,hring,h.sixBit,h.table⟩,nofun⟩
  | some mr =>
    rw [hacc,Option.toList_some] at hring htame
    rw [Option.toList_some]
    have hmr := accepted_sixBit hacc
    have hsix : ∀ rep ∈ reps ++ [mr], SixBit rep := by
      intro rep hrep
      rcases List.mem_append.mp hrep with hrep | hrep
      · exact h.sixBit rep hrep
      · rwa [List.mem_singleton.mp hrep]
    -- the table follows the reports that have neighbours
    obtain ⟨neighMeas,htrack,htable⟩ : ∃ neighMeas, takeNeighbours s.neighMeas mr = .ok neighMeas
        ∧ Keeps (idsOf (nearReports (reps ++ [mr]))).toFinset (levels (nearReports (reps ++ [mr]))) neighMeas := by
      rw [takeNeighbours]
      have hnear := nearReports_concat reps mr
      split
      · rename_i hnum
        rw [if_pos hnum.1] at hnear
        have hclean := htame.clean (cellsOf mr) (by rw [hnear]; simp)
        have hlen := length_nearReports_le (reps ++ [mr])
        have hshort := htame.short
        have hfew := htame.few
        rw [hnear] at hlen hfew ⊢
        rw [← List.card_toFinset] at hfew
        rw [List.length_append,List.length_singleton] at hlen
        obtain ⟨neighMeas,hstep,hkeeps⟩ := h.table.trackStep hclean (by omega) hfew
        refine ⟨neighMeas,?_,hkeeps⟩
        simp only [Hodec.trackStep,bind_eq_ok] at hstep
        obtain ⟨r,hr,heq⟩ := hstep
        cases heq
        rw [processMeasNeigh_eq,hr]
        rfl
      · rename_i hnum
        rw [if_neg fun hpos => hnum ⟨hpos,hmr.numCell⟩] at hnear
        rw [hnear]
        exact ⟨_,rfl,h.table⟩
    obtain ⟨cause,hcause,hiff⟩ := hasCause_iff rxlev2dbm mr hcfg hring
    have hdecided := attemptHandover_decided hcfg hsix hmr htame htable
    have hreport : onMeasurementReport rxlev2dbm i.cfg s.type (Rsl.rslRxMeasRes s.lchan i.event).2 s.neighMeas mr
        = .ok (neighMeas,if cause then attemptHandover i.cfg neighMeas mr else none) := by
      have hskip : ¬ i.cfg.algorithm ≠ 1 := not_not.mpr halg
      simp only [onMeasurementReport,if_neg hskip,h.type]
      rcases htype with rfl | rfl <;> simp only [htrack,hcause,ok_bind] <;> rfl
    dsimp only
    rw [hreport]
    refine ⟨_,_,rfl,⟨h.type,hring,hsix,htable⟩,fun mr' hmr' => ?_⟩
    cases hmr'
    cases cause with
    | false =>
      have hno : ¬ Cause rxlev2dbm i.cfg (reps ++ [mr]) mr := fun hc => Bool.false_ne_true (hiff.mpr hc)
      exact ⟨nofun,fun _ hattempt => absurd hattempt.1 hno⟩
    | true =>
      refine ⟨fun id hid => ?_,fun hnone hattempt => hdecided.none hnone hattempt.2⟩
      obtain ⟨hactive,hbest⟩ := hdecided.best id hid
      exact ⟨⟨hiff.mp rfl,hactive⟩,hbest⟩

theorem Follows.run {s : Serving} {is : List Input} (h : Follows type reps s) (rxlev2dbm : UInt8 → Int)
    (htype : type = .tchF ∨ type = .tchH)
    (hcfg : ∀ i ∈ is, i.cfg.algorithm = 1 ∧ i.cfg.Valid) (hlost : Rsl.NoneLost reps.length (is.map (·.event)))
    (htame : Tame (reps ++ Rsl.acceptedReports (is.map (·.event)))) :
    ∃ s', run (servingStep rxlev2dbm) s is = .ok s' ∧ Follows type (reps ++ Rsl.acceptedReports (is.map (·.event))) s' := by
  induction is generalizing s reps with
  | nil =>
    rw [List.map_nil,Rsl.acceptedReports,List.filterMap_nil,List.append_nil]
    exact ⟨s,rfl,h⟩
  | cons i is ih =>
    obtain ⟨hfirst,hrest⟩ := hlost
    rw [← List.length_append] at hrest
    rw [List.map_cons,Rsl.acceptedReports_cons,← List.append_assoc] at htame ⊢
    obtain ⟨halg,hvalid⟩ := hcfg i List.mem_cons_self
    obtain ⟨s1,target,hstep,hs1,-⟩ := h.next rxlev2dbm htype halg hvalid hfirst htame.left
    obtain ⟨s',hrun,hs'⟩ := ih hs1 (fun j hj => hcfg j (List.mem_cons_of_mem i hj)) hrest htame
    exact ⟨s',by simp [EventFsm.run,servingStep,hstep,hrun],hs'⟩

end Decision

/-- A result of the call at level 10, with a neighbour of ARFCN 871 at level 50. -/
def nearResult (nr : UInt8) : Input where
  cfg := ⟨1,true,10,10,6,3,9999⟩
  event :=
    { mayReceiveData := true
      neighList := fun i => i = 871
      taShifted := false
      msPwrDbm := fun lvl => 39 - 2 * lvl
      msg := ⟨some nr,some [30,30,0],some 0,none,none,some (0x15,fun i => [10,10,0,0x72,0x00,0xe0].getD i 0)⟩ }

end OsmoBsc.Hodec.One
