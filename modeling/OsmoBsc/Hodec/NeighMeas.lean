import Mathlib.Logic.Function.Basic
import Mathlib.Data.Fintype.Pi
import OsmoBsc.Lib.Fsm
import OsmoBsc.Si.MeasRep
set_option autoImplicit false

namespace OsmoBsc.Hodec
open EventFsm

/-- `struct gsm_meas_rep_cell` with its flag MRC_F_PROCESSED. -/
structure RepCell extends Si.MeasRepCell where
  processed : Bool := false
  deriving DecidableEq, Repr

/-- What process_meas_neigh() uses of a `struct gsm_meas_rep`: its number and its cells. -/
structure Report where
  nr : UInt8
  cell : List RepCell
  deriving DecidableEq, Repr

/-- `struct neigh_meas_proc`, with a ring of MAX_WIN_NEIGH_AVG levels. -/
structure NeighMeasProc where
  arfcn : Nat := 0
  bsic : Nat := 0
  rxlev : Fin 10 → Nat := fun _ => 0
  rxlevCnt : Nat := 0
  lastSeenNr : UInt8 := 0
  deriving DecidableEq

/-- `lchan->neigh_meas`, of MAX_NEIGH_MEAS entries. -/
abbrev NeighMeas := Fin 10 → NeighMeasProc

instance neZeroNeighMeas : NeZero 10 := ⟨Nat.succ_ne_zero 9⟩

/-- An `unsigned int` as an `int`. -/
def asInt (x : Int) : Int := x.bmod (2 ^ 32)

/-- An `int` as an `unsigned int`. -/
def asUnsigned (x : Int) : Nat := (x % 2 ^ 32).toNat

def calcInitialIdx (arraySize measRepIdx numValues : Nat) : Nat :=
  let offs := asInt (measRepIdx - numValues)
  if offs < 0 then asUnsigned (arraySize + offs) else asUnsigned offs

/-- The first entry without an ARFCN. -/
def firstUnused (neighMeas : NeighMeas) : Option (Fin 10) :=
  (List.finRange 10).find? fun j => (neighMeas j).arfcn = 0

def NeighMeasProc.startWith (nmp : NeighMeasProc) (mrc : RepCell) (nr : UInt8) : NeighMeasProc :=
  { arfcn := mrc.arfcn
    bsic := mrc.bsic
    rxlev := Function.update nmp.rxlev (Fin.ofNat 10 0) mrc.rxlev
    rxlevCnt := 1
    lastSeenNr := nr }

end OsmoBsc.Hodec

/-! handover_decision.c -/
namespace OsmoBsc.Hodec.One
open EventFsm

def eNoDev : Int := 19

/-- The level is returned with the cells, of which the found one is marked. -/
def rxlevForCellInRep : List RepCell → Nat → Nat → Int × List RepCell
  | [],_,_ => (-eNoDev,[])
  | mrc :: rest,arfcn,bsic =>
    if !(mrc.arfcn == arfcn && mrc.bsic == bsic) then
      let (rxlev,rest) := rxlevForCellInRep rest arfcn bsic
      (rxlev,mrc :: rest)
    else (mrc.rxlev,{ mrc with processed := true } :: rest)

def neighMeasAvg (nmp : NeighMeasProc) (window : Int) : Int :=
  let window := if nmp.rxlevCnt < asUnsigned window then asInt nmp.rxlevCnt else window
  if window ≤ 0 then 0
  else
    let idx := calcInitialIdx 10 (nmp.rxlevCnt % 10) window.toNat
    let avg := ((List.range window.toNat).map fun i =>
      (nmp.rxlev (Fin.ofNat 10 ((idx + i) % 2 ^ 32)) : Int)).sum
    avg.tdiv window

def evictWorse (neighMeas : NeighMeas) (found : Int × Option (Fin 10)) (j : Fin 10) :
    Int × Option (Fin 10) :=
  let avg := neighMeasAvg (neighMeas j) 10
  if found.2.isNone || avg < found.1 then (avg,some j) else found

def findEvictNeigh (neighMeas : NeighMeas) : Option (Fin 10) :=
  match firstUnused neighMeas with
  | some j => some j
  | none => ((List.finRange 10).foldl (evictWorse neighMeas) (999999,none)).2

/-- The first loop for one entry: the level is entered in its ring. -/
def updateKnown (nr : UInt8) (st : NeighMeas × List RepCell) (j : Fin 10) : NeighMeas × List RepCell :=
  let nmp := st.1 j
  if nmp.arfcn = 0 then st
  else
    let (rxlev,cells) := rxlevForCellInRep st.2 nmp.arfcn nmp.bsic
    let idx := Fin.ofNat 10 nmp.rxlevCnt
    let nmp' := if 0 ≤ rxlev
      then { nmp with rxlev := Function.update nmp.rxlev idx rxlev.toNat, lastSeenNr := nr }
      else { nmp with rxlev := Function.update nmp.rxlev idx 0 }
    (Function.update st.1 j { nmp' with rxlevCnt := (nmp.rxlevCnt + 1) % 2 ^ 32 },cells)

/-- The second loop: each cell not met yet takes an entry. -/
def addNew (nr : UInt8) : NeighMeas → List RepCell → Except Fault (NeighMeas × List RepCell)
  | neighMeas,[] => .ok (neighMeas,[])
  | neighMeas,mrc :: rest =>
    if mrc.processed then do
      let (neighMeas',rest') ← addNew nr neighMeas rest
      return (neighMeas',mrc :: rest')
    else match findEvictNeigh neighMeas with
      | none => .error .nullDeref
      | some j => do
        let (neighMeas',rest') ←
          addNew nr (Function.update neighMeas j ((neighMeas j).startWith mrc nr)) rest
        return (neighMeas',{ mrc with processed := true } :: rest')

def processMeasNeigh (neighMeas : NeighMeas) (mr : Report) : Except Fault (NeighMeas × Report) := do
  let st := (List.finRange 10).foldl (updateKnown mr.nr) (neighMeas,mr.cell)
  let (neighMeas',cell) ← addNew mr.nr st.1 st.2
  return (neighMeas',{ mr with cell })

end OsmoBsc.Hodec.One

/-! handover_decision_2.c -/
namespace OsmoBsc.Hodec.Two
open EventFsm

def cellInRep (cells : List RepCell) (arfcn bsic : Nat) : Option Nat :=
  cells.findIdx? fun mrc => !(mrc.arfcn != arfcn) && !(mrc.bsic != bsic)

def neighMeasAvg (nmp : NeighMeasProc) (window : Int) : Int :=
  let window := if nmp.rxlevCnt < asUnsigned window then asInt nmp.rxlevCnt else window
  if window ≤ 0 then 0
  else
    let idx := calcInitialIdx 10 (nmp.rxlevCnt % 10) window.toNat
    let avg := ((List.range window.toNat).map fun i =>
      (nmp.rxlev (Fin.ofNat 10 ((idx + i) % 2 ^ 32)) : Int)).sum
    avg.tdiv window

def worseNeigh (neighMeas : NeighMeas) (found : Int × Option (Fin 10)) (j : Fin 10) :
    Int × Option (Fin 10) :=
  let avg := neighMeasAvg (neighMeas j) 10
  if found.2.isSome && avg ≥ found.1 then found else (avg,some j)

def findUnusedOrWorstNeigh (neighMeas : NeighMeas) : Option (Fin 10) :=
  match firstUnused neighMeas with
  | some j => some j
  | none => ((List.finRange 10).foldl (worseNeigh neighMeas) (0,none)).2

/-- The first loop for one entry: the level is entered in its ring and the cell marked. -/
def updateKnown (nr : UInt8) (st : NeighMeas × List RepCell) (j : Fin 10) : NeighMeas × List RepCell :=
  let nmp := st.1 j
  if nmp.arfcn = 0 then st
  else
    let idx := Fin.ofNat 10 nmp.rxlevCnt
    let rxlevCnt := (nmp.rxlevCnt + 1) % 2 ^ 32
    match (cellInRep st.2 nmp.arfcn nmp.bsic).bind fun i => st.2[i]?.map (i,·) with
    | some (i,mrc) => (Function.update st.1 j { nmp with rxlev := Function.update nmp.rxlev idx mrc.rxlev
                                                         lastSeenNr := nr, rxlevCnt },
        st.2.set i { mrc with processed := true })
    | none => (Function.update st.1 j { nmp with rxlev := Function.update nmp.rxlev idx 0, rxlevCnt },st.2)

/-- The second loop: each cell not known yet takes an entry. -/
def addNew (nr : UInt8) : NeighMeas → List RepCell → Except Fault (NeighMeas × List RepCell)
  | neighMeas,[] => .ok (neighMeas,[])
  | neighMeas,mrc :: rest =>
    if mrc.processed then do
      let (neighMeas',rest') ← addNew nr neighMeas rest
      return (neighMeas',mrc :: rest')
    else match findUnusedOrWorstNeigh neighMeas with
      | none => .error .nullDeref
      | some j => do
        let (neighMeas',rest') ←
          addNew nr (Function.update neighMeas j ((neighMeas j).startWith mrc nr)) rest
        return (neighMeas',{ mrc with processed := true } :: rest')

def processMeasNeigh (neighMeas : NeighMeas) (mr : Report) : Except Fault (NeighMeas × Report) := do
  let st := (List.finRange 10).foldl (updateKnown mr.nr) (neighMeas,mr.cell)
  let (neighMeas',cell) ← addNew mr.nr st.1 st.2
  return (neighMeas',{ mr with cell })

end OsmoBsc.Hodec.Two

namespace OsmoBsc.Hodec
open EventFsm

inductive Algorithm where
  | one
  | two
  deriving DecidableEq, Repr

def processMeasNeigh : Algorithm → NeighMeas → Report → Except Fault (NeighMeas × Report)
  | .one => One.processMeasNeigh
  | .two => Two.processMeasNeigh

def collectStep (neighMeas : NeighMeas) (i : Algorithm × Report) : Except Fault NeighMeas := do
  let (neighMeas',_) ← processMeasNeigh i.1 neighMeas i.2
  return neighMeas'

section Agreement

theorem rxlevForCellInRep_eq (cells : List RepCell) (arfcn bsic : Nat) :
    One.rxlevForCellInRep cells arfcn bsic =
      match (Two.cellInRep cells arfcn bsic).bind fun i => cells[i]?.map (i,·) with
      | some (i,mrc) => ((mrc.rxlev : Int),cells.set i { mrc with processed := true })
      | none => (-One.eNoDev,cells) := by
  induction cells with
  | nil => rfl
  | cons mrc rest ih =>
    by_cases h : mrc.arfcn = arfcn ∧ mrc.bsic = bsic
    · simp [One.rxlevForCellInRep,Two.cellInRep,h,List.findIdx?_cons]
    · have hn : (mrc.arfcn == arfcn && mrc.bsic == bsic) = false := by
        simpa using h
      simp only [One.rxlevForCellInRep,hn,Bool.not_false,if_true,ih,Two.cellInRep,
        List.findIdx?_cons,bne,Bool.not_not]
      cases (rest.findIdx? fun mrc => mrc.arfcn == arfcn && mrc.bsic == bsic) with
      | none => simp
      | some i =>
        cases hi : rest[i]? with
        | none => simp [hi]
        | some mrc' => simp [hi]

theorem updateKnown_eq (nr : UInt8) (st : NeighMeas × List RepCell) (j : Fin 10) :
    One.updateKnown nr st j = Two.updateKnown nr st j := by
  simp only [One.updateKnown,Two.updateKnown,rxlevForCellInRep_eq]
  split
  · rfl
  · split
    · simp
    · simp [One.eNoDev]

theorem neighMeasAvg_eq (nmp : NeighMeasProc) (window : Int) :
    One.neighMeasAvg nmp window = Two.neighMeasAvg nmp window := rfl

theorem worst_eq (neighMeas : NeighMeas) (js : List (Fin 10)) (worst : Int) (k : Fin 10) :
    js.foldl (One.evictWorse neighMeas) (worst,some k) =
      js.foldl (Two.worseNeigh neighMeas) (worst,some k) := by
  induction js generalizing worst k with
  | nil => rfl
  | cons j js ih =>
    simp only [List.foldl_cons,One.evictWorse,Two.worseNeigh,neighMeasAvg_eq]
    by_cases h : Two.neighMeasAvg (neighMeas j) 10 < worst
    · simpa [h,Int.not_le.mpr h] using ih _ j
    · simpa [h,Int.not_lt.mp h] using ih worst k

/-- The start value of the search does not matter, as the first entry always replaces it. -/
theorem findEvictNeigh_eq (neighMeas : NeighMeas) :
    One.findEvictNeigh neighMeas = Two.findUnusedOrWorstNeigh neighMeas := by
  have hloop : ∀ (js : List (Fin 10)) (w w' : Int),
      (js.foldl (One.evictWorse neighMeas) (w,none)).2 =
        (js.foldl (Two.worseNeigh neighMeas) (w',none)).2 := by
    intro js w w'
    cases js with
    | nil => rfl
    | cons j js =>
      have h := worst_eq neighMeas js (Two.neighMeasAvg (neighMeas j) 10) j
      simpa [One.evictWorse,Two.worseNeigh,neighMeasAvg_eq] using congrArg Prod.snd h
  simp only [One.findEvictNeigh,Two.findUnusedOrWorstNeigh,hloop _ 999999 0]

theorem addNew_eq (nr : UInt8) (neighMeas : NeighMeas) (cells : List RepCell) :
    One.addNew nr neighMeas cells = Two.addNew nr neighMeas cells := by
  induction cells generalizing neighMeas with
  | nil => rfl
  | cons mrc rest ih => simp only [One.addNew,Two.addNew,findEvictNeigh_eq,ih]

theorem processMeasNeigh_eq (neighMeas : NeighMeas) (mr : Report) :
    One.processMeasNeigh neighMeas mr = Two.processMeasNeigh neighMeas mr := by
  have hstep : One.updateKnown mr.nr = Two.updateKnown mr.nr := by
    funext st j
    exact updateKnown_eq mr.nr st j
  simp only [One.processMeasNeigh,Two.processMeasNeigh,hstep,addNew_eq]

theorem findUnusedOrWorstNeigh_some (neighMeas : NeighMeas) :
    ∃ j, Two.findUnusedOrWorstNeigh neighMeas = some j := by
  have hloop : ∀ (js : List (Fin 10)) (w : Int) (k : Fin 10),
      ∃ j, (js.foldl (Two.worseNeigh neighMeas) (w,some k)).2 = some j := by
    intro js
    induction js with
    | nil => exact fun _ k => ⟨k,rfl⟩
    | cons j js ih =>
      intro w k
      simp only [List.foldl_cons,Two.worseNeigh]
      split
      · exact ih w k
      · exact ih _ j
  simp only [Two.findUnusedOrWorstNeigh]
  split
  · exact ⟨_,rfl⟩
  · rw [List.finRange_succ,List.foldl_cons]
    exact hloop _ _ 0

theorem addNew_ok (nr : UInt8) (neighMeas : NeighMeas) (cells : List RepCell) :
    ∃ r, Two.addNew nr neighMeas cells = .ok r := by
  induction cells generalizing neighMeas with
  | nil => exact ⟨_,rfl⟩
  | cons mrc rest ih =>
    obtain ⟨j,hj⟩ := findUnusedOrWorstNeigh_some neighMeas
    simp only [Two.addNew,hj]
    split
    · obtain ⟨r,hr⟩ := ih neighMeas
      exact ⟨_,by rw [hr]; rfl⟩
    · obtain ⟨r,hr⟩ := ih (Function.update neighMeas j ((neighMeas j).startWith mrc nr))
      exact ⟨_,by rw [hr]; rfl⟩

theorem processMeasNeigh_ok (neighMeas : NeighMeas) (mr : Report) :
    ∃ r, Two.processMeasNeigh neighMeas mr = .ok r := by
  obtain ⟨r,hr⟩ := addNew_ok mr.nr
    ((List.finRange 10).foldl (Two.updateKnown mr.nr) (neighMeas,mr.cell)).1
    ((List.finRange 10).foldl (Two.updateKnown mr.nr) (neighMeas,mr.cell)).2
  exact ⟨_,by rw [Two.processMeasNeigh,hr]; rfl⟩

theorem collectStep_eq (neighMeas : NeighMeas) (a b : Algorithm) (mr : Report) :
    collectStep neighMeas (a,mr) = collectStep neighMeas (b,mr) := by
  cases a <;> cases b <;> simp [collectStep,processMeasNeigh,processMeasNeigh_eq]

theorem run_collect_eq {is is' : List (Algorithm × Report)} (h : is.map (·.2) = is'.map (·.2))
    (neighMeas : NeighMeas) : run collectStep neighMeas is = run collectStep neighMeas is' := by
  induction is generalizing is' neighMeas with
  | nil =>
    cases is' with
    | nil => rfl
    | cons _ _ => cases h
  | cons i is ih =>
    cases is' with
    | nil => cases h
    | cons i' is' =>
      obtain ⟨a,mr⟩ := i
      obtain ⟨b,mr'⟩ := i'
      simp only [List.map_cons,List.cons.injEq] at h
      obtain ⟨rfl,h⟩ := h
      simp only [run,collectStep_eq neighMeas a b]
      cases collectStep neighMeas (b,mr) with
      | error e => rfl
      | ok neighMeas' => exact ih h neighMeas'

/-- The handover decisions 1 and 2 keep the same data about neighbours: a report leaves the same
table and the same marks with either, every average is the same, and over a call
it does not matter which of them handled which report. -/
theorem hodec_neighbours_agree :
    (∀ neighMeas mr, ∃ r, One.processMeasNeigh neighMeas mr = .ok r ∧
      Two.processMeasNeigh neighMeas mr = .ok r) ∧
    (∀ nmp window, One.neighMeasAvg nmp window = Two.neighMeasAvg nmp window) ∧
    ∀ (neighMeas : NeighMeas) (is is' : List (Algorithm × Report)), is.map (·.2) = is'.map (·.2) →
      run collectStep neighMeas is = run collectStep neighMeas is' := by
  refine ⟨?_,neighMeasAvg_eq,fun neighMeas _ _ h => run_collect_eq h neighMeas⟩
  intro neighMeas mr
  obtain ⟨r,hr⟩ := processMeasNeigh_ok neighMeas mr
  exact ⟨r,by rw [processMeasNeigh_eq,hr],hr⟩

end Agreement

end OsmoBsc.Hodec
