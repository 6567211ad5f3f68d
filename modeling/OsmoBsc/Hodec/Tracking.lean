import Mathlib.Data.Finset.Card
import Mathlib.Data.Fintype.Card
import Mathlib.Data.List.Dedup
import Mathlib.Algebra.BigOperators.Ring.Finset
import OsmoBsc.Lib.Ring
import OsmoBsc.Hodec.NeighMeas
set_option autoImplicit false

namespace OsmoBsc.Hodec
open EventFsm

/-- A cell as the table tells it from others: by ARFCN and BSIC. -/
abbrev CellId := Nat × Nat

structure Received where
  nr : UInt8
  cell : List Si.MeasRepCell
  deriving DecidableEq, Repr

def Received.report (mr : Received) : Report := ⟨mr.nr,mr.cell.map fun c => { c with }⟩

def cellId (c : Si.MeasRepCell) : CellId := (c.arfcn,c.bsic)

def Received.ids (mr : Received) : List CellId := mr.cell.map cellId

/-- The level of a cell in a report, 0 if the report lacks the cell. -/
def Received.level (mr : Received) (id : CellId) : Nat :=
  ((mr.cell.find? fun c => cellId c = id).map (·.rxlev)).getD 0

def idsOf (mrs : List Received) : List CellId := mrs.flatMap Received.ids

def levels (mrs : List Received) (id : CellId) : List Nat :=
  (mrs.dropWhile fun mr => id ∉ mr.ids).map (·.level id)

/-- The truncated mean of the last values, of all if there are fewer than `window`. -/
def lastMean (window : Nat) (values : List Nat) : Nat :=
  let n := min window values.length
  (values.drop (values.length - n)).sum / n

def NeighMeasProc.id (nmp : NeighMeasProc) : CellId := (nmp.arfcn,nmp.bsic)

def trackStep (neighMeas : NeighMeas) (mr : Received) : Except Fault NeighMeas := do
  let (neighMeas',_) ← Two.processMeasNeigh neighMeas mr.report
  return neighMeas'

def freshNeighMeas : NeighMeas := fun _ => {}

/-- Each cell reported so far has one entry, and its average over a window is that of the
cell's last levels. -/
def Tracked (mrs : List Received) (neighMeas : NeighMeas) : Prop :=
  ∀ id ∈ idsOf mrs, ∃ j, (neighMeas j).id = id ∧ (∀ j', (neighMeas j').id = id → j' = j) ∧
    ∀ window : Nat, window ≤ 10 → Two.neighMeasAvg (neighMeas j) window = lastMean window (levels mrs id)

instance (mrs : List Received) (neighMeas : NeighMeas) : Decidable (Tracked mrs neighMeas) :=
  inferInstanceAs (Decidable (∀ id ∈ idsOf mrs, ∃ j, (neighMeas j).id = id ∧
    (∀ j', (neighMeas j').id = id → j' = j) ∧
    ∀ window : Nat, window ≤ 10 → Two.neighMeasAvg (neighMeas j) window = lastMean window (levels mrs id)))

section Average

theorem calcInitialIdx_eq {n m : Nat} (hm : m ≤ 10) :
    calcInitialIdx 10 (n % 10) m = if n % 10 < m then 10 + n % 10 - m else n % 10 - m := by
  have hoffs : asInt ((n % 10 : Nat) - m) = (n % 10 : Nat) - m := by
    rw [asInt,Int.bmod_eq_of_le] <;> omega
  simp only [calcInitialIdx,asUnsigned]
  push_cast at hoffs ⊢
  rw [hoffs]
  split <;> split <;> omega

theorem ring_place {n m i : Nat} (hm : m ≤ 10) (hn : m ≤ n) (hi : i < m) :
    Fin.ofNat 10 ((calcInitialIdx 10 (n % 10) m + i) % 2 ^ 32) = Fin.ofNat 10 (n - m + i) := by
  rw [calcInitialIdx_eq hm]
  apply Fin.ext
  simp only [Fin.val_ofNat]
  split <;> omega

theorem neighMeasAvg_holds {nmp : NeighMeasProc} {hist : List Nat} (hring : Ring.Holds nmp.rxlev hist)
    (hcnt : nmp.rxlevCnt = hist.length) (hlen : hist.length < 2 ^ 32) {window : Nat}
    (hw : window ≤ 10) : Two.neighMeasAvg nmp window = lastMean window hist := by
  have hu : asUnsigned window = window := by
    simp only [asUnsigned]
    omega
  have hmin : (if nmp.rxlevCnt < asUnsigned window then asInt nmp.rxlevCnt else (window : Int)) =
      (min window hist.length : Nat) := by
    rw [hu,hcnt]
    split
    · rw [asInt,Int.bmod_eq_of_le] <;> omega
    · congr 1
      omega
  simp only [Two.neighMeasAvg,hmin,lastMean]
  generalize hm : min window hist.length = m
  by_cases h0 : m = 0
  · simp [h0]
  · rw [if_neg (by omega),Int.toNat_natCast,hcnt]
    have hmap : (List.range m).map (fun i => ((nmp.rxlev (Fin.ofNat 10
        ((calcInitialIdx 10 (hist.length % 10) m + i) % 2 ^ 32)) : Nat) : Int)) =
        (hist.drop (hist.length - m)).map (fun x => ((x : Nat) : Int)) := by
      rw [← hring.window (by omega) (by omega),List.map_map]
      apply List.map_congr_left
      intro i hi
      rw [ring_place (by omega) (by omega) (List.mem_range.mp hi)]
      rfl
    rw [hmap,← Nat.cast_list_sum]
    rfl

end Average

section Known

def levelIn (cells : List RepCell) (id : CellId) : Option Nat :=
  (cells.find? fun c => cellId c.toMeasRepCell = id).map (·.rxlev)

def enter (nr : UInt8) (level : Option Nat) (nmp : NeighMeasProc) : NeighMeasProc :=
  if nmp.arfcn = 0 then nmp
  else { nmp with
    rxlev := Function.update nmp.rxlev (Fin.ofNat 10 nmp.rxlevCnt) (level.getD 0)
    rxlevCnt := (nmp.rxlevCnt + 1) % 2 ^ 32
    lastSeenNr := if level.isSome then nr else nmp.lastSeenNr }

/-- A cell of the report that an entry in use stands for is marked. -/
def markBy (nmp : NeighMeasProc) (c : RepCell) : RepCell :=
  if nmp.arfcn ≠ 0 ∧ nmp.id = cellId c.toMeasRepCell then { c with processed := true } else c

@[simp] theorem markBy_cell (nmp : NeighMeasProc) (c : RepCell) :
    (markBy nmp c).toMeasRepCell = c.toMeasRepCell := by
  unfold markBy
  split <;> rfl

@[simp] theorem levelIn_markBy (nmp : NeighMeasProc) (cells : List RepCell) (id : CellId) :
    levelIn (cells.map (markBy nmp)) id = levelIn cells id := by
  induction cells with
  | nil => rfl
  | cons c cells ih =>
    simp only [levelIn,List.map_cons,List.find?_cons,markBy_cell] at ih ⊢
    split
    · simp
    · exact ih

def cellIds (cells : List RepCell) : List CellId := cells.map fun c => cellId c.toMeasRepCell

@[simp] theorem cellIds_markBy (nmp : NeighMeasProc) (cells : List RepCell) :
    cellIds (cells.map (markBy nmp)) = cellIds cells := by
  simp [cellIds]

theorem map_markBy_self {nmp : NeighMeasProc} {cells : List RepCell}
    (h : ∀ c ∈ cells, nmp.arfcn ≠ 0 → nmp.id ≠ cellId c.toMeasRepCell) :
    cells.map (markBy nmp) = cells := by
  have hid : cells.map (markBy nmp) = cells.map id := by
    apply List.map_congr_left
    intro c hc
    rw [markBy,if_neg fun hm => h c hc hm.1 hm.2,id]
  rw [hid,List.map_id]

theorem cellInRep_spec {cells : List RepCell} (hd : (cellIds cells).Nodup) (nmp : NeighMeasProc)
    (hu : nmp.arfcn ≠ 0) :
    match (Two.cellInRep cells nmp.arfcn nmp.bsic).bind fun i => cells[i]?.map (i,·) with
    | some (i,mrc) => levelIn cells nmp.id = some mrc.rxlev ∧
        cells.set i { mrc with processed := true } = cells.map (markBy nmp)
    | none => levelIn cells nmp.id = none ∧ cells.map (markBy nmp) = cells := by
  induction cells with
  | nil => exact ⟨rfl,rfl⟩
  | cons c cells ih =>
    simp only [cellIds,List.map_cons,List.nodup_cons] at hd
    by_cases hc : cellId c.toMeasRepCell = nmp.id
    · have hid : c.arfcn = nmp.arfcn ∧ c.bsic = nmp.bsic := by
        simpa [cellId,NeighMeasProc.id] using hc
      have hrest : cells.map (markBy nmp) = cells := by
        apply map_markBy_self
        intro c' hc' _ he
        exact hd.1 (List.mem_map.mpr ⟨c',hc',by rw [hc,he]⟩)
      simp [Two.cellInRep,List.findIdx?_cons,hid,levelIn,hc,markBy,hu,hrest]
    · have hid : (!(c.arfcn != nmp.arfcn) && !(c.bsic != nmp.bsic)) = false := by
        simpa [cellId,NeighMeasProc.id] using hc
      have hm : markBy nmp c = c := by
        rw [markBy,if_neg]
        rintro ⟨_,he⟩
        exact hc he.symm
      have hl : levelIn (c :: cells) nmp.id = levelIn cells nmp.id := by
        simp [levelIn,hc]
      have ih := ih hd.2
      rw [hl]
      simp only [Two.cellInRep,List.findIdx?_cons,hid,Bool.false_eq_true,if_false] at ih ⊢
      cases hf : cells.findIdx? fun c => !(c.arfcn != nmp.arfcn) && !(c.bsic != nmp.bsic) with
      | none => simpa [hf,hm] using ih
      | some i =>
        cases hi : cells[i]? with
        | none => simpa [hf,hi,hm] using ih
        | some c' => simpa [hf,hi,hm] using ih

theorem updateKnown_step {cells : List RepCell} (hd : (cellIds cells).Nodup) (nr : UInt8)
    (neighMeas : NeighMeas) (j : Fin 10) :
    Two.updateKnown nr (neighMeas,cells) j =
      (Function.update neighMeas j (enter nr (levelIn cells (neighMeas j).id) (neighMeas j)),
        cells.map (markBy (neighMeas j))) := by
  by_cases hu : (neighMeas j).arfcn = 0
  · have hm : cells.map (markBy (neighMeas j)) = cells :=
      map_markBy_self fun _ _ h => absurd hu h
    simp [Two.updateKnown,hu,enter,hm]
  · have hs := cellInRep_spec hd (neighMeas j) hu
    simp only [Two.updateKnown,hu,if_false,enter]
    cases hf : (Two.cellInRep cells (neighMeas j).arfcn (neighMeas j).bsic).bind fun i =>
        cells[i]?.map (i,·) with
    | none =>
      simp only [hf] at hs
      simp [hs.1,hs.2]
    | some found =>
      simp only [hf] at hs
      simp [hs.1,hs.2]

def markAll (neighMeas : NeighMeas) (js : List (Fin 10)) (c : RepCell) : RepCell :=
  js.foldl (fun c j => markBy (neighMeas j) c) c

theorem updateKnown_loop (nr : UInt8) (js : List (Fin 10)) (hj : js.Nodup) (neighMeas : NeighMeas)
    {cells : List RepCell} (hd : (cellIds cells).Nodup) :
    js.foldl (Two.updateKnown nr) (neighMeas,cells) =
      (fun j => if j ∈ js then enter nr (levelIn cells (neighMeas j).id) (neighMeas j) else neighMeas j,
        cells.map (markAll neighMeas js)) := by
  induction js generalizing neighMeas cells with
  | nil => exact Prod.ext (by simp) (List.map_id cells).symm
  | cons j js ih =>
    have hj' := List.nodup_cons.mp hj
    rw [List.foldl_cons,updateKnown_step hd,ih hj'.2 _ (by simpa using hd)]
    have hne : ∀ j' ∈ js, j' ≠ j := fun j' h he => hj'.1 (he ▸ h)
    refine Prod.ext ?_ ?_
    · funext j'
      simp only [levelIn_markBy,List.mem_cons]
      by_cases he : j' = j
      · subst he
        simp [hj'.1]
      · simp [he]
    · simp only [List.map_map]
      apply List.map_congr_left
      intro c _
      simp only [Function.comp,markAll,List.foldl_cons]
      apply List.foldl_ext
      intro c' j' hmem
      rw [Function.update_of_ne (hne j' hmem)]

@[simp] theorem markAll_cell (neighMeas : NeighMeas) (js : List (Fin 10)) (c : RepCell) :
    (markAll neighMeas js c).toMeasRepCell = c.toMeasRepCell := by
  induction js generalizing c with
  | nil => rfl
  | cons j js ih => simpa [markAll] using ih (markBy (neighMeas j) c)

theorem markAll_processed (neighMeas : NeighMeas) (js : List (Fin 10)) (c : RepCell) :
    (markAll neighMeas js c).processed = true ↔ c.processed = true ∨
      ∃ j ∈ js, (neighMeas j).arfcn ≠ 0 ∧ (neighMeas j).id = cellId c.toMeasRepCell := by
  induction js generalizing c with
  | nil => simp [markAll]
  | cons j js ih =>
    have ih := ih (markBy (neighMeas j) c)
    simp only [markAll,List.foldl_cons,markBy_cell,List.mem_cons,exists_eq_or_imp] at ih ⊢
    rw [ih,← or_assoc]
    refine or_congr_left ?_
    unfold markBy
    split
    · rename_i h
      simp [h]
    · rename_i h
      simp [h]

end Known

section Entries

/-- The entries in use are those of the cells in `known`, one for each, and hold the
last levels of their cell. -/
structure Keeps (known : Finset CellId) (hist : CellId → List Nat) (neighMeas : NeighMeas) : Prop where
  proper : ∀ id ∈ known, id.1 ≠ 0
  used : ∀ j, (neighMeas j).arfcn ≠ 0 → (neighMeas j).id ∈ known
  one : ∀ j j', (neighMeas j).arfcn ≠ 0 → (neighMeas j').id = (neighMeas j).id → j' = j
  all : ∀ id ∈ known, ∃ j, (neighMeas j).id = id ∧ (neighMeas j).rxlevCnt = (hist id).length ∧
    Ring.Holds (neighMeas j).rxlev (hist id)

theorem keeps_fresh (hist : CellId → List Nat) : Keeps ∅ hist freshNeighMeas where
  proper := by simp
  used := by simp [freshNeighMeas]
  one := by simp [freshNeighMeas]
  all := by simp

@[simp] theorem enter_id (nr : UInt8) (level : Option Nat) (nmp : NeighMeasProc) :
    (enter nr level nmp).id = nmp.id := by
  unfold enter
  split <;> rfl

@[simp] theorem enter_arfcn (nr : UInt8) (level : Option Nat) (nmp : NeighMeasProc) :
    (enter nr level nmp).arfcn = nmp.arfcn := by
  unfold enter
  split <;> rfl

theorem Keeps.enter {known : Finset CellId} {hist hist' : CellId → List Nat} {neighMeas : NeighMeas}
    (h : Keeps known hist neighMeas) (nr : UInt8) (level : CellId → Option Nat)
    (hh : ∀ id ∈ known, hist' id = hist id ++ [(level id).getD 0])
    (hlen : ∀ id ∈ known, (hist' id).length < 2 ^ 32) :
    Keeps known hist' fun j => enter nr (level (neighMeas j).id) (neighMeas j) where
  proper := h.proper
  used := by
    intro j hj
    rw [enter_id]
    exact h.used j (by simpa using hj)
  one := by
    intro j j' hj he
    exact h.one j j' (by simpa using hj) (by simpa using he)
  all := by
    intro id hid
    obtain ⟨j,hj,hcnt,hring⟩ := h.all id hid
    have hu : (neighMeas j).arfcn ≠ 0 := by
      have := h.proper id hid
      rwa [← hj] at this
    have hl := hlen id hid
    rw [hh id hid,List.length_append,List.length_singleton] at hl
    refine ⟨j,by simpa using hj,?_,?_⟩
    · rw [Hodec.enter,if_neg hu,hh id hid,List.length_append,List.length_singleton,← hcnt]
      exact Nat.mod_eq_of_lt (by omega)
    · rw [Hodec.enter,if_neg hu,hh id hid,hj]
      simpa [hcnt] using hring.push ((level id).getD 0)

theorem Keeps.unused {known : Finset CellId} {hist : CellId → List Nat} {neighMeas : NeighMeas}
    (h : Keeps known hist neighMeas) (hcard : known.card < 10) :
    ∃ j, Two.findUnusedOrWorstNeigh neighMeas = some j ∧ (neighMeas j).arfcn = 0 := by
  have hex : ∃ j, (neighMeas j).arfcn = 0 := by
    by_contra hno
    have hall : ∀ j, (neighMeas j).arfcn ≠ 0 := fun j hj => hno ⟨j,hj⟩
    have hle : (Finset.univ : Finset (Fin 10)).card ≤ known.card :=
      Finset.card_le_card_of_injOn (fun j => (neighMeas j).id) (fun j _ => h.used j (hall j))
        (fun j _ j' _ he => (h.one j' j (hall j') he))
    simp at hle
    omega
  obtain ⟨j,hj⟩ := hex
  cases hf : firstUnused neighMeas with
  | none =>
    have := List.find?_eq_none.mp hf j (List.mem_finRange j)
    simp [hj] at this
  | some j' =>
    have := List.find?_some hf
    exact ⟨j',by simp [Two.findUnusedOrWorstNeigh,hf],by simpa using this⟩

theorem Keeps.start {known : Finset CellId} {hist : CellId → List Nat} {neighMeas : NeighMeas}
    (h : Keeps known hist neighMeas) {c : RepCell} (nr : UInt8) {j : Fin 10}
    (hj : (neighMeas j).arfcn = 0) (hc : cellId c.toMeasRepCell ∉ known) (h0 : c.arfcn ≠ 0)
    (hh : hist (cellId c.toMeasRepCell) = [c.rxlev]) :
    Keeps (insert (cellId c.toMeasRepCell) known) hist
      (Function.update neighMeas j ((neighMeas j).startWith c nr)) where
  proper := by
    intro id hid
    rcases Finset.mem_insert.mp hid with rfl | hid
    · exact h0
    · exact h.proper id hid
  used := by
    intro k hk
    by_cases he : k = j
    · subst he
      rw [Function.update_self]
      exact Finset.mem_insert_self _ _
    · rw [Function.update_of_ne he] at hk ⊢
      exact Finset.mem_insert_of_mem (h.used k hk)
  one := by
    intro k k' hk he
    by_cases hkj : k = j
    · subst hkj
      by_contra hne
      rw [Function.update_self,Function.update_of_ne hne] at he
      have hid : (neighMeas k').id = cellId c.toMeasRepCell := he
      have hu : (neighMeas k').arfcn ≠ 0 := by
        have : (neighMeas k').arfcn = c.arfcn := congrArg Prod.fst hid
        rwa [this]
      exact hc (hid ▸ h.used k' hu)
    · rw [Function.update_of_ne hkj] at hk he
      by_cases hkj' : k' = j
      · subst hkj'
        rw [Function.update_self] at he
        have hid : cellId c.toMeasRepCell = (neighMeas k).id := he
        exact absurd (hid ▸ h.used k hk) hc
      · rw [Function.update_of_ne hkj'] at he
        exact h.one k k' hk he
  all := by
    intro id hid
    rcases Finset.mem_insert.mp hid with rfl | hid
    · refine ⟨j,by rw [Function.update_self]; rfl,by rw [Function.update_self,hh]; rfl,?_⟩
      rw [Function.update_self,hh]
      exact (Ring.holds_nil (neighMeas j).rxlev).push c.rxlev
    · obtain ⟨k,hk,hr⟩ := h.all id hid
      have hne : k ≠ j := by
        rintro rfl
        have := h.proper id hid
        rw [← hk] at this
        exact this hj
      exact ⟨k,by rwa [Function.update_of_ne hne],by rwa [Function.update_of_ne hne]⟩

def newIds (cells : List RepCell) : List CellId := cellIds (cells.filter fun c => !c.processed)

theorem Keeps.addNew {known : Finset CellId} {hist : CellId → List Nat} {neighMeas : NeighMeas}
    (h : Keeps known hist neighMeas) (nr : UInt8) {cells : List RepCell}
    (hd : (cellIds cells).Nodup) (hnew : ∀ c ∈ cells, c.processed = false →
      cellId c.toMeasRepCell ∉ known ∧ c.arfcn ≠ 0 ∧ hist (cellId c.toMeasRepCell) = [c.rxlev])
    (hcard : (known ∪ (newIds cells).toFinset).card ≤ 10) :
    ∃ neighMeas' cells', Two.addNew nr neighMeas cells = .ok (neighMeas',cells') ∧
      Keeps (known ∪ (newIds cells).toFinset) hist neighMeas' := by
  induction cells generalizing known neighMeas with
  | nil => exact ⟨neighMeas,[],rfl,by simpa [newIds,cellIds] using h⟩
  | cons c cells ih =>
    have hd' := List.nodup_cons.mp hd
    have hrest : ∀ c' ∈ cells, c'.processed = false → cellId c'.toMeasRepCell ∉ known ∧
        c'.arfcn ≠ 0 ∧ hist (cellId c'.toMeasRepCell) = [c'.rxlev] :=
      fun c' hc' => hnew c' (by simp [hc'])
    by_cases hp : c.processed = true
    · have hsame : newIds (c :: cells) = newIds cells := by simp [newIds,hp]
      rw [hsame] at hcard ⊢
      obtain ⟨neighMeas',cells',hok,hk⟩ := ih h hd'.2 hrest hcard
      exact ⟨neighMeas',c :: cells',by simp [Two.addNew,hp,hok],hk⟩
    · have hp' : c.processed = false := by simpa using hp
      have hunion : known ∪ (newIds (c :: cells)).toFinset =
          insert (cellId c.toMeasRepCell) known ∪ (newIds cells).toFinset := by
        ext id
        simp [newIds,cellIds,hp']
      obtain ⟨hc,h0,hh⟩ := hnew c (by simp) hp'
      rw [hunion] at hcard ⊢
      have hlt : known.card < 10 := by
        have hsub : insert (cellId c.toMeasRepCell) known ⊆
            insert (cellId c.toMeasRepCell) known ∪ (newIds cells).toFinset :=
          Finset.subset_union_left
        have hle := Finset.card_le_card hsub
        rw [Finset.card_insert_of_notMem hc] at hle
        omega
      obtain ⟨j,hj,hu⟩ := h.unused hlt
      obtain ⟨neighMeas',cells',hok,hk⟩ := ih (h.start nr hu hc h0 hh) hd'.2 (by
        intro c' hc' hp'
        obtain ⟨h1,h2,h3⟩ := hrest c' hc' hp'
        refine ⟨?_,h2,h3⟩
        rw [Finset.mem_insert]
        rintro (he | he)
        · exact hd'.1 (List.mem_map.mpr ⟨c',hc',he⟩)
        · exact h1 he) hcard
      exact ⟨neighMeas',{ c with processed := true } :: cells',by simp [Two.addNew,hp,hj,hok],hk⟩

end Entries

section Reports

def Clean (mr : Received) : Prop := mr.ids.Nodup ∧ ∀ id ∈ mr.ids, id.1 ≠ 0

instance (mr : Received) : Decidable (Clean mr) :=
  inferInstanceAs (Decidable (mr.ids.Nodup ∧ ∀ id ∈ mr.ids, id.1 ≠ 0))

@[simp] theorem cellIds_report (mr : Received) : cellIds mr.report.cell = mr.ids := by
  simp [cellIds,Received.report,Received.ids]

theorem levelIn_report (mr : Received) (id : CellId) :
    (levelIn mr.report.cell id).getD 0 = mr.level id := by
  obtain ⟨nr,cell⟩ := mr
  simp only [levelIn,Received.report,Received.level,List.find?_map,Option.map_map]
  rfl

theorem level_of_mem {mr : Received} (hd : mr.ids.Nodup) {c : Si.MeasRepCell} (hc : c ∈ mr.cell) :
    mr.level (cellId c) = c.rxlev := by
  obtain ⟨nr,cell⟩ := mr
  simp only [Received.level,Received.ids] at hd hc ⊢
  induction cell with
  | nil => cases hc
  | cons c' cell ih =>
    have hd' := List.nodup_cons.mp hd
    rcases List.mem_cons.mp hc with rfl | hc
    · simp
    · have hne : cellId c' ≠ cellId c := by
        intro he
        exact hd'.1 (he ▸ List.mem_map_of_mem hc)
      simpa [hne] using ih hd'.2 hc

theorem levels_known {mrs : List Received} {id : CellId} (h : id ∈ idsOf mrs) (mr : Received) :
    levels (mrs ++ [mr]) id = levels mrs id ++ [mr.level id] := by
  induction mrs with
  | nil => simp [idsOf] at h
  | cons m mrs ih =>
    by_cases hm : id ∈ m.ids
    · simp [levels,hm]
    · have h' : id ∈ idsOf mrs := by simpa [idsOf,hm] using h
      simpa [levels,hm] using ih h'

theorem levels_new {mrs : List Received} {id : CellId} (h : id ∉ idsOf mrs) {mr : Received}
    (hid : id ∈ mr.ids) : levels (mrs ++ [mr]) id = [mr.level id] := by
  induction mrs with
  | nil => simp [levels,hid]
  | cons m mrs ih =>
    have h' : id ∉ m.ids ∧ id ∉ idsOf mrs := by simpa [idsOf] using h
    simpa [levels,h'.1] using ih h'.2

theorem levels_length_le (mrs : List Received) (id : CellId) : (levels mrs id).length ≤ mrs.length := by
  rw [levels,List.length_map]
  exact (List.dropWhile_sublist _).length_le

@[simp] theorem idsOf_concat (mrs : List Received) (mr : Received) :
    idsOf (mrs ++ [mr]) = idsOf mrs ++ mr.ids := by
  simp [idsOf]

theorem Keeps.trackStep {mrs : List Received} {neighMeas : NeighMeas}
    (h : Keeps (idsOf mrs).toFinset (levels mrs) neighMeas) {mr : Received} (hc : Clean mr)
    (hlen : mrs.length + 1 < 2 ^ 32) (hcard : (idsOf (mrs ++ [mr])).toFinset.card ≤ 10) :
    ∃ neighMeas', Hodec.trackStep neighMeas mr = .ok neighMeas' ∧
      Keeps (idsOf (mrs ++ [mr])).toFinset (levels (mrs ++ [mr])) neighMeas' := by
  have hd : (cellIds mr.report.cell).Nodup := by simpa using hc.1
  have hfirst := updateKnown_loop mr.nr (List.finRange 10) (List.nodup_finRange 10) neighMeas hd
  simp only [List.mem_finRange,if_true] at hfirst
  have henter : Keeps (idsOf mrs).toFinset (levels (mrs ++ [mr])) fun j =>
      Hodec.enter mr.nr (levelIn mr.report.cell (neighMeas j).id) (neighMeas j) := by
    refine h.enter mr.nr (levelIn mr.report.cell) ?_ ?_
    · intro id hid
      rw [levels_known (by simpa using hid),levelIn_report]
    · intro id _
      have := levels_length_le (mrs ++ [mr]) id
      rw [List.length_append,List.length_singleton] at this
      omega
  generalize hcells : mr.report.cell.map (markAll neighMeas (List.finRange 10)) = cells at hfirst
  have hids : cellIds cells = mr.ids := by
    rw [← hcells,← cellIds_report]
    simp [cellIds]
  -- a cell is left to the second loop if and only if no earlier report has it
  have hmarked : ∀ c ∈ cells, (c.processed = true ↔ cellId c.toMeasRepCell ∈ idsOf mrs) ∧
      c.toMeasRepCell ∈ mr.cell := by
    rw [← hcells]
    intro c hmem
    obtain ⟨c0,hc0,rfl⟩ := List.mem_map.mp hmem
    obtain ⟨c1,hc1,rfl⟩ := List.mem_map.mp hc0
    rw [markAll_processed,markAll_cell]
    refine ⟨?_,hc1⟩
    constructor
    · rintro (hf | ⟨j,_,hu,hj⟩)
      · cases hf
      · have := h.used j hu
        rw [hj] at this
        simpa using this
    · intro hid
      obtain ⟨j,hj,_⟩ := h.all _ (by simpa using hid)
      refine .inr ⟨j,List.mem_finRange j,?_,hj⟩
      have h0 := hc.2 _ (List.mem_map_of_mem hc1)
      rwa [← hj] at h0
  have hunion : (idsOf mrs).toFinset ∪ (newIds cells).toFinset = (idsOf (mrs ++ [mr])).toFinset := by
    ext id
    simp only [Finset.mem_union,List.mem_toFinset,idsOf_concat,List.mem_append,← hids,newIds,cellIds,
      List.mem_map,List.mem_filter]
    constructor
    · rintro (hid | ⟨c,⟨hmem,_⟩,rfl⟩)
      · exact .inl hid
      · exact .inr ⟨c,hmem,rfl⟩
    · rintro (hid | ⟨c,hmem,rfl⟩)
      · exact .inl hid
      · by_cases hp : c.processed = true
        · exact .inl ((hmarked c hmem).1.mp hp)
        · exact .inr ⟨c,⟨hmem,by simpa using hp⟩,rfl⟩
  obtain ⟨neighMeas',cells',hok,hk⟩ := henter.addNew mr.nr (by rw [hids]; exact hc.1) (by
    intro c hmem hp
    obtain ⟨hiff,hin⟩ := hmarked c hmem
    have hnot : cellId c.toMeasRepCell ∉ idsOf mrs := fun hid => by simp [hiff.mpr hid] at hp
    have hin' : cellId c.toMeasRepCell ∈ mr.ids := List.mem_map_of_mem hin
    refine ⟨by simpa using hnot,hc.2 _ hin',?_⟩
    rw [levels_new hnot hin',level_of_mem hc.1 hin]) (by rw [hunion]; exact hcard)
  rw [hunion] at hk
  refine ⟨neighMeas',?_,hk⟩
  have hnr : mr.report.nr = mr.nr := rfl
  simp [Hodec.trackStep,Two.processMeasNeigh,hnr,hfirst,hok]

theorem Keeps.run {done todo : List Received} {neighMeas : NeighMeas}
    (h : Keeps (idsOf done).toFinset (levels done) neighMeas) (hc : ∀ mr ∈ todo, Clean mr)
    (hlen : (done ++ todo).length < 2 ^ 32) (hcard : (idsOf (done ++ todo)).toFinset.card ≤ 10) :
    ∃ neighMeas', EventFsm.run Hodec.trackStep neighMeas todo = .ok neighMeas' ∧
      Keeps (idsOf (done ++ todo)).toFinset (levels (done ++ todo)) neighMeas' := by
  induction todo generalizing done neighMeas with
  | nil => exact ⟨neighMeas,rfl,by simpa using h⟩
  | cons mr todo ih =>
    have hassoc : done ++ mr :: todo = (done ++ [mr]) ++ todo := by simp
    rw [hassoc] at hlen hcard ⊢
    have hsub : (idsOf (done ++ [mr])).toFinset ⊆ (idsOf ((done ++ [mr]) ++ todo)).toFinset := by
      intro id
      simp only [List.mem_toFinset,idsOf,List.flatMap_append,List.mem_append]
      exact Or.inl
    obtain ⟨neighMeas1,hstep,hk⟩ := h.trackStep (hc mr (by simp))
      (by simp only [List.length_append,List.length_singleton] at hlen; omega)
      ((Finset.card_le_card hsub).trans hcard)
    obtain ⟨neighMeas',hrun,hk'⟩ := ih hk (fun m hm => hc m (by simp [hm])) hlen hcard
    exact ⟨neighMeas',by simp [EventFsm.run,hstep,hrun],hk'⟩

theorem Keeps.tracked {mrs : List Received} {neighMeas : NeighMeas}
    (h : Keeps (idsOf mrs).toFinset (levels mrs) neighMeas) (hlen : mrs.length < 2 ^ 32) :
    Tracked mrs neighMeas := by
  intro id hid
  have hid' : id ∈ (idsOf mrs).toFinset := by simpa using hid
  obtain ⟨j,hj,hcnt,hring⟩ := h.all id hid'
  have hu : (neighMeas j).arfcn ≠ 0 := by
    have := h.proper id hid'
    rwa [← hj] at this
  refine ⟨j,hj,fun j' hj' => h.one j j' hu (hj'.trans hj.symm),?_⟩
  intro window hw
  exact neighMeasAvg_holds hring hcnt ((levels_length_le mrs id).trans_lt hlen) hw

/-- As long as no report repeats a cell or names ARFCN 0 and the level counters do not wrap, the
table keeps each of up to ten cells in one entry with the mean of its last levels,
after each report. -/
theorem neighbours_tracked (mrs : List Received) (hcells : (idsOf mrs).dedup.length ≤ 10)
    (hclean : ∀ mr ∈ mrs, Clean mr) (hlen : mrs.length < 2 ^ 32) :
    ∀ done, done <+: mrs → ∃ neighMeas, run trackStep freshNeighMeas done = .ok neighMeas ∧
      Tracked done neighMeas := by
  intro done hpre
  have hlen' : done.length < 2 ^ 32 := hpre.length_le.trans_lt hlen
  have hsub : (idsOf done).toFinset ⊆ (idsOf mrs).toFinset := by
    intro id
    simp only [List.mem_toFinset,idsOf,List.mem_flatMap]
    rintro ⟨mr,hmr,hid⟩
    exact ⟨mr,hpre.subset hmr,hid⟩
  have hcard : (idsOf done).toFinset.card ≤ 10 :=
    (Finset.card_le_card hsub).trans (by rwa [List.card_toFinset])
  have hstart : Keeps (idsOf []).toFinset (levels []) freshNeighMeas := keeps_fresh _
  obtain ⟨neighMeas,hrun,hk⟩ := hstart.run (fun mr hmr => hclean mr (hpre.subset hmr)) hlen' hcard
  exact ⟨neighMeas,hrun,hk.tracked hlen'⟩

def twoNeighbours : List Received :=
  [⟨4,[{ rxlev := 30, bsic := 5, arfcn := 871 },{ rxlev := 21, bsic := 2, arfcn := 875 }]⟩,
    ⟨5,[{ rxlev := 20, bsic := 5, arfcn := 871 }]⟩]

theorem neighbours_tracked_two :
    ∃ neighMeas, run trackStep freshNeighMeas twoNeighbours = .ok neighMeas ∧
      (neighMeas 1).id = (875,2) ∧ Two.neighMeasAvg (neighMeas 1) 10 = 10 ∧
      Tracked twoNeighbours neighMeas := by
  obtain ⟨neighMeas,hrun,ht⟩ := neighbours_tracked twoNeighbours (by decide) (by decide) (by decide)
    twoNeighbours (List.prefix_refl _)
  obtain ⟨neighMeas',hrun',hid,havg⟩ : ∃ neighMeas,
      run trackStep freshNeighMeas twoNeighbours = .ok neighMeas ∧
      (neighMeas 1).id = (875,2) ∧ Two.neighMeasAvg (neighMeas 1) 10 = 10 := by
    decide +kernel
  rw [hrun,Except.ok.injEq] at hrun'
  subst hrun'
  exact ⟨neighMeas,hrun,hid,havg,ht⟩

def neighbourOnZero : List Received :=
  [⟨4,[{ rxlev := 30, bsic := 5, arfcn := 0 }]⟩,⟨5,[{ rxlev := 50, bsic := 5, arfcn := 0 }]⟩]

def neighbourTwice : List Received :=
  [⟨4,[{ rxlev := 30, bsic := 5, arfcn := 871 },{ rxlev := 30, bsic := 5, arfcn := 871 }]⟩]

/-- The entry of the cell on ARFCN 0 is taken anew with each report, and a cell that comes twice
takes two entries. -/
theorem neighbours_not_tracked :
    (∃ neighMeas, run trackStep freshNeighMeas neighbourOnZero = .ok neighMeas ∧
      ¬Tracked neighbourOnZero neighMeas) ∧
    ∃ neighMeas, run trackStep freshNeighMeas neighbourTwice = .ok neighMeas ∧
      ¬Tracked neighbourTwice neighMeas := by
  decide +kernel

end Reports

end OsmoBsc.Hodec
