import OsmoBsc.GsmData
import OsmoBsc.Neighbor.Ident
import OsmoBsc.Hodec.Tracking
set_option autoImplicit false

namespace OsmoBsc.Hodec
open EventFsm

/-- What measurement reports change in a `struct gsm_lchan`, and its type. -/
structure MeasLchan where
  type : ChanT
  neighMeas : NeighMeas := freshNeighMeas
  measRep : Fin 10 → Si.MeasRep := fun _ => {}
  measRepIdx : Nat := 0
  measRepCount : Nat := 0
  measRepLastSeenNr : UInt8 := 255

/-- The information elements of a MEASUREMENT RESULT as rsl_tlv_parse() finds them: the L3 information
is a message type with the octets after it. -/
structure MeasRes where
  measResNr : Option UInt8
  uplinkMeas : Option Si.Octets
  bsPower : Option UInt8
  l3Info : Option (BitVec 8 × Si.Octets)

/-- A MEASUREMENT RESULT comes in: whether lchan_may_receive_data() holds, the BTS'
`si_common.neigh_list`, and the handover algorithm, if any has a decision of its own, are those of that moment. -/
structure MeasResEvent where
  mayReceiveData : Bool
  neighList : Si.Bitvec
  algorithm : Option Algorithm
  msg : MeasRes

/-- The report that rsl_rx_meas_res() makes of a result, `none` where it returns before the
report counts. -/
def MeasResEvent.parsed (e : MeasResEvent) : Option (UInt8 × Si.MeasRep) :=
  if !e.mayReceiveData then none
  else match e.msg.measResNr,e.msg.uplinkMeas,e.msg.bsPower with
    | some nr,some _,some _ => match e.msg.l3Info with
      | none => some (nr,{})
      | some (msgType,data) => (Si.gsm48ParseMeasRep e.neighList msgType data {}).map (nr,·)
    | _,_,_ => none

/-- A report's cells, as far as they count. -/
def received (nr : UInt8) (rep : Si.MeasRep) : Received := ⟨nr,(List.range rep.numCell).map rep.cell⟩

def MeasResEvent.accepted (e : MeasResEvent) : Option Received :=
  e.parsed.map fun r => received r.1 r.2

/-- on_measurement_report() of either algorithm, as far as it collects data on neighbours. -/
def onMeasurementReport (algorithm : Algorithm) (lchan : MeasLchan) (mr : Received) :
    Except Fault MeasLchan :=
  match lchan.type with
  | .tchF | .tchH =>
    if 0 < mr.cell.length ∧ mr.cell.length < 7 then do
      let (neighMeas,_) ← processMeasNeigh algorithm lchan.neighMeas mr.report
      return { lchan with neighMeas }
    else .ok lchan
  | _ => .ok lchan

def hoMeasRep (algorithm : Option Algorithm) (lchan : MeasLchan) (mr : Received) :
    Except Fault MeasLchan :=
  match algorithm with
  | none => .ok lchan
  | some a => onMeasurementReport a lchan mr

def rslRxMeasRes (lchan : MeasLchan) (e : MeasResEvent) : Except Fault MeasLchan :=
  let i := Fin.ofNat 10 lchan.measRepIdx
  let lchan := { lchan with measRep := Function.update lchan.measRep i {}
                            measRepIdx := (lchan.measRepIdx + 1) % 10 }
  match e.parsed with
  | none => .ok lchan
  | some (nr,rep) =>
    let lchan := { lchan with measRep := Function.update lchan.measRep i rep
                              measRepCount := lchan.measRepCount + 1
                              measRepLastSeenNr := nr }
    hoMeasRep e.algorithm lchan (received nr rep)

inductive MeasInput where
  | measRes (e : MeasResEvent)
  /-- The channel is released, lchan_reset(), and taken into use again with this type. -/
  | reset (type : ChanT)

def measStep (lchan : MeasLchan) : MeasInput → Except Fault MeasLchan
  | .measRes e => rslRxMeasRes lchan e
  | .reset type => .ok { type }

inductive MeasRepField where
  | dlRxlevFull
  | dlRxlevSub

def eInval : Int := 22

def getField (rep : Si.MeasRep) : MeasRepField → Int
  | .dlRxlevFull => if !rep.dlValid then -eInval else rep.dlFullRxLev
  | .dlRxlevSub => if !rep.dlValid then -eInval else rep.dlSubRxLev

def getMeasRepAvg (lchan : MeasLchan) (field : MeasRepField) (num : Nat) : Int :=
  if num < 1 then -eInval
  else if lchan.measRepCount < num then -eInval
  else
    let idx := calcInitialIdx 10 lchan.measRepIdx num
    let vals := ((List.range num).map fun i =>
      getField (lchan.measRep (Fin.ofNat 10 ((idx + i) % 2 ^ 32))) field).filter fun val => 0 ≤ val
    if vals.length = 0 then -eInval else vals.sum.tdiv vals.length

/-- What handover uses of a `struct gsm_bts`: its number, the ARFCN of its C0 and its BSIC. -/
structure NeighBts where
  nr : Nat
  arfcn : UInt16
  bsic : UInt8
  deriving DecidableEq, Repr

/-- The loop of bts_by_neighbor_ident(). -/
def btsFrom (searchFor : Neighbor.Key) :
    List NeighBts → Option NeighBts → Option NeighBts → Option NeighBts
  | [],found,wildcardMatch => found.or wildcardMatch
  | bts :: rest,found,wildcardMatch =>
    let entry : Neighbor.Key := ⟨Neighbor.keyAnyBts,bts.arfcn,bts.bsic⟩
    let exact := Neighbor.neighborIdentKeyMatch entry searchFor true
    if exact && found.isSome then found
    else btsFrom searchFor rest (if exact then some bts else found)
      (if Neighbor.neighborIdentKeyMatch entry searchFor false then some bts else wildcardMatch)

def btsByNeighborIdent (btsList : List NeighBts) (searchFor : Neighbor.Key) : Option NeighBts :=
  btsFrom searchFor btsList none none

/-- The configuration that the collecting of candidates reads; rxlev2dbm() is a function of
libosmocore. -/
structure HoConfig (V : Type) where
  bts : NeighBts
  btsList : List NeighBts
  neighborBssCells : Option (Neighbor.Store V)
  fullTdma : Bool
  rxlevAvgWin : Nat
  rxlevNeighAvgWin : Nat
  asActive : Bool
  hoActive : Bool
  pwrHysteresis : Nat
  minRxlev : NeighBts → Int
  rxlev2dbm : Int → Int

/-- `struct ho_candidate`, without the requirements that are decided later. -/
inductive HoCandidate (V : Type) where
  | assignment (avg : Int)
  | handover (nik : Neighbor.Key) (bts : Option NeighBts) (cil : Option V) (avg : Int)
  deriving DecidableEq

def neighborKey (bts : NeighBts) (id : CellId) : Neighbor.Key := ⟨bts.nr,.ofNat id.1,.ofNat id.2⟩

section Collect

variable {V : Type} (cfg : HoConfig V) (lchan : MeasLchan)

def collectHandoverCandidate (includeWeakerRxlev : Bool) (avRxlev : Int) (nmp : NeighMeasProc) :
    List (HoCandidate V) :=
  let ni := neighborKey cfg.bts nmp.id
  if nmp.arfcn = 0 then []
  else if nmp.lastSeenNr ≠ lchan.measRepLastSeenNr then []
  else
    let neighborBts := btsByNeighborIdent cfg.btsList ni
    let neighborCil := if neighborBts.isSome then none
      else Neighbor.neighborIdentGet cfg.neighborBssCells ni
    if neighborBts.isNone && neighborCil.isNone then []
    else if neighborBts = some cfg.bts then []
    else
      let avg := Two.neighMeasAvg nmp cfg.rxlevNeighAvgWin
      if !includeWeakerRxlev && avg ≤ avRxlev + cfg.pwrHysteresis then []
      else if cfg.rxlev2dbm avg < cfg.minRxlev (neighborBts.getD cfg.bts) then []
      else [.handover ni neighborBts neighborCil avg]

def collectCandidatesForLchan (includeWeakerRxlev : Bool) : List (HoCandidate V) :=
  let avRxlev := getMeasRepAvg lchan (if cfg.fullTdma then .dlRxlevFull else .dlRxlevSub) cfg.rxlevAvgWin
  if avRxlev < 0 then []
  else (if cfg.asActive then [.assignment avRxlev] else []) ++
    (if cfg.hoActive then (List.finRange 10).flatMap fun i =>
      collectHandoverCandidate cfg lchan includeWeakerRxlev avRxlev (lchan.neighMeas i) else [])

end Collect

def lastAccepted (last : Option Received) : List MeasInput → Option Received
  | [] => last
  | .measRes e :: is => lastAccepted (e.accepted.or last) is
  | .reset _ :: is => lastAccepted last is

/-- A neighbour may be a candidate only if the report at hand has it. -/
def OnlyFresh (last : Option Received) (lchan : MeasLchan) : Prop :=
  ∀ (V : Type) (cfg : HoConfig V) (includeWeakerRxlev : Bool) nik bts cil avg,
    HoCandidate.handover nik bts cil avg ∈ collectCandidatesForLchan cfg lchan includeWeakerRxlev →
    ∃ mr, last = some mr ∧ ∃ id ∈ mr.ids, nik = neighborKey cfg.bts id

/-- The number of an accepted report is not that of an entry whose cell the report lacks. -/
def NewNumber (lchan : MeasLchan) : MeasInput → Prop
  | .measRes e => ∀ mr, e.accepted = some mr → ∀ j, (lchan.neighMeas j).arfcn ≠ 0 →
      (lchan.neighMeas j).lastSeenNr = mr.nr → (lchan.neighMeas j).id ∈ mr.ids
  | .reset _ => True

section Freshness

/-- An entry in use stands for a cell of the report, or is one from before with its old number. -/
def FromReport (ids : List CellId) (before after : NeighMeas) : Prop :=
  ∀ j, (after j).arfcn ≠ 0 → (after j).id ∈ ids ∨
    ((before j).arfcn ≠ 0 ∧ (after j).id = (before j).id ∧ (after j).lastSeenNr = (before j).lastSeenNr)

theorem FromReport.refl (ids : List CellId) (neighMeas : NeighMeas) :
    FromReport ids neighMeas neighMeas := fun _ h => .inr ⟨h,rfl,rfl⟩

theorem FromReport.update {ids : List CellId} {before after : NeighMeas}
    (h : FromReport ids before after) (j : Fin 10) {nmp : NeighMeasProc}
    (hn : nmp.arfcn ≠ 0 → nmp.id ∈ ids ∨
      ((after j).arfcn ≠ 0 ∧ nmp.id = (after j).id ∧ nmp.lastSeenNr = (after j).lastSeenNr)) :
    FromReport ids before (Function.update after j nmp) := by
  intro k hk
  by_cases he : k = j
  · subst he
    rw [Function.update_self] at hk ⊢
    rcases hn hk with hid | ⟨hu,hid,hnr⟩
    · exact .inl hid
    · rcases h k hu with hm | ⟨hu',hid',hnr'⟩
      · exact .inl (hid ▸ hm)
      · exact .inr ⟨hu',hid.trans hid',hnr.trans hnr'⟩
  · rw [Function.update_of_ne he] at hk ⊢
    exact h k hk

theorem cellInRep_mem {cells : List RepCell} {arfcn bsic i : Nat} {mrc : RepCell}
    (h : (Two.cellInRep cells arfcn bsic).bind (fun i => cells[i]?.map (i,·)) = some (i,mrc)) :
    (arfcn,bsic) ∈ cellIds cells ∧ cells[i]? = some mrc := by
  simp only [Option.bind_eq_some_iff,Option.map_eq_some_iff,Prod.mk.injEq] at h
  obtain ⟨k,hk,mrc',hget,rfl,rfl⟩ := h
  obtain ⟨hlt,hp,_⟩ := List.findIdx?_eq_some_iff_getElem.mp hk
  have hm : cells[k] = mrc' := by
    rw [List.getElem?_eq_getElem hlt,Option.some.injEq] at hget
    exact hget
  rw [hm] at hp
  refine ⟨List.mem_map.mpr ⟨mrc',List.mem_of_getElem? hget,?_⟩,hget⟩
  simpa [cellId] using hp

theorem updateKnown_fromReport (nr : UInt8) (js : List (Fin 10)) {ids : List CellId}
    {before neighMeas : NeighMeas} {cells : List RepCell} (hids : cellIds cells = ids)
    (h : FromReport ids before neighMeas) :
    FromReport ids before (js.foldl (Two.updateKnown nr) (neighMeas,cells)).1 ∧
      cellIds (js.foldl (Two.updateKnown nr) (neighMeas,cells)).2 = ids := by
  induction js generalizing neighMeas cells with
  | nil => exact ⟨h,hids⟩
  | cons j js ih =>
    rw [List.foldl_cons]
    simp only [Two.updateKnown]
    split
    · exact ih hids h
    · rename_i hu
      split
      · rename_i i mrc hfound
        obtain ⟨hmem,hget⟩ := cellInRep_mem hfound
        refine ih ?_ (h.update j fun _ => .inl (hids ▸ hmem))
        rw [← hids,cellIds,List.map_set]
        apply List.ext_getElem?
        intro k
        by_cases hk : i = k
        · subst hk
          obtain ⟨hlt,hm⟩ := List.getElem?_eq_some_iff.mp hget
          simp [cellIds,hlt,hm]
        · rw [List.getElem?_set_ne hk]
          rfl
      · exact ih hids (h.update j fun _ => .inr ⟨hu,rfl,rfl⟩)

theorem addNew_fromReport (nr : UInt8) {ids : List CellId} {before neighMeas neighMeas' : NeighMeas}
    {cells cells' : List RepCell} (hids : ∀ c ∈ cells, cellId c.toMeasRepCell ∈ ids)
    (h : FromReport ids before neighMeas)
    (hok : Two.addNew nr neighMeas cells = .ok (neighMeas',cells')) :
    FromReport ids before neighMeas' := by
  induction cells generalizing neighMeas cells' with
  | nil =>
    cases hok
    exact h
  | cons c cells ih =>
    have hrest : ∀ c' ∈ cells, cellId c'.toMeasRepCell ∈ ids := fun c' hc' => hids c' (by simp [hc'])
    simp only [Two.addNew] at hok
    split at hok
    · simp only [bind_eq_ok,pure_eq_ok,Except.ok.injEq,Prod.mk.injEq] at hok
      obtain ⟨⟨neighMeas1,cells1⟩,hok1,rfl,_⟩ := hok
      exact ih hrest h hok1
    · split at hok
      · cases hok
      · rename_i j _
        simp only [bind_eq_ok,pure_eq_ok,Except.ok.injEq,Prod.mk.injEq] at hok
        obtain ⟨⟨neighMeas1,cells1⟩,hok1,rfl,_⟩ := hok
        refine ih hrest ?_ hok1
        apply h.update j
        intro _
        exact .inl (hids c (by simp))

theorem processMeasNeigh_fromReport {a : Algorithm} {neighMeas neighMeas' : NeighMeas} {mr : Received}
    {mr' : Report} (hok : processMeasNeigh a neighMeas mr.report = .ok (neighMeas',mr')) :
    FromReport mr.ids neighMeas neighMeas' := by
  have htwo : Two.processMeasNeigh neighMeas mr.report = .ok (neighMeas',mr') := by
    cases a with
    | one => rwa [processMeasNeigh,processMeasNeigh_eq] at hok
    | two => exact hok
  simp only [Two.processMeasNeigh,bind_eq_ok,pure_eq_ok,Except.ok.injEq,Prod.mk.injEq] at htwo
  obtain ⟨⟨neighMeas1,cells1⟩,hnew,rfl,_⟩ := htwo
  obtain ⟨hfirst,hids⟩ := updateKnown_fromReport mr.report.nr (List.finRange 10) (cellIds_report mr)
    (FromReport.refl mr.ids neighMeas)
  refine addNew_fromReport mr.report.nr ?_ hfirst hnew
  intro c hc
  rw [← hids]
  exact List.mem_map_of_mem hc

/-- Entries with the number of the last accepted report are of cells that this report has. -/
def Fresh (last : Option Received) (lchan : MeasLchan) : Prop :=
  ∀ j, (lchan.neighMeas j).arfcn ≠ 0 → (lchan.neighMeas j).lastSeenNr = lchan.measRepLastSeenNr →
    ∃ mr, last = some mr ∧ (lchan.neighMeas j).id ∈ mr.ids

theorem fresh_of_fromReport {mr : Received} {lchan lchan' : MeasLchan}
    (h : FromReport mr.ids lchan.neighMeas lchan'.neighMeas) (hnr : lchan'.measRepLastSeenNr = mr.nr)
    (hnew : ∀ j, (lchan.neighMeas j).arfcn ≠ 0 → (lchan.neighMeas j).lastSeenNr = mr.nr →
      (lchan.neighMeas j).id ∈ mr.ids) : Fresh (some mr) lchan' := by
  intro j hu hseen
  refine ⟨mr,rfl,?_⟩
  rcases h j hu with hid | ⟨hu',hid,hsame⟩
  · exact hid
  · rw [hid]
    exact hnew j hu' (by rw [← hsame,hseen,hnr])

theorem hoMeasRep_spec {a : Option Algorithm} {lchan lchan' : MeasLchan} {mr : Received}
    (hok : hoMeasRep a lchan mr = .ok lchan') :
    FromReport mr.ids lchan.neighMeas lchan'.neighMeas ∧
      lchan'.measRepLastSeenNr = lchan.measRepLastSeenNr := by
  have hsame : FromReport mr.ids lchan.neighMeas lchan.neighMeas ∧
      lchan.measRepLastSeenNr = lchan.measRepLastSeenNr := ⟨.refl _ _,rfl⟩
  simp only [hoMeasRep,onMeasurementReport] at hok
  split at hok
  · cases hok
    exact hsame
  · split at hok
    case h_3 =>
      cases hok
      exact hsame
    all_goals
      split at hok
      · simp only [bind_eq_ok,pure_eq_ok,Except.ok.injEq] at hok
        obtain ⟨⟨neighMeas',mr'⟩,hp,rfl⟩ := hok
        exact ⟨processMeasNeigh_fromReport hp,rfl⟩
      · cases hok
        exact hsame

theorem rslRxMeasRes_fresh {last : Option Received} {lchan lchan' : MeasLchan} {e : MeasResEvent}
    (h : Fresh last lchan) (hnew : NewNumber lchan (.measRes e))
    (hok : rslRxMeasRes lchan e = .ok lchan') : Fresh (e.accepted.or last) lchan' := by
  simp only [rslRxMeasRes] at hok
  split at hok
  · rename_i hp
    cases hok
    have hnone : e.accepted = none := by simp [MeasResEvent.accepted,hp]
    rw [hnone]
    exact h
  · rename_i nr rep hp
    have hsome : e.accepted = some (received nr rep) := by simp [MeasResEvent.accepted,hp]
    obtain ⟨hfrom,hnr⟩ := hoMeasRep_spec hok
    rw [hsome]
    exact fresh_of_fromReport hfrom hnr (hnew _ hsome)

theorem Fresh.run {is : List MeasInput} {last : Option Received} {lchan lchan' : MeasLchan}
    (h : Fresh last lchan) (hnew : GoodRun measStep NewNumber lchan is)
    (hok : EventFsm.run measStep lchan is = .ok lchan') : Fresh (lastAccepted last is) lchan' := by
  induction is generalizing last lchan with
  | nil =>
    cases hok
    exact h
  | cons i is ih =>
    simp only [EventFsm.run] at hok
    simp only [GoodRun] at hnew
    split at hok
    · rename_i lchan1 hstep
      rw [hstep] at hnew
      cases i with
      | measRes e => exact ih (rslRxMeasRes_fresh h hnew.1 hstep) hnew.2 hok
      | reset type =>
        cases hstep
        refine ih ?_ hnew.2 hok
        intro j hu
        exact absurd rfl hu
    · cases hok

theorem collectHandoverCandidate_mem {V : Type} {cfg : HoConfig V} {lchan : MeasLchan} {weaker : Bool}
    {avRxlev avg : Int} {nmp : NeighMeasProc} {nik : Neighbor.Key} {bts : Option NeighBts}
    {cil : Option V}
    (h : .handover nik bts cil avg ∈ collectHandoverCandidate cfg lchan weaker avRxlev nmp) :
    nmp.arfcn ≠ 0 ∧ nmp.lastSeenNr = lchan.measRepLastSeenNr ∧ nik = neighborKey cfg.bts nmp.id := by
  simp only [collectHandoverCandidate] at h
  split at h
  · cases h
  · rename_i hu
    split at h
    · cases h
    · rename_i hseen
      refine ⟨hu,by simpa using hseen,?_⟩
      generalize btsByNeighborIdent cfg.btsList (neighborKey cfg.bts nmp.id) = neighborBts at h
      generalize (if neighborBts.isSome then none else
        Neighbor.neighborIdentGet cfg.neighborBssCells (neighborKey cfg.bts nmp.id)) = neighborCil at h
      -- whichever check comes next, only the last branch adds anything
      repeat
        split at h
        · cases h
      simp only [List.mem_singleton,HoCandidate.handover.injEq] at h
      exact h.1

theorem collectCandidatesForLchan_mem {V : Type} {cfg : HoConfig V} {lchan : MeasLchan} {weaker : Bool}
    {avg : Int} {nik : Neighbor.Key} {bts : Option NeighBts} {cil : Option V}
    (h : .handover nik bts cil avg ∈ collectCandidatesForLchan cfg lchan weaker) :
    ∃ j, (lchan.neighMeas j).arfcn ≠ 0 ∧ (lchan.neighMeas j).lastSeenNr = lchan.measRepLastSeenNr ∧
      nik = neighborKey cfg.bts (lchan.neighMeas j).id := by
  simp only [collectCandidatesForLchan] at h
  generalize getMeasRepAvg lchan (if cfg.fullTdma then .dlRxlevFull else .dlRxlevSub) cfg.rxlevAvgWin =
    avRxlev at h
  split at h
  · cases h
  · rcases List.mem_append.mp h with h | h
    · split at h
      · simp at h
      · cases h
    · split at h
      · obtain ⟨j,_,hj⟩ := List.mem_flatMap.mp h
        exact ⟨j,collectHandoverCandidate_mem hj⟩
      · cases h

theorem Fresh.onlyFresh {last : Option Received} {lchan : MeasLchan} (h : Fresh last lchan) :
    OnlyFresh last lchan := by
  intro V cfg weaker nik bts cil avg hmem
  obtain ⟨j,hu,hseen,hnik⟩ := collectCandidatesForLchan_mem hmem
  obtain ⟨mr,hl,hid⟩ := h j hu hseen
  exact ⟨mr,hl,_,hid,hnik⟩

def freshLchan (type : ChanT) : MeasLchan := { type }

/-- In a run in which no accepted report has the number of an entry whose cell it
lacks, the candidates of every evaluation are neighbours of the last accepted report. -/
theorem stale_never_candidate (type : ChanT) (is : List MeasInput) {lchan : MeasLchan}
    (hnew : GoodRun measStep NewNumber (freshLchan type) is)
    (hok : run measStep (freshLchan type) is = .ok lchan) : OnlyFresh (lastAccepted none is) lchan := by
  have h0 : Fresh none (freshLchan type) := by
    intro j hu
    exact absurd rfl hu
  exact (h0.run hnew hok).onlyFresh

/-- A result with this number and this Measurement Report, for a cell whose only neighbour
frequency is 871. -/
def resultWith (nr : UInt8) (l3 : List (BitVec 8)) : MeasInput :=
  .measRes
    { mayReceiveData := true
      neighList := fun arfcn => arfcn == 871
      algorithm := some .two
      msg :=
        { measResNr := some nr
          uplinkMeas := some fun _ => 0
          bsPower := some 0
          l3Info := some (Si.mtRrMeasRep,fun n => l3.getD n 0) } }

/-- A report with the neighbour 871 of BSIC 5 at level 50, and one without neighbours. -/
def oneCell : List (BitVec 8) := [0x14,0x14,0x00,0x72,0x00,0xa0]
def noCell : List (BitVec 8) := [0x14,0x14,0x00,0x00]

/-- Handover to a BTS on 871 with BSIC 5 is enabled. -/
def hoTo871 : HoConfig Unit where
  bts := ⟨0,868,1⟩
  btsList := [⟨0,868,1⟩,⟨1,871,5⟩]
  neighborBssCells := some []
  fullTdma := true
  rxlevAvgWin := 1
  rxlevNeighAvgWin := 10
  asActive := false
  hoActive := true
  pwrHysteresis := 3
  minRxlev := fun _ => -100
  rxlev2dbm := fun avg => -110 + min 63 avg

def candidate871 : HoCandidate Unit := .handover ⟨0,871,5⟩ (some ⟨1,871,5⟩) none 50

instance (lchan : MeasLchan) : (i : MeasInput) → Decidable (NewNumber lchan i)
  | .measRes e => match h : e.accepted with
    | none => isTrue (by simp [NewNumber,h])
    | some mr => decidable_of_iff (∀ j, (lchan.neighMeas j).arfcn ≠ 0 →
        (lchan.neighMeas j).lastSeenNr = mr.nr → mr.ids.contains (lchan.neighMeas j).id = true)
        (by simp [NewNumber,h])
  | .reset _ => isTrue trivial

theorem stale_never_candidate_one :
    ∃ lchan, run measStep (freshLchan .tchF) [resultWith 6 noCell,resultWith 7 oneCell] = .ok lchan ∧
      candidate871 ∈ collectCandidatesForLchan hoTo871 lchan false ∧
      OnlyFresh (lastAccepted none [resultWith 6 noCell,resultWith 7 oneCell]) lchan := by
  have hnew : GoodRun measStep NewNumber (freshLchan .tchF) [resultWith 6 noCell,resultWith 7 oneCell] := by
    decide +kernel
  obtain ⟨lchan,hok,hc⟩ : ∃ lchan,
      run measStep (freshLchan .tchF) [resultWith 6 noCell,resultWith 7 oneCell] = .ok lchan ∧
      candidate871 ∈ collectCandidatesForLchan hoTo871 lchan false := by
    decide +kernel
  exact ⟨lchan,hok,hc,stale_never_candidate .tchF _ hnew hok⟩

/-- The numbers have come round to 7 once more when the next result arrives: its report has no
neighbour at all, and the one of the old report with number 7 is a candidate. -/
theorem stale_candidate :
    ∃ lchan, run measStep (freshLchan .tchF) [resultWith 7 oneCell,resultWith 7 noCell] = .ok lchan ∧
      ¬OnlyFresh (lastAccepted none [resultWith 7 oneCell,resultWith 7 noCell]) lchan := by
  obtain ⟨lchan,hok,hc⟩ : ∃ lchan,
      run measStep (freshLchan .tchF) [resultWith 7 oneCell,resultWith 7 noCell] = .ok lchan ∧
      candidate871 ∈ collectCandidatesForLchan hoTo871 lchan false := by
    decide +kernel
  have hlast : (lastAccepted none [resultWith 7 oneCell,resultWith 7 noCell]).map Received.ids =
      some [] := by
    decide +kernel
  refine ⟨lchan,hok,?_⟩
  intro h
  obtain ⟨mr,hmr,id,hid,_⟩ := h Unit hoTo871 false _ _ _ _ hc
  rw [hmr,Option.map_some,Option.some.injEq] at hlast
  rw [hlast] at hid
  cases hid

end Freshness

end OsmoBsc.Hodec
