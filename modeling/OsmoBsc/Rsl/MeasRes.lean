import OsmoBsc.Hodec.Candidates
set_option autoImplicit false

/-! Measurement results: what is kept of them in the ring of an lchan, and the averages over it. -/

namespace OsmoBsc.Rsl
open Hodec (eInval calcInitialIdx ring_place)

def eIo : Int := 5

/-- `struct gsm_meas_rep`, with a field for each of its flags. -/
structure GsmMeasRep extends Si.MeasRep where
  nr : UInt8 := 0
  dlDtx : Bool := false
  msTo : Bool := false
  msL1 : Bool := false
  fpc : Bool := false
  ulFullRxLev : Nat := 0
  ulSubRxLev : Nat := 0
  ulFullRxQual : Nat := 0
  ulSubRxQual : Nat := 0
  bsPower : UInt8 := 0
  msTimingOffset : Int := 0
  msL1Pwr : Int := 0
  msL1Ta : Nat := 0

/-- The information elements of a MEASUREMENT RESULT as rsl_tlv_parse() finds them: the L3 information
is a message type with the octets after it. -/
structure MeasRes where
  measResNr : Option UInt8
  uplinkMeas : Option (List (BitVec 8))
  bsPower : Option UInt8
  msTimingOffset : Option UInt8
  l1Info : Option (BitVec 8 × BitVec 8)
  l3Info : Option (BitVec 8 × Si.Octets)

/-- A MEASUREMENT RESULT comes in: whether lchan_may_receive_data() holds, the BTS'
`si_common.neigh_list`, whether the BTS is a BS11 or a Nokia site, and ms_pwr_dbm() for its band. -/
structure MeasResEvent where
  mayReceiveData : Bool
  neighList : Si.Bitvec
  taShifted : Bool
  msPwrDbm : Nat → Int
  msg : MeasRes

/-- What measurement results change in a `struct gsm_lchan`; lchan_reset() leaves this. -/
structure MeasLchan where
  measRep : Fin 10 → GsmMeasRep := fun _ => {}
  measRepIdx : Nat := 0
  measRepCount : Nat := 0
  measRepLastSeenNr : UInt8 := 255
  rqdTa : Nat := 0

def lchanNextMeasRep (lchan : MeasLchan) : MeasLchan × Fin 10 :=
  let i := Fin.ofNat 10 lchan.measRepIdx
  ({ lchan with measRep := Function.update lchan.measRep i {}, measRepIdx := (lchan.measRepIdx + 1) % 10 },i)

/-- The uplink part of a report. -/
def GsmMeasRep.withUplink (mr : GsmMeasRep) (val : List (BitVec 8)) : GsmMeasRep :=
  if val.length < 3 then mr
  else
    let v := fun i => (val.getD i 0).toNat
    { mr with dlDtx := v 0 &&& 0x40 != 0
              ulFullRxLev := v 0 &&& 0x3f
              ulSubRxLev := v 1 &&& 0x3f
              ulFullRxQual := (v 2 >>> 3) &&& 0x7
              ulSubRxQual := v 2 &&& 0x7 }

def GsmMeasRep.withTimingOffset (mr : GsmMeasRep) : Option UInt8 → GsmMeasRep
  | none => mr
  | some val => { mr with msTimingOffset := (val.toNat : Int) - 63, msTo := true }

def GsmMeasRep.withL1Info (mr : GsmMeasRep) (e : MeasResEvent) : GsmMeasRep :=
  match e.msg.l1Info with
  | none => mr
  | some (v0,v1) =>
    { mr with msL1 := true
              msL1Pwr := e.msPwrDbm (v0.toNat >>> 3)
              fpc := v0.toNat &&& 0x04 != 0
              msL1Ta := if e.taShifted then v1.toNat >>> 2 else v1.toNat }

def fillMeasRep (e : MeasResEvent) (nr : UInt8) (val : List (BitVec 8)) (bsPower : UInt8) : GsmMeasRep :=
  let mr := { ({ nr } : GsmMeasRep).withUplink val with bsPower }
  (mr.withTimingOffset e.msg.msTimingOffset).withL1Info e

/-- What is returned and the lchan after a result. -/
def rslRxMeasRes (lchan : MeasLchan) (e : MeasResEvent) : Int × MeasLchan :=
  let (lchan,i) := lchanNextMeasRep lchan
  if !e.mayReceiveData then (0,lchan)
  else match e.msg.measResNr,e.msg.uplinkMeas,e.msg.bsPower with
    | some nr,some val,some bsPower =>
      let mr := fillMeasRep e nr val bsPower
      let lchan := { lchan with measRep := Function.update lchan.measRep i mr
                                rqdTa := if e.msg.l1Info.isSome then mr.msL1Ta else lchan.rqdTa }
      let parsed := match e.msg.l3Info with
        | none => some mr.toMeasRep
        | some (msgType,data) => Si.gsm48ParseMeasRep e.neighList msgType data mr.toMeasRep
      match parsed with
      | none => (-eInval,lchan)
      | some rep =>
        (0,{ lchan with measRep := Function.update lchan.measRep i { mr with toMeasRep := rep }
                        measRepCount := lchan.measRepCount + 1
                        measRepLastSeenNr := mr.nr })
    | _,_,_ => (-eIo,lchan)

inductive MeasRepField where
  | dlRxlevFull
  | dlRxlevSub
  | dlRxqualFull
  | dlRxqualSub
  | ulRxlevFull
  | ulRxlevSub
  | ulRxqualFull
  | ulRxqualSub
  deriving DecidableEq, Repr

def getField (rep : GsmMeasRep) : MeasRepField → Int
  | .dlRxlevFull => if !rep.dlValid then -eInval else rep.dlFullRxLev
  | .dlRxlevSub => if !rep.dlValid then -eInval else rep.dlSubRxLev
  | .dlRxqualFull => if !rep.dlValid then -eInval else rep.dlFullRxQual
  | .dlRxqualSub => if !rep.dlValid then -eInval else rep.dlSubRxQual
  | .ulRxlevFull => rep.ulFullRxLev
  | .ulRxlevSub => rep.ulSubRxLev
  | .ulRxqualFull => rep.ulFullRxQual
  | .ulRxqualSub => rep.ulSubRxQual

def getMeasRepAvg (lchan : MeasLchan) (field : MeasRepField) (num : Nat) : Int :=
  if num < 1 then -eInval
  else if lchan.measRepCount < num then -eInval
  else
    let idx := calcInitialIdx 10 lchan.measRepIdx num
    let vals := ((List.range num).map fun i =>
      getField (lchan.measRep (Fin.ofNat 10 ((idx + i) % 2 ^ 32))) field).filter fun val => 0 ≤ val
    if vals.length = 0 then -eInval else vals.sum.tdiv vals.length

/-- The report of a result that is accepted: the channel is in use, the mandatory IEs are there, and the L3
information is a measurement report, if there is one. -/
def MeasResEvent.accepted (e : MeasResEvent) : Option GsmMeasRep :=
  if !e.mayReceiveData then none
  else match e.msg.measResNr,e.msg.uplinkMeas,e.msg.bsPower with
    | some nr,some val,some bsPower =>
      let mr := fillMeasRep e nr val bsPower
      match e.msg.l3Info with
      | none => some mr
      | some (msgType,data) =>
        (Si.gsm48ParseMeasRep e.neighList msgType data mr.toMeasRep).map fun rep => { mr with toMeasRep := rep }
    | _,_,_ => none

/-- The accepted reports of a sequence of results, the last one at the end. -/
def acceptedReports (es : List MeasResEvent) : List GsmMeasRep := es.filterMap MeasResEvent.accepted

def rxMeasResults (lchan : MeasLchan) (es : List MeasResEvent) : MeasLchan :=
  es.foldl (fun lchan e => (rslRxMeasRes lchan e).2) lchan

/-- The truncated mean of the valid values of a field, -EINVAL if there is none. -/
def meanOf (field : MeasRepField) (reps : List GsmMeasRep) : Int :=
  let vals := (reps.map fun rep => getField rep field).filter fun val => 0 ≤ val
  if vals.length = 0 then -eInval else vals.sum.tdiv vals.length

def Averages (lchan : MeasLchan) (reps : List GsmMeasRep) : Prop :=
  ∀ field num, 1 ≤ num → num ≤ reps.length → num ≤ 10 →
    getMeasRepAvg lchan field num = meanOf field (reps.drop (reps.length - num))

def NoneLost (count : Nat) : List MeasResEvent → Prop
  | [] => True
  | e :: es => (count = 0 ∨ e.accepted.isSome) ∧ NoneLost (count + e.accepted.toList.length) es

section Step

variable {lchan : MeasLchan} {e : MeasResEvent}

theorem fillMeasRep_down (e : MeasResEvent) (nr : UInt8) (val : List (BitVec 8)) (bsPower : UInt8) :
    (fillMeasRep e nr val bsPower).toMeasRep = {} ∧ (fillMeasRep e nr val bsPower).nr = nr := by
  unfold fillMeasRep GsmMeasRep.withL1Info GsmMeasRep.withTimingOffset GsmMeasRep.withUplink
  split <;> split <;> split <;> exact ⟨rfl,rfl⟩

theorem rslRxMeasRes_cases (lchan : MeasLchan) (e : MeasResEvent) :
    (∃ rep ta, e.accepted = some rep ∧ (rslRxMeasRes lchan e).2 =
      { measRep := Function.update lchan.measRep (Fin.ofNat 10 lchan.measRepIdx) rep
        measRepIdx := (lchan.measRepIdx + 1) % 10
        measRepCount := lchan.measRepCount + 1
        measRepLastSeenNr := rep.nr
        rqdTa := ta })
    ∨ ∃ left ta, e.accepted = none ∧ left.toMeasRep = {} ∧ (rslRxMeasRes lchan e).2 =
      { lchan with measRep := Function.update lchan.measRep (Fin.ofNat 10 lchan.measRepIdx) left
                   measRepIdx := (lchan.measRepIdx + 1) % 10
                   rqdTa := ta } := by
  unfold rslRxMeasRes MeasResEvent.accepted lchanNextMeasRep
  dsimp only
  by_cases hdata : (!e.mayReceiveData) = true
  · rw [if_pos hdata,if_pos hdata]
    exact .inr ⟨_,_,rfl,rfl,rfl⟩
  rw [if_neg hdata,if_neg hdata]
  split
  · rename_i nr val bsPower _ _ _
    obtain ⟨hdown,-⟩ := fillMeasRep_down e nr val bsPower
    simp only [Function.update_idem]
    generalize fillMeasRep e nr val bsPower = mr at hdown
    cases hl3 : e.msg.l3Info with
    | none => exact .inl ⟨mr,_,rfl,rfl⟩
    | some l3 =>
      dsimp only
      cases hparse : Si.gsm48ParseMeasRep e.neighList l3.1 l3.2 mr.toMeasRep with
      | none => exact .inr ⟨mr,_,rfl,hdown,rfl⟩
      | some rep => exact .inl ⟨{ mr with toMeasRep := rep },_,rfl,rfl⟩
  · exact .inr ⟨_,_,rfl,rfl,rfl⟩

/-- The ring has the accepted reports behind the results that were rejected before them. -/
def Kept (lchan : MeasLchan) (reps : List GsmMeasRep) : Prop :=
  ∃ lost, Ring.Holds lchan.measRep (lost ++ reps) ∧ lchan.measRepIdx = (lost ++ reps).length % 10
    ∧ lchan.measRepCount = reps.length

variable {reps : List GsmMeasRep}

theorem kept_fresh : Kept {} [] := ⟨[],Ring.holds_nil _,rfl,rfl⟩

theorem ofNat_idx (n : Nat) : Fin.ofNat 10 (n % 10) = Fin.ofNat 10 n := Fin.ext (Nat.mod_mod n 10)

theorem Kept.step (h : Kept lchan reps) (hgood : lchan.measRepCount = 0 ∨ e.accepted.isSome = true) :
    Kept (rslRxMeasRes lchan e).2 (reps ++ e.accepted.toList) := by
  obtain ⟨lost,hring,hidx,hcount⟩ := h
  obtain ⟨rep,ta,hacc,hstep⟩ | ⟨left,ta,hacc,-,hstep⟩ := rslRxMeasRes_cases lchan e
  · rw [hacc,hstep]
    refine ⟨lost,?_,?_,?_⟩
    · have hpush := hring.push rep
      rw [List.append_assoc,← ofNat_idx,← hidx] at hpush
      exact hpush
    · rw [Option.toList_some,← List.append_assoc,List.length_append,List.length_singleton,hidx]
      dsimp only
      omega
    · rw [Option.toList_some,List.length_append,List.length_singleton,hcount]
  · -- a rejected result has only others before it
    have hnil : reps = [] := by
      obtain h0 | hsome := hgood
      · exact List.eq_nil_of_length_eq_zero (hcount.symm.trans h0)
      · rw [hacc] at hsome
        cases hsome
    subst hnil
    rw [List.append_nil] at hring hidx
    rw [hacc,hstep]
    refine ⟨lost ++ [left],?_,?_,hcount⟩
    · have hpush := hring.push left
      rw [← ofNat_idx,← hidx] at hpush
      rw [Option.toList_none,List.append_nil,List.append_nil]
      exact hpush
    · rw [Option.toList_none,List.append_nil,List.append_nil,List.length_append,List.length_singleton,hidx]
      dsimp only
      omega

theorem Kept.run {es : List MeasResEvent} (h : Kept lchan reps) (hgood : NoneLost reps.length es) :
    Kept (rxMeasResults lchan es) (reps ++ acceptedReports es) := by
  induction es generalizing lchan reps with
  | nil =>
    rw [acceptedReports,List.filterMap_nil,List.append_nil]
    exact h
  | cons e es ih =>
    obtain ⟨hfirst,hrest⟩ := hgood
    have hcount : lchan.measRepCount = reps.length := by
      obtain ⟨_,-,-,hcount⟩ := h
      exact hcount
    rw [← List.length_append] at hrest
    have hrun := ih (h.step (e := e) (hcount ▸ hfirst)) hrest
    have hacc : acceptedReports (e :: es) = e.accepted.toList ++ acceptedReports es := by
      rw [acceptedReports,List.filterMap_cons]
      cases e.accepted <;> rfl
    rw [hacc,← List.append_assoc]
    exact hrun

theorem NoneLost.left {n : Nat} {pre post : List MeasResEvent} (h : NoneLost n (pre ++ post)) : NoneLost n pre := by
  induction pre generalizing n with
  | nil => trivial
  | cons e pre ih => exact ⟨h.1,ih h.2⟩

theorem Kept.averages (h : Kept lchan reps) : Averages lchan reps := by
  obtain ⟨lost,hring,hidx,hcount⟩ := h
  intro field num h1 hnum h10
  have hlen : num ≤ (lost ++ reps).length := by
    rw [List.length_append]
    omega
  have hdrop : (lost ++ reps).drop ((lost ++ reps).length - num) = reps.drop (reps.length - num) := by
    rw [List.length_append,show lost.length + reps.length - num = lost.length + (reps.length - num) by omega,
      List.drop_length_add_append]
  have hvals : ((List.range num).map fun i =>
      getField (lchan.measRep (Fin.ofNat 10 ((calcInitialIdx 10 lchan.measRepIdx num + i) % 2 ^ 32))) field)
      = (reps.drop (reps.length - num)).map fun rep => getField rep field := by
    rw [← hdrop,← hring.window hlen h10,List.map_map,hidx]
    refine List.map_congr_left fun i hi => ?_
    rw [ring_place h10 hlen (List.mem_range.mp hi)]
    rfl
  rw [getMeasRepAvg,if_neg (by omega),if_neg (by omega)]
  dsimp only
  rw [hvals]
  rfl

end Step

/-- While no result is rejected behind an accepted one, the averages are those over the accepted reports. -/
theorem measRepAvg_accepted {es : List MeasResEvent} (h : NoneLost 0 es) (pre post : List MeasResEvent)
    (hes : es = pre ++ post) : Averages (rxMeasResults {} pre) (acceptedReports pre) := by
  subst hes
  have hrun := kept_fresh.run h.left
  rw [List.nil_append] at hrun
  exact hrun.averages

section Handover

open EventFsm

/-- What the handover decision sees of an lchan of this type, with what it has collected on the neighbours. -/
def MeasLchan.seen (lchan : MeasLchan) (type : ChanT) (neighMeas : Hodec.NeighMeas) : Hodec.MeasLchan where
  type
  neighMeas
  measRep := fun i => (lchan.measRep i).toMeasRep
  measRepIdx := lchan.measRepIdx
  measRepCount := lchan.measRepCount
  measRepLastSeenNr := lchan.measRepLastSeenNr

def MeasResEvent.seen (e : MeasResEvent) (algorithm : Option Hodec.Algorithm) : Hodec.MeasResEvent where
  mayReceiveData := e.mayReceiveData
  neighList := e.neighList
  algorithm
  msg := ⟨e.msg.measResNr,e.msg.uplinkMeas.map fun val i => val.getD i 0,e.msg.bsPower,e.msg.l3Info⟩

theorem update_seen (lchan : MeasLchan) (i : Fin 10) (rep : GsmMeasRep) :
    (fun j => (Function.update lchan.measRep i rep j).toMeasRep)
      = Function.update (fun j => (lchan.measRep j).toMeasRep) i rep.toMeasRep := by
  funext j
  by_cases h : j = i
  · subst h
    rw [Function.update_self,Function.update_self]
  · rw [Function.update_of_ne h,Function.update_of_ne h]

theorem parsed_seen (e : MeasResEvent) (algorithm : Option Hodec.Algorithm) :
    (e.seen algorithm).parsed = e.accepted.map fun rep => (rep.nr,rep.toMeasRep) := by
  unfold Hodec.MeasResEvent.parsed MeasResEvent.accepted MeasResEvent.seen
  dsimp only
  by_cases hdata : (!e.mayReceiveData) = true
  · rw [if_pos hdata,if_pos hdata,Option.map_none]
  rw [if_neg hdata,if_neg hdata]
  cases hnr : e.msg.measResNr with
  | none => rfl
  | some nr => cases hval : e.msg.uplinkMeas with
    | none => rfl
    | some val => cases hbs : e.msg.bsPower with
      | none => rfl
      | some bsPower =>
        obtain ⟨hdown,hfill⟩ := fillMeasRep_down e nr val bsPower
        dsimp only [Option.map_some]
        cases hl3 : e.msg.l3Info with
        | none =>
          dsimp only [Option.map_some]
          rw [hdown,hfill]
        | some l3 =>
          dsimp only
          rw [hdown,hfill,Option.map_map]
          rfl

theorem hoMeasRep_neighMeas {algorithm : Option Hodec.Algorithm} {lchan lchan' : Hodec.MeasLchan}
    {mr : Hodec.Received} (h : Hodec.hoMeasRep algorithm lchan mr = .ok lchan') :
    ∃ neighMeas, lchan' = { lchan with neighMeas } := by
  unfold Hodec.hoMeasRep at h
  split at h
  · cases h
    exact ⟨_,rfl⟩
  unfold Hodec.onMeasurementReport at h
  split at h
  case h_3 =>
    cases h
    exact ⟨_,rfl⟩
  all_goals
    split at h
    · obtain ⟨⟨neighMeas,_⟩,-,h⟩ := bind_eq_ok.mp h
      cases h
      exact ⟨neighMeas,rfl⟩
    · cases h
      exact ⟨_,rfl⟩

/-- What the handover decision sees after a result is what it makes of it itself. -/
theorem rslRxMeasRes_seen {lchan : MeasLchan} {e : MeasResEvent} {type : ChanT} {neighMeas : Hodec.NeighMeas}
    {algorithm : Option Hodec.Algorithm} {lchan' : Hodec.MeasLchan}
    (h : Hodec.rslRxMeasRes (lchan.seen type neighMeas) (e.seen algorithm) = .ok lchan') :
    ∃ neighMeas', lchan' = (rslRxMeasRes lchan e).2.seen type neighMeas' := by
  unfold Hodec.rslRxMeasRes at h
  rw [parsed_seen] at h
  obtain ⟨rep,ta,hacc,hstep⟩ | ⟨left,ta,hacc,hleft,hstep⟩ := rslRxMeasRes_cases lchan e
  · rw [hacc] at h
    rw [hstep]
    obtain ⟨neighMeas',rfl⟩ := hoMeasRep_neighMeas h
    dsimp only [MeasLchan.seen]
    rw [update_seen,Function.update_idem]
    exact ⟨neighMeas',rfl⟩
  · rw [hacc] at h
    rw [hstep]
    cases h
    dsimp only [MeasLchan.seen]
    rw [update_seen,hleft]
    exact ⟨neighMeas,rfl⟩

theorem rxMeasResults_seen {lchan : MeasLchan} {es : List (MeasResEvent × Option Hodec.Algorithm)} {type : ChanT}
    {neighMeas : Hodec.NeighMeas} {lchan' : Hodec.MeasLchan}
    (h : run Hodec.measStep (lchan.seen type neighMeas) (es.map fun e => .measRes (e.1.seen e.2)) = .ok lchan') :
    ∃ neighMeas', lchan' = (rxMeasResults lchan (es.map Prod.fst)).seen type neighMeas' := by
  induction es generalizing lchan neighMeas with
  | nil =>
    cases h
    exact ⟨neighMeas,rfl⟩
  | cons e es ih =>
    obtain ⟨lchan1,hstep,h⟩ := run_cons_eq_ok.mp h
    obtain ⟨neighMeas1,rfl⟩ := rslRxMeasRes_seen hstep
    exact ih h

def ofHodec : Hodec.MeasRepField → MeasRepField
  | .dlRxlevFull => .dlRxlevFull
  | .dlRxlevSub => .dlRxlevSub

theorem getMeasRepAvg_seen (lchan : MeasLchan) (type : ChanT) (neighMeas : Hodec.NeighMeas)
    (field : Hodec.MeasRepField) (num : Nat) :
    Hodec.getMeasRepAvg (lchan.seen type neighMeas) field num = getMeasRepAvg lchan (ofHodec field) num := by
  cases field <;> rfl

/-- The level of a call in the handover decision is the mean over the last accepted reports, while no result is
rejected behind an accepted one. -/
theorem handover_level_accepted {es : List (MeasResEvent × Option Hodec.Algorithm)} {type : ChanT}
    {lchan' : Hodec.MeasLchan} (hgood : NoneLost 0 (es.map Prod.fst))
    (hrun : run Hodec.measStep (Hodec.freshLchan type) (es.map fun e => .measRes (e.1.seen e.2)) = .ok lchan')
    (field : Hodec.MeasRepField) {num : Nat} (h1 : 1 ≤ num)
    (hnum : num ≤ (acceptedReports (es.map Prod.fst)).length) (h10 : num ≤ 10) :
    Hodec.getMeasRepAvg lchan' field num = meanOf (ofHodec field)
      ((acceptedReports (es.map Prod.fst)).drop ((acceptedReports (es.map Prod.fst)).length - num)) := by
  obtain ⟨neighMeas',rfl⟩ := @rxMeasResults_seen {} es type _ lchan' hrun
  rw [getMeasRepAvg_seen]
  exact (kept_fresh.run hgood).averages _ num h1 hnum h10

end Handover

/-- A result whose uplink level is `lev`, or one that lacks the uplink measurements. -/
def resultWith (uplinkMeas : Option (List (BitVec 8))) : MeasResEvent where
  mayReceiveData := true
  neighList := fun _ => false
  taShifted := false
  msPwrDbm := fun lvl => 39 - 2 * lvl
  msg := ⟨some 0,uplinkMeas,some 0,none,none,none⟩

def level40 : MeasResEvent := resultWith (some [40,40,0])

def level50 : MeasResEvent := resultWith (some [50,50,0])

theorem measRepAvg_accepted_45 :
    Averages (rxMeasResults {} [resultWith none,level40,level50])
        (acceptedReports [resultWith none,level40,level50])
      ∧ getMeasRepAvg (rxMeasResults {} [resultWith none,level40,level50]) .ulRxlevFull 2 = 45 := by
  have h : NoneLost 0 [resultWith none,level40,level50] :=
    ⟨.inl rfl,.inr rfl,.inr rfl,trivial⟩
  exact ⟨measRepAvg_accepted h _ [] (List.append_nil _).symm,by decide⟩

/-- A result without uplink measurements takes the place of the next report: the average over the last
one is 0 and not 40. -/
theorem measRepAvg_lost : ¬ Averages (rxMeasResults {} [level40,resultWith none])
    (acceptedReports [level40,resultWith none]) := by
  intro h
  have h40 := h .ulRxlevFull 1 (by decide) (by decide) (by decide)
  revert h40
  decide

end OsmoBsc.Rsl
