import OsmoBsc.Lib.Reader
import OsmoBsc.Si.FddCells
set_option autoImplicit false

namespace OsmoBsc.Si
open Cursor Si2q

/-- The bits `xs` stand in the octets from bit `pos` on. -/
def Stands (o : Octets) (pos : Nat) (xs : List BitValue) : Prop := Reads BitValue.value o.bit pos xs

theorem Stands.append (o : Octets) (pos : Nat) (xs ys : List BitValue) (h : Stands o pos (xs ++ ys)) :
    Stands o pos xs ∧ Stands o (pos + xs.length) ys :=
  reads_append.mp h

section Bits

@[simp] abbrev bitOf (b : Bool) : List BitValue := [.ofBool b]

@[simp] abbrev bitH (b : Bool) : List BitValue := [if b then .h else .l]

@[simp] abbrev partH (present : Bool) (xs : List BitValue) : List BitValue := if present then .h :: xs else [.l]

@[simp] abbrev partOne (present : Bool) (xs : List BitValue) : List BitValue :=
  if present then .one :: xs else [.zero]

def readBit : Reader Octets Bool := fun o pos => (o.bit pos,pos + 1)

def readH : Reader Octets Bool := fun o pos => (o.bit pos == BitValue.value pos .h,pos + 1)

def readUint (n : Nat) : Reader Octets Nat := fun o pos => (o.field pos n,pos + n)

def readIf {α : Type} (absent : α) (r : Reader Octets α) : Bool → Reader Octets α
  | true => r
  | false => pure absent

abbrev Means {α : Type} (r : Reader Octets α) (xs : List BitValue) (a : α) : Prop := Reader.Decodes Stands r xs a

theorem means_bit (b : Bool) : Means readBit (bitOf b) b := by
  intro o pos h
  have hbit := (reads_cons.mp h).1
  rw [value_ofBool] at hbit
  rw [readBit,hbit]
  rfl

theorem means_h (b : Bool) : Means readH (bitH b) b := by
  intro o pos h
  have hbit := (reads_cons.mp h).1
  rw [readH,hbit]
  cases b with
  | true => simp
  | false =>
    have hne := value_h_ne_l pos
    simp [beq_eq_false_iff_ne.mpr hne]

theorem means_uint (v n : Nat) : Means (readUint n) (bitvecSetUint v n) (v % 2 ^ n) := by
  intro o pos h
  rw [readUint,field_of_reads_mod v n h,bitvecSetUint_length]

theorem Means.then {α β : Type} {r : Reader Octets α} {f : α → Reader Octets β} {xs ys : List BitValue}
    {a : α} {b : β} (h1 : Means r xs a) (h2 : Means (f a) ys b) : Means (r >>= f) (xs ++ ys) b :=
  h1.bind Stands.append h2

theorem means_if {α : Type} {r : Reader Octets α} {xs : List BitValue} {a absent : α} (present : Bool)
    (h : Means r xs a) : Means (readH >>= readIf absent r) (partH present xs)
      (if present then a else absent) := by
  cases present with
  | true => exact (means_h true).bind Stands.append (f := readIf absent r) h
  | false => exact (means_h false).bind Stands.append (f := readIf absent r) (Reader.Decodes.pure absent)

end Bits

def SelectionParams.sent (sp : SelectionParams) : SelectionParams :=
  if sp.present then
    { penaltyTime := sp.penaltyTime % 32, tempOffs := sp.tempOffs % 8, cellReselOff := sp.cellReselOff % 64
      cbq := sp.cbq, present := true }
  else {}

def PowerOffset.sent (po : PowerOffset) : PowerOffset :=
  if po.present then { powerOffset := po.powerOffset % 4, present := true } else {}

def Scheduling.sent (s : Scheduling) : Scheduling :=
  if s.present then { position := s.position % 8, present := true } else {}

def GprsInd.sent (gi : GprsInd) : GprsInd :=
  if gi.present then { si13Position := gi.si13Position, raColour := gi.raColour % 8, present := true } else {}

def readSelection : Reader Octets SelectionParams := do
  let cbq ← readBit
  let cellReselOff ← readUint 6
  let tempOffs ← readUint 3
  let penaltyTime ← readUint 5
  return { penaltyTime, tempOffs, cellReselOff, cbq, present := true }

def readOffset : Reader Octets PowerOffset := do
  let powerOffset ← readUint 2
  return { powerOffset, present := true }

def readPosition : Reader Octets Scheduling := do
  let position ← readUint 3
  return { position, present := true }

def readRaColour : Reader Octets GprsInd := do
  let raColour ← readUint 3
  let si13Position ← readBit
  return { si13Position, raColour, present := true }

def readSelectionParams : Reader Octets SelectionParams := readH >>= readIf {} readSelection

def readPowerOffset : Reader Octets PowerOffset := readH >>= readIf {} readOffset

def readScheduling : Reader Octets Scheduling := readH >>= readIf {} readPosition

def readGprsInd : Reader Octets GprsInd := readH >>= readIf {} readRaColour

section Parts

theorem means_selectionParams (sp : SelectionParams) :
    Means readSelectionParams (appendSelectionParams sp) sp.sent := by
  have hbits : appendSelectionParams sp = partH sp.present (bitOf sp.cbq ++ (bitvecSetUint sp.cellReselOff 6 ++
      (bitvecSetUint sp.tempOffs 3 ++ bitvecSetUint sp.penaltyTime 5))) := by
    simp [appendSelectionParams]
  rw [hbits]
  exact means_if sp.present <| (means_bit sp.cbq).then <| (means_uint sp.cellReselOff 6).then <|
    (means_uint sp.tempOffs 3).then <| (means_uint sp.penaltyTime 5).map Stands.append _

theorem means_powerOffset (po : PowerOffset) : Means readPowerOffset (appendPowerOffset po) po.sent :=
  means_if po.present ((means_uint po.powerOffset 2).map Stands.append _)

theorem means_scheduling (s : Scheduling) : Means readScheduling
    (partH s.present (bitvecSetUint s.position 3)) s.sent :=
  means_if s.present ((means_uint s.position 3).map Stands.append _)

theorem means_gprsInd (gi : GprsInd) : Means readGprsInd (appendGprsInd gi) gi.sent :=
  means_if gi.present ((means_uint gi.raColour 3).then ((means_bit gi.si13Position).map Stands.append _))

end Parts

/-- SI 3 rest octets as a phone reads them; `si2quater` is the position of SI 2quater. -/
structure Si3Rest where
  selectionParams : SelectionParams
  powerOffset : PowerOffset
  si2terIndicator : Bool
  earlyCmCtrl : Bool
  scheduling : Scheduling
  gprsInd : GprsInd
  earlyCm3g : Bool
  si2quater : Option Bool
  deriving DecidableEq, Repr

def readSi2quater : Reader Octets (Option Bool) := do
  let bcchExt ← readBit
  return some bcchExt

def readSi3 : Reader Octets Si3Rest := do
  let selectionParams ← readSelectionParams
  let powerOffset ← readPowerOffset
  let si2terIndicator ← readH
  let earlyCmCtrl ← readH
  let scheduling ← readScheduling
  let gprsInd ← readGprsInd
  let earlyCm3g ← readH
  let si2quater ← readH >>= readIf none readSi2quater
  return { selectionParams, powerOffset, si2terIndicator, earlyCmCtrl, scheduling, gprsInd, earlyCm3g, si2quater }

/-- SI 4 rest octets as a phone reads them. -/
structure Si4Rest where
  selectionParams : SelectionParams
  powerOffset : PowerOffset
  gprsInd : GprsInd
  si4RestOctetsS : Bool
  breakInd : Bool
  deriving DecidableEq, Repr

def readSi4 : Reader Octets Si4Rest := do
  let selectionParams ← readSelectionParams
  let powerOffset ← readPowerOffset
  let gprsInd ← readGprsInd
  let si4RestOctetsS ← readH
  let breakInd ← readH
  return { selectionParams, powerOffset, gprsInd, si4RestOctetsS, breakInd }

def SiRoInfo.si3Sent (si3 : SiRoInfo) : Si3Rest where
  selectionParams := si3.selectionParams.sent
  powerOffset := si3.powerOffset.sent
  si2terIndicator := si3.si2terIndicator
  earlyCmCtrl := si3.earlyCmCtrl
  scheduling := si3.scheduling.sent
  gprsInd := si3.gprsInd.sent
  earlyCm3g := !si3.earlyCmRestrict3g
  si2quater := if si3.si2quaterIndicator then some false else none

def SiRoInfo.si4Sent (si4 : SiRoInfo) : Si4Rest where
  selectionParams := si4.selectionParams.sent
  powerOffset := si4.powerOffset.sent
  gprsInd := si4.gprsInd.sent
  si4RestOctetsS := false
  breakInd := si4.breakInd

section Si3

def si4Bits (si4 : SiRoInfo) : List BitValue :=
  appendSelectionParams si4.selectionParams ++ (appendPowerOffset si4.powerOffset ++
    (appendGprsInd si4.gprsInd ++ (bitH false ++ bitH si4.breakInd)))

theorem restOctetsSi4_eq (si4 : SiRoInfo) (len : Nat) : restOctetsSi4 si4 len = restOctets len (si4Bits si4) := by
  simp [restOctetsSi4,si4Bits]

theorem means_si4 (si4 : SiRoInfo) : Means readSi4 (si4Bits si4) si4.si4Sent :=
  (means_selectionParams si4.selectionParams).then <| (means_powerOffset si4.powerOffset).then <|
    (means_gprsInd si4.gprsInd).then <| (means_h false).then <| (means_h si4.breakInd).map Stands.append _

/-- SI 3 rest octets up to SI 2quater. -/
def si3Head (si3 : SiRoInfo) : List BitValue :=
  appendSelectionParams si3.selectionParams ++ (appendPowerOffset si3.powerOffset ++ (bitH si3.si2terIndicator ++
    (bitH si3.earlyCmCtrl ++ (partH si3.scheduling.present (bitvecSetUint si3.scheduling.position 3) ++
    (appendGprsInd si3.gprsInd ++ bitH !si3.earlyCmRestrict3g)))))

theorem restOctetsSi3_eq (si3 : SiRoInfo) : restOctetsSi3 si3
    = restOctets 4 (si3Head si3 ++ if si3.si2quaterIndicator then .h :: bitvecSetUint 0 1 else []) := by
  have h3g : (if si3.earlyCmRestrict3g then BitValue.l else .h) = if !si3.earlyCmRestrict3g then .h else .l := by
    cases si3.earlyCmRestrict3g <;> rfl
  simp [restOctetsSi3,si3Head,h3g]

theorem means_si3 (si3 : SiRoInfo) : Means readSi3 (si3Head si3 ++ partH si3.si2quaterIndicator (bitvecSetUint 0 1))
    si3.si3Sent := by
  simp only [si3Head,List.append_assoc]
  exact (means_selectionParams si3.selectionParams).then <| (means_powerOffset si3.powerOffset).then <|
    (means_h si3.si2terIndicator).then <| (means_h si3.earlyCmCtrl).then <| (means_scheduling si3.scheduling).then <|
    (means_gprsInd si3.gprsInd).then <| (means_h !si3.earlyCmRestrict3g).then <|
    (means_if si3.si2quaterIndicator ((means_bit false).map Stands.append _)).map Stands.append _

def listOctets (l : List Octet) : Octets := fun i => l.getD i gsmMacblockPadding

theorem restOctets_stands (len n : Nat) (bits : List BitValue) (h : bits.length + n ≤ 8 * len) :
    Stands (listOctets (restOctets len bits)) 0 (bits ++ List.replicate n .l) := by
  intro t x hx
  obtain ⟨ht,rfl⟩ := List.getElem?_eq_some_iff.mp hx
  rw [List.length_append,List.length_replicate] at ht
  have hget : listOctets (restOctets len bits) (t / 8)
      = octetOf fun i => (bits.getD (8 * (t / 8) + i) .l).value (8 * (t / 8) + i) := by
    simp [listOctets,restOctets,show t / 8 < len by omega]
  have hval : (bits ++ List.replicate n BitValue.l)[t] = bits.getD t .l := by
    by_cases hlt : t < bits.length
    · simp [hlt]
    · simp [hlt,List.getElem_append_right (Nat.le_of_not_lt hlt)]
  rw [Nat.zero_add,hval,Octets.bit,hget,octetOf_bit _ (by omega),show 8 * (t / 8) + t % 8 = t by omega]

theorem selectionParams_length (sp : SelectionParams) :
    (appendSelectionParams sp).length = 1 + 15 * sp.present.toNat := by
  rw [appendSelectionParams]
  cases sp.present <;> simp

theorem powerOffset_length (po : PowerOffset) : (appendPowerOffset po).length = 1 + 2 * po.present.toNat := by
  rw [appendPowerOffset]
  cases po.present <;> simp

theorem gprsInd_length (gi : GprsInd) : (appendGprsInd gi).length = 1 + 4 * gi.present.toNat := by
  rw [appendGprsInd]
  cases gi.present <;> simp

/-- SI 3 rest octets have four octets: not everything fits at once. -/
def SiRoInfo.Fits (si3 : SiRoInfo) : Prop :=
  ¬(si3.selectionParams.present = true ∧ si3.powerOffset.present = true ∧ si3.scheduling.present = true
    ∧ si3.gprsInd.present = true ∧ si3.si2quaterIndicator = true)

theorem si3Head_length (si3 : SiRoInfo) : (si3Head si3).length = 7 + 15 * si3.selectionParams.present.toNat
    + 2 * si3.powerOffset.present.toNat + 3 * si3.scheduling.present.toNat + 4 * si3.gprsInd.present.toNat := by
  have hsched : (partH si3.scheduling.present (bitvecSetUint si3.scheduling.position 3)).length
      = 1 + 3 * si3.scheduling.present.toNat := by
    cases si3.scheduling.present <;> simp
  simp only [si3Head,List.length_append,selectionParams_length,powerOffset_length,gprsInd_length,hsched,
    List.length_singleton]
  omega

theorem SiRoInfo.Fits.length {si3 : SiRoInfo} (h : si3.Fits) :
    (si3Head si3).length + 1 + si3.si2quaterIndicator.toNat ≤ 32 := by
  have htoNat (b : Bool) : b.toNat ≤ 1 ∧ (b = true ↔ b.toNat = 1) := by cases b <;> decide
  obtain ⟨hle1,h1⟩ := htoNat si3.selectionParams.present
  obtain ⟨hle2,h2⟩ := htoNat si3.powerOffset.present
  obtain ⟨hle3,h3⟩ := htoNat si3.scheduling.present
  obtain ⟨hle4,h4⟩ := htoNat si3.gprsInd.present
  obtain ⟨hle5,h5⟩ := htoNat si3.si2quaterIndicator
  rw [SiRoInfo.Fits,h1,h2,h3,h4,h5] at h
  rw [si3Head_length]
  omega

theorem si3_read {si3 : SiRoInfo} (h : si3.Fits) :
    (readSi3 (listOctets (restOctetsSi3 si3)) 0).1 = si3.si3Sent := by
  have hlen := h.length
  have hmeans := means_si3 si3
  rw [restOctetsSi3_eq]
  cases hq : si3.si2quaterIndicator with
  | true =>
    rw [hq] at hlen hmeans
    have hstands := restOctets_stands 4 0 (si3Head si3 ++ .h :: bitvecSetUint 0 1) (by
      rw [List.length_append,List.length_cons,bitvecSetUint_length]
      exact hlen)
    rw [List.replicate_zero,List.append_nil] at hstands
    exact congrArg Prod.fst (hmeans _ 0 hstands)
  | false =>
    rw [hq] at hlen hmeans
    have hstands := restOctets_stands 4 1 (si3Head si3) hlen
    have hnone : si3Head si3 ++ (if false = true then .h :: bitvecSetUint 0 1 else []) = si3Head si3 :=
      List.append_nil _
    rw [hnone]
    exact congrArg Prod.fst (hmeans _ 0 hstands)

theorem si4_read {len : Nat} (si4 : SiRoInfo) (h : 4 ≤ len) :
    (readSi4 (listOctets (restOctetsSi4 si4 len)) 0).1 = si4.si4Sent := by
  have hsel := selectionParams_length si4.selectionParams
  have hpow := powerOffset_length si4.powerOffset
  have hgprs := gprsInd_length si4.gprsInd
  have hle (b : Bool) : b.toNat ≤ 1 := by cases b <;> decide
  have h1 := hle si4.selectionParams.present
  have h2 := hle si4.powerOffset.present
  have h3 := hle si4.gprsInd.present
  have hstands := restOctets_stands len 0 (si4Bits si4) (by
    simp only [si4Bits,List.length_append,List.length_singleton]
    omega)
  rw [List.replicate_zero,List.append_nil] at hstands
  rw [restOctetsSi4_eq]
  exact congrArg Prod.fst (means_si4 si4 _ 0 hstands)

end Si3

def t3192Value (code : Nat) : Nat := [500,1000,1500,0,80,120,160,200].getD code 0

/-- DRX_TIMER_MAX by its code. -/
def drxTimerValue (code : Nat) : Nat := if code = 0 then 0 else 2 ^ (code - 1)

/-- The extension information: its length, what is said of EGPRS, and three features. -/
structure ExtRest where
  length : Nat
  egprs : Option (Bool × Nat)
  pfcSupported : Bool
  dtmSupported : Bool
  bssPagingCoordination : Bool
  deriving DecidableEq, Repr

/-- GPRS cell options as a phone reads them, with the timers in milliseconds. -/
structure CellOptRest where
  nmo : Nat
  t3168 : Nat
  t3192 : Nat
  drxTimerMax : Nat
  accessBurst11 : Bool
  ctrlAckTypeUseBlock : Bool
  bsCvMax : Nat
  pan : Option (Nat × Nat × Nat)
  ext : Option ExtRest
  deriving DecidableEq, Repr

structure Si13Rest where
  present : Bool
  bcchChangeMark : Nat
  siChangeField : Nat
  mobileAllocation : Bool
  pbcch : Bool
  rac : Nat
  spgcCcchSup : Bool
  prioAccThr : Nat
  netCtrlOrd : Nat
  cellOpts : CellOptRest
  pwrCtrlPars : GprsPowerCtrlPars
  release99 : Bool
  sgsnRelease99 : Bool
  deriving DecidableEq, Repr

def readPan : Reader Octets (Option (Nat × Nat × Nat)) := do
  let dec ← readUint 3
  let inc ← readUint 3
  let max ← readUint 3
  return some (dec,inc,max)

def readEgprs : Reader Octets (Option (Bool × Nat)) := do
  let useEgprsPChReq ← readBit
  let bepPeriod ← readUint 4
  return some (useEgprsPChReq,bepPeriod)

def readExtInfo : Reader Octets (Option ExtRest) := do
  let length ← readUint 6
  let egprs ← readBit >>= readIf none readEgprs
  let pfcSupported ← readBit
  let dtmSupported ← readBit
  let bssPagingCoordination ← readBit
  return some { length, egprs, pfcSupported, dtmSupported, bssPagingCoordination }

def readCellOpt : Reader Octets CellOptRest := do
  let nmo ← readUint 2
  let t3168 ← readUint 3
  let t3192 ← readUint 3
  let drxTimerMax ← readUint 3
  let accessBurst11 ← readBit
  let ctrlAckTypeUseBlock ← readBit
  let bsCvMax ← readUint 4
  let pan ← readBit >>= readIf none readPan
  let ext ← readBit >>= readIf none readExtInfo
  return { nmo, t3168 := 500 * (t3168 + 1), t3192 := t3192Value t3192, drxTimerMax := drxTimerValue drxTimerMax
           accessBurst11, ctrlAckTypeUseBlock, bsCvMax, pan, ext }

def readPwrCtrlPars : Reader Octets GprsPowerCtrlPars := do
  let alpha ← readUint 4
  let tAvgW ← readUint 5
  let tAvgT ← readUint 5
  let pcMeasChan ← readUint 1
  let nAvgI ← readUint 4
  return { alpha, tAvgW, tAvgT, pcMeasChan, nAvgI }

def readSi13 : Reader Octets Si13Rest := do
  let present ← readH
  let bcchChangeMark ← readUint 3
  let siChangeField ← readUint 4
  let mobileAllocation ← readBit
  let pbcch ← readBit
  let rac ← readUint 8
  let spgcCcchSup ← readBit
  let prioAccThr ← readUint 3
  let netCtrlOrd ← readUint 2
  let cellOpts ← readCellOpt
  let pwrCtrlPars ← readPwrCtrlPars
  let release99 ← readH
  let sgsnRelease99 ← readBit
  return { present, bcchChangeMark, siChangeField, mobileAllocation, pbcch, rac, spgcCcchSup, prioAccThr, netCtrlOrd,
           cellOpts, pwrCtrlPars, release99, sgsnRelease99 }

def GprsCellOptions.useEgprsPChReq (gco : GprsCellOptions) : Bool :=
  gco.supportsEgprs11bitRach == 0 && gco.extInfo.useEgprsPChReq

/-- The extension information as it is sent. -/
def GprsCellOptions.extSent (gco : GprsCellOptions) : ExtRest where
  length := if gco.extInfo.egprsSupported then 8 else 3
  egprs := if gco.extInfo.egprsSupported then
      some (gco.useEgprsPChReq,gco.extInfo.bepPeriod % 16)
    else none
  pfcSupported := gco.extInfo.pfcSupported
  dtmSupported := gco.extInfo.dtmSupported
  bssPagingCoordination := gco.extInfo.bssPagingCoordination

section Si13

theorem means_ifBit {α : Type} {r : Reader Octets α} {xs : List BitValue} {a absent : α} (present : Bool)
    (h : Means r xs a) : Means (readBit >>= readIf absent r) (partOne present xs)
      (if present then a else absent) := by
  cases present with
  | true => exact (means_bit true).bind Stands.append (f := readIf absent r) h
  | false => exact (means_bit false).bind Stands.append (f := readIf absent r) (Reader.Decodes.pure absent)

theorem appendExtInfo_eq (gco : GprsCellOptions) : appendExtInfo gco = partOne gco.extInfoPresent
    (bitvecSetUint (if gco.extInfo.egprsSupported then 8 else 3) 6 ++
      (partOne gco.extInfo.egprsSupported (bitOf gco.useEgprsPChReq ++ bitvecSetUint gco.extInfo.bepPeriod 4) ++
      (bitOf gco.extInfo.pfcSupported ++ (bitOf gco.extInfo.dtmSupported ++
      bitOf gco.extInfo.bssPagingCoordination)))) := by
  rw [appendExtInfo]
  cases gco.extInfoPresent with
  | false => rfl
  | true =>
    cases gco.extInfo.egprsSupported with
    | false => simp
    | true =>
      by_cases hrach : gco.supportsEgprs11bitRach = 0
      · simp [GprsCellOptions.useEgprsPChReq,hrach]
      · simp [GprsCellOptions.useEgprsPChReq,hrach,BitValue.ofBool]

theorem means_extInfo (gco : GprsCellOptions) : Means (readBit >>= readIf none readExtInfo) (appendExtInfo gco)
    (if gco.extInfoPresent then some gco.extSent else none) := by
  have hlen : (if gco.extInfo.egprsSupported then 8 else 3) % 2 ^ 6 = gco.extSent.length := by
    rw [GprsCellOptions.extSent]
    cases gco.extInfo.egprsSupported <;> rfl
  have huint := means_uint (if gco.extInfo.egprsSupported then 8 else 3) 6
  rw [hlen] at huint
  rw [appendExtInfo_eq]
  exact means_ifBit gco.extInfoPresent <| huint.then <| (means_ifBit gco.extInfo.egprsSupported <|
      (means_bit gco.useEgprsPChReq).then <| (means_uint gco.extInfo.bepPeriod 4).map Stands.append _).then <|
    (means_bit gco.extInfo.pfcSupported).then <| (means_bit gco.extInfo.dtmSupported).then <|
    (means_bit gco.extInfo.bssPagingCoordination).map Stands.append _

theorem means_pwrCtrlPars (pcp : GprsPowerCtrlPars) : Means readPwrCtrlPars (appendGprsPwrCtrlPars pcp)
    { alpha := pcp.alpha % 16, tAvgW := pcp.tAvgW % 32, tAvgT := pcp.tAvgT % 32, pcMeasChan := pcp.pcMeasChan % 2
      nAvgI := pcp.nAvgI % 16 } := by
  have hbits : appendGprsPwrCtrlPars pcp = bitvecSetUint pcp.alpha 4 ++ (bitvecSetUint pcp.tAvgW 5 ++
      (bitvecSetUint pcp.tAvgT 5 ++ (bitvecSetUint pcp.pcMeasChan 1 ++ bitvecSetUint pcp.nAvgI 4))) := by
    simp [appendGprsPwrCtrlPars]
  rw [hbits]
  exact (means_uint pcp.alpha 4).then <| (means_uint pcp.tAvgW 5).then <| (means_uint pcp.tAvgT 5).then <|
    (means_uint pcp.pcMeasChan 1).then <| (means_uint pcp.nAvgI 4).map Stands.append _

/-- The GPRS cell options with the codes of their two timers. -/
def GprsCellOptions.sent (gco : GprsCellOptions) (t3192 drxTimerMax : Nat) : CellOptRest where
  nmo := gco.nmo % 4
  t3168 := 500 * ((gco.t3168 / 500 + (2 ^ 32 - 1)) % 2 ^ 32 % 8 + 1)
  t3192 := t3192Value t3192
  drxTimerMax := drxTimerValue drxTimerMax
  accessBurst11 := false
  ctrlAckTypeUseBlock := gco.ctrlAckTypeUseBlock
  bsCvMax := gco.bsCvMax % 16
  pan := some (1,1,7)
  ext := if gco.extInfoPresent then some gco.extSent else none

theorem means_cellOpt {gco : GprsCellOptions} {t3192 drxTimerMax : Nat} (h1 : encodeT3192 gco.t3192 = some t3192)
    (h2 : encodeDrxTimer gco.drxTimerMax = some drxTimerMax) (hlt1 : t3192 < 8) (hlt2 : drxTimerMax < 8) :
    Means readCellOpt (appendGprsCellOpt gco) (gco.sent t3192 drxTimerMax) := by
  have hbits : appendGprsCellOpt gco = bitvecSetUint gco.nmo 2 ++
      (bitvecSetUint ((gco.t3168 / 500 + (2 ^ 32 - 1)) % 2 ^ 32) 3 ++ (bitvecSetUint t3192 3 ++ (bitvecSetUint drxTimerMax 3 ++ (bitOf false ++ (bitOf gco.ctrlAckTypeUseBlock ++
      (bitvecSetUint gco.bsCvMax 4 ++ (partOne true (bitvecSetUint 1 3 ++ (bitvecSetUint 1 3 ++ bitvecSetUint 15 3)) ++
      appendExtInfo gco))))))) := by
    simp [appendGprsCellOpt,h1,h2,BitValue.ofBool]
  have huint1 := means_uint t3192 3
  have huint2 := means_uint drxTimerMax 3
  rw [show t3192 % 2 ^ 3 = t3192 from Nat.mod_eq_of_lt hlt1] at huint1
  rw [show drxTimerMax % 2 ^ 3 = drxTimerMax from Nat.mod_eq_of_lt hlt2] at huint2
  rw [hbits]
  exact (means_uint gco.nmo 2).then <| (means_uint ((gco.t3168 / 500 + (2 ^ 32 - 1)) % 2 ^ 32) 3).then <| huint1.then <| huint2.then <|
    (means_bit false).then <| (means_bit gco.ctrlAckTypeUseBlock).then <| (means_uint gco.bsCvMax 4).then <|
    (means_ifBit true <| (means_uint 1 3).then <| (means_uint 1 3).then <|
      (means_uint 15 3).map Stands.append _).then <| (means_extInfo gco).map Stands.append _

/-- SI 13 as it is sent, with the codes of two timers. -/
def Si13Info.sent (si13 : Si13Info) (t3192 drxTimerMax : Nat) : Si13Rest where
  present := true
  bcchChangeMark := si13.bcchChangeMark % 8
  siChangeField := si13.siChangeField % 16
  mobileAllocation := false
  pbcch := false
  rac := si13.rac % 256
  spgcCcchSup := si13.spgcCcchSup
  prioAccThr := si13.prioAccThr % 8
  netCtrlOrd := si13.netCtrlOrd % 4
  cellOpts := si13.cellOpts.sent t3192 drxTimerMax
  pwrCtrlPars := { alpha := si13.pwrCtrlPars.alpha % 16, tAvgW := si13.pwrCtrlPars.tAvgW % 32
                   tAvgT := si13.pwrCtrlPars.tAvgT % 32, pcMeasChan := si13.pwrCtrlPars.pcMeasChan % 2
                   nAvgI := si13.pwrCtrlPars.nAvgI % 16 }
  release99 := true
  sgsnRelease99 := true

def si13Bits (si13 : Si13Info) : List BitValue :=
  bitH true ++ (bitvecSetUint si13.bcchChangeMark 3 ++ (bitvecSetUint si13.siChangeField 4 ++ (bitOf false ++
    (bitOf false ++ (bitvecSetUint si13.rac 8 ++ (bitOf si13.spgcCcchSup ++ (bitvecSetUint si13.prioAccThr 3 ++
    (bitvecSetUint si13.netCtrlOrd 2 ++ (appendGprsCellOpt si13.cellOpts ++ (appendGprsPwrCtrlPars si13.pwrCtrlPars ++
    (bitH true ++ bitOf true)))))))))))

theorem restOctetsSi13_eq (si13 : Si13Info) : restOctetsSi13 si13 = restOctets 20 (si13Bits si13) := by
  simp [restOctetsSi13,si13Bits,BitValue.ofBool]

theorem si13Bits_length (si13 : Si13Info) : (si13Bits si13).length ≤ 88 := by
  have hext : (appendExtInfo si13.cellOpts).length ≤ 16 := by
    rw [appendExtInfo_eq]
    cases si13.cellOpts.extInfoPresent <;> cases si13.cellOpts.extInfo.egprsSupported <;> simp
  have hopt : (appendGprsCellOpt si13.cellOpts).length ≤ 43 := by
    rw [appendGprsCellOpt]
    split
    · simp
      omega
    · exact Nat.zero_le _
  have hpwr : (appendGprsPwrCtrlPars si13.pwrCtrlPars).length = 19 := by simp [appendGprsPwrCtrlPars]
  simp [si13Bits,hpwr]
  omega

theorem si13_read {si13 : Si13Info} {t3192 drxTimerMax : Nat} (h1 : encodeT3192 si13.cellOpts.t3192 = some t3192)
    (h2 : encodeDrxTimer si13.cellOpts.drxTimerMax = some drxTimerMax) (hlt1 : t3192 < 8) (hlt2 : drxTimerMax < 8) :
    (readSi13 (listOctets (restOctetsSi13 si13)) 0).1 = si13.sent t3192 drxTimerMax := by
  have hmeans : Means readSi13 (si13Bits si13) (si13.sent t3192 drxTimerMax) :=
    (means_h true).then <| (means_uint si13.bcchChangeMark 3).then <| (means_uint si13.siChangeField 4).then <|
      (means_bit false).then <| (means_bit false).then <| (means_uint si13.rac 8).then <|
      (means_bit si13.spgcCcchSup).then <| (means_uint si13.prioAccThr 3).then <|
      (means_uint si13.netCtrlOrd 2).then <| (means_cellOpt h1 h2 hlt1 hlt2).then <|
      (means_pwrCtrlPars si13.pwrCtrlPars).then <| (means_h true).then <| (means_bit true).map Stands.append _
  have hlen := si13Bits_length si13
  have hstands := restOctets_stands 20 0 (si13Bits si13) (by omega)
  rw [List.replicate_zero,List.append_nil] at hstands
  rw [restOctetsSi13_eq]
  exact congrArg Prod.fst (hmeans _ 0 hstands)

theorem t3192Value_mem {k : Nat} (h : k < 8) : t3192Value k ∈ [0,80,120,160,200,500,1000,1500] := by
  revert k
  decide

theorem t3192_next {t : Nat} (h : t ≤ 1500) : ∃ code < 8, encodeT3192 t = some code ∧ t ≤ t3192Value code
    ∧ ∀ k < 8, t ≤ t3192Value k → t3192Value code ≤ t3192Value k := by
  obtain ⟨code,hlt,henc,hle,hnext⟩ : ∃ code < 8, encodeT3192 t = some code ∧ t ≤ t3192Value code
      ∧ ∀ v ∈ [0,80,120,160,200,500,1000,1500], t ≤ v → t3192Value code ≤ v := by
    simp only [List.forall_mem_cons,List.not_mem_nil,false_imp_iff,implies_true,and_true]
    rw [encodeT3192]
    split_ifs
    · exact ⟨3,by decide,rfl,by simp [t3192Value]; omega⟩
    · exact ⟨4,by decide,rfl,by simp [t3192Value]; omega⟩
    · exact ⟨5,by decide,rfl,by simp [t3192Value]; omega⟩
    · exact ⟨6,by decide,rfl,by simp [t3192Value]; omega⟩
    · exact ⟨7,by decide,rfl,by simp [t3192Value]; omega⟩
    · exact ⟨0,by decide,rfl,by simp [t3192Value]; omega⟩
    · exact ⟨1,by decide,rfl,by simp [t3192Value]; omega⟩
    · exact ⟨2,by decide,rfl,by simp [t3192Value]; omega⟩
  exact ⟨code,hlt,henc,hle,fun k hk => hnext _ (t3192Value_mem hk)⟩

theorem drxTimer_next {t : Nat} (h : t ≤ 64) : ∃ code < 8, encodeDrxTimer t = some code ∧ t ≤ drxTimerValue code
    ∧ ∀ k < 8, t ≤ drxTimerValue k → drxTimerValue code ≤ drxTimerValue k := by
  revert t
  decide

theorem t3168_sent {t : Nat} (hge : 500 ≤ t) (hlt : t < 4500) :
    500 * ((t / 500 + (2 ^ 32 - 1)) % 2 ^ 32 % 8 + 1) = t - t % 500 := by
  omega

/-- What a phone reads in the rest octets of SI 3, SI 4 and SI 13. -/
theorem rest_octets_read (si3 si4 : SiRoInfo) (si13 : Si13Info) {len : Nat} (hfits : si3.Fits) (hlen : 4 ≤ len)
    (hge : 500 ≤ si13.cellOpts.t3168) (hlt : si13.cellOpts.t3168 < 4500) (ht3192 : si13.cellOpts.t3192 ≤ 1500)
    (hdrx : si13.cellOpts.drxTimerMax ≤ 64) :
    (readSi3 (listOctets (restOctetsSi3 si3)) 0).1 = si3.si3Sent
    ∧ (readSi4 (listOctets (restOctetsSi4 si4 len)) 0).1 = si4.si4Sent
    ∧ ∃ t3192 < 8, ∃ drxTimerMax < 8,
      (readSi13 (listOctets (restOctetsSi13 si13)) 0).1 = si13.sent t3192 drxTimerMax
      ∧ (si13.sent t3192 drxTimerMax).cellOpts.t3168 = si13.cellOpts.t3168 - si13.cellOpts.t3168 % 500
      ∧ si13.cellOpts.t3192 ≤ t3192Value t3192
      ∧ (∀ k < 8, si13.cellOpts.t3192 ≤ t3192Value k → t3192Value t3192 ≤ t3192Value k)
      ∧ si13.cellOpts.drxTimerMax ≤ drxTimerValue drxTimerMax
      ∧ ∀ k < 8, si13.cellOpts.drxTimerMax ≤ drxTimerValue k → drxTimerValue drxTimerMax ≤ drxTimerValue k := by
  obtain ⟨t3192,hlt1,henc1,hle1,hnext1⟩ := t3192_next ht3192
  obtain ⟨drxTimerMax,hlt2,henc2,hle2,hnext2⟩ := drxTimer_next hdrx
  exact ⟨si3_read hfits,si4_read si4 hlen,t3192,hlt1,drxTimerMax,hlt2,si13_read henc1 henc2 hlt1 hlt2,
    t3168_sent hge hlt,hle1,hnext1,hle2,hnext2⟩

def fullSi3 : SiRoInfo where
  selectionParams := { present := true, cbq := true, cellReselOff := 5, tempOffs := 2, penaltyTime := 20 }
  powerOffset := { present := true, powerOffset := 3 }
  si2quaterIndicator := true

def fullSi13 : Si13Info where
  rac := 7
  cellOpts := { t3168 := 700, t3192 := 90, extInfoPresent := true, extInfo := { egprsSupported := true } }

-- T3192 is sent as 120 ms, T3168 as 500 ms and DRX_TIMER_MAX as 4
theorem rest_octets_read_full :
    (readSi3 (listOctets (restOctetsSi3 fullSi3)) 0).1 = fullSi3.si3Sent
    ∧ (readSi4 (listOctets (restOctetsSi4 fullSi3 4)) 0).1 = fullSi3.si4Sent
    ∧ ∃ t3192 < 8, ∃ drxTimerMax < 8,
      (readSi13 (listOctets (restOctetsSi13 fullSi13)) 0).1 = fullSi13.sent t3192 drxTimerMax
      ∧ (fullSi13.sent t3192 drxTimerMax).cellOpts.t3168 = 500
      ∧ t3192Value t3192 = 120 ∧ drxTimerValue drxTimerMax = 4 := by
  obtain ⟨h3,h4,t3192,hlt1,drxTimerMax,hlt2,h13,ht3168,hle1,hnext1,hle2,hnext2⟩ :=
    rest_octets_read fullSi3 fullSi3 fullSi13 (by simp [SiRoInfo.Fits,fullSi3]) (le_refl 4) (by decide) (by decide)
      (by decide) (by decide)
  refine ⟨h3,h4,t3192,hlt1,drxTimerMax,hlt2,h13,ht3168,?_,?_⟩
  · have hge := hnext1 5 (by decide) (by decide)
    revert hle1 hge
    clear hnext1 h13 ht3168
    revert t3192
    decide
  · have hge := hnext2 3 (by decide) (by decide)
    revert hle2 hge
    clear hnext2 h13 ht3168
    revert drxTimerMax
    decide

end Si13

end OsmoBsc.Si
