import OsmoBsc.Si.RangeEncode
set_option autoImplicit false

namespace OsmoBsc.Si

abbrev Octet := BitVec 8

inductive BitValue where
  | zero
  | one
  | l
  | h
  deriving DecidableEq, Repr

def gsmMacblockPadding : Octet := 0x2b

/-- The value of a bit at its position: L is the bit of the padding, H the opposite. -/
def BitValue.value (pos : Nat) : BitValue → Bool
  | .zero => false
  | .one => true
  | .l => gsmMacblockPadding.getLsbD (7 - pos % 8)
  | .h => !gsmMacblockPadding.getLsbD (7 - pos % 8)

def BitValue.ofBool (b : Bool) : BitValue := if b then .one else .zero

def bitvecSetUint (value bits : Nat) : List BitValue :=
  (List.range bits).map fun i => .ofBool (value.testBit (bits - 1 - i))

def octetOf (bit : Nat → Bool) : Octet :=
  BitVec.ofNat 8 (128 * (bit 0).toNat + 64 * (bit 1).toNat + 32 * (bit 2).toNat + 16 * (bit 3).toNat
    + 8 * (bit 4).toNat + 4 * (bit 5).toNat + 2 * (bit 6).toNat + (bit 7).toNat)

/-- A bit vector of `len` octets; what is not set is padding. -/
def restOctets (len : Nat) (bits : List BitValue) : List Octet :=
  (List.range len).map fun j => octetOf fun i => (bits.getD (8 * j + i) .l).value (8 * j + i)

structure SelectionParams where
  penaltyTime : Nat := 0
  tempOffs : Nat := 0
  cellReselOff : Nat := 0
  cbq : Bool := false
  present : Bool := false
  deriving DecidableEq, Repr

structure PowerOffset where
  powerOffset : Nat := 0
  present : Bool := false
  deriving DecidableEq, Repr

structure GprsInd where
  si13Position : Bool := false
  raColour : Nat := 0
  present : Bool := false
  deriving DecidableEq, Repr

/-- The `scheduling` of `struct gsm48_si_ro_info`. -/
structure Scheduling where
  position : Nat := 0
  present : Bool := false
  deriving DecidableEq, Repr

/-- `struct gsm48_si_ro_info`. Nothing reads its LSA parameters and its cell identity. -/
structure SiRoInfo where
  selectionParams : SelectionParams := {}
  powerOffset : PowerOffset := {}
  si2terIndicator : Bool := false
  earlyCmCtrl : Bool := true
  scheduling : Scheduling := {}
  gprsInd : GprsInd := { present := true }
  earlyCmRestrict3g : Bool := false
  si2quaterIndicator : Bool := false
  breakInd : Bool := false
  deriving DecidableEq, Repr

/-- The `ext_info` of `struct gprs_cell_options`. -/
structure ExtInfo where
  egprsSupported : Bool := false
  useEgprsPChReq : Bool := true
  bepPeriod : Nat := 5
  pfcSupported : Bool := false
  dtmSupported : Bool := false
  bssPagingCoordination : Bool := false
  deriving DecidableEq, Repr

/-- `struct gprs_cell_options`, with the values of `si13_default`. -/
structure GprsCellOptions where
  nmo : Nat := 1
  t3168 : Nat := 2000
  t3192 : Nat := 1500
  drxTimerMax : Nat := 3
  bsCvMax : Nat := 15
  supportsEgprs11bitRach : Nat := 0
  ctrlAckTypeUseBlock : Bool := true
  extInfoPresent : Bool := false
  extInfo : ExtInfo := {}
  deriving DecidableEq, Repr

/-- `struct gprs_power_ctrl_pars`, with the values of `si13_default`. -/
structure GprsPowerCtrlPars where
  alpha : Nat := 0
  tAvgW : Nat := 16
  tAvgT : Nat := 16
  pcMeasChan : Nat := 0
  nAvgI : Nat := 8
  deriving DecidableEq, Repr

/-- `struct gsm48_si13_info`, with the values of `si13_default`. -/
structure Si13Info where
  cellOpts : GprsCellOptions := {}
  pwrCtrlPars : GprsPowerCtrlPars := {}
  bcchChangeMark : Nat := 1
  siChangeField : Nat := 0
  rac : Nat := 0
  spgcCcchSup : Bool := false
  netCtrlOrd : Nat := 0
  prioAccThr : Nat := 6
  deriving DecidableEq, Repr

def appendSelectionParams (sp : SelectionParams) : List BitValue :=
  if sp.present then
    List.flatten [[.h,.ofBool sp.cbq],bitvecSetUint sp.cellReselOff 6,bitvecSetUint sp.tempOffs 3,
      bitvecSetUint sp.penaltyTime 5]
  else [.l]

def appendPowerOffset (po : PowerOffset) : List BitValue :=
  if po.present then .h :: bitvecSetUint po.powerOffset 2 else [.l]

def appendGprsInd (gi : GprsInd) : List BitValue :=
  if gi.present then .h :: bitvecSetUint gi.raColour 3 ++ [.ofBool gi.si13Position] else [.l]

/-- `rest_octets_si1` without an NCH position. -/
def restOctetsSi1 (is1800Net : Bool) : List Octet :=
  restOctets 1 [.l,if is1800Net then .l else .h]

def restOctetsSi2bis : List Octet := restOctets 1 []

def restOctetsSi2ter : List Octet := restOctets 4 [.l]

def restOctetsSi3 (si3 : SiRoInfo) : List Octet :=
  restOctets 4 (List.flatten
    [appendSelectionParams si3.selectionParams,
      appendPowerOffset si3.powerOffset,
      [if si3.si2terIndicator then .h else .l],
      [if si3.earlyCmCtrl then .h else .l],
      if si3.scheduling.present then .h :: bitvecSetUint si3.scheduling.position 3 else [.l],
      appendGprsInd si3.gprsInd,
      [if si3.earlyCmRestrict3g then .l else .h],
      if si3.si2quaterIndicator then .h :: bitvecSetUint 0 1 else []])

def restOctetsSi4 (si4 : SiRoInfo) (len : Nat) : List Octet :=
  restOctets len (List.flatten
    [appendSelectionParams si4.selectionParams,
      appendPowerOffset si4.powerOffset,
      appendGprsInd si4.gprsInd,
      [.l,if si4.breakInd then .h else .l]])

def restOctetsSi6 (is1800Net : Bool) : List Octet :=
  restOctets 1 [.l,.l,.l,if is1800Net then .l else .h,.l]

/-- `encode_t3192`, `none` for -EINVAL. -/
def encodeT3192 (t3192 : Nat) : Option Nat :=
  if t3192 = 0 then some 3
  else if t3192 ≤ 80 then some 4
  else if t3192 ≤ 120 then some 5
  else if t3192 ≤ 160 then some 6
  else if t3192 ≤ 200 then some 7
  else if t3192 ≤ 500 then some 0
  else if t3192 ≤ 1000 then some 1
  else if t3192 ≤ 1500 then some 2
  else none

/-- `encode_drx_timer`, `none` for -EINVAL. -/
def encodeDrxTimer (drx : Nat) : Option Nat :=
  if drx = 0 then some 0
  else if drx = 1 then some 1
  else if drx = 2 then some 2
  else if drx ≤ 4 then some 3
  else if drx ≤ 8 then some 4
  else if drx ≤ 16 then some 5
  else if drx ≤ 32 then some 6
  else if drx ≤ 64 then some 7
  else none

/-- The extension information of the GPRS cell options. -/
def appendExtInfo (gco : GprsCellOptions) : List BitValue :=
  if !gco.extInfoPresent then [.zero]
  else List.flatten
    [[.one],
      if !gco.extInfo.egprsSupported then List.flatten [bitvecSetUint (1 + 3 - 1) 6,[.zero]]
      else List.flatten [bitvecSetUint (1 + 5 + 3 - 1) 6,
        [.one,if gco.supportsEgprs11bitRach = 0 then .ofBool gco.extInfo.useEgprsPChReq else .zero],
        bitvecSetUint gco.extInfo.bepPeriod 4],
      [.ofBool gco.extInfo.pfcSupported,.ofBool gco.extInfo.dtmSupported,
        .ofBool gco.extInfo.bssPagingCoordination]]

/-- `append_gprs_cell_opt`, which sets no bit if one of its timers is invalid. -/
def appendGprsCellOpt (gco : GprsCellOptions) : List BitValue :=
  match encodeT3192 gco.t3192, encodeDrxTimer gco.drxTimerMax with
  | some t3192, some drxTimerMax =>
    List.flatten
      [bitvecSetUint gco.nmo 2,
        -- unsigned: wraps below 500 ms
        bitvecSetUint ((gco.t3168 / 500 + (2 ^ 32 - 1)) % 2 ^ 32) 3,bitvecSetUint t3192 3,
        bitvecSetUint drxTimerMax 3,[.zero,.ofBool gco.ctrlAckTypeUseBlock],bitvecSetUint gco.bsCvMax 4,
        [.one],bitvecSetUint 1 3,bitvecSetUint 1 3,bitvecSetUint 15 3,appendExtInfo gco]
  | _, _ => []

def appendGprsPwrCtrlPars (pcp : GprsPowerCtrlPars) : List BitValue :=
  List.flatten
    [bitvecSetUint pcp.alpha 4,bitvecSetUint pcp.tAvgW 5,bitvecSetUint pcp.tAvgT 5,
      bitvecSetUint pcp.pcMeasChan 1,bitvecSetUint pcp.nAvgI 4]

def restOctetsSi13 (si13 : Si13Info) : List Octet :=
  restOctets 20 (List.flatten
    [[.h],bitvecSetUint si13.bcchChangeMark 3,bitvecSetUint si13.siChangeField 4,[.zero,.zero],
      bitvecSetUint si13.rac 8,[.ofBool si13.spgcCcchSup],bitvecSetUint si13.prioAccThr 3,
      bitvecSetUint si13.netCtrlOrd 2,appendGprsCellOpt si13.cellOpts,
      appendGprsPwrCtrlPars si13.pwrCtrlPars,[.h,.one]])

end OsmoBsc.Si
