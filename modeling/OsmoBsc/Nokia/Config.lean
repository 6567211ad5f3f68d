import OsmoBsc.Nokia.Transfer
import OsmoBsc.Chan.Types
import OsmoBsc.Si.FreqList
set_option autoImplicit false

/-! The configuration of a Nokia site: a section for each TRX and one for the BTS, in a buffer of 2048 octets. -/

namespace OsmoBsc.Nokia
open Chan (Pchan)
open Si (GsmBand Bitvec EncError Octets bitvec2freqList)

/-- What is accessed where nothing is: behind the end of `config`, behind that of `ma_data`, and what
generate_cell_chan_list() accesses. -/
inductive Overrun where
  | config
  | maData
  | cellChanList
  deriving DecidableEq, Repr

/-- `hopping` of a `struct gsm_bts_trx_ts`. -/
structure Hopping where
  enabled : Bool := false
  maio : BitVec 8 := 0
  hsn : BitVec 8 := 0
  arfcns : Bitvec := fun _ => false
  maLen : Nat := 0
  maData : Fin 8 → BitVec 8 := fun _ => 0

structure Ts where
  pchanFromConfig : Pchan
  hopping : Hopping := {}

structure Trx where
  arfcn : BitVec 16
  ts : Fin 8 → Ts

/-- `struct gsm_bts`, with the first TRX of its list, `c0`, and the others. -/
structure Bts where
  gsmArfcn2bandRc : Nat → Option GsmBand
  band : GsmBand
  forceCombinedSiSet : Bool := false
  forceCombinedSi : Bool := false
  modelForceCombinedSi : Bool := false
  bsic : BitVec 8 := 0
  c0 : Trx
  otherTrx : List Trx := []

def Bts.trxList (bts : Bts) : List Trx := bts.c0 :: bts.otherTrx

/-- The broken-down local time. -/
structure Tm where
  year : Nat
  mon : Nat
  mday : Nat
  hour : Nat
  min : Nat
  sec : Nat

def fuConfigTemplate : List (BitVec 8) :=
  [0x7f,0x7a,0x39,0x5f,0x40,0x04,0x00,0x07,0x01,0xff,0x41,0x02,0x00,0x05,0x42,0x02,0x00,0x28,0x50,0x02,0x00,
    0x28,0x43,0x05,0x0f,0x1b,0x27,0x33,0x3f,0x44,0x02,0x00,0x10,0x47,0x01,0x1e,0x4c,0x10,0x8f,0xb1,0x00,
    0x00,0x00,0x00,0x00,0x00,0x00,0x00,0x00,0x00,0x00,0x00,0x00,0x00,0x59,0x01,0x01,0x5e,0x01,0x00,0x7f,
    0x46,0x11,0x5f,0x40,0x04,0x00,0x07,0x01,0xff,0x45,0x08,0x01,0x09,0x09,0x09,0x09,0x09,0x09,0x09,0x7f,
    0x65,0x0b,0x5f,0x40,0x04,0x00,0x04,0x01,0xff,0x5f,0x44,0x01,0x03,0x7f,0x7c,0x0a,0x5f,0x40,0x04,0x00,
    0x07,0x01,0xff,0x46,0x01,0x00,0x7f,0x48,0x0b,0x5f,0x40,0x04,0x00,0x08,0x01,0xff,0x4a,0x02,0x03,0x62,
    0x7f,0x49,0x59,0x5f,0x40,0x04,0x00,0x07,0x01,0xff,0x4d,0x50,0x00,0x00,0x00,0x00,0x00,0x00,0x00,0x00,
    0x03,0x62,0x00,0x00,0x00,0x00,0x00,0x00,0x00,0x00,0x03,0x62,0x00,0x00,0x00,0x00,0x00,0x00,0x00,0x00,
    0x03,0x62,0x00,0x00,0x00,0x00,0x00,0x00,0x00,0x00,0x03,0x62,0x00,0x00,0x00,0x00,0x00,0x00,0x00,0x00,
    0x03,0x62,0x00,0x00,0x00,0x00,0x00,0x00,0x00,0x00,0x03,0x62,0x00,0x00,0x00,0x00,0x00,0x00,0x00,0x00,
    0x03,0x62,0x00,0x00,0x00,0x00,0x00,0x00,0x00,0x00,0x03,0x62]

def btsConfig1 : List (BitVec 8) := [0x4e,0x02,0xff,0xff,0x5f,0x4e,0x02,0xff,0xff,0x5f,0x50,0x02,0x01,0x01]

def btsConfig2 : List (BitVec 8) := [0x55,0x02,0x01,0x00,0x5f,0x75,0x02,0x01,0x01]

def btsConfig3 : List (BitVec 8) := [0x5f,0x20,0x02,0x01,0x00]

def btsConfig4 : List (BitVec 8) :=
  [0x5f,0x74,0x09,0x07,0xdb,0x06,0x02,0x0b,0x20,0x0c,0x00,0x00,0x5f,0x76,0x03,0x01,0x01,0x00,0x5f,0x76,0x03,
    0x02,0x01,0x00,0x5f,0x76,0x03,0x03,0x01,0x00,0x5f,0x76,0x03,0x04,0x01,0x00,0x5f,0x76,0x03,0x05,0x01,
    0x00,0x5f,0x76,0x03,0x06,0x01,0x00,0x5f,0x76,0x03,0x07,0x01,0x00,0x5f,0x76,0x03,0x08,0x01,0x00,0x5f,
    0x76,0x03,0x09,0x01,0x00,0x5f,0x76,0x03,0x0a,0x01,0x00]

def btsConfigInsite : List (BitVec 8) :=
  [0x4e,0x02,0xff,0xff,0x5f,0x4e,0x02,0xff,0xff,0x5f,0x50,0x02,0x01,0x01,0x55,0x02,0x01,0x00,0x5f,0x20,0x02,
    0x01,0x00,0x5f,0x74,0x09,0x07,0xdb,0x07,0x0a,0x0f,0x09,0x0b,0x00,0x00]

def tsNrs : List (Fin 8) := [0,1,2,3,4,5,6,7]

def generateCellChanList (bts : Bts) : Except EncError Octets :=
  bitvec2freqList
    { gsmArfcn2bandRc := bts.gsmArfcn2bandRc
      bts := ⟨bts.band,bts.c0.arfcn.toNat,bts.forceCombinedSiSet,bts.forceCombinedSi,bts.modelForceCombinedSi⟩
      bv := fun arfcn => bts.trxList.any fun trx =>
        trx.arfcn.toNat == arfcn || tsNrs.any fun i => (trx.ts i).hopping.arfcns arfcn
      bis := false
      ter := false }

section Fu

/-- Octets that replace those from `i` on. -/
def setOctets (fuConfig : List (BitVec 8)) (i : Nat) : List (BitVec 8) → List (BitVec 8)
  | [] => fuConfig
  | octet :: octets => setOctets (fuConfig.set i octet) (i + 1) octets

def arfcnOctets (arfcn : BitVec 16) : List (BitVec 8) := [(arfcn >>> 8).setWidth 8,arfcn.setWidth 8]

/-- An octet of `ma_data`. -/
def maOctet (hopping : Hopping) (j : Nat) : Except Overrun (BitVec 8) :=
  if h : j < 8 then .ok (hopping.maData ⟨j,h⟩) else .error .maData

/-- The mobile allocation in reverse order, from octet `j` on. -/
def setMa (hopping : Hopping) (i : Nat) : (n j : Nat) → List (BitVec 8) → Except Overrun (List (BitVec 8))
  | 0, _, fuConfig => .ok fuConfig
  | n + 1, j, fuConfig => do
    let octet ← maOctet hopping j
    setMa hopping i n (j + 1) (fuConfig.set (133 + i * 10 + (7 - j)) octet)

def setRadio (arfcn : BitVec 16) (i : Nat) (ts : Ts) (fuConfig : List (BitVec 8)) :
    Except Overrun (List (BitVec 8)) := do
  if ts.hopping.enabled then
    let fuConfig ← setMa ts.hopping i ts.hopping.maLen 0 fuConfig
    return setOctets fuConfig (133 + 8 + i * 10) [ts.hopping.hsn,ts.hopping.maio]
  else return setOctets fuConfig (133 + 8 + i * 10) (arfcnOctets arfcn)

def setRadios (trx : Trx) : List (Fin 8) → List (BitVec 8) → Except Overrun (List (BitVec 8))
  | [], fuConfig => .ok fuConfig
  | i :: is, fuConfig => do
    let fuConfig ← setRadio trx.arfcn i (trx.ts i) fuConfig
    setRadios trx is fuConfig

/-- `chan_config`; other channel combinations are not supported. -/
def chanConfig : Pchan → Option (BitVec 8)
  | .none => some 0xff
  | .ccch => some 0
  | .ccchSdcch4 => some 1
  | .tchF => some 6
  | .tchH => some 9
  | .sdcch8Sacch8c => some 4
  | .pdch => some 11
  | .tchFPdch | .unknown | .ccchSdcch4Cbch | .sdcch8Sacch8cCbch | .tchFTchHPdch => none

def setChanConfigs (trx : Trx) : List (Fin 8) → List (BitVec 8) → Option (List (BitVec 8))
  | [], fuConfig => some fuConfig
  | i :: is, fuConfig => match chanConfig (trx.ts i).pchanFromConfig with
    | none => none
    | some octet => setChanConfigs trx is (fuConfig.set (72 + i) octet)

def idOffsets : List Nat := [6 + 2,66 + 2,86 + 2,100 + 2,113 + 2,127 + 2]

def Trx.hops (trx : Trx) : Bool := tsNrs.any fun i => (trx.ts i).hopping.enabled

/-- `make_fu_config`: the section, none where 0 is returned, and `*hopping`. A section that fails is left behind the
octets that are sent. -/
def makeFuConfig (bts : Bts) (trx : Trx) (id : BitVec 8) : Except Overrun (Option (List (BitVec 8)) × Bool) := do
  let fuConfig := idOffsets.foldl (fun fuConfig i => fuConfig.set i id) fuConfigTemplate
  let fuConfig := setOctets fuConfig 119 (arfcnOctets trx.arfcn)
  let fuConfig ← setRadios trx tsNrs fuConfig
  let fuConfig := fuConfig.set 106 bts.bsic
  match generateCellChanList bts with
  | .error .outOfBounds | .error .divisionByZero => throw .cellChanList
  | .error _ => return (none,trx.hops)
  | .ok chanList =>
    return (setChanConfigs trx tsNrs (setOctets fuConfig 38 ((List.range 16).map chanList)),trx.hops)

end Fu

def realTime (tm : Tm) : List (BitVec 8) :=
  [BitVec.ofNat 8 ((1900 + tm.year) >>> 8),BitVec.ofNat 8 (1900 + tm.year),BitVec.ofNat 8 (tm.mon + 1),
    BitVec.ofNat 8 tm.mday,BitVec.ofNat 8 tm.hour,BitVec.ofNat 8 tm.min,BitVec.ofNat 8 tm.sec,0,0]

def isInsite (btsType : BitVec 8) : Bool := btsType == 0x0e || btsType == 0x0f || btsType == 0x10

/-- `make_bts_config`, none where 0 is returned. -/
def makeBtsConfig (tm : Tm) (btsType : BitVec 8) (nTrx : Nat) (needHopping : Bool) : Option (List (BitVec 8)) :=
  if isInsite btsType then
    if nTrx ≠ 1 then none
    else if needHopping then none
    else some (setOctets btsConfigInsite 26 (realTime tm))
  else
    let sector := (btsConfig1.set 11 (BitVec.ofNat 8 (1 + nTrx))).take 13
      ++ (List.range nTrx).map fun i => BitVec.ofNat 8 (i + 1)
    let modes := if needHopping then btsConfig2.set 3 1 else btsConfig2
    let radius := (List.range nTrx).flatMap fun i => btsConfig3.set 3 (BitVec.ofNat 8 (i + 1))
    some (sector ++ modes ++ radius ++ setOctets btsConfig4 3 (realTime tm))

/-- What is put behind the first `len` octets of `config`, as many as are written there. -/
def putSection (config : List (BitVec 8)) (size : Nat) : Except Overrun Unit :=
  if config.length + size ≤ 2048 then .ok () else .error .config

/-- The loop of `abis_nm_send_config`: `config` up to `len`, `idx` and `need_hopping`. -/
def fuSections (bts : Bts) : List Trx → (config : List (BitVec 8)) → (idx : Nat) → (needHopping : Bool) →
    Except Overrun (List (BitVec 8) × Nat × Bool)
  | [], config, idx, needHopping => .ok (config,idx,needHopping)
  | trx :: trxs, config, idx, needHopping => do
    putSection config fuConfigTemplate.length
    let (fuSection,hopping) ← makeFuConfig bts trx (BitVec.ofNat 8 (idx + 1))
    fuSections bts trxs (config ++ fuSection.getD []) (idx + 1) (needHopping || hopping)

/-- The octets that `abis_nm_send_config` sends. -/
def configOf (tm : Tm) (bts : Bts) (btsType : BitVec 8) : Except Overrun (List (BitVec 8)) := do
  let (config,nTrx,needHopping) ← fuSections bts bts.trxList [] 0 false
  let btsSection := (makeBtsConfig tm btsType nTrx needHopping).getD []
  putSection config btsSection.length
  return config ++ btsSection

def nokiaMsgConfData : BitVec 8 := 128

def abisNmSendConfig (abisSendmsg : OmMsg → Int) (tm : Tm) (bts : Bts) (btsType : BitVec 8) (q : NmQueue) :
    Except Overrun (NmQueue × Int) := do
  let config ← configOf tm bts btsType
  return abisNmSendMultiSegments abisSendmsg nokiaMsgConfData 1 config q

end OsmoBsc.Nokia
