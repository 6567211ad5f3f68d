import OsmoBsc.Si.Neighbours
import OsmoBsc.Si.RestOctets
import OsmoBsc.Si.RoundTrip
set_option autoImplicit false

namespace OsmoBsc.Si

/-- `enum osmo_sysinfo_type`; there is no generator for the `other` ones. -/
inductive SysinfoType where
  | t1
  | t2
  | t2bis
  | t2ter
  | t2quater
  | t3
  | t4
  | t5
  | t5bis
  | t5ter
  | t6
  | t13
  | other (type : Nat)
  deriving DecidableEq, Repr

inductive BtsGprsMode where
  | none
  | gprs
  | egprs
  deriving DecidableEq, Repr

inductive GsmBtsType where
  | unknown
  | bs11
  | nanobts
  | rbs2000
  | nokiaSite
  | osmobts
  deriving DecidableEq, Repr

structure RachControl where
  head : Octet := 0
  t2 : Octet := 0
  t3 : Octet := 0
  deriving DecidableEq, Repr

/-- `struct gsm_bts_trx`: its ARFCN and the hopping ARFCNs of its timeslots. -/
structure SiTrx where
  arfcn : Nat
  hoppingArfcns : List Bitvec := []

/-- The neighbours that SI2quater announces: UARFCNs with their scrambling codes, and EARFCNs. -/
structure Si2quaterNeigh where
  uarfcns : List (Nat × Nat) := []
  earfcns : List Nat := []
  deriving DecidableEq, Repr

/-- The configuration of a BTS from which its system information is made. `lai` has the
octets of `gsm48_generate_lai2`, `cbchChanDesc` those of the CBCH channel description;
`dtxu` is an `enum gsm48_dtx_mode`. -/
structure SiConfig extends NeighBts where
  type : GsmBtsType := .unknown
  otherTrx : List SiTrx := []
  c0HoppingArfcns : List Bitvec := []
  cellIdentity : BitVec 16 := 0
  lai : List Octet := []
  chanDesc : List Octet := []
  cellOptions : Octet := 0
  cellSelPar : List Octet := []
  cellRoSelPar : SelectionParams := {}
  rachControl : RachControl := {}
  nccPermitted : Octet := 0
  dtxu : Nat := 0
  accRampBarred : Option (BitVec 16) := Option.none
  cbchChanDesc : Option (List Octet) := Option.none
  si2quaterNeigh : Si2quaterNeigh := {}
  earlyClassmarkAllowed : Bool := false
  earlyClassmarkAllowed3g : Bool := false
  bcchChangeMark : Nat := 0
  gprsMode : BtsGprsMode := .none
  rac : Nat := 0
  netCtrlOrd : Nat := 0
  ctrlAckTypeUseBlock : Bool := true
  supportsEgprs11bitRach : Nat := 0
  siModeStatic : SysinfoType → Bool := fun _ => false

/-- The buffers of a BTS: `si_valid`, `si_buf` and the SI2quater messages in it. -/
structure SiState where
  siValid : SysinfoType → Bool
  siBuf : SysinfoType → List Octet
  si2qBufs : List (List Octet)

/-- What is not modelled here: `gsm48_set_dtx` of libosmocore, and `make_si2quaters`,
whose messages depend on nothing but the UARFCNs and EARFCNs. -/
structure SiLib where
  gsm48SetDtx : Octet → Nat → Nat → Bool → Octet
  makeSi2quaters : Si2quaterNeigh → Except EncError (List (List Octet))

/-- The two records of system_information.c that all BTSs share. -/
structure Statics where
  siInfo : SiRoInfo := {}
  si13Default : Si13Info := {}
  deriving DecidableEq, Repr

def gsmMacblockLen : Nat := 23

def macblock (parts : List (List Octet)) : List Octet :=
  parts.flatten ++ List.replicate (gsmMacblockLen - parts.flatten.length) gsmMacblockPadding

def gsm48Len2plen (len : Nat) : Octet := BitVec.ofNat 8 (4 * len + 1)

/-- The L2 pseudo length, GSM48_PDISC_RR and the type of a message. -/
def siHeader (l2Plen : Octet) (messageType : Octet) : List Octet := [l2Plen,0x06,messageType]

def freqListOctets (o : Octets) : List Octet := (List.range 16).map o

def Bts.isDcsNet (bts : Bts) : Bool := bts.band != .band850 && bts.band != .band1900

/-- The RACH control parameters, with the classes that `acc_ramp_apply` bars. -/
def SiConfig.rachControlOctets (bts : SiConfig) : List Octet :=
  let barred := bts.accRampBarred.getD 0
  [bts.rachControl.head,bts.rachControl.t2 ||| ((barred >>> 8).setWidth 8 &&& 0x03),
    bts.rachControl.t3 ||| barred.setWidth 8]

def SiConfig.cellIdentityOctets (bts : SiConfig) : List Octet :=
  [(bts.cellIdentity >>> 8).setWidth 8,bts.cellIdentity.setWidth 8]

def SiConfig.sacchPlen (bts : SiConfig) (l2Plen : Nat) : List Octet :=
  match bts.type with
  | .nanobts | .osmobts => [gsm48Len2plen l2Plen]
  | _ => []

/-- `si_common.cell_alloc`, as `generate_cell_chan_list` fills it. -/
def SiConfig.cellAlloc (bts : SiConfig) : Bitvec := fun arfcn =>
  (({ arfcn := bts.c0Arfcn, hoppingArfcns := bts.c0HoppingArfcns } : SiTrx) :: bts.otherTrx).any fun trx =>
    trx.arfcn == arfcn || trx.hoppingArfcns.any fun hopping => hopping arfcn

def generateCellChanList (net : NeighNetwork) (bts : SiConfig) : Except EncError Octets :=
  bitvec2freqList
    { gsmArfcn2bandRc := net.gsmArfcn2bandRc
      bts := bts.toBts
      bv := bts.cellAlloc
      bis := false
      ter := false }

def setExtInd (chanList : List Octet) : List Octet :=
  chanList.modify 0 (· ||| 0x20)

/-- `list_arfcn` finds an ARFCN. -/
def listsArfcn (o : Octets) : Bool := !(decodeFreqList o).isEmpty

def SiState.setBuf (st : SiState) (t : SysinfoType) (parts : List (List Octet)) : SiState :=
  { st with siBuf := Function.update st.siBuf t (macblock parts) }

def SiState.setValid (st : SiState) (t : SysinfoType) (valid : Bool) : SiState :=
  { st with siValid := Function.update st.siValid t valid }

section Generate

variable (lib : SiLib) (net : NeighNetwork) (bts : SiConfig)

def generateSi1 (st : SiState) : Except EncError SiState := do
  let chanList ← generateCellChanList net bts
  return st.setBuf .t1 [siHeader (gsm48Len2plen 21) 0x19,freqListOctets chanList,bts.rachControlOctets,
    restOctetsSi1 bts.isDcsNet]

def generateSi2 (st : SiState) : Except EncError SiState := do
  let chanList ← generateBcchChanList net bts.toNeighBts false .plain
  return st.setBuf .t2 [siHeader (gsm48Len2plen 22) 0x1a,freqListOctets chanList,[bts.nccPermitted],
    bts.rachControlOctets]

/-- `generate_si2bis`, which marks SI2 too when there is an extension. -/
def generateSi2bis (st : SiState) : Except EncError SiState := do
  let chanList ← generateBcchChanList net bts.toNeighBts false .bis
  let extension := listsArfcn chanList
  let octets := freqListOctets chanList
  let msg := [siHeader (gsm48Len2plen 21) 0x02,if extension then setExtInd octets else octets,
    bts.rachControlOctets,restOctetsSi2bis]
  let st := st.setBuf .t2bis msg
  if extension then
    return { st with siBuf := Function.update st.siBuf .t2 ((st.siBuf .t2).modify 3 (· ||| 0x20)) }
  else return st.setValid .t2bis false

def generateSi2ter (st : SiState) : Except EncError SiState := do
  let chanList ← generateBcchChanList net bts.toNeighBts false .ter
  let st := st.setBuf .t2ter [siHeader (gsm48Len2plen 18) 0x03,freqListOctets chanList,restOctetsSi2ter]
  if listsArfcn chanList then return st else return st.setValid .t2ter false

def generateSi2quater (st : SiState) : Except EncError SiState :=
  if bts.si2quaterNeigh.uarfcns.isEmpty && bts.si2quaterNeigh.earfcns.isEmpty then
    .ok (st.setValid .t2quater false)
  else do
    let msgs ← lib.makeSi2quaters bts.si2quaterNeigh
    let bufs := msgs.map fun rest => macblock [siHeader (gsm48Len2plen 22) 0x07,rest]
    return { st with si2qBufs := bufs }

/-- What `generate_si3` writes to `si_info`. -/
def siInfoForSi3 (st : SiState) (siInfo : SiRoInfo) : SiRoInfo :=
  { siInfo with
    si2terIndicator := st.siValid .t2ter
    si2quaterIndicator := st.siValid .t2quater
    earlyCmCtrl := bts.earlyClassmarkAllowed
    earlyCmRestrict3g := !bts.earlyClassmarkAllowed3g }

def generateSi3 (siInfo : SiRoInfo) (st : SiState) : SiState :=
  st.setBuf .t3 [siHeader (gsm48Len2plen 18) 0x1b,bts.cellIdentityOctets,bts.lai,bts.chanDesc,
    [lib.gsm48SetDtx bts.cellOptions bts.dtxu bts.dtxu true],bts.cellSelPar,bts.rachControlOctets,
    restOctetsSi3 siInfo]

/-- `generate_si4`, with the CBCH channel description if there is a CBCH. -/
def generateSi4 (siInfo : SiRoInfo) (st : SiState) : SiState :=
  let cbch := match bts.cbchChanDesc with
    | none => []
    | some cd => 0x64 :: cd
  let ies := List.flatten [bts.lai,bts.cellSelPar,bts.rachControlOctets,cbch]
  st.setBuf .t4 [siHeader (gsm48Len2plen (2 + ies.length)) 0x1c,ies,
    restOctetsSi4 siInfo (gsmMacblockLen - (3 + ies.length))]

def generateSi5 (st : SiState) : Except EncError SiState := do
  let chanList ← generateBcchChanList net bts.toNeighBts true .plain
  return st.setBuf .t5 [bts.sacchPlen 18,[0x06,0x1d],freqListOctets chanList]

/-- `generate_si5bis`. The octet of SI5 that it marks is behind the message of 18 octets,
since the pointer to it is counted in messages. -/
def generateSi5bis (st : SiState) : Except EncError SiState := do
  let chanList ← generateBcchChanList net bts.toNeighBts true .bis
  let extension := listsArfcn chanList
  let octets := freqListOctets chanList
  let msg := [bts.sacchPlen 18,[0x06,0x05],if extension then setExtInd octets else octets]
  let st := st.setBuf .t5bis msg
  if extension then
    return { st with siBuf := Function.update st.siBuf .t5 ((st.siBuf .t5).modify 20 (· ||| 0x20)) }
  else return st.setValid .t5bis false

def generateSi5ter (st : SiState) : Except EncError SiState := do
  let chanList ← generateBcchChanList net bts.toNeighBts true .ter
  let st := st.setBuf .t5ter [bts.sacchPlen 18,[0x06,0x06],freqListOctets chanList]
  if listsArfcn chanList then return st else return st.setValid .t5ter false

def generateSi6 (st : SiState) : SiState :=
  st.setBuf .t6 [bts.sacchPlen 11,[0x06,0x1e],bts.cellIdentityOctets,bts.lai,
    [lib.gsm48SetDtx bts.cellOptions bts.dtxu bts.dtxu false,bts.nccPermitted],
    restOctetsSi6 bts.isDcsNet]

/-- What `generate_si13` writes to `si13_default`. -/
def si13DefaultForSi13 (si13Default : Si13Info) : Si13Info :=
  { si13Default with
    rac := bts.rac
    netCtrlOrd := bts.netCtrlOrd
    bcchChangeMark := bts.bcchChangeMark
    cellOpts := { si13Default.cellOpts with
      ctrlAckTypeUseBlock := bts.ctrlAckTypeUseBlock
      supportsEgprs11bitRach := bts.supportsEgprs11bitRach } }

def generateSi13 (si13Default : Si13Info) (st : SiState) : SiState :=
  st.setBuf .t13 [siHeader 0x01 0x00,restOctetsSi13 si13Default]

/-- What `gsm_generate_si` writes to the shared records before it calls the generator. -/
def staticsForBts (s : Statics) : Statics :=
  let s := match bts.gprsMode with
    | .egprs => { s with
        si13Default := { s.si13Default with cellOpts := { s.si13Default.cellOpts with
          extInfoPresent := true
          extInfo := { s.si13Default.cellOpts.extInfo with egprsSupported := true } } }
        siInfo := { s.siInfo with gprsInd := { s.siInfo.gprsInd with present := true } } }
    | .gprs => { s with siInfo := { s.siInfo with gprsInd := { s.siInfo.gprsInd with present := true } } }
    | .none => { s with siInfo := { s.siInfo with gprsInd := { s.siInfo.gprsInd with present := false } } }
  { s with siInfo := { s.siInfo with selectionParams := bts.cellRoSelPar } }

def gsmGenerateSi (t : SysinfoType) (s : Statics) (st : SiState) : Statics × Except EncError SiState :=
  let s := staticsForBts bts s
  match t with
  | .t1 => (s,generateSi1 net bts st)
  | .t2 => (s,generateSi2 net bts st)
  | .t2bis => (s,generateSi2bis net bts st)
  | .t2ter => (s,generateSi2ter net bts st)
  | .t2quater => (s,generateSi2quater lib bts st)
  | .t3 =>
    let s := { s with siInfo := siInfoForSi3 bts st s.siInfo }
    (s,.ok (generateSi3 lib bts s.siInfo st))
  | .t4 => (s,.ok (generateSi4 bts s.siInfo st))
  | .t5 => (s,generateSi5 net bts st)
  | .t5bis => (s,generateSi5bis net bts st)
  | .t5ter => (s,generateSi5ter net bts st)
  | .t6 => (s,.ok (generateSi6 lib bts st))
  | .t13 =>
    let s := { s with si13Default := si13DefaultForSi13 bts s.si13Default }
    (s,.ok (generateSi13 s.si13Default st))
  | .other _ => (s,.error .einval)

def siTypes (isC0 : Bool) : List SysinfoType :=
  (if isC0 then [SysinfoType.t1,.t2,.t2bis,.t2ter,.t2quater,.t3,.t4]
    ++ (if bts.gprsMode ≠ .none then [SysinfoType.t13] else []) else [])
  ++ [SysinfoType.t5,.t5bis,.t5ter,.t6]

/-- The loop of `gsm_bts_trx_set_system_infos` that generates the messages. -/
def generateSis : List SysinfoType → Statics → SiState → Statics × Except EncError SiState
  | [], s, st => (s,.ok st)
  | t :: ts, s, st =>
    if bts.siModeStatic t then generateSis ts s st
    else match gsmGenerateSi lib net bts t s (st.setValid t true) with
      | (s,.ok st) => generateSis ts s st
      | (s,.error e) => (s,.error e)

/-- What is sent for a message: its octets, or nothing if there is no such message. -/
def SiState.sent (st : SiState) (t : SysinfoType) : Option (List (List Octet)) :=
  if st.siValid t then some (if t = .t2quater then st.si2qBufs else [st.siBuf t]) else none

abbrev TrxSent := List (SysinfoType × Option (List (List Octet)))

def gsmBtsTrxSetSystemInfos (isC0 : Bool) (s : Statics) (st : SiState) :
    Statics × Except EncError (SiState × TrxSent) :=
  match generateSis lib net bts (siTypes bts isC0) s { st with siValid := bts.siModeStatic } with
  | (s,.ok st) => (s,.ok (st,(siTypes bts isC0).map fun t => (t,st.sent t)))
  | (s,.error e) => (s,.error e)

/-- The loop of `gsm_bts_set_system_infos` over the TRXs; C0 comes first. -/
def setTrxs : List Bool → Statics → SiState → Statics × Except EncError (List TrxSent)
  | [], s, _ => (s,.ok [])
  | isC0 :: trxs, s, st =>
    match gsmBtsTrxSetSystemInfos lib net bts isC0 s st with
    | (s,.ok (st,sent)) =>
      match setTrxs trxs s st with
      | (s,.ok rest) => (s,.ok (sent :: rest))
      | (s,.error e) => (s,.error e)
    | (s,.error e) => (s,.error e)

end Generate

/-- `gsm_bts_set_system_infos`: the messages for each TRX. -/
def gsmBtsSetSystemInfos (lib : SiLib) (net : NeighNetwork) (bts : SiConfig) (s : Statics) (st : SiState) :
    Statics × Except EncError (List TrxSent) :=
  setTrxs lib net { bts with bcchChangeMark := (bts.bcchChangeMark + 1) % 7 }
    (true :: bts.otherTrx.map fun _ => false) s st

/-- A call of `gsm_generate_si` for a BTS as it was then. -/
structure SiCall where
  bts : SiConfig
  st : SiState
  type : SysinfoType

/-- The shared records after some calls of `gsm_generate_si`. -/
def staticsAfter (lib : SiLib) (net : NeighNetwork) (calls : List SiCall) : Statics :=
  calls.foldl (fun s call => (gsmGenerateSi lib net call.bts call.type s call.st).1) {}

end OsmoBsc.Si
