import OsmoBsc.Chan.Run
import OsmoBsc.Rsl.PchanRqd
import OsmoBsc.Rsl.MeasRes
set_option autoImplicit false

/-! What comes in on the RSL link of a TRX, with every use of an lchan, of an information element and of the
FSM of an lchan checked. -/

namespace OsmoBsc.Rsl.Receive
open Chan

inductive Missing where
  | lchan
  | ie
  | lchanFsm
  deriving DecidableEq, Repr

def need {α : Type} (what : Missing) : Option α → Except Missing α
  | some a => .ok a
  | none => .error what

def octetAt (msg : List (BitVec 8)) (i : Nat) : Except Missing (BitVec 8) := need .ie msg[i]?

/-- The octet behind the tag at `i`, where the tag is not looked at: the element is there only with its tag. -/
def valueAt (msg : List (BitVec 8)) (tag : BitVec 8) (i : Nat) : Except Missing (BitVec 8) :=
  if msg[i]? = some tag then octetAt msg (i + 1) else .error .ie

/-- TLVP_VAL() after TLVP_PRESENT(). -/
def ifPresent {α : Type} (ie : Option α) : Except Missing (Option α) :=
  if ie.isSome then some <$> need .ie ie else .ok none

def rslIeChanNr : BitVec 8 := 0x01
def rslIeLinkIdent : BitVec 8 := 0x02
def rslIeL3Info : BitVec 8 := 0x0b
def rslIePagingLoad : BitVec 8 := 0x0f
def rslIeRachLoad : BitVec 8 := 0x12
def rslErrRchAlrActvAlloc : BitVec 8 := 0x50

/-- `enum abis_rsl_msgtype`: the messages of a BTS that lead to more than a log and a counter. -/
inductive MsgType where
  | dataInd
  | errorInd
  | estConf
  | estInd
  | relConf
  | relInd
  | ccchLoadInd
  | chanRqd
  | chanActivAck
  | chanActivNack
  | connFail
  | handoDet
  | measRes
  | modeModifyAck
  | rfChanRelAck
  | ipacPdchActAck
  | ipacPdchActNack
  | ipacPdchDeactAck
  | ipacPdchDeactNack
  | ipacCrcxAck
  | ipacCrcxNack
  | ipacMdcxAck
  | ipacMdcxNack
  | ericssonImmAssSent
  | other
  deriving DecidableEq, Repr

def msgTypes : List (BitVec 8 × MsgType) :=
  [(0x02,.dataInd),(0x03,.errorInd),(0x05,.estConf),(0x06,.estInd),(0x08,.relConf),(0x09,.relInd),
    (0x12,.ccchLoadInd),(0x13,.chanRqd),(0x22,.chanActivAck),(0x23,.chanActivNack),(0x24,.connFail),
    (0x27,.handoDet),(0x28,.measRes),(0x2a,.modeModifyAck),(0x33,.rfChanRelAck),(0x49,.ipacPdchActAck),
    (0x4a,.ipacPdchActNack),(0x4c,.ipacPdchDeactAck),(0x4d,.ipacPdchDeactNack),(0x71,.ipacCrcxAck),
    (0x72,.ipacCrcxNack),(0x74,.ipacMdcxAck),(0x75,.ipacMdcxNack)]

/-- `struct tlv_parsed` as rsl_tlv_parse() leaves it, as far as the handlers look at it. A value of variable
length is the octets from its first on. -/
structure RslTlv where
  cause : Option Si.Octets := none
  rlmCause : Option Si.Octets := none
  accessDelay : Option (BitVec 8) := none
  measRes : MeasRes := ⟨none,none,none,none,none,none⟩
  ipacLocalIp : Option (BitVec 32) := none
  ipacLocalPort : Option (BitVec 16) := none
  ipacConnId : Option (BitVec 16) := none
  ipacRtpPayload2 : Option (BitVec 8) := none
  ipacSpeechMode : Option (BitVec 8) := none
  ipacRemoteIp : Option (BitVec 32) := none
  ipacRemotePort : Option (BitVec 16) := none

/-- `abis_ip` of a `struct gsm_lchan`, as far as the BTS sets it. -/
structure AbisIp where
  boundIp : BitVec 32 := 0
  boundPort : BitVec 16 := 0
  connId : BitVec 16 := 0
  rtpPayload2 : BitVec 8 := 0
  speechMode : BitVec 8 := 0
  connectIp : BitVec 32 := 0
  connectPort : BitVec 16 := 0
  deriving DecidableEq, Repr

/-- A message on the link of a TRX with the timeslots `ts`: the octets from the RSL header on, `data_len` of its
msgb, whether notices of DRSL are logged, and what libosmocore, the channel selection and the layer 3 above
make of it. -/
structure Received where
  ts : Fin 8 → TsId
  msg : List (BitVec 8)
  dataLen : Nat
  isIpaccessBts : Bool
  neci : Bool
  drslNotice : Bool
  tlvParse : List (BitVec 8) → RslTlv
  ericssonImmAssSent : BitVec 8
  ericMobileId : BitVec 8
  sel : Select
  l3Msg : List (BitVec 8) → L3Msg
  newConn : ConnId
  aoip : Bool

def Received.msgType (rx : Received) (mt : BitVec 8) : MsgType :=
  if mt = rx.ericssonImmAssSent then .ericssonImmAssSent else (msgTypes.lookup mt).getD .other

/-- `enum bsc_rllr_ind`, of what the BTS reports. -/
inductive RllrInd where
  | estConf
  | errInd
  deriving DecidableEq, Repr

/-- What a message leads to: calls of the state machines, and what is stored or passed on. -/
inductive Action where
  | call (c : Call)
  | nextMeasRep (l : LchanId)
  | measRes (l : LchanId) (m : MeasRes)
  | countCodecs (l : LchanId)
  | rllIndication (l : LchanId) (linkId : BitVec 8) (ind : RllrInd)
  | rachInd (ind : RachInd)
  | immAssRej (rqdRef : Gsm48ReqRef)
  | rqdRef (l : LchanId) (rqdRef : Gsm48ReqRef) (rqdTa : BitVec 8)
  | pagingLoad (pgBufSpace : Nat)
  | rachLoad (slotCount busyCount accessCount : Nat)
  | immAssSent (tlli : Nat)
  | abisIp (l : LchanId) (parsed : AbisIp → AbisIp)

section Handlers

variable (rx : Received) (w : Bsc)

/-- `rsl_lchan_lookup`, with whether the channel number fits the timeslot. -/
def rslLchanLookup (chanNr : BitVec 8) : Option (LchanId × Bool) :=
  let t := rx.ts (Fin.ofNat 8 chanNr.toNat)
  let cbits := chanNr.toNat >>> 3
  let ts := w.ts t
  if cbits = 0x01 then some (⟨t,0⟩,tsIsCapableOfPchan ts .tchF || ts.pchanOnInit == .pdch)
  else if cbits &&& 0x1e = 0x02 then some (⟨t,cbits &&& 0x1⟩,tsIsCapableOfPchan ts .tchH)
  else if cbits &&& 0x1c = 0x04 then some (⟨t,cbits &&& 0x3⟩,tsIsCapableOfPchan ts .ccchSdcch4)
  else if cbits &&& 0x18 = 0x08 then some (⟨t,cbits &&& 0x7⟩,tsIsCapableOfPchan ts .sdcch8Sacch8c)
  else if cbits = 0x10 ∨ cbits = 0x11 ∨ cbits = 0x12 then some (⟨t,0⟩,tsIsCapableOfPchan ts .ccch)
  else if chanNr &&& 0xf8 = 0xc0 then some (⟨t,0⟩,ts.pchanOnInit == .tchFTchHPdch)
  else none

/-- `lchan_lookup`: that the channel number does not fit is logged only. -/
def lchanLookup (chanNr : BitVec 8) : Option LchanId := (rslLchanLookup rx w chanNr).map (·.1)

def lchanMayReceiveData (l : LchanId) : Bool :=
  match (w.lchan l).fi with
  | some .waitRllRtpEstablish | some .established => true
  | _ => false

def msgForOsmocomDynTs (l : LchanId) (chanNr : BitVec 8) : Bool :=
  (w.ts l.ts).pchanOnInit == .tchFTchHPdch && l.nr == 0 && chanNr &&& 0xc0 == 0xc0

/-- osmo_fsm_inst_dispatch() of an event of the lchan FSM. -/
def dispatchFi (l : LchanId) (ev : LchanEvent) : Except Missing Action := do
  let _ ← need .lchanFsm (w.lchan l).fi
  return .call (.lchanDispatch l ev)

def dispatchFiRtp (l : LchanId) (ev : RtpEvent) : Except Missing Action := do
  let _ ← need .lchanFsm (w.lchan l).fiRtp
  return .call (.rtpDispatch l ev)

/-- The elements behind a header of `n` octets. -/
def Received.tlvs (n : Nat) : RslTlv := rx.tlvParse (rx.msg.drop n)

end Handlers

section Dedicated

variable (rx : Received) (w : Bsc) (l : LchanId) (chanNr : BitVec 8)

def rslRxChanActNack : Except Missing (List Action) := do
  let ieChan ← octetAt rx.msg 2
  if ieChan ≠ rslIeChanNr then return []
  else if msgForOsmocomDynTs w l chanNr then return [.call (.tsDispatch l.ts .pdchActNack)]
  else
    let cause := (rx.tlvs 4).cause.map fun cause => cause 0 == rslErrRchAlrActvAlloc
    let nack ← dispatchFi w l (.rslChanActivNack cause)
    return [nack]

/-- Without a conn, the cause is read for lchan_release(). -/
def rslRxConnFail : Except Missing (List Action) :=
  match (w.lchan l).conn with
  | none => do
    let _ ← need .ie (rx.tlvs 4).cause
    return [.call (.lchanRelease l false true)]
  | some c => .ok [.call (.connDispatch c .rslConnFail)]

def rslRxMeasRes : Except Missing (List Action) :=
  let tp := (rx.tlvs 4).measRes
  if !lchanMayReceiveData w l then .ok [.nextMeasRep l]
  else if tp.measResNr.isNone || tp.uplinkMeas.isNone || tp.bsPower.isNone then .ok [.nextMeasRep l]
  else do
    let nr ← need .ie tp.measResNr
    let val ← need .ie tp.uplinkMeas
    let bsPower ← need .ie tp.bsPower
    let msTimingOffset ← ifPresent tp.msTimingOffset
    let l1Info ← ifPresent tp.l1Info
    let l3Info ← ifPresent tp.l3Info
    return [.nextMeasRep l,.measRes l ⟨some nr,some val,some bsPower,msTimingOffset,l1Info,l3Info⟩]

def rslRxHandoDet : Except Missing (List Action) := do
  let _ ← ifPresent (rx.tlvs 4).accessDelay
  match (w.lchan l).conn with
  | none => return []
  | some c => match (w.conn c).bind (·.hoFi) with
    | none => return []
    | some _ => return [.call (.hoDispatch c .rrHoDetect)]

def rslRxIpaccPdch (ev : TsEvent) : List Action :=
  if (w.ts l.ts).pchanOnInit ≠ .tchFPdch then [] else [.call (.tsDispatch l.ts ev)]

/-- The messages that `abis_rsl_rx_dchan` takes for an lchan. -/
def rxDchanMsg : MsgType → Except Missing (List Action)
  | .chanActivAck =>
    if msgForOsmocomDynTs w l chanNr then .ok [.call (.tsDispatch l.ts .pdchActAck)]
    else do
      let ack ← dispatchFi w l .rslChanActivAck
      return [ack,.countCodecs l]
  | .chanActivNack => rslRxChanActNack rx w l chanNr
  | .connFail => rslRxConnFail rx w l
  | .measRes => rslRxMeasRes rx w l
  | .handoDet => rslRxHandoDet rx w l
  | .rfChanRelAck =>
    if msgForOsmocomDynTs w l chanNr then .ok [.call (.tsDispatch l.ts .pdchDeactAck)]
    else do
      let ack ← dispatchFi w l .rslRfChanRelAck
      return [ack]
  | .modeModifyAck => .ok [.countCodecs l]
  | .ipacPdchActAck => .ok (rslRxIpaccPdch w l .pdchActAck)
  | .ipacPdchActNack => .ok (rslRxIpaccPdch w l .pdchActNack)
  | .ipacPdchDeactAck => .ok (rslRxIpaccPdch w l .pdchDeactAck)
  | .ipacPdchDeactNack => .ok (rslRxIpaccPdch w l .pdchDeactNack)
  | _ => .ok []

def ipacParseRtp (tv : RslTlv) : Except Missing (AbisIp → AbisIp) := do
  let boundIp ← ifPresent tv.ipacLocalIp
  let boundPort ← ifPresent tv.ipacLocalPort
  let connId ← ifPresent tv.ipacConnId
  let rtpPayload2 ← ifPresent tv.ipacRtpPayload2
  let speechMode ← ifPresent tv.ipacSpeechMode
  let connectIp ← ifPresent tv.ipacRemoteIp
  let connectPort ← ifPresent tv.ipacRemotePort
  return fun abisIp => ⟨boundIp.getD abisIp.boundIp,boundPort.getD abisIp.boundPort,
    connId.getD abisIp.connId,rtpPayload2.getD abisIp.rtpPayload2,speechMode.getD abisIp.speechMode,
    connectIp.getD abisIp.connectIp,connectPort.getD abisIp.connectPort⟩

def abisRslRxIpaccCrcxAck : Except Missing (List Action) :=
  let tv := rx.tlvs 4
  if (w.lchan l).fiRtp.isNone then .ok []
  else if tv.ipacLocalPort.isNone || tv.ipacLocalIp.isNone || tv.ipacConnId.isNone then .ok []
  else do
    let parsed ← ipacParseRtp tv
    let ack ← dispatchFiRtp w l .ipaccCrcxAck
    return [.abisIp l parsed,ack]

def abisRslRxIpaccMdcxAck : Except Missing (List Action) :=
  if (w.lchan l).fiRtp.isNone then .ok []
  else do
    let parsed ← ipacParseRtp (rx.tlvs 4)
    let ack ← dispatchFiRtp w l .ipaccMdcxAck
    return [.abisIp l parsed,ack]

/-- `abis_rsl_rx_ipacc_crcx_nack` and `abis_rsl_rx_ipacc_mdcx_nack`. -/
def abisRslRxIpaccNack (ev : RtpEvent) : Except Missing (List Action) :=
  if (w.lchan l).fiRtp.isNone then .ok []
  else do
    let nack ← dispatchFiRtp w l ev
    return [nack]

/-- The messages that `abis_rsl_rx_ipacc` takes for an lchan. -/
def rxIpaccMsg : MsgType → Except Missing (List Action)
  | .ipacCrcxAck => abisRslRxIpaccCrcxAck rx w l
  | .ipacCrcxNack => abisRslRxIpaccNack w l .ipaccCrcxNack
  | .ipacMdcxAck => abisRslRxIpaccMdcxAck rx w l
  | .ipacMdcxNack => abisRslRxIpaccNack w l .ipaccMdcxNack
  | _ => .ok []

end Dedicated

section Common

variable (rx : Received) (w : Bsc)

def octets16 (data : List (BitVec 8)) (i : Nat) : Except Missing Nat := do
  let hi ← octetAt data i
  let lo ← octetAt data (i + 1)
  return hi.toNat <<< 8 ||| lo.toNat

/-- The arguments of a notice of DRSL are read only where it is logged. -/
def logBtsNr (lchan : Option LchanId) : Except Missing Unit :=
  if rx.drslNotice then do
    let _ ← need .lchan lchan
    return ()
  else .ok ()

/-- `rsl_rx_chan_rqd`; the notices name the BTS by `msg->lchan`. -/
def rslRxChanRqd (lchan : Option LchanId) : Except Missing (List Action) := do
  let data := rx.msg.drop 4
  let tag ← octetAt data 0
  if tag ≠ rslIeReqReference then return []
  else
    let tag ← octetAt data 4
    if tag ≠ rslIeAccessDelay then return []
    else
      let rqdTa ← octetAt data 5
      let ra ← octetAt data 1
      logBtsNr rx lchan
      let octets : Si.Octets := fun i => data.getD i 0
      if getReasonByChreq ra rx.neci = .pdch then return (rslRxPchanRqd octets).toList.map .rachInd
      else match chanRqdSelect w rx.sel with
        | none => return [.immAssRej (gsm48ReqRef octets 1)]
        | some (l,type) =>
          let _ ← need .lchanFsm (w.lchan l).fi
          return [.rqdRef l (gsm48ReqRef octets 1) rqdTa,.call (.rslRxChanRqd l type)]

/-- `rsl_rx_ccch_load`. It is `data_len`, the size of the buffer, that is compared for the RACH load. -/
def rslRxCcchLoad : Except Missing (List Action) := do
  let data := rx.msg.drop 4
  let tag ← octetAt data 0
  if tag = rslIePagingLoad then
    let space ← octets16 data 1
    return [.pagingLoad (if rx.isIpaccessBts && space == 0xffff then 50 else space)]
  else if tag = rslIeRachLoad ∧ 7 ≤ rx.dataLen then
    let slotCount ← octets16 data 2
    let busyCount ← octets16 data 4
    let accessCount ← octets16 data 6
    return [.rachLoad slotCount busyCount accessCount]
  else return []

def rslRxEricssonImmAssignSent : Except Missing (List Action) := do
  let data := rx.msg.drop 4
  if data.length < 5 then return []
  else
    let tag ← octetAt data 0
    if tag ≠ rx.ericMobileId then return []
    else
      let hi ← octets16 data 1
      let lo ← octets16 data 3
      return [.immAssSent (hi <<< 16 ||| lo)]

/-- The messages of `abis_rsl_rx_cchan`. -/
def rxCchanMsg (lchan : Option LchanId) : MsgType → Except Missing (List Action)
  | .chanRqd => rslRxChanRqd rx w lchan
  | .ccchLoadInd => rslRxCcchLoad rx
  | .ericssonImmAssSent => rslRxEricssonImmAssignSent rx
  | _ => .ok []

end Common

section Rll

variable (rx : Received) (w : Bsc) (l : LchanId) (linkId : BitVec 8)

def sapiOf : Fin 8 := Fin.ofNat 8 linkId.toNat

/-- The layer 3 information of a message goes to gsm0408_rcvmsg(). -/
def rllL3 : Except Missing (List Action) :=
  if rx.msg.length ≤ 8 then .ok []
  else do
    let tag ← octetAt rx.msg 6
    if tag = rslIeL3Info then return [.call (.gsm0408Rcvmsg l (rx.l3Msg (rx.msg.drop 9)) rx.newConn rx.aoip)]
    else return []

/-- An establishment that is not taken: of another SAPI before SAPI 0, or of SAPI 0 on the SACCH. -/
def estRefused : Prop :=
  (sapiOf linkId ≠ 0 ∧ (w.lchan l).sapis 0 ≠ .ms) ∨ (sapiOf linkId = 0 ∧ linkId.toNat >>> 6 &&& 0x03 = 1)

instance estRefused.decidable : Decidable (estRefused w l linkId) := inferInstanceAs (Decidable (_ ∨ _))

def rxEstInd : Except Missing (List Action) :=
  if estRefused w l linkId then .ok []
  else do
    let _ ← need .lchanFsm (w.lchan l).fi
    let l3 ← rllL3 rx l
    return .call (.rllEstInd l (sapiOf linkId)) :: l3

def rslRxRllErrInd : Except Missing (List Action) :=
  if (rx.tlvs 6).rlmCause.isNone then .ok []
  else do
    let _ ← need .ie (rx.tlvs 6).rlmCause
    let errInd ← dispatchFi w l .rllErrInd
    return [.rllIndication l linkId .errInd,errInd]

/-- The messages that `abis_rsl_rx_rll` takes for an lchan. -/
def rxRllMsg : MsgType → Except Missing (List Action)
  | .dataInd => rllL3 rx l
  | .estInd => rxEstInd rx w l linkId
  | .estConf => .ok [.call (.rllEstConf l (sapiOf linkId)),.rllIndication l linkId .estConf]
  | .relInd => do
    let ind ← dispatchFi w l (.rllRelInd (Fin.ofNat 256 linkId.toNat))
    return [ind]
  | .relConf => do
    let conf ← dispatchFi w l (.rllRelConf (Fin.ofNat 256 linkId.toNat))
    return [conf]
  | .errorInd => rslRxRllErrInd rx w l linkId
  | _ => .ok []

end Rll

section Dispatchers

variable (rx : Received) (w : Bsc) (mt : MsgType)

/-- `abis_rsl_rx_rll`. Whatever the message is, `msg->lchan` is used for it. -/
def abisRslRxRll : Except Missing (List Action) := do
  let linkId ← valueAt rx.msg rslIeLinkIdent 4
  let chanNr ← valueAt rx.msg rslIeChanNr 2
  let l ← need .lchan (lchanLookup rx w chanNr)
  rxRllMsg rx w l linkId mt

def abisRslRxDchan : Except Missing (List Action) := do
  let ieChan ← octetAt rx.msg 2
  if ieChan ≠ rslIeChanNr then return []
  else
    let chanNr ← octetAt rx.msg 3
    match lchanLookup rx w chanNr with
    | none => return []
    | some l => if (w.lchan l).fi.isNone then return [] else rxDchanMsg rx w l chanNr mt

def abisRslRxCchan : Except Missing (List Action) := do
  let chanNr ← valueAt rx.msg rslIeChanNr 2
  rxCchanMsg rx w (lchanLookup rx w chanNr) mt

def abisRslRxIpacc : Except Missing (List Action) := do
  let chanNr ← valueAt rx.msg rslIeChanNr 2
  match lchanLookup rx w chanNr with
  | none => return []
  | some l => if (w.lchan l).fi.isNone then return [] else rxIpaccMsg rx w l mt

end Dispatchers

/-- ABIS_RSL_MDISC_*. -/
inductive Mdisc where
  | rll
  | dedChan
  | comChan
  | trx
  | loc
  | ipaccess
  | unknown
  deriving DecidableEq, Repr

def mdiscs : List (BitVec 8 × Mdisc) :=
  [(0x02,.rll),(0x08,.dedChan),(0x0c,.comChan),(0x10,.trx),(0x20,.loc),(0x7e,.ipaccess)]

def mdiscOf (msgDiscr : BitVec 8) : Mdisc := (mdiscs.lookup (msgDiscr &&& 0xfe)).getD .unknown

/-- `abis_rsl_rcvmsg`: what a message leads to. For the TRX nothing but its log and its counters. -/
def abisRslRcvmsg (rx : Received) (w : Bsc) : Except Missing (List Action) :=
  if rx.msg.length < 2 then .ok []
  else do
    let msgDiscr ← octetAt rx.msg 0
    let msgType ← octetAt rx.msg 1
    match mdiscOf msgDiscr with
    | .rll => abisRslRxRll rx w (rx.msgType msgType)
    | .dedChan => abisRslRxDchan rx w (rx.msgType msgType)
    | .comChan => abisRslRxCchan rx w (rx.msgType msgType)
    | .ipaccess => abisRslRxIpacc rx w (rx.msgType msgType)
    | .trx | .loc | .unknown => return []

end OsmoBsc.Rsl.Receive
