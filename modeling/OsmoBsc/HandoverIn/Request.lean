import OsmoBsc.Chan.SubscrConnFsm
set_option autoImplicit false

namespace OsmoBsc.HandoverIn
open EventFsm
open Chan (HoState HoEvent HoResult ConnState ChannelModeAndRate LchanId Ie hoFsm gsconFsm)

/-- The BSSMAP messages that a connection sends to the MSC while it takes over an MS. -/
inductive Bssmap where
  | hoRequestAck
  | hoFailure
  | hoDetect
  | hoComplete
  | clearRequest
  deriving DecidableEq, Repr

inductive LchanUse where
  | unused
  | activated
  | releasing
  deriving DecidableEq, Repr

/-- `struct gsm_subscriber_connection` with its `ho`, whose scope is HO_INTER_BSC_IN; the last
fields are of the chosen lchan and the messages that were sent. -/
structure Conn where
  fi : ConnState := .init
  aoip : Bool := true
  lchan : Option LchanId := none
  hoFi : Option HoState := none
  newLchan : Option LchanId := none
  requiresVoiceStream : Bool := false
  concluded : Bool := false
  use : LchanUse := .unused
  sent : List Bssmap := []
  deriving DecidableEq, Repr

/-- The outcome of what is called in one step: whether the A interface takes messages, an RR
Handover Command can be composed, the MGW is connected to the MSC, its RTP address is known, and
the speech codec of the lchan can be named. -/
structure Env where
  ready : Bool := true
  rrHoCmd : Bool := true
  mgwToMsc : Bool := true
  rtpInfo : Bool := true
  speechCodec : Bool := true
  deriving DecidableEq, Repr

/-- The BSSMAP Handover Request: the elements that `parse_ho_request` looks at, each missing, not
decodable or with what is used of it. The transport address comes with whether it fits its buffer,
the encryption information with the length of its key. -/
structure HoRequest where
  tlvs : Bool := true
  channelType : Ie Unit := .value ()
  encryptionInformation : Ie Nat := .value 0
  classmark1 : Ie Unit := .missing
  classmark2 : Ie Unit := .missing
  chosenEncrAlg : Option (Fin 256) := none
  aoipTraspAddr : Ie Bool := .missing
  cellIdServing : Ie Unit := .value ()
  cellIdTarget : Ie Unit := .value ()
  circuitIdentityCode : Bool := false

/-- A BTS that the target cell matches: the mode that its codecs allow, and the lchan that is free
for it. -/
structure Cell where
  codec : Option ChannelModeAndRate
  lchan : ChannelModeAndRate → Option LchanId

section Request

variable {α : Type}

def mandatory : Ie α → Option α
  | .missing | .malformed => none
  | .value a => some a

def wellFormed : Ie α → Bool
  | .malformed => false
  | .missing | .value _ => true

/-- The AoIP transport address: there is one that fits its buffer exactly on an AoIP connection. -/
def aoipTraspAddrOk (aoip : Bool) : Ie Bool → Bool
  | .missing => !aoip
  | .malformed => false
  | .value fits => aoip && fits

/-- `parse_ho_request` on a connection that is either AoIP or SCCPlite; what it finds is the length
of the key. -/
def parseHoRequest (aoip : Bool) (req : HoRequest) : Option Nat :=
  if !req.tlvs then none
  else do
    let _ ← mandatory req.channelType
    let keyLen ← mandatory req.encryptionInformation
    if !wellFormed req.classmark1 then none
    else if req.classmark1 matches .missing ∧ !wellFormed req.classmark2 then none
    else if !aoipTraspAddrOk aoip req.aoipTraspAddr then none
    else
      let _ ← mandatory req.cellIdServing
      let _ ← mandatory req.cellIdTarget
      if !req.circuitIdentityCode && !aoip then none else some keyLen

/-- The loop over the cells in `handover_start_inter_bsc_in`. -/
def findCell : List Cell → Option (ChannelModeAndRate × LchanId)
  | [] => none
  | cell :: cells => match cell.codec with
    | none => findCell cells
    | some m => match cell.lchan m with
      | none => findCell cells
      | some l => some (m,l)

def chanModeIsTch : ChanMode → Bool
  | .speechV1 | .speechEfr | .speechAmr => true
  | _ => false

/-- The checks of the encryption parameters; the key has room for 16 octets. -/
def encrOk (chosenEncrAlg : Option (Fin 256)) (keyLen : Nat) : Bool :=
  match chosenEncrAlg with
  | some alg => if 1 < alg.val ∧ keyLen = 0 then false else decide (keyLen ≤ 16)
  | none => decide (keyLen ≤ 16)

end Request

def Conn.sigtranSend (env : Env) (m : Bssmap) (k : Conn) : Conn :=
  if env.ready then { k with sent := k.sent ++ [m] } else k

def Conn.bssmapClear (env : Env) (k : Conn) : Conn := k.sigtranSend env .clearRequest

/-- `osmo_fsm_inst_state_chg` on the connection FSM, with `gscon_fsm_active_onenter`. -/
def Conn.stateChg (env : Env) (st : ConnState) (k : Conn) : Conn :=
  if gsconFsm.outState k.fi st then
    if st = .active ∧ k.lchan.isNone then { k with fi := st }.bssmapClear env else { k with fi := st }
  else k

/-- GSCON_EV_HANDOVER_END in `gscon_fsm_init`. -/
def Conn.gsconHandoverEnd (env : Env) (result : HoResult) (k : Conn) : Conn :=
  if gsconFsm.verdict k.fi .handoverEnd = .action then
    if result = .ok then k.stateChg env .active
    else (k.bssmapClear env).stateChg env .clearing
  else k

def Conn.gsconForgetLchan (env : Env) (l : LchanId) (k : Conn) : Conn :=
  let newLchan := if k.newLchan = some l then none else k.newLchan
  let lchan := if k.lchan = some l then none else k.lchan
  let k := { k with newLchan := newLchan, lchan := lchan }
  if k.fi ≠ .clearing ∧ lchan = none ∧ newLchan = none then k.bssmapClear env else k

/-- `lchan_release` in error of the chosen lchan: one that was not activated stays unused. -/
def Conn.lchanRelease (env : Env) (l : LchanId) (k : Conn) : Conn :=
  if k.use = .activated then { k with use := .releasing }.gsconForgetLchan env l else k

/-- `bsc_tx_bssmap_ho_complete` composes a message and the A interface takes it. -/
def Conn.hoCompleteOk (env : Env) (k : Conn) : Bool :=
  (!(k.requiresVoiceStream && k.aoip) || env.speechCodec) && env.ready

/-- The result that `handover_end` goes on with: success takes an lchan of this connection. -/
def Conn.handoverEndResult (env : Env) (result : HoResult) (k : Conn) : HoResult :=
  if result = .ok then
    if k.newLchan.isSome ∧ k.use = .activated ∧ k.hoCompleteOk env then .ok else .error
  else result

def Conn.handoverEnd (env : Env) (result : HoResult) (k : Conn) : Conn :=
  let result := k.handoverEndResult env result
  let k := if result = .ok then k.sigtranSend env .hoComplete
    else if result = .error then k.sigtranSend env .hoFailure else k
  let k := if result = .ok then { k with lchan := k.newLchan, newLchan := none } else k
  let k := k.gsconHandoverEnd env result
  let k := match k.newLchan with
    | none => k
    | some l => k.lchanRelease env l
  { k with newLchan := none, hoFi := none }

def Conn.handoverStartInterBscIn (env : Env) (req : HoRequest) (cells : List Cell) (k : Conn) : Conn :=
  let k := { k with hoFi := some .notStarted }
  match parseHoRequest k.aoip req with
  | none => k.handoverEnd env .error
  | some keyLen => match findCell cells with
    | none => k.handoverEnd env .error
    | some (m,l) =>
      let k := { k with newLchan := some l, hoFi := some .waitLchanActive }
      if encrOk req.chosenEncrAlg keyLen then
        { k with use := .activated, requiresVoiceStream := chanModeIsTch m.chanMode }
      else k.handoverEnd env .error

/-- `ho_fsm_wait_mgw_endpoint_to_msc_onenter` on an AoIP connection. -/
def Conn.waitMgwEndpointToMscOnenter (env : Env) (k : Conn) : Except Fault Conn :=
  match k.newLchan with
  | none => .error .nullDeref
  | some _ => .ok (if env.mgwToMsc then k else k.handoverEnd env .error)

/-- `ho_fsm_wait_rr_ho_detect_onenter`, with `bsc_tx_bssmap_ho_request_ack`. -/
def Conn.waitRrHoDetectOnenter (env : Env) (k : Conn) : Except Fault Conn :=
  match k.newLchan with
  | none => .error .nullDeref
  | some _ =>
    if !env.rrHoCmd then .ok (k.handoverEnd env .error)
    else if (!k.aoip || env.rtpInfo) && env.ready then .ok (k.sigtranSend env .hoRequestAck)
    else .ok (k.handoverEnd env .error)

/-- `ho_fsm_wait_lchan_established_onenter`; the lchan is established once it concluded. -/
def Conn.waitLchanEstablishedOnenter (env : Env) (k : Conn) : Except Fault Conn :=
  match k.newLchan with
  | none => .error .nullDeref
  | some _ => .ok (if k.concluded then k.handoverEnd env .ok else k)

/-- `osmo_fsm_inst_state_chg` on the handover FSM. -/
def Conn.hoStateChg (env : Env) (st st' : HoState) (k : Conn) : Except Fault Conn :=
  if hoFsm.outState st st' then
    let k := { k with hoFi := some st' }
    match st' with
    | .waitMgwEndpointToMsc => k.waitMgwEndpointToMscOnenter env
    | .waitRrHoDetect => k.waitRrHoDetectOnenter env
    | .waitLchanEstablished => k.waitLchanEstablishedOnenter env
    | _ => .ok k
  else .ok k

def Conn.hoSwitchRtp (env : Env) (st st' : HoState) (k : Conn) : Except Fault Conn :=
  match k.newLchan with
  | none => .error .nullDeref
  | some _ => k.hoStateChg env st st'

/-- The actions of `ho_fsm_states`. -/
def Conn.hoAction (env : Env) (st : HoState) (ev : HoEvent) (k : Conn) : Except Fault Conn :=
  match st, ev with
  | .waitLchanActive, .lchanActive _ =>
    if k.requiresVoiceStream && k.aoip then k.hoStateChg env st .waitMgwEndpointToMsc
    else k.hoStateChg env st .waitRrHoDetect
  | .waitMgwEndpointToMsc, .mscMgwOk =>
    if env.rtpInfo then k.hoStateChg env st .waitRrHoDetect else .ok (k.handoverEnd env .error)
  | .waitMgwEndpointToMsc, .mscMgwFail => .ok (k.handoverEnd env .error)
  | .waitRrHoDetect, .rrHoDetect =>
    if env.ready then (k.sigtranSend env .hoDetect).hoSwitchRtp env st .waitRrHoComplete
    else .ok (k.handoverEnd env .error)
  | .waitRrHoDetect, .rrHoComplete => k.hoSwitchRtp env st .waitLchanEstablished
  | .waitRrHoComplete, .rrHoComplete => k.hoStateChg env st .waitLchanEstablished
  | .waitRrHoDetect, .rrHoFail | .waitRrHoComplete, .rrHoFail => .ok (k.handoverEnd env .failRrHoFail)
  | .waitRrHoComplete, .rrHoDetect | .waitRrHoComplete, .lchanEstablished _ => .ok k
  | .waitLchanEstablished, .lchanEstablished _ => .ok (k.handoverEnd env .ok)
  | _, _ => .error .assertFailed

/-- `osmo_fsm_inst_dispatch` on the handover FSM, with `ho_fsm_allstate_action`. -/
def Conn.hoDispatch (env : Env) (ev : HoEvent) (k : Conn) : Except Fault Conn :=
  match k.hoFi with
  | none => .ok k
  | some st => match hoFsm.verdict st ev with
    | .allState => .ok (k.handoverEnd env (if ev matches .connReleasing then .connRelease else .error))
    | .action => k.hoAction env st ev
    | .notPermitted => .ok k

/-- `gscon_lchan_releasing` after the event for the handover FSM. -/
def Conn.gsconLchanReleasingRest (env : Env) (l : LchanId) (k : Conn) : Conn :=
  let k := if k.lchan = some l then { k with lchan := none } else k
  if k.lchan.isNone then (k.stateChg env .clearing).bssmapClear env else k

def Conn.gsconLchanReleasing (env : Env) (l : LchanId) (k : Conn) : Except Fault Conn :=
  if k.newLchan = some l then (k.hoDispatch env (.lchanError l)).map (·.gsconLchanReleasingRest env l)
  else .ok (k.gsconLchanReleasingRest env l)

/-- What comes from the chosen lchan, the MS and the BTS on it, the MGW and the timer, and a BSSMAP
Handover Command, with or without layer 3 information. What the MSC does to release the connection
is left out. -/
inductive Input where
  | lchanActive
  | lchanEstablished
  | lchanError
  | lchanReleasing
  | lchanForgotten
  | mgwToMsc (ok : Bool)
  | rrHoDetect
  | rrHoComplete
  | rrHoFail
  | rslConnFail
  | hoTimeout
  | bssmapHandoverCmd (l3Info : Bool)
  deriving DecidableEq, Repr

def Conn.ownLchan (k : Conn) : Option LchanId := k.newLchan <|> k.lchan

/-- What comes from an lchan of the connection. -/
def Conn.lchanInput (env : Env) (l : LchanId) (i : Input) (k : Conn) : Except Fault Conn :=
  match i with
  | .lchanActive => k.hoDispatch env (.lchanActive l)
  | .lchanEstablished =>
    if k.concluded then .ok k else { k with concluded := true }.hoDispatch env (.lchanEstablished l)
  | .lchanError =>
    if k.concluded then .ok k else { k with concluded := true }.hoDispatch env (.lchanError l)
  | .lchanReleasing => k.gsconLchanReleasing env l
  | .lchanForgotten => .ok ({ k with use := .releasing }.gsconForgetLchan env l)
  | .rrHoDetect => k.hoDispatch env .rrHoDetect
  | .rrHoComplete => k.hoDispatch env .rrHoComplete
  | .rrHoFail => k.hoDispatch env .rrHoFail
  | .rslConnFail => .ok (k.bssmapClear env)
  | .mgwToMsc _ | .hoTimeout | .bssmapHandoverCmd _ => .ok k

/-- One input. -/
def step (k : Conn) : Input × Env → Except Fault Conn
  | (.mgwToMsc ok,env) => k.hoDispatch env (if ok then .mscMgwOk else .mscMgwFail)
  | (.hoTimeout,env) => .ok (match k.hoFi with
    | none | some .notStarted => k
    | some _ => k.handoverEnd env .failTimeout)
  | (.bssmapHandoverCmd l3Info,env) =>
    if k.hoFi.isNone then .ok k
    else if l3Info then k.hoDispatch env (.bssmapHoCommand true)
    else .ok (k.handoverEnd env .error)
  | (i,env) => match k.ownLchan with
    | none => .ok k
    | some l => k.lchanInput env l i

/-- What runs reach that start with a Handover Request and whose inputs all meet `good`, the request
at a time when the A interface is as `ready` says. -/
def Reachable (ready : Bool → Prop) (good : Conn → Input × Env → Prop) : Conn → Prop :=
  Reach step good fun k => ∃ (aoip : Bool) (env : Env) (req : HoRequest) (cells : List Cell), ready env.ready ∧
    k = ({ aoip := aoip } : Conn).handoverStartInterBscIn env req cells

end OsmoBsc.HandoverIn
