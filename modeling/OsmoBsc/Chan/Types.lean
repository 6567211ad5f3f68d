import OsmoBsc.GsmData
import OsmoBsc.Lib.Calls
import Mathlib.Logic.Function.Basic
set_option autoImplicit false

namespace OsmoBsc.Chan
open EventFsm

/-- `enum gsm_phys_chan_config`. -/
inductive Pchan where
  | none
  | ccch
  | ccchSdcch4
  | tchF
  | tchH
  | sdcch8Sacch8c
  | pdch
  | tchFPdch
  | unknown
  | ccchSdcch4Cbch
  | sdcch8Sacch8cCbch
  | tchFTchHPdch
  deriving DecidableEq, Repr

/-- `subslots_per_pchan`. -/
def pchanSubslots : Pchan → Nat
  | .ccchSdcch4 => 4
  | .tchF => 1
  | .tchH => 2
  | .sdcch8Sacch8c => 8
  | .ccchSdcch4Cbch => 4
  | .sdcch8Sacch8cCbch => 8
  | .tchFTchHPdch => 2
  | .tchFPdch => 1
  | .none | .ccch | .pdch | .unknown => 0

/-- `gsm_lchan_type_by_pchan`, `none` for -1. -/
def gsmLchanTypeByPchan : Pchan → Option ChanT
  | .tchF => some .tchF
  | .tchH => some .tchH
  | .sdcch8Sacch8c | .sdcch8Sacch8cCbch | .ccchSdcch4 | .ccchSdcch4Cbch => some .sdcch
  | _ => none

def gsmPchanByLchanType : ChanT → Pchan
  | .tchF => .tchF
  | .tchH => .tchH
  | .none | .pdtch => .pdch
  | _ => .unknown

abbrev TsId := Nat

/-- `struct gsm_lchan *`: the timeslot it belongs to and its index in there. -/
structure LchanId where
  ts : TsId
  nr : Nat
  deriving DecidableEq, Repr

/-- `struct osmo_mgcpc_ep_ci *`: a connection of the MGW endpoint of a
subscriber connection. -/
structure Ci where
  conn : ConnId
  nr : Nat
  deriving DecidableEq, Repr

inductive TsState where
  | notInitialized
  | unused
  | waitPdchAct
  | pdch
  | waitPdchDeact
  | inUse
  | borken
  deriving DecidableEq, Repr

/-- `enum ts_fsm_event` with the lchan that comes along. -/
inductive TsEvent where
  | omlReady
  | omlDown
  | rslReady
  | rslDown
  | lchanRequested (l : LchanId)
  | lchanUnused (l : LchanId)
  | pdchActAck
  | pdchActNack
  | pdchDeactAck
  | pdchDeactNack
  deriving DecidableEq, Repr

inductive LchanState where
  | unused
  | cbch
  | waitTsReady
  | waitActivAck
  | waitRllRtpEstablish
  | established
  | waitRllRtpReleased
  | waitBeforeRfRelease
  | waitRfReleaseAck
  | waitAfterError
  | borken
  deriving DecidableEq, Repr

/-- `enum lchan_activate_mode`. -/
inductive ActivFor where
  | forNone
  | forMsChannelRequest
  | forAssignment
  | forHandover
  | forVty
  deriving DecidableEq, Repr

/-- `struct lchan_activate_info`, as far as the state machines read it. -/
structure ActivateInfo where
  activFor : ActivFor := .forNone
  forConn : Option ConnId := none
  chanMode : ChanMode := .sign
  requiresVoiceStream : Bool := false
  waitBeforeSwitchingRtp : Bool := false
  reUseMgwEndpointFromLchan : Option LchanId := none
  deriving DecidableEq, Repr

/-- `enum lchan_fsm_event`. A NACK comes with its cause, if any, of which only
RSL_ERR_RCH_ALR_ACTV_ALLOC is told apart from others; a release with its link id. -/
inductive LchanEvent where
  | activate (info : ActivateInfo)
  | tsReady
  | tsError
  | rslChanActivAck
  | rslChanActivNack (alreadyActive : Option Bool)
  | rllEstablishInd
  | rtpReady
  | rtpError
  | rtpReleased
  | rllRelInd (linkId : Fin 256)
  | rllRelConf (linkId : Fin 256)
  | rslRfChanRelAck
  | rllErrInd
  deriving DecidableEq, Repr

inductive RtpState where
  | waitMgwEndpointAvailable
  | waitLchanReady
  | waitIpaccCrcxAck
  | waitIpaccMdcxAck
  | waitReadyToSwitchRtp
  | waitMgwEndpointConfigured
  | ready
  | rollback
  | established
  deriving DecidableEq, Repr

inductive RtpEvent where
  | lchanReady
  | readyToSwitchRtp
  | mgwEndpointAvailable
  | mgwEndpointError
  | ipaccCrcxAck
  | ipaccCrcxNack
  | ipaccMdcxAck
  | ipaccMdcxNack
  | mgwEndpointConfigured
  | rollback
  | established
  | release
  deriving DecidableEq, Repr

inductive SapiState where
  | unused
  | ms
  | net
  deriving DecidableEq, Repr

/-- `struct gsm_lchan`. `fi` is the state of the lchan FSM, absent while that
is not allocated, `fiRtp` the state of its RTP FSM. -/
structure Lchan where
  fi : Option LchanState := none
  type : ChanT := .none
  tchMode : ChanMode := .sign
  conn : Option ConnId := none
  info : ActivateInfo := {}
  concluded : Bool := false
  activAck : Bool := false
  immediateAssignmentSent : Bool := false
  releaseRequested : Bool := false
  inError : Bool := false
  inReleaseHandler : Bool := false
  doRrRelease : Bool := false
  fiRtp : Option RtpState := none
  mgwEndpointCiBts : Option Ci := none
  sapis : Fin 8 → SapiState := fun _ => .unused

/-- `struct gsm_bts_trx_ts`; its FSM always exists. -/
structure Ts where
  fi : TsState := .notInitialized
  pchanOnInit : Pchan := .none
  pchanIs : Pchan := .none
  isOmlReady : Bool := false
  isRslReady : Bool := false
  pdchActAllowed : Bool := false
  deriving DecidableEq, Repr

structure TsCfg where
  pchanFromConfig : Pchan
  gprs : Bool
  isIpaccessBts : Bool
  noLocRelCnf : Bool
  deriving DecidableEq, Repr

inductive AssignmentState where
  | waitLchanActive
  | waitRrAssComplete
  | waitLchanEstablished
  | waitMgwEndpointToMsc
  deriving DecidableEq, Repr

inductive AssignmentEvent where
  | lchanActive (l : LchanId)
  | lchanEstablished (l : LchanId)
  | lchanError (l : LchanId)
  | mscMgwOk
  | mscMgwFail
  | rrAssignmentComplete
  | rrAssignmentFail
  | connReleasing
  deriving DecidableEq, Repr

/-- `enum handover_fsm_state`. -/
inductive HoState where
  | notStarted
  | waitLchanActive
  | waitMgwEndpointToMsc
  | waitRrHoDetect
  | waitRrHoComplete
  | waitLchanEstablished
  | outWaitHoCommand
  | outWaitClear
  deriving DecidableEq, Repr

/-- `enum handover_fsm_event`; a BSSMAP Handover Command may lack its layer 3
information. -/
inductive HoEvent where
  | lchanActive (l : LchanId)
  | lchanEstablished (l : LchanId)
  | lchanError (l : LchanId)
  | rrHoDetect
  | rrHoComplete
  | rrHoFail
  | mscMgwOk
  | mscMgwFail
  | connReleasing
  | bssmapHoCommand (l3Info : Bool)
  deriving DecidableEq, Repr

inductive HoScope where
  | noHandover
  | intraCell
  | intraBsc
  | interBscOut
  | interBscIn
  deriving DecidableEq, Repr

inductive HoResult where
  | ok
  | failNoChannel
  | failRrHoFail
  | failTimeout
  | connRelease
  | error
  deriving DecidableEq, Repr

/-- `enum gscon_fsm_states`. -/
inductive ConnState where
  | init
  | waitCc
  | active
  | assignment
  | handover
  | clearing
  deriving DecidableEq, Repr

inductive ChanRate where
  | sdcch
  | half
  | full
  deriving DecidableEq, Repr

structure ChannelModeAndRate where
  chanMode : ChanMode
  chanRate : ChanRate
  deriving DecidableEq, Repr

/-- What `lchan_select_by_type` finds for a channel type. -/
abbrev Select := ChanT → Option LchanId

/-- `struct gsm_subscriber_connection`. The FSM of a connection exists as long
as the connection; `assignmentFi` and `hoFi` are the states of the procedure
FSMs, absent while no procedure runs. -/
structure Conn where
  fi : ConnState := .init
  aoip : Bool := true
  lchan : Option LchanId := none
  assignmentFi : Option AssignmentState := none
  assignmentNewLchan : Option LchanId := none
  assignmentRequiresVoiceStream : Bool := false
  assignmentCreatedCiForMsc : Option Ci := none
  hoFi : Option HoState := none
  hoNewLchan : Option LchanId := none
  hoScope : HoScope := .noHandover
  hoCreatedCiForMsc : Option Ci := none
  mgwEndpoint : Bool := false
  mgwEndpointCiMsc : Option Ci := none
  dtapQueueLen : Nat := 0
  deriving DecidableEq, Repr

/-- What is sent to the BTS, the MS, the MSC and the MGW. -/
inductive Tx where
  | immAssRej (l : LchanId)
  | immAssignment (l : LchanId)
  | chanActiv (l : LchanId)
  | rfChanRelease (l : LchanId)
  | rrRelease (l : LchanId)
  | assignmentFailure (c : ConnId)
  | assignmentComplete (c : ConnId)
  | clearRequest (c : ConnId)
  | clearComplete (c : ConnId)
  | hoFailure (c : ConnId)
  | hoPerformed (c : ConnId)
  | hoComplete (c : ConnId)
  | epClear (c : ConnId)
  | crcx (ci : Ci)
  | mdcx (ci : Ci)
  | dlcx (ci : Ci)
  deriving DecidableEq, Repr

/-- The state that the timeslot, lchan, RTP, assignment, handover and
connection FSMs share. `conn` has no entry for a connection that was freed. -/
structure Bsc where
  ts : TsId → Ts := fun _ => {}
  lchan : LchanId → Lchan := fun _ => {}
  conn : ConnId → Option Conn := fun _ => none
  nextCi : Nat := 0
  sent : List Tx := []

/-- The outcome of the foreign functions that one call uses: whether the first
and the second one that can fail do so, and whether an MGW connection that is
deleted was the last one of its endpoint. -/
structure Foreign where
  fail : Bool := false
  fail2 : Bool := false
  lastCi : Bool := false
  deriving DecidableEq, Repr

namespace Bsc

def updTs (w : Bsc) (t : TsId) (f : Ts → Ts) : Bsc :=
  { w with ts := Function.update w.ts t (f (w.ts t)) }

def updLchan (w : Bsc) (l : LchanId) (f : Lchan → Lchan) : Bsc :=
  { w with lchan := Function.update w.lchan l (f (w.lchan l)) }

def updConn (w : Bsc) (c : ConnId) (f : Conn → Conn) : Bsc :=
  { w with conn := Function.update w.conn c ((w.conn c).map f) }

def freeConn (w : Bsc) (c : ConnId) : Bsc :=
  { w with conn := Function.update w.conn c none }

def allocConn (w : Bsc) (c : ConnId) (k : Conn) : Bsc :=
  { w with conn := Function.update w.conn c (some k) }

def send (w : Bsc) (m : Tx) : Bsc := { w with sent := m :: w.sent }

def getConn (w : Bsc) (c : ConnId) : Except Fault Conn :=
  match w.conn c with
  | some k => .ok k
  | none => .error .useAfterFree

end Bsc

/-- Where a handover goes: to a cell of this BSC (the same one or another one),
to a cell of another BSC, or to a neighbor nobody knows. -/
inductive HoTarget where
  | here (sameCell : Bool) (sel : Select)
  | remote
  | unknown

/-- An information element of a BSSMAP message: absent, not decodable, or decoded. -/
inductive Ie (α : Type) where
  | missing
  | malformed
  | value (a : α)

/-- The channel rate and type of a speech channel, `other` for one that is not supported. -/
inductive SpeechRateType where
  | fullBm
  | halfLm
  | fullPref
  | fullPrefNoChange
  | halfPref
  | halfPrefNoChange
  | perm
  | permNoChange
  | other
  deriving DecidableEq, Repr

/-- The channel rate and type of a signalling channel, `other` for one that is not
supported. -/
inductive SignRateType where
  | any
  | sdcch
  | sdcchFullBm
  | sdcchHalfLm
  | fullBm
  | halfLm
  | fullPref
  | fullPrefNoChange
  | halfPref
  | halfPrefNoChange
  | other
  deriving DecidableEq, Repr

/-- `struct gsm0808_channel_type`: the indicator with the rate that goes with it. -/
inductive Gsm0808ChannelType where
  | speech (rate : SpeechRateType)
  | data
  | sign (rate : SignRateType)
  | other
  deriving DecidableEq, Repr

inductive RatePref where
  | hr
  | fr
  deriving DecidableEq, Repr

/-- The BSSMAP Assignment Request, as far as its answer depends on it. The speech
codec list comes with its length, the transport address with whether it fits its
buffer, and `matchCodecPref` is what `match_codec_pref` finds for the codecs of the
request, the MSC and the BTS. -/
structure AssignmReq where
  channelType : Ie Gsm0808ChannelType
  circuitIdentityCode : Bool := false
  aoipTraspAddr : Ie Bool := .missing
  speechCodecList : Ie Nat := .missing
  matchCodecPref : RatePref → Option ChannelModeAndRate := fun _ => none

/-- The causes with which `bssmap_handle_assignm_req` rejects a request. -/
inductive Gsm0808Cause where
  | informationElementOrFieldMissing
  | incorrectValue
  | reqCodecTypeOrConfigNotSupp
  | reqCodecTypeOrConfigUnavail
  | invalidMessageContents
  deriving DecidableEq, Repr

/-- `enum gscon_fsm_event`, without the events that only forward messages of the MS.
A GSCON_EV_HANDOVER_END comes without its result when the handover FSM ends
unplanned. -/
inductive ConnEvent where
  | aConnReq
  | aConnCfm
  | aConnInd (sel : Select) (req : Option ChannelModeAndRate)
  | aClearCmd
  | aDiscInd
  | assignmentStart (sel : Select) (req : List ChannelModeAndRate)
  | assignmentEnd
  | handoverStart (newType : ChanT) (target : HoTarget)
  | handoverEnd (result : Option HoResult)
  | rslConnFail
  | forgetMgwEndpoint
  | mtDtap
  | txSccp (m : Tx)

/-- The layer 3 messages of an MS that end up in one of the FSMs, `other` for
the rest: a call setup that moves the connection to a local MSC, and what the access
filter denies, in a location update or not. -/
inductive L3Msg where
  | handoComplete
  | handoFail
  | assComplete
  | assFail
  | ccSetup
  | denied (locUpd : Bool)
  | other
  deriving DecidableEq, Repr

/-- The calls that are still to be made. Where a function of the source goes on
after a nested call, the rest of it is a call of its own. -/
inductive Call where
  -- timeslot_fsm.c
  | tsDispatch (t : TsId) (ev : TsEvent)
  | tsTimeout (t : TsId)
  | tsStateChg (t : TsId) (st : TsState)
  | tsErrorChg (t : TsId) (st : TsState)
  | tsLchansDispatch (t : TsId) (st : Option LchanState) (ev : LchanEvent) (i : Nat)
  | tsInUseOnenter (t : TsId) (i : Nat) (activatingType : ChanT)
  | tsTerminateLchanFsms (t : TsId) (i : Nat)
  | assertNotWaiting (l : LchanId)
  -- lchan_fsm.c
  | lchanActivate (l : LchanId) (info : ActivateInfo)
  | lchanDispatch (l : LchanId) (ev : LchanEvent)
  | lchanTimeout (l : LchanId)
  | lchanStateChg (l : LchanId) (st : LchanState)
  | lchanOnActivationFailure (l : LchanId) (activFor : ActivFor) (forConn : Option ConnId)
  | lchanFailChg (l : LchanId) (st : LchanState)
  | lchanRtpFsmStart (l : LchanId)
  | lchanRelease (l : LchanId) (doRrRelease err : Bool)
  | lchanReleaseRest (l : LchanId)
  | lchanExitReleaseHandler (l : LchanId)
  | lchanWaitReleasedRest (l : LchanId)
  | lchanEstablishedRelRest (l : LchanId)
  | lchanReleasedRelRest (l : LchanId)
  | lchanResetRest (l : LchanId)
  | lchanTerm (l : LchanId)
  | lchanCleanup (l : LchanId)
  | lchanCleanupRest (l : LchanId)
  -- lchan_rtp_fsm.c
  | rtpDispatch (l : LchanId) (ev : RtpEvent)
  | rtpTimeout (l : LchanId)
  | rtpStateChg (l : LchanId) (st : RtpState)
  | rtpTerm (l : LchanId)
  -- assignment_fsm.c
  | assignmentDispatch (c : ConnId) (ev : AssignmentEvent)
  | assignmentTimeout (c : ConnId)
  | assignmentStart (c : ConnId) (sel : Select) (req : List ChannelModeAndRate)
  | assignmentStartReuseRest (c : ConnId)
  | assignmentTerm (c : ConnId) (parent : Bool)
  | assignmentCleanupRest (c : ConnId) (parent : Bool)
  | assignmentReset (c : ConnId)
  | assignmentResetRest (c : ConnId)
  | assignmentStateChg (c : ConnId) (st : AssignmentState)
  | assignmentSuccess (c : ConnId)
  | assignmentSuccessSend (c : ConnId)
  | assignmentSuccessRest (c : ConnId)
  -- handover_fsm.c
  | hoDispatch (c : ConnId) (ev : HoEvent)
  | hoTimeout (c : ConnId)
  | hoStateChg (c : ConnId) (st : HoState)
  | handoverStart (c : ConnId) (newType : ChanT) (target : HoTarget)
  | handoverStartReset (c : ConnId) (newType : ChanT) (target : HoTarget)
  | handoverStartInterBscIn (c : ConnId) (sel : Select) (req : Option ChannelModeAndRate)
  | handoverEnd (c : ConnId) (result : HoResult)
  | handoverEndChange (c : ConnId) (result : HoResult)
  | handoverEndNotify (c : ConnId) (result : HoResult)
  | handoverEndRelease (c : ConnId)
  | handoverEndRest (c : ConnId)
  -- bsc_subscr_conn_fsm.c
  | connDispatch (c : ConnId) (ev : ConnEvent)
  | connTimeout (c : ConnId)
  | connClearRest (c : ConnId)
  | gsconUpdateId (c : ConnId)
  | gsconChangePrimaryLchan (c : ConnId) (l : Option LchanId)
  | gsconReleaseLchan (c : ConnId) (l : LchanId) (doRrRelease err : Bool)
  | gsconReleasePrimary (c : ConnId) (doRrRelease err : Bool)
  | gsconReleaseLchans (c : ConnId) (doRrRelease : Bool)
  | gsconLchanReleasing (c : ConnId) (l : LchanId)
  | gsconLchanReleasingAssignment (c : ConnId)
  | gsconLchanReleasingHo (c : ConnId) (l : LchanId)
  | gsconLchanReleasingRest (c : ConnId) (l : LchanId)
  | gsconTerm (c : ConnId)
  | gsconTermChildren (c : ConnId)
  | gsconCleanup (c : ConnId)
  | gsconSubmitRslDtap (c : ConnId)
  | gsconDtapQueueFlush (c : ConnId)
  -- osmo_bsc_bssap.c
  | bssmapHandleAssignmReq (c : ConnId) (sel : Select) (req : AssignmReq)
  -- abis_rsl.c, gsm_04_08_rr.c and the VTY
  | rslRxChanRqd (l : LchanId) (type : ChanT)
  | lchanAct (l : LchanId) (mode : ChanMode)
  | rllEstInd (l : LchanId) (sapi : Fin 8)
  | rllEstConf (l : LchanId) (sapi : Fin 8)
  | gsm0408Rcvmsg (l : LchanId) (msg : L3Msg) (newConn : ConnId) (aoip : Bool)
  | sccpNConnect (c : ConnId) (aoip : Bool) (sel : Select) (req : Option ChannelModeAndRate)

/-- What a call ends in: a fault, or the next state and the calls it makes. -/
abbrev Outcome := Except Fault (Bsc × List Call)

end OsmoBsc.Chan
