import OsmoBsc.Chan.SubscrConnFsm
set_option autoImplicit false

namespace OsmoBsc.Chan
open EventFsm

/-- The end of `rsl_rx_chan_rqd`, when a channel was selected. -/
def rslRxChanRqd (l : LchanId) (type : ChanT) (w : Bsc) : Outcome :=
  .ok (w.updLchan l ({ · with type := type }),
    [.lchanActivate l { activFor := .forMsChannelRequest, chanMode := .sign }])

/-- `lchan_act`: the VTY user activates an unused channel past its FSM. -/
def lchanAct (x : Foreign) (l : LchanId) (mode : ChanMode) (w : Bsc) : Outcome :=
  if pchanSubslots (w.ts l.ts).pchanIs ≤ l.nr then .ok (w,[])
  else match (w.lchan l).fi, gsmLchanTypeByPchan (w.ts l.ts).pchanIs with
    | none, _ => .error .nullDeref
    | some .unused, some type =>
      let w := w.updLchan l ({ · with type := type, tchMode := mode })
      .ok (if mode = .speechAmr ∧ x.fail then w else w.send (.chanActiv l),[])
    | some _, _ => .ok (w,[])

/-- RSL_MT_EST_IND of `abis_rsl_rx_rll`. -/
def rllEstInd (l : LchanId) (sapi : Fin 8) (w : Bsc) : Outcome :=
  .ok (w.updLchan l fun lchan => { lchan with sapis := Function.update lchan.sapis sapi .ms },
    [.lchanDispatch l .rllEstablishInd])

/-- RSL_MT_EST_CONF of `abis_rsl_rx_rll`. -/
def rllEstConf (l : LchanId) (sapi : Fin 8) (w : Bsc) : Outcome :=
  .ok (w.updLchan l fun lchan => { lchan with sapis := Function.update lchan.sapis sapi .net },[])

/-- `bsc_dtap`, unless the MSC is not connected; `conn_get_bts` asserts an lchan. A
call setup goes through `move_to_msc`, which gives up the lchans when
`complete_layer3` fails. -/
def bscDtap (x : Foreign) (c : ConnId) (k : Conn) (msg : L3Msg) (w : Bsc) : Outcome :=
  let clearRequest : Call := .connDispatch c (.txSccp (.clearRequest c))
  if x.fail2 then .ok (w,[])
  else if k.lchan.isNone then .error .assertFailed
  else match msg with
    | .ccSetup => .ok (w,clearRequest :: if x.fail then [.gsconReleaseLchans c false] else [])
    | .denied locUpd =>
      .ok (w,(if locUpd then [.gsconSubmitRslDtap c] else []) ++ [clearRequest])
    | _ => .ok (w,[])

def dispatchDtap (x : Foreign) (c : ConnId) (msg : L3Msg) (w : Bsc) : Outcome := do
  let k ← w.getConn c
  match msg with
  | .handoComplete => return (w,[.hoDispatch c .rrHoComplete])
  | .handoFail => return (w,[.hoDispatch c .rrHoFail])
  | .assComplete => return (w,[.assignmentDispatch c .rrAssignmentComplete])
  | .assFail => return (w,[.assignmentDispatch c .rrAssignmentFail])
  | .ccSetup | .denied _ | .other => bscDtap x c k msg w

/-- `gsm0408_rcvmsg`. The first message of an lchan without conn allocates one;
it goes to the MSC unless `bsc_compl_l3` refuses it. -/
def gsm0408Rcvmsg (x : Foreign) (l : LchanId) (msg : L3Msg) (newConn : ConnId) (aoip : Bool)
    (w : Bsc) : Outcome :=
  match (w.lchan l).fi with
  | some .waitRllRtpEstablish | some .established => match (w.lchan l).conn with
    | some c => dispatchDtap x c msg w
    | none =>
      if x.fail ∨ (w.conn newConn).isSome then .ok (w,[.lchanRelease l false true])
      else
        let w := (w.allocConn newConn { aoip := aoip, lchan := some l }).updLchan l
          ({ · with conn := some newConn })
        .ok (w,if x.fail2 then [.connDispatch newConn .aDiscInd] else [.connDispatch newConn .aConnReq])
  | _ => .ok (w,[])

/-- `handle_n_connect_from_msc`. -/
def sccpNConnect (c : ConnId) (aoip : Bool) (sel : Select) (req : Option ChannelModeAndRate)
    (w : Bsc) : Outcome :=
  if (w.conn c).isSome then .ok (w,[])
  else .ok (w.allocConn c { aoip := aoip },[.connDispatch c (.aConnInd sel req)])

/-- The rates that `select_codecs` tries, in this order. -/
def SpeechRateType.prefs : SpeechRateType → List RatePref
  | .fullBm => [.fr]
  | .halfLm => [.hr]
  | .perm | .permNoChange | .fullPrefNoChange | .fullPref => [.fr,.hr]
  | .halfPrefNoChange | .halfPref => [.hr,.fr]
  | .other => []

/-- The rates that `select_sign_chan` asks for, in this order. -/
def SignRateType.rates : SignRateType → List ChanRate
  | .any => [.sdcch,.half,.full]
  | .sdcch => [.sdcch]
  | .sdcchFullBm => [.sdcch,.full]
  | .sdcchHalfLm => [.sdcch,.half]
  | .fullBm => [.full]
  | .halfLm => [.half]
  | .fullPref | .fullPrefNoChange => [.full,.half]
  | .halfPref | .halfPrefNoChange => [.half,.full]
  | .other => []

/-- The speech part of `bssmap_handle_assignm_req` up to `select_codecs`. -/
def assignmReqSpeechCheck (aoip : Bool) (req : AssignmReq) : Except Gsm0808Cause Unit := do
  if !req.circuitIdentityCode && !aoip then throw .informationElementOrFieldMissing
  match req.aoipTraspAddr with
  | .value _ => if !aoip then throw .incorrectValue
  | .malformed => throw .incorrectValue
  | .missing => if aoip then throw .informationElementOrFieldMissing
  match req.speechCodecList with
  | .malformed => throw .incorrectValue
  | .missing | .value 0 => if aoip then throw .informationElementOrFieldMissing
  | .value _ => pure ()

/-- The channels that `bssmap_handle_assignm_req` asks for; `select_codecs` asserts
that the connection has an lchan as soon as it tries a rate. -/
def assignmReqChannels (k : Conn) (req : AssignmReq) :
    Except Fault (Except Gsm0808Cause (List ChannelModeAndRate)) :=
  match req.channelType with
  | .missing => .ok (.error .informationElementOrFieldMissing)
  | .malformed => .ok (.error .incorrectValue)
  | .value .data => .ok (.error .reqCodecTypeOrConfigNotSupp)
  | .value .other => .ok (.error .invalidMessageContents)
  | .value (.sign rate) => match rate.rates with
    | [] => .ok (.error .incorrectValue)
    | rates => .ok (.ok (rates.map (⟨.sign,·⟩)))
  | .value (.speech rate) => match assignmReqSpeechCheck k.aoip req with
    | .error cause => .ok (.error cause)
    | .ok () =>
      if rate.prefs ≠ [] ∧ k.lchan.isNone then .error .assertFailed
      else match rate.prefs.filterMap req.matchCodecPref, req.aoipTraspAddr with
        | [], _ => .ok (.error .reqCodecTypeOrConfigUnavail)
        | _, .value false => .ok (.error .reqCodecTypeOrConfigUnavail)
        | modes, _ => .ok (.ok modes)

def bssmapHandleAssignmReq (c : ConnId) (sel : Select) (req : AssignmReq) (w : Bsc) : Outcome := do
  let k ← w.getConn c
  match ← assignmReqChannels k req with
  | .ok modes => return (w,[.connDispatch c (.assignmentStart sel modes)])
  | .error _ => return (w,[.connDispatch c (.txSccp (.assignmentFailure c))])

/-- One call, up to the calls that it makes. -/
def exec (cfg : TsId → TsCfg) (call : Call) (x : Foreign) (w : Bsc) : Outcome :=
  match call with
  | .tsDispatch t ev => tsDispatch cfg t ev w
  | .tsTimeout t => tsTimeout t w
  | .tsStateChg t st => tsStateChg cfg x t st w
  | .tsErrorChg t st => tsErrorChg cfg x t st w
  | .tsLchansDispatch t st ev i => tsLchansDispatch t st ev i w
  | .tsInUseOnenter t i type => tsInUseOnenter t i type w
  | .tsTerminateLchanFsms t i => tsTerminateLchanFsms t i w
  | .assertNotWaiting l => assertNotWaiting l w
  | .lchanActivate l info => lchanActivate l info w
  | .lchanDispatch l ev => lchanDispatch x l ev w
  | .lchanTimeout l => lchanTimeout x l w
  | .lchanStateChg l st => lchanStateChg x l st w
  | .lchanOnActivationFailure l activFor forConn => lchanOnActivationFailure l activFor forConn w
  | .lchanFailChg l st => lchanFailChg x l st w
  | .lchanRtpFsmStart l => lchanRtpFsmStart cfg x l w
  | .lchanRelease l doRrRelease err => lchanRelease l doRrRelease err w
  | .lchanReleaseRest l => lchanReleaseRest l w
  | .lchanExitReleaseHandler l => lchanExitReleaseHandler l w
  | .lchanWaitReleasedRest l => lchanWaitReleasedRest cfg l w
  | .lchanEstablishedRelRest l => lchanEstablishedRelRest x l w
  | .lchanReleasedRelRest l => lchanReleasedRelRest x l w
  | .lchanResetRest l => lchanResetRest x l w
  | .lchanTerm l => lchanTerm l w
  | .lchanCleanup l => lchanCleanup l w
  | .lchanCleanupRest l => lchanCleanupRest l w
  | .rtpDispatch l ev => rtpDispatch cfg l ev w
  | .rtpTimeout l => rtpTimeout l w
  | .rtpStateChg l st => rtpStateChg cfg x l st w
  | .rtpTerm l => rtpTerm x l w
  | .assignmentDispatch c ev => assignmentDispatch x c ev w
  | .assignmentTimeout c => assignmentTimeout c w
  | .assignmentStart c sel req => assignmentStart x c sel req w
  | .assignmentStartReuseRest c => assignmentStartReuseRest c w
  | .assignmentTerm c parent => assignmentTerm c parent w
  | .assignmentCleanupRest c parent => assignmentCleanupRest c parent w
  | .assignmentReset c => assignmentReset c w
  | .assignmentResetRest c => assignmentResetRest x c w
  | .assignmentStateChg c st => assignmentStateChg x c st w
  | .assignmentSuccess c => assignmentSuccess c w
  | .assignmentSuccessSend c => assignmentSuccessSend x c w
  | .assignmentSuccessRest c => assignmentSuccessRest c w
  | .hoDispatch c ev => hoDispatch x c ev w
  | .hoTimeout c => hoTimeout c w
  | .hoStateChg c st => hoStateChg x c st w
  | .handoverStart c newType target => handoverStart c newType target w
  | .handoverStartReset c newType target => handoverStartReset x c newType target w
  | .handoverStartInterBscIn c sel req => handoverStartInterBscIn x c sel req w
  | .handoverEnd c result => handoverEnd x c result w
  | .handoverEndChange c result => handoverEndChange x c result w
  | .handoverEndNotify c result => handoverEndNotify c result w
  | .handoverEndRelease c => handoverEndRelease c w
  | .handoverEndRest c => handoverEndRest x c w
  | .connDispatch c ev => connDispatch x c ev w
  | .connTimeout c => connTimeout c w
  | .connClearRest c => connClearRest c w
  | .gsconUpdateId c => gsconUpdateId c w
  | .gsconChangePrimaryLchan c l => gsconChangePrimaryLchan c l w
  | .gsconReleaseLchan c l doRrRelease err => gsconReleaseLchan c l doRrRelease err w
  | .gsconReleasePrimary c doRrRelease err => gsconReleasePrimary c doRrRelease err w
  | .gsconReleaseLchans c doRrRelease => gsconReleaseLchans c doRrRelease w
  | .gsconLchanReleasing c l => gsconLchanReleasing c l w
  | .gsconLchanReleasingAssignment c => gsconLchanReleasingAssignment c w
  | .gsconLchanReleasingHo c l => gsconLchanReleasingHo c l w
  | .gsconLchanReleasingRest c l => gsconLchanReleasingRest c l w
  | .gsconTerm c => gsconTerm c w
  | .gsconTermChildren c => gsconTermChildren c w
  | .gsconCleanup c => gsconCleanup c w
  | .gsconSubmitRslDtap c => gsconSubmitRslDtap x c w
  | .gsconDtapQueueFlush c => gsconDtapQueueFlush x c w
  | .bssmapHandleAssignmReq c sel req => bssmapHandleAssignmReq c sel req w
  | .rslRxChanRqd l type => rslRxChanRqd l type w
  | .lchanAct l mode => lchanAct x l mode w
  | .rllEstInd l sapi => rllEstInd l sapi w
  | .rllEstConf l sapi => rllEstConf l sapi w
  | .gsm0408Rcvmsg l msg newConn aoip => gsm0408Rcvmsg x l msg newConn aoip w
  | .sccpNConnect c aoip sel req => sccpNConnect c aoip sel req w

/-- The events that come from outside: from the BTS over OML and RSL, from the
MSC, from the MGW, from timers and from the VTY user. -/
inductive Input where
  | omlReady (t : TsId)
  | omlDown (t : TsId)
  | rslReady (t : TsId)
  | rslDown (t : TsId)
  | pdchActAck (t : TsId)
  | pdchActNack (t : TsId)
  | pdchDeactAck (t : TsId)
  | pdchDeactNack (t : TsId)
  | tsTimeout (t : TsId)
  | chanRqd (sel : Select)
  | vtyActivate (l : LchanId) (mode : ChanMode)
  | vtyRelease (l : LchanId)
  | vtySetBorken (l : LchanId) (borken : Bool)
  | chanActivAck (l : LchanId)
  | chanActivNack (l : LchanId) (alreadyActive : Option Bool)
  | rfChanRelAck (l : LchanId)
  | relInd (l : LchanId) (linkId : Fin 256)
  | relConf (l : LchanId) (linkId : Fin 256)
  | errInd (l : LchanId)
  | connFail (l : LchanId)
  | handoDet (l : LchanId)
  | estInd (l : LchanId) (linkId : Fin 256) (msg : Option L3Msg) (newConn : ConnId) (aoip : Bool)
  | estConf (l : LchanId) (sapi : Fin 8)
  | dataInd (l : LchanId) (msg : L3Msg) (newConn : ConnId) (aoip : Bool)
  | lchanTimeout (l : LchanId)
  | rtpTimeout (l : LchanId)
  | ipaccCrcx (l : LchanId) (ack : Bool)
  | ipaccMdcx (l : LchanId) (ack : Bool)
  | mgwCrcxToBts (l : LchanId) (ok : Bool)
  | mgwMdcxToBts (l : LchanId) (ok : Bool)
  | mgwToMsc (c : ConnId) (ok : Bool)
  | mgwEndpointGone (c : ConnId)
  | assignmentTimeout (c : ConnId)
  | hoTimeout (c : ConnId)
  | connTimeout (c : ConnId)
  | bssmapClearCmd (c : ConnId)
  | bssmapAssignmentRequest (c : ConnId) (sel : Select) (req : AssignmReq)
  | mtDtap (c : ConnId)
  | bssmapHandoverCmd (c : ConnId) (l3Info : Bool)
  | handoverRequest (c : ConnId) (newType : ChanT) (target : HoTarget)
  | sccpConnCfm (c : ConnId)
  | sccpDiscInd (c : ConnId)
  | sccpNConnect (c : ConnId) (aoip : Bool) (sel : Select) (req : Option ChannelModeAndRate)
  | mscReset (c : ConnId)

/-- The lchan that `rsl_rx_chan_rqd` selects: an SDCCH, else a TCH/H, else a TCH/F. -/
def chanRqdSelect (w : Bsc) (sel : Select) : Option (LchanId × ChanT) :=
  [ChanT.sdcch,.tchH,.tchF].findSome? fun type =>
    match sel type with
    | some l => if lchanSelectable w type l then some (l,type) else none
    | none => none

/-- The calls that an input makes. Only connections that exist get any. -/
def enter (i : Input) (w : Bsc) : List Call :=
  let ifConn (c : ConnId) (calls : List Call) : List Call :=
    if (w.conn c).isSome then calls else []
  match i with
  | .omlReady t => [.tsDispatch t .omlReady]
  | .omlDown t => [.tsDispatch t .omlDown]
  | .rslReady t => [.tsDispatch t .rslReady]
  | .rslDown t => [.tsDispatch t .rslDown]
  | .pdchActAck t => [.tsDispatch t .pdchActAck]
  | .pdchActNack t => [.tsDispatch t .pdchActNack]
  | .pdchDeactAck t => [.tsDispatch t .pdchDeactAck]
  | .pdchDeactNack t => [.tsDispatch t .pdchDeactNack]
  | .tsTimeout t => [.tsTimeout t]
  | .chanRqd sel => match chanRqdSelect w sel with
    | some (l,type) => [.rslRxChanRqd l type]
    | none => []
  | .vtyActivate l mode => [.lchanAct l mode]
  | .vtyRelease l => [.lchanRelease l (w.lchan l).conn.isSome false]
  | .vtySetBorken l borken =>
    if borken then if (w.lchan l).fi = some .unused then [.lchanStateChg l .borken] else []
    else if (w.lchan l).fi = some .borken then [.lchanStateChg l .unused] else []
  | .chanActivAck l => [.lchanDispatch l .rslChanActivAck]
  | .chanActivNack l cause => [.lchanDispatch l (.rslChanActivNack cause)]
  | .rfChanRelAck l => [.lchanDispatch l .rslRfChanRelAck]
  | .relInd l linkId => [.lchanDispatch l (.rllRelInd linkId)]
  | .relConf l linkId => [.lchanDispatch l (.rllRelConf linkId)]
  | .errInd l => [.lchanDispatch l .rllErrInd]
  | .connFail l => match (w.lchan l).conn with
    | none => [.lchanRelease l false true]
    | some c => [.connDispatch c .rslConnFail]
  | .handoDet l => match (w.lchan l).conn with
    | none => []
    | some c => [.hoDispatch c .rrHoDetect]
  | .estInd l linkId msg newConn aoip =>
    let sapi := linkSapi linkId
    if sapi ≠ 0 ∧ (w.lchan l).sapis 0 ≠ .ms then []
    else if sapi = 0 ∧ linkId.val / 64 % 4 = 1 then []
    else .rllEstInd l sapi :: match msg with
      | none => []
      | some msg => [.gsm0408Rcvmsg l msg newConn aoip]
  | .estConf l sapi => [.rllEstConf l sapi]
  | .dataInd l msg newConn aoip => [.gsm0408Rcvmsg l msg newConn aoip]
  | .lchanTimeout l => [.lchanTimeout l]
  | .rtpTimeout l => [.rtpTimeout l]
  | .ipaccCrcx l ack => [.rtpDispatch l (if ack then .ipaccCrcxAck else .ipaccCrcxNack)]
  | .ipaccMdcx l ack => [.rtpDispatch l (if ack then .ipaccMdcxAck else .ipaccMdcxNack)]
  | .mgwCrcxToBts l ok => [.rtpDispatch l (if ok then .mgwEndpointAvailable else .mgwEndpointError)]
  | .mgwMdcxToBts l ok => [.rtpDispatch l (if ok then .mgwEndpointConfigured else .mgwEndpointError)]
  | .mgwToMsc c ok => match w.conn c with
    | none => []
    | some k =>
      if k.hoFi.isSome then [.hoDispatch c (if ok then .mscMgwOk else .mscMgwFail)]
      else [.assignmentDispatch c (if ok then .mscMgwOk else .mscMgwFail)]
  | .mgwEndpointGone c => ifConn c [.connDispatch c .forgetMgwEndpoint]
  | .assignmentTimeout c => ifConn c [.assignmentTimeout c]
  | .hoTimeout c => ifConn c [.hoTimeout c]
  | .connTimeout c => ifConn c [.connTimeout c]
  | .bssmapClearCmd c => ifConn c [.connDispatch c .aClearCmd]
  | .bssmapAssignmentRequest c sel req => ifConn c [.bssmapHandleAssignmReq c sel req]
  | .mtDtap c => ifConn c [.connDispatch c .mtDtap]
  | .bssmapHandoverCmd c l3Info => match w.conn c with
    | none => []
    | some k =>
      if k.hoFi.isNone then []
      else if l3Info then [.hoDispatch c (.bssmapHoCommand true)]
      else [.handoverEnd c .error]
  | .handoverRequest c newType target => ifConn c [.connDispatch c (.handoverStart newType target)]
  | .sccpConnCfm c => ifConn c [.connDispatch c .aConnCfm]
  | .sccpDiscInd c => ifConn c [.connDispatch c .aDiscInd]
  | .sccpNConnect c aoip sel req => [.sccpNConnect c aoip sel req]
  | .mscReset c => ifConn c [.gsconTerm c]

abbrev Config := Calls.Config Bsc Call

abbrev Move := Calls.Move Input Foreign

def step (cfg : TsId → TsCfg) : Config → Move → Except Fault Config :=
  Calls.step (exec cfg) enter

/-- The state at start-up: no lchan FSM, no connection, all timeslots not
initialized. -/
def initial : Config := ⟨{},[]⟩

/-- The inputs one after the other, each with the calls that it makes, at most
`n` of them, where no foreign function fails. -/
def moves (n : Nat) (is : List Input) : List Move :=
  is.flatMap fun i => .input i :: List.replicate n (.call {})

/-- A BTS with SDCCHs on its first timeslot and a TCH/F on each of the others. -/
def sdcchAndTch (t : TsId) : TsCfg where
  pchanFromConfig := if t = 0 then .sdcch8Sacch8c else .tchF
  gprs := false
  isIpaccessBts := false
  noLocRelCnf := false

def connOnSdcch : List Input :=
  [.omlReady 0,.rslReady 0,.omlReady 1,.rslReady 1,
    .chanRqd fun type => if type = .sdcch then some ⟨0,0⟩ else none,
    .chanActivAck ⟨0,0⟩,.estInd ⟨0,0⟩ 0 (some .other) 0 true,.sccpConnCfm 0]

/-- The MSC asks for a TCH/F, with or without voice. -/
def assignTch (mode : ChanMode) : Input :=
  .bssmapAssignmentRequest 0 (fun type => if type = .tchF then some ⟨1,0⟩ else none)
    (if mode = .sign then { channelType := .value (.sign .fullBm) }
    else {
      channelType := .value (.speech .fullBm), aoipTraspAddr := .value true
      speechCodecList := .value 1, matchCodecPref := fun _ => some ⟨mode,.full⟩ })

/-- What runs reach whose steps all meet `good`. -/
abbrev Reachable (cfg : TsId → TsCfg) (good : Config → Move → Prop) : Config → Prop :=
  Reach (step cfg) good (· = initial)

theorem Reachable.induct {cfg : TsId → TsCfg} {good : Config → Move → Prop}
    {Inv : Bsc → List Call → Prop} (h0 : Inv {} [])
    (hi : ∀ w i, Reachable cfg good ⟨w,[]⟩ → Inv w [] → Inv w (enter i w))
    (hc : ∀ w call rest x w' new, Reachable cfg good ⟨w,call :: rest⟩ → Inv w (call :: rest) →
      good ⟨w,call :: rest⟩ (.call x) → exec cfg call x w = .ok (w',new) → Inv w' (new ++ rest))
    {c : Config} (h : Reachable cfg good c) : Inv c.state c.calls := by
  refine Calls.reach_induction ?_ (fun w i hr hw _ => hi w i hr hw) hc h
  rintro c rfl
  exact h0

end OsmoBsc.Chan
