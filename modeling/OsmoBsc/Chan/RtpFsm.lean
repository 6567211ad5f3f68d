import OsmoBsc.Chan.LchanFsm
set_option autoImplicit false

namespace OsmoBsc.Chan
open EventFsm

/-- `lchan_rtp_fsm_states`; the FSM has no allstate events. -/
def rtpFsm : Fsm RtpState RtpEvent where
  inEvent st ev := match st, ev with
    | .waitMgwEndpointAvailable, .mgwEndpointAvailable => true
    | .waitMgwEndpointAvailable, .mgwEndpointError => true
    | .waitMgwEndpointAvailable, .lchanReady => true
    | .waitLchanReady, .lchanReady => true
    | .waitIpaccCrcxAck, .readyToSwitchRtp => true
    | .waitIpaccCrcxAck, .ipaccCrcxAck => true
    | .waitIpaccCrcxAck, .ipaccCrcxNack => true
    | .waitIpaccMdcxAck, .readyToSwitchRtp => true
    | .waitIpaccMdcxAck, .ipaccMdcxAck => true
    | .waitIpaccMdcxAck, .ipaccMdcxNack => true
    | .waitReadyToSwitchRtp, .readyToSwitchRtp => true
    | .waitMgwEndpointConfigured, .mgwEndpointConfigured => true
    | .waitMgwEndpointConfigured, .mgwEndpointError => true
    | .ready, .established => true
    | .established, .ipaccMdcxAck => true
    | .rollback, .mgwEndpointConfigured => true
    | .rollback, .mgwEndpointError => true
    | _, .release => true
    | _, .rollback => true
    | _, _ => false
  outState st st' := match st, st' with
    | .waitMgwEndpointAvailable, .waitMgwEndpointAvailable => true
    | .waitMgwEndpointAvailable, .waitLchanReady => true
    | .waitLchanReady, .waitIpaccCrcxAck => true
    | .waitLchanReady, .waitReadyToSwitchRtp => true
    | .waitLchanReady, .waitMgwEndpointConfigured => true
    | .waitIpaccCrcxAck, .waitIpaccMdcxAck => true
    | .waitIpaccMdcxAck, .waitReadyToSwitchRtp => true
    | .waitIpaccMdcxAck, .waitMgwEndpointConfigured => true
    | .waitReadyToSwitchRtp, .waitMgwEndpointConfigured => true
    | .waitMgwEndpointConfigured, .ready => true
    | .ready, .established => true
    | .ready, .rollback => true
    | _, _ => false
  allState _ := false

/-- The states for which `lchan_rtp_fsm_timeouts` has a timer. -/
def rtpHasTimer : RtpState → Bool
  | .waitMgwEndpointAvailable | .waitIpaccCrcxAck | .waitIpaccMdcxAck
  | .waitMgwEndpointConfigured => true
  | _ => false

def lchanRtpFail (l : LchanId) : List Call := [.lchanDispatch l .rtpError]

def lchanUseMgwEndpointCiBts (w : Bsc) (l : LchanId) : Option Ci :=
  match (w.lchan l).mgwEndpointCiBts with
  | some ci => some ci
  | none =>
    if (w.lchan l).stateIs .established then none
    else match (w.lchan l).info.reUseMgwEndpointFromLchan with
      | some old => (w.lchan old).mgwEndpointCiBts
      | none => none

def connectMgwEndpointToLchan (x : Foreign) (l : LchanId) (ci : Ci) (w : Bsc) : Outcome :=
  if x.fail then .ok (w,lchanRtpFail l) else .ok (w.send (.mdcx ci),[])

def lchanRtpFsmSwitchRtp (l : LchanId) (w : Bsc) : Outcome :=
  if (w.lchan l).info.waitBeforeSwitchingRtp then .ok (w,[.rtpStateChg l .waitReadyToSwitchRtp])
  else .ok (w,[.rtpStateChg l .waitMgwEndpointConfigured])

def lchanRtpFsmPostLchanReady (cfg : TsId → TsCfg) (l : LchanId) (w : Bsc) : Outcome :=
  if (cfg l.ts).isIpaccessBts then .ok (w,[.rtpStateChg l .waitIpaccCrcxAck])
  else lchanRtpFsmSwitchRtp l w

/-- `lchan_rtp_fsm_wait_mgw_endpoint_available_onenter` with
`gscon_ensure_mgw_endpoint`. -/
def rtpWaitMgwEndpointAvailableOnenter (x : Foreign) (l : LchanId) (w : Bsc) : Outcome :=
  match lchanUseMgwEndpointCiBts w l with
  | some _ => .ok (w,[.rtpStateChg l .waitLchanReady])
  | none => match (w.lchan l).conn with
    | none => .error .nullDeref
    | some c => do
      let k ← w.getConn c
      if !k.mgwEndpoint && x.fail then return (w,lchanRtpFail l)
      else
        let ci : Ci := ⟨c,w.nextCi⟩
        let w := { w.updConn c ({ · with mgwEndpoint := true }) with nextCi := w.nextCi + 1 }
        let w := w.updLchan l ({ · with mgwEndpointCiBts := some ci })
        return (w.send (.crcx ci),[])

/-- The common start of the onenter functions that would otherwise go on with
an activation that is no longer wanted. -/
def rtpUnlessReleased (l : LchanId) (w : Bsc) (go : Outcome) : Outcome :=
  if (w.lchan l).releaseRequested then .ok (w,lchanRtpFail l) else go

/-- `lchan_rtp_fsm_wait_mgw_endpoint_configured_onenter`: the CI of the old
lchan is taken over here. -/
def rtpWaitMgwEndpointConfiguredOnenter (x : Foreign) (l : LchanId) (w : Bsc) : Outcome :=
  rtpUnlessReleased l w <|
    let w := match (w.lchan l).mgwEndpointCiBts, (w.lchan l).info.reUseMgwEndpointFromLchan with
      | none, some old =>
        let ci := (w.lchan old).mgwEndpointCiBts
        (w.updLchan l ({ · with mgwEndpointCiBts := ci })).updLchan old
          ({ · with mgwEndpointCiBts := none })
      | _, _ => w
    match (w.lchan l).mgwEndpointCiBts with
    | none => .ok (w,lchanRtpFail l)
    | some ci => connectMgwEndpointToLchan x l ci w

def rtpRollbackOnenter (x : Foreign) (l : LchanId) (w : Bsc) : Outcome :=
  match (w.lchan l).mgwEndpointCiBts, (w.lchan l).info.reUseMgwEndpointFromLchan with
  | some ci, some _ => connectMgwEndpointToLchan x l ci w
  | _, _ => .ok (w,[.rtpTerm l])

def rtpOnenter (cfg : TsId → TsCfg) (x : Foreign) (l : LchanId) (st : RtpState) (w : Bsc) :
    Outcome :=
  match st with
  | .waitMgwEndpointAvailable => rtpWaitMgwEndpointAvailableOnenter x l w
  | .waitLchanReady =>
    if (w.lchan l).activAck then lchanRtpFsmPostLchanReady cfg l w else .ok (w,[])
  | .waitIpaccCrcxAck => rtpUnlessReleased l w (.ok (w,if x.fail then lchanRtpFail l else []))
  | .waitIpaccMdcxAck => rtpUnlessReleased l w (.ok (w,if x.fail then lchanRtpFail l else []))
  | .waitReadyToSwitchRtp => .ok (w,[])
  | .waitMgwEndpointConfigured => rtpWaitMgwEndpointConfiguredOnenter x l w
  | .ready => .ok (w,[.lchanDispatch l .rtpReady])
  | .rollback => rtpRollbackOnenter x l w
  | .established =>
    .ok (w.updLchan l fun lchan =>
      { lchan with info := { lchan.info with reUseMgwEndpointFromLchan := none } },[])

/-- `osmo_fsm_inst_state_chg` on an RTP FSM. -/
def rtpStateChg (cfg : TsId → TsCfg) (x : Foreign) (l : LchanId) (st : RtpState) (w : Bsc) :
    Outcome :=
  match (w.lchan l).fiRtp with
  | none => .error .nullDeref
  | some st' =>
    if rtpFsm.outState st' st then
      rtpOnenter cfg x l st (w.updLchan l ({ · with fiRtp := some st }))
    else .ok (w,[])

/-- The end of `lchan_fsm_wait_ts_ready_onenter`, with `lchan_rtp_fsm_start`. -/
def lchanRtpFsmStart (cfg : TsId → TsCfg) (x : Foreign) (l : LchanId) (w : Bsc) : Outcome :=
  if !(w.lchan l).info.requiresVoiceStream then .ok (w,[])
  else if (w.lchan l).fi.isNone ∨ (w.lchan l).fiRtp.isSome then .error .assertFailed
  else
    let keep := match (w.lchan l).info.reUseMgwEndpointFromLchan with
      | some old => if (w.lchan old).mgwEndpointCiBts.isSome then some old else none
      | none => none
    let w := w.updLchan l fun lchan => { lchan with
      fiRtp := some .waitMgwEndpointAvailable
      info := { lchan.info with reUseMgwEndpointFromLchan := keep } }
    rtpStateChg cfg x l .waitMgwEndpointAvailable w

def rtpWaitMgwEndpointAvailable (l : LchanId) (ev : RtpEvent) (w : Bsc) : Outcome :=
  match ev with
  | .mgwEndpointAvailable => .ok (w,[.rtpStateChg l .waitLchanReady])
  | .lchanReady => .ok (w,[])
  | .mgwEndpointError => .ok (w,lchanRtpFail l)
  | .rollback | .release => .ok (w,[.rtpTerm l])
  | _ => .error .assertFailed

def rtpWaitLchanReady (cfg : TsId → TsCfg) (l : LchanId) (ev : RtpEvent) (w : Bsc) : Outcome :=
  match ev with
  | .lchanReady => lchanRtpFsmPostLchanReady cfg l w
  | .rollback | .release => .ok (w,[.rtpTerm l])
  | _ => .error .assertFailed

/-- LCHAN_RTP_EV_READY_TO_SWITCH_RTP before the RTP FSM waits for it. -/
def rtpNoteReadyToSwitch (l : LchanId) (w : Bsc) : Bsc :=
  w.updLchan l fun lchan =>
    { lchan with info := { lchan.info with waitBeforeSwitchingRtp := false } }

def rtpWaitIpaccCrcxAck (l : LchanId) (ev : RtpEvent) (w : Bsc) : Outcome :=
  match ev with
  | .ipaccCrcxAck => .ok (w,[.rtpStateChg l .waitIpaccMdcxAck])
  | .ipaccCrcxNack => .ok (w,lchanRtpFail l)
  | .readyToSwitchRtp => .ok (rtpNoteReadyToSwitch l w,[])
  | .rollback | .release => .ok (w,[.rtpTerm l])
  | _ => .error .assertFailed

def rtpWaitIpaccMdcxAck (l : LchanId) (ev : RtpEvent) (w : Bsc) : Outcome :=
  match ev with
  | .ipaccMdcxAck => lchanRtpFsmSwitchRtp l w
  | .ipaccMdcxNack => .ok (w,lchanRtpFail l)
  | .readyToSwitchRtp => .ok (rtpNoteReadyToSwitch l w,[])
  | .rollback | .release => .ok (w,[.rtpTerm l])
  | _ => .error .assertFailed

def rtpWaitReadyToSwitchRtp (l : LchanId) (ev : RtpEvent) (w : Bsc) : Outcome :=
  match ev with
  | .readyToSwitchRtp => .ok (w,[.rtpStateChg l .waitMgwEndpointConfigured])
  | .rollback | .release => .ok (w,[.rtpTerm l])
  | _ => .error .assertFailed

def rtpWaitMgwEndpointConfigured (l : LchanId) (ev : RtpEvent) (w : Bsc) : Outcome :=
  match ev with
  | .mgwEndpointConfigured => .ok (w,[.rtpStateChg l .ready])
  | .mgwEndpointError => .ok (w,lchanRtpFail l)
  | .rollback => .ok (w,[.rtpStateChg l .rollback])
  | .release => .ok (w,[.rtpTerm l])
  | _ => .error .assertFailed

def rtpReady (l : LchanId) (ev : RtpEvent) (w : Bsc) : Outcome :=
  match ev with
  | .established => .ok (w,[.rtpStateChg l .established])
  | .release => .ok (w,[.rtpTerm l])
  | .rollback => .ok (w,[.rtpStateChg l .rollback])
  | _ => .error .assertFailed

/-- `lchan_rtp_fsm_rollback`: the CI goes back to the old lchan. -/
def rtpRollback (l : LchanId) (ev : RtpEvent) (w : Bsc) : Outcome :=
  match ev with
  | .mgwEndpointConfigured => match (w.lchan l).info.reUseMgwEndpointFromLchan with
    | none => .error .nullDeref
    | some old =>
      let ci := (w.lchan l).mgwEndpointCiBts
      .ok ((w.updLchan old ({ · with mgwEndpointCiBts := ci })).updLchan l
        ({ · with mgwEndpointCiBts := none }),[.rtpTerm l])
  | .mgwEndpointError => .ok (w,[.rtpTerm l])
  | .rollback | .release => .ok (w,[])
  | _ => .error .assertFailed

def rtpEstablished (l : LchanId) (ev : RtpEvent) (w : Bsc) : Outcome :=
  match ev with
  | .rollback | .release => .ok (w,[.rtpTerm l])
  | .ipaccMdcxAck => .ok (w,[])
  | _ => .error .assertFailed

/-- `osmo_fsm_inst_dispatch` on an RTP FSM. -/
def rtpDispatch (cfg : TsId → TsCfg) (l : LchanId) (ev : RtpEvent) (w : Bsc) : Outcome :=
  match (w.lchan l).fiRtp with
  | none => .ok (w,[])
  | some st =>
    if rtpFsm.inEvent st ev then match st with
      | .waitMgwEndpointAvailable => rtpWaitMgwEndpointAvailable l ev w
      | .waitLchanReady => rtpWaitLchanReady cfg l ev w
      | .waitIpaccCrcxAck => rtpWaitIpaccCrcxAck l ev w
      | .waitIpaccMdcxAck => rtpWaitIpaccMdcxAck l ev w
      | .waitReadyToSwitchRtp => rtpWaitReadyToSwitchRtp l ev w
      | .waitMgwEndpointConfigured => rtpWaitMgwEndpointConfigured l ev w
      | .ready => rtpReady l ev w
      | .rollback => rtpRollback l ev w
      | .established => rtpEstablished l ev w
    else .ok (w,[])

/-- `lchan_rtp_fsm_timer_cb`. -/
def rtpTimeout (l : LchanId) (w : Bsc) : Outcome :=
  if (w.lchan l).fiRtp.any rtpHasTimer then
    .ok (w.updLchan l ({ · with inError := true }),lchanRtpFail l)
  else .ok (w,[])

/-- `osmo_fsm_inst_term` on an RTP FSM, with `lchan_rtp_fsm_cleanup`. Whatever
the cause, the lchan FSM is told by LCHAN_EV_RTP_RELEASED. -/
def rtpTerm (x : Foreign) (l : LchanId) (w : Bsc) : Outcome :=
  if (w.lchan l).fiRtp.isNone then .error .useAfterFree
  else
    let w := match (w.lchan l).mgwEndpointCiBts with
      | none => w
      | some ci => (osmoMgcpcEpCiDlcx x ci w).updLchan l ({ · with mgwEndpointCiBts := none })
    .ok (w.updLchan l ({ · with fiRtp := none }),[.lchanDispatch l .rtpReleased])

end OsmoBsc.Chan
