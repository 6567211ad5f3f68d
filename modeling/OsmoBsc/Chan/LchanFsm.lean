import OsmoBsc.Chan.Detach
import OsmoBsc.Chan.Timeslot
set_option autoImplicit false

namespace OsmoBsc.Chan
open EventFsm

/-- `lchan_fsm_states` and `lchan_fsm.allstate_event_mask`. -/
def lchanFsm : Fsm LchanState LchanEvent where
  inEvent st ev := match st, ev with
    | .unused, .activate _ => true
    | .waitTsReady, .tsReady => true
    | .waitTsReady, .rtpError => true
    | .waitTsReady, .rtpReleased => true
    | .waitActivAck, .rslChanActivAck => true
    | .waitActivAck, .rslChanActivNack _ => true
    | .waitActivAck, .rtpError => true
    | .waitActivAck, .rtpReleased => true
    | .waitRllRtpEstablish, .rllEstablishInd => true
    | .waitRllRtpEstablish, .rtpReady => true
    | .waitRllRtpEstablish, .rtpError => true
    | .waitRllRtpEstablish, .rtpReleased => true
    | .established, .rllRelInd _ => true
    | .established, .rllRelConf _ => true
    | .established, .rllEstablishInd => true
    | .established, .rtpError => true
    | .established, .rtpReleased => true
    | .waitRllRtpReleased, .rllRelInd _ => true
    | .waitRllRtpReleased, .rllRelConf _ => true
    | .waitRllRtpReleased, .rtpError => true
    | .waitRllRtpReleased, .rtpReleased => true
    | .waitBeforeRfRelease, .rllRelInd _ => true
    | .waitBeforeRfRelease, .rtpReleased => true
    | .waitRfReleaseAck, .rslRfChanRelAck => true
    | .waitRfReleaseAck, .rtpReleased => true
    | .waitAfterError, .rtpReleased => true
    | .borken, .rslChanActivAck => true
    | .borken, .rslChanActivNack _ => true
    | .borken, .rslRfChanRelAck => true
    | .borken, .rtpError => true
    | .borken, .rtpReleased => true
    | _, _ => false
  outState st st' := match st, st' with
    | .unused, .waitTsReady => true
    | .unused, .cbch => true
    | .unused, .borken => true
    | .cbch, .unused => true
    | .waitTsReady, .unused => true
    | .waitTsReady, .waitActivAck => true
    | .waitTsReady, .waitRllRtpReleased => true
    | .waitActivAck, .unused => true
    | .waitActivAck, .waitRllRtpEstablish => true
    | .waitActivAck, .borken => true
    | .waitActivAck, .waitRfReleaseAck => true
    | .waitRllRtpEstablish, .unused => true
    | .waitRllRtpEstablish, .established => true
    | .waitRllRtpEstablish, .waitRfReleaseAck => true
    | .waitRllRtpEstablish, .waitRllRtpReleased => true
    | .established, .unused => true
    | .established, .waitRllRtpReleased => true
    | .established, .waitBeforeRfRelease => true
    | .established, .waitRfReleaseAck => true
    | .waitRllRtpReleased, .unused => true
    | .waitRllRtpReleased, .waitBeforeRfRelease => true
    | .waitRllRtpReleased, .waitRfReleaseAck => true
    | .waitBeforeRfRelease, .unused => true
    | .waitBeforeRfRelease, .waitRfReleaseAck => true
    | .waitRfReleaseAck, .unused => true
    | .waitRfReleaseAck, .waitAfterError => true
    | .waitRfReleaseAck, .borken => true
    | .waitAfterError, .unused => true
    | .borken, .unused => true
    | .borken, .waitAfterError => true
    | _, _ => false
  allState
    | .tsError => true
    | _ => false

def lchanFsmOnError : LchanState → LchanState
  | .unused => .unused
  | .cbch => .unused
  | .waitTsReady => .unused
  | .waitActivAck => .borken
  | .waitRllRtpEstablish => .waitRfReleaseAck
  | .established => .waitRllRtpReleased
  | .waitRllRtpReleased => .waitRfReleaseAck
  | .waitBeforeRfRelease => .waitRfReleaseAck
  | .waitRfReleaseAck => .borken
  | .waitAfterError => .unused
  | .borken => .borken

/-- The states for which `lchan_fsm_timeouts` has a timer. -/
def lchanHasTimer : LchanState → Bool
  | .unused | .cbch | .established | .borken => false
  | _ => true

def lchanFailTo (w : Bsc) (l : LchanId) (stateChg : LchanState) : List Call :=
  [.lchanOnActivationFailure l (w.lchan l).info.activFor (w.lchan l).conn,.lchanFailChg l stateChg]

/-- `lchan_fail` in state `st`. -/
def lchanFail (w : Bsc) (l : LchanId) (st : LchanState) : List Call :=
  lchanFailTo w l (lchanFsmOnError st)

def lchanOnActivationFailure (l : LchanId) (activFor : ActivFor) (forConn : Option ConnId)
    (w : Bsc) : Outcome :=
  if (w.lchan l).concluded then .ok (w,[])
  else
    let w := w.updLchan l ({ · with concluded := true })
    match activFor, forConn with
    | .forMsChannelRequest, _ =>
      .ok (if (w.lchan l).immediateAssignmentSent then w else w.send (.immAssRej l),[])
    | .forAssignment, none => .error .nullDeref
    | .forAssignment, some c => do
      let _ ← w.getConn c
      return (w,[.assignmentDispatch c (.lchanError l)])
    | .forHandover, none => .ok (w,[])
    | .forHandover, some c => do
      let k ← w.getConn c
      return (w,if k.hoFi.isSome then [.hoDispatch c (.lchanError l)] else [])
    | _, _ => .ok (w,[])

def lchanOnFullyEstablished (l : LchanId) (w : Bsc) : Outcome :=
  if (w.lchan l).concluded then .ok (w,[])
  else
    let w := w.updLchan l ({ · with concluded := true })
    match (w.lchan l).info.activFor, (w.lchan l).conn with
    | .forAssignment, none => .ok (w,[.lchanRelease l false true])
    | .forAssignment, some c => do
      let k ← w.getConn c
      return (w,if k.assignmentFi.isSome then [.assignmentDispatch c (.lchanEstablished l)]
        else [.lchanRelease l false true])
    | .forHandover, none => .ok (w,[.lchanRelease l false true])
    | .forHandover, some c => do
      let k ← w.getConn c
      return (w,if k.hoFi.isSome then [.hoDispatch c (.lchanEstablished l)]
        else [.lchanRelease l false true])
    | _, _ => .ok (w,[])

/-- `lchan_activate`. The dispatch at its end is always permitted, because the
lchan is in LCHAN_ST_UNUSED. -/
def lchanActivate (l : LchanId) (info : ActivateInfo) (w : Bsc) : Outcome :=
  let abort : Outcome := .ok (w,[.lchanOnActivationFailure l info.activFor info.forConn])
  let accept : Outcome := .ok (w,[.lchanDispatch l (.activate info)])
  if !(w.lchan l).stateIs .unused then abort
  else if (w.lchan l).fi.isNone then .error .assertFailed
  else match info.activFor, info.forConn with
    | .forAssignment, none => abort
    | .forAssignment, some c => do
      let k ← w.getConn c
      if k.assignmentNewLchan ≠ some l then abort else accept
    | .forHandover, none => abort
    | .forHandover, some c => do
      let k ← w.getConn c
      if k.hoFi.isNone then abort
      else if k.hoNewLchan ≠ some l then abort
      else accept
    | _, _ => accept

/-- `lchan_reset` up to the nested termination of the RTP FSM. -/
def lchanReset (l : LchanId) (w : Bsc) : Outcome := do
  let w ← match (w.lchan l).conn with
    | none => pure w
    | some c => gsconForgetLchan c l w
  return (w,(if (w.lchan l).fiRtp.isSome then [Call.rtpTerm l] else []) ++ [Call.lchanResetRest l])

/-- The rest of `lchan_reset`. -/
def lchanResetRest (x : Foreign) (l : LchanId) (w : Bsc) : Outcome :=
  let w := match (w.lchan l).mgwEndpointCiBts with
    | none => w
    | some ci => osmoMgcpcEpCiDlcx x ci w
  .ok (w.updLchan l fun lchan => { fi := lchan.fi },[])

/-- `lchan_fsm_wait_ts_ready_onenter` up to the request to the timeslot. -/
def lchanWaitTsReadyOnenter (x : Foreign) (l : LchanId) (w : Bsc) : Outcome :=
  let info := (w.lchan l).info
  if (w.lchan l).releaseRequested then .ok (w,lchanFail w l .waitTsReady)
  else
    let w := w.updLchan l ({ · with conn := info.forConn })
    let fail : Outcome := .ok (w,lchanFail w l .waitTsReady)
    let request : Outcome :=
      .ok (w.updLchan l ({ · with tchMode := info.chanMode }),
        [.tsDispatch l.ts (.lchanRequested l),.lchanRtpFsmStart l])
    match info.chanMode with
    | .sign | .speechV1 | .speechEfr => request
    | .speechAmr =>
      -- the multirate configuration of lchan_mr_config comes from the MSC of the conn
      if x.fail then fail
      else match info.forConn with
        | none => .error .nullDeref
        | some c => do
          let _ ← w.getConn c
          if x.fail2 then fail else request
    | _ => fail

def lchanWaitActivAckOnenter (x : Foreign) (l : LchanId) (w : Bsc) : Outcome :=
  let activ : Outcome :=
    if x.fail then .ok (w,lchanFailTo w l .unused) else .ok (w.send (.chanActiv l),[])
  if (w.lchan l).releaseRequested then .ok (w,lchanFailTo w l .unused)
  else match (w.lchan l).info.activFor, (w.lchan l).conn with
    | .forHandover, none => .error .nullDeref
    | .forHandover, some c => do
      let _ ← w.getConn c
      activ
    | _, _ => activ

def lchanEstablishedOnenter (l : LchanId) (w : Bsc) : Outcome :=
  if (w.lchan l).releaseRequested then .ok (w,lchanFail w l .established)
  else lchanOnFullyEstablished l w

def lchanDoRelease (l : LchanId) (w : Bsc) : Bsc × List Call :=
  (if (w.lchan l).doRrRelease ∧ (w.lchan l).sapis 0 ≠ .unused then w.send (.rrRelease l) else w,
    if (w.lchan l).fiRtp.isSome then [.rtpDispatch l .release] else [])

def Lchan.activeSapis (lchan : Lchan) (start : Nat) : Nat :=
  ((List.finRange 8).filter fun i => decide (start ≤ i.val) && (lchan.sapis i != .unused)).length

/-- `lchan_fsm_wait_rll_rtp_released_onenter` after `lchan_do_release`. -/
def lchanWaitReleasedRest (cfg : TsId → TsCfg) (l : LchanId) (w : Bsc) : Outcome :=
  let quick := (cfg l.ts).noLocRelCnf
  let w := if quick then
      w.updLchan l fun lchan => { lchan with
        sapis := fun i => if 1 ≤ i.val then .unused else lchan.sapis i }
    else w
  if (w.lchan l).activeSapis 1 = 0 ∧ (w.lchan l).fiRtp.isNone
      ∧ (w.lchan l).fi = some .waitRllRtpReleased then
    .ok (w,[.lchanStateChg l .waitBeforeRfRelease])
  else .ok (w,[])

def lchanWaitRfReleaseAckOnenter (l : LchanId) (w : Bsc) : Outcome := do
  let w ← match (w.lchan l).conn with
    | none => pure w
    | some c => do
      let w ← gsconForgetLchan c l w
      pure (lchanForgetConn l w)
  return (w.send (.rfChanRelease l),[])

def lchanOnenter (x : Foreign) (l : LchanId) (st : LchanState) (w : Bsc) : Outcome :=
  match st with
  | .unused => do
    let r ← lchanReset l w
    return (r.1,r.2 ++ [Call.tsDispatch l.ts (.lchanUnused l)])
  | .cbch => .ok (w,[])
  | .waitTsReady => lchanWaitTsReadyOnenter x l w
  | .waitActivAck => lchanWaitActivAckOnenter x l w
  | .waitRllRtpEstablish =>
    .ok (w,if (w.lchan l).fiRtp.isSome then [.rtpDispatch l .lchanReady] else [])
  | .established => lchanEstablishedOnenter l w
  | .waitRllRtpReleased =>
    let r := lchanDoRelease l w
    .ok (r.1,r.2 ++ [Call.lchanWaitReleasedRest l])
  | .waitBeforeRfRelease => .ok (w,[])
  | .waitRfReleaseAck => lchanWaitRfReleaseAckOnenter l w
  | .waitAfterError => .ok (w,[])
  | .borken => lchanReset l w

/-- `osmo_fsm_inst_state_chg` on an lchan FSM. -/
def lchanStateChg (x : Foreign) (l : LchanId) (st : LchanState) (w : Bsc) : Outcome :=
  match (w.lchan l).fi with
  | none => .error .nullDeref
  | some st' =>
    if lchanFsm.outState st' st then lchanOnenter x l st (w.updLchan l ({ · with fi := some st }))
    else .ok (w,[])

/-- The end of `lchan_fail_to`. -/
def lchanFailChg (x : Foreign) (l : LchanId) (st : LchanState) (w : Bsc) : Outcome :=
  if (w.lchan l).fi = some st then .ok (w,[]) else lchanStateChg x l st w

def lchanFsmUnused (x : Foreign) (l : LchanId) (ev : LchanEvent) (w : Bsc) : Outcome :=
  match ev with
  | .activate info =>
    if (w.lchan l).conn.isSome ∨ (w.lchan l).mgwEndpointCiBts.isSome then .error .assertFailed
    else lchanStateChg x l .waitTsReady
      (w.updLchan l ({ · with releaseRequested := false, info := info, concluded := false }))
  | _ => .error .assertFailed

/-- LCHAN_EV_RTP_RELEASED and LCHAN_EV_RTP_ERROR while the lchan is set up or in
use: the lchan fails, unless its own release is the cause. -/
def lchanRtpGone (l : LchanId) (stateChg : LchanState) (w : Bsc) : Outcome :=
  .ok (w,if (w.lchan l).inReleaseHandler then [] else lchanFailTo w l stateChg)

def lchanFsmWaitTsReady (x : Foreign) (l : LchanId) (ev : LchanEvent) (w : Bsc) : Outcome :=
  match ev with
  | .tsReady => lchanStateChg x l .waitActivAck w
  | .rtpReleased | .rtpError => lchanRtpGone l (lchanFsmOnError .waitTsReady) w
  | _ => .error .assertFailed

def lchanFsmPostActivAck (x : Foreign) (l : LchanId) (w : Bsc) : Outcome :=
  let establish : Call := .lchanStateChg l .waitRllRtpEstablish
  if (w.lchan l).releaseRequested then .ok (w,lchanFailTo w l .waitRfReleaseAck)
  else match (w.lchan l).info.activFor, (w.lchan l).conn with
    | .forMsChannelRequest, _ =>
      if x.fail then .ok (w,lchanFail w l .waitActivAck)
      else .ok ((w.send (.immAssignment l)).updLchan l
        ({ · with immediateAssignmentSent := true }),[establish])
    | .forAssignment, none => .ok (w,[.lchanRelease l false true,establish])
    | .forAssignment, some c => do
      let k ← w.getConn c
      return (w,if k.assignmentFi.isSome then [.assignmentDispatch c (.lchanActive l),establish]
        else [.lchanRelease l false true,establish])
    | .forHandover, none => .ok (w,[.lchanRelease l false true,establish])
    | .forHandover, some c => do
      let k ← w.getConn c
      return (w,if k.hoFi.isSome then [.hoDispatch c (.lchanActive l),establish]
        else [.lchanRelease l false true,establish])
    | _, _ => .ok (w,[establish])

def lchanFsmWaitActivAck (x : Foreign) (l : LchanId) (ev : LchanEvent) (w : Bsc) : Outcome :=
  match ev with
  | .rslChanActivAck => lchanFsmPostActivAck x l (w.updLchan l ({ · with activAck := true }))
  | .rslChanActivNack cause =>
    let w := w.updLchan l ({ · with inReleaseHandler := true, inError := true })
    let next := if cause = some true then LchanState.waitRfReleaseAck else .borken
    .ok (w,lchanFailTo w l next ++ [Call.lchanExitReleaseHandler l])
  | .rtpReleased | .rtpError => lchanRtpGone l .waitRfReleaseAck w
  | _ => .error .assertFailed

def Lchan.rtpEstablished (lchan : Lchan) : Bool :=
  match lchan.fiRtp with
  | some .ready | some .established | some .rollback => true
  | _ => false

def lchanFsmWaitRllRtpEstablish (x : Foreign) (l : LchanId) (ev : LchanEvent) (w : Bsc) :
    Outcome :=
  match ev with
  | .rllEstablishInd =>
    if !(w.lchan l).info.requiresVoiceStream || (w.lchan l).rtpEstablished then
      lchanStateChg x l .established w
    else .ok (w,[])
  | .rtpReady =>
    if (w.lchan l).sapis 0 ≠ .unused then lchanStateChg x l .established w else .ok (w,[])
  | .rtpReleased | .rtpError => lchanRtpGone l (lchanFsmOnError .waitRllRtpEstablish) w
  | _ => .error .assertFailed

def linkSapi (linkId : Fin 256) : Fin 8 := ⟨linkId.val % 8,Nat.mod_lt _ (by decide)⟩

/-- `handle_rll_rel_ind_or_conf`: SAPI 0 of the main signalling link takes the
conn along. -/
def handleRllRelIndOrConf (l : LchanId) (linkId : Fin 256) (w : Bsc) : Bsc × List Call :=
  let sapi := linkSapi linkId
  (w.updLchan l fun lchan => { lchan with sapis := Function.update lchan.sapis sapi .unused },
    match (w.lchan l).conn with
    | some c => if sapi = 0 ∧ linkId.val < 64 then [.gsconLchanReleasing c l] else []
    | none => [])

def lchanFsmEstablished (l : LchanId) (ev : LchanEvent) (w : Bsc) : Outcome :=
  match ev with
  | .rllEstablishInd => .ok (w,[])
  | .rllRelInd linkId | .rllRelConf linkId =>
    let r := handleRllRelIndOrConf l linkId w
    .ok (r.1,r.2 ++ [Call.lchanEstablishedRelRest l])
  | .rtpReleased | .rtpError => lchanRtpGone l (lchanFsmOnError .established) w
  | _ => .error .assertFailed

/-- The end of LCHAN_EV_RLL_REL_IND and LCHAN_EV_RLL_REL_CONF in LCHAN_ST_ESTABLISHED. -/
def lchanEstablishedRelRest (x : Foreign) (l : LchanId) (w : Bsc) : Outcome :=
  if (w.lchan l).activeSapis 0 = 0 then lchanStateChg x l .waitRllRtpReleased w else .ok (w,[])

def lchanFsmWaitRllRtpReleased (l : LchanId) (ev : LchanEvent) (w : Bsc) : Outcome :=
  match ev with
  | .rllRelInd linkId | .rllRelConf linkId =>
    let r := handleRllRelIndOrConf l linkId w
    .ok (r.1,r.2 ++ [Call.lchanReleasedRelRest l])
  | .rtpReleased | .rtpError => .ok (w,[.lchanReleasedRelRest l])
  | _ => .error .assertFailed

/-- The end of `lchan_fsm_wait_rll_rtp_released`. -/
def lchanReleasedRelRest (x : Foreign) (l : LchanId) (w : Bsc) : Outcome :=
  if (w.lchan l).activeSapis 1 = 0 ∧ (w.lchan l).fiRtp.isNone then
    lchanStateChg x l .waitBeforeRfRelease w
  else .ok (w,[])

def lchanFsmWaitRfReleaseAck (x : Foreign) (l : LchanId) (ev : LchanEvent) (w : Bsc) : Outcome :=
  match ev with
  | .rslRfChanRelAck =>
    if (w.lchan l).inError then lchanStateChg x l .waitAfterError w
    else lchanStateChg x l .unused w
  | .rtpReleased => .ok (w,[])
  | _ => .error .assertFailed

def lchanFsmBorken (x : Foreign) (l : LchanId) (ev : LchanEvent) (w : Bsc) : Outcome :=
  match ev with
  | .rslChanActivAck =>
    lchanStateChg x l .waitRfReleaseAck (w.updLchan l ({ · with inError := true }))
  | .rslChanActivNack _ => lchanStateChg x l .unused w
  | .rslRfChanRelAck =>
    lchanStateChg x l .waitAfterError (w.updLchan l ({ · with inError := true }))
  | .rtpReleased | .rtpError => .ok (w,[])
  | _ => .error .assertFailed

/-- `osmo_fsm_inst_dispatch` on an lchan FSM; `lchan_fsm_allstate_action` knows
only LCHAN_EV_TS_ERROR. -/
def lchanDispatch (x : Foreign) (l : LchanId) (ev : LchanEvent) (w : Bsc) : Outcome :=
  match (w.lchan l).fi with
  | none => .ok (w,[])
  | some st => match lchanFsm.verdict st ev with
    | .allState => .ok (w,lchanFailTo w l .unused)
    | .notPermitted => .ok (w,[])
    | .action => match st with
      | .unused => lchanFsmUnused x l ev w
      | .waitTsReady => lchanFsmWaitTsReady x l ev w
      | .waitActivAck => lchanFsmWaitActivAck x l ev w
      | .waitRllRtpEstablish => lchanFsmWaitRllRtpEstablish x l ev w
      | .established => lchanFsmEstablished l ev w
      | .waitRllRtpReleased => lchanFsmWaitRllRtpReleased l ev w
      | .waitRfReleaseAck => lchanFsmWaitRfReleaseAck x l ev w
      | .borken => lchanFsmBorken x l ev w
      | .cbch | .waitBeforeRfRelease | .waitAfterError => .ok (w,[])

/-- `lchan_fsm_timer_cb`. -/
def lchanTimeout (x : Foreign) (l : LchanId) (w : Bsc) : Outcome :=
  match (w.lchan l).fi with
  | none => .ok (w,[])
  | some .waitBeforeRfRelease => lchanStateChg x l .waitRfReleaseAck w
  | some .waitAfterError => lchanStateChg x l .unused w
  | some st =>
    if lchanHasTimer st then
      let w := w.updLchan l ({ · with inError := true })
      .ok (w,lchanFail w l st)
    else .ok (w,[])

/-- `lchan_release` up to the nested LCHAN_RTP_EV_ROLLBACK. -/
def lchanRelease (l : LchanId) (doRrRelease err : Bool) (w : Bsc) : Outcome :=
  if (w.lchan l).fi.isNone then .ok (w,[])
  else if (w.lchan l).inReleaseHandler then .ok (w,[])
  else
    let w := w.updLchan l ({ · with
      inReleaseHandler := true, inError := err, doRrRelease := doRrRelease
      releaseRequested := true })
    .ok (w,(if (w.lchan l).fiRtp.isSome ∧ err then [Call.rtpDispatch l .rollback] else [])
      ++ [Call.lchanReleaseRest l])

/-- The rest of `lchan_release`. -/
def lchanReleaseRest (l : LchanId) (w : Bsc) : Outcome :=
  if (w.lchan l).inError then match (w.lchan l).fi with
    | none => .error .nullDeref
    | some .waitRllRtpReleased =>
      .ok (w,[.lchanStateChg l .waitRfReleaseAck,.lchanExitReleaseHandler l])
    | some .waitTsReady =>
      .ok (w,[.lchanStateChg l .waitRllRtpReleased,.lchanExitReleaseHandler l])
    | some .waitRfReleaseAck | some .borken => .ok (w,[.lchanExitReleaseHandler l])
    | some _ =>
      let r := lchanDoRelease l w
      .ok (r.1,r.2 ++ [Call.lchanStateChg l .waitRfReleaseAck,.lchanExitReleaseHandler l])
  else if (w.lchan l).fi = some .established then
    .ok (w,[.lchanStateChg l .waitRllRtpReleased,.lchanExitReleaseHandler l])
  else .ok (w,[.lchanExitReleaseHandler l])

/-- `exit_release_handler`, and the end of LCHAN_EV_RSL_CHAN_ACTIV_NACK. -/
def lchanExitReleaseHandler (l : LchanId) (w : Bsc) : Outcome :=
  .ok (w.updLchan l ({ · with inReleaseHandler := false }),[])

/-- `osmo_fsm_inst_term` on an lchan FSM: first the RTP FSM, which is its child. -/
def lchanTerm (l : LchanId) (w : Bsc) : Outcome :=
  .ok (w,(if (w.lchan l).fiRtp.isSome then [Call.rtpTerm l] else []) ++ [Call.lchanCleanup l])

/-- `lchan_fsm_cleanup` up to the end of `lchan_reset`. -/
def lchanCleanup (l : LchanId) (w : Bsc) : Outcome := do
  let r ← lchanReset l w
  return (r.1,r.2 ++ [Call.lchanCleanupRest l])

/-- The end of `lchan_fsm_cleanup` and the event to the parent. -/
def lchanCleanupRest (l : LchanId) (w : Bsc) : Outcome :=
  .ok (w.updLchan l ({ · with fi := none }),[.tsDispatch l.ts (.lchanUnused l)])

end OsmoBsc.Chan
