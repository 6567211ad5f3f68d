import OsmoBsc.Chan.RtpFsm
set_option autoImplicit false

namespace OsmoBsc.Chan
open EventFsm

/-- The test that `_lc_find_trx` and `lchan_select_by_type` make of the lchan
they return. Which of the lchans that pass is found first is left open. -/
def lchanSelectable (w : Bsc) (type : ChanT) (l : LchanId) : Bool :=
  let pchan := (w.ts l.ts).pchanOnInit
  let asPchan := match type, pchan with
    | .sdcch, .ccchSdcch4 | .sdcch, .ccchSdcch4Cbch
    | .sdcch, .sdcch8Sacch8c | .sdcch, .sdcch8Sacch8cCbch => some pchan
    | .tchF, .tchF | .tchF, .tchFPdch | .tchF, .tchFTchHPdch => some Pchan.tchF
    | .tchH, .tchH | .tchH, .tchFTchHPdch => some .tchH
    | _, _ => none
  match asPchan with
  | none => false
  | some asPchan => tsUsableAsPchan w l.ts asPchan
      && (w.lchansFrom l.ts asPchan 8 0).contains l && ((w.lchan l).fi == some .unused)

def lchanSelectByType (sel : Select) (type : ChanT) (w : Bsc) : Option LchanId × Bsc :=
  match sel type with
  | none => (none,w)
  | some l =>
    if lchanSelectable w type l then (some l,w.updLchan l ({ · with type := type }))
    else (none,w)

/-- The channel type that `lchan_select_by_chan_mode` asks for. -/
def ChannelModeAndRate.lchanType (m : ChannelModeAndRate) : Option ChanT :=
  match m.chanMode, m.chanRate with
  | .sign, .sdcch => some .sdcch
  | .sign, .half => some .tchH
  | .sign, .full => some .tchF
  | .speechEfr, .full => some .tchF
  | .speechV1, .half | .speechAmr, .half => some .tchH
  | .speechV1, .full | .speechAmr, .full => some .tchF
  | _, _ => none

def lchanSelectByChanMode (sel : Select) (m : ChannelModeAndRate) (w : Bsc) :
    Option LchanId × Bsc :=
  match m.lchanType with
  | none => (none,w)
  | some type => lchanSelectByType sel type w

/-- `assignment_fsm_states` and `assignment_fsm.allstate_event_mask`. -/
def assignmentFsm : Fsm AssignmentState AssignmentEvent where
  inEvent st ev := match st, ev with
    | .waitLchanActive, .lchanActive _ => true
    | .waitRrAssComplete, .rrAssignmentComplete => true
    | .waitRrAssComplete, .rrAssignmentFail => true
    | .waitRrAssComplete, .lchanEstablished _ => true
    | .waitLchanEstablished, .lchanEstablished _ => true
    | .waitMgwEndpointToMsc, .mscMgwOk => true
    | .waitMgwEndpointToMsc, .mscMgwFail => true
    | _, _ => false
  outState st st' := match st, st' with
    | .waitLchanActive, .waitLchanActive => true
    | .waitLchanActive, .waitRrAssComplete => true
    | .waitRrAssComplete, .waitLchanEstablished => true
    | .waitLchanEstablished, .waitMgwEndpointToMsc => true
    | _, _ => false
  allState
    | .connReleasing => true
    | .lchanError _ => true
    | _ => false

/-- `on_assignment_failure`, to which `assignment_fail` comes down. -/
def onAssignmentFailure (c : ConnId) (k : Conn) (w : Bsc) : Bsc × List Call :=
  (w.send (.assignmentFailure c),if k.assignmentFi.isSome then [.assignmentTerm c false] else [])

/-- `osmo_fsm_inst_term` on an assignment FSM: `assignment_fsm_cleanup`, then the
event to the connection unless the connection itself is the cause. -/
def assignmentTerm (c : ConnId) (parent : Bool) (w : Bsc) : Outcome := do
  let k ← w.getConn c
  if k.assignmentFi.isNone then .error .useAfterFree
  else return (w,[.assignmentReset c,.assignmentCleanupRest c parent])

/-- `assignment_reset` up to the release of the new lchan. -/
def assignmentReset (c : ConnId) (w : Bsc) : Outcome := do
  let k ← w.getConn c
  match k.assignmentNewLchan with
  | none => return (w,[.assignmentResetRest c])
  | some l =>
    return (w.updConn c ({ · with assignmentNewLchan := none }),
      [.lchanRelease l false true,.assignmentResetRest c])

/-- The rest of `assignment_reset`. -/
def assignmentResetRest (x : Foreign) (c : ConnId) (w : Bsc) : Outcome := do
  let k ← w.getConn c
  let w := match k.assignmentCreatedCiForMsc with
    | none => w
    | some ci => osmoMgcpcEpCiDlcx x ci (gsconForgetMgwEndpointCi c ci w)
  return (w.updConn c ({ · with
    assignmentNewLchan := none, assignmentRequiresVoiceStream := false
    assignmentCreatedCiForMsc := none }),[])

/-- The end of `assignment_fsm_cleanup` and of the termination. -/
def assignmentCleanupRest (c : ConnId) (parent : Bool) (w : Bsc) : Outcome := do
  let _ ← w.getConn c
  return (w.updConn c ({ · with assignmentFi := none }),
    if parent then [] else [.connDispatch c .assignmentEnd])

/-- `send_assignment_complete`: it fails when the message cannot be composed or
sent, which ends the assignment FSM. -/
def sendAssignmentComplete (x : Foreign) (c : ConnId) (w : Bsc) : Outcome := do
  let k ← w.getConn c
  match k.lchan with
  | none => .error .nullDeref
  | some _ =>
    if x.fail then .ok (onAssignmentFailure c k w)
    else return (w.send (.assignmentComplete c),[])

/-- `assignment_success` up to the change of the primary lchan. -/
def assignmentSuccess (c : ConnId) (w : Bsc) : Outcome := do
  let k ← w.getConn c
  return (w,[.gsconChangePrimaryLchan c k.assignmentNewLchan,.assignmentSuccessSend c])

/-- `assignment_success` up to the end of `send_assignment_complete`. -/
def assignmentSuccessSend (x : Foreign) (c : ConnId) (w : Bsc) : Outcome := do
  let _ ← w.getConn c
  let r ← sendAssignmentComplete x c (w.updConn c ({ · with assignmentNewLchan := none }))
  return (r.1,r.2 ++ [Call.assignmentSuccessRest c])

/-- The rest of `assignment_success`. -/
def assignmentSuccessRest (c : ConnId) (w : Bsc) : Outcome := do
  let k ← w.getConn c
  if k.assignmentFi.isNone then
    return (w,match k.lchan with
      | none => []
      | some l => [.lchanRelease l true true])
  else
    return (w.updConn c ({ · with assignmentCreatedCiForMsc := none }),[.assignmentTerm c false])

def checkRequiresVoice : ChanMode → Option Bool
  | .speechV1 | .speechEfr | .speechAmr => some true
  | .sign => some false
  | _ => none

/-- `check_requires_voice_stream`: all modes are known and agree. -/
def checkRequiresVoiceStream (req : List ChannelModeAndRate) : Option Bool :=
  match req with
  | [] => some false
  | m :: ms => match checkRequiresVoice m.chanMode with
    | none => none
    | some v => if ms.all fun m => checkRequiresVoice m.chanMode == some v then some v else none

def lchanTypeCompatWithMode (type : ChanT) (m : ChannelModeAndRate) : Bool :=
  match m.chanMode with
  | .sign => match type with
    | .tchF => m.chanRate == .full
    | .tchH => m.chanRate == .half
    | .sdcch => m.chanRate == .sdcch
    | _ => false
  | .speechV1 | .speechAmr | .data3k6 | .data6k0 => match type with
    | .tchF => m.chanRate == .full
    | .tchH => m.chanRate == .half
    | _ => false
  | .data12k0 | .data14k5 | .speechEfr => type == .tchF

def reuseExistingLchan (lchan : Lchan) (req : List ChannelModeAndRate) : Bool :=
  match req.find? (lchanTypeCompatWithMode lchan.type ·) with
  | none => false
  | some m => lchan.tchMode == m.chanMode

/-- The loop of `assignment_fsm_start` that looks for a new lchan. -/
def assignmentSelect (sel : Select) : List ChannelModeAndRate → Bsc →
    Option (LchanId × ChannelModeAndRate) × Bsc
  | [], w => (none,w)
  | m :: ms, w => match lchanSelectByChanMode sel m w with
    | (some l,w) => (some (l,m),w)
    | (none,w) => assignmentSelect sel ms w

def assignmentStart (x : Foreign) (c : ConnId) (sel : Select) (req : List ChannelModeAndRate)
    (w : Bsc) : Outcome := do
  let k ← w.getConn c
  if k.assignmentFi.isSome ∨ k.assignmentNewLchan.isSome then .error .assertFailed
  else
    let w := w.updConn c ({ · with assignmentFi := some .waitLchanActive })
    let k := { k with assignmentFi := some .waitLchanActive }
    match checkRequiresVoiceStream req, k.lchan with
    | none, _ => .ok (onAssignmentFailure c k w)
    | some _, none => if req.isEmpty then .ok (onAssignmentFailure c k w) else .error .nullDeref
    | some voice, some old =>
      let w := w.updConn c ({ · with assignmentRequiresVoiceStream := voice })
      if reuseExistingLchan (w.lchan old) req then
        let r ← sendAssignmentComplete x c w
        return (r.1,r.2 ++ [Call.assignmentStartReuseRest c])
      else match assignmentSelect sel req w with
        | (none,w) => .ok (onAssignmentFailure c k w)
        | (some (l,m),w) =>
          return (w.updConn c ({ · with assignmentNewLchan := some l }),[.lchanActivate l {
            activFor := .forAssignment, forConn := some c, chanMode := m.chanMode
            requiresVoiceStream := voice, reUseMgwEndpointFromLchan := some old }])

/-- The end of `assignment_fsm_start` when the old lchan will do. -/
def assignmentStartReuseRest (c : ConnId) (w : Bsc) : Outcome := do
  let k ← w.getConn c
  return (w,if k.assignmentFi.isSome then [.assignmentTerm c false] else [])

/-- `gscon_connect_mgw_to_msc`. The result says whether it went well; SCCPlite
is told at once, AoIP gets its answer from the MGW. -/
def gsconConnectMgwToMsc (x : Foreign) (c : ConnId) (k : Conn) (w : Bsc) : Option (Option Ci × Bsc) :=
  match k.mgwEndpointCiMsc with
  | some ci =>
    if x.fail ∨ !k.mgwEndpoint then none
    else some (none,if x.fail2 then w else w.send (.mdcx ci))
  | none =>
    if x.fail then none
    else
      let ci : Ci := ⟨c,w.nextCi⟩
      let w := { w.updConn c ({ · with mgwEndpoint := true, mgwEndpointCiMsc := some ci })
        with nextCi := w.nextCi + 1 }
      some (some ci,w.send (.crcx ci))

def assignmentWaitMgwEndpointToMscOnenter (x : Foreign) (c : ConnId) (k : Conn) (w : Bsc) :
    Outcome :=
  if !k.assignmentRequiresVoiceStream then .error .assertFailed
  else if !k.aoip then
    .ok (w.updConn c ({ · with assignmentCreatedCiForMsc := none }),
      [.assignmentDispatch c .mscMgwOk])
  else match k.assignmentNewLchan with
    | none => .error .nullDeref
    | some _ => match gsconConnectMgwToMsc x c k w with
      | none => .ok (onAssignmentFailure c k w)
      | some (ci,w) => .ok (w.updConn c ({ · with assignmentCreatedCiForMsc := ci }),[])

def assignmentPostLchanEstablished (c : ConnId) (k : Conn) : List Call :=
  if k.assignmentRequiresVoiceStream then [.assignmentStateChg c .waitMgwEndpointToMsc]
  else [.assignmentSuccess c]

def assignmentOnenter (x : Foreign) (c : ConnId) (k : Conn) (st : AssignmentState) (w : Bsc) :
    Outcome :=
  match st with
  | .waitLchanActive => .ok (w,[])
  | .waitRrAssComplete => match k.lchan, k.assignmentNewLchan with
    | some _, some _ => if x.fail then .ok (onAssignmentFailure c k w) else .ok (w,[])
    | _, _ => .error .nullDeref
  | .waitLchanEstablished => match k.assignmentNewLchan with
    | none => .error .nullDeref
    | some l =>
      .ok (w,if (w.lchan l).stateIs .established then assignmentPostLchanEstablished c k else [])
  | .waitMgwEndpointToMsc => assignmentWaitMgwEndpointToMscOnenter x c k w

/-- `osmo_fsm_inst_state_chg` on an assignment FSM. -/
def assignmentStateChg (x : Foreign) (c : ConnId) (st : AssignmentState) (w : Bsc) : Outcome := do
  let k ← w.getConn c
  match k.assignmentFi with
  | none => .error .useAfterFree
  | some st' =>
    if assignmentFsm.outState st' st then
      assignmentOnenter x c { k with assignmentFi := some st } st
        (w.updConn c ({ · with assignmentFi := some st }))
    else .ok (w,[])

def assignmentAllstate (c : ConnId) (k : Conn) (ev : AssignmentEvent) (w : Bsc) : Outcome :=
  match ev with
  | .connReleasing => .ok (w,[.assignmentTerm c false])
  | .lchanError l =>
    if k.assignmentNewLchan ≠ some l then .ok (w,[]) else .ok (onAssignmentFailure c k w)
  | _ => .ok (w,[])

/-- The actions of `assignment_fsm_states`. -/
def assignmentAction (x : Foreign) (c : ConnId) (k : Conn) (st : AssignmentState)
    (ev : AssignmentEvent) (w : Bsc) : Outcome :=
  match st, ev with
  | .waitLchanActive, .lchanActive l =>
    if k.assignmentNewLchan ≠ some l then .ok (w,[])
    else assignmentStateChg x c .waitRrAssComplete w
  | .waitRrAssComplete, .rrAssignmentComplete => assignmentStateChg x c .waitLchanEstablished w
  | .waitRrAssComplete, .lchanEstablished _ => .ok (w,[])
  | .waitRrAssComplete, .rrAssignmentFail => .ok (onAssignmentFailure c k w)
  | .waitLchanEstablished, .lchanEstablished _ => .ok (w,assignmentPostLchanEstablished c k)
  | .waitMgwEndpointToMsc, .mscMgwOk =>
    if k.aoip && x.fail then .ok (onAssignmentFailure c k w) else .ok (w,[.assignmentSuccess c])
  | .waitMgwEndpointToMsc, .mscMgwFail => .ok (onAssignmentFailure c k w)
  | _, _ => .error .assertFailed

/-- `osmo_fsm_inst_dispatch` on an assignment FSM. -/
def assignmentDispatch (x : Foreign) (c : ConnId) (ev : AssignmentEvent) (w : Bsc) : Outcome := do
  let k ← w.getConn c
  match k.assignmentFi with
  | none => .ok (w,[])
  | some st => match assignmentFsm.verdict st ev with
    | .allState => assignmentAllstate c k ev w
    | .action => assignmentAction x c k st ev w
    | .notPermitted => .ok (w,[])

/-- `assignment_fsm_timer_cb`; all states keep the timer. -/
def assignmentTimeout (c : ConnId) (w : Bsc) : Outcome := do
  let k ← w.getConn c
  if k.assignmentFi.isSome then .ok (onAssignmentFailure c k w) else .ok (w,[])

end OsmoBsc.Chan
