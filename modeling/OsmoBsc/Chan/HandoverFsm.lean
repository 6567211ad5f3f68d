import OsmoBsc.Chan.AssignmentFsm
set_option autoImplicit false

namespace OsmoBsc.Chan
open EventFsm

/-- `ho_fsm_states` and `ho_fsm.allstate_event_mask`. -/
def hoFsm : Fsm HoState HoEvent where
  inEvent st ev := match st, ev with
    | .waitLchanActive, .lchanActive _ => true
    | .waitLchanActive, .lchanError _ => true
    | .waitMgwEndpointToMsc, .mscMgwOk => true
    | .waitMgwEndpointToMsc, .mscMgwFail => true
    | .waitRrHoDetect, .rrHoDetect => true
    | .waitRrHoDetect, .rrHoComplete => true
    | .waitRrHoDetect, .rrHoFail => true
    | .waitRrHoComplete, .rrHoDetect => true
    | .waitRrHoComplete, .lchanEstablished _ => true
    | .waitRrHoComplete, .rrHoComplete => true
    | .waitRrHoComplete, .rrHoFail => true
    | .waitLchanEstablished, .lchanEstablished _ => true
    | .outWaitHoCommand, .bssmapHoCommand _ => true
    | .outWaitClear, .rrHoFail => true
    | _, _ => false
  outState st st' := match st, st' with
    | .notStarted, .waitLchanActive => true
    | .notStarted, .outWaitHoCommand => true
    | .waitLchanActive, .waitLchanActive => true
    | .waitLchanActive, .waitMgwEndpointToMsc => true
    | .waitLchanActive, .waitRrHoDetect => true
    | .waitMgwEndpointToMsc, .waitRrHoDetect => true
    | .waitRrHoDetect, .waitRrHoComplete => true
    | .waitRrHoDetect, .waitLchanEstablished => true
    | .waitRrHoComplete, .waitLchanEstablished => true
    | .outWaitHoCommand, .outWaitClear => true
    | _, _ => false
  allState
    | .connReleasing => true
    | .lchanError _ => true
    | _ => false

/-- The scopes that `HO_INTRA_CELL | HO_INTRA_BSC` covers. -/
def HoScope.intra : HoScope → Bool
  | .intraCell | .intraBsc => true
  | _ => false

/-- What `handover_reset` and the struct assignments leave of `conn->ho`. -/
def Conn.clearHo (k : Conn) : Conn :=
  { k with hoNewLchan := none, hoScope := .noHandover, hoCreatedCiForMsc := none }

/-- `handover_reset` without the release of a new lchan. -/
def handoverReset (x : Foreign) (c : ConnId) (k : Conn) (w : Bsc) : Bsc :=
  let w := match k.hoCreatedCiForMsc with
    | none => w
    | some ci => osmoMgcpcEpCiDlcx x ci (gsconForgetMgwEndpointCi c ci w)
  w.updConn c Conn.clearHo

/-- `handover_start` up to `handover_reset`. -/
def handoverStart (c : ConnId) (newType : ChanT) (target : HoTarget) (w : Bsc) : Outcome := do
  let k ← w.getConn c
  if k.hoFi.isSome then return (w,[])
  else
    return (w,(match k.hoNewLchan with
      | none => []
      | some l => [Call.lchanRelease l false true]) ++ [Call.handoverStartReset c newType target])

def handoverStartIntraBsc (c : ConnId) (k : Conn) (type : ChanT) (sameCell : Bool) (sel : Select)
    (w : Bsc) : Outcome :=
  match k.lchan with
  | none => .error .nullDeref
  | some old =>
    if type = .none then .error .assertFailed
    else
      let w := w.updConn c ({ · with
        hoScope := if sameCell then .intraCell else .intraBsc })
      match lchanSelectByType sel type w with
      | (none,w) => .ok (w,[.handoverEnd c .failNoChannel])
      | (some l,w) =>
        .ok (w.updConn c ({ · with hoNewLchan := some l, hoFi := some .waitLchanActive }),
          [.lchanActivate l {
            activFor := .forHandover, forConn := some c, chanMode := (w.lchan old).tchMode
            requiresVoiceStream := (w.lchan old).mgwEndpointCiBts.isSome
            reUseMgwEndpointFromLchan := some old, waitBeforeSwitchingRtp := true }])

/-- The rest of `handover_start`, with `handover_start_inter_bsc_out`. -/
def handoverStartReset (x : Foreign) (c : ConnId) (newType : ChanT) (target : HoTarget) (w : Bsc) :
    Outcome := do
  let k ← w.getConn c
  if k.hoFi.isSome then .error .assertFailed
  else
    let w := (handoverReset x c k w).updConn c ({ · with hoFi := some .notStarted })
    match target with
    | .here sameCell sel =>
      let type := if newType = .none then (k.lchan.map fun l => (w.lchan l).type).getD .none
        else newType
      handoverStartIntraBsc c k type sameCell sel w
    | .remote =>
      let w := w.updConn c ({ · with hoScope := .interBscOut })
      if x.fail then return (w,[.handoverEnd c .error])
      else return (w.updConn c ({ · with hoFi := some .outWaitHoCommand }),[])
    | .unknown => return (w,[.handoverEnd c .failNoChannel])

/-- `handover_start_inter_bsc_in`. There is no request when it cannot be parsed
or no cell takes it; the second failure is one of the encryption parameters. -/
def handoverStartInterBscIn (x : Foreign) (c : ConnId) (sel : Select)
    (req : Option ChannelModeAndRate) (w : Bsc) : Outcome := do
  let k ← w.getConn c
  if k.hoFi.isSome then .error .assertFailed
  else
    let w := w.updConn c fun k =>
      { k.clearHo with hoFi := some .notStarted, hoScope := .interBscIn }
    match req with
    | none => return (w,[.handoverEnd c .error])
    | some m => match lchanSelectByChanMode sel m w with
      | (none,w) => return (w,[.handoverEnd c .error])
      | (some l,w) =>
        let w := w.updConn c ({ · with hoNewLchan := some l, hoFi := some .waitLchanActive })
        if x.fail then return (w,[.handoverEnd c .error])
        else return (w,[.lchanActivate l {
          activFor := .forHandover, forConn := some c, chanMode := m.chanMode
          requiresVoiceStream := checkRequiresVoice m.chanMode == some true }])

/-- The checks at the start of `handover_end`: the new lchan must be this conn's. -/
def handoverEndResult (c : ConnId) (k : Conn) (w : Bsc) (result : HoResult) : HoResult :=
  match result, k.hoNewLchan with
  | .ok, some l =>
    if k.hoScope = .noHandover ∨ k.hoScope = .interBscOut ∨ (w.lchan l).conn ≠ some c then .error
    else .ok
  | r, _ => r

/-- `handover_end` up to the end of the scope specific part. -/
def handoverEnd (x : Foreign) (c : ConnId) (result : HoResult) (w : Bsc) : Outcome := do
  let k ← w.getConn c
  let result := handoverEndResult c k w result
  match k.hoScope with
  | .interBscIn =>
    let result := if result = .ok ∧ (k.hoNewLchan.isNone ∨ x.fail) then .error else result
    let w := if result = .ok then w.send (.hoComplete c)
      else if result = .error then w.send (.hoFailure c) else w
    return (w,[.handoverEndChange c result])
  | .interBscOut => match result with
    | .ok => return (w,[.handoverEndChange c result])
    | .failRrHoFail => return (w.send (.hoFailure c),[.handoverEndChange c result])
    | _ => match k.hoFi, k.lchan with
      | none, _ => .error .nullDeref
      | some .outWaitHoCommand, _ => return (w,[.handoverEndChange c result])
      | some _, none => return (w,[.handoverEndChange c result])
      | some _, some l => return (w,[.lchanRelease l true true,.handoverEndChange c result])
  | _ => return (w,[.handoverEndChange c result])

def sendHandoverPerformed (x : Foreign) (c : ConnId) (k : Conn) (w : Bsc) : Except Fault Bsc :=
  match k.lchan, k.hoNewLchan with
  | none, _ => .error .assertFailed
  | some _, none => if x.fail then .ok w else .error .nullDeref
  | some _, some _ => .ok (if x.fail then w else w.send (.hoPerformed c))

/-- `handover_end` up to the change of the primary lchan. -/
def handoverEndChange (x : Foreign) (c : ConnId) (result : HoResult) (w : Bsc) : Outcome := do
  let k ← w.getConn c
  if result = .ok then
    let w := w.updConn c ({ · with hoCreatedCiForMsc := none })
    let w ← if k.hoScope.intra then sendHandoverPerformed x c k w else pure w
    return (w,(match k.hoNewLchan with
      | none => []
      | some l => [Call.gsconChangePrimaryLchan c (some l)]) ++ [Call.handoverEndNotify c result])
  else return (w,[.handoverEndNotify c result])

/-- `handover_end` up to GSCON_EV_HANDOVER_END. -/
def handoverEndNotify (c : ConnId) (result : HoResult) (w : Bsc) : Outcome := do
  let _ ← w.getConn c
  let w := if result = .ok then w.updConn c ({ · with hoNewLchan := none }) else w
  return (w,[.connDispatch c (.handoverEnd (some result)),.handoverEndRelease c])

/-- `handover_end` up to the release of the new lchan. -/
def handoverEndRelease (c : ConnId) (w : Bsc) : Outcome := do
  let k ← w.getConn c
  return (w,(match k.hoNewLchan with
    | none => []
    | some l => [Call.lchanRelease l false true]) ++ [Call.handoverEndRest c])

/-- The rest of `handover_end`. The handover FSM was unlinked, so its end raises
no event. -/
def handoverEndRest (x : Foreign) (c : ConnId) (w : Bsc) : Outcome := do
  let k ← w.getConn c
  if k.hoFi.isNone then .error .nullDeref
  else
    return ((handoverReset x c k (w.updConn c ({ · with hoNewLchan := none }))).updConn c
      ({ · with hoFi := none }),[])

def hoWaitRrHoDetectOnenter (x : Foreign) (c : ConnId) (k : Conn) (w : Bsc) : Outcome :=
  match k.hoNewLchan with
  | none => .error .nullDeref
  | some _ =>
    if x.fail ∨ (!k.hoScope.intra ∧ k.hoScope ≠ .interBscIn) then .ok (w,[.handoverEnd c .error])
    else .ok (w,[])

def hoWaitMgwEndpointToMscOnenter (x : Foreign) (c : ConnId) (k : Conn) (w : Bsc) : Outcome :=
  if !k.aoip then
    .ok (w.updConn c ({ · with hoCreatedCiForMsc := none }),[.hoDispatch c .mscMgwOk])
  else match k.hoNewLchan with
    | none => .error .nullDeref
    | some _ => match gsconConnectMgwToMsc x c k w with
      | none => .ok (w,[.handoverEnd c .error])
      | some (ci,w) => .ok (w.updConn c ({ · with hoCreatedCiForMsc := ci }),[])

def hoOnenter (x : Foreign) (c : ConnId) (k : Conn) (st : HoState) (w : Bsc) : Outcome :=
  match st with
  | .waitMgwEndpointToMsc => hoWaitMgwEndpointToMscOnenter x c k w
  | .waitRrHoDetect => hoWaitRrHoDetectOnenter x c k w
  | .waitLchanEstablished => match k.hoNewLchan with
    | none => .error .nullDeref
    | some l =>
      .ok (w,if (w.lchan l).stateIs .established then [.handoverEnd c .ok] else [])
  | .notStarted | .waitLchanActive | .waitRrHoComplete | .outWaitHoCommand | .outWaitClear =>
    .ok (w,[])

/-- `osmo_fsm_inst_state_chg` on a handover FSM. -/
def hoStateChg (x : Foreign) (c : ConnId) (st : HoState) (w : Bsc) : Outcome := do
  let k ← w.getConn c
  match k.hoFi with
  | none => .error .useAfterFree
  | some st' =>
    if hoFsm.outState st' st then
      hoOnenter x c { k with hoFi := some st } st (w.updConn c ({ · with hoFi := some st }))
    else .ok (w,[])

/-- LCHAN_RTP_EV_READY_TO_SWITCH_RTP to the new lchan, then the next state. -/
def hoSwitchRtp (c : ConnId) (k : Conn) (st : HoState) (w : Bsc) : Outcome :=
  match k.hoNewLchan with
  | none => .error .nullDeref
  | some l =>
    .ok (w,(if (w.lchan l).fiRtp.isSome then [Call.rtpDispatch l .readyToSwitchRtp] else [])
      ++ [Call.hoStateChg c st])

def hoAllstate (c : ConnId) (st : HoState) (ev : HoEvent) (w : Bsc) : Outcome :=
  match ev, st with
  | .connReleasing, .outWaitClear => .ok (w,[.handoverEnd c .ok])
  | .connReleasing, _ => .ok (w,[.handoverEnd c .connRelease])
  | .lchanError _, .outWaitHoCommand => .ok (w,[])
  | .lchanError _, .outWaitClear => .ok (w,[])
  | .lchanError _, _ => .ok (w,[.handoverEnd c .error])
  | _, _ => .error .assertFailed

/-- The actions of `ho_fsm_states`. -/
def hoAction (x : Foreign) (c : ConnId) (k : Conn) (st : HoState) (ev : HoEvent) (w : Bsc) :
    Outcome :=
  match st, ev with
  | .waitLchanActive, .lchanActive _ => match k.hoNewLchan with
    | none => .error .nullDeref
    | some l =>
      if (w.lchan l).info.requiresVoiceStream ∧ k.hoScope = .interBscIn ∧ k.aoip then
        hoStateChg x c .waitMgwEndpointToMsc w
      else hoStateChg x c .waitRrHoDetect w
  | .waitMgwEndpointToMsc, .mscMgwOk =>
    if x.fail then .ok (w,[.handoverEnd c .error]) else .ok (w,[.hoStateChg c .waitRrHoDetect])
  | .waitMgwEndpointToMsc, .mscMgwFail => .ok (w,[.handoverEnd c .error])
  | .waitRrHoDetect, .rrHoDetect =>
    if k.hoScope = .interBscIn ∧ x.fail then .ok (w,[.handoverEnd c .error])
    else hoSwitchRtp c k .waitRrHoComplete w
  | .waitRrHoDetect, .rrHoComplete => hoSwitchRtp c k .waitLchanEstablished w
  | .waitRrHoDetect, .rrHoFail => .ok (w,[.handoverEnd c .failRrHoFail])
  | .waitRrHoComplete, .rrHoDetect => .ok (w,[])
  | .waitRrHoComplete, .lchanEstablished _ => .ok (w,[])
  | .waitRrHoComplete, .rrHoComplete => hoStateChg x c .waitLchanEstablished w
  | .waitRrHoComplete, .rrHoFail => .ok (w,[.handoverEnd c .failRrHoFail])
  | .waitLchanEstablished, .lchanEstablished _ => .ok (w,[.handoverEnd c .ok])
  | .outWaitHoCommand, .bssmapHoCommand l3Info =>
    if !l3Info ∨ x.fail then .ok (w,[.handoverEnd c .error]) else hoStateChg x c .outWaitClear w
  | .outWaitClear, .rrHoFail => .ok (w,[.handoverEnd c .failRrHoFail])
  | _, _ => .error .assertFailed

/-- `osmo_fsm_inst_dispatch` on a handover FSM. -/
def hoDispatch (x : Foreign) (c : ConnId) (ev : HoEvent) (w : Bsc) : Outcome := do
  let k ← w.getConn c
  match k.hoFi with
  | none => .ok (w,[])
  | some st => match hoFsm.verdict st ev with
    | .allState => hoAllstate c st ev w
    | .action => hoAction x c k st ev w
    | .notPermitted => .ok (w,[])

/-- `ho_fsm_timer_cb`; only HO_ST_NOT_STARTED has no timer. -/
def hoTimeout (c : ConnId) (w : Bsc) : Outcome := do
  let k ← w.getConn c
  match k.hoFi with
  | none | some .notStarted => return (w,[])
  | some _ => return (w,[.handoverEnd c .failTimeout])

end OsmoBsc.Chan
