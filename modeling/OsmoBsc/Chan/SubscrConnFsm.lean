import OsmoBsc.Chan.HandoverFsm
set_option autoImplicit false

namespace OsmoBsc.Chan
open EventFsm

inductive ConnEventKind where
  | aConnReq
  | aConnCfm
  | aConnInd
  | aClearCmd
  | aDiscInd
  | assignmentStart
  | assignmentEnd
  | handoverStart
  | handoverEnd
  | rslConnFail
  | forgetMgwEndpoint
  | mtDtap
  | txSccp
  deriving DecidableEq, Repr

def ConnEvent.kind : ConnEvent → ConnEventKind
  | .aConnReq => .aConnReq
  | .aConnCfm => .aConnCfm
  | .aConnInd _ _ => .aConnInd
  | .aClearCmd => .aClearCmd
  | .aDiscInd => .aDiscInd
  | .assignmentStart _ _ => .assignmentStart
  | .assignmentEnd => .assignmentEnd
  | .handoverStart _ _ => .handoverStart
  | .handoverEnd _ => .handoverEnd
  | .rslConnFail => .rslConnFail
  | .forgetMgwEndpoint => .forgetMgwEndpoint
  | .mtDtap => .mtDtap
  | .txSccp _ => .txSccp

/-- `gscon_fsm_states` and `gscon_fsm.allstate_event_mask`. -/
def gsconFsm : Fsm ConnState ConnEventKind where
  inEvent st ev := match st, ev with
    | .init, .aConnReq => true
    | .init, .aConnInd => true
    | .init, .handoverEnd => true
    | .waitCc, .aConnCfm => true
    | .active, .assignmentStart => true
    | .active, .handoverStart => true
    | .assignment, .assignmentEnd => true
    | .handover, .handoverEnd => true
    | .active, .mtDtap | .assignment, .mtDtap | .handover, .mtDtap => true
    | .active, .txSccp | .assignment, .txSccp | .handover, .txSccp => true
    | _, _ => false
  outState st st' := match st, st' with
    | .init, .waitCc => true
    | .init, .active => true
    | .init, .clearing => true
    | .waitCc, .active => true
    | .active, .clearing => true
    | .active, .assignment => true
    | .active, .handover => true
    | .assignment, .active => true
    | .assignment, .clearing => true
    | .handover, .active => true
    | .handover, .clearing => true
    | _, _ => false
  allState
    | .aDiscInd => true
    | .aClearCmd => true
    | .rslConnFail => true
    | .forgetMgwEndpoint => true
    | _ => false

/-- `osmo_fsm_inst_state_chg` on a connection FSM in state `k.fi`, with
`gscon_fsm_active_onenter`. -/
def connStateChg (c : ConnId) (k : Conn) (st : ConnState) (w : Bsc) : Bsc :=
  if gsconFsm.outState k.fi st then
    let w := w.updConn c ({ · with fi := st })
    if st = .active ∧ k.lchan.isNone then gsconBssmapClear c w else w
  else w

/-- `gscon_sigtran_send`: without an SCCP connection the message is dropped. -/
def gsconSigtranSend (k : Conn) (m : Tx) (w : Bsc) : Bsc :=
  if k.fi = .init ∨ k.fi = .waitCc then w else w.send m

def gsm0808SendRslDtap (x : Foreign) (c : ConnId) (k : Conn) (w : Bsc) : Bsc :=
  if k.lchan.isNone ∨ x.fail then
    connStateChg c k .active (gsconSigtranSend k (.clearRequest c) w)
  else w

/-- `gscon_submit_rsl_dtap`, with `gscon_dtap_queue_add`. -/
def gsconSubmitRslDtap (x : Foreign) (c : ConnId) (w : Bsc) : Outcome := do
  let k ← w.getConn c
  if k.fi = .active then return (gsm0808SendRslDtap x c k w,[])
  else if 8 ≤ k.dtapQueueLen then return (w,[])
  else return (w.updConn c ({ · with dtapQueueLen := k.dtapQueueLen + 1 }),[])

/-- `gscon_dtap_queue_flush`, one message at a time. -/
def gsconDtapQueueFlush (x : Foreign) (c : ConnId) (w : Bsc) : Outcome := do
  let k ← w.getConn c
  if k.dtapQueueLen = 0 then return (w,[])
  else
    let w := w.updConn c ({ · with dtapQueueLen := k.dtapQueueLen - 1 })
    return (gsm0808SendRslDtap x c k w,[.gsconDtapQueueFlush c])

def gsconChangePrimaryLchan (c : ConnId) (new : Option LchanId) (w : Bsc) : Outcome := do
  let k ← w.getConn c
  match new with
  | none => .error .nullDeref
  | some l =>
    let w := (w.updConn c ({ · with lchan := some l })).updLchan l ({ · with conn := some c })
    return (w,(if (w.lchan l).fiRtp.isSome then [Call.rtpDispatch l .established] else [])
      ++ match k.lchan with
        | none => []
        | some old => if old ≠ l then [.gsconReleaseLchan c old false false] else [])

/-- The pointers that `gscon_release_lchan` sets to NULL. -/
def Conn.releaseLchan (k : Conn) (l : LchanId) : Conn :=
  { k with
    lchan := if k.lchan = some l then none else k.lchan
    hoNewLchan := if k.hoFi.isSome ∧ k.hoNewLchan = some l then none else k.hoNewLchan
    assignmentNewLchan := if k.assignmentNewLchan = some l then none else k.assignmentNewLchan }

def gsconReleaseLchan (c : ConnId) (l : LchanId) (doRrRelease err : Bool) (w : Bsc) : Outcome := do
  let _ ← w.getConn c
  let w := if (w.lchan l).conn = some c then lchanForgetConn l w else w
  return (w.updConn c (·.releaseLchan l),[.lchanRelease l doRrRelease err])

/-- `gscon_release_lchan` on the primary lchan. -/
def gsconReleasePrimary (c : ConnId) (doRrRelease err : Bool) (w : Bsc) : Outcome := do
  let k ← w.getConn c
  match k.lchan with
  | none => return (w,[])
  | some l => gsconReleaseLchan c l doRrRelease err w

def gsconReleaseLchans (c : ConnId) (doRrRelease : Bool) (w : Bsc) : Outcome := do
  let k ← w.getConn c
  return (w,(if k.hoFi.isSome then [Call.handoverEnd c .connRelease] else [])
    ++ [Call.assignmentReset c,.gsconReleasePrimary c doRrRelease false])

/-- `gscon_lchan_releasing` up to the event for the assignment FSM. -/
def gsconLchanReleasing (c : ConnId) (l : LchanId) (w : Bsc) : Outcome := do
  let k ← w.getConn c
  return (w,(if k.assignmentNewLchan = some l then
      (if k.assignmentFi.isSome then [Call.assignmentDispatch c (.lchanError l)] else [])
        ++ [Call.gsconLchanReleasingAssignment c]
    else []) ++ [Call.gsconLchanReleasingHo c l])

/-- `gscon_lchan_releasing` on the new lchan of an assignment. -/
def gsconLchanReleasingAssignment (c : ConnId) (w : Bsc) : Outcome := do
  let k ← w.getConn c
  return ((unlessNull lchanForgetConn k.assignmentNewLchan w).updConn c
    ({ · with assignmentNewLchan := none }),[])

/-- `gscon_lchan_releasing` up to the event for the handover FSM. -/
def gsconLchanReleasingHo (c : ConnId) (l : LchanId) (w : Bsc) : Outcome := do
  let k ← w.getConn c
  return (w,(if k.hoNewLchan = some l ∧ k.hoFi.isSome then [Call.hoDispatch c (.lchanError l)]
    else []) ++ [Call.gsconLchanReleasingRest c l])

/-- The rest of `gscon_lchan_releasing`. -/
def gsconLchanReleasingRest (c : ConnId) (l : LchanId) (w : Bsc) : Outcome := do
  let k ← w.getConn c
  let gone := k.lchan = some l
  let w := if gone then (lchanForgetConn l w).updConn c ({ · with lchan := none }) else w
  if gone ∨ k.lchan = none then
    return (gsconBssmapClear c
      (if k.fi ≠ .clearing then connStateChg c k .clearing w else w),[])
  else return (w,[])

/-- `gscon_fsm_init`, with `handle_bssap_n_connect`. -/
def gsconFsmInit (x : Foreign) (c : ConnId) (k : Conn) (ev : ConnEvent) (w : Bsc) : Outcome :=
  match ev with
  | .aConnReq =>
    if x.fail then .ok (w,[.gsconTerm c,.gsconUpdateId c])
    else .ok (connStateChg c k .waitCc w,[])
  | .aConnInd sel req =>
    if x.fail then .ok (w,[.gsconTerm c]) else .ok (w,[.handoverStartInterBscIn c sel req])
  | .handoverEnd result =>
    if result = some .ok ∧ k.hoScope = .interBscIn then
      .ok (connStateChg c k .active w,[.gsconDtapQueueFlush c])
    else .ok (connStateChg c k .clearing (gsconBssmapClear c w),[])
  | _ => .error .assertFailed

def gsconFsmActive (c : ConnId) (k : Conn) (ev : ConnEvent) (w : Bsc) : Outcome :=
  match ev with
  | .assignmentStart sel req =>
    if k.lchan.isNone then .ok (w,[])
    else .ok (connStateChg c k .assignment w,[.assignmentStart c sel req])
  | .handoverStart newType target =>
    .ok (connStateChg c k .handover w,[.handoverStart c newType target])
  | .mtDtap => .ok (w,[.gsconSubmitRslDtap c])
  | .txSccp m => .ok (gsconSigtranSend k m w,[])
  | _ => .error .assertFailed

/-- `gscon_fsm_assignment` and `gscon_fsm_handover`, which differ in the event that
ends the procedure. -/
def gsconFsmProcedure (c : ConnId) (k : Conn) (ev : ConnEvent) (w : Bsc) : Outcome :=
  match ev with
  | .assignmentEnd | .handoverEnd _ => .ok (connStateChg c k .active w,[.gsconDtapQueueFlush c])
  | .mtDtap => .ok (w,[.gsconSubmitRslDtap c])
  | .txSccp m => .ok (gsconSigtranSend k m w,[])
  | _ => .error .assertFailed

def gsconFsmAllstate (c : ConnId) (k : Conn) (ev : ConnEvent) (w : Bsc) : Outcome :=
  match ev with
  | .aClearCmd =>
    .ok (if k.fi ≠ .clearing then connStateChg c k .clearing w else w,
      [.gsconReleaseLchans c true,.connClearRest c])
  | .aDiscInd => .ok (w,[.gsconTerm c])
  | .forgetMgwEndpoint => .ok (gsconForgetMgwEndpoint c w,[])
  | .rslConnFail =>
    let w := match k.lchan with
      | none => w
      | some l => w.updLchan l ({ · with inError := true })
    .ok (gsconBssmapClear c w,[])
  | _ => .error .assertFailed

/-- `osmo_fsm_inst_dispatch` on a connection FSM. -/
def connDispatch (x : Foreign) (c : ConnId) (ev : ConnEvent) (w : Bsc) : Outcome := do
  let k ← w.getConn c
  match gsconFsm.verdict k.fi ev.kind with
  | .allState => gsconFsmAllstate c k ev w
  | .notPermitted => .ok (w,[])
  | .action => match k.fi with
    | .init => gsconFsmInit x c k ev w
    | .waitCc => .ok (connStateChg c k .active w,[])
    | .active => gsconFsmActive c k ev w
    | .assignment | .handover => gsconFsmProcedure c k ev w
    | .clearing => .ok (w,[])

/-- The end of GSCON_EV_A_CLEAR_CMD; `gscon_sigtran_send` drops the message when
there is no SCCP connection. -/
def connClearRest (c : ConnId) (w : Bsc) : Outcome := do
  let k ← w.getConn c
  let w := osmoMgcpcEpClear c w
  return (if k.fi = .init ∨ k.fi = .waitCc then w else w.send (.clearComplete c),[])

/-- `gscon_timer_cb`: T993210 in ST_WAIT_CC, T999 in ST_CLEARING. -/
def connTimeout (c : ConnId) (w : Bsc) : Outcome := do
  let k ← w.getConn c
  match k.fi with
  | .waitCc => return (w,[.gsconReleasePrimary c true true,.gsconTerm c])
  | .clearing => return (w,[.gsconTerm c])
  | _ => return (w,[])

/-- `gscon_update_id` reads the connection. -/
def gsconUpdateId (c : ConnId) (w : Bsc) : Outcome := do
  let _ ← w.getConn c
  return (w,[])

/-- `osmo_fsm_inst_term` on a connection FSM: `gscon_pre_term`, the FSMs of the
procedures, which are its children, then `gscon_cleanup`. -/
def gsconTerm (c : ConnId) (w : Bsc) : Outcome := do
  let _ ← w.getConn c
  return (osmoMgcpcEpClear c w,[.gsconReleaseLchans c true,.gsconTermChildren c,.gsconCleanup c])

/-- The children of a connection FSM end; `ho_fsm_cleanup` only forgets the FSM. -/
def gsconTermChildren (c : ConnId) (w : Bsc) : Outcome := do
  let k ← w.getConn c
  return (w.updConn c ({ · with hoFi := none }),
    if k.assignmentFi.isSome then [.assignmentTerm c true] else [])

def gsconCleanup (c : ConnId) (w : Bsc) : Outcome := do
  let k ← w.getConn c
  let w := unlessNull lchanForgetConn k.lchan w
  let w := unlessNull lchanForgetConn k.assignmentNewLchan w
  let w := unlessNull lchanForgetConn k.hoNewLchan w
  return (w.freeConn c,[])

end OsmoBsc.Chan
