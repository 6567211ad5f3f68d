import OsmoBsc.Chan.SubscrConnFsm
import Mathlib.Data.Finset.Card
set_option autoImplicit false

namespace OsmoBsc.Counters
open EventFsm
open Chan (AssignmentState AssignmentEvent HoState HoEvent HoScope HoResult ConnState LchanId
  ChannelModeAndRate assignmentFsm hoFsm gsconFsm checkRequiresVoiceStream)

/-- The counters of `enum bsc_ctr_id` that assignments and handovers have. -/
inductive BscCtr where
  | assignmentAttempted
  | assignmentCompleted
  | assignmentStopped
  | assignmentNoChannel
  | assignmentTimeout
  | assignmentFailed
  | assignmentError
  | handoverAttempted
  | handoverCompleted
  | handoverStopped
  | handoverNoChannel
  | handoverTimeout
  | handoverFailed
  | handoverError
  | interBscHoOutAttempted
  | interBscHoOutCompleted
  | interBscHoOutStopped
  | interBscHoOutTimeout
  | interBscHoOutError
  | interBscHoInAttempted
  | interBscHoInCompleted
  | interBscHoInStopped
  | interBscHoInNoChannel
  | interBscHoInFailed
  | interBscHoInTimeout
  | interBscHoInError
  deriving DecidableEq, Repr

/-- What the counting reads of a connection. -/
structure Conn where
  fi : ConnState := .init
  aoip : Bool := false
  lchan : Option LchanId := none
  assignmentFi : Option AssignmentState := none
  assignmentNewLchan : Option LchanId := none
  assignmentRequiresVoiceStream : Bool := false
  resultRateCtrDone : Bool := false
  hoFi : Option HoState := none
  hoScope : HoScope := .noHandover
  hoNewLchan : Option LchanId := none
  deriving DecidableEq, Repr

/-- A connection while an event is handled, and the counters that went up by one. -/
structure Ctx where
  conn : Conn
  ctrs : List BscCtr := []
  deriving DecidableEq, Repr

abbrev Outcome := Except Fault Ctx

/-- What the functions that are not modelled say: a message or a connection of the MGW
fails, the last message of a procedure fails, the new lchan is in
LCHAN_ST_ESTABLISHED, the new lchan belongs to another connection. -/
structure Env where
  fail : Bool := false
  completeFail : Bool := false
  established : Bool := false
  otherConn : Bool := false
  deriving DecidableEq, Repr

def Ctx.upd (s : Ctx) (f : Conn → Conn) : Ctx := { s with conn := f s.conn }

def Ctx.inc (s : Ctx) (ctr : BscCtr) : Ctx := { s with ctrs := ctr :: s.ctrs }

/-- `osmo_fsm_inst_state_chg` on a connection FSM. -/
def connStateChg (st : ConnState) (s : Ctx) : Ctx :=
  if gsconFsm.outState s.conn.fi st then s.upd ({ · with fi := st }) else s

section Assignment

def assignmentCountResult (ctr : BscCtr) (s : Ctx) : Ctx :=
  if s.conn.resultRateCtrDone then s else (s.inc ctr).upd ({ · with resultRateCtrDone := true })

/-- `assignment_reset`: all of `conn->assignment` is set to 0 but the FSM. -/
def assignmentReset (s : Ctx) : Ctx :=
  s.upd ({ · with
    assignmentNewLchan := none, assignmentRequiresVoiceStream := false, resultRateCtrDone := false })

/-- `osmo_fsm_inst_term` on an assignment FSM: `assignment_fsm_cleanup`, then
GSCON_EV_ASSIGNMENT_END. -/
def assignmentTerm (s : Ctx) : Ctx :=
  let s := (assignmentReset s).upd ({ · with assignmentFi := none })
  if gsconFsm.inEvent s.conn.fi .assignmentEnd then connStateChg .active s else s

def onAssignmentFailure (s : Ctx) : Ctx :=
  if s.conn.assignmentFi.isSome then assignmentTerm s else s

def assignmentFail (s : Ctx) : Ctx := onAssignmentFailure (assignmentCountResult .assignmentError s)

def sendAssignmentComplete (x : Env) (s : Ctx) : Outcome :=
  match s.conn.lchan with
  | none => .error .nullDeref
  | some _ => .ok (if x.completeFail then assignmentFail s else s)

def assignmentSuccess (x : Env) (s : Ctx) : Outcome :=
  match s.conn.assignmentNewLchan with
  | none => .error .nullDeref
  | some l => do
    let s ← sendAssignmentComplete x (s.upd ({ · with lchan := some l, assignmentNewLchan := none }))
    if s.conn.assignmentFi.isNone then return s
    else return assignmentCountResult .assignmentCompleted (assignmentTerm s)

/-- What `assignment_fsm_start` is asked for, and what it finds for one of the modes:
the old lchan will do, or an lchan is free. -/
structure AssignmentRequest where
  chModeRate : List ChannelModeAndRate
  reuse : Bool
  new : Option LchanId

def assignmentFsmStart (x : Env) (req : AssignmentRequest) (s : Ctx) : Outcome :=
  if s.conn.assignmentFi.isSome ∨ s.conn.assignmentNewLchan.isSome then .error .assertFailed
  else
    let s := (s.inc .assignmentAttempted).upd ({ · with assignmentFi := some .waitLchanActive })
    match checkRequiresVoiceStream req.chModeRate with
    | none => .ok (assignmentFail s)
    | some voice =>
      let s := s.upd ({ · with assignmentRequiresVoiceStream := voice })
      if req.chModeRate ≠ [] ∧ s.conn.lchan.isSome ∧ req.reuse then do
        let s ← sendAssignmentComplete x s
        if s.conn.assignmentFi.isSome then
          return assignmentTerm (assignmentCountResult .assignmentCompleted s)
        else return s
      else if req.chModeRate ≠ [] ∧ s.conn.lchan.isNone then .error .nullDeref
      else match (if req.chModeRate = [] then none else req.new) with
        | none => .ok (assignmentFail (assignmentCountResult .assignmentNoChannel s))
        | some l => .ok (s.upd ({ · with assignmentNewLchan := some l }))

/-- ASSIGNMENT_ST_WAIT_MGW_ENDPOINT_TO_MSC is entered; an SCCPlite MSC sees to the MGW
itself. -/
def assignmentWaitMgwEndpointToMsc (x : Env) (s : Ctx) : Outcome :=
  let s := s.upd ({ · with assignmentFi := some .waitMgwEndpointToMsc })
  if !s.conn.aoip then assignmentSuccess x s
  else if s.conn.assignmentNewLchan.isNone then .error .nullDeref
  else .ok (if x.fail then assignmentFail s else s)

def assignmentPostLchanEstablished (x : Env) (s : Ctx) : Outcome :=
  if s.conn.assignmentRequiresVoiceStream then assignmentWaitMgwEndpointToMsc x s
  else assignmentSuccess x s

/-- The actions of `assignment_fsm_states`, with the onenter functions of the states
they go to. -/
def assignmentAction (x : Env) (st : AssignmentState) (ev : AssignmentEvent) (s : Ctx) : Outcome :=
  match st, ev with
  | .waitLchanActive, .lchanActive l =>
    if s.conn.assignmentNewLchan ≠ some l then .ok s
    else
      let s := s.upd ({ · with assignmentFi := some .waitRrAssComplete })
      if s.conn.lchan.isNone then .error .nullDeref
      else .ok (if x.fail then assignmentFail s else s)
  | .waitRrAssComplete, .rrAssignmentComplete =>
    let s := s.upd ({ · with assignmentFi := some .waitLchanEstablished })
    if s.conn.assignmentNewLchan.isNone then .error .nullDeref
    else if x.established then assignmentPostLchanEstablished x s else .ok s
  | .waitRrAssComplete, .lchanEstablished _ => .ok s
  | .waitRrAssComplete, .rrAssignmentFail =>
    .ok (assignmentFail (assignmentCountResult .assignmentFailed s))
  | .waitLchanEstablished, .lchanEstablished _ => assignmentPostLchanEstablished x s
  | .waitMgwEndpointToMsc, .mscMgwOk =>
    if s.conn.aoip && x.fail then .ok (assignmentFail s) else assignmentSuccess x s
  | .waitMgwEndpointToMsc, .mscMgwFail => .ok (assignmentFail s)
  | _, _ => .error .assertFailed

def assignmentAllstate (ev : AssignmentEvent) (s : Ctx) : Ctx :=
  match ev with
  | .connReleasing => assignmentTerm (assignmentCountResult .assignmentStopped s)
  | .lchanError l => if s.conn.assignmentNewLchan ≠ some l then s else assignmentFail s
  | _ => s

/-- `osmo_fsm_inst_dispatch` on an assignment FSM. -/
def assignmentDispatch (x : Env) (ev : AssignmentEvent) (s : Ctx) : Outcome :=
  match s.conn.assignmentFi with
  | none => .ok s
  | some st => match assignmentFsm.verdict st ev with
    | .allState => .ok (assignmentAllstate ev s)
    | .action => assignmentAction x st ev s
    | .notPermitted => .ok s

/-- `assignment_fsm_timer_cb`. -/
def assignmentTimeout (s : Ctx) : Ctx :=
  if s.conn.assignmentFi.isSome then assignmentFail (assignmentCountResult .assignmentTimeout s) else s

end Assignment

section Handover

def funcResultCounter (completed noChannel failed timeout stopped error : BscCtr) : HoResult → BscCtr
  | .ok => completed
  | .failNoChannel => noChannel
  | .failRrHoFail => failed
  | .failTimeout => timeout
  | .connRelease => stopped
  | .error => error

def resultCounterAssignment : HoResult → BscCtr :=
  funcResultCounter .assignmentCompleted .assignmentNoChannel .assignmentFailed .assignmentTimeout
    .assignmentStopped .assignmentError

def resultCounterHandover : HoResult → BscCtr :=
  funcResultCounter .handoverCompleted .handoverNoChannel .handoverFailed .handoverTimeout
    .handoverStopped .handoverError

def resultCounterInterBscHoIn : HoResult → BscCtr :=
  funcResultCounter .interBscHoInCompleted .interBscHoInNoChannel .interBscHoInFailed
    .interBscHoInTimeout .interBscHoInStopped .interBscHoInError

/-- `result_counter_INTER_BSC_HO_OUT`, which has fewer counters. -/
def resultCounterInterBscHoOut : HoResult → BscCtr
  | .ok => .interBscHoOutCompleted
  | .failTimeout => .interBscHoOutTimeout
  | .connRelease => .interBscHoOutStopped
  | _ => .interBscHoOutError

def resultCounter (scope : HoScope) : HoResult → BscCtr :=
  match scope with
  | .intraCell => resultCounterAssignment
  | .noHandover | .intraBsc => resultCounterHandover
  | .interBscOut => resultCounterInterBscHoOut
  | .interBscIn => resultCounterInterBscHoIn

/-- GSCON_EV_HANDOVER_END, in `gscon_fsm_init` and `gscon_fsm_handover`. -/
def gsconHandoverEnd (result : HoResult) (s : Ctx) : Ctx :=
  match s.conn.fi with
  | .init =>
    if result = .ok ∧ s.conn.hoScope = .interBscIn then connStateChg .active s
    else connStateChg .clearing s
  | .handover => connStateChg .active s
  | _ => s

/-- The result that `handover_end` comes to. -/
def handoverEndResult (x : Env) (k : Conn) (result : HoResult) : HoResult :=
  let result := match result, k.hoNewLchan with
    | .ok, some _ =>
      if k.hoScope = .noHandover ∨ k.hoScope = .interBscOut ∨ x.otherConn then .error else .ok
    | r, _ => r
  if k.hoScope = .interBscIn ∧ result = .ok ∧ (k.hoNewLchan.isNone ∨ x.completeFail) then .error
  else result

/-- `gscon_change_primary_lchan`, when a handover ends well. -/
def takeNewLchan (result : HoResult) (s : Ctx) : Ctx :=
  match result, s.conn.hoNewLchan with
  | .ok, some l => s.upd ({ · with lchan := some l })
  | _, _ => s

def handoverEnd (x : Env) (result : HoResult) (s : Ctx) : Outcome :=
  let result := handoverEndResult x s.conn result
  if s.conn.hoFi.isNone then .error .nullDeref
  else if result = .ok ∧ s.conn.hoScope.intra ∧ s.conn.lchan.isNone then .error .assertFailed
  else
    let s := s.inc (resultCounter s.conn.hoScope result)
    .ok ((gsconHandoverEnd result (takeNewLchan result s)).upd ({ · with
      hoFi := none, hoScope := .noHandover, hoNewLchan := none }))

/-- The cell that a handover goes to: one of this BSS, with the lchan that is free there,
one of another BSS, or no known one. -/
inductive HoTarget where
  | here (sameCell : Bool) (new : Option LchanId)
  | remote
  | unknown
  deriving DecidableEq, Repr

/-- `handover_reset` and `handover_fsm_alloc`. -/
def handoverFsmAlloc (s : Ctx) : Ctx :=
  s.upd ({ · with hoFi := some .notStarted, hoScope := .noHandover, hoNewLchan := none })

def handoverStartIntraBsc (x : Env) (sameCell : Bool) (new : Option LchanId) (s : Ctx) : Outcome :=
  if s.conn.lchan.isNone then .error .nullDeref
  else
    let s := (s.upd ({ · with hoScope := if sameCell then .intraCell else .intraBsc })).inc
      .handoverAttempted
    match new with
    | none => handoverEnd x .failNoChannel s
    | some l => .ok (s.upd ({ · with hoNewLchan := some l, hoFi := some .waitLchanActive }))

def handoverStartInterBscOut (x : Env) (s : Ctx) : Outcome :=
  let s := (s.upd ({ · with hoScope := .interBscOut })).inc .interBscHoOutAttempted
  if x.fail then handoverEnd x .error s else .ok (s.upd ({ · with hoFi := some .outWaitHoCommand }))

def handoverStart (x : Env) (target : HoTarget) (s : Ctx) : Outcome :=
  if s.conn.hoFi.isSome then .ok s
  else
    let s := handoverFsmAlloc s
    match target with
    | .here sameCell new => handoverStartIntraBsc x sameCell new s
    | .remote => handoverStartInterBscOut x s
    | .unknown => handoverEnd x .failNoChannel s

/-- `handover_start_inter_bsc_in`. There is no lchan when no cell matches or has one;
the failure is one of the encryption parameters. -/
def handoverStartInterBscIn (x : Env) (parses : Bool) (new : Option LchanId) (s : Ctx) : Outcome :=
  if s.conn.hoFi.isSome then .error .assertFailed
  else
    let s := (handoverFsmAlloc s).upd ({ · with hoScope := .interBscIn })
    if !parses then handoverEnd x .error s
    else
      let s := s.inc .interBscHoInAttempted
      match new with
      | none => handoverEnd x .error s
      | some l =>
        let s := s.upd ({ · with hoNewLchan := some l, hoFi := some .waitLchanActive })
        if x.fail then handoverEnd x .error s else .ok s

/-- HO_ST_WAIT_RR_HO_DETECT is entered. -/
def hoWaitRrHoDetect (x : Env) (s : Ctx) : Outcome :=
  let s := s.upd ({ · with hoFi := some .waitRrHoDetect })
  if s.conn.hoNewLchan.isNone then .error .nullDeref
  else if x.fail ∨ (!s.conn.hoScope.intra ∧ s.conn.hoScope ≠ .interBscIn) then handoverEnd x .error s
  else .ok s

/-- HO_ST_WAIT_LCHAN_ESTABLISHED is entered. -/
def hoWaitLchanEstablished (x : Env) (s : Ctx) : Outcome :=
  let s := s.upd ({ · with hoFi := some .waitLchanEstablished })
  if s.conn.hoNewLchan.isNone then .error .nullDeref
  else if x.established then handoverEnd x .ok s else .ok s

def hoAllstate (x : Env) (st : HoState) (ev : HoEvent) (s : Ctx) : Outcome :=
  match ev, st with
  | .connReleasing, .outWaitClear => handoverEnd x .ok s
  | .connReleasing, _ => handoverEnd x .connRelease s
  | .lchanError _, .outWaitHoCommand | .lchanError _, .outWaitClear => .ok s
  | .lchanError _, _ => handoverEnd x .error s
  | _, _ => .error .assertFailed

/-- The actions of `ho_fsm_states`, with the onenter functions of the states they go to.
Whether the new lchan carries voice comes with HO_EV_LCHAN_ACTIVE. -/
def hoAction (x : Env) (voice : Bool) (st : HoState) (ev : HoEvent) (s : Ctx) : Outcome :=
  match st, ev with
  | .waitLchanActive, .lchanActive _ =>
    if s.conn.hoNewLchan.isNone then .error .nullDeref
    else if voice ∧ s.conn.hoScope = .interBscIn ∧ s.conn.aoip then
      let s := s.upd ({ · with hoFi := some .waitMgwEndpointToMsc })
      if x.fail then handoverEnd x .error s else .ok s
    else hoWaitRrHoDetect x s
  | .waitMgwEndpointToMsc, .mscMgwOk =>
    if x.completeFail then handoverEnd x .error s else hoWaitRrHoDetect x s
  | .waitMgwEndpointToMsc, .mscMgwFail => handoverEnd x .error s
  | .waitRrHoDetect, .rrHoDetect =>
    if s.conn.hoScope = .interBscIn ∧ x.fail then handoverEnd x .error s
    else if s.conn.hoNewLchan.isNone then .error .nullDeref
    else .ok (s.upd ({ · with hoFi := some .waitRrHoComplete }))
  | .waitRrHoDetect, .rrHoComplete => hoWaitLchanEstablished x s
  | .waitRrHoDetect, .rrHoFail => handoverEnd x .failRrHoFail s
  | .waitRrHoComplete, .rrHoDetect | .waitRrHoComplete, .lchanEstablished _ => .ok s
  | .waitRrHoComplete, .rrHoComplete => hoWaitLchanEstablished x s
  | .waitRrHoComplete, .rrHoFail => handoverEnd x .failRrHoFail s
  | .waitLchanEstablished, .lchanEstablished _ => handoverEnd x .ok s
  | .outWaitHoCommand, .bssmapHoCommand l3Info =>
    if !l3Info ∨ x.fail then handoverEnd x .error s
    else .ok (s.upd ({ · with hoFi := some .outWaitClear }))
  | .outWaitClear, .rrHoFail => handoverEnd x .failRrHoFail s
  | _, _ => .error .assertFailed

/-- `osmo_fsm_inst_dispatch` on a handover FSM. -/
def hoDispatch (x : Env) (voice : Bool) (ev : HoEvent) (s : Ctx) : Outcome :=
  match s.conn.hoFi with
  | none => .ok s
  | some st => match hoFsm.verdict st ev with
    | .allState => hoAllstate x st ev s
    | .action => hoAction x voice st ev s
    | .notPermitted => .ok s

/-- `ho_fsm_timer_cb`; HO_ST_NOT_STARTED has no timer. -/
def hoTimeout (x : Env) (s : Ctx) : Outcome :=
  match s.conn.hoFi with
  | none | some .notStarted => .ok s
  | some _ => handoverEnd x .failTimeout s

end Handover

section Connection

def gsconReleaseLchans (x : Env) (s : Ctx) : Outcome := do
  let s ← (if s.conn.hoFi.isSome then handoverEnd x .connRelease s else .ok s : Outcome)
  return (assignmentReset s).upd ({ · with lchan := none })

def gsconLchanReleasing (x : Env) (l : LchanId) (s : Ctx) : Outcome := do
  let s ← (if s.conn.assignmentNewLchan = some l then do
      let s ← assignmentDispatch x (.lchanError l) s
      return s.upd ({ · with assignmentNewLchan := none })
    else .ok s : Outcome)
  let s ← (if s.conn.hoNewLchan = some l then hoDispatch x false (.lchanError l) s else .ok s : Outcome)
  let s := if s.conn.lchan = some l then s.upd ({ · with lchan := none }) else s
  return if s.conn.lchan.isNone then connStateChg .clearing s else s

def gsconForgetLchan (l : LchanId) (s : Ctx) : Ctx :=
  s.upd fun k => { k with
    assignmentNewLchan := if k.assignmentNewLchan = some l then none else k.assignmentNewLchan
    hoNewLchan := if k.hoNewLchan = some l then none else k.hoNewLchan
    lchan := if k.lchan = some l then none else k.lchan }

/-- The events of a connection, its assignment and its handover. -/
inductive Event where
  | aConnCfm
  | assignmentStart (req : AssignmentRequest)
  | handoverStart (target : HoTarget)
  | assignment (ev : AssignmentEvent)
  | assignmentTimeout
  | ho (ev : HoEvent) (voice : Bool)
  | hoTimeout
  | hoCommandWithoutL3
  | lchanReleasing (l : LchanId)
  | forgetLchan (l : LchanId)
  | aClearCmd
  | moveToMscFailed

/-- An event is handled. The events of the connection FSM come in only where
`gscon_fsm_states` has them. -/
def handle (x : Env) (e : Event) (s : Ctx) : Outcome :=
  match e with
  | .aConnCfm => .ok (if gsconFsm.inEvent s.conn.fi .aConnCfm then connStateChg .active s else s)
  | .assignmentStart req =>
    if gsconFsm.inEvent s.conn.fi .assignmentStart ∧ s.conn.lchan.isSome then
      assignmentFsmStart x req (connStateChg .assignment s)
    else .ok s
  | .handoverStart target =>
    if gsconFsm.inEvent s.conn.fi .handoverStart then
      handoverStart x target (connStateChg .handover (s.inc .handoverAttempted))
    else .ok s
  | .assignment ev => assignmentDispatch x ev s
  | .assignmentTimeout => .ok (assignmentTimeout s)
  | .ho ev voice => hoDispatch x voice ev s
  | .hoTimeout => hoTimeout x s
  | .hoCommandWithoutL3 => if s.conn.hoFi.isSome then handoverEnd x .error s else .ok s
  | .lchanReleasing l => gsconLchanReleasing x l s
  | .forgetLchan l => .ok (gsconForgetLchan l s)
  | .aClearCmd => gsconReleaseLchans x (connStateChg .clearing s)
  | .moveToMscFailed => gsconReleaseLchans x s

end Connection

structure Net where
  live : Finset ConnId := ∅
  conn : ConnId → Conn := fun _ => {}
  ctr : BscCtr → Nat := fun _ => 0

/-- A mobile starts a connection, the MSC starts one with a Handover Request, a
connection gets an event, or it is terminated. -/
inductive Input where
  | connect (c : ConnId) (aoip : Bool) (l : LchanId)
  | nConnect (c : ConnId) (aoip : Bool) (x : Env) (parses : Bool) (new : Option LchanId)
  | conn (c : ConnId) (x : Env) (e : Event)
  | term (c : ConnId) (x : Env)

def Net.after (n : Net) (c : ConnId) (s : Ctx) : Net :=
  { n with
    conn := Function.update n.conn c s.conn
    ctr := fun ctr => n.ctr ctr + s.ctrs.count ctr }

/-- `gscon_pre_term` releases the lchans; the assignment FSM, which is a child of the
connection's, ends with it, and nothing counts that. -/
def step (n : Net) : Input → Except Fault Net
  | .connect c aoip l =>
    if c ∈ n.live then .ok n
    else
      let n := { n with live := insert c n.live }
      .ok (n.after c (connStateChg .waitCc ⟨{ aoip := aoip, lchan := some l },[]⟩))
  | .nConnect c aoip x parses new =>
    if c ∈ n.live then .ok n
    else do
      let n := { n with live := insert c n.live }
      return n.after c (← handoverStartInterBscIn x parses new ⟨{ aoip := aoip },[]⟩)
  | .conn c x e =>
    if c ∈ n.live then do
      return n.after c (← handle x e ⟨n.conn c,[]⟩)
    else .ok n
  | .term c x =>
    if c ∈ n.live then do
      let s ← gsconReleaseLchans x ⟨n.conn c,[]⟩
      return { n.after c s with live := n.live.erase c }
    else .ok n

end OsmoBsc.Counters
