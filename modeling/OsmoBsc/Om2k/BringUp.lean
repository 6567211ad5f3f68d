import Mathlib.Logic.Function.Basic
import OsmoBsc.Lib.Fsm
set_option autoImplicit false

namespace OsmoBsc.Om2k
open EventFsm

/-- The class in the address of a managed object; it is not set before `om2k_mo_init`. -/
inductive Cls where
  | unset
  | trxc
  | ts
  | tf
  | is
  | con
  | dp
  | cf
  | tx
  | rx
  deriving DecidableEq, Repr

/-- The managed objects that `get_om2k_mo` finds. -/
inductive Mo where
  | cf
  | tf
  | con
  | is
  | trxc (trx : Nat)
  | tx (trx : Nat)
  | rx (trx : Nat)
  | ts (trx nr : Nat)
  deriving DecidableEq, Repr

/-- `mo->addr.class`: of the TRXs, `bootstrap_om_bts` initializes only the first. -/
def Mo.cls : Mo → Cls
  | .cf => .cf
  | .tf => .tf
  | .con => .con
  | .is => .is
  | .trxc 0 => .trxc
  | .tx 0 => .tx
  | .rx 0 => .rx
  | .ts 0 _ => .ts
  | _ => .unset

/-- The objects with a configuration. -/
inductive Conf where
  | con
  | is
  | rx
  | tf
  | ts
  | tx
  deriving DecidableEq, Repr

/-- The message types that `om2k_mo_fsm_recvmsg` is given. -/
inductive MsgType where
  | connectCompl
  | connectRej
  | resetCompl
  | resetRej
  | startReqAck
  | startReqRej
  | startRes
  | confReqAck (c : Conf)
  | confReqRej (c : Conf)
  | confRes (c : Conf)
  | enableReqAck
  | enableReqRej
  | enableRes
  | opInfoAck
  | opInfoRej
  | other (code : Nat)
  deriving DecidableEq, Repr

/-- `struct om2k_decoded_msg` with the elements for the MO state and the accordance. -/
structure Msg where
  msgType : MsgType
  moState : Option UInt8 := none
  accordanceInd : Option UInt8 := none
  deriving DecidableEq, Repr

/-- `enum om2k_mo_fsm_state`. -/
inductive MoSt where
  | init
  | waitConnCompl
  | waitResCompl
  | waitStartAccept
  | waitStartRes
  | waitCfgAccept
  | waitCfgRes
  | waitEnableAccept
  | waitEnableRes
  | waitOpinfoAccept
  | done
  | error
  deriving DecidableEq, Repr

/-- `enum om2k_event_name`. -/
inductive MoEvent where
  | start
  | rxConnCompl
  | rxResetCompl
  | rxStartReqAccept
  | rxStartRes
  | rxCfgReqAccept
  | rxCfgRes
  | rxEnaReqAccept
  | rxEnaRes
  | rxOpinfoAcc
  deriving DecidableEq, Repr

/-- `om2k_is_states`. -/
def moFsm : Fsm MoSt MoEvent where
  allState _ := false
  inEvent
    | .init, .start | .waitConnCompl, .rxConnCompl | .waitResCompl, .rxResetCompl
    | .waitStartAccept, .rxStartReqAccept | .waitStartRes, .rxStartRes
    | .waitCfgAccept, .rxCfgReqAccept | .waitCfgRes, .rxCfgRes
    | .waitEnableAccept, .rxEnaReqAccept | .waitEnableRes, .rxEnaRes
    | .waitOpinfoAccept, .rxOpinfoAcc => true
    | _, _ => false
  outState
    | .done, _ | .error, _ => false
    | _, .done | _, .error => true
    | .init, .waitConnCompl | .init, .waitStartAccept | .init, .waitResCompl
    | .waitConnCompl, .waitStartAccept | .waitConnCompl, .waitResCompl
    | .waitResCompl, .waitStartAccept | .waitStartAccept, .waitStartRes
    | .waitStartRes, .waitCfgAccept | .waitStartRes, .waitOpinfoAccept
    | .waitCfgAccept, .waitCfgRes | .waitCfgRes, .waitEnableAccept
    | .waitEnableAccept, .waitEnableRes | .waitEnableRes, .waitOpinfoAccept => true
    | _, _ => false

/-- The event that `om2k_mo_fsm_recvmsg` makes of a message. -/
def MsgType.event : MsgType → Option MoEvent
  | .connectCompl | .connectRej => some .rxConnCompl
  | .resetCompl | .resetRej => some .rxResetCompl
  | .startReqAck | .startReqRej => some .rxStartReqAccept
  | .startRes => some .rxStartRes
  | .confReqAck _ => some .rxCfgReqAccept
  | .confRes _ => some .rxCfgRes
  | .enableReqAck | .enableReqRej => some .rxEnaReqAccept
  | .enableRes => some .rxEnaRes
  | .opInfoAck | .opInfoRej => some .rxOpinfoAcc
  | .confReqRej _ | .other _ => none

/-- The state that the action of a state, `om2k_mo_st_init` and so on, changes to. -/
def moAction (cls : Cls) (msg : Msg) : MoSt → Option MoSt
  | .init => some (if cls = .cf then .waitStartAccept else if cls = .trxc then .waitResCompl else .waitConnCompl)
  | .waitConnCompl => some .waitResCompl
  | .waitResCompl => some .waitStartAccept
  | .waitStartAccept =>
    if msg.msgType = .startReqAck then some .waitStartRes
    else if msg.msgType = .startReqRej then some .error else none
  | .waitStartRes => some (if cls = .cf ∨ cls = .trxc then .waitOpinfoAccept
    else if cls = .dp then .waitEnableAccept else .waitCfgAccept)
  | .waitCfgAccept => some .waitCfgRes
  | .waitCfgRes => some (if msg.accordanceInd = some 0 then .waitEnableAccept else .error)
  | .waitEnableAccept =>
    if msg.msgType = .enableReqRej then some .error
    else if msg.msgType = .enableReqAck then some .waitEnableRes else none
  | .waitEnableRes => some .waitOpinfoAccept
  | .waitOpinfoAccept => some .done
  | .done | .error => none

/-- `osmo_fsm_inst_dispatch` on the FSM of a managed object. -/
def moDispatch (cls : Cls) (st : MoSt) (ev : MoEvent) (msg : Msg) : MoSt :=
  if moFsm.inEvent st ev then match moAction cls msg st with
    | some st' => if moFsm.outState st st' then st' else st
    | none => st
  else st

def moFsmRecvmsg (cls : Cls) (st : MoSt) (msg : Msg) : MoSt :=
  match msg.msgType.event with
  | some ev => moDispatch cls st ev msg
  | none => st

/-- OM2K_MO_S_RESET and OM2K_MO_S_ENABLED. -/
def moStateReset : UInt8 := 0

def moStateEnabled : UInt8 := 2

/-- The message refuses what the FSM in this state has requested: a reject, or a result that
tells of an object that is not started, not configured as requested or not enabled. -/
def refuses (msg : Msg) : MoSt → Bool
  | .waitConnCompl => msg.msgType = .connectRej
  | .waitResCompl => msg.msgType = .resetRej
  | .waitStartAccept => msg.msgType = .startReqRej
  | .waitStartRes => msg.msgType = .startRes && msg.moState = some moStateReset
  | .waitCfgAccept => match msg.msgType with
    | .confReqRej _ => true
    | _ => false
  | .waitCfgRes => match msg.msgType with
    | .confRes _ => msg.accordanceInd != some 0
    | _ => false
  | .waitEnableAccept => msg.msgType = .enableReqRej
  | .waitEnableRes => msg.msgType = .enableRes && msg.moState.any (· != moStateEnabled)
  | .waitOpinfoAccept => msg.msgType = .opInfoRej
  | _ => false

/-- An FSM of a managed object, and whether a request of it was refused. -/
structure MoFsm where
  mo : Mo
  st : MoSt
  refused : Bool := false
  deriving DecidableEq, Repr

inductive TrxSt where
  | init
  | waitTrxc
  | waitTx
  | waitRx
  | waitTs
  | done
  | error
  deriving DecidableEq, Repr

/-- An FSM of a TRX, with `next_ts_nr`. -/
structure TrxFsm where
  trx : Nat
  st : TrxSt
  nextTsNr : Nat := 0
  deriving DecidableEq, Repr

inductive BtsSt where
  | init
  | waitCf
  | waitIs
  | waitCon
  | waitTf
  | waitTrx
  | done
  | error
  deriving DecidableEq, Repr

/-- The FSM of a BTS that one link-up starts, with `next_trx_nr` and its live children: one
TRX and one managed object at most. The FSMs of objects that ended are kept in the state they
ended in. -/
structure BringUp where
  bts : BtsSt := .init
  nextTrxNr : UInt8 := 0
  trx : Option TrxFsm := none
  mo : Option MoFsm := none
  ended : List MoFsm := []
  deriving DecidableEq, Repr

/-- `om2k_mo_fsm_start`, but for the pointer of the object. -/
def BringUp.moFsmStart (t : BringUp) (mo : Mo) : BringUp :=
  { t with mo := some { mo := mo, st := moDispatch mo.cls .init .start ⟨.other 0,none,none⟩ } }

/-- `om2k_trx_fsm_start`, with `om2k_trx_s_init`. -/
def BringUp.trxFsmStart (t : BringUp) (trx : Nat) : BringUp :=
  ({ t with trx := some { trx := trx, st := .waitTrxc } } : BringUp).moFsmStart (.trxc trx)

/-- The events of `enum om2k_bts_event` that end a wait. -/
inductive BtsEvent where
  | cfDone
  | isDone
  | conDone
  | tfDone
  | trxDone
  deriving DecidableEq, Repr

/-- `osmo_fsm_inst_dispatch` on the FSM of the BTS. -/
def BringUp.btsDispatch (numTrx : Nat) (t : BringUp) : BtsEvent → BringUp
  | .cfDone => if t.bts = .waitCf then ({ t with bts := .waitTf } : BringUp).moFsmStart .tf else t
  | .tfDone => if t.bts = .waitTf then ({ t with bts := .waitCon } : BringUp).moFsmStart .con else t
  | .conDone => if t.bts = .waitCon then ({ t with bts := .waitIs } : BringUp).moFsmStart .is else t
  | .isDone =>
    if t.bts = .waitIs then ({ t with bts := .waitTrx, nextTrxNr := 1 } : BringUp).trxFsmStart 0 else t
  | .trxDone =>
    if t.bts = .waitTrx then
      if t.nextTrxNr.toNat < numTrx then
        ({ t with nextTrxNr := t.nextTrxNr + 1 } : BringUp).trxFsmStart t.nextTrxNr.toNat
      else { t with bts := .done }
    else t

/-- The events of `enum om2k_trx_event` that end a wait. -/
inductive TrxEvent where
  | trxcDone
  | txDone
  | rxDone
  | tsDone
  deriving DecidableEq, Repr

/-- `osmo_fsm_inst_dispatch` on the FSM of the TRX. -/
def BringUp.trxDispatch (numTrx : Nat) (t : BringUp) (ev : TrxEvent) : BringUp :=
  match t.trx with
  | none => t
  | some f => match ev with
    | .trxcDone =>
      if f.st = .waitTrxc then
        ({ t with trx := some { f with st := .waitTx } } : BringUp).moFsmStart (.tx f.trx)
      else t
    | .txDone =>
      if f.st = .waitTx then
        ({ t with trx := some { f with st := .waitRx } } : BringUp).moFsmStart (.rx f.trx)
      else t
    | .rxDone =>
      if f.st = .waitRx then
        ({ t with trx := some { f with st := .waitTs, nextTsNr := 1 } } : BringUp).moFsmStart (.ts f.trx 0)
      else t
    | .tsDone =>
      if f.st = .waitTs then
        if f.nextTsNr < 8 then
          ({ t with trx := some { f with nextTsNr := f.nextTsNr + 1 } } : BringUp).moFsmStart (.ts f.trx f.nextTsNr)
        else ({ t with trx := none } : BringUp).btsDispatch numTrx .trxDone
      else t

/-- The FSM of an object reports its end to its parent by the event that it was started with. -/
def BringUp.parentDispatch (numTrx : Nat) (t : BringUp) : Mo → BringUp
  | .cf => t.btsDispatch numTrx .cfDone
  | .tf => t.btsDispatch numTrx .tfDone
  | .con => t.btsDispatch numTrx .conDone
  | .is => t.btsDispatch numTrx .isDone
  | .trxc _ => t.trxDispatch numTrx .trxcDone
  | .tx _ => t.trxDispatch numTrx .txDone
  | .rx _ => t.trxDispatch numTrx .rxDone
  | .ts _ _ => t.trxDispatch numTrx .tsDone

/-- `om2k_mo_s_done_onenter` and `om2k_mo_s_error_onenter`, but for the pointer: the FSM is
terminated. -/
def BringUp.moEnd (numTrx : Nat) (t : BringUp) (f : MoFsm) : BringUp :=
  ({ t with mo := none, ended := t.ended ++ [f] } : BringUp).parentDispatch numTrx f.mo

/-- The BTS: its number of TRXs, the bring-ups so far, and of each `mo->fsm` whose bring-up the
FSM belongs to that it points to. -/
structure Bsc where
  numTrx : Nat
  started : Nat := 0
  bringUp : Nat → BringUp := fun _ => {}
  fsm : Mo → Option Nat := fun _ => none

/-- Bring-up `k` goes on to `t`; where an FSM of an object was started, its pointer is set. -/
def Bsc.put (bsc : Bsc) (k : Nat) (t : BringUp) : Bsc :=
  { bsc with
    bringUp := Function.update bsc.bringUp k t
    fsm := match t.mo with
      | some f => Function.update bsc.fsm f.mo (some k)
      | none => bsc.fsm }

/-- The FSM of an object goes to another state; in DONE and ERROR it ends, and its pointer is
cleared. -/
def Bsc.moStateChg (bsc : Bsc) (k : Nat) (f : MoFsm) : Bsc :=
  if f.st = .done ∨ f.st = .error then
    ({ bsc with fsm := Function.update bsc.fsm f.mo none } : Bsc).put k ((bsc.bringUp k).moEnd bsc.numTrx f)
  else { bsc with bringUp := Function.update bsc.bringUp k { bsc.bringUp k with mo := some f } }

/-- What can happen to the BTS: its OML link comes up, or that of one of its other TEIs, a link is
lost or OML is closed; a message is received for an object; the timer of an FSM of a bring-up
expires. -/
inductive Input where
  | teiUp (omlTei : Bool)
  | teiDn
  | closeOm
  | recv (mo : Mo) (msg : Msg)
  | moTimer (k : Nat)
  | trxTimer (k : Nat)
  | btsTimer (k : Nat)
  deriving DecidableEq, Repr

/-- One input. -/
def step (bsc : Bsc) : Input → Except Fault Bsc
  | .teiUp omlTei =>
    if omlTei then
      .ok (({ bsc with started := bsc.started + 1 } : Bsc).put bsc.started
        (({ bts := .waitCf } : BringUp).moFsmStart .cf))
    else .ok bsc
  | .teiDn | .closeOm => .ok bsc
  | .recv mo msg => match bsc.fsm mo with
    | none => .ok bsc
    | some k => match (bsc.bringUp k).mo with
      | some f =>
        if f.mo = mo then
          .ok (bsc.moStateChg k
            { f with st := moFsmRecvmsg mo.cls f.st msg, refused := f.refused || refuses msg f.st })
        else .error .useAfterFree
      | none => .error .useAfterFree
  | .moTimer k => match (bsc.bringUp k).mo with
    | some f => .ok (bsc.moStateChg k { f with st := .error })
    | none => .ok bsc
  | .trxTimer k => match (bsc.bringUp k).trx with
    | some f => .ok { bsc with
        bringUp := Function.update bsc.bringUp k { bsc.bringUp k with trx := some { f with st := .error } } }
    | none => .ok bsc
  | .btsTimer k =>
    let st := (bsc.bringUp k).bts
    if st = .init ∨ st = .done then .ok bsc
    else .ok { bsc with
      bringUp := Function.update bsc.bringUp k { bsc.bringUp k with bts := .error } }

/-- The states that runs of a BTS with `numTrx` TRXs reach by inputs that all meet `good`. -/
def Reachable (numTrx : Nat) (good : Bsc → Input → Prop) (bsc : Bsc) : Prop :=
  Reach step good (· = { numTrx := numTrx }) bsc

end OsmoBsc.Om2k
