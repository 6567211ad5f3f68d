import OsmoBsc.Chan.Types
set_option autoImplicit false

namespace OsmoBsc.Chan
open EventFsm

/-- `ts_fsm_states` and `ts_fsm.allstate_event_mask`. -/
def tsFsm : Fsm TsState TsEvent where
  inEvent st ev := match st, ev with
    | .notInitialized, .omlReady => true
    | .notInitialized, .rslReady => true
    | .waitPdchAct, .pdchActAck => true
    | .waitPdchAct, .pdchActNack => true
    | .waitPdchDeact, .pdchDeactAck => true
    | .waitPdchDeact, .pdchDeactNack => true
    | _, .lchanRequested _ => true
    | _, .lchanUnused _ => true
    | _, _ => false
  outState st st' := match st, st' with
    | .notInitialized, .unused => true
    | .notInitialized, .borken => true
    | .unused, .waitPdchAct => true
    | .unused, .inUse => true
    | .unused, .notInitialized => true
    | .unused, .borken => true
    | .waitPdchAct, .pdch => true
    | .waitPdchAct, .unused => true
    | .waitPdchAct, .borken => true
    | .waitPdchAct, .notInitialized => true
    | .pdch, .waitPdchDeact => true
    | .pdch, .notInitialized => true
    | .pdch, .borken => true
    | .waitPdchDeact, .inUse => true
    | .waitPdchDeact, .unused => true
    | .waitPdchDeact, .borken => true
    | .waitPdchDeact, .notInitialized => true
    | .inUse, .unused => true
    | .inUse, .notInitialized => true
    | .inUse, .borken => true
    | .borken, .notInitialized => true
    | _, _ => false
  allState
    | .omlDown => true
    | .rslDown => true
    | _ => false

/-- `lchan_state_is`: an lchan without FSM counts as unused. -/
def Lchan.stateIs (lchan : Lchan) (st : LchanState) : Bool :=
  match lchan.fi with
  | none => st == .unused
  | some st' => st' == st

namespace Bsc

/-- The condition under which `ts_as_pchan_for_each_lchan` goes on with the
lchan at index `i`. -/
def hasLchanAt (w : Bsc) (t : TsId) (asPchan : Pchan) (i : Nat) : Bool :=
  decide (i < 8) && (w.lchan ⟨t,i⟩).fi.isSome && decide (i < pchanSubslots asPchan)

/-- The lchans that `ts_as_pchan_for_each_lchan` visits from index `i` on, at
most `n` of them. -/
def lchansFrom (w : Bsc) (t : TsId) (asPchan : Pchan) : Nat → Nat → List LchanId
  | 0, _ => []
  | n+1, i =>
    if w.hasLchanAt t asPchan i then ⟨t,i⟩ :: lchansFrom w t asPchan n (i+1)
    else []

/-- `ts_for_each_potential_lchan` where the body changes nothing. -/
def potentialLchans (w : Bsc) (t : TsId) : List LchanId :=
  w.lchansFrom t (w.ts t).pchanOnInit 8 0

def tsLchansWaiting (w : Bsc) (t : TsId) : Nat :=
  ((w.potentialLchans t).filter fun l => (w.lchan l).fi == some .waitTsReady).length

def tsCountActiveLchans (w : Bsc) (t : TsId) : Nat :=
  ((w.lchansFrom t (w.ts t).pchanIs 8 0).filter fun l => (w.lchan l).fi != some .unused).length

end Bsc

inductive LchanSanity where
  | insane
  | readyToGo
  | needsPchanChange
  deriving DecidableEq, Repr

def isLchanSane (w : Bsc) (t : TsId) (l : LchanId) : LchanSanity :=
  let type := (w.lchan l).type
  if l.ts ≠ t then .insane
  else if (w.lchan l).fi.isNone then .insane
  else if gsmLchanTypeByPchan (w.ts t).pchanIs = some type then .readyToGo
  else match (w.ts t).pchanOnInit, type with
    | .tchFTchHPdch, .tchH => .needsPchanChange
    | .tchFTchHPdch, .tchF => .needsPchanChange
    | .tchFPdch, .tchF => .needsPchanChange
    | _, _ => .insane

def tsIsCapableOfLchant (ts : Ts) (type : ChanT) : Bool :=
  match ts.pchanOnInit, type with
  | .tchF, .tchF => true
  | .tchH, .tchH => true
  | .tchFPdch, .tchF | .tchFPdch, .pdtch => true
  | .tchFTchHPdch, .tchF | .tchFTchHPdch, .tchH | .tchFTchHPdch, .pdtch => true
  | .pdch, .pdtch => true
  | .ccch, .ccch => true
  | .ccchSdcch4Cbch, .ccch | .ccchSdcch4Cbch, .sdcch => true
  | .ccchSdcch4, .ccch | .ccchSdcch4, .sdcch => true
  | .sdcch8Sacch8c, .ccch | .sdcch8Sacch8c, .sdcch => true
  | .sdcch8Sacch8cCbch, .ccch | .sdcch8Sacch8cCbch, .sdcch => true
  | _, _ => false

def tsIsCapableOfPchan (ts : Ts) (pchan : Pchan) : Bool :=
  match ts.pchanOnInit with
  | .tchFPdch => pchan == .tchF || pchan == .pdch
  | .tchFTchHPdch => pchan == .tchF || pchan == .tchH || pchan == .pdch
  | .ccchSdcch4Cbch => pchan == .ccchSdcch4Cbch || pchan == .ccchSdcch4 || pchan == .ccch
  | .ccchSdcch4 => pchan == .ccchSdcch4 || pchan == .ccch
  | .sdcch8Sacch8cCbch => pchan == .sdcch8Sacch8cCbch || pchan == .sdcch8Sacch8c
  | p => p == pchan

/-- `ts_is_usable`, as far as the timeslot itself decides it. -/
def tsIsUsable (ts : Ts) : Bool :=
  match ts.fi with
  | .notInitialized | .borken => false
  | _ => true

def tsUsableAsPchan (w : Bsc) (t : TsId) (asPchan : Pchan) : Bool :=
  let waiting := (w.potentialLchans t).find? fun l => (w.lchan l).fi == some .waitTsReady
  if tsIsUsable (w.ts t) then
    match (w.ts t).fi, waiting with
    | .inUse, _ => (w.ts t).pchanIs == asPchan
    | _, some l => gsmPchanByLchanType (w.lchan l).type == asPchan
    | _, none => tsIsCapableOfPchan (w.ts t) asPchan
  else false

def tsLchanDispatch (w : Bsc) (l : LchanId) (ev : LchanEvent) : List Call :=
  if (w.lchan l).fi.isSome then [.lchanDispatch l ev,.assertNotWaiting l] else []

/-- The assertion at the end of `lchan_dispatch`. -/
def assertNotWaiting (l : LchanId) (w : Bsc) : Outcome :=
  match (w.lchan l).fi with
  | none => .error .nullDeref
  | some st => if st = .waitTsReady then .error .assertFailed else .ok (w,[])

/-- `ts_lchans_dispatch` from index `i` on; `st` is absent for -1. -/
def tsLchansDispatch (t : TsId) (st : Option LchanState) (ev : LchanEvent) (i : Nat) (w : Bsc) :
    Outcome :=
  if w.hasLchanAt t (w.ts t).pchanOnInit i then
    if st.all ((w.lchan ⟨t,i⟩).stateIs ·) then
      .ok (w,tsLchanDispatch w ⟨t,i⟩ ev ++ [Call.tsLchansDispatch t st ev (i+1)])
    else .ok (w,[.tsLchansDispatch t st ev (i+1)])
  else .ok (w,[])

def tsFsmError (t : TsId) (stateChg : TsState) : List Call :=
  [.tsLchansDispatch t (some .waitTsReady) .tsError 0,.tsErrorChg t stateChg]

def tsSetupLchans (cfg : TsId → TsCfg) (t : TsId) (w : Bsc) : Bsc :=
  let pchan := (cfg t).pchanFromConfig
  let pchanIs := match pchan with
    | .tchFTchHPdch => .none
    | .tchFPdch => .tchF
    | p => p
  { w with
    ts := Function.update w.ts t { w.ts t with pchanOnInit := pchan, pchanIs := pchanIs }
    lchan := fun l =>
      if l.ts = t ∧ l.nr < pchanSubslots pchan ∧ (w.lchan l).fi = none then
        { w.lchan l with fi := some .unused }
      else w.lchan l }

def tsUnusedOnenter (cfg : TsId → TsCfg) (t : TsId) (w : Bsc) : Outcome :=
  if w.tsLchansWaiting t ≠ 0 then .ok (w,tsFsmError t .borken)
  else match (w.ts t).pchanOnInit with
    | .tchFTchHPdch | .tchFPdch =>
      if !(cfg t).gprs then .ok (w,[])
      else if !(w.ts t).pdchActAllowed then .ok (w,[])
      else .ok (w,[.tsStateChg t .waitPdchAct])
    | .ccchSdcch4Cbch | .sdcch8Sacch8cCbch =>
      if (w.lchan ⟨t,2⟩).fi.isNone then .error .assertFailed
      else .ok (w.updLchan ⟨t,2⟩ ({ · with type := .cbch }),[.lchanStateChg ⟨t,2⟩ .cbch])
    | _ => .ok (w,[])

def tsPdchOnenter (t : TsId) (w : Bsc) : Outcome :=
  match (w.ts t).pchanOnInit with
  | .tchFTchHPdch | .tchFPdch | .pdch =>
    let w := w.updTs t ({ · with pchanIs := .pdch })
    if w.tsLchansWaiting t ≠ 0 then .ok (w,[.tsStateChg t .waitPdchDeact]) else .ok (w,[])
  | _ => .ok (w,tsFsmError t .borken)

def tsOnenter (cfg : TsId → TsCfg) (x : Foreign) (t : TsId) (st : TsState) (w : Bsc) : Outcome :=
  match st with
  | .unused => tsUnusedOnenter cfg t w
  | .waitPdchAct => .ok (w,if x.fail then tsFsmError t .borken else [])
  | .pdch => tsPdchOnenter t w
  | .waitPdchDeact => .ok (w,if x.fail then tsFsmError t .borken else [])
  | .inUse => .ok (w.updTs t ({ · with pdchActAllowed := true }),[.tsInUseOnenter t 0 .none])
  | .notInitialized | .borken => .ok (w,[])

/-- `osmo_fsm_inst_state_chg` on a timeslot FSM. -/
def tsStateChg (cfg : TsId → TsCfg) (x : Foreign) (t : TsId) (st : TsState) (w : Bsc) : Outcome :=
  if tsFsm.outState (w.ts t).fi st then tsOnenter cfg x t st (w.updTs t ({ · with fi := st }))
  else .ok (w,[])

/-- The end of `ts_fsm_error`. -/
def tsErrorChg (cfg : TsId → TsCfg) (x : Foreign) (t : TsId) (st : TsState) (w : Bsc) : Outcome :=
  if (w.ts t).fi ≠ st then tsStateChg cfg x t st w else .ok (w,[])

/-- The loop of `ts_fsm_in_use_onenter` from index `i` on, and what follows it. -/
def tsInUseOnenter (t : TsId) (i : Nat) (activatingType : ChanT) (w : Bsc) : Outcome :=
  let l : LchanId := ⟨t,i⟩
  let type := (w.lchan l).type
  if w.hasLchanAt t (w.ts t).pchanOnInit i then
    if (w.lchan l).stateIs .unused then .ok (w,[.tsInUseOnenter t (i+1) activatingType])
    else
      let ok := (type == .tchH || type == .tchF || type == .sdcch)
        && tsIsCapableOfLchant (w.ts t) type
      if !ok then
        if (w.lchan l).stateIs .waitTsReady then
          .ok (w,tsLchanDispatch w l .tsError ++ [Call.tsInUseOnenter t (i+1) activatingType])
        else .ok (w,[.tsInUseOnenter t (i+1) activatingType])
      else if activatingType = .none then .ok (w,[.tsInUseOnenter t (i+1) type])
      else if activatingType ≠ type then
        .ok (w,tsLchanDispatch w l .tsError ++ [Call.tsInUseOnenter t (i+1) activatingType])
      else .ok (w,[.tsInUseOnenter t (i+1) activatingType])
  else match activatingType with
    | .sdcch | .tchF | .tchH =>
      if tsIsCapableOfLchant (w.ts t) activatingType then
        let w := if (w.ts t).pchanOnInit = .tchFTchHPdch then
            w.updTs t ({ · with pchanIs := gsmPchanByLchanType activatingType })
          else w
        .ok (w,[.tsLchansDispatch t (some .waitTsReady) .tsReady 0])
      else .ok (w,[.tsStateChg t .unused])
    | .none => .ok (w,[.tsStateChg t .unused])
    | _ => .ok (w,[.tsLchansDispatch t (some .waitTsReady) .tsError 0,.tsStateChg t .unused])

/-- `ts_terminate_lchan_fsms` from index `i` on, and the end of TS_EV_OML_DOWN. -/
def tsTerminateLchanFsms (t : TsId) (i : Nat) (w : Bsc) : Outcome :=
  if w.hasLchanAt t (w.ts t).pchanOnInit i then
    .ok (w,[.lchanTerm ⟨t,i⟩,.tsTerminateLchanFsms t (i+1)])
  else .ok (w.updTs t ({ · with pchanIs := .none, pchanOnInit := .none }),[])

/-- `ts_fsm_not_initialized`. The error of a request goes to the timeslot FSM
itself, where LCHAN_EV_TS_ERROR has the number of TS_EV_RSL_READY. -/
def tsFsmNotInitialized (cfg : TsId → TsCfg) (t : TsId) (ev : TsEvent) (w : Bsc) : Outcome :=
  match ev with
  | .omlReady =>
    let w := tsSetupLchans cfg t
      (w.updTs t ({ · with pdchActAllowed := true, isOmlReady := true }))
    .ok (w,if (w.ts t).isRslReady then [.tsStateChg t .unused] else [])
  | .rslReady =>
    let w := w.updTs t ({ · with pdchActAllowed := true, isRslReady := true })
    .ok (w,if (w.ts t).isOmlReady then [.tsStateChg t .unused] else [])
  | .lchanRequested l =>
    .ok (w,if (w.lchan l).fi.isSome then [.tsDispatch t .rslReady] else [])
  | .lchanUnused _ => .ok (w,[])
  | _ => .error .assertFailed

def tsFsmUnused (t : TsId) (ev : TsEvent) (w : Bsc) : Outcome :=
  match ev with
  | .lchanRequested l => match isLchanSane w t l with
    | .needsPchanChange | .readyToGo => .ok (w,[.tsStateChg t .inUse])
    | .insane => .ok (w,[.lchanDispatch l .tsError])
  | .lchanUnused _ => .ok (w,[])
  | _ => .error .assertFailed

def tsFsmWaitPdchAct (t : TsId) (ev : TsEvent) (w : Bsc) : Outcome :=
  match ev with
  | .pdchActAck => .ok (w,[.tsStateChg t .pdch])
  | .pdchActNack => .ok (w.updTs t ({ · with pdchActAllowed := false }),tsFsmError t .unused)
  | .lchanRequested l => match isLchanSane w t l with
    | .readyToGo | .needsPchanChange => .ok (w,[])
    | .insane => .ok (w,tsLchanDispatch w l .tsError)
  | .lchanUnused _ => .ok (w,[])
  | _ => .error .assertFailed

def tsFsmPdch (t : TsId) (ev : TsEvent) (w : Bsc) : Outcome :=
  match ev with
  | .lchanRequested l => match isLchanSane w t l with
    | .needsPchanChange => .ok (w,[.tsStateChg t .waitPdchDeact])
    | .readyToGo => .ok (w,tsFsmError t .borken)
    | .insane => .ok (w,tsLchanDispatch w l .tsError)
  | .lchanUnused _ => .ok (w,[])
  | _ => .error .assertFailed

def tsFsmWaitPdchDeact (t : TsId) (ev : TsEvent) (w : Bsc) : Outcome :=
  match ev with
  | .pdchDeactAck => match (w.ts t).pchanOnInit with
    | .tchFTchHPdch => .ok (w.updTs t ({ · with pchanIs := .none }),[.tsStateChg t .inUse])
    | .tchFPdch => .ok (w.updTs t ({ · with pchanIs := .tchF }),[.tsStateChg t .inUse])
    | _ => .ok (w,tsFsmError t .borken)
  | .pdchDeactNack => .ok (w,tsFsmError t .borken)
  | .lchanRequested l => match isLchanSane w t l with
    | .needsPchanChange => .ok (w,[])
    | .readyToGo => .ok (w,tsFsmError t .borken)
    | .insane => .ok (w,tsLchanDispatch w l .tsError)
  | .lchanUnused _ => .ok (w,[])
  | _ => .error .assertFailed

def tsFsmInUse (t : TsId) (ev : TsEvent) (w : Bsc) : Outcome :=
  match ev with
  | .lchanUnused _ => .ok (w,if w.tsCountActiveLchans t = 0 then [.tsStateChg t .unused] else [])
  | .lchanRequested l => match isLchanSane w t l with
    | .readyToGo => .ok (w,[.lchanDispatch l .tsReady])
    | .needsPchanChange | .insane => .ok (w,tsLchanDispatch w l .tsError)
  | _ => .error .assertFailed

def tsFsmBorken (ev : TsEvent) (w : Bsc) : Outcome :=
  match ev with
  | .lchanUnused _ => .ok (w,[])
  | .lchanRequested l => .ok (w,tsLchanDispatch w l .tsError)
  | _ => .error .assertFailed

def tsFsmAllstate (t : TsId) (ev : TsEvent) (w : Bsc) : Outcome :=
  let down (w : Bsc) : Bsc :=
    if tsFsm.outState (w.ts t).fi .notInitialized then
      w.updTs t ({ · with fi := .notInitialized })
    else w
  match ev with
  | .omlDown =>
    let w := down (w.updTs t ({ · with isOmlReady := false }))
    if (w.ts t).fi ≠ .notInitialized then .error .assertFailed
    else .ok (w,[.tsTerminateLchanFsms t 0])
  | .rslDown =>
    let w := down (w.updTs t ({ · with isRslReady := false }))
    if (w.ts t).fi ≠ .notInitialized then .error .assertFailed
    else .ok (w.updTs t ({ · with pchanIs := .none }),[.tsLchansDispatch t none .tsError 0])
  | _ => .error .assertFailed

/-- `osmo_fsm_inst_dispatch` on a timeslot FSM. -/
def tsDispatch (cfg : TsId → TsCfg) (t : TsId) (ev : TsEvent) (w : Bsc) : Outcome :=
  match tsFsm.verdict (w.ts t).fi ev with
  | .allState => tsFsmAllstate t ev w
  | .notPermitted => .ok (w,[])
  | .action => match (w.ts t).fi with
    | .notInitialized => tsFsmNotInitialized cfg t ev w
    | .unused => tsFsmUnused t ev w
    | .waitPdchAct => tsFsmWaitPdchAct t ev w
    | .pdch => tsFsmPdch t ev w
    | .waitPdchDeact => tsFsmWaitPdchDeact t ev w
    | .inUse => tsFsmInUse t ev w
    | .borken => tsFsmBorken ev w

/-- `ts_fsm_timer_cb`; only the two PDCH states have a timer. -/
def tsTimeout (t : TsId) (w : Bsc) : Outcome :=
  match (w.ts t).fi with
  | .waitPdchAct | .waitPdchDeact => .ok (w,tsFsmError t .borken)
  | _ => .ok (w,[])

end OsmoBsc.Chan
