import OsmoBsc.GsmData
import OsmoBsc.Lib.Fsm
import Mathlib.Logic.Function.Basic
set_option autoImplicit false

namespace OsmoBsc.Lcls
open EventFsm

inductive LclsState where
  | noLcls
  | notYetLs
  | notPossibleLs
  | noLongerLs
  | reqLclsNotSupp
  | locallySwitched
  | locallySwitchedWaitBreak
  | locallySwitchedWaitOtherBreak
  deriving DecidableEq, Repr

inductive LclsEventKind where
  | updateCfgCsc
  | applyCfgCsc
  | correlated
  | otherEnabled
  | otherBreak
  | otherDead
  deriving DecidableEq, Repr

/-- An LCLS event with the data it is dispatched with: the new config and
control octets, or the connection that is the sender. -/
inductive LclsEvent where
  | updateCfgCsc (config control : UInt8)
  | applyCfgCsc
  | correlated (sender : ConnId)
  | otherEnabled (sender : ConnId)
  | otherBreak (sender : ConnId)
  | otherDead (sender : ConnId)
  deriving DecidableEq, Repr

def LclsEvent.kind : LclsEvent → LclsEventKind
  | .updateCfgCsc _ _ => .updateCfgCsc
  | .applyCfgCsc => .applyCfgCsc
  | .correlated _ => .correlated
  | .otherEnabled _ => .otherEnabled
  | .otherBreak _ => .otherBreak
  | .otherDead _ => .otherDead

inductive LclsMode where
  | disabled
  | mgwLoop
  | btsLoop
  deriving DecidableEq, Repr

/-- `enum gsm0808_lcls_status`, as far as `lcls_get_status` returns it. -/
inductive LclsStatus where
  | na
  | notYetLs
  | notPossibleLs
  | noLongerLs
  | reqLclsNotSupp
  | locallySwitched
  deriving DecidableEq, Repr

def cfgBothWay : UInt8 := 0x00

def cfgNa : UInt8 := 0xff

def cscConnect : UInt8 := 0x00

def cscReleaseLcls : UInt8 := 0x02

def cscNa : UInt8 := 0xff

/-- The LCLS settings of `struct bsc_msc_data`. -/
structure Msc where
  lclsMode : LclsMode
  lclsCodecMismatchAllow : Bool
  deriving DecidableEq, Repr

/-- What the LCLS code reads of `struct gsm_lchan`. -/
structure Lchan where
  type : ChanT
  tchMode : ChanMode
  deriving DecidableEq, Repr

/-- The MSC side connection of the MGW endpoint; `rtpInfo` says whether
`osmo_mgcpc_ep_ci_get_rtp_info` has an answer for it. -/
structure Ci where
  rtpInfo : Bool
  deriving DecidableEq, Repr

inductive Redirect where
  | toPeer
  | toMsc
  deriving DecidableEq, Repr

/-- `struct gsm_subscriber_connection`, as far as the LCLS code uses it. `fi`
is the state of `lcls.fi`, absent once that FSM is terminated; `redirect` is
the last RTP redirection sent for the connection. -/
structure Conn where
  fi : Option LclsState
  globalCallRef : List UInt8
  config : UInt8
  control : UInt8
  other : Option ConnId
  lchan : Option Lchan
  mgwEndpointCiMsc : Option Ci
  msc : Msc
  redirect : Option Redirect
  deriving DecidableEq, Repr

/-- The connections in the order of `net->subscr_conns`, and the LCLS
notifications sent to the MSC, the newest first. -/
structure Net where
  subscrConns : List ConnId
  conn : ConnId → Conn
  notified : List (ConnId × LclsStatus)

def Net.upd (net : Net) (c : ConnId) (f : Conn → Conn) : Net :=
  { net with conn := Function.update net.conn c (f (net.conn c)) }

@[simp] theorem Net.upd_subscrConns (net : Net) (c : ConnId) (f : Conn → Conn) :
    (net.upd c f).subscrConns = net.subscrConns := rfl

@[simp] theorem Net.upd_notified (net : Net) (c : ConnId) (f : Conn → Conn) :
    (net.upd c f).notified = net.notified := rfl

@[simp] theorem Net.upd_conn_self (net : Net) (c : ConnId) (f : Conn → Conn) :
    (net.upd c f).conn c = f (net.conn c) := by simp [upd]

theorem Net.upd_conn_ne (net : Net) {c d : ConnId} (f : Conn → Conn) (h : d ≠ c) :
    (net.upd c f).conn d = net.conn d := by simp [upd,h]

def Net.setFi (net : Net) (c : ConnId) (st : LclsState) : Net :=
  net.upd c fun conn => { conn with fi := some st }

def Net.setOther (net : Net) (c : ConnId) (o : Option ConnId) : Net :=
  net.upd c fun conn => { conn with other := o }

def Net.setRedirect (net : Net) (c : ConnId) (r : Redirect) : Net :=
  net.upd c fun conn => { conn with redirect := some r }

/-- Follow a connection pointer: its connection must still be allocated. -/
def Net.deref (net : Net) (c : ConnId) : Except Fault Conn :=
  if c ∈ net.subscrConns then .ok (net.conn c) else .error .useAfterFree

def osmoAssert (p : Prop) [Decidable p] : Except Fault Unit :=
  if p then .ok () else .error .assertFailed

/-- The masks of `lcls_fsm_states`; there are no events for all states. -/
def lclsFsm : Fsm LclsState LclsEventKind where
  inEvent
    | .noLcls, ev => (ev matches .updateCfgCsc | .applyCfgCsc)
    | .notYetLs, ev => (ev matches .updateCfgCsc | .applyCfgCsc | .correlated | .otherEnabled |
        .otherDead)
    | .notPossibleLs, ev => (ev matches .updateCfgCsc | .applyCfgCsc | .correlated)
    | .noLongerLs, ev => (ev matches .updateCfgCsc | .applyCfgCsc | .correlated | .otherEnabled |
        .otherDead)
    | .reqLclsNotSupp, ev => (ev matches .updateCfgCsc | .applyCfgCsc | .correlated | .otherDead)
    | .locallySwitched, ev => (ev matches .updateCfgCsc | .applyCfgCsc | .otherBreak | .otherDead)
    | .locallySwitchedWaitBreak, ev => (ev matches .updateCfgCsc | .applyCfgCsc | .otherBreak |
        .otherDead)
    | .locallySwitchedWaitOtherBreak, ev => (ev matches .updateCfgCsc | .otherBreak | .otherDead)
  outState
    | .noLcls, st => (st matches .noLcls | .notYetLs | .notPossibleLs | .reqLclsNotSupp |
        .locallySwitched)
    | .notYetLs, st => (st matches .notYetLs | .reqLclsNotSupp | .locallySwitched)
    | .notPossibleLs, st => (st matches .notYetLs | .notPossibleLs | .reqLclsNotSupp |
        .locallySwitched)
    | .noLongerLs, st => (st matches .noLongerLs | .reqLclsNotSupp | .locallySwitched)
    | .reqLclsNotSupp, st => (st matches .notYetLs | .reqLclsNotSupp | .locallySwitched)
    | .locallySwitched, st => (st matches .noLongerLs | .notPossibleLs | .reqLclsNotSupp |
        .locallySwitchedWaitBreak | .locallySwitchedWaitOtherBreak | .locallySwitched)
    | .locallySwitchedWaitBreak, st => (st matches .noLongerLs | .reqLclsNotSupp |
        .locallySwitched | .locallySwitchedWaitBreak)
    | .locallySwitchedWaitOtherBreak, st => (st matches .noLongerLs | .reqLclsNotSupp |
        .locallySwitched | .locallySwitchedWaitOtherBreak)
  allState _ := false

def lclsGetStatus (conn : Conn) : LclsStatus :=
  match conn.fi with
  | none => .na
  | some .noLcls => .na
  | some .notYetLs => .notYetLs
  | some .notPossibleLs => .notPossibleLs
  | some .noLongerLs => .noLongerLs
  | some .reqLclsNotSupp => .reqLclsNotSupp
  | some .locallySwitched => .locallySwitched
  | some .locallySwitchedWaitBreak => .locallySwitched
  | some .locallySwitchedWaitOtherBreak => .locallySwitched

def lclsSendNotify (net : Net) (c : ConnId) : Net :=
  let status := lclsGetStatus (net.conn c)
  if status = .na then net
  else { net with notified := (c,status) :: net.notified }

def findConnWithSameGcr (net : Net) (local_ : ConnId) : Option ConnId :=
  net.subscrConns.find? fun other =>
    other ≠ local_ && (net.conn other).globalCallRef = (net.conn local_).globalCallRef

def lclsIsSupportedConfig (cfg : UInt8) : Bool := cfg = cfgBothWay

def LclsState.isLs : LclsState → Bool
  | .locallySwitched | .locallySwitchedWaitBreak | .locallySwitchedWaitOtherBreak => true
  | _ => false

/-- `update_lcls_cfg_csc`; `none` if the new config is not supported. The old
config and control it returns are not used by its only caller. -/
def updateLclsCfgCsc (conn : Conn) (config control : UInt8) : Option Conn :=
  if config ≠ cfgNa && !lclsIsSupportedConfig config then none
  else some { conn with
    config := if config ≠ cfgNa then config else conn.config
    control := if control ≠ cscNa then control else conn.control }

/-- The first check of `lcls_check_toggle_allowed`. -/
def lclsModeMismatch (net : Net) (c : ConnId) : Except Fault Bool :=
  match (net.conn c).other with
  | none => .ok false
  | some o => do
    let other ← net.deref o
    pure ((net.conn c).msc.lclsMode ≠ other.msc.lclsMode)

def lclsCheckToggleAllowed (net : Net) (c : ConnId) : Except Fault Bool := do
  let conn := net.conn c
  if ← lclsModeMismatch net c then pure false
  else if conn.msc.lclsMode = .mgwLoop && conn.mgwEndpointCiMsc.isNone then pure false
  else pure true

/-- `lcls_mdcx`: the codec is picked from the lchan. -/
def lclsMdcx (net : Net) (c : ConnId) (redirect : Redirect) : Except Fault Net :=
  match (net.conn c).lchan with
  | none => .error .nullDeref
  | some _ => .ok (net.setRedirect c redirect)

/-- `lcls_rsl`: the pointers that give the new address are followed before the
check that there is a peer. -/
def lclsRsl (net : Net) (c : ConnId) (enable : Bool) : Except Fault Net := do
  let conn := net.conn c
  if conn.lchan.isNone then .error .nullDeref
  else if enable then
    match conn.other with
    | none => .error .nullDeref
    | some o => do
      let other ← net.deref o
      if other.lchan.isNone then .error .nullDeref
      else .ok (net.setRedirect c .toPeer)
  else if conn.other.isNone then .ok net
  else .ok (net.setRedirect c .toMsc)

def lclsBreakLocalSwitching (net : Net) (c : ConnId) : Except Fault Net := do
  if !(← lclsCheckToggleAllowed net c) then pure net
  else match (net.conn c).msc.lclsMode with
    | .mgwLoop => lclsMdcx net c .toMsc
    | .btsLoop => lclsRsl net c false
    | .disabled => pure net

def lclsEnablePossible (net : Net) (c : ConnId) : Except Fault Bool := do
  let conn := net.conn c
  match conn.other with
  | none => .error .assertFailed
  | some o => do
    let other ← net.deref o
    if !lclsIsSupportedConfig conn.config then pure false
    else if !lclsIsSupportedConfig other.config then pure false
    else if conn.control ≠ cscConnect then pure false
    else if other.control ≠ cscConnect then pure false
    else match conn.lchan, other.lchan with
      | some lchan, some otherLchan =>
        if lchan.type ≠ otherLchan.type && !conn.msc.lclsCodecMismatchAllow then pure false
        else if lchan.tchMode ≠ otherLchan.tchMode && !conn.msc.lclsCodecMismatchAllow then
          pure false
        else pure true
      | _, _ => .error .nullDeref

def lclsLocallySwitchedOnenter (net : Net) (c : ConnId) : Except Fault Net := do
  match (net.conn c).other with
  | none => .error .assertFailed
  | some o => do
    if !(← lclsCheckToggleAllowed net c) then pure net
    else match (← net.deref o).mgwEndpointCiMsc with
      | none => pure net
      | some ci =>
        if !ci.rtpInfo then pure net
        else match (net.conn c).msc.lclsMode with
          | .mgwLoop => lclsMdcx net c .toPeer
          | .btsLoop => lclsRsl net c true
          | .disabled => pure net

/-- `osmo_fsm_inst_state_chg` on `lcls.fi`: only LOCALLY_SWITCHED has an onenter. -/
def lclsStateChg (net : Net) (c : ConnId) (new : LclsState) : Except Fault Net :=
  match (net.conn c).fi with
  | none => .ok net
  | some st =>
    if !lclsFsm.outState st new then .ok net
    else
      let net := net.setFi c new
      if new = .locallySwitched then lclsLocallySwitchedOnenter net c else .ok net

/-- `lcls_handle_cfg_update`; the flag says whether the new config was taken. -/
def lclsHandleCfgUpdate (net : Net) (c : ConnId) (config control : UInt8) :
    Except Fault (Net × Bool) := do
  match updateLclsCfgCsc (net.conn c) config control with
  | none => do
    let net ← lclsStateChg net c .reqLclsNotSupp
    pure (net,false)
  | some conn => pure (net.upd c fun _ => conn,true)

/-- The part of `lcls_perform_correlation` that breaks a previous correlation. -/
def breakCorrelation (net : Net) (c : ConnId) : Except Fault Net :=
  match (net.conn c).other with
  | none => .ok net
  | some o => do
    match (← net.deref o).fi with
    | none => .error .nullDeref
    | some st => do
      osmoAssert (st.isLs = false)
      .ok ((net.setOther o none).setOther c none)

section Handlers

/-! The handlers dispatch to the peer while they run; `disp` is that nested
`osmo_fsm_inst_dispatch`. -/

variable (disp : Net → ConnId → LclsEvent → Except Fault Net)

/-- `lcls_perform_correlation`; the flag says whether a peer was found. -/
def lclsPerformCorrelation (net : Net) (c : ConnId) : Except Fault (Net × Bool) := do
  osmoAssert ((net.conn c).globalCallRef ≠ [])
  osmoAssert (((net.conn c).fi.map LclsState.isLs) ≠ some true)
  let net ← breakCorrelation net c
  match findConnWithSameGcr net c with
  | none => pure (net,false)
  | some o => do
    let net := net.setOther c (some o)
    let net ← disp net o (.correlated c)
    pure (net,true)

/-- Go to LOCALLY_SWITCHED and tell the peer about it. -/
def enableLs (net : Net) (c : ConnId) : Except Fault Net := do
  let net ← lclsStateChg net c .locallySwitched
  match (net.conn c).other with
  | none => .error .nullDeref
  | some o => disp net o (.otherEnabled c)

/-- OTHER_ENABLED in NOT_YET_LS and NO_LONGER_LS: follow the peer, or ask it to break. -/
def followPeer (net : Net) (c sender : ConnId) : Except Fault Net := do
  osmoAssert ((net.conn c).other = some sender)
  if ← lclsEnablePossible net c then
    let net ← lclsStateChg net c .locallySwitched
    pure (lclsSendNotify net c)
  else disp net sender (.otherBreak c)

/-- OTHER_DEAD in NOT_YET_LS, NO_LONGER_LS and LOCALLY_SWITCHED. -/
def losePeer (net : Net) (c sender : ConnId) : Except Fault Net := do
  osmoAssert ((net.conn c).other = some sender)
  let net := net.setOther c none
  let net ← lclsStateChg net c .notPossibleLs
  pure (lclsSendNotify net c)

def lclsNoLclsFn (net : Net) (c : ConnId) (ev : LclsEvent) : Except Fault Net := do
  osmoAssert ((net.conn c).other = none)
  if (net.conn c).msc.lclsMode = .disabled then pure net
  else if (net.conn c).globalCallRef = [] then pure net
  else match ev with
    | .updateCfgCsc config control => do
      let (net,_) ← lclsHandleCfgUpdate net c config control
      pure net
    | .applyCfgCsc => do
      if (net.conn c).config = cfgNa then pure net
      else
        let (net,found) ← lclsPerformCorrelation disp net c
        if !found then lclsStateChg net c .notPossibleLs
        else
          osmoAssert ((net.conn c).other ≠ none)
          if ← lclsEnablePossible net c then enableLs disp net c
          else lclsStateChg net c .notYetLs
    | .correlated _ | .otherEnabled _ | .otherBreak _ | .otherDead _ => .error .assertFailed

def lclsNotYetLsFn (net : Net) (c : ConnId) (ev : LclsEvent) : Except Fault Net := do
  osmoAssert ((net.conn c).other ≠ none)
  match ev with
  | .updateCfgCsc config control => do
    let (net,_) ← lclsHandleCfgUpdate net c config control
    pure net
  | .applyCfgCsc => do
    if ← lclsEnablePossible net c then enableLs disp net c
    else pure net
  | .otherEnabled sender => followPeer disp net c sender
  | .correlated sender => pure (net.setOther c (some sender))
  | .otherDead sender => losePeer net c sender
  | .otherBreak _ => .error .assertFailed

def lclsNotPossibleLsFn (net : Net) (c : ConnId) (ev : LclsEvent) : Except Fault Net := do
  osmoAssert ((net.conn c).other = none)
  match ev with
  | .updateCfgCsc config control => do
    let (net,_) ← lclsHandleCfgUpdate net c config control
    pure net
  | .applyCfgCsc => do
    let (net,found) ← lclsPerformCorrelation disp net c
    if !found then pure net
    else
      osmoAssert ((net.conn c).other ≠ none)
      if ← lclsEnablePossible net c then enableLs disp net c
      else lclsStateChg net c .notYetLs
  | .correlated sender => do
    let net := net.setOther c (some sender)
    let net ← lclsStateChg net c .notYetLs
    pure (lclsSendNotify net c)
  | .otherDead sender => do
    osmoAssert ((net.conn c).other = some sender)
    pure (net.setOther c none)
  | .otherEnabled _ | .otherBreak _ => .error .assertFailed

def lclsNoLongerLsFn (net : Net) (c : ConnId) (ev : LclsEvent) : Except Fault Net := do
  osmoAssert ((net.conn c).other ≠ none)
  match ev with
  | .updateCfgCsc config control => do
    let (net,taken) ← lclsHandleCfgUpdate net c config control
    if !taken then pure net
    else if ← lclsEnablePossible net c then enableLs disp net c
    else pure net
  | .otherEnabled sender => followPeer disp net c sender
  | .correlated sender => pure (net.setOther c (some sender))
  | .otherDead sender => losePeer net c sender
  | .applyCfgCsc | .otherBreak _ => .error .assertFailed

def lclsReqLclsNotSuppFn (net : Net) (c : ConnId) (ev : LclsEvent) : Except Fault Net := do
  match ev with
  | .updateCfgCsc config control => do
    let (net,_) ← lclsHandleCfgUpdate net c config control
    pure net
  | .applyCfgCsc => do
    let (net,found) ← lclsPerformCorrelation disp net c
    if !found then lclsStateChg net c .notPossibleLs
    else
      osmoAssert ((net.conn c).other ≠ none)
      if !lclsIsSupportedConfig (net.conn c).config then pure net
      -- unlike in the other states, the peer is not told
      else if ← lclsEnablePossible net c then lclsStateChg net c .locallySwitched
      else lclsStateChg net c .notYetLs
  | .correlated sender => pure (net.setOther c (some sender))
  | .otherDead sender => do
    osmoAssert ((net.conn c).other = some sender)
    pure (net.setOther c none)
  | .otherEnabled _ | .otherBreak _ => .error .assertFailed

/-- UPDATE_CFG_CSC in the three locally switched states. -/
def updateOrBreak (net : Net) (c : ConnId) (config control : UInt8) : Except Fault Net := do
  let (net,taken) ← lclsHandleCfgUpdate net c config control
  if taken then pure net else lclsBreakLocalSwitching net c

def lclsLocallySwitchedFn (net : Net) (c : ConnId) (ev : LclsEvent) : Except Fault Net := do
  osmoAssert ((net.conn c).other ≠ none)
  match ev with
  | .updateCfgCsc config control => updateOrBreak net c config control
  | .applyCfgCsc => do
    if (net.conn c).control = cscReleaseLcls then
      let net ← lclsStateChg net c .locallySwitchedWaitOtherBreak
      match (net.conn c).other with
      | none => .error .nullDeref
      | some o => disp net o (.otherBreak c)
    else pure net
  | .otherBreak sender => do
    osmoAssert ((net.conn c).other = some sender)
    lclsStateChg net c .locallySwitchedWaitBreak
  | .otherDead sender => losePeer net c sender
  | .correlated _ | .otherEnabled _ => .error .assertFailed

def lclsLocallySwitchedWaitBreakFn (net : Net) (c : ConnId) (ev : LclsEvent) :
    Except Fault Net := do
  osmoAssert ((net.conn c).other ≠ none)
  match ev with
  | .updateCfgCsc config control => updateOrBreak net c config control
  | .applyCfgCsc => do
    if (net.conn c).control = cscReleaseLcls then
      let net ← lclsBreakLocalSwitching net c
      let net ← lclsStateChg net c .noLongerLs
      match (net.conn c).other with
      | none => .error .nullDeref
      | some o => disp net o (.otherBreak c)
    else pure net
  | .otherBreak _ => pure net
  | .otherDead sender => do
    osmoAssert ((net.conn c).other = some sender)
    pure (net.setOther c none)
  | .correlated sender => lclsLocallySwitchedFn disp net c (.correlated sender)
  | .otherEnabled sender => lclsLocallySwitchedFn disp net c (.otherEnabled sender)

def lclsLocallySwitchedWaitOtherBreakFn (net : Net) (c : ConnId) (ev : LclsEvent) :
    Except Fault Net := do
  osmoAssert ((net.conn c).other ≠ none)
  match ev with
  | .updateCfgCsc config control => updateOrBreak net c config control
  | .otherBreak sender | .otherDead sender => do
    osmoAssert ((net.conn c).other = some sender)
    let net ← lclsBreakLocalSwitching net c
    let net ← lclsStateChg net c .noLongerLs
    pure (lclsSendNotify net c)
  | .applyCfgCsc => lclsLocallySwitchedFn disp net c .applyCfgCsc
  | .correlated sender => lclsLocallySwitchedFn disp net c (.correlated sender)
  | .otherEnabled sender => lclsLocallySwitchedFn disp net c (.otherEnabled sender)

/-- The `action` of each entry of `lcls_fsm_states`. -/
def lclsAction (net : Net) (c : ConnId) (ev : LclsEvent) : LclsState → Except Fault Net
  | .noLcls => lclsNoLclsFn disp net c ev
  | .notYetLs => lclsNotYetLsFn disp net c ev
  | .notPossibleLs => lclsNotPossibleLsFn disp net c ev
  | .noLongerLs => lclsNoLongerLsFn disp net c ev
  | .reqLclsNotSupp => lclsReqLclsNotSuppFn disp net c ev
  | .locallySwitched => lclsLocallySwitchedFn disp net c ev
  | .locallySwitchedWaitBreak => lclsLocallySwitchedWaitBreakFn disp net c ev
  | .locallySwitchedWaitOtherBreak => lclsLocallySwitchedWaitOtherBreakFn disp net c ev

end Handlers

/-- `osmo_fsm_inst_dispatch(conn->lcls.fi,..)` with a bound on the nesting. A
dispatch to a missing FSM instance is dropped. -/
def lclsDispatch : Nat → Net → ConnId → LclsEvent → Except Fault Net
  | 0, _, _, _ => .error .outOfFuel
  | n+1, net, c, ev => do
    match (← net.deref c).fi with
    | none => pure net
    | some st =>
      match lclsFsm.verdict st ev.kind with
      | .action => lclsAction (lclsDispatch n) net c ev st
      | _ => pure net

def dispatchDepth : Nat := 3

def lclsUpdateConfig (net : Net) (c : ConnId) (config control : Option UInt8) :
    Except Fault Net :=
  if config = none && control = none then .ok net
  else lclsDispatch dispatchDepth net c
    (.updateCfgCsc (config.getD cfgNa) (control.getD cscNa))

def lclsApplyConfig (net : Net) (c : ConnId) : Except Fault Net :=
  lclsDispatch dispatchDepth net c .applyCfgCsc

def lclsFsmCleanup (net : Net) (c : ConnId) : Except Fault Net := do
  match (net.conn c).other with
  | none => pure net
  | some o => do
    let net ← lclsDispatch dispatchDepth net o (.otherDead c)
    pure (net.setOther c none)

/-- The Global Call Reference part of `bssmap_handle_ass_req_lcls`: the IE is
taken if it has 13 to 15 octets. -/
def setGcr (net : Net) (c : ConnId) (gcr : List UInt8) : Net :=
  if 13 ≤ gcr.length && gcr.length ≤ 15 then
    net.upd c fun conn => { conn with globalCallRef := gcr }
  else net

/-- `bssmap_handle_ass_req_lcls`; an absent IE has no octets. -/
def bssmapHandleAssReqLcls (net : Net) (c : ConnId) (gcr : List UInt8)
    (config control : Option UInt8) : Except Fault Net :=
  lclsUpdateConfig (setGcr net c gcr) c config control

/-- `bssmap_handle_lcls_connect_ctrl` up to its answer. -/
def bssmapHandleLclsConnectCtrl (net : Net) (c : ConnId) (config control : Option UInt8) :
    Except Fault Net := do
  if (net.conn c).globalCallRef = [] then pure net
  else
    let net ← lclsUpdateConfig net c config control
    lclsApplyConfig net c

/-- `bsc_subscr_con_allocate`: the connection as it is put into the list. -/
def allocConn (msc : Msc) : Conn where
  fi := some .noLcls
  globalCallRef := []
  config := cfgNa
  control := cscNa
  other := none
  lchan := none
  mgwEndpointCiMsc := none
  msc := msc
  redirect := none

/-- What can happen to the connections: one is allocated or terminates, a BSSMAP
message or a completed assignment reaches one, or the rest of the BSC gives
it another lchan, MGW connection or MSC setting. -/
inductive Input where
  | alloc (c : ConnId) (msc : Msc)
  | term (c : ConnId)
  | setGcr (c : ConnId) (gcr : List UInt8)
  | update (c : ConnId) (config control : Option UInt8)
  | apply (c : ConnId)
  | resources (c : ConnId) (lchan : Option Lchan) (ci : Option Ci) (msc : Msc)
  deriving DecidableEq, Repr

def Input.conn : Input → ConnId
  | .alloc c _ | .term c | .setGcr c _ | .update c _ _ | .apply c | .resources c _ _ _ => c

/-- Handle one input to the end. Only `alloc` is possible for an address that
holds no connection, and it is possible only there. -/
def Net.step (net : Net) : Input → Except Fault Net
  | .alloc c msc =>
    if c ∈ net.subscrConns then .ok net
    else .ok { net with
      subscrConns := net.subscrConns ++ [c]
      conn := Function.update net.conn c (allocConn msc) }
  | .term c =>
    if c ∈ net.subscrConns then do
      let net ← lclsFsmCleanup net c
      pure { net with subscrConns := net.subscrConns.filter (· ≠ c) }
    else .ok net
  | .setGcr c gcr => if c ∈ net.subscrConns then .ok (Lcls.setGcr net c gcr) else .ok net
  | .update c config control =>
    if c ∈ net.subscrConns then lclsUpdateConfig net c config control else .ok net
  | .apply c => if c ∈ net.subscrConns then lclsApplyConfig net c else .ok net
  | .resources c lchan ci msc =>
    if c ∈ net.subscrConns then
      .ok (net.upd c fun conn => { conn with lchan := lchan, mgwEndpointCiMsc := ci, msc := msc })
    else .ok net

def Net.init : Net where
  subscrConns := []
  conn _ := allocConn ⟨.disabled,false⟩
  notified := []

end OsmoBsc.Lcls
