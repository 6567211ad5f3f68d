import OsmoBsc.Chan.Types
import Mathlib.Logic.Function.Basic
set_option autoImplicit false

/-! MT DTAP: the queue of a connection (`bsc_subscr_conn_fsm.c`) and the global list of pending RLL
establishments (`bsc_rll.c`). -/

namespace OsmoBsc.Dtap
open Chan (LchanId SapiState ConnState)

/-- `struct msgb` on its way to the MS, with the arguments it was handed in with. The connection
and the number tell the buffers apart, the code has only their addresses. -/
structure Msgb where
  conn : ConnId
  nr : Nat
  linkId : Nat
  allowSacch : Bool
  deriving DecidableEq, Repr

def Msgb.sapi (m : Msgb) : Nat := m.linkId &&& 7

/-- `struct gsm_lchan`; `rslLink` tells whether its TRX has an `rsl_link`. -/
structure Lchan where
  conn : Option ConnId := none
  type : ChanT := .none
  sapis : Nat → SapiState := fun _ => .unused
  rslLink : Bool := true

/-- `struct gsm_subscriber_connection`; `dtap_queue_len` is the length of the queue. -/
structure Conn where
  fi : ConnState := .init
  lchan : Option LchanId := none
  dtapQueue : List Msgb := []

/-- `struct bsc_rll_req`; `dataLinkId` is `OBSC_LINKID_CB` of its message. -/
structure RllReq where
  lchan : LchanId
  linkId : Nat
  data : Msgb
  dataLinkId : Nat

structure Sent where
  conn : ConnId
  lchan : LchanId
  linkId : Nat
  msg : Msgb

/-- The connections and lchans, the list `bsc_rll_reqs`, and a record of what was done. -/
structure World where
  conns : ConnId → Option Conn := fun _ => none
  lchans : LchanId → Lchan := fun _ => {}
  bscRllReqs : List RllReq := []
  nextConn : ConnId := 0
  nextMsg : Nat := 0
  received : List Msgb := []
  sent : List Sent := []
  freed : List Msgb := []
  rejected : List (ConnId × Msgb) := []
  clearRqst : List ConnId := []

namespace World

def setConn (w : World) (c : ConnId) (conn : Conn) : World :=
  { w with conns := Function.update w.conns c (some conn) }

def setLchan (w : World) (l : LchanId) (lchan : Lchan) : World :=
  { w with lchans := Function.update w.lchans l lchan }

def queue (w : World) (c : ConnId) : List Msgb := ((w.conns c).map (·.dtapQueue)).getD []

def lchanOf (w : World) (c : ConnId) : Option LchanId := (w.conns c).bind (·.lchan)

def receive (w : World) (m : Msgb) : World :=
  { w with received := w.received ++ [m], nextMsg := w.nextMsg + 1 }

def msgbFree (w : World) (m : Msgb) : World := { w with freed := w.freed ++ [m] }

def bscSapiNReject (w : World) (c : ConnId) (m : Msgb) : World :=
  { w with rejected := w.rejected ++ [(c,m)] }

end World

def isTch (t : ChanT) : Bool := t == .tchF || t == .tchH

/-- `abis_rsl_sendmsg` takes the message; without a link it frees it and reports an error. -/
def rslDataRequest (w : World) (c : ConnId) (l : LchanId) (m : Msgb) (linkId : Nat) : World × Bool :=
  if (w.lchans l).rslLink then ({ w with sent := w.sent ++ [⟨c,l,linkId,m⟩] },true)
  else (w.msgbFree m,false)

/-- `rll_establish`: the request is kept also when the ESTABLISH REQUEST cannot be sent. -/
def rllEstablish (w : World) (l : LchanId) (sapi : Nat) (data : Msgb) (dataLinkId : Nat) :
    World × Bool :=
  let linkId := if isTch (w.lchans l).type && sapi != 0 then sapi ||| 0x40 else sapi
  ({ w with bscRllReqs := ⟨l,linkId,data,dataLinkId⟩ :: w.bscRllReqs },(w.lchans l).rslLink)

/-- `osmo_fsm_inst_state_chg` to ST_ACTIVE, where the state allows it. -/
def chgActive : ConnState → ConnState
  | .init | .waitCc | .assignment | .handover => .active
  | s => s

/-- `osmo_fsm_inst_state_chg` to ST_CLEARING, where the state allows it. -/
def chgClearing : ConnState → ConnState
  | .waitCc => .waitCc
  | _ => .clearing

def failedToSend (w : World) (c : ConnId) : World :=
  match w.conns c with
  | none => w
  | some conn => { w with clearRqst := w.clearRqst ++ [c] }.setConn c { conn with fi := chgActive conn.fi }

def gsm0808SendRslDtap (w : World) (c : ConnId) (m : Msgb) : World :=
  match w.lchanOf c with
  | none => failedToSend (w.msgbFree m) c
  | some l =>
    let sapi := m.linkId &&& 7
    let linkId := if m.allowSacch && sapi != 0 && isTch (w.lchans l).type then m.linkId ||| 0x40
      else m.linkId
    if (w.lchans l).sapis sapi = .unused then
      let r := rllEstablish w l sapi m linkId
      if r.2 then r.1 else failedToSend ((r.1.msgbFree m).bscSapiNReject c m) c
    else
      let r := rslDataRequest w c l m linkId
      if r.2 then r.1 else failedToSend r.1 c

def gsconDtapQueueAdd (w : World) (c : ConnId) (m : Msgb) : World :=
  match w.conns c with
  | none => w
  | some conn =>
    if 8 ≤ conn.dtapQueue.length then w.msgbFree m
    else w.setConn c { conn with dtapQueue := conn.dtapQueue ++ [m] }

def dequeue (w : World) (c : ConnId) : World :=
  match w.conns c with
  | none => w
  | some conn => w.setConn c { conn with dtapQueue := conn.dtapQueue.tail }

/-- `gscon_dtap_queue_flush`: the loop takes out what was queued when it began, as nothing in it
adds to the queue. -/
def gsconDtapQueueFlush (w : World) (c : ConnId) (send : Bool) : World :=
  (w.queue c).foldl (fun w m => if send then gsm0808SendRslDtap (dequeue w c) c m
    else (dequeue w c).msgbFree m) w

def gsconSubmitRslDtap (w : World) (c : ConnId) (m : Msgb) : World :=
  match w.conns c with
  | none => w
  | some conn =>
    if conn.fi ≠ .active then gsconDtapQueueAdd (w.receive m) c m
    else gsm0808SendRslDtap (w.receive m) c m

inductive RllrInd where
  | estConf
  | relInd
  | errInd
  | timeout
  deriving DecidableEq, Repr

/-- `rll_ind_cb` for a request that was taken off the list. -/
def rllIndCb (w : World) (r : RllReq) (ind : RllrInd) : World :=
  match (w.lchans r.lchan).conn with
  | none => w
  | some c =>
    match ind with
    | .estConf => (rslDataRequest w c r.lchan r.data r.dataLinkId).1
    | .relInd | .errInd | .timeout => (w.bscSapiNReject c r.data).msgbFree r.data

/-- The comparison of `rll_indication`. -/
def RllReq.isFor (l : LchanId) (linkId : Nat) (r : RllReq) : Bool :=
  r.lchan = l && (r.linkId &&& 0xC7) == (linkId &&& 0xC7)

/-- `rll_indication` completes the first request of the list that matches. -/
def rllIndication (w : World) (l : LchanId) (linkId : Nat) (ind : RllrInd) : World :=
  match w.bscRllReqs.find? (RllReq.isFor l linkId) with
  | none => w
  | some r =>
    rllIndCb { w with bscRllReqs := w.bscRllReqs.eraseP (RllReq.isFor l linkId) } r ind

/-- `timer_cb` of the request at position `i` of the list. -/
def timerCb (w : World) (i : Nat) : World :=
  match w.bscRllReqs[i]? with
  | none => w
  | some r => rllIndCb { w with bscRllReqs := w.bscRllReqs.eraseIdx i } r .timeout

def lchanForgetConn (w : World) (l : LchanId) : World := w.setLchan l { w.lchans l with conn := none }

def connForgetLchan (w : World) (c : ConnId) (l : LchanId) : World :=
  match w.conns c with
  | none => w
  | some conn => if conn.lchan = some l then w.setConn c { conn with lchan := none } else w

def gsconReleaseLchan (w : World) (c : ConnId) (l : LchanId) : World :=
  connForgetLchan (if (w.lchans l).conn = some c then lchanForgetConn w l else w) c l

def gsconChangePrimaryLchan (w : World) (c : ConnId) (l : LchanId) : World :=
  match w.conns c with
  | none => w
  | some conn =>
    let w := (w.setConn c { conn with lchan := some l }).setLchan l { w.lchans l with conn := some c }
    match conn.lchan with
    | none => w
    | some old => if old ≠ l then gsconReleaseLchan w c old else w

/-- `gscon_lchan_releasing` for the connection of the lchan. -/
def gsconLchanReleasing (w : World) (c : ConnId) (l : LchanId) : World :=
  let w := gsconReleaseLchan w c l
  match w.conns c with
  | none => w
  | some conn =>
    if conn.lchan = none then
      { w with clearRqst := w.clearRqst ++ [c] }.setConn c { conn with fi := chgClearing conn.fi }
    else w

/-- `lchan_reset`, with `gscon_forget_lchan` of its connection. -/
def lchanReset (w : World) (l : LchanId) : World :=
  let w' := match (w.lchans l).conn with
    | none => w
    | some c => gsconReleaseLchan w c l
  w'.setLchan l { rslLink := (w.lchans l).rslLink }

def setSapi (w : World) (l : LchanId) (sapi : Nat) (s : SapiState) : World :=
  w.setLchan l { w.lchans l with sapis := Function.update (w.lchans l).sapis sapi s }

/-- The end of an assignment or a handover. -/
def chgActiveAndFlush (w : World) (c : ConnId) (conn : Conn) : World :=
  gsconDtapQueueFlush (w.setConn c { conn with fi := .active }) c true

/-- `gscon_pre_term` and `gscon_cleanup`. -/
def gsconTerm (w : World) (c : ConnId) (conn : Conn) : World :=
  let w := w.setConn c { conn with lchan := none }
  let w := { w with lchans := fun l =>
    if (w.lchans l).conn = some c then { w.lchans l with conn := none } else w.lchans l }
  let w := gsconDtapQueueFlush w c false
  { w with conns := Function.update w.conns c none }

/-- What can happen. The procedures of the other FSMs appear as what they do to the fields above. -/
inductive Input where
  | alloc
  | submit (c : ConnId) (linkId : Nat) (allowSacch : Bool)
  | connReq (c : ConnId)
  | connCfm (c : ConnId)
  | assignmentStart (c : ConnId)
  | assignmentEnd (c : ConnId)
  | handoverStart (c : ConnId)
  | handoverEnd (c : ConnId) (interBscInOk : Bool)
  | clearing (c : ConnId)
  | term (c : ConnId)
  | activate (l : LchanId) (c : ConnId) (type : ChanT)
  | changePrimaryLchan (c : ConnId) (l : LchanId)
  | releaseLchan (c : ConnId) (l : LchanId)
  | lchanReset (l : LchanId)
  | estInd (l : LchanId) (linkId : Nat)
  | estConf (l : LchanId) (linkId : Nat)
  | relInd (l : LchanId) (linkId : Nat)
  | errInd (l : LchanId) (linkId : Nat)
  | timeout (i : Nat)
  | noLocRelCnf (l : LchanId)
  | rslLink (l : LchanId) (up : Bool)
  deriving DecidableEq, Repr

/-- The state change of a connection, where it is in the state the event is for. -/
def World.chg (w : World) (c : ConnId) (f : ConnState → ConnState) : World :=
  match w.conns c with
  | none => w
  | some conn => w.setConn c { conn with fi := f conn.fi }

def step (w : World) : Input → World
  | .alloc => { w.setConn w.nextConn {} with nextConn := w.nextConn + 1 }
  | .submit c linkId allowSacch => gsconSubmitRslDtap w c ⟨c,w.nextMsg,linkId,allowSacch⟩
  | .connReq c => w.chg c fun s => if s = .init then .waitCc else s
  | .connCfm c => w.chg c fun s => if s = .waitCc then .active else s
  | .assignmentStart c =>
    if w.lchanOf c = none then w else w.chg c fun s => if s = .active then .assignment else s
  | .handoverStart c => w.chg c fun s => if s = .active then .handover else s
  | .assignmentEnd c =>
    match w.conns c with
    | none => w
    | some conn => if conn.fi = .assignment then chgActiveAndFlush w c conn else w
  | .handoverEnd c interBscInOk =>
    match w.conns c with
    | none => w
    | some conn =>
      match conn.fi with
      | .handover => chgActiveAndFlush w c conn
      | .init =>
        if interBscInOk then chgActiveAndFlush w c conn
        else { w with clearRqst := w.clearRqst ++ [c] }.setConn c { conn with fi := .clearing }
      | _ => w
  | .clearing c => w.chg c chgClearing
  | .term c =>
    match w.conns c with
    | none => w
    | some conn => gsconTerm w c conn
  | .activate l c type => w.setLchan l { w.lchans l with conn := some c, type := type }
  | .changePrimaryLchan c l => gsconChangePrimaryLchan w c l
  | .releaseLchan c l => gsconReleaseLchan w c l
  | .lchanReset l => lchanReset w l
  | .estInd l linkId =>
    let sapi := linkId &&& 7
    if sapi ≠ 0 ∧ (w.lchans l).sapis 0 ≠ .ms then w
    else if sapi = 0 ∧ (linkId >>> 6) &&& 3 = 1 then w
    else setSapi w l sapi .ms
  | .estConf l linkId => rllIndication (setSapi w l (linkId &&& 7) .net) l linkId .estConf
  | .relInd l linkId =>
    let w := rllIndication (setSapi w l (linkId &&& 7) .unused) l linkId .relInd
    match (w.lchans l).conn with
    | none => w
    | some c => if linkId &&& 7 = 0 ∧ linkId &&& 0xc0 = 0 then gsconLchanReleasing w c l else w
  | .errInd l linkId => rllIndication w l linkId .errInd
  | .timeout i => timerCb w i
  | .noLocRelCnf l => w.setLchan l { w.lchans l with
      sapis := fun sapi => if sapi = 0 then (w.lchans l).sapis 0 else .unused }
  | .rslLink l up => w.setLchan l { w.lchans l with rslLink := up }

end OsmoBsc.Dtap
