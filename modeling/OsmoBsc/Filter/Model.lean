import Mathlib.Algebra.Ring.Int.Defs
import Mathlib.Algebra.Ring.Nat
set_option autoImplicit false

namespace OsmoBsc.Filter

abbrev Text := List UInt8

abbrev Imsi := Text

structure BarrEntry where
  imsi : Imsi
  cmRejectCause : Nat
  luRejectCause : Nat

/-- The `struct rb_root` of barred IMSIs. -/
inductive BarrTree where
  | nil
  | node (left : BarrTree) (entry : BarrEntry) (right : BarrTree)

structure RejectCause where
  luRejectCause : Nat
  cmRejectCause : Nat
  deriving DecidableEq, Repr

/-- `struct bsc_msg_acc_lst_entry`, where a regular expression is the predicate that
`regexec` decides; it is absent where none is configured. -/
structure AccLstEntry where
  imsiAllow : Option (Imsi → Bool)
  imsiDeny : Option (Imsi → Bool)
  cmRejectCause : Nat
  luRejectCause : Nat

structure AccLst where
  name : Text
  fltrList : List AccLstEntry

structure Request where
  blackList : Option BarrTree
  accessLists : List AccLst
  localLstName : Option Text
  globalLstName : Option Text

/-- The kinds of connection, FLT_CON_TYPE_*. -/
inductive ConType where
  | none
  | lu
  | cmServReq
  | pagResp
  | ssa
  | localReject
  | other
  deriving DecidableEq, Repr

structure FilterState where
  imsi : Option Imsi := none
  imsiChecked : Bool := false
  conType : ConType := .none

/-- A layer 3 message: the buffer from the header on, and how much of it was received.
The code also looks at what follows in the buffer. -/
structure L3Msg where
  buf : Nat → UInt8
  len : Nat

/-- What comes from libosmogsm: `gsm48_hdr_pdisc` and `gsm48_hdr_msg_type` of the two
octets of the header, `gsm48_mi_to_string` with its return code, and the called number
that `tlv_parse` and `gsm48_decode_called` find. -/
structure Libosmogsm where
  hdrPdisc : UInt8 → UInt8
  hdrMsgType : UInt8 → UInt8 → UInt8
  miToString : List UInt8 → Int × Text
  decodeCalled : List UInt8 → Option (Nat × Nat × Text)

def plmnNotAllowed : Nat := 0x0b

def bscFilterBarrFind : BarrTree → Imsi → Option (Nat × Nat)
  | .nil, _ => none
  | .node left entry right, imsi => match compare imsi entry.imsi with
    | .eq => some (entry.cmRejectCause,entry.luRejectCause)
    | .lt => bscFilterBarrFind left imsi
    | .gt => bscFilterBarrFind right imsi

/-- `lst_check_deny`, with the causes of the entry that denies. -/
def lstCheckDeny (lst : AccLst) (imsi : Imsi) : Option (Nat × Nat) :=
  (lst.fltrList.find? fun entry => entry.imsiDeny.any (· imsi)).map fun entry =>
    (entry.cmRejectCause,entry.luRejectCause)

def bscMsgAccLstCheckAllow (lst : AccLst) (imsi : Imsi) : Bool :=
  lst.fltrList.any fun entry => entry.imsiAllow.any (· imsi)

def bscMsgAccLstFind (lists : List AccLst) : Option Text → Option AccLst
  | none => none
  | some name => lists.find? (·.name == name)

/-- One list of `auth_imsi`: it allows, or denies with the given code, or says nothing. -/
def authLst (lst : Option AccLst) (code : Int) (imsi : Imsi) : Option (Int × Option (Nat × Nat)) :=
  match lst with
  | none => none
  | some lst =>
    if bscMsgAccLstCheckAllow lst imsi then some (1,none)
    else match lstCheckDeny lst imsi with
      | some causes => some (code,some causes)
      | none => none

def authImsi (req : Request) (imsi : Imsi) (cause : RejectCause) : Int × RejectCause :=
  match req.blackList.bind (bscFilterBarrFind · imsi) with
  | some (cm,lu) => (-4,⟨lu,cm⟩)
  | none =>
    let bscLst := bscMsgAccLstFind req.accessLists req.localLstName
    let natLst := bscMsgAccLstFind req.accessLists req.globalLstName
    match (authLst bscLst (-2) imsi).or (authLst natLst (-3) imsi) with
    | some (rc,some (cm,lu)) => (rc,⟨lu,cm⟩)
    | some (rc,none) => (rc,cause)
    | none => (1,cause)

section Parse

variable (lib : Libosmogsm) (msg : L3Msg)

/-- `n` octets of the buffer from offset `at'` on. -/
def L3Msg.octets (at' n : Nat) : List UInt8 := (List.range n).map fun i => msg.buf (at' + i)

def L3Msg.dataLen : Nat := if msg.len < 2 then 2^32 - 2 + msg.len else (msg.len - 2) % 2^32

def asInt (n : Nat) : Int := if n % 2^32 < 2^31 then (n % 2^32 : Nat) else (n % 2^32 : Nat) - 2^32

/-- The octet's mobile identity type is GSM_MI_TYPE_IMSI. -/
def isImsi (octet : UInt8) : Bool := octet &&& 0x07 == 0x01

/-- What the checks of an initial message yield: a return code, and the IMSI if it
carries one. -/
abbrev Check := Int × Option Imsi

/-- `_cr_check_loc_upd`. The eight octets of `struct gsm48_loc_upd_req` end with the
length of the mobile identity. -/
def crCheckLocUpd : Check :=
  if msg.dataLen < 8 then (-1,none)
  else if !isImsi (msg.buf 10) then (0,none)
  else (1,some (lib.miToString (msg.octets 10 (msg.buf 9).toNat)).2)

/-- `gsm48_extract_mi` on the classmark 2 at offset `at'` of the buffer: the return code,
the text and the first octet of the mobile identity. -/
def gsm48ExtractMi (at' : Nat) (length : Int) : Int × Option (Text × UInt8) :=
  let cm := (msg.buf at').toNat
  let mi := at' + cm + 1
  if length < 1 + cm then (-1,none)
  else if length < 2 + cm + (msg.buf mi).toNat then (-2,none)
  else
    let r := lib.miToString (msg.octets (mi + 1) (msg.buf mi).toNat)
    (r.1,some (r.2,msg.buf (mi + 1)))

/-- The common part of `_cr_check_cm_serv_req` and `_cr_check_pag_resp`. Both structs
have six octets, and the classmark after the first of them. -/
def crCheckClassmark : Check :=
  if msg.dataLen < 6 then (-1,none)
  else match gsm48ExtractMi lib msg 3 (asInt (msg.dataLen + 2^32 - 1)) with
    | (rc,some (text,octet)) =>
      if rc < 0 then (-1,none)
      else if !isImsi octet then (0,none)
      else (1,some text)
    | (_,none) => (-1,none)

/-- `_cr_check_cm_serv_req`, with the kind of the connection. -/
def crCheckCmServReq : ConType × Check :=
  (if 6 ≤ msg.dataLen ∧ msg.buf 2 &&& 0x0f = 0x08 then .ssa else .cmServReq,
    crCheckClassmark lib msg)

def crCheckPagResp : Check := crCheckClassmark lib msg

def L3Msg.kind : UInt8 × UInt8 :=
  (lib.hdrPdisc (msg.buf 0),lib.hdrMsgType (msg.buf 0) (msg.buf 1))

/-- GSM48_PDISC_MM with GSM48_MT_MM_LOC_UPD_REQUEST, GSM48_MT_MM_CM_SERV_REQ and
GSM48_MT_MM_ID_RESP, GSM48_PDISC_RR with GSM48_MT_RR_PAG_RESP, GSM48_PDISC_CC with
GSM48_MT_CC_SETUP. -/
def locUpdRequest : UInt8 × UInt8 := (0x05,0x08)

@[inherit_doc locUpdRequest] def cmServReq : UInt8 × UInt8 := (0x05,0x24)

@[inherit_doc locUpdRequest] def idResp : UInt8 × UInt8 := (0x05,0x19)

@[inherit_doc locUpdRequest] def pagResp : UInt8 × UInt8 := (0x06,0x27)

@[inherit_doc locUpdRequest] def ccSetup : UInt8 × UInt8 := (0x03,0x05)

/-- The part of `bsc_msg_filter_initial` that looks at the message; for other kinds
of message nothing is checked. -/
def initialCheck : ConType × Option Check :=
  if msg.kind lib = locUpdRequest then (.lu,some (crCheckLocUpd lib msg))
  else if msg.kind lib = cmServReq then
    let r := crCheckCmServReq lib msg
    (r.1,some r.2)
  else if msg.kind lib = pagResp then (.pagResp,some (crCheckPagResp lib msg))
  else (.other,none)

/-- What `bsc_msg_filter_initial` returns and sets. -/
structure InitialResult where
  rc : Int
  conType : ConType
  imsi : Option Imsi
  cause : RejectCause

def bscMsgFilterInitial (req : Request) : InitialResult :=
  let cause : RejectCause := ⟨plmnNotAllowed,plmnNotAllowed⟩
  match initialCheck lib msg with
  | (conType,some (1,some imsi)) =>
    let r := authImsi req imsi cause
    ⟨r.1,conType,some imsi,r.2⟩
  | (conType,some (1,none)) => ⟨-1,conType,none,cause⟩
  | (conType,some (rc,imsi)) => ⟨rc,conType,imsi,cause⟩
  | (conType,none) => ⟨0,conType,none,cause⟩

/-- The identity in an Identity Response, as far as `_dt_check_id_resp` decodes it. -/
def idRespImsi : Except Int (Option Imsi) :=
  if msg.dataLen < 2 then .error (-1)
  else if (msg.buf 2).toNat < msg.dataLen - 1 then .error (-2)
  else if !isImsi (msg.buf 3) then .ok none
  else .ok (some (lib.miToString (msg.octets 3 (msg.buf 2).toNat)).2)

def dtCheckIdResp (req : Request) (state : FilterState) (cause : RejectCause) :
    Int × FilterState × RejectCause :=
  match idRespImsi lib msg with
  | .error rc => (rc,state,cause)
  | .ok none => (0,state,cause)
  | .ok (some imsi) =>
    let r := authImsi req imsi cause
    (r.1,{ state with imsiChecked := true, imsi := some imsi },r.2)

def bscMsgFilterData (req : Request) (state : FilterState) : Int × FilterState × RejectCause :=
  let cause : RejectCause := ⟨plmnNotAllowed,plmnNotAllowed⟩
  if state.imsiChecked then (0,state,cause)
  else if msg.kind lib ≠ idResp then (0,state,cause)
  else dtCheckIdResp lib msg req state cause

end Parse

/-- `struct bsc_msc_data`; `local_pref` is absent where it is not configured. -/
structure Msc where
  accLstName : Option Text
  isLocal : Bool
  localPref : Option (Text → Bool)

/-- `struct gsm_network` and its `bsc_data`, as far as the filters read it. -/
structure Network where
  accessLists : List AccLst
  accLstName : Option Text
  mscs : List Msc

/-- The request that `bsc_filter_initial` and `bsc_filter_data` make. -/
def Network.request (net : Network) (msc : Msc) : Request where
  blackList := none
  accessLists := net.accessLists
  localLstName := msc.accLstName
  globalLstName := net.accLstName

/-- `struct gsm_subscriber_connection`: the MSC is absent until the connection to it is
made, and `ended` once the connection has lost its channel or is gone. -/
structure Conn where
  msc : Option Msc := none
  filterState : FilterState := {}
  ended : Bool := false

/-- What the environment decides while a message is handled: the MSC that
`bsc_find_msc` finds, `a_reset_conn_ready`, whether `osmo_bsc_sigtran_new_conn` succeeds
and whether the COMPLETE LAYER 3 INFORMATION could be created. -/
structure Env where
  findMsc : Option Msc
  connReady : Bool
  newConn : Bool
  resp : Bool

structure Input where
  msg : L3Msg
  env : Env

/-- What happens to a message: whether a filter is asked, which answer it gives, and
whether the message reveals an IMSI that `auth_imsi` denies. -/
structure Seen where
  asked : Bool := false
  passed : Bool := false
  denied : Bool := false
  deriving DecidableEq, Repr

section Conn

variable (lib : Libosmogsm) (net : Network)

/-- `complete_layer3`: the connection and whether it goes on. -/
def completeLayer3 (msc : Msc) (i : Input) (k : Conn) : Conn × Bool × Seen :=
  let r := bscMsgFilterInitial lib i.msg (net.request msc)
  if r.rc < 0 then
    (k,false,{ asked := true, denied := match initialCheck lib i.msg with
      | (_,some (1,some _)) => true
      | _ => false })
  else if !i.env.newConn then (k,false,{ asked := true, passed := true })
  else
    ({ k with
      msc := some msc
      filterState := { k.filterState with imsi := r.imsi.or k.filterState.imsi, conType := r.conType } },
      i.env.resp,{ asked := true, passed := true })

/-- `bsc_compl_l3`, and the end of the connection where it fails. -/
def bscComplL3 (i : Input) (k : Conn) : Conn × Seen :=
  match i.env.findMsc with
  | none => ({ k with ended := true },{})
  | some msc =>
    let r := completeLayer3 lib net msc i k
    (if r.2.1 then r.1 else { r.1 with ended := true },r.2.2)

/-- The MSC to which `handle_cc_setup` moves the connection, if any. -/
def handleCcSetup (msg : L3Msg) : Option Msc :=
  if msg.kind lib ≠ ccSetup then none
  else match lib.decodeCalled (msg.octets 2 msg.dataLen) with
    | none => none
    | some (plan,type,number) =>
      if plan ≠ 1 ∧ plan ≠ 0 then none
      else
        let destNr := if plan = 1 ∧ type = 1 then [0x30,0x30] ++ number else number
        net.mscs.find? fun msc => msc.isLocal && msc.localPref.any (· destNr)

/-- `move_to_msc`; the channels are released where it fails. -/
def moveToMsc (msc : Msc) (i : Input) (k : Conn) : Conn × Seen :=
  let r := completeLayer3 lib net msc i k
  (if r.2.1 then r.1 else { r.1 with ended := true },r.2.2)

def bscDtap (i : Input) (k : Conn) : Conn × Seen :=
  match k.msc with
  | none => (k,{})
  | some msc =>
    if !i.env.connReady then (k,{})
    else match handleCcSetup lib net i.msg with
      | some msc' => moveToMsc lib net msc' i k
      | none =>
        let req := net.request msc
        let r := bscMsgFilterData lib i.msg req k.filterState
        ({ k with filterState := r.2.1 },
          { asked := true
            passed := decide (0 ≤ r.1)
            denied := if i.msg.kind lib = idResp then match idRespImsi lib i.msg with
                | .ok (some imsi) =>
                  decide ((authImsi req imsi ⟨plmnNotAllowed,plmnNotAllowed⟩).1 < 0)
                | _ => false
              else false })

/-- The messages of a connection after the first. -/
def dtaps : Conn → List Input → List Seen
  | _, [] => []
  | k, i :: is =>
    if k.ended then {} :: dtaps k is
    else
      let r := bscDtap lib net i k
      r.2 :: dtaps r.1 is

/-- All messages of a connection: the first one creates it. -/
def connLife : List Input → List Seen
  | [] => []
  | i :: is =>
    let r := bscComplL3 lib net i {}
    r.2 :: dtaps lib net r.1 is

end Conn

end OsmoBsc.Filter
