import Mathlib.Data.List.Nodup
import OsmoBsc.Lib.Fsm
import Mathlib.Algebra.Ring.Nat
set_option autoImplicit false

namespace OsmoBsc.Sccp
open EventFsm

inductive SccpState where
  | none
  | waitConnConf
  | connected
  deriving DecidableEq, Repr

/-- The states of the connection FSM that decide what becomes of the SCCP connection. -/
inductive ConnSt where
  | init
  | waitCc
  | later
  deriving DecidableEq, Repr

/-- `struct gsm_subscriber_connection`, as far as its SCCP connection goes; none stands for
the `conn_id` -1. Connections are told apart by the number that their allocation had. -/
structure Conn where
  nr : Nat
  msc : Nat
  connId : Option Nat := none
  sccp : SccpState := .none
  fsm : ConnSt := .init
  lchan : Bool := false
  deriving DecidableEq, Repr

/-- The primitives of one SCCP connection: those from the provider with the connection that
they were delivered to, the others with the one that sent them. -/
inductive Prim where
  | connReq (nr : Nat)
  | connInd
  | connResp (nr : Nat)
  | connCnf (nr : Option Nat)
  | dataInd (nr : Option Nat)
  | disconnInd (nr : Option Nat)
  | disconnReq
  deriving DecidableEq, Repr

/-- `subscr_conns`, `conn_id_counter`, how many connections were allocated, and the primitives
so far with their ids. -/
structure Net where
  conns : List Conn := []
  connIdCounter : Nat := 0
  allocated : Nat := 0
  log : List (Nat × Prim) := []

/-- The assertions of `conn_get_bts` and of `osmo_bsc_sigtran_open_conn`. -/
inductive Fault where
  | connGetBts
  | connIdAssigned
  deriving DecidableEq, Repr

/-- `get_bsc_conn_by_conn_id`. -/
def Net.getConn (net : Net) (connId : Nat) : Option Conn :=
  net.conns.find? (·.connId == some (connId % 2^24))

/-- The loop of `pick_free_conn_id`. -/
def Net.pickFreeConnId (net : Net) : Nat → Nat → Option Nat
  | 0, _ => none
  | i+1, connId =>
    if (net.getConn ((connId+1) % 2^24)).isSome then net.pickFreeConnId i ((connId+1) % 2^24)
    else some ((connId+1) % 2^24)

def Net.note (net : Net) (id : Nat) (p : Prim) : Net := { net with log := net.log ++ [(id,p)] }

def Net.upd (net : Net) (nr : Nat) (f : Conn → Conn) : Net :=
  { net with conns := net.conns.map fun c => if c.nr = nr then f c else c }

/-- `osmo_fsm_inst_term` on the FSM of a connection: `gscon_cleanup` disconnects SCCP. -/
def Net.gsconTerm (net : Net) (c : Conn) : Net :=
  { net with
    conns := net.conns.filter (·.nr != c.nr)
    log := net.log ++ if c.sccp = .none then [] else (c.connId.toList.map fun id => (id,.disconnReq)) }

def Net.bscSubscrConAllocate (net : Net) (c : Conn) : Net :=
  { net with conns := net.conns ++ [c], allocated := net.allocated + 1 }

/-- `osmo_bsc_sigtran_open_conn`, and what GSCON_EV_A_CONN_REQ makes of its result. -/
def Net.openConn (net : Net) (c : Conn) (ready txOk : Bool) : Except Fault Net :=
  if c.connId.isSome then .error .connIdAssigned
  else if !ready then .ok (net.gsconTerm c)
  else match net.pickFreeConnId 0xffffff net.connIdCounter with
    | none => .ok (net.gsconTerm c)
    | some id =>
      let net := { net with connIdCounter := id }
      if txOk then .ok ((net.note id (.connReq c.nr)).upd c.nr fun c =>
        { c with connId := some id, sccp := .waitConnConf, fsm := .waitCc })
      else .ok (net.gsconTerm { c with connId := some id })

/-- `handle_n_connect_from_msc`, from an MSC or an unknown one. -/
def Net.handleNConnectFromMsc (net : Net) (id : Nat) (msc : Option Nat) (handoverRqst : Bool) : Net :=
  let net := net.note id .connInd
  if (net.getConn id).isSome then net
  else match msc with
    | none => net.note id .disconnReq
    | some msc =>
      let c : Conn := { nr := net.allocated, msc := msc, connId := some id }
      let net := net.bscSubscrConAllocate c
      if handoverRqst then (net.note id (.connResp c.nr)).upd c.nr ({ · with sccp := .connected })
      else (net.note id .disconnReq).gsconTerm c

def Net.reset (net : Net) (msc : Nat) : Net :=
  (net.conns.filter (·.msc == msc)).foldl Net.gsconTerm net

/-- What can happen to the SCCP connections: a Complete Layer 3 on a new connection, which the
filter and the MSC selection accept or not; the primitives of the provider; a reset; the end of a
connection by its timers; a handover, an assignment or a release that changes the primary lchan; and
a call that is moved to another MSC. The A interface can be ready or not, and the connection
request fail. -/
inductive Input where
  | completeL3 (msc : Option Nat) (accepted ready txOk : Bool)
  | connectInd (id : Nat) (msc : Option Nat) (handoverRqst : Bool)
  | connectCnf (id : Nat)
  | dataInd (id : Nat)
  | disconnectInd (id : Nat)
  | reset (msc : Nat)
  | terminate (nr : Nat)
  | goOn (nr : Nat) (lchan : Bool)
  | moveToMsc (nr msc : Nat) (accepted ready txOk : Bool)
  deriving DecidableEq, Repr

def Net.ofNr (net : Net) (nr : Nat) : Option Conn := net.conns.find? (·.nr == nr)

/-- One input. -/
def step (net : Net) : Input → Except Fault Net
  | .completeL3 msc accepted ready txOk => match msc with
    | none => .ok { net with allocated := net.allocated + 1 }
    | some msc =>
      let c : Conn := { nr := net.allocated, msc := msc, lchan := true }
      let net := net.bscSubscrConAllocate c
      if accepted then net.openConn c ready txOk else .ok (net.gsconTerm c)
  | .connectInd id msc handoverRqst => .ok (net.handleNConnectFromMsc id msc handoverRqst)
  | .connectCnf id => match net.getConn id with
    | some c => .ok ((net.note id (.connCnf (some c.nr))).upd c.nr fun c =>
        { c with sccp := .connected, fsm := if c.fsm = .waitCc then .later else c.fsm })
    | none => .ok (net.note id (.connCnf none))
  | .dataInd id => .ok (net.note id (.dataInd ((net.getConn id).map (·.nr))))
  | .disconnectInd id => match net.getConn id with
    | some c => .ok ((net.note id (.disconnInd (some c.nr))).gsconTerm { c with sccp := .none })
    | none => .ok (net.note id (.disconnInd none))
  | .reset msc => .ok (net.reset msc)
  | .terminate nr => match net.ofNr nr with
    | some c => .ok (net.gsconTerm c)
    | none => .ok net
  | .goOn nr lchan => .ok (net.upd nr fun c =>
      { c with lchan := lchan, fsm := if c.fsm = .init then .later else c.fsm })
  | .moveToMsc nr msc accepted ready txOk => match net.ofNr nr with
    | none => .ok net
    | some c =>
      if !c.lchan then .error .connGetBts
      else if !accepted then .ok net
      else if c.fsm = .init then (net.upd nr ({ · with msc := msc })).openConn { c with msc := msc } ready txOk
      else .ok (net.upd nr ({ · with msc := msc }))

/-- How an id is in use: by an SCCP connection that is offered, or by one of a connection. -/
inductive Use where
  | closed
  | offered
  | opened (nr : Nat)
  deriving DecidableEq, Repr

/-- The primitives that an SCCP connection may have, one after the other: it is opened once, what
the provider sends is delivered to the connection that owns it, and it is closed by one
disconnect request or indication. What the provider sends for an id not in use reaches none. -/
def Use.next : Use → Prim → Option Use
  | .closed, .connReq nr => some (.opened nr)
  | .closed, .connInd => some .offered
  | .offered, .connResp nr => some (.opened nr)
  | .offered, .disconnReq | .opened _, .disconnReq => some .closed
  | .opened nr, .connCnf (some nr') | .opened nr, .dataInd (some nr') =>
    if nr = nr' then some (.opened nr) else none
  | .opened nr, .disconnInd (some nr') => if nr = nr' then some .closed else none
  | .closed, .connCnf none | .closed, .dataInd none | .closed, .disconnInd none => some .closed
  | _, _ => none

/-- How the primitives of an id leave it in use; none if one was out of order. -/
def use (log : List (Nat × Prim)) (id : Nat) : Option Use :=
  log.foldlM (fun u p => if p.1 = id then u.next p.2 else some u) .closed

def owner (log : List (Nat × Prim)) (id : Nat) : Option Nat :=
  match use log id with
  | some (.opened nr) => some nr
  | _ => none

/-- The connections with `p` end, each of them with one disconnect request for its id. -/
def Net.Ends (net net' : Net) (p : Conn → Bool) : Prop :=
  net'.conns = net.conns.filter (!p ·) ∧
    ∃ ids : List Nat, (net.conns.filter p).map (·.connId) = ids.map some ∧
      net'.log = net.log ++ ids.map fun id => (id,.disconnReq)

/-- What becomes of an input: what the provider sends goes to the connection that has its id in
use, an offer is answered, and every connection that ends closes its SCCP connection. -/
def Serves (net net' : Net) : Input → Prop
  | .completeL3 msc accepted ready txOk =>
    match if msc.isSome && accepted && ready && txOk then net.pickFreeConnId 0xffffff net.connIdCounter
      else none with
    | some id => net'.log = net.log ++ [(id,.connReq net.allocated)]
      ∧ net'.conns.map (·.nr) = net.conns.map (·.nr) ++ [net.allocated]
    | none => net'.log = net.log ∧ net'.conns = net.conns
  | .connectInd id msc handoverRqst =>
    if msc.isSome && handoverRqst then net'.log = net.log ++ [(id,.connInd),(id,.connResp net.allocated)]
      ∧ net'.conns.map (·.nr) = net.conns.map (·.nr) ++ [net.allocated]
    else net'.log = net.log ++ [(id,.connInd),(id,.disconnReq)] ∧ net'.conns = net.conns
  | .connectCnf id => net'.log = net.log ++ [(id,.connCnf (owner net.log id))]
    ∧ net'.conns.map (·.nr) = net.conns.map (·.nr)
  | .dataInd id => net'.log = net.log ++ [(id,.dataInd (owner net.log id))] ∧ net'.conns = net.conns
  | .disconnectInd id => net'.log = net.log ++ [(id,.disconnInd (owner net.log id))]
    ∧ net'.conns = net.conns.filter (·.connId != some id)
  | .reset msc => net.Ends net' (·.msc == msc)
  | .terminate nr => net.Ends net' (·.nr == nr)
  | .goOn _ _ | .moveToMsc _ _ _ _ _ => net'.log = net.log ∧ net'.conns.map (·.nr) = net.conns.map (·.nr)

/-- The inputs that can stop at the assertion of `conn_get_bts`. -/
def Input.moves : Input → Bool
  | .moveToMsc _ _ _ _ _ => true
  | _ => false

/-- The provider offers no connection with an id that it has not seen disconnected, and its ids
fit the range of the allocator. -/
def Provider (net : Net) : Input → Prop
  | .connectInd id _ _ => id < 2^24 ∧ use net.log id = some .closed
  | .connectCnf id | .dataInd id | .disconnectInd id => id < 2^24
  | _ => True

instance (net : Net) (i : Input) : Decidable (Provider net i) := by
  cases i <;> unfold Provider <;> infer_instance

/-- The states that runs reach whose inputs all meet `good`. -/
def Reachable (good : Net → Input → Prop) (net : Net) : Prop := Reach step good (· = {}) net

end OsmoBsc.Sccp
