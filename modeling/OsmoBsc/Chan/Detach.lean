import OsmoBsc.Chan.Types
set_option autoImplicit false

namespace OsmoBsc.Chan
open EventFsm

def lchanForgetMgwEndpoint (l : LchanId) (w : Bsc) : Bsc :=
  w.updLchan l ({ · with mgwEndpointCiBts := none })

def lchanForgetConn (l : LchanId) (w : Bsc) : Bsc :=
  w.updLchan l fun lchan =>
    { lchan with
      info := { lchan.info with forConn := none }
      mgwEndpointCiBts := none
      conn := none }

/-- A function of the source that takes a pointer and returns at once on NULL. -/
def unlessNull (f : LchanId → Bsc → Bsc) (l : Option LchanId) (w : Bsc) : Bsc :=
  match l with
  | none => w
  | some l => f l w

def gsconBssmapClear (c : ConnId) (w : Bsc) : Bsc := w.send (.clearRequest c)

/-- The pointers that `gscon_forget_lchan` sets to NULL. -/
def Conn.forgetLchan (k : Conn) (l : LchanId) : Conn :=
  { k with
    assignmentNewLchan := if k.assignmentNewLchan = some l then none else k.assignmentNewLchan
    hoNewLchan := if k.hoNewLchan = some l then none else k.hoNewLchan
    lchan := if k.lchan = some l then none else k.lchan }

def Conn.lost (k : Conn) : Bool :=
  k.lchan.isNone && k.hoNewLchan.isNone && k.assignmentNewLchan.isNone

def gsconForgetLchan (c : ConnId) (l : LchanId) (w : Bsc) : Except Fault Bsc := do
  let k ← w.getConn c
  let w := w.updConn c (·.forgetLchan l)
  if k.fi ≠ .clearing ∧ (k.forgetLchan l).lost then return gsconBssmapClear c w
  else return w

def gsconForgetMgwEndpoint (c : ConnId) (w : Bsc) : Bsc :=
  match w.conn c with
  | none => w
  | some k =>
    let w := w.updConn c ({ · with
      mgwEndpoint := false, mgwEndpointCiMsc := none, hoCreatedCiForMsc := none })
    let w := unlessNull lchanForgetMgwEndpoint k.lchan w
    let w := unlessNull lchanForgetMgwEndpoint k.assignmentNewLchan w
    unlessNull lchanForgetMgwEndpoint k.hoNewLchan w

def gsconForgetMgwEndpointCi (c : ConnId) (ci : Ci) (w : Bsc) : Bsc :=
  w.updConn c fun k => { k with
    hoCreatedCiForMsc := if k.hoCreatedCiForMsc = some ci then none else k.hoCreatedCiForMsc
    mgwEndpointCiMsc := if k.mgwEndpointCiMsc = some ci then none else k.mgwEndpointCiMsc }

/-- `osmo_mgcpc_ep_ci_dlcx`: the endpoint that loses its last connection ends and
tells the subscriber connection, which forgets it. -/
def osmoMgcpcEpCiDlcx (x : Foreign) (ci : Ci) (w : Bsc) : Bsc :=
  let w := w.send (.dlcx ci)
  if x.lastCi then gsconForgetMgwEndpoint ci.conn w else w

def osmoMgcpcEpClear (c : ConnId) (w : Bsc) : Bsc :=
  match w.conn c with
  | some k => if k.mgwEndpoint then gsconForgetMgwEndpoint c (w.send (.epClear c)) else w
  | none => w

end OsmoBsc.Chan
