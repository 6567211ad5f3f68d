import OsmoBsc.Acc.Isolation
import OsmoBsc.Lib.Cascade
import OsmoBsc.Lib.Fsm
import OsmoBsc.Nm.Queue
set_option autoImplicit false

namespace OsmoBsc.Ipaccess
open EventFsm

def omlUp : BitVec 32 := 1

/-- `RSL_UP`, shifted by the number of the TRX; a shift takes its count modulo 32. -/
def rslUp (trx : Nat) : BitVec 32 := 2 <<< (trx % 32)

/-- `gsm_abis_mo_reset`, with the codes of NM_OPSTATE_NULL and NM_AVSTATE_POWER_OFF. -/
def gsmAbisMoReset (s : Acc.NmState) : Acc.NmState :=
  { s with operational := .other 0xff, availability := .other 2 }

/-- The events of `enum ts_fsm_event` for the links. -/
inductive TsEvent where
  | omlReady
  | omlDown
  | rslReady
  | rslDown
  deriving DecidableEq, Repr

/-- A timeslot, as far as its links go: whether its FSM is in TS_ST_NOT_INITIALIZED. -/
structure Ts where
  mo : Acc.NmState
  notInitialized : Bool := true
  isOmlReady : Bool := false
  isRslReady : Bool := false
  deriving DecidableEq, Repr

/-- `osmo_fsm_inst_dispatch` on the FSM of a timeslot. -/
def Ts.dispatch (ts : Ts) : TsEvent → Ts
  | .omlReady =>
    if ts.notInitialized then { ts with isOmlReady := true, notInitialized := !ts.isRslReady } else ts
  | .rslReady =>
    if ts.notInitialized then { ts with isRslReady := true, notInitialized := !ts.isOmlReady } else ts
  | .omlDown => { ts with isOmlReady := false, notInitialized := true }
  | .rslDown => { ts with isRslReady := false, notInitialized := true }

/-- What `bootstrap_rsl` did since an RSL link came up. -/
structure Bootstrap where
  systemInfos : Bool := false
  rslReady : List Nat := []
  deriving DecidableEq, Repr

/-- `struct gsm_bts_trx`, with an RSL link or none. -/
structure Trx where
  mo : Acc.NmState
  bbTransc : Acc.NmState
  rslLink : Option Bootstrap := none
  ts : List Ts
  deriving DecidableEq, Repr

/-- The fields of `struct gsm_bts` for its links: what it depends on, its managed objects, its
OML queue, its access class ramp and its counters. The first TRX is `c0`. -/
structure Bts where
  dependsOn : Fin 8 → BitVec 32 := fun _ => 0
  omlLink : Bool := false
  omlDropLinkTimer : Bool := false
  flags : BitVec 32 := 0
  mo : Acc.NmState
  siteMgr : Acc.NmState
  nsvc : Acc.NmState × Acc.NmState
  nse : Acc.NmState
  cell : Acc.NmState
  trx : List Trx
  nm : Nm.Bts
  acc : Acc.Bts := {}
  omlFail : Nat := 0
  rslFail : Nat := 0

/-- `trx_is_usable` for an ip.access BTS. -/
def Trx.isUsable (trx : Trx) : Bool := trx.mo.isRunning && trx.bbTransc.isRunning

def Trx.dispatch (trx : Trx) (ev : TsEvent) : Trx := { trx with ts := trx.ts.map (·.dispatch ev) }

def Trx.moReset (trx : Trx) : Trx :=
  { trx with
    mo := gsmAbisMoReset trx.mo
    bbTransc := gsmAbisMoReset trx.bbTransc
    ts := trx.ts.map fun ts => { ts with mo := gsmAbisMoReset ts.mo } }

def Bts.updTrx (bts : Bts) (i : Nat) (f : Trx → Trx) : Bts := { bts with trx := bts.trx.modify i f }

def Bts.moReset (bts : Bts) : Bts :=
  { bts with
    mo := gsmAbisMoReset bts.mo
    siteMgr := gsmAbisMoReset bts.siteMgr
    nsvc := (gsmAbisMoReset bts.nsvc.1,gsmAbisMoReset bts.nsvc.2)
    nse := gsmAbisMoReset bts.nse
    cell := gsmAbisMoReset bts.cell
    trx := bts.trx.map Trx.moReset }

inductive SignType where
  | oml
  | rsl
  deriving DecidableEq, Repr

/-- `inp_sig_cb` for S_L_INP_TEI_DN of a link of TRX `i`. -/
def Bts.teiDn (bts : Bts) (type : SignType) (i : Nat) : Bts :=
  let bts := match type with
    | .oml => ({ bts with omlFail := bts.omlFail + 1 } : Bts).updTrx i (·.dispatch .omlDown)
    | .rsl =>
      ({ bts with rslFail := bts.rslFail + 1, acc := bts.acc.accRampAbort } : Bts).updTrx i
        (·.dispatch .rslDown)
  let bts := bts.moReset
  { bts with nm := bts.nm.clearQueue }

/-- `bootstrap_rsl`: what was done is noted with the link. -/
def Bts.bootstrapRsl (bts : Bts) (i : Nat) : Bts :=
  let bts := match bts.trx[i]? with
    | none => bts
    | some trx =>
      if trx.isUsable && trx.mo.administrative == Acc.AdmState.unlocked then { bts with acc := bts.acc.accRampTrigger }
      else bts
  bts.updTrx i fun trx =>
    { (trx.dispatch .rslReady) with
      rslLink := trx.rslLink.map fun _ => { systemInfos := true, rslReady := List.range trx.ts.length } }

def getAttr (objClass btsNr trxNr : UInt8) : Nm.Msg :=
  ⟨false,⟨objClass,btsNr,trxNr,0xff⟩,.request 0x81,[],true⟩

/-- `inp_sig_cb` for S_L_INP_TEI_UP of the OML link. -/
def Bts.teiUpOml (bts : Bts) : Bts :=
  let nm := bts.nm.sendmsg (getAttr 1 0xff 0xff)
  { bts with nm := (List.range bts.trx.length).foldl (fun nm i => nm.sendmsg (getAttr 4 0 (UInt8.ofNat i))) nm }

/-- `ipaccess_drop_rsl`: the link is destroyed, which raises S_L_INP_TEI_DN. -/
def Bts.dropRsl (bts : Bts) (i : Nat) : Bts :=
  match bts.trx[i]? with
  | none => bts
  | some trx =>
    if trx.rslLink.isNone then bts else (bts.teiDn .rsl i).updTrx i ({ · with rslLink := none })

/-- `ipaccess_drop_oml` for a BTS with an OML link, up to its loop over the other BTSs. -/
def Bts.dropLinks (bts : Bts) : Bts :=
  let bts := { (bts.teiDn .oml 0) with omlLink := false }
  let bts := (List.range bts.trx.length).foldl Bts.dropRsl bts
  { bts with trx := bts.trx.map (·.dispatch .omlDown), flags := 0 }

def dependsIndex (nr : UInt8) : Fin 8 := ⟨nr.toNat / 32,by have := nr.toNat_lt; omega⟩

def dependsBit (nr : UInt8) : BitVec 32 := 1 <<< (nr.toNat % 32)

def Bts.dependMark (bts : Bts) (dep : UInt8) : Bts :=
  let words := bts.dependsOn (dependsIndex dep) ||| dependsBit dep
  { bts with dependsOn := Function.update bts.dependsOn (dependsIndex dep) words }

/-- `bts_depend_is_depedency`. -/
def Bts.dependIsDependency (base : Bts) (other : UInt8) : Bool :=
  base.dependsOn (dependsIndex other) &&& dependsBit other != 0

/-- The `bts_list` of a network of ip.access BTSs, by their numbers. -/
structure Net where
  list : List UInt8
  bts : UInt8 → Bts

def Net.updBts (net : Net) (b : UInt8) (f : Bts → Bts) : Net :=
  { net with bts := Function.update net.bts b (f (net.bts b)) }

def Bts.isOnline (bts : Bts) : Bool := bts.omlLink && bts.mo.operational == .enabled

def Net.dependCheck (net : Net) (b : UInt8) : Bool :=
  net.list.all fun other => !(net.bts b).dependIsDependency other || (net.bts other).isOnline

/-- `ipaccess_drop_oml`, nested at most `n` deep. -/
def ipaccessDropOml : Nat → UInt8 → Net → Option Net
  | 0, _, _ => none
  | n+1, b, net =>
    let net := net.updBts b ({ · with omlDropLinkTimer := false })
    if (net.bts b).omlLink then
      net.list.foldlM (fun net rdep => if (net.bts rdep).dependIsDependency b then ipaccessDropOml n rdep net
        else some net) (net.updBts b Bts.dropLinks)
    else some net

/-- `ipaccess_sign_link_up` for the OML link. -/
def signLinkUpOml (n : Nat) (b : UInt8) (net : Net) : Option Net := do
  let net ← ipaccessDropOml n b net
  if net.dependCheck b then
    return net.updBts b fun bts =>
      let bts := { bts with omlLink := true }
      if bts.flags &&& omlUp = 0 then { (bts.teiUpOml) with flags := bts.flags ||| omlUp } else bts
  else return net

/-- `ipaccess_sign_link_up` for the RSL link of TRX `i`. -/
def Bts.signLinkUpRsl (bts : Bts) (i : Nat) : Bts :=
  if bts.omlLink && decide (i < bts.trx.length) then
    let bts := (bts.dropRsl i).updTrx i ({ · with rslLink := some {} })
    if bts.flags &&& rslUp i = 0 then
      { (bts.bootstrapRsl i) with flags := bts.flags ||| rslUp i }
    else bts
  else bts

/-- The managed objects of a BTS. -/
inductive Mo where
  | bts
  | siteMgr
  | nsvc (first : Bool)
  | nse
  | cell
  | trx (i : Nat)
  | bbTransc (i : Nat)
  | ts (i j : Nat)
  deriving DecidableEq, Repr

/-- The state of a managed object is reported. -/
def Bts.setMo (bts : Bts) (mo : Mo) (s : Acc.NmState) : Bts :=
  match mo with
  | .bts => { bts with mo := s }
  | .siteMgr => { bts with siteMgr := s }
  | .nsvc first => { bts with nsvc := if first then (s,bts.nsvc.2) else (bts.nsvc.1,s) }
  | .nse => { bts with nse := s }
  | .cell => { bts with cell := s }
  | .trx i => bts.updTrx i ({ · with mo := s })
  | .bbTransc i => bts.updTrx i ({ · with bbTransc := s })
  | .ts i j => bts.updTrx i fun trx => { trx with ts := trx.ts.modify j ({ · with mo := s }) }

/-- What can happen to the links of BTS `b`; the OML link is dropped when the peer closes it, by
the VTY, the control interface or the RF control. -/
inductive Input where
  | signLinkUpOml (b : UInt8)
  | signLinkUpRsl (b : UInt8) (i : Nat)
  | dropOml (b : UInt8)
  | dropRsl (b : UInt8) (i : Nat)
  | dropOmlDeferred (b : UInt8)
  | omlDropLinkTimer (b : UInt8)
  | stateReport (b : UInt8) (mo : Mo) (s : Acc.NmState)
  | tsOmlReady (b : UInt8) (i j : Nat)
  | sendmsg (b : UInt8) (m : Nm.Msg)
  | nmAnswer (b : UInt8)
  deriving DecidableEq, Repr

def Input.bts : Input → UInt8
  | .signLinkUpOml b | .signLinkUpRsl b _ | .dropOml b | .dropRsl b _ | .dropOmlDeferred b
  | .omlDropLinkTimer b | .stateReport b _ _ | .tsOmlReady b _ _ | .sendmsg b _ | .nmAnswer b => b

/-- How deep `ipaccess_drop_oml` may be nested. -/
def Net.depth (net : Net) : Nat := net.list.length + 1

def Net.exec (net : Net) : Input → Option Net
  | .signLinkUpOml b => signLinkUpOml net.depth b net
  | .signLinkUpRsl b i => some (net.updBts b (·.signLinkUpRsl i))
  | .dropOml b => ipaccessDropOml net.depth b net
  | .dropRsl b i => some (net.updBts b (·.dropRsl i))
  | .dropOmlDeferred b => some (net.updBts b fun bts =>
      if !bts.omlDropLinkTimer && bts.omlLink then { bts with omlDropLinkTimer := true } else bts)
  | .omlDropLinkTimer b =>
    if (net.bts b).omlDropLinkTimer then ipaccessDropOml net.depth b net else some net
  | .stateReport b mo s => some (net.updBts b (·.setMo mo s))
  | .tsOmlReady b i j => some (net.updBts b (·.updTrx i fun trx =>
      { trx with ts := trx.ts.modify j (·.dispatch .omlReady) }))
  | .sendmsg b m => some (net.updBts b fun bts => { bts with nm := bts.nm.sendmsg m })
  | .nmAnswer b => some (net.updBts b fun bts => { bts with nm := bts.nm.queueSendNext })

def step (net : Net) (i : Input) : Except Fault Net :=
  if i.bts ∈ net.list then match net.exec i with
    | none => .error .outOfFuel
    | some net => .ok net
  else .ok net

structure Net.Started (net : Net) : Prop where
  oml : ∀ b, (net.bts b).omlLink = false
  flags : ∀ b, (net.bts b).flags = 0
  rsl : ∀ b, ∀ trx ∈ (net.bts b).trx, trx.rslLink = none
  ready : ∀ b, ∀ trx ∈ (net.bts b).trx, ∀ ts ∈ trx.ts, ts.isRslReady = false
  eight : ∀ b, ∀ trx ∈ (net.bts b).trx, trx.ts.length = 8

/-- The networks that runs reach whose inputs all meet `good`. -/
def Reachable (good : Net → Input → Prop) (net : Net) : Prop := Reach step good Net.Started net

/-- `gsm_bts_alloc` of a nanoBTS with `trx` TRXs. -/
def gsmBtsAlloc (trx : Nat) : Bts :=
  let mo := gsmAbisMoReset ⟨.other 0,.disabled,.ok⟩
  { mo := mo, siteMgr := mo, nsvc := (mo,mo), nse := mo, cell := mo, nm := { type := .nanobts }
    trx := List.replicate trx
      { mo := { mo with administrative := .unlocked }, bbTransc := mo, ts := List.replicate 8 { mo := mo } } }

/-- A network of two BTSs; the second one depends on the first. -/
def twoBts : Net :=
  { list := [0,1], bts := fun b => if b = 1 then (gsmBtsAlloc 2).dependMark 0 else gsmBtsAlloc 2 }

theorem twoBts_started : twoBts.Started := by
  have h : ∀ b, (twoBts.bts b).omlLink = (gsmBtsAlloc 2).omlLink ∧
      (twoBts.bts b).flags = (gsmBtsAlloc 2).flags ∧ (twoBts.bts b).trx = (gsmBtsAlloc 2).trx := by
    intro b
    rw [twoBts]
    dsimp only
    split <;> exact ⟨rfl,rfl,rfl⟩
  refine ⟨fun b => (h b).1,fun b => (h b).2.1,fun b => ?_,fun b => ?_,fun b => ?_⟩
  all_goals
    rw [(h b).2.2]
    decide

section Frame

variable (bts : Bts) (i : Nat) (type : SignType)

@[simp] theorem teiDn_omlLink : (bts.teiDn type i).omlLink = bts.omlLink := by cases type <;> rfl

@[simp] theorem teiDn_dependsOn : (bts.teiDn type i).dependsOn = bts.dependsOn := by cases type <;> rfl

@[simp] theorem teiDn_flags : (bts.teiDn type i).flags = bts.flags := by cases type <;> rfl

@[simp] theorem dropRsl_omlLink : (bts.dropRsl i).omlLink = bts.omlLink := by
  rw [Bts.dropRsl]
  split
  · rfl
  · split
    · rfl
    · exact teiDn_omlLink bts i .rsl

@[simp] theorem dropRsl_dependsOn : (bts.dropRsl i).dependsOn = bts.dependsOn := by
  rw [Bts.dropRsl]
  split
  · rfl
  · split
    · rfl
    · exact teiDn_dependsOn bts i .rsl

@[simp] theorem dropRsl_flags : (bts.dropRsl i).flags = bts.flags := by
  rw [Bts.dropRsl]
  split
  · rfl
  · split
    · rfl
    · exact teiDn_flags bts i .rsl

theorem foldl_dropRsl_dependsOn (is : List Nat) : (is.foldl Bts.dropRsl bts).dependsOn = bts.dependsOn := by
  induction is generalizing bts with
  | nil => rfl
  | cons i is ih => simp [ih]

theorem foldl_dropRsl_omlLink (is : List Nat) : (is.foldl Bts.dropRsl bts).omlLink = bts.omlLink := by
  induction is generalizing bts with
  | nil => rfl
  | cons i is ih => simp [ih]

@[simp] theorem dropLinks_dependsOn : bts.dropLinks.dependsOn = bts.dependsOn := by
  simp [Bts.dropLinks,foldl_dropRsl_dependsOn]

@[simp] theorem dropLinks_omlLink : bts.dropLinks.omlLink = false := by
  simp [Bts.dropLinks,foldl_dropRsl_omlLink]

@[simp] theorem bootstrapRsl_omlLink : (bts.bootstrapRsl i).omlLink = bts.omlLink := by
  rw [Bts.bootstrapRsl]
  split
  · rfl
  · split <;> rfl

@[simp] theorem bootstrapRsl_dependsOn : (bts.bootstrapRsl i).dependsOn = bts.dependsOn := by
  rw [Bts.bootstrapRsl]
  split
  · rfl
  · split <;> rfl

end Frame

end OsmoBsc.Ipaccess
