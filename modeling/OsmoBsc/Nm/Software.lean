import OsmoBsc.Lib.Calls
import OsmoBsc.Nm.Queue
import Mathlib.Logic.Function.Basic
set_option autoImplicit false

namespace OsmoBsc.Nm
open EventFsm Calls

abbrev BtsId := UInt8

inductive SwState where
  | none
  | waitInitack
  | waitSegack
  | waitEndack
  | waitActack
  | error
  deriving DecidableEq, Repr

def ipaccSegmentSize : Nat := 245

/-- The fields of `struct abis_nm_sw` that the load works with; `rest` is what `fd` or
`stream` has still to read. The last four tell of the load: how many files are open, what the
file contained, the segments since LOAD INIT and how many of them are not acknowledged. -/
structure Sw where
  bts : BtsId := 0
  obj : Obj := ⟨0,0xff,0xff,0xff⟩
  forced : Bool := false
  windowSize : UInt8 := 0
  segInWindow : Nat := 0
  state : SwState := .none
  lastSeg : Bool := false
  rest : List UInt8 := []
  openFiles : Nat := 0
  file : List UInt8 := []
  segs : List (List UInt8) := []
  unacked : Nat := 0
  deriving DecidableEq, Repr

/-- The BTSs and `g_sw`, which they share. -/
structure Net where
  bts : BtsId → Bts
  sw : Sw

def Net.updBts (net : Net) (b : BtsId) (f : Bts → Bts) : Net :=
  { net with bts := Function.update net.bts b (f (net.bts b)) }

/-- A file of software: what it contains, and whether its header is one for this BTS. -/
structure File where
  content : List UInt8
  headerOk : Bool
  deriving DecidableEq, Repr

/-- The arguments of `abis_nm_software_load`; there is no file when it cannot be opened. -/
structure Load where
  bts : BtsId
  trxNr : UInt8
  file : Option File
  winSize : UInt8
  forced : Bool
  deriving DecidableEq, Repr

inductive Api where
  | sendmsg (b : BtsId) (m : Msg)
  | sendmsgDirect (b : BtsId) (m : Msg)
  | softwareLoad (l : Load)
  | softwareActivate (b : BtsId) (file : Option File)
  deriving DecidableEq, Repr

/-- A message is received; the handlers of its signals or `cbfn` call `acts`. -/
inductive Input where
  | api (a : Api)
  | rcvmsg (b : BtsId) (r : Rx) (acts : List Api)
  deriving DecidableEq, Repr

inductive Call where
  | api (a : Api)
  | rcvmsg (b : BtsId) (r : Rx) (acts : List Api)
  | swSegAck (b : BtsId)
  | swFillWindow
  | swState (st : SwState)
  | queueSendNext (b : BtsId)
  deriving DecidableEq, Repr

/-- `fgets` with a buffer of 254 bytes: the line and what comes after it. -/
def fgets (s : List UInt8) : List UInt8 × List UInt8 :=
  let n := min 253 (s.findIdx (· = 10) + 1)
  (s.take n,s.drop n)

/-- The next segment of the file with what is then left of it, as `sw_load_segment` reads it. -/
def readSegment (type : BtsType) (rest : List UInt8) : Option (List UInt8 × List UInt8) :=
  match type with
  | .bs11 => if rest.isEmpty then none else some (fgets rest)
  | .nanobts => some (rest.take ipaccSegmentSize,rest.drop ipaccSegmentSize)
  | .osmobts | .other => none

/-- What a segment carries of the data read: for a BS-11 a string. -/
def carried (type : BtsType) (data : List UInt8) : List UInt8 :=
  if type = .bs11 then data.takeWhile (· ≠ 0) else data

/-- `sw_load_segment`, when something was read. -/
def swLoadSegment (net : Net) (data rest : List UInt8) : Net :=
  let type := (net.bts net.sw.bts).type
  let last := if type = .bs11 then rest.isEmpty
    else decide (data.length ≠ ipaccSegmentSize) || net.sw.lastSeg
  let seg := carried type data
  { net with sw := { net.sw with
      rest := rest
      lastSeg := last
      segInWindow := if type = BtsType.bs11 ∧ last = true then net.sw.segInWindow
        else net.sw.segInWindow + 1
      segs := net.sw.segs ++ [seg]
      unacked := net.sw.unacked + 1 } }.updBts net.sw.bts
    (·.sendmsgDirect ⟨false,net.sw.obj,.loadSeg,seg,false⟩)

/-- `sw_fill_window`, one segment at a time. -/
def swFillWindow (readFails : Bool) (net : Net) : Net × List Call :=
  if net.sw.segInWindow < net.sw.windowSize.toNat then
    if readFails then (net,[])
    else match readSegment (net.bts net.sw.bts).type net.sw.rest with
      | none => (net,[])
      | some (data,rest) =>
        let net := swLoadSegment net data rest
        (net,if net.sw.lastSeg then [] else [.swFillWindow])
  else (net,[])

/-- LOAD SEG ACK in SW_STATE_WAIT_SEGACK after `cbfn`, with `sw_load_end`. -/
def swSegAck (b : BtsId) (net : Net) : Net × List Call :=
  let net := { net with sw := { net.sw with segInWindow := 0, unacked := 0 } }
  if !net.sw.lastSeg then (net,[.swFillWindow,.swState .waitSegack,.queueSendNext b])
  else ({ net with sw := { net.sw with state := .waitEndack } }.updBts net.sw.bts
    (·.sendmsg ⟨false,net.sw.obj,.loadEnd,[],true⟩),[.queueSendNext b])

def Net.swState (net : Net) (st : SwState) : Net := { net with sw := { net.sw with state := st } }

def abisNmRcvmsgSw (b : BtsId) (mt : MsgType) (acts : List Call) (net : Net) : Net × List Call :=
  match net.sw.state, mt with
  | .waitInitack, .loadInitAck =>
    (net,acts ++ [Call.swFillWindow,.swState .waitSegack,.queueSendNext b])
  | .waitInitack, .loadInitNack =>
    if net.sw.forced then (net,acts ++ [Call.swFillWindow,.swState .waitSegack,.queueSendNext b])
    else (net,acts ++ [Call.swState .error,.queueSendNext b])
  | .waitSegack, .loadSegAck => (net,acts ++ [Call.swSegAck b])
  | .waitSegack, .loadAbort => (net,acts)
  | .waitEndack, .loadEndAck =>
    ({ net with sw := { net.sw with state := .none, openFiles := net.sw.openFiles - 1 } },
      acts ++ [Call.queueSendNext b])
  | .waitEndack, .loadEndNack =>
    (net.swState (if net.sw.forced then .none else .error),acts ++ [Call.queueSendNext b])
  | .waitActack, .activateSwAck => (net.swState .none,acts ++ [Call.queueSendNext b])
  | .waitActack, .activateSwNack => (net.swState .error,acts ++ [Call.queueSendNext b])
  | _, _ => (net,[])

def MsgType.isSwLoad : MsgType → Bool
  | .loadInitAck | .loadInitNack | .loadSegAck | .loadAbort | .loadEndAck | .loadEndNack
  | .activateSwAck | .activateSwNack => true
  | _ => false

def MsgType.isReport : MsgType → Bool
  | .report _ => true
  | _ => false

/-- `abis_nm_rcvmsg`, with `abis_nm_rcvmsg_fom` and `abis_nm_rcvmsg_manuf`. -/
def abisNmRcvmsg (b : BtsId) (r : Rx) (acts : List Call) (net : Net) : Net × List Call :=
  let net := net.updBts b (·.receive r)
  if r.manuf then match (net.bts b).type with
    | .nanobts | .osmobts => (net,acts ++ [Call.queueSendNext b])
    | .bs11 | .other => (net,[])
  else if r.mt.isReport then (net,acts)
  else if r.mt.isSwLoad then abisNmRcvmsgSw b r.mt acts net
  else (net,acts ++ [Call.queueSendNext b])

def Load.obj (l : Load) (type : BtsType) : Obj :=
  if type = .nanobts then ⟨4,l.bts,l.trxNr,0xff⟩ else ⟨0,0xff,0xff,0xff⟩

/-- `abis_nm_software_load`, with `sw_open_file` and `sw_load_init`. A file whose header
is wrong stays open. -/
def abisNmSoftwareLoad (l : Load) (net : Net) : Net :=
  if net.sw.state ≠ .none then net
  else
    let type := (net.bts l.bts).type
    let net := { net with sw := { net.sw with bts := l.bts } }
    if type = .bs11 ∨ type = .nanobts then
      let sw := { net.sw with obj := l.obj type, windowSize := l.winSize, forced := l.forced }
      match l.file with
      | none => { net with sw := sw }
      | some f =>
        let sw := { sw with openFiles := sw.openFiles + 1, rest := f.content }
        if f.headerOk then
          { net with sw := { sw with
              state := .waitInitack, file := f.content, segs := [], unacked := 0 } }.updBts l.bts
            (·.sendmsg ⟨false,sw.obj,.loadInit,[],true⟩)
        else { net with sw := sw }
    else net

def abisNmSoftwareActivate (b : BtsId) (file : Option File) (net : Net) : Net :=
  if net.sw.state ≠ .none then net
  else
    let sw := { net.sw with bts := b, obj := ⟨0,0xff,0xff,0xff⟩ }
    let type := (net.bts b).type
    match file with
    | none => { net with sw := sw }
    | some f =>
      if type = .bs11 ∨ type = .nanobts then
        if f.headerOk then
          { net with sw := { sw with state := .waitActack, rest := f.content } }.updBts b
            (·.sendmsg ⟨false,sw.obj,.activateSw,[],true⟩)
        else { net with sw := { sw with openFiles := sw.openFiles + 1, rest := f.content } }
      else { net with sw := sw }

def execApi (a : Api) (net : Net) : Net :=
  match a with
  | .sendmsg b m => net.updBts b (·.sendmsg m)
  | .sendmsgDirect b m => net.updBts b (·.sendmsgDirect m)
  | .softwareLoad l => abisNmSoftwareLoad l net
  | .softwareActivate b file => abisNmSoftwareActivate b file net

/-- A single call; the foreign outcome is whether a read of the file fails. -/
def exec (call : Call) (readFails : Bool) (net : Net) : Except Fault (Net × List Call) :=
  match call with
  | .api a => .ok (execApi a net,[])
  | .rcvmsg b r acts => .ok (abisNmRcvmsg b r (acts.map .api) net)
  | .swSegAck b => .ok (swSegAck b net)
  | .swFillWindow => .ok (swFillWindow readFails net)
  | .swState st => .ok (net.swState st,[])
  | .queueSendNext b => .ok (net.updBts b (·.queueSendNext),[])

def enter (i : Input) (_ : Net) : List Call :=
  match i with
  | .api a => [.api a]
  | .rcvmsg b r acts => [.rcvmsg b r acts]

abbrev Config := Calls.Config Net Call

abbrev Move := Calls.Move Input Bool

/-- BTSs of these types, to which nothing was sent and where no software was loaded. -/
def initial (type : BtsId → BtsType) : Config := ⟨{ bts := fun b => { type := type b }, sw := {} },[]⟩

/-- What runs reach whose moves all meet `good`. -/
abbrev Reachable (type : BtsId → BtsType) (good : Config → Move → Prop) : Config → Prop :=
  Reach (step exec enter) good (· = initial type)

def moves (n : Nat) (is : List Input) : List Move :=
  is.flatMap fun i => .input i :: List.replicate n (.call false)

section Frame

variable {net : Net} {b b' : BtsId}

@[simp] theorem Net.updBts_self (f : Bts → Bts) : (net.updBts b f).bts b = f (net.bts b) := by
  simp [Net.updBts]

theorem Net.updBts_ne (f : Bts → Bts) (h : b ≠ b') : (net.updBts b' f).bts b = net.bts b := by
  simp [Net.updBts,h]

@[simp] theorem Net.updBts_sw (f : Bts → Bts) : (net.updBts b f).sw = net.sw := rfl

@[simp] theorem Net.swState_bts (st : SwState) : (net.swState st).bts = net.bts := rfl

theorem execApi_sw (a : Api) (h : net.sw.state ≠ .none) : (execApi a net).sw = net.sw := by
  cases a with
  | sendmsg b m => rfl
  | sendmsgDirect b m => rfl
  | softwareLoad l => rw [execApi,abisNmSoftwareLoad,if_pos h]
  | softwareActivate b file => rw [execApi,abisNmSoftwareActivate,if_pos h]

theorem abisNmRcvmsgSw_bts (b : BtsId) (mt : MsgType) (calls : List Call) :
    (abisNmRcvmsgSw b mt calls net).1.bts = net.bts := by
  unfold abisNmRcvmsgSw
  split
  case h_2 => split <;> rfl
  all_goals rfl

theorem abisNmRcvmsg_bts (b : BtsId) (r : Rx) (calls : List Call) :
    (abisNmRcvmsg b r calls net).1.bts = (net.updBts b (·.receive r)).bts := by
  unfold abisNmRcvmsg
  dsimp only
  split
  · split <;> rfl
  · split
    · rfl
    · split
      · exact abisNmRcvmsgSw_bts b r.mt calls
      · rfl

end Frame

end OsmoBsc.Nm
