import OsmoBsc.Neighbor.Ident

set_option autoImplicit false

namespace OsmoBsc.Neighbor

structure Plmn where
  mcc : UInt16
  mnc : UInt16
  mnc3Digits : Bool
  deriving DecidableEq, Repr

inductive CellId where
  | lac (lac : UInt16)
  | lacAndCi (lac ci : UInt16)
  | wholeGlobal (plmn : Plmn) (lac ci : UInt16)
  deriving DecidableEq, Repr

/-- The fields of `struct gsm_bts` that neighbours depend on, with the ARFCN of its first
TRX. A local neighbour is the number of a BTS. -/
structure Bts where
  cellIdentity : UInt16 := 0
  locationAreaCode : UInt16 := 0
  bsic : UInt8 := 0x3f
  arfcn : UInt16 := 0
  localNeighbors : List Nat := []
  deriving DecidableEq, Repr

/-- The network: the BTSs by their number, and the remote neighbours. -/
structure Net where
  plmn : Plmn
  bts : List Bts
  remote : Store (List CellId)

structure Vty where
  net : Net
  index : Option Nat

/-- The VTY commands that matter to neighbours. -/
inductive Cmd where
  | plmn (plmn : Plmn)
  | bts (nr : Nat)
  | cellIdentity (ci : UInt16)
  | locationAreaCode (lac : UInt16)
  | baseStationIdCode (bsic : UInt8)
  | arfcn (arfcn : UInt16)
  | neighborBts (nr : Nat)
  | neighborCell (cellId : CellId)
  | neighborKey (cellId : CellId) (arfcn : UInt16) (bsic : UInt8)
  | noNeighborBts (nr : Nat)
  | noNeighborKey (arfcn : UInt16) (bsic : UInt8)
  deriving DecidableEq, Repr

def gsmLacReservedDetached : UInt16 := 0x0000

def gsmLacReservedAllBts : UInt16 := 0xfffe

def keyMatchesBts (key : Key) (bts : Bts) : Bool :=
  key.arfcn == bts.arfcn && (key.bsic == bsicAny || key.bsic == bts.bsic)

def Net.modifyBts (net : Net) (k : Nat) (f : Bts → Bts) : Net := { net with bts := net.bts.modify k f }

/-- `gsm_bts_local_neighbor_add`, for a neighbour that is another BTS. -/
def Bts.localNeighborAdd (j : Nat) (bts : Bts) : Bts :=
  if j ∈ bts.localNeighbors then bts else { bts with localNeighbors := bts.localNeighbors ++ [j] }

def Bts.localNeighborDel (j : Nat) (bts : Bts) : Bts :=
  { bts with localNeighbors := bts.localNeighbors.erase j }

def Net.btsNum (net : Net) (nr : Nat) : Option Nat := if nr < net.bts.length then some nr else none

def addLocalBts (k : Nat) (neigh : Option Nat) (net : Net) : Bool × Net :=
  match neigh with
  | none => (false,net)
  | some j => if j = k then (false,net) else (true,net.modifyBts k (.localNeighborAdd j))

def delLocalBts (k : Nat) (neigh : Option Nat) (net : Net) : Bool × Net :=
  match neigh with
  | none => (false,net)
  | some j => (true,net.modifyBts k (.localNeighborDel j))

def delByKey (k : Nat) (key : Key) (net : Net) : Bool × Net :=
  let hit j := (net.bts[j]?).any (keyMatchesBts key)
  let locals := ((net.bts[k]?).map (·.localNeighbors)).getD []
  let (removed,remote) := neighborIdentDel (some net.remote) key
  let bts := net.bts.modify k fun b => { b with localNeighbors := b.localNeighbors.filter fun j => !hit j }
  (locals.any hit || removed,{ net with bts, remote := remote.getD net.remote })

section Commands

variable (plmnEq : Plmn → Plmn → Bool) (lists : CellIdLists (List CellId))

/-- `gsm_bts_matches_cell_id`, with `osmo_plmn_cmp` as a parameter. -/
def Bts.matchesCellId (plmn : Plmn) (cellId : CellId) (bts : Bts) : Bool :=
  match cellId with
  | .lac lac => lac == bts.locationAreaCode
  | .lacAndCi lac ci => lac == bts.locationAreaCode && ci == bts.cellIdentity
  | .wholeGlobal p lac ci => plmnEq p plmn && lac == bts.locationAreaCode && ci == bts.cellIdentity

/-- `gsm_bts_by_cell_id`: the first BTS that matches. -/
def Net.btsByCellId (net : Net) (cellId : CellId) : Option Nat :=
  net.bts.findIdx? (Bts.matchesCellId plmnEq net.plmn cellId)

def addRemoteOrLocalBts (k : Nat) (cellId : CellId) (key : Key) (net : Net) : Bool × Net :=
  match net.btsByCellId plmnEq cellId with
  | some j => if (net.bts[j]?).any (keyMatchesBts key) then addLocalBts k (some j) net else (false,net)
  | none => match neighborIdentGet (some net.remote) key with
    | some _ => (false,net)
    | none =>
      let (rc,remote) := neighborIdentAdd lists (some net.remote) key [cellId]
      (decide (0 ≤ rc),{ net with remote := remote.getD net.remote })

/-- A command on the node of a BTS. -/
def btsCmd (k : Nat) (net : Net) : Cmd → Bool × Net
  | .cellIdentity ci => (true,net.modifyBts k ({ · with cellIdentity := ci }))
  | .locationAreaCode lac =>
    if lac = gsmLacReservedDetached ∨ lac = gsmLacReservedAllBts then (false,net)
    else (true,net.modifyBts k ({ · with locationAreaCode := lac }))
  | .baseStationIdCode bsic =>
    if bsic > 0x3f then (false,net) else (true,net.modifyBts k ({ · with bsic }))
  | .arfcn arfcn => (true,net.modifyBts k ({ · with arfcn }))
  | .neighborBts nr => addLocalBts k (net.btsNum nr) net
  | .neighborCell cellId => addLocalBts k (net.btsByCellId plmnEq cellId) net
  | .neighborKey cellId arfcn bsic => addRemoteOrLocalBts plmnEq lists k cellId ⟨k,arfcn,bsic⟩ net
  | .noNeighborBts nr => delLocalBts k (net.btsNum nr) net
  | .noNeighborKey arfcn bsic => delByKey k ⟨k,arfcn,bsic⟩ net
  | _ => (false,net)

def onBtsNode (v : Vty) (cmd : Cmd) : Bool × Vty :=
  match v.index with
  | none => (false,v)
  | some k => ((btsCmd plmnEq lists k v.net cmd).1,{ v with net := (btsCmd plmnEq lists k v.net cmd).2 })

/-- A command, and whether it returns CMD_SUCCESS. -/
def exec (v : Vty) : Cmd → Bool × Vty
  | .plmn plmn => (true,{ v with net := { v.net with plmn } })
  | .bts nr =>
    if nr > 255 ∨ nr > v.net.bts.length then (false,v)
    else if nr = v.net.bts.length then
      (true,⟨{ v.net with bts := v.net.bts ++ [{}] },some nr⟩)
    else (true,{ v with index := some nr })
  | cmd => onBtsNode plmnEq lists v cmd

/-- A network without BTSs. -/
def emptyVty (plmn : Plmn) : Vty := ⟨⟨plmn,[],[]⟩,none⟩

inductive Configured : Vty → Prop where
  | start (plmn : Plmn) : Configured (emptyVty plmn)
  | next {v : Vty} (cmd : Cmd) : Configured v → Configured (exec plmnEq lists v cmd).2

def replay : List Cmd → Vty → Option Vty
  | [], v => some v
  | cmd :: cmds, v => if (exec plmnEq lists v cmd).1 then replay cmds (exec plmnEq lists v cmd).2 else none

end Commands

/-- `write_neighbor_ident_list`. -/
def writeRemote (e : Ident (List CellId)) : List Cmd :=
  e.val.map fun cellId => .neighborKey cellId e.key.arfcn e.key.bsic

def neighborIdentVtyWrite (net : Net) (k : Nat) (bts : Bts) : List Cmd :=
  bts.localNeighbors.map .neighborBts ++
    (net.remote.filter fun e => e.key.fromBts = (k : Int)).flatMap writeRemote

/-- `config_write_bts_single`: the TRXs come last. -/
def configWriteBtsSingle (net : Net) (k : Nat) (bts : Bts) : List Cmd :=
  [Cmd.bts k,.cellIdentity bts.cellIdentity,.locationAreaCode bts.locationAreaCode,
      .baseStationIdCode bts.bsic] ++
    neighborIdentVtyWrite net k bts ++ [Cmd.arfcn bts.arfcn]

/-- `config_write_net` and `config_write_bts`. -/
def configWrite (net : Net) : List Cmd :=
  .plmn net.plmn :: net.bts.zipIdx.flatMap fun b => configWriteBtsSingle net b.2 b.1

structure SameNeighbors (net net' : Net) : Prop where
  count : net'.bts.length = net.bts.length
  locals : ∀ (k : Nat) (b b' : Bts), net.bts[k]? = some b → net'.bts[k]? = some b' →
    ∀ j, j ∈ b'.localNeighbors ↔ j ∈ b.localNeighbors
  remotes : net'.remote.Perm net.remote

end OsmoBsc.Neighbor
