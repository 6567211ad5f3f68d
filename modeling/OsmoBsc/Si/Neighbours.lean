import OsmoBsc.Si.FreqList
set_option autoImplicit false

namespace OsmoBsc.Si

inductive NeighListManualMode where
  | automatic
  | manual
  | manualSi5sep
  deriving DecidableEq, Repr

/-- `struct neighbor_ident_key`, `none` for NEIGHBOR_IDENT_KEY_ANY_BTS. The BSIC does not
go into a frequency list. -/
structure NeighborIdentKey where
  fromBts : Option Nat
  arfcn : Nat
  deriving DecidableEq, Repr

/-- A BTS with what its neighbour lists are made of. `localNeighbors` has the C0 ARFCNs
of the BTSs that are configured as neighbours. -/
structure NeighBts extends Bts where
  nr : Nat
  neighListManualMode : NeighListManualMode := .automatic
  neighList : Bitvec := fun _ => false
  si5NeighList : Bitvec := fun _ => false
  localNeighbors : List Nat := []

/-- `struct gsm_network`: number and C0 ARFCN of each BTS, and the cells of other BSSs. -/
structure NeighNetwork where
  gsmArfcn2bandRc : Nat → Option GsmBand
  btsList : List (Nat × Nat) := []
  neighborBssCells : List NeighborIdentKey := []

/-- The ARFCNs that `generate_bcch_chan_list` sets in automatic mode. -/
def NeighNetwork.automaticNeighbors (net : NeighNetwork) (bts : NeighBts) : List Nat :=
  (if bts.localNeighbors.isEmpty then
    (net.btsList.filter fun cur => cur.1 != bts.nr).map (·.2)
  else bts.localNeighbors)
  ++ (net.neighborBssCells.filter fun key => key.fromBts.all (· == bts.nr)).map (·.arfcn)

/-- `si_common.neigh_list` after `generate_bcch_chan_list`, which fills it in automatic
mode. -/
def NeighNetwork.neighList (net : NeighNetwork) (bts : NeighBts) : Bitvec :=
  match bts.neighListManualMode with
  | .automatic => fun arfcn => (net.automaticNeighbors bts).contains arfcn
  | _ => bts.neighList

/-- The bit vector that `generate_bcch_chan_list` encodes. -/
def NeighNetwork.bcchList (net : NeighNetwork) (bts : NeighBts) (si5 : Bool) : Bitvec :=
  if si5 && bts.neighListManualMode == .manualSi5sep then bts.si5NeighList else net.neighList bts

inductive SiPart where
  | plain
  | bis
  | ter
  deriving DecidableEq, Repr

/-- The arguments that `generate_bcch_chan_list` hands to `bitvec2freq_list`. -/
def NeighNetwork.freqListArgs (net : NeighNetwork) (bts : NeighBts) (si5 : Bool) (part : SiPart) :
    FreqListArgs where
  gsmArfcn2bandRc := net.gsmArfcn2bandRc
  bts := bts.toBts
  bv := net.bcchList bts si5
  bis := part == .bis
  ter := part == .ter

def setBaInd (chanList : Octets) (si5 : Bool) : Octets :=
  Function.update chanList 0 (if si5 then chanList 0 ||| 0x10#8 else chanList 0 &&& ~~~0x10#8)

def generateBcchChanList (net : NeighNetwork) (bts : NeighBts) (si5 : Bool) (part : SiPart) :
    Except EncError Octets := do
  let chanList ← bitvec2freqList (net.freqListArgs bts si5 part)
  return setBaInd chanList si5

end OsmoBsc.Si
