import OsmoBsc.Lib.Cursor
import OsmoBsc.Si.SystemInformation
set_option autoImplicit false

namespace OsmoBsc.Si.Si2q
open EventFsm Cursor

def si2qMaxLen : Nat := 160

def si2qMaxNum : Nat := 16

def maxEarfcnList : Nat := 32

def range1024P : Nat → Nat
  | 0 => 0
  | 1 => 10
  | 2 => 19
  | 3 => 28
  | 4 => 36
  | 5 => 44
  | 6 => 52
  | 7 => 60
  | 8 => 67
  | 9 => 74
  | 10 => 81
  | 11 => 88
  | 12 => 95
  | 13 => 102
  | 14 => 109
  | 15 => 116
  | 16 => 122
  | _ => 0

/-- A valid entry of `struct osmo_earfcn_si2q`, without a bandwidth for OSMO_EARFCN_MEAS_INVALID. -/
structure Earfcn where
  arfcn : Nat
  measBw : Option Nat := none
  deriving DecidableEq, Repr

/-- `struct osmo_earfcn_si2q`, with its valid entries. -/
structure EarfcnSi2q where
  entries : List Earfcn := []
  threshHi : Nat := 0
  threshLo : Option Nat := none
  prio : Option Nat := none
  qrxlm : Option Nat := none
  deriving DecidableEq, Repr

/-- The `si_common` of a BTS. `data` has its words from `uarfcn_list` on: the entries of
that list, those of `scramble_list` and what is behind them. -/
structure SiCommon where
  data : Nat → Nat
  uarfcnLength : Nat
  si2quaterNeighList : EarfcnSi2q

/-- `struct gsm_bts`, as far as SI2quater depends on it. -/
structure Si2qBts where
  siCommon : SiCommon
  uOffset : Nat
  eOffset : Nat
  si2qIndex : Nat
  si2qCount : Nat
  siBuf : Nat → List Octet
  siValid : Bool

inductive Errno where
  | einval
  | enomem
  | eaddrinuse
  | enospc
  deriving DecidableEq, Repr

def SiCommon.uarfcnList (si : SiCommon) (i : Nat) : Nat := si.data i

def SiCommon.scrambleList (si : SiCommon) (i : Nat) : Nat := si.data (maxEarfcnList + i)

def SiCommon.si2qEarfcnCount (si : SiCommon) : Nat := si.si2quaterNeighList.entries.length

/-- The budget of an EARFCN in `append_eutran_neib_cell`. -/
def Earfcn.budget (e : Earfcn) : Int := if e.measBw.isSome then 17 + 4 else 17 + 1

/-- A flag and, if it is set, a number on `bits` bits. -/
def optionalUint (value : Option Nat) (bits : Nat) : List BitValue :=
  match value with
  | none => [.zero]
  | some value => .one :: bitvecSetUint value bits

def Earfcn.bits (e : Earfcn) : List BitValue :=
  .one :: bitvecSetUint e.arfcn 16 ++ optionalUint e.measBw 3

/-- The loop of `append_eutran_neib_cell` over the EARFCNs that earlier messages have not
carried, with `e_offset`. -/
def appendEarfcns : List Earfcn → (rem : Int) → (eOffset : Nat) → Writer BitValue → Writer BitValue × Nat
  | [], _, eOffset, bv => (bv,eOffset)
  | e :: es, rem, eOffset, bv =>
    if rem - e.budget < 0 then (bv,eOffset)
    else appendEarfcns es (rem - e.budget) (eOffset + 1) (bv.put e.bits)

/-- What is left of the budget of `append_eutran_neib_cell` for EARFCNs. -/
def EarfcnSi2q.adjustBudget (e : EarfcnSi2q) (budget : Nat) : Int :=
  let rem : Int := (budget : Int) - 6
  let rem := if e.prio.isSome then rem - 4 else rem - 1
  let rem := if e.threshLo.isSome then rem - 6 else rem - 1
  if e.qrxlm.isSome then rem - 6 else rem - 1

/-- `append_eutran_neib_cell`, with `e_offset` if it returns true. -/
def appendEutranNeibCell (si : SiCommon) (eOffset budget : Nat) (bv : Writer BitValue) :
    Except Fault (Option (Writer BitValue × Nat)) :=
  let e := si.si2quaterNeighList
  if budget ≤ 6 then .ok none
  else if si2qMaxLen < budget then .error .assertFailed
  else
    let rem := e.adjustBudget budget
    if rem < 0 then .ok none
    else
      let (bv,eOffset) := appendEarfcns (e.entries.drop eOffset) rem eOffset bv
      let bv := (bv.put [.zero]).put (optionalUint e.prio 3)
      let bv := (bv.put (bitvecSetUint e.threshHi 5)).put (optionalUint e.threshLo 5)
      .ok (some (bv.put (optionalUint e.qrxlm 5),eOffset))

/-- The additions from Rel-5 to Rel-8, up to the E-UTRAN neighbour cells. -/
def eutranHead : List BitValue :=
  [.h,.zero,.zero,.h,.zero,.h,.zero,.zero,.h,.one,.zero,.zero,.one,.zero,.one,.one,.zero,.zero,.one]

def eutranTail : List BitValue := [.zero,.zero,.zero,.zero,.zero,.l]

/-- `append_earfcn`, with `e_offset`. -/
def appendEarfcn (si : SiCommon) (eOffset budget : Nat) (bv : Writer BitValue) :
    Except Fault (Writer BitValue × Nat) :=
  let rem := budget - 25
  if rem = 0 then .ok (bv,eOffset)
  else if si2qMaxLen < budget then .error .assertFailed
  else do
    match ← appendEutranNeibCell si eOffset rem (bv.put eutranHead) with
    | none => .ok ((bv.put eutranHead).rollback bv.cur,eOffset)
    | some (bv,eOffset) => .ok (bv.put eutranTail,eOffset)

/-- `f0_helper`. It returns what `range_enc_range1024` returns, 0, and not whether F0 is
in the list. The model of `w` has no end, while that of the source has RANGE_ENC_MAX_ARFCNS
entries. -/
def f0Helper (sc : List Nat) : Except EncError Octets :=
  rangeEncode .r1024 sc (fun _ => 0) 0 (fun _ => 0)

/-- `append_utran_fdd` after its call of `f0_helper`. Of what `bitvec_add_range1024` writes
the cursor passes over p(n) bits. -/
def appendUtranFdd (u length : Nat) (chanList : Octets) : List BitValue :=
  List.flatten [[.one,.zero],bitvecSetUint u 14,[.zero],bitvecSetUint length 5,
    (List.range (range1024P length)).map fun i => .ofBool (chanList.bit (6 + i))]

/-- The scrambling codes that `try_adding_uarfcn` copies. -/
def SiCommon.codes (si : SiCommon) (startPos numSc : Nat) : List Nat :=
  (List.range (numSc - startPos)).map fun i => si.scrambleList (startPos + i)

/-- `try_adding_uarfcn`: how many codes were added and what is left of the budget. The
length that it counts is one short of what `append_utran_fdd` writes. -/
def tryAddingUarfcn (si : SiCommon) (uarfcn numSc startPos budget : Nat) (bv : Writer BitValue) :
    Option (Writer BitValue × Nat × Nat) :=
  if budget < 23 then none
  else
    let a := si.codes startPos numSc
    match f0Helper a with
    | .error _ => none
    | .ok chanList =>
      let rc := 21 + range1024P a.length
      if budget ≤ rc then none
      else some (bv.put (appendUtranFdd uarfcn a.length chanList),a.length,budget - rc)

/-- The loop of `append_uarfcns`, of which `n` rounds are left, with `u_offset`. -/
def appendUarfcnsFrom (si : SiCommon) :
    (n i cu st rem uOffset : Nat) → Writer BitValue → Writer BitValue × Nat
  | 0, _, _, _, _, uOffset, bv => (bv,uOffset)
  | n + 1, i, cu, st, rem, uOffset, bv =>
    if si.uarfcnList i ≠ cu then
      match tryAddingUarfcn si cu i st rem bv with
      | none => (bv,uOffset)
      | some (bv,k,rem) =>
        if i < si.uarfcnLength then
          appendUarfcnsFrom si n (i + 1) (si.uarfcnList i) i rem (uOffset + k) bv
        else (bv,uOffset + k)
    else appendUarfcnsFrom si n (i + 1) cu st rem uOffset bv

def utranHead : List BitValue := [.one,.zero,.zero,.one,.zero]

/-- `append_uarfcns`, with `u_offset`. Its `i` and `st` are `int`s. -/
def appendUarfcns (si : SiCommon) (uOffset budget : Nat) (bv : Writer BitValue) :
    Except Fault (Writer BitValue × Nat) :=
  if si2qMaxLen < budget then .error .assertFailed
  else if budget ≤ 7 then .ok (bv,uOffset)
  else
    let i := uOffset % 2 ^ 32
    let (bv,uOffset) := appendUarfcnsFrom si (si.uarfcnLength + 1 - i) i (si.uarfcnList uOffset) i
      (budget - 7) uOffset (bv.put utranHead)
    .ok (bv.put [.zero,.zero],uOffset)

/-- The start of the rest octets. -/
def si2qHead (index count : Nat) : List BitValue :=
  List.flatten [[.zero,.one,.zero],bitvecSetUint index 4,bitvecSetUint count 4,
    [.zero,.zero,.zero,.zero,.zero,.zero,.zero]]

/-- The part of `rest_octets_si2quater` for the 3G neighbours. -/
def appendUtranPart (si : SiCommon) (uOffset : Nat) (bv : Writer BitValue) :
    Except Fault (Writer BitValue × Nat) :=
  let rc := si2qMaxLen - (bv.cur + 3)
  if 0 < rc ∧ si.uarfcnLength ≠ uOffset then appendUarfcns si uOffset rc bv
  else .ok (bv.put [.zero],uOffset)

/-- The part of `rest_octets_si2quater` for the additions in Rel-5. -/
def appendEutranPart (si : SiCommon) (eOffset : Nat) (bv : Writer BitValue) :
    Except Fault (Writer BitValue × Nat) :=
  let rc := si2qMaxLen - bv.cur
  if 0 < rc ∧ si.si2qEarfcnCount ≠ eOffset then appendEarfcn si eOffset rc bv
  else .ok (bv.put [.l],eOffset)

/-- `rest_octets_si2quater` after the start of the rest octets, with `u_offset` and
`e_offset`. What follows the bits is padding. -/
def appendNeighbours (si : SiCommon) (uOffset eOffset : Nat) (bv : Writer BitValue) :
    Except Fault (Writer BitValue × Nat × Nat) := do
  let (bv,uOffset) ← appendUtranPart si uOffset bv
  let (bv,eOffset) ← appendEutranPart si eOffset (bv.put [.zero,.zero])
  .ok (bv,uOffset,eOffset)

/-- `rest_octets_si2quater`, nothing for -EINVAL. -/
def restOctetsSi2quater (bts : Si2qBts) : Except Fault (Option (Writer BitValue × Si2qBts)) :=
  if bts.si2qCount < bts.si2qIndex then .ok none
  else do
    let bv := Writer.put .empty (si2qHead bts.si2qIndex bts.si2qCount)
    let (bv,uOffset,eOffset) ← appendNeighbours bts.siCommon bts.uOffset bts.eOffset bv
    .ok (some (bv,{ bts with uOffset := uOffset, eOffset := eOffset }))

/-- A call of `rest_octets_si2quater`: the offsets that it finds, the highest place of its
cursor and the bits. -/
structure Visit where
  uOffset : Nat
  eOffset : Nat
  peak : Nat
  bits : List BitValue
  deriving DecidableEq, Repr

/-- What `make_si2quaters` returns and the calls that it made. -/
structure Pass where
  bts : Si2qBts
  rc : Except Errno Nat
  visits : List Visit

/-- Where message `si2q_index` is prepared: a higher `si2q_count`, or an empty message. -/
def Si2qBts.prepare (bts : Si2qBts) (counting : Bool) : Si2qBts :=
  if counting then
    if bts.si2qCount < bts.si2qIndex then { bts with si2qCount := bts.si2qIndex } else bts
  else
    let message := macblock [siHeader (gsm48Len2plen 22) 0x07]
    { bts with siBuf := Function.update bts.siBuf bts.si2qIndex message }

/-- The rest octets in message `si2q_index`, behind its header. -/
def Si2qBts.setRestOctets (bts : Si2qBts) (bits : List BitValue) : Si2qBts :=
  let message := (bts.siBuf bts.si2qIndex).take 3 ++ restOctets 20 bits
  { bts with siBuf := Function.update bts.siBuf bts.si2qIndex message }

def Si2qBts.done (bts : Si2qBts) : Prop :=
  bts.siCommon.uarfcnLength ≤ bts.uOffset ∧ bts.siCommon.si2qEarfcnCount ≤ bts.eOffset

instance (bts : Si2qBts) : Decidable bts.done := inferInstanceAs (Decidable (_ ∧ _))

/-- The loop of `make_si2quaters`, with `n` messages left. -/
def makeSi2quatersFrom (counting : Bool) : (n : Nat) → Si2qBts → Except Fault Pass
  | 0, bts => .ok { bts := bts, rc := .error .enomem, visits := [] }
  | n + 1, bts => do
    let bts := bts.prepare counting
    match ← restOctetsSi2quater bts with
    | none => .ok { bts := bts, rc := .error .einval, visits := [] }
    | some (bv,next) =>
      let visit : Visit := ⟨bts.uOffset,bts.eOffset,bv.peak,bv.out⟩
      let next := next.setRestOctets bv.out
      if next.done then .ok { bts := next, rc := .ok 20, visits := [visit] }
      else
        let pass ← makeSi2quatersFrom counting n { next with si2qIndex := next.si2qIndex + 1 }
        .ok { pass with visits := visit :: pass.visits }

def makeSi2quaters (bts : Si2qBts) (counting : Bool) : Except Fault Pass :=
  makeSi2quatersFrom counting si2qMaxNum { bts with si2qIndex := 0 }

def Pass.num (pass : Pass) : Nat :=
  match pass.rc with
  | .error _ => 0xFF
  | .ok _ => pass.bts.si2qIndex + 1

def si2qNum (bts : Si2qBts) : Except Fault (Si2qBts × Nat) := do
  let pass ← makeSi2quaters bts true
  .ok ({ pass.bts with uOffset := 0, eOffset := 0 },pass.num)

def SiCommon.si2quaterNotNeeded (si : SiCommon) : Bool :=
  si.uarfcnLength == 0 && si.si2quaterNeighList.entries.isEmpty

/-- `generate_si2quater`: the length of the last message, or an error. -/
def generateSi2quater (bts : Si2qBts) : Except Fault (Si2qBts × Except Errno Nat) :=
  if bts.siCommon.si2quaterNotNeeded then .ok ({ bts with siValid := false },.ok gsmMacblockLen)
  else do
    let (bts,num) ← si2qNum { bts with uOffset := 0, eOffset := 0, si2qIndex := 0 }
    let pass ← makeSi2quaters { bts with si2qCount := num - 1 } false
    match pass.rc with
    | .error e => .ok (pass.bts,.error e)
    | .ok rc =>
      if pass.bts.si2qCount ≠ pass.bts.si2qIndex then .error .assertFailed
      else if si2qMaxNum < pass.bts.si2qCount then .error .assertFailed
      else .ok (pass.bts,.ok (3 + rc))

def encodeFdd (scramble : Nat) (diversity : Bool) : Nat :=
  if diversity then scramble ||| 1 <<< 9 else scramble

def scBound : Nat := 600

def SiCommon.uarfcnScPos (si : SiCommon) (uarfcn scramble : Nat) : Option Nat :=
  (List.range si.uarfcnLength).find? fun i =>
    uarfcn == si.uarfcnList i && (scBound ≤ scramble || encodeFdd scramble false == si.scrambleList i
      || encodeFdd scramble true == si.scrambleList i)

/-- `memmove` of `n` words. -/
def memmove (data : Nat → Nat) (dst src n : Nat) : Nat → Nat :=
  fun i => if dst ≤ i ∧ i < dst + n then data (src + (i - dst)) else data i

/-- The part of `bts_uarfcn_del` that takes place `pos` out of the lists. -/
def SiCommon.removeAt (si : SiCommon) (pos : Nat) : SiCommon :=
  let len := si.uarfcnLength
  let data := if pos ≠ len - 1 then
      memmove (memmove si.data pos (pos + 1) (len - pos + 1)) (maxEarfcnList + pos)
        (maxEarfcnList + pos + 1) (len - pos + 1)
    else si.data
  { si with data := data, uarfcnLength := len - 1 }

def btsUarfcnDel (bts : Si2qBts) (arfcn scramble : Nat) : Si2qBts × Except Errno Unit :=
  match bts.siCommon.uarfcnScPos arfcn scramble with
  | none => (bts,.error .einval)
  | some pos => ({ bts with siCommon := bts.siCommon.removeAt pos },.ok ())

/-- The part of `bts_uarfcn_add` that writes to the lists, at place `i`. -/
def SiCommon.insertAt (si : SiCommon) (i arfcn scr : Nat) : SiCommon :=
  let len := si.uarfcnLength
  let data := if i < len then
      memmove (memmove si.data (i + 1) i (len - i)) (maxEarfcnList + i + 1) (maxEarfcnList + i) (len - i)
    else si.data
  { si with
    data := Function.update (Function.update data i arfcn) (maxEarfcnList + i) scr
    uarfcnLength := len + 1 }

def btsUarfcnAdd (bts : Si2qBts) (arfcn scramble : Nat) (diversity : Bool) :
    Except Fault (Si2qBts × Except Errno Unit) :=
  let si := bts.siCommon
  if si.uarfcnLength = maxEarfcnList then .ok (bts,.error .enomem)
  else if (si.uarfcnScPos arfcn scramble).isSome then .ok (bts,.error .eaddrinuse)
  else do
    let i := (si.uarfcnScPos arfcn scBound).getD si.uarfcnLength
    let (bts,si2q) ← si2qNum { bts with siCommon := si.insertAt i arfcn (encodeFdd scramble diversity) }
    if si2q ≤ si2qMaxNum then .ok ({ bts with si2qCount := si2q - 1 },.ok ())
    else .ok ((btsUarfcnDel bts arfcn scramble).1,.error .enospc)

end OsmoBsc.Si.Si2q
