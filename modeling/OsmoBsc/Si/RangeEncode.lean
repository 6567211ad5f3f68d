import Mathlib.Logic.Function.Basic
import Mathlib.Algebra.Ring.Nat
set_option autoImplicit false

namespace OsmoBsc.Si

def greatestPowerOf2LesserOrEqualTo (index : Nat) : Nat := 2 ^ index.log2

/-- `mod`: the remainder of C, which is at most one `range` below zero. -/
def mod (data : Int) (range : Nat) : Nat :=
  let res := data.tmod range
  (if res < 0 then res + range else res).toNat

/-- `range_enc_find_index`, `none` for -1. -/
def rangeEncFindIndex (range : Nat) (freqs : List Nat) : Option Nat :=
  let rangeDelta := (range - 1) / 2
  freqs.findIdx? fun (fi : Nat) =>
    let n := freqs.countP fun (fj : Nat) => mod ((fj : Int) - fi) range ≤ rangeDelta
    (n : Int) - 1 == ((freqs.length : Int) - 1) / 2

/-- An array of `int`. -/
abbrev IntArray := Nat → Nat

/-- `-EINVAL`, and the numbers that `enc_freq_lst_range` makes up; a division by zero
and a write behind the end of an array are failures of their own. -/
inductive EncError where
  | einval
  | tooMany
  | rangeInvalid
  | divisionByZero
  | outOfBounds
  deriving DecidableEq, Repr

/-- The part of `_range_enc_arfcns` that fills `arfcns_left` and `arfcns_right`. -/
def rangeEncSide (range : Nat) (arfcns : List Nat) (origin : Nat) : List Nat :=
  arfcns.filterMap fun (a : Nat) =>
    if mod ((a : Int) - origin) range < range / 2 then some (mod ((a : Int) - origin) range)
    else none

/-- `range_enc_arfcns` with `_range_enc_arfcns`: the array and whether all went well.
The recursion drops its own result. -/
def rangeEncArfcns (range : Nat) (arfcns : List Nat) (out : IntArray) (index : Nat) :
    IntArray × Except EncError Unit :=
  match arfcns with
  | [] => (out,.ok ())
  | [a] => (Function.update out index (1 + a),.ok ())
  | arfcns =>
    if _h : range = 0 then (out,.error .divisionByZero)
    else match rangeEncFindIndex range arfcns with
      | none => (out,.error .einval)
      | some splitAt =>
        let pivot := arfcns.getD splitAt 0
        let out := Function.update out index (1 + pivot)
        let lOrigin := mod (pivot + (range - 1) / 2 + 1 : Nat) range
        let rOrigin := mod (pivot + 1 : Nat) range
        let power := greatestPowerOf2LesserOrEqualTo (index + 1)
        let out := (rangeEncArfcns (range / 2) (rangeEncSide range arfcns lOrigin) out
          (index + power)).1
        let out := (rangeEncArfcns ((range - 1) / 2) (rangeEncSide range arfcns rOrigin) out
          (index + 2 * power)).1
        (out,.ok ())
  termination_by range
  decreasing_by all_goals omega

inductive Gsm48Range where
  | r128
  | r256
  | r512
  | r1024
  deriving DecidableEq, Repr

def Gsm48Range.value : Gsm48Range → Nat
  | .r128 => 127
  | .r256 => 255
  | .r512 => 511
  | .r1024 => 1023

/-- `range_enc_determine_range`, with the F0 that it selects and nothing for
ARFCN_RANGE_INVALID. An empty list leaves `*f0` alone. -/
def rangeEncDetermineRange (arfcns : List Nat) (f0 : Nat) : Option (Gsm48Range × Nat) :=
  match arfcns with
  | [] => some (.r128,f0)
  | first :: _ =>
    let size := arfcns.length
    let max : Int := (arfcns.getLastD 0 : Int) - first
    if max < 128 ∧ size ≤ 29 then some (.r128,first)
    else if max < 256 ∧ size ≤ 22 then some (.r256,first)
    else if max < 512 ∧ size ≤ 18 then some (.r512,first)
    else if max < 1024 ∧ size ≤ 17 then some (.r1024,0)
    else none

/-- `range_enc_filter_arfcns`: the array afterwards and whether F0 was in it. What is
behind the entries that were kept has its old values. -/
def rangeEncFilterArfcns (arfcns : List Nat) (f0 : Nat) : List Nat × Bool :=
  let kept := arfcns.filterMap fun (a : Nat) =>
    if a = f0 then none else some (mod ((a : Int) - ((f0 : Int) + 1)) 1024)
  (kept ++ arfcns.drop kept.length,arfcns.contains f0)

abbrev Octets := Nat → BitVec 8

/-- The loop of `write_all_wn` over the octets of one W(k): `wkLeft` of its bits are
left to go to bit `bitOffs` of octet `octetOffs` and after that. -/
def writeWk (wk wkLeft octetOffs bitOffs : Nat) (chanList : Octets) : Octets × Nat × Nat :=
  let curBits := min (8 - bitOffs) wkLeft
  if curBits = 0 then (chanList,octetOffs,bitOffs)
  else
    let curMask := 2 ^ curBits - 1
    let left := wkLeft - curBits
    let offs := bitOffs + curBits
    let wkSlice := (wk >>> left) &&& curMask
    let octet := (chanList octetOffs &&& ~~~ (BitVec.ofNat 8 curMask <<< (8 - offs)))
      ||| (BitVec.ofNat 8 wkSlice <<< (8 - offs))
    let chanList := Function.update chanList octetOffs octet
    if offs = 8 then writeWk wk left (octetOffs + 1) 0 chanList
    else writeWk wk left octetOffs offs chanList
  termination_by wkLeft
  decreasing_by all_goals omega

/-- `write_all_wn` from W(k) on, of which `n` are left; `lvlLeft` nodes of the tree
level are left, which has `wkLen` bits for each. -/
def writeAllWnFrom (w : IntArray) : (n k wkLen level lvlLeft octetOffs bitOffs : Nat) → Octets → Octets
  | 0, _, _, _, _, _, _, chanList => chanList
  | n + 1, k, wkLen, level, lvlLeft, octetOffs, bitOffs, chanList =>
    let (chanList,octetOffs,bitOffs) := writeWk (w (k - 1)) wkLen octetOffs bitOffs chanList
    if lvlLeft - 1 = 0 then
      writeAllWnFrom w n (k + 1) (wkLen - 1) (level + 1) (2 ^ (level + 1)) octetOffs bitOffs chanList
    else writeAllWnFrom w n (k + 1) wkLen level (lvlLeft - 1) octetOffs bitOffs chanList

/-- `write_all_wn`, from octet `octetOffs` of the buffer on. -/
def writeAllWn (chanList : Octets) (octetOffs bitOffs : Nat) (w : IntArray) (wSize w1Len : Nat) : Octets :=
  writeAllWnFrom w wSize 1 w1Len 0 1 octetOffs bitOffs chanList

def writeOrigArfcn (chanList : Octets) (f0 : Nat) : Octets :=
  let chanList := Function.update chanList 0 (chanList 0 ||| BitVec.ofNat 8 ((f0 >>> 9) &&& 1))
  let chanList := Function.update chanList 1 (BitVec.ofNat 8 (f0 >>> 1))
  Function.update chanList 2 (BitVec.ofNat 8 ((f0 &&& 1) <<< 7))

/-- What `range_enc_range128`, `range_enc_range256` and `range_enc_range512` have in
common. -/
def rangeEncRange (header : BitVec 8) (wSize w1Len : Nat) (chanList : Octets) (f0 : Nat) (w : IntArray) :
    Octets :=
  let chanList := Function.update chanList 0 header
  writeAllWn (writeOrigArfcn chanList f0) 2 1 w wSize w1Len

def rangeEncRange128 : Octets → Nat → IntArray → Octets := rangeEncRange 0x8C 28 7

def rangeEncRange256 : Octets → Nat → IntArray → Octets := rangeEncRange 0x8A 21 8

def rangeEncRange512 : Octets → Nat → IntArray → Octets := rangeEncRange 0x88 17 9

def rangeEncRange1024 (chanList : Octets) (f0Included : Bool) (w : IntArray) : Octets :=
  let header := 0x80#8 ||| (BitVec.ofBool f0Included).setWidth 8 <<< 2
  writeAllWn (Function.update chanList 0 header) 0 6 w 16 10

end OsmoBsc.Si
