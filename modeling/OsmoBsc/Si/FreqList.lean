import OsmoBsc.Si.RangeEncode
set_option autoImplicit false

namespace OsmoBsc.Si

inductive GsmBand where
  | band850
  | band900
  | band1800
  | band1900
  | band450
  | band480
  | band750
  | band810
  deriving DecidableEq, Repr

/-- `struct gsm_bts`, as far as its frequency lists depend on it. -/
structure Bts where
  band : GsmBand
  c0Arfcn : Nat
  forceCombinedSiSet : Bool := false
  forceCombinedSi : Bool := false
  modelForceCombinedSi : Bool := false
  deriving DecidableEq, Repr

/-- `struct bitvec` over the 1024 ARFCNs. -/
abbrev Bitvec := Nat → Bool

/-- The number of bits of a `Bitvec`. -/
def Bitvec.bits : Nat := 1024

/-- `struct bitvec` and the other arguments of `bitvec2freq_list`; `gsm_arfcn2band_rc`
is a function of libosmocore, which has no band for an invalid ARFCN. -/
structure FreqListArgs where
  gsmArfcn2bandRc : Nat → Option GsmBand
  bts : Bts
  bv : Bitvec
  bis : Bool
  ter : Bool

def FreqListArgs.bandCompatible (a : FreqListArgs) (arfcn : Nat) : Bool :=
  match a.gsmArfcn2bandRc arfcn with
  | none => false
  | some band => band == a.bts.band || (band == .band1800 && a.bts.band == .band1900)

/-- The `pgsm` of `bitvec2freq_list`. -/
def FreqListArgs.pgsm (a : FreqListArgs) : Bool :=
  a.bts.band == .band900 && 1 ≤ a.bts.c0Arfcn && a.bts.c0Arfcn ≤ 124

def FreqListArgs.useArfcn (a : FreqListArgs) (arfcn : Nat) : Bool :=
  if (if a.bts.forceCombinedSiSet then a.bts.forceCombinedSi else a.bts.modelForceCombinedSi) then
    !a.bis && !a.ter
  else if !a.bis && !a.ter && a.bandCompatible arfcn then true
  else if a.bis && a.pgsm && a.bandCompatible arfcn && (arfcn < 1 || 124 < arfcn) then true
  else a.ter && !a.bandCompatible arfcn

/-- An ARFCN whose bit is set and for which `use_arfcn` holds. -/
def FreqListArgs.selects (a : FreqListArgs) (arfcn : Nat) : Bool :=
  a.bv arfcn && a.useArfcn arfcn

def FreqListArgs.selected (a : FreqListArgs) : List Nat :=
  (List.range Bitvec.bits).filter a.selects

def freqListBm0SetArfcn (chanList : Octets) (arfcn : Nat) : Except EncError Octets :=
  if 124 < arfcn ∨ arfcn < 1 then .error .einval
  else
    let octet := 15 - (arfcn - 1) / 8
    .ok (Function.update chanList octet (chanList octet ||| 1#8 <<< ((arfcn - 1) % 8)))

def freqListBmrelSetArfcn (chanList : Octets) (arfcn : Nat) : Except EncError Octets :=
  let minArfcn := (chanList 0).toNat % 2 * 512 + (chanList 1).toNat * 2 + (chanList 2).toNat / 128
  let bitno := (((arfcn : Int) - minArfcn) % 1024).toNat
  if arfcn = minArfcn then .ok chanList
  else if 111 < bitno then .error .einval
  else
    let octet := 2 + bitno / 8
    .ok (Function.update chanList octet (chanList octet ||| 1#8 <<< (7 - bitno % 8)))

/-- The ARFCNs that `enc_freq_lst_var_bitmap` carries; it does not look at
`force_combined_si`. -/
def FreqListArgs.varBitmapSelects (a : FreqListArgs) (arfcn : Nat) : Bool :=
  a.bv arfcn && ((!a.bis && !a.ter && a.bandCompatible arfcn)
    || (a.bis && a.pgsm && a.bandCompatible arfcn && (arfcn < 1 || 124 < arfcn))
    || (a.ter && !a.bandCompatible arfcn))

def encFreqLstVarBitmap (a : FreqListArgs) (chanList : Octets) (min : Nat) : Except EncError Octets :=
  let chanList := writeOrigArfcn (Function.update chanList 0 0x8E) min
  ((List.range Bitvec.bits).filter a.varBitmapSelects).foldlM freqListBmrelSetArfcn chanList

def rangeEncMaxArfcns : Nat := 29

/-- The loop of `enc_freq_lst_range` that selects ARFCNs; its check comes one too late. -/
def encFreqLstSelect (a : FreqListArgs) : List Nat → List Nat → Except EncError (List Nat)
  | [], arfcns => .ok arfcns
  | i :: is, arfcns =>
    if rangeEncMaxArfcns < arfcns.length then .error .tooMany
    else if a.selects i then
      if arfcns.length < rangeEncMaxArfcns then encFreqLstSelect a is (arfcns ++ [i])
      else .error .outOfBounds
    else encFreqLstSelect a is arfcns

/-- `range_encode`. All of the array is encoded, with what `range_enc_filter_arfcns`
leaves behind. -/
def rangeEncode (r : Gsm48Range) (arfcns : List Nat) (w : IntArray) (f0 : Nat) (chanList : Octets) :
    Except EncError Octets :=
  let (arfcns,f0Included) := rangeEncFilterArfcns arfcns f0
  let (w,rc) := rangeEncArfcns r.value arfcns w 0
  match rc with
  | .error e => .error e
  | .ok () => .ok (match r with
    | .r128 => rangeEncRange128 chanList f0 w
    | .r256 => rangeEncRange256 chanList f0 w
    | .r512 => rangeEncRange512 chanList f0 w
    | .r1024 => rangeEncRange1024 chanList f0Included w)

/-- `enc_freq_lst_range`; F0 is only set for a list that is not empty. -/
def encFreqLstRange (a : FreqListArgs) (chanList : Octets) : Except EncError Octets := do
  let arfcns ← encFreqLstSelect a (List.range Bitvec.bits) []
  match rangeEncDetermineRange arfcns 0 with
  | none => .error .rangeInvalid
  | some (range,f0) => rangeEncode range arfcns (fun _ => 0) f0 chanList

/-- What one selected ARFCN does to `min` and `max` of `bitvec2freq_list`, which start
at -1; 955 to 1023 come before 0 to 885. -/
def minMaxStep (s : Int × Int) (arfcn : Nat) : Int × Int :=
  let i : Int := arfcn
  let min := if s.1 < 0 then i else s.1
  let min := if 955 ≤ i ∧ min < 955 then i else min
  let min := if 955 ≤ i ∧ 955 ≤ min ∧ i < min then i else min
  let min := if i < 955 ∧ min < 955 ∧ i < min then i else min
  let max := if s.2 < 0 then i else s.2
  let max := if i < 955 ∧ 955 ≤ max then i else max
  let max := if 955 ≤ i ∧ 955 ≤ max ∧ max < i then i else max
  let max := if i < 955 ∧ max < 955 ∧ max < i then i else max
  (min,max)

/-- The formats among which `bitvec2freq_list` chooses. -/
inductive FreqListFormat where
  | bitmap0
  | empty
  | varBitmap (min : Nat)
  | range
  deriving DecidableEq, Repr

/-- The format that `bitvec2freq_list` chooses. -/
def FreqListArgs.format (a : FreqListArgs) : FreqListFormat :=
  if !a.bis && !a.ter && a.pgsm then .bitmap0
  else
    let (min,max) := a.selected.foldl minMaxStep (-1,-1)
    if max = -1 then .empty
    else if (max - min) % 1024 ≤ 111 then .varBitmap min.toNat
    else .range

def bitvec2freqList (a : FreqListArgs) : Except EncError Octets :=
  let chanList : Octets := fun _ => 0
  match a.format with
  | .bitmap0 =>
    ((List.range Bitvec.bits).filter fun i => 1 ≤ i && i ≤ 124 && a.bv i).foldlM
      freqListBm0SetArfcn chanList
  | .empty => .ok chanList
  | .varBitmap min => encFreqLstVarBitmap a chanList min
  | .range => match encFreqLstRange a chanList with
    | .ok chanList => .ok chanList
    | .error .outOfBounds => .error .outOfBounds
    | .error .divisionByZero => .error .divisionByZero
    | .error _ => .error .einval

end OsmoBsc.Si
