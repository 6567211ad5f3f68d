import OsmoBsc.Si.MeasRep
set_option autoImplicit false

/-! Packet channel requests: from the request reference of a CHANNEL REQUIRED to the frame number
that the PCU is given. -/

namespace OsmoBsc.Rsl
open Si

structure Gsm48ReqRef where
  ra : BitVec 8
  t3High : Nat
  t1 : Nat
  t2 : Nat
  t3Low : Nat

/-- The request reference in the octets from `i` on. -/
def gsm48ReqRef (data : Octets) (i : Nat) : Gsm48ReqRef where
  ra := data i
  t3High := (data (i + 1)).toNat &&& 0x07
  t1 := (data (i + 1)).toNat >>> 3
  t2 := (data (i + 2)).toNat &&& 0x1f
  t3Low := (data (i + 2)).toNat >>> 5

def rslIeReqReference : BitVec 8 := 0x13
def rslIeAccessDelay : BitVec 8 := 0x11

inductive ChreqType where
  | emergCall
  | callReestTchF
  | callReestTchH
  | callReestTchHDbl
  | sdcch
  | tchF
  | voiceCallTchH
  | dataCallTchH
  | locationUpd
  | pagRAnyNeci1
  | pagRAnyNeci0
  | pagRTchF
  | pagRTchFh
  | lmu
  | reservedSdcch
  | pdchOnePhase
  | pdchTwoPhase
  | reservedIgnore
  deriving DecidableEq, Repr

inductive ChreqReason where
  | emerg
  | pag
  | call
  | locationUpd
  | other
  | pdch
  deriving DecidableEq, Repr

structure Chreq where
  val : BitVec 8
  mask : BitVec 8
  type : ChreqType

def chreqTypeNeci1 : List Chreq :=
  [⟨0xa0,0xe0,.emergCall⟩,⟨0xc0,0xe0,.callReestTchF⟩,⟨0x68,0xfc,.callReestTchH⟩,
    ⟨0x6c,0xfc,.callReestTchHDbl⟩,⟨0xe0,0xe0,.tchF⟩,⟨0x40,0xf0,.voiceCallTchH⟩,⟨0x50,0xf0,.dataCallTchH⟩,
    ⟨0x00,0xf0,.locationUpd⟩,⟨0x10,0xf0,.sdcch⟩,⟨0x80,0xe0,.pagRAnyNeci1⟩,⟨0x20,0xf0,.pagRTchF⟩,
    ⟨0x30,0xf0,.pagRTchFh⟩,⟨0x67,0xff,.lmu⟩,⟨0x60,0xf9,.reservedSdcch⟩,⟨0x61,0xfb,.reservedSdcch⟩,
    ⟨0x63,0xff,.reservedSdcch⟩,⟨0x70,0xf8,.pdchTwoPhase⟩,⟨0x78,0xfc,.pdchOnePhase⟩,
    ⟨0x78,0xfa,.pdchOnePhase⟩,⟨0x78,0xf9,.pdchOnePhase⟩,⟨0x7f,0xff,.reservedIgnore⟩]

def chreqTypeNeci0 : List Chreq :=
  [⟨0xa0,0xe0,.emergCall⟩,⟨0xc0,0xe0,.callReestTchH⟩,⟨0xe0,0xe0,.tchF⟩,⟨0x50,0xf0,.dataCallTchH⟩,
    ⟨0x00,0xe0,.locationUpd⟩,⟨0x80,0xe0,.pagRAnyNeci0⟩,⟨0x20,0xf0,.pagRTchF⟩,⟨0x30,0xf0,.pagRTchFh⟩,
    ⟨0x67,0xff,.lmu⟩,⟨0x60,0xf9,.reservedSdcch⟩,⟨0x61,0xfb,.reservedSdcch⟩,⟨0x63,0xff,.reservedSdcch⟩,
    ⟨0x70,0xf8,.pdchTwoPhase⟩,⟨0x78,0xfc,.pdchOnePhase⟩,⟨0x78,0xfa,.pdchOnePhase⟩,
    ⟨0x78,0xf9,.pdchOnePhase⟩,⟨0x7f,0xff,.reservedIgnore⟩]

def reasonByChreq : ChreqType → ChreqReason
  | .emergCall => .emerg
  | .callReestTchF | .callReestTchH | .callReestTchHDbl | .voiceCallTchH => .call
  | .locationUpd => .locationUpd
  | .pagRAnyNeci1 | .pagRAnyNeci0 | .pagRTchF | .pagRTchFh => .pag
  | .pdchOnePhase | .pdchTwoPhase => .pdch
  | .sdcch | .tchF | .dataCallTchH | .lmu | .reservedSdcch | .reservedIgnore => .other

def getReasonByChreq (ra : BitVec 8) (neci : Bool) : ChreqReason :=
  match (if neci then chreqTypeNeci1 else chreqTypeNeci0).find? fun chr => ra &&& chr.mask == chr.val with
  | some chr => reasonByChreq chr.type
  | none => .other

/-- The arguments of pcu_tx_rach_ind(), `burst_type` being GSM_L1_BURST_TYPE_ACCESS_0. -/
structure RachInd where
  qta : BitVec 8
  ra : BitVec 8
  fn : BitVec 32
  is11bit : Bool
  deriving DecidableEq, Repr

/-- What is passed to pcu_tx_rach_ind() for the octets behind the RSL header; an 11 bit request is
refused. `t3-t2` is an `int`, and the remainder has its sign. -/
def rslRxPchanRqd (data : Octets) : Option RachInd :=
  let rqdRef := gsm48ReqRef data 1
  if rqdRef.ra = 0x7f then none
  else
    let t3 := rqdRef.t3Low ||| (rqdRef.t3High <<< 3)
    let fn : Int := 51 * (((t3 : Int) - rqdRef.t2).tmod 26) + t3 + 51 * 26 * rqdRef.t1
    some ⟨data 5,rqdRef.ra,BitVec.ofInt 32 fn,false⟩

inductive ChanRqd where
  | rejected
  | pchanRqd (ind : Option RachInd)
  /-- A channel is looked for. -/
  | channel (rqdRef : Gsm48ReqRef) (rqdTa : BitVec 8)

def rslRxChanRqd (neci : Bool) (data : Octets) : ChanRqd :=
  if data 0 ≠ rslIeReqReference then .rejected
  else if data 4 ≠ rslIeAccessDelay then .rejected
  else if getReasonByChreq (data 1) neci = .pdch then .pchanRqd (rslRxPchanRqd data)
  else .channel (gsm48ReqRef data 1) (data 5)

/-- The request reference is that of a frame: five bits of T1', six of T3 and five of T2. -/
def CarriesFrame (data : Octets) (fn : Nat) : Prop :=
  data.field 16 5 = fn / 1326 % 32 ∧ data.field 21 6 = fn % 51 ∧ data.field 27 5 = fn % 26

section Reference

variable {data : Octets} {fn : Nat}

theorem shiftRight_octet_lt (b : BitVec 8) {k : Nat} (hk : k ≤ 8) : b.toNat >>> k < 2 ^ (8 - k) := by
  rw [Nat.shiftRight_eq_div_pow]
  refine Nat.div_lt_of_lt_mul ?_
  rw [← pow_add,Nat.add_sub_cancel' hk]
  exact b.isLt

theorem CarriesFrame.t1_eq (h : CarriesFrame data fn) : (gsm48ReqRef data 1).t1 = fn / 1326 % 32 := by
  rw [← h.1]
  symm
  refine Octets.field_eq (shiftRight_octet_lt _ (by omega)) fun t ht => ?_
  rw [gsm48ReqRef,Nat.testBit_shiftRight,testBit_octet]
  interval_cases t <;> rfl

theorem CarriesFrame.t2_eq (h : CarriesFrame data fn) : (gsm48ReqRef data 1).t2 = fn % 26 := by
  rw [← h.2.2]
  symm
  have h31 : (0x1f : Nat) = 2 ^ 5 - 1 := rfl
  refine Octets.field_eq (Nat.and_lt_two_pow _ (by decide)) fun t ht => ?_
  simp only [gsm48ReqRef,h31,Nat.testBit_and,Nat.testBit_two_pow_sub_one,testBit_octet]
  interval_cases t <;> simp

theorem CarriesFrame.t3_eq (h : CarriesFrame data fn) :
    ((gsm48ReqRef data 1).t3Low ||| ((gsm48ReqRef data 1).t3High <<< 3)) = fn % 51 := by
  rw [← h.2.1]
  symm
  have h7 : (0x07 : Nat) = 2 ^ 3 - 1 := rfl
  have hlow : (gsm48ReqRef data 1).t3Low < 2 ^ 3 := shiftRight_octet_lt _ (by omega)
  have hhigh : (gsm48ReqRef data 1).t3High < 2 ^ 3 := Nat.and_lt_two_pow _ (by decide)
  refine Octets.field_eq ?_ fun t ht => ?_
  · refine Nat.or_lt_two_pow (by omega) ?_
    rw [Nat.shiftLeft_eq]
    omega
  · simp only [gsm48ReqRef,h7,Nat.testBit_or,Nat.testBit_shiftRight,Nat.testBit_shiftLeft,Nat.testBit_and,
      Nat.testBit_two_pow_sub_one,testBit_octet]
    interval_cases t <;> simp

theorem tmod_frame (fn : Nat) : ((fn % 51 : Nat) - (fn % 26 : Nat) : Int).tmod 26 =
    if fn % 26 ≤ fn % 51 then ((fn / 51 % 26 : Nat) : Int) else ((fn / 51 % 26 : Nat) : Int) - 26 := by
  have h51 := Nat.div_add_mod fn 51
  have h26 := Nat.div_add_mod fn 26
  split
  · rw [Int.tmod_eq_emod_of_nonneg (by omega)]
    omega
  · have hneg : ((fn % 51 : Nat) - (fn % 26 : Nat) : Int) = -((fn % 26 - fn % 51 : Nat) : Int) := by omega
    rw [hneg,Int.neg_tmod,Int.tmod_eq_emod_of_nonneg (by omega)]
    omega

end Reference

/-- The PCU is given the frame of the request, in the cycle of the request reference. -/
def PassesFrame (data : Octets) (fn : Nat) : Prop :=
  ∃ ind, rslRxPchanRqd data = some ind ∧ ind.fn = BitVec.ofNat 32 (fn % 42432)

theorem pchanRqd_frame_iff {data : Octets} {fn : Nat} (h : CarriesFrame data fn) :
    PassesFrame data fn ↔ data 1 ≠ 0x7f ∧ fn % 26 ≤ fn % 51 := by
  unfold PassesFrame rslRxPchanRqd
  simp only [h.t1_eq,h.t2_eq,h.t3_eq,tmod_frame]
  by_cases hra : data 1 = 0x7f
  · rw [if_pos (show (gsm48ReqRef data 1).ra = 0x7f from hra)]
    simp [hra]
  rw [if_neg (show ¬ (gsm48ReqRef data 1).ra = 0x7f from hra)]
  have hcycle : fn % 42432 = 51 * (fn / 51 % 26) + fn % 51 + 51 * 26 * (fn / 1326 % 32) := by omega
  constructor
  · rintro ⟨ind,hind,hfn⟩
    cases hind
    refine ⟨hra,?_⟩
    by_contra hlt
    rw [if_neg hlt] at hfn
    have hmod := congrArg BitVec.toNat hfn
    dsimp only at hmod
    rw [BitVec.toNat_ofInt,BitVec.toNat_ofNat] at hmod
    omega
  · rintro ⟨-,hle⟩
    refine ⟨_,rfl,?_⟩
    rw [if_pos hle,hcycle]
    rfl

/-- A request of two phases in frame 6660: T1' is 5, T2 is 4 and T3 is 30. -/
def requestIn6660 : Octets := fun i => [0x13,0x70,0x2b,0xc4,0x11,0x03].getD i 0

theorem pchanRqd_frame_iff_6660 : PassesFrame requestIn6660 6660 :=
  (pchanRqd_frame_iff (show CarriesFrame requestIn6660 6660 from ⟨by decide,by decide,by decide⟩)).mpr
    ⟨by decide,by decide⟩

def requestIn51 : Octets := fun i => [0x13,0x70,0x00,0x19,0x11,0x03].getD i 0

/-- The PCU is told 4294966021 instead of 51. -/
theorem pchanRqd_frame_lost : CarriesFrame requestIn51 51
    ∧ rslRxChanRqd false requestIn51 = .pchanRqd (some ⟨0x03,0x70,4294966021,false⟩)
    ∧ ¬ PassesFrame requestIn51 51 := by
  have hind : rslRxPchanRqd requestIn51 = some ⟨0x03,0x70,4294966021,false⟩ := by decide
  refine ⟨⟨by decide,by decide,by decide⟩,?_,?_⟩
  · have hpdch : getReasonByChreq (requestIn51 1) false = .pdch := by decide
    rw [rslRxChanRqd,if_neg (by decide),if_neg (by decide),if_pos hpdch,hind]
  · rintro ⟨ind,h,hfn⟩
    cases hind.symm.trans h
    revert hfn
    decide

end OsmoBsc.Rsl
