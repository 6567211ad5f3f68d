import Mathlib.Data.List.Nodup
import Mathlib.Data.List.Range

set_option autoImplicit false

namespace OsmoBsc.Acc

def accRampStepSizeMin : Nat := 1

/-- `ACC_RAMP_STEP_SIZE_MAX`: all classes are allowed in one step. -/
def accRampStepSizeMax : Nat := 10

/-- `ACC_RAMP_STEP_INTERVAL_MIN`, in seconds. -/
def accRampStepIntervalMin : Nat := 30

/-- `ACC_RAMP_STEP_INTERVAL_MAX`, in seconds. -/
def accRampStepIntervalMax : Nat := 600

/-- The octets of `struct gsm48_rach_control` that bar classes: 8 to 15 in `t2`,
0 to 7 in `t3`. -/
structure RachControl where
  t2 : BitVec 8
  t3 : BitVec 8
  deriving DecidableEq, Repr

def RachControl.bars (r : RachControl) (acc : Nat) : Bool :=
  if acc = 8 ∨ acc = 9 then r.t2.getLsbD (acc-8) else r.t3.getLsbD acc

/-- `struct acc_ramp`; an armed `step_timer` tells its interval. -/
structure AccRamp where
  accRampingEnabled : Bool := false
  barredAccs : BitVec 16 := 0
  stepSize : Nat := accRampStepSizeMin
  stepIntervalSec : Nat := accRampStepIntervalMin
  stepIntervalIsFixed : Bool := false
  stepTimer : Option Nat := none
  deriving DecidableEq, Repr

/-- The RACH control parameters of the system information that was sent, with the
configured ones at that time. -/
structure Announcement where
  configured : RachControl
  sent : RachControl
  deriving DecidableEq, Repr

/-- The fields of `struct gsm_bts` that ramping reads, and what was sent. -/
structure Bts where
  rachControl : RachControl := ⟨0,0⟩
  chanLoadAvg : Nat := 0
  accRamp : AccRamp := {}
  announced : List Announcement := []
  deriving DecidableEq, Repr

def Bts.accIsPermanentlyBarred (bts : Bts) (acc : Nat) : Bool := bts.rachControl.bars acc

def AccRamp.allowOneAcc (r : AccRamp) (acc : Nat) : AccRamp :=
  { r with barredAccs := r.barredAccs &&& ~~~(1#16 <<< acc) }

def AccRamp.barrOneAcc (r : AccRamp) (acc : Nat) : AccRamp :=
  { r with barredAccs := r.barredAccs ||| (1#16 <<< acc) }

/-- Apply `f` to a class that is not permanently barred. -/
def Bts.unlessBarred (f : AccRamp → Nat → AccRamp) (bts : Bts) (acc : Nat) : Bts :=
  if bts.accIsPermanentlyBarred acc then bts else { bts with accRamp := f bts.accRamp acc }

def Bts.barrAllAccs (bts : Bts) : Bts := (List.range 10).foldl (Bts.unlessBarred .barrOneAcc) bts

def Bts.allowAllAccs (bts : Bts) : Bts := (List.range 10).foldl (Bts.unlessBarred .allowOneAcc) bts

def AccRamp.barredT2 (r : AccRamp) : BitVec 8 := ((r.barredAccs >>> 8) &&& 0x03#16).setWidth 8

def AccRamp.barredT3 (r : AccRamp) : BitVec 8 := (r.barredAccs &&& 0xff#16).setWidth 8

def AccRamp.apply (r : AccRamp) (rach : RachControl) : RachControl :=
  ⟨rach.t2 ||| r.barredT2,rach.t3 ||| r.barredT3⟩

def Bts.siRachControl (bts : Bts) : RachControl :=
  if bts.accRamp.accRampingEnabled then bts.accRamp.apply bts.rachControl else bts.rachControl

def Bts.setSystemInfos (bts : Bts) : Bts :=
  { bts with announced := bts.announced ++ [⟨bts.rachControl,bts.siRachControl⟩] }

/-- The interval scaled to the channel load. The lower bound is compared with
`ACC_RAMP_STEP_SIZE_MIN`, as in the source. -/
def scaledInterval (chanLoadAvg : Nat) : Nat :=
  let sec := (chanLoadAvg <<< 8 * accRampStepIntervalMax / 100) >>> 8
  if sec < accRampStepSizeMin then accRampStepIntervalMin
  else if sec > accRampStepIntervalMax then accRampStepIntervalMax else sec

/-- `get_next_step_interval` and the arming of the step timer. -/
def Bts.scheduleStep (bts : Bts) : Bts :=
  let sec := if bts.accRamp.stepIntervalIsFixed then bts.accRamp.stepIntervalSec
    else scaledInterval bts.chanLoadAvg
  { bts with accRamp := { bts.accRamp with stepIntervalSec := sec, stepTimer := some sec } }

/-- `ffs`: one more than the number of the lowest bit that is set, or 0. -/
def ffs (x : BitVec 8) : Nat := ((List.range 8).find? x.getLsbD).elim 0 (·+1)

/-- One turn of the loop of `do_acc_ramping_step`; none is its `break`. -/
def Bts.rampOne (bts : Bts) : Option Bts :=
  if 0 < ffs bts.accRamp.barredT3 then
    some (bts.unlessBarred .allowOneAcc (ffs bts.accRamp.barredT3-1))
  else if ffs bts.accRamp.barredT2 = 1 ∨ ffs bts.accRamp.barredT2 = 2 then
    some (bts.unlessBarred .allowOneAcc (ffs bts.accRamp.barredT2-1+8))
  else none

/-- The loop of `do_acc_ramping_step`. -/
def Bts.rampLoop : Nat → Bts → Bts
  | 0, bts => bts
  | i+1, bts => match bts.rampOne with
    | none => bts
    | some bts' => bts'.rampLoop i

def Bts.doAccRampingStep (bts : Bts) : Bts :=
  if bts.accRamp.stepSize = accRampStepSizeMax then bts.allowAllAccs.setSystemInfos
  else
    let bts := (bts.rampLoop bts.accRamp.stepSize).setSystemInfos
    if bts.accRamp.barredT2 ≠ 0 ∨ bts.accRamp.barredT3 ≠ 0 then bts.scheduleStep else bts

def Bts.accRampAbort (bts : Bts) : Bts :=
  { bts with accRamp := { bts.accRamp with stepTimer := none } }.allowAllAccs

def Bts.accRampTrigger (bts : Bts) : Bts :=
  if bts.accRampAbort.accRamp.accRampingEnabled then bts.accRampAbort.barrAllAccs.doAccRampingStep
  else bts.accRampAbort

/-- The expiry of the step timer, which is not armed while it runs `do_acc_ramping_step`. -/
def Bts.stepTimerExpired (bts : Bts) : Bts :=
  if bts.accRamp.stepTimer.isSome then
    { bts with accRamp := { bts.accRamp with stepTimer := none } }.doAccRampingStep
  else bts

/-- `rach access-control-class`: bar or allow a class for good. -/
def RachControl.acClass (r : RachControl) (controlClass : Nat) (allowed : Bool) : RachControl :=
  if controlClass < 8 then
    if allowed then { r with t3 := r.t3 &&& ~~~(1#8 <<< controlClass) }
    else { r with t3 := r.t3 ||| (1#8 <<< controlClass) }
  else if allowed then { r with t2 := r.t2 &&& ~~~(1#8 <<< (controlClass-8)) }
  else { r with t2 := r.t2 ||| (1#8 <<< (controlClass-8)) }

def Bts.cfgBtsRachAcClass (bts : Bts) (controlClass : Nat) (allowed : Bool) : Bts :=
  { bts with rachControl := bts.rachControl.acClass controlClass allowed }

def AccRamp.barredClasses (r : AccRamp) : List Nat := (List.range 10).filter r.barredAccs.getLsbD

end OsmoBsc.Acc
