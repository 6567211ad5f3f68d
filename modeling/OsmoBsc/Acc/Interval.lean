import OsmoBsc.Acc.Progress
import OsmoBsc.Chan.ChanLoad
set_option autoImplicit false

/-! The interval of ramping steps, from the samples of the channel load to the timer. -/

namespace OsmoBsc.Acc
open EventFsm Chan

/-- `acc_ramp_set_step_size`, which refuses a value that is out of range. -/
def AccRamp.setStepSize (r : AccRamp) (stepSize : Nat) : AccRamp :=
  if stepSize < accRampStepSizeMin ∨ stepSize > accRampStepSizeMax then r
  else { r with stepSize := stepSize }

def AccRamp.setStepInterval (r : AccRamp) (stepInterval : Nat) : AccRamp :=
  if stepInterval < accRampStepIntervalMin ∨ stepInterval > accRampStepIntervalMax then r
  else { r with stepIntervalSec := stepInterval, stepIntervalIsFixed := true }

def AccRamp.setStepIntervalDynamic (r : AccRamp) : AccRamp := { r with stepIntervalIsFixed := false }

def Bts.cfgBtsNoAccRamping (bts : Bts) : Bts :=
  if bts.accRamp.accRampingEnabled then
    { bts.accRampAbort with accRamp := { bts.accRampAbort.accRamp with accRampingEnabled := false } }.setSystemInfos
  else bts

/-- The step timer is armed: in which mode, at which channel load average, and for how long. -/
structure Arming where
  fixed : Bool
  chanLoadAvg : Nat
  sec : Nat
  deriving DecidableEq, Repr

/-- A BTS with its channel load, and how the step timer was armed so far. -/
structure Cell where
  bts : Bts := {}
  load : ChanLoad := {}
  armings : List Arming := []

/-- What `do_acc_ramping_step` armed, if it did; the timer did not run before it. -/
def Bts.armed (bts : Bts) : List Arming :=
  bts.accRamp.stepTimer.toList.map fun sec => ⟨bts.accRamp.stepIntervalIsFixed,bts.chanLoadAvg,sec⟩

inductive CellAct where
  | trigger
  | abort
  | timer
  | acClass (controlClass : Nat) (allowed : Bool)
  | enable
  | disable
  | stepSize (stepSize : Nat)
  | stepInterval (stepInterval : Nat)
  | stepIntervalDynamic
  | load (i : LoadInput)

def Cell.ramp (c : Cell) (bts : Bts) : Cell := { c with bts := bts, armings := c.armings ++ bts.armed }

def Cell.step (c : Cell) : CellAct → Except Fault Cell
  | .trigger => .ok (c.ramp c.bts.accRampTrigger)
  | .abort => .ok { c with bts := c.bts.accRampAbort }
  | .timer => .ok (if c.bts.accRamp.stepTimer.isSome then c.ramp c.bts.stepTimerExpired else c)
  | .acClass controlClass allowed => .ok { c with bts := c.bts.cfgBtsRachAcClass controlClass allowed }
  | .enable => .ok { c with bts := { c.bts with accRamp := { c.bts.accRamp with accRampingEnabled := true } } }
  | .disable => .ok { c with bts := c.bts.cfgBtsNoAccRamping }
  | .stepSize n => .ok { c with bts := { c.bts with accRamp := c.bts.accRamp.setStepSize n } }
  | .stepInterval n => .ok { c with bts := { c.bts with accRamp := c.bts.accRamp.setStepInterval n } }
  | .stepIntervalDynamic => .ok { c with bts := { c.bts with accRamp := c.bts.accRamp.setStepIntervalDynamic } }
  | .load i => do
    let load ← loadStep c.load i
    return { c with load := load, bts := { c.bts with chanLoadAvg := load.chanLoadAvg } }

/-- The value of `get_next_step_interval`. -/
def Bts.nextStepInterval (bts : Bts) : Nat :=
  if bts.accRamp.stepIntervalIsFixed then bts.accRamp.stepIntervalSec else scaledInterval bts.chanLoadAvg

def Bts.Bars (bts bts' : Bts) : Prop :=
  ∃ accs, bts' = { bts with accRamp := { bts.accRamp with barredAccs := accs } }

section Steps

variable {bts bts' bts'' : Bts}

theorem Bts.Bars.refl (bts : Bts) : bts.Bars bts := ⟨bts.accRamp.barredAccs,rfl⟩

theorem Bts.Bars.trans (h : bts.Bars bts') (h' : bts'.Bars bts'') : bts.Bars bts'' := by
  obtain ⟨accs,rfl⟩ := h
  obtain ⟨accs',rfl⟩ := h'
  exact ⟨accs',rfl⟩

theorem unlessBarred_bars {f : AccRamp → Nat → AccRamp} (hf : f = .allowOneAcc ∨ f = .barrOneAcc)
    (bts : Bts) (acc : Nat) : bts.Bars (bts.unlessBarred f acc) := by
  rw [Bts.unlessBarred]
  split
  · exact .refl bts
  · rcases hf with rfl | rfl <;> exact ⟨_,rfl⟩

theorem foldl_bars {f : AccRamp → Nat → AccRamp} (hf : f = .allowOneAcc ∨ f = .barrOneAcc)
    (accs : List Nat) (bts : Bts) : bts.Bars (accs.foldl (Bts.unlessBarred f) bts) := by
  induction accs generalizing bts with
  | nil => exact .refl bts
  | cons acc accs ih => exact (unlessBarred_bars hf bts acc).trans (ih _)

theorem rampLoop_bars (n : Nat) (bts : Bts) : bts.Bars (bts.rampLoop n) := by
  induction n generalizing bts with
  | zero => exact .refl bts
  | succ n ih =>
    rw [Bts.rampLoop,rampOne_eq]
    cases bts.accRamp.barredClasses.head? with
    | none => exact .refl bts
    | some acc => exact (unlessBarred_bars (.inl rfl) bts acc).trans (ih _)

/-- A ramping step leaves the mode and the average, and what it arms is the next interval. -/
structure Bts.Arms (bts bts' : Bts) : Prop where
  fixed : bts'.accRamp.stepIntervalIsFixed = bts.accRamp.stepIntervalIsFixed
  avg : bts'.chanLoadAvg = bts.chanLoadAvg
  interval : bts'.accRamp.stepTimer = none ∧ bts'.accRamp.stepIntervalSec = bts.accRamp.stepIntervalSec
    ∨ bts'.accRamp.stepTimer = some bts.nextStepInterval ∧ bts'.accRamp.stepIntervalSec = bts.nextStepInterval

theorem doAccRampingStep_arms (ht : bts.accRamp.stepTimer = none) : bts.Arms bts.doAccRampingStep := by
  rw [Bts.doAccRampingStep]
  split
  · obtain ⟨accs,hall⟩ := foldl_bars (.inl rfl) (List.range 10) bts
    rw [Bts.allowAllAccs,hall]
    exact ⟨rfl,rfl,.inl ⟨ht,rfl⟩⟩
  · obtain ⟨accs,hloop⟩ := rampLoop_bars bts.accRamp.stepSize bts
    rw [hloop]
    dsimp only
    split
    · exact ⟨rfl,rfl,.inr ⟨rfl,rfl⟩⟩
    · exact ⟨rfl,rfl,.inl ⟨ht,rfl⟩⟩

theorem accRampAbort_bars : Bts.Bars { bts with accRamp := { bts.accRamp with stepTimer := none } }
    bts.accRampAbort := foldl_bars (.inl rfl) _ _

theorem accRampTrigger_arms : bts.Arms bts.accRampTrigger := by
  obtain ⟨accs,habort⟩ := @accRampAbort_bars bts
  rw [Bts.accRampTrigger,habort]
  split
  · obtain ⟨accs',hall⟩ := foldl_bars (.inr rfl) (List.range 10)
      { bts with accRamp := { bts.accRamp with stepTimer := none, barredAccs := accs } }
    rw [Bts.barrAllAccs,hall]
    exact ⟨(doAccRampingStep_arms rfl).fixed,(doAccRampingStep_arms rfl).avg,(doAccRampingStep_arms rfl).interval⟩
  · exact ⟨rfl,rfl,.inl ⟨rfl,rfl⟩⟩

end Steps

def InRange (sec : Nat) : Prop := accRampStepIntervalMin ≤ sec ∧ sec ≤ accRampStepIntervalMax

instance (sec : Nat) : Decidable (InRange sec) := inferInstanceAs (Decidable (_ ∧ _))

theorem scaledInterval_eq (avg : Nat) : scaledInterval avg =
    if avg = 0 then 30 else if avg * 6 > 600 then 600 else avg * 6 := by
  have hsec : (avg <<< 8 * accRampStepIntervalMax / 100) >>> 8 = avg * 6 := by
    rw [Nat.shiftLeft_eq,Nat.shiftRight_eq_div_pow,accRampStepIntervalMax]
    omega
  have hmin : avg * 6 < accRampStepSizeMin ↔ avg = 0 := by
    rw [accRampStepSizeMin]
    omega
  rw [scaledInterval,hsec]
  by_cases h0 : avg = 0
  · rw [if_pos h0,if_pos (hmin.mpr h0)]
    rfl
  · rw [if_neg h0,if_neg (fun hlt => h0 (hmin.mp hlt))]
    rfl

theorem scaledInterval_inRange_iff (avg : Nat) : InRange (scaledInterval avg) ↔ avg = 0 ∨ 5 ≤ avg := by
  rw [scaledInterval_eq]
  simp only [InRange,accRampStepIntervalMin,accRampStepIntervalMax]
  split
  · omega
  · split <;> omega

theorem scaledInterval_mono {avg avg' : Nat} (ha' : avg' = 0 ∨ 5 ≤ avg') (hle : avg ≤ avg') : scaledInterval avg ≤ scaledInterval avg' := by
  rw [scaledInterval_eq,scaledInterval_eq]
  repeat' split
  all_goals omega

def Arming.Proper (a : Arming) : Prop :=
  if a.fixed then InRange a.sec else a.sec = scaledInterval a.chanLoadAvg

structure Cell.Inv (c : Cell) : Prop where
  load : ∃ fresh, c.load.Holds fresh
  avg : c.bts.chanLoadAvg = c.load.chanLoadAvg
  fixed : c.bts.accRamp.stepIntervalIsFixed = true → InRange c.bts.accRamp.stepIntervalSec
  armings : ∀ a ∈ c.armings, a.Proper

section Runs

variable {c : Cell} {bts : Bts}

theorem Cell.Inv.keep (h : c.Inv) (havg : bts.chanLoadAvg = c.bts.chanLoadAvg)
    (hfixed : bts.accRamp.stepIntervalIsFixed = true → InRange bts.accRamp.stepIntervalSec) :
    Cell.Inv { c with bts := bts } :=
  ⟨h.load,havg.trans h.avg,hfixed,h.armings⟩

theorem Cell.Inv.ramp (h : c.Inv) (harms : c.bts.Arms bts) : (c.ramp bts).Inv where
  load := h.load
  avg := harms.avg.trans h.avg
  fixed := by
    intro hfixed
    change InRange bts.accRamp.stepIntervalSec
    have hmode := harms.fixed.symm.trans hfixed
    rcases harms.interval with ⟨-,hsec⟩ | ⟨-,hsec⟩
    · rw [hsec]
      exact h.fixed hmode
    · rw [hsec,Bts.nextStepInterval,if_pos hmode]
      exact h.fixed hmode
  armings := by
    intro a ha
    rcases List.mem_append.mp ha with hold | hnew
    · exact h.armings a hold
    · rcases harms.interval with ⟨htimer,-⟩ | ⟨htimer,-⟩
      · rw [Bts.armed,htimer] at hnew
        cases hnew
      · rw [Bts.armed,htimer] at hnew
        obtain rfl := List.mem_singleton.mp hnew
        unfold Arming.Proper
        dsimp only
        rw [harms.fixed,harms.avg,Bts.nextStepInterval]
        split
        · next hmode => exact h.fixed hmode
        · rfl

theorem Cell.Inv.step (h : c.Inv) (a : CellAct) : ∃ c', c.step a = .ok c' ∧ c'.Inv := by
  obtain ⟨accs,habort⟩ := @accRampAbort_bars c.bts
  cases a with
  | trigger => exact ⟨_,rfl,h.ramp accRampTrigger_arms⟩
  | abort =>
    refine ⟨_,rfl,h.keep ?_ ?_⟩
    · rw [habort]
    · rw [habort]
      exact h.fixed
  | timer =>
    refine ⟨_,rfl,?_⟩
    split
    · next htimer =>
      rw [Bts.stepTimerExpired,if_pos htimer]
      have harms := @doAccRampingStep_arms { c.bts with accRamp := { c.bts.accRamp with stepTimer := none } } rfl
      exact h.ramp ⟨harms.fixed,harms.avg,harms.interval⟩
    · exact h
  | acClass controlClass allowed => exact ⟨_,rfl,h.keep rfl h.fixed⟩
  | enable => exact ⟨_,rfl,h.keep rfl h.fixed⟩
  | disable =>
    refine ⟨_,rfl,h.keep ?_ ?_⟩
    · rw [Bts.cfgBtsNoAccRamping,habort]
      split <;> rfl
    · rw [Bts.cfgBtsNoAccRamping,habort]
      split
      · exact h.fixed
      · exact h.fixed
  | stepSize n =>
    refine ⟨_,rfl,h.keep rfl ?_⟩
    dsimp only
    rw [AccRamp.setStepSize]
    split
    · exact h.fixed
    · exact h.fixed
  | stepInterval n =>
    refine ⟨_,rfl,h.keep rfl ?_⟩
    dsimp only
    rw [AccRamp.setStepInterval]
    split
    · exact h.fixed
    · next hrange =>
      intro _
      rw [not_or] at hrange
      exact ⟨Nat.not_lt.mp hrange.1,Nat.not_lt.mp hrange.2⟩
  | stepIntervalDynamic =>
    refine ⟨_,rfl,h.keep rfl fun hfixed => ?_⟩
    cases hfixed
  | load i =>
    obtain ⟨fresh,hload⟩ := h.load
    obtain ⟨b',hstep,hholds,-⟩ := hload.step i
    refine ⟨{ c with load := b', bts := { c.bts with chanLoadAvg := b'.chanLoadAvg } },?_,?_⟩
    · rw [Cell.step,hstep]
      rfl
    · exact ⟨⟨_,hholds⟩,rfl,h.fixed,h.armings⟩

theorem Cell.Inv.run (h : c.Inv) (acts : List CellAct) :
    ∃ c', EventFsm.run Cell.step c acts = .ok c' ∧ c'.Inv := by
  induction acts generalizing c with
  | nil => exact ⟨c,rfl,h⟩
  | cons a acts ih =>
    obtain ⟨c1,hstep,h1⟩ := h.step a
    obtain ⟨c',hrun,h'⟩ := ih h1
    refine ⟨c',?_,h'⟩
    rw [EventFsm.run,hstep]
    exact hrun

theorem Cell.Inv.initial : ({} : Cell).Inv :=
  ⟨⟨[],.initial⟩,rfl,fun h => absurd h Bool.false_ne_true,List.forall_mem_nil _⟩

end Runs

/-- The intervals are in range, and the scaled ones do not decrease with the load. -/
structure Paced (armings : List Arming) : Prop where
  inRange : ∀ a ∈ armings, InRange a.sec
  mono : ∀ a ∈ armings, ∀ a' ∈ armings, a.fixed = false → a'.fixed = false → a.chanLoadAvg ≤ a'.chanLoadAvg →
    a.sec ≤ a'.sec

/-- The step timer is always armed in range if and only if it is never armed in dynamic mode at a load
average of 1 to 4. -/
theorem armings_paced_iff (acts : List CellAct) : ∃ c, run Cell.step {} acts = .ok c
    ∧ (Paced c.armings ↔ ∀ a ∈ c.armings, a.fixed = true ∨ a.chanLoadAvg = 0 ∨ 5 ≤ a.chanLoadAvg) := by
  obtain ⟨c,hrun,h⟩ := Cell.Inv.initial.run acts
  have hscaled : ∀ a ∈ c.armings, a.fixed = false → a.sec = scaledInterval a.chanLoadAvg := by
    intro a ha hmode
    have hproper := h.armings a ha
    rwa [Arming.Proper,if_neg (by rw [hmode]; decide)] at hproper
  refine ⟨c,hrun,fun hpaced a ha => ?_,fun hload => ⟨fun a ha => ?_,fun a ha a' ha' hmode hmode' hle => ?_⟩⟩
  · cases hmode : a.fixed with
    | true => exact .inl rfl
    | false =>
      have hin := hpaced.inRange a ha
      rw [hscaled a ha hmode] at hin
      exact .inr ((scaledInterval_inRange_iff _).mp hin)
  · cases hmode : a.fixed with
    | true =>
      have hproper := h.armings a ha
      rwa [Arming.Proper,if_pos hmode] at hproper
    | false =>
      rw [hscaled a ha hmode]
      exact (scaledInterval_inRange_iff _).mpr ((hload a ha).resolve_left (by rw [hmode]; decide))
  · rw [hscaled a ha hmode,hscaled a' ha' hmode']
    exact scaledInterval_mono ((hload a' ha').resolve_left (by rw [hmode']; decide)) hle

/-- At a load average of 3 % the timer is armed with 18 seconds. -/
theorem arming_below_min : ∃ c, run Cell.step {}
      (.enable :: (List.replicate 7 (.load (threeTchF false)) ++ [.load (threeTchF true),.trigger])) = .ok c
    ∧ ¬ ∀ a ∈ c.armings, InRange a.sec := by
  refine ⟨_,rfl,?_⟩
  decide +kernel

end OsmoBsc.Acc
