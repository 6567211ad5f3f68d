import Mathlib.Logic.Function.Basic
import OsmoBsc.Acc.Progress

set_option autoImplicit false

namespace OsmoBsc.Acc

/-- `enum abis_nm_adm_state`; the codes without a name are kept apart. -/
inductive AdmState where
  | locked
  | unlocked
  | shutdown
  | other (code : Nat)
  deriving DecidableEq, Repr

inductive OpState where
  | disabled
  | enabled
  | other (code : Nat)
  deriving DecidableEq, Repr

/-- The availability states that `nm_is_running` tells apart. -/
inductive AvState where
  | ok
  | unset
  | other (code : Nat)
  deriving DecidableEq, Repr

structure NmState where
  administrative : AdmState
  operational : OpState
  availability : AvState
  deriving DecidableEq, Repr

def NmState.isRunning (s : NmState) : Bool :=
  s.operational = .enabled && (s.availability = .ok || s.availability = .unset)

/-- The fields of `struct gsm_bts_trx` that the handler reads, with the BTS of the TRX. -/
structure Trx (ι : Type) where
  bts : ι
  nr : Nat
  rslLink : Bool
  isIpaccess : Bool
  nmState : NmState
  bbTransc : NmState
  deriving DecidableEq, Repr

def Trx.isUsable {ι : Type} (trx : Trx ι) : Bool :=
  !trx.isIpaccess || trx.nmState.isRunning && trx.bbTransc.isRunning

/-- The signals of `SS_NM`. -/
inductive NmSignalType where
  | stateChgAdm
  | stateChgOper
  | other
  deriving DecidableEq, Repr

/-- A signal with its `struct nm_statechg_signal_data`. -/
structure NmSignal (ι : Type) where
  signal : NmSignalType
  radioCarrier : Bool
  trx : Trx ι
  oldState : NmState
  newState : NmState
  deriving DecidableEq, Repr

section Handler

variable {ι : Type} (s : NmSignal ι)

def NmSignal.admChanged : Bool := s.oldState.administrative ≠ s.newState.administrative

def NmSignal.operChanged : Bool := s.oldState.operational ≠ s.newState.operational

def NmSignal.ofFirstTrx : Bool :=
  (s.signal = .stateChgAdm || s.signal = .stateChgOper) && s.radioCarrier && s.trx.nr = 0 && s.trx.rslLink

def NmSignal.triggerRamping : Bool :=
  s.admChanged && s.newState.administrative = .unlocked &&
      (if s.operChanged then s.newState.operational = .enabled else s.trx.isUsable) ||
    s.operChanged && s.newState.operational = .enabled &&
      (if s.admChanged then s.newState.administrative = .unlocked
        else s.trx.nmState.administrative = .unlocked)

def NmSignal.abortRamping : Bool :=
  s.admChanged && (s.newState.administrative = .locked || s.newState.administrative = .shutdown) ||
    s.operChanged && s.newState.operational = .disabled

/-- `acc_ramp_nm_sig_cb`, registered with the ramp of `bts`. It does not ask whose TRX
the signal is about. -/
def Bts.accRampNmSigCb (bts : Bts) : Bts :=
  if s.ofFirstTrx then
    if s.triggerRamping then bts.accRampTrigger
    else if s.abortRamping then bts.accRampAbort else bts
  else bts

/-- The signal locks, shuts down or disables no first TRX with RSL up, and leaves none
enabled and unlocked. -/
structure NmSignal.Harmless : Prop where
  locks : s.ofFirstTrx → s.admChanged →
    s.newState.administrative ≠ .locked ∧ s.newState.administrative ≠ .shutdown
  disables : s.ofFirstTrx → s.operChanged → s.newState.operational ≠ .disabled
  unlocks : s.ofFirstTrx → s.admChanged → s.newState.administrative = .unlocked →
    if s.operChanged then s.newState.operational ≠ .enabled else s.trx.isUsable = false
  enables : s.ofFirstTrx → s.operChanged → s.newState.operational = .enabled →
    if s.admChanged then s.newState.administrative ≠ .unlocked
    else s.trx.nmState.administrative ≠ .unlocked

variable {s}

theorem NmSignal.Harmless.triggerRamping (h : s.Harmless) (hf : s.ofFirstTrx = true) :
    s.triggerRamping = false := by
  have hu := h.unlocks hf
  have he := h.enables hf
  rw [NmSignal.triggerRamping]
  cases ha : s.admChanged <;> cases ho : s.operChanged <;> simp_all

theorem NmSignal.Harmless.abortRamping (h : s.Harmless) (hf : s.ofFirstTrx = true) :
    s.abortRamping = false := by
  have hl := h.locks hf
  have hd := h.disables hf
  rw [NmSignal.abortRamping]
  cases ha : s.admChanged <;> cases ho : s.operChanged <;> simp_all

theorem NmSignal.Harmless.ignored (h : s.Harmless) (bts : Bts) : bts.accRampNmSigCb s = bts := by
  rw [Bts.accRampNmSigCb]
  split
  · rename_i hf
    simp [h.triggerRamping hf,h.abortRamping hf]
  · rfl

end Handler

/-- What happens in a network: a signal, which every handler gets, or the expiry of the
step timer of a BTS. -/
inductive Event (ι : Type) where
  | signal (s : NmSignal ι)
  | timer (b : ι)

section Network

variable {ι : Type} [DecidableEq ι]

def step (net : ι → Bts) : Event ι → ι → Bts
  | .signal s => fun b => (net b).accRampNmSigCb s
  | .timer b => Function.update net b (net b).stepTimerExpired

def runNet (net : ι → Bts) (evs : List (Event ι)) : ι → Bts := evs.foldl step net

/-- The events of TRX 0 of a BTS, and of its own step timer. -/
def Event.own (b : ι) : Event ι → Bool
  | .signal s => s.trx.bts = b && s.trx.nr = 0
  | .timer b' => b' = b

def ownStep (bts : Bts) : Event ι → Bts
  | .signal s => bts.accRampNmSigCb s
  | .timer _ => bts.stepTimerExpired

def Undisturbed (b : ι) (evs : List (Event ι)) : Prop :=
  ∀ s, .signal s ∈ evs → s.trx.bts ≠ b → s.Harmless

variable {b : ι} {evs : List (Event ι)}

theorem step_own (net : ι → Bts) {ev : Event ι} (h : ev.own b = true) :
    step net ev b = ownStep (net b) ev := by
  cases ev with
  | signal s => rfl
  | timer b' =>
    simp only [Event.own,decide_eq_true_eq] at h
    subst h
    simp [step,ownStep]

theorem step_foreign (net : ι → Bts) {ev : Event ι} (h : ev.own b = false)
    (hh : ∀ s, ev = .signal s → s.trx.bts ≠ b → s.Harmless) : step net ev b = net b := by
  cases ev with
  | signal s =>
    simp only [Event.own,Bool.and_eq_false_iff,decide_eq_false_iff_not] at h
    show (net b).accRampNmSigCb s = net b
    by_cases hb : s.trx.bts = b
    · have hnr := h.resolve_left (by simp [hb])
      simp [Bts.accRampNmSigCb,NmSignal.ofFirstTrx,hnr]
    · exact (hh s rfl hb).ignored (net b)
  | timer b' =>
    simp only [Event.own,decide_eq_false_iff_not] at h
    exact Function.update_of_ne (Ne.symm h) _ _

theorem runNet_own (net : ι → Bts) (h : Undisturbed b evs) :
    runNet net evs b = (evs.filter (·.own b)).foldl ownStep (net b) := by
  induction evs generalizing net with
  | nil => rfl
  | cons ev evs ih =>
    have htail : Undisturbed b evs := fun s hs => h s (List.mem_cons_of_mem _ hs)
    rw [runNet,List.foldl_cons]
    show runNet (step net ev) evs b = _
    rw [ih _ htail]
    cases ho : ev.own b with
    | true => rw [List.filter_cons_of_pos ho,List.foldl_cons,step_own net ho]
    | false =>
      rw [List.filter_cons_of_neg (by simp [ho]),step_foreign net ho]
      rintro s rfl hb
      exact h s List.mem_cons_self hb

end Network

/-- In runs that do not disturb BTS `b`, the ramp of `b` depends on the events of its own
TRX 0 and timer only, and no signal about another BTS changes it. -/
theorem ramp_isolated {ι : Type} [DecidableEq ι] (b : ι) (net net' : ι → Bts) (evs evs' : List (Event ι))
    (hnet : net b = net' b) (hevs : evs.filter (·.own b) = evs'.filter (·.own b))
    (h : Undisturbed b evs) (h' : Undisturbed b evs') :
    runNet net evs b = runNet net' evs' b ∧
      ∀ s, .signal s ∈ evs → s.trx.bts ≠ b → ∀ bts : Bts, bts.accRampNmSigCb s = bts := by
  refine ⟨?_,fun s hs hb bts => (h s hs hb).ignored bts⟩
  rw [runNet_own net h,runNet_own net' h',hnet,hevs]

def runningTrx (bts : Nat) (rslLink : Bool) : Trx Nat :=
  { bts, nr := 0, rslLink, isIpaccess := true, nmState := ⟨.unlocked,.enabled,.ok⟩
    bbTransc := ⟨.unlocked,.enabled,.ok⟩ }

def lockSignal (trx : Trx Nat) : NmSignal Nat :=
  { signal := .stateChgAdm, radioCarrier := true, trx, oldState := trx.nmState
    newState := { trx.nmState with administrative := .locked } }

def rampingBts : Bts := { accRamp := { accRampingEnabled := true, barredAccs := 0x3fe, stepTimer := some 30 } }

/-- BTS 0 is ramping and BTS 1 gets locked while its RSL link is down. -/
theorem ramp_isolated_rsl_down :
    runNet (fun _ => rampingBts) [.signal (lockSignal (runningTrx 1 false)),.timer 0] 0 =
        runNet (fun _ => rampingBts) [.timer 0] 0 ∧
      ∀ s, .signal s ∈ [Event.signal (lockSignal (runningTrx 1 false)),.timer 0] → s.trx.bts ≠ 0 →
        ∀ bts : Bts, bts.accRampNmSigCb s = bts := by
  refine ramp_isolated 0 _ _ _ _ rfl rfl (fun s hs _ => ?_) (fun s hs => ?_)
  · simp only [List.mem_cons,Event.signal.injEq,reduceCtorEq,List.not_mem_nil,or_false] at hs
    subst hs
    constructor <;> exact fun h => absurd h (by decide)
  · simp at hs

/-- With RSL up, the lock of TRX 0 of BTS 1 aborts the ramp of BTS 0. -/
theorem ramp_not_isolated : ¬ ∀ (b : Nat) (net net' : Nat → Bts) (evs evs' : List (Event Nat)),
    net b = net' b → evs.filter (·.own b) = evs'.filter (·.own b) →
    runNet net evs b = runNet net' evs' b ∧
      ∀ s, .signal s ∈ evs → s.trx.bts ≠ b → ∀ bts : Bts, bts.accRampNmSigCb s = bts := by
  intro h
  have hr := (h 0 (fun _ => rampingBts) (fun _ => rampingBts) [.signal (lockSignal (runningTrx 1 true))] []
    rfl rfl).1
  revert hr
  decide

end OsmoBsc.Acc
