import Mathlib.Data.List.Find
import Mathlib.Tactic.IntervalCases
import OsmoBsc.Acc.Ramp

set_option autoImplicit false

namespace OsmoBsc.Acc

section Masks

variable (r : AccRamp) (bts : Bts) {acc i n : Nat}

theorem getLsbD_allowOneAcc (hi : i < 16) :
    (r.allowOneAcc acc).barredAccs.getLsbD i = (r.barredAccs.getLsbD i && i != acc) := by
  simp only [AccRamp.allowOneAcc,BitVec.getLsbD_and,BitVec.getLsbD_not,BitVec.getLsbD_shiftLeft,
    BitVec.getLsbD_one,hi]
  congr 1
  by_cases h : i = acc
  · simp [h]
  · by_cases hlt : i < acc
    · simp [hlt,h]
    · have h0 : i-acc ≠ 0 := by omega
      simp [h,h0]

theorem barredClasses_allowOneAcc :
    (r.allowOneAcc acc).barredClasses = r.barredClasses.filter (· != acc) := by
  rw [AccRamp.barredClasses,AccRamp.barredClasses,List.filter_filter]
  refine List.filter_congr fun i hi => ?_
  have hlt := List.mem_range.mp hi
  rw [getLsbD_allowOneAcc r (by omega),Bool.and_comm]

theorem mem_barredClasses : acc ∈ r.barredClasses ↔ acc < 10 ∧ r.barredAccs.getLsbD acc = true := by
  simp [AccRamp.barredClasses]

theorem barredClasses_length : r.barredClasses.length ≤ accRampStepSizeMax := by
  have h := List.length_filter_le r.barredAccs.getLsbD (List.range 10)
  simpa [AccRamp.barredClasses,accRampStepSizeMax] using h

theorem barredClasses_nodup : r.barredClasses.Nodup := List.nodup_range.filter _

theorem getLsbD_barredT3 (h : i < 8) : r.barredT3.getLsbD i = r.barredAccs.getLsbD i := by
  have hff : (0xff#16).getLsbD i = true := by
    interval_cases i <;> rfl
  simp only [AccRamp.barredT3,BitVec.getLsbD_setWidth,BitVec.getLsbD_and,hff]
  simp [h]

theorem getLsbD_barredT2 (h : i < 8) :
    r.barredT2.getLsbD i = (decide (i < 2) && r.barredAccs.getLsbD (i+8)) := by
  have h3 : (0x03#16).getLsbD i = decide (i < 2) := by
    interval_cases i <;> rfl
  simp only [AccRamp.barredT2,BitVec.getLsbD_setWidth,BitVec.getLsbD_and,BitVec.getLsbD_ushiftRight,h3]
  simp [h,Nat.add_comm,Bool.and_comm]

theorem ffs_eq {x : BitVec 8} {p : Nat → Bool} (h : ∀ i < 8, x.getLsbD i = p i) :
    ffs x = ((List.range 8).find? p).elim 0 (·+1) := by
  rw [ffs,List.find?_congr fun i hi => h i (List.mem_range.mp hi)]

theorem ffs_barredT3 :
    ffs r.barredT3 = ((List.range 8).find? r.barredAccs.getLsbD).elim 0 (·+1) :=
  ffs_eq fun _ hi => getLsbD_barredT3 r hi

theorem find?_two (p : Nat → Bool) : (List.range 8).find? (fun i => decide (i < 2) && p (i+8)) =
    if p 8 then some 0 else if p 9 then some 1 else none := by
  cases h8 : p 8 <;> cases h9 : p 9 <;> simp [List.range_succ,List.find?,h8,h9]

theorem ffs_barredT2 : ffs r.barredT2 =
    if r.barredAccs.getLsbD 8 then 1 else if r.barredAccs.getLsbD 9 then 2 else 0 := by
  rw [ffs_eq fun _ hi => getLsbD_barredT2 r hi,find?_two]
  split
  · rfl
  · split <;> rfl

theorem head?_barredClasses : r.barredClasses.head? =
    ((List.range 8).find? r.barredAccs.getLsbD).or
      (if r.barredAccs.getLsbD 8 then some 8 else if r.barredAccs.getLsbD 9 then some 9 else none) := by
  have h : List.range 10 = List.range 8 ++ [8,9] := rfl
  rw [AccRamp.barredClasses,List.head?_filter,h,List.find?_append]
  congr 1
  generalize r.barredAccs.getLsbD = p
  cases h8 : p 8 <;> cases h9 : p 9 <;> simp [h8,h9]

theorem rampOne_eq :
    bts.rampOne = bts.accRamp.barredClasses.head?.map (bts.unlessBarred .allowOneAcc) := by
  rw [Bts.rampOne,ffs_barredT3,ffs_barredT2,head?_barredClasses]
  cases h : (List.range 8).find? bts.accRamp.barredAccs.getLsbD with
  | some acc => simp
  | none =>
    generalize bts.accRamp.barredAccs.getLsbD = p
    cases h8 : p 8 <;> cases h9 : p 9 <;> simp

theorem ffs_eq_zero (x : BitVec 8) : ffs x = 0 ↔ x = 0 := by
  rw [ffs]
  constructor
  · intro h
    cases hf : (List.range 8).find? x.getLsbD with
    | some i =>
      rw [hf] at h
      cases h
    | none =>
      refine BitVec.eq_of_getLsbD_eq fun i hi => ?_
      have hn := List.find?_eq_none.mp hf i (List.mem_range.mpr hi)
      simpa using hn
  · rintro rfl
    rfl

theorem barred_iff : (r.barredT2 ≠ 0 ∨ r.barredT3 ≠ 0) ↔ r.barredClasses ≠ [] := by
  rw [ne_eq,ne_eq,← ffs_eq_zero,← ffs_eq_zero,ffs_barredT2,ffs_barredT3,ne_eq,← List.head?_eq_none_iff,
    head?_barredClasses]
  cases (List.range 8).find? r.barredAccs.getLsbD with
  | some acc => simp
  | none =>
    generalize r.barredAccs.getLsbD = p
    cases h8 : p 8 <;> cases h9 : p 9 <;> simp

end Masks

/-- The step that is about to be made finds no class that is permanently barred
among the classes that it looks at. -/
def Bts.Unhindered (bts : Bts) : Prop :=
  ∀ acc ∈ bts.accRamp.barredClasses.take bts.accRamp.stepSize, bts.accIsPermanentlyBarred acc = false

structure Keeps (bts bts' : Bts) : Prop where
  rachControl : bts'.rachControl = bts.rachControl
  stepSize : bts'.accRamp.stepSize = bts.accRamp.stepSize
  stepTimer : bts'.accRamp.stepTimer = bts.accRamp.stepTimer
  enabled : bts'.accRamp.accRampingEnabled = bts.accRamp.accRampingEnabled
  announced : bts'.announced = bts.announced

theorem Keeps.refl (bts : Bts) : Keeps bts bts := ⟨rfl,rfl,rfl,rfl,rfl⟩

theorem Keeps.trans {b b' b'' : Bts} (h : Keeps b b') (h' : Keeps b' b'') : Keeps b b'' :=
  ⟨h'.1.trans h.1,h'.2.trans h.2,h'.3.trans h.3,h'.4.trans h.4,h'.5.trans h.5⟩

theorem unlessBarred_keeps {f : AccRamp → Nat → AccRamp} (hf : f = .allowOneAcc ∨ f = .barrOneAcc)
    (bts : Bts) (acc : Nat) : Keeps bts (bts.unlessBarred f acc) := by
  rw [Bts.unlessBarred]
  split
  · exact .refl bts
  · rcases hf with rfl | rfl <;> exact ⟨rfl,rfl,rfl,rfl,rfl⟩

theorem foldl_keeps {f : AccRamp → Nat → AccRamp} (hf : f = .allowOneAcc ∨ f = .barrOneAcc)
    (accs : List Nat) (bts : Bts) : Keeps bts (accs.foldl (Bts.unlessBarred f) bts) := by
  induction accs generalizing bts with
  | nil => exact .refl bts
  | cons acc accs ih => exact (unlessBarred_keeps hf bts acc).trans (ih _)

theorem rampLoop_keeps (n : Nat) (bts : Bts) : Keeps bts (bts.rampLoop n) := by
  induction n generalizing bts with
  | zero => exact .refl bts
  | succ n ih =>
    rw [Bts.rampLoop,rampOne_eq]
    cases bts.accRamp.barredClasses.head? with
    | none => exact .refl bts
    | some acc => exact (unlessBarred_keeps (.inl rfl) bts acc).trans (ih _)

section Loop

variable {bts : Bts} {n : Nat}

theorem rampLoop_barredClasses
    (h : ∀ acc ∈ bts.accRamp.barredClasses.take n, bts.accIsPermanentlyBarred acc = false) :
    (bts.rampLoop n).accRamp.barredClasses = bts.accRamp.barredClasses.drop n := by
  induction n generalizing bts with
  | zero => rfl
  | succ n ih =>
    rw [Bts.rampLoop,rampOne_eq]
    cases hl : bts.accRamp.barredClasses with
    | nil => simp [hl]
    | cons acc accs =>
      rw [hl] at h
      have hperm := h acc (by simp)
      have hnd := barredClasses_nodup bts.accRamp
      rw [hl,List.nodup_cons] at hnd
      have hone : (bts.unlessBarred .allowOneAcc acc).accRamp.barredClasses = accs := by
        rw [Bts.unlessBarred,hperm]
        show (bts.accRamp.allowOneAcc acc).barredClasses = accs
        rw [barredClasses_allowOneAcc,hl]
        simp only [List.filter_cons,bne_self_eq_false]
        refine List.filter_eq_self.mpr fun i hi => ?_
        simp only [bne_iff_ne]
        rintro rfl
        exact hnd.1 hi
      have hk := unlessBarred_keeps (.inl rfl) bts acc
      simp only [List.head?_cons,Option.map_some,List.drop_succ_cons]
      rw [ih,hone]
      intro i hi
      rw [hone] at hi
      rw [Bts.accIsPermanentlyBarred,hk.rachControl]
      exact h i (by simp [hi])

theorem allowOneAcc_barredClasses (acc : Nat) :
    (bts.unlessBarred .allowOneAcc acc).accRamp.barredClasses =
      bts.accRamp.barredClasses.filter fun i => bts.accIsPermanentlyBarred i || i != acc := by
  rw [Bts.unlessBarred]
  cases h : bts.accIsPermanentlyBarred acc with
  | true =>
    refine (List.filter_eq_self.mpr fun i _ => ?_).symm
    by_cases hi : i = acc
    · simp [hi,h]
    · simp [hi]
  | false =>
    show (bts.accRamp.allowOneAcc acc).barredClasses = _
    rw [barredClasses_allowOneAcc]
    refine List.filter_congr fun i _ => ?_
    by_cases hi : i = acc
    · simp [hi,h]
    · simp [hi]

theorem allowAccs_barredClasses (accs : List Nat) :
    (accs.foldl (Bts.unlessBarred .allowOneAcc) bts).accRamp.barredClasses =
      bts.accRamp.barredClasses.filter fun i => bts.accIsPermanentlyBarred i || !accs.contains i := by
  induction accs generalizing bts with
  | nil => simp
  | cons acc accs ih =>
    have hk := unlessBarred_keeps (.inl rfl) bts acc
    rw [List.foldl_cons,ih,allowOneAcc_barredClasses,List.filter_filter]
    refine List.filter_congr fun i _ => ?_
    rw [Bts.accIsPermanentlyBarred,hk.rachControl,Bts.accIsPermanentlyBarred]
    cases bts.rachControl.bars i with
    | true => simp
    | false => by_cases hi : i = acc <;> simp [hi]

theorem allowAllAccs_barredClasses :
    bts.allowAllAccs.accRamp.barredClasses =
      bts.accRamp.barredClasses.filter bts.accIsPermanentlyBarred := by
  rw [Bts.allowAllAccs,allowAccs_barredClasses]
  refine List.filter_congr fun i hi => ?_
  have hlt := ((mem_barredClasses _).mp hi).1
  simp [hlt]

end Loop

def Announcement.Safe (a : Announcement) : Prop :=
  ∀ acc < 10, a.configured.bars acc = true → a.sent.bars acc = true

theorem safe_siRachControl (bts : Bts) : Announcement.Safe ⟨bts.rachControl,bts.siRachControl⟩ := by
  intro acc _ h
  show bts.siRachControl.bars acc = true
  rw [Bts.siRachControl]
  split
  · rw [RachControl.bars] at h ⊢
    split
    · rename_i hacc
      rw [if_pos hacc] at h
      simp [AccRamp.apply,h]
    · rename_i hacc
      rw [if_neg hacc] at h
      simp [AccRamp.apply,h]
  · exact h

def AnnouncesSafely (bts bts' : Bts) : Prop :=
  ∃ new, bts'.announced = bts.announced ++ new ∧ ∀ a ∈ new, a.Safe

theorem AnnouncesSafely.refl (bts : Bts) : AnnouncesSafely bts bts := ⟨[],by simp,by simp⟩

theorem AnnouncesSafely.trans {b b' b'' : Bts} (h : AnnouncesSafely b b') (h' : AnnouncesSafely b' b'') :
    AnnouncesSafely b b'' := by
  obtain ⟨new,he,hn⟩ := h
  obtain ⟨new',he',hn'⟩ := h'
  refine ⟨new ++ new',by rw [he',he,List.append_assoc],fun a ha => ?_⟩
  rcases List.mem_append.mp ha with ha | ha
  · exact hn a ha
  · exact hn' a ha

theorem AnnouncesSafely.of_eq {b b' : Bts} (h : b'.announced = b.announced) : AnnouncesSafely b b' :=
  ⟨[],by simpa using h,by simp⟩

theorem setSystemInfos_safe (bts : Bts) : AnnouncesSafely bts bts.setSystemInfos := by
  refine ⟨[⟨bts.rachControl,bts.siRachControl⟩],rfl,fun a ha => ?_⟩
  rw [List.mem_singleton.mp ha]
  exact safe_siRachControl bts

section Step

variable {bts : Bts}

theorem doAccRampingStep_barredClasses (h : bts.Unhindered) :
    bts.doAccRampingStep.accRamp.barredClasses =
      bts.accRamp.barredClasses.drop bts.accRamp.stepSize := by
  rw [Bts.doAccRampingStep]
  split
  · rename_i hmax
    have hlen := barredClasses_length bts.accRamp
    rw [Bts.Unhindered,hmax,List.take_of_length_le hlen] at h
    rw [hmax,List.drop_of_length_le hlen]
    show bts.allowAllAccs.accRamp.barredClasses = []
    rw [allowAllAccs_barredClasses]
    exact List.filter_eq_nil_iff.mpr fun acc hacc => by simp [h acc hacc]
  · rw [← rampLoop_barredClasses h]
    dsimp only
    split <;> rfl

theorem doAccRampingStep_stepSize : bts.doAccRampingStep.accRamp.stepSize = bts.accRamp.stepSize := by
  rw [Bts.doAccRampingStep]
  split
  · exact (foldl_keeps (.inl rfl) _ bts).stepSize
  · have hk := (rampLoop_keeps bts.accRamp.stepSize bts).stepSize
    dsimp only
    split <;> exact hk

theorem doAccRampingStep_safe : AnnouncesSafely bts bts.doAccRampingStep := by
  rw [Bts.doAccRampingStep]
  split
  · exact (AnnouncesSafely.of_eq (foldl_keeps (.inl rfl) _ bts).announced).trans (setSystemInfos_safe _)
  · have hs := (AnnouncesSafely.of_eq (rampLoop_keeps bts.accRamp.stepSize bts).announced).trans
      (setSystemInfos_safe _)
    dsimp only
    split <;> exact hs

/-- The timer is armed after a step if and only if the ramp still bars a class. -/
theorem doAccRampingStep_timer (h : bts.Unhindered) (ht : bts.accRamp.stepTimer = none) :
    bts.doAccRampingStep.accRamp.stepTimer.isSome = true ↔
      bts.doAccRampingStep.accRamp.barredClasses ≠ [] := by
  by_cases hmax : bts.accRamp.stepSize = accRampStepSizeMax
  · have hlen := barredClasses_length bts.accRamp
    rw [doAccRampingStep_barredClasses h,hmax,List.drop_of_length_le hlen,Bts.doAccRampingStep,if_pos hmax]
    have hk := (foldl_keeps (.inl rfl) (List.range 10) bts).stepTimer
    show bts.allowAllAccs.accRamp.stepTimer.isSome = true ↔ _
    rw [Bts.allowAllAccs,hk,ht]
    simp
  · have hk := (rampLoop_keeps bts.accRamp.stepSize bts).stepTimer
    rw [Bts.doAccRampingStep,if_neg hmax]
    dsimp only
    split
    · rename_i hb
      exact iff_of_true rfl ((barred_iff _).mp hb)
    · rename_i hb
      refine iff_of_false ?_ (fun hne => hb ((barred_iff _).mpr hne))
      show ¬ (bts.rampLoop bts.accRamp.stepSize).accRamp.stepTimer.isSome = true
      rw [hk,ht]
      simp

end Step

/-- What happens while a ramp runs: the expiry of its timer, or the command of an
operator. -/
inductive Act where
  | timer
  | acClass (controlClass : Nat) (allowed : Bool)
  deriving DecidableEq, Repr

def Bts.act (bts : Bts) : Act → Bts
  | .timer => bts.stepTimerExpired
  | .acClass controlClass allowed => bts.cfgBtsRachAcClass controlClass allowed

def Bts.run (bts : Bts) (acts : List Act) : Bts := acts.foldl Bts.act bts

/-- Every step of the run finds no class permanently barred that it looks at. -/
def Bts.RunsUnhindered (bts : Bts) : List Act → Prop
  | [] => True
  | a :: acts => (a = .timer → bts.Unhindered) ∧ (bts.act a).RunsUnhindered acts

def rampSteps (stepSize : Nat) : Nat := (accRampStepSizeMax+stepSize-1)/stepSize

/-- The ramp is over: it bars no class that is not permanently barred, and its timer
is not armed. -/
def Bts.RampDone (bts : Bts) : Prop :=
  (∀ acc < 10, bts.accIsPermanentlyBarred acc = false → bts.accRamp.barredAccs.getLsbD acc = false) ∧
    bts.accRamp.stepTimer = none

/-- A ramp of step size `n` after `k` steps. -/
structure Ramping (n k : Nat) (bts : Bts) : Prop where
  stepSize : bts.accRamp.stepSize = n
  barred : bts.accRamp.barredClasses.length ≤ 10-k*n
  timer : bts.accRamp.stepTimer.isSome = true ↔ bts.accRamp.barredClasses ≠ []

section Runs

variable {bts : Bts} {n k : Nat}

theorem Ramping.of_step (h : bts.Unhindered) (ht : bts.accRamp.stepTimer = none)
    (hs : bts.accRamp.stepSize = n) (hb : bts.accRamp.barredClasses.length ≤ 10-k*n) :
    Ramping n (k+1) bts.doAccRampingStep where
  stepSize := by rw [doAccRampingStep_stepSize,hs]
  barred := by
    rw [doAccRampingStep_barredClasses h,List.length_drop,hs,Nat.succ_mul]
    omega
  timer := doAccRampingStep_timer h ht

theorem Ramping.timerExpired (h : Ramping n k bts) (hu : bts.Unhindered) :
    Ramping n (k+1) bts.stepTimerExpired := by
  rw [Bts.stepTimerExpired]
  split
  · exact .of_step hu rfl h.stepSize h.barred
  · rename_i ht
    have hnil : bts.accRamp.barredClasses = [] := by
      by_contra hne
      exact ht (h.timer.mpr hne)
    exact ⟨h.stepSize,by simp [hnil],h.timer⟩

theorem stepTimerExpired_safe : AnnouncesSafely bts bts.stepTimerExpired := by
  rw [Bts.stepTimerExpired]
  split
  · exact (AnnouncesSafely.of_eq rfl).trans doAccRampingStep_safe
  · exact .refl bts

theorem Ramping.run (acts : List Act) (h : Ramping n k bts) (hu : bts.RunsUnhindered acts) :
    Ramping n (k+acts.count .timer) (bts.run acts) ∧ AnnouncesSafely bts (bts.run acts) := by
  induction acts generalizing bts k with
  | nil => exact ⟨h,.refl bts⟩
  | cons a acts ih =>
    cases a with
    | timer =>
      obtain ⟨hr,hs⟩ := ih (h.timerExpired (hu.1 rfl)) hu.2
      rw [List.count_cons_self,Nat.add_comm (acts.count _),← Nat.add_assoc]
      exact ⟨hr,stepTimerExpired_safe.trans hs⟩
    | acClass controlClass allowed =>
      have h1 : Ramping n k (bts.cfgBtsRachAcClass controlClass allowed) := ⟨h.1,h.2,h.3⟩
      obtain ⟨hr,hs⟩ := ih h1 hu.2
      rw [List.count_cons_of_ne (by simp)]
      exact ⟨hr,(AnnouncesSafely.of_eq rfl).trans hs⟩

theorem Ramping.done (h : Ramping n k bts) (hk : 10 ≤ k*n) : bts.RampDone := by
  have hnil : bts.accRamp.barredClasses = [] := by
    have hb := h.barred
    exact List.length_eq_zero_iff.mp (by omega)
  refine ⟨fun acc hacc _ => ?_,?_⟩
  · have hmem := @mem_barredClasses bts.accRamp acc
    rw [hnil] at hmem
    simpa [hacc] using hmem
  · have ht := h.timer
    rw [hnil] at ht
    simpa using ht

theorem rampSteps_mul (hn : 1 ≤ n) (hk : rampSteps n ≤ k) : 10 ≤ k*n := by
  have hd := Nat.div_add_mod (accRampStepSizeMax+n-1) n
  have hm := Nat.mod_lt (accRampStepSizeMax+n-1) (show 0 < n by omega)
  have hle : rampSteps n*n ≤ k*n := Nat.mul_le_mul_right n hk
  have hc : rampSteps n*n = n*((accRampStepSizeMax+n-1)/n) := by rw [rampSteps,Nat.mul_comm]
  have hmax : accRampStepSizeMax = 10 := rfl
  omega

theorem accRampAbort_keeps : Keeps { bts with accRamp := { bts.accRamp with stepTimer := none } }
    bts.accRampAbort := foldl_keeps (.inl rfl) _ _

/-- The state in which `acc_ramp_trigger` makes the first step of an enabled ramp. -/
def Bts.rampStart (bts : Bts) : Bts := bts.accRampAbort.barrAllAccs

theorem rampStart_keeps : Keeps { bts with accRamp := { bts.accRamp with stepTimer := none } }
    bts.rampStart := accRampAbort_keeps.trans (foldl_keeps (.inr rfl) _ _)

theorem accRampTrigger_enabled (h : bts.accRamp.accRampingEnabled = true) :
    bts.accRampTrigger = bts.rampStart.doAccRampingStep := by
  rw [Bts.accRampTrigger,accRampAbort_keeps.enabled,if_pos h,Bts.rampStart]

end Runs

/-- A ramp, once triggered, ends after as many steps as its step size asks for, if no
step meets a class that is permanently barred. -/
theorem ramp_progress (bts : Bts) (acts : List Act) (henabled : bts.accRamp.accRampingEnabled = true)
    (hmin : accRampStepSizeMin ≤ bts.accRamp.stepSize)
    (hstart : bts.rampStart.Unhindered) (hrun : bts.accRampTrigger.RunsUnhindered acts)
    (hsteps : rampSteps bts.accRamp.stepSize ≤ 1+acts.count .timer) :
    (bts.accRampTrigger.run acts).RampDone ∧ AnnouncesSafely bts (bts.accRampTrigger.run acts) := by
  have hk := @rampStart_keeps bts
  have htrig := accRampTrigger_enabled henabled
  have hfirst : Ramping bts.accRamp.stepSize (0+1) bts.accRampTrigger := by
    rw [htrig]
    exact .of_step hstart hk.stepTimer hk.stepSize (by simpa [accRampStepSizeMax] using barredClasses_length _)
  obtain ⟨hr,hs⟩ := hfirst.run acts hrun
  refine ⟨hr.done (rampSteps_mul hmin hsteps),AnnouncesSafely.trans ?_ hs⟩
  rw [htrig]
  exact (AnnouncesSafely.of_eq hk.announced).trans doAccRampingStep_safe

section Decide

instance (bts : Bts) : Decidable bts.Unhindered :=
  inferInstanceAs (Decidable (∀ acc ∈ bts.accRamp.barredClasses.take bts.accRamp.stepSize,
    bts.accIsPermanentlyBarred acc = false))

instance decidableRunsUnhindered : (bts : Bts) → (acts : List Act) → Decidable (bts.RunsUnhindered acts)
  | _, [] => isTrue trivial
  | bts, a :: acts =>
    have := decidableRunsUnhindered (bts.act a) acts
    inferInstanceAs (Decidable ((a = .timer → bts.Unhindered) ∧ (bts.act a).RunsUnhindered acts))

instance (bts : Bts) : Decidable bts.RampDone :=
  inferInstanceAs (Decidable ((∀ acc < 10, bts.accIsPermanentlyBarred acc = false →
    bts.accRamp.barredAccs.getLsbD acc = false) ∧ bts.accRamp.stepTimer = none))

end Decide

set_option maxRecDepth 20000 in
/-- Class 5 is permanently barred all the time, class 0 once the ramp has allowed it. -/
theorem ramp_progress_three :
    let bts : Bts := { rachControl := ⟨0,0x20⟩, accRamp := { accRampingEnabled := true, stepSize := 3 } }
    let acts : List Act := [.timer,.acClass 0 false,.timer,.timer]
    (bts.accRampTrigger.run acts).RampDone ∧ AnnouncesSafely bts (bts.accRampTrigger.run acts) :=
  ramp_progress _ _ (by decide) (by decide) (by decide) (by decide) (by decide)

set_option maxRecDepth 20000 in
/-- Class 1 is permanently barred while the ramp bars it still: the ramp stops there,
and bars the classes from 2 on. -/
theorem ramp_stalls : ¬ ∀ (bts : Bts) (acts : List Act), bts.accRamp.accRampingEnabled = true →
    accRampStepSizeMin ≤ bts.accRamp.stepSize → bts.accRamp.stepSize ≤ accRampStepSizeMax →
    rampSteps bts.accRamp.stepSize ≤ 1+acts.count .timer →
    (bts.accRampTrigger.run acts).RampDone ∧ AnnouncesSafely bts (bts.accRampTrigger.run acts) := by
  intro h
  have hd := (h { accRamp := { accRampingEnabled := true } } (.acClass 1 false :: List.replicate 9 .timer)
    (by decide) (by decide) (by decide) (by decide)).1
  revert hd
  decide

end OsmoBsc.Acc
