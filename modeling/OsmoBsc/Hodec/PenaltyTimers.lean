import Mathlib.Data.List.Basic
import Mathlib.Order.Lattice
import Mathlib.Algebra.Ring.Nat
set_option autoImplicit false

/-! The penalty timers of a connection: for each object the latest time at which a penalty ends. -/

namespace OsmoBsc.Hodec

variable {α : Type} [DecidableEq α]

/-- `struct penalty_timer`; the object is a pointer, which may be NULL. -/
structure PenaltyTimer (α : Type) where
  forObject : Option α
  timeout : Nat
  deriving DecidableEq, Repr

/-- `time_now`, the clock as an unsigned int. -/
def timeNow (clock : Nat) : Nat := clock % 2 ^ 32

/-- The loop of `penalty_timers_add`: the first timer of the object is raised, if there is one. -/
def raiseTimer (forObject : Option α) (deadline : Nat) : List (PenaltyTimer α) → Option (List (PenaltyTimer α))
  | [] => none
  | timer :: pt =>
    if timer.forObject ≠ forObject then (raiseTimer forObject deadline pt).map (timer :: ·)
    else some ({ timer with timeout := if timer.timeout < deadline then deadline else timer.timeout } :: pt)

def penaltyTimersAdd (clock : Nat) (forObject : Option α) (timeout : Int) (pt : List (PenaltyTimer α)) :
    List (PenaltyTimer α) :=
  if timeout ≤ 0 then pt
  else
    let deadline := (timeNow clock + timeout.toNat) % 2 ^ 32
    match raiseTimer forObject deadline pt with
    | some pt => pt
    | none => pt ++ [⟨forObject,deadline⟩]

/-- One turn of the loop of `penalty_timers_remaining`. -/
def maxRemaining (now : Nat) (forObject : Option α) (maxRem : Nat) (timer : PenaltyTimer α) : Nat :=
  if timer.forObject ≠ forObject then maxRem
  else if now ≥ timer.timeout then maxRem
  else if timer.timeout - now > maxRem then timer.timeout - now else maxRem

def penaltyTimersRemaining (clock : Nat) (forObject : Option α) (pt : List (PenaltyTimer α)) : Nat :=
  pt.foldl (maxRemaining (timeNow clock) forObject) 0

/-- `penalty_timers_clear`; NULL stands for all objects. -/
def penaltyTimersClear (forObject : Option α) (pt : List (PenaltyTimer α)) : List (PenaltyTimer α) :=
  pt.filter fun timer => decide (forObject ≠ none ∧ timer.forObject ≠ forObject)

inductive PenaltyOp (α : Type) where
  | add (forObject : Option α) (timeout : Int)
  | clear (forObject : Option α)
  deriving DecidableEq, Repr

abbrev PenaltyCall (α : Type) := Nat × PenaltyOp α

def penaltyStep (pt : List (PenaltyTimer α)) (call : PenaltyCall α) : List (PenaltyTimer α) :=
  match call.2 with
  | .add forObject timeout => penaltyTimersAdd call.1 forObject timeout pt
  | .clear forObject => penaltyTimersClear forObject pt

def penaltyRun (calls : List (PenaltyCall α)) : List (PenaltyTimer α) := calls.foldl penaltyStep []

def PenaltyOp.Concerns (o : Option α) : PenaltyOp α → Prop
  | .add forObject _ => forObject = o
  | .clear forObject => forObject = none ∨ forObject = o

def penaltyEnds (o : Option α) (ends : List Nat) (call : PenaltyCall α) : List Nat :=
  match call.2 with
  | .add forObject timeout =>
    if forObject = o ∧ 0 < timeout then ends ++ [call.1 + timeout.toNat] else ends
  | .clear forObject => if forObject = none ∨ forObject = o then [] else ends

/-- The time of add plus the timeout, of the adds for the object with positive timeout since the last
clear that covered it. -/
def endsSinceClear (o : Option α) (calls : List (PenaltyCall α)) : List Nat := calls.foldl (penaltyEnds o) []

def PenaltyCall.Fits (call : PenaltyCall α) : Prop :=
  match call.2 with
  | .add _ timeout => call.1 + timeout.toNat < 2 ^ 32
  | .clear _ => True

def timeouts (o : Option α) (pt : List (PenaltyTimer α)) : List Nat :=
  (pt.filter fun timer => decide (timer.forObject = o)).map (·.timeout)

section Timeouts

variable {o o' obj : Option α} {pt : List (PenaltyTimer α)} {t deadline clock : Nat}

theorem timeouts_cons_same (h : obj = o) : timeouts o (⟨obj,t⟩ :: pt) = t :: timeouts o pt := by
  have hkeep : decide ((PenaltyTimer.mk obj t).forObject = o) = true := decide_eq_true h
  simp only [timeouts,List.filter_cons,hkeep,if_true,List.map_cons]

theorem timeouts_cons_other (h : obj ≠ o) : timeouts o (⟨obj,t⟩ :: pt) = timeouts o pt := by
  have hdrop : decide ((PenaltyTimer.mk obj t).forObject = o) = false := decide_eq_false h
  simp only [timeouts,List.filter_cons,hdrop,Bool.false_eq_true,if_false]

theorem timeouts_append (pt' : List (PenaltyTimer α)) :
    timeouts o (pt ++ pt') = timeouts o pt ++ timeouts o pt' := by
  rw [timeouts,List.filter_append,List.map_append]
  rfl

theorem raiseTimer_timeouts (pt : List (PenaltyTimer α)) : match raiseTimer o' deadline pt with
    | none => timeouts o' pt = []
    | some pt' => (∃ t ts, timeouts o' pt = t :: ts ∧ timeouts o' pt' = max deadline t :: ts)
      ∧ ∀ o, o ≠ o' → timeouts o pt' = timeouts o pt := by
  induction pt with
  | nil => rfl
  | cons timer pt ih =>
    obtain ⟨obj,t⟩ := timer
    by_cases hobj : obj = o'
    · rw [raiseTimer,if_neg (not_not_intro hobj)]
      refine ⟨⟨t,timeouts o' pt,timeouts_cons_same hobj,?_⟩,fun o hne => ?_⟩
      · rw [timeouts_cons_same hobj]
        dsimp only
        congr 1
        split <;> omega
      · have hother : obj ≠ o := fun h => hne (h.symm.trans hobj)
        rw [timeouts_cons_other hother,timeouts_cons_other hother]
    · rw [raiseTimer,if_pos hobj]
      cases hraise : raiseTimer o' deadline pt with
      | none =>
        rw [hraise] at ih
        exact (timeouts_cons_other hobj).trans ih
      | some pt' =>
        rw [hraise] at ih
        obtain ⟨⟨t',ts,hold,hnew⟩,hsame⟩ := ih
        refine ⟨⟨t',ts,(timeouts_cons_other hobj).trans hold,(timeouts_cons_other hobj).trans hnew⟩,?_⟩
        intro o hne
        by_cases ho : obj = o
        · rw [timeouts_cons_same ho,timeouts_cons_same ho,hsame o hne]
        · rw [timeouts_cons_other ho,timeouts_cons_other ho,hsame o hne]

theorem timeouts_add_other {timeout : Int} (h : o ≠ o') :
    timeouts o (penaltyTimersAdd clock o' timeout pt) = timeouts o pt := by
  rw [penaltyTimersAdd]
  split
  · rfl
  have hraise := @raiseTimer_timeouts α _ o' ((timeNow clock + timeout.toNat) % 2 ^ 32) pt
  dsimp only
  split
  · next hsome =>
    rw [hsome] at hraise
    exact hraise.2 o h
  · rw [timeouts_append,timeouts_cons_other h.symm]
    exact List.append_nil _

theorem timeouts_add_same {timeout : Int} {latest : Option Nat} (hpos : 0 < timeout)
    (hfit : clock + timeout.toNat < 2 ^ 32) (h : timeouts o pt = latest.toList) :
    timeouts o (penaltyTimersAdd clock o timeout pt) =
      [latest.elim (clock + timeout.toNat) (max (clock + timeout.toNat))] := by
  have hend : (timeNow clock + timeout.toNat) % 2 ^ 32 = clock + timeout.toNat := by
    rw [timeNow]
    omega
  rw [penaltyTimersAdd,if_neg (by omega)]
  dsimp only
  rw [hend]
  have hraise := @raiseTimer_timeouts α _ o (clock + timeout.toNat) pt
  split
  · next hsome =>
    rw [hsome] at hraise
    obtain ⟨⟨t,ts,hold,hnew⟩,-⟩ := hraise
    cases latest with
    | none => cases hold.symm.trans h
    | some t' =>
      cases hold.symm.trans h
      exact hnew
  · next hnone =>
    rw [hnone] at hraise
    cases latest with
    | none =>
      rw [timeouts_append,hraise]
      exact timeouts_cons_same rfl
    | some t => cases hraise.symm.trans h

theorem timeouts_clear_same (h : o' = none ∨ o' = o) : timeouts o (penaltyTimersClear o' pt) = [] := by
  rw [timeouts,penaltyTimersClear,List.filter_filter,List.map_eq_nil_iff,List.filter_eq_nil_iff]
  intro timer _ hboth
  obtain ⟨ho,hkeep⟩ := (Bool.and_eq_true _ _).mp hboth
  obtain ⟨hnone,hne⟩ := of_decide_eq_true hkeep
  rcases h with h | h
  · exact hnone h
  · exact hne ((of_decide_eq_true ho).trans h.symm)

theorem timeouts_clear_other (h : ¬ (o' = none ∨ o' = o)) :
    timeouts o (penaltyTimersClear o' pt) = timeouts o pt := by
  rw [not_or] at h
  rw [timeouts,penaltyTimersClear,List.filter_filter,timeouts]
  congr 1
  apply List.filter_congr
  intro timer _
  by_cases ho : timer.forObject = o
  · have hne : timer.forObject ≠ o' := fun he => h.2 (he.symm.trans ho)
    simp only [ho,decide_true,Bool.true_and]
    rw [ho] at hne
    exact decide_eq_true ⟨h.1,hne⟩
  · simp only [ho,decide_false,Bool.false_and]

theorem foldl_maxRemaining (now maxRem : Nat) (pt : List (PenaltyTimer α)) :
    pt.foldl (maxRemaining now o) maxRem = (timeouts o pt).foldl (fun m t => max m (t - now)) maxRem := by
  induction pt generalizing maxRem with
  | nil => rfl
  | cons timer pt ih =>
    rw [List.foldl_cons,ih]
    obtain ⟨obj,t⟩ := timer
    by_cases ho : obj = o
    · rw [timeouts_cons_same ho,List.foldl_cons,maxRemaining,if_neg (not_not_intro ho)]
      dsimp only
      congr 1
      split
      · omega
      · split <;> omega
    · rw [timeouts_cons_other ho,maxRemaining,if_pos ho]

theorem remaining_eq {latest : Option Nat} (h : timeouts o pt = latest.toList) :
    penaltyTimersRemaining clock o pt = latest.getD 0 - timeNow clock := by
  rw [penaltyTimersRemaining,foldl_maxRemaining,h]
  cases latest with
  | none => exact (Nat.zero_sub _).symm
  | some t => exact Nat.zero_max _

end Timeouts

section Calls

variable {o : Option α} {pt : List (PenaltyTimer α)} {ends : List Nat}

theorem max?_concat (xs : List Nat) (x : Nat) : (xs ++ [x]).max? = some (xs.max?.elim x (max x)) := by
  induction xs with
  | nil => rfl
  | cons y xs ih =>
    rw [List.cons_append,List.max?_cons,ih,List.max?_cons]
    cases xs.max? with
    | none => exact congrArg some (max_comm y x)
    | some z => exact congrArg some (max_left_comm y x z)

theorem timeouts_step_other {call : PenaltyCall α} (h : ¬ call.2.Concerns o) :
    timeouts o (penaltyStep pt call) = timeouts o pt := by
  obtain ⟨clock,op⟩ := call
  cases op with
  | add forObject timeout => exact timeouts_add_other (Ne.symm h)
  | clear forObject => exact timeouts_clear_other h

theorem timeouts_step {call : PenaltyCall α} (hfit : call.Fits) (h : timeouts o pt = ends.max?.toList) :
    timeouts o (penaltyStep pt call) = (penaltyEnds o ends call).max?.toList := by
  obtain ⟨clock,op⟩ := call
  cases op with
  | add forObject timeout =>
    unfold penaltyStep penaltyEnds
    dsimp only
    by_cases hadd : forObject = o ∧ 0 < timeout
    · obtain ⟨rfl,hpos⟩ := hadd
      rw [if_pos ⟨rfl,hpos⟩,max?_concat]
      exact timeouts_add_same hpos hfit h
    · rw [if_neg hadd,← h]
      by_cases hobj : forObject = o
      · have hpos : timeout ≤ 0 := Int.not_lt.mp fun hpos => hadd ⟨hobj,hpos⟩
        rw [penaltyTimersAdd,if_pos hpos]
      · exact timeouts_add_other (Ne.symm hobj)
  | clear forObject =>
    unfold penaltyStep penaltyEnds
    dsimp only
    by_cases hclear : forObject = none ∨ forObject = o
    · rw [if_pos hclear]
      exact timeouts_clear_same hclear
    · rw [if_neg hclear,← h]
      exact timeouts_clear_other hclear

theorem timeouts_run (calls : List (PenaltyCall α)) (hfit : ∀ call ∈ calls, call.Fits)
    (h : timeouts o pt = ends.max?.toList) :
    timeouts o (calls.foldl penaltyStep pt) = (calls.foldl (penaltyEnds o) ends).max?.toList := by
  induction calls generalizing pt ends with
  | nil => exact h
  | cons call calls ih =>
    obtain ⟨hcall,hcalls⟩ := List.forall_mem_cons.mp hfit
    exact ih hcalls (timeouts_step hcall h)

end Calls

/-- The remaining time is the latest end minus now, and a call for another object does not change it. -/
theorem remaining_eq_latest (calls : List (PenaltyCall α)) (clock : Nat) (o : Option α)
    (hfit : ∀ call ∈ calls, call.Fits) (hclock : clock < 2 ^ 32) :
    penaltyTimersRemaining clock o (penaltyRun calls) = (endsSinceClear o calls).max?.getD 0 - clock
      ∧ ∀ call : PenaltyCall α, ¬ call.2.Concerns o →
        penaltyTimersRemaining clock o (penaltyStep (penaltyRun calls) call) =
          penaltyTimersRemaining clock o (penaltyRun calls) := by
  have hrun : timeouts o (penaltyRun calls) = (endsSinceClear o calls).max?.toList :=
    timeouts_run calls hfit rfl
  have hnow : timeNow clock = clock := Nat.mod_eq_of_lt hclock
  refine ⟨?_,fun call hother => ?_⟩
  · rw [remaining_eq hrun,hnow]
  · rw [remaining_eq hrun,remaining_eq ((timeouts_step_other hother).trans hrun)]

/-- The first penalty is over, the second one is shorter than the third. -/
theorem remaining_eq_latest_three :
    penaltyTimersRemaining 30 (some 1) (penaltyRun [(10,.add (some 1) 5),(20,.add (some 1) 15),(25,.add (some 1) 20)])
      = 15 :=
  (remaining_eq_latest [(10,.add (some 1) 5),(20,.add (some 1) 15),(25,.add (some 1) 20)] 30 (some 1)
    (by simp [PenaltyCall.Fits]) (by decide)).1

end OsmoBsc.Hodec
