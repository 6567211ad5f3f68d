import OsmoBsc.Lib.Timers
set_option autoImplicit false

/-! The reset procedure on the A interface. -/

namespace OsmoBsc.Msc
open Timers

def resetResendInterval : Nat := 2 * 1000000

def badConnectionThresold : Nat := 3

inductive ResetState where
  | disc
  | conn
  deriving DecidableEq, Repr

/-- The FSM with its timer and `struct reset_ctx`, and how many RESETs were sent. -/
structure ResetFsm where
  state : ResetState := .disc
  connLossCounter : Nat := 0
  clock : Clock Unit := {}
  sent : Nat := 0

/-- `enum reset_fsm_evt`, with the timer and the time. -/
inductive ResetInput where
  | resetAck
  | nDisconnect
  | nConnect
  | expire
  | elapse (us : Nat)
  deriving DecidableEq, Repr

/-- osmo_fsm_inst_state_chg(), with a timer in the disconnected state only. -/
def ResetFsm.stateChg (fi : ResetFsm) : ResetState → ResetFsm
  | .disc => { fi with state := .disc, clock := (fi.clock.del ()).schedule () resetResendInterval }
  | .conn => { fi with state := .conn, clock := fi.clock.del () }

def aResetAlloc (now : Nat) : ResetFsm := ({ clock := { now } } : ResetFsm).stateChg .disc

/-- fsm_disc_cb(), which is for EV_RESET_ACK only. -/
def ResetFsm.discCb (fi : ResetFsm) : ResetInput → ResetFsm
  | .resetAck => ({ fi with connLossCounter := 0 } : ResetFsm).stateChg .conn
  | _ => fi

/-- fsm_conn_cb(), which is for the two other events. -/
def ResetFsm.connCb (fi : ResetFsm) : ResetInput → ResetFsm
  | .nDisconnect =>
    if badConnectionThresold ≤ fi.connLossCounter then fi.stateChg .disc
    else { fi with connLossCounter := fi.connLossCounter + 1 }
  | .nConnect => { fi with connLossCounter := 0 }
  | _ => fi

def ResetFsm.resetAckTimeoutCb (fi : ResetFsm) : ResetFsm := ({ fi with sent := fi.sent + 1 } : ResetFsm).stateChg .disc

def ResetFsm.step (fi : ResetFsm) (i : ResetInput) : ResetFsm :=
  match i with
  | .elapse us => { fi with clock := fi.clock.elapse us }
  | .expire => if fi.clock.Expired () then { fi with clock := fi.clock.del () }.resetAckTimeoutCb else fi
  | .resetAck | .nDisconnect | .nConnect => match fi.state with
    | .disc => fi.discCb i
    | .conn => fi.connCb i

def ResetFsm.run (fi : ResetFsm) (is : List ResetInput) : ResetFsm := is.foldl ResetFsm.step fi

def ResetFsm.connReady (fi : ResetFsm) : Bool := fi.state = .conn

section Resend

variable {fi fi' : ResetFsm} {i : ResetInput}

structure ResetFsm.Timed (fi : ResetFsm) : Prop where
  prompt : fi.clock.Prompt
  disc : fi.state = .disc ↔ ∃ d, fi.clock.due () = some d
  due : ∀ d, fi.clock.due () = some d → d ≤ fi.clock.now + resetResendInterval

theorem ResetFsm.Timed.stateChg (h : fi.clock.Prompt) (st : ResetState) : (fi.stateChg st).Timed := by
  cases st with
  | disc =>
    refine ⟨h.del.schedule,iff_of_true rfl ⟨_,Clock.schedule_due⟩,fun d hd => ?_⟩
    rw [ResetFsm.stateChg,Clock.schedule_due] at hd
    cases hd
    exact Nat.le_refl _
  | conn =>
    refine ⟨h.del,iff_of_false nofun ?_,?_⟩
    all_goals
      rw [ResetFsm.stateChg,Clock.del_due]
      nofun

theorem ResetFsm.Timed.step (h : fi.Timed) (i : ResetInput) : (fi.step i).Timed := by
  cases i with
  | elapse us =>
    have hdue : (fi.clock.elapse us).due = fi.clock.due := Clock.elapse_due
    have hnow : fi.clock.now ≤ (fi.clock.elapse us).now := Clock.now_le_elapse
    refine ⟨h.prompt.elapse,hdue ▸ h.disc,fun d hd => ?_⟩
    have hle := h.due d (hdue ▸ hd)
    dsimp only [ResetFsm.step]
    omega
  | expire =>
    rw [ResetFsm.step]
    split
    · exact .stateChg h.prompt.del .disc
    · exact h
  | resetAck =>
    cases hst : fi.state with
    | disc =>
      simp only [ResetFsm.step,hst,ResetFsm.discCb]
      refine .stateChg ?_ .conn
      exact h.prompt
    | conn =>
      simp only [ResetFsm.step,hst]
      exact h
  | nDisconnect =>
    cases hst : fi.state with
    | disc =>
      simp only [ResetFsm.step,hst]
      exact h
    | conn =>
      simp only [ResetFsm.step,hst,ResetFsm.connCb]
      split
      · exact .stateChg h.prompt .disc
      · exact ⟨h.prompt,hst ▸ h.disc,h.due⟩
  | nConnect =>
    cases hst : fi.state with
    | disc =>
      simp only [ResetFsm.step,hst]
      exact h
    | conn =>
      simp only [ResetFsm.step,hst]
      exact ⟨h.prompt,hst ▸ h.disc,h.due⟩

theorem ResetFsm.Timed.run (h : fi.Timed) (is : List ResetInput) : (fi.run is).Timed := by
  induction is generalizing fi with
  | nil => exact h
  | cons i is ih => exact ih (h.step i)

theorem aResetAlloc_timed (now : Nat) : (aResetAlloc now).Timed  := by
  refine .stateChg (fun _ d hd => ?_) .disc
  cases hd

/-- The disconnected state, with the timer due `n` intervals after `d`, when that many RESETs more were sent. -/
def ResetFsm.Resends (d sent0 : Nat) (fi : ResetFsm) : Prop :=
  ∃ n, fi.state = .disc ∧ fi.sent = sent0 + n ∧ fi.clock.due () = some (d + n * resetResendInterval)
    ∧ (n ≠ 0 → d + (n - 1) * resetResendInterval ≤ fi.clock.now)

theorem ResetFsm.Resends.step {d sent0 : Nat} (h : fi.Resends d sent0) (ht : fi.Timed) (hi : i ≠ .resetAck) :
    (fi.step i).Resends d sent0 := by
  obtain ⟨n,hst,hsent,hdue,hnow⟩ := h
  cases i with
  | elapse us =>
    have hle : fi.clock.now ≤ (fi.clock.elapse us).now := Clock.now_le_elapse
    exact ⟨n,hst,hsent,by rw [← hdue,ResetFsm.step,Clock.elapse_due],fun hn => (hnow hn).trans hle⟩
  | expire =>
    rw [ResetFsm.step]
    split
    · rename_i hexp
      obtain ⟨d',hd',hle⟩ := hexp
      have hge := ht.prompt _ _ hd'
      rw [hdue] at hd'
      cases hd'
      have heq : fi.clock.now = d + n * resetResendInterval := Nat.le_antisymm hge hle
      refine ⟨n+1,rfl,?_,?_,fun _ => ?_⟩
      · rw [Nat.add_comm n 1,← Nat.add_assoc,Nat.add_right_comm,← hsent]
        rfl
      · rw [ResetFsm.resetAckTimeoutCb,ResetFsm.stateChg,Clock.schedule_due,Clock.del_now]
        dsimp only [Clock.del_now]
        rw [heq,Nat.succ_mul,Nat.add_assoc]
      · rw [Nat.add_sub_cancel,← heq]
        exact Nat.le_refl _
    · exact ⟨n,hst,hsent,hdue,hnow⟩
  | resetAck => exact absurd rfl hi
  | nDisconnect =>
    simp only [ResetFsm.step,hst]
    exact ⟨n,hst,hsent,hdue,hnow⟩
  | nConnect =>
    simp only [ResetFsm.step,hst]
    exact ⟨n,hst,hsent,hdue,hnow⟩

theorem ResetFsm.Resends.run {d sent0 : Nat} {is : List ResetInput} (h : fi.Resends d sent0) (ht : fi.Timed)
    (his : ResetInput.resetAck ∉ is) : (fi.run is).Resends d sent0 := by
  induction is generalizing fi with
  | nil => exact h
  | cons i is ih =>
    rw [List.mem_cons,not_or] at his
    exact ih (h.step ht fun heq => his.1 heq.symm) (ht.step i) his.2

end Resend

/-- While no RESET ACKNOWLEDGE comes a RESET is sent each two seconds. -/
theorem reset_resent (now : Nat) (pre is : List ResetInput) (hdisc : ((aResetAlloc now).run pre).connReady = false)
    (his : ResetInput.resetAck ∉ is) :
    let fi := (aResetAlloc now).run pre
    let fi' := fi.run is
    ∃ d n, fi.clock.now ≤ d ∧ d ≤ fi.clock.now + resetResendInterval ∧ fi'.connReady = false
      ∧ fi'.sent = fi.sent + n ∧ fi'.clock.now ≤ d + n * resetResendInterval
      ∧ (n ≠ 0 → d + (n - 1) * resetResendInterval ≤ fi'.clock.now) := by
  intro fi fi'
  have ht : fi.Timed := (aResetAlloc_timed now).run pre
  have hst : fi.state = .disc := by
    cases hst : fi.state with
    | disc => rfl
    | conn =>
      rw [ResetFsm.connReady,hst] at hdisc
      cases hdisc
  obtain ⟨d,hd⟩ := ht.disc.mp hst
  have hstart : fi.Resends d fi.sent := ⟨0,hst,rfl,by rw [Nat.zero_mul,Nat.add_zero,hd],fun h => absurd rfl h⟩
  obtain ⟨n,hst',hsent,hdue,hnow⟩ := hstart.run ht his
  refine ⟨d,n,ht.prompt _ _ hd,ht.due d hd,?_,hsent,(ht.run is).prompt _ _ hdue,hnow⟩
  rw [ResetFsm.connReady,hst']
  rfl

/-- Five seconds without an answer after the start. -/
theorem reset_resent_start :
    let fi := (aResetAlloc 0).run [.elapse 2000000,.expire,.elapse 2000000,.expire,.elapse 1000000]
    ∃ d n, d ≤ 2000000 ∧ fi.sent = n ∧ fi.clock.now ≤ d + n * resetResendInterval := by
  obtain ⟨d,n,-,hd,-,hsent,hnow,-⟩ := reset_resent 0 []
    [.elapse 2000000,.expire,.elapse 2000000,.expire,.elapse 1000000] (by decide) (by decide)
  exact ⟨d,n,hd,hsent.trans (Nat.zero_add n),hnow⟩

section Loss

/-- Four failures with no success between them at the start of a run, `c` of which came before. -/
def LossFirst (c : Nat) (is : List ResetInput) : Prop :=
  ∃ mid, mid <+: is ∧ ResetInput.nConnect ∉ mid ∧ 4 ≤ c + mid.count .nDisconnect

def Loss (is : List ResetInput) : Prop :=
  ∃ mid, mid <:+: is ∧ ResetInput.nConnect ∉ mid ∧ 4 ≤ mid.count .nDisconnect

variable {c c' : Nat} {is : List ResetInput} {i : ResetInput} {fi : ResetFsm}

theorem LossFirst.mono (h : LossFirst c is) (hc : c ≤ c') : LossFirst c' is := by
  obtain ⟨mid,hpre,hno,hcount⟩ := h
  exact ⟨mid,hpre,hno,by omega⟩

theorem lossFirst_cons (hc : c < 4) : LossFirst c (i :: is)
    ↔ i ≠ .nConnect ∧ LossFirst (if i = .nDisconnect then c + 1 else c) is := by
  constructor
  · rintro ⟨mid,hpre,hno,hcount⟩
    rcases List.prefix_cons_iff.mp hpre with rfl | ⟨rest,rfl,hrest⟩
    · rw [List.count_nil] at hcount
      omega
    · rw [List.mem_cons,not_or] at hno
      refine ⟨fun heq => hno.1 heq.symm,rest,hrest,hno.2,?_⟩
      rw [List.count_cons] at hcount
      by_cases hi : i = .nDisconnect <;> simp [hi] at hcount ⊢ <;> omega
  · rintro ⟨hi,mid,hpre,hno,hcount⟩
    refine ⟨i :: mid,List.prefix_cons_iff.mpr (.inr ⟨mid,rfl,hpre⟩),?_,?_⟩
    · rw [List.mem_cons,not_or]
      exact ⟨fun heq => hi heq.symm,hno⟩
    · rw [List.count_cons]
      by_cases hi : i = .nDisconnect <;> simp [hi] at hcount ⊢ <;> omega

theorem loss_cons : Loss (i :: is) ↔ LossFirst 0 (i :: is) ∨ Loss is := by
  simp only [Loss,LossFirst,List.infix_cons_iff,or_and_right,exists_or,Nat.zero_add]

theorem LossFirst.loss (h : LossFirst 0 is) : Loss is := by
  obtain ⟨mid,hpre,hno,hcount⟩ := h
  exact ⟨mid,hpre.isInfix,hno,by omega⟩

theorem disc_run (hst : fi.state = .disc) (his : ResetInput.resetAck ∉ is) : (fi.run is).state = .disc := by
  induction is generalizing fi with
  | nil => exact hst
  | cons i is ih =>
    rw [List.mem_cons,not_or] at his
    refine ih ?_ his.2
    cases i with
    | elapse us => exact hst
    | expire =>
      rw [ResetFsm.step]
      split
      · rfl
      · exact hst
    | resetAck => exact absurd rfl his.1
    | nDisconnect =>
      simp only [ResetFsm.step,hst]
      exact hst
    | nConnect =>
      simp only [ResetFsm.step,hst]
      exact hst

/-- A run that is in the disconnected state somewhere is so after the first event or later. -/
theorem exists_prefix_cons {p : ResetFsm → Prop} (hn : ¬ p fi) :
    (∃ mid, mid <+: i :: is ∧ p (fi.run mid)) ↔ ∃ mid, mid <+: is ∧ p ((fi.step i).run mid) := by
  constructor
  · rintro ⟨mid,hmid,hp⟩
    rcases List.prefix_cons_iff.mp hmid with rfl | ⟨rest,rfl,hrest⟩
    · exact absurd hp hn
    · exact ⟨rest,hrest,hp⟩
  · rintro ⟨rest,hrest,hp⟩
    exact ⟨i :: rest,List.prefix_cons_iff.mpr (.inr ⟨rest,rfl,hrest⟩),hp⟩

theorem conn_run (ht : fi.Timed) (hst : fi.state = .conn) (hc : fi.connLossCounter < 4) :
    (∃ mid, mid <+: is ∧ (fi.run mid).state = .disc) ↔ LossFirst fi.connLossCounter is ∨ Loss is := by
  induction is generalizing fi with
  | nil =>
    refine iff_of_false ?_ ?_
    · rintro ⟨mid,hmid,h⟩
      rw [List.prefix_nil.mp hmid,ResetFsm.run,List.foldl_nil,hst] at h
      cases h
    · rintro (⟨mid,hpre,-,hcount⟩ | ⟨mid,hpre,-,hcount⟩)
      · rw [List.prefix_nil.mp hpre,List.count_nil] at hcount
        omega
      · rw [List.infix_nil.mp hpre,List.count_nil] at hcount
        omega
  | cons i is ih =>
    have hn : ¬ fi.state = .disc := by
      rw [hst]
      exact ResetState.noConfusion
    rw [@exists_prefix_cons is i fi (fun fi => fi.state = .disc) hn,loss_cons,lossFirst_cons hc,
      lossFirst_cons (by decide)]
    have hnone : ¬ fi.clock.Expired () := by
      rintro ⟨d,hd,-⟩
      exact hn (ht.disc.mpr ⟨d,hd⟩)
    have hfirst : LossFirst fi.connLossCounter is ∨ LossFirst 0 is ∨ Loss is
        ↔ LossFirst fi.connLossCounter is ∨ Loss is := by
      rw [or_iff_right_of_imp LossFirst.loss]
    have ht' := ht.step i
    cases i with
    | elapse us =>
      simp only [ne_eq,reduceCtorEq,not_false_eq_true,true_and,if_false]
      rw [hfirst]
      exact ih ht' hst hc
    | expire =>
      simp only [ne_eq,reduceCtorEq,not_false_eq_true,true_and,if_false]
      rw [hfirst]
      rw [ResetFsm.step,if_neg hnone]
      exact ih ht hst hc
    | resetAck =>
      simp only [ne_eq,reduceCtorEq,not_false_eq_true,true_and,if_false]
      rw [hfirst]
      simp only [ResetFsm.step,hst,ResetFsm.connCb]
      exact ih ht hst hc
    | nDisconnect =>
      simp only [ne_eq,reduceCtorEq,not_false_eq_true,true_and,if_true,Nat.zero_add]
      simp only [ResetFsm.step,hst,ResetFsm.connCb] at ht' ⊢
      split
      · rename_i hlast
        refine iff_of_true ⟨[],List.nil_prefix,rfl⟩ (.inl ⟨[],List.nil_prefix,List.not_mem_nil,?_⟩)
        rw [badConnectionThresold] at hlast
        omega
      · rename_i hmore
        rw [if_neg hmore] at ht'
        rw [badConnectionThresold] at hmore
        rw [ih ht' rfl (by dsimp only; omega)]
        refine ⟨fun h => h.imp_right .inr,?_⟩
        rintro (h | h | h)
        · exact .inl h
        · exact .inl (h.mono (Nat.le_add_left 1 _))
        · exact .inr h
    | nConnect =>
      simp only [ResetFsm.step,hst,ResetFsm.connCb] at ht' ⊢
      rw [ih ht' rfl (Nat.zero_lt_succ 3),or_iff_right_of_imp LossFirst.loss]
      simp

theorem disc_run_iff (his : ResetInput.resetAck ∉ is) :
    (fi.run is).state = .disc ↔ ∃ mid, mid <+: is ∧ (fi.run mid).state = .disc := by
  constructor
  · exact fun h => ⟨is,List.prefix_rfl,h⟩
  · rintro ⟨mid,⟨rest,rfl⟩,h⟩
    have hrun : fi.run (mid ++ rest) = (fi.run mid).run rest := by
      rw [ResetFsm.run,List.foldl_append]
      rfl
    rw [hrun]
    exact disc_run h fun hmem => his (List.mem_append_right _ hmem)

theorem connReady_eq_false : fi.connReady = false ↔ fi.state = .disc := by
  rw [ResetFsm.connReady,decide_eq_false_iff_not]
  cases fi.state with
  | disc => simp
  | conn => simp

end Loss

/-- After the RESET ACKNOWLEDGE that ends the disconnected state an MSC is given up if and only if
four connections fail with no success between them, whatever else happens and however many
RESET ACKNOWLEDGEs more come; and it stays given up until one comes. -/
theorem msc_given_up (now : Nat) (pre is : List ResetInput)
    (hdisc : ((aResetAlloc now).run pre).connReady = false) :
    ((∃ mid, mid <+: is ∧ ((aResetAlloc now).run (pre ++ .resetAck :: mid)).connReady = false) ↔ Loss is) ∧
      (.resetAck ∉ is → (((aResetAlloc now).run (pre ++ .resetAck :: is)).connReady = false ↔ Loss is)) := by
  have ht : ((aResetAlloc now).run pre).Timed := (aResetAlloc_timed now).run pre
  have hrun : ∀ is, (aResetAlloc now).run (pre ++ .resetAck :: is)
      = (((aResetAlloc now).run pre).step .resetAck).run is := by
    intro is
    rw [ResetFsm.run,List.foldl_append]
    rfl
  simp only [hrun,connReady_eq_false] at hdisc ⊢
  generalize (aResetAlloc now).run pre = fi at hdisc ht
  have ht' := ht.step .resetAck
  simp only [ResetFsm.step,hdisc,ResetFsm.discCb] at ht' ⊢
  have hconn := @conn_run is _ ht' rfl (Nat.zero_lt_succ 3)
  have hloss : LossFirst 0 is ∨ Loss is ↔ Loss is := or_iff_right_of_imp LossFirst.loss
  exact ⟨hconn.trans hloss,fun his => (disc_run_iff his).trans (hconn.trans hloss)⟩

/-- Four failures, after a success and with a RESET ACKNOWLEDGE among them that is ignored. -/
theorem msc_given_up_four : ∃ mid, mid <+: [.nConnect,.nDisconnect,.nDisconnect,.resetAck,.nDisconnect,
    .nDisconnect,.nConnect] ∧ ((aResetAlloc 0).run ([.elapse 5] ++ .resetAck :: mid)).connReady = false :=
  (msc_given_up 0 [.elapse 5] _ (by decide)).1.mpr
    ⟨[.nDisconnect,.nDisconnect,.resetAck,.nDisconnect,.nDisconnect],⟨[.nConnect],[.nConnect],rfl⟩,
      by decide,by decide⟩

end OsmoBsc.Msc
