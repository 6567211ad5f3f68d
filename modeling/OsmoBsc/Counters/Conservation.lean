import OsmoBsc.Counters.Model
import Mathlib.Algebra.BigOperators.Group.Finset.Basic
import Mathlib.Algebra.Order.Group.Int
import Mathlib.Algebra.Ring.Nat
import Mathlib.Algebra.Ring.Int.Defs
set_option autoImplicit false

namespace OsmoBsc.Counters
open EventFsm
open Chan (AssignmentState AssignmentEvent HoState HoEvent HoScope HoResult ConnState LchanId
  ChannelModeAndRate assignmentFsm hoFsm gsconFsm checkRequiresVoiceStream)

inductive Family where
  | assignment
  | handover
  | interBscHoIn
  | interBscHoOut
  deriving DecidableEq, Repr

def Family.attempted : Family → BscCtr
  | .assignment => .assignmentAttempted
  | .handover => .handoverAttempted
  | .interBscHoIn => .interBscHoInAttempted
  | .interBscHoOut => .interBscHoOutAttempted

def Family.results : Family → List BscCtr
  | .assignment => [.assignmentCompleted,.assignmentStopped,.assignmentNoChannel,.assignmentTimeout,
    .assignmentFailed,.assignmentError]
  | .handover => [.handoverCompleted,.handoverStopped,.handoverNoChannel,.handoverTimeout,
    .handoverFailed,.handoverError]
  | .interBscHoIn => [.interBscHoInCompleted,.interBscHoInStopped,.interBscHoInNoChannel,
    .interBscHoInTimeout,.interBscHoInFailed,.interBscHoInError]
  | .interBscHoOut => [.interBscHoOutCompleted,.interBscHoOutStopped,.interBscHoOutTimeout,
    .interBscHoOutError]

/-- The family in which `result_counter` counts a handover. -/
def family : HoScope → Family
  | .intraCell => .assignment
  | .noHandover | .intraBsc => .handover
  | .interBscOut => .interBscHoOut
  | .interBscIn => .interBscHoIn

def Conn.assigning (k : Conn) (f : Family) : Nat :=
  if k.assignmentFi.isSome ∧ f = .assignment then 1 else 0

def Conn.handingOver (k : Conn) (f : Family) : Nat :=
  if k.hoFi.isSome ∧ f = family k.hoScope then 1 else 0

def Conn.inProgress (k : Conn) (f : Family) : Nat := k.assigning f + k.handingOver f

def Net.inProgress (n : Net) (f : Family) : Nat := ∑ c ∈ n.live, (n.conn c).inProgress f

def Conserved (n : Net) : Prop :=
  ∀ f : Family, n.ctr f.attempted = (f.results.map n.ctr).sum + n.inProgress f

/-- What `assignment_success` comes to after the new lchan is established. -/
def Conn.lastStepFails (k : Conn) (x : Env) : Bool :=
  if k.assignmentRequiresVoiceStream && k.aoip then x.fail else x.completeFail

/-- The event makes an assignment end otherwise than in `assignment_success`. -/
def Conn.endsAssignment (k : Conn) (x : Env) : Event → Bool
  | .assignmentStart req => k.fi == .active && k.lchan.isSome
    && (checkRequiresVoiceStream req.chModeRate == none || req.chModeRate.isEmpty || req.reuse
      || req.new.isNone)
  | .assignmentTimeout => k.assignmentFi.isSome
  | .lchanReleasing l => k.assignmentFi.isSome && k.assignmentNewLchan == some l
  | .assignment ev => match k.assignmentFi, ev with
    | none, _ => false
    | some _, .connReleasing => true
    | some _, .lchanError l => k.assignmentNewLchan == some l
    | some .waitLchanActive, .lchanActive l => k.assignmentNewLchan == some l && x.fail
    | some .waitRrAssComplete, .rrAssignmentFail => true
    | some .waitRrAssComplete, .rrAssignmentComplete => x.established && k.lastStepFails x
    | some .waitLchanEstablished, .lchanEstablished _ => k.lastStepFails x
    | some .waitMgwEndpointToMsc, .mscMgwOk => k.aoip && x.fail || x.completeFail
    | some .waitMgwEndpointToMsc, .mscMgwFail => true
    | _, _ => false
  | _ => false

/-- The event counts an attempt or a result too much or too few: a handover to a known
cell has its attempt counted twice, or in two families, and the result of an assignment is
not counted when an earlier one of the same connection left `result_rate_ctr_done` set. -/
def Conn.miscounts (k : Conn) (x : Env) : Event → Bool
  | .handoverStart target => k.fi == .active && target != .unknown
  | e => k.resultRateCtrDone && k.endsAssignment x e

def Counts (n : Net) : Input → Prop
  | .connect .. => True
  | .nConnect c _ _ parses _ => c ∉ n.live → parses = true
  | .conn c x e => c ∈ n.live → (n.conn c).miscounts x e = false
  | .term c _ => c ∈ n.live → (n.conn c).assignmentFi = none

/-- What a counter says about a family: an attempt, a result, or nothing. -/
def Family.weight (f : Family) (ctr : BscCtr) : Int :=
  if ctr = f.attempted then 1 else if ctr ∈ f.results then -1 else 0

def Ctx.owed (s : Ctx) (f : Family) : Int := (s.ctrs.map f.weight).sum - s.conn.inProgress f

def Conn.Ok (k : Conn) : Prop :=
  k.hoFi.isSome = true → k.fi = .init ∨ k.fi = .handover ∨ k.fi = .clearing

structure Keeps (s s' : Ctx) : Prop where
  ok : s.conn.Ok → s'.conn.Ok
  owed : ∀ f, s'.owed f = s.owed f

section Owed

variable {s s' s'' : Ctx} {f : Family} {k : Conn}

theorem Conn.assigning_none (h : k.assignmentFi = none) : k.assigning f = 0 := by
  simp [Conn.assigning,h]

theorem Conn.assigning_some (h : k.assignmentFi.isSome = true) :
    k.assigning f = if f = .assignment then 1 else 0 := by
  simp [Conn.assigning,h]

theorem Conn.handingOver_none (h : k.hoFi = none) : k.handingOver f = 0 := by
  simp [Conn.handingOver,h]

theorem Conn.handingOver_some (h : k.hoFi.isSome = true) :
    k.handingOver f = if f = family k.hoScope then 1 else 0 := by
  simp [Conn.handingOver,h]

theorem Keeps.refl (s : Ctx) : Keeps s s := ⟨id,fun _ => rfl⟩

theorem Keeps.trans (h : Keeps s s') (h' : Keeps s' s'') : Keeps s s'' :=
  ⟨h'.ok ∘ h.ok,fun f => (h'.owed f).trans (h.owed f)⟩

theorem owed_inc (ctr : BscCtr) : (s.inc ctr).owed f = s.owed f + f.weight ctr := by
  simp only [Ctx.owed,Ctx.inc,List.map_cons,List.sum_cons]
  omega

theorem owed_upd {g : Conn → Conn} (h : ∀ k, (g k).inProgress f = k.inProgress f) :
    (s.upd g).owed f = s.owed f := by
  simp only [Ctx.owed,Ctx.upd,h]

theorem Keeps.upd {g : Conn → Conn} (hfi : ∀ k, (g k).fi = k.fi)
    (hho : ∀ k, (g k).hoFi.isSome = k.hoFi.isSome) (h : ∀ k f, (g k).inProgress f = k.inProgress f) :
    Keeps s (s.upd g) := by
  refine ⟨fun hok hsome => ?_,fun f => owed_upd fun k => h k f⟩
  have hk := hok ((hho s.conn).symm.trans hsome)
  rw [← hfi s.conn] at hk
  exact hk

theorem connStateChg_keeps {st : ConnState} (h : s.conn.hoFi = none ∨ st = .clearing ∨ st = .handover) :
    Keeps s (connStateChg st s) := by
  unfold connStateChg
  split
  · refine ⟨fun hok hsome => ?_,fun f => owed_upd fun k => rfl⟩
    rcases h with h | h | h
    · exact absurd hsome (by simp [Ctx.upd,h])
    · exact .inr (.inr h)
    · exact .inr (.inl h)
  · exact .refl s

theorem connStateChg_conn (st : ConnState) :
    (connStateChg st s).conn = { s.conn with fi := (connStateChg st s).conn.fi } := by
  unfold connStateChg
  split <;> rfl

end Owed

section Assignment

variable {s : Ctx} {x : Env} {f : Family}

theorem owed_countResult {ctr : BscCtr} (hctr : ctr ∈ Family.results .assignment)
    (hdone : s.conn.resultRateCtrDone = false) :
    (assignmentCountResult ctr s).owed f = s.owed f - if f = .assignment then 1 else 0 := by
  have hw : f.weight ctr = - if f = .assignment then 1 else 0 := by
    revert ctr
    cases f <;> decide
  unfold assignmentCountResult
  rw [hdone,if_neg (by decide)]
  refine (owed_upd fun _ => rfl).trans ?_
  rw [owed_inc,hw]
  omega

theorem countResult_conn (ctr : BscCtr) :
    (assignmentCountResult ctr s).conn = { s.conn with resultRateCtrDone := true } := by
  unfold assignmentCountResult
  split
  · rename_i h
    rw [← h]
  · rfl

theorem owed_assignmentTerm (hfi : s.conn.assignmentFi.isSome = true) :
    (assignmentTerm s).owed f = s.owed f + if f = .assignment then 1 else 0 := by
  have hchg : ∀ s' : Ctx, (if gsconFsm.inEvent s'.conn.fi .assignmentEnd then connStateChg .active s'
      else s').owed f = s'.owed f := by
    intro s'
    unfold connStateChg
    split
    · split
      · exact owed_upd fun _ => rfl
      · rfl
    · rfl
  unfold assignmentTerm
  dsimp only
  rw [hchg]
  have hreset : (assignmentReset s).owed f = s.owed f := owed_upd fun _ => rfl
  rw [← hreset]
  have hsome : (assignmentReset s).conn.assigning f = if f = .assignment then 1 else 0 :=
    Conn.assigning_some hfi
  simp only [Ctx.owed,Ctx.upd,Conn.inProgress,hsome]
  rw [Conn.assigning_none rfl]
  simp only [Conn.handingOver]
  by_cases hf : f = .assignment
  · rw [if_pos hf,if_pos hf]
    omega
  · rw [if_neg hf,if_neg hf]
    omega

theorem assignmentTerm_conn :
    (assignmentTerm s).conn.assignmentFi = none
    ∧ (assignmentTerm s).conn.resultRateCtrDone = false := by
  unfold assignmentTerm connStateChg
  dsimp only
  repeat' split
  all_goals exact ⟨rfl,rfl⟩

theorem assignmentTerm_ok (h : s.conn.Ok) : (assignmentTerm s).conn.Ok := by
  unfold assignmentTerm
  dsimp only
  have h1 : ((assignmentReset s).upd ({ · with assignmentFi := none })).conn.Ok := h
  generalize (assignmentReset s).upd ({ · with assignmentFi := none }) = s1 at h1 ⊢
  split
  · rename_i hin
    refine (connStateChg_keeps (.inl ?_)).ok h1
    cases hho : s1.conn.hoFi with
    | none => rfl
    | some st =>
      rcases h1 (by simp [hho]) with h2 | h2 | h2
      all_goals
        rw [h2] at hin
        cases hin
  · exact h1

theorem onAssignmentFailure_keeps {ctr : BscCtr} (hctr : ctr ∈ Family.results .assignment)
    (hdone : s.conn.resultRateCtrDone = false) (hfi : s.conn.assignmentFi.isSome = true) :
    Keeps s (onAssignmentFailure (assignmentCountResult ctr s)) := by
  have hfi' : (assignmentCountResult ctr s).conn.assignmentFi.isSome = true := by
    rw [countResult_conn]
    exact hfi
  rw [onAssignmentFailure,if_pos hfi']
  refine ⟨fun hok => assignmentTerm_ok ?_,fun f => ?_⟩
  · rw [countResult_conn]
    exact hok
  · rw [owed_assignmentTerm hfi',owed_countResult hctr hdone]
    omega

theorem assignmentFail_keeps (hdone : s.conn.resultRateCtrDone = false)
    (hfi : s.conn.assignmentFi.isSome = true) : Keeps s (assignmentFail s) :=
  onAssignmentFailure_keeps (by decide) hdone hfi

theorem assignmentFail_count {ctr : BscCtr} (hctr : ctr ∈ Family.results .assignment)
    (hdone : s.conn.resultRateCtrDone = false) (hfi : s.conn.assignmentFi.isSome = true) :
    Keeps s (assignmentFail (assignmentCountResult ctr s)) := by
  have hcount : assignmentCountResult .assignmentError (assignmentCountResult ctr s)
      = assignmentCountResult ctr s := by
    rw [assignmentCountResult,if_pos]
    rw [countResult_conn]
  rw [assignmentFail,hcount]
  exact onAssignmentFailure_keeps hctr hdone hfi

theorem assignmentFail_fi : (assignmentFail s).conn.assignmentFi = none := by
  unfold assignmentFail onAssignmentFailure
  split
  · exact assignmentTerm_conn.1
  · rename_i h
    simpa using h

theorem sendAssignmentComplete_keeps (hfi : s.conn.assignmentFi.isSome = true)
    (hdone : x.completeFail = true → s.conn.resultRateCtrDone = false) :
    Ensures (fun s' => Keeps s s' ∧ (s' = s ∨ s'.conn.assignmentFi = none))
      (sendAssignmentComplete x s) := by
  unfold sendAssignmentComplete
  split
  · exact ensures_error
  · refine ensures_ok.mpr ?_
    split
    · rename_i hfail
      exact ⟨assignmentFail_keeps (hdone hfail) hfi,.inr assignmentFail_fi⟩
    · exact ⟨.refl s,.inl rfl⟩

theorem assignmentTerm_completed (hfi : s.conn.assignmentFi.isSome = true) :
    Keeps s (assignmentCountResult .assignmentCompleted (assignmentTerm s)) := by
  refine ⟨fun hok => ?_,fun f => ?_⟩
  · rw [countResult_conn]
    exact assignmentTerm_ok hok
  · rw [owed_countResult (by decide) assignmentTerm_conn.2,owed_assignmentTerm hfi]
    omega

theorem assignmentSuccess_keeps (hfi : s.conn.assignmentFi.isSome = true)
    (hdone : x.completeFail = true → s.conn.resultRateCtrDone = false) :
    Ensures (Keeps s) (assignmentSuccess x s) := by
  unfold assignmentSuccess
  split
  · exact ensures_error
  · rename_i l _
    have h1 : Keeps s (s.upd ({ · with lchan := some l, assignmentNewLchan := none })) :=
      .upd (fun _ => rfl) (fun _ => rfl) fun _ _ => rfl
    refine Ensures.bind fun s2 hs2 => ?_
    obtain ⟨h2,hsame⟩ := sendAssignmentComplete_keeps (x := x)
      (s := s.upd ({ · with lchan := some l, assignmentNewLchan := none })) hfi hdone s2 hs2
    split
    · exact ensures_ok.mpr (h1.trans h2)
    · rename_i hnone
      rcases hsame with rfl | hsame
      · exact ensures_ok.mpr (h1.trans (assignmentTerm_completed hfi))
      · rw [hsame] at hnone
        cases hnone rfl

theorem assignmentFsmStart_keeps {req : AssignmentRequest}
    (hdone : s.conn.resultRateCtrDone = true → checkRequiresVoiceStream req.chModeRate ≠ none
      ∧ req.chModeRate ≠ [] ∧ req.reuse = false ∧ req.new ≠ none) :
    Ensures (Keeps s) (assignmentFsmStart x req s) := by
  unfold assignmentFsmStart
  split
  · exact ensures_error
  · rename_i hnone
    dsimp only
    have h1 : Keeps s ((s.inc .assignmentAttempted).upd ({ · with assignmentFi := some .waitLchanActive })) := by
      refine ⟨fun hk => hk,fun f => ?_⟩
      have hbefore : s.conn.assigning f = 0 := Conn.assigning_none (by
        simpa using (not_or.mp hnone).1)
      have hw : f.weight .assignmentAttempted = if f = .assignment then 1 else 0 := by
        cases f <;> rfl
      simp only [Ctx.owed,Ctx.upd,Ctx.inc,Conn.inProgress,hbefore,List.map_cons,List.sum_cons,hw]
      rw [Conn.assigning_some rfl]
      simp only [Conn.handingOver]
      split <;> omega
    have hfi1 : ((s.inc .assignmentAttempted).upd ({ · with
        assignmentFi := some .waitLchanActive })).conn.assignmentFi.isSome = true := rfl
    have hdone1 : ((s.inc .assignmentAttempted).upd ({ · with
        assignmentFi := some .waitLchanActive })).conn.resultRateCtrDone = s.conn.resultRateCtrDone := rfl
    generalize (s.inc .assignmentAttempted).upd ({ · with assignmentFi := some .waitLchanActive }) = s1
      at h1 hfi1 hdone1 ⊢
    have hfree : checkRequiresVoiceStream req.chModeRate = none ∨ req.chModeRate = [] ∨ req.reuse = true
        ∨ req.new = none → s1.conn.resultRateCtrDone = false := by
      intro h
      rw [hdone1]
      cases hd : s.conn.resultRateCtrDone with
      | false => rfl
      | true =>
        obtain ⟨hv,hm,hr,hn⟩ := hdone hd
        rcases h with h | h | h | h
        · exact absurd h hv
        · exact absurd h hm
        · rw [hr] at h
          cases h
        · exact absurd h hn
    split
    · rename_i hv
      exact ensures_ok.mpr (h1.trans (assignmentFail_keeps (hfree (.inl hv)) hfi1))
    · rename_i voice hv
      have h2 : Keeps s (s1.upd ({ · with assignmentRequiresVoiceStream := voice })) :=
        h1.trans (.upd (fun _ => rfl) (fun _ => rfl) fun _ _ => rfl)
      have hfi2 : (s1.upd ({ · with
        assignmentRequiresVoiceStream := voice })).conn.assignmentFi.isSome = true := hfi1
      have hfree2 : req.chModeRate = [] ∨ req.reuse = true ∨ req.new = none →
          (s1.upd ({ · with assignmentRequiresVoiceStream := voice })).conn.resultRateCtrDone = false :=
        fun h => hfree (.inr h)
      generalize s1.upd ({ · with assignmentRequiresVoiceStream := voice }) = s2 at h2 hfi2 hfree2 ⊢
      split
      · rename_i hreuse
        have hd := hfree2 (.inr (.inl hreuse.2.2))
        refine Ensures.bind fun s3 hs3 => ?_
        obtain ⟨h3,hsame⟩ := sendAssignmentComplete_keeps hfi2 (fun _ => hd) s3 hs3
        split
        · rename_i hfi3
          refine ensures_ok.mpr (h2.trans ?_)
          rcases hsame with rfl | hsame
          · have hk : Keeps _ (onAssignmentFailure (assignmentCountResult .assignmentCompleted _)) :=
              onAssignmentFailure_keeps (by decide) hd hfi2
            rw [onAssignmentFailure,countResult_conn,if_pos hfi2] at hk
            exact hk
          · rw [hsame] at hfi3
            cases hfi3
        · exact ensures_ok.mpr (h2.trans h3)
      · split
        · exact ensures_error
        · split
          · rename_i hnew
            have hd : s2.conn.resultRateCtrDone = false := by
              split at hnew
              · rename_i hm
                exact hfree2 (.inl hm)
              · exact hfree2 (.inr (.inr hnew))
            exact ensures_ok.mpr (h2.trans (assignmentFail_count (by decide) hd hfi2))
          · exact ensures_ok.mpr (h2.trans (.upd (fun _ => rfl) (fun _ => rfl) fun _ _ => rfl))

theorem assignmentState_keeps (hfi : s.conn.assignmentFi.isSome = true) (st : AssignmentState) :
    Keeps s (s.upd ({ · with assignmentFi := some st })) := by
  refine ⟨fun hok => hok,fun f => ?_⟩
  have h : (s.upd ({ · with assignmentFi := some st })).conn.assigning f = s.conn.assigning f := by
    rw [Conn.assigning_some rfl,Conn.assigning_some hfi]
  simp only [Ctx.owed,Conn.inProgress,h]
  rfl

theorem failIf_keeps {b : Bool} (hfi : s.conn.assignmentFi.isSome = true)
    (hdone : b = true → s.conn.resultRateCtrDone = false) :
    Keeps s (if b then assignmentFail s else s) := by
  split
  · rename_i hb
    exact assignmentFail_keeps (hdone hb) hfi
  · exact .refl s

theorem assignmentPostLchanEstablished_keeps (hfi : s.conn.assignmentFi.isSome = true)
    (hdone : s.conn.lastStepFails x = true → s.conn.resultRateCtrDone = false) :
    Ensures (Keeps s) (assignmentPostLchanEstablished x s) := by
  unfold assignmentPostLchanEstablished assignmentWaitMgwEndpointToMsc
  unfold Conn.lastStepFails at hdone
  split
  · rename_i hvoice
    dsimp only
    have h1 := assignmentState_keeps hfi .waitMgwEndpointToMsc
    split
    · rename_i haoip
      have ha : s.conn.aoip = false := by simpa [Ctx.upd] using haoip
      rw [hvoice,ha] at hdone
      refine Ensures.mono (assignmentSuccess_keeps rfl ?_) fun s' h => h1.trans h
      exact hdone
    · rename_i haoip
      have ha : s.conn.aoip = true := by simpa [Ctx.upd] using haoip
      rw [hvoice,ha] at hdone
      split
      · exact ensures_error
      · exact ensures_ok.mpr (h1.trans (failIf_keeps rfl hdone))
  · rename_i hvoice
    rw [Bool.not_eq_true] at hvoice
    rw [hvoice] at hdone
    exact assignmentSuccess_keeps hfi hdone

theorem assignmentDispatch_keeps {ev : AssignmentEvent}
    (hdone : s.conn.endsAssignment x (.assignment ev) = true → s.conn.resultRateCtrDone = false) :
    Ensures (Keeps s) (assignmentDispatch x ev s) := by
  unfold assignmentDispatch
  unfold Conn.endsAssignment at hdone
  split
  · exact ensures_ok.mpr (.refl s)
  · rename_i st hst
    have hfi : s.conn.assignmentFi.isSome = true := by
      rw [hst]
      rfl
    rw [hst] at hdone
    split
    · refine ensures_ok.mpr ?_
      unfold assignmentAllstate
      split
      · have h : Keeps s (onAssignmentFailure (assignmentCountResult .assignmentStopped s)) :=
          onAssignmentFailure_keeps (by decide) (hdone rfl) hfi
        rw [onAssignmentFailure,countResult_conn,if_pos hfi] at h
        exact h
      · split
        · exact .refl s
        · rename_i hl
          rw [not_not] at hl
          exact assignmentFail_keeps (hdone (by simp [hl])) hfi
      · exact .refl s
    · unfold assignmentAction
      split
      · split
        · exact ensures_ok.mpr (.refl s)
        · rename_i hl
          rw [not_not] at hl
          dsimp only
          split
          · exact ensures_error
          · refine ensures_ok.mpr ((assignmentState_keeps hfi .waitRrAssComplete).trans (failIf_keeps rfl ?_))
            intro hf
            exact hdone (by simp [hl,hf])
      · dsimp only
        have h1 := assignmentState_keeps hfi .waitLchanEstablished
        split
        · exact ensures_error
        · split
          · rename_i hest
            refine (assignmentPostLchanEstablished_keeps rfl fun hf => ?_).mono fun s' h => h1.trans h
            refine hdone ?_
            dsimp only
            rw [hest]
            exact hf
          · exact ensures_ok.mpr h1
      · exact ensures_ok.mpr (.refl s)
      · exact ensures_ok.mpr (assignmentFail_count (by decide) (hdone rfl) hfi)
      · exact assignmentPostLchanEstablished_keeps hfi hdone
      · dsimp only at hdone
        split
        · rename_i hf
          exact ensures_ok.mpr (assignmentFail_keeps (hdone (by simp [hf])) hfi)
        · exact assignmentSuccess_keeps hfi fun hf => hdone (by simp [hf])
      · exact ensures_ok.mpr (assignmentFail_keeps (hdone rfl) hfi)
      · exact ensures_error
    · exact ensures_ok.mpr (.refl s)

theorem assignmentTimeout_keeps
    (hdone : s.conn.assignmentFi.isSome = true → s.conn.resultRateCtrDone = false) :
    Keeps s (assignmentTimeout s) := by
  unfold assignmentTimeout
  split
  · rename_i hfi
    exact assignmentFail_count (by decide) (hdone hfi) hfi
  · exact .refl s

end Assignment

section Handover

variable {s : Ctx} {x : Env} {f : Family}

theorem weight_resultCounter (scope : HoScope) (result : HoResult) :
    f.weight (resultCounter scope result) = - if f = family scope then 1 else 0 := by
  cases f <;> cases scope <;> cases result <;> rfl

theorem connStateChg_ctrs (st : ConnState) :
    (connStateChg st s).ctrs = s.ctrs ∧ (connStateChg st s).conn.assignmentFi = s.conn.assignmentFi := by
  unfold connStateChg
  split
  · exact ⟨rfl,rfl⟩
  · exact ⟨rfl,rfl⟩

theorem gsconHandoverEnd_ctrs (result : HoResult) :
    (gsconHandoverEnd result s).ctrs = s.ctrs
    ∧ (gsconHandoverEnd result s).conn.assignmentFi = s.conn.assignmentFi := by
  unfold gsconHandoverEnd
  repeat' split
  · exact connStateChg_ctrs .active
  · exact connStateChg_ctrs .clearing
  · exact connStateChg_ctrs .active
  · exact ⟨rfl,rfl⟩

theorem takeNewLchan_ctrs (result : HoResult) :
    (takeNewLchan result s).ctrs = s.ctrs
    ∧ (takeNewLchan result s).conn.assignmentFi = s.conn.assignmentFi := by
  unfold takeNewLchan
  split
  · exact ⟨rfl,rfl⟩
  · exact ⟨rfl,rfl⟩

theorem handoverEnd_keeps (result : HoResult) : Ensures (Keeps s) (handoverEnd x result s) := by
  unfold handoverEnd
  dsimp only
  split
  · exact ensures_error
  · rename_i hho
    have hho : s.conn.hoFi.isSome = true := by
      cases h : s.conn.hoFi with
      | none => exact absurd (by rw [h]; rfl) hho
      | some st => rfl
    split
    · exact ensures_error
    · generalize handoverEndResult x s.conn result = r
      obtain ⟨hctrs,hfi⟩ := takeNewLchan_ctrs (s := s.inc (resultCounter s.conn.hoScope r)) r
      obtain ⟨hctrs',hfi'⟩ := gsconHandoverEnd_ctrs
        (s := takeNewLchan r (s.inc (resultCounter s.conn.hoScope r))) r
      rw [hctrs] at hctrs'
      rw [hfi] at hfi'
      generalize gsconHandoverEnd r (takeNewLchan r (s.inc (resultCounter s.conn.hoScope r))) = s1
        at hctrs' hfi'
      refine ensures_ok.mpr ⟨fun _ hsome => absurd hsome (by simp [Ctx.upd]),fun f => ?_⟩
      have hbefore := Conn.handingOver_some (f := f) hho
      have hw := weight_resultCounter (f := f) s.conn.hoScope r
      simp only [Ctx.owed,Ctx.upd,Conn.inProgress,hctrs',hbefore]
      rw [Conn.handingOver_none rfl]
      simp only [Conn.assigning,hfi',Ctx.inc,List.map_cons,List.sum_cons,hw]
      by_cases hf : f = family s.conn.hoScope
      · rw [if_pos hf,if_pos hf]
        omega
      · rw [if_neg hf,if_neg hf]
        omega

theorem hoState_keeps (hfi : s.conn.hoFi.isSome = true) (st : HoState) :
    Keeps s (s.upd ({ · with hoFi := some st })) := by
  refine ⟨fun hok _ => hok hfi,fun f => ?_⟩
  have h : (s.upd ({ · with hoFi := some st })).conn.handingOver f = s.conn.handingOver f := by
    rw [Conn.handingOver_some rfl,Conn.handingOver_some hfi]
    rfl
  simp only [Ctx.owed,Conn.inProgress,h]
  rfl

theorem hoWaitRrHoDetect_keeps (hfi : s.conn.hoFi.isSome = true) :
    Ensures (Keeps s) (hoWaitRrHoDetect x s) := by
  unfold hoWaitRrHoDetect
  dsimp only
  have h1 := hoState_keeps hfi .waitRrHoDetect
  split
  · exact ensures_error
  · split
    · exact (handoverEnd_keeps .error).mono fun s' h => h1.trans h
    · exact ensures_ok.mpr h1

theorem hoWaitLchanEstablished_keeps (hfi : s.conn.hoFi.isSome = true) :
    Ensures (Keeps s) (hoWaitLchanEstablished x s) := by
  unfold hoWaitLchanEstablished
  dsimp only
  have h1 := hoState_keeps hfi .waitLchanEstablished
  split
  · exact ensures_error
  · split
    · exact (handoverEnd_keeps .ok).mono fun s' h => h1.trans h
    · exact ensures_ok.mpr h1

theorem hoAction_keeps (voice : Bool) (st : HoState) (ev : HoEvent) (hfi : s.conn.hoFi.isSome = true) :
    Ensures (Keeps s) (hoAction x voice st ev s) := by
  unfold hoAction
  dsimp only
  split
  · split
    · exact ensures_error
    · split
      · have h1 := hoState_keeps hfi .waitMgwEndpointToMsc
        split
        · exact (handoverEnd_keeps .error).mono fun s' h => h1.trans h
        · exact ensures_ok.mpr h1
      · exact hoWaitRrHoDetect_keeps hfi
  · split
    · exact handoverEnd_keeps .error
    · exact hoWaitRrHoDetect_keeps hfi
  · exact handoverEnd_keeps .error
  · split
    · exact handoverEnd_keeps .error
    · split
      · exact ensures_error
      · exact ensures_ok.mpr (hoState_keeps hfi .waitRrHoComplete)
  · exact hoWaitLchanEstablished_keeps hfi
  · exact handoverEnd_keeps .failRrHoFail
  · exact ensures_ok.mpr (.refl s)
  · exact ensures_ok.mpr (.refl s)
  · exact hoWaitLchanEstablished_keeps hfi
  · exact handoverEnd_keeps .failRrHoFail
  · exact handoverEnd_keeps .ok
  · split
    · exact handoverEnd_keeps .error
    · exact ensures_ok.mpr (hoState_keeps hfi .outWaitClear)
  · exact handoverEnd_keeps .failRrHoFail
  · exact ensures_error

theorem hoDispatch_keeps (voice : Bool) (ev : HoEvent) : Ensures (Keeps s) (hoDispatch x voice ev s) := by
  unfold hoDispatch
  split
  · exact ensures_ok.mpr (.refl s)
  · rename_i st hst
    split
    · unfold hoAllstate
      split
      · exact handoverEnd_keeps .ok
      · exact handoverEnd_keeps .connRelease
      · exact ensures_ok.mpr (.refl s)
      · exact ensures_ok.mpr (.refl s)
      · exact handoverEnd_keeps .error
      · exact ensures_error
    · refine hoAction_keeps voice st ev ?_
      rw [hst]
      rfl
    · exact ensures_ok.mpr (.refl s)

theorem hoTimeout_keeps : Ensures (Keeps s) (hoTimeout x s) := by
  unfold hoTimeout
  split
  · exact ensures_ok.mpr (.refl s)
  · exact ensures_ok.mpr (.refl s)
  · exact handoverEnd_keeps .failTimeout

theorem handoverFsmAlloc_owed (hnone : s.conn.hoFi = none) (scope : HoScope) :
    ((handoverFsmAlloc s).upd ({ · with hoScope := scope })).owed f
      = s.owed f - if f = family scope then 1 else 0 := by
  have h1 := Conn.handingOver_none (f := f) hnone
  simp only [Ctx.owed,Conn.inProgress,h1]
  rw [Conn.handingOver_some rfl]
  change _ - ((s.conn.assigning f + if f = family scope then 1 else 0 : Nat) : Int) = _
  by_cases hf : f = family scope
  · rw [if_pos hf,if_pos hf]
    simp only [handoverFsmAlloc,Ctx.upd]
    omega
  · rw [if_neg hf,if_neg hf]
    simp only [handoverFsmAlloc,Ctx.upd]
    omega

theorem handoverEnd_conn (result : HoResult) :
    Ensures (fun s' => s'.conn.hoFi = none ∧ s'.conn.assignmentFi = s.conn.assignmentFi)
      (handoverEnd x result s) := by
  unfold handoverEnd
  dsimp only
  split
  · exact ensures_error
  · split
    · exact ensures_error
    · refine ensures_ok.mpr ⟨rfl,?_⟩
      exact (gsconHandoverEnd_ctrs _).2.trans (takeNewLchan_ctrs _).2

/-- A handover to a cell that nobody knows ends at once, in the family where its attempt
was counted. -/
theorem handoverStart_keeps (hok : s.conn.Ok) (hfi : s.conn.fi = .active) :
    Ensures (Keeps s)
      (handoverStart x .unknown (connStateChg .handover (s.inc .handoverAttempted))) := by
  have hnone : s.conn.hoFi = none := by
    cases h : s.conn.hoFi with
    | none => rfl
    | some st => rcases hok (by simp [h]) with h1 | h1 | h1 <;> rw [hfi] at h1 <;> cases h1
  have h1 : Keeps (s.inc .handoverAttempted) (connStateChg .handover (s.inc .handoverAttempted)) :=
    connStateChg_keeps (.inr (.inr rfl))
  have hnone1 : (connStateChg .handover (s.inc .handoverAttempted)).conn.hoFi = none := by
    rw [connStateChg_conn]
    exact hnone
  have hst : (connStateChg .handover (s.inc .handoverAttempted)).conn.fi = .handover := by
    simp [connStateChg,Ctx.inc,Ctx.upd,hfi,gsconFsm]
  generalize connStateChg .handover (s.inc .handoverAttempted) = s1 at h1 hnone1 hst ⊢
  unfold handoverStart
  rw [hnone1,if_neg (by simp)]
  dsimp only
  refine Ensures.mono (handoverEnd_keeps .failNoChannel) fun s' h => .trans ⟨fun _ _ => ?_,fun f => ?_⟩ h
  · exact .inr (.inl hst)
  · have halloc := handoverFsmAlloc_owed (f := f) hnone1 .noHandover
    have hw : f.weight .handoverAttempted = if f = .handover then 1 else 0 := by
      cases f <;> rfl
    have howed := h1.owed f
    rw [owed_inc,hw] at howed
    change (handoverFsmAlloc s1).owed f = _ at halloc
    rw [halloc,howed,family]
    omega

theorem handoverStartInterBscIn_keeps (new : Option LchanId) (hfi : s.conn.fi = .init) :
    Ensures (Keeps s) (handoverStartInterBscIn x true new s) := by
  unfold handoverStartInterBscIn
  split
  · exact ensures_error
  · rename_i hnone
    have hnone : s.conn.hoFi = none := by simpa using hnone
    dsimp only
    rw [if_neg (by decide)]
    have h1 : Keeps s (((handoverFsmAlloc s).upd ({ · with hoScope := .interBscIn })).inc
        .interBscHoInAttempted) := by
      refine ⟨fun _ _ => .inl hfi,fun f => ?_⟩
      have hw : f.weight .interBscHoInAttempted = if f = .interBscHoIn then 1 else 0 := by
        cases f <;> rfl
      rw [owed_inc,handoverFsmAlloc_owed hnone .interBscIn,hw,family]
      omega
    have hfi1 : (((handoverFsmAlloc s).upd ({ · with hoScope := .interBscIn })).inc
        .interBscHoInAttempted).conn.hoFi.isSome = true := rfl
    generalize ((handoverFsmAlloc s).upd ({ · with hoScope := .interBscIn })).inc
        .interBscHoInAttempted = s1 at h1 hfi1 ⊢
    split
    · exact (handoverEnd_keeps .error).mono fun s' h => h1.trans h
    · rename_i l
      have h2 : Keeps s1 (s1.upd ({ · with hoNewLchan := some l, hoFi := some .waitLchanActive })) := by
        refine (hoState_keeps hfi1 .waitLchanActive).trans ?_
        exact ⟨fun h => h,fun f => rfl⟩
      split
      · exact (handoverEnd_keeps .error).mono fun s' h => (h1.trans h2).trans h
      · exact ensures_ok.mpr (h1.trans h2)

end Handover

section Connection

variable {s : Ctx} {x : Env} {f : Family}

theorem gsconReleaseLchans_keeps :
    Ensures (fun s' => Keeps s s' ∧ s'.conn.hoFi = none ∧ s'.conn.assignmentFi = s.conn.assignmentFi)
      (gsconReleaseLchans x s) := by
  refine Ensures.bind fun s1 hs1 => ensures_ok.mpr ?_
  have h1 : Keeps s s1 ∧ s1.conn.hoFi = none ∧ s1.conn.assignmentFi = s.conn.assignmentFi := by
    split at hs1
    · exact ⟨handoverEnd_keeps .connRelease s1 hs1,handoverEnd_conn .connRelease s1 hs1⟩
    · rename_i hho
      cases hs1
      exact ⟨.refl s,by simpa using hho,rfl⟩
  refine ⟨h1.1.trans ?_,h1.2⟩
  exact ⟨fun h => h,fun f => rfl⟩

theorem gsconLchanReleasing_keeps {l : LchanId}
    (hdone : s.conn.endsAssignment x (.lchanReleasing l) = true → s.conn.resultRateCtrDone = false) :
    Ensures (Keeps s) (gsconLchanReleasing x l s) := by
  refine Ensures.bind fun s1 hs1 => Ensures.bind fun s2 hs2 => ensures_ok.mpr ?_
  have h1 : Keeps s s1 := by
    split at hs1
    · obtain ⟨s0,hs0,hs1⟩ := bind_eq_ok.mp hs1
      cases hs1
      refine (assignmentDispatch_keeps (fun he => hdone ?_) s0 hs0).trans ?_
      · unfold Conn.endsAssignment at he ⊢
        cases hfi : s.conn.assignmentFi with
        | none => simp [hfi] at he
        | some st => simpa [hfi] using he
      · exact .upd (fun _ => rfl) (fun _ => rfl) fun _ _ => rfl
    · cases hs1
      exact .refl s
  have h2 : Keeps s1 s2 := by
    split at hs2
    · exact hoDispatch_keeps false _ s2 hs2
    · cases hs2
      exact .refl s1
  refine (h1.trans h2).trans ?_
  have h3 : Keeps s2 (if s2.conn.lchan = some l then s2.upd ({ · with lchan := none }) else s2) := by
    split
    · exact .upd (fun _ => rfl) (fun _ => rfl) fun _ _ => rfl
    · exact .refl s2
  generalize (if s2.conn.lchan = some l then s2.upd ({ · with lchan := none }) else s2) = s3 at h3 ⊢
  refine h3.trans ?_
  split
  · exact connStateChg_keeps (.inr (.inl rfl))
  · exact .refl s3

theorem handle_keeps {e : Event} (hok : s.conn.Ok) (he : s.conn.miscounts x e = false) :
    Ensures (Keeps s) (handle x e s) := by
  have hdone : (∀ target, e ≠ .handoverStart target) → s.conn.endsAssignment x e = true →
      s.conn.resultRateCtrDone = false := by
    intro hne hend
    unfold Conn.miscounts at he
    split at he
    · exact absurd rfl (hne _)
    · simpa [hend] using he
  unfold handle
  split
  · refine ensures_ok.mpr ?_
    split
    · rename_i hin
      refine connStateChg_keeps (.inl ?_)
      cases hho : s.conn.hoFi with
      | none => rfl
      | some st =>
        rcases hok (by simp [hho]) with h1 | h1 | h1
        all_goals
          rw [h1] at hin
          cases hin
    · exact .refl s
  · rename_i req
    split
    · rename_i hin
      have hfi : s.conn.fi = .active := by
        cases hfi : s.conn.fi <;> rw [hfi] at hin <;> first | rfl | cases hin.1
      have hho : s.conn.hoFi = none := by
        cases hho : s.conn.hoFi with
        | none => rfl
        | some st => rcases hok (by simp [hho]) with h1 | h1 | h1 <;> rw [hfi] at h1 <;> cases h1
      refine Ensures.mono (assignmentFsmStart_keeps fun hd => ?_) fun s' h =>
        (connStateChg_keeps (.inl hho)).trans h
      rw [connStateChg_conn] at hd
      have hno : s.conn.endsAssignment x (.assignmentStart req) = false := by
        cases h : s.conn.endsAssignment x (.assignmentStart req) with
        | false => rfl
        | true => exact absurd ((hdone (by simp) h).symm.trans hd) (by simp)
      simp only [Conn.endsAssignment,hfi,hin.2] at hno
      simp only [BEq.rfl,Bool.and_self,Bool.true_and,Bool.or_eq_false_iff,beq_eq_false_iff_ne,
        List.isEmpty_eq_false_iff,Option.isNone_eq_false_iff] at hno
      exact ⟨hno.1.1.1,hno.1.1.2,hno.1.2,Option.isSome_iff_ne_none.mp hno.2⟩
    · exact ensures_ok.mpr (.refl s)
  · rename_i target
    split
    · rename_i hin
      have hfi : s.conn.fi = .active := by
        cases hfi : s.conn.fi <;> rw [hfi] at hin <;> first | rfl | cases hin
      have ht : target = .unknown := by simpa [Conn.miscounts,hfi] using he
      rw [ht]
      exact handoverStart_keeps hok hfi
    · exact ensures_ok.mpr (.refl s)
  · exact assignmentDispatch_keeps (hdone (by simp))
  · exact ensures_ok.mpr (assignmentTimeout_keeps (hdone (by simp)))
  · exact hoDispatch_keeps _ _
  · exact hoTimeout_keeps
  · split
    · exact handoverEnd_keeps .error
    · exact ensures_ok.mpr (.refl s)
  · exact gsconLchanReleasing_keeps (hdone (by simp))
  · exact ensures_ok.mpr (.upd (fun _ => rfl) (fun _ => rfl) fun _ _ => rfl)
  · refine Ensures.mono gsconReleaseLchans_keeps fun s' h => (connStateChg_keeps (.inr (.inl rfl))).trans h.1
  · exact Ensures.mono gsconReleaseLchans_keeps fun s' h => h.1

end Connection

section Runs

variable {n n' : Net} {c : ConnId} {s : Ctx} {f : Family}

theorem sum_weight (ctrs : List BscCtr) :
    (ctrs.map f.weight).sum = ctrs.count f.attempted - ((f.results.map ctrs.count).sum : Nat) := by
  induction ctrs with
  | nil => cases f <;> rfl
  | cons ctr ctrs ih =>
    have hone : f.weight ctr = (([ctr].count f.attempted : Nat) : Int)
        - ((f.results.map [ctr].count).sum : Nat) := by
      cases f <;> cases ctr <;> rfl
    have hcount : ∀ r, (ctr :: ctrs).count r = [ctr].count r + ctrs.count r := fun r => by
      rw [← List.count_append]
      rfl
    have hsum : (f.results.map (ctr :: ctrs).count).sum
        = (f.results.map [ctr].count).sum + (f.results.map ctrs.count).sum := by
      rw [← List.sum_map_add]
      congr 1
      exact List.map_congr_left fun r _ => hcount r
    rw [List.map_cons,List.sum_cons,ih,hone,hsum,hcount]
    omega

theorem inProgress_after {live : Finset ConnId} (hc : c ∈ live) :
    ({ n with live := live }.after c s).inProgress f
      = s.conn.inProgress f + ∑ c' ∈ live.erase c, (n.conn c').inProgress f := by
  unfold Net.inProgress Net.after
  dsimp only
  rw [← Finset.add_sum_erase _ _ hc,Function.update_self]
  have h : ∀ c' ∈ live.erase c, (Function.update n.conn c s.conn c').inProgress f
      = (n.conn c').inProgress f := by
    intro c' hc'
    rw [Function.update_of_ne (Finset.ne_of_mem_erase hc')]
  rw [Finset.sum_congr rfl h]

structure NetOk (n : Net) : Prop where
  conn : ∀ c, (n.conn c).Ok
  conserved : Conserved n

/-- A connection, which may be a new one, handles an event whose counts belong together. -/
theorem NetOk.after {live : Finset ConnId} {k : Conn} (h : NetOk n) (hc : c ∈ live) (hk : k.Ok)
    (hs : Keeps ⟨k,[]⟩ s)
    (hlive : ∀ f, n.inProgress f = k.inProgress f + ∑ c' ∈ live.erase c, (n.conn c').inProgress f) :
    NetOk ({ n with live := live }.after c s) := by
  refine ⟨fun c' => ?_,fun f => ?_⟩
  · rcases eq_or_ne c' c with rfl | hne
    · have hok := hs.ok hk
      simpa [Net.after] using hok
    · have hok := h.conn c'
      simpa [Net.after,hne] using hok
  · have hcons := h.conserved f
    have howed := hs.owed f
    have hsum := sum_weight (f := f) s.ctrs
    have hprog := inProgress_after (n := n) (f := f) (s := s) hc
    have hbefore := hlive f
    simp only [Ctx.owed,List.map_nil,List.sum_nil,hsum] at howed
    have hres : (f.results.map ({ n with live := live }.after c s).ctr).sum
        = (f.results.map n.ctr).sum + (f.results.map s.ctrs.count).sum := by
      rw [← List.sum_map_add]
      rfl
    rw [hres,hprog]
    change n.ctr f.attempted + s.ctrs.count f.attempted = _
    omega

theorem NetOk.conn_after (h : NetOk n) (hc : c ∈ n.live) (hs : Keeps ⟨n.conn c,[]⟩ s) :
    NetOk (n.after c s) := by
  have hlive : NetOk ({ n with live := n.live }.after c s) :=
    h.after hc (h.conn c) hs fun f => (Finset.add_sum_erase _ _ hc).symm
  exact hlive

theorem NetOk.new_after {k : Conn} (h : NetOk n) (hc : c ∉ n.live) (hk : k.Ok) (hs : Keeps ⟨k,[]⟩ s)
    (hidle : ∀ f, k.inProgress f = 0) : NetOk ({ n with live := insert c n.live }.after c s) := by
  refine h.after (Finset.mem_insert_self c n.live) hk hs fun f => ?_
  rw [hidle f,Nat.zero_add,Finset.erase_insert hc]
  rfl

theorem NetOk.free (h : NetOk n) (hidle : ∀ f, (n.conn c).inProgress f = 0) :
    NetOk { n with live := n.live.erase c } := by
  refine ⟨h.conn,fun f => ?_⟩
  have hcons := h.conserved f
  have hsum : n.inProgress f = ∑ c' ∈ n.live.erase c, (n.conn c').inProgress f := by
    by_cases hc : c ∈ n.live
    · have hadd := Finset.add_sum_erase n.live (fun c' => (n.conn c').inProgress f) hc
      rw [hidle f] at hadd
      rw [Net.inProgress,← hadd,Nat.zero_add]
    · rw [Finset.erase_eq_of_notMem hc]
      rfl
  rw [hcons,hsum]
  rfl

theorem idle_inProgress {k : Conn} (ha : k.assignmentFi = none) (hh : k.hoFi = none) (f : Family) :
    k.inProgress f = 0 := by
  rw [Conn.inProgress,Conn.assigning_none ha,Conn.handingOver_none hh]

theorem step_ok {i : Input} (h : NetOk n) (hi : Counts n i) (hstep : step n i = .ok n') : NetOk n' := by
  cases i with
  | connect c aoip l =>
    simp only [step] at hstep
    split at hstep
    · cases hstep
      exact h
    · rename_i hc
      cases hstep
      refine h.new_after hc (k := { aoip := aoip, lchan := some l }) (fun hsome => by cases hsome)
        (connStateChg_keeps (.inl rfl)) (idle_inProgress rfl rfl)
  | nConnect c aoip x parses new =>
    simp only [step] at hstep
    split at hstep
    · cases hstep
      exact h
    · rename_i hc
      obtain ⟨s,hs,hstep⟩ := bind_eq_ok.mp hstep
      cases hstep
      rw [hi hc] at hs
      exact h.new_after hc (fun hsome => by cases hsome) (handoverStartInterBscIn_keeps new rfl s hs)
        (idle_inProgress rfl rfl)
  | conn c x e =>
    simp only [step] at hstep
    split at hstep
    · rename_i hc
      obtain ⟨s,hs,hstep⟩ := bind_eq_ok.mp hstep
      cases hstep
      exact h.conn_after hc (handle_keeps (h.conn c) (hi hc) s hs)
    · cases hstep
      exact h
  | term c x =>
    simp only [step] at hstep
    split at hstep
    · rename_i hc
      obtain ⟨s,hs,hstep⟩ := bind_eq_ok.mp hstep
      cases hstep
      obtain ⟨hk,hho,ha⟩ := gsconReleaseLchans_keeps s hs
      refine (h.conn_after hc hk).free fun f => idle_inProgress ?_ ?_ f
      · simpa [Net.after] using ha.trans (hi hc)
      · simpa [Net.after] using hho
    · cases hstep
      exact h

/-- As long as no input is counted wrong, every attempt of every family is counted in
exactly one result or is still in progress. -/
theorem counters_conserved (h : Reach step Counts (· = ({} : Net)) n) : Conserved n := by
  have hok : NetOk n := by
    refine h.invariant ?_ fun n i n' hn hi hstep => step_ok hn hi hstep
    rintro n rfl
    refine ⟨fun c hsome => ?_,fun f => ?_⟩
    · cases hsome
    · cases f <;> rfl
  exact hok.conserved

def assigned (new : LchanId) : List Input :=
  [.conn 0 {} (.assignmentStart { chModeRate := [⟨.sign,.full⟩], reuse := false, new := some new }),
    .conn 0 {} (.assignment (.lchanActive new))]

def oneAssignment : List Input :=
  [Input.connect 0 true ⟨0,0⟩,.conn 0 {} .aConnCfm] ++ assigned ⟨1,0⟩
    ++ [Input.conn 0 { established := true } (.assignment .rrAssignmentComplete)]

/-- The second assignment of a connection runs out of time, which no counter tells: the
first one left `result_rate_ctr_done` set. -/
theorem counters_second_assignment :
    ∃ n, Reach step (fun _ _ => True) (· = ({} : Net)) n ∧ ¬ Conserved n
      ∧ n.ctr .assignmentAttempted = 2 ∧ n.ctr .assignmentCompleted = 1 ∧ n.ctr .assignmentTimeout = 0
      ∧ n.inProgress .assignment = 0 := by
  have hrun : ∃ n, run step {} (oneAssignment ++ assigned ⟨2,0⟩ ++ [Input.conn 0 {} .assignmentTimeout]) = .ok n
      ∧ n.ctr .assignmentAttempted = 2 ∧ n.ctr .assignmentCompleted = 1 ∧ n.ctr .assignmentTimeout = 0
      ∧ n.inProgress .assignment = 0 ∧ ((Family.results .assignment).map n.ctr).sum = 1 := by
    decide +kernel
  obtain ⟨n,hn,ha,hc,ht,hp,hr⟩ := hrun
  refine ⟨n,Reach.of_run (.start rfl) (.of_forall (fun _ _ => trivial) _ _) hn,fun h => ?_,ha,hc,ht,hp⟩
  have hf := h .assignment
  rw [hp,hr] at hf
  exact absurd (ha.symm.trans hf) (by decide)

instance Counts.decidable (n : Net) : (i : Input) → Decidable (Counts n i)
  | .connect .. => inferInstanceAs (Decidable True)
  | .nConnect c _ _ parses _ => inferInstanceAs (Decidable (c ∉ n.live → parses = true))
  | .conn c x e => inferInstanceAs (Decidable (c ∈ n.live → (n.conn c).miscounts x e = false))
  | .term c _ => inferInstanceAs (Decidable (c ∈ n.live → (n.conn c).assignmentFi = none))

theorem counters_conserved_assignment :
    ∃ n, Reach step Counts (· = ({} : Net)) n ∧ n.ctr .assignmentAttempted = 1
      ∧ n.ctr .assignmentCompleted = 1 ∧ Conserved n := by
  have hrun : ∃ n, run step {} oneAssignment = .ok n ∧ n.ctr .assignmentAttempted = 1
      ∧ n.ctr .assignmentCompleted = 1 := by
    decide +kernel
  obtain ⟨n,hn,ha,hc⟩ := hrun
  have hr : Reach step Counts (· = ({} : Net)) n := by
    refine Reach.of_run (.start rfl) ?_ hn
    decide +kernel
  exact ⟨n,hr,ha,hc,counters_conserved hr⟩

end Runs

end OsmoBsc.Counters
