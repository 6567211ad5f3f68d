import OsmoBsc.Chan.Moves
import OsmoBsc.Chan.Procedures
set_option autoImplicit false

namespace OsmoBsc.Chan
open EventFsm

def Call.asks : Call → Bool
  | .lchanActivate .. | .rslRxChanRqd .. => true
  | .lchanDispatch _ (.activate _) => true
  | .tsDispatch _ (.lchanRequested _) => true
  | _ => false

/-- The activation of an lchan goes on step by step, and nothing else waits then. The
type for which the lchan was chosen fits its timeslot. -/
inductive Asking (w : Bsc) : List Call → Prop where
  | idle {calls : List Call} : (∀ call ∈ calls, call.asks = false) → Asking w calls
  | rqd (l : LchanId) (type : ChanT) : lchanSelectable w type l = true →
      Asking w [.rslRxChanRqd l type]
  | activate (l : LchanId) (info : ActivateInfo) : Fits w l.ts (w.lchan l).type →
      Asking w [.lchanActivate l info]
  | dispatch (l : LchanId) (info : ActivateInfo) : Fits w l.ts (w.lchan l).type →
      Asking w [.lchanDispatch l (.activate info)]
  | requested (l : LchanId) : Fits w l.ts (w.lchan l).type →
      (w.lchan l).fi = some .waitTsReady →
      Asking w [.tsDispatch l.ts (.lchanRequested l),.lchanRtpFsmStart l]

section Lists

variable {cfg : TsId → TsCfg} {w w' : Bsc} {head : Call} {new rest : List Call} {x : Foreign}
  {t : TsId} {c : ConnId}

def Unasked (calls : List Call) : Prop := ∀ call ∈ calls, call.asks = false

@[simp] theorem unasked_nil : Unasked [] := by simp [Unasked]

@[simp] theorem unasked_cons {call : Call} {calls : List Call} :
    Unasked (call :: calls) ↔ call.asks = false ∧ Unasked calls := by
  simp [Unasked]

@[simp] theorem unasked_append {calls calls' : List Call} :
    Unasked (calls ++ calls') ↔ Unasked calls ∧ Unasked calls' := by
  simp [Unasked,or_imp,forall_and]

theorem Call.asks_activates {call : Call} (h : call.activates = false) : call.asks = false := by
  cases call with
  | tsDispatch t ev => cases ev <;> first | rfl | cases h
  | lchanDispatch l ev => cases ev <;> first | rfl | cases h
  | _ => first | rfl | cases h

theorem Call.activates_of_asks {call : Call} (ha : call.asks = false) (ho : call.opening = false) :
    call.activates = false := by
  cases call with
  | tsDispatch t ev => cases ev <;> first | rfl | exact absurd ha Bool.noConfusion
  | lchanDispatch l ev => cases ev <;> first | rfl | exact absurd ha Bool.noConfusion
  | connDispatch c ev => cases ev <;> first | rfl | exact absurd ho Bool.noConfusion
  | _ => first | rfl | exact absurd ha Bool.noConfusion | exact absurd ho Bool.noConfusion

theorem unasked_of_calm (h : new.all Call.calm = true) : Unasked new := fun call hcall =>
  Call.asks_activates (Call.calm_not_activates (List.all_eq_true.mp h call hcall))

def Call.fromTs : Call → Bool
  | .tsDispatch _ .rslReady | .tsStateChg .. | .tsErrorChg .. | .tsLchansDispatch .. => true
  | .tsInUseOnenter .. | .tsTerminateLchanFsms .. | .assertNotWaiting .. | .lchanStateChg .. => true
  | .lchanDispatch _ .tsReady | .lchanDispatch _ .tsError => true
  | _ => false

theorem unasked_of_fromTs (h : new.all Call.fromTs = true) : Unasked new := by
  intro call hcall
  have hfrom := List.all_eq_true.mp h call hcall
  cases call with
  | tsDispatch t ev => cases ev <;> first | rfl | cases hfrom
  | lchanDispatch l ev => cases ev <;> first | rfl | cases hfrom
  | _ => first | rfl | cases hfrom

@[simp] theorem tsFsmError_fromTs (st : TsState) : (tsFsmError t st).all Call.fromTs = true := rfl

@[simp] theorem tsLchanDispatch_fromTs (l : LchanId) :
    (tsLchanDispatch w l .tsError).all Call.fromTs = true := by
  unfold tsLchanDispatch
  split <;> rfl

theorem tsStateChg_fromTs {st : TsState} (he : tsStateChg cfg x t st w = .ok (w',new)) :
    new.all Call.fromTs = true := by
  unfold tsStateChg at he
  split at he
  · cases st with
    | unused =>
      simp only [tsOnenter,tsUnusedOnenter] at he
      repeat' split at he
      all_goals
        cases he
        try rfl
    | pdch =>
      simp only [tsOnenter,tsPdchOnenter] at he
      repeat' split at he
      all_goals
        cases he
        rfl
    | waitPdchAct | waitPdchDeact =>
      simp only [tsOnenter] at he
      cases he
      split <;> rfl
    | _ =>
      cases he
      rfl
  · cases he
    rfl

theorem tsDispatch_fromTs {ev : TsEvent} (he : tsDispatch cfg t ev w = .ok (w',new)) :
    new.all Call.fromTs = true := by
  unfold tsDispatch at he
  split at he
  · unfold tsFsmAllstate at he
    dsimp only at he
    repeat' split at he
    all_goals
      cases he
      try rfl
  · cases he
    rfl
  · split at he
    · unfold tsFsmNotInitialized at he
      dsimp only at he
      split at he
      all_goals
        cases he
        try split
        all_goals rfl
    all_goals
      simp only [tsFsmUnused,tsFsmWaitPdchAct,tsFsmPdch,tsFsmWaitPdchDeact,tsFsmInUse,
        tsFsmBorken] at he
      repeat' split at he
      all_goals
        cases he
        try split
        all_goals first | rfl | exact tsLchanDispatch_fromTs _

theorem tsInUseOnenter_fromTs {i : Nat} {type : ChanT}
    (he : tsInUseOnenter t i type w = .ok (w',new)) : new.all Call.fromTs = true := by
  unfold tsInUseOnenter at he
  dsimp only at he
  repeat' split at he
  all_goals
    cases he
    simp [Call.fromTs]

theorem exec_fromTs (hts : head.ofTs = true) (hend : head.ending = false) (hwf : head.wf = true)
    (he : exec cfg head x w = .ok (w',new)) : new.all Call.fromTs = true := by
  cases head with
  | tsDispatch t' ev => exact tsDispatch_fromTs he
  | tsTimeout t' =>
    simp only [exec,tsTimeout] at he
    split at he <;> cases he <;> rfl
  | tsStateChg t' st => exact tsStateChg_fromTs he
  | tsErrorChg t' st =>
    simp only [exec,tsErrorChg] at he
    split at he
    · exact tsStateChg_fromTs he
    · cases he
      rfl
  | tsLchansDispatch t' st ev i =>
    have hev : ev = .tsReady ∨ ev = .tsError := by
      simpa [Call.wf] using hwf
    obtain ⟨-,h⟩ := tsLchansDispatch_spec he
    rcases h with ⟨rfl,-⟩ | ⟨rfl,-⟩ | rfl
    · rfl
    · rfl
    · rcases hev with rfl | rfl <;> rfl
  | tsInUseOnenter t' i type => exact tsInUseOnenter_fromTs he
  | tsTerminateLchanFsms t' i => cases hend
  | _ => exact absurd hts Bool.noConfusion

/-- The calls of the timeslot FSM ask for nothing, unless they pass on that they were asked. -/
theorem exec_unasked_ts (hts : head.ofTs = true) (hwf : head.wf = true)
    (he : exec cfg head x w = .ok (w',new)) : Unasked new := by
  cases hend : head.ending with
  | false => exact unasked_of_fromTs (exec_fromTs hts hend hwf he)
  | true =>
    cases head with
    | tsTerminateLchanFsms t' i =>
      simp only [exec,tsTerminateLchanFsms] at he
      split at he <;> cases he <;> simp [Call.asks]
    | _ => first | exact absurd hts Bool.noConfusion | cases hend

theorem exec_unasked (hwf : head.wf = true) (hact : head.activates = false)
    (he : exec cfg head x w = .ok (w',new)) : Unasked new := by
  cases hts : head.ofTs with
  | true => exact exec_unasked_ts hts hwf he
  | false =>
    have hne : ∀ t ev, head ≠ .tsDispatch t ev := by
      rintro t ev rfl
      cases hts
    by_cases hcalm : head.calm = true
    · exact unasked_of_calm (exec_quiet cfg x w hcalm hne _ he).calls
    · cases head with
      | lchanTerm l =>
        cases he
        split <;> simp [Call.asks]
      | lchanCleanup l =>
        simp only [exec,lchanCleanup,bind_eq_ok] at he
        obtain ⟨r,hr,he⟩ := he
        cases he
        have := unasked_of_calm (lchanReset_quiet l w _ hr).calls
        simp [this,Call.asks]
      | lchanCleanupRest l =>
        cases he
        simp [Call.asks]
      | lchanStateChg l st =>
        have hst : st ≠ .waitTsReady := by
          rintro rfl
          cases hwf
        exact unasked_of_calm (lchanStateChg_quiet x l w hst _ he).calls
      | lchanFailChg l st => cases st <;> first | exact absurd rfl hcalm | cases hwf
      | connDispatch c ev => exact absurd (by simpa [Call.calm] using hact) hcalm
      | lchanDispatch l ev => exact absurd (by simpa [Call.calm] using hact) hcalm
      | _ =>
        first
        | exact absurd rfl hcalm
        | exact absurd hts Bool.noConfusion
        | exact absurd hact Bool.noConfusion

end Lists

section Choice

variable {cfg : TsId → TsCfg} {w w' w1 : Bsc} {head : Call} {new rest : List Call} {x : Foreign}
  {l : LchanId} {c : ConnId}

theorem lchanSelectable_fits {type : ChanT} (h : lchanSelectable w type l = true) :
    Fits w l.ts type := by
  unfold lchanSelectable at h
  dsimp only at h
  unfold Fits tsIsCapableOfLchant
  cases type <;> cases hp : (w.ts l.ts).pchanOnInit <;> simp [hp] at h ⊢

theorem Fits.congr {t : TsId} {type : ChanT} (h : Fits w t type) (hts : w'.ts = w.ts) :
    Fits w' t type := by
  unfold Fits at h ⊢
  rwa [hts]

theorem lchanSelectByType_fits {sel : Select} {type : ChanT}
    (h : lchanSelectByType sel type w = (some l,w')) : Fits w' l.ts (w'.lchan l).type := by
  unfold lchanSelectByType at h
  repeat' split at h
  · cases h
  · rename_i hs
    cases h
    rw [Bsc.updLchan_self]
    exact (lchanSelectable_fits hs).congr rfl
  · cases h

theorem lchanSelectByChanMode_fits {sel : Select} {m : ChannelModeAndRate}
    (h : lchanSelectByChanMode sel m w = (some l,w')) : Fits w' l.ts (w'.lchan l).type := by
  unfold lchanSelectByChanMode at h
  split at h
  · cases h
  · exact lchanSelectByType_fits h

theorem assignmentSelect_fits {sel : Select} {req : List ChannelModeAndRate} {w : Bsc}
    {m : ChannelModeAndRate} (h : assignmentSelect sel req w = (some (l,m),w')) :
    Fits w' l.ts (w'.lchan l).type := by
  induction req generalizing w with
  | nil => cases h
  | cons m' ms ih =>
    unfold assignmentSelect at h
    split at h
    · rename_i hm
      cases h
      exact lchanSelectByChanMode_fits hm
    · exact ih h

theorem Asking.updConn {f : Conn → Conn} {info : ActivateInfo}
    (h : Fits w l.ts (w.lchan l).type) : Asking (w.updConn c f) [.lchanActivate l info] :=
  .activate l info h

theorem onAssignmentFailure_unasked (k : Conn) : Unasked (onAssignmentFailure c k w).2 :=
  unasked_of_calm (onAssignmentFailure_beside c w k).calls

theorem assignmentStart_asking (sel : Select) (req : List ChannelModeAndRate) :
    Ensures (fun r => Asking r.1 r.2) (assignmentStart x c sel req w) := by
  refine Ensures.bind fun k _ => ?_
  split
  · exact ensures_error
  · extract_lets w1 k1
    split
    · exact ensures_ok.mpr (.idle (onAssignmentFailure_unasked k1))
    · split
      · exact ensures_ok.mpr (.idle (onAssignmentFailure_unasked k1))
      · exact ensures_error
    · extract_lets w2
      split
      · refine Ensures.bind fun r hr => ensures_ok.mpr (.idle ?_)
        have h := unasked_of_calm (sendAssignmentComplete_beside x c _ r hr).calls
        exact unasked_append.mpr ⟨h,by simp [Call.asks]⟩
      · split
        · exact ensures_ok.mpr (.idle (onAssignmentFailure_unasked k1))
        · rename_i h
          exact ensures_ok.mpr (.updConn (assignmentSelect_fits h))

theorem handoverStartReset_asking (newType : ChanT) (target : HoTarget) :
    Ensures (fun r => Asking r.1 r.2) (handoverStartReset x c newType target w) := by
  refine Ensures.bind fun k _ => ?_
  split
  · exact ensures_error
  · extract_lets w1 type w2
    have hend (w : Bsc) (result : HoResult) : Asking w [.handoverEnd c result] :=
      .idle (by simp [Call.asks])
    split
    · unfold handoverStartIntraBsc
      split
      · exact ensures_error
      · split
        · exact ensures_error
        · dsimp only
          split
          · exact ensures_ok.mpr (hend _ _)
          · rename_i h
            exact ensures_ok.mpr (.updConn (lchanSelectByType_fits h))
    · split
      · exact ensures_ok.mpr (hend _ _)
      · exact ensures_ok.mpr (.idle (by simp))
    · exact ensures_ok.mpr (hend _ _)

theorem handoverStartInterBscIn_asking (sel : Select) (req : Option ChannelModeAndRate) :
    Ensures (fun r => Asking r.1 r.2) (handoverStartInterBscIn x c sel req w) := by
  refine Ensures.bind fun k _ => ?_
  split
  · exact ensures_error
  · extract_lets w1
    have hend (w : Bsc) (result : HoResult) : Asking w [.handoverEnd c result] :=
      .idle (by simp [Call.asks])
    split
    · exact ensures_ok.mpr (hend _ _)
    · split
      · exact ensures_ok.mpr (hend _ _)
      · rename_i h
        dsimp only
        split
        · exact ensures_ok.mpr (hend _ _)
        · exact ensures_ok.mpr (.updConn (lchanSelectByChanMode_fits h))

/-- The calls that start something choose an lchan at most as the last thing they do. -/
theorem exec_asking_opening (ho : head.opening = true) (he : exec cfg head x w = .ok (w',new)) :
    Asking w' new := by
  cases head with
  | assignmentStart c sel req => exact assignmentStart_asking sel req _ he
  | handoverStartReset c newType target => exact handoverStartReset_asking newType target _ he
  | handoverStartInterBscIn c sel req => exact handoverStartInterBscIn_asking sel req _ he
  | handoverStart c newType target =>
    simp only [exec,handoverStart,bind_eq_ok] at he
    obtain ⟨k,-,he⟩ := he
    split at he
    · cases he
      exact .idle (by simp)
    · cases he
      refine .idle ?_
      split <;> simp [Call.asks]
  | sccpNConnect c aoip sel req =>
    simp only [exec,sccpNConnect] at he
    split at he <;> cases he <;> exact .idle (by simp [Call.asks])
  | bssmapHandleAssignmReq c sel req =>
    simp only [exec,bssmapHandleAssignmReq,bind_eq_ok] at he
    obtain ⟨k,-,r,-,he⟩ := he
    split at he <;> cases he <;> exact .idle (by simp [Call.asks])
  | gsm0408Rcvmsg l msg newConn aoip =>
    exact .idle (unasked_of_calm (gsm0408Rcvmsg_apart x l w msg newConn aoip _ he).calls)
  | connDispatch c ev =>
    refine .idle ?_
    simp only [exec,connDispatch,bind_eq_ok] at he
    obtain ⟨k,-,he⟩ := he
    split at he
    · exact unasked_of_calm (gsconFsmAllstate_apart c w k ev _ he).calls
    · cases he
      simp
    · split at he
      · unfold gsconFsmInit at he
        repeat' split at he
        all_goals
          cases he
          try simp [Call.asks]
      · cases he
        simp
      · unfold gsconFsmActive at he
        repeat' split at he
        all_goals
          cases he
          try simp [Call.asks]
      · exact unasked_of_calm (gsconFsmProcedure_apart c w k ev _ he).calls
      · exact unasked_of_calm (gsconFsmProcedure_apart c w k ev _ he).calls
      · cases he
        simp
  | _ => cases ho

theorem lchanActivate_asking {info : ActivateInfo} (hfits : Fits w l.ts (w.lchan l).type)
    (he : lchanActivate l info w = .ok (w',new)) : Asking w' new := by
  have habort {w' : Bsc} {new : List Call}
      (he : (.ok (w,[.lchanOnActivationFailure l info.activFor info.forConn]) : Outcome)
        = .ok (w',new)) : Asking w' new := by
    cases he
    exact .idle (by simp [Call.asks])
  have haccept {w' : Bsc} {new : List Call}
      (he : (.ok (w,[.lchanDispatch l (.activate info)]) : Outcome) = .ok (w',new)) :
      Asking w' new := by
    cases he
    exact .dispatch l info hfits
  unfold lchanActivate at he
  dsimp only at he
  split at he
  · exact habort he
  · split at he
    · cases he
    · split at he
      · exact habort he
      · simp only [bind_eq_ok] at he
        obtain ⟨k,-,he⟩ := he
        split at he
        · exact habort he
        · exact haccept he
      · exact habort he
      · simp only [bind_eq_ok] at he
        obtain ⟨k,-,he⟩ := he
        repeat' split at he
        · exact habort he
        · exact habort he
        · exact haccept he
      · exact haccept he

theorem lchanDispatch_asking {info : ActivateInfo} (hfits : Fits w l.ts (w.lchan l).type)
    (he : lchanDispatch x l (.activate info) w = .ok (w',new)) : Asking w' new := by
  have hturn := lchanDispatch_activate_turn info _ he
  have htype : (w'.lchan l).type = (w.lchan l).type := by
    rcases hturn.self with h | ⟨st,st',-,h,-⟩
    · exact congrArg Prod.snd h
    · exact congrArg Prod.snd h
  rcases lchanDispatch_activate info _ he with heq | ⟨hts,-,-,hfi,hcalls | ⟨w1,hcalls⟩⟩
  · cases heq
    exact .idle (by simp)
  · dsimp only at hts hfi hcalls
    rw [hcalls]
    refine .requested l ?_ hfi
    rw [htype]
    exact hfits.congr hts
  · dsimp only at hcalls
    rw [hcalls]
    exact .idle (by simp [lchanFailTo,Call.asks])

end Choice

section Run

variable {cfg : TsId → TsCfg} {good : Config → Move → Prop} {w w' : Bsc} {head : Call}
  {new rest : List Call} {x : Foreign} {c : Config}

theorem Asking.exec (h : Asking w (head :: rest)) (hwf : head.wf = true)
    (halone : head.opening = true → rest = []) (he : exec cfg head x w = .ok (w',new)) :
    Asking w' (new ++ rest) := by
  cases h with
  | idle h =>
    have hhead := h head (List.mem_cons_self ..)
    have hrest : Unasked rest := fun call hcall => h call (List.mem_cons_of_mem _ hcall)
    cases ho : head.opening with
    | true =>
      rw [halone ho,List.append_nil]
      exact exec_asking_opening ho he
    | false =>
      have hact := Call.activates_of_asks hhead ho
      exact .idle (unasked_append.mpr ⟨exec_unasked hwf hact he,hrest⟩)
  | rqd l type hs =>
    cases he
    refine .activate l _ ?_
    rw [Bsc.updLchan_self]
    exact (lchanSelectable_fits hs).congr rfl
  | activate l info hfits =>
    rw [List.append_nil]
    exact lchanActivate_asking hfits he
  | dispatch l info hfits =>
    rw [List.append_nil]
    exact lchanDispatch_asking hfits he
  | requested l hfits hfi =>
    refine .idle (unasked_append.mpr ⟨unasked_of_fromTs (tsDispatch_fromTs he),?_⟩)
    simp [Call.asks]

theorem asking_enter (i : Input) (w : Bsc) : Asking w (enter i w) := by
  cases i with
  | chanRqd sel =>
    simp only [enter]
    split
    · rename_i l type h
      unfold chanRqdSelect at h
      obtain ⟨type',-,htype⟩ := List.exists_of_findSome?_eq_some h
      split at htype
      · split at htype
        · rename_i hs
          cases htype
          exact .rqd l type hs
        · cases htype
      · cases htype
    · exact .idle (by simp)
  | estInd l linkId msg newConn aoip =>
    refine .idle ?_
    simp only [enter]
    repeat' split
    · exact List.forall_mem_nil _
    · exact List.forall_mem_nil _
    · exact List.forall_mem_singleton.mpr rfl
    · exact List.forall_mem_cons.mpr ⟨rfl,List.forall_mem_singleton.mpr rfl⟩
  | _ =>
    refine .idle ?_
    simp only [enter]
    repeat' split
    all_goals
      first
      | exact List.forall_mem_nil _
      | exact List.forall_mem_singleton.mpr rfl

theorem Reachable.asking (h : Reachable cfg good c) : Asking c.state c.calls := by
  refine h.induct (.idle (by simp)) (fun w i _ _ => asking_enter i w) ?_
  intro w call rest x w' new hr hw _ he
  exact hw.exec (hr.wakeup.wf _ (List.mem_cons_self ..)) hr.procedures.staged.1 he

end Run

end OsmoBsc.Chan
