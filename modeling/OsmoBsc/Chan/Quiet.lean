import OsmoBsc.Chan.Frame
set_option autoImplicit false

namespace OsmoBsc.Chan
open EventFsm

/-- A call that leaves timeslots alone, takes no lchan into LCHAN_ST_WAIT_TS_READY
and makes only calls that `ok` admits. -/
structure Quiet (ok : Call → Bool) (w : Bsc) (r : Bsc × List Call) : Prop where
  ts : r.1.ts = w.ts
  fi : ∀ l, (r.1.lchan l).fi = (w.lchan l).fi ∨
    (w.lchan l).fi.isSome ∧ ∃ st, (r.1.lchan l).fi = some st ∧ st ≠ .waitTsReady
  calls : r.2.all ok = true

/-- An lchan without what connections and the RLL layer change on the way. -/
@[reducible] def Lchan.life (lchan : Lchan) : Lchan :=
  { lchan.body with
    conn := none, sapis := fun _ => .unused, info := { lchan.body.info with forConn := none } }

/-- A call that leaves timeslots and the life of lchans alone and makes only calls
that `ok` admits. -/
structure Apart (ok : Call → Bool) (w : Bsc) (r : Bsc × List Call) : Prop where
  keeps : Keeps Lchan.life w r.1
  calls : r.2.all ok = true

theorem Clear.life {w w1 : Bsc} (h : Clear w w1) : Keeps Lchan.life w w1 := by
  refine ⟨h.ts,fun l => ?_⟩
  have := congrArg Lchan.life (h.lchan l)
  exact this

theorem Keeps.fi {w w1 : Bsc} (h : Keeps Lchan.life w w1) : Keeps Lchan.fi w w1 := by
  refine ⟨h.ts,fun l => ?_⟩
  have := congrArg Lchan.fi (h.lchan l)
  exact this

theorem Clear.fi {w w1 : Bsc} (h : Clear w w1) : Keeps Lchan.fi w w1 := (Clear.life h).fi

section Quiet

variable {ok : Call → Bool} {w w1 : Bsc} {r : Bsc × List Call}

theorem Quiet.of_keeps (h : Keeps Lchan.fi w r.1) (hc : r.2.all ok = true) : Quiet ok w r :=
  ⟨h.ts,fun l => .inl (h.lchan l),hc⟩

theorem Beside.apart (h : Beside ok w r) : Apart ok w r := ⟨Clear.life h.clear,h.calls⟩

theorem Picks.fi (h : Picks w w1) : Keeps Lchan.fi w w1 := by
  refine ⟨h.ts,fun l => ?_⟩
  have := congrArg Lchan.fi (h.aloof.lchan l)
  exact this

theorem Quiet.after (hw : Keeps Lchan.fi w w1) (h : Quiet ok w1 r) : Quiet ok w r := by
  refine ⟨h.ts.trans hw.ts,fun l => ?_,h.calls⟩
  rw [← hw.lchan l]
  exact h.fi l

theorem Apart.starting (h : Apart Call.calm w r) : Apart Call.starting w r := by
  refine ⟨h.keeps,List.all_eq_true.mpr fun call hcall => ?_⟩
  simp [Call.starting,List.all_eq_true.mp h.calls call hcall]

end Quiet

section Functions

variable (cfg : TsId → TsCfg) (x : Foreign) (l : LchanId) (c : ConnId) (w : Bsc)

theorem lchanForgetConn_keeps : Keeps Lchan.life w (lchanForgetConn l w) := by
  simp [lchanForgetConn]

theorem unlessNull_forgetConn_keeps (l : Option LchanId) :
    Keeps Lchan.life w (unlessNull lchanForgetConn l w) := by
  unfold unlessNull
  split
  · exact .refl w
  · exact lchanForgetConn_keeps _ w

theorem gsconForgetLchan_clear : Ensures (Clear w) (gsconForgetLchan c l w) := by
  refine Ensures.bind fun k _ => ?_
  dsimp only
  split <;> simp [gsconBssmapClear]

theorem lchanFailTo_calm {st : LchanState}
    (h : st ≠ .waitTsReady ∧ st ≠ .waitAfterError ∧ st ≠ .cbch) :
    (lchanFailTo w l st).all Call.calm = true := by
  cases st <;> first | rfl | exact absurd rfl h.1 | exact absurd rfl h.2.1 | exact absurd rfl h.2.2

theorem lchanFail_calm (st : LchanState) : (lchanFail w l st).all Call.calm = true := by
  refine lchanFailTo_calm l w ?_
  cases st <;> decide

theorem lchanReset_quiet : Ensures (Quiet Call.calm w) (lchanReset l w) := by
  unfold lchanReset
  dsimp only
  split
  · refine ensures_ok.mpr (.of_keeps (.refl w) ?_)
    split <;> rfl
  · refine Ensures.bind fun w1 h1 => ensures_ok.mpr (.of_keeps ?_ ?_)
    · exact Clear.fi (gsconForgetLchan_clear _ _ w _ h1)
    · split <;> rfl

theorem lchanOnFullyEstablished_quiet :
    Ensures (Quiet Call.calm w) (lchanOnFullyEstablished l w) := by
  unfold lchanOnFullyEstablished
  split
  · exact ensures_ok.mpr (.of_keeps (.refl w) rfl)
  · dsimp only
    split
    · exact ensures_ok.mpr (.of_keeps (by simp) rfl)
    · refine Ensures.bind fun k _ => ensures_ok.mpr (.of_keeps (by simp) ?_)
      split <;> rfl
    · exact ensures_ok.mpr (.of_keeps (by simp) rfl)
    · refine Ensures.bind fun k _ => ensures_ok.mpr (.of_keeps (by simp) ?_)
      split <;> rfl
    · exact ensures_ok.mpr (.of_keeps (by simp) rfl)

theorem lchanWaitActivAckOnenter_quiet :
    Ensures (Quiet Call.calm w) (lchanWaitActivAckOnenter x l w) := by
  unfold lchanWaitActivAckOnenter
  extract_lets activ
  have hactiv : Ensures (Quiet Call.calm w) activ := by
    dsimp only [activ]
    split
    · exact ensures_ok.mpr (.of_keeps (.refl w) rfl)
    · exact ensures_ok.mpr (.of_keeps (by simp) rfl)
  split
  · exact ensures_ok.mpr (.of_keeps (.refl w) rfl)
  · split
    · exact ensures_error
    · exact Ensures.bind fun k _ => hactiv
    · exact hactiv

theorem lchanWaitRfReleaseAckOnenter_quiet :
    Ensures (Quiet Call.calm w) (lchanWaitRfReleaseAckOnenter l w) := by
  unfold lchanWaitRfReleaseAckOnenter
  dsimp only
  split
  · exact ensures_ok.mpr (.of_keeps (by simp) rfl)
  · refine Ensures.bind fun w1 h1 => ensures_ok.mpr (.of_keeps ?_ rfl)
    have h := (Clear.fi (gsconForgetLchan_clear _ _ w _ h1)).trans (lchanForgetConn_keeps l w1).fi
    simpa using h

theorem lchanOnenter_quiet {st : LchanState} (hst : st ≠ .waitTsReady) :
    Ensures (Quiet Call.calm w) (lchanOnenter x l st w) := by
  unfold lchanOnenter
  split
  · refine Ensures.bind fun r hr => ensures_ok.mpr ?_
    have h := lchanReset_quiet l w r hr
    exact ⟨h.ts,h.fi,by simp [h.calls,Call.calm]⟩
  · exact ensures_ok.mpr (.of_keeps (.refl w) rfl)
  · exact absurd rfl hst
  · exact lchanWaitActivAckOnenter_quiet x l w
  · refine ensures_ok.mpr (.of_keeps (.refl w) ?_)
    split <;> rfl
  · unfold lchanEstablishedOnenter
    split
    · exact ensures_ok.mpr (.of_keeps (.refl w) (lchanFail_calm l w _))
    · exact lchanOnFullyEstablished_quiet l w
  · refine ensures_ok.mpr (.of_keeps ?_ ?_)
    · unfold lchanDoRelease
      dsimp only
      split <;> simp
    · unfold lchanDoRelease
      dsimp only
      split <;> rfl
  · exact ensures_ok.mpr (.of_keeps (.refl w) rfl)
  · exact lchanWaitRfReleaseAckOnenter_quiet l w
  · exact ensures_ok.mpr (.of_keeps (.refl w) rfl)
  · exact lchanReset_quiet l w

theorem lchanStateChg_quiet {st : LchanState} (hst : st ≠ .waitTsReady) :
    Ensures (Quiet Call.calm w) (lchanStateChg x l st w) := by
  unfold lchanStateChg
  split
  · exact ensures_error
  · rename_i st' hfi
    split
    · refine (lchanOnenter_quiet x l _ hst).mono fun r h => ⟨h.ts,fun l' => ?_,h.calls⟩
      rcases eq_or_ne l' l with rfl | hne
      · right
        refine ⟨by simp [hfi],?_⟩
        rcases h.fi l' with h | ⟨-,h⟩
        · exact ⟨st,by simpa using h,hst⟩
        · exact h
      · have := h.fi l'
        rwa [Bsc.updLchan_ne _ _ _ hne] at this
    · exact ensures_ok.mpr (.of_keeps (.refl w) rfl)

theorem lchanFailChg_quiet {st : LchanState} (hst : st ≠ .waitTsReady) :
    Ensures (Quiet Call.calm w) (lchanFailChg x l st w) := by
  unfold lchanFailChg
  split
  · exact ensures_ok.mpr (.of_keeps (.refl w) rfl)
  · exact lchanStateChg_quiet x l w hst

theorem lchanRtpGone_quiet {st : LchanState}
    (hst : st ≠ .waitTsReady ∧ st ≠ .waitAfterError ∧ st ≠ .cbch) :
    Ensures (Quiet Call.calm w) (lchanRtpGone l st w) := by
  refine ensures_ok.mpr (.of_keeps (.refl w) ?_)
  split
  · rfl
  · exact lchanFailTo_calm l w hst

theorem lchanFsmPostActivAck_quiet :
    Ensures (Quiet Call.calm w) (lchanFsmPostActivAck x l w) := by
  unfold lchanFsmPostActivAck
  extract_lets establish
  split
  · exact ensures_ok.mpr (.of_keeps (.refl w) rfl)
  · split
    · split
      · exact ensures_ok.mpr (.of_keeps (.refl w) rfl)
      · exact ensures_ok.mpr (.of_keeps (by simp) rfl)
    · exact ensures_ok.mpr (.of_keeps (.refl w) rfl)
    · refine Ensures.bind fun k _ => ensures_ok.mpr (.of_keeps (.refl w) ?_)
      split <;> rfl
    · exact ensures_ok.mpr (.of_keeps (.refl w) rfl)
    · refine Ensures.bind fun k _ => ensures_ok.mpr (.of_keeps (.refl w) ?_)
      split <;> rfl
    · exact ensures_ok.mpr (.of_keeps (.refl w) rfl)

theorem lchanFsmWaitActivAck_quiet (ev : LchanEvent) :
    Ensures (Quiet Call.calm w) (lchanFsmWaitActivAck x l ev w) := by
  unfold lchanFsmWaitActivAck
  split
  · exact (lchanFsmPostActivAck_quiet x l _).mono fun r => .after (by simp)
  · refine ensures_ok.mpr (.of_keeps (by simp) ?_)
    split <;> rfl
  · exact lchanRtpGone_quiet l w (by decide)
  · exact lchanRtpGone_quiet l w (by decide)
  · exact ensures_error

theorem handleRllRelIndOrConf_quiet (linkId : Fin 256) (rest : Call) (hrest : rest.calm = true) :
    Quiet Call.calm w ((handleRllRelIndOrConf l linkId w).1,
      (handleRllRelIndOrConf l linkId w).2 ++ [rest]) := by
  refine .of_keeps (by simp [handleRllRelIndOrConf]) ?_
  unfold handleRllRelIndOrConf
  dsimp only
  repeat' split
  · exact Bool.and_eq_true_iff.mpr ⟨rfl,by simp [hrest]⟩
  · simp [hrest]
  · simp [hrest]

theorem lchanFsmUnused_quiet {ev : LchanEvent} (hev : ∀ info, ev ≠ .activate info) :
    Ensures (Quiet Call.calm w) (lchanFsmUnused x l ev w) := by
  unfold lchanFsmUnused
  split
  · rename_i info
    exact absurd rfl (hev info)
  · exact ensures_error

theorem lchanFsmWaitTsReady_quiet (ev : LchanEvent) :
    Ensures (Quiet Call.calm w) (lchanFsmWaitTsReady x l ev w) := by
  unfold lchanFsmWaitTsReady
  split
  · exact lchanStateChg_quiet x l w (by decide)
  · exact lchanRtpGone_quiet l w (by decide)
  · exact lchanRtpGone_quiet l w (by decide)
  · exact ensures_error

theorem lchanFsmWaitRllRtpEstablish_quiet (ev : LchanEvent) :
    Ensures (Quiet Call.calm w) (lchanFsmWaitRllRtpEstablish x l ev w) := by
  unfold lchanFsmWaitRllRtpEstablish
  repeat' split
  all_goals
    first
    | exact ensures_error
    | exact lchanStateChg_quiet x l w (by decide)
    | exact lchanRtpGone_quiet l w (by decide)
    | exact ensures_ok.mpr (.of_keeps (.refl w) rfl)

theorem lchanFsmEstablished_quiet (ev : LchanEvent) :
    Ensures (Quiet Call.calm w) (lchanFsmEstablished l ev w) := by
  cases ev with
  | rllEstablishInd => exact ensures_ok.mpr (.of_keeps (.refl w) rfl)
  | rllRelInd linkId | rllRelConf linkId =>
    exact ensures_ok.mpr (handleRllRelIndOrConf_quiet l w linkId (.lchanEstablishedRelRest l) rfl)
  | rtpReleased | rtpError => exact lchanRtpGone_quiet l w (by decide)
  | _ => exact ensures_error

theorem lchanFsmWaitRllRtpReleased_quiet (ev : LchanEvent) :
    Ensures (Quiet Call.calm w) (lchanFsmWaitRllRtpReleased l ev w) := by
  cases ev with
  | rllRelInd linkId | rllRelConf linkId =>
    exact ensures_ok.mpr (handleRllRelIndOrConf_quiet l w linkId (.lchanReleasedRelRest l) rfl)
  | rtpReleased | rtpError => exact ensures_ok.mpr (.of_keeps (.refl w) rfl)
  | _ => exact ensures_error

theorem lchanFsmWaitRfReleaseAck_quiet (ev : LchanEvent) :
    Ensures (Quiet Call.calm w) (lchanFsmWaitRfReleaseAck x l ev w) := by
  unfold lchanFsmWaitRfReleaseAck
  repeat' split
  all_goals
    first
    | exact ensures_error
    | exact lchanStateChg_quiet x l w (by decide)
    | exact ensures_ok.mpr (.of_keeps (.refl w) rfl)

theorem lchanFsmBorken_quiet (ev : LchanEvent) :
    Ensures (Quiet Call.calm w) (lchanFsmBorken x l ev w) := by
  unfold lchanFsmBorken
  split
  · exact (lchanStateChg_quiet x l _ (by decide)).mono fun r => .after (by simp)
  · exact lchanStateChg_quiet x l w (by decide)
  · exact (lchanStateChg_quiet x l _ (by decide)).mono fun r => .after (by simp)
  · exact ensures_ok.mpr (.of_keeps (.refl w) rfl)
  · exact ensures_ok.mpr (.of_keeps (.refl w) rfl)
  · exact ensures_error

theorem lchanDispatch_quiet {ev : LchanEvent} (hev : ∀ info, ev ≠ .activate info) :
    Ensures (Quiet Call.calm w) (lchanDispatch x l ev w) := by
  unfold lchanDispatch
  split
  · exact ensures_ok.mpr (.of_keeps (.refl w) rfl)
  · split
    · exact ensures_ok.mpr (.of_keeps (.refl w) rfl)
    · exact ensures_ok.mpr (.of_keeps (.refl w) rfl)
    · split
      · exact lchanFsmUnused_quiet x l w hev
      · exact lchanFsmWaitTsReady_quiet x l w ev
      · exact lchanFsmWaitActivAck_quiet x l w ev
      · exact lchanFsmWaitRllRtpEstablish_quiet x l w ev
      · exact lchanFsmEstablished_quiet l w ev
      · exact lchanFsmWaitRllRtpReleased_quiet l w ev
      · exact lchanFsmWaitRfReleaseAck_quiet x l w ev
      · exact lchanFsmBorken_quiet x l w ev
      all_goals exact ensures_ok.mpr (.of_keeps (.refl w) rfl)

theorem lchanOnActivationFailure_quiet (activFor : ActivFor) (forConn : Option ConnId) :
    Ensures (Quiet Call.calm w) (lchanOnActivationFailure l activFor forConn w) := by
  unfold lchanOnActivationFailure
  split
  · exact ensures_ok.mpr (.of_keeps (.refl w) rfl)
  · dsimp only
    split
    · refine ensures_ok.mpr (.of_keeps ?_ rfl)
      split <;> simp
    · exact ensures_error
    · exact Ensures.bind fun k _ => ensures_ok.mpr (.of_keeps (by simp) rfl)
    · exact ensures_ok.mpr (.of_keeps (by simp) rfl)
    · refine Ensures.bind fun k _ => ensures_ok.mpr (.of_keeps (by simp) ?_)
      split <;> rfl
    · exact ensures_ok.mpr (.of_keeps (by simp) rfl)

theorem lchanActivate_apart (info : ActivateInfo) :
    Ensures (Apart Call.starting w) (lchanActivate l info w) := by
  unfold lchanActivate
  dsimp only
  split
  · exact ensures_ok.mpr ⟨.refl w,rfl⟩
  · split
    · exact ensures_error
    · split
      · exact ensures_ok.mpr ⟨.refl w,rfl⟩
      · refine Ensures.bind fun k _ => ?_
        split <;> exact ensures_ok.mpr ⟨.refl w,rfl⟩
      · exact ensures_ok.mpr ⟨.refl w,rfl⟩
      · refine Ensures.bind fun k _ => ?_
        repeat' split
        all_goals exact ensures_ok.mpr ⟨.refl w,rfl⟩
      · exact ensures_ok.mpr ⟨.refl w,rfl⟩

theorem lchanTimeout_quiet : Ensures (Quiet Call.calm w) (lchanTimeout x l w) := by
  unfold lchanTimeout
  split
  · exact ensures_ok.mpr (.of_keeps (.refl w) rfl)
  · exact lchanStateChg_quiet x l w (by decide)
  · exact lchanStateChg_quiet x l w (by decide)
  · split
    · exact ensures_ok.mpr (.of_keeps (by simp) (lchanFail_calm l _ _))
    · exact ensures_ok.mpr (.of_keeps (.refl w) rfl)

theorem lchanRelease_quiet (doRrRelease err : Bool) :
    Ensures (Quiet Call.calm w) (lchanRelease l doRrRelease err w) := by
  unfold lchanRelease
  repeat' split
  · exact ensures_ok.mpr (.of_keeps (.refl w) rfl)
  · exact ensures_ok.mpr (.of_keeps (.refl w) rfl)
  · refine ensures_ok.mpr (.of_keeps (by simp) ?_)
    dsimp only
    split <;> rfl

theorem lchanDoRelease_keeps : Keeps Lchan.fi w (lchanDoRelease l w).1 := by
  unfold lchanDoRelease
  dsimp only
  split <;> simp

theorem lchanReleaseRest_quiet : Ensures (Quiet Call.calm w) (lchanReleaseRest l w) := by
  unfold lchanReleaseRest
  repeat' split
  · exact ensures_error
  all_goals try exact ensures_ok.mpr (.of_keeps (.refl w) rfl)
  refine ensures_ok.mpr (.of_keeps (lchanDoRelease_keeps l w) ?_)
  unfold lchanDoRelease
  dsimp only
  split <;> rfl

theorem lchanExitReleaseHandler_quiet :
    Ensures (Quiet Call.calm w) (lchanExitReleaseHandler l w) :=
  ensures_ok.mpr (.of_keeps (by simp) rfl)

theorem lchanWaitReleasedRest_quiet :
    Ensures (Quiet Call.calm w) (lchanWaitReleasedRest cfg l w) := by
  unfold lchanWaitReleasedRest
  extract_lets quick w1
  have hw1 : Keeps Lchan.fi w w1 := by
    dsimp only [w1]
    split <;> simp
  split
  · exact ensures_ok.mpr (.of_keeps hw1 rfl)
  · exact ensures_ok.mpr (.of_keeps hw1 rfl)

theorem lchanEstablishedRelRest_quiet :
    Ensures (Quiet Call.calm w) (lchanEstablishedRelRest x l w) := by
  unfold lchanEstablishedRelRest
  split
  · exact lchanStateChg_quiet x l w (by decide)
  · exact ensures_ok.mpr (.of_keeps (.refl w) rfl)

theorem lchanReleasedRelRest_quiet :
    Ensures (Quiet Call.calm w) (lchanReleasedRelRest x l w) := by
  unfold lchanReleasedRelRest
  split
  · exact lchanStateChg_quiet x l w (by decide)
  · exact ensures_ok.mpr (.of_keeps (.refl w) rfl)

theorem lchanResetRest_quiet : Ensures (Quiet Call.calm w) (lchanResetRest x l w) := by
  unfold lchanResetRest
  refine ensures_ok.mpr (.of_keeps ?_ rfl)
  dsimp only
  split
  · simp
  · simpa using Clear.fi (osmoMgcpcEpCiDlcx_clear x w _)

theorem connStateChg_clear (k : Conn) (st : ConnState) : Clear w (connStateChg c k st w) := by
  unfold connStateChg
  dsimp only
  repeat' split
  all_goals simp [gsconBssmapClear]

theorem gsconChangePrimaryLchan_apart (new : Option LchanId) :
    Ensures (Apart Call.calm w) (gsconChangePrimaryLchan c new w) := by
  refine Ensures.bind fun k _ => ?_
  split
  · exact ensures_error
  · refine ensures_ok.mpr ⟨by simp,?_⟩
    dsimp only
    repeat' split
    all_goals rfl

theorem gsconReleaseLchan_apart (doRrRelease err : Bool) :
    Ensures (Apart Call.calm w) (gsconReleaseLchan c l doRrRelease err w) := by
  refine Ensures.bind fun k _ => ensures_ok.mpr ⟨?_,rfl⟩
  refine keeps_updConn.mpr ?_
  split
  · exact lchanForgetConn_keeps l w
  · exact .refl w

theorem gsconReleasePrimary_apart (doRrRelease err : Bool) :
    Ensures (Apart Call.calm w) (gsconReleasePrimary c doRrRelease err w) := by
  refine Ensures.bind fun k _ => ?_
  split
  · exact ensures_ok.mpr ⟨.refl w,rfl⟩
  · exact gsconReleaseLchan_apart _ c w doRrRelease err

theorem gsconReleaseLchans_apart (doRrRelease : Bool) :
    Ensures (Apart Call.calm w) (gsconReleaseLchans c doRrRelease w) := by
  refine Ensures.bind fun k _ => ensures_ok.mpr ⟨.refl w,?_⟩
  split <;> rfl

theorem gsconLchanReleasing_apart :
    Ensures (Apart Call.calm w) (gsconLchanReleasing c l w) := by
  refine Ensures.bind fun k _ => ensures_ok.mpr ⟨.refl w,?_⟩
  repeat' split
  all_goals rfl

theorem gsconLchanReleasingAssignment_apart :
    Ensures (Apart Call.calm w) (gsconLchanReleasingAssignment c w) :=
  Ensures.bind fun _ _ => ensures_ok.mpr
    ⟨keeps_updConn.mpr (unlessNull_forgetConn_keeps w _),rfl⟩

theorem gsconLchanReleasingHo_apart :
    Ensures (Apart Call.calm w) (gsconLchanReleasingHo c l w) := by
  refine Ensures.bind fun k _ => ensures_ok.mpr ⟨.refl w,?_⟩
  split <;> rfl

theorem gsconLchanReleasingRest_apart :
    Ensures (Apart Call.calm w) (gsconLchanReleasingRest c l w) := by
  refine Ensures.bind fun k _ => ?_
  extract_lets gone w1
  have hw1 : Keeps Lchan.life w w1 := by
    dsimp only [w1]
    split
    · exact keeps_updConn.mpr (lchanForgetConn_keeps l w)
    · exact .refl w
  split
  · refine ensures_ok.mpr ⟨keeps_send.mpr ?_,rfl⟩
    split
    · exact hw1.trans (Clear.life (connStateChg_clear c w1 k _))
    · exact hw1
  · exact ensures_ok.mpr ⟨hw1,rfl⟩

theorem osmoMgcpcEpClear_clear : Clear w (osmoMgcpcEpClear c w) := by
  unfold osmoMgcpcEpClear
  repeat' split
  · exact Keeps.trans (by simp) (gsconForgetMgwEndpoint_clear c _)
  · exact .refl w
  · exact .refl w

theorem gsconFsmAllstate_apart (k : Conn) (ev : ConnEvent) :
    Ensures (Apart Call.calm w) (gsconFsmAllstate c k ev w) := by
  unfold gsconFsmAllstate
  split
  · refine ensures_ok.mpr ⟨?_,rfl⟩
    dsimp only
    split
    · exact Clear.life (connStateChg_clear c w k _)
    · exact .refl w
  · exact ensures_ok.mpr ⟨.refl w,rfl⟩
  · exact ensures_ok.mpr ⟨Clear.life (gsconForgetMgwEndpoint_clear c w),rfl⟩
  · refine ensures_ok.mpr ⟨keeps_send.mpr ?_,rfl⟩
    split <;> simp
  · exact ensures_error

/-- What a call may make of calls: a request of a timeslot only on the way to one. -/
def Call.makes (call : Call) : Call → Bool :=
  if call.activates then Call.starting else Call.calm

theorem Apart.makes {w : Bsc} {r : Bsc × List Call} (call : Call) (h : Apart Call.calm w r) :
    Apart call.makes w r := by
  unfold Call.makes
  split
  · exact h.starting
  · exact h

theorem gsconSigtranSend_clear (k : Conn) (m : Tx) : Clear w (gsconSigtranSend k m w) := by
  unfold gsconSigtranSend
  split <;> simp

theorem gsm0808SendRslDtap_clear (k : Conn) : Clear w (gsm0808SendRslDtap x c k w) := by
  unfold gsm0808SendRslDtap
  split
  · exact (gsconSigtranSend_clear w k _).trans (connStateChg_clear c _ k _)
  · exact .refl w

theorem gsconSubmitRslDtap_apart : Ensures (Apart Call.calm w) (gsconSubmitRslDtap x c w) := by
  refine Ensures.bind fun k _ => ?_
  repeat' split
  · exact ensures_ok.mpr ⟨Clear.life (gsm0808SendRslDtap_clear x c w k),rfl⟩
  · exact ensures_ok.mpr ⟨.refl w,rfl⟩
  · exact ensures_ok.mpr ⟨by simp,rfl⟩

theorem gsconDtapQueueFlush_apart : Ensures (Apart Call.calm w) (gsconDtapQueueFlush x c w) := by
  refine Ensures.bind fun k _ => ?_
  split
  · exact ensures_ok.mpr ⟨.refl w,rfl⟩
  · exact ensures_ok.mpr ⟨Keeps.trans (by simp)
      (Clear.life (gsm0808SendRslDtap_clear x c _ k)),rfl⟩

theorem gsconFsmProcedure_apart (k : Conn) (ev : ConnEvent) :
    Ensures (Apart Call.calm w) (gsconFsmProcedure c k ev w) := by
  have hchg := Clear.life (connStateChg_clear c w k .active)
  unfold gsconFsmProcedure
  split
  · exact ensures_ok.mpr ⟨hchg,rfl⟩
  · exact ensures_ok.mpr ⟨hchg,rfl⟩
  · exact ensures_ok.mpr ⟨.refl w,rfl⟩
  · exact ensures_ok.mpr ⟨Clear.life (gsconSigtranSend_clear w k _),rfl⟩
  · exact ensures_error

theorem connDispatch_apart (ev : ConnEvent) :
    Ensures (Apart (Call.connDispatch c ev).makes w) (connDispatch x c ev w) := by
  refine Ensures.bind fun k _ => ?_
  have hchg := fun st => Clear.life (connStateChg_clear c w k st)
  have hcalm {w' : Bsc} {calls : List Call} (h : Keeps Lchan.life w w')
      (hc : calls.all Call.calm = true) :
      Ensures (Apart (Call.connDispatch c ev).makes w) (.ok (w',calls) : Outcome) :=
    ensures_ok.mpr (Apart.makes _ ⟨h,hc⟩)
  split
  · exact (gsconFsmAllstate_apart c w k ev).mono fun r => Apart.makes _
  · exact hcalm (.refl w) rfl
  · split
    · unfold gsconFsmInit
      split
      · split
        · exact hcalm (.refl w) rfl
        · exact hcalm (hchg _) rfl
      · split <;> exact ensures_ok.mpr ⟨.refl w,rfl⟩
      · split
        · exact hcalm (hchg _) rfl
        · exact hcalm (Keeps.trans (by simp [gsconBssmapClear])
            (Clear.life (connStateChg_clear c _ k _))) rfl
      · exact ensures_error
    · exact hcalm (hchg _) rfl
    · unfold gsconFsmActive
      split
      · split
        · exact hcalm (.refl w) rfl
        · exact ensures_ok.mpr ⟨hchg _,rfl⟩
      · exact ensures_ok.mpr ⟨hchg _,rfl⟩
      · exact hcalm (.refl w) rfl
      · exact hcalm (Clear.life (gsconSigtranSend_clear w k _)) rfl
      · exact ensures_error
    · exact (gsconFsmProcedure_apart c w k ev).mono fun r => Apart.makes _
    · exact (gsconFsmProcedure_apart c w k ev).mono fun r => Apart.makes _
    · exact hcalm (.refl w) rfl

theorem connClearRest_apart : Ensures (Apart Call.calm w) (connClearRest c w) := by
  refine Ensures.bind fun k _ => ensures_ok.mpr ⟨?_,rfl⟩
  have h := Clear.life (osmoMgcpcEpClear_clear c w)
  split
  · exact h
  · exact keeps_send.mpr h

theorem connTimeout_apart : Ensures (Apart Call.calm w) (connTimeout c w) := by
  refine Ensures.bind fun k _ => ?_
  split <;> exact ensures_ok.mpr ⟨.refl w,rfl⟩

theorem gsconUpdateId_apart : Ensures (Apart Call.calm w) (gsconUpdateId c w) :=
  Ensures.bind fun _ _ => ensures_ok.mpr ⟨.refl w,rfl⟩

theorem gsconTerm_apart : Ensures (Apart Call.calm w) (gsconTerm c w) :=
  Ensures.bind fun _ _ => ensures_ok.mpr ⟨Clear.life (osmoMgcpcEpClear_clear c w),rfl⟩

theorem gsconTermChildren_apart : Ensures (Apart Call.calm w) (gsconTermChildren c w) := by
  refine Ensures.bind fun k _ => ensures_ok.mpr ⟨by simp,?_⟩
  split <;> rfl

theorem gsconCleanup_apart : Ensures (Apart Call.calm w) (gsconCleanup c w) :=
  Ensures.bind fun _ _ => ensures_ok.mpr ⟨keeps_freeConn.mpr
    (((unlessNull_forgetConn_keeps w _).trans (unlessNull_forgetConn_keeps _ _)).trans
      (unlessNull_forgetConn_keeps _ _)),rfl⟩

theorem gsm0408Rcvmsg_apart (msg : L3Msg) (newConn : ConnId) (aoip : Bool) :
    Ensures (Apart Call.calm w) (gsm0408Rcvmsg x l msg newConn aoip w) := by
  have hdtap (c : ConnId) : Ensures (Apart Call.calm w) (dispatchDtap x c msg w) := by
    refine Ensures.bind fun k _ => ?_
    unfold bscDtap
    repeat' split
    all_goals first | exact ensures_error | exact ensures_ok.mpr ⟨.refl w,rfl⟩
  rcases gsm0408Rcvmsg_cases x l msg newConn aoip w with h | ⟨c,-,h⟩ | h | ⟨-,h⟩ <;> rw [h]
  · exact ensures_ok.mpr ⟨.refl w,rfl⟩
  · exact hdtap c
  · exact ensures_ok.mpr ⟨.refl w,rfl⟩
  · refine ensures_ok.mpr ⟨by simp,?_⟩
    split <;> rfl

theorem bssmapHandleAssignmReq_apart (sel : Select) (req : AssignmReq) :
    Ensures (Apart Call.starting w) (bssmapHandleAssignmReq c sel req w) := by
  refine Ensures.bind fun k _ => Ensures.bind fun r _ => ?_
  split <;> exact ensures_ok.mpr ⟨.refl w,rfl⟩

theorem sccpNConnect_apart (aoip : Bool) (sel : Select) (req : Option ChannelModeAndRate) :
    Ensures (Apart Call.starting w) (sccpNConnect c aoip sel req w) := by
  unfold sccpNConnect
  split
  · exact ensures_ok.mpr ⟨.refl w,rfl⟩
  · exact ensures_ok.mpr ⟨by simp,rfl⟩

theorem lchanAct_aside (mode : ChanMode) : Ensures (Aside Call.calm w) (lchanAct x l mode w) := by
  unfold lchanAct
  split
  · exact ensures_ok.mpr ⟨Clear.picks (.refl w),rfl⟩
  · split
    · exact ensures_error
    · rename_i type hfi _
      refine ensures_ok.mpr ⟨?_,rfl⟩
      have h := Bsc.updLchan_picks (f := ({ · with type := type, tchMode := mode })) hfi
        fun _ => rfl
      dsimp only
      split
      · exact h
      · exact h.trans (Clear.picks (by simp))
    · exact ensures_ok.mpr ⟨Clear.picks (.refl w),rfl⟩

theorem assertNotWaiting_apart : Ensures (Apart Call.calm w) (assertNotWaiting l w) := by
  unfold assertNotWaiting
  repeat' split
  · exact ensures_error
  · exact ensures_error
  · exact ensures_ok.mpr ⟨.refl w,rfl⟩

def Call.ofTs : Call → Bool
  | .tsDispatch .. | .tsTimeout .. | .tsStateChg .. | .tsErrorChg .. | .tsLchansDispatch ..
  | .tsInUseOnenter .. | .tsTerminateLchanFsms .. => true
  | _ => false

def Call.ofLchan : Call → Bool
  | .lchanDispatch .. | .lchanTimeout .. | .lchanStateChg .. | .lchanOnActivationFailure ..
  | .lchanFailChg .. | .lchanRelease .. | .lchanReleaseRest .. | .lchanExitReleaseHandler ..
  | .lchanWaitReleasedRest .. | .lchanEstablishedRelRest .. | .lchanReleasedRelRest ..
  | .lchanResetRest .. | .lchanTerm .. | .lchanCleanup .. | .lchanCleanupRest .. => true
  | _ => false

theorem Call.calm_not_activates {call : Call} (h : call.calm = true) : call.activates = false := by
  cases call with
  | tsDispatch t ev => cases ev <;> first | rfl | cases h
  | _ => first | rfl | exact absurd h Bool.noConfusion | simpa [calm] using h

def Call.selects : Call → Bool
  | .assignmentStart .. | .handoverStartReset .. | .handoverStartInterBscIn ..
  | .rslRxChanRqd .. | .lchanAct .. => true
  | _ => false

/-- The calls of all the other FSMs, and those on the way to the request of an lchan. -/
theorem exec_apart {call : Call} (hts : call.ofTs = false) (hl : call.ofLchan = false)
    (hs : call.selects = false) :
    Ensures (Apart call.makes w) (exec cfg call x w) := by
  cases call with
  | assertNotWaiting l => exact assertNotWaiting_apart l w
  | lchanActivate l info => exact lchanActivate_apart l w info
  | lchanRtpFsmStart l => exact (lchanRtpFsmStart_beside cfg x l w).mono fun r => Beside.apart
  | rtpDispatch l ev => exact (rtpDispatch_beside cfg l w ev).mono fun r => Beside.apart
  | rtpTimeout l => exact (rtpTimeout_beside l w).mono fun r => Beside.apart
  | rtpStateChg l st => exact (rtpStateChg_beside cfg x l w st).mono fun r => Beside.apart
  | rtpTerm l => exact (rtpTerm_beside x l w).mono fun r => Beside.apart
  | assignmentDispatch c ev => exact (assignmentDispatch_beside x c w ev).mono fun r => Beside.apart
  | assignmentTimeout c => exact (assignmentTimeout_beside c w).mono fun r => Beside.apart
  | assignmentStartReuseRest c =>
    exact (assignmentStartReuseRest_beside c w).mono fun r => Beside.apart
  | assignmentTerm c parent => exact (assignmentTerm_beside c w parent).mono fun r => Beside.apart
  | assignmentCleanupRest c parent =>
    exact (assignmentCleanupRest_beside c w parent).mono fun r => Beside.apart
  | assignmentReset c => exact (assignmentReset_beside c w).mono fun r => Beside.apart
  | assignmentResetRest c => exact (assignmentResetRest_beside x c w).mono fun r => Beside.apart
  | assignmentStateChg c st => exact (assignmentStateChg_beside x c w st).mono fun r => Beside.apart
  | assignmentSuccess c => exact (assignmentSuccess_beside c w).mono fun r => Beside.apart
  | assignmentSuccessSend c => exact (assignmentSuccessSend_beside x c w).mono fun r => Beside.apart
  | assignmentSuccessRest c => exact (assignmentSuccessRest_beside c w).mono fun r => Beside.apart
  | hoDispatch c ev => exact (hoDispatch_beside x c w ev).mono fun r => Beside.apart
  | hoTimeout c => exact (hoTimeout_beside c w).mono fun r => Beside.apart
  | hoStateChg c st => exact (hoStateChg_beside x c w st).mono fun r => Beside.apart
  | handoverStart c newType target =>
    exact (handoverStart_beside c w newType target).mono fun r => Beside.apart
  | handoverEnd c result => exact (handoverEnd_beside x c w result).mono fun r => Beside.apart
  | handoverEndChange c result =>
    exact (handoverEndChange_beside x c w result).mono fun r => Beside.apart
  | handoverEndNotify c result =>
    exact (handoverEndNotify_beside c w result).mono fun r => Beside.apart
  | handoverEndRelease c => exact (handoverEndRelease_beside c w).mono fun r => Beside.apart
  | handoverEndRest c => exact (handoverEndRest_beside x c w).mono fun r => Beside.apart
  | connDispatch c ev => exact connDispatch_apart x c w ev
  | connTimeout c => exact connTimeout_apart c w
  | connClearRest c => exact connClearRest_apart c w
  | gsconUpdateId c => exact gsconUpdateId_apart c w
  | gsconChangePrimaryLchan c l => exact gsconChangePrimaryLchan_apart c w l
  | gsconReleaseLchan c l doRrRelease err => exact gsconReleaseLchan_apart l c w doRrRelease err
  | gsconReleasePrimary c doRrRelease err => exact gsconReleasePrimary_apart c w doRrRelease err
  | gsconReleaseLchans c doRrRelease => exact gsconReleaseLchans_apart c w doRrRelease
  | gsconLchanReleasing c l => exact gsconLchanReleasing_apart l c w
  | gsconLchanReleasingAssignment c => exact gsconLchanReleasingAssignment_apart c w
  | gsconLchanReleasingHo c l => exact gsconLchanReleasingHo_apart l c w
  | gsconLchanReleasingRest c l => exact gsconLchanReleasingRest_apart l c w
  | gsconTerm c => exact gsconTerm_apart c w
  | gsconTermChildren c => exact gsconTermChildren_apart c w
  | gsconCleanup c => exact gsconCleanup_apart c w
  | gsconSubmitRslDtap c => exact gsconSubmitRslDtap_apart x c w
  | gsconDtapQueueFlush c => exact gsconDtapQueueFlush_apart x c w
  | bssmapHandleAssignmReq c sel req => exact bssmapHandleAssignmReq_apart c w sel req
  | rllEstInd l sapi => exact ensures_ok.mpr ⟨by simp,rfl⟩
  | rllEstConf l sapi => exact ensures_ok.mpr ⟨by simp,rfl⟩
  | gsm0408Rcvmsg l msg newConn aoip => exact gsm0408Rcvmsg_apart x l w msg newConn aoip
  | sccpNConnect c aoip sel req => exact sccpNConnect_apart c w aoip sel req
  | _ =>
    first
    | exact absurd hts Bool.noConfusion
    | exact absurd hl Bool.noConfusion
    | exact absurd hs Bool.noConfusion

/-- The calls that choose a type for an lchan, where the channel request of an MS has
found one that is unused. -/
theorem exec_aside {call : Call} (hs : call.selects = true)
    (hrqd : ∀ l type, call = .rslRxChanRqd l type → (w.lchan l).fi = some .unused) :
    Ensures (Aside call.makes w) (exec cfg call x w) := by
  cases call with
  | assignmentStart c sel req => exact assignmentStart_aside x c w sel req
  | handoverStartReset c newType target => exact handoverStartReset_aside x c w newType target
  | handoverStartInterBscIn c sel req => exact handoverStartInterBscIn_aside x c w sel req
  | rslRxChanRqd l type =>
    have h := Bsc.updLchan_picks (f := ({ · with type := type })) (hrqd l type rfl) fun _ => rfl
    exact ensures_ok.mpr ⟨h,rfl⟩
  | lchanAct l mode => exact lchanAct_aside x l w mode
  | _ => exact absurd hs Bool.noConfusion

theorem exec_keeps {call : Call} (hts : call.ofTs = false) (hl : call.ofLchan = false) :
    Ensures (fun r => Keeps Lchan.fi w r.1 ∧ r.2.all call.makes = true) (exec cfg call x w) := by
  cases hs : call.selects with
  | false => exact (exec_apart cfg x w hts hl hs).mono fun r h => ⟨h.keeps.fi,h.calls⟩
  | true =>
    by_cases hrqd : ∃ l type, call = .rslRxChanRqd l type
    · obtain ⟨l,type,rfl⟩ := hrqd
      exact ensures_ok.mpr ⟨by simp,rfl⟩
    · refine (exec_aside cfg x w hs fun l type h => ?_).mono fun r h => ⟨h.picks.fi,h.calls⟩
      exact absurd ⟨l,type,h⟩ hrqd

theorem exec_quiet {call : Call} (hcall : call.calm = true) (hts : ∀ t ev, call ≠ .tsDispatch t ev) :
    Ensures (Quiet Call.calm w) (exec cfg call x w) := by
  have hts' : call.ofTs = false := by
    cases call with
    | tsDispatch t ev => exact absurd rfl (hts t ev)
    | _ => first | rfl | cases hcall
  cases hl : call.ofLchan with
  | false =>
    have h := exec_keeps cfg x w hts' hl
    rw [Call.makes,Call.calm_not_activates hcall] at h
    exact h.mono fun r h => .of_keeps h.1 h.2
  | true =>
    cases call with
    | lchanDispatch l ev =>
      refine lchanDispatch_quiet x l w fun info h => ?_
      subst h
      cases hcall
    | lchanTimeout l => exact lchanTimeout_quiet x l w
    | lchanStateChg l st =>
      refine lchanStateChg_quiet x l w fun h => ?_
      subst h
      cases hcall
    | lchanOnActivationFailure l activFor forConn =>
      exact lchanOnActivationFailure_quiet l w activFor forConn
    | lchanFailChg l st =>
      refine lchanFailChg_quiet x l w fun h => ?_
      subst h
      cases hcall
    | lchanRelease l doRrRelease err => exact lchanRelease_quiet l w doRrRelease err
    | lchanReleaseRest l => exact lchanReleaseRest_quiet l w
    | lchanExitReleaseHandler l => exact lchanExitReleaseHandler_quiet l w
    | lchanWaitReleasedRest l => exact lchanWaitReleasedRest_quiet cfg l w
    | lchanEstablishedRelRest l => exact lchanEstablishedRelRest_quiet x l w
    | lchanReleasedRelRest l => exact lchanReleasedRelRest_quiet x l w
    | lchanResetRest l => exact lchanResetRest_quiet x l w
    | _ => first | exact absurd hl Bool.noConfusion | cases hcall

theorem exec_starting {call : Call} (hcall : call.activates = true)
    (hl : ∀ l ev, call ≠ .lchanDispatch l ev) (hts : ∀ t ev, call ≠ .tsDispatch t ev) :
    Ensures (Quiet Call.starting w) (exec cfg call x w) := by
  have hts' : call.ofTs = false := by
    cases call with
    | tsDispatch t ev => exact absurd rfl (hts t ev)
    | _ => first | rfl | cases hcall
  have hl' : call.ofLchan = false := by
    cases call with
    | lchanDispatch l ev => exact absurd rfl (hl l ev)
    | _ => first | rfl | cases hcall
  have h := exec_keeps cfg x w hts' hl'
  rw [Call.makes,hcall] at h
  exact h.mono fun r h => .of_keeps h.1 h.2

end Functions

end OsmoBsc.Chan
