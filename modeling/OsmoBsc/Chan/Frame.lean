import OsmoBsc.Chan.Run
set_option autoImplicit false

namespace OsmoBsc.Chan
open EventFsm

namespace Bsc

section Updates

variable (w : Bsc) (c : ConnId) (l : LchanId) (t : TsId)

@[simp] theorem updConn_ts (f : Conn → Conn) : (w.updConn c f).ts = w.ts := rfl
@[simp] theorem updConn_lchan (f : Conn → Conn) : (w.updConn c f).lchan = w.lchan := rfl
@[simp] theorem allocConn_ts (k : Conn) : (w.allocConn c k).ts = w.ts := rfl
@[simp] theorem allocConn_lchan (k : Conn) : (w.allocConn c k).lchan = w.lchan := rfl
@[simp] theorem freeConn_ts : (w.freeConn c).ts = w.ts := rfl
@[simp] theorem freeConn_lchan : (w.freeConn c).lchan = w.lchan := rfl
@[simp] theorem send_ts (m : Tx) : (w.send m).ts = w.ts := rfl
@[simp] theorem send_lchan (m : Tx) : (w.send m).lchan = w.lchan := rfl
@[simp] theorem send_conn (m : Tx) : (w.send m).conn = w.conn := rfl
@[simp] theorem updLchan_ts (f : Lchan → Lchan) : (w.updLchan l f).ts = w.ts := rfl
@[simp] theorem updLchan_conn (f : Lchan → Lchan) : (w.updLchan l f).conn = w.conn := rfl
@[simp] theorem updTs_lchan (f : Ts → Ts) : (w.updTs t f).lchan = w.lchan := rfl
@[simp] theorem updTs_conn (f : Ts → Ts) : (w.updTs t f).conn = w.conn := rfl

@[simp] theorem updLchan_self (f : Lchan → Lchan) : (w.updLchan l f).lchan l = f (w.lchan l) := by
  simp [updLchan]

theorem updLchan_ne (f : Lchan → Lchan) {l' : LchanId} (h : l' ≠ l) :
    (w.updLchan l f).lchan l' = w.lchan l' := by
  simp [updLchan,h]

@[simp] theorem updTs_self (f : Ts → Ts) : (w.updTs t f).ts t = f (w.ts t) := by
  simp [updTs]

theorem updTs_ne (f : Ts → Ts) {t' : TsId} (h : t' ≠ t) : (w.updTs t f).ts t' = w.ts t' := by
  simp [updTs,h]

end Updates

end Bsc

/-- A message is dropped, goes to the conn of its lchan, is refused or founds a conn. -/
theorem gsm0408Rcvmsg_cases (x : Foreign) (l : LchanId) (msg : L3Msg) (newConn : ConnId) (aoip : Bool)
    (w : Bsc) :
    gsm0408Rcvmsg x l msg newConn aoip w = .ok (w,[]) ∨
    (∃ c, (w.lchan l).conn = some c ∧ gsm0408Rcvmsg x l msg newConn aoip w = dispatchDtap x c msg w) ∨
    gsm0408Rcvmsg x l msg newConn aoip w = .ok (w,[.lchanRelease l false true]) ∨
    w.conn newConn = none ∧ gsm0408Rcvmsg x l msg newConn aoip w =
      .ok ((w.allocConn newConn { aoip := aoip, lchan := some l }).updLchan l ({ · with conn := some newConn }),
        if x.fail2 then [.connDispatch newConn .aDiscInd] else [.connDispatch newConn .aConnReq]) := by
  unfold gsm0408Rcvmsg
  split
  case h_3 => exact .inl rfl
  all_goals
    split
    · rename_i c hc
      exact .inr (.inl ⟨c,hc,rfl⟩)
    · split
      · exact .inr (.inr (.inl rfl))
      · rename_i hfree
        exact .inr (.inr (.inr ⟨Option.not_isSome_iff_eq_none.mp fun h => hfree (.inr h),rfl⟩))

/-- An lchan as far as only the lchan FSM and the connection write it: without
what selection, the RTP FSM and the MGW change on the way. -/
@[reducible] def Lchan.core (lchan : Lchan) : Lchan :=
  { lchan with
    type := .none, tchMode := .sign, inError := false, fiRtp := none, mgwEndpointCiBts := none
    info := { lchan.info with
      waitBeforeSwitchingRtp := false, reUseMgwEndpointFromLchan := none } }

/-- An lchan without what the RTP FSM and the MGW change on the way. -/
@[reducible] def Lchan.body (lchan : Lchan) : Lchan :=
  { lchan with
    inError := false, fiRtp := none, mgwEndpointCiBts := none
    info := { lchan.info with
      waitBeforeSwitchingRtp := false, reUseMgwEndpointFromLchan := none } }

/-- Timeslots are as before, and so is what `π` shows of the lchans. -/
structure Keeps {α : Type} (π : Lchan → α) (w w' : Bsc) : Prop where
  ts : w'.ts = w.ts
  lchan : ∀ l, π (w'.lchan l) = π (w.lchan l)

section Keeps

variable {α : Type} {π : Lchan → α} {w w1 w2 : Bsc} {c : ConnId} {l : LchanId}

theorem Keeps.refl (w : Bsc) : Keeps π w w := ⟨rfl,fun _ => rfl⟩

theorem Keeps.trans (h : Keeps π w w1) (h' : Keeps π w1 w2) : Keeps π w w2 :=
  ⟨h'.ts.trans h.ts,fun l => (h'.lchan l).trans (h.lchan l)⟩

@[simp] theorem keeps_self : Keeps π w w := .refl w

@[simp] theorem keeps_updConn {f : Conn → Conn} : Keeps π w (w1.updConn c f) ↔ Keeps π w w1 :=
  ⟨fun h => ⟨h.ts,h.lchan⟩,fun h => ⟨h.ts,h.lchan⟩⟩

@[simp] theorem keeps_allocConn {k : Conn} : Keeps π w (w1.allocConn c k) ↔ Keeps π w w1 :=
  ⟨fun h => ⟨h.ts,h.lchan⟩,fun h => ⟨h.ts,h.lchan⟩⟩

@[simp] theorem keeps_freeConn : Keeps π w (w1.freeConn c) ↔ Keeps π w w1 :=
  ⟨fun h => ⟨h.ts,h.lchan⟩,fun h => ⟨h.ts,h.lchan⟩⟩

@[simp] theorem keeps_send {m : Tx} : Keeps π w (w1.send m) ↔ Keeps π w w1 :=
  ⟨fun h => ⟨h.ts,h.lchan⟩,fun h => ⟨h.ts,h.lchan⟩⟩

@[simp] theorem keeps_mk {conn : ConnId → Option Conn} {n : Nat} {sent : List Tx} :
    Keeps π w ⟨w1.ts,w1.lchan,conn,n,sent⟩ ↔ Keeps π w w1 :=
  ⟨fun h => ⟨h.ts,h.lchan⟩,fun h => ⟨h.ts,h.lchan⟩⟩

theorem Bsc.updLchan_keeps {f : Lchan → Lchan} (hf : ∀ lchan, π (f lchan) = π lchan)
    (l' : LchanId) : π ((w.updLchan l f).lchan l') = π (w.lchan l') := by
  rcases eq_or_ne l' l with rfl | hne
  · simp [hf]
  · rw [Bsc.updLchan_ne _ _ _ hne]

@[simp] theorem keeps_updLchan {f : Lchan → Lchan} (hf : ∀ lchan, π (f lchan) = π lchan) :
    Keeps π w (w1.updLchan l f) ↔ Keeps π w w1 := by
  constructor
  · exact fun h => ⟨h.ts,fun l' => (Bsc.updLchan_keeps hf l').symm.trans (h.lchan l')⟩
  · exact fun h => ⟨h.ts,fun l' => (Bsc.updLchan_keeps hf l').trans (h.lchan l')⟩

end Keeps

abbrev Aloof : Bsc → Bsc → Prop := Keeps Lchan.core

abbrev Clear : Bsc → Bsc → Prop := Keeps Lchan.body

theorem Clear.aloof {w w1 : Bsc} (h : Clear w w1) : Aloof w w1 := by
  refine ⟨h.ts,fun l => ?_⟩
  have := congrArg Lchan.core (h.lchan l)
  exact this

/-- Timeslots and the body of lchans are as before, but for the type of lchans that
are unused. -/
structure Picks (w w' : Bsc) : Prop where
  ts : w'.ts = w.ts
  lchan : ∀ l, (w'.lchan l).body = (w.lchan l).body ∨
    (w.lchan l).fi = some .unused ∧ (w'.lchan l).core = (w.lchan l).core

section Picks

variable {w w1 w2 : Bsc}

theorem Clear.picks (h : Clear w w1) : Picks w w1 := ⟨h.ts,fun l => .inl (h.lchan l)⟩

theorem Picks.aloof (h : Picks w w1) : Aloof w w1 := by
  refine ⟨h.ts,fun l => ?_⟩
  rcases h.lchan l with h | ⟨-,h⟩
  · have := congrArg Lchan.core h
    exact this
  · exact h

theorem Picks.trans (h : Picks w w1) (h' : Picks w1 w2) : Picks w w2 := by
  refine ⟨h'.ts.trans h.ts,fun l => ?_⟩
  have hc := h.aloof.lchan l
  rcases h'.lchan l with h2 | ⟨hfi,h2⟩
  · rcases h.lchan l with h1 | ⟨hfi,h1⟩
    · exact .inl (h2.trans h1)
    · refine .inr ⟨hfi,?_⟩
      have := congrArg Lchan.core h2
      exact this.trans hc
  · have hfi' := congrArg Lchan.fi hc
    exact .inr ⟨hfi'.symm.trans hfi,h2.trans hc⟩

theorem Bsc.updLchan_picks {l : LchanId} {f : Lchan → Lchan} (hl : (w.lchan l).fi = some .unused)
    (hf : ∀ lchan, (f lchan).core = lchan.core) : Picks w (w.updLchan l f) := by
  refine ⟨rfl,fun l' => ?_⟩
  rcases eq_or_ne l' l with rfl | hne
  · exact .inr ⟨hl,by simp [hf]⟩
  · rw [Bsc.updLchan_ne _ _ _ hne]
    exact .inl rfl

end Picks

/-- The calls that lead to the request of a timeslot. -/
def Call.activates : Call → Bool
  | .lchanActivate .. | .rslRxChanRqd .. | .assignmentStart .. | .handoverStart ..
  | .handoverStartReset .. | .handoverStartInterBscIn .. | .sccpNConnect ..
  | .bssmapHandleAssignmReq .. => true
  | .connDispatch _ ev => match ev with
    | .aConnInd .. | .assignmentStart .. | .handoverStart .. => true
    | _ => false
  | .lchanDispatch _ (.activate _) => true
  | .tsDispatch _ (.lchanRequested _) => true
  | _ => false

/-- The calls that neither request nor change a timeslot nor end an lchan FSM. -/
def Call.calm : Call → Bool
  | .tsDispatch _ (.lchanUnused _) => true
  | .tsDispatch .. | .tsTimeout .. | .tsStateChg .. | .tsErrorChg .. | .tsLchansDispatch ..
  | .tsInUseOnenter .. | .tsTerminateLchanFsms .. => false
  | .lchanTerm .. | .lchanCleanup .. | .lchanCleanupRest .. => false
  | .lchanStateChg _ .waitTsReady | .lchanFailChg _ .waitTsReady => false
  | .lchanStateChg _ .waitAfterError | .lchanFailChg _ .waitAfterError => false
  | .lchanStateChg _ .cbch | .lchanFailChg _ .cbch => false
  | call => !call.activates

def Call.starting (call : Call) : Bool := call.calm || call.activates

section Aside

variable (cfg : TsId → TsCfg) (x : Foreign) (l : LchanId) (c : ConnId) (w : Bsc)

/-- A call that may choose a type for lchans that are unused, but leaves all else of
timeslots and lchans alone, and makes only calls that `ok` admits. -/
structure Aside (ok : Call → Bool) (w : Bsc) (r : Bsc × List Call) : Prop where
  picks : Picks w r.1
  calls : r.2.all ok = true

structure Beside (ok : Call → Bool) (w : Bsc) (r : Bsc × List Call) : Prop where
  clear : Clear w r.1
  calls : r.2.all ok = true

theorem Beside.aside {ok : Call → Bool} {w : Bsc} {r : Bsc × List Call} (h : Beside ok w r) :
    Aside ok w r := ⟨h.clear.picks,h.calls⟩

theorem gsconForgetMgwEndpoint_clear : Clear w (gsconForgetMgwEndpoint c w) := by
  unfold gsconForgetMgwEndpoint unlessNull lchanForgetMgwEndpoint
  repeat' split
  all_goals simp

theorem osmoMgcpcEpCiDlcx_clear (ci : Ci) : Clear w (osmoMgcpcEpCiDlcx x ci w) := by
  unfold osmoMgcpcEpCiDlcx
  dsimp only
  split
  · exact Keeps.trans (by simp) (gsconForgetMgwEndpoint_clear _ _)
  · simp

theorem rtpWaitMgwEndpointAvailableOnenter_beside :
    Ensures (Beside Call.calm w) (rtpWaitMgwEndpointAvailableOnenter x l w) := by
  unfold rtpWaitMgwEndpointAvailableOnenter
  split
  · exact ensures_ok.mpr ⟨.refl w,rfl⟩
  · split
    · exact ensures_error
    · refine Ensures.bind fun k _ => ?_
      split
      · exact ensures_ok.mpr ⟨.refl w,rfl⟩
      · exact ensures_ok.mpr ⟨by simp,rfl⟩

theorem rtpWaitMgwEndpointConfiguredOnenter_beside :
    Ensures (Beside Call.calm w) (rtpWaitMgwEndpointConfiguredOnenter x l w) := by
  unfold rtpWaitMgwEndpointConfiguredOnenter rtpUnlessReleased connectMgwEndpointToLchan
  extract_lets w1
  have hw1 : Clear w w1 := by
    dsimp only [w1]
    split <;> simp
  repeat' split
  · exact ensures_ok.mpr ⟨.refl w,rfl⟩
  · exact ensures_ok.mpr ⟨hw1,rfl⟩
  · exact ensures_ok.mpr ⟨hw1,rfl⟩
  · exact ensures_ok.mpr ⟨by simpa using hw1,rfl⟩

theorem rtpOnenter_beside (st : RtpState) : Ensures (Beside Call.calm w) (rtpOnenter cfg x l st w) := by
  unfold rtpOnenter
  split
  · exact rtpWaitMgwEndpointAvailableOnenter_beside x l w
  · unfold lchanRtpFsmPostLchanReady lchanRtpFsmSwitchRtp
    repeat' split
    all_goals exact ensures_ok.mpr ⟨.refl w,rfl⟩
  · unfold rtpUnlessReleased
    repeat' split
    all_goals exact ensures_ok.mpr ⟨.refl w,rfl⟩
  · unfold rtpUnlessReleased
    repeat' split
    all_goals exact ensures_ok.mpr ⟨.refl w,rfl⟩
  · exact ensures_ok.mpr ⟨.refl w,rfl⟩
  · exact rtpWaitMgwEndpointConfiguredOnenter_beside x l w
  · exact ensures_ok.mpr ⟨.refl w,rfl⟩
  · unfold rtpRollbackOnenter connectMgwEndpointToLchan
    repeat' split
    all_goals exact ensures_ok.mpr ⟨by simp,rfl⟩
  · exact ensures_ok.mpr ⟨by simp,rfl⟩

theorem rtpStateChg_beside (st : RtpState) : Ensures (Beside Call.calm w) (rtpStateChg cfg x l st w) := by
  unfold rtpStateChg
  split
  · exact ensures_error
  · split
    · exact (rtpOnenter_beside cfg x l _ st).mono fun r h => ⟨Keeps.trans (by simp) h.clear,h.calls⟩
    · exact ensures_ok.mpr ⟨.refl w,rfl⟩

theorem lchanRtpFsmStart_beside : Ensures (Beside Call.calm w) (lchanRtpFsmStart cfg x l w) := by
  unfold lchanRtpFsmStart
  split
  · exact ensures_ok.mpr ⟨.refl w,rfl⟩
  · split
    · exact ensures_error
    · exact (rtpStateChg_beside cfg x l _ _).mono fun r h => ⟨Keeps.trans (by simp) h.clear,h.calls⟩

theorem rtpDispatch_beside (ev : RtpEvent) : Ensures (Beside Call.calm w) (rtpDispatch cfg l ev w) := by
  unfold rtpDispatch rtpWaitMgwEndpointAvailable rtpWaitLchanReady rtpWaitIpaccCrcxAck
    rtpWaitIpaccMdcxAck rtpWaitReadyToSwitchRtp rtpWaitMgwEndpointConfigured rtpReady rtpRollback
    rtpEstablished lchanRtpFsmPostLchanReady lchanRtpFsmSwitchRtp rtpNoteReadyToSwitch
  repeat' split
  all_goals first | exact ensures_error | exact ensures_ok.mpr ⟨by simp,rfl⟩

theorem rtpTimeout_beside : Ensures (Beside Call.calm w) (rtpTimeout l w) := by
  unfold rtpTimeout
  split <;> exact ensures_ok.mpr ⟨by simp,rfl⟩

theorem rtpTerm_beside : Ensures (Beside Call.calm w) (rtpTerm x l w) := by
  unfold rtpTerm
  split
  · exact ensures_error
  · refine ensures_ok.mpr ⟨?_,rfl⟩
    split
    · simp
    · simpa using osmoMgcpcEpCiDlcx_clear x w _

theorem lchanSelectable_unused {type : ChanT} {l : LchanId}
    (h : lchanSelectable w type l = true) : (w.lchan l).fi = some .unused := by
  unfold lchanSelectable at h
  dsimp only at h
  split at h
  · cases h
  · simp only [Bool.and_eq_true,beq_iff_eq] at h
    exact h.2

theorem lchanSelectByType_picks (sel : Select) (type : ChanT) :
    Picks w (lchanSelectByType sel type w).2 := by
  unfold lchanSelectByType
  repeat' split
  · exact Clear.picks (.refl w)
  · rename_i h
    exact Bsc.updLchan_picks (f := ({ · with type := type })) (lchanSelectable_unused w h)
      fun _ => rfl
  · exact Clear.picks (.refl w)

theorem lchanSelectByChanMode_picks (sel : Select) (m : ChannelModeAndRate) :
    Picks w (lchanSelectByChanMode sel m w).2 := by
  unfold lchanSelectByChanMode
  split
  · exact Clear.picks (.refl w)
  · exact lchanSelectByType_picks w sel _

theorem assignmentSelect_picks (sel : Select) (req : List ChannelModeAndRate) (w : Bsc) :
    Picks w (assignmentSelect sel req w).2 := by
  induction req generalizing w with
  | nil => exact Clear.picks (.refl w)
  | cons m ms ih =>
    have hm := lchanSelectByChanMode_picks w sel m
    unfold assignmentSelect
    split
    · rename_i h
      rw [h] at hm
      exact hm
    · rename_i h
      rw [h] at hm
      exact hm.trans (ih _)

theorem onAssignmentFailure_beside (k : Conn) :
    Beside Call.calm w (onAssignmentFailure c k w) := by
  refine ⟨by simp [onAssignmentFailure],?_⟩
  unfold onAssignmentFailure
  split <;> rfl

theorem sendAssignmentComplete_beside :
    Ensures (Beside Call.calm w) (sendAssignmentComplete x c w) := by
  refine Ensures.bind fun k _ => ?_
  repeat' split
  · exact ensures_error
  · exact ensures_ok.mpr (onAssignmentFailure_beside c w k)
  · exact ensures_ok.mpr ⟨by simp,rfl⟩

theorem gsconConnectMgwToMsc_clear {k : Conn} {r : Option Ci × Bsc}
    (h : gsconConnectMgwToMsc x c k w = some r) : Clear w r.2 := by
  unfold gsconConnectMgwToMsc at h
  repeat' split at h
  all_goals
    cases h
    try split
    all_goals simp

theorem assignmentOnenter_beside (k : Conn) (st : AssignmentState) :
    Ensures (Beside Call.calm w) (assignmentOnenter x c k st w) := by
  unfold assignmentOnenter
  split
  · exact ensures_ok.mpr ⟨.refl w,rfl⟩
  · repeat' split
    · exact ensures_ok.mpr (onAssignmentFailure_beside c w k)
    · exact ensures_ok.mpr ⟨.refl w,rfl⟩
    · exact ensures_error
  · unfold assignmentPostLchanEstablished
    repeat' split
    all_goals first | exact ensures_error | exact ensures_ok.mpr ⟨.refl w,rfl⟩
  · unfold assignmentWaitMgwEndpointToMscOnenter
    repeat' split
    · exact ensures_error
    · exact ensures_ok.mpr ⟨by simp,rfl⟩
    · exact ensures_error
    · exact ensures_ok.mpr (onAssignmentFailure_beside c w k)
    · rename_i h
      exact ensures_ok.mpr ⟨by simpa using gsconConnectMgwToMsc_clear x c w h,rfl⟩

theorem assignmentStateChg_beside (st : AssignmentState) :
    Ensures (Beside Call.calm w) (assignmentStateChg x c st w) := by
  refine Ensures.bind fun k _ => ?_
  split
  · exact ensures_error
  · split
    · exact (assignmentOnenter_beside x c _ _ st).mono fun r h =>
        ⟨Keeps.trans (by simp) h.clear,h.calls⟩
    · exact ensures_ok.mpr ⟨.refl w,rfl⟩

theorem assignmentDispatch_beside (ev : AssignmentEvent) :
    Ensures (Beside Call.calm w) (assignmentDispatch x c ev w) := by
  refine Ensures.bind fun k _ => ?_
  split
  · exact ensures_ok.mpr ⟨.refl w,rfl⟩
  · split
    · unfold assignmentAllstate
      repeat' split
      all_goals
        first
        | exact ensures_ok.mpr (onAssignmentFailure_beside c w k)
        | exact ensures_ok.mpr ⟨.refl w,rfl⟩
    · unfold assignmentAction assignmentPostLchanEstablished
      repeat' split
      all_goals
        first
        | exact ensures_error
        | exact assignmentStateChg_beside x c w _
        | exact ensures_ok.mpr (onAssignmentFailure_beside c w k)
        | exact ensures_ok.mpr ⟨.refl w,rfl⟩
    · exact ensures_ok.mpr ⟨.refl w,rfl⟩

theorem assignmentTimeout_beside : Ensures (Beside Call.calm w) (assignmentTimeout c w) := by
  refine Ensures.bind fun k _ => ?_
  split
  · exact ensures_ok.mpr (onAssignmentFailure_beside c w k)
  · exact ensures_ok.mpr ⟨.refl w,rfl⟩

theorem assignmentTerm_beside (parent : Bool) :
    Ensures (Beside Call.calm w) (assignmentTerm c parent w) := by
  refine Ensures.bind fun k _ => ?_
  split
  · exact ensures_error
  · exact ensures_ok.mpr ⟨.refl w,rfl⟩

theorem assignmentReset_beside : Ensures (Beside Call.calm w) (assignmentReset c w) := by
  refine Ensures.bind fun k _ => ?_
  split <;> exact ensures_ok.mpr ⟨by simp,rfl⟩

theorem assignmentResetRest_beside : Ensures (Beside Call.calm w) (assignmentResetRest x c w) := by
  refine Ensures.bind fun k _ => ensures_ok.mpr ⟨?_,rfl⟩
  split
  · simp
  · refine keeps_updConn.mpr ?_
    exact Keeps.trans (by simp [gsconForgetMgwEndpointCi]) (osmoMgcpcEpCiDlcx_clear x _ _)

theorem assignmentCleanupRest_beside (parent : Bool) :
    Ensures (Beside Call.calm w) (assignmentCleanupRest c parent w) := by
  refine Ensures.bind fun k _ => ensures_ok.mpr ⟨by simp,?_⟩
  split <;> rfl

theorem assignmentSuccess_beside : Ensures (Beside Call.calm w) (assignmentSuccess c w) :=
  Ensures.bind fun _ _ => ensures_ok.mpr ⟨.refl w,rfl⟩

theorem assignmentSuccessSend_beside :
    Ensures (Beside Call.calm w) (assignmentSuccessSend x c w) := by
  refine Ensures.bind fun k _ => Ensures.bind fun r hr => ensures_ok.mpr ?_
  have h := sendAssignmentComplete_beside x c _ r hr
  exact ⟨Keeps.trans (by simp) h.clear,by simp [h.calls,Call.calm,Call.activates]⟩

theorem assignmentSuccessRest_beside : Ensures (Beside Call.calm w) (assignmentSuccessRest c w) := by
  refine Ensures.bind fun k _ => ?_
  split
  · refine ensures_ok.mpr ⟨.refl w,?_⟩
    split <;> rfl
  · exact ensures_ok.mpr ⟨by simp,rfl⟩

theorem assignmentStartReuseRest_beside :
    Ensures (Beside Call.calm w) (assignmentStartReuseRest c w) := by
  refine Ensures.bind fun k _ => ensures_ok.mpr ⟨.refl w,?_⟩
  split <;> rfl

theorem Aside.starting {w : Bsc} {r : Bsc × List Call} (h : Aside Call.calm w r) :
    Aside Call.starting w r := by
  refine ⟨h.picks,?_⟩
  rw [List.all_eq_true]
  intro call hcall
  simp [Call.starting,List.all_eq_true.mp h.calls call hcall]

theorem assignmentStart_aside (sel : Select) (req : List ChannelModeAndRate) :
    Ensures (Aside Call.starting w) (assignmentStart x c sel req w) := by
  refine Ensures.bind fun k _ => ?_
  split
  · exact ensures_error
  · extract_lets w1 k1
    have hw1 : Clear w w1 := by simp [w1]
    have hfail : Aside Call.starting w (onAssignmentFailure c k1 w1) := by
      have h := (onAssignmentFailure_beside c w1 k1).aside.starting
      exact ⟨hw1.picks.trans h.picks,h.calls⟩
    split
    · exact ensures_ok.mpr hfail
    · split
      · exact ensures_ok.mpr hfail
      · exact ensures_error
    · extract_lets w2
      have hw2 : Picks w w2 := Clear.picks (by simp [w1,w2])
      split
      · refine Ensures.bind fun r hr => ensures_ok.mpr ?_
        have h := (sendAssignmentComplete_beside x c _ r hr).aside
        refine ⟨hw2.trans h.picks,?_⟩
        simp [h.starting.calls,Call.starting,Call.calm,Call.activates]
      · have hsel := assignmentSelect_picks sel req w2
        split
        · rename_i w3 h
          rw [h] at hsel
          have hf := (onAssignmentFailure_beside c w3 k1).aside.starting
          exact ensures_ok.mpr ⟨(hw2.trans hsel).trans hf.picks,hf.calls⟩
        · rename_i h
          rw [h] at hsel
          exact ensures_ok.mpr ⟨(hw2.trans hsel).trans (Clear.picks (by simp)),rfl⟩

theorem handoverReset_clear (k : Conn) : Clear w (handoverReset x c k w) := by
  unfold handoverReset
  dsimp only
  split
  · simp
  · refine keeps_updConn.mpr ?_
    exact Keeps.trans (by simp [gsconForgetMgwEndpointCi]) (osmoMgcpcEpCiDlcx_clear x _ _)

theorem handoverStart_beside (newType : ChanT) (target : HoTarget) :
    Ensures (Beside Call.starting w) (handoverStart c newType target w) := by
  refine Ensures.bind fun k _ => ?_
  split
  · exact ensures_ok.mpr ⟨.refl w,rfl⟩
  · refine ensures_ok.mpr ⟨.refl w,?_⟩
    split <;> rfl

theorem handoverStartIntraBsc_aside (k : Conn) (type : ChanT) (sameCell : Bool) (sel : Select) :
    Ensures (Aside Call.starting w) (handoverStartIntraBsc c k type sameCell sel w) := by
  unfold handoverStartIntraBsc
  split
  · exact ensures_error
  · split
    · exact ensures_error
    · extract_lets w1
      have hsel := lchanSelectByType_picks w1 sel type
      have hw1 : Picks w w1 := Clear.picks (by simp [w1])
      split
      · rename_i h
        rw [h] at hsel
        exact ensures_ok.mpr ⟨hw1.trans hsel,rfl⟩
      · rename_i h
        rw [h] at hsel
        exact ensures_ok.mpr ⟨(hw1.trans hsel).trans (Clear.picks (by simp)),rfl⟩

theorem handoverStartReset_aside (newType : ChanT) (target : HoTarget) :
    Ensures (Aside Call.starting w) (handoverStartReset x c newType target w) := by
  refine Ensures.bind fun k _ => ?_
  split
  · exact ensures_error
  · extract_lets w1 type w2
    have hw1 : Clear w w1 := by
      simp only [w1,keeps_updConn]
      exact handoverReset_clear x c w k
    split
    · exact (handoverStartIntraBsc_aside c w1 k type _ _).mono fun r h =>
        ⟨hw1.picks.trans h.picks,h.calls⟩
    · split <;> exact ensures_ok.mpr ⟨Clear.picks (by simpa [w2] using hw1),rfl⟩
    · exact ensures_ok.mpr ⟨hw1.picks,rfl⟩

theorem handoverStartInterBscIn_aside (sel : Select) (req : Option ChannelModeAndRate) :
    Ensures (Aside Call.starting w) (handoverStartInterBscIn x c sel req w) := by
  refine Ensures.bind fun k _ => ?_
  split
  · exact ensures_error
  · extract_lets w1
    have hw1 : Picks w w1 := Clear.picks (by simp [w1])
    split
    · exact ensures_ok.mpr ⟨hw1,rfl⟩
    · rename_i m
      have hsel := lchanSelectByChanMode_picks w1 sel m
      split
      · rename_i h
        rw [h] at hsel
        exact ensures_ok.mpr ⟨hw1.trans hsel,rfl⟩
      · rename_i h
        rw [h] at hsel
        dsimp only
        split <;> exact ensures_ok.mpr ⟨(hw1.trans hsel).trans (Clear.picks (by simp)),rfl⟩

theorem handoverEnd_beside (result : HoResult) :
    Ensures (Beside Call.calm w) (handoverEnd x c result w) := by
  refine Ensures.bind fun k _ => ?_
  extract_lets result1 result2 w1
  have hw1 : Clear w w1 := by
    dsimp only [w1]
    repeat' split
    all_goals simp
  clear_value w1 result2 result1
  split
  · exact ensures_ok.mpr ⟨hw1,rfl⟩
  · repeat' split
    all_goals first | exact ensures_error | exact ensures_ok.mpr ⟨by simp,rfl⟩
  · exact ensures_ok.mpr ⟨.refl w,rfl⟩

theorem sendHandoverPerformed_clear (k : Conn) :
    Ensures (Clear w) (sendHandoverPerformed x c k w) := by
  unfold sendHandoverPerformed
  repeat' split
  all_goals simp

theorem handoverEndChange_beside (result : HoResult) :
    Ensures (Beside Call.calm w) (handoverEndChange x c result w) := by
  refine Ensures.bind fun k _ => ?_
  split
  · dsimp only
    split
    · refine Ensures.bind fun w1 h1 => ensures_ok.mpr ⟨?_,?_⟩
      · exact Keeps.trans (by simp) (sendHandoverPerformed_clear x c _ k w1 h1)
      · split <;> rfl
    · refine ensures_ok.mpr ⟨by simp,?_⟩
      split <;> rfl
  · exact ensures_ok.mpr ⟨.refl w,rfl⟩

theorem handoverEndNotify_beside (result : HoResult) :
    Ensures (Beside Call.calm w) (handoverEndNotify c result w) := by
  refine Ensures.bind fun k _ => ensures_ok.mpr ⟨?_,rfl⟩
  split <;> simp

theorem handoverEndRelease_beside : Ensures (Beside Call.calm w) (handoverEndRelease c w) := by
  refine Ensures.bind fun k _ => ensures_ok.mpr ⟨.refl w,?_⟩
  split <;> rfl

theorem handoverEndRest_beside : Ensures (Beside Call.calm w) (handoverEndRest x c w) := by
  refine Ensures.bind fun k _ => ?_
  split
  · exact ensures_error
  · refine ensures_ok.mpr ⟨?_,rfl⟩
    refine keeps_updConn.mpr ?_
    exact Keeps.trans (by simp) (handoverReset_clear x c _ k)

theorem hoOnenter_beside (k : Conn) (st : HoState) :
    Ensures (Beside Call.calm w) (hoOnenter x c k st w) := by
  unfold hoOnenter hoWaitMgwEndpointToMscOnenter hoWaitRrHoDetectOnenter
  repeat' split
  all_goals
    first
    | exact ensures_error
    | exact ensures_ok.mpr ⟨.refl w,rfl⟩
    | exact ensures_ok.mpr ⟨keeps_updConn.mpr (.refl w),rfl⟩
    | rename_i h
      exact ensures_ok.mpr ⟨keeps_updConn.mpr (gsconConnectMgwToMsc_clear x c w h),rfl⟩

theorem hoStateChg_beside (st : HoState) : Ensures (Beside Call.calm w) (hoStateChg x c st w) := by
  refine Ensures.bind fun k _ => ?_
  split
  · exact ensures_error
  · split
    · exact (hoOnenter_beside x c _ _ st).mono fun r h => ⟨Keeps.trans (by simp) h.clear,h.calls⟩
    · exact ensures_ok.mpr ⟨.refl w,rfl⟩

theorem hoDispatch_beside (ev : HoEvent) : Ensures (Beside Call.calm w) (hoDispatch x c ev w) := by
  refine Ensures.bind fun k _ => ?_
  split
  · exact ensures_ok.mpr ⟨.refl w,rfl⟩
  · split
    · unfold hoAllstate
      split <;> first | exact ensures_error | exact ensures_ok.mpr ⟨.refl w,rfl⟩
    · unfold hoAction hoSwitchRtp
      repeat' split
      all_goals
        first
        | exact ensures_error
        | exact hoStateChg_beside x c w _
        | exact ensures_ok.mpr ⟨.refl w,rfl⟩
    · exact ensures_ok.mpr ⟨.refl w,rfl⟩

theorem hoTimeout_beside : Ensures (Beside Call.calm w) (hoTimeout c w) := by
  refine Ensures.bind fun k _ => ?_
  split <;> exact ensures_ok.mpr ⟨.refl w,rfl⟩

end Aside

end OsmoBsc.Chan
