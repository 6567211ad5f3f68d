import OsmoBsc.Chan.Procedures
set_option autoImplicit false

namespace OsmoBsc.Chan
open EventFsm

/-- The handover of a connection: the state of its FSM and its scope. -/
def Conn.ho (k : Conn) : Option HoState × HoScope := (k.hoFi,k.hoScope)

def Bsc.ho (w : Bsc) (c : ConnId) : Option (Option HoState × HoScope) := (w.conn c).map Conn.ho

/-- The calls that do not end a handover well, and the events that are never raised. -/
def Call.mute : Call → Bool
  | .handoverEnd _ result | .handoverEndChange _ result => result != .ok
  | .hoDispatch _ ev => match ev with
    | .connReleasing => false
    | _ => true
  | .hoStateChg _ st => match st with
    | .waitRrHoDetect | .waitRrHoComplete | .waitLchanEstablished => true
    | _ => false
  | _ => true

structure HoStep (w : Bsc) (r : Bsc × List Call) : Prop where
  ho : r.1.ho = w.ho
  calls : r.2.all Call.mute = true

section HoFrame

variable {w w1 : Bsc} {c : ConnId} {l : LchanId} {x : Foreign}

@[simp] theorem Bsc.ho_updLchan (f : Lchan → Lchan) : (w.updLchan l f).ho = w.ho := rfl
@[simp] theorem Bsc.ho_send (m : Tx) : (w.send m).ho = w.ho := rfl

theorem Bsc.ho_updConn {f : Conn → Conn} (h : w1.ho = w.ho) (hf : ∀ k, (f k).ho = k.ho) :
    (w1.updConn c f).ho = w.ho := by
  rw [← h]
  funext c'
  rcases eq_or_ne c' c with rfl | hne
  · simp only [Bsc.ho,Bsc.updConn_self,Option.map_map]
    cases w1.conn c' with
    | none => rfl
    | some k => exact congrArg some (hf k)
  · simp only [Bsc.ho,Bsc.updConn_ne w1 f hne]

theorem Bsc.ho_of_mscView (h : w1.mscView = w.mscView) : w1.ho = w.ho := by
  funext c
  have hc := congrFun (congrArg Prod.fst h) c
  simp only [Bsc.mscView] at hc
  have hmap : ∀ o : Option Conn, o.map Conn.ho = (o.map Conn.core).map Conn.ho := fun o => by
    cases o <;> rfl
  simp only [Bsc.ho]
  rw [hmap,hmap (w.conn c),hc]

theorem gsconForgetLchan_ho (h : gsconForgetLchan c l w = .ok w1) : w1.ho = w.ho := by
  obtain ⟨k,hk,-⟩ := bind_eq_ok.mp h
  rw [gsconForgetLchan_eq l (getConn_eq hk)] at h
  cases h
  split
  · exact Bsc.ho_updConn rfl fun _ => rfl
  · exact Bsc.ho_updConn rfl fun _ => rfl

theorem Detached.ho (h : Detached w w1) : w1.ho = w.ho := by
  rcases h with h | ⟨c,l,w2,hf,h⟩
  · exact Bsc.ho_of_mscView h
  · exact (Bsc.ho_of_mscView h).trans (gsconForgetLchan_ho hf)

theorem Call.fromLchan_mute {call : Call} (h : call.fromLchan = true) : call.mute = true := by
  cases call with
  | hoDispatch c ev => cases ev <;> first | rfl | cases h
  | handoverEnd | handoverEndChange | hoStateChg => cases h
  | _ => rfl

theorem LchanStep.ho {r : Bsc × List Call} (h : LchanStep w r) : HoStep w r := by
  refine ⟨h.state.ho,List.all_eq_true.mpr fun call hcall => ?_⟩
  exact Call.fromLchan_mute (List.all_eq_true.mp h.calls call hcall)

theorem unlessNull_ho {f : LchanId → Bsc → Bsc} (hf : ∀ l w, (f l w).ho = w.ho) (l : Option LchanId) :
    (unlessNull f l w).ho = w.ho := by
  cases l with
  | none => rfl
  | some l => exact hf l w

theorem gsconForgetMgwEndpoint_ho : (gsconForgetMgwEndpoint c w).ho = w.ho := by
  unfold gsconForgetMgwEndpoint
  split
  · rfl
  · dsimp only
    have hf : ∀ l w, (lchanForgetMgwEndpoint l w).ho = w.ho := fun _ _ => rfl
    rw [unlessNull_ho hf,unlessNull_ho hf,unlessNull_ho hf]
    exact Bsc.ho_updConn rfl fun _ => rfl

theorem releaseCi_ho (ci : Option Ci) : Bsc.ho (match ci with
    | none => w
    | some ci => osmoMgcpcEpCiDlcx x ci (gsconForgetMgwEndpointCi c ci w)) = w.ho := by
  split
  · rfl
  · unfold osmoMgcpcEpCiDlcx gsconForgetMgwEndpointCi
    dsimp only
    split
    · rw [gsconForgetMgwEndpoint_ho]
      exact Bsc.ho_updConn rfl fun _ => rfl
    · exact Bsc.ho_updConn rfl fun _ => rfl

theorem osmoMgcpcEpClear_ho : (osmoMgcpcEpClear c w).ho = w.ho := by
  unfold osmoMgcpcEpClear
  repeat' split
  · exact gsconForgetMgwEndpoint_ho
  · rfl
  · rfl

theorem connStateChg_ho (k : Conn) (st : ConnState) : (connStateChg c k st w).ho = w.ho := by
  unfold connStateChg
  repeat' split
  · exact Bsc.ho_updConn rfl fun _ => rfl
  · exact Bsc.ho_updConn rfl fun _ => rfl
  · rfl

theorem gsconSigtranSend_ho (k : Conn) (m : Tx) : (gsconSigtranSend k m w).ho = w.ho := by
  unfold gsconSigtranSend
  split <;> rfl

theorem gsm0808SendRslDtap_ho (k : Conn) : (gsm0808SendRslDtap x c k w).ho = w.ho := by
  unfold gsm0808SendRslDtap
  split
  · rw [connStateChg_ho,gsconSigtranSend_ho]
  · rfl

theorem gsconConnectMgwToMsc_ho {k : Conn} {r : Option Ci × Bsc}
    (h : gsconConnectMgwToMsc x c k w = some r) : r.2.ho = w.ho := by
  unfold gsconConnectMgwToMsc at h
  split at h
  · split at h
    · cases h
    · cases h
      dsimp only
      split <;> rfl
  · split at h
    · cases h
    · cases h
      exact Bsc.ho_updConn rfl fun _ => rfl

end HoFrame

section HoSteps

variable (x : Foreign) (c : ConnId) (l : LchanId) (w : Bsc)

theorem HoStep.same (calls : List Call) (h : calls.all Call.mute = true) : HoStep w (w,calls) := ⟨rfl,h⟩

theorem onAssignmentFailure_ho (k : Conn) : HoStep w (onAssignmentFailure c k w) := by
  unfold onAssignmentFailure
  refine ⟨rfl,?_⟩
  dsimp only
  split <;> rfl

theorem sendAssignmentComplete_ho : Ensures (HoStep w) (sendAssignmentComplete x c w) := by
  refine Ensures.bind fun k _ => ?_
  split
  · exact ensures_error
  · split
    · exact ensures_ok.mpr (onAssignmentFailure_ho c w k)
    · exact ensures_ok.mpr ⟨rfl,rfl⟩

theorem HoStep.after {w w1 : Bsc} {r : Bsc × List Call} (h : w1.ho = w.ho) (hr : HoStep w1 r) : HoStep w r :=
  ⟨hr.ho.trans h,hr.calls⟩

theorem assignmentOnenter_ho (k : Conn) (st : AssignmentState) :
    Ensures (HoStep w) (assignmentOnenter x c k st w) := by
  unfold assignmentOnenter assignmentWaitMgwEndpointToMscOnenter assignmentPostLchanEstablished
  repeat' split
  all_goals
    first
    | exact ensures_error
    | exact ensures_ok.mpr ⟨rfl,rfl⟩
    | exact ensures_ok.mpr (onAssignmentFailure_ho c w k)
    | exact ensures_ok.mpr ⟨Bsc.ho_updConn rfl fun _ => rfl,rfl⟩
    | rename_i h
      exact ensures_ok.mpr ⟨Bsc.ho_updConn (gsconConnectMgwToMsc_ho h) fun _ => rfl,rfl⟩

theorem assignmentStateChg_ho (st : AssignmentState) :
    Ensures (HoStep w) (assignmentStateChg x c st w) := by
  refine Ensures.bind fun k _ => ?_
  split
  · exact ensures_error
  · split
    · exact (assignmentOnenter_ho x c _ _ st).mono fun r => .after (Bsc.ho_updConn rfl fun _ => rfl)
    · exact ensures_ok.mpr ⟨rfl,rfl⟩

theorem assignmentDispatch_ho (ev : AssignmentEvent) :
    Ensures (HoStep w) (assignmentDispatch x c ev w) := by
  refine Ensures.bind fun k _ => ?_
  unfold assignmentAllstate assignmentAction assignmentPostLchanEstablished
  repeat' split
  all_goals
    first
    | exact ensures_error
    | exact ensures_ok.mpr ⟨rfl,rfl⟩
    | exact ensures_ok.mpr (onAssignmentFailure_ho c w k)
    | exact assignmentStateChg_ho x c w _

theorem assignmentStart_ho (sel : Select) (req : List ChannelModeAndRate) :
    Ensures (HoStep w) (assignmentStart x c sel req w) := by
  refine Ensures.bind fun k _ => ?_
  split
  · exact ensures_error
  · dsimp only
    have h1 : (w.updConn c ({ · with assignmentFi := some .waitLchanActive })).ho = w.ho :=
      Bsc.ho_updConn rfl fun _ => rfl
    split
    · exact ensures_ok.mpr (.after h1 (onAssignmentFailure_ho ..))
    · split
      · exact ensures_ok.mpr (.after h1 (onAssignmentFailure_ho ..))
      · exact ensures_error
    · rename_i voice old _ _
      have h2 : ((w.updConn c ({ · with assignmentFi := some .waitLchanActive })).updConn c
          ({ · with assignmentRequiresVoiceStream := voice })).ho = w.ho :=
        Bsc.ho_updConn h1 fun _ => rfl
      split
      · refine Ensures.bind fun r hr => ensures_ok.mpr ?_
        have hs := sendAssignmentComplete_ho x c _ r hr
        refine ⟨hs.ho.trans h2,?_⟩
        rw [List.all_append,hs.calls]
        rfl
      · have hsel := assignmentSelect_conn sel req
          ((w.updConn c ({ · with assignmentFi := some .waitLchanActive })).updConn c
            ({ · with assignmentRequiresVoiceStream := voice }))
        split
        all_goals
          rename_i hs
          rw [hs] at hsel
        · refine ensures_ok.mpr (.after ?_ (onAssignmentFailure_ho ..))
          exact (congrArg (fun f c => (f c).map Conn.ho) hsel).trans h2
        · refine ensures_ok.mpr ⟨Bsc.ho_updConn ?_ fun _ => rfl,rfl⟩
          exact (congrArg (fun f c => (f c).map Conn.ho) hsel).trans h2

theorem assignmentSuccessSend_ho : Ensures (HoStep w) (assignmentSuccessSend x c w) := by
  refine Ensures.bind fun k _ => Ensures.bind fun r hr => ensures_ok.mpr ?_
  have hs := sendAssignmentComplete_ho x c _ r hr
  refine ⟨hs.ho.trans (Bsc.ho_updConn rfl fun _ => rfl),?_⟩
  rw [List.all_append,hs.calls]
  rfl

theorem handoverEndChange_ho (result : HoResult) :
    Ensures (HoStep w) (handoverEndChange x c result w) := by
  refine Ensures.bind fun k _ => ?_
  split
  · dsimp only
    have h1 : (w.updConn c ({ · with hoCreatedCiForMsc := none })).ho = w.ho :=
      Bsc.ho_updConn rfl fun _ => rfl
    split
    · refine Ensures.bind fun w1 hw1 => ensures_ok.mpr ⟨?_,by cases k.hoNewLchan <;> rfl⟩
      unfold sendHandoverPerformed at hw1
      split at hw1
      · cases hw1
      · split at hw1
        · cases hw1
          exact h1
        · cases hw1
      · cases hw1
        dsimp only
        split
        · exact h1
        · exact h1
    · exact ensures_ok.mpr ⟨h1,by cases k.hoNewLchan <;> rfl⟩
  · exact ensures_ok.mpr ⟨rfl,rfl⟩

theorem connDispatch_ho (ev : ConnEvent) : Ensures (HoStep w) (connDispatch x c ev w) := by
  refine Ensures.bind fun k _ => ?_
  split
  · unfold gsconFsmAllstate
    split
    · refine ensures_ok.mpr ⟨?_,rfl⟩
      dsimp only
      split
      · exact connStateChg_ho k .clearing
      · rfl
    · exact ensures_ok.mpr ⟨rfl,rfl⟩
    · exact ensures_ok.mpr ⟨gsconForgetMgwEndpoint_ho,rfl⟩
    · refine ensures_ok.mpr ⟨?_,rfl⟩
      dsimp only
      split <;> rfl
    · exact ensures_error
  · exact ensures_ok.mpr ⟨rfl,rfl⟩
  · split
    · unfold gsconFsmInit
      repeat' split
      all_goals
        first
        | exact ensures_error
        | exact ensures_ok.mpr ⟨rfl,rfl⟩
        | exact ensures_ok.mpr ⟨connStateChg_ho k _,rfl⟩
    · exact ensures_ok.mpr ⟨connStateChg_ho k _,rfl⟩
    · unfold gsconFsmActive
      repeat' split
      all_goals
        first
        | exact ensures_error
        | exact ensures_ok.mpr ⟨rfl,rfl⟩
        | exact ensures_ok.mpr ⟨connStateChg_ho k _,rfl⟩
        | exact ensures_ok.mpr ⟨gsconSigtranSend_ho k _,rfl⟩
    all_goals
      first
      | exact ensures_ok.mpr ⟨rfl,rfl⟩
      | unfold gsconFsmProcedure
        repeat' split
        all_goals
          first
          | exact ensures_error
          | exact ensures_ok.mpr ⟨rfl,rfl⟩
          | exact ensures_ok.mpr ⟨connStateChg_ho k _,rfl⟩
          | exact ensures_ok.mpr ⟨gsconSigtranSend_ho k _,rfl⟩

theorem gsconChangePrimaryLchan_ho (new : Option LchanId) :
    Ensures (HoStep w) (gsconChangePrimaryLchan c new w) := by
  refine Ensures.bind fun k _ => ?_
  split
  · exact ensures_error
  · refine ensures_ok.mpr ⟨?_,?_⟩
    · rw [Bsc.ho_updLchan]
      exact Bsc.ho_updConn rfl fun _ => rfl
    · dsimp only
      repeat' split
      all_goals rfl

theorem gsconReleaseLchan_ho (doRrRelease err : Bool) :
    Ensures (HoStep w) (gsconReleaseLchan c l doRrRelease err w) := by
  refine Ensures.bind fun k _ => ensures_ok.mpr ⟨?_,rfl⟩
  refine Bsc.ho_updConn ?_ fun _ => rfl
  split <;> rfl

theorem gsconLchanReleasingRest_ho : Ensures (HoStep w) (gsconLchanReleasingRest c l w) := by
  refine Ensures.bind fun k _ => ?_
  dsimp only
  have hw : (if k.lchan = some l then (lchanForgetConn l w).updConn c ({ · with lchan := none })
      else w).ho = w.ho := by
    split
    · exact Bsc.ho_updConn rfl fun _ => rfl
    · rfl
  split
  · refine ensures_ok.mpr ⟨?_,rfl⟩
    change (gsconBssmapClear c _).ho = w.ho
    unfold gsconBssmapClear
    rw [Bsc.ho_send]
    split
    · rw [connStateChg_ho]
      exact hw
    · exact hw
  · exact ensures_ok.mpr ⟨hw,rfl⟩

theorem gsconDtapQueueFlush_ho : Ensures (HoStep w) (gsconDtapQueueFlush x c w) := by
  refine Ensures.bind fun k _ => ?_
  split
  · exact ensures_ok.mpr ⟨rfl,rfl⟩
  · refine ensures_ok.mpr ⟨?_,rfl⟩
    rw [gsm0808SendRslDtap_ho]
    exact Bsc.ho_updConn rfl fun _ => rfl

theorem gsconSubmitRslDtap_ho : Ensures (HoStep w) (gsconSubmitRslDtap x c w) := by
  refine Ensures.bind fun k _ => ?_
  repeat' split
  · exact ensures_ok.mpr ⟨gsm0808SendRslDtap_ho k,rfl⟩
  · exact ensures_ok.mpr ⟨rfl,rfl⟩
  · exact ensures_ok.mpr ⟨Bsc.ho_updConn rfl fun _ => rfl,rfl⟩

theorem bssmapHandleAssignmReq_ho (sel : Select) (req : AssignmReq) :
    Ensures (HoStep w) (bssmapHandleAssignmReq c sel req w) := by
  refine Ensures.bind fun k _ => Ensures.bind fun r _ => ?_
  split
  · exact ensures_ok.mpr ⟨rfl,rfl⟩
  · exact ensures_ok.mpr ⟨rfl,rfl⟩

theorem dispatchDtap_ho (msg : L3Msg) : Ensures (HoStep w) (dispatchDtap x c msg w) := by
  refine Ensures.bind fun k _ => ?_
  unfold bscDtap
  repeat' split
  all_goals
    first
    | exact ensures_error
    | exact ensures_ok.mpr ⟨rfl,rfl⟩

theorem assignmentTimeout_ho : Ensures (HoStep w) (assignmentTimeout c w) := by
  refine Ensures.bind fun k _ => ?_
  split
  · exact ensures_ok.mpr (onAssignmentFailure_ho c w k)
  · exact ensures_ok.mpr ⟨rfl,rfl⟩

theorem assignmentStartReuseRest_ho : Ensures (HoStep w) (assignmentStartReuseRest c w) := by
  refine Ensures.bind fun k _ => ensures_ok.mpr ⟨rfl,?_⟩
  dsimp only
  split <;> rfl

theorem assignmentTerm_ho (parent : Bool) : Ensures (HoStep w) (assignmentTerm c parent w) := by
  refine Ensures.bind fun k _ => ?_
  repeat' split
  all_goals
    first
    | exact ensures_error
    | exact ensures_ok.mpr ⟨rfl,rfl⟩

theorem assignmentReset_ho : Ensures (HoStep w) (assignmentReset c w) := by
  refine Ensures.bind fun k _ => ?_
  repeat' split
  all_goals
    first
    | exact ensures_ok.mpr ⟨rfl,rfl⟩
    | exact ensures_ok.mpr ⟨Bsc.ho_updConn rfl fun _ => rfl,rfl⟩

theorem assignmentResetRest_ho : Ensures (HoStep w) (assignmentResetRest x c w) := by
  refine Ensures.bind fun k _ => ensures_ok.mpr ⟨?_,rfl⟩
  exact Bsc.ho_updConn (releaseCi_ho _) fun _ => rfl

theorem assignmentCleanupRest_ho (parent : Bool) :
    Ensures (HoStep w) (assignmentCleanupRest c parent w) := by
  refine Ensures.bind fun k _ => ?_
  refine ensures_ok.mpr ⟨Bsc.ho_updConn rfl fun _ => rfl,?_⟩
  dsimp only
  split <;> rfl

theorem assignmentSuccess_ho : Ensures (HoStep w) (assignmentSuccess c w) := by
  refine Ensures.bind fun k _ => ?_
  exact ensures_ok.mpr ⟨rfl,rfl⟩

theorem assignmentSuccessRest_ho : Ensures (HoStep w) (assignmentSuccessRest c w) := by
  refine Ensures.bind fun k _ => ?_
  split
  · refine ensures_ok.mpr ⟨rfl,?_⟩
    dsimp only
    split <;> rfl
  · exact ensures_ok.mpr ⟨Bsc.ho_updConn rfl fun _ => rfl,rfl⟩

theorem hoTimeout_ho : Ensures (HoStep w) (hoTimeout c w) := by
  refine Ensures.bind fun k _ => ?_
  split
  all_goals exact ensures_ok.mpr ⟨rfl,rfl⟩

theorem handoverStart_ho (newType : ChanT) (target : HoTarget) :
    Ensures (HoStep w) (handoverStart c newType target w) := by
  refine Ensures.bind fun k _ => ?_
  split
  · exact ensures_ok.mpr ⟨rfl,rfl⟩
  · refine ensures_ok.mpr ⟨rfl,?_⟩
    dsimp only
    split <;> rfl

theorem handoverEndNotify_ho (result : HoResult) :
    Ensures (HoStep w) (handoverEndNotify c result w) := by
  refine Ensures.bind fun k _ => ensures_ok.mpr ⟨?_,rfl⟩
  dsimp only
  split
  · exact Bsc.ho_updConn rfl fun _ => rfl
  · rfl

theorem handoverEndRelease_ho : Ensures (HoStep w) (handoverEndRelease c w) := by
  refine Ensures.bind fun k _ => ensures_ok.mpr ⟨rfl,?_⟩
  dsimp only
  split <;> rfl

theorem connTimeout_ho : Ensures (HoStep w) (connTimeout c w) := by
  refine Ensures.bind fun k _ => ?_
  split
  all_goals exact ensures_ok.mpr ⟨rfl,rfl⟩

theorem connClearRest_ho : Ensures (HoStep w) (connClearRest c w) := by
  refine Ensures.bind fun k _ => ensures_ok.mpr ⟨?_,rfl⟩
  dsimp only
  split
  · exact osmoMgcpcEpClear_ho
  · exact osmoMgcpcEpClear_ho

theorem gsconUpdateId_ho : Ensures (HoStep w) (gsconUpdateId c w) :=
  Ensures.bind fun _ _ => ensures_ok.mpr ⟨rfl,rfl⟩

theorem gsconReleasePrimary_ho (doRrRelease err : Bool) :
    Ensures (HoStep w) (gsconReleasePrimary c doRrRelease err w) := by
  refine Ensures.bind fun k _ => ?_
  split
  · exact ensures_ok.mpr ⟨rfl,rfl⟩
  · exact gsconReleaseLchan_ho c _ w doRrRelease err

theorem gsconReleaseLchans_ho (doRrRelease : Bool) :
    Ensures (HoStep w) (gsconReleaseLchans c doRrRelease w) := by
  refine Ensures.bind fun k _ => ensures_ok.mpr ⟨rfl,?_⟩
  dsimp only
  split <;> rfl

theorem gsconLchanReleasing_ho : Ensures (HoStep w) (gsconLchanReleasing c l w) := by
  refine Ensures.bind fun k _ => ensures_ok.mpr ⟨rfl,?_⟩
  dsimp only
  repeat' split
  all_goals rfl

theorem gsconLchanReleasingAssignment_ho :
    Ensures (HoStep w) (gsconLchanReleasingAssignment c w) := by
  refine Ensures.bind fun k _ => ensures_ok.mpr ⟨?_,rfl⟩
  exact Bsc.ho_updConn (unlessNull_ho (f := lchanForgetConn) (fun _ _ => rfl) _) fun _ => rfl

theorem gsconLchanReleasingHo_ho : Ensures (HoStep w) (gsconLchanReleasingHo c l w) := by
  refine Ensures.bind fun k _ => ensures_ok.mpr ⟨rfl,?_⟩
  dsimp only
  split <;> rfl

theorem gsconTerm_ho : Ensures (HoStep w) (gsconTerm c w) :=
  Ensures.bind fun _ _ => ensures_ok.mpr ⟨osmoMgcpcEpClear_ho,rfl⟩

end HoSteps

def HoState.isOut : HoState → Bool
  | .notStarted | .outWaitHoCommand | .outWaitClear => true
  | _ => false

def OutStates (w : Bsc) : Prop := ∀ c st, w.ho c = some (some st,.interBscOut) → st.isOut = true

def EndsWell (w : Bsc) (call : Call) : Prop :=
  ∃ c, (call = .handoverEnd c .ok ∨ call = .handoverEndChange c .ok)
    ∧ ∀ fi, w.ho c ≠ some (fi,.interBscOut)

structure HoMove (r : Bsc × List Call) : Prop where
  out : OutStates r.1
  calls : r.2.all Call.mute = true ∨ ∃ call, r.2 = [call] ∧ EndsWell r.1 call

structure HoInv (w : Bsc) (calls : List Call) : Prop where
  out : OutStates w
  next : ∀ call rest, calls = call :: rest →
    (call.mute = true ∨ EndsWell w call) ∧ rest.all Call.mute = true

section HoMoves

variable {x : Foreign} {c : ConnId} {w w1 : Bsc} {k : Conn}

theorem HoStep.move {r : Bsc × List Call} (h : HoStep w r) (hout : OutStates w) : HoMove r := by
  refine ⟨fun c st hc => hout c st ?_,.inl h.calls⟩
  rw [← h.ho]
  exact hc

theorem OutStates.same (h : OutStates w) (hw : w1.ho = w.ho) : OutStates w1 := by
  intro c st hc
  rw [hw] at hc
  exact h c st hc

theorem OutStates.updConn {f : Conn → Conn} (h : OutStates w)
    (hf : ∀ k st, w.conn c = some k → (f k).ho = (some st,.interBscOut) → st.isOut = true) :
    OutStates (w.updConn c f) := by
  intro c' st hc
  rcases eq_or_ne c' c with rfl | hne
  · simp only [Bsc.ho,Bsc.updConn_self,Option.map_map,Option.map_eq_some_iff] at hc
    obtain ⟨k,hk,hst⟩ := hc
    exact hf k st hk hst
  · refine h c' st ?_
    simpa only [Bsc.ho,Bsc.updConn_ne w f hne] using hc

theorem OutStates.of_conn (h : OutStates w) (hk : w.conn c = some k) {st : HoState}
    (hst : k.ho = (some st,.interBscOut)) : st.isOut = true := by
  refine h c st ?_
  rw [Bsc.ho,hk,Option.map_some,hst]

theorem handoverReset_out (h : OutStates w) : OutStates (handoverReset x c k w) := by
  unfold handoverReset
  refine (h.same (releaseCi_ho _)).updConn fun k st _ hst => ?_
  cases congrArg Prod.snd hst

theorem hoOnenter_out (st : HoState) (hout : OutStates w) (hst : k.hoScope = .interBscOut → st.isOut = true)
    (hk : w.conn c = some k) : Ensures HoMove (hoOnenter x c k st w) := by
  unfold hoOnenter hoWaitMgwEndpointToMscOnenter hoWaitRrHoDetectOnenter
  split
  · split
    · refine ensures_ok.mpr ⟨hout.same (Bsc.ho_updConn rfl fun _ => rfl),.inl rfl⟩
    · split
      · exact ensures_error
      · split
        · exact ensures_ok.mpr ⟨hout,.inl rfl⟩
        · rename_i h
          refine ensures_ok.mpr ⟨hout.same ?_,.inl rfl⟩
          exact Bsc.ho_updConn (gsconConnectMgwToMsc_ho h) fun _ => rfl
  · repeat' split
    all_goals
      first
      | exact ensures_error
      | exact ensures_ok.mpr ⟨hout,.inl rfl⟩
  · split
    · exact ensures_error
    · refine ensures_ok.mpr ⟨hout,?_⟩
      dsimp only
      split
      · refine .inr ⟨_,rfl,c,.inl rfl,fun fi hc => ?_⟩
        rw [Bsc.ho,hk] at hc
        simp only [Option.map_some,Option.some.injEq,Conn.ho,Prod.mk.injEq] at hc
        cases hst hc.2
      · exact .inl rfl
  all_goals exact ensures_ok.mpr ⟨hout,.inl rfl⟩

theorem HoState.isOut_of_outState {st st' : HoState} (h : st'.isOut = true)
    (hs : hoFsm.outState st' st = true) (hne : st ≠ .waitLchanActive) : st.isOut = true := by
  cases st' <;> cases h <;> cases st <;> first | rfl | exact absurd rfl hne | cases hs

theorem hoStateChg_out {st : HoState} (hout : OutStates w) (hst : st ≠ .waitLchanActive) :
    Ensures HoMove (hoStateChg x c st w) := by
  refine Ensures.bind fun k hk => ?_
  have hk := getConn_eq hk
  split
  · exact ensures_error
  · rename_i st' hfi
    split
    · rename_i hok
      have hscope : k.hoScope = .interBscOut → st.isOut = true := fun hs =>
        HoState.isOut_of_outState (hout.of_conn hk (by rw [Conn.ho,hfi,hs])) hok hst
      refine hoOnenter_out st (hout.updConn fun k1 st1 hk1 hst1 => ?_) hscope ?_
      · rw [hk] at hk1
        cases hk1
        cases congrArg Prod.fst hst1
        exact hscope (congrArg Prod.snd hst1)
      · rw [Bsc.updConn_self,hk]
        rfl
    · exact ensures_ok.mpr ⟨hout,.inl rfl⟩

theorem hoSwitchRtp_out {st : HoState} (hout : OutStates w) (hst : (Call.hoStateChg c st).mute = true) :
    Ensures HoMove (hoSwitchRtp c k st w) := by
  unfold hoSwitchRtp
  split
  · exact ensures_error
  · refine ensures_ok.mpr ⟨hout,.inl ?_⟩
    dsimp only
    split
    · simpa [Call.mute] using hst
    · simpa using hst

theorem hoDispatch_out {ev : HoEvent} (hout : OutStates w) (hev : (Call.hoDispatch c ev).mute = true) :
    Ensures HoMove (hoDispatch x c ev w) := by
  refine Ensures.bind fun k hk => ?_
  have hk := getConn_eq hk
  split
  · exact ensures_ok.mpr ⟨hout,.inl rfl⟩
  · rename_i st hfi
    split
    · unfold hoAllstate
      split
      all_goals
        first
        | exact ensures_ok.mpr ⟨hout,.inl rfl⟩
        | exact ensures_error
        | cases hev
    · unfold hoAction
      split
      · split
        · exact ensures_error
        · split
          · exact hoStateChg_out hout (by decide)
          · exact hoStateChg_out hout (by decide)
      · split
        · exact ensures_ok.mpr ⟨hout,.inl rfl⟩
        · exact ensures_ok.mpr ⟨hout,.inl rfl⟩
      · exact ensures_ok.mpr ⟨hout,.inl rfl⟩
      · split
        · exact ensures_ok.mpr ⟨hout,.inl rfl⟩
        · exact hoSwitchRtp_out hout rfl
      · exact hoSwitchRtp_out hout rfl
      · exact ensures_ok.mpr ⟨hout,.inl rfl⟩
      · exact ensures_ok.mpr ⟨hout,.inl rfl⟩
      · exact ensures_ok.mpr ⟨hout,.inl rfl⟩
      · exact hoStateChg_out hout (by decide)
      · exact ensures_ok.mpr ⟨hout,.inl rfl⟩
      · refine ensures_ok.mpr ⟨hout,.inr ⟨_,rfl,c,.inl rfl,fun fi hc => ?_⟩⟩
        rw [Bsc.ho,hk] at hc
        simp only [Option.map_some,Option.some.injEq,Conn.ho,Prod.mk.injEq] at hc
        cases hout.of_conn hk (by rw [Conn.ho,hfi,hc.2])
      · split
        · exact ensures_ok.mpr ⟨hout,.inl rfl⟩
        · exact hoStateChg_out hout (by decide)
      · exact ensures_ok.mpr ⟨hout,.inl rfl⟩
      · exact ensures_error
    · exact ensures_ok.mpr ⟨hout,.inl rfl⟩

theorem handoverEnd_out {result : HoResult} (hout : OutStates w)
    (hend : (Call.handoverEnd c result).mute = true ∨ EndsWell w (.handoverEnd c result)) :
    Ensures HoMove (handoverEnd x c result w) := by
  refine Ensures.bind fun k hk => ?_
  have hk := getConn_eq hk
  have hsame : ∀ m : Tx, OutStates (w.send m) := fun m => hout.same rfl
  have hwell : ∀ r w1, w1.ho = w.ho → (r = .ok → result = .ok ∧ k.hoScope ≠ .interBscOut) →
      HoMove (w1,[Call.handoverEndChange c r]) := by
    intro r w1 hw1 hr
    refine ⟨hout.same hw1,?_⟩
    by_cases hok : r = .ok
    · obtain ⟨-,hs⟩ := hr hok
      subst hok
      refine .inr ⟨_,rfl,c,.inr rfl,fun fi hc => hs ?_⟩
      rw [hw1,Bsc.ho,hk] at hc
      simp only [Option.map_some,Option.some.injEq,Conn.ho,Prod.mk.injEq] at hc
      exact hc.2
    · refine .inl ?_
      simp [Call.mute,hok]
  have hres : handoverEndResult c k w result = .ok → result = .ok := by
    unfold handoverEndResult
    split
    · intro _
      rfl
    · exact id
  have hscope : result = .ok → k.hoScope ≠ .interBscOut := by
    rintro rfl hs
    rcases hend with hend | ⟨c',hc | hc,hne⟩
    · cases hend
    · cases hc
      exact hne k.hoFi (by rw [Bsc.ho,hk,← hs]; rfl)
    · cases hc
  dsimp only
  split
  · rename_i hs
    refine ensures_ok.mpr (hwell _ _ ?_ fun hr => ?_)
    · repeat' split
      all_goals rfl
    · split at hr
      · cases hr
      · exact ⟨hres hr,by rw [hs]; simp⟩
  · rename_i hs
    split
    · rename_i hr
      exact absurd hs (hscope (hres hr))
    · rename_i hr
      refine ensures_ok.mpr (hwell _ _ rfl fun h => ?_)
      rw [hr] at h
      cases h
    · rename_i r hr _
      have hmute : ∀ r', r' = handoverEndResult c k w result → r' ≠ .ok := by
        rintro r' rfl h
        exact hr h
      repeat' split
      · exact ensures_error
      · exact ensures_ok.mpr (hwell _ _ rfl fun h => absurd h (hmute _ rfl))
      · exact ensures_ok.mpr (hwell _ _ rfl fun h => absurd h (hmute _ rfl))
      · refine ensures_ok.mpr ⟨hout,.inl ?_⟩
        simp [Call.mute,hmute _ rfl]
  · rename_i hs1 hs2
    refine ensures_ok.mpr (hwell _ _ rfl fun hr => ⟨hres hr,hs2⟩)

theorem handoverEndRest_out (hout : OutStates w) : Ensures HoMove (handoverEndRest x c w) := by
  refine Ensures.bind fun k hk => ?_
  split
  · exact ensures_error
  · refine ensures_ok.mpr ⟨OutStates.updConn ?_ fun k st _ hst => ?_,.inl rfl⟩
    · exact handoverReset_out (hout.same (Bsc.ho_updConn rfl fun _ => rfl))
    · cases congrArg Prod.fst hst

theorem gsconTermChildren_out (hout : OutStates w) : Ensures HoMove (gsconTermChildren c w) := by
  refine Ensures.bind fun k hk => ensures_ok.mpr ⟨hout.updConn fun k st _ hst => ?_,.inl ?_⟩
  · cases congrArg Prod.fst hst
  · dsimp only
    split <;> rfl

theorem gsconCleanup_out (hout : OutStates w) : Ensures HoMove (gsconCleanup c w) := by
  refine Ensures.bind fun k hk => ensures_ok.mpr ⟨fun c' st hc => ?_,.inl rfl⟩
  rcases eq_or_ne c' c with rfl | hne
  · simp [Bsc.ho,Bsc.freeConn] at hc
  · refine hout c' st ?_
    have hf : ∀ l w, (lchanForgetConn l w).ho = w.ho := fun _ _ => rfl
    rw [← unlessNull_ho hf k.lchan (w := w),← unlessNull_ho hf k.assignmentNewLchan,
      ← unlessNull_ho hf k.hoNewLchan]
    simpa [Bsc.ho,Bsc.freeConn,hne] using hc

theorem Bsc.ho_of_conn (h : w1.conn = w.conn) : w1.ho = w.ho := by
  funext c
  rw [Bsc.ho,Bsc.ho,h]

theorem OutStates.activate {l : LchanId} (h : OutStates w) (hs : ∀ k, w.conn c = some k → k.hoScope ≠ .interBscOut) :
    OutStates (w.updConn c ({ · with hoNewLchan := some l, hoFi := some .waitLchanActive })) := by
  refine h.updConn fun k st hk hst => ?_
  exact absurd (congrArg Prod.snd hst) (hs k hk)

theorem handoverStartIntraBsc_out (type : ChanT) (sameCell : Bool) (sel : Select) (hout : OutStates w) :
    Ensures HoMove (handoverStartIntraBsc c k type sameCell sel w) := by
  unfold handoverStartIntraBsc
  split
  · exact ensures_error
  · split
    · exact ensures_error
    · dsimp only
      have hscope : ∀ k1, (w.updConn c ({ · with
          hoScope := if sameCell then .intraCell else .intraBsc })).conn c = some k1 →
          k1.hoScope ≠ .interBscOut := by
        intro k1 hk1
        rw [Bsc.updConn_self] at hk1
        obtain ⟨k0,-,rfl⟩ := Option.map_eq_some_iff.mp hk1
        cases sameCell <;> simp
      have h1 : OutStates (w.updConn c ({ · with
          hoScope := if sameCell then .intraCell else .intraBsc })) := by
        refine hout.updConn fun k1 st hk1 hst => ?_
        have hs := congrArg Prod.snd hst
        cases sameCell <;> cases hs
      generalize w.updConn c ({ · with
        hoScope := if sameCell then .intraCell else .intraBsc }) = w1 at hscope h1 ⊢
      have hsel := lchanSelectByType_conn sel type w1
      split
      all_goals
        rename_i hs
        rw [hs] at hsel
      · exact ensures_ok.mpr ⟨h1.same (Bsc.ho_of_conn hsel),.inl rfl⟩
      · refine ensures_ok.mpr ⟨(h1.same (Bsc.ho_of_conn hsel)).activate fun k1 hk1 => ?_,.inl rfl⟩
        exact hscope k1 (hsel ▸ hk1)

theorem handoverStartReset_out (newType : ChanT) (target : HoTarget) (hout : OutStates w) :
    Ensures HoMove (handoverStartReset x c newType target w) := by
  refine Ensures.bind fun k hk => ?_
  split
  · exact ensures_error
  · dsimp only
    have h0 : OutStates ((handoverReset x c k w).updConn c ({ · with hoFi := some .notStarted })) := by
      refine (handoverReset_out hout).updConn fun k st _ hst => ?_
      cases congrArg Prod.fst hst
      rfl
    have hfi : ∀ k1, ((handoverReset x c k w).updConn c ({ · with hoFi := some .notStarted })).conn c
        = some k1 → k1.hoFi = some .notStarted := by
      intro k1 hk1
      rw [Bsc.updConn_self] at hk1
      obtain ⟨k0,-,rfl⟩ := Option.map_eq_some_iff.mp hk1
      rfl
    generalize (handoverReset x c k w).updConn c ({ · with hoFi := some .notStarted }) = w0 at h0 hfi ⊢
    split
    · exact handoverStartIntraBsc_out _ _ _ h0
    · have h1 : OutStates (w0.updConn c ({ · with hoScope := .interBscOut })) := by
        refine h0.updConn fun k1 st hk1 hst => ?_
        cases (hfi k1 hk1).symm.trans (congrArg Prod.fst hst)
        rfl
      split
      · exact ensures_ok.mpr ⟨h1,.inl rfl⟩
      · refine ensures_ok.mpr ⟨h1.updConn fun k1 st hk1 hst => ?_,.inl rfl⟩
        cases congrArg Prod.fst hst
        rfl
    · exact ensures_ok.mpr ⟨h0,.inl rfl⟩

theorem handoverStartInterBscIn_out (sel : Select) (req : Option ChannelModeAndRate) (hout : OutStates w) :
    Ensures HoMove (handoverStartInterBscIn x c sel req w) := by
  refine Ensures.bind fun k hk => ?_
  split
  · exact ensures_error
  · dsimp only
    have hscope : ∀ k1, (w.updConn c fun k =>
        { k.clearHo with hoFi := some .notStarted, hoScope := .interBscIn }).conn c = some k1 →
        k1.hoScope ≠ .interBscOut := by
      intro k1 hk1
      rw [Bsc.updConn_self] at hk1
      obtain ⟨k0,-,rfl⟩ := Option.map_eq_some_iff.mp hk1
      simp
    have h1 : OutStates (w.updConn c fun k =>
        { k.clearHo with hoFi := some .notStarted, hoScope := .interBscIn }) := by
      refine hout.updConn fun k1 st hk1 hst => ?_
      cases congrArg Prod.snd hst
    generalize (w.updConn c fun k =>
      { k.clearHo with hoFi := some .notStarted, hoScope := .interBscIn }) = w1 at hscope h1 ⊢
    split
    · exact ensures_ok.mpr ⟨h1,.inl rfl⟩
    · rename_i m
      have hsel := lchanSelectByChanMode_conn sel m w1
      split
      all_goals
        rename_i hs
        rw [hs] at hsel
        have h2 := h1.same (Bsc.ho_of_conn hsel)
      · exact ensures_ok.mpr ⟨h2,.inl rfl⟩
      · rename_i l w2
        have h3 : OutStates (w2.updConn c ({ · with hoNewLchan := some l, hoFi := some .waitLchanActive })) :=
          h2.activate fun k1 hk1 => hscope k1 (hsel ▸ hk1)
        split
        · exact ensures_ok.mpr ⟨h3,.inl rfl⟩
        · exact ensures_ok.mpr ⟨h3,.inl rfl⟩

theorem OutStates.alloc (hout : OutStates w) (hk : k.hoFi = none) : OutStates (w.allocConn c k) := by
  intro c' st hc
  rcases eq_or_ne c' c with rfl | hne
  · simp [Bsc.ho,Bsc.allocConn,Conn.ho,hk] at hc
  · refine hout c' st ?_
    simpa [Bsc.ho,Bsc.allocConn,hne] using hc

theorem sccpNConnect_out (aoip : Bool) (sel : Select) (req : Option ChannelModeAndRate) (hout : OutStates w) :
    Ensures HoMove (sccpNConnect c aoip sel req w) := by
  unfold sccpNConnect
  split
  · exact ensures_ok.mpr ⟨hout,.inl rfl⟩
  · exact ensures_ok.mpr ⟨hout.alloc rfl,.inl rfl⟩

theorem gsm0408Rcvmsg_out (l : LchanId) (msg : L3Msg) (aoip : Bool) (hout : OutStates w) :
    Ensures HoMove (gsm0408Rcvmsg x l msg c aoip w) := by
  rcases gsm0408Rcvmsg_cases x l msg c aoip w with h | ⟨c',-,h⟩ | h | ⟨-,h⟩ <;> rw [h]
  · exact ensures_ok.mpr ⟨hout,.inl rfl⟩
  · exact (dispatchDtap_ho x c' w msg).mono fun r h => h.move hout
  · exact ensures_ok.mpr ⟨hout,.inl rfl⟩
  · refine ensures_ok.mpr ⟨(hout.alloc rfl).same rfl,.inl ?_⟩
    dsimp only
    split <;> rfl

end HoMoves

section HoRuns

variable {cfg : TsId → TsCfg} {x : Foreign} {w w' : Bsc} {call : Call} {new rest : List Call}

theorem HoInv.move {r : Bsc × List Call} (h : HoMove r) (hrest : rest.all Call.mute = true) :
    HoInv r.1 (r.2 ++ rest) := by
  obtain ⟨w',new⟩ := r
  refine ⟨h.out,fun call rest' heq => ?_⟩
  rcases h.calls with hmute | ⟨call',rfl,hend⟩
  · have hall : (new ++ rest).all Call.mute = true := by
      rw [List.all_append,hmute,hrest]
      rfl
    dsimp only at heq
    rw [heq,List.all_cons,Bool.and_eq_true] at hall
    exact ⟨.inl hall.1,hall.2⟩
  · cases heq
    exact ⟨.inr hend,hrest⟩

theorem HoInv.exec (h : HoInv w (call :: rest)) (he : Chan.exec cfg call x w = .ok (w',new)) :
    HoInv w' (new ++ rest) := by
  obtain ⟨hcall,hrest⟩ := h.next call rest rfl
  have hmoves : Ensures HoMove (Chan.exec cfg call x w) → HoInv w' (new ++ rest) := fun hm =>
    HoInv.move (hm _ he) hrest
  have hstep : Ensures (HoStep w) (Chan.exec cfg call x w) → HoInv w' (new ++ rest) := fun hs =>
    hmoves (hs.mono fun r hr => hr.move h.out)
  have hmute : (∀ c, call ≠ .handoverEnd c .ok ∧ call ≠ .handoverEndChange c .ok) → call.mute = true := by
    intro hne
    rcases hcall with hm | ⟨c,hc | hc,-⟩
    · exact hm
    · exact absurd hc (hne c).1
    · exact absurd hc (hne c).2
  cases call with
  | assignmentDispatch c ev => exact hstep (assignmentDispatch_ho x c w ev)
  | assignmentTimeout c => exact hstep (assignmentTimeout_ho c w)
  | assignmentStart c sel req => exact hstep (assignmentStart_ho x c w sel req)
  | assignmentStartReuseRest c => exact hstep (assignmentStartReuseRest_ho c w)
  | assignmentTerm c parent => exact hstep (assignmentTerm_ho c w parent)
  | assignmentCleanupRest c parent => exact hstep (assignmentCleanupRest_ho c w parent)
  | assignmentReset c => exact hstep (assignmentReset_ho c w)
  | assignmentResetRest c => exact hstep (assignmentResetRest_ho x c w)
  | assignmentStateChg c st => exact hstep (assignmentStateChg_ho x c w st)
  | assignmentSuccess c => exact hstep (assignmentSuccess_ho c w)
  | assignmentSuccessSend c => exact hstep (assignmentSuccessSend_ho x c w)
  | assignmentSuccessRest c => exact hstep (assignmentSuccessRest_ho c w)
  | hoDispatch c ev => exact hmoves (hoDispatch_out h.out (hmute (by simp)))
  | hoTimeout c => exact hstep (hoTimeout_ho c w)
  | hoStateChg c st =>
    have hm := hmute (by simp)
    refine hmoves (hoStateChg_out h.out ?_)
    rintro rfl
    cases hm
  | handoverStart c newType target => exact hstep (handoverStart_ho c w newType target)
  | handoverStartReset c newType target => exact hmoves (handoverStartReset_out newType target h.out)
  | handoverStartInterBscIn c sel req => exact hmoves (handoverStartInterBscIn_out sel req h.out)
  | handoverEnd c result => exact hmoves (handoverEnd_out h.out hcall)
  | handoverEndChange c result => exact hstep (handoverEndChange_ho x c w result)
  | handoverEndNotify c result => exact hstep (handoverEndNotify_ho c w result)
  | handoverEndRelease c => exact hstep (handoverEndRelease_ho c w)
  | handoverEndRest c => exact hmoves (handoverEndRest_out h.out)
  | connDispatch c ev => exact hstep (connDispatch_ho x c w ev)
  | connTimeout c => exact hstep (connTimeout_ho c w)
  | connClearRest c => exact hstep (connClearRest_ho c w)
  | gsconUpdateId c => exact hstep (gsconUpdateId_ho c w)
  | gsconChangePrimaryLchan c l => exact hstep (gsconChangePrimaryLchan_ho c w l)
  | gsconReleaseLchan c l doRrRelease err => exact hstep (gsconReleaseLchan_ho c l w doRrRelease err)
  | gsconReleasePrimary c doRrRelease err => exact hstep (gsconReleasePrimary_ho c w doRrRelease err)
  | gsconReleaseLchans c doRrRelease => exact hstep (gsconReleaseLchans_ho c w doRrRelease)
  | gsconLchanReleasing c l => exact hstep (gsconLchanReleasing_ho c l w)
  | gsconLchanReleasingAssignment c => exact hstep (gsconLchanReleasingAssignment_ho c w)
  | gsconLchanReleasingHo c l => exact hstep (gsconLchanReleasingHo_ho c l w)
  | gsconLchanReleasingRest c l => exact hstep (gsconLchanReleasingRest_ho c l w)
  | gsconTerm c => exact hstep (gsconTerm_ho c w)
  | gsconTermChildren c => exact hmoves (gsconTermChildren_out h.out)
  | gsconCleanup c => exact hmoves (gsconCleanup_out h.out)
  | gsconSubmitRslDtap c => exact hstep (gsconSubmitRslDtap_ho x c w)
  | gsconDtapQueueFlush c => exact hstep (gsconDtapQueueFlush_ho x c w)
  | bssmapHandleAssignmReq c sel req => exact hstep (bssmapHandleAssignmReq_ho c w sel req)
  | gsm0408Rcvmsg l msg newConn aoip => exact hmoves (gsm0408Rcvmsg_out l msg aoip h.out)
  | sccpNConnect c aoip sel req => exact hmoves (sccpNConnect_out aoip sel req h.out)
  | _ => exact hstep ((exec_lchanStep cfg x w rfl).mono fun r hr => hr.ho)

theorem enter_mute (i : Input) (w : Bsc) : (enter i w).all Call.mute = true := by
  cases i with
  | estInd l linkId msg newConn aoip =>
    simp only [enter]
    repeat' split
    all_goals rfl
  | _ =>
    simp only [enter]
    repeat' split
    all_goals rfl

theorem HoInv.enter (h : HoInv w []) (i : Input) : HoInv w (enter i w) := by
  have hmove : HoMove (w,Chan.enter i w) := ⟨h.out,.inl (enter_mute i w)⟩
  have hi : HoInv w (Chan.enter i w ++ []) := .move hmove rfl
  simpa using hi

abbrev Noted (cfg : TsId → TsCfg) : Config × Option Input → Prop :=
  Reach (Calls.noting (exec cfg) enter fun i _ _ => some i) (fun _ _ => True) (· = (initial,none))

theorem Noted.ho {s : Config × Option Input} (h : Noted cfg s) : HoInv s.1.state s.1.calls := by
  refine Calls.reach_invariant ?_ (fun w i hinv _ => hinv.enter i)
    (fun w call rest x w' new hinv _ he => hinv.exec he) (Calls.reach_of_noting h)
  rintro s ⟨g,hs⟩
  cases hs
  refine ⟨fun c st hc => ?_,fun call rest hcalls => ?_⟩
  · cases hc
  · cases hcalls

/-- The Handover Command went to the MS, and now the MSC clears the connection. -/
def Cleared (c : ConnId) (k : Conn) (i : Option Input) : Prop :=
  k.hoFi = some .outWaitClear ∧ i = some (.bssmapClearCmd c)

theorem handoverEnd_fails {c : ConnId} {k : Conn} {result : HoResult} (hk : w.conn c = some k)
    (hscope : k.hoScope = .interBscOut) (hr : result ≠ .ok)
    (he : handoverEnd x c result w = .ok (w',new)) : Call.handoverEndChange c .ok ∉ new := by
  obtain ⟨k1,hk1,he⟩ := bind_eq_ok.mp he
  cases (hk.symm.trans (getConn_eq hk1))
  have hres : handoverEndResult c k w result = result := by
    cases result <;> first | rfl | exact absurd rfl hr
  dsimp only at he
  rw [hres,hscope] at he
  dsimp only at he
  split at he
  · exact absurd rfl hr
  · cases he
    simp
  · repeat' split at he
    · cases he
    all_goals
      cases he
      simp [Ne.symm hr]

/-- What the end of a handover to another BSS should report: success when and only
when the Handover Command was forwarded and the MSC then clears the connection, where
the old lchan is not released in error. -/
def ReportsClear (c : ConnId) (k : Conn) (i : Option Input) (new : List Call) : Prop :=
  (.handoverEndChange c .ok ∈ new ↔ Cleared c k i)
    ∧ (Cleared c k i → ∀ l doRrRelease, .lchanRelease l doRrRelease true ∉ new)

/-- As HO_EV_CONN_RELEASING is never raised, only a handover that the MSC does not
complete is reported as it should be. -/
theorem handover_out_result {s : Config} {i : Option Input} (h : Noted cfg (s,i)) {c : ConnId}
    {result : HoResult} {rest : List Call} (hcalls : s.calls = .handoverEnd c result :: rest) {k : Conn}
    (hk : s.state.conn c = some k) (hscope : k.hoScope = .interBscOut) {x : Foreign} {w' : Bsc}
    {new : List Call} (he : handoverEnd x c result s.state = .ok (w',new)) :
    ReportsClear c k i new ↔ ¬ Cleared c k i := by
  have hinv := h.ho
  rw [hcalls] at hinv
  have hres : result ≠ .ok := by
    rintro rfl
    rcases (hinv.next _ _ rfl).1 with hmute | ⟨c',hc | hc,hne⟩
    · cases hmute
    · cases hc
      exact hne k.hoFi (by rw [Bsc.ho,hk,← hscope]; rfl)
    · cases hc
  have hno := handoverEnd_fails hk hscope hres he
  constructor
  · exact fun hp hc => hno (hp.1.mpr hc)
  · exact fun hc => ⟨⟨fun hmem => absurd hmem hno,fun h => absurd h hc⟩,fun h => absurd h hc⟩

def handedOver : List Input :=
  connOnSdcch ++ [Input.handoverRequest 0 .none .remote,.bssmapHandoverCmd 0 true]

/-- The MSC has cleared connection 0, or it has not, and its handover ends. -/
def endsHandover (s : Config × Option Input) (cleared : Bool) : Bool :=
  match s.1.calls, s.2 with
  | .handoverEnd 0 .connRelease :: _, some (.bssmapClearCmd 0) => cleared
  | .handoverEnd 0 .failRrHoFail :: _, some (.dataInd _ .handoFail _ _) => !cleared
  | _, _ => false

/-- The MSC clears connection 0 after the Handover Command: a failure is reported and
the old lchan is released in error. -/
theorem handover_out_cleared : ∃ s i k w' new, Noted sdcchAndTch (s,i)
    ∧ (∃ rest, s.calls = .handoverEnd 0 .connRelease :: rest)
    ∧ s.state.conn 0 = some k ∧ k.hoScope = .interBscOut ∧ Cleared 0 k i
    ∧ handoverEnd {} 0 .connRelease s.state = .ok (w',new)
    ∧ new = [.lchanRelease ⟨0,0⟩ true true,.handoverEndChange 0 .connRelease]
    ∧ ¬ ReportsClear 0 k i new := by
  have hrun : ∃ s, run (Calls.noting (exec sdcchAndTch) enter fun i _ _ => some i) (initial,none)
        (moves 40 handedOver ++ ([.input (.bssmapClearCmd 0),.call {},.call {}] : List Move)) = .ok s
      ∧ endsHandover s true = true ∧ s.1.state.ho 0 = some (some .outWaitClear,.interBscOut)
      ∧ (s.1.state.conn 0).map (·.lchan) = some (some ⟨0,0⟩) := by
    decide +kernel
  obtain ⟨⟨⟨w,calls⟩,i⟩,hs,hends,hho,hl⟩ := hrun
  obtain ⟨k,hk,hl⟩ := Option.map_eq_some_iff.mp hl
  obtain ⟨k',hk',hho⟩ := Option.map_eq_some_iff.mp hho
  cases hk.symm.trans hk'
  dsimp only at hk
  have hreach : Noted sdcchAndTch (⟨w,calls⟩,i) :=
    Reach.of_run (.start rfl) (.of_forall (fun _ _ => trivial) _ _) hs
  have hfi : k.hoFi = some .outWaitClear := congrArg Prod.fst hho
  have hscope : k.hoScope = .interBscOut := congrArg Prod.snd hho
  have he : handoverEnd {} 0 .connRelease w
      = .ok (w,[.lchanRelease ⟨0,0⟩ true true,.handoverEndChange 0 .connRelease]) := by
    simp [handoverEnd,Bsc.getConn,hk,handoverEndResult,hscope,hfi,hl]
  unfold endsHandover at hends
  split at hends
  · rename_i rest hcalls hi
    dsimp only at hcalls hi
    subst hcalls hi
    refine ⟨_,_,k,_,_,hreach,⟨rest,rfl⟩,hk,hscope,⟨hfi,rfl⟩,he,rfl,fun hp => ?_⟩
    have hok := hp.1.mpr ⟨hfi,rfl⟩
    simp at hok
  · cases hends
  · cases hends

/-- The MS comes back to the old channel instead: that is reported as it should be. -/
theorem handover_out_result_failure : ∃ s i k w' new, Noted sdcchAndTch (s,i)
    ∧ s.state.conn 0 = some k ∧ k.hoScope = .interBscOut ∧ ¬ Cleared 0 k i
    ∧ handoverEnd {} 0 .failRrHoFail s.state = .ok (w',new) ∧ ReportsClear 0 k i new := by
  have hrun : ∃ s, run (Calls.noting (exec sdcchAndTch) enter fun i _ _ => some i) (initial,none)
        (moves 40 handedOver ++ ([.input (.dataInd ⟨0,0⟩ .handoFail 0 true),.call {},.call {}] : List Move)) = .ok s
      ∧ endsHandover s false = true ∧ s.1.state.ho 0 = some (some .outWaitClear,.interBscOut) := by
    decide +kernel
  obtain ⟨⟨⟨w,calls⟩,i⟩,hs,hends,hho⟩ := hrun
  obtain ⟨k,hk,hho⟩ := Option.map_eq_some_iff.mp hho
  dsimp only at hk
  have hreach : Noted sdcchAndTch (⟨w,calls⟩,i) :=
    Reach.of_run (.start rfl) (.of_forall (fun _ _ => trivial) _ _) hs
  have hscope : k.hoScope = .interBscOut := congrArg Prod.snd hho
  have he : handoverEnd {} 0 .failRrHoFail w
      = .ok (w.send (.hoFailure 0),[.handoverEndChange 0 .failRrHoFail]) := by
    simp [handoverEnd,Bsc.getConn,hk,handoverEndResult,hscope]
  unfold endsHandover at hends
  split at hends
  · cases hends
  · rename_i hcalls hi
    dsimp only at hcalls hi
    subst hcalls hi
    have hnot : ∀ l msg newConn aoip, ¬ Cleared 0 k (some (.dataInd l msg newConn aoip)) := by
      intro l msg newConn aoip hc
      cases hc.2
    exact ⟨_,_,k,_,_,hreach,hk,hscope,hnot _ _ _ _,he,
      (handover_out_result hreach rfl hk hscope he).mpr (hnot _ _ _ _)⟩
  · cases hends

end HoRuns

end OsmoBsc.Chan
