import OsmoBsc.Chan.Frame
set_option autoImplicit false

namespace OsmoBsc.Chan
open EventFsm

/-- A connection without what the MGW and the RTP FSMs write. -/
@[reducible] def Conn.core (k : Conn) : Conn :=
  { k with
    mgwEndpoint := false, mgwEndpointCiMsc := none, hoCreatedCiForMsc := none
    assignmentCreatedCiForMsc := none }

def Tx.toMsc : Tx → Bool
  | .assignmentFailure _ | .assignmentComplete _ | .clearRequest _ | .clearComplete _
  | .hoFailure _ | .hoPerformed _ | .hoComplete _ => true
  | _ => false

/-- What the MSC sees: the core of the connections and the messages it got. -/
def Bsc.mscView (w : Bsc) : (ConnId → Option Conn) × List Tx :=
  (fun c => (w.conn c).map Conn.core,w.sent.filter Tx.toMsc)

namespace Bsc

variable (w : Bsc) (c : ConnId) (l : LchanId) (t : TsId)

@[simp] theorem mscView_updLchan (f : Lchan → Lchan) : (w.updLchan l f).mscView = w.mscView := rfl
@[simp] theorem mscView_updTs (f : Ts → Ts) : (w.updTs t f).mscView = w.mscView := rfl

@[simp] theorem mscView_mk (ts : TsId → Ts) (lchan : LchanId → Lchan) (n : Nat) :
    Bsc.mscView ⟨ts,lchan,w.conn,n,w.sent⟩ = w.mscView := rfl

@[simp] theorem mscView_send {m : Tx} (hm : ¬ m.toMsc) : (w.send m).mscView = w.mscView := by
  simp [mscView,send,hm]

@[simp] theorem mscView_updConn {f : Conn → Conn} (hf : ∀ k, (f k).core = k.core) :
    (w.updConn c f).mscView = w.mscView := by
  have h : ∀ c', ((w.updConn c f).conn c').map Conn.core = (w.conn c').map Conn.core := by
    intro c'
    rcases eq_or_ne c' c with rfl | hne
    · simp only [updConn,Function.update_self,Option.map_map]
      cases w.conn c' with
      | none => rfl
      | some k => exact congrArg some (hf k)
    · simp [updConn,hne]
  exact congrArg₂ Prod.mk (funext h) rfl

end Bsc

/-- What an lchan does to connections: the MSC sees nothing of it, or one
connection forgets an lchan. -/
def Detached (w w' : Bsc) : Prop :=
  w'.mscView = w.mscView ∨ ∃ c l w1, gsconForgetLchan c l w = .ok w1 ∧ w'.mscView = w1.mscView

/-- The calls of timeslots, lchans and their RTP FSMs. -/
def Call.lchanSide : Call → Bool
  | .tsDispatch .. | .tsTimeout .. | .tsStateChg .. | .tsErrorChg .. | .tsLchansDispatch ..
  | .tsInUseOnenter .. | .tsTerminateLchanFsms .. | .assertNotWaiting .. => true
  | .lchanActivate .. | .lchanDispatch .. | .lchanTimeout .. | .lchanStateChg ..
  | .lchanOnActivationFailure .. | .lchanFailChg .. | .lchanRtpFsmStart .. | .lchanRelease ..
  | .lchanReleaseRest .. | .lchanExitReleaseHandler .. | .lchanWaitReleasedRest ..
  | .lchanEstablishedRelRest .. | .lchanReleasedRelRest .. | .lchanResetRest .. | .lchanTerm ..
  | .lchanCleanup .. | .lchanCleanupRest .. => true
  | .rtpDispatch .. | .rtpTimeout .. | .rtpStateChg .. | .rtpTerm .. => true
  | .rslRxChanRqd .. | .lchanAct .. | .rllEstInd .. | .rllEstConf .. => true
  | _ => false

/-- The calls that those make: of their own, and to tell connections. -/
def Call.fromLchan : Call → Bool
  | .assignmentDispatch _ ev => match ev with
    | .lchanActive _ | .lchanEstablished _ | .lchanError _ => true
    | _ => false
  | .hoDispatch _ ev => match ev with
    | .lchanActive _ | .lchanEstablished _ | .lchanError _ => true
    | _ => false
  | .gsconLchanReleasing .. => true
  | call => call.lchanSide

/-- A call on the side of the lchans: what it does to connections and the calls
that it makes. -/
structure LchanStep (w : Bsc) (r : Bsc × List Call) : Prop where
  state : Detached w r.1
  calls : r.2.all Call.fromLchan = true

section LchanStep

variable {w w1 : Bsc} {r : Bsc × List Call} {new : List Call}

theorem LchanStep.unseen (h : r.1.mscView = w.mscView) (hc : r.2.all Call.fromLchan = true) :
    LchanStep w r := ⟨.inl h,hc⟩

theorem gsconForgetLchan_eq {c : ConnId} {k : Conn} (l : LchanId) (hk : w.conn c = some k) :
    gsconForgetLchan c l w = .ok (if k.fi ≠ .clearing ∧ (k.forgetLchan l).lost then
      gsconBssmapClear c (w.updConn c (·.forgetLchan l)) else w.updConn c (·.forgetLchan l)) := by
  simp only [gsconForgetLchan,Bsc.getConn,hk]
  change (if _ then _ else _) = _
  split <;> rfl

theorem gsconForgetLchan_congr {c : ConnId} {l : LchanId} (h : w1.mscView = w.mscView) {w' : Bsc}
    (hf : gsconForgetLchan c l w1 = .ok w') :
    ∃ w2, gsconForgetLchan c l w = .ok w2 ∧ w'.mscView = w2.mscView := by
  simp only [gsconForgetLchan,bind_eq_ok] at hf
  obtain ⟨k1,hk1,hf⟩ := hf
  simp only [Bsc.getConn] at hk1
  split at hk1
  · rename_i k hk
    cases hk1
    have hconn := congrFun (congrArg Prod.fst h) c
    have hsent := congrArg Prod.snd h
    simp only [Bsc.mscView,hk,Option.map_some] at hconn hsent
    cases hk0 : w.conn c with
    | none => simp [hk0] at hconn
    | some k0 =>
      simp only [hk0,Option.map_some,Option.some.injEq] at hconn
      have hfi : k1.fi = k0.fi := by
        have := congrArg Conn.fi hconn
        exact this
      have hforget : (k1.forgetLchan l).core = (k0.forgetLchan l).core := by
        have := congrArg (Conn.forgetLchan · l) hconn
        exact this
      have hlost : (k1.forgetLchan l).lost = (k0.forgetLchan l).lost := by
        have := congrArg Conn.lost hforget
        exact this
      have hview : (w1.updConn c (·.forgetLchan l)).mscView = (w.updConn c (·.forgetLchan l)).mscView := by
        refine congrArg₂ Prod.mk (funext fun c' => ?_) hsent
        rcases eq_or_ne c' c with rfl | hne
        · simp only [Bsc.updConn,Function.update_self,hk,hk0,Option.map_some]
          exact congrArg some hforget
        · simp only [Bsc.updConn,Function.update_of_ne hne]
          exact congrFun (congrArg Prod.fst h) c'
      refine ⟨_,gsconForgetLchan_eq l hk0,?_⟩
      rw [hfi,hlost] at hf
      split at hf
      · rename_i hc
        cases hf
        rw [if_pos hc]
        have h1 := congrArg Prod.fst hview
        have h2 := congrArg Prod.snd hview
        refine congrArg₂ Prod.mk h1 ?_
        simp only [gsconBssmapClear,Bsc.send,List.filter,Tx.toMsc] at h2 ⊢
        exact congrArg _ h2
      · rename_i hc
        cases hf
        rw [if_neg hc]
        exact hview
  · cases hk1

theorem LchanStep.after (h : w1.mscView = w.mscView) (hr : LchanStep w1 r) : LchanStep w r := by
  refine ⟨?_,hr.calls⟩
  rcases hr.state with hs | ⟨c,l,w',hf,hs⟩
  · exact .inl (hs.trans h)
  · obtain ⟨w2,hf2,hv⟩ := gsconForgetLchan_congr h hf
    exact .inr ⟨c,l,w2,hf2,hs.trans hv⟩

theorem LchanStep.forgets {c : ConnId} {l : LchanId} (hf : gsconForgetLchan c l w = .ok w1)
    (h : r.1.mscView = w1.mscView) (hc : r.2.all Call.fromLchan = true) : LchanStep w r :=
  ⟨.inr ⟨c,l,w1,hf,h⟩,hc⟩

end LchanStep

section Mgw

variable (x : Foreign) (c : ConnId) (w : Bsc)

@[simp] theorem gsconForgetMgwEndpoint_mscView : (gsconForgetMgwEndpoint c w).mscView = w.mscView := by
  unfold gsconForgetMgwEndpoint unlessNull lchanForgetMgwEndpoint
  repeat' split
  all_goals simp

@[simp] theorem osmoMgcpcEpCiDlcx_mscView (ci : Ci) : (osmoMgcpcEpCiDlcx x ci w).mscView = w.mscView := by
  unfold osmoMgcpcEpCiDlcx
  dsimp only
  split <;> simp [Tx.toMsc]

end Mgw

section LchanSide

variable (cfg : TsId → TsCfg) (x : Foreign) (l : LchanId) (w : Bsc)

theorem lchanReset_step : Ensures (LchanStep w) (lchanReset l w) := by
  unfold lchanReset
  dsimp only
  split
  · refine ensures_ok.mpr (.unseen rfl ?_)
    split <;> rfl
  · refine Ensures.bind fun w1 h1 => ensures_ok.mpr (.forgets h1 rfl ?_)
    split <;> rfl

theorem lchanOnFullyEstablished_step : Ensures (LchanStep w) (lchanOnFullyEstablished l w) := by
  unfold lchanOnFullyEstablished
  split
  · exact ensures_ok.mpr (.unseen rfl rfl)
  · dsimp only
    split
    · exact ensures_ok.mpr (.unseen rfl rfl)
    · refine Ensures.bind fun k _ => ensures_ok.mpr (.unseen rfl ?_)
      split <;> rfl
    · exact ensures_ok.mpr (.unseen rfl rfl)
    · refine Ensures.bind fun k _ => ensures_ok.mpr (.unseen rfl ?_)
      split <;> rfl
    · exact ensures_ok.mpr (.unseen rfl rfl)

theorem lchanWaitTsReadyOnenter_step : Ensures (LchanStep w) (lchanWaitTsReadyOnenter x l w) := by
  unfold lchanWaitTsReadyOnenter
  dsimp only
  split
  · exact ensures_ok.mpr (.unseen rfl rfl)
  · split
    · exact ensures_ok.mpr (.unseen rfl rfl)
    · exact ensures_ok.mpr (.unseen rfl rfl)
    · exact ensures_ok.mpr (.unseen rfl rfl)
    · split
      · exact ensures_ok.mpr (.unseen rfl rfl)
      · split
        · exact ensures_error
        · refine Ensures.bind fun k _ => ?_
          split <;> exact ensures_ok.mpr (.unseen rfl rfl)
    · exact ensures_ok.mpr (.unseen rfl rfl)

theorem lchanWaitActivAckOnenter_step : Ensures (LchanStep w) (lchanWaitActivAckOnenter x l w) := by
  have hactiv : Ensures (LchanStep w) (if x.fail then .ok (w,lchanFailTo w l .unused)
      else .ok (w.send (.chanActiv l),[]) : Outcome) := by
    split
    · exact ensures_ok.mpr (.unseen rfl rfl)
    · exact ensures_ok.mpr (.unseen (by simp [Tx.toMsc]) rfl)
  unfold lchanWaitActivAckOnenter
  dsimp only
  split
  · exact ensures_ok.mpr (.unseen rfl rfl)
  · split
    · exact ensures_error
    · exact Ensures.bind fun k _ => hactiv
    · exact hactiv

theorem lchanDoRelease_mscView : (lchanDoRelease l w).1.mscView = w.mscView := by
  unfold lchanDoRelease
  dsimp only
  split <;> simp [Tx.toMsc]

theorem lchanDoRelease_fromLchan : (lchanDoRelease l w).2.all Call.fromLchan = true := by
  unfold lchanDoRelease
  dsimp only
  split <;> rfl

theorem lchanWaitRfReleaseAckOnenter_step :
    Ensures (LchanStep w) (lchanWaitRfReleaseAckOnenter l w) := by
  unfold lchanWaitRfReleaseAckOnenter
  dsimp only
  split
  · exact ensures_ok.mpr (.unseen (by simp [Tx.toMsc]) rfl)
  · exact Ensures.bind fun w1 h1 => ensures_ok.mpr
      (.forgets h1 (by simp [Tx.toMsc,lchanForgetConn]) rfl)

theorem lchanOnenter_step (st : LchanState) : Ensures (LchanStep w) (lchanOnenter x l st w) := by
  cases st with
  | unused =>
    refine Ensures.bind fun r hr => ensures_ok.mpr ?_
    have h := lchanReset_step l w r hr
    exact ⟨h.state,by simp [h.calls,Call.fromLchan,Call.lchanSide]⟩
  | cbch => exact ensures_ok.mpr (.unseen rfl rfl)
  | waitTsReady => exact lchanWaitTsReadyOnenter_step x l w
  | waitActivAck => exact lchanWaitActivAckOnenter_step x l w
  | waitRllRtpEstablish =>
    refine ensures_ok.mpr (.unseen rfl ?_)
    split <;> rfl
  | established =>
    unfold lchanOnenter lchanEstablishedOnenter
    dsimp only
    split
    · exact ensures_ok.mpr (.unseen rfl rfl)
    · exact lchanOnFullyEstablished_step l w
  | waitRllRtpReleased =>
    refine ensures_ok.mpr (.unseen (lchanDoRelease_mscView l w) ?_)
    simp [lchanDoRelease_fromLchan,Call.fromLchan,Call.lchanSide]
  | waitBeforeRfRelease => exact ensures_ok.mpr (.unseen rfl rfl)
  | waitRfReleaseAck => exact lchanWaitRfReleaseAckOnenter_step l w
  | waitAfterError => exact ensures_ok.mpr (.unseen rfl rfl)
  | borken => exact lchanReset_step l w

theorem lchanStateChg_step (st : LchanState) : Ensures (LchanStep w) (lchanStateChg x l st w) := by
  unfold lchanStateChg
  split
  · exact ensures_error
  · split
    · exact (lchanOnenter_step x l _ st).mono fun r => .after rfl
    · exact ensures_ok.mpr (.unseen rfl rfl)

theorem lchanRtpGone_step (st : LchanState) : Ensures (LchanStep w) (lchanRtpGone l st w) := by
  refine ensures_ok.mpr (.unseen rfl ?_)
  split <;> rfl

theorem lchanFsmUnused_step (ev : LchanEvent) : Ensures (LchanStep w) (lchanFsmUnused x l ev w) := by
  cases ev with
  | activate info =>
    unfold lchanFsmUnused
    dsimp only
    split
    · exact ensures_error
    · exact (lchanStateChg_step x l _ _).mono fun r => .after rfl
  | _ => exact ensures_error

theorem lchanFsmPostActivAck_step : Ensures (LchanStep w) (lchanFsmPostActivAck x l w) := by
  unfold lchanFsmPostActivAck
  dsimp only
  split
  · exact ensures_ok.mpr (.unseen rfl rfl)
  · split
    · split
      · exact ensures_ok.mpr (.unseen rfl rfl)
      · exact ensures_ok.mpr (.unseen (by simp [Tx.toMsc]) rfl)
    · exact ensures_ok.mpr (.unseen rfl rfl)
    · refine Ensures.bind fun k _ => ensures_ok.mpr (.unseen rfl ?_)
      split <;> rfl
    · exact ensures_ok.mpr (.unseen rfl rfl)
    · refine Ensures.bind fun k _ => ensures_ok.mpr (.unseen rfl ?_)
      split <;> rfl
    · exact ensures_ok.mpr (.unseen rfl rfl)

theorem handleRllRelIndOrConf_step (linkId : Fin 256) {rest : Call} (hrest : rest.fromLchan = true) :
    LchanStep w ((handleRllRelIndOrConf l linkId w).1,
      (handleRllRelIndOrConf l linkId w).2 ++ [rest]) := by
  refine .unseen rfl ?_
  unfold handleRllRelIndOrConf
  dsimp only
  rw [List.all_append]
  have hr : [rest].all Call.fromLchan = true := by simp [hrest]
  rw [hr,Bool.and_true]
  repeat' split
  all_goals rfl

theorem lchanDispatch_step (ev : LchanEvent) : Ensures (LchanStep w) (lchanDispatch x l ev w) := by
  unfold lchanDispatch
  split
  · exact ensures_ok.mpr (.unseen rfl rfl)
  · rename_i st hst
    split
    · exact ensures_ok.mpr (.unseen rfl rfl)
    · exact ensures_ok.mpr (.unseen rfl rfl)
    · cases st with
      | unused => exact lchanFsmUnused_step x l w ev
      | waitTsReady =>
        cases ev with
        | tsReady => exact lchanStateChg_step x l w _
        | rtpReleased | rtpError => exact lchanRtpGone_step l w _
        | _ => exact ensures_error
      | waitActivAck =>
        cases ev with
        | rslChanActivAck => exact (lchanFsmPostActivAck_step x l _).mono fun r => .after rfl
        | rslChanActivNack cause => exact ensures_ok.mpr (.unseen rfl rfl)
        | rtpReleased | rtpError => exact lchanRtpGone_step l w _
        | _ => exact ensures_error
      | waitRllRtpEstablish =>
        cases ev with
        | rllEstablishInd | rtpReady =>
          dsimp only [lchanFsmWaitRllRtpEstablish]
          split
          · exact lchanStateChg_step x l w _
          · exact ensures_ok.mpr (.unseen rfl rfl)
        | rtpReleased | rtpError => exact lchanRtpGone_step l w _
        | _ => exact ensures_error
      | established =>
        cases ev with
        | rllEstablishInd => exact ensures_ok.mpr (.unseen rfl rfl)
        | rllRelInd linkId | rllRelConf linkId =>
          exact ensures_ok.mpr (handleRllRelIndOrConf_step l w linkId rfl)
        | rtpReleased | rtpError => exact lchanRtpGone_step l w _
        | _ => exact ensures_error
      | waitRllRtpReleased =>
        cases ev with
        | rllRelInd linkId | rllRelConf linkId =>
          exact ensures_ok.mpr (handleRllRelIndOrConf_step l w linkId rfl)
        | rtpReleased | rtpError => exact ensures_ok.mpr (.unseen rfl rfl)
        | _ => exact ensures_error
      | waitRfReleaseAck =>
        cases ev with
        | rslRfChanRelAck =>
          dsimp only [lchanFsmWaitRfReleaseAck]
          split <;> exact lchanStateChg_step x l w _
        | rtpReleased => exact ensures_ok.mpr (.unseen rfl rfl)
        | _ => exact ensures_error
      | borken =>
        cases ev with
        | rslChanActivAck | rslRfChanRelAck =>
          exact (lchanStateChg_step x l _ _).mono fun r => .after rfl
        | rslChanActivNack cause => exact lchanStateChg_step x l w _
        | rtpReleased | rtpError => exact ensures_ok.mpr (.unseen rfl rfl)
        | _ => exact ensures_error
      | cbch | waitBeforeRfRelease | waitAfterError => exact ensures_ok.mpr (.unseen rfl rfl)

theorem lchanActivate_step (info : ActivateInfo) : Ensures (LchanStep w) (lchanActivate l info w) := by
  unfold lchanActivate
  dsimp only
  split
  · exact ensures_ok.mpr (.unseen rfl rfl)
  · split
    · exact ensures_error
    · split
      · exact ensures_ok.mpr (.unseen rfl rfl)
      · refine Ensures.bind fun k _ => ?_
        split <;> exact ensures_ok.mpr (.unseen rfl rfl)
      · exact ensures_ok.mpr (.unseen rfl rfl)
      · refine Ensures.bind fun k _ => ?_
        repeat' split
        all_goals exact ensures_ok.mpr (.unseen rfl rfl)
      · exact ensures_ok.mpr (.unseen rfl rfl)

theorem lchanOnActivationFailure_step (activFor : ActivFor) (forConn : Option ConnId) :
    Ensures (LchanStep w) (lchanOnActivationFailure l activFor forConn w) := by
  unfold lchanOnActivationFailure
  dsimp only
  split
  · exact ensures_ok.mpr (.unseen rfl rfl)
  · split
    · refine ensures_ok.mpr (.unseen ?_ rfl)
      split <;> simp [Tx.toMsc]
    · exact ensures_error
    · exact Ensures.bind fun k _ => ensures_ok.mpr (.unseen rfl rfl)
    · exact ensures_ok.mpr (.unseen rfl rfl)
    · refine Ensures.bind fun k _ => ensures_ok.mpr (.unseen rfl ?_)
      split <;> rfl
    · exact ensures_ok.mpr (.unseen rfl rfl)

theorem lchanTimeout_step : Ensures (LchanStep w) (lchanTimeout x l w) := by
  unfold lchanTimeout
  split
  · exact ensures_ok.mpr (.unseen rfl rfl)
  · exact lchanStateChg_step x l w _
  · exact lchanStateChg_step x l w _
  · split <;> exact ensures_ok.mpr (.unseen rfl rfl)

theorem lchanRelease_step (doRrRelease err : Bool) :
    Ensures (LchanStep w) (lchanRelease l doRrRelease err w) := by
  unfold lchanRelease
  repeat' split
  · exact ensures_ok.mpr (.unseen rfl rfl)
  · exact ensures_ok.mpr (.unseen rfl rfl)
  · refine ensures_ok.mpr (.unseen rfl ?_)
    dsimp only
    split <;> rfl

theorem lchanReleaseRest_step : Ensures (LchanStep w) (lchanReleaseRest l w) := by
  unfold lchanReleaseRest
  repeat' split
  · exact ensures_error
  all_goals try exact ensures_ok.mpr (.unseen rfl rfl)
  refine ensures_ok.mpr (.unseen (lchanDoRelease_mscView l w) ?_)
  simp [lchanDoRelease_fromLchan,Call.fromLchan,Call.lchanSide]

theorem lchanWaitReleasedRest_step : Ensures (LchanStep w) (lchanWaitReleasedRest cfg l w) := by
  unfold lchanWaitReleasedRest
  extract_lets quick w1
  have hw1 : w1.mscView = w.mscView := by
    dsimp only [w1]
    split <;> rfl
  clear_value w1
  split <;> exact ensures_ok.mpr (.unseen hw1 rfl)

theorem lchanResetRest_step : Ensures (LchanStep w) (lchanResetRest x l w) := by
  unfold lchanResetRest
  refine ensures_ok.mpr (.unseen ?_ rfl)
  dsimp only
  split <;> simp

theorem lchanCleanup_step : Ensures (LchanStep w) (lchanCleanup l w) := by
  refine Ensures.bind fun r hr => ensures_ok.mpr ?_
  have h := lchanReset_step l w r hr
  exact ⟨h.state,by simp [h.calls,Call.fromLchan,Call.lchanSide]⟩

theorem rtpUnlessReleased_step {go : Outcome} (hgo : Ensures (LchanStep w) go) :
    Ensures (LchanStep w) (rtpUnlessReleased l w go) := by
  unfold rtpUnlessReleased
  split
  · exact ensures_ok.mpr (.unseen rfl rfl)
  · exact hgo

theorem connectMgwEndpointToLchan_step (ci : Ci) {w1 : Bsc} (h : w1.mscView = w.mscView) :
    Ensures (LchanStep w) (connectMgwEndpointToLchan x l ci w1) := by
  unfold connectMgwEndpointToLchan
  split
  · exact ensures_ok.mpr (.unseen h rfl)
  · exact ensures_ok.mpr (.unseen (by simpa [Tx.toMsc] using h) rfl)

theorem rtpOnenter_step (st : RtpState) : Ensures (LchanStep w) (rtpOnenter cfg x l st w) := by
  unfold rtpOnenter
  split
  · unfold rtpWaitMgwEndpointAvailableOnenter
    split
    · exact ensures_ok.mpr (.unseen rfl rfl)
    · split
      · exact ensures_error
      · refine Ensures.bind fun k _ => ?_
        split
        · exact ensures_ok.mpr (.unseen rfl rfl)
        · refine ensures_ok.mpr (.unseen ?_ rfl)
          rw [Bsc.mscView_send _ (by simp [Tx.toMsc]),Bsc.mscView_updLchan]
          change (w.updConn _ _).mscView = _
          simp
  · unfold lchanRtpFsmPostLchanReady lchanRtpFsmSwitchRtp
    repeat' split
    all_goals exact ensures_ok.mpr (.unseen rfl rfl)
  · refine rtpUnlessReleased_step l w (ensures_ok.mpr (.unseen rfl ?_))
    split <;> rfl
  · refine rtpUnlessReleased_step l w (ensures_ok.mpr (.unseen rfl ?_))
    split <;> rfl
  · exact ensures_ok.mpr (.unseen rfl rfl)
  · refine rtpUnlessReleased_step l w ?_
    dsimp only
    split
    · exact ensures_ok.mpr (.unseen (by split <;> rfl) rfl)
    · exact connectMgwEndpointToLchan_step x l w _ (by split <;> rfl)
  · exact ensures_ok.mpr (.unseen rfl rfl)
  · unfold rtpRollbackOnenter
    split
    · exact connectMgwEndpointToLchan_step x l w _ rfl
    · exact ensures_ok.mpr (.unseen rfl rfl)
  · exact ensures_ok.mpr (.unseen rfl rfl)

theorem rtpStateChg_step (st : RtpState) : Ensures (LchanStep w) (rtpStateChg cfg x l st w) := by
  unfold rtpStateChg
  split
  · exact ensures_error
  · split
    · exact (rtpOnenter_step cfg x l _ st).mono fun r => .after rfl
    · exact ensures_ok.mpr (.unseen rfl rfl)

theorem lchanRtpFsmStart_step : Ensures (LchanStep w) (lchanRtpFsmStart cfg x l w) := by
  unfold lchanRtpFsmStart
  split
  · exact ensures_ok.mpr (.unseen rfl rfl)
  · split
    · exact ensures_error
    · exact (rtpStateChg_step cfg x l _ _).mono fun r => .after rfl

theorem rtpDispatch_step (ev : RtpEvent) : Ensures (LchanStep w) (rtpDispatch cfg l ev w) := by
  unfold rtpDispatch rtpWaitMgwEndpointAvailable rtpWaitLchanReady rtpWaitIpaccCrcxAck
    rtpWaitIpaccMdcxAck rtpWaitReadyToSwitchRtp rtpWaitMgwEndpointConfigured rtpReady rtpRollback
    rtpEstablished lchanRtpFsmPostLchanReady lchanRtpFsmSwitchRtp rtpNoteReadyToSwitch
  repeat' split
  all_goals first | exact ensures_error | exact ensures_ok.mpr (.unseen rfl rfl)

theorem rtpTerm_step : Ensures (LchanStep w) (rtpTerm x l w) := by
  unfold rtpTerm
  split
  · exact ensures_error
  · refine ensures_ok.mpr (.unseen ?_ rfl)
    dsimp only
    split <;> simp

theorem lchanAct_step (mode : ChanMode) : Ensures (LchanStep w) (lchanAct x l mode w) := by
  unfold lchanAct
  split
  · exact ensures_ok.mpr (.unseen rfl rfl)
  · split
    · exact ensures_error
    · refine ensures_ok.mpr (.unseen ?_ rfl)
      dsimp only
      split <;> simp [Tx.toMsc]
    · exact ensures_ok.mpr (.unseen rfl rfl)

theorem assertNotWaiting_step : Ensures (LchanStep w) (assertNotWaiting l w) := by
  unfold assertNotWaiting
  repeat' split
  · exact ensures_error
  · exact ensures_error
  · exact ensures_ok.mpr (.unseen rfl rfl)

end LchanSide

section TsSide

variable (cfg : TsId → TsCfg) (x : Foreign) (t : TsId) (w : Bsc)

theorem tsLchanDispatch_fromLchan (l : LchanId) (ev : LchanEvent) :
    (tsLchanDispatch w l ev).all Call.fromLchan = true := by
  unfold tsLchanDispatch
  split <;> rfl

theorem tsUnusedOnenter_step : Ensures (LchanStep w) (tsUnusedOnenter cfg t w) := by
  unfold tsUnusedOnenter
  repeat' split
  all_goals first | exact ensures_error | exact ensures_ok.mpr (.unseen rfl rfl)

theorem tsOnenter_step (st : TsState) : Ensures (LchanStep w) (tsOnenter cfg x t st w) := by
  cases st with
  | unused => exact tsUnusedOnenter_step cfg t w
  | waitPdchAct | waitPdchDeact =>
    refine ensures_ok.mpr (.unseen rfl ?_)
    split <;> rfl
  | pdch =>
    unfold tsOnenter tsPdchOnenter
    dsimp only
    repeat' split
    all_goals exact ensures_ok.mpr (.unseen rfl rfl)
  | inUse | notInitialized | borken => exact ensures_ok.mpr (.unseen rfl rfl)

theorem tsStateChg_step (st : TsState) : Ensures (LchanStep w) (tsStateChg cfg x t st w) := by
  unfold tsStateChg
  split
  · exact (tsOnenter_step cfg x t _ st).mono fun r => .after rfl
  · exact ensures_ok.mpr (.unseen rfl rfl)

theorem tsLchansDispatch_step (st : Option LchanState) (ev : LchanEvent) (i : Nat) :
    Ensures (LchanStep w) (tsLchansDispatch t st ev i w) := by
  unfold tsLchansDispatch
  repeat' split
  · refine ensures_ok.mpr (.unseen rfl ?_)
    rw [List.all_append,tsLchanDispatch_fromLchan]
    rfl
  · exact ensures_ok.mpr (.unseen rfl rfl)
  · exact ensures_ok.mpr (.unseen rfl rfl)

theorem tsInUseOnenter_step (i : Nat) (type : ChanT) :
    Ensures (LchanStep w) (tsInUseOnenter t i type w) := by
  have happ (type : ChanT) (l : LchanId) :
      (tsLchanDispatch w l .tsError ++ [Call.tsInUseOnenter t (i+1) type]).all Call.fromLchan = true := by
    rw [List.all_append,tsLchanDispatch_fromLchan]
    rfl
  unfold tsInUseOnenter
  dsimp only
  repeat' split
  all_goals
    first
    | exact ensures_ok.mpr (.unseen rfl rfl)
    | exact ensures_ok.mpr (.unseen rfl (happ _ _))

theorem tsTerminateLchanFsms_step (i : Nat) : Ensures (LchanStep w) (tsTerminateLchanFsms t i w) := by
  unfold tsTerminateLchanFsms
  split <;> exact ensures_ok.mpr (.unseen rfl rfl)

theorem tsFsmAllstate_step (ev : TsEvent) : Ensures (LchanStep w) (tsFsmAllstate t ev w) := by
  cases ev with
  | omlDown | rslDown =>
    unfold tsFsmAllstate
    dsimp only
    repeat' split
    all_goals first | exact ensures_error | exact ensures_ok.mpr (.unseen rfl rfl)
  | _ => exact ensures_error

theorem tsDispatch_step (ev : TsEvent) : Ensures (LchanStep w) (tsDispatch cfg t ev w) := by
  have hreq (l : LchanId) : Ensures (LchanStep w) (.ok (w,tsLchanDispatch w l .tsError) : Outcome) :=
    ensures_ok.mpr (.unseen rfl (tsLchanDispatch_fromLchan w l _))
  unfold tsDispatch
  split
  · exact tsFsmAllstate_step t w ev
  · exact ensures_ok.mpr (.unseen rfl rfl)
  · split
    · cases ev with
      | omlReady | rslReady | lchanRequested l =>
        refine ensures_ok.mpr (.unseen rfl ?_)
        split <;> rfl
      | lchanUnused l => exact ensures_ok.mpr (.unseen rfl rfl)
      | _ => exact ensures_error
    · unfold tsFsmUnused
      repeat' split
      all_goals first | exact ensures_error | exact ensures_ok.mpr (.unseen rfl rfl)
    · unfold tsFsmWaitPdchAct
      repeat' split
      all_goals first | exact ensures_error | exact ensures_ok.mpr (.unseen rfl rfl) | exact hreq _
    · unfold tsFsmPdch
      repeat' split
      all_goals first | exact ensures_error | exact ensures_ok.mpr (.unseen rfl rfl) | exact hreq _
    · unfold tsFsmWaitPdchDeact
      repeat' split
      all_goals first | exact ensures_error | exact ensures_ok.mpr (.unseen rfl rfl) | exact hreq _
    · unfold tsFsmInUse
      repeat' split
      all_goals first | exact ensures_error | exact ensures_ok.mpr (.unseen rfl rfl) | exact hreq _
    · unfold tsFsmBorken
      repeat' split
      all_goals first | exact ensures_error | exact ensures_ok.mpr (.unseen rfl rfl) | exact hreq _

theorem exec_lchanStep {call : Call} (hcall : call.lchanSide = true) :
    Ensures (LchanStep w) (exec cfg call x w) := by
  cases call with
  | tsDispatch t ev => exact tsDispatch_step cfg t w ev
  | tsTimeout t =>
    unfold exec tsTimeout
    dsimp only
    split <;> exact ensures_ok.mpr (.unseen rfl rfl)
  | tsStateChg t st => exact tsStateChg_step cfg x t w st
  | tsErrorChg t st =>
    unfold exec tsErrorChg
    dsimp only
    split
    · exact tsStateChg_step cfg x t w st
    · exact ensures_ok.mpr (.unseen rfl rfl)
  | tsLchansDispatch t st ev i => exact tsLchansDispatch_step t w st ev i
  | tsInUseOnenter t i type => exact tsInUseOnenter_step t w i type
  | tsTerminateLchanFsms t i => exact tsTerminateLchanFsms_step t w i
  | assertNotWaiting l => exact assertNotWaiting_step l w
  | lchanActivate l info => exact lchanActivate_step l w info
  | lchanDispatch l ev => exact lchanDispatch_step x l w ev
  | lchanTimeout l => exact lchanTimeout_step x l w
  | lchanStateChg l st => exact lchanStateChg_step x l w st
  | lchanOnActivationFailure l activFor forConn =>
    exact lchanOnActivationFailure_step l w activFor forConn
  | lchanFailChg l st =>
    unfold exec lchanFailChg
    dsimp only
    split
    · exact ensures_ok.mpr (.unseen rfl rfl)
    · exact lchanStateChg_step x l w st
  | lchanRtpFsmStart l => exact lchanRtpFsmStart_step cfg x l w
  | lchanRelease l doRrRelease err => exact lchanRelease_step l w doRrRelease err
  | lchanReleaseRest l => exact lchanReleaseRest_step l w
  | lchanExitReleaseHandler l => exact ensures_ok.mpr (.unseen rfl rfl)
  | lchanWaitReleasedRest l => exact lchanWaitReleasedRest_step cfg l w
  | lchanEstablishedRelRest l =>
    unfold exec lchanEstablishedRelRest
    dsimp only
    split
    · exact lchanStateChg_step x l w _
    · exact ensures_ok.mpr (.unseen rfl rfl)
  | lchanReleasedRelRest l =>
    unfold exec lchanReleasedRelRest
    dsimp only
    split
    · exact lchanStateChg_step x l w _
    · exact ensures_ok.mpr (.unseen rfl rfl)
  | lchanResetRest l => exact lchanResetRest_step x l w
  | lchanTerm l =>
    refine ensures_ok.mpr (.unseen rfl ?_)
    dsimp only
    split <;> rfl
  | lchanCleanup l => exact lchanCleanup_step l w
  | lchanCleanupRest l => exact ensures_ok.mpr (.unseen rfl rfl)
  | rtpDispatch l ev => exact rtpDispatch_step cfg l w ev
  | rtpTimeout l =>
    unfold exec rtpTimeout
    dsimp only
    split <;> exact ensures_ok.mpr (.unseen rfl rfl)
  | rtpStateChg l st => exact rtpStateChg_step cfg x l w st
  | rtpTerm l => exact rtpTerm_step x l w
  | rslRxChanRqd l type => exact ensures_ok.mpr (.unseen rfl rfl)
  | lchanAct l mode => exact lchanAct_step x l w mode
  | rllEstInd l sapi => exact ensures_ok.mpr (.unseen rfl rfl)
  | rllEstConf l sapi => exact ensures_ok.mpr (.unseen rfl rfl)
  | _ => cases hcall

end TsSide

end OsmoBsc.Chan
