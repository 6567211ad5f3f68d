import Mathlib.Data.Set.Insert
import OsmoBsc.Chan.Procedures
set_option autoImplicit false

namespace OsmoBsc.Chan
open EventFsm

/-- In the states without a timer of its own the connection has an lchan whose
release will tell it: the primary one, or the new one of the procedure that runs. -/
def Conn.attended (k : Conn) : Bool :=
  match k.fi with
  | .active => k.lchan.isSome
  | .assignment => k.lchan.isSome || k.assignmentNewLchan.isSome
  | .handover => k.lchan.isSome || k.hoNewLchan.isSome
  | .init | .waitCc | .clearing => true

def Bsc.neglected (w : Bsc) : Set ConnId := {c | ∃ k, w.conn c = some k ∧ k.attended = false}

def LchanState.forgets : LchanState → Bool
  | .unused | .waitRfReleaseAck | .borken => true
  | _ => false

/-- The lchan whose conn a call tells to forget it. -/
def Call.forgotten (w : Bsc) : Call → Option LchanId
  | .lchanStateChg l st | .lchanFailChg l st =>
    if st.forgets && (w.lchan l).fi.any (lchanFsm.outState · st) then some l else none
  | .lchanDispatch l _ => match (w.lchan l).fi with
    | some .waitRfReleaseAck | some .borken => some l
    | _ => none
  | .lchanTimeout l => match (w.lchan l).fi with
    | some .waitBeforeRfRelease | some .waitAfterError => some l
    | _ => none
  | .lchanCleanup l => some l
  | _ => none

/-- The event moves the connection to ST_ACTIVE. -/
def ConnEvent.activates (k : Conn) (ev : ConnEvent) : Bool :=
  match k.fi, ev with
  | .init, .handoverEnd result => result == some .ok && k.hoScope == .interBscIn
  | .waitCc, .aConnCfm => true
  | .assignment, .assignmentEnd => true
  | .handover, .handoverEnd _ => true
  | _, _ => false

/-- The connection when `lost` holds of it. -/
def Bsc.connIf (w : Bsc) (c : ConnId) (lost : Conn → Bool) : Option ConnId :=
  if (w.conn c).any lost then some c else none

/-- The connection that a call leaves without the lchan that it needs: one enters
ST_ACTIVE without a primary lchan, a new lchan is given up and there is no primary
one, or the last lchan is released or forgotten. -/
def Call.deprived (w : Bsc) (call : Call) : Option ConnId :=
  match call with
  | .connDispatch c ev => w.connIf c fun k => ev.activates k && k.lchan.isNone
  | .assignmentReset c | .assignmentResetRest c | .gsconLchanReleasingAssignment c =>
    w.connIf c fun k => k.fi == .assignment && k.lchan.isNone
  | .handoverEndNotify c result =>
    w.connIf c fun k => result == .ok && k.fi == .handover && k.lchan.isNone
  | .gsconReleaseLchan c l .. => w.connIf c fun k => !(k.releaseLchan l).attended
  | .gsconReleasePrimary c .. => w.connIf c fun k => k.lchan.any fun l => !(k.releaseLchan l).attended
  | call => (call.forgotten w).bind fun l =>
    (w.lchan l).conn.bind fun c => w.connIf c fun k => !(k.forgetLchan l).attended

/-- The calls after which a connection needs no lchan: `gscon_cleanup` frees it, and
`gscon_lchan_releasing` moves it to ST_CLEARING if the primary lchan is gone. -/
def Call.concludes : Call → Option ConnId
  | .gsconCleanup c => some c
  | .gsconLchanReleasing c _ | .gsconLchanReleasingHo c _ | .gsconLchanReleasingRest c _ => some c
  | _ => none

def Concluded (calls : List Call) (c : ConnId) : Prop := ∃ call ∈ calls, call.concludes = some c

instance (calls : List Call) (c : ConnId) : Decidable (Concluded calls c) :=
  inferInstanceAs (Decidable (∃ call ∈ calls, _))

/-- A call deprives a connection only when another one that is still to be made
concludes it. -/
def Heeded (s : Config) (_move : Move) : Prop :=
  ∀ c, (s.calls.head?.bind fun call => call.deprived s.state) = some c → Concluded s.calls c

instance (s : Config) (m : Move) : Decidable (Heeded s m) :=
  inferInstanceAs (Decidable (∀ _, _ → _))

section Frame

variable {w w1 : Bsc} {c : ConnId}

theorem Bsc.neglected_of_conn (h : w1.conn = w.conn) : w1.neglected ⊆ w.neglected := by
  rintro c ⟨k,hk,ha⟩
  exact ⟨k,h ▸ hk,ha⟩

theorem Bsc.neglected_updConn {f : Conn → Conn}
    (hf : ∀ k, w.conn c = some k → k.attended = true → (f k).attended = true) :
    (w.updConn c f).neglected ⊆ w.neglected := by
  rintro c' ⟨k',hk,ha⟩
  rcases eq_or_ne c' c with rfl | hne
  · rw [Bsc.updConn_self] at hk
    obtain ⟨k,hk1,rfl⟩ := Option.map_eq_some_iff.mp hk
    refine ⟨k,hk1,?_⟩
    cases hka : k.attended with
    | false => rfl
    | true => rw [hf k hk1 hka] at ha; cases ha
  · rw [Bsc.updConn_ne _ _ hne] at hk
    exact ⟨k',hk,ha⟩

theorem Bsc.neglected_set {f : Conn → Conn} (h : w1.neglected ⊆ w.neglected)
    (hf : ∀ k : Conn, (f k).attended = k.attended) : (w1.updConn c f).neglected ⊆ w.neglected :=
  Set.Subset.trans (neglected_updConn fun k _ hk => (hf k).trans hk) h

theorem Conn.attended_core (k : Conn) : k.core.attended = k.attended := rfl

theorem Bsc.neglected_of_mscView (h : w1.mscView = w.mscView) : w1.neglected ⊆ w.neglected := by
  rintro c ⟨k',hk,ha⟩
  have hc := congrFun (congrArg Prod.fst h) c
  simp only [Bsc.mscView,hk,Option.map_some] at hc
  cases hk0 : w.conn c with
  | none => simp [hk0] at hc
  | some k =>
    simp only [hk0,Option.map_some,Option.some.injEq] at hc
    refine ⟨k,hk0,?_⟩
    rw [← k.attended_core,← hc,Conn.attended_core,ha]

theorem Bsc.connIf_eq_some {lost : Conn → Bool} {c' : ConnId} :
    w.connIf c lost = some c' ↔ c = c' ∧ ∃ k, w.conn c = some k ∧ lost k = true := by
  unfold Bsc.connIf
  cases w.conn c with
  | none => simp
  | some k => simp [and_comm]

end Frame

def Unseen (w : Bsc) (r : Bsc × List Call) : Prop := r.1.mscView = w.mscView

/-- The conn of lchan `l` may be left without the lchan that it needs. -/
def Forgets (l : LchanId) (w w' : Bsc) : Prop :=
  w'.neglected ⊆ w.neglected ∪ {c | ((w.lchan l).conn.bind fun c =>
    w.connIf c fun k => !(k.forgetLchan l).attended) = some c}

section LchanSide

variable (cfg : TsId → TsCfg) (x : Foreign) (l : LchanId) (w : Bsc)

theorem Unseen.after {w w1 : Bsc} {r : Bsc × List Call} (h : w1.mscView = w.mscView)
    (hr : Unseen w1 r) : Unseen w r := Eq.trans hr h

theorem Forgets.unseen {w w1 : Bsc} (h : w1.mscView = w.mscView) : Forgets l w w1 :=
  fun _ hc => .inl (Bsc.neglected_of_mscView h hc)

theorem gsconForgetLchan_forgets {c : ConnId} {w w1 : Bsc} (hc : (w.lchan l).conn = some c)
    (h : gsconForgetLchan c l w = .ok w1) : Forgets l w w1 := by
  obtain ⟨k,hk,-⟩ := bind_eq_ok.mp h
  have hk := getConn_eq hk
  rw [gsconForgetLchan_eq l hk] at h
  have hconn : w1.conn = (w.updConn c (·.forgetLchan l)).conn := by
    split at h <;> cases h <;> rfl
  rintro c' ⟨k',hk',ha⟩
  rw [hconn] at hk'
  rcases eq_or_ne c' c with rfl | hne
  · right
    rw [Bsc.updConn_self,hk] at hk'
    cases hk'
    simp [hc,Bsc.connIf,hk,ha]
  · rw [Bsc.updConn_ne _ _ hne] at hk'
    exact .inl ⟨k',hk',ha⟩

theorem Forgets.then {w w1 w2 : Bsc} (h : Forgets l w w1) (h2 : w2.mscView = w1.mscView) :
    Forgets l w w2 := fun _ hc => h (Bsc.neglected_of_mscView h2 hc)

theorem Forgets.updLchan {w2 : Bsc} {f : Lchan → Lchan} (h : Forgets l (w.updLchan l f) w2)
    (hf : ∀ lchan, (f lchan).conn = lchan.conn) : Forgets l w w2 := by
  intro c hc
  rcases h hc with hc | hc
  · exact .inl hc
  · have hconn : ((w.updLchan l f).lchan l).conn = (w.lchan l).conn := by simp [Bsc.updLchan,hf]
    rw [hconn] at hc
    exact .inr hc

theorem lchanReset_forgets : Ensures (fun r => Forgets l w r.1) (lchanReset l w) := by
  unfold lchanReset
  dsimp only
  split
  · exact ensures_ok.mpr (.unseen l rfl)
  · rename_i c hc
    exact Ensures.bind fun w1 h1 => ensures_ok.mpr (gsconForgetLchan_forgets l hc h1)

theorem lchanWaitRfReleaseAckOnenter_forgets :
    Ensures (fun r => Forgets l w r.1) (lchanWaitRfReleaseAckOnenter l w) := by
  unfold lchanWaitRfReleaseAckOnenter
  dsimp only
  split
  · exact ensures_ok.mpr (.unseen l (by simp [Tx.toMsc]))
  · rename_i c hc
    exact Ensures.bind fun w1 h1 => ensures_ok.mpr
      ((gsconForgetLchan_forgets l hc h1).then l (by simp [Tx.toMsc,lchanForgetConn]))

theorem lchanOnenter_forgets {st : LchanState} (hst : st.forgets = true) :
    Ensures (fun r => Forgets l w r.1) (lchanOnenter x l st w) := by
  cases st with
  | unused => exact Ensures.bind fun r hr => ensures_ok.mpr (lchanReset_forgets l w r hr)
  | waitRfReleaseAck => exact lchanWaitRfReleaseAckOnenter_forgets l w
  | borken => exact lchanReset_forgets l w
  | _ => cases hst

theorem lchanOnFullyEstablished_unseen : Ensures (Unseen w) (lchanOnFullyEstablished l w) := by
  unfold lchanOnFullyEstablished
  split
  · exact ensures_ok.mpr rfl
  · dsimp only
    split
    · exact ensures_ok.mpr rfl
    · exact Ensures.bind fun k _ => ensures_ok.mpr rfl
    · exact ensures_ok.mpr rfl
    · exact Ensures.bind fun k _ => ensures_ok.mpr rfl
    · exact ensures_ok.mpr rfl

theorem lchanWaitTsReadyOnenter_unseen : Ensures (Unseen w) (lchanWaitTsReadyOnenter x l w) := by
  unfold lchanWaitTsReadyOnenter
  dsimp only
  split
  · exact ensures_ok.mpr rfl
  · split
    · exact ensures_ok.mpr rfl
    · exact ensures_ok.mpr rfl
    · exact ensures_ok.mpr rfl
    · split
      · exact ensures_ok.mpr rfl
      · split
        · exact ensures_error
        · refine Ensures.bind fun k _ => ?_
          split <;> exact ensures_ok.mpr rfl
    · exact ensures_ok.mpr rfl

theorem lchanWaitActivAckOnenter_unseen : Ensures (Unseen w) (lchanWaitActivAckOnenter x l w) := by
  have hactiv : Ensures (Unseen w) (if x.fail then .ok (w,lchanFailTo w l .unused)
      else .ok (w.send (.chanActiv l),[]) : Outcome) := by
    split
    · exact ensures_ok.mpr rfl
    · exact ensures_ok.mpr (by simp [Unseen,Tx.toMsc])
  unfold lchanWaitActivAckOnenter
  dsimp only
  split
  · exact ensures_ok.mpr rfl
  · split
    · exact ensures_error
    · exact Ensures.bind fun k _ => hactiv
    · exact hactiv

theorem lchanOnenter_unseen {st : LchanState} (hst : st.forgets = false) :
    Ensures (Unseen w) (lchanOnenter x l st w) := by
  cases st with
  | unused | waitRfReleaseAck | borken => cases hst
  | waitTsReady => exact lchanWaitTsReadyOnenter_unseen x l w
  | waitActivAck => exact lchanWaitActivAckOnenter_unseen x l w
  | established =>
    unfold lchanOnenter lchanEstablishedOnenter
    dsimp only
    split
    · exact ensures_ok.mpr rfl
    · exact lchanOnFullyEstablished_unseen l w
  | waitRllRtpReleased => exact ensures_ok.mpr (lchanDoRelease_mscView l w)
  | cbch | waitRllRtpEstablish | waitBeforeRfRelease | waitAfterError => exact ensures_ok.mpr rfl

theorem lchanStateChg_unseen {st : LchanState}
    (hst : (st.forgets && (w.lchan l).fi.any (lchanFsm.outState · st)) = false) :
    Ensures (Unseen w) (lchanStateChg x l st w) := by
  unfold lchanStateChg
  split
  · exact ensures_error
  · rename_i st' hfi
    split
    · rename_i hout
      simp only [hfi,Option.any_some,hout,Bool.and_true] at hst
      exact (lchanOnenter_unseen x l _ hst).mono fun r => .after rfl
    · exact ensures_ok.mpr rfl

theorem lchanStateChg_forgets (st : LchanState) :
    Ensures (fun r => Forgets l w r.1) (lchanStateChg x l st w) := by
  unfold lchanStateChg
  split
  · exact ensures_error
  · split
    · cases hst : st.forgets with
      | true =>
        exact (lchanOnenter_forgets x l _ hst).mono fun r hr => hr.updLchan l w fun _ => rfl
      | false => exact (lchanOnenter_unseen x l _ hst).mono fun r hr => .unseen l (.trans hr rfl)
    · exact ensures_ok.mpr (.unseen l rfl)

theorem lchanStateChg_keeps {st : LchanState} (hst : st.forgets = false) :
    Ensures (Unseen w) (lchanStateChg x l st w) :=
  lchanStateChg_unseen x l w (by simp [hst])

theorem lchanFsmPostActivAck_unseen : Ensures (Unseen w) (lchanFsmPostActivAck x l w) := by
  unfold lchanFsmPostActivAck
  dsimp only
  split
  · exact ensures_ok.mpr rfl
  · split
    · split
      · exact ensures_ok.mpr rfl
      · exact ensures_ok.mpr (by simp [Unseen,Tx.toMsc])
    · exact ensures_ok.mpr rfl
    · exact Ensures.bind fun k _ => ensures_ok.mpr rfl
    · exact ensures_ok.mpr rfl
    · exact Ensures.bind fun k _ => ensures_ok.mpr rfl
    · exact ensures_ok.mpr rfl

theorem lchanDispatch_unseen (ev : LchanEvent) (hl : (Call.lchanDispatch l ev).forgotten w = none) :
    Ensures (Unseen w) (lchanDispatch x l ev w) := by
  unfold lchanDispatch
  split
  · exact ensures_ok.mpr rfl
  · rename_i st hst
    split
    · exact ensures_ok.mpr rfl
    · exact ensures_ok.mpr rfl
    · cases st with
      | unused =>
        cases ev with
        | activate info =>
          unfold lchanFsmUnused
          dsimp only
          split
          · exact ensures_error
          · exact (lchanStateChg_keeps x l _ rfl).mono fun r => Unseen.after rfl
        | _ => exact ensures_error
      | waitTsReady =>
        cases ev with
        | tsReady => exact lchanStateChg_keeps x l w rfl
        | rtpReleased | rtpError => exact ensures_ok.mpr rfl
        | _ => exact ensures_error
      | waitActivAck =>
        cases ev with
        | rslChanActivAck => exact (lchanFsmPostActivAck_unseen x l _).mono fun r => Unseen.after rfl
        | rslChanActivNack cause => exact ensures_ok.mpr rfl
        | rtpReleased | rtpError => exact ensures_ok.mpr rfl
        | _ => exact ensures_error
      | waitRllRtpEstablish =>
        cases ev with
        | rllEstablishInd | rtpReady =>
          dsimp only [lchanFsmWaitRllRtpEstablish]
          split
          · exact lchanStateChg_keeps x l w rfl
          · exact ensures_ok.mpr rfl
        | rtpReleased | rtpError => exact ensures_ok.mpr rfl
        | _ => exact ensures_error
      | established =>
        cases ev with
        | rllEstablishInd | rtpReleased | rtpError => exact ensures_ok.mpr rfl
        | rllRelInd linkId | rllRelConf linkId => exact ensures_ok.mpr rfl
        | _ => exact ensures_error
      | waitRllRtpReleased =>
        cases ev with
        | rllRelInd linkId | rllRelConf linkId => exact ensures_ok.mpr rfl
        | rtpReleased | rtpError => exact ensures_ok.mpr rfl
        | _ => exact ensures_error
      | waitRfReleaseAck | borken => simp [Call.forgotten,hst] at hl
      | cbch | waitBeforeRfRelease | waitAfterError => exact ensures_ok.mpr rfl

theorem lchanDispatch_forgets (ev : LchanEvent)
    (hst : (w.lchan l).fi = some .waitRfReleaseAck ∨ (w.lchan l).fi = some .borken) :
    Ensures (fun r => Forgets l w r.1) (lchanDispatch x l ev w) := by
  have hchg : ∀ {f : Lchan → Lchan} st, (∀ lchan, (f lchan).conn = lchan.conn) →
      Ensures (fun r => Forgets l w r.1) (lchanStateChg x l st (w.updLchan l f)) :=
    fun st hf => (lchanStateChg_forgets x l _ st).mono fun r hr => hr.updLchan l w hf
  unfold lchanDispatch
  rcases hst with hst | hst
  · rw [hst]
    dsimp only
    split
    · exact ensures_ok.mpr (.unseen l rfl)
    · exact ensures_ok.mpr (.unseen l rfl)
    · cases ev with
      | rslRfChanRelAck =>
        dsimp only [lchanFsmWaitRfReleaseAck]
        split <;> exact lchanStateChg_forgets x l w _
      | rtpReleased => exact ensures_ok.mpr (.unseen l rfl)
      | _ => exact ensures_error
  · rw [hst]
    dsimp only
    split
    · exact ensures_ok.mpr (.unseen l rfl)
    · exact ensures_ok.mpr (.unseen l rfl)
    · cases ev with
      | rslChanActivAck | rslRfChanRelAck => exact hchg _ fun _ => rfl
      | rslChanActivNack cause => exact lchanStateChg_forgets x l w _
      | rtpReleased | rtpError => exact ensures_ok.mpr (.unseen l rfl)
      | _ => exact ensures_error

theorem lchanTimeout_unseen (hl : (Call.lchanTimeout l).forgotten w = none) :
    Ensures (Unseen w) (lchanTimeout x l w) := by
  unfold lchanTimeout
  split
  · exact ensures_ok.mpr rfl
  · rename_i hst
    simp [Call.forgotten,hst] at hl
  · rename_i hst
    simp [Call.forgotten,hst] at hl
  · split <;> exact ensures_ok.mpr rfl

theorem lchanTimeout_forgets : Ensures (fun r => Forgets l w r.1) (lchanTimeout x l w) := by
  unfold lchanTimeout
  split
  · exact ensures_ok.mpr (.unseen l rfl)
  · exact lchanStateChg_forgets x l w _
  · exact lchanStateChg_forgets x l w _
  · split <;> exact ensures_ok.mpr (.unseen l rfl)

theorem lchanActivate_unseen (info : ActivateInfo) : Ensures (Unseen w) (lchanActivate l info w) := by
  unfold lchanActivate
  dsimp only
  split
  · exact ensures_ok.mpr rfl
  · split
    · exact ensures_error
    · split
      · exact ensures_ok.mpr rfl
      · refine Ensures.bind fun k _ => ?_
        split <;> exact ensures_ok.mpr rfl
      · exact ensures_ok.mpr rfl
      · refine Ensures.bind fun k _ => ?_
        repeat' split
        all_goals exact ensures_ok.mpr rfl
      · exact ensures_ok.mpr rfl

theorem lchanOnActivationFailure_unseen (activFor : ActivFor) (forConn : Option ConnId) :
    Ensures (Unseen w) (lchanOnActivationFailure l activFor forConn w) := by
  unfold lchanOnActivationFailure
  dsimp only
  split
  · exact ensures_ok.mpr rfl
  · split
    · refine ensures_ok.mpr ?_
      dsimp only [Unseen]
      split <;> simp [Tx.toMsc]
    · exact ensures_error
    · exact Ensures.bind fun k _ => ensures_ok.mpr rfl
    · exact ensures_ok.mpr rfl
    · exact Ensures.bind fun k _ => ensures_ok.mpr rfl
    · exact ensures_ok.mpr rfl

theorem lchanRelease_unseen (doRrRelease err : Bool) :
    Ensures (Unseen w) (lchanRelease l doRrRelease err w) := by
  unfold lchanRelease
  repeat' split
  all_goals exact ensures_ok.mpr rfl

theorem lchanReleaseRest_unseen : Ensures (Unseen w) (lchanReleaseRest l w) := by
  unfold lchanReleaseRest
  repeat' split
  · exact ensures_error
  all_goals first | exact ensures_ok.mpr rfl | exact ensures_ok.mpr (lchanDoRelease_mscView l w)

theorem lchanWaitReleasedRest_unseen : Ensures (Unseen w) (lchanWaitReleasedRest cfg l w) := by
  unfold lchanWaitReleasedRest
  extract_lets quick w1
  have hw1 : w1.mscView = w.mscView := by
    dsimp only [w1]
    split <;> rfl
  clear_value w1
  split <;> exact ensures_ok.mpr hw1

theorem lchanResetRest_unseen : Ensures (Unseen w) (lchanResetRest x l w) := by
  unfold lchanResetRest
  refine ensures_ok.mpr ?_
  dsimp only [Unseen]
  split <;> simp

theorem rtpUnlessReleased_unseen {go : Outcome} (hgo : Ensures (Unseen w) go) :
    Ensures (Unseen w) (rtpUnlessReleased l w go) := by
  unfold rtpUnlessReleased
  split
  · exact ensures_ok.mpr rfl
  · exact hgo

theorem connectMgwEndpointToLchan_unseen (ci : Ci) {w1 : Bsc} (h : w1.mscView = w.mscView) :
    Ensures (Unseen w) (connectMgwEndpointToLchan x l ci w1) := by
  unfold connectMgwEndpointToLchan
  split
  · exact ensures_ok.mpr h
  · exact ensures_ok.mpr (by simpa [Unseen,Tx.toMsc] using h)

theorem rtpOnenter_unseen (st : RtpState) : Ensures (Unseen w) (rtpOnenter cfg x l st w) := by
  unfold rtpOnenter
  split
  · unfold rtpWaitMgwEndpointAvailableOnenter
    split
    · exact ensures_ok.mpr rfl
    · split
      · exact ensures_error
      · refine Ensures.bind fun k _ => ?_
        split
        · exact ensures_ok.mpr rfl
        · refine ensures_ok.mpr ?_
          dsimp only [Unseen]
          rw [Bsc.mscView_send _ (by simp [Tx.toMsc]),Bsc.mscView_updLchan]
          change (w.updConn _ _).mscView = _
          simp
  · unfold lchanRtpFsmPostLchanReady lchanRtpFsmSwitchRtp
    repeat' split
    all_goals exact ensures_ok.mpr rfl
  · exact rtpUnlessReleased_unseen l w (ensures_ok.mpr rfl)
  · exact rtpUnlessReleased_unseen l w (ensures_ok.mpr rfl)
  · exact ensures_ok.mpr rfl
  · refine rtpUnlessReleased_unseen l w ?_
    dsimp only
    split
    · refine ensures_ok.mpr ?_
      dsimp only [Unseen]
      split <;> rfl
    · exact connectMgwEndpointToLchan_unseen x l w _ (by split <;> rfl)
  · exact ensures_ok.mpr rfl
  · unfold rtpRollbackOnenter
    split
    · exact connectMgwEndpointToLchan_unseen x l w _ rfl
    · exact ensures_ok.mpr rfl
  · exact ensures_ok.mpr rfl

theorem rtpStateChg_unseen (st : RtpState) : Ensures (Unseen w) (rtpStateChg cfg x l st w) := by
  unfold rtpStateChg
  split
  · exact ensures_error
  · split
    · exact (rtpOnenter_unseen cfg x l _ st).mono fun r => .after rfl
    · exact ensures_ok.mpr rfl

theorem lchanRtpFsmStart_unseen : Ensures (Unseen w) (lchanRtpFsmStart cfg x l w) := by
  unfold lchanRtpFsmStart
  split
  · exact ensures_ok.mpr rfl
  · split
    · exact ensures_error
    · exact (rtpStateChg_unseen cfg x l _ _).mono fun r => .after rfl

theorem rtpDispatch_unseen (ev : RtpEvent) : Ensures (Unseen w) (rtpDispatch cfg l ev w) := by
  unfold rtpDispatch rtpWaitMgwEndpointAvailable rtpWaitLchanReady rtpWaitIpaccCrcxAck
    rtpWaitIpaccMdcxAck rtpWaitReadyToSwitchRtp rtpWaitMgwEndpointConfigured rtpReady rtpRollback
    rtpEstablished lchanRtpFsmPostLchanReady lchanRtpFsmSwitchRtp rtpNoteReadyToSwitch
  repeat' split
  all_goals first | exact ensures_error | exact ensures_ok.mpr rfl

theorem rtpTerm_unseen : Ensures (Unseen w) (rtpTerm x l w) := by
  unfold rtpTerm
  split
  · exact ensures_error
  · refine ensures_ok.mpr ?_
    dsimp only [Unseen]
    split <;> simp

theorem lchanAct_unseen (mode : ChanMode) : Ensures (Unseen w) (lchanAct x l mode w) := by
  unfold lchanAct
  split
  · exact ensures_ok.mpr rfl
  · split
    · exact ensures_error
    · refine ensures_ok.mpr ?_
      dsimp only [Unseen]
      split <;> simp [Tx.toMsc]
    · exact ensures_ok.mpr rfl

theorem assertNotWaiting_unseen : Ensures (Unseen w) (assertNotWaiting l w) := by
  unfold assertNotWaiting
  repeat' split
  · exact ensures_error
  · exact ensures_error
  · exact ensures_ok.mpr rfl

end LchanSide

section TsSide

variable (cfg : TsId → TsCfg) (x : Foreign) (t : TsId) (w : Bsc)

theorem tsStateChg_unseen (st : TsState) : Ensures (Unseen w) (tsStateChg cfg x t st w) := by
  unfold tsStateChg
  split
  · cases st with
    | unused =>
      dsimp only [tsOnenter]
      unfold tsUnusedOnenter
      repeat' split
      all_goals first | exact ensures_error | exact ensures_ok.mpr rfl
    | pdch =>
      dsimp only [tsOnenter,tsPdchOnenter]
      repeat' split
      all_goals exact ensures_ok.mpr rfl
    | waitPdchAct | waitPdchDeact | inUse | notInitialized | borken => exact ensures_ok.mpr rfl
  · exact ensures_ok.mpr rfl

theorem tsDispatch_unseen (ev : TsEvent) : Ensures (Unseen w) (tsDispatch cfg t ev w) := by
  unfold tsDispatch
  split
  · cases ev with
    | omlDown | rslDown =>
      dsimp only [tsFsmAllstate]
      repeat' split
      all_goals first | exact ensures_error | exact ensures_ok.mpr rfl
    | _ => exact ensures_error
  · exact ensures_ok.mpr rfl
  · split
    · cases ev with
      | omlReady | rslReady | lchanRequested l | lchanUnused l => exact ensures_ok.mpr rfl
      | _ => exact ensures_error
    · unfold tsFsmUnused
      repeat' split
      all_goals first | exact ensures_error | exact ensures_ok.mpr rfl
    · unfold tsFsmWaitPdchAct
      repeat' split
      all_goals first | exact ensures_error | exact ensures_ok.mpr rfl
    · unfold tsFsmPdch
      repeat' split
      all_goals first | exact ensures_error | exact ensures_ok.mpr rfl
    · unfold tsFsmWaitPdchDeact
      repeat' split
      all_goals first | exact ensures_error | exact ensures_ok.mpr rfl
    · unfold tsFsmInUse
      repeat' split
      all_goals first | exact ensures_error | exact ensures_ok.mpr rfl
    · unfold tsFsmBorken
      repeat' split
      all_goals first | exact ensures_error | exact ensures_ok.mpr rfl

theorem tsLchansDispatch_unseen (st : Option LchanState) (ev : LchanEvent) (i : Nat) :
    Ensures (Unseen w) (tsLchansDispatch t st ev i w) := by
  unfold tsLchansDispatch
  repeat' split
  all_goals exact ensures_ok.mpr rfl

theorem tsInUseOnenter_unseen (i : Nat) (type : ChanT) :
    Ensures (Unseen w) (tsInUseOnenter t i type w) := by
  unfold tsInUseOnenter
  dsimp only
  repeat' split
  all_goals exact ensures_ok.mpr rfl

def Deprives (call : Call) (w w' : Bsc) : Prop :=
  w'.neglected ⊆ w.neglected ∪ {c | call.deprived w = some c}

theorem Deprives.of_subset {call : Call} {w w' : Bsc} (h : w'.neglected ⊆ w.neglected) :
    Deprives call w w' := fun _ hc => .inl (h hc)

theorem Unseen.deprives {call : Call} {w : Bsc} {r : Bsc × List Call} (h : Unseen w r) :
    Deprives call w r.1 := .of_subset (Bsc.neglected_of_mscView h)

theorem Forgets.deprives {call : Call} {l : LchanId} {w w' : Bsc} (h : Forgets l w w')
    (hcall : call.lchanSide = true) (hl : call.forgotten w = some l) : Deprives call w w' := by
  intro c hc
  refine (h hc).imp id fun hc => ?_
  have hd : call.deprived w = (call.forgotten w).bind fun l =>
      (w.lchan l).conn.bind fun c => w.connIf c fun k => !(k.forgetLchan l).attended := by
    cases call <;> first | rfl | cases hcall
  change call.deprived w = some c
  rw [hd,hl]
  exact hc

theorem exec_lchanDeprives {call : Call} (hcall : call.lchanSide = true) :
    Ensures (fun r => Deprives call w r.1) (exec cfg call x w) := by
  have unseen {call : Call} {o : Outcome} (h : Ensures (Unseen w) o) :
      Ensures (fun r => Deprives call w r.1) o := h.mono fun _ hr => hr.deprives
  have same {call : Call} {new : List Call} : Ensures (fun r => Deprives call w r.1) (.ok (w,new) : Outcome) :=
    unseen (ensures_ok.mpr rfl)
  have chg {l : LchanId} {st : LchanState} : Ensures (fun r => Deprives (.lchanStateChg l st) w r.1)
      (lchanStateChg x l st w) := by
    cases h : st.forgets && (w.lchan l).fi.any (lchanFsm.outState · st) with
    | false => exact unseen (lchanStateChg_unseen x l w h)
    | true =>
      refine (lchanStateChg_forgets x l w st).mono fun r hr => hr.deprives rfl ?_
      simp [Call.forgotten,h]
  cases call with
  | tsDispatch t ev => exact unseen (tsDispatch_unseen cfg t w ev)
  | tsTimeout t =>
    unfold exec tsTimeout
    dsimp only
    split <;> exact same
  | tsStateChg t st => exact unseen (tsStateChg_unseen cfg x t w st)
  | tsErrorChg t st =>
    unfold exec tsErrorChg
    dsimp only
    split
    · exact unseen (tsStateChg_unseen cfg x t w st)
    · exact same
  | tsLchansDispatch t st ev i => exact unseen (tsLchansDispatch_unseen t w st ev i)
  | tsInUseOnenter t i type => exact unseen (tsInUseOnenter_unseen t w i type)
  | tsTerminateLchanFsms t i =>
    unfold exec tsTerminateLchanFsms
    dsimp only
    split <;> exact unseen (ensures_ok.mpr rfl)
  | assertNotWaiting l => exact unseen (assertNotWaiting_unseen l w)
  | lchanActivate l info => exact unseen (lchanActivate_unseen l w info)
  | lchanDispatch l ev =>
    cases h : (Call.lchanDispatch l ev).forgotten w with
    | none => exact unseen (lchanDispatch_unseen x l w ev h)
    | some l' =>
      have hst : ((w.lchan l).fi = some .waitRfReleaseAck ∨ (w.lchan l).fi = some .borken) ∧ l' = l := by
        unfold Call.forgotten at h
        split at h <;> grind
      rw [hst.2] at h
      exact (lchanDispatch_forgets x l w ev hst.1).mono fun r hr => hr.deprives rfl h
  | lchanTimeout l =>
    cases h : (Call.lchanTimeout l).forgotten w with
    | none => exact unseen (lchanTimeout_unseen x l w h)
    | some l' =>
      have hl : l' = l := by
        unfold Call.forgotten at h
        split at h <;> grind
      rw [hl] at h
      exact (lchanTimeout_forgets x l w).mono fun r hr => hr.deprives rfl h
  | lchanStateChg l st => exact chg
  | lchanOnActivationFailure l activFor forConn =>
    exact unseen (lchanOnActivationFailure_unseen l w activFor forConn)
  | lchanFailChg l st =>
    unfold exec lchanFailChg
    dsimp only
    split
    · exact same
    · exact chg
  | lchanRtpFsmStart l => exact unseen (lchanRtpFsmStart_unseen cfg x l w)
  | lchanRelease l doRrRelease err => exact unseen (lchanRelease_unseen l w doRrRelease err)
  | lchanReleaseRest l => exact unseen (lchanReleaseRest_unseen l w)
  | lchanExitReleaseHandler l => exact unseen (ensures_ok.mpr rfl)
  | lchanWaitReleasedRest l => exact unseen (lchanWaitReleasedRest_unseen cfg l w)
  | lchanEstablishedRelRest l =>
    unfold exec lchanEstablishedRelRest
    dsimp only
    split
    · exact unseen (lchanStateChg_keeps x l w rfl)
    · exact same
  | lchanReleasedRelRest l =>
    unfold exec lchanReleasedRelRest
    dsimp only
    split
    · exact unseen (lchanStateChg_keeps x l w rfl)
    · exact same
  | lchanResetRest l => exact unseen (lchanResetRest_unseen x l w)
  | lchanTerm l => exact same
  | lchanCleanup l =>
    refine Ensures.bind fun r hr => ensures_ok.mpr ?_
    exact (lchanReset_forgets l w r hr).deprives rfl rfl
  | lchanCleanupRest l => exact unseen (ensures_ok.mpr rfl)
  | rtpDispatch l ev => exact unseen (rtpDispatch_unseen cfg l w ev)
  | rtpTimeout l =>
    unfold exec rtpTimeout
    dsimp only
    split <;> exact unseen (ensures_ok.mpr rfl)
  | rtpStateChg l st => exact unseen (rtpStateChg_unseen cfg x l w st)
  | rtpTerm l => exact unseen (rtpTerm_unseen x l w)
  | rslRxChanRqd l type => exact unseen (ensures_ok.mpr rfl)
  | lchanAct l mode => exact unseen (lchanAct_unseen x l w mode)
  | rllEstInd l sapi => exact unseen (ensures_ok.mpr rfl)
  | rllEstConf l sapi => exact unseen (ensures_ok.mpr rfl)
  | _ => cases hcall

end TsSide

end OsmoBsc.Chan
