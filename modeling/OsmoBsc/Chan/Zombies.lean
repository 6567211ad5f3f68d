import OsmoBsc.Chan.Attended
set_option autoImplicit false

namespace OsmoBsc.Chan
open EventFsm

/-- Every connection that a step leaves without the lchan that it needs was so before. -/
def Minds (w : Bsc) (r : Bsc × List Call) : Prop := r.1.neglected ⊆ w.neglected

section ConnSide

variable (x : Foreign) (c : ConnId) (l : LchanId) (w : Bsc)

theorem Minds.same (calls : List Call) : Minds w (w,calls) := fun _ h => h

theorem Minds.after {w w1 : Bsc} {r : Bsc × List Call} (h : w1.neglected ⊆ w.neglected)
    (hr : Minds w1 r) : Minds w r := Set.Subset.trans hr h

theorem Minds.updConn {w w1 : Bsc} {f : Conn → Conn} {calls : List Call}
    (h : w1.neglected ⊆ w.neglected) (hf : ∀ k : Conn, (f k).attended = k.attended) :
    Minds w (w1.updConn c f,calls) := Bsc.neglected_set h hf

theorem Conn.attended_of_lchan {k : Conn} (h : k.lchan.isSome = true) : k.attended = true := by
  unfold Conn.attended
  split <;> simp [h]

theorem Conn.attended_of_clearing {k : Conn}
    (h : k.fi = .init ∨ k.fi = .waitCc ∨ k.fi = .clearing) : k.attended = true := by
  rcases h with h | h | h <;> simp [Conn.attended,h]

theorem onAssignmentFailure_minds (k : Conn) : Minds w (onAssignmentFailure c k w) :=
  Bsc.neglected_of_conn rfl

theorem sendAssignmentComplete_minds : Ensures (Minds w) (sendAssignmentComplete x c w) :=
  fun _ hr => Bsc.neglected_of_conn (sendAssignmentComplete_conn hr)

theorem gsconConnectMgwToMsc_minds {k : Conn} {r : Option Ci × Bsc}
    (h : gsconConnectMgwToMsc x c k w = some r) : r.2.neglected ⊆ w.neglected := by
  unfold gsconConnectMgwToMsc at h
  split at h
  · split at h
    · cases h
    · cases h
      refine Bsc.neglected_of_conn ?_
      dsimp only
      split <;> rfl
  · split at h
    · cases h
    · cases h
      exact Bsc.neglected_set (fun _ h => h) fun _ => rfl

theorem assignmentOnenter_minds (k : Conn) (st : AssignmentState) :
    Ensures (Minds w) (assignmentOnenter x c k st w) := by
  unfold assignmentOnenter assignmentWaitMgwEndpointToMscOnenter
  repeat' split
  all_goals
    first
    | exact ensures_error
    | exact ensures_ok.mpr (.same w _)
    | exact ensures_ok.mpr (onAssignmentFailure_minds c w k)
    | exact ensures_ok.mpr (.updConn c (fun _ h => h) fun _ => rfl)
    | rename_i h
      exact ensures_ok.mpr (.updConn c (gsconConnectMgwToMsc_minds x c w h) fun _ => rfl)

theorem assignmentStateChg_minds (st : AssignmentState) :
    Ensures (Minds w) (assignmentStateChg x c st w) := by
  refine Ensures.bind fun k _ => ?_
  split
  · exact ensures_error
  · split
    · exact (assignmentOnenter_minds x c _ _ st).mono fun r =>
        .after (Bsc.neglected_set (fun _ h => h) fun _ => rfl)
    · exact ensures_ok.mpr (.same w _)

theorem assignmentDispatch_minds (ev : AssignmentEvent) :
    Ensures (Minds w) (assignmentDispatch x c ev w) := by
  refine Ensures.bind fun k _ => ?_
  unfold assignmentAllstate assignmentAction
  repeat' split
  all_goals
    first
    | exact ensures_error
    | exact ensures_ok.mpr (.same w _)
    | exact ensures_ok.mpr (onAssignmentFailure_minds c w k)
    | exact assignmentStateChg_minds x c w _

theorem assignmentStart_minds (sel : Select) (req : List ChannelModeAndRate) :
    Ensures (Minds w) (assignmentStart x c sel req w) := by
  refine Ensures.bind fun k _ => ?_
  split
  · exact ensures_error
  extract_lets w1 k1
  have h1 : w1.neglected ⊆ w.neglected :=
    Bsc.neglected_set (fun _ h => h) fun _ => rfl
  clear_value w1
  split
  · exact ensures_ok.mpr (.after h1 (onAssignmentFailure_minds ..))
  · split
    · exact ensures_ok.mpr (.after h1 (onAssignmentFailure_minds ..))
    · exact ensures_error
  · rename_i voice old _ _
    extract_lets w2
    have h2 : w2.neglected ⊆ w.neglected := Bsc.neglected_set h1 fun _ => rfl
    clear_value w2
    split
    · exact Ensures.bind fun r hr => ensures_ok.mpr
        (Minds.after h2 (sendAssignmentComplete_minds x c w2 r hr))
    · have hsel := assignmentSelect_conn sel req w2
      split
      · rename_i heq
        rw [heq] at hsel
        exact ensures_ok.mpr (.after ((Bsc.neglected_of_conn hsel).trans h2)
          (onAssignmentFailure_minds ..))
      · rename_i l m w3 heq
        rw [heq] at hsel
        refine ensures_ok.mpr (.after ((Bsc.neglected_of_conn hsel).trans h2) ?_)
        refine Bsc.neglected_updConn fun k _ hk => ?_
        unfold Conn.attended at hk ⊢
        split <;> simp_all

theorem releaseCi_minds (ci : Option Ci) : Bsc.neglected (match ci with
    | none => w
    | some ci => osmoMgcpcEpCiDlcx x ci (gsconForgetMgwEndpointCi c ci w)) ⊆ w.neglected := by
  split
  · exact fun _ h => h
  · refine (Bsc.neglected_of_mscView (osmoMgcpcEpCiDlcx_mscView x _ _)).trans ?_
    exact Bsc.neglected_set (fun _ h => h) fun _ => rfl

theorem assignmentSuccessSend_minds : Ensures (Minds w) (assignmentSuccessSend x c w) := by
  refine Ensures.bind fun k hk => Ensures.bind fun r hr => ensures_ok.mpr ?_
  have hs := sendAssignmentComplete_minds x c _ r hr
  refine Set.Subset.trans hs (Bsc.neglected_updConn fun k1 hk1 _ => ?_)
  obtain ⟨k2,hk2,hr⟩ := bind_eq_ok.mp hr
  have hk2 := getConn_eq hk2
  rw [Bsc.updConn_self,hk1] at hk2
  cases hk2
  split at hr
  · cases hr
  · rename_i l hl
    exact Conn.attended_of_lchan (by simpa using congrArg Option.isSome hl)

theorem hoOnenter_minds (k : Conn) (st : HoState) : Ensures (Minds w) (hoOnenter x c k st w) := by
  unfold hoOnenter hoWaitMgwEndpointToMscOnenter hoWaitRrHoDetectOnenter
  repeat' split
  all_goals
    first
    | exact ensures_error
    | exact ensures_ok.mpr (.same w _)
    | exact ensures_ok.mpr (.updConn c (fun _ h => h) fun _ => rfl)
    | rename_i h
      exact ensures_ok.mpr (.updConn c (gsconConnectMgwToMsc_minds x c w h) fun _ => rfl)

theorem hoStateChg_minds (st : HoState) : Ensures (Minds w) (hoStateChg x c st w) := by
  refine Ensures.bind fun k _ => ?_
  split
  · exact ensures_error
  · split
    · exact (hoOnenter_minds x c _ _ st).mono fun r =>
        .after (Bsc.neglected_set (fun _ h => h) fun _ => rfl)
    · exact ensures_ok.mpr (.same w _)

theorem hoDispatch_minds (ev : HoEvent) : Ensures (Minds w) (hoDispatch x c ev w) := by
  refine Ensures.bind fun k _ => ?_
  split
  · exact ensures_ok.mpr (.same w _)
  · split
    · unfold hoAllstate
      split
      all_goals first | exact ensures_error | exact ensures_ok.mpr (.same w _)
    · unfold hoAction hoSwitchRtp
      repeat' split
      all_goals
        first
        | exact ensures_error
        | exact hoStateChg_minds x c w _
        | exact ensures_ok.mpr (.same w _)
    · exact ensures_ok.mpr (.same w _)

theorem handoverEnd_minds (result : HoResult) : Ensures (Minds w) (handoverEnd x c result w) := by
  refine Ensures.bind fun k _ => ?_
  extract_lets result1 result2 w1
  have hw1 : Minds w (w1,[.handoverEndChange c result2]) := by
    refine Bsc.neglected_of_conn ?_
    dsimp only [w1]
    repeat' split
    all_goals rfl
  clear_value w1 result2 result1
  split
  · exact ensures_ok.mpr hw1
  · repeat' split
    all_goals
      first
      | exact ensures_error
      | exact ensures_ok.mpr (.same w _)
      | exact ensures_ok.mpr (Bsc.neglected_of_conn rfl)
  · exact ensures_ok.mpr (.same w _)

theorem sendHandoverPerformed_conn (k : Conn) :
    Ensures (fun w1 => w1.conn = w.conn) (sendHandoverPerformed x c k w) := by
  unfold sendHandoverPerformed
  repeat' split
  · exact ensures_error
  · exact ensures_ok.mpr rfl
  · exact ensures_error
  · exact ensures_ok.mpr rfl
  · exact ensures_ok.mpr rfl

theorem handoverEndChange_minds (result : HoResult) :
    Ensures (Minds w) (handoverEndChange x c result w) := by
  refine Ensures.bind fun k _ => ?_
  split
  · dsimp only
    have hw1 : (w.updConn c ({ · with hoCreatedCiForMsc := none })).neglected ⊆ w.neglected :=
      Bsc.neglected_set (fun _ h => h) fun _ => rfl
    split
    · exact Ensures.bind fun w1 h1 => ensures_ok.mpr
        ((Bsc.neglected_of_conn (sendHandoverPerformed_conn x c _ k w1 h1)).trans hw1)
    · exact ensures_ok.mpr hw1
  · exact ensures_ok.mpr (.same w _)

theorem handoverReset_minds (k : Conn)
    (h : ∀ k, w.conn c = some k → k.fi ≠ .handover ∨ k.hoNewLchan = none) :
    (handoverReset x c k w).neglected ⊆ w.neglected := by
  unfold handoverReset
  extract_lets w1
  have hl : Loses w w1 := releaseCi_loses x c w _
  have hw1 : w1.neglected ⊆ w.neglected := releaseCi_minds x c w _
  clear_value w1
  refine (Bsc.neglected_updConn fun k1 hk1 ha => ?_).trans hw1
  obtain ⟨k0,hk0,hl⟩ := hl c k1 hk1
  unfold Conn.attended Conn.clearHo at *
  rcases h k0 hk0 with hfi | hn
  · have hne : k1.fi ≠ .handover := fun he => hfi (hl.fi.symm.trans he)
    dsimp only
    split <;> simp_all
  · have hn1 := hl.hoNewLchan hn
    simpa [hn1] using ha

theorem handoverStartIntraBsc_minds {k : Conn} {type : ChanT} {sameCell : Bool} {sel : Select} :
    Ensures (Minds w) (handoverStartIntraBsc c k type sameCell sel w) := by
  unfold handoverStartIntraBsc
  split
  · exact ensures_error
  split
  · exact ensures_error
  extract_lets w2
  have h2 : w2.neglected ⊆ w.neglected := Bsc.neglected_set (fun _ h => h) fun _ => rfl
  clear_value w2
  have hsel := lchanSelectByType_conn sel type w2
  split
  · rename_i heq
    rw [heq] at hsel
    exact ensures_ok.mpr ((Bsc.neglected_of_conn hsel).trans h2)
  · rename_i l w3 heq
    rw [heq] at hsel
    refine ensures_ok.mpr (.after ((Bsc.neglected_of_conn hsel).trans h2) ?_)
    refine Bsc.neglected_updConn fun k _ hk => ?_
    unfold Conn.attended at hk ⊢
    split <;> simp_all

theorem handoverStartReset_minds {newType : ChanT} {target : HoTarget}
    (h : ∀ k, w.conn c = some k → k.fi ≠ .handover ∨ k.hoNewLchan = none) :
    Ensures (Minds w) (handoverStartReset x c newType target w) := by
  refine Ensures.bind fun k hk => ?_
  split
  · exact ensures_error
  have hr := handoverReset_minds x c w k h
  generalize handoverReset x c k w = w1 at hr ⊢
  extract_lets w2 type w3
  have h2 : w2.neglected ⊆ w.neglected := Bsc.neglected_set hr fun _ => rfl
  have h3 : w3.neglected ⊆ w.neglected := Bsc.neglected_set h2 fun _ => rfl
  clear_value w2 w3 type
  split
  · exact (handoverStartIntraBsc_minds c _).mono fun r => .after h2
  · split
    · exact ensures_ok.mpr h3
    · exact ensures_ok.mpr (.updConn c h3 fun _ => rfl)
  · exact ensures_ok.mpr h2

theorem handoverStartInterBscIn_minds {sel : Select} {req : Option ChannelModeAndRate}
    (h : ∀ k, w.conn c = some k → k.fi = .init) :
    Ensures (Minds w) (handoverStartInterBscIn x c sel req w) := by
  refine Ensures.bind fun k hk => ?_
  split
  · exact ensures_error
  extract_lets w1
  have h1 : w1.neglected ⊆ w.neglected :=
    Bsc.neglected_updConn fun k hk _ => Conn.attended_of_clearing (.inl (h k hk))
  clear_value w1
  split
  · exact ensures_ok.mpr h1
  · rename_i m
    have hsel := lchanSelectByChanMode_conn sel m w1
    split
    · rename_i heq
      rw [heq] at hsel
      exact ensures_ok.mpr ((Bsc.neglected_of_conn hsel).trans h1)
    · rename_i l w2 heq
      rw [heq] at hsel
      extract_lets w3
      have h3 : w3.neglected ⊆ w.neglected := by
        refine (Bsc.neglected_updConn fun k _ hk => ?_).trans ((Bsc.neglected_of_conn hsel).trans h1)
        unfold Conn.attended at hk ⊢
        split <;> simp_all
      clear_value w3
      split <;> exact ensures_ok.mpr h3

theorem handoverEndRest_minds (h : ∀ k, w.conn c = some k → k.fi ≠ .handover) :
    Ensures (Minds w) (handoverEndRest x c w) := by
  refine Ensures.bind fun k hk => ?_
  split
  · exact ensures_error
  refine ensures_ok.mpr (.updConn c ?_ fun _ => rfl)
  refine (handoverReset_minds x c _ k fun k1 hk1 => .inr ?_).trans
    (Bsc.neglected_updConn fun k1 hk1 ha => ?_)
  · rw [Bsc.updConn_self] at hk1
    obtain ⟨k0,hk0,rfl⟩ := Option.map_eq_some_iff.mp hk1
    rfl
  · have hfi := h k1 hk1
    unfold Conn.attended at ha ⊢
    dsimp only
    split <;> simp_all

theorem osmoMgcpcEpClear_minds : (osmoMgcpcEpClear c w).neglected ⊆ w.neglected := by
  refine Bsc.neglected_of_mscView ?_
  unfold osmoMgcpcEpClear
  repeat' split
  · simp [Tx.toMsc]
  · rfl
  · rfl

theorem unlessNull_forgetConn_conn (o : Option LchanId) :
    (unlessNull lchanForgetConn o w).conn = w.conn := by
  cases o <;> rfl

theorem connStateChg_minds {k : Conn} {st : ConnState} (hk : w.conn c = some k)
    (h : gsconFsm.outState k.fi st = true → k.attended = true →
      ({ k with fi := st } : Conn).attended = true) :
    (connStateChg c k st w).neglected ⊆ w.neglected := by
  unfold connStateChg
  split
  · rename_i hout
    have hu : (w.updConn c ({ · with fi := st })).neglected ⊆ w.neglected :=
      Bsc.neglected_updConn fun k1 hk1 ha => by
        rw [hk] at hk1
        cases hk1
        exact h hout ha
    dsimp only
    split
    · exact (Bsc.neglected_of_conn rfl).trans hu
    · exact hu
  · exact fun _ h => h

theorem connStateChg_active {k : Conn} {ev : ConnEvent} (hk : w.conn c = some k)
    (hev : ev.activates k = true) :
    Deprives (.connDispatch c ev) w (connStateChg c k .active w) := by
  cases hl : k.lchan with
  | none =>
    rintro c' ⟨k',hk',ha⟩
    obtain ⟨k1,hk1,-⟩ := connStateChg_conn hk'
    rcases eq_or_ne c' c with rfl | hne
    · right
      change w.connIf c' _ = some c'
      exact Bsc.connIf_eq_some.mpr ⟨rfl,k,hk,by simp [hev,hl]⟩
    · refine .inl ⟨k',?_,ha⟩
      rw [← hk']
      unfold connStateChg
      split
      · dsimp only
        split
        · exact (Bsc.updConn_ne _ _ hne).symm
        · exact (Bsc.updConn_ne _ _ hne).symm
      · rfl
  | some l => exact .of_subset (connStateChg_minds c w hk fun _ _ => by simp [Conn.attended,hl])

theorem connDispatch_deprives (ev : ConnEvent) :
    Ensures (fun r => Deprives (.connDispatch c ev) w r.1) (connDispatch x c ev w) := by
  have same {new : List Call} :
      Ensures (fun r => Deprives (.connDispatch c ev) w r.1) (.ok (w,new) : Outcome) :=
    ensures_ok.mpr (.of_subset fun _ h => h)
  refine Ensures.bind fun k hk => ?_
  have hk := getConn_eq hk
  have hsend : ∀ m new, Ensures (fun r => Deprives (.connDispatch c ev) w r.1)
      (.ok (gsconSigtranSend k m w,new) : Outcome) := by
    intro m new
    refine ensures_ok.mpr (.of_subset (Bsc.neglected_of_conn ?_))
    unfold gsconSigtranSend
    split <;> rfl
  have hclear : ∀ w1 : Bsc, w1.conn = w.conn →
      (connStateChg c k .clearing w1).neglected ⊆ w.neglected := by
    intro w1 h1
    exact (connStateChg_minds c w1 (h1 ▸ hk) fun _ _ =>
      Conn.attended_of_clearing (.inr (.inr rfl))).trans (Bsc.neglected_of_conn h1)
  split
  · unfold gsconFsmAllstate
    split
    · refine ensures_ok.mpr (.of_subset ?_)
      dsimp only
      split
      · exact hclear w rfl
      · exact fun _ h => h
    · exact same
    · exact ensures_ok.mpr (.of_subset (Bsc.neglected_of_mscView (by simp)))
    · refine ensures_ok.mpr (.of_subset (Bsc.neglected_of_conn ?_))
      dsimp only
      split <;> rfl
    · exact ensures_error
  · exact same
  · rename_i hv
    have hin := gsconFsm_inEvent.1 hv
    split
    · rename_i hfi
      unfold gsconFsmInit
      split
      · split
        · exact same
        · exact ensures_ok.mpr (.of_subset (connStateChg_minds c w hk fun _ _ =>
            Conn.attended_of_clearing (.inr (.inl rfl))))
      · split <;> exact same
      · rename_i result
        split
        · rename_i hres
          refine ensures_ok.mpr (connStateChg_active c w hk ?_)
          simp [ConnEvent.activates,hfi,hres]
        · exact ensures_ok.mpr (.of_subset (hclear _ rfl))
      · exact ensures_error
    · rename_i hfi
      refine ensures_ok.mpr (connStateChg_active c w hk ?_)
      rw [hfi] at hin
      unfold ConnEvent.activates
      rw [hfi]
      cases ev <;> first | rfl | cases hin
    · rename_i hfi
      unfold gsconFsmActive
      split
      · split
        · exact same
        · rename_i hl
          refine ensures_ok.mpr (.of_subset (connStateChg_minds c w hk fun _ _ => ?_))
          exact Conn.attended_of_lchan (Option.isSome_iff_ne_none.mpr (by simpa using hl))
      · refine ensures_ok.mpr (.of_subset (connStateChg_minds c w hk fun _ ha => ?_))
        have hl : k.lchan.isSome = true := by simpa [Conn.attended,hfi] using ha
        exact Conn.attended_of_lchan hl
      · exact same
      · exact hsend _ _
      · exact ensures_error
    · rename_i hfi
      unfold gsconFsmProcedure
      rw [hfi] at hin
      split
      · exact ensures_ok.mpr (connStateChg_active c w hk (by simp [ConnEvent.activates,hfi]))
      · cases hin
      · exact same
      · exact hsend _ _
      · exact ensures_error
    · rename_i hfi
      unfold gsconFsmProcedure
      rw [hfi] at hin
      split
      · cases hin
      · exact ensures_ok.mpr (connStateChg_active c w hk (by simp [ConnEvent.activates,hfi]))
      · exact same
      · exact hsend _ _
      · exact ensures_error
    · exact same

theorem Deprives.updConn {call : Call} {f : Conn → Conn} {lost : Conn → Bool} {w1 : Bsc}
    (hcall : call.deprived w = w.connIf c lost) (h1 : w1.conn = (w.updConn c f).conn)
    (hf : ∀ k, k.attended = true → lost k = false → (f k).attended = true) : Deprives call w w1 := by
  rintro c' ⟨k',hk',ha⟩
  rw [h1] at hk'
  rcases eq_or_ne c' c with rfl | hne
  · rw [Bsc.updConn_self] at hk'
    obtain ⟨k,hk,rfl⟩ := Option.map_eq_some_iff.mp hk'
    cases hka : k.attended with
    | false => exact .inl ⟨k,hk,hka⟩
    | true =>
      right
      change call.deprived w = some c'
      rw [hcall]
      refine Bsc.connIf_eq_some.mpr ⟨rfl,k,hk,?_⟩
      cases hl : lost k with
      | true => rfl
      | false => rw [hf k hka hl] at ha; cases ha
  · rw [Bsc.updConn_ne _ _ hne] at hk'
    exact .inl ⟨k',hk',ha⟩

theorem Bsc.connIf_congr {w w1 : Bsc} {c : ConnId} {lost : Conn → Bool}
    (hlost : ∀ k : Conn, lost k.core = lost k) (h : w1.mscView = w.mscView) :
    w1.connIf c lost = w.connIf c lost := by
  have hany : ∀ o : Option Conn, (o.map Conn.core).any lost = o.any lost := by
    intro o
    cases o with
    | none => rfl
    | some k => exact hlost k
  have hc := congrFun (congrArg Prod.fst h) c
  dsimp only [Bsc.mscView] at hc
  unfold Bsc.connIf
  rw [← hany (w1.conn c),← hany (w.conn c),hc]

theorem Deprives.before {call : Call} {w1 w2 : Bsc} (h : w1.mscView = w.mscView)
    (hcall : w1.mscView = w.mscView → call.deprived w1 = call.deprived w)
    (hd : Deprives call w1 w2) : Deprives call w w2 := by
  intro c hc
  rcases hd hc with hc | hc
  · exact .inl (Bsc.neglected_of_mscView h hc)
  · exact .inr (hcall h ▸ hc)

theorem releaseCi_mscView (ci : Option Ci) : Bsc.mscView (match ci with
    | none => w
    | some ci => osmoMgcpcEpCiDlcx x ci (gsconForgetMgwEndpointCi c ci w)) = w.mscView := by
  split
  · rfl
  · rw [osmoMgcpcEpCiDlcx_mscView]
    exact Bsc.mscView_updConn w c fun _ => rfl

theorem assignmentReset_deprives :
    Ensures (fun r => Deprives (.assignmentReset c) w r.1) (assignmentReset c w) := by
  refine Ensures.bind fun k _ => ?_
  split
  · exact ensures_ok.mpr (.of_subset fun _ h => h)
  · refine ensures_ok.mpr (.updConn c w rfl rfl fun k ha hl => ?_)
    unfold Conn.attended at ha ⊢
    dsimp only
    split <;> simp_all

theorem assignmentResetRest_deprives :
    Ensures (fun r => Deprives (.assignmentResetRest c) w r.1) (assignmentResetRest x c w) := by
  refine Ensures.bind fun k _ => ensures_ok.mpr ?_
  refine .before w (releaseCi_mscView x c w _) (fun h => Bsc.connIf_congr (fun _ => rfl) h)
    (.updConn c _ rfl rfl fun k ha hl => ?_)
  unfold Conn.attended at ha ⊢
  dsimp only
  split <;> simp_all

theorem gsconLchanReleasingAssignment_deprives :
    Ensures (fun r => Deprives (.gsconLchanReleasingAssignment c) w r.1)
      (gsconLchanReleasingAssignment c w) := by
  refine Ensures.bind fun k _ => ensures_ok.mpr ?_
  refine .updConn c w rfl (f := ({ · with assignmentNewLchan := none })) ?_ fun k ha hl => ?_
  · simp only [Bsc.updConn,unlessNull_forgetConn_conn]
  · unfold Conn.attended at ha ⊢
    dsimp only
    split <;> simp_all

theorem handoverEndNotify_deprives (result : HoResult) :
    Ensures (fun r => Deprives (.handoverEndNotify c result) w r.1) (handoverEndNotify c result w) := by
  refine Ensures.bind fun k _ => ensures_ok.mpr ?_
  dsimp only
  split
  · refine .updConn c w rfl rfl fun k ha hl => ?_
    unfold Conn.attended at ha ⊢
    dsimp only
    split <;> simp_all
  · exact .of_subset fun _ h => h

theorem gsconReleaseLchan_conn {doRrRelease err : Bool} {r : Bsc × List Call}
    (h : gsconReleaseLchan c l doRrRelease err w = .ok r) :
    r.1.conn = (w.updConn c (·.releaseLchan l)).conn := by
  obtain ⟨k,-,h⟩ := bind_eq_ok.mp h
  cases h
  dsimp only
  split <;> rfl

theorem gsconReleaseLchan_deprives (doRrRelease err : Bool) :
    Ensures (fun r => Deprives (.gsconReleaseLchan c l doRrRelease err) w r.1)
      (gsconReleaseLchan c l doRrRelease err w) := by
  intro r hr
  refine .updConn c w rfl (gsconReleaseLchan_conn c l w hr) fun k ha hl => ?_
  simpa using hl

theorem gsconReleasePrimary_deprives (doRrRelease err : Bool) :
    Ensures (fun r => Deprives (.gsconReleasePrimary c doRrRelease err) w r.1)
      (gsconReleasePrimary c doRrRelease err w) := by
  refine Ensures.bind fun k hk => ?_
  have hk := getConn_eq hk
  split
  · exact ensures_ok.mpr (.of_subset fun _ h => h)
  · rename_i l hl
    intro r hr c' hc'
    rcases gsconReleaseLchan_deprives c l w doRrRelease err r hr hc' with hc | hc
    · exact .inl hc
    · obtain ⟨rfl,k1,hk1,ha⟩ := Bsc.connIf_eq_some.mp hc
      rw [hk] at hk1
      cases hk1
      exact .inr (Bsc.connIf_eq_some.mpr ⟨rfl,k,hk,by simpa [hl] using ha⟩)

theorem Bsc.neglected_updConn_insert (f : Conn → Conn) :
    (w.updConn c f).neglected ⊆ insert c w.neglected := by
  rintro c' ⟨k',hk',ha⟩
  rcases eq_or_ne c' c with rfl | hne
  · exact .inl rfl
  · rw [Bsc.updConn_ne _ _ hne] at hk'
    exact .inr ⟨k',hk',ha⟩

theorem handoverEndRest_others :
    Ensures (fun r => r.1.neglected ⊆ insert c w.neglected) (handoverEndRest x c w) := by
  refine Ensures.bind fun k _ => ?_
  split
  · exact ensures_error
  have hins : ∀ {w1 : Bsc} (f : Conn → Conn), w1.neglected ⊆ insert c w.neglected →
      (w1.updConn c f).neglected ⊆ insert c w.neglected := fun f h =>
    (Bsc.neglected_updConn_insert c _ f).trans (Set.insert_subset (Set.mem_insert ..) h)
  refine ensures_ok.mpr (hins _ (hins _ ?_))
  exact (releaseCi_minds x c _ _).trans (hins _ (Set.subset_insert ..))

/-- After `gscon_lchan_releasing` the connection has its primary lchan or is in a
state that needs none. -/
theorem gsconLchanReleasingRest_minds :
    Ensures (fun r => r.1.neglected ⊆ w.neglected \ {c}) (gsconLchanReleasingRest c l w) := by
  refine Ensures.bind fun k hk => ?_
  have hk := getConn_eq hk
  have hset : ∀ {w' : Bsc} (k' : Conn), w'.conn = Function.update w.conn c (some k') →
      k'.attended = true → w'.neglected ⊆ w.neglected \ {c} := by
    rintro w' k' hw ha c' ⟨k1,hk1,ha1⟩
    rw [hw] at hk1
    rcases eq_or_ne c' c with rfl | hne
    · rw [Function.update_self] at hk1
      cases hk1
      rw [ha] at ha1
      cases ha1
    · rw [Function.update_of_ne hne] at hk1
      exact ⟨⟨k1,hk1,ha1⟩,hne⟩
  have hchg : ∀ {w1 : Bsc} {k1 : Conn}, w1.conn = Function.update w.conn c (some k1) →
      k1.fi = k.fi → (gsconBssmapClear c (if k.fi ≠ .clearing then connStateChg c k .clearing w1
        else w1)).neglected ⊆ w.neglected \ {c} := by
    intro w1 k1 h1 hfi
    unfold connStateChg
    split
    · rename_i hne
      split
      · refine hset { k1 with fi := .clearing } ?_ rfl
        simp [gsconBssmapClear,Bsc.updConn,h1]
      · rename_i hout
        refine hset k1 h1 (Conn.attended_of_clearing ?_)
        rw [hfi]
        cases hk1 : k.fi <;> simp_all [gsconFsm]
    · rename_i hfi1
      refine hset k1 h1 (Conn.attended_of_clearing (.inr (.inr ?_)))
      simpa [hfi] using hfi1
  extract_lets gone w1
  have h1 : w1.conn = Function.update w.conn c (some (if gone then { k with lchan := none } else k)) := by
    dsimp only [w1]
    split
    · simp [Bsc.updConn,lchanForgetConn,hk]
    · simp [← hk]
  clear_value w1
  split
  · refine ensures_ok.mpr (hchg h1 ?_)
    split <;> rfl
  · rename_i hlchan
    refine ensures_ok.mpr (hset k ?_ (Conn.attended_of_lchan ?_))
    · rw [h1,if_neg fun h => hlchan (.inl h)]
    · exact Option.isSome_iff_ne_none.mpr fun h => hlchan (.inr h)

theorem gsconSigtranSend_conn (k : Conn) (m : Tx) : (gsconSigtranSend k m w).conn = w.conn := by
  unfold gsconSigtranSend
  split <;> rfl

theorem gsm0808SendRslDtap_minds {k : Conn} (hk : k.fi = .active) :
    (gsm0808SendRslDtap x c k w).neglected ⊆ w.neglected := by
  refine Bsc.neglected_of_conn ?_
  unfold gsm0808SendRslDtap connStateChg
  rw [hk]
  split
  · exact gsconSigtranSend_conn w k _
  · rfl

theorem gsconSubmitRslDtap_minds : Ensures (Minds w) (gsconSubmitRslDtap x c w) := by
  refine Ensures.bind fun k _ => ?_
  split
  · rename_i hk
    exact ensures_ok.mpr (gsm0808SendRslDtap_minds x c w hk)
  · split
    · exact ensures_ok.mpr (.same w _)
    · exact ensures_ok.mpr (.updConn c (fun _ h => h) fun _ => rfl)

theorem gsconDtapQueueFlush_minds (h : ∀ k, w.conn c = some k → k.fi = .active) :
    Ensures (Minds w) (gsconDtapQueueFlush x c w) := by
  refine Ensures.bind fun k hk => ?_
  split
  · exact ensures_ok.mpr (.same w _)
  · exact ensures_ok.mpr ((gsm0808SendRslDtap_minds x c _ (h k (getConn_eq hk))).trans
      (Bsc.neglected_set (fun _ h => h) fun _ => rfl))

theorem gsconDtapQueueFlush_others :
    Ensures (fun r => r.1.neglected ⊆ insert c w.neglected) (gsconDtapQueueFlush x c w) := by
  refine Ensures.bind fun k _ => ?_
  split
  · exact ensures_ok.mpr (Set.subset_insert ..)
  · refine ensures_ok.mpr ?_
    rintro c' ⟨k',hk',ha⟩
    rcases eq_or_ne c' c with rfl | hne
    · exact .inl rfl
    · rw [gsm0808SendRslDtap_other hne,Bsc.updConn_ne _ _ hne] at hk'
      exact .inr ⟨k',hk',ha⟩

theorem gsconChangePrimaryLchan_minds (new : Option LchanId) :
    Ensures (Minds w) (gsconChangePrimaryLchan c new w) := by
  refine Ensures.bind fun k _ => ?_
  split
  · exact ensures_error
  · exact ensures_ok.mpr (Bsc.neglected_updConn fun k _ _ => Conn.attended_of_lchan rfl)

theorem gsconCleanup_minds :
    Ensures (fun r => r.1.neglected ⊆ w.neglected \ {c}) (gsconCleanup c w) := by
  refine Ensures.bind fun k _ => ensures_ok.mpr ?_
  rintro c' ⟨k',hk',ha⟩
  simp only [Bsc.freeConn,unlessNull_forgetConn_conn] at hk'
  rcases eq_or_ne c' c with rfl | hne
  · simp at hk'
  · rw [Function.update_of_ne hne] at hk'
    exact ⟨⟨k',hk',ha⟩,hne⟩

theorem Bsc.neglected_allocConn {k : Conn} (hk : k.fi = .init) :
    (w.allocConn c k).neglected ⊆ w.neglected := by
  rintro c' ⟨k',hk',ha⟩
  rcases eq_or_ne c' c with rfl | hne
  · simp only [Bsc.allocConn,Function.update_self,Option.some.injEq] at hk'
    rw [← hk',Conn.attended_of_clearing (.inl hk)] at ha
    cases ha
  · simp only [Bsc.allocConn,Function.update_of_ne hne] at hk'
    exact ⟨k',hk',ha⟩

theorem dispatchDtap_minds (msg : L3Msg) : Ensures (Minds w) (dispatchDtap x c msg w) := by
  refine Ensures.bind fun k _ => ?_
  unfold bscDtap
  dsimp only
  repeat' split
  all_goals first | exact ensures_error | exact ensures_ok.mpr (.same w _)

theorem gsm0408Rcvmsg_minds (msg : L3Msg) (newConn : ConnId) (aoip : Bool) :
    Ensures (Minds w) (gsm0408Rcvmsg x l msg newConn aoip w) := by
  rcases gsm0408Rcvmsg_cases x l msg newConn aoip w with h | ⟨c,-,h⟩ | h | ⟨hfree,h⟩ <;> rw [h]
  · exact ensures_ok.mpr (.same w _)
  · exact dispatchDtap_minds x c w msg
  · exact ensures_ok.mpr (.same w _)
  · exact ensures_ok.mpr (Bsc.neglected_allocConn newConn w rfl)

theorem minds_ok (calls : List Call) : Ensures (Minds w) (.ok (w,calls) : Outcome) :=
  ensures_ok.mpr (.same w _)

theorem assignmentTimeout_minds : Ensures (Minds w) (assignmentTimeout c w) := by
  refine Ensures.bind fun k _ => ?_
  split
  · exact ensures_ok.mpr (onAssignmentFailure_minds c w k)
  · exact minds_ok w _

theorem assignmentTerm_minds (parent : Bool) : Ensures (Minds w) (assignmentTerm c parent w) := by
  refine Ensures.bind fun k _ => ?_
  split
  · exact ensures_error
  · exact minds_ok w _

theorem assignmentCleanupRest_minds (parent : Bool) :
    Ensures (Minds w) (assignmentCleanupRest c parent w) :=
  Ensures.bind fun _ _ => ensures_ok.mpr (.updConn c (fun _ h => h) fun _ => rfl)

theorem assignmentSuccessRest_minds : Ensures (Minds w) (assignmentSuccessRest c w) := by
  refine Ensures.bind fun k _ => ?_
  split
  · exact minds_ok w _
  · exact ensures_ok.mpr (.updConn c (fun _ h => h) fun _ => rfl)

theorem hoTimeout_minds : Ensures (Minds w) (hoTimeout c w) := by
  refine Ensures.bind fun k _ => ?_
  split <;> exact minds_ok w _

theorem handoverStart_minds (newType : ChanT) (target : HoTarget) :
    Ensures (Minds w) (handoverStart c newType target w) := by
  refine Ensures.bind fun k _ => ?_
  split <;> exact minds_ok w _

theorem connTimeout_minds : Ensures (Minds w) (connTimeout c w) := by
  refine Ensures.bind fun k _ => ?_
  split <;> exact minds_ok w _

theorem connClearRest_minds : Ensures (Minds w) (connClearRest c w) := by
  refine Ensures.bind fun k _ => ensures_ok.mpr ?_
  split
  · exact osmoMgcpcEpClear_minds c w
  · exact (Bsc.neglected_of_conn rfl).trans (osmoMgcpcEpClear_minds c w)

theorem gsconTerm_minds : Ensures (Minds w) (gsconTerm c w) :=
  Ensures.bind fun _ _ => ensures_ok.mpr (osmoMgcpcEpClear_minds c w)

theorem gsconTermChildren_minds : Ensures (Minds w) (gsconTermChildren c w) :=
  Ensures.bind fun _ _ => ensures_ok.mpr (.updConn c (fun _ h => h) fun _ => rfl)

theorem bssmapHandleAssignmReq_minds (sel : Select) (req : AssignmReq) :
    Ensures (Minds w) (bssmapHandleAssignmReq c sel req w) := by
  refine Ensures.bind fun k _ => Ensures.bind fun r _ => ?_
  split <;> exact minds_ok w _

theorem sccpNConnect_minds (aoip : Bool) (sel : Select) (req : Option ChannelModeAndRate) :
    Ensures (Minds w) (sccpNConnect c aoip sel req w) := by
  unfold sccpNConnect
  split
  · exact minds_ok w _
  · exact ensures_ok.mpr (Bsc.neglected_allocConn c w rfl)

end ConnSide

section Step

variable {cfg : TsId → TsCfg} {x : Foreign} {w w' : Bsc} {call : Call} {new rest : List Call}

theorem Pends.concluded {calls : List Call} {c : ConnId} (h : Pends calls c .free) :
    Concluded calls c := by
  obtain ⟨call,hcall,hm⟩ := h
  refine ⟨call,hcall,?_⟩
  cases call with
  | gsconCleanup c' => simpa [Call.mark,Call.concludes] using hm
  | connDispatch c' ev => cases ev <;> simp [Call.mark] at hm
  | assignmentCleanupRest c' parent | assignmentTerm c' parent => cases parent <;> simp [Call.mark] at hm
  | _ => simp [Call.mark] at hm

theorem handoverStartReset_minds_staged {c : ConnId} {newType : ChanT} {target : HoTarget}
    (h : Procedures w (.handoverStartReset c newType target :: rest)) :
    Ensures (Minds w) (handoverStartReset x c newType target w) := by
  cases h.staged.1 rfl
  refine handoverStartReset_minds x c w fun k hk => .inr ?_
  have hex := h.exclusive c k hk (by simp [Call.mark])
  exact hex.hoNew (hex.hoStart (by simp [nextMark,Call.mark,Mark.passing])).2

theorem handoverStartInterBscIn_minds_staged {c : ConnId} {sel : Select}
    {req : Option ChannelModeAndRate}
    (h : Procedures w (.handoverStartInterBscIn c sel req :: rest)) :
    Ensures (Minds w) (handoverStartInterBscIn x c sel req w) := by
  cases h.staged.1 rfl
  refine handoverStartInterBscIn_minds x c w fun k hk => ?_
  have hex := h.exclusive c k hk (by simp [Call.mark])
  exact (hex.fresh (by simp [nextMark,Call.mark,Mark.passing])).1

/-- The end of a handover takes no lchan, unless its connection is about to go. -/
theorem handoverEndRest_deprives {c c' : ConnId}
    (h : Procedures w (.handoverEndRest c' :: rest)) (he : handoverEndRest x c' w = .ok (w',new))
    (hc : c ∈ w'.neglected) : c ∈ w.neglected ∨ Concluded rest c := by
  by_cases hfree : Pends rest c' .free
  · rcases handoverEndRest_others x c' w _ he hc with rfl | hc
    · exact .inr hfree.concluded
    · exact .inl hc
  · refine .inl (handoverEndRest_minds x c' w (fun k hk hfi => ?_) _ he hc)
    have hex := h.exclusive c' k hk (by simpa [Call.mark] using hfree)
    have hn := hex.released (by simp [Call.mark]) hfi
    simp [nextMark,Call.mark,Mark.passing] at hn

theorem gsconDtapQueueFlush_deprives {c c' : ConnId}
    (h : Procedures w (.gsconDtapQueueFlush c' :: rest))
    (he : gsconDtapQueueFlush x c' w = .ok (w',new)) (hc : c ∈ w'.neglected) :
    c ∈ w.neglected ∨ Concluded rest c := by
  by_cases hfree : Pends rest c' .free
  · rcases gsconDtapQueueFlush_others x c' w _ he hc with rfl | hc
    · exact .inr hfree.concluded
    · exact .inl hc
  · refine .inl (gsconDtapQueueFlush_minds x c' w (fun k hk => ?_) _ he hc)
    have hex := h.exclusive c' k hk (by simpa [Call.mark] using hfree)
    exact hex.flush (by simp [nextMark,Call.mark,Mark.passing])

theorem exec_deprives (h : Procedures w (call :: rest)) (he : exec cfg call x w = .ok (w',new))
    {c : ConnId} (hc : c ∈ w'.neglected) :
    c ∈ w.neglected ∨ call.deprived w = some c ∨ Concluded rest c := by
  have minds : Ensures (Minds w) (exec cfg call x w) →
      c ∈ w.neglected ∨ call.deprived w = some c ∨ Concluded rest c := fun h => .inl (h _ he hc)
  have deprives : Ensures (fun r => Deprives call w r.1) (exec cfg call x w) →
      c ∈ w.neglected ∨ call.deprived w = some c ∨ Concluded rest c := fun h =>
    (h _ he hc).imp id .inl
  cases call with
  | assignmentDispatch c ev => exact minds (assignmentDispatch_minds x c w ev)
  | assignmentTimeout c => exact minds (assignmentTimeout_minds c w)
  | assignmentStart c sel req => exact minds (assignmentStart_minds x c w sel req)
  | assignmentStartReuseRest c => exact minds (Ensures.bind fun k _ => minds_ok w _)
  | assignmentTerm c parent => exact minds (assignmentTerm_minds c w parent)
  | assignmentCleanupRest c parent => exact minds (assignmentCleanupRest_minds c w parent)
  | assignmentReset c => exact deprives (assignmentReset_deprives c w)
  | assignmentResetRest c => exact deprives (assignmentResetRest_deprives x c w)
  | assignmentStateChg c st => exact minds (assignmentStateChg_minds x c w st)
  | assignmentSuccess c => exact minds (Ensures.bind fun k _ => minds_ok w _)
  | assignmentSuccessSend c => exact minds (assignmentSuccessSend_minds x c w)
  | assignmentSuccessRest c => exact minds (assignmentSuccessRest_minds c w)
  | hoDispatch c ev => exact minds (hoDispatch_minds x c w ev)
  | hoTimeout c => exact minds (hoTimeout_minds c w)
  | hoStateChg c st => exact minds (hoStateChg_minds x c w st)
  | handoverStart c newType target => exact minds (handoverStart_minds c w newType target)
  | handoverStartReset c newType target => exact minds (handoverStartReset_minds_staged h)
  | handoverStartInterBscIn c sel req => exact minds (handoverStartInterBscIn_minds_staged h)
  | handoverEnd c result => exact minds (handoverEnd_minds x c w result)
  | handoverEndChange c result => exact minds (handoverEndChange_minds x c w result)
  | handoverEndNotify c result => exact deprives (handoverEndNotify_deprives c w result)
  | handoverEndRelease c => exact minds (Ensures.bind fun k _ => minds_ok w _)
  | handoverEndRest c' => exact (handoverEndRest_deprives h he hc).imp id .inr
  | connDispatch c ev => exact deprives (connDispatch_deprives x c w ev)
  | connTimeout c => exact minds (connTimeout_minds c w)
  | connClearRest c => exact minds (connClearRest_minds c w)
  | gsconUpdateId c => exact minds (Ensures.bind fun k _ => minds_ok w _)
  | gsconChangePrimaryLchan c l => exact minds (gsconChangePrimaryLchan_minds c w l)
  | gsconReleaseLchan c l doRrRelease err =>
    exact deprives (gsconReleaseLchan_deprives c l w doRrRelease err)
  | gsconReleasePrimary c doRrRelease err =>
    exact deprives (gsconReleasePrimary_deprives c w doRrRelease err)
  | gsconReleaseLchans c doRrRelease => exact minds (Ensures.bind fun k _ => minds_ok w _)
  | gsconLchanReleasing c l => exact minds (Ensures.bind fun k _ => minds_ok w _)
  | gsconLchanReleasingAssignment c => exact deprives (gsconLchanReleasingAssignment_deprives c w)
  | gsconLchanReleasingHo c l => exact minds (Ensures.bind fun k _ => minds_ok w _)
  | gsconLchanReleasingRest c l => exact .inl (gsconLchanReleasingRest_minds c l w _ he hc).1
  | gsconTerm c => exact minds (gsconTerm_minds c w)
  | gsconTermChildren c => exact minds (gsconTermChildren_minds c w)
  | gsconCleanup c => exact .inl (gsconCleanup_minds c w _ he hc).1
  | gsconSubmitRslDtap c => exact minds (gsconSubmitRslDtap_minds x c w)
  | gsconDtapQueueFlush c' => exact (gsconDtapQueueFlush_deprives h he hc).imp id .inr
  | bssmapHandleAssignmReq c sel req => exact minds (bssmapHandleAssignmReq_minds c w sel req)
  | gsm0408Rcvmsg l msg newConn aoip => exact minds (gsm0408Rcvmsg_minds x l w msg newConn aoip)
  | sccpNConnect c aoip sel req => exact minds (sccpNConnect_minds c w aoip sel req)
  | _ => exact deprives (exec_lchanDeprives cfg x w rfl)

/-- A call that concludes a connection leaves it to another one that does, or has done it. -/
theorem exec_concludes (he : exec cfg call x w = .ok (w',new)) {c : ConnId}
    (hcall : call.concludes = some c) (hc : c ∈ w'.neglected) : Concluded new c := by
  cases call with
  | gsconCleanup c' =>
    cases hcall
    exact absurd rfl (gsconCleanup_minds c w _ he hc).2
  | gsconLchanReleasingRest c' l =>
    cases hcall
    exact absurd rfl (gsconLchanReleasingRest_minds c l w _ he hc).2
  | gsconLchanReleasing c' l =>
    cases hcall
    obtain ⟨k,-,he⟩ := bind_eq_ok.mp he
    cases he
    exact ⟨.gsconLchanReleasingHo c l,by simp,rfl⟩
  | gsconLchanReleasingHo c' l =>
    cases hcall
    obtain ⟨k,-,he⟩ := bind_eq_ok.mp he
    cases he
    exact ⟨.gsconLchanReleasingRest c l,by simp,rfl⟩
  | _ => cases hcall

end Step

theorem Reachable.neglected {cfg : TsId → TsCfg} {s : Config} (h : Reachable cfg Heeded s) :
    ∀ c ∈ s.state.neglected, Concluded s.calls c := by
  refine @Reachable.induct cfg Heeded (fun w calls => ∀ c ∈ w.neglected, Concluded calls c)
    ?_ ?_ ?_ s h
  · rintro c ⟨k,hk,-⟩
    cases hk
  · intro w i _ hw c hc
    obtain ⟨call,hcall,-⟩ := hw c hc
    cases hcall
  · intro w call rest x w' new hr hw hgood he c hc
    have hcons : ∀ {c}, Concluded (call :: rest) c → c ∈ w'.neglected → Concluded (new ++ rest) c := by
      rintro c ⟨call',hcall',hconc⟩ hc
      rcases List.mem_cons.mp hcall' with rfl | hcall'
      · obtain ⟨call2,h2,hconc2⟩ := exec_concludes he hconc hc
        exact ⟨call2,List.mem_append_left _ h2,hconc2⟩
      · exact ⟨call',List.mem_append_right _ hcall',hconc⟩
    rcases exec_deprives hr.procedures he hc with hold | hdep | ⟨call',hcall',hconc⟩
    · exact hcons (hw c hold) hc
    · exact hcons (hgood c hdep) hc
    · exact ⟨call',List.mem_append_right _ hcall',hconc⟩

/-- A connection that lost all its lchans ends by a timer. -/
theorem timer_ends_unattended {cfg : TsId → TsCfg} {s : Config} (h : Reachable cfg Heeded s)
    (hq : s.Quiescent) {c : ConnId} {k : Conn} (hk : s.state.conn c = some k)
    (hlost : k.lost = true) (hfi : k.fi ≠ .init) :
    (k.fi = .waitCc ∨ k.fi = .clearing) ∧ ∀ x, ∃ calls : List Call,
      exec cfg (.connTimeout c) x s.state = .ok (s.state,calls) ∧ .gsconTerm c ∈ calls := by
  have hatt : k.attended = true := by
    by_contra hn
    obtain ⟨call,hcall,-⟩ := h.neglected c ⟨k,hk,by simpa using hn⟩
    rw [hq] at hcall
    cases hcall
  have hst : k.fi = .waitCc ∨ k.fi = .clearing := by
    unfold Conn.attended at hatt
    unfold Conn.lost at hlost
    cases hk : k.fi <;> simp_all
  refine ⟨hst,fun x => ?_⟩
  have hget : s.state.getConn c = .ok k := by simp [Bsc.getConn,hk]
  rcases hst with hst | hst
  · exact ⟨_,by simp [exec,connTimeout,hget,hst]; rfl,by simp⟩
  · exact ⟨_,by simp [exec,connTimeout,hget,hst]; rfl,by simp⟩

section Runs

set_option maxRecDepth 20000 in
/-- The MS releases the link of its connection and the MSC is silent. -/
theorem timer_ends_unattended_released : ∃ s k, Reachable sdcchAndTch Heeded s ∧ s.Quiescent
    ∧ s.state.conn 0 = some k ∧ k.lost = true ∧ k.fi = .clearing
    ∧ ∀ x, ∃ calls : List Call,
      exec sdcchAndTch (.connTimeout 0) x s.state = .ok (s.state,calls) ∧ .gsconTerm 0 ∈ calls := by
  have hrun : ∃ s, run (step sdcchAndTch) initial (moves 40 (connOnSdcch ++ [Input.relInd ⟨0,0⟩ 0])) = .ok s
      ∧ s.Quiescent ∧ ∃ k, s.state.conn 0 = some k ∧ k.lost = true ∧ k.fi = .clearing := by
    decide
  have hgood : GoodRun (step sdcchAndTch) Heeded initial
      (moves 40 (connOnSdcch ++ [Input.relInd ⟨0,0⟩ 0])) := by
    decide
  obtain ⟨s,hs,hq,k,hk,hlost,hfi⟩ := hrun
  have hreach : Reachable sdcchAndTch Heeded s := Reach.of_run (.start rfl) hgood hs
  exact ⟨s,k,hreach,hq,hk,hlost,hfi,(timer_ends_unattended hreach hq hk hlost (by simp [hfi])).2⟩

set_option maxRecDepth 20000 in
/-- The OML link goes down: the connection forgets its lchan and stays in ST_ACTIVE. -/
theorem omlDown_leaves_active : ∃ s k, Reachable sdcchAndTch (fun _ _ => True) s ∧ s.Quiescent
    ∧ s.state.conn 0 = some k ∧ k.lost = true ∧ k.fi = .active
    ∧ ∀ x, exec sdcchAndTch (.connTimeout 0) x s.state = .ok (s.state,[]) := by
  have hrun : ∃ s, run (step sdcchAndTch) initial (moves 60 (connOnSdcch ++ [Input.omlDown 0])) = .ok s
      ∧ s.Quiescent ∧ ∃ k, s.state.conn 0 = some k ∧ k.lost = true ∧ k.fi = .active := by
    decide
  obtain ⟨s,hs,hq,k,hk,hlost,hfi⟩ := hrun
  have hget : s.state.getConn 0 = .ok k := by simp [Bsc.getConn,hk]
  refine ⟨s,k,Reach.of_run (.start rfl) (.of_forall (fun _ _ => trivial) _ _) hs,hq,hk,hlost,hfi,?_⟩
  intro x
  simp [exec,connTimeout,hget,hfi]

end Runs

end OsmoBsc.Chan
