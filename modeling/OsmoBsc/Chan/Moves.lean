import OsmoBsc.Chan.Wakeup
set_option autoImplicit false

namespace OsmoBsc.Chan
open EventFsm

@[reducible] def Lchan.slot (lchan : Lchan) : Option LchanState × ChanT := (lchan.fi,lchan.type)

/-- A call of the FSM of lchan `l` leaves timeslots and the state and type of all
other lchans alone; `l` itself may change its state to one that `goal` admits, as its
FSM permits it, and then tells its timeslot when it becomes unused, and is reset when it breaks. -/
structure Turn (l : LchanId) (goal : LchanState → Prop) (w : Bsc) (r : Bsc × List Call) : Prop where
  ts : r.1.ts = w.ts
  others : ∀ l', l' ≠ l → (r.1.lchan l').slot = (w.lchan l').slot
  self : (r.1.lchan l).slot = (w.lchan l).slot ∨
    ∃ st st', (w.lchan l).fi = some st ∧ (r.1.lchan l).slot = (some st',(w.lchan l).type)
      ∧ lchanFsm.outState st st' = true ∧ goal st'
      ∧ (st' = .unused → Call.tsDispatch l.ts (.lchanUnused l) ∈ r.2)
      ∧ (st' = .borken → Call.lchanResetRest l ∈ r.2)

section Turn

variable {cfg : TsId → TsCfg} {l : LchanId} {goal : LchanState → Prop} {w w1 : Bsc}
  {r : Bsc × List Call} {x : Foreign}

theorem Clear.slot (h : Clear w w1) : Keeps Lchan.slot w w1 := by
  refine ⟨h.ts,fun l => ?_⟩
  have := congrArg Lchan.slot (h.lchan l)
  exact this

theorem Keeps.slot (h : Keeps Lchan.life w w1) : Keeps Lchan.slot w w1 := by
  refine ⟨h.ts,fun l => ?_⟩
  have := congrArg Lchan.slot (h.lchan l)
  exact this

theorem Turn.of_keeps (h : Keeps Lchan.slot w r.1) : Turn l goal w r :=
  ⟨h.ts,fun l' _ => h.lchan l',.inl (h.lchan l)⟩

theorem Turn.after (h : Keeps Lchan.slot w w1) (hr : Turn l goal w1 r) : Turn l goal w r := by
  refine ⟨hr.ts.trans h.ts,fun l' hne => (hr.others l' hne).trans (h.lchan l'),?_⟩
  have hl := h.lchan l
  rcases hr.self with hs | ⟨st,st',hfi,hs,hrest⟩
  · exact .inl (hs.trans hl)
  · refine .inr ⟨st,st',?_,?_,hrest⟩
    · exact (congrArg Prod.fst hl).symm.trans hfi
    · have htype : (w1.lchan l).type = (w.lchan l).type := congrArg Prod.snd hl
      rw [hs,htype]

theorem Turn.mono {goal' : LchanState → Prop} (hr : Turn l goal w r) (h : ∀ st, goal st → goal' st) :
    Turn l goal' w r := by
  refine ⟨hr.ts,hr.others,hr.self.imp id ?_⟩
  rintro ⟨st,st',hfi,hs,hout,hto,hun⟩
  exact ⟨st,st',hfi,hs,hout,h st' hto,hun⟩

theorem lchanReset_slot : Ensures (fun r => Keeps Lchan.slot w r.1) (lchanReset l w) := by
  unfold lchanReset
  dsimp only
  split
  · exact ensures_ok.mpr (.refl w)
  · refine Ensures.bind fun w1 h1 => ensures_ok.mpr ?_
    exact Clear.slot (gsconForgetLchan_clear _ _ w _ h1)

theorem lchanReset_rest : Ensures (fun r => Call.lchanResetRest l ∈ r.2) (lchanReset l w) := by
  unfold lchanReset
  dsimp only
  split
  · exact ensures_ok.mpr (List.mem_append_right _ (List.mem_singleton.mpr rfl))
  · exact Ensures.bind fun w1 _ => ensures_ok.mpr (List.mem_append_right _ (List.mem_singleton.mpr rfl))

theorem lchanOnFullyEstablished_slot :
    Ensures (fun r => Keeps Lchan.slot w r.1) (lchanOnFullyEstablished l w) := by
  unfold lchanOnFullyEstablished
  split
  · exact ensures_ok.mpr (.refl w)
  · dsimp only
    split
    · exact ensures_ok.mpr (by simp)
    · exact Ensures.bind fun k _ => ensures_ok.mpr (by simp)
    · exact ensures_ok.mpr (by simp)
    · exact Ensures.bind fun k _ => ensures_ok.mpr (by simp)
    · exact ensures_ok.mpr (by simp)

theorem lchanWaitTsReadyOnenter_slot :
    Ensures (fun r => Keeps Lchan.slot w r.1) (lchanWaitTsReadyOnenter x l w) := by
  unfold lchanWaitTsReadyOnenter
  dsimp only
  split
  · exact ensures_ok.mpr (.refl w)
  · repeat' split
    all_goals try exact ensures_ok.mpr (by simp)
    · exact ensures_error
    · exact Ensures.bind fun k _ => ensures_ok.mpr (by simp)
    · exact Ensures.bind fun k _ => ensures_ok.mpr (by simp)

theorem lchanWaitActivAckOnenter_slot :
    Ensures (fun r => Keeps Lchan.slot w r.1) (lchanWaitActivAckOnenter x l w) := by
  unfold lchanWaitActivAckOnenter
  dsimp only
  repeat' split
  all_goals try exact ensures_ok.mpr (by simp)
  · exact ensures_error
  · exact Ensures.bind fun k _ => ensures_ok.mpr (by simp)
  · exact Ensures.bind fun k _ => ensures_ok.mpr (by simp)

theorem lchanWaitRfReleaseAckOnenter_slot :
    Ensures (fun r => Keeps Lchan.slot w r.1) (lchanWaitRfReleaseAckOnenter l w) := by
  unfold lchanWaitRfReleaseAckOnenter
  dsimp only
  split
  · exact ensures_ok.mpr (by simp)
  · refine Ensures.bind fun w1 h1 => ensures_ok.mpr (keeps_send.mpr ?_)
    exact (Clear.slot (gsconForgetLchan_clear _ _ w _ h1)).trans (lchanForgetConn_keeps l w1).slot

theorem lchanDoRelease_slot : Keeps Lchan.slot w (lchanDoRelease l w).1 := by
  unfold lchanDoRelease
  dsimp only
  split <;> simp

theorem lchanOnenter_slot (st : LchanState) :
    Ensures (fun r => Keeps Lchan.slot w r.1
      ∧ (st = .unused → Call.tsDispatch l.ts (.lchanUnused l) ∈ r.2)
      ∧ (st = .borken → Call.lchanResetRest l ∈ r.2)) (lchanOnenter x l st w) := by
  have hother {o : Outcome} (h1 : st ≠ .unused) (h2 : st ≠ .borken)
      (h : Ensures (fun r => Keeps Lchan.slot w r.1) o) : Ensures (fun r => Keeps Lchan.slot w r.1
        ∧ (st = .unused → Call.tsDispatch l.ts (.lchanUnused l) ∈ r.2)
        ∧ (st = .borken → Call.lchanResetRest l ∈ r.2)) o :=
    h.mono fun r hr => ⟨hr,fun h => absurd h h1,fun h => absurd h h2⟩
  cases st with
  | unused =>
    refine Ensures.bind fun r hr => ensures_ok.mpr ?_
    exact ⟨lchanReset_slot r hr,by simp,by simp⟩
  | waitTsReady => exact hother (by decide) (by decide) lchanWaitTsReadyOnenter_slot
  | waitActivAck => exact hother (by decide) (by decide) lchanWaitActivAckOnenter_slot
  | established =>
    refine hother (by decide) (by decide) ?_
    simp only [lchanOnenter,lchanEstablishedOnenter]
    split
    · exact ensures_ok.mpr (.refl w)
    · exact lchanOnFullyEstablished_slot
  | waitRllRtpReleased => exact hother (by decide) (by decide) (ensures_ok.mpr lchanDoRelease_slot)
  | waitRfReleaseAck => exact hother (by decide) (by decide) lchanWaitRfReleaseAckOnenter_slot
  | borken => exact fun r hr => ⟨lchanReset_slot r hr,fun h => (by cases h),fun _ => lchanReset_rest r hr⟩
  | _ => exact hother (by decide) (by decide) (ensures_ok.mpr (.refl w))

theorem lchanStateChg_turn (st : LchanState) :
    Ensures (Turn l (· = st) w) (lchanStateChg x l st w) := by
  unfold lchanStateChg
  split
  · exact ensures_error
  · rename_i st0 hfi
    split
    · rename_i hout
      refine (lchanOnenter_slot st).mono fun r h => ⟨h.1.ts,fun l' hne => ?_,.inr ?_⟩
      · have := h.1.lchan l'
        rwa [Bsc.updLchan_ne _ _ _ hne] at this
      · have := h.1.lchan l
        rw [Bsc.updLchan_self] at this
        exact ⟨st0,st,hfi,this,hout,rfl,h.2⟩
    · exact ensures_ok.mpr (.of_keeps (.refl w))

theorem lchanFailChg_turn (st : LchanState) :
    Ensures (Turn l (· = st) w) (lchanFailChg x l st w) := by
  unfold lchanFailChg
  split
  · exact ensures_ok.mpr (.of_keeps (.refl w))
  · exact lchanStateChg_turn st

theorem lchanStateChg_turn_to {st : LchanState} (h : goal st) :
    Ensures (Turn l goal w) (lchanStateChg x l st w) :=
  (lchanStateChg_turn st).mono fun _ hr => hr.mono fun _ h' => h' ▸ h

theorem lchanRtpGone_turn (st : LchanState) : Ensures (Turn l goal w) (lchanRtpGone l st w) :=
  ensures_ok.mpr (.of_keeps (.refl w))

theorem lchanFsmPostActivAck_slot :
    Ensures (fun r => Keeps Lchan.slot w r.1) (lchanFsmPostActivAck x l w) := by
  unfold lchanFsmPostActivAck
  dsimp only
  repeat' split
  all_goals try exact ensures_ok.mpr (by simp)
  · exact Ensures.bind fun k _ => ensures_ok.mpr (by simp)
  · exact Ensures.bind fun k _ => ensures_ok.mpr (by simp)

/-- The states into which the handler of event `ev`, other than LCHAN_EV_ACTIVATE, or of
another call may change: three are entered only from elsewhere, and one only when the
release of the channel is acknowledged. -/
def LchanState.handled (ev : Option LchanEvent) (st : LchanState) : Prop :=
  st ≠ .cbch ∧ st ≠ .waitTsReady ∧ st ≠ .borken ∧ (st = .waitAfterError → ev = some .rslRfChanRelAck)

theorem lchanFsmWaitActivAck_turn (ev : LchanEvent) :
    Ensures (Turn l (LchanState.handled (some ev)) w) (lchanFsmWaitActivAck x l ev w) := by
  unfold lchanFsmWaitActivAck
  split
  · exact lchanFsmPostActivAck_slot.mono fun r h => .of_keeps (Keeps.trans (by simp) h)
  · exact ensures_ok.mpr (.of_keeps (by simp))
  · exact lchanRtpGone_turn _
  · exact lchanRtpGone_turn _
  · exact ensures_error

theorem lchanFsmWaitRllRtpEstablish_turn (ev : LchanEvent) :
    Ensures (Turn l (LchanState.handled (some ev)) w) (lchanFsmWaitRllRtpEstablish x l ev w) := by
  unfold lchanFsmWaitRllRtpEstablish
  repeat' split
  all_goals
    first
    | exact ensures_error
    | exact lchanStateChg_turn_to (by simp [LchanState.handled])
    | exact lchanRtpGone_turn _
    | exact ensures_ok.mpr (.of_keeps (.refl w))

theorem handleRllRelIndOrConf_slot (linkId : Fin 256) :
    Keeps Lchan.slot w (handleRllRelIndOrConf l linkId w).1 := by
  simp [handleRllRelIndOrConf]

theorem lchanFsmWaitRfReleaseAck_turn (ev : LchanEvent) :
    Ensures (Turn l (LchanState.handled (some ev)) w) (lchanFsmWaitRfReleaseAck x l ev w) := by
  unfold lchanFsmWaitRfReleaseAck
  repeat' split
  all_goals
    first
    | exact ensures_error
    | exact lchanStateChg_turn_to (by simp [LchanState.handled])
    | exact ensures_ok.mpr (.of_keeps (.refl w))

theorem lchanFsmBorken_turn (ev : LchanEvent) :
    Ensures (Turn l (LchanState.handled (some ev)) w) (lchanFsmBorken x l ev w) := by
  unfold lchanFsmBorken
  split
  · exact (lchanStateChg_turn_to (by simp [LchanState.handled])).mono fun r => .after (by simp)
  · exact lchanStateChg_turn_to (by simp [LchanState.handled])
  · exact (lchanStateChg_turn_to (by simp [LchanState.handled])).mono fun r => .after (by simp)
  · exact ensures_ok.mpr (.of_keeps (.refl w))
  · exact ensures_ok.mpr (.of_keeps (.refl w))
  · exact ensures_error

theorem lchanDispatch_turn {ev : LchanEvent} (hev : ∀ info, ev ≠ .activate info) :
    Ensures (Turn l (LchanState.handled (some ev)) w) (lchanDispatch x l ev w) := by
  unfold lchanDispatch
  split
  · exact ensures_ok.mpr (.of_keeps (.refl w))
  · split
    · exact ensures_ok.mpr (.of_keeps (.refl w))
    · exact ensures_ok.mpr (.of_keeps (.refl w))
    · split
      · unfold lchanFsmUnused
        split
        · exact absurd rfl (hev _)
        · exact ensures_error
      · unfold lchanFsmWaitTsReady
        split
        · exact lchanStateChg_turn_to (by simp [LchanState.handled])
        · exact lchanRtpGone_turn _
        · exact lchanRtpGone_turn _
        · exact ensures_error
      · exact lchanFsmWaitActivAck_turn ev
      · exact lchanFsmWaitRllRtpEstablish_turn ev
      · cases ev <;> first
          | exact ensures_error
          | exact lchanRtpGone_turn _
          | exact ensures_ok.mpr (.of_keeps (handleRllRelIndOrConf_slot _))
          | exact ensures_ok.mpr (.of_keeps (.refl w))
      · cases ev <;> first
          | exact ensures_error
          | exact ensures_ok.mpr (.of_keeps (handleRllRelIndOrConf_slot _))
          | exact ensures_ok.mpr (.of_keeps (.refl w))
      · exact lchanFsmWaitRfReleaseAck_turn ev
      · exact lchanFsmBorken_turn ev
      all_goals exact ensures_ok.mpr (.of_keeps (.refl w))

theorem lchanDispatch_activate_turn (info : ActivateInfo) :
    Ensures (Turn l (· = .waitTsReady) w) (lchanDispatch x l (.activate info) w) := by
  unfold lchanDispatch
  split
  · exact ensures_ok.mpr (.of_keeps (.refl w))
  · rename_i st hfi
    cases st with
    | unused =>
      have hv : lchanFsm.verdict .unused (.activate info) = .action := rfl
      simp only [hv,lchanFsmUnused]
      split
      · exact ensures_error
      · exact (lchanStateChg_turn _).mono fun r => .after (by simp)
    | _ => exact ensures_ok.mpr (.of_keeps (.refl w))

theorem lchanTimeout_turn : Ensures (Turn l (LchanState.handled none) w) (lchanTimeout x l w) := by
  unfold lchanTimeout
  split
  · exact ensures_ok.mpr (.of_keeps (.refl w))
  · exact lchanStateChg_turn_to (by simp [LchanState.handled])
  · exact lchanStateChg_turn_to (by simp [LchanState.handled])
  · split
    · exact ensures_ok.mpr (.of_keeps (by simp))
    · exact ensures_ok.mpr (.of_keeps (.refl w))

theorem lchanEstablishedRelRest_turn :
    Ensures (Turn l (LchanState.handled none) w) (lchanEstablishedRelRest x l w) := by
  unfold lchanEstablishedRelRest
  split
  · exact lchanStateChg_turn_to (by simp [LchanState.handled])
  · exact ensures_ok.mpr (.of_keeps (.refl w))

theorem lchanReleasedRelRest_turn :
    Ensures (Turn l (LchanState.handled none) w) (lchanReleasedRelRest x l w) := by
  unfold lchanReleasedRelRest
  split
  · exact lchanStateChg_turn_to (by simp [LchanState.handled])
  · exact ensures_ok.mpr (.of_keeps (.refl w))

theorem lchanOnActivationFailure_slot (activFor : ActivFor) (forConn : Option ConnId) :
    Ensures (fun r => Keeps Lchan.slot w r.1) (lchanOnActivationFailure l activFor forConn w) := by
  unfold lchanOnActivationFailure
  split
  · exact ensures_ok.mpr (.refl w)
  · dsimp only
    split
    · refine ensures_ok.mpr ?_
      split <;> simp
    · exact ensures_error
    · exact Ensures.bind fun k _ => ensures_ok.mpr (by simp)
    · exact ensures_ok.mpr (by simp)
    · exact Ensures.bind fun k _ => ensures_ok.mpr (by simp)
    · exact ensures_ok.mpr (by simp)

theorem lchanRelease_slot (doRrRelease err : Bool) :
    Ensures (fun r => Keeps Lchan.slot w r.1) (lchanRelease l doRrRelease err w) := by
  unfold lchanRelease
  repeat' split
  all_goals exact ensures_ok.mpr (by simp)

theorem lchanReleaseRest_slot : Ensures (fun r => Keeps Lchan.slot w r.1) (lchanReleaseRest l w) := by
  unfold lchanReleaseRest
  repeat' split
  · exact ensures_error
  all_goals
    first
    | exact ensures_ok.mpr (.refl w)
    | exact ensures_ok.mpr lchanDoRelease_slot

theorem lchanWaitReleasedRest_slot :
    Ensures (fun r => Keeps Lchan.slot w r.1) (lchanWaitReleasedRest cfg l w) := by
  unfold lchanWaitReleasedRest
  extract_lets quick w1
  have hw1 : Keeps Lchan.slot w w1 := by
    dsimp only [w1]
    split <;> simp
  split <;> exact ensures_ok.mpr hw1

end Turn

/-- What a call does to the state and the type of lchan `l`, and to whom it tells it. -/
inductive Moves (w w' : Bsc) (head : Call) (new : List Call) (l : LchanId) : Prop where
  | same : (w'.lchan l).slot = (w.lchan l).slot → Moves w w' head new l
  | changes (st st' : LchanState) : (w.lchan l).fi = some st →
      (w'.lchan l).slot = (some st',(w.lchan l).type) → lchanFsm.outState st st' = true →
      (st' = .unused → Call.tsDispatch l.ts (.lchanUnused l) ∈ new) →
      (st' = .borken → Call.lchanResetRest l ∈ new) →
      (st' = .cbch → head = .lchanStateChg l .cbch ∨ head = .lchanFailChg l .cbch) →
      (st' = .waitTsReady → ∃ info, head = .lchanDispatch l (.activate info)) →
      (st' = .waitAfterError → head = .lchanDispatch l .rslRfChanRelAck) →
      Moves w w' head new l
  | resets : head = .lchanResetRest l → (w'.lchan l).slot = ((w.lchan l).fi,.none) →
      Moves w w' head new l
  | picked : head.selects = true → (w.lchan l).fi = some .unused →
      (w'.lchan l).fi = some .unused → Moves w w' head new l
  | ends : head = .lchanCleanupRest l → (w'.lchan l).slot = (none,(w.lchan l).type) →
      Call.tsDispatch l.ts (.lchanUnused l) ∈ new → Moves w w' head new l
  | begins : head = .tsDispatch l.ts .omlReady → (w.lchan l).fi = none →
      (w'.lchan l).slot = (some .unused,(w.lchan l).type) → Moves w w' head new l
  | reserved : head = .tsStateChg l.ts .unused ∨ head = .tsErrorChg l.ts .unused →
      (w'.lchan l).slot = ((w.lchan l).fi,.cbch) → new = [.lchanStateChg l .cbch] →
      Moves w w' head new l

section Exec

variable {cfg : TsId → TsCfg} {w w' : Bsc} {head : Call} {new : List Call} {l : LchanId}
  {x : Foreign}

theorem Turn.moves {l' : LchanId} {goal : LchanState → Prop} (h : Turn l' goal w (w',new))
    (hcbch : goal .cbch → head = .lchanStateChg l' .cbch ∨ head = .lchanFailChg l' .cbch)
    (hwait : goal .waitTsReady → ∃ info, head = .lchanDispatch l' (.activate info))
    (hack : goal .waitAfterError → head = .lchanDispatch l' .rslRfChanRelAck) :
    Moves w w' head new l := by
  rcases eq_or_ne l l' with rfl | hne
  · rcases h.self with hs | ⟨st,st',hfi,hs,hout,hto,hun,hreset⟩
    · exact .same hs
    · exact .changes st st' hfi hs hout hun hreset (fun h => hcbch (h ▸ hto)) (fun h => hwait (h ▸ hto))
        fun h => hack (h ▸ hto)
  · exact .same (h.others l hne)

theorem Turn.moves_handled {l' : LchanId} {ev : Option LchanEvent}
    (hhead : ∀ ev', ev = some ev' → head = .lchanDispatch l' ev')
    (h : Turn l' (LchanState.handled ev) w (w',new)) : Moves w w' head new l :=
  h.moves (fun h => absurd rfl h.1) (fun h => absurd rfl h.2.1) fun h => hhead _ (h.2.2.2 rfl)

theorem Keeps.moves (h : Keeps Lchan.slot w w') : Moves w w' head new l := .same (h.lchan l)

theorem exec_moves_lchan (hl : head.ofLchan = true) (hwf : head.wf = true)
    (he : exec cfg head x w = .ok (w',new)) : Moves w w' head new l := by
  cases head with
  | lchanDispatch l' ev =>
    by_cases hev : ∃ info, ev = .activate info
    · obtain ⟨info,rfl⟩ := hev
      refine (lchanDispatch_activate_turn info _ he).moves (fun h => (by cases h)) (fun _ => ⟨info,rfl⟩)
        fun h => (by cases h)
    · refine (lchanDispatch_turn (fun info h => hev ⟨info,h⟩) _ he).moves_handled fun ev' h => ?_
      cases h
      rfl
  | lchanTimeout l' => exact (lchanTimeout_turn _ he).moves_handled fun _ h => (by cases h)
  | lchanStateChg l' st =>
    refine (lchanStateChg_turn st _ he).moves (fun h => .inl (h ▸ rfl)) (fun h => ?_) fun h => ?_
    all_goals
      subst h
      cases hwf
  | lchanOnActivationFailure l' activFor forConn =>
    exact (lchanOnActivationFailure_slot activFor forConn _ he).moves
  | lchanFailChg l' st =>
    refine (lchanFailChg_turn st _ he).moves (fun h => .inr (h ▸ rfl)) (fun h => ?_) fun h => ?_
    all_goals
      subst h
      cases hwf
  | lchanRelease l' doRrRelease err => exact (lchanRelease_slot doRrRelease err _ he).moves
  | lchanReleaseRest l' => exact (lchanReleaseRest_slot _ he).moves
  | lchanExitReleaseHandler l' =>
    cases he
    exact Keeps.moves (by simp)
  | lchanWaitReleasedRest l' => exact (lchanWaitReleasedRest_slot _ he).moves
  | lchanEstablishedRelRest l' => exact (lchanEstablishedRelRest_turn _ he).moves_handled fun _ h => (by cases h)
  | lchanReleasedRelRest l' => exact (lchanReleasedRelRest_turn _ he).moves_handled fun _ h => (by cases h)
  | lchanResetRest l' =>
    cases he
    rcases eq_or_ne l l' with rfl | hne
    · refine .resets rfl ?_
      split
      · simp
      · rename_i ci _
        have := (osmoMgcpcEpCiDlcx_clear x w ci).fi.lchan l
        simp [this]
    · refine .same ?_
      split
      · rw [Bsc.updLchan_ne _ _ _ hne]
      · rw [Bsc.updLchan_ne _ _ _ hne]
        exact (osmoMgcpcEpCiDlcx_clear x w _).slot.lchan l
  | lchanTerm l' =>
    cases he
    exact .same rfl
  | lchanCleanup l' =>
    simp only [exec,lchanCleanup,bind_eq_ok] at he
    obtain ⟨r,hr,he⟩ := he
    cases he
    exact (lchanReset_slot r hr).moves
  | lchanCleanupRest l' =>
    cases he
    rcases eq_or_ne l l' with rfl | hne
    · exact .ends rfl (by simp) (by simp)
    · exact .same (by rw [Bsc.updLchan_ne _ _ _ hne])
  | _ => exact absurd hl Bool.noConfusion

variable {t : TsId}

theorem tsUnusedOnenter_moves :
    Ensures (fun r => r.1.lchan = w.lchan ∨ r.1 = w.updLchan ⟨t,2⟩ ({ · with type := .cbch })
      ∧ r.2 = [.lchanStateChg ⟨t,2⟩ .cbch]) (tsUnusedOnenter cfg t w) := by
  unfold tsUnusedOnenter
  repeat' split
  all_goals
    first
    | exact ensures_error
    | exact ensures_ok.mpr (.inl rfl)
    | exact ensures_ok.mpr (.inr ⟨rfl,rfl⟩)

theorem tsStateChg_moves {st : TsState} (he : tsStateChg cfg x t st w = .ok (w',new)) :
    w'.lchan = w.lchan ∨ st = .unused ∧ w'.lchan = (w.updLchan ⟨t,2⟩ ({ · with type := .cbch })).lchan
      ∧ new = [.lchanStateChg ⟨t,2⟩ .cbch] := by
  unfold tsStateChg at he
  split at he
  · cases st with
    | unused =>
      rcases tsUnusedOnenter_moves _ he with h | ⟨h1,h2⟩
      · exact .inl h
      · dsimp only at h1 h2
        exact .inr ⟨rfl,by rw [h1]; rfl,h2⟩
    | pdch =>
      simp only [tsOnenter,tsPdchOnenter] at he
      repeat' split at he
      all_goals
        cases he
        exact .inl rfl
    | _ =>
      cases he
      exact .inl rfl
  · cases he
    exact .inl rfl

theorem moves_of_lchan (h : w'.lchan = w.lchan) : Moves w w' head new l := .same (by rw [h])

theorem tsDispatch_moves {ev : TsEvent} (he : tsDispatch cfg t ev w = .ok (w',new)) :
    Moves w w' (.tsDispatch t ev) new l := by
  cases hev : decide (ev = .omlReady) with
  | true =>
    obtain rfl : ev = .omlReady := by simpa using hev
    cases hfi : (w.ts t).fi with
    | notInitialized =>
      have hv : tsFsm.verdict .notInitialized .omlReady = .action := rfl
      simp only [tsDispatch,hfi,hv,tsFsmNotInitialized,Except.ok.injEq,Prod.mk.injEq] at he
      rw [← he.1]
      simp only [tsSetupLchans,Bsc.updTs_lchan]
      by_cases hl : l.ts = t ∧ l.nr < pchanSubslots (cfg t).pchanFromConfig ∧ (w.lchan l).fi = none
      · refine .begins (by rw [hl.1]) hl.2.2 ?_
        simp [hl]
      · exact .same (by simp [hl])
    | _ =>
      simp only [tsDispatch,hfi] at he
      cases he
      exact .same rfl
  | false =>
    refine moves_of_lchan ?_
    have hne : ev ≠ .omlReady := by simpa using hev
    unfold tsDispatch at he
    split at he
    · unfold tsFsmAllstate at he
      dsimp only at he
      repeat' split at he
      all_goals
        cases he
        try rfl
    · cases he
      rfl
    · split at he
      · unfold tsFsmNotInitialized at he
        cases ev with
        | omlReady => exact absurd rfl hne
        | _ =>
          cases he
          try rfl
      all_goals
        simp only [tsFsmUnused,tsFsmWaitPdchAct,tsFsmPdch,tsFsmWaitPdchDeact,tsFsmInUse,
          tsFsmBorken] at he
        repeat' split at he
        all_goals
          cases he
          try rfl

theorem tsInUseOnenter_lchan {i : Nat} {type : ChanT}
    (he : tsInUseOnenter t i type w = .ok (w',new)) : w'.lchan = w.lchan := by
  unfold tsInUseOnenter at he
  dsimp only at he
  repeat' split at he
  all_goals
    cases he
    rfl

theorem moves_stateChg {st : TsState}
    (hh : st = .unused → head = .tsStateChg t .unused ∨ head = .tsErrorChg t .unused)
    (he : tsStateChg cfg x t st w = .ok (w',new)) : Moves w w' head new l := by
  rcases tsStateChg_moves he with h | ⟨hst,hlchan,hnew⟩
  · exact moves_of_lchan h
  · rcases eq_or_ne l ⟨t,2⟩ with rfl | hne
    · refine .reserved (hh hst) ?_ hnew
      simp [hlchan]
    · refine .same ?_
      rw [hlchan,Bsc.updLchan_ne _ _ _ hne]

theorem exec_moves_ts (hts : head.ofTs = true) (he : exec cfg head x w = .ok (w',new)) :
    Moves w w' head new l := by
  cases head with
  | tsDispatch t' ev => exact tsDispatch_moves he
  | tsTimeout t' =>
    refine moves_of_lchan ?_
    simp only [exec,tsTimeout] at he
    split at he <;> cases he <;> rfl
  | tsStateChg t' st =>
    refine moves_stateChg (fun h => ?_) he
    exact .inl (by rw [h])
  | tsErrorChg t' st =>
    simp only [exec,tsErrorChg] at he
    split at he
    · refine moves_stateChg (fun h => ?_) he
      exact .inr (by rw [h])
    · cases he
      exact .same rfl
  | tsLchansDispatch t' st ev i =>
    obtain ⟨rfl,-⟩ := tsLchansDispatch_spec he
    exact .same rfl
  | tsInUseOnenter t' i type => exact moves_of_lchan (tsInUseOnenter_lchan he)
  | tsTerminateLchanFsms t' i =>
    refine moves_of_lchan ?_
    simp only [exec,tsTerminateLchanFsms] at he
    split at he <;> cases he <;> rfl
  | _ => exact absurd hts Bool.noConfusion

/-- What every call does to lchan `l`, where the channel request of an MS has found one
that is unused. -/
theorem exec_moves (hwf : head.wf = true)
    (hrqd : ∀ l' type, head = .rslRxChanRqd l' type → (w.lchan l').fi = some .unused)
    (he : exec cfg head x w = .ok (w',new)) : Moves w w' head new l := by
  cases hts : head.ofTs with
  | true => exact exec_moves_ts hts he
  | false =>
    cases hl : head.ofLchan with
    | true => exact exec_moves_lchan hl hwf he
    | false =>
      cases hs : head.selects with
      | false => exact (exec_apart cfg x w hts hl hs _ he).keeps.slot.moves
      | true =>
        have hp := (exec_aside cfg x w hs hrqd _ he).picks
        have hfi := hp.fi.lchan l
        rcases hp.lchan l with h | ⟨hun,-⟩
        · have := congrArg Lchan.slot h
          exact .same this
        · exact .picked hs hun (hfi.trans hun)

end Exec

end OsmoBsc.Chan
