import OsmoBsc.Chan.TchKind
set_option autoImplicit false

namespace OsmoBsc.Chan
open EventFsm

/-- The physical channels of a timeslot that is no PDCH, as its kind has them. -/
def Pchan.Kind (onInit is : Pchan) : Prop :=
  is = onInit.atSetup ∨ onInit = .tchFTchHPdch ∧ (is = .tchF ∨ is = .tchH)

theorem modes_kind : Modes Pchan.Kind := ⟨fun _ => .inl rfl,.inr ⟨rfl,.inl rfl⟩,.inr ⟨rfl,.inr rfl⟩⟩

/-- TS_EV_RSL_READY would initialize a timeslot whose physical channel RSL took away when it went down. -/
def afterBounce (c : Config) : Bool :=
  match c.calls with
  | .tsDispatch t .rslReady :: _ =>
    (c.state.ts t).fi == .notInitialized && (c.state.ts t).isOmlReady
      && (c.state.ts t).pchanIs != (c.state.ts t).pchanOnInit.atSetup
  | _ => false

abbrev NoBounce (c : Config) (_ : Move) : Prop := afterBounce c = false

section Physical

variable {cfg : TsId → TsCfg} {c : Config}

theorem Reachable.physical (h : Reachable cfg NoBounce c) (t : TsId) : Agreed Pchan.Kind t c.state c.calls := by
  refine @Reachable.induct cfg NoBounce (fun w calls => Agreed Pchan.Kind t w calls) ?_ ?_ ?_ c h
  · exact .down rfl (by simp) (by simp)
  · intro w i _ hw
    have hno := enter_no_shifts i w t
    refine ⟨fun call hcall => .of_not_shifts (hno call hcall),fun hmem => absurd rfl (hno _ hmem),
      hw.plain,hw.dynamic,fun hp => .inl ⟨?_,fun hmem => absurd rfl (hno _ hmem)⟩⟩
    rcases hw.pdch hp with ⟨his,-⟩ | ⟨-,hcalls,-⟩
    · exact his
    · cases hcalls
  · intro w call rest x w' new hr hw hgood he
    refine hw.exec modes_kind (hr.wakeup.wf _ (List.mem_cons_self ..)) (fun hentry => hr.wakeup.alone hentry) ?_ ?_ he
    · rintro i rfl
      have hdown : (w.ts t).isOmlReady = false := by
        rcases hr.wakeup.slots t with hs | ⟨j,hj⟩
        · exact absurd rfl (hs.quiet _ (List.mem_cons_self ..))
        · exact hj.down
      have hu := hr.upright t
      refine ⟨?_,fun call hcall hs => ?_⟩
      · by_contra hne
        exact Bool.noConfusion (hdown.symm.trans (hu.up hne))
      · exact Bool.noConfusion (hdown.symm.trans (hu.shifts call (List.mem_cons_of_mem _ hcall) hs))
    · rintro rfl hfi homl
      simp only [NoBounce,afterBounce,hfi,homl,beq_self_eq_true,Bool.true_and,bne_eq_false_iff_eq] at hgood
      exact .inl hgood

/-- In every run in which RSL never comes back to a timeslot without its being set up anew, only a dynamic timeslot
is ever on PDCH, and whenever no call is pending each timeslot has the physical channel that its kind and the state
of its FSM ask for: one that is TCH/F, TCH/H or PDCH and in use has the kind of its lchans in service. -/
theorem pchan_agrees (h : Reachable cfg NoBounce c) (hq : c.Quiescent) (t : TsId)
    (hinit : (c.state.ts t).fi ≠ .notInitialized) (hborken : (c.state.ts t).fi ≠ .borken) :
    ((c.state.ts t).pchanOnInit.dynamic = false → (c.state.ts t).pchanIs = (c.state.ts t).pchanOnInit
        ∧ ((c.state.ts t).fi = .unused ∨ (c.state.ts t).fi = .inUse))
      ∧ ((c.state.ts t).fi.onPdch → (c.state.ts t).pchanIs = .pdch)
      ∧ ((c.state.ts t).pchanOnInit = .tchFPdch → ¬(c.state.ts t).fi.onPdch → (c.state.ts t).pchanIs = .tchF)
      ∧ ((c.state.ts t).pchanOnInit = .tchFTchHPdch → ¬(c.state.ts t).fi.onPdch →
        (c.state.ts t).pchanIs = .none ∨ (c.state.ts t).pchanIs = .tchF ∨ (c.state.ts t).pchanIs = .tchH)
      ∧ ((c.state.ts t).pchanOnInit = .tchFTchHPdch → (c.state.ts t).fi = .inUse →
        ((c.state.ts t).pchanIs = .tchF ∨ (c.state.ts t).pchanIs = .tchH) ∧ ∀ l, l.ts = t → InService c.state l →
          ((c.state.lchan l).type = .tchF ∨ (c.state.lchan l).type = .tchH)
            ∧ (c.state.ts t).pchanIs = gsmPchanByLchanType (c.state.lchan l).type) := by
  have ha := h.physical t
  have hstates : ¬(c.state.ts t).fi.onPdch → (c.state.ts t).fi = .unused ∨ (c.state.ts t).fi = .waitPdchAct
      ∨ (c.state.ts t).fi = .inUse := by
    cases hfi : (c.state.ts t).fi with
    | notInitialized => exact absurd hfi hinit
    | unused => exact fun _ => .inl rfl
    | waitPdchAct => exact fun _ => .inr (.inl rfl)
    | pdch => exact fun hno => absurd (.inl rfl) hno
    | waitPdchDeact => exact fun hno => absurd (.inr rfl) hno
    | inUse => exact fun _ => .inr (.inr rfl)
    | borken => exact absurd hfi hborken
  have hplain (hno : ¬(c.state.ts t).fi.onPdch) := ha.plain (hstates hno)
  refine ⟨fun hstatic => ?_,fun hp => ?_,fun hon hno => ?_,fun hon hno => ?_,fun hon hfi => ?_⟩
  · have hnot (hfi : (c.state.ts t).fi = .waitPdchAct ∨ (c.state.ts t).fi.onPdch) : False := by
      rw [ha.dynamic hfi] at hstatic
      cases hstatic
    have hno : ¬(c.state.ts t).fi.onPdch := fun hp => hnot (.inr hp)
    refine ⟨?_,(hstates hno).imp id fun h => h.resolve_left fun hact => hnot (.inl hact)⟩
    rcases hplain hno with his | ⟨hdyn,-⟩
    · rw [his]
      cases hon : (c.state.ts t).pchanOnInit <;> first | rfl | (rw [hon] at hstatic; cases hstatic)
    · rw [hdyn] at hstatic
      cases hstatic
  · rcases ha.pdch hp with ⟨his,-⟩ | ⟨-,hcalls,-⟩
    · exact his
    · rw [hq] at hcalls
      cases hcalls
  · have hkind := hplain hno
    rw [hon] at hkind
    rcases hkind with his | ⟨hdyn,-⟩
    · exact his
    · cases hdyn
  · have hkind := hplain hno
    rw [hon] at hkind
    exact hkind.imp id And.right
  · have homl := (h.upright t).up hinit
    have hs := h.suited ((h.laidOut homl).1.symm.trans hon)
    rw [hq] at hs
    obtain ⟨his,hkinds⟩ := hs.inUse hfi (by simp) (by simp)
    refine ⟨his,fun l hl hin => ?_⟩
    have hserving : Serving c.state [] l := ⟨hin,by simp⟩
    exact ⟨hs.types l hl hserving,(hkinds l hl hserving).resolve_right (by simp)⟩

def tchHAfterPdch : List Input :=
  [.omlReady 0,.rslReady 0,.pdchActAck 0,.chanRqd fun type => if type = .tchH then some ⟨0,0⟩ else none,
    .pdchDeactAck 0,.chanActivAck ⟨0,0⟩]

set_option maxRecDepth 20000 in
theorem pchan_agrees_tchH : ∃ c, run (step (tsOfKind .tchFTchHPdch)) initial (moves 40 tchHAfterPdch) = .ok c
    ∧ InService c.state ⟨0,0⟩ ∧ (c.state.ts 0).pchanIs = .tchH := by
  obtain ⟨c,hc,hq,hfi,hon,hst,htype⟩ : ∃ c, run (step (tsOfKind .tchFTchHPdch)) initial (moves 40 tchHAfterPdch) = .ok c
      ∧ c.Quiescent ∧ (c.state.ts 0).fi = .inUse ∧ (c.state.ts 0).pchanOnInit = .tchFTchHPdch
      ∧ (c.state.lchan ⟨0,0⟩).fi = some .waitRllRtpEstablish ∧ (c.state.lchan ⟨0,0⟩).type = .tchH := by
    decide
  have hreach : Reachable (tsOfKind .tchFTchHPdch) NoBounce c := .of_run (.start rfl) (by decide) hc
  have hin : InService c.state ⟨0,0⟩ := by
    refine ⟨⟨_,hst,by decide⟩,?_⟩
    rw [htype]
    decide
  have hkind := ((pchan_agrees hreach hq 0 (by rw [hfi]; decide) (by rw [hfi]; decide)).2.2.2.2 hon hfi).2 ⟨0,0⟩ rfl hin
  rw [htype] at hkind
  exact ⟨c,hc,hin,hkind.2⟩

end Physical

end OsmoBsc.Chan
