import OsmoBsc.Chan.Readiness
import OsmoBsc.Chan.Requests
set_option autoImplicit false

namespace OsmoBsc.Chan
open EventFsm

def Pchan.dynamic : Pchan → Bool
  | .tchFTchHPdch | .tchFPdch => true
  | _ => false

/-- The physical channel that `ts_setup_lchans` begins with. -/
def Pchan.atSetup : Pchan → Pchan
  | .tchFTchHPdch => .none
  | .tchFPdch => .tchF
  | p => p

/-- The calls that entering state `st` makes. -/
def EntryCalls (onInit : Pchan) (t : TsId) (st : TsState) (new : List Call) : Prop :=
  match st with
  | .unused => new = [] ∨ new = tsFsmError t .borken
      ∨ new = [.tsStateChg t .waitPdchAct] ∧ onInit.dynamic = true
      ∨ new = [.lchanStateChg ⟨t,2⟩ .cbch]
  | .waitPdchAct | .waitPdchDeact => new = [] ∨ new = tsFsmError t .borken
  | .pdch => new = [] ∨ new = [.tsStateChg t .waitPdchDeact] ∨ new = tsFsmError t .borken
  | .inUse => new = [.tsInUseOnenter t 0 .none]
  | .notInitialized | .borken => new = []

/-- The timeslot in state `st`, as its onenter function leaves it. -/
def Ts.entered (ts : Ts) (st : TsState) : Ts :=
  { ts with
    fi := st
    pchanIs := if st = .pdch ∧ (ts.pchanOnInit.dynamic = true ∨ ts.pchanOnInit = .pdch) then .pdch
      else ts.pchanIs
    pdchActAllowed := decide (st = .inUse) || ts.pdchActAllowed }

/-- What a call does to timeslot `t`, and which changes of its state it asks for. -/
inductive TsMoves (cfg : TsId → TsCfg) (w w' : Bsc) (t : TsId) : Call → List Call → Prop where
  | rests {head : Call} {new : List Call} : w'.ts t = w.ts t → (∀ call ∈ new, ¬ call.Shifts t) →
      TsMoves cfg w w' t head new
  | omlReady : (w.ts t).fi = .notInitialized →
      w'.ts t = { w.ts t with
        pdchActAllowed := true, isOmlReady := true, pchanOnInit := (cfg t).pchanFromConfig
        pchanIs := (cfg t).pchanFromConfig.atSetup } →
      TsMoves cfg w w' t (.tsDispatch t .omlReady)
        (if (w.ts t).isRslReady then [.tsStateChg t .unused] else [])
  | rslReady : (w.ts t).fi = .notInitialized →
      w'.ts t = { w.ts t with pdchActAllowed := true, isRslReady := true } →
      TsMoves cfg w w' t (.tsDispatch t .rslReady)
        (if (w.ts t).isOmlReady then [.tsStateChg t .unused] else [])
  | omlDown : w'.ts t = { w.ts t with isOmlReady := false, fi := .notInitialized } →
      TsMoves cfg w w' t (.tsDispatch t .omlDown) [.tsTerminateLchanFsms t 0]
  | rslDown : w'.ts t = { w.ts t with isRslReady := false, fi := .notInitialized, pchanIs := .none } →
      TsMoves cfg w w' t (.tsDispatch t .rslDown) [.tsLchansDispatch t none .tsError 0]
  | requested (l : LchanId) (st : TsState) : w'.ts t = w.ts t →
      (w.ts t).fi = .unused ∧ st = .inUse ∨ (w.ts t).fi = .pdch ∧ st = .waitPdchDeact →
      isLchanSane w t l ≠ .insane →
      TsMoves cfg w w' t (.tsDispatch t (.lchanRequested l)) [.tsStateChg t st]
  | vacated (l : LchanId) : w'.ts t = w.ts t → (w.ts t).fi = .inUse →
      w.tsCountActiveLchans t = 0 →
      TsMoves cfg w w' t (.tsDispatch t (.lchanUnused l)) [.tsStateChg t .unused]
  | pdchActAck : w'.ts t = w.ts t → (w.ts t).fi = .waitPdchAct →
      TsMoves cfg w w' t (.tsDispatch t .pdchActAck) [.tsStateChg t .pdch]
  | pdchActNack : w'.ts t = { w.ts t with pdchActAllowed := false } → (w.ts t).fi = .waitPdchAct →
      TsMoves cfg w w' t (.tsDispatch t .pdchActNack) (tsFsmError t .unused)
  | pdchDeactAck : (w.ts t).fi = .waitPdchDeact → (w.ts t).pchanOnInit.dynamic = true →
      w'.ts t = { w.ts t with pchanIs := (w.ts t).pchanOnInit.atSetup } →
      TsMoves cfg w w' t (.tsDispatch t .pdchDeactAck) [.tsStateChg t .inUse]
  | breaks {head : Call} : head.signal = false → w'.ts t = w.ts t → (w.ts t).fi ≠ .notInitialized →
      TsMoves cfg w w' t head (tsFsmError t .borken)
  | enters (st : TsState) {head : Call} {new : List Call} :
      head = .tsStateChg t st ∨ head = .tsErrorChg t st →
      tsFsm.outState (w.ts t).fi st = true → w'.ts t = (w.ts t).entered st →
      EntryCalls (w.ts t).pchanOnInit t st new → TsMoves cfg w w' t head new
  | loops (i : Nat) (type type' : ChanT) (pre : List Call) : w'.ts t = w.ts t →
      w.hasLchanAt t (w.ts t).pchanOnInit i = true → pre = [] ∨
        pre = [.lchanDispatch ⟨t,i⟩ .tsError,.assertNotWaiting ⟨t,i⟩] →
      TsMoves cfg w w' t (.tsInUseOnenter t i type) (pre ++ [Call.tsInUseOnenter t (i+1) type'])
  | ready (i : Nat) (type : ChanT) : w.hasLchanAt t (w.ts t).pchanOnInit i = false →
      Fits w t type → w'.ts t = { w.ts t with
        pchanIs := if (w.ts t).pchanOnInit = .tchFTchHPdch then gsmPchanByLchanType type
          else (w.ts t).pchanIs } →
      TsMoves cfg w w' t (.tsInUseOnenter t i type)
        [.tsLchansDispatch t (some .waitTsReady) .tsReady 0]
  | unready (i : Nat) (type : ChanT) (pre : List Call) : w'.ts t = w.ts t →
      w.hasLchanAt t (w.ts t).pchanOnInit i = false → ¬ Fits w t type →
      pre = [] ∨ pre = [.tsLchansDispatch t (some .waitTsReady) .tsError 0] →
      TsMoves cfg w w' t (.tsInUseOnenter t i type) (pre ++ [Call.tsStateChg t .unused])
  | terminated (i : Nat) : w'.ts t = { w.ts t with pchanIs := .none, pchanOnInit := .none } →
      TsMoves cfg w w' t (.tsTerminateLchanFsms t i) []

section Inversion

variable {cfg : TsId → TsCfg} {w w' : Bsc} {head : Call} {new : List Call} {x : Foreign} {t : TsId}

theorem tsMoves_same (hnew : ∀ call ∈ new, ¬ call.Shifts t) : TsMoves cfg w w t head new :=
  .rests rfl hnew

theorem tsOnenter_entered {st : TsState} (he : tsOnenter cfg x t st w = .ok (w',new)) :
    w'.ts t = { w.ts t with
        pchanIs := if st = .pdch ∧ ((w.ts t).pchanOnInit.dynamic = true ∨ (w.ts t).pchanOnInit = .pdch)
          then .pdch else (w.ts t).pchanIs
        pdchActAllowed := decide (st = .inUse) || (w.ts t).pdchActAllowed }
      ∧ EntryCalls (w.ts t).pchanOnInit t st new := by
  cases st with
  | unused =>
    simp only [tsOnenter,tsUnusedOnenter] at he
    split at he
    · cases he
      exact ⟨by simp,.inr (.inl rfl)⟩
    · split at he
      · rename_i hp
        repeat' split at he
        · cases he
          exact ⟨by simp,.inl rfl⟩
        · cases he
          exact ⟨by simp,.inl rfl⟩
        · cases he
          exact ⟨by simp,.inr (.inr (.inl ⟨rfl,by rw [hp]; rfl⟩))⟩
      · rename_i hp
        repeat' split at he
        · cases he
          exact ⟨by simp,.inl rfl⟩
        · cases he
          exact ⟨by simp,.inl rfl⟩
        · cases he
          exact ⟨by simp,.inr (.inr (.inl ⟨rfl,by rw [hp]; rfl⟩))⟩
      · split at he <;> cases he
        exact ⟨by simp,.inr (.inr (.inr rfl))⟩
      · split at he <;> cases he
        exact ⟨by simp,.inr (.inr (.inr rfl))⟩
      · cases he
        exact ⟨by simp,.inl rfl⟩
  | waitPdchAct | waitPdchDeact =>
    simp only [tsOnenter] at he
    cases he
    refine ⟨by simp,?_⟩
    split
    · exact .inr rfl
    · exact .inl rfl
  | pdch =>
    simp only [tsOnenter,tsPdchOnenter] at he
    split at he
    · rename_i hp
      split at he <;> cases he
      · exact ⟨by simp [hp,Pchan.dynamic],.inr (.inl rfl)⟩
      · exact ⟨by simp [hp,Pchan.dynamic],.inl rfl⟩
    · rename_i hp
      split at he <;> cases he
      · exact ⟨by simp [hp,Pchan.dynamic],.inr (.inl rfl)⟩
      · exact ⟨by simp [hp,Pchan.dynamic],.inl rfl⟩
    · rename_i hp
      split at he <;> cases he
      · exact ⟨by simp [hp],.inr (.inl rfl)⟩
      · exact ⟨by simp [hp],.inl rfl⟩
    · rename_i h1 h2 h3
      cases he
      refine ⟨?_,.inr (.inr rfl)⟩
      have hd : (w.ts t).pchanOnInit.dynamic = false := by
        cases hp : (w.ts t).pchanOnInit <;> first | rfl | exact absurd hp h1 | exact absurd hp h2
      have h3' : (w.ts t).pchanOnInit ≠ .pdch := h3
      simp [hd,h3']
  | inUse =>
    cases he
    exact ⟨by simp,rfl⟩
  | notInitialized | borken =>
    cases he
    exact ⟨by simp,rfl⟩

theorem tsStateChg_enters {st : TsState} (hhead : head = .tsStateChg t st ∨ head = .tsErrorChg t st)
    (he : tsStateChg cfg x t st w = .ok (w',new)) : TsMoves cfg w w' t head new := by
  unfold tsStateChg at he
  split at he
  · rename_i hout
    obtain ⟨hts,hcalls⟩ := tsOnenter_entered he
    refine .enters st hhead hout ?_ (by simpa using hcalls)
    rw [hts]
    simp [Ts.entered]
  · cases he
    exact tsMoves_same (by simp)

theorem tsLchanDispatch_error {l : LchanId} (h : (w.lchan l).fi.isSome) :
    tsLchanDispatch w l .tsError = [.lchanDispatch l .tsError,.assertNotWaiting l] := by
  simp [tsLchanDispatch,h]

theorem hasLchanAt_isSome {p : Pchan} {i : Nat} (h : w.hasLchanAt t p i = true) :
    (w.lchan ⟨t,i⟩).fi.isSome := by
  simp only [Bsc.hasLchanAt,Bool.and_eq_true] at h
  exact h.1.2

theorem tsInUseOnenter_loops {i : Nat} {type : ChanT}
    (he : tsInUseOnenter t i type w = .ok (w',new)) :
    TsMoves cfg w w' t (.tsInUseOnenter t i type) new := by
  unfold tsInUseOnenter at he
  extract_lets l ltype ok w1 at he
  split at he
  · rename_i hat
    have herr := tsLchanDispatch_error (hasLchanAt_isSome hat)
    have hgo (type' : ChanT) : TsMoves cfg w w t (.tsInUseOnenter t i type)
        [.tsInUseOnenter t (i+1) type'] := .loops i type type' [] rfl hat (.inl rfl)
    have hfail (type' : ChanT) : TsMoves cfg w w t (.tsInUseOnenter t i type)
        (tsLchanDispatch w l .tsError ++ [Call.tsInUseOnenter t (i+1) type']) := by
      dsimp only [l]
      rw [herr]
      exact .loops i type type' _ rfl hat (.inr rfl)
    repeat' split at he
    all_goals cases he
    · exact hgo type
    · exact hfail type
    · exact hgo type
    · exact hgo ltype
    · exact hfail type
    · exact hgo type
  · rename_i hat
    have hat' : w.hasLchanAt t (w.ts t).pchanOnInit i = false := by simpa using hat
    have hunready (hfit : ¬ Fits w t type) :
        TsMoves cfg w w t (.tsInUseOnenter t i type) [.tsStateChg t .unused] :=
      .unready i type [] rfl hat' hfit (.inl rfl)
    have hfits (htype : type = .sdcch ∨ type = .tchF ∨ type = .tchH)
        (he : (if tsIsCapableOfLchant (w.ts t) type = true then
          .ok (w1,[.tsLchansDispatch t (some .waitTsReady) .tsReady 0])
        else .ok (w,[.tsStateChg t .unused]) : Outcome) = .ok (w',new)) :
        TsMoves cfg w w' t (.tsInUseOnenter t i type) new := by
      split at he
      · rename_i hcap
        simp only [Except.ok.injEq,Prod.mk.injEq] at he
        obtain ⟨rfl,rfl⟩ := he
        refine .ready i type hat' ⟨htype,hcap⟩ ?_
        dsimp only [w1]
        split <;> simp
      · rename_i hcap
        cases he
        exact hunready fun h => hcap h.2
    split at he
    · exact hfits (.inl rfl) he
    · exact hfits (.inr (.inl rfl)) he
    · exact hfits (.inr (.inr rfl)) he
    · cases he
      refine hunready fun h => ?_
      rcases h.1 with h | h | h <;> cases h
    · rename_i h1 h2 h3 h4
      cases he
      refine .unready i type [_] rfl hat' (fun h => ?_) (.inr rfl)
      rcases h.1 with h | h | h
      · exact h1 h
      · exact h2 h
      · exact h3 h

theorem tsMoves_requested {l : LchanId}
    (he : tsDispatch cfg t (.lchanRequested l) w = .ok (w',new)) :
    TsMoves cfg w w' t (.tsDispatch t (.lchanRequested l)) new := by
  have hv : ∀ st, tsFsm.verdict st (.lchanRequested l) = .action := by
    intro st
    cases st <;> rfl
  have herror : TsMoves cfg w w t (.tsDispatch t (.lchanRequested l))
      (tsLchanDispatch w l .tsError) := by
    refine tsMoves_same fun call hcall hs => ?_
    unfold tsLchanDispatch at hcall
    split at hcall
    · simp only [List.mem_cons,List.not_mem_nil,or_false] at hcall
      rcases hcall with rfl | rfl <;> exact hs
    · cases hcall
  simp only [tsDispatch,hv] at he
  cases hfi : (w.ts t).fi with
  | notInitialized =>
    simp only [hfi,tsFsmNotInitialized] at he
    cases he
    refine tsMoves_same fun call hcall hs => ?_
    split at hcall
    · rw [List.mem_singleton.mp hcall] at hs
      exact hs
    · cases hcall
  | unused =>
    simp only [hfi,tsFsmUnused] at he
    split at he <;> rename_i hsane <;> cases he
    · exact .requested l .inUse rfl (.inl ⟨hfi,rfl⟩) (by rw [hsane]; decide)
    · exact .requested l .inUse rfl (.inl ⟨hfi,rfl⟩) (by rw [hsane]; decide)
    · exact tsMoves_same (by simp [Call.Shifts])
  | waitPdchAct =>
    simp only [hfi,tsFsmWaitPdchAct] at he
    split at he <;> cases he
    · exact tsMoves_same (by simp)
    · exact tsMoves_same (by simp)
    · exact herror
  | pdch =>
    simp only [hfi,tsFsmPdch] at he
    split at he <;> rename_i hsane <;> cases he
    · exact .requested l .waitPdchDeact rfl (.inr ⟨hfi,rfl⟩) (by rw [hsane]; decide)
    · exact .breaks rfl rfl (by rw [hfi]; decide)
    · exact herror
  | waitPdchDeact =>
    simp only [hfi,tsFsmWaitPdchDeact] at he
    split at he <;> cases he
    · exact tsMoves_same (by simp)
    · exact .breaks rfl rfl (by rw [hfi]; decide)
    · exact herror
  | inUse =>
    simp only [hfi,tsFsmInUse] at he
    split at he <;> cases he
    · exact tsMoves_same (by simp [Call.Shifts])
    · exact herror
    · exact herror
  | borken =>
    simp only [hfi,tsFsmBorken] at he
    cases he
    exact herror

theorem tsMoves_dropped {ev : TsEvent} (hv : tsFsm.verdict (w.ts t).fi ev = .notPermitted)
    (he : tsDispatch cfg t ev w = .ok (w',new)) : TsMoves cfg w w' t (.tsDispatch t ev) new := by
  simp only [tsDispatch,hv] at he
  cases he
  exact tsMoves_same (by simp)

theorem tsMoves_switchover {ev : TsEvent}
    (hev : ev = .pdchActAck ∨ ev = .pdchActNack ∨ ev = .pdchDeactAck ∨ ev = .pdchDeactNack)
    (he : tsDispatch cfg t ev w = .ok (w',new)) : TsMoves cfg w w' t (.tsDispatch t ev) new := by
  by_cases hv : tsFsm.verdict (w.ts t).fi ev = .notPermitted
  · exact tsMoves_dropped hv he
  · rcases hev with rfl | rfl | rfl | rfl
    · have hfi : (w.ts t).fi = .waitPdchAct := by
        cases h : (w.ts t).fi <;> first | rfl | (rw [h] at hv; exact absurd rfl hv)
      simp only [tsDispatch,hfi] at he
      cases he
      exact .pdchActAck rfl hfi
    · have hfi : (w.ts t).fi = .waitPdchAct := by
        cases h : (w.ts t).fi <;> first | rfl | (rw [h] at hv; exact absurd rfl hv)
      simp only [tsDispatch,hfi] at he
      cases he
      exact .pdchActNack (by simp) hfi
    · have hfi : (w.ts t).fi = .waitPdchDeact := by
        cases h : (w.ts t).fi <;> first | rfl | (rw [h] at hv; exact absurd rfl hv)
      have hv' : tsFsm.verdict .waitPdchDeact .pdchDeactAck = .action := rfl
      simp only [tsDispatch,hfi,hv',tsFsmWaitPdchDeact] at he
      split at he
      · rename_i hp
        cases he
        exact .pdchDeactAck hfi (by rw [hp]; rfl) (by simp [hp,Pchan.atSetup])
      · rename_i hp
        cases he
        exact .pdchDeactAck hfi (by rw [hp]; rfl) (by simp [hp,Pchan.atSetup])
      · cases he
        exact .breaks rfl rfl (by rw [hfi]; decide)
    · have hfi : (w.ts t).fi = .waitPdchDeact := by
        cases h : (w.ts t).fi <;> first | rfl | (rw [h] at hv; exact absurd rfl hv)
      simp only [tsDispatch,hfi] at he
      cases he
      exact .breaks rfl rfl (by rw [hfi]; decide)

theorem tsMoves_unused {l : LchanId} (he : tsDispatch cfg t (.lchanUnused l) w = .ok (w',new)) :
    TsMoves cfg w w' t (.tsDispatch t (.lchanUnused l)) new := by
  have hv : ∀ st, tsFsm.verdict st (.lchanUnused l) = .action := by
    intro st
    cases st <;> rfl
  simp only [tsDispatch,hv] at he
  cases hfi : (w.ts t).fi with
  | inUse =>
    simp only [hfi,tsFsmInUse] at he
    split at he <;> cases he
    · rename_i hcount
      exact .vacated l rfl hfi hcount
    · exact tsMoves_same (by simp)
  | _ =>
    simp only [hfi] at he
    cases he
    exact tsMoves_same (by simp)

theorem tsMoves_ready {ev : TsEvent} (hev : ev = .omlReady ∨ ev = .rslReady)
    (he : tsDispatch cfg t ev w = .ok (w',new)) : TsMoves cfg w w' t (.tsDispatch t ev) new := by
  by_cases hfi : (w.ts t).fi = .notInitialized
  · rcases hev with rfl | rfl
    · have hv : tsFsm.verdict .notInitialized .omlReady = .action := rfl
      simp only [tsDispatch,hfi,hv,tsFsmNotInitialized,Except.ok.injEq,Prod.mk.injEq] at he
      obtain ⟨hw,hnew⟩ := he
      have hts : w'.ts t = { w.ts t with
          pdchActAllowed := true, isOmlReady := true, pchanOnInit := (cfg t).pchanFromConfig
          pchanIs := (cfg t).pchanFromConfig.atSetup } := by
        rw [← hw]
        simp only [tsSetupLchans,Bsc.updTs_self,Function.update_self]
        cases (cfg t).pchanFromConfig <;> rfl
      rw [← hnew,hw,hts]
      exact .omlReady hfi hts
    · have hv : tsFsm.verdict .notInitialized .rslReady = .action := rfl
      simp only [tsDispatch,hfi,hv,tsFsmNotInitialized,Bsc.updTs_self,Except.ok.injEq,
        Prod.mk.injEq] at he
      obtain ⟨hw,hnew⟩ := he
      rw [← hnew]
      exact .rslReady hfi (by rw [← hw]; simp)
  · refine tsMoves_dropped ?_ he
    rcases hev with rfl | rfl <;> cases h : (w.ts t).fi <;> first | rfl | exact absurd h hfi

theorem tsMoves_dispatch {ev : TsEvent} (he : tsDispatch cfg t ev w = .ok (w',new)) :
    TsMoves cfg w w' t (.tsDispatch t ev) new := by
  cases ev with
  | omlReady => exact tsMoves_ready (.inl rfl) he
  | rslReady => exact tsMoves_ready (.inr rfl) he
  | omlDown =>
    rw [tsDispatch_omlDown] at he
    cases he
    exact .omlDown (by simp)
  | rslDown =>
    rw [tsDispatch_rslDown] at he
    cases he
    exact .rslDown (by simp)
  | lchanRequested l => exact tsMoves_requested he
  | lchanUnused l => exact tsMoves_unused he
  | pdchActAck => exact tsMoves_switchover (.inl rfl) he
  | pdchActNack => exact tsMoves_switchover (.inr (.inl rfl)) he
  | pdchDeactAck => exact tsMoves_switchover (.inr (.inr (.inl rfl))) he
  | pdchDeactNack => exact tsMoves_switchover (.inr (.inr (.inr rfl))) he

theorem tsMoves_other {t' : TsId} (hothers : w'.ts t' = w.ts t')
    (hnew : ∀ call ∈ new, ∀ t'', call.Shifts t'' → t'' = t) (hne : t' ≠ t) :
    TsMoves cfg w w' t' head new :=
  .rests hothers fun call hcall hs => hne (hnew call hcall t' hs)

theorem ShiftsOnly.other {t' : TsId} (h : ShiftsOnly t w (w',new)) (hne : t' ≠ t) :
    TsMoves cfg w w' t' head new :=
  tsMoves_other (h.others t' hne) (fun call hcall => (h.calls call hcall).2) hne

theorem tsDispatch_other {t' : TsId} {ev : TsEvent} (hne : t' ≠ t)
    (he : tsDispatch cfg t ev w = .ok (w',new)) : TsMoves cfg w w' t' (.tsDispatch t ev) new := by
  cases hs : (Call.tsDispatch t ev).signal with
  | false =>
    by_cases hfi : (w.ts t).fi = .notInitialized
    · cases ev with
      | lchanRequested l =>
        have hv : tsFsm.verdict .notInitialized (.lchanRequested l) = .action := rfl
        simp only [tsDispatch,hfi,hv,tsFsmNotInitialized] at he
        cases he
        refine tsMoves_same ?_
        split <;> simp [Call.Shifts]
      | _ =>
        first
        | exact absurd hs Bool.noConfusion
        | (simp only [tsDispatch,hfi] at he
           cases he
           exact tsMoves_same (by simp))
    · exact (tsDispatch_shifts hs hfi _ he).other hne
  | true =>
    have hready {new : List Call} (h : new = [.tsStateChg t .unused] ∨ new = []) :
        ∀ call ∈ new, ∀ t'', call.Shifts t'' → t'' = t := by
      rcases h with rfl | rfl <;> simp [Call.Shifts,eq_comm]
    cases ev with
    | omlReady =>
      cases hfi : (w.ts t).fi with
      | notInitialized =>
        have hv : tsFsm.verdict .notInitialized .omlReady = .action := rfl
        simp only [tsDispatch,hfi,hv,tsFsmNotInitialized,Except.ok.injEq,Prod.mk.injEq] at he
        refine tsMoves_other ?_ (hready ?_) hne
        · rw [← he.1]
          simp [tsSetupLchans,Bsc.updTs,hne]
        · rw [← he.2]
          split
          · exact .inl rfl
          · exact .inr rfl
      | _ =>
        simp only [tsDispatch,hfi] at he
        cases he
        exact tsMoves_same (by simp)
    | rslReady =>
      cases hfi : (w.ts t).fi with
      | notInitialized =>
        have hv : tsFsm.verdict .notInitialized .rslReady = .action := rfl
        simp only [tsDispatch,hfi,hv,tsFsmNotInitialized,Except.ok.injEq,Prod.mk.injEq] at he
        refine tsMoves_other ?_ (hready ?_) hne
        · rw [← he.1]
          exact Bsc.updTs_ne _ _ _ hne
        · rw [← he.2]
          split
          · exact .inl rfl
          · exact .inr rfl
      | _ =>
        simp only [tsDispatch,hfi] at he
        cases he
        exact tsMoves_same (by simp)
    | omlDown =>
      rw [tsDispatch_omlDown] at he
      cases he
      exact tsMoves_other (Bsc.updTs_ne _ _ _ hne) (by simp [Call.Shifts]) hne
    | rslDown =>
      rw [tsDispatch_rslDown] at he
      cases he
      exact tsMoves_other (Bsc.updTs_ne _ _ _ hne) (by simp [Call.Shifts]) hne
    | _ => exact absurd hs Bool.noConfusion

theorem exec_tsMoves (he : exec cfg head x w = .ok (w',new)) : TsMoves cfg w w' t head new := by
  cases hts : head.ofTs with
  | false =>
    obtain ⟨h1,h2⟩ := exec_leavesTs hts _ he
    exact .rests (by rw [h1]) fun call hcall => (h2 call hcall).2 t
  | true =>
    cases head with
    | tsDispatch t' ev =>
      rcases eq_or_ne t t' with rfl | hne
      · exact tsMoves_dispatch he
      · exact tsDispatch_other hne he
    | tsTimeout t' =>
      simp only [exec,tsTimeout] at he
      have hbreak (hfi : (w.ts t').fi ≠ .notInitialized) :
          TsMoves cfg w w t (.tsTimeout t') (tsFsmError t' .borken) := by
        rcases eq_or_ne t t' with rfl | hne
        · exact .breaks rfl rfl hfi
        · exact (ShiftsOnly.same (tsFsmError_shifts _)).other hne
      split at he
      · rename_i hfi
        cases he
        exact hbreak (by rw [hfi]; decide)
      · rename_i hfi
        cases he
        exact hbreak (by rw [hfi]; decide)
      · cases he
        exact tsMoves_same (by simp)
    | tsStateChg t' st =>
      rcases eq_or_ne t t' with rfl | hne
      · exact tsStateChg_enters (.inl rfl) he
      · exact (tsStateChg_shifts st _ he).other hne
    | tsErrorChg t' st =>
      rcases eq_or_ne t t' with rfl | hne
      · simp only [exec,tsErrorChg] at he
        split at he
        · exact tsStateChg_enters (.inr rfl) he
        · cases he
          exact tsMoves_same (by simp)
      · exact (tsErrorChg_shifts st _ he).other hne
    | tsInUseOnenter t' i type =>
      rcases eq_or_ne t t' with rfl | hne
      · exact tsInUseOnenter_loops he
      · exact (tsInUseOnenter_shifts i type _ he).other hne
    | tsLchansDispatch t' st ev i =>
      obtain ⟨rfl,hnew⟩ := tsLchansDispatch_spec he
      refine tsMoves_same ?_
      rcases hnew with ⟨rfl,-⟩ | ⟨rfl,-⟩ | rfl <;> simp [Call.Shifts]
    | tsTerminateLchanFsms t' i =>
      simp only [exec,tsTerminateLchanFsms] at he
      split at he
      · cases he
        exact tsMoves_same (by simp [Call.Shifts])
      · cases he
        rcases eq_or_ne t t' with rfl | hne
        · exact .terminated i (by simp)
        · exact .rests (Bsc.updTs_ne _ _ _ hne) (by simp)
    | _ => exact absurd hts Bool.noConfusion

end Inversion

end OsmoBsc.Chan
