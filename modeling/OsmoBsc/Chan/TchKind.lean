import OsmoBsc.Chan.Agreement
set_option autoImplicit false

namespace OsmoBsc.Chan
open EventFsm

/-- The lchan is set up, in use or being released, and has a type; a broken one loses it. -/
def InService (w : Bsc) (l : LchanId) : Prop :=
  (∃ st, (w.lchan l).fi = some st ∧ st ≠ .unused ∧ st ≠ .cbch ∧ st ≠ .borken) ∧ (w.lchan l).type ≠ .none

def Call.Dooms (l : LchanId) : Call → Prop
  | .lchanDispatch l' ev => l' = l ∧ ev = .tsError
  | .lchanFailChg l' st => l' = l ∧ st = .unused
  | .lchanResetRest l' => l' = l
  | _ => False

/-- The lchan is in service, and no pending call is about to end that. -/
def Serving (w : Bsc) (calls : List Call) (l : LchanId) : Prop :=
  InService w l ∧ ∀ call ∈ calls, ¬ call.Dooms l

/-- A timeslot of kind TCH/F_TCH/H_PDCH and the lchans that serve on it: the loop of `ts_fsm_in_use_onenter` has
come by those whose type it has found, and after it all have the kind of the physical channel. -/
structure Suited (t : TsId) (w : Bsc) (calls : List Call) : Prop where
  broken : ∀ l, l.ts = t → (w.lchan l).fi = some .borken →
    (w.lchan l).type = .none ∨ Call.lchanResetRest l ∈ calls
  types : ∀ l, l.ts = t → Serving w calls l → (w.lchan l).type = .tchF ∨ (w.lchan l).type = .tchH
  loop : ∀ i type, Call.tsInUseOnenter t i type ∈ calls → ∀ l, l.ts = t → Serving w calls l → l.nr < i →
    (w.lchan l).type = type
  inUse : (w.ts t).fi = .inUse → (∀ i type, Call.tsInUseOnenter t i type ∉ calls) →
    Call.tsStateChg t .unused ∉ calls → ((w.ts t).pchanIs = .tchF ∨ (w.ts t).pchanIs = .tchH)
      ∧ ∀ l, l.ts = t → Serving w calls l → (w.ts t).pchanIs = gsmPchanByLchanType (w.lchan l).type
        ∨ calls = [.tsDispatch t (.lchanRequested l),.lchanRtpFsmStart l]

section Calls

variable {cfg : TsId → TsCfg} {w w' : Bsc} {head : Call} {new rest calls : List Call} {x : Foreign} {t : TsId}
  {l : LchanId}

theorem InService.isSome (h : InService w l) : (w.lchan l).fi.isSome := by
  obtain ⟨⟨st,hfi,-⟩,-⟩ := h
  rw [hfi]
  rfl

theorem InService.congr (h : InService w' l) (hs : (w'.lchan l).slot = (w.lchan l).slot) : InService w l := by
  have hfi : (w'.lchan l).fi = (w.lchan l).fi := congrArg Prod.fst hs
  have htype : (w'.lchan l).type = (w.lchan l).type := congrArg Prod.snd hs
  rwa [InService,hfi,htype] at h

theorem not_inService_of_fi (h : (w.lchan l).fi = none ∨ (w.lchan l).fi = some .unused) : ¬ InService w l := by
  rintro ⟨⟨st,hfi,hst,-⟩,-⟩
  rcases h with h | h
  · rw [h] at hfi
    cases hfi
  · rw [h] at hfi
    cases hfi
    exact hst rfl

theorem lchanFailChg_unused (he : lchanFailChg x l .unused w = .ok (w',new)) :
    (w'.lchan l).fi = some .unused := by
  unfold lchanFailChg at he
  split at he
  · cases he
    assumption
  · rename_i hne
    unfold lchanStateChg at he
    split at he
    · cases he
    · rename_i st hfi
      have hout : lchanFsm.outState st .unused = true := by
        cases st <;> first | rfl | exact absurd hfi hne
      rw [if_pos hout] at he
      have hs := (lchanOnenter_slot LchanState.unused _ he).1.lchan l
      rw [Bsc.updLchan_self] at hs
      exact congrArg Prod.fst hs

theorem dooms_exec (hd : head.Dooms l) (he : exec cfg head x w = .ok (w',new)) :
    ¬ InService w' l ∨ ∃ call ∈ new, call.Dooms l := by
  cases head with
  | lchanDispatch l' ev =>
    obtain ⟨rfl,rfl⟩ := hd
    simp only [exec,lchanDispatch] at he
    split at he
    · rename_i hfi
      cases he
      exact .inl (not_inService_of_fi (.inl hfi))
    · rename_i st hfi
      have hv : lchanFsm.verdict st .tsError = .allState := by cases st <;> rfl
      simp only [hv] at he
      cases he
      exact .inr ⟨.lchanFailChg l' .unused,by simp [lchanFailTo],rfl,rfl⟩
  | lchanFailChg l' st =>
    obtain ⟨rfl,rfl⟩ := hd
    exact .inl (not_inService_of_fi (.inr (lchanFailChg_unused he)))
  | lchanResetRest l' =>
    obtain rfl : l' = l := hd
    cases he
    exact .inl fun h => h.2 (by simp)
  | _ => exact hd.elim

theorem Serving.of_rest (h : Serving w' (new ++ rest) l) (hin : InService w l)
    (he : exec cfg head x w = .ok (w',new)) : Serving w (head :: rest) l := by
  refine ⟨hin,fun call hcall hd => ?_⟩
  rcases List.mem_cons.mp hcall with rfl | hcall
  · rcases dooms_exec hd he with hno | ⟨call',hcall',hd'⟩
    · exact hno h.1
    · exact h.2 call' (List.mem_append_left _ hcall') hd'
  · exact h.2 call (List.mem_append_right _ hcall) hd

theorem tsUnusedOnenter_lchan (hon : (w.ts t).pchanOnInit.hasCbch = false) :
    Ensures (fun r => r.1.lchan = w.lchan) (tsUnusedOnenter cfg t w) := by
  unfold tsUnusedOnenter
  split
  · exact ensures_ok.mpr rfl
  · split
    · repeat' split
      all_goals exact ensures_ok.mpr rfl
    · repeat' split
      all_goals exact ensures_ok.mpr rfl
    · rename_i hp
      rw [hp] at hon
      cases hon
    · rename_i hp
      rw [hp] at hon
      cases hon
    · exact ensures_ok.mpr rfl

theorem tsStateChg_unused_lchan (hon : (w.ts t).pchanOnInit.hasCbch = false)
    (he : tsStateChg cfg x t .unused w = .ok (w',new)) : w'.lchan = w.lchan := by
  unfold tsStateChg at he
  split at he
  · refine (tsUnusedOnenter_lchan ?_ _ he).trans rfl
    rwa [Bsc.updTs_self]
  · cases he
    rfl

end Calls

section Lchans

variable {cfg : TsId → TsCfg} {good : Config → Move → Prop} {w w' : Bsc} {head : Call} {new rest : List Call}
  {x : Foreign} {t : TsId} {l : LchanId} {c : Config}

/-- While OML is up, a timeslot has its kind and its lchans by its configuration. -/
theorem Reachable.laidOut (h : Reachable cfg good c) (homl : (c.state.ts t).isOmlReady = true) :
    (c.state.ts t).pchanOnInit = (cfg t).pchanFromConfig
      ∧ ∀ nr, (c.state.lchan ⟨t,nr⟩).fi.isSome ↔ nr < pchanSubslots (cfg t).pchanFromConfig := by
  rcases h.wakeup.slots t with hs | ⟨j,he⟩
  · rcases hs.lchans with ⟨-,hon,hl⟩ | ⟨hdown,-⟩
    · exact ⟨hon,hl⟩
    · exact absurd (hdown.symm.trans homl) Bool.noConfusion
  · exact absurd (he.down.symm.trans homl) Bool.noConfusion

theorem Reachable.slot_cases (hr : Reachable cfg good ⟨w,head :: rest⟩)
    (hcbch : (cfg l.ts).pchanFromConfig.hasCbch = false) (he : exec cfg head x w = .ok (w',new)) :
    (w'.lchan l).slot = (w.lchan l).slot
      ∨ (∃ st st', (w.lchan l).fi = some st ∧ (w'.lchan l).slot = (some st',(w.lchan l).type)
        ∧ lchanFsm.outState st st' = true ∧ (st' = .borken → Call.lchanResetRest l ∈ new)
        ∧ (st' = .waitTsReady → ∃ info, head = .lchanDispatch l (.activate info)))
      ∨ (w'.lchan l).fi = none ∨ (w'.lchan l).fi = some .unused ∨ (w'.lchan l).type = .none := by
  cases hr.moves he l with
  | same hs => exact .inl hs
  | changes st st' hfi hs hout hun hreset _ hwait => exact .inr (.inl ⟨st,st',hfi,hs,hout,hreset,hwait⟩)
  | resets hhead hs => exact .inr (.inr (.inr (.inr (congrArg Prod.snd hs))))
  | picked hsel hun hun' => exact .inr (.inr (.inr (.inl hun')))
  | ends hhead hs => exact .inr (.inr (.inl (congrArg Prod.fst hs)))
  | begins hhead hnone hs => exact .inr (.inr (.inr (.inl (congrArg Prod.fst hs))))
  | reserved hhead hs hnew =>
    -- only a timeslot with CBCH does this
    have hshifts : head.Shifts l.ts := by rcases hhead with rfl | rfl <;> rfl
    have homl := (hr.upright l.ts).shifts head (List.mem_cons_self ..) hshifts
    have hon : (w.ts l.ts).pchanOnInit.hasCbch = false := by
      rw [(hr.laidOut homl).1]
      exact hcbch
    have hlchan : w'.lchan = w.lchan := by
      rcases hhead with rfl | rfl
      · exact tsStateChg_unused_lchan hon he
      · simp only [exec,tsErrorChg] at he
        split at he
        · exact tsStateChg_unused_lchan hon he
        · cases he
          rfl
    exact .inl (by rw [hlchan])

/-- An lchan that serves did so before with the same type, unless it is just being activated. -/
theorem Reachable.serving_back (hr : Reachable cfg good ⟨w,head :: rest⟩)
    (hcbch : (cfg l.ts).pchanFromConfig.hasCbch = false)
    (hb : (w.lchan l).fi = some .borken → (w.lchan l).type = .none ∨ Call.lchanResetRest l ∈ head :: rest)
    (he : exec cfg head x w = .ok (w',new)) (h : Serving w' (new ++ rest) l) :
    Serving w (head :: rest) l ∧ (w'.lchan l).type = (w.lchan l).type
      ∨ ∃ info, head = .lchanDispatch l (.activate info) := by
  rcases hr.slot_cases hcbch he with hs | ⟨st,st',hfi,hs,hout,-,hwait⟩ | hnone | hun | htype
  · exact .inl ⟨h.of_rest (h.1.congr hs) he,congrArg Prod.snd hs⟩
  · have htype : (w'.lchan l).type = (w.lchan l).type := congrArg Prod.snd hs
    obtain ⟨⟨st'',hfi'',hun,hcb,hbo⟩,htype'⟩ := h.1
    obtain rfl : st' = st'' := Option.some.inj ((congrArg Prod.fst hs).symm.trans hfi'')
    have hkeeps (h1 : st ≠ .unused) (h2 : st ≠ .cbch) (h3 : st ≠ .borken) :
        Serving w (head :: rest) l ∧ (w'.lchan l).type = (w.lchan l).type :=
      ⟨h.of_rest ⟨⟨st,hfi,h1,h2,h3⟩,htype ▸ htype'⟩ he,htype⟩
    cases st with
    | unused =>
      refine .inr (hwait ?_)
      cases st' <;> first | rfl | exact absurd rfl hcb | exact absurd rfl hbo | cases hout
    | cbch => cases st' <;> first | exact absurd rfl hun | cases hout
    | borken =>
      rcases hb hfi with hnone | hmem
      · exact absurd (htype.trans hnone) htype'
      · rcases List.mem_cons.mp hmem with rfl | hmem
        · have hd : (Call.lchanResetRest l).Dooms l := rfl
          rcases dooms_exec hd he with hno | ⟨call,hcall,hd⟩
          · exact absurd h.1 hno
          · exact absurd hd (h.2 call (List.mem_append_left _ hcall))
        · exact absurd rfl (h.2 _ (List.mem_append_right _ hmem))
    | _ => exact .inl (hkeeps (by decide) (by decide) (by decide))
  · exact absurd h.1 (not_inService_of_fi (.inl hnone))
  · exact absurd h.1 (not_inService_of_fi (.inr hun))
  · exact absurd htype h.1.2

theorem Reachable.broken_step (hr : Reachable cfg good ⟨w,head :: rest⟩)
    (hcbch : (cfg l.ts).pchanFromConfig.hasCbch = false)
    (hb : (w.lchan l).fi = some .borken → (w.lchan l).type = .none ∨ Call.lchanResetRest l ∈ head :: rest)
    (he : exec cfg head x w = .ok (w',new)) (hfi' : (w'.lchan l).fi = some .borken) :
    (w'.lchan l).type = .none ∨ Call.lchanResetRest l ∈ new ++ rest := by
  rcases hr.slot_cases hcbch he with hs | ⟨st,st',hfi,hs,-,hreset,-⟩ | hnone | hun | htype
  · have hfi : (w'.lchan l).fi = (w.lchan l).fi := congrArg Prod.fst hs
    have htype : (w'.lchan l).type = (w.lchan l).type := congrArg Prod.snd hs
    rcases hb (hfi.symm.trans hfi') with hnone | hmem
    · exact .inl (htype.trans hnone)
    · rcases List.mem_cons.mp hmem with rfl | hmem
      · cases he
        exact .inl (by simp)
      · exact .inr (List.mem_append_right _ hmem)
  · have hst : st' = .borken := Option.some.inj ((congrArg Prod.fst hs).symm.trans hfi')
    exact .inr (List.mem_append_left _ (hreset hst))
  · rw [hnone] at hfi'
    cases hfi'
  · rw [hun] at hfi'
    cases hfi'
  · exact .inl htype

end Lchans

section Loop

variable {cfg : TsId → TsCfg} {w w' : Bsc} {head : Call} {new : List Call} {x : Foreign} {t : TsId} {i : Nat}
  {type : ChanT}

/-- One turn of the loop of `ts_fsm_in_use_onenter`: it keeps the type that it has found, and an lchan in service
has that type or fails. -/
theorem tsInUseOnenter_passes (hat : w.hasLchanAt t (w.ts t).pchanOnInit i = true)
    (he : tsInUseOnenter t i type w = .ok (w',new)) : ∃ pre type', new = pre ++ [Call.tsInUseOnenter t (i+1) type']
      ∧ (∀ call ∈ pre, ¬ call.Shifts t) ∧ (type' = type ∨ type = .none)
      ∧ (InService w ⟨t,i⟩ → Fits w t (w.lchan ⟨t,i⟩).type →
        Call.lchanDispatch ⟨t,i⟩ .tsError ∈ new ∨ (w.lchan ⟨t,i⟩).type = type') := by
  have herr := tsLchanDispatch_error (hasLchanAt_isSome hat)
  unfold tsInUseOnenter at he
  extract_lets l ltype ok w1 at he
  rw [if_pos hat] at he
  have herror {type' : ChanT} (htype : type' = type) : ∃ pre type'', tsLchanDispatch w l .tsError
        ++ [Call.tsInUseOnenter t (i+1) type'] = pre ++ [Call.tsInUseOnenter t (i+1) type'']
      ∧ (∀ call ∈ pre, ¬ call.Shifts t) ∧ (type'' = type ∨ type = .none)
      ∧ (InService w ⟨t,i⟩ → Fits w t (w.lchan ⟨t,i⟩).type → Call.lchanDispatch ⟨t,i⟩ .tsError
          ∈ tsLchanDispatch w l .tsError ++ [Call.tsInUseOnenter t (i+1) type']
        ∨ (w.lchan ⟨t,i⟩).type = type'') := by
    dsimp only [l]
    rw [herr]
    exact ⟨_,type',rfl,by simp [Call.Shifts],.inl htype,fun _ _ => .inl (by simp)⟩
  split at he
  · rename_i hun
    cases he
    refine ⟨[],type,rfl,by simp,.inl rfl,fun hin _ => absurd hin (not_inService_of_fi (.inr ?_))⟩
    obtain ⟨⟨st,hfi,-⟩,-⟩ := hin
    simp only [l,Lchan.stateIs,hfi,beq_iff_eq] at hun
    rw [hfi,hun]
  · split at he
    · rename_i hnot
      split at he
      · cases he
        exact herror rfl
      · cases he
        refine ⟨[],type,rfl,by simp,.inl rfl,fun _ hfit => ?_⟩
        obtain ⟨htype,hcap⟩ := hfit
        have hok : ok = true := by
          simp only [ok,ltype,l,hcap,Bool.and_true,Bool.or_eq_true,beq_iff_eq]
          rcases htype with h | h | h
          · exact .inr h
          · exact .inl (.inr h)
          · exact .inl (.inl h)
        simp [hok] at hnot
    · split at he
      · rename_i hnone
        cases he
        exact ⟨[],ltype,rfl,by simp,.inr hnone,fun _ _ => .inr rfl⟩
      · split at he
        · cases he
          exact herror rfl
        · rename_i heq
          cases he
          exact ⟨[],type,rfl,by simp,.inl rfl,fun _ _ => .inr (not_not.mp heq).symm⟩

/-- The end of the loop: the physical channel gets the kind that was found, if there is one. -/
theorem tsInUseOnenter_ends (hat : w.hasLchanAt t (w.ts t).pchanOnInit i = false)
    (he : tsInUseOnenter t i type w = .ok (w',new)) : Call.tsStateChg t .unused ∈ new
      ∨ Fits w t type ∧ ((w.ts t).pchanOnInit = .tchFTchHPdch → (w'.ts t).pchanIs = gsmPchanByLchanType type) := by
  unfold tsInUseOnenter at he
  extract_lets l ltype ok w1 at he
  rw [if_neg (by simp [hat])] at he
  have hfits (htype : type = .sdcch ∨ type = .tchF ∨ type = .tchH)
      (he : (if tsIsCapableOfLchant (w.ts t) type = true then
        .ok (w1,[.tsLchansDispatch t (some .waitTsReady) .tsReady 0])
      else .ok (w,[.tsStateChg t .unused]) : Outcome) = .ok (w',new)) : Call.tsStateChg t .unused ∈ new
        ∨ Fits w t type ∧ ((w.ts t).pchanOnInit = .tchFTchHPdch → (w'.ts t).pchanIs = gsmPchanByLchanType type) := by
    split at he
    · rename_i hcap
      simp only [Except.ok.injEq,Prod.mk.injEq] at he
      obtain ⟨rfl,-⟩ := he
      exact .inr ⟨⟨htype,hcap⟩,fun hon => by simp [w1,hon]⟩
    · cases he
      exact .inl (List.mem_singleton.mpr rfl)
  split at he
  · exact hfits (.inl rfl) he
  · exact hfits (.inr (.inl rfl)) he
  · exact hfits (.inr (.inr rfl)) he
  · cases he
    exact .inl (List.mem_singleton.mpr rfl)
  · cases he
    exact .inl (by simp)

theorem Fits.tch (h : Fits w t type) (hon : (w.ts t).pchanOnInit = .tchFTchHPdch) :
    type = .tchF ∨ type = .tchH := by
  obtain ⟨rfl | htype,hcap⟩ := h
  · simp [tsIsCapableOfLchant,hon] at hcap
  · exact htype

theorem fits_of_tch (hon : (w.ts t).pchanOnInit = .tchFTchHPdch) (h : type = .tchF ∨ type = .tchH) :
    Fits w t type := by
  refine ⟨.inr h,?_⟩
  rcases h with rfl | rfl <;> simp [tsIsCapableOfLchant,hon]

end Loop

section Run

variable {cfg : TsId → TsCfg} {good : Config → Move → Prop} {w w' : Bsc} {head : Call} {new rest : List Call}
  {x : Foreign} {t : TsId} {l : LchanId} {c : Config}

/-- While a timeslot is in use, only the end of the loop changes its physical channel. -/
theorem TsMoves.pchanIs_inUse (hm : TsMoves cfg w w' t head new) (hfi : (w.ts t).fi = .inUse)
    (hfi' : (w'.ts t).fi = .inUse) (hloop : ∀ i type, head ≠ .tsInUseOnenter t i type)
    (hterm : ∀ i, head ≠ .tsTerminateLchanFsms t i) : (w'.ts t).pchanIs = (w.ts t).pchanIs := by
  cases hm with
  | rests hts => rw [hts]
  | omlReady hn hts | rslReady hn hts =>
    rw [hfi] at hn
    cases hn
  | omlDown hts | rslDown hts =>
    rw [hts] at hfi'
    cases hfi'
  | requested l st hts => rw [hts]
  | vacated l hts => rw [hts]
  | pdchActAck hts => rw [hts]
  | pdchActNack hts => rw [hts]
  | pdchDeactAck hn =>
    rw [hfi] at hn
    cases hn
  | breaks hs hts => rw [hts]
  | enters st hst hout hts =>
    rw [hts] at hfi'
    obtain rfl : st = .inUse := hfi'
    rw [hfi] at hout
    cases hout
  | loops i type => exact absurd rfl (hloop i type)
  | ready i type => exact absurd rfl (hloop i type)
  | unready i type => exact absurd rfl (hloop i type)
  | terminated i => exact absurd rfl (hterm i)

theorem TsMoves.loop_mem {i : Nat} {type : ChanT} (hm : TsMoves cfg w w' t head new)
    (hmem : Call.tsInUseOnenter t i type ∈ new) : i = 0
      ∨ ∃ j type', head = .tsInUseOnenter t j type' ∧ w.hasLchanAt t (w.ts t).pchanOnInit j = true := by
  cases hm with
  | rests hts hnew => exact absurd rfl (hnew _ hmem)
  | omlReady | rslReady => split at hmem <;> simp at hmem
  | enters st hst hout hts hcalls =>
    cases st with
    | inUse =>
      obtain rfl : new = [.tsInUseOnenter t 0 .none] := hcalls
      simp at hmem
      exact .inl hmem.1
    | unused => rcases hcalls with rfl | rfl | ⟨rfl,-⟩ | rfl <;> simp [tsFsmError] at hmem
    | waitPdchAct | waitPdchDeact => rcases hcalls with rfl | rfl <;> simp [tsFsmError] at hmem
    | pdch => rcases hcalls with rfl | rfl | rfl <;> simp [tsFsmError] at hmem
    | notInitialized | borken =>
      obtain rfl : new = [] := hcalls
      cases hmem
  | loops j type' type'' pre hts hat => exact .inr ⟨j,type',rfl,hat⟩
  | unready j type' pre hts hat hfit hpre => rcases hpre with rfl | rfl <;> simp at hmem
  | _ => simp [tsFsmError] at hmem

theorem readyToGo_pchanIs (h : isLchanSane w t l = .readyToGo) :
    gsmLchanTypeByPchan (w.ts t).pchanIs = some (w.lchan l).type := by
  unfold isLchanSane at h
  dsimp only at h
  split at h
  · cases h
  · split at h
    · cases h
    · split at h
      · assumption
      · split at h <;> cases h

theorem tsDispatch_requested_inUse (hfi : (w.ts t).fi = .inUse) (hin : InService w l)
    (htch : (w.lchan l).type = .tchF ∨ (w.lchan l).type = .tchH)
    (he : tsDispatch cfg t (.lchanRequested l) w = .ok (w',new)) : Call.lchanDispatch l .tsError ∈ new
      ∨ (w.ts t).pchanIs = gsmPchanByLchanType (w.lchan l).type := by
  have hv : tsFsm.verdict .inUse (.lchanRequested l) = .action := rfl
  simp only [tsDispatch,hfi,hv,tsFsmInUse] at he
  split at he
  · rename_i hsane
    have hkind := readyToGo_pchanIs hsane
    refine .inr ?_
    rcases htch with htype | htype <;> rw [htype] at hkind ⊢ <;>
      cases hp : (w.ts t).pchanIs <;> rw [hp] at hkind <;> first | rfl | cases hkind
  all_goals
    cases he
    rw [tsLchanDispatch_error hin.isSome]
    exact .inl (List.mem_cons_self ..)

theorem Reachable.inUse_not_terminating {i : Nat} (hr : Reachable cfg good ⟨w,head :: rest⟩)
    (hfi : (w.ts t).fi = .inUse) : head ≠ .tsTerminateLchanFsms t i := by
  rintro rfl
  have homl : (w.ts t).isOmlReady = true := (hr.upright t).up (by rw [hfi]; decide)
  rcases hr.wakeup.slots t with hs | ⟨j,hj⟩
  · exact absurd rfl (hs.quiet _ (List.mem_cons_self ..))
  · exact Bool.noConfusion (hj.down.symm.trans homl)

/-- Every lchan of the timeslot comes before an index at which the loop finds none. -/
theorem Reachable.nr_lt {i : Nat} (hr : Reachable cfg good c) (homl : (c.state.ts t).isOmlReady = true)
    (hat : c.state.hasLchanAt t (c.state.ts t).pchanOnInit i = false)
    (hsubslots : pchanSubslots (cfg t).pchanFromConfig ≤ 8) (hl : l.ts = t)
    (hsome : (c.state.lchan l).fi.isSome) : l.nr < i := by
  obtain ⟨hon,hlchans⟩ := hr.laidOut homl
  subst hl
  have hnr := (hlchans l.nr).mp hsome
  by_contra hge
  have hi : i < pchanSubslots (cfg l.ts).pchanFromConfig := by omega
  have htrue : c.state.hasLchanAt l.ts (c.state.ts l.ts).pchanOnInit i = true := by
    rw [Bsc.hasLchanAt,hon,(hlchans i).mpr hi]
    simp [hi]
    omega
  rw [hat] at htrue
  cases htrue

/-- The lchans that serve after a call did so before, with the same type. -/
def ServedBefore (t : TsId) (w w' : Bsc) (calls calls' : List Call) : Prop :=
  ∀ l : LchanId, l.ts = t → Serving w' calls' l → Serving w calls l ∧ (w'.lchan l).type = (w.lchan l).type

theorem Suited.loop_step (h : Suited t w (head :: rest)) (hr : Reachable cfg good ⟨w,head :: rest⟩)
    (hkind : (cfg t).pchanFromConfig = .tchFTchHPdch) (he : exec cfg head x w = .ok (w',new))
    (hback : ServedBefore t w w' (head :: rest) (new ++ rest)) {i : Nat} {type : ChanT}
    (hmem : Call.tsInUseOnenter t i type ∈ new ++ rest) (hl : l.ts = t) (hs : Serving w' (new ++ rest) l)
    (hlt : l.nr < i) : (w'.lchan l).type = type := by
  obtain ⟨hs0,htype⟩ := hback l hl hs
  rw [htype]
  rcases List.mem_append.mp hmem with hmem | hmem
  · rcases (exec_tsMoves he).loop_mem hmem with rfl | ⟨j,type0,rfl,hat⟩
    · exact absurd hlt (Nat.not_lt_zero _)
    · have homl := (hr.upright t).shifts _ (List.mem_cons_self ..) rfl
      have hon := (hr.laidOut homl).1.trans hkind
      obtain ⟨pre,type',rfl,hpre,hkeep,hpass⟩ := tsInUseOnenter_passes hat he
      obtain ⟨rfl,rfl⟩ : i = j+1 ∧ type = type' := by
        rcases List.mem_append.mp hmem with hmem | hmem
        · exact absurd rfl (hpre _ hmem)
        · simpa using hmem
      rcases Nat.lt_succ_iff_lt_or_eq.mp hlt with hlt | hnr
      · have hfound := h.loop j type0 (List.mem_cons_self ..) l hl hs0 hlt
        rcases hkeep with rfl | hnone
        · exact hfound
        · exact absurd (hfound.trans hnone) hs0.1.2
      · obtain rfl : l = ⟨t,j⟩ := by rw [← hl,← hnr]
        rcases hpass hs0.1 (fits_of_tch hon (h.types _ rfl hs0)) with herror | heq
        · exact absurd ⟨rfl,rfl⟩ (hs.2 _ (List.mem_append_left _ herror))
        · exact heq
  · exact h.loop i type (List.mem_cons_of_mem _ hmem) l hl hs0 hlt

/-- The end of the loop gives the timeslot the kind of the lchans that serve. -/
theorem Suited.loop_ends {i : Nat} {type : ChanT} (h : Suited t w (.tsInUseOnenter t i type :: rest))
    (hr : Reachable cfg good ⟨w,.tsInUseOnenter t i type :: rest⟩) (hkind : (cfg t).pchanFromConfig = .tchFTchHPdch)
    (he : tsInUseOnenter t i type w = .ok (w',new))
    (hback : ServedBefore t w w' (.tsInUseOnenter t i type :: rest) (new ++ rest))
    (hloop : ∀ i type, Call.tsInUseOnenter t i type ∉ new) (hchg : Call.tsStateChg t .unused ∉ new) :
    ((w'.ts t).pchanIs = .tchF ∨ (w'.ts t).pchanIs = .tchH) ∧ ∀ l, l.ts = t → Serving w' (new ++ rest) l →
      (w'.ts t).pchanIs = gsmPchanByLchanType (w'.lchan l).type := by
  have homl := (hr.upright t).shifts _ (List.mem_cons_self ..) rfl
  have hon := (hr.laidOut homl).1.trans hkind
  cases hat : w.hasLchanAt t (w.ts t).pchanOnInit i with
  | true =>
    obtain ⟨pre,type',rfl,-⟩ := tsInUseOnenter_passes hat he
    exact absurd (List.mem_append_right _ (List.mem_singleton.mpr rfl)) (hloop (i+1) type')
  | false =>
    obtain ⟨hfit,his⟩ := (tsInUseOnenter_ends hat he).resolve_left hchg
    rw [his hon]
    refine ⟨?_,fun l hl hs => ?_⟩
    · rcases hfit.tch hon with rfl | rfl
      · exact .inl rfl
      · exact .inr rfl
    · obtain ⟨hs0,htype⟩ := hback l hl hs
      have hlt := hr.nr_lt homl hat (by rw [hkind]; decide) hl hs0.1.isSome
      rw [htype,h.loop i type (List.mem_cons_self ..) l hl hs0 hlt]

theorem Suited.inUse_step (h : Suited t w (head :: rest)) (hr : Reachable cfg good ⟨w,head :: rest⟩)
    (hkind : (cfg t).pchanFromConfig = .tchFTchHPdch) (he : exec cfg head x w = .ok (w',new))
    (hback : ServedBefore t w w' (head :: rest) (new ++ rest)) (hfi' : (w'.ts t).fi = .inUse)
    (hloop : ∀ i type, Call.tsInUseOnenter t i type ∉ new ++ rest)
    (hchg : Call.tsStateChg t .unused ∉ new ++ rest) :
    ((w'.ts t).pchanIs = .tchF ∨ (w'.ts t).pchanIs = .tchH) ∧ ∀ l, l.ts = t → Serving w' (new ++ rest) l →
      (w'.ts t).pchanIs = gsmPchanByLchanType (w'.lchan l).type := by
  have hloop' (i : Nat) (type : ChanT) : Call.tsInUseOnenter t i type ∉ new := fun hmem =>
    hloop i type (List.mem_append_left _ hmem)
  rcases TsMoves.inUse (exec_tsMoves he) hfi' with ⟨hfi,-⟩ | ⟨rfl,-⟩
  · by_cases hend : ∃ i type, head = .tsInUseOnenter t i type
    · obtain ⟨i,type,rfl⟩ := hend
      exact h.loop_ends hr hkind he hback hloop' fun hmem => hchg (List.mem_append_left _ hmem)
    · have hhead : head ≠ .tsStateChg t .unused := by
        rintro rfl
        have hst := (tsStateChg_spec (by rw [hfi]; rfl) he).2.1
        rw [hfi'] at hst
        cases hst
      have hloops (i : Nat) (type : ChanT) : Call.tsInUseOnenter t i type ∉ head :: rest := by
        intro hmem
        rcases List.mem_cons.mp hmem with hh | hmem
        · exact hend ⟨i,type,hh.symm⟩
        · exact hloop i type (List.mem_append_right _ hmem)
      have hchgs : Call.tsStateChg t .unused ∉ head :: rest := by
        intro hmem
        rcases List.mem_cons.mp hmem with hh | hmem
        · exact hhead hh.symm
        · exact hchg (List.mem_append_right _ hmem)
      obtain ⟨his,hkinds⟩ := h.inUse hfi hloops hchgs
      rw [(exec_tsMoves he).pchanIs_inUse hfi hfi' (fun i type hh => hend ⟨i,type,hh⟩)
        fun i => hr.inUse_not_terminating hfi]
      refine ⟨his,fun l hl hs => ?_⟩
      obtain ⟨hs0,htype⟩ := hback l hl hs
      rw [htype]
      rcases hkinds l hl hs0 with heq | hcalls
      · exact heq
      · obtain ⟨rfl,rfl⟩ := List.cons.inj hcalls
        rcases tsDispatch_requested_inUse hfi hs0.1 (h.types l hl hs0) he with herror | heq
        · exact absurd ⟨rfl,rfl⟩ (hs.2 _ (List.mem_append_left _ herror))
        · exact heq
  · exact absurd (List.mem_singleton.mpr rfl) (hloop' 0 .none)

theorem Suited.exec (h : Suited t w (head :: rest)) (hr : Reachable cfg good ⟨w,head :: rest⟩)
    (hkind : (cfg t).pchanFromConfig = .tchFTchHPdch) (hact : ∀ l info, head ≠ .lchanDispatch l (.activate info))
    (he : exec cfg head x w = .ok (w',new)) : Suited t w' (new ++ rest) := by
  have hcbch (l : LchanId) (hl : l.ts = t) : (cfg l.ts).pchanFromConfig.hasCbch = false := by
    rw [hl,hkind]
    rfl
  have hback : ServedBefore t w w' (head :: rest) (new ++ rest) := by
    intro l hl hs
    refine (hr.serving_back (hcbch l hl) (h.broken l hl) he hs).resolve_right ?_
    rintro ⟨info,hh⟩
    exact hact l info hh
  refine ⟨fun l hl => hr.broken_step (hcbch l hl) (h.broken l hl) he,fun l hl hs => ?_,
    fun i type hmem l hl hs hlt => h.loop_step hr hkind he hback hmem hl hs hlt,fun hfi' hloop hchg => ?_⟩
  · obtain ⟨hs0,htype⟩ := hback l hl hs
    rw [htype]
    exact h.types l hl hs0
  · obtain ⟨his,hkinds⟩ := h.inUse_step hr hkind he hback hfi' hloop hchg
    exact ⟨his,fun l hl hs => .inl (hkinds l hl hs)⟩

/-- An lchan is activated while nothing else waits, and asks its timeslot next, or fails. -/
theorem Suited.activate {info : ActivateInfo} (h : Suited t w (.lchanDispatch l (.activate info) :: rest))
    (hr : Reachable cfg good ⟨w,.lchanDispatch l (.activate info) :: rest⟩)
    (hkind : (cfg t).pchanFromConfig = .tchFTchHPdch) (he : lchanDispatch x l (.activate info) w = .ok (w',new)) :
    Suited t w' (new ++ rest) := by
  obtain ⟨rfl,hfits⟩ : rest = [] ∧ Fits w l.ts (w.lchan l).type := by
    have hask : Asking w (.lchanDispatch l (.activate info) :: rest) := hr.asking
    cases hask with
    | idle hno => exact absurd (hno _ (List.mem_cons_self ..)) (by simp [Call.asks])
    | dispatch _ _ hfits => exact ⟨rfl,hfits⟩
  have hcbch (l : LchanId) (hl : l.ts = t) : (cfg l.ts).pchanFromConfig.hasCbch = false := by
    rw [hl,hkind]
    rfl
  obtain ⟨hts,hstill⟩ := lchanDispatch_leavesTs l (.activate info) _ he
  dsimp only at hts hstill
  have hself : (w'.lchan l).type = (w.lchan l).type := by
    rcases (lchanDispatch_activate_turn info _ he).self with hs | ⟨st,st',-,hs,-⟩
    · exact congrArg Prod.snd hs
    · exact congrArg Prod.snd hs
  have hback (l' : LchanId) (hl' : l'.ts = t) (hs : Serving w' (new ++ []) l') :
      Serving w [.lchanDispatch l (.activate info)] l' ∧ (w'.lchan l').type = (w.lchan l').type ∨ l' = l := by
    refine (hr.serving_back (hcbch l' hl') (h.broken l' hl') he hs).imp id ?_
    rintro ⟨info',hh⟩
    cases hh
    rfl
  refine ⟨fun l' hl' => hr.broken_step (hcbch l' hl') (h.broken l' hl') he,fun l' hl' hs => ?_,
    fun i type hmem => ?_,fun hfi' _ _ => ?_⟩
  · rcases hback l' hl' hs with ⟨hs0,htype⟩ | rfl
    · rw [htype]
      exact h.types l' hl' hs0
    · rw [hself]
      refine hfits.tch ?_
      rcases hr.wakeup.slots l'.ts with hstable | ⟨j,hend⟩
      · rcases hstable.lchans with ⟨-,hon,-⟩ | ⟨-,hon,-⟩
        · exact hon.trans (hl' ▸ hkind)
        · dsimp only at hon
          simp [Fits,tsIsCapableOfLchant,hon] at hfits
      · exact absurd hend.loop (by simp)
  · rw [List.append_nil] at hmem
    exact absurd rfl ((hstill _ hmem).2 t)
  · rw [hts] at hfi' ⊢
    obtain ⟨his,hkinds⟩ := h.inUse hfi' (by simp) (by simp)
    refine ⟨his,fun l' hl' hs => ?_⟩
    have hold (hs0 : Serving w [.lchanDispatch l (.activate info)] l') :
        (w.ts t).pchanIs = gsmPchanByLchanType (w.lchan l').type :=
      (hkinds l' hl' hs0).resolve_right (by simp)
    rcases hback l' hl' hs with ⟨hs0,htype⟩ | rfl
    · exact .inl (by rw [htype]; exact hold hs0)
    · rcases lchanDispatch_activate info _ he with heq | ⟨-,-,-,-,hcalls | ⟨w1,hcalls⟩⟩
      · cases heq
        exact .inl (hold ⟨hs.1,by simp [Call.Dooms]⟩)
      · dsimp only at hcalls
        rw [hcalls,← hl']
        exact .inr rfl
      · dsimp only at hcalls
        refine absurd ⟨rfl,rfl⟩ (hs.2 (.lchanFailChg l' .unused) ?_)
        simp [hcalls,lchanFailTo]

theorem Reachable.suited (h : Reachable cfg good c) (hkind : (cfg t).pchanFromConfig = .tchFTchHPdch) :
    Suited t c.state c.calls := by
  refine @Reachable.induct cfg good (fun w calls => Suited t w calls) ?_ ?_ ?_ c h
  · refine ⟨fun l _ hfi => (by cases hfi),fun l _ hs => ?_,by simp,fun hfi => (by cases hfi)⟩
    exact absurd hs.1 (not_inService_of_fi (.inl rfl))
  · intro w i _ hw
    have hno := enter_no_shifts i w t
    have hserving {l : LchanId} (hs : Serving w (enter i w) l) : Serving w [] l := ⟨hs.1,by simp⟩
    refine ⟨fun l hl hfi => .inl ((hw.broken l hl hfi).resolve_right (by simp)),
      fun l hl hs => hw.types l hl (hserving hs),fun j type hmem => absurd rfl (hno _ hmem),fun hfi _ _ => ?_⟩
    obtain ⟨his,hkinds⟩ := hw.inUse hfi (by simp) (by simp)
    exact ⟨his,fun l hl hs => .inl ((hkinds l hl (hserving hs)).resolve_right (by simp))⟩
  · intro w call rest x w' new hr hw _ he
    by_cases hact : ∃ l info, call = .lchanDispatch l (.activate info)
    · obtain ⟨l,info,rfl⟩ := hact
      exact hw.activate hr hkind he
    · exact hw.exec hr hkind (fun l info hh => hact ⟨l,info,hh⟩) he

end Run

end OsmoBsc.Chan
