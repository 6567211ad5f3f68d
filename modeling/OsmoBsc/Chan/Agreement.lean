import OsmoBsc.Chan.Occupancy
set_option autoImplicit false

namespace OsmoBsc.Chan
open EventFsm

/-- The two states of a timeslot in which the BTS has a PDCH active. -/
def TsState.onPdch (st : TsState) : Prop := st = .pdch ∨ st = .waitPdchDeact

theorem TsState.not_onPdch {st : TsState} (h : st ≠ .pdch ∧ st ≠ .waitPdchDeact) : ¬ st.onPdch :=
  not_or.mpr h

/-- The physical channels that a timeslot can have, by its kind, while it is no PDCH. -/
structure Modes (ok : Pchan → Pchan → Prop) : Prop where
  setup : ∀ p : Pchan, ok p p.atSetup
  tchF : ok .tchFTchHPdch .tchF
  tchH : ok .tchFTchHPdch .tchH

/-- What holds of a timeslot whose state a pending call is about to change. -/
def Call.Due (ok : Pchan → Pchan → Prop) (t : TsId) (ts : Ts) : Call → Prop
  | .tsInUseOnenter t' _ _ => t' = t → ts.fi ≠ .notInitialized ∧ ¬ ts.fi.onPdch
  | .tsErrorChg t' st => t' = t → st = .unused → ts.fi ≠ .notInitialized ∧ ¬ ts.fi.onPdch
  | .tsStateChg t' st => t' = t →
      (st = .unused → ¬ ts.fi.onPdch ∧ (ts.fi = .notInitialized → ok ts.pchanOnInit ts.pchanIs))
      ∧ (st = .waitPdchAct → ts.pchanOnInit.dynamic = true)
  | _ => True

/-- The physical channel of timeslot `t`, while calls are pending. -/
structure Agreed (ok : Pchan → Pchan → Prop) (t : TsId) (w : Bsc) (calls : List Call) : Prop where
  due : ∀ call ∈ calls, call.Due ok t (w.ts t)
  alone : Call.tsStateChg t .pdch ∈ calls → calls = [.tsStateChg t .pdch]
  plain : (w.ts t).fi = .unused ∨ (w.ts t).fi = .waitPdchAct ∨ (w.ts t).fi = .inUse →
    ok (w.ts t).pchanOnInit (w.ts t).pchanIs
  dynamic : (w.ts t).fi = .waitPdchAct ∨ (w.ts t).fi.onPdch → (w.ts t).pchanOnInit.dynamic = true
  pdch : (w.ts t).fi.onPdch → (w.ts t).pchanIs = .pdch ∧ Call.tsStateChg t .inUse ∉ calls
    ∨ (w.ts t).fi = .waitPdchDeact ∧ calls = [.tsStateChg t .inUse]
      ∧ (w.ts t).pchanIs = (w.ts t).pchanOnInit.atSetup

section Agreed

variable {ok : Pchan → Pchan → Prop} {cfg : TsId → TsCfg} {w w' : Bsc} {head : Call} {new rest : List Call} {x : Foreign}
  {t : TsId} {c : Config}

theorem Modes.ready {type : ChanT} (hok : Modes ok) (hfit : Fits w t type)
    (h : ok (w.ts t).pchanOnInit (w.ts t).pchanIs) : ok (w.ts t).pchanOnInit
      (if (w.ts t).pchanOnInit = .tchFTchHPdch then gsmPchanByLchanType type else (w.ts t).pchanIs) := by
  by_cases hp : (w.ts t).pchanOnInit = .tchFTchHPdch
  · rw [if_pos hp,hp]
    rcases hfit with ⟨rfl | rfl | rfl,hcap⟩
    · simp [tsIsCapableOfLchant,hp] at hcap
    · exact hok.tchF
    · exact hok.tchH
  · rw [if_neg hp]
    exact h

theorem Call.Due.of_not_shifts {call : Call} {ts : Ts} (h : ¬ call.Shifts t) : call.Due ok t ts := by
  cases call with
  | tsStateChg t' st => exact fun ht => absurd ht h
  | tsErrorChg t' st => exact fun ht => absurd ht h
  | tsInUseOnenter t' i type => exact fun ht => absurd ht h
  | _ => trivial

theorem Call.Due.congr {call : Call} {ts ts' : Ts} (h : call.Due ok t ts) (hfi : ts'.fi = ts.fi)
    (hon : ts'.pchanOnInit = ts.pchanOnInit)
    (his : ts.fi = .notInitialized → ts'.pchanIs = ts.pchanIs) : call.Due ok t ts' := by
  cases call with
  | tsStateChg t' st =>
    intro ht
    obtain ⟨hun,hact⟩ := h ht
    refine ⟨fun hst => ?_,fun hst => hon ▸ hact hst⟩
    rw [hfi,hon]
    refine ⟨(hun hst).1,fun hn => ?_⟩
    rw [his hn]
    exact (hun hst).2 hn
  | tsErrorChg t' st => exact fun ht hst => hfi ▸ h ht hst
  | tsInUseOnenter t' i type => exact fun ht => hfi ▸ h ht
  | _ => trivial

theorem Call.Due.change {call : Call} {ts ts' : Ts} (h : call.Due ok t ts)
    (hon : ts'.pchanOnInit = ts.pchanOnInit) (hn : ts'.fi ≠ .notInitialized)
    (hp : ts'.fi.onPdch → ts.fi.onPdch) : call.Due ok t ts' := by
  cases call with
  | tsStateChg t' st =>
    intro ht
    obtain ⟨hun,hact⟩ := h ht
    refine ⟨fun hst => ⟨fun h' => (hun hst).1 (hp h'),fun h' => absurd h' hn⟩,fun hst => ?_⟩
    exact hon ▸ hact hst
  | tsErrorChg t' st => exact fun ht hst => ⟨hn,fun h' => (h ht hst).2 (hp h')⟩
  | tsInUseOnenter t' i type => exact fun ht => ⟨hn,fun h' => (h ht).2 (hp h')⟩
  | _ => trivial

theorem due_error {ts : Ts} {st : TsState}
    (h : st = .unused → ts.fi ≠ .notInitialized ∧ ¬ ts.fi.onPdch) :
    ∀ call ∈ tsFsmError t st, call.Due ok t ts := by
  simpa [tsFsmError,Call.Due] using h

theorem error_not_stateChg {st st' : TsState} : Call.tsStateChg t st ∉ tsFsmError t st' := by
  simp [tsFsmError]

theorem Agreed.no_pdch (h : Agreed ok t w (head :: rest)) : Call.tsStateChg t .pdch ∉ rest := by
  intro hmem
  have := h.alone (List.mem_cons_of_mem _ hmem)
  obtain ⟨-,rfl⟩ := List.cons.inj this
  cases hmem

theorem Agreed.stays (h : Agreed ok t w (head :: rest)) (hts : w'.ts t = w.ts t)
    (hhead : (w.ts t).fi = .waitPdchDeact → head ≠ .tsStateChg t .inUse)
    (hnew : ∀ call ∈ new, call.Due ok t (w.ts t)) (hpdch : Call.tsStateChg t .pdch ∉ new)
    (hin : (w.ts t).fi.onPdch → Call.tsStateChg t .inUse ∉ new) : Agreed ok t w' (new ++ rest) := by
  refine ⟨fun call hcall => ?_,fun hmem => ?_,by rw [hts]; exact h.plain,by rw [hts]; exact h.dynamic,
    fun hp => ?_⟩
  · rw [hts]
    rcases List.mem_append.mp hcall with hcall | hcall
    · exact hnew call hcall
    · exact h.due call (List.mem_cons_of_mem _ hcall)
  · rcases List.mem_append.mp hmem with hmem | hmem
    · exact absurd hmem hpdch
    · exact absurd hmem h.no_pdch
  · rw [hts] at hp ⊢
    rcases h.pdch hp with ⟨his,hnot⟩ | ⟨hfi,hcalls,-⟩
    · refine .inl ⟨his,fun hmem => ?_⟩
      rcases List.mem_append.mp hmem with hmem | hmem
      · exact hin hp hmem
      · exact hnot (List.mem_cons_of_mem _ hmem)
    · exact absurd (List.cons.inj hcalls).1 (hhead hfi)

theorem Agreed.down (hfi : (w.ts t).fi = .notInitialized)
    (hdue : ∀ call ∈ rest, call.Due ok t (w.ts t)) (hpdch : Call.tsStateChg t .pdch ∉ rest) :
    Agreed ok t w rest := by
  refine ⟨hdue,fun hmem => absurd hmem hpdch,?_,?_,?_⟩
  · intro h
    rw [hfi] at h
    rcases h with h | h | h <;> cases h
  · intro h
    rw [hfi] at h
    rcases h with h | h | h <;> cases h
  · intro h
    rw [hfi] at h
    rcases h with h | h <;> cases h

/-- A timeslot in a state other than those of a PDCH, which it has just entered. -/
theorem Agreed.entered (h : Agreed ok t w (head :: rest)) (hfi : (w'.ts t).fi ≠ .notInitialized)
    (hnot : ¬ (w'.ts t).fi.onPdch) (hon : (w'.ts t).pchanOnInit = (w.ts t).pchanOnInit)
    (hnew : ∀ call ∈ new, call.Due ok t (w'.ts t)) (hpdch : Call.tsStateChg t .pdch ∉ new)
    (hplain : (w'.ts t).fi = .unused ∨ (w'.ts t).fi = .waitPdchAct ∨ (w'.ts t).fi = .inUse →
      ok (w.ts t).pchanOnInit (w'.ts t).pchanIs)
    (hdyn : (w'.ts t).fi = .waitPdchAct → (w.ts t).pchanOnInit.dynamic = true) :
    Agreed ok t w' (new ++ rest) := by
  refine ⟨fun call hcall => ?_,fun hmem => ?_,by rw [hon]; exact hplain,fun hact => ?_,
    fun hp => absurd hp hnot⟩
  · rcases List.mem_append.mp hcall with hcall | hcall
    · exact hnew call hcall
    · exact (h.due call (List.mem_cons_of_mem _ hcall)).change hon hfi fun h' => absurd h' hnot
  · rcases List.mem_append.mp hmem with hmem | hmem
    · exact absurd hmem hpdch
    · exact absurd hmem h.no_pdch
  · rw [hon]
    rcases hact with hact | hact
    · exact hdyn hact
    · exact absurd hact hnot

theorem outState_unused {st : TsState} (h : tsFsm.outState st .unused = true) :
    st = .notInitialized ∨ st = .waitPdchAct ∨ st = .inUse ∨ st.onPdch := by
  cases st with
  | notInitialized => exact .inl rfl
  | waitPdchAct => exact .inr (.inl rfl)
  | inUse => exact .inr (.inr (.inl rfl))
  | waitPdchDeact => exact .inr (.inr (.inr (.inr rfl)))
  | _ => cases h

theorem outState_inUse {st : TsState} (h : tsFsm.outState st .inUse = true) :
    st = .unused ∨ st = .waitPdchDeact := by
  cases st with
  | unused => exact .inl rfl
  | waitPdchDeact => exact .inr rfl
  | _ => cases h

theorem outState_of_pdch {st st' : TsState} (h : tsFsm.outState st st' = true)
    (hst : st' = .waitPdchAct ∧ st ≠ .unused ∨ st' = .pdch ∧ st ≠ .waitPdchAct
      ∨ st' = .waitPdchDeact ∧ st ≠ .pdch) : False := by
  rcases hst with ⟨rfl,hne⟩ | ⟨rfl,hne⟩ | ⟨rfl,hne⟩ <;>
    cases st <;> first | exact hne rfl | cases h

theorem Agreed.enters_unused (h : Agreed ok t w (head :: rest))
    (hhead : head = .tsStateChg t .unused ∨ head = .tsErrorChg t .unused)
    (hout : tsFsm.outState (w.ts t).fi .unused = true) (hts : w'.ts t = (w.ts t).entered .unused)
    (hcalls : EntryCalls (w.ts t).pchanOnInit t .unused new) : Agreed ok t w' (new ++ rest) := by
  have hfi : (w'.ts t).fi = .unused := by rw [hts]; rfl
  have hon : (w'.ts t).pchanOnInit = (w.ts t).pchanOnInit := by rw [hts]; rfl
  have his : (w'.ts t).pchanIs = (w.ts t).pchanIs := by rw [hts]; simp [Ts.entered]
  have hnot : ¬ (w'.ts t).fi.onPdch := TsState.not_onPdch (by simp [hfi])
  have hdue := h.due head (List.mem_cons_self ..)
  refine h.entered (by rw [hfi]; decide) hnot hon ?_ ?_ (fun _ => ?_) (fun h => ?_)
  · rcases hcalls with rfl | rfl | ⟨rfl,hd⟩ | rfl
    · simp
    · exact due_error fun h => by cases h
    · simp [Call.Due,hon,hd]
    · simp [Call.Due]
  · rcases hcalls with rfl | rfl | ⟨rfl,hd⟩ | rfl
    · simp
    · exact error_not_stateChg
    · simp
    · simp
  · rw [his]
    rcases outState_unused hout with hst | hst | hst | hst
    · rcases hhead with rfl | rfl
      · exact ((hdue rfl).1 rfl).2 hst
      · exact absurd hst (hdue rfl rfl).1
    · exact h.plain (.inr (.inl hst))
    · exact h.plain (.inr (.inr hst))
    · rcases hhead with rfl | rfl
      · exact absurd hst ((hdue rfl).1 rfl).1
      · exact absurd hst (hdue rfl rfl).2
  · rw [hfi] at h
    cases h

theorem Agreed.enters_inUse (hok : Modes ok) (h : Agreed ok t w (.tsStateChg t .inUse :: rest))
    (hout : tsFsm.outState (w.ts t).fi .inUse = true) (hts : w'.ts t = (w.ts t).entered .inUse)
    (hcalls : EntryCalls (w.ts t).pchanOnInit t .inUse new) : Agreed ok t w' (new ++ rest) := by
  have hfi : (w'.ts t).fi = .inUse := by rw [hts]; rfl
  have hon : (w'.ts t).pchanOnInit = (w.ts t).pchanOnInit := by rw [hts]; rfl
  have his : (w'.ts t).pchanIs = (w.ts t).pchanIs := by rw [hts]; simp [Ts.entered]
  have hnot : ¬ (w'.ts t).fi.onPdch := TsState.not_onPdch (by simp [hfi])
  obtain rfl : new = [.tsInUseOnenter t 0 .none] := hcalls
  refine h.entered (by rw [hfi]; decide) hnot hon ?_ (by simp) (fun _ => ?_) (fun h => ?_)
  · simp only [List.mem_singleton,forall_eq]
    exact fun _ => ⟨by rw [hfi]; decide,hnot⟩
  · rw [his]
    rcases outState_inUse hout with hst | hst
    · exact h.plain (.inl hst)
    · rcases h.pdch (.inr hst) with ⟨-,hno⟩ | ⟨-,-,hs⟩
      · exact absurd (List.mem_cons_self ..) hno
      · exact hs ▸ hok.setup _
  · rw [hfi] at h
    cases h

theorem Agreed.enters_pdch {st : TsState} (h : Agreed ok t w (.tsStateChg t st :: rest))
    (hst : st = .pdch ∨ st = .waitPdchDeact)
    (hout : tsFsm.outState (w.ts t).fi st = true) (hts : w'.ts t = (w.ts t).entered st)
    (hcalls : EntryCalls (w.ts t).pchanOnInit t st new) : Agreed ok t w' (new ++ rest) := by
  have hfi : (w'.ts t).fi = st := by rw [hts]; rfl
  have hon : (w'.ts t).pchanOnInit = (w.ts t).pchanOnInit := by rw [hts]; rfl
  have hinit : (w'.ts t).fi ≠ .notInitialized := by
    rw [hfi]
    rcases hst with rfl | rfl <;> decide
  have hdyn : (w.ts t).pchanOnInit.dynamic = true := by
    refine h.dynamic ?_
    by_contra hno
    rw [not_or] at hno
    rcases hst with rfl | rfl
    · exact outState_of_pdch hout (.inr (.inl ⟨rfl,hno.1⟩))
    · exact outState_of_pdch hout (.inr (.inr ⟨rfl,fun h => hno.2 (.inl h)⟩))
  have hnew : (∀ call ∈ new, call.Due ok t (w'.ts t)) ∧ Call.tsStateChg t .pdch ∉ new
      ∧ Call.tsStateChg t .inUse ∉ new := by
    rcases hst with rfl | rfl
    · rcases hcalls with rfl | rfl | rfl
      · simp
      · simp [Call.Due]
      · exact ⟨due_error fun h => (by cases h),error_not_stateChg,error_not_stateChg⟩
    · rcases hcalls with rfl | rfl
      · simp
      · exact ⟨due_error fun h => (by cases h),error_not_stateChg,error_not_stateChg⟩
  have hno : ¬ ((w'.ts t).fi = .unused ∨ (w'.ts t).fi = .waitPdchAct ∨ (w'.ts t).fi = .inUse) := by
    rw [hfi]
    rcases hst with rfl | rfl <;> decide
  rcases hst with rfl | rfl
  · have := h.alone (List.mem_cons_self ..)
    obtain ⟨-,rfl⟩ := List.cons.inj this
    rw [List.append_nil]
    refine ⟨hnew.1,fun hm => absurd hm hnew.2.1,fun h => absurd h hno,fun _ => hon ▸ hdyn,
      fun _ => .inl ⟨?_,hnew.2.2⟩⟩
    rw [hts]
    simp [Ts.entered,hdyn]
  · have hpdch : (w.ts t).fi = .pdch := by
      by_contra hne
      exact outState_of_pdch hout (.inr (.inr ⟨rfl,hne⟩))
    refine ⟨fun call hcall => ?_,fun hmem => ?_,fun h => absurd h hno,fun _ => hon ▸ hdyn,
      fun _ => .inl ⟨?_,fun hmem => ?_⟩⟩
    · rcases List.mem_append.mp hcall with hcall | hcall
      · exact hnew.1 call hcall
      · exact (h.due call (List.mem_cons_of_mem _ hcall)).change hon hinit fun _ => .inl hpdch
    · rcases List.mem_append.mp hmem with hmem | hmem
      · exact absurd hmem hnew.2.1
      · exact absurd hmem h.no_pdch
    · rcases h.pdch (.inl hpdch) with ⟨his,-⟩ | ⟨hne,-⟩
      · rw [hts]
        simp [Ts.entered,his]
      · rw [hpdch] at hne
        cases hne
    · rcases h.pdch (.inl hpdch) with ⟨-,hnot⟩ | ⟨hne,-⟩
      · rcases List.mem_append.mp hmem with hmem | hmem
        · exact hnew.2.2 hmem
        · exact hnot (List.mem_cons_of_mem _ hmem)
      · rw [hpdch] at hne
        cases hne

theorem Agreed.enters {st : TsState} (hok : Modes ok) (h : Agreed ok t w (head :: rest)) (hwf : head.wf = true)
    (hhead : head = .tsStateChg t st ∨ head = .tsErrorChg t st)
    (hout : tsFsm.outState (w.ts t).fi st = true) (hts : w'.ts t = (w.ts t).entered st)
    (hcalls : EntryCalls (w.ts t).pchanOnInit t st new) : Agreed ok t w' (new ++ rest) := by
  have hfi : (w'.ts t).fi = st := by rw [hts]; rfl
  have hon : (w'.ts t).pchanOnInit = (w.ts t).pchanOnInit := by rw [hts]; rfl
  cases st with
  | unused => exact h.enters_unused hhead hout hts hcalls
  | inUse =>
    rcases hhead with rfl | rfl
    · exact h.enters_inUse hok hout hts hcalls
    · cases hwf
  | pdch =>
    rcases hhead with rfl | rfl
    · exact h.enters_pdch (.inl rfl) hout hts hcalls
    · cases hwf
  | waitPdchDeact =>
    rcases hhead with rfl | rfl
    · exact h.enters_pdch (.inr rfl) hout hts hcalls
    · cases hwf
  | waitPdchAct =>
    rcases hhead with rfl | rfl
    · have hun : (w.ts t).fi = .unused := by
        by_contra hne
        exact outState_of_pdch hout (.inl ⟨rfl,hne⟩)
      have hdyn := (h.due _ (List.mem_cons_self ..) rfl).2 rfl
      have hnot : ¬ (w'.ts t).fi.onPdch := TsState.not_onPdch (by simp [hfi])
      have hnew : new = [] ∨ new = tsFsmError t .borken := hcalls
      refine h.entered (by rw [hfi]; decide) hnot hon ?_ ?_ (fun _ => ?_) fun _ => hdyn
      · rcases hnew with rfl | rfl
        · simp
        · exact due_error fun h => (by cases h)
      · rcases hnew with rfl | rfl
        · simp
        · exact error_not_stateChg
      · rw [hts]
        simpa [Ts.entered] using h.plain (.inl hun)
    · cases hwf
  | borken =>
    obtain rfl : new = [] := hcalls
    have hnot : ¬ (w'.ts t).fi.onPdch := TsState.not_onPdch (by simp [hfi])
    refine h.entered (by rw [hfi]; decide) hnot hon (by simp) (by simp) (fun h => ?_) fun h => ?_
    · rw [hfi] at h
      rcases h with h | h | h <;> cases h
    · rw [hfi] at h
      cases h
  | notInitialized =>
    rcases hhead with rfl | rfl <;> cases hwf

theorem Call.Due.of_append {pre : List Call} {last : Call} {ts : Ts}
    (hpre : ∀ call ∈ pre, ¬ call.Shifts t) (hlast : last.Due ok t ts) :
    ∀ call ∈ pre ++ [last], call.Due ok t ts := by
  intro call hcall
  rcases List.mem_append.mp hcall with hcall | hcall
  · exact .of_not_shifts (hpre call hcall)
  · rw [List.mem_singleton.mp hcall]
    exact hlast

/-- A timeslot that is not in use does not go to TS_ST_IN_USE by a call that leaves it as it is. -/
theorem not_inUse_of_stays (hts : w'.ts t = w.ts t) (hfi : (w.ts t).fi = .waitPdchDeact)
    (he : exec cfg head x w = .ok (w',new)) : head ≠ .tsStateChg t .inUse := by
  rintro rfl
  have := (tsStateChg_spec (by rw [hfi]; rfl) he).2.1
  rw [hts,hfi] at this
  cases this

theorem Agreed.omlReady {pchan : Pchan} (hok : Modes ok) (hfi : (w.ts t).fi = .notInitialized)
    (hts : w'.ts t = { w.ts t with
      pdchActAllowed := true, isOmlReady := true, pchanOnInit := pchan, pchanIs := pchan.atSetup }) :
    Agreed ok t w' (if (w.ts t).isRslReady then [.tsStateChg t .unused] else []) := by
  refine .down (by rw [hts]; exact hfi) (fun call hcall => ?_) (by split <;> simp)
  split at hcall
  · rw [List.mem_singleton.mp hcall,hts]
    exact fun _ => ⟨fun _ => ⟨TsState.not_onPdch (by simp [hfi]),fun _ => hok.setup _⟩,fun h => (by cases h)⟩
  · cases hcall

theorem Agreed.rslReady (h : Agreed ok t w (.tsDispatch t .rslReady :: rest))
    (hfi : (w.ts t).fi = .notInitialized)
    (hts : w'.ts t = { w.ts t with pdchActAllowed := true, isRslReady := true })
    (hrsl : (w.ts t).isOmlReady = true → ok (w.ts t).pchanOnInit (w.ts t).pchanIs) :
    Agreed ok t w' ((if (w.ts t).isOmlReady then [.tsStateChg t .unused] else []) ++ rest) := by
  refine .down (by rw [hts]; exact hfi) (fun call hcall => ?_) fun hmem => ?_
  · rcases List.mem_append.mp hcall with hcall | hcall
    · split at hcall
      · rename_i homl
        rw [List.mem_singleton.mp hcall,hts]
        exact fun _ => ⟨fun _ => ⟨TsState.not_onPdch (by simp [hfi]),fun _ => hrsl homl⟩,fun h => (by cases h)⟩
      · cases hcall
    · refine (h.due call (List.mem_cons_of_mem _ hcall)).congr ?_ ?_ fun _ => ?_ <;> rw [hts]
  · rcases List.mem_append.mp hmem with hmem | hmem
    · split at hmem <;> simp at hmem
    · exact h.no_pdch hmem

theorem Agreed.pdchActAck (h : Agreed ok t w [.tsDispatch t .pdchActAck]) (hts : w'.ts t = w.ts t)
    (hfi : (w.ts t).fi = .waitPdchAct) : Agreed ok t w' [.tsStateChg t .pdch] := by
  refine ⟨by simp [Call.Due],by simp,by rw [hts]; exact h.plain,by rw [hts]; exact h.dynamic,
    fun hp => ?_⟩
  rw [hts] at hp
  exact absurd hp (TsState.not_onPdch (by simp [hfi]))

theorem Agreed.pdchActNack (h : Agreed ok t w (.tsDispatch t .pdchActNack :: rest))
    (hts : w'.ts t = { w.ts t with pdchActAllowed := false }) (hfi : (w.ts t).fi = .waitPdchAct) :
    Agreed ok t w' (tsFsmError t .unused ++ rest) := by
  have hfi' : (w'.ts t).fi = .waitPdchAct := by rw [hts]; exact hfi
  have hnot : ¬ (w'.ts t).fi.onPdch := TsState.not_onPdch (by simp [hfi'])
  refine h.entered (by rw [hfi']; decide) hnot (by rw [hts]) ?_ error_not_stateChg
    (fun _ => ?_) fun _ => h.dynamic (.inl hfi)
  · exact due_error fun _ => ⟨by rw [hfi']; decide,hnot⟩
  · rw [hts]
    exact h.plain (.inr (.inl hfi))

theorem Agreed.pdchDeactAck (hfi : (w.ts t).fi = .waitPdchDeact)
    (hd : (w.ts t).pchanOnInit.dynamic = true)
    (hts : w'.ts t = { w.ts t with pchanIs := (w.ts t).pchanOnInit.atSetup }) :
    Agreed ok t w' [.tsStateChg t .inUse] := by
  have hfi' : (w'.ts t).fi = .waitPdchDeact := by rw [hts]; exact hfi
  refine ⟨by simp [Call.Due],by simp,fun hst => ?_,fun _ => ?_,fun _ => .inr ⟨hfi',rfl,?_⟩⟩
  · rw [hfi'] at hst
    rcases hst with h | h | h <;> cases h
  · rw [hts]
    exact hd
  · rw [hts]

theorem Agreed.ready {i : Nat} {type : ChanT} (hok : Modes ok)
    (h : Agreed ok t w (.tsInUseOnenter t i type :: rest)) (hfit : Fits w t type)
    (hts : w'.ts t = { w.ts t with
      pchanIs := if (w.ts t).pchanOnInit = .tchFTchHPdch then gsmPchanByLchanType type
        else (w.ts t).pchanIs }) :
    Agreed ok t w' ([.tsLchansDispatch t (some .waitTsReady) .tsReady 0] ++ rest) := by
  have hfi' : (w'.ts t).fi = (w.ts t).fi := by rw [hts]
  obtain ⟨hinit,hnot⟩ := h.due _ (List.mem_cons_self ..) rfl
  refine h.entered (by rw [hfi']; exact hinit) (by rw [hfi']; exact hnot) (by rw [hts])
    (by simp [Call.Due]) (by simp) (fun hst => ?_) fun hact => ?_
  · rw [hfi'] at hst
    rw [hts]
    exact hok.ready hfit (h.plain hst)
  · rw [hfi'] at hact
    exact h.dynamic (.inl hact)

theorem Agreed.exec (hok : Modes ok) (h : Agreed ok t w (head :: rest)) (hwf : head.wf = true)
    (halone : head.entry = true → rest = [])
    (hdown : ∀ i, head = .tsTerminateLchanFsms t i → (w.ts t).fi = .notInitialized
      ∧ ∀ call ∈ rest, ¬ call.Shifts t)
    (hrsl : head = .tsDispatch t .rslReady → (w.ts t).fi = .notInitialized →
      (w.ts t).isOmlReady = true → ok (w.ts t).pchanOnInit (w.ts t).pchanIs)
    (he : exec cfg head x w = .ok (w',new)) : Agreed ok t w' (new ++ rest) := by
  have hhead := h.due head (List.mem_cons_self ..)
  cases exec_tsMoves (t := t) he with
  | rests hts hnew =>
    refine h.stays hts (not_inUse_of_stays hts · he) (fun call hcall => .of_not_shifts (hnew call hcall))
      (fun hmem => hnew _ hmem rfl) fun _ hmem => hnew _ hmem rfl
  | omlReady hfi hts =>
    obtain rfl := halone rfl
    rw [List.append_nil]
    exact .omlReady hok hfi hts
  | rslReady hfi hts => exact h.rslReady hfi hts (hrsl rfl hfi)
  | omlDown hts =>
    obtain rfl := halone rfl
    exact .down (by rw [hts]) (by simp [Call.Due]) (by simp)
  | rslDown hts =>
    obtain rfl := halone rfl
    exact .down (by rw [hts]) (by simp [Call.Due]) (by simp)
  | requested l st hts hfi hsane =>
    refine h.stays hts (not_inUse_of_stays hts · he) ?_ ?_ fun hp hmem => ?_
    · rcases hfi with ⟨-,rfl⟩ | ⟨-,rfl⟩ <;> simp [Call.Due]
    · rcases hfi with ⟨-,rfl⟩ | ⟨-,rfl⟩ <;> simp
    · rcases hfi with ⟨hfi,rfl⟩ | ⟨hfi,rfl⟩
      · rw [hfi] at hp
        rcases hp with h | h <;> cases h
      · simp at hmem
  | vacated l hts hfi hcount =>
    refine h.stays hts (not_inUse_of_stays hts · he) ?_ (by simp) (by simp)
    simp only [List.mem_singleton,forall_eq]
    refine fun _ => ⟨fun _ => ⟨TsState.not_onPdch (by simp [hfi]),fun hn => ?_⟩,fun h => (by cases h)⟩
    rw [hfi] at hn
    cases hn
  | pdchActAck hts hfi =>
    obtain rfl := halone rfl
    exact h.pdchActAck hts hfi
  | pdchActNack hts hfi => exact h.pdchActNack hts hfi
  | pdchDeactAck hfi hd hts =>
    obtain rfl := halone rfl
    exact .pdchDeactAck hfi hd hts
  | breaks hs hts hfi =>
    exact h.stays hts (not_inUse_of_stays hts · he) (due_error fun h => (by cases h)) error_not_stateChg
      fun _ => error_not_stateChg
  | enters st hst hout hts hcalls => exact h.enters hok hwf hst hout hts hcalls
  | loops i type type' pre hts hat hpre =>
    refine h.stays hts (not_inUse_of_stays hts · he) (.of_append ?_ hhead) ?_ fun _ => ?_
    all_goals rcases hpre with rfl | rfl <;> simp [Call.Shifts]
  | ready i type hat hfit hts => exact h.ready hok hfit hts
  | unready i type pre hts hat hfit hpre =>
    obtain ⟨hinit,hnot⟩ := hhead rfl
    have hunused : (Call.tsStateChg t .unused).Due ok t (w.ts t) := fun _ =>
      ⟨fun _ => ⟨hnot,fun h => absurd h hinit⟩,fun h => (by cases h)⟩
    refine h.stays hts (not_inUse_of_stays hts · he) (.of_append ?_ hunused) ?_ fun _ => ?_
    all_goals rcases hpre with rfl | rfl <;> simp [Call.Shifts]
  | terminated i hts =>
    obtain ⟨hfi,hno⟩ := hdown i rfl
    refine .down (by rw [hts]; exact hfi) (fun call hcall => .of_not_shifts ?_) h.no_pdch
    exact hno call hcall

end Agreed

/-- The physical channels of a timeslot in every run: none after RSL was down, the one that
it began with, or the one that its lchans asked for. -/
def Pchan.HasMode (onInit is : Pchan) : Prop :=
  is = .none ∨ is = onInit.atSetup ∨ onInit = .tchFTchHPdch ∧ (is = .tchF ∨ is = .tchH)

theorem modes_hasMode : Modes Pchan.HasMode :=
  ⟨fun _ => .inr (.inl rfl),.inr (.inr ⟨rfl,.inl rfl⟩),.inr (.inr ⟨rfl,.inr rfl⟩)⟩

def SetUp (t : TsId) (w : Bsc) : Prop :=
  (w.ts t).fi = .notInitialized → (w.ts t).isOmlReady = true → (w.ts t).pchanOnInit.HasMode (w.ts t).pchanIs

section Reachable

variable {cfg : TsId → TsCfg} {good : Config → Move → Prop} {w w' : Bsc} {head : Call}
  {new rest : List Call} {x : Foreign} {t : TsId} {c : Config}

theorem SetUp.exec (h : SetUp t w) (ha : Agreed Pchan.HasMode t w (head :: rest)) (hwf : head.wf = true)
    (he : exec cfg head x w = .ok (w',new)) : SetUp t w' := by
  have hhead := ha.due head (List.mem_cons_self ..)
  have hsame : w'.ts t = w.ts t → SetUp t w' := fun hts => by rwa [SetUp,hts]
  have hother : (w'.ts t).fi ≠ .notInitialized → SetUp t w' := fun hne hfi => absurd hfi hne
  cases exec_tsMoves (t := t) he with
  | rests hts => exact hsame hts
  | omlReady hfi hts =>
    intro _ _
    rw [hts]
    exact .inr (.inl rfl)
  | rslReady hfi hts =>
    intro h1 h2
    rw [hts] at h1 h2 ⊢
    exact h h1 h2
  | omlDown hts =>
    intro _ h2
    rw [hts] at h2
    cases h2
  | rslDown hts =>
    intro _ _
    rw [hts]
    exact .inl rfl
  | requested l st hts => exact hsame hts
  | vacated l hts => exact hsame hts
  | pdchActAck hts => exact hsame hts
  | pdchActNack hts hfi => exact hother (by rw [hts,hfi]; decide)
  | pdchDeactAck hfi hd hts => exact hother (by rw [hts,hfi]; decide)
  | breaks hs hts => exact hsame hts
  | enters st hst hout hts =>
    refine hother ?_
    rw [hts]
    rintro rfl
    rcases hst with rfl | rfl <;> cases hwf
  | loops i type type' pre hts => exact hsame hts
  | ready i type hat hfit hts => exact hother (by rw [hts]; exact (hhead rfl).1)
  | unready i type pre hts => exact hsame hts
  | terminated i hts =>
    intro _ _
    rw [hts]
    exact .inl rfl

theorem Reachable.agreed (h : Reachable cfg good c) (t : TsId) :
    Agreed Pchan.HasMode t c.state c.calls ∧ SetUp t c.state := by
  refine @Reachable.induct cfg good (fun w calls => Agreed Pchan.HasMode t w calls ∧ SetUp t w) ?_ ?_ ?_ c h
  · exact ⟨.down rfl (by simp) (by simp),fun _ h => (by cases h)⟩
  · intro w i _ hw
    have hno := enter_no_shifts i w t
    refine ⟨⟨fun call hcall => .of_not_shifts (hno call hcall),fun hmem => absurd rfl (hno _ hmem),
      hw.1.plain,hw.1.dynamic,fun hp => .inl ⟨?_,fun hmem => absurd rfl (hno _ hmem)⟩⟩,hw.2⟩
    rcases hw.1.pdch hp with ⟨his,-⟩ | ⟨-,hcalls,-⟩
    · exact his
    · cases hcalls
  · intro w call rest x w' new hr hw _ he
    have hwf := hr.wakeup.wf _ (List.mem_cons_self ..)
    refine ⟨hw.1.exec modes_hasMode hwf (fun hentry => hr.wakeup.alone hentry) ?_ ?_ he,hw.2.exec hw.1 hwf he⟩
    · rintro i rfl
      have hdown : (w.ts t).isOmlReady = false := by
        rcases hr.wakeup.slots t with hs | ⟨j,hj⟩
        · exact absurd rfl (hs.quiet _ (List.mem_cons_self ..))
        · exact hj.down
      have hu := hr.upright t
      refine ⟨?_,fun call hcall hs => ?_⟩
      · by_contra hne
        exact Bool.noConfusion (hdown.symm.trans (hu.up hne))
      · exact Bool.noConfusion (hdown.symm.trans (hu.shifts call (List.mem_cons_of_mem _ hcall) hs))
    · rintro rfl hfi homl
      exact hw.2 hfi homl

end Reachable

end OsmoBsc.Chan
