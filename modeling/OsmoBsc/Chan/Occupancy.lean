import OsmoBsc.Chan.TsMoves
set_option autoImplicit false

namespace OsmoBsc.Chan
open EventFsm

def Pchan.hasCbch : Pchan → Bool
  | .ccchSdcch4Cbch | .sdcch8Sacch8cCbch => true
  | _ => false

/-- The timeslot has the lchan, and it is not the one that is reserved for CBCH. -/
def Allocatable (cfg : TsId → TsCfg) (l : LchanId) : Prop :=
  l.nr < pchanSubslots (cfg l.ts).pchanFromConfig
    ∧ ((cfg l.ts).pchanFromConfig.hasCbch = true → l.nr ≠ 2)

/-- The lchan is in a state other than LCHAN_ST_UNUSED. -/
def Active (w : Bsc) (l : LchanId) : Prop := ∃ st, (w.lchan l).fi = some st ∧ st ≠ .unused

def TsCfg.switchesToPdch (cfg : TsCfg) : Bool := cfg.pchanFromConfig.dynamic && cfg.gprs

/-- A timeslot keeps account of its use. Between two inputs it is in use only for an
active lchan, and once the last lchan reports that it is unused, the timeslot becomes
unused and, if it may, activates a PDCH. -/
structure Accounted (cfg : TsId → TsCfg) (c : Config) (t : TsId) : Prop where
  inUse : c.Quiescent → (c.state.ts t).fi = .inUse →
    ∃ l, l.ts = t ∧ Allocatable cfg l ∧ Active c.state l
  last : ∀ l rest, c.calls = .tsDispatch t (.lchanUnused l) :: rest → (c.state.ts t).fi = .inUse →
    (∀ l', l'.ts = t → Allocatable cfg l' → ¬ Active c.state l') →
    ∀ x y, ∃ c', run (step cfg) c [.call x,.call y] = .ok c' ∧ (c'.state.ts t).fi = .unused
      ∧ c'.calls = (if (cfg t).switchesToPdch then [.tsStateChg t .waitPdchAct] else []) ++ rest
      ∧ ((cfg t).switchesToPdch = true → ∀ z : Foreign, z.fail = false →
        ∃ c'', step cfg c' (.call z) = .ok c'' ∧ (c''.state.ts t).fi = .waitPdchAct
          ∧ c''.calls = rest)

def Call.Vacates (t : TsId) : Call → Prop
  | .tsDispatch t' (.lchanUnused _) => t' = t
  | .tsInUseOnenter t' _ type => t' = t ∧ type = .none
  | .tsStateChg t' st => t' = t ∧ st = .unused
  | _ => False

structure Upright (t : TsId) (w : Bsc) (calls : List Call) : Prop where
  up : (w.ts t).fi ≠ .notInitialized → (w.ts t).isOmlReady = true
  shifts : ∀ call ∈ calls, call.Shifts t → (w.ts t).isOmlReady = true

section Upright

variable {cfg : TsId → TsCfg} {good : Config → Move → Prop} {w w' : Bsc} {head : Call}
  {new rest : List Call} {x : Foreign} {t : TsId} {c : Config}

/-- As long as OML stays up, everything that is asked of the timeslot is fine. -/
theorem Upright.stays (h : Upright t w (head :: rest))
    (homl : (w'.ts t).isOmlReady = (w.ts t).isOmlReady)
    (hup : (w'.ts t).fi ≠ .notInitialized → (w.ts t).isOmlReady = true)
    (hnew : ∀ call ∈ new, call.Shifts t → (w.ts t).isOmlReady = true) :
    Upright t w' (new ++ rest) := by
  refine ⟨fun hfi => homl.trans (hup hfi),fun call hcall hs => homl.trans ?_⟩
  rcases List.mem_append.mp hcall with hcall | hcall
  · exact hnew call hcall hs
  · exact h.shifts call (List.mem_cons_of_mem _ hcall) hs

theorem Upright.exec (h : Upright t w (head :: rest))
    (halone : head.entry = true → rest = []) (hm : TsMoves cfg w w' t head new) :
    Upright t w' (new ++ rest) := by
  have hhead := h.shifts head (List.mem_cons_self ..)
  cases hm with
  | rests hts hnew =>
    exact h.stays (by rw [hts]) (by rw [hts]; exact h.up) fun call hcall hs =>
      absurd hs (hnew call hcall)
  | omlReady hfi hts =>
    have ho : (w'.ts t).isOmlReady = true := by rw [hts]
    exact ⟨fun _ => ho,fun _ _ _ => ho⟩
  | rslReady hfi hts =>
    refine h.stays (by rw [hts]) (fun hf => ?_) fun call hcall _ => ?_
    · rw [hts] at hf
      exact absurd hfi hf
    · split at hcall
      · assumption
      · cases hcall
  | omlDown hts =>
    obtain rfl := halone rfl
    refine ⟨fun hf => ?_,by simp [Call.Shifts]⟩
    rw [hts] at hf
    exact absurd rfl hf
  | rslDown hts =>
    refine h.stays (by rw [hts]) (fun hf => ?_) (by simp [Call.Shifts])
    rw [hts] at hf
    exact absurd rfl hf
  | requested l st hts hfi hsane =>
    have ho := h.up (by rcases hfi with ⟨hfi,-⟩ | ⟨hfi,-⟩ <;> rw [hfi] <;> decide)
    exact h.stays (by rw [hts]) (fun _ => ho) fun _ _ _ => ho
  | vacated l hts hfi hcount =>
    have ho := h.up (by rw [hfi]; decide)
    exact h.stays (by rw [hts]) (fun _ => ho) fun _ _ _ => ho
  | pdchActAck hts hfi =>
    have ho := h.up (by rw [hfi]; decide)
    exact h.stays (by rw [hts]) (fun _ => ho) fun _ _ _ => ho
  | pdchActNack hts hfi =>
    have ho := h.up (by rw [hfi]; decide)
    exact h.stays (by rw [hts]) (fun _ => ho) fun _ _ _ => ho
  | pdchDeactAck hfi hd hts =>
    have ho := h.up (by rw [hfi]; decide)
    exact h.stays (by rw [hts]) (fun _ => ho) fun _ _ _ => ho
  | breaks hs hts hfi =>
    exact h.stays (by rw [hts]) (fun _ => h.up hfi) fun _ _ _ => h.up hfi
  | enters st hst hout hts hcalls =>
    have ho : (w.ts t).isOmlReady = true := by
      rcases hst with rfl | rfl <;> exact hhead rfl
    exact h.stays (by rw [hts]; rfl) (fun _ => ho) fun _ _ _ => ho
  | loops i type type' pre hts hat hpre =>
    exact h.stays (by rw [hts]) (fun _ => hhead rfl) fun _ _ _ => hhead rfl
  | ready i type hat hfit hts =>
    exact h.stays (by rw [hts]) (fun _ => hhead rfl) fun _ _ _ => hhead rfl
  | unready i type pre hts hat hfit hpre =>
    exact h.stays (by rw [hts]) (fun _ => hhead rfl) fun _ _ _ => hhead rfl
  | terminated i hts =>
    refine h.stays (by rw [hts]) (fun hf => ?_) (by simp)
    rw [hts] at hf
    exact h.up hf

theorem enter_no_shifts (i : Input) (w : Bsc) (t : TsId) : ∀ call ∈ enter i w, ¬ call.Shifts t := by
  cases hi : i.signal with
  | false => exact fun call hcall => (enter_still hi w call hcall).2 t
  | true =>
    cases i <;> first | exact absurd hi Bool.noConfusion | simp [enter,Call.Shifts]

theorem Reachable.upright (h : Reachable cfg good c) (t : TsId) : Upright t c.state c.calls := by
  refine h.induct ⟨fun h => absurd rfl h,by simp⟩ ?_ ?_
  · exact fun w i _ hw => ⟨hw.up,fun call hcall hs => absurd hs (enter_no_shifts i w t call hcall)⟩
  · intro w call rest x w' new hr hw _ he
    exact hw.exec (fun hentry => hr.wakeup.alone hentry) (exec_tsMoves he)

end Upright

structure Occupancy (t : TsId) (w : Bsc) (calls : List Call) : Prop where
  allowed : (w.ts t).fi = .inUse → (w.ts t).pdchActAllowed = true
  used : (w.ts t).fi = .inUse → (∃ l, l.ts = t ∧ Active w l) ∨ ∃ call ∈ calls, call.Vacates t

section Occupancy

variable {cfg : TsId → TsCfg} {good : Config → Move → Prop} {w w' : Bsc} {head : Call}
  {new rest : List Call} {x : Foreign} {t : TsId} {l : LchanId} {c : Config}

theorem Active.step (h : Active w l) (hm : Moves w w' head new l) :
    Active w' l ∨ Call.tsDispatch l.ts (.lchanUnused l) ∈ new := by
  obtain ⟨st,hfi,hst⟩ := h
  cases hm with
  | same hs => exact .inl ⟨st,(congrArg Prod.fst hs).trans hfi,hst⟩
  | changes st0 st' hfi0 hs hout hun hreset hcbch hwait hack =>
    by_cases hst' : st' = .unused
    · exact .inr (hun hst')
    · exact .inl ⟨st',congrArg Prod.fst hs,hst'⟩
  | resets hhead hs => exact .inl ⟨st,(congrArg Prod.fst hs).trans hfi,hst⟩
  | picked hsel hun hun' =>
    rw [hfi] at hun
    cases hun
    exact absurd rfl hst
  | ends hhead hs hnew => exact .inr hnew
  | begins hhead hnone hs =>
    rw [hfi] at hnone
    cases hnone
  | reserved hhead hs hnew => exact .inl ⟨st,(congrArg Prod.fst hs).trans hfi,hst⟩

theorem lchansFrom_isSome {p : Pchan} {n i : Nat} (h : l ∈ w.lchansFrom t p n i) :
    l.ts = t ∧ (w.lchan l).fi.isSome := by
  induction n generalizing i with
  | zero => cases h
  | succ n ih =>
    simp only [Bsc.lchansFrom] at h
    split at h
    · rename_i hat
      rcases List.mem_cons.mp h with rfl | h
      · exact ⟨rfl,hasLchanAt_isSome hat⟩
      · exact ih h
    · cases h

theorem active_of_count (h : w.tsCountActiveLchans t ≠ 0) : ∃ l, l.ts = t ∧ Active w l := by
  obtain ⟨l,hl⟩ := List.length_pos_iff_exists_mem.mp (Nat.pos_of_ne_zero h)
  obtain ⟨hmem,hne⟩ := List.mem_filter.mp hl
  obtain ⟨hts,hsome⟩ := lchansFrom_isSome hmem
  obtain ⟨st,hst⟩ := Option.isSome_iff_exists.mp hsome
  refine ⟨l,hts,st,hst,fun hun => ?_⟩
  simp [hst,hun] at hne

theorem inUse_of_unused (hfi : (w.ts t).fi = .inUse)
    (he : tsDispatch cfg t (.lchanUnused l) w = .ok (w',new)) :
    w' = w ∧ new = if w.tsCountActiveLchans t = 0 then [.tsStateChg t .unused] else [] := by
  simp only [tsDispatch,hfi] at he
  cases he
  exact ⟨rfl,rfl⟩

/-- A call that makes the timeslot count: it stays in use only for an active lchan, or
goes on to count. -/
theorem Vacates.step (hv : head.Vacates t) (hfi : (w.ts t).fi = .inUse)
    (hfi' : (w'.ts t).fi = .inUse) (he : exec cfg head x w = .ok (w',new)) :
    (∃ l, l.ts = t ∧ Active w' l) ∨ ∃ call ∈ new, call.Vacates t := by
  cases head with
  | tsDispatch t' ev =>
    cases ev with
    | lchanUnused l =>
      obtain rfl : t' = t := hv
      obtain ⟨rfl,rfl⟩ := inUse_of_unused hfi he
      split
      · exact .inr ⟨_,List.mem_singleton.mpr rfl,rfl,rfl⟩
      · rename_i hcount
        exact .inl (active_of_count hcount)
    | _ => exact hv.elim
  | tsStateChg t' st =>
    obtain ⟨rfl,rfl⟩ := hv
    obtain ⟨-,hfi2,-⟩ := tsStateChg_spec (by rw [hfi]; rfl) he
    rw [hfi'] at hfi2
    cases hfi2
  | tsInUseOnenter t' i type =>
    obtain ⟨rfl,rfl⟩ := hv
    have hgo : ∃ call ∈ [Call.tsInUseOnenter t' (i+1) .none], call.Vacates t' :=
      ⟨_,List.mem_singleton.mpr rfl,rfl,rfl⟩
    simp only [exec,tsInUseOnenter] at he
    split at he
    · rename_i hat
      split at he
      · cases he
        exact .inr hgo
      · rename_i hnot
        split at he
        · split at he
          · cases he
            exact .inr ⟨.tsInUseOnenter t' (i+1) .none,by simp,rfl,rfl⟩
          · cases he
            exact .inr hgo
        · rw [if_pos trivial] at he
          cases he
          obtain ⟨st,hst⟩ := Option.isSome_iff_exists.mp (hasLchanAt_isSome hat)
          refine .inl ⟨⟨t',i⟩,rfl,st,hst,fun hun => ?_⟩
          simp [Lchan.stateIs,hst,hun] at hnot
    · cases he
      exact .inr ⟨_,List.mem_singleton.mpr rfl,rfl,rfl⟩
  | _ => exact hv.elim

/-- A timeslot that is in use was so before, or has just begun to be. -/
theorem TsMoves.inUse (hm : TsMoves cfg w w' t head new) (hfi' : (w'.ts t).fi = .inUse) :
    (w.ts t).fi = .inUse ∧ ((w.ts t).pdchActAllowed = true → (w'.ts t).pdchActAllowed = true)
      ∨ new = [.tsInUseOnenter t 0 .none] ∧ (w'.ts t).pdchActAllowed = true := by
  cases hm with
  | rests hts _ => exact .inl (by rw [hts] at hfi' ⊢; exact ⟨hfi',id⟩)
  | omlReady hfi hts | rslReady hfi hts =>
    rw [hts] at hfi'
    exact .inl ⟨hfi',fun _ => by rw [hts]⟩
  | omlDown hts | rslDown hts =>
    rw [hts] at hfi'
    cases hfi'
  | requested l st hts _ _ => exact .inl (by rw [hts] at hfi' ⊢; exact ⟨hfi',id⟩)
  | vacated l hts hfi _ => exact .inl (by rw [hts] at hfi' ⊢; exact ⟨hfi',id⟩)
  | pdchActAck hts _ => exact .inl (by rw [hts] at hfi' ⊢; exact ⟨hfi',id⟩)
  | pdchActNack hts hfi =>
    rw [hts,hfi] at hfi'
    cases hfi'
  | pdchDeactAck hfi hd hts =>
    rw [hts,hfi] at hfi'
    cases hfi'
  | breaks _ hts _ => exact .inl (by rw [hts] at hfi' ⊢; exact ⟨hfi',id⟩)
  | enters st hst hout hts hcalls =>
    rw [hts] at hfi'
    obtain rfl : st = .inUse := hfi'
    exact .inr ⟨hcalls,by rw [hts]; rfl⟩
  | loops i type type' pre hts _ _ => exact .inl (by rw [hts] at hfi' ⊢; exact ⟨hfi',id⟩)
  | ready i type _ _ hts =>
    rw [hts] at hfi'
    exact .inl ⟨hfi',fun h => by rw [hts]; exact h⟩
  | unready i type pre hts _ _ _ => exact .inl (by rw [hts] at hfi' ⊢; exact ⟨hfi',id⟩)
  | terminated i hts =>
    rw [hts] at hfi'
    exact .inl ⟨hfi',fun h => by rw [hts]; exact h⟩

theorem Occupancy.exec (h : Occupancy t w (head :: rest)) (hmoves : ∀ l, Moves w w' head new l)
    (he : exec cfg head x w = .ok (w',new)) : Occupancy t w' (new ++ rest) := by
  refine ⟨fun hfi' => ?_,fun hfi' => ?_⟩
  · rcases TsMoves.inUse (exec_tsMoves he) hfi' with ⟨hfi,hallowed⟩ | ⟨-,hallowed⟩
    · exact hallowed (h.allowed hfi)
    · exact hallowed
  · rcases TsMoves.inUse (exec_tsMoves he) hfi' with ⟨hfi,-⟩ | ⟨rfl,-⟩
    · rcases h.used hfi with ⟨l,rfl,hact⟩ | ⟨call,hcall,hv⟩
      · rcases hact.step (hmoves l) with hact' | hmem
        · exact .inl ⟨l,rfl,hact'⟩
        · exact .inr ⟨_,List.mem_append_left _ hmem,rfl⟩
      · rcases List.mem_cons.mp hcall with rfl | hmem
        · refine (Vacates.step hv hfi hfi' he).imp id ?_
          rintro ⟨call',hcall',hv'⟩
          exact ⟨call',List.mem_append_left _ hcall',hv'⟩
        · exact .inr ⟨call,List.mem_append_right _ hmem,hv⟩
    · exact .inr ⟨_,List.mem_append_left _ (List.mem_singleton.mpr rfl),rfl,rfl⟩

theorem Asking.rqd_unused (h : Asking w (head :: rest)) (l : LchanId) (type : ChanT)
    (hhead : head = .rslRxChanRqd l type) : (w.lchan l).fi = some .unused := by
  subst hhead
  cases h with
  | idle h => exact absurd (h _ (List.mem_cons_self ..)) (by simp [Call.asks])
  | rqd _ _ hs => exact lchanSelectable_unused w hs

theorem Reachable.moves (hr : Reachable cfg good ⟨w,head :: rest⟩)
    (he : Chan.exec cfg head x w = .ok (w',new)) (l : LchanId) : Moves w w' head new l :=
  exec_moves (hr.wakeup.wf _ (List.mem_cons_self ..)) hr.asking.rqd_unused he

theorem Reachable.occupancy (h : Reachable cfg good c) (t : TsId) :
    Occupancy t c.state c.calls := by
  refine h.induct ⟨fun h => (by cases h),fun h => (by cases h)⟩ ?_ ?_
  · intro w i _ hw
    refine ⟨hw.allowed,fun hfi => ?_⟩
    rcases hw.used hfi with hact | ⟨call,hcall,-⟩
    · exact .inl hact
    · cases hcall
  · intro w call rest x w' new hr hw _ he
    exact hw.exec (hr.moves he) he

theorem Reachable.allocatable (h : Reachable cfg good c)
    (hcbch : (cfg l.ts).pchanFromConfig.hasCbch = false)
    (hfi : (c.state.ts l.ts).fi ≠ .notInitialized) (hsome : (c.state.lchan l).fi.isSome) :
    Allocatable cfg l := by
  have ho := (h.upright l.ts).up hfi
  refine ⟨?_,fun htrue => absurd (hcbch.symm.trans htrue) Bool.noConfusion⟩
  rcases h.wakeup.slots l.ts with hs | ⟨j,he⟩
  · rcases hs.lchans with ⟨-,-,hl⟩ | ⟨hdown,-⟩
    · exact (hl l.nr).mp hsome
    · exact absurd (hdown.symm.trans ho) Bool.noConfusion
  · exact absurd (he.down.symm.trans ho) Bool.noConfusion

theorem tsLchansWaiting_eq_zero (h : ∀ l, l.ts = t → ¬ Active w l) : w.tsLchansWaiting t = 0 := by
  by_contra hne
  obtain ⟨l,hl⟩ := List.length_pos_iff_exists_mem.mp (Nat.pos_of_ne_zero hne)
  obtain ⟨hmem,hst⟩ := List.mem_filter.mp hl
  exact h l (lchansFrom_isSome hmem).1 ⟨.waitTsReady,by simpa using hst,by decide⟩

theorem tsUnusedOnenter_idle (hcbch : (w.ts t).pchanOnInit.hasCbch = false)
    (hon : (w.ts t).pchanOnInit = (cfg t).pchanFromConfig) (hwait : w.tsLchansWaiting t = 0)
    (hallowed : (w.ts t).pdchActAllowed = true) :
    tsUnusedOnenter cfg t w = .ok (w,
      if (cfg t).switchesToPdch then [.tsStateChg t .waitPdchAct] else []) := by
  simp only [tsUnusedOnenter,hwait,ne_eq,not_true_eq_false,if_false,hallowed,TsCfg.switchesToPdch,
    ← hon]
  cases hp : (w.ts t).pchanOnInit <;> cases (cfg t).gprs <;>
    first | rfl | exact absurd (hp ▸ hcbch) (by decide)

theorem Reachable.vacates {calls : List Call}
    (h : Reachable cfg good ⟨w,.tsDispatch t (.lchanUnused l) :: calls⟩)
    (hcbch : (cfg t).pchanFromConfig.hasCbch = false) (hfi : (w.ts t).fi = .inUse)
    (hnone : ∀ l', l'.ts = t → ¬ Active w l') (x y : Foreign) :
    ∃ c', run (step cfg) ⟨w,.tsDispatch t (.lchanUnused l) :: calls⟩ [.call x,.call y] = .ok c'
      ∧ c'.state = w.updTs t ({ · with fi := .unused })
      ∧ c'.calls = (if (cfg t).switchesToPdch then [.tsStateChg t .waitPdchAct] else []) ++ calls := by
  have hon : (w.ts t).pchanOnInit = (cfg t).pchanFromConfig := by
    have ho := (h.upright t).up (by rw [hfi]; decide)
    rcases h.wakeup.slots t with hs | ⟨j,he⟩
    · rcases hs.lchans with ⟨-,hon,-⟩ | ⟨hdown,-⟩
      · exact hon
      · exact absurd (hdown.symm.trans ho) Bool.noConfusion
    · exact absurd (he.down.symm.trans ho) Bool.noConfusion
  have hcount : w.tsCountActiveLchans t = 0 := by
    by_contra hne
    obtain ⟨l',hl',hact⟩ := active_of_count hne
    exact hnone l' hl' hact
  have hfirst : exec cfg (.tsDispatch t (.lchanUnused l)) x w = .ok (w,[.tsStateChg t .unused]) := by
    have hv : tsFsm.verdict .inUse (.lchanUnused l) = .action := rfl
    simp only [exec,tsDispatch,hfi,hv,tsFsmInUse,hcount,if_true]
  have hidle : tsUnusedOnenter cfg t (w.updTs t ({ · with fi := .unused })) = _ := tsUnusedOnenter_idle
    (by simpa [hon] using hcbch) (by simpa using hon) (tsLchansWaiting_eq_zero hnone)
    (by simpa using (h.occupancy t).allowed hfi)
  have hsecond : exec cfg (.tsStateChg t .unused) y w = .ok (w.updTs t ({ · with fi := .unused }),
      if (cfg t).switchesToPdch then [.tsStateChg t .waitPdchAct] else []) := by
    have hout : tsFsm.outState (w.ts t).fi .unused = true := by rw [hfi]; rfl
    simp only [exec,tsStateChg,hout,if_true,tsOnenter,hidle]
  refine ⟨⟨w.updTs t ({ · with fi := .unused }),_ ++ calls⟩,?_,rfl,rfl⟩
  simp only [run,step,Calls.step_call,hfirst,bind,Except.bind,List.cons_append,List.nil_append,
    hsecond]

theorem Reachable.accounted (h : Reachable cfg good c)
    (hcbch : (cfg t).pchanFromConfig.hasCbch = false) : Accounted cfg c t := by
  obtain ⟨w,calls⟩ := c
  have hactive : ∀ l, l.ts = t → (w.ts t).fi = .inUse → Active w l → Allocatable cfg l := by
    rintro l rfl hfi ⟨st,hst,-⟩
    exact h.allocatable hcbch (by rw [hfi]; decide) (by rw [hst]; rfl)
  refine ⟨fun hq hfi => ?_,?_⟩
  · rcases (h.occupancy t).used hfi with ⟨l,hl,hact⟩ | ⟨call,hcall,-⟩
    · exact ⟨l,hl,hactive l hl hfi hact,hact⟩
    · rw [hq] at hcall
      cases hcall
  · rintro l rest rfl hfi hnone x y
    obtain ⟨⟨w',calls'⟩,hrun,rfl,rfl⟩ := h.vacates hcbch hfi
      (fun l' hl' hact => hnone l' hl' (hactive l' hl' hfi hact) hact) x y
    refine ⟨_,hrun,by simp,rfl,fun hsw z hz => ?_⟩
    have hout : tsFsm.outState .unused .waitPdchAct = true := rfl
    simp [hsw,step,Calls.step_call,exec,tsStateChg,tsOnenter,hz,hout,bind,Except.bind]

end Occupancy

section Cbch

def tsOfKind (p : Pchan) (_ : TsId) : TsCfg where
  pchanFromConfig := p
  gprs := true
  isIpaccessBts := false
  noLocRelCnf := false

def sdcchAndRelease : List Input :=
  [.omlReady 0,.rslReady 0,.chanRqd fun type => if type = .sdcch then some ⟨0,0⟩ else none,
    .chanActivAck ⟨0,0⟩,.connFail ⟨0,0⟩,.rfChanRelAck ⟨0,0⟩,.lchanTimeout ⟨0,0⟩]

theorem cbch_keeps_inUse {p : Pchan} (hp : p.hasCbch = true) :
    ∃ c, run (step (tsOfKind p)) initial (moves 40 sdcchAndRelease) = .ok c
      ∧ ¬ Accounted (tsOfKind p) c 0 := by
  have hrun : ∀ p : Pchan, p.hasCbch = true →
      ∃ c, run (step (tsOfKind p)) initial (moves 40 sdcchAndRelease) = .ok c ∧ c.Quiescent
        ∧ (c.state.ts 0).fi = .inUse
        ∧ ∀ nr < pchanSubslots p, nr ≠ 2 → (c.state.lchan ⟨0,nr⟩).fi = some .unused := by
    intro p hp
    cases p <;> first | exact absurd hp (by decide) | decide +kernel
  obtain ⟨c,hc,hq,hfi,hun⟩ := hrun p hp
  refine ⟨c,hc,fun h => ?_⟩
  obtain ⟨⟨_,nr⟩,rfl,⟨hlt,hne⟩,st,hst,hused⟩ := h.inUse hq hfi
  rw [hun nr hlt (hne hp)] at hst
  cases hst
  exact hused rfl

/-- A timeslot keeps account of its use in every run exactly if it has no CBCH. -/
theorem accounted_iff_no_cbch (p : Pchan) :
    (∀ cfg t c, (cfg t).pchanFromConfig = p → Reachable cfg (fun _ _ => True) c → Accounted cfg c t)
      ↔ p.hasCbch = false := by
  refine ⟨fun h => ?_,fun hp cfg t c hcfg hr => hr.accounted (by rw [hcfg]; exact hp)⟩
  by_contra hp
  obtain ⟨c,hc,hnot⟩ := cbch_keeps_inUse (by simpa using hp)
  exact hnot (h _ 0 c rfl (Reach.of_run (.start rfl) (.of_forall (fun _ _ => trivial) _ _) hc))

/-- After its only SDCCH is released, the timeslot is still in use. -/
theorem sdcch8Cbch_not_accounted :
    ∃ c, run (step (tsOfKind .sdcch8Sacch8cCbch)) initial (moves 40 sdcchAndRelease) = .ok c
      ∧ ¬ Accounted (tsOfKind .sdcch8Sacch8cCbch) c 0 :=
  cbch_keeps_inUse rfl

end Cbch

end OsmoBsc.Chan
