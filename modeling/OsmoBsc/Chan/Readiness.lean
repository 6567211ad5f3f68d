import OsmoBsc.Chan.Wakeup
set_option autoImplicit false

namespace OsmoBsc.Chan
open EventFsm

/-- What is delivered to the FSMs: an input, or an event or activation for an
lchan, or a request of an lchan to its timeslot, from wherever it may come. -/
inductive Delivery where
  | input (i : Input)
  | activate (l : LchanId) (info : ActivateInfo)
  | lchanEvent (l : LchanId) (ev : LchanEvent)
  | lchanRequested (l : LchanId)
  | lchanUnused (l : LchanId)

def deliver (d : Delivery) (w : Bsc) : List Call :=
  match d with
  | .input i => enter i w
  | .activate l info => [.lchanActivate l info]
  | .lchanEvent l ev => [.lchanDispatch l ev]
  | .lchanRequested l => [.tsDispatch l.ts (.lchanRequested l)]
  | .lchanUnused l => [.tsDispatch l.ts (.lchanUnused l)]

/-- Whether the OML and the RSL layer of each timeslot have signalled READY
since their last DOWN. -/
structure Links where
  oml : TsId → Bool
  rsl : TsId → Bool

def noLinks : Links := ⟨fun _ => false,fun _ => false⟩

def Delivery.note (d : Delivery) (g : Links) : Links :=
  match d with
  | .input (.omlReady t) => { g with oml := Function.update g.oml t true }
  | .input (.omlDown t) => { g with oml := Function.update g.oml t false }
  | .input (.rslReady t) => { g with rsl := Function.update g.rsl t true }
  | .input (.rslDown t) => { g with rsl := Function.update g.rsl t false }
  | _ => g

/-- The step of the FSMs under all deliveries, with the state of the links noted. -/
def deliveryStep (cfg : TsId → TsCfg) :
    Config × Links → Calls.Move Delivery Foreign → Except Fault (Config × Links) :=
  Calls.noting (exec cfg) deliver (fun d _ => d.note)

/-- The next call is the request of an lchan to a timeslot that is not initialized. -/
def earlyRequest (c : Config) : Bool :=
  match c.calls with
  | .tsDispatch t (.lchanRequested l) :: _ =>
    (c.state.ts t).fi == .notInitialized && (c.state.lchan l).fi.isSome
  | _ => false

abbrev NoEarlyRequest (c : Config × Links) (_ : Calls.Move Delivery Foreign) : Prop :=
  earlyRequest c.1 = false

/-- What runs of deliveries reach whose steps all meet `good`. -/
abbrev Delivered (cfg : TsId → TsCfg)
    (good : Config × Links → Calls.Move Delivery Foreign → Prop) : Config × Links → Prop :=
  Reach (deliveryStep cfg) good (· = (initial,noLinks))

namespace Call

def signal : Call → Bool
  | .tsDispatch _ ev => match ev with
    | .omlReady | .omlDown | .rslReady | .rslDown => true
    | _ => false
  | _ => false

/-- The call changes the state of timeslot `t`, or goes on to do so. -/
def Shifts (t : TsId) : Call → Prop
  | .tsStateChg t' _ | .tsErrorChg t' _ | .tsInUseOnenter t' _ _ => t' = t
  | _ => False

def Still (call : Call) : Prop := call.signal = false ∧ ∀ t, ¬ call.Shifts t

end Call

def Ts.ready (ts : Ts) : Prop := ts.isOmlReady = true ∧ ts.isRslReady = true

/-- The readiness flags of timeslot `t` follow the links, up to a signal that is
still to be handled. -/
structure Tracks (w : Bsc) (calls : List Call) (g : Links) (t : TsId) : Prop where
  oml : (w.ts t).isOmlReady = true → g.oml t = true ∨ Call.tsDispatch t .omlDown ∈ calls
  rsl : (w.ts t).isRslReady = true → g.rsl t = true ∨ Call.tsDispatch t .rslDown ∈ calls
  up : (w.ts t).fi ≠ .notInitialized → (w.ts t).ready
  shifts : ∀ call ∈ calls, call.Shifts t → (w.ts t).ready
  omlReady : Call.tsDispatch t .omlReady ∈ calls → g.oml t = true
  rslReady : Call.tsDispatch t .rslReady ∈ calls → g.rsl t = true

/-- The invariant of every run: a signal of a layer comes alone. -/
structure Readiness (w : Bsc) (calls : List Call) (g : Links) : Prop where
  alone : ∀ call ∈ calls, call.signal = true → calls = [call]
  tracks : ∀ t, Tracks w calls g t

section Still

variable {cfg : TsId → TsCfg} {w w' : Bsc} {call : Call} {new : List Call} {x : Foreign}

theorem Call.calm_still (h : call.calm = true) : call.Still := by
  cases call with
  | tsDispatch t ev => cases ev <;> first | exact ⟨rfl,fun _ => id⟩ | cases h
  | _ => first | exact ⟨rfl,fun _ => id⟩ | cases h

theorem Call.starting_still (h : call.starting = true) : call.Still := by
  rcases Bool.or_eq_true_iff.mp h with h | h
  · exact calm_still h
  · cases call with
    | tsDispatch t ev => cases ev <;> first | exact ⟨rfl,fun _ => id⟩ | cases h
    | _ => first | exact ⟨rfl,fun _ => id⟩ | cases h

def LeavesTs (w : Bsc) (r : Bsc × List Call) : Prop := r.1.ts = w.ts ∧ ∀ call ∈ r.2, call.Still

theorem Quiet.leavesTs {r : Bsc × List Call} (h : Quiet Call.calm w r) : LeavesTs w r :=
  ⟨h.ts,fun call hcall => Call.calm_still (List.all_eq_true.mp h.calls call hcall)⟩

theorem lchanDispatch_leavesTs (l : LchanId) (ev : LchanEvent) :
    Ensures (LeavesTs w) (lchanDispatch x l ev w) := by
  cases ev with
  | activate info =>
    refine (lchanDispatch_activate info).mono fun r hr => ?_
    rcases hr with rfl | ⟨hts,-,-,-,hcalls⟩
    · exact ⟨rfl,by simp⟩
    · refine ⟨hts,fun call hcall => Call.starting_still ?_⟩
      have : r.2.all Call.starting = true := by
        rcases hcalls with h | ⟨w1,h⟩ <;> rw [h] <;> rfl
      exact List.all_eq_true.mp this call hcall
  | _ => exact (lchanDispatch_quiet x l w (fun info h => by cases h)).mono fun r => Quiet.leavesTs

theorem lchanStateChg_leavesTs (l : LchanId) (st : LchanState) :
    Ensures (LeavesTs w) (lchanStateChg x l st w) := by
  by_cases hst : st = .waitTsReady
  · subst hst
    unfold lchanStateChg
    split
    · exact ensures_error
    · split
      · refine lchanWaitTsReadyOnenter_requests.mono fun r hr => ⟨hr.1.ts,fun call hcall => ?_⟩
        refine Call.starting_still ?_
        have : r.2.all Call.starting = true := by
          rcases hr.2 with h | ⟨w1,h⟩ <;> rw [h] <;> rfl
        exact List.all_eq_true.mp this call hcall
      · exact ensures_ok.mpr ⟨rfl,by simp⟩
  · exact (lchanStateChg_quiet x l w hst).mono fun r => Quiet.leavesTs

theorem exec_leavesTs (hcall : call.ofTs = false) : Ensures (LeavesTs w) (exec cfg call x w) := by
  have hts : ∀ t ev, call ≠ .tsDispatch t ev := by
    rintro t ev rfl
    cases hcall
  have hstart (hact : call.activates = true) (hl : ∀ l ev, call ≠ .lchanDispatch l ev) :
      Ensures (LeavesTs w) (exec cfg call x w) :=
    (exec_starting cfg x w hact hl hts).mono fun r h =>
      ⟨h.ts,fun c hc => Call.starting_still (List.all_eq_true.mp h.calls c hc)⟩
  have hcalm (h : call.calm = true) : Ensures (LeavesTs w) (exec cfg call x w) :=
    (exec_quiet cfg x w h hts).mono fun r => Quiet.leavesTs
  cases call with
  | lchanDispatch l ev => exact lchanDispatch_leavesTs l ev
  | lchanStateChg l st => exact lchanStateChg_leavesTs l st
  | lchanFailChg l st =>
    simp only [exec,lchanFailChg]
    split
    · exact ensures_ok.mpr ⟨rfl,by simp⟩
    · exact lchanStateChg_leavesTs l st
  | lchanTerm l =>
    refine ensures_ok.mpr ⟨rfl,fun call hcall => ?_⟩
    dsimp only at hcall
    split at hcall <;> simp only [List.cons_append,List.nil_append,List.mem_cons,List.not_mem_nil,
      or_false] at hcall
    · rcases hcall with rfl | rfl <;> exact ⟨rfl,fun _ => id⟩
    · rw [hcall]
      exact ⟨rfl,fun _ => id⟩
  | lchanCleanup l =>
    refine Ensures.bind fun r hr => ensures_ok.mpr ?_
    have hq := (lchanReset_quiet l w _ hr).leavesTs
    refine ⟨hq.1,fun call hcall => ?_⟩
    rcases List.mem_append.mp hcall with hcall | hcall
    · exact hq.2 call hcall
    · rw [List.mem_singleton.mp hcall]
      exact ⟨rfl,fun _ => id⟩
  | lchanCleanupRest l =>
    exact ensures_ok.mpr ⟨rfl,by simp [Call.Still,Call.signal,Call.Shifts]⟩
  | connDispatch c ev =>
    cases hact : (Call.connDispatch c ev).activates with
    | true => exact hstart hact fun l ev h => by cases h
    | false => exact hcalm (by simpa [Call.calm] using hact)
  | lchanActivate l info | rslRxChanRqd l type | assignmentStart c sel req
  | handoverStart c newType target | handoverStartReset c newType target
  | handoverStartInterBscIn c sel req | sccpNConnect c aoip sel req
  | bssmapHandleAssignmReq c sel req =>
    exact hstart rfl fun l ev h => by cases h
  | _ => first | exact hcalm rfl | cases hcall

end Still

section Step

variable {cfg : TsId → TsCfg} {w w' : Bsc} {head : Call} {new rest : List Call} {x : Foreign}
  {g : Links} {t : TsId}

/-- A step that leaves the flags alone, and lets only a timeslot change its state
whose layers are ready. -/
theorem Readiness.step (h : Readiness w (head :: rest) g) (hhead : head.signal = false)
    (homl : ∀ t, (w'.ts t).isOmlReady = (w.ts t).isOmlReady)
    (hrsl : ∀ t, (w'.ts t).isRslReady = (w.ts t).isRslReady)
    (hfi : ∀ t, (w'.ts t).fi ≠ .notInitialized → (w.ts t).ready)
    (hnew : ∀ call ∈ new, call.signal = false ∧ ∀ t, call.Shifts t → (w.ts t).ready) :
    Readiness w' (new ++ rest) g := by
  have hready : ∀ t, (w.ts t).ready → (w'.ts t).ready := by
    intro t ht
    exact ⟨(homl t).trans ht.1,(hrsl t).trans ht.2⟩
  have hrest : ∀ call ∈ new ++ rest, call.signal = true → False := by
    intro call hcall hs
    rcases List.mem_append.mp hcall with hcall | hcall
    · rw [(hnew call hcall).1] at hs
      cases hs
    · have := h.alone call (List.mem_cons_of_mem _ hcall) hs
      simp only [List.cons.injEq] at this
      rw [this.2] at hcall
      cases hcall
  have hold : ∀ {call : Call}, call ∈ head :: rest → call.signal = true → False := by
    intro call hcall hs
    rcases List.mem_cons.mp hcall with rfl | hcall
    · rw [hhead] at hs
      cases hs
    · exact hrest call (List.mem_append_right _ hcall) hs
  refine ⟨fun call hcall hs => (hrest call hcall hs).elim,fun t => ?_⟩
  have ht := h.tracks t
  refine ⟨fun ho => ?_,fun hr => ?_,fun hf => hready t (hfi t hf),fun call hcall hs => ?_,
    fun hm => (hrest _ hm rfl).elim,fun hm => (hrest _ hm rfl).elim⟩
  · rw [homl] at ho
    exact (ht.oml ho).imp id fun hm => (hold hm rfl).elim
  · rw [hrsl] at hr
    exact (ht.rsl hr).imp id fun hm => (hold hm rfl).elim
  · rcases List.mem_append.mp hcall with hcall | hcall
    · exact hready t ((hnew call hcall).2 t hs)
    · exact hready t (ht.shifts call (List.mem_cons_of_mem _ hcall) hs)

theorem Readiness.step_other (h : Readiness w (head :: rest) g) (hhead : head.ofTs = false)
    (he : exec cfg head x w = .ok (w',new)) : Readiness w' (new ++ rest) g := by
  obtain ⟨hts,hnew⟩ := exec_leavesTs hhead _ he
  have hs : head.signal = false := by
    cases head <;> first | rfl | cases hhead
  refine h.step hs (fun t => by rw [hts]) (fun t => by rw [hts]) (fun t hf => ?_) fun call hcall => ?_
  · rw [hts] at hf
    exact (h.tracks t).up hf
  · exact ⟨(hnew call hcall).1,fun t ht => absurd ht ((hnew call hcall).2 t)⟩

/-- What a call about timeslot `t` that is no signal changes and makes of calls. -/
structure ShiftsOnly (t : TsId) (w : Bsc) (r : Bsc × List Call) : Prop where
  others : ∀ t', t' ≠ t → r.1.ts t' = w.ts t'
  oml : (r.1.ts t).isOmlReady = (w.ts t).isOmlReady
  rsl : (r.1.ts t).isRslReady = (w.ts t).isRslReady
  calls : ∀ call ∈ r.2, call.signal = false ∧ ∀ t', call.Shifts t' → t' = t

theorem Readiness.step_shift (h : Readiness w (head :: rest) g) (hhead : head.signal = false)
    (hready : (w.ts t).ready) (hs : ShiftsOnly t w (w',new)) : Readiness w' (new ++ rest) g := by
  refine h.step hhead (fun t' => ?_) (fun t' => ?_) (fun t' hf => ?_) fun call hcall => ?_
  · rcases eq_or_ne t' t with rfl | hne
    · exact hs.oml
    · rw [hs.others t' hne]
  · rcases eq_or_ne t' t with rfl | hne
    · exact hs.rsl
    · rw [hs.others t' hne]
  · rcases eq_or_ne t' t with rfl | hne
    · exact hready
    · rw [hs.others t' hne] at hf
      exact (h.tracks t').up hf
  · refine ⟨(hs.calls call hcall).1,fun t' ht => ?_⟩
    rw [(hs.calls call hcall).2 t' ht]
    exact hready

end Step

section Timeslot

variable {cfg : TsId → TsCfg} {w : Bsc} {x : Foreign} {t : TsId}

theorem ShiftsOnly.same {new : List Call}
    (h : ∀ call ∈ new, call.signal = false ∧ ∀ t', call.Shifts t' → t' = t) :
    ShiftsOnly t w (w,new) :=
  ⟨fun _ _ => rfl,rfl,rfl,h⟩

theorem ShiftsOnly.updTs {f : Ts → Ts} {new : List Call}
    (ho : (f (w.ts t)).isOmlReady = (w.ts t).isOmlReady)
    (hr : (f (w.ts t)).isRslReady = (w.ts t).isRslReady)
    (h : ∀ call ∈ new, call.signal = false ∧ ∀ t', call.Shifts t' → t' = t) :
    ShiftsOnly t w (w.updTs t f,new) :=
  ⟨fun _ hne => Bsc.updTs_ne _ _ _ hne,by simpa using ho,by simpa using hr,h⟩

theorem ShiftsOnly.after {f : Ts → Ts} {r : Bsc × List Call}
    (ho : (f (w.ts t)).isOmlReady = (w.ts t).isOmlReady)
    (hr : (f (w.ts t)).isRslReady = (w.ts t).isRslReady) (h : ShiftsOnly t (w.updTs t f) r) :
    ShiftsOnly t w r := by
  refine ⟨fun t' hne => ?_,?_,?_,h.calls⟩
  · rw [h.others t' hne,Bsc.updTs_ne _ _ _ hne]
  · rw [h.oml]
    simpa using ho
  · rw [h.rsl]
    simpa using hr

theorem tsFsmError_shifts (st : TsState) :
    ∀ call ∈ tsFsmError t st, call.signal = false ∧ ∀ t', call.Shifts t' → t' = t := by
  intro call hcall
  simp only [tsFsmError,List.mem_cons,List.not_mem_nil,or_false] at hcall
  rcases hcall with rfl | rfl
  · exact ⟨rfl,fun _ h => h.elim⟩
  · exact ⟨rfl,fun _ h => h.symm⟩

theorem tsLchanDispatch_shifts (l : LchanId) (ev : LchanEvent) :
    ∀ call ∈ tsLchanDispatch w l ev, call.signal = false ∧ ∀ t', call.Shifts t' → t' = t := by
  intro call hcall
  unfold tsLchanDispatch at hcall
  split at hcall
  · simp only [List.mem_cons,List.not_mem_nil,or_false] at hcall
    rcases hcall with rfl | rfl <;> exact ⟨rfl,fun _ h => h.elim⟩
  · cases hcall

theorem stateChg_shifts (st : TsState) :
    ∀ call ∈ [Call.tsStateChg t st], call.signal = false ∧ ∀ t', call.Shifts t' → t' = t := by
  intro call hcall
  rw [List.mem_singleton.mp hcall]
  exact ⟨rfl,fun _ h => h.symm⟩

theorem nil_shifts : ∀ call ∈ ([] : List Call), call.signal = false ∧ ∀ t', call.Shifts t' → t' = t := by
  intro call hcall
  cases hcall

theorem tsUnusedOnenter_shifts : Ensures (ShiftsOnly t w) (tsUnusedOnenter cfg t w) := by
  unfold tsUnusedOnenter
  split
  · exact ensures_ok.mpr (.same (tsFsmError_shifts _))
  · repeat' split
    all_goals first
      | exact ensures_error
      | exact ensures_ok.mpr (.same nil_shifts)
      | exact ensures_ok.mpr (.same (stateChg_shifts _))
      | exact ensures_ok.mpr ⟨fun _ _ => rfl,rfl,rfl,by simp [Call.signal,Call.Shifts]⟩

theorem tsPdchOnenter_shifts : Ensures (ShiftsOnly t w) (tsPdchOnenter t w) := by
  unfold tsPdchOnenter
  dsimp only
  repeat' split
  all_goals first
    | exact ensures_ok.mpr (.same (tsFsmError_shifts _))
    | exact ensures_ok.mpr (.updTs rfl rfl nil_shifts)
    | exact ensures_ok.mpr (.updTs rfl rfl (stateChg_shifts _))

theorem tsOnenter_shifts (st : TsState) : Ensures (ShiftsOnly t w) (tsOnenter cfg x t st w) := by
  have hfail : Ensures (ShiftsOnly t w)
      (.ok (w,if x.fail then tsFsmError t .borken else []) : Outcome) := by
    refine ensures_ok.mpr (.same ?_)
    split
    · exact tsFsmError_shifts _
    · exact nil_shifts
  cases st with
  | unused => exact tsUnusedOnenter_shifts
  | waitPdchAct => exact hfail
  | pdch => exact tsPdchOnenter_shifts
  | waitPdchDeact => exact hfail
  | inUse =>
    refine ensures_ok.mpr (.updTs rfl rfl fun call hcall => ?_)
    rw [List.mem_singleton.mp hcall]
    exact ⟨rfl,fun _ h => h.symm⟩
  | notInitialized | borken => exact ensures_ok.mpr (.same nil_shifts)

theorem tsStateChg_shifts (st : TsState) : Ensures (ShiftsOnly t w) (tsStateChg cfg x t st w) := by
  unfold tsStateChg
  split
  · exact (tsOnenter_shifts st).mono fun r h => .after rfl rfl h
  · exact ensures_ok.mpr (.same nil_shifts)

theorem tsErrorChg_shifts (st : TsState) : Ensures (ShiftsOnly t w) (tsErrorChg cfg x t st w) := by
  unfold tsErrorChg
  split
  · exact tsStateChg_shifts st
  · exact ensures_ok.mpr (.same nil_shifts)

theorem tsInUseOnenter_shifts (i : Nat) (type : ChanT) :
    Ensures (ShiftsOnly t w) (tsInUseOnenter t i type w) := by
  have hgo : ∀ type, ∀ call ∈ [Call.tsInUseOnenter t (i+1) type],
      call.signal = false ∧ ∀ t', call.Shifts t' → t' = t := by
    intro type call hcall
    rw [List.mem_singleton.mp hcall]
    exact ⟨rfl,fun _ h => h.symm⟩
  have herr : ∀ type, ∀ call ∈ tsLchanDispatch w ⟨t,i⟩ .tsError ++ [Call.tsInUseOnenter t (i+1) type],
      call.signal = false ∧ ∀ t', call.Shifts t' → t' = t := by
    intro type call hcall
    rcases List.mem_append.mp hcall with hcall | hcall
    · exact tsLchanDispatch_shifts _ _ call hcall
    · exact hgo type call hcall
  have hloop : ∀ ev, ∀ call ∈ [Call.tsLchansDispatch t (some .waitTsReady) ev 0],
      call.signal = false ∧ ∀ t', call.Shifts t' → t' = t := by
    intro ev call hcall
    rw [List.mem_singleton.mp hcall]
    exact ⟨rfl,fun _ h => h.elim⟩
  unfold tsInUseOnenter
  dsimp only
  split
  · repeat' split
    all_goals first
      | exact ensures_ok.mpr (.same (hgo _))
      | exact ensures_ok.mpr (.same (herr _))
  · split
    all_goals repeat' split
    all_goals first
      | exact ensures_ok.mpr (.same (hloop _))
      | exact ensures_ok.mpr (.updTs rfl rfl (hloop _))
      | exact ensures_ok.mpr (.same (stateChg_shifts _))
      | skip
    refine ensures_ok.mpr (.same fun call hcall => ?_)
    simp only [List.mem_cons,List.not_mem_nil,or_false] at hcall
    rcases hcall with rfl | rfl
    · exact ⟨rfl,fun _ h => h.elim⟩
    · exact ⟨rfl,fun _ h => h.symm⟩

theorem tsDispatch_shifts {ev : TsEvent} (hev : (Call.tsDispatch t ev).signal = false)
    (hfi : (w.ts t).fi ≠ .notInitialized) : Ensures (ShiftsOnly t w) (tsDispatch cfg t ev w) := by
  have hdispatch (l : LchanId) (ev : LchanEvent) : ∀ call ∈ [Call.lchanDispatch l ev],
      call.signal = false ∧ ∀ t', call.Shifts t' → t' = t := by
    intro call hcall
    rw [List.mem_singleton.mp hcall]
    exact ⟨rfl,fun _ h => h.elim⟩
  unfold tsDispatch
  split
  · cases ev <;> first | exact ensures_error | cases hev
  · exact ensures_ok.mpr (.same nil_shifts)
  · split
    · rename_i h
      exact absurd h hfi
    all_goals
      cases ev with
      | omlReady | omlDown | rslReady | rslDown => cases hev
      | _ =>
        simp only [tsFsmUnused,tsFsmWaitPdchAct,tsFsmPdch,tsFsmWaitPdchDeact,tsFsmInUse,tsFsmBorken]
        repeat' split
        all_goals first
          | exact ensures_error
          | exact ensures_ok.mpr (.same nil_shifts)
          | exact ensures_ok.mpr (.same (stateChg_shifts _))
          | exact ensures_ok.mpr (.same (tsFsmError_shifts _))
          | exact ensures_ok.mpr (.same (tsLchanDispatch_shifts _ _))
          | exact ensures_ok.mpr (.same (hdispatch _ _))
          | exact ensures_ok.mpr (.updTs rfl rfl (stateChg_shifts _))
          | exact ensures_ok.mpr (.updTs rfl rfl (tsFsmError_shifts _))

end Timeslot

section Run

variable {cfg : TsId → TsCfg} {w w' : Bsc} {head : Call} {new rest : List Call} {x : Foreign}
  {g : Links} {t : TsId}

theorem tsDispatch_early {ev : TsEvent} (hev : (Call.tsDispatch t ev).signal = false)
    (hfi : (w.ts t).fi = .notInitialized)
    (hgood : ∀ l, ev = .lchanRequested l → (w.lchan l).fi = none) :
    Ensures (fun r => r = (w,[])) (tsDispatch cfg t ev w) := by
  cases ev with
  | omlReady | omlDown | rslReady | rslDown => cases hev
  | lchanRequested l =>
    have hv : tsFsm.verdict .notInitialized (.lchanRequested l) = .action := rfl
    simp only [tsDispatch,hfi,hv,tsFsmNotInitialized,hgood l rfl]
    exact ensures_ok.mpr rfl
  | lchanUnused l =>
    have hv : tsFsm.verdict .notInitialized (.lchanUnused l) = .action := rfl
    simp only [tsDispatch,hfi,hv,tsFsmNotInitialized]
    exact ensures_ok.mpr rfl
  | _ =>
    simp only [tsDispatch,hfi]
    exact ensures_ok.mpr rfl

theorem Readiness.step_same (h : Readiness w (head :: rest) g) (hhead : head.signal = false) :
    Readiness w rest g := by
  change Readiness w ([] ++ rest) g
  refine h.step hhead (fun _ => rfl) (fun _ => rfl) (fun t => (h.tracks t).up) ?_
  intro call hcall
  cases hcall

theorem Readiness.step_signal {ev : TsEvent} (h : Readiness w [.tsDispatch t ev] g)
    (hother : ∀ t', t' ≠ t → w'.ts t' = w.ts t')
    (homl : (w'.ts t).isOmlReady = true → g.oml t = true)
    (hrsl : (w'.ts t).isRslReady = true → g.rsl t = true)
    (hup : (w'.ts t).fi ≠ .notInitialized → (w'.ts t).ready)
    (hnew : ∀ call ∈ new, call.signal = false ∧ ∀ t', call.Shifts t' → t' = t ∧ (w'.ts t).ready) :
    Readiness w' new g := by
  have hno : ∀ call ∈ new, call.signal = true → False := by
    intro call hcall hs
    rw [(hnew call hcall).1] at hs
    cases hs
  refine ⟨fun call hcall hs => (hno call hcall hs).elim,fun t' => ?_⟩
  rcases eq_or_ne t' t with rfl | hne
  · refine ⟨fun ho => .inl (homl ho),fun hr => .inl (hrsl hr),hup,fun call hcall hs => ?_,
      fun hm => (hno _ hm rfl).elim,fun hm => (hno _ hm rfl).elim⟩
    exact ((hnew call hcall).2 t' hs).2
  · have ht := h.tracks t'
    have hone : ∀ ev', Call.tsDispatch t' ev' ∉ [Call.tsDispatch t ev] := by
      intro ev' hm
      have := List.mem_singleton.mp hm
      simp only [Call.tsDispatch.injEq] at this
      exact hne this.1
    refine ⟨fun ho => ?_,fun hr => ?_,fun hf => ?_,fun call hcall hs => ?_,
      fun hm => (hno _ hm rfl).elim,fun hm => (hno _ hm rfl).elim⟩
    · rw [hother t' hne] at ho
      exact (ht.oml ho).imp id fun hm => absurd hm (hone _)
    · rw [hother t' hne] at hr
      exact (ht.rsl hr).imp id fun hm => absurd hm (hone _)
    · rw [hother t' hne] at hf ⊢
      exact ht.up hf
    · exact absurd ((hnew call hcall).2 t' hs).1 hne

theorem Readiness.signal_dropped {ev : TsEvent} (h : Readiness w [.tsDispatch t ev] g)
    (hev : ev = .omlReady ∨ ev = .rslReady) : Readiness w [] g := by
  have ht := h.tracks t
  have hone : ∀ ev', ev' ≠ ev → Call.tsDispatch t ev' ∉ [Call.tsDispatch t ev] := by
    intro ev' hne hm
    have := List.mem_singleton.mp hm
    simp only [Call.tsDispatch.injEq] at this
    exact hne this.2
  refine h.step_signal (fun _ _ => rfl) (fun ho => ?_) (fun hr => ?_) ht.up (by simp)
  · refine (ht.oml ho).resolve_right (hone _ ?_)
    rcases hev with rfl | rfl <;> intro h <;> cases h
  · refine (ht.rsl hr).resolve_right (hone _ ?_)
    rcases hev with rfl | rfl <;> intro h <;> cases h

theorem Readiness.step_omlReady (h : Readiness w [.tsDispatch t .omlReady] g)
    (he : tsDispatch cfg t .omlReady w = .ok (w',new)) : Readiness w' new g := by
  have ht := h.tracks t
  cases hfi : (w.ts t).fi with
  | notInitialized =>
    have hv : tsFsm.verdict .notInitialized .omlReady = .action := rfl
    simp only [tsDispatch,hfi,hv,tsFsmNotInitialized,Except.ok.injEq,Prod.mk.injEq] at he
    obtain ⟨hw,hnew⟩ := he
    have hts : (w'.ts t).fi = .notInitialized ∧ (w'.ts t).isOmlReady = true
        ∧ (w'.ts t).isRslReady = (w.ts t).isRslReady := by
      rw [← hw]
      simp [tsSetupLchans,hfi]
    refine h.step_signal (fun t' hne => ?_) (fun _ => ht.omlReady (by simp)) (fun hr => ?_)
      (fun hf => absurd hts.1 hf) fun call hcall => ?_
    · rw [← hw]
      simp [tsSetupLchans,Bsc.updTs,hne]
    · rw [hts.2.2] at hr
      exact (ht.rsl hr).resolve_right (by simp)
    · rw [← hnew] at hcall
      split at hcall
      · rename_i hr
        rw [hw] at hr
        rw [List.mem_singleton.mp hcall]
        exact ⟨rfl,fun t' h => ⟨h.symm,hts.2.1,hr⟩⟩
      · cases hcall
  | _ =>
    simp only [tsDispatch,hfi] at he
    cases he
    exact h.signal_dropped (.inl rfl)

theorem Readiness.step_rslReady (h : Readiness w [.tsDispatch t .rslReady] g)
    (he : tsDispatch cfg t .rslReady w = .ok (w',new)) : Readiness w' new g := by
  have ht := h.tracks t
  cases hfi : (w.ts t).fi with
  | notInitialized =>
    have hv : tsFsm.verdict .notInitialized .rslReady = .action := rfl
    simp only [tsDispatch,hfi,hv,tsFsmNotInitialized,Bsc.updTs_self,Except.ok.injEq,
      Prod.mk.injEq] at he
    obtain ⟨hw,hnew⟩ := he
    have hts : (w'.ts t).fi = .notInitialized ∧ (w'.ts t).isRslReady = true
        ∧ (w'.ts t).isOmlReady = (w.ts t).isOmlReady := by
      rw [← hw]
      simp [hfi]
    refine h.step_signal (fun t' hne => ?_) (fun ho => ?_) (fun _ => ht.rslReady (by simp))
      (fun hf => absurd hts.1 hf) fun call hcall => ?_
    · rw [← hw]
      exact Bsc.updTs_ne _ _ _ hne
    · rw [hts.2.2] at ho
      exact (ht.oml ho).resolve_right (by simp)
    · rw [← hnew] at hcall
      split at hcall
      · rename_i ho
        rw [List.mem_singleton.mp hcall]
        exact ⟨rfl,fun t' h => ⟨h.symm,hts.2.2.trans ho,hts.2.1⟩⟩
      · cases hcall
  | _ =>
    simp only [tsDispatch,hfi] at he
    cases he
    exact h.signal_dropped (.inr rfl)

theorem Readiness.step_down {ev : TsEvent} (hev : ev = .omlDown ∨ ev = .rslDown)
    (h : Readiness w [.tsDispatch t ev] g) (he : tsDispatch cfg t ev w = .ok (w',new)) :
    Readiness w' new g := by
  have ht := h.tracks t
  rcases hev with rfl | rfl
  · rw [tsDispatch_omlDown] at he
    cases he
    refine h.step_signal (fun t' hne => Bsc.updTs_ne _ _ _ hne) (by simp) (fun hr => ?_) (by simp) ?_
    · rw [Bsc.updTs_self] at hr
      exact (ht.rsl hr).resolve_right (by simp)
    · simp [Call.signal,Call.Shifts]
  · rw [tsDispatch_rslDown] at he
    cases he
    refine h.step_signal (fun t' hne => Bsc.updTs_ne _ _ _ hne) (fun ho => ?_) (by simp) (by simp) ?_
    · rw [Bsc.updTs_self] at ho
      exact (ht.oml ho).resolve_right (by simp)
    · simp [Call.signal,Call.Shifts]

theorem Readiness.step_tsDispatch {ev : TsEvent} (h : Readiness w (.tsDispatch t ev :: rest) g)
    (hgood : ∀ l, ev = .lchanRequested l →
      (w.ts t).fi ≠ .notInitialized ∨ (w.lchan l).fi = none)
    (he : tsDispatch cfg t ev w = .ok (w',new)) : Readiness w' (new ++ rest) g := by
  cases hs : (Call.tsDispatch t ev).signal with
  | true =>
    have hrest := h.alone _ (List.mem_cons_self ..) hs
    simp only [List.cons.injEq,true_and] at hrest
    subst hrest
    rw [List.append_nil]
    cases ev with
    | omlReady => exact h.step_omlReady he
    | omlDown => exact h.step_down (.inl rfl) he
    | rslReady => exact h.step_rslReady he
    | rslDown => exact h.step_down (.inr rfl) he
    | _ => cases hs
  | false =>
    by_cases hfi : (w.ts t).fi = .notInitialized
    · have hdrop := tsDispatch_early hs hfi (fun l hl => (hgood l hl).resolve_left (· hfi)) _ he
      cases hdrop
      exact h.step_same hs
    · exact h.step_shift hs ((h.tracks t).up hfi) (tsDispatch_shifts hs hfi _ he)

theorem Readiness.exec (h : Readiness w (head :: rest) g)
    (hgood : ∀ t l, head = .tsDispatch t (.lchanRequested l) →
      (w.ts t).fi ≠ .notInitialized ∨ (w.lchan l).fi = none)
    (he : exec cfg head x w = .ok (w',new)) : Readiness w' (new ++ rest) g := by
  have hshift : ∀ t, head.Shifts t → (w.ts t).ready :=
    fun t => (h.tracks t).shifts head (List.mem_cons_self ..)
  cases hts : head.ofTs with
  | false => exact h.step_other hts he
  | true =>
    cases head with
    | tsDispatch t ev => exact h.step_tsDispatch (fun l hl => hgood t l (hl ▸ rfl)) he
    | tsTimeout t =>
      simp only [Chan.exec,tsTimeout] at he
      split at he
      · rename_i hfi
        cases he
        have hup := (h.tracks t).up (by rw [hfi]; decide)
        exact h.step_shift rfl hup (.same (tsFsmError_shifts _))
      · rename_i hfi
        cases he
        have hup := (h.tracks t).up (by rw [hfi]; decide)
        exact h.step_shift rfl hup (.same (tsFsmError_shifts _))
      · cases he
        exact h.step_same rfl
    | tsStateChg t st => exact h.step_shift rfl (hshift t rfl) (tsStateChg_shifts st _ he)
    | tsErrorChg t st => exact h.step_shift rfl (hshift t rfl) (tsErrorChg_shifts st _ he)
    | tsInUseOnenter t i type =>
      exact h.step_shift rfl (hshift t rfl) (tsInUseOnenter_shifts i type _ he)
    | tsLchansDispatch t st ev i =>
      obtain ⟨rfl,hnew⟩ := tsLchansDispatch_spec he
      refine h.step rfl (fun _ => rfl) (fun _ => rfl) (fun t => (h.tracks t).up) ?_
      rcases hnew with ⟨rfl,-⟩ | ⟨rfl,-⟩ | rfl <;> simp [Call.signal,Call.Shifts]
    | tsTerminateLchanFsms t i =>
      simp only [Chan.exec,tsTerminateLchanFsms] at he
      split at he
      · cases he
        refine h.step rfl (fun _ => rfl) (fun _ => rfl) (fun t => (h.tracks t).up) ?_
        simp [Call.signal,Call.Shifts]
      · cases he
        have hsame : ∀ t', ((w.updTs t ({ · with pchanIs := .none, pchanOnInit := .none })).ts t').fi
              = (w.ts t').fi
            ∧ ((w.updTs t ({ · with pchanIs := .none, pchanOnInit := .none })).ts t').isOmlReady
              = (w.ts t').isOmlReady
            ∧ ((w.updTs t ({ · with pchanIs := .none, pchanOnInit := .none })).ts t').isRslReady
              = (w.ts t').isRslReady := by
          intro t'
          rcases eq_or_ne t' t with rfl | hne
          · simp
          · rw [Bsc.updTs_ne _ _ _ hne]
            exact ⟨rfl,rfl,rfl⟩
        refine h.step rfl (fun t' => (hsame t').2.1) (fun t' => (hsame t').2.2) (fun t' hf => ?_)
          (by simp)
        rw [(hsame t').1] at hf
        exact (h.tracks t').up hf
    | _ => cases hts

def Input.signal : Input → Bool
  | .omlReady _ | .omlDown _ | .rslReady _ | .rslDown _ => true
  | _ => false

theorem enter_still {i : Input} (hi : i.signal = false) (w : Bsc) :
    ∀ call ∈ enter i w, call.Still := by
  cases i with
  | omlReady t | omlDown t | rslReady t | rslDown t => cases hi
  | estInd l linkId msg newConn aoip =>
    simp only [enter]
    repeat' split
    · exact List.forall_mem_nil _
    · exact List.forall_mem_nil _
    · exact List.forall_mem_singleton.mpr ⟨rfl,fun _ => id⟩
    · exact List.forall_mem_cons.mpr ⟨⟨rfl,fun _ => id⟩,List.forall_mem_singleton.mpr ⟨rfl,fun _ => id⟩⟩
  | _ =>
    simp only [enter]
    repeat' split
    all_goals
      first
      | exact List.forall_mem_nil _
      | exact List.forall_mem_singleton.mpr ⟨rfl,fun _ => id⟩

theorem Readiness.idle (h : Readiness w [] g) (t : TsId) :
    ((w.ts t).isOmlReady = true → g.oml t = true) ∧ ((w.ts t).isRslReady = true → g.rsl t = true) :=
  ⟨fun ho => ((h.tracks t).oml ho).resolve_right (by simp),
    fun hr => ((h.tracks t).rsl hr).resolve_right (by simp)⟩

theorem Readiness.deliver_still (h : Readiness w [] g) {calls : List Call}
    (hcalls : ∀ call ∈ calls, call.Still) : Readiness w calls g := by
  have hno : ∀ call ∈ calls, call.signal = true → False := by
    intro call hcall hs
    rw [(hcalls call hcall).1] at hs
    cases hs
  refine ⟨fun call hcall hs => (hno call hcall hs).elim,fun t => ?_⟩
  exact ⟨fun ho => .inl ((h.idle t).1 ho),fun hr => .inl ((h.idle t).2 hr),(h.tracks t).up,
    fun call hcall hs => absurd hs ((hcalls call hcall).2 t),
    fun hm => (hno _ hm rfl).elim,fun hm => (hno _ hm rfl).elim⟩

theorem Readiness.deliver_signal (h : Readiness w [] g) {ev : TsEvent} {g' : Links}
    (homl : ∀ t', g.oml t' = true → g'.oml t' = true ∨ t' = t ∧ ev = .omlDown)
    (hrsl : ∀ t', g.rsl t' = true → g'.rsl t' = true ∨ t' = t ∧ ev = .rslDown)
    (homlReady : ev = .omlReady → g'.oml t = true)
    (hrslReady : ev = .rslReady → g'.rsl t = true) : Readiness w [.tsDispatch t ev] g' := by
  refine ⟨fun call hcall _ => by rw [List.mem_singleton.mp hcall],fun t' => ?_⟩
  refine ⟨fun ho => ?_,fun hr => ?_,(h.tracks t').up,fun call hcall hs => ?_,fun hm => ?_,fun hm => ?_⟩
  · refine (homl t' ((h.idle t').1 ho)).imp id ?_
    rintro ⟨rfl,rfl⟩
    exact List.mem_singleton.mpr rfl
  · refine (hrsl t' ((h.idle t').2 hr)).imp id ?_
    rintro ⟨rfl,rfl⟩
    exact List.mem_singleton.mpr rfl
  · rw [List.mem_singleton.mp hcall] at hs
    exact hs.elim
  · cases List.mem_singleton.mp hm
    exact homlReady rfl
  · cases List.mem_singleton.mp hm
    exact hrslReady rfl

theorem update_true {f : TsId → Bool} {t t' : TsId} (h : f t' = true) :
    Function.update f t true t' = true := by
  rcases eq_or_ne t' t with rfl | hne
  · simp
  · rwa [Function.update_of_ne hne]

theorem update_false {f : TsId → Bool} {t t' : TsId} (h : f t' = true) :
    Function.update f t false t' = true ∨ t' = t := by
  rcases eq_or_ne t' t with rfl | hne
  · exact .inr rfl
  · rw [Function.update_of_ne hne]
    exact .inl h

theorem Readiness.deliver (h : Readiness w [] g) (d : Delivery) :
    Readiness w (deliver d w) (d.note g) := by
  cases d with
  | activate l info | lchanEvent l ev | lchanRequested l | lchanUnused l =>
    refine h.deliver_still fun call hcall => ?_
    rw [List.mem_singleton.mp hcall]
    exact ⟨rfl,fun _ => id⟩
  | input i =>
    cases hi : i.signal with
    | false =>
      have hnote : (Delivery.input i).note g = g := by
        cases i <;> first | rfl | cases hi
      rw [hnote]
      exact h.deliver_still (enter_still hi w)
    | true =>
      cases i with
      | omlReady t =>
        exact h.deliver_signal (fun t' ht => .inl (update_true ht)) (fun t' ht => .inl ht)
          (fun _ => by simp [Delivery.note]) (fun h => by cases h)
      | omlDown t =>
        exact h.deliver_signal (fun t' ht => (update_false ht).imp id fun h => ⟨h,rfl⟩)
          (fun t' ht => .inl ht) (fun h => by cases h) (fun h => by cases h)
      | rslReady t =>
        exact h.deliver_signal (fun t' ht => .inl ht) (fun t' ht => .inl (update_true ht))
          (fun h => by cases h) (fun _ => by simp [Delivery.note])
      | rslDown t =>
        exact h.deliver_signal (fun t' ht => .inl ht)
          (fun t' ht => (update_false ht).imp id fun h => ⟨h,rfl⟩) (fun h => by cases h)
          (fun h => by cases h)
      | _ => cases hi

theorem Delivered.readiness {c : Config × Links} (h : Delivered cfg NoEarlyRequest c) :
    Readiness c.1.state c.1.calls c.2 := by
  refine Calls.noting_invariant ?_ ?_ ?_ h
  · rintro c rfl
    refine ⟨by simp [initial],fun t => ?_⟩
    exact ⟨fun h => (by cases h),fun h => (by cases h),fun h => absurd rfl h,by simp [initial],
      by simp [initial],by simp [initial]⟩
  · exact fun w d g hw _ => hw.deliver d
  · intro w call rest x w' new g hw hgood he
    refine hw.exec ?_ he
    rintro t l rfl
    have : ((w.ts t).fi == .notInitialized && (w.lchan l).fi.isSome) = false := hgood
    rcases Bool.and_eq_false_iff.mp this with h | h
    · exact .inl (by simpa using h)
    · exact .inr (by simpa using h)

/-- As long as no lchan requests a timeslot that is not initialized, the flags
are set only while the layers are up, and a timeslot is initialized only when
both of them are. -/
theorem readiness_follows_links {c : Config × Links} (h : Delivered cfg NoEarlyRequest c)
    (hq : c.1.Quiescent) (t : TsId) :
    ((c.1.state.ts t).isOmlReady = true → c.2.oml t = true)
      ∧ ((c.1.state.ts t).isRslReady = true → c.2.rsl t = true)
      ∧ ((c.1.state.ts t).fi ≠ .notInitialized → c.2.oml t = true ∧ c.2.rsl t = true) := by
  have hr := h.readiness
  rw [hq] at hr
  refine ⟨(hr.idle t).1,(hr.idle t).2,fun hf => ?_⟩
  have hup := (hr.tracks t).up hf
  exact ⟨(hr.idle t).1 hup.1,(hr.idle t).2 hup.2⟩

/-- The deliveries one after the other, each with at most `n` calls. -/
def deliveries (n : Nat) (ds : List Delivery) : List (Calls.Move Delivery Foreign) :=
  ds.flatMap fun d => .input d :: List.replicate n (.call {})

def upAndRequest : List Delivery :=
  [.input (.omlReady 0),.input (.rslReady 0),
    .input (.chanRqd fun type => if type = .sdcch then some ⟨0,0⟩ else none),.input (.chanActivAck ⟨0,0⟩)]

theorem readiness_follows_links_upAndRequest :
    ∃ c, Delivered sdcchAndTch NoEarlyRequest c ∧ c.1.Quiescent
      ∧ (c.1.state.ts 0).fi = .inUse ∧ c.2.oml 0 = true ∧ c.2.rsl 0 = true := by
  have hrun : ∃ c, run (deliveryStep sdcchAndTch) (initial,noLinks) (deliveries 40 upAndRequest) = .ok c
      ∧ c.1.Quiescent ∧ (c.1.state.ts 0).fi = .inUse := by
    decide +kernel
  have hgood : GoodRun (deliveryStep sdcchAndTch) NoEarlyRequest (initial,noLinks)
      (deliveries 40 upAndRequest) := by
    decide +kernel
  obtain ⟨c,hc,hq,hf⟩ := hrun
  have hreach : Delivered sdcchAndTch NoEarlyRequest c := Reach.of_run (.start rfl) hgood hc
  have hready : (c.1.state.ts 0).fi ≠ .notInitialized := by
    rw [hf]
    decide
  exact ⟨c,hreach,hq,hf,(readiness_follows_links hreach hq 0).2.2 hready⟩

/-- With OML up and RSL down, the request of an lchan sets `is_rsl_ready` and
takes the timeslot out of TS_ST_NOT_INITIALIZED. -/
theorem request_makes_timeslot_ready :
    ∃ c, run (deliveryStep sdcchAndTch) (initial,noLinks) (deliveries 40
        [.input (.omlReady 0),.activate ⟨0,0⟩ { activFor := .forMsChannelRequest }]) = .ok c
      ∧ c.1.Quiescent ∧ (c.1.state.ts 0).isRslReady = true ∧ c.2.rsl 0 = false
      ∧ (c.1.state.ts 0).fi ≠ .notInitialized := by
  decide +kernel

end Run

end OsmoBsc.Chan
