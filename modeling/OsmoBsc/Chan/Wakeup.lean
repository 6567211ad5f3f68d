import OsmoBsc.Chan.Quiet
set_option autoImplicit false

namespace OsmoBsc.Chan
open EventFsm

namespace Call

def entry : Call → Bool
  | .tsDispatch _ ev => match ev with
    | .lchanRequested _ | .lchanUnused _ | .rslReady => false
    | _ => true
  | _ => false

def terminates : Call → Bool
  | .tsTerminateLchanFsms .. => true
  | _ => false

/-- The call ends the FSM of lchan `l`. -/
def EndsLchan (l : LchanId) : Call → Prop
  | .lchanTerm l' | .lchanCleanup l' | .lchanCleanupRest l' => l' = l
  | _ => False

/-- The call ends FSMs of lchans of timeslot `t`. -/
def EndsAt (t : TsId) : Call → Prop
  | .tsTerminateLchanFsms t' _ => t' = t
  | .lchanTerm l | .lchanCleanup l | .lchanCleanupRest l => l.ts = t
  | _ => False

def ending : Call → Bool
  | .tsTerminateLchanFsms .. | .lchanTerm .. | .lchanCleanup .. | .lchanCleanupRest .. => true
  | _ => false

/-- The end of `ts_fsm_error`, which may take the timeslot out of its PDCH switchover. -/
def Breaks (t : TsId) : Call → Prop
  | .tsErrorChg t' _ => t' = t
  | _ => False

/-- The state changes that the source asks for. -/
def wf : Call → Bool
  | .tsStateChg _ st => decide (st ≠ .borken) && decide (st ≠ .notInitialized)
  | .tsErrorChg _ st => decide (st = .borken) || decide (st = .unused)
  | .tsLchansDispatch _ _ ev _ => decide (ev = .tsReady) || decide (ev = .tsError)
  | .lchanStateChg _ st => decide (st ≠ .waitTsReady) && decide (st ≠ .waitAfterError)
  | .lchanFailChg _ st =>
    decide (st ≠ .waitTsReady) && decide (st ≠ .waitAfterError) && decide (st ≠ .cbch)
  | _ => true

def tame (call : Call) : Bool :=
  !call.entry && !call.activates && !call.ending && call.wf

/-- What holds of two pending calls, the first of which comes first: nothing
waits below an event from outside, nothing that breaks a switchover waits below
a request, and the loop that ends lchan FSMs is unique. -/
structure Above (a b : Call) : Prop where
  upper : a.entry = false
  lower : b.entry = false
  request : a.activates = true → ∀ t, ¬ b.Breaks t
  loop : a.terminates = true → b.ending = false

end Call

def Fits (w : Bsc) (t : TsId) (type : ChanT) : Prop :=
  (type = .sdcch ∨ type = .tchF ∨ type = .tchH) ∧ tsIsCapableOfLchant (w.ts t) type = true

/-- The call sooner or later takes lchan `l` out of LCHAN_ST_WAIT_TS_READY, by
LCHAN_EV_TS_READY or LCHAN_EV_TS_ERROR or by its end. -/
def Answers (w : Bsc) (l : LchanId) : Call → Prop
  | .lchanDispatch l' ev => l' = l ∧ (ev = .tsReady ∨ ev = .tsError)
  | .lchanFailChg l' st => l' = l ∧ lchanFsm.outState .waitTsReady st = true
  | .tsLchansDispatch t st ev i =>
    t = l.ts ∧ i ≤ l.nr ∧ (st = none ∨ st = some .waitTsReady) ∧ (ev = .tsReady ∨ ev = .tsError)
  | .tsInUseOnenter t i type => t = l.ts ∧ (i ≤ l.nr ∨ Fits w t type)
  | .tsTerminateLchanFsms t i => t = l.ts ∧ i ≤ l.nr
  | .lchanTerm l' | .lchanCleanup l' | .lchanCleanupRest l' => l' = l
  | _ => False

/-- The call, made next, answers lchan `l` or has its timeslot switch over. -/
def AnswersNext (w : Bsc) (l : LchanId) : Call → Prop
  | .tsDispatch t (.lchanRequested l') => t = l.ts ∧ l' = l
  | .tsDispatch t .rslReady => t = l.ts ∧ (w.ts t).fi = .notInitialized
  | .tsStateChg t st => t = l.ts ∧ tsFsm.outState (w.ts t).fi st = true
      ∧ (st = .unused ∨ st = .inUse ∨ st = .waitPdchDeact)
  | _ => False

def TsState.switching (st : TsState) : Prop := st = .waitPdchAct ∨ st = .waitPdchDeact

/-- A waiting lchan will get its answer: from a pending call, or because its
timeslot switches over and nothing pending breaks that. -/
def Pending (w : Bsc) (calls : List Call) (l : LchanId) : Prop :=
  (∃ call ∈ calls, Answers w l call) ∨
  (∀ call ∈ calls, ¬ call.Breaks l.ts) ∧
    ((w.ts l.ts).fi.switching ∨ ∃ call rest, calls = call :: rest ∧ AnswersNext w l call)

/-- The lchan FSMs of a timeslot are those of its configuration, or there are none. -/
structure Stable (cfg : TsId → TsCfg) (w : Bsc) (calls : List Call) (t : TsId) : Prop where
  quiet : ∀ call ∈ calls, ¬ call.EndsAt t
  lchans : ((w.ts t).isOmlReady = true ∧ (w.ts t).pchanOnInit = (cfg t).pchanFromConfig
      ∧ ∀ nr, (w.lchan ⟨t,nr⟩).fi.isSome ↔ nr < pchanSubslots (cfg t).pchanFromConfig)
    ∨ ((w.ts t).isOmlReady = false ∧ (w.ts t).pchanOnInit = .none
      ∧ ∀ nr, (w.lchan ⟨t,nr⟩).fi = none)

/-- The lchan FSMs of a timeslot are ended one after the other; index `j` is next. -/
structure Ending (w : Bsc) (calls : List Call) (t : TsId) (j : Nat) : Prop where
  loop : Call.tsTerminateLchanFsms t j ∈ calls
  down : (w.ts t).isOmlReady = false
  rest : ∀ nr, (w.lchan ⟨t,nr⟩).fi.isSome → nr < pchanSubslots (w.ts t).pchanOnInit
    ∧ (j ≤ nr ∨ ∃ call ∈ calls, call.EndsLchan ⟨t,nr⟩)
  ahead : ∀ nr, j ≤ nr → nr < pchanSubslots (w.ts t).pchanOnInit → (w.lchan ⟨t,nr⟩).fi.isSome
  behind : ∀ call ∈ calls, ∀ nr, call.EndsLchan ⟨t,nr⟩ → nr < j

structure Wakeup (cfg : TsId → TsCfg) (w : Bsc) (calls : List Call) : Prop where
  order : calls.Pairwise Call.Above
  wf : ∀ call ∈ calls, call.wf = true
  slots : ∀ t, Stable cfg w calls t ∨ ∃ j, Ending w calls t j
  waiting : ∀ l, (w.lchan l).fi = some .waitTsReady → Pending w calls l

section Order

theorem Call.tame_iff {call : Call} : call.tame = true ↔
    call.entry = false ∧ call.activates = false ∧ call.ending = false ∧ call.wf = true := by
  simp [Call.tame,and_assoc]

theorem Call.ending_of_terminates {call : Call} (h : call.ending = false) :
    call.terminates = false := by
  cases call <;> first | rfl | cases h

theorem Call.EndsAt.ending {call : Call} {t : TsId} (h : call.EndsAt t) : call.ending = true := by
  cases call <;> first | rfl | exact h.elim

theorem Call.not_endsAt {call : Call} (h : call.ending = false) (t : TsId) : ¬ call.EndsAt t := by
  intro he
  rw [he.ending] at h
  cases h

theorem Call.EndsLchan.endsAt {call : Call} {l : LchanId} (h : call.EndsLchan l) :
    call.EndsAt l.ts := by
  cases call <;> first | exact congrArg LchanId.ts h | exact h.elim

theorem Call.calm_tame {call : Call} (h : call.calm = true) : call.tame = true := by
  cases call with
  | tsDispatch t ev => cases ev <;> first | rfl | cases h
  | lchanStateChg l st | lchanFailChg l st => cases st <;> first | rfl | cases h
  | connDispatch c ev => cases ev <;> first | rfl | cases h
  | lchanDispatch l ev => cases ev <;> first | rfl | cases h
  | _ => first | rfl | cases h

theorem Call.calm_not_breaks {call : Call} (h : call.calm = true) (t : TsId) :
    ¬ call.Breaks t := by
  cases call <;> first | exact id | cases h

theorem Call.starting_cases {call : Call} (h : call.starting = true) :
    call.entry = false ∧ call.ending = false ∧ call.wf = true ∧ ∀ t, ¬ call.Breaks t := by
  rcases Bool.or_eq_true_iff.mp h with h | h
  · obtain ⟨he,-,hn,hw⟩ := tame_iff.mp (calm_tame h)
    exact ⟨he,hn,hw,calm_not_breaks h⟩
  · cases call with
    | tsDispatch t ev => cases ev <;> first | exact ⟨rfl,rfl,rfl,fun _ => id⟩ | cases h
    | _ => first | exact ⟨rfl,rfl,rfl,fun _ => id⟩ | cases h

variable {head : Call} {new rest : List Call}

theorem order_plain (h : (head :: rest).Pairwise Call.Above)
    (hnew : ∀ a ∈ new, a.entry = false ∧ a.activates = false ∧ a.terminates = false) :
    (new ++ rest).Pairwise Call.Above := by
  rw [List.pairwise_cons] at h
  have habove : ∀ a ∈ new, ∀ b, b.entry = false → Call.Above a b := by
    intro a ha b hb
    obtain ⟨he,hact,hloop⟩ := hnew a ha
    refine ⟨he,hb,fun h => ?_,fun h => ?_⟩
    · rw [hact] at h
      cases h
    · rw [hloop] at h
      cases h
  rw [List.pairwise_append]
  refine ⟨List.pairwise_of_forall_mem_list ?_,h.2,?_⟩
  · exact fun a ha b hb => habove a ha b (hnew b hb).1
  · exact fun a ha b hb => habove a ha b (h.1 b hb).lower

theorem order_tame (h : (head :: rest).Pairwise Call.Above) (hnew : new.all Call.tame = true) :
    (new ++ rest).Pairwise Call.Above := by
  refine order_plain h fun a ha => ?_
  obtain ⟨he,hact,hend,-⟩ := Call.tame_iff.mp (List.all_eq_true.mp hnew a ha)
  exact ⟨he,hact,Call.ending_of_terminates hend⟩

theorem order_starting (h : (head :: rest).Pairwise Call.Above) (hhead : head.activates = true)
    (hnew : new.all Call.starting = true) : (new ++ rest).Pairwise Call.Above := by
  rw [List.pairwise_cons] at h
  have hs := fun a ha => Call.starting_cases (List.all_eq_true.mp hnew a ha)
  have habove : ∀ a ∈ new, ∀ b, b.entry = false → (∀ t, ¬ b.Breaks t) → Call.Above a b := by
    intro a ha b hb hbreaks
    obtain ⟨he,hend,-,-⟩ := hs a ha
    refine ⟨he,hb,fun _ => hbreaks,fun h => ?_⟩
    rw [Call.ending_of_terminates hend] at h
    cases h
  rw [List.pairwise_append]
  refine ⟨List.pairwise_of_forall_mem_list ?_,h.2,?_⟩
  · exact fun a ha b hb => habove a ha b (hs b hb).1 (hs b hb).2.2.2
  · exact fun a ha b hb => habove a ha b (h.1 b hb).lower ((h.1 b hb).request hhead)

theorem wf_append (h : ∀ call ∈ head :: rest, call.wf = true) (hnew : ∀ call ∈ new, call.wf = true) :
    ∀ call ∈ new ++ rest, call.wf = true := by
  intro call hcall
  rcases List.mem_append.mp hcall with hcall | hcall
  · exact hnew call hcall
  · exact h call (List.mem_cons_of_mem _ hcall)

end Order

section Step

variable {cfg : TsId → TsCfg} {w w' : Bsc} {head : Call} {new rest : List Call}

/-- Which lchan FSMs timeslot `t` has does not change. -/
structure SameSlots (w w' : Bsc) (t : TsId) : Prop where
  pchan : (w'.ts t).pchanOnInit = (w.ts t).pchanOnInit
  oml : (w'.ts t).isOmlReady = (w.ts t).isOmlReady
  fi : ∀ nr, (w'.lchan ⟨t,nr⟩).fi.isSome = (w.lchan ⟨t,nr⟩).fi.isSome

theorem SameSlots.refl (w : Bsc) (t : TsId) : SameSlots w w t :=
  ⟨rfl,rfl,fun _ => rfl⟩

theorem Quiet.sameSlots {ok : Call → Bool} (h : Quiet ok w (w',new)) (t : TsId) :
    SameSlots w w' t := by
  refine ⟨by rw [h.ts],by rw [h.ts],fun nr => ?_⟩
  rcases h.fi ⟨t,nr⟩ with h | ⟨h1,st,h2,-⟩
  · rw [h]
  · rw [h1,h2]
    rfl

theorem slots_append {t : TsId} (hk : SameSlots w w' t) (hhead : ¬ head.EndsAt t)
    (hnew : ∀ call ∈ new, ¬ call.EndsAt t)
    (h : Stable cfg w (head :: rest) t ∨ ∃ j, Ending w (head :: rest) t j) :
    Stable cfg w' (new ++ rest) t ∨ ∃ j, Ending w' (new ++ rest) t j := by
  have hold : ∀ call ∈ new ++ rest, call.EndsAt t → call ∈ rest := by
    intro call hcall hend
    rcases List.mem_append.mp hcall with hcall | hcall
    · exact absurd hend (hnew call hcall)
    · exact hcall
  have hrest : ∀ call ∈ head :: rest, call.EndsAt t → call ∈ rest := by
    intro call hcall hend
    rcases List.mem_cons.mp hcall with rfl | hcall
    · exact absurd hend hhead
    · exact hcall
  rcases h with hs | ⟨j,he⟩
  · refine .inl ⟨fun call hcall hend => ?_,?_⟩
    · exact hs.quiet call (List.mem_cons_of_mem _ (hold call hcall hend)) hend
    · rcases hs.lchans with ⟨ho,hp,hf⟩ | ⟨ho,hp,hf⟩
      · exact .inl ⟨hk.oml.trans ho,hk.pchan.trans hp,fun nr => by rw [hk.fi,hf]⟩
      · refine .inr ⟨hk.oml.trans ho,hk.pchan.trans hp,fun nr => ?_⟩
        have := hk.fi nr
        rw [hf nr] at this
        exact Option.isNone_iff_eq_none.mp (by simpa using this)
  · refine .inr ⟨j,?_,?_,?_,?_,?_⟩
    · exact List.mem_append_right _ (hrest _ he.loop rfl)
    · exact hk.oml.trans he.down
    · intro nr hnr
      rw [hk.fi] at hnr
      rw [hk.pchan]
      obtain ⟨h1,h2⟩ := he.rest nr hnr
      refine ⟨h1,h2.imp id ?_⟩
      rintro ⟨call,hcall,hends⟩
      exact ⟨call,List.mem_append_right _ (hrest call hcall hends.endsAt),hends⟩
    · intro nr hj hnr
      rw [hk.pchan] at hnr
      rw [hk.fi]
      exact he.ahead nr hj hnr
    · intro call hcall nr hends
      exact he.behind call (List.mem_cons_of_mem _ (hold call hcall hends.endsAt)) nr hends

theorem slots_tame (hk : ∀ t, SameSlots w w' t) (hhead : head.ending = false)
    (hnew : ∀ call ∈ new, call.ending = false)
    (h : ∀ t, Stable cfg w (head :: rest) t ∨ ∃ j, Ending w (head :: rest) t j) (t : TsId) :
    Stable cfg w' (new ++ rest) t ∨ ∃ j, Ending w' (new ++ rest) t j :=
  slots_append (hk t) (Call.not_endsAt hhead t)
    (fun call hcall => Call.not_endsAt (hnew call hcall) t) (h t)

theorem tsIsCapableOfLchant_congr {ts ts' : Ts} (h : ts'.pchanOnInit = ts.pchanOnInit)
    (type : ChanT) : tsIsCapableOfLchant ts' type = tsIsCapableOfLchant ts type := by
  unfold tsIsCapableOfLchant
  rw [h]

theorem Answers.congr {l : LchanId} {call : Call} (h : Answers w l call)
    (hp : (w'.ts l.ts).pchanOnInit = (w.ts l.ts).pchanOnInit) : Answers w' l call := by
  cases call with
  | tsInUseOnenter t i type =>
    obtain ⟨rfl,h⟩ := h
    exact ⟨rfl,h.imp id fun h => ⟨h.1,(tsIsCapableOfLchant_congr hp type).trans h.2⟩⟩
  | _ => exact h

theorem Pending.of_rest {l : LchanId} {call : Call} (hcall : call ∈ rest) (h : Answers w l call)
    (hp : (w'.ts l.ts).pchanOnInit = (w.ts l.ts).pchanOnInit) : Pending w' (new ++ rest) l :=
  .inl ⟨call,List.mem_append_right _ hcall,h.congr hp⟩

theorem Pending.of_new {l : LchanId} (call : Call) (hcall : call ∈ new) (h : Answers w' l call) :
    Pending w' (new ++ rest) l :=
  .inl ⟨call,List.mem_append_left _ hcall,h⟩

theorem not_breaks_append {t : TsId} (h : ∀ call ∈ head :: rest, ¬ call.Breaks t)
    (hnew : ∀ call ∈ new, ¬ call.Breaks t) : ∀ call ∈ new ++ rest, ¬ call.Breaks t := by
  intro call hcall
  rcases List.mem_append.mp hcall with hcall | hcall
  · exact hnew call hcall
  · exact h call (List.mem_cons_of_mem _ hcall)

/-- A call passes its answer to `l` on to the calls it makes, and leaves the
pending answers as they are. -/
theorem Pending.pass {l : LchanId} (h : Pending w (head :: rest) l)
    (hp : (w'.ts l.ts).pchanOnInit = (w.ts l.ts).pchanOnInit)
    (hfi : (w'.ts l.ts).fi = (w.ts l.ts).fi)
    (hans : Answers w l head → ∃ call ∈ new, Answers w' l call)
    (hnext : ¬ AnswersNext w l head) (hnew : ∀ call ∈ new, ¬ call.Breaks l.ts) :
    Pending w' (new ++ rest) l := by
  rcases h with ⟨call,hcall,ha⟩ | ⟨hb,hs⟩
  · rcases List.mem_cons.mp hcall with rfl | hcall
    · obtain ⟨call',hcall',ha'⟩ := hans ha
      exact .of_new call' hcall' ha'
    · exact .of_rest hcall ha hp
  · refine .inr ⟨not_breaks_append hb hnew,.inl ?_⟩
    rcases hs with hs | ⟨call,rest',heq,hn⟩
    · rwa [hfi]
    · cases heq
      exact absurd hn hnext

theorem Pending.lift {l : LchanId} (h : Pending w (head :: rest) l)
    (hts : w'.ts l.ts = w.ts l.ts) (hans : Answers w l head → ∃ call ∈ new, Answers w' l call)
    (hnext : ¬ AnswersNext w l head) (hnew : ∀ call ∈ new, ¬ call.Breaks l.ts) :
    Pending w' (new ++ rest) l :=
  h.pass (by rw [hts]) (by rw [hts]) hans hnext hnew

theorem Quiet.waiting_before {ok : Call → Bool} (h : Quiet ok w (w',new)) {l : LchanId}
    (hl : (w'.lchan l).fi = some .waitTsReady) : (w.lchan l).fi = some .waitTsReady := by
  rcases h.fi l with h | ⟨-,st,h,hst⟩
  · rw [← h,hl]
  · rw [hl] at h
    cases h
    exact absurd rfl hst

/-- The step of a call that changes no timeslot and takes no lchan into
LCHAN_ST_WAIT_TS_READY. -/
theorem Wakeup.step_quiet (h : Wakeup cfg w (head :: rest)) (hq : Quiet Call.calm w (w',new))
    (hend : head.ending = false)
    (hans : ∀ l, (w'.lchan l).fi = some .waitTsReady → Answers w l head →
      ∃ call ∈ new, Answers w' l call)
    (hnext : ∀ l, ¬ AnswersNext w l head) : Wakeup cfg w' (new ++ rest) := by
  have hcalm := List.all_eq_true.mp hq.calls
  have htame := fun call hcall => Call.tame_iff.mp (Call.calm_tame (hcalm call hcall))
  refine ⟨?_,?_,?_,?_⟩
  · exact order_tame h.order (List.all_eq_true.mpr fun a ha => Call.calm_tame (hcalm a ha))
  · exact wf_append h.wf fun call hcall => (htame call hcall).2.2.2
  · exact slots_tame hq.sameSlots hend (fun call hcall => (htame call hcall).2.2.1) h.slots
  · intro l hl
    refine (h.waiting l (hq.waiting_before hl)).lift (by rw [hq.ts]) (hans l hl) (hnext l) ?_
    exact fun call hcall => Call.calm_not_breaks (hcalm call hcall) _

theorem Wakeup.step_starting (h : Wakeup cfg w (head :: rest))
    (hq : Quiet Call.starting w (w',new)) (hact : head.activates = true)
    (hans : ∀ l, ¬ Answers w l head) (hnext : ∀ l, ¬ AnswersNext w l head) :
    Wakeup cfg w' (new ++ rest) := by
  have hs := fun call hcall => Call.starting_cases (List.all_eq_true.mp hq.calls call hcall)
  have hend : head.ending = false := by
    cases head <;> first | rfl | cases hact
  refine ⟨?_,?_,?_,?_⟩
  · exact order_starting h.order hact hq.calls
  · exact wf_append h.wf fun call hcall => (hs call hcall).2.2.1
  · exact slots_tame hq.sameSlots hend (fun call hcall => (hs call hcall).2.1) h.slots
  · intro l hl
    refine (h.waiting l (hq.waiting_before hl)).lift (by rw [hq.ts])
      (fun ha => absurd ha (hans l)) (hnext l) ?_
    exact fun call hcall => (hs call hcall).2.2.2 _

end Step

section Lchan

variable {cfg : TsId → TsCfg} {w w' : Bsc} {new rest : List Call} {x : Foreign} {l : LchanId}

theorem lchanStateChg_leaves {st : LchanState} (hst : st ≠ .waitTsReady)
    (hl : (w.lchan l).fi = some .waitTsReady) (hout : lchanFsm.outState .waitTsReady st = true) :
    Ensures (fun r => (r.1.lchan l).fi ≠ some .waitTsReady) (lchanStateChg x l st w) := by
  unfold lchanStateChg
  simp only [hl,hout,if_true]
  refine (lchanOnenter_quiet x l _ hst).mono fun r h hr => ?_
  have := Quiet.waiting_before h hr
  simp only [Bsc.updLchan_self,Option.some.injEq] at this
  exact hst this

theorem Wakeup.step_lchanFailChg {st : LchanState}
    (h : Wakeup cfg w (.lchanFailChg l st :: rest))
    (he : lchanFailChg x l st w = .ok (w',new)) : Wakeup cfg w' (new ++ rest) := by
  have hst : st ≠ .waitTsReady := by
    have hwf := h.wf _ (List.mem_cons_self ..)
    simp only [Call.wf,Bool.and_eq_true,decide_eq_true_eq] at hwf
    exact hwf.1.1
  have hq := lchanFailChg_quiet x l w hst _ he
  refine h.step_quiet hq rfl ?_ fun _ => id
  rintro l' hl' ⟨rfl,hout⟩
  have hl := hq.waiting_before hl'
  have hne : (w.lchan l).fi ≠ some st := by
    rw [hl]
    exact fun h => hst (by cases h; rfl)
  simp only [lchanFailChg,hne,if_false] at he
  exact absurd hl' (lchanStateChg_leaves hst hl hout _ he)

theorem Wakeup.step_lchanDispatch {ev : LchanEvent} (hev : ∀ info, ev ≠ .activate info)
    (h : Wakeup cfg w (.lchanDispatch l ev :: rest))
    (he : lchanDispatch x l ev w = .ok (w',new)) : Wakeup cfg w' (new ++ rest) := by
  have hq := lchanDispatch_quiet x l w hev _ he
  refine h.step_quiet hq rfl ?_ fun _ => id
  rintro l' hl' ⟨rfl,hans⟩
  have hl := hq.waiting_before hl'
  rcases hans with rfl | rfl
  · simp only [lchanDispatch,hl] at he
    exact absurd hl' (lchanStateChg_leaves (by decide) hl rfl _ he)
  · simp only [lchanDispatch,hl] at he
    cases he
    exact ⟨.lchanFailChg l .unused,by simp [lchanFailTo],rfl,rfl⟩

theorem lchanWaitTsReadyOnenter_requests :
    Ensures (fun r => Keeps Lchan.fi w r.1
        ∧ (r.2 = [.tsDispatch l.ts (.lchanRequested l),.lchanRtpFsmStart l]
          ∨ ∃ w1, r.2 = lchanFailTo w1 l .unused))
      (lchanWaitTsReadyOnenter x l w) := by
  unfold lchanWaitTsReadyOnenter
  split
  · exact ensures_ok.mpr ⟨.refl w,.inr ⟨w,rfl⟩⟩
  · extract_lets info w1 fail request
    have hfail : Ensures (fun r => Keeps Lchan.fi w r.1
        ∧ (r.2 = [.tsDispatch l.ts (.lchanRequested l),.lchanRtpFsmStart l]
          ∨ ∃ w1, r.2 = lchanFailTo w1 l .unused)) fail :=
      ensures_ok.mpr ⟨by simp [w1],.inr ⟨w1,rfl⟩⟩
    have hrequest : Ensures (fun r => Keeps Lchan.fi w r.1
        ∧ (r.2 = [.tsDispatch l.ts (.lchanRequested l),.lchanRtpFsmStart l]
          ∨ ∃ w1, r.2 = lchanFailTo w1 l .unused)) request :=
      ensures_ok.mpr ⟨by simp [w1],.inl rfl⟩
    split
    · exact hrequest
    · exact hrequest
    · exact hrequest
    · split
      · exact hfail
      · split
        · exact ensures_error
        · refine Ensures.bind fun _ _ => ?_
          split
          · exact hfail
          · exact hrequest
    · exact hfail

theorem lchanDispatch_activate (info : ActivateInfo) :
    Ensures (fun r => r = (w,[]) ∨
      r.1.ts = w.ts ∧ (∀ l', l' ≠ l → (r.1.lchan l').fi = (w.lchan l').fi)
        ∧ (w.lchan l).fi.isSome ∧ (r.1.lchan l).fi = some .waitTsReady
        ∧ (r.2 = [.tsDispatch l.ts (.lchanRequested l),.lchanRtpFsmStart l]
          ∨ ∃ w1, r.2 = lchanFailTo w1 l .unused))
      (lchanDispatch x l (.activate info) w) := by
  cases hfi : (w.lchan l).fi with
  | none =>
    simp only [lchanDispatch,hfi]
    exact ensures_ok.mpr (.inl rfl)
  | some st =>
    by_cases hst : st = .unused
    · subst hst
      have heq : lchanDispatch x l (.activate info) w = lchanFsmUnused x l (.activate info) w := by
        simp only [lchanDispatch,hfi]
        rfl
      rw [heq]
      simp only [lchanFsmUnused]
      split
      · exact ensures_error
      · simp only [lchanStateChg,Bsc.updLchan_self,hfi]
        refine (lchanWaitTsReadyOnenter_requests).mono fun r hr => .inr ?_
        refine ⟨hr.1.ts,fun l' hne => ?_,rfl,?_,hr.2⟩
        · have := hr.1.lchan l'
          rwa [Bsc.updLchan_ne _ _ _ hne,Bsc.updLchan_ne _ _ _ hne] at this
        · have := hr.1.lchan l
          simpa using this
    · simp only [lchanDispatch,hfi]
      cases st <;> first | exact absurd rfl hst | exact ensures_ok.mpr (.inl rfl)

theorem Wakeup.step_activate {info : ActivateInfo}
    (h : Wakeup cfg w (.lchanDispatch l (.activate info) :: rest))
    (he : lchanDispatch x l (.activate info) w = .ok (w',new)) : Wakeup cfg w' (new ++ rest) := by
  have hns : ∀ l', ¬ Answers w l' (.lchanDispatch l (.activate info)) := by
    rintro l' ⟨-,h | h⟩ <;> cases h
  rcases lchanDispatch_activate info _ he with heq | ⟨hts,hother,hsome,hfi,hcalls⟩
  · cases heq
    exact h.step_starting (.of_keeps (.refl w) rfl) rfl hns fun _ => id
  · have hstart : new.all Call.starting = true := by
      rcases hcalls with rfl | ⟨w1,rfl⟩ <;> rfl
    have hs := fun call hcall => Call.starting_cases (List.all_eq_true.mp hstart call hcall)
    have hbelow : ∀ t, ∀ call ∈ rest, ¬ call.Breaks t := fun t call hcall =>
      ((List.pairwise_cons.mp h.order).1 call hcall).request rfl t
    refine ⟨order_starting h.order rfl hstart,?_,?_,fun l' hl' => ?_⟩
    · exact wf_append h.wf fun call hcall => (hs call hcall).2.2.1
    · refine slots_tame (fun t => ⟨by rw [hts],by rw [hts],fun nr => ?_⟩) rfl
        (fun call hcall => (hs call hcall).2.1) h.slots
      rcases eq_or_ne ⟨t,nr⟩ l with rfl | hne
      · rw [hfi,hsome]
        rfl
      · rw [hother _ hne]
    · rcases eq_or_ne l' l with rfl | hne
      · rcases hcalls with rfl | ⟨w1,rfl⟩
        · refine .inr ⟨?_,.inr ⟨_,_,rfl,rfl,rfl⟩⟩
          intro call hcall
          rcases List.mem_append.mp hcall with hcall | hcall
          · exact (hs call hcall).2.2.2 _
          · exact hbelow _ call hcall
        · exact .of_new (.lchanFailChg l' .unused) (by simp [lchanFailTo]) ⟨rfl,rfl⟩
      · rw [hother l' hne] at hl'
        refine (h.waiting l' hl').lift (by rw [hts]) (fun ha => absurd ha (hns l')) id ?_
        exact fun call hcall => (hs call hcall).2.2.2 _

/-- The end of an lchan FSM goes from call to call until the FSM is gone. -/
theorem Ending.step {t : TsId} {j nr : Nat} {head : Call} (hhead : head.EndsLchan ⟨t,nr⟩)
    (hk : SameSlots w w' t) (h : Ending w (head :: rest) t j)
    (hends : ∃ call ∈ new, call.EndsLchan ⟨t,nr⟩)
    (hnew : ∀ call ∈ new, ∀ l, call.EndsLchan l → l = ⟨t,nr⟩) :
    Ending w' (new ++ rest) t j := by
  have hrest : ∀ call ∈ head :: rest, call = head ∨ call ∈ rest := fun _ => List.mem_cons.mp
  refine ⟨?_,hk.oml.trans h.down,fun n hn => ?_,fun n hj hn => ?_,fun call hcall n hn => ?_⟩
  · rcases hrest _ h.loop with heq | hmem
    · subst heq
      exact hhead.elim
    · exact List.mem_append_right _ hmem
  · rw [hk.fi] at hn
    rw [hk.pchan]
    obtain ⟨h1,h2⟩ := h.rest n hn
    refine ⟨h1,h2.imp id ?_⟩
    rintro ⟨call,hcall,hc⟩
    rcases hrest call hcall with rfl | hmem
    · obtain ⟨call',hcall',hc'⟩ := hends
      have : n = nr := by
        cases call <;> first | exact hc.elim | (cases hhead; cases hc; rfl)
      exact ⟨call',List.mem_append_left _ hcall',this ▸ hc'⟩
    · exact ⟨call,List.mem_append_right _ hmem,hc⟩
  · rw [hk.pchan] at hn
    rw [hk.fi]
    exact h.ahead n hj hn
  · rcases List.mem_append.mp hcall with hmem | hmem
    · cases hnew call hmem _ hn
      exact h.behind head (List.mem_cons_self ..) nr hhead
    · exact h.behind call (List.mem_cons_of_mem _ hmem) n hn

theorem Wakeup.step_ending {head next : Call} (hhead : head.EndsLchan l) (hnext : next.EndsLchan l)
    (h : Wakeup cfg w (head :: rest)) (hq : Quiet Call.calm w (w',new)) :
    Wakeup cfg w' ((new ++ [next]) ++ rest) := by
  have hcalm := List.all_eq_true.mp hq.calls
  have htame := fun call hcall => Call.tame_iff.mp (Call.calm_tame (hcalm call hcall))
  have hplain : next.entry = false ∧ next.activates = false ∧ next.terminates = false
      ∧ next.wf = true ∧ ∀ t, ¬ next.Breaks t := by
    cases next <;> first | exact ⟨rfl,rfl,rfl,rfl,fun _ => id⟩ | exact hnext.elim
  have hans : ∀ l', Answers w l' head → Answers w' l' next := by
    intro l' ha
    have hl' : l' = l := by
      cases head <;> first | exact hhead.elim | (cases hhead; exact ha.symm)
    subst hl'
    cases next <;> first | exact hnext | exact hnext.elim
  have hmem : ∀ {P : Call → Prop}, (∀ call ∈ new, P call) → P next → ∀ call ∈ new ++ [next], P call := by
    intro P h1 h2 call hcall
    rcases List.mem_append.mp hcall with hcall | hcall
    · exact h1 call hcall
    · rw [List.mem_singleton.mp hcall]
      exact h2
  refine ⟨?_,?_,fun t => ?_,fun l' hl' => ?_⟩
  · exact order_plain h.order (hmem (fun call hcall => ⟨(htame call hcall).1,(htame call hcall).2.1,
      Call.ending_of_terminates (htame call hcall).2.2.1⟩) ⟨hplain.1,hplain.2.1,hplain.2.2.1⟩)
  · exact wf_append h.wf (hmem (fun call hcall => (htame call hcall).2.2.2) hplain.2.2.2.1)
  · rcases eq_or_ne l.ts t with rfl | hne
    · rcases h.slots l.ts with hs | ⟨j,he⟩
      · exact absurd hhead.endsAt (hs.quiet head (List.mem_cons_self ..))
      · refine .inr ⟨j,Ending.step hhead (hq.sameSlots _) he ⟨next,by simp,hnext⟩ ?_⟩
        refine hmem (fun call hcall l' hl' => ?_) fun l' hl' => ?_
        · exact absurd hl'.endsAt (Call.not_endsAt (htame call hcall).2.2.1 _)
        · cases next <;> first | exact hnext.elim | (cases hnext; cases hl'; rfl)
    · have hat : ∀ call : Call, call.EndsLchan l → ¬ call.EndsAt t := by
        intro call hc ht
        cases call <;> first | exact hc.elim | (cases hc; exact hne ht)
      refine slots_append (hq.sameSlots t) (hat head hhead) ?_ (h.slots t)
      exact hmem (fun call hcall => Call.not_endsAt (htame call hcall).2.2.1 t) (hat next hnext)
  · refine (h.waiting l' (hq.waiting_before hl')).lift (by rw [hq.ts]) (fun ha => ?_) ?_ ?_
    · exact ⟨next,by simp,hans l' ha⟩
    · cases head <;> first | exact hhead.elim | exact id
    · exact hmem (fun call hcall => Call.calm_not_breaks (hcalm call hcall) _) (hplain.2.2.2.2 _)

theorem Wakeup.step_lchanCleanupRest (h : Wakeup cfg w (.lchanCleanupRest l :: rest)) :
    Wakeup cfg (w.updLchan l ({ · with fi := none }))
      ([Call.tsDispatch l.ts (.lchanUnused l)] ++ rest) := by
  refine ⟨order_tame h.order rfl,wf_append h.wf (by simp [Call.wf]),fun t => ?_,fun l' hl' => ?_⟩
  · rcases eq_or_ne l.ts t with rfl | hne
    · rcases h.slots l.ts with hs | ⟨j,he⟩
      · exact absurd rfl (hs.quiet _ (List.mem_cons_self ..))
      · have hj : l.nr < j := he.behind _ (List.mem_cons_self ..) l.nr rfl
        refine .inr ⟨j,?_,he.down,fun n hn => ?_,fun n hjn hn => ?_,fun call hcall n hn => ?_⟩
        · rcases List.mem_cons.mp he.loop with heq | hmem
          · cases heq
          · exact List.mem_append_right _ hmem
        · have hne : (⟨l.ts,n⟩ : LchanId) ≠ l := by
            intro heq
            rw [heq] at hn
            simp at hn
          rw [Bsc.updLchan_ne _ _ _ hne] at hn
          refine ⟨(he.rest n hn).1,(he.rest n hn).2.imp id ?_⟩
          rintro ⟨call,hcall,hc⟩
          rcases List.mem_cons.mp hcall with rfl | hmem
          · exact absurd hc.symm hne
          · exact ⟨call,List.mem_append_right _ hmem,hc⟩
        · have hne : (⟨l.ts,n⟩ : LchanId) ≠ l := by
            intro heq
            have : n = l.nr := congrArg LchanId.nr heq
            omega
          rw [Bsc.updLchan_ne _ _ _ hne]
          exact he.ahead n hjn hn
        · rcases List.mem_append.mp hcall with hmem | hmem
          · rw [List.mem_singleton.mp hmem] at hn
            exact hn.elim
          · exact he.behind call (List.mem_cons_of_mem _ hmem) n hn
    · have hhead : ¬ Call.EndsAt t (.lchanCleanupRest l) := hne
      have hk : SameSlots w (w.updLchan l ({ · with fi := none })) t := by
        refine ⟨rfl,rfl,fun nr => ?_⟩
        rw [Bsc.updLchan_ne]
        rintro rfl
        exact hne rfl
      refine slots_append hk hhead ?_ (h.slots t)
      intro call hcall
      rw [List.mem_singleton.mp hcall]
      exact id
  · have hne : l' ≠ l := by
      rintro rfl
      simp at hl'
    rw [Bsc.updLchan_ne _ _ _ hne] at hl'
    refine (h.waiting l' hl').lift rfl (fun ha => absurd ha.symm hne) id ?_
    intro call hcall
    rw [List.mem_singleton.mp hcall]
    exact id

end Lchan

section Slots

variable {cfg : TsId → TsCfg} {w w' : Bsc} {calls : List Call} {t : TsId}

theorem pchanSubslots_le (p : Pchan) : pchanSubslots p ≤ 8 := by
  cases p <;> decide

def Full (w : Bsc) (t : TsId) : Prop :=
  ∀ nr, (w.lchan ⟨t,nr⟩).fi.isSome ↔ nr < pchanSubslots (w.ts t).pchanOnInit

theorem Ending.answers {l : LchanId} {j : Nat} (h : Ending w calls l.ts j)
    (hl : (w.lchan l).fi.isSome) : ∃ call ∈ calls, Answers w l call := by
  rcases (h.rest l.nr hl).2 with hj | ⟨call,hcall,hc⟩
  · exact ⟨_,h.loop,rfl,hj⟩
  · refine ⟨call,hcall,?_⟩
    cases call <;> first | exact hc | exact hc.elim

/-- An lchan that has an FSM belongs to a timeslot that has all of them, or to
one whose FSMs are just being ended. -/
theorem full_or_answered {l : LchanId} (hl : (w.lchan l).fi.isSome)
    (h : Stable cfg w calls l.ts ∨ ∃ j, Ending w calls l.ts j) :
    Full w l.ts ∨ ∃ call ∈ calls, Answers w l call := by
  rcases h with hs | ⟨j,he⟩
  · left
    rcases hs.lchans with ⟨-,hp,hf⟩ | ⟨-,-,hf⟩
    · intro nr
      rw [hp,hf]
    · rw [hf l.nr] at hl
      cases hl
  · exact .inr (he.answers hl)

theorem Full.hasLchanAt {nr i : Nat} (h : Full w t) (hl : (w.lchan ⟨t,nr⟩).fi.isSome)
    (hi : i ≤ nr) : w.hasLchanAt t (w.ts t).pchanOnInit i = true := by
  have hnr := (h nr).mp hl
  have hle := pchanSubslots_le (w.ts t).pchanOnInit
  have hlt : i < pchanSubslots (w.ts t).pchanOnInit := by omega
  have h8 : i < 8 := by omega
  simp [Bsc.hasLchanAt,(h i).mpr hlt,hlt,h8]

theorem mem_lchansFrom {p : Pchan} {n i m : Nat} (him : i ≤ m) (hmn : m < i + n)
    (h : ∀ k, i ≤ k → k ≤ m → w.hasLchanAt t p k = true) :
    (⟨t,m⟩ : LchanId) ∈ w.lchansFrom t p n i := by
  induction n generalizing i with
  | zero => omega
  | succ n ih =>
    simp only [Bsc.lchansFrom,h i (Nat.le_refl i) him,if_true]
    rcases Nat.eq_or_lt_of_le him with rfl | hlt
    · exact List.mem_cons_self ..
    · refine List.mem_cons_of_mem _ (ih hlt (by omega) fun k hk => h k (by omega))

theorem Full.waiting {l : LchanId} (h : Full w l.ts) (hl : (w.lchan l).fi = some .waitTsReady) :
    w.tsLchansWaiting l.ts ≠ 0 := by
  have hsome : (w.lchan ⟨l.ts,l.nr⟩).fi.isSome := by
    rw [hl]
    rfl
  have hlt := (h l.nr).mp hsome
  have hle := pchanSubslots_le (w.ts l.ts).pchanOnInit
  have hmem : l ∈ w.potentialLchans l.ts :=
    mem_lchansFrom (Nat.zero_le _) (by omega) fun k _ hk => h.hasLchanAt hsome hk
  have hpos : l ∈ (w.potentialLchans l.ts).filter
      (fun l => (w.lchan l).fi == some .waitTsReady) := by
    rw [List.mem_filter]
    exact ⟨hmem,by rw [hl]; rfl⟩
  exact Nat.ne_of_gt (List.length_pos_of_mem hpos)

end Slots

section Timeslot

variable {cfg : TsId → TsCfg} {w w' : Bsc} {head : Call} {new rest : List Call} {t : TsId}

/-- The call is about timeslot `t` alone. -/
structure Concerns (w : Bsc) (t : TsId) (head : Call) : Prop where
  answers : ∀ l, Answers w l head → l.ts = t
  next : ∀ l, AnswersNext w l head → l.ts = t
  ends : head.ending = false

/-- What a call about timeslot `t` may change and make of calls. -/
structure Within (t : TsId) (w w' : Bsc) (new : List Call) : Prop where
  others : ∀ t', t' ≠ t → w'.ts t' = w.ts t'
  pchan : (w'.ts t).pchanOnInit = (w.ts t).pchanOnInit
  oml : (w'.ts t).isOmlReady = (w.ts t).isOmlReady
  fi : ∀ l, (w'.lchan l).fi = (w.lchan l).fi
  tame : new.all Call.tame = true
  breaks : ∀ call ∈ new, ∀ t', call.Breaks t' → t' = t

theorem Within.same (h : Within t w w' new) (t' : TsId) : SameSlots w w' t' := by
  rcases eq_or_ne t' t with rfl | hne
  · exact ⟨h.pchan,h.oml,fun nr => by rw [h.fi]⟩
  · exact ⟨by rw [h.others t' hne],by rw [h.others t' hne],fun nr => by rw [h.fi]⟩

/-- The step of a call about timeslot `t` comes down to the lchans of `t`. -/
theorem Wakeup.step_ts (h : Wakeup cfg w (head :: rest)) (hc : Concerns w t head)
    (hw : Within t w w' new)
    (hmain : ∀ l, l.ts = t → (w.lchan l).fi = some .waitTsReady → Full w' t →
      Pending w (head :: rest) l → Pending w' (new ++ rest) l) : Wakeup cfg w' (new ++ rest) := by
  have htame := fun call hcall => Call.tame_iff.mp (List.all_eq_true.mp hw.tame call hcall)
  have hslots := slots_tame hw.same hc.ends (fun call hcall => (htame call hcall).2.2.1) h.slots
  refine ⟨order_tame h.order hw.tame,wf_append h.wf fun call hcall => (htame call hcall).2.2.2,
    hslots,fun l hl => ?_⟩
  rw [hw.fi] at hl
  rcases eq_or_ne l.ts t with rfl | hne
  · have hsome : (w'.lchan l).fi.isSome := by
      rw [hw.fi,hl]
      rfl
    rcases full_or_answered hsome (hslots l.ts) with hfull | hans
    · exact hmain l rfl hl hfull (h.waiting l hl)
    · exact .inl hans
  · refine (h.waiting l hl).lift (hw.others _ hne) (fun ha => absurd (hc.answers l ha) hne)
      (fun ha => hne (hc.next l ha)) fun call hcall hb => hne (hw.breaks call hcall _ hb)

theorem Pending.of_error {l : LchanId} {st : TsState} (hl : l.ts = t) :
    Pending w' (tsFsmError t st ++ rest) l :=
  .of_new (.tsLchansDispatch t (some .waitTsReady) .tsError 0) (by simp [tsFsmError])
    ⟨hl.symm,Nat.zero_le _,.inr rfl,.inr rfl⟩

theorem Pending.lift_switching {l : LchanId} (h : Pending w (head :: rest) l)
    (hp : (w'.ts l.ts).pchanOnInit = (w.ts l.ts).pchanOnInit)
    (hans : ¬ Answers w l head) (hnew : ∀ call ∈ new, ¬ call.Breaks l.ts)
    (hsw : (w.ts l.ts).fi.switching ∨ AnswersNext w l head → (w'.ts l.ts).fi.switching
      ∨ ∃ call calls, new = call :: calls ∧ AnswersNext w' l call) :
    Pending w' (new ++ rest) l := by
  rcases h with ⟨call,hcall,ha⟩ | ⟨hb,hs⟩
  · rcases List.mem_cons.mp hcall with rfl | hcall
    · exact absurd ha hans
    · exact .of_rest hcall ha hp
  · refine .inr ⟨not_breaks_append hb hnew,?_⟩
    have hold : (w.ts l.ts).fi.switching ∨ AnswersNext w l head := by
      rcases hs with hs | ⟨call,rest',heq,hn⟩
      · exact .inl hs
      · cases heq
        exact .inr hn
    rcases hsw hold with h | ⟨call,calls,rfl,hn⟩
    · exact .inl h
    · exact .inr ⟨call,calls ++ rest,rfl,hn⟩

theorem Within.refl (htame : new.all Call.tame = true)
    (hbreaks : ∀ call ∈ new, ∀ t', call.Breaks t' → t' = t) : Within t w w new :=
  ⟨fun _ _ => rfl,rfl,rfl,fun _ => rfl,htame,hbreaks⟩

theorem Within.updTs {f : Ts → Ts} (hp : (f (w.ts t)).pchanOnInit = (w.ts t).pchanOnInit)
    (ho : (f (w.ts t)).isOmlReady = (w.ts t).isOmlReady) (htame : new.all Call.tame = true)
    (hbreaks : ∀ call ∈ new, ∀ t', call.Breaks t' → t' = t) : Within t w (w.updTs t f) new :=
  ⟨fun _ hne => Bsc.updTs_ne _ _ _ hne,by simpa using hp,by simpa using ho,fun _ => rfl,htame,hbreaks⟩

theorem Within.trans {w1 : Bsc} (h : Within t w w1 []) (h' : Within t w1 w' new) :
    Within t w w' new :=
  ⟨fun t' hne => (h'.others t' hne).trans (h.others t' hne),h'.pchan.trans h.pchan,
    h'.oml.trans h.oml,fun l => (h'.fi l).trans (h.fi l),h'.tame,h'.breaks⟩

theorem tsFsmError_breaks {st : TsState} : ∀ call ∈ tsFsmError t st, ∀ t', call.Breaks t' → t' = t := by
  intro call hcall t' hb
  simp only [tsFsmError,List.mem_cons,List.not_mem_nil,or_false] at hcall
  rcases hcall with rfl | rfl
  · exact hb.elim
  · exact hb.symm

theorem within_error {st : TsState} (hst : st = .borken ∨ st = .unused) :
    Within t w w (tsFsmError t st) := by
  refine .refl ?_ tsFsmError_breaks
  rcases hst with rfl | rfl <;> rfl

theorem not_breaks_stateChg {st : TsState} :
    ∀ call ∈ [Call.tsStateChg t st], ∀ t', call.Breaks t' → t' = t := by
  intro call hcall t' hb
  rw [List.mem_singleton.mp hcall] at hb
  exact hb.elim

theorem tsUnusedOnenter_spec :
    Ensures (fun r => Within t w r.1 r.2 ∧ (r.1.ts t).fi = (w.ts t).fi
      ∧ (w.tsLchansWaiting t ≠ 0 → r.2 = tsFsmError t .borken)) (tsUnusedOnenter cfg t w) := by
  have hnil : Within t w w [] := .refl rfl (by simp)
  unfold tsUnusedOnenter
  split
  · exact ensures_ok.mpr ⟨within_error (.inl rfl),rfl,fun _ => rfl⟩
  · rename_i hz
    have hno {p : Prop} (h : w.tsLchansWaiting t ≠ 0) : p := absurd h hz
    split
    · repeat' split
      · exact ensures_ok.mpr ⟨hnil,rfl,fun h => hno h⟩
      · exact ensures_ok.mpr ⟨hnil,rfl,fun h => hno h⟩
      · exact ensures_ok.mpr ⟨.refl rfl not_breaks_stateChg,rfl,fun h => hno h⟩
    · repeat' split
      · exact ensures_ok.mpr ⟨hnil,rfl,fun h => hno h⟩
      · exact ensures_ok.mpr ⟨hnil,rfl,fun h => hno h⟩
      · exact ensures_ok.mpr ⟨.refl rfl not_breaks_stateChg,rfl,fun h => hno h⟩
    all_goals try exact ensures_ok.mpr ⟨hnil,rfl,fun h => hno h⟩
    all_goals
      split
      · exact ensures_error
      · refine ensures_ok.mpr ⟨?_,rfl,fun h => hno h⟩
        have hk : Keeps Lchan.fi w (w.updLchan ⟨t,2⟩ ({ · with type := .cbch })) := by simp
        exact ⟨fun _ _ => rfl,rfl,rfl,hk.lchan,rfl,by simp [Call.Breaks]⟩

theorem lchansFrom_updTs (f : Ts → Ts) (p : Pchan) (t' : TsId) (n i : Nat) :
    (w.updTs t f).lchansFrom t' p n i = w.lchansFrom t' p n i := by
  induction n generalizing i with
  | zero => rfl
  | succ n ih =>
    simp only [Bsc.lchansFrom,ih]
    rfl

theorem tsLchansWaiting_updTs {f : Ts → Ts}
    (hp : (f (w.ts t)).pchanOnInit = (w.ts t).pchanOnInit) :
    (w.updTs t f).tsLchansWaiting t = w.tsLchansWaiting t := by
  simp only [Bsc.tsLchansWaiting,Bsc.potentialLchans,lchansFrom_updTs,Bsc.updTs_self,hp,
    Bsc.updTs_lchan]

theorem tsPdchOnenter_spec :
    Ensures (fun r => Within t w r.1 r.2 ∧ (r.1.ts t).fi = (w.ts t).fi
      ∧ (w.tsLchansWaiting t ≠ 0 →
        r.2 = tsFsmError t .borken ∨ r.2 = [.tsStateChg t .waitPdchDeact])) (tsPdchOnenter t w) := by
  have hswitch : Ensures (fun r => Within t w r.1 r.2 ∧ (r.1.ts t).fi = (w.ts t).fi
      ∧ (w.tsLchansWaiting t ≠ 0 →
        r.2 = tsFsmError t .borken ∨ r.2 = [.tsStateChg t .waitPdchDeact]))
      (if (w.updTs t ({ · with pchanIs := .pdch })).tsLchansWaiting t ≠ 0 then
        .ok (w.updTs t ({ · with pchanIs := .pdch }),[.tsStateChg t .waitPdchDeact])
      else .ok (w.updTs t ({ · with pchanIs := .pdch }),[]) : Outcome) := by
    rw [tsLchansWaiting_updTs rfl]
    split
    · have h : Within t w (w.updTs t ({ · with pchanIs := .pdch })) [.tsStateChg t .waitPdchDeact] :=
        .updTs rfl rfl rfl not_breaks_stateChg
      exact ensures_ok.mpr ⟨h,by simp,fun _ => .inr rfl⟩
    · rename_i hz
      have h : Within t w (w.updTs t ({ · with pchanIs := .pdch })) [] :=
        .updTs rfl rfl rfl (by simp)
      exact ensures_ok.mpr ⟨h,by simp,fun h => absurd h hz⟩
  unfold tsPdchOnenter
  split
  · exact hswitch
  · exact hswitch
  · exact hswitch
  · exact ensures_ok.mpr ⟨within_error (.inl rfl),rfl,fun _ => .inl rfl⟩

def EnterCalls (t : TsId) (st : TsState) (new : List Call) : Prop :=
  new = tsFsmError t .borken ∨ match st with
    | .unused => False
    | .waitPdchAct | .waitPdchDeact | .notInitialized | .borken => new = []
    | .pdch => new = [.tsStateChg t .waitPdchDeact]
    | .inUse => new = [.tsInUseOnenter t 0 .none]

theorem tsOnenter_spec (x : Foreign) (st : TsState) :
    Ensures (fun r => Within t w r.1 r.2 ∧ (r.1.ts t).fi = (w.ts t).fi
      ∧ (w.tsLchansWaiting t ≠ 0 → EnterCalls t st r.2)) (tsOnenter cfg x t st w) := by
  have hnil : Within t w w [] := .refl rfl (by simp)
  have herror : Within t w w (tsFsmError t .borken) := within_error (.inl rfl)
  cases st with
  | unused => exact tsUnusedOnenter_spec.mono fun r h => ⟨h.1,h.2.1,fun hz => .inl (h.2.2 hz)⟩
  | waitPdchAct | waitPdchDeact =>
    simp only [tsOnenter]
    split
    · exact ensures_ok.mpr ⟨herror,rfl,fun _ => .inl rfl⟩
    · exact ensures_ok.mpr ⟨hnil,rfl,fun _ => .inr rfl⟩
  | pdch => exact tsPdchOnenter_spec
  | inUse =>
    have h : Within t w (w.updTs t ({ · with pdchActAllowed := true }))
        [.tsInUseOnenter t 0 .none] := by
      refine .updTs rfl rfl rfl fun call hcall t' hb => ?_
      rw [List.mem_singleton.mp hcall] at hb
      exact hb.elim
    exact ensures_ok.mpr ⟨h,by simp,fun _ => .inr rfl⟩
  | notInitialized | borken => exact ensures_ok.mpr ⟨hnil,rfl,fun _ => .inr rfl⟩

theorem concerns_stateChg (st : TsState) : Concerns w t (.tsStateChg t st) :=
  ⟨fun _ h => h.elim,fun _ h => h.1.symm,rfl⟩

theorem concerns_errorChg (st : TsState) : Concerns w t (.tsErrorChg t st) :=
  ⟨fun _ h => h.elim,fun _ h => h.elim,rfl⟩

theorem tsStateChg_spec {x : Foreign} {st : TsState} (hout : tsFsm.outState (w.ts t).fi st = true)
    (he : tsStateChg cfg x t st w = .ok (w',new)) :
    Within t w w' new ∧ (w'.ts t).fi = st
      ∧ (w.tsLchansWaiting t ≠ 0 → EnterCalls t st new) := by
  unfold tsStateChg at he
  rw [if_pos hout] at he
  obtain ⟨hwithin,hfi,hcalls⟩ := tsOnenter_spec x st _ he
  have hupd : Within t w (w.updTs t ({ · with fi := st })) [] := .updTs rfl rfl rfl (by simp)
  refine ⟨hupd.trans hwithin,by simpa using hfi,fun hz => hcalls ?_⟩
  rwa [tsLchansWaiting_updTs rfl]

theorem Within.full (h : Within t w w' new) (hf : Full w' t) : Full w t := by
  intro nr
  rw [← h.fi,← h.pchan]
  exact hf nr

theorem Wakeup.step_tsStateChg {x : Foreign} {st : TsState}
    (h : Wakeup cfg w (.tsStateChg t st :: rest))
    (he : tsStateChg cfg x t st w = .ok (w',new)) : Wakeup cfg w' (new ++ rest) := by
  have hwf := h.wf _ (List.mem_cons_self ..)
  by_cases hout : tsFsm.outState (w.ts t).fi st = true
  · obtain ⟨hw,hfi,hcalls⟩ := tsStateChg_spec hout he
    refine h.step_ts (concerns_stateChg st) hw ?_
    rintro l rfl hl hfull hpend
    have hz := (hw.full hfull).waiting hl
    rcases hcalls hz with rfl | hnew
    · exact .of_error rfl
    · cases st with
      | unused => exact hnew.elim
      | inUse =>
        subst hnew
        exact .of_new (.tsInUseOnenter l.ts 0 .none) (by simp) ⟨rfl,.inl (Nat.zero_le _)⟩
      | waitPdchAct =>
        subst hnew
        exact hpend.lift_switching hw.pchan id (by simp) fun _ => .inl (.inl hfi)
      | waitPdchDeact =>
        subst hnew
        exact hpend.lift_switching hw.pchan id (by simp) fun _ => .inl (.inr hfi)
      | pdch =>
        subst hnew
        refine hpend.lift_switching hw.pchan id ?_ fun _ => .inr ⟨_,_,rfl,rfl,?_,.inr (.inr rfl)⟩
        · intro call hcall
          rw [List.mem_singleton.mp hcall]
          exact id
        · rw [hfi]
          rfl
      | notInitialized | borken => cases hwf
  · unfold tsStateChg at he
    rw [if_neg hout] at he
    cases he
    refine h.step_ts (concerns_stateChg st) (.refl rfl (by simp)) ?_
    rintro l rfl hl hfull hpend
    refine hpend.lift_switching rfl id (by simp) ?_
    rintro (hs | ⟨-,ho,-⟩)
    · exact .inl hs
    · exact absurd ho hout

theorem Wakeup.step_tsErrorChg {x : Foreign} {st : TsState}
    (h : Wakeup cfg w (.tsErrorChg t st :: rest))
    (he : tsErrorChg cfg x t st w = .ok (w',new)) : Wakeup cfg w' (new ++ rest) := by
  have hw : Within t w w' new := by
    unfold tsErrorChg at he
    split at he
    · by_cases hout : tsFsm.outState (w.ts t).fi st = true
      · exact (tsStateChg_spec hout he).1
      · unfold tsStateChg at he
        rw [if_neg hout] at he
        cases he
        exact .refl rfl (by simp)
    · cases he
      exact .refl rfl (by simp)
  refine h.step_ts (concerns_errorChg st) hw ?_
  rintro l rfl hl hfull (⟨call,hcall,ha⟩ | ⟨hb,-⟩)
  · rcases List.mem_cons.mp hcall with rfl | hcall
    · exact ha.elim
    · exact .of_rest hcall ha hw.pchan
  · exact absurd rfl (hb _ (List.mem_cons_self ..))

theorem tsLchansDispatch_spec {st : Option LchanState} {ev : LchanEvent} {i : Nat}
    (he : tsLchansDispatch t st ev i w = .ok (w',new)) :
    w' = w ∧ (new = [] ∧ w.hasLchanAt t (w.ts t).pchanOnInit i = false
      ∨ new = [.tsLchansDispatch t st ev (i+1)] ∧ st.all ((w.lchan ⟨t,i⟩).stateIs ·) = false
      ∨ new = [.lchanDispatch ⟨t,i⟩ ev,.assertNotWaiting ⟨t,i⟩,.tsLchansDispatch t st ev (i+1)]) := by
  unfold tsLchansDispatch at he
  split at he
  · rename_i hat
    have hsome : (w.lchan ⟨t,i⟩).fi.isSome := by
      simp only [Bsc.hasLchanAt,Bool.and_eq_true] at hat
      exact hat.1.2
    split at he
    · cases he
      exact ⟨rfl,.inr (.inr (by simp [tsLchanDispatch,hsome]))⟩
    · rename_i hall
      cases he
      exact ⟨rfl,.inr (.inl ⟨rfl,by simpa using hall⟩)⟩
  · rename_i hat
    cases he
    exact ⟨rfl,.inl ⟨rfl,by simpa using hat⟩⟩

theorem Wakeup.step_tsLchansDispatch {st : Option LchanState} {ev : LchanEvent} {i : Nat}
    (h : Wakeup cfg w (.tsLchansDispatch t st ev i :: rest))
    (he : tsLchansDispatch t st ev i w = .ok (w',new)) : Wakeup cfg w' (new ++ rest) := by
  have hev : ev = .tsReady ∨ ev = .tsError := by
    simpa [Call.wf] using h.wf _ (List.mem_cons_self ..)
  have hc : Concerns w t (.tsLchansDispatch t st ev i) :=
    ⟨fun _ h => h.1.symm,fun _ h => h.elim,rfl⟩
  obtain ⟨rfl,hnew⟩ := tsLchansDispatch_spec he
  have hb : ∀ call ∈ new, ∀ t', ¬ call.Breaks t' := by
    rcases hnew with ⟨rfl,-⟩ | ⟨rfl,-⟩ | rfl <;> simp [Call.Breaks]
  have hw : Within t w' w' new := by
    refine .refl ?_ fun call hcall t' hbreaks => absurd hbreaks (hb call hcall t')
    rcases hev with rfl | rfl <;> rcases hnew with ⟨rfl,-⟩ | ⟨rfl,-⟩ | rfl <;> rfl
  refine h.step_ts hc hw ?_
  rintro l rfl hl hfull hpend
  refine hpend.lift rfl ?_ id fun call hcall => hb call hcall _
  rintro ⟨-,hi,hst,hev⟩
  have hsome : (w'.lchan ⟨l.ts,l.nr⟩).fi.isSome := by
    rw [hl]
    rfl
  have hat := hfull.hasLchanAt hsome hi
  rcases hnew with ⟨-,hnot⟩ | ⟨rfl,hskip⟩ | rfl
  · rw [hat] at hnot
    cases hnot
  · refine ⟨_,List.mem_cons_self ..,rfl,?_,hst,hev⟩
    rcases Nat.eq_or_lt_of_le hi with rfl | hlt
    · have hfi : (w'.lchan ⟨l.ts,l.nr⟩).fi = some .waitTsReady := hl
      rcases hst with rfl | rfl
      · cases hskip
      · simp [Lchan.stateIs,hfi] at hskip
    · exact hlt
  · rcases Nat.eq_or_lt_of_le hi with rfl | hlt
    · exact ⟨_,List.mem_cons_self ..,rfl,hev⟩
    · exact ⟨.tsLchansDispatch l.ts st ev (i+1),by simp,rfl,hlt,hst,hev⟩

/-- The loop of `ts_fsm_in_use_onenter` answers an lchan it comes by, or finds
a channel type that fits and answers all of them at its end. -/
structure InUseCalls (w w' : Bsc) (new : List Call) (t : TsId) (i : Nat) (type : ChanT) : Prop where
  within : Within t w w' new
  fi : (w'.ts t).fi = (w.ts t).fi
  breaks : ∀ call ∈ new, ∀ t', ¬ call.Breaks t'
  go : w.hasLchanAt t (w.ts t).pchanOnInit i = true → ∃ type',
    Call.tsInUseOnenter t (i+1) type' ∈ new ∧ (Fits w t type → Fits w t type')
      ∧ ((w.lchan ⟨t,i⟩).fi = some .waitTsReady →
        Call.lchanDispatch ⟨t,i⟩ .tsError ∈ new ∨ Fits w t type')
  done : w.hasLchanAt t (w.ts t).pchanOnInit i = false → Fits w t type →
    Call.tsLchansDispatch t (some .waitTsReady) .tsReady 0 ∈ new

theorem inUseCalls_next {i : Nat} {type type' : ChanT}
    (hat : w.hasLchanAt t (w.ts t).pchanOnInit i = true) (hfit : Fits w t type → Fits w t type')
    (hl : (w.lchan ⟨t,i⟩).fi = some .waitTsReady → Fits w t type') :
    InUseCalls w w [.tsInUseOnenter t (i+1) type'] t i type := by
  have hb : ∀ call ∈ [Call.tsInUseOnenter t (i+1) type'], ∀ t', ¬ call.Breaks t' := by
    simp [Call.Breaks]
  refine ⟨.refl rfl fun call hcall t' h => absurd h (hb call hcall t'),rfl,hb,fun _ => ?_,?_⟩
  · exact ⟨type',List.mem_cons_self ..,hfit,fun h => .inr (hl h)⟩
  · rw [hat]
    exact fun h => by cases h

theorem inUseCalls_error {i : Nat} {type : ChanT}
    (hat : w.hasLchanAt t (w.ts t).pchanOnInit i = true) :
    InUseCalls w w (tsLchanDispatch w ⟨t,i⟩ .tsError ++ [Call.tsInUseOnenter t (i+1) type]) t i type := by
  have hsome : (w.lchan ⟨t,i⟩).fi.isSome := by
    simp only [Bsc.hasLchanAt,Bool.and_eq_true] at hat
    exact hat.1.2
  have hnew : tsLchanDispatch w ⟨t,i⟩ .tsError ++ [Call.tsInUseOnenter t (i+1) type] =
      [.lchanDispatch ⟨t,i⟩ .tsError,.assertNotWaiting ⟨t,i⟩,.tsInUseOnenter t (i+1) type] := by
    simp [tsLchanDispatch,hsome]
  rw [hnew]
  have hb : ∀ call ∈ [Call.lchanDispatch ⟨t,i⟩ .tsError,.assertNotWaiting ⟨t,i⟩,
      .tsInUseOnenter t (i+1) type], ∀ t', ¬ call.Breaks t' := by
    simp [Call.Breaks]
  refine ⟨.refl rfl fun call hcall t' h => absurd h (hb call hcall t'),rfl,hb,fun _ => ?_,?_⟩
  · exact ⟨type,by simp,id,fun _ => .inl (List.mem_cons_self ..)⟩
  · rw [hat]
    exact fun h => by cases h

theorem inUseCalls_unfit {i : Nat} {type : ChanT}
    (hat : ¬ w.hasLchanAt t (w.ts t).pchanOnInit i = true) (hfit : ¬ Fits w t type)
    (htame : new.all Call.tame = true) (hb : ∀ call ∈ new, ∀ t', ¬ call.Breaks t') :
    InUseCalls w w new t i type :=
  ⟨.refl htame fun call hcall t' h => absurd h (hb call hcall t'),rfl,hb,
    fun h => absurd h hat,fun _ h => absurd h hfit⟩

theorem inUseCalls_fit {i : Nat} {type : ChanT} {f : Ts → Ts}
    (hat : ¬ w.hasLchanAt t (w.ts t).pchanOnInit i = true)
    (hp : (f (w.ts t)).pchanOnInit = (w.ts t).pchanOnInit)
    (ho : (f (w.ts t)).isOmlReady = (w.ts t).isOmlReady) (hf : (f (w.ts t)).fi = (w.ts t).fi) :
    InUseCalls w (w.updTs t f) [.tsLchansDispatch t (some .waitTsReady) .tsReady 0] t i type := by
  have hb : ∀ call ∈ [Call.tsLchansDispatch t (some .waitTsReady) .tsReady 0],
      ∀ t', ¬ call.Breaks t' := by
    simp [Call.Breaks]
  exact ⟨.updTs hp ho rfl fun call hcall t' h => absurd h (hb call hcall t'),by simpa using hf,hb,
    fun h => absurd h hat,fun _ _ => List.mem_cons_self ..⟩

theorem updTs_id (w : Bsc) (t : TsId) : w.updTs t id = w := by
  simp [Bsc.updTs]

theorem tsInUseOnenter_spec {i : Nat} {type : ChanT}
    (he : tsInUseOnenter t i type w = .ok (w',new)) : InUseCalls w w' new t i type := by
  unfold tsInUseOnenter at he
  extract_lets l ltype ok w1 at he
  split at he
  · rename_i hat
    have hok : ok = true → Fits w t ltype := by
      intro h
      simp only [ok,Bool.and_eq_true,Bool.or_eq_true,beq_iff_eq] at h
      refine ⟨?_,h.2⟩
      rcases h.1 with (h | h) | h
      · exact .inr (.inr h)
      · exact .inr (.inl h)
      · exact .inl h
    split at he
    · rename_i hunused
      cases he
      refine inUseCalls_next hat id fun h => ?_
      simp [l,Lchan.stateIs,h] at hunused
    · split at he
      · split at he
        · cases he
          exact inUseCalls_error hat
        · rename_i hnot
          cases he
          refine inUseCalls_next hat id fun h => ?_
          simp [l,Lchan.stateIs,h] at hnot
      · rename_i hgood
        have hfit := hok (by simpa using hgood)
        split at he
        · rename_i hnone
          cases he
          refine inUseCalls_next hat (fun h => ?_) fun _ => hfit
          subst hnone
          rcases h.1 with h | h | h <;> cases h
        · split at he
          · cases he
            exact inUseCalls_error hat
          · rename_i heq
            cases he
            have : type = ltype := by simpa using heq
            exact inUseCalls_next hat id fun _ => this ▸ hfit
  · rename_i hat
    have hstate : ∀ call ∈ [Call.tsStateChg t .unused], ∀ t', ¬ call.Breaks t' := by
      simp [Call.Breaks]
    have hfits : type = .sdcch ∨ type = .tchF ∨ type = .tchH →
        (if tsIsCapableOfLchant (w.ts t) type = true then
          .ok (w1,[.tsLchansDispatch t (some .waitTsReady) .tsReady 0])
        else .ok (w,[.tsStateChg t .unused]) : Outcome) = .ok (w',new) →
        InUseCalls w w' new t i type := by
      intro htype he
      split at he
      · simp only [Except.ok.injEq,Prod.mk.injEq] at he
        rw [← he.1,← he.2]
        dsimp only [w1]
        split
        · exact inUseCalls_fit hat rfl rfl rfl
        · have hfit : InUseCalls w (w.updTs t id)
              [.tsLchansDispatch t (some .waitTsReady) .tsReady 0] t i type :=
            inUseCalls_fit hat rfl rfl rfl
          rwa [updTs_id] at hfit
      · rename_i hcap
        cases he
        exact inUseCalls_unfit hat (fun h => hcap h.2) rfl hstate
    split at he
    · exact hfits (.inl rfl) he
    · exact hfits (.inr (.inl rfl)) he
    · exact hfits (.inr (.inr rfl)) he
    · cases he
      refine inUseCalls_unfit hat (fun h => ?_) rfl hstate
      rcases h.1 with h | h | h <;> cases h
    · rename_i h1 h2 h3 h4
      cases he
      refine inUseCalls_unfit hat (fun h => ?_) rfl (by simp [Call.Breaks])
      rcases h.1 with h | h | h
      · exact h1 h
      · exact h2 h
      · exact h3 h

theorem Wakeup.step_tsInUseOnenter {i : Nat} {type : ChanT}
    (h : Wakeup cfg w (.tsInUseOnenter t i type :: rest))
    (he : tsInUseOnenter t i type w = .ok (w',new)) : Wakeup cfg w' (new ++ rest) := by
  have hs := tsInUseOnenter_spec he
  have hc : Concerns w t (.tsInUseOnenter t i type) :=
    ⟨fun _ h => h.1.symm,fun _ h => h.elim,rfl⟩
  refine h.step_ts hc hs.within ?_
  rintro l rfl hl hfull hpend
  refine hpend.pass hs.within.pchan hs.fi ?_ id fun call hcall => hs.breaks call hcall _
  rintro ⟨-,hans⟩
  have hsome : (w.lchan ⟨l.ts,l.nr⟩).fi.isSome := by
    rw [hl]
    rfl
  have hfits : ∀ {type'}, Fits w l.ts type' → Fits w' l.ts type' := fun hf =>
    ⟨hf.1,(tsIsCapableOfLchant_congr hs.within.pchan _).trans hf.2⟩
  cases hat : w.hasLchanAt l.ts (w.ts l.ts).pchanOnInit i with
  | true =>
    obtain ⟨type',hmem,hfit,hwait⟩ := hs.go hat
    rcases hans with hi | hf
    · rcases Nat.eq_or_lt_of_le hi with rfl | hlt
      · rcases hwait hl with hd | hf
        · exact ⟨_,hd,rfl,.inr rfl⟩
        · exact ⟨_,hmem,rfl,.inr (hfits hf)⟩
      · exact ⟨_,hmem,rfl,.inl hlt⟩
    · exact ⟨_,hmem,rfl,.inr (hfits (hfit hf))⟩
  | false =>
    rcases hans with hi | hf
    · rw [(hs.within.full hfull).hasLchanAt hsome hi] at hat
      cases hat
    · exact ⟨_,hs.done hat hf,rfl,Nat.zero_le _,.inr rfl,.inl rfl⟩

theorem Wakeup.step_tsTimeout (h : Wakeup cfg w (.tsTimeout t :: rest))
    (he : tsTimeout t w = .ok (w',new)) : Wakeup cfg w' (new ++ rest) := by
  have hc : Concerns w t (.tsTimeout t) := ⟨fun _ h => h.elim,fun _ h => h.elim,rfl⟩
  unfold tsTimeout at he
  split at he
  · cases he
    refine h.step_ts hc (within_error (.inl rfl)) ?_
    rintro l rfl - - -
    exact .of_error rfl
  · cases he
    refine h.step_ts hc (within_error (.inl rfl)) ?_
    rintro l rfl - - -
    exact .of_error rfl
  · cases he
    refine h.step_ts hc (.refl rfl (by simp)) ?_
    rintro l rfl - - hpend
    exact hpend.lift rfl (fun ha => ha.elim) id (by simp)

section Terminate

variable {i : Nat}

theorem Wakeup.loop_ends_only (h : Wakeup cfg w (.tsTerminateLchanFsms t i :: rest)) :
    ∀ call ∈ rest, ∀ l, ¬ call.EndsLchan l := fun call hcall _ hl =>
  Call.not_endsAt (((List.pairwise_cons.mp h.order).1 call hcall).loop rfl) _ hl.endsAt

theorem Wakeup.loop_ending (h : Wakeup cfg w (.tsTerminateLchanFsms t i :: rest)) :
    Ending w (.tsTerminateLchanFsms t i :: rest) t i := by
  rcases h.slots t with hs | ⟨j,hj⟩
  · exact absurd rfl (hs.quiet _ (List.mem_cons_self ..))
  · rcases List.mem_cons.mp hj.loop with heq | hmem
    · cases heq
      exact hj
    · have := ((List.pairwise_cons.mp h.order).1 _ hmem).loop rfl
      cases this

theorem Call.loop_not_endsAt {t' : TsId} (hne : t' ≠ t) :
    ¬ Call.EndsAt t' (.tsTerminateLchanFsms t i) := fun heq => hne heq.symm

theorem Wakeup.loop_ahead (h : Wakeup cfg w (.tsTerminateLchanFsms t i :: rest)) {nr : Nat}
    (hnr : (w.lchan ⟨t,nr⟩).fi.isSome) : i ≤ nr := by
  rcases (h.loop_ending.rest nr hnr).2 with hi | ⟨call,hcall,hc⟩
  · exact hi
  · rcases List.mem_cons.mp hcall with rfl | hmem
    · exact hc.elim
    · exact absurd hc (h.loop_ends_only call hmem _)

theorem Wakeup.loop_none (h : Wakeup cfg w (.tsTerminateLchanFsms t i :: rest))
    (hat : ¬ w.hasLchanAt t (w.ts t).pchanOnInit i = true) (nr : Nat) :
    (w.lchan ⟨t,nr⟩).fi = none := by
  cases hnr : (w.lchan ⟨t,nr⟩).fi with
  | none => rfl
  | some st =>
    have hend := h.loop_ending
    have hsome : (w.lchan ⟨t,nr⟩).fi.isSome := by
      rw [hnr]
      rfl
    have hi := h.loop_ahead hsome
    have hlt : i < pchanSubslots (w.ts t).pchanOnInit :=
      Nat.lt_of_le_of_lt hi (hend.rest nr hsome).1
    have h8 := pchanSubslots_le (w.ts t).pchanOnInit
    have : i < 8 := by omega
    simp [Bsc.hasLchanAt,hend.ahead i (Nat.le_refl i) hlt,hlt,this] at hat

theorem Wakeup.loop_order (h : Wakeup cfg w (.tsTerminateLchanFsms t i :: rest)) :
    ((.lchanTerm ⟨t,i⟩ : Call) :: .tsTerminateLchanFsms t (i+1) :: rest).Pairwise Call.Above := by
  have hbelow := (List.pairwise_cons.mp h.order).1
  have hloop : ((.tsTerminateLchanFsms t (i+1) : Call) :: rest).Pairwise Call.Above := by
    rw [List.pairwise_cons]
    refine ⟨fun b hmem => ⟨rfl,(hbelow b hmem).lower,?_,?_⟩,
      (List.pairwise_cons.mp h.order).2⟩
    · intro hact
      cases hact
    · exact fun _ => (hbelow b hmem).loop rfl
  refine List.pairwise_cons.mpr ⟨fun b hmem => ⟨rfl,?_,?_,?_⟩,hloop⟩
  rotate_left
  · intro hact
    cases hact
  · intro hterm
    cases hterm
  rcases List.mem_cons.mp hmem with rfl | hmem
  · rfl
  · exact (hbelow b hmem).lower

theorem Wakeup.loop_next (h : Wakeup cfg w (.tsTerminateLchanFsms t i :: rest)) :
    Wakeup cfg w ([.lchanTerm ⟨t,i⟩,.tsTerminateLchanFsms t (i+1)] ++ rest) := by
  have hend := h.loop_ending
  have hb : ∀ call ∈ [Call.lchanTerm ⟨t,i⟩,.tsTerminateLchanFsms t (i+1)],
      ∀ t', ¬ call.Breaks t' := by
    simp [Call.Breaks]
  refine ⟨h.loop_order,wf_append h.wf (by simp [Call.wf]),fun t' => ?_,fun l hl => ?_⟩
  · rcases eq_or_ne t' t with rfl | hne
    · refine .inr ⟨i+1,by simp,hend.down,fun nr hnr => ⟨(hend.rest nr hnr).1,?_⟩,
        fun nr hnr => hend.ahead nr (by omega),fun call hcall nr hnr => ?_⟩
      · rcases Nat.eq_or_lt_of_le (h.loop_ahead hnr) with rfl | hlt
        · exact .inr ⟨.lchanTerm ⟨t',i⟩,by simp,rfl⟩
        · exact .inl hlt
      · rcases List.mem_append.mp hcall with hmem | hmem
        · simp only [List.mem_cons,List.not_mem_nil,or_false] at hmem
          rcases hmem with rfl | rfl
          · cases hnr
            omega
          · exact hnr.elim
        · exact absurd hnr (h.loop_ends_only call hmem _)
    · refine slots_append (.refl w t') (Call.loop_not_endsAt hne) ?_ (h.slots t')
      intro call hcall
      simp only [List.mem_cons,List.not_mem_nil,or_false] at hcall
      rcases hcall with rfl | rfl <;> exact fun heq => hne heq.symm
  · refine (h.waiting l hl).lift rfl ?_ id fun call hcall => hb call hcall _
    rintro ⟨rfl,hi⟩
    rcases Nat.eq_or_lt_of_le hi with rfl | hlt
    · exact ⟨.lchanTerm l,by simp,rfl⟩
    · exact ⟨.tsTerminateLchanFsms l.ts (i+1),by simp,rfl,hlt⟩

theorem Wakeup.loop_end (h : Wakeup cfg w (.tsTerminateLchanFsms t i :: rest))
    (hat : ¬ w.hasLchanAt t (w.ts t).pchanOnInit i = true) :
    Wakeup cfg (w.updTs t ({ · with pchanIs := .none, pchanOnInit := .none })) rest := by
  have hnone := h.loop_none hat
  rw [← List.nil_append rest]
  refine ⟨(List.pairwise_cons.mp h.order).2,fun call hcall => h.wf call (List.mem_cons_of_mem _ hcall),
    fun t' => ?_,fun l hl => ?_⟩
  · rcases eq_or_ne t' t with rfl | hne
    · refine .inl ⟨fun call hcall => ?_,.inr ⟨?_,?_,hnone⟩⟩
      · exact Call.not_endsAt (((List.pairwise_cons.mp h.order).1 call hcall).loop rfl) _
      · simpa using h.loop_ending.down
      · simp
    · have hts := Bsc.updTs_ne w t ({ · with pchanIs := .none, pchanOnInit := .none }) hne
      have hk : SameSlots w (w.updTs t ({ · with pchanIs := .none, pchanOnInit := .none })) t' :=
        ⟨by rw [hts],by rw [hts],fun _ => rfl⟩
      exact slots_append hk (Call.loop_not_endsAt hne) (by simp) (h.slots t')
  · have hne : l.ts ≠ t := by
      rintro rfl
      rw [Bsc.updTs_lchan] at hl
      rw [hnone l.nr] at hl
      cases hl
    exact (h.waiting l hl).lift (Bsc.updTs_ne _ _ _ hne) (fun ha => absurd ha.1.symm hne) id (by simp)

theorem Wakeup.step_tsTerminateLchanFsms (h : Wakeup cfg w (.tsTerminateLchanFsms t i :: rest))
    (he : tsTerminateLchanFsms t i w = .ok (w',new)) : Wakeup cfg w' (new ++ rest) := by
  unfold tsTerminateLchanFsms at he
  split at he
  · cases he
    exact h.loop_next
  · rename_i hat
    cases he
    exact h.loop_end hat

end Terminate

/-- Every branch of TS_EV_LCHAN_REQUESTED answers the lchan that asks, or leaves
it to a PDCH switchover that is under way or comes next. -/
structure RequestCalls (w w' : Bsc) (new : List Call) (t : TsId) (l : LchanId) : Prop where
  same : w' = w
  tame : new.all Call.tame = true
  calls : new = tsFsmError t .borken ∨ (∀ call ∈ new, ∀ t', ¬ call.Breaks t')
    ∧ (t = l.ts → (w.lchan l).fi = some .waitTsReady → (∃ call ∈ new, Answers w l call)
      ∨ (w.ts t).fi.switching ∨ ∃ call, new = [call] ∧ AnswersNext w l call)

theorem requestCalls_error {l : LchanId} :
    RequestCalls w w (tsLchanDispatch w l .tsError) t l := by
  unfold tsLchanDispatch
  split
  · refine ⟨rfl,rfl,.inr ⟨by simp [Call.Breaks],fun _ _ => .inl ?_⟩⟩
    exact ⟨_,List.mem_cons_self ..,rfl,.inr rfl⟩
  · rename_i hsome
    refine ⟨rfl,rfl,.inr ⟨by simp,fun _ hl => ?_⟩⟩
    rw [hl] at hsome
    exact absurd rfl hsome

theorem requestCalls_dispatch {l : LchanId} {ev : LchanEvent} (hev : ev = .tsReady ∨ ev = .tsError) :
    RequestCalls w w [.lchanDispatch l ev] t l := by
  refine ⟨rfl,?_,.inr ⟨by simp [Call.Breaks],fun _ _ => .inl ?_⟩⟩
  · rcases hev with rfl | rfl <;> rfl
  · exact ⟨_,List.mem_cons_self ..,rfl,hev⟩

theorem requestCalls_next {l : LchanId} {call : Call} (htame : call.tame = true)
    (hb : ∀ t', ¬ call.Breaks t')
    (hn : t = l.ts → (w.lchan l).fi = some .waitTsReady → AnswersNext w l call) :
    RequestCalls w w [call] t l := by
  refine ⟨rfl,by simp [htame],.inr ⟨?_,fun ht hl => .inr (.inr ⟨call,rfl,hn ht hl⟩)⟩⟩
  intro call' hcall'
  rw [List.mem_singleton.mp hcall']
  exact hb

theorem requestCalls_switching {l : LchanId} (h : (w.ts t).fi.switching) :
    RequestCalls w w [] t l :=
  ⟨rfl,rfl,.inr ⟨by simp,fun _ _ => .inr (.inl h)⟩⟩

theorem tsRequested_spec {l : LchanId}
    (he : tsDispatch cfg t (.lchanRequested l) w = .ok (w',new)) : RequestCalls w w' new t l := by
  have hv : ∀ st, tsFsm.verdict st (.lchanRequested l) = .action := by
    intro st
    cases st <;> rfl
  have hbroken : RequestCalls w w (tsFsmError t .borken) t l := ⟨rfl,rfl,.inl rfl⟩
  simp only [tsDispatch,hv] at he
  cases hfi : (w.ts t).fi with
  | notInitialized =>
    simp only [hfi,tsFsmNotInitialized] at he
    split at he
    · cases he
      exact requestCalls_next rfl (fun _ => id) fun ht _ => ⟨ht,hfi⟩
    · rename_i hsome
      cases he
      refine ⟨rfl,rfl,.inr ⟨by simp,fun _ hl => ?_⟩⟩
      rw [hl] at hsome
      exact absurd rfl hsome
  | unused =>
    have huse : RequestCalls w w [.tsStateChg t .inUse] t l :=
      requestCalls_next rfl (fun _ => id) fun ht _ => ⟨ht,by rw [hfi]; rfl,.inr (.inl rfl)⟩
    simp only [hfi,tsFsmUnused] at he
    split at he <;> cases he
    · exact huse
    · exact huse
    · exact requestCalls_dispatch (.inr rfl)
  | waitPdchAct =>
    simp only [hfi,tsFsmWaitPdchAct] at he
    split at he <;> cases he
    · exact requestCalls_switching (.inl hfi)
    · exact requestCalls_switching (.inl hfi)
    · exact requestCalls_error
  | pdch =>
    simp only [hfi,tsFsmPdch] at he
    split at he <;> cases he
    · exact requestCalls_next rfl (fun _ => id) fun ht _ => ⟨ht,by rw [hfi]; rfl,.inr (.inr rfl)⟩
    · exact hbroken
    · exact requestCalls_error
  | waitPdchDeact =>
    simp only [hfi,tsFsmWaitPdchDeact] at he
    split at he <;> cases he
    · exact requestCalls_switching (.inr hfi)
    · exact hbroken
    · exact requestCalls_error
  | inUse =>
    simp only [hfi,tsFsmInUse] at he
    split at he <;> cases he
    · exact requestCalls_dispatch (.inl rfl)
    · exact requestCalls_error
    · exact requestCalls_error
  | borken =>
    simp only [hfi,tsFsmBorken] at he
    cases he
    exact requestCalls_error

theorem Wakeup.step_requested {l : LchanId}
    (h : Wakeup cfg w (.tsDispatch t (.lchanRequested l) :: rest))
    (he : tsDispatch cfg t (.lchanRequested l) w = .ok (w',new)) : Wakeup cfg w' (new ++ rest) := by
  obtain ⟨rfl,htame,hcalls⟩ := tsRequested_spec he
  have hc : Concerns w' t (.tsDispatch t (.lchanRequested l)) :=
    ⟨fun _ h => h.elim,fun _ h => h.1.symm,rfl⟩
  rcases hcalls with rfl | ⟨hb,hans⟩
  · refine h.step_ts hc (within_error (.inl rfl)) ?_
    rintro l' rfl - - -
    exact .of_error rfl
  · have hw : Within t w' w' new := .refl htame fun call hcall t' h => absurd h (hb call hcall t')
    refine h.step_ts hc hw ?_
    rintro l' rfl hl' - hpend
    by_cases hl : l' = l
    · subst hl
      rcases hans rfl hl' with ⟨call,hcall,ha⟩ | hs | ⟨call,rfl,hn⟩
      · exact .of_new call hcall ha
      · exact hpend.lift_switching rfl id (fun call hcall => hb call hcall _) fun _ => .inl hs
      · exact hpend.lift_switching rfl id (fun call hcall => hb call hcall _)
          fun _ => .inr ⟨call,[],rfl,hn⟩
    · exact hpend.lift rfl (fun ha => ha.elim) (fun hn => hl hn.2.symm) fun call hcall => hb call hcall _

theorem Wakeup.step_unused {l : LchanId}
    (h : Wakeup cfg w (.tsDispatch t (.lchanUnused l) :: rest))
    (he : tsDispatch cfg t (.lchanUnused l) w = .ok (w',new)) : Wakeup cfg w' (new ++ rest) := by
  have hspec : w' = w ∧ (new = [] ∨ new = [.tsStateChg t .unused]) := by
    have hv : ∀ st, tsFsm.verdict st (.lchanUnused l) = .action := by
      intro st
      cases st <;> rfl
    simp only [tsDispatch,hv] at he
    split at he
    all_goals try (cases he; exact ⟨rfl,.inl rfl⟩)
    simp only [tsFsmInUse] at he
    split at he <;> cases he
    · exact ⟨rfl,.inr rfl⟩
    · exact ⟨rfl,.inl rfl⟩
  have hc : Concerns w t (.tsDispatch t (.lchanUnused l)) :=
    ⟨fun _ h => h.elim,fun _ h => h.elim,rfl⟩
  obtain ⟨rfl,hnew⟩ := hspec
  have hb : ∀ call ∈ new, ∀ t', ¬ call.Breaks t' := by
    rcases hnew with rfl | rfl <;> simp [Call.Breaks]
  refine h.step_ts hc (.refl ?_ fun call hcall t' h => absurd h (hb call hcall t')) ?_
  · rcases hnew with rfl | rfl <;> rfl
  · rintro l' rfl - - hpend
    exact hpend.lift rfl (fun ha => ha.elim) id fun call hcall => hb call hcall _

theorem Wakeup.step_rslReady (h : Wakeup cfg w (.tsDispatch t .rslReady :: rest))
    (he : tsDispatch cfg t .rslReady w = .ok (w',new)) : Wakeup cfg w' (new ++ rest) := by
  have hc : Concerns w t (.tsDispatch t .rslReady) := ⟨fun _ h => h.elim,fun _ h => h.1.symm,rfl⟩
  by_cases hfi : (w.ts t).fi = .notInitialized
  · have hv : tsFsm.verdict (w.ts t).fi .rslReady = .action := by
      rw [hfi]
      rfl
    simp only [tsDispatch,hv] at he
    simp only [hfi,tsFsmNotInitialized,Bsc.updTs_self] at he
    split at he
    · cases he
      refine h.step_ts hc (.updTs rfl rfl rfl not_breaks_stateChg) ?_
      rintro l rfl - - hpend
      refine hpend.lift_switching (by simp) id ?_ fun _ => .inr ⟨_,_,rfl,rfl,?_,.inl rfl⟩
      · intro call hcall
        rw [List.mem_singleton.mp hcall]
        exact id
      · simp [hfi,tsFsm]
    · rename_i homl
      cases he
      refine h.step_ts hc (.updTs rfl rfl rfl (by simp)) ?_
      rintro l rfl hl - -
      have hsome : (w.lchan l).fi.isSome := by
        rw [hl]
        rfl
      rcases h.slots l.ts with hs | ⟨j,hj⟩
      · rcases hs.lchans with ⟨ho,-,-⟩ | ⟨-,-,hf⟩
        · exact absurd ho homl
        · rw [hf l.nr] at hl
          cases hl
      · obtain ⟨call,hcall,ha⟩ := hj.answers hsome
        rcases List.mem_cons.mp hcall with rfl | hmem
        · exact ha.elim
        · exact .of_rest hmem ha (by simp)
  · have hv : tsFsm.verdict (w.ts t).fi .rslReady = .notPermitted := by
      cases hst : (w.ts t).fi <;> first | rfl | exact absurd hst hfi
    simp only [tsDispatch,hv] at he
    cases he
    refine h.step_ts hc (.refl rfl (by simp)) ?_
    rintro l rfl - - hpend
    exact hpend.lift rfl (fun ha => ha.elim) (fun hn => hfi hn.2) (by simp)

theorem Wakeup.alone (h : Wakeup cfg w (head :: rest)) (hentry : head.entry = true) : rest = [] := by
  cases rest with
  | nil => rfl
  | cons b rest =>
    have := ((List.pairwise_cons.mp h.order).1 b (List.mem_cons_self ..)).upper
    rw [hentry] at this
    cases this

theorem not_next_entry {ev : TsEvent} (hentry : (Call.tsDispatch t ev).entry = true) (l : LchanId) :
    ¬ AnswersNext w l (.tsDispatch t ev) := by
  intro h
  cases ev <;> first | exact h | cases hentry

theorem concerns_entry {ev : TsEvent} (hentry : (Call.tsDispatch t ev).entry = true) :
    Concerns w t (.tsDispatch t ev) :=
  ⟨fun _ h => h.elim,fun l h => absurd h (not_next_entry hentry l),rfl⟩

theorem Wakeup.step_notPermitted {ev : TsEvent} (hentry : (Call.tsDispatch t ev).entry = true)
    (h : Wakeup cfg w (.tsDispatch t ev :: rest)) : Wakeup cfg w rest := by
  have hw : Within t w w [] := .refl rfl (by simp)
  refine h.step_ts (concerns_entry hentry) hw ?_
  rintro l rfl - - hpend
  exact hpend.lift rfl (fun ha => ha.elim) (not_next_entry hentry l) (by simp)

theorem Wakeup.step_entry_error {ev : TsEvent} {st : TsState}
    (hentry : (Call.tsDispatch t ev).entry = true)
    (h : Wakeup cfg w (.tsDispatch t ev :: rest)) (hw : Within t w w' (tsFsmError t st)) :
    Wakeup cfg w' (tsFsmError t st ++ rest) := by
  refine h.step_ts (concerns_entry hentry) hw ?_
  rintro l rfl - - -
  exact .of_error rfl

theorem Wakeup.step_entry_next {ev : TsEvent} {st : TsState}
    (hentry : (Call.tsDispatch t ev).entry = true)
    (h : Wakeup cfg w (.tsDispatch t ev :: rest)) (hw : Within t w w' [.tsStateChg t st])
    (hfi : (w'.ts t).fi = (w.ts t).fi) : Wakeup cfg w' ([Call.tsStateChg t st] ++ rest) := by
  refine h.step_ts (concerns_entry hentry) hw ?_
  rintro l rfl - - hpend
  refine hpend.pass hw.pchan hfi (fun ha => ha.elim) (not_next_entry hentry l) ?_
  intro call hcall
  rw [List.mem_singleton.mp hcall]
  exact id

theorem Wakeup.step_pdchActAck (h : Wakeup cfg w (.tsDispatch t .pdchActAck :: rest))
    (he : tsDispatch cfg t .pdchActAck w = .ok (w',new)) : Wakeup cfg w' (new ++ rest) := by
  cases hfi : (w.ts t).fi with
  | waitPdchAct =>
    simp only [tsDispatch,hfi] at he
    cases he
    exact h.step_entry_next rfl (.refl rfl not_breaks_stateChg) rfl
  | _ =>
    simp only [tsDispatch,hfi] at he
    cases he
    exact h.step_notPermitted rfl

theorem Wakeup.step_pdchActNack (h : Wakeup cfg w (.tsDispatch t .pdchActNack :: rest))
    (he : tsDispatch cfg t .pdchActNack w = .ok (w',new)) : Wakeup cfg w' (new ++ rest) := by
  cases hfi : (w.ts t).fi with
  | waitPdchAct =>
    simp only [tsDispatch,hfi] at he
    cases he
    exact h.step_entry_error rfl (.updTs rfl rfl rfl tsFsmError_breaks)
  | _ =>
    simp only [tsDispatch,hfi] at he
    cases he
    exact h.step_notPermitted rfl

theorem Wakeup.step_pdchDeactNack (h : Wakeup cfg w (.tsDispatch t .pdchDeactNack :: rest))
    (he : tsDispatch cfg t .pdchDeactNack w = .ok (w',new)) : Wakeup cfg w' (new ++ rest) := by
  cases hfi : (w.ts t).fi with
  | waitPdchDeact =>
    simp only [tsDispatch,hfi] at he
    cases he
    exact h.step_entry_error rfl (within_error (.inl rfl))
  | _ =>
    simp only [tsDispatch,hfi] at he
    cases he
    exact h.step_notPermitted rfl

theorem Wakeup.step_pdchDeactAck (h : Wakeup cfg w (.tsDispatch t .pdchDeactAck :: rest))
    (he : tsDispatch cfg t .pdchDeactAck w = .ok (w',new)) : Wakeup cfg w' (new ++ rest) := by
  cases hfi : (w.ts t).fi with
  | waitPdchDeact =>
    have hv : tsFsm.verdict .waitPdchDeact .pdchDeactAck = .action := rfl
    simp only [tsDispatch,hfi,hv,tsFsmWaitPdchDeact] at he
    split at he
    · cases he
      exact h.step_entry_next rfl (.updTs rfl rfl rfl not_breaks_stateChg) (by simp)
    · cases he
      exact h.step_entry_next rfl (.updTs rfl rfl rfl not_breaks_stateChg) (by simp)
    · cases he
      exact h.step_entry_error rfl (within_error (.inl rfl))
  | _ =>
    simp only [tsDispatch,hfi] at he
    cases he
    exact h.step_notPermitted rfl

theorem Wakeup.switching_of_entry {l : LchanId} {ev : TsEvent}
    (hentry : (Call.tsDispatch t ev).entry = true) (h : Wakeup cfg w [.tsDispatch t ev])
    (hl : (w.lchan l).fi = some .waitTsReady) : (w.ts l.ts).fi.switching := by
  rcases h.waiting l hl with ⟨call,hcall,ha⟩ | ⟨-,hs | ⟨call,calls,heq,hn⟩⟩
  · rw [List.mem_singleton.mp hcall] at ha
    exact ha.elim
  · exact hs
  · cases heq
    exact absurd hn (not_next_entry hentry l)

theorem Wakeup.stable_of_entry {ev : TsEvent} (h : Wakeup cfg w [.tsDispatch t ev]) :
    Stable cfg w [.tsDispatch t ev] t := by
  rcases h.slots t with hs | ⟨j,he⟩
  · exact hs
  · cases List.mem_singleton.mp he.loop

theorem tsSetupLchans_fi (l : LchanId) (st : LchanState) (hst : st ≠ .unused)
    (hl : ((tsSetupLchans cfg t w).lchan l).fi = some st) : (w.lchan l).fi = some st := by
  simp only [tsSetupLchans] at hl
  split at hl
  · cases hl
    exact absurd rfl hst
  · exact hl

theorem tsSetupLchans_other {l : LchanId} (hl : l.ts ≠ t) :
    (tsSetupLchans cfg t w).lchan l = w.lchan l := by
  simp [tsSetupLchans,hl]

theorem tsSetupLchans_isSome (nr : Nat) :
    ((tsSetupLchans cfg t w).lchan ⟨t,nr⟩).fi.isSome
      ↔ nr < pchanSubslots (cfg t).pchanFromConfig ∨ (w.lchan ⟨t,nr⟩).fi.isSome := by
  simp only [tsSetupLchans]
  cases hfi : (w.lchan ⟨t,nr⟩).fi <;> by_cases hnr : nr < pchanSubslots (cfg t).pchanFromConfig <;>
    simp [hfi,hnr]

/-- `ts_setup_lchans` under a configuration that has at least as many lchans as the
timeslot had before. -/
theorem Wakeup.setup {cfg' cfg'' : TsId → TsCfg} (h : Wakeup cfg w (.tsDispatch t .omlReady :: rest))
    (hfi : (w.ts t).fi = .notInitialized)
    (hself : (cfg'' t).pchanFromConfig = (cfg' t).pchanFromConfig)
    (hothers : ∀ t', t' ≠ t → (cfg'' t').pchanFromConfig = (cfg t').pchanFromConfig)
    (hgrow : pchanSubslots (w.ts t).pchanOnInit ≤ pchanSubslots (cfg' t).pchanFromConfig)
    (he : tsDispatch cfg' t .omlReady w = .ok (w',new)) : Wakeup cfg'' w' (new ++ rest) := by
  obtain rfl := h.alone rfl
  have hv : tsFsm.verdict .notInitialized .omlReady = .action := rfl
  simp only [tsDispatch,hfi,hv,tsFsmNotInitialized,Except.ok.injEq,Prod.mk.injEq] at he
  obtain ⟨hw,hnew⟩ := he
  have hother : ∀ t', t' ≠ t → w'.ts t' = w.ts t' := by
    intro t' hne
    rw [← hw]
    simp [tsSetupLchans,Bsc.updTs,hne]
  have hcalls : new = [.tsStateChg t .unused] ∨ new = [] := by
    rw [← hnew]
    split
    · exact .inl rfl
    · exact .inr rfl
  have hquiet : ∀ t', ∀ call ∈ new, ¬ call.EndsAt t' ∧ ¬ call.Breaks t' := by
    rcases hcalls with rfl | rfl <;> simp [Call.EndsAt,Call.Breaks]
  refine ⟨?_,?_,fun t' => ?_,fun l hl => ?_⟩
  · rcases hcalls with rfl | rfl <;> simp
  · rcases hcalls with rfl | rfl <;> simp [Call.wf]
  · rcases eq_or_ne t' t with rfl | hne
    · refine .inl ⟨fun call hcall => ?_,.inl ⟨?_,?_,fun nr => ?_⟩⟩
      · rw [List.append_nil] at hcall
        exact (hquiet _ call hcall).1
      · rw [← hw]
        simp [tsSetupLchans]
      · rw [← hw,hself]
        simp [tsSetupLchans]
      · rw [← hw,tsSetupLchans_isSome,hself,Bsc.updTs_lchan,or_iff_left_iff_imp]
        rcases h.stable_of_entry.lchans with ⟨-,hp,hf⟩ | ⟨-,-,hf⟩
        · rw [hf,← hp]
          omega
        · simp [hf]
    · have hslots := slots_append ⟨by rw [hother t' hne],by rw [hother t' hne],fun nr => (by
        rw [← hw,tsSetupLchans_other hne]
        rfl)⟩ id (fun call hcall => (hquiet _ call hcall).1) (h.slots t')
      refine hslots.imp (fun hs => ⟨hs.quiet,?_⟩) id
      rw [hothers t' hne]
      exact hs.lchans
  · have hold : (w.lchan l).fi = some .waitTsReady := by
      rw [← hw] at hl
      exact tsSetupLchans_fi l .waitTsReady (by decide) hl
    have hsw := h.switching_of_entry rfl hold
    have hne : l.ts ≠ t := by
      intro ht
      rw [ht,hfi] at hsw
      rcases hsw with hsw | hsw <;> cases hsw
    refine .inr ⟨fun call hcall => ?_,.inl ?_⟩
    · rw [List.append_nil] at hcall
      exact (hquiet _ call hcall).2
    · rw [hother _ hne]
      exact hsw

theorem Wakeup.step_omlReady (h : Wakeup cfg w (.tsDispatch t .omlReady :: rest))
    (he : tsDispatch cfg t .omlReady w = .ok (w',new)) : Wakeup cfg w' (new ++ rest) := by
  obtain rfl := h.alone rfl
  cases hfi : (w.ts t).fi with
  | notInitialized =>
    refine h.setup hfi rfl (fun _ _ => rfl) ?_ he
    rcases h.stable_of_entry.lchans with ⟨-,hp,-⟩ | ⟨-,hp,-⟩
    · exact Nat.le_of_eq (congrArg pchanSubslots hp)
    · rw [hp]
      exact Nat.zero_le _
  | _ =>
    simp only [tsDispatch,hfi] at he
    cases he
    exact h.step_notPermitted rfl

theorem tsDispatch_omlDown : tsDispatch cfg t .omlDown w =
    .ok (w.updTs t ({ · with isOmlReady := false, fi := .notInitialized }),
      [.tsTerminateLchanFsms t 0]) := by
  cases hfi : (w.ts t).fi <;>
    simp [tsDispatch,tsFsmAllstate,EventFsm.Fsm.verdict,tsFsm,hfi,Bsc.updTs]

theorem tsDispatch_rslDown : tsDispatch cfg t .rslDown w =
    .ok (w.updTs t ({ · with isRslReady := false, fi := .notInitialized, pchanIs := .none }),
      [.tsLchansDispatch t none .tsError 0]) := by
  cases hfi : (w.ts t).fi <;>
    simp [tsDispatch,tsFsmAllstate,EventFsm.Fsm.verdict,tsFsm,hfi,Bsc.updTs]

theorem Wakeup.step_omlDown (h : Wakeup cfg w (.tsDispatch t .omlDown :: rest))
    (he : tsDispatch cfg t .omlDown w = .ok (w',new)) : Wakeup cfg w' (new ++ rest) := by
  obtain rfl := h.alone rfl
  rw [tsDispatch_omlDown] at he
  cases he
  refine ⟨by simp,by simp [Call.wf],fun t' => ?_,fun l hl => ?_⟩
  · rcases eq_or_ne t' t with rfl | hne
    · refine .inr ⟨0,by simp,by simp,fun nr hnr => ⟨?_,.inl (Nat.zero_le nr)⟩,fun nr _ hnr => ?_,
        by simp [Call.EndsLchan]⟩
      all_goals simp only [Bsc.updTs_lchan,Bsc.updTs_self] at hnr ⊢
      all_goals rcases h.stable_of_entry.lchans with ⟨-,hp,hf⟩ | ⟨-,hp,hf⟩
      · rw [hp]
        exact (hf nr).mp hnr
      · rw [hf nr] at hnr
        cases hnr
      · rw [hp] at hnr
        exact (hf nr).mpr hnr
      · rw [hp] at hnr
        cases hnr
    · have hts := Bsc.updTs_ne w t ({ · with isOmlReady := false, fi := .notInitialized }) hne
      have hk : SameSlots w
          (w.updTs t ({ · with isOmlReady := false, fi := .notInitialized })) t' :=
        ⟨by rw [hts],by rw [hts],fun _ => rfl⟩
      refine slots_append hk ?_ ?_ (h.slots t')
      · exact id
      · intro call hcall
        rw [List.mem_singleton.mp hcall]
        exact fun ht => hne ht.symm
  · rcases eq_or_ne l.ts t with rfl | hne
    · exact .of_new _ (List.mem_singleton.mpr rfl) ⟨rfl,Nat.zero_le _⟩
    · refine .inr ⟨by simp [Call.Breaks],.inl ?_⟩
      rw [Bsc.updTs_ne _ _ _ hne]
      exact h.switching_of_entry rfl hl

theorem Wakeup.step_rslDown (h : Wakeup cfg w (.tsDispatch t .rslDown :: rest))
    (he : tsDispatch cfg t .rslDown w = .ok (w',new)) : Wakeup cfg w' (new ++ rest) := by
  rw [tsDispatch_rslDown] at he
  cases he
  refine h.step_ts (concerns_entry rfl) (.updTs rfl rfl rfl (by simp [Call.Breaks])) ?_
  rintro l rfl - - -
  exact .of_new _ (List.mem_singleton.mpr rfl) ⟨rfl,Nat.zero_le _,.inl rfl,.inr rfl⟩

theorem Wakeup.step_tsDispatch {ev : TsEvent} (h : Wakeup cfg w (.tsDispatch t ev :: rest))
    (he : tsDispatch cfg t ev w = .ok (w',new)) : Wakeup cfg w' (new ++ rest) := by
  cases ev with
  | omlReady => exact h.step_omlReady he
  | omlDown => exact h.step_omlDown he
  | rslReady => exact h.step_rslReady he
  | rslDown => exact h.step_rslDown he
  | lchanRequested l => exact h.step_requested he
  | lchanUnused l => exact h.step_unused he
  | pdchActAck => exact h.step_pdchActAck he
  | pdchActNack => exact h.step_pdchActNack he
  | pdchDeactAck => exact h.step_pdchDeactAck he
  | pdchDeactNack => exact h.step_pdchDeactNack he

end Timeslot

section Run

variable {cfg : TsId → TsCfg} {w w' : Bsc} {call : Call} {new rest : List Call} {x : Foreign}

theorem Wakeup.step_lchanTerm {l : LchanId} (h : Wakeup cfg w (.lchanTerm l :: rest))
    (he : lchanTerm l w = .ok (w',new)) : Wakeup cfg w' (new ++ rest) := by
  cases he
  have hhead : Call.EndsLchan l (.lchanTerm l) := rfl
  have hnext : Call.EndsLchan l (.lchanCleanup l) := rfl
  refine h.step_ending hhead hnext (.of_keeps (.refl w) ?_)
  split <;> rfl

theorem Wakeup.step_lchanCleanup {l : LchanId} (h : Wakeup cfg w (.lchanCleanup l :: rest))
    (he : lchanCleanup l w = .ok (w',new)) : Wakeup cfg w' (new ++ rest) := by
  simp only [lchanCleanup,bind_eq_ok] at he
  obtain ⟨r,hr,he⟩ := he
  cases he
  have hhead : Call.EndsLchan l (.lchanCleanup l) := rfl
  have hnext : Call.EndsLchan l (.lchanCleanupRest l) := rfl
  exact h.step_ending hhead hnext (lchanReset_quiet l w _ hr)

/-- Whether the timeslot FSM or the way an lchan gets its answer is involved. -/
def Call.wakes : Call → Bool
  | .tsDispatch .. | .tsTimeout .. | .tsStateChg .. | .tsErrorChg .. | .tsLchansDispatch ..
  | .tsInUseOnenter .. | .tsTerminateLchanFsms .. | .lchanDispatch .. | .lchanFailChg ..
  | .lchanTerm .. | .lchanCleanup .. | .lchanCleanupRest .. => true
  | _ => false

theorem not_answers {l : LchanId} (hcall : call.wakes = false) :
    ¬ Answers w l call ∧ ¬ AnswersNext w l call := by
  cases call <;> first | exact ⟨id,id⟩ | cases hcall

theorem Wakeup.step_other (h : Wakeup cfg w (call :: rest)) (hcall : call.wakes = false)
    (he : exec cfg call x w = .ok (w',new)) : Wakeup cfg w' (new ++ rest) := by
  have hts : ∀ t ev, call ≠ .tsDispatch t ev := by
    rintro t ev rfl
    cases hcall
  have hl : ∀ l ev, call ≠ .lchanDispatch l ev := by
    rintro l ev rfl
    cases hcall
  have hwf := h.wf call (List.mem_cons_self ..)
  cases hact : call.activates with
  | true =>
    exact h.step_starting (exec_starting _ _ _ hact hl hts _ he) hact (fun l => (not_answers hcall).1)
      fun l => (not_answers hcall).2
  | false =>
    have hquiet : Quiet Call.calm w (w',new) := by
      cases call with
      | lchanStateChg l st =>
        refine lchanStateChg_quiet x l w ?_ _ he
        rintro rfl
        cases hwf
      | connDispatch c ev =>
        exact exec_quiet _ _ _ (by simpa [Call.calm] using hact) hts _ he
      | _ =>
        first
        | exact exec_quiet _ _ _ rfl hts _ he
        | exact absurd hcall Bool.noConfusion
        | exact absurd hact Bool.noConfusion
    have hend : call.ending = false := by
      cases call <;> first | rfl | cases hcall
    exact h.step_quiet hquiet hend
      (fun l _ ha => absurd ha (not_answers hcall).1) fun l => (not_answers hcall).2

theorem Wakeup.exec (h : Wakeup cfg w (call :: rest)) (he : exec cfg call x w = .ok (w',new)) :
    Wakeup cfg w' (new ++ rest) := by
  cases hcall : call.wakes with
  | false => exact h.step_other hcall he
  | true =>
    cases call with
    | tsDispatch t ev => exact h.step_tsDispatch he
    | tsTimeout t => exact h.step_tsTimeout he
    | tsStateChg t st => exact h.step_tsStateChg he
    | tsErrorChg t st => exact h.step_tsErrorChg he
    | tsLchansDispatch t st ev i => exact h.step_tsLchansDispatch he
    | tsInUseOnenter t i type => exact h.step_tsInUseOnenter he
    | tsTerminateLchanFsms t i => exact h.step_tsTerminateLchanFsms he
    | lchanDispatch l ev =>
      cases ev with
      | activate info => exact h.step_activate he
      | _ => exact h.step_lchanDispatch (x := x) (fun info h => by cases h) he
    | lchanFailChg l st => exact h.step_lchanFailChg he
    | lchanTerm l => exact h.step_lchanTerm he
    | lchanCleanup l => exact h.step_lchanCleanup he
    | lchanCleanupRest l =>
      cases he
      exact h.step_lchanCleanupRest
    | _ => cases hcall

theorem enter_cases (i : Input) (w : Bsc) : (enter i w).Pairwise Call.Above
    ∧ ∀ call ∈ enter i w, call.wf = true ∧ call.ending = false ∧ ∀ t, ¬ call.Breaks t := by
  cases i with
  | estInd l linkId msg newConn aoip =>
    have habove : ∀ msg,
        Call.Above (.rllEstInd l (linkSapi linkId)) (.gsm0408Rcvmsg l msg newConn aoip) :=
      fun _ => ⟨rfl,rfl,fun h => (by cases h),fun h => (by cases h)⟩
    simp only [enter]
    repeat' split
    · exact ⟨.nil,List.forall_mem_nil _⟩
    · exact ⟨.nil,List.forall_mem_nil _⟩
    · exact ⟨List.pairwise_singleton ..,List.forall_mem_singleton.mpr ⟨rfl,rfl,fun _ => id⟩⟩
    · refine ⟨List.pairwise_pair.mpr (habove _),List.forall_mem_cons.mpr ⟨⟨rfl,rfl,fun _ => id⟩,?_⟩⟩
      exact List.forall_mem_singleton.mpr ⟨rfl,rfl,fun _ => id⟩
  | _ =>
    simp only [enter]
    repeat' split
    all_goals
      first
      | exact ⟨.nil,List.forall_mem_nil _⟩
      | exact ⟨List.pairwise_singleton ..,List.forall_mem_singleton.mpr ⟨rfl,rfl,fun _ => id⟩⟩

theorem Wakeup.enter (h : Wakeup cfg w []) (i : Input) : Wakeup cfg w (enter i w) := by
  obtain ⟨horder,hcalls⟩ := enter_cases i w
  refine ⟨horder,fun call hcall => (hcalls call hcall).1,fun t => .inl ⟨?_,?_⟩,fun l hl => ?_⟩
  · exact fun call hcall => Call.not_endsAt (hcalls call hcall).2.1 t
  · rcases h.slots t with hs | ⟨j,he⟩
    · exact hs.lchans
    · cases he.loop
  · refine .inr ⟨fun call hcall => (hcalls call hcall).2.2 _,.inl ?_⟩
    rcases h.waiting l hl with ⟨call,hcall,-⟩ | ⟨-,hs | ⟨call,calls,heq,-⟩⟩
    · cases hcall
    · exact hs
    · cases heq

theorem wakeup_initial (cfg : TsId → TsCfg) : Wakeup cfg {} [] :=
  ⟨.nil,by simp,fun _ => .inl ⟨by simp,.inr ⟨rfl,rfl,fun _ => rfl⟩⟩,fun _ hl => by cases hl⟩

theorem Reachable.wakeup {good : Config → Move → Prop} {c : Config}
    (h : Reachable cfg good c) : Wakeup cfg c.state c.calls := by
  refine Calls.reach_invariant ?_ ?_ ?_ h
  · rintro c rfl
    exact wakeup_initial cfg
  · exact fun w i hw _ => hw.enter i
  · exact fun w call rest x w' new hw _ he => hw.exec he

/-- No wakeup is lost: in every run an lchan that waits for its timeslot gets an
answer from a call that is already pending, or its timeslot waits for the BTS;
and once no call is pending, its timeslot waits for the BTS. -/
theorem waitTsReady_woken {c : Config} {l : LchanId} (h : Reachable cfg (fun _ _ => True) c)
    (hl : (c.state.lchan l).fi = some .waitTsReady) :
    Pending c.state c.calls l ∧ (c.Quiescent →
      (c.state.ts l.ts).fi = .waitPdchAct ∨ (c.state.ts l.ts).fi = .waitPdchDeact) := by
  have hpend := h.wakeup.waiting l hl
  refine ⟨hpend,fun hq => ?_⟩
  rw [hq] at hpend
  rcases hpend with ⟨call,hcall,-⟩ | ⟨-,hs | ⟨call,calls,heq,-⟩⟩
  · cases hcall
  · exact hs
  · cases heq

def dynamicTs (_ : TsId) : TsCfg where
  pchanFromConfig := .tchFTchHPdch
  gprs := true
  isIpaccessBts := false
  noLocRelCnf := false

def requestOnPdch : List Input :=
  [.omlReady 0,.rslReady 0,.pdchActAck 0,
    .chanRqd fun type => if type = .tchF then some ⟨0,0⟩ else none]

/-- Its lchan waits for the PDCH to be deactivated. -/
theorem waitTsReady_woken_dynamic :
    ∃ c, Reachable dynamicTs (fun _ _ => True) c ∧ c.Quiescent
      ∧ (c.state.lchan ⟨0,0⟩).fi = some .waitTsReady ∧ Pending c.state c.calls ⟨0,0⟩
      ∧ ((c.state.ts 0).fi = .waitPdchAct ∨ (c.state.ts 0).fi = .waitPdchDeact) := by
  have hrun : ∃ c, run (step dynamicTs) initial (moves 40 requestOnPdch) = .ok c
      ∧ c.Quiescent ∧ (c.state.lchan ⟨0,0⟩).fi = some .waitTsReady := by
    decide +kernel
  obtain ⟨c,hc,hq,hl⟩ := hrun
  have hreach : Reachable dynamicTs (fun _ _ => True) c :=
    Reach.of_run (.start rfl) (.of_forall (fun _ _ => trivial) _ _) hc
  obtain ⟨hpend,hts⟩ := waitTsReady_woken hreach hl
  exact ⟨c,hreach,hq,hl,hpend,hts hq⟩

end Run

end OsmoBsc.Chan
