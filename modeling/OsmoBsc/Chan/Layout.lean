import OsmoBsc.Chan.Occupancy
set_option autoImplicit false

namespace OsmoBsc.Chan
open EventFsm

/-- The program with its configuration, which the VTY user may change, and how often the
FSM of each lchan was allocated and ended. -/
structure Managed where
  cfg : TsId → TsCfg
  config : Config := initial
  allocated : LchanId → Nat := fun _ => 0
  ended : LchanId → Nat := fun _ => 0

inductive ManagedMove where
  | cfgTsPchan (t : TsId) (pchan : Pchan)
  | move (m : Move)

def cfgTsPchan (t : TsId) (pchan : Pchan) (cfg : TsId → TsCfg) : TsId → TsCfg :=
  Function.update cfg t { cfg t with pchanFromConfig := pchan }

/-- The timeslot on which the next call runs `ts_setup_lchans`, for TS_EV_OML_READY. -/
def setsUp (c : Config) : Option TsId :=
  match c.calls with
  | .tsDispatch t .omlReady :: _ => if (c.state.ts t).fi = .notInitialized then some t else none
  | _ => none

/-- The next call runs `lchan_fsm_alloc` on lchan `l`. -/
def allocates (cfg : TsId → TsCfg) (c : Config) (m : Move) (l : LchanId) : Bool :=
  match m with
  | .input _ => false
  | .call _ => decide (setsUp c = some l.ts)
    && decide (l.nr < pchanSubslots (cfg l.ts).pchanFromConfig) && (c.state.lchan l).fi.isNone

/-- The next call frees the FSM of lchan `l`. -/
def frees (c : Config) (m : Move) (l : LchanId) : Bool :=
  match m, c.calls with
  | .call _, .lchanCleanupRest l' :: _ => l' == l
  | _, _ => false

/-- A step of the program, or a command of the VTY user between two inputs. -/
def managedStep (s : Managed) : ManagedMove → Except Fault Managed
  | .cfgTsPchan t pchan =>
    if s.config.Quiescent then .ok { s with cfg := cfgTsPchan t pchan s.cfg } else .ok s
  | .move m => do
    let c ← step s.cfg s.config m
    return { s with
      config := c
      allocated := fun l => s.allocated l + (allocates s.cfg s.config m l).toNat
      ended := fun l => s.ended l + (frees s.config m l).toNat }

def Pchan.modes : Pchan → List Pchan
  | .tchFTchHPdch => [.tchF,.tchH,.pdch]
  | .tchFPdch => [.tchF,.pdch]
  | p => [p]

/-- The lchan FSMs of timeslot `t` are those that its kind can use, each was allocated
once, and what loops over them meets no other ones. -/
structure LaidOut (s : Managed) (t : TsId) : Prop where
  instances : (s.config.state.ts t).fi ≠ .notInitialized → ∀ nr, (s.config.state.lchan ⟨t,nr⟩).fi.isSome ↔
    ∃ p ∈ (s.config.state.ts t).pchanOnInit.modes, nr < pchanSubslots p
  once : ∀ nr, s.allocated ⟨t,nr⟩ =
    s.ended ⟨t,nr⟩ + (s.config.state.lchan ⟨t,nr⟩).fi.isSome.toNat
  loops : ∀ l ∈ s.config.state.potentialLchans t, (s.config.state.lchan l).fi.isSome
  terminates : ∀ nr rest, s.config.calls = .lchanTerm ⟨t,nr⟩ :: rest →
    (s.config.state.lchan ⟨t,nr⟩).fi.isSome

/-- A timeslot is set up once more, with fewer lchans than it has FSMs. -/
def shrinks (s : Managed) (_ : ManagedMove) : Bool :=
  (setsUp s.config).any fun t =>
    decide (pchanSubslots (s.cfg t).pchanFromConfig < pchanSubslots (s.config.state.ts t).pchanOnInit)

abbrev ReachableManaged (cfg : TsId → TsCfg) : Managed → Prop :=
  Reach managedStep (fun s m => shrinks s m = false) (· = { cfg := cfg })

section InForce

variable {cfg cfg' : TsId → TsCfg} {w w' : Bsc} {head : Call} {new rest calls : List Call}
  {x : Foreign}

def inForce (cfg : TsId → TsCfg) (w : Bsc) (t : TsId) : TsCfg :=
  if (w.ts t).isOmlReady then { cfg t with pchanFromConfig := (w.ts t).pchanOnInit } else cfg t

/-- Whatever the configuration was, it does not matter any more once it is in force. -/
theorem Wakeup.inForce (h : Wakeup cfg' w calls) (cfg : TsId → TsCfg) :
    Wakeup (inForce cfg w) w calls := by
  refine ⟨h.order,h.wf,fun t => (h.slots t).imp (fun hs => ⟨hs.quiet,?_⟩) id,h.waiting⟩
  rcases hs.lchans with ⟨ho,hp,hf⟩ | hn
  · exact .inl ⟨ho,by simp [Chan.inForce,ho],by simpa [Chan.inForce,ho,hp] using hf⟩
  · exact .inr hn

theorem exec_inForce (h : setsUp ⟨w,head :: rest⟩ = none) :
    exec (Chan.inForce cfg w) head x w = exec cfg head x w := by
  have hgprs : ∀ t, (Chan.inForce cfg w t).gprs = (cfg t).gprs := by
    intro t
    unfold Chan.inForce
    split <;> rfl
  have hip : ∀ t, (Chan.inForce cfg w t).isIpaccessBts = (cfg t).isIpaccessBts := by
    intro t
    unfold Chan.inForce
    split <;> rfl
  have hrel : ∀ t, (Chan.inForce cfg w t).noLocRelCnf = (cfg t).noLocRelCnf := by
    intro t
    unfold Chan.inForce
    split <;> rfl
  have hchg : ∀ t st w', tsStateChg (Chan.inForce cfg w) x t st w' = tsStateChg cfg x t st w' := by
    intro t st w'
    unfold tsStateChg
    cases st <;> simp only [tsOnenter,tsUnusedOnenter,hgprs]
  have hready : ∀ l w', lchanRtpFsmPostLchanReady (Chan.inForce cfg w) l w' =
      lchanRtpFsmPostLchanReady cfg l w' := by
    intro l w'
    simp only [lchanRtpFsmPostLchanReady,hip]
  have hrtp : ∀ l st w', rtpStateChg (Chan.inForce cfg w) x l st w' = rtpStateChg cfg x l st w' := by
    intro l st w'
    unfold rtpStateChg
    cases st <;> simp only [rtpOnenter,hready]
  cases head with
  | tsDispatch t ev =>
    cases hfi : (w.ts t).fi with
    | notInitialized =>
      cases ev with
      | omlReady => simp [setsUp,hfi] at h
      | _ => simp only [exec,tsDispatch,tsFsmNotInitialized]
    | _ => simp only [exec,tsDispatch,hfi]
  | tsStateChg t st => exact hchg t st w
  | tsErrorChg t st => simp only [exec,tsErrorChg,hchg]
  | lchanRtpFsmStart l => simp only [exec,lchanRtpFsmStart,hrtp]
  | lchanWaitReleasedRest l => simp only [exec,lchanWaitReleasedRest,hrel]
  | rtpDispatch l ev => simp only [exec,rtpDispatch,rtpWaitLchanReady,hready]
  | rtpStateChg l st => exact hrtp l st w
  | _ => rfl

end InForce

section Instances

variable {cfg : TsId → TsCfg} {w w' : Bsc} {head : Call} {new rest calls : List Call}
  {x : Foreign} {t : TsId} {l : LchanId}

def Call.endsOne : Call → Bool
  | .lchanTerm .. | .lchanCleanup .. | .lchanCleanupRest .. => true
  | _ => false

structure OneEnds (w : Bsc) (calls : List Call) : Prop where
  live : ∀ call ∈ calls, ∀ l, call.EndsLchan l → (w.lchan l).fi.isSome
  single : calls.countP Call.endsOne ≤ 1

theorem Call.EndsLchan.endsOne {call : Call} (h : call.EndsLchan l) : call.endsOne = true := by
  cases call <;> first | rfl | exact h.elim

theorem Call.ending_of_endsOne {call : Call} (h : call.ending = false) : call.endsOne = false := by
  cases call <;> first | rfl | cases h

theorem setsUp_eq_some (h : setsUp ⟨w,head :: rest⟩ = some t) :
    head = .tsDispatch t .omlReady ∧ (w.ts t).fi = .notInitialized := by
  simp only [setsUp] at h
  split at h
  · rename_i t' rest' heq
    obtain ⟨rfl,-⟩ := List.cons.inj heq
    split at h
    · cases h
      exact ⟨rfl,by assumption⟩
    · cases h
  · cases h

theorem exec_setsUp (h : setsUp ⟨w,head :: rest⟩ = some t)
    (he : exec cfg head x w = .ok (w',new)) (l : LchanId) :
    (w'.lchan l).fi.isSome ↔ l.ts = t ∧ l.nr < pchanSubslots (cfg t).pchanFromConfig
      ∨ (w.lchan l).fi.isSome := by
  obtain ⟨rfl,hfi⟩ := setsUp_eq_some h
  have hv : tsFsm.verdict .notInitialized .omlReady = .action := rfl
  simp only [exec,tsDispatch,hfi,hv,tsFsmNotInitialized,Except.ok.injEq,Prod.mk.injEq] at he
  rw [← he.1]
  rcases eq_or_ne l.ts t with rfl | hne
  · obtain ⟨t,nr⟩ := l
    have hsome := @tsSetupLchans_isSome cfg (w.updTs t fun ts =>
      { ts with isOmlReady := true, pdchActAllowed := true }) t nr
    simpa using hsome
  · rw [tsSetupLchans_other hne]
    simp [hne]

/-- No other call allocates an FSM, and only the last step of its end frees one. -/
theorem exec_isSome (hwf : head.wf = true) (h : setsUp ⟨w,head :: rest⟩ = none)
    (he : exec cfg head x w = .ok (w',new)) (l : LchanId) :
    (w'.lchan l).fi.isSome = (w.lchan l).fi.isSome ∧ head ≠ .lchanCleanupRest l
      ∨ head = .lchanCleanupRest l ∧ (w'.lchan l).fi = none := by
  by_cases hrest : head = .lchanCleanupRest l
  · subst hrest
    cases he
    exact .inr ⟨rfl,by simp⟩
  · refine .inl ⟨?_,hrest⟩
    by_cases hrqd : ∃ l' type, head = .rslRxChanRqd l' type
    · obtain ⟨l',type,rfl⟩ := hrqd
      cases he
      rcases eq_or_ne l l' with rfl | hne
      · simp
      · rw [Bsc.updLchan_ne _ _ _ hne]
    · have hm : Moves w w' head new l :=
        exec_moves hwf (fun l' type heq => absurd ⟨l',type,heq⟩ hrqd) he
      have hfst : ∀ {a b : Option LchanState × ChanT}, a = b → a.1.isSome = b.1.isSome :=
        fun h => by rw [h]
      cases hm with
      | same hs => exact hfst hs
      | changes st st' hfi hs => exact (hfst hs).trans (by rw [hfi]; rfl)
      | resets _ hs => exact hfst hs
      | picked _ hun hun' => rw [hun,hun']
      | ends hhead => exact absurd hhead hrest
      | begins hhead hnone hs =>
        subst hhead
        have hfi : (w.ts l.ts).fi ≠ .notInitialized := by
          intro hfi
          simp [setsUp,hfi] at h
        cases hst : (w.ts l.ts).fi with
        | notInitialized => exact absurd hst hfi
        | _ =>
          simp only [exec,tsDispatch,hst] at he
          cases he
          rfl
      | reserved _ hs => exact hfst hs

theorem exec_endsOne (hwf : head.wf = true) (hhead : head.ending = false)
    (he : exec cfg head x w = .ok (w',new)) : new.countP Call.endsOne = 0 := by
  have hstarting : new.all Call.starting = true → new.countP Call.endsOne = 0 := by
    intro h
    refine List.countP_eq_zero.mpr fun call hcall => ?_
    have := (Call.starting_cases (List.all_eq_true.mp h call hcall)).2.1
    rw [Call.ending_of_endsOne this]
    exact Bool.false_ne_true
  have hcalm : new.all Call.calm = true → new.countP Call.endsOne = 0 := by
    intro h
    refine hstarting (List.all_eq_true.mpr fun call hcall => ?_)
    rw [Call.starting,List.all_eq_true.mp h call hcall]
    rfl
  cases hts : head.ofTs with
  | true =>
    refine List.countP_eq_zero.mpr fun call hcall hends => ?_
    have := List.all_eq_true.mp (exec_fromTs hts hhead hwf he) call hcall
    cases call <;> first | exact absurd hends Bool.noConfusion | cases this
  | false =>
    have hne : ∀ t ev, head ≠ .tsDispatch t ev := by
      rintro t ev rfl
      cases hts
    by_cases hc : head.calm = true
    · exact hcalm (exec_quiet cfg x w hc hne _ he).calls
    · cases head with
      | lchanStateChg l' st =>
        have hst : st ≠ .waitTsReady := by
          rintro rfl
          cases hwf
        exact hcalm (lchanStateChg_quiet x l' w hst _ he).calls
      | lchanFailChg l' st => cases st <;> first | exact absurd rfl hc | cases hwf
      | connDispatch c ev =>
        have hact : (Call.connDispatch c ev).activates = true := by simpa [Call.calm] using hc
        exact hstarting (exec_starting cfg x w hact (by simp) hne _ he).calls
      | lchanDispatch l' ev =>
        cases ev with
        | activate info =>
          refine hstarting ?_
          rcases lchanDispatch_activate info _ he with h | ⟨-,-,-,-,h⟩
          · cases h
            rfl
          · dsimp only at h
            rcases h with rfl | ⟨w1,rfl⟩ <;> rfl
        | _ => exact absurd rfl hc
      | _ =>
        first
        | exact absurd rfl hc
        | exact absurd hhead Bool.noConfusion
        | exact absurd hts Bool.noConfusion
        | exact hstarting (exec_starting cfg x w rfl (by simp) hne _ he).calls

theorem OneEnds.ending (h : OneEnds w (head :: rest)) (hend : head.ending = true)
    (he : exec cfg head x w = .ok (w',new)) :
    (∀ call ∈ new, ∀ l, call.EndsLchan l → (w'.lchan l).fi.isSome) ∧ new.countP Call.endsOne ≤ 1 := by
  cases head with
  | tsTerminateLchanFsms t i =>
    simp only [Chan.exec,tsTerminateLchanFsms] at he
    split at he
    · rename_i hat
      cases he
      refine ⟨?_,by simp [List.countP_cons,Call.endsOne]⟩
      simpa [Call.EndsLchan] using hasLchanAt_isSome hat
    · cases he
      simp
  | lchanTerm l =>
    have hlive := h.live _ (List.mem_cons_self ..) l rfl
    cases he
    split <;> simpa [Call.EndsLchan,Call.endsOne] using hlive
  | lchanCleanup l =>
    have hlive := h.live _ (List.mem_cons_self ..) l rfl
    simp only [Chan.exec,lchanCleanup,bind_eq_ok] at he
    obtain ⟨r,hr,he⟩ := he
    cases he
    have hcalm : r.2.countP Call.endsOne = 0 := by
      refine List.countP_eq_zero.mpr fun call hcall => ?_
      have := Call.calm_tame (List.all_eq_true.mp (lchanReset_quiet l w _ hr).calls call hcall)
      rw [Call.ending_of_endsOne (Call.tame_iff.mp this).2.2.1]
      exact Bool.false_ne_true
    refine ⟨fun call hcall l' hends => ?_,by simp [hcalm,Call.endsOne]⟩
    rcases List.mem_append.mp hcall with hcall | hcall
    · exact absurd hends.endsOne (List.countP_eq_zero.mp hcalm call hcall)
    · rw [List.mem_singleton.mp hcall] at hends
      obtain rfl : l = l' := hends
      exact ((lchanReset_quiet l w _ hr).sameSlots l.ts).fi l.nr ▸ hlive
  | lchanCleanupRest l =>
    cases he
    simp [Call.EndsLchan,Call.endsOne]
  | _ => cases hend

theorem OneEnds.exec (h : OneEnds w (head :: rest)) (hw : Wakeup (Chan.inForce cfg w) w (head :: rest))
    (he : exec cfg head x w = .ok (w',new)) : OneEnds w' (new ++ rest) := by
  have hwf := hw.wf head (List.mem_cons_self ..)
  have hsingle := h.single
  rw [List.countP_cons] at hsingle
  have hkeep : ∀ call ∈ rest, ∀ l, call.EndsLchan l → head ≠ .lchanCleanupRest l →
      (w'.lchan l).fi.isSome := by
    intro call hcall l hends hne
    have hlive := h.live call (List.mem_cons_of_mem _ hcall) l hends
    cases hset : setsUp ⟨w,head :: rest⟩ with
    | some t => exact (exec_setsUp hset he l).mpr (.inr hlive)
    | none =>
      rcases exec_isSome hwf hset he l with ⟨hsome,-⟩ | ⟨hrest,-⟩
      · exact hsome.trans hlive
      · exact absurd hrest hne
  cases hend : head.ending with
  | false =>
    have hnew := exec_endsOne hwf hend he
    refine ⟨fun call hcall l hends => ?_,?_⟩
    · rcases List.mem_append.mp hcall with hcall | hcall
      · exact absurd hends.endsOne (List.countP_eq_zero.mp hnew call hcall)
      · refine hkeep call hcall l hends ?_
        rintro rfl
        cases hend
    · rw [List.countP_append,hnew]
      omega
  | true =>
    have hnone : rest.countP Call.endsOne = 0 := by
      cases head with
      | tsTerminateLchanFsms t i =>
        refine List.countP_eq_zero.mpr fun call hcall hends => ?_
        have := ((List.pairwise_cons.mp hw.order).1 call hcall).loop rfl
        rw [Call.ending_of_endsOne this] at hends
        cases hends
      | lchanTerm l | lchanCleanup l | lchanCleanupRest l =>
        simp only [Call.endsOne,if_true] at hsingle
        omega
      | _ => cases hend
    have hrest : ∀ call ∈ rest, ∀ l, ¬ call.EndsLchan l := fun call hcall l hends =>
      List.countP_eq_zero.mp hnone call hcall hends.endsOne
    refine ⟨fun call hcall l hends => ?_,?_⟩
    · rcases List.mem_append.mp hcall with hcall | hcall
      · exact (h.ending hend he).1 call hcall l hends
      · exact absurd hends (hrest call hcall l)
    · rw [List.countP_append,hnone]
      exact (h.ending hend he).2

end Instances

section Managed

variable {cfg : TsId → TsCfg} {s s' : Managed} {t : TsId}

structure Managed.Laid (s : Managed) : Prop where
  wakeup : Wakeup (inForce s.cfg s.config.state) s.config.state s.config.calls
  upright : ∀ t, Upright t s.config.state s.config.calls
  ends : OneEnds s.config.state s.config.calls
  ledger : ∀ l, s.allocated l = s.ended l + (s.config.state.lchan l).fi.isSome.toNat

theorem modes_subslots (p : Pchan) (nr : Nat) :
    (∃ p' ∈ p.modes, nr < pchanSubslots p') ↔ nr < pchanSubslots p := by
  cases p with
  | tchFTchHPdch =>
    constructor
    · simp only [Pchan.modes,List.mem_cons,List.not_mem_nil,or_false]
      rintro ⟨p',rfl | rfl | rfl,h⟩ <;> simp only [pchanSubslots] at h ⊢ <;> omega
    · exact fun h => ⟨.tchH,by simp [Pchan.modes],h⟩
  | _ => simp [Pchan.modes,pchanSubslots]

theorem Wakeup.instances {w : Bsc} {calls : List Call} (h : Wakeup cfg w calls)
    (hup : (w.ts t).isOmlReady = true) (nr : Nat) :
    (w.lchan ⟨t,nr⟩).fi.isSome ↔ nr < pchanSubslots (w.ts t).pchanOnInit := by
  rcases h.slots t with hs | ⟨j,he⟩
  · rcases hs.lchans with ⟨-,hp,hf⟩ | ⟨hdown,-⟩
    · rw [hp]
      exact hf nr
    · exact absurd (hdown.symm.trans hup) Bool.noConfusion
  · exact absurd (he.down.symm.trans hup) Bool.noConfusion

theorem Managed.Laid.laidOut (h : s.Laid) (t : TsId) : LaidOut s t := by
  refine ⟨fun hfi nr => ?_,fun nr => h.ledger ⟨t,nr⟩,fun l hl => (lchansFrom_isSome hl).2,
    fun nr rest hcalls => ?_⟩
  · rw [modes_subslots]
    exact h.wakeup.instances ((h.upright t).up hfi) nr
  · refine h.ends.live (.lchanTerm ⟨t,nr⟩) ?_ _ rfl
    rw [hcalls]
    exact List.mem_cons_self ..

theorem laid_initial (cfg : TsId → TsCfg) : Managed.Laid { cfg := cfg } :=
  ⟨(wakeup_initial cfg).inForce cfg,fun _ => ⟨fun h => absurd rfl h,by simp [initial]⟩,
    ⟨by simp [initial],by simp [initial]⟩,fun _ => rfl⟩

theorem Managed.Laid.command (h : s.Laid) (t : TsId) (pchan : Pchan) :
    Managed.Laid { s with cfg := cfgTsPchan t pchan s.cfg } :=
  ⟨h.wakeup.inForce _,h.upright,h.ends,h.ledger⟩

theorem Managed.Laid.input {w : Bsc} {allocated ended : LchanId → Nat}
    (h : Managed.Laid ⟨cfg,⟨w,[]⟩,allocated,ended⟩) (i : Input) :
    Managed.Laid ⟨cfg,⟨w,enter i w⟩,allocated,ended⟩ := by
  refine ⟨h.wakeup.enter i,fun t => ?_,?_,h.ledger⟩
  · exact ⟨(h.upright t).up,fun call hcall hs => absurd hs (enter_no_shifts i w t call hcall)⟩
  · have hends : ∀ call ∈ enter i w, call.endsOne = false := fun call hcall =>
      Call.ending_of_endsOne ((enter_cases i w).2 call hcall).2.1
    refine ⟨fun call hcall l he => ?_,?_⟩
    · exact absurd (he.endsOne.symm.trans (hends call hcall)) Bool.noConfusion
    · rw [List.countP_eq_zero.mpr fun call hcall => by simp [hends call hcall]]
      exact Nat.zero_le 1

theorem Managed.Laid.call {w w' : Bsc} {head : Call} {new rest : List Call} {x : Foreign}
    {allocated ended : LchanId → Nat} (h : Managed.Laid ⟨cfg,⟨w,head :: rest⟩,allocated,ended⟩)
    (hgood : ∀ t, setsUp ⟨w,head :: rest⟩ = some t →
      pchanSubslots (w.ts t).pchanOnInit ≤ pchanSubslots (cfg t).pchanFromConfig)
    (he : exec cfg head x w = .ok (w',new)) :
    Managed.Laid ⟨cfg,⟨w',new ++ rest⟩,
      fun l => allocated l + (allocates cfg ⟨w,head :: rest⟩ (.call x) l).toNat,
      fun l => ended l + (frees ⟨w,head :: rest⟩ (.call x) l).toNat⟩ := by
  have hwf := h.wakeup.wf head (List.mem_cons_self ..)
  refine ⟨?_,fun t => (h.upright t).exec (fun hentry => h.wakeup.alone hentry) (exec_tsMoves he),
    h.ends.exec h.wakeup he,fun l => ?_⟩
  · cases hset : setsUp ⟨w,head :: rest⟩ with
    | none =>
      rw [← exec_inForce hset] at he
      exact (h.wakeup.exec he).inForce cfg
    | some t =>
      obtain ⟨rfl,hfi⟩ := setsUp_eq_some hset
      let cfg' := Function.update (inForce cfg w) t (cfg t)
      have hw : Wakeup cfg' w' (new ++ rest) := h.wakeup.setup hfi (by simp [cfg'])
        (fun t' hne => by simp [cfg',hne]) (hgood t hset) he
      exact hw.inForce cfg
  · have hold := h.ledger l
    dsimp only at hold ⊢
    cases hset : setsUp ⟨w,head :: rest⟩ with
    | none =>
      have halloc : allocates cfg ⟨w,head :: rest⟩ (.call x) l = false := by
        simp [allocates,hset]
      rcases exec_isSome hwf hset he l with ⟨hsome,hne⟩ | ⟨rfl,hnone⟩
      · have hfree : frees ⟨w,head :: rest⟩ (.call x) l = false := by
          cases head with
          | lchanCleanupRest l' =>
            refine beq_eq_false_iff_ne.mpr fun heq => hne ?_
            rw [heq]
          | _ => rfl
        rw [halloc,hfree,hsome,hold]
        rfl
      · have hfree : frees ⟨w,.lchanCleanupRest l :: rest⟩ (.call x) l = true := beq_self_eq_true l
        have hlive := h.ends.live _ (List.mem_cons_self ..) l rfl
        dsimp only at hlive
        rw [halloc,hfree,hnone,hold,hlive]
        rfl
    | some t =>
      have hsome := exec_setsUp hset he l
      obtain ⟨rfl,hfi⟩ := setsUp_eq_some hset
      have hfree : frees ⟨w,.tsDispatch t .omlReady :: rest⟩ (.call x) l = false := rfl
      have halloc : (w'.lchan l).fi.isSome.toNat = (w.lchan l).fi.isSome.toNat
          + (allocates cfg ⟨w,.tsDispatch t .omlReady :: rest⟩ (.call x) l).toNat := by
        cases hfi0 : (w.lchan l).fi with
        | some st => simp [allocates,hfi0,hsome]
        | none =>
          by_cases hl : l.ts = t ∧ l.nr < pchanSubslots (cfg t).pchanFromConfig
          · obtain ⟨rfl,hnr⟩ := hl
            simp [allocates,hset,hfi0,hsome,hnr]
          · have hnone : (w'.lchan l).fi.isSome = false := by
              simpa [hfi0,hl] using hsome
            have hnot : allocates cfg ⟨w,.tsDispatch t .omlReady :: rest⟩ (.call x) l = false := by
              rw [Bool.eq_false_iff]
              intro htrue
              simp only [allocates,hset,Bool.and_eq_true,decide_eq_true_eq,Option.some.injEq] at htrue
              obtain ⟨⟨rfl,hnr⟩,-⟩ := htrue
              exact hl ⟨rfl,hnr⟩
            rw [hnone,hnot]
            rfl
      rw [hfree,hold,halloc]
      simp only [Bool.toNat_false]
      omega

theorem Managed.Laid.step {m : ManagedMove} (h : s.Laid) (hgood : shrinks s m = false)
    (hstep : managedStep s m = .ok s') : s'.Laid := by
  obtain ⟨cfg,⟨w,calls⟩,allocated,ended⟩ := s
  cases m with
  | cfgTsPchan t pchan =>
    simp only [managedStep] at hstep
    split at hstep <;> cases hstep
    · exact h.command t pchan
    · exact h
  | move m =>
    simp only [managedStep,bind_eq_ok] at hstep
    obtain ⟨c,hc,hs⟩ := hstep
    cases hs
    cases calls with
    | nil =>
      cases m with
      | input i =>
        cases hc
        exact h.input i
      | call x =>
        cases hc
        exact h
    | cons head rest =>
      cases m with
      | input i =>
        cases hc
        exact ⟨h.wakeup,h.upright,h.ends,h.ledger⟩
      | call x =>
        simp only [Chan.step,Calls.step_call,bind_eq_ok] at hc
        obtain ⟨⟨w',new⟩,he,hc⟩ := hc
        cases hc
        refine h.call (fun t ht => ?_) he
        simpa [shrinks,ht] using hgood

theorem ReachableManaged.laid (h : ReachableManaged cfg s) : s.Laid := by
  let inv (s : Managed) : Prop := s.Laid
  refine show inv s from h.invariant ?_ ?_
  · rintro s rfl
    exact laid_initial cfg
  · exact fun s m s' hs hgood hstep => hs.step hgood hstep

/-- In every run in which no timeslot shrinks while its FSMs are there, these FSMs are
the right ones. -/
theorem lchan_instances_match_layout (h : ReachableManaged cfg s) (t : TsId) : LaidOut s t :=
  h.laid.laidOut t

def sdcch8s (_ : TsId) : TsCfg where
  pchanFromConfig := .sdcch8Sacch8c
  gprs := false
  isIpaccessBts := false
  noLocRelCnf := false

def managedInputs (is : List Input) : List ManagedMove := (moves 40 is).map .move

/-- Timeslot 0 is up as SDCCH/8, goes down, becomes TCH/F_TCH/H_PDCH and comes up again. -/
def reconfigured : List ManagedMove :=
  managedInputs [.omlReady 0,.rslReady 0,.omlDown 0,.rslDown 0] ++
    .cfgTsPchan 0 .tchFTchHPdch :: managedInputs [.omlReady 0,.rslReady 0]

set_option maxRecDepth 20000 in
/-- It has two lchan FSMs then. -/
theorem lchan_instances_match_layout_reconfigured :
    ∃ s, run managedStep { cfg := sdcch8s } reconfigured = .ok s
      ∧ (s.config.state.ts 0).fi = .unused ∧ (s.config.state.ts 0).pchanOnInit = .tchFTchHPdch
      ∧ (s.config.state.lchan ⟨0,1⟩).fi.isSome ∧ ¬ (s.config.state.lchan ⟨0,2⟩).fi.isSome
      ∧ LaidOut s 0 := by
  have hrun : ∃ s, run managedStep { cfg := sdcch8s } reconfigured = .ok s
      ∧ (s.config.state.ts 0).fi = .unused ∧ (s.config.state.ts 0).pchanOnInit = .tchFTchHPdch
      ∧ (s.config.state.lchan ⟨0,1⟩).fi.isSome ∧ ¬ (s.config.state.lchan ⟨0,2⟩).fi.isSome := by
    decide
  have hgood : GoodRun managedStep (fun s m => shrinks s m = false) { cfg := sdcch8s } reconfigured := by
    decide
  obtain ⟨s,hs,hfi,hp,h1,h2⟩ := hrun
  exact ⟨s,hs,hfi,hp,h1,h2,lchan_instances_match_layout (Reach.of_run (.start rfl) hgood hs) 0⟩

/-- OML is ready twice before RSL is, and in between timeslot 0 becomes a TCH/F. -/
def shrunk : List ManagedMove :=
  managedInputs [.omlReady 0] ++ .cfgTsPchan 0 .tchF :: managedInputs [.omlReady 0,.rslReady 0]

/-- Then a TCH/F has eight lchan FSMs, and seven of them outlast TS_EV_OML_DOWN. -/
theorem lchan_instances_outlast_layout :
    (∃ s, run managedStep { cfg := sdcch8s } shrunk = .ok s ∧ (s.config.state.ts 0).fi = .unused
      ∧ ¬ LaidOut s 0)
      ∧ ∃ s, run managedStep { cfg := sdcch8s } (shrunk ++ managedInputs [.omlDown 0]) = .ok s
        ∧ (s.config.state.ts 0).pchanOnInit = .none ∧ (s.config.state.lchan ⟨0,7⟩).fi.isSome := by
  refine ⟨?_,by decide⟩
  have hrun : ∃ s, run managedStep { cfg := sdcch8s } shrunk = .ok s
      ∧ (s.config.state.ts 0).fi = .unused ∧ (s.config.state.ts 0).pchanOnInit = .tchF
      ∧ (s.config.state.lchan ⟨0,7⟩).fi.isSome := by
    decide
  obtain ⟨s,hs,hfi,hp,h7⟩ := hrun
  refine ⟨s,hs,hfi,fun h => ?_⟩
  have := (h.instances (by rw [hfi]; decide) 7).mp h7
  rw [hp,modes_subslots] at this
  exact absurd this (by decide)

end Managed

end OsmoBsc.Chan
