import OsmoBsc.Paging.Queue
set_option autoImplicit false

/-! The timers of paging with the times at which they expire, in microseconds. -/

namespace OsmoBsc.Paging
open EventFsm

def workInterval : Nat := 500000

/-- The time after which a BTS that sends no load indication gets new slots. -/
def creditInterval : Nat := 5000000

/-- `struct gsm_bts_paging_state`; a timer that is pending tells when it expires. `creditSince` is the time
at which the pending credit timer was started first. -/
structure TimedPaging where
  initialized : Bool := false
  pendingRequests : List Request := []
  workTimer : Option Nat := none
  creditTimer : Option Nat := none
  creditSince : Option Nat := none
  freeChansNeed : Int := -1
  availableSlots : Nat := 0
  now : Nat := 0
  deriving DecidableEq, Repr

/-- The state without times. -/
def TimedPaging.erase (s : TimedPaging) : PagingState :=
  { initialized := s.initialized
    pendingRequests := s.pendingRequests
    workTimer := s.workTimer.isSome
    creditTimer := s.creditTimer.isSome
    freeChansNeed := s.freeChansNeed
    availableSlots := s.availableSlots }

namespace TimedPaging

def scheduleWork (s : TimedPaging) : TimedPaging := { s with workTimer := some (s.now + workInterval) }

/-- `osmo_timer_schedule` starts a timer anew even if it is pending. -/
def scheduleCredit (s : TimedPaging) : TimedPaging :=
  { s with creditTimer := some (s.now + creditInterval), creditSince := some (s.creditSince.getD s.now) }

def scheduleIfNeeded (s : TimedPaging) : TimedPaging :=
  if s.pendingRequests.isEmpty then s
  else if s.workTimer.isSome then s else s.scheduleWork

def handlePendingRequests (env : Env) (s : TimedPaging) : Except Fault TimedPaging :=
  match s.pendingRequests with
  | [] => .ok s
  | request :: rest =>
    if s.availableSlots = 0 then .ok s.scheduleCredit
    else if s.freeChansNeed ≠ -1 ∧ env.freeChans request.chanType < s.freeChansNeed then .ok s.scheduleWork
    else if !env.omlLink then .ok s.scheduleWork
    else do
      let slots ← decSlots s.availableSlots
      return scheduleWork { s with
        availableSlots := slots
        pendingRequests := rest ++ [{ request with attempts := request.attempts + 1 }] }

def giveCredit (env : Env) (s : TimedPaging) : Except Fault TimedPaging :=
  handlePendingRequests env { s with availableSlots := 20 }

def initIfNeeded (s : TimedPaging) : Except Fault TimedPaging :=
  if s.initialized then .ok s
  else if s.pendingRequests.isEmpty then .ok { s with initialized := true, availableSlots := 20 }
  else .error .notEmpty

/-- `paging_request_bts`, on a BTS whose C0 is usable. -/
def request (bsub : SubscrId) (type : ChanNeeded) (msc : MscId) (s : TimedPaging) : Except Fault TimedPaging := do
  let s ← s.initIfNeeded
  if s.pendingRequests.any (·.bsub == bsub) then return s
  return scheduleIfNeeded { s with
    pendingRequests := s.pendingRequests ++ [{ bsub := bsub, chanType := type, msc := msc }] }

/-- `paging_update_buffer_space`, a load indication. -/
def updateBufferSpace (freeSlots : Nat) (s : TimedPaging) : Except Fault TimedPaging := do
  let s ← s.initIfNeeded
  return scheduleIfNeeded { s with creditTimer := none, creditSince := none, availableSlots := freeSlots }

end TimedPaging

/-- What happens to one BTS. Time passes up to the next expiry at most. -/
inductive TimedInput where
  | request (bsub : SubscrId) (type : ChanNeeded) (msc : MscId)
  | stop (bsub : SubscrId)
  | t3113Expired (i : Nat)
  | flush (msc : Option MscId)
  | worker (env : Env)
  | credit (env : Env)
  | bufferSpace (freeSlots : Fin 65536)
  | freeChansNeed (count : Int)
  | tick (duration : Nat)

def due (timer : Option Nat) (now : Nat) : Bool := timer.any fun t => decide (t ≤ now)

open TimedPaging in
def timedStep (s : TimedPaging) : TimedInput → Except Fault TimedPaging
  | .request bsub type msc => s.request bsub type msc
  | .stop bsub => do
    let s ← s.initIfNeeded
    return { s with pendingRequests := s.pendingRequests.eraseP (·.bsub == bsub) }
  | .t3113Expired i => .ok { s with pendingRequests := s.pendingRequests.eraseIdx i }
  | .flush msc => do
    let s ← s.initIfNeeded
    return { s with pendingRequests := s.pendingRequests.filter fun req => !msc.all (req.msc == ·) }
  | .worker env =>
    if due s.workTimer s.now then handlePendingRequests env { s with workTimer := none } else .ok s
  | .credit env =>
    if due s.creditTimer s.now then giveCredit env { s with creditTimer := none, creditSince := none } else .ok s
  | .bufferSpace freeSlots => s.updateBufferSpace freeSlots
  | .freeChansNeed count => .ok { s with freeChansNeed := count }
  | .tick duration =>
    if s.workTimer.all (fun t => decide (s.now + duration ≤ t))
        && s.creditTimer.all (fun t => decide (s.now + duration ≤ t)) then
      .ok { s with now := s.now + duration }
    else .ok s

/-- The pending credit timer expires five seconds after it was first started, and it is not later than that. -/
structure TimedPaging.OnTime (s : TimedPaging) : Prop where
  credit : s.creditTimer = s.creditSince.map (· + creditInterval)
  now : ∀ since, s.creditSince = some since → s.now ≤ since + creditInterval

/-- The work timer expires without slots and with requests, while the credit timer is pending. -/
def Restarts (s : TimedPaging) : TimedInput → Prop
  | .worker _ => due s.workTimer s.now = true ∧ s.creditTimer.isSome = true ∧ s.availableSlots = 0
      ∧ s.pendingRequests ≠ []
  | _ => False

instance (s : TimedPaging) (i : TimedInput) : Decidable (Restarts s i) := by
  cases i <;> unfold Restarts <;> infer_instance

/-- What the input is to the paging of a network; callers hold a reference to the subscriber. -/
def TimedInput.untimed {n : Nat} (b : Fin n) (s : TimedPaging) : TimedInput → List (Input n)
  | .request bsub type msc => [.getSubscr bsub,.request b true bsub type msc]
  | .stop bsub => [.getSubscr bsub,.stop (some b) bsub]
  | .t3113Expired i => [.t3113Expired b i]
  | .flush msc => [.flushBts b msc]
  | .worker env => if due s.workTimer s.now then [.worker b env] else []
  | .credit env => if due s.creditTimer s.now then [.credit b env] else []
  | .bufferSpace freeSlots => [.bufferSpace b freeSlots]
  | .freeChansNeed count => [.freeChansNeed b count]
  | .tick _ => []

section Erase

variable {s s' : TimedPaging} {env : Env}

theorem erase_scheduleIfNeeded : s.scheduleIfNeeded.erase = pagingScheduleIfNeeded s.erase := by
  unfold TimedPaging.scheduleIfNeeded pagingScheduleIfNeeded
  by_cases hempty : s.pendingRequests.isEmpty
  · rw [if_pos hempty]
    exact (if_pos hempty).symm
  · rw [if_neg hempty]
    refine Eq.trans ?_ (if_neg hempty).symm
    split
    · next hwork =>
      unfold TimedPaging.erase
      rw [hwork]
    · rfl

theorem erase_handlePendingRequests (h : s.handlePendingRequests env = .ok s') :
    pagingHandlePendingRequests env s.erase = .ok s'.erase := by
  have hmap : (s.handlePendingRequests env).map TimedPaging.erase = pagingHandlePendingRequests env s.erase := by
    unfold TimedPaging.handlePendingRequests pagingHandlePendingRequests
    change _ = match s.pendingRequests with | [] => _ | request :: rest => _
    cases s.pendingRequests with
    | nil => rfl
    | cons request rest =>
      dsimp only
      change _ = if s.availableSlots = 0 then _ else
        if s.freeChansNeed ≠ -1 ∧ env.freeChans request.chanType < s.freeChansNeed then _ else _
      split
      · rfl
      split
      · rfl
      split
      · rfl
      · change _ = (decSlots s.availableSlots >>= _)
        cases decSlots s.availableSlots with
        | error e => rfl
        | ok slots => rfl
  rw [← hmap,h]
  rfl

theorem erase_initIfNeeded (h : s.initIfNeeded = .ok s') : pagingInitIfNeeded s.erase = .ok s'.erase := by
  unfold TimedPaging.initIfNeeded at h
  change (if s.initialized = true then _ else if s.pendingRequests.isEmpty = true then _ else _) = _
  split at h
  · next hinit =>
    cases h
    exact if_pos hinit
  split at h
  · next hinit hempty =>
    cases h
    exact (if_neg hinit).trans (if_pos hempty)
  · cases h

end Erase

section Simulation

variable {n : Nat} {st st' : State n} {b : Fin n} {bsub : SubscrId} {s s' : TimedPaging} {i : TimedInput}

theorem bscSubscrGet_bts (he : bscSubscrGet bsub st = .ok st') : st'.bts = st.bts := by
  unfold bscSubscrGet at he
  split at he
  · cases he
    rfl
  · cases he

theorem getSubscr_bts (he : step st (.getSubscr bsub) = .ok st') : st'.bts = st.bts ∧ st'.others bsub ≠ 0 := by
  obtain ⟨st1,hget,he⟩ := bind_eq_ok.mp he
  cases he
  have hbts : st1.bts = st.bts := bscSubscrGet_bts hget
  refine ⟨hbts,?_⟩
  change Function.update st1.others bsub (st1.others bsub + 1) bsub ≠ 0
  rw [Function.update_self]
  exact Nat.succ_ne_zero _

theorem pagingRequestBts_bts {type : ChanNeeded} {msc : MscId} {p : PagingState}
    (hp : pagingInitIfNeeded (st.bts b) = .ok p) (he : pagingRequestBts b true bsub type msc st = .ok st') :
    st'.bts b = if pagingPendingRequest p bsub then p else pagingScheduleIfNeeded { p with
      pendingRequests := p.pendingRequests ++ [{ bsub := bsub, chanType := type, msc := msc }] } := by
  simp only [pagingRequestBts,Bool.not_true,Bool.false_eq_true,if_false,hp,ok_bind] at he
  split at he
  · next hpend =>
    cases he
    rw [if_pos hpend,updBts_self]
  · next hnew =>
    obtain ⟨st1,-,he⟩ := bind_eq_ok.mp he
    cases he
    rw [if_neg hnew,updBts_self]

theorem pagingRequestStopBts_bts (he : pagingRequestStopBts b bsub st = .ok st') :
    (∃ p, pagingInitIfNeeded (st.bts b) = .ok p ∧
        st'.bts b = { p with pendingRequests := p.pendingRequests.eraseP (·.bsub == bsub) })
      ∧ ∀ b' ≠ b, st'.bts b' = st.bts b' := by
  obtain ⟨p,hp,he⟩ := bind_eq_ok.mp he
  dsimp only at he
  split at he
  · obtain ⟨hbts,-⟩ := removeRequest_eq he
    rw [hbts,updBts_self,updBts_self]
    exact ⟨⟨p,hp,rfl⟩,fun b' hb' => (updBts_ne hb').trans (updBts_ne hb')⟩
  · next hnew =>
    cases he
    refine ⟨⟨p,hp,?_⟩,fun b' hb' => updBts_ne hb'⟩
    rw [updBts_self,List.eraseP_of_forall_not]
    exact fun req hreq heq => hnew (List.any_eq_true.mpr ⟨req,hreq,heq⟩)

theorem stopOthers_bts {bs : List (Fin n)} (hb : b ∉ bs)
    (he : bs.foldlM (fun st b => pagingRequestStopBts b bsub st) st = .ok st') : st'.bts b = st.bts b := by
  induction bs generalizing st with
  | nil =>
    cases he
    rfl
  | cons b' bs ih =>
    rw [List.mem_cons,not_or] at hb
    rw [List.foldlM_cons] at he
    obtain ⟨st1,he1,he2⟩ := bind_eq_ok.mp he
    rw [ih hb.2 he2,(pagingRequestStopBts_bts he1).2 b hb.1]

theorem pagingRequestStop_bts (he : pagingRequestStop (some b) bsub st = .ok st') :
    ∃ p, pagingInitIfNeeded (st.bts b) = .ok p ∧
      st'.bts b = { p with pendingRequests := p.pendingRequests.eraseP (·.bsub == bsub) } := by
  obtain ⟨st1,hget,he⟩ := bind_eq_ok.mp he
  change List.foldlM _ _ (b :: (List.finRange n).filter (some b != some ·)) = _ at he
  rw [List.foldlM_cons] at he
  obtain ⟨st2,he1,he2⟩ := bind_eq_ok.mp he
  obtain ⟨⟨p,hp,hb⟩,-⟩ := pagingRequestStopBts_bts he1
  refine ⟨p,by rw [← bscSubscrGet_bts hget]; exact hp,?_⟩
  rw [stopOthers_bts ?_ he2,hb]
  simp

/-- The request that is removed when its T3113 expires is the one of its subscriber. -/
theorem eraseP_eq_eraseIdx {l : List Request} {k : Nat} {req : Request} (h : (l.map (·.bsub)).Nodup)
    (hreq : l[k]? = some req) : l.eraseP (·.bsub == req.bsub) = l.eraseIdx k := by
  induction l generalizing k with
  | nil => cases hreq
  | cons r l ih =>
    rw [List.map_cons,List.nodup_cons] at h
    cases k with
    | zero =>
      cases hreq
      simp
    | succ k =>
      rw [List.getElem?_cons_succ] at hreq
      have hne : r.bsub ≠ req.bsub := by
        rintro heq
        exact h.1 (heq ▸ List.mem_map_of_mem (List.mem_of_getElem? hreq))
      rw [List.eraseP_cons_of_neg (by simpa using hne),List.eraseIdx_cons_succ,ih h.2 hreq]

theorem timer_of_due {timer : Option Nat} {now : Nat} (h : due timer now = true) : timer.isSome = true := by
  cases timer with
  | none => cases h
  | some t => rfl

theorem erased_initIfNeeded (hs : st.bts b = s.erase) (h : s.initIfNeeded = .ok s') :
    pagingInitIfNeeded (st.bts b) = .ok s'.erase := by
  rw [hs]
  exact erase_initIfNeeded h

theorem request_erased {type : ChanNeeded} {msc : MscId} (hs : st.bts b = s.erase)
    (hstep : timedStep s (.request bsub type msc) = .ok s')
    (hrun : run step st [.getSubscr bsub,.request b true bsub type msc] = .ok st') :
    st'.bts b = s'.erase := by
  obtain ⟨s1,hs1,hstep⟩ := bind_eq_ok.mp hstep
  obtain ⟨st1,hget,hrun⟩ := run_cons_eq_ok.mp hrun
  obtain ⟨st2,hreq,hrun⟩ := run_cons_eq_ok.mp hrun
  cases hrun
  obtain ⟨hbts,hheld⟩ := getSubscr_bts hget
  rw [step,if_neg hheld] at hreq
  rw [pagingRequestBts_bts (by rw [hbts]; exact erased_initIfNeeded hs hs1) hreq]
  split at hstep
  · next hpend =>
    cases hstep
    exact if_pos hpend
  · next hnew =>
    cases hstep
    rw [erase_scheduleIfNeeded]
    exact if_neg hnew

theorem stop_erased (hs : st.bts b = s.erase) (hstep : timedStep s (.stop bsub) = .ok s')
    (hrun : run step st [.getSubscr bsub,.stop (some b) bsub] = .ok st') : st'.bts b = s'.erase := by
  obtain ⟨s1,hs1,hstep⟩ := bind_eq_ok.mp hstep
  cases hstep
  obtain ⟨st1,hget,hrun⟩ := run_cons_eq_ok.mp hrun
  obtain ⟨st2,hstop,hrun⟩ := run_cons_eq_ok.mp hrun
  cases hrun
  obtain ⟨hbts,hheld⟩ := getSubscr_bts hget
  rw [step,if_neg hheld] at hstop
  obtain ⟨p,hp,hb⟩ := pagingRequestStop_bts hstop
  rw [hbts,erased_initIfNeeded hs hs1] at hp
  cases hp
  exact hb

theorem t3113Expired_erased {k : Nat} (h : Ok st) (hs : st.bts b = s.erase)
    (hexp : step st (.t3113Expired b k) = .ok st') :
    st'.bts b = { s with pendingRequests := s.pendingRequests.eraseIdx k }.erase := by
  have hreqs : (st.bts b).pendingRequests = s.pendingRequests := by rw [hs]; rfl
  rw [step] at hexp
  split at hexp
  · next hnone =>
    cases hexp
    rw [hs]
    unfold TimedPaging.erase
    dsimp only
    rw [List.eraseIdx_of_length_le]
    rw [← hreqs]
    exact List.getElem?_eq_none_iff.mp hnone
  · next req hreq =>
    obtain ⟨hbts,-⟩ := removeRequest_eq hexp
    rw [hbts,updBts_self,eraseP_eq_eraseIdx (h.bts b).unique hreq,hs]
    rfl

theorem expire_erased {handle : PagingState → Except Fault PagingState} {p : PagingState}
    (h : handle p = .ok s'.erase) (he : expire b p st handle = .ok st') : st'.bts b = s'.erase := by
  obtain ⟨p',hp,hb⟩ := bind_eq_ok.mp he
  cases hb
  rw [h] at hp
  cases hp
  exact updBts_self

theorem worker_erased {env : Env} (hs : st.bts b = s.erase) (hdue : due s.workTimer s.now = true)
    (hstep : TimedPaging.handlePendingRequests env { s with workTimer := none } = .ok s')
    (hwork : step st (.worker b env) = .ok st') : st'.bts b = s'.erase := by
  have hpending : (st.bts b).workTimer = true := by
    rw [hs]
    exact timer_of_due hdue
  simp only [step,hpending,Bool.not_true,Bool.false_eq_true,if_false] at hwork
  rw [hs] at hwork
  exact expire_erased (erase_handlePendingRequests hstep) hwork

theorem credit_erased {env : Env} (hs : st.bts b = s.erase) (hdue : due s.creditTimer s.now = true)
    (hstep : TimedPaging.giveCredit env { s with creditTimer := none, creditSince := none } = .ok s')
    (hcredit : step st (.credit b env) = .ok st') : st'.bts b = s'.erase := by
  have hpending : (st.bts b).creditTimer = true := by
    rw [hs]
    exact timer_of_due hdue
  simp only [step,hpending,Bool.not_true,Bool.false_eq_true,if_false] at hcredit
  rw [hs] at hcredit
  exact expire_erased (erase_handlePendingRequests hstep) hcredit

/-- After the input the BTS has the state that the timed model has, but for the times. -/
theorem timedStep_bts (h : Ok st) (hs : st.bts b = s.erase) (hstep : timedStep s i = .ok s')
    (hrun : run step st (i.untimed b s) = .ok st') : st'.bts b = s'.erase := by
  cases i with
  | request bsub type msc => exact request_erased hs hstep hrun
  | stop bsub => exact stop_erased hs hstep hrun
  | t3113Expired k =>
    cases hstep
    obtain ⟨st1,hexp,hrun⟩ := run_cons_eq_ok.mp hrun
    cases hrun
    exact t3113Expired_erased h hs hexp
  | flush msc =>
    obtain ⟨s1,hs1,hstep⟩ := bind_eq_ok.mp hstep
    cases hstep
    obtain ⟨st1,hflush,hrun⟩ := run_cons_eq_ok.mp hrun
    cases hrun
    obtain ⟨⟨p,hp,hb⟩,-⟩ := pagingFlushBts_bts h hflush
    rw [erased_initIfNeeded hs hs1] at hp
    cases hp
    exact hb
  | worker env =>
    rw [timedStep] at hstep
    rw [TimedInput.untimed] at hrun
    split at hstep
    · next hdue =>
      rw [if_pos hdue] at hrun
      obtain ⟨st1,hwork,hrun⟩ := run_cons_eq_ok.mp hrun
      cases hrun
      exact worker_erased hs hdue hstep hwork
    · next hdue =>
      rw [if_neg hdue] at hrun
      cases hstep
      cases hrun
      exact hs
  | credit env =>
    rw [timedStep] at hstep
    rw [TimedInput.untimed] at hrun
    split at hstep
    · next hdue =>
      rw [if_pos hdue] at hrun
      obtain ⟨st1,hcredit,hrun⟩ := run_cons_eq_ok.mp hrun
      cases hrun
      exact credit_erased hs hdue hstep hcredit
    · next hdue =>
      rw [if_neg hdue] at hrun
      cases hstep
      cases hrun
      exact hs
  | bufferSpace freeSlots =>
    obtain ⟨s1,hs1,hstep⟩ := bind_eq_ok.mp hstep
    cases hstep
    obtain ⟨st1,hspace,hrun⟩ := run_cons_eq_ok.mp hrun
    cases hrun
    refine expire_erased ?_ hspace
    rw [pagingUpdateBufferSpace,erased_initIfNeeded hs hs1,ok_bind,erase_scheduleIfNeeded]
    rfl
  | freeChansNeed count =>
    cases hstep
    cases hrun
    rw [updBts_self,hs]
    rfl
  | tick duration =>
    cases hrun
    rw [timedStep] at hstep
    split at hstep
    · cases hstep
      exact hs
    · cases hstep
      exact hs

/-- A step of the timed model is a run of the paging of a network. -/
theorem timedStep_simulated (h : Ok st) (hs : st.bts b = s.erase) (hstep : timedStep s i = .ok s') :
    Keeps (fun st' => st'.bts b = s'.erase) (run step st (i.untimed b s)) := by
  refine (run_keeps h (i.untimed b s)).imp id ?_
  rintro ⟨st',hrun,hok,-⟩
  exact ⟨st',hrun,hok,timedStep_bts h hs hstep hrun⟩

theorem timedRun_simulated {is : List TimedInput} (h : Ok st) (hs : st.bts b = s.erase)
    (hrun : run timedStep s is = .ok s') :
    ∃ js, Keeps (fun st' => st'.bts b = s'.erase) (run step st js) := by
  induction is generalizing s st with
  | nil =>
    cases hrun
    exact ⟨[],keeps_ok h hs⟩
  | cons i is ih =>
    obtain ⟨s1,hstep,hrun⟩ := run_cons_eq_ok.mp hrun
    rcases timedStep_simulated h hs hstep with he | ⟨st1,he,h1,hs1⟩
    · exact ⟨i.untimed b s,.inl he⟩
    · obtain ⟨js,hjs⟩ := ih h1 hs1 hrun
      refine ⟨i.untimed b s ++ js,?_⟩
      rw [run_append,he]
      exact hjs

end Simulation

structure TimedPaging.Inv (s : TimedPaging) : Prop where
  paired : s.creditTimer.isSome = s.creditSince.isSome
  since : ∀ since, s.creditSince = some since → since ≤ s.now ∧ ∀ w, s.workTimer = some w → since < w
  work : ∀ w, s.workTimer = some w → s.now ≤ w
  credit : ∀ c, s.creditTimer = some c → s.now ≤ c

/-- The credit timer and the time stay, and the work timer may be stopped or started anew. -/
structure TimedPaging.KeepsCredit (s s' : TimedPaging) : Prop where
  credit : s'.creditTimer = s.creditTimer
  since : s'.creditSince = s.creditSince
  now : s'.now = s.now
  work : ∀ w, s'.workTimer = some w → s.workTimer = some w ∨ w = s.now + workInterval

section Steps

variable {s s' s'' : TimedPaging} {env : Env} {i : TimedInput}

theorem due_iff {timer : Option Nat} {now : Nat} : due timer now = true ↔ ∃ t, timer = some t ∧ t ≤ now := by
  cases timer with
  | none => exact iff_of_false Bool.false_ne_true (by rintro ⟨t,ht,-⟩; cases ht)
  | some t => exact ⟨fun h => ⟨t,rfl,of_decide_eq_true h⟩,by rintro ⟨t',ht,hle⟩; cases ht; exact decide_eq_true hle⟩

theorem TimedPaging.KeepsCredit.of_eq (hc : s'.creditTimer = s.creditTimer) (hs : s'.creditSince = s.creditSince)
    (hn : s'.now = s.now) (hw : s'.workTimer = s.workTimer) : s.KeepsCredit s' :=
  ⟨hc,hs,hn,fun _ h => .inl (hw.symm.trans h)⟩

theorem TimedPaging.KeepsCredit.trans (h : s.KeepsCredit s') (h' : s'.KeepsCredit s'') : s.KeepsCredit s'' where
  credit := h'.credit.trans h.credit
  since := h'.since.trans h.since
  now := h'.now.trans h.now
  work := by
    intro w hw
    rcases h'.work w hw with hw' | hw'
    · exact h.work w hw'
    · exact .inr (by rw [hw',h.now])

theorem TimedPaging.KeepsCredit.inv (hk : s.KeepsCredit s') (h : s.Inv) : s'.Inv where
  paired := by rw [hk.credit,hk.since,h.paired]
  since := by
    intro since hsince
    rw [hk.since] at hsince
    obtain ⟨hle,hlt⟩ := h.since since hsince
    refine ⟨by rw [hk.now]; exact hle,fun w hw => ?_⟩
    rcases hk.work w hw with hw' | hw'
    · exact hlt w hw'
    · rw [hw',workInterval]
      omega
  work := by
    intro w hw
    rw [hk.now]
    rcases hk.work w hw with hw' | hw'
    · exact h.work w hw'
    · omega
  credit := by
    intro c hc
    rw [hk.now]
    exact h.credit c (hk.credit.symm.trans hc)

theorem TimedPaging.KeepsCredit.onTime (hk : s.KeepsCredit s') (h : s.OnTime) : s'.OnTime where
  credit := by rw [hk.credit,hk.since,h.credit]
  now := by
    intro since hsince
    rw [hk.now]
    exact h.now since (hk.since.symm.trans hsince)

theorem scheduleWork_keeps (s : TimedPaging) : s.KeepsCredit s.scheduleWork :=
  ⟨rfl,rfl,rfl,fun _ hw => .inr (Option.some.inj hw).symm⟩

theorem scheduleIfNeeded_keeps (s : TimedPaging) : s.KeepsCredit s.scheduleIfNeeded := by
  unfold TimedPaging.scheduleIfNeeded
  split
  · exact .of_eq rfl rfl rfl rfl
  split
  · exact .of_eq rfl rfl rfl rfl
  · exact scheduleWork_keeps s

theorem initIfNeeded_keeps (h : s.initIfNeeded = .ok s') : s.KeepsCredit s' := by
  unfold TimedPaging.initIfNeeded at h
  split at h
  · cases h
    exact .of_eq rfl rfl rfl rfl
  split at h
  · cases h
    exact .of_eq rfl rfl rfl rfl
  · cases h

/-- Without slots, and with requests, the credit timer is started; in all other cases it stays. -/
theorem handlePendingRequests_cases (h : s.handlePendingRequests env = .ok s') :
    s.availableSlots = 0 ∧ s.pendingRequests ≠ [] ∧ s' = s.scheduleCredit
      ∨ ¬ (s.availableSlots = 0 ∧ s.pendingRequests ≠ []) ∧ s.KeepsCredit s'
        ∧ (s'.availableSlots = s.availableSlots ∨ s'.availableSlots + 1 = s.availableSlots) := by
  unfold TimedPaging.handlePendingRequests at h
  cases hreq : s.pendingRequests with
  | nil =>
    rw [hreq] at h
    cases h
    exact .inr ⟨fun h => h.2 rfl,.of_eq rfl rfl rfl rfl,.inl rfl⟩
  | cons request rest =>
    rw [hreq] at h
    dsimp only at h
    split at h
    · next hslots =>
      cases h
      exact .inl ⟨hslots,List.cons_ne_nil _ _,rfl⟩
    · next hslots =>
      refine .inr ⟨fun hzero => hslots hzero.1,?_⟩
      split at h
      · cases h
        exact ⟨scheduleWork_keeps s,.inl rfl⟩
      split at h
      · cases h
        exact ⟨scheduleWork_keeps s,.inl rfl⟩
      · rw [decSlots,if_neg hslots] at h
        cases h
        exact ⟨⟨rfl,rfl,rfl,(scheduleWork_keeps s).work⟩,.inr (Nat.sub_add_cancel (Nat.pos_of_ne_zero hslots))⟩

theorem TimedPaging.Inv.cleared (h : s.Inv) :
    TimedPaging.Inv { s with creditTimer := none, creditSince := none } where
  paired := rfl
  since := fun _ hsince => by cases hsince
  work := h.work
  credit := fun _ hc => by cases hc

theorem onTime_cleared (s : TimedPaging) :
    TimedPaging.OnTime { s with creditTimer := none, creditSince := none } :=
  ⟨rfl,fun _ hsince => by cases hsince⟩

theorem TimedPaging.Inv.scheduleCredit (h : s.Inv) (hdue : due s.workTimer s.now = true) :
    (TimedPaging.scheduleCredit { s with workTimer := none }).Inv
      ∧ (s.OnTime → ((TimedPaging.scheduleCredit { s with workTimer := none }).OnTime ↔ s.creditTimer.isSome = false)) := by
  have hpaired := h.paired
  cases hsince : s.creditSince with
  | none =>
    rw [hsince] at hpaired
    refine ⟨⟨?_,fun since hs => ?_,fun w hw => (by cases hw),fun c hc => ?_⟩,fun _ => iff_of_true ⟨?_,fun since hs => ?_⟩ hpaired⟩
    · rfl
    · simp only [TimedPaging.scheduleCredit,Option.getD_none,Option.some.injEq] at hs
      exact ⟨Nat.le_of_eq hs.symm,fun w hw => by cases hw⟩
    · cases hc
      exact Nat.le_add_right _ _
    · simp only [TimedPaging.scheduleCredit,Option.getD_none,Option.map_some]
    · simp only [TimedPaging.scheduleCredit,Option.getD_none,Option.some.injEq] at hs ⊢
      omega
  | some since =>
    rw [hsince] at hpaired
    obtain ⟨hle,hlt⟩ := h.since since hsince
    obtain ⟨w,hw,hdue'⟩ := due_iff.mp hdue
    have hlate : since < s.now := Nat.lt_of_lt_of_le (hlt w hw) hdue'
    refine ⟨⟨?_,fun since' hs => ?_,fun w hw => (by cases hw),fun c hc => ?_⟩,fun _ => iff_of_false (fun hon => ?_) ?_⟩
    · rfl
    · simp only [TimedPaging.scheduleCredit,Option.getD_some,Option.some.injEq] at hs ⊢
      exact ⟨by omega,fun w hw => by cases hw⟩
    · cases hc
      exact Nat.le_add_right _ _
    · have hcredit := hon.credit
      simp only [TimedPaging.scheduleCredit,Option.getD_some,Option.map_some,Option.some.injEq] at hcredit
      omega
    · rw [hpaired]
      exact Bool.true_eq_false.mp

/-- A step keeps the credit timer on time if and only if it does not start it anew. -/
theorem TimedPaging.Inv.step (h : s.Inv) (hstep : timedStep s i = .ok s') :
    s'.Inv ∧ (s.OnTime → (s'.OnTime ↔ ¬ Restarts s i)) := by
  -- inputs that leave the credit timer
  have hkeep : ∀ {s'}, s.KeepsCredit s' → ¬ Restarts s i → s'.Inv ∧ (s.OnTime → (s'.OnTime ↔ ¬ Restarts s i)) :=
    fun hk hr => ⟨hk.inv h,fun hon => iff_of_true (hk.onTime hon) hr⟩
  have hclear : ∀ {s'}, TimedPaging.KeepsCredit { s with creditTimer := none, creditSince := none } s' →
      ¬ Restarts s i → s'.Inv ∧ (s.OnTime → (s'.OnTime ↔ ¬ Restarts s i)) :=
    fun hk hr => ⟨hk.inv h.cleared,fun _ => iff_of_true (hk.onTime (onTime_cleared s)) hr⟩
  cases i with
  | request bsub type msc =>
    obtain ⟨s1,hinit,h1⟩ := bind_eq_ok.mp hstep
    have hk := initIfNeeded_keeps hinit
    split at h1
    · cases h1
      exact hkeep hk id
    · cases h1
      refine hkeep (hk.trans (KeepsCredit.trans ?_ (scheduleIfNeeded_keeps _))) id
      exact .of_eq rfl rfl rfl rfl
  | stop bsub =>
    obtain ⟨s1,hinit,h1⟩ := bind_eq_ok.mp hstep
    cases h1
    exact hkeep ((initIfNeeded_keeps hinit).trans (.of_eq rfl rfl rfl rfl)) id
  | t3113Expired k =>
    cases hstep
    exact hkeep (.of_eq rfl rfl rfl rfl) id
  | flush msc =>
    obtain ⟨s1,hinit,h1⟩ := bind_eq_ok.mp hstep
    cases h1
    exact hkeep ((initIfNeeded_keeps hinit).trans (.of_eq rfl rfl rfl rfl)) id
  | freeChansNeed count =>
    cases hstep
    exact hkeep (.of_eq rfl rfl rfl rfl) id
  | worker env =>
    rw [timedStep] at hstep
    split at hstep
    · next hdue =>
      rcases handlePendingRequests_cases hstep with ⟨hslots,hreq,rfl⟩ | ⟨hnot,hk,-⟩
      · obtain ⟨hinv,hon⟩ := h.scheduleCredit hdue
        refine ⟨hinv,fun hs => (hon hs).trans ?_⟩
        rw [← Bool.not_eq_true]
        exact not_congr ⟨fun hsome => ⟨hdue,hsome,hslots,hreq⟩,fun hr => hr.2.1⟩
      · have hk' : s.KeepsCredit { s with workTimer := none } := ⟨rfl,rfl,rfl,fun _ hw => by cases hw⟩
        exact hkeep (hk'.trans hk) fun hr => hnot ⟨hr.2.2.1,hr.2.2.2⟩
    · next hdue =>
      cases hstep
      exact hkeep (.of_eq rfl rfl rfl rfl) fun hr => hdue hr.1
  | credit env =>
    rw [timedStep] at hstep
    split at hstep
    · rcases handlePendingRequests_cases hstep with ⟨hslots,-⟩ | ⟨-,hk,-⟩
      · cases hslots
      · exact hclear ⟨hk.credit,hk.since,hk.now,hk.work⟩ id
    · cases hstep
      exact hkeep (.of_eq rfl rfl rfl rfl) id
  | bufferSpace freeSlots =>
    obtain ⟨s1,hinit,h1⟩ := bind_eq_ok.mp hstep
    cases h1
    have hk := initIfNeeded_keeps hinit
    have hk0 : TimedPaging.KeepsCredit { s with creditTimer := none, creditSince := none }
        { s1 with creditTimer := none, creditSince := none, availableSlots := freeSlots.val } :=
      ⟨rfl,rfl,hk.now,hk.work⟩
    exact hclear (hk0.trans (scheduleIfNeeded_keeps _)) id
  | tick duration =>
    rw [timedStep] at hstep
    split at hstep
    · next hpass =>
      cases hstep
      obtain ⟨hwork,hcredit⟩ := (Bool.and_eq_true _ _).mp hpass
      have hwork' : ∀ w, s.workTimer = some w → s.now + duration ≤ w := by
        intro w hw
        rw [hw] at hwork
        exact of_decide_eq_true hwork
      have hcredit' : ∀ c, s.creditTimer = some c → s.now + duration ≤ c := by
        intro c hc
        rw [hc] at hcredit
        exact of_decide_eq_true hcredit
      refine ⟨⟨h.paired,fun since hs => ⟨?_,(h.since since hs).2⟩,hwork',hcredit'⟩,
        fun hon => iff_of_true ⟨hon.credit,fun since hs => ?_⟩ id⟩
      · exact Nat.le_trans (h.since since hs).1 (Nat.le_add_right _ _)
      · exact hcredit' _ (by rw [hon.credit,hs]; rfl)
    · cases hstep
      exact hkeep (.of_eq rfl rfl rfl rfl) id

theorem TimedPaging.Inv.initial (now : Nat) : TimedPaging.Inv { now := now } where
  paired := rfl
  since := fun _ hsince => by cases hsince
  work := fun _ hw => by cases hw
  credit := fun _ hc => by cases hc

end Steps

def TimedPaging.Fresh (s : TimedPaging) : Prop := ∃ now, s = { now := now }

/-- The states that runs reach in which the work timer never restarts the credit timer. -/
abbrev Undelayed : TimedPaging → Prop := Reach timedStep (fun s i => ¬ Restarts s i) TimedPaging.Fresh

theorem Undelayed.inv {s : TimedPaging} (h : Undelayed s) : s.Inv ∧ s.OnTime := by
  induction h with
  | start h =>
    obtain ⟨now,rfl⟩ := h
    exact ⟨.initial now,⟨rfl,fun _ hsince => by cases hsince⟩⟩
  | next _ hgood hstep ih =>
    obtain ⟨hinv,hon⟩ := ih.1.step hstep
    exact ⟨hinv,(hon ih.2).mpr hgood⟩

/-- The credit timer is on time in all states of a run, and gives slots when it expires, until the work timer
first restarts it; then it is late. -/
theorem credit_onTime (s : TimedPaging) (h : Undelayed s) :
    s.OnTime
      ∧ (∀ env s', due s.creditTimer s.now = true → timedStep s (.credit env) = .ok s' →
        s'.availableSlots = 20 ∨ s'.availableSlots = 19)
      ∧ ∀ i s', timedStep s i = .ok s' → (s'.OnTime ↔ ¬ Restarts s i) := by
  obtain ⟨hinv,hon⟩ := h.inv
  refine ⟨hon,fun env s' hdue hstep => ?_,fun i s' hstep => (hinv.step hstep).2 hon⟩
  rw [timedStep] at hstep
  rw [if_pos hdue] at hstep
  rcases handlePendingRequests_cases hstep with ⟨hslots,-⟩ | ⟨-,-,hslots⟩
  · cases hslots
  · dsimp only at hslots
    omega

/-- A request, and a load indication without free slots: the credit timer is started after half a second. -/
def exhausted : List TimedInput :=
  [.request 1 .any 0,.bufferSpace 0,.tick 500000,.worker ⟨fun _ => 4,true⟩]

theorem credit_onTime_exhausted : ∃ s, run timedStep {} (exhausted ++ [.tick 5000000]) = .ok s
    ∧ s.now = 5500000 ∧ s.OnTime := by
  refine ⟨_,rfl,rfl,?_⟩
  have hgood : GoodRun timedStep (fun s i => ¬ Restarts s i) {} (exhausted ++ [.tick 5000000]) := by decide
  exact (credit_onTime _ (Reach.of_run (.start ⟨0,rfl⟩) hgood rfl)).1

/-- A second request arrives four seconds later, and the credit timer starts anew. -/
theorem credit_late : ∃ s, run timedStep {}
      (exhausted ++ [.tick 4000000,.request 2 .any 0,.tick 500000,.worker ⟨fun _ => 4,true⟩]) = .ok s
    ∧ s.creditSince = some 500000 ∧ s.creditTimer = some 10000000 ∧ ¬ s.OnTime := by
  refine ⟨_,rfl,rfl,rfl,fun hon => ?_⟩
  have hcredit := hon.credit
  revert hcredit
  decide

end OsmoBsc.Paging
