import OsmoBsc.Rf.Control
set_option autoImplicit false

/-! What RF control makes of the transceivers over a run. -/

namespace OsmoBsc.Rf
open EventFsm Timers

variable {cfg : Cfg} {rf rf' : BscRf}

def BscRf.Ruled (rf : BscRf) (b : UInt8) (i : Nat) : Prop :=
  b ∈ rf.net.list ∧ rf.exclFromRfLock b = false ∧ i < (rf.net.bts b).trx.length

/-- Neither the exclusions nor the lock of a single TRX are changed by hand. -/
def Calm : Input → Prop
  | .rfLockExclude _ _ | .trxRfLocked _ _ _ => False
  | _ => True

instance (i : Input) : Decidable (Calm i) := by
  cases i <;> unfold Calm <;> infer_instance

/-- A command to switch RF off, on the socket or over the control interface. -/
def AsksOff : Input → Prop
  | .rfReadCmd c => c = rfCmdOff ∨ c = rfCmdDOff
  | .setNetRfLock locked => locked = 1
  | _ => False

/-- Nothing asks for RF, no BTS that was excluded comes under the lock, and no TRX is unlocked by hand. -/
def KeepsOff : Input → Prop
  | .rfReadCmd c => c ≠ rfCmdOn
  | .setNetRfLock locked => locked ≠ 0
  | .rfLockExclude _ excl => excl = true
  | .trxRfLocked _ _ locked => locked = true
  | _ => True

def BscRf.All (rf : BscRf) (lock : Bool) : Prop := ∀ b i, rf.Ruled b i → rf.locked (b,i) = lock

section Frames

theorem Ruled.of_shape {b : UInt8} {i : Nat} (h : rf'.Ruled b i)
    (hs : HasShape rf.net.list (fun b => (rf.net.bts b).trx.length) rf'.net)
    (he : rf'.exclFromRfLock = rf.exclFromRfLock) : rf.Ruled b i := by
  simpa only [BscRf.Ruled,hs.list,hs.trx,he] using h

theorem Locks.ruled {who : UInt8 → Nat → Prop} {lock : Bool} (h : Locks who lock rf rf') {b : UInt8} {i : Nat} :
    rf'.Ruled b i ↔ rf.Ruled b i := by
  simp only [BscRf.Ruled,h.shape.list,h.shape.trx,h.excl]

theorem lockEachTrx_all (rf : BscRf) (lock : Bool) : (rf.lockEachTrx lock).All lock := by
  intro b i hb
  have hlocks := lockEachTrx_locks rf lock
  exact hlocks.set b i (hlocks.ruled.mp hb)

end Frames

inductive Turned (cfg : Cfg) (rf rf' : BscRf) : Prop where
  | off : rf'.policy = .off → rf'.All true → Turned cfg rf rf'
  | on : rf.clock.Expired .delayCmd → rf.lastRequest = rfCmdOn → rf'.policy = .on → rf'.All false → Turned cfg rf rf'
  | kept : (rf'.policy = rf.policy ∨ rf'.policy = .grace) → (∀ lock, rf.All lock → rf'.All lock) → Turned cfg rf rf'

theorem scheduleLock_turned (rf : BscRf) (c : Char) : Turned cfg rf (rf.scheduleLock c) :=
  .kept (.inl rfl) fun _ => id

theorem timerCb_turned {t : Timer} (ht : rf.clock.Expired t)
    (h : ({ rf with clock := rf.clock.del t } : BscRf).timerCb cfg t = some rf') : Turned cfg rf rf' := by
  cases t with
  | delayCmd =>
    cases h
    rw [BscRf.rfDelayCmdCb]
    split
    · exact .off rfl (lockEachTrx_all _ true)
    split
    · rename_i hon
      exact .on ht hon rfl (lockEachTrx_all _ false)
    split
    · rw [BscRf.enterGrace]
      split
      · exact .kept (.inl rfl) fun _ => id
      · exact .kept (.inr rfl) fun _ => id
    · exact .kept (.inl rfl) fun _ => id
  | rfCheck =>
    obtain ⟨net,hcheck,hchecked,-⟩ := rfCheckCb_checked { rf with clock := rf.clock.del .rfCheck }
    cases hcheck.symm.trans h
    exact .kept (.inl rfl) fun lock hall b i hb => hall b i (Ruled.of_shape hb hchecked.shape rfl)
  | graceTimeout =>
    cases h
    exact .off rfl (lockEachTrx_all _ true)
  | autoOffTimer =>
    cases h
    exact .kept (.inl rfl) fun _ => id

theorem step_turned {i : Input} (hcalm : Calm i) (h : step cfg rf i = .ok rf') : Turned cfg rf rf' := by
  cases i with
  | rfReadCmd c =>
    cases h
    rw [BscRf.rfReadCmd]
    split
    · exact .kept (.inl rfl) fun _ => id
    · split
      · exact scheduleLock_turned rf c
      · exact .kept (.inl rfl) fun _ => id
  | setNetRfLock locked =>
    cases h
    rw [BscRf.setNetRfLock]
    split
    · exact .kept (.inl rfl) fun _ => id
    · exact scheduleLock_turned rf _
  | expire t =>
    rw [step] at h
    split at h
    · rename_i ht
      split at h
      · rename_i hcb
        cases h
        exact timerCb_turned ht hcb
      · cases h
    · cases h
      exact .kept (.inl rfl) fun _ => id
  | elapse us =>
    cases h
    exact .kept (.inl rfl) fun _ => id
  | mscSignal lost =>
    cases h
    rw [BscRf.mscSignalHandler]
    split
    · split
      · exact .kept (.inl rfl) fun _ => id
      · split
        · exact .kept (.inl rfl) fun _ => id
        · exact .kept (.inl rfl) fun _ => id
    · exact .kept (.inl rfl) fun _ => id
  | rfLockExclude b excl => exact hcalm.elim
  | trxRfLocked b i locked => exact hcalm.elim
  | link i =>
    rw [step] at h
    obtain ⟨net,hnet,h⟩ := bind_eq_ok.mp h
    cases h
    refine .kept (.inl rfl) fun lock hall b i hb => hall b i (Ruled.of_shape hb ?_ rfl)
    rw [Ipaccess.step] at hnet
    have hself : HasShape rf.net.list (fun b => (rf.net.bts b).trx.length) rf.net := ⟨rfl,fun _ => rfl⟩
    split at hnet
    · split at hnet
      · cases hnet
      · rename_i hexec
        cases hnet
        exact hself.exec hexec
    · cases hnet
      exact hself

structure Aligned (rf : BscRf) : Prop where
  same : ∃ lock, rf.All lock
  off : rf.policy = .off → rf.All true
  on : rf.policy = .on → rf.All false

theorem Turned.aligned (h : Turned cfg rf rf') (ha : Aligned rf) : Aligned rf' := by
  cases h with
  | off hp hall => exact ⟨⟨true,hall⟩,fun _ => hall,fun hon => (nomatch hp.symm.trans hon)⟩
  | on _ _ hp hall => exact ⟨⟨false,hall⟩,fun hoff => (nomatch hp.symm.trans hoff),fun _ => hall⟩
  | kept hp hall =>
    obtain ⟨lock,hlock⟩ := ha.same
    refine ⟨⟨lock,hall lock hlock⟩,fun hoff => hall true (ha.off ?_),fun hon => hall false (ha.on ?_)⟩
    · rcases hp with hp | hp
      · rwa [← hp]
      · rw [hp] at hoff
        cases hoff
    · rcases hp with hp | hp
      · rwa [← hp]
      · rw [hp] at hon
        cases hon

theorem aligned_of_reach (h : Reach (step cfg) (fun _ i => Calm i) Fresh rf) : Aligned rf := by
  refine Reach.invariant (fun rf h => ?_) (fun rf i rf' ha hcalm hstep => (step_turned hcalm hstep).aligned ha) h
  obtain ⟨net,excl,-,rfl⟩ := h
  exact ⟨⟨false,fun _ _ _ => rfl⟩,fun hoff => (nomatch hoff),fun _ _ _ _ => rfl⟩

section Off

variable {t0 : Nat}

/-- RF is about to go off, or is off: after the delay of a command, after that and the time of grace, or now. -/
structure GoingOff (cfg : Cfg) (t0 : Nat) (rf : BscRf) : Prop where
  request : rf.lastRequest = rfCmdOff ∨ rf.lastRequest = rfCmdDOff
  phase : (∃ d, rf.clock.due .delayCmd = some d ∧ d ≤ t0 + sec)
    ∨ (∃ d, rf.clock.due .graceTimeout = some d ∧ d ≤ t0 + (1 + cfg.midCallTimeout) * sec)
    ∨ rf.policy ≠ .on ∧ rf.All true

/-- A step that leaves the request, the two timers and the lock of the TRXs. -/
theorem GoingOff.keep (h : GoingOff cfg t0 rf) (hreq : rf'.lastRequest = rf.lastRequest)
    (hdue : ∀ t, t = .delayCmd ∨ t = .graceTimeout → rf'.clock.due t = rf.clock.due t)
    (hpolicy : rf'.policy = rf.policy) (hall : rf.All true → rf'.All true) : GoingOff cfg t0 rf' := by
  refine ⟨hreq ▸ h.request,?_⟩
  rw [hdue _ (.inl rfl),hdue _ (.inr rfl),hpolicy]
  exact h.phase.imp_right (Or.imp_right fun hoff => ⟨hoff.1,hall hoff.2⟩)

theorem GoingOff.scheduleLock (h : GoingOff cfg t0 rf) {c : Char} (hc : c = rfCmdOff ∨ c = rfCmdDOff) :
    GoingOff cfg t0 (rf.scheduleLock c) := by
  refine ⟨hc,?_⟩
  rw [BscRf.scheduleLock]
  dsimp only
  split
  · exact h.phase
  · rename_i hidle
    rw [Bool.not_eq_true,Clock.pending_eq_false] at hidle
    have hgrace : (rf.clock.schedule .delayCmd sec).due .graceTimeout = rf.clock.due .graceTimeout :=
      Clock.schedule_due_of_ne (by decide)
    rcases h.phase with ⟨d,hd,-⟩ | ⟨d,hd,hle⟩ | hnow
    · rw [hidle] at hd
      cases hd
    · exact .inr (.inl ⟨d,hgrace.trans hd,hle⟩)
    · exact .inr (.inr hnow)

theorem GoingOff.rfDelayCmdCb (h : GoingOff cfg t0 rf) (hs : Safe cfg rf) :
    GoingOff cfg t0 (({ rf with clock := rf.clock.del .delayCmd } : BscRf).rfDelayCmdCb cfg) := by
  rw [BscRf.rfDelayCmdCb]
  dsimp only
  rcases h.request with hoff | hdoff
  · rw [hoff,if_neg (by decide),if_neg (by decide),if_pos rfl,BscRf.enterGrace]
    have hgrace : ∀ d, rf.clock.due .graceTimeout = some d →
        ((∃ d, rf.clock.due .delayCmd = some d ∧ d ≤ t0 + sec)
          ∨ ∃ d, rf.clock.due .graceTimeout = some d ∧ d ≤ t0 + (1 + cfg.midCallTimeout) * sec) →
        d ≤ t0 + (1 + cfg.midCallTimeout) * sec := by
      rintro d hd (⟨d1,hd1,hle⟩ | ⟨d1,hd1,hle⟩)
      · have hnow := hs.timing.prompt _ _ hd1
        have hdue := hs.timing.graceDue d hd
        rw [Nat.add_mul,Nat.one_mul]
        omega
      · rw [hd] at hd1
        cases hd1
        exact hle
    split
    · rename_i hpending
      obtain ⟨d,hd⟩ := Clock.pending_iff.mp hpending
      have hd' : rf.clock.due .graceTimeout = some d := by
        rwa [Clock.del_due_of_ne (by decide),Clock.del_due_of_ne (by decide)] at hd
      refine ⟨.inl rfl,?_⟩
      rcases or_assoc.mpr h.phase with hsoon | hnow
      · exact .inr (.inl ⟨d,hd,hgrace d hd' hsoon⟩)
      · exact .inr (.inr hnow)
    · refine ⟨.inl rfl,?_⟩
      rcases h.phase with ⟨d,hd,hle⟩ | ⟨d,hd,-⟩ | hnow
      · refine .inr (.inl ⟨_,Clock.schedule_due,?_⟩)
        have hnow := hs.timing.prompt _ _ hd
        dsimp only [Clock.del_now]
        rw [Nat.add_mul,Nat.one_mul]
        omega
      · rename_i hidle
        refine absurd (Clock.pending_iff.mpr ⟨d,?_⟩) hidle
        rwa [Clock.del_due_of_ne (by decide),Clock.del_due_of_ne (by decide)]
      · exact .inr (.inr ⟨fun hon => (by cases hon),hnow.2⟩)
  · rw [hdoff,if_pos rfl]
    exact ⟨.inr (lockEachTrx_locks _ true).lastRequest,.inr (.inr ⟨fun hon => (by cases hon),lockEachTrx_all _ true⟩)⟩

theorem GoingOff.timerCb (h : GoingOff cfg t0 rf) (hs : Safe cfg rf) {t : Timer}
    (hcb : ({ rf with clock := rf.clock.del t } : BscRf).timerCb cfg t = some rf') : GoingOff cfg t0 rf' := by
  cases t with
  | delayCmd =>
    cases hcb
    exact h.rfDelayCmdCb hs
  | rfCheck =>
    obtain ⟨net,hcheck,hchecked,-⟩ := rfCheckCb_checked { rf with clock := rf.clock.del .rfCheck }
    cases hcheck.symm.trans hcb
    refine h.keep rfl (fun t ht => Clock.del_due_of_ne ?_) rfl
      fun hall b i hb => hall b i (Ruled.of_shape hb hchecked.shape rfl)
    rcases ht with rfl | rfl <;> decide
  | graceTimeout =>
    cases hcb
    have hlocks := lockEachTrx_locks { rf with clock := rf.clock.del .graceTimeout } true
    refine ⟨?_,.inr (.inr ⟨nofun,lockEachTrx_all _ true⟩)⟩
    rw [BscRf.switchRfOff,hlocks.lastRequest]
    exact h.request
  | autoOffTimer =>
    cases hcb
    have hdel : GoingOff cfg t0 { rf with clock := rf.clock.del .autoOffTimer } := by
      refine h.keep rfl (fun t ht => Clock.del_due_of_ne ?_) rfl fun hall => hall
      rcases ht with rfl | rfl <;> decide
    exact hdel.scheduleLock (.inr rfl)

theorem GoingOff.step (h : GoingOff cfg t0 rf) (hs : Safe cfg rf) {i : Input} (hi : KeepsOff i)
    (hstep : step cfg rf i = .ok rf') : GoingOff cfg t0 rf' := by
  cases i with
  | rfReadCmd c =>
    cases hstep
    rw [BscRf.rfReadCmd]
    split
    · exact h.keep rfl (fun _ _ => rfl) rfl fun hall => hall
    · split
      · rename_i hc
        exact h.scheduleLock (hc.elim .inr fun hc => .inl (hc.resolve_left hi))
      · exact h
  | setNetRfLock locked =>
    cases hstep
    rw [BscRf.setNetRfLock]
    split
    · exact h
    · rename_i hvalid
      rw [if_pos]
      · exact h.scheduleLock (.inl rfl)
      · by_contra hne
        exact hvalid ⟨hi,hne⟩
  | expire t =>
    rw [Rf.step] at hstep
    split at hstep
    · split at hstep
      · rename_i hcb
        cases hstep
        exact h.timerCb hs hcb
      · cases hstep
    · cases hstep
      exact h
  | elapse us =>
    cases hstep
    refine h.keep rfl (fun t _ => ?_) rfl fun hall => hall
    rw [Clock.elapse_due]
  | mscSignal lost =>
    cases hstep
    rw [BscRf.mscSignalHandler]
    split
    · split
      · exact h
      · split
        · exact h
        · refine h.keep rfl (fun t ht => Clock.schedule_due_of_ne ?_) rfl fun hall => hall
          rcases ht with rfl | rfl <;> decide
    · refine h.keep rfl (fun t ht => Clock.del_due_of_ne ?_) rfl fun hall => hall
      rcases ht with rfl | rfl <;> decide
  | rfLockExclude b excl =>
    cases hstep
    obtain rfl : excl = true := hi
    refine h.keep rfl (fun _ _ => rfl) rfl fun hall b' i hb => hall b' i ⟨hb.1,?_,hb.2.2⟩
    have hexcl : Function.update rf.exclFromRfLock b true b' = false := hb.2.1
    by_cases hne : b' = b
    · rw [hne,Function.update_self] at hexcl
      cases hexcl
    · rwa [Function.update_of_ne hne] at hexcl
  | trxRfLocked b i locked =>
    cases hstep
    obtain rfl : locked = true := hi
    have hlocks := gsmTrxLockRf_locks rf b i true
    refine h.keep hlocks.lastRequest (fun t _ => by rw [hlocks.clock]) hlocks.policy fun hall b' i' hb => ?_
    by_cases hset : b' = b ∧ i' = i
    · exact hlocks.set b' i' hset
    · rw [hlocks.keep b' i' hset]
      exact hall b' i' (hlocks.ruled.mp hb)
  | link i =>
    have hcalm : Calm (.link i) := trivial
    have hturned : Turned cfg rf rf' := step_turned hcalm hstep
    rw [Rf.step] at hstep
    obtain ⟨net,-,hstep⟩ := bind_eq_ok.mp hstep
    cases hstep
    refine h.keep rfl (fun _ _ => rfl) rfl fun hall => ?_
    cases hturned with
    | off _ hall' => exact hall'
    | on _ hon _ _ =>
      have hrequest := h.request
      rw [hon] at hrequest
      exact absurd hrequest (by decide)
    | kept _ hall' => exact hall' true hall

theorem GoingOff.run (h : GoingOff cfg t0 rf) (hs : Safe cfg rf) {is : List Input} (his : ∀ i ∈ is, KeepsOff i)
    (hrun : run (Rf.step cfg) rf is = .ok rf') : GoingOff cfg t0 rf' ∧ Safe cfg rf' := by
  induction is generalizing rf with
  | nil =>
    cases hrun
    exact ⟨h,hs⟩
  | cons i is ih =>
    obtain ⟨rf1,hstep,hs1⟩ := hs.step i
    rw [EventFsm.run,hstep] at hrun
    exact ih (h.step hs (his i List.mem_cons_self) hstep) hs1 (fun j hj => his j (List.mem_cons_of_mem i hj)) hrun

end Off

/-- bsc_grace_paging_request(): whether it goes to the BTS, whose location area code is `lac`, when the MSC has
`core_lac` configured and the subscriber is in `subscrLac`. -/
def BscRf.bscGracePagingRequest (rf : BscRf) (b : UInt8) (coreLac : Int) (subscrLac lac : Nat) : Bool :=
  if rf.policy = .on then true
  else if !rf.exclFromRfLock b then false
  else if coreLac = -1 ∧ subscrLac ≠ lac then false
  else true

/-- While neither a lock nor an exclusion is changed by hand, RF control has unlocked every TRX of a BTS that takes
new connections or pagings without being excluded, and has locked them all while RF is off. -/
theorem connections_unlocked (cfg : Cfg) {rf : BscRf} (h : Reach (step cfg) (fun _ i => Calm i) Fresh rf) (b : UInt8)
    (hb : rf.exclFromRfLock b = false) :
    ((rf.bscGraceAllowNewConnection b = true ∨ ∃ coreLac subscrLac lac,
        rf.bscGracePagingRequest b coreLac subscrLac lac = true) → ∀ i, rf.Ruled b i → rf.locked (b,i) = false)
      ∧ (rf.policy = .off → ∀ i, rf.Ruled b i → rf.locked (b,i) = true) := by
  have ha := aligned_of_reach h
  refine ⟨fun hallowed i hr => ha.on ?_ b i hr,fun hoff i hr => ha.off hoff b i hr⟩
  rcases hallowed with hconn | ⟨coreLac,subscrLac,lac,hpage⟩
  · rw [BscRf.bscGraceAllowNewConnection,hb,Bool.false_or,decide_eq_true_eq] at hconn
    exact hconn
  · by_contra hne
    rw [BscRf.bscGracePagingRequest,if_neg hne,hb] at hpage
    cases hpage

def twoBts : BscRf := { net := Ipaccess.twoBts }

theorem twoBts_fresh : Fresh twoBts := ⟨_,_,Ipaccess.twoBts_started,rfl⟩

def afterCommand (c : Char) : List Input := [.rfReadCmd c,.elapse sec,.expire .delayCmd]

theorem connections_unlocked_off : ∃ rf, run (step ⟨10,-1⟩) twoBts (afterCommand rfCmdDOff) = .ok rf
    ∧ rf.locked (0,1) = true := by
  obtain ⟨rf,hrun,hpolicy,hruled⟩ : ∃ rf, run (step ⟨10,-1⟩) twoBts (afterCommand rfCmdDOff) = .ok rf
      ∧ rf.policy = .off ∧ 0 ∈ rf.net.list ∧ rf.exclFromRfLock 0 = false ∧ 1 < (rf.net.bts 0).trx.length := by
    decide
  have hreach : Reach (step ⟨10,-1⟩) (fun _ i => Calm i) Fresh rf :=
    .of_run (.start twoBts_fresh) (by decide) hrun
  exact ⟨rf,hrun,(connections_unlocked ⟨10,-1⟩ hreach 0 hruled.2.1).2 hpolicy 1 hruled⟩

/-- In every run the timer of grace runs exactly while the policy is that of grace, and an RF check comes only
while RF is on; it drops the OML links of the BTSs that are failing and of those that depend on them. -/
theorem rf_check_safe (cfg : Cfg) {good : BscRf → Input → Prop} {rf : BscRf} (h : Reach (step cfg) good Fresh rf) :
    (rf.policy = .grace ↔ rf.clock.pending .graceTimeout = true)
      ∧ (∀ i, ∃ rf', step cfg rf i = .ok rf')
      ∧ (rf.clock.Expired .rfCheck → rf.policy = .on ∧ ∃ rf', step cfg rf (.expire .rfCheck) = .ok rf' ∧
        ∀ b, (rf.net.bts b).omlLink = true ∧ (rf'.net.bts b).omlLink = false
          ↔ (rf.net.bts b).omlLink = true ∧ ∃ v, rf.Failing v ∧ rf.net.Dependent v b) := by
  have hs := safe_of_reach h
  refine ⟨hs.timing.grace,fun i => ?_,fun ht => ⟨hs.timing.check ht.pending,?_⟩⟩
  · obtain ⟨rf',hok,-⟩ := hs.step i
    exact ⟨rf',hok⟩
  · obtain ⟨net,hcheck,-⟩ := rfCheckCb_checked { rf with clock := rf.clock.del .rfCheck }
    have hiff : ∀ b, (rf.net.bts b).omlLink = true ∧ (net.bts b).omlLink = false
        ↔ (rf.net.bts b).omlLink = true ∧ ∃ v, rf.Failing v ∧ rf.net.Dependent v b :=
      @rfCheckCb_iff { rf with clock := rf.clock.del .rfCheck } net hs.closed hcheck
    refine ⟨{ rf with clock := rf.clock.del .rfCheck, net },?_,hiff⟩
    rw [step,if_pos ht,BscRf.timerCb,hcheck]

/-- The links of both BTSs are up, of which the second one depends on the first and is excluded from the
RF lock; three seconds after RF was asked for it is checked. -/
def bothUp : List Input :=
  [.rfLockExclude 1 true,.link (.signLinkUpOml 0),.link (.stateReport 0 .bts ⟨.unlocked,.enabled,.ok⟩),
    .link (.signLinkUpOml 1)] ++ afterCommand rfCmdOn ++ [.elapse (3 * sec)]

/-- The first BTS has a TRX that is not up, so that both links are dropped. -/
theorem rf_check_safe_asked : ∃ rf rf', run (step ⟨10,-1⟩) twoBts bothUp = .ok rf ∧ rf.policy = .on
    ∧ step ⟨10,-1⟩ rf (.expire .rfCheck) = .ok rf'
    ∧ ∀ b, b = 0 ∨ b = 1 → (rf.net.bts b).omlLink = true ∧ (rf'.net.bts b).omlLink = false := by
  obtain ⟨rf,hrun,hexpired,hfails,hdep,h0,h1⟩ : ∃ rf, run (step ⟨10,-1⟩) twoBts bothUp = .ok rf
      ∧ rf.clock.Expired .rfCheck ∧ (0 ∈ rf.net.list ∧ (rf.net.bts 0).omlLink = true
        ∧ rf.exclFromRfLock 0 = false ∧ (rf.net.bts 0).trx.any rfFailed = true)
      ∧ (1 ∈ rf.net.list ∧ (rf.net.bts 1).dependIsDependency 0 = true)
      ∧ (rf.net.bts 0).omlLink = true ∧ (rf.net.bts 1).omlLink = true := by
    decide
  have hreach : Reach (step ⟨10,-1⟩) (fun _ _ => True) Fresh rf :=
    .of_run (.start twoBts_fresh) (.of_forall (fun _ _ => trivial) _ _) hrun
  obtain ⟨hpolicy,rf',hok,hiff⟩ := (rf_check_safe ⟨10,-1⟩ hreach).2.2 hexpired
  refine ⟨rf,rf',hrun,hpolicy,hok,?_⟩
  rintro b (rfl | rfl)
  · exact (hiff 0).mpr ⟨h0,0,hfails,.refl⟩
  · exact (hiff 1).mpr ⟨h1,0,hfails,.single hdep⟩

theorem AsksOff.step {i : Input} (h : AsksOff i) :
    ∃ c, (c = rfCmdOff ∨ c = rfCmdDOff) ∧ step cfg rf i = .ok (rf.scheduleLock c) := by
  cases i with
  | rfReadCmd c =>
    refine ⟨c,h,?_⟩
    rw [Rf.step,BscRf.rfReadCmd]
    rcases h with rfl | rfl <;> rfl
  | setNetRfLock locked =>
    obtain rfl : locked = 1 := h
    exact ⟨rfCmdOff,.inl rfl,rfl⟩
  | _ => exact h.elim

/-- RF is locked over the control interface, and goes off after ten seconds of grace. -/
def lockedTen : List Input :=
  [.setNetRfLock 1,.elapse sec,.expire .delayCmd,.elapse (10 * sec),.expire .graceTimeout,.elapse 1]

end OsmoBsc.Rf
