import OsmoBsc.Ipaccess.LinkLoss
import OsmoBsc.Lib.Timers
set_option autoImplicit false

/-! RF control: the transceivers are switched on and off, at once or after a time of grace. -/

namespace OsmoBsc.Rf
open EventFsm Timers

/-- The timers of `struct osmo_bsc_rf`. -/
inductive Timer where
  | delayCmd
  | rfCheck
  | graceTimeout
  | autoOffTimer
  deriving DecidableEq, Repr

instance : Fintype Timer := ⟨{.delayCmd,.rfCheck,.graceTimeout,.autoOffTimer},fun t => by cases t <;> decide⟩

/-- `enum signal_rf`. -/
inductive Policy where
  | off
  | on
  | grace
  deriving DecidableEq, Repr

def rfCmdQuery : Char := '?'

def rfCmdOff : Char := '0'

def rfCmdOn : Char := '1'

def rfCmdDOff : Char := 'd'

def rfCmdOnG : Char := 'g'

def sec : Nat := 1000000

/-- What is configured: the seconds of grace, and those without an MSC after which RF goes off, -1 for never. -/
structure Cfg where
  midCallTimeout : Nat
  autoOffTimeout : Int

/-- `struct osmo_bsc_rf` with its network, the BTSs that are excluded from the RF lock, the answers to
queries, and what gsm_trx_lock_rf() was last called with for a TRX. -/
structure BscRf where
  policy : Policy := .on
  lastRequest : Char := Char.ofNat 0
  clock : Clock Timer := {}
  net : Ipaccess.Net
  exclFromRfLock : UInt8 → Bool := fun _ => false
  answers : List Char := []
  locked : UInt8 × Nat → Bool := fun _ => false

/-- abis_nm_chg_adm_state() for a radio carrier. -/
def chgAdmState (trxNr : UInt8) (locked : Bool) : Nm.Msg :=
  ⟨false,⟨2,0,trxNr,0xff⟩,.request 0x69,[4,if locked then 1 else 2],true⟩

def BscRf.gsmTrxLockRf (rf : BscRf) (b : UInt8) (i : Nat) (locked : Bool) : BscRf :=
  { rf with
    locked := Function.update rf.locked (b,i) locked
    net := rf.net.updBts b fun bts =>
      if !bts.omlLink then bts.updTrx i fun trx =>
        { trx with mo := { trx.mo with administrative := if locked then .locked else .unlocked } }
      else { bts with nm := bts.nm.sendmsg (chgAdmState (UInt8.ofNat i) locked) } }

def BscRf.lockEachTrx (rf : BscRf) (lock : Bool) : BscRf :=
  rf.net.list.foldl (fun rf b =>
    if rf.exclFromRfLock b then rf
    else (List.range (rf.net.bts b).trx.length).foldl (fun rf i => rf.gsmTrxLockRf b i lock) rf) rf

def BscRf.handleQuery (rf : BscRf) : Char :=
  if rf.policy = .grace then rfCmdOnG
  else if rf.net.list.any fun b => !rf.exclFromRfLock b && (rf.net.bts b).trx.any fun trx =>
      trx.mo.availability = .ok && trx.mo.operational ≠ .disabled
  then rfCmdOn
  else rfCmdOff

def rfFailed (trx : Ipaccess.Trx) : Bool :=
  trx.mo.availability ≠ .ok || trx.mo.operational ≠ .enabled || trx.mo.administrative ≠ .unlocked

def BscRf.rfCheckCb (rf : BscRf) : Option BscRf := do
  let net ← rf.net.list.foldlM (fun net b =>
    if !(net.bts b).omlLink then some net
    else if rf.exclFromRfLock b then some net
    else if (net.bts b).trx.any rfFailed then Ipaccess.ipaccessDropOml net.depth b net
    else some net) rf.net
  return { rf with net }

def BscRf.switchRfOff (rf : BscRf) : BscRf := { (rf.lockEachTrx true) with policy := .off }

def BscRf.enterGrace (cfg : Cfg) (rf : BscRf) : BscRf :=
  if rf.clock.pending .graceTimeout then rf
  else { rf with clock := rf.clock.schedule .graceTimeout (cfg.midCallTimeout * sec), policy := .grace }

def BscRf.rfDelayCmdCb (cfg : Cfg) (rf : BscRf) : BscRf :=
  if rf.lastRequest = rfCmdDOff then
    ({ rf with clock := (rf.clock.del .rfCheck).del .graceTimeout } : BscRf).switchRfOff
  else if rf.lastRequest = rfCmdOn then
    let rf := ({ rf with clock := rf.clock.del .graceTimeout } : BscRf).lockEachTrx false
    { rf with policy := .on, clock := rf.clock.schedule .rfCheck (3 * sec) }
  else if rf.lastRequest = rfCmdOff then
    ({ rf with clock := rf.clock.del .rfCheck } : BscRf).enterGrace cfg
  else rf

def BscRf.scheduleLock (rf : BscRf) (cmd : Char) : BscRf :=
  { rf with
    lastRequest := cmd
    clock := if rf.clock.pending .delayCmd then rf.clock else rf.clock.schedule .delayCmd sec }

def BscRf.rfReadCmd (rf : BscRf) (c : Char) : BscRf :=
  if c = rfCmdQuery then { rf with answers := rf.answers ++ [rf.handleQuery] }
  else if c = rfCmdDOff ∨ c = rfCmdOn ∨ c = rfCmdOff then rf.scheduleLock c
  else rf

/-- set_net_rf_lock(), for a value that verify_net_rf_lock() accepts. -/
def BscRf.setNetRfLock (rf : BscRf) (locked : Int) : BscRf :=
  if locked ≠ 0 ∧ locked ≠ 1 then rf
  else rf.scheduleLock (if locked = 1 then rfCmdOff else rfCmdOn)

/-- msc_signal_handler() for an MSC of the normal type, which is lost or connected. -/
def BscRf.mscSignalHandler (cfg : Cfg) (rf : BscRf) (lost : Bool) : BscRf :=
  if lost then
    if cfg.autoOffTimeout < 0 then rf
    else if rf.clock.pending .autoOffTimer then rf
    else { rf with clock := rf.clock.schedule .autoOffTimer (cfg.autoOffTimeout.toNat * sec) }
  else { rf with clock := rf.clock.del .autoOffTimer }

def BscRf.timerCb (cfg : Cfg) (rf : BscRf) : Timer → Option BscRf
  | .delayCmd => some (rf.rfDelayCmdCb cfg)
  | .rfCheck => rf.rfCheckCb
  | .graceTimeout => some rf.switchRfOff
  | .autoOffTimer => some (rf.scheduleLock rfCmdDOff)

/-- What RF control sees: a command on its socket or over the control interface, a timer, time, the MSC,
the VTY, and what happens to the links of the BTSs. -/
inductive Input where
  | rfReadCmd (c : Char)
  | setNetRfLock (locked : Int)
  | expire (t : Timer)
  | elapse (us : Nat)
  | mscSignal (lost : Bool)
  | rfLockExclude (b : UInt8) (excl : Bool)
  | trxRfLocked (b : UInt8) (i : Nat) (locked : Bool)
  | link (i : Ipaccess.Input)
  deriving DecidableEq, Repr

def step (cfg : Cfg) (rf : BscRf) : Input → Except Fault BscRf
  | .rfReadCmd c => .ok (rf.rfReadCmd c)
  | .setNetRfLock locked => .ok (rf.setNetRfLock locked)
  | .expire t =>
    if rf.clock.Expired t then
      match ({ rf with clock := rf.clock.del t } : BscRf).timerCb cfg t with
      | some rf => .ok rf
      | none => .error .outOfFuel
    else .ok rf
  | .elapse us => .ok { rf with clock := rf.clock.elapse us }
  | .mscSignal lost => .ok (rf.mscSignalHandler cfg lost)
  | .rfLockExclude b excl => .ok { rf with exclFromRfLock := Function.update rf.exclFromRfLock b excl }
  | .trxRfLocked b i locked => .ok (rf.gsmTrxLockRf b i locked)
  | .link i => do
    let net ← Ipaccess.step rf.net i
    return { rf with net }

def BscRf.bscGraceAllowNewConnection (rf : BscRf) (b : UInt8) : Bool :=
  rf.exclFromRfLock b || rf.policy = .on

section Shape

variable {net net' : Ipaccess.Net} {list : List UInt8} {num : UInt8 → Nat}

structure HasShape (list : List UInt8) (num : UInt8 → Nat) (net : Ipaccess.Net) : Prop where
  list : net.list = list
  trx : ∀ b, (net.bts b).trx.length = num b

theorem HasShape.updBts (h : HasShape list num net) {b : UInt8} {f : Ipaccess.Bts → Ipaccess.Bts}
    (hf : (f (net.bts b)).trx.length = (net.bts b).trx.length) : HasShape list num (net.updBts b f) := by
  refine ⟨h.list,fun w => ?_⟩
  rw [Ipaccess.updBts_apply (·.trx.length) hf]
  exact h.trx w

theorem length_updTrx (bts : Ipaccess.Bts) (i : Nat) (f : Ipaccess.Trx → Ipaccess.Trx) :
    (bts.updTrx i f).trx.length = bts.trx.length := List.length_modify ..

theorem length_teiDn (bts : Ipaccess.Bts) (type : Ipaccess.SignType) (i : Nat) :
    (bts.teiDn type i).trx.length = bts.trx.length := by
  cases type <;> simp [Ipaccess.Bts.teiDn,Ipaccess.Bts.moReset,Ipaccess.Bts.updTrx]

theorem length_dropRsl (bts : Ipaccess.Bts) (i : Nat) : (bts.dropRsl i).trx.length = bts.trx.length := by
  rw [Ipaccess.Bts.dropRsl]
  split
  · rfl
  · split
    · rfl
    · rw [length_updTrx,length_teiDn]

theorem length_foldl_dropRsl (bts : Ipaccess.Bts) (is : List Nat) :
    (is.foldl Ipaccess.Bts.dropRsl bts).trx.length = bts.trx.length := by
  induction is generalizing bts with
  | nil => rfl
  | cons i is ih => rw [List.foldl_cons,ih,length_dropRsl]

theorem length_dropLinks (bts : Ipaccess.Bts) : bts.dropLinks.trx.length = bts.trx.length := by
  simp [Ipaccess.Bts.dropLinks,length_foldl_dropRsl,length_teiDn]

theorem length_signLinkUpRsl (bts : Ipaccess.Bts) (i : Nat) :
    (bts.signLinkUpRsl i).trx.length = bts.trx.length := by
  rw [Ipaccess.Bts.signLinkUpRsl]
  split
  · dsimp only
    split
    · rw [Ipaccess.bootstrapRsl_trx,List.length_modify,length_updTrx,length_dropRsl]
    · rw [length_updTrx,length_dropRsl]
  · rfl

theorem length_setMo (bts : Ipaccess.Bts) (mo : Ipaccess.Mo) (s : Acc.NmState) :
    (bts.setMo mo s).trx.length = bts.trx.length := by
  cases mo <;> simp [Ipaccess.Bts.setMo,length_updTrx]

theorem HasShape.ipaccessDropOml (h : HasShape list num net) {n : Nat} {b : UInt8}
    (hd : Ipaccess.ipaccessDropOml n b net = some net') : HasShape list num net' := by
  rw [Ipaccess.ipaccessDropOml_eq] at hd
  refine Cascade.System.cascade_keeps (c := Ipaccess.oml) (fun v s hs => ?_) (fun v s hs => ?_) h hd
  · exact HasShape.updBts (f := ({ · with omlDropLinkTimer := false })) hs rfl
  · exact HasShape.updBts (f := Ipaccess.Bts.dropLinks) hs (length_dropLinks _)

theorem HasShape.exec (h : HasShape list num net) {i : Ipaccess.Input} (hs : net.exec i = some net') :
    HasShape list num net' := by
  cases i with
  | signLinkUpOml b =>
    simp only [Ipaccess.Net.exec,Ipaccess.signLinkUpOml,bind,Option.bind_eq_some_iff] at hs
    obtain ⟨net1,h1,hs⟩ := hs
    have hone := h.ipaccessDropOml h1
    split at hs
    · cases hs
      refine hone.updBts ?_
      split <;> rfl
    · cases hs
      exact hone
  | signLinkUpRsl b i =>
    cases hs
    exact h.updBts (length_signLinkUpRsl _ i)
  | dropOml b => exact h.ipaccessDropOml hs
  | dropRsl b i =>
    cases hs
    exact h.updBts (length_dropRsl _ i)
  | dropOmlDeferred b =>
    cases hs
    refine h.updBts ?_
    split <;> rfl
  | omlDropLinkTimer b =>
    rw [Ipaccess.Net.exec] at hs
    split at hs
    · exact h.ipaccessDropOml hs
    · cases hs
      exact h
  | stateReport b mo s =>
    cases hs
    exact h.updBts (length_setMo _ mo s)
  | tsOmlReady b i j =>
    cases hs
    exact h.updBts (length_updTrx _ i _)
  | sendmsg b m =>
    cases hs
    exact h.updBts rfl
  | nmAnswer b =>
    cases hs
    exact h.updBts rfl

end Shape

section Lock

variable {rf rf1 rf2 : BscRf} {who who' : UInt8 → Nat → Prop} {lock : Bool}

/-- gsm_trx_lock_rf() was called with `lock` for these TRXs and for no others. -/
structure Locks (who : UInt8 → Nat → Prop) (lock : Bool) (rf rf' : BscRf) : Prop where
  policy : rf'.policy = rf.policy
  lastRequest : rf'.lastRequest = rf.lastRequest
  clock : rf'.clock = rf.clock
  excl : rf'.exclFromRfLock = rf.exclFromRfLock
  shape : HasShape rf.net.list (fun b => (rf.net.bts b).trx.length) rf'.net
  closed : rf.net.Closed → rf'.net.Closed
  set : ∀ b i, who b i → rf'.locked (b,i) = lock
  keep : ∀ b i, ¬ who b i → rf'.locked (b,i) = rf.locked (b,i)

theorem Locks.refl (rf : BscRf) : Locks (fun _ _ => False) lock rf rf :=
  ⟨rfl,rfl,rfl,rfl,⟨rfl,fun _ => rfl⟩,id,nofun,fun _ _ _ => rfl⟩

theorem Locks.trans (h : Locks who lock rf rf1) (h' : Locks who' lock rf1 rf2) :
    Locks (fun b i => who b i ∨ who' b i) lock rf rf2 := by
  refine ⟨h'.policy.trans h.policy,h'.lastRequest.trans h.lastRequest,h'.clock.trans h.clock,h'.excl.trans h.excl,
    ⟨h'.shape.list.trans h.shape.list,fun b => (h'.shape.trx b).trans (h.shape.trx b)⟩,
    fun hc => h'.closed (h.closed hc),fun b i hw => ?_,fun b i hw => ?_⟩
  · by_cases hw' : who' b i
    · exact h'.set b i hw'
    · rw [h'.keep b i hw']
      exact h.set b i (hw.resolve_right hw')
  · rw [h'.keep b i fun hw' => hw (.inr hw'),h.keep b i fun hw' => hw (.inl hw')]

theorem Locks.congr (h : Locks who lock rf rf1) (hw : ∀ b i, who' b i ↔ who b i) : Locks who' lock rf rf1 := by
  obtain rfl : who' = who := funext fun b => funext fun i => propext (hw b i)
  exact h

theorem gsmTrxLockRf_locks (rf : BscRf) (b : UInt8) (i : Nat) (lock : Bool) :
    Locks (fun b' i' => b' = b ∧ i' = i) lock rf (rf.gsmTrxLockRf b i lock) := by
  have hself : HasShape rf.net.list (fun b => (rf.net.bts b).trx.length) rf.net := ⟨rfl,fun _ => rfl⟩
  refine ⟨rfl,rfl,rfl,rfl,?_,fun hc => ?_,?_,?_⟩
  · dsimp only [BscRf.gsmTrxLockRf]
    refine hself.updBts ?_
    split
    · exact length_updTrx _ i _
    · rfl
  · dsimp only [BscRf.gsmTrxLockRf]
    refine hc.updBts ?_ ?_ <;> split <;> rfl
  · rintro _ _ ⟨rfl,rfl⟩
    exact Function.update_self ..
  · intro b' i' hne
    refine Function.update_of_ne (fun heq => hne ?_) ..
    cases heq
    exact ⟨rfl,rfl⟩

theorem foldl_lockRf (b : UInt8) (is : List Nat) (rf : BscRf) (lock : Bool) :
    Locks (fun b' i => b' = b ∧ i ∈ is) lock rf (is.foldl (fun rf i => rf.gsmTrxLockRf b i lock) rf) := by
  induction is generalizing rf with
  | nil => exact (Locks.refl rf).congr fun _ _ => by simp
  | cons i is ih =>
    refine ((gsmTrxLockRf_locks rf b i lock).trans (ih _)).congr fun b' i' => ?_
    rw [List.mem_cons]
    tauto

theorem lockEachTrx_locks (rf : BscRf) (lock : Bool) :
    Locks (fun b i => b ∈ rf.net.list ∧ rf.exclFromRfLock b = false ∧ i < (rf.net.bts b).trx.length) lock rf
      (rf.lockEachTrx lock) := by
  rw [BscRf.lockEachTrx]
  generalize rf.net.list = bs
  induction bs generalizing rf with
  | nil => exact (Locks.refl rf).congr fun _ _ => by simp
  | cons b bs ih =>
    rw [List.foldl_cons]
    split
    · rename_i hb
      refine (ih rf).congr fun b' i => ?_
      rw [List.mem_cons]
      constructor
      · rintro ⟨rfl | hmem,hexcl,hi⟩
        · rw [hb] at hexcl
          cases hexcl
        · exact ⟨hmem,hexcl,hi⟩
      · rintro ⟨hmem,hrest⟩
        exact ⟨.inr hmem,hrest⟩
    · rename_i hb
      have hfirst := foldl_lockRf b (List.range (rf.net.bts b).trx.length) rf lock
      refine (hfirst.trans (ih _)).congr fun b' i => ?_
      rw [hfirst.excl,hfirst.shape.trx b',List.mem_range,List.mem_cons]
      constructor
      · rintro ⟨rfl | hmem,hrest⟩
        · exact .inl ⟨rfl,hrest.2⟩
        · exact .inr ⟨hmem,hrest⟩
      · rintro (⟨rfl,hi⟩ | ⟨hmem,hrest⟩)
        · exact ⟨.inl rfl,by simpa using hb,hi⟩
        · exact ⟨.inr hmem,hrest⟩

end Lock

section Timing

variable {cfg : Cfg} {policy : Policy} {cmd cmd' : Char} {clock : Clock Timer}

def IsLockCmd (c : Char) : Prop := c = rfCmdDOff ∨ c = rfCmdOn ∨ c = rfCmdOff

/-- The timer of grace runs exactly while the policy is that of grace, the RF check is only to come while RF is
on, and what a delayed command asks for is known. -/
structure Timing (cfg : Cfg) (policy : Policy) (lastRequest : Char) (clock : Clock Timer) : Prop where
  prompt : clock.Prompt
  grace : policy = .grace ↔ clock.pending .graceTimeout = true
  check : clock.pending .rfCheck = true → policy = .on
  request : clock.pending .delayCmd = true → IsLockCmd lastRequest
  graceDue : ∀ d, clock.due .graceTimeout = some d → d ≤ clock.now + cfg.midCallTimeout * sec
  delayDue : ∀ d, clock.due .delayCmd = some d → d ≤ clock.now + sec

theorem Timing.fresh : Timing cfg .on cmd {} :=
  ⟨Clock.prompt_fresh,by decide,nofun,nofun,nofun,nofun⟩

theorem Timing.elapse (h : Timing cfg policy cmd clock) (us : Nat) : Timing cfg policy cmd (clock.elapse us) := by
  have hnow : clock.now ≤ (clock.elapse us).now := Clock.now_le_elapse
  have hdue : (clock.elapse us).due = clock.due := Clock.elapse_due
  have hpending : (clock.elapse us).pending = clock.pending := by
    funext t
    rw [Clock.pending,hdue]
    rfl
  refine ⟨h.prompt.elapse,hpending ▸ h.grace,hpending ▸ h.check,hpending ▸ h.request,fun d hd => ?_,fun d hd => ?_⟩
  · have hle := h.graceDue d (hdue ▸ hd)
    omega
  · have hle := h.delayDue d (hdue ▸ hd)
    omega

theorem Timing.del (h : Timing cfg policy cmd clock) {t : Timer} (ht : t ≠ .graceTimeout) :
    Timing cfg policy cmd (clock.del t) := by
  have hsub : ∀ t' d, (clock.del t).due t' = some d → clock.due t' = some d := by
    intro t' d hd
    by_cases htt : t' = t
    · rw [htt,Clock.del_due] at hd
      cases hd
    · rwa [Clock.del_due_of_ne htt] at hd
  have hpending : ∀ t', (clock.del t).pending t' = true → clock.pending t' = true := by
    intro t' hp
    obtain ⟨d,hd⟩ := Clock.pending_iff.mp hp
    exact Clock.pending_iff.mpr ⟨d,hsub t' d hd⟩
  refine ⟨h.prompt.del,?_,fun hp => h.check (hpending _ hp),fun hp => h.request (hpending _ hp),
    fun d hd => h.graceDue d (hsub _ d hd),fun d hd => h.delayDue d (hsub _ d hd)⟩
  rw [Clock.pending,Clock.del_due_of_ne ht.symm]
  exact h.grace

theorem Timing.off (h : Timing cfg policy cmd clock) :
    Timing cfg .off cmd ((clock.del .rfCheck).del .graceTimeout) := by
  refine ⟨h.prompt.del.del,?_,?_,?_,?_,?_⟩
  · rw [Clock.pending,Clock.del_due]
    decide
  · rw [Clock.pending,Clock.del_due_of_ne (by decide),Clock.del_due]
    nofun
  · rw [Clock.pending,Clock.del_due_of_ne (by decide),Clock.del_due_of_ne (by decide)]
    exact h.request
  · rw [Clock.del_due]
    nofun
  · rw [Clock.del_due_of_ne (by decide),Clock.del_due_of_ne (by decide)]
    exact h.delayDue

theorem Timing.graceEnds (h : Timing cfg policy cmd clock) (hexp : clock.pending .graceTimeout = true) :
    Timing cfg .off cmd (clock.del .graceTimeout) := by
  have hcheck : clock.due .rfCheck = none := by
    rw [← Clock.pending_eq_false,← Bool.not_eq_true]
    intro hp
    have hon := h.check hp
    rw [h.grace.mpr hexp] at hon
    cases hon
  have hsame : clock.del .rfCheck = clock := by
    rw [Clock.del,← hcheck,Function.update_eq_self]
  have hoff := h.off
  rwa [hsame] at hoff

theorem Timing.on (h : Timing cfg policy cmd clock) :
    Timing cfg .on cmd ((clock.del .graceTimeout).schedule .rfCheck (3 * sec)) := by
  refine ⟨h.prompt.del.schedule,?_,fun _ => rfl,?_,?_,?_⟩
  · rw [Clock.pending,Clock.schedule_due_of_ne (by decide),Clock.del_due]
    decide
  · rw [Clock.pending,Clock.schedule_due_of_ne (by decide),Clock.del_due_of_ne (by decide)]
    exact h.request
  · rw [Clock.schedule_due_of_ne (by decide),Clock.del_due]
    nofun
  · rw [Clock.schedule_due_of_ne (by decide),Clock.del_due_of_ne (by decide)]
    exact h.delayDue

theorem Timing.enterGrace (h : Timing cfg policy cmd clock) (hcheck : clock.pending .rfCheck = false) :
    Timing cfg .grace cmd (clock.schedule .graceTimeout (cfg.midCallTimeout * sec)) := by
  refine ⟨h.prompt.schedule,?_,?_,?_,?_,?_⟩
  · rw [Clock.pending,Clock.schedule_due]
    exact iff_of_true rfl rfl
  · rw [Clock.pending,Clock.schedule_due_of_ne (by decide),Clock.pending_eq_false.mp hcheck]
    nofun
  · rw [Clock.pending,Clock.schedule_due_of_ne (by decide)]
    exact h.request
  · intro d hd
    rw [Clock.schedule_due] at hd
    cases hd
    exact Nat.le_refl _
  · rw [Clock.schedule_due_of_ne (by decide)]
    exact h.delayDue

/-- A command is kept for a second, or what is kept already is replaced by it. -/
theorem Timing.scheduleLock (h : Timing cfg policy cmd clock) (hcmd : IsLockCmd cmd') :
    Timing cfg policy cmd' (if clock.pending .delayCmd then clock else clock.schedule .delayCmd sec) := by
  split
  · exact ⟨h.prompt,h.grace,h.check,fun _ => hcmd,h.graceDue,h.delayDue⟩
  · refine ⟨h.prompt.schedule,?_,?_,fun _ => hcmd,?_,?_⟩
    · rw [Clock.pending,Clock.schedule_due_of_ne (by decide)]
      exact h.grace
    · rw [Clock.pending,Clock.schedule_due_of_ne (by decide)]
      exact h.check
    · rw [Clock.schedule_due_of_ne (by decide)]
      exact h.graceDue
    · intro d hd
      rw [Clock.schedule_due] at hd
      cases hd
      exact Nat.le_refl _

theorem Timing.autoOff (h : Timing cfg policy cmd clock) (us : Nat) :
    Timing cfg policy cmd (clock.schedule .autoOffTimer us) := by
  refine ⟨h.prompt.schedule,?_,?_,?_,?_,?_⟩
  · rw [Clock.pending,Clock.schedule_due_of_ne (by decide)]
    exact h.grace
  · rw [Clock.pending,Clock.schedule_due_of_ne (by decide)]
    exact h.check
  · rw [Clock.pending,Clock.schedule_due_of_ne (by decide)]
    exact h.request
  · rw [Clock.schedule_due_of_ne (by decide)]
    exact h.graceDue
  · rw [Clock.schedule_due_of_ne (by decide)]
    exact h.delayDue

end Timing

section Check

variable {rf : BscRf} {net net' : Ipaccess.Net}

/-- A BTS with an OML link, not excluded, that has a TRX which is not up. -/
def BscRf.Failing (rf : BscRf) (b : UInt8) : Prop :=
  b ∈ rf.net.list ∧ (rf.net.bts b).omlLink = true ∧ rf.exclFromRfLock b = false
    ∧ (rf.net.bts b).trx.any rfFailed = true

/-- The TRXs of the BTSs that still have an OML link are as before. -/
def Untouched (net net' : Ipaccess.Net) : Prop :=
  ∀ b, (net'.bts b).omlLink = true → (net'.bts b).trx = (net.bts b).trx

theorem Untouched.ipaccessDropOml {net1 : Ipaccess.Net} (h : Untouched net net1) {n : Nat} {b : UInt8}
    (hd : Ipaccess.ipaccessDropOml n b net1 = some net') : Untouched net net' := by
  rw [Ipaccess.ipaccessDropOml_eq] at hd
  refine Cascade.System.cascade_keeps (c := Ipaccess.oml) (fun v s hs w hw => ?_) (fun v s hs w hw => ?_) h hd
  all_goals
    by_cases hv : w = v
    · subst hv
      simp [Ipaccess.oml,Ipaccess.Net.updBts] at hw ⊢
      try exact hs w hw
    · simp [Ipaccess.oml,Ipaccess.Net.updBts,hv] at hw ⊢
      exact hs w hw

/-- What the loop of rf_check_cb() has done so far. -/
structure Checked (rf : BscRf) (net : Ipaccess.Net) : Prop where
  falls : Ipaccess.oml.Falls rf.Failing rf.net net
  untouched : Untouched rf.net net
  shape : HasShape rf.net.list (fun b => (rf.net.bts b).trx.length) net

theorem Checked.loop (h : Checked rf net) {bs : List UInt8} (hbs : ∀ b ∈ bs, b ∈ rf.net.list) :
    ∃ net', bs.foldlM (fun net b =>
        if !(net.bts b).omlLink then some net
        else if rf.exclFromRfLock b then some net
        else if (net.bts b).trx.any rfFailed then Ipaccess.ipaccessDropOml net.depth b net
        else some net) net = some net'
      ∧ Checked rf net' ∧ (∀ b, (net'.bts b).omlLink = true → (net.bts b).omlLink = true)
      ∧ ∀ b ∈ bs, rf.Failing b → (net'.bts b).omlLink = false := by
  induction bs generalizing net with
  | nil => exact ⟨net,rfl,h,fun _ => id,nofun⟩
  | cons b bs ih =>
    have hb := hbs b List.mem_cons_self
    obtain ⟨net1,hone,h1,hmono,hdown⟩ : ∃ net1, (if !(net.bts b).omlLink then some net
        else if rf.exclFromRfLock b then some net
        else if (net.bts b).trx.any rfFailed then Ipaccess.ipaccessDropOml net.depth b net
        else some net) = some net1 ∧ Checked rf net1
          ∧ (∀ b, (net1.bts b).omlLink = true → (net.bts b).omlLink = true)
          ∧ (rf.Failing b → (net1.bts b).omlLink = false) := by
      split
      · rename_i hlink
        exact ⟨net,rfl,h,fun _ => id,fun _ => by simpa using hlink⟩
      rename_i hlink
      rw [Bool.not_eq_true',Bool.not_eq_false] at hlink
      split
      · rename_i hexcl
        exact ⟨net,rfl,h,fun _ => id,fun hf => absurd (hexcl.symm.trans hf.2.2.1) (by decide)⟩
      rename_i hexcl
      rw [Bool.not_eq_true] at hexcl
      have htrx := h.untouched b hlink
      split
      · rename_i hfailed
        have hfailing : rf.Failing b := ⟨hb,h.falls.mono b hlink,hexcl,htrx ▸ hfailed⟩
        have hb' : b ∈ net.list := h.shape.list.symm ▸ hb
        obtain ⟨net1,hdrop,hfalls,hdown⟩ := Ipaccess.ipaccessDropOml_falls hb'
        refine ⟨net1,hdrop,⟨h.falls.trans (hfalls.mono_start ?_),h.untouched.ipaccessDropOml hdrop,
          h.shape.ipaccessDropOml hdrop⟩,hfalls.mono,fun _ => hdown⟩
        rintro _ rfl
        exact ⟨_,hfailing,.refl⟩
      · rename_i hfine
        exact ⟨net,rfl,h,fun _ => id,fun hf => absurd (htrx.symm ▸ hf.2.2.2) hfine⟩
    obtain ⟨net',hrest,h',hmono',hdown'⟩ := ih h1 fun b hb => hbs b (List.mem_cons_of_mem _ hb)
    refine ⟨net',?_,h',fun w hw => hmono w (hmono' w hw),fun w hw hf => ?_⟩
    · rw [List.foldlM_cons,hone]
      exact hrest
    · rcases List.mem_cons.mp hw with rfl | hw
      · rw [← Bool.not_eq_true]
        intro hup
        have hup1 := hmono' w hup
        rw [hdown hf] at hup1
        cases hup1
      · exact hdown' w hw hf

theorem rfCheckCb_checked (rf : BscRf) : ∃ net, rf.rfCheckCb = some { rf with net } ∧ Checked rf net
    ∧ ∀ b, rf.Failing b → (net.bts b).omlLink = false := by
  have hstart : Checked rf rf.net := ⟨.refl _,fun _ _ => rfl,rfl,fun _ => rfl⟩
  obtain ⟨net,hloop,h,-,hdown⟩ := hstart.loop fun _ => id
  refine ⟨net,?_,h,fun b hb => hdown b hb.1 hb⟩
  rw [BscRf.rfCheckCb,hloop]
  rfl

/-- Where what is up depends only on what is up, the check takes down the BTSs that are failing and those that
depend on them. -/
theorem rfCheckCb_iff (hc : rf.net.Closed) (h : rf.rfCheckCb = some { rf with net }) (b : UInt8) :
    (rf.net.bts b).omlLink = true ∧ (net.bts b).omlLink = false
      ↔ (rf.net.bts b).omlLink = true ∧ ∃ v, rf.Failing v ∧ rf.net.Dependent v b := by
  obtain ⟨net1,h1,hchecked,hdown⟩ := rfCheckCb_checked rf
  rw [h] at h1
  obtain rfl : net = net1 := by simpa using h1
  exact hchecked.falls.closed_iff hc (fun v hv => hv.1) hdown b

end Check

section Safe

variable {cfg : Cfg} {rf rf' : BscRf}

/-- osmo_bsc_rf_create() for a network whose links are not up yet. -/
def Fresh (rf : BscRf) : Prop :=
  ∃ net excl, Ipaccess.Net.Started net ∧ rf = { net, exclFromRfLock := excl }

structure Safe (cfg : Cfg) (rf : BscRf) : Prop where
  timing : Timing cfg rf.policy rf.lastRequest rf.clock
  closed : rf.net.Closed

theorem Fresh.safe (h : Fresh rf) : Safe cfg rf := by
  obtain ⟨net,excl,hstart,rfl⟩ := h
  refine ⟨.fresh,fun v _ w _ hup => ?_⟩
  rw [hstart.oml] at hup
  cases hup

theorem Safe.scheduleLock (h : Safe cfg rf) {c : Char} (hc : IsLockCmd c) : Safe cfg (rf.scheduleLock c) :=
  ⟨h.timing.scheduleLock hc,h.closed⟩

theorem Safe.switchRfOff {clock : Clock Timer} (h : Safe cfg rf) (ht : Timing cfg .off rf.lastRequest clock) :
    Safe cfg ({ rf with clock } : BscRf).switchRfOff := by
  have hlocks := lockEachTrx_locks { rf with clock } true
  refine ⟨?_,hlocks.closed h.closed⟩
  rw [BscRf.switchRfOff,hlocks.lastRequest,hlocks.clock]
  exact ht

theorem Safe.rfDelayCmdCb (h : Safe cfg rf) : Safe cfg (rf.rfDelayCmdCb cfg) := by
  rw [BscRf.rfDelayCmdCb]
  split
  · exact h.switchRfOff h.timing.off
  split
  · have hlocks := lockEachTrx_locks { rf with clock := rf.clock.del .graceTimeout } false
    refine ⟨?_,hlocks.closed h.closed⟩
    dsimp only
    rw [hlocks.lastRequest,hlocks.clock]
    exact h.timing.on
  split
  · have hdel : Timing cfg rf.policy rf.lastRequest (rf.clock.del .rfCheck) := h.timing.del (by decide)
    rw [BscRf.enterGrace]
    split
    · exact ⟨hdel,h.closed⟩
    · refine ⟨hdel.enterGrace ?_,h.closed⟩
      rw [Clock.pending,Clock.del_due]
      rfl
  · exact h

theorem Safe.setClock {clock : Clock Timer} (h : Safe cfg rf) (ht : Timing cfg rf.policy rf.lastRequest clock) :
    Safe cfg { rf with clock } := ⟨ht,h.closed⟩

theorem Safe.timerCb (h : Safe cfg rf) {t : Timer} (ht : rf.clock.Expired t) :
    ∃ rf', ({ rf with clock := rf.clock.del t } : BscRf).timerCb cfg t = some rf' ∧ Safe cfg rf' := by
  cases t with
  | delayCmd => exact ⟨_,rfl,(h.setClock (h.timing.del (by decide))).rfDelayCmdCb⟩
  | rfCheck =>
    obtain ⟨net,hcheck,hchecked,-⟩ := rfCheckCb_checked { rf with clock := rf.clock.del .rfCheck }
    refine ⟨_,hcheck,h.timing.del (by decide),?_⟩
    exact Cascade.System.Closed.falls (c := Ipaccess.oml) h.closed hchecked.falls
  | graceTimeout => exact ⟨_,rfl,h.switchRfOff (h.timing.graceEnds ht.pending)⟩
  | autoOffTimer =>
    exact ⟨_,rfl,(h.setClock (h.timing.del (by decide))).scheduleLock (.inl rfl)⟩

theorem Safe.step (h : Safe cfg rf) (i : Input) : ∃ rf', step cfg rf i = .ok rf' ∧ Safe cfg rf' := by
  cases i with
  | rfReadCmd c =>
    refine ⟨_,rfl,?_⟩
    rw [BscRf.rfReadCmd]
    split
    · exact ⟨h.timing,h.closed⟩
    · split
      · rename_i hc
        exact h.scheduleLock hc
      · exact h
  | setNetRfLock locked =>
    refine ⟨_,rfl,?_⟩
    rw [BscRf.setNetRfLock]
    split
    · exact h
    · split
      · exact h.scheduleLock (.inr (.inr rfl))
      · exact h.scheduleLock (.inr (.inl rfl))
  | expire t =>
    rw [Rf.step]
    split
    · rename_i ht
      obtain ⟨rf',hcb,hsafe⟩ := h.timerCb ht
      rw [hcb]
      exact ⟨rf',rfl,hsafe⟩
    · exact ⟨rf,rfl,h⟩
  | elapse us => exact ⟨_,rfl,h.setClock (h.timing.elapse us)⟩
  | mscSignal lost =>
    refine ⟨_,rfl,?_⟩
    rw [BscRf.mscSignalHandler]
    split
    · split
      · exact h
      · split
        · exact h
        · exact h.setClock (h.timing.autoOff _)
    · exact h.setClock (h.timing.del (by decide))
  | rfLockExclude b excl => exact ⟨_,rfl,h.timing,h.closed⟩
  | trxRfLocked b i locked =>
    have hlocks := gsmTrxLockRf_locks rf b i locked
    refine ⟨_,rfl,?_,hlocks.closed h.closed⟩
    rw [hlocks.policy,hlocks.lastRequest,hlocks.clock]
    exact h.timing
  | link i =>
    rw [Rf.step,Ipaccess.step]
    split
    · rename_i hmem
      obtain ⟨net,hexec,hclosed⟩ := Ipaccess.exec_closed h.closed hmem
      rw [hexec]
      exact ⟨_,rfl,h.timing,hclosed⟩
    · exact ⟨rf,rfl,h⟩

theorem safe_of_reach {good : BscRf → Input → Prop} (h : Reach (step cfg) good Fresh rf) : Safe cfg rf := by
  refine Reach.invariant (fun rf h => h.safe) (fun rf i rf' hs _ hstep => ?_) h
  obtain ⟨rf1,hok,hsafe⟩ := hs.step i
  cases hok.symm.trans hstep
  exact hsafe

end Safe

end OsmoBsc.Rf
