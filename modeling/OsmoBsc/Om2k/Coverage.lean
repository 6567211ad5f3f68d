import OsmoBsc.Chan.TsLink
import OsmoBsc.Om2k.Soundness
set_option autoImplicit false

/-! The addresses and the channel combinations of a bring-up, and the timeslots that are told of it. -/

namespace OsmoBsc.Om2k
open EventFsm Chan Chan.TsLink

/-- `struct abis_om2k_mo`; no class is the value 0. -/
structure Addr where
  cls : Cls := .unset
  bts : Nat := 0
  assocSo : Nat := 0
  inst : Nat := 0
  deriving DecidableEq, Repr

/-- The address that om2k_mo_init() is called with for an object. -/
def Mo.own (btsNr : Nat) : Mo → Addr
  | .cf => ⟨.cf,btsNr,255,0⟩
  | .tf => ⟨.tf,btsNr,255,0⟩
  | .con => ⟨.con,btsNr,255,0⟩
  | .is => ⟨.is,btsNr,255,0⟩
  | .trxc trx => ⟨.trxc,btsNr,255,trx⟩
  | .tx trx => ⟨.tx,btsNr,255,trx⟩
  | .rx trx => ⟨.rx,btsNr,255,trx⟩
  | .ts trx nr => ⟨.ts,btsNr,trx,nr⟩

def Addr.Same (a b : Addr) : Prop := a.cls = b.cls ∧ a.assocSo = b.assocSo ∧ a.inst = b.inst

instance (a b : Addr) : Decidable (a.Same b) := inferInstanceAs (Decidable (_ ∧ _))

/-- The number of the BTS, its TRXs, C0 among them, and the kinds that their timeslots are configured for. -/
structure SiteConf where
  btsNr : Nat
  numTrx : Nat
  kind : Nat → Nat → Pchan
  c0 : 0 < numTrx

/-- The bring-ups of a BTS, `mo->addr` of its objects, its timeslots, and the events that their FSMs were sent. -/
structure Site where
  bsc : Bsc
  addr : Mo → Addr := fun _ => {}
  ts : Nat → Nat → LinkTs
  tsEvents : List (Nat × Nat × TsLinkEvent) := []

/-- What is requested of an object; TS CONF REQ has the channel combination. -/
inductive OmReq where
  | connectCmd
  | resetCmd
  | startReq
  | enableReq
  | opInfo
  | confReq (c : Conf)
  | tsConfReq (comb : Nat)
  deriving DecidableEq, Repr

structure Sent where
  mo : Mo
  addr : Addr
  req : OmReq
  deriving DecidableEq, Repr

/-- The number of the TRX that the FSM of an object is started with. -/
def Mo.trx : Mo → Nat
  | .trxc trx | .tx trx | .rx trx | .ts trx _ => trx
  | _ => 0

def pchan2comb : Pchan → Nat
  | .ccch => 4
  | .ccchSdcch4 => 5
  | .sdcch8Sacch8c => 3
  | .tchF | .tchH | .pdch | .tchFPdch | .tchFTchHPdch => 8
  | _ => 0

def ts2comb (ts : LinkTs) : Nat := if ts.pchanOnInit = .tchFPdch then 0 else pchan2comb ts.pchanIs

inductive SiteInput where
  | teiUp (omlTei : Bool)
  | teiDn (trx : Nat) (oml : Bool)
  | closeOm
  | recv (addr : Addr) (msg : Msg)
  | moTimer (k : Nat)
  | trxTimer (k : Nat)
  | btsTimer (k : Nat)
  | rslReady (trx : Nat)
  deriving DecidableEq, Repr

section Step

variable (conf : SiteConf)

def SiteConf.initial : Site where
  bsc := { numTrx := conf.numTrx }
  ts := fun trx nr => { pchanFromConfig := conf.kind trx nr }

def Site.tsDispatch (s : Site) (trxs : List Nat) (ev : TsLinkEvent) : Site :=
  { s with
    ts := fun trx nr => if trx ∈ trxs ∧ nr < 8 then tsFsmLink (s.ts trx nr) ev else s.ts trx nr
    tsEvents := s.tsEvents ++ trxs.flatMap fun trx => (List.range 8).map (trx,·,ev) }

/-- om2k_mo_init() for each of these objects. -/
def Site.moInit (s : Site) (mos : List Mo) : Site :=
  { s with addr := fun mo => if mo ∈ mos then mo.own conf.btsNr else s.addr mo }

def Site.abisOm2kBtsInit (s : Site) : Site := s.moInit conf [.cf,.is,.con,.tf]

def Site.abisOm2kTrxInit (s : Site) (trx : Nat) : Site := (s.moInit conf (trxMos trx)).tsDispatch [trx] .omlReady

/-- What bootstrap_om_bts() does before it starts the FSM of the BTS: of the TRXs only C0 is initialized. -/
def Site.bootstrapInit (s : Site) : Site := (s.abisOm2kBtsInit conf).abisOm2kTrxInit conf 0

def getOm2kMo (addr : Addr) : Option Mo :=
  match addr.cls with
  | .cf => some .cf
  | .con => some .con
  | .is => some .is
  | .tf => some .tf
  | .trxc => if addr.inst < conf.numTrx then some (.trxc addr.inst) else none
  | .tx => if addr.inst < conf.numTrx then some (.tx addr.inst) else none
  | .rx => if addr.inst < conf.numTrx then some (.rx addr.inst) else none
  | .ts => if addr.assocSo < conf.numTrx ∧ addr.inst < 8 then some (.ts addr.assocSo addr.inst) else none
  | .dp | .unset => none

def Site.bscStep (s : Site) (i : Input) : Except Fault Site := (step s.bsc i).map fun bsc => { s with bsc }

def siteStep (s : Site) : SiteInput → Except Fault Site
  | .teiUp true => (s.bootstrapInit conf).bscStep (.teiUp true)
  | .teiUp false => .ok s
  | .teiDn trx oml => .ok (s.tsDispatch [trx] (if oml then .omlDown else .rslDown))
  | .closeOm => .ok (s.tsDispatch (List.range conf.numTrx) .omlDown)
  | .recv addr msg =>
    match getOm2kMo conf addr with
    | none => .ok s
    | some mo => s.bscStep (.recv mo msg)
  | .moTimer k => s.bscStep (.moTimer k)
  | .trxTimer k => s.bscStep (.trxTimer k)
  | .btsTimer k => s.bscStep (.btsTimer k)
  | .rslReady trx => .ok (s.tsDispatch [trx] .rslReady)

/-- The requests of the action of a state for an event; the address of an object is read at that moment, and a
configuration is requested by the number of the TRX or the timeslot. -/
def Site.actionSends (s : Site) (mo : Mo) (msg : Msg) : MoSt → List Sent
  | .init => match (s.addr mo).cls with
    | .cf => [⟨mo,s.addr mo,.startReq⟩]
    | .trxc => [⟨mo,s.addr mo,.resetCmd⟩]
    | _ => [⟨mo,s.addr mo,.connectCmd⟩]
  | .waitConnCompl => [⟨mo,s.addr mo,.resetCmd⟩]
  | .waitResCompl => [⟨mo,s.addr mo,.startReq⟩]
  | .waitStartRes => match (s.addr mo).cls with
    | .cf | .trxc => [⟨mo,s.addr mo,.opInfo⟩]
    | .dp => [⟨mo,s.addr mo,.enableReq⟩]
    | .tf => [⟨mo,s.addr .tf,.confReq .tf⟩]
    | .is => [⟨mo,s.addr .is,.confReq .is⟩]
    | .con => [⟨mo,s.addr .con,.confReq .con⟩]
    | .tx => [⟨mo,⟨.tx,0,255,mo.trx⟩,.confReq .tx⟩]
    | .rx => [⟨mo,⟨.rx,0,255,mo.trx⟩,.confReq .rx⟩]
    | .ts => match getOm2kMo conf (s.addr mo) with
      | some (.ts trx nr) => [⟨mo,⟨.ts,0,trx,nr⟩,.tsConfReq (ts2comb (s.ts trx nr))⟩]
      | _ => []
    | .unset => []
  | .waitCfgRes => if msg.accordanceInd = some 0 then [⟨mo,s.addr mo,.enableReq⟩] else []
  | .waitEnableRes => [⟨mo,s.addr mo,.opInfo⟩]
  | .waitStartAccept | .waitCfgAccept | .waitEnableAccept | .waitOpinfoAccept | .done | .error => []

def Site.startSends (s : Site) (mo : Mo) : List Sent := s.actionSends conf mo ⟨.other 0,none,none⟩ .init

/-- The requests of an FSM that goes to this state: where it ends, those of the FSM that is started next. -/
def Site.endSends (s : Site) (k : Nat) (f : MoFsm) : List Sent :=
  if f.st = .done ∨ f.st = .error then
    match ((s.bsc.bringUp k).moEnd conf.numTrx f).mo with
    | some next => s.startSends conf next.mo
    | none => []
  else []

def Site.recvSends (s : Site) (mo : Mo) (msg : Msg) : List Sent :=
  match s.bsc.fsm mo with
  | none => []
  | some k => match (s.bsc.bringUp k).mo with
    | none => []
    | some f =>
      if f.mo = mo then
        (match msg.msgType.event with
          | some ev => if moFsm.inEvent f.st ev then s.actionSends conf mo msg f.st else []
          | none => [])
          ++ s.endSends conf k { f with st := moFsmRecvmsg mo.cls f.st msg,refused := f.refused || refuses msg f.st }
      else []

/-- The requests that are sent in a step. -/
def Site.sends (s : Site) : SiteInput → List Sent
  | .teiUp true => (s.bootstrapInit conf).startSends conf .cf
  | .recv addr msg =>
    match getOm2kMo conf addr with
    | none => []
    | some mo => s.recvSends conf mo msg
  | .moTimer k =>
    match (s.bsc.bringUp k).mo with
    | some f => s.endSends conf k { f with st := .error }
    | none => []
  | _ => []

def grants (msg : Msg) (st : MoSt) : Bool := msg.msgType.event.any (moFsm.inEvent st) && !refuses msg st

/-- The links come up and stay (`teiDn` and `closeOm` are left out), no timer expires, and the BTS answers what an
object has requested by granting it. -/
def Positive (s : Site) : SiteInput → Prop
  | .teiUp _ | .rslReady _ => True
  | .recv addr msg => ∃ k f, (s.bsc.bringUp k).mo = some f ∧ addr.Same (s.addr f.mo) ∧ grants msg f.st = true
  | _ => False

abbrev Answered : Site → Prop := Reach (siteStep conf) Positive (· = conf.initial)

/-- A request has the address of its object, and a TS CONF REQ the combination of the configured kind. -/
def Sent.Right (r : Sent) : Prop :=
  r.addr.Same (r.mo.own conf.btsNr)
    ∧ ∀ comb, r.req = .tsConfReq comb → ∃ trx nr, r.mo = .ts trx nr ∧ comb = pchan2comb (conf.kind trx nr)

structure Covers : Prop where
  sent : ∀ s, Answered conf s → ∀ i, Positive s i → ∀ r ∈ s.sends conf i, r.Right conf
  distinct : ∀ s, Answered conf s → 0 < s.bsc.started → ∀ mo ∈ btsMos conf.numTrx, ∀ mo' ∈ btsMos conf.numTrx,
    (s.addr mo).Same (s.addr mo') → mo = mo'
  ready : ∀ s, Answered conf s → ∀ k, (s.bsc.bringUp k).bts = .done → ∀ trx < conf.numTrx, ∀ nr < 8,
    (trx,nr,.omlReady) ∈ s.tsEvents

def SiteConf.OneStatic : Prop :=
  conf.numTrx = 1 ∧ ∀ nr < 8, conf.kind 0 nr ≠ .tchFTchHPdch ∧ conf.kind 0 nr ≠ .tchFPdch

end Step

section Objects

theorem mem_btsMos_one {mo : Mo} : mo ∈ btsMos 1 ↔ mo = .cf ∨ mo = .tf ∨ mo = .con ∨ mo = .is ∨ mo = .trxc 0
    ∨ mo = .tx 0 ∨ mo = .rx 0 ∨ ∃ nr < 8, mo = .ts 0 nr := by
  simp [btsMos,trxMos,eq_comm]

theorem Mo.own_injective {btsNr : Nat} {mo mo' : Mo} (h : (mo.own btsNr).Same (mo'.own btsNr)) : mo = mo' := by
  obtain ⟨hcls,hso,hinst⟩ := h
  cases mo <;> cases mo' <;> cases hcls <;> simp only [Mo.own] at hso hinst <;> simp only [hso,hinst]

theorem Addr.Same.refl (a : Addr) : a.Same a := ⟨rfl,rfl,rfl⟩

theorem getOm2kMo_own {conf : SiteConf} {mo : Mo} (h : mo ∈ btsMos 1) :
    getOm2kMo conf (mo.own conf.btsNr) = some mo := by
  have hc0 := conf.c0
  obtain rfl | rfl | rfl | rfl | rfl | rfl | rfl | ⟨nr,hnr,rfl⟩ := mem_btsMos_one.mp h <;> simp [getOm2kMo,Mo.own,hc0]
  exact hnr

end Objects

/-- A bring-up of a BTS with one TRX has to do with the objects of this TRX only. -/
structure BringUp.Fit (t : BringUp) : Prop where
  mo : ∀ f, t.mo = some f → f.mo ∈ btsMos 1
  trx : ∀ x, t.trx = some x → x.trx = 0
  next : t.bts = .waitTrx → 1 ≤ t.nextTrxNr.toNat

theorem BringUp.fit_empty (bts : BtsSt) (hbts : bts ≠ .waitTrx) : ({ bts } : BringUp).Fit where
  mo := fun f hf => by cases hf
  trx := fun x hx => by cases hx
  next := fun hb => absurd hb hbts

section Fit

variable {t : BringUp} {f : MoFsm} {mo : Mo}

theorem BringUp.Fit.moFsmStart (h : t.Fit) (hmo : mo ∈ btsMos 1) : (t.moFsmStart mo).Fit where
  mo := fun f hf => by
    cases hf
    exact hmo
  trx := h.trx
  next := h.next

theorem btsDispatch_fit (h : t.Fit) (ev : BtsEvent) : (t.btsDispatch 1 ev).Fit := by
  cases ev with
  | cfDone =>
    unfold BringUp.btsDispatch
    dsimp only
    split
    · exact BringUp.Fit.moFsmStart ⟨h.mo,h.trx,fun hb => (by cases hb)⟩ (by decide)
    · exact h
  | tfDone =>
    unfold BringUp.btsDispatch
    dsimp only
    split
    · exact BringUp.Fit.moFsmStart ⟨h.mo,h.trx,fun hb => (by cases hb)⟩ (by decide)
    · exact h
  | conDone =>
    unfold BringUp.btsDispatch
    dsimp only
    split
    · exact BringUp.Fit.moFsmStart ⟨h.mo,h.trx,fun hb => (by cases hb)⟩ (by decide)
    · exact h
  | isDone =>
    unfold BringUp.btsDispatch
    dsimp only
    split
    · exact BringUp.Fit.moFsmStart ⟨h.mo,fun x hx => (by cases hx; rfl),fun _ => Nat.le_refl 1⟩ (by decide)
    · exact h
  | trxDone =>
    unfold BringUp.btsDispatch
    dsimp only
    split
    · next hb =>
      rw [if_neg (Nat.not_lt.mpr (h.next hb))]
      exact ⟨h.mo,h.trx,fun hb => (by cases hb)⟩
    · exact h

theorem trxDispatch_fit (h : t.Fit) (ev : TrxEvent) : (t.trxDispatch 1 ev).Fit := by
  unfold BringUp.trxDispatch
  split
  · exact h
  · next x hx =>
    have hzero : x.trx = 0 := h.trx x hx
    have hfit : ∀ x' : TrxFsm, x'.trx = 0 → ({ t with trx := some x' } : BringUp).Fit := fun x' hx' =>
      ⟨h.mo,fun y hy => (by cases hy; exact hx'),h.next⟩
    cases ev with
    | trxcDone =>
      dsimp only
      split
      · exact BringUp.Fit.moFsmStart (hfit _ hzero) (by rw [hzero]; decide)
      · exact h
    | txDone =>
      dsimp only
      split
      · exact BringUp.Fit.moFsmStart (hfit _ hzero) (by rw [hzero]; decide)
      · exact h
    | rxDone =>
      dsimp only
      split
      · exact BringUp.Fit.moFsmStart (hfit _ hzero) (by rw [hzero]; decide)
      · exact h
    | tsDone =>
      dsimp only
      split
      · split
        · next hnr =>
          refine BringUp.Fit.moFsmStart (hfit _ hzero) (mem_btsMos_one.mpr ?_)
          rw [hzero]
          simp [hnr]
        · have hnone : ({ t with trx := none } : BringUp).Fit := ⟨h.mo,fun y hy => (by cases hy),h.next⟩
          exact btsDispatch_fit hnone .trxDone
      · exact h

theorem moEnd_fit (h : t.Fit) (f : MoFsm) : (t.moEnd 1 f).Fit := by
  have hnone : ({ t with mo := none, ended := t.ended ++ [f] } : BringUp).Fit :=
    ⟨fun f' hf' => (by cases hf'),h.trx,h.next⟩
  unfold BringUp.moEnd
  cases f.mo with
  | cf => exact btsDispatch_fit hnone .cfDone
  | tf => exact btsDispatch_fit hnone .tfDone
  | con => exact btsDispatch_fit hnone .conDone
  | is => exact btsDispatch_fit hnone .isDone
  | trxc => exact trxDispatch_fit hnone .trxcDone
  | tx => exact trxDispatch_fit hnone .txDone
  | rx => exact trxDispatch_fit hnone .rxDone
  | ts => exact trxDispatch_fit hnone .tsDone

theorem moStateChg_fit {bsc : Bsc} {k : Nat} (h1 : bsc.numTrx = 1) (h : ∀ j, (bsc.bringUp j).Fit)
    (hmo : f.mo ∈ btsMos 1) (j : Nat) : ((bsc.moStateChg k f).bringUp j).Fit := by
  by_cases hj : j = k
  · subst hj
    unfold Bsc.moStateChg
    split
    · rw [h1]
      simpa [Bsc.put] using moEnd_fit (h j) f
    · have hfit : ({ bsc.bringUp j with mo := some f } : BringUp).Fit :=
        ⟨fun f' hf' => (by cases hf'; exact hmo),(h j).trx,(h j).next⟩
      simpa using hfit
  · have hother : (bsc.moStateChg k f).bringUp j = bsc.bringUp j := by
      unfold Bsc.moStateChg
      split <;> simp [Bsc.put,hj]
    rw [hother]
    exact h j

end Fit

/-- The answer to an object whose FSM is alive moves the FSM, and any other message is ignored. -/
theorem step_recv_cases {bsc bsc' : Bsc} {mo : Mo} {msg : Msg} (h : step bsc (.recv mo msg) = .ok bsc') :
    bsc' = bsc ∨ ∃ k f, bsc.fsm mo = some k ∧ (bsc.bringUp k).mo = some f ∧ f.mo = mo
      ∧ bsc' = bsc.moStateChg k
        { f with st := moFsmRecvmsg mo.cls f.st msg,refused := f.refused || refuses msg f.st } := by
  simp only [step] at h
  split at h
  · cases h
    exact .inl rfl
  · next k hk =>
    split at h
    · next f hf =>
      split at h
      · next hmo =>
        cases h
        exact .inr ⟨k,f,hk,hf,hmo,rfl⟩
      · cases h
    · cases h

/-- The objects of C0 have their addresses, and its timeslots were told that OML is up. -/
structure Site.Ready (conf : SiteConf) (s : Site) : Prop where
  addr : ∀ mo ∈ btsMos 1, s.addr mo = mo.own conf.btsNr
  oml : ∀ nr < 8, (s.ts 0 nr).isOmlReady = true
  events : ∀ nr < 8, (0,nr,.omlReady) ∈ s.tsEvents

structure Site.Inv (conf : SiteConf) (s : Site) : Prop where
  numTrx : s.bsc.numTrx = 1
  fit : ∀ k, (s.bsc.bringUp k).Fit
  ts : ∀ trx nr, (s.ts trx nr).SetUp (conf.kind trx nr)
  idle : s.bsc.started = 0 → ∀ k, s.bsc.bringUp k = {}
  ready : 0 < s.bsc.started → s.Ready conf

section Runs

variable {conf : SiteConf} {s s' : Site}

theorem tsDispatch_setUp {trxs : List Nat} {ev : TsLinkEvent} (h : ∀ trx nr, (s.ts trx nr).SetUp (conf.kind trx nr))
    (hev : ev = .omlReady ∨ ev = .rslReady) (trx nr : Nat) :
    ((s.tsDispatch trxs ev).ts trx nr).SetUp (conf.kind trx nr) := by
  unfold Site.tsDispatch
  dsimp only
  split
  · rcases hev with rfl | rfl
    · exact (h trx nr).omlReady.1
    · exact (h trx nr).rslReady.1
  · exact h trx nr

theorem bootstrapInit_bsc : (s.bootstrapInit conf).bsc = s.bsc := rfl

theorem bootstrapInit_ready (h : ∀ trx nr, (s.ts trx nr).SetUp (conf.kind trx nr)) :
    (s.bootstrapInit conf).Ready conf where
  addr := fun mo hmo => by
    obtain rfl | rfl | rfl | rfl | rfl | rfl | rfl | ⟨nr,hnr,rfl⟩ := mem_btsMos_one.mp hmo <;>
      simp [Site.bootstrapInit,Site.abisOm2kTrxInit,Site.abisOm2kBtsInit,Site.moInit,Site.tsDispatch,trxMos]
    exact fun hge => absurd hnr (Nat.not_lt.mpr hge)
  oml := fun nr hnr => by
    simp only [Site.bootstrapInit,Site.abisOm2kTrxInit,Site.abisOm2kBtsInit,Site.moInit,Site.tsDispatch,
      List.mem_singleton,hnr,and_self,if_true]
    exact (h 0 nr).omlReady.2
  events := fun nr hnr => by
    simp [Site.bootstrapInit,Site.abisOm2kTrxInit,Site.abisOm2kBtsInit,Site.moInit,Site.tsDispatch,hnr]

theorem Site.Ready.rslReady {trx : Nat} (h : s.Ready conf) (hts : ∀ trx nr, (s.ts trx nr).SetUp (conf.kind trx nr)) :
    (s.tsDispatch [trx] .rslReady).Ready conf where
  addr := h.addr
  oml := fun nr hnr => by
    unfold Site.tsDispatch
    dsimp only
    split
    · exact (hts 0 nr).rslReady.2.trans (h.oml nr hnr)
    · exact h.oml nr hnr
  events := fun nr hnr => List.mem_append_left _ (h.events nr hnr)

theorem initial_inv (h1 : conf.numTrx = 1) : conf.initial.Inv conf where
  numTrx := h1
  fit := fun k => BringUp.fit_empty .init (by decide)
  ts := fun trx nr => ⟨rfl,fun h => (by cases h),fun h => (by cases h)⟩
  idle := fun _ k => rfl
  ready := fun h => absurd h (Nat.lt_irrefl 0)

theorem moStateChg_same (bsc : Bsc) (k : Nat) (f : MoFsm) :
    (bsc.moStateChg k f).numTrx = bsc.numTrx ∧ (bsc.moStateChg k f).started = bsc.started := by
  unfold Bsc.moStateChg
  split <;> exact ⟨rfl,rfl⟩

theorem bscStep_ok {i : Input} (h : s.bscStep i = .ok s') : ∃ bsc, step s.bsc i = .ok bsc ∧ s' = { s with bsc } := by
  unfold Site.bscStep at h
  cases hstep : step s.bsc i with
  | error e =>
    rw [hstep] at h
    cases h
  | ok bsc =>
    rw [hstep] at h
    cases h
    exact ⟨bsc,rfl,rfl⟩

theorem Site.Inv.recv {mo : Mo} {msg : Msg} (h : s.Inv conf) (hok : s.bscStep (.recv mo msg) = .ok s') :
    s'.Inv conf := by
  obtain ⟨bsc,hstep,rfl⟩ := bscStep_ok hok
  obtain rfl | ⟨k,f,hk,hf,-,rfl⟩ := step_recv_cases hstep
  · exact h
  · obtain ⟨hnum,hstarted⟩ := moStateChg_same s.bsc k
      { f with st := moFsmRecvmsg mo.cls f.st msg,refused := f.refused || refuses msg f.st }
    refine ⟨hnum.trans h.numTrx,moStateChg_fit h.numTrx h.fit ((h.fit k).mo f hf),h.ts,fun hidle => ?_,
      fun hpos => ?_⟩
    · rw [h.idle (hstarted.symm.trans hidle) k] at hf
      cases hf
    · obtain ⟨haddr,homl,hevents⟩ := h.ready (hstarted ▸ hpos)
      exact ⟨haddr,homl,hevents⟩

theorem siteStep_inv {i : SiteInput} (h : s.Inv conf) (hpos : Positive s i) (hok : siteStep conf s i = .ok s') :
    s'.Inv conf := by
  cases i with
  | teiUp omlTei =>
    cases omlTei with
    | false =>
      cases hok
      exact h
    | true =>
      obtain ⟨bsc,hstep,rfl⟩ := bscStep_ok hok
      obtain ⟨haddr,homl,hevents⟩ := bootstrapInit_ready h.ts
      cases hstep
      have hcf : (({ bts := .waitCf } : BringUp).moFsmStart .cf).Fit :=
        (BringUp.fit_empty .waitCf (by decide)).moFsmStart (by decide)
      refine ⟨h.numTrx,fun k => ?_,tsDispatch_setUp h.ts (.inl rfl),fun hzero => (by cases hzero),
        fun _ => ⟨haddr,homl,hevents⟩⟩
      by_cases hk : k = s.bsc.started
      · subst hk
        simpa [Bsc.put,bootstrapInit_bsc] using hcf
      · simpa [Bsc.put,bootstrapInit_bsc,hk] using h.fit k
  | recv addr msg =>
    simp only [siteStep] at hok
    split at hok
    · cases hok
      exact h
    · exact h.recv hok
  | rslReady trx =>
    cases hok
    exact ⟨h.numTrx,h.fit,tsDispatch_setUp h.ts (.inr rfl),h.idle,fun hstarted => (h.ready hstarted).rslReady h.ts⟩
  | _ => exact absurd hpos id

theorem Answered.inv (h1 : conf.numTrx = 1) (h : Answered conf s) : s.Inv conf :=
  h.invariant (fun _ hs => hs ▸ initial_inv h1) fun _ _ _ hinv hpos hok => siteStep_inv hinv hpos hok

end Runs

section Requests

variable {conf : SiteConf} {s s' : Site}

/-- The combination of a timeslot that is not dynamic is that of the kind it is configured for. -/
theorem ts2comb_static {kind : Pchan} {ts : LinkTs} (h : ts.SetUp kind) (hup : ts.isOmlReady = true)
    (hstatic : kind ≠ .tchFTchHPdch ∧ kind ≠ .tchFPdch) : ts2comb ts = pchan2comb kind := by
  obtain ⟨hinit,his⟩ := h.kinds hup
  rw [ts2comb,hinit,his,if_neg hstatic.2]
  cases kind with
  | tchFTchHPdch => exact absurd rfl hstatic.1
  | tchFPdch => exact absurd rfl hstatic.2
  | _ => rfl

theorem ts2comb_dynamic {kind : Pchan} {ts : LinkTs} (h : ts.SetUp kind) (hup : ts.isOmlReady = true)
    (hdyn : kind = .tchFTchHPdch ∨ kind = .tchFPdch) : ts2comb ts ≠ pchan2comb kind := by
  obtain ⟨hinit,his⟩ := h.kinds hup
  rw [ts2comb,hinit,his]
  rcases hdyn with rfl | rfl <;> decide

theorem actionSends_right (hready : s.Ready conf) (hts : ∀ trx nr, (s.ts trx nr).SetUp (conf.kind trx nr))
    (hstatic : conf.OneStatic) {mo : Mo} (hmo : mo ∈ btsMos 1) (msg : Msg) (st : MoSt) :
    ∀ r ∈ s.actionSends conf mo msg st, r.Right conf := by
  have haddr := hready.addr mo hmo
  have hright : ∀ req, (∀ comb, req ≠ .tsConfReq comb) → (⟨mo,s.addr mo,req⟩ : Sent).Right conf := by
    intro req hreq
    refine ⟨?_,fun comb h => absurd h (hreq comb)⟩
    rw [haddr]
    exact .refl _
  have hone : ∀ req, (∀ comb, req ≠ .tsConfReq comb) → ∀ r ∈ [(⟨mo,s.addr mo,req⟩ : Sent)], r.Right conf := by
    intro req hreq r hr
    rw [List.mem_singleton.mp hr]
    exact hright req hreq
  cases st with
  | init =>
    unfold Site.actionSends
    dsimp only
    split <;> exact hone _ fun _ => by simp
  | waitConnCompl => exact hone _ fun _ => by simp
  | waitResCompl => exact hone _ fun _ => by simp
  | waitEnableRes => exact hone _ fun _ => by simp
  | waitCfgRes =>
    unfold Site.actionSends
    dsimp only
    split
    · exact hone _ fun _ => by simp
    · exact List.forall_mem_nil _
  | waitStartRes =>
    have hc0 := conf.c0
    unfold Site.actionSends
    dsimp only
    obtain rfl | rfl | rfl | rfl | rfl | rfl | rfl | ⟨nr,hnr,rfl⟩ := mem_btsMos_one.mp hmo
    all_goals rw [haddr] at hone ⊢
    · exact hone .opInfo fun _ => by simp
    · exact hone (.confReq .tf) fun _ => by simp
    · exact hone (.confReq .con) fun _ => by simp
    · exact hone (.confReq .is) fun _ => by simp
    · exact hone .opInfo fun _ => by simp
    · intro r hr
      rw [List.mem_singleton.mp hr]
      exact ⟨⟨rfl,rfl,rfl⟩,fun comb h => by cases h⟩
    · intro r hr
      rw [List.mem_singleton.mp hr]
      exact ⟨⟨rfl,rfl,rfl⟩,fun comb h => by cases h⟩
    · rw [getOm2kMo_own hmo]
      intro r hr
      rw [List.mem_singleton.mp hr]
      refine ⟨⟨rfl,rfl,rfl⟩,fun comb h => ⟨0,nr,rfl,?_⟩⟩
      cases h
      exact ts2comb_static (hts 0 nr) (hready.oml nr hnr) (hstatic.2 nr hnr)
  | _ => exact List.forall_mem_nil _

theorem endSends_right (hinv : s.Inv conf) (hready : s.Ready conf) (hstatic : conf.OneStatic) (k : Nat) (f : MoFsm) :
    ∀ r ∈ s.endSends conf k f, r.Right conf := by
  unfold Site.endSends
  split
  · split
    · next next hnext =>
      rw [hstatic.1] at hnext
      exact actionSends_right hready hinv.ts hstatic ((moEnd_fit (hinv.fit k) f).mo next hnext) _ .init
    · exact List.forall_mem_nil _
  · exact List.forall_mem_nil _

theorem Site.Inv.started (h : s.Inv conf) {k : Nat} {f : MoFsm} (hf : (s.bsc.bringUp k).mo = some f) :
    0 < s.bsc.started := by
  refine Nat.pos_of_ne_zero fun hzero => ?_
  rw [h.idle hzero k] at hf
  cases hf

theorem recvSends_right (hinv : s.Inv conf) (hready : s.Ready conf) (hstatic : conf.OneStatic) (mo : Mo) (msg : Msg) :
    ∀ r ∈ s.recvSends conf mo msg, r.Right conf := by
  unfold Site.recvSends
  split
  · exact List.forall_mem_nil _
  · next k hk =>
    split
    · exact List.forall_mem_nil _
    · next f hf =>
      split
      · next hmo =>
        have hmem : mo ∈ btsMos 1 := hmo ▸ (hinv.fit k).mo f hf
        refine List.forall_mem_append.mpr ⟨?_,endSends_right hinv hready hstatic k _⟩
        split
        · split
          · exact actionSends_right hready hinv.ts hstatic hmem msg f.st
          · exact List.forall_mem_nil _
        · exact List.forall_mem_nil _
      · exact List.forall_mem_nil _

theorem sends_right (hinv : s.Inv conf) (hstatic : conf.OneStatic) {i : SiteInput} (hpos : Positive s i) :
    ∀ r ∈ s.sends conf i, r.Right conf := by
  cases i with
  | teiUp omlTei =>
    cases omlTei with
    | false => exact List.forall_mem_nil _
    | true =>
      have hcf : Mo.cf ∈ btsMos 1 := by decide
      exact actionSends_right (bootstrapInit_ready hinv.ts) (tsDispatch_setUp hinv.ts (.inl rfl)) hstatic hcf
        ⟨.other 0,none,none⟩ .init
  | recv addr msg =>
    obtain ⟨k,f,hf,-,-⟩ := hpos
    have hready := hinv.ready (hinv.started hf)
    simp only [Site.sends]
    split
    · exact List.forall_mem_nil _
    · exact recvSends_right hinv hready hstatic _ msg
  | rslReady => exact List.forall_mem_nil _
  | _ => exact absurd hpos id

theorem covers_of_oneStatic (hstatic : conf.OneStatic) : Covers conf where
  sent := fun s hs i hpos => sends_right (hs.inv hstatic.1) hstatic hpos
  distinct := fun s hs hstarted mo hmo mo' hmo' hsame => by
    have hready := (Answered.inv hstatic.1 hs).ready hstarted
    rw [hstatic.1] at hmo hmo'
    rw [hready.addr mo hmo,hready.addr mo' hmo'] at hsame
    exact Mo.own_injective hsame
  ready := fun s hs k hdone trx htrx nr hnr => by
    have hinv := Answered.inv hstatic.1 hs
    have hstarted : 0 < s.bsc.started := by
      refine Nat.pos_of_ne_zero fun hzero => ?_
      rw [hinv.idle hzero k] at hdone
      cases hdone
    rw [hstatic.1] at htrx
    obtain rfl : trx = 0 := by omega
    exact (hinv.ready hstarted).events nr hnr

end Requests

section Converse

variable {conf : SiteConf}

/-- The objects of another TRX than C0 have no addresses once a bring-up has begun. -/
theorem one_of_distinct (h : ∀ s, Answered conf s → 0 < s.bsc.started → ∀ mo ∈ btsMos conf.numTrx,
    ∀ mo' ∈ btsMos conf.numTrx, (s.addr mo).Same (s.addr mo') → mo = mo') : conf.numTrx = 1 := by
  by_contra hne
  have hc0 := conf.c0
  have hmem : Mo.trxc 1 ∈ btsMos conf.numTrx ∧ Mo.tx 1 ∈ btsMos conf.numTrx := by
    simp only [btsMos,trxMos,List.mem_append,List.mem_flatMap,List.mem_range]
    exact ⟨.inr ⟨1,by omega,by simp⟩,.inr ⟨1,by omega,by simp⟩⟩
  have hstep : ∃ s, siteStep conf conf.initial (.teiUp true) = .ok s ∧ 0 < s.bsc.started
      ∧ (s.addr (.trxc 1)).Same (s.addr (.tx 1)) := by
    refine ⟨_,rfl,Nat.one_pos,?_⟩
    simp [Site.bootstrapInit,Site.abisOm2kTrxInit,Site.abisOm2kBtsInit,Site.moInit,Site.tsDispatch,trxMos,
      SiteConf.initial,Addr.Same.refl]
  obtain ⟨s,hs,hstarted,hsame⟩ := hstep
  have hreach : Answered conf s := .next (i := .teiUp true) (.start rfl) trivial hs
  cases h s hreach hstarted _ hmem.1 _ hmem.2 hsame

def Granting (bsc : Bsc) : Input → Prop
  | .teiUp omlTei => omlTei = true
  | .recv mo msg => mo ∈ btsMos 1 ∧ (bsc.bringUp 0).mo.any (fun f => f.mo = mo && grants msg f.st) = true
  | _ => False

instance (bsc : Bsc) : (i : Input) → Decidable (Granting bsc i)
  | .teiUp omlTei => inferInstanceAs (Decidable (omlTei = true))
  | .recv mo msg => inferInstanceAs (Decidable (mo ∈ btsMos 1 ∧
      (bsc.bringUp 0).mo.any (fun f => f.mo = mo && grants msg f.st) = true))
  | .teiDn | .closeOm | .moTimer _ | .trxTimer _ | .btsTimer _ => .isFalse id

theorem answered_of_granting (h1 : conf.numTrx = 1) {bsc : Bsc} (h : Reachable 1 Granting bsc) :
    ∃ s, Answered conf s ∧ s.bsc = bsc := by
  induction h with
  | start h =>
    refine ⟨conf.initial,.start rfl,?_⟩
    rw [h,SiteConf.initial,h1]
  | @next bsc bsc' i _ hgood hstep ih =>
    obtain ⟨s,hs,rfl⟩ := ih
    cases i with
    | teiUp omlTei =>
      cases hgood
      refine ⟨{ s.bootstrapInit conf with bsc := bsc' },.next hs (i := .teiUp true) trivial ?_,rfl⟩
      simp only [siteStep,Site.bscStep,bootstrapInit_bsc,hstep]
      rfl
    | recv mo msg =>
      obtain ⟨hmo,hany⟩ := hgood
      obtain ⟨f,hf,hgrants⟩ := (Option.any_eq_true _ _).mp hany
      simp only [Bool.and_eq_true,decide_eq_true_eq] at hgrants
      obtain ⟨rfl,hgrants⟩ := hgrants
      have hinv := Answered.inv h1 hs
      have haddr := (hinv.ready (hinv.started hf)).addr f.mo hmo
      refine ⟨{ s with bsc := bsc' },.next hs (i := .recv (f.mo.own conf.btsNr) msg) ?_ ?_,rfl⟩
      · exact ⟨0,f,hf,haddr ▸ .refl _,hgrants⟩
      · simp only [siteStep,getOm2kMo_own hmo,Site.bscStep,hstep]
        rfl
    | _ => exact absurd hgood id

/-- The answers up to the start of a timeslot of C0. -/
def upTo (nr : Fin 8) : List Input :=
  .teiUp true :: (([Mo.cf,.tf,.con,.is,.trxc 0,.tx 0,.rx 0] ++ (List.range nr).map (Mo.ts 0)).flatMap answers
    ++ [MsgType.connectCompl,.resetCompl,.startReqAck].map fun m => .recv (.ts 0 nr) ⟨m,none,none⟩)

theorem upTo_reaches (nr : Fin 8) : ∃ bsc, Reachable 1 Granting bsc ∧ bsc.fsm (.ts 0 nr) = some 0
    ∧ (bsc.bringUp 0).mo = some ⟨.ts 0 nr,.waitStartRes,false⟩ := by
  have hrun : ∃ bsc, run step { numTrx := 1 } (upTo nr) = .ok bsc ∧ bsc.fsm (.ts 0 nr) = some 0
      ∧ (bsc.bringUp 0).mo = some ⟨.ts 0 nr,.waitStartRes,false⟩ := by
    revert nr
    decide +kernel
  have hgood : GoodRun step Granting { numTrx := 1 } (upTo nr) := by
    revert nr
    decide +kernel
  obtain ⟨bsc,hrun,hstate⟩ := hrun
  exact ⟨bsc,.of_run (.start rfl) hgood hrun,hstate⟩

theorem static_of_sent (h1 : conf.numTrx = 1)
    (h : ∀ s, Answered conf s → ∀ i, Positive s i → ∀ r ∈ s.sends conf i, r.Right conf) {nr : Nat} (hnr : nr < 8) :
    conf.kind 0 nr ≠ .tchFTchHPdch ∧ conf.kind 0 nr ≠ .tchFPdch := by
  rw [← not_or]
  intro hdyn
  obtain ⟨bsc,hbsc,hfsm,hmo⟩ := upTo_reaches ⟨nr,hnr⟩
  obtain ⟨s,hs,rfl⟩ := answered_of_granting h1 hbsc
  have hinv := Answered.inv h1 hs
  have hmem : Mo.ts 0 nr ∈ btsMos 1 := mem_btsMos_one.mpr (by simp [hnr])
  have hready := hinv.ready (hinv.started hmo)
  have haddr := hready.addr (.ts 0 nr) hmem
  have hpos : Positive s (.recv ((Mo.ts 0 nr).own conf.btsNr) ⟨.startRes,some moStateEnabled,none⟩) :=
    ⟨0,_,hmo,haddr ▸ .refl _,rfl⟩
  have haction : s.actionSends conf (.ts 0 nr) ⟨.startRes,some moStateEnabled,none⟩ .waitStartRes =
      [⟨.ts 0 nr,⟨.ts,0,0,nr⟩,.tsConfReq (ts2comb (s.ts 0 nr))⟩] := by
    have hcls : ((Mo.ts 0 nr).own conf.btsNr).cls = .ts := rfl
    simp only [Site.actionSends,haddr,hcls,getOm2kMo_own hmem]
  have hsent : ⟨.ts 0 nr,⟨.ts,0,0,nr⟩,.tsConfReq (ts2comb (s.ts 0 nr))⟩ ∈
      s.sends conf (.recv ((Mo.ts 0 nr).own conf.btsNr) ⟨.startRes,some moStateEnabled,none⟩) := by
    have hevent : moFsm.inEvent .waitStartRes .rxStartRes = true := rfl
    simp only [Site.sends,getOm2kMo_own hmem,Site.recvSends,hfsm,hmo,if_true,MsgType.event,hevent,haction]
    exact List.mem_append_left _ (List.mem_singleton_self _)
  obtain ⟨trx,nr',hts,hcomb⟩ := (h s hs _ hpos _ hsent).2 _ rfl
  cases hts
  exact ts2comb_dynamic (hinv.ts 0 nr) (hready.oml nr hnr) hdyn hcomb

end Converse

/-- In the runs in which the BTS answers all requests positively, the requests of the objects have their addresses,
which are distinct, and the combinations of the configured kinds, and all timeslots are told that OML is up, if and
only if C0 is the only TRX and no timeslot of it is dynamic. -/
theorem covers_iff (conf : SiteConf) : Covers conf ↔ conf.OneStatic :=
  ⟨fun h => have h1 := one_of_distinct h.distinct
    ⟨h1,fun _ hnr => static_of_sent h1 h.sent hnr⟩,covers_of_oneStatic⟩

def twoTrx : SiteConf := ⟨0,2,fun _ _ => .tchF,Nat.two_pos⟩

theorem twoTrx_uncovered : ¬ Covers twoTrx := fun h => absurd (one_of_distinct h.distinct) (by decide)

end OsmoBsc.Om2k
