import OsmoBsc.Lib.Finish
import OsmoBsc.Chan.Agreement
import Mathlib.Algebra.Ring.Nat
set_option autoImplicit false

namespace OsmoBsc.Chan
open EventFsm Calls

/-- A TRX: whether it is usable, and its timeslots. -/
structure Trx where
  usable : Bool
  ts : List TsId
  deriving DecidableEq, Repr

structure Bts where
  trxList : List Trx
  chanAllocReverse : Bool
  dynTsAllowTchF : Bool
  nodup : (trxList.flatMap Trx.ts).Nodup

namespace Bsc

/-- The unused lchans of a timeslot that is used as `asPchan`. -/
def unusedLchans (w : Bsc) (t : TsId) (asPchan : Pchan) : List LchanId :=
  (w.lchansFrom t asPchan 8 0).filter fun l => (w.lchan l).fi == some .unused

/-- What `trx_count_free_ts` counts in a usable timeslot. -/
def tsCountFree (w : Bsc) (t : TsId) (pchan : Pchan) : Nat :=
  let ts := w.ts t
  if ts.pchanIs = .pdch then match ts.pchanOnInit, pchan with
    | .tchFPdch, .tchF => 1
    | .tchFTchHPdch, .tchF => 1
    | .tchFTchHPdch, .tchH => 2
    | _, _ => 0
  else if ts.pchanIs = pchan then
    ((w.lchansFrom t ts.pchanIs 8 0).filter fun l => (w.lchan l).stateIs .unused).length
  else 0

def trxCountFreeTs (w : Bsc) (pchan : Pchan) (trx : Trx) : Nat :=
  if trx.usable then
    (trx.ts.map fun t => if tsIsUsable (w.ts t) then w.tsCountFree t pchan else 0).sum
  else 0

def btsCountFreeTs (w : Bsc) (bts : Bts) (pchan : Pchan) : Nat :=
  (bts.trxList.map (w.trxCountFreeTs pchan)).sum

end Bsc

namespace Bts

def order {α : Type} (bts : Bts) (xs : List α) : List α := if bts.chanAllocReverse then xs.reverse else xs

/-- A timeslot in the loop of `_lc_find_trx`. -/
def lcFindTs (pchan asPchan : Pchan) (w : Bsc) (t : TsId) : Option LchanId :=
  if tsIsUsable (w.ts t) && (w.ts t).pchanOnInit == pchan && tsUsableAsPchan w t asPchan then
    (w.lchansFrom t asPchan 8 0).find? fun l => (w.lchan l).fi == some .unused
  else none

def lcFindTrx (bts : Bts) (pchan asPchan : Pchan) (w : Bsc) (trx : Trx) : Option LchanId :=
  if trx.usable then (bts.order trx.ts).findSome? (lcFindTs pchan asPchan w) else none

def lcDynFindBts (bts : Bts) (pchan asPchan : Pchan) (w : Bsc) : Option LchanId :=
  (bts.order bts.trxList).findSome? (bts.lcFindTrx pchan asPchan w)

/-- The kinds of timeslots in which `lchan_select_by_type` looks, one after the other,
each with what the timeslot is used as. -/
def searches (bts : Bts) : ChanT → List (Pchan × Pchan)
  | .sdcch =>
    let ccch : List (Pchan × Pchan) :=
      [(.ccchSdcch4,.ccchSdcch4),(.ccchSdcch4Cbch,.ccchSdcch4Cbch)]
    let sdcch8 : List (Pchan × Pchan) :=
      [(.sdcch8Sacch8c,.sdcch8Sacch8c),(.sdcch8Sacch8cCbch,.sdcch8Sacch8cCbch)]
    if bts.chanAllocReverse then sdcch8 ++ ccch else ccch ++ sdcch8
  | .tchF => [(.tchF,.tchF),(.tchFPdch,.tchF)] ++
      if bts.dynTsAllowTchF then [(.tchFTchHPdch,.tchF)] else []
  | .tchH => [(.tchH,.tchH),(.tchFTchHPdch,.tchH)]
  | _ => []

/-- `lchan_select_by_type`, up to the type of the lchan, which the activation sets. -/
def lchanSelectByType (bts : Bts) (type : ChanT) (w : Bsc) : Option LchanId :=
  (bts.searches type).findSome? fun p => bts.lcDynFindBts p.1 p.2 w

/-- The lchans that `lchan_select_by_type` hands out until it finds none, `n` of them.
Each of them is activated for the channel request of an MS before the next one is
selected, and nothing else happens. -/
inductive HandsOut (cfg : TsId → TsCfg) (bts : Bts) (type : ChanT) : Bsc → Nat → Prop where
  | done {w : Bsc} : bts.lchanSelectByType type w = none → HandsOut cfg bts type w 0
  | next {w w' : Bsc} {l : LchanId} {n : Nat} : bts.lchanSelectByType type w = some l →
      Finishes (exec cfg) {} w [.rslRxChanRqd l type] w' → HandsOut cfg bts type w' n →
      HandsOut cfg bts type w (n+1)

end Bts

section Activation

variable {cfg : TsId → TsCfg} {w w' : Bsc} {l : LchanId} {type : ChanT} {rest : List Call}

theorem Bsc.updLchan_updLchan (f g : Lchan → Lchan) :
    (w.updLchan l f).updLchan l g = w.updLchan l (g ∘ f) := by
  simp [Bsc.updLchan]

/-- An lchan that asks its timeslot for a channel, as the request of an MS makes it. -/
def Lchan.asking (type : ChanT) (lchan : Lchan) : Lchan :=
  { lchan with
    fi := some .waitTsReady, type := type, releaseRequested := false, concluded := false, conn := none
    info := { activFor := .forMsChannelRequest, chanMode := .sign }, tchMode := .sign }

structure Lchan.Free (lchan : Lchan) : Prop where
  fi : lchan.fi = some .unused
  conn : lchan.conn = none
  ci : lchan.mgwEndpointCiBts = none

theorem finishes_asking (hl : (w.lchan l).Free)
    (h : Finishes (exec cfg) {} (w.updLchan l (Lchan.asking type))
      [.tsDispatch l.ts (.lchanRequested l),.lchanRtpFsmStart l] w') :
    Finishes (exec cfg) {} w [.rslRxChanRqd l type] w' := by
  have hv : ∀ info, lchanFsm.verdict .unused (.activate info) = .action := fun _ => rfl
  have ho : lchanFsm.outState .unused .waitTsReady = true := rfl
  let info : ActivateInfo := { activFor := .forMsChannelRequest, chanMode := .sign }
  let w1 : Bsc := w.updLchan l ({ · with type := type })
  have h1 : exec cfg (.rslRxChanRqd l type) {} w = .ok (w1,[.lchanActivate l info]) := rfl
  have h2 : exec cfg (.lchanActivate l info) {} w1 = .ok (w1,[.lchanDispatch l (.activate info)]) := by
    simp [exec,lchanActivate,Lchan.stateIs,hl.fi,w1,info]
  have h3 : exec cfg (.lchanDispatch l (.activate info)) {} w1 =
      .ok (w.updLchan l (Lchan.asking type),[.tsDispatch l.ts (.lchanRequested l),.lchanRtpFsmStart l]) := by
    simp [exec,lchanDispatch,hl.fi,hv,lchanFsmUnused,hl.conn,hl.ci,lchanStateChg,ho,lchanOnenter,
      lchanWaitTsReadyOnenter,Bsc.updLchan_updLchan,w1,info]
    rfl
  exact .call h1 (.call h2 (.call h3 h))

structure Lchan.Asks (type : ChanT) (lchan : Lchan) : Prop where
  fi : lchan.fi = some .waitTsReady
  type : lchan.type = type
  releaseRequested : lchan.releaseRequested = false
  activFor : lchan.info.activFor = .forMsChannelRequest
  requiresVoiceStream : lchan.info.requiresVoiceStream = false

theorem Lchan.asks_asking (lchan : Lchan) : (lchan.asking type).Asks type := ⟨rfl,rfl,rfl,rfl,rfl⟩

def Bsc.activated (w : Bsc) (l : LchanId) : Bsc :=
  (w.updLchan l ({ · with fi := some .waitActivAck })).send (.chanActiv l)

theorem exec_tsReady (hl : (w.lchan l).Asks type) :
    exec cfg (.lchanDispatch l .tsReady) {} w = .ok (w.activated l,[]) := by
  have hv : lchanFsm.verdict .waitTsReady .tsReady = .action := rfl
  have ho : lchanFsm.outState .waitTsReady .waitActivAck = true := rfl
  simp [exec,lchanDispatch,hl.fi,hv,lchanFsmWaitTsReady,lchanStateChg,ho,lchanOnenter,
    lchanWaitActivAckOnenter,hl.releaseRequested,hl.activFor,Bsc.activated]

theorem finishes_rtpStart (hl : (w.lchan l).info.requiresVoiceStream = false)
    (h : Finishes (exec cfg) {} w rest w') : Finishes (exec cfg) {} w (.lchanRtpFsmStart l :: rest) w' := by
  have he : exec cfg (.lchanRtpFsmStart l) {} w = .ok (w,[]) := by
    simp [exec,lchanRtpFsmStart,hl]
  exact .call he h

section Loops

variable {t : TsId} {i : Nat}

theorem hasLchanAt_eq {p : Pchan} (hslots : ∀ nr < pchanSubslots p, (w.lchan ⟨t,nr⟩).fi.isSome) :
    w.hasLchanAt t p i = decide (i < pchanSubslots p) := by
  have h8 := pchanSubslots_le p
  by_cases hi : i < pchanSubslots p
  · have h1 := hslots i hi
    have h2 : i < 8 := by omega
    simp [Bsc.hasLchanAt,hi,h1,h2]
  · simp [Bsc.hasLchanAt,hi]

theorem finishes_noneWaiting {n : Nat} (hn : pchanSubslots (w.ts t).pchanOnInit = i+n)
    (hslots : ∀ nr < pchanSubslots (w.ts t).pchanOnInit, (w.lchan ⟨t,nr⟩).fi.isSome)
    (hwait : ∀ nr, i ≤ nr → (w.lchan ⟨t,nr⟩).fi ≠ some .waitTsReady) (h : Finishes (exec cfg) {} w rest w') :
    Finishes (exec cfg) {} w (.tsLchansDispatch t (some .waitTsReady) .tsReady i :: rest) w' := by
  induction n generalizing i with
  | zero =>
    have he : exec cfg (.tsLchansDispatch t (some .waitTsReady) .tsReady i) {} w = .ok (w,[]) := by
      have hnot : ¬ i < pchanSubslots (w.ts t).pchanOnInit := by omega
      simp [exec,tsLchansDispatch,hasLchanAt_eq hslots,hnot]
    exact .call he h
  | succ n ih =>
    have he : exec cfg (.tsLchansDispatch t (some .waitTsReady) .tsReady i) {} w =
        .ok (w,[.tsLchansDispatch t (some .waitTsReady) .tsReady (i+1)]) := by
      have hlt : i < pchanSubslots (w.ts t).pchanOnInit := by omega
      obtain ⟨st,hst⟩ := Option.isSome_iff_exists.mp (hslots i hlt)
      have hne : st ≠ .waitTsReady := fun he => hwait i (Nat.le_refl _) (by rw [hst,he])
      simp [exec,tsLchansDispatch,hasLchanAt_eq hslots,hlt,Lchan.stateIs,hst,hne]
    exact .call he (ih (by omega) fun nr hnr => hwait nr (by omega))

theorem finishes_oneWaiting {n : Nat} (hl : (w.lchan l).Asks type) (hn : l.nr = i+n)
    (hnr : l.nr < pchanSubslots (w.ts l.ts).pchanOnInit)
    (hslots : ∀ nr < pchanSubslots (w.ts l.ts).pchanOnInit, (w.lchan ⟨l.ts,nr⟩).fi.isSome)
    (hwait : ∀ nr, nr ≠ l.nr → (w.lchan ⟨l.ts,nr⟩).fi ≠ some .waitTsReady)
    (h : Finishes (exec cfg) {} (w.activated l) rest w') :
    Finishes (exec cfg) {} w (.tsLchansDispatch l.ts (some .waitTsReady) .tsReady i :: rest) w' := by
  induction n generalizing i with
  | zero =>
    obtain rfl : l.nr = i := by omega
    have he : exec cfg (.tsLchansDispatch l.ts (some .waitTsReady) .tsReady l.nr) {} w =
        .ok (w,[.lchanDispatch l .tsReady,.assertNotWaiting l,
          .tsLchansDispatch l.ts (some .waitTsReady) .tsReady (l.nr+1)]) := by
      simp [exec,tsLchansDispatch,hasLchanAt_eq hslots,hnr,Lchan.stateIs,hl.fi,tsLchanDispatch]
    have hassert : exec cfg (.assertNotWaiting l) {} (w.activated l) = .ok (w.activated l,[]) := by
      simp [exec,assertNotWaiting,Bsc.activated]
    have hother : ∀ nr, nr ≠ l.nr → (w.activated l).lchan ⟨l.ts,nr⟩ = w.lchan ⟨l.ts,nr⟩ := by
      intro nr hne
      simp only [Bsc.activated,Bsc.send_lchan]
      exact Bsc.updLchan_ne w l _ fun he => hne (congrArg LchanId.nr he)
    refine .call he (.call (exec_tsReady hl) (.call hassert ?_))
    refine @finishes_noneWaiting cfg (w.activated l) w' rest l.ts (l.nr+1) _
      (Nat.add_sub_cancel' hnr).symm (fun nr hlt => ?_) (fun nr hle => ?_) h
    · by_cases he : nr = l.nr
      · subst he
        simp [Bsc.activated]
      · rw [hother nr he]
        exact hslots nr hlt
    · rw [hother nr (by omega)]
      exact hwait nr (by omega)
  | succ n ih =>
    have he : exec cfg (.tsLchansDispatch l.ts (some .waitTsReady) .tsReady i) {} w =
        .ok (w,[.tsLchansDispatch l.ts (some .waitTsReady) .tsReady (i+1)]) := by
      have hlt : i < pchanSubslots (w.ts l.ts).pchanOnInit := by omega
      obtain ⟨st,hst⟩ := Option.isSome_iff_exists.mp (hslots i hlt)
      have hne : st ≠ .waitTsReady := fun he => hwait i (by omega) (by rw [hst,he])
      simp [exec,tsLchansDispatch,hasLchanAt_eq hslots,hlt,Lchan.stateIs,hst,hne]
    exact .call he (ih (by omega))

/-- An lchan that does not keep its timeslot from being used as `type`. -/
def Lchan.Bystands (type : ChanT) (lchan : Lchan) : Prop :=
  lchan.fi = some .unused ∨ lchan.type = type ∨
    lchan.fi ≠ some .waitTsReady ∧ lchan.type ≠ .tchF ∧ lchan.type ≠ .tchH ∧ lchan.type ≠ .sdcch

/-- The timeslot is used as `type` once its loop over the lchans is done. -/
def Bsc.usedAs (w : Bsc) (t : TsId) (type : ChanT) : Bsc :=
  if (w.ts t).pchanOnInit = .tchFTchHPdch then
    w.updTs t ({ · with pchanIs := gsmPchanByLchanType type })
  else w

theorem finishes_inUse {n : Nat} {activating : ChanT} (htype : type = .tchF ∨ type = .tchH)
    (hcap : tsIsCapableOfLchant (w.ts t) type = true) (hn : pchanSubslots (w.ts t).pchanOnInit = i+n)
    (hslots : ∀ nr < pchanSubslots (w.ts t).pchanOnInit, (w.lchan ⟨t,nr⟩).fi.isSome)
    (hby : ∀ nr < pchanSubslots (w.ts t).pchanOnInit, (w.lchan ⟨t,nr⟩).Bystands type)
    (hact : activating = type ∨ activating = .none ∧ ∃ nr, i ≤ nr ∧ nr < pchanSubslots (w.ts t).pchanOnInit
      ∧ (w.lchan ⟨t,nr⟩).fi ≠ some .unused ∧ (w.lchan ⟨t,nr⟩).type = type)
    (h : Finishes (exec cfg) {} (w.usedAs t type)
      (.tsLchansDispatch t (some .waitTsReady) .tsReady 0 :: rest) w') :
    Finishes (exec cfg) {} w (.tsInUseOnenter t i activating :: rest) w' := by
  induction n generalizing i activating with
  | zero =>
    have hnot : ¬ i < pchanSubslots (w.ts t).pchanOnInit := by omega
    obtain rfl : activating = type := by
      rcases hact with h | ⟨-,nr,h1,h2,-⟩
      · exact h
      · omega
    have he : exec cfg (.tsInUseOnenter t i activating) {} w =
        .ok (w.usedAs t activating,[.tsLchansDispatch t (some .waitTsReady) .tsReady 0]) := by
      rcases htype with rfl | rfl <;>
        simp [exec,tsInUseOnenter,hasLchanAt_eq hslots,hnot,hcap,Bsc.usedAs]
    exact .call he h
  | succ n ih =>
    have hlt : i < pchanSubslots (w.ts t).pchanOnInit := by omega
    obtain ⟨st,hst⟩ := Option.isSome_iff_exists.mp (hslots i hlt)
    have hnext : ∃ activating', exec cfg (.tsInUseOnenter t i activating) {} w =
        .ok (w,[.tsInUseOnenter t (i+1) activating']) ∧ (activating' = type ∨ activating' = .none ∧
          ∃ nr, i+1 ≤ nr ∧ nr < pchanSubslots (w.ts t).pchanOnInit
            ∧ (w.lchan ⟨t,nr⟩).fi ≠ some .unused ∧ (w.lchan ⟨t,nr⟩).type = type) := by
      by_cases hun : st = .unused
      · refine ⟨activating,?_,?_⟩
        · simp [exec,tsInUseOnenter,hasLchanAt_eq hslots,hlt,Lchan.stateIs,hst,hun]
        · rcases hact with rfl | ⟨rfl,nr,h1,h2,h3,h4⟩
          · exact .inl rfl
          · have hne : nr ≠ i := fun he => h3 (by rw [he,hst,hun])
            exact .inr ⟨rfl,nr,by omega,h2,h3,h4⟩
      · rcases hby i hlt with hfi | hsame | ⟨hwait,hf,hh,hs⟩
        · rw [hst] at hfi
          cases hfi
          exact absurd rfl hun
        · refine ⟨type,?_,.inl rfl⟩
          rcases hact with rfl | ⟨rfl,-⟩ <;> rcases htype with rfl | rfl <;>
            simp [exec,tsInUseOnenter,hasLchanAt_eq hslots,hlt,Lchan.stateIs,hst,hun,hsame,hcap]
        · have hne : st ≠ .waitTsReady := fun he => hwait (by rw [hst,he])
          refine ⟨activating,?_,?_⟩
          · simp [exec,tsInUseOnenter,hasLchanAt_eq hslots,hlt,Lchan.stateIs,hst,hun,hne,hf,hh,hs]
          · rcases hact with rfl | ⟨rfl,nr,h1,h2,h3,h4⟩
            · exact .inl rfl
            · have hne : nr ≠ i := by
                rintro rfl
                rcases htype with rfl | rfl
                · exact hf h4
                · exact hh h4
              exact .inr ⟨rfl,nr,by omega,h2,h3,h4⟩
    obtain ⟨activating',he,hact'⟩ := hnext
    exact .call he (ih (by omega) hact')

end Loops

/-- The state of a timeslot that can be used as `type`. -/
inductive Dealing (w : Bsc) (t : TsId) (type : ChanT) : Prop where
  | inUse : (w.ts t).fi = .inUse → (w.ts t).pchanIs = gsmPchanByLchanType type → Dealing w t type
  | unused : (w.ts t).fi = .unused → (w.ts t).pchanIs = gsmPchanByLchanType type →
      (∀ nr, (w.lchan ⟨t,nr⟩).fi ≠ some .waitTsReady) →
      (∀ nr < pchanSubslots (w.ts t).pchanOnInit, (w.lchan ⟨t,nr⟩).Bystands type) → Dealing w t type
  | waitPdchAct : (w.ts t).fi = .waitPdchAct → (w.ts t).pchanOnInit.dynamic = true →
      tsUsableAsPchan w t (gsmPchanByLchanType type) = true → Dealing w t type
  | pdch : (w.ts t).fi.onPdch → (w.ts t).pchanIs = .pdch → (w.ts t).pchanOnInit.dynamic = true →
      tsUsableAsPchan w t (gsmPchanByLchanType type) = true → Dealing w t type

/-- The unused lchans of the timeslot can be activated as `type`. -/
structure Deals (w : Bsc) (t : TsId) (type : ChanT) : Prop where
  capable : tsIsCapableOfLchant (w.ts t) type = true
  slots : ∀ nr < pchanSubslots (w.ts t).pchanOnInit, (w.lchan ⟨t,nr⟩).fi.isSome
  free : ∀ nr < pchanSubslots (gsmPchanByLchanType type), (w.lchan ⟨t,nr⟩).fi = some .unused →
    (w.lchan ⟨t,nr⟩).Free
  dealing : Dealing w t type

/-- What is left when `l` is activated. -/
structure HandedOut (w w' : Bsc) (l : LchanId) (type : ChanT) : Prop where
  ts : ∀ t, t ≠ l.ts → w'.ts t = w.ts t
  lchan : ∀ l', l' ≠ l → w'.lchan l' = w.lchan l'
  onInit : (w'.ts l.ts).pchanOnInit = (w.ts l.ts).pchanOnInit
  taken : (w'.lchan l).fi = some .waitActivAck ∨ (w'.lchan l).fi = some .waitTsReady
  kind : (w'.lchan l).type = type
  dealing : Dealing w' l.ts type

theorem capable_subslots {ts : Ts} (htype : type = .tchF ∨ type = .tchH)
    (hcap : tsIsCapableOfLchant ts type = true) :
    pchanSubslots (gsmPchanByLchanType type) ≤ pchanSubslots ts.pchanOnInit := by
  rcases htype with rfl | rfl <;> cases h : ts.pchanOnInit <;> simp_all [tsIsCapableOfLchant,pchanSubslots,
    gsmPchanByLchanType]

theorem isLchanSane_ready (htype : type = .tchF ∨ type = .tchH) (hl : (w.lchan l).Asks type)
    (hp : (w.ts l.ts).pchanIs = gsmPchanByLchanType type) : isLchanSane w l.ts l = .readyToGo := by
  rcases htype with rfl | rfl <;>
    simp [isLchanSane,hl.fi,hl.type,hp,gsmPchanByLchanType,gsmLchanTypeByPchan]

/-- A timeslot that is still to become a PDCH can serve the lchan in its place. -/
theorem isLchanSane_dynamic (htype : type = .tchF ∨ type = .tchH) (hl : (w.lchan l).Asks type)
    (hcap : tsIsCapableOfLchant (w.ts l.ts) type = true) (hd : (w.ts l.ts).pchanOnInit.dynamic = true) :
    isLchanSane w l.ts l ≠ .insane := by
  by_cases hready : gsmLchanTypeByPchan (w.ts l.ts).pchanIs = some type
  · simp [isLchanSane,hl.fi,hl.type,hready]
  · rcases htype with rfl | rfl <;> cases h : (w.ts l.ts).pchanOnInit <;>
      simp_all [isLchanSane,hl.fi,hl.type,Pchan.dynamic,tsIsCapableOfLchant]

theorem isLchanSane_change (htype : type = .tchF ∨ type = .tchH) (hl : (w.lchan l).Asks type)
    (hcap : tsIsCapableOfLchant (w.ts l.ts) type = true) (hd : (w.ts l.ts).pchanOnInit.dynamic = true)
    (hp : (w.ts l.ts).pchanIs = .pdch) : isLchanSane w l.ts l = .needsPchanChange := by
  rcases htype with rfl | rfl <;> cases h : (w.ts l.ts).pchanOnInit <;>
    simp_all [isLchanSane,hl.fi,hl.type,gsmLchanTypeByPchan,Pchan.dynamic,tsIsCapableOfLchant]

theorem finishes_inUse_request (htype : type = .tchF ∨ type = .tchH) (hl : (w.lchan l).Asks type)
    (hfi : (w.ts l.ts).fi = .inUse)
    (hp : (w.ts l.ts).pchanIs = gsmPchanByLchanType type) :
    Finishes (exec cfg) {} w [.tsDispatch l.ts (.lchanRequested l),.lchanRtpFsmStart l] (w.activated l) := by
  have hv : tsFsm.verdict .inUse (.lchanRequested l) = .action := rfl
  have he : exec cfg (.tsDispatch l.ts (.lchanRequested l)) {} w = .ok (w,[.lchanDispatch l .tsReady]) := by
    simp [exec,tsDispatch,hfi,hv,tsFsmInUse,isLchanSane_ready htype hl hp]
  refine .call he (.call (exec_tsReady hl) (finishes_rtpStart ?_ (.done _)))
  simpa [Bsc.activated] using hl.requiresVoiceStream

/-- The timeslot is to become a PDCH, and the lchan waits until it is one. -/
theorem finishes_waitPdchAct_request (htype : type = .tchF ∨ type = .tchH) (hl : (w.lchan l).Asks type)
    (hfi : (w.ts l.ts).fi = .waitPdchAct) (hcap : tsIsCapableOfLchant (w.ts l.ts) type = true)
    (hd : (w.ts l.ts).pchanOnInit.dynamic = true) :
    Finishes (exec cfg) {} w [.tsDispatch l.ts (.lchanRequested l),.lchanRtpFsmStart l] w := by
  have hv : tsFsm.verdict .waitPdchAct (.lchanRequested l) = .action := rfl
  have hsane := isLchanSane_dynamic htype hl hcap hd
  have he : exec cfg (.tsDispatch l.ts (.lchanRequested l)) {} w = .ok (w,[]) := by
    cases h : isLchanSane w l.ts l with
    | insane => exact absurd h hsane
    | readyToGo | needsPchanChange => simp [exec,tsDispatch,hfi,hv,tsFsmWaitPdchAct,h]
  exact .call he (finishes_rtpStart hl.requiresVoiceStream (.done _))

theorem finishes_pdch_request (htype : type = .tchF ∨ type = .tchH) (hl : (w.lchan l).Asks type)
    (hfi : (w.ts l.ts).fi.onPdch)
    (hcap : tsIsCapableOfLchant (w.ts l.ts) type = true) (hd : (w.ts l.ts).pchanOnInit.dynamic = true)
    (hp : (w.ts l.ts).pchanIs = .pdch) :
    Finishes (exec cfg) {} w [.tsDispatch l.ts (.lchanRequested l),.lchanRtpFsmStart l]
      (w.updTs l.ts ({ · with fi := .waitPdchDeact })) := by
  have hsane := isLchanSane_change htype hl hcap hd hp
  have hrtp : Finishes (exec cfg) {} (w.updTs l.ts ({ · with fi := .waitPdchDeact })) [.lchanRtpFsmStart l]
      (w.updTs l.ts ({ · with fi := .waitPdchDeact })) := finishes_rtpStart hl.requiresVoiceStream (.done _)
  rcases hfi with hfi | hfi
  · have hv : tsFsm.verdict .pdch (.lchanRequested l) = .action := rfl
    have ho : tsFsm.outState .pdch .waitPdchDeact = true := rfl
    have h1 : exec cfg (.tsDispatch l.ts (.lchanRequested l)) {} w =
        .ok (w,[.tsStateChg l.ts .waitPdchDeact]) := by
      simp [exec,tsDispatch,hfi,hv,tsFsmPdch,hsane]
    have h2 : exec cfg (.tsStateChg l.ts .waitPdchDeact) {} w =
        .ok (w.updTs l.ts ({ · with fi := .waitPdchDeact }),[]) := by
      simp [exec,tsStateChg,hfi,ho,tsOnenter]
    exact .call h1 (.call h2 hrtp)
  · have hv : tsFsm.verdict .waitPdchDeact (.lchanRequested l) = .action := rfl
    have h1 : exec cfg (.tsDispatch l.ts (.lchanRequested l)) {} w = .ok (w,[]) := by
      simp [exec,tsDispatch,hfi,hv,tsFsmWaitPdchDeact,hsane]
    have hsame : w.updTs l.ts ({ · with fi := .waitPdchDeact }) = w := by
      have hts : ({ w.ts l.ts with fi := .waitPdchDeact } : Ts) = w.ts l.ts := by rw [← hfi]
      simp [Bsc.updTs,hts]
    rw [hsame] at hrtp ⊢
    exact .call h1 hrtp

theorem finishes_unused_request (htype : type = .tchF ∨ type = .tchH) (hl : (w.lchan l).Asks type)
    (hfi : (w.ts l.ts).fi = .unused) (hcap : tsIsCapableOfLchant (w.ts l.ts) type = true)
    (hp : (w.ts l.ts).pchanIs = gsmPchanByLchanType type)
    (hslots : ∀ nr < pchanSubslots (w.ts l.ts).pchanOnInit, (w.lchan ⟨l.ts,nr⟩).fi.isSome)
    (hnr : l.nr < pchanSubslots (w.ts l.ts).pchanOnInit)
    (hwait : ∀ nr, nr ≠ l.nr → (w.lchan ⟨l.ts,nr⟩).fi ≠ some .waitTsReady)
    (hby : ∀ nr < pchanSubslots (w.ts l.ts).pchanOnInit, (w.lchan ⟨l.ts,nr⟩).Bystands type) :
    Finishes (exec cfg) {} w [.tsDispatch l.ts (.lchanRequested l),.lchanRtpFsmStart l]
      ((w.updTs l.ts ({ · with fi := .inUse, pdchActAllowed := true })).activated l) := by
  let w1 : Bsc := w.updTs l.ts ({ · with fi := .inUse, pdchActAllowed := true })
  have hv : tsFsm.verdict .unused (.lchanRequested l) = .action := rfl
  have ho : tsFsm.outState .unused .inUse = true := rfl
  have h1 : exec cfg (.tsDispatch l.ts (.lchanRequested l)) {} w = .ok (w,[.tsStateChg l.ts .inUse]) := by
    simp [exec,tsDispatch,hfi,hv,tsFsmUnused,isLchanSane_ready htype hl hp]
  have h2 : exec cfg (.tsStateChg l.ts .inUse) {} w = .ok (w1,[.tsInUseOnenter l.ts 0 .none]) := by
    simp [exec,tsStateChg,hfi,ho,tsOnenter,Bsc.updTs,w1]
  have hused : w1.usedAs l.ts type = w1 := by
    have hts : ({ w1.ts l.ts with pchanIs := gsmPchanByLchanType type } : Ts) = w1.ts l.ts := by
      simp [w1,← hp]
    rw [Bsc.usedAs]
    split
    · simp [Bsc.updTs,hts]
    · rfl
  have hon : (w1.ts l.ts).pchanOnInit = (w.ts l.ts).pchanOnInit := by simp [w1]
  have hcap' : tsIsCapableOfLchant (w1.ts l.ts) type = true := by
    simpa [tsIsCapableOfLchant,hon] using hcap
  refine .call h1 (.call h2 ?_)
  refine finishes_inUse htype hcap' (Nat.zero_add _).symm (by rwa [hon]) (by rwa [hon])
    (.inr ⟨rfl,l.nr,Nat.zero_le _,by rwa [hon],?_,hl.type⟩) ?_
  · rw [show (⟨l.ts,l.nr⟩ : LchanId) = l from rfl]
    simp [w1,hl.fi]
  · rw [hused]
    refine finishes_oneWaiting hl (Nat.zero_add _).symm (by rwa [hon]) (by rwa [hon]) hwait ?_
    refine finishes_rtpStart ?_ (.done _)
    simpa [Bsc.activated,w1] using hl.requiresVoiceStream

section Waiting

variable {t : TsId}

theorem lchansFrom_congr {p : Pchan} {n i : Nat}
    (h : ∀ nr, (w'.lchan ⟨t,nr⟩).fi.isSome = (w.lchan ⟨t,nr⟩).fi.isSome) :
    w'.lchansFrom t p n i = w.lchansFrom t p n i := by
  induction n generalizing i with
  | zero => rfl
  | succ n ih => simp [Bsc.lchansFrom,Bsc.hasLchanAt,h,ih]

theorem find?_one_more {α : Type} {p p' : α → Bool} {xs : List α} {a : α} (ha : p a = false)
    (h : ∀ b ∈ xs, b ≠ a → p' b = p b) : xs.find? p' = some a ∨ xs.find? p' = xs.find? p := by
  induction xs with
  | nil => exact .inr rfl
  | cons b xs ih =>
    obtain ⟨hb,hxs⟩ := List.forall_mem_cons.mp h
    rw [List.find?_cons,List.find?_cons]
    by_cases he : b = a
    · subst he
      rw [ha]
      cases p' b with
      | true => exact .inl rfl
      | false => exact ih hxs
    · rw [hb he]
      cases p b with
      | true => exact .inr rfl
      | false => exact ih hxs

/-- A timeslot that is to become a PDCH, or is one, is used as the first lchan that waits asks. -/
theorem tsUsableAsPchan_switching {p : Pchan} (h : (w.ts t).fi = .waitPdchAct ∨ (w.ts t).fi.onPdch) :
    tsUsableAsPchan w t p =
      match (w.potentialLchans t).find? fun l => (w.lchan l).fi == some .waitTsReady with
      | some l => gsmPchanByLchanType (w.lchan l).type == p
      | none => tsIsCapableOfPchan (w.ts t) p := by
  rw [tsUsableAsPchan]
  cases (w.potentialLchans t).find? fun l => (w.lchan l).fi == some .waitTsReady with
  | none => rcases h with h | h | h <;> simp [tsIsUsable,h]
  | some l => rcases h with h | h | h <;> simp [tsIsUsable,h]

/-- The timeslot stays usable as `type` when one more lchan waits for it as such. -/
theorem usableAs_taken (hts : ((w.ts l.ts).fi = .waitPdchAct ∨ (w.ts l.ts).fi.onPdch))
    (hts' : (w'.ts l.ts).fi = .waitPdchAct ∨ (w'.ts l.ts).fi.onPdch)
    (hon : (w'.ts l.ts).pchanOnInit = (w.ts l.ts).pchanOnInit) (hun : (w.lchan l).fi = some .unused)
    (hfi : (w'.lchan l).fi.isSome) (hkind : (w'.lchan l).type = type)
    (hother : ∀ l', l' ≠ l → w'.lchan l' = w.lchan l')
    (h : tsUsableAsPchan w l.ts (gsmPchanByLchanType type) = true) :
    tsUsableAsPchan w' l.ts (gsmPchanByLchanType type) = true := by
  have hpot : w'.potentialLchans l.ts = w.potentialLchans l.ts := by
    rw [Bsc.potentialLchans,Bsc.potentialLchans,hon]
    refine lchansFrom_congr fun nr => ?_
    by_cases he : (⟨l.ts,nr⟩ : LchanId) = l
    · rw [he,hfi,hun]
      rfl
    · rw [hother _ he]
  rw [tsUsableAsPchan_switching hts] at h
  rw [tsUsableAsPchan_switching hts',hpot]
  have hfirst := @find?_one_more _ (fun l => (w.lchan l).fi == some .waitTsReady)
    (fun l => (w'.lchan l).fi == some .waitTsReady) (w.potentialLchans l.ts) l (by simp [hun])
    fun b _ hne => by rw [hother b hne]
  rcases hfirst with hf | hf
  · rw [hf]
    simp [hkind]
  · rw [hf]
    cases hw : (w.potentialLchans l.ts).find? fun l => (w.lchan l).fi == some .waitTsReady with
    | none =>
      rw [hw] at h
      simpa [tsIsCapableOfPchan,hon] using h
    | some l' =>
      have hne : l' ≠ l := by
        rintro rfl
        have := List.find?_some hw
        rw [hun] at this
        cases this
      rw [hw] at h
      simpa [hother l' hne] using h

end Waiting

theorem Lchan.bystands_of_asks {lchan : Lchan} (h : lchan.Asks type) : lchan.Bystands type := .inr (.inl h.type)

theorem Deals.handsOut (htype : type = .tchF ∨ type = .tchH) (h : Deals w l.ts type)
    (hun : (w.lchan l).fi = some .unused) (hnr : l.nr < pchanSubslots (gsmPchanByLchanType type)) :
    ∃ w', Finishes (exec cfg) {} w [.rslRxChanRqd l type] w' ∧ HandedOut w w' l type := by
  let w1 : Bsc := w.updLchan l (Lchan.asking type)
  have hl : (w1.lchan l).Asks type := by
    simpa [w1] using Lchan.asks_asking (w.lchan l)
  have hother : ∀ l', l' ≠ l → w1.lchan l' = w.lchan l' := fun l' hne => Bsc.updLchan_ne w l _ hne
  have hnrs : ∀ nr, nr ≠ l.nr → w1.lchan ⟨l.ts,nr⟩ = w.lchan ⟨l.ts,nr⟩ := fun nr hne =>
    hother _ fun he => hne (congrArg LchanId.nr he)
  have hfree := h.free l.nr hnr hun
  have hlt : l.nr < pchanSubslots (w.ts l.ts).pchanOnInit :=
    Nat.lt_of_lt_of_le hnr (capable_subslots htype h.capable)
  have hslots : ∀ nr < pchanSubslots (w1.ts l.ts).pchanOnInit, (w1.lchan ⟨l.ts,nr⟩).fi.isSome := by
    intro nr hlt
    by_cases he : nr = l.nr
    · subst he
      exact Option.isSome_iff_exists.mpr ⟨_,hl.fi⟩
    · rw [hnrs nr he]
      exact h.slots nr hlt
  rcases h.dealing with ⟨hfi,hp⟩ | ⟨hfi,hp,hwait,hby⟩ | ⟨hfi,hd,hus⟩ | ⟨hfi,hp,hd,hus⟩
  · refine ⟨_,finishes_asking hfree (finishes_inUse_request htype hl hfi hp),?_⟩
    refine ⟨fun t _ => rfl,fun l' hne => ?_,rfl,.inl ?_,?_,.inUse hfi hp⟩
    · simp only [Bsc.activated,Bsc.send_lchan,Bsc.updLchan_ne _ l _ hne]
    all_goals simp [Bsc.activated,Lchan.asking]
  · refine ⟨_,finishes_asking hfree (finishes_unused_request htype hl hfi h.capable hp hslots hlt ?_ ?_),?_⟩
    · intro nr hne
      rw [hnrs nr hne]
      exact hwait nr
    · intro nr hlt
      by_cases he : nr = l.nr
      · subst he
        exact Lchan.bystands_of_asks hl
      · rw [hnrs nr he]
        exact hby nr hlt
    · refine ⟨fun t hne => ?_,fun l' hne => ?_,?_,.inl ?_,?_,.inUse ?_ ?_⟩
      · simp [Bsc.activated,Bsc.updTs_ne,hne]
      · simp only [Bsc.activated,Bsc.send_lchan,Bsc.updLchan_ne _ l _ hne,Bsc.updTs_lchan]
      all_goals simp [Bsc.activated,hp,Lchan.asking]
  · refine ⟨_,finishes_asking hfree (finishes_waitPdchAct_request htype hl hfi h.capable hd),?_⟩
    refine ⟨fun _ _ => rfl,hother,rfl,.inr hl.fi,hl.type,.waitPdchAct hfi hd ?_⟩
    refine usableAs_taken (.inl hfi) (.inl hfi) rfl hun ?_ hl.type hother hus
    rw [hl.fi]
    rfl
  · refine ⟨_,finishes_asking hfree (finishes_pdch_request htype hl hfi h.capable hd hp),?_⟩
    have hdeact : ((w1.updTs l.ts ({ · with fi := .waitPdchDeact })).ts l.ts).fi.onPdch := by
      simp [TsState.onPdch]
    refine ⟨fun t hne => ?_,hother,?_,.inr hl.fi,hl.type,.pdch hdeact ?_ ?_ ?_⟩
    · simp [Bsc.updTs_ne,hne]
    · simp
    · simpa using hp
    · simpa using hd
    · refine usableAs_taken (.inr hfi) (.inr hdeact) ?_ hun ?_ hl.type hother hus
      · simp
      · rw [Bsc.updTs_lchan,hl.fi]
        rfl

end Activation

end OsmoBsc.Chan
