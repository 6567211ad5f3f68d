import OsmoBsc.Om2k.BringUp
import Mathlib.Data.List.Range
set_option autoImplicit false

namespace OsmoBsc.Om2k
open EventFsm

def trxMos (trx : Nat) : List Mo :=
  [Mo.trxc trx,.tx trx,.rx trx] ++ (List.range 8).map (.ts trx)

def btsMos (numTrx : Nat) : List Mo :=
  [Mo.cf,.tf,.con,.is] ++ (List.range numTrx).flatMap trxMos

def BringUp.Done (t : BringUp) (mo : Mo) : Prop := ∃ f ∈ t.ended, f.mo = mo ∧ f.st = .done

def BringUp.Runs (t : BringUp) (mo : Mo) : Prop := ∃ f, t.mo = some f ∧ f.mo = mo

/-- The parents of the FSM of the object wait for its end. -/
def BringUp.awaits (t : BringUp) : Mo → Bool
  | .cf => t.bts = .waitCf
  | .tf => t.bts = .waitTf
  | .con => t.bts = .waitCon
  | .is => t.bts = .waitIs
  | .trxc _ => t.bts = .waitTrx && t.trx.any (·.st = .waitTrxc)
  | .tx _ => t.bts = .waitTrx && t.trx.any (·.st = .waitTx)
  | .rx _ => t.bts = .waitTrx && t.trx.any (·.st = .waitRx)
  | .ts _ _ => t.bts = .waitTrx && t.trx.any (·.st = .waitTs)

/-- What the FSM of a TRX has done while it waits. -/
def BringUp.TrxProgress (t : BringUp) (f : TrxFsm) : Prop :=
  match f.st with
  | .waitTrxc => t.Runs (.trxc f.trx)
  | .waitTx => t.Done (.trxc f.trx) ∧ t.Runs (.tx f.trx)
  | .waitRx => (∀ mo ∈ [.trxc f.trx,.tx f.trx], t.Done mo) ∧ t.Runs (.rx f.trx)
  | .waitTs => (∀ mo ∈ [.trxc f.trx,.tx f.trx,.rx f.trx], t.Done mo) ∧
    ∃ j < 8, f.nextTsNr = j+1 ∧ (∀ i < j, t.Done (.ts f.trx i)) ∧ t.Runs (.ts f.trx j)
  | .error => True
  | .init | .done => False

/-- What the FSM of a BTS has done while it waits, and in the end. -/
def BringUp.Progress (numTrx : Nat) (t : BringUp) : Prop :=
  match t.bts with
  | .waitCf => t.Runs .cf
  | .waitTf => (∀ mo ∈ [Mo.cf], t.Done mo) ∧ t.Runs .tf
  | .waitCon => (∀ mo ∈ [Mo.cf,.tf], t.Done mo) ∧ t.Runs .con
  | .waitIs => (∀ mo ∈ [Mo.cf,.tf,.con], t.Done mo) ∧ t.Runs .is
  | .waitTrx => (∀ mo ∈ [Mo.cf,.tf,.con,.is], t.Done mo) ∧
    ∃ f, t.trx = some f ∧ f.trx < 256 ∧ t.nextTrxNr = UInt8.ofNat (f.trx+1) ∧
      (∀ trx < f.trx, ∀ mo ∈ trxMos trx, t.Done mo) ∧ t.TrxProgress f
  | .done => ∀ mo ∈ btsMos numTrx, t.Done mo
  | .init | .error => True

section Dispatch

variable {numTrx : Nat} {t : BringUp} {f : MoFsm} {mo : Mo}

@[simp] theorem moFsmStart_ended : (t.moFsmStart mo).ended = t.ended := rfl

@[simp] theorem moFsmStart_bts : (t.moFsmStart mo).bts = t.bts := rfl

@[simp] theorem moFsmStart_trx : (t.moFsmStart mo).trx = t.trx := rfl

@[simp] theorem moFsmStart_nextTrxNr : (t.moFsmStart mo).nextTrxNr = t.nextTrxNr := rfl

theorem moFsmStart_runs : (t.moFsmStart mo).Runs mo := ⟨_,rfl,rfl⟩

structure MoFsm.Live (f : MoFsm) : Prop where
  refused : f.refused = false
  done : f.st ≠ .done
  error : f.st ≠ .error

theorem moFsmStart_live (hf : (t.moFsmStart mo).mo = some f) : f.Live := by
  cases hf
  refine ⟨rfl,?_,?_⟩ <;> cases mo.cls <;> simp [moDispatch,moFsm,moAction]

structure BringUp.Starts (t t' : BringUp) : Prop where
  ended : t'.ended = t.ended
  mo : ∀ f, t'.mo = some f → t.mo = some f ∨ f.Live
  bts : t.bts = .init ∨ t.bts = .done ∨ t.bts = .error → t'.bts = t.bts

theorem BringUp.Starts.refl (t : BringUp) : t.Starts t := ⟨rfl,fun _ => .inl,fun _ => rfl⟩

theorem moFsmStart_starts {t' : BringUp} (he : t'.ended = t.ended)
    (hb : t.bts = .init ∨ t.bts = .done ∨ t.bts = .error → t'.bts = t.bts) : t.Starts (t'.moFsmStart mo) := by
  exact ⟨he,fun f hf => .inr (moFsmStart_live hf),hb⟩

theorem btsDispatch_starts (ev : BtsEvent) : t.Starts (t.btsDispatch numTrx ev) := by
  cases ev with
  | trxDone =>
    rw [BringUp.btsDispatch]
    split
    · rename_i hb
      split
      · exact moFsmStart_starts rfl fun _ => rfl
      · exact ⟨rfl,fun _ => .inl,fun h => by simp [hb] at h⟩
    · exact .refl t
  | _ =>
    rw [BringUp.btsDispatch]
    split
    · rename_i hb
      exact moFsmStart_starts rfl fun h => by simp [hb] at h
    · exact .refl t

theorem trxDispatch_starts (ev : TrxEvent) : t.Starts (t.trxDispatch numTrx ev) := by
  rw [BringUp.trxDispatch]
  split
  · exact .refl t
  · cases ev with
    | tsDone =>
      dsimp only
      split
      · split
        · exact moFsmStart_starts rfl fun _ => rfl
        · obtain ⟨h1,h2,h3⟩ := @btsDispatch_starts numTrx { t with trx := none } .trxDone
          exact ⟨h1,h2,h3⟩
      · exact .refl t
    | _ =>
      dsimp only
      split
      · exact moFsmStart_starts rfl fun _ => rfl
      · exact .refl t

theorem parentDispatch_starts : t.Starts (t.parentDispatch numTrx mo) := by
  cases mo with
  | cf | tf | con | is =>
    rw [BringUp.parentDispatch]
    exact btsDispatch_starts _
  | trxc _ | tx _ | rx _ | ts _ _ =>
    rw [BringUp.parentDispatch]
    exact trxDispatch_starts _

end Dispatch

section Progress

variable {numTrx : Nat} {t : BringUp} {f : MoFsm} {mo : Mo}

theorem Done.of_ended {t' : BringUp} (h : t.Done mo) (he : t'.ended = t.ended ++ [f]) : t'.Done mo := by
  obtain ⟨f',hf',h'⟩ := h
  exact ⟨f',by simp [he,hf'],h'⟩

theorem Done.last {t' : BringUp} (he : t'.ended = t.ended ++ [f]) (hd : f.st = .done) : t'.Done f.mo :=
  ⟨f,by simp [he],rfl,hd⟩

theorem moEnd_ended : (t.moEnd numTrx f).ended = t.ended ++ [f] := by
  rw [BringUp.moEnd,parentDispatch_starts.ended]

theorem moEnd_done (h : t.Done mo) : (t.moEnd numTrx f).Done mo := Done.of_ended h moEnd_ended

theorem moEnd_last (hd : f.st = .done) : (t.moEnd numTrx f).Done f.mo := Done.last (t := t) moEnd_ended hd

theorem moEnd_bts (numTrx : Nat) {l : List Mo} (hl : ∀ mo ∈ l, t.Done mo) (hd : f.st = .done) :
    ∀ mo ∈ l ++ [f.mo], (t.moEnd numTrx f).Done mo := by
  intro mo hmo
  rcases List.mem_append.mp hmo with hmo | hmo
  · exact moEnd_done (hl mo hmo)
  · rw [List.mem_singleton.mp hmo]
    exact moEnd_last hd

theorem mem_trxMos {trx : Nat} : mo ∈ trxMos trx ↔
    mo ∈ [Mo.trxc trx,.tx trx,.rx trx] ∨ ∃ i < 8, mo = .ts trx i := by
  simp [trxMos,eq_comm,or_assoc]

theorem done_trxMos {trx j : Nat} (h3 : ∀ mo ∈ [Mo.trxc trx,.tx trx,.rx trx], t.Done mo)
    (hts : ∀ i < j, t.Done (.ts trx i)) (hj : 8 ≤ j) : ∀ mo ∈ trxMos trx, t.Done mo := by
  intro mo hmo
  rcases mem_trxMos.mp hmo with hmo | ⟨i,hi,rfl⟩
  · exact h3 mo hmo
  · exact hts i (by omega)

theorem lt_succ_cases {P : Nat → Prop} {n : Nat} (h : ∀ i < n, P i) (hn : P n) : ∀ i < n+1, P i := by
  intro i hi
  rcases Nat.lt_succ_iff_lt_or_eq.mp hi with hi | rfl
  · exact h i hi
  · exact hn

/-- While the FSM of a BTS waits for that of a TRX. -/
structure BringUp.WaitsFor (t : BringUp) (x : TrxFsm) : Prop where
  bts : t.bts = .waitTrx
  trx : t.trx = some x
  done : ∀ mo ∈ [Mo.cf,.tf,.con,.is], t.Done mo
  lt : x.trx < 256
  next : t.nextTrxNr = UInt8.ofNat (x.trx+1)
  before : ∀ trx < x.trx, ∀ mo ∈ trxMos trx, t.Done mo

theorem BringUp.WaitsFor.progress {x : TrxFsm} (h : t.WaitsFor x) (hx : t.TrxProgress x) :
    t.Progress numTrx := by
  rw [BringUp.Progress,h.bts]
  exact ⟨h.done,x,h.trx,h.lt,h.next,h.before,hx⟩

theorem BringUp.WaitsFor.moEnd {x : TrxFsm} (h : t.WaitsFor x) (numTrx : Nat) (f : MoFsm) (x' : TrxFsm) (mo : Mo)
    (hx : x'.trx = x.trx) (he : t.moEnd numTrx f =
      ({ t with trx := some x', mo := none, ended := t.ended ++ [f] } : BringUp).moFsmStart mo) :
    (t.moEnd numTrx f).WaitsFor x' ∧ (t.moEnd numTrx f).Runs mo := by
  refine ⟨⟨?_,?_,fun mo hmo => moEnd_done (h.done mo hmo),hx ▸ h.lt,?_,?_⟩,?_⟩
  · rw [he]
    exact h.bts
  · rw [he]
    rfl
  · rw [he,hx]
    exact h.next
  · rw [hx]
    exact fun trx hlt mo hmo => moEnd_done (h.before trx hlt mo hmo)
  · rw [he]
    exact moFsmStart_runs

/-- The FSM of the TRX is done: the FSM of the BTS starts the next one, or is done as well. -/
theorem BringUp.WaitsFor.trxDone {x : TrxFsm} {t' : BringUp} (h : t.WaitsFor x)
    (hdone : ∀ mo, t.Done mo → t'.Done mo) (hx : ∀ mo ∈ trxMos x.trx, t'.Done mo)
    (he : t' = ({ t with trx := none, mo := none, ended := t.ended ++ [f] } : BringUp).btsDispatch numTrx .trxDone) :
    t'.Progress numTrx := by
  have hall : ∀ trx < x.trx+1, ∀ mo ∈ trxMos trx, t'.Done mo :=
    lt_succ_cases (fun trx hlt mo hmo => hdone mo (h.before trx hlt mo hmo)) hx
  have hnext : t.nextTrxNr.toNat = (x.trx+1) % 256 := by simp [h.next]
  by_cases hlt : t.nextTrxNr.toNat < numTrx
  · have he' : t' = ({ t with nextTrxNr := t.nextTrxNr+1, trx := none, mo := none, ended := t.ended ++ [f] } :
        BringUp).trxFsmStart t.nextTrxNr.toNat := by
      simp [he,BringUp.btsDispatch,h.bts,hlt]
    have hw : t'.WaitsFor ⟨t.nextTrxNr.toNat,.waitTrxc,0⟩ := by
      refine ⟨?_,?_,fun mo hmo => hdone mo (h.done mo hmo),t.nextTrxNr.toNat_lt,?_,fun trx htrx => ?_⟩
      · rw [he']
        exact h.bts
      · rw [he']
        rfl
      · rw [he']
        simp [BringUp.trxFsmStart]
      · have hlt' : trx < t.nextTrxNr.toNat := htrx
        exact hall trx (by have := h.lt; omega)
    refine hw.progress ?_
    rw [he']
    exact moFsmStart_runs
  · have he' : t'.bts = .done := by
      simp [he,BringUp.btsDispatch,h.bts,hlt]
    rw [BringUp.Progress,he']
    intro mo hmo
    rcases List.mem_append.mp hmo with hmo | hmo
    · exact hdone mo (h.done mo hmo)
    · obtain ⟨trx,htrx,hmo⟩ := List.mem_flatMap.mp hmo
      have hn := List.mem_range.mp htrx
      exact hall trx (by have := h.lt; omega) mo hmo

theorem BringUp.WaitsFor.moEnd_progress {x : TrxFsm} (h : t.WaitsFor x) (hx : t.TrxProgress x)
    (hruns : ∀ mo, t.Runs mo → f.mo = mo) (hok : t.awaits f.mo → f.st = .done) :
    (t.moEnd numTrx f).Progress numTrx := by
  cases hst : x.st with
  | init | done =>
    rw [BringUp.TrxProgress,hst] at hx
    exact hx.elim
  | error =>
    have he : t.moEnd numTrx f = { t with mo := none, ended := t.ended ++ [f] } := by
      cases hf : f.mo <;> simp [BringUp.moEnd,hf,BringUp.parentDispatch,BringUp.btsDispatch,h.bts,
        BringUp.trxDispatch,h.trx,hst]
    have hw : (t.moEnd numTrx f).WaitsFor x := by
      refine ⟨he ▸ h.bts,he ▸ h.trx,fun mo hmo => moEnd_done (h.done mo hmo),h.lt,he ▸ h.next,?_⟩
      exact fun trx hlt mo hmo => moEnd_done (h.before trx hlt mo hmo)
    refine hw.progress ?_
    rw [BringUp.TrxProgress,hst]
    trivial
  | waitTrxc =>
    rw [BringUp.TrxProgress,hst] at hx
    have hf := hruns _ hx
    have hd := hok (by simp [hf,BringUp.awaits,h.bts,h.trx,hst])
    obtain ⟨hw,hr⟩ := h.moEnd numTrx f { x with st := .waitTx } (.tx x.trx) rfl
      (by simp [BringUp.moEnd,hf,BringUp.parentDispatch,BringUp.trxDispatch,h.trx,hst])
    exact hw.progress ⟨hf ▸ moEnd_last hd,hr⟩
  | waitTx =>
    rw [BringUp.TrxProgress,hst] at hx
    have hf := hruns _ hx.2
    have hd := hok (by simp [hf,BringUp.awaits,h.bts,h.trx,hst])
    obtain ⟨hw,hr⟩ := h.moEnd numTrx f { x with st := .waitRx } (.rx x.trx) rfl
      (by simp [BringUp.moEnd,hf,BringUp.parentDispatch,BringUp.trxDispatch,h.trx,hst])
    have hlast := moEnd_bts numTrx (l := [.trxc x.trx]) (by simpa using hx.1) hd
    rw [hf] at hlast
    exact hw.progress ⟨hlast,hr⟩
  | waitRx =>
    rw [BringUp.TrxProgress,hst] at hx
    have hf := hruns _ hx.2
    have hd := hok (by simp [hf,BringUp.awaits,h.bts,h.trx,hst])
    obtain ⟨hw,hr⟩ := h.moEnd numTrx f { x with st := .waitTs, nextTsNr := 1 } (.ts x.trx 0) rfl
      (by simp [BringUp.moEnd,hf,BringUp.parentDispatch,BringUp.trxDispatch,h.trx,hst])
    have hlast := moEnd_bts numTrx hx.1 hd
    rw [hf] at hlast
    exact hw.progress ⟨hlast,0,by omega,rfl,by omega,hr⟩
  | waitTs =>
    rw [BringUp.TrxProgress,hst] at hx
    obtain ⟨h3,j,hj,hnext,hts,hrun⟩ := hx
    have hf := hruns _ hrun
    have hd := hok (by simp [hf,BringUp.awaits,h.bts,h.trx,hst])
    have h3' : ∀ mo ∈ [Mo.trxc x.trx,.tx x.trx,.rx x.trx], (t.moEnd numTrx f).Done mo :=
      fun mo hmo => moEnd_done (h3 mo hmo)
    have hts' : ∀ i < j+1, (t.moEnd numTrx f).Done (.ts x.trx i) :=
      lt_succ_cases (fun i hi => moEnd_done (hts i hi)) (hf ▸ moEnd_last hd)
    by_cases h8 : x.nextTsNr < 8
    · obtain ⟨hw,hr⟩ := h.moEnd numTrx f { x with nextTsNr := x.nextTsNr+1 } (.ts x.trx x.nextTsNr) rfl
        (by simp [BringUp.moEnd,hf,BringUp.parentDispatch,BringUp.trxDispatch,h.trx,hst,h8])
      refine hw.progress ?_
      rw [BringUp.TrxProgress,hst]
      exact ⟨h3',j+1,by omega,by simp [hnext],hts',by rwa [hnext] at hr⟩
    · refine h.trxDone (fun mo => moEnd_done) (done_trxMos h3' hts' (by omega)) (f := f) ?_
      simp [BringUp.moEnd,hf,BringUp.parentDispatch,BringUp.trxDispatch,h.trx,hst,h8]

/-- The FSM of a BTS waits on, if the object that ended was not refused. -/
theorem moEnd_progress {f0 : MoFsm} (h : t.Progress numTrx) (h0 : t.mo = some f0) (hmo : f.mo = f0.mo)
    (hok : t.awaits f.mo → f.st = .done) : (t.moEnd numTrx f).Progress numTrx := by
  have hruns : ∀ {mo}, t.Runs mo → f.mo = mo := by
    rintro mo ⟨f1,h1,rfl⟩
    rw [h0] at h1
    cases h1
    exact hmo
  have hstarts : (({ t with mo := none, ended := t.ended ++ [f] } : BringUp)).Starts (t.moEnd numTrx f) :=
    parentDispatch_starts
  cases hb : t.bts with
  | init => 
    rw [BringUp.Progress,hstarts.bts (.inl hb)]
    simp [hb]
  | error => 
    rw [BringUp.Progress,hstarts.bts (.inr (.inr hb))]
    simp [hb]
  | done =>
    rw [BringUp.Progress,hb] at h
    rw [BringUp.Progress,hstarts.bts (.inr (.inl hb))]
    simp only [hb]
    exact fun mo hmo => moEnd_done (h mo hmo)
  | waitCf =>
    rw [BringUp.Progress,hb] at h
    have hf := hruns h
    have hd := hok (by simp [hf,BringUp.awaits,hb])
    have hlast := moEnd_bts numTrx (t := t) (l := []) (by simp) hd
    have he : t.moEnd numTrx f =
        ({ t with bts := .waitTf, mo := none, ended := t.ended ++ [f] } : BringUp).moFsmStart .tf := by
      simp [BringUp.moEnd,hf,BringUp.parentDispatch,BringUp.btsDispatch,hb]
    rw [hf,he] at hlast
    rw [BringUp.Progress,he]
    exact ⟨by simpa using hlast,moFsmStart_runs⟩
  | waitTf =>
    rw [BringUp.Progress,hb] at h
    have hf := hruns h.2
    have hd := hok (by simp [hf,BringUp.awaits,hb])
    have hlast := moEnd_bts numTrx h.1 hd
    have he : t.moEnd numTrx f =
        ({ t with bts := .waitCon, mo := none, ended := t.ended ++ [f] } : BringUp).moFsmStart .con := by
      simp [BringUp.moEnd,hf,BringUp.parentDispatch,BringUp.btsDispatch,hb]
    rw [hf,he] at hlast
    rw [BringUp.Progress,he]
    exact ⟨by simpa using hlast,moFsmStart_runs⟩
  | waitCon =>
    rw [BringUp.Progress,hb] at h
    have hf := hruns h.2
    have hd := hok (by simp [hf,BringUp.awaits,hb])
    have hlast := moEnd_bts numTrx h.1 hd
    have he : t.moEnd numTrx f =
        ({ t with bts := .waitIs, mo := none, ended := t.ended ++ [f] } : BringUp).moFsmStart .is := by
      simp [BringUp.moEnd,hf,BringUp.parentDispatch,BringUp.btsDispatch,hb]
    rw [hf,he] at hlast
    rw [BringUp.Progress,he]
    exact ⟨by simpa using hlast,moFsmStart_runs⟩
  | waitIs =>
    rw [BringUp.Progress,hb] at h
    have hf := hruns h.2
    have hd := hok (by simp [hf,BringUp.awaits,hb])
    have hlast := moEnd_bts numTrx h.1 hd
    have he : t.moEnd numTrx f =
        ({ t with bts := .waitTrx, nextTrxNr := 1, mo := none, ended := t.ended ++ [f] } : BringUp).trxFsmStart 0 := by
      simp [BringUp.moEnd,hf,BringUp.parentDispatch,BringUp.btsDispatch,hb]
    rw [hf,he] at hlast
    rw [BringUp.Progress,he]
    exact ⟨by simpa using hlast,_,rfl,Nat.zero_lt_succ _,rfl,by simp,moFsmStart_runs⟩
  | waitTrx =>
    rw [BringUp.Progress,hb] at h
    obtain ⟨h4,x,hx,hlt,hnext,hbefore,hp⟩ := h
    exact BringUp.WaitsFor.moEnd_progress ⟨hb,hx,h4,hlt,hnext,hbefore⟩ hp (fun _ => hruns) hok

end Progress

section Runs

/-- The states in which the FSM of an object heeds that it is refused. -/
def heeds : MoSt → Bool
  | .waitStartAccept | .waitCfgRes | .waitEnableAccept => true
  | _ => false

/-- No FSM of an object whose parents wait for it is refused or times out, and no refusal
comes that an FSM does not heed. -/
def NoFailure (bsc : Bsc) : Input → Prop
  | .recv mo msg => ∀ k, bsc.fsm mo = some k → ∀ f, (bsc.bringUp k).mo = some f → refuses msg f.st = true →
    heeds f.st = true ∧ (bsc.bringUp k).awaits f.mo = false
  | .moTimer k => ∀ f, (bsc.bringUp k).mo = some f → (bsc.bringUp k).awaits f.mo = false
  | _ => True

instance (bsc : Bsc) (i : Input) : Decidable (NoFailure bsc i) := by
  cases i <;> unfold NoFailure <;> infer_instance

theorem moDispatch_cases (cls : Cls) (st : MoSt) (ev : MoEvent) (msg : Msg) :
    moDispatch cls st ev msg = st ∨
      moFsm.inEvent st ev = true ∧ moAction cls msg st = some (moDispatch cls st ev msg) := by
  rw [moDispatch]
  split
  · rename_i hev
    cases ha : moAction cls msg st with
    | none => exact .inl rfl
    | some st' =>
      dsimp only
      split
      · exact .inr ⟨hev,rfl⟩
      · exact .inl rfl
  · exact .inl rfl

theorem refuses_of_error {cls : Cls} {st : MoSt} {msg : Msg} (h : moFsmRecvmsg cls st msg = .error)
    (hst : st ≠ .error) : refuses msg st = true := by
  rw [moFsmRecvmsg] at h
  cases hev : msg.msgType.event with
  | none => simp [hev,hst] at h
  | some ev =>
    simp only [hev] at h
    rcases moDispatch_cases cls st ev msg with h' | ⟨hin,ha⟩
    · exact absurd (h'.symm.trans h) hst
    · rw [h] at ha
      cases st with
      | waitStartAccept =>
        rw [moAction] at ha
        split at ha
        · cases ha
        · split at ha
          · rename_i hm
            simp [refuses,hm]
          · cases ha
      | waitCfgRes =>
        have hm : ∃ c, msg.msgType = .confRes c := by
          cases hm : msg.msgType <;> simp [hm,MsgType.event] at hev <;> subst hev <;> simp [moFsm] at hin
          exact ⟨_,rfl⟩
        obtain ⟨c,hm⟩ := hm
        simp [moAction] at ha
        simp [refuses,hm,ha]
      | waitEnableAccept =>
        rw [moAction] at ha
        split at ha
        · rename_i hm
          simp [refuses,hm]
        · split at ha
          · cases ha
          · cases ha
      | init | waitStartRes =>
        simp only [moAction,Option.some.injEq] at ha
        split at ha
        · cases ha
        · split at ha <;> cases ha
      | _ => cases ha

theorem error_of_refuses {cls : Cls} {st : MoSt} {msg : Msg} (h : refuses msg st = true)
    (hh : heeds st = true) : moFsmRecvmsg cls st msg = .error := by
  cases st <;> simp [heeds] at hh
  · simp [refuses] at h
    simp [moFsmRecvmsg,h,MsgType.event,moDispatch,moFsm,moAction]
  · rw [refuses] at h
    split at h
    · rename_i hm
      simp only [bne_iff_ne] at h
      simp [moFsmRecvmsg,hm,MsgType.event,moDispatch,moFsm,moAction,h]
    · cases h
  · simp [refuses] at h
    simp [moFsmRecvmsg,h,MsgType.event,moDispatch,moFsm,moAction]

structure BringUp.Inv (numTrx : Nat) (t : BringUp) : Prop where
  progress : t.Progress numTrx
  live : ∀ f, t.mo = some f → f.Live
  ended : ∀ f ∈ t.ended, f.st = .done → f.refused = false

variable {numTrx : Nat} {t : BringUp} {f f' : MoFsm}

theorem BringUp.TrxProgress.mono {t' : BringUp} {x : TrxFsm} (h : t.TrxProgress x)
    (hd : ∀ mo, t.Done mo → t'.Done mo) (hr : ∀ mo, t.Runs mo → t'.Runs mo) : t'.TrxProgress x := by
  rw [BringUp.TrxProgress] at h ⊢
  cases hst : x.st with
  | init | done => simp [hst] at h
  | error => trivial
  | waitTrxc => exact hr _ (by simpa [hst] using h)
  | waitTx =>
    rw [hst] at h
    exact ⟨hd _ h.1,hr _ h.2⟩
  | waitRx =>
    rw [hst] at h
    exact ⟨fun mo hmo => hd mo (h.1 mo hmo),hr _ h.2⟩
  | waitTs =>
    rw [hst] at h
    obtain ⟨h3,j,hj,hn,hts,hrun⟩ := h
    exact ⟨fun mo hmo => hd mo (h3 mo hmo),j,hj,hn,fun i hi => hd _ (hts i hi),hr _ hrun⟩

theorem BringUp.Progress.mono {t' : BringUp} (h : t.Progress numTrx) (hb : t'.bts = t.bts)
    (hx : t'.trx = t.trx) (hn : t'.nextTrxNr = t.nextTrxNr) (hd : ∀ mo, t.Done mo → t'.Done mo)
    (hr : ∀ mo, t.Runs mo → t'.Runs mo) : t'.Progress numTrx := by
  rw [BringUp.Progress] at h ⊢
  rw [hb]
  cases hst : t.bts with
  | init | error => trivial
  | done =>
    rw [hst] at h
    exact fun mo hmo => hd mo (h mo hmo)
  | waitCf =>
    rw [hst] at h
    exact hr _ h
  | waitTf | waitCon | waitIs =>
    rw [hst] at h
    exact ⟨fun mo hmo => hd mo (h.1 mo hmo),hr _ h.2⟩
  | waitTrx =>
    rw [hst] at h
    obtain ⟨h4,x,htrx,hlt,hnext,hbefore,hp⟩ := h
    exact ⟨fun mo hmo => hd mo (h4 mo hmo),x,hx.trans htrx,hlt,hn.trans hnext,
      fun trx ht mo hmo => hd mo (hbefore trx ht mo hmo),hp.mono hd hr⟩

theorem BringUp.Inv.moEnd (h : t.Inv numTrx) (hf : t.mo = some f) (hmo : f'.mo = f.mo)
    (hok : t.awaits f'.mo → f'.st = .done) (hr : f'.st = .done → f'.refused = false) :
    (t.moEnd numTrx f').Inv numTrx := by
  refine ⟨moEnd_progress h.progress hf hmo hok,fun f1 h1 => ?_,fun f1 h1 => ?_⟩
  · rcases parentDispatch_starts.mo f1 h1 with h1 | h1
    · cases h1
    · exact h1
  · rw [moEnd_ended] at h1
    rcases List.mem_append.mp h1 with h1 | h1
    · exact h.ended f1 h1
    · rw [List.mem_singleton.mp h1]
      exact hr

theorem BringUp.Inv.moSt (h : t.Inv numTrx) (hf : t.mo = some f) (hmo : f'.mo = f.mo) (hl : f'.Live) :
    ({ t with mo := some f' } : BringUp).Inv numTrx := by
  have hruns : ∀ mo, t.Runs mo → ({ t with mo := some f' } : BringUp).Runs mo := by
    rintro mo ⟨f1,h1,rfl⟩
    rw [hf] at h1
    cases h1
    exact ⟨f',rfl,hmo⟩
  refine ⟨?_,fun f1 h1 => ?_,h.ended⟩
  · exact h.progress.mono rfl rfl rfl (fun _ h => h) hruns
  · cases h1
    exact hl

def Bsc.Inv (numTrx : Nat) (bsc : Bsc) : Prop :=
  bsc.numTrx = numTrx ∧ ∀ k, (bsc.bringUp k).Inv numTrx

theorem Bsc.Inv.update {bsc bsc' : Bsc} {k : Nat} (h : bsc.Inv numTrx) (hn : bsc'.numTrx = bsc.numTrx)
    (hb : bsc'.bringUp = Function.update bsc.bringUp k t) (ht : t.Inv numTrx) : bsc'.Inv numTrx := by
  refine ⟨hn.trans h.1,fun j => ?_⟩
  rw [hb]
  by_cases hj : j = k
  · subst hj
    simpa using ht
  · simpa [hj] using h.2 j

/-- An FSM of an object goes on to the state that it is found in. -/
theorem moStateChg_inv {bsc : Bsc} {k : Nat} (h : bsc.Inv numTrx) (hf : (bsc.bringUp k).mo = some f)
    (hmo : f'.mo = f.mo) (hok : f'.st = .error → (bsc.bringUp k).awaits f'.mo = false)
    (hr : f'.st ≠ .error → f'.refused = false) : (bsc.moStateChg k f').Inv numTrx := by
  rw [Bsc.moStateChg]
  split
  · rename_i hst
    refine h.update rfl rfl ?_
    rw [h.1]
    refine (h.2 k).moEnd hf hmo (fun ha => ?_) fun hd => hr (by simp [hd])
    rcases hst with hd | he
    · exact hd
    · simp [hok he] at ha
  · rename_i hst
    rw [not_or] at hst
    exact h.update rfl rfl ((h.2 k).moSt hf hmo ⟨hr hst.2,hst.1,hst.2⟩)

theorem step_inv {bsc bsc' : Bsc} {i : Input} (h : bsc.Inv numTrx) (hg : NoFailure bsc i)
    (hs : step bsc i = .ok bsc') : bsc'.Inv numTrx := by
  cases i with
  | teiUp omlTei =>
    rw [step] at hs
    split at hs
    · cases hs
      refine h.update rfl rfl ⟨moFsmStart_runs,fun f hf => moFsmStart_live hf,fun f hf => ?_⟩
      cases hf
    · cases hs
      exact h
  | teiDn | closeOm =>
    cases hs
    exact h
  | recv mo msg =>
    rw [step] at hs
    split at hs
    · cases hs
      exact h
    · rename_i k hk
      split at hs
      · rename_i f hf
        split at hs
        · rename_i hmo
          cases hs
          have hlive := (h.2 k).live f hf
          refine moStateChg_inv h hf rfl (fun he => ?_) fun he => ?_
          · exact (hg k hk f hf (refuses_of_error he hlive.error)).2
          · by_cases hr : refuses msg f.st = true
            · exact absurd (error_of_refuses hr (hg k hk f hf hr).1) he
            · simpa [hlive.refused] using hr
        · cases hs
      · cases hs
  | moTimer k =>
    rw [step] at hs
    split at hs
    · rename_i f hf
      cases hs
      exact moStateChg_inv h hf rfl (fun _ => hg f hf) fun he => absurd rfl he
    · cases hs
      exact h
  | trxTimer k =>
    rw [step] at hs
    split at hs
    · rename_i x hx
      cases hs
      refine h.update rfl rfl ⟨?_,(h.2 k).live,(h.2 k).ended⟩
      have hp := (h.2 k).progress
      rw [BringUp.Progress] at hp ⊢
      dsimp only
      split at hp
      · exact hp
      · exact hp
      · exact hp
      · exact hp
      · obtain ⟨h4,x',hx',hlt,hnext,hbefore,-⟩ := hp
        rw [hx] at hx'
        cases hx'
        exact ⟨h4,_,rfl,hlt,hnext,hbefore,trivial⟩
      · exact hp
      · trivial
      · trivial
    · cases hs
      exact h
  | btsTimer k =>
    rw [step] at hs
    dsimp only at hs
    split at hs
    · cases hs
      exact h
    · cases hs
      exact h.update rfl rfl ⟨trivial,(h.2 k).live,(h.2 k).ended⟩

/-- The FSM of a BTS is done only after those of all objects are, and these only if nothing that
they requested was refused. -/
theorem btsDone_sound {bsc : Bsc} (h : Reachable numTrx NoFailure bsc) (k : Nat) :
    ((bsc.bringUp k).bts = .done → ∀ mo ∈ btsMos numTrx, (bsc.bringUp k).Done mo) ∧
    ∀ f ∈ (bsc.bringUp k).ended, f.st = .done → f.refused = false := by
  have hinv : bsc.Inv numTrx := by
    refine Reach.invariant (fun bsc h0 => ?_) (fun bsc i bsc' hi hg hs => step_inv hi hg hs) h
    subst h0
    exact ⟨rfl,fun k => ⟨trivial,by simp,by simp⟩⟩
  refine ⟨fun hb => ?_,(hinv.2 k).ended⟩
  have hp := (hinv.2 k).progress
  rw [BringUp.Progress,hb] at hp
  exact hp

end Runs

section Examples

/-- What the FSM of an object is answered up to its start. -/
def startAnswers : Mo → List MsgType
  | .cf => []
  | .trxc 0 => [.resetCompl]
  | _ => [.connectCompl,.resetCompl]

def answers (mo : Mo) : List Input :=
  let conf := if mo = .cf ∨ mo = .trxc 0 then [] else
    [MsgType.confReqAck .tf,.confRes .tf,.enableReqAck,.enableRes]
  (startAnswers mo ++ [MsgType.startReqAck,.startRes] ++ conf ++ [MsgType.opInfoAck]).map fun m =>
    .recv mo ⟨m,some moStateEnabled,some 0⟩

def startRejected (mo : Mo) : List Input :=
  (startAnswers mo ++ [MsgType.startReqRej]).map fun m => .recv mo ⟨m,none,none⟩

theorem btsDone_sound_one : ∃ bsc : Bsc, (bsc.bringUp 0).bts = .done ∧
    ((bsc.bringUp 0).bts = .done → ∀ mo ∈ btsMos 1, (bsc.bringUp 0).Done mo) ∧
    ∀ f ∈ (bsc.bringUp 0).ended, f.st = .done → f.refused = false := by
  obtain ⟨bsc,hrun,hdone⟩ : ∃ bsc, run step { numTrx := 1 } (.teiUp true :: (btsMos 1).flatMap answers) = .ok bsc ∧
      (bsc.bringUp 0).bts = .done := by
    decide +kernel
  have hg : GoodRun step NoFailure { numTrx := 1 } (.teiUp true :: (btsMos 1).flatMap answers) := by
    decide +kernel
  exact ⟨bsc,hdone,btsDone_sound (Reach.of_run (.start rfl) hg hrun) 0⟩

/-- No object of the BTS is started, and its FSM is done nevertheless. -/
theorem btsDone_rejected : ∃ bsc : Bsc, Reachable 1 (fun _ _ => True) bsc ∧ (bsc.bringUp 0).bts = .done ∧
    ∀ mo ∈ btsMos 1, ¬(bsc.bringUp 0).Done mo := by
  obtain ⟨bsc,hrun,hdone,herr⟩ : ∃ bsc, run step { numTrx := 1 }
      (.teiUp true :: (btsMos 1).flatMap startRejected) = .ok bsc ∧
      (bsc.bringUp 0).bts = .done ∧ ∀ f ∈ (bsc.bringUp 0).ended, f.st = .error := by
    decide +kernel
  refine ⟨bsc,Reach.of_run (.start rfl) (.of_forall (fun _ _ => trivial) _ _) hrun,hdone,fun mo _ h => ?_⟩
  obtain ⟨f,hf,-,hd⟩ := h
  simp [herr f hf] at hd

end Examples

end OsmoBsc.Om2k
