import OsmoBsc.Lib.Finish
import OsmoBsc.Chan.Procedures
import OsmoBsc.Chan.Quiet
set_option autoImplicit false

namespace OsmoBsc.Chan
open EventFsm Calls

structure CellGlobalId where
  mcc : UInt16
  mnc : UInt16
  lac : UInt16
  ci : UInt16
  deriving DecidableEq, Repr

/-- What a BSSMAP Handover Performed contains of an lchan besides its type and its mode:
the cell of its BTS, its encryption algorithm and its AMR modes. -/
structure LchanDetails where
  cell : CellGlobalId
  encrAlgId : UInt8
  s15S0 : UInt16
  deriving DecidableEq, Repr

/-- The conversions of libosmogsm for a channel type and mode, and for a speech version. -/
structure Gsm0808 where
  chosenChannel : ChanT → ChanMode → UInt8
  permittedSpeech : ChanT → ChanMode → UInt8
  speechCodecFromChanType : UInt8 → UInt8

structure Gsm0808HandoverPerformed where
  cellId : CellGlobalId
  chosenChannel : UInt8
  chosenEncrAlg : UInt8
  speechVersionChosen : Option UInt8
  speechCodecChosen : Option (UInt8 × UInt16)
  deriving DecidableEq, Repr

section Message

variable (lib : Gsm0808) (details : LchanId → LchanDetails)

/-- The information elements for lchan `l`, with the speech ones if there is `voice`. -/
def performedIes (w : Bsc) (voice aoip : Bool) (l : LchanId) : Gsm0808HandoverPerformed :=
  let version := lib.permittedSpeech (w.lchan l).type (w.lchan l).tchMode
  { cellId := (details l).cell
    chosenChannel := lib.chosenChannel (w.lchan l).type (w.lchan l).tchMode
    chosenEncrAlg := (details l).encrAlgId
    speechVersionChosen := if voice then some version else none
    speechCodecChosen :=
      if voice && aoip then some (lib.speechCodecFromChanType version,(details l).s15S0) else none }

/-- The message that `send_handover_performed` composes: the lchan is the one that the
connection has, the voice stream that of the new one. -/
def handoverPerformed (w : Bsc) (k : Conn) : Option Gsm0808HandoverPerformed :=
  match k.lchan, k.hoNewLchan with
  | some l, some new => some (performedIes lib details w (w.lchan new).info.requiresVoiceStream k.aoip l)
  | _, _ => none

def primaryIes (w : Bsc) (c : ConnId) : Option Gsm0808HandoverPerformed :=
  (w.conn c).bind fun k => k.lchan.map fun l =>
    performedIes lib details w (w.lchan l).info.requiresVoiceStream k.aoip l

/-- Two lchans that a BSSMAP Handover Performed does not tell apart. -/
structure Alike (w : Bsc) (voice aoip : Bool) (l l' : LchanId) : Prop where
  cell : (details l).cell = (details l').cell
  chosenChannel : lib.chosenChannel (w.lchan l).type (w.lchan l).tchMode =
    lib.chosenChannel (w.lchan l').type (w.lchan l').tchMode
  encrAlg : (details l).encrAlgId = (details l').encrAlgId
  speechVersion : voice = true → lib.permittedSpeech (w.lchan l).type (w.lchan l).tchMode =
    lib.permittedSpeech (w.lchan l').type (w.lchan l').tchMode
  codecConfig : voice = true → aoip = true → (details l).s15S0 = (details l').s15S0

variable {lib details}

theorem performedIes_eq_iff {w : Bsc} {voice aoip : Bool} {l l' : LchanId} :
    performedIes lib details w voice aoip l = performedIes lib details w voice aoip l' ↔
      Alike lib details w voice aoip l l' := by
  constructor
  · intro h
    simp only [performedIes,Gsm0808HandoverPerformed.mk.injEq] at h
    obtain ⟨h1,h2,h3,h4,h5⟩ := h
    refine ⟨h1,h2,h3,?_,?_⟩
    · rintro rfl
      simpa using h4
    · rintro rfl rfl
      simp at h5
      exact h5.2
  · rintro ⟨h1,h2,h3,h4,h5⟩
    simp only [performedIes,Gsm0808HandoverPerformed.mk.injEq]
    refine ⟨h1,h2,h3,?_,?_⟩
    · cases voice with
      | false => rfl
      | true => simp [h4 rfl]
    · cases voice with
      | false => rfl
      | true =>
        cases aoip with
        | false => rfl
        | true => simp [h4 rfl,h5 rfl rfl]

end Message

/-- What matters of the connection: its primary lchan and the new one. -/
def Conn.held (k : Conn) : Option LchanId × Bool × Option LchanId := (k.lchan,k.aoip,k.hoNewLchan)

def Lchan.channel (lchan : Lchan) : ChanT × ChanMode × Bool :=
  (lchan.type,lchan.tchMode,lchan.info.requiresVoiceStream)

/-- Connection `c` has the lchans that it had, and `l` is the channel that it was. -/
structure Holds (c : ConnId) (l : LchanId) (w w' : Bsc) : Prop where
  conn : (w'.conn c).map Conn.held = (w.conn c).map Conn.held
  lchan : (w'.lchan l).channel = (w.lchan l).channel

section Holds

variable {c c' : ConnId} {l l' : LchanId} {w w1 w2 : Bsc}

theorem Holds.refl (w : Bsc) : Holds c l w w := ⟨rfl,rfl⟩

theorem Holds.trans (h : Holds c l w w1) (h' : Holds c l w1 w2) : Holds c l w w2 :=
  ⟨h'.conn.trans h.conn,h'.lchan.trans h.lchan⟩

theorem holds_send (m : Tx) : Holds c l w (w.send m) := ⟨rfl,rfl⟩

theorem holds_updLchan {f : Lchan → Lchan} (hf : ∀ lchan : Lchan, (f lchan).channel = lchan.channel) :
    Holds c l w (w.updLchan l' f) := by
  refine ⟨rfl,?_⟩
  by_cases he : l = l'
  · subst he
    rw [Bsc.updLchan_self]
    exact hf _
  · rw [Bsc.updLchan_ne w l' f he]

theorem holds_updLchan_ne {f : Lchan → Lchan} (hne : l ≠ l') : Holds c l w (w.updLchan l' f) := by
  refine ⟨rfl,?_⟩
  rw [Bsc.updLchan_ne w l' f hne]

theorem holds_updConn {f : Conn → Conn} (hf : ∀ k : Conn, (f k).held = k.held) :
    Holds c l w (w.updConn c' f) := by
  refine ⟨?_,rfl⟩
  by_cases he : c = c'
  · subst he
    simp only [Bsc.updConn,Function.update_self,Option.map_map]
    exact congrFun (congrArg Option.map (funext hf)) _
  · simp only [Bsc.updConn,Function.update_of_ne he]

theorem holds_forgetMgwEndpoint : Holds c l w (gsconForgetMgwEndpoint c' w) := by
  have hone : ∀ {w : Bsc} (o : Option LchanId), Holds c l w (unlessNull lchanForgetMgwEndpoint o w) := by
    intro w o
    cases o with
    | none => exact .refl w
    | some l' =>
      show Holds c l w (w.updLchan l' ({ · with mgwEndpointCiBts := none }))
      exact holds_updLchan fun _ => rfl
  unfold gsconForgetMgwEndpoint
  cases w.conn c' with
  | none => exact .refl w
  | some k =>
    refine Holds.trans (Holds.trans (Holds.trans (holds_updConn ?_) (hone _)) (hone _)) (hone _)
    intro k
    rfl

theorem holds_dlcx (x : Foreign) (ci : Ci) : Holds c l w (osmoMgcpcEpCiDlcx x ci w) := by
  unfold osmoMgcpcEpCiDlcx
  split
  · exact (holds_send _).trans holds_forgetMgwEndpoint
  · exact holds_send _

theorem holds_stateChg (k : Conn) (st : ConnState) : Holds c l w (connStateChg c' k st w) := by
  have hfi : Holds c l w (w.updConn c' ({ · with fi := st })) := by
    refine holds_updConn ?_
    intro k
    rfl
  unfold connStateChg
  split
  · split
    · exact hfi.trans (holds_send _)
    · exact hfi
  · exact .refl w

theorem holds_sigtranSend (k : Conn) (m : Tx) : Holds c l w (gsconSigtranSend k m w) := by
  rw [gsconSigtranSend]
  split
  · exact .refl w
  · exact holds_send m

theorem holds_sendRslDtap (x : Foreign) (k : Conn) : Holds c l w (gsm0808SendRslDtap x c' k w) := by
  rw [gsm0808SendRslDtap]
  split
  · exact (holds_sigtranSend _ _).trans (holds_stateChg _ _)
  · exact .refl w

end Holds

section Chain

variable {cfg : TsId → TsCfg} {Q : Bsc → Prop} {c : ConnId} {l old : LchanId} {w w0 w1 : Bsc} {new : List Call}

def Then (cfg : TsId → TsCfg) (Q : Bsc → Prop) (r : Outcome) : Prop :=
  Ensures (fun r => Settles (exec cfg) Q r.1 r.2) r

theorem then_error {e : Fault} : Then cfg Q (.error e) := ensures_error

theorem then_ok (h : Settles (exec cfg) Q w1 new) : Then cfg Q (.ok (w1,new)) := ensures_ok.mpr h

theorem then_done (h : Q w1) : Then cfg Q (.ok (w1,[])) := then_ok (.done h)

theorem settles_call {call : Call} (h : ∀ x, Then cfg Q (exec cfg call x w)) :
    Settles (exec cfg) Q w [call] := .one fun x w1 new he => h x (w1,new) he

theorem then_of_settles {call : Call} (h : Settles (exec cfg) Q w [call]) (x : Foreign) :
    Then cfg Q (exec cfg call x w) := by
  rintro ⟨w1,new⟩ he
  cases h with
  | call h => simpa using h x w1 new he

theorem settles_rtpEstablished (h : Holds c l w0 w) :
    Settles (exec cfg) (Holds c l w0) w [.rtpDispatch l .established] := by
  have hchg : Settles (exec cfg) (Holds c l w0) w [.rtpStateChg l .established] := by
    refine settles_call fun x => ?_
    simp only [exec,rtpStateChg]
    split
    · exact then_error
    · split
      · refine then_done (h.trans (Holds.trans (holds_updLchan ?_) (holds_updLchan ?_)))
        all_goals
          intro lchan
          rfl
      · exact then_done h
  refine settles_call fun x => ?_
  simp only [exec,rtpDispatch]
  cases (w.lchan l).fiRtp with
  | none => exact then_done h
  | some st =>
    cases st with
    | ready => exact then_ok hchg
    | _ => exact then_done h

theorem settles_waitBeforeRfRelease (hne : l ≠ old) (h : Holds c l w0 w) :
    Settles (exec cfg) (Holds c l w0) w [.lchanStateChg old .waitBeforeRfRelease] := by
  refine settles_call fun x => ?_
  simp only [exec,lchanStateChg]
  split
  · exact then_error
  · split
    · exact then_done (h.trans (holds_updLchan_ne hne))
    · exact then_done h

theorem settles_rtpReleased (hne : l ≠ old) (h : Holds c l w0 w)
    (hfi : (w.lchan old).fi = some .waitRllRtpReleased) :
    Settles (exec cfg) (Holds c l w0) w [.lchanDispatch old .rtpReleased] := by
  have hv : lchanFsm.verdict .waitRllRtpReleased .rtpReleased = .action := rfl
  have hrest : Settles (exec cfg) (Holds c l w0) w [.lchanReleasedRelRest old] := by
    refine settles_call fun x => ?_
    simp only [exec,lchanReleasedRelRest]
    split
    · exact then_of_settles (settles_waitBeforeRfRelease hne h) x
    · exact then_done h
  refine settles_call fun x => ?_
  simp only [exec,lchanDispatch,hfi,hv]
  exact then_ok hrest

theorem settles_rtpRelease (hne : l ≠ old) (h : Holds c l w0 w)
    (hfi : (w.lchan old).fi = some .waitRllRtpReleased) :
    Settles (exec cfg) (Holds c l w0) w [.rtpDispatch old .release] := by
  have hterm : Settles (exec cfg) (Holds c l w0) w [.rtpTerm old] := by
    refine settles_call fun x => ?_
    simp only [exec]
    unfold rtpTerm
    split
    · exact then_error
    · extract_lets w1
      have hw1 : Holds c l w0 w1 ∧ (w1.lchan old).fi = some .waitRllRtpReleased := by
        dsimp only [w1]
        split
        · exact ⟨h,hfi⟩
        · rename_i ci _
          refine ⟨h.trans ((holds_dlcx x ci).trans (holds_updLchan_ne hne)),?_⟩
          rw [Bsc.updLchan_self]
          exact ((osmoMgcpcEpCiDlcx_clear x w ci).fi.lchan old).trans hfi
      refine then_ok (settles_rtpReleased hne (hw1.1.trans (holds_updLchan_ne hne)) ?_)
      rw [Bsc.updLchan_self]
      exact hw1.2
  refine settles_call fun x => ?_
  simp only [exec,rtpDispatch]
  cases (w.lchan old).fiRtp with
  | none => exact then_done h
  | some st =>
    cases st with
    | rollback => exact then_done h
    | _ => exact then_ok hterm

theorem settles_waitReleasedRest (hne : l ≠ old) (h : Holds c l w0 w) :
    Settles (exec cfg) (Holds c l w0) w [.lchanWaitReleasedRest old] := by
  refine settles_call fun x => ?_
  simp only [exec]
  unfold lchanWaitReleasedRest
  extract_lets quick w1
  have hw1 : Holds c l w0 w1 := by
    dsimp only [w1]
    split
    · exact h.trans (holds_updLchan_ne hne)
    · exact h
  split
  · exact then_ok (settles_waitBeforeRfRelease hne hw1)
  · exact then_done hw1

theorem lchanDoRelease_cases (l' : LchanId) : Holds c l w (lchanDoRelease l' w).1
    ∧ (lchanDoRelease l' w).1.lchan = w.lchan
    ∧ ((lchanDoRelease l' w).2 = [] ∨ (lchanDoRelease l' w).2 = [.rtpDispatch l' .release]) := by
  unfold lchanDoRelease
  refine ⟨?_,?_,?_⟩
  · simp only
    split
    · exact holds_send _
    · exact .refl w
  · simp only
    split <;> rfl
  · simp only
    split
    · exact .inr rfl
    · exact .inl rfl

theorem settles_waitReleased (hne : l ≠ old) (h : Holds c l w0 w) :
    Settles (exec cfg) (Holds c l w0) w [.lchanStateChg old .waitRllRtpReleased] := by
  refine settles_call fun x => ?_
  simp only [exec,lchanStateChg]
  split
  · exact then_error
  · split
    · let w1 : Bsc := w.updLchan old ({ · with fi := some .waitRllRtpReleased })
      obtain ⟨hw,hl,hcalls⟩ := @lchanDoRelease_cases c l w1 old
      have hh : Holds c l w0 (lchanDoRelease old w1).1 := (h.trans (holds_updLchan_ne hne)).trans hw
      have hfi : ((lchanDoRelease old w1).1.lchan old).fi = some .waitRllRtpReleased := by
        rw [hl]
        simp [w1]
      refine then_ok (Settles.append (Settles.mono ?_ fun w' => settles_waitReleasedRest hne))
      rcases hcalls with hcalls | hcalls
      · rw [hcalls]
        exact .done hh
      · rw [hcalls]
        exact settles_rtpRelease hne hh hfi
    · exact then_done h

theorem settles_lchanRelease (hne : l ≠ old) (h : Holds c l w0 w) :
    Settles (exec cfg) (Holds c l w0) w [.lchanRelease old false false] := by
  have hexit : ∀ {w : Bsc}, Holds c l w0 w →
      Settles (exec cfg) (Holds c l w0) w [.lchanExitReleaseHandler old] := fun hw =>
    settles_call fun x => then_done (hw.trans (holds_updLchan_ne hne))
  have hrest : ∀ {w : Bsc}, Holds c l w0 w → (w.lchan old).inError = false →
      Settles (exec cfg) (Holds c l w0) w [.lchanReleaseRest old] := by
    intro w hw herr
    refine settles_call fun x => ?_
    simp only [exec]
    rw [lchanReleaseRest,if_neg (by simp [herr])]
    split
    · exact then_ok (Settles.cons ((settles_waitReleased hne hw).mono fun w' => hexit))
    · exact then_ok (hexit hw)
  refine settles_call fun x => ?_
  simp only [exec,lchanRelease]
  split
  · exact then_done h
  · split
    · exact then_done h
    · refine then_ok ?_
      simpa using hrest (h.trans (holds_updLchan_ne hne)) (by simp)

theorem held_releaseLchan {k : Conn} (h1 : k.lchan ≠ some old) (h2 : k.hoNewLchan ≠ some old) :
    (k.releaseLchan old).held = k.held := by
  simp [Conn.releaseLchan,Conn.held,h1,h2]

theorem holds_updConn_at {k : Conn} {f : Conn → Conn} (hk : w.conn c = some k) (hf : (f k).held = k.held) :
    Holds c l w (w.updConn c f) := by
  refine ⟨?_,rfl⟩
  simp only [Bsc.updConn,Function.update_self,hk,Option.map_some]
  exact congrArg some hf

theorem settles_releaseLchan {k : Conn} (hne : l ≠ old) (h : Holds c l w0 w) (hk : w.conn c = some k)
    (h1 : k.lchan ≠ some old) (h2 : k.hoNewLchan ≠ some old) :
    Settles (exec cfg) (Holds c l w0) w [.gsconReleaseLchan c old false false] := by
  refine settles_call fun x => ?_
  simp only [exec,gsconReleaseLchan,Bsc.getConn,hk]
  have hforget : Holds c l w (lchanForgetConn old w) := holds_updLchan_ne hne
  refine then_ok (settles_lchanRelease hne (h.trans ?_))
  split
  · exact hforget.trans (holds_updConn_at hk (held_releaseLchan h1 h2))
  · exact holds_updConn_at hk (held_releaseLchan h1 h2)

theorem queueLen_sendRslDtap (x : Foreign) (k : Conn) :
    ((gsm0808SendRslDtap x c k w).conn c).map Conn.dtapQueueLen =
      (w.conn c).map Conn.dtapQueueLen := by
  have hconn : ∀ m, (gsconSigtranSend k m w).conn = w.conn := by
    intro m
    rw [gsconSigtranSend]
    split <;> rfl
  rw [gsm0808SendRslDtap]
  split
  · rw [connStateChg]
    split
    · simp only
      split <;> simp [gsconBssmapClear,Bsc.send,Bsc.updConn,hconn,Option.map_map,Function.comp_def]
    · rw [hconn]
  · rfl

theorem settles_flush (h : Holds c l w0 w) :
    Settles (exec cfg) (Holds c l w0) w [.gsconDtapQueueFlush c] := by
  have hnone : ∀ {w : Bsc}, w.conn c = none →
      Settles (exec cfg) (Holds c l w0) w [.gsconDtapQueueFlush c] := by
    intro w hc
    refine settles_call fun x => ?_
    simp only [exec,gsconDtapQueueFlush,Bsc.getConn,hc]
    exact then_error
  cases hc : w.conn c with
  | none => exact hnone hc
  | some k =>
    induction hn : k.dtapQueueLen generalizing k w with
    | zero =>
      refine settles_call fun x => ?_
      simp only [exec,gsconDtapQueueFlush,Bsc.getConn,hc]
      show Then _ _ (if _ then _ else _)
      rw [if_pos hn]
      exact then_done h
    | succ n ih =>
      refine settles_call fun x => ?_
      simp only [exec,gsconDtapQueueFlush,Bsc.getConn,hc]
      show Then _ _ (if _ then _ else _)
      rw [if_neg (by omega)]
      let w1 : Bsc := w.updConn c ({ · with dtapQueueLen := k.dtapQueueLen - 1 })
      have h1 : Holds c l w0 (gsm0808SendRslDtap x c k w1) := by
        refine h.trans (Holds.trans (holds_updConn ?_) (holds_sendRslDtap x k))
        intro k
        rfl
      have hlen : ∀ k', (gsm0808SendRslDtap x c k w1).conn c = some k' → k'.dtapQueueLen = n := by
        intro k' hk'
        have hw1 : w1.conn c = some { k with dtapQueueLen := k.dtapQueueLen - 1 } := by
          simp only [w1,Bsc.updConn,Function.update_self,hc,Option.map_some]
        have heq := queueLen_sendRslDtap x k |>.symm.trans (congrArg (Option.map Conn.dtapQueueLen) hk')
        rw [hw1] at heq
        have hval : k.dtapQueueLen - 1 = k'.dtapQueueLen := Option.some.inj heq
        omega
      cases hc' : (gsm0808SendRslDtap x c k w1).conn c with
      | none => exact then_ok (hnone hc')
      | some k' => exact then_ok (ih h1 k' hc' (hlen k' hc'))

theorem settles_handoverEndEvent (result : HoResult) (h : Holds c l w0 w) :
    Settles (exec cfg) (Holds c l w0) w [.connDispatch c (.handoverEnd (some result))] := by
  have hchg : ∀ (k : Conn) (st : ConnState) {w : Bsc}, Holds c l w0 w →
      Holds c l w0 (connStateChg c k st w) := fun k st w hw => hw.trans (holds_stateChg k st)
  refine settles_call fun x => ?_
  simp only [exec,connDispatch]
  refine Ensures.bind fun k _ => ?_
  cases hfi : k.fi with
  | init =>
    show Then cfg _ (if _ then _ else _)
    split
    · exact then_ok (settles_flush (hchg k _ h))
    · exact then_done (hchg k _ (h.trans (holds_send _)))
  | handover => exact then_ok (settles_flush (hchg k _ h))
  | _ => exact then_done h

/-- The connection has lchan `l` and as new lchan `new`, and the lchan is channel `ch`. -/
structure OnLchan (c : ConnId) (l : LchanId) (aoip : Bool) (ch : ChanT × ChanMode × Bool)
    (new : Option LchanId) (w : Bsc) : Prop where
  conn : (w.conn c).map Conn.held = some (some l,aoip,new)
  lchan : (w.lchan l).channel = ch

variable {aoip : Bool} {ch : ChanT × ChanMode × Bool} {o : Option LchanId}

theorem OnLchan.of_holds (h : OnLchan c l aoip ch o w) (hw : Holds c l w w1) :
    OnLchan c l aoip ch o w1 :=
  ⟨hw.conn.trans h.conn,hw.lchan.trans h.lchan⟩

theorem OnLchan.get (h : OnLchan c l aoip ch o w) :
    ∃ k, w.conn c = some k ∧ k.lchan = some l ∧ k.aoip = aoip ∧ k.hoNewLchan = o := by
  have hc := h.conn
  cases hk : w.conn c with
  | none =>
    rw [hk] at hc
    cases hc
  | some k =>
    rw [hk,Option.map_some,Option.some.injEq] at hc
    simp only [Conn.held,Prod.mk.injEq] at hc
    exact ⟨k,rfl,hc⟩

theorem holds_handoverReset (x : Foreign) (k : Conn) (h : OnLchan c l aoip ch none w) :
    OnLchan c l aoip ch none (handoverReset x c k w) := by
  have hclear : ∀ {w : Bsc}, OnLchan c l aoip ch none w →
      OnLchan c l aoip ch none (w.updConn c Conn.clearHo) := by
    intro w hw
    obtain ⟨k,hk,hl,ha,_⟩ := hw.get
    refine ⟨?_,hw.lchan⟩
    simp [Bsc.updConn,hk,Conn.held,Conn.clearHo,hl,ha]
  unfold handoverReset
  extract_lets w1
  have hw1 : OnLchan c l aoip ch none w1 := by
    dsimp only [w1]
    split
    · exact h
    · refine h.of_holds (Holds.trans ?_ (holds_dlcx x _))
      unfold gsconForgetMgwEndpointCi
      refine holds_updConn ?_
      intro k
      rfl
  exact hclear hw1

theorem settles_handoverEndRest (h : OnLchan c l aoip ch none w) :
    Settles (exec cfg) (OnLchan c l aoip ch none) w [.handoverEndRest c] := by
  obtain ⟨k,hk,hl,ha,ho⟩ := h.get
  refine settles_call fun x => ?_
  simp only [exec,handoverEndRest,Bsc.getConn,hk]
  show Then _ _ (if _ then _ else _)
  split
  · exact then_error
  · have h1 : OnLchan c l aoip ch none (w.updConn c ({ · with hoNewLchan := none })) := by
      refine h.of_holds (holds_updConn_at hk ?_)
      simp [Conn.held,ho]
    refine then_done ((holds_handoverReset x k h1).of_holds (holds_updConn ?_))
    intro k
    rfl

theorem settles_handoverEndRelease (h : OnLchan c l aoip ch none w) :
    Settles (exec cfg) (OnLchan c l aoip ch none) w [.handoverEndRelease c] := by
  obtain ⟨k,hk,_,_,ho⟩ := h.get
  refine settles_call fun x => ?_
  simp only [exec,handoverEndRelease,Bsc.getConn,hk,ok_bind,ho]
  exact then_ok (settles_handoverEndRest h)

theorem settles_handoverEndNotify (h : OnLchan c l aoip ch o w) :
    Settles (exec cfg) (OnLchan c l aoip ch none) w [.handoverEndNotify c .ok] := by
  obtain ⟨k,hk,hl,ha,_⟩ := h.get
  let w1 : Bsc := w.updConn c ({ · with hoNewLchan := none })
  have h1 : OnLchan c l aoip ch none w1 := by
    refine ⟨?_,h.lchan⟩
    simp [w1,Bsc.updConn,hk,Conn.held,hl,ha]
  refine settles_call fun x => ?_
  simp only [exec,handoverEndNotify,Bsc.getConn,hk]
  refine then_ok (Settles.cons ?_)
  exact (settles_handoverEndEvent .ok (.refl w1)).mono fun w' hw' =>
    settles_handoverEndRelease (h1.of_holds hw')

theorem settles_oldLchan {p : Option LchanId} (h : OnLchan c l aoip ch (some l) w) :
    Settles (exec cfg) (OnLchan c l aoip ch (some l)) w (match p with
      | none => []
      | some old => if old ≠ l then [.gsconReleaseLchan c old false false] else []) := by
  cases p with
  | none => exact .done h
  | some old =>
    show Settles _ _ _ (if _ then _ else _)
    split
    · rename_i hne
      obtain ⟨k,hk,hl,_,ho⟩ := h.get
      refine (settles_releaseLchan (Ne.symm hne) (.refl w) hk ?_ ?_).mono fun w' => h.of_holds
      · rw [hl]
        exact fun he => hne (Option.some.inj he).symm
      · rw [ho]
        exact fun he => hne (Option.some.inj he).symm
    · exact .done h

theorem settles_changePrimary {k : Conn} (hk : w.conn c = some k) (ho : k.hoNewLchan = some l) :
    Settles (exec cfg) (OnLchan c l k.aoip (w.lchan l).channel (some l)) w
      [.gsconChangePrimaryLchan c (some l)] := by
  refine settles_call fun x => ?_
  simp only [exec,gsconChangePrimaryLchan,Bsc.getConn,hk]
  let w1 : Bsc := (w.updConn c ({ · with lchan := some l })).updLchan l ({ · with conn := some c })
  have h1 : OnLchan c l k.aoip (w.lchan l).channel (some l) w1 := by
    refine ⟨?_,?_⟩
    · simp [w1,Bsc.updConn,Bsc.updLchan,hk,Conn.held,ho]
    · show ((w1.lchan l)).channel = _
      simp only [w1,Bsc.updLchan_self]
      rfl
  refine then_ok (Settles.append (Settles.mono (P := OnLchan c l k.aoip (w.lchan l).channel (some l)) ?_
    fun w' hw' => settles_oldLchan hw'))
  split
  · exact (settles_rtpEstablished (.refl w1)).mono fun w' hw' => h1.of_holds hw'
  · exact .done h1

theorem settles_handoverEndChange {k : Conn} (hk : w.conn c = some k) (ho : k.hoNewLchan = some l) :
    Settles (exec cfg) (OnLchan c l k.aoip (w.lchan l).channel none) w [.handoverEndChange c .ok] := by
  let w1 : Bsc := w.updConn c ({ · with hoCreatedCiForMsc := none })
  let k1 : Conn := { k with hoCreatedCiForMsc := none }
  have hchange : ∀ {w2 : Bsc}, w2.conn = w1.conn → w2.lchan = w.lchan →
      Settles (exec cfg) (OnLchan c l k.aoip (w.lchan l).channel none) w2
        [.gsconChangePrimaryLchan c (some l),.handoverEndNotify c .ok] := by
    intro w2 hc hl
    have hk2 : w2.conn c = some k1 := by
      rw [hc]
      simp [w1,k1,Bsc.updConn,hk]
    have hset := @settles_changePrimary cfg _ _ _ _ hk2 ho
    rw [hl] at hset
    exact Settles.cons (hset.mono fun w' => settles_handoverEndNotify)
  refine settles_call fun x => ?_
  simp only [exec,handoverEndChange]
  refine Ensures.bind fun k' hget => ?_
  obtain rfl : k = k' := Option.some.inj (hk.symm.trans (getConn_eq hget))
  rw [if_pos trivial,ho]
  split
  · refine Ensures.bind fun w2 hw2 => ?_
    have hsame : w2.conn = w1.conn ∧ w2.lchan = w.lchan := by
      rw [sendHandoverPerformed,ho] at hw2
      split at hw2
      · cases hw2
      · rename_i heq
        cases heq
      · cases hw2
        split <;> exact ⟨rfl,rfl⟩
    exact then_ok (hchange hsame.1 hsame.2)
  · exact then_ok (hchange rfl rfl)

end Chain

section Reported

variable {lib : Gsm0808} {details : LchanId → LchanDetails} {cfg : TsId → TsCfg}

theorem primaryIes_of_onLchan {c : ConnId} {l : LchanId} {aoip : Bool} {o : Option LchanId} {w w' : Bsc}
    (h : OnLchan c l aoip (w.lchan l).channel o w') : primaryIes lib details w' c =
      some (performedIes lib details w (w.lchan l).info.requiresVoiceStream aoip l) := by
  obtain ⟨k,hk,hl,ha,_⟩ := h.get
  have hch := h.lchan
  simp only [Lchan.channel,Prod.mk.injEq] at hch
  obtain ⟨h1,h2,h3⟩ := hch
  simp [primaryIes,hk,hl,ha,performedIes,h1,h2,h3]

/-- The Handover Performed for a handover within this BSC is composed of the lchan that the
connection had before. It reports the lchan that is the primary one when `handover_end`
returns if and only if the old and the new lchan look alike in it. -/
theorem handoverPerformed_primary {w : Bsc} {c : ConnId} {k : Conn} {old new : LchanId}
    (hk : w.conn c = some k) (hold : k.lchan = some old) (hnew : k.hoNewLchan = some new) :
    Settles (exec cfg) (fun w' => (w'.conn c).bind Conn.lchan = some new ∧
      (handoverPerformed lib details w k = primaryIes lib details w' c ↔
        Alike lib details w (w.lchan new).info.requiresVoiceStream k.aoip old new))
      w [.handoverEndChange c .ok] := by
  have hmsg : handoverPerformed lib details w k =
      some (performedIes lib details w (w.lchan new).info.requiresVoiceStream k.aoip old) := by
    rw [handoverPerformed,hold,hnew]
  refine (settles_handoverEndChange hk hnew).mono fun w' hw' => ⟨?_,?_⟩
  · obtain ⟨k',hk',hl,_⟩ := hw'.get
    simp [hk',hl]
  · rw [hmsg,primaryIes_of_onLchan hw',Option.some.injEq]
    exact performedIes_eq_iff

end Reported

section HandoverRuns

def sdcchs (_ : TsId) : TsCfg where
  pchanFromConfig := .sdcch8Sacch8c
  gprs := false
  isIpaccessBts := false
  noLocRelCnf := false

/-- Connection 0 goes from the SDCCH on the first timeslot to one on the second. -/
def sdcchHandover : List Input :=
  [.omlReady 0,.rslReady 0,.omlReady 1,.rslReady 1,
    .chanRqd fun type => if type = .sdcch then some ⟨0,0⟩ else none,
    .chanActivAck ⟨0,0⟩,.estInd ⟨0,0⟩ 0 (some .other) 0 true,.sccpConnCfm 0,
    .handoverRequest 0 .none (.here false fun _ => some ⟨1,0⟩),.chanActivAck ⟨1,0⟩,.handoDet ⟨1,0⟩]

def sdcchGsm0808 : Gsm0808 where
  chosenChannel _ _ := 0x91
  permittedSpeech _ _ := 0
  speechCodecFromChanType _ := 0

def cellOfTs (l : LchanId) : LchanDetails where
  cell := ⟨1,1,1,if l.ts = 0 then 1 else 2⟩
  encrAlgId := 1
  s15S0 := 0

/-- The handover of connection 0 to `⟨1,0⟩` is about to end as a success. -/
def endsOnNew (c : Config) : Bool :=
  match c.calls, c.state.conn 0 with
  | .handoverEndChange 0 .ok :: _, some k =>
    k.hoScope.intra && k.lchan == some ⟨0,0⟩ && k.hoNewLchan == some ⟨1,0⟩
  | _, _ => false

theorem sdcchHandover_ends : ∃ s, run (step sdcchs) initial (moves 40 sdcchHandover ++
      .input (.estInd ⟨1,0⟩ 0 (some .handoComplete) 0 true) :: List.replicate 6 (.call {})) = .ok s
    ∧ endsOnNew s = true ∧
    ∃ s', run (step sdcchs) ⟨s.state,[.handoverEndChange 0 .ok]⟩ (List.replicate 30 (.call {})) = .ok s'
      ∧ s'.calls = [] := by
  decide +kernel

theorem endsOnNew_iff {w : Bsc} {calls : List Call} (h : endsOnNew ⟨w,calls⟩ = true) :
    ∃ rest k, calls = .handoverEndChange 0 .ok :: rest ∧ w.conn 0 = some k ∧ k.hoScope.intra = true ∧
      k.lchan = some ⟨0,0⟩ ∧ k.hoNewLchan = some ⟨1,0⟩ := by
  unfold endsOnNew at h
  split at h
  · rename_i rest k hcalls hk
    simp only [Bool.and_eq_true,beq_iff_eq] at h
    exact ⟨rest,k,hcalls,hk,h.1.1,h.1.2,h.2⟩
  · cases h

/-- A handover within a cell is reported as it should be. -/
theorem handoverPerformed_primary_cell : ∃ w k,
    w.conn 0 = some k ∧ k.hoScope.intra = true ∧ k.lchan = some ⟨0,0⟩ ∧ k.hoNewLchan = some ⟨1,0⟩ ∧
    Alike sdcchGsm0808 (fun _ => cellOfTs ⟨0,0⟩) w (w.lchan ⟨1,0⟩).info.requiresVoiceStream k.aoip
      ⟨0,0⟩ ⟨1,0⟩ ∧
    Settles (exec sdcchs) (fun w' => (w'.conn 0).bind Conn.lchan = some ⟨1,0⟩ ∧
      (handoverPerformed sdcchGsm0808 (fun _ => cellOfTs ⟨0,0⟩) w k
          = primaryIes sdcchGsm0808 (fun _ => cellOfTs ⟨0,0⟩) w' 0 ↔
        Alike sdcchGsm0808 (fun _ => cellOfTs ⟨0,0⟩) w (w.lchan ⟨1,0⟩).info.requiresVoiceStream k.aoip
          ⟨0,0⟩ ⟨1,0⟩))
      w [.handoverEndChange 0 .ok] := by
  obtain ⟨⟨w,calls⟩,_,hends,_⟩ := sdcchHandover_ends
  obtain ⟨_,k,_,hk,hscope,hold,hnew⟩ := endsOnNew_iff hends
  exact ⟨w,k,hk,hscope,hold,hnew,⟨rfl,rfl,rfl,fun _ => rfl,fun _ _ => rfl⟩,
    handoverPerformed_primary hk hold hnew⟩

/-- After a handover to another cell the cell of the old lchan is reported. -/
theorem handoverPerformed_old_cell : ∃ w rest k w',
    Reachable sdcchs (fun _ _ => True) ⟨w,.handoverEndChange 0 .ok :: rest⟩ ∧
    w.conn 0 = some k ∧ k.hoScope.intra = true ∧ k.hoNewLchan = some ⟨1,0⟩ ∧
    Finishes (exec sdcchs) {} w [.handoverEndChange 0 .ok] w' ∧
    (w'.conn 0).bind Conn.lchan = some ⟨1,0⟩ ∧
    handoverPerformed sdcchGsm0808 cellOfTs w k ≠ primaryIes sdcchGsm0808 cellOfTs w' 0 := by
  obtain ⟨⟨w,calls⟩,hs,hends,⟨w',calls'⟩,hs',hdone⟩ := sdcchHandover_ends
  obtain ⟨rest,k,hcalls,hk,hscope,hold,hnew⟩ := endsOnNew_iff hends
  dsimp only at hdone hs'
  subst hcalls hdone
  have hreach : Reachable sdcchs (fun _ _ => True) ⟨w,.handoverEndChange 0 .ok :: rest⟩ :=
    Reach.of_run (.start rfl) (.of_forall (fun _ _ => trivial) _ _) hs
  have hfin := finishes_of_run hs'
  have hon := (settles_handoverEndChange hk hnew).of_finishes hfin
  obtain ⟨k',hk',hl',_⟩ := hon.get
  refine ⟨w,rest,k,w',hreach,hk,hscope,hnew,hfin,by simp [hk',hl'],?_⟩
  rw [primaryIes_of_onLchan hon,handoverPerformed,hold,hnew]
  simp [performedIes,cellOfTs]

end HandoverRuns

end OsmoBsc.Chan
