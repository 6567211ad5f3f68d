import OsmoBsc.Rsl.Receive
import OsmoBsc.Lib.Checked
import OsmoBsc.Chan.Frame
set_option autoImplicit false

/-! Which messages on an RSL link find everything that their handlers use. -/

namespace OsmoBsc.Rsl.Receive
open Chan EventFsm Checked

def Received.octet (rx : Received) (i : Nat) : BitVec 8 := rx.msg.getD i 0

/-- An element of one octet is in the header, with its tag at `i`. -/
def HasValue (msg : List (BitVec 8)) (tag : BitVec 8) (i : Nat) : Prop := msg[i]? = some tag ∧ i + 1 < msg.length

/-- The channel number is that of a TCH, an SDCCH, a common channel or a PDCH. -/
def NamesChan (chanNr : BitVec 8) : Prop :=
  (1 ≤ chanNr.toNat >>> 3 ∧ chanNr.toNat >>> 3 ≤ 0x12) ∨ chanNr.toNat >>> 3 = 0x18

def NeedsFi (rx : Received) (w : Bsc) (l : LchanId) (linkId : BitVec 8) : MsgType → Prop
  | .estInd => ¬ estRefused w l linkId
  | .relInd | .relConf => True
  | .errorInd => (rx.tlvs 6).rlmCause.isSome = true
  | _ => False

section Conditions

variable (rx : Received) (w : Bsc) (mt : MsgType)

/-- A link and a channel that there is, and an lchan whose FSM is there for the events made. -/
def RllComplete : Prop :=
  HasValue rx.msg rslIeLinkIdent 4 ∧ HasValue rx.msg rslIeChanNr 2 ∧ NamesChan (rx.octet 3)
    ∧ ∀ l, lchanLookup rx w (rx.octet 3) = some l → NeedsFi rx w l (rx.octet 5) mt → (w.lchan l).fi ≠ none

/-- A CONNECTION FAILURE of a configured lchan without conn has a cause. -/
def DchanComplete : Prop :=
  2 < rx.msg.length ∧ (rx.octet 2 = rslIeChanNr → 3 < rx.msg.length
    ∧ ∀ l, lchanLookup rx w (rx.octet 3) = some l → (w.lchan l).fi ≠ none → mt = .connFail →
      (w.lchan l).conn = none → (rx.tlvs 4).cause ≠ none)

/-- A CHANNEL REQUIRED with both of its elements has a channel, as far as notices of it are logged. -/
def ChanRqdComplete : Prop :=
  4 < rx.msg.length ∧ (rx.octet 4 = rslIeReqReference → 8 < rx.msg.length
    ∧ (rx.octet 8 = rslIeAccessDelay → 9 < rx.msg.length ∧ (rx.drslNotice = true → NamesChan (rx.octet 3))))

def CcchLoadComplete : Prop :=
  4 < rx.msg.length ∧ (rx.octet 4 = rslIePagingLoad → 6 < rx.msg.length)
    ∧ (rx.octet 4 = rslIeRachLoad → 7 ≤ rx.dataLen → 11 < rx.msg.length)

def CchanComplete : Prop :=
  HasValue rx.msg rslIeChanNr 2 ∧ (mt = .chanRqd → ChanRqdComplete rx) ∧ (mt = .ccchLoadInd → CcchLoadComplete rx)

/-- What a message has to bring along, and what there has to be for it. -/
def Complete : Prop :=
  2 ≤ rx.msg.length → match mdiscOf (rx.octet 0) with
    | .rll => RllComplete rx w (rx.msgType (rx.octet 1))
    | .dedChan => DchanComplete rx w (rx.msgType (rx.octet 1))
    | .comChan => CchanComplete rx (rx.msgType (rx.octet 1))
    | .ipaccess => HasValue rx.msg rslIeChanNr 2
    | .trx | .loc | .unknown => True

end Conditions

section Needs

variable {α β : Type} {what : Missing} {x : Option α} {f : α → Except Missing β} {msg : List (BitVec 8)}
  {tag : BitVec 8} {i n : Nat}

theorem need_of_ne_none (what : Missing) (h : x ≠ none) : ∃ a, need what x = .ok a := by
  obtain ⟨a,rfl⟩ := Option.ne_none_iff_exists'.mp h
  exact ⟨a,rfl⟩

theorem fine_need_bind {p : Prop} (hf : ∀ a, x = some a → (Fine (f a) ↔ p)) :
    Fine (need what x >>= f) ↔ x ≠ none ∧ p := by
  cases x with
  | none => exact iff_of_false (not_fine_error what) fun h => h.1 rfl
  | some a => exact (hf a rfl).trans (and_iff_right (Option.some_ne_none a)).symm

theorem ifPresent_eq : ifPresent x = .ok x := by
  cases x <;> rfl

theorem fine_octetAt_bind {f : BitVec 8 → Except Missing β} :
    Fine (octetAt msg i >>= f) ↔ i < msg.length ∧ Fine (f (msg.getD i 0)) := by
  by_cases h : i < msg.length
  · rw [octetAt,List.getElem?_eq_getElem h,List.getD_eq_getElem _ _ h]
    exact (and_iff_right h).symm
  · rw [octetAt,List.getElem?_eq_none (Nat.not_lt.mp h)]
    exact iff_of_false (not_fine_error _) fun hf => h hf.1

theorem fine_drop_bind {rx : Received} {f : BitVec 8 → Except Missing β} {k : Nat} (hk : n + i = k) :
    Fine (octetAt (rx.msg.drop n) i >>= f) ↔ k < rx.msg.length ∧ Fine (f (rx.octet k)) := by
  rw [octetAt,List.getElem?_drop,hk,← octetAt]
  exact fine_octetAt_bind

theorem fine_unless {a b : BitVec 8} {r : β} {y : Except Missing β} :
    Fine (if a ≠ b then pure r else y) ↔ (a = b → Fine y) := by
  by_cases h : a = b
  · rw [if_neg (not_not.mpr h),imp_iff_right h]
  · rw [if_pos h]
    exact iff_of_true (fine_pure r) fun hab => absurd hab h

theorem fine_valueAt_bind {f : BitVec 8 → Except Missing β} :
    Fine (valueAt msg tag i >>= f) ↔ HasValue msg tag i ∧ Fine (f (msg.getD (i + 1) 0)) := by
  unfold valueAt HasValue
  split
  · rename_i htag
    rw [fine_octetAt_bind,and_iff_right htag]
  · rename_i htag
    exact iff_of_false (not_fine_error _) fun hf => htag hf.1.1

theorem fine_octets16_bind {f : Nat → Except Missing β} {p : Prop} (hf : ∀ k, Fine (f k) ↔ p) :
    Fine (octets16 msg i >>= f) ↔ i + 1 < msg.length ∧ p := by
  by_cases h : i + 1 < msg.length
  · have h16 : octets16 msg i = .ok ((msg.getD i 0).toNat <<< 8 ||| (msg.getD (i + 1) 0).toNat) := by
      rw [octets16,octetAt,octetAt,List.getElem?_eq_getElem (by omega),List.getElem?_eq_getElem h,
        List.getD_eq_getElem _ _ (by omega),List.getD_eq_getElem _ _ h]
      rfl
    rw [h16]
    exact (hf _).trans (and_iff_right h).symm
  · refine iff_of_false (fun hfine => ?_) fun hfine => h hfine.1
    have h16 := hfine.of_bind
    rw [octets16,fine_octetAt_bind] at h16
    have hlo := h16.2
    rw [fine_octetAt_bind] at hlo
    exact h hlo.1

end Needs

section Lookup

variable {rx : Received} {w : Bsc}

theorem cbits_cases : ∀ n < 32, (n = 0x01 ∨ n &&& 0x1e = 0x02 ∨ n &&& 0x1c = 0x04 ∨ n &&& 0x18 = 0x08
    ∨ (n = 0x10 ∨ n = 0x11 ∨ n = 0x12) ∨ n = 0x18) ↔ (1 ≤ n ∧ n ≤ 0x12) ∨ n = 0x18 := by decide

theorem osmoPdch_iff (chanNr : BitVec 8) : chanNr &&& 0xf8 = 0xc0 ↔ chanNr.toNat >>> 3 = 0x18 := by
  have hall : ∀ n < 256, BitVec.ofNat 8 n &&& 0xf8 = 0xc0 ↔ n >>> 3 = 0x18 := by decide +kernel
  have h := hall chanNr.toNat chanNr.isLt
  rwa [BitVec.ofNat_toNat,BitVec.setWidth_eq] at h

theorem lchanLookup_ne_none_iff (chanNr : BitVec 8) : lchanLookup rx w chanNr ≠ none ↔ NamesChan chanNr := by
  have hlt : chanNr.toNat >>> 3 < 32 := by
    have := chanNr.isLt
    rw [Nat.shiftRight_eq_div_pow]
    omega
  rw [NamesChan,← cbits_cases _ hlt,← osmoPdch_iff,Ne,lchanLookup,Option.map_eq_none_iff,rslLchanLookup]
  split_ifs <;> simp_all

end Lookup

section Dedicated

variable {rx : Received} {w : Bsc} {l : LchanId} {chanNr : BitVec 8}

theorem fine_dispatchFi_bind {β : Type} {ev : LchanEvent} {f : Action → Except Missing β} (hf : ∀ a, Fine (f a)) :
    Fine (dispatchFi w l ev >>= f) ↔ (w.lchan l).fi ≠ none := by
  cases hfi : (w.lchan l).fi with
  | none =>
    rw [dispatchFi,hfi]
    exact iff_of_false (not_fine_error _) fun h => h rfl
  | some st =>
    rw [dispatchFi,hfi]
    exact iff_of_true (hf _) (Option.some_ne_none st)

theorem dispatchFi_ok (h : (w.lchan l).fi ≠ none) (ev : LchanEvent) :
    dispatchFi w l ev = .ok (.call (.lchanDispatch l ev)) := by
  obtain ⟨st,hst⟩ := need_of_ne_none .lchanFsm h
  rw [dispatchFi,hst]
  rfl

theorem dispatchFiRtp_ok (h : (w.lchan l).fiRtp ≠ none) (ev : RtpEvent) :
    dispatchFiRtp w l ev = .ok (.call (.rtpDispatch l ev)) := by
  obtain ⟨st,hst⟩ := need_of_ne_none .lchanFsm h
  rw [dispatchFiRtp,hst]
  rfl

theorem rslRxConnFail_fine_iff :
    Fine (rslRxConnFail rx w l) ↔ ((w.lchan l).conn = none → (rx.tlvs 4).cause ≠ none) := by
  rw [rslRxConnFail]
  cases (w.lchan l).conn with
  | none => rw [fine_need_bind (p := True) fun _ _ => by simp,and_true,imp_iff_right rfl]
  | some c => exact iff_of_true (fine_ok _) fun h => by cases h

theorem rslRxMeasRes_fine : Fine (rslRxMeasRes rx w l) := by
  rw [rslRxMeasRes]
  split
  · exact fine_ok _
  · split
    · exact fine_ok _
    · rename_i hie
      simp only [Bool.or_eq_true,Option.isNone_iff_eq_none,not_or] at hie
      obtain ⟨nr,hnr⟩ := need_of_ne_none .ie hie.1.1
      obtain ⟨val,hval⟩ := need_of_ne_none .ie hie.1.2
      obtain ⟨power,hpower⟩ := need_of_ne_none .ie hie.2
      simp only [hnr,hval,hpower,ifPresent_eq,EventFsm.ok_bind,fine_pure]

theorem rslRxHandoDet_fine : Fine (rslRxHandoDet rx w l) := by
  rw [rslRxHandoDet,ifPresent_eq,EventFsm.ok_bind]
  cases (w.lchan l).conn with
  | none => exact fine_pure _
  | some c => cases hho : (w.conn c).bind (·.hoFi) <;> simp only [hho,fine_pure]

theorem rslRxChanActNack_fine (hfi : (w.lchan l).fi ≠ none) (h2 : 2 < rx.msg.length) :
    Fine (rslRxChanActNack rx w l chanNr) := by
  rw [rslRxChanActNack,fine_octetAt_bind]
  refine ⟨h2,?_⟩
  split
  · exact fine_pure _
  · split
    · exact fine_pure _
    · simp only [dispatchFi_ok hfi,EventFsm.ok_bind,fine_pure]

/-- Of the messages for a dedicated channel, a CONNECTION FAILURE alone uses what was not looked for. -/
theorem rxDchanMsg_fine_iff (hfi : (w.lchan l).fi ≠ none) (h2 : 2 < rx.msg.length) (mt : MsgType) :
    Fine (rxDchanMsg rx w l chanNr mt) ↔ (mt = .connFail → (w.lchan l).conn = none → (rx.tlvs 4).cause ≠ none) := by
  by_cases hmt : mt = .connFail
  · rw [imp_iff_right hmt,hmt]
    exact rslRxConnFail_fine_iff
  · refine iff_of_true ?_ fun h => absurd h hmt
    cases mt with
    | connFail => exact absurd rfl hmt
    | chanActivNack => exact rslRxChanActNack_fine hfi h2
    | measRes => exact rslRxMeasRes_fine
    | handoDet => exact rslRxHandoDet_fine
    | chanActivAck | rfChanRelAck =>
      rw [rxDchanMsg]
      split
      · exact fine_ok _
      · rw [dispatchFi_ok hfi]
        exact fine_pure _
    | _ => exact fine_ok _

theorem ipacParseRtp_fine (tv : RslTlv) : Fine (ipacParseRtp tv) := by
  simp only [ipacParseRtp,ifPresent_eq,EventFsm.ok_bind,fine_pure]

theorem rxIpaccMsg_fine (mt : MsgType) : Fine (rxIpaccMsg rx w l mt) := by
  have hnack : ∀ ev, Fine (abisRslRxIpaccNack w l ev) := fun ev => by
    rw [abisRslRxIpaccNack]
    split
    · exact fine_ok _
    · rename_i hfi
      rw [dispatchFiRtp_ok (by simpa using hfi)]
      exact fine_pure _
  cases mt with
  | ipacCrcxAck =>
    rw [rxIpaccMsg,abisRslRxIpaccCrcxAck]
    split
    · exact fine_ok _
    · rename_i hfi
      split
      · exact fine_ok _
      · obtain ⟨parsed,hparsed⟩ := ipacParseRtp_fine (rx.tlvs 4)
        rw [hparsed,dispatchFiRtp_ok (by simpa using hfi)]
        exact fine_pure _
  | ipacMdcxAck =>
    rw [rxIpaccMsg,abisRslRxIpaccMdcxAck]
    split
    · exact fine_ok _
    · rename_i hfi
      obtain ⟨parsed,hparsed⟩ := ipacParseRtp_fine (rx.tlvs 4)
      rw [hparsed,dispatchFiRtp_ok (by simpa using hfi)]
      exact fine_pure _
  | ipacCrcxNack | ipacMdcxNack => exact hnack _
  | _ => exact fine_ok _

end Dedicated

section Common

variable {rx : Received} {w : Bsc}

theorem chanRqdSelect_fi {sel : Select} {l : LchanId} {type : ChanT}
    (h : chanRqdSelect w sel = some (l,type)) : (w.lchan l).fi ≠ none := by
  obtain ⟨type',-,hsel⟩ := List.exists_of_findSome?_eq_some h
  cases hl : sel type' with
  | none => simp [hl] at hsel
  | some l' =>
    simp only [hl,Option.ite_none_right_eq_some,Option.some.injEq,Prod.mk.injEq] at hsel
    obtain ⟨hs,rfl,rfl⟩ := hsel
    rw [lchanSelectable_unused w hs]
    exact Option.some_ne_none _

theorem logBtsNr_fine_bind {lchan : Option LchanId} {β : Type} {f : Unit → Except Missing β} :
    Fine (logBtsNr rx lchan >>= f) ↔ (rx.drslNotice = true → lchan ≠ none) ∧ Fine (f ()) := by
  rw [logBtsNr]
  cases rx.drslNotice with
  | false => exact (and_iff_right fun h => by cases h).symm
  | true =>
    rw [imp_iff_right rfl]
    cases lchan with
    | none => exact iff_of_false (not_fine_error _) fun h => h.1 rfl
    | some l => exact (and_iff_right (Option.some_ne_none l)).symm

theorem rslRxChanRqd_fine_iff :
    Fine (rslRxChanRqd rx w (lchanLookup rx w (rx.octet 3))) ↔ ChanRqdComplete rx := by
  rw [rslRxChanRqd,fine_drop_bind (rfl : 4 + 0 = 4),fine_unless,fine_drop_bind (rfl : 4 + 4 = 8),fine_unless,
    fine_drop_bind (rfl : 4 + 5 = 9),fine_drop_bind (rfl : 4 + 1 = 5),logBtsNr_fine_bind,lchanLookup_ne_none_iff]
  refine and_congr_right fun _ => imp_congr_right fun _ => and_congr_right fun _ => imp_congr_right fun _ => ?_
  refine and_congr_right fun h9 => ?_
  rw [and_iff_right (by omega)]
  refine and_iff_left ?_
  dsimp only
  split
  · exact fine_pure _
  · split
    · exact fine_pure _
    · rename_i hsel
      rw [fine_need_bind (p := True) fun _ _ => by simp,and_true]
      exact chanRqdSelect_fi hsel

theorem rslRxCcchLoad_fine_iff : Fine (rslRxCcchLoad rx) ↔ CcchLoadComplete rx := by
  have hne : rslIePagingLoad ≠ rslIeRachLoad := by decide
  have hlen : (rx.msg.drop 4).length = rx.msg.length - 4 := List.length_drop
  rw [rslRxCcchLoad,fine_drop_bind (rfl : 4 + 0 = 4),CcchLoadComplete]
  refine and_congr_right fun _ => ?_
  by_cases hpaging : rx.octet 4 = rslIePagingLoad
  · rw [if_pos hpaging,imp_iff_right hpaging,fine_octets16_bind (p := True) fun _ => by simp,and_true,
      and_iff_left fun h => absurd (hpaging.symm.trans h) hne]
    omega
  · rw [if_neg hpaging,and_iff_right fun h => absurd h hpaging]
    by_cases hrach : rx.octet 4 = rslIeRachLoad ∧ 7 ≤ rx.dataLen
    · have h6 : ∀ slotCount busyCount, Fine (do
          let accessCount ← octets16 (rx.msg.drop 4) 6
          return [Action.rachLoad slotCount busyCount accessCount] : Except Missing (List Action)) ↔
            6 + 1 < (rx.msg.drop 4).length ∧ True := fun _ _ => fine_octets16_bind fun _ => by simp
      rw [if_pos hrach,imp_iff_right hrach.1,imp_iff_right hrach.2,
        fine_octets16_bind fun _ => fine_octets16_bind fun _ => h6 _ _,and_true]
      omega
    · rw [if_neg hrach]
      exact iff_of_true (fine_pure _) fun h4 h7 => absurd ⟨h4,h7⟩ hrach

theorem rslRxEricssonImmAssignSent_fine : Fine (rslRxEricssonImmAssignSent rx) := by
  rw [rslRxEricssonImmAssignSent]
  split
  · exact fine_pure _
  · rename_i hlen
    have h5 : 5 ≤ (rx.msg.drop 4).length := Nat.not_lt.mp hlen
    rw [fine_octetAt_bind,fine_unless]
    refine ⟨by omega,fun _ => ?_⟩
    have hlo : ∀ hi : Nat, Fine (do
        let lo ← octets16 (rx.msg.drop 4) 3
        return [Action.immAssSent (hi <<< 16 ||| lo)] : Except Missing (List Action)) ↔
          3 + 1 < (rx.msg.drop 4).length ∧ True := fun _ => fine_octets16_bind fun _ => by simp
    rw [fine_octets16_bind hlo,and_true]
    omega

theorem rxCchanMsg_fine_iff (mt : MsgType) :
    Fine (rxCchanMsg rx w (lchanLookup rx w (rx.octet 3)) mt) ↔
      (mt = .chanRqd → ChanRqdComplete rx) ∧ (mt = .ccchLoadInd → CcchLoadComplete rx) := by
  cases mt with
  | chanRqd => simp [rxCchanMsg,rslRxChanRqd_fine_iff]
  | ccchLoadInd => simp [rxCchanMsg,rslRxCcchLoad_fine_iff]
  | ericssonImmAssSent => simp [rxCchanMsg,rslRxEricssonImmAssignSent_fine]
  | _ => simp [rxCchanMsg]

end Common

section Rll

variable {rx : Received} {w : Bsc} {l : LchanId} {linkId : BitVec 8}

/-- The layer 3 information is looked for in a message that is long enough only. -/
theorem rllL3_fine : Fine (rllL3 rx l) := by
  rw [rllL3]
  split
  · exact fine_ok _
  · rw [fine_octetAt_bind]
    refine ⟨by omega,?_⟩
    split <;> exact fine_pure _

theorem rxEstInd_fine_iff : Fine (rxEstInd rx w l linkId) ↔ (¬ estRefused w l linkId → (w.lchan l).fi ≠ none) := by
  rw [rxEstInd]
  split
  · rename_i href
    exact iff_of_true (fine_ok _) fun h => absurd href h
  · rename_i href
    obtain ⟨l3,hl3⟩ := @rllL3_fine rx l
    rw [imp_iff_right href,fine_need_bind (p := True) fun _ _ => by simp [hl3],and_true]

theorem rslRxRllErrInd_fine_iff :
    Fine (rslRxRllErrInd rx w l linkId) ↔ ((rx.tlvs 6).rlmCause.isSome = true → (w.lchan l).fi ≠ none) := by
  rw [rslRxRllErrInd]
  cases hcause : (rx.tlvs 6).rlmCause with
  | none => exact iff_of_true (fine_ok _) fun h => by cases h
  | some cause =>
    rw [imp_iff_right Option.isSome_some]
    exact fine_dispatchFi_bind fun _ => fine_pure _

theorem rxRllMsg_fine_iff {mt : MsgType} :
    Fine (rxRllMsg rx w l linkId mt) ↔ (NeedsFi rx w l linkId mt → (w.lchan l).fi ≠ none) := by
  have hone : ∀ ev, Fine (do
      let action ← dispatchFi w l ev
      return [action] : Except Missing (List Action)) ↔ (w.lchan l).fi ≠ none :=
    fun _ => fine_dispatchFi_bind fun _ => fine_pure _
  cases mt with
  | dataInd => exact iff_of_true rllL3_fine fun h => h.elim
  | estInd => exact rxEstInd_fine_iff
  | relInd | relConf => exact (hone _).trans (imp_iff_right trivial).symm
  | errorInd => exact rslRxRllErrInd_fine_iff
  | _ => exact iff_of_true (fine_ok _) fun h => h.elim

end Rll

section Dispatchers

variable (rx : Received) (w : Bsc) (mt : MsgType)

theorem abisRslRxRll_fine_iff : Fine (abisRslRxRll rx w mt) ↔ RllComplete rx w mt := by
  rw [abisRslRxRll,fine_valueAt_bind,fine_valueAt_bind,RllComplete]
  refine and_congr_right fun _ => and_congr_right fun _ => ?_
  rw [← @lchanLookup_ne_none_iff rx w]
  change Fine (need .lchan (lchanLookup rx w (rx.octet 3)) >>= fun l => rxRllMsg rx w l (rx.octet 5) mt) ↔ _
  refine fine_need_bind fun l hl => rxRllMsg_fine_iff.trans ?_
  exact ⟨fun h l' hl' => by cases hl.symm.trans hl'; exact h,fun h => h l hl⟩

theorem abisRslRxDchan_fine_iff : Fine (abisRslRxDchan rx w mt) ↔ DchanComplete rx w mt := by
  rw [abisRslRxDchan,fine_octetAt_bind,fine_unless,fine_octetAt_bind,DchanComplete]
  refine and_congr_right fun h2 => imp_congr_right fun _ => and_congr_right fun _ => ?_
  have hoctet : rx.msg.getD 3 0 = rx.octet 3 := rfl
  rw [hoctet]
  cases hl : lchanLookup rx w (rx.octet 3) with
  | none => exact iff_of_true (fine_pure _) fun l h => by cases h
  | some l =>
    dsimp only
    split
    · rename_i hfi
      refine iff_of_true (fine_pure _) fun l' hl' hfi' => ?_
      cases hl'
      exact absurd (Option.isNone_iff_eq_none.mp hfi) hfi'
    · rename_i hfi
      have hfi' : (w.lchan l).fi ≠ none := fun h => hfi (Option.isNone_iff_eq_none.mpr h)
      rw [rxDchanMsg_fine_iff hfi' h2]
      exact ⟨fun h l' hl' _ => by cases hl'; exact h,fun h => h l rfl hfi'⟩

theorem abisRslRxCchan_fine_iff : Fine (abisRslRxCchan rx w mt) ↔ CchanComplete rx mt := by
  rw [abisRslRxCchan,fine_valueAt_bind,CchanComplete]
  exact and_congr_right fun _ => rxCchanMsg_fine_iff mt

theorem abisRslRxIpacc_fine_iff : Fine (abisRslRxIpacc rx w mt) ↔ HasValue rx.msg rslIeChanNr 2 := by
  rw [abisRslRxIpacc,fine_valueAt_bind]
  refine and_iff_left ?_
  split
  · exact fine_pure _
  · split
    · exact fine_pure _
    · exact rxIpaccMsg_fine mt

theorem abisRslRcvmsg_fine_iff : Fine (abisRslRcvmsg rx w) ↔ Complete rx w := by
  rw [abisRslRcvmsg,Complete]
  split
  · rename_i hshort
    exact iff_of_true (fine_ok _) fun h => absurd h (by omega)
  · rename_i hlen
    rw [imp_iff_right (by omega),fine_octetAt_bind,fine_octetAt_bind,and_iff_right (by omega),and_iff_right (by omega)]
    change Fine (match mdiscOf (rx.octet 0) with
      | .rll => abisRslRxRll rx w (rx.msgType (rx.octet 1))
      | .dedChan => abisRslRxDchan rx w (rx.msgType (rx.octet 1))
      | .comChan => abisRslRxCchan rx w (rx.msgType (rx.octet 1))
      | .ipaccess => abisRslRxIpacc rx w (rx.msgType (rx.octet 1))
      | .trx | .loc | .unknown => pure []) ↔ _
    cases mdiscOf (rx.octet 0) with
    | rll => exact abisRslRxRll_fine_iff rx w _
    | dedChan => exact abisRslRxDchan_fine_iff rx w _
    | comChan => exact abisRslRxCchan_fine_iff rx w _
    | ipaccess => exact abisRslRxIpacc_fine_iff rx w _
    | trx | loc | unknown => exact iff_of_true (fine_pure _) trivial

end Dispatchers

section Runs

/-- A move of the program, or a message on an RSL link, which is taken when no call is left. -/
inductive RslMove where
  | move (m : Move)
  | rsl (rx : Received)

def callsOf (actions : List Action) : List Call :=
  actions.filterMap fun
    | .call c => some c
    | _ => none

/-- The step of the program with its RSL links; it stops at what a handler misses, or at a fault of the rest. -/
def rslStep (cfg : TsId → TsCfg) : Config → RslMove → Except (Missing ⊕ Fault) Config
  | c, .move m => match Chan.step cfg c m with
    | .ok c => .ok c
    | .error e => .error (.inr e)
  | ⟨w,[]⟩, .rsl rx => match abisRslRcvmsg rx w with
    | .ok actions => .ok ⟨w,callsOf actions⟩
    | .error e => .error (.inl e)
  | c, .rsl _ => .ok c

def Supplied : Config → RslMove → Prop
  | _, .move _ => True
  | c, .rsl rx => Complete rx c.state

theorem rslStep_faultsIn (cfg : TsId → TsCfg) (c : Config) (m : RslMove) (h : Supplied c m) :
    FaultsIn (fun e => e.isRight = true) (rslStep cfg c m) := by
  cases m with
  | move m =>
    rw [rslStep]
    split
    · exact faultsIn_ok _
    · exact faultsIn_error.mpr rfl
  | rsl rx =>
    obtain ⟨w,calls⟩ := c
    cases calls with
    | nil =>
      obtain ⟨actions,hok⟩ := (abisRslRcvmsg_fine_iff rx w).mpr h
      simp only [rslStep,hok,faultsIn_ok]
    | cons call rest => exact faultsIn_ok _

/-- A message finds all that its handlers use exactly if it is complete, and no run of complete messages stops
at anything that a handler misses. -/
theorem rcvmsg_complete_iff (cfg : TsId → TsCfg) :
    (∀ rx w, (∃ actions, abisRslRcvmsg rx w = .ok actions) ↔ Complete rx w) ∧
      ∀ c moves, GoodRun (rslStep cfg) Supplied c moves →
        FaultsIn (fun e => e.isRight = true) (run (rslStep cfg) c moves) :=
  ⟨abisRslRcvmsg_fine_iff,fun _ _ hgood => FaultsIn.run (rslStep_faultsIn cfg) hgood⟩

/-- Octets on the link of a first TRX, with no element behind the header. -/
def onFirstTrx (msg : List (BitVec 8)) : Received where
  ts := fun i => i.val
  msg := msg
  dataLen := 1200
  isIpaccessBts := false
  neci := true
  drslNotice := true
  tlvParse := fun _ => {}
  ericssonImmAssSent := 0x10
  ericMobileId := 0xff
  sel := fun _ => none
  l3Msg := fun _ => .other
  newConn := 0
  aoip := true

def relIndOnSdcch : Received := onFirstTrx [0x02,0x09,0x01,0x40,0x02,0x00]

/-- OML and RSL come up, a connection is set up on an SDCCH, and the MS releases it. -/
theorem rcvmsg_complete_relInd : ∃ c, run (rslStep sdcchAndTch) initial ((moves 40 connOnSdcch).map .move) = .ok c
    ∧ (c.state.lchan ⟨0,0⟩).conn ≠ none ∧ (∃ actions, abisRslRcvmsg relIndOnSdcch c.state = .ok actions)
    ∧ FaultsIn (fun e => e.isRight = true)
      (run (rslStep sdcchAndTch) initial ((moves 40 connOnSdcch).map .move ++ [.rsl relIndOnSdcch])) := by
  obtain ⟨c,hrun,hconn,hfi⟩ : ∃ c, run (rslStep sdcchAndTch) initial ((moves 40 connOnSdcch).map .move) = .ok c
      ∧ (c.state.lchan ⟨0,0⟩).conn ≠ none ∧ (c.state.lchan ⟨0,0⟩).fi ≠ none := by
    decide +kernel
  have hcomplete : Complete relIndOnSdcch c.state := by
    refine fun _ => ⟨⟨rfl,by decide⟩,⟨rfl,by decide⟩,.inl (by decide),fun l hl _ => ?_⟩
    cases hl
    exact hfi
  obtain ⟨hall,hruns⟩ := rcvmsg_complete_iff sdcchAndTch
  refine ⟨c,hrun,hconn,(hall _ _).mpr hcomplete,hruns initial _ ?_⟩
  refine GoodRun.append (GoodRun.of_mem (fun s m hm => ?_) initial) hrun ⟨hcomplete,?_⟩
  · obtain ⟨m',-,rfl⟩ := List.mem_map.mp hm
    trivial
  · split
    · trivial
    · trivial

/-- A DATA INDICATION with a channel number of no channel; a RELEASE INDICATION for a timeslot that is not
initialized; and, where there is an SDCCH without conn, a CONNECTION FAILURE without cause. -/
theorem rcvmsg_missing :
    (∃ c, Reach (rslStep sdcchAndTch) (fun _ _ => True) (· = initial) c ∧
      abisRslRcvmsg (onFirstTrx [0x02,0x02,0x01,0x00,0x02,0x00]) c.state = .error .lchan) ∧
    (∃ c, Reach (rslStep sdcchAndTch) (fun _ _ => True) (· = initial) c ∧
      abisRslRcvmsg (onFirstTrx [0x02,0x09,0x01,0x40,0x02,0x00]) c.state = .error .lchanFsm) ∧
    ∃ c, Reach (rslStep sdcchAndTch) (fun _ _ => True) (· = initial) c ∧
      abisRslRcvmsg (onFirstTrx [0x08,0x24,0x01,0x40]) c.state = .error .ie := by
  have hrun : ∃ c, run (rslStep sdcchAndTch) initial
      ((moves 8 [.omlReady 0,.rslReady 0]).map .move) = .ok c ∧
        abisRslRcvmsg (onFirstTrx [0x08,0x24,0x01,0x40]) c.state = .error .ie := ⟨_,rfl,rfl⟩
  obtain ⟨c,hc,hie⟩ := hrun
  refine ⟨⟨initial,.start rfl,rfl⟩,⟨initial,.start rfl,rfl⟩,c,?_,hie⟩
  exact Reach.of_run (.start rfl) (GoodRun.of_forall (fun _ _ => trivial) _ _) hc

end Runs

end OsmoBsc.Rsl.Receive
