import OsmoBsc.Chan.Agreement
import OsmoBsc.Rsl.Receive
set_option autoImplicit false

namespace OsmoBsc.Rsl.Receive
open EventFsm OsmoBsc.Chan

def ccchLchan : Nat := 4

/-- The five bits of `gsm_pchan2chan_nr`, or none where its assertion fails. -/
def pchanCbits (pchan : Pchan) (lchanNr : Nat) : Option Nat :=
  match pchan with
  | .tchF | .tchFPdch => if lchanNr = 0 then some 0x01 else none
  | .pdch => if lchanNr = 0 then some 0x18 else none
  | .tchH => if lchanNr < 2 then some (0x02 + lchanNr) else none
  | .ccchSdcch4 | .ccchSdcch4Cbch => if lchanNr = ccchLchan ∨ lchanNr < 4 then some (0x04 + lchanNr) else none
  | .sdcch8Sacch8c | .sdcch8Sacch8cCbch => if lchanNr < 8 then some (0x08 + lchanNr) else none
  | .ccch | .none | .unknown | .tchFTchHPdch => if lchanNr = 0 then some 0x10 else none

def putCbits (cbits : Nat) (tsNr : Fin 8) : BitVec 8 := BitVec.ofNat 8 (cbits <<< 3 ||| tsNr.val &&& 7)

def gsmPchan2chanNr (pchan : Pchan) (tsNr : Fin 8) (lchanNr : Nat) : Option (BitVec 8) :=
  (pchanCbits pchan lchanNr).map (putCbits · tsNr)

/-- `gsm_lchan2chan_nr`, for lchan `nr` of a timeslot of the TRX. -/
def gsmLchan2chanNr (rx : Received) (w : Bsc) (tsNr : Fin 8) (nr : Nat) : Option (BitVec 8) :=
  gsmPchan2chanNr (w.ts (rx.ts tsNr)).pchanIs tsNr nr

section ChanNr

variable {rx : Received} {w : Bsc} {tsNr : Fin 8} {nr : Nat}

theorem putCbits_parts {cbits : Nat} (h : cbits < 16) (tsNr : Fin 8) :
    Fin.ofNat 8 (putCbits cbits tsNr).toNat = tsNr ∧ (putCbits cbits tsNr).toNat >>> 3 = cbits :=
  (by decide +kernel : ∀ (cbits : Fin 16) (tsNr : Fin 8), Fin.ofNat 8 (putCbits cbits tsNr).toNat = tsNr
    ∧ (putCbits cbits tsNr).toNat >>> 3 = cbits.val) ⟨cbits,h⟩ tsNr

theorem lookup_tchF : rslLchanLookup rx w (putCbits 0x01 tsNr) = some (⟨rx.ts tsNr,0⟩,
    tsIsCapableOfPchan (w.ts (rx.ts tsNr)) .tchF || (w.ts (rx.ts tsNr)).pchanOnInit == .pdch) := by
  obtain ⟨hts,hcbits⟩ := putCbits_parts (by omega : 0x01 < 16) tsNr
  simp only [rslLchanLookup,hts,hcbits,if_true]

theorem lookup_tchH (h : nr < 2) : rslLchanLookup rx w (putCbits (0x02 + nr) tsNr)
    = some (⟨rx.ts tsNr,nr⟩,tsIsCapableOfPchan (w.ts (rx.ts tsNr)) .tchH) := by
  obtain ⟨hts,hcbits⟩ := putCbits_parts (by omega : 0x02 + nr < 16) tsNr
  obtain ⟨hne,hkind,hnr⟩ :=
    (by decide : ∀ nr < 2, ¬0x02 + nr = 0x01 ∧ (0x02 + nr) &&& 0x1e = 0x02 ∧ (0x02 + nr) &&& 0x1 = nr) nr h
  simp only [rslLchanLookup,hts,hcbits,hne,hkind,hnr,if_false,if_true]

theorem lookup_sdcch4 (h : nr < 4) : rslLchanLookup rx w (putCbits (0x04 + nr) tsNr)
    = some (⟨rx.ts tsNr,nr⟩,tsIsCapableOfPchan (w.ts (rx.ts tsNr)) .ccchSdcch4) := by
  obtain ⟨hts,hcbits⟩ := putCbits_parts (by omega : 0x04 + nr < 16) tsNr
  obtain ⟨hne,hno,hkind,hnr⟩ := (by decide : ∀ nr < 4, ¬0x04 + nr = 0x01 ∧ ¬(0x04 + nr) &&& 0x1e = 0x02
    ∧ (0x04 + nr) &&& 0x1c = 0x04 ∧ (0x04 + nr) &&& 0x3 = nr) nr h
  simp only [rslLchanLookup,hts,hcbits,hne,hno,hkind,hnr,if_false,if_true]

theorem lookup_sdcch8 (h : nr < 8) : rslLchanLookup rx w (putCbits (0x08 + nr) tsNr)
    = some (⟨rx.ts tsNr,nr⟩,tsIsCapableOfPchan (w.ts (rx.ts tsNr)) .sdcch8Sacch8c) := by
  obtain ⟨hts,hcbits⟩ := putCbits_parts (by omega : 0x08 + nr < 16) tsNr
  obtain ⟨hne,hno,hno',hkind,hnr⟩ := (by decide : ∀ nr < 8, ¬0x08 + nr = 0x01 ∧ ¬(0x08 + nr) &&& 0x1e = 0x02
    ∧ ¬(0x08 + nr) &&& 0x1c = 0x04 ∧ (0x08 + nr) &&& 0x18 = 0x08 ∧ (0x08 + nr) &&& 0x7 = nr) nr h
  simp only [rslLchanLookup,hts,hcbits,hne,hno,hno',hkind,hnr,if_false,if_true]

def askedFor : Pchan → Pchan
  | .ccchSdcch4Cbch => .ccchSdcch4
  | .sdcch8Sacch8cCbch => .sdcch8Sacch8c
  | p => p

theorem capable_of_hasMode {ts : Ts} (hmode : ts.pchanOnInit.HasMode ts.pchanIs)
    (hsub : 0 < pchanSubslots ts.pchanIs) : tsIsCapableOfPchan ts (askedFor ts.pchanIs) = true := by
  rcases hmode with his | his | ⟨hon,his | his⟩
  · rw [his] at hsub
    exact absurd hsub (by decide)
  · rw [his] at hsub ⊢
    cases hon : ts.pchanOnInit <;> rw [hon] at hsub <;> first
      | exact absurd hsub (by decide)
      | (rw [tsIsCapableOfPchan,hon]; rfl)
  · rw [his,tsIsCapableOfPchan,hon]
    rfl
  · rw [his,tsIsCapableOfPchan,hon]
    rfl

theorem hasMode_ne_dynamic {onInit is : Pchan} (h : onInit.HasMode is) : is ≠ .tchFPdch ∧ is ≠ .tchFTchHPdch := by
  rcases h with rfl | rfl | ⟨-,rfl | rfl⟩
  · decide
  · cases onInit <;> decide
  · decide
  · decide

/-- A timeslot whose physical channel is one of its kind takes the channel numbers of its lchans for theirs. -/
theorem found_again (hmode : (w.ts (rx.ts tsNr)).pchanOnInit.HasMode (w.ts (rx.ts tsNr)).pchanIs)
    (hnr : nr < pchanSubslots (w.ts (rx.ts tsNr)).pchanIs) : ∃ chanNr, gsmLchan2chanNr rx w tsNr nr = some chanNr
      ∧ rslLchanLookup rx w chanNr = some (⟨rx.ts tsNr,nr⟩,true) := by
  have hcapable := capable_of_hasMode hmode (by omega)
  rw [gsmLchan2chanNr,gsmPchan2chanNr]
  cases his : (w.ts (rx.ts tsNr)).pchanIs with
  | none | ccch | pdch | unknown =>
    rw [his] at hnr
    cases hnr
  | tchFPdch => exact absurd his (hasMode_ne_dynamic hmode).1
  | tchFTchHPdch => exact absurd his (hasMode_ne_dynamic hmode).2
  | tchF =>
    rw [his] at hnr hcapable
    obtain rfl := Nat.lt_one_iff.mp hnr
    exact ⟨_,rfl,by rw [lookup_tchF]; simp [show tsIsCapableOfPchan _ Pchan.tchF = true from hcapable]⟩
  | tchH =>
    rw [his] at hnr hcapable
    exact ⟨putCbits (0x02 + nr) tsNr,by simp [pchanCbits,show nr < 2 from hnr],
      by rw [lookup_tchH hnr,show tsIsCapableOfPchan _ Pchan.tchH = true from hcapable]⟩
  | ccchSdcch4 | ccchSdcch4Cbch =>
    rw [his] at hnr hcapable
    exact ⟨putCbits (0x04 + nr) tsNr,by simp [pchanCbits,show nr < 4 from hnr],
      by rw [lookup_sdcch4 hnr,show tsIsCapableOfPchan _ Pchan.ccchSdcch4 = true from hcapable]⟩
  | sdcch8Sacch8c | sdcch8Sacch8cCbch =>
    rw [his] at hnr hcapable
    exact ⟨putCbits (0x08 + nr) tsNr,by simp [pchanCbits,show nr < 8 from hnr],
      by rw [lookup_sdcch8 hnr,show tsIsCapableOfPchan _ Pchan.sdcch8Sacch8c = true from hcapable]⟩

theorem reachable_found_again {cfg : TsId → TsCfg} {good : Config → Move → Prop} {c : Config}
    (h : Chan.Reachable cfg good c) (rx : Received) (tsNr : Fin 8) (nr : Nat)
    (hinit : (c.state.ts (rx.ts tsNr)).fi ≠ .notInitialized) (hborken : (c.state.ts (rx.ts tsNr)).fi ≠ .borken)
    (hnr : nr < pchanSubslots (c.state.ts (rx.ts tsNr)).pchanIs) :
    ∃ chanNr, gsmLchan2chanNr rx c.state tsNr nr = some chanNr
      ∧ rslLchanLookup rx c.state chanNr = some (⟨rx.ts tsNr,nr⟩,true) := by
  have ha := (h.agreed (rx.ts tsNr)).1
  have hpdch (hp : (c.state.ts (rx.ts tsNr)).fi.onPdch) :
      (c.state.ts (rx.ts tsNr)).pchanOnInit.HasMode (c.state.ts (rx.ts tsNr)).pchanIs := by
    rcases ha.pdch hp with ⟨his,-⟩ | ⟨-,-,his⟩
    · rw [his] at hnr
      cases hnr
    · exact .inr (.inl his)
  refine found_again ?_ hnr
  cases hfi : (c.state.ts (rx.ts tsNr)).fi with
  | notInitialized => exact absurd hfi hinit
  | borken => exact absurd hfi hborken
  | unused => exact ha.plain (.inl hfi)
  | waitPdchAct => exact ha.plain (.inr (.inl hfi))
  | inUse => exact ha.plain (.inr (.inr hfi))
  | pdch => exact hpdch (.inl hfi)
  | waitPdchDeact => exact hpdch (.inr hfi)

end ChanNr

end OsmoBsc.Rsl.Receive
