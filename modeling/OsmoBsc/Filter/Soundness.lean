import OsmoBsc.Filter.Model
set_option autoImplicit false

namespace OsmoBsc.Filter

def Sound (seen : List Seen) : Prop :=
  seen.Pairwise fun a b => a.denied = true → b.passed = false

/-- A message that goes through `bsc_dtap` to the filter and reveals a denied IMSI is the
last one of the connection that a filter is asked about. -/
def LastWord : List Seen → Prop
  | [] => True
  | _ :: seen => seen.Pairwise fun a b => a.denied = true → b.asked = false

section Soundness

variable {lib : Libosmogsm} {net : Network} {k : Conn} {i : Input} {is : List Input} {s : Seen}
  {msc : Msc}

theorem completeLayer3_denied (h : (completeLayer3 lib net msc i k).2.2.denied = true) :
    (completeLayer3 lib net msc i k).2.1 = false := by
  unfold completeLayer3 at h ⊢
  dsimp only at h ⊢
  split
  · rfl
  · rename_i hrc
    rw [if_neg hrc] at h
    split at h <;> cases h

theorem initialCheck_ccSetup (h : i.msg.kind lib = ccSetup) :
    initialCheck lib i.msg = (.other,none) := by
  unfold initialCheck
  rw [h]
  rfl

theorem completeLayer3_ccSetup (net : Network) (msc : Msc) (k : Conn) (h : i.msg.kind lib = ccSetup) :
    (completeLayer3 lib net msc i k).2.2 = { asked := true, passed := true }
      ∧ (completeLayer3 lib net msc i k).1.filterState.imsiChecked = k.filterState.imsiChecked := by
  have hrc : (bscMsgFilterInitial lib i.msg (net.request msc)).rc = 0 := by
    unfold bscMsgFilterInitial
    rw [initialCheck_ccSetup h]
  unfold completeLayer3
  dsimp only
  rw [hrc]
  split
  · rename_i hneg
    exact absurd hneg (by decide)
  · split <;> exact ⟨rfl,rfl⟩

theorem handleCcSetup_kind {msg : L3Msg} (h : handleCcSetup lib net msg = some msc) :
    msg.kind lib = ccSetup := by
  unfold handleCcSetup at h
  split at h
  · cases h
  · rename_i hk
    exact Decidable.not_not.mp hk

theorem moveToMsc_spec (net : Network) (msc : Msc) (k : Conn) (h : i.msg.kind lib = ccSetup) :
    (moveToMsc lib net msc i k).2 = { asked := true, passed := true }
      ∧ (moveToMsc lib net msc i k).1.filterState.imsiChecked = k.filterState.imsiChecked := by
  obtain ⟨hseen,hchecked⟩ := completeLayer3_ccSetup net msc k h
  refine ⟨hseen,?_⟩
  unfold moveToMsc
  dsimp only
  split
  · exact hchecked
  · exact hchecked

theorem bscMsgFilterData_checked {msg : L3Msg} {req : Request} {state : FilterState}
    (h : state.imsiChecked = true) : bscMsgFilterData lib msg req state
      = (0,state,⟨plmnNotAllowed,plmnNotAllowed⟩) := by
  unfold bscMsgFilterData
  rw [if_pos h]

theorem bscMsgFilterData_idResp {msg : L3Msg} {req : Request} {state : FilterState} {imsi : Imsi}
    (hk : msg.kind lib = idResp) (hi : idRespImsi lib msg = .ok (some imsi)) :
    (bscMsgFilterData lib msg req state).2.1.imsiChecked = true := by
  unfold bscMsgFilterData dtCheckIdResp
  dsimp only
  split
  · assumption
  · rw [if_neg (Decidable.not_not.mpr hk),hi]

theorem bscDtap_checked (lib : Libosmogsm) (net : Network) (i : Input) (h : k.filterState.imsiChecked = true) :
    (bscDtap lib net i k).1.filterState.imsiChecked = true
      ∧ (bscDtap lib net i k).2.passed = (bscDtap lib net i k).2.asked := by
  unfold bscDtap
  split
  · exact ⟨h,rfl⟩
  · split
    · exact ⟨h,rfl⟩
    · split
      · rename_i msc' hmsc
        obtain ⟨hseen,hchecked⟩ := moveToMsc_spec net msc' k
          (handleCcSetup_kind hmsc)
        exact ⟨hchecked.trans h,by rw [hseen]⟩
      · dsimp only
        rw [bscMsgFilterData_checked h]
        exact ⟨h,rfl⟩

theorem bscDtap_denied (h : (bscDtap lib net i k).2.denied = true) :
    (bscDtap lib net i k).1.filterState.imsiChecked = true := by
  unfold bscDtap at h ⊢
  split at h
  · cases h
  · rename_i msc hmsc
    split at h
    · cases h
    · rename_i hready
      rw [if_neg hready]
      split at h
      · rename_i msc' hcc
        rw [(moveToMsc_spec _ _ _ (handleCcSetup_kind hcc)).1] at h
        cases h
      · dsimp only at h
        split at h
        · rename_i hk
          split at h
          · rename_i imsi hi
            exact bscMsgFilterData_idResp hk hi
          · cases h
        · cases h

theorem dtaps_ended (h : k.ended = true) : ∀ s ∈ dtaps lib net k is, s = {} := by
  induction is with
  | nil => simp [dtaps]
  | cons i is ih =>
    simp only [dtaps,h,if_true]
    intro s hs
    rcases List.mem_cons.mp hs with rfl | hs
    · rfl
    · exact ih s hs

theorem dtaps_checked (h : k.filterState.imsiChecked = true) :
    ∀ s ∈ dtaps lib net k is, s.passed = s.asked := by
  induction is generalizing k with
  | nil => simp [dtaps]
  | cons i is ih =>
    intro s hs
    cases hk : k.ended with
    | true =>
      rw [dtaps_ended hk s hs]
    | false =>
      simp only [dtaps,hk] at hs
      obtain ⟨hchecked,hpassed⟩ := bscDtap_checked lib net i h
      rcases List.mem_cons.mp hs with rfl | hs
      · exact hpassed
      · exact ih hchecked s hs

/-- The messages after the first: what the filter is asked about passes, once a denied
IMSI was revealed. -/
theorem dtaps_sound_iff : Sound (dtaps lib net k is)
    ↔ (dtaps lib net k is).Pairwise fun a b => a.denied = true → b.asked = false := by
  induction is generalizing k with
  | nil => simp [dtaps,Sound]
  | cons i is ih =>
    unfold Sound at ih ⊢
    simp only [dtaps]
    split
    · simp only [List.pairwise_cons]
      refine and_congr ?_ ih
      simp
    · simp only [List.pairwise_cons]
      refine and_congr ?_ ih
      refine forall_congr' fun b => imp_congr_right fun hb => imp_congr_right fun hd => ?_
      rw [dtaps_checked (bscDtap_denied hd) b hb]

theorem bscComplL3_denied (h : (bscComplL3 lib net i k).2.denied = true) :
    (bscComplL3 lib net i k).1.ended = true := by
  unfold bscComplL3 at h ⊢
  split at h
  · rfl
  · dsimp only at h ⊢
    rw [completeLayer3_denied h]
    rfl

/-- No message of a connection passes after a denied IMSI was revealed, exactly if no
filter is asked about a message that follows an Identity Response with such an IMSI. -/
theorem sound_iff_lastWord (lib : Libosmogsm) (net : Network) (is : List Input) :
    Sound (connLife lib net is) ↔ LastWord (connLife lib net is) := by
  cases is with
  | nil => simp [connLife,Sound,LastWord]
  | cons i is =>
    simp only [connLife,LastWord]
    rw [← dtaps_sound_iff]
    unfold Sound
    rw [List.pairwise_cons]
    refine and_iff_right ?_
    intro b hb hd
    rw [dtaps_ended (bscComplL3_denied hd) b hb]

end Soundness

section Example

/-- A library that takes the octets as they are: the text of an identity is its octets. -/
def plainLib : Libosmogsm where
  hdrPdisc octet := octet &&& 0x0f
  hdrMsgType _ octet := octet &&& 0x3f
  miToString mi := (mi.length,mi)
  decodeCalled _ := none

def denyingNet : Network where
  accessLists := [⟨[0x61],[⟨none,some (· == [0x09,0x10,0x10,0x00,0x00,0x00,0x00,0x10]),0x0b,0x0b⟩]⟩]
  accLstName := some [0x61]
  mscs := []

def messageOf (octets : List UInt8) : L3Msg := ⟨fun i => octets.getD i 0,octets.length⟩

def upEnv : Env := ⟨some ⟨none,false,none⟩,true,true,true⟩

/-- A CM Service Request with a TMSI, an Identity Response with the IMSI, and CC SETUP. -/
def revealAndSetup : List Input :=
  [[0x05,0x24,0x01,0x03,0x33,0x19,0x81,0x05,0xf4,0x11,0x22,0x33,0x44],
    [0x05,0x19,0x08,0x09,0x10,0x10,0x00,0x00,0x00,0x00,0x10],[0x03,0x05,0x04]].map
    fun octets => ⟨messageOf octets,upEnv⟩

/-- The SETUP passes, although the IMSI before it was denied. -/
theorem setup_passes_after_denial :
    connLife plainLib denyingNet revealAndSetup
        = [{ asked := true, passed := true },{ asked := true, denied := true },
          { asked := true, passed := true }]
      ∧ ¬ Sound (connLife plainLib denyingNet revealAndSetup) := by
  have h : connLife plainLib denyingNet revealAndSetup
      = [{ asked := true, passed := true },{ asked := true, denied := true },
        { asked := true, passed := true }] := by decide
  refine ⟨h,?_⟩
  rw [h]
  simp [Sound]

end Example

end OsmoBsc.Filter
