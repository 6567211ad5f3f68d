import Mathlib.Data.List.Basic
import OsmoBsc.Chan.Types

set_option autoImplicit false

namespace OsmoBsc.Codec

open Chan (Pchan ChanRate RatePref)

/-- `enum gsm0808_permitted_speech`; the octets without a name are kept apart. -/
inductive PermSpeech where
  | fr1
  | fr2
  | fr3
  | fr4
  | fr5
  | hr1
  | hr2
  | hr3
  | hr4
  | hr6
  | other (code : Nat)
  deriving DecidableEq, Repr

inductive SpeechCodecType where
  | fr1
  | fr2
  | fr3
  | fr4
  | fr5
  | hr1
  | hr3
  | hr4
  | hr6
  | other (code : Nat)
  deriving DecidableEq, Repr

/-- `struct gsm0808_speech_codec`: the type and the AMR configurations S0 to S15. -/
structure SpeechCodec where
  type : SpeechCodecType
  cfg : BitVec 16
  deriving DecidableEq, Repr

/-- The functions of libosmocore that the codec choice uses, over the type of
`struct gsm48_multi_rate_conf`. -/
structure CodecLib (μ : Type) where
  /-- `gsm0808_speech_codec_from_chan_type`; none is an error. -/
  speechCodecFromChanType : PermSpeech → Option SpeechCodec
  /-- `gsm0808_sc_cfg_from_gsm48_mr_cfg`, for full rate or half rate. -/
  scCfgFromGsm48MrCfg : μ → Bool → BitVec 16

structure AudioSupport where
  hr : Bool
  ver : Nat
  deriving DecidableEq, Repr

/-- The fields of `struct bsc_msc_data` that the codec choice reads. -/
structure Msc (μ : Type) where
  audioSupport : List AudioSupport
  amrConf : μ

/-- The fields of `struct gsm_bts` that the codec choice reads: the physical channels
configured for the timeslots of each TRX, `bts_codec_conf`, and the AMR modes. -/
structure Bts (μ : Type) where
  pchanFromConfig : List (List Pchan)
  hr : Bool
  efr : Bool
  amr : Bool
  mrFull : μ
  mrHalf : μ

structure ChModeRate where
  chanMode : ChanMode
  chanRate : ChanRate
  s15S0 : BitVec 16
  deriving DecidableEq, Repr

/-- `full_rate_from_perm_spch`; none is an error. -/
def fullRateFromPermSpch : PermSpeech → Option Bool
  | .hr1 | .hr2 | .hr3 | .hr4 | .hr6 => some false
  | .fr1 | .fr2 | .fr3 | .fr4 | .fr5 => some true
  | .other _ => none

def gsm88ToChanMode : PermSpeech → ChanMode
  | .hr1 | .fr1 => .speechV1
  | .fr2 => .speechEfr
  | _ => .speechAmr

def audioSupportToGsm88 (audio : AudioSupport) : PermSpeech :=
  match audio.hr, audio.ver with
  | true, 2 => .hr2
  | true, 3 => .hr3
  | true, _ => .hr1
  | false, 2 => .fr2
  | false, 3 => .fr3
  | false, _ => .fr1

/-- The test of a timeslot in `test_codec_support_bts`. -/
def rateMatch (fullRate : Bool) (pchan : Pchan) : Bool :=
  pchan = .tchFTchHPdch || fullRate && pchan = .tchF || fullRate && pchan = .tchFPdch ||
    !fullRate && pchan = .tchH

section Match

variable {μ : Type} (lib : CodecLib μ) (msc : Msc μ) (bts : Bts μ)

def testCodecSupportBts (permSpch : PermSpeech) : Bool :=
  match fullRateFromPermSpch permSpch with
  | none => false
  | some fullRate =>
    if bts.pchanFromConfig.any (·.any (rateMatch fullRate)) then
      match permSpch with
      | .fr1 => true
      | .fr2 => bts.efr
      | .fr3 => bts.amr
      | .hr1 => bts.hr
      | .hr3 => bts.amr
      | _ => false
    else false

/-- `test_codec_pref`; the match comes with the entry of a speech codec list, if the MSC
sent one. -/
def testCodecPref (scl : List SpeechCodec) (permSpchs : List PermSpeech) (permSpch : PermSpeech) :
    Option (Option SpeechCodec) :=
  if scl = [] then if permSpch ∈ permSpchs then some none else none
  else if permSpch ∈ permSpchs then
    match lib.speechCodecFromChanType permSpch with
    | none => none
    | some sc => (scl.find? fun c => sc.type = c.type).map some
  else none

def genBssSupportedAmrS15S0 (hr : Bool) : BitVec 16 :=
  let amrS15S0Bts := if hr then lib.scCfgFromGsm48MrCfg bts.mrHalf false
    else lib.scCfgFromGsm48MrCfg bts.mrFull true
  amrS15S0Bts &&& lib.scCfgFromGsm48MrCfg msc.amrConf true

/-- `GSM0808_SC_CFG_AMR_4_75_5_90_7_40_12_20`, the configuration S1. -/
def scCfgS1 : BitVec 16 := 0x0002

def preferS1 (s15S0 : BitVec 16) : BitVec 16 :=
  if s15S0 &&& scCfgS1 ≠ 0 then s15S0 &&& 0xff00 ||| scCfgS1 else s15S0

/-- `match_amr_s15_s0`; none is an error. -/
def matchAmrS15S0 (scMatch : Option SpeechCodec) (permSpch : PermSpeech) : Option (BitVec 16) :=
  let supported := genBssSupportedAmrS15S0 lib msc bts (permSpch = .hr3)
  let s15S0 := preferS1 (match scMatch with
    | some sc => sc.cfg &&& supported
    | none => supported)
  if s15S0 &&& 0x00ff = 0 then none else some s15S0

def isAmr (permSpch : PermSpeech) : Bool := permSpch = .hr3 || permSpch = .fr3

/-- The rate is not the preferred one; no preference is `RATE_PREF_NONE`. -/
def discarded (ratePref : Option RatePref) (fullRate : Bool) : Bool :=
  ratePref = some .hr && fullRate || ratePref = some .fr && !fullRate

/-- The loop of `match_codec_pref` over the audio codecs of the MSC. -/
def matchLoop (permSpchs : List PermSpeech) (scl : List SpeechCodec) (ratePref : Option RatePref) :
    List AudioSupport → ChModeRate → Int × ChModeRate
  | [], _ => (-1,{ chanMode := .sign, chanRate := .sdcch, s15S0 := 0 })
  | audio :: rest, ch =>
    let permSpch := audioSupportToGsm88 audio
    match fullRateFromPermSpch permSpch with
    | none => (-22,ch)
    | some fullRate =>
      let ch := { ch with chanRate := if fullRate then .full else .half }
      if discarded ratePref fullRate then matchLoop permSpchs scl ratePref rest ch
      else if !testCodecSupportBts bts permSpch then matchLoop permSpchs scl ratePref rest ch
      else match testCodecPref lib scl permSpchs permSpch with
        | none => matchLoop permSpchs scl ratePref rest ch
        | some scMatch =>
          if isAmr permSpch then
            match matchAmrS15S0 lib msc bts scMatch permSpch with
            | none => matchLoop permSpchs scl ratePref rest { ch with s15S0 := 0 }
            | some s15S0 => (0,{ ch with s15S0, chanMode := gsm88ToChanMode permSpch })
          else (0,{ ch with s15S0 := 0, chanMode := gsm88ToChanMode permSpch })

def matchCodecPref (ch : ChModeRate) (permSpchs : List PermSpeech) (scl : List SpeechCodec)
    (ratePref : Option RatePref) : Int × ChModeRate :=
  matchLoop lib msc bts permSpchs scl ratePref msc.audioSupport ch

/-- The entry of `gen_bss_supported_codec_list` for an audio codec. -/
def supportedCodec (audio : AudioSupport) : Option SpeechCodec :=
  if testCodecSupportBts bts (audioSupportToGsm88 audio) then
    (lib.speechCodecFromChanType (audioSupportToGsm88 audio)).map fun sc =>
      if audio.ver = 3 then { sc with cfg := genBssSupportedAmrS15S0 lib msc bts audio.hr } else sc
  else none

def genBssSupportedCodecList : List SpeechCodec := msc.audioSupport.filterMap (supportedCodec lib msc bts)

end Match

section Spec

variable {μ : Type} (lib : CodecLib μ) (msc : Msc μ) (bts : Bts μ) (permSpchs : List PermSpeech)
  (scl : List SpeechCodec) (ratePref : Option RatePref)

/-- The AMR configurations that the MSC leaves for a type of speech codec: those of the
first entry of that type, or all without a speech codec list. -/
def amrLimit (permSpch : PermSpeech) : BitVec 16 :=
  match lib.speechCodecFromChanType permSpch with
  | none => BitVec.allOnes 16
  | some sc => ((scl.find? fun c => sc.type = c.type).map (·.cfg)).getD (BitVec.allOnes 16)

/-- The conditions on an audio codec: its rate is not excluded, the BTS supports it, the
channel type permits it, the speech codec list (if there is one) names it, and for AMR
the BTS, the MSC configuration and the speech codec list have a mode in common. -/
structure Suitable (audio : AudioSupport) : Prop where
  notFull : ratePref = some .hr → audio.hr = true
  notHalf : ratePref = some .fr → audio.hr = false
  supported : testCodecSupportBts bts (audioSupportToGsm88 audio) = true
  permitted : audioSupportToGsm88 audio ∈ permSpchs
  listed : scl ≠ [] → ∃ sc, lib.speechCodecFromChanType (audioSupportToGsm88 audio) = some sc ∧
    ∃ c ∈ scl, c.type = sc.type
  amrModes : isAmr (audioSupportToGsm88 audio) = true →
    amrLimit lib scl (audioSupportToGsm88 audio) &&& genBssSupportedAmrS15S0 lib msc bts audio.hr &&&
      0x00ff ≠ 0

/-- What an audio codec that is not passed over results in. -/
def entryResult (audio : AudioSupport) : Option ChModeRate :=
  let permSpch := audioSupportToGsm88 audio
  let ch s15S0 : ChModeRate :=
    { chanMode := gsm88ToChanMode permSpch, chanRate := if audio.hr then .half else .full, s15S0 }
  if discarded ratePref (!audio.hr) then none
  else if !testCodecSupportBts bts permSpch then none
  else (testCodecPref lib scl permSpchs permSpch).bind fun scMatch =>
    if isAmr permSpch then (matchAmrS15S0 lib msc bts scMatch permSpch).map ch else some (ch 0)

theorem fullRate_audioSupport (audio : AudioSupport) :
    fullRateFromPermSpch (audioSupportToGsm88 audio) = some (!audio.hr) := by
  rw [audioSupportToGsm88]
  split <;> simp_all [fullRateFromPermSpch]

theorem matchLoop_eq (l : List AudioSupport) (ch : ChModeRate) :
    matchLoop lib msc bts permSpchs scl ratePref l ch =
      (l.findSome? (entryResult lib msc bts permSpchs scl ratePref)).elim
        (-1,{ chanMode := .sign, chanRate := .sdcch, s15S0 := 0 }) fun r => (0,r) := by
  induction l generalizing ch with
  | nil => rfl
  | cons audio rest ih =>
    rw [matchLoop,List.findSome?_cons,entryResult]
    simp only [fullRate_audioSupport,ih]
    split
    · rfl
    · split
      · rfl
      · cases testCodecPref lib scl permSpchs (audioSupportToGsm88 audio) with
        | none => rfl
        | some scMatch =>
          simp only [Option.bind_some]
          split
          · cases matchAmrS15S0 lib msc bts scMatch (audioSupportToGsm88 audio) with
            | none => rfl
            | some s15S0 => cases audio.hr <;> rfl
          · cases audio.hr <;> rfl

theorem isAmr_audioSupport (audio : AudioSupport) :
    isAmr (audioSupportToGsm88 audio) = decide (audio.ver = 3) := by
  rw [audioSupportToGsm88]
  split <;> simp_all [isAmr]

theorem hr3_audioSupport {audio : AudioSupport} (h : audio.ver = 3) :
    decide (audioSupportToGsm88 audio = .hr3) = audio.hr := by
  rw [audioSupportToGsm88,h]
  cases audio.hr <;> rfl

theorem testCodecPref_eq_some {permSpch : PermSpeech} {scMatch : Option SpeechCodec} :
    testCodecPref lib scl permSpchs permSpch = some scMatch ↔ permSpch ∈ permSpchs ∧
      (scl = [] ∧ scMatch = none ∨ scl ≠ [] ∧ ∃ sc, lib.speechCodecFromChanType permSpch = some sc ∧
        ∃ c, scl.find? (fun c => sc.type = c.type) = some c ∧ scMatch = some c) := by
  rw [testCodecPref]
  by_cases hscl : scl = []
  · by_cases hp : permSpch ∈ permSpchs <;> simp [hscl,hp,eq_comm]
  · by_cases hp : permSpch ∈ permSpchs
    · rw [if_neg hscl,if_pos hp]
      cases lib.speechCodecFromChanType permSpch with
      | none => simp [hscl]
      | some sc => cases hf : scl.find? (fun c => sc.type = c.type) <;> simp [hscl,hp,hf,eq_comm]
    · simp [hscl,hp]

theorem amrLimit_of_match {permSpch : PermSpeech} {scMatch : Option SpeechCodec}
    (h : testCodecPref lib scl permSpchs permSpch = some scMatch) :
    amrLimit lib scl permSpch = (scMatch.map (·.cfg)).getD (BitVec.allOnes 16) := by
  rw [amrLimit]
  rcases ((testCodecPref_eq_some lib permSpchs scl).mp h).2 with ⟨rfl,rfl⟩ | ⟨-,sc,hsc,c,hc,rfl⟩
  · cases lib.speechCodecFromChanType permSpch <;> rfl
  · rw [hsc]
    simp [hc]

end Spec

section Modes

variable (x y : BitVec 16)

theorem and_eq_zero_iff : x &&& y = 0 ↔ ∀ i < 16, x.getLsbD i = true → y.getLsbD i = false := by
  constructor
  · intro h i hi hx
    have hb := congrArg (·.getLsbD i) h
    simpa [hx] using hb
  · intro h
    refine BitVec.eq_of_getLsbD_eq fun i hi => ?_
    cases hx : x.getLsbD i with
    | false => simp [hx]
    | true => simp [h i hi hx]

theorem getLsbD_s1 : ∀ i < 16, scCfgS1.getLsbD i = decide (i = 1) := by decide

theorem getLsbD_low : ∀ i < 16, (0x00ff : BitVec 16).getLsbD i = decide (i < 8) := by decide

theorem getLsbD_high : ∀ i < 16, (0xff00 : BitVec 16).getLsbD i = decide (8 ≤ i) := by decide

theorem getLsbD_preferS1 {i : Nat} (hi : i < 16) :
    (preferS1 x).getLsbD i = (x.getLsbD i && (!x.getLsbD 1 || decide (8 ≤ i) || decide (i = 1))) := by
  have hs1 : x &&& scCfgS1 ≠ 0 ↔ x.getLsbD 1 = true := by
    rw [ne_eq,and_eq_zero_iff]
    constructor
    · intro h
      by_contra h1
      refine h fun j hj hx => ?_
      rw [getLsbD_s1 j hj,decide_eq_false_iff_not]
      rintro rfl
      exact h1 hx
    · intro h1 h
      have hf := h 1 (by decide) h1
      rw [getLsbD_s1 1 (by decide)] at hf
      cases hf
  rw [preferS1]
  by_cases h1 : x.getLsbD 1 = true
  · rw [if_pos (hs1.mpr h1),BitVec.getLsbD_or,BitVec.getLsbD_and,getLsbD_high i hi,getLsbD_s1 i hi,h1]
    by_cases he : i = 1
    · simp [he,h1]
    · simp [he]
  · rw [if_neg fun h => h1 (hs1.mp h),eq_false_of_ne_true h1]
    simp

theorem preferS1_low : preferS1 x &&& 0x00ff = 0 ↔ x &&& 0x00ff = 0 := by
  rw [and_eq_zero_iff,and_eq_zero_iff]
  constructor
  · intro h i hi hx
    rw [getLsbD_low i hi,decide_eq_false_iff_not]
    intro h8
    by_cases h1 : x.getLsbD 1 = true
    · have hf := h 1 (by decide) (by rw [getLsbD_preferS1 x (by decide)]; simp [h1])
      rw [getLsbD_low 1 (by decide)] at hf
      cases hf
    · have hf := h i hi (by rw [getLsbD_preferS1 x hi,eq_false_of_ne_true h1]; simp [hx])
      rw [getLsbD_low i hi,decide_eq_false_iff_not] at hf
      exact hf h8
  · intro h i hi hx
    rw [getLsbD_preferS1 x hi,Bool.and_eq_true] at hx
    exact h i hi hx.1

theorem preferS1_subset : preferS1 (x &&& y) &&& ~~~y = 0 := by
  rw [and_eq_zero_iff]
  intro i hi hx
  rw [getLsbD_preferS1 _ hi,Bool.and_eq_true,BitVec.getLsbD_and,Bool.and_eq_true] at hx
  rw [BitVec.getLsbD_not,hx.1.2]
  simp

end Modes

section Result

variable {μ : Type} {lib : CodecLib μ} {msc : Msc μ} {bts : Bts μ} {permSpchs : List PermSpeech}
  {scl : List SpeechCodec} {ratePref : Option RatePref}

theorem matchAmrS15S0_eq (scMatch : Option SpeechCodec) (permSpch : PermSpeech) :
    matchAmrS15S0 lib msc bts scMatch permSpch =
      let modes := (scMatch.map (·.cfg)).getD (BitVec.allOnes 16) &&&
        genBssSupportedAmrS15S0 lib msc bts (permSpch = .hr3)
      if preferS1 modes &&& 0x00ff = 0 then none else some (preferS1 modes) := by
  cases scMatch with
  | none => simp only [matchAmrS15S0,Option.map_none,Option.getD_none,BitVec.allOnes_and]
  | some sc => rfl

theorem discarded_eq_false {audio : AudioSupport} : discarded ratePref (!audio.hr) = false ↔
    (ratePref = some .hr → audio.hr = true) ∧ (ratePref = some .fr → audio.hr = false) := by
  cases audio.hr <;> simp [discarded]

def commonModes (lib : CodecLib μ) (msc : Msc μ) (bts : Bts μ) (scl : List SpeechCodec)
    (audio : AudioSupport) : BitVec 16 :=
  amrLimit lib scl (audioSupportToGsm88 audio) &&& genBssSupportedAmrS15S0 lib msc bts audio.hr

theorem matchAmrS15S0_of_match {audio : AudioSupport} {scMatch : Option SpeechCodec} (hv : audio.ver = 3)
    (h : testCodecPref lib scl permSpchs (audioSupportToGsm88 audio) = some scMatch) :
    matchAmrS15S0 lib msc bts scMatch (audioSupportToGsm88 audio) =
      if commonModes lib msc bts scl audio &&& 0x00ff = 0 then none
      else some (preferS1 (commonModes lib msc bts scl audio)) := by
  rw [matchAmrS15S0_eq,← amrLimit_of_match lib permSpchs scl h,hr3_audioSupport hv]
  by_cases hm : commonModes lib msc bts scl audio &&& 0x00ff = 0
  · rw [if_pos hm]
    exact if_pos ((preferS1_low _).mpr hm)
  · rw [if_neg hm]
    exact if_neg fun h => hm ((preferS1_low _).mp h)

theorem testCodecPref_listed {audio : AudioSupport} {scMatch : Option SpeechCodec}
    (h : testCodecPref lib scl permSpchs (audioSupportToGsm88 audio) = some scMatch) (hscl : scl ≠ []) :
    ∃ sc, lib.speechCodecFromChanType (audioSupportToGsm88 audio) = some sc ∧
      ∃ c ∈ scl, c.type = sc.type := by
  rcases ((testCodecPref_eq_some lib permSpchs scl).mp h).2 with ⟨hnil,-⟩ | ⟨-,sc,hsc,c,hc,-⟩
  · exact absurd hnil hscl
  · have ht := List.find?_some hc
    exact ⟨sc,hsc,c,List.mem_of_find?_eq_some hc,(of_decide_eq_true ht).symm⟩

theorem entryResult_eq_some {audio : AudioSupport} {ch : ChModeRate}
    (h : entryResult lib msc bts permSpchs scl ratePref audio = some ch) :
    Suitable lib msc bts permSpchs scl ratePref audio ∧
      ch = { chanMode := gsm88ToChanMode (audioSupportToGsm88 audio)
             chanRate := if audio.hr then .half else .full
             s15S0 := if audio.ver = 3 then preferS1 (commonModes lib msc bts scl audio) else 0 } := by
  simp only [entryResult] at h
  cases hd : discarded ratePref (!audio.hr) with
  | true => simp [hd] at h
  | false =>
    cases hb : testCodecSupportBts bts (audioSupportToGsm88 audio) with
    | false => simp [hd,hb] at h
    | true =>
      cases ht : testCodecPref lib scl permSpchs (audioSupportToGsm88 audio) with
      | none => simp [hd,hb,ht] at h
      | some scMatch =>
        obtain ⟨hfull,hhalf⟩ := discarded_eq_false.mp hd
        have hperm := ((testCodecPref_eq_some lib permSpchs scl).mp ht).1
        by_cases hv : audio.ver = 3
        · simp only [hd,hb,ht,isAmr_audioSupport,hv,matchAmrS15S0_of_match hv ht,Option.bind_some,
            decide_true,if_true] at h
          by_cases hm : commonModes lib msc bts scl audio &&& 0x00ff = 0
          · simp only [if_pos hm] at h
            cases h
          · simp only [if_neg hm] at h
            refine ⟨⟨hfull,hhalf,hb,hperm,testCodecPref_listed ht,fun _ => hm⟩,?_⟩
            simpa [hv] using h.symm
        · simp only [hd,hb,ht,isAmr_audioSupport,hv,Option.bind_some] at h
          refine ⟨⟨hfull,hhalf,hb,hperm,testCodecPref_listed ht,fun ha => ?_⟩,?_⟩
          · rw [isAmr_audioSupport] at ha
            exact absurd (of_decide_eq_true ha) hv
          · simpa [hv] using h.symm

theorem entryResult_isSome {audio : AudioSupport}
    (h : Suitable lib msc bts permSpchs scl ratePref audio) :
    ∃ ch, entryResult lib msc bts permSpchs scl ratePref audio = some ch := by
  have hd := discarded_eq_false.mpr ⟨h.notFull,h.notHalf⟩
  obtain ⟨scMatch,ht⟩ : ∃ scMatch, testCodecPref lib scl permSpchs (audioSupportToGsm88 audio) = some scMatch := by
    by_cases hscl : scl = []
    · exact ⟨none,(testCodecPref_eq_some lib permSpchs scl).mpr ⟨h.permitted,.inl ⟨hscl,rfl⟩⟩⟩
    · obtain ⟨sc,hsc,c,hc,htype⟩ := h.listed hscl
      cases hf : scl.find? (fun c => sc.type = c.type) with
      | none => exact absurd htype.symm (by simpa using List.find?_eq_none.mp hf c hc)
      | some c' =>
        exact ⟨some c',(testCodecPref_eq_some lib permSpchs scl).mpr
          ⟨h.permitted,.inr ⟨hscl,sc,hsc,c',hf,rfl⟩⟩⟩
  simp only [entryResult,hd,h.supported,ht,isAmr_audioSupport,Option.bind_some]
  by_cases hv : audio.ver = 3
  · have hm : ¬ commonModes lib msc bts scl audio &&& 0x00ff = 0 := h.amrModes (by simp [isAmr_audioSupport,hv])
    simp only [matchAmrS15S0_of_match hv ht,if_neg hm]
    simp [hv]
  · simp [hv]

def speechVersions : List PermSpeech := [.fr1,.fr2,.fr3,.hr1,.hr3]

theorem testCodecSupportBts_mem {permSpch : PermSpeech} (h : testCodecSupportBts bts permSpch = true) :
    permSpch ∈ speechVersions := by
  cases permSpch <;> simp_all [testCodecSupportBts,fullRateFromPermSpch,speechVersions]

theorem suitable_announced {audio : AudioSupport}
    (hlib : ∀ p ∈ speechVersions, ∃ sc, lib.speechCodecFromChanType p = some sc)
    (hmem : audio ∈ msc.audioSupport) (h : Suitable lib msc bts permSpchs scl ratePref audio) :
    ∃ sc ∈ genBssSupportedCodecList lib msc bts, ∃ sc',
      lib.speechCodecFromChanType (audioSupportToGsm88 audio) = some sc' ∧ sc.type = sc'.type ∧
        (audio.ver = 3 → preferS1 (commonModes lib msc bts scl audio) &&& ~~~sc.cfg = 0) := by
  obtain ⟨sc',hsc'⟩ := hlib _ (testCodecSupportBts_mem h.supported)
  by_cases hv : audio.ver = 3
  · refine ⟨{ sc' with cfg := genBssSupportedAmrS15S0 lib msc bts audio.hr },?_,sc',hsc',rfl,
      fun _ => preferS1_subset _ _⟩
    exact List.mem_filterMap.mpr ⟨audio,hmem,by simp [supportedCodec,h.supported,hsc',hv]⟩
  · refine ⟨sc',?_,sc',hsc',rfl,fun h3 => absurd h3 hv⟩
    exact List.mem_filterMap.mpr ⟨audio,hmem,by simp [supportedCodec,h.supported,hsc',hv]⟩

end Result

/-- `match_codec_pref` succeeds if and only if an audio codec of the MSC is suitable. It
takes the first one, with a mode set that is not empty for AMR, and a codec that was
announced to the MSC. -/
theorem matchCodecPref_spec {μ : Type} (lib : CodecLib μ) (msc : Msc μ) (bts : Bts μ) (ch : ChModeRate)
    (permSpchs : List PermSpeech) (scl : List SpeechCodec) (ratePref : Option RatePref)
    (hlib : ∀ p ∈ speechVersions, ∃ sc, lib.speechCodecFromChanType p = some sc) :
    let r := matchCodecPref lib msc bts ch permSpchs scl ratePref
    let suits := Suitable lib msc bts permSpchs scl ratePref
    (r.1 = 0 ↔ ∃ audio ∈ msc.audioSupport, suits audio) ∧
      (r.1 = 0 → ∃ pre audio post, msc.audioSupport = pre ++ audio :: post ∧
        (∀ a ∈ pre, ¬ suits a) ∧ suits audio ∧
        r.2.chanMode = gsm88ToChanMode (audioSupportToGsm88 audio) ∧
        r.2.chanRate = (if audio.hr then .half else .full) ∧
        (isAmr (audioSupportToGsm88 audio) = true → r.2.s15S0 ≠ 0) ∧
        ∃ sc ∈ genBssSupportedCodecList lib msc bts, ∃ sc',
          lib.speechCodecFromChanType (audioSupportToGsm88 audio) = some sc' ∧ sc.type = sc'.type ∧
            (isAmr (audioSupportToGsm88 audio) = true → r.2.s15S0 &&& ~~~sc.cfg = 0)) := by
  intro r suits
  have hr : r = _ := matchLoop_eq lib msc bts permSpchs scl ratePref msc.audioSupport ch
  cases hf : msc.audioSupport.findSome? (entryResult lib msc bts permSpchs scl ratePref) with
  | none =>
    have hrc : r.1 ≠ 0 := by
      rw [hr,hf]
      decide
    refine ⟨iff_of_false hrc ?_,fun h => absurd h hrc⟩
    rintro ⟨audio,hmem,hs⟩
    obtain ⟨ch',hch⟩ := entryResult_isSome hs
    rw [List.findSome?_eq_none_iff.mp hf audio hmem] at hch
    cases hch
  | some ch' =>
    have hrc : r = (0,ch') := by
      rw [hr,hf]
      rfl
    obtain ⟨pre,audio,post,hl,he,hpre⟩ := List.findSome?_eq_some_iff.mp hf
    obtain ⟨hs,rfl⟩ := entryResult_eq_some he
    have hmem : audio ∈ msc.audioSupport := by simp [hl]
    refine ⟨iff_of_true (by rw [hrc]) ⟨audio,hmem,hs⟩,fun _ => ⟨pre,audio,post,hl,fun a ha hsa => ?_,hs,?_⟩⟩
    · obtain ⟨ch',hch⟩ := entryResult_isSome hsa
      rw [hpre a ha] at hch
      cases hch
    · obtain ⟨sc,hsc,sc',hsc',htype,hmodes⟩ := suitable_announced hlib hmem hs
      rw [hrc]
      refine ⟨rfl,rfl,fun ha => ?_,sc,hsc,sc',hsc',htype,fun ha => ?_⟩
      · have hlow := hs.amrModes ha
        rw [isAmr_audioSupport] at ha
        rw [if_pos (of_decide_eq_true ha)]
        intro hz
        change preferS1 (commonModes lib msc bts scl audio) = 0 at hz
        have hnone : preferS1 (commonModes lib msc bts scl audio) &&& 0x00ff = 0 := by
          rw [hz]
          rfl
        exact hlow ((preferS1_low _).mp hnone)
      · rw [isAmr_audioSupport] at ha
        rw [if_pos (of_decide_eq_true ha)]
        exact hmodes (of_decide_eq_true ha)

/-- Functions of libosmocore for a network whose only AMR mode is 5.90. -/
def amr590Lib : CodecLib Unit where
  speechCodecFromChanType
    | .fr1 => some ⟨.fr1,0⟩
    | .fr2 => some ⟨.fr2,0⟩
    | .fr3 => some ⟨.fr3,0x57ff⟩
    | .fr4 => some ⟨.fr4,0⟩
    | .fr5 => some ⟨.fr5,0⟩
    | .hr1 => some ⟨.hr1,0⟩
    | .hr3 => some ⟨.hr3,0x073f⟩
    | .hr4 => some ⟨.hr4,0⟩
    | .hr6 => some ⟨.hr6,0⟩
    | _ => none
  scCfgFromGsm48MrCfg _ _ := 0x0004

/-- The MSC prefers EFR, which the BTS does not support, to AMR, and AMR to GSM-FR: AMR is chosen. -/
theorem matchCodecPref_spec_fr3 :
    let msc : Msc Unit := { audioSupport := [⟨false,2⟩,⟨false,3⟩,⟨false,1⟩], amrConf := () }
    let bts : Bts Unit := { pchanFromConfig := [[.ccchSdcch4,.tchF]], hr := true, efr := false, amr := true
                            mrFull := (), mrHalf := () }
    let permSpchs : List PermSpeech := [.fr1,.fr2,.fr3]
    let scl : List SpeechCodec := [⟨.fr1,0⟩,⟨.fr3,0x57ff⟩]
    let r := matchCodecPref amr590Lib msc bts ⟨.sign,.sdcch,0⟩ permSpchs scl none
    r = (0,{ chanMode := .speechAmr, chanRate := .full, s15S0 := 0x0004 }) ∧
      ∃ pre audio post, msc.audioSupport = pre ++ audio :: post ∧
        (∀ a ∈ pre, ¬ Suitable amr590Lib msc bts permSpchs scl none a) ∧
        Suitable amr590Lib msc bts permSpchs scl none audio := by
  intro msc bts permSpchs scl r
  have hlib : ∀ p ∈ speechVersions, ∃ sc, amr590Lib.speechCodecFromChanType p = some sc := by
    intro p hp
    simp only [speechVersions,List.mem_cons,List.not_mem_nil,or_false] at hp
    rcases hp with rfl | rfl | rfl | rfl | rfl <;> exact ⟨_,rfl⟩
  have hr : r = (0,{ chanMode := .speechAmr, chanRate := .full, s15S0 := 0x0004 }) := by decide +kernel
  have hzero : r.1 = 0 := by rw [hr]
  obtain ⟨pre,audio,post,happ,hpre,hsuits,-⟩ :=
    (matchCodecPref_spec amr590Lib msc bts ⟨.sign,.sdcch,0⟩ permSpchs scl none hlib).2 hzero
  exact ⟨hr,pre,audio,post,happ,hpre,hsuits⟩

end OsmoBsc.Codec
