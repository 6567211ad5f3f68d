import OsmoBsc.Hodec.Alternative
set_option autoImplicit false

/-! The channel type that a handover or an assignment is requested with. -/

namespace OsmoBsc.Hodec
open EventFsm Codec

/-- `requirements` with the mask of a class, as the two rates that are left of it. -/
structure ClassMask where
  tchf : Bool
  tchh : Bool
  deriving DecidableEq, Repr

/-- `requirements & REQUIREMENT_A_MASK` and so on. -/
def Requirements.masked (r : Requirements) (cls : ReqClass) : ClassMask := ⟨r.tchf.has cls,r.tchh.has cls⟩

/-- `struct handover_out_req` of HODEC2 for an lchan. -/
structure HandoverOutReq where
  targetNik : Neighbor.Key
  newLchanType : ChanT
  deriving DecidableEq, Repr

def btsIdentKey (bts : NeighBts) : Neighbor.Key := ⟨0,bts.arfcn,bts.bsic⟩

/-- The switch over the channel type: what is returned early, or whether the new channel is of full rate. -/
def selectTchRate (type : ChanT) (sameBts afsImproved : Bool) (requirements : ClassMask) : Int ⊕ Bool :=
  match type with
  | .tchF =>
    if requirements.tchf then if sameBts then .inl 0 else .inr true
    else if !requirements.tchh then .inl (-eInval)
    else .inr false
  | .tchH =>
    if afsImproved && requirements.tchf then .inr true
    else if requirements.tchf && !requirements.tchh then .inr true
    else if !requirements.tchh then .inl (-eInval)
    else if sameBts then .inl 0
    else .inr false
  | _ => .inl (-eInval)

section Trigger

variable {V : Type} (cfg : ChoiceConfig V) (lchan : MeasLchan)

def triggerLocalHoOrAs (newBts : NeighBts) (requirements : ClassMask) : Int × Option HandoverOutReq :=
  let afsBias := if cfg.tchMode = .speechAmr then (cfg.target newBts).afsBiasRxlev else 0
  match selectTchRate lchan.type (cfg.bts = newBts) (0 < afsBias) requirements with
  | .inl rc => (rc,none)
  | .inr fullRate => (0,some ⟨btsIdentKey newBts,if fullRate then .tchF else .tchH⟩)

def triggerRemoteBssHo (nik : Neighbor.Key) : Int × Option HandoverOutReq := (0,some ⟨nik,.none⟩)

/-- trigger_ho(): a candidate of the own cell is an assignment. -/
def triggerHo (cand : HoCandidate V) (requirements : ClassMask) : Int × Option HandoverOutReq :=
  match cand with
  | .assignment _ => triggerLocalHoOrAs cfg lchan cfg.bts requirements
  | .handover _ (some bts) _ _ => triggerLocalHoOrAs cfg lchan bts requirements
  | .handover nik none _ _ => triggerRemoteBssHo nik

end Trigger

def ClassMask.allows (m : ClassMask) : ChanT → Bool
  | .tchF => m.tchf
  | .tchH => m.tchh
  | _ => false

/-- The speech codec of a channel mode on a TCH. -/
def speechCodec : ChanMode → ChanT → Option SpeechCodecType
  | .speechV1,.tchF => some .fr1
  | .speechV1,.tchH => some .hr1
  | .speechEfr,.tchF => some .fr2
  | .speechAmr,.tchF => some .fr3
  | .speechAmr,.tchH => some .hr3
  | _,_ => none

def Target.supports (t : Target) : SpeechCodecType → Bool
  | .fr1 => true
  | .hr1 => t.codecHr
  | .fr2 => t.codecEfr
  | .fr3 | .hr3 => t.codecAmr
  | _ => false

/-- What the MS has. FR1 need not be in its list, and without a list everything is taken to be supported. -/
def msAccepts (codecList : List SpeechCodecType) (type : SpeechCodecType) : Bool :=
  type == .fr1 || codecTypeIsSupported codecList type

section Requests

variable {V : Type} {cfg : ChoiceConfig V} {lchan : MeasLchan} {bts : NeighBts} {requirements : ClassMask}
  {req : HandoverOutReq}

theorem selectTchRate_allows {type : ChanT} {sameBts afsImproved fullRate : Bool}
    (h : selectTchRate type sameBts afsImproved requirements = .inr fullRate) :
    requirements.allows (if fullRate then .tchF else .tchH) = true
      ∧ (sameBts = true → (if fullRate then ChanT.tchF else .tchH) ≠ type) := by
  obtain ⟨tchf,tchh⟩ := requirements
  revert h
  cases type <;> revert tchf tchh sameBts afsImproved fullRate <;> decide

theorem triggerLocalHoOrAs_type (h : (triggerLocalHoOrAs cfg lchan bts requirements).2 = some req) :
    req.targetNik = btsIdentKey bts ∧ requirements.allows req.newLchanType = true
      ∧ (cfg.bts = bts → req.newLchanType ≠ lchan.type) := by
  unfold triggerLocalHoOrAs at h
  dsimp only at h
  split at h
  · cases h
  · rename_i fullRate hrate
    obtain ⟨hallows,hsame⟩ := selectTchRate_allows hrate
    cases h
    exact ⟨rfl,hallows,fun hbts => hsame (decide_eq_true hbts)⟩

theorem selectTchRate_rate {type : ChanT} {sameBts afsImproved : Bool} {requirements : ClassMask}
    (htype : type = .tchF ∨ type = .tchH) (hreq : (requirements.tchf || requirements.tchh) = true)
    (hown : sameBts = true → requirements.allows type = false) :
    ∃ fullRate, selectTchRate type sameBts afsImproved requirements = .inr fullRate := by
  obtain ⟨tchf,tchh⟩ := requirements
  revert hreq hown
  rcases htype with rfl | rfl
  · revert tchf tchh sameBts afsImproved
    decide
  · revert tchf tchh sameBts afsImproved
    decide

/-- A request is made unless only what the call has on its own BTS is allowed. -/
theorem triggerLocalHoOrAs_isSome (htype : lchan.type = .tchF ∨ lchan.type = .tchH)
    (hreq : (requirements.tchf || requirements.tchh) = true)
    (hown : cfg.bts = bts → requirements.allows lchan.type = false) :
    (triggerLocalHoOrAs cfg lchan bts requirements).2.isSome = true := by
  unfold triggerLocalHoOrAs
  dsimp only
  obtain ⟨fullRate,hrate⟩ := selectTchRate_rate htype hreq
    fun hsame => hown (of_decide_eq_true hsame)
  rw [hrate]
  rfl

theorem checkRequirements_own (cfg : ChoiceConfig V) (lchan : MeasLchan) (cls : ReqClass)
    (htype : lchan.type = .tchF ∨ lchan.type = .tchH) :
    ((checkRequirements cfg lchan cfg.bts).masked cls).allows lchan.type = false := by
  have hhas : (RateRequirements.mk false false false).has cls = false := by cases cls <;> rfl
  have hnone : (({} : Requirements).masked cls).allows lchan.type = false := by
    rcases htype with htype | htype
    · rw [htype]
      exact hhas
    · rw [htype]
      exact hhas
  unfold checkRequirements
  dsimp only
  by_cases hoff : (!(if cfg.bts = cfg.bts then cfg.asActive else (cfg.target cfg.bts).hoActive)) = true
  · rw [if_pos hoff]
    exact hnone
  rw [if_neg hoff]
  by_cases hpenalty : (cfg.target cfg.bts).penaltyTime = true
  · rw [if_pos hpenalty]
    exact hnone
  rw [if_neg hpenalty]
  cases codecRates cfg.tchMode lchan.type cfg.codecList (cfg.target cfg.bts).codecHr (cfg.target cfg.bts).codecEfr
      (cfg.target cfg.bts).codecAmr with
  | none => exact hnone
  | some rates =>
    dsimp only
    rw [if_neg (fun hmax => hmax.1 rfl)]
    rcases htype with htype | htype
    · simp [htype,Requirements.masked,ClassMask.allows,hhas]
    · simp [htype,Requirements.masked,ClassMask.allows,hhas]

/-- No requirement is fulfilled, or requirement A is at most for the rates that fit the codec, and B and C
need it. -/
theorem checkRequirements_cases (cfg : ChoiceConfig V) (lchan : MeasLchan) (bts : NeighBts) :
    checkRequirements cfg lchan bts = {}
    ∨ ∃ tchf tchh freef freeh newf newh bf bh cf ch, codecRates cfg.tchMode lchan.type cfg.codecList (cfg.target bts).codecHr
        (cfg.target bts).codecEfr (cfg.target bts).codecAmr = some (tchf,tchh)
      ∧ checkRequirements cfg lchan bts =
        { tchf := ⟨tchf && freef && newf,tchf && freef && newf && bf,tchf && freef && newf && cf⟩
          tchh := ⟨tchh && freeh && newh,tchh && freeh && newh && bh,tchh && freeh && newh && ch⟩ } := by
  unfold checkRequirements
  dsimp only
  by_cases hoff : (!(if cfg.bts = bts then cfg.asActive else (cfg.target bts).hoActive)) = true
  · rw [if_pos hoff]
    exact .inl rfl
  rw [if_neg hoff]
  by_cases hpenalty : (cfg.target bts).penaltyTime = true
  · rw [if_pos hpenalty]
    exact .inl rfl
  rw [if_neg hpenalty]
  cases hrates : codecRates cfg.tchMode lchan.type cfg.codecList (cfg.target bts).codecHr (cfg.target bts).codecEfr
      (cfg.target bts).codecAmr with
  | none => exact .inl rfl
  | some rates =>
    dsimp only
    by_cases hmax : cfg.bts ≠ bts ∧ (cfg.target bts).hoMax ≤ (cfg.target bts).handoverCount
    · rw [if_pos hmax]
      exact .inl rfl
    rw [if_neg hmax]
    exact .inr ⟨rates.1,rates.2,_,_,_,_,_,_,_,_,rfl,rfl⟩

/-- A rate for which a requirement is fulfilled fulfils requirement A, and fits the codec. -/
theorem checkRequirements_rates (cfg : ChoiceConfig V) (lchan : MeasLchan) (bts : NeighBts) (cls : ReqClass) :
    ((checkRequirements cfg lchan bts).tchf.has cls = true →
      (checkRequirements cfg lchan bts).tchf.a = true
        ∧ ∃ tchh, codecRates cfg.tchMode lchan.type cfg.codecList (cfg.target bts).codecHr (cfg.target bts).codecEfr
          (cfg.target bts).codecAmr = some (true,tchh))
    ∧ ((checkRequirements cfg lchan bts).tchh.has cls = true →
      (checkRequirements cfg lchan bts).tchh.a = true
        ∧ ∃ tchf, codecRates cfg.tchMode lchan.type cfg.codecList (cfg.target bts).codecHr (cfg.target bts).codecEfr
          (cfg.target bts).codecAmr = some (tchf,true)) := by
  have hhas : ∀ {a b c : Bool}, (RateRequirements.mk a (a && b) (a && c)).has cls = true → a = true := by
    intro a b c h
    cases a with
    | false => cases cls <;> cases h
    | true => rfl
  obtain h | ⟨tchf,tchh,_,_,_,_,_,_,_,_,hrates,h⟩ := checkRequirements_cases cfg lchan bts
  · rw [h]
    constructor
    · intro hf
      exact absurd (@hhas false false false hf) (by decide)
    · intro hh
      exact absurd (@hhas false false false hh) (by decide)
  · rw [h,hrates]
    constructor
    · intro hf
      have ha := hhas hf
      refine ⟨ha,tchh,?_⟩
      simp only [Bool.and_eq_true] at ha
      rw [ha.1.1]
    · intro hh
      have ha := hhas hh
      refine ⟨ha,tchf,?_⟩
      simp only [Bool.and_eq_true] at ha
      rw [ha.1.1]

theorem codecRates_tchf {mode : ChanMode} {type : ChanT} {codecList : List SpeechCodecType} {t : Target} {tchh : Bool}
    (h : codecRates mode type codecList t.codecHr t.codecEfr t.codecAmr = some (true,tchh)) :
    ∃ codec, speechCodec mode .tchF = some codec ∧ t.supports codec = true ∧ msAccepts codecList codec = true := by
  cases mode with
  | speechV1 => exact ⟨.fr1,rfl,rfl,rfl⟩
  | speechEfr =>
    simp only [codecRates,Option.some.injEq,Prod.mk.injEq,Bool.and_eq_true] at h
    exact ⟨.fr2,rfl,h.1.1,h.1.2⟩
  | speechAmr =>
    simp only [codecRates,Option.some.injEq,Prod.mk.injEq,Bool.and_eq_true] at h
    exact ⟨.fr3,rfl,h.1.1,h.1.2⟩
  | _ => cases h

theorem codecRates_tchh {mode : ChanMode} {type : ChanT} {codecList : List SpeechCodecType} {t : Target} {tchf : Bool}
    (h : codecRates mode type codecList t.codecHr t.codecEfr t.codecAmr = some (tchf,true)) :
    ∃ codec, speechCodec mode .tchH = some codec ∧ t.supports codec = true ∧ msAccepts codecList codec = true := by
  cases mode with
  | speechV1 =>
    cases type with
    | tchH =>
      simp only [codecRates,Option.some.injEq,Prod.mk.injEq,Bool.and_eq_true] at h
      exact ⟨.hr1,rfl,h.2.1,h.2.2⟩
    | _ => cases h
  | speechEfr => cases h
  | speechAmr =>
    simp only [codecRates,Option.some.injEq,Prod.mk.injEq,Bool.and_eq_true] at h
    exact ⟨.hr3,rfl,h.2.1,h.2.2⟩
  | _ => cases h

end Requests

/-- A request is for a rate of the class that the candidate was chosen for, and an assignment changes the
rate. What is fulfilled for a rate needs requirement A, and that the BTS and the MS have the codec. -/
theorem requestedType_honours {V : Type} (cfg : ChoiceConfig V) (lchan : MeasLchan) (bts : NeighBts) :
    (∀ (r : Requirements) (cls : ReqClass) (req : HandoverOutReq),
      (triggerLocalHoOrAs cfg lchan bts (r.masked cls)).2 = some req →
      (req.newLchanType = .tchF ∧ r.tchf.has cls = true ∨ req.newLchanType = .tchH ∧ r.tchh.has cls = true)
      ∧ (cfg.bts = bts → req.newLchanType ≠ lchan.type))
    ∧ ∀ cls,
      ((checkRequirements cfg lchan bts).tchf.has cls = true → (checkRequirements cfg lchan bts).tchf.a = true
        ∧ ∃ codec, speechCodec cfg.tchMode .tchF = some codec ∧ (cfg.target bts).supports codec = true
          ∧ msAccepts cfg.codecList codec = true)
      ∧ ((checkRequirements cfg lchan bts).tchh.has cls = true → (checkRequirements cfg lchan bts).tchh.a = true
        ∧ ∃ codec, speechCodec cfg.tchMode .tchH = some codec ∧ (cfg.target bts).supports codec = true
          ∧ msAccepts cfg.codecList codec = true) := by
  constructor
  · intro r cls req h
    obtain ⟨-,hallows,hsame⟩ := triggerLocalHoOrAs_type h
    refine ⟨?_,hsame⟩
    cases htype : req.newLchanType with
    | tchF =>
      rw [htype] at hallows
      exact .inl ⟨rfl,hallows⟩
    | tchH =>
      rw [htype] at hallows
      exact .inr ⟨rfl,hallows⟩
    | _ =>
      rw [htype] at hallows
      cases hallows
  · intro cls
    obtain ⟨hf,hh⟩ := checkRequirements_rates cfg lchan bts cls
    constructor
    · intro h
      obtain ⟨ha,_,hrates⟩ := hf h
      exact ⟨ha,codecRates_tchf hrates⟩
    · intro h
      obtain ⟨ha,_,hrates⟩ := hh h
      exact ⟨ha,codecRates_tchh hrates⟩

/-- A call on TCH/F of a MS that has only the half rate codec in its list. -/
def onlyHr1 : ChoiceConfig Unit := { twoWays with codecList := [SpeechCodecType.hr1] }

theorem requestedType_honours_handover :
    (triggerLocalHoOrAs onlyHr1 lchanAt20 ⟨1,871,5⟩
      ((checkRequirements onlyHr1 lchanAt20 ⟨1,871,5⟩).masked .b)).2 = some ⟨⟨0,871,5⟩,.tchF⟩
    ∧ (checkRequirements onlyHr1 lchanAt20 ⟨1,871,5⟩).tchf.b = true := by
  have hreq : (triggerLocalHoOrAs onlyHr1 lchanAt20 ⟨1,871,5⟩
      ((checkRequirements onlyHr1 lchanAt20 ⟨1,871,5⟩).masked .b)).2 = some ⟨⟨0,871,5⟩,.tchF⟩ := by decide
  refine ⟨hreq,?_⟩
  obtain ⟨⟨-,h⟩ | ⟨h,-⟩,-⟩ := (requestedType_honours onlyHr1 lchanAt20 ⟨1,871,5⟩).1 _ _ _ hreq
  · exact h
  · cases h

/-- The requirements of TCH/F are fulfilled although FR1 is not in the list. -/
theorem requirement_unlisted :
    ¬ ((checkRequirements onlyHr1 lchanAt20 ⟨1,871,5⟩).tchf.a = true →
      ∃ codec ∈ onlyHr1.codecList, speechCodec onlyHr1.tchMode .tchF = some codec
        ∧ (onlyHr1.target ⟨1,871,5⟩).supports codec = true) := by
  decide

end OsmoBsc.Hodec
