import OsmoBsc.Lib.Scan
import OsmoBsc.Codec.Pref
import OsmoBsc.Hodec.Candidates
set_option autoImplicit false

namespace OsmoBsc.Hodec
open EventFsm Codec

structure RateRequirements where
  a : Bool := false
  b : Bool := false
  c : Bool := false
  deriving DecidableEq, Repr

/-- `requirements` of a `struct ho_candidate`. -/
structure Requirements where
  tchf : RateRequirements := {}
  tchh : RateRequirements := {}
  deriving DecidableEq, Repr

inductive ReqClass where
  | a
  | b
  | c
  deriving DecidableEq, Repr

def RateRequirements.has (r : RateRequirements) : ReqClass → Bool
  | .a => r.a
  | .b => r.b
  | .c => r.c

/-- A bit of the REQUIREMENT_A_MASK, REQUIREMENT_B_MASK or REQUIREMENT_C_MASK is set. -/
def Requirements.has (r : Requirements) (cls : ReqClass) : Bool := r.tchf.has cls || r.tchh.has cls

/-- What the decision reads of a BTS that a call may move to, for the subscriber's connection. -/
structure Target where
  hoActive : Bool := true
  penaltyTime : Bool := false
  codecHr : Bool := true
  codecEfr : Bool := true
  codecAmr : Bool := true
  tchfCount : Int
  tchhCount : Int
  handoverCount : Int := 0
  hoMax : Int := 9999
  tchfMinSlots : Int := 0
  tchhMinSlots : Int := 0
  afsBiasRxlev : Int := 0

/-- The configuration and the state that find_alternative_lchan() reads. -/
structure ChoiceConfig (V : Type) extends HoConfig V where
  target : NeighBts → Target
  remotePenaltyTime : V → Bool
  tchMode : ChanMode
  codecList : List SpeechCodecType

def codecTypeIsSupported (codecList : List SpeechCodecType) (type : SpeechCodecType) : Bool :=
  codecList.isEmpty || codecList.contains type

/-- The rates TCH/F and TCH/H that fit the speech codec in use, and `none` for no speech; a remote
BSS is taken to have every codec. -/
def codecRates (tchMode : ChanMode) (type : ChanT) (codecList : List SpeechCodecType)
    (hr efr amr : Bool) : Option (Bool × Bool) :=
  match tchMode with
  | .speechV1 => match type with
    | .tchF => some (true,false)
    | .tchH => some (false,hr && codecTypeIsSupported codecList .hr1)
    | _ => none
  | .speechEfr => some (efr && codecTypeIsSupported codecList .fr2,false)
  | .speechAmr => some (amr && codecTypeIsSupported codecList .fr3,amr && codecTypeIsSupported codecList .hr3)
  | _ => none

section Requirements

variable {V : Type} (cfg : ChoiceConfig V) (lchan : MeasLchan)

def checkRequirements (bts : NeighBts) : Requirements :=
  let current := cfg.bts
  let t := cfg.target bts
  if !(if current = bts then cfg.asActive else t.hoActive) then {}
  else if t.penaltyTime then {}
  else match codecRates cfg.tchMode lchan.type cfg.codecList t.codecHr t.codecEfr t.codecAmr with
    | none => {}
    | some (tchf,tchh) =>
      let tchf := tchf && t.tchfCount != 0 && !(current = bts && lchan.type = .tchF)
      let tchh := tchh && t.tchhCount != 0 && !(current = bts && lchan.type = .tchH)
      if current ≠ bts ∧ t.hoMax ≤ t.handoverCount then {}
      else
        let count := if lchan.type = .tchH then (cfg.target current).tchhCount else (cfg.target current).tchfCount
        { tchf := ⟨tchf,tchf && t.tchfMinSlots ≤ t.tchfCount - 1,tchf && count + 1 ≤ t.tchfCount - 1⟩
          tchh := ⟨tchh,tchh && t.tchhMinSlots ≤ t.tchhCount - 1,tchh && count + 1 ≤ t.tchhCount - 1⟩ }

def checkRequirementsRemoteBss (cil : V) : Requirements :=
  if cfg.remotePenaltyTime cil then {}
  else match codecRates cfg.tchMode lchan.type cfg.codecList true true true with
    | none => {}
    | some (tchf,tchh) => { tchf := ⟨tchf,tchf,tchf⟩, tchh := ⟨tchh,tchh,tchh⟩ }

end Requirements

structure Rated (V : Type) where
  cand : HoCandidate V
  requirements : Requirements
  deriving DecidableEq

section Choice

variable {V : Type} (cfg : ChoiceConfig V)

def HoCandidate.avg : HoCandidate V → Int
  | .assignment avg | .handover _ _ _ avg => avg

/-- The `bts` of the candidate, which a cell of a remote BSS does not have. -/
def HoCandidate.bts : HoCandidate V → Option NeighBts
  | .assignment _ => some cfg.bts
  | .handover _ bts _ _ => bts

def rate (lchan : MeasLchan) (cand : HoCandidate V) : Rated V where
  cand := cand
  requirements := match cand with
    | .assignment _ => checkRequirements cfg lchan cfg.bts
    | .handover _ (some bts) _ _ => checkRequirements cfg lchan bts
    | .handover _ none (some cil) _ => checkRequirementsRemoteBss cfg lchan cil
    | .handover _ none none _ => {}

/-- `clist` for an lchan. -/
def candidateList (lchan : MeasLchan) (includeWeakerRxlev : Bool) : List (Rated V) :=
  (collectCandidatesForLchan cfg.toHoConfig lchan includeWeakerRxlev).map (rate cfg lchan)

def Rated.eligible (cls : ReqClass) (c : Rated V) : Bool :=
  c.requirements.has cls && (cls == .a || (c.cand.bts cfg).isSome)

/-- `better`, with the AFS bias where it applies. -/
def Rated.better (ahs : Bool) (avRxlev : Int) (cls : ReqClass) (c : Rated V) : Int :=
  c.cand.avg - avRxlev +
    match c.cand.bts cfg with
    | some bts => if ahs && c.requirements.tchf.has cls then (cfg.target bts).afsBiasRxlev else 0
    | none => 0

/-- The pass over the candidates for a requirement. `better` is an `int`, and
`best_better_db`, which it is compared with and assigned to, is an `unsigned int`. -/
def bestCandidate (ahs : Bool) (avRxlev : Int) (cls : ReqClass) (clist : List (Rated V)) : Option (Rated V) :=
  Scan.keepBest (Rated.eligible cfg cls) (fun c => asUnsigned (c.better cfg ahs avRxlev cls)) clist none 0

/-- The candidate that is triggered, and for which requirement. -/
def findAlternativeLchan (ahs : Bool) (avRxlev : Int) (includeWeakerRxlev : Bool) (clist : List (Rated V)) :
    Option (Rated V × ReqClass) :=
  match bestCandidate cfg ahs avRxlev .b clist with
  | some c => some (c,.b)
  | none => match bestCandidate cfg ahs avRxlev .c clist with
    | some c => some (c,.c)
    | none =>
      if !includeWeakerRxlev then none
      else (bestCandidate cfg ahs avRxlev .a clist).map (·,.a)

def passes (includeWeakerRxlev : Bool) : List ReqClass := if includeWeakerRxlev then [.b,.c,.a] else [.b,.c]

def firstClass (includeWeakerRxlev : Bool) (clist : List (Rated V)) : Option ReqClass :=
  (passes includeWeakerRxlev).find? fun cls => clist.any (Rated.eligible cfg cls)

/-- An eligible candidate of the first class is chosen, and none has a larger improvement. -/
def ChosenBest (ahs : Bool) (avRxlev : Int) (includeWeakerRxlev : Bool) (clist : List (Rated V))
    (chosen : Option (Rated V × ReqClass)) : Prop :=
  match firstClass cfg includeWeakerRxlev clist with
  | none => chosen = none
  | some cls => ∃ c ∈ clist, chosen = some (c,cls) ∧ c.eligible cfg cls = true
    ∧ ∀ c' ∈ clist, c'.eligible cfg cls = true → c'.better cfg ahs avRxlev cls ≤ c.better cfg ahs avRxlev cls

/-- The candidates of the first class are all worse than the current level, or none of them
is and one is better. -/
def OneSign (ahs : Bool) (avRxlev : Int) (includeWeakerRxlev : Bool) (clist : List (Rated V)) : Prop :=
  ∀ cls, firstClass cfg includeWeakerRxlev clist = some cls →
    (∀ c ∈ clist, c.eligible cfg cls = true → c.better cfg ahs avRxlev cls < 0)
    ∨ ((∀ c ∈ clist, c.eligible cfg cls = true → 0 ≤ c.better cfg ahs avRxlev cls)
      ∧ ∃ c ∈ clist, c.eligible cfg cls = true ∧ 0 < c.better cfg ahs avRxlev cls)

/-- `better` is an `int`. -/
def InRange (ahs : Bool) (avRxlev : Int) (clist : List (Rated V)) : Prop :=
  ∀ c ∈ clist, ∀ cls, -2 ^ 31 ≤ c.better cfg ahs avRxlev cls ∧ c.better cfg ahs avRxlev cls < 2 ^ 31

end Choice

section Proof

variable {V : Type} {cfg : ChoiceConfig V} {ahs : Bool} {avRxlev : Int} {cls : ReqClass} {clist : List (Rated V)}

theorem asUnsigned_eq {x : Int} (hlow : -2 ^ 31 ≤ x) (hhigh : x < 2 ^ 31) :
    (asUnsigned x : Int) = if x < 0 then x + 2 ^ 32 else x := by
  unfold asUnsigned
  split <;> omega

/-- A pass finds nothing if the eligible candidates are all as good as the current level, and
else one whose improvement is the greatest as an unsigned number. -/
theorem bestCandidate_spec (hr : InRange cfg ahs avRxlev clist) :
    (bestCandidate cfg ahs avRxlev cls clist = none
      ∧ ∀ c ∈ clist, c.eligible cfg cls = true → c.better cfg ahs avRxlev cls = 0)
    ∨ ∃ c ∈ clist, bestCandidate cfg ahs avRxlev cls clist = some c ∧ c.eligible cfg cls = true
      ∧ c.better cfg ahs avRxlev cls ≠ 0
      ∧ ∀ c' ∈ clist, c'.eligible cfg cls = true →
        asUnsigned (c'.better cfg ahs avRxlev cls) ≤ asUnsigned (c.better cfg ahs avRxlev cls) := by
  rcases @Scan.keepBest_spec _ (Rated.eligible cfg cls) (fun c => asUnsigned (c.better cfg ahs avRxlev cls))
    clist none 0 with ⟨heq,hle⟩ | ⟨c,hc,heq,hel,hlt,hle⟩
  · refine .inl ⟨heq,fun c hc hel => ?_⟩
    obtain ⟨hlow,hhigh⟩ := hr c hc cls
    have hvalue := asUnsigned_eq hlow hhigh
    have hzero := hle c hc hel
    split at hvalue <;> omega
  · refine .inr ⟨c,hc,heq,hel,fun hzero => ?_,hle⟩
    simp only [hzero] at hlt
    exact absurd hlt (by decide)

theorem bestCandidate_none (h : clist.any (Rated.eligible cfg cls) = false) :
    bestCandidate cfg ahs avRxlev cls clist = none := by
  rcases @Scan.keepBest_spec _ (Rated.eligible cfg cls) (fun c => asUnsigned (c.better cfg ahs avRxlev cls))
    clist none 0 with ⟨heq,-⟩ | ⟨c,hc,-,hel,-⟩
  · exact heq
  · rw [List.any_eq_false] at h
    exact absurd hel (h c hc)

theorem findAlternativeLchan_first {weaker : Bool} :
    (firstClass cfg weaker clist = none → findAlternativeLchan cfg ahs avRxlev weaker clist = none)
    ∧ ∀ cls, firstClass cfg weaker clist = some cls →
      (∀ c, bestCandidate cfg ahs avRxlev cls clist = some c →
        findAlternativeLchan cfg ahs avRxlev weaker clist = some (c,cls))
      ∧ (bestCandidate cfg ahs avRxlev cls clist = none → ∀ c,
        findAlternativeLchan cfg ahs avRxlev weaker clist ≠ some (c,cls)) := by
  unfold firstClass passes findAlternativeLchan
  cases hb : clist.any (Rated.eligible cfg .b) with
  | true =>
    have hfirst : ∀ rest, (ReqClass.b :: rest).find? (fun cls => clist.any (Rated.eligible cfg cls)) = some .b :=
      fun rest => by simp [hb]
    have hsome : (if weaker = true then [ReqClass.b,.c,.a] else [.b,.c]).find?
        (fun cls => clist.any (Rated.eligible cfg cls)) = some .b := by
      split <;> exact hfirst _
    rw [hsome]
    refine ⟨fun h => (by cases h),fun cls h => ?_⟩
    cases h
    refine ⟨fun c h => by simp [h],fun h c => ?_⟩
    rw [h]
    cases bestCandidate cfg ahs avRxlev .c clist <;> cases weaker <;> simp
  | false =>
    rw [bestCandidate_none hb]
    cases hc : clist.any (Rated.eligible cfg .c) with
    | true =>
      have hsome : (if weaker = true then [ReqClass.b,.c,.a] else [.b,.c]).find?
          (fun cls => clist.any (Rated.eligible cfg cls)) = some .c := by
        split <;> simp [hb,hc]
      rw [hsome]
      refine ⟨fun h => (by cases h),fun cls h => ?_⟩
      cases h
      refine ⟨fun c h => by simp [h],fun h c => ?_⟩
      rw [h]
      cases weaker <;> simp
    | false =>
      rw [bestCandidate_none hc]
      cases weaker with
      | false => simp [hb,hc]
      | true =>
        cases ha : clist.any (Rated.eligible cfg .a) with
        | true =>
          have hsome : [ReqClass.b,.c,.a].find? (fun cls => clist.any (Rated.eligible cfg cls)) = some .a := by
            simp [hb,hc,ha]
          simp only [if_true,hsome]
          refine ⟨fun h => (by cases h),fun cls h => ?_⟩
          cases h
          refine ⟨fun c h => by simp [h],fun h c => by simp [h]⟩
        | false =>
          rw [bestCandidate_none ha]
          simp [hb,hc,ha]

/-- The best candidate of the first class is chosen if and only if its candidates do not
have improvements of both signs, or of 0 only. -/
theorem alternative_best_iff {weaker : Bool} (hr : InRange cfg ahs avRxlev clist) :
    ChosenBest cfg ahs avRxlev weaker clist (findAlternativeLchan cfg ahs avRxlev weaker clist)
      ↔ OneSign cfg ahs avRxlev weaker clist := by
  obtain ⟨hnone,hsome⟩ := @findAlternativeLchan_first V cfg ahs avRxlev clist weaker
  unfold ChosenBest OneSign
  cases hfirst : firstClass cfg weaker clist with
  | none => simp [hnone hfirst]
  | some cls =>
    obtain ⟨hfound,hmissed⟩ := hsome cls hfirst
    obtain ⟨e,he,heel⟩ : ∃ e ∈ clist, e.eligible cfg cls = true := by
      have h := List.find?_some hfirst
      simpa using h
    have hu : ∀ c ∈ clist, (asUnsigned (c.better cfg ahs avRxlev cls) : Int) =
        if c.better cfg ahs avRxlev cls < 0 then c.better cfg ahs avRxlev cls + 2 ^ 32
        else c.better cfg ahs avRxlev cls :=
      fun c hc => asUnsigned_eq (hr c hc cls).1 (hr c hc cls).2
    simp only [Option.some.injEq,forall_eq']
    rcases @bestCandidate_spec V cfg ahs avRxlev cls clist hr with ⟨hpass,hzero⟩ | ⟨c,hc,hpass,hel,hne,hmax⟩
    · constructor
      · rintro ⟨c,-,hchosen,-⟩
        exact absurd hchosen (hmissed hpass c)
      · rintro (hneg | ⟨-,c,hc,hel,hpos⟩)
        · have h1 := hneg e he heel
          have h2 := hzero e he heel
          omega
        · have h2 := hzero c hc hel
          omega
    · rw [hfound c hpass]
      constructor
      · rintro ⟨c',-,hchosen,-,hbest⟩
        cases hchosen
        by_cases hneg : c.better cfg ahs avRxlev cls < 0
        · exact .inl fun d hd hdel => Int.lt_of_le_of_lt (hbest d hd hdel) hneg
        · refine .inr ⟨fun d hd hdel => ?_,c,hc,hel,by omega⟩
          -- A negative improvement would have been the greater one.
          have hle := hmax d hd hdel
          have h1 := hu c hc
          have h2 := hu d hd
          have hrange := hr d hd cls
          have hrange' := hr c hc cls
          rw [if_neg hneg] at h1
          by_contra hd0
          rw [if_pos (by omega)] at h2
          omega
      · intro hsign
        refine ⟨c,hc,rfl,hel,fun d hd hdel => ?_⟩
        have hle := hmax d hd hdel
        have h1 := hu c hc
        have h2 := hu d hd
        rcases hsign with hneg | ⟨hnonneg,-⟩
        · rw [if_pos (hneg c hc hel)] at h1
          rw [if_pos (hneg d hd hdel)] at h2
          omega
        · have hcn := hnonneg c hc hel
          have hdn := hnonneg d hd hdel
          rw [if_neg (by omega)] at h1 h2
          omega

/-- Two neighbours, one 10 dB better and one 5 dB worse than the current cell. -/
def twoWays : ChoiceConfig Unit where
  bts := ⟨0,868,1⟩
  btsList := [⟨0,868,1⟩,⟨1,871,5⟩,⟨2,873,6⟩]
  neighborBssCells := some []
  fullTdma := true
  rxlevAvgWin := 1
  rxlevNeighAvgWin := 1
  asActive := false
  hoActive := true
  pwrHysteresis := 3
  minRxlev := fun _ => -100
  rxlev2dbm := fun avg => -110 + min 63 avg
  target := fun _ => { tchfCount := 4, tchhCount := 4 }
  remotePenaltyTime := fun _ => false
  tchMode := .speechV1
  codecList := []

def lchanAt20 : MeasLchan where
  type := .tchF
  neighMeas := fun j =>
    if j = 0 then { arfcn := 871, bsic := 5, rxlev := fun _ => 30, rxlevCnt := 1, lastSeenNr := 7 }
    else if j = 1 then { arfcn := 873, bsic := 6, rxlev := fun _ => 15, rxlevCnt := 1, lastSeenNr := 7 }
    else {}
  measRep := fun _ => { dlValid := true, dlFullRxLev := 20 }
  measRepIdx := 1
  measRepCount := 1
  measRepLastSeenNr := 7

theorem alternative_best_iff_two :
    ChosenBest twoWays false 20 false (candidateList twoWays lchanAt20 false)
      (findAlternativeLchan twoWays false 20 false (candidateList twoWays lchanAt20 false)) := by
  have hrange : InRange twoWays false 20 (candidateList twoWays lchanAt20 false) := by
    intro c hc cls
    revert c
    cases cls <;> decide +kernel
  refine (alternative_best_iff hrange).mpr fun cls hcls => .inr ?_
  have hfirst : firstClass twoWays false (candidateList twoWays lchanAt20 false) = some .b := by decide +kernel
  rw [hfirst] at hcls
  cases hcls
  decide +kernel

/-- When the level is critical, the worse neighbour is chosen. -/
theorem alternative_worse :
    ¬ ChosenBest twoWays false 20 true (candidateList twoWays lchanAt20 true)
      (findAlternativeLchan twoWays false 20 true (candidateList twoWays lchanAt20 true)) := by
  have hfirst : firstClass twoWays true (candidateList twoWays lchanAt20 true) = some .b := by decide +kernel
  have hchosen : ∀ c, findAlternativeLchan twoWays false 20 true (candidateList twoWays lchanAt20 true) = some (c,.b) →
      c.better twoWays false 20 .b = -5 := by
    have h : ∀ r, findAlternativeLchan twoWays false 20 true (candidateList twoWays lchanAt20 true) = some r →
        r.1.better twoWays false 20 .b = -5 := by
      decide +kernel
    exact fun c hc => h (c,.b) hc
  have hother : ∃ c ∈ candidateList twoWays lchanAt20 true, c.eligible twoWays .b = true
      ∧ c.better twoWays false 20 .b = 10 := by
    decide +kernel
  unfold ChosenBest
  rw [hfirst]
  rintro ⟨c,-,hc,-,hbest⟩
  obtain ⟨d,hd,hdel,hten⟩ := hother
  have hle := hbest d hd hdel
  rw [hchosen c hc,hten] at hle
  omega

end Proof

end OsmoBsc.Hodec
