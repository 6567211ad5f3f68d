import OsmoBsc.Lcls.Media
set_option autoImplicit false

namespace OsmoBsc.Lcls
open EventFsm Pairing

/-- The three inputs that set up LCLS for one leg, in the order in which the
Assignment Request and the completed assignment bring them. -/
def legSetup (g : List UInt8) (c : ConnId) : List Input :=
  [.setGcr c g,.update c (some cfgBothWay) (some cscConnect),.apply c]

/-- What the setup of two legs does not change. -/
structure Ready (g : List UInt8) (net : Net) (c d : ConnId) : Prop where
  len : 13 ≤ g.length ∧ g.length ≤ 15
  live : net.live c
  live' : net.live d
  ne : d ≠ c
  third {e : ConnId} : net.live e → e ≠ c → e ≠ d → net.gcr e ≠ g
  enabled : (net.conn c).msc.lclsMode ≠ .disabled
  enabled' : (net.conn d).msc.lclsMode ≠ .disabled
  lchans : ∃ l l', (net.conn c).lchan = some l ∧ (net.conn d).lchan = some l' ∧
    l.type = l'.type ∧ l.tchMode = l'.tchMode

/-- The leg after the first `i` of its three inputs, as far as it depends on them. -/
structure LegAt (g : List UInt8) (net : Net) (c : ConnId) (i : Nat) : Prop where
  gcr : 1 ≤ i → net.gcr c = g
  config : 2 ≤ i → (net.conn c).config = cfgBothWay ∧ (net.conn c).control = cscConnect
  st : i ≤ 2 → net.st c = some .noLcls ∧ net.other c = none

def Early (net : Net) (c d : ConnId) : Prop :=
  (net.st c = some .notPossibleLs ∧ net.other c = none) ∨
    ((net.st c = some .notYetLs ∨ net.st c = some .locallySwitched) ∧ net.other c = some d)

def Switched (net : Net) (c d : ConnId) : Prop :=
  net.st c = some .locallySwitched ∧ net.st d = some .locallySwitched ∧
    net.other c = some d ∧ net.other d = some c

/-- The two legs after the first `i` inputs of the one and the first `j` of the other. -/
structure SetupAt (g : List UInt8) (net : Net) (c d : ConnId) (i j : Nat) : Prop where
  ready : Ready g net c d
  leg : LegAt g net c i
  leg' : LegAt g net d j
  early : i = 3 → j ≤ 2 → Early net c d
  early' : j = 3 → i ≤ 2 → Early net d c
  both : i = 3 → j = 3 → Switched net c d

variable {g : List UInt8} {net net' : Net} {c d : ConnId} {i j : Nat}

theorem Ready.swap (h : Ready g net c d) : Ready g net d c where
  len := h.len
  live := h.live'
  live' := h.live
  ne := h.ne.symm
  third he hd hc := h.third he hc hd
  enabled := h.enabled'
  enabled' := h.enabled
  lchans := by
    obtain ⟨l,l',hl,hl',ht,hm⟩ := h.lchans
    exact ⟨l',l,hl',hl,ht.symm,hm.symm⟩

theorem SetupAt.swap (h : SetupAt g net c d i j) : SetupAt g net d c j i where
  ready := h.ready.swap
  leg := h.leg'
  leg' := h.leg
  early := h.early'
  early' := h.early
  both hj hi := by
    obtain ⟨h1,h2,h3,h4⟩ := h.both hi hj
    exact ⟨h2,h1,h4,h3⟩

theorem Ready.find (h : Ready g net c d) (hc : net.gcr c = g) :
    findConnWithSameGcr net c = if net.gcr d = g then some d else none := by
  split
  · rename_i hd
    cases hf : findConnWithSameGcr net c with
    | none =>
      have hn := List.find?_eq_none.mp hf d h.live'
      have : (net.conn d).globalCallRef = (net.conn c).globalCallRef := hd.trans hc.symm
      simp [h.ne,this] at hn
    | some e =>
      obtain ⟨he,hec,heg⟩ := findConnWithSameGcr_eq hf
      by_cases hed : e = d
      · rw [hed]
      · exact absurd (heg.trans hc) (h.third he hec hed)
  · rename_i hd
    cases hf : findConnWithSameGcr net c with
    | none => rfl
    | some e =>
      obtain ⟨he,hec,heg⟩ := findConnWithSameGcr_eq hf
      by_cases hed : e = d
      · exact absurd (hed ▸ heg.trans hc) hd
      · exact absurd (heg.trans hc) (h.third he hec hed)

theorem Ready.frame {net1 : Net} (h : Ready g net c d) (hl : net1.subscrConns = net.subscrConns)
    (hs : SameConfig net net1) : Ready g net1 c d := by
  have hx : ∀ x, (net1.conn x).globalCallRef = (net.conn x).globalCallRef ∧
      (net1.conn x).msc = (net.conn x).msc ∧ (net1.conn x).lchan = (net.conn x).lchan := by
    intro x
    have hx := hs x
    simp only [Conn.mk.injEq] at hx
    exact ⟨hx.2.1,hx.2.2.2.2.2.2.2.1,hx.2.2.2.2.2.1⟩
  have hlive := live_congr hl
  constructor
  · exact h.len
  · rw [hlive]; exact h.live
  · rw [hlive]; exact h.live'
  · exact h.ne
  · intro e he hec hed
    rw [hlive] at he
    rw [Net.gcr,(hx e).1]
    exact h.third he hec hed
  · rw [(hx c).2.1]; exact h.enabled
  · rw [(hx d).2.1]; exact h.enabled'
  · rw [(hx c).2.2,(hx d).2.2]; exact h.lchans

theorem LegAt.frame {net1 : Net} (h : LegAt g net c i) (hs : SameConfig net net1)
    (hst : i ≤ 2 → net1.st c = net.st c ∧ net1.other c = net.other c) : LegAt g net1 c i := by
  have hx := hs c
  simp only [Conn.mk.injEq] at hx
  constructor
  · intro hi
    rw [Net.gcr,hx.2.1]
    exact h.gcr hi
  · intro hi
    rw [hx.2.2.1,hx.2.2.2.1]
    exact h.config hi
  · intro hi
    rw [(hst hi).1,(hst hi).2]
    exact h.st hi

theorem Ready.lchan (h : Ready g net c d) : (net.conn c).lchan.isSome := by
  obtain ⟨l,_,hl,_⟩ := h.lchans
  simp [hl]

/-- Two legs of the same channel type and mode can be enabled as soon as both
have the config and control for it. -/
theorem Ready.canEnable (h : Ready g net c d) (hc : LegAt g net c i) (hi : 2 ≤ i)
    (hd : LegAt g net d j) (hj : 2 ≤ j) : canEnable (net.conn c) (net.conn d) = true := by
  obtain ⟨l,l',hl,hl',ht,hm⟩ := h.lchans
  simp [Lcls.canEnable,hc.config hi,hd.config hj,hl,hl',ht,hm,lclsIsSupportedConfig]

section Total

theorem lclsMdcx_total {redirect : Redirect} (hc : (net.conn c).lchan.isSome) :
    lclsMdcx net c redirect = .ok (net.setRedirect c redirect) := by
  obtain ⟨l,hl⟩ := Option.isSome_iff_exists.mp hc
  simp [lclsMdcx,hl]

theorem lclsRsl_enable_total (hc : (net.conn c).lchan.isSome) (hd : (net.conn d).lchan.isSome)
    (hcd : net.other c = some d) (hl : net.live d) :
    lclsRsl net c true = .ok (net.setRedirect c .toPeer) := by
  have hcd' : (net.conn c).other = some d := hcd
  obtain ⟨l,hlc⟩ := Option.isSome_iff_exists.mp hc
  obtain ⟨l',hld⟩ := Option.isSome_iff_exists.mp hd
  simp [lclsRsl,hlc,hcd',Net.deref_live hl,hld]

theorem lclsLocallySwitchedOnenter_total (hc : (net.conn c).lchan.isSome)
    (hd : (net.conn d).lchan.isSome) (hcd : net.other c = some d) (hl : net.live d) :
    ∃ net', lclsLocallySwitchedOnenter net c = .ok net' ∧ SameConfig net net' := by
  have hcd' : (net.conn c).other = some d := hcd
  have hr := SameConfig.setRedirect net c .toPeer
  have htoggle : ∃ b, lclsCheckToggleAllowed net c = .ok b := by
    simp only [lclsCheckToggleAllowed,lclsModeMismatch,hcd',Net.deref_live hl,ok_bind,pure_eq_ok]
    split
    · exact ⟨_,rfl⟩
    · split <;> exact ⟨_,rfl⟩
  obtain ⟨b,hb⟩ := htoggle
  simp only [lclsLocallySwitchedOnenter,hcd',hb,ok_bind,Net.deref_live hl]
  cases b with
  | false => exact ⟨net,rfl,.refl net⟩
  | true =>
    simp only [Bool.not_true,Bool.false_eq_true,if_false]
    split
    · exact ⟨net,rfl,.refl net⟩
    · split
      · exact ⟨net,rfl,.refl net⟩
      · split
        · exact ⟨_,lclsMdcx_total hc,hr⟩
        · exact ⟨_,lclsRsl_enable_total hc hd hcd hl,hr⟩
        · exact ⟨net,rfl,.refl net⟩

theorem lclsStateChg_ls_total {s : LclsState} (hs : net.st c = some s)
    (hc : (net.conn c).lchan.isSome) (hd : (net.conn d).lchan.isSome)
    (hcd : net.other c = some d) (hl : net.live d) :
    ∃ net', lclsStateChg net c .locallySwitched = .ok net' ∧ SameConfig net net' ∧
      Becomes net net' (Function.update net.st c (some .locallySwitched)) net.other := by
  have hout : lclsFsm.outState s .locallySwitched = true := by cases s <;> rfl
  have hfi : (net.conn c).fi = some s := hs
  have hset := SameConfig.setFi net c .locallySwitched
  have hlchan : ∀ x, ((net.setFi c .locallySwitched).conn x).lchan = (net.conn x).lchan := by
    intro x
    have hx := hset x
    simp only [Conn.mk.injEq] at hx
    exact hx.2.2.2.2.2.1
  have hcd' : (net.setFi c .locallySwitched).other c = some d := by simpa using hcd
  have hl' : (net.setFi c .locallySwitched).live d := hl
  obtain ⟨net',hnet,hsame⟩ := lclsLocallySwitchedOnenter_total (by rwa [hlchan])
    (by rwa [hlchan]) hcd' hl'
  have heq : lclsStateChg net c .locallySwitched = .ok net' := by
    simp only [lclsStateChg,hfi,hout,Bool.not_true,Bool.false_eq_true,if_false,if_true]
    exact hnet
  exact ⟨net',heq,hset.trans hsame,lclsStateChg_becomes hs hout heq⟩

theorem otherEnabled_dropped {n : Nat} (hd : net.live d)
    (hs : net.st d = some .noLcls ∨ net.st d = some .locallySwitched) :
    lclsDispatch (n+1) net d (.otherEnabled c) = .ok net := by
  rcases hs with hs | hs <;> rw [lclsDispatch_of_st hd hs] <;> rfl

theorem correlated_dropped {n : Nat} (hd : net.live d)
    (hs : net.st d = some .noLcls ∨ net.st d = some .locallySwitched) :
    lclsDispatch (n+1) net d (.correlated c) = .ok net := by
  rcases hs with hs | hs <;> rw [lclsDispatch_of_st hd hs] <;> rfl

theorem otherEnabled_total {n : Nat} (hc : (net.conn c).lchan.isSome)
    (hd : (net.conn d).lchan.isSome) (hlc : net.live c) (hld : net.live d)
    (hdc : net.other d = some c) (hs : net.st d = some .notYetLs)
    (hcan : canEnable (net.conn d) (net.conn c) = true) :
    ∃ net', lclsDispatch (n+1) net d (.otherEnabled c) = .ok net' ∧ SameConfig net net' ∧
      Becomes net net' (Function.update net.st d (some .locallySwitched)) net.other := by
  have hdc' : (net.conn d).other = some c := hdc
  have hposs := lclsEnablePossible_eq hd hc hdc hlc
  obtain ⟨net',hnet,hsame,hb⟩ := lclsStateChg_ls_total hs hd hc hdc hlc
  refine ⟨lclsSendNotify net' d,?_,hsame.notify d,hb.notify d⟩
  rw [lclsDispatch_of_st hld hs]
  simp [lclsFsm,LclsEvent.kind,lclsAction,lclsNotYetLsFn,followPeer,osmoAssert,hdc',hposs,hcan,hnet]

theorem Early.correlated {n : Nat} (h : Early net d c) (hd : net.live d) :
    ∃ net', lclsDispatch (n+1) net d (.correlated c) = .ok net' ∧ SameConfig net net' ∧
      ∃ s, (s = .notYetLs ∨ s = .locallySwitched) ∧
        Becomes net net' (Function.update net.st d (some s))
          (Function.update net.other d (some c)) := by
  rcases h with ⟨hs,hother⟩ | ⟨hs | hs,hother⟩
  · have hother' : (net.conn d).other = none := hother
    have hfi : ((net.setOther d (some c)).conn d).fi = some .notPossibleLs := by
      change (net.setOther d (some c)).st d = _
      simpa using hs
    refine ⟨lclsSendNotify ((net.setOther d (some c)).setFi d .notYetLs) d,?_,?_,.notYetLs,
      .inl rfl,?_⟩
    · rw [lclsDispatch_of_st hd hs]
      simp [lclsFsm,LclsEvent.kind,lclsAction,lclsNotPossibleLsFn,osmoAssert,hother',lclsStateChg,hfi]
    · exact ((SameConfig.setOther net d _).trans (.setFi _ d _)).notify d
    · have h1 := setOther_becomes net d (some c)
      have h2 := setFi_becomes (net.setOther d (some c)) d .notYetLs
      rw [h1.st,h1.other] at h2
      exact (h1.trans h2).notify d
  · have hother' : (net.conn d).other = some c := hother
    refine ⟨net.setOther d (some c),?_,.setOther net d _,.notYetLs,.inl rfl,?_⟩
    · rw [lclsDispatch_of_st hd hs]
      simp [lclsFsm,LclsEvent.kind,lclsAction,lclsNotYetLsFn,osmoAssert,hother']
    · rw [← hs,Function.update_eq_self]
      exact setOther_becomes net d (some c)
  · refine ⟨net,correlated_dropped hd (.inr hs),.refl net,.locallySwitched,.inr rfl,?_⟩
    rw [← hs,← hother,Function.update_eq_self,Function.update_eq_self]
    exact Same.refl net

end Total

theorem SetupAt.apply_eq {n : Nat} (h : SetupAt g net c d 2 j) :
    lclsDispatch (n+1) net c .applyCfgCsc = (do
      let (net,found) ← lclsPerformCorrelation (lclsDispatch n) net c
      if !found then lclsStateChg net c .notPossibleLs
      else
        osmoAssert ((net.conn c).other ≠ none)
        if ← lclsEnablePossible net c then enableLs (lclsDispatch n) net c
        else lclsStateChg net c .notYetLs) := by
  obtain ⟨hst,hother⟩ := h.leg.st (by omega)
  have hother' : (net.conn c).other = none := hother
  have hg : (net.conn c).globalCallRef = g := h.leg.gcr (by omega)
  have hne : g ≠ [] := by
    rintro rfl
    simpa using h.ready.len.1
  have hcfg : (net.conn c).config ≠ cfgNa := by
    rw [(h.leg.config (by omega)).1]
    decide
  rw [lclsDispatch_of_st h.ready.live hst]
  simp [lclsFsm,LclsEvent.kind,lclsAction,lclsNoLclsFn,osmoAssert,hother',h.ready.enabled,hg,hne,
    hcfg]

theorem SetupAt.correlate_eq {n : Nat} (h : SetupAt g net c d 2 j) :
    lclsPerformCorrelation (lclsDispatch n) net c =
      if net.gcr d = g then (do
        let net ← lclsDispatch n (net.setOther c (some d)) d (.correlated c)
        pure (net,true))
      else .ok (net,false) := by
  obtain ⟨hst,hother⟩ := h.leg.st (by omega)
  have hother' : (net.conn c).other = none := hother
  have hfi : (net.conn c).fi = some .noLcls := hst
  have hg : (net.conn c).globalCallRef = g := h.leg.gcr (by omega)
  have hne : g ≠ [] := by
    rintro rfl
    simpa using h.ready.len.1
  simp only [lclsPerformCorrelation,osmoAssert,hg,ne_eq,hne,not_false_eq_true,if_true,ok_bind,hfi,
    Option.map_some,LclsState.isLs,Option.some.injEq,Bool.false_eq_true,breakCorrelation,hother',
    h.ready.find (h.leg.gcr (by omega))]
  by_cases hd : net.gcr d = g
  · simp [hd]
  · simp [hd]

theorem LegAt.applied {net1 : Net} (h : LegAt g net c 2) (hs : SameConfig net net1) :
    LegAt g net1 c 3 := by
  have hx := hs c
  simp only [Conn.mk.injEq] at hx
  constructor
  · intro _
    rw [Net.gcr,hx.2.1]
    exact h.gcr (by omega)
  · intro _
    rw [hx.2.2.1,hx.2.2.2.1]
    exact h.config (by omega)
  · omega

theorem SetupAt.applyFirst_ok (h : SetupAt g net c d 2 j) (hj : j ≤ 2) :
    ∃ net', lclsApplyConfig net c = .ok net' ∧ SameConfig net net' ∧
      ∃ s o, Becomes net net' (Function.update net.st c (some s)) (Function.update net.other c o) ∧
        ((s = .notPossibleLs ∧ o = none) ∨
          ((s = .notYetLs ∨ s = .locallySwitched) ∧ o = some d)) := by
  obtain ⟨hst,hother⟩ := h.leg.st (by omega)
  obtain ⟨hstd,hotherd⟩ := h.leg'.st hj
  have hdc := h.ready.ne
  rw [lclsApplyConfig,dispatchDepth,h.apply_eq,h.correlate_eq]
  by_cases hd : net.gcr d = g
  · -- the other leg is found, and drops the news because it is still in NO_LCLS
    have h1 := setOther_becomes net c (some d)
    have hs1 := SameConfig.setOther net c (some d)
    have hready := h.ready.frame h1.subscrConns hs1
    have hstd1 : (net.setOther c (some d)).st d = some .noLcls := by simpa using hstd
    have hst1 : (net.setOther c (some d)).st c = some .noLcls := by simpa using hst
    have hcd1 : (net.setOther c (some d)).other c = some d := by simp
    have hcd1' : ((net.setOther c (some d)).conn c).other = some d := hcd1
    simp only [hd,if_true,correlated_dropped hready.live' (.inl hstd1),ok_bind,pure_eq_ok,
      Bool.not_true,Bool.false_eq_true,if_false,osmoAssert,hcd1',ne_eq,reduceCtorEq,
      not_false_eq_true,lclsEnablePossible_eq hready.lchan hready.swap.lchan hcd1 hready.live']
    cases canEnable ((net.setOther c (some d)).conn c) ((net.setOther c (some d)).conn d) with
    | true =>
      obtain ⟨net2,hnet2,hs2,hb2⟩ := lclsStateChg_ls_total hst1 hready.lchan hready.swap.lchan hcd1
        hready.live'
      have hcd2 : (net2.conn c).other = some d := by
        change net2.other c = some d
        rw [hb2.other,hcd1]
      have hd2 : net2.live d := by
        rw [live_congr hb2.subscrConns]
        exact hready.live'
      have hstd2 : net2.st d = some .noLcls := by simpa [hb2.st,hdc] using hstd
      rw [h1.st,h1.other] at hb2
      refine ⟨net2,?_,hs1.trans hs2,.locallySwitched,some d,h1.trans hb2,.inr ⟨.inr rfl,rfl⟩⟩
      simp only [if_true,enableLs,hnet2,ok_bind,hcd2]
      exact otherEnabled_dropped hd2 (.inl hstd2)
    | false =>
      have hb2 := setFi_becomes (net.setOther c (some d)) c .notYetLs
      have hfi : ((net.setOther c (some d)).conn c).fi = some .noLcls := hst1
      rw [h1.st,h1.other] at hb2
      refine ⟨_,?_,hs1.trans (.setFi _ c .notYetLs),.notYetLs,some d,h1.trans hb2,
        .inr ⟨.inl rfl,rfl⟩⟩
      simp [lclsStateChg,hfi,lclsFsm]
  · have hfi : (net.conn c).fi = some .noLcls := hst
    have hb := setFi_becomes net c .notPossibleLs
    refine ⟨net.setFi c .notPossibleLs,?_,.setFi net c _,.notPossibleLs,none,?_,.inl ⟨rfl,rfl⟩⟩
    · simp [hd,lclsStateChg,hfi,lclsFsm]
    · rw [← hother,Function.update_eq_self]
      exact hb

theorem SetupAt.applyFirst (h : SetupAt g net c d 2 j) (hj : j ≤ 2) :
    ∃ net', net.step (.apply c) = .ok net' ∧ SetupAt g net' c d 3 j := by
  obtain ⟨net',hnet,hsame,s,o,hb,hso⟩ := h.applyFirst_ok hj
  have hlive : c ∈ net.subscrConns := h.ready.live
  have hdc := h.ready.ne
  refine ⟨net',by simpa [Net.step,hlive] using hnet,?_⟩
  constructor
  · exact h.ready.frame hb.subscrConns hsame
  · exact h.leg.applied hsame
  · refine h.leg'.frame hsame fun _ => ⟨?_,?_⟩
    · simp [hb.st,hdc]
    · simp [hb.other,hdc]
  · intro _ _
    unfold Early
    rw [hb.st,hb.other,Function.update_self,Function.update_self]
    rcases hso with ⟨rfl,rfl⟩ | ⟨rfl | rfl,rfl⟩ <;> simp
  · omega
  · omega

theorem SetupAt.applySecond (h : SetupAt g net c d 2 3) :
    ∃ net', net.step (.apply c) = .ok net' ∧ SetupAt g net' c d 3 3 := by
  obtain ⟨hst,hother⟩ := h.leg.st (by omega)
  have hearly := h.early' rfl (by omega)
  have hdc := h.ready.ne
  have hlive : c ∈ net.subscrConns := h.ready.live
  -- after the correlation
  have h1 := setOther_becomes net c (some d)
  have hearly1 : Early (net.setOther c (some d)) d c := by
    simpa [Early,hdc] using hearly
  have hd1 : (net.setOther c (some d)).live d := h.ready.live'
  obtain ⟨net2,hcor,hsame2,s,hs,hb2⟩ := hearly1.correlated (n := 1) hd1
  rw [h1.st,h1.other] at hb2
  have hb12 := h1.trans hb2
  have hs12 := (SameConfig.setOther net c (some d)).trans hsame2
  have hready := h.ready.frame hb12.subscrConns hs12
  have hcd : net2.other c = some d := by simp [hb2.other,hdc.symm]
  have hcd' : (net2.conn c).other = some d := hcd
  have hst2 : net2.st c = some .noLcls := by simpa [hb2.st,hdc.symm] using hst
  have hcan : canEnable (net2.conn c) (net2.conn d) = true := by
    rw [hs12.canEnable_eq]
    exact h.ready.canEnable h.leg (by omega) h.leg' (by omega)
  -- the leg becomes locally switched
  obtain ⟨net3,hchg,hsame3,hb3⟩ := lclsStateChg_ls_total hst2 hready.lchan hready.swap.lchan hcd
    hready.live'
  have hs13 := hs12.trans hsame3
  have hready3 := h.ready.frame (hb12.trans hb3).subscrConns hs13
  have hcd3 : net3.other c = some d := by rw [hb3.other,hcd]
  have hcd3' : (net3.conn c).other = some d := hcd3
  have hdc3 : net3.other d = some c := by
    rw [hb3.other]
    simp [hb2.other]
  have hstd3 : net3.st d = some s := by simp [hb3.st,hb2.st,hdc]
  -- and the other one follows, or is so already
  have hex : ∃ net', lclsDispatch 2 net3 d (.otherEnabled c) = .ok net' ∧ SameConfig net3 net' ∧
      Becomes net3 net' (Function.update net3.st d (some .locallySwitched)) net3.other := by
    rcases hs with rfl | rfl
    · apply otherEnabled_total hready3.lchan hready3.swap.lchan hready3.live hready3.live' hdc3 hstd3
      rw [hs13.canEnable_eq]
      exact h.ready.swap.canEnable h.leg' (by omega) h.leg (by omega)
    · refine ⟨net3,otherEnabled_dropped hready3.live' (.inr hstd3),.refl net3,?_⟩
      rw [← hstd3,Function.update_eq_self]
      exact Same.refl net3
  obtain ⟨net',hen,hsame',hb'⟩ := hex
  have hsame := hs13.trans hsame'
  have hgcr : net.gcr d = g := h.leg'.gcr (by omega)
  refine ⟨net',?_,?_⟩
  · simp only [Net.step,hlive,if_true]
    rw [lclsApplyConfig,dispatchDepth,h.apply_eq,h.correlate_eq]
    simp only [hgcr,if_true,hcor,ok_bind,pure_eq_ok,Bool.not_true,Bool.false_eq_true,if_false,
      osmoAssert,hcd',ne_eq,reduceCtorEq,not_false_eq_true,
      lclsEnablePossible_eq hready.lchan hready.swap.lchan hcd hready.live',hcan,enableLs,hchg,
      hcd3']
    exact hen
  · have hswitched : Switched net' c d := by
      refine ⟨?_,?_,?_,?_⟩
      · simp [hb'.st,hb3.st,hdc.symm]
      · simp [hb'.st]
      · rw [hb'.other,hcd3]
      · rw [hb'.other,hdc3]
    constructor
    · exact hready3.frame hb'.subscrConns hsame'
    · exact h.leg.applied hsame
    · exact h.leg'.frame hsame (by omega)
    · omega
    · omega
    · exact fun _ _ => hswitched

/-- A step that changes only the call reference, config and control of one leg
that is not applied yet. -/
theorem SetupAt.own {conn : Conn} (h : SetupAt g net c d i j) (hi : i ≤ 1)
    (hst : conn.fi = (net.conn c).fi) (hother : conn.other = (net.conn c).other)
    (hmsc : conn.msc = (net.conn c).msc) (hlchan : conn.lchan = (net.conn c).lchan)
    (hgcr : conn.globalCallRef = g)
    (hcfg : 1 ≤ i → conn.config = cfgBothWay ∧ conn.control = cscConnect) :
    SetupAt g (net.upd c fun _ => conn) c d (i+1) j := by
  have hdc := h.ready.ne
  have hd : (net.upd c fun _ => conn).conn d = net.conn d := net.upd_conn_ne _ hdc
  have hc : (net.upd c fun _ => conn).conn c = conn := net.upd_conn_self ..
  obtain ⟨hst0,hother0⟩ := h.leg.st (by omega)
  have hearly : Early net d c → Early (net.upd c fun _ => conn) d c := by
    simp only [Early,Net.st,Net.other,hd]
    exact id
  constructor
  · constructor
    · exact h.ready.len
    · exact h.ready.live
    · exact h.ready.live'
    · exact hdc
    · intro e he hec hed
      rw [Net.gcr,net.upd_conn_ne _ hec]
      exact h.ready.third he hec hed
    · rw [hc,hmsc]; exact h.ready.enabled
    · rw [hd]; exact h.ready.enabled'
    · rw [hc,hd,hlchan]; exact h.ready.lchans
  · constructor
    · intro _
      rw [Net.gcr,hc,hgcr]
    · intro hi'
      rw [hc]
      exact hcfg (by omega)
    · intro _
      simp only [Net.st,Net.other,hc,hst,hother]
      exact ⟨hst0,hother0⟩
  · constructor
    · rw [Net.gcr,hd]; exact h.leg'.gcr
    · rw [hd]; exact h.leg'.config
    · simp only [Net.st,Net.other,hd]; exact h.leg'.st
  · omega
  · exact fun hj _ => hearly (h.early' hj (by omega))
  · omega

theorem SetupAt.setGcr (h : SetupAt g net c d 0 j) :
    ∃ net', net.step (.setGcr c g) = .ok net' ∧ SetupAt g net' c d 1 j := by
  have hlive : c ∈ net.subscrConns := h.ready.live
  have hlen := h.ready.len
  refine ⟨net.upd c fun _ => { net.conn c with globalCallRef := g },?_,
    h.own (by omega) rfl rfl rfl rfl rfl (by omega)⟩
  simp only [Net.step,hlive,if_true,Lcls.setGcr,hlen.1,hlen.2,decide_true,Bool.and_self]
  rfl

theorem SetupAt.update (h : SetupAt g net c d 1 j) :
    ∃ net', net.step (.update c (some cfgBothWay) (some cscConnect)) = .ok net' ∧
      SetupAt g net' c d 2 j := by
  have hlive : c ∈ net.subscrConns := h.ready.live
  obtain ⟨hst,hother⟩ := h.leg.st (by omega)
  have hother' : (net.conn c).other = none := hother
  have hg : (net.conn c).globalCallRef = g := h.leg.gcr (by omega)
  have hne : g ≠ [] := by
    rintro rfl
    simpa using h.ready.len.1
  have hupd : updateLclsCfgCsc (net.conn c) cfgBothWay cscConnect =
      some { net.conn c with config := cfgBothWay, control := cscConnect } := rfl
  refine ⟨net.upd c fun _ => { net.conn c with config := cfgBothWay, control := cscConnect },?_,
    h.own (by omega) rfl rfl rfl rfl hg fun _ => ⟨rfl,rfl⟩⟩
  simp only [Net.step,hlive,if_true,lclsUpdateConfig,dispatchDepth,
    lclsDispatch_of_st h.ready.live hst]
  simp [lclsFsm,LclsEvent.kind,lclsAction,lclsNoLclsFn,osmoAssert,hother',h.ready.enabled,hg,hne,
    lclsHandleCfgUpdate,hupd]

theorem SetupAt.next {x : Input} (h : SetupAt g net c d i j) (hj : j ≤ 3)
    (hx : (legSetup g c)[i]? = some x) :
    ∃ net', net.step x = .ok net' ∧ SetupAt g net' c d (i+1) j := by
  match i with
  | 0 => cases hx; exact h.setGcr
  | 1 => cases hx; exact h.update
  | 2 =>
    cases hx
    rcases Nat.lt_or_eq_of_le hj with hlt | rfl
    · exact h.applyFirst (by omega)
    · exact h.applySecond
  | i+3 => simp [legSetup] at hx

/-- Setting up LCLS for two legs of one call does not depend on the order in
which their inputs come. -/
theorem lcls_setup_order_independent {g : List UInt8} {net : Net} {c d : ConnId}
    (hready : Ready g net c d) (hc : net.st c = some .noLcls ∧ net.other c = none)
    (hd : net.st d = some .noLcls ∧ net.other d = none) (is : List Input)
    (his : Interleave (legSetup g c) (legSetup g d) is) :
    ∃ net', run Net.step net is = .ok net' ∧ net'.st c = some .locallySwitched ∧
      net'.st d = some .locallySwitched ∧ net'.other c = some d ∧ net'.other d = some c := by
  have h0 : SetupAt g net c d 0 0 :=
    ⟨hready,⟨by omega,by omega,fun _ => hc⟩,⟨by omega,by omega,fun _ => hd⟩,by omega,by omega,
      by omega⟩
  have hrun : ∃ net', run Net.step net is = .ok net' ∧ 3 ≤ 3 ∧ 3 ≤ 3 ∧ SetupAt g net' c d 3 3 := by
    refine Interleave.run_ok (P := fun i j net => i ≤ 3 ∧ j ≤ 3 ∧ SetupAt g net c d i j)
      ?_ ?_ his ⟨by omega,by omega,h0⟩
    · rintro i j net x ⟨hi,hj,hs⟩ hx
      obtain ⟨net',hnet,hset⟩ := hs.next hj hx
      have hlt := (List.getElem?_eq_some_iff.mp hx).1
      exact ⟨net',hnet,hlt,hj,hset⟩
    · rintro i j net x ⟨hi,hj,hs⟩ hx
      obtain ⟨net',hnet,hset⟩ := hs.swap.next hi hx
      have hlt := (List.getElem?_eq_some_iff.mp hx).1
      exact ⟨net',hnet,hi,hlt,hset.swap⟩
  obtain ⟨net',hnet,_,_,hset⟩ := hrun
  exact ⟨net',hnet,hset.both rfl rfl⟩

def freshLegs : Net where
  subscrConns := [1,2]
  conn _ := { allocConn mgwLoopMsc with lchan := some tchF }
  notified := []

/-- The first leg is applied before the second one got its config. -/
theorem lcls_setup_order_independent_freshLegs : ∃ net', run Net.step freshLegs
      [.setGcr 1 someGcr,.setGcr 2 someGcr,.update 1 (some cfgBothWay) (some cscConnect),.apply 1,
        .update 2 (some cfgBothWay) (some cscConnect),.apply 2] = .ok net' ∧
    net'.st 1 = some .locallySwitched ∧ net'.st 2 = some .locallySwitched ∧
    net'.other 1 = some 2 ∧ net'.other 2 = some 1 := by
  have hready : Ready someGcr freshLegs 1 2 := by
    refine ⟨by decide,by decide,by decide,by decide,?_,by decide,by decide,tchF,tchF,rfl,rfl,rfl,rfl⟩
    intro e he h1 h2
    simp only [Net.live,freshLegs,List.mem_cons,List.not_mem_nil,or_false] at he
    exact absurd he (by simp [h1,h2])
  exact lcls_setup_order_independent hready ⟨rfl,rfl⟩ ⟨rfl,rfl⟩ _
    (.left (.right (.left (.left (.right (.right .nil))))))

end OsmoBsc.Lcls
