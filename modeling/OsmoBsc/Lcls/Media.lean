import OsmoBsc.Lcls.Safety
set_option autoImplicit false

namespace OsmoBsc.Lcls
open EventFsm Pairing

/-- The leg has what a redirection of its RTP needs: a channel, an MSC side MGW
connection with a known RTP port, and an MSC with the LCLS mode `m`. -/
structure Equipped (m : LclsMode) (conn : Conn) : Prop where
  lchan : conn.lchan.isSome
  ci : ∃ ci, conn.mgwEndpointCiMsc = some ci ∧ ci.rtpInfo = true
  mode : conn.msc.lclsMode = m

instance (m : LclsMode) (conn : Conn) : Decidable (Equipped m conn) :=
  decidable_of_iff (conn.lchan.isSome ∧
    (∃ ci, conn.mgwEndpointCiMsc = some ci ∧ ci.rtpInfo = true) ∧ conn.msc.lclsMode = m) ⟨fun h => ⟨h.1,h.2.1,h.2.2⟩,fun h => ⟨h.lchan,h.ci,h.mode⟩⟩

/-- The answer of `lcls_enable_possible` for two legs that have channels. -/
def canEnable (conn other : Conn) : Bool :=
  lclsIsSupportedConfig conn.config && lclsIsSupportedConfig other.config &&
    conn.control = cscConnect && other.control = cscConnect &&
    match conn.lchan, other.lchan with
    | some lchan, some otherLchan =>
      (lchan.type = otherLchan.type && lchan.tchMode = otherLchan.tchMode) ||
        conn.msc.lclsCodecMismatchAllow
    | _, _ => false

def Net.red (net : Net) (c : ConnId) : Option Redirect := (net.conn c).redirect

section Evaluate

variable {net : Net} {c o : ConnId} {m : LclsMode}

theorem Equipped.toggle (hc : Equipped m (net.conn c)) (ho : Equipped m (net.conn o))
    (hother : net.other c = some o) (hl : net.live o) :
    lclsCheckToggleAllowed net c = .ok true := by
  have hother' : (net.conn c).other = some o := hother
  have hci : (net.conn c).mgwEndpointCiMsc.isNone = false := by
    obtain ⟨ci,hci,_⟩ := hc.ci
    simp [hci]
  simp [lclsCheckToggleAllowed,lclsModeMismatch,hother',Net.deref_live hl,hc.mode,ho.mode,hci]

theorem Equipped.breaks (hm : m ≠ .disabled) (hc : Equipped m (net.conn c))
    (ho : Equipped m (net.conn o)) (hother : net.other c = some o) (hl : net.live o) :
    lclsBreakLocalSwitching net c = .ok (net.setRedirect c .toMsc) := by
  have hother' : (net.conn c).other = some o := hother
  obtain ⟨lchan,hlchan⟩ := Option.isSome_iff_exists.mp hc.lchan
  simp only [lclsBreakLocalSwitching,hc.toggle ho hother hl,ok_bind,hc.mode,Bool.not_true,
    Bool.false_eq_true,if_false]
  cases m with
  | disabled => exact absurd rfl hm
  | mgwLoop => simp [lclsMdcx,hlchan]
  | btsLoop => simp [lclsRsl,hlchan,hother']

theorem Equipped.setFi {x : ConnId} (s : LclsState) (h : Equipped m (net.conn x)) :
    Equipped m ((net.setFi c s).conn x) := by
  by_cases hx : x = c
  · subst hx
    simp only [Net.setFi,Net.upd_conn_self]
    exact ⟨h.lchan,h.ci,h.mode⟩
  · simpa only [Net.setFi,net.upd_conn_ne _ hx] using h

theorem Equipped.enters (hm : m ≠ .disabled) (hc : Equipped m (net.conn c))
    (ho : Equipped m (net.conn o)) (hother : net.other c = some o) (hl : net.live o)
    {s : LclsState} (hs : net.st c = some s) :
    lclsStateChg net c .locallySwitched =
      .ok ((net.setFi c .locallySwitched).setRedirect c .toPeer) := by
  have hfi : (net.conn c).fi = some s := hs
  have hout : lclsFsm.outState s .locallySwitched = true := by cases s <;> rfl
  simp only [lclsStateChg,hfi,hout,Bool.not_true,Bool.false_eq_true,if_false,if_true]
  replace hc := hc.setFi (c := c) .locallySwitched
  replace ho := ho.setFi (c := c) .locallySwitched
  have hother1 : (net.setFi c .locallySwitched).other c = some o := by simpa using hother
  have hother' : ((net.setFi c .locallySwitched).conn c).other = some o := hother1
  have hl1 : (net.setFi c .locallySwitched).live o := hl
  obtain ⟨lchan,hlchan⟩ := Option.isSome_iff_exists.mp hc.lchan
  obtain ⟨lchanO,hlchanO⟩ := Option.isSome_iff_exists.mp ho.lchan
  obtain ⟨ci,hci,hrtp⟩ := ho.ci
  simp only [lclsLocallySwitchedOnenter,hother',hc.toggle ho hother1 hl1,ok_bind,Bool.not_true,
    Bool.false_eq_true,if_false,Net.deref_live hl1,hci,hrtp,hc.mode]
  cases m with
  | disabled => exact absurd rfl hm
  | mgwLoop => simp [lclsMdcx,hlchan]
  | btsLoop => simp [lclsRsl,hlchan,hother',Net.deref_live hl1,hlchanO]

theorem lclsEnablePossible_eq (hc : (net.conn c).lchan.isSome) (ho : (net.conn o).lchan.isSome)
    (hother : net.other c = some o) (hl : net.live o) :
    lclsEnablePossible net c = .ok (canEnable (net.conn c) (net.conn o)) := by
  have hother' : (net.conn c).other = some o := hother
  obtain ⟨lchan,hlchan⟩ := Option.isSome_iff_exists.mp hc
  obtain ⟨lchanO,hlchanO⟩ := Option.isSome_iff_exists.mp ho
  simp only [lclsEnablePossible,hother',Net.deref_live hl,ok_bind,canEnable,hlchan,hlchanO]
  split
  · simp_all
  split
  · simp_all
  split
  · simp_all
  split
  · simp_all
  split
  · simp_all
  split
  · simp_all
  · simp_all
    grind

end Evaluate

section Switch

variable (net : Net) (c : ConnId)

/-- The resources, config and control of every leg are the ones before; only
states, links and redirections may differ. -/
def SameConfig (net net' : Net) : Prop :=
  ∀ x, { net'.conn x with fi := none, other := none, redirect := none } =
    { net.conn x with fi := none, other := none, redirect := none }

theorem SameConfig.refl : SameConfig net net := fun _ => rfl

theorem SameConfig.trans {net net1 net' : Net} (h : SameConfig net net1)
    (h' : SameConfig net1 net') : SameConfig net net' := fun x => (h' x).trans (h x)

theorem SameConfig.equipped {net net' : Net} (h : SameConfig net net') {m : LclsMode} {x : ConnId}
    (he : Equipped m (net.conn x)) : Equipped m (net'.conn x) := by
  have hx := h x
  simp only [Conn.mk.injEq] at hx
  exact ⟨by rw [hx.2.2.2.2.2.1]; exact he.lchan,by rw [hx.2.2.2.2.2.2.1]; exact he.ci,
    by rw [hx.2.2.2.2.2.2.2.1]; exact he.mode⟩

theorem SameConfig.canEnable_eq {net net' : Net} (h : SameConfig net net') (x y : ConnId) :
    canEnable (net'.conn x) (net'.conn y) = canEnable (net.conn x) (net.conn y) := by
  have hx := h x
  have hy := h y
  simp only [Conn.mk.injEq] at hx hy
  simp only [canEnable,hx,hy]

theorem SameConfig.upd {f : Conn → Conn}
    (h : ∀ conn : Conn, { f conn with fi := none, other := none, redirect := none } =
      { conn with fi := none, other := none, redirect := none }) :
    SameConfig net (net.upd c f) := by
  intro x
  by_cases hx : x = c
  · subst hx; simpa using h _
  · rw [net.upd_conn_ne _ hx]

/-- Enter LOCALLY_SWITCHED with the RTP redirected to the peer. -/
def Net.switch : Net := (net.setFi c .locallySwitched).setRedirect c .toPeer

/-- Enter NO_LONGER_LS with the RTP redirected back to the MSC. -/
def Net.unswitch : Net := (net.setRedirect c .toMsc).setFi c .noLongerLs

theorem SameConfig.setFi (s : LclsState) : SameConfig net (net.setFi c s) :=
  .upd net c fun _ => rfl

theorem SameConfig.setOther (o : Option ConnId) : SameConfig net (net.setOther c o) :=
  .upd net c fun _ => rfl

theorem SameConfig.setRedirect (r : Redirect) : SameConfig net (net.setRedirect c r) :=
  .upd net c fun _ => rfl

theorem SameConfig.switch : SameConfig net (net.switch c) :=
  (SameConfig.setFi net c _).trans (.setRedirect _ c _)

theorem SameConfig.unswitch : SameConfig net (net.unswitch c) :=
  (SameConfig.setRedirect net c _).trans (.setFi _ c _)

theorem SameConfig.notify {net net' : Net} (h : SameConfig net net') (c : ConnId) :
    SameConfig net (lclsSendNotify net' c) := by
  intro x
  rw [lclsSendNotify_conn]
  exact h x

@[simp] theorem Net.setFi_red (s : LclsState) : (net.setFi c s).red = net.red := by
  funext x
  by_cases hx : x = c
  · subst hx; simp [red,setFi]
  · simp [red,setFi,net.upd_conn_ne _ hx]

@[simp] theorem Net.setOther_red (o : Option ConnId) : (net.setOther c o).red = net.red := by
  funext x
  by_cases hx : x = c
  · subst hx; simp [red,setOther]
  · simp [red,setOther,net.upd_conn_ne _ hx]

@[simp] theorem Net.setRedirect_red (r : Redirect) :
    (net.setRedirect c r).red = Function.update net.red c (some r) := by
  funext x
  by_cases hx : x = c
  · subst hx; simp [red,setRedirect]
  · simp [red,setRedirect,net.upd_conn_ne _ hx,hx]

@[simp] theorem lclsSendNotify_red : (lclsSendNotify net c).red = net.red := by
  funext x
  simp [Net.red]

theorem Net.switch_becomes :
    Becomes net (net.switch c) (Function.update net.st c (some .locallySwitched)) net.other := by
  have h := setFi_becomes net c .locallySwitched
  have h' := setRedirect_same (net.setFi c .locallySwitched) c .toPeer
  rw [Same,h.st,h.other] at h'
  exact h.trans h'

theorem Net.unswitch_becomes :
    Becomes net (net.unswitch c) (Function.update net.st c (some .noLongerLs)) net.other := by
  have h := setRedirect_same net c .toMsc
  have h' := setFi_becomes (net.setRedirect c .toMsc) c .noLongerLs
  rw [h.st,h.other] at h'
  exact h.trans h'

@[simp] theorem Net.switch_red :
    (net.switch c).red = Function.update net.red c (some .toPeer) := by simp [switch]

@[simp] theorem Net.unswitch_red :
    (net.unswitch c).red = Function.update net.red c (some .toMsc) := by simp [unswitch]

end Switch

section Pairs

variable {net : Net} {c d : ConnId} {m : LclsMode} {n : Nat}

theorem otherEnabled_follows (hm : m ≠ .disabled) (hc : Equipped m (net.conn c))
    (hd : Equipped m (net.conn d)) (hlc : net.live c) (hld : net.live d)
    (hdc : net.other d = some c) (hs : net.st d = some .notYetLs ∨ net.st d = some .noLongerLs)
    (hcan : canEnable (net.conn d) (net.conn c) = true) :
    lclsDispatch (n+2) net d (.otherEnabled c) = .ok (lclsSendNotify (net.switch d) d) := by
  have hdc' : (net.conn d).other = some c := hdc
  have hposs := lclsEnablePossible_eq hd.lchan hc.lchan hdc hlc
  rcases hs with hs | hs
  · rw [lclsDispatch_of_st hld hs]
    simp [lclsFsm,LclsEvent.kind,lclsAction,lclsNotYetLsFn,followPeer,osmoAssert,hdc',hposs,hcan,
      hd.enters hm hc hdc hlc hs,Net.switch]
  · rw [lclsDispatch_of_st hld hs]
    simp [lclsFsm,LclsEvent.kind,lclsAction,lclsNoLongerLsFn,followPeer,osmoAssert,hdc',hposs,hcan,
      hd.enters hm hc hdc hlc hs,Net.switch]

theorem enableLs_both (hm : m ≠ .disabled) (hc : Equipped m (net.conn c))
    (hd : Equipped m (net.conn d)) (hlc : net.live c) (hld : net.live d) (hne : d ≠ c)
    (hcd : net.other c = some d) (hdc : net.other d = some c) {s : LclsState}
    (hsc : net.st c = some s) (hs : net.st d = some .notYetLs ∨ net.st d = some .noLongerLs)
    (hcan : canEnable (net.conn d) (net.conn c) = true) :
    enableLs (lclsDispatch (n+2)) net c =
      .ok (lclsSendNotify ((net.switch c).switch d) d) := by
  have hb := Net.switch_becomes net c
  have hsame := SameConfig.switch net c
  have hcd1 : ((net.switch c).conn c).other = some d := by
    change (net.switch c).other c = some d
    rw [hb.other,hcd]
  have hswitch : (net.setFi c .locallySwitched).setRedirect c .toPeer = net.switch c := rfl
  simp only [enableLs,hc.enters hm hd hcd hld hsc,ok_bind,hswitch,hcd1]
  apply otherEnabled_follows hm (hsame.equipped hc) (hsame.equipped hd)
  · rwa [live_congr hb.subscrConns]
  · rwa [live_congr hb.subscrConns]
  · rw [hb.other,hdc]
  · simpa [hb.st,hne] using hs
  · rwa [hsame.canEnable_eq]

end Pairs

def LclsState.mate : LclsState → LclsState
  | .locallySwitchedWaitBreak => .locallySwitchedWaitOtherBreak
  | .locallySwitchedWaitOtherBreak => .locallySwitchedWaitBreak
  | s => s

theorem LclsState.isLs_mate {s : LclsState} (h : s.isLs) : s.mate.isLs := by
  cases s <;> simp_all [LclsState.isLs,LclsState.mate]

structure LegMedia (m : LclsMode) (net : Net) (c : ConnId) (s : LclsState) : Prop where
  redirected : net.red c = some .toPeer ↔ s.isLs
  mate {o : ConnId} : net.other c = some o → s.isLs → net.st o = some s.mate
  equipped {o : ConnId} : net.other c = some o → Equipped m (net.conn c) ∧ Equipped m (net.conn o)

/-- The RTP of a leg goes to its peer exactly while the leg is locally switched,
and the two legs of a pair are so together. -/
structure MediaOk (m : LclsMode) (net : Net) : Prop where
  consistent : Consistent net
  leg {c : ConnId} {s : LclsState} : net.live c → net.st c = some s → LegMedia m net c s

section Invariant

variable {net net' : Net} {m : LclsMode} {c d : ConnId}

theorem MediaOk.change (h : MediaOk m net) (touched : ConnId → Prop) (hok : Consistent net')
    (hlive : ∀ x, net'.live x → net.live x)
    (hequip : ∀ x, Equipped m (net.conn x) → Equipped m (net'.conn x))
    (hsame : ∀ x, net'.live x → ¬ touched x →
      net'.st x = net.st x ∧ net'.other x = net.other x ∧ net'.red x = net.red x)
    (hpeer : ∀ x e s, net.live x → ¬ touched x → touched e → net.other x = some e →
      net.st x = some s → s.isLs = false)
    (htouched : ∀ x s, net'.live x → touched x → net'.st x = some s → LegMedia m net' x s) :
    MediaOk m net' where
  consistent := hok
  leg {x s} hx hs := by
    by_cases ht : touched x
    · exact htouched x s hx ht hs
    obtain ⟨hst,hother,hred⟩ := hsame x hx ht
    rw [hst] at hs
    have hl := h.leg (hlive x hx) hs
    refine ⟨by rw [hred]; exact hl.redirected,?_,?_⟩
    · rw [hother]
      intro o ho hls
      have hto : ¬ touched o := by
        intro hto
        simp [hpeer x o s (hlive x hx) ht hto ho hs] at hls
      have hlo : net'.live o := hok.links.live_target hx (by rw [hother,ho])
      rw [(hsame o hlo hto).1]
      exact hl.mate ho hls
    · rw [hother]
      intro o ho
      exact ⟨hequip x (hl.equipped ho).1,hequip o (hl.equipped ho).2⟩

theorem MediaOk.back (h : MediaOk m net) {s : LclsState} (hc : net.live c)
    (hs : net.st c = some s) (hls : s.isLs) (hcd : net.other c = some d) :
    net.live d ∧ net.st d = some s.mate ∧ net.other d = some c := by
  have hd := h.consistent.links.live_target hc hcd
  have hm := (h.leg hc hs).mate hcd hls
  refine ⟨hd,hm,h.consistent.sender hc hcd hm ?_⟩
  exact LclsState.needsPeer_isLs (LclsState.isLs_mate hls)

/-- A leg that is not locally switched is the peer of no leg that is. -/
theorem MediaOk.not_peer (h : MediaOk m net) {x e : ConnId} {s s' : LclsState} (hx : net.live x)
    (hs : net.st x = some s) (hxe : net.other x = some e) (hs' : net.st e = some s')
    (hn : s'.isLs = false) : s.isLs = false := by
  cases hls : s.isLs with
  | false => rfl
  | true =>
    obtain ⟨_,hm,_⟩ := h.back hx hs hls hxe
    have he : s' = s.mate := by simpa [hs'] using hm
    rw [he,LclsState.isLs_mate hls] at hn
    cases hn

theorem MediaOk.both (h : MediaOk m net) (hok : Consistent net')
    (hlive : net'.live = net.live)
    (hequip : ∀ x, Equipped m (net.conn x) → Equipped m (net'.conn x))
    (hout : ∀ x, x ≠ c → x ≠ d → net'.st x = net.st x ∧ net'.other x = net.other x ∧
      net'.red x = net.red x)
    (hpeer : ∀ x s, net.live x → x ≠ c → x ≠ d →
      net.other x = some c ∨ net.other x = some d → net.st x = some s → s.isLs = false)
    (hcd : net'.other c = some d) (hdc : net'.other d = some c)
    (hec : Equipped m (net.conn c)) (hed : Equipped m (net.conn d)) {s s' : LclsState}
    (hs : net'.st c = some s) (hs' : net'.st d = some s')
    (hmate : s.isLs → s.mate = s') (hmate' : s'.isLs → s'.mate = s)
    (hr : net'.red c = some .toPeer ↔ s.isLs) (hr' : net'.red d = some .toPeer ↔ s'.isLs) :
    MediaOk m net' := by
  apply h.change (fun x => x = c ∨ x = d) hok
  · intro x hx
    rwa [← hlive]
  · exact hequip
  · intro x _ ht
    simp only [not_or] at ht
    exact hout x ht.1 ht.2
  · intro x e t hx ht hte hxe hst
    simp only [not_or] at ht
    refine hpeer x t hx ht.1 ht.2 ?_ hst
    rcases hte with rfl | rfl
    · exact .inl hxe
    · exact .inr hxe
  · intro x t _ hx hst
    rcases hx with rfl | rfl
    · have he : s = t := by simpa [hs] using hst
      subst he
      refine ⟨hr,?_,?_⟩
      · intro o ho hls
        have he : d = o := by simpa [hcd] using ho
        rw [← he,hs',hmate hls]
      · intro o ho
        have he : d = o := by simpa [hcd] using ho
        exact he ▸ ⟨hequip _ hec,hequip _ hed⟩
    · have he : s' = t := by simpa [hs'] using hst
      subst he
      refine ⟨hr',?_,?_⟩
      · intro o ho hls
        have he : c = o := by simpa [hdc] using ho
        rw [← he,hs,hmate' hls]
      · intro o ho
        have he : c = o := by simpa [hdc] using ho
        exact he ▸ ⟨hequip _ hed,hequip _ hec⟩

/-- An existing pair: no leg outside of it that is locally switched points at it. -/
theorem MediaOk.pair_closed (h : MediaOk m net) (hcd : net.other c = some d)
    (hdc : net.other d = some c) (x : ConnId) (s : LclsState) (hx : net.live x) (hxc : x ≠ c) (hxd : x ≠ d)
    (hp : net.other x = some c ∨ net.other x = some d) (hs : net.st x = some s) :
    s.isLs = false := by
  cases hls : s.isLs with
  | false => rfl
  | true =>
    rcases hp with hp | hp
    · obtain ⟨_,_,hb⟩ := h.back hx hs hls hp
      simp [hcd] at hb
      exact absurd hb.symm hxd
    · obtain ⟨_,_,hb⟩ := h.back hx hs hls hp
      simp [hdc] at hb
      exact absurd hb.symm hxc

theorem MediaOk.calm (h : MediaOk m net) (touched : ConnId → Prop) (hok : Consistent net')
    (hlive : ∀ x, net'.live x → net.live x)
    (hequip : ∀ x, Equipped m (net.conn x) → Equipped m (net'.conn x))
    (hred : net'.red = net.red)
    (hout : ∀ x, net'.live x → ¬ touched x → net'.st x = net.st x ∧ net'.other x = net.other x)
    (hls : ∀ x s, net.live x → touched x → net.st x = some s → s.isLs = false)
    (hls' : ∀ x s, net'.live x → touched x → net'.st x = some s → s.isLs = false)
    (hnew : ∀ x o, net'.live x → touched x → net'.other x = some o →
      Equipped m (net.conn x) ∧ Equipped m (net.conn o)) : MediaOk m net' := by
  apply h.change touched hok hlive hequip
  · intro x hx ht
    obtain ⟨hst,hother⟩ := hout x hx ht
    exact ⟨hst,hother,by rw [hred]⟩
  · intro x e s hx _ hte hxe hs
    have he := h.consistent.links.live_target hx hxe
    obtain ⟨se,hse⟩ := h.consistent.leg he
    exact h.not_peer hx hs hxe hse.st (hls e se he hte hse.st)
  · intro x s hx ht hs
    obtain ⟨s0,hs0⟩ := h.consistent.leg (hlive x hx)
    have hn := hls x s0 (hlive x hx) ht hs0.st
    have hn' := hls' x s hx ht hs
    refine ⟨?_,by simp [hn'],?_⟩
    · have hr := (h.leg (hlive x hx) hs0.st).redirected
      rw [hred]
      simpa [hn,hn'] using hr
    · intro o ho
      obtain ⟨hx1,ho1⟩ := hnew x o hx ht ho
      exact ⟨hequip _ hx1,hequip _ ho1⟩

theorem MediaOk.same (h : MediaOk m net) (hok : Consistent net')
    (hequip : ∀ x, Equipped m (net.conn x) → Equipped m (net'.conn x))
    (hb : Same net net') (hred : net'.red = net.red) : MediaOk m net' := by
  apply h.calm (fun _ => False) hok
  · intro x hx
    rwa [← live_congr hb.subscrConns]
  · exact hequip
  · exact hred
  · intro x _ _
    simp [hb.st,hb.other]
  all_goals simp

end Invariant

def Follows (st : Option LclsState) (conn other : Conn) : Prop :=
  canEnable conn other = true →
    (st = some .notYetLs ∨ st = some .noLongerLs) ∧ canEnable other conn = true

instance (st : Option LclsState) (conn other : Conn) : Decidable (Follows st conn other) :=
  inferInstanceAs (Decidable (_ → _))

/-- The octets that `lcls_update_config` dispatches. -/
def updateOf (conn : Conn) (config control : Option UInt8) : Option Conn :=
  updateLclsCfgCsc conn (config.getD cfgNa) (control.getD cscNa)

/-- Legs are correlated only while they have the resources for a redirection, and
keep them from then on. -/
def ResourcesInput (m : LclsMode) (net : Net) : Input → Prop
  | .apply c => net.live c → net.correlates c = true → ∀ d, findConnWithSameGcr net c = some d →
      Equipped m (net.conn c) ∧ Equipped m (net.conn d)
  | .resources c lchan ci msc => net.live c →
      (net.other c ≠ none ∨ ∃ e ∈ net.subscrConns, net.other e = some c) →
      Equipped m { net.conn c with lchan := lchan, mgwEndpointCiMsc := ci, msc := msc }
  | _ => True

/-- The inputs, beyond what `SafeInput` asks, under which the media agree with the
states: no leg terminates or gets an unsupported config while it is locally
switched, and a leg becomes locally switched only if its peer can follow,
which it is not told to by a leg in REQ_LCLS_NOT_SUPP. -/
def MediaInput (net : Net) : Input → Prop
  | .term c => net.live c → ∀ s, net.st c = some s → s.isLs = false
  | .update c config control => net.live c → (config ≠ none ∨ control ≠ none) →
      (∀ s, net.st c = some s → s.isLs = true → (updateOf (net.conn c) config control).isSome) ∧
      (net.st c = some .noLongerLs → ∀ conn, updateOf (net.conn c) config control = some conn →
        ∀ o, net.other c = some o → Follows (net.st o) conn (net.conn o))
  | .apply c => net.live c →
      (net.st c = some .notYetLs → ∀ o, net.other c = some o →
        Follows (net.st o) (net.conn c) (net.conn o)) ∧
      (net.correlates c = true → ∀ d, findConnWithSameGcr net c = some d →
        (canEnable (net.conn c) (net.conn d) = true → net.st c ≠ some .reqLclsNotSupp) ∧
        Follows ((net.st d).map LclsState.afterCorrelated) (net.conn c) (net.conn d))
  | _ => True

instance (m : LclsMode) (net : Net) : (i : Input) → Decidable (ResourcesInput m net i)
  | .apply c => inferInstanceAs (Decidable (net.live c → net.correlates c = true →
      ∀ d, findConnWithSameGcr net c = some d →
        Equipped m (net.conn c) ∧ Equipped m (net.conn d)))
  | .resources c lchan ci msc => inferInstanceAs (Decidable (net.live c →
      (net.other c ≠ none ∨ ∃ e ∈ net.subscrConns, net.other e = some c) →
      Equipped m { net.conn c with lchan := lchan, mgwEndpointCiMsc := ci, msc := msc }))
  | .alloc _ _ | .setGcr _ _ | .update _ _ _ | .term _ => isTrue trivial

instance (net : Net) : (i : Input) → Decidable (MediaInput net i)
  | .term c => inferInstanceAs (Decidable (net.live c →
      ∀ s, net.st c = some s → s.isLs = false))
  | .update c config control => inferInstanceAs (Decidable (net.live c →
      (config ≠ none ∨ control ≠ none) →
      (∀ s, net.st c = some s → s.isLs = true → (updateOf (net.conn c) config control).isSome) ∧
      (net.st c = some .noLongerLs → ∀ conn, updateOf (net.conn c) config control = some conn →
        ∀ o, net.other c = some o → Follows (net.st o) conn (net.conn o))))
  | .apply c => inferInstanceAs (Decidable (net.live c →
      (net.st c = some .notYetLs → ∀ o, net.other c = some o →
        Follows (net.st o) (net.conn c) (net.conn o)) ∧
      (net.correlates c = true → ∀ d, findConnWithSameGcr net c = some d →
        (canEnable (net.conn c) (net.conn d) = true → net.st c ≠ some .reqLclsNotSupp) ∧
        Follows ((net.st d).map LclsState.afterCorrelated) (net.conn c) (net.conn d))))
  | .alloc _ _ | .setGcr _ _ | .resources _ _ _ _ => isTrue trivial

def Calm (net net' : Net) : Prop := SameConfig net net' ∧ net'.red = net.red

section Calm

variable {net net' : Net} {c : ConnId}

theorem Calm.refl (net : Net) : Calm net net := ⟨.refl net,rfl⟩

theorem Calm.trans {net1 : Net} (h : Calm net net1) (h' : Calm net1 net') : Calm net net' :=
  ⟨h.1.trans h'.1,h'.2.trans h.2⟩

theorem Calm.setFi (net : Net) (c : ConnId) (s : LclsState) : Calm net (net.setFi c s) :=
  ⟨.setFi net c s,by simp⟩

theorem Calm.setOther (net : Net) (c : ConnId) (o : Option ConnId) : Calm net (net.setOther c o) :=
  ⟨.setOther net c o,by simp⟩

theorem Calm.notify (h : Calm net net') (c : ConnId) : Calm net (lclsSendNotify net' c) :=
  ⟨h.1.notify c,by simpa using h.2⟩

theorem lclsStateChg_calm {new : LclsState} (hn : new ≠ .locallySwitched)
    (h : lclsStateChg net c new = .ok net') : Calm net net' := by
  simp only [lclsStateChg,hn,if_false] at h
  split at h
  · cases h; exact .refl _
  · split at h
    · cases h; exact .refl _
    · cases h; exact .setFi _ _ _

theorem breakCorrelation_calm (h : breakCorrelation net c = .ok net') : Calm net net' := by
  simp only [breakCorrelation] at h
  split at h
  · cases h; exact .refl _
  · simp only [bind_eq_ok] at h
    obtain ⟨conn,_,h⟩ := h
    split at h
    · cases h
    · simp only [bind_eq_ok] at h
      obtain ⟨_,_,h⟩ := h
      cases h
      exact (Calm.setOther net _ none).trans (.setOther _ c none)

theorem correlated_calm {n : Nat} {sender : ConnId}
    (h : lclsDispatch (n+1) net c (.correlated sender) = .ok net') : Calm net net' := by
  obtain ⟨_,rfl | ⟨s,_,hin,h⟩⟩ := lclsDispatch_eq_ok h
  · exact .refl _
  · cases s
    case notYetLs =>
      simp only [lclsAction,lclsNotYetLsFn,bind_eq_ok,pure_eq_ok] at h
      obtain ⟨_,_,h⟩ := h
      cases h
      exact .setOther _ _ _
    case noLongerLs =>
      simp only [lclsAction,lclsNoLongerLsFn,bind_eq_ok,pure_eq_ok] at h
      obtain ⟨_,_,h⟩ := h
      cases h
      exact .setOther _ _ _
    case reqLclsNotSupp =>
      simp only [lclsAction,lclsReqLclsNotSuppFn,pure_eq_ok] at h
      cases h
      exact .setOther _ _ _
    case notPossibleLs =>
      simp only [lclsAction,lclsNotPossibleLsFn,bind_eq_ok,pure_eq_ok] at h
      obtain ⟨_,_,net1,hchg,h⟩ := h
      cases h
      exact ((Calm.setOther net c _).trans (lclsStateChg_calm (by simp) hchg)).notify c
    all_goals cases hin

theorem lclsPerformCorrelation_calm {n : Nat} {found : Bool}
    (h : lclsPerformCorrelation (lclsDispatch (n+1)) net c = .ok (net',found)) : Calm net net' := by
  simp only [lclsPerformCorrelation,bind_eq_ok] at h
  obtain ⟨_,_,_,_,net1,hbreak,h⟩ := h
  have hb := breakCorrelation_calm hbreak
  split at h
  · cases h
    exact hb
  · simp only [bind_eq_ok,pure_eq_ok,Except.ok.injEq,Prod.mk.injEq] at h
    obtain ⟨net2,hcor,rfl,_⟩ := h
    exact (hb.trans (.setOther _ _ _)).trans (correlated_calm hcor)

end Calm

theorem LclsState.isLs_needsPeer {s : LclsState} (h : s.needsPeer = false) : s.isLs = false := by
  cases s <;> simp_all [LclsState.needsPeer,LclsState.isLs]

section Apply

variable {net net' : Net} {m : LclsMode} {c d : ConnId}

theorem Net.otherBroken_of_ne {x : ConnId} (hxc : x ≠ c) (hx : net.other c ≠ some x) :
    net.otherBroken c x = net.other x := by
  cases ho : net.other c with
  | none => rw [Net.otherBroken_of_none ho]
  | some o =>
    rw [Net.otherBroken_of_some ho]
    have hxo : x ≠ o := by
      rintro rfl
      exact hx ho
    exact rewire_of_ne _ _ hxc hxo

theorem Looking.not_isLs (hl : Looking net c) {x : ConnId} {s : LclsState}
    (hx : x = c ∨ net.other c = some x) (hs : net.st x = some s) : s.isLs = false := by
  rcases hx with rfl | hx
  · exact LclsState.isLs_needsPeer (hl.not_needsPeer hs)
  · obtain ⟨s',hs',hn⟩ := hl.lose hx
    have he : s' = s := by simpa [hs] using hs'.symm
    exact LclsState.isLs_needsPeer (he ▸ hn)

theorem MediaOk.found_not_isLs (h : MediaOk m net) (hl : Looking net c) (hd : net.live d)
    (hu : Unpaired net c d) {s : LclsState} (hs : net.st d = some s) : s.isLs = false := by
  cases hls : s.isLs with
  | false => rfl
  | true =>
    have hp : s.needsPeer := by
      cases s <;> simp_all [LclsState.needsPeer,LclsState.isLs]
    have hne := hl.peer (h.consistent.legOk hd hs) hp
    have hdc : net.otherBroken c d = some c := hu.2.resolve_left hne
    have hself : d ≠ c := by
      rintro rfl
      simp [hl.not_needsPeer hs] at hp
    have hold : net.other c ≠ some d := by
      intro hcd
      simp [hl.not_isLs (.inr hcd) hs] at hls
    rw [Net.otherBroken_of_ne hself hold] at hdc
    obtain ⟨_,hm,_⟩ := h.back hd hs hls hdc
    have := hl.not_isLs (.inl rfl) hm
    simp [LclsState.isLs_mate hls] at this

theorem MediaOk.notFound (h : MediaOk m net) (hok : Consistent net') (hl : Looking net c)
    (hcalm : Calm net net') {new : LclsState} (hnew : new.isLs = false)
    (hb : Becomes net net' (Function.update net.st c (some new)) (net.otherBroken c)) :
    MediaOk m net' := by
  have hlive := live_congr hb.subscrConns
  apply h.calm (fun x => x = c ∨ net.other c = some x) hok
  · intro x hx
    rwa [← hlive]
  · exact fun x => hcalm.1.equipped
  · exact hcalm.2
  · intro x _ ht
    simp only [not_or] at ht
    rw [hb.st,hb.other,Net.otherBroken_of_ne ht.1 ht.2]
    exact ⟨Function.update_of_ne ht.1 .., rfl⟩
  · exact fun x s _ ht hs => hl.not_isLs ht hs
  · intro x s _ ht hs
    rw [hb.st] at hs
    by_cases hxc : x = c
    · subst hxc
      have he : new = s := by simpa using hs
      exact he ▸ hnew
    · rw [Function.update_of_ne hxc] at hs
      exact hl.not_isLs ht hs
  · intro x o hx ht ho
    rw [hlive] at hx
    rw [hb.other] at ho
    have hno : net.otherBroken c x = none := by
      cases hco : net.other c with
      | none =>
        rcases ht with rfl | ht
        · rw [Net.otherBroken_of_none hco,hco]
        · simp [hco] at ht
      | some e =>
        have hec := h.consistent.links.ne_target hl.live hco
        rw [Net.otherBroken_of_some hco]
        rcases ht with rfl | ht
        · exact rewire_left _ _ hec.symm
        · have he : e = x := by simpa [hco] using ht
          subst he
          exact rewire_right ..
    simp [hno] at ho

theorem MediaOk.linkCalm (h : MediaOk m net) (hok : Consistent net') (hl : Looking net c)
    (hfind : findConnWithSameGcr net c = some d) (hu : Unpaired net c d) {net1 : Net}
    (h1 : Correlates net net1 c d) (hcalm : Calm net net') {new : LclsState}
    (hnew : new.isLs = false)
    (h2 : Becomes net1 net' (Function.update net1.st c (some new)) net1.other)
    (hec : Equipped m (net.conn c)) (hed : Equipped m (net.conn d)) : MediaOk m net' := by
  obtain ⟨hd,hdc,_⟩ := findConnWithSameGcr_eq hfind
  obtain ⟨y,sd',hb,hcases⟩ := h1
  rw [hb.st,hb.other] at h2
  replace h2 := hb.trans h2
  have hlive := live_congr h2.subscrConns
  have hy : y = some c ∨ y = none := by
    rcases hcases with ⟨rfl,_,_⟩ | ⟨_,_,_,rfl,_⟩
    · exact hu.2.symm
    · exact .inl rfl
  apply h.calm (fun x => (x = c ∨ net.other c = some x) ∨ x = d) hok
  · intro x hx
    rwa [← hlive]
  · exact fun x => hcalm.1.equipped
  · exact hcalm.2
  · intro x _ ht
    simp only [not_or] at ht
    obtain ⟨⟨hxc,hxo⟩,hxd⟩ := ht
    rw [h2.st,h2.other,rewire_of_ne _ _ hxc hxd,Net.otherBroken_of_ne hxc hxo]
    simp [hxc,hxd]
  · intro x s hx ht hs
    rcases ht with ht | rfl
    · exact hl.not_isLs ht hs
    · exact h.found_not_isLs hl hd hu hs
  · intro x s _ ht hs
    rw [h2.st] at hs
    by_cases hxc : x = c
    · subst hxc
      have he : new = s := by simpa using hs
      exact he ▸ hnew
    rw [Function.update_of_ne hxc] at hs
    by_cases hxd : x = d
    · subst hxd
      rw [Function.update_self] at hs
      rcases hcases with ⟨_,rfl,_⟩ | ⟨s0,hs0,_,_,rfl,_,_⟩
      · exact h.found_not_isLs hl hd hu hs
      · have hn := h.found_not_isLs hl hd hu hs0
        have he : s0.afterCorrelated = s := by simpa using hs
        subst he
        cases s0 <;> simp_all [LclsState.isLs,LclsState.afterCorrelated]
    · rw [Function.update_of_ne hxd] at hs
      exact hl.not_isLs (ht.resolve_right hxd) hs
  · intro x o _ ht ho
    rw [h2.other] at ho
    rcases rewire_eq_some hdc.symm ho with ⟨rfl,hf⟩ | ⟨rfl,hf⟩ | ⟨hxc,hxd,hf⟩
    · cases hf
      exact ⟨hec,hed⟩
    · rcases hy with rfl | rfl
      · cases hf
        exact ⟨hed,hec⟩
      · cases hf
    · have hco := (ht.resolve_right hxd).resolve_left hxc
      rw [Net.otherBroken_of_some hco,rewire_right] at hf
      cases hf

theorem MediaOk.linkBoth (h : MediaOk m net) (hl : Looking net c)
    (hother : net.other c = none) (hfind : findConnWithSameGcr net c = some d)
    (hu : Unpaired net c d) {net1 : Net} (h1 : Correlates net net1 c d) (hcalm : Calm net net1)
    (hdc1 : net1.other d = some c)
    (hok : Consistent (lclsSendNotify ((net1.switch c).switch d) d))
    (hec : Equipped m (net.conn c)) (hed : Equipped m (net.conn d)) :
    MediaOk m (lclsSendNotify ((net1.switch c).switch d) d) := by
  obtain ⟨hd,hdc,_⟩ := findConnWithSameGcr_eq hfind
  have hcd1 := h1.other_self hdc
  obtain ⟨y,sd',hb,_⟩ := h1
  have hsw := net1.switch_becomes c
  have hsw' := (net1.switch c).switch_becomes d
  rw [hsw.st,hsw.other] at hsw'
  have hbb := (hsw.trans hsw').notify d
  have hsc : (lclsSendNotify ((net1.switch c).switch d) d).st c = some .locallySwitched := by
    simp [hbb.st,hdc.symm]
  have hsd : (lclsSendNotify ((net1.switch c).switch d) d).st d = some .locallySwitched := by
    simp [hbb.st]
  refine h.both hok ?_ ?_ ?_ ?_ ?_ ?_ hec hed hsc hsd (fun _ => rfl) (fun _ => rfl) ?_ ?_
  · rw [live_congr hbb.subscrConns,live_congr hb.subscrConns]
  · intro x hx
    exact (((SameConfig.switch net1 c).trans (.switch _ d)).notify d).equipped
      (hcalm.1.equipped hx)
  · intro x hxc hxd
    refine ⟨?_,?_,?_⟩
    · simp [hbb.st,hb.st,hxc,hxd]
    · rw [hbb.other,hb.other,rewire_of_ne _ _ hxc hxd,Net.otherBroken_of_none hother]
    · simp [hxc,hxd,hcalm.2]
  · intro x s hx _ _ hp hs
    rcases hp with hp | hp
    · obtain ⟨sc,hsc⟩ := h.consistent.leg hl.live
      exact h.not_peer hx hs hp hsc.st (hl.not_isLs (.inl rfl) hsc.st)
    · obtain ⟨sd,hsd⟩ := h.consistent.leg hd
      exact h.not_peer hx hs hp hsd.st (h.found_not_isLs hl hd hu hsd.st)
  · rw [hbb.other,hcd1]
  · rw [hbb.other,hdc1]
  · simp [hdc.symm,LclsState.isLs]
  · simp [LclsState.isLs]

theorem MediaOk.pairMoves (h : MediaOk m net) (hok : Consistent net') (hc : net.live c)
    (hcd : net.other c = some d) (hdc : net.other d = some c) {s s' : LclsState}
    {r r' : Option Redirect}
    (hb : Becomes net net' (Function.update (Function.update net.st c (some s)) d (some s'))
      net.other)
    (hsame : SameConfig net net')
    (hred : net'.red = Function.update (Function.update net.red c r) d r')
    (hmate : s.isLs → s.mate = s') (hmate' : s'.isLs → s'.mate = s)
    (hr : r = some .toPeer ↔ s.isLs) (hr' : r' = some .toPeer ↔ s'.isLs) : MediaOk m net' := by
  have hne := (h.consistent.links.ne_target hc hcd).symm
  obtain ⟨sc,hsc⟩ := h.consistent.leg hc
  have heq := (h.leg hc hsc.st).equipped hcd
  have hst : net'.st c = some s := by simp [hb.st,hne]
  have hst' : net'.st d = some s' := by simp [hb.st]
  refine h.both hok (live_congr hb.subscrConns) (fun x => hsame.equipped) ?_ ?_ ?_ ?_
    heq.1 heq.2 hst hst' hmate hmate' ?_ ?_
  · intro x hxc hxd
    simp [hb.st,hb.other,hred,hxc,hxd]
  · exact h.pair_closed hcd hdc
  · rw [hb.other,hcd]
  · rw [hb.other,hdc]
  · simpa [hred,hne] using hr
  · simpa [hred] using hr'

theorem MediaOk.switchBoth (h : MediaOk m net)
    (hok : Consistent (lclsSendNotify ((net.switch c).switch d) d)) (hc : net.live c)
    (hcd : net.other c = some d) (hdc : net.other d = some c) :
    MediaOk m (lclsSendNotify ((net.switch c).switch d) d) := by
  have hsw := net.switch_becomes c
  have hsw' := (net.switch c).switch_becomes d
  rw [hsw.st,hsw.other] at hsw'
  have hred : (lclsSendNotify ((net.switch c).switch d) d).red =
      Function.update (Function.update net.red c (some .toPeer)) d (some .toPeer) := by simp
  exact h.pairMoves hok hc hcd hdc ((hsw.trans hsw').notify d)
    (((SameConfig.switch net c).trans (.switch _ d)).notify d) hred (fun _ => rfl) (fun _ => rfl)
    (by simp [LclsState.isLs]) (by simp [LclsState.isLs])

theorem otherBreak_ls {n : Nat} (hs : net.st d = some .locallySwitched)
    (h : lclsDispatch (n+1) net d (.otherBreak c) = .ok net') :
    Becomes net net' (Function.update net.st d (some .locallySwitchedWaitBreak)) net.other ∧
    Calm net net' := by
  have hd := (lclsDispatch_eq_ok h).1
  rw [lclsDispatch_of_st hd hs] at h
  simp only [lclsFsm,LclsEvent.kind,if_true,lclsAction,lclsLocallySwitchedFn,bind_eq_ok] at h
  obtain ⟨_,_,_,_,h⟩ := h
  exact ⟨lclsStateChg_becomes hs rfl h,lclsStateChg_calm (by simp) h⟩

theorem otherBreak_wob {n : Nat} (hm : m ≠ .disabled) (hc : Equipped m (net.conn c))
    (hd : Equipped m (net.conn d)) (hlc : net.live c) (hld : net.live d)
    (hdc : net.other d = some c) (hs : net.st d = some .locallySwitchedWaitOtherBreak) :
    lclsDispatch (n+1) net d (.otherBreak c) = .ok (lclsSendNotify (net.unswitch d) d) := by
  have hdc' : (net.conn d).other = some c := hdc
  have hfi : ((net.setRedirect d .toMsc).conn d).fi = some .locallySwitchedWaitOtherBreak := by
    have hst := (setRedirect_same net d .toMsc).st
    change (net.setRedirect d .toMsc).st d = _
    rw [hst,hs]
  rw [lclsDispatch_of_st hld hs]
  simp [lclsFsm,LclsEvent.kind,lclsAction,lclsLocallySwitchedWaitOtherBreakFn,osmoAssert,hdc',
    hd.breaks hm hc hdc hlc,lclsStateChg,hfi,Net.unswitch]

theorem MediaOk.applyLocallySwitched (h : MediaOk m net) (hok : Consistent net')
    {n : Nat} (hc : net.live c) (hs : net.st c = some .locallySwitched)
    (ha : lclsLocallySwitchedFn (lclsDispatch (n+1)) net c .applyCfgCsc = .ok net') :
    MediaOk m net' := by
  have hleg := h.consistent.legOk hc hs
  obtain ⟨d,hcd⟩ := Option.ne_none_iff_exists'.mp (hleg.peer rfl)
  obtain ⟨hd,hsd,hdc⟩ := h.back hc hs rfl hcd
  have hne := h.consistent.links.ne_target hc hcd
  simp only [lclsLocallySwitchedFn,bind_eq_ok] at ha
  obtain ⟨_,_,ha⟩ := ha
  split at ha
  · simp only [bind_eq_ok] at ha
    obtain ⟨net1,hchg,ha⟩ := ha
    have hb1 := lclsStateChg_becomes hs rfl hchg
    have hcalm1 := lclsStateChg_calm (by simp) hchg
    have hcd1 : (net1.conn c).other = some d := by
      change net1.other c = some d
      rw [hb1.other,hcd]
    simp only [hcd1] at ha
    have hsd1 : net1.st d = some .locallySwitched := by
      simpa [hb1.st,hne,LclsState.mate] using hsd
    obtain ⟨hb2,hcalm2⟩ := otherBreak_ls hsd1 ha
    rw [hb1.st,hb1.other] at hb2
    have hcalm := hcalm1.trans hcalm2
    have hrc := (h.leg hc hs).redirected
    have hrd := (h.leg hd hsd).redirected
    refine h.pairMoves hok hc hcd hdc (hb1.trans hb2) hcalm.1 ?_ (fun _ => rfl) (fun _ => rfl)
      hrc hrd
    rw [Function.update_comm hne.symm,Function.update_eq_self,Function.update_eq_self]
    exact hcalm.2
  · cases ha
    exact h

theorem MediaOk.applyWaitBreak (h : MediaOk m net) (hm : m ≠ .disabled) (hok : Consistent net')
    {n : Nat} (hc : net.live c) (hs : net.st c = some .locallySwitchedWaitBreak)
    (ha : lclsLocallySwitchedWaitBreakFn (lclsDispatch (n+1)) net c .applyCfgCsc = .ok net') :
    MediaOk m net' := by
  have hleg := h.consistent.legOk hc hs
  obtain ⟨d,hcd⟩ := Option.ne_none_iff_exists'.mp (hleg.peer rfl)
  obtain ⟨hd,hsd,hdc⟩ := h.back hc hs rfl hcd
  have hne := h.consistent.links.ne_target hc hcd
  obtain ⟨hec,hed⟩ := (h.leg hc hs).equipped hcd
  simp only [lclsLocallySwitchedWaitBreakFn,bind_eq_ok] at ha
  obtain ⟨_,_,ha⟩ := ha
  split at ha
  · simp only [hec.breaks hm hed hcd hd,ok_bind] at ha
    have hst1 : (net.setRedirect c .toMsc).st c = some .locallySwitchedWaitBreak := by
      rw [(setRedirect_same net c .toMsc).st,hs]
    have hfi1 : ((net.setRedirect c .toMsc).conn c).fi = some .locallySwitchedWaitBreak := hst1
    have hchg : lclsStateChg (net.setRedirect c .toMsc) c .noLongerLs = .ok (net.unswitch c) := by
      simp [lclsStateChg,hfi1,lclsFsm,Net.unswitch]
    simp only [hchg,ok_bind] at ha
    have hb1 := net.unswitch_becomes c
    have hsame1 := SameConfig.unswitch net c
    have hcd1 : ((net.unswitch c).conn c).other = some d := by
      change (net.unswitch c).other c = some d
      rw [hb1.other,hcd]
    have hlive1 := live_congr hb1.subscrConns
    have hsd1 : (net.unswitch c).st d = some .locallySwitchedWaitOtherBreak := by
      simpa [hb1.st,hne,LclsState.mate] using hsd
    have hdc1 : (net.unswitch c).other d = some c := by rw [hb1.other,hdc]
    simp only [hcd1,otherBreak_wob hm (hsame1.equipped hec) (hsame1.equipped hed)
      (by rwa [hlive1]) (by rwa [hlive1]) hdc1 hsd1,Except.ok.injEq] at ha
    subst ha
    have hb2 := (net.unswitch c).unswitch_becomes d
    rw [hb1.st,hb1.other] at hb2
    have hred : (lclsSendNotify ((net.unswitch c).unswitch d) d).red =
        Function.update (Function.update net.red c (some .toMsc)) d (some .toMsc) := by simp
    exact h.pairMoves hok hc hcd hdc ((hb1.trans hb2).notify d)
      ((hsame1.trans (.unswitch _ d)).notify d) hred (by simp [LclsState.isLs])
      (by simp [LclsState.isLs]) (by simp [LclsState.isLs]) (by simp [LclsState.isLs])
  · cases ha
    exact h

theorem MediaOk.enabled (h : MediaOk m net) (hm : m ≠ .disabled) (hok : Consistent net')
    {n : Nat} (hc : net.live c) {s : LclsState} (hs : net.st c = some s) (hp : s.needsPeer)
    (hf : ∀ o, net.other c = some o → Follows (net.st o) (net.conn c) (net.conn o))
    {possible : Bool} (hposs : lclsEnablePossible net c = .ok possible)
    (ha : (if possible = true then enableLs (lclsDispatch (n+2)) net c else pure net) = .ok net') :
    MediaOk m net' := by
  obtain ⟨d,hcd⟩ := Option.ne_none_iff_exists'.mp ((h.consistent.legOk hc hs).peer hp)
  have hd := h.consistent.links.live_target hc hcd
  have hne := h.consistent.links.ne_target hc hcd
  obtain ⟨hec,hed⟩ := (h.leg hc hs).equipped hcd
  rw [lclsEnablePossible_eq hec.lchan hed.lchan hcd hd] at hposs
  cases hposs
  split at ha
  · rename_i hcan
    obtain ⟨hst,hcan'⟩ := hf d hcd hcan
    have hdc : net.other d = some c := by
      rcases hst with hst | hst
      · exact h.consistent.sender hc hcd hst rfl
      · exact h.consistent.sender hc hcd hst rfl
    rw [enableLs_both hm hec hed hc hd hne hcd hdc hs hst hcan'] at ha
    cases ha
    exact h.switchBoth hok hc hcd hdc
  · cases ha
    exact h

theorem MediaOk.linkedEnd (h : MediaOk m net) (hm : m ≠ .disabled) (hok : Consistent net')
    (hl : Looking net c) {n : Nat} {s : LclsState} (hs : net.st c = some s)
    (hother : net.other c = none) (hls : lclsFsm.outState s .notYetLs = true)
    (hfind : findConnWithSameGcr net c = some d) (hu : Unpaired net c d) {net1 : Net}
    (h1 : Correlates net net1 c d) (hcalm : Calm net net1)
    (hec : Equipped m (net.conn c)) (hed : Equipped m (net.conn d))
    (hf : Follows ((net.st d).map LclsState.afterCorrelated) (net.conn c) (net.conn d))
    {possible : Bool} (hposs : lclsEnablePossible net1 c = .ok possible)
    (ha : (if possible = true then enableLs (lclsDispatch (n+2)) net1 c
      else lclsStateChg net1 c .notYetLs) = .ok net') : MediaOk m net' := by
  obtain ⟨hd,hdc,_⟩ := findConnWithSameGcr_eq hfind
  have hcd1 := h1.other_self hdc
  have hec1 := hcalm.1.equipped hec
  have hed1 := hcalm.1.equipped hed
  have hs1 : net1.st c = some s := by rw [h1.st_self hdc,hs]
  have hc1 : net1.live c := by rw [h1.live]; exact hl.live
  have hd1 : net1.live d := by rwa [h1.live]
  rw [lclsEnablePossible_eq hec1.lchan hed1.lchan hcd1 hd1,hcalm.1.canEnable_eq] at hposs
  cases hposs
  split at ha
  · rename_i hcan
    obtain ⟨hst,hcan'⟩ := hf hcan
    have hacc : (net1.st d = some .notYetLs ∨ net1.st d = some .noLongerLs) ∧
        net1.other d = some c := by
      obtain ⟨y,sd',hb,⟨_,_,hdrop⟩ | ⟨s0,hs0,_,rfl,rfl,_,_⟩⟩ := h1
      · obtain ⟨sd,hsd⟩ := h.consistent.leg hd
        have hdr := hdrop sd hsd.st
        rw [hsd.st] at hst
        rcases hst with hst | hst
        · cases sd <;> first | (cases hst; done) | cases hdr
        · cases sd <;> first | (cases hst; done) | cases hdr
      · rw [hs0] at hst
        refine ⟨by simpa [hb.st] using hst,?_⟩
        rw [hb.other]
        exact rewire_right ..
    rw [enableLs_both hm hec1 hed1 hc1 hd1 hdc hcd1 hacc.2 hs1 hacc.1
      (by rw [hcalm.1.canEnable_eq]; exact hcan')] at ha
    cases ha
    exact h.linkBoth hl hother hfind hu h1 hcalm hacc.2 hok hec hed
  · have hb := lclsStateChg_becomes hs1 hls ha
    exact h.linkCalm hok hl hfind hu h1 (hcalm.trans (lclsStateChg_calm (by simp) ha)) rfl hb hec hed

theorem MediaOk.applyNoLcls (h : MediaOk m net) (hm : m ≠ .disabled) (hok : Consistent net')
    (hc : net.live c) (hsafe : SafeInput net (.apply c)) (hres : ResourcesInput m net (.apply c))
    (hg : MediaInput net (.apply c)) {n : Nat} (hs : net.st c = some .noLcls)
    (ha : lclsNoLclsFn (lclsDispatch (n+2)) net c .applyCfgCsc = .ok net') : MediaOk m net' := by
  obtain ⟨_,hcor⟩ := hsafe hc
  obtain ⟨-,hlink⟩ := hg hc
  have hleg := h.consistent.legOk hc hs
  have hlook : net.correlates c = true → Looking net c := fun hl => ⟨hc,hl,(hcor hl).1 _⟩
  simp only [lclsNoLclsFn,bind_eq_ok] at ha
  obtain ⟨_,_,ha⟩ := ha
  split at ha
  · cases ha; exact h
  split at ha
  · cases ha; exact h
  split at ha
  · cases ha; exact h
  rename_i hmode hgcr hcfg
  have hcorr : net.correlates c = true := by
    simp [Net.correlates,hs,Net.gcr,hmode,hgcr,hcfg]
  simp only [bind_eq_ok] at ha
  obtain ⟨⟨net1,found⟩,hperf,ha⟩ := ha
  have hcalm := lclsPerformCorrelation_calm hperf
  rcases lclsPerformCorrelation_eq_ok hperf with ⟨rfl,hfind,hb⟩ | ⟨rfl,d,hfind,h1⟩
  · simp only [Bool.not_false,if_true] at ha
    have hs1 : net1.st c = some .noLcls := by rw [hb.st,hs]
    have hb' := lclsStateChg_becomes hs1 rfl ha
    rw [hb.st,hb.other] at hb'
    exact h.notFound hok (hlook hcorr) (hcalm.trans (lclsStateChg_calm (by simp) ha)) rfl
      (hb.trans hb')
  · simp only [Bool.not_true,Bool.false_eq_true,if_false,bind_eq_ok] at ha
    obtain ⟨_,_,possible,hposs,ha⟩ := ha
    obtain ⟨hec,hed⟩ := hres hc hcorr d hfind
    obtain ⟨_,hf⟩ := hlink hcorr d hfind
    exact h.linkedEnd hm hok (hlook hcorr) hs (hleg.noPeer rfl) rfl hfind
      ((hcor hcorr).2 d hfind) h1 hcalm hec hed hf hposs ha

theorem MediaOk.applyNotPossibleLs (h : MediaOk m net) (hm : m ≠ .disabled) (hok : Consistent net')
    (hc : net.live c) (hsafe : SafeInput net (.apply c)) (hres : ResourcesInput m net (.apply c))
    (hg : MediaInput net (.apply c)) {n : Nat} (hs : net.st c = some .notPossibleLs)
    (ha : lclsNotPossibleLsFn (lclsDispatch (n+2)) net c .applyCfgCsc = .ok net') : MediaOk m net' := by
  obtain ⟨_,hcor⟩ := hsafe hc
  obtain ⟨-,hlink⟩ := hg hc
  have hleg := h.consistent.legOk hc hs
  have hlook : net.correlates c = true → Looking net c := fun hl => ⟨hc,hl,(hcor hl).1 _⟩
  have hcorr : net.correlates c = true := by simp [Net.correlates,hs]
  simp only [lclsNotPossibleLsFn,bind_eq_ok] at ha
  obtain ⟨_,_,⟨net1,found⟩,hperf,ha⟩ := ha
  have hcalm := lclsPerformCorrelation_calm hperf
  rcases lclsPerformCorrelation_eq_ok hperf with ⟨rfl,hfind,hb⟩ | ⟨rfl,d,hfind,h1⟩
  · simp only [Bool.not_false,if_true,pure_eq_ok,Except.ok.injEq] at ha
    subst ha
    rw [← Function.update_eq_self c net.st,hs] at hb
    exact h.notFound hok (hlook hcorr) hcalm rfl hb
  · simp only [Bool.not_true,Bool.false_eq_true,if_false,bind_eq_ok] at ha
    obtain ⟨_,_,possible,hposs,ha⟩ := ha
    obtain ⟨hec,hed⟩ := hres hc hcorr d hfind
    obtain ⟨_,hf⟩ := hlink hcorr d hfind
    exact h.linkedEnd hm hok (hlook hcorr) hs (hleg.noPeer rfl) rfl hfind
      ((hcor hcorr).2 d hfind) h1 hcalm hec hed hf hposs ha

theorem MediaOk.applyReqLclsNotSupp (h : MediaOk m net) (hok : Consistent net')
    (hc : net.live c) (hsafe : SafeInput net (.apply c)) (hres : ResourcesInput m net (.apply c))
    (hg : MediaInput net (.apply c)) {n : Nat} (hs : net.st c = some .reqLclsNotSupp)
    (ha : lclsReqLclsNotSuppFn (lclsDispatch (n+2)) net c .applyCfgCsc = .ok net') : MediaOk m net' := by
  obtain ⟨_,hcor⟩ := hsafe hc
  obtain ⟨-,hlink⟩ := hg hc
  have hleg := h.consistent.legOk hc hs
  have hlook : net.correlates c = true → Looking net c := fun hl => ⟨hc,hl,(hcor hl).1 _⟩
  have hcorr : net.correlates c = true := by simp [Net.correlates,hs]
  simp only [lclsReqLclsNotSuppFn,bind_eq_ok] at ha
  obtain ⟨⟨net1,found⟩,hperf,ha⟩ := ha
  have hcalm := lclsPerformCorrelation_calm hperf
  rcases lclsPerformCorrelation_eq_ok hperf with ⟨rfl,hfind,hb⟩ | ⟨rfl,d,hfind,h1⟩
  · simp only [Bool.not_false,if_true] at ha
    have hs1 : net1.st c = some .reqLclsNotSupp := by rw [hb.st,hs]
    rw [lclsStateChg_refused hs1 rfl] at ha
    cases ha
    rw [← Function.update_eq_self c net.st,hs] at hb
    exact h.notFound hok (hlook hcorr) hcalm rfl hb
  · obtain ⟨hd,hdc,_⟩ := findConnWithSameGcr_eq hfind
    obtain ⟨hec,hed⟩ := hres hc hcorr d hfind
    obtain ⟨hreq,_⟩ := hlink hcorr d hfind
    have hu := (hcor hcorr).2 d hfind
    have hs1 : net1.st c = some .reqLclsNotSupp := by rw [h1.st_self hdc,hs]
    simp only [Bool.not_true,Bool.false_eq_true,if_false,bind_eq_ok] at ha
    obtain ⟨_,_,ha⟩ := ha
    split at ha
    · simp only [pure_eq_ok,Except.ok.injEq] at ha
      subst ha
      have hb : Becomes net1 net1 (Function.update net1.st c (some .reqLclsNotSupp))
          net1.other := by
        rw [← hs1,Function.update_eq_self]
        exact Same.refl net1
      exact h.linkCalm hok (hlook hcorr) hfind hu h1 hcalm rfl hb hec hed
    · simp only [bind_eq_ok] at ha
      obtain ⟨possible,hposs,ha⟩ := ha
      rw [lclsEnablePossible_eq (hcalm.1.equipped hec).lchan (hcalm.1.equipped hed).lchan
        (h1.other_self hdc) (by rwa [h1.live]),hcalm.1.canEnable_eq] at hposs
      cases hposs
      split at ha
      · rename_i hcan
        exact absurd hs (hreq hcan)
      · exact h.linkCalm hok (hlook hcorr) hfind hu h1
          (hcalm.trans (lclsStateChg_calm (by simp) ha)) rfl
          (lclsStateChg_becomes hs1 rfl ha) hec hed

theorem MediaOk.apply (h : MediaOk m net) (hm : m ≠ .disabled) (hok : Consistent net')
    (hc : net.live c) (hsafe : SafeInput net (.apply c))
    (hres : ResourcesInput m net (.apply c)) (hg : MediaInput net (.apply c))
    (ha : lclsApplyConfig net c = .ok net') : MediaOk m net' := by
  obtain ⟨hpair,-⟩ := hg hc
  obtain ⟨s,hs⟩ := h.consistent.leg hc
  unfold lclsApplyConfig at ha
  rw [dispatchDepth,lclsDispatch_of_st hc hs.st] at ha
  cases s
  case noLcls => exact h.applyNoLcls hm hok hc hsafe hres hg hs.st ha
  case notPossibleLs => exact h.applyNotPossibleLs hm hok hc hsafe hres hg hs.st ha
  case reqLclsNotSupp => exact h.applyReqLclsNotSupp hok hc hsafe hres hg hs.st ha
  case notYetLs =>
    simp only [lclsFsm,LclsEvent.kind,if_true,lclsAction,lclsNotYetLsFn,bind_eq_ok] at ha
    obtain ⟨_,_,possible,hposs,ha⟩ := ha
    exact h.enabled hm hok hc hs.st rfl (hpair hs.st) hposs ha
  case noLongerLs =>
    simp [lclsFsm,LclsEvent.kind,lclsAction,lclsNoLongerLsFn] at ha
  case locallySwitched => exact h.applyLocallySwitched hok hc hs.st ha
  case locallySwitchedWaitBreak => exact h.applyWaitBreak hm hok hc hs.st ha
  case locallySwitchedWaitOtherBreak =>
    simp only [lclsFsm,LclsEvent.kind,Bool.false_eq_true,if_false,Except.ok.injEq] at ha
    exact ha ▸ h

end Apply

section Update

variable {net net' : Net} {m : LclsMode} {c : ConnId} {config control : UInt8}

theorem updateLclsCfgCsc_media {conn : Conn}
    (h : updateLclsCfgCsc (net.conn c) config control = some conn) :
    (net.upd c fun _ => conn).red = net.red ∧
    ∀ x, Equipped m (net.conn x) → Equipped m ((net.upd c fun _ => conn).conn x) := by
  simp only [updateLclsCfgCsc] at h
  split at h
  · cases h
  · cases h
    constructor
    · funext x
      by_cases hx : x = c
      · subst hx; simp [Net.red]
      · simp [Net.red,net.upd_conn_ne _ hx]
    · intro x he
      by_cases hx : x = c
      · subst hx
        simp only [Net.upd_conn_self]
        exact ⟨he.lchan,he.ci,he.mode⟩
      · rwa [net.upd_conn_ne _ hx]

/-- An update of a config that is taken, or that is refused to a leg which is
not locally switched. -/
theorem MediaOk.cfgUpdate (h : MediaOk m net) (hc : net.live c) {s : LclsState} {taken : Bool}
    (hs : LegOk net c s) (hgcr : s = .noLcls → net.gcr c ≠ [])
    (hls : s.isLs → (updateLclsCfgCsc (net.conn c) config control).isSome)
    (hu : lclsHandleCfgUpdate net c config control = .ok (net',taken)) : MediaOk m net' := by
  simp only [lclsHandleCfgUpdate] at hu
  split at hu
  · rename_i hnone
    simp only [bind_eq_ok,pure_eq_ok,Except.ok.injEq,Prod.mk.injEq] at hu
    obtain ⟨net1,hchg,rfl,_⟩ := hu
    have hn : s.isLs = false := by
      cases hl : s.isLs with
      | false => rfl
      | true => simp [hnone,hl] at hls
    have hb := lclsStateChg_becomes hs.st (by cases s <;> rfl) hchg
    have hcalm := lclsStateChg_calm (by simp) hchg
    have hok : Consistent net1 := by
      apply h.consistent.move hb
      · simp [LclsState.needsPeer]
      · simp [LclsState.refusesPeer]
      · intro _ _
        by_cases hno : s = .noLcls
        · exact hgcr hno
        · exact hs.gcr hno
    apply h.calm (fun x => x = c) hok
    · intro x hx
      rwa [← live_congr hb.subscrConns]
    · exact fun x => hcalm.1.equipped
    · exact hcalm.2
    · intro x _ hx
      simp [hb.st,hb.other,hx]
    · rintro x t _ rfl ht
      have he : s = t := by simpa [hs.st] using ht
      exact he ▸ hn
    · rintro x t _ rfl ht
      have he : LclsState.reqLclsNotSupp = t := by simpa [hb.st] using ht
      exact he ▸ rfl
    · rintro x o _ rfl ho
      rw [hb.other] at ho
      exact (h.leg hc hs.st).equipped ho
  · rename_i conn hupd
    cases hu
    have hsame := updateLclsCfgCsc_same hupd
    have hmedia := updateLclsCfgCsc_media (m := m) hupd
    exact h.same (h.consistent.stays hsame.stays) hmedia.2 hsame hmedia.1

theorem MediaOk.updateOrBreak (h : MediaOk m net) (hc : net.live c) {s : LclsState}
    (hs : LegOk net c s) (hls : s.isLs)
    (hsome : (updateLclsCfgCsc (net.conn c) config control).isSome)
    (hu : updateOrBreak net c config control = .ok net') : MediaOk m net' := by
  obtain ⟨conn,hconn⟩ := Option.isSome_iff_exists.mp hsome
  have hno : s ≠ .noLcls := by rintro rfl; cases hls
  simp only [Lcls.updateOrBreak,bind_eq_ok] at hu
  obtain ⟨⟨net1,taken⟩,hupd,hu⟩ := hu
  have ht : taken = true := by
    simp only [lclsHandleCfgUpdate,hconn,pure_eq_ok,Except.ok.injEq,Prod.mk.injEq] at hupd
    exact hupd.2.symm
  subst ht
  cases hu
  exact h.cfgUpdate hc hs (fun h => absurd h hno) (fun _ => hsome) hupd

theorem MediaOk.update (h : MediaOk m net) (hm : m ≠ .disabled) (hok : Consistent net')
    (hc : net.live c) {config control : Option UInt8}
    (hg : MediaInput net (.update c config control))
    (hu : lclsUpdateConfig net c config control = .ok net') : MediaOk m net' := by
  obtain ⟨s,hs⟩ := h.consistent.leg hc
  simp only [lclsUpdateConfig] at hu
  split at hu
  · cases hu; exact h
  rename_i hsome
  have hsome' : config ≠ none ∨ control ≠ none := by
    by_contra hn
    simp_all
  obtain ⟨hls,hfol⟩ := hg hc hsome'
  rw [dispatchDepth,lclsDispatch_of_st hc hs.st] at hu
  have hls' := hls s hs.st
  cases s
  case noLcls =>
    simp only [lclsFsm,LclsEvent.kind,if_true,lclsAction,lclsNoLclsFn,bind_eq_ok] at hu
    obtain ⟨_,_,hu⟩ := hu
    split at hu
    · cases hu; exact h
    split at hu
    · cases hu; exact h
    · rename_i hgcr
      simp only [bind_eq_ok] at hu
      obtain ⟨⟨net1,taken⟩,hupd,hu⟩ := hu
      cases hu
      exact h.cfgUpdate hc hs (fun _ => hgcr) hls' hupd
  case notYetLs =>
    simp only [lclsFsm,LclsEvent.kind,if_true,lclsAction,lclsNotYetLsFn,bind_eq_ok] at hu
    obtain ⟨_,_,⟨net1,taken⟩,hupd,hu⟩ := hu
    cases hu
    exact h.cfgUpdate hc hs (by simp) hls' hupd
  case notPossibleLs =>
    simp only [lclsFsm,LclsEvent.kind,if_true,lclsAction,lclsNotPossibleLsFn,bind_eq_ok] at hu
    obtain ⟨_,_,⟨net1,taken⟩,hupd,hu⟩ := hu
    cases hu
    exact h.cfgUpdate hc hs (by simp) hls' hupd
  case reqLclsNotSupp =>
    simp only [lclsFsm,LclsEvent.kind,if_true,lclsAction,lclsReqLclsNotSuppFn,bind_eq_ok] at hu
    obtain ⟨⟨net1,taken⟩,hupd,hu⟩ := hu
    cases hu
    exact h.cfgUpdate hc hs (by simp) hls' hupd
  case noLongerLs =>
    simp only [lclsFsm,LclsEvent.kind,if_true,lclsAction,lclsNoLongerLsFn,bind_eq_ok] at hu
    obtain ⟨_,_,⟨net1,taken⟩,hupd,hu⟩ := hu
    have h1 := h.cfgUpdate hc hs (by simp) hls' hupd
    rcases lclsHandleCfgUpdate_becomes hs.st hupd with ⟨rfl,hb⟩ | ⟨rfl,_⟩
    · simp only [Bool.not_true,Bool.false_eq_true,if_false,bind_eq_ok] at hu
      obtain ⟨possible,hposs,hu⟩ := hu
      have hc1 : net1.live c := by rwa [live_congr hb.subscrConns]
      have hs1 : net1.st c = some .noLongerLs := by rw [hb.st,hs.st]
      refine h1.enabled hm hok hc1 hs1 rfl ?_ hposs hu
      intro o ho
      rw [hb.other] at ho
      have hne := h.consistent.links.ne_target hc ho
      simp only [lclsHandleCfgUpdate] at hupd
      split at hupd
      · simp only [bind_eq_ok,pure_eq_ok,Except.ok.injEq,Prod.mk.injEq] at hupd
        obtain ⟨_,_,_,hf⟩ := hupd
        cases hf
      · rename_i conn hconn
        cases hupd
        rw [hb.st,Net.upd_conn_self,net.upd_conn_ne _ hne]
        exact hfol hs.st conn hconn o ho
    · cases hu
      exact h1
  case locallySwitched =>
    simp only [lclsFsm,LclsEvent.kind,if_true,lclsAction,lclsLocallySwitchedFn,bind_eq_ok] at hu
    obtain ⟨_,_,hu⟩ := hu
    exact h.updateOrBreak hc hs rfl (hls' rfl) hu
  case locallySwitchedWaitBreak =>
    simp only [lclsFsm,LclsEvent.kind,if_true,lclsAction,lclsLocallySwitchedWaitBreakFn,
      bind_eq_ok] at hu
    obtain ⟨_,_,hu⟩ := hu
    exact h.updateOrBreak hc hs rfl (hls' rfl) hu
  case locallySwitchedWaitOtherBreak =>
    simp only [lclsFsm,LclsEvent.kind,if_true,lclsAction,lclsLocallySwitchedWaitOtherBreakFn,
      bind_eq_ok] at hu
    obtain ⟨_,_,hu⟩ := hu
    exact h.updateOrBreak hc hs rfl (hls' rfl) hu

end Update

theorem setGcr_red (net : Net) (c : ConnId) (gcr : List UInt8) :
    (setGcr net c gcr).red = net.red := by
  funext x
  unfold setGcr
  split
  · by_cases hx : x = c
    · subst hx; simp [Net.red]
    · simp [Net.red,net.upd_conn_ne _ hx]
  · rfl

theorem Equipped.setGcr {net : Net} {m : LclsMode} {x : ConnId} (h : Equipped m (net.conn x))
    (c : ConnId) (gcr : List UInt8) : Equipped m ((setGcr net c gcr).conn x) := by
  unfold Lcls.setGcr
  split
  · by_cases hx : x = c
    · subst hx
      rw [Net.upd_conn_self]
      exact ⟨h.lchan,h.ci,h.mode⟩
    · rwa [net.upd_conn_ne _ hx]
  · exact h

section Term

variable {net net' : Net} {m : LclsMode} {c : ConnId}

theorem lclsFsmCleanup_calm
    (hp : ∀ o s, net.other c = some o → net.st o = some s → s.needsPeer = false)
    (h : lclsFsmCleanup net c = .ok net') : Calm net net' := by
  simp only [lclsFsmCleanup] at h
  split at h
  · cases h; exact .refl _
  · rename_i o ho
    simp only [bind_eq_ok,pure_eq_ok] at h
    obtain ⟨net1,hd,h⟩ := h
    cases h
    have hcalm : Calm net net1 := by
      obtain ⟨_,rfl | ⟨s,hs,hin,hd⟩⟩ := lclsDispatch_eq_ok hd
      · exact .refl _
      · have hn := hp o s ho hs
        cases s
        case reqLclsNotSupp =>
          simp only [lclsAction,lclsReqLclsNotSuppFn,bind_eq_ok,pure_eq_ok] at hd
          obtain ⟨_,_,hd⟩ := hd
          cases hd
          exact .setOther _ _ _
        case noLcls => cases hin
        case notPossibleLs => cases hin
        all_goals simp [LclsState.needsPeer] at hn
    exact hcalm.trans (.setOther _ _ _)

theorem MediaOk.term {net1 : Net} (h : MediaOk m net) (hok : Consistent (net1.free c))
    (hc : net.live c) (hsafe : SafeInput net (.term c)) (hg : MediaInput net (.term c))
    (hcl : lclsFsmCleanup net c = .ok net1) : MediaOk m (net1.free c) := by
  obtain ⟨sc,hsc⟩ := h.consistent.leg hc
  have hncs := hg hc sc hsc.st
  have hpeer : ∀ o s, net.other c = some o → net.st o = some s → s.needsPeer = false := by
    intro o s ho hs
    have hsv := (hsafe hc).2 o ho s hs
    have hlo := h.consistent.links.live_target hc ho
    have hls : s.isLs = false := by
      cases hl : s.isLs with
      | false => rfl
      | true =>
        have hoc : net.other o = some c := h.consistent.sender hc ho hs (by
          exact LclsState.needsPeer_isLs hl)
        have := h.not_peer hlo hs hoc hsc.st hncs
        simp [hl] at this
    rcases hsv with hr | rfl | ⟨rfl,-⟩
    · exact LclsState.needsPeer_refusesPeer hr
    · cases hls
    · rfl
  have hcalm := lclsFsmCleanup_calm hpeer hcl
  have hbec : ∃ st other, Becomes net net1 st other ∧
      ∀ x, x ≠ c → net.other c ≠ some x → st x = net.st x ∧ other x = net.other x := by
    cases ho : net.other c with
    | none =>
      have ho' : (net.conn c).other = none := ho
      simp only [lclsFsmCleanup,ho',pure_eq_ok,Except.ok.injEq] at hcl
      subst hcl
      exact ⟨_,_,Same.refl net,by simp⟩
    | some o =>
      obtain ⟨s,hs⟩ := h.consistent.leg (h.consistent.links.live_target hc ho)
      obtain ⟨_,⟨_,hb⟩ | ⟨_,_,hb⟩⟩ := lclsFsmCleanup_outcome ho hs.st hcl
      · exact ⟨_,_,hb,fun x hxc _ => by simp [hxc]⟩
      · refine ⟨_,_,hb,fun x hxc hxo => ?_⟩
        have hxo' : x ≠ o := by rintro rfl; exact hxo rfl
        simp [hxc,hxo']
  obtain ⟨st,other,hb,hout⟩ := hbec
  have hst : (net1.free c).st = st := hb.st
  have hother : (net1.free c).other = other := hb.other
  have hlive : ∀ x, (net1.free c).live x → net.live x ∧ x ≠ c := by
    intro x hx
    rwa [Net.free_live,live_congr hb.subscrConns] at hx
  have hpeerSt : ∀ x s, net.other c = some x → st x = some s → s.isLs = false := by
    intro x s hx hs
    have hlx := h.consistent.links.live_target hc hx
    obtain ⟨s0,hs0⟩ := h.consistent.leg hlx
    have hn := hpeer x s0 hx hs0.st
    obtain ⟨_,⟨_,hb'⟩ | ⟨_,_,hb'⟩⟩ := lclsFsmCleanup_outcome hx hs0.st hcl
    · have he : s0 = s := by
        have := hb.st.symm.trans hb'.st
        rw [this,hs0.st] at hs
        simpa using hs
      exact LclsState.isLs_needsPeer (he ▸ hn)
    · have he : s0.afterDead = s := by
        have := hb.st.symm.trans hb'.st
        rw [this] at hs
        simpa using hs
      subst he
      cases s0 <;> first | rfl | cases hn
  apply h.calm (fun x => net.other c = some x) hok
  · exact fun x hx => (hlive x hx).1
  · exact fun x => hcalm.1.equipped
  · exact hcalm.2
  · intro x hx ht
    rw [hst,hother]
    exact hout x (hlive x hx).2 ht
  · exact fun x s _ ht hs => LclsState.isLs_needsPeer (hpeer x s ht hs)
  · intro x s _ ht hs
    rw [hst] at hs
    exact hpeerSt x s ht hs
  · intro x o hx ht ho
    -- the peer lost its link, or never had one
    exfalso
    obtain ⟨hlx,hxc⟩ := hlive x hx
    obtain ⟨s0,hs0⟩ := h.consistent.leg hlx
    have hn := hpeer x s0 ht hs0.st
    rw [hother,← hb.other] at ho
    obtain ⟨_,⟨hin,hb'⟩ | ⟨_,_,hb'⟩⟩ := lclsFsmCleanup_outcome ht hs0.st hcl
    · rw [hb'.other,Function.update_of_ne hxc] at ho
      have hr : s0.refusesPeer := LclsState.refusesPeer_of_deaf hin
      simp [hs0.noPeer hr] at ho
    · rw [hb'.other,Function.update_of_ne hxc,Function.update_self,LclsState.otherAfterDead] at ho
      have hwob : s0 ≠ .locallySwitchedWaitOtherBreak := by rintro rfl; cases hn
      simp [hwob] at ho

theorem MediaOk.alloc (h : MediaOk m net) (hc : ¬ net.live c) (msc : Msc) :
    MediaOk m (net.alloc c msc) where
  consistent := h.consistent.alloc hc msc
  leg {x s} hx hs := by
    rw [Net.alloc_live] at hx
    by_cases hxc : x = c
    · subst hxc
      have he : LclsState.noLcls = s := by simpa [Net.st,Net.alloc,allocConn] using hs
      subst he
      refine ⟨?_,?_,?_⟩
      · simp [Net.red,Net.alloc,allocConn,LclsState.isLs]
      · simp [Net.alloc_other]
      · simp [Net.alloc_other]
    · have hlx := hx.resolve_right hxc
      have hconn : ∀ y, y ≠ c → (net.alloc c msc).conn y = net.conn y := by
        intro y hy
        simp [Net.alloc,hy]
      have hl := h.leg hlx (s := s) (by simpa [Net.st,hconn x hxc] using hs)
      have hne : ∀ o, net.other x = some o → o ≠ c := by
        rintro o ho rfl
        exact hc (h.consistent.links.live_target hlx ho)
      refine ⟨?_,?_,?_⟩
      · simpa [Net.red,hconn x hxc] using hl.redirected
      · intro o ho
        simp only [Net.alloc_other,Function.update_of_ne hxc] at ho
        simpa [Net.st,hconn o (hne o ho)] using hl.mate ho
      · intro o ho
        simp only [Net.alloc_other,Function.update_of_ne hxc] at ho
        rw [hconn x hxc,hconn o (hne o ho)]
        exact hl.equipped ho

theorem MediaOk.resources (h : MediaOk m net) (hc : net.live c) {lchan : Option Lchan}
    {ci : Option Ci} {msc : Msc} (hg : ResourcesInput m net (.resources c lchan ci msc)) :
    MediaOk m (net.upd c fun conn =>
      { conn with lchan := lchan, mgwEndpointCiMsc := ci, msc := msc }) := by
  have hsame := Becomes.upd net c
    (f := fun conn => { conn with lchan := lchan, mgwEndpointCiMsc := ci, msc := msc })
    (fun _ => rfl) (fun _ => rfl) fun _ => rfl
  refine ⟨h.consistent.stays (Same.stays hsame),?_⟩
  intro x s hx hs
  have hlx : net.live x := hx
  rw [hsame.st] at hs
  have hl := h.leg hlx hs
  refine ⟨?_,?_,?_⟩
  · have hr := hl.redirected
    by_cases hxc : x = c
    · subst hxc
      simpa [Net.red] using hr
    · simpa [Net.red,net.upd_conn_ne _ hxc] using hr
  · rw [hsame.other,hsame.st]
    exact hl.mate
  · rw [hsame.other]
    intro o ho
    obtain ⟨hex,heo⟩ := hl.equipped ho
    have hnew : x = c ∨ o = c → Equipped m
        { net.conn c with lchan := lchan, mgwEndpointCiMsc := ci, msc := msc } := by
      rintro (rfl | rfl)
      · exact hg hc (.inl (by simp [ho]))
      · exact hg hc (.inr ⟨x,hlx,ho⟩)
    constructor
    · by_cases hxc : x = c
      · subst hxc
        rw [Net.upd_conn_self]
        exact hnew (.inl rfl)
      · rwa [net.upd_conn_ne _ hxc]
    · by_cases hoc : o = c
      · subst hoc
        rw [Net.upd_conn_self]
        exact hnew (.inr rfl)
      · rwa [net.upd_conn_ne _ hoc]

end Term

theorem MediaOk.step {net net' : Net} {m : LclsMode} {i : Input} (hm : m ≠ .disabled)
    (h : MediaOk m net) (hsafe : SafeInput net i) (hres : ResourcesInput m net i)
    (hg : MediaInput net i) (hs : net.step i = .ok net') : MediaOk m net' := by
  have hok := h.consistent.step hsafe hs
  cases i with
  | alloc c msc =>
    simp only [Net.step] at hs
    split at hs
    · cases hs; exact h
    · rename_i hc
      cases hs
      exact h.alloc hc msc
  | term c =>
    simp only [Net.step] at hs
    split at hs
    · rename_i hc
      simp only [bind_eq_ok,pure_eq_ok] at hs
      obtain ⟨net1,hcl,hs⟩ := hs
      cases hs
      exact h.term hok hc hsafe hg hcl
    · cases hs; exact h
  | setGcr c gcr =>
    simp only [Net.step] at hs
    split at hs
    · cases hs
      apply h.calm (fun _ => False) hok
      · intro x hx
        rwa [← live_congr (setGcr_subscrConns ..)]
      · exact fun x hx => hx.setGcr c gcr
      · exact setGcr_red net c gcr
      · intro x _ _
        simp
      all_goals simp
    · cases hs; exact h
  | update c config control =>
    simp only [Net.step] at hs
    split at hs
    · rename_i hc
      exact h.update hm hok hc hg hs
    · cases hs; exact h
  | apply c =>
    simp only [Net.step] at hs
    split at hs
    · rename_i hc
      exact h.apply hm hok hc hsafe hres hg hs
    · cases hs; exact h
  | resources c lchan ci msc =>
    simp only [Net.step] at hs
    split at hs
    · rename_i hc
      cases hs
      exact h.resources hc hres
    · cases hs; exact h

theorem MediaOk.init (m : LclsMode) : MediaOk m Net.init where
  consistent := .init
  leg hc := by simp [Net.live,Net.init] at hc

/-- In every run of such inputs the RTP of a leg goes to its peer exactly while
the leg is locally switched, and its peer is locally switched then too. -/
theorem lcls_media_agrees {m : LclsMode} (hm : m ≠ .disabled) {net : Net}
    (h : Reach Net.step (fun net i => SafeInput net i ∧ ResourcesInput m net i ∧ MediaInput net i)
      (· = Net.init) net) :
    ∀ c s, net.live c → net.st c = some s →
      (net.red c = some .toPeer ↔ s.isLs = true) ∧
      (s.isLs = true → ∃ o s', net.other c = some o ∧ net.st o = some s' ∧ s'.isLs = true) := by
  have hok : MediaOk m net := h.invariant (fun _ h0 => h0 ▸ MediaOk.init m)
    fun _ _ _ hok hg hs => hok.step hm hg.1 hg.2.1 hg.2.2 hs
  intro c s hc hs
  refine ⟨(hok.leg hc hs).redirected,fun hls => ?_⟩
  have hp : s.needsPeer := by
    cases s <;> simp_all [LclsState.needsPeer,LclsState.isLs]
  obtain ⟨o,ho⟩ := Option.ne_none_iff_exists'.mp ((hok.consistent.legOk hc hs).peer hp)
  obtain ⟨_,hst,_⟩ := hok.back hc hs hls ho
  exact ⟨o,s.mate,ho,hst,LclsState.isLs_mate hls⟩

/-- Both legs switched locally, the first one after the other. -/
theorem lcls_media_agrees_inOrder : ∃ net, run Net.step Net.init setupInOrder = .ok net ∧
    net.red 1 = some .toPeer ∧ net.st 1 = some .locallySwitched ∧
    ∃ o s', net.other 1 = some o ∧ net.st o = some s' ∧ s'.isLs = true := by
  have hg : GoodRun Net.step (fun net i => SafeInput net i ∧ ResourcesInput .mgwLoop net i ∧
      MediaInput net i) Net.init setupInOrder := by decide
  refine ⟨_,rfl,?_,rfl,?_⟩
  · exact (lcls_media_agrees (by simp) (.of_run (.start rfl) hg rfl) 1 .locallySwitched
      (by decide) rfl).1.mpr rfl
  · exact (lcls_media_agrees (by simp) (.of_run (.start rfl) hg rfl) 1 .locallySwitched
      (by decide) rfl).2 rfl

/-- The surviving leg of a locally switched call is left with its RTP going to
the dead peer. -/
theorem lcls_media_not_switched_back :
    ¬ ∀ net, Reach Net.step (ResourcesInput .mgwLoop) (· = Net.init) net →
      ∀ c s, net.live c → net.st c = some s → (net.red c = some .toPeer ↔ s.isLs = true) := by
  intro h
  have hrun : ∃ net, run Net.step Net.init (setupInOrder ++ [Input.term 2]) = .ok net ∧
      net.live 1 ∧ net.st 1 = some .notPossibleLs ∧ net.red 1 = some .toPeer :=
    ⟨_,rfl,by decide,rfl,rfl⟩
  obtain ⟨net,hnet,h1,hs,hr⟩ := hrun
  have hg : GoodRun Net.step (ResourcesInput .mgwLoop) Net.init (setupInOrder ++ [Input.term 2]) := by
    decide
  have := (h net (.of_run (.start rfl) hg hnet) 1 _ h1 hs).mp hr
  cases this

end OsmoBsc.Lcls
