import OsmoBsc.Lcls.Model
import OsmoBsc.Lib.Pairing
set_option autoImplicit false

namespace OsmoBsc.Lcls
open EventFsm Pairing

/-! What one handled event does to the states and links of all legs. -/

def Net.st (net : Net) (c : ConnId) : Option LclsState := (net.conn c).fi

def Net.other (net : Net) (c : ConnId) : Option ConnId := (net.conn c).other

def Net.gcr (net : Net) (c : ConnId) : List UInt8 := (net.conn c).globalCallRef

def Net.live (net : Net) (c : ConnId) : Prop := c ∈ net.subscrConns

instance (net : Net) (c : ConnId) : Decidable (net.live c) :=
  inferInstanceAs (Decidable (c ∈ net.subscrConns))

section Updates

variable (net : Net) (c : ConnId)

theorem Net.upd_st {f : Conn → Conn} (h : ∀ conn, (f conn).fi = conn.fi) :
    (net.upd c f).st = net.st := by
  funext x
  by_cases hx : x = c
  · subst hx; simp [st,h]
  · simp [st,net.upd_conn_ne f hx]

theorem Net.upd_other {f : Conn → Conn} (h : ∀ conn, (f conn).other = conn.other) :
    (net.upd c f).other = net.other := by
  funext x
  by_cases hx : x = c
  · subst hx; simp [other,h]
  · simp [other,net.upd_conn_ne f hx]

theorem Net.upd_gcr {f : Conn → Conn} (h : ∀ conn, (f conn).globalCallRef = conn.globalCallRef) :
    (net.upd c f).gcr = net.gcr := by
  funext x
  by_cases hx : x = c
  · subst hx; simp [gcr,h]
  · simp [gcr,net.upd_conn_ne f hx]

@[simp] theorem Net.setFi_subscrConns (s : LclsState) :
    (net.setFi c s).subscrConns = net.subscrConns := rfl

@[simp] theorem Net.setFi_st (s : LclsState) :
    (net.setFi c s).st = Function.update net.st c (some s) := by
  funext x
  by_cases hx : x = c
  · subst hx; simp [st,setFi]
  · simp [st,setFi,net.upd_conn_ne _ hx,hx]

@[simp] theorem Net.setFi_other (s : LclsState) : (net.setFi c s).other = net.other :=
  net.upd_other c fun _ => rfl

@[simp] theorem Net.setFi_gcr (s : LclsState) : (net.setFi c s).gcr = net.gcr :=
  net.upd_gcr c fun _ => rfl

@[simp] theorem Net.setOther_subscrConns (o : Option ConnId) :
    (net.setOther c o).subscrConns = net.subscrConns := rfl

@[simp] theorem Net.setOther_st (o : Option ConnId) : (net.setOther c o).st = net.st :=
  net.upd_st c fun _ => rfl

@[simp] theorem Net.setOther_other (o : Option ConnId) :
    (net.setOther c o).other = Function.update net.other c o := by
  funext x
  by_cases hx : x = c
  · subst hx; simp [other,setOther]
  · simp [other,setOther,net.upd_conn_ne _ hx,hx]

@[simp] theorem Net.setOther_gcr (o : Option ConnId) : (net.setOther c o).gcr = net.gcr :=
  net.upd_gcr c fun _ => rfl

@[simp] theorem setGcr_subscrConns (gcr : List UInt8) :
    (setGcr net c gcr).subscrConns = net.subscrConns := by
  unfold setGcr
  split <;> rfl

@[simp] theorem setGcr_st (gcr : List UInt8) : (setGcr net c gcr).st = net.st := by
  unfold setGcr
  split
  · exact net.upd_st c fun _ => rfl
  · rfl

@[simp] theorem setGcr_other (gcr : List UInt8) : (setGcr net c gcr).other = net.other := by
  unfold setGcr
  split
  · exact net.upd_other c fun _ => rfl
  · rfl

@[simp] theorem lclsSendNotify_conn : (lclsSendNotify net c).conn = net.conn := by
  unfold lclsSendNotify
  dsimp only
  split <;> rfl

@[simp] theorem lclsSendNotify_subscrConns :
    (lclsSendNotify net c).subscrConns = net.subscrConns := by
  unfold lclsSendNotify
  dsimp only
  split <;> rfl

@[simp] theorem Net.deref_eq_ok {net : Net} {c : ConnId} {conn : Conn} :
    net.deref c = .ok conn ↔ net.live c ∧ net.conn c = conn := by
  simp only [live,deref]
  split <;> simp_all

theorem Net.deref_live {net : Net} {c : ConnId} (h : net.live c) :
    net.deref c = .ok (net.conn c) := deref_eq_ok.mpr ⟨h,rfl⟩

@[simp] theorem osmoAssert_eq_ok {p : Prop} [Decidable p] {u : Unit} :
    osmoAssert p = .ok u ↔ p := by
  unfold osmoAssert
  split <;> simp_all

end Updates

/-- The links and states after a handler; the connections and their call
references are the ones before it. -/
structure Becomes (net net' : Net) (st : ConnId → Option LclsState)
    (other : ConnId → Option ConnId) : Prop where
  subscrConns : net'.subscrConns = net.subscrConns
  gcr : net'.gcr = net.gcr
  st : net'.st = st
  other : net'.other = other

/-- Nothing but what `Becomes` does not speak about changes. -/
abbrev Same (net net' : Net) : Prop := Becomes net net' net.st net.other

theorem Same.refl (net : Net) : Same net net := ⟨rfl,rfl,rfl,rfl⟩

theorem Becomes.trans {net net1 net' : Net} {st st' : ConnId → Option LclsState}
    {other other' : ConnId → Option ConnId} (h : Becomes net net1 st other)
    (h' : Becomes net1 net' st' other') : Becomes net net' st' other' where
  subscrConns := h'.subscrConns.trans h.subscrConns
  gcr := h'.gcr.trans h.gcr
  st := h'.st
  other := h'.other

theorem Becomes.upd (net : Net) (c : ConnId) {f : Conn → Conn} (hst : ∀ conn, (f conn).fi = conn.fi)
    (hother : ∀ conn, (f conn).other = conn.other)
    (hgcr : ∀ conn, (f conn).globalCallRef = conn.globalCallRef) : Same net (net.upd c f) :=
  ⟨rfl,net.upd_gcr c hgcr,net.upd_st c hst,net.upd_other c hother⟩

theorem Becomes.notify {net net' : Net} {st : ConnId → Option LclsState}
    {other : ConnId → Option ConnId} (h : Becomes net net' st other) (c : ConnId) :
    Becomes net (lclsSendNotify net' c) st other where
  subscrConns := by simpa using h.subscrConns
  gcr := by simpa [Net.gcr,funext_iff] using funext_iff.mp h.gcr
  st := by simpa [Net.st,funext_iff] using funext_iff.mp h.st
  other := by simpa [Net.other,funext_iff] using funext_iff.mp h.other

theorem setRedirect_same (net : Net) (c : ConnId) (r : Redirect) :
    Same net (net.setRedirect c r) :=
  .upd net c (fun _ => rfl) (fun _ => rfl) fun _ => rfl

theorem setFi_becomes (net : Net) (c : ConnId) (s : LclsState) :
    Becomes net (net.setFi c s) (Function.update net.st c (some s)) net.other :=
  ⟨rfl,by simp,by simp,by simp⟩

theorem setOther_becomes (net : Net) (c : ConnId) (o : Option ConnId) :
    Becomes net (net.setOther c o) net.st (Function.update net.other c o) :=
  ⟨rfl,by simp,by simp,by simp⟩

theorem findConnWithSameGcr_eq {net : Net} {c d : ConnId} (h : findConnWithSameGcr net c = some d) :
    net.live d ∧ d ≠ c ∧ net.gcr d = net.gcr c := by
  have hm := List.mem_of_find?_eq_some h
  have hp := List.find?_some h
  simp only [ne_eq,Bool.and_eq_true,decide_eq_true_eq] at hp
  exact ⟨hm,by simpa using hp.1,hp.2⟩

theorem findConnWithSameGcr_congr {net net' : Net} (hl : net'.subscrConns = net.subscrConns)
    (hg : net'.gcr = net.gcr) (c : ConnId) :
    findConnWithSameGcr net' c = findConnWithSameGcr net c := by
  have hg' : ∀ x, (net'.conn x).globalCallRef = (net.conn x).globalCallRef := funext_iff.mp hg
  simp only [findConnWithSameGcr,hl,hg']

theorem lclsMdcx_same {net net' : Net} {c : ConnId} {redirect : Redirect}
    (h : lclsMdcx net c redirect = .ok net') : Same net net' := by
  simp only [lclsMdcx] at h
  split at h
  · cases h
  · cases h; exact setRedirect_same _ _ _

theorem lclsRsl_same {net net' : Net} {c : ConnId} {enable : Bool}
    (h : lclsRsl net c enable = .ok net') : Same net net' := by
  simp only [lclsRsl] at h
  split at h
  · cases h
  · cases enable with
    | true =>
      simp only [if_true] at h
      split at h
      · cases h
      · simp only [bind_eq_ok] at h
        obtain ⟨_,_,h⟩ := h
        split at h
        · cases h
        · cases h; exact setRedirect_same _ _ _
    | false =>
      simp only [Bool.false_eq_true,if_false] at h
      split at h
      · cases h; exact .refl _
      · cases h; exact setRedirect_same _ _ _

theorem lclsBreakLocalSwitching_same {net net' : Net} {c : ConnId}
    (h : lclsBreakLocalSwitching net c = .ok net') : Same net net' := by
  simp only [lclsBreakLocalSwitching,bind_eq_ok] at h
  obtain ⟨allowed,_,h⟩ := h
  split at h
  · cases h; exact .refl _
  · split at h
    · exact lclsMdcx_same h
    · exact lclsRsl_same h
    · cases h; exact .refl _

theorem lclsLocallySwitchedOnenter_same {net net' : Net} {c : ConnId}
    (h : lclsLocallySwitchedOnenter net c = .ok net') : Same net net' := by
  simp only [lclsLocallySwitchedOnenter] at h
  split at h
  · cases h
  · simp only [bind_eq_ok] at h
    obtain ⟨allowed,_,h⟩ := h
    split at h
    · cases h; exact .refl _
    · simp only [bind_eq_ok] at h
      obtain ⟨_,_,h⟩ := h
      split at h
      · cases h; exact .refl _
      · split at h
        · cases h; exact .refl _
        · split at h
          · exact lclsMdcx_same h
          · exact lclsRsl_same h
          · cases h; exact .refl _

theorem lclsStateChg_becomes {net net' : Net} {c : ConnId} {s new : LclsState}
    (hs : net.st c = some s) (ho : lclsFsm.outState s new = true)
    (h : lclsStateChg net c new = .ok net') :
    Becomes net net' (Function.update net.st c (some new)) net.other := by
  simp only [Net.st] at hs
  simp only [lclsStateChg,hs,ho,Bool.not_true,Bool.false_eq_true,if_false] at h
  have hb := setFi_becomes net c new
  split at h
  · have hs := lclsLocallySwitchedOnenter_same h
    exact ⟨hs.subscrConns.trans hb.subscrConns,hs.gcr.trans hb.gcr,hs.st.trans hb.st,
      hs.other.trans hb.other⟩
  · cases h; exact hb

theorem lclsStateChg_refused {net : Net} {c : ConnId} {s new : LclsState}
    (hs : net.st c = some s) (ho : lclsFsm.outState s new = false) :
    lclsStateChg net c new = .ok net := by
  simp only [Net.st] at hs
  simp [lclsStateChg,hs,ho]

def LclsState.needsPeer : LclsState → Bool
  | .noLcls | .notPossibleLs | .reqLclsNotSupp => false
  | _ => true

/-- The links are the ones before, and a leg that moved was and is in a state
that needs a peer. -/
structure Stays (net net' : Net) : Prop where
  subscrConns : net'.subscrConns = net.subscrConns
  gcr : net'.gcr = net.gcr
  other : net'.other = net.other
  st (c : ConnId) : net'.st c = net.st c ∨
    ∃ s s', net.st c = some s ∧ net'.st c = some s' ∧ s.needsPeer ∧ s'.needsPeer

theorem Becomes.stays {net net' : Net} {c : ConnId} {s new : LclsState}
    (h : Becomes net net' (Function.update net.st c (some new)) net.other)
    (hs : net.st c = some s) (hp : s.needsPeer) (hn : new.needsPeer) : Stays net net' where
  subscrConns := h.subscrConns
  gcr := h.gcr
  other := h.other
  st x := by
    rw [h.st]
    by_cases hx : x = c
    · subst hx
      exact .inr ⟨s,new,hs,by simp,hp,hn⟩
    · exact .inl (by simp [hx])

theorem Same.stays {net net' : Net} (h : Same net net') : Stays net net' :=
  ⟨h.subscrConns,h.gcr,h.other,fun c => .inl (by rw [h.st])⟩

theorem Stays.refl (net : Net) : Stays net net := (Same.refl net).stays

theorem Stays.trans {net net1 net' : Net} (h : Stays net net1) (h' : Stays net1 net') :
    Stays net net' where
  subscrConns := h'.subscrConns.trans h.subscrConns
  gcr := h'.gcr.trans h.gcr
  other := h'.other.trans h.other
  st c := by
    have h1 := h.st c
    have h2 := h'.st c
    grind

theorem Stays.notify {net net' : Net} (h : Stays net net') (c : ConnId) :
    Stays net (lclsSendNotify net' c) :=
  h.trans (Same.stays ((Same.refl net').notify c))

theorem lclsDispatch_of_st {n : Nat} {net : Net} {c : ConnId} {ev : LclsEvent} {s : LclsState}
    (hc : net.live c) (hs : net.st c = some s) :
    lclsDispatch (n+1) net c ev = if lclsFsm.inEvent s ev.kind then
      lclsAction (lclsDispatch n) net c ev s else .ok net := by
  have hfi : (net.conn c).fi = some s := hs
  have hall : lclsFsm.allState ev.kind = false := rfl
  simp only [lclsDispatch,Net.deref_live hc,ok_bind,hfi,Fsm.verdict,hall]
  cases lclsFsm.inEvent s ev.kind <;> rfl

theorem lclsDispatch_eq_ok {n : Nat} {net net' : Net} {c : ConnId} {ev : LclsEvent}
    (h : lclsDispatch (n+1) net c ev = .ok net') :
    net.live c ∧ (net' = net ∨ ∃ s, net.st c = some s ∧ lclsFsm.inEvent s ev.kind = true ∧
      lclsAction (lclsDispatch n) net c ev s = .ok net') := by
  have hc : net.live c := by
    simp only [lclsDispatch,bind_eq_ok,Net.deref_eq_ok] at h
    obtain ⟨conn,⟨hlive,_⟩,_⟩ := h
    exact hlive
  refine ⟨hc,?_⟩
  cases hs : net.st c with
  | none =>
    have hfi : (net.conn c).fi = none := hs
    simp only [lclsDispatch,Net.deref_live hc,ok_bind,hfi,pure_eq_ok,Except.ok.injEq] at h
    exact .inl h.symm
  | some s =>
    rw [lclsDispatch_of_st hc hs] at h
    cases hin : lclsFsm.inEvent s ev.kind with
    | false =>
      simp only [hin,Bool.false_eq_true,if_false,Except.ok.injEq] at h
      exact .inl h.symm
    | true =>
      simp only [hin,if_true] at h
      exact .inr ⟨s,rfl,hin,h⟩

theorem otherBreak_stays {n : Nat} {net net' : Net} {c sender : ConnId}
    (h : lclsDispatch (n+1) net c (.otherBreak sender) = .ok net') : Stays net net' := by
  obtain ⟨_,rfl | ⟨s,hs,hin,h⟩⟩ := lclsDispatch_eq_ok h
  · exact .refl _
  · cases s
    case locallySwitched =>
      simp only [lclsAction,lclsLocallySwitchedFn,bind_eq_ok,osmoAssert_eq_ok] at h
      obtain ⟨_,_,_,_,h⟩ := h
      exact (lclsStateChg_becomes hs rfl h).stays hs rfl rfl
    case locallySwitchedWaitBreak =>
      simp only [lclsAction,lclsLocallySwitchedWaitBreakFn,bind_eq_ok,pure_eq_ok] at h
      obtain ⟨_,_,h⟩ := h
      cases h
      exact .refl _
    case locallySwitchedWaitOtherBreak =>
      simp only [lclsAction,lclsLocallySwitchedWaitOtherBreakFn,bind_eq_ok,osmoAssert_eq_ok,
        pure_eq_ok] at h
      obtain ⟨_,_,_,_,net1,hbreak,net2,hchg,h⟩ := h
      cases h
      have hsame := lclsBreakLocalSwitching_same hbreak
      have hs1 : net1.st c = some .locallySwitchedWaitOtherBreak := by rw [hsame.st,hs]
      exact (hsame.stays.trans ((lclsStateChg_becomes hs1 rfl hchg).stays hs1 rfl rfl)).notify c
    all_goals cases hin

theorem followPeer_stays {n : Nat} {net net' : Net} {c sender : ConnId} {s : LclsState}
    (hs : net.st c = some s) (hp : s.needsPeer) (ho : lclsFsm.outState s .locallySwitched = true)
    (h : followPeer (lclsDispatch (n+1)) net c sender = .ok net') : Stays net net' := by
  simp only [followPeer,bind_eq_ok,osmoAssert_eq_ok] at h
  obtain ⟨_,_,possible,_,h⟩ := h
  split at h
  · simp only [bind_eq_ok,pure_eq_ok] at h
    obtain ⟨net1,hchg,h⟩ := h
    cases h
    exact ((lclsStateChg_becomes hs ho hchg).stays hs hp rfl).notify c
  · exact otherBreak_stays h

theorem otherEnabled_stays {n : Nat} {net net' : Net} {c sender : ConnId}
    (h : lclsDispatch (n+2) net c (.otherEnabled sender) = .ok net') : Stays net net' := by
  obtain ⟨_,rfl | ⟨s,hs,hin,h⟩⟩ := lclsDispatch_eq_ok h
  · exact .refl _
  · cases s
    case notYetLs =>
      simp only [lclsAction,lclsNotYetLsFn,bind_eq_ok] at h
      obtain ⟨_,_,h⟩ := h
      exact followPeer_stays hs rfl rfl h
    case noLongerLs =>
      simp only [lclsAction,lclsNoLongerLsFn,bind_eq_ok] at h
      obtain ⟨_,_,h⟩ := h
      exact followPeer_stays hs rfl rfl h
    all_goals cases hin

/-- The state of a leg after the peer told it that they are correlated. -/
def LclsState.afterCorrelated : LclsState → LclsState
  | .notPossibleLs => .notYetLs
  | s => s

theorem correlated_becomes {n : Nat} {net net' : Net} {c sender : ConnId} {s : LclsState}
    (hs : net.st c = some s)
    (h : lclsDispatch (n+1) net c (.correlated sender) = .ok net') :
    (lclsFsm.inEvent s .correlated = false ∧ net' = net) ∨
    (lclsFsm.inEvent s .correlated = true ∧ (s.needsPeer → net.other c ≠ none) ∧
      (s = .notPossibleLs → net.other c = none) ∧
      Becomes net net' (Function.update net.st c (some s.afterCorrelated))
        (Function.update net.other c (some sender))) := by
  have hc := (lclsDispatch_eq_ok h).1
  have hset := setOther_becomes net c (some sender)
  have hself : Function.update net.st c (some s) = net.st := by
    rw [← hs]; exact Function.update_eq_self c net.st
  rw [lclsDispatch_of_st hc hs] at h
  cases s
  case notYetLs =>
    simp only [lclsAction,lclsNotYetLsFn,LclsEvent.kind,lclsFsm,if_true,bind_eq_ok,
      osmoAssert_eq_ok,pure_eq_ok] at h
    obtain ⟨_,ho,h⟩ := h
    cases h
    refine .inr ⟨rfl,fun _ => ho,by simp,?_⟩
    rw [LclsState.afterCorrelated,hself]
    · exact hset
    · simp
  case noLongerLs =>
    simp only [lclsAction,lclsNoLongerLsFn,LclsEvent.kind,lclsFsm,if_true,bind_eq_ok,
      osmoAssert_eq_ok,pure_eq_ok] at h
    obtain ⟨_,ho,h⟩ := h
    cases h
    refine .inr ⟨rfl,fun _ => ho,by simp,?_⟩
    rw [LclsState.afterCorrelated,hself]
    · exact hset
    · simp
  case reqLclsNotSupp =>
    simp only [lclsAction,lclsReqLclsNotSuppFn,LclsEvent.kind,lclsFsm,if_true,pure_eq_ok] at h
    cases h
    refine .inr ⟨rfl,by simp [LclsState.needsPeer],by simp,?_⟩
    rw [LclsState.afterCorrelated,hself]
    · exact hset
    · simp
  case notPossibleLs =>
    simp only [lclsAction,lclsNotPossibleLsFn,LclsEvent.kind,lclsFsm,if_true,bind_eq_ok,
      osmoAssert_eq_ok,pure_eq_ok] at h
    obtain ⟨_,ho,net1,hchg,h⟩ := h
    cases h
    have hs1 : (net.setOther c (some sender)).st c = some .notPossibleLs := by simpa using hs
    have hb := lclsStateChg_becomes hs1 rfl hchg
    rw [hset.st,hset.other] at hb
    exact .inr ⟨rfl,by simp [LclsState.needsPeer],fun _ => ho,(hset.trans hb).notify c⟩
  all_goals
    simp only [LclsEvent.kind,lclsFsm,Bool.false_eq_true,if_false,Except.ok.injEq] at h
    exact .inl ⟨rfl,h.symm⟩

/-- The state of a leg after the peer told it that it is dead. -/
def LclsState.afterDead : LclsState → LclsState
  | .locallySwitched => .notPossibleLs
  | .locallySwitchedWaitOtherBreak => .noLongerLs
  | s => s

/-- The peer of a leg after that peer told it that it is dead. -/
def LclsState.otherAfterDead (s : LclsState) (sender : ConnId) : Option ConnId :=
  if s = .locallySwitchedWaitOtherBreak then some sender else none

theorem losePeer_becomes {net net' : Net} {c sender : ConnId} {s : LclsState}
    (hs : net.st c = some s) (h : losePeer net c sender = .ok net') :
    net.other c = some sender ∧
    Becomes net net' (Function.update net.st c
      (some (if lclsFsm.outState s .notPossibleLs then .notPossibleLs else s)))
      (Function.update net.other c none) := by
  simp only [losePeer,bind_eq_ok,osmoAssert_eq_ok,pure_eq_ok] at h
  obtain ⟨_,ho,net1,hchg,h⟩ := h
  cases h
  refine ⟨ho,?_⟩
  have hset := setOther_becomes net c none
  have hs1 : (net.setOther c none).st c = some s := by simpa using hs
  cases hout : lclsFsm.outState s .notPossibleLs with
  | true =>
    have hb := lclsStateChg_becomes hs1 hout hchg
    rw [hset.st,hset.other] at hb
    exact (hset.trans hb).notify c
  | false =>
    rw [lclsStateChg_refused hs1 hout] at hchg
    cases hchg
    have hself : Function.update net.st c (some s) = net.st := by
      rw [← hs]; exact Function.update_eq_self c net.st
    rw [if_neg (by simp),hself]
    exact hset.notify c

theorem otherDead_becomes {n : Nat} {net net' : Net} {c sender : ConnId} {s : LclsState}
    (hs : net.st c = some s)
    (h : lclsDispatch (n+1) net c (.otherDead sender) = .ok net') :
    (lclsFsm.inEvent s .otherDead = false ∧ net' = net) ∨
    (lclsFsm.inEvent s .otherDead = true ∧ net.other c = some sender ∧
      Becomes net net' (Function.update net.st c (some s.afterDead))
        (Function.update net.other c (s.otherAfterDead sender))) := by
  have hc := (lclsDispatch_eq_ok h).1
  have hset := setOther_becomes net c none
  have hself : Function.update net.st c (some s) = net.st := by
    rw [← hs]; exact Function.update_eq_self c net.st
  rw [lclsDispatch_of_st hc hs] at h
  cases s
  case notYetLs =>
    simp only [lclsAction,lclsNotYetLsFn,LclsEvent.kind,lclsFsm,if_true,bind_eq_ok] at h
    obtain ⟨_,_,h⟩ := h
    obtain ⟨ho,hb⟩ := losePeer_becomes hs h
    exact .inr ⟨rfl,ho,hb⟩
  case noLongerLs =>
    simp only [lclsAction,lclsNoLongerLsFn,LclsEvent.kind,lclsFsm,if_true,bind_eq_ok] at h
    obtain ⟨_,_,h⟩ := h
    obtain ⟨ho,hb⟩ := losePeer_becomes hs h
    exact .inr ⟨rfl,ho,hb⟩
  case locallySwitched =>
    simp only [lclsAction,lclsLocallySwitchedFn,LclsEvent.kind,lclsFsm,if_true,bind_eq_ok] at h
    obtain ⟨_,_,h⟩ := h
    obtain ⟨ho,hb⟩ := losePeer_becomes hs h
    exact .inr ⟨rfl,ho,hb⟩
  case reqLclsNotSupp =>
    simp only [lclsAction,lclsReqLclsNotSuppFn,LclsEvent.kind,lclsFsm,if_true,bind_eq_ok,
      osmoAssert_eq_ok,pure_eq_ok] at h
    obtain ⟨_,ho,h⟩ := h
    cases h
    refine .inr ⟨rfl,ho,?_⟩
    simpa [LclsState.afterDead,LclsState.otherAfterDead,hself] using hset
  case locallySwitchedWaitBreak =>
    simp only [lclsAction,lclsLocallySwitchedWaitBreakFn,LclsEvent.kind,lclsFsm,if_true,bind_eq_ok,
      osmoAssert_eq_ok,pure_eq_ok] at h
    obtain ⟨_,_,_,ho,h⟩ := h
    cases h
    refine .inr ⟨rfl,ho,?_⟩
    simpa [LclsState.afterDead,LclsState.otherAfterDead,hself] using hset
  case locallySwitchedWaitOtherBreak =>
    simp only [lclsAction,lclsLocallySwitchedWaitOtherBreakFn,LclsEvent.kind,lclsFsm,if_true,
      bind_eq_ok,osmoAssert_eq_ok,pure_eq_ok] at h
    obtain ⟨_,_,_,ho,net1,hbreak,net2,hchg,h⟩ := h
    cases h
    have hsame := lclsBreakLocalSwitching_same hbreak
    have hs1 : net1.st c = some .locallySwitchedWaitOtherBreak := by rw [hsame.st,hs]
    have hb := lclsStateChg_becomes hs1 rfl hchg
    rw [hsame.st,hsame.other] at hb
    have hother : Function.update net.other c (some sender) = net.other := by
      have ho : net.other c = some sender := ho
      rw [← ho]; exact Function.update_eq_self c net.other
    refine .inr ⟨rfl,ho,?_⟩
    simpa [LclsState.afterDead,LclsState.otherAfterDead,hother] using (hsame.trans hb).notify c
  all_goals
    simp only [LclsEvent.kind,lclsFsm,Bool.false_eq_true,if_false,Except.ok.injEq] at h
    exact .inl ⟨rfl,h.symm⟩

theorem enableLs_stays {n : Nat} {net net' : Net} {c : ConnId} {s : LclsState}
    (hs : net.st c = some s) (hp : s.needsPeer) (ho : lclsFsm.outState s .locallySwitched = true)
    (h : enableLs (lclsDispatch (n+2)) net c = .ok net') : Stays net net' := by
  simp only [enableLs,bind_eq_ok] at h
  obtain ⟨net1,hchg,h⟩ := h
  have hb := (lclsStateChg_becomes hs ho hchg).stays hs hp rfl
  split at h
  · cases h
  · exact hb.trans (otherEnabled_stays h)

/-- The links once `lcls_perform_correlation` broke the previous correlation. -/
def Net.otherBroken (net : Net) (c : ConnId) : ConnId → Option ConnId :=
  match net.other c with
  | none => net.other
  | some o => rewire net.other c o none none

theorem Net.otherBroken_of_none {net : Net} {c : ConnId} (h : net.other c = none) :
    net.otherBroken c = net.other := by simp [otherBroken,h]

theorem Net.otherBroken_of_some {net : Net} {c o : ConnId} (h : net.other c = some o) :
    net.otherBroken c = rewire net.other c o none none := by simp [otherBroken,h]

theorem breakCorrelation_becomes {net net' : Net} {c : ConnId}
    (h : breakCorrelation net c = .ok net') :
    (∀ o, net.other c = some o → net.live o ∧ ∃ s, net.st o = some s ∧ s.isLs = false) ∧
    Becomes net net' net.st (net.otherBroken c) := by
  cases ho : net.other c with
  | none =>
    have ho' : (net.conn c).other = none := ho
    simp only [breakCorrelation,ho',Except.ok.injEq] at h
    subst h
    refine ⟨by simp,?_⟩
    rw [Net.otherBroken_of_none ho]
    exact Same.refl net
  | some o =>
    have ho' : (net.conn c).other = some o := ho
    simp only [breakCorrelation,ho',bind_eq_ok,Net.deref_eq_ok] at h
    obtain ⟨other,⟨hlive,rfl⟩,h⟩ := h
    split at h
    · cases h
    · rename_i s hs
      simp only [bind_eq_ok,osmoAssert_eq_ok] at h
      obtain ⟨_,hls,h⟩ := h
      cases h
      refine ⟨by simpa using ⟨hlive,s,hs,hls⟩,?_⟩
      have hb := (setOther_becomes net o none).trans (setOther_becomes _ c none)
      have hcomm : Function.update (Function.update net.other o none) c none =
          net.otherBroken c := by
        simp only [Net.otherBroken_of_some ho,rewire]
        by_cases hco : c = o
        · subst hco; rfl
        · exact (Function.update_comm hco none none net.other).symm
      simp only [Net.setOther_st,Net.setOther_other,hcomm] at hb
      exact hb

/-- The outcome of a correlation that found `d`: the link of `c` is set, and `d`
took it over or dropped the news. -/
def Correlates (net net' : Net) (c d : ConnId) : Prop :=
  ∃ y s', Becomes net net' (Function.update net.st d s')
      (rewire (net.otherBroken c) c d (some d) y) ∧
    ((y = net.otherBroken c d ∧ s' = net.st d ∧
        ∀ s, net.st d = some s → lclsFsm.inEvent s .correlated = false) ∨
      ∃ s, net.st d = some s ∧ lclsFsm.inEvent s .correlated = true ∧ y = some c ∧
        s' = some s.afterCorrelated ∧ (s.needsPeer → net.otherBroken c d ≠ none) ∧
        (s = .notPossibleLs → net.otherBroken c d = none))

theorem lclsPerformCorrelation_eq_ok {n : Nat} {net net' : Net} {c : ConnId} {found : Bool}
    (h : lclsPerformCorrelation (lclsDispatch (n+1)) net c = .ok (net',found)) :
    (found = false ∧ findConnWithSameGcr net c = none ∧
      Becomes net net' net.st (net.otherBroken c)) ∨
    (found = true ∧ ∃ d, findConnWithSameGcr net c = some d ∧ Correlates net net' c d) := by
  simp only [lclsPerformCorrelation,bind_eq_ok,osmoAssert_eq_ok] at h
  obtain ⟨_,_,_,_,net1,hbreak,h⟩ := h
  have hb := (breakCorrelation_becomes hbreak).2
  rw [findConnWithSameGcr_congr hb.subscrConns hb.gcr] at h
  split at h
  · rename_i hf
    cases h
    exact .inl ⟨rfl,hf,hb⟩
  · rename_i d hf
    simp only [bind_eq_ok,pure_eq_ok,Except.ok.injEq,Prod.mk.injEq] at h
    obtain ⟨net2,hcor,rfl,rfl⟩ := h
    obtain ⟨_,hdc,_⟩ := findConnWithSameGcr_eq hf
    refine .inr ⟨rfl,d,hf,?_⟩
    have hset := setOther_becomes net1 c (some d)
    have hd1 : Function.update net1.other c (some d) d = net.otherBroken c d := by
      rw [Function.update_of_ne hdc,hb.other]
    have hdropped : Becomes net (net1.setOther c (some d)) (Function.update net.st d (net.st d))
        (rewire (net.otherBroken c) c d (some d) (net.otherBroken c d)) := by
      have hself : rewire (net.otherBroken c) c d (some d) (net.otherBroken c d) =
          Function.update (net.otherBroken c) c (some d) := by
        have hs := Function.update_eq_self d (Function.update net1.other c (some d))
        rwa [hd1,hb.other] at hs
      rw [Function.update_eq_self,hself,← hb.st,← hb.other]
      exact hb.trans hset
    have hlive := (lclsDispatch_eq_ok hcor).1
    cases hs : net.st d with
    | none =>
      have hfi : ((net1.setOther c (some d)).conn d).fi = none := by
        change (net1.setOther c (some d)).st d = none
        rw [hset.st,hb.st,hs]
      simp only [lclsDispatch,Net.deref_live hlive,ok_bind,hfi,pure_eq_ok,Except.ok.injEq] at hcor
      subst hcor
      exact ⟨_,_,hdropped,.inl ⟨rfl,rfl,by simp [hs]⟩⟩
    | some s =>
      have hs1 : (net1.setOther c (some d)).st d = some s := by rw [hset.st,hb.st,hs]
      rcases correlated_becomes hs1 hcor with ⟨hin,rfl⟩ | ⟨hin,hp,hn,hb'⟩
      · exact ⟨_,_,hdropped,.inl ⟨rfl,rfl,by simpa [hs] using hin⟩⟩
      · rw [hset.st,hset.other,hb.st] at hb'
        rw [hset.other,hd1] at hp hn
        refine ⟨some c,some s.afterCorrelated,?_,.inr ⟨s,hs,hin,rfl,rfl,hp,hn⟩⟩
        rw [rewire,← hb.other]
        exact (hb.trans hset).trans hb'

/-- Whether APPLY_CFG_CSC makes the leg look for a peer. -/
def Net.correlates (net : Net) (c : ConnId) : Bool :=
  match net.st c with
  | some .noLcls => (net.conn c).msc.lclsMode ≠ .disabled && net.gcr c ≠ [] &&
      (net.conn c).config ≠ cfgNa
  | some .notPossibleLs | some .reqLclsNotSupp => true
  | _ => false

/-- What APPLY_CFG_CSC can do to the legs. -/
inductive ApplyOutcome (net : Net) (c : ConnId) (net' : Net) : Prop where
  | stays (h : Stays net net')
  | notFound (s : LclsState) (hs : net.st c = some s) (hcor : net.correlates c = true)
      (hother : s ≠ .reqLclsNotSupp → net.other c = none)
      (hfind : findConnWithSameGcr net c = none)
      (h : Becomes net net' (Function.update net.st c
        (some (if s = .reqLclsNotSupp then s else .notPossibleLs))) (net.otherBroken c))
  | linked (s s' : LclsState) (d : ConnId) (net1 net2 : Net) (hs : net.st c = some s)
      (hcor : net.correlates c = true) (hother : s ≠ .reqLclsNotSupp → net.other c = none)
      (hfind : findConnWithSameGcr net c = some d) (h1 : Correlates net net1 c d)
      (h2 : Becomes net1 net2 (Function.update net1.st c (some s')) net1.other)
      (hs' : s' = .notYetLs ∨ s' = .locallySwitched ∨ s' = .reqLclsNotSupp)
      (h : Stays net2 net')

theorem Correlates.st_self {net net' : Net} {c d : ConnId} (h : Correlates net net' c d)
    (hdc : d ≠ c) : net'.st c = net.st c := by
  obtain ⟨_,_,hb,_⟩ := h
  rw [hb.st,Function.update_of_ne hdc.symm]

/-- The common end of an apply in NO_LCLS and NOT_POSSIBLE_LS once a peer was found. -/
theorem enableOrWait_outcome {n : Nat} {net net1 net' : Net} {c d : ConnId} {s : LclsState}
    (hs : net.st c = some s) (hcor : net.correlates c = true)
    (hother : net.other c = none) (hfind : findConnWithSameGcr net c = some d)
    (h1 : Correlates net net1 c d) (hls : lclsFsm.outState s .locallySwitched = true)
    (hny : lclsFsm.outState s .notYetLs = true) {possible : Bool}
    (h : (if possible = true then enableLs (lclsDispatch (n+2)) net1 c
      else lclsStateChg net1 c .notYetLs) = .ok net') : ApplyOutcome net c net' := by
  obtain ⟨_,hdc,_⟩ := findConnWithSameGcr_eq hfind
  have hs1 : net1.st c = some s := by rw [h1.st_self hdc,hs]
  split at h
  · simp only [enableLs,bind_eq_ok] at h
    obtain ⟨net2,hchg,h⟩ := h
    have hb := lclsStateChg_becomes hs1 hls hchg
    split at h
    · cases h
    · exact .linked s _ d net1 net2 hs hcor (fun _ => hother) hfind h1 hb (.inr (.inl rfl))
        (otherEnabled_stays h)
  · exact .linked s _ d net1 net' hs hcor (fun _ => hother) hfind h1
      (lclsStateChg_becomes hs1 hny h) (.inl rfl) (.refl _)

theorem applyNoLcls_outcome {n : Nat} {net net' : Net} {c : ConnId}
    (hs : net.st c = some .noLcls)
    (h : lclsNoLclsFn (lclsDispatch (n+2)) net c .applyCfgCsc = .ok net') :
    ApplyOutcome net c net' := by
  simp only [lclsNoLclsFn,bind_eq_ok,osmoAssert_eq_ok] at h
  obtain ⟨_,hother,h⟩ := h
  split at h
  · cases h; exact .stays (.refl _)
  split at h
  · cases h; exact .stays (.refl _)
  split at h
  · cases h; exact .stays (.refl _)
  rename_i hmode hgcr hcfg
  have hcor : net.correlates c = true := by
    simp [Net.correlates,hs,Net.gcr,hmode,hgcr,hcfg]
  simp only [bind_eq_ok] at h
  obtain ⟨⟨net1,found⟩,hperf,h⟩ := h
  rcases lclsPerformCorrelation_eq_ok hperf with ⟨rfl,hfind,hb⟩ | ⟨rfl,d,hfind,h1⟩
  · simp only [Bool.not_false,if_true] at h
    have hs1 : net1.st c = some .noLcls := by rw [hb.st,hs]
    have hb' := lclsStateChg_becomes hs1 rfl h
    rw [hb.st,hb.other] at hb'
    exact .notFound .noLcls hs hcor (fun _ => hother) hfind (hb.trans hb')
  · simp only [Bool.not_true,Bool.false_eq_true,if_false,bind_eq_ok] at h
    obtain ⟨_,_,possible,_,h⟩ := h
    exact enableOrWait_outcome hs hcor hother hfind h1 rfl rfl h

theorem applyNotPossibleLs_outcome {n : Nat} {net net' : Net} {c : ConnId}
    (hs : net.st c = some .notPossibleLs)
    (h : lclsNotPossibleLsFn (lclsDispatch (n+2)) net c .applyCfgCsc = .ok net') :
    ApplyOutcome net c net' := by
  simp only [lclsNotPossibleLsFn,bind_eq_ok,osmoAssert_eq_ok] at h
  obtain ⟨_,hother,⟨net1,found⟩,hperf,h⟩ := h
  have hcor : net.correlates c = true := by simp [Net.correlates,hs]
  rcases lclsPerformCorrelation_eq_ok hperf with ⟨rfl,hfind,hb⟩ | ⟨rfl,d,hfind,h1⟩
  · simp only [Bool.not_false,if_true,pure_eq_ok,Except.ok.injEq] at h
    subst h
    refine .notFound .notPossibleLs hs hcor (fun _ => hother) hfind ?_
    rw [if_neg (by simp),← hs,Function.update_eq_self]
    exact hb
  · simp only [Bool.not_true,Bool.false_eq_true,if_false,bind_eq_ok] at h
    obtain ⟨_,_,possible,_,h⟩ := h
    exact enableOrWait_outcome hs hcor hother hfind h1 rfl rfl h

theorem applyReqLclsNotSupp_outcome {n : Nat} {net net' : Net} {c : ConnId}
    (hs : net.st c = some .reqLclsNotSupp)
    (h : lclsReqLclsNotSuppFn (lclsDispatch (n+2)) net c .applyCfgCsc = .ok net') :
    ApplyOutcome net c net' := by
  simp only [lclsReqLclsNotSuppFn,bind_eq_ok] at h
  obtain ⟨⟨net1,found⟩,hperf,h⟩ := h
  have hcor : net.correlates c = true := by simp [Net.correlates,hs]
  rcases lclsPerformCorrelation_eq_ok hperf with ⟨rfl,hfind,hb⟩ | ⟨rfl,d,hfind,h1⟩
  · simp only [Bool.not_false,if_true] at h
    have hs1 : net1.st c = some .reqLclsNotSupp := by rw [hb.st,hs]
    rw [lclsStateChg_refused hs1 rfl] at h
    cases h
    refine .notFound .reqLclsNotSupp hs hcor (by simp) hfind ?_
    rw [if_pos rfl,← hs,Function.update_eq_self]
    exact hb
  · obtain ⟨_,hdc,_⟩ := findConnWithSameGcr_eq hfind
    have hs1 : net1.st c = some .reqLclsNotSupp := by rw [h1.st_self hdc,hs]
    simp only [Bool.not_true,Bool.false_eq_true,if_false,bind_eq_ok] at h
    obtain ⟨_,_,h⟩ := h
    split at h
    · simp only [pure_eq_ok,Except.ok.injEq] at h
      subst h
      have hb : Becomes net1 net1 (Function.update net1.st c (some .reqLclsNotSupp)) net1.other := by
        rw [← hs1,Function.update_eq_self]
        exact Same.refl net1
      exact .linked .reqLclsNotSupp _ d net1 net1 hs hcor (by simp) hfind h1 hb (.inr (.inr rfl))
        (.refl _)
    · simp only [bind_eq_ok] at h
      obtain ⟨possible,_,h⟩ := h
      split at h
      · exact .linked .reqLclsNotSupp _ d net1 net' hs hcor (by simp) hfind h1
          (lclsStateChg_becomes hs1 rfl h) (.inr (.inl rfl)) (.refl _)
      · exact .linked .reqLclsNotSupp _ d net1 net' hs hcor (by simp) hfind h1
          (lclsStateChg_becomes hs1 rfl h) (.inl rfl) (.refl _)

theorem lclsApplyConfig_outcome {net net' : Net} {c : ConnId}
    (h : lclsApplyConfig net c = .ok net') : ApplyOutcome net c net' := by
  obtain ⟨_,rfl | ⟨s,hs,hin,h⟩⟩ := lclsDispatch_eq_ok h
  · exact .stays (.refl _)
  · cases s
    case noLcls => exact applyNoLcls_outcome hs h
    case notPossibleLs => exact applyNotPossibleLs_outcome hs h
    case reqLclsNotSupp => exact applyReqLclsNotSupp_outcome hs h
    case notYetLs =>
      simp only [lclsAction,lclsNotYetLsFn,bind_eq_ok] at h
      obtain ⟨_,_,possible,_,h⟩ := h
      split at h
      · exact .stays (enableLs_stays hs rfl rfl h)
      · cases h; exact .stays (.refl _)
    case noLongerLs =>
      simp [lclsAction,lclsNoLongerLsFn] at h
    case locallySwitched =>
      simp only [lclsAction,lclsLocallySwitchedFn,bind_eq_ok] at h
      obtain ⟨_,_,h⟩ := h
      split at h
      · simp only [bind_eq_ok] at h
        obtain ⟨net1,hchg,h⟩ := h
        have hb := (lclsStateChg_becomes hs rfl hchg).stays hs rfl rfl
        split at h
        · cases h
        · exact .stays (hb.trans (otherBreak_stays h))
      · cases h; exact .stays (.refl _)
    case locallySwitchedWaitBreak =>
      simp only [lclsAction,lclsLocallySwitchedWaitBreakFn,bind_eq_ok] at h
      obtain ⟨_,_,h⟩ := h
      split at h
      · simp only [bind_eq_ok] at h
        obtain ⟨net1,hbreak,net2,hchg,h⟩ := h
        have hsame := lclsBreakLocalSwitching_same hbreak
        have hs1 : net1.st c = some .locallySwitchedWaitBreak := by rw [hsame.st,hs]
        have hb := (lclsStateChg_becomes hs1 rfl hchg).stays hs1 rfl rfl
        split at h
        · cases h
        · exact .stays ((hsame.stays.trans hb).trans (otherBreak_stays h))
      · cases h; exact .stays (.refl _)
    case locallySwitchedWaitOtherBreak => cases hin

theorem updateLclsCfgCsc_same {net : Net} {c : ConnId} {config control : UInt8} {conn : Conn}
    (h : updateLclsCfgCsc (net.conn c) config control = some conn) :
    Same net (net.upd c fun _ => conn) := by
  simp only [updateLclsCfgCsc] at h
  split at h
  · cases h
  · cases h
    constructor
    · rfl
    all_goals
      funext x
      by_cases hx : x = c
      · subst hx; simp [Net.gcr,Net.st,Net.other]
      · simp [Net.gcr,Net.st,Net.other,net.upd_conn_ne _ hx]

/-- A config update is taken and moves no leg, or it is refused and moves the
leg to REQ_LCLS_NOT_SUPP, which every state permits. -/
theorem lclsHandleCfgUpdate_becomes {net net' : Net} {c : ConnId} {config control : UInt8}
    {taken : Bool} {s : LclsState} (hs : net.st c = some s)
    (h : lclsHandleCfgUpdate net c config control = .ok (net',taken)) :
    (taken = true ∧ Same net net') ∨
    (taken = false ∧ Becomes net net' (Function.update net.st c (some .reqLclsNotSupp))
      net.other) := by
  simp only [lclsHandleCfgUpdate] at h
  split at h
  · simp only [bind_eq_ok,pure_eq_ok,Except.ok.injEq,Prod.mk.injEq] at h
    obtain ⟨net1,hchg,rfl,rfl⟩ := h
    exact .inr ⟨rfl,lclsStateChg_becomes hs (by cases s <;> rfl) hchg⟩
  · rename_i conn hupd
    cases h
    exact .inl ⟨rfl,updateLclsCfgCsc_same hupd⟩

/-- What UPDATE_CFG_CSC can do to the legs. -/
inductive UpdateOutcome (net : Net) (c : ConnId) (net' : Net) : Prop where
  | stays (h : Stays net net')
  | notSupp (hgcr : net.st c = some .noLcls → net.gcr c ≠ [])
      (h : Becomes net net' (Function.update net.st c (some .reqLclsNotSupp)) net.other)

theorem UpdateOutcome.of_cfgUpdate {net net' : Net} {c : ConnId} {config control : UInt8}
    {taken : Bool} {s : LclsState} (hs : net.st c = some s)
    (hgcr : s = .noLcls → net.gcr c ≠ [])
    (h : lclsHandleCfgUpdate net c config control = .ok (net',taken)) :
    UpdateOutcome net c net' := by
  rcases lclsHandleCfgUpdate_becomes hs h with ⟨_,hb⟩ | ⟨_,hb⟩
  · exact .stays hb.stays
  · exact .notSupp (fun h => hgcr (by simpa [hs] using h)) hb

theorem updateOrBreak_outcome {net net' : Net} {c : ConnId} {config control : UInt8}
    {s : LclsState} (hs : net.st c = some s) (hn : s ≠ .noLcls)
    (h : updateOrBreak net c config control = .ok net') : UpdateOutcome net c net' := by
  simp only [updateOrBreak,bind_eq_ok] at h
  obtain ⟨⟨net1,taken⟩,hupd,h⟩ := h
  rcases lclsHandleCfgUpdate_becomes hs hupd with ⟨rfl,hb⟩ | ⟨rfl,hb⟩
  · cases h
    exact .stays hb.stays
  · have hb' : Same net1 net' := lclsBreakLocalSwitching_same h
    rw [Same,hb.st,hb.other] at hb'
    exact .notSupp (by simp [hs,hn]) (hb.trans hb')

theorem lclsUpdateConfig_outcome {net net' : Net} {c : ConnId} {config control : Option UInt8}
    (h : lclsUpdateConfig net c config control = .ok net') : UpdateOutcome net c net' := by
  simp only [lclsUpdateConfig] at h
  split at h
  · cases h; exact .stays (.refl _)
  obtain ⟨_,rfl | ⟨s,hs,hin,h⟩⟩ := lclsDispatch_eq_ok h
  · exact .stays (.refl _)
  cases s
  case noLcls =>
    simp only [lclsAction,lclsNoLclsFn,bind_eq_ok] at h
    obtain ⟨_,_,h⟩ := h
    split at h
    · cases h; exact .stays (.refl _)
    split at h
    · cases h; exact .stays (.refl _)
    · rename_i hgcr
      simp only [bind_eq_ok] at h
      obtain ⟨⟨net1,taken⟩,hupd,h⟩ := h
      cases h
      exact .of_cfgUpdate hs (fun _ => hgcr) hupd
  case notYetLs =>
    simp only [lclsAction,lclsNotYetLsFn,bind_eq_ok] at h
    obtain ⟨_,_,⟨net1,taken⟩,hupd,h⟩ := h
    cases h
    exact .of_cfgUpdate hs (by simp) hupd
  case notPossibleLs =>
    simp only [lclsAction,lclsNotPossibleLsFn,bind_eq_ok] at h
    obtain ⟨_,_,⟨net1,taken⟩,hupd,h⟩ := h
    cases h
    exact .of_cfgUpdate hs (by simp) hupd
  case reqLclsNotSupp =>
    simp only [lclsAction,lclsReqLclsNotSuppFn,bind_eq_ok] at h
    obtain ⟨⟨net1,taken⟩,hupd,h⟩ := h
    cases h
    exact .of_cfgUpdate hs (by simp) hupd
  case noLongerLs =>
    simp only [lclsAction,lclsNoLongerLsFn,bind_eq_ok] at h
    obtain ⟨_,_,⟨net1,taken⟩,hupd,h⟩ := h
    rcases lclsHandleCfgUpdate_becomes hs hupd with ⟨rfl,hb⟩ | ⟨rfl,hb⟩
    · simp only [Bool.not_true,Bool.false_eq_true,if_false,bind_eq_ok] at h
      obtain ⟨possible,_,h⟩ := h
      have hs1 : net1.st c = some .noLongerLs := by rw [hb.st,hs]
      split at h
      · exact .stays (hb.stays.trans (enableLs_stays hs1 rfl rfl h))
      · cases h; exact .stays hb.stays
    · cases h
      exact .notSupp (by simp [hs]) hb
  case locallySwitched =>
    simp only [lclsAction,lclsLocallySwitchedFn,bind_eq_ok] at h
    obtain ⟨_,_,h⟩ := h
    exact updateOrBreak_outcome hs (by simp) h
  case locallySwitchedWaitBreak =>
    simp only [lclsAction,lclsLocallySwitchedWaitBreakFn,bind_eq_ok] at h
    obtain ⟨_,_,h⟩ := h
    exact updateOrBreak_outcome hs (by simp) h
  case locallySwitchedWaitOtherBreak =>
    simp only [lclsAction,lclsLocallySwitchedWaitOtherBreakFn,bind_eq_ok] at h
    obtain ⟨_,_,h⟩ := h
    exact updateOrBreak_outcome hs (by simp) h

theorem lclsFsmCleanup_outcome {net net' : Net} {c o : ConnId} {s : LclsState}
    (ho : net.other c = some o) (hs : net.st o = some s) (h : lclsFsmCleanup net c = .ok net') :
    net.live o ∧
    ((lclsFsm.inEvent s .otherDead = false ∧
        Becomes net net' net.st (Function.update net.other c none)) ∨
      (lclsFsm.inEvent s .otherDead = true ∧ net.other o = some c ∧
        Becomes net net' (Function.update net.st o (some s.afterDead))
          (Function.update (Function.update net.other o (s.otherAfterDead c)) c none))) := by
  have ho' : (net.conn c).other = some o := ho
  simp only [lclsFsmCleanup,ho',bind_eq_ok,pure_eq_ok] at h
  obtain ⟨net1,hdead,h⟩ := h
  cases h
  have hset := setOther_becomes net1 c none
  refine ⟨(lclsDispatch_eq_ok hdead).1,?_⟩
  rcases otherDead_becomes hs hdead with ⟨hin,rfl⟩ | ⟨hin,hoc,hb⟩
  · exact .inl ⟨hin,hset⟩
  · rw [hb.st,hb.other] at hset
    exact .inr ⟨hin,hoc,hb.trans hset⟩

theorem UpdateOutcome.subscrConns {net net' : Net} {c : ConnId} (h : UpdateOutcome net c net') :
    net'.subscrConns = net.subscrConns := by
  cases h with
  | stays h => exact h.subscrConns
  | notSupp _ h => exact h.subscrConns

section Bssmap

/-! What the two BSSMAP handlers do to a connection is a run of its inputs, so that what holds of all runs
holds of them. -/

variable {net : Net} {c : ConnId} (config control : Option UInt8)

theorem run_update (hc : net.live c) :
    run Net.step net [.update c config control] = lclsUpdateConfig net c config control := by
  simp only [run,Net.step,if_pos (show c ∈ net.subscrConns from hc)]
  cases lclsUpdateConfig net c config control <;> rfl

theorem bssmapHandleAssReqLcls_run (hc : net.live c) (gcr : List UInt8) :
    run Net.step net [.setGcr c gcr,.update c config control] =
      bssmapHandleAssReqLcls net c gcr config control := by
  have hc' : (setGcr net c gcr).live c := by
    rw [Net.live,setGcr_subscrConns]
    exact hc
  rw [run,Net.step,if_pos (show c ∈ net.subscrConns from hc)]
  exact run_update config control hc'

theorem bssmapHandleLclsConnectCtrl_run (hc : net.live c) :
    bssmapHandleLclsConnectCtrl net c config control =
      if (net.conn c).globalCallRef = [] then .ok net
      else run Net.step net [.update c config control,.apply c] := by
  rw [bssmapHandleLclsConnectCtrl]
  split
  · rfl
  rw [run,Net.step,if_pos (show c ∈ net.subscrConns from hc)]
  cases hupd : lclsUpdateConfig net c config control with
  | error e => rfl
  | ok net1 =>
    have hc1 : c ∈ net1.subscrConns := by
      rw [(lclsUpdateConfig_outcome hupd).subscrConns]
      exact hc
    dsimp only
    rw [run,Net.step,if_pos hc1]
    change lclsApplyConfig net1 c = _
    cases lclsApplyConfig net1 c <;> rfl

end Bssmap

end OsmoBsc.Lcls
