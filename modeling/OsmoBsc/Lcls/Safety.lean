import OsmoBsc.Lcls.Dispatch
set_option autoImplicit false

namespace OsmoBsc.Lcls
open EventFsm Pairing

/-- The states that the code enters only without a peer. -/
def LclsState.refusesPeer : LclsState → Bool
  | .noLcls | .notPossibleLs => true
  | _ => false

theorem LclsState.needsPeer_refusesPeer {s : LclsState} (h : s.refusesPeer) : s.needsPeer = false := by
  cases s <;> first | rfl | cases h

theorem LclsState.refusesPeer_of_deaf {s : LclsState} (h : lclsFsm.inEvent s .otherDead = false) :
    s.refusesPeer := by
  cases s <;> first | rfl | cases h

theorem LclsState.needsPeer_isLs {s : LclsState} (h : s.isLs) : s.needsPeer := by
  cases s <;> first | rfl | cases h

structure LegOk (net : Net) (c : ConnId) (s : LclsState) : Prop where
  st : net.st c = some s
  peer : s.needsPeer → net.other c ≠ none
  noPeer : s.refusesPeer → net.other c = none
  gcr : s ≠ .noLcls → net.gcr c ≠ []

/-- What the assertions take for granted of all legs: each state has the peer it
needs, and no leg has a link that its peer knows nothing of, unless that
peer has no link at all. -/
structure Consistent (net : Net) : Prop where
  leg {c : ConnId} : net.live c → ∃ s, LegOk net c s
  links : WellLinked net.live net.other

theorem Consistent.legOk {net : Net} (h : Consistent net) {c : ConnId} {s : LclsState}
    (hc : net.live c) (hs : net.st c = some s) : LegOk net c s := by
  obtain ⟨s',hs'⟩ := h.leg hc
  have he : s' = s := by simpa [hs] using hs'.st.symm
  exact he ▸ hs'

theorem Consistent.stays {net net' : Net} (h : Consistent net) (hst : Stays net net') :
    Consistent net' where
  leg {c} hc := by
    have hc' : net.live c := by simpa [Net.live,hst.subscrConns] using hc
    obtain ⟨s,hs⟩ := h.leg hc'
    rcases hst.st c with he | ⟨s1,s2,h1,h2,hp1,hp2⟩
    · refine ⟨s,by rw [he]; exact hs.st,?_,?_,?_⟩
      · rw [hst.other]; exact hs.peer
      · rw [hst.other]; exact hs.noPeer
      · rw [hst.gcr]; exact hs.gcr
    · have he : s = s1 := by simpa [h1] using hs.st.symm
      subst he
      refine ⟨s2,h2,?_,?_,?_⟩
      · rw [hst.other]
        exact fun _ => hs.peer hp1
      · intro hr
        cases s2 <;> simp_all [LclsState.refusesPeer,LclsState.needsPeer]
      · rw [hst.gcr]
        intro _
        apply hs.gcr
        rintro rfl
        cases hp1
  links := by
    have hl : net'.live = net.live := by
      funext c
      simp [Net.live,hst.subscrConns]
    rw [hl,hst.other]
    exact h.links

theorem Consistent.move {net net' : Net} (h : Consistent net) {c : ConnId} {new : LclsState}
    (hb : Becomes net net' (Function.update net.st c (some new)) net.other)
    (hp : net.live c → new.needsPeer → net.other c ≠ none)
    (hn : net.live c → new.refusesPeer → net.other c = none)
    (hg : net.live c → new ≠ .noLcls → net.gcr c ≠ []) : Consistent net' where
  leg {x} hx := by
    have hx' : net.live x := by simpa [Net.live,hb.subscrConns] using hx
    by_cases hxc : x = c
    · subst hxc
      refine ⟨new,by simp [hb.st],?_,?_,?_⟩
      · rw [hb.other]; exact hp hx'
      · rw [hb.other]; exact hn hx'
      · rw [hb.gcr]; exact hg hx'
    · obtain ⟨s,hs⟩ := h.leg hx'
      refine ⟨s,by simp [hb.st,hxc,hs.st],?_,?_,?_⟩
      · rw [hb.other]; exact hs.peer
      · rw [hb.other]; exact hs.noPeer
      · rw [hb.gcr]; exact hs.gcr
  links := by
    have hl : net'.live = net.live := by
      funext c
      simp [Net.live,hb.subscrConns]
    rw [hl,hb.other]
    exact h.links

theorem live_congr {net net' : Net} (h : net'.subscrConns = net.subscrConns) :
    net'.live = net.live := by
  funext c
  simp [Net.live,h]

/-- Neither leg has a peer of its own, and no other leg points at one of them,
once `c` gave up its previous correlation. -/
def Unpaired (net : Net) (c d : ConnId) : Prop :=
  Free net.live (net.otherBroken c) c d ∧
    (net.otherBroken c d = none ∨ net.otherBroken c d = some c)

instance (net : Net) (c d : ConnId) : Decidable (Unpaired net c d) :=
  inferInstanceAs (Decidable ((∀ e ∈ net.subscrConns, net.otherBroken c e = some c ∨
    net.otherBroken c e = some d → e = c ∨ e = d) ∧
    (net.otherBroken c d = none ∨ net.otherBroken c d = some c)))

/-- The leg looks for a peer, and a previous peer can do without it. -/
structure Looking (net : Net) (c : ConnId) : Prop where
  live : net.live c
  correlates : net.correlates c = true
  lose {o : ConnId} : net.other c = some o → ∃ s, net.st o = some s ∧ s.needsPeer = false

theorem Looking.not_needsPeer {net : Net} {c : ConnId} (h : Looking net c) {s : LclsState}
    (hs : net.st c = some s) : s.needsPeer = false := by
  have hcor := h.correlates
  rw [Net.correlates,hs] at hcor
  cases s <;> simp_all [LclsState.needsPeer]

theorem Looking.gcr {net : Net} {c : ConnId} (h : Looking net c) (hok : Consistent net) :
    net.gcr c ≠ [] := by
  obtain ⟨s,hs⟩ := hok.leg h.live
  by_cases hn : s = .noLcls
  · subst hn
    have hcor := h.correlates
    simp only [Net.correlates,hs.st] at hcor
    simp_all
  · exact hs.gcr hn

section Broken

variable {net : Net} {c : ConnId}

theorem Looking.links (h : Looking net c) (hok : Consistent net) :
    WellLinked net.live (net.otherBroken c) := by
  cases ho : net.other c with
  | none =>
    rw [Net.otherBroken_of_none ho]
    exact hok.links
  | some o =>
    rw [Net.otherBroken_of_some ho]
    exact hok.links.unlink h.live ho

theorem Looking.peer (h : Looking net c) {x : ConnId} {s : LclsState} (hs : LegOk net x s)
    (hp : s.needsPeer) : net.otherBroken c x ≠ none := by
  cases ho : net.other c with
  | none =>
    rw [Net.otherBroken_of_none ho]
    exact hs.peer hp
  | some o =>
    have hxc : x ≠ c := by
      rintro rfl
      simp [h.not_needsPeer hs.st] at hp
    have hxo : x ≠ o := by
      rintro rfl
      obtain ⟨s',hs',hn⟩ := h.lose ho
      have he : s' = s := by simpa [hs.st] using hs'.symm
      simp_all
    rw [Net.otherBroken_of_some ho,rewire_of_ne _ _ hxc hxo]
    exact hs.peer hp

theorem Looking.noPeer (h : Looking net c) (hok : Consistent net) {x : ConnId} {s : LclsState}
    (hs : LegOk net x s) (hr : s.refusesPeer) : net.otherBroken c x = none := by
  cases ho : net.other c with
  | none =>
    rw [Net.otherBroken_of_none ho]
    exact hs.noPeer hr
  | some o =>
    rw [Net.otherBroken_of_some ho]
    have hoc := hok.links.ne_target h.live ho
    by_cases hxo : x = o
    · subst hxo; simp
    by_cases hxc : x = c
    · subst hxc; exact rewire_left _ _ hxo
    · rw [rewire_of_ne _ _ hxc hxo]
      exact hs.noPeer hr

theorem Looking.notFound (h : Looking net c) (hok : Consistent net) {net' : Net} {s new : LclsState}
    (hs : net.st c = some s) (hnew : new = if s = .reqLclsNotSupp then s else .notPossibleLs)
    (hother : s ≠ .reqLclsNotSupp → net.other c = none)
    (hb : Becomes net net' (Function.update net.st c (some new)) (net.otherBroken c)) :
    Consistent net' where
  leg {x} hx := by
    rw [live_congr hb.subscrConns] at hx
    obtain ⟨sx,hsx⟩ := hok.leg hx
    by_cases hxc : x = c
    · subst hxc
      refine ⟨new,by simp [hb.st],?_,?_,?_⟩
      · subst hnew
        split <;> simp_all [LclsState.needsPeer]
      · rw [hb.other]
        intro hr
        have hne : s ≠ .reqLclsNotSupp := by
          rintro rfl
          simp [hnew,LclsState.refusesPeer] at hr
        rw [Net.otherBroken_of_none (hother hne)]
        exact hother hne
      · rw [hb.gcr]
        exact fun _ => h.gcr hok
    · refine ⟨sx,by simp [hb.st,hxc,hsx.st],?_,?_,?_⟩
      · rw [hb.other]; exact h.peer hsx
      · rw [hb.other]; exact h.noPeer hok hsx
      · rw [hb.gcr]; exact hsx.gcr
  links := by
    rw [live_congr hb.subscrConns,hb.other]
    exact h.links hok

theorem Looking.linked (h : Looking net c) (hok : Consistent net) {net1 net2 : Net} {d : ConnId}
    {new : LclsState} (hfind : findConnWithSameGcr net c = some d) (hu : Unpaired net c d)
    (h1 : Correlates net net1 c d)
    (h2 : Becomes net1 net2 (Function.update net1.st c (some new)) net1.other)
    (hnew : new = .notYetLs ∨ new = .locallySwitched ∨ new = .reqLclsNotSupp) :
    Consistent net2 := by
  obtain ⟨hd,hdc,_⟩ := findConnWithSameGcr_eq hfind
  obtain ⟨sd,hsd⟩ := hok.leg hd
  obtain ⟨y,sd',hb,hcases⟩ := h1
  rw [hb.st,hb.other] at h2
  replace h2 := hb.trans h2
  have hl := live_congr h2.subscrConns
  have hcother : net2.other c = some d := by
    rw [h2.other]; exact rewire_left _ _ hdc.symm
  have hdother : net2.other d = y := by
    rw [h2.other]; simp
  have hdst : net2.st d = sd' := by
    simp [h2.st,hdc]
  have hy : y = some c ∨ y = none := by
    rcases hcases with ⟨rfl,_,_⟩ | ⟨_,_,_,rfl,_⟩
    · exact hu.2.symm
    · exact .inl rfl
  constructor
  · intro x hx
    rw [hl] at hx
    by_cases hxc : x = c
    · subst hxc
      refine ⟨new,by simp [h2.st],by simp [hcother],?_,?_⟩
      · rcases hnew with rfl | rfl | rfl <;> simp [LclsState.refusesPeer]
      · rw [h2.gcr]
        exact fun _ => h.gcr hok
    by_cases hxd : x = d
    · subst hxd
      rcases hcases with ⟨rfl,rfl,_⟩ | ⟨s,hs,_,rfl,rfl,_,_⟩
      · refine ⟨sd,by rw [hdst,hsd.st],?_,?_,?_⟩
        · rw [hdother]; exact h.peer hsd
        · rw [hdother]; exact h.noPeer hok hsd
        · rw [h2.gcr]; exact hsd.gcr
      · have he : s = sd := by simpa [hs] using hsd.st
        subst he
        refine ⟨s.afterCorrelated,hdst,by simp [hdother],?_,?_⟩
        · intro hr
          cases s <;> simp_all [LclsState.refusesPeer,LclsState.afterCorrelated,lclsFsm]
        · rw [h2.gcr]
          intro hn
          apply hsd.gcr
          rintro rfl
          exact hn rfl
    · obtain ⟨s,hs⟩ := hok.leg hx
      have hxo : net2.other x = net.otherBroken c x := by
        rw [h2.other]; exact rewire_of_ne _ _ hxc hxd
      refine ⟨s,by simp [h2.st,hxc,hxd,hs.st],?_,?_,?_⟩
      · rw [hxo]; exact h.peer hs
      · rw [hxo]; exact h.noPeer hok hs
      · rw [h2.gcr]; exact hs.gcr
  · rw [hl,h2.other]
    exact (h.links hok).rewire hdc.symm hu.1 h.live hd (.inl rfl) hy

end Broken

/-- The peer of a leg that terminates gets along with the news: it drops the
event, or its handler leaves it in a state that needs no peer. -/
def Survives (net : Net) (c o : ConnId) (s : LclsState) : Prop :=
  s.refusesPeer ∨ s = .locallySwitched ∨ (s = .reqLclsNotSupp ∧ net.other o = some c)

/-- The inputs that reach none of the assertions: a leg terminates only if every
leg that points at it is its own peer and survives the news; an apply comes
not in NO_LONGER_LS, and finds only an unpaired leg, with a previous peer
that can do without it. -/
def SafeInput (net : Net) : Input → Prop
  | .term c => net.live c →
      (∀ e, net.live e → net.other e = some c → net.other c = some e) ∧
      ∀ o, net.other c = some o → ∀ s, net.st o = some s → Survives net c o s
  | .apply c => net.live c → net.st c ≠ some .noLongerLs ∧
      (net.correlates c = true →
        (∀ o, net.other c = some o → ∃ s, net.st o = some s ∧ s.needsPeer = false) ∧
        ∀ d, findConnWithSameGcr net c = some d → Unpaired net c d)
  | _ => True

instance (net : Net) (c o : ConnId) (s : LclsState) : Decidable (Survives net c o s) :=
  inferInstanceAs (Decidable (_ ∨ _))

instance (net : Net) : (i : Input) → Decidable (SafeInput net i)
  | .term c => inferInstanceAs (Decidable (net.live c →
      (∀ e ∈ net.subscrConns, net.other e = some c → net.other c = some e) ∧
      ∀ o, net.other c = some o → ∀ s, net.st o = some s → Survives net c o s))
  | .apply c => inferInstanceAs (Decidable (net.live c → net.st c ≠ some .noLongerLs ∧
      (net.correlates c = true →
        (∀ o, net.other c = some o → ∃ s, net.st o = some s ∧ s.needsPeer = false) ∧
        ∀ d, findConnWithSameGcr net c = some d → Unpaired net c d)))
  | .alloc _ _ | .setGcr _ _ | .update _ _ _ | .resources _ _ _ _ => isTrue trivial

/-- The network without the connection `c`. -/
def Net.free (net : Net) (c : ConnId) : Net :=
  { net with subscrConns := net.subscrConns.filter (· ≠ c) }

theorem Net.free_live (net : Net) (c : ConnId) :
    (net.free c).live = fun e => net.live e ∧ e ≠ c := by
  funext e
  simp [Net.live,Net.free]

theorem Consistent.free {net net1 : Net} {c : ConnId} {st : ConnId → Option LclsState}
    {other : ConnId → Option ConnId} (h : Consistent net) (hb : Becomes net net1 st other)
    (hst : ∀ e s, net.live e → e ≠ c → LegOk net e s → ∃ s', st e = some s' ∧
      (s'.needsPeer → other e ≠ none) ∧ (s'.refusesPeer → other e = none) ∧
      (s = .noLcls → s' = .noLcls))
    (hl : WellLinked net.live other) (hn : ∀ e, net.live e → other e ≠ some c) :
    Consistent (net1.free c) where
  leg {e} he := by
    rw [Net.free_live,live_congr hb.subscrConns] at he
    obtain ⟨s,hs⟩ := h.leg he.1
    obtain ⟨s',hs',hp,hr,hno⟩ := hst e s he.1 he.2 hs
    refine ⟨s',by rw [← hs',← hb.st]; rfl,?_,?_,?_⟩
    · intro hp'
      have := hp hp'
      rwa [← hb.other] at this
    · intro hr'
      have := hr hr'
      rwa [← hb.other] at this
    · intro hne
      have hg := hs.gcr fun he => hne (hno he)
      rwa [← hb.gcr] at hg
  links := by
    rw [Net.free_live,live_congr hb.subscrConns]
    have := hl.remove hn
    rwa [← hb.other] at this

theorem Consistent.term {net net1 : Net} {c : ConnId} (h : Consistent net) (hc : net.live c)
    (hg : SafeInput net (.term c)) (hcl : lclsFsmCleanup net c = .ok net1) :
    Consistent (net1.free c) := by
  obtain ⟨hback,hsurv⟩ := hg hc
  cases ho : net.other c with
  | none =>
    have ho' : (net.conn c).other = none := ho
    simp only [lclsFsmCleanup,ho',pure_eq_ok,Except.ok.injEq] at hcl
    subst hcl
    apply h.free (Same.refl net)
    · intro e s _ _ hs
      exact ⟨s,hs.st,hs.peer,hs.noPeer,id⟩
    · exact h.links
    · intro e he hp
      have := hback e he hp
      simp [ho] at this
  | some o =>
    have hlo := h.links.live_target hc ho
    have hoc := h.links.ne_target hc ho
    obtain ⟨s,hs⟩ := h.leg hlo
    have hfree := h.links.free_of_link hc ho
    have hself : ∀ e, net.live e → net.other e = some c → e = o := by
      intro e he hp
      have := hback e he hp
      simpa [ho] using this.symm
    obtain ⟨_,⟨hin,hb⟩ | ⟨hin,hoo,hb⟩⟩ := lclsFsmCleanup_outcome ho hs.st hcl
    · -- the peer is in NO_LCLS or NOT_POSSIBLE_LS and has no link
      have hrefuse : s.refusesPeer := LclsState.refusesPeer_of_deaf hin
      have hnone := hs.noPeer hrefuse
      have hrw : Function.update net.other c none = rewire net.other c o none none := by
        have hs := Function.update_eq_self o (Function.update net.other c none)
        rw [Function.update_of_ne hoc,hnone] at hs
        exact hs.symm
      apply h.free hb
      · intro e s' _ hec hs'
        exact ⟨s',hs'.st,by simpa [hec] using hs'.peer,by simpa [hec] using hs'.noPeer,id⟩
      · rw [hrw]
        exact h.links.unlink hc ho
      · intro e he hp
        by_cases hec : e = c
        · subst hec; simp at hp
        · rw [Function.update_of_ne hec] at hp
          have := hself e he hp
          subst this
          simp [hnone] at hp
    · have hwob : s ≠ .locallySwitchedWaitOtherBreak := by
        rintro rfl
        simpa [Survives,LclsState.refusesPeer] using hsurv o ho _ hs.st
      have hdead : s.otherAfterDead c = none := by simp [LclsState.otherAfterDead,hwob]
      have hrw : Function.update (Function.update net.other o (s.otherAfterDead c)) c none =
          rewire net.other c o none none := by
        rw [hdead,rewire]
        exact Function.update_comm hoc none none net.other
      rw [hrw] at hb
      apply h.free hb
      · intro e s' _ hec hs'
        by_cases heo : e = o
        · subst heo
          refine ⟨s.afterDead,by simp,?_,by simp,?_⟩
          · intro hp
            have hdone : s.afterDead.needsPeer = false := by
              rcases hsurv e ho s hs.st with hr | rfl | ⟨rfl,-⟩
              · cases s <;> first | rfl | cases hr
              · rfl
              · rfl
            rw [hdone] at hp
            cases hp
          · rintro rfl
            have he : s = .noLcls := by simpa [hs.st] using hs'.st
            subst he
            rfl
        · refine ⟨s',by simp [heo,hs'.st],?_,?_,id⟩
          · rw [rewire_of_ne _ _ hec heo]; exact hs'.peer
          · rw [rewire_of_ne _ _ hec heo]; exact hs'.noPeer
      · exact h.links.unlink hc ho
      · intro e he hp
        rcases rewire_eq_some hoc.symm hp with ⟨_,hx⟩ | ⟨_,hx⟩ | ⟨hec,heo,hx⟩
        · cases hx
        · cases hx
        · exact heo (hself e he hx)

/-- The network with a new connection `c`. -/
def Net.alloc (net : Net) (c : ConnId) (msc : Msc) : Net :=
  { net with
    subscrConns := net.subscrConns ++ [c]
    conn := Function.update net.conn c (allocConn msc) }

theorem Net.alloc_live (net : Net) (c : ConnId) (msc : Msc) :
    (net.alloc c msc).live = fun e => net.live e ∨ e = c := by
  funext e
  simp [Net.live,Net.alloc]

theorem Net.alloc_other (net : Net) (c : ConnId) (msc : Msc) :
    (net.alloc c msc).other = Function.update net.other c none := by
  funext e
  by_cases hec : e = c
  · subst hec; simp [Net.other,Net.alloc,allocConn]
  · simp [Net.other,Net.alloc,hec]

theorem Consistent.alloc {net : Net} {c : ConnId} (h : Consistent net) (hc : ¬ net.live c)
    (msc : Msc) : Consistent (net.alloc c msc) where
  leg {e} he := by
    rw [Net.alloc_live] at he
    by_cases hec : e = c
    · subst hec
      refine ⟨.noLcls,?_,?_,?_,by simp⟩
      all_goals simp [Net.st,Net.other,Net.alloc,allocConn,LclsState.needsPeer]
    · obtain ⟨s,hs⟩ := h.leg (he.resolve_right hec)
      have hconn : (net.alloc c msc).conn e = net.conn e := by simp [Net.alloc,hec]
      refine ⟨s,?_,?_,?_,?_⟩
      all_goals simp only [Net.st,Net.other,Net.gcr,hconn]
      · exact hs.st
      · exact hs.peer
      · exact hs.noPeer
      · exact hs.gcr
  links := by
    rw [Net.alloc_live,Net.alloc_other]
    exact h.links.add hc

theorem setGcr_gcr_ne_nil {net : Net} {c e : ConnId} (gcr : List UInt8) (h : net.gcr e ≠ []) :
    (setGcr net c gcr).gcr e ≠ [] := by
  unfold setGcr
  split
  · rename_i hlen
    by_cases hec : e = c
    · subst hec
      rintro heq
      simp only [Net.gcr,Net.upd_conn_self] at heq
      simp [heq] at hlen
    · simpa only [Net.gcr,net.upd_conn_ne _ hec] using h
  · exact h

theorem Consistent.setGcr {net : Net} (h : Consistent net) (c : ConnId) (gcr : List UInt8) :
    Consistent (setGcr net c gcr) where
  leg {e} he := by
    rw [live_congr (setGcr_subscrConns ..)] at he
    obtain ⟨s,hs⟩ := h.leg he
    refine ⟨s,by simpa using hs.st,by simpa using hs.peer,by simpa using hs.noPeer,?_⟩
    exact fun hn => setGcr_gcr_ne_nil gcr (hs.gcr hn)
  links := by
    rw [live_congr (setGcr_subscrConns ..),setGcr_other]
    exact h.links

theorem Consistent.step {net net' : Net} {i : Input} (h : Consistent net) (hg : SafeInput net i)
    (hs : net.step i = .ok net') : Consistent net' := by
  cases i with
  | alloc c msc =>
    simp only [Net.step] at hs
    split at hs
    · cases hs; exact h
    · rename_i hc
      cases hs
      exact h.alloc hc msc
  | term c =>
    simp only [Net.step] at hs
    split at hs
    · rename_i hc
      simp only [bind_eq_ok,pure_eq_ok] at hs
      obtain ⟨net1,hcl,hs⟩ := hs
      cases hs
      exact h.term hc hg hcl
    · cases hs; exact h
  | setGcr c gcr =>
    simp only [Net.step] at hs
    split at hs
    · cases hs; exact h.setGcr c gcr
    · cases hs; exact h
  | update c config control =>
    simp only [Net.step] at hs
    split at hs
    · rename_i hc
      rcases lclsUpdateConfig_outcome hs with hst | ⟨hgcr,hb⟩
      · exact h.stays hst
      · apply h.move hb
        · simp [LclsState.needsPeer]
        · simp [LclsState.refusesPeer]
        · intro hc _
          obtain ⟨s,hs⟩ := h.leg hc
          by_cases hn : s = .noLcls
          · exact hgcr (hn ▸ hs.st)
          · exact hs.gcr hn
    · cases hs; exact h
  | apply c =>
    simp only [Net.step] at hs
    split at hs
    · rename_i hc
      obtain ⟨_,hcor⟩ := hg hc
      rcases lclsApplyConfig_outcome hs with hst | ⟨s,hst,hc1,hother,_,hb⟩ |
        ⟨s,s',d,net1,net2,hst,hc1,hother,hfind,h1,h2,hs',hst2⟩
      · exact h.stays hst
      · have hl : Looking net c := ⟨hc,hc1,(hcor hc1).1 _⟩
        exact hl.notFound h hst rfl hother hb
      · have hl : Looking net c := ⟨hc,hc1,(hcor hc1).1 _⟩
        exact (hl.linked h hfind ((hcor hc1).2 d hfind) h1 h2 hs').stays hst2
    · cases hs; exact h
  | resources c lchan ci msc =>
    simp only [Net.step] at hs
    split at hs
    · cases hs
      exact h.stays (Same.stays (.upd net c (fun _ => rfl) (fun _ => rfl) fun _ => rfl))
    · cases hs; exact h

/-- No assertion fails and no freed connection is used. What is left is a leg
without an lchan, whose address the code follows unchecked. -/
abbrev Sound {α : Type} (x : Except Fault α) : Prop := FaultsIn (· = .nullDeref) x

theorem sound_osmoAssert {p : Prop} [Decidable p] (h : p) : Sound (osmoAssert p) := by
  simp [osmoAssert,h]

section Faults

variable {net : Net} {c : ConnId}

theorem sound_deref (h : net.live c) : Sound (net.deref c) := by
  simp [Net.deref_live h]

theorem sound_lclsCheckToggleAllowed (h : ∀ o, net.other c = some o → net.live o) :
    Sound (lclsCheckToggleAllowed net c) := by
  have hm : Sound (lclsModeMismatch net c) := by
    unfold lclsModeMismatch
    split
    · simp
    · rename_i o ho
      exact (sound_deref (h o ho)).bind (by simp)
  unfold lclsCheckToggleAllowed
  refine hm.bind fun mismatch _ => ?_
  split
  · simp
  · split <;> simp

theorem sound_lclsMdcx (redirect : Redirect) : Sound (lclsMdcx net c redirect) := by
  unfold lclsMdcx
  split <;> simp

theorem sound_lclsRsl (h : ∀ o, net.other c = some o → net.live o) (enable : Bool) :
    Sound (lclsRsl net c enable) := by
  unfold lclsRsl
  simp only
  split
  · simp
  · split
    · cases ho : (net.conn c).other with
      | none => simp
      | some o =>
        refine (sound_deref (h o ho)).bind fun other _ => ?_
        split <;> simp
    · split <;> simp

theorem sound_lclsBreakLocalSwitching (h : ∀ o, net.other c = some o → net.live o) :
    Sound (lclsBreakLocalSwitching net c) := by
  unfold lclsBreakLocalSwitching
  refine (sound_lclsCheckToggleAllowed h).bind fun allowed _ => ?_
  split
  · simp
  · split
    · exact sound_lclsMdcx _
    · exact sound_lclsRsl h _
    · simp

theorem sound_lclsEnablePossible {o : ConnId} (ho : net.other c = some o) (hl : net.live o) :
    Sound (lclsEnablePossible net c) := by
  have ho' : (net.conn c).other = some o := ho
  simp only [lclsEnablePossible,ho']
  refine (sound_deref hl).bind fun other _ => ?_
  split
  · simp
  split
  · simp
  split
  · simp
  split
  · simp
  split
  · split
    · simp
    · split <;> simp
  · simp

theorem sound_lclsLocallySwitchedOnenter {o : ConnId} (ho : net.other c = some o)
    (hl : net.live o) : Sound (lclsLocallySwitchedOnenter net c) := by
  have ho' : (net.conn c).other = some o := ho
  have hall : ∀ o', net.other c = some o' → net.live o' := by
    intro o' ho'
    have he : o = o' := by simpa [ho] using ho'
    exact he ▸ hl
  simp only [lclsLocallySwitchedOnenter,ho']
  refine (sound_lclsCheckToggleAllowed hall).bind fun allowed _ => ?_
  split
  · simp
  · refine (sound_deref hl).bind fun other _ => ?_
    split
    · simp
    · split
      · simp
      · split
        · exact sound_lclsMdcx _
        · exact sound_lclsRsl hall _
        · simp

theorem sound_lclsStateChg {new : LclsState} (h : ∀ o, net.other c = some o → net.live o)
    (hls : new = .locallySwitched → net.other c ≠ none) : Sound (lclsStateChg net c new) := by
  unfold lclsStateChg
  split
  · simp
  · split
    · simp
    · dsimp only
      split
      · rename_i hn
        obtain ⟨o,ho⟩ := Option.ne_none_iff_exists'.mp (hls hn)
        exact sound_lclsLocallySwitchedOnenter (o := o) (by simpa using ho) (h o ho)
      · simp

theorem sound_lclsHandleCfgUpdate (h : ∀ o, net.other c = some o → net.live o)
    (config control : UInt8) : Sound (lclsHandleCfgUpdate net c config control) := by
  unfold lclsHandleCfgUpdate
  split
  · exact (sound_lclsStateChg h (by simp)).bind (by simp)
  · simp

theorem Consistent.peerLive (h : Consistent net) (hc : net.live c) (o : ConnId)
    (ho : net.other c = some o) : net.live o := h.links.live_target hc ho

/-- The peer of a leg that sends it an event, in a state that needs a peer, has
the sender as its own peer. -/
theorem Consistent.sender (h : Consistent net) {d : ConnId} {s : LclsState}
    (hc : net.live c) (hcd : net.other c = some d) (hs : net.st d = some s) (hp : s.needsPeer) :
    net.other d = some c := by
  have hd := h.links.live_target hc hcd
  rcases h.links.back hc hcd with hb | hb
  · exact hb
  · exact absurd hb ((h.legOk hd hs).peer hp)

theorem Consistent.otherBreak_sound (h : Consistent net) {n : Nat} {d : ConnId} (hc : net.live c)
    (hcd : net.other c = some d) : Sound (lclsDispatch (n+1) net d (.otherBreak c)) := by
  have hd := h.links.live_target hc hcd
  obtain ⟨s,hs⟩ := h.leg hd
  rw [lclsDispatch_of_st hd hs.st]
  cases s
  case locallySwitched =>
    have hdc := h.sender hc hcd hs.st rfl
    refine (sound_osmoAssert (hs.peer rfl)).bind fun _ _ => ?_
    refine (sound_osmoAssert hdc).bind fun _ _ => ?_
    exact sound_lclsStateChg (h.peerLive hd) (by simp)
  case locallySwitchedWaitBreak =>
    exact (sound_osmoAssert (hs.peer rfl)).bind (by simp)
  case locallySwitchedWaitOtherBreak =>
    have hdc := h.sender hc hcd hs.st rfl
    refine (sound_osmoAssert (hs.peer rfl)).bind fun _ _ => ?_
    refine (sound_osmoAssert hdc).bind fun _ _ => ?_
    refine (sound_lclsBreakLocalSwitching (h.peerLive hd)).bind fun net1 h1 => ?_
    have hsame := lclsBreakLocalSwitching_same h1
    have h1' := h.stays hsame.stays
    have hd1 : net1.live d := by rwa [live_congr hsame.subscrConns]
    exact (sound_lclsStateChg (h1'.peerLive hd1) (by simp)).bind (by simp)
  all_goals simp [lclsFsm,LclsEvent.kind]

theorem Consistent.followPeer_sound (h : Consistent net) {n : Nat} {d : ConnId} (hc : net.live c)
    (hcd : net.other c = some d) (hdc : net.other d = some c) :
    Sound (followPeer (lclsDispatch (n+1)) net d c) := by
  have hd := h.links.live_target hc hcd
  unfold followPeer
  refine (sound_osmoAssert hdc).bind fun _ _ => ?_
  refine (sound_lclsEnablePossible hdc hc).bind fun possible _ => ?_
  split
  · exact (sound_lclsStateChg (h.peerLive hd) (by simp [hdc])).bind (by simp)
  · exact h.otherBreak_sound hd hdc

theorem Consistent.otherEnabled_sound (h : Consistent net) {n : Nat} {d : ConnId}
    (hc : net.live c) (hcd : net.other c = some d) :
    Sound (lclsDispatch (n+2) net d (.otherEnabled c)) := by
  have hd := h.links.live_target hc hcd
  obtain ⟨s,hs⟩ := h.leg hd
  rw [lclsDispatch_of_st hd hs.st]
  cases s
  case notYetLs =>
    have hdc := h.sender hc hcd hs.st rfl
    exact (sound_osmoAssert (hs.peer rfl)).bind fun _ _ => h.followPeer_sound hc hcd hdc
  case noLongerLs =>
    have hdc := h.sender hc hcd hs.st rfl
    exact (sound_osmoAssert (hs.peer rfl)).bind fun _ _ => h.followPeer_sound hc hcd hdc
  all_goals simp [lclsFsm,LclsEvent.kind]

theorem Looking.breakCorrelation_sound (h : Looking net c) (hok : Consistent net) :
    Sound (breakCorrelation net c) := by
  unfold breakCorrelation
  split
  · simp
  · rename_i o ho
    obtain ⟨s,hs,hn⟩ := h.lose ho
    have hfi : (net.conn o).fi = some s := hs
    simp only [Net.deref_live (hok.peerLive h.live o ho),ok_bind,hfi]
    refine (sound_osmoAssert ?_).bind (by simp)
    cases s <;> simp_all [LclsState.needsPeer,LclsState.isLs]

theorem Looking.correlated_sound (h : Looking net c) (hok : Consistent net) {n : Nat}
    {net1 : Net} {d : ConnId} (hb : Becomes net net1 net.st (net.otherBroken c))
    (hfind : findConnWithSameGcr net c = some d) :
    Sound (lclsDispatch (n+1) (net1.setOther c (some d)) d (.correlated c)) := by
  obtain ⟨hd,hdc,_⟩ := findConnWithSameGcr_eq hfind
  obtain ⟨s,hs⟩ := hok.leg hd
  have hl : (net1.setOther c (some d)).live = net.live := live_congr (by simpa using hb.subscrConns)
  have hst : (net1.setOther c (some d)).st d = some s := by simp [hb.st,hs.st]
  have hother : ((net1.setOther c (some d)).conn d).other = net.otherBroken c d := by
    change (net1.setOther c (some d)).other d = _
    simp [hdc,hb.other]
  rw [lclsDispatch_of_st (by rwa [hl]) hst]
  cases s
  case notYetLs =>
    exact (sound_osmoAssert (by rw [hother]; exact h.peer hs rfl)).bind (by simp)
  case noLongerLs =>
    exact (sound_osmoAssert (by rw [hother]; exact h.peer hs rfl)).bind (by simp)
  case reqLclsNotSupp => simp [lclsFsm,LclsEvent.kind,lclsAction,lclsReqLclsNotSuppFn]
  case notPossibleLs =>
    refine (sound_osmoAssert (by rw [hother]; exact h.noPeer hok hs rfl)).bind fun _ _ => ?_
    refine FaultsIn.bind (sound_lclsStateChg ?_ (by simp)) (by simp)
    intro o ho
    have he : c = o := by simpa using ho
    subst he
    exact congrFun hl c ▸ h.live
  all_goals simp [lclsFsm,LclsEvent.kind]

theorem Looking.lclsPerformCorrelation_sound (h : Looking net c) (hok : Consistent net) {n : Nat} :
    Sound (lclsPerformCorrelation (lclsDispatch (n+1)) net c) := by
  obtain ⟨s,hs⟩ := hok.leg h.live
  have hfi : (net.conn c).fi = some s := hs.st
  have hn := h.not_needsPeer hs.st
  unfold lclsPerformCorrelation
  refine (sound_osmoAssert (h.gcr hok)).bind fun _ _ => ?_
  refine (sound_osmoAssert ?_).bind fun _ _ => ?_
  · rw [hfi]
    cases s <;> simp_all [LclsState.needsPeer,LclsState.isLs]
  refine (h.breakCorrelation_sound hok).bind fun net1 h1 => ?_
  have hb := (breakCorrelation_becomes h1).2
  rw [findConnWithSameGcr_congr hb.subscrConns hb.gcr]
  split
  · simp
  · rename_i d hfind
    exact (h.correlated_sound hok hb hfind).bind (by simp)

theorem Correlates.other_self {net1 : Net} {d : ConnId} (h : Correlates net net1 c d)
    (hdc : d ≠ c) : net1.other c = some d := by
  obtain ⟨y,s',hb,_⟩ := h
  rw [hb.other]
  exact rewire_left _ _ hdc.symm

theorem Correlates.live {net1 : Net} {d : ConnId} (h : Correlates net net1 c d) :
    net1.live = net.live := by
  obtain ⟨y,s',hb,_⟩ := h
  exact live_congr hb.subscrConns

theorem Looking.enableOrWait_sound (h : Looking net c) (hok : Consistent net) {n : Nat}
    {net1 : Net} {d : ConnId} {s : LclsState} (hs : net.st c = some s)
    (hls : lclsFsm.outState s .locallySwitched = true)
    (hfind : findConnWithSameGcr net c = some d) (hu : Unpaired net c d)
    (h1 : Correlates net net1 c d) (possible : Bool) :
    Sound (if possible = true then enableLs (lclsDispatch (n+2)) net1 c
      else lclsStateChg net1 c .notYetLs) := by
  obtain ⟨hd,hdc,_⟩ := findConnWithSameGcr_eq hfind
  have hcd := h1.other_self hdc
  have hs1 : net1.st c = some s := by rw [h1.st_self hdc,hs]
  have hlive : ∀ o, net1.other c = some o → net1.live o := by
    intro o ho
    have he : d = o := by simpa [hcd] using ho
    rw [h1.live,← he]
    exact hd
  split
  · unfold enableLs
    refine (sound_lclsStateChg hlive (by simp [hcd])).bind fun net2 h2 => ?_
    have hb := lclsStateChg_becomes hs1 hls h2
    have hok2 := h.linked hok hfind hu h1 hb (.inr (.inl rfl))
    have hcd2 : net2.other c = some d := by rw [hb.other,hcd]
    have hcd2' : (net2.conn c).other = some d := hcd2
    have hc2 : net2.live c := by
      rw [live_congr hb.subscrConns,h1.live]
      exact h.live
    simp only [hcd2']
    exact hok2.otherEnabled_sound hc2 hcd2
  · exact sound_lclsStateChg hlive (by simp)

theorem Looking.found_sound (h : Looking net c) (hok : Consistent net) {n : Nat} {net1 : Net}
    {d : ConnId} {s : LclsState} (hs : net.st c = some s)
    (hls : lclsFsm.outState s .locallySwitched = true)
    (hfind : findConnWithSameGcr net c = some d) (hu : Unpaired net c d)
    (h1 : Correlates net net1 c d) :
    Sound (do
      osmoAssert ((net1.conn c).other ≠ none)
      let possible ← lclsEnablePossible net1 c
      if possible = true then enableLs (lclsDispatch (n+2)) net1 c
        else lclsStateChg net1 c .notYetLs) := by
  obtain ⟨hd,hdc,_⟩ := findConnWithSameGcr_eq hfind
  have hcd : (net1.conn c).other = some d := h1.other_self hdc
  refine (sound_osmoAssert (by simp [hcd])).bind fun _ _ => ?_
  refine (sound_lclsEnablePossible hcd (by rwa [h1.live])).bind fun possible _ => ?_
  exact h.enableOrWait_sound hok hs hls hfind hu h1 possible

theorem Looking.applyNoLcls_sound (h : Looking net c) (hok : Consistent net) {n : Nat}
    (hs : LegOk net c .noLcls)
    (hu : ∀ d, findConnWithSameGcr net c = some d → Unpaired net c d) :
    Sound (lclsNoLclsFn (lclsDispatch (n+2)) net c .applyCfgCsc) := by
  have hnone := hs.noPeer rfl
  simp only [lclsNoLclsFn]
  refine (sound_osmoAssert hnone).bind fun _ _ => ?_
  split
  · simp
  split
  · simp
  split
  · simp
  refine (h.lclsPerformCorrelation_sound hok).bind fun r hp => ?_
  obtain ⟨net1,found⟩ := r
  rcases lclsPerformCorrelation_eq_ok hp with ⟨rfl,hfind,hb⟩ | ⟨rfl,d,hfind,h1⟩
  · refine sound_lclsStateChg ?_ (by simp)
    simp [hb.other,Net.otherBroken_of_none hnone,hnone]
  · exact h.found_sound hok hs.st rfl hfind (hu d hfind) h1

theorem Looking.applyNotPossibleLs_sound (h : Looking net c) (hok : Consistent net) {n : Nat}
    (hs : LegOk net c .notPossibleLs)
    (hu : ∀ d, findConnWithSameGcr net c = some d → Unpaired net c d) :
    Sound (lclsNotPossibleLsFn (lclsDispatch (n+2)) net c .applyCfgCsc) := by
  simp only [lclsNotPossibleLsFn]
  refine (sound_osmoAssert (hs.noPeer rfl)).bind fun _ _ => ?_
  refine (h.lclsPerformCorrelation_sound hok).bind fun r hp => ?_
  obtain ⟨net1,found⟩ := r
  rcases lclsPerformCorrelation_eq_ok hp with ⟨rfl,_,_⟩ | ⟨rfl,d,hfind,h1⟩
  · simp
  · exact h.found_sound hok hs.st rfl hfind (hu d hfind) h1

theorem Looking.applyReqLclsNotSupp_sound (h : Looking net c) (hok : Consistent net) {n : Nat}
    (hs : LegOk net c .reqLclsNotSupp) :
    Sound (lclsReqLclsNotSuppFn (lclsDispatch (n+2)) net c .applyCfgCsc) := by
  simp only [lclsReqLclsNotSuppFn]
  refine (h.lclsPerformCorrelation_sound hok).bind fun r hp => ?_
  obtain ⟨net1,found⟩ := r
  rcases lclsPerformCorrelation_eq_ok hp with ⟨rfl,_,hb⟩ | ⟨rfl,d,hfind,h1⟩
  · have hs1 : net1.st c = some .reqLclsNotSupp := by rw [hb.st,hs.st]
    have hr : lclsFsm.outState .reqLclsNotSupp .notPossibleLs = false := rfl
    simp [lclsStateChg_refused hs1 hr]
  · obtain ⟨hd,hdc,_⟩ := findConnWithSameGcr_eq hfind
    have hcd := h1.other_self hdc
    have hcd' : (net1.conn c).other = some d := hcd
    have hlive : ∀ o, net1.other c = some o → net1.live o := by
      intro o ho
      have he : d = o := by simpa [hcd] using ho
      rw [h1.live,← he]
      exact hd
    simp only [Bool.not_true,Bool.false_eq_true,if_false]
    refine (sound_osmoAssert (by simp [hcd'])).bind fun _ _ => ?_
    split
    · simp
    · refine (sound_lclsEnablePossible hcd (by rwa [h1.live])).bind fun possible _ => ?_
      split
      · exact sound_lclsStateChg hlive (by simp [hcd])
      · exact sound_lclsStateChg hlive (by simp)

theorem Consistent.tellBreak_sound (h : Consistent net) {n : Nat} (hc : net.live c) {s new : LclsState}
    (hs : LegOk net c s) (hp : s.needsPeer) (hn : new.needsPeer) (hls : new ≠ .locallySwitched)
    (hout : lclsFsm.outState s new = true) :
    Sound (do
      let net ← lclsStateChg net c new
      match (net.conn c).other with
      | none => .error .nullDeref
      | some o => lclsDispatch (n+1) net o (.otherBreak c)) := by
  refine (sound_lclsStateChg (h.peerLive hc) (by simp [hls])).bind fun net1 h1 => ?_
  have hb := lclsStateChg_becomes hs.st hout h1
  have h' := h.stays (hb.stays hs.st hp hn)
  have hc1 : net1.live c := by rwa [live_congr hb.subscrConns]
  split
  · simp
  · rename_i o ho
    exact h'.otherBreak_sound hc1 ho

theorem Consistent.enableLs_sound (h : Consistent net) {n : Nat} (hc : net.live c) {s : LclsState}
    (hs : LegOk net c s) (hp : s.needsPeer) (hout : lclsFsm.outState s .locallySwitched = true) :
    Sound (enableLs (lclsDispatch (n+2)) net c) := by
  unfold enableLs
  refine (sound_lclsStateChg (h.peerLive hc) (fun _ => hs.peer hp)).bind fun net1 h1 => ?_
  have hb := lclsStateChg_becomes hs.st hout h1
  have h' := h.stays (hb.stays hs.st hp rfl)
  have hc1 : net1.live c := by rwa [live_congr hb.subscrConns]
  split
  · simp
  · rename_i o ho
    exact h'.otherEnabled_sound hc1 ho

theorem Consistent.apply_sound (h : Consistent net) (hc : net.live c)
    (hg : SafeInput net (.apply c)) : Sound (lclsApplyConfig net c) := by
  obtain ⟨hno,hcor⟩ := hg hc
  obtain ⟨s,hs⟩ := h.leg hc
  have hlook : net.correlates c = true → Looking net c := fun hl => ⟨hc,hl,(hcor hl).1 _⟩
  unfold lclsApplyConfig
  rw [dispatchDepth,lclsDispatch_of_st hc hs.st]
  cases s
  case noLcls =>
    cases hl : net.correlates c with
    | true => exact (hlook hl).applyNoLcls_sound h hs (hcor hl).2
    | false =>
      have hnone : (net.conn c).other = none := hs.noPeer rfl
      simp only [Net.correlates,hs.st] at hl
      simp only [lclsFsm,LclsEvent.kind,if_true,lclsAction,lclsNoLclsFn]
      refine (sound_osmoAssert hnone).bind fun _ _ => ?_
      split
      · simp
      split
      · simp
      split
      · simp
      · simp_all [Net.gcr]
  case notPossibleLs =>
    have hl : net.correlates c = true := by simp [Net.correlates,hs.st]
    exact (hlook hl).applyNotPossibleLs_sound h hs (hcor hl).2
  case reqLclsNotSupp =>
    have hl : net.correlates c = true := by simp [Net.correlates,hs.st]
    exact (hlook hl).applyReqLclsNotSupp_sound h hs
  case notYetLs =>
    obtain ⟨o,ho⟩ := Option.ne_none_iff_exists'.mp (hs.peer rfl)
    refine (sound_osmoAssert (hs.peer rfl)).bind fun _ _ => ?_
    refine (sound_lclsEnablePossible ho (h.peerLive hc o ho)).bind fun possible _ => ?_
    split
    · exact h.enableLs_sound hc hs rfl rfl
    · simp
  case noLongerLs => exact absurd hs.st hno
  case locallySwitched =>
    refine (sound_osmoAssert (hs.peer rfl)).bind fun _ _ => ?_
    simp only
    split
    · exact h.tellBreak_sound hc hs rfl rfl (by simp) rfl
    · simp
  case locallySwitchedWaitBreak =>
    refine (sound_osmoAssert (hs.peer rfl)).bind fun _ _ => ?_
    simp only
    split
    · refine (sound_lclsBreakLocalSwitching (h.peerLive hc)).bind fun net1 h1 => ?_
      have hsame := lclsBreakLocalSwitching_same h1
      have h' := h.stays hsame.stays
      have hc1 : net1.live c := by rwa [live_congr hsame.subscrConns]
      have hs1 := h'.legOk hc1 (by rw [hsame.st]; exact hs.st)
      exact h'.tellBreak_sound hc1 hs1 rfl rfl (by simp) rfl
    · simp
  case locallySwitchedWaitOtherBreak => simp [lclsFsm,LclsEvent.kind]

theorem Consistent.updateOrBreak_sound (h : Consistent net) (hc : net.live c)
    (config control : UInt8) : Sound (updateOrBreak net c config control) := by
  obtain ⟨s,hs⟩ := h.leg hc
  unfold updateOrBreak
  refine (sound_lclsHandleCfgUpdate (h.peerLive hc) config control).bind fun ⟨net1,taken⟩ hu => ?_
  rcases lclsHandleCfgUpdate_becomes hs.st hu with ⟨rfl,_⟩ | ⟨rfl,hb⟩
  · simp
  · apply sound_lclsBreakLocalSwitching
    rw [hb.other,live_congr hb.subscrConns]
    exact h.peerLive hc

theorem Consistent.update_sound (h : Consistent net) (hc : net.live c)
    (config control : Option UInt8) : Sound (lclsUpdateConfig net c config control) := by
  obtain ⟨s,hs⟩ := h.leg hc
  have hcfg := sound_lclsHandleCfgUpdate (h.peerLive hc) (config.getD cfgNa) (control.getD cscNa)
  have hbrk := h.updateOrBreak_sound hc (config.getD cfgNa) (control.getD cscNa)
  unfold lclsUpdateConfig
  split
  · simp
  rw [dispatchDepth,lclsDispatch_of_st hc hs.st]
  cases s
  case noLcls =>
    simp only [lclsFsm,LclsEvent.kind,if_true,lclsAction,lclsNoLclsFn]
    refine (sound_osmoAssert (hs.noPeer rfl)).bind fun _ _ => ?_
    split
    · simp
    split
    · simp
    · exact hcfg.bind (by simp)
  case notYetLs =>
    exact (sound_osmoAssert (hs.peer rfl)).bind fun _ _ => hcfg.bind (by simp)
  case notPossibleLs =>
    exact (sound_osmoAssert (hs.noPeer rfl)).bind fun _ _ => hcfg.bind (by simp)
  case reqLclsNotSupp => exact hcfg.bind (by simp)
  case noLongerLs =>
    refine (sound_osmoAssert (hs.peer rfl)).bind fun _ _ => ?_
    refine hcfg.bind fun r hu => ?_
    obtain ⟨net1,taken⟩ := r
    rcases lclsHandleCfgUpdate_becomes hs.st hu with ⟨rfl,hb⟩ | ⟨rfl,hb⟩
    · have h' := h.stays hb.stays
      have hc1 : net1.live c := by rwa [live_congr hb.subscrConns]
      have hs1 := h'.legOk hc1 (by rw [hb.st]; exact hs.st)
      obtain ⟨o,ho⟩ := Option.ne_none_iff_exists'.mp (hs1.peer rfl)
      refine (sound_lclsEnablePossible ho (h'.peerLive hc1 o ho)).bind fun possible _ => ?_
      split
      · exact h'.enableLs_sound hc1 hs1 rfl rfl
      · simp
    · simp
  case locallySwitched => exact (sound_osmoAssert (hs.peer rfl)).bind fun _ _ => hbrk
  case locallySwitchedWaitBreak => exact (sound_osmoAssert (hs.peer rfl)).bind fun _ _ => hbrk
  case locallySwitchedWaitOtherBreak =>
    exact (sound_osmoAssert (hs.peer rfl)).bind fun _ _ => hbrk

theorem Consistent.term_sound (h : Consistent net) (hc : net.live c)
    (hg : SafeInput net (.term c)) : Sound (lclsFsmCleanup net c) := by
  obtain ⟨_,hsurv⟩ := hg hc
  unfold lclsFsmCleanup
  split
  · simp
  · rename_i o ho
    have hlo := h.peerLive hc o ho
    obtain ⟨s,hs⟩ := h.leg hlo
    refine FaultsIn.bind ?_ (by simp)
    rw [dispatchDepth,lclsDispatch_of_st hlo hs.st]
    have hsv := hsurv o ho s hs.st
    cases s
    case noLcls => simp [lclsFsm,LclsEvent.kind]
    case notPossibleLs => simp [lclsFsm,LclsEvent.kind]
    case locallySwitched =>
      have hoc := h.sender hc ho hs.st rfl
      refine (sound_osmoAssert (hs.peer rfl)).bind fun _ _ => ?_
      refine (sound_osmoAssert hoc).bind fun _ _ => ?_
      refine FaultsIn.bind (sound_lclsStateChg ?_ (by simp)) (by simp)
      simp
    case reqLclsNotSupp =>
      have hoc : net.other o = some c := by
        simpa [Survives,LclsState.refusesPeer] using hsv
      exact (sound_osmoAssert hoc).bind (by simp)
    all_goals simp [Survives,LclsState.refusesPeer] at hsv

end Faults

theorem Consistent.step_sound {net : Net} {i : Input} (h : Consistent net)
    (hg : SafeInput net i) : Sound (net.step i) := by
  cases i with
  | alloc c msc => simp only [Net.step]; split <;> simp
  | setGcr c gcr => simp only [Net.step]; split <;> simp
  | resources c lchan ci msc => simp only [Net.step]; split <;> simp
  | term c =>
    simp only [Net.step]
    split
    · rename_i hc
      exact (h.term_sound hc hg).bind (by simp)
    · simp
  | update c config control =>
    simp only [Net.step]
    split
    · rename_i hc
      exact h.update_sound hc config control
    · simp
  | apply c =>
    simp only [Net.step]
    split
    · rename_i hc
      exact h.apply_sound hc hg
    · simp

theorem Consistent.init : Consistent Net.init where
  leg hc := by simp [Net.live,Net.init] at hc
  links := .empty (by simp [Net.live,Net.init])

theorem Reach.consistent {net : Net} (h : Reach Net.step SafeInput (· = Net.init) net) :
    Consistent net :=
  h.invariant (fun _ h0 => h0 ▸ Consistent.init) fun _ _ _ hok hg hs => hok.step hg hs

/-- In every run of safe inputs the assertions of the LCLS FSM hold: a state has
its peer where the code asserts one and has none where the code asserts that,
and no input ends in a failed assertion or in the use of a freed connection. -/
theorem lcls_assertions_hold {net : Net} (h : Reach Net.step SafeInput (· = Net.init) net) :
    (∀ c s, net.live c → net.st c = some s →
      (s.needsPeer → net.other c ≠ none) ∧ (s.refusesPeer → net.other c = none)) ∧
    ∀ i, SafeInput net i → ∀ e, net.step i = .error e → e = .nullDeref := by
  have hok := Reach.consistent h
  constructor
  · intro c s hc hs
    have hleg := hok.legOk hc hs
    exact ⟨hleg.peer,hleg.noPeer⟩
  · intro i hg
    exact hok.step_sound hg

section Runs

def someGcr : List UInt8 := [12,4,7,0,1,2,0,3,5,0,0,0,9]

def mgwLoopMsc : Msc := ⟨.mgwLoop,false⟩

def tchF : Lchan := ⟨.tchF,.speechV1⟩

def twoLegs : List Input :=
  [.alloc 1 mgwLoopMsc,.alloc 2 mgwLoopMsc,.setGcr 1 someGcr,.setGcr 2 someGcr,
    .resources 1 (some tchF) (some ⟨true⟩) mgwLoopMsc,
    .resources 2 (some tchF) (some ⟨true⟩) mgwLoopMsc]

/-- Both legs get the same config and control and are applied, the first one first. -/
def setupBoth (control : UInt8) : List Input :=
  twoLegs ++ [Input.update 1 (some cfgBothWay) (some control),.update 2 (some cfgBothWay) (some control),
    .apply 1,.apply 2]

/-- The first leg is applied before the second one has a Global Call Reference. -/
def setupInOrder : List Input :=
  [.alloc 1 mgwLoopMsc,.alloc 2 mgwLoopMsc,.setGcr 1 someGcr,
    .resources 1 (some tchF) (some ⟨true⟩) mgwLoopMsc,
    .resources 2 (some tchF) (some ⟨true⟩) mgwLoopMsc,
    .update 1 (some cfgBothWay) (some cscConnect),.apply 1,.setGcr 2 someGcr,
    .update 2 (some cfgBothWay) (some cscConnect),.apply 2]

/-- The assertions at the end of a run that switches two legs locally. -/
theorem lcls_assertions_hold_twoLegs : ∃ net, run Net.step Net.init (setupBoth cscConnect) = .ok net ∧
    net.st 1 = some .locallySwitched ∧ net.other 1 ≠ none ∧
    ∀ e, net.step (.term 2) = .error e → e = .nullDeref := by
  have hg : GoodRun Net.step SafeInput Net.init (setupBoth cscConnect) := by decide
  refine ⟨_,rfl,rfl,?_⟩
  have h := lcls_assertions_hold (Reach.of_run (.start rfl) hg rfl)
  exact ⟨(h.1 1 _ (by decide) rfl).1 rfl,h.2 (.term 2) (by decide)⟩

/-- A leg in NOT_YET_LS whose peer dies: the transition to NOT_POSSIBLE_LS is not
in its mask, so it stays without the peer that its next event asserts. -/
theorem lcls_assertion_fails : ¬ ∀ net, Reach Net.step (fun _ _ => True) (· = Net.init) net →
    ∀ i, net.step i ≠ .error .assertFailed := by
  intro h
  have hrun : ∃ net, run Net.step Net.init (setupBoth 1 ++ [Input.term 2]) = .ok net ∧
      net.step (.update 1 (some cfgBothWay) none) = .error .assertFailed := ⟨_,rfl,rfl⟩
  obtain ⟨net,hnet,hfail⟩ := hrun
  exact h net (.of_run (.start rfl) (by decide) hnet) _ hfail

end Runs

end OsmoBsc.Lcls
