import OsmoBsc.Lcls.Safety
set_option autoImplicit false

namespace OsmoBsc.Lcls
open EventFsm Pairing

/-- The links go both ways, and the states that are entered only without a peer
have none. -/
structure Paired (net : Net) : Prop where
  symm : Symmetric net.live net.other
  st {c : ConnId} : net.live c → ∃ s, net.st c = some s ∧ (s.refusesPeer → net.other c = none)

/-- The inputs that keep every link answered: a leg terminates while its peer
does not wait for its break, and an apply finds only a leg that has no other
peer and is in a state that takes the news of the correlation. -/
def SymmetricInput (net : Net) : Input → Prop
  | .term c => net.live c → ∀ o, net.other c = some o →
      net.st o ≠ some .locallySwitchedWaitOtherBreak
  | .apply c => net.live c → net.correlates c = true →
      ∀ d, findConnWithSameGcr net c = some d → (net.other d = none ∨ net.other d = some c) ∧
        ∃ s, net.st d = some s ∧ lclsFsm.inEvent s .correlated = true
  | _ => True

instance (net : Net) : (i : Input) → Decidable (SymmetricInput net i)
  | .term c => inferInstanceAs (Decidable (net.live c → ∀ o, net.other c = some o →
      net.st o ≠ some .locallySwitchedWaitOtherBreak))
  | .apply c => inferInstanceAs (Decidable (net.live c → net.correlates c = true →
      ∀ d, findConnWithSameGcr net c = some d → (net.other d = none ∨ net.other d = some c) ∧
        ∃ s, net.st d = some s ∧ lclsFsm.inEvent s .correlated = true))
  | .alloc _ _ | .setGcr _ _ | .update _ _ _ | .resources _ _ _ _ => isTrue trivial

section Preserved

variable {net net' : Net} {c : ConnId}

theorem Paired.stays (h : Paired net) (hst : Stays net net') : Paired net' where
  symm := by
    rw [live_congr hst.subscrConns,hst.other]
    exact h.symm
  st {x} hx := by
    rw [live_congr hst.subscrConns] at hx
    obtain ⟨s,hs,hn⟩ := h.st hx
    rw [hst.other]
    rcases hst.st x with he | ⟨s1,s2,_,h2,_,hp2⟩
    · exact ⟨s,by rw [he,hs],hn⟩
    · refine ⟨s2,h2,?_⟩
      intro hr
      cases s2 <;> simp_all [LclsState.refusesPeer,LclsState.needsPeer]

theorem Paired.broken_symm (h : Paired net) (hc : net.live c) :
    Symmetric net.live (net.otherBroken c) := by
  cases ho : net.other c with
  | none => rw [Net.otherBroken_of_none ho]; exact h.symm
  | some o => rw [Net.otherBroken_of_some ho]; exact h.symm.unlink hc ho

theorem Paired.broken_self (h : Paired net) (hc : net.live c) : net.otherBroken c c = none := by
  cases ho : net.other c with
  | none => rw [Net.otherBroken_of_none ho,ho]
  | some o =>
    obtain ⟨_,hoc,_⟩ := h.symm c o hc ho
    rw [Net.otherBroken_of_some ho]
    exact rewire_left _ _ hoc.symm

theorem Net.otherBroken_none {x : ConnId} (hx : net.other x = none) :
    net.otherBroken c x = none := by
  cases ho : net.other c with
  | none => rw [Net.otherBroken_of_none ho,hx]
  | some o =>
    rw [Net.otherBroken_of_some ho]
    by_cases hxo : x = o
    · subst hxo; simp
    by_cases hxc : x = c
    · subst hxc; exact rewire_left _ _ hxo
    · rw [rewire_of_ne _ _ hxc hxo,hx]

theorem Paired.broken_found (h : Paired net) {d : ConnId} (hd : net.live d)
    (hf : net.other d = none ∨ net.other d = some c) : net.otherBroken c d = none := by
  rcases hf with hf | hf
  · exact Net.otherBroken_none hf
  · obtain ⟨_,_,hcd⟩ := h.symm d c hd hf
    rw [Net.otherBroken_of_some hcd]
    simp

theorem Paired.notFound (h : Paired net) (hc : net.live c) {new : LclsState}
    (hb : Becomes net net' (Function.update net.st c (some new)) (net.otherBroken c)) :
    Paired net' where
  symm := by
    rw [live_congr hb.subscrConns,hb.other]
    exact h.broken_symm hc
  st {x} hx := by
    rw [live_congr hb.subscrConns] at hx
    rw [hb.st,hb.other]
    by_cases hxc : x = c
    · subst hxc
      exact ⟨_,Function.update_self ..,fun _ => h.broken_self hc⟩
    · obtain ⟨s',hs',hn⟩ := h.st hx
      exact ⟨s',by simp [hxc,hs'],fun hr => Net.otherBroken_none (hn hr)⟩

theorem Paired.linked (h : Paired net) (hc : net.live c) {net1 : Net} {d : ConnId}
    {new : LclsState} (hfind : findConnWithSameGcr net c = some d)
    (hother : net.other d = none ∨ net.other d = some c)
    (hacc : ∃ s, net.st d = some s ∧ lclsFsm.inEvent s .correlated = true)
    (h1 : Correlates net net1 c d)
    (h2 : Becomes net1 net' (Function.update net1.st c (some new)) net1.other)
    (hnew : new = .notYetLs ∨ new = .locallySwitched ∨ new = .reqLclsNotSupp) : Paired net' := by
  obtain ⟨hd,hdc,_⟩ := findConnWithSameGcr_eq hfind
  obtain ⟨s,hs,hin⟩ := hacc
  obtain ⟨y,sd,hb,⟨_,_,hdrop⟩ | ⟨s1,hs1,_,rfl,rfl,_,_⟩⟩ := h1
  · simp [hdrop s hs] at hin
  have he : s1 = s := by simpa [hs] using hs1.symm
  subst he
  rw [hb.st,hb.other] at h2
  replace h2 := hb.trans h2
  constructor
  · rw [live_congr h2.subscrConns,h2.other]
    exact (h.broken_symm hc).pair hdc.symm hc hd (h.broken_self hc) (h.broken_found hd hother)
  · intro x hx
    rw [live_congr h2.subscrConns] at hx
    rw [h2.st,h2.other]
    by_cases hxc : x = c
    · subst hxc
      refine ⟨new,by simp,?_⟩
      rcases hnew with rfl | rfl | rfl <;> simp [LclsState.refusesPeer]
    by_cases hxd : x = d
    · subst hxd
      refine ⟨s1.afterCorrelated,by simp [hxc],?_⟩
      intro hr
      cases s1 <;> simp_all [LclsState.refusesPeer,LclsState.afterCorrelated,lclsFsm]
    · obtain ⟨s',hs',hn⟩ := h.st hx
      refine ⟨s',by simp [hxc,hxd,hs'],?_⟩
      rw [rewire_of_ne _ _ hxc hxd]
      exact fun hr => Net.otherBroken_none (hn hr)

theorem Paired.term {net1 : Net} (h : Paired net) (hc : net.live c)
    (hg : SymmetricInput net (.term c)) (hcl : lclsFsmCleanup net c = .ok net1) :
    Paired (net1.free c) := by
  cases ho : net.other c with
  | none =>
    have ho' : (net.conn c).other = none := ho
    simp only [lclsFsmCleanup,ho',pure_eq_ok,Except.ok.injEq] at hcl
    subst hcl
    constructor
    · rw [Net.free_live]
      exact h.symm.remove ho
    · intro x hx
      rw [Net.free_live] at hx
      exact h.st hx.1
  | some o =>
    obtain ⟨hlo,hoc,hback⟩ := h.symm c o hc ho
    obtain ⟨s,hs,hn⟩ := h.st hlo
    obtain ⟨_,⟨hin,_⟩ | ⟨hin,_,hb⟩⟩ := lclsFsmCleanup_outcome ho hs hcl
    · have hr : s.refusesPeer := by
        cases s <;> simp_all [lclsFsm,LclsState.refusesPeer]
      simp [hback] at hn
      simp [hn] at hr
    · have hwob : s ≠ .locallySwitchedWaitOtherBreak := by
        rintro rfl
        exact hg hc o ho hs
      have hdead : s.otherAfterDead c = none := by simp [LclsState.otherAfterDead,hwob]
      have hrw : Function.update (Function.update net.other o (s.otherAfterDead c)) c none =
          rewire net.other c o none none := by
        rw [hdead,rewire]
        exact Function.update_comm hoc none none net.other
      rw [hrw] at hb
      constructor
      · rw [Net.free_live,live_congr hb.subscrConns]
        have hsym := (h.symm.unlink hc ho).remove (rewire_left none none hoc.symm)
        rwa [← hb.other] at hsym
      · intro x hx
        rw [Net.free_live,live_congr hb.subscrConns] at hx
        change ∃ s, net1.st x = some s ∧ (s.refusesPeer → net1.other x = none)
        rw [hb.st,hb.other]
        by_cases hxo : x = o
        · subst hxo
          exact ⟨_,Function.update_self ..,fun _ => rewire_right ..⟩
        · obtain ⟨s',hs',hn'⟩ := h.st hx.1
          refine ⟨s',by simp [hxo,hs'],?_⟩
          rw [rewire_of_ne _ _ hx.2 hxo]
          exact hn'

theorem Paired.alloc (h : Paired net) (hc : ¬ net.live c) (msc : Msc) :
    Paired (net.alloc c msc) where
  symm := by
    rw [Net.alloc_live,Net.alloc_other]
    exact h.symm.add hc
  st {x} hx := by
    rw [Net.alloc_live] at hx
    by_cases hxc : x = c
    · subst hxc
      exact ⟨.noLcls,by simp [Net.st,Net.alloc,allocConn],by simp [Net.alloc_other]⟩
    · obtain ⟨s,hs,hn⟩ := h.st (hx.resolve_right hxc)
      refine ⟨s,?_,?_⟩
      · simpa [Net.st,Net.alloc,hxc] using hs
      · simpa [Net.alloc_other,hxc] using hn

end Preserved

theorem Paired.step {net net' : Net} {i : Input} (h : Paired net) (hg : SymmetricInput net i)
    (hs : net.step i = .ok net') : Paired net' := by
  cases i with
  | alloc c msc =>
    simp only [Net.step] at hs
    split at hs
    · cases hs; exact h
    · rename_i hc
      cases hs
      exact h.alloc hc msc
  | term c =>
    simp only [Net.step] at hs
    split at hs
    · rename_i hc
      simp only [bind_eq_ok,pure_eq_ok] at hs
      obtain ⟨net1,hcl,hs⟩ := hs
      cases hs
      exact h.term hc hg hcl
    · cases hs; exact h
  | setGcr c gcr =>
    simp only [Net.step] at hs
    split at hs
    · cases hs
      constructor
      · rw [live_congr (setGcr_subscrConns ..),setGcr_other]
        exact h.symm
      · intro x hx
        rw [live_congr (setGcr_subscrConns ..)] at hx
        simpa using h.st hx
    · cases hs; exact h
  | update c config control =>
    simp only [Net.step] at hs
    split at hs
    · rename_i hc
      rcases lclsUpdateConfig_outcome hs with hst | ⟨_,hb⟩
      · exact h.stays hst
      · constructor
        · rw [live_congr hb.subscrConns,hb.other]
          exact h.symm
        · intro x hx
          rw [live_congr hb.subscrConns] at hx
          rw [hb.st,hb.other]
          by_cases hxc : x = c
          · subst hxc
            exact ⟨_,Function.update_self ..,by simp [LclsState.refusesPeer]⟩
          · obtain ⟨s,hs,hn⟩ := h.st hx
            exact ⟨s,by simp [hxc,hs],hn⟩
    · cases hs; exact h
  | apply c =>
    simp only [Net.step] at hs
    split at hs
    · rename_i hc
      rcases lclsApplyConfig_outcome hs with hst | ⟨s,_,_,_,_,hb⟩ |
        ⟨s,s',d,net1,net2,_,hcor,_,hfind,h1,h2,hs',hst2⟩
      · exact h.stays hst
      · exact h.notFound hc hb
      · obtain ⟨hother,hacc⟩ := hg hc hcor d hfind
        exact (h.linked hc hfind hother hacc h1 h2 hs').stays hst2
    · cases hs; exact h
  | resources c lchan ci msc =>
    simp only [Net.step] at hs
    split at hs
    · cases hs
      exact h.stays (Same.stays (.upd net c (fun _ => rfl) (fun _ => rfl) fun _ => rfl))
    · cases hs; exact h

theorem Paired.init : Paired Net.init where
  symm _ _ ha := by simp [Net.live,Net.init] at ha
  st hc := by simp [Net.live,Net.init] at hc

/-- In every run of such inputs a leg's peer is alive and has that leg as its
own peer. -/
theorem lcls_other_symmetric {net : Net}
    (h : Reach Net.step SymmetricInput (· = Net.init) net) :
    ∀ a b, net.live a → net.other a = some b → net.live b ∧ net.other b = some a := by
  have hp : Paired net := h.invariant (fun _ h0 => h0 ▸ Paired.init)
    fun _ _ _ hok hg hs => hok.step hg hs
  intro a b ha hab
  obtain ⟨hb,_,hba⟩ := hp.symm a b ha hab
  exact ⟨hb,hba⟩

theorem lcls_other_symmetric_inOrder : ∃ net, run Net.step Net.init setupInOrder = .ok net ∧
    net.live 1 ∧ net.other 1 = some 2 ∧ net.live 2 ∧ net.other 2 = some 1 := by
  have hg : GoodRun Net.step SymmetricInput Net.init setupInOrder := by decide
  exact ⟨_,rfl,by decide,rfl,
    lcls_other_symmetric (.of_run (.start rfl) hg rfl) 1 2 (by decide) rfl⟩

/-- A leg that waits for the other break keeps its pointer when the other dies. -/
theorem lcls_other_dangles : ¬ ∀ net, Reach Net.step (fun _ _ => True) (· = Net.init) net →
    ∀ a b, net.live a → net.other a = some b → net.live b ∧ net.other b = some a := by
  intro h
  have hrun : ∃ net, run Net.step Net.init (setupBoth cscConnect ++
      [Input.update 1 none (some cscReleaseLcls),.apply 1,.term 2]) = .ok net ∧
      net.live 1 ∧ net.other 1 = some 2 ∧ ¬ net.live 2 := ⟨_,rfl,by decide,rfl,by decide⟩
  obtain ⟨net,hnet,h1,h12,h2⟩ := hrun
  exact h2 (h net (.of_run (.start rfl) (by decide) hnet) 1 2 h1 h12).1

end OsmoBsc.Lcls
