import OsmoBsc.Ipaccess.Links
set_option autoImplicit false

namespace OsmoBsc.Ipaccess
open EventFsm Cascade

/-- `w` is `v`, or depends on it directly or through other BTSs of the network. -/
def Net.Dependent (net : Net) : UInt8 → UInt8 → Prop :=
  Relation.ReflTransGen fun v w => w ∈ net.list ∧ (net.bts w).dependIsDependency v = true

/-- A BTS whose OML link is up depends only on BTSs whose OML link is up. -/
def Net.Closed (net : Net) : Prop :=
  ∀ v ∈ net.list, ∀ w ∈ net.list, (net.bts w).omlLink = true → (net.bts w).dependIsDependency v = true →
    (net.bts v).omlLink = true

section Update

variable {net : Net} {b : UInt8} {f : Bts → Bts}

@[simp] theorem updBts_list : (net.updBts b f).list = net.list := rfl

theorem updBts_apply {α : Type} (g : Bts → α) (h : g (f (net.bts b)) = g (net.bts b)) (w : UInt8) :
    g ((net.updBts b f).bts w) = g (net.bts w) := by
  by_cases hw : w = b
  · subst hw
    simpa [Net.updBts] using h
  · simp [Net.updBts,hw]

theorem dependIsDependency_congr {bts bts' : Bts} (h : bts'.dependsOn = bts.dependsOn) :
    bts'.dependIsDependency = bts.dependIsDependency := by
  funext other
  simp [Bts.dependIsDependency,h]

theorem Net.Closed.updBts (h : net.Closed) (hl : (f (net.bts b)).omlLink = (net.bts b).omlLink)
    (hd : (f (net.bts b)).dependsOn = (net.bts b).dependsOn) : (net.updBts b f).Closed := by
  intro v hv w hw hup hdep
  rw [updBts_apply (·.omlLink) hl] at hup ⊢
  rw [updBts_apply (·.dependIsDependency) (dependIsDependency_congr hd)] at hdep
  exact h v hv w hw hup hdep

end Update

/-- BTSs and their OML links as nodes that depend on each other. -/
def oml : System Net UInt8 where
  up net b := (net.bts b).omlLink
  dep net w v := (net.bts w).dependIsDependency v
  nodes net := net.list
  touch b net := net.updBts b ({ · with omlDropLinkTimer := false })
  drop b net := net.updBts b Bts.dropLinks
  up_touch b net w := updBts_apply (·.omlLink) rfl w
  dep_touch b net := by
    funext w
    exact updBts_apply (·.dependIsDependency) rfl w
  nodes_touch _ _ := rfl
  up_drop b net w := by
    by_cases hw : w = b
    · subst hw
      simp [Net.updBts]
    · simp [Net.updBts,hw]
  dep_drop b net := by
    funext w
    exact updBts_apply (·.dependIsDependency) (dependIsDependency_congr (dropLinks_dependsOn _)) w
  nodes_drop _ _ := rfl

theorem ipaccessDropOml_eq (n : Nat) (b : UInt8) (net : Net) :
    ipaccessDropOml n b net = oml.cascade n b net := by
  induction n generalizing b net with
  | zero => rfl
  | succ n ih =>
    rw [ipaccessDropOml,System.cascade]
    simp only [ih]
    rfl

theorem count_lt_depth (net : Net) : oml.count net < net.depth := by
  have h : oml.count net ≤ net.list.length := List.countP_le_length
  rw [Net.depth]
  omega

theorem ipaccessDropOml_falls {net : Net} {b : UInt8} (hb : b ∈ net.list) :
    ∃ net', ipaccessDropOml net.depth b net = some net' ∧ oml.Falls (· = b) net net' ∧
      (net'.bts b).omlLink = false := by
  rw [ipaccessDropOml_eq]
  exact System.cascade_falls hb (count_lt_depth net)

theorem Net.Closed.ipaccessDropOml {net net' : Net} {b : UInt8} (h : net.Closed) (hb : b ∈ net.list)
    (hd : ipaccessDropOml net.depth b net = some net') : net'.Closed := by
  obtain ⟨net1,h1,hf,-⟩ := ipaccessDropOml_falls hb
  cases h1.symm.trans hd
  exact System.Closed.falls (c := oml) h hf

theorem signLinkUpOml_closed {net : Net} {b : UInt8} (h : net.Closed) (hb : b ∈ net.list) :
    ∃ net', signLinkUpOml net.depth b net = some net' ∧ net'.Closed := by
  obtain ⟨net1,h1,-,-⟩ := ipaccessDropOml_falls hb
  have hc := h.ipaccessDropOml hb h1
  rw [signLinkUpOml,h1]
  by_cases hdep : net1.dependCheck b = true
  · refine ⟨_,by rw [Option.bind_eq_bind,Option.bind_some,if_pos hdep]; rfl,?_⟩
    generalize hf : (fun bts : Bts => _) = f
    have hl : (f (net1.bts b)).omlLink = true := by
      subst hf
      dsimp only
      split <;> rfl
    have hd : (f (net1.bts b)).dependsOn = (net1.bts b).dependsOn := by
      subst hf
      dsimp only
      split <;> rfl
    intro v hv w hw hup hdw
    rw [updBts_apply (·.dependIsDependency) (dependIsDependency_congr hd)] at hdw
    by_cases hvb : v = b
    · simpa [hvb,Net.updBts] using hl
    · have hv1 : (net1.bts v).omlLink = true := by
        by_cases hwb : w = b
        · have hon := List.all_eq_true.mp hdep v hv
          rw [hwb] at hdw
          simp [hdw,Bts.isOnline] at hon
          exact hon.1
        · simp only [Net.updBts,Function.update_of_ne hwb] at hup
          exact hc v hv w hw hup hdw
      simpa [Net.updBts,hvb] using hv1
  · exact ⟨net1,by rw [Option.bind_eq_bind,Option.bind_some,if_neg hdep]; rfl,hc⟩

theorem exec_closed {net : Net} {i : Input} (h : net.Closed) (hb : i.bts ∈ net.list) :
    ∃ net', net.exec i = some net' ∧ net'.Closed := by
  cases i with
  | signLinkUpOml b => exact signLinkUpOml_closed h hb
  | signLinkUpRsl b i =>
    refine ⟨_,rfl,h.updBts ?_ ?_⟩
    · rw [Bts.signLinkUpRsl]
      split
      · dsimp only
        split
        · simp [Bts.updTrx]
        · simp [Bts.updTrx]
      · rfl
    · rw [Bts.signLinkUpRsl]
      split
      · dsimp only
        split
        · simp [Bts.updTrx]
        · simp [Bts.updTrx]
      · rfl
  | dropOml b =>
    obtain ⟨net',h',-,-⟩ := ipaccessDropOml_falls hb
    exact ⟨net',h',h.ipaccessDropOml hb h'⟩
  | dropRsl b i => exact ⟨_,rfl,h.updBts (dropRsl_omlLink _ i) (dropRsl_dependsOn _ i)⟩
  | dropOmlDeferred b =>
    refine ⟨_,rfl,h.updBts ?_ ?_⟩
    · split <;> rfl
    · split <;> rfl
  | omlDropLinkTimer b =>
    rw [Net.exec]
    split
    · obtain ⟨net',h',-,-⟩ := ipaccessDropOml_falls hb
      exact ⟨net',h',h.ipaccessDropOml hb h'⟩
    · exact ⟨net,rfl,h⟩
  | stateReport b mo s =>
    refine ⟨_,rfl,h.updBts ?_ ?_⟩
    · cases mo <;> rfl
    · cases mo <;> rfl
  | tsOmlReady b i j => exact ⟨_,rfl,h.updBts rfl rfl⟩
  | sendmsg b m => exact ⟨_,rfl,h.updBts rfl rfl⟩
  | nmAnswer b => exact ⟨_,rfl,h.updBts rfl rfl⟩

theorem Reachable.closed {good : Net → Input → Prop} {net : Net} (h : Reachable good net) : net.Closed := by
  refine Reach.invariant (fun net h0 v _ w _ hup _ => ?_) (fun net i net' hc _ hs => ?_) h
  · rw [h0.oml w] at hup
    cases hup
  · rw [step] at hs
    split at hs
    · rename_i hb
      obtain ⟨net1,h1,hc1⟩ := exec_closed hc hb
      rw [h1] at hs
      cases hs
      exact hc1
    · cases hs
      exact hc

/-- Every input is handled to its end; a BTS with its OML link up depends only on such BTSs;
and a drop takes down exactly the BTS and those that depend on it. -/
theorem ipaccessDropOml_dependent {net : Net} (h : Reachable (fun _ _ => True) net) :
    (∀ i, ∃ net', step net i = .ok net') ∧
    (∀ v ∈ net.list, ∀ w ∈ net.list, (net.bts w).omlLink = true →
      (net.bts w).dependIsDependency v = true → (net.bts v).omlLink = true) ∧
    ∀ b ∈ net.list, ∃ net', ipaccessDropOml net.depth b net = some net' ∧
      ∀ w, (net.bts w).omlLink = true ∧ (net'.bts w).omlLink = false ↔
        (net.bts w).omlLink = true ∧ net.Dependent b w := by
  refine ⟨fun i => ?_,h.closed,fun b hb => ?_⟩
  · rw [step]
    split
    · rename_i hb
      obtain ⟨net',h',-⟩ := exec_closed h.closed hb
      exact ⟨net',by rw [h']⟩
    · exact ⟨net,rfl⟩
  · obtain ⟨net',h',hf,hdown⟩ := ipaccessDropOml_falls hb
    exact ⟨net',h',System.Closed.falls_iff (c := oml) h.closed hb hf hdown⟩

theorem ipaccessDropOml_dependent_two : ∃ net, (net.bts 0).omlLink = true ∧ (net.bts 1).omlLink = true ∧
    ∃ net', ipaccessDropOml net.depth 0 net = some net' ∧
      ∀ w, (net.bts w).omlLink = true ∧ (net'.bts w).omlLink = false ↔
        (net.bts w).omlLink = true ∧ net.Dependent 0 w := by
  obtain ⟨net,hrun,hmem,h0,h1⟩ : ∃ net, run step twoBts [.signLinkUpOml 0,
      .stateReport 0 .bts ⟨.unlocked,.enabled,.ok⟩,.signLinkUpOml 1] = .ok net ∧
      0 ∈ net.list ∧ (net.bts 0).omlLink = true ∧ (net.bts 1).omlLink = true := by
    decide +kernel
  have hr : Reachable (fun _ _ => True) net :=
    Reach.of_run (.start twoBts_started) (.of_forall (fun _ _ => trivial) _ _) hrun
  exact ⟨net,h0,h1,(ipaccessDropOml_dependent hr).2.2 0 hmem⟩

end OsmoBsc.Ipaccess
