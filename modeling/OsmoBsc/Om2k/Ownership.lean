import OsmoBsc.Om2k.Soundness
set_option autoImplicit false

namespace OsmoBsc.Om2k
open EventFsm

/-- The OML link does not come up while the FSM of an object of an earlier bring-up is alive. -/
def FreshStart (bsc : Bsc) : Input → Prop
  | .teiUp true => ∀ k < bsc.started, (bsc.bringUp k).mo = none
  | _ => True

instance (bsc : Bsc) (i : Input) : Decidable (FreshStart bsc i) := by
  unfold FreshStart
  split <;> infer_instance

/-- The FSMs of objects that are alive belong to the last bring-up, and they are the ones that
the pointers of the objects point to. -/
structure Bsc.Owned (bsc : Bsc) : Prop where
  pointer : ∀ mo k, bsc.fsm mo = some k → k+1 = bsc.started ∧ (bsc.bringUp k).Runs mo
  live : ∀ mo k, (bsc.bringUp k).Runs mo → bsc.fsm mo = some k

section Owned

variable {bsc : Bsc} {t : BringUp} {f f' : MoFsm} {k : Nat}

theorem Bsc.Owned.last (h : bsc.Owned) (hf : (bsc.bringUp k).mo = some f) : k+1 = bsc.started :=
  (h.pointer f.mo k (h.live f.mo k ⟨f,hf,rfl⟩)).1

theorem Bsc.Owned.only (h : bsc.Owned) (hk : k+1 ≠ bsc.started) : (bsc.bringUp k).mo = none := by
  cases hf : (bsc.bringUp k).mo with
  | none => rfl
  | some f => exact absurd (h.last hf) hk

theorem Bsc.Owned.of_runs {bsc' : Bsc} (h : bsc.Owned) (hs : bsc'.started = bsc.started)
    (hf : bsc'.fsm = bsc.fsm) (hr : ∀ k mo, (bsc'.bringUp k).Runs mo ↔ (bsc.bringUp k).Runs mo) : bsc'.Owned := by
  refine ⟨fun mo k hk => ?_,fun mo k hk => ?_⟩
  · rw [hf] at hk
    rw [hs,hr]
    exact h.pointer mo k hk
  · rw [hf]
    exact h.live mo k ((hr k mo).mp hk)

theorem runs_update {bringUp : Nat → BringUp} {j : Nat} {mo : Mo}
    (hr : t.Runs mo ↔ (bringUp k).Runs mo) : (Function.update bringUp k t j).Runs mo ↔ (bringUp j).Runs mo := by
  by_cases hj : j = k
  · subst hj
    simpa using hr
  · simp [hj]

/-- The last bring-up goes on without an FSM that ended, and perhaps with another one. -/
theorem put_owned {fsm : Mo → Option Nat} (hk : k+1 = bsc.started) (hnone : ∀ mo, fsm mo = none)
    (honly : ∀ j, j ≠ k → (bsc.bringUp j).mo = none) : (({ bsc with fsm := fsm } : Bsc).put k t).Owned := by
  have hother : ∀ j mo, j ≠ k → ¬(bsc.bringUp j).Runs mo := by
    rintro j mo hj ⟨f,hf,-⟩
    rw [honly j hj] at hf
    cases hf
  refine ⟨fun mo j hj => ?_,fun mo j hj => ?_⟩
  · cases ht : t.mo with
    | none => simp [Bsc.put,ht,hnone] at hj
    | some f =>
      by_cases hmo : mo = f.mo
      · subst hmo
        simp only [Bsc.put,ht,Function.update_self,Option.some.injEq] at hj
        subst hj
        exact ⟨hk,f,by simpa [Bsc.put] using ht,rfl⟩
      · simp [Bsc.put,ht,hmo,hnone] at hj
  · by_cases hjk : j = k
    · subst hjk
      obtain ⟨f,hf,rfl⟩ := hj
      simp only [Bsc.put,Function.update_self] at hf
      simp [Bsc.put,hf]
    · simp only [Bsc.put,Function.update_of_ne hjk] at hj
      exact absurd hj (hother j mo hjk)

theorem moStateChg_owned (h : bsc.Owned) (hf : (bsc.bringUp k).mo = some f) (hmo : f'.mo = f.mo) :
    (bsc.moStateChg k f').Owned := by
  have hk := h.last hf
  rw [Bsc.moStateChg]
  split
  · refine put_owned hk (fun mo => ?_) fun j hj => h.only (by omega)
    by_cases hm : mo = f'.mo
    · simp [hm]
    · rw [Function.update_of_ne hm]
      cases hp : bsc.fsm mo with
      | none => rfl
      | some j =>
        obtain ⟨hj,f1,hf1,rfl⟩ := h.pointer mo j hp
        have hjk : j = k := by omega
        subst hjk
        rw [hf] at hf1
        cases hf1
        exact absurd hmo.symm hm
  · refine h.of_runs rfl rfl fun j mo => runs_update ?_
    constructor
    · rintro ⟨f1,hf1,rfl⟩
      cases hf1
      exact ⟨f,hf,hmo.symm⟩
    · rintro ⟨f1,hf1,rfl⟩
      rw [hf] at hf1
      cases hf1
      exact ⟨f',rfl,hmo⟩

theorem step_owned {bsc' : Bsc} {i : Input} (h : bsc.Owned) (hg : FreshStart bsc i)
    (hs : step bsc i = .ok bsc') : bsc'.Owned := by
  cases i with
  | teiUp omlTei =>
    cases omlTei with
    | false =>
      cases hs
      exact h
    | true =>
      cases hs
      have hnone : ∀ k, (bsc.bringUp k).mo = none := by
        intro k
        by_cases hk : k+1 = bsc.started
        · exact hg k (by omega)
        · exact h.only hk
      refine @put_owned { bsc with started := bsc.started+1 } _ _ bsc.fsm rfl (fun mo => ?_) fun j _ => hnone j
      cases hp : bsc.fsm mo with
      | none => rfl
      | some j =>
        obtain ⟨-,f1,hf1,-⟩ := h.pointer mo j hp
        rw [hnone j] at hf1
        cases hf1
  | teiDn | closeOm =>
    cases hs
    exact h
  | recv mo msg =>
    rw [step] at hs
    split at hs
    · cases hs
      exact h
    · split at hs
      · rename_i hf
        split at hs
        · cases hs
          exact moStateChg_owned h hf rfl
        · cases hs
      · cases hs
  | moTimer k =>
    rw [step] at hs
    split at hs
    · rename_i hf
      cases hs
      exact moStateChg_owned h hf rfl
    · cases hs
      exact h
  | trxTimer k =>
    rw [step] at hs
    split at hs
    · cases hs
      exact h.of_runs rfl rfl fun j mo => runs_update .rfl
    · cases hs
      exact h
  | btsTimer k =>
    rw [step] at hs
    dsimp only at hs
    split at hs
    · cases hs
      exact h
    · cases hs
      exact h.of_runs rfl rfl fun j mo => runs_update .rfl

theorem moStateChg_bringUp {j : Nat} (hj : j ≠ k) : (bsc.moStateChg k f).bringUp j = bsc.bringUp j := by
  rw [Bsc.moStateChg]
  split
  · exact Function.update_of_ne hj _ _
  · exact Function.update_of_ne hj _ _

theorem recv_last (h : bsc.Owned) (mo : Mo) (msg : Msg) : ∃ bsc', step bsc (.recv mo msg) = .ok bsc' ∧
    ∀ j, j+1 ≠ bsc.started → bsc'.bringUp j = bsc.bringUp j := by
  rw [step]
  split
  · exact ⟨bsc,rfl,fun _ _ => rfl⟩
  · rename_i k hk
    obtain ⟨hlast,f,hf,hmo⟩ := h.pointer mo k hk
    rw [hf]
    refine ⟨_,if_pos hmo,fun j hj => moStateChg_bringUp ?_⟩
    rintro rfl
    exact hj hlast

theorem timer_earlier (h : bsc.Owned) (hk : k+1 < bsc.started) {i : Input}
    (hi : i ∈ [Input.moTimer k,.trxTimer k,.btsTimer k]) :
    ∃ bsc', step bsc i = .ok bsc' ∧ bsc'.fsm = bsc.fsm ∧ ∀ j, j ≠ k → bsc'.bringUp j = bsc.bringUp j := by
  simp only [List.mem_cons,List.not_mem_nil,or_false] at hi
  rcases hi with rfl | rfl | rfl
  · rw [step,h.only (by omega)]
    exact ⟨bsc,rfl,rfl,fun _ _ => rfl⟩
  · rw [step]
    split
    · exact ⟨_,rfl,rfl,fun j hj => Function.update_of_ne hj _ _⟩
    · exact ⟨bsc,rfl,rfl,fun _ _ => rfl⟩
  · rw [step]
    dsimp only
    split
    · exact ⟨bsc,rfl,rfl,fun _ _ => rfl⟩
    · exact ⟨_,rfl,rfl,fun j hj => Function.update_of_ne hj _ _⟩

end Owned

/-- While the OML link only comes up when no FSM of an object is alive, every pointer is null or
points to the one FSM of its object, messages reach the last bring-up only, and what is left of
earlier ones changes neither a pointer nor a later one. -/
theorem fsm_owned {n : Nat} {bsc : Bsc} (h : Reachable n FreshStart bsc) :
    (∀ mo k, bsc.fsm mo = some k → k+1 = bsc.started ∧ (bsc.bringUp k).Runs mo ∧
      ∀ j, (bsc.bringUp j).Runs mo → j = k) ∧
    (∀ mo msg, ∃ bsc', step bsc (.recv mo msg) = .ok bsc' ∧
      ∀ j, j+1 ≠ bsc.started → bsc'.bringUp j = bsc.bringUp j) ∧
    ∀ k, k+1 < bsc.started → ∀ i ∈ [Input.moTimer k,.trxTimer k,.btsTimer k],
      ∃ bsc', step bsc i = .ok bsc' ∧ bsc'.fsm = bsc.fsm ∧ ∀ j, j ≠ k → bsc'.bringUp j = bsc.bringUp j := by
  have hinv : bsc.Owned := by
    refine Reach.invariant (fun bsc h0 => ?_) (fun bsc i bsc' hi hg hs => step_owned hi hg hs) h
    subst h0
    refine ⟨fun mo k hk => ?_,fun mo k hk => ?_⟩
    · cases hk
    · obtain ⟨f,hf,-⟩ := hk
      cases hf
  refine ⟨fun mo k hk => ?_,recv_last hinv,fun k hk i hi => timer_earlier hinv hk hi⟩
  obtain ⟨hlast,hr⟩ := hinv.pointer mo k hk
  exact ⟨hlast,hr,fun j hj => Option.some.inj ((hinv.live mo j hj).symm.trans hk)⟩

theorem fsm_owned_again : ∃ bsc : Bsc, bsc.started = 2 ∧ bsc.fsm .cf = some 1 ∧
    ∀ mo k, bsc.fsm mo = some k → k+1 = bsc.started ∧ (bsc.bringUp k).Runs mo ∧
      ∀ j, (bsc.bringUp j).Runs mo → j = k := by
  obtain ⟨bsc,hrun,hst,hp⟩ : ∃ bsc, run step { numTrx := 1 }
      (Input.teiUp true :: (btsMos 1).flatMap answers ++ [Input.teiDn,.teiUp true]) = .ok bsc ∧
      bsc.started = 2 ∧ bsc.fsm .cf = some 1 := by
    decide +kernel
  have hg : GoodRun step FreshStart { numTrx := 1 }
      (Input.teiUp true :: (btsMos 1).flatMap answers ++ [Input.teiDn,.teiUp true]) := by
    decide +kernel
  exact ⟨bsc,hst,hp,(fsm_owned (Reach.of_run (.start rfl) hg hrun)).1⟩

instance (t : BringUp) (mo : Mo) : Decidable (t.Runs mo) :=
  inferInstanceAs (Decidable (∃ f, t.mo = some f ∧ f.mo = mo))

/-- The OML link comes up again while CF is being brought up; the FSM of the first bring-up then
times out and clears the pointer of the second. -/
theorem fsm_not_owned : ∃ bsc bsc' : Bsc, Reachable 1 (fun _ _ => True) bsc ∧
    (bsc.bringUp 0).Runs .cf ∧ (bsc.bringUp 1).Runs .cf ∧ bsc.fsm .cf = some 1 ∧
    step bsc (.moTimer 0) = .ok bsc' ∧ (bsc'.bringUp 1).Runs .cf ∧ bsc'.fsm .cf = none := by
  obtain ⟨bsc,hrun,h0,h1,hp,bsc',hs,h1',hp'⟩ : ∃ bsc, run step { numTrx := 1 } [.teiUp true,.teiDn,.teiUp true] =
      .ok bsc ∧ (bsc.bringUp 0).Runs .cf ∧ (bsc.bringUp 1).Runs .cf ∧ bsc.fsm .cf = some 1 ∧
      ∃ bsc', step bsc (.moTimer 0) = .ok bsc' ∧ (bsc'.bringUp 1).Runs .cf ∧ bsc'.fsm .cf = none := by
    decide +kernel
  exact ⟨bsc,bsc',Reach.of_run (.start rfl) (.of_forall (fun _ _ => trivial) _ _) hrun,h0,h1,hp,hs,h1',hp'⟩

end OsmoBsc.Om2k
