import Mathlib.Logic.Relation
set_option autoImplicit false

namespace EventFsm

/-- What a run of event handlers can end in instead of a next state: a failed
assertion, a dereferenced null pointer, a use of freed memory, or a bound on
the nesting of handlers that was chosen too small. -/
inductive Fault where
  | assertFailed
  | nullDeref
  | useAfterFree
  | outOfFuel
  deriving DecidableEq, Repr

/-- The tables of a finite state machine in the style of osmo_fsm. An event
outside `inEvent` of the current state is dropped unless `allState` names it;
a transition outside `outState` of the current state is refused. -/
structure Fsm (σ ε : Type) where
  inEvent : σ → ε → Bool
  outState : σ → σ → Bool
  allState : ε → Bool

/-- Which of the three ways a dispatched event can go. -/
inductive Verdict where
  | allState
  | action
  | notPermitted
  deriving DecidableEq, Repr

def Fsm.verdict {σ ε : Type} (f : Fsm σ ε) (st : σ) (ev : ε) : Verdict :=
  if f.allState ev then .allState
  else if f.inEvent st ev then .action
  else .notPermitted

section Decide

variable {α : Type} (x : Option α) (p : α → Prop) [DecidablePred p]

instance decidableForallEqSome : Decidable (∀ a, x = some a → p a) :=
  match x with
  | none => isTrue (by simp)
  | some a => decidable_of_iff (p a) (by simp)

instance decidableExistsEqSome : Decidable (∃ a, x = some a ∧ p a) :=
  match x with
  | none => isFalse (by simp)
  | some a => decidable_of_iff (p a) (by simp)

instance decidableExistsEqOk {ε : Type} (r : Except ε α) : Decidable (∃ a, r = .ok a ∧ p a) :=
  match r with
  | .error _ => isFalse (by simp)
  | .ok a => decidable_of_iff (p a) (by simp)

end Decide

section Results

variable {ε α β : Type}

@[simp] theorem bind_eq_ok {x : Except ε α} {f : α → Except ε β} {b : β} :
    (x >>= f) = .ok b ↔ ∃ a, x = .ok a ∧ f a = .ok b := by
  cases x <;> simp [bind,Except.bind]

@[simp] theorem pure_eq_ok (a : α) : (pure a : Except ε α) = .ok a := rfl

@[simp] theorem ok_bind (a : α) (f : α → Except ε β) : (Except.ok a >>= f) = f a := rfl

@[simp] theorem error_bind (e : ε) (f : α → Except ε β) :
    (Except.error e >>= f) = .error e := rfl

/-- Every fault that `x` can end in is one that `allowed` names. -/
def FaultsIn (allowed : ε → Prop) (x : Except ε α) : Prop :=
  ∀ e, x = .error e → allowed e

@[simp] theorem faultsIn_ok {allowed : ε → Prop} (a : α) : FaultsIn allowed (.ok a) := by
  simp [FaultsIn]

@[simp] theorem faultsIn_error {allowed : ε → Prop} {e : ε} :
    FaultsIn allowed (.error e : Except ε α) ↔ allowed e := by
  simp [FaultsIn]

theorem FaultsIn.bind {allowed : ε → Prop} {x : Except ε α} {f : α → Except ε β}
    (hx : FaultsIn allowed x) (hf : ∀ a, x = .ok a → FaultsIn allowed (f a)) :
    FaultsIn allowed (x >>= f) := by
  cases x with
  | error e => exact fun e' h => hx e' (by simpa using h)
  | ok a => exact hf a rfl

/-- Every result that `x` can return meets `post`. -/
def Ensures (post : α → Prop) (x : Except ε α) : Prop :=
  ∀ a, x = .ok a → post a

@[simp] theorem ensures_ok {post : α → Prop} {a : α} :
    Ensures post (.ok a : Except ε α) ↔ post a := by
  simp [Ensures]

@[simp] theorem ensures_pure {post : α → Prop} {a : α} :
    Ensures post (pure a : Except ε α) ↔ post a := ensures_ok

@[simp] theorem ensures_error {post : α → Prop} {e : ε} :
    Ensures post (.error e : Except ε α) := by
  simp [Ensures]

theorem Ensures.bind {post : β → Prop} {x : Except ε α} {f : α → Except ε β}
    (h : ∀ a, x = .ok a → Ensures post (f a)) : Ensures post (x >>= f) := by
  cases x with
  | error e => exact ensures_error
  | ok a => exact h a rfl

theorem Ensures.mono {post post' : α → Prop} {x : Except ε α} (h : Ensures post x)
    (hp : ∀ a, post a → post' a) : Ensures post' x :=
  fun a ha => hp a (h a ha)

end Results

section Runs

variable {σ ι φ : Type} (step : σ → ι → Except φ σ)

/-- The states that runs from `init` reach by inputs that all meet `good`. -/
inductive Reach (good : σ → ι → Prop) (init : σ → Prop) : σ → Prop where
  | start {s : σ} : init s → Reach good init s
  | next {s s' : σ} {i : ι} : Reach good init s → good s i → step s i = .ok s' →
      Reach good init s'

theorem Reach.invariant {step : σ → ι → Except φ σ} {good : σ → ι → Prop}
    {init Inv : σ → Prop} (h0 : ∀ s, init s → Inv s)
    (hs : ∀ s i s', Inv s → good s i → step s i = .ok s' → Inv s')
    {s : σ} (h : Reach step good init s) : Inv s := by
  induction h with
  | start h => exact h0 _ h
  | next _ hg hstep ih => exact hs _ _ _ ih hg hstep

theorem Reach.mono {step : σ → ι → Except φ σ} {good good' : σ → ι → Prop}
    {init : σ → Prop} (h : ∀ s i, good s i → good' s i) {s : σ}
    (hr : Reach step good init s) : Reach step good' init s := by
  induction hr with
  | start h0 => exact .start h0
  | next _ hg hstep ih => exact .next ih (h _ _ hg) hstep

/-- A finite run: the inputs are handled one after the other. -/
def run (s : σ) : List ι → Except φ σ
  | [] => .ok s
  | i :: is => match step s i with
    | .ok s' => run s' is
    | .error e => .error e

/-- A finite run whose inputs all meet `good` at the state they come in. -/
def GoodRun (good : σ → ι → Prop) (s : σ) : List ι → Prop
  | [] => True
  | i :: is => good s i ∧ match step s i with
    | .ok s' => GoodRun good s' is
    | .error _ => True

instance GoodRun.decidable (good : σ → ι → Prop) [∀ s i, Decidable (good s i)] :
    (s : σ) → (is : List ι) → Decidable (GoodRun step good s is)
  | _, [] => isTrue trivial
  | s, i :: is => match h : step s i with
    | .ok s' =>
      have := GoodRun.decidable good s' is
      decidable_of_iff (good s i ∧ GoodRun step good s' is) (by simp [GoodRun,h])
    | .error _ => decidable_of_iff (good s i) (by simp [GoodRun,h])

theorem GoodRun.of_mem {step : σ → ι → Except φ σ} {good : σ → ι → Prop} {is : List ι}
    (h : ∀ s, ∀ i ∈ is, good s i) (s : σ) : GoodRun step good s is := by
  induction is generalizing s with
  | nil => exact trivial
  | cons i is ih =>
    refine ⟨h s i List.mem_cons_self,?_⟩
    split
    · exact ih (fun s j hj => h s j (List.mem_cons_of_mem i hj)) _
    · exact trivial

theorem GoodRun.of_forall {step : σ → ι → Except φ σ} {good : σ → ι → Prop}
    (h : ∀ s i, good s i) (s : σ) (is : List ι) : GoodRun step good s is :=
  .of_mem (fun s i _ => h s i) s

/-- A run stops at what its steps may stop at only. -/
theorem FaultsIn.run {step : σ → ι → Except φ σ} {good : σ → ι → Prop} {allowed : φ → Prop}
    (hs : ∀ s i, good s i → FaultsIn allowed (step s i)) {is : List ι} {s : σ}
    (hg : GoodRun step good s is) : FaultsIn allowed (run step s is) := by
  induction is generalizing s with
  | nil => exact faultsIn_ok s
  | cons i is ih =>
    have h1 := hs s i hg.1
    have h2 := hg.2
    simp only [EventFsm.run]
    split
    · rename_i s' hs'
      simp only [hs'] at h2
      exact ih h2
    · rename_i e he
      rw [he] at h1
      exact h1

theorem run_cons_eq_ok {step : σ → ι → Except φ σ} {s s' : σ} {i : ι} {is : List ι} :
    run step s (i :: is) = .ok s' ↔ ∃ s1, step s i = .ok s1 ∧ run step s1 is = .ok s' := by
  rw [run]
  cases step s i with
  | ok s1 =>
    constructor
    · intro h
      exact ⟨s1,rfl,h⟩
    · rintro ⟨s2,h2,h⟩
      cases h2
      exact h
  | error e =>
    constructor
    · intro h
      cases h
    · rintro ⟨s2,h2,-⟩
      cases h2

theorem GoodRun.append {step : σ → ι → Except φ σ} {good : σ → ι → Prop} {s s' : σ} {is js : List ι}
    (hg : GoodRun step good s is) (hrun : run step s is = .ok s') (hg' : GoodRun step good s' js) :
    GoodRun step good s (is ++ js) := by
  induction is generalizing s with
  | nil =>
    cases hrun
    exact hg'
  | cons i is ih =>
    obtain ⟨s1,h1,hrun⟩ := run_cons_eq_ok.mp hrun
    obtain ⟨hi,hrest⟩ := hg
    rw [h1] at hrest
    refine ⟨hi,?_⟩
    rw [h1]
    exact ih hrest hrun

theorem run_append {step : σ → ι → Except φ σ} (s : σ) (is js : List ι) :
    run step s (is ++ js) = run step s is >>= fun s => run step s js := by
  induction is generalizing s with
  | nil => rfl
  | cons i is ih =>
    rw [List.cons_append,run,run]
    cases step s i with
    | ok s' => exact ih s'
    | error e => rfl

theorem Reach.of_run {step : σ → ι → Except φ σ} {good : σ → ι → Prop} {init : σ → Prop}
    {is : List ι} {s s' : σ} (hs : Reach step good init s) (hg : GoodRun step good s is)
    (h : run step s is = .ok s') : Reach step good init s' := by
  induction is generalizing s with
  | nil =>
    cases h
    exact hs
  | cons i is ih =>
    obtain ⟨s1,h1,h⟩ := run_cons_eq_ok.mp h
    simp only [GoodRun,h1] at hg
    exact ih (.next hs hg.1 h1) hg.2 h

end Runs

/-- The third list merges the two others and keeps the order of each. -/
inductive Interleave {ι : Type} : List ι → List ι → List ι → Prop where
  | nil : Interleave [] [] []
  | left {i : ι} {as bs is : List ι} : Interleave as bs is → Interleave (i :: as) bs (i :: is)
  | right {i : ι} {as bs is : List ι} : Interleave as bs is → Interleave as (i :: bs) (i :: is)

/-- Two scripts run in any interleaving: `P i j` holds once the first `i` inputs
of the one and the first `j` of the other were handled. -/
theorem Interleave.run_ok {σ ι φ : Type} {step : σ → ι → Except φ σ} {as bs : List ι}
    {P : Nat → Nat → σ → Prop}
    (hl : ∀ i j s x, P i j s → as[i]? = some x → ∃ s', step s x = .ok s' ∧ P (i+1) j s')
    (hr : ∀ i j s x, P i j s → bs[j]? = some x → ∃ s', step s x = .ok s' ∧ P i (j+1) s')
    {is : List ι} {s : σ} (hi : Interleave as bs is) (h0 : P 0 0 s) :
    ∃ s', run step s is = .ok s' ∧ P as.length bs.length s' := by
  suffices h : ∀ as' bs' is, Interleave as' bs' is → ∀ i j s, as' = as.drop i → bs' = bs.drop j →
      i ≤ as.length → j ≤ bs.length → P i j s →
      ∃ s', run step s is = .ok s' ∧ P as.length bs.length s' from
    h as bs is hi 0 0 s rfl rfl (Nat.zero_le _) (Nat.zero_le _) h0
  intro as' bs' is h
  induction h with
  | nil =>
    intro i j s ha hb hia hjb hP
    have hi : i = as.length := by
      have := List.drop_eq_nil_iff.mp ha.symm
      omega
    have hj : j = bs.length := by
      have := List.drop_eq_nil_iff.mp hb.symm
      omega
    subst hi hj
    exact ⟨s,rfl,hP⟩
  | @left x as' bs' is _ ih =>
    intro i j s ha hb hia hjb hP
    have hlt : i < as.length := by
      rcases Nat.lt_or_ge i as.length with hlt | hge
      · exact hlt
      · rw [List.drop_eq_nil_of_le hge] at ha
        cases ha
    rw [List.drop_eq_getElem_cons hlt] at ha
    simp only [List.cons.injEq] at ha
    obtain ⟨s1,hs1,hP1⟩ := hl i j s x hP (by rw [List.getElem?_eq_getElem hlt,ha.1])
    obtain ⟨s',hs',hP'⟩ := ih (i+1) j s1 ha.2 hb hlt hjb hP1
    exact ⟨s',by simp only [run,hs1]; exact hs',hP'⟩
  | @right x as' bs' is _ ih =>
    intro i j s ha hb hia hjb hP
    have hlt : j < bs.length := by
      rcases Nat.lt_or_ge j bs.length with hlt | hge
      · exact hlt
      · rw [List.drop_eq_nil_of_le hge] at hb
        cases hb
    rw [List.drop_eq_getElem_cons hlt] at hb
    simp only [List.cons.injEq] at hb
    obtain ⟨s1,hs1,hP1⟩ := hr i j s x hP (by rw [List.getElem?_eq_getElem hlt,hb.1])
    obtain ⟨s',hs',hP'⟩ := ih i (j+1) s1 ha hb.2 hia hlt hP1
    exact ⟨s',by simp only [run,hs1]; exact hs',hP'⟩

end EventFsm
