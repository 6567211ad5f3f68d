import OsmoBsc.Lib.Fsm
set_option autoImplicit false

namespace Calls
open EventFsm

section Machine

variable {σ τ ι χ φ : Type}

/-- A program in the middle of its nested calls: the state that all of them
share and the calls still to be made, the innermost first. -/
structure Config (σ τ : Type) where
  state : σ
  calls : List τ

/-- Between two inputs no call is left to be made. -/
def Config.Quiescent (c : Config σ τ) : Prop := c.calls = []

instance Config.decidableQuiescent (c : Config σ τ) : Decidable c.Quiescent :=
  match c with
  | ⟨_,[]⟩ => isTrue rfl
  | ⟨_,_ :: _⟩ => isFalse (by simp [Quiescent])

/-- What makes a program move: an input that comes from outside, or the next
call with the outcome of the foreign functions it uses. -/
inductive Move (ι χ : Type) where
  | input (i : ι)
  | call (x : χ)
  deriving DecidableEq, Repr

/-- An input is taken only when no call is left; the innermost call runs up to
the calls it makes itself, which come before the rest. -/
def step (exec : τ → χ → σ → Except φ (σ × List τ)) (enter : ι → σ → List τ) :
    Config σ τ → Move ι χ → Except φ (Config σ τ)
  | ⟨s,[]⟩, .input i => .ok ⟨s,enter i s⟩
  | ⟨s,t :: ts⟩, .call x => do
    let r ← exec t x s
    return ⟨r.1,r.2 ++ ts⟩
  | c, _ => .ok c

variable {exec : τ → χ → σ → Except φ (σ × List τ)} {enter : ι → σ → List τ}

@[simp] theorem step_input (s : σ) (i : ι) :
    step exec enter ⟨s,[]⟩ (.input i : Move ι χ) = .ok ⟨s,enter i s⟩ := rfl

theorem step_call (s : σ) (t : τ) (ts : List τ) (x : χ) :
    step exec enter ⟨s,t :: ts⟩ (.call x) =
      (exec t x s >>= fun r => .ok ⟨r.1,r.2 ++ ts⟩) := rfl

/-- A run keeps what every input and every single call keeps, where what is known of
all states that are reached may be used on the way. -/
theorem reach_induction {good : Config σ τ → Move ι χ → Prop} {init : Config σ τ → Prop}
    {Inv : σ → List τ → Prop} (h0 : ∀ c, init c → Inv c.state c.calls)
    (hi : ∀ s i, Reach (step exec enter) good init ⟨s,[]⟩ → Inv s [] →
      good ⟨s,[]⟩ (.input i) → Inv s (enter i s))
    (hc : ∀ s t ts x s' new, Reach (step exec enter) good init ⟨s,t :: ts⟩ → Inv s (t :: ts) →
      good ⟨s,t :: ts⟩ (.call x) → exec t x s = .ok (s',new) → Inv s' (new ++ ts))
    {c : Config σ τ} (h : Reach (step exec enter) good init c) : Inv c.state c.calls := by
  induction h with
  | start h => exact h0 _ h
  | @next c c' m hr hg hstep ih =>
    obtain ⟨s,calls⟩ := c
    match calls, m with
    | [], .input i =>
      simp only [step_input,Except.ok.injEq] at hstep
      subst hstep
      exact hi s i hr ih hg
    | [], .call x =>
      cases hstep
      exact ih
    | t :: ts, .input i =>
      cases hstep
      exact ih
    | t :: ts, .call x =>
      simp only [step_call,bind_eq_ok] at hstep
      obtain ⟨⟨s',new⟩,he,hnext⟩ := hstep
      cases hnext
      exact hc s t ts x s' new hr ih hg he

/-- A run keeps what every input and every single call keeps. -/
theorem reach_invariant {good : Config σ τ → Move ι χ → Prop} {init : Config σ τ → Prop}
    {Inv : σ → List τ → Prop} (h0 : ∀ c, init c → Inv c.state c.calls)
    (hi : ∀ s i, Inv s [] → good ⟨s,[]⟩ (.input i) → Inv s (enter i s))
    (hc : ∀ s t ts x s' new, Inv s (t :: ts) → good ⟨s,t :: ts⟩ (.call x) →
      exec t x s = .ok (s',new) → Inv s' (new ++ ts))
    {c : Config σ τ} (h : Reach (step exec enter) good init c) : Inv c.state c.calls :=
  reach_induction h0 (fun s i _ => hi s i) (fun s t ts x s' new _ => hc s t ts x s' new) h

/-- The same step with a note that every input leaves and no call changes. -/
def noting {γ : Type} (exec : τ → χ → σ → Except φ (σ × List τ)) (enter : ι → σ → List τ)
    (note : ι → σ → γ → γ) : Config σ τ × γ → Move ι χ → Except φ (Config σ τ × γ)
  | (⟨s,[]⟩,g), .input i => .ok (⟨s,enter i s⟩,note i s g)
  | (⟨s,t :: ts⟩,g), .call x => do
    let r ← exec t x s
    return (⟨r.1,r.2 ++ ts⟩,g)
  | c, _ => .ok c

/-- A run keeps what every input, with its note, and every single call keep. -/
theorem noting_invariant {γ : Type} {note : ι → σ → γ → γ}
    {good : Config σ τ × γ → Move ι χ → Prop} {init : Config σ τ × γ → Prop}
    {Inv : σ → List τ → γ → Prop} (h0 : ∀ c, init c → Inv c.1.state c.1.calls c.2)
    (hi : ∀ s i g, Inv s [] g → good (⟨s,[]⟩,g) (.input i) → Inv s (enter i s) (note i s g))
    (hc : ∀ s t ts x s' new g, Inv s (t :: ts) g → good (⟨s,t :: ts⟩,g) (.call x) →
      exec t x s = .ok (s',new) → Inv s' (new ++ ts) g)
    {c : Config σ τ × γ} (h : Reach (noting exec enter note) good init c) :
    Inv c.1.state c.1.calls c.2 := by
  suffices hs : ∀ c m c', Inv c.1.state c.1.calls c.2 → good c m →
      noting exec enter note c m = .ok c' → Inv c'.1.state c'.1.calls c'.2 from h.invariant h0 hs
  intro ⟨⟨s,calls⟩,g⟩ m c' hinv hg hstep
  match calls, m with
  | [], .input i =>
    cases hstep
    exact hi s i g hinv hg
  | [], .call x =>
    cases hstep
    exact hinv
  | t :: ts, .input i =>
    cases hstep
    exact hinv
  | t :: ts, .call x =>
    simp only [noting,bind_eq_ok] at hstep
    obtain ⟨⟨s',new⟩,he,hr⟩ := hstep
    cases hr
    exact hc s t ts x s' new g hinv hg he

/-- A run with notes is a run. -/
theorem reach_of_noting {γ : Type} {note : ι → σ → γ → γ} {good : Config σ τ × γ → Move ι χ → Prop}
    {init : Config σ τ × γ → Prop} {c : Config σ τ × γ}
    (h : Reach (noting exec enter note) good init c) :
    Reach (step exec enter) (fun _ _ => True) (fun s => ∃ g, init (s,g)) c.1 := by
  induction h with
  | start h => exact .start ⟨_,h⟩
  | @next c c' m _ _ hstep ih =>
    refine .next ih trivial (i := m) ?_
    obtain ⟨⟨s,calls⟩,g⟩ := c
    match calls, m with
    | [], .input i =>
      cases hstep
      rfl
    | [], .call x =>
      cases hstep
      rfl
    | t :: ts, .input i =>
      cases hstep
      rfl
    | t :: ts, .call x =>
      simp only [noting,bind_eq_ok] at hstep
      obtain ⟨r,he,hr⟩ := hstep
      cases hr
      rw [step_call,he]
      rfl

end Machine

end Calls
