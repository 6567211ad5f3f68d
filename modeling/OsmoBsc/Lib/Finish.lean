import OsmoBsc.Lib.Calls
set_option autoImplicit false

namespace Calls
open EventFsm

section Finishes

variable {σ τ χ φ : Type} (exec : τ → χ → σ → Except φ (σ × List τ)) (x : χ)

/-- All pending calls, and the calls that they make, are made until none is left; the
outcome of the foreign functions is always `x`. -/
inductive Finishes : σ → List τ → σ → Prop where
  | done (s : σ) : Finishes s [] s
  | call {s s1 s' : σ} {t : τ} {new rest : List τ} :
      exec t x s = .ok (s1,new) → Finishes s1 (new ++ rest) s' → Finishes s (t :: rest) s'

variable {exec x} {s s1 s' : σ} {t : τ} {ts new rest : List τ}

/-- To finish is to move on call by call. -/
theorem Finishes.run {ι : Type} {enter : ι → σ → List τ} (h : Finishes exec x s ts s') :
    ∃ n, run (step exec enter) ⟨s,ts⟩ (List.replicate n (.call x : Move ι χ)) = .ok ⟨s',[]⟩ := by
  induction h with
  | done s => exact ⟨0,rfl⟩
  | @call s s1 s' t new rest he _ ih =>
    obtain ⟨n,hn⟩ := ih
    refine ⟨n+1,?_⟩
    simp only [List.replicate_succ,EventFsm.run,step_call,he]
    exact hn

theorem finishes_of_run {ι : Type} {enter : ι → σ → List τ} {n : Nat}
    (h : EventFsm.run (step exec enter) ⟨s,ts⟩ (List.replicate n (.call x : Move ι χ)) = .ok ⟨s',[]⟩) :
    Finishes exec x s ts s' := by
  induction n generalizing s ts with
  | zero =>
    cases h
    exact .done _
  | succ n ih =>
    cases ts with
    | nil => exact ih h
    | cons t ts =>
      rw [List.replicate_succ,EventFsm.run,step_call] at h
      cases he : exec t x s with
      | error e =>
        rw [he] at h
        cases h
      | ok r =>
        rw [he] at h
        exact .call he (ih h)

end Finishes

section Settles

variable {σ τ χ φ : Type} (exec : τ → χ → σ → Except φ (σ × List τ))

/-- Whatever the foreign functions do, the pending calls and the calls that they make come
to an end, and `Q` holds there unless one of them faults. -/
inductive Settles (Q : σ → Prop) : σ → List τ → Prop where
  | done {s : σ} : Q s → Settles Q s []
  | call {s : σ} {t : τ} {rest : List τ} :
      (∀ x s1 new, exec t x s = .ok (s1,new) → Settles Q s1 (new ++ rest)) → Settles Q s (t :: rest)

variable {exec} {P Q : σ → Prop} {s : σ} {t : τ} {ts rest : List τ}

theorem Settles.mono (h : Settles exec P s ts) (hPQ : ∀ s, P s → Q s) : Settles exec Q s ts := by
  induction h with
  | done hp => exact .done (hPQ _ hp)
  | call _ ih => exact .call ih

theorem Settles.append (h : Settles exec (fun s' => Settles exec Q s' rest) s ts) :
    Settles exec Q s (ts ++ rest) := by
  induction h with
  | done hq => exact hq
  | call _ ih =>
    refine .call fun x s1 new he => ?_
    have := ih x s1 new he
    rwa [List.append_assoc] at this

/-- One call, and then the rest. -/
theorem Settles.cons (h : Settles exec (fun s' => Settles exec Q s' rest) s [t]) :
    Settles exec Q s (t :: rest) := h.append

/-- A single call makes its calls. -/
theorem Settles.one (h : ∀ x s1 new, exec t x s = .ok (s1,new) → Settles exec Q s1 new) :
    Settles exec Q s [t] :=
  .call fun x s1 new he => by rw [List.append_nil]; exact h x s1 new he

theorem Settles.of_finishes {x : χ} {s' : σ} (h : Settles exec Q s ts) (hf : Finishes exec x s ts s') :
    Q s' := by
  induction hf with
  | done s =>
    cases h with
    | done hq => exact hq
  | call he _ ih =>
    cases h with
    | call h => exact ih (h _ _ _ he)

/-- What settles comes to its end in every run, or faults on the way. -/
theorem Settles.ends {ι : Type} {enter : ι → σ → List τ} (h : Settles exec Q s ts) (xs : Nat → χ) :
    ∃ n, (∃ s', EventFsm.run (step exec enter) ⟨s,ts ++ rest⟩
        ((List.range n).map fun i => (.call (xs i) : Move ι χ)) = .ok ⟨s',rest⟩ ∧ Q s')
      ∨ ∃ e, EventFsm.run (step exec enter) ⟨s,ts ++ rest⟩
        ((List.range n).map fun i => (.call (xs i) : Move ι χ)) = .error e := by
  induction h generalizing xs with
  | done hq => exact ⟨0,.inl ⟨_,rfl,hq⟩⟩
  | @call s t rest' _ ih =>
    have hnext : ∀ n, EventFsm.run (step exec enter) ⟨s,t :: rest' ++ rest⟩
        ((List.range (n+1)).map fun i => (.call (xs i) : Move ι χ)) =
        match exec t (xs 0) s with
        | .ok r => EventFsm.run (step exec enter) ⟨r.1,r.2 ++ (rest' ++ rest)⟩
            ((List.range n).map fun i => .call (xs (i+1)))
        | .error e => .error e := by
      intro n
      rw [List.range_succ_eq_map,List.map_cons,List.map_map,List.cons_append,EventFsm.run,step_call]
      cases exec t (xs 0) s <;> rfl
    cases he : exec t (xs 0) s with
    | error e =>
      refine ⟨1,.inr ⟨e,?_⟩⟩
      rw [hnext 0,he]
    | ok r =>
      obtain ⟨n,h⟩ := ih (xs 0) r.1 r.2 he fun i => xs (i+1)
      rw [List.append_assoc] at h
      refine ⟨n+1,?_⟩
      rw [hnext n,he]
      exact h

end Settles

end Calls
