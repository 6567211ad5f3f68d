import Mathlib.Logic.Function.Basic
set_option autoImplicit false

namespace Pairing

/-! Nodes that each point at one other node or at none, where the two ends of a
pair are written one after the other. -/

variable {α : Type} {live : α → Prop} {link : α → Option α}

/-- No node points at a dead node or at itself, a node is pointed at by one
other at most, and a node that is pointed at points back or nowhere. -/
structure WellLinked (live : α → Prop) (link : α → Option α) : Prop where
  live_target {a b : α} : live a → link a = some b → live b
  ne_target {a b : α} : live a → link a = some b → b ≠ a
  back {a b : α} : live a → link a = some b → link b = some a ∨ link b = none
  inj {a b c : α} : live a → live b → link a = some c → link b = some c → a = b

/-- Every link of a live node is answered. -/
def Symmetric (live : α → Prop) (link : α → Option α) : Prop :=
  ∀ a b, live a → link a = some b → live b ∧ b ≠ a ∧ link b = some a

/-- No live node other than `a` and `b` points at either of the two. -/
def Free (live : α → Prop) (link : α → Option α) (a b : α) : Prop :=
  ∀ e, live e → link e = some a ∨ link e = some b → e = a ∨ e = b

theorem WellLinked.empty (h : ∀ a, live a → link a = none) : WellLinked live link := by
  constructor
  all_goals intro a b
  all_goals intros
  all_goals simp_all

theorem WellLinked.free_of_link (h : WellLinked live link) {a b : α} (ha : live a)
    (hab : link a = some b) : Free live link a b := by
  intro e he hp
  rcases hp with hp | hp
  · rcases h.back he hp with hb | hb
    · right
      simpa [hab] using hb.symm
    · simp [hab] at hb
  · exact .inl (h.inj he ha hp hab)

theorem WellLinked.remove (h : WellLinked live link) {a : α}
    (hn : ∀ e, live e → link e ≠ some a) : WellLinked (fun e => live e ∧ e ≠ a) link where
  live_target he hef := ⟨h.live_target he.1 hef,fun hfa => hn _ he.1 (hfa ▸ hef)⟩
  ne_target he hef := h.ne_target he.1 hef
  back he hef := h.back he.1 hef
  inj he hf hef hff := h.inj he.1 hf.1 hef hff

variable [DecidableEq α]

/-- A new node starts without a link. -/
theorem WellLinked.add (h : WellLinked live link) {a : α} (ha : ¬ live a) :
    WellLinked (fun e => live e ∨ e = a) (Function.update link a none) := by
  have hold : ∀ e f, live e ∨ e = a → Function.update link a none e = some f →
      live e ∧ e ≠ a ∧ link e = some f ∧ f ≠ a := by
    intro e f he hef
    by_cases hea : e = a
    · subst hea; simp at hef
    · rw [Function.update_of_ne hea] at hef
      have hl := he.resolve_right hea
      refine ⟨hl,hea,hef,?_⟩
      rintro rfl
      exact ha (h.live_target hl hef)
  constructor
  · intro e f he hef
    obtain ⟨hl,_,hef,_⟩ := hold e f he hef
    exact .inl (h.live_target hl hef)
  · intro e f he hef
    obtain ⟨hl,_,hef,_⟩ := hold e f he hef
    exact h.ne_target hl hef
  · intro e f he hef
    obtain ⟨hl,_,hef,hfa⟩ := hold e f he hef
    rw [Function.update_of_ne hfa]
    exact h.back hl hef
  · intro e f g he hf heg hfg
    obtain ⟨hl,_,heg,_⟩ := hold e g he heg
    obtain ⟨hl',_,hfg,_⟩ := hold f g hf hfg
    exact h.inj hl hl' heg hfg

/-- The links after the pair `a`, `b` was rewritten to `x`, `y`. -/
def rewire (link : α → Option α) (a b : α) (x y : Option α) : α → Option α :=
  Function.update (Function.update link a x) b y

theorem rewire_left {a b : α} (x y : Option α) (h : a ≠ b) : rewire link a b x y a = x := by
  simp [rewire,h]

@[simp] theorem rewire_right (a b : α) (x y : Option α) : rewire link a b x y b = y := by
  simp [rewire]

theorem rewire_of_ne {a b e : α} (x y : Option α) (ha : e ≠ a) (hb : e ≠ b) :
    rewire link a b x y e = link e := by
  simp [rewire,ha,hb]

theorem rewire_eq_some {a b e f : α} {x y : Option α} (hab : a ≠ b)
    (h : rewire link a b x y e = some f) :
    (e = a ∧ x = some f) ∨ (e = b ∧ y = some f) ∨ (e ≠ a ∧ e ≠ b ∧ link e = some f) := by
  by_cases hb : e = b
  · subst hb
    simp_all
  · by_cases ha : e = a
    · subst ha
      simp_all [rewire_left]
    · simp_all [rewire_of_ne]

/-- Two nodes no third node points at can be linked, with or without an answer,
or left without a link. -/
theorem WellLinked.rewire (h : WellLinked live link) {a b : α} {x y : Option α} (hab : a ≠ b)
    (hfree : Free live link a b) (ha : live a) (hb : live b) (hx : x = some b ∨ x = none)
    (hy : y = some a ∨ y = none) :
    WellLinked live (rewire link a b x y) := by
  have hl : Pairing.rewire link a b x y a = x := rewire_left x y hab
  have hout : ∀ e f, live e → e ≠ a → e ≠ b → link e = some f → f ≠ a ∧ f ≠ b := by
    intro e f he hea heb hef
    have := hfree e he
    grind
  constructor
  · intro e f he hef
    rcases rewire_eq_some hab hef with ⟨rfl,hf⟩ | ⟨rfl,hf⟩ | ⟨_,_,hf⟩
    · simp_all
    · simp_all
    · exact h.live_target he hf
  · intro e f he hef
    rcases rewire_eq_some hab hef with ⟨rfl,hf⟩ | ⟨rfl,hf⟩ | ⟨_,_,hf⟩
    · grind
    · grind
    · exact h.ne_target he hf
  · intro e f he hef
    rcases rewire_eq_some hab hef with ⟨rfl,hf⟩ | ⟨rfl,hf⟩ | ⟨hea,heb,hf⟩
    · have hfb : f = b := by simp_all
      subst hfb
      simpa using hy
    · have hfa : f = a := by simp_all
      subst hfa
      rwa [hl]
    · obtain ⟨hfa,hfb⟩ := hout e f he hea heb hf
      rw [rewire_of_ne x y hfa hfb]
      exact h.back he hf
  · intro e f g he hf heg hfg
    rcases rewire_eq_some hab heg with ⟨rfl,hg⟩ | ⟨rfl,hg⟩ | ⟨hea,heb,hg⟩ <;>
      rcases rewire_eq_some hab hfg with ⟨rfl,hg'⟩ | ⟨rfl,hg'⟩ | ⟨hfa,hfb,hg'⟩
    all_goals first
      | rfl
      | exact h.inj he hf hg hg'
      | grind

theorem WellLinked.unlink (h : WellLinked live link) {a b : α} (ha : live a)
    (hab : link a = some b) : WellLinked live (Pairing.rewire link a b none none) :=
  h.rewire (h.ne_target ha hab).symm (h.free_of_link ha hab) ha (h.live_target ha hab)
    (.inr rfl) (.inr rfl)

section Symmetric

variable {a b : α}

theorem Symmetric.unlink (h : Symmetric live link) (ha : live a) (hab : link a = some b) :
    Symmetric live (rewire link a b none none) := by
  obtain ⟨_,hba,hback⟩ := h a b ha hab
  intro e f he hef
  rcases rewire_eq_some hba.symm hef with ⟨_,hf⟩ | ⟨_,hf⟩ | ⟨hea,heb,hf⟩
  · cases hf
  · cases hf
  · obtain ⟨hl,hne,hfe⟩ := h e f he hf
    refine ⟨hl,hne,?_⟩
    have hfa : f ≠ a := by rintro rfl; simp_all
    have hfb : f ≠ b := by rintro rfl; simp_all
    rw [rewire_of_ne _ _ hfa hfb]
    exact hfe

theorem Symmetric.pair (h : Symmetric live link) (hab : a ≠ b) (ha : live a) (hb : live b)
    (hla : link a = none) (hlb : link b = none) :
    Symmetric live (rewire link a b (some b) (some a)) := by
  intro e f he hef
  rcases rewire_eq_some hab hef with ⟨rfl,hf⟩ | ⟨rfl,hf⟩ | ⟨hea,heb,hf⟩
  · cases hf
    exact ⟨hb,hab.symm,by simp⟩
  · cases hf
    exact ⟨ha,hab,rewire_left _ _ hab⟩
  · obtain ⟨hl,hne,hfe⟩ := h e f he hf
    have hfa : f ≠ a := by rintro rfl; simp_all
    have hfb : f ≠ b := by rintro rfl; simp_all
    refine ⟨hl,hne,?_⟩
    rw [rewire_of_ne _ _ hfa hfb]
    exact hfe

omit [DecidableEq α] in
theorem Symmetric.remove (h : Symmetric live link) (ha : link a = none) :
    Symmetric (fun e => live e ∧ e ≠ a) link := by
  intro e f he hef
  obtain ⟨hl,hne,hfe⟩ := h e f he.1 hef
  refine ⟨⟨hl,?_⟩,hne,hfe⟩
  rintro rfl
  simp [ha] at hfe

theorem Symmetric.add (h : Symmetric live link) (ha : ¬ live a) :
    Symmetric (fun e => live e ∨ e = a) (Function.update link a none) := by
  intro e f he hef
  by_cases hea : e = a
  · subst hea; simp at hef
  · rw [Function.update_of_ne hea] at hef
    obtain ⟨hl,hne,hfe⟩ := h e f (he.resolve_right hea) hef
    have hfa : f ≠ a := by rintro rfl; exact ha hl
    exact ⟨.inl hl,hne,by rw [Function.update_of_ne hfa]; exact hfe⟩

end Symmetric

end Pairing
