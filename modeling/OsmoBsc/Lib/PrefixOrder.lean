import Mathlib.Data.List.Basic
import Mathlib.Order.Defs.LinearOrder
import Mathlib.Order.Lattice
set_option autoImplicit false

/-! Lists compared over their common length, which is no total preorder, and the lexicographic order. -/

namespace PrefixOrder

variable {α : Type*} [LinearOrder α]

/-- At the first place where the lists differ, within both, the first one is smaller. -/
def Before : List α → List α → Prop
  | a :: as,b :: bs => a < b ∨ a = b ∧ Before as bs
  | _,_ => False

/-- The lexicographic order, in which a proper prefix is smaller. -/
def LexLE : List α → List α → Prop
  | [],_ => True
  | _ :: _,[] => False
  | a :: as,b :: bs => a < b ∨ a = b ∧ LexLE as bs

theorem not_before_of_prefix {as bs : List α} (hp : as <+: bs) : ¬ Before as bs := by
  induction as generalizing bs with
  | nil => exact id
  | cons a as ih =>
    obtain ⟨rest,rfl⟩ := hp
    intro h
    rcases h with hlt | ⟨-,h⟩
    · exact lt_irrefl a hlt
    · exact ih (List.prefix_append as rest) h

theorem Before.irrefl (as : List α) : ¬ Before as as := not_before_of_prefix List.prefix_rfl

theorem Before.trans {as bs cs : List α} (h : Before as bs) (h' : Before bs cs) : Before as cs := by
  induction as generalizing bs cs with
  | nil => exact h.elim
  | cons a as ih =>
    cases bs with
    | nil => exact h.elim
    | cons b bs =>
      cases cs with
      | nil => exact h'.elim
      | cons c cs =>
        rcases h with hab | ⟨rfl,hab⟩
        · rcases h' with hbc | ⟨rfl,-⟩
          · exact .inl (lt_trans hab hbc)
          · exact .inl hab
        · rcases h' with hbc | ⟨rfl,hbc⟩
          · exact .inl hbc
          · exact .inr ⟨rfl,ih hab hbc⟩

/-- What is before a list is before all that starts with it. -/
theorem Before.extend {as bs cs : List α} (h : Before as bs) (hp : bs <+: cs) : Before as cs := by
  induction as generalizing bs cs with
  | nil => exact h.elim
  | cons a as ih =>
    cases bs with
    | nil => exact h.elim
    | cons b bs =>
      obtain ⟨rest,rfl⟩ := hp
      rcases h with hab | ⟨rfl,hab⟩
      · exact .inl hab
      · exact .inr ⟨rfl,ih hab (List.prefix_append bs rest)⟩

/-- What is before a list differs from it within a part, or starts with that part. -/
theorem Before.cut {as bs cs : List α} (h : Before as cs) (hp : bs <+: cs) (hn : ¬ bs <+: as) :
    Before as bs := by
  induction as generalizing bs cs with
  | nil => exact h.elim
  | cons a as ih =>
    cases bs with
    | nil => exact absurd List.nil_prefix hn
    | cons b bs =>
      obtain ⟨rest,rfl⟩ := hp
      rcases h with hab | ⟨rfl,hab⟩
      · exact .inl hab
      · exact .inr ⟨rfl,ih hab (List.prefix_append bs rest) fun hsub => hn (List.cons_prefix_cons.mpr ⟨rfl,hsub⟩)⟩

/-- A part of a smaller list is smaller, or the other list starts with it. -/
theorem Before.shorten {as bs cs : List α} (h : Before bs cs) (hp : as <+: bs) (hn : ¬ as <+: cs) :
    Before as cs := by
  induction as generalizing bs cs with
  | nil => exact absurd List.nil_prefix hn
  | cons a as ih =>
    obtain ⟨rest,rfl⟩ := hp
    cases cs with
    | nil => exact h.elim
    | cons c cs =>
      rcases h with hac | ⟨rfl,hac⟩
      · exact .inl hac
      · exact .inr ⟨rfl,ih hac (List.prefix_append as rest) fun hsub => hn (List.cons_prefix_cons.mpr ⟨rfl,hsub⟩)⟩

/-- A list is smaller because of a place in both, or because it ends there. -/
theorem lexLE_iff {as bs : List α} : LexLE as bs ↔ Before as bs ∨ as <+: bs := by
  induction as generalizing bs with
  | nil => exact iff_of_true trivial (.inr List.nil_prefix)
  | cons a as ih =>
    cases bs with
    | nil =>
      refine iff_of_false id ?_
      rintro (h | h)
      · exact h
      · exact List.cons_ne_nil _ _ (List.prefix_nil.mp h)
    | cons b bs =>
      change a < b ∨ a = b ∧ LexLE as bs ↔ (a < b ∨ a = b ∧ Before as bs) ∨ _
      rw [List.cons_prefix_cons,ih,and_or_left,or_assoc]

theorem Before.not_lexLE {as bs : List α} (h : Before as bs) : ¬ LexLE bs as := by
  intro hle
  rcases lexLE_iff.mp hle with h' | h'
  · exact Before.irrefl as (h.trans h')
  · exact Before.irrefl as (h.extend h')

theorem LexLE.antisymm {as bs : List α} (h : LexLE as bs) (h' : LexLE bs as) : as = bs := by
  rcases lexLE_iff.mp h with hb | hp
  · exact absurd h' hb.not_lexLE
  · rcases lexLE_iff.mp h' with hb | hp'
    · exact absurd h hb.not_lexLE
    · exact hp.eq_of_length_le hp'.length_le

theorem LexLE.trans {as bs cs : List α} (h : LexLE as bs) (h' : LexLE bs cs) : LexLE as cs := by
  rcases lexLE_iff.mp h with hb | hp
  · rcases lexLE_iff.mp h' with hb' | hp'
    · exact lexLE_iff.mpr (.inl (hb.trans hb'))
    · exact lexLE_iff.mpr (.inl (hb.extend hp'))
  · rcases lexLE_iff.mp h' with hb' | hp'
    · by_cases hac : as <+: cs
      · exact lexLE_iff.mpr (.inr hac)
      · exact lexLE_iff.mpr (.inl (hb'.shorten hp hac))
    · exact lexLE_iff.mpr (.inr (hp.trans hp'))

theorem LexLE.total (as bs : List α) : LexLE as bs ∨ LexLE bs as := by
  induction as generalizing bs with
  | nil => exact .inl trivial
  | cons a as ih =>
    cases bs with
    | nil => exact .inr trivial
    | cons b bs =>
      rcases lt_trichotomy a b with hlt | rfl | hgt
      · exact .inl (.inl hlt)
      · exact (ih bs).imp (fun h => .inr ⟨rfl,h⟩) fun h => .inr ⟨rfl,h⟩
      · exact .inr (.inl hgt)

end PrefixOrder
