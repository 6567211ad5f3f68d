import OsmoBsc.GsmData
import OsmoBsc.Lib.PrefixOrder
import OsmoBsc.Lib.Scan
import Mathlib.Data.List.Perm.Basic
import Mathlib.Order.Fin.Basic
set_option autoImplicit false

/-! The selection of the newest software among the descriptors of a BTS. -/

namespace OsmoBsc.Nm
open PrefixOrder

/-- `struct abis_nm_sw_desc`, of which the selection reads the version up to its length. -/
structure SwDesc where
  fileVersion : List (Fin 256)
  deriving DecidableEq, Repr

def memcmp : List (Fin 256) → List (Fin 256) → Nat → Ordering
  | a :: as,b :: bs,n+1 => if a < b then .lt else if b < a then .gt else memcmp as bs n
  | _,_,_ => .eq

/-- The comparison of two descriptors: the second one is newer. -/
def SwDesc.OlderThan (d d' : SwDesc) : Prop :=
  memcmp d.fileVersion d'.fileVersion (min d'.fileVersion.length d.fileVersion.length) = .lt

instance : DecidableRel SwDesc.OlderThan := fun _ _ => inferInstanceAs (Decidable (_ = _))

def descAt (sw : List SwDesc) (i : Nat) : SwDesc := sw.getD i ⟨[]⟩

/-- `abis_nm_select_newest_sw`: `res` is what the scan keeps. -/
def abisNmSelectNewestSw (sw : List SwDesc) : Nat :=
  Scan.champion SwDesc.OlderThan (descAt sw) (sw.length - 1)

def Newest (sw : List SwDesc) (d : SwDesc) : Prop := d ∈ sw ∧ ∀ d' ∈ sw, LexLE d'.fileVersion d.fileVersion

def SelectsNewest (sw : List SwDesc) : Prop := ∃ d, sw[abisNmSelectNewestSw sw]? = some d ∧ Newest sw d

def SwDesc.CutOff (sw : List SwDesc) (d : SwDesc) : Prop :=
  ∃ d', Newest sw d' ∧ d.fileVersion <+: d'.fileVersion ∧ d.fileVersion ≠ d'.fileVersion

def CutOffsGuarded (sw : List SwDesc) : Prop :=
  ∀ (j : Nat) (d : SwDesc), sw[j]? = some d → d.CutOff sw → ∃ i < j, ∃ e : SwDesc, sw[i]? = some e ∧ d.fileVersion <+: e.fileVersion

section Selection

variable {sw : List SwDesc} {d d' : SwDesc}

theorem memcmp_eq_lt (as bs : List (Fin 256)) :
    memcmp as bs (min bs.length as.length) = .lt ↔ Before as bs := by
  induction as generalizing bs with
  | nil => exact iff_of_false (by simp [memcmp]) id
  | cons a as ih =>
    cases bs with
    | nil => exact iff_of_false (by simp [memcmp]) id
    | cons b bs =>
      rw [List.length_cons,List.length_cons,Nat.succ_min_succ,memcmp]
      change _ ↔ a < b ∨ a = b ∧ Before as bs
      by_cases hlt : a < b
      · rw [if_pos hlt]
        exact iff_of_true rfl (.inl hlt)
      by_cases hgt : b < a
      · rw [if_neg hlt,if_pos hgt]
        refine iff_of_false (by decide) ?_
        rintro (h | ⟨rfl,-⟩)
        · exact hlt h
        · exact lt_irrefl a hgt
      · have heq : a = b := le_antisymm (not_lt.mp hgt) (not_lt.mp hlt)
        rw [if_neg hlt,if_neg hgt,ih]
        exact ⟨fun h => .inr ⟨heq,h⟩,fun h => (h.resolve_left hlt).2⟩

theorem olderThan_iff : d.OlderThan d' ↔ Before d.fileVersion d'.fileVersion := memcmp_eq_lt _ _

theorem OlderThan.irrefl (d : SwDesc) : ¬ d.OlderThan d := fun h => Before.irrefl _ (olderThan_iff.mp h)

theorem OlderThan.trans (a b c : SwDesc) (h : a.OlderThan b) (h' : b.OlderThan c) : a.OlderThan c :=
  olderThan_iff.mpr ((olderThan_iff.mp h).trans (olderThan_iff.mp h'))

theorem SwDesc.CutOff.unbeaten (h : d.CutOff sw) (hd : d' ∈ sw) : ¬ d.OlderThan d' := by
  obtain ⟨m,⟨-,hmax⟩,hp,-⟩ := h
  intro holder
  have hbefore := olderThan_iff.mp holder
  -- then the version of `d` would be before the newest one, which starts with it
  rcases lexLE_iff.mp (hmax d' hd) with hm | hm
  · exact not_before_of_prefix hp (hbefore.trans hm)
  · exact not_before_of_prefix hp (hbefore.extend hm)

theorem descAt_eq {i : Nat} (h : sw[i]? = some d) : descAt sw i = d := by
  rw [descAt,List.getD_eq_getElem?_getD,h]
  rfl

theorem getElem?_champion (hne : sw ≠ []) {n : Nat} (hn : n ≤ sw.length - 1) :
    sw[Scan.champion SwDesc.OlderThan (descAt sw) n]? =
      some (descAt sw (Scan.champion SwDesc.OlderThan (descAt sw) n)) := by
  have hle := @Scan.champion_le SwDesc SwDesc.OlderThan _ (descAt sw) n
  have hpos := List.length_pos_iff.mpr hne
  rw [descAt,List.getD_eq_getElem?_getD,List.getElem?_eq_getElem (by omega)]
  rfl

/-- After the descriptors up to `n` the selection holds one that is cut off if one of them is cut off and
not guarded. -/
theorem cutOff_stays (hne : sw ≠ []) {j : Nat} (hj : sw[j]? = some d) (hcut : d.CutOff sw)
    (hfree : ∀ i < j, ∀ e : SwDesc, sw[i]? = some e → ¬ d.fileVersion <+: e.fileVersion) :
    ∃ e : SwDesc, sw[abisNmSelectNewestSw sw]? = some e ∧ e.CutOff sw := by
  have hlt := (List.getElem?_eq_some_iff.mp hj).1
  -- at `j` the selection is `d`, or a descriptor whose version is a part of that of `d`
  obtain ⟨e,he,hecut⟩ : ∃ e : SwDesc,
      sw[Scan.champion SwDesc.OlderThan (descAt sw) j]? = some e ∧ e.CutOff sw := by
    cases j with
    | zero => exact ⟨d,hj,hcut⟩
    | succ j =>
      have hd : descAt sw (j+1) = d := descAt_eq hj
      rw [Scan.champion]
      split
      · exact ⟨d,hj,hcut⟩
      · next hkept =>
        rw [hd] at hkept
        have hr := @getElem?_champion sw hne j (by omega)
        have hle := @Scan.champion_le SwDesc SwDesc.OlderThan _ (descAt sw) j
        generalize descAt sw (Scan.champion SwDesc.OlderThan (descAt sw) j) = r at hr hkept
        generalize Scan.champion SwDesc.OlderThan (descAt sw) j = k at hr hle
        obtain ⟨m,hm,hp,hneq⟩ := hcut
        have hrp : r.fileVersion <+: m.fileVersion := by
          rcases lexLE_iff.mp (hm.2 r (List.mem_of_getElem? hr)) with hb | hb
          · exact absurd (olderThan_iff.mpr (hb.cut hp (hfree k (by omega) r hr))) hkept
          · exact hb
        have hrd : r.fileVersion <+: d.fileVersion :=
          (List.prefix_or_prefix_of_prefix hp hrp).resolve_left (hfree k (by omega) r hr)
        refine ⟨r,hr,m,hm,hrp,fun heq => hneq ?_⟩
        exact hp.eq_of_length_le (heq ▸ hrd.length_le)
  have hkept : abisNmSelectNewestSw sw = Scan.champion SwDesc.OlderThan (descAt sw) j := by
    refine Scan.champion_kept (by omega) fun i hi => ?_
    have hpos := List.length_pos_iff.mpr hne
    have hi' : i < sw.length := by omega
    rw [descAt_eq he,descAt_eq (List.getElem?_eq_getElem hi')]
    exact hecut.unbeaten (List.getElem_mem hi')
  exact ⟨e,by rw [hkept]; exact he,hecut⟩

theorem champion_not_cutOff (hguard : CutOffsGuarded sw) {n : Nat} (hn : n ≤ sw.length - 1) :
    ∀ e : SwDesc, sw[Scan.champion SwDesc.OlderThan (descAt sw) n]? = some e → ¬ e.CutOff sw := by
  induction n with
  | zero =>
    intro e he hcut
    obtain ⟨i,hi,-⟩ := hguard _ e he hcut
    exact Nat.not_lt_zero i hi
  | succ n ih =>
    intro e he hcut
    rw [Scan.champion] at he
    split at he
    · next hbeats =>
      -- the one that guards it has beaten the former selection before
      obtain ⟨i,hi,g,hg,hp⟩ := hguard _ e he hcut
      have hunbeaten := Scan.champion_unbeaten OlderThan.irrefl OlderThan.trans (v := descAt sw) n i (by omega)
      rw [descAt_eq hg] at hunbeaten
      rw [descAt_eq he] at hbeats
      exact hunbeaten (olderThan_iff.mpr ((olderThan_iff.mp hbeats).extend hp))
    · exact ih (by omega) e he hcut

theorem exists_newest (hne : sw ≠ []) : ∃ m, Newest sw m := by
  induction sw with
  | nil => exact absurd rfl hne
  | cons d sw ih =>
    by_cases hnil : sw = []
    · subst hnil
      exact ⟨d,List.mem_singleton_self d,List.forall_mem_singleton.mpr (lexLE_iff.mpr (.inr List.prefix_rfl))⟩
    · obtain ⟨m,hm,hmax⟩ := ih hnil
      rcases LexLE.total d.fileVersion m.fileVersion with hle | hle
      · exact ⟨m,List.mem_cons_of_mem d hm,List.forall_mem_cons.mpr ⟨hle,hmax⟩⟩
      · refine ⟨d,List.mem_cons_self,List.forall_mem_cons.mpr ⟨lexLE_iff.mpr (.inr List.prefix_rfl),?_⟩⟩
        exact fun d' hd' => (hmax d' hd').trans hle

/-- The selection is the newest one if and only if no cut off version comes before all that start with it. -/
theorem selectsNewest_iff (hne : sw ≠ []) : SelectsNewest sw ↔ CutOffsGuarded sw := by
  constructor
  · rintro ⟨d,hd,hnew⟩ j c hj hcut
    by_contra hfree
    obtain ⟨e,he,m,hm,hp,hneq⟩ := cutOff_stays hne hj hcut fun i hi e he hpe => hfree ⟨i,hi,e,he,hpe⟩
    cases hd.symm.trans he
    exact hneq (LexLE.antisymm (hm.2 d hnew.1) (hnew.2 m hm.1))
  · intro hguard
    have hd := @getElem?_champion sw hne (sw.length - 1) (Nat.le_refl _)
    obtain ⟨m,hm⟩ := exists_newest hne
    obtain ⟨k,hk⟩ := List.mem_iff_getElem?.mp hm.1
    have hklt := (List.getElem?_eq_some_iff.mp hk).1
    have hunbeaten := Scan.champion_unbeaten OlderThan.irrefl OlderThan.trans (v := descAt sw)
      (sw.length - 1) k (by omega)
    have hcut := champion_not_cutOff hguard (Nat.le_refl _) _ hd
    rw [descAt_eq hk] at hunbeaten
    refine ⟨_,hd,?_⟩
    generalize descAt sw (Scan.champion SwDesc.OlderThan (descAt sw) (sw.length - 1)) = r at *
    have hr := List.mem_of_getElem? hd
    have heq : r.fileVersion = m.fileVersion := by
      rcases lexLE_iff.mp (hm.2 r hr) with hb | hp
      · exact absurd (olderThan_iff.mpr hb) hunbeaten
      · by_contra hneq
        exact hcut ⟨m,hm,hp,hneq⟩
    exact ⟨hr,fun d' hd' => heq ▸ hm.2 d' hd'⟩

end Selection

theorem Newest.perm {sw sw' : List SwDesc} {d : SwDesc} (hp : sw'.Perm sw) : Newest sw' d ↔ Newest sw d := by
  unfold Newest
  rw [hp.mem_iff]
  exact and_congr_right' (forall_congr' fun d' => by rw [hp.mem_iff])

theorem SwDesc.CutOff.perm {sw sw' : List SwDesc} {d : SwDesc} (hp : sw'.Perm sw) : d.CutOff sw' ↔ d.CutOff sw :=
  exists_congr fun _ => and_congr_left' (Newest.perm hp)

/-- The index is that of a newest descriptor exactly if cut off versions are guarded, and it is so in every
order of the list exactly if no version is cut off. -/
theorem newest_selected_iff (sw : List SwDesc) (hne : sw ≠ []) :
    (SelectsNewest sw ↔ CutOffsGuarded sw)
      ∧ ((∀ sw' : List SwDesc, sw'.Perm sw → SelectsNewest sw') ↔ ∀ d ∈ sw, ¬ d.CutOff sw) := by
  have hne' : ∀ {sw' : List SwDesc}, sw'.Perm sw → sw' ≠ [] := by
    rintro sw' hp rfl
    exact hne hp.nil_eq.symm
  refine ⟨selectsNewest_iff hne,fun hall d hd hcut => ?_,fun hnone sw' hp => ?_⟩
  · -- the cut off version first
    have hp := (List.perm_cons_erase hd).symm
    obtain ⟨i,hi,-⟩ := (selectsNewest_iff (hne' hp)).mp (hall _ hp) 0 d rfl ((SwDesc.CutOff.perm hp).mpr hcut)
    exact Nat.not_lt_zero i hi
  · refine (selectsNewest_iff (hne' hp)).mpr fun j d hj hcut => ?_
    have hmem := hp.mem_iff.mp (List.mem_of_getElem? hj)
    exact absurd ((SwDesc.CutOff.perm hp).mp hcut) (hnone d hmem)

theorem newest_selected_two : SelectsNewest [⟨[0x31]⟩,⟨[0x32,0x30]⟩] := by
  refine (newest_selected_iff [⟨[0x31]⟩,⟨[0x32,0x30]⟩] (by decide)).1.mpr ?_
  rintro j d hj ⟨m,⟨hm,-⟩,hp,hne⟩
  have hd := List.mem_of_getElem? hj
  simp only [List.mem_cons,List.not_mem_nil,or_false] at hd hm
  rcases hd with rfl | rfl <;> rcases hm with rfl | rfl <;> simp at hp hne

/-- A version that goes on after the first one is not seen to be newer. -/
theorem cutOff_selected : ¬ SelectsNewest [⟨[0x31]⟩,⟨[0x31,0x32]⟩] := by
  rintro ⟨d,hd,-,hmax⟩
  cases hd
  have hle := hmax ⟨[0x31,0x32]⟩ (by decide)
  simp [LexLE] at hle

end OsmoBsc.Nm
