import OsmoBsc.Si.Budget
set_option autoImplicit false

namespace OsmoBsc.Si.Si2q
open EventFsm Cursor

/-- The encoder cannot tell these lists apart: it reads the entries, and of the word behind
the UARFCNs whether it repeats the last one. -/
structure SiCommon.Alike (si si' : SiCommon) : Prop where
  length : si'.uarfcnLength = si.uarfcnLength
  neighList : si'.si2quaterNeighList = si.si2quaterNeighList
  uarfcns : ∀ i < si.uarfcnLength, si'.uarfcnList i = si.uarfcnList i
  codes : ∀ i < si.uarfcnLength, si'.scrambleList i = si.scrambleList i
  behind : 0 < si.uarfcnLength →
    (si'.uarfcnList si.uarfcnLength = si'.uarfcnList (si.uarfcnLength - 1)
      ↔ si.uarfcnList si.uarfcnLength = si.uarfcnList (si.uarfcnLength - 1))

section Lists

variable {si si' : SiCommon}

theorem SiCommon.Alike.codes_eq (h : si.Alike si') {st i : Nat} (hi : i ≤ si.uarfcnLength) :
    si'.codes st i = si.codes st i := by
  refine List.map_congr_left fun j hj => ?_
  have hj := List.mem_range.mp hj
  exact h.codes _ (by omega)

theorem SiCommon.Alike.tryAddingUarfcn_eq (h : si.Alike si') {u st i rem : Nat} {bv : Writer BitValue}
    (hi : i ≤ si.uarfcnLength) : tryAddingUarfcn si' u i st rem bv = tryAddingUarfcn si u i st rem bv := by
  unfold tryAddingUarfcn
  rw [h.codes_eq hi]

theorem SiCommon.Alike.appendUarfcnsFrom_eq (h : si.Alike si') {n i cu st rem uOffset : Nat}
    {bv : Writer BitValue} (hn : n = si.uarfcnLength + 1 - i)
    (hcu : i = si.uarfcnLength → 0 < i ∧ cu = si.uarfcnList (i - 1)) :
    appendUarfcnsFrom si' n i cu st rem uOffset bv = appendUarfcnsFrom si n i cu st rem uOffset bv := by
  induction n generalizing i cu st rem uOffset bv with
  | zero => rfl
  | succ n ih =>
    have hi : i ≤ si.uarfcnLength := by omega
    have hnext : ∀ {cu'}, cu' = si.uarfcnList i →
        (i + 1 = si.uarfcnLength → 0 < i + 1 ∧ cu' = si.uarfcnList (i + 1 - 1)) :=
      fun hcu' _ => ⟨by omega,hcu'⟩
    have hsame : i < si.uarfcnLength → si'.uarfcnList i = si.uarfcnList i := h.uarfcns i
    have hcmp : si'.uarfcnList i = cu ↔ si.uarfcnList i = cu := by
      rcases Nat.lt_or_eq_of_le hi with hlt | heq
      · rw [hsame hlt]
      · obtain ⟨hpos,hlast⟩ := hcu heq
        rw [heq] at hpos hlast ⊢
        have hbehind := h.behind hpos
        rw [h.uarfcns (si.uarfcnLength - 1) (by omega)] at hbehind
        rw [hlast]
        exact hbehind
    rw [appendUarfcnsFrom,appendUarfcnsFrom]
    by_cases hnew : si.uarfcnList i = cu
    · rw [if_neg (not_not.mpr hnew),if_neg (not_not.mpr (hcmp.mpr hnew))]
      exact ih (by omega) (hnext hnew.symm)
    · rw [if_pos hnew,if_pos (mt hcmp.mp hnew),h.tryAddingUarfcn_eq hi]
      cases tryAddingUarfcn si cu i st rem bv with
      | none => rfl
      | some r =>
        obtain ⟨bv',k,rem'⟩ := r
        simp only [h.length]
        by_cases hlt : i < si.uarfcnLength
        · rw [if_pos hlt,if_pos hlt,hsame hlt]
          exact ih (by omega) (hnext rfl)
        · rw [if_neg hlt,if_neg hlt]

theorem SiCommon.Alike.appendUarfcns_eq (h : si.Alike si') {uOffset budget : Nat} {bv : Writer BitValue}
    (hoff : uOffset < 2 ^ 32) (hne : si.uarfcnLength ≠ uOffset) :
    appendUarfcns si' uOffset budget bv = appendUarfcns si uOffset budget bv := by
  have hloop : ∀ bv, appendUarfcnsFrom si' (si.uarfcnLength + 1 - uOffset) uOffset (si'.uarfcnList uOffset) uOffset
      (budget - 7) uOffset bv = appendUarfcnsFrom si (si.uarfcnLength + 1 - uOffset) uOffset
        (si.uarfcnList uOffset) uOffset (budget - 7) uOffset bv := by
    intro bv
    rcases Nat.lt_or_ge uOffset si.uarfcnLength with hlt | hge
    · rw [h.uarfcns _ hlt]
      exact h.appendUarfcnsFrom_eq rfl (fun heq => absurd heq (Nat.ne_of_lt hlt))
    · -- Behind the end of the list the loop has no round.
      rw [show si.uarfcnLength + 1 - uOffset = 0 by omega]
      rfl
  simp only [appendUarfcns,Nat.mod_eq_of_lt hoff,h.length,hloop]

theorem SiCommon.Alike.appendNeighbours_eq (h : si.Alike si') {uOffset eOffset : Nat} {bv : Writer BitValue}
    (hoff : uOffset < 2 ^ 32) :
    appendNeighbours si' uOffset eOffset bv = appendNeighbours si uOffset eOffset bv := by
  have hutran : appendUtranPart si' uOffset bv = appendUtranPart si uOffset bv := by
    unfold appendUtranPart
    rw [h.length]
    by_cases hne : si.uarfcnLength = uOffset
    · simp [hne]
    · simp only [h.appendUarfcns_eq hoff hne]
  have heutran : ∀ bv, appendEutranPart si' eOffset bv = appendEutranPart si eOffset bv := by
    intro bv
    simp only [appendEutranPart,SiCommon.si2qEarfcnCount,appendEarfcn,appendEutranNeibCell,h.neighList]
  simp only [appendNeighbours,hutran,heutran]

end Lists

section Passes

variable {bts : Si2qBts} {si : SiCommon}

def Si2qBts.withLists (bts : Si2qBts) (si : SiCommon) : Si2qBts := { bts with siCommon := si }

def Pass.withLists (pass : Pass) (si : SiCommon) : Pass := { pass with bts := pass.bts.withLists si }

theorem SiCommon.Alike.restOctetsSi2quater_eq (h : bts.siCommon.Alike si) (hoff : bts.uOffset < 2 ^ 32) :
    restOctetsSi2quater (bts.withLists si) =
      (restOctetsSi2quater bts).map (Option.map fun r => (r.1,r.2.withLists si)) := by
  unfold restOctetsSi2quater
  by_cases hcount : bts.si2qCount < bts.si2qIndex
  · rw [if_pos hcount,if_pos (show (bts.withLists si).si2qCount < (bts.withLists si).si2qIndex from hcount)]
    rfl
  · rw [if_neg hcount,if_neg (show ¬ (bts.withLists si).si2qCount < (bts.withLists si).si2qIndex from hcount)]
    have hsame : ∀ bv, appendNeighbours si bts.uOffset bts.eOffset bv =
        appendNeighbours bts.siCommon bts.uOffset bts.eOffset bv := fun bv => h.appendNeighbours_eq hoff
    simp only [Si2qBts.withLists,hsame]
    cases appendNeighbours bts.siCommon bts.uOffset bts.eOffset
      (Writer.put .empty (si2qHead bts.si2qIndex bts.si2qCount)) with
    | error e => rfl
    | ok r => rfl

theorem restOctetsSi2quater_some {next : Si2qBts} {bv : Writer BitValue}
    (hlen : bts.siCommon.uarfcnLength ≤ maxEarfcnList) (hoff : bts.uOffset < 2 ^ 32)
    (h : restOctetsSi2quater bts = .ok (some (bv,next))) :
    next.siCommon = bts.siCommon ∧ next.uOffset < 2 ^ 32 := by
  have hmax : maxEarfcnList = 32 := rfl
  by_cases hcount : bts.si2qCount < bts.si2qIndex
  · simp [restOctetsSi2quater,hcount] at h
  · obtain ⟨bv',heq,-⟩ := restOctetsSi2quater_eq hlen hoff (Nat.le_of_not_lt hcount)
    have hle := nextOffsets_le hlen hoff bts.eOffset
    rw [heq] at h
    cases h
    exact ⟨rfl,by simp only; omega⟩

theorem SiCommon.Alike.makeSi2quatersFrom_eq {counting : Bool} {n : Nat} (h : bts.siCommon.Alike si)
    (hlen : bts.siCommon.uarfcnLength ≤ maxEarfcnList) (hoff : bts.uOffset < 2 ^ 32) :
    makeSi2quatersFrom counting n (bts.withLists si) =
      (makeSi2quatersFrom counting n bts).map fun pass => pass.withLists si := by
  induction n generalizing bts with
  | zero => rfl
  | succ n ih =>
    obtain ⟨hsi,hu,he,hindex,-⟩ := prepare_same counting bts
    have hprepare : (bts.withLists si).prepare counting = (bts.prepare counting).withLists si := by
      unfold Si2qBts.prepare Si2qBts.withLists
      cases counting with
      | true =>
        simp only [if_true]
        split <;> rfl
      | false => rfl
    have hmessage := @SiCommon.Alike.restOctetsSi2quater_eq (bts.prepare counting) si
      (hsi ▸ h) (hu ▸ hoff)
    rw [makeSi2quatersFrom,makeSi2quatersFrom,hprepare,hmessage]
    cases hr : restOctetsSi2quater (bts.prepare counting) with
    | error e => rfl
    | ok r =>
      cases r with
      | none => rfl
      | some r =>
        obtain ⟨bv,next⟩ := r
        obtain ⟨hsi',hoff'⟩ := @restOctetsSi2quater_some (bts.prepare counting) _ _ (by rwa [hsi]) (by rwa [hu]) hr
        have hdone : ((next.withLists si).setRestOctets bv.out).done ↔ (next.setRestOctets bv.out).done := by
          simp only [Si2qBts.done,SiCommon.si2qEarfcnCount,setRestOctets_siCommon,setRestOctets_uOffset,
            setRestOctets_eOffset,Si2qBts.withLists,hsi',hsi,h.length,h.neighList]
        simp only [Except.map,Option.map,ok_bind]
        by_cases hd : (next.setRestOctets bv.out).done
        · rw [if_pos hd,if_pos (hdone.mpr hd)]
          rfl
        · rw [if_neg hd,if_neg (mt hdone.mp hd)]
          have hrest := @ih { next.setRestOctets bv.out with si2qIndex := (next.setRestOctets bv.out).si2qIndex + 1 }
            (by rw [setRestOctets_siCommon,hsi',hsi]; exact h)
            (by rw [setRestOctets_siCommon,hsi',hsi]; exact hlen) hoff'
          have hnext : { (next.withLists si).setRestOctets bv.out with
              si2qIndex := ((next.withLists si).setRestOctets bv.out).si2qIndex + 1 } =
            { next.setRestOctets bv.out with
              si2qIndex := (next.setRestOctets bv.out).si2qIndex + 1 }.withLists si := rfl
          rw [hnext,hrest]
          cases makeSi2quatersFrom counting n
            { next.setRestOctets bv.out with si2qIndex := (next.setRestOctets bv.out).si2qIndex + 1 } with
          | error e => rfl
          | ok pass => rfl

theorem SiCommon.Alike.si2qNum_eq (h : bts.siCommon.Alike si) (hlen : bts.siCommon.uarfcnLength ≤ maxEarfcnList)
    (hoff : bts.uOffset < 2 ^ 32) :
    si2qNum (bts.withLists si) = (si2qNum bts).map fun r => (r.1.withLists si,r.2) := by
  have hpass : makeSi2quaters (bts.withLists si) true =
      (makeSi2quaters bts true).map fun pass => pass.withLists si :=
    @SiCommon.Alike.makeSi2quatersFrom_eq { bts with si2qIndex := 0 } si true _ h hlen hoff
  unfold si2qNum
  rw [hpass]
  cases makeSi2quaters bts true with
  | error e => rfl
  | ok pass => rfl

end Passes

end OsmoBsc.Si.Si2q
