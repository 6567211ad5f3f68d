import OsmoBsc.Si.Si2quater
set_option autoImplicit false

namespace OsmoBsc.Si.Si2q
open EventFsm Cursor

section Lengths

@[simp] theorem bitvecSetUint_length (value bits : Nat) : (bitvecSetUint value bits).length = bits := by
  simp [bitvecSetUint]

theorem appendUtranFdd_length (u length : Nat) (chanList : Octets) :
    (appendUtranFdd u length chanList).length = 21 + range1024P length + 1 := by
  simp [appendUtranFdd]
  omega

theorem Earfcn.bits_length (e : Earfcn) : (e.bits.length : Int) = e.budget := by
  cases h : e.measBw <;> simp [bits,budget,optionalUint,h]

@[simp] theorem si2qHead_length (index count : Nat) : (si2qHead index count).length = 18 := by
  simp [si2qHead]

end Lengths

section Fdds

variable {si : SiCommon}

/-- What the loop of `append_uarfcns` writes with a budget of `rem` bits: descriptions of
the UARFCNs from place `st` to place `uo`, each with all of its scrambling codes. -/
inductive Fdds (si : SiCommon) : (rem st uo : Nat) → List BitValue → Prop where
  | stop {rem st : Nat} : Fdds si rem st st []
  | group {rem st i uo : Nat} {chanList : Octets} {bits : List BitValue} (hlt : st < i)
      (hlen : i ≤ si.uarfcnLength) (hsame : ∀ j, st ≤ j → j < i → si.uarfcnList j = si.uarfcnList st)
      (hend : si.uarfcnList i ≠ si.uarfcnList st) (hok : f0Helper (si.codes st i) = .ok chanList) (hfits : 21 + range1024P (i - st) < rem)
      (hrest : Fdds si (rem - (21 + range1024P (i - st))) i uo bits) :
      Fdds si rem st uo (appendUtranFdd (si.uarfcnList st) (i - st) chanList ++ bits)

theorem Fdds.bounds {rem st uo : Nat} {bits : List BitValue} (h : Fdds si rem st uo bits) :
    st ≤ uo ∧ (uo = st ∨ uo ≤ si.uarfcnLength) := by
  induction h with
  | stop => exact ⟨Nat.le_refl _,.inl rfl⟩
  | group hlt hlen _ _ _ _ _ ih => omega

@[simp] theorem codes_length (si : SiCommon) (st i : Nat) : (si.codes st i).length = i - st := by
  simp [SiCommon.codes]

theorem tryAddingUarfcn_eq (uarfcn numSc startPos budget : Nat) :
    (∀ bv, tryAddingUarfcn si uarfcn numSc startPos budget bv = none)
    ∨ ∃ chanList, f0Helper (si.codes startPos numSc) = .ok chanList
      ∧ 21 + range1024P (numSc - startPos) < budget
      ∧ ∀ bv, tryAddingUarfcn si uarfcn numSc startPos budget bv =
        some (bv.put (appendUtranFdd uarfcn (numSc - startPos) chanList),numSc - startPos,
          budget - (21 + range1024P (numSc - startPos))) := by
  unfold tryAddingUarfcn
  by_cases hlow : budget < 23
  · simp [hlow]
  · cases hok : f0Helper (si.codes startPos numSc) with
    | error e => simp [hok]
    | ok chanList =>
      by_cases hfits : budget ≤ 21 + range1024P (numSc - startPos)
      · simp [hlow,hfits,hok]
      · right
        simp [hlow,hfits,hok]
        omega

theorem appendUarfcnsFrom_fdds {n i st rem : Nat} (hn : n = si.uarfcnLength + 1 - i) (hle : st ≤ i)
    (hsame : ∀ j, st ≤ j → j < i → si.uarfcnList j = si.uarfcnList st) :
    ∃ bits uo, Fdds si rem st uo bits
      ∧ ∀ bv, appendUarfcnsFrom si n i (si.uarfcnList st) st rem st bv = (bv.put bits,uo) := by
  induction n generalizing i st rem with
  | zero => exact ⟨[],st,.stop,by simp [appendUarfcnsFrom]⟩
  | succ n ih =>
    by_cases hnew : si.uarfcnList i ≠ si.uarfcnList st
    · have hlt : st < i := by
        rcases Nat.lt_or_ge st i with h | h
        · exact h
        · rw [show i = st by omega] at hnew
          exact absurd rfl hnew
      obtain hfail | ⟨chanList,hok,hfits,htry⟩ := @tryAddingUarfcn_eq si (si.uarfcnList st) i st rem
      · exact ⟨[],st,.stop,by simp [appendUarfcnsFrom,hnew,hfail]⟩
      · by_cases hend : i < si.uarfcnLength
        · obtain ⟨bits,uo,hfdds,heq⟩ := @ih (i + 1) i
            (rem - (21 + range1024P (i - st))) (by omega) (by omega)
            (fun j h1 h2 => by rw [show j = i by omega])
          refine ⟨_,uo,.group hlt (by omega) hsame hnew hok hfits hfdds,fun bv => ?_⟩
          rw [appendUarfcnsFrom,if_pos hnew,htry]
          simp only [if_pos hend]
          rw [show st + (i - st) = i by omega,heq,Writer.put_put]
        · refine ⟨_,i,.group hlt (by omega) hsame hnew hok hfits .stop,fun bv => ?_⟩
          rw [appendUarfcnsFrom,if_pos hnew,htry]
          simp only [if_neg hend,List.append_nil]
          rw [show st + (i - st) = i by omega]
    · obtain ⟨bits,uo,hfdds,heq⟩ := @ih (i + 1) st rem (by omega) (by omega)
        (fun j h1 h2 => by
          rcases Nat.lt_or_ge j i with h | h
          · exact hsame j h1 h
          · rw [show j = i by omega]
            exact not_not.mp hnew)
      refine ⟨bits,uo,hfdds,fun bv => ?_⟩
      rw [appendUarfcnsFrom,if_neg hnew,heq]

/-- What can be left of the budget of `append_uarfcns` after `m` UARFCNs, with a flag for
one of them that has more than 16 scrambling codes. -/
def remainders : (m : Nat) → List (Nat × Bool)
  | 0 => [(132,false)]
  | m + 1 => (remainders m).flatMap fun r =>
    (((List.range 17).filter fun k => 1 ≤ k && 21 + range1024P k < r.1).map fun k =>
      (r.1 - (21 + range1024P k),r.2)) ++ if !r.2 && 21 < r.1 then [(r.1 - 21,true)] else []

theorem remainders_group {m rem k : Nat} {long : Bool} (h : (rem,long) ∈ remainders m) (h1 : 1 ≤ k)
    (hk : k ≤ 16) (hfits : 21 + range1024P k < rem) :
    (rem - (21 + range1024P k),long) ∈ remainders (m + 1) := by
  refine List.mem_flatMap.mpr ⟨_,h,List.mem_append_left _ (List.mem_map.mpr ⟨k,?_,rfl⟩)⟩
  simp [h1,hfits]
  omega

theorem remainders_long {m rem : Nat} (h : (rem,false) ∈ remainders m) (hfits : 21 < rem) :
    (rem - 21,true) ∈ remainders (m + 1) := by
  refine List.mem_flatMap.mpr ⟨_,h,List.mem_append_right _ ?_⟩
  simp [hfits]

theorem remainders_nil (m : Nat) : remainders (m + 5) = [] := by
  induction m with
  | zero => decide +kernel
  | succ m ih => rw [show m + 1 + 5 = m + 5 + 1 by omega,remainders,ih,List.flatMap_nil]

/-- There is a bit left for each UARFCN, by the sizes p(n) that fit together. -/
theorem remainders_le {m : Nat} {r : Nat × Bool} (h : r ∈ remainders m) : m ≤ r.1 := by
  have hsmall : ∀ m < 5, ∀ r ∈ remainders m, m ≤ r.1 := by decide +kernel
  rcases Nat.lt_or_ge m 5 with hm | hm
  · exact hsmall m hm r h
  · obtain ⟨m,rfl⟩ : ∃ m', m = m' + 5 := ⟨m - 5,by omega⟩
    rw [remainders_nil] at h
    cases h

theorem range1024P_long {k : Nat} (h : 17 ≤ k) : range1024P k = 0 := by
  obtain ⟨k,rfl⟩ : ∃ k', k = k' + 17 := ⟨k - 17,by omega⟩
  rfl

/-- The bit by which each UARFCN is longer than what is counted for it is left over. -/
theorem Fdds.length_le {rem st uo m : Nat} {long : Bool} {bits : List BitValue} (h : Fdds si rem st uo bits)
    (hlen : si.uarfcnLength ≤ maxEarfcnList) (hrem : (rem,long) ∈ remainders m)
    (hlong : long = true → 17 ≤ st) : bits.length + m ≤ rem := by
  unfold maxEarfcnList at hlen
  induction h generalizing m long with
  | stop =>
    have h := remainders_le hrem
    simpa using h
  | @group rem st i uo chanList bits hlt hi _ _ _ hfits _ ih =>
    rw [List.length_append,appendUtranFdd_length]
    by_cases hk : i - st ≤ 16
    · have h := ih (remainders_group hrem (by omega) hk hfits) (fun hl => by have := hlong hl; omega)
      omega
    · have hp := range1024P_long (show 17 ≤ i - st by omega)
      rw [hp] at hfits ih ⊢
      cases long with
      | true =>
        have := hlong rfl
        omega
      | false =>
        have h := ih (remainders_long hrem hfits) (fun _ => by omega)
        omega

end Fdds

section Earfcns

/-- The loop over the EARFCNs keeps to its budget and writes the same bits wherever it
starts to write. -/
theorem appendEarfcns_eq (es : List Earfcn) {rem : Int} (eOffset : Nat) (hrem : 0 ≤ rem) :
    ∃ n ≤ es.length, (((es.take n).flatMap Earfcn.bits).length : Int) ≤ rem
      ∧ ∀ bv, appendEarfcns es rem eOffset bv = (bv.put ((es.take n).flatMap Earfcn.bits),eOffset + n) := by
  induction es generalizing rem eOffset with
  | nil => exact ⟨0,by simp,by simpa using hrem,by simp [appendEarfcns]⟩
  | cons e es ih =>
    by_cases hfits : rem - e.budget < 0
    · exact ⟨0,by simp,by simpa using hrem,by simp [appendEarfcns,hfits]⟩
    · obtain ⟨n,hn,hle,heq⟩ := @ih (rem - e.budget) (eOffset + 1) (by omega)
      have hbits := e.bits_length
      refine ⟨n + 1,by simpa using hn,?_,fun bv => ?_⟩
      · simp only [List.take_succ_cons,List.flatMap_cons,List.length_append]
        omega
      · simp only [appendEarfcns,if_neg hfits,heq,Writer.put_put,List.take_succ_cons,List.flatMap_cons]
        rw [show eOffset + 1 + n = eOffset + (n + 1) by omega]

def EarfcnSi2q.params (e : EarfcnSi2q) : List BitValue :=
  List.flatten [[.zero],optionalUint e.prio 3,bitvecSetUint e.threshHi 5,optionalUint e.threshLo 5,
    optionalUint e.qrxlm 5]

theorem EarfcnSi2q.adjustBudget_eq (e : EarfcnSi2q) (budget : Nat) :
    e.adjustBudget budget + e.params.length = budget := by
  cases hp : e.prio <;> cases hl : e.threshLo <;> cases hq : e.qrxlm
    <;> simp [adjustBudget,params,optionalUint,hp,hl,hq] <;> omega

variable (si : SiCommon) (eOffset : Nat)

theorem appendEutranNeibCell_eq {budget : Nat} (hbudget : budget ≤ si2qMaxLen) :
    (∀ bv, appendEutranNeibCell si eOffset budget bv = .ok none)
    ∨ ∃ n ≤ (si.si2quaterNeighList.entries.drop eOffset).length,
      let bits := ((si.si2quaterNeighList.entries.drop eOffset).take n).flatMap Earfcn.bits
        ++ si.si2quaterNeighList.params
      bits.length ≤ budget
        ∧ ∀ bv, appendEutranNeibCell si eOffset budget bv = .ok (some (bv.put bits,eOffset + n)) := by
  unfold appendEutranNeibCell
  by_cases hlow : budget ≤ 6
  · simp [hlow]
  · have hrem := si.si2quaterNeighList.adjustBudget_eq budget
    generalize hadj : si.si2quaterNeighList.adjustBudget budget = rem at hrem
    simp only [hlow,if_false,not_lt.mpr hbudget,hadj]
    by_cases hneg : rem < 0
    · simp [hneg]
    · obtain ⟨n,hn,hle,heq⟩ := appendEarfcns_eq (si.si2quaterNeighList.entries.drop eOffset)
        eOffset (not_lt.mp hneg)
      refine .inr ⟨n,hn,?_,fun bv => ?_⟩
      · rw [List.length_append]
        omega
      · simp only [hneg,if_false,heq,Writer.put_put]
        simp [EarfcnSi2q.params]

/-- `append_earfcn` writes nothing, or the next `n` EARFCNs with what belongs to them, and
keeps to its budget. -/
theorem appendEarfcn_eq {budget : Nat} (hbudget : budget ≤ si2qMaxLen) :
    (∃ peak ≤ budget, ∀ bv, ∃ bv', appendEarfcn si eOffset budget bv = .ok (bv',eOffset)
      ∧ bv'.out = bv.out ∧ bv'.peak = max bv.peak (bv.cur + peak))
    ∨ ∃ n ≤ (si.si2quaterNeighList.entries.drop eOffset).length,
      let bits := eutranHead ++ ((si.si2quaterNeighList.entries.drop eOffset).take n).flatMap Earfcn.bits
        ++ si.si2quaterNeighList.params ++ eutranTail
      bits.length ≤ budget ∧ ∀ bv, appendEarfcn si eOffset budget bv = .ok (bv.put bits,eOffset + n) := by
  unfold appendEarfcn
  by_cases hlow : budget - 25 = 0
  · refine .inl ⟨0,by omega,fun bv => ⟨bv,by simp [hlow],rfl,?_⟩⟩
    exact (Nat.max_eq_left bv.length_le_peak).symm
  · simp only [hlow,if_false,not_lt.mpr hbudget]
    have hhead : eutranHead.length = 19 := rfl
    obtain hnone | ⟨n,hn,hle,hsome⟩ := @appendEutranNeibCell_eq si eOffset (budget - 25) (by omega)
    · refine .inl ⟨19,by omega,fun bv => ⟨_,by simp only [hnone]; rfl,?_,?_⟩⟩
      · simp
      · simp [hhead]
    · refine .inr ⟨n,hn,?_,fun bv => ?_⟩
      · have htail : eutranTail.length = 6 := rfl
        simp only [List.length_append] at hle ⊢
        omega
      · simp only [hsome]
        simp [bind,Except.bind]

end Earfcns

section Message

variable {si : SiCommon} {uOffset eOffset uo eo : Nat}

/-- The 3G part of a message that takes the UARFCNs from `uOffset` to `uo`. -/
inductive Utran (si : SiCommon) (uOffset : Nat) : (uo : Nat) → List BitValue → Prop where
  | absent (h : si.uarfcnLength = uOffset) : Utran si uOffset uOffset [.zero]
  | present {uo : Nat} {bits : List BitValue} (h : si.uarfcnLength ≠ uOffset) (hfdds : Fdds si 132 uOffset uo bits) :
      Utran si uOffset uo (utranHead ++ bits ++ [BitValue.zero,.zero])

/-- The E-UTRAN part of a message that takes the EARFCNs from `eOffset` to `eo`. -/
inductive Eutran (si : SiCommon) (eOffset : Nat) : (eo : Nat) → List BitValue → Prop where
  | absent (h : si.si2qEarfcnCount = eOffset) : Eutran si eOffset eOffset [.l]
  | noRoom : Eutran si eOffset eOffset []
  | present {n : Nat} (hn : n ≤ (si.si2quaterNeighList.entries.drop eOffset).length) :
      Eutran si eOffset (eOffset + n) (eutranHead
        ++ ((si.si2quaterNeighList.entries.drop eOffset).take n).flatMap Earfcn.bits
        ++ si.si2quaterNeighList.params ++ eutranTail)

theorem Utran.bounds {bits : List BitValue} (h : Utran si uOffset uo bits) :
    uOffset ≤ uo ∧ (uo = uOffset ∨ uo ≤ si.uarfcnLength) := by
  cases h with
  | absent h => exact ⟨Nat.le_refl _,.inl rfl⟩
  | present h hfdds => exact hfdds.bounds

theorem Utran.length_le {bits : List BitValue} (h : Utran si uOffset uo bits)
    (hlen : si.uarfcnLength ≤ maxEarfcnList) : bits.length ≤ 139 := by
  cases h with
  | absent h => simp
  | present h hfdds =>
    have hrem : (132,false) ∈ remainders 0 := by decide +kernel
    have hle := hfdds.length_le hlen hrem (by simp)
    have hhead : utranHead.length = 5 := rfl
    simp only [List.length_append,hhead,List.length_cons,List.length_nil]
    omega

theorem appendUtranPart_eq (si : SiCommon) (hoff : uOffset < 2 ^ 32) :
    ∃ uo bits, Utran si uOffset uo bits
      ∧ ∀ bv, bv.cur = 18 → appendUtranPart si uOffset bv = .ok (bv.put bits,uo) := by
  by_cases hend : si.uarfcnLength = uOffset
  · exact ⟨_,_,.absent hend,fun bv _ => by simp [appendUtranPart,hend]⟩
  · obtain ⟨bits,uo,hfdds,heq⟩ := @appendUarfcnsFrom_fdds si _ uOffset uOffset 132 rfl
      (Nat.le_refl _) (fun j h1 h2 => by omega)
    refine ⟨uo,_,.present hend hfdds,fun bv hcur => ?_⟩
    simp only [appendUtranPart,hcur,si2qMaxLen,appendUarfcns,Nat.mod_eq_of_lt hoff,heq]
    simp [hend]

theorem appendEutranPart_eq (si : SiCommon) (eOffset : Nat) {cur : Nat} (hcur : cur < si2qMaxLen) :
    ∃ eo bits peak, Eutran si eOffset eo bits ∧ bits.length ≤ peak ∧ cur + peak ≤ si2qMaxLen
      ∧ ∀ bv, bv.cur = cur → ∃ bv', appendEutranPart si eOffset bv = .ok (bv',eo)
        ∧ bv'.out = bv.out ++ bits ∧ bv'.peak = max bv.peak (bv.cur + peak) := by
  unfold appendEutranPart
  by_cases hend : si.si2qEarfcnCount = eOffset
  · refine ⟨_,_,1,.absent hend,by simp,by omega,fun bv _ => ⟨bv.put [.l],?_,rfl,rfl⟩⟩
    simp [hend]
  · have hpos : 0 < si2qMaxLen - cur := by omega
    obtain ⟨peak,hpeak,h⟩ | ⟨n,hn,hle,h⟩ := @appendEarfcn_eq si eOffset (si2qMaxLen - cur) (by omega)
    · refine ⟨_,_,peak,.noRoom,by simp,by omega,fun bv hbv => ?_⟩
      obtain ⟨bv',heq,hout,hp⟩ := h bv
      exact ⟨bv',by simp [hbv,hpos,hend,heq],by simpa using hout,hp⟩
    · refine ⟨_,_,_,.present hn,Nat.le_refl _,by omega,fun bv hbv => ⟨bv.put _,?_,rfl,rfl⟩⟩
      simp only [hbv,hpos,ne_eq,hend,not_false_eq_true,and_self,if_true]
      exact h bv

/-- What follows the start of a message is the same in every message with these offsets,
and it ends within the rest octets. -/
theorem appendNeighbours_eq (hlen : si.uarfcnLength ≤ maxEarfcnList) (hoff : uOffset < 2 ^ 32) (eOffset : Nat) :
    ∃ uo eo utran eutran peak, Utran si uOffset uo utran ∧ Eutran si eOffset eo eutran ∧ peak ≤ si2qMaxLen
      ∧ ∀ bv, bv.cur = 18 → bv.peak = 18 → ∃ bv', appendNeighbours si uOffset eOffset bv = .ok (bv',uo,eo)
        ∧ bv'.out = bv.out ++ (utran ++ [BitValue.zero,.zero] ++ eutran) ∧ bv'.peak = peak := by
  obtain ⟨uo,utran,hutran,hu⟩ := appendUtranPart_eq si hoff
  have hle := hutran.length_le hlen
  have hmax : si2qMaxLen = 160 := rfl
  obtain ⟨eo,eutran,peak,heutran,hpeak,hbudget,he⟩ :=
    @appendEutranPart_eq si eOffset (18 + utran.length + 2) (by omega)
  refine ⟨uo,eo,utran,eutran,18 + utran.length + 2 + peak,hutran,heutran,hbudget,fun bv hcur hp => ?_⟩
  obtain ⟨bv',heq,hout,hp'⟩ := he ((bv.put utran).put [.zero,.zero]) (by simp [hcur,Nat.add_assoc])
  refine ⟨bv',?_,by simp [hout],?_⟩
  · simp only [appendNeighbours,hu bv hcur,ok_bind,heq]
  · rw [hp']
    simp only [Writer.put_peak,Writer.put_cur,hcur,hp,List.length_cons,List.length_nil]
    omega

/-- A call of `rest_octets_si2quater` that takes the neighbours up to `uo` and `eo`. -/
structure Message (bts : Si2qBts) (uo eo : Nat) (bv : Writer BitValue) : Prop where
  content : ∃ utran eutran, Utran bts.siCommon bts.uOffset uo utran ∧ Eutran bts.siCommon bts.eOffset eo eutran
    ∧ bv.out = si2qHead bts.si2qIndex bts.si2qCount ++ (utran ++ [BitValue.zero,.zero] ++ eutran)
  peak : bv.peak ≤ si2qMaxLen

variable {bts : Si2qBts}

theorem Message.bounds {uo eo : Nat} {bv : Writer BitValue} (h : Message bts uo eo bv) :
    bts.uOffset ≤ uo ∧ (uo = bts.uOffset ∨ uo ≤ bts.siCommon.uarfcnLength) ∧ bts.eOffset ≤ eo := by
  obtain ⟨utran,eutran,hutran,heutran,-⟩ := h.content
  refine ⟨hutran.bounds.1,hutran.bounds.2,?_⟩
  cases heutran <;> omega

/-- The offsets after a message that starts at the offsets `o`, which do not depend on its
number. -/
def SiCommon.nextOffsets (si : SiCommon) (o : Nat × Nat) : Nat × Nat :=
  match appendNeighbours si o.1 o.2 (Writer.put .empty (si2qHead 0 0)) with
  | .ok (_,next) => next
  | .error _ => o

theorem nextOffsets_eq (hlen : si.uarfcnLength ≤ maxEarfcnList) (hoff : uOffset < 2 ^ 32) (eOffset : Nat) :
    let next := si.nextOffsets (uOffset,eOffset)
    ∃ utran eutran peak, Utran si uOffset next.1 utran ∧ Eutran si eOffset next.2 eutran ∧ peak ≤ si2qMaxLen
      ∧ ∀ bv, bv.cur = 18 → bv.peak = 18 → ∃ bv', appendNeighbours si uOffset eOffset bv = .ok (bv',next)
        ∧ bv'.out = bv.out ++ (utran ++ [BitValue.zero,.zero] ++ eutran) ∧ bv'.peak = peak := by
  obtain ⟨uo,eo,utran,eutran,peak,hutran,heutran,hpeak,h⟩ := appendNeighbours_eq hlen hoff eOffset
  have hnext : si.nextOffsets (uOffset,eOffset) = (uo,eo) := by
    obtain ⟨bv,heq,-⟩ := h (Writer.put .empty (si2qHead 0 0)) (by simp [Writer.cur]) (by simp [Writer.cur])
    simp only [SiCommon.nextOffsets,heq]
  rw [hnext]
  exact ⟨utran,eutran,peak,hutran,heutran,hpeak,h⟩

theorem nextOffsets_le (hlen : si.uarfcnLength ≤ maxEarfcnList) (hoff : uOffset < 2 ^ 32) (eOffset : Nat) :
    (si.nextOffsets (uOffset,eOffset)).1 ≤ max uOffset maxEarfcnList := by
  obtain ⟨utran,-,-,hutran,-⟩ := nextOffsets_eq hlen hoff eOffset
  have h := hutran.bounds
  omega

theorem restOctetsSi2quater_eq (hlen : bts.siCommon.uarfcnLength ≤ maxEarfcnList) (hoff : bts.uOffset < 2 ^ 32)
    (hcount : bts.si2qIndex ≤ bts.si2qCount) :
    let next := bts.siCommon.nextOffsets (bts.uOffset,bts.eOffset)
    ∃ bv, restOctetsSi2quater bts = .ok (some (bv,{ bts with uOffset := next.1, eOffset := next.2 }))
      ∧ Message bts next.1 next.2 bv := by
  obtain ⟨utran,eutran,peak,hutran,heutran,hpeak,h⟩ := nextOffsets_eq hlen hoff bts.eOffset
  obtain ⟨bv,heq,hout,hp⟩ := h (Writer.put .empty (si2qHead bts.si2qIndex bts.si2qCount)) (by simp [Writer.cur])
    (by simp [Writer.cur])
  refine ⟨bv,?_,⟨⟨utran,eutran,hutran,heutran,hout⟩,hp ▸ hpeak⟩⟩
  simp only [restOctetsSi2quater,if_neg (not_lt.mpr hcount),heq,ok_bind]

end Message

section Passes

def Visit.offsets (v : Visit) : Nat × Nat := (v.uOffset,v.eOffset)

/-- There is nothing left behind the offsets `o`. -/
def SiCommon.covers (si : SiCommon) (o : Nat × Nat) : Bool :=
  si.uarfcnLength ≤ o.1 && si.si2qEarfcnCount ≤ o.2

/-- The offsets at which `n` messages start, as far as they are needed. -/
def SiCommon.rounds (si : SiCommon) : (n : Nat) → Nat × Nat → List (Nat × Nat)
  | 0, _ => []
  | n + 1, o => o :: if si.covers (si.nextOffsets o) then [] else si.rounds n (si.nextOffsets o)

/-- Whether `n` messages are enough. -/
def SiCommon.fits (si : SiCommon) : (n : Nat) → Nat × Nat → Bool
  | 0, _ => false
  | n + 1, o => si.covers (si.nextOffsets o) || si.fits n (si.nextOffsets o)

/-- What a pass over `n` messages from the state `s` comes to. -/
structure PassSpec (counting : Bool) (n : Nat) (s : Si2qBts) (pass : Pass) : Prop where
  visits : pass.visits.map Visit.offsets = s.siCommon.rounds n (s.uOffset,s.eOffset)
  peak : ∀ v ∈ pass.visits, v.peak ≤ si2qMaxLen
  rc : pass.rc = if s.siCommon.fits n (s.uOffset,s.eOffset) then .ok 20 else .error .enomem
  index : pass.bts.si2qIndex + (s.siCommon.fits n (s.uOffset,s.eOffset)).toNat
    = s.si2qIndex + (s.siCommon.rounds n (s.uOffset,s.eOffset)).length
  count : counting = false → pass.bts.si2qCount = s.si2qCount
  siCommon : pass.bts.siCommon = s.siCommon
  uOffset : pass.bts.uOffset < 2 ^ 32

theorem done_iff (s : Si2qBts) : s.done ↔ s.siCommon.covers (s.uOffset,s.eOffset) = true := by
  simp [Si2qBts.done,SiCommon.covers]

theorem prepare_same (counting : Bool) (s : Si2qBts) :
    (s.prepare counting).siCommon = s.siCommon ∧ (s.prepare counting).uOffset = s.uOffset
      ∧ (s.prepare counting).eOffset = s.eOffset ∧ (s.prepare counting).si2qIndex = s.si2qIndex
      ∧ (counting = false → (s.prepare counting).si2qCount = s.si2qCount) := by
  unfold Si2qBts.prepare
  split
  · split <;> simp_all
  · simp

theorem prepare_ready {counting : Bool} {s : Si2qBts} (h : counting = false → s.si2qIndex ≤ s.si2qCount) :
    (s.prepare counting).si2qIndex ≤ (s.prepare counting).si2qCount := by
  unfold Si2qBts.prepare
  split
  · split
    · exact Nat.le_refl _
    · omega
  · rename_i hc
    exact h (by simpa using hc)

section SetRestOctets

variable (s : Si2qBts) (bits : List BitValue)

@[simp] theorem setRestOctets_siCommon : (s.setRestOctets bits).siCommon = s.siCommon := rfl

@[simp] theorem setRestOctets_uOffset : (s.setRestOctets bits).uOffset = s.uOffset := rfl

@[simp] theorem setRestOctets_eOffset : (s.setRestOctets bits).eOffset = s.eOffset := rfl

@[simp] theorem setRestOctets_si2qIndex : (s.setRestOctets bits).si2qIndex = s.si2qIndex := rfl

@[simp] theorem setRestOctets_si2qCount : (s.setRestOctets bits).si2qCount = s.si2qCount := rfl

end SetRestOctets

/-- What is the same after message `si2q_index` of a pass. -/
structure AfterMessage (counting : Bool) (s next : Si2qBts) : Prop where
  siCommon : next.siCommon = s.siCommon
  offsets : s.siCommon.nextOffsets (s.uOffset,s.eOffset) = (next.uOffset,next.eOffset)
  si2qIndex : next.si2qIndex = s.si2qIndex
  si2qCount : counting = false → next.si2qCount = s.si2qCount
  siBuf : next.siBuf = (s.prepare counting).siBuf

theorem restOctetsSi2quater_prepare {counting : Bool} {s : Si2qBts}
    (hlen : s.siCommon.uarfcnLength ≤ maxEarfcnList) (hoff : s.uOffset < 2 ^ 32)
    (hcount : counting = false → s.si2qIndex ≤ s.si2qCount) :
    ∃ bv next, restOctetsSi2quater (s.prepare counting) = .ok (some (bv,next))
      ∧ Message (s.prepare counting) next.uOffset next.eOffset bv ∧ AfterMessage counting s next
      ∧ next.uOffset < 2 ^ 32 := by
  obtain ⟨hsi,hu,he,hindex,hkept⟩ := prepare_same counting s
  obtain ⟨bv,heq,hmsg⟩ := @restOctetsSi2quater_eq (s.prepare counting) (by rwa [hsi]) (by rwa [hu])
    (prepare_ready hcount)
  refine ⟨bv,_,heq,hmsg,⟨hsi,?_,hindex,hkept,rfl⟩,?_⟩
  · rw [hsi,hu,he]
  · have hlt := nextOffsets_le hlen hoff s.eOffset
    have hmax : maxEarfcnList = 32 := rfl
    simp only [hsi,hu,he]
    omega

/-- Both kinds of passes go by the same rounds, if `si2q_count` is high enough for one
that does not count. -/
theorem makeSi2quatersFrom_spec {counting : Bool} {n : Nat} {s : Si2qBts}
    (hlen : s.siCommon.uarfcnLength ≤ maxEarfcnList) (hoff : s.uOffset < 2 ^ 32)
    (hcount : counting = false →
      s.si2qIndex + (s.siCommon.rounds n (s.uOffset,s.eOffset)).length ≤ s.si2qCount + 1) :
    ∃ pass, makeSi2quatersFrom counting n s = .ok pass ∧ PassSpec counting n s pass := by
  induction n generalizing s with
  | zero => exact ⟨_,rfl,⟨rfl,by simp,rfl,rfl,fun _ => rfl,rfl,hoff⟩⟩
  | succ n ih =>
    obtain ⟨-,hu,he,-⟩ := prepare_same counting s
    obtain ⟨bv,next,heq,hmsg,hafter,hlt⟩ := @restOctetsSi2quater_prepare counting s hlen hoff
      (fun hc => by
        have := hcount hc
        rw [SiCommon.rounds,List.length_cons] at this
        omega)
    simp only [makeSi2quatersFrom,heq,ok_bind]
    cases hcov : s.siCommon.covers (next.uOffset,next.eOffset) with
    | true =>
      have hdone : (next.setRestOctets bv.out).done := by
        rw [done_iff]
        simpa [hafter.siCommon] using hcov
      rw [if_pos hdone]
      refine ⟨_,rfl,⟨?_,?_,?_,?_,hafter.si2qCount,hafter.siCommon,hlt⟩⟩
      · simp [SiCommon.rounds,hafter.offsets,hcov,Visit.offsets,hu,he]
      · simpa using hmsg.peak
      · simp [SiCommon.fits,hafter.offsets,hcov]
      · simp [SiCommon.fits,SiCommon.rounds,hafter.offsets,hcov,hafter.si2qIndex]
    | false =>
      have hdone : ¬ (next.setRestOctets bv.out).done := by
        rw [done_iff]
        simpa [hafter.siCommon] using hcov
      rw [if_neg hdone]
      have hrounds : s.siCommon.rounds (n + 1) (s.uOffset,s.eOffset) =
          (s.uOffset,s.eOffset) :: s.siCommon.rounds n (next.uOffset,next.eOffset) := by
        simp [SiCommon.rounds,hafter.offsets,hcov]
      have hfits : s.siCommon.fits (n + 1) (s.uOffset,s.eOffset) =
          s.siCommon.fits n (next.uOffset,next.eOffset) := by
        simp [SiCommon.fits,hafter.offsets,hcov]
      obtain ⟨pass,hpass,hspec⟩ := ih
        (s := { next.setRestOctets bv.out with si2qIndex := (next.setRestOctets bv.out).si2qIndex + 1 })
        (by simpa [hafter.siCommon] using hlen) hlt (fun hc => by
          have := hcount hc
          rw [hrounds,List.length_cons] at this
          simp only [setRestOctets_siCommon,setRestOctets_uOffset,setRestOctets_eOffset,setRestOctets_si2qIndex,
            setRestOctets_si2qCount,hafter.siCommon,hafter.si2qIndex,hafter.si2qCount hc]
          omega)
      obtain ⟨hvisits,hpeak,hrc,hidx,hcnt,hcommon,hoff'⟩ := hspec
      simp only [setRestOctets_siCommon,setRestOctets_uOffset,setRestOctets_eOffset,setRestOctets_si2qIndex,
        setRestOctets_si2qCount,hafter.siCommon,hafter.si2qIndex] at hvisits hrc hidx hcnt hcommon
      rw [hpass]
      refine ⟨_,rfl,⟨?_,?_,?_,?_,fun hc => (hcnt hc).trans (hafter.si2qCount hc),hcommon,hoff'⟩⟩
      · simp only [List.map_cons,hvisits,hrounds,Visit.offsets,hu,he]
      · simpa using ⟨hmsg.peak,hpeak⟩
      · rw [hfits]
        exact hrc
      · rw [hrounds,hfits,List.length_cons]
        simp only
        omega

theorem rounds_length_le (si : SiCommon) (n : Nat) (o : Nat × Nat) : (si.rounds n o).length ≤ n := by
  induction n generalizing o with
  | zero => exact Nat.le_refl _
  | succ n ih =>
    rw [SiCommon.rounds,List.length_cons]
    split
    · simp
    · have := ih (si.nextOffsets o)
      omega

variable {bts : Si2qBts}

theorem makeSi2quaters_counting (hlen : bts.siCommon.uarfcnLength ≤ maxEarfcnList) (hoff : bts.uOffset < 2 ^ 32) :
    ∃ pass, makeSi2quaters bts true = .ok pass ∧ PassSpec true si2qMaxNum { bts with si2qIndex := 0 } pass :=
  makeSi2quatersFrom_spec hlen hoff (fun h => by cases h)

theorem PassSpec.rounds_le_num {pass : Pass} (h : PassSpec true si2qMaxNum bts pass) (h0 : bts.si2qIndex = 0) :
    (bts.siCommon.rounds si2qMaxNum (bts.uOffset,bts.eOffset)).length ≤ pass.num := by
  have hlen := rounds_length_le bts.siCommon si2qMaxNum (bts.uOffset,bts.eOffset)
  have hmax : si2qMaxNum = 16 := rfl
  have hrc := h.rc
  have hindex := h.index
  unfold Pass.num
  cases hfits : bts.siCommon.fits si2qMaxNum (bts.uOffset,bts.eOffset) with
  | true =>
    rw [hfits] at hrc hindex
    simp only [hrc,if_pos,Bool.toNat_true] at hindex ⊢
    omega
  | false =>
    rw [hfits] at hrc
    simp only [hrc,Bool.false_eq_true,if_false]
    omega

/-- The two passes of `generate_si2quater`. -/
structure TwoPasses (bts : Si2qBts) (counting generating : Pass) : Prop where
  counts : makeSi2quaters { bts with uOffset := 0, eOffset := 0, si2qIndex := 0 } true = .ok counting
  generates : makeSi2quaters
    { counting.bts with uOffset := 0, eOffset := 0, si2qCount := counting.num - 1 } false = .ok generating

theorem twoPasses (hlen : bts.siCommon.uarfcnLength ≤ maxEarfcnList) :
    ∃ counting generating, TwoPasses bts counting generating
      ∧ PassSpec true si2qMaxNum { bts with uOffset := 0, eOffset := 0, si2qIndex := 0 } counting
      ∧ PassSpec false si2qMaxNum { counting.bts with
        uOffset := 0, eOffset := 0, si2qIndex := 0, si2qCount := counting.num - 1 } generating := by
  obtain ⟨counting,hcounts,hc⟩ := @makeSi2quaters_counting
    { bts with uOffset := 0, eOffset := 0, si2qIndex := 0 } hlen (show 0 < 2 ^ 32 by omega)
  have hnum := hc.rounds_le_num rfl
  simp only at hc hnum
  obtain ⟨generating,hgenerates,hg⟩ := @makeSi2quatersFrom_spec false si2qMaxNum
    { counting.bts with uOffset := 0, eOffset := 0, si2qIndex := 0, si2qCount := counting.num - 1 }
    (by simp only [hc.siCommon]; exact hlen) (show 0 < 2 ^ 32 by omega) (fun _ => by
      simp only [hc.siCommon]
      omega)
  exact ⟨counting,generating,⟨hcounts,hgenerates⟩,hc,hg⟩

theorem TwoPasses.generateSi2quater_eq {counting generating : Pass} (h : TwoPasses bts counting generating)
    (hneeded : bts.siCommon.si2quaterNotNeeded = false) :
    generateSi2quater bts = match generating.rc with
      | .error e => .ok (generating.bts,.error e)
      | .ok rc =>
        if generating.bts.si2qCount ≠ generating.bts.si2qIndex then .error .assertFailed
        else if si2qMaxNum < generating.bts.si2qCount then .error .assertFailed
        else .ok (generating.bts,.ok (3 + rc)) := by
  unfold generateSi2quater si2qNum
  rw [if_neg (by simp [hneeded]),h.counts]
  simp only [ok_bind]
  rw [h.generates]
  rfl

section Agree

variable {counting generating : Pass}
  (hc : PassSpec true si2qMaxNum { bts with uOffset := 0, eOffset := 0, si2qIndex := 0 } counting)
  (hg : PassSpec false si2qMaxNum { counting.bts with
    uOffset := 0, eOffset := 0, si2qIndex := 0, si2qCount := counting.num - 1 } generating)

include hc hg

theorem generating_rc :
    generating.rc = if bts.siCommon.fits si2qMaxNum (0,0) then .ok 20 else .error .enomem := by
  have hsi := hc.siCommon
  have hrc := hg.rc
  simp only at hsi
  simpa only [hsi] using hrc

theorem visits_agree : counting.visits.map Visit.offsets = generating.visits.map Visit.offsets := by
  have hsi := hc.siCommon
  have hvg := hg.visits
  simp only at hsi
  simp only [hsi] at hvg
  exact hc.visits.trans hvg.symm

theorem count_agrees (hfits : bts.siCommon.fits si2qMaxNum (0,0) = true) :
    generating.bts.si2qCount = generating.bts.si2qIndex ∧ generating.bts.si2qCount < si2qMaxNum := by
  have hsi := hc.siCommon
  have hindex := hg.index
  have hcount := hg.count rfl
  have hindex' := hc.index
  have hrc' := hc.rc
  simp only at hsi
  simp only [hsi,hfits,Bool.toNat_true,Nat.zero_add,if_true] at hindex hcount hindex' hrc'
  have hle := rounds_length_le bts.siCommon si2qMaxNum (0,0)
  have hnum : counting.num = counting.bts.si2qIndex + 1 := by simp [Pass.num,hrc']
  omega

end Agree

/-- The safety of SI2quater generation from a state that earlier calls left. -/
structure Safe (bts : Si2qBts) : Prop where
  cursor : ∃ r, restOctetsSi2quater bts = .ok r
    ∧ ∀ bv next, r = some (bv,next) → bv.peak ≤ si2qMaxLen ∧ next.uOffset < 2 ^ 32
  passes : ∃ counting generating, TwoPasses bts counting generating
    ∧ counting.visits.map Visit.offsets = generating.visits.map Visit.offsets
    ∧ ∀ v ∈ counting.visits ++ generating.visits, v.peak ≤ si2qMaxLen
  assertions : ∃ r, generateSi2quater bts = .ok r ∧ r.1.uOffset < 2 ^ 32

/-- A BTS that was configured with the given neighbours, with values left by earlier calls. -/
def leftover (uarfcns : List (Nat × Nat)) (earfcns : EarfcnSi2q) (uOffset eOffset si2qCount : Nat) : Si2qBts where
  siCommon :=
    { data := fun i => if i < maxEarfcnList then (uarfcns.map Prod.fst).getD i 0
        else (uarfcns.map Prod.snd).getD (i - maxEarfcnList) 0
      uarfcnLength := uarfcns.length
      si2quaterNeighList := earfcns }
  uOffset := uOffset
  eOffset := eOffset
  si2qIndex := 0
  si2qCount := si2qCount
  siBuf := fun _ => []
  siValid := true

end Passes

end OsmoBsc.Si.Si2q
