import OsmoBsc.Lib.Fsm
import OsmoBsc.Si.Packing
import Mathlib.Tactic.IntervalCases
set_option autoImplicit false

/-! The multirate configuration IE: the check of a set of AMR modes and its coding. -/

namespace OsmoBsc.Codec
open EventFsm
open Si (Octets)

structure AmrMode where
  mode : BitVec 8
  threshold : BitVec 8
  hysteresis : BitVec 8
  deriving DecidableEq, Repr

/-- What `gsm48_multirate_config` complains about; all but the assertion are -EINVAL. -/
inductive MultirateError where
  | modeOrder
  | duplicateModes
  | tooManyModes
  | noMode
  | excessiveThreshold
  | excessiveHysteresis
  | noModeDefined
  | assertion
  deriving DecidableEq, Repr

def MultirateError.text : MultirateError → String
  | .modeOrder => "BUG: Multirate codec with inconsistant config (mode order)."
  | .duplicateModes => "BUG: Multirate codec with inconsistant config (duplicate modes)."
  | .tooManyModes => "BUG: Multirate codec with too many modes in config."
  | .noMode => "BUG: Multirate codec with no mode in config."
  | .excessiveThreshold => "BUG: Multirate codec with excessive threshold values."
  | .excessiveHysteresis => "BUG: Multirate codec with excessive hysteresis values."
  | .noModeDefined => "BUG: Multirate codec with inconsistant config (no mode defined)."
  | .assertion => "Assert failed m <= 4"

/-- The modes are in order, without duplicates. -/
def checkOrder : List AmrMode → Except MultirateError Unit
  | m :: m' :: modes =>
    if m'.mode < m.mode then .error .modeOrder
    else if m.mode = m'.mode then .error .duplicateModes
    else checkOrder (m' :: modes)
  | _ => .ok ()

def activeModes (set : BitVec 8) : List Nat := (List.range 8).filter set.getLsbD

def checkExcess : List AmrMode → Except MultirateError Unit
  | [] => .ok ()
  | m :: modes =>
    if 64 ≤ m.threshold.toNat then .error .excessiveThreshold
    else if 16 ≤ m.hysteresis.toNat then .error .excessiveHysteresis
    else checkExcess modes

/-- The descriptions of these modes, `modes_selected`. -/
def selectModes (modes : List AmrMode) : List Nat → Except MultirateError (List AmrMode)
  | [] => .ok []
  | i :: is =>
    if ∀ m ∈ modes, m.mode.toNat ≠ i then .error .noModeDefined
    else do
      let selected ← selectModes modes is
      return modes.filter (·.mode.toNat = i) ++ selected

/-- The output buffer, from what it held. -/
def composeLv (lv mrConf : Octets) (num : Nat) (selected : List AmrMode) : Octets :=
  let mode := fun k => selected.getD k ⟨0,0,0⟩
  let lv := Function.update lv 0 (if num = 1 then 2 else BitVec.ofNat 8 (num + 2))
  let lv := Function.update lv 1 (mrConf 0)
  let lv := Function.update lv 2 (mrConf 1)
  if num = 1 then lv
  else
    let lv := Function.update lv 3 ((mode 0).threshold &&& 0x3f)
    let lv := Function.update lv 4 ((mode 0).hysteresis <<< 4)
    if num = 2 then lv
    else
      let lv := Function.update lv 4 (lv 4 ||| (((mode 1).threshold &&& 0x3f) >>> 2))
      let lv := Function.update lv 5 ((mode 1).threshold <<< 6)
      let lv := Function.update lv 5 (lv 5 ||| (((mode 1).hysteresis &&& 0x0f) <<< 2))
      if num = 3 then lv
      else
        let lv := Function.update lv 5 (lv 5 ||| (((mode 2).threshold &&& 0x3f) >>> 4))
        let lv := Function.update lv 6 ((mode 2).threshold <<< 4)
        Function.update lv 6 (lv 6 ||| ((mode 2).hysteresis &&& 0x0f))

/-- `gsm48_multirate_config`; without an output buffer nothing is composed. -/
def gsm48MultirateConfig (lv : Option Octets) (mrConf : Octets) (modes : List AmrMode) :
    Except MultirateError (Option Octets) := do
  checkOrder modes
  let num := (activeModes (mrConf 1)).length
  if 4 < num then throw .tooManyModes
  if num < 1 then throw .noMode
  checkExcess modes
  let selected ← selectModes modes (activeModes (mrConf 1))
  if 4 < selected.length then throw .assertion
  return lv.map fun lv => composeLv lv mrConf num selected

/-- What a multirate configuration says: the octet of the version and the flags, the active set, and
threshold and hysteresis between each two of its modes. -/
structure MultirateConf where
  version : BitVec 8
  set : BitVec 8
  steps : List (Nat × Nat)
  deriving DecidableEq, Repr

/-- The reading of an LV, of which each step between two modes takes 10 bits. -/
def decodeMultirateConf (lv : Octets) : MultirateConf where
  version := lv 1
  set := lv 2
  steps := (List.range ((activeModes (lv 2)).length - 1)).map fun k =>
    (lv.field (26 + 10 * k) 6,lv.field (32 + 10 * k) 4)

def described (set : BitVec 8) (modes : List AmrMode) : List AmrMode :=
  modes.filter fun m => set.getLsbD m.mode.toNat

structure Configurable (set : BitVec 8) (modes : List AmrMode) : Prop where
  increasing : modes.Pairwise fun m m' => m.mode < m'.mode
  size : 1 ≤ (activeModes set).length ∧ (activeModes set).length ≤ 4
  covered : ∀ i ∈ activeModes set, ∃ m ∈ modes, m.mode.toNat = i
  small : ∀ m ∈ modes, m.threshold.toNat < 64 ∧ m.hysteresis.toNat < 16

section Checks

variable {modes : List AmrMode} {set : BitVec 8}

theorem mem_activeModes {i : Nat} : i ∈ activeModes set ↔ set.getLsbD i = true := by
  rw [activeModes,List.mem_filter,List.mem_range,and_iff_right_iff_imp]
  exact BitVec.lt_of_getLsbD

theorem checkOrder_eq_ok (modes : List AmrMode) :
    checkOrder modes = .ok () ↔ modes.Pairwise fun m m' => m.mode < m'.mode := by
  induction modes with
  | nil => exact iff_of_true rfl .nil
  | cons m modes ih =>
    cases modes with
    | nil => exact iff_of_true rfl (List.pairwise_singleton ..)
    | cons m' modes =>
      have hfirst : (m' :: modes).Pairwise (fun m m' => m.mode < m'.mode) →
          ((∀ n ∈ m' :: modes, m.mode < n.mode) ↔ m.mode < m'.mode) := by
        intro hp
        constructor
        · intro h
          exact h m' (List.mem_cons_self ..)
        · intro h n hn
          cases hn with
          | head => exact h
          | tail _ hn => exact BitVec.lt_trans h ((List.pairwise_cons.mp hp).1 n hn)
      rw [checkOrder,List.pairwise_cons]
      by_cases hlt : m'.mode < m.mode
      · rw [if_pos hlt]
        refine iff_of_false (by simp) fun h => ?_
        exact absurd ((hfirst h.2).mp h.1) (BitVec.not_lt.mpr (BitVec.le_of_lt hlt))
      rw [if_neg hlt]
      by_cases heq : m.mode = m'.mode
      · rw [if_pos heq]
        refine iff_of_false (by simp) fun h => ?_
        exact absurd ((hfirst h.2).mp h.1) (heq ▸ BitVec.lt_irrefl _)
      rw [if_neg heq,ih]
      constructor
      · intro hp
        exact ⟨(hfirst hp).mpr (BitVec.lt_of_le_ne (BitVec.not_lt.mp hlt) heq),hp⟩
      · exact And.right

theorem checkExcess_eq_ok (modes : List AmrMode) :
    checkExcess modes = .ok () ↔ ∀ m ∈ modes, m.threshold.toNat < 64 ∧ m.hysteresis.toNat < 16 := by
  induction modes with
  | nil => exact iff_of_true rfl (List.forall_mem_nil _)
  | cons m modes ih =>
    rw [checkExcess,List.forall_mem_cons,← ih]
    by_cases ht : 64 ≤ m.threshold.toNat
    · rw [if_pos ht]
      exact iff_of_false (by simp) fun h => by omega
    rw [if_neg ht]
    by_cases hh : 16 ≤ m.hysteresis.toNat
    · rw [if_pos hh]
      exact iff_of_false (by simp) fun h => by omega
    rw [if_neg hh]
    exact (and_iff_right ⟨by omega,by omega⟩).symm

theorem selectModes_eq_ok {is : List Nat} {selected : List AmrMode} : selectModes modes is = .ok selected ↔
    (∀ i ∈ is, ∃ m ∈ modes, m.mode.toNat = i) ∧
      selected = is.flatMap fun i => modes.filter (·.mode.toNat = i) := by
  induction is generalizing selected with
  | nil =>
    rw [selectModes,and_iff_right (List.forall_mem_nil _)]
    constructor
    · intro h
      cases h
      rfl
    · rintro rfl
      rfl
  | cons i is ih =>
    rw [selectModes,List.forall_mem_cons,List.flatMap_cons]
    by_cases hi : ∀ m ∈ modes, m.mode.toNat ≠ i
    · rw [if_pos hi]
      refine iff_of_false (by simp) ?_
      rintro ⟨⟨⟨m,hm,he⟩,-⟩,-⟩
      exact hi m hm he
    rw [if_neg hi]
    push Not at hi
    simp only [bind_eq_ok,ih]
    constructor
    · rintro ⟨rest,⟨hcov,rfl⟩,h⟩
      cases h
      exact ⟨⟨hi,hcov⟩,rfl⟩
    · rintro ⟨⟨-,hcov⟩,rfl⟩
      exact ⟨_,⟨hcov,rfl⟩,rfl⟩

theorem selected_eq (h : modes.Pairwise fun m m' => m.mode < m'.mode) :
    ((activeModes set).flatMap fun i => modes.filter (·.mode.toNat = i)) = described set modes := by
  have hirrefl : ∀ a b : AmrMode, a.mode < b.mode → ¬ b.mode < a.mode :=
    fun _ _ hab => BitVec.not_lt.mpr (BitVec.le_of_lt hab)
  have hleft : ((activeModes set).flatMap fun i => modes.filter (·.mode.toNat = i)).Pairwise
      fun m m' => m.mode < m'.mode := by
    rw [List.pairwise_flatMap]
    refine ⟨fun i _ => h.filter _,(List.pairwise_lt_range.filter _).imp fun hij m hm m' hm' => ?_⟩
    simp only [List.mem_filter,decide_eq_true_eq] at hm hm'
    rw [BitVec.lt_def,hm.2,hm'.2]
    exact hij
  have hnodup : ∀ {l : List AmrMode}, l.Pairwise (fun m m' => m.mode < m'.mode) → l.Nodup := by
    intro l hl
    refine hl.imp fun hab he => ?_
    subst he
    exact BitVec.lt_irrefl _ hab
  have hright : (described set modes).Pairwise fun m m' => m.mode < m'.mode := h.filter _
  refine List.Perm.eq_of_pairwise (fun a b _ _ hab hba => absurd hba (hirrefl a b hab)) hleft hright ?_
  refine (List.perm_ext_iff_of_nodup (hnodup hleft) (hnodup hright)).mpr fun m => ?_
  simp only [described,List.mem_flatMap,List.mem_filter,decide_eq_true_eq,mem_activeModes]
  constructor
  · rintro ⟨i,hi,hm,rfl⟩
    exact ⟨hm,hi⟩
  · rintro ⟨hm,hi⟩
    exact ⟨_,hi,hm,rfl⟩

theorem described_modes (h : modes.Pairwise fun m m' => m.mode < m'.mode)
    (hcov : ∀ i ∈ activeModes set, ∃ m ∈ modes, m.mode.toNat = i) :
    (described set modes).map (·.mode.toNat) = activeModes set := by
  have hleft : ((described set modes).map (·.mode.toNat)).Pairwise (· < ·) := by
    rw [List.pairwise_map]
    exact (h.filter _).imp fun hab => BitVec.lt_def.mp hab
  have hright : (activeModes set).Pairwise (· < ·) := List.pairwise_lt_range.filter _
  have hnodup : ∀ {l : List Nat}, l.Pairwise (· < ·) → l.Nodup := fun hl => hl.imp Nat.ne_of_lt
  refine List.Perm.eq_of_pairwise (fun a b _ _ hab hba => by omega) hleft hright ?_
  refine (List.perm_ext_iff_of_nodup (hnodup hleft) (hnodup hright)).mpr fun i => ?_
  simp only [described,List.mem_map,List.mem_filter]
  constructor
  · rintro ⟨m,⟨-,hm⟩,rfl⟩
    exact mem_activeModes.mpr hm
  · intro hi
    obtain ⟨m,hm,rfl⟩ := hcov i hi
    exact ⟨m,⟨hm,mem_activeModes.mp hi⟩,rfl⟩

theorem described_length (h : Configurable set modes) :
    (described set modes).length = (activeModes set).length := by
  rw [← described_modes h.increasing h.covered,List.length_map]

theorem gsm48MultirateConfig_eq_ok {lv r : Option Octets} {mrConf : Octets} :
    gsm48MultirateConfig lv mrConf modes = .ok r ↔ Configurable (mrConf 1) modes ∧
      r = lv.map fun lv => composeLv lv mrConf (activeModes (mrConf 1)).length (described (mrConf 1) modes) := by
  unfold gsm48MultirateConfig
  constructor
  · intro h
    obtain ⟨⟨⟩,horder,h⟩ := bind_eq_ok.mp h
    dsimp only at h
    by_cases hmany : 4 < (activeModes (mrConf 1)).length
    · rw [if_pos hmany] at h
      cases h
    by_cases hno : (activeModes (mrConf 1)).length < 1
    · rw [if_neg hmany,if_pos hno] at h
      cases h
    rw [if_neg hmany,if_neg hno] at h
    simp only [bind_eq_ok] at h
    obtain ⟨⟨⟩,hexcess,selected,hsel,h⟩ := h
    have hinc := (checkOrder_eq_ok modes).mp horder
    obtain ⟨hcov,hsel⟩ := selectModes_eq_ok.mp hsel
    rw [selected_eq hinc] at hsel
    subst hsel
    refine ⟨⟨hinc,by omega,hcov,(checkExcess_eq_ok modes).mp hexcess⟩,?_⟩
    split at h
    · cases h
    · cases h
      rfl
  · rintro ⟨hc,rfl⟩
    have hsel : selectModes modes (activeModes (mrConf 1)) = .ok (described (mrConf 1) modes) :=
      selectModes_eq_ok.mpr ⟨hc.covered,(selected_eq hc.increasing).symm⟩
    have hlen := described_length hc
    have hsize := hc.size
    rw [(checkOrder_eq_ok modes).mpr hc.increasing,ok_bind]
    dsimp only
    rw [if_neg (by omega),if_neg (by omega),(checkExcess_eq_ok modes).mpr hc.small]
    simp only [ok_bind,hsel]
    rw [if_neg (by omega)]
    rfl

end Checks

section Coding

variable {lv mrConf o : Octets} {num : Nat} {selected : List AmrMode}

theorem composeLv_head (lv mrConf : Octets) (hnum : 1 ≤ num ∧ num ≤ 4) (selected : List AmrMode) :
    composeLv lv mrConf num selected 0 = (if num = 1 then 2 else BitVec.ofNat 8 (num + 2))
      ∧ composeLv lv mrConf num selected 1 = mrConf 0 ∧ composeLv lv mrConf num selected 2 = mrConf 1 := by
  obtain ⟨h1,h4⟩ := hnum
  interval_cases num <;> simp [composeLv]

theorem composeLv_steps (lv mrConf : Octets) (hnum : 2 ≤ num ∧ num ≤ 4) (selected : List AmrMode) (mode : Nat → AmrMode)
    (hmode : ∀ k, mode k = selected.getD k ⟨0,0,0⟩) :
    composeLv lv mrConf num selected 3 = (mode 0).threshold &&& 0x3f
      ∧ composeLv lv mrConf num selected 4 =
        ((mode 0).hysteresis <<< 4 ||| if 3 ≤ num then ((mode 1).threshold &&& 0x3f) >>> 2 else 0)
      ∧ (3 ≤ num → composeLv lv mrConf num selected 5 =
        ((mode 1).threshold <<< 6 ||| ((mode 1).hysteresis &&& 0x0f) <<< 2
          ||| if 4 ≤ num then ((mode 2).threshold &&& 0x3f) >>> 4 else 0))
      ∧ (4 ≤ num → composeLv lv mrConf num selected 6 =
        ((mode 2).threshold <<< 4 ||| ((mode 2).hysteresis &&& 0x0f))) := by
  obtain ⟨h2,h4⟩ := hnum
  simp only [hmode]
  interval_cases num <;> simp [composeLv]

theorem composeLv_fields (lv mrConf : Octets) (selected : List AmrMode) {k : Nat} (hk : k + 1 < num) (hnum : num ≤ 4)
    (hthr : (selected.getD k ⟨0,0,0⟩).threshold.toNat < 64)
    (hhyst : (selected.getD k ⟨0,0,0⟩).hysteresis.toNat < 16) :
    (composeLv lv mrConf num selected).field (26 + 10 * k) 6 = (selected.getD k ⟨0,0,0⟩).threshold.toNat
      ∧ (composeLv lv mrConf num selected).field (32 + 10 * k) 4 = (selected.getD k ⟨0,0,0⟩).hysteresis.toNat := by
  have hk2 : k < 3 := by omega
  obtain ⟨o3,o4,o5,o6⟩ := composeLv_steps lv mrConf ⟨by omega,hnum⟩ selected _ fun k => rfl
  generalize composeLv lv mrConf num selected = o at o3 o4 o5 o6
  generalize selected.getD = mode at o3 o4 o5 o6 hthr hhyst
  constructor
  · refine Octets.field_eq hthr fun t ht => ?_
    rw [BitVec.testBit_toNat]
    interval_cases k
    · interval_cases t <;> simp [Octets.bit,o3]
    · rw [if_pos (by omega)] at o4
      replace o5 := o5 (by omega)
      split at o5
      all_goals interval_cases t <;> simp [Octets.bit,o4,o5]
    · replace o5 := o5 (by omega)
      replace o6 := o6 (by omega)
      rw [if_pos (by omega)] at o5
      interval_cases t <;> simp [Octets.bit,o5,o6]
  · refine Octets.field_eq hhyst fun t ht => ?_
    rw [BitVec.testBit_toNat]
    interval_cases k
    · split at o4
      all_goals interval_cases t <;> simp [Octets.bit,o4]
    · replace o5 := o5 (by omega)
      split at o5
      all_goals interval_cases t <;> simp [Octets.bit,o5]
    · replace o6 := o6 (by omega)
      interval_cases t <;> simp [Octets.bit,o6]

theorem decodeMultirateConf_congr {set : BitVec 8} (hset : o 2 = set) (hsize : (activeModes set).length ≤ 4)
    {o' : Octets} (h : ∀ i ≤ if (activeModes set).length ≤ 1 then 2 else (activeModes set).length + 2, o' i = o i) :
    decodeMultirateConf o' = decodeMultirateConf o := by
  have h2 : ∀ i ≤ 2, o' i = o i := by
    intro i hi
    refine h i ?_
    split <;> omega
  have hbit : ∀ n, n / 8 ≤ (activeModes set).length + 2 → 1 < (activeModes set).length → o'.bit n = o.bit n := by
    intro n hn h1
    rw [Octets.bit,Octets.bit,h (n / 8) (by rw [if_neg (by omega)]; exact hn)]
  unfold decodeMultirateConf
  rw [h2 1 (by omega),h2 2 (by omega),hset]
  congr 1
  refine List.map_congr_left fun k hk => ?_
  rw [List.mem_range] at hk
  rw [Octets.field_congr fun t ht => hbit (26 + 10 * k + t) (by omega) (by omega),
    Octets.field_congr fun t ht => hbit (32 + 10 * k + t) (by omega) (by omega)]

end Coding

/-- A configuration is coded if and only if it is in order, and the coding is read back. -/
theorem multirateConfig_roundTrip (lv : Option Octets) (mrConf : Octets) (modes : List AmrMode) :
    ((∃ r, gsm48MultirateConfig lv mrConf modes = .ok r) ↔ Configurable (mrConf 1) modes)
    ∧ ∀ buf, gsm48MultirateConfig lv mrConf modes = .ok (some buf) →
      (buf 0).toNat ≤ 6 ∧ ∀ o : Octets, (∀ i ≤ (buf 0).toNat, o i = buf i) →
        decodeMultirateConf o =
          { version := mrConf 0, set := mrConf 1,
            steps := ((described (mrConf 1) modes).take ((activeModes (mrConf 1)).length - 1)).map
              fun m => (m.threshold.toNat,m.hysteresis.toNat) } := by
  constructor
  · constructor
    · rintro ⟨r,h⟩
      exact (gsm48MultirateConfig_eq_ok.mp h).1
    · intro h
      exact ⟨_,gsm48MultirateConfig_eq_ok.mpr ⟨h,rfl⟩⟩
  · intro buf h
    obtain ⟨hc,hbuf⟩ := gsm48MultirateConfig_eq_ok.mp h
    obtain ⟨lv,-,rfl⟩ := Option.map_eq_some_iff.mp hbuf.symm
    have hsize := hc.size
    have hlen := described_length hc
    obtain ⟨h0,hversion,hset⟩ := composeLv_head lv mrConf hsize (described (mrConf 1) modes)
    have hn0 : (composeLv lv mrConf (activeModes (mrConf 1)).length (described (mrConf 1) modes) 0).toNat =
        if (activeModes (mrConf 1)).length ≤ 1 then 2 else (activeModes (mrConf 1)).length + 2 := by
      rw [h0]
      by_cases h1 : (activeModes (mrConf 1)).length = 1
      · rw [if_pos h1,if_pos (by omega)]
        rfl
      · rw [if_neg h1,if_neg (by omega),BitVec.toNat_ofNat]
        omega
    refine ⟨by rw [hn0]; split <;> omega,fun o ho => ?_⟩
    rw [decodeMultirateConf_congr hset hsize.2 fun i hi => ho i (hn0 ▸ hi)]
    simp only [decodeMultirateConf,hversion,hset]
    congr 1
    refine List.ext_getElem (by simp [hlen]) fun k hk hk' => ?_
    simp only [List.length_map,List.length_range] at hk
    have hmem : k < (described (mrConf 1) modes).length := by omega
    have hget : (described (mrConf 1) modes).getD k ⟨0,0,0⟩ = (described (mrConf 1) modes)[k] :=
      List.getD_eq_getElem _ _ hmem
    have hsmall := hc.small _ (List.mem_filter.mp (List.getElem_mem hmem)).1
    obtain ⟨hthr,hhyst⟩ := composeLv_fields lv mrConf (described (mrConf 1) modes)
      (show k + 1 < (activeModes (mrConf 1)).length by omega) hsize.2 (hget ▸ hsmall.1) (hget ▸ hsmall.2)
    rw [List.getElem_map,List.getElem_map,List.getElem_range,List.getElem_take,hthr,hhyst,hget]

def fourModes : List AmrMode := [⟨2,11,15⟩,⟨4,12,12⟩,⟨5,13,8⟩,⟨7,0,0⟩]

def fourModesConf : Octets := fun i => if i = 0 then 0x20 else 0xb4

theorem multirateConfig_roundTrip_four :
    ∃ buf, gsm48MultirateConfig (some fun _ => 0) fourModesConf fourModes = .ok (some buf)
      ∧ decodeMultirateConf buf = ⟨0x20,0xb4,[(11,15),(12,12),(13,8)]⟩ := by
  obtain ⟨r,hr⟩ := (multirateConfig_roundTrip (some fun _ => 0) fourModesConf fourModes).1.mpr
    ⟨by decide,by decide,by decide,by decide⟩
  obtain ⟨buf,rfl⟩ : ∃ buf, r = some buf := ⟨_,(gsm48MultirateConfig_eq_ok.mp hr).2⟩
  refine ⟨buf,hr,?_⟩
  rw [((multirateConfig_roundTrip _ _ _).2 buf hr).2 buf fun _ _ => rfl]
  decide

end OsmoBsc.Codec
