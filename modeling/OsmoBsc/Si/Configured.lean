import OsmoBsc.Si.Listing
set_option autoImplicit false

namespace OsmoBsc.Si.Si2q
open EventFsm Cursor

section Memory

variable {si : SiCommon}

def SiCommon.entries (si : SiCommon) : List (Nat × Nat) := si.pairs 0 si.uarfcnLength

@[simp] theorem entries_length (si : SiCommon) : si.entries.length = si.uarfcnLength := by
  simp [SiCommon.entries,SiCommon.pairs]

theorem entries_getElem? (si : SiCommon) (j : Nat) :
    si.entries[j]? = if j < si.uarfcnLength then some (si.uarfcnList j,si.scrambleList j) else none := by
  unfold SiCommon.entries SiCommon.pairs
  rw [List.getElem?_map]
  split
  · rename_i hj
    rw [List.getElem?_range' (by omega)]
    simp
  · rename_i hj
    rw [List.getElem?_eq_none (by simp; omega)]
    rfl

theorem insertAt_entries {i : Nat} (uarfcn code : Nat) (hi : i ≤ si.uarfcnLength)
    (hlen : si.uarfcnLength < maxEarfcnList) :
    (si.insertAt i uarfcn code).entries = si.entries.insertIdx i (uarfcn,code) := by
  have hmax : maxEarfcnList = 32 := rfl
  have hget : ∀ j ≤ si.uarfcnLength,
      (si.insertAt i uarfcn code).uarfcnList j =
        (if j < i then si.uarfcnList j else if j = i then uarfcn else si.uarfcnList (j - 1))
      ∧ (si.insertAt i uarfcn code).scrambleList j =
        (if j < i then si.scrambleList j else if j = i then code else si.scrambleList (j - 1)) := by
    intro j hj
    simp only [SiCommon.insertAt,SiCommon.uarfcnList,SiCommon.scrambleList,Function.update_apply,hmax]
    by_cases hlt : i < si.uarfcnLength
    · simp only [if_pos hlt,memmove]
      constructor <;> split_ifs <;> first | rfl | omega | (congr 1; omega)
    · simp only [if_neg hlt]
      constructor <;> split_ifs <;> first | rfl | omega
  refine List.ext_getElem? fun j => ?_
  rw [entries_getElem?,List.getElem?_insertIdx]
  simp only [entries_getElem?,entries_length]
  have hlength : (si.insertAt i uarfcn code).uarfcnLength = si.uarfcnLength + 1 := rfl
  rw [hlength]
  by_cases hj : j ≤ si.uarfcnLength
  · rw [(hget j hj).1,(hget j hj).2,if_pos (by omega)]
    rcases Nat.lt_trichotomy j i with h | h | h
    · simp [h,show j < si.uarfcnLength by omega]
    · simp [h,hi]
    · simp [show ¬ j < i by omega,show j ≠ i by omega,show j - 1 < si.uarfcnLength by omega]
  · simp [show ¬ j < i by omega,show j ≠ i by omega,show ¬ j < si.uarfcnLength + 1 by omega,
      show ¬ j - 1 < si.uarfcnLength by omega]

/-- The tail moves down by one place, if what moves is not a full list. -/
theorem removeAt_entries {pos : Nat} (hpos : pos < si.uarfcnLength)
    (hlen : pos + 1 = si.uarfcnLength ∨ si.uarfcnLength < maxEarfcnList) (hle : si.uarfcnLength ≤ maxEarfcnList) :
    (si.removeAt pos).entries = si.entries.eraseIdx pos := by
  have hmax : maxEarfcnList = 32 := rfl
  have hget : ∀ j < si.uarfcnLength - 1,
      (si.removeAt pos).uarfcnList j = (if j < pos then si.uarfcnList j else si.uarfcnList (j + 1))
      ∧ (si.removeAt pos).scrambleList j = (if j < pos then si.scrambleList j else si.scrambleList (j + 1)) := by
    intro j hj
    simp only [SiCommon.removeAt,SiCommon.uarfcnList,SiCommon.scrambleList,hmax]
    by_cases hlt : pos ≠ si.uarfcnLength - 1
    · simp only [if_pos hlt,memmove]
      constructor <;> split_ifs <;> first | rfl | omega | (congr 1; omega)
    · simp only [if_neg hlt]
      constructor <;> split_ifs <;> first | rfl | omega
  refine List.ext_getElem? fun j => ?_
  rw [entries_getElem?,List.getElem?_eraseIdx]
  simp only [entries_getElem?]
  have hlength : (si.removeAt pos).uarfcnLength = si.uarfcnLength - 1 := rfl
  rw [hlength]
  by_cases hj : j < si.uarfcnLength - 1
  · rw [(hget j hj).1,(hget j hj).2,if_pos hj]
    by_cases h : j < pos
    · simp [h,show j < si.uarfcnLength by omega]
    · simp [h,show j + 1 < si.uarfcnLength by omega]
  · simp [hj,show ¬ j < pos by omega,show ¬ j + 1 < si.uarfcnLength by omega]

end Memory

section Positions

variable {si : SiCommon} {uarfcn scramble pos : Nat}

/-- The entry that `uarfcn_sc_pos` looks for, with or without diversity. -/
def isCell (uarfcn scramble : Nat) (p : Nat × Nat) : Bool :=
  uarfcn == p.1 && (encodeFdd scramble false == p.2 || encodeFdd scramble true == p.2)

def cellKey (p : Nat × Nat) : Nat × Nat := (p.1,p.2 % 512)

theorem encodeFdd_eq (h : scramble < 512) (diversity : Bool) :
    encodeFdd scramble diversity = scramble + if diversity then 512 else 0 := by
  have hall : ∀ n < 512, n ||| 1 <<< 9 = n + 512 := by decide +kernel
  cases diversity with
  | false => rfl
  | true => exact hall scramble h

theorem isCell_iff {p : Nat × Nat} (h : scramble < 512) (hp : p.2 < 1024) :
    isCell uarfcn scramble p = true ↔ cellKey p = (uarfcn,scramble) := by
  simp only [isCell,cellKey,encodeFdd_eq h,Bool.and_eq_true,Bool.or_eq_true,beq_iff_eq,Prod.mk.injEq]
  constructor
  · rintro ⟨rfl,h2⟩
    refine ⟨rfl,?_⟩
    rcases h2 with h2 | h2 <;> simp at h2 <;> omega
  · rintro ⟨rfl,h2⟩
    refine ⟨rfl,?_⟩
    simp
    omega

theorem uarfcnScPos_eq (h : scramble < 512) :
    si.uarfcnScPos uarfcn scramble = (List.range si.uarfcnLength).find? fun i =>
      isCell uarfcn scramble (si.uarfcnList i,si.scrambleList i) := by
  have hbound : ¬ scBound ≤ scramble := by
    unfold scBound
    omega
  simp [SiCommon.uarfcnScPos,isCell,hbound]

theorem mem_entries {p : Nat × Nat} :
    p ∈ si.entries ↔ ∃ i < si.uarfcnLength, (si.uarfcnList i,si.scrambleList i) = p := by
  simp [SiCommon.entries,SiCommon.pairs,← List.range_eq_range']

theorem uarfcnScPos_none (h : scramble < 512) (hnone : si.uarfcnScPos uarfcn scramble = none) {p : Nat × Nat}
    (hp : p ∈ si.entries) : isCell uarfcn scramble p = false := by
  rw [uarfcnScPos_eq h,List.find?_eq_none] at hnone
  obtain ⟨i,hi,rfl⟩ := mem_entries.mp hp
  simpa using hnone i (List.mem_range.mpr hi)

theorem uarfcnScPos_lt (h : si.uarfcnScPos uarfcn scramble = some pos) : pos < si.uarfcnLength :=
  List.mem_range.mp (List.mem_of_find?_eq_some h)

theorem uarfcnScPos_some (h : scramble < 512) (hsome : si.uarfcnScPos uarfcn scramble = some pos) :
    ∃ p, si.entries[pos]? = some p ∧ isCell uarfcn scramble p = true := by
  have hlt := uarfcnScPos_lt hsome
  rw [uarfcnScPos_eq h] at hsome
  refine ⟨(si.uarfcnList pos,si.scrambleList pos),by rw [entries_getElem?,if_pos hlt],?_⟩
  simpa using List.find?_some hsome

theorem uarfcnScPos_unique (h : scramble < 512) {p : Nat × Nat} (hp : si.entries[pos]? = some p)
    (hcell : isCell uarfcn scramble p = true)
    (hother : ∀ i q, i ≠ pos → si.entries[i]? = some q → isCell uarfcn scramble q = false) :
    si.uarfcnScPos uarfcn scramble = some pos := by
  cases hfound : si.uarfcnScPos uarfcn scramble with
  | none =>
    have := uarfcnScPos_none h hfound (List.mem_of_getElem? hp)
    rw [hcell] at this
    cases this
  | some i =>
    obtain ⟨q,hq,hcell'⟩ := uarfcnScPos_some h hfound
    by_cases hi : i = pos
    · rw [hi]
    · rw [hother i q hi hq] at hcell'
      cases hcell'

end Positions

section DryRun

variable {bts : Si2qBts}

/-- `si2q_num` leaves the lists alone and tells whether all of them behind the offsets fits. -/
theorem si2qNum_eq (hlen : bts.siCommon.uarfcnLength ≤ maxEarfcnList) (hoff : bts.uOffset < 2 ^ 32) :
    ∃ next num, si2qNum bts = .ok (next,num) ∧ next.siCommon = bts.siCommon ∧ next.uOffset = 0
      ∧ (num ≤ si2qMaxNum ↔ bts.siCommon.fits si2qMaxNum (bts.uOffset,bts.eOffset) = true) := by
  obtain ⟨pass,hpass,hspec⟩ := makeSi2quaters_counting hlen hoff
  have hle := rounds_length_le bts.siCommon si2qMaxNum (bts.uOffset,bts.eOffset)
  have hmax : si2qMaxNum = 16 := rfl
  have hrc := hspec.rc
  have hindex := hspec.index
  have hsi := hspec.siCommon
  simp only at hrc hindex hsi
  refine ⟨{ pass.bts with uOffset := 0, eOffset := 0 },pass.num,by rw [si2qNum,hpass]; rfl,hsi,rfl,?_⟩
  unfold Pass.num
  cases hfits : bts.siCommon.fits si2qMaxNum (bts.uOffset,bts.eOffset) with
  | true =>
    rw [hfits] at hrc hindex
    simp only [hrc,if_true,Bool.toNat_true] at hindex ⊢
    simp
    omega
  | false =>
    rw [hfits] at hrc
    simp only [hrc,Bool.false_eq_true,if_false]
    simp
    omega

end DryRun

section Runs

inductive Op where
  | add (uarfcn scramble : Nat) (diversity : Bool)
  | del (uarfcn scramble : Nat)
  | generate
  deriving DecidableEq, Repr

/-- A BTS with the pairs that were added and not deleted again, whether the last
`bts_uarfcn_add` was accepted, and whether it found both offsets at 0 with nothing
deleted after it. -/
structure Conf where
  bts : Si2qBts
  configured : List (Nat × Nat) := []
  accepted : Bool := false
  checked : Bool := false

def Conf.step (c : Conf) : Op → Except Fault Conf
  | .add uarfcn scramble diversity => do
    let (bts,rc) ← btsUarfcnAdd c.bts uarfcn scramble diversity
    let checked := c.bts.uOffset == 0 && c.bts.eOffset == 0
    match rc with
    | .ok () => .ok ⟨bts,(uarfcn,encodeFdd scramble diversity) :: c.configured,true,checked⟩
    | .error _ => .ok ⟨bts,c.configured,false,checked⟩
  | .del uarfcn scramble =>
    match btsUarfcnDel c.bts uarfcn scramble with
    | (bts,.ok ()) => .ok
      { c with bts := bts, configured := c.configured.filter fun p => !isCell uarfcn scramble p, checked := false }
    | (bts,.error _) => .ok { c with bts := bts }
  | .generate => do
    let (bts,_) ← generateSi2quater c.bts
    .ok { c with bts := bts }

def Op.ranged : Op → Bool
  | .add uarfcn scramble _ | .del uarfcn scramble => uarfcn < 2 ^ 14 && scramble < 512
  | .generate => true

/-- The operation can move the tail of a list that is full, so that `memmove` goes beyond
its end: a deletion before the last entry, or the rollback of an addition before it. -/
def Op.movesFullList (si : SiCommon) : Op → Bool
  | .add uarfcn _ _ => si.uarfcnLength + 1 == maxEarfcnList && (si.uarfcnScPos uarfcn scBound).isSome
  | .del uarfcn scramble => si.uarfcnLength == maxEarfcnList &&
    (si.uarfcnScPos uarfcn scramble).any fun pos => pos + 1 != si.uarfcnLength
  | .generate => false

def Conf.good (c : Conf) (op : Op) : Prop :=
  op.ranged = true ∧ op.movesFullList c.bts.siCommon = false

instance (c : Conf) (op : Op) : Decidable (c.good op) := inferInstanceAs (Decidable (_ ∧ _))

def Conf.Initial (c : Conf) : Prop :=
  c.bts.siCommon.uarfcnLength = 0 ∧ c.bts.uOffset < 2 ^ 32 ∧ c.configured = [] ∧ c.accepted = false
    ∧ ∀ e ∈ c.bts.siCommon.si2quaterNeighList.entries, e.Valid

/-- What holds of the lists of a BTS in a run. -/
structure Conf.Inv (c : Conf) : Prop where
  length : c.bts.siCommon.uarfcnLength ≤ maxEarfcnList
  uOffset : c.bts.uOffset < 2 ^ 32
  same : ∀ p, p ∈ c.configured ↔ p ∈ c.bts.siCommon.entries
  keys : (c.bts.siCommon.entries.map cellKey).Nodup
  range : ∀ p ∈ c.bts.siCommon.entries, p.1 < 2 ^ 14 ∧ p.2 < 1024
  valid : ∀ e ∈ c.bts.siCommon.si2quaterNeighList.entries, e.Valid
  fits : c.accepted = true → c.checked = true →
    0 < c.bts.siCommon.uarfcnLength ∧ c.bts.siCommon.fits si2qMaxNum (0,0) = true

variable {c c' : Conf}

theorem Conf.Initial.inv (h : c.Initial) : c.Inv := by
  obtain ⟨hlen,hoff,hconf,hacc,hvalid⟩ := h
  have hnil : c.bts.siCommon.entries = [] := List.eq_nil_of_length_eq_zero (by rw [entries_length,hlen])
  refine ⟨by omega,hoff,?_,?_,?_,hvalid,fun h => ?_⟩
  · simp [hconf,hnil]
  · simp [hnil]
  · simp [hnil]
  · rw [hacc] at h
    cases h

theorem Conf.Inv.of_same (h : c.Inv) (hsi : c'.bts.siCommon = c.bts.siCommon) (hu : c'.bts.uOffset < 2 ^ 32)
    (hconf : c'.configured = c.configured)
    (hflags : c'.accepted = true → c'.checked = true → c.accepted = true ∧ c.checked = true) : c'.Inv := by
  obtain ⟨hlen,-,hsame,hkeys,hrange,hvalid,hfits⟩ := h
  rw [← hsi] at hlen hsame hkeys hrange hvalid hfits
  rw [← hconf] at hsame
  refine ⟨hlen,hu,hsame,hkeys,hrange,hvalid,fun ha hc => ?_⟩
  obtain ⟨ha',hc'⟩ := hflags ha hc
  exact hfits ha' hc'

theorem generateSi2quater_kept {bts bts' : Si2qBts} {rc : Except Errno Nat}
    (hlen : bts.siCommon.uarfcnLength ≤ maxEarfcnList) (hoff : bts.uOffset < 2 ^ 32)
    (h : generateSi2quater bts = .ok (bts',rc)) : bts'.siCommon = bts.siCommon ∧ bts'.uOffset < 2 ^ 32 := by
  by_cases hneeded : bts.siCommon.si2quaterNotNeeded = true
  · simp only [generateSi2quater,hneeded,if_true] at h
    cases h
    exact ⟨rfl,hoff⟩
  · obtain ⟨counting,generating,htwo,hc,hg⟩ := twoPasses hlen
    have hsi := hg.siCommon.trans hc.siCommon
    rw [htwo.generateSi2quater_eq (by simpa using hneeded)] at h
    cases hrc : generating.rc with
    | error e =>
      simp only [hrc] at h
      cases h
      exact ⟨hsi,hg.uOffset⟩
    | ok n =>
      simp only [hrc] at h
      split_ifs at h
      cases h
      exact ⟨hsi,hg.uOffset⟩

theorem Conf.Inv.generate (h : c.Inv) (hs : c.step .generate = .ok c') : c'.Inv := by
  obtain ⟨⟨bts,rc⟩,hgen,heq⟩ := bind_eq_ok.mp hs
  cases heq
  obtain ⟨hsi,hu⟩ := generateSi2quater_kept h.length h.uOffset hgen
  exact h.of_same hsi hu rfl (fun ha hc => ⟨ha,hc⟩)

theorem Conf.Inv.place {i j : Nat} {p q : Nat × Nat} (h : c.Inv) (hp : c.bts.siCommon.entries[i]? = some p)
    (hq : c.bts.siCommon.entries[j]? = some q) (hkey : cellKey p = cellKey q) : i = j := by
  refine (List.getElem?_inj ?_ h.keys).mp ?_
  · rw [List.length_map]
    exact (List.getElem?_eq_some_iff.mp hp).1
  · rw [List.getElem?_map,List.getElem?_map,hp,hq,Option.map_some,Option.map_some,hkey]

theorem Conf.Inv.del {uarfcn scramble : Nat} (h : c.Inv) (hg : c.good (.del uarfcn scramble))
    (hs : c.step (.del uarfcn scramble) = .ok c') : c'.Inv := by
  obtain ⟨hranged,hfull⟩ := hg
  have hsc : scramble < 512 := by
    simp [Op.ranged] at hranged
    exact hranged.2
  simp only [step,btsUarfcnDel] at hs
  cases hpos : c.bts.siCommon.uarfcnScPos uarfcn scramble with
  | none =>
    simp only [hpos] at hs
    cases hs
    exact h.of_same rfl h.uOffset rfl (fun ha hc => ⟨ha,hc⟩)
  | some pos =>
    simp only [hpos] at hs
    cases hs
    have hlt := uarfcnScPos_lt hpos
    obtain ⟨p,hp,hcell⟩ := uarfcnScPos_some hsc hpos
    have hentries := removeAt_entries hlt (by
      have hle := h.length
      simp [Op.movesFullList,hpos] at hfull
      omega) h.length
    refine ⟨?_,h.uOffset,?_,?_,?_,h.valid,fun _ hc => by cases hc⟩
    · have hle := h.length
      have hl : (c.bts.siCommon.removeAt pos).uarfcnLength = c.bts.siCommon.uarfcnLength - 1 := rfl
      simp only [hl]
      omega
    · intro q
      simp only [hentries,List.mem_eraseIdx_iff_getElem?,List.mem_filter,Bool.not_eq_true',h.same]
      constructor
      · rintro ⟨hq,hnot⟩
        obtain ⟨i,hi⟩ := List.mem_iff_getElem?.mp hq
        refine ⟨i,?_,hi⟩
        rintro rfl
        rw [hp] at hi
        cases hi
        rw [hcell] at hnot
        cases hnot
      · rintro ⟨i,hi,hq⟩
        have hmem := List.mem_of_getElem? hq
        refine ⟨hmem,?_⟩
        by_contra hcon
        rw [Bool.not_eq_false] at hcon
        rw [isCell_iff hsc (h.range _ (List.mem_of_getElem? hp)).2] at hcell
        rw [isCell_iff hsc (h.range _ hmem).2] at hcon
        exact hi (h.place hq hp (hcon.trans hcell.symm))
    · simp only [hentries]
      exact h.keys.sublist ((List.eraseIdx_sublist ..).map _)
    · intro q hq
      simp only [hentries] at hq
      exact h.range q (List.mem_of_mem_eraseIdx hq)

/-- An addition behind the checks of `bts_uarfcn_add`, before its dry run. -/
structure Inserted (c : Conf) (uarfcn scramble : Nat) (diversity : Bool) (i : Nat) (si : SiCommon) : Prop where
  entries : si.entries = c.bts.siCommon.entries.insertIdx i (uarfcn,encodeFdd scramble diversity)
  length : si.uarfcnLength = c.bts.siCommon.uarfcnLength + 1
  place : i ≤ c.bts.siCommon.uarfcnLength
  neighList : si.si2quaterNeighList = c.bts.siCommon.si2quaterNeighList
  absent : ∀ p ∈ c.bts.siCommon.entries, isCell uarfcn scramble p = false
  full : si.uarfcnLength ≤ maxEarfcnList

theorem Inserted.isCell_new {uarfcn scramble : Nat} (diversity : Bool) :
    isCell uarfcn scramble (uarfcn,encodeFdd scramble diversity) = true := by
  cases diversity <;> simp [isCell]

section Add

variable {uarfcn scramble i : Nat} {diversity : Bool} {si : SiCommon}

theorem Conf.Inv.accept {next : Si2qBts} {checked : Bool} (h : c.Inv)
    (hins : Inserted c uarfcn scramble diversity i si) (hu : uarfcn < 2 ^ 14) (hsc : scramble < 512)
    (hsi : next.siCommon = si) (hoff : next.uOffset < 2 ^ 32)
    (hfits : checked = true → si.fits si2qMaxNum (0,0) = true) :
    Conf.Inv ⟨next,(uarfcn,encodeFdd scramble diversity) :: c.configured,true,checked⟩ := by
  subst hsi
  have hi : i ≤ c.bts.siCommon.entries.length := by
    rw [entries_length]
    exact hins.place
  have hcode : encodeFdd scramble diversity < 1024 := by
    rw [encodeFdd_eq hsc]
    split <;> omega
  have hmem : ∀ p, p ∈ next.siCommon.entries ↔
      p = (uarfcn,encodeFdd scramble diversity) ∨ p ∈ c.bts.siCommon.entries := by
    intro p
    rw [hins.entries,List.mem_insertIdx hi]
  refine ⟨hins.full,hoff,?_,?_,?_,?_,fun _ hc => ⟨?_,hfits hc⟩⟩
  · intro p
    rw [List.mem_cons,h.same,hmem]
  · have hperm := (List.perm_insertIdx (uarfcn,encodeFdd scramble diversity) _ hi).map cellKey
    simp only [hins.entries]
    rw [hperm.nodup_iff,List.map_cons,List.nodup_cons]
    refine ⟨fun hin => ?_,h.keys⟩
    obtain ⟨p,hp,hkey⟩ := List.mem_map.mp hin
    have hnew := @Inserted.isCell_new uarfcn scramble diversity
    rw [isCell_iff hsc hcode,← hkey,← isCell_iff hsc (h.range p hp).2,hins.absent p hp] at hnew
    cases hnew
  · intro p hp
    rcases (hmem p).mp hp with rfl | hp
    · exact ⟨hu,hcode⟩
    · exact h.range p hp
  · intro e he
    simp only [hins.neighList] at he
    exact h.valid e he
  · simp only [hins.length]
    omega

theorem Conf.Inv.reject {next : Si2qBts} {checked : Bool} (h : c.Inv)
    (hins : Inserted c uarfcn scramble diversity i si) (hsc : scramble < 512) (hsi : next.siCommon = si)
    (hoff : next.uOffset < 2 ^ 32) (hroom : i + 1 = si.uarfcnLength ∨ si.uarfcnLength < maxEarfcnList) :
    Conf.Inv ⟨(btsUarfcnDel next uarfcn scramble).1,c.configured,false,checked⟩ := by
  subst hsi
  have hi : i ≤ c.bts.siCommon.entries.length := by
    rw [entries_length]
    exact hins.place
  have hself : next.siCommon.entries[i]? = some (uarfcn,encodeFdd scramble diversity) := by
    rw [hins.entries,List.getElem?_insertIdx_self,if_pos hi]
  have hfound : next.siCommon.uarfcnScPos uarfcn scramble = some i := by
    refine uarfcnScPos_unique hsc hself (Inserted.isCell_new diversity) fun j q hj hq => hins.absent q ?_
    rw [hins.entries] at hq
    rcases Nat.lt_or_gt_of_ne hj with hlt | hgt
    · rw [List.getElem?_insertIdx_of_lt hlt] at hq
      exact List.mem_of_getElem? hq
    · rw [List.getElem?_insertIdx_of_gt hgt] at hq
      exact List.mem_of_getElem? hq
  have hlen := hins.length
  have hplace := hins.place
  have hentries := @removeAt_entries next.siCommon i (by omega) hroom hins.full
  rw [hins.entries,List.eraseIdx_insertIdx_self] at hentries
  have hdel : (btsUarfcnDel next uarfcn scramble).1 = { next with siCommon := next.siCommon.removeAt i } := by
    simp only [btsUarfcnDel,hfound]
  rw [hdel]
  refine ⟨?_,hoff,?_,?_,?_,?_,fun ha => by cases ha⟩
  · have hl : (next.siCommon.removeAt i).uarfcnLength = next.siCommon.uarfcnLength - 1 := rfl
    have hle := h.length
    simp only [hl]
    omega
  · intro p
    simp only [hentries]
    exact h.same p
  · simp only [hentries]
    exact h.keys
  · simp only [hentries]
    exact h.range
  · intro e he
    exact h.valid e (by rw [← hins.neighList]; exact he)

end Add

theorem Conf.Inv.add {uarfcn scramble : Nat} {diversity : Bool} (h : c.Inv)
    (hg : c.good (.add uarfcn scramble diversity)) (hs : c.step (.add uarfcn scramble diversity) = .ok c') :
    c'.Inv := by
  obtain ⟨hranged,hfull⟩ := hg
  obtain ⟨hu,hsc⟩ : uarfcn < 2 ^ 14 ∧ scramble < 512 := by simpa [Op.ranged] using hranged
  obtain ⟨⟨bts,rc⟩,hadd,hs⟩ := bind_eq_ok.mp hs
  unfold btsUarfcnAdd at hadd
  by_cases hmax : c.bts.siCommon.uarfcnLength = maxEarfcnList
  · simp only [hmax,if_true] at hadd
    cases hadd
    cases hs
    exact h.of_same rfl h.uOffset rfl (fun ha => by cases ha)
  · by_cases huse : (c.bts.siCommon.uarfcnScPos uarfcn scramble).isSome = true
    · simp only [hmax,if_false,huse,if_true] at hadd
      cases hadd
      cases hs
      exact h.of_same rfl h.uOffset rfl (fun ha => by cases ha)
    · simp only [hmax,if_false,huse,Bool.false_eq_true] at hadd
      have hle := h.length
      have hnone : c.bts.siCommon.uarfcnScPos uarfcn scramble = none := by simpa using huse
      have hi : (c.bts.siCommon.uarfcnScPos uarfcn scBound).getD c.bts.siCommon.uarfcnLength
          ≤ c.bts.siCommon.uarfcnLength := by
        cases hpos : c.bts.siCommon.uarfcnScPos uarfcn scBound with
        | none => exact Nat.le_refl _
        | some pos => exact Nat.le_of_lt (uarfcnScPos_lt hpos)
      have hroom : (c.bts.siCommon.uarfcnScPos uarfcn scBound).getD c.bts.siCommon.uarfcnLength + 1
          = c.bts.siCommon.uarfcnLength + 1 ∨ c.bts.siCommon.uarfcnLength + 1 < maxEarfcnList := by
        cases hpos : c.bts.siCommon.uarfcnScPos uarfcn scBound with
        | none => exact .inl rfl
        | some pos =>
          simp [Op.movesFullList,hpos] at hfull
          omega
      generalize (c.bts.siCommon.uarfcnScPos uarfcn scBound).getD c.bts.siCommon.uarfcnLength = i
        at hadd hi hroom
      have hins : Inserted c uarfcn scramble diversity i
          (c.bts.siCommon.insertAt i uarfcn (encodeFdd scramble diversity)) :=
        ⟨insertAt_entries _ _ hi (by omega),rfl,hi,rfl,fun p hp => uarfcnScPos_none hsc hnone hp,
          Nat.lt_of_le_of_ne hle hmax⟩
      obtain ⟨next,num,hnum,hsi,hoff,hfits⟩ := @si2qNum_eq
        { c.bts with siCommon := c.bts.siCommon.insertAt i uarfcn (encodeFdd scramble diversity) }
        hins.full h.uOffset
      rw [hnum,ok_bind] at hadd
      by_cases hfit : num ≤ si2qMaxNum
      · simp only [hfit,if_true] at hadd
        cases hadd
        cases hs
        refine h.accept hins hu hsc hsi (by rw [hoff]; omega) (fun hc => ?_)
        rw [Bool.and_eq_true,beq_iff_eq,beq_iff_eq] at hc
        have := hfits.mp hfit
        simpa only [hc.1,hc.2] using this
      · simp only [hfit,if_false] at hadd
        cases hadd
        cases hs
        exact h.reject hins hsc hsi (by omega) hroom

theorem Conf.Inv.reach {c0 c : Conf} (h0 : c0.Initial) (h : Reach Conf.step Conf.good (· = c0) c) : c.Inv := by
  refine Reach.invariant (fun c hc => ?_) (fun c op c' (hinv : c.Inv) hg hs => ?_) h
  · subst hc
    exact h0.inv
  · cases op with
    | add uarfcn scramble diversity => exact hinv.add hg hs
    | del uarfcn scramble => exact hinv.del hg hs
    | generate => exact hinv.generate hs

/-- Generation succeeds, and the messages list each configured pair once and the EARFCNs in
their order. -/
def Conf.Complete (c : Conf) : Prop :=
  ∃ bts, generateSi2quater c.bts = .ok (bts,.ok gsmMacblockLen) ∧ bts.listedFdds.Nodup
    ∧ (∀ p, p ∈ bts.listedFdds ↔ p ∈ c.configured)
    ∧ bts.listedEarfcns = c.bts.siCommon.si2quaterNeighList.entries

theorem Conf.Inv.pairs_nodup (h : c.Inv) {st i : Nat} (hi : i ≤ c.bts.siCommon.uarfcnLength) :
    (c.bts.siCommon.pairs st i).Nodup := by
  have hnd := h.keys.of_map
  rcases Nat.lt_or_ge i st with hlt | hge
  · simp [SiCommon.pairs,show i - st = 0 by omega]
  · rw [SiCommon.entries,← pairs_append (Nat.zero_le i) hi,← pairs_append (Nat.zero_le st) hge] at hnd
    exact (List.nodup_append.mp (List.nodup_append.mp hnd).1).2.1

theorem Conf.Inv.listable (h : c.Inv) (hzero : ∀ p ∈ c.configured, p.2 ≠ 0)
    (hfew : ∀ uarfcn, (c.configured.filter (·.1 == uarfcn)).length ≤ 16) : c.bts.siCommon.Listable := by
  have hget : ∀ i < c.bts.siCommon.uarfcnLength,
      (c.bts.siCommon.uarfcnList i,c.bts.siCommon.scrambleList i) ∈ c.bts.siCommon.entries :=
    fun i hi => mem_entries.mpr ⟨i,hi,rfl⟩
  refine ⟨fun i hi => (h.range _ (hget i hi)).1,fun i hi => ⟨?_,(h.range _ (hget i hi)).2⟩,?_,?_⟩
  · exact Nat.pos_of_ne_zero (hzero _ ((h.same _).mpr (hget i hi)))
  · intro i hi j hj hu hs
    refine h.place (i := i) (j := j) (by rw [entries_getElem?,if_pos hi]) (by rw [entries_getElem?,if_pos hj]) ?_
    rw [hu,hs]
  · intro st i hi hsame
    have hsub : c.bts.siCommon.pairs st i ⊆
        c.configured.filter (·.1 == c.bts.siCommon.uarfcnList st) := by
      intro p hp
      obtain ⟨j,hj,rfl⟩ := List.mem_map.mp hp
      have hj := List.mem_range'_1.mp hj
      exact List.mem_filter.mpr ⟨(h.same _).mpr (hget j (by omega)),by simp [hsame j hj.1 (by omega)]⟩
    have hle := ((h.pairs_nodup hi).subperm hsub).length_le
    have hmax := hfew (c.bts.siCommon.uarfcnList st)
    have hlen : (c.bts.siCommon.pairs st i).length = i - st := by simp [SiCommon.pairs]
    omega

/-- In a run in which no full list is moved: once an accepted addition has found the offsets
at 0, and until something is deleted, generation is complete, unless a code of 0 or more
than 16 codes for a UARFCN are configured. -/
theorem si2quater_complete {c0 c : Conf} (h0 : c0.Initial) (h : Reach Conf.step Conf.good (· = c0) c)
    (haccepted : c.accepted = true) (hchecked : c.checked = true) (hzero : ∀ p ∈ c.configured, p.2 ≠ 0)
    (hfew : ∀ uarfcn, (c.configured.filter (·.1 == uarfcn)).length ≤ 16) : c.Complete := by
  have hinv := Conf.Inv.reach h0 h
  obtain ⟨hpos,hfits⟩ := hinv.fits haccepted hchecked
  have hneeded : c.bts.siCommon.si2quaterNotNeeded = false := by
    simp [SiCommon.si2quaterNotNeeded]
    omega
  obtain ⟨bts,hgen,hfdds,hearfcns⟩ := generateSi2quater_lists (hinv.listable hzero hfew) hinv.length hinv.valid
    hfits hneeded
  refine ⟨bts,hgen,?_,fun p => ?_,hearfcns⟩
  · exact hfdds.nodup_iff.mpr (hinv.pairs_nodup (Nat.le_refl _))
  · rw [hfdds.mem_iff,hinv.same]
    rfl

/-- A BTS without UARFCNs. -/
def freshBts (earfcns : EarfcnSi2q) : Conf where
  bts := leftover [] earfcns 0 0 0

theorem si2quater_complete_two :
    ∃ c, run Conf.step (freshBts { entries := [⟨1917,some 1⟩] })
      [.add 100 1 false,.add 200 7 true,.add 100 2 false,.generate] = .ok c ∧ c.Complete := by
  have hrun : ∃ c, run Conf.step (freshBts { entries := [⟨1917,some 1⟩] })
      [.add 100 1 false,.add 200 7 true,.add 100 2 false,.generate] = .ok c
        ∧ (c.accepted = true ∧ c.checked = true ∧ (∀ p ∈ c.configured, p.2 ≠ 0) ∧ c.configured.length ≤ 16) := by
    decide +kernel
  obtain ⟨c,hc,haccepted,hchecked,hzero,hlen⟩ := hrun
  refine ⟨c,hc,@si2quater_complete (freshBts { entries := [⟨1917,some 1⟩] }) c ?_ ?_ haccepted hchecked hzero
    (fun u => (List.length_filter_le ..).trans hlen)⟩
  · exact ⟨rfl,by decide,rfl,rfl,by simp [freshBts,leftover,Earfcn.Valid]⟩
  · exact Reach.of_run (.start rfl) (by decide +kernel) hc

/-- The entry that was deleted last still stands behind the list, so that the end of its
UARFCN is not found. -/
theorem si2quater_incomplete_after_del :
    ∃ c, run Conf.step (freshBts {}) [.add 100 1 false,.add 100 2 false,.del 100 1] = .ok c
      ∧ c.accepted = true ∧ ¬ c.Complete := by
  have hrun : ∃ c, run Conf.step (freshBts {}) [.add 100 1 false,.add 100 2 false,.del 100 1] = .ok c
      ∧ (c.accepted = true ∧ ∃ r, generateSi2quater c.bts = .ok r ∧ r.2.toOption = none) := by
    decide +kernel
  obtain ⟨c,hc,haccepted,r,hr,hnone⟩ := hrun
  refine ⟨c,hc,haccepted,fun hcomplete => ?_⟩
  obtain ⟨bts,hgen,-⟩ := hcomplete
  rw [hr] at hgen
  cases hgen
  cases hnone

end Runs

end OsmoBsc.Si.Si2q
