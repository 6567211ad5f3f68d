import Mathlib.Data.List.Find
import OsmoBsc.Lib.Grouped
import OsmoBsc.Si.Alike
import OsmoBsc.Si.Configured
set_option autoImplicit false

namespace OsmoBsc.Si.Si2q
open EventFsm Cursor

inductive ListOp where
  | add (uarfcn scramble : Nat) (diversity : Bool)
  | del (uarfcn scramble : Nat)
  deriving DecidableEq, Repr

def ListOp.call (bts : Si2qBts) : ListOp → Except Fault (Si2qBts × Except Errno Unit)
  | .add uarfcn scramble diversity => btsUarfcnAdd bts uarfcn scramble diversity
  | .del uarfcn scramble => .ok (btsUarfcnDel bts uarfcn scramble)

def ListOp.step (bts : Si2qBts) (op : ListOp) : Except Fault Si2qBts := (op.call bts).map Prod.fst

def ListOp.ranged : ListOp → Bool
  | .add _ scramble _ | .del _ scramble => scramble < 512

/-- What a call that returns `rc` does to the entries. -/
inductive Changes : ListOp → Except Errno Unit → List (Nat × Nat) → List (Nat × Nat) → Prop where
  | refused {op : ListOp} {e : Errno} {L : List (Nat × Nat)} : Changes op (.error e) L L
  | added {uarfcn scramble i : Nat} {diversity : Bool} {L : List (Nat × Nat)} (hi : i ≤ L.length) :
      Changes (.add uarfcn scramble diversity) (.ok ()) L (L.insertIdx i (uarfcn,encodeFdd scramble diversity))
  | deleted {uarfcn scramble i : Nat} {p : Nat × Nat} {L : List (Nat × Nat)} (hp : L[i]? = some p)
      (hkey : cellKey p = (uarfcn,scramble)) : Changes (.del uarfcn scramble) (.ok ()) L (L.eraseIdx i)

/-- The words of the two lists, with `data` behind them. -/
def surround (words data : Nat → Nat) : Nat → Nat :=
  fun w => if w < 2 * maxEarfcnList then words w else data w

/-- The BTS in a memory that has `data` outside the two lists. -/
def SiCommon.around (si : SiCommon) (data : Nat → Nat) : SiCommon :=
  { si with data := surround si.data data }

def Si2qBts.around (bts : Si2qBts) (data : Nat → Nat) : Si2qBts :=
  bts.withLists (bts.siCommon.around data)

/-- A call does the same whatever is outside the two lists, and leaves it alone. -/
def WithinArrays (bts : Si2qBts) (op : ListOp) : Prop :=
  ∃ next rc, op.call bts = .ok (next,rc) ∧ ∀ data, op.call (bts.around data) = .ok (next.around data,rc)

def Exact (bts : Si2qBts) (op : ListOp) : Prop :=
  ∃ next rc, op.call bts = .ok (next,rc) ∧ Changes op rc bts.siCommon.entries next.siCommon.entries

/-- The two words too many that `bts_uarfcn_del` moves are not all in the lists. -/
def SiCommon.overruns (si : SiCommon) (pos : Nat) : Bool :=
  pos + 1 != si.uarfcnLength && maxEarfcnList < si.uarfcnLength + 2

/-- Where `bts_uarfcn_add` inserts. -/
def SiCommon.placeFor (si : SiCommon) (uarfcn : Nat) : Nat :=
  (si.uarfcnScPos uarfcn scBound).getD si.uarfcnLength

/-- The operation takes an entry out before the end of a list of more than 30 entries: a
deletion, or the rollback of an addition that does not fit. -/
def ListOp.overruns (bts : Si2qBts) : ListOp → Bool
  | .add uarfcn scramble diversity =>
    let si := bts.siCommon
    let next := si.insertAt (si.placeFor uarfcn) uarfcn (encodeFdd scramble diversity)
    si.uarfcnLength != maxEarfcnList && (si.uarfcnScPos uarfcn scramble).isNone
      && !next.fits si2qMaxNum (bts.uOffset,bts.eOffset) && next.overruns (si.placeFor uarfcn)
  | .del uarfcn scramble => (bts.siCommon.uarfcnScPos uarfcn scramble).any bts.siCommon.overruns

structure SiCommon.Tidy (si : SiCommon) : Prop where
  length : si.uarfcnLength ≤ maxEarfcnList
  codes : ∀ p ∈ si.entries, p.2 < 1024
  keys : (si.entries.map cellKey).Nodup
  grouped : Grouped (si.entries.map Prod.fst)

section Memory

variable {si : SiCommon} {words data : Nat → Nat}

theorem memmove_surround {dst src n : Nat} (hdst : dst + n ≤ 2 * maxEarfcnList) (hsrc : src + n ≤ 2 * maxEarfcnList) :
    memmove (surround words data) dst src n = surround (memmove words dst src n) data := by
  funext w
  simp only [memmove,surround]
  by_cases hw : dst ≤ w ∧ w < dst + n
  · rw [if_pos hw,if_pos (by omega),if_pos (by omega),if_pos hw]
  · rw [if_neg hw,if_neg hw]

theorem update_surround {i : Nat} (hi : i < 2 * maxEarfcnList) (x : Nat) :
    Function.update (surround words data) i x = surround (Function.update words i x) data := by
  funext w
  simp only [Function.update_apply,surround]
  by_cases hw : w = i
  · rw [if_pos hw,if_pos hw,if_pos (by omega)]
  · rw [if_neg hw,if_neg hw]

@[simp] theorem around_uarfcnLength : (si.around data).uarfcnLength = si.uarfcnLength := rfl

theorem around_uarfcnList {i : Nat} (hi : i < 2 * maxEarfcnList) :
    (si.around data).uarfcnList i = si.uarfcnList i := by
  simp [SiCommon.around,SiCommon.uarfcnList,surround,hi]

theorem around_scrambleList {i : Nat} (hi : i < maxEarfcnList) :
    (si.around data).scrambleList i = si.scrambleList i := by
  simp [SiCommon.around,SiCommon.scrambleList,surround,show maxEarfcnList + i < 2 * maxEarfcnList by omega]

theorem alike_around (hlen : si.uarfcnLength ≤ maxEarfcnList) : si.Alike (si.around data) := by
  have hmax : maxEarfcnList = 32 := rfl
  refine ⟨rfl,rfl,fun i hi => around_uarfcnList (by omega),fun i hi => around_scrambleList (by omega),
    fun hpos => ?_⟩
  rw [around_uarfcnList (by omega),around_uarfcnList (by omega)]

theorem uarfcnScPos_around (hlen : si.uarfcnLength ≤ maxEarfcnList) (uarfcn scramble : Nat) :
    (si.around data).uarfcnScPos uarfcn scramble = si.uarfcnScPos uarfcn scramble := by
  have hmax : maxEarfcnList = 32 := rfl
  unfold SiCommon.uarfcnScPos
  rw [around_uarfcnLength]
  refine List.find?_congr fun i hi => ?_
  have hi := List.mem_range.mp hi
  rw [around_uarfcnList (by omega),around_scrambleList (by omega)]

theorem insertAt_around {i : Nat} (uarfcn code : Nat) (hi : i ≤ si.uarfcnLength)
    (hlen : si.uarfcnLength < maxEarfcnList) :
    (si.around data).insertAt i uarfcn code = (si.insertAt i uarfcn code).around data := by
  have hmax : maxEarfcnList = 32 := rfl
  simp only [SiCommon.insertAt]
  by_cases hlt : i < si.uarfcnLength
  · rw [if_pos hlt,if_pos (show i < (si.around data).uarfcnLength from hlt)]
    simp only [SiCommon.around]
    rw [memmove_surround (by omega) (by omega),memmove_surround (by omega) (by omega),
      update_surround (by omega),update_surround (by omega)]
  · rw [if_neg hlt,if_neg (show ¬ i < (si.around data).uarfcnLength from hlt)]
    simp only [SiCommon.around]
    rw [update_surround (by omega),update_surround (by omega)]

theorem removeAt_around {pos : Nat} (hpos : pos < si.uarfcnLength) (hle : si.uarfcnLength ≤ maxEarfcnList)
    (h : si.overruns pos = false) : (si.around data).removeAt pos = (si.removeAt pos).around data := by
  have hmax : maxEarfcnList = 32 := rfl
  have hroom : pos + 1 = si.uarfcnLength ∨ si.uarfcnLength + 2 ≤ maxEarfcnList := by
    simp [SiCommon.overruns] at h
    omega
  simp only [SiCommon.removeAt]
  by_cases htail : pos ≠ si.uarfcnLength - 1
  · rw [if_pos htail,if_pos (show pos ≠ (si.around data).uarfcnLength - 1 from htail)]
    simp only [SiCommon.around]
    rw [memmove_surround (by omega) (by omega),memmove_surround (by omega) (by omega)]
  · rw [if_neg htail,if_neg (show ¬ pos ≠ (si.around data).uarfcnLength - 1 from htail)]
    rfl

/-- Otherwise a word is moved into the lists, or one that is outside is overwritten. -/
theorem removeAt_around_ne {pos : Nat} (hpos : pos < si.uarfcnLength) (hle : si.uarfcnLength ≤ maxEarfcnList)
    (h : si.overruns pos = true) : ∃ data, (si.around data).removeAt pos ≠ (si.removeAt pos).around data := by
  have hmax : maxEarfcnList = 32 := rfl
  have hroom : pos + 1 ≠ si.uarfcnLength ∧ maxEarfcnList < si.uarfcnLength + 2 := by
    simpa [SiCommon.overruns] using h
  have htail : pos ≠ si.uarfcnLength - 1 := by omega
  refine ⟨fun w => si.data 64 + 1 + w,fun heq => ?_⟩
  have hdata := congrFun (congrArg SiCommon.data heq) (si.uarfcnLength + 32)
  have hto : 32 + pos ≤ si.uarfcnLength + 32 ∧ si.uarfcnLength + 32 < 32 + pos + (si.uarfcnLength - pos + 1) := by
    omega
  have hsrc : 32 + pos + 1 + (si.uarfcnLength + 32 - (32 + pos)) = si.uarfcnLength + 33 := by omega
  have hfrom : ¬ (pos ≤ si.uarfcnLength + 33 ∧ si.uarfcnLength + 33 < pos + (si.uarfcnLength - pos + 1)) := by omega
  have hread : ¬ si.uarfcnLength + 33 < 2 * 32 := by omega
  simp only [SiCommon.removeAt] at hdata
  rw [if_pos (show pos ≠ (si.around _).uarfcnLength - 1 from htail)] at hdata
  simp only [SiCommon.around,if_pos htail,memmove,surround,hmax,if_pos hto,hsrc,if_neg hfrom,if_neg hread] at hdata
  -- The last word that is written is one outside, or gets what is outside.
  rcases Nat.lt_or_ge (si.uarfcnLength + 32) (2 * 32) with hin | hout
  · rw [if_pos hin,show si.uarfcnLength + 33 = 64 by omega] at hdata
    omega
  · rw [if_neg (by omega)] at hdata
    omega

end Memory

section Steps

variable {bts : Si2qBts} {uarfcn scramble : Nat} {diversity : Bool}

theorem around_insertAt (data : Nat → Nat) {i code : Nat} (hi : i ≤ bts.siCommon.uarfcnLength)
    (hlen : bts.siCommon.uarfcnLength < maxEarfcnList) :
    (bts.around data).withLists ((bts.around data).siCommon.insertAt i uarfcn code) =
      (bts.withLists (bts.siCommon.insertAt i uarfcn code)).around data := by
  have h := @insertAt_around bts.siCommon data i uarfcn code hi hlen
  exact congrArg bts.withLists h

theorem del_within (hlen : bts.siCommon.uarfcnLength ≤ maxEarfcnList) :
    WithinArrays bts (.del uarfcn scramble) ↔ (ListOp.del uarfcn scramble).overruns bts = false := by
  have hpos : ∀ data, (bts.around data).siCommon.uarfcnScPos uarfcn scramble =
      bts.siCommon.uarfcnScPos uarfcn scramble := fun data => uarfcnScPos_around hlen ..
  simp only [WithinArrays,ListOp.call,ListOp.overruns,btsUarfcnDel,hpos]
  cases hfound : bts.siCommon.uarfcnScPos uarfcn scramble with
  | none => simp
  | some pos =>
    have hlt := uarfcnScPos_lt hfound
    simp only [Option.any_some]
    constructor
    · rintro ⟨next,rc,heq,hsame⟩
      cases heq
      by_contra hover
      rw [Bool.not_eq_false] at hover
      obtain ⟨data,hne⟩ := removeAt_around_ne hlt hlen hover
      have heq := hsame data
      simp only [Except.ok.injEq,Prod.mk.injEq,and_true] at heq
      exact hne (congrArg Si2qBts.siCommon heq)
    · intro hover
      exact ⟨_,_,rfl,fun data => by
        rw [show (bts.around data).siCommon = bts.siCommon.around data from rfl,removeAt_around hlt hlen hover]
        rfl⟩

theorem btsUarfcnDel_found {pos : Nat} (h : bts.siCommon.uarfcnScPos uarfcn scramble = some pos) :
    btsUarfcnDel bts uarfcn scramble = (bts.withLists (bts.siCommon.removeAt pos),.ok ()) := by
  simp only [btsUarfcnDel,h]
  rfl

theorem placeFor_le (si : SiCommon) (uarfcn : Nat) : si.placeFor uarfcn ≤ si.uarfcnLength := by
  unfold SiCommon.placeFor
  cases hpos : si.uarfcnScPos uarfcn scBound with
  | none => exact Nat.le_refl _
  | some pos => exact Nat.le_of_lt (uarfcnScPos_lt hpos)

/-- The state in which `bts_uarfcn_add` tries to generate. -/
def Si2qBts.trying (bts : Si2qBts) (uarfcn scramble : Nat) (diversity : Bool) : Si2qBts :=
  bts.withLists (bts.siCommon.insertAt (bts.siCommon.placeFor uarfcn) uarfcn (encodeFdd scramble diversity))

theorem btsUarfcnAdd_refused
    (h : bts.siCommon.uarfcnLength = maxEarfcnList ∨ bts.siCommon.uarfcnScPos uarfcn scramble ≠ none) :
    btsUarfcnAdd bts uarfcn scramble diversity =
      .ok (bts,.error (if bts.siCommon.uarfcnLength = maxEarfcnList then .enomem else .eaddrinuse)) := by
  unfold btsUarfcnAdd
  by_cases hfull : bts.siCommon.uarfcnLength = maxEarfcnList
  · simp only [if_pos hfull]
  · have hsome : (bts.siCommon.uarfcnScPos uarfcn scramble).isSome = true := by
      rw [Option.isSome_iff_ne_none]
      exact h.resolve_left hfull
    simp only [if_neg hfull,if_pos hsome]

theorem btsUarfcnAdd_tried {next : Si2qBts} {num : Nat} (hfull : bts.siCommon.uarfcnLength ≠ maxEarfcnList)
    (hnone : bts.siCommon.uarfcnScPos uarfcn scramble = none)
    (hnum : si2qNum (bts.trying uarfcn scramble diversity) = .ok (next,num)) :
    btsUarfcnAdd bts uarfcn scramble diversity =
      if num ≤ si2qMaxNum then .ok ({ next with si2qCount := num - 1 },.ok ())
      else .ok ((btsUarfcnDel next uarfcn scramble).1,.error .enospc) := by
  have hlists : ∀ si, ({ bts with siCommon := si } : Si2qBts) = bts.withLists si := fun _ => rfl
  unfold btsUarfcnAdd
  simp only [if_neg hfull,hnone,Option.isSome_none,Bool.false_eq_true,if_false]
  rw [← SiCommon.placeFor,hlists,← Si2qBts.trying,hnum,ok_bind]

/-- What the dry run of `bts_uarfcn_add` comes to, whatever is outside the lists. -/
structure Tried (bts : Si2qBts) (uarfcn scramble : Nat) (diversity : Bool) (next : Si2qBts) (num : Nat) :
    Prop where
  ran : si2qNum (bts.trying uarfcn scramble diversity) = .ok (next,num)
  around : ∀ data, si2qNum ((bts.around data).trying uarfcn scramble diversity) = .ok (next.around data,num)
  siCommon : next.siCommon = (bts.trying uarfcn scramble diversity).siCommon
  uOffset : next.uOffset = 0
  fits : num ≤ si2qMaxNum ↔
    (bts.trying uarfcn scramble diversity).siCommon.fits si2qMaxNum (bts.uOffset,bts.eOffset) = true

theorem tried (hlen : bts.siCommon.uarfcnLength < maxEarfcnList) (hoff : bts.uOffset < 2 ^ 32) :
    ∃ next num, Tried bts uarfcn scramble diversity next num := by
  obtain ⟨next,num,hran,hsi,hu,hfits⟩ :=
    @si2qNum_eq (bts.trying uarfcn scramble diversity) (show _ + 1 ≤ _ from hlen) hoff
  refine ⟨next,num,hran,fun data => ?_,hsi,hu,hfits⟩
  have hplace : (bts.around data).siCommon.placeFor uarfcn = bts.siCommon.placeFor uarfcn := by
    unfold SiCommon.placeFor
    rw [show (bts.around data).siCommon = bts.siCommon.around data from rfl,
      uarfcnScPos_around (Nat.le_of_lt hlen),around_uarfcnLength]
  have htrying : (bts.around data).trying uarfcn scramble diversity =
      (bts.trying uarfcn scramble diversity).around data := by
    unfold Si2qBts.trying
    rw [hplace]
    exact around_insertAt data (placeFor_le ..) hlen
  rw [htrying]
  have hsame := @SiCommon.Alike.si2qNum_eq (bts.trying uarfcn scramble diversity) _
    (@alike_around _ data (show _ + 1 ≤ _ from hlen)) (show _ + 1 ≤ _ from hlen) hoff
  rw [hran] at hsame
  rw [Si2qBts.around,hsame,Si2qBts.around,hsi]
  rfl

theorem trying_entries (hlen : bts.siCommon.uarfcnLength < maxEarfcnList) :
    (bts.trying uarfcn scramble diversity).siCommon.entries =
      bts.siCommon.entries.insertIdx (bts.siCommon.placeFor uarfcn) (uarfcn,encodeFdd scramble diversity) :=
  insertAt_entries _ _ (placeFor_le ..) hlen

theorem trying_found (hnone : bts.siCommon.uarfcnScPos uarfcn scramble = none)
    (hlen : bts.siCommon.uarfcnLength < maxEarfcnList) :
    (bts.trying uarfcn scramble diversity).siCommon.uarfcnScPos uarfcn scramble =
      some (bts.siCommon.placeFor uarfcn) := by
  have hle := placeFor_le bts.siCommon uarfcn
  have hentries := @trying_entries bts uarfcn scramble diversity hlen
  have hlength : (bts.trying uarfcn scramble diversity).siCommon.uarfcnLength = bts.siCommon.uarfcnLength + 1 := rfl
  have hget : ∀ j < bts.siCommon.uarfcnLength + 1,
      some ((bts.trying uarfcn scramble diversity).siCommon.uarfcnList j,
        (bts.trying uarfcn scramble diversity).siCommon.scrambleList j) =
      (bts.siCommon.entries.insertIdx (bts.siCommon.placeFor uarfcn) (uarfcn,encodeFdd scramble diversity))[j]? := by
    intro j hj
    rw [← hentries,entries_getElem?,if_pos (by rw [hlength]; exact hj)]
  unfold SiCommon.uarfcnScPos at hnone ⊢
  rw [hlength,List.find?_range_eq_some]
  refine ⟨?_,List.mem_range.mpr (by omega),fun j hj => ?_⟩
  · have hnew := hget (bts.siCommon.placeFor uarfcn) (by omega)
    rw [List.getElem?_insertIdx_self,if_pos (by rw [entries_length]; exact hle)] at hnew
    simp only [Option.some.injEq,Prod.mk.injEq] at hnew
    rw [hnew.1,hnew.2]
    cases diversity <;> simp
  · have hold := hget j (by omega)
    rw [List.getElem?_insertIdx_of_lt hj,entries_getElem?,if_pos (by omega)] at hold
    simp only [Option.some.injEq,Prod.mk.injEq] at hold
    rw [hold.1,hold.2]
    have habsent := List.find?_eq_none.mp hnone j (List.mem_range.mpr (by omega))
    rw [Bool.not_eq_true] at habsent
    rw [habsent]
    rfl

theorem overruns_add (hfull : bts.siCommon.uarfcnLength ≠ maxEarfcnList)
    (hnone : bts.siCommon.uarfcnScPos uarfcn scramble = none) {next : Si2qBts} {num : Nat}
    (ht : Tried bts uarfcn scramble diversity next num) :
    (ListOp.add uarfcn scramble diversity).overruns bts = true ↔
      ¬ num ≤ si2qMaxNum ∧ next.siCommon.overruns (bts.siCommon.placeFor uarfcn) = true := by
  rw [ht.fits,ht.siCommon]
  simp [ListOp.overruns,hfull,hnone,Si2qBts.trying,Si2qBts.withLists]

theorem overruns_refused
    (h : bts.siCommon.uarfcnLength = maxEarfcnList ∨ bts.siCommon.uarfcnScPos uarfcn scramble ≠ none) :
    (ListOp.add uarfcn scramble diversity).overruns bts = false := by
  rcases h with h | h
  · simp [ListOp.overruns,h]
  · simp [ListOp.overruns,h]

theorem add_within (hlen : bts.siCommon.uarfcnLength ≤ maxEarfcnList) (hoff : bts.uOffset < 2 ^ 32) :
    WithinArrays bts (.add uarfcn scramble diversity) ↔
      (ListOp.add uarfcn scramble diversity).overruns bts = false := by
  have hpos : ∀ data, (bts.around data).siCommon.uarfcnScPos uarfcn scramble =
      bts.siCommon.uarfcnScPos uarfcn scramble := fun data => uarfcnScPos_around hlen ..
  by_cases hrefused : bts.siCommon.uarfcnLength = maxEarfcnList ∨ bts.siCommon.uarfcnScPos uarfcn scramble ≠ none
  · rw [overruns_refused hrefused]
    refine ⟨fun _ => rfl,fun _ => ⟨_,_,btsUarfcnAdd_refused hrefused,fun data => ?_⟩⟩
    exact btsUarfcnAdd_refused (hrefused.imp id fun h => (hpos data).symm ▸ h)
  · obtain ⟨hfull,hnone⟩ := not_or.mp hrefused
    rw [ne_eq,not_not] at hnone
    obtain ⟨next,num,ht⟩ := @tried bts uarfcn scramble diversity (Nat.lt_of_le_of_ne hlen hfull) hoff
    have hadd := btsUarfcnAdd_tried hfull hnone ht.ran
    have hadd' : ∀ data, btsUarfcnAdd (bts.around data) uarfcn scramble diversity =
        if num ≤ si2qMaxNum then .ok ({ next.around data with si2qCount := num - 1 },.ok ())
        else .ok ((btsUarfcnDel (next.around data) uarfcn scramble).1,.error .enospc) :=
      fun data => btsUarfcnAdd_tried hfull ((hpos data).trans hnone) (ht.around data)
    by_cases hfit : num ≤ si2qMaxNum
    · have hover : (ListOp.add uarfcn scramble diversity).overruns bts = false := by
        rw [← Bool.not_eq_true,overruns_add hfull hnone ht]
        exact fun h => h.1 hfit
      rw [hover]
      refine ⟨fun _ => rfl,fun _ => ⟨_,_,hadd.trans (if_pos hfit),fun data => ?_⟩⟩
      exact (hadd' data).trans (if_pos hfit)
    · -- The rollback is a deletion.
      have hfound := @trying_found _ _ _ diversity hnone (Nat.lt_of_le_of_ne hlen hfull)
      rw [← ht.siCommon] at hfound
      have hnext : next.siCommon.uarfcnLength ≤ maxEarfcnList := by
        rw [ht.siCommon]
        exact Nat.lt_of_le_of_ne hlen hfull
      have hiff : (ListOp.add uarfcn scramble diversity).overruns bts = false ↔
          (ListOp.del uarfcn scramble).overruns next = false := by
        rw [← Bool.not_eq_true,← Bool.not_eq_true,overruns_add hfull hnone ht]
        simp [ListOp.overruns,hfound,hfit]
      rw [hiff,← del_within hnext]
      have hdel : ∀ data, btsUarfcnDel (next.around data) uarfcn scramble =
          ((next.around data).withLists ((next.siCommon.around data).removeAt (bts.siCommon.placeFor uarfcn)),
            .ok ()) :=
        fun data => btsUarfcnDel_found ((uarfcnScPos_around hnext ..).trans hfound)
      constructor
      · rintro ⟨next',rc,hcall,hsame⟩
        rw [ListOp.call,hadd,if_neg hfit] at hcall
        cases hcall
        refine ⟨_,_,congrArg Except.ok (btsUarfcnDel_found hfound),fun data => ?_⟩
        have hdata := hsame data
        rw [ListOp.call,hadd',if_neg hfit,btsUarfcnDel_found hfound] at hdata
        simp only [Except.ok.injEq,Prod.mk.injEq,and_true] at hdata
        rw [ListOp.call,← hdata,hdel]
      · rintro ⟨next',rc,hcall,hsame⟩
        rw [ListOp.call,btsUarfcnDel_found hfound] at hcall
        cases hcall
        refine ⟨_,_,hadd.trans (if_neg hfit),fun data => ?_⟩
        have hdata := hsame data
        rw [ListOp.call,Except.ok.injEq] at hdata
        rw [ListOp.call,hadd',if_neg hfit,hdata,btsUarfcnDel_found hfound]

/-- A call changes the entries as it says, and those of a tidy list stay tidy. -/
structure Keeps (bts : Si2qBts) (op : ListOp) (next : Si2qBts) (rc : Except Errno Unit) : Prop where
  changes : Changes op rc bts.siCommon.entries next.siCommon.entries
  tidy : next.siCommon.Tidy
  uOffset : next.uOffset < 2 ^ 32

theorem SiCommon.Tidy.of_entries {si si' : SiCommon} (h : si.Tidy) (heq : si'.entries = si.entries) : si'.Tidy := by
  obtain ⟨hlen,hcodes,hkeys,hgrouped⟩ := h
  rw [← heq] at hcodes hkeys hgrouped
  refine ⟨?_,hcodes,hkeys,hgrouped⟩
  rw [← entries_length,heq,entries_length]
  exact hlen

theorem overruns_room {si : SiCommon} {pos : Nat} (h : si.overruns pos = false) :
    pos + 1 = si.uarfcnLength ∨ si.uarfcnLength < maxEarfcnList := by
  simp [SiCommon.overruns] at h
  omega

theorem del_keeps (h : bts.siCommon.Tidy) (hoff : bts.uOffset < 2 ^ 32) (hsc : scramble < 512)
    (hover : (ListOp.del uarfcn scramble).overruns bts = false) :
    Keeps bts (.del uarfcn scramble) (btsUarfcnDel bts uarfcn scramble).1 (btsUarfcnDel bts uarfcn scramble).2 := by
  cases hfound : bts.siCommon.uarfcnScPos uarfcn scramble with
  | none =>
    simp only [btsUarfcnDel,hfound]
    exact ⟨.refused,h,hoff⟩
  | some pos =>
    rw [btsUarfcnDel_found hfound]
    obtain ⟨p,hp,hcell⟩ := uarfcnScPos_some hsc hfound
    rw [isCell_iff hsc (h.codes p (List.mem_of_getElem? hp))] at hcell
    simp only [ListOp.overruns,hfound,Option.any_some] at hover
    have hentries := removeAt_entries (uarfcnScPos_lt hfound) (overruns_room hover) h.length
    have hgrouped := h.grouped.eraseIdx pos
    refine ⟨?_,⟨?_,?_,?_,?_⟩,hoff⟩
    · simp only [Si2qBts.withLists,hentries]
      exact .deleted hp hcell
    · exact Nat.le_trans (Nat.sub_le ..) h.length
    · simp only [Si2qBts.withLists,hentries]
      exact fun q hq => h.codes q (List.mem_of_mem_eraseIdx hq)
    · simp only [Si2qBts.withLists,hentries]
      exact h.keys.sublist ((List.eraseIdx_sublist ..).map _)
    · simp only [Si2qBts.withLists,hentries]
      rwa [List.eraseIdx_map] at hgrouped

theorem placeFor_spec (si : SiCommon) (uarfcn : Nat) :
    (si.placeFor uarfcn = si.uarfcnLength ∧ uarfcn ∉ si.entries.map Prod.fst)
    ∨ ((si.entries.map Prod.fst)[si.placeFor uarfcn]? = some uarfcn
      ∧ ∀ i < si.placeFor uarfcn, (si.entries.map Prod.fst)[i]? ≠ some uarfcn) := by
  have hget : ∀ i < si.uarfcnLength, (si.entries.map Prod.fst)[i]? = some (si.uarfcnList i) := by
    intro i hi
    rw [List.getElem?_map,entries_getElem?,if_pos hi,Option.map_some]
  have hsearch : si.uarfcnScPos uarfcn scBound =
      (List.range si.uarfcnLength).find? fun i => uarfcn == si.uarfcnList i := by
    simp [SiCommon.uarfcnScPos]
  unfold SiCommon.placeFor
  rw [hsearch]
  cases hfound : (List.range si.uarfcnLength).find? fun i => uarfcn == si.uarfcnList i with
  | none =>
    left
    refine ⟨rfl,fun hmem => ?_⟩
    obtain ⟨p,hp,rfl⟩ := List.mem_map.mp hmem
    obtain ⟨i,hi,rfl⟩ := mem_entries.mp hp
    have := List.find?_eq_none.mp hfound i (List.mem_range.mpr hi)
    simp at this
  | some pos =>
    right
    obtain ⟨hpos,hlt,hfirst⟩ := List.find?_range_eq_some.mp hfound
    have hlt := List.mem_range.mp hlt
    refine ⟨?_,fun i hi => ?_⟩
    · rw [Option.getD_some,hget pos hlt,beq_iff_eq.mp hpos]
    · have hne := hfirst i hi
      rw [Option.getD_some] at hi
      rw [hget i (by omega)]
      simp at hne
      simpa [eq_comm] using hne

theorem insert_tidy {si si' : SiCommon} {i code : Nat} (h : si.Tidy) (hlen : si.uarfcnLength < maxEarfcnList)
    (hcode : code < 1024) (hnew : (uarfcn,code % 512) ∉ si.entries.map cellKey) (hi : i = si.placeFor uarfcn)
    (hentries : si'.entries = si.entries.insertIdx i (uarfcn,code)) : si'.Tidy := by
  have hle : i ≤ si.entries.length := by
    rw [entries_length,hi]
    exact placeFor_le ..
  refine ⟨?_,?_,?_,?_⟩
  · rw [← entries_length,hentries,List.length_insertIdx_of_le_length hle,entries_length]
    exact hlen
  · intro p hp
    rw [hentries,List.mem_insertIdx hle] at hp
    rcases hp with rfl | hp
    · exact hcode
    · exact h.codes p hp
  · have hperm := (List.perm_insertIdx (uarfcn,code) _ hle).map cellKey
    rw [hentries,hperm.nodup_iff,List.map_cons,List.nodup_cons]
    exact ⟨hnew,h.keys⟩
  · rw [hentries,List.map_insertIdx]
    rcases placeFor_spec si uarfcn with ⟨hend,habsent⟩ | ⟨hplace,hfirst⟩
    · rw [hi,hend,← entries_length si,← List.length_map (f := Prod.fst),List.insertIdx_length_self]
      exact h.grouped.concat habsent
    · rw [hi]
      exact h.grouped.insertIdx hplace hfirst

theorem add_keeps (h : bts.siCommon.Tidy) (hoff : bts.uOffset < 2 ^ 32) (hsc : scramble < 512)
    (hover : (ListOp.add uarfcn scramble diversity).overruns bts = false) :
    ∃ next rc, btsUarfcnAdd bts uarfcn scramble diversity = .ok (next,rc)
      ∧ Keeps bts (.add uarfcn scramble diversity) next rc := by
  by_cases hrefused : bts.siCommon.uarfcnLength = maxEarfcnList ∨ bts.siCommon.uarfcnScPos uarfcn scramble ≠ none
  · exact ⟨_,_,btsUarfcnAdd_refused hrefused,.refused,h,hoff⟩
  · obtain ⟨hfull,hnone⟩ := not_or.mp hrefused
    rw [ne_eq,not_not] at hnone
    have hlen := Nat.lt_of_le_of_ne h.length hfull
    obtain ⟨next,num,ht⟩ := @tried bts uarfcn scramble diversity hlen hoff
    have hentries := @trying_entries bts uarfcn scramble diversity hlen
    rw [← ht.siCommon] at hentries
    have hle : bts.siCommon.placeFor uarfcn ≤ bts.siCommon.entries.length := by
      rw [entries_length]
      exact placeFor_le ..
    have hcode : encodeFdd scramble diversity < 1024 := by
      rw [encodeFdd_eq hsc]
      split <;> omega
    have hkey : encodeFdd scramble diversity % 512 = scramble := by
      rw [encodeFdd_eq hsc]
      split <;> omega
    have htidy : next.siCommon.Tidy := by
      refine insert_tidy h hlen hcode (fun hmem => ?_) rfl hentries
      obtain ⟨p,hp,heq⟩ := List.mem_map.mp hmem
      rw [hkey] at heq
      have hcell := uarfcnScPos_none hsc hnone hp
      rw [(isCell_iff hsc (h.codes p hp)).mpr heq] at hcell
      cases hcell
    have hzero : next.uOffset < 2 ^ 32 := by
      rw [ht.uOffset]
      omega
    rw [btsUarfcnAdd_tried hfull hnone ht.ran]
    by_cases hfit : num ≤ si2qMaxNum
    · refine ⟨_,_,if_pos hfit,?_,htidy,hzero⟩
      simp only [hentries]
      exact .added hle
    · have hroom : next.siCommon.overruns (bts.siCommon.placeFor uarfcn) = false := by
        rw [← Bool.not_eq_true,overruns_add hfull hnone ht] at hover
        simpa [hfit] using hover
      have hfound := @trying_found _ _ _ diversity hnone hlen
      rw [← ht.siCommon] at hfound
      have hback : (next.siCommon.removeAt (bts.siCommon.placeFor uarfcn)).entries = bts.siCommon.entries := by
        rw [removeAt_entries (uarfcnScPos_lt hfound) (overruns_room hroom) htidy.length,hentries,
          List.eraseIdx_insertIdx_self]
      refine ⟨_,_,if_neg hfit,?_⟩
      rw [btsUarfcnDel_found hfound]
      refine ⟨?_,h.of_entries hback,hzero⟩
      simp only [Si2qBts.withLists,hback]
      exact .refused

end Steps

section Runs

def Si2qBts.fresh (bts : Si2qBts) : Prop := bts.siCommon.uarfcnLength = 0 ∧ bts.uOffset = 0

def ListOp.good (bts : Si2qBts) (op : ListOp) : Prop := op.ranged = true ∧ op.overruns bts = false

instance (bts : Si2qBts) (op : ListOp) : Decidable (op.good bts) := inferInstanceAs (Decidable (_ ∧ _))

variable {bts bts' : Si2qBts} {op : ListOp}

theorem ListOp.keeps (h : bts.siCommon.Tidy) (hoff : bts.uOffset < 2 ^ 32) (hg : op.good bts) :
    ∃ next rc, op.call bts = .ok (next,rc) ∧ Keeps bts op next rc := by
  obtain ⟨hranged,hover⟩ := hg
  cases op with
  | add uarfcn scramble diversity => exact add_keeps h hoff (by simpa [ranged] using hranged) hover
  | del uarfcn scramble => exact ⟨_,_,rfl,del_keeps h hoff (by simpa [ranged] using hranged) hover⟩

/-- A call stays within the lists unless it moves the tail of more than 30 entries. -/
theorem ListOp.within_iff (hlen : bts.siCommon.uarfcnLength ≤ maxEarfcnList) (hoff : bts.uOffset < 2 ^ 32) :
    WithinArrays bts op ↔ op.overruns bts = false := by
  cases op with
  | add uarfcn scramble diversity => exact add_within hlen hoff
  | del uarfcn scramble => exact del_within hlen

/-- In a run in which no call overruns the lists, they stay tidy, and a further call does
what it says and nothing outside of them if and only if it does not overrun them either. -/
theorem uarfcnLists_safe {b0 bts : Si2qBts} (h0 : b0.fresh)
    (h : Reach ListOp.step (fun bts op => op.good bts) (· = b0) bts) :
    bts.siCommon.Tidy ∧ ∀ op : ListOp, op.ranged = true →
      (WithinArrays bts op ∧ Exact bts op ↔ op.overruns bts = false) := by
  have hinv : bts.siCommon.Tidy ∧ bts.uOffset < 2 ^ 32 := by
    refine @Reach.invariant _ _ _ _ _ _ (fun bts => bts.siCommon.Tidy ∧ bts.uOffset < 2 ^ 32) ?_ ?_ _ h
    · rintro bts rfl
      have hnil : bts.siCommon.entries = [] := List.eq_nil_of_length_eq_zero (by rw [entries_length,h0.1])
      refine ⟨⟨by rw [h0.1]; exact Nat.zero_le _,?_,?_,?_⟩,by rw [h0.2]; omega⟩
      · simp [hnil]
      · simp [hnil]
      · rw [hnil]
        exact Grouped.nil
    · rintro bts op bts' ⟨htidy,hoff⟩ hg hs
      obtain ⟨next,rc,hcall,hkeeps⟩ := ListOp.keeps htidy hoff hg
      rw [ListOp.step,hcall] at hs
      cases hs
      exact ⟨hkeeps.tidy,hkeeps.uOffset⟩
  obtain ⟨htidy,hoff⟩ := hinv
  refine ⟨htidy,fun op hranged => ⟨fun hop => ?_,fun hover => ?_⟩⟩
  · exact (ListOp.within_iff htidy.length hoff).mp hop.1
  · obtain ⟨next,rc,hcall,hkeeps⟩ := ListOp.keeps htidy hoff ⟨hranged,hover⟩
    exact ⟨(ListOp.within_iff htidy.length hoff).mpr hover,next,rc,hcall,hkeeps.changes⟩

/-- A BTS that has just been allocated. -/
def emptyBts : Si2qBts where
  siCommon := { data := fun _ => 0, uarfcnLength := 0, si2quaterNeighList := {} }
  uOffset := 0
  eOffset := 0
  si2qIndex := 0
  si2qCount := 0
  siBuf := fun _ => []
  siValid := false

theorem uarfcnLists_safe_three :
    ∃ bts, run ListOp.step emptyBts [.add 100 1 false,.add 200 7 true,.add 100 2 false,.del 200 7] = .ok bts
      ∧ bts.siCommon.Tidy ∧ WithinArrays bts (.del 100 1) := by
  obtain ⟨bts,hrun,hover⟩ : ∃ bts,
      run ListOp.step emptyBts [.add 100 1 false,.add 200 7 true,.add 100 2 false,.del 200 7] = .ok bts
        ∧ (ListOp.del 100 1).overruns bts = false := by
    decide +kernel
  obtain ⟨htidy,hiff⟩ := @uarfcnLists_safe emptyBts bts ⟨rfl,rfl⟩ (Reach.of_run (.start rfl) (by decide +kernel) hrun)
  exact ⟨bts,hrun,htidy,((hiff (.del 100 1) rfl).mpr hover).1⟩

end Runs

section Full

variable {si : SiCommon}

theorem rangeEncode_single (r : Gsm48Range) (a f0 : Nat) (w : IntArray) (o : Octets) :
    ∃ chanList, rangeEncode r [a] w f0 o = .ok chanList := by
  have hfilter : ∃ b, (rangeEncFilterArfcns [a] f0).1 = [b] := by
    by_cases ha : a = f0
    · exact ⟨a,by simp [rangeEncFilterArfcns,ha]⟩
    · exact ⟨_,by simp [rangeEncFilterArfcns,ha]; rfl⟩
  obtain ⟨b,hb⟩ := hfilter
  have hrc : (rangeEncArfcns r.value [b] w 0).2 = .ok () := by rw [rangeEncArfcns]
  unfold rangeEncode
  simp only [hb,hrc]
  exact ⟨_,rfl⟩

/-- Of UARFCNs with one scrambling code each, as many fit as the budget has times 31 bits. -/
theorem appendUarfcnsFrom_single (hnew : ∀ i < si.uarfcnLength, si.uarfcnList (i + 1) ≠ si.uarfcnList i)
    {n st rem uOffset : Nat} {bv : Writer BitValue} (hn : st + n = si.uarfcnLength) (hpos : 0 < n) :
    (appendUarfcnsFrom si n (st + 1) (si.uarfcnList st) st rem uOffset bv).2 = uOffset + min n ((rem - 1) / 31) := by
  induction n generalizing st rem uOffset bv with
  | zero => omega
  | succ n ih =>
    obtain ⟨chanList,hok⟩ : ∃ chanList, f0Helper [si.scrambleList st] = .ok chanList := rangeEncode_single ..
    have hcodes : si.codes st (st + 1) = [si.scrambleList st] := by
      simp [SiCommon.codes]
    have hbits : range1024P 1 = 10 := rfl
    rw [appendUarfcnsFrom,if_pos (hnew st (by omega))]
    simp only [tryAddingUarfcn,hcodes,hok,List.length_singleton,hbits]
    by_cases hrem : rem < 32
    · have hzero : (rem - 1) / 31 = 0 := by omega
      by_cases hlow : rem < 23
      · simp [hlow,hzero]
      · simp [hlow,show rem ≤ 31 by omega,hzero]
    · rw [if_neg (by omega),if_neg (by omega)]
      simp only
      by_cases hmore : st + 1 < si.uarfcnLength
      · rw [if_pos hmore,ih (by omega) (by omega)]
        omega
      · rw [if_neg hmore]
        simp only
        omega

theorem appendUtranPart_single (hnew : ∀ i < si.uarfcnLength, si.uarfcnList (i + 1) ≠ si.uarfcnList i)
    {o : Nat} (hlt : o < si.uarfcnLength) (hlen : si.uarfcnLength ≤ maxEarfcnList) {bv : Writer BitValue}
    (hcur : bv.cur = 18) : ∃ bv', appendUtranPart si o bv = .ok (bv',o + min (si.uarfcnLength - o) 4) := by
  have hmax : maxEarfcnList = 32 := rfl
  have hne : si.uarfcnLength ≠ o := by omega
  have hrounds : si.uarfcnLength + 1 - o = (si.uarfcnLength - o) + 1 := by omega
  have hoff : o % 2 ^ 32 = o := Nat.mod_eq_of_lt (by omega)
  have hloop : ∀ bv, (appendUarfcnsFrom si (si.uarfcnLength - o + 1) o (si.uarfcnList o) o 132 o bv).2 =
      o + min (si.uarfcnLength - o) 4 := by
    intro bv
    rw [appendUarfcnsFrom,if_neg (fun h => h rfl),appendUarfcnsFrom_single hnew (by omega) (by omega)]
  unfold appendUtranPart
  simp only [hcur,si2qMaxLen,appendUarfcns,hoff,hrounds]
  rw [if_pos ⟨by omega,hne⟩,if_neg (by omega),if_neg (by omega)]
  exact ⟨_,by rw [hloop]⟩

theorem nextOffsets_single (hnew : ∀ i < si.uarfcnLength, si.uarfcnList (i + 1) ≠ si.uarfcnList i)
    (hnone : si.si2quaterNeighList.entries = []) {o : Nat} (hlt : o < si.uarfcnLength)
    (hlen : si.uarfcnLength ≤ maxEarfcnList) :
    si.nextOffsets (o,0) = (o + min (si.uarfcnLength - o) 4,0) := by
  have hmax : maxEarfcnList = 32 := rfl
  obtain ⟨utran,eutran,peak,-,heutran,-,hok⟩ := nextOffsets_eq hlen (show o < 2 ^ 32 by omega) 0
  obtain ⟨bv,hbv,-⟩ := hok (Writer.put .empty (si2qHead 0 0)) (by simp [Writer.cur]) (by simp [Writer.cur])
  generalize si.nextOffsets (o,0) = next at heutran hbv
  obtain ⟨r,hr,hrest⟩ := bind_eq_ok.mp hbv
  obtain ⟨bv',hutran⟩ := appendUtranPart_single hnew hlt hlen
    (show (Writer.put .empty (si2qHead 0 0)).cur = 18 by simp [Writer.cur])
  rw [hutran] at hr
  cases hr
  obtain ⟨r',hr',heq⟩ := bind_eq_ok.mp hrest
  cases heq
  refine Prod.ext rfl ?_
  generalize r'.2 = eo at heutran
  cases heutran with
  | absent => rfl
  | noRoom => rfl
  | present hle =>
    rw [hnone] at hle
    simp at hle
    simp [hle]

theorem fits_single (hnew : ∀ i < si.uarfcnLength, si.uarfcnList (i + 1) ≠ si.uarfcnList i)
    (hnone : si.si2quaterNeighList.entries = []) (hlen : si.uarfcnLength ≤ maxEarfcnList) {n o : Nat}
    (hlt : o < si.uarfcnLength) (hn : si.uarfcnLength ≤ o + 4 * n) : si.fits n (o,0) = true := by
  induction n generalizing o with
  | zero => omega
  | succ n ih =>
    have hcount : si.si2qEarfcnCount = 0 := by simp [SiCommon.si2qEarfcnCount,hnone]
    rw [SiCommon.fits,nextOffsets_single hnew hnone hlt hlen,Bool.or_eq_true]
    by_cases hend : si.uarfcnLength ≤ o + 4
    · left
      simp only [SiCommon.covers,hcount,Bool.and_eq_true,decide_eq_true_eq]
      omega
    · right
      rw [show o + min (si.uarfcnLength - o) 4 = o + 4 by omega]
      exact ih (by omega) (by omega)

/-- The first `k` of the pairs (1,1), (2,2) and so on, in a memory of zeros. -/
def filledLists (k : Nat) : SiCommon where
  data := fun w => if w < 64 ∧ w % 32 < k then w % 32 + 1 else 0
  uarfcnLength := k
  si2quaterNeighList := {}

theorem filledLists_uarfcn {k i : Nat} (hk : k ≤ maxEarfcnList) (hi : i < k) :
    (filledLists k).uarfcnList i = i + 1 := by
  have hmax : maxEarfcnList = 32 := rfl
  have hmod : i % 32 = i := Nat.mod_eq_of_lt (by omega)
  simp only [SiCommon.uarfcnList,filledLists,hmod]
  rw [if_pos ⟨by omega,hi⟩]

theorem filledLists_fits {k : Nat} (hpos : 0 < k) (hk : k ≤ maxEarfcnList) :
    (filledLists k).fits si2qMaxNum (0,0) = true := by
  have hmax : maxEarfcnList = 32 := rfl
  refine fits_single (fun i hi => ?_) rfl hk hpos (show k ≤ 0 + 4 * 16 by omega)
  rw [filledLists_uarfcn hk hi]
  have hi : i < k := hi
  simp only [SiCommon.uarfcnList,filledLists]
  split <;> omega

theorem filledLists_absent {k uarfcn scramble : Nat} (hk : k ≤ maxEarfcnList) (hu : k < uarfcn) :
    (filledLists k).uarfcnScPos uarfcn scramble = none := by
  rw [SiCommon.uarfcnScPos,List.find?_eq_none]
  intro i hi
  have hi : i < k := List.mem_range.mp hi
  have hne : uarfcn ≠ (filledLists k).uarfcnList i := by
    rw [filledLists_uarfcn hk hi]
    omega
  simp [hne]

theorem filledLists_insert {k : Nat} (hk : k < maxEarfcnList) :
    (filledLists k).insertAt ((filledLists k).placeFor (k + 1)) (k + 1) (encodeFdd (k + 1) false)
      = filledLists (k + 1) := by
  have hmax : maxEarfcnList = 32 := rfl
  have hplace : (filledLists k).placeFor (k + 1) = k := by
    rw [SiCommon.placeFor,filledLists_absent (Nat.le_of_lt hk) (Nat.lt_succ_self k)]
    rfl
  have hdata : Function.update (Function.update (filledLists k).data k (k + 1)) (maxEarfcnList + k)
      (encodeFdd (k + 1) false) = (filledLists (k + 1)).data := by
    funext w
    rw [show encodeFdd (k + 1) false = k + 1 from rfl]
    simp only [Function.update_apply,filledLists,hmax]
    split_ifs <;> first | rfl | omega
  rw [hplace]
  unfold SiCommon.insertAt
  simp only
  rw [if_neg (show ¬ k < (filledLists k).uarfcnLength from Nat.lt_irrefl k),hdata]
  rfl

def Filled (k : Nat) (bts : Si2qBts) : Prop :=
  bts.siCommon = filledLists k ∧ bts.uOffset = 0 ∧ bts.eOffset = 0

theorem si2qNum_offsets {bts next : Si2qBts} {num : Nat} (h : si2qNum bts = .ok (next,num)) :
    next.uOffset = 0 ∧ next.eOffset = 0 := by
  obtain ⟨pass,-,heq⟩ := bind_eq_ok.mp h
  cases heq
  exact ⟨rfl,rfl⟩

theorem Filled.add {bts : Si2qBts} {k : Nat} (h : Filled k bts) (hk : k < maxEarfcnList) :
    ∃ next, ListOp.step bts (.add (k + 1) (k + 1) false) = .ok next ∧ Filled (k + 1) next
      ∧ (ListOp.add (k + 1) (k + 1) false).overruns bts = false := by
  obtain ⟨hlists,hu,he⟩ := h
  have hlen : bts.siCommon.uarfcnLength < maxEarfcnList := by
    rw [hlists]
    exact hk
  have hnone : bts.siCommon.uarfcnScPos (k + 1) (k + 1) = none := by
    rw [hlists]
    exact filledLists_absent (Nat.le_of_lt hk) (Nat.lt_succ_self k)
  have htrying : (bts.trying (k + 1) (k + 1) false).siCommon = filledLists (k + 1) := by
    change bts.siCommon.insertAt (bts.siCommon.placeFor (k + 1)) _ _ = _
    rw [hlists]
    exact filledLists_insert hk
  obtain ⟨next,num,ht⟩ := @tried bts (k + 1) (k + 1) false hlen (by rw [hu]; omega)
  have hfit : num ≤ si2qMaxNum := by
    rw [ht.fits,htrying,hu,he]
    exact filledLists_fits (Nat.succ_pos k) hk
  have hoff := si2qNum_offsets ht.ran
  have hadd := (btsUarfcnAdd_tried (Nat.ne_of_lt hlen) hnone ht.ran).trans (if_pos hfit)
  refine ⟨{ next with si2qCount := num - 1 },?_,⟨ht.siCommon.trans htrying,hoff⟩,?_⟩
  · rw [ListOp.step,ListOp.call,hadd]
    rfl
  · rw [← Bool.not_eq_true,overruns_add (Nat.ne_of_lt hlen) hnone ht]
    exact fun h => h.1 hfit

theorem filled_reach {b0 : Si2qBts} (h0 : Filled 0 b0) {k : Nat} (hk : k ≤ maxEarfcnList) :
    ∃ bts, Reach ListOp.step (fun bts op => op.good bts) (· = b0) bts ∧ Filled k bts := by
  have hmax : maxEarfcnList = 32 := rfl
  induction k with
  | zero => exact ⟨b0,.start rfl,h0⟩
  | succ k ih =>
    obtain ⟨bts,hreach,hfilled⟩ := ih (by omega)
    obtain ⟨next,hstep,hnext,hover⟩ := hfilled.add hk
    exact ⟨next,.next hreach ⟨by simp [ListOp.ranged]; omega,hover⟩ hstep,hnext⟩

/-- When the list is full, the deletion of its second pair gives the first one the code of
the second. -/
theorem uarfcnLists_overrun :
    ∃ bts, Reach ListOp.step (fun _ op => op.ranged = true) (· = emptyBts) bts
      ∧ ¬ WithinArrays bts (.del 2 2) ∧ ¬ Exact bts (.del 2 2) := by
  obtain ⟨bts,hreach,hlists,hoff,-⟩ := @filled_reach emptyBts
    ⟨by simp [emptyBts,filledLists],rfl,rfl⟩ maxEarfcnList (Nat.le_refl _)
  refine ⟨bts,hreach.mono fun _ _ h => h.1,?_,?_⟩
  · have hover : (ListOp.del 2 2).overruns bts = true := by
      change (bts.siCommon.uarfcnScPos 2 2).any bts.siCommon.overruns = true
      rw [hlists]
      decide +kernel
    rw [@ListOp.within_iff _ (.del 2 2) (by rw [hlists]; exact Nat.le_refl _) (by rw [hoff]; omega),hover]
    simp
  · rintro ⟨next,rc,hcall,hchanges⟩
    have hfound : bts.siCommon.uarfcnScPos 2 2 = some 1 := by
      rw [hlists]
      decide +kernel
    rw [ListOp.call,btsUarfcnDel_found hfound] at hcall
    cases hcall
    simp only [Si2qBts.withLists,hlists] at hchanges
    have hwrong : (1,2) ∈ ((filledLists maxEarfcnList).removeAt 1).entries := by decide +kernel
    have habsent : (1,2) ∉ (filledLists maxEarfcnList).entries := by decide +kernel
    generalize ((filledLists maxEarfcnList).removeAt 1).entries = L at hchanges hwrong
    cases hchanges with
    | deleted hp hkey => exact habsent (List.mem_of_mem_eraseIdx hwrong)

end Full

end OsmoBsc.Si.Si2q
