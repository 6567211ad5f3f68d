import OsmoBsc.Chan.FreeCount
import OsmoBsc.Chan.ChanLoad
import OsmoBsc.Paging.Model
import Mathlib.Data.Finset.Card
set_option autoImplicit false

/-! The free channels that paging counts before it sends a request, and those that could be handed out. -/

namespace OsmoBsc.Chan
open EventFsm Calls Paging

/-- What `can_send_pag_req` and the selection of lchans read of a BTS and its network. -/
structure PagBts where
  trxList : List LoadTrx
  isIpaccess : Bool
  chanAllocReverse : Bool
  dynTsAllowTchF : Bool
  neci : Bool
  pagAnyTch : Bool
  freeChansNeed : Int
  nodup : (trxList.flatMap fun trx => trx.ts.map Prod.fst).Nodup

def trxIsUsable (isIpaccess : Bool) (trx : LoadTrx) : Bool := !isIpaccess || trx.running

namespace PagBts

def toBts (bts : PagBts) : Bts where
  trxList := bts.trxList.map fun trx => ⟨trxIsUsable bts.isIpaccess trx,trx.ts.map Prod.fst⟩
  chanAllocReverse := bts.chanAllocReverse
  dynTsAllowTchF := bts.dynTsAllowTchF
  nodup := by simpa only [List.flatMap_map] using bts.nodup

/-- Whether `can_send_pag_req` counts TCHs. -/
def countsTch (bts : PagBts) : ChanNeeded → Bool
  | .tchF | .tchForH => true
  | .sdcch => false
  | .any => bts.pagAnyTch

def countedKinds (bts : PagBts) (rslType : ChanNeeded) : List Pchan :=
  if bts.countsTch rslType then if bts.neci then [.tchF,.tchH] else [.tchF]
  else [.sdcch8Sacch8c,.ccchSdcch4]

def needed (bts : PagBts) (rslType : ChanNeeded) : List ChanT :=
  if bts.countsTch rslType then if bts.neci then [.tchF,.tchH] else [.tchF] else [.sdcch]

end PagBts

def LoadCounter.free (c : LoadCounter) : Int := (c.total : Int) - c.used

/-- `can_send_pag_req`, which holds the request back where it is true. -/
def canSendPagReq (bts : PagBts) (w : Bsc) (rslType : ChanNeeded) : Bool :=
  let pl := w.btsChanLoad bts.trxList
  let count :=
    if bts.countsTch rslType then (pl .tchF).free + if bts.neci then (pl .tchH).free else 0
    else (pl .sdcch8Sacch8c).free + (pl .ccchSdcch4).free
  decide (bts.freeChansNeed > count)

def Bsc.occupy (w : Bsc) (l : LchanId) (type : ChanT) : Bsc :=
  w.updLchan l ({ · with fi := some .established, type := type })

namespace Bts

/-- `lchan_select_by_type` hands out `n` lchans of these types, one after the other, until it finds none;
nothing else happens. -/
inductive Allocates (bts : Bts) (types : List ChanT) : Bsc → Nat → Prop where
  | done {w : Bsc} : (∀ type ∈ types, bts.lchanSelectByType type w = none) → Allocates bts types w 0
  | next {w : Bsc} {type : ChanT} {l : LchanId} {n : Nat} : type ∈ types →
      bts.lchanSelectByType type w = some l → Allocates bts types (w.occupy l type) n →
      Allocates bts types w (n+1)

def offers (w : Bsc) (p : Pchan × Pchan) (l : LchanId) : Bool :=
  tsIsUsable (w.ts l.ts) && (w.ts l.ts).pchanOnInit == p.1 && tsUsableAsPchan w l.ts p.2
    && (w.unusedLchans l.ts p.2).contains l

def searchesOf (bts : Bts) (types : List ChanT) : List (Pchan × Pchan) := types.flatMap bts.searches

def free (bts : Bts) (types : List ChanT) (w : Bsc) : Finset LchanId :=
  ((bts.usableTs.flatMap fun t => (List.range 8).map (⟨t,·⟩ : Nat → LchanId)).filter fun l =>
    (bts.searchesOf types).any fun p => offers w p l).toFinset

end Bts

namespace PagBts

/-- The lchan is under one of the counters: of a timeslot that runs, of a kind that is counted, and one of the
subslots that the timeslot has now. -/
def underCounter (bts : PagBts) (rslType : ChanNeeded) (w : Bsc) (l : LchanId) : Bool :=
  (loadTs bts.trxList).contains l.ts && (bts.countedKinds rslType).contains (w.ts l.ts).pchanOnInit
    && (w.lchansFrom l.ts (w.ts l.ts).pchanIs 8 0).contains l

def counted (bts : PagBts) (rslType : ChanNeeded) (w : Bsc) : Finset LchanId :=
  (((loadTs bts.trxList).filter fun t => (bts.countedKinds rslType).contains (w.ts t).pchanOnInit).flatMap fun t =>
    w.unusedLchans t (w.ts t).pchanIs).toFinset

/-- The lchans that could be handed out and are under no counter: of a kind with CBCH, of a dynamic timeslot, or
of what does not run. -/
def missed (bts : PagBts) (rslType : ChanNeeded) (w : Bsc) : Finset LchanId :=
  (bts.toBts.free (bts.needed rslType) w).filter fun l => ¬ bts.underCounter rslType w l

/-- The unused lchans under the counters that no search can find, as those of a broken timeslot. -/
def phantom (bts : PagBts) (rslType : ChanNeeded) (w : Bsc) : Finset LchanId :=
  (bts.counted rslType w).filter fun l =>
    ¬ (bts.toBts.searchesOf (bts.needed rslType)).any fun p => Bts.offers w p l

def common (bts : PagBts) (rslType : ChanNeeded) (w : Bsc) : Finset LchanId :=
  (bts.toBts.free (bts.needed rslType) w).filter fun l => bts.underCounter rslType w l

/-- The needed number is one that the lchans missed and those counted in vain decide about. -/
def Misjudges (bts : PagBts) (rslType : ChanNeeded) (w : Bsc) : Prop :=
  (bts.common rslType w).card + min (bts.missed rslType w).card (bts.phantom rslType w).card < bts.freeChansNeed
    ∧ bts.freeChansNeed ≤ (bts.common rslType w).card
      + max (bts.missed rslType w).card (bts.phantom rslType w).card

end PagBts

section Selection

variable {bts : Bts} {types : List ChanT} {type : ChanT} {w : Bsc} {l l' : LchanId} {p : Pchan × Pchan}

theorem lchansFrom_nr {t : TsId} {q : Pchan} {n i : Nat} (h : l ∈ w.lchansFrom t q n i) :
    l.ts = t ∧ i ≤ l.nr ∧ l.nr < 8 := by
  induction n generalizing i with
  | zero => cases h
  | succ n ih =>
    simp only [Bsc.lchansFrom] at h
    split at h
    · rename_i hat
      simp only [Bsc.hasLchanAt,Bool.and_eq_true,decide_eq_true_eq] at hat
      rcases List.mem_cons.mp h with rfl | h
      · exact ⟨rfl,Nat.le_refl _,hat.1.1⟩
      · obtain ⟨hts,hle,hlt⟩ := ih h
        exact ⟨hts,by omega,hlt⟩
    · cases h

theorem lchansFrom_nodup {t : TsId} {q : Pchan} {n i : Nat} : (w.lchansFrom t q n i).Nodup := by
  induction n generalizing i with
  | zero => exact List.nodup_nil
  | succ n ih =>
    simp only [Bsc.lchansFrom]
    split
    · refine List.nodup_cons.mpr ⟨fun h => ?_,ih⟩
      exact Nat.not_succ_le_self i (lchansFrom_nr h).2.1
    · exact List.nodup_nil

theorem mem_unusedLchans {t : TsId} {q : Pchan} :
    l ∈ w.unusedLchans t q ↔ l ∈ w.lchansFrom t q 8 0 ∧ (w.lchan l).fi = some .unused := by
  simp [Bsc.unusedLchans]

theorem offers_iff : Bts.offers w p l = true ↔ tsIsUsable (w.ts l.ts) = true ∧ (w.ts l.ts).pchanOnInit = p.1
    ∧ tsUsableAsPchan w l.ts p.2 = true ∧ l ∈ w.unusedLchans l.ts p.2 := by
  simp [Bts.offers,and_assoc]

theorem mem_free : l ∈ bts.free types w ↔ l.ts ∈ bts.usableTs ∧ ∃ p ∈ bts.searchesOf types, Bts.offers w p l := by
  rw [Bts.free,List.mem_toFinset,List.mem_filter,List.any_eq_true,List.mem_flatMap]
  constructor
  · rintro ⟨⟨t,ht,hl⟩,hp⟩
    obtain ⟨nr,-,rfl⟩ := List.mem_map.mp hl
    exact ⟨ht,hp⟩
  · rintro ⟨ht,p,hp,ho⟩
    have hun := (mem_unusedLchans.mp (offers_iff.mp ho).2.2.2).1
    exact ⟨⟨l.ts,ht,List.mem_map.mpr ⟨l.nr,List.mem_range.mpr (lchansFrom_nr hun).2.2,rfl⟩⟩,p,hp,ho⟩

theorem lcFindTs_eq_some {t : TsId} (h : Bts.lcFindTs p.1 p.2 w t = some l) : l.ts = t ∧ Bts.offers w p l := by
  unfold Bts.lcFindTs at h
  split at h
  · rename_i hc
    simp only [Bool.and_eq_true,beq_iff_eq] at hc
    have hmem := List.mem_of_find?_eq_some h
    have hun := List.find?_some h
    obtain ⟨rfl,-⟩ := lchansFrom_nr hmem
    exact ⟨rfl,offers_iff.mpr ⟨hc.1.1,hc.1.2,hc.2,mem_unusedLchans.mpr ⟨hmem,by simpa using hun⟩⟩⟩
  · cases h

theorem lcFindTs_eq_none (h : Bts.lcFindTs p.1 p.2 w l.ts = none) : ¬ Bts.offers w p l := by
  intro ho
  obtain ⟨hu,hon,has,hun⟩ := offers_iff.mp ho
  obtain ⟨hmem,hfi⟩ := mem_unusedLchans.mp hun
  rw [Bts.lcFindTs,if_pos (by simp [hu,hon,has]),List.find?_eq_none] at h
  exact h l hmem (by simp [hfi])

theorem free_of_select (htype : type ∈ types) (h : bts.lchanSelectByType type w = some l) : l ∈ bts.free types w := by
  obtain ⟨p,hp,h⟩ := List.exists_of_findSome?_eq_some h
  obtain ⟨trx,htrx,h⟩ := List.exists_of_findSome?_eq_some h
  rw [Bts.lcFindTrx] at h
  split at h
  · rename_i hu
    obtain ⟨t,ht,h⟩ := List.exists_of_findSome?_eq_some h
    obtain ⟨rfl,ho⟩ := lcFindTs_eq_some h
    exact mem_free.mpr ⟨Bts.mem_usableTs.mpr ⟨trx,Bts.mem_order.mp htrx,hu,Bts.mem_order.mp ht⟩,p,
      List.mem_flatMap.mpr ⟨type,htype,hp⟩,ho⟩
  · cases h

theorem free_empty (h : ∀ type ∈ types, bts.lchanSelectByType type w = none) : bts.free types w = ∅ := by
  refine Finset.eq_empty_of_forall_notMem fun l hl => ?_
  obtain ⟨hts,p,hp,ho⟩ := mem_free.mp hl
  obtain ⟨type,htype,hp⟩ := List.mem_flatMap.mp hp
  obtain ⟨trx,htrx,hu,ht⟩ := Bts.mem_usableTs.mp hts
  have hnone := h type htype
  rw [Bts.lchanSelectByType,List.findSome?_eq_none_iff] at hnone
  have hbts := hnone p hp
  rw [Bts.lcDynFindBts,List.findSome?_eq_none_iff] at hbts
  have hfind := hbts trx (Bts.mem_order.mpr htrx)
  rw [Bts.lcFindTrx,if_pos hu,List.findSome?_eq_none_iff] at hfind
  exact lcFindTs_eq_none (hfind l.ts (Bts.mem_order.mpr ht)) ho

theorem occupy_isSome (hl : (w.lchan l).fi = some .unused) :
    ((w.occupy l type).lchan l').fi.isSome = (w.lchan l').fi.isSome := by
  by_cases he : l' = l
  · subst he
    simp [Bsc.occupy,hl]
  · rw [Bsc.occupy,Bsc.updLchan_ne _ _ _ he]

theorem occupy_lchansFrom (hl : (w.lchan l).fi = some .unused) (t : TsId) (q : Pchan) (n i : Nat) :
    (w.occupy l type).lchansFrom t q n i = w.lchansFrom t q n i := by
  induction n generalizing i with
  | zero => rfl
  | succ n ih =>
    have hhas : (w.occupy l type).hasLchanAt t q i = w.hasLchanAt t q i := by
      rw [Bsc.hasLchanAt,Bsc.hasLchanAt,occupy_isSome hl]
    rw [Bsc.lchansFrom,Bsc.lchansFrom,hhas,ih]

theorem occupy_unused (hl : (w.lchan l).fi = some .unused) :
    ((w.occupy l type).lchan l').fi = some .unused ↔ (w.lchan l').fi = some .unused ∧ l' ≠ l := by
  by_cases he : l' = l
  · subst he
    simp [Bsc.occupy]
  · rw [Bsc.occupy,Bsc.updLchan_ne _ _ _ he,and_iff_left he]

theorem occupy_usableAs (hl : (w.lchan l).fi = some .unused) (t : TsId) (q : Pchan) :
    tsUsableAsPchan (w.occupy l type) t q = tsUsableAsPchan w t q := by
  have hsame : ∀ l', ((w.occupy l type).lchan l').fi = some .waitTsReady ↔ (w.lchan l').fi = some .waitTsReady := by
    intro l'
    by_cases he : l' = l
    · subst he
      simp [Bsc.occupy,hl]
    · rw [Bsc.occupy,Bsc.updLchan_ne _ _ _ he]
  have hfind : ((w.occupy l type).potentialLchans t).find? (fun l' => ((w.occupy l type).lchan l').fi == some .waitTsReady)
      = (w.potentialLchans t).find? fun l' => (w.lchan l').fi == some .waitTsReady := by
    rw [Bsc.potentialLchans,Bsc.potentialLchans,occupy_lchansFrom hl]
    refine List.find?_congr fun l' _ => ?_
    rw [Bool.eq_iff_iff,beq_iff_eq,beq_iff_eq]
    exact hsame l'
  have hts : (w.occupy l type).ts = w.ts := rfl
  simp only [tsUsableAsPchan,hfind,hts]
  cases hf : (w.potentialLchans t).find? fun l' => (w.lchan l').fi == some .waitTsReady with
  | none => cases (w.ts t).fi <;> rfl
  | some l' =>
    have hw : (w.lchan l').fi = some .waitTsReady := by simpa using List.find?_some hf
    have hne : l' ≠ l := by
      rintro rfl
      rw [hl] at hw
      cases hw
    have htype : ((w.occupy l type).lchan l').type = (w.lchan l').type := by
      rw [Bsc.occupy,Bsc.updLchan_ne _ _ _ hne]
    cases (w.ts t).fi <;> simp only [htype]

theorem occupy_offers (hl : (w.lchan l).fi = some .unused) :
    Bts.offers (w.occupy l type) p l' = true ↔ Bts.offers w p l' = true ∧ l' ≠ l := by
  rw [offers_iff,offers_iff,mem_unusedLchans,mem_unusedLchans,occupy_lchansFrom hl,occupy_unused hl,occupy_usableAs hl]
  have hts : (w.occupy l type).ts = w.ts := rfl
  rw [hts]
  tauto

theorem occupy_free (hl : (w.lchan l).fi = some .unused) :
    bts.free types (w.occupy l type) = (bts.free types w).erase l := by
  ext l'
  simp only [mem_free,Finset.mem_erase,occupy_offers hl]
  constructor
  · rintro ⟨ht,p,hp,ho,hne⟩
    exact ⟨hne,ht,p,hp,ho⟩
  · rintro ⟨hne,ht,p,hp,ho⟩
    exact ⟨ht,p,hp,ho,hne⟩

theorem unused_of_mem_free (h : l ∈ bts.free types w) : (w.lchan l).fi = some .unused := by
  obtain ⟨-,p,-,ho⟩ := mem_free.mp h
  exact (mem_unusedLchans.mp (offers_iff.mp ho).2.2.2).2

/-- However the requests come, as many lchans are handed out as the searches can find. -/
theorem allocates_card {n : Nat} (h : bts.Allocates types w n) : n = (bts.free types w).card := by
  induction h with
  | done hnone => rw [free_empty hnone,Finset.card_empty]
  | next htype hsel _ ih =>
    have hmem := free_of_select htype hsel
    have hpos := Finset.card_pos.mpr ⟨_,hmem⟩
    rw [occupy_free (unused_of_mem_free hmem),Finset.card_erase_of_mem hmem] at ih
    omega

theorem allocates_exists : bts.Allocates types w (bts.free types w).card := by
  induction hn : (bts.free types w).card generalizing w with
  | zero =>
    refine .done fun type htype => ?_
    cases hsel : bts.lchanSelectByType type w with
    | none => rfl
    | some l =>
      have hmem := free_of_select htype hsel
      rw [Finset.card_eq_zero.mp hn] at hmem
      exact absurd hmem (Finset.notMem_empty l)
  | succ n ih =>
    by_cases hex : ∃ type ∈ types, ∃ l, bts.lchanSelectByType type w = some l
    · obtain ⟨type,htype,l,hsel⟩ := hex
      have hmem := free_of_select htype hsel
      refine .next htype hsel (ih ?_)
      rw [occupy_free (unused_of_mem_free hmem),Finset.card_erase_of_mem hmem,hn,Nat.add_sub_cancel]
    · have hnone : ∀ type ∈ types, bts.lchanSelectByType type w = none := by
        intro type htype
        exact Option.eq_none_iff_forall_ne_some.mpr fun l hsel => hex ⟨type,htype,l,hsel⟩
      rw [free_empty hnone,Finset.card_empty] at hn
      cases hn

end Selection

section Counting

variable {bts : PagBts} {rslType : ChanNeeded} {w : Bsc} {l : LchanId}

theorem loadTs_nodup (bts : PagBts) : (loadTs bts.trxList).Nodup := by
  obtain ⟨hone,hpair⟩ := List.nodup_flatMap.mp bts.nodup
  refine List.nodup_flatMap.mpr ⟨fun trx htrx => ?_,?_⟩
  · exact (hone trx (List.mem_of_mem_filter htrx)).sublist (List.filter_sublist.map Prod.fst)
  · refine (hpair.filter _).imp fun hdisj => ?_
    intro t ht ht'
    exact hdisj ((List.filter_sublist.map Prod.fst).mem ht) ((List.filter_sublist.map Prod.fst).mem ht')

theorem usableTs_of_loadTs {t : TsId} (h : t ∈ loadTs bts.trxList) : t ∈ bts.toBts.usableTs := by
  obtain ⟨trx,htrx,ht⟩ := List.mem_flatMap.mp h
  obtain ⟨hmem,hrun⟩ := List.mem_filter.mp htrx
  refine Bts.mem_usableTs.mpr ⟨_,List.mem_map.mpr ⟨trx,hmem,rfl⟩,?_,?_⟩
  · simp [trxIsUsable,hrun]
  · exact (List.filter_sublist.map Prod.fst).mem ht

theorem mem_counted : l ∈ bts.counted rslType w ↔ bts.underCounter rslType w l = true
    ∧ (w.lchan l).fi = some .unused := by
  simp only [PagBts.counted,PagBts.underCounter,List.mem_toFinset,List.mem_flatMap,List.mem_filter,mem_unusedLchans,
    Bool.and_eq_true,List.contains_iff_mem]
  constructor
  · rintro ⟨t,⟨ht,hk⟩,hl,hfi⟩
    obtain ⟨rfl,-⟩ := lchansFrom_nr hl
    exact ⟨⟨⟨ht,hk⟩,hl⟩,hfi⟩
  · rintro ⟨⟨⟨ht,hk⟩,hl⟩,hfi⟩
    exact ⟨l.ts,⟨ht,hk⟩,hl,hfi⟩

theorem counter_free (trxList : List LoadTrx) (k : Pchan) : (w.btsChanLoad trxList k).free =
    ((((loadTs trxList).filter fun t => (w.ts t).pchanOnInit == k).map fun t =>
      (w.unusedLchans t (w.ts t).pchanIs).length).sum : Nat) := by
  have hts : ∀ t, (w.tsChanLoad t).total = (w.unusedLchans t (w.ts t).pchanIs).length + (w.tsChanLoad t).used :=
    fun t => List.length_eq_length_filter_add fun l => (w.lchan l).fi == some .unused
  simp only [Bsc.btsChanLoad,LoadCounter.free,hts,List.sum_map_add]
  omega

theorem sum_two_kinds (tss : List TsId) (f : TsId → Nat) (on : TsId → Pchan) {k k' : Pchan} (hne : k ≠ k') :
    ((tss.filter fun t => [k,k'].contains (on t)).map f).sum =
      ((tss.filter fun t => on t == k).map f).sum + ((tss.filter fun t => on t == k').map f).sum := by
  induction tss with
  | nil => rfl
  | cons t tss ih =>
    simp only [List.contains_iff_mem,List.mem_cons,List.not_mem_nil,or_false,beq_iff_eq,List.filter_cons]
      at ih ⊢
    by_cases hk : on t = k
    · have hk' : on t ≠ k' := hk.trans_ne hne
      simp [hk,hne] at ih ⊢
      omega
    · by_cases hk' : on t = k'
      · simp [hk',hne.symm] at ih ⊢
        omega
      · simpa [hk,hk'] using ih

theorem canSendPagReq_iff : canSendPagReq bts w rslType = true ↔ ((bts.counted rslType w).card : Int) < bts.freeChansNeed := by
  have hcard : (bts.counted rslType w).card =
      (((loadTs bts.trxList).filter fun t => (bts.countedKinds rslType).contains (w.ts t).pchanOnInit).map fun t =>
        (w.unusedLchans t (w.ts t).pchanIs).length).sum := by
    rw [PagBts.counted,List.toFinset_card_of_nodup,List.length_flatMap]
    refine List.nodup_flatMap.mpr ⟨fun t _ => lchansFrom_nodup.filter _,?_⟩
    refine ((loadTs_nodup bts).filter _).imp fun hne => ?_
    intro l hl hl'
    exact hne ((lchansFrom_nr (mem_unusedLchans.mp hl).1).1.symm.trans (lchansFrom_nr (mem_unusedLchans.mp hl').1).1)
  rw [hcard]
  unfold canSendPagReq PagBts.countedKinds
  simp only [decide_eq_true_eq,counter_free]
  cases bts.countsTch rslType with
  | false =>
    simp only [Bool.false_eq_true,if_false]
    rw [sum_two_kinds _ _ _ (by decide : Pchan.sdcch8Sacch8c ≠ .ccchSdcch4)]
    push_cast
    exact Iff.rfl
  | true =>
    cases bts.neci with
    | false =>
      simp only [if_true,Bool.false_eq_true,if_false,List.contains_cons,List.contains_nil,Bool.or_false,add_zero]
    | true =>
      simp only [if_true]
      rw [sum_two_kinds _ _ _ (by decide : Pchan.tchF ≠ .tchH)]
      push_cast
      exact Iff.rfl

theorem free_card : (bts.toBts.free (bts.needed rslType) w).card =
    (bts.common rslType w).card + (bts.missed rslType w).card := by
  have h := Finset.card_filter_add_card_filter_not (s := bts.toBts.free (bts.needed rslType) w)
    fun l => bts.underCounter rslType w l = true
  exact h.symm

theorem counted_card : (bts.counted rslType w).card = (bts.common rslType w).card + (bts.phantom rslType w).card := by
  have h := Finset.card_filter_add_card_filter_not (s := bts.counted rslType w)
    fun l => (bts.toBts.searchesOf (bts.needed rslType)).any (Bts.offers w · l) = true
  have hcommon : ((bts.counted rslType w).filter fun l =>
      (bts.toBts.searchesOf (bts.needed rslType)).any (Bts.offers w · l) = true) = bts.common rslType w := by
    ext l
    simp only [PagBts.common,Finset.mem_filter,mem_counted,mem_free,List.any_eq_true]
    constructor
    · rintro ⟨⟨hunder,-⟩,hoffers⟩
      have hts : l.ts ∈ loadTs bts.trxList := by
        simp only [PagBts.underCounter,Bool.and_eq_true,List.contains_iff_mem] at hunder
        exact hunder.1.1
      exact ⟨⟨usableTs_of_loadTs hts,hoffers⟩,hunder⟩
    · rintro ⟨⟨hts,p,hp,ho⟩,hunder⟩
      exact ⟨⟨hunder,(mem_unusedLchans.mp (offers_iff.mp ho).2.2.2).2⟩,p,hp,ho⟩
  rw [hcommon] at h
  exact h.symm

end Counting

/-- The request is held back just where fewer channels than needed could be handed out, unless the needed number
is one that the missed lchans and those counted in vain decide about. -/
theorem canSendPagReq_free (bts : PagBts) (w : Bsc) (rslType : ChanNeeded) :
    ∃ n, (∀ n', bts.toBts.Allocates (bts.needed rslType) w n' ↔ n' = n)
      ∧ ((canSendPagReq bts w rslType = true ↔ (n : Int) < bts.freeChansNeed) ↔ ¬ bts.Misjudges rslType w) := by
  refine ⟨(bts.toBts.free (bts.needed rslType) w).card,fun n' => ⟨allocates_card,?_⟩,?_⟩
  · rintro rfl
    exact allocates_exists
  · rw [canSendPagReq_iff,PagBts.Misjudges,free_card,counted_card]
    push_cast
    omega

/-- A BTS with one TRX of one timeslot, and one free channel needed for paging. -/
def oneTsPaging : PagBts := ⟨[⟨true,[(0,true)]⟩],true,false,true,true,false,1,by decide⟩

/-- The timeslot of kind CCCH+SDCCH/4+CBCH has three free SDCCHs, and no request is sent. -/
theorem canSendPagReq_cbch :
    ∃ c, Reachable (tsOfKind .ccchSdcch4Cbch) (fun _ _ => True) c ∧ c.Quiescent
      ∧ canSendPagReq oneTsPaging c.state .sdcch = true ∧ ¬ 3 < oneTsPaging.freeChansNeed
      ∧ oneTsPaging.toBts.Allocates (oneTsPaging.needed .sdcch) c.state 3 := by
  have hrun : ∃ c, run (step (tsOfKind .ccchSdcch4Cbch)) initial (moves 40 [.omlReady 0,.rslReady 0]) = .ok c
      ∧ c.Quiescent ∧ canSendPagReq oneTsPaging c.state .sdcch = true
      ∧ (oneTsPaging.toBts.free (oneTsPaging.needed .sdcch) c.state).card = 3 := by
    decide +kernel
  obtain ⟨c,hc,hq,hheld,hcard⟩ := hrun
  refine ⟨c,Reach.of_run (.start rfl) (.of_forall (fun _ _ => trivial) _ _) hc,hq,hheld,by decide,?_⟩
  rw [← hcard]
  exact allocates_exists

end OsmoBsc.Chan
