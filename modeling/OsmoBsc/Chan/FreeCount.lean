import OsmoBsc.Chan.FreeChannels
import Mathlib.Algebra.BigOperators.Group.List.Basic
import Mathlib.Data.List.Find
import Mathlib.Data.List.Flatten
set_option autoImplicit false

namespace OsmoBsc.Chan
open EventFsm Calls

def Bts.usableTs (bts : Bts) : List TsId := (bts.trxList.filter Trx.usable).flatMap Trx.ts

/-- `lchan_select_by_type` looks into timeslots of this kind. -/
def Bts.searched (bts : Bts) (type : ChanT) (pchan : Pchan) : Bool :=
  (bts.searches type).any fun p => p.1 == pchan

/-- The number of lchans that are left to `lchan_select_by_type` in a timeslot. -/
def Bts.spare (bts : Bts) (type : ChanT) (w : Bsc) (t : TsId) : Nat :=
  if tsIsUsable (w.ts t) && bts.searched type (w.ts t).pchanOnInit
      && tsUsableAsPchan w t (gsmPchanByLchanType type) then
    (w.unusedLchans t (gsmPchanByLchanType type)).length
  else 0

section Selection

variable {bts : Bts} {type : ChanT} {w w' : Bsc} {t : TsId} {l : LchanId} {cfg : TsId → TsCfg}

theorem Bts.mem_order {α : Type} {xs : List α} {a : α} : a ∈ bts.order xs ↔ a ∈ xs := by
  rw [order]
  split <;> simp

theorem Bts.mem_usableTs : t ∈ bts.usableTs ↔ ∃ trx ∈ bts.trxList, trx.usable = true ∧ t ∈ trx.ts := by
  simp [usableTs,and_assoc]

theorem searches_snd (htype : type = .tchF ∨ type = .tchH) {p : Pchan × Pchan} (hp : p ∈ bts.searches type) :
    p.2 = gsmPchanByLchanType type := by
  rcases htype with rfl | rfl
  · simp only [Bts.searches] at hp
    split at hp <;> simp at hp
    · rcases hp with rfl | rfl | rfl <;> rfl
    · rcases hp with rfl | rfl <;> rfl
  · simp only [Bts.searches,List.mem_cons,List.not_mem_nil,or_false] at hp
    rcases hp with rfl | rfl <;> rfl

theorem Bts.spare_eq_zero : bts.spare type w t = 0 ↔
    ∀ p ∈ bts.searches type, lcFindTs p.1 (gsmPchanByLchanType type) w t = none := by
  have hsome : ∀ p : Pchan, (w.lchansFrom t p 8 0).find? (fun l => (w.lchan l).fi == some .unused) = none ↔
      w.unusedLchans t p = [] := by
    intro p
    simp [Bsc.unusedLchans]
  constructor
  · intro h p hp
    rw [lcFindTs]
    split
    · rename_i hc
      simp only [Bool.and_eq_true,beq_iff_eq] at hc
      have hs : bts.searched type (w.ts t).pchanOnInit = true :=
        List.any_eq_true.mpr ⟨p,hp,by simp [hc.1.2]⟩
      rw [spare,if_pos (by simp [hc.1.1,hs,hc.2])] at h
      exact (hsome _).mpr (List.length_eq_zero_iff.mp h)
    · rfl
  · intro h
    rw [spare]
    split
    · rename_i hc
      simp only [Bool.and_eq_true] at hc
      obtain ⟨p,hp,hon⟩ := List.any_eq_true.mp hc.1.2
      have := h p hp
      rw [lcFindTs,if_pos (by simp [hc.1.1,hc.2,eq_of_beq hon])] at this
      rw [(hsome _).mp this]
      rfl
    · rfl

theorem lchanSelectByType_eq_none (htype : type = .tchF ∨ type = .tchH) :
    bts.lchanSelectByType type w = none ↔ ∀ t ∈ bts.usableTs, bts.spare type w t = 0 := by
  simp only [Bts.lchanSelectByType,List.findSome?_eq_none_iff,Bts.lcDynFindBts,Bts.mem_order,Bts.lcFindTrx,
    Bts.spare_eq_zero,Bts.mem_usableTs]
  constructor
  · rintro h t ⟨trx,htrx,hu,ht⟩ p hp
    have := h p hp trx htrx
    rw [if_pos hu,List.findSome?_eq_none_iff] at this
    rw [← searches_snd htype hp]
    exact this t (Bts.mem_order.mpr ht)
  · intro h p hp trx htrx
    split
    · rename_i hu
      rw [List.findSome?_eq_none_iff]
      intro t ht
      rw [searches_snd htype hp]
      exact h t ⟨trx,htrx,hu,Bts.mem_order.mp ht⟩ p hp
    · rfl

theorem lchanSelectByType_eq_some (htype : type = .tchF ∨ type = .tchH)
    (h : bts.lchanSelectByType type w = some l) :
    ∃ t ∈ bts.usableTs, l ∈ w.unusedLchans t (gsmPchanByLchanType type) ∧ tsIsUsable (w.ts t) = true
      ∧ bts.searched type (w.ts t).pchanOnInit = true
      ∧ tsUsableAsPchan w t (gsmPchanByLchanType type) = true := by
  obtain ⟨p,hp,h⟩ := List.exists_of_findSome?_eq_some h
  obtain ⟨trx,htrx,h⟩ := List.exists_of_findSome?_eq_some h
  rw [Bts.lcFindTrx] at h
  split at h
  · rename_i hu
    obtain ⟨t,ht,h⟩ := List.exists_of_findSome?_eq_some h
    rw [Bts.lcFindTs] at h
    split at h
    · rename_i hc
      simp only [Bool.and_eq_true,beq_iff_eq,searches_snd htype hp] at hc h
      have hun := List.find?_some h
      refine ⟨t,Bts.mem_usableTs.mpr ⟨trx,Bts.mem_order.mp htrx,hu,Bts.mem_order.mp ht⟩,?_,hc.1.1,?_,hc.2⟩
      · exact List.mem_filter.mpr ⟨List.mem_of_find?_eq_some h,hun⟩
      · exact List.any_eq_true.mpr ⟨p,hp,by simp [hc.1.2]⟩
    · cases h
  · cases h

theorem Bts.usableTs_nodup (bts : Bts) : bts.usableTs.Nodup := by
  exact bts.nodup.sublist (List.filter_sublist.flatMap Trx.ts)

theorem sum_map_decr {α : Type} [DecidableEq α] {xs : List α} {f g : α → Nat} {a : α} (hnd : xs.Nodup)
    (ha : a ∈ xs) (hf : f a = g a+1) (hother : ∀ b ∈ xs, b ≠ a → f b = g b) :
    (xs.map f).sum = (xs.map g).sum+1 := by
  have hrest : (xs.erase a).map f = (xs.erase a).map g :=
    List.map_congr_left fun b hb => hother b (List.mem_of_mem_erase hb) ((hnd.mem_erase_iff.mp hb).1)
  rw [← List.sum_map_erase f ha,← List.sum_map_erase g ha,hrest,hf]
  omega

theorem lchansFrom_eq {p : Pchan} {n i : Nat} (hn : pchanSubslots p ≤ i+n)
    (hslots : ∀ nr < pchanSubslots p, (w.lchan ⟨t,nr⟩).fi.isSome) :
    w.lchansFrom t p n i = (List.range' i (pchanSubslots p-i)).map (⟨t,·⟩) := by
  induction n generalizing i with
  | zero =>
    have h0 : pchanSubslots p-i = 0 := by omega
    rw [h0]
    rfl
  | succ n ih =>
    rw [Bsc.lchansFrom,hasLchanAt_eq hslots]
    by_cases hi : i < pchanSubslots p
    · have hsucc : pchanSubslots p-i = (pchanSubslots p-(i+1))+1 := by omega
      rw [if_pos (by simpa using hi),ih (by omega),hsucc,List.range'_succ]
      rfl
    · have h0 : pchanSubslots p-i = 0 := by omega
      rw [if_neg (by simpa using hi),h0]
      rfl

theorem unusedLchans_eq {p : Pchan} (hslots : ∀ nr < pchanSubslots p, (w.lchan ⟨t,nr⟩).fi.isSome) :
    w.unusedLchans t p = ((List.range (pchanSubslots p)).map (⟨t,·⟩ : Nat → LchanId)).filter
      fun l => (w.lchan l).fi == some .unused := by
  have h8 := pchanSubslots_le p
  rw [Bsc.unusedLchans,lchansFrom_eq (by omega) hslots,Nat.sub_zero,List.range_eq_range']

theorem Deals.slots_tch (htype : type = .tchF ∨ type = .tchH) (h : Deals w t type) :
    ∀ nr < pchanSubslots (gsmPchanByLchanType type), (w.lchan ⟨t,nr⟩).fi.isSome := fun nr hnr =>
  h.slots nr (Nat.lt_of_lt_of_le hnr (capable_subslots htype h.capable))

theorem HandedOut.deals (h : HandedOut w w' l type) (hd : Deals w l.ts type) : Deals w' l.ts type := by
  have hl : (w'.lchan l).fi.isSome ∧ (w'.lchan l).fi ≠ some .unused := by
    rcases h.taken with h | h <;> simp [h]
  have hcase : ∀ nr, (⟨l.ts,nr⟩ : LchanId) = l ∨ w'.lchan ⟨l.ts,nr⟩ = w.lchan ⟨l.ts,nr⟩ := fun nr =>
    or_iff_not_imp_left.mpr (h.lchan _)
  refine ⟨?_,fun nr hnr => ?_,fun nr hnr hun => ?_,h.dealing⟩
  · simpa [tsIsCapableOfLchant,h.onInit] using hd.capable
  · rcases hcase nr with he | he
    · rw [he]
      exact hl.1
    · rw [he]
      exact hd.slots nr (h.onInit ▸ hnr)
  · rcases hcase nr with he | he
    · rw [he] at hun
      exact absurd hun hl.2
    · rw [he] at hun ⊢
      exact hd.free nr hnr hun

theorem Deals.usable (htype : type = .tchF ∨ type = .tchH) (h : Deals w t type) :
    tsIsUsable (w.ts t) = true ∧ tsUsableAsPchan w t (gsmPchanByLchanType type) = true := by
  have hcap : tsIsCapableOfPchan (w.ts t) (gsmPchanByLchanType type) = true := by
    have := h.capable
    rcases htype with rfl | rfl <;> cases hp : (w.ts t).pchanOnInit <;>
      simp_all [tsIsCapableOfLchant,tsIsCapableOfPchan,gsmPchanByLchanType]
  rcases h.dealing with ⟨hfi,hp⟩ | ⟨hfi,hp,hwait,-⟩ | ⟨hfi,-,hus⟩ | ⟨hfi,-,-,hus⟩
  · simp [tsIsUsable,tsUsableAsPchan,hfi,hp]
  · have hnone : (w.potentialLchans t).find? (fun l => (w.lchan l).fi == some .waitTsReady) = none := by
      rw [List.find?_eq_none]
      intro l hl
      obtain ⟨rfl,-⟩ := lchansFrom_isSome hl
      simpa using hwait l.nr
    simp [tsIsUsable,tsUsableAsPchan,hfi,hnone,hcap]
  · exact ⟨by simp [tsIsUsable,hfi],hus⟩
  · refine ⟨?_,hus⟩
    rcases hfi with hfi | hfi <;> simp [tsIsUsable,hfi]

theorem tsUsableAsPchan_congr {p : Pchan} (hts : w'.ts t = w.ts t)
    (hl : ∀ nr, w'.lchan ⟨t,nr⟩ = w.lchan ⟨t,nr⟩) : tsUsableAsPchan w' t p = tsUsableAsPchan w t p := by
  have hpot : w'.potentialLchans t = w.potentialLchans t := by
    rw [Bsc.potentialLchans,Bsc.potentialLchans,hts]
    exact lchansFrom_congr fun nr => by rw [hl]
  have hmem : ∀ {l : LchanId}, l ∈ w.potentialLchans t → w'.lchan l = w.lchan l := by
    intro l hmem
    obtain ⟨rfl,-⟩ := lchansFrom_isSome hmem
    exact hl l.nr
  have hfind : (w'.potentialLchans t).find? (fun l => (w'.lchan l).fi == some .waitTsReady) =
      (w.potentialLchans t).find? (fun l => (w.lchan l).fi == some .waitTsReady) := by
    rw [hpot]
    exact List.find?_congr fun l hl => by rw [hmem hl]
  simp only [tsUsableAsPchan,hfind,hts]
  cases hf : (w.potentialLchans t).find? fun l => (w.lchan l).fi == some .waitTsReady with
  | none => cases (w.ts t).fi <;> rfl
  | some l =>
    have hsame := hmem (List.mem_of_find?_eq_some hf)
    cases (w.ts t).fi <;> simp only [hsame]

theorem Bts.spare_congr (hts : w'.ts t = w.ts t) (hl : ∀ nr, w'.lchan ⟨t,nr⟩ = w.lchan ⟨t,nr⟩) :
    bts.spare type w' t = bts.spare type w t := by
  have hunused : ∀ p, w'.unusedLchans t p = w.unusedLchans t p := by
    intro p
    have hfrom : w'.lchansFrom t p 8 0 = w.lchansFrom t p 8 0 := lchansFrom_congr fun nr => by rw [hl]
    rw [Bsc.unusedLchans,Bsc.unusedLchans,hfrom]
    refine List.filter_congr fun l hmem => ?_
    obtain ⟨rfl,-⟩ := lchansFrom_isSome hmem
    rw [hl l.nr]
  rw [spare,spare,hts,tsUsableAsPchan_congr hts hl,hunused]

theorem HandedOut.spare_other (h : HandedOut w w' l type) (hne : t ≠ l.ts) :
    bts.spare type w' t = bts.spare type w t :=
  Bts.spare_congr (h.ts t hne) fun _ => h.lchan _ fun he => hne (congrArg LchanId.ts he)

theorem HandedOut.spare_self (htype : type = .tchF ∨ type = .tchH) (h : HandedOut w w' l type)
    (hd : Deals w l.ts type) (hs : bts.searched type (w.ts l.ts).pchanOnInit = true)
    (hl : l ∈ w.unusedLchans l.ts (gsmPchanByLchanType type)) :
    bts.spare type w l.ts = bts.spare type w' l.ts+1 := by
  have hd' := h.deals hd
  have hsum : ∀ {w : Bsc}, Deals w l.ts type → (w.unusedLchans l.ts (gsmPchanByLchanType type)).length =
      ((List.range (pchanSubslots (gsmPchanByLchanType type))).map fun nr =>
        if (w.lchan ⟨l.ts,nr⟩).fi = some .unused then 1 else 0).sum := by
    intro w hd
    rw [unusedLchans_eq (hd.slots_tch htype)]
    induction List.range (pchanSubslots (gsmPchanByLchanType type)) with
    | nil => rfl
    | cons nr nrs ih =>
      rw [List.map_cons,List.map_cons,List.sum_cons,List.filter_cons,← ih]
      by_cases hf : (w.lchan ⟨l.ts,nr⟩).fi = some .unused
      · simp [hf,Nat.add_comm]
      · simp [hf]
  have hspare : ∀ {w : Bsc}, Deals w l.ts type → bts.searched type (w.ts l.ts).pchanOnInit = true →
      bts.spare type w l.ts = (w.unusedLchans l.ts (gsmPchanByLchanType type)).length := by
    intro w hd hs
    obtain ⟨h1,h2⟩ := hd.usable htype
    rw [Bts.spare,if_pos (by simp [h1,h2,hs])]
  rw [hspare hd hs,hspare hd' (by rw [h.onInit]; exact hs),hsum hd,hsum hd']
  rw [unusedLchans_eq (hd.slots_tch htype),List.mem_filter] at hl
  obtain ⟨nr,hnr,he⟩ := List.mem_map.mp hl.1
  refine sum_map_decr List.nodup_range hnr ?_ fun b _ hne => ?_
  · have hun : (w.lchan l).fi = some .unused := by simpa using hl.2
    rw [he]
    rcases h.taken with ht | ht <;> simp [hun,ht]
  · rw [h.lchan _ fun he' => hne (congrArg LchanId.nr (he'.trans he.symm))]

theorem Deals.congr (h : Deals w t type) (hts : w'.ts t = w.ts t)
    (hl : ∀ nr, w'.lchan ⟨t,nr⟩ = w.lchan ⟨t,nr⟩) : Deals w' t type := by
  refine ⟨?_,?_,?_,?_⟩
  · rw [hts]
    exact h.capable
  · simpa only [hts,hl] using h.slots
  · simpa only [hl] using h.free
  · rcases h.dealing with ⟨hfi,hp⟩ | ⟨hfi,hp,hwait,hby⟩ | ⟨hfi,hd,hus⟩ | ⟨hfi,hp,hd,hus⟩
    · exact .inUse (by rwa [hts]) (by rwa [hts])
    · exact .unused (by rwa [hts]) (by rwa [hts]) (by simpa only [hl] using hwait)
        (by simpa only [hts,hl] using hby)
    · exact .waitPdchAct (by rwa [hts]) (by rwa [hts]) (by rwa [tsUsableAsPchan_congr hts hl])
    · exact .pdch (by rwa [hts]) (by rwa [hts]) (by rwa [hts]) (by rwa [tsUsableAsPchan_congr hts hl])

theorem handsOut_spare (htype : type = .tchF ∨ type = .tchH)
    (h : ∀ t ∈ bts.usableTs, bts.spare type w t ≠ 0 → Deals w t type) :
    bts.HandsOut cfg type w (bts.usableTs.map (bts.spare type w)).sum := by
  induction hn : (bts.usableTs.map (bts.spare type w)).sum generalizing w with
  | zero =>
    refine .done ((lchanSelectByType_eq_none htype).mpr fun t ht => ?_)
    exact List.sum_eq_zero_iff_forall_eq_nat.mp hn _ (List.mem_map_of_mem ht)
  | succ n ih =>
    cases hsel : bts.lchanSelectByType type w with
    | none =>
      have hzero := (lchanSelectByType_eq_none htype).mp hsel
      have h0 : (bts.usableTs.map (bts.spare type w)).sum = 0 := by
        refine List.sum_eq_zero_iff_forall_eq_nat.mpr fun n hn => ?_
        obtain ⟨t,ht,rfl⟩ := List.mem_map.mp hn
        exact hzero t ht
      omega
    | some l =>
      obtain ⟨t,ht,hl,hu,hs,hus⟩ := lchanSelectByType_eq_some htype hsel
      obtain ⟨rfl,-⟩ := lchansFrom_isSome (List.mem_filter.mp hl).1
      have hne : bts.spare type w l.ts ≠ 0 := by
        rw [Bts.spare,if_pos (by simp [hu,hs,hus])]
        exact Nat.pos_iff_ne_zero.mp (List.length_pos_of_mem hl)
      have hd := h _ ht hne
      have hun : (w.lchan l).fi = some .unused := by simpa using (List.mem_filter.mp hl).2
      have hnr : l.nr < pchanSubslots (gsmPchanByLchanType type) := by
        have hmem := hl
        rw [unusedLchans_eq (hd.slots_tch htype),List.mem_filter] at hmem
        obtain ⟨nr,hnr,he⟩ := List.mem_map.mp hmem.1
        rw [← he]
        exact List.mem_range.mp hnr
      obtain ⟨w',hfin,hho⟩ := @Deals.handsOut cfg w l type htype hd hun hnr
      refine .next hsel hfin (ih (fun t' ht' hne' => ?_) ?_)
      · by_cases he : t' = l.ts
        · subst he
          exact hho.deals hd
        · refine (h t' ht' ?_).congr (hho.ts t' he) fun _ => hho.lchan _ fun h => he (congrArg LchanId.ts h)
          rwa [hho.spare_other he] at hne'
      · have := sum_map_decr bts.usableTs_nodup ht (hho.spare_self htype hd hs hl)
          fun b _ hb => (@HandedOut.spare_other bts type w w' b l hho hb).symm
        omega

end Selection

/-- A usable timeslot whose free lchans are those that can be selected: while it is no
PDCH and not in use, its channel is the kind asked for just when it can be used as such;
a PDCH can be used as such and has no broken lchan; and none that is refused has a free
lchan. Free lchans belong to nobody, and no lchan keeps an unused timeslot from being
used. -/
structure CountedRight (bts : Bts) (type : ChanT) (w : Bsc) (t : TsId) : Prop where
  plain : bts.searched type (w.ts t).pchanOnInit = true →
    (w.ts t).fi = .unused ∨ (w.ts t).fi = .waitPdchAct →
    ((w.ts t).pchanIs = gsmPchanByLchanType type ↔ tsUsableAsPchan w t (gsmPchanByLchanType type) = true)
      ∨ w.unusedLchans t (gsmPchanByLchanType type) = []
  pdch : bts.searched type (w.ts t).pchanOnInit = true → (w.ts t).fi.onPdch →
    tsUsableAsPchan w t (gsmPchanByLchanType type) = true
      ∧ ∀ nr < pchanSubslots (gsmPchanByLchanType type), (w.lchan ⟨t,nr⟩).fi = some .unused
  refused : (w.ts t).pchanOnInit = .tchFTchHPdch → bts.searched type .tchFTchHPdch = false →
    ¬ (w.ts t).fi.onPdch ∧ ((w.ts t).pchanIs = gsmPchanByLchanType type →
      w.unusedLchans t (gsmPchanByLchanType type) = [])
  free : bts.searched type (w.ts t).pchanOnInit = true → tsUsableAsPchan w t (gsmPchanByLchanType type) = true →
    ∀ nr < pchanSubslots (gsmPchanByLchanType type), (w.lchan ⟨t,nr⟩).fi = some .unused →
      (w.lchan ⟨t,nr⟩).Free
  bystands : bts.searched type (w.ts t).pchanOnInit = true → (w.ts t).fi = .unused →
    ∀ nr < pchanSubslots (w.ts t).pchanOnInit, (w.lchan ⟨t,nr⟩).Bystands type

section Counting

variable {bts : Bts} {type : ChanT} {w : Bsc} {t : TsId} {cfg : TsId → TsCfg} {good : Config → Move → Prop}
  {c : Config}

theorem searched_kind (htype : type = .tchF ∨ type = .tchH) {p : Pchan} (h : bts.searched type p = true) :
    p = gsmPchanByLchanType type ∨ p = .tchFPdch ∧ type = .tchF ∨ p = .tchFTchHPdch := by
  obtain ⟨q,hq,hp⟩ := List.any_eq_true.mp h
  obtain rfl := eq_of_beq hp
  rcases htype with rfl | rfl
  · simp only [Bts.searches] at hq
    split at hq <;> simp at hq
    · rcases hq with rfl | rfl | rfl <;> simp [gsmPchanByLchanType]
    · rcases hq with rfl | rfl <;> simp [gsmPchanByLchanType]
  · simp only [Bts.searches,List.mem_cons,List.not_mem_nil,or_false] at hq
    rcases hq with rfl | rfl <;> simp [gsmPchanByLchanType]

theorem searched_setup (htype : type = .tchF ∨ type = .tchH) {p : Pchan}
    (h : p.atSetup = gsmPchanByLchanType type) : bts.searched type p = true := by
  rcases htype with rfl | rfl <;> cases p <;>
    simp_all [Pchan.atSetup,gsmPchanByLchanType,Bts.searched,Bts.searches]

theorem searched_capable (htype : type = .tchF ∨ type = .tchH)
    (h : bts.searched type (w.ts t).pchanOnInit = true) : tsIsCapableOfLchant (w.ts t) type = true := by
  rcases searched_kind htype h with hp | ⟨hp,rfl⟩ | hp <;> rcases htype with h | h <;>
    simp_all [tsIsCapableOfLchant,gsmPchanByLchanType]

structure AtRest (w : Bsc) (t : TsId) : Prop where
  slots : ∀ nr < pchanSubslots (w.ts t).pchanOnInit, (w.lchan ⟨t,nr⟩).fi.isSome
  waiting : ∀ nr, (w.lchan ⟨t,nr⟩).fi = some .waitTsReady → (w.ts t).fi.switching
  mode : (w.ts t).fi.onPdch ∧ (w.ts t).pchanIs = .pdch ∧ (w.ts t).pchanOnInit.dynamic = true ∨
    ((w.ts t).fi = .unused ∨ (w.ts t).fi = .waitPdchAct ∧ (w.ts t).pchanOnInit.dynamic = true
      ∨ (w.ts t).fi = .inUse) ∧ (w.ts t).pchanOnInit.HasMode (w.ts t).pchanIs

theorem Reachable.atRest (h : Reachable cfg good c) (hq : c.Quiescent)
    (hu : tsIsUsable (c.state.ts t) = true) : AtRest c.state t := by
  have hinit : (c.state.ts t).fi ≠ .notInitialized := by
    intro hfi
    simp [tsIsUsable,hfi] at hu
  have ha := (h.agreed t).1
  have hpdch : (c.state.ts t).fi.onPdch → (c.state.ts t).pchanIs = .pdch := by
    intro hfi
    rcases ha.pdch hfi with ⟨his,-⟩ | ⟨-,hcalls,-⟩
    · exact his
    · rw [hq] at hcalls
      cases hcalls
  refine ⟨fun nr hnr => ?_,fun nr hfi => ?_,?_⟩
  · have ho := (h.upright t).up hinit
    rcases h.wakeup.slots t with hst | ⟨j,hj⟩
    · rcases hst.lchans with ⟨-,hon,hl⟩ | ⟨hdown,-⟩
      · exact (hl nr).mpr (hon ▸ hnr)
      · exact absurd (hdown.symm.trans ho) Bool.noConfusion
    · exact absurd (hj.down.symm.trans ho) Bool.noConfusion
  · have hpend := h.wakeup.waiting ⟨t,nr⟩ hfi
    rw [hq] at hpend
    rcases hpend with ⟨call,hcall,-⟩ | ⟨-,hs | ⟨call,calls,heq,-⟩⟩
    · cases hcall
    · exact hs
    · cases heq
  · cases hfi : (c.state.ts t).fi with
    | notInitialized => exact absurd hfi hinit
    | borken => simp [tsIsUsable,hfi] at hu
    | waitPdchAct =>
      exact .inr ⟨.inr (.inl ⟨rfl,ha.dynamic (.inl hfi)⟩),ha.plain (.inr (.inl hfi))⟩
    | unused => exact .inr ⟨.inl rfl,ha.plain (.inl hfi)⟩
    | inUse => exact .inr ⟨.inr (.inr rfl),ha.plain (.inr (.inr hfi))⟩
    | pdch => exact .inl ⟨.inl rfl,hpdch (.inl hfi),ha.dynamic (.inr (.inl hfi))⟩
    | waitPdchDeact => exact .inl ⟨.inr rfl,hpdch (.inr hfi),ha.dynamic (.inr (.inr hfi))⟩

theorem hasMode_ne_pdch {onInit p : Pchan} (h : onInit.HasMode p) (hne : onInit ≠ .pdch) : p ≠ .pdch := by
  rintro rfl
  rcases h with h | h | ⟨-,h | h⟩
  · cases h
  · cases onInit <;> first | exact hne rfl | cases h
  · cases h
  · cases h

theorem count_unused {p : Pchan} :
    ((w.lchansFrom t p 8 0).filter fun l => (w.lchan l).stateIs .unused).length =
      (w.unusedLchans t p).length := by
  rw [Bsc.unusedLchans,List.filter_congr fun l hl => ?_]
  obtain ⟨-,hsome⟩ := lchansFrom_isSome hl
  obtain ⟨st,hst⟩ := Option.isSome_iff_exists.mp hsome
  simp [Lchan.stateIs,hst]

theorem tsCountFree_eq {p : Pchan} (h : (w.ts t).pchanIs ≠ .pdch) :
    w.tsCountFree t p = if (w.ts t).pchanIs = p then (w.unusedLchans t p).length else 0 := by
  unfold Bsc.tsCountFree
  simp only [h,if_false]
  split
  · rename_i his
    rw [his,count_unused]
  · rfl

theorem usableAs_inUse {p : Pchan} (hfi : (w.ts t).fi = .inUse) :
    tsUsableAsPchan w t p = true ↔ (w.ts t).pchanIs = p := by
  simp [tsUsableAsPchan,tsIsUsable,hfi]

theorem CountedRight.count_eq (htype : type = .tchF ∨ type = .tchH) (h : AtRest w t)
    (hc : CountedRight bts type w t) (hu : tsIsUsable (w.ts t) = true) :
    w.tsCountFree t (gsmPchanByLchanType type) = bts.spare type w t := by
  by_cases hs : bts.searched type (w.ts t).pchanOnInit = true
  · have hne : (w.ts t).pchanOnInit ≠ .pdch := by
      intro he
      rcases searched_kind htype hs with hp | ⟨hp,-⟩ | hp <;> rcases htype with h | h <;>
        simp_all [gsmPchanByLchanType]
    have hspare : bts.spare type w t = if tsUsableAsPchan w t (gsmPchanByLchanType type) = true then
        (w.unusedLchans t (gsmPchanByLchanType type)).length else 0 := by
      simp only [Bts.spare,hu,hs,Bool.true_and]
    rcases h.mode with ⟨hfi,his,hd⟩ | ⟨hfi,hmode⟩
    · obtain ⟨hus,hall⟩ := hc.pdch hs hfi
      have hlen : (w.unusedLchans t (gsmPchanByLchanType type)).length =
          pchanSubslots (gsmPchanByLchanType type) := by
        rw [unusedLchans_eq fun nr hnr => by rw [hall nr hnr]; rfl,List.filter_eq_self.mpr,List.length_map,
          List.length_range]
        intro l hl
        obtain ⟨nr,hnr,rfl⟩ := List.mem_map.mp hl
        simpa using hall nr (List.mem_range.mp hnr)
      rw [hspare,if_pos hus,hlen]
      rcases searched_kind htype hs with hp | ⟨hp,rfl⟩ | hp
      · rw [hp] at hd
        rcases htype with rfl | rfl <;> cases hd
      · simp [Bsc.tsCountFree,his,hp,gsmPchanByLchanType,pchanSubslots]
      · rcases htype with rfl | rfl <;> simp [Bsc.tsCountFree,his,hp,gsmPchanByLchanType,pchanSubslots]
    · have hpdch := hasMode_ne_pdch hmode hne
      have hright : ((w.ts t).pchanIs = gsmPchanByLchanType type ↔
          tsUsableAsPchan w t (gsmPchanByLchanType type) = true)
            ∨ w.unusedLchans t (gsmPchanByLchanType type) = [] := by
        rcases hfi with hfi | ⟨hfi,-⟩ | hfi
        · exact hc.plain hs (.inl hfi)
        · exact hc.plain hs (.inr hfi)
        · exact .inl (usableAs_inUse hfi).symm
      rw [hspare,tsCountFree_eq hpdch]
      rcases hright with hiff | hnone
      · simp only [hiff]
      · simp [hnone]
  · have hspare : bts.spare type w t = 0 := by
      rw [Bts.spare,if_neg (by simp [hs])]
    rw [hspare]
    have hs' : bts.searched type (w.ts t).pchanOnInit = false := by simpa using hs
    rcases h.mode with ⟨hfi,his,hd⟩ | ⟨hfi,hmode⟩
    · have hp : (w.ts t).pchanOnInit = .tchFPdch := by
        cases hp : (w.ts t).pchanOnInit <;> simp [hp,Pchan.dynamic] at hd
        · rfl
        · rw [hp] at hs'
          exact absurd hfi (hc.refused hp hs').1
      rcases htype with rfl | rfl
      · simp [hp,Bts.searched,Bts.searches] at hs
      · simp [Bsc.tsCountFree,his,hp,gsmPchanByLchanType]
    · by_cases hpd : (w.ts t).pchanIs = .pdch
      · have hp : (w.ts t).pchanOnInit = .pdch := by
          by_contra hne
          exact hasMode_ne_pdch hmode hne hpd
        simp [Bsc.tsCountFree,hpd,hp]
      · rw [tsCountFree_eq hpd]
        split
        · rename_i his
          rcases hmode with hm | hm | ⟨hm,-⟩
          · rw [his] at hm
            rcases htype with rfl | rfl <;> cases hm
          · exact absurd (searched_setup htype (hm.symm.trans his)) hs
          · rw [hm] at hs'
            rw [(hc.refused hm hs').2 his]
            rfl
        · rfl

theorem CountedRight.deals (htype : type = .tchF ∨ type = .tchH) (h : AtRest w t)
    (hc : CountedRight bts type w t) (hne : bts.spare type w t ≠ 0) : Deals w t type := by
  rw [Bts.spare] at hne
  split at hne
  · rename_i hcond
    simp only [Bool.and_eq_true] at hcond
    have hs := hcond.1.2
    have hun : w.unusedLchans t (gsmPchanByLchanType type) ≠ [] := fun he => hne (by rw [he]; rfl)
    refine ⟨searched_capable htype hs,h.slots,hc.free hs hcond.2,?_⟩
    rcases h.mode with ⟨hfi,his,hd⟩ | ⟨hfi | ⟨hfi,hd⟩ | hfi,-⟩
    · exact .pdch hfi his hd hcond.2
    · refine .unused hfi (((hc.plain hs (.inl hfi)).resolve_right hun).mpr hcond.2) (fun nr hw => ?_)
        (hc.bystands hs hfi)
      rcases hfi ▸ h.waiting nr hw with h | h <;> cases h
    · exact .waitPdchAct hfi hd hcond.2
    · exact .inUse hfi ((usableAs_inUse hfi).mp hcond.2)
  · exact absurd rfl hne

theorem btsCountFreeTs_eq {p : Pchan} : w.btsCountFreeTs bts p =
    (bts.usableTs.map fun t => if tsIsUsable (w.ts t) then w.tsCountFree t p else 0).sum := by
  rw [Bsc.btsCountFreeTs,Bts.usableTs]
  induction bts.trxList with
  | nil => rfl
  | cons trx trxs ih =>
    rw [List.map_cons,List.sum_cons,ih,Bsc.trxCountFreeTs,List.filter_cons]
    cases trx.usable with
    | true => simp
    | false => simp

end Counting

/-- In every run, whenever no call is pending, the count of free channels of a BTS is the
number of channels that can be handed out, if all its usable timeslots are counted right. -/
theorem freeCount_handsOut {cfg : TsId → TsCfg} {good : Config → Move → Prop} {c : Config} {bts : Bts}
    {type : ChanT} (htype : type = .tchF ∨ type = .tchH) (h : Reachable cfg good c) (hq : c.Quiescent)
    (hc : ∀ t ∈ bts.usableTs, tsIsUsable (c.state.ts t) = true → CountedRight bts type c.state t) :
    bts.HandsOut cfg type c.state (c.state.btsCountFreeTs bts (gsmPchanByLchanType type)) := by
  have hsum : c.state.btsCountFreeTs bts (gsmPchanByLchanType type) =
      (bts.usableTs.map (bts.spare type c.state)).sum := by
    rw [btsCountFreeTs_eq]
    refine congrArg List.sum (List.map_congr_left fun t ht => ?_)
    split
    · rename_i hu
      exact (hc t ht hu).count_eq htype (h.atRest hq hu) hu
    · rename_i hu
      rw [Bts.spare,if_neg (by simp [hu])]
  rw [hsum]
  refine handsOut_spare htype fun t ht hne => ?_
  have hu : tsIsUsable (c.state.ts t) = true := by
    by_contra hu
    rw [Bts.spare,if_neg (by simp [hu])] at hne
    exact hne rfl
  exact (hc t ht hu).deals htype (h.atRest hq hu) hne

def oneTs (dynTsAllowTchF : Bool) : Bts := ⟨[⟨true,[0]⟩],false,dynTsAllowTchF,by decide⟩

/-- A timeslot of kind TCH/F_TCH/H_PDCH becomes a PDCH. -/
def toPdch : List Input := [.omlReady 0,.rslReady 0,.pdchActAck 0]

/-- The dynamic timeslot is a PDCH that a TCH/F can take, and its two lchans are free. -/
def OnPdch (w : Bsc) : Prop :=
  (w.ts 0).fi = .pdch ∧ tsUsableAsPchan w 0 .tchF = true ∧ ∀ nr < 2, (w.lchan ⟨0,nr⟩).fi = some .unused
    ∧ (w.lchan ⟨0,nr⟩).conn = none ∧ (w.lchan ⟨0,nr⟩).mgwEndpointCiBts = none

instance (w : Bsc) : Decidable (OnPdch w) := inferInstanceAs (Decidable (_ ∧ _))

theorem freeCount_handsOut_pdch :
    ∃ c, run (step (tsOfKind .tchFTchHPdch)) initial (moves 40 toPdch) = .ok c
      ∧ (oneTs true).HandsOut (tsOfKind .tchFTchHPdch) .tchF c.state (c.state.btsCountFreeTs (oneTs true) .tchF) := by
  have hrun : ∃ c, run (step (tsOfKind .tchFTchHPdch)) initial (moves 40 toPdch) = .ok c ∧ c.Quiescent
      ∧ OnPdch c.state := by
    decide +kernel
  obtain ⟨c,hc,hq,hfi,hus,hl⟩ := hrun
  have hr : Reachable (tsOfKind .tchFTchHPdch) (fun _ _ => True) c :=
    Reach.of_run (.start rfl) (.of_forall (fun _ _ => trivial) _ _) hc
  refine ⟨c,hc,freeCount_handsOut (.inl rfl) hr hq fun t ht _ => ?_⟩
  obtain rfl : t = 0 := by simpa [oneTs,Bts.usableTs] using ht
  refine ⟨fun _ h => ?_,fun _ _ => ⟨hus,fun nr hnr => (hl nr (Nat.lt_succ_of_lt hnr)).1⟩,fun _ h => ?_,
    fun _ _ nr hnr _ => ?_,fun _ h => ?_⟩
  · rw [hfi] at h
    rcases h with h | h <;> cases h
  · cases h
  · exact ⟨(hl nr (Nat.lt_succ_of_lt hnr)).1,(hl nr (Nat.lt_succ_of_lt hnr)).2.1,
      (hl nr (Nat.lt_succ_of_lt hnr)).2.2⟩
  · rw [hfi] at h
    cases h

/-- A PDCH counts as a free TCH/F that is never selected where dynamic timeslots may not
become TCH/F. -/
theorem freeCount_not_handsOut :
    ∃ c, Reachable (tsOfKind .tchFTchHPdch) (fun _ _ => True) c ∧ c.Quiescent ∧
      ¬ (oneTs false).HandsOut (tsOfKind .tchFTchHPdch) .tchF c.state
        (c.state.btsCountFreeTs (oneTs false) .tchF) := by
  have hrun : ∃ c, run (step (tsOfKind .tchFTchHPdch)) initial (moves 40 toPdch) = .ok c ∧ c.Quiescent
      ∧ c.state.btsCountFreeTs (oneTs false) .tchF = 1
      ∧ (oneTs false).lchanSelectByType .tchF c.state = none := by
    decide +kernel
  obtain ⟨c,hc,hq,hcount,hsel⟩ := hrun
  have hr : Reachable (tsOfKind .tchFTchHPdch) (fun _ _ => True) c :=
    Reach.of_run (.start rfl) (.of_forall (fun _ _ => trivial) _ _) hc
  refine ⟨c,hr,hq,fun h => ?_⟩
  rw [hcount] at h
  cases h with
  | next hs =>
    rw [hsel] at hs
    cases hs

end OsmoBsc.Chan
