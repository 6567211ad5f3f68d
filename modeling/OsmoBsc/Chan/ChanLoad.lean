import OsmoBsc.Chan.Timeslot
import Mathlib.Algebra.Ring.Nat
set_option autoImplicit false

/-! The load of the channels of a BTS, its average over eight samples and the wait indication of an
Immediate Assignment Reject. -/

namespace OsmoBsc.Chan
open EventFsm

structure LoadCounter where
  total : Nat := 0
  used : Nat := 0
  deriving DecidableEq, Repr

/-- What `bts_chan_load` reads of a TRX: whether it and its baseband transceiver run, and each timeslot
with whether that runs. -/
structure LoadTrx where
  running : Bool
  ts : List (TsId × Bool)
  deriving DecidableEq, Repr

def loadTs (trxList : List LoadTrx) : List TsId :=
  (trxList.filter (·.running)).flatMap fun trx => (trx.ts.filter (·.2)).map (·.1)

/-- What `bts_chan_load` counts in one timeslot. -/
def Bsc.tsChanLoad (w : Bsc) (t : TsId) : LoadCounter :=
  ⟨(w.lchansFrom t (w.ts t).pchanIs 8 0).length,w.tsCountActiveLchans t⟩

/-- `bts_chan_load`; a timeslot is counted under what it was at start-up. -/
def Bsc.btsChanLoad (w : Bsc) (trxList : List LoadTrx) (pchan : Pchan) : LoadCounter :=
  let tss := (loadTs trxList).filter fun t => (w.ts t).pchanOnInit == pchan
  ⟨(tss.map fun t => (w.tsChanLoad t).total).sum,(tss.map fun t => (w.tsChanLoad t).used).sum⟩

/-- The kinds of `struct pchan_load`, below _GSM_PCHAN_MAX. -/
def Pchan.all : List Pchan :=
  [Pchan.none,.ccch,.ccchSdcch4,.tchF,.tchH,.sdcch8Sacch8c,.pdch,.tchFPdch,.unknown,.ccchSdcch4Cbch,
    .sdcch8Sacch8cCbch,.tchFTchHPdch]

/-- The sum over all kinds, without counts that are too large for fixed-point calculations. -/
def loadSample (pl : Pchan → LoadCounter) : LoadCounter :=
  let counted := Pchan.all.filter fun p => !(decide ((pl p).used > 65535) || decide ((pl p).total > 65535))
  ⟨(counted.map fun p => (pl p).total).sum,(counted.map fun p => (pl p).used).sum⟩

/-- The fields of `struct gsm_bts` that keep the channel load. -/
structure ChanLoad where
  chanLoadSamples : Fin 7 → LoadCounter := fun _ => {}
  chanLoadSamplesIdx : Nat := 0
  chanLoadAvg : Nat := 0
  t3122 : Nat := 0

/-- GSM_T3122_DEFAULT, `min_wait_ind`. -/
def minWaitInd : Nat := 10

def maxWaitInd : Nat := 128

/-- `chan_load_avg` of `used` in fixed-point, an octet. -/
def loadAverage (used total : Nat) : Nat := ((used / total * 100 &&& 0xffffff00) >>> 8) % 256

/-- The wait indication of `used` in fixed-point. -/
def waitInd (used total : Nat) : Nat :=
  let wait := used / total * maxWaitInd >>> 8
  if wait < minWaitInd then minWaitInd else if wait > maxWaitInd then maxWaitInd else wait

def ChanLoad.totals (b : ChanLoad) : Nat := (List.ofFn fun i => (b.chanLoadSamples i).total).sum

def ChanLoad.useds (b : ChanLoad) : Nat := (List.ofFn fun i => (b.chanLoadSamples i).used).sum

def LoadCounter.bogus (s : LoadCounter) : Bool := decide (s.total = 0) || decide (s.used > s.total)

/-- `bts_update_t3122_chan_load`, with the sums over all kinds of channels. -/
def btsUpdateT3122ChanLoad (c0Usable : Bool) (s : LoadCounter) (b : ChanLoad) : Except Fault ChanLoad :=
  if !c0Usable then .ok b
  else if s.bogus then .ok { b with t3122 := 0, chanLoadSamplesIdx := 0 }
  else if h : b.chanLoadSamplesIdx < 7 then
    .ok { b with
      chanLoadSamples := Function.update b.chanLoadSamples ⟨b.chanLoadSamplesIdx,h⟩ s
      chanLoadSamplesIdx := b.chanLoadSamplesIdx + 1 }
  else
    let total := s.total + b.totals
    let used := (s.used + b.useds) <<< 8
    if loadAverage used total ≤ 100 then
      .ok { b with
        chanLoadSamplesIdx := 0
        chanLoadAvg := loadAverage used total
        t3122 := waitInd used total % 256 }
    else .error .assertFailed

/-- The start-up of the BTS, and the periodic update with what it finds. -/
inductive LoadInput where
  | bootstrap
  | update (c0Usable : Bool) (w : Bsc) (trxList : List LoadTrx)

def LoadInput.sample : LoadInput → LoadCounter
  | .bootstrap => {}
  | .update _ w trxList => loadSample (w.btsChanLoad trxList)

def loadStep (b : ChanLoad) : LoadInput → Except Fault ChanLoad
  | .bootstrap => .ok { b with chanLoadSamplesIdx := 0 }
  | .update c0Usable w trxList => btsUpdateT3122ChanLoad c0Usable (LoadInput.update c0Usable w trxList).sample b

def LoadInput.Valid : LoadInput → Prop
  | .bootstrap => False
  | .update c0Usable w trxList => c0Usable = true ∧ (LoadInput.update c0Usable w trxList).sample.bogus = false

/-- The samples since the last computation or invalidation, after one more input. -/
def collect (fresh : List LoadCounter) : LoadInput → List LoadCounter
  | .bootstrap => []
  | .update c0Usable w trxList =>
    let s := (LoadInput.update c0Usable w trxList).sample
    if !c0Usable then fresh
    else if s.bogus then []
    else if fresh.length < 7 then fresh ++ [s] else []

def collected (is : List LoadInput) : List LoadCounter := is.foldl collect []

def usedOf (samples : List LoadCounter) : Nat := (samples.map LoadCounter.used).sum

def totalOf (samples : List LoadCounter) : Nat := (samples.map LoadCounter.total).sum

/-- The average is taken over these samples; it is at most the percentage that is in use, and less than
355/256 below it. -/
structure ChanLoad.Averages (b : ChanLoad) (samples : List LoadCounter) : Prop where
  count : samples.length = 8
  value : b.chanLoadAvg = loadAverage (usedOf samples <<< 8) (totalOf samples)
  wait : b.t3122 = waitInd (usedOf samples <<< 8) (totalOf samples)
  atMost : b.chanLoadAvg * totalOf samples ≤ 100 * usedOf samples
  above : 25600 * usedOf samples < (256 * b.chanLoadAvg + 355) * totalOf samples

section Arithmetic

variable {used total : Nat}

theorem bogus_eq_false {s : LoadCounter} : s.bogus = false ↔ 0 < s.total ∧ s.used ≤ s.total := by
  simp only [LoadCounter.bogus,Bool.or_eq_false_iff,decide_eq_false_iff_not]
  omega

theorem fixedPoint_le (hle : used ≤ total) : used <<< 8 / total ≤ 256 := by
  rw [Nat.shiftLeft_eq]
  apply Nat.div_le_of_le_mul
  have h := Nat.mul_le_mul_right (2 ^ 8) hle
  omega

theorem loadAverage_eq (hle : used ≤ total) :
    loadAverage (used <<< 8) total = used <<< 8 / total * 100 / 256 := by
  have hq := fixedPoint_le hle
  have hmask : (0xffffff00 : Nat) >>> 8 = 2 ^ 24 - 1 := rfl
  rw [loadAverage,Nat.shiftRight_and_distrib,hmask,Nat.and_two_pow_sub_one_eq_mod,Nat.shiftRight_eq_div_pow]
  generalize used <<< 8 / total = q at hq ⊢
  omega

theorem loadAverage_le (hle : used ≤ total) : loadAverage (used <<< 8) total ≤ 100 := by
  have hq := fixedPoint_le hle
  rw [loadAverage_eq hle]
  omega

theorem loadAverage_atMost (hle : used ≤ total) :
    loadAverage (used <<< 8) total * total ≤ 100 * used := by
  rw [loadAverage_eq hle,Nat.shiftLeft_eq]
  have hq : used * 2 ^ 8 / total * total ≤ used * 2 ^ 8 := Nat.div_mul_le_self _ _
  have hd : used * 2 ^ 8 / total * 100 / 256 * 256 ≤ used * 2 ^ 8 / total * 100 := Nat.div_mul_le_self _ _
  have hm := Nat.mul_le_mul_right total hd
  rw [Nat.mul_right_comm _ 256,Nat.mul_right_comm _ 100] at hm
  omega

theorem loadAverage_above (ht : 0 < total) (hle : used ≤ total) :
    25600 * used < (256 * loadAverage (used <<< 8) total + 355) * total := by
  rw [loadAverage_eq hle,Nat.shiftLeft_eq]
  have hq : used * 2 ^ 8 < (used * 2 ^ 8 / total + 1) * total := by
    rw [Nat.add_one_mul]
    have := Nat.lt_div_mul_add ht (a := used * 2 ^ 8)
    omega
  have hd : (used * 2 ^ 8 / total + 1) * 100 ≤ 256 * (used * 2 ^ 8 / total * 100 / 256) + 355 := by omega
  have hm := Nat.mul_le_mul_right total hd
  rw [Nat.mul_right_comm] at hm
  omega

theorem waitInd_range (used total : Nat) : minWaitInd ≤ waitInd used total ∧ waitInd used total ≤ maxWaitInd := by
  unfold waitInd
  dsimp only
  split
  · decide
  · split <;> simp only [minWaitInd,maxWaitInd] at * <;> omega

end Arithmetic

section Branches

variable {s : LoadCounter} {b : ChanLoad}

theorem update_bogus (hs : s.bogus = true) : btsUpdateT3122ChanLoad true s b =
    .ok { b with t3122 := 0, chanLoadSamplesIdx := 0 } := by
  rw [btsUpdateT3122ChanLoad,Bool.not_true,if_neg Bool.false_ne_true,if_pos hs]

theorem update_store (hs : s.bogus = false) (hlt : b.chanLoadSamplesIdx < 7) :
    btsUpdateT3122ChanLoad true s b = .ok { b with
      chanLoadSamples := Function.update b.chanLoadSamples ⟨b.chanLoadSamplesIdx,hlt⟩ s
      chanLoadSamplesIdx := b.chanLoadSamplesIdx + 1 } := by
  rw [btsUpdateT3122ChanLoad,Bool.not_true,if_neg Bool.false_ne_true,if_neg (by rw [hs]; decide),
    dif_pos hlt]

end Branches

/-- The array holds the fresh samples in its first places. -/
structure ChanLoad.Holds (fresh : List LoadCounter) (b : ChanLoad) : Prop where
  idx : b.chanLoadSamplesIdx = fresh.length
  le : fresh.length ≤ 7
  samples : ∀ i : Fin 7, i.val < fresh.length → fresh[i.val]? = some (b.chanLoadSamples i)
  valid : ∀ s ∈ fresh, s.bogus = false
  avg : b.chanLoadAvg ≤ 100
  t3122 : b.t3122 = 0 ∨ minWaitInd ≤ b.t3122 ∧ b.t3122 ≤ maxWaitInd

section Updates

variable {fresh : List LoadCounter} {b : ChanLoad}

theorem ChanLoad.Holds.initial : ({} : ChanLoad).Holds [] where
  idx := rfl
  le := Nat.zero_le _
  samples := fun _ h => absurd h (Nat.not_lt_zero _)
  valid := List.forall_mem_nil _
  avg := Nat.zero_le _
  t3122 := .inl rfl

theorem ChanLoad.Holds.invalidate (b : ChanLoad) {t3122 avg : Nat} (havg : avg ≤ 100)
    (ht : t3122 = 0 ∨ minWaitInd ≤ t3122 ∧ t3122 ≤ maxWaitInd) :
    ChanLoad.Holds [] { b with chanLoadSamplesIdx := 0, chanLoadAvg := avg, t3122 := t3122 } where
  idx := rfl
  le := Nat.zero_le _
  samples := fun _ h => absurd h (Nat.not_lt_zero _)
  valid := List.forall_mem_nil _
  avg := havg
  t3122 := ht

theorem ChanLoad.Holds.store (h : b.Holds fresh) {s : LoadCounter} (hs : s.bogus = false)
    (hlt : b.chanLoadSamplesIdx < 7) :
    ChanLoad.Holds (fresh ++ [s]) { b with
      chanLoadSamples := Function.update b.chanLoadSamples ⟨b.chanLoadSamplesIdx,hlt⟩ s
      chanLoadSamplesIdx := b.chanLoadSamplesIdx + 1 } where
  idx := by
    rw [List.length_append,List.length_singleton]
    exact congrArg (·+1) h.idx
  le := by
    have := h.idx
    rw [List.length_append,List.length_singleton]
    omega
  samples := by
    intro i hi
    rw [List.length_append,List.length_singleton] at hi
    by_cases hlast : i.val = fresh.length
    · have hfin : i = ⟨b.chanLoadSamplesIdx,hlt⟩ := Fin.ext (hlast.trans h.idx.symm)
      rw [hlast,List.getElem?_concat_length,hfin]
      dsimp only
      rw [Function.update_self]
    · have hne : i ≠ ⟨b.chanLoadSamplesIdx,hlt⟩ := fun he => hlast ((congrArg Fin.val he).trans h.idx)
      rw [List.getElem?_append_left (by omega)]
      dsimp only
      rw [Function.update_of_ne hne]
      exact h.samples i (by omega)
  valid := by
    intro s' hs'
    rcases List.mem_append.mp hs' with hold | hnew
    · exact h.valid s' hold
    · rwa [List.mem_singleton.mp hnew]
  avg := h.avg
  t3122 := h.t3122

theorem ChanLoad.Holds.full (h : b.Holds fresh) (hlen : fresh.length = 7) :
    List.ofFn b.chanLoadSamples = fresh := by
  apply List.ext_getElem?
  intro i
  by_cases hi : i < 7
  · rw [List.getElem?_ofFn,dif_pos hi]
    exact (h.samples ⟨i,hi⟩ (by rw [hlen]; exact hi)).symm
  · rw [List.getElem?_eq_none (by rw [List.length_ofFn]; omega),List.getElem?_eq_none (by omega)]

theorem ChanLoad.Holds.sums (h : b.Holds fresh) (hlen : fresh.length = 7) :
    b.totals = totalOf fresh ∧ b.useds = usedOf fresh := by
  have hfull := h.full hlen
  unfold ChanLoad.totals ChanLoad.useds totalOf usedOf
  rw [← hfull,List.map_ofFn,List.map_ofFn]
  exact ⟨rfl,rfl⟩

theorem valid_sums {samples : List LoadCounter} (h : ∀ s ∈ samples, s.bogus = false) :
    usedOf samples ≤ totalOf samples ∧ samples.length ≤ totalOf samples := by
  induction samples with
  | nil => exact ⟨Nat.le_refl _,Nat.le_refl _⟩
  | cons s samples ih =>
    have hs := bogus_eq_false.mp (h s List.mem_cons_self)
    have hrest := ih fun s' hs' => h s' (List.mem_cons_of_mem _ hs')
    simp only [usedOf,totalOf,List.map_cons,List.sum_cons,List.length_cons] at hrest ⊢
    omega

theorem usedOf_concat (samples : List LoadCounter) (s : LoadCounter) :
    usedOf (samples ++ [s]) = s.used + usedOf samples := by
  rw [usedOf,usedOf,List.map_append,List.sum_append,List.map_singleton,List.sum_singleton,Nat.add_comm]

theorem totalOf_concat (samples : List LoadCounter) (s : LoadCounter) :
    totalOf (samples ++ [s]) = s.total + totalOf samples := by
  rw [totalOf,totalOf,List.map_append,List.sum_append,List.map_singleton,List.sum_singleton,Nat.add_comm]

theorem ChanLoad.Holds.compute (h : b.Holds fresh) {s : LoadCounter} (hs : s.bogus = false)
    (hlen : fresh.length = 7) : ∃ b', btsUpdateT3122ChanLoad true s b = .ok b' ∧ b'.Holds []
      ∧ b'.Averages (fresh ++ [s]) := by
  have hvalid : ∀ s' ∈ fresh ++ [s], s'.bogus = false := by
    intro s' hs'
    rcases List.mem_append.mp hs' with hold | hnew
    · exact h.valid s' hold
    · rwa [List.mem_singleton.mp hnew]
  obtain ⟨hle,hpos⟩ := valid_sums hvalid
  rw [List.length_append,hlen,List.length_singleton] at hpos
  have ht : 0 < totalOf (fresh ++ [s]) := by omega
  have hidx : ¬ b.chanLoadSamplesIdx < 7 := by rw [h.idx]; omega
  have hwait := waitInd_range (usedOf (fresh ++ [s]) <<< 8) (totalOf (fresh ++ [s]))
  have hoctet : waitInd (usedOf (fresh ++ [s]) <<< 8) (totalOf (fresh ++ [s])) % 256
      = waitInd (usedOf (fresh ++ [s]) <<< 8) (totalOf (fresh ++ [s])) :=
    Nat.mod_eq_of_lt (Nat.lt_of_le_of_lt hwait.2 (by decide))
  refine ⟨_,?_,ChanLoad.Holds.invalidate b (loadAverage_le hle) (.inr hwait),?_⟩
  · rw [btsUpdateT3122ChanLoad,Bool.not_true,if_neg Bool.false_ne_true,if_neg (by rw [hs]; decide),
      dif_neg hidx]
    dsimp only
    rw [(h.sums hlen).1,(h.sums hlen).2,← usedOf_concat,← totalOf_concat,if_pos (loadAverage_le hle),
      hoctet]
  · exact ⟨by rw [List.length_append,hlen]; rfl,rfl,rfl,loadAverage_atMost hle,loadAverage_above ht hle⟩

theorem ChanLoad.Holds.step (h : b.Holds fresh) (i : LoadInput) :
    ∃ b', loadStep b i = .ok b' ∧ b'.Holds (collect fresh i)
      ∧ (i.Valid → fresh.length = 7 → b'.Averages (fresh ++ [i.sample]))
      ∧ (¬ (i.Valid ∧ fresh.length = 7) → b'.chanLoadAvg = b.chanLoadAvg) := by
  cases i with
  | bootstrap => exact ⟨_,rfl,ChanLoad.Holds.invalidate b h.avg h.t3122,fun hv => hv.elim,fun _ => rfl⟩
  | update c0Usable w trxList =>
    unfold loadStep collect
    dsimp only
    cases c0Usable with
    | false => exact ⟨b,rfl,h,fun hv => absurd hv.1 Bool.false_ne_true,fun _ => rfl⟩
    | true =>
      cases hs : (LoadInput.update true w trxList).sample.bogus with
      | true =>
        simp only [Bool.not_true,Bool.false_eq_true,if_false,if_true]
        have hnot : ¬ (LoadInput.update true w trxList).Valid := fun hv => by cases hs.symm.trans hv.2
        exact ⟨_,update_bogus hs,ChanLoad.Holds.invalidate b h.avg (.inl rfl),fun hv => absurd hv hnot,
          fun _ => rfl⟩
      | false =>
        simp only [Bool.not_true,Bool.false_eq_true,if_false]
        by_cases hlt : fresh.length < 7
        · have hidx : b.chanLoadSamplesIdx < 7 := by rw [h.idx]; exact hlt
          rw [if_pos hlt]
          exact ⟨_,update_store hs hidx,h.store hs hidx,fun _ hlen => absurd hlen (Nat.ne_of_lt hlt),
            fun _ => rfl⟩
        · have hlen : fresh.length = 7 := Nat.le_antisymm h.le (Nat.not_lt.mp hlt)
          obtain ⟨b',hok,hholds,havg⟩ := h.compute hs hlen
          rw [if_neg hlt]
          exact ⟨b',hok,hholds,fun _ _ => havg,fun hnot => absurd ⟨⟨rfl,hs⟩,hlen⟩ hnot⟩

theorem ChanLoad.Holds.run (is : List LoadInput) (h : b.Holds fresh) :
    ∃ b', EventFsm.run loadStep b is = .ok b' ∧ b'.Holds (is.foldl collect fresh) := by
  induction is generalizing b fresh with
  | nil => exact ⟨b,rfl,h⟩
  | cons i is ih =>
    obtain ⟨b1,hstep,h1,-,-⟩ := h.step i
    obtain ⟨b',hrun,h'⟩ := ih h1
    refine ⟨b',?_,h'⟩
    rw [EventFsm.run,hstep]
    exact hrun

end Updates

/-- After any history: the assertion holds, the wait indication is in range, and an average is computed
over the fresh samples and the current one only. -/
theorem chanLoad_averages (is : List LoadInput) : ∃ b, run loadStep {} is = .ok b ∧ b.chanLoadAvg ≤ 100
    ∧ (b.t3122 = 0 ∨ minWaitInd ≤ b.t3122 ∧ b.t3122 ≤ maxWaitInd)
    ∧ ∀ i, ∃ b', loadStep b i = .ok b'
      ∧ (i.Valid → (collected is).length = 7 → b'.Averages (collected is ++ [i.sample]))
      ∧ (¬ (i.Valid ∧ (collected is).length = 7) → b'.chanLoadAvg = b.chanLoadAvg) := by
  obtain ⟨b,hrun,h⟩ := ChanLoad.Holds.initial.run is
  refine ⟨b,hrun,h.avg,h.t3122,fun i => ?_⟩
  obtain ⟨b',hstep,-,havg,hsame⟩ := h.step i
  exact ⟨b',hstep,havg,hsame⟩

/-- Three timeslots with one lchan each; the first one is used. -/
def threeTchF (used : Bool) : LoadInput :=
  .update true
    { ts := fun _ => { fi := .inUse, pchanOnInit := .tchF, pchanIs := .tchF }
      lchan := fun l => { fi := if l.nr = 0 then some (if used && l.ts == 0 then .established else .unused) else none } }
    [⟨true,[(0,true),(1,true),(2,true)]⟩]

/-- One of 24 channels is used, more than 4 %, and the average is 3 %. -/
theorem chanLoad_more_than_one_below : ∃ b, run loadStep {} (List.replicate 7 (threeTchF false)) = .ok b
    ∧ ∃ b', loadStep b (threeTchF true) = .ok b'
      ∧ let samples := collected (List.replicate 7 (threeTchF false)) ++ [(threeTchF true).sample]
        ¬ 100 * usedOf samples < (b'.chanLoadAvg + 1) * totalOf samples := by
  refine ⟨_,rfl,_,rfl,?_⟩
  decide

end OsmoBsc.Chan
