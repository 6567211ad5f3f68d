import OsmoBsc.Chan.Types
import OsmoBsc.Hodec.Triggering
set_option autoImplicit false

/-! bts_resolve_congestion(): which call is moved out of a congested cell, and where. -/

namespace OsmoBsc.Hodec
open EventFsm Codec

/-- A connection: whether an assignment has a new lchan and a handover is under way, its penalty timers, and the codecs
of the MS. -/
structure CallConn (V : Type) where
  newLchan : Bool := false
  hoFi : Bool := false
  penaltyTime : NeighBts → Bool := fun _ => false
  remotePenaltyTime : V → Bool := fun _ => false
  codecList : List SpeechCodecType := []

/-- An lchan; the levels that were measured on it are octets. -/
structure CallLchan (V : Type) extends MeasLchan where
  tchMode : ChanMode
  established : Bool
  conn : Option (CallConn V)
  neighOctet : ∀ j k, (neighMeas j).rxlev k < 256
  fullOctet : ∀ k, (measRep k).dlFullRxLev < 256
  subOctet : ∀ k, (measRep k).dlSubRxLev < 256

structure CallTs (V : Type) where
  usable : Bool
  pchanIs : Chan.Pchan
  lchan : Fin 8 → CallLchan V

structure CallTrx (V : Type) where
  usable : Bool
  ts : Fin 8 → CallTs V

/-- The configuration and the counts of the cells, with the AFS bias as the VTY admits it. -/
structure CellConfig (V : Type) extends HoConfig V where
  target : NeighBts → Target
  biasRange : ∀ bts, 0 ≤ (target bts).afsBiasRxlev ∧ (target bts).afsBiasRxlev ≤ 20

/-- An entry of `clist`: a call and where it may go. -/
structure MoveCandidate (V : Type) where
  lchan : CallLchan V
  conn : CallConn V
  rated : Rated V

section Collect

variable {V : Type} (cfg : CellConfig V)

def CellConfig.forCall (lc : CallLchan V) (conn : CallConn V) : ChoiceConfig V where
  toHoConfig := cfg.toHoConfig
  target := fun bts => { cfg.target bts with penaltyTime := conn.penaltyTime bts }
  remotePenaltyTime := conn.remotePenaltyTime
  tchMode := lc.tchMode
  codecList := conn.codecList

/-- The connection of an active lchan of this type without an ongoing handover or assignment. -/
def idleConn (type : ChanT) (lc : CallLchan V) : Option (CallConn V) :=
  if lc.type ≠ type ∨ lc.established = false then none
  else match lc.conn with
    | none => none
    | some conn => if conn.newLchan || conn.hoFi then none else some conn

def lchanCandidates (type : ChanT) (lc : CallLchan V) : List (MoveCandidate V) :=
  match idleConn type lc with
  | none => []
  | some conn => (candidateList (cfg.forCall lc conn) lc.toMeasLchan true).map (⟨lc,conn,·⟩)

def tsCandidates (ts : CallTs V) : List (MoveCandidate V) :=
  if !ts.usable then []
  else match ts.pchanIs with
    | .tchF => lchanCandidates cfg .tchF (ts.lchan 0)
    | .tchH => lchanCandidates cfg .tchH (ts.lchan 0) ++ lchanCandidates cfg .tchH (ts.lchan 1)
    | _ => []

def trxCandidates (trx : CallTrx V) : List (MoveCandidate V) :=
  if !trx.usable then [] else (List.finRange 8).flatMap fun i => tsCandidates cfg (trx.ts i)

def moveCandidates (trxList : List (CallTrx V)) : List (MoveCandidate V) := trxList.flatMap (trxCandidates cfg)

/-- The number of entries that `clist` is allocated with. -/
def clistSize (numTrx : Nat) : Nat := numTrx * 8 * 2 * (1 + 10)

end Collect

section Passes

variable {V : Type} (cfg : CellConfig V) (tchf tchh : Int) (cls : ReqClass)

/-- The BTS that the call would be moved to, if it is one of this BSC. -/
def MoveCandidate.bts (c : MoveCandidate V) : Option NeighBts := c.rated.cand.bts (cfg.forCall c.lchan c.conn)

def MoveCandidate.ahsToAfs (c : MoveCandidate V) : Bool :=
  c.bts cfg = some cfg.bts && c.lchan.type = .tchH && c.rated.requirements.tchf.has cls

def MoveCandidate.forBest (c : MoveCandidate V) : Bool :=
  (c.bts cfg).isSome && c.rated.requirements.has cls && !c.ahsToAfs cfg cls
    && !(c.lchan.type = .tchF && tchf ≤ 0) && !(c.lchan.type = .tchH && tchh ≤ 0)

def MoveCandidate.forWorst (c : MoveCandidate V) : Bool :=
  (c.bts cfg).isSome && c.rated.requirements.has cls && c.ahsToAfs cfg cls

/-- `ho_get_hodec2_afs_bias_rxlev` of the candidate's BTS. -/
def MoveCandidate.afsBias (c : MoveCandidate V) : Int :=
  match c.bts cfg with
  | some bts => (cfg.target bts).afsBiasRxlev
  | none => 0

def MoveCandidate.level (c : MoveCandidate V) : Int :=
  if c.lchan.tchMode = .speechAmr && c.lchan.type = .tchH && c.rated.requirements.tchf.has cls then
    c.rated.cand.avg + c.afsBias cfg
  else c.rated.cand.avg

/-- The level in a pass for the worst candidate, where all candidates are for TCH/F. -/
def MoveCandidate.worstLevel (c : MoveCandidate V) : Int :=
  if c.lchan.tchMode = .speechAmr && c.lchan.type = .tchH then c.rated.cand.avg + c.afsBias cfg else c.rated.cand.avg

/-- `avg` is an `int`, and `best_avg_db`, which it is compared with and assigned to, an `unsigned int`. -/
def bestPass (clist : List (MoveCandidate V)) : Option (MoveCandidate V) :=
  Scan.keepBest (MoveCandidate.forBest cfg tchf tchh cls) (fun c => asUnsigned (c.level cfg cls)) clist none 0

/-- Only calls on TCH/H are looked at, which is of use if TCH/H is congested. -/
def worstPass (clist : List (MoveCandidate V)) : Option (MoveCandidate V) :=
  if 0 < tchh then
    Scan.keepWorst (MoveCandidate.forWorst cfg cls) (fun c => asUnsigned (c.worstLevel cfg)) clist none 999
  else none

def classPasses (clist : List (MoveCandidate V)) : Option (MoveCandidate V) :=
  match bestPass cfg tchf tchh cls clist with
  | some c => some c
  | none => worstPass cfg tchh cls clist

def movedCandidate (clist : List (MoveCandidate V)) : Option (MoveCandidate V × ReqClass) :=
  match classPasses cfg tchf tchh .b clist with
  | some c => some (c,.b)
  | none => (classPasses cfg tchf tchh .c clist).map (·,.c)

structure Moved (V : Type) where
  cand : MoveCandidate V
  cls : ReqClass
  req : HandoverOutReq

/-- The handovers and assignments that bts_resolve_congestion() triggers; `delete_lchan` stays NULL. -/
def btsResolveCongestion (trxList : List (CallTrx V)) (tchfCongestion tchhCongestion : Int) : List (Moved V) :=
  let tchf := if tchfCongestion < 0 then 0 else tchfCongestion
  let tchh := if tchhCongestion < 0 then 0 else tchhCongestion
  match movedCandidate cfg tchf tchh (moveCandidates cfg trxList) with
  | none => []
  | some (c,cls) =>
    ((triggerHo (cfg.forCall c.lchan c.conn) c.lchan.toMeasLchan c.rated.cand (c.rated.requirements.masked cls)).2.map
      (Moved.mk c cls)).toList

end Passes

section Levels

variable {V : Type}

theorem tdiv_octets {l : List Int} {n : Int} (hn : n = l.length) (hpos : 0 < n) (h : ∀ x ∈ l, 0 ≤ x ∧ x < 256) :
    0 ≤ l.sum.tdiv n ∧ l.sum.tdiv n < 256 := by
  have hlow : 0 ≤ l.sum := List.sum_nonneg fun x hx => (h x hx).1
  have hhigh : l.sum ≤ l.length • 255 := List.sum_le_card_nsmul l 255 fun x hx => by have := (h x hx).2; omega
  rw [nsmul_eq_mul,← hn] at hhigh
  rw [Int.tdiv_eq_ediv_of_nonneg hlow]
  refine ⟨Int.ediv_nonneg hlow hpos.le,Int.ediv_lt_of_lt_mul hpos ?_⟩
  omega

theorem neighMeasAvg_octet {nmp : NeighMeasProc} (h : ∀ k, nmp.rxlev k < 256) (window : Int) :
    0 ≤ Two.neighMeasAvg nmp window ∧ Two.neighMeasAvg nmp window < 256 := by
  unfold Two.neighMeasAvg
  dsimp only
  generalize (if nmp.rxlevCnt < asUnsigned window then asInt nmp.rxlevCnt else window) = w
  split
  · omega
  · refine tdiv_octets (by rw [List.length_map,List.length_range]; omega) (by omega) fun x hx => ?_
    obtain ⟨i,-,rfl⟩ := List.mem_map.mp hx
    have := h (Fin.ofNat 10 ((calcInitialIdx 10 (nmp.rxlevCnt % 10) w.toNat + i) % 2 ^ 32))
    omega

theorem getField_octet (lc : CallLchan V) (k : Fin 10) (field : MeasRepField) : getField (lc.measRep k) field < 256 := by
  have hfull := lc.fullOctet k
  have hsub := lc.subOctet k
  have hinval : -eInval < 256 := by decide
  unfold getField
  cases field <;> dsimp only <;> split <;> omega

theorem getMeasRepAvg_octet (lc : CallLchan V) (field : MeasRepField) (num : Nat) :
    getMeasRepAvg lc.toMeasLchan field num < 256 := by
  have hoctet : ∀ x ∈ (((List.range num).map fun i =>
      getField (lc.measRep (Fin.ofNat 10 ((calcInitialIdx 10 lc.measRepIdx num + i) % 2 ^ 32))) field).filter
        fun val => 0 ≤ val), 0 ≤ x ∧ x < 256 := by
    intro x hx
    obtain ⟨hx,hnonneg⟩ := List.mem_filter.mp hx
    obtain ⟨i,-,rfl⟩ := List.mem_map.mp hx
    exact ⟨of_decide_eq_true hnonneg,getField_octet lc _ field⟩
  unfold getMeasRepAvg
  dsimp only
  split
  · decide
  · split
    · decide
    · split
      · decide
      · exact (tdiv_octets rfl (by omega) hoctet).2

variable {cfg : HoConfig V}

theorem collectHandoverCandidate_cases (cfg : HoConfig V) (lchan : MeasLchan) (weaker : Bool) (avRxlev : Int)
    (nmp : NeighMeasProc) :
    collectHandoverCandidate cfg lchan weaker avRxlev nmp = []
    ∨ ∃ nik bts cil, collectHandoverCandidate cfg lchan weaker avRxlev nmp =
      [.handover nik bts cil (Two.neighMeasAvg nmp cfg.rxlevNeighAvgWin)] := by
  unfold collectHandoverCandidate
  dsimp only
  generalize btsByNeighborIdent cfg.btsList (neighborKey cfg.bts nmp.id) = neighborBts
  generalize (if neighborBts.isSome then none else
    Neighbor.neighborIdentGet cfg.neighborBssCells (neighborKey cfg.bts nmp.id)) = neighborCil
  repeat' split
  all_goals first | exact .inl rfl | exact .inr ⟨_,_,_,rfl⟩

theorem flatMap_length_le {α β : Type} {l : List α} {f : α → List β} {k : Nat} (h : ∀ x ∈ l, (f x).length ≤ k) :
    (l.flatMap f).length ≤ l.length * k := by
  induction l with
  | nil => simp
  | cons x l ih =>
    have hx := h x List.mem_cons_self
    have hl := ih fun y hy => h y (List.mem_cons_of_mem x hy)
    rw [List.flatMap_cons,List.length_append,List.length_cons,Nat.succ_mul]
    omega

theorem collectCandidatesForLchan_length (cfg : HoConfig V) (lchan : MeasLchan) (weaker : Bool) :
    (collectCandidatesForLchan cfg lchan weaker).length ≤ 1 + 10 := by
  unfold collectCandidatesForLchan
  dsimp only
  generalize getMeasRepAvg lchan _ _ = avRxlev
  have hneigh : ((List.finRange 10).flatMap fun i =>
      collectHandoverCandidate cfg lchan weaker avRxlev (lchan.neighMeas i)).length ≤ 10 := by
    refine (flatMap_length_le (k := 1) fun i _ => ?_).trans (by simp)
    obtain h | ⟨_,_,_,h⟩ := collectHandoverCandidate_cases cfg lchan weaker avRxlev (lchan.neighMeas i)
    · rw [h]
      exact Nat.zero_le 1
    · rw [h]
      exact Nat.le_refl 1
  split
  · exact Nat.zero_le _
  · rw [List.length_append]
    split <;> split <;> simp only [List.length_cons,List.length_nil] <;> omega

theorem collectCandidatesForLchan_avg (lc : CallLchan V) {weaker : Bool} {cand : HoCandidate V}
    (h : cand ∈ collectCandidatesForLchan cfg lc.toMeasLchan weaker) : 0 ≤ cand.avg ∧ cand.avg < 256 := by
  unfold collectCandidatesForLchan at h
  dsimp only at h
  have hav := getMeasRepAvg_octet lc (if cfg.fullTdma then .dlRxlevFull else .dlRxlevSub) cfg.rxlevAvgWin
  generalize getMeasRepAvg lc.toMeasLchan _ _ = avRxlev at h hav
  split at h
  · cases h
  · rcases List.mem_append.mp h with h | h
    · split at h
      · rw [List.mem_singleton.mp h]
        exact ⟨by rw [HoCandidate.avg]; omega,hav⟩
      · cases h
    · split at h
      · obtain ⟨i,-,hi⟩ := List.mem_flatMap.mp h
        obtain hnil | ⟨_,_,_,hone⟩ := collectHandoverCandidate_cases cfg lc.toMeasLchan weaker avRxlev (lc.neighMeas i)
        · rw [hnil] at hi
          cases hi
        · rw [hone] at hi
          rw [List.mem_singleton.mp hi]
          exact neighMeasAvg_octet (lc.neighOctet i) _
      · cases h

end Levels

section Resolution

variable {V : Type} (cfg : CellConfig V) (tchf tchh : Int) (cls : ReqClass)

def NoProcedure (lc : CallLchan V) : Prop := ∃ conn, lc.conn = some conn ∧ conn.newLchan = false ∧ conn.hoFi = false

def Congested (type : ChanT) : Prop := type = .tchF ∧ 0 < tchf ∨ type = .tchH ∧ 0 < tchh

def MoveCandidate.Eligible (c : MoveCandidate V) : Prop :=
  c.forBest cfg tchf tchh cls = true ∨ 0 < tchh ∧ c.forWorst cfg cls = true

/-- A candidate that one of the passes for a class takes unless another one is better. -/
def MoveCandidate.Movable (c : MoveCandidate V) : Prop :=
  c.forBest cfg tchf tchh cls = true ∧ 0 < c.level cfg cls ∨ 0 < tchh ∧ c.forWorst cfg cls = true

/-- A candidate of the highest level other than from AHS to AFS, or, if none of these has a positive level, one from
AHS to AFS of the lowest level. -/
def Extremal (clist : List (MoveCandidate V)) (c : MoveCandidate V) : Prop :=
  (c.forBest cfg tchf tchh cls = true ∧ 0 < c.level cfg cls
    ∧ ∀ d ∈ clist, d.forBest cfg tchf tchh cls = true → d.level cfg cls ≤ c.level cfg cls)
  ∨ ((∀ d ∈ clist, d.forBest cfg tchf tchh cls = true → d.level cfg cls ≤ 0)
    ∧ 0 < tchh ∧ c.forWorst cfg cls = true
    ∧ ∀ d ∈ clist, d.forWorst cfg cls = true → c.level cfg cls ≤ d.level cfg cls)

variable {cfg tchf tchh cls}

theorem idleConn_spec {type : ChanT} {lc : CallLchan V} {conn : CallConn V} (h : idleConn type lc = some conn) :
    lc.type = type ∧ NoProcedure lc := by
  unfold idleConn at h
  split at h
  · cases h
  · rename_i hactive
    split at h
    · cases h
    · rename_i conn' hconn
      split at h
      · cases h
      · rename_i hidle
        simp only [Bool.or_eq_true,not_or,Bool.not_eq_true] at hidle
        exact ⟨not_not.mp fun hne => hactive (.inl hne),conn',hconn,hidle⟩

theorem lchanCandidates_length (type : ChanT) (lc : CallLchan V) :
    (lchanCandidates cfg type lc).length ≤ 1 + 10 := by
  unfold lchanCandidates
  split
  · exact Nat.zero_le _
  · rw [List.length_map,candidateList,List.length_map]
    exact collectCandidatesForLchan_length _ _ _

/-- A candidate is for a call without a procedure, with its requirements, and its level fits in an octet. -/
structure MoveCandidate.Collected (cfg : CellConfig V) (c : MoveCandidate V) : Prop where
  idle : NoProcedure c.lchan
  type : c.lchan.type = .tchF ∨ c.lchan.type = .tchH
  rated : c.rated = rate (cfg.forCall c.lchan c.conn) c.lchan.toMeasLchan c.rated.cand
  avg : 0 ≤ c.rated.cand.avg ∧ c.rated.cand.avg < 256

theorem lchanCandidates_mem {type : ChanT} {lc : CallLchan V} {c : MoveCandidate V}
    (htype : type = .tchF ∨ type = .tchH) (h : c ∈ lchanCandidates cfg type lc) : c.lchan = lc ∧ c.Collected cfg := by
  unfold lchanCandidates at h
  split at h
  · cases h
  · rename_i conn hidle
    obtain ⟨hsame,hidle⟩ := idleConn_spec hidle
    obtain ⟨r,hr,rfl⟩ := List.mem_map.mp h
    obtain ⟨cand,hcand,rfl⟩ := List.mem_map.mp hr
    exact ⟨rfl,hidle,hsame ▸ htype,rfl,collectCandidatesForLchan_avg lc hcand⟩

theorem tsCandidates_length (ts : CallTs V) : (tsCandidates cfg ts).length ≤ 2 * (1 + 10) := by
  unfold tsCandidates
  split
  · exact Nat.zero_le _
  · split
    · exact (lchanCandidates_length _ _).trans (by decide)
    · rw [List.length_append]
      have h0 := @lchanCandidates_length V cfg .tchH (ts.lchan 0)
      have h1 := @lchanCandidates_length V cfg .tchH (ts.lchan 1)
      omega
    · exact Nat.zero_le _

theorem tsCandidates_mem {ts : CallTs V} {c : MoveCandidate V} (h : c ∈ tsCandidates cfg ts) :
    (∃ j, c.lchan = ts.lchan j) ∧ c.Collected cfg := by
  unfold tsCandidates at h
  split at h
  · cases h
  · split at h
    · obtain ⟨hlchan,hc⟩ := lchanCandidates_mem (.inl rfl) h
      exact ⟨⟨0,hlchan⟩,hc⟩
    · rcases List.mem_append.mp h with h | h
      · obtain ⟨hlchan,hc⟩ := lchanCandidates_mem (.inr rfl) h
        exact ⟨⟨0,hlchan⟩,hc⟩
      · obtain ⟨hlchan,hc⟩ := lchanCandidates_mem (.inr rfl) h
        exact ⟨⟨1,hlchan⟩,hc⟩
    · cases h

theorem trxCandidates_length (trx : CallTrx V) : (trxCandidates cfg trx).length ≤ 8 * 2 * (1 + 10) := by
  unfold trxCandidates
  split
  · exact Nat.zero_le _
  · refine (flatMap_length_le fun i _ => tsCandidates_length (trx.ts i)).trans ?_
    rw [List.length_finRange]

theorem moveCandidates_length (trxList : List (CallTrx V)) :
    (moveCandidates cfg trxList).length ≤ clistSize trxList.length := by
  exact (flatMap_length_le fun trx _ => trxCandidates_length trx).trans (by unfold clistSize; omega)

theorem moveCandidates_mem {trxList : List (CallTrx V)} {c : MoveCandidate V} (h : c ∈ moveCandidates cfg trxList) :
    (∃ trx ∈ trxList, ∃ i j, c.lchan = (trx.ts i).lchan j) ∧ c.Collected cfg := by
  obtain ⟨trx,htrx,h⟩ := List.mem_flatMap.mp h
  unfold trxCandidates at h
  split at h
  · cases h
  · obtain ⟨i,-,hi⟩ := List.mem_flatMap.mp h
    obtain ⟨⟨j,hlchan⟩,hc⟩ := tsCandidates_mem hi
    exact ⟨⟨trx,htrx,i,j,hlchan⟩,hc⟩

theorem MoveCandidate.Collected.level {c : MoveCandidate V} (h : c.Collected cfg) :
    0 ≤ c.level cfg cls ∧ c.level cfg cls < 276 := by
  have havg := h.avg
  have hbias : 0 ≤ c.afsBias cfg ∧ c.afsBias cfg ≤ 20 := by
    unfold MoveCandidate.afsBias
    split
    · exact cfg.biasRange _
    · decide
  unfold MoveCandidate.level
  split <;> omega

theorem worstLevel_eq {c : MoveCandidate V} (h : c.forWorst cfg cls = true) : c.worstLevel cfg = c.level cfg cls := by
  simp only [MoveCandidate.forWorst,MoveCandidate.ahsToAfs,Bool.and_eq_true] at h
  simp only [MoveCandidate.worstLevel,MoveCandidate.level,h.2.2,Bool.and_true]

theorem asUnsigned_level {c : MoveCandidate V} (h : c.Collected cfg) :
    (asUnsigned (c.level cfg cls) : Int) = c.level cfg cls := by
  obtain ⟨hlow,hhigh⟩ := @MoveCandidate.Collected.level V cfg cls c h
  rw [asUnsigned_eq (by omega) (by omega),if_neg (by omega)]

theorem level_of_not_movable {c : MoveCandidate V} (h : ¬ c.Movable cfg tchf tchh cls)
    (hel : c.Eligible cfg tchf tchh cls) : c.level cfg cls ≤ 0 := by
  rcases hel with hbest | hworst
  · exact Int.not_lt.mp fun hpos => h (.inl ⟨hbest,hpos⟩)
  · exact absurd (.inr hworst) h

section Chosen

variable {clist : List (MoveCandidate V)} (hclist : ∀ c ∈ clist, c.Collected cfg)
include hclist

theorem bestPass_spec :
    (bestPass cfg tchf tchh cls clist = none
      ∧ ∀ d ∈ clist, d.forBest cfg tchf tchh cls = true → d.level cfg cls ≤ 0)
    ∨ ∃ c ∈ clist, bestPass cfg tchf tchh cls clist = some c ∧ c.forBest cfg tchf tchh cls = true
      ∧ 0 < c.level cfg cls ∧ ∀ d ∈ clist, d.forBest cfg tchf tchh cls = true → d.level cfg cls ≤ c.level cfg cls := by
  rcases @Scan.keepBest_spec _ (MoveCandidate.forBest cfg tchf tchh cls) (fun c => asUnsigned (c.level cfg cls)) clist
    none 0 with ⟨heq,hle⟩ | ⟨c,hc,heq,hel,hlt,hle⟩
  · refine .inl ⟨heq,fun d hd hdel => ?_⟩
    have h := @asUnsigned_level V cfg cls d (hclist d hd)
    have h0 := hle d hd hdel
    omega
  · have h := @asUnsigned_level V cfg cls c (hclist c hc)
    refine .inr ⟨c,hc,heq,hel,by omega,fun d hd hdel => ?_⟩
    have h' := @asUnsigned_level V cfg cls d (hclist d hd)
    have hdc := hle d hd hdel
    omega

theorem worstPass_spec :
    (worstPass cfg tchh cls clist = none ∧ ∀ d ∈ clist, ¬ (0 < tchh ∧ d.forWorst cfg cls = true))
    ∨ ∃ c ∈ clist, worstPass cfg tchh cls clist = some c ∧ 0 < tchh ∧ c.forWorst cfg cls = true
      ∧ ∀ d ∈ clist, d.forWorst cfg cls = true → c.level cfg cls ≤ d.level cfg cls := by
  unfold worstPass
  by_cases hcong : 0 < tchh
  · rw [if_pos hcong]
    have hlevel : ∀ d ∈ clist, d.forWorst cfg cls = true →
        (asUnsigned (d.worstLevel cfg) : Int) = d.level cfg cls ∧ d.level cfg cls < 999 := by
      intro d hd hdel
      have hrange := (@MoveCandidate.Collected.level V cfg cls d (hclist d hd)).2
      rw [worstLevel_eq hdel]
      exact ⟨asUnsigned_level (hclist d hd),by omega⟩
    rcases @Scan.keepWorst_spec _ (MoveCandidate.forWorst cfg cls) (fun c => asUnsigned (c.worstLevel cfg)) clist none
      999 with ⟨heq,hle⟩ | ⟨c,hc,heq,hel,-,hle⟩
    · refine .inl ⟨heq,fun d hd h => ?_⟩
      have hhigh := hle d hd h.2
      obtain ⟨hu,hlow⟩ := hlevel d hd h.2
      omega
    · refine .inr ⟨c,hc,heq,hcong,hel,fun d hd hdel => ?_⟩
      have hcd := hle d hd hdel
      have hc := (hlevel c hc hel).1
      have hd := (hlevel d hd hdel).1
      omega
  · rw [if_neg hcong]
    exact .inl ⟨rfl,fun d _ h => hcong h.1⟩

theorem classPasses_spec :
    (classPasses cfg tchf tchh cls clist = none
      ∧ ∀ d ∈ clist, ¬ d.Movable cfg tchf tchh cls)
    ∨ ∃ c ∈ clist, classPasses cfg tchf tchh cls clist = some c ∧ c.Eligible cfg tchf tchh cls
      ∧ Extremal cfg tchf tchh cls clist c := by
  unfold classPasses
  rcases @bestPass_spec V cfg tchf tchh cls clist hclist with ⟨heq,hle⟩ | ⟨c,hc,heq,hel,hpos,hle⟩
  · rw [heq]
    rcases @worstPass_spec V cfg tchh cls clist hclist with ⟨heq',hnone⟩ | ⟨c,hc,heq',hcong,hel,hmin⟩
    · refine .inl ⟨heq',fun d hd hdel => ?_⟩
      rcases hdel with hbest | hworst
      · exact absurd (hle d hd hbest.1) (Int.not_le.mpr hbest.2)
      · exact absurd hworst (hnone d hd)
    · exact .inr ⟨c,hc,heq',.inr ⟨hcong,hel⟩,.inr ⟨hle,hcong,hel,hmin⟩⟩
  · rw [heq]
    exact .inr ⟨c,hc,rfl,.inl hel,.inl ⟨hel,hpos,hle⟩⟩

theorem movedCandidate_none (h : movedCandidate cfg tchf tchh clist = none) :
    ∀ d ∈ clist, ¬ d.Movable cfg tchf tchh .b ∧ ¬ d.Movable cfg tchf tchh .c := by
  unfold movedCandidate at h
  rcases @classPasses_spec V cfg tchf tchh .b clist hclist with ⟨heq,hnob⟩ | ⟨d,-,heq,-⟩
  · rw [heq] at h
    rcases @classPasses_spec V cfg tchf tchh .c clist hclist with ⟨-,hnoc⟩ | ⟨d,-,heq',-⟩
    · exact fun d hd => ⟨hnob d hd,hnoc d hd⟩
    · rw [heq'] at h
      cases h
  · rw [heq] at h
    cases h

theorem movedCandidate_spec {c : MoveCandidate V} (h : movedCandidate cfg tchf tchh clist = some (c,cls)) :
    c ∈ clist ∧ c.Eligible cfg tchf tchh cls ∧ Extremal cfg tchf tchh cls clist c
      ∧ (cls = .b ∨ cls = .c ∧ ∀ d ∈ clist, d.Eligible cfg tchf tchh .b → d.level cfg .b ≤ 0) := by
  unfold movedCandidate at h
  rcases @classPasses_spec V cfg tchf tchh .b clist hclist with ⟨heq,hle⟩ | ⟨d,hd,heq,hel,hext⟩
  · rw [heq] at h
    rcases @classPasses_spec V cfg tchf tchh .c clist hclist with ⟨heq',-⟩ | ⟨d,hd,heq',hel,hext⟩
    · rw [heq'] at h
      cases h
    · rw [heq'] at h
      cases h
      exact ⟨hd,hel,hext,.inr ⟨rfl,fun e he => level_of_not_movable (hle e he)⟩⟩
  · rw [heq] at h
    cases h
    exact ⟨hd,hel,hext,.inl rfl⟩

end Chosen

theorem Eligible.congested {c : MoveCandidate V} (htype : c.lchan.type = .tchF ∨ c.lchan.type = .tchH)
    (h : c.Eligible cfg tchf tchh cls) : Congested tchf tchh c.lchan.type ∧ (c.bts cfg).isSome = true := by
  rcases h with hbest | ⟨hcong,hworst⟩
  · simp only [MoveCandidate.forBest,Bool.and_eq_true,Bool.not_eq_true',Bool.and_eq_false_iff,decide_eq_false_iff_not]
      at hbest
    obtain ⟨⟨⟨⟨hsome,-⟩,-⟩,hf⟩,hh⟩ := hbest
    refine ⟨?_,hsome⟩
    rcases htype with htf | hth
    · exact .inl ⟨htf,Int.not_le.mp (hf.resolve_left (not_not.mpr htf))⟩
    · exact .inr ⟨hth,Int.not_le.mp (hh.resolve_left (not_not.mpr hth))⟩
  · simp only [MoveCandidate.forWorst,MoveCandidate.ahsToAfs,Bool.and_eq_true,decide_eq_true_eq] at hworst
    exact ⟨.inr ⟨hworst.2.1.2,hcong⟩,hworst.1.1⟩

theorem congested_clamp (n : Int) : ((if n < 0 then 0 else n) ≤ 0 ↔ n ≤ 0) ∧ (0 < (if n < 0 then 0 else n) ↔ 0 < n) := by
  split <;> omega

theorem forBest_clamp (c : MoveCandidate V) :
    c.forBest cfg (if tchf < 0 then 0 else tchf) (if tchh < 0 then 0 else tchh) cls = c.forBest cfg tchf tchh cls := by
  simp only [MoveCandidate.forBest,(congested_clamp tchf).1,(congested_clamp tchh).1]

theorem eligible_clamp (c : MoveCandidate V) :
    c.Eligible cfg (if tchf < 0 then 0 else tchf) (if tchh < 0 then 0 else tchh) cls ↔ c.Eligible cfg tchf tchh cls := by
  simp only [MoveCandidate.Eligible,forBest_clamp,(congested_clamp tchh).2]

theorem extremal_clamp (clist : List (MoveCandidate V)) (c : MoveCandidate V) :
    Extremal cfg (if tchf < 0 then 0 else tchf) (if tchh < 0 then 0 else tchh) cls clist c
      ↔ Extremal cfg tchf tchh cls clist c := by
  simp only [Extremal,forBest_clamp,(congested_clamp tchh).2]

theorem movable_clamp (c : MoveCandidate V) :
    c.Movable cfg (if tchf < 0 then 0 else tchf) (if tchh < 0 then 0 else tchh) cls ↔ c.Movable cfg tchf tchh cls := by
  simp only [MoveCandidate.Movable,forBest_clamp,(congested_clamp tchh).2]

theorem Extremal.movable {clist : List (MoveCandidate V)} {c : MoveCandidate V}
    (h : Extremal cfg tchf tchh cls clist c) : c.Movable cfg tchf tchh cls := by
  rcases h with ⟨hbest,hpos,-⟩ | ⟨-,hcong,hworst,-⟩
  · exact .inl ⟨hbest,hpos⟩
  · exact .inr ⟨hcong,hworst⟩

theorem Eligible.has {c : MoveCandidate V} (h : c.Eligible cfg tchf tchh cls) :
    c.rated.requirements.has cls = true := by
  rcases h with hbest | ⟨-,hworst⟩
  · simp only [MoveCandidate.forBest,Bool.and_eq_true] at hbest
    exact hbest.1.1.1.2
  · simp only [MoveCandidate.forWorst,Bool.and_eq_true] at hworst
    exact hworst.1.2

theorem triggerHo_isSome {c : MoveCandidate V} (hc : c.Collected cfg) (h : c.Eligible cfg tchf tchh cls) :
    (triggerHo (cfg.forCall c.lchan c.conn) c.lchan.toMeasLchan c.rated.cand
      (c.rated.requirements.masked cls)).2.isSome = true := by
  have hreq := Eligible.has h
  have hbts := (Eligible.congested hc.type h).2
  have hrated := hc.rated
  rw [MoveCandidate.bts] at hbts
  -- a BTS of this BSC: the requirements are those of check_requirements()
  have hown : ∀ {bts}, c.rated.requirements = checkRequirements (cfg.forCall c.lchan c.conn) c.lchan.toMeasLchan bts →
      (triggerLocalHoOrAs (cfg.forCall c.lchan c.conn) c.lchan.toMeasLchan bts
        (c.rated.requirements.masked cls)).2.isSome = true := by
    intro bts hcheck
    refine triggerLocalHoOrAs_isSome hc.type hreq ?_
    rintro rfl
    rw [hcheck]
    exact checkRequirements_own _ _ cls hc.type
  generalize c.rated.cand = cand at hbts hrated ⊢
  cases cand with
  | assignment avg =>
    exact hown (by rw [hrated]; rfl)
  | handover nik bts cil avg =>
    cases bts with
    | none => cases hbts
    | some bts => exact hown (by rw [hrated]; rfl)

theorem triggerHo_local {ccfg : ChoiceConfig V} {lchan : MeasLchan} {cand : HoCandidate V} {requirements : ClassMask}
    {req : HandoverOutReq} {bts : NeighBts} (hbts : cand.bts ccfg = some bts)
    (h : (triggerHo ccfg lchan cand requirements).2 = some req) : req.targetNik = btsIdentKey bts := by
  cases cand with
  | assignment avg =>
    cases hbts
    exact (triggerLocalHoOrAs_type h).1
  | handover nik bts' cil avg =>
    cases hbts
    exact (triggerLocalHoOrAs_type h).1

end Resolution

/-- What a handover or assignment that is triggered stands for. -/
structure Moved.Resolves {V : Type} (m : Moved V) (cfg : CellConfig V) (trxList : List (CallTrx V))
    (tchf tchh : Int) : Prop where
  call : ∃ trx ∈ trxList, ∃ i j, m.cand.lchan = (trx.ts i).lchan j
  congested : Congested tchf tchh m.cand.lchan.type
  idle : NoProcedure m.cand.lchan
  own : ∃ bts, m.cand.bts cfg = some bts ∧ m.req.targetNik = btsIdentKey bts
  classB : m.cls = .b ∨ m.cls = .c ∧ ∀ c ∈ moveCandidates cfg trxList, c.Eligible cfg tchf tchh .b → c.level cfg .b ≤ 0
  extremal : m.cand ∈ moveCandidates cfg trxList ∧ Extremal cfg tchf tchh m.cls (moveCandidates cfg trxList) m.cand

/-- At most one handover or assignment is triggered, of a call of a congested type without a procedure, to a BTS of
this BSC, and for requirement C only if no candidate for B has a positive level; one is triggered if and only if a
pass takes a candidate; the array of candidates is large enough. -/
theorem congestion_resolved {V : Type} (cfg : CellConfig V) (trxList : List (CallTrx V)) (tchf tchh : Int) :
    (moveCandidates cfg trxList).length ≤ clistSize trxList.length
      ∧ (btsResolveCongestion cfg trxList tchf tchh).length ≤ 1
      ∧ (∀ m ∈ btsResolveCongestion cfg trxList tchf tchh, m.Resolves cfg trxList tchf tchh)
      ∧ (btsResolveCongestion cfg trxList tchf tchh ≠ [] ↔ ∃ c ∈ moveCandidates cfg trxList,
        c.Movable cfg tchf tchh .b ∨ c.Movable cfg tchf tchh .c) := by
  refine ⟨moveCandidates_length trxList,?_⟩
  have hclist : ∀ c ∈ moveCandidates cfg trxList, c.Collected cfg := fun c hc => (moveCandidates_mem hc).2
  unfold btsResolveCongestion
  dsimp only
  cases hmoved : movedCandidate cfg (if tchf < 0 then 0 else tchf) (if tchh < 0 then 0 else tchh)
      (moveCandidates cfg trxList) with
  | none =>
    refine ⟨Nat.zero_le _,fun m hm => (by cases hm),iff_of_false (fun h => h rfl) ?_⟩
    rintro ⟨c,hc,hmov⟩
    obtain ⟨hnob,hnoc⟩ := movedCandidate_none hclist hmoved c hc
    rw [movable_clamp] at hnob hnoc
    exact hmov.elim hnob hnoc
  | some chosen =>
    obtain ⟨c,cls⟩ := chosen
    obtain ⟨hmem,hel,hext,hcls⟩ := movedCandidate_spec hclist hmoved
    simp only [eligible_clamp,extremal_clamp] at hel hext hcls
    obtain ⟨hcall,hc⟩ := moveCandidates_mem hmem
    obtain ⟨req,hreq⟩ := Option.isSome_iff_exists.mp (triggerHo_isSome hc hel)
    obtain ⟨hcong,hsome⟩ := Eligible.congested hc.type hel
    obtain ⟨bts,hbts⟩ := Option.isSome_iff_exists.mp hsome
    have hmov := hext.movable
    dsimp only
    rw [hreq]
    refine ⟨Option.length_toList_le,?_,iff_of_true (List.cons_ne_nil _ _) ⟨c,hmem,?_⟩⟩
    · intro m hm
      rw [List.mem_singleton.mp hm]
      exact ⟨hcall,hcong,hc.idle,⟨bts,hbts,triggerHo_local hbts hreq⟩,hcls,hmem,hext⟩
    · rcases hcls with rfl | ⟨rfl,-⟩
      · exact .inl hmov
      · exact .inr hmov

/-- A cell with the neighbours of `twoWays` and a call on TCH/F, with TCH/F congested. -/
def callAt20 : CallLchan Unit where
  toMeasLchan := lchanAt20
  tchMode := .speechV1
  established := true
  conn := some {}
  neighOctet := by decide
  fullOctet := by decide
  subOctet := by decide

def oneCall : CallTrx Unit := ⟨true,fun i => ⟨i = 0,.tchF,fun _ => callAt20⟩⟩

def twoWaysCell : CellConfig Unit where
  toHoConfig := twoWays.toHoConfig
  target := twoWays.target
  biasRange := fun _ => ⟨Int.le_refl (0 : Int),show (0 : Int) ≤ 20 by decide⟩

example : (btsResolveCongestion twoWaysCell [oneCall] 1 0).map (fun m => (m.cls,m.req)) =
    [(.b,⟨⟨0,871,5⟩,.tchF⟩)] := by
  decide +kernel

end OsmoBsc.Hodec
