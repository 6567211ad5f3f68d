import OsmoBsc.Neighbor.Written
import Mathlib.Algebra.Ring.Nat

set_option autoImplicit false

namespace OsmoBsc.Neighbor

/-- The networks whose written configuration can be read back: each BTS has a LAC, its local
neighbours come before it, and no BTS up to it matches the cell of a remote neighbour. -/
structure Loadable (plmnEq : Plmn → Plmn → Bool) (net : Net) : Prop where
  lac : ∀ b ∈ net.bts, b.locationAreaCode ≠ gsmLacReservedDetached
  locals : ∀ (k : Nat) (b : Bts), net.bts[k]? = some b → ∀ j ∈ b.localNeighbors, j < k
  remotes : ∀ e ∈ net.remote, ∀ cellId ∈ e.val, ∀ (j : Nat) (b : Bts), (j : Int) ≤ e.key.fromBts →
    net.bts[j]? = some b → b.matchesCellId plmnEq net.plmn cellId = false

def Cmd.adds : Cmd → Nat
  | .neighborKey .. => 1
  | _ => 0

section Strict

variable (plmnEq : Plmn → Plmn → Bool) (lists : CellIdLists (List CellId))

/-- The command is accepted, and adds a remote neighbour if it is meant to. -/
def strictly (v : Vty) (cmd : Cmd) : Option Vty :=
  let r := exec plmnEq lists v cmd
  if r.1 = true ∧ v.net.remote.length+cmd.adds ≤ r.2.net.remote.length then some r.2 else none

def strict : List Cmd → Vty → Option Vty
  | [], v => some v
  | cmd :: cmds, v => (strictly plmnEq lists v cmd).bind (strict cmds)

theorem strict_append (cmds cmds' : List Cmd) (v : Vty) :
    strict plmnEq lists (cmds ++ cmds') v = (strict plmnEq lists cmds v).bind (strict plmnEq lists cmds') := by
  induction cmds generalizing v with
  | nil => rfl
  | cons cmd cmds ih =>
    simp only [List.cons_append,strict]
    cases strictly plmnEq lists v cmd with
    | none => rfl
    | some v1 => exact ih v1

variable {plmnEq lists} {v v' : Vty} {cmd : Cmd} {cmds : List Cmd}

theorem replay_of_strict (h : strict plmnEq lists cmds v = some v') :
    replay plmnEq lists cmds v = some v' := by
  induction cmds generalizing v with
  | nil => exact h
  | cons cmd cmds ih =>
    simp only [strict,strictly] at h
    split at h
    · rename_i hc
      rw [replay,if_pos hc.1]
      exact ih h
    · cases h

theorem addLocalBts_remote (k : Nat) (neigh : Option Nat) (net : Net) :
    (addLocalBts k neigh net).2.remote = net.remote := by
  cases neigh with
  | none => rfl
  | some j =>
    simp only [addLocalBts]
    split <;> rfl

/-- What a command for a remote neighbour does: it is refused or makes a local neighbour, or
it adds an entry. -/
theorem addRemoteOrLocalBts_cases (k : Nat) (cellId : CellId) (key : Key) (net : Net) :
    (addRemoteOrLocalBts plmnEq lists k cellId key net).2.remote = net.remote ∨
      net.btsByCellId plmnEq cellId = none ∧
        addRemoteOrLocalBts plmnEq lists k cellId key net =
          (true,{ net with remote := net.remote ++ [⟨key,[cellId]⟩] }) := by
  simp only [addRemoteOrLocalBts]
  cases net.btsByCellId plmnEq cellId with
  | some j =>
    left
    simp only
    split
    · exact addLocalBts_remote k _ net
    · rfl
  | none =>
    cases hg : neighborIdentGet (some net.remote) key with
    | some val => exact .inl rfl
    | none =>
      have hn := neighborIdentGet_eq_none.mp hg
      cases hv : neighborIdentKeyValid key with
      | true =>
        right
        simp [neighborIdentAdd_new [cellId] hn hv]
      | false =>
        left
        simp [neighborIdentAdd,hv]

theorem remote_length_onBtsNode (hdel : ∀ arfcn bsic, cmd ≠ .noNeighborKey arfcn bsic) :
    (onBtsNode plmnEq lists v cmd).2.net.remote.length ≤ v.net.remote.length+cmd.adds := by
  rw [onBtsNode]
  cases v.index with
  | none => exact Nat.le_add_right _ _
  | some k =>
    cases cmd with
    | neighborKey cellId arfcn bsic =>
      rcases addRemoteOrLocalBts_cases k cellId ⟨k,arfcn,bsic⟩ v.net with h | ⟨-,h⟩
      · exact Nat.le_trans (Nat.le_of_eq (congrArg List.length h)) (Nat.le_add_right _ _)
      · simp [btsCmd,h,Cmd.adds]
    | noNeighborKey arfcn bsic => exact absurd rfl (hdel arfcn bsic)
    | neighborBts | neighborCell => exact Nat.le_of_eq (congrArg List.length (addLocalBts_remote k _ _))
    | locationAreaCode | baseStationIdCode =>
      simp only [btsCmd]
      split <;> exact Nat.le_add_right _ _
    | noNeighborBts nr =>
      simp only [btsCmd]
      cases v.net.btsNum nr <;> exact Nat.le_add_right _ _
    | _ => exact Nat.le_add_right _ _

/-- A command that removes no remote neighbour adds as many as it is meant to at most. -/
theorem remote_length_exec (hdel : ∀ arfcn bsic, cmd ≠ .noNeighborKey arfcn bsic) :
    (exec plmnEq lists v cmd).2.net.remote.length ≤ v.net.remote.length+cmd.adds := by
  cases cmd with
  | plmn plmn => exact Nat.le_add_right _ _
  | bts nr =>
    simp only [exec]
    split
    · exact Nat.le_add_right _ _
    · split <;> exact Nat.le_add_right _ _
  | _ => exact remote_length_onBtsNode hdel

theorem remote_length_replay (hdel : ∀ arfcn bsic, .noNeighborKey arfcn bsic ∉ cmds)
    (h : replay plmnEq lists cmds v = some v') :
    v'.net.remote.length ≤ v.net.remote.length+(cmds.map Cmd.adds).sum := by
  induction cmds generalizing v with
  | nil =>
    cases h
    simp
  | cons cmd cmds ih =>
    rw [replay] at h
    split at h
    · have h1 := @remote_length_exec plmnEq lists v cmd fun a b he => hdel a b (he ▸ List.mem_cons_self)
      have h2 := ih (fun a b hm => hdel a b (List.mem_cons_of_mem _ hm)) h
      rw [List.map_cons,List.sum_cons]
      omega
    · cases h

theorem strict_of_replay (hdel : ∀ arfcn bsic, .noNeighborKey arfcn bsic ∉ cmds)
    (h : replay plmnEq lists cmds v = some v')
    (hlen : v.net.remote.length+(cmds.map Cmd.adds).sum ≤ v'.net.remote.length) :
    strict plmnEq lists cmds v = some v' := by
  induction cmds generalizing v with
  | nil => exact h
  | cons cmd cmds ih =>
    have hdel' : ∀ arfcn bsic, .noNeighborKey arfcn bsic ∉ cmds :=
      fun a b hm => hdel a b (List.mem_cons_of_mem _ hm)
    rw [replay] at h
    split at h
    · rename_i hok
      have h1 := @remote_length_exec plmnEq lists v cmd fun a b he => hdel a b (he ▸ List.mem_cons_self)
      have h2 := remote_length_replay hdel' h
      rw [List.map_cons,List.sum_cons] at hlen
      simp only [strict,strictly]
      rw [if_pos ⟨hok,by omega⟩,Option.bind_some]
      exact ih hdel' h (by omega)
    · cases h

end Strict

section Section

variable {plmnEq : Plmn → Plmn → Bool} {lists : CellIdLists (List CellId)} (p : Plmn) (pre : List Bts)
  (b : Bts) (R : Store (List CellId))

def onLast : Vty := ⟨⟨p,pre ++ [b],R⟩,some pre.length⟩

theorem modify_last (f : Bts → Bts) : (pre ++ [b]).modify pre.length f = pre ++ [f b] := by
  induction pre with
  | nil => rfl
  | cons a pre ih => simpa [List.modify_succ_cons] using ih

theorem modifyBts_onLast (f : Bts → Bts) :
    ({ onLast p pre b R with net := (onLast p pre b R).net.modifyBts pre.length f } : Vty) =
      onLast p pre (f b) R := by
  simp [onLast,Net.modifyBts,modify_last]

variable {p pre b R}

theorem strictly_accepted {v v' : Vty} {cmd : Cmd} (h : exec plmnEq lists v cmd = (true,v'))
    (hr : v.net.remote.length+cmd.adds ≤ v'.net.remote.length) : strictly plmnEq lists v cmd = some v' := by
  simp [strictly,h,hr]

theorem strictly_refused {v : Vty} {cmd : Cmd} (h : (exec plmnEq lists v cmd).1 = false) :
    strictly plmnEq lists v cmd = none := by
  simp [strictly,h]

theorem strictly_cellIdentity (ci : UInt16) :
    strictly plmnEq lists (onLast p pre b R) (.cellIdentity ci) =
      some (onLast p pre { b with cellIdentity := ci } R) :=
  strictly_accepted (congrArg (Prod.mk true) (modifyBts_onLast p pre b R _)) (Nat.le_refl _)

theorem strictly_arfcn (arfcn : UInt16) :
    strictly plmnEq lists (onLast p pre b R) (.arfcn arfcn) = some (onLast p pre { b with arfcn } R) :=
  strictly_accepted (congrArg (Prod.mk true) (modifyBts_onLast p pre b R _)) (Nat.le_refl _)

theorem strictly_lac {lac : UInt16} (h : lac ≠ gsmLacReservedAllBts) :
    strictly plmnEq lists (onLast p pre b R) (.locationAreaCode lac) =
      if lac = gsmLacReservedDetached then none
      else some (onLast p pre { b with locationAreaCode := lac } R) := by
  by_cases hl : lac = gsmLacReservedDetached
  · rw [if_pos hl]
    exact strictly_refused (by simp [exec,onBtsNode,onLast,btsCmd,hl])
  · rw [if_neg hl]
    refine strictly_accepted ?_ (Nat.le_refl _)
    rw [← modifyBts_onLast p pre b R ({ · with locationAreaCode := lac })]
    simp [exec,onBtsNode,onLast,btsCmd,hl,h]

theorem strictly_bsic {bsic : UInt8} (h : bsic ≤ 0x3f) :
    strictly plmnEq lists (onLast p pre b R) (.baseStationIdCode bsic) =
      some (onLast p pre { b with bsic } R) := by
  have hb : ¬ bsic > 0x3f := UInt8.not_lt.mpr h
  refine strictly_accepted ?_ (Nat.le_refl _)
  rw [← modifyBts_onLast p pre b R ({ · with bsic })]
  simp [exec,onBtsNode,onLast,btsCmd,hb]

theorem strictly_neighborBts {j : Nat} (hj : j ≠ pre.length) (hmem : j ∉ b.localNeighbors) :
    strictly plmnEq lists (onLast p pre b R) (.neighborBts j) =
      if j < pre.length then
        some (onLast p pre { b with localNeighbors := b.localNeighbors ++ [j] } R) else none := by
  by_cases hlt : j < pre.length
  · rw [if_pos hlt]
    refine strictly_accepted ?_ (Nat.le_refl _)
    have hadd : b.localNeighborAdd j = { b with localNeighbors := b.localNeighbors ++ [j] } := if_neg hmem
    have hnum : j < pre.length+1 := by omega
    rw [← hadd,← modifyBts_onLast p pre b R (.localNeighborAdd j)]
    simp [exec,onBtsNode,onLast,btsCmd,Net.btsNum,hnum,hj,addLocalBts]
  · rw [if_neg hlt]
    refine strictly_refused ?_
    have hnum : ¬ j < pre.length+1 := by omega
    simp [exec,onBtsNode,onLast,btsCmd,Net.btsNum,hnum,addLocalBts]

theorem btsByCellId_eq_none {net : Net} {cellId : CellId} : net.btsByCellId plmnEq cellId = none ↔
    ∀ b ∈ net.bts, b.matchesCellId plmnEq net.plmn cellId = false := by
  simp [Net.btsByCellId,List.findIdx?_eq_none_iff]

theorem strictly_neighborKey {cellId : CellId} {arfcn : UInt16} {bsic : UInt8} {v' : Vty}
    (hn : ∀ e ∈ R, ¬ Meets e.key ⟨pre.length,arfcn,bsic⟩)
    (hv : neighborIdentKeyValid ⟨pre.length,arfcn,bsic⟩ = true) :
    strictly plmnEq lists (onLast p pre b R) (.neighborKey cellId arfcn bsic) = some v' ↔
      (∀ b' ∈ pre ++ [b], b'.matchesCellId plmnEq p cellId = false) ∧
        v' = onLast p pre b (R ++ [⟨⟨pre.length,arfcn,bsic⟩,[cellId]⟩]) := by
  have hnone := @btsByCellId_eq_none plmnEq (onLast p pre b R).net cellId
  have hexec : (exec plmnEq lists (onLast p pre b R) (.neighborKey cellId arfcn bsic)).2.net =
      (addRemoteOrLocalBts plmnEq lists pre.length cellId ⟨pre.length,arfcn,bsic⟩
        (onLast p pre b R).net).2 := rfl
  by_cases hall : ∀ b' ∈ pre ++ [b], b'.matchesCellId plmnEq p cellId = false
  · have hfind : (onLast p pre b R).net.btsByCellId plmnEq cellId = none := hnone.mpr hall
    have hget : neighborIdentGet (some R) ⟨pre.length,arfcn,bsic⟩ = none := neighborIdentGet_eq_none.mpr hn
    have hs : strictly plmnEq lists (onLast p pre b R) (.neighborKey cellId arfcn bsic) =
        some (onLast p pre b (R ++ [⟨⟨pre.length,arfcn,bsic⟩,[cellId]⟩])) := by
      refine strictly_accepted ?_ (by simp [onLast,Cmd.adds])
      simp only [exec,onBtsNode,btsCmd,addRemoteOrLocalBts,hfind]
      simp [onLast,hget,neighborIdentAdd_new [cellId] hn hv]
    rw [hs]
    constructor
    · intro h
      cases h
      exact ⟨hall,rfl⟩
    · rintro ⟨-,rfl⟩
      rfl
  · refine iff_of_false (fun hs => ?_) (fun h => hall h.1)
    simp only [strictly] at hs
    split at hs
    · rename_i hok
      rw [hexec] at hok
      rcases @addRemoteOrLocalBts_cases plmnEq lists pre.length cellId ⟨pre.length,arfcn,bsic⟩
        (onLast p pre b R).net with h | ⟨h,-⟩
      · have hlen := hok.2
        rw [h,Cmd.adds] at hlen
        omega
      · exact hall (hnone.mp h)
    · cases hs

theorem strict_locals {js : List Nat} {v' : Vty} (hne : ∀ j ∈ js, j ≠ pre.length)
    (hnd : (b.localNeighbors ++ js).Nodup) :
    strict plmnEq lists (js.map .neighborBts) (onLast p pre b R) = some v' ↔
      (∀ j ∈ js, j < pre.length) ∧
        v' = onLast p pre { b with localNeighbors := b.localNeighbors ++ js } R := by
  induction js generalizing b with
  | nil => simp [strict,eq_comm]
  | cons j js ih =>
    have hmem : j ∉ b.localNeighbors := by
      intro h
      exact (List.nodup_append.mp hnd).2.2 j h j List.mem_cons_self rfl
    simp only [List.map_cons,strict,strictly_neighborBts (hne j List.mem_cons_self) hmem]
    by_cases hj : j < pre.length
    · rw [if_pos hj,Option.bind_some,ih (fun i hi => hne i (List.mem_cons_of_mem _ hi))]
      · simp [hj]
      · simpa using hnd
    · simp [hj]

/-- The remote neighbours of BTS `k` in the store. -/
structure Entries (k : Nat) (R es : Store (List CellId)) : Prop where
  fromBts : ∀ e ∈ es, e.key.fromBts = (k : Int)
  valid : ∀ e ∈ es, neighborIdentKeyValid e.key = true
  single : ∀ e ∈ es, ∃ cellId, e.val = [cellId]
  apart : (R ++ es).Pairwise fun e e' => ¬ Meets e.key e'.key

theorem strict_remotes {es : Store (List CellId)} {v' : Vty} (h : Entries pre.length R es) :
    strict plmnEq lists (es.flatMap writeRemote) (onLast p pre b R) = some v' ↔
      (∀ e ∈ es, ∀ cellId ∈ e.val, ∀ b' ∈ pre ++ [b], b'.matchesCellId plmnEq p cellId = false) ∧
        v' = onLast p pre b (R ++ es) := by
  induction es generalizing R with
  | nil =>
    rw [List.append_nil]
    constructor
    · intro hs
      cases hs
      exact ⟨by simp,rfl⟩
    · rintro ⟨-,rfl⟩
      rfl
  | cons e es ih =>
    obtain ⟨cellId,hval⟩ := h.single e List.mem_cons_self
    have hkey : e.key = ⟨pre.length,e.key.arfcn,e.key.bsic⟩ := by
      rw [← h.fromBts e List.mem_cons_self]
    have hn : ∀ x ∈ R, ¬ Meets x.key ⟨pre.length,e.key.arfcn,e.key.bsic⟩ := by
      intro x hx
      rw [← hkey]
      exact (List.pairwise_append.mp h.apart).2.2 x hx e List.mem_cons_self
    have hv : neighborIdentKeyValid ⟨pre.length,e.key.arfcn,e.key.bsic⟩ = true := by
      rw [← hkey]
      exact h.valid e List.mem_cons_self
    have he : (⟨⟨pre.length,e.key.arfcn,e.key.bsic⟩,[cellId]⟩ : Ident (List CellId)) = e := by
      rw [← hkey,← hval]
    have hrest : Entries pre.length (R ++ [e]) es :=
      ⟨fun x hx => h.fromBts x (List.mem_cons_of_mem _ hx),fun x hx => h.valid x (List.mem_cons_of_mem _ hx),
        fun x hx => h.single x (List.mem_cons_of_mem _ hx),by simpa using h.apart⟩
    have hstep := @strictly_neighborKey plmnEq lists p pre b R cellId e.key.arfcn e.key.bsic
    rw [List.flatMap_cons,writeRemote,hval,List.map_singleton,List.singleton_append,strict]
    constructor
    · intro hs
      obtain ⟨v1,h1,h2⟩ := Option.bind_eq_some_iff.mp hs
      obtain ⟨hall,rfl⟩ := (hstep hn hv).mp h1
      rw [he] at h2
      obtain ⟨hall',rfl⟩ := (ih hrest).mp h2
      refine ⟨?_,by simp⟩
      intro x hx c hc
      rcases List.mem_cons.mp hx with rfl | hx
      · rw [hval,List.mem_singleton] at hc
        exact hc ▸ hall
      · exact hall' x hx c hc
    · rintro ⟨hall,rfl⟩
      have h1 := (hstep hn hv).mpr ⟨hall e List.mem_cons_self cellId (by simp [hval]),rfl⟩
      rw [h1,Option.bind_some,he]
      exact (ih hrest).mpr ⟨fun x hx => hall x (List.mem_cons_of_mem _ hx),by simp⟩

theorem strict_header {k : Nat} {idx : Option Nat} {v' : Vty} (hk : pre.length = k) (hk' : k ≤ 255)
    (hlac : b.locationAreaCode ≠ gsmLacReservedAllBts) (hb : b.bsic ≤ 0x3f) :
    strict plmnEq lists [.bts k,.cellIdentity b.cellIdentity,.locationAreaCode b.locationAreaCode,
        .baseStationIdCode b.bsic] ⟨⟨p,pre,R⟩,idx⟩ = some v' ↔
      b.locationAreaCode ≠ gsmLacReservedDetached ∧
        v' = onLast p pre { b with arfcn := 0, localNeighbors := [] } R := by
  subst hk
  have hnew : strictly plmnEq lists ⟨⟨p,pre,R⟩,idx⟩ (.bts pre.length) = some (onLast p pre {} R) := by
    refine strictly_accepted ?_ (Nat.le_refl _)
    simp [exec,onLast]
    exact hk'
  simp only [strict,hnew,Option.bind_some,strictly_cellIdentity,strictly_lac hlac]
  by_cases hl : b.locationAreaCode = gsmLacReservedDetached
  · simp [hl]
  · simp [hl,strictly_bsic hb,eq_comm]

end Section

section Sections

variable {plmnEq : Plmn → Plmn → Bool} {lists : CellIdLists (List CellId)} {net : Net}

def remotesOf (net : Net) (k : Nat) : Store (List CellId) :=
  net.remote.filter fun e => e.key.fromBts = (k : Int)

/-- The VTY when the sections of `k` BTSs were read back. -/
def progress (net : Net) (k : Nat) : Vty :=
  ⟨⟨net.plmn,net.bts.take k,(List.range k).flatMap (remotesOf net)⟩,if k = 0 then none else some (k-1)⟩

/-- The conditions on the section of BTS `k`. -/
structure SectionOk (plmnEq : Plmn → Plmn → Bool) (net : Net) (k : Nat) (b : Bts) : Prop where
  lac : b.locationAreaCode ≠ gsmLacReservedDetached
  locals : ∀ j ∈ b.localNeighbors, j < k
  remotes : ∀ e ∈ remotesOf net k, ∀ cellId ∈ e.val, ∀ b' ∈ net.bts.take (k+1),
    b'.matchesCellId plmnEq net.plmn cellId = false

theorem mem_remotesOf {k : Nat} {e : Ident (List CellId)} :
    e ∈ remotesOf net k ↔ e ∈ net.remote ∧ e.key.fromBts = (k : Int) := by
  simp [remotesOf]

theorem entries_remotesOf (h : NetOk net) (k : Nat) :
    Entries k ((List.range k).flatMap (remotesOf net)) (remotesOf net k) where
  fromBts e he := (mem_remotesOf.mp he).2
  valid e he := (h.remote e (mem_remotesOf.mp he).1).valid
  single e he := (h.remote e (mem_remotesOf.mp he).1).single
  apart := by
    have hone : ∀ i, (remotesOf net i).Pairwise fun e e' => ¬ Meets e.key e'.key :=
      fun i => h.apart.sublist List.filter_sublist
    have htwo : ∀ i j, i ≠ j → ∀ e ∈ remotesOf net i, ∀ e' ∈ remotesOf net j, ¬ Meets e.key e'.key := by
      intro i j hij e he e' he' hm
      have hi := (mem_remotesOf.mp he).2
      have hj := (mem_remotesOf.mp he').2
      rcases hm.1 with h1 | h1 | h1
      · rw [hi,keyAnyBts] at h1
        omega
      · rw [hj,keyAnyBts] at h1
        omega
      · rw [hi,hj] at h1
        omega
    rw [List.pairwise_append]
    refine ⟨?_,hone k,fun e he e' he' => ?_⟩
    · rw [List.pairwise_flatMap]
      refine ⟨fun i _ => hone i,?_⟩
      refine List.pairwise_iff_forall_sublist.mpr fun {i j} hs => ?_
      have hlt := List.pairwise_iff_forall_sublist.mp (List.pairwise_lt_range (n := k)) hs
      exact htwo i j (by omega)
    · obtain ⟨i,hi,he⟩ := List.mem_flatMap.mp he
      have hlt := List.mem_range.mp hi
      exact htwo i k (by omega) e he e' he'

theorem strict_section (h : NetOk net) {k : Nat} {b : Bts} (hb : net.bts[k]? = some b) {v' : Vty} :
    strict plmnEq lists (configWriteBtsSingle net k b) (progress net k) = some v' ↔
      SectionOk plmnEq net k b ∧ v' = progress net (k+1) := by
  obtain ⟨hlt,hbk⟩ := List.getElem?_eq_some_iff.mp hb
  have hok := h.bts k b hb
  have hc := h.count
  have hpre : (net.bts.take k).length = k := by
    rw [List.length_take]
    omega
  have htake : net.bts.take (k+1) = net.bts.take k ++ [b] := by
    rw [List.take_add_one,hb]
    rfl
  let b0 : Bts := { b with arfcn := 0, localNeighbors := [] }
  let b1 : Bts := { b with arfcn := 0 }
  have hhead := fun v' => @strict_header plmnEq lists net.plmn (net.bts.take k) b
    ((List.range k).flatMap (remotesOf net)) k (progress net k).index v' hpre (by omega) hok.lac hok.bsic
  have hloc := fun v' => @strict_locals plmnEq lists net.plmn (net.bts.take k) b0
    ((List.range k).flatMap (remotesOf net)) b.localNeighbors v'
    (fun j hj => hpre.symm ▸ (hok.locals j hj).2) hok.nodup
  have hrem := fun v' => @strict_remotes plmnEq lists net.plmn (net.bts.take k) b1
    ((List.range k).flatMap (remotesOf net)) (remotesOf net k) v' (hpre.symm ▸ entries_remotesOf h k)
  have harf := @strictly_arfcn plmnEq lists net.plmn (net.bts.take k) b1
    ((List.range k).flatMap (remotesOf net) ++ remotesOf net k) b.arfcn
  have hmatch : (∀ e ∈ remotesOf net k, ∀ cellId ∈ e.val, ∀ b' ∈ net.bts.take k ++ [b1],
      b'.matchesCellId plmnEq net.plmn cellId = false) ↔
      ∀ e ∈ remotesOf net k, ∀ cellId ∈ e.val, ∀ b' ∈ net.bts.take (k+1),
        b'.matchesCellId plmnEq net.plmn cellId = false := by
    have hb1 : ∀ cellId, b1.matchesCellId plmnEq net.plmn cellId = b.matchesCellId plmnEq net.plmn cellId := by
      intro cellId
      cases cellId <;> rfl
    simp only [htake,List.forall_mem_append,List.forall_mem_singleton,hb1]
  have hdone : onLast net.plmn (net.bts.take k) { b1 with arfcn := b.arfcn }
      ((List.range k).flatMap (remotesOf net) ++ remotesOf net k) = progress net (k+1) := by
    simp [onLast,progress,htake,hpre,List.range_succ,b1]
  rw [hpre] at hloc
  have hcmds : configWriteBtsSingle net k b =
      [Cmd.bts k,.cellIdentity b.cellIdentity,.locationAreaCode b.locationAreaCode,.baseStationIdCode b.bsic] ++
        (b.localNeighbors.map .neighborBts ++ ((remotesOf net k).flatMap writeRemote ++ [Cmd.arfcn b.arfcn])) := by
    simp [configWriteBtsSingle,neighborIdentVtyWrite,remotesOf]
  rw [hcmds]
  simp only [strict_append,Option.bind_eq_some_iff]
  constructor
  · rintro ⟨v1,h1,v2,h2,v3,h3,h4⟩
    obtain ⟨hlac,rfl⟩ := (hhead v1).mp h1
    obtain ⟨hlocals,rfl⟩ := (hloc v2).mp h2
    obtain ⟨hremotes,rfl⟩ := (hrem v3).mp h3
    refine ⟨⟨hlac,hlocals,hmatch.mp hremotes⟩,?_⟩
    simp only [strict,harf,Option.bind_some,hdone] at h4
    cases h4
    rfl
  · rintro ⟨⟨hlac,hlocals,hremotes⟩,rfl⟩
    have h1 := (hhead _).mpr ⟨hlac,rfl⟩
    have h2 := (hloc _).mpr ⟨hlocals,rfl⟩
    have h3 := (hrem _).mpr ⟨hmatch.mpr hremotes,rfl⟩
    refine ⟨_,h1,_,h2,_,h3,?_⟩
    simp only [strict,harf,Option.bind_some,hdone]

/-- The sections of the first `k` BTSs. -/
def writeSections (net : Net) (k : Nat) : List Cmd :=
  (net.bts.take k).zipIdx.flatMap fun b => configWriteBtsSingle net b.2 b.1

theorem writeSections_succ {k : Nat} {b : Bts} (hb : net.bts[k]? = some b) :
    writeSections net (k+1) = writeSections net k ++ configWriteBtsSingle net k b := by
  obtain ⟨hlt,-⟩ := List.getElem?_eq_some_iff.mp hb
  have hpre : (net.bts.take k).length = k := by
    rw [List.length_take]
    omega
  simp [writeSections,List.take_add_one,hb,List.zipIdx_append,hpre]

theorem strict_sections (h : NetOk net) {k : Nat} (hk : k ≤ net.bts.length) {v' : Vty} :
    strict plmnEq lists (writeSections net k) (progress net 0) = some v' ↔
      (∀ i < k, ∀ b, net.bts[i]? = some b → SectionOk plmnEq net i b) ∧ v' = progress net k := by
  induction k generalizing v' with
  | zero =>
    constructor
    · intro hs
      cases hs
      exact ⟨fun i hi => absurd hi (by omega),rfl⟩
    · rintro ⟨-,rfl⟩
      rfl
  | succ k ih =>
    obtain ⟨b,hb⟩ : ∃ b, net.bts[k]? = some b := ⟨_,List.getElem?_eq_getElem (by omega)⟩
    rw [writeSections_succ hb,strict_append,Option.bind_eq_some_iff]
    constructor
    · rintro ⟨v1,h1,h2⟩
      obtain ⟨hall,rfl⟩ := (ih (by omega)).mp h1
      obtain ⟨hone,rfl⟩ := (strict_section h hb).mp h2
      refine ⟨fun i hi b' hb' => ?_,rfl⟩
      by_cases he : i = k
      · subst he
        rw [hb] at hb'
        cases hb'
        exact hone
      · exact hall i (by omega) b' hb'
    · rintro ⟨hall,rfl⟩
      exact ⟨_,(ih (by omega)).mpr ⟨fun i hi => hall i (by omega),rfl⟩,
        (strict_section h hb).mpr ⟨hall k (by omega) b hb,rfl⟩⟩

theorem adds_writeSections (h : NetOk net) {k : Nat} (hk : k ≤ net.bts.length) :
    ((writeSections net k).map Cmd.adds).sum = ((List.range k).flatMap (remotesOf net)).length := by
  induction k with
  | zero => rfl
  | succ k ih =>
    obtain ⟨b,hb⟩ : ∃ b, net.bts[k]? = some b := ⟨_,List.getElem?_eq_getElem (by omega)⟩
    have hlocals : ∀ js : List Nat, ((js.map Cmd.neighborBts).map Cmd.adds).sum = 0 := by
      intro js
      induction js with
      | nil => rfl
      | cons j js ih => simpa [Cmd.adds] using ih
    have hremotes : ∀ es : Store (List CellId), (∀ e ∈ es, ∃ cellId, e.val = [cellId]) →
        ((es.flatMap writeRemote).map Cmd.adds).sum = es.length := by
      intro es hes
      induction es with
      | nil => rfl
      | cons e es ih =>
        obtain ⟨cellId,hval⟩ := hes e List.mem_cons_self
        have ih := ih fun x hx => hes x (List.mem_cons_of_mem _ hx)
        rw [List.flatMap_cons,List.map_append,List.sum_append,ih,writeRemote,hval]
        simp [Cmd.adds]
        omega
    have hsec : ((configWriteBtsSingle net k b).map Cmd.adds).sum = (remotesOf net k).length := by
      have hr := hremotes (remotesOf net k) (entries_remotesOf h k).single
      have hl := hlocals b.localNeighbors
      simp only [configWriteBtsSingle,neighborIdentVtyWrite,List.map_append,List.sum_append,hl]
      rw [remotesOf] at hr
      simp only [hr]
      simp [Cmd.adds,remotesOf]
    rw [writeSections_succ hb,List.map_append,List.sum_append,ih (by omega),hsec,List.range_succ]
    simp

theorem not_mem_writeSections (k : Nat) (arfcn : UInt16) (bsic : UInt8) :
    .noNeighborKey arfcn bsic ∉ writeSections net k := by
  simp [writeSections,configWriteBtsSingle,neighborIdentVtyWrite,writeRemote]

theorem remotesOf_perm (h : NetOk net) :
    ((List.range net.bts.length).flatMap (remotesOf net)).Perm net.remote := by
  have hlt : ∀ k, ((List.range k).flatMap (remotesOf net)).Perm
      (net.remote.filter fun e => decide (e.key.fromBts < (k : Int)) && decide (0 ≤ e.key.fromBts)) := by
    intro k
    induction k with
    | zero =>
      have hnil : net.remote.filter (fun e => decide (e.key.fromBts < ((0 : Nat) : Int)) &&
          decide (0 ≤ e.key.fromBts)) = [] := by
        refine List.filter_eq_nil_iff.mpr fun e _ => ?_
        simp only [Bool.and_eq_true,decide_eq_true_eq,not_and]
        omega
      rw [hnil]
      exact List.Perm.refl _
    | succ k ih =>
      rw [List.range_succ,List.flatMap_append,List.flatMap_singleton]
      have hsplit := List.filter_append_perm (fun e : Ident (List CellId) => decide (e.key.fromBts < (k : Int)))
        (net.remote.filter fun e => decide (e.key.fromBts < ((k+1 : Nat) : Int)) &&
          decide (0 ≤ e.key.fromBts))
      refine (ih.append_right _).trans (List.Perm.trans (List.Perm.of_eq ?_) hsplit)
      rw [List.filter_filter,List.filter_filter,remotesOf]
      congr 1
      · refine List.filter_congr fun e _ => ?_
        rw [← Bool.decide_and,← Bool.decide_and,← Bool.decide_and,decide_eq_decide]
        omega
      · refine List.filter_congr fun e _ => ?_
        rw [← decide_not,← Bool.decide_and,← Bool.decide_and,decide_eq_decide]
        omega
  refine (hlt _).trans (List.Perm.of_eq (List.filter_eq_self.mpr fun e he => ?_))
  obtain ⟨k,hk,hf⟩ := (h.remote e he).fromBts
  simp only [Bool.and_eq_true,decide_eq_true_eq,hf]
  omega

theorem sections_loadable (h : NetOk net) :
    (∀ i < net.bts.length, ∀ b, net.bts[i]? = some b → SectionOk plmnEq net i b) ↔ Loadable plmnEq net := by
  constructor
  · intro hall
    have hone : ∀ (i : Nat) (b : Bts), net.bts[i]? = some b → SectionOk plmnEq net i b :=
      fun i b hb => hall i (List.getElem?_eq_some_iff.mp hb).1 b hb
    refine ⟨fun b hb => ?_,fun k b hb => (hone k b hb).locals,fun e he c hc j b hj hb => ?_⟩
    · obtain ⟨i,hi⟩ := List.getElem?_of_mem hb
      exact (hone i b hi).lac
    · obtain ⟨k,hk,hf⟩ := (h.remote e he).fromBts
      refine (hall k hk _ (List.getElem?_eq_getElem hk)).remotes e (mem_remotesOf.mpr ⟨he,hf⟩) c hc b ?_
      rw [hf] at hj
      exact List.mem_of_getElem? ((List.getElem?_take_of_lt (by omega)).trans hb)
  · intro hl i hi b hb
    refine ⟨hl.lac b (List.mem_of_getElem? hb),hl.locals i b hb,fun e he c hc b' hb' => ?_⟩
    obtain ⟨he,hf⟩ := mem_remotesOf.mp he
    obtain ⟨j,hj⟩ := List.getElem?_of_mem hb'
    obtain ⟨hjlt,-⟩ := List.getElem?_eq_some_iff.mp hj
    rw [List.length_take] at hjlt
    rw [List.getElem?_take_of_lt (by omega)] at hj
    exact hl.remotes e he c hc j b' (by rw [hf]; omega) hj

end Sections

/-- The written configuration is accepted and reproduces all neighbours if and only if the
network is loadable. -/
theorem neighbors_reload_iff {plmnEq : Plmn → Plmn → Bool} {lists : CellIdLists (List CellId)} {v : Vty}
    (h : Configured plmnEq lists v) (plmn : Plmn) :
    (∃ v', replay plmnEq lists (configWrite v.net) (emptyVty plmn) = some v' ∧
      SameNeighbors v.net v'.net) ↔ Loadable plmnEq v.net := by
  have hnet := h.ok.net
  have hwrite : configWrite v.net = .plmn v.net.plmn :: writeSections v.net v.net.bts.length := by
    rw [configWrite,writeSections,List.take_length]
  have hfirst : exec plmnEq lists (emptyVty plmn) (.plmn v.net.plmn) = (true,progress v.net 0) := rfl
  rw [hwrite,replay,hfirst,if_pos rfl,← sections_loadable hnet]
  constructor
  · rintro ⟨v',hr,hs⟩
    have hadds := adds_writeSections hnet (Nat.le_refl _)
    have hlen : (progress v.net 0).net.remote.length+
        ((writeSections v.net v.net.bts.length).map Cmd.adds).sum ≤ v'.net.remote.length := by
      rw [hadds,hs.remotes.length_eq,(remotesOf_perm hnet).length_eq]
      exact Nat.le_of_eq (Nat.zero_add _)
    have hstrict := strict_of_replay (not_mem_writeSections _) hr hlen
    exact ((strict_sections hnet (Nat.le_refl _)).mp hstrict).1
  · intro hall
    have hstrict := (@strict_sections plmnEq lists v.net hnet _ (Nat.le_refl _) _).mpr ⟨hall,rfl⟩
    refine ⟨_,replay_of_strict hstrict,?_,?_,remotesOf_perm hnet⟩
    · simp [progress]
    · intro k b b' hb hb' j
      simp only [progress,List.take_length] at hb'
      rw [hb] at hb'
      cases hb'
      exact Iff.rfl

def session (plmnEq : Plmn → Plmn → Bool) (lists : CellIdLists (List CellId)) (cmds : List Cmd) (v : Vty) :
    Vty :=
  cmds.foldl (fun v cmd => (exec plmnEq lists v cmd).2) v

theorem Configured.session {plmnEq : Plmn → Plmn → Bool} {lists : CellIdLists (List CellId)} {v : Vty}
    (h : Configured plmnEq lists v) (cmds : List Cmd) :
    Configured plmnEq lists (session plmnEq lists cmds v) := by
  induction cmds generalizing v with
  | nil => exact h
  | cons cmd cmds ih => exact ih (h.next cmd)

def samePlmn (p q : Plmn) : Bool := p == q

def cellIdLists : CellIdLists (List CellId) where
  idListLen := List.length
  listAdd dst src := (dst.length+src.length,dst ++ src)

def testPlmn : Plmn := ⟨1,1,false⟩

def twoCells (at' : Nat) (neighbors : List Cmd) : List Cmd :=
  [Cmd.bts 0,.locationAreaCode 23,.cellIdentity 1,.arfcn 868,.bts 1,.locationAreaCode 24,.cellIdentity 2,
      .arfcn 870,.bts at'] ++ neighbors

theorem neighbors_reload_backward :
    ∃ v', replay samePlmn cellIdLists
        (configWrite (session samePlmn cellIdLists
          (twoCells 1 [.neighborBts 0,.neighborKey (.lacAndCi 55 7) 123 5]) (emptyVty testPlmn)).net)
        (emptyVty testPlmn) = some v' ∧
      SameNeighbors (session samePlmn cellIdLists
        (twoCells 1 [.neighborBts 0,.neighborKey (.lacAndCi 55 7) 123 5]) (emptyVty testPlmn)).net v'.net := by
  refine (neighbors_reload_iff ((Configured.start testPlmn).session _) testPlmn).mpr ⟨?_,?_,?_⟩
  · decide +kernel
  · intro k b hb
    rcases k with _ | _ | k <;> cases hb <;> decide
  · intro e he cellId hc j b _ hb
    obtain rfl := List.mem_singleton.mp he
    obtain rfl := List.mem_singleton.mp hc
    rcases j with _ | _ | j <;> cases hb <;> decide

/-- BTS 0 has BTS 1 as neighbour: BTS 1 does not exist when the neighbours of BTS 0 are read. -/
theorem neighbors_not_reloaded :
    ∃ v, Configured samePlmn cellIdLists v ∧
      replay samePlmn cellIdLists (configWrite v.net) (emptyVty testPlmn) = none :=
  ⟨_,(Configured.start testPlmn).session (twoCells 0 [.neighborBts 1]),by decide +kernel⟩

end OsmoBsc.Neighbor
