import OsmoBsc.Neighbor.Vty

set_option autoImplicit false

namespace OsmoBsc.Neighbor

/-- What VTY commands keep of BTS `k` in a network of `n`. -/
structure BtsOk (n k : Nat) (b : Bts) : Prop where
  lac : b.locationAreaCode ≠ gsmLacReservedAllBts
  bsic : b.bsic ≤ 0x3f
  nodup : b.localNeighbors.Nodup
  locals : ∀ j ∈ b.localNeighbors, j < n ∧ j ≠ k

structure RemoteOk (n : Nat) (e : Ident (List CellId)) : Prop where
  fromBts : ∃ k < n, e.key.fromBts = (k : Int)
  valid : neighborIdentKeyValid e.key = true
  single : ∃ cellId, e.val = [cellId]

/-- What VTY commands keep of a network. No key of a remote neighbour meets another. -/
structure NetOk (net : Net) : Prop where
  count : net.bts.length ≤ 256
  bts : ∀ (k : Nat) (b : Bts), net.bts[k]? = some b → BtsOk net.bts.length k b
  remote : ∀ e ∈ net.remote, RemoteOk net.bts.length e
  apart : net.remote.Pairwise fun e e' => ¬ Meets e.key e'.key

section Invariant

variable {net net' : Net} {k : Nat} {plmnEq : Plmn → Plmn → Bool} {lists : CellIdLists (List CellId)}

theorem BtsOk.mono {n n' : Nat} {b : Bts} (h : BtsOk n k b) (hn : n ≤ n') : BtsOk n' k b :=
  ⟨h.lac,h.bsic,h.nodup,fun j hj => ⟨Nat.lt_of_lt_of_le (h.locals j hj).1 hn,(h.locals j hj).2⟩⟩

theorem RemoteOk.mono {n n' : Nat} {e : Ident (List CellId)} (h : RemoteOk n e) (hn : n ≤ n') :
    RemoteOk n' e := by
  obtain ⟨k,hk,hf⟩ := h.fromBts
  exact ⟨⟨k,Nat.lt_of_lt_of_le hk hn,hf⟩,h.valid,h.single⟩

theorem NetOk.modifyBts (h : NetOk net) {f : Bts → Bts}
    (hf : ∀ b, BtsOk net.bts.length k b → BtsOk net.bts.length k (f b)) : NetOk (net.modifyBts k f) where
  count := by simpa [Net.modifyBts] using h.count
  bts i b hb := by
    simp only [Net.modifyBts,List.length_modify,List.getElem?_modify] at hb ⊢
    cases hi : net.bts[i]? with
    | none => simp [hi] at hb
    | some b0 =>
      have hok := h.bts i b0 hi
      simp only [hi,Option.map_eq_map,Option.map_some,Option.some.injEq] at hb
      subst hb
      by_cases he : k = i
      · subst he
        simpa using hf b0 hok
      · simpa [he] using hok
  remote := by simpa [Net.modifyBts] using h.remote
  apart := h.apart

theorem NetOk.addLocalBts (h : NetOk net) (neigh : Option Nat)
    (hn : ∀ j, neigh = some j → j < net.bts.length) : NetOk (addLocalBts k neigh net).2 := by
  cases neigh with
  | none => exact h
  | some j =>
    simp only [Neighbor.addLocalBts]
    split
    · exact h
    · rename_i hne
      refine h.modifyBts fun b hb => ?_
      rw [Bts.localNeighborAdd]
      split
      · exact hb
      · rename_i hmem
        refine ⟨hb.lac,hb.bsic,?_,fun i hi => ?_⟩
        · refine List.nodup_append.mpr ⟨hb.nodup,by simp,?_⟩
          intro a ha b' hb' hab
          rw [List.mem_singleton] at hb'
          exact hmem (hb' ▸ hab ▸ ha)
        · rcases List.mem_append.mp hi with hi | hi
          · exact hb.locals i hi
          · rw [List.mem_singleton.mp hi]
            exact ⟨hn j rfl,hne⟩

theorem NetOk.delLocalBts (h : NetOk net) (neigh : Option Nat) : NetOk (delLocalBts k neigh net).2 := by
  cases neigh with
  | none => exact h
  | some j =>
    refine h.modifyBts fun b hb => ⟨hb.lac,hb.bsic,hb.nodup.erase j,fun i hi => ?_⟩
    exact hb.locals i (List.mem_of_mem_erase hi)

theorem NetOk.sublist (h : NetOk net) {remote : Store (List CellId)} (hs : remote.Sublist net.remote) :
    NetOk { net with remote } :=
  ⟨h.count,h.bts,fun e he => h.remote e (hs.subset he),h.apart.sublist hs⟩

theorem NetOk.delByKey (h : NetOk net) (key : Key) : NetOk (delByKey k key net).2 := by
  have hs : ((neighborIdentDel (some net.remote) key).2.getD net.remote).Sublist net.remote := by
    rcases neighborIdentDel_cases net.remote key with ⟨-,he⟩ | ⟨pre,ni,post,hsplit,-,he⟩
    · rw [he]
      exact List.Sublist.refl _
    · rw [he,hsplit]
      exact List.Sublist.append_left (List.sublist_cons_self _ _) _
  have hm := h.modifyBts (k := k) (f := fun b => { b with
    localNeighbors := b.localNeighbors.filter fun j => !(net.bts[j]?).any (keyMatchesBts key) })
    fun b hb => ⟨hb.lac,hb.bsic,hb.nodup.filter _,fun j hj => hb.locals j (List.mem_of_mem_filter hj)⟩
  exact hm.sublist hs

theorem neighborIdentGet_eq_none {store : Store (List CellId)} {key : Key} :
    neighborIdentGet (some store) key = none ↔ ∀ e ∈ store, ¬ Meets e.key key := by
  rcases store_split store key with h | ⟨pre,ni,post,rfl,hni,hpre⟩
  · rcases neighborIdentGet_wildcard h with ⟨hg,hn⟩ | ⟨e,he,hm,hg⟩
    · exact iff_of_true hg hn
    · refine iff_of_false (by simp [hg]) fun hn => hn e he hm
  · have hg : neighborIdentGet (some (pre ++ ni :: post)) key = some ni.val := by
      simp [neighborIdentGet,neighborIdentGetEntry_found hpre hni]
    refine iff_of_false (by simp [hg]) fun hn => hn ni (by simp) ?_
    rw [hni]
    exact ⟨.inr (.inr rfl),rfl,.inr (.inr rfl)⟩

theorem Meets.refl (key : Key) : Meets key key := ⟨.inr (.inr rfl),rfl,.inr (.inr rfl)⟩

theorem neighborIdentAdd_new {store : Store (List CellId)} {key : Key} (val : List CellId)
    (hn : ∀ e ∈ store, ¬ Meets e.key key) (hv : neighborIdentKeyValid key = true) :
    neighborIdentAdd lists (some store) key val =
      ((lists.idListLen val : Int),some (store ++ [⟨key,val⟩])) := by
  have hg : neighborIdentGetEntry store key true = none := by
    refine getFrom_exact_none (fun e he heq => ?_) 0
    exact hn e he (heq ▸ Meets.refl _)
  simp [neighborIdentAdd,hv,hg]

theorem btsByCellId_lt {cellId : CellId} {j : Nat} (h : net.btsByCellId plmnEq cellId = some j) :
    j < net.bts.length := by
  obtain ⟨hj,-⟩ := List.findIdx?_eq_some_iff_getElem.mp h
  exact hj

theorem btsNum_lt {nr j : Nat} (h : net.btsNum nr = some j) : j < net.bts.length := by
  rw [Net.btsNum] at h
  split at h
  · cases h
    assumption
  · cases h

theorem NetOk.addRemote (h : NetOk net) (hk : k < net.bts.length) {arfcn : UInt16} {bsic : UInt8}
    (cellId : CellId) (hn : ∀ e ∈ net.remote, ¬ Meets e.key ⟨k,arfcn,bsic⟩)
    (hv : neighborIdentKeyValid ⟨k,arfcn,bsic⟩ = true) :
    NetOk { net with remote := net.remote ++ [⟨⟨k,arfcn,bsic⟩,[cellId]⟩] } where
  count := h.count
  bts := h.bts
  remote e he := by
    rcases List.mem_append.mp he with he | he
    · exact h.remote e he
    · rw [List.mem_singleton.mp he]
      exact ⟨⟨k,hk,rfl⟩,hv,cellId,rfl⟩
  apart := by
    refine List.pairwise_append.mpr ⟨h.apart,List.pairwise_singleton _ _,fun e he e' he' => ?_⟩
    rw [List.mem_singleton.mp he']
    exact hn e he

theorem NetOk.addRemoteOrLocalBts (h : NetOk net) (hk : k < net.bts.length) (cellId : CellId)
    (arfcn : UInt16) (bsic : UInt8) :
    NetOk (addRemoteOrLocalBts plmnEq lists k cellId ⟨k,arfcn,bsic⟩ net).2 := by
  simp only [Neighbor.addRemoteOrLocalBts]
  cases hb : net.btsByCellId plmnEq cellId with
  | some j =>
    simp only
    split
    · refine h.addLocalBts (some j) fun j' hj' => ?_
      cases hj'
      exact btsByCellId_lt hb
    · exact h
  | none =>
    cases hg : neighborIdentGet (some net.remote) ⟨k,arfcn,bsic⟩ with
    | some val => exact h
    | none =>
      have hn := neighborIdentGet_eq_none.mp hg
      cases hv : neighborIdentKeyValid ⟨k,arfcn,bsic⟩ with
      | true =>
        simp only [neighborIdentAdd_new [cellId] hn hv,Option.getD_some]
        exact h.addRemote hk cellId hn hv
      | false => simpa [neighborIdentAdd,hv] using h

theorem NetOk.btsCmd (h : NetOk net) (hk : k < net.bts.length) (cmd : Cmd) :
    NetOk (btsCmd plmnEq lists k net cmd).2 := by
  cases cmd with
  | plmn | bts => exact h
  | cellIdentity ci => exact h.modifyBts fun b hb => ⟨hb.lac,hb.bsic,hb.nodup,hb.locals⟩
  | locationAreaCode lac =>
    simp only [Neighbor.btsCmd]
    split
    · exact h
    · rename_i hl
      exact h.modifyBts fun b hb => ⟨fun he => hl (.inr he),hb.bsic,hb.nodup,hb.locals⟩
  | baseStationIdCode bsic =>
    simp only [Neighbor.btsCmd]
    split
    · exact h
    · rename_i hb0
      exact h.modifyBts fun b hb => ⟨hb.lac,UInt8.not_lt.mp hb0,hb.nodup,hb.locals⟩
  | arfcn arfcn => exact h.modifyBts fun b hb => ⟨hb.lac,hb.bsic,hb.nodup,hb.locals⟩
  | neighborBts nr => exact h.addLocalBts _ fun j hj => btsNum_lt hj
  | neighborCell cellId => exact h.addLocalBts _ fun j hj => btsByCellId_lt hj
  | neighborKey cellId arfcn bsic => exact h.addRemoteOrLocalBts hk cellId arfcn bsic
  | noNeighborBts nr => exact h.delLocalBts _
  | noNeighborKey arfcn bsic => exact h.delByKey _

@[simp] theorem modifyBts_length (f : Bts → Bts) : (net.modifyBts k f).bts.length = net.bts.length := by
  simp [Net.modifyBts]

theorem addLocalBts_length (neigh : Option Nat) :
    (addLocalBts k neigh net).2.bts.length = net.bts.length := by
  cases neigh with
  | none => rfl
  | some j =>
    simp only [addLocalBts]
    split <;> simp

theorem btsCmd_length (cmd : Cmd) : (btsCmd plmnEq lists k net cmd).2.bts.length = net.bts.length := by
  cases cmd with
  | plmn | bts => rfl
  | cellIdentity | arfcn => simp [btsCmd]
  | locationAreaCode | baseStationIdCode =>
    simp only [btsCmd]
    split <;> simp
  | neighborBts | neighborCell => exact addLocalBts_length _
  | neighborKey cellId arfcn bsic =>
    simp only [btsCmd,addRemoteOrLocalBts]
    cases net.btsByCellId plmnEq cellId with
    | some j =>
      simp only
      split
      · exact addLocalBts_length _
      · rfl
    | none => cases neighborIdentGet (some net.remote) ⟨k,arfcn,bsic⟩ <;> rfl
  | noNeighborBts nr =>
    simp only [btsCmd]
    cases net.btsNum nr <;> simp [delLocalBts]
  | noNeighborKey arfcn bsic => simp [btsCmd,delByKey]

end Invariant

structure VtyOk (v : Vty) : Prop where
  net : NetOk v.net
  index : ∀ k, v.index = some k → k < v.net.bts.length

section Configured

variable {plmnEq : Plmn → Plmn → Bool} {lists : CellIdLists (List CellId)} {v : Vty}

theorem NetOk.newBts {net : Net} (h : NetOk net) (hc : net.bts.length ≤ 255) :
    NetOk { net with bts := net.bts ++ [{}] } where
  count := by
    simp only [List.length_append,List.length_singleton]
    omega
  bts i b hb := by
    simp only [List.length_append,List.length_singleton]
    by_cases hi : i < net.bts.length
    · rw [List.getElem?_append_left hi] at hb
      exact (h.bts i b hb).mono (by omega)
    · rw [List.getElem?_append_right (by omega),List.getElem?_singleton] at hb
      split at hb
      · cases hb
        exact ⟨by decide,by decide,List.nodup_nil,fun j hj => absurd hj List.not_mem_nil⟩
      · cases hb
  remote e he := (h.remote e he).mono (by simp)
  apart := h.apart

theorem VtyOk.onBtsNode (h : VtyOk v) (cmd : Cmd) : VtyOk (onBtsNode plmnEq lists v cmd).2 := by
  rw [Neighbor.onBtsNode]
  cases hi : v.index with
  | none => exact h
  | some k =>
    have hk := h.index k hi
    refine ⟨h.net.btsCmd hk cmd,fun k' hk' => ?_⟩
    rw [show k' = k by simpa [hi] using hk'.symm]
    simpa [btsCmd_length] using hk

theorem VtyOk.exec (h : VtyOk v) (cmd : Cmd) : VtyOk (exec plmnEq lists v cmd).2 := by
  cases cmd with
  | plmn plmn => exact ⟨⟨h.net.count,h.net.bts,h.net.remote,h.net.apart⟩,h.index⟩
  | bts nr =>
    simp only [Neighbor.exec]
    split
    · exact h
    · rename_i hnr
      split
      · refine ⟨h.net.newBts (by omega),fun k hk => ?_⟩
        cases hk
        simp
        omega
      · refine ⟨h.net,fun k hk => ?_⟩
        cases hk
        show nr < v.net.bts.length
        omega
  | _ => exact h.onBtsNode _

theorem Configured.ok (h : Configured plmnEq lists v) : VtyOk v := by
  induction h with
  | start plmn =>
    refine ⟨⟨by simp [emptyVty],by simp [emptyVty],by simp [emptyVty],List.Pairwise.nil⟩,fun k hk => ?_⟩
    cases hk
  | next cmd _ ih => exact ih.exec cmd

end Configured

end OsmoBsc.Neighbor
