import OsmoBsc.Sccp.Sigtran
set_option autoImplicit false

namespace OsmoBsc.Sccp
open EventFsm

section Use

variable {log : List (Nat × Prim)} {id i : Nat} {p : Prim}

theorem use_append : use (log ++ [(i,p)]) id = if i = id then (use log id).bind (·.next p) else use log id := by
  unfold use
  rw [List.foldlM_append]
  simp only [List.foldlM_cons,List.foldlM_nil]
  by_cases h : i = id
  · simp [h]
  · simp [h]

theorem use_self : use (log ++ [(id,p)]) id = (use log id).bind (·.next p) := by simp [use_append]

theorem use_other (h : i ≠ id) : use (log ++ [(i,p)]) id = use log id := by simp [use_append,h]

end Use

/-- Between two inputs every connection has an SCCP connection open that it owns, and every SCCP
connection that is open is owned by a connection. -/
structure Net.Inv (net : Net) : Prop where
  nodup : (net.conns.map (·.nr)).Nodup
  lt : ∀ c ∈ net.conns, c.nr < net.allocated
  live : ∀ c ∈ net.conns, ∃ id, c.connId = some id ∧ id < 2^24 ∧ c.sccp ≠ .none ∧
    use net.log id = some (.opened c.nr)
  used : ∀ id, use net.log id = some .closed ∨
    ∃ c ∈ net.conns, c.connId = some id ∧ use net.log id = some (.opened c.nr)
  init : ∀ c ∈ net.conns, c.fsm = .init → c.lchan = false

section Lookup

variable {net : Net} {c c' : Conn} {id nr : Nat}

theorem Net.Inv.eq_of_nr (h : net.Inv) (hc : c ∈ net.conns) (hc' : c' ∈ net.conns) (hn : c.nr = c'.nr) : c = c' :=
  List.inj_on_of_nodup_map h.nodup hc hc' hn

theorem getConn_mem (h : net.getConn id = some c) : c ∈ net.conns ∧ c.connId = some (id % 2^24) :=
  ⟨List.mem_of_find?_eq_some h,by simpa using List.find?_some h⟩

theorem ofNr_mem (h : net.ofNr nr = some c) : c ∈ net.conns ∧ c.nr = nr :=
  ⟨List.mem_of_find?_eq_some h,by simpa using List.find?_some h⟩

theorem Net.Inv.closed (h : net.Inv) (hid : id < 2^24) (hn : net.getConn id = none) :
    use net.log id = some .closed := by
  rcases h.used id with hu | ⟨c,hc,hcid,-⟩
  · exact hu
  · refine absurd ?_ (List.find?_eq_none.mp hn c hc)
    rw [Nat.mod_eq_of_lt hid,hcid]
    exact beq_self_eq_true _

theorem Net.Inv.owner (h : net.Inv) (hid : id < 2^24) (hc : net.getConn id = some c) :
    c ∈ net.conns ∧ c.connId = some id ∧ c.sccp ≠ .none ∧ use net.log id = some (.opened c.nr) := by
  obtain ⟨hmem,hcid⟩ := getConn_mem hc
  rw [Nat.mod_eq_of_lt hid] at hcid
  obtain ⟨id',hid',-,hs,hu⟩ := h.live c hmem
  rw [hcid] at hid'
  cases hid'
  exact ⟨hmem,hcid,hs,hu⟩

theorem pickFreeConnId_free {n counter : Nat} (h : net.pickFreeConnId n counter = some id) :
    id < 2^24 ∧ net.getConn id = none := by
  induction n generalizing counter with
  | zero => cases h
  | succ n ih =>
    rw [Net.pickFreeConnId] at h
    split at h
    · exact ih h
    · rename_i hfree
      cases h
      exact ⟨Nat.mod_lt _ (by decide),by simpa using hfree⟩

end Lookup

section Steps

variable {net net' : Net} {c : Conn} {id : Nat} {p : Prim}

theorem Net.Inv.remove (h : net.Inv) (hc : c ∈ net.conns) (hid : c.connId = some id)
    (hconns : net'.conns = net.conns.filter (·.nr != c.nr)) (hlog : net'.log = net.log ++ [(id,p)])
    (hp : (Use.opened c.nr).next p = some .closed) (ha : net'.allocated = net.allocated) : net'.Inv := by
  have huse : use net.log id = some (.opened c.nr) := by
    obtain ⟨id',hid',-,-,hu⟩ := h.live c hc
    rw [hid] at hid'
    cases hid'
    exact hu
  have hself : use net'.log id = some .closed := by
    rw [hlog,use_self,huse]
    exact hp
  have hmem : ∀ {c'}, c' ∈ net'.conns ↔ c' ∈ net.conns ∧ c'.nr ≠ c.nr := by
    intro c'
    rw [hconns]
    simp
  have hne : ∀ c' ∈ net.conns, ∀ i, c'.nr ≠ c.nr → c'.connId = some i → i ≠ id := by
    rintro c' hc' i hn hi rfl
    obtain ⟨i',hi',-,-,hu⟩ := h.live c' hc'
    rw [hi] at hi'
    cases hi'
    rw [huse,Option.some.injEq,Use.opened.injEq] at hu
    exact hn hu.symm
  refine ⟨?_,fun c' hc' => ?_,fun c' hc' => ?_,fun i => ?_,fun c' hc' => h.init c' (hmem.mp hc').1⟩
  · rw [hconns]
    exact h.nodup.sublist (List.filter_sublist.map _)
  · rw [ha]
    exact h.lt c' (hmem.mp hc').1
  · obtain ⟨hc1,hn⟩ := hmem.mp hc'
    obtain ⟨i,hi,hlt,hs,hu⟩ := h.live c' hc1
    refine ⟨i,hi,hlt,hs,?_⟩
    rw [hlog,use_other (Ne.symm (hne c' hc1 i hn hi))]
    exact hu
  · by_cases hi : i = id
    · subst hi
      exact .inl hself
    · rw [hlog,use_other (Ne.symm hi)]
      rcases h.used i with hu | ⟨c',hc',hci,hu⟩
      · exact .inl hu
      · refine .inr ⟨c',hmem.mpr ⟨hc',fun hn => ?_⟩,hci,hu⟩
        cases h.eq_of_nr hc' hc hn
        rw [hid] at hci
        exact hi (Option.some.inj hci).symm

theorem Net.Inv.gsconTerm (h : net.Inv) (hc : c ∈ net.conns) : (net.gsconTerm c).Inv := by
  obtain ⟨id,hid,-,hs,-⟩ := h.live c hc
  refine h.remove (p := .disconnReq) hc hid rfl ?_ rfl rfl
  simp [Net.gsconTerm,hs,hid]

theorem Net.Inv.keep (h : net.Inv) {g : Conn → Conn} (hconns : net'.conns = net.conns.map g)
    (hnr : ∀ c, (g c).nr = c.nr) (hid : ∀ c, (g c).connId = c.connId)
    (hs : ∀ c, c.sccp ≠ .none → (g c).sccp ≠ .none)
    (hi : ∀ c ∈ net.conns, (g c).fsm = .init → (g c).lchan = false)
    (hlog : ∀ id, use net'.log id = use net.log id) (ha : net'.allocated = net.allocated) : net'.Inv := by
  refine ⟨?_,fun c' hc' => ?_,fun c' hc' => ?_,fun i => ?_,fun c' hc' => ?_⟩
  · rw [hconns,List.map_map]
    simpa only [Function.comp_def,hnr] using h.nodup
  · rw [hconns] at hc'
    obtain ⟨c,hc,rfl⟩ := List.mem_map.mp hc'
    rw [hnr,ha]
    exact h.lt c hc
  · rw [hconns] at hc'
    obtain ⟨c,hc,rfl⟩ := List.mem_map.mp hc'
    obtain ⟨id,hcid,hlt,hsc,hu⟩ := h.live c hc
    exact ⟨id,(hid c).trans hcid,hlt,hs c hsc,by rw [hlog,hnr]; exact hu⟩
  · rw [hlog]
    rcases h.used i with hu | ⟨c,hc,hci,hu⟩
    · exact .inl hu
    · refine .inr ⟨g c,?_,(hid c).trans hci,by rw [hnr]; exact hu⟩
      rw [hconns]
      exact List.mem_map_of_mem hc
  · rw [hconns] at hc'
    obtain ⟨c,hc,rfl⟩ := List.mem_map.mp hc'
    exact hi c hc

theorem Net.Inv.add (h : net.Inv) (hid : c.connId = some id) (hlt : id < 2^24) (hfree : use net.log id = some .closed)
    (hs : c.sccp ≠ .none) (hi : c.fsm = .init → c.lchan = false) (hnr : c.nr = net.allocated)
    (hconns : net'.conns = net.conns ++ [c]) (ha : net'.allocated = net.allocated+1)
    (hself : use net'.log id = some (.opened c.nr)) (hother : ∀ i, i ≠ id → use net'.log i = use net.log i) :
    net'.Inv := by
  have hne : ∀ c' ∈ net.conns, ∀ i, use net.log i = some (.opened c'.nr) → i ≠ id := by
    rintro c' hc' i hu rfl
    rw [hfree] at hu
    cases hu
  refine ⟨?_,fun c' hc' => ?_,fun c' hc' => ?_,fun i => ?_,fun c' hc' => ?_⟩
  · rw [hconns,List.map_append,List.nodup_append]
    refine ⟨h.nodup,List.nodup_singleton _,?_⟩
    simp only [List.mem_map,List.map_cons,List.map_nil,List.mem_singleton]
    rintro _ ⟨c',hc',rfl⟩ _ rfl
    have := h.lt c' hc'
    omega
  · rw [hconns] at hc'
    rw [ha]
    rcases List.mem_append.mp hc' with hc' | hc'
    · exact Nat.lt_succ_of_lt (h.lt c' hc')
    · cases List.mem_singleton.mp hc'
      omega
  · rw [hconns] at hc'
    rcases List.mem_append.mp hc' with hc' | hc'
    · obtain ⟨i,hci,hl,hsc,hu⟩ := h.live c' hc'
      exact ⟨i,hci,hl,hsc,by rw [hother i (hne c' hc' i hu)]; exact hu⟩
    · cases List.mem_singleton.mp hc'
      exact ⟨id,hid,hlt,hs,hself⟩
  · by_cases hii : i = id
    · subst hii
      exact .inr ⟨c,by simp [hconns],hid,hself⟩
    · rw [hother i hii]
      rcases h.used i with hu | ⟨c',hc',hci,hu⟩
      · exact .inl hu
      · exact .inr ⟨c',by simp [hconns,hc'],hci,hu⟩
  · rw [hconns] at hc'
    rcases List.mem_append.mp hc' with hc' | hc'
    · exact h.init c' hc'
    · cases List.mem_singleton.mp hc'
      exact hi

theorem Net.Inv.transient (h : net.Inv) (hconns : net'.conns = net.conns)
    (hlog : ∀ id, use net'.log id = use net.log id) (ha : net'.allocated = net.allocated+1) : net'.Inv := by
  refine ⟨by rw [hconns]; exact h.nodup,fun c hc => ?_,fun c hc => ?_,fun i => ?_,fun c hc => ?_⟩
  · rw [hconns] at hc
    rw [ha]
    exact Nat.lt_succ_of_lt (h.lt c hc)
  · rw [hconns] at hc
    obtain ⟨id,h1,h2,h3,h4⟩ := h.live c hc
    exact ⟨id,h1,h2,h3,by rw [hlog]; exact h4⟩
  · rw [hlog,hconns]
    exact h.used i
  · rw [hconns] at hc
    exact h.init c hc

theorem Net.Inv.foldl_gsconTerm {l : List Conn} (h : net.Inv) (hl : ∀ c ∈ l, c ∈ net.conns)
    (hnodup : (l.map (·.nr)).Nodup) : (l.foldl Net.gsconTerm net).Inv := by
  induction l generalizing net with
  | nil => exact h
  | cons c l ih =>
    rw [List.map_cons,List.nodup_cons] at hnodup
    refine ih (h.gsconTerm (hl c (by simp))) (fun c' hc' => ?_) hnodup.2
    have hne : c'.nr ≠ c.nr := fun hn => hnodup.1 (hn ▸ List.mem_map_of_mem hc')
    simpa [Net.gsconTerm,hne] using hl c' (by simp [hc'])

theorem Net.Inv.reset (h : net.Inv) (msc : Nat) : (net.reset msc).Inv :=
  h.foldl_gsconTerm (fun _ hc => List.mem_of_mem_filter hc) (h.nodup.sublist (List.filter_sublist.map _))

theorem use_note {u : Use} (hu : use net.log id = some u) (hp : u.next p = some u) (i : Nat) :
    use (net.note id p).log i = use net.log i := by
  by_cases hi : id = i
  · subst hi
    rw [Net.note,use_self,hu]
    exact hp
  · exact use_other hi

theorem upd_last {l : List Conn} {f : Conn → Conn} (h : ∀ c' ∈ l, c'.nr ≠ c.nr) :
    ((l ++ [c]).map fun c' => if c'.nr = c.nr then f c' else c') = l ++ [f c] := by
  rw [List.map_append,List.map_congr_left (g := fun c' => c') fun c' hc => by simp [h c' hc]]
  simp

theorem filter_of_ne {l : List Conn} {nr : Nat} (h : ∀ c ∈ l, c.nr ≠ nr) : l.filter (·.nr != nr) = l :=
  List.filter_eq_self.mpr fun c hc => by simpa using h c hc

theorem Net.Inv.fresh (h : net.Inv) : ∀ c ∈ net.conns, c.nr ≠ net.allocated :=
  fun c hc => Nat.ne_of_lt (h.lt c hc)

theorem Net.Inv.gsconTerm_fresh (h : net.Inv) (hnr : c.nr = net.allocated)
    (hconns : net'.conns = net.conns ++ [c]) (hlog : ∀ id, use net'.log id = use net.log id)
    (ha : net'.allocated = net.allocated+1) {c' : Conn} (hnr' : c'.nr = c.nr) (hs' : c'.sccp = .none) :
    (net'.gsconTerm c').Inv := by
  refine h.transient ?_ (fun id => ?_) ha
  · simp only [Net.gsconTerm,hconns,List.filter_append,hnr',hnr]
    rw [filter_of_ne h.fresh]
    simp [hnr]
  · simpa [Net.gsconTerm,hs'] using hlog id

theorem getConn_append (h : c.connId = none) :
    (net.bscSubscrConAllocate c).getConn id = net.getConn id := by
  simp [Net.getConn,Net.bscSubscrConAllocate,List.find?_append,h]

theorem completeL3_inv {msc : Option Nat} {accepted ready txOk : Bool} (h : net.Inv)
    (hs : step net (.completeL3 msc accepted ready txOk) = .ok net') : net'.Inv := by
  cases msc with
  | none =>
    cases hs
    exact h.transient rfl (fun _ => rfl) rfl
  | some msc =>
    unfold step at hs
    dsimp only at hs
    generalize hc : ({ nr := net.allocated, msc := msc, lchan := true } : Conn) = c at hs
    have hnr : c.nr = net.allocated := by rw [← hc]
    have hid : c.connId = none := by rw [← hc]
    have hsc : c.sccp = .none := by rw [← hc]
    have hterm : ∀ {net1 : Net} {c' : Conn}, net1.conns = net.conns ++ [c] → net1.log = net.log →
        net1.allocated = net.allocated+1 → c'.nr = c.nr → c'.sccp = .none → (net1.gsconTerm c').Inv :=
      fun h1 h2 h3 h4 h5 => h.gsconTerm_fresh hnr h1 (fun id => by rw [h2]) h3 h4 h5
    split at hs
    · rw [Net.openConn,hid] at hs
      simp only [Option.isSome_none,Bool.false_eq_true,if_false] at hs
      split at hs
      · cases hs
        exact hterm rfl rfl rfl rfl hsc
      · split at hs
        · cases hs
          exact hterm rfl rfl rfl rfl hsc
        · rename_i id hpick
          obtain ⟨hlt,hfree⟩ := pickFreeConnId_free hpick
          rw [getConn_append hid] at hfree
          have hclosed := h.closed hlt hfree
          split at hs
          · cases hs
            refine h.add (c := { c with connId := some id, sccp := .waitConnConf, fsm := .waitCc }) rfl hlt hclosed
              (by simp) (by simp) hnr ?_ rfl ?_ fun i hi => ?_
            · exact upd_last (hnr ▸ h.fresh)
            · show use (net.log ++ [(id,_)]) id = _
              rw [use_self,hclosed]
              rfl
            · exact use_other (Ne.symm hi)
          · cases hs
            exact hterm rfl rfl rfl rfl hsc
    · cases hs
      exact hterm rfl rfl rfl rfl hsc

theorem connectInd_inv {msc : Option Nat} {handoverRqst : Bool} (h : net.Inv) (hlt : id < 2^24)
    (hclosed : use net.log id = some .closed) : (net.handleNConnectFromMsc id msc handoverRqst).Inv := by
  have hnone : (net.note id .connInd).getConn id = none := by
    cases hg : (net.note id .connInd).getConn id with
    | none => rfl
    | some c =>
      have hu := (h.owner hlt hg).2.2.2
      rw [hclosed] at hu
      cases hu
  have hrefused : ∀ i, use ((net.log ++ [(id,Prim.connInd)]) ++ [(id,Prim.disconnReq)]) i = use net.log i := by
    intro i
    by_cases hi : id = i
    · subst hi
      rw [use_self,use_self,hclosed]
      rfl
    · rw [use_other hi,use_other hi]
  unfold Net.handleNConnectFromMsc
  dsimp only
  rw [hnone]
  simp only [Option.isSome_none,Bool.false_eq_true,if_false]
  cases msc with
  | none =>
    exact h.keep (g := fun c => c) (by simp [Net.note]) (fun _ => rfl) (fun _ => rfl) (fun _ hs => hs) h.init
      hrefused rfl
  | some msc =>
    dsimp only
    split
    · refine h.add (c := { nr := net.allocated, msc := msc, connId := some id, sccp := .connected }) rfl hlt hclosed
        (by simp) (by simp) rfl ?_ rfl ?_ fun i hi => ?_
      · exact upd_last (c := { nr := net.allocated, msc := msc, connId := some id }) h.fresh
      · show use ((net.log ++ [(id,_)]) ++ [(id,_)]) id = _
        rw [use_self,use_self,hclosed]
        rfl
      · show use ((net.log ++ [(id,_)]) ++ [(id,_)]) i = _
        rw [use_other (Ne.symm hi),use_other (Ne.symm hi)]
    · exact h.gsconTerm_fresh rfl rfl hrefused rfl rfl rfl

theorem upd_keep {nr : Nat} {f : Conn → Conn} (h : net.Inv) (hconns : net'.conns = (net.upd nr f).conns)
    (hnr : ∀ c, (f c).nr = c.nr) (hid : ∀ c, (f c).connId = c.connId)
    (hs : ∀ c, c.sccp ≠ .none → (f c).sccp ≠ .none)
    (hi : ∀ c ∈ net.conns, (f c).fsm = .init → (f c).lchan = false)
    (hlog : ∀ id, use net'.log id = use net.log id) (ha : net'.allocated = net.allocated) : net'.Inv := by
  refine h.keep hconns (fun c => ?_) (fun c => ?_) (fun c hc => ?_) (fun c hc => ?_) hlog ha
  · split
    · exact hnr c
    · rfl
  · split
    · exact hid c
    · rfl
  · split
    · exact hs c hc
    · exact hc
  · split
    · exact hi c hc
    · exact h.init c hc

theorem step_inv {i : Input} (h : net.Inv) (hg : Provider net i) (hs : step net i = .ok net') : net'.Inv := by
  cases i with
  | completeL3 msc accepted ready txOk => exact completeL3_inv h hs
  | connectInd id msc handoverRqst =>
    cases hs
    exact connectInd_inv h hg.1 hg.2
  | connectCnf id =>
    rw [step] at hs
    split at hs
    · rename_i c hc
      cases hs
      have hu := (h.owner hg hc).2.2.2
      refine upd_keep h rfl (fun _ => rfl) (fun _ => rfl) (fun _ _ => by simp) (fun c hc hf => ?_)
        (use_note hu (by simp [Use.next])) rfl
      refine h.init c hc ?_
      dsimp only at hf
      split at hf
      · cases hf
      · exact hf
    · rename_i hc
      cases hs
      have hu := h.closed hg hc
      exact h.keep (g := fun c => c) (by simp [Net.note]) (fun _ => rfl) (fun _ => rfl) (fun _ hs => hs) h.init
        (use_note hu rfl) rfl
  | dataInd id =>
    cases hs
    have hkeep : ∀ i, use (net.note id (.dataInd ((net.getConn id).map (·.nr)))).log i = use net.log i := by
      cases hc : net.getConn id with
      | none => exact use_note (h.closed hg hc) rfl
      | some c => exact use_note (h.owner hg hc).2.2.2 (by simp [Use.next])
    exact h.keep (g := fun c => c) (by simp [Net.note]) (fun _ => rfl) (fun _ => rfl) (fun _ hs => hs) h.init
      hkeep rfl
  | disconnectInd id =>
    rw [step] at hs
    split at hs
    · rename_i c hc
      cases hs
      obtain ⟨hmem,hid,-,-⟩ := h.owner hg hc
      refine h.remove (p := .disconnInd (some c.nr)) hmem hid rfl ?_ (by simp [Use.next]) rfl
      simp [Net.gsconTerm,Net.note]
    · rename_i hc
      cases hs
      have hu := h.closed hg hc
      exact h.keep (g := fun c => c) (by simp [Net.note]) (fun _ => rfl) (fun _ => rfl) (fun _ hs => hs) h.init
        (use_note hu rfl) rfl
  | reset msc =>
    cases hs
    exact h.reset msc
  | terminate nr =>
    rw [step] at hs
    split at hs
    · rename_i c hc
      cases hs
      exact h.gsconTerm (ofNr_mem hc).1
    · cases hs
      exact h
  | goOn nr lchan =>
    cases hs
    refine upd_keep h rfl (fun _ => rfl) (fun _ => rfl) (fun _ hs => hs) (fun c _ hf => ?_) (fun _ => rfl) rfl
    dsimp only at hf
    split at hf
    · cases hf
    · contradiction
  | moveToMsc nr msc accepted ready txOk =>
    rw [step] at hs
    split at hs
    · cases hs
      exact h
    · rename_i c hc
      split at hs
      · cases hs
      · rename_i hl
        split at hs
        · cases hs
          exact h
        · split at hs
          · rename_i hf
            rw [h.init c (ofNr_mem hc).1 hf] at hl
            simp at hl
          · cases hs
            exact upd_keep h rfl (fun _ => rfl) (fun _ => rfl) (fun _ hs => hs) h.init (fun _ => rfl) rfl

theorem Net.Inv.distinct (h : net.Inv) :
    net.conns.Pairwise (fun c c' => c.connId = none ∨ c.connId ≠ c'.connId) := by
  refine (List.pairwise_map.mp h.nodup).imp_of_mem fun {c c'} hc hc' hne => ?_
  obtain ⟨id,hid,-,-,hu⟩ := h.live c hc
  obtain ⟨id',hid',-,-,hu'⟩ := h.live c' hc'
  refine .inr fun heq => hne ?_
  rw [hid,hid',Option.some.injEq] at heq
  rw [heq,hu',Option.some.injEq,Use.opened.injEq] at hu
  exact hu.symm

theorem openConn_ne_assigned {ready txOk : Bool} (h : c.connId = none) :
    net.openConn c ready txOk ≠ .error .connIdAssigned := by
  rw [Net.openConn,h]
  simp only [Option.isSome_none,Bool.false_eq_true,if_false]
  split
  · simp
  · split
    · simp
    · split <;> simp

theorem Net.Inv.unassigned (h : net.Inv) (i : Input) : step net i ≠ .error .connIdAssigned := by
  cases i with
  | completeL3 msc accepted ready txOk =>
    cases msc with
    | none => simp [step]
    | some msc =>
      unfold step
      dsimp only
      split
      · exact openConn_ne_assigned rfl
      · simp
  | connectInd | dataInd | reset | goOn => simp [step]
  | connectCnf | disconnectInd | terminate =>
    rw [step]
    split <;> simp
  | moveToMsc nr msc accepted ready txOk =>
    rw [step]
    split
    · simp
    · rename_i c hc
      split
      · simp
      · rename_i hl
        split
        · simp
        · split
          -- in INIT only an incoming handover has an id, and it has no primary lchan yet
          · rename_i hf
            rw [h.init c (ofNr_mem hc).1 hf] at hl
            simp at hl
          · simp

end Steps

section Serving

variable {net net' : Net} {c : Conn} {id nr : Nat}

/-- The connection that an id is looked up to is the one that has it in use. -/
theorem Net.Inv.getConn_owner (h : net.Inv) (hid : id < 2^24) :
    (net.getConn id).map (·.nr) = Sccp.owner net.log id := by
  cases hc : net.getConn id with
  | none => simp [Sccp.owner,h.closed hid hc]
  | some c => simp [Sccp.owner,(h.owner hid hc).2.2.2]

theorem upd_nrs {f : Conn → Conn} (hf : ∀ c, (f c).nr = c.nr) :
    (net.upd nr f).conns.map (·.nr) = net.conns.map (·.nr) := by
  rw [Net.upd,List.map_map]
  refine List.map_congr_left fun c _ => ?_
  rw [Function.comp]
  split
  · exact hf c
  · rfl

theorem foldl_gsconTerm_conns {l : List Conn} :
    (l.foldl Net.gsconTerm net).conns = net.conns.filter fun c => l.all (c.nr != ·.nr) := by
  induction l generalizing net with
  | nil => simp
  | cons c l ih =>
    rw [List.foldl_cons,ih]
    simp only [Net.gsconTerm,List.filter_filter,List.all_cons]
    exact List.filter_congr fun c' _ => Bool.and_comm _ _

theorem foldl_gsconTerm_log {l : List Conn} (hl : ∀ c ∈ l, ∃ id, c.connId = some id ∧ c.sccp ≠ .none) :
    ∃ ids : List Nat, l.map (·.connId) = ids.map some ∧
      (l.foldl Net.gsconTerm net).log = net.log ++ ids.map fun id => (id,.disconnReq) := by
  induction l generalizing net with
  | nil => exact ⟨[],rfl,by simp⟩
  | cons c l ih =>
    obtain ⟨⟨id,hid,hs⟩,hl⟩ := List.forall_mem_cons.mp hl
    obtain ⟨ids,hids,hlog⟩ := @ih (net.gsconTerm c) hl
    refine ⟨id :: ids,by simp [hid,hids],?_⟩
    rw [List.foldl_cons,hlog]
    simp [Net.gsconTerm,hs,hid]

theorem Net.Inv.ends (h : net.Inv) (p : Conn → Bool) :
    net.Ends ((net.conns.filter p).foldl Net.gsconTerm net) p := by
  refine ⟨?_,foldl_gsconTerm_log fun c hc => ?_⟩
  · rw [foldl_gsconTerm_conns]
    refine List.filter_congr fun c hc => ?_
    rw [Bool.eq_iff_iff]
    simp only [List.all_eq_true,List.mem_filter,bne_iff_ne,Bool.not_eq_true']
    constructor
    · intro hall
      by_contra hp
      exact hall c ⟨hc,by simpa using hp⟩ rfl
    · rintro hp c' ⟨hc',hp'⟩ hn
      cases h.eq_of_nr hc hc' hn
      rw [hp] at hp'
      cases hp'
  · obtain ⟨id,hid,-,hs,-⟩ := h.live c (List.mem_of_mem_filter hc)
    exact ⟨id,hid,hs⟩

theorem Net.Inv.filter_nr (h : net.Inv) (hc : c ∈ net.conns) : net.conns.filter (·.nr == c.nr) = [c] := by
  have hsame : net.conns.filter (·.nr == c.nr) = net.conns.filter (· == c) := by
    refine List.filter_congr fun c' hc' => ?_
    rw [Bool.eq_iff_iff,beq_iff_eq,beq_iff_eq]
    exact ⟨h.eq_of_nr hc' hc,fun he => he ▸ rfl⟩
  rw [hsame,List.filter_beq,List.count_eq_one_of_mem (List.Nodup.of_map _ h.nodup) hc]
  rfl

theorem pickFreeConnId_append {n counter : Nat} (h : c.connId = none) :
    (net.bscSubscrConAllocate c).pickFreeConnId n counter = net.pickFreeConnId n counter := by
  induction n generalizing counter with
  | zero => rfl
  | succ n ih => rw [Net.pickFreeConnId,Net.pickFreeConnId,getConn_append h,ih]

theorem Net.Inv.gsconTerm_allocated (h : net.Inv) (hnr : c.nr = net.allocated)
    (hconns : net'.conns = net.conns ++ [c]) {c' : Conn} (hnr' : c'.nr = c.nr) (hs' : c'.sccp = .none) :
    (net'.gsconTerm c').conns = net.conns ∧ (net'.gsconTerm c').log = net'.log := by
  refine ⟨?_,by simp [Net.gsconTerm,hs']⟩
  simp only [Net.gsconTerm,hconns,List.filter_append,hnr',hnr]
  rw [filter_of_ne h.fresh]
  simp [hnr]

theorem completeL3_serves {msc : Option Nat} {accepted ready txOk : Bool} (h : net.Inv)
    (hs : step net (.completeL3 msc accepted ready txOk) = .ok net') :
    Serves net net' (.completeL3 msc accepted ready txOk) := by
  cases msc with
  | none =>
    cases hs
    exact ⟨rfl,rfl⟩
  | some msc =>
    unfold step at hs
    dsimp only at hs
    generalize hc : ({ nr := net.allocated, msc := msc, lchan := true } : Conn) = c at hs
    have hnr : c.nr = net.allocated := by rw [← hc]
    have hid : c.connId = none := by rw [← hc]
    have hsc : c.sccp = .none := by rw [← hc]
    have hterm : ∀ {net1 : Net} {c' : Conn}, net1.conns = net.conns ++ [c] → net1.log = net.log →
        c'.nr = c.nr → c'.sccp = .none →
        (net1.gsconTerm c').log = net.log ∧ (net1.gsconTerm c').conns = net.conns := by
      intro net1 c' h1 h2 h3 h4
      obtain ⟨hconns,hlog⟩ := h.gsconTerm_allocated hnr h1 h3 h4
      exact ⟨hlog.trans h2,hconns⟩
    rw [Serves]
    cases accepted with
    | false =>
      cases hs
      exact hterm rfl rfl rfl hsc
    | true =>
      simp only [if_true,Net.openConn,hid,Option.isSome_none,Bool.false_eq_true,if_false] at hs
      rw [pickFreeConnId_append hid] at hs
      cases ready with
      | false =>
        cases hs
        exact hterm rfl rfl rfl hsc
      | true =>
        simp only [Bool.not_true,Bool.false_eq_true,if_false,Net.bscSubscrConAllocate] at hs
        cases hpick : net.pickFreeConnId 0xffffff net.connIdCounter with
        | none =>
          rw [hpick] at hs
          cases hs
          rw [ite_self]
          exact hterm rfl rfl rfl hsc
        | some id =>
          rw [hpick] at hs
          cases txOk with
          | false =>
            cases hs
            exact hterm rfl rfl rfl hsc
          | true =>
            cases hs
            refine ⟨by simp [Net.upd,Net.note,hnr],(upd_nrs ?_).trans ?_⟩
            · exact fun _ => rfl
            · simp [Net.note,hnr]

theorem connectInd_serves {id : Nat} {msc : Option Nat} {handoverRqst : Bool} (h : net.Inv)
    (hg : Provider net (.connectInd id msc handoverRqst))
    (hs : step net (.connectInd id msc handoverRqst) = .ok net') :
    Serves net net' (.connectInd id msc handoverRqst) := by
  cases hs
  obtain ⟨hlt,hclosed⟩ := hg
  have hnone : (net.note id .connInd).getConn id = none := by
    cases hg : (net.note id .connInd).getConn id with
    | none => rfl
    | some c =>
      have hu := (h.owner hlt hg).2.2.2
      rw [hclosed] at hu
      cases hu
  unfold Net.handleNConnectFromMsc
  dsimp only
  rw [hnone]
  simp only [Option.isSome_none,Bool.false_eq_true,if_false]
  cases msc with
  | none => exact ⟨by simp [Net.note],rfl⟩
  | some msc =>
    dsimp only
    cases handoverRqst with
    | true =>
      simp only [if_true]
      refine ⟨by simp [Net.upd,Net.note,Net.bscSubscrConAllocate],(upd_nrs ?_).trans ?_⟩
      · exact fun _ => rfl
      · simp [Net.note,Net.bscSubscrConAllocate]
    | false =>
      have hnew : (((net.note id .connInd).bscSubscrConAllocate
          { nr := net.allocated, msc := msc, connId := some id }).note id .disconnReq).conns =
          net.conns ++ [{ nr := net.allocated, msc := msc, connId := some id }] := rfl
      obtain ⟨hconns,hlog⟩ := h.gsconTerm_allocated rfl hnew rfl rfl
      exact ⟨hlog.trans (by simp [Net.note,Net.bscSubscrConAllocate]),hconns⟩

theorem disconnectInd_serves {id : Nat} (h : net.Inv) (hg : Provider net (.disconnectInd id))
    (hs : step net (.disconnectInd id) = .ok net') : Serves net net' (.disconnectInd id) := by
  have howner := h.getConn_owner hg
  rw [step] at hs
  split at hs
  · rename_i c hc
    cases hs
    rw [hc] at howner
    obtain ⟨hmem,hid,-,hu⟩ := h.owner hg hc
    refine ⟨by simp [Net.gsconTerm,Net.note,← howner],?_⟩
    refine List.filter_congr fun c' hc' => ?_
    rw [Bool.eq_iff_iff,bne_iff_ne,bne_iff_ne,not_iff_not]
    constructor
    · intro hn
      rw [h.eq_of_nr hc' hmem hn,hid]
    · intro hid'
      obtain ⟨i,hi,-,-,hu'⟩ := h.live c' hc'
      rw [hid'] at hi
      cases hi
      rw [hu,Option.some.injEq,Use.opened.injEq] at hu'
      exact hu'.symm
  · rename_i hc
    cases hs
    rw [hc] at howner
    refine ⟨by simp [Net.note,← howner],?_⟩
    refine (List.filter_eq_self.mpr fun c hmem => ?_).symm
    have hne := List.find?_eq_none.mp hc c hmem
    rw [Nat.mod_eq_of_lt hg] at hne
    simpa using hne

theorem moveToMsc_serves {nr msc : Nat} {accepted ready txOk : Bool} (h : net.Inv)
    (hs : step net (.moveToMsc nr msc accepted ready txOk) = .ok net') :
    Serves net net' (.moveToMsc nr msc accepted ready txOk) := by
  rw [step] at hs
  split at hs
  · cases hs
    exact ⟨rfl,rfl⟩
  · rename_i c hc
    split at hs
    · cases hs
    · rename_i hl
      split at hs
      · cases hs
        exact ⟨rfl,rfl⟩
      · split at hs
        · rename_i hf
          rw [h.init c (ofNr_mem hc).1 hf] at hl
          simp at hl
        · cases hs
          exact ⟨rfl,upd_nrs fun _ => rfl⟩

theorem Net.Inv.serves {i : Input} (h : net.Inv) (hg : Provider net i) (hs : step net i = .ok net') :
    Serves net net' i := by
  cases i with
  | completeL3 msc accepted ready txOk => exact completeL3_serves h hs
  | connectInd id msc handoverRqst => exact connectInd_serves h hg hs
  | connectCnf id =>
    have howner := h.getConn_owner hg
    rw [step] at hs
    split at hs
    · rename_i c hc
      cases hs
      rw [hc] at howner
      exact ⟨by simp [Net.upd,Net.note,← howner],upd_nrs fun _ => rfl⟩
    · rename_i hc
      cases hs
      rw [hc] at howner
      exact ⟨by simp [Net.note,← howner],rfl⟩
  | dataInd id =>
    cases hs
    exact ⟨by simp [Net.note,h.getConn_owner hg],rfl⟩
  | disconnectInd id => exact disconnectInd_serves h hg hs
  | reset msc =>
    cases hs
    exact h.ends _
  | terminate nr =>
    have hends := h.ends (·.nr == nr)
    rw [step] at hs
    split at hs
    · rename_i c hc
      obtain ⟨hmem,rfl⟩ := ofNr_mem hc
      cases hs
      rwa [h.filter_nr hmem] at hends
    · rename_i hc
      cases hs
      have hnone : net.conns.filter (·.nr == nr) = [] := List.filter_eq_nil_iff.mpr (List.find?_eq_none.mp hc)
      rwa [hnone] at hends
  | goOn nr lchan =>
    cases hs
    exact ⟨rfl,upd_nrs fun _ => rfl⟩
  | moveToMsc nr msc accepted ready txOk => exact moveToMsc_serves h hs

theorem step_ok {i : Input} (h : net.Inv) (hm : i.moves = false) : ∃ net', step net i = .ok net' := by
  cases hs : step net i with
  | ok net' => exact ⟨net',rfl⟩
  | error e =>
    cases e with
    | connIdAssigned => exact absurd hs (h.unassigned i)
    | connGetBts =>
      cases i with
      | moveToMsc => cases hm
      | connectInd | dataInd | reset | goOn => cases hs
      | connectCnf | disconnectInd | terminate =>
        rw [step] at hs
        split at hs <;> cases hs
      | completeL3 msc accepted ready txOk =>
        cases msc with
        | none => cases hs
        | some msc =>
          unfold step at hs
          dsimp only at hs
          split at hs
          · rw [Net.openConn] at hs
            simp only [Option.isSome_none,Bool.false_eq_true,if_false] at hs
            split at hs
            · cases hs
            · split at hs
              · cases hs
              · split at hs <;> cases hs
          · cases hs

end Serving

/-- Ids of connections are distinct; the primitives of every id are in order, with what the provider
sends delivered to the connection that owns the id and with one disconnect for every SCCP
connection that was opened; the open ones are those of the connections that are left; no
connection that has an id opens another SCCP connection; and every input is served. -/
theorem sccp_closed_once {net : Net} (h : Reachable Provider net) :
    net.conns.Pairwise (fun c c' => c.connId = none ∨ c.connId ≠ c'.connId) ∧
    (∀ id, use net.log id = some .closed ∨ ∃ nr, use net.log id = some (.opened nr)) ∧
    (∀ id nr, use net.log id = some (.opened nr) ↔ ∃ c ∈ net.conns, c.connId = some id ∧ c.nr = nr) ∧
    ∀ i, Provider net i → step net i ≠ .error .connIdAssigned ∧
      (i.moves = false → ∃ net', step net i = .ok net') ∧
      ∀ net', step net i = .ok net' → Serves net net' i := by
  have hinv : net.Inv := by
    refine Reach.invariant (fun net h0 => ?_) (fun net i net' hi hg hs => step_inv hi hg hs) h
    subst h0
    exact ⟨List.nodup_nil,by simp,by simp,fun _ => .inl rfl,by simp⟩
  refine ⟨hinv.distinct,fun id => ?_,fun id nr => ?_,fun i hg => ⟨hinv.unassigned i,step_ok hinv,fun net' hs =>
    hinv.serves hg hs⟩⟩
  · rcases hinv.used id with hu | ⟨c,-,-,hu⟩
    · exact .inl hu
    · exact .inr ⟨c.nr,hu⟩
  · constructor
    · intro hu
      rcases hinv.used id with hu' | ⟨c,hc,hid,hu'⟩
      · rw [hu] at hu'
        cases hu'
      · rw [hu,Option.some.injEq,Use.opened.injEq] at hu'
        exact ⟨c,hc,hid,hu'.symm⟩
    · rintro ⟨c,hc,hid,rfl⟩
      obtain ⟨id',hid',-,-,hu⟩ := hinv.live c hc
      rw [hid] at hid'
      cases hid'
      exact hu

/-- Two connections that the BSC opens and one that the MSC offers: data goes to its owner, the peer
disconnects the first, the second ends by itself, and a reset would end the third. -/
theorem sccp_closed_once_run : ∃ net : Net, net.log = [(1,.connReq 0),(7,.connInd),(7,.connResp 1),
    (1,.connCnf (some 0)),(7,.dataInd (some 1)),(2,.connReq 2),(1,.disconnInd (some 0)),(2,.disconnReq),
    (2,.dataInd none)] ∧
    (∃ net', step net (.dataInd 7) = .ok net' ∧ net'.log = net.log ++ [(7,.dataInd (owner net.log 7))]) ∧
    (∃ net', step net (.terminate 1) = .ok net' ∧ net.Ends net' (·.nr == 1)) ∧
    ∃ net', step net (.reset 0) = .ok net' ∧ net.Ends net' (·.msc == 0) := by
  let inputs : List Input := [.completeL3 (some 0) true true true,.connectInd 7 (some 0) true,.connectCnf 1,
    .dataInd 7,.completeL3 (some 0) true true true,.disconnectInd 1,.terminate 2,.dataInd 2]
  obtain ⟨net,hrun,hlog⟩ : ∃ net, run step {} inputs = .ok net ∧ net.log = [(1,.connReq 0),(7,.connInd),
      (7,.connResp 1),(1,.connCnf (some 0)),(7,.dataInd (some 1)),(2,.connReq 2),(1,.disconnInd (some 0)),
      (2,.disconnReq),(2,.dataInd none)] := by
    decide +kernel
  have hg : GoodRun step Provider {} inputs := by decide +kernel
  obtain ⟨-,-,-,hserved⟩ := sccp_closed_once (Reach.of_run (.start rfl) hg hrun)
  have hdata := hserved (.dataInd 7) (show 7 < 2^24 by decide)
  have hterm := hserved (.terminate 1) trivial
  have hreset := hserved (.reset 0) trivial
  obtain ⟨net1,h1⟩ := hdata.2.1 rfl
  obtain ⟨net2,h2⟩ := hterm.2.1 rfl
  obtain ⟨net3,h3⟩ := hreset.2.1 rfl
  exact ⟨net,hlog,⟨net1,h1,(hdata.2.2 net1 h1).1⟩,⟨net2,h2,hterm.2.2 net2 h2⟩,⟨net3,h3,hreset.2.2 net3 h3⟩⟩

end OsmoBsc.Sccp
