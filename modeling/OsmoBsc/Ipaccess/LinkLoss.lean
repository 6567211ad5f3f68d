import OsmoBsc.Ipaccess.Dependency
set_option autoImplicit false

namespace OsmoBsc.Ipaccess
open EventFsm Cascade

/-- What `bootstrap_rsl` does for a TRX is done for its RSL link, and without one no timeslot
believes that it has RSL. -/
structure Trx.RslFollows (trx : Trx) : Prop where
  eight : trx.ts.length = 8
  up : ∀ done, trx.rslLink = some done → done = ⟨true,List.range 8⟩
  down : trx.rslLink = none → ∀ ts ∈ trx.ts, ts.isRslReady = false

def Bts.RslFollows (bts : Bts) : Prop := ∀ trx ∈ bts.trx, trx.RslFollows

/-- An RSL link comes up only while the bit of its TRX is not set. -/
def FirstRsl (net : Net) : Input → Prop
  | .signLinkUpRsl b i => (net.bts b).omlLink = true → i < (net.bts b).trx.length →
    (net.bts b).flags &&& rslUp i = 0
  | _ => True

instance (net : Net) (i : Input) : Decidable (FirstRsl net i) := by
  cases i <;> unfold FirstRsl <;> infer_instance

section Trx

variable {trx : Trx} {ev : TsEvent}

theorem Trx.RslFollows.mapTs (h : trx.RslFollows) {f : Ts → Ts}
    (hf : ∀ ts, (f ts).isRslReady = ts.isRslReady) : ({ trx with ts := trx.ts.map f } : Trx).RslFollows := by
  refine ⟨by simpa using h.eight,h.up,fun hl ts hts => ?_⟩
  obtain ⟨ts',hts',rfl⟩ := List.mem_map.mp hts
  rw [hf]
  exact h.down hl ts' hts'

theorem dispatch_isRslReady (ts : Ts) (h : ev = .omlReady ∨ ev = .omlDown) :
    (ts.dispatch ev).isRslReady = ts.isRslReady := by
  rcases h with rfl | rfl
  · rw [Ts.dispatch]
    split <;> rfl
  · rfl

theorem Trx.RslFollows.moReset (h : trx.RslFollows) : trx.moReset.RslFollows := by
  obtain ⟨h1,h2,h3⟩ := h.mapTs (f := fun ts => { ts with mo := gsmAbisMoReset ts.mo }) fun _ => rfl
  exact ⟨h1,h2,h3⟩

theorem mem_modify {α : Type} {l : List α} {f : α → α} {i : Nat} {x : α} (h : x ∈ l.modify i f) :
    x ∈ l ∨ ∃ y ∈ l, x = f y := by
  obtain ⟨j,hj⟩ := List.mem_iff_getElem?.mp h
  rw [List.getElem?_modify] at hj
  obtain ⟨y,hy,rfl⟩ := Option.map_eq_some_iff.mp hj
  have hmem := List.mem_iff_getElem?.mpr ⟨j,hy⟩
  split
  · exact .inr ⟨y,hmem,rfl⟩
  · exact .inl hmem

end Trx

section Bts

variable {bts : Bts} {i : Nat}

theorem Bts.RslFollows.updTrx (h : bts.RslFollows) {f : Trx → Trx}
    (hf : ∀ trx, trx.RslFollows → (f trx).RslFollows) : (bts.updTrx i f).RslFollows := by
  intro trx htrx
  rcases mem_modify htrx with htrx | ⟨trx',htrx',rfl⟩
  · exact h trx htrx
  · exact hf trx' (h trx' htrx')

theorem Bts.RslFollows.map (h : bts.RslFollows) {f : Trx → Trx}
    (hf : ∀ trx, trx.RslFollows → (f trx).RslFollows) :
    ({ bts with trx := bts.trx.map f } : Bts).RslFollows := by
  intro trx htrx
  obtain ⟨trx',htrx',rfl⟩ := List.mem_map.mp htrx
  exact hf trx' (h trx' htrx')

theorem teiDn_oml_follows (h : bts.RslFollows) : (bts.teiDn .oml i).RslFollows := by
  have h1 := (h.updTrx (i := i) fun trx ht => ht.mapTs (f := (·.dispatch .omlDown))
    fun ts => dispatch_isRslReady ts (.inr rfl)).map fun trx ht => ht.moReset
  exact h1

/-- Where the link of a TRX is destroyed, the signal finds the link still set. -/
theorem dropRsl_follows (h : bts.RslFollows) : (bts.dropRsl i).RslFollows := by
  rw [Bts.dropRsl]
  split
  · exact h
  · split
    · exact h
    · intro trx htrx
      have hmap : (((bts.teiDn .rsl i).updTrx i ({ · with rslLink := none })).trx) =
          ((bts.trx.modify i (·.dispatch .rslDown)).map Trx.moReset).modify i ({ · with rslLink := none }) := rfl
      rw [hmap] at htrx
      obtain ⟨j,hj⟩ := List.mem_iff_getElem?.mp htrx
      simp only [List.getElem?_modify,List.getElem?_map,Option.map_eq_map,Option.map_map,
        Option.map_eq_some_iff] at hj
      obtain ⟨trx',ht,rfl⟩ := hj
      have hf := h trx' (List.mem_iff_getElem?.mpr ⟨j,ht⟩)
      by_cases hji : i = j
      · simp only [Function.comp,hji,if_true]
        refine ⟨by simpa [Trx.moReset,Trx.dispatch] using hf.eight,by simp,fun _ ts hts => ?_⟩
        simp only [Trx.moReset,Trx.dispatch,List.map_map,List.mem_map] at hts
        obtain ⟨ts',-,rfl⟩ := hts
        rfl
      · simpa [Function.comp,hji] using hf.moReset

theorem foldl_dropRsl_follows (h : bts.RslFollows) (is : List Nat) : (is.foldl Bts.dropRsl bts).RslFollows := by
  induction is generalizing bts with
  | nil => exact h
  | cons i is ih => exact ih (dropRsl_follows h)

theorem dropLinks_follows (h : bts.RslFollows) : bts.dropLinks.RslFollows := by
  have h1 : ({ (bts.teiDn .oml 0) with omlLink := false } : Bts).RslFollows := teiDn_oml_follows h
  have h2 := (foldl_dropRsl_follows h1 (List.range bts.trx.length)).map fun trx ht =>
    ht.mapTs (f := (·.dispatch .omlDown)) fun ts => dispatch_isRslReady ts (.inr rfl)
  intro trx htrx
  refine h2 trx ?_
  simpa [Bts.dropLinks,Bts.teiDn,Bts.updTrx,Bts.moReset,Trx.dispatch] using htrx

theorem bootstrapRsl_trx : (bts.bootstrapRsl i).trx = bts.trx.modify i fun trx =>
    { (trx.dispatch .rslReady) with
      rslLink := trx.rslLink.map fun _ => { systemInfos := true, rslReady := List.range trx.ts.length } } := by
  rw [Bts.bootstrapRsl]
  dsimp only
  split
  · rfl
  · split <;> rfl

/-- A link that comes up while the bit of its TRX is not set is bootstrapped. -/
theorem signLinkUpRsl_follows (h : bts.RslFollows)
    (hf : bts.omlLink = true → i < bts.trx.length → bts.flags &&& rslUp i = 0) :
    (bts.signLinkUpRsl i).RslFollows := by
  rw [Bts.signLinkUpRsl]
  split
  · rename_i hc
    simp only [Bool.and_eq_true,decide_eq_true_eq] at hc
    have hflags : ((bts.dropRsl i).updTrx i ({ · with rslLink := some {} })).flags &&& rslUp i = 0 := by
      simpa [Bts.updTrx] using hf hc.1 hc.2
    dsimp only
    rw [if_pos hflags]
    intro trx htrx
    simp only [bootstrapRsl_trx,Bts.updTrx,List.modify_modify_eq] at htrx
    rcases mem_modify htrx with htrx | ⟨trx',htrx',rfl⟩
    · exact dropRsl_follows h trx htrx
    · have h8 := (dropRsl_follows h trx' htrx').eight
      exact ⟨by simpa [Trx.dispatch] using h8,by simp [h8],by simp⟩
  · exact h

theorem setMo_follows (h : bts.RslFollows) (mo : Mo) (s : Acc.NmState) : (bts.setMo mo s).RslFollows := by
  cases mo with
  | trx i => exact h.updTrx fun trx ht => ⟨ht.1,ht.2,ht.3⟩
  | bbTransc i => exact h.updTrx fun trx ht => ⟨ht.1,ht.2,ht.3⟩
  | ts i j =>
    refine h.updTrx fun trx ht => ⟨by simpa using ht.eight,ht.up,fun hl ts hts => ?_⟩
    rcases mem_modify hts with hts | ⟨ts',hts',rfl⟩
    · exact ht.down hl ts hts
    · exact ht.down hl ts' hts'
  | _ => exact h

end Bts

def Net.RslFollows (net : Net) : Prop := ∀ b, (net.bts b).RslFollows

theorem Net.RslFollows.updBts {net : Net} {b : UInt8} {f : Bts → Bts} (h : net.RslFollows)
    (hf : (f (net.bts b)).RslFollows) : (net.updBts b f).RslFollows := by
  intro w
  by_cases hw : w = b
  · subst hw
    simpa [Net.updBts] using hf
  · simpa [Net.updBts,hw] using h w

theorem ipaccessDropOml_follows {net net' : Net} {n : Nat} {b : UInt8} (h : net.RslFollows)
    (hd : ipaccessDropOml n b net = some net') : net'.RslFollows := by
  rw [ipaccessDropOml_eq] at hd
  refine System.cascade_keeps (c := oml) (fun v s hs => ?_) (fun v s hs => ?_) h hd
  · exact Net.RslFollows.updBts (f := ({ · with omlDropLinkTimer := false })) hs (hs v)
  · exact Net.RslFollows.updBts (f := Bts.dropLinks) hs (dropLinks_follows (hs v))

theorem signLinkUpOml_follows {net net' : Net} {n : Nat} {b : UInt8} (h : net.RslFollows)
    (hd : signLinkUpOml n b net = some net') : net'.RslFollows := by
  simp only [signLinkUpOml,bind,Option.bind_eq_some_iff] at hd
  obtain ⟨net1,h1,hd⟩ := hd
  have hf := ipaccessDropOml_follows h h1
  split at hd
  · cases hd
    refine hf.updBts ?_
    split <;> exact hf b
  · cases hd
    exact hf

theorem exec_follows {net net' : Net} {i : Input} (h : net.RslFollows) (hg : FirstRsl net i)
    (hs : net.exec i = some net') : net'.RslFollows := by
  cases i with
  | signLinkUpOml b => exact signLinkUpOml_follows h hs
  | signLinkUpRsl b i =>
    cases hs
    exact h.updBts (signLinkUpRsl_follows (h b) hg)
  | dropOml b => exact ipaccessDropOml_follows h hs
  | dropRsl b i =>
    cases hs
    exact h.updBts (dropRsl_follows (h b))
  | dropOmlDeferred b =>
    cases hs
    refine h.updBts ?_
    split <;> exact h b
  | omlDropLinkTimer b =>
    rw [Net.exec] at hs
    split at hs
    · exact ipaccessDropOml_follows h hs
    · cases hs
      exact h
  | stateReport b mo s =>
    cases hs
    exact h.updBts (setMo_follows (h b) mo s)
  | tsOmlReady b i j =>
    cases hs
    refine h.updBts ((h b).updTrx fun trx ht => ⟨by simpa using ht.eight,ht.up,fun hl ts hts => ?_⟩)
    rcases mem_modify hts with hts | ⟨ts',hts',rfl⟩
    · exact ht.down hl ts hts
    · rw [dispatch_isRslReady ts' (.inl rfl)]
      exact ht.down hl ts' hts'
  | sendmsg b m =>
    cases hs
    exact h.updBts (h b)
  | nmAnswer b =>
    cases hs
    exact h.updBts (h b)

/-- While RSL links only come up for the first time since OML is up, each is bootstrapped, and
the timeslots of a TRX without one have no RSL. -/
theorem rsl_follows {net : Net} (h : Reachable FirstRsl net) (b : UInt8) :
    ∀ trx ∈ (net.bts b).trx, (∀ done, trx.rslLink = some done → done = ⟨true,List.range 8⟩) ∧
      (trx.rslLink = none → ∀ ts ∈ trx.ts, ts.isRslReady = false) := by
  have hinv : net.RslFollows := by
    refine @Reach.invariant _ _ _ _ _ _ Net.RslFollows (fun net h0 b trx ht => ?_)
      (fun net i net' hf hg hs => ?_) _ h
    · refine ⟨h0.eight b trx ht,fun done hd => ?_,fun _ => h0.ready b trx ht⟩
      rw [h0.rsl b trx ht] at hd
      cases hd
    · rw [step] at hs
      split at hs
      · split at hs
        · cases hs
        · rename_i net1 h1
          cases hs
          exact exec_follows hf hg h1
      · cases hs
        exact hf
  exact fun trx ht => ⟨(hinv b trx ht).up,(hinv b trx ht).down⟩

theorem rsl_follows_first : ∃ net : Net, (∃ trx ∈ (net.bts 0).trx, trx.rslLink.isSome = true) ∧
    ∀ trx ∈ (net.bts 0).trx, (∀ done, trx.rslLink = some done → done = ⟨true,List.range 8⟩) ∧
      (trx.rslLink = none → ∀ ts ∈ trx.ts, ts.isRslReady = false) := by
  obtain ⟨net,hrun,hup⟩ : ∃ net, run step twoBts [.signLinkUpOml 0,.signLinkUpRsl 0 1] = .ok net ∧
      ∃ trx ∈ (net.bts 0).trx, trx.rslLink.isSome = true := by
    decide +kernel
  have hg : GoodRun step FirstRsl twoBts [.signLinkUpOml 0,.signLinkUpRsl 0 1] := by
    decide +kernel
  exact ⟨net,hup,rsl_follows (Reach.of_run (.start twoBts_started) hg hrun) 0⟩

/-- An RSL link that comes up again while OML stays up is not bootstrapped. -/
theorem second_rsl_not_bootstrapped : ∃ net : Net, Reachable (fun _ _ => True) net ∧
    ∃ trx ∈ (net.bts 0).trx, trx.rslLink = some ⟨false,[]⟩ ∧ ∀ ts ∈ trx.ts, ts.isRslReady = false := by
  obtain ⟨net,hrun,h⟩ : ∃ net, run step twoBts [.signLinkUpOml 0,.signLinkUpRsl 0 1,.dropRsl 0 1,
      .signLinkUpRsl 0 1] = .ok net ∧
      ∃ trx ∈ (net.bts 0).trx, trx.rslLink = some ⟨false,[]⟩ ∧ ∀ ts ∈ trx.ts, ts.isRslReady = false := by
    decide +kernel
  exact ⟨net,Reach.of_run (.start twoBts_started) (.of_forall (fun _ _ => trivial) _ _) hrun,h⟩

section Isolation

/-- Between the two states of a BTS only timeslots of TRX `i` changed, and counters; the access
class ramp only where `i` is the first TRX. -/
structure Bts.OnlyTimeslots (i : Nat) (bts bts' : Bts) : Prop where
  links : bts'.omlLink = bts.omlLink ∧ bts'.omlDropLinkTimer = bts.omlDropLinkTimer ∧
    bts'.flags = bts.flags ∧ bts'.dependsOn = bts.dependsOn
  mo : bts'.mo = bts.mo ∧ bts'.siteMgr = bts.siteMgr ∧ bts'.nsvc = bts.nsvc ∧ bts'.nse = bts.nse ∧
    bts'.cell = bts.cell
  nm : bts'.nm = bts.nm
  acc : i ≠ 0 → bts'.acc = bts.acc
  trx : bts'.trx.map Trx.mo = bts.trx.map Trx.mo ∧
    bts'.trx.map Trx.bbTransc = bts.trx.map Trx.bbTransc ∧
    bts'.trx.map Trx.rslLink = bts.trx.map Trx.rslLink
  ts : ∀ j, j ≠ i → bts'.trx[j]?.map Trx.ts = bts.trx[j]?.map Trx.ts

def IsReset (s : Acc.NmState) : Prop := s.operational = .other 0xff ∧ s.availability = .other 2

/-- No managed object outside the timeslots of TRX `i` has reported a state, no OML message is
queued or awaits its answer, and without the first TRX no ramp is under way. -/
structure Bts.Idle (i : Nat) (bts : Bts) : Prop where
  mo : IsReset bts.mo ∧ IsReset bts.siteMgr ∧ (IsReset bts.nsvc.1 ∧ IsReset bts.nsvc.2) ∧
    IsReset bts.nse ∧ IsReset bts.cell
  nm : bts.nm.abisQueue = [] ∧ bts.nm.abisNmPend = false
  acc : i ≠ 0 → bts.acc.accRamp.stepTimer = none ∧
    ∀ acc ∈ bts.acc.accRamp.barredClasses, bts.acc.accIsPermanentlyBarred acc = true
  trx : ∀ trx ∈ bts.trx, IsReset trx.mo ∧ IsReset trx.bbTransc
  ts : ∀ j trx, bts.trx[j]? = some trx → j ≠ i → ∀ ts ∈ trx.ts, IsReset ts.mo

theorem gsmAbisMoReset_eq_self {s : Acc.NmState} : gsmAbisMoReset s = s ↔ IsReset s := by
  constructor
  · intro h
    exact ⟨by rw [← h]; rfl,by rw [← h]; rfl⟩
  · rintro ⟨ho,ha⟩
    rw [gsmAbisMoReset,← ho,← ha]

theorem clearQueue_eq_self {nm : Nm.Bts} :
    nm.clearQueue = nm ↔ nm.abisQueue = [] ∧ nm.abisNmPend = false := by
  constructor
  · intro h
    exact ⟨by rw [← h]; rfl,by rw [← h]; rfl⟩
  · rintro ⟨hq,hp⟩
    rw [Nm.Bts.clearQueue,← hq,← hp]

theorem allowOneAcc_eq_self {acc : Nat} (r : Acc.AccRamp) (h : r.barredAccs.getLsbD acc = false) :
    r.allowOneAcc acc = r := by
  rw [Acc.AccRamp.allowOneAcc]
  congr 1
  ext j hj
  by_cases hja : j = acc
  · subst hja
    simpa [← BitVec.getLsbD_eq_getElem] using h
  · by_cases hlt : j < acc
    · simp [hlt]
    · have h0 : j-acc ≠ 0 := by omega
      simp [h0]

theorem allowAccs_eq_self {bts : Acc.Bts} {accs : List Nat} (hlt : ∀ acc ∈ accs, acc < 10)
    (h : ∀ acc ∈ bts.accRamp.barredClasses, bts.accIsPermanentlyBarred acc = true) :
    accs.foldl (Acc.Bts.unlessBarred .allowOneAcc) bts = bts := by
  induction accs with
  | nil => rfl
  | cons acc accs ih =>
    have hone : bts.unlessBarred .allowOneAcc acc = bts := by
      rw [Acc.Bts.unlessBarred]
      split
      · rfl
      · rename_i hperm
        rw [allowOneAcc_eq_self]
        by_contra hbar
        exact hperm (h acc ((Acc.mem_barredClasses _).mpr ⟨hlt acc (by simp),by simpa using hbar⟩))
    rw [List.foldl_cons,hone]
    exact ih fun acc ha => hlt acc (by simp [ha])

theorem accRampAbort_eq_self {bts : Acc.Bts} : bts.accRampAbort = bts ↔
    bts.accRamp.stepTimer = none ∧
      ∀ acc ∈ bts.accRamp.barredClasses, bts.accIsPermanentlyBarred acc = true := by
  constructor
  · intro h
    have ht : bts.accRampAbort.accRamp.stepTimer = none :=
      (@Acc.accRampAbort_keeps bts).stepTimer
    rw [h] at ht
    have hb := @Acc.allowAllAccs_barredClasses
      { bts with accRamp := { bts.accRamp with stepTimer := none } }
    refine ⟨ht,List.filter_eq_self.mp ?_⟩
    exact hb.symm.trans (congrArg (fun bts : Acc.Bts => bts.accRamp.barredClasses) h)
  · rintro ⟨ht,hb⟩
    have hsame : ({ bts with accRamp := { bts.accRamp with stepTimer := none } } : Acc.Bts) = bts := by
      rw [← ht]
    rw [Acc.Bts.accRampAbort,hsame]
    exact allowAccs_eq_self (fun acc ha => List.mem_range.mp ha) hb

variable {bts : Bts} {i : Nat}

theorem map_modify {α β : Type} {l : List α} {i : Nat} {f : α → α} {g : α → β} (h : ∀ x, g (f x) = g x) :
    (l.modify i f).map g = l.map g := by
  refine List.ext_getElem? fun j => ?_
  simp only [List.getElem?_map,List.getElem?_modify,Option.map_eq_map,Option.map_map]
  refine congrArg (fun f => Option.map f l[j]?) (funext fun x => ?_)
  by_cases hij : i = j
  · simp [hij,h]
  · simp [hij]

theorem teiDn_rsl_trx : (bts.teiDn .rsl i).trx = (bts.trx.modify i (·.dispatch .rslDown)).map Trx.moReset := rfl

theorem teiDn_rsl_map {β : Type} {g : Trx → β} (h : ∀ trx : Trx, g (trx.dispatch .rslDown).moReset = g trx.moReset) :
    (bts.teiDn .rsl i).trx.map g = bts.trx.map fun trx => g trx.moReset := by
  rw [teiDn_rsl_trx,List.map_map]
  exact map_modify h

theorem map_ts_reset {ts : List Ts} :
    ts.map (fun t => { t with mo := gsmAbisMoReset t.mo }) = ts ↔ ∀ t ∈ ts, IsReset t.mo := by
  have h := List.map_inj_left (l := ts) (f := fun t => { t with mo := gsmAbisMoReset t.mo }) (g := id)
  rw [List.map_id] at h
  rw [h]
  refine forall₂_congr fun t _ => ?_
  rw [← gsmAbisMoReset_eq_self]
  constructor
  · intro h
    exact congrArg Ts.mo h
  · intro h
    rw [h]
    rfl

theorem teiDn_rsl_ts {j : Nat} (hj : j ≠ i) :
    (bts.teiDn .rsl i).trx[j]?.map Trx.ts = bts.trx[j]?.map fun trx => trx.moReset.ts := by
  rw [teiDn_rsl_trx,List.getElem?_map,List.getElem?_modify_ne _ _ (Ne.symm hj),Option.map_map]
  rfl

/-- The loss of one RSL link changes no more than the timeslots of its TRX exactly if nothing was
there to be lost. -/
theorem teiDn_rsl_isolated : bts.OnlyTimeslots i (bts.teiDn .rsl i) ↔ bts.Idle i := by
  constructor
  · rintro ⟨-,hmo,hnm,hacc,htrx,hts⟩
    refine ⟨?_,clearQueue_eq_self.mp hnm,fun hi => accRampAbort_eq_self.mp (hacc hi),fun trx ht => ?_,
      fun j trx ht hj => ?_⟩
    · obtain ⟨h1,h2,h3,h4,h5⟩ := hmo
      refine ⟨gsmAbisMoReset_eq_self.mp h1,gsmAbisMoReset_eq_self.mp h2,?_,gsmAbisMoReset_eq_self.mp h4,
        gsmAbisMoReset_eq_self.mp h5⟩
      exact ⟨gsmAbisMoReset_eq_self.mp (congrArg Prod.fst h3),gsmAbisMoReset_eq_self.mp (congrArg Prod.snd h3)⟩
    · rw [teiDn_rsl_map fun _ => rfl,teiDn_rsl_map fun _ => rfl,List.map_inj_left,List.map_inj_left] at htrx
      exact ⟨gsmAbisMoReset_eq_self.mp (htrx.1 trx ht),gsmAbisMoReset_eq_self.mp (htrx.2.1 trx ht)⟩
    · have h := hts j hj
      rw [teiDn_rsl_ts hj,ht] at h
      exact map_ts_reset.mp (Option.some.inj h)
  · rintro ⟨hmo,hnm,hacc,htrx,hts⟩
    refine ⟨⟨rfl,rfl,rfl,rfl⟩,?_,clearQueue_eq_self.mpr hnm,fun hi => accRampAbort_eq_self.mpr (hacc hi),?_,
      fun j hj => ?_⟩
    · obtain ⟨h1,h2,⟨h3,h3'⟩,h4,h5⟩ := hmo
      exact ⟨gsmAbisMoReset_eq_self.mpr h1,gsmAbisMoReset_eq_self.mpr h2,
        Prod.ext (gsmAbisMoReset_eq_self.mpr h3) (gsmAbisMoReset_eq_self.mpr h3'),
        gsmAbisMoReset_eq_self.mpr h4,gsmAbisMoReset_eq_self.mpr h5⟩
    · rw [teiDn_rsl_map fun _ => rfl,teiDn_rsl_map fun _ => rfl,teiDn_rsl_map fun _ => rfl,List.map_inj_left,
        List.map_inj_left]
      exact ⟨fun trx ht => gsmAbisMoReset_eq_self.mpr (htrx trx ht).1,
        fun trx ht => gsmAbisMoReset_eq_self.mpr (htrx trx ht).2,rfl⟩
    · rw [teiDn_rsl_ts hj]
      cases ht : bts.trx[j]? with
      | none => rfl
      | some trx => exact congrArg some (map_ts_reset.mpr (hts j trx ht hj))

/-- The RSL link of the second TRX goes down while OML stays up. -/
theorem second_trx_not_isolated : ∃ net, Reachable (fun _ _ => True) net ∧ (net.bts 0).omlLink = true ∧
    (∃ trx, (net.bts 0).trx[1]? = some trx ∧ trx.rslLink.isSome = true) ∧
    ¬(net.bts 0).OnlyTimeslots 1 ((net.bts 0).teiDn .rsl 1) := by
  obtain ⟨net,hrun,homl,hrsl,hmo⟩ : ∃ net, run step twoBts [.signLinkUpOml 0,
      .stateReport 0 .bts ⟨.unlocked,.enabled,.ok⟩,.signLinkUpRsl 0 1] = .ok net ∧
      (net.bts 0).omlLink = true ∧ (∃ trx, (net.bts 0).trx[1]? = some trx ∧ trx.rslLink.isSome = true) ∧
      (net.bts 0).mo = ⟨.unlocked,.enabled,.ok⟩ := by
    decide +kernel
  refine ⟨net,Reach.of_run (.start twoBts_started) (.of_forall (fun _ _ => trivial) _ _) hrun,homl,hrsl,
    fun h => ?_⟩
  have hm := h.mo.1
  rw [show ((net.bts 0).teiDn .rsl 1).mo = gsmAbisMoReset (net.bts 0).mo from rfl,hmo] at hm
  revert hm
  decide

end Isolation

end OsmoBsc.Ipaccess
