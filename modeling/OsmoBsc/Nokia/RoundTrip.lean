import OsmoBsc.Lib.Checked
import OsmoBsc.Nokia.Config
set_option autoImplicit false

/-! For which sites the configuration is built and sent as a whole, and what comes out at the other end. -/

namespace OsmoBsc.Nokia
open Checked
open Chan (Pchan)

/-- A mobile allocation that is used is not longer than `ma_data`. -/
def Trx.MaFits (trx : Trx) : Prop := ∀ i, (trx.ts i).hopping.enabled = true → (trx.ts i).hopping.maLen ≤ 8

def Trx.Supported (trx : Trx) : Prop := ∀ i, (chanConfig (trx.ts i).pchanFromConfig).isSome = true

/-- generate_cell_chan_list() gives a list. -/
def Bts.ListMade (bts : Bts) : Prop := Fine (generateCellChanList bts)

/-- generate_cell_chan_list() accesses only what is there. -/
def Bts.ListSane (bts : Bts) : Prop :=
  generateCellChanList bts ≠ .error .outOfBounds ∧ generateCellChanList bts ≠ .error .divisionByZero

def Bts.Buildable (bts : Bts) (trx : Trx) : Prop := bts.ListMade ∧ trx.Supported

/-- The FU section of the TRX at `idx`. -/
def Bts.fuSection (bts : Bts) (trx : Trx) (idx : Nat) : Option (List (BitVec 8)) :=
  match makeFuConfig bts trx (BitVec.ofNat 8 (idx + 1)) with
  | .ok r => r.1
  | .error _ => none

def Bts.hops (bts : Bts) : Bool := bts.trxList.any Trx.hops

def Built (tm : Tm) (bts : Bts) (btsType : BitVec 8) (config : List (BitVec 8)) : Prop :=
  ∃ fus : List (List (BitVec 8)), (bts.trxList.zipIdx.map fun p => bts.fuSection p.1 p.2) = fus.map some
    ∧ config = fus.flatten ++ (makeBtsConfig tm btsType bts.trxList.length bts.hops).getD []

/-- The configuration is built inside of the buffer, with all its FU sections, or nothing is sent. -/
def SendsRight (tm : Tm) (bts : Bts) (btsType : BitVec 8) : Prop :=
  ∃ config, configOf tm bts btsType = .ok config ∧ (config = [] ∨ Built tm bts btsType config)

/-- Every TRX gets an FU section and all of them fit, or there is neither an FU section nor a BTS section. -/
structure Bts.Sendable (bts : Bts) (btsType : BitVec 8) : Prop where
  maFits : ∀ trx ∈ bts.trxList, trx.MaFits
  listSane : bts.ListSane
  whole : ((∀ trx ∈ bts.trxList, bts.Buildable trx)
      ∧ bts.trxList.length ≤ if isInsite btsType then 9 else 8)
    ∨ ((∀ trx ∈ bts.trxList, ¬ bts.Buildable trx)
      ∧ isInsite btsType = true ∧ (bts.trxList.length ≠ 1 ∨ bts.hops = true))

section Fu

variable {bts : Bts} {trx : Trx} {id : BitVec 8} {hopping : Hopping} {c c' : List (BitVec 8)} {i n j : Nat}

theorem length_setOctets (octets : List (BitVec 8)) : (setOctets c i octets).length = c.length := by
  induction octets generalizing c i with
  | nil => rfl
  | cons octet octets ih => rw [setOctets,ih,List.length_set]

theorem fine_setMa : Fine (setMa hopping i n j c) ↔ n = 0 ∨ j + n ≤ 8 := by
  induction n generalizing j c with
  | zero => exact iff_of_true (fine_ok _) (.inl rfl)
  | succ n ih =>
    rw [setMa,maOctet]
    split
    · rw [ok_bind,ih]
      omega
    · exact iff_of_false (not_fine_error _) (by omega)

theorem length_setMa (h : setMa hopping i n j c = .ok c') : c'.length = c.length := by
  induction n generalizing j c with
  | zero => cases h; rfl
  | succ n ih =>
    rw [setMa,maOctet] at h
    split at h
    · rw [ok_bind] at h
      rw [ih h,List.length_set]
    · cases h

theorem fine_setRadio {arfcn : BitVec 16} {ts : Ts} :
    Fine (setRadio arfcn i ts c) ↔ (ts.hopping.enabled = true → ts.hopping.maLen ≤ 8) := by
  rw [setRadio]
  by_cases henabled : ts.hopping.enabled = true
  · rw [if_pos henabled,fine_bind (p := True) fun _ _ => iff_true_intro (fine_pure _),fine_setMa]
    simp only [henabled,and_true,true_implies]
    omega
  · rw [if_neg henabled]
    exact iff_of_true (fine_pure _) fun h => absurd h henabled

theorem length_setRadio {arfcn : BitVec 16} {ts : Ts} (h : setRadio arfcn i ts c = .ok c') :
    c'.length = c.length := by
  rw [setRadio] at h
  split at h
  · cases hma : setMa ts.hopping i ts.hopping.maLen 0 c with
    | error e => rw [hma] at h; cases h
    | ok ma =>
      rw [hma] at h
      cases h
      rw [length_setOctets,length_setMa hma]
  · cases h
    rw [length_setOctets]

theorem fine_setRadios (is : List (Fin 8)) : Fine (setRadios trx is c)
    ↔ ∀ i ∈ is, (trx.ts i).hopping.enabled = true → (trx.ts i).hopping.maLen ≤ 8 := by
  induction is generalizing c with
  | nil => exact iff_of_true (fine_ok _) fun i hi => absurd hi List.not_mem_nil
  | cons i is ih => rw [setRadios,fine_bind fun c' _ => ih,fine_setRadio,List.forall_mem_cons]

theorem length_setRadios {is : List (Fin 8)} (h : setRadios trx is c = .ok c') : c'.length = c.length := by
  induction is generalizing c with
  | nil => cases h; rfl
  | cons i is ih =>
    rw [setRadios] at h
    cases hradio : setRadio trx.arfcn i (trx.ts i) c with
    | error e => rw [hradio] at h; cases h
    | ok c₁ =>
      rw [hradio,ok_bind] at h
      rw [ih h,length_setRadio hradio]

theorem isSome_setChanConfigs (is : List (Fin 8)) : (setChanConfigs trx is c).isSome = true
    ↔ ∀ i ∈ is, (chanConfig (trx.ts i).pchanFromConfig).isSome = true := by
  induction is generalizing c with
  | nil => exact iff_of_true rfl fun i hi => absurd hi List.not_mem_nil
  | cons i is ih =>
    rw [setChanConfigs,List.forall_mem_cons]
    cases chanConfig (trx.ts i).pchanFromConfig with
    | none => simp
    | some octet => simp [ih]

theorem length_setChanConfigs {is : List (Fin 8)} (h : setChanConfigs trx is c = some c') :
    c'.length = c.length := by
  induction is generalizing c with
  | nil => cases h; rfl
  | cons i is ih =>
    rw [setChanConfigs] at h
    split at h
    · cases h
    · rw [ih h,List.length_set]

theorem mem_tsNrs (i : Fin 8) : i ∈ tsNrs := by
  revert i
  decide

theorem forall_mem_tsNrs {p : Fin 8 → Prop} : (∀ i ∈ tsNrs, p i) ↔ ∀ i, p i :=
  forall_congr' fun i => imp_iff_right (mem_tsNrs i)

theorem length_fuConfigTemplate : fuConfigTemplate.length = 213 := by decide +kernel

theorem length_setId (offsets : List Nat) :
    (offsets.foldl (fun fuConfig i => fuConfig.set i id) c).length = c.length := by
  induction offsets generalizing c with
  | nil => rfl
  | cons i offsets ih => rw [List.foldl_cons,ih,List.length_set]

theorem fine_makeFuConfig : Fine (makeFuConfig bts trx id) ↔ trx.MaFits ∧ bts.ListSane := by
  rw [makeFuConfig,fine_bind (p := bts.ListSane) ?_,fine_setRadios,forall_mem_tsNrs]
  · rfl
  · intro c' _
    unfold Bts.ListSane
    cases generateCellChanList bts with
    | ok chanList => exact iff_of_true (fine_ok _) ⟨nofun,nofun⟩
    | error e =>
      cases e with
      | outOfBounds => exact iff_of_false (not_fine_error _) fun h => h.1 rfl
      | divisionByZero => exact iff_of_false (not_fine_error _) fun h => h.2 rfl
      | einval => exact iff_of_true (fine_ok _) ⟨nofun,nofun⟩
      | tooMany => exact iff_of_true (fine_ok _) ⟨nofun,nofun⟩
      | rangeInvalid => exact iff_of_true (fine_ok _) ⟨nofun,nofun⟩

/-- What is there where make_fu_config() gets to its end. -/
structure FuSpec (bts : Bts) (trx : Trx) (r : Option (List (BitVec 8)) × Bool) : Prop where
  hopping : r.2 = trx.hops
  isSome : r.1.isSome = true ↔ bts.Buildable trx
  length : ∀ fuSection, r.1 = some fuSection → fuSection.length = 213

theorem makeFuConfig_spec {r : Option (List (BitVec 8)) × Bool} (h : makeFuConfig bts trx id = .ok r) :
    FuSpec bts trx r := by
  rw [makeFuConfig] at h
  dsimp only at h
  generalize hset : idOffsets.foldl (fun fuConfig i => fuConfig.set i id) fuConfigTemplate = c₀ at h
  have hlen₀ : c₀.length = 213 := by rw [← hset,length_setId,length_fuConfigTemplate]
  cases hradios : setRadios trx tsNrs (setOctets c₀ 119 (arfcnOctets trx.arfcn)) with
  | error e => rw [hradios] at h; cases h
  | ok c₁ =>
    have hlen₁ : c₁.length = 213 := by rw [length_setRadios hradios,length_setOctets,hlen₀]
    rw [hradios,ok_bind] at h
    cases hlist : generateCellChanList bts with
    | error e =>
      have hmade : ¬ bts.Buildable trx := fun hb => by
        obtain ⟨chanList,hchan⟩ := hb.1
        rw [hlist] at hchan
        cases hchan
      rw [hlist] at h
      cases e <;> cases h <;>
        exact ⟨rfl,iff_of_false Bool.false_ne_true hmade,nofun⟩
    | ok chanList =>
      rw [hlist] at h
      cases h
      refine ⟨rfl,?_,fun fuSection hs => ?_⟩
      · rw [isSome_setChanConfigs,forall_mem_tsNrs]
        exact (and_iff_right ⟨chanList,hlist⟩).symm
      · rw [length_setChanConfigs hs,length_setOctets,List.length_set,hlen₁]

end Fu

section Sections

variable {tm : Tm} {bts : Bts} {trx : Trx} {trxs : List Trx} {btsType : BitVec 8} {config : List (BitVec 8)}
  {idx : Nat} {needHopping : Bool}

theorem fuSection_spec (hma : trx.MaFits) (hsane : bts.ListSane) (idx : Nat) :
    ∃ r, makeFuConfig bts trx (BitVec.ofNat 8 (idx + 1)) = .ok r ∧ bts.fuSection trx idx = r.1 ∧ FuSpec bts trx r := by
  obtain ⟨r,hr⟩ := fine_makeFuConfig.mpr ⟨hma,hsane⟩
  exact ⟨r,hr,by rw [Bts.fuSection,hr],makeFuConfig_spec hr⟩

theorem fine_putSection {size : Nat} : Fine (putSection config size) ↔ config.length + size ≤ 2048 := by
  unfold putSection
  split <;> simp_all

/-- One more turn of the loop: the section fits, and it is put behind the others. -/
theorem fuSections_cons (hma : trx.MaFits) (hsane : bts.ListSane) (hfit : config.length + 213 ≤ 2048) :
    fuSections bts (trx :: trxs) config idx needHopping =
      fuSections bts trxs (config ++ (bts.fuSection trx idx).getD []) (idx + 1) (needHopping || trx.hops) := by
  obtain ⟨r,hr,hsection,hspec⟩ := fuSection_spec hma hsane idx
  rw [fuSections,putSection,length_fuConfigTemplate,if_pos hfit,ok_bind,hr,ok_bind,hsection,← hspec.hopping]

theorem fine_fuSections_cons : Fine (fuSections bts (trx :: trxs) config idx needHopping)
    ↔ (trx.MaFits ∧ bts.ListSane ∧ config.length + 213 ≤ 2048)
      ∧ Fine (fuSections bts trxs (config ++ (bts.fuSection trx idx).getD []) (idx + 1) (needHopping || trx.hops)) := by
  by_cases h : trx.MaFits ∧ bts.ListSane ∧ config.length + 213 ≤ 2048
  · rw [fuSections_cons h.1 h.2.1 h.2.2]
    exact (and_iff_right h).symm
  · refine iff_of_false (fun hfine => h ?_) fun hfine => h hfine.1
    rw [fuSections,length_fuConfigTemplate] at hfine
    have hfit := fine_putSection.mp hfine.of_bind
    rw [putSection,if_pos hfit,ok_bind] at hfine
    have hmade := fine_makeFuConfig.mp hfine.of_bind
    exact ⟨hmade.1,hmade.2,hfit⟩

theorem fuSections_eq {r : List (BitVec 8) × Nat × Bool} (h : fuSections bts trxs config idx needHopping = .ok r) :
    r = (config ++ ((trxs.zipIdx idx).filterMap fun p => bts.fuSection p.1 p.2).flatten,idx + trxs.length,
      needHopping || trxs.any Trx.hops) := by
  induction trxs generalizing config idx needHopping with
  | nil =>
    cases h
    simp
  | cons trx trxs ih =>
    obtain ⟨⟨hma,hsane,hfit⟩,-⟩ := fine_fuSections_cons.mp ⟨r,h⟩
    rw [fuSections_cons hma hsane hfit] at h
    rw [ih h,List.zipIdx_cons,List.any_cons,List.length_cons,Bool.or_assoc]
    cases hsection : bts.fuSection trx idx with
    | none => simp [hsection,Nat.add_assoc,Nat.add_comm 1]
    | some fuSection => simp [hsection,Nat.add_assoc,Nat.add_comm 1]

theorem fuSections_sane (h : Fine (fuSections bts trxs config idx needHopping)) :
    ∀ trx ∈ trxs, trx.MaFits ∧ bts.ListSane := by
  induction trxs generalizing config idx needHopping with
  | nil => exact fun trx htrx => absurd htrx List.not_mem_nil
  | cons trx trxs ih =>
    obtain ⟨⟨hma,hsane,-⟩,hrest⟩ := fine_fuSections_cons.mp h
    exact List.forall_mem_cons.mpr ⟨⟨hma,hsane⟩,ih hrest⟩

theorem fine_fuSections_all (hsane : bts.ListSane) (hma : ∀ trx ∈ trxs, trx.MaFits)
    (hbuild : ∀ trx ∈ trxs, bts.Buildable trx) (hconfig : config.length ≤ 2048) :
    Fine (fuSections bts trxs config idx needHopping) ↔ config.length + 213 * trxs.length ≤ 2048 := by
  induction trxs generalizing config idx needHopping with
  | nil => exact iff_of_true (fine_ok _) hconfig
  | cons trx trxs ih =>
    rw [List.forall_mem_cons] at hma hbuild
    obtain ⟨r,-,hsection,hspec⟩ := fuSection_spec hma.1 hsane idx
    obtain ⟨fuSection,hsome⟩ := Option.isSome_iff_exists.mp (hspec.isSome.mpr hbuild.1)
    have hlen := hspec.length fuSection hsome
    have hnext : (config ++ (bts.fuSection trx idx).getD []).length = config.length + 213 := by
      rw [hsection,hsome,Option.getD_some,List.length_append,hlen]
    rw [fine_fuSections_cons,List.length_cons]
    by_cases hfit : config.length + 213 ≤ 2048
    · rw [ih hma.2 hbuild.2 (hnext ▸ hfit),hnext]
      constructor
      · rintro ⟨-,h⟩
        omega
      · exact fun h => ⟨⟨hma.1,hsane,hfit⟩,by omega⟩
    · exact iff_of_false (fun h => hfit h.1.2.2) (by omega)

theorem fine_fuSections_none (hsane : bts.ListSane) (hma : ∀ trx ∈ trxs, trx.MaFits)
    (hbuild : ∀ trx ∈ trxs, ¬ bts.Buildable trx) (hfit : config.length + 213 ≤ 2048) :
    Fine (fuSections bts trxs config idx needHopping) := by
  induction trxs generalizing config idx needHopping with
  | nil => exact fine_ok _
  | cons trx trxs ih =>
    rw [List.forall_mem_cons] at hma hbuild
    obtain ⟨r,-,hsection,hspec⟩ := fuSection_spec hma.1 hsane idx
    have hnone : bts.fuSection trx idx = none := by
      rw [hsection,← Option.not_isSome_iff_eq_none,hspec.isSome]
      exact hbuild.1
    rw [fine_fuSections_cons,hnone,Option.getD_none,List.append_nil]
    exact ⟨⟨hma.1,hsane,hfit⟩,ih hma.2 hbuild.2 hfit⟩

theorem length_flatMap_btsConfig3 (ids : List Nat) :
    (ids.flatMap fun i => btsConfig3.set 3 (BitVec.ofNat 8 (i + 1))).length = 5 * ids.length := by
  induction ids with
  | nil => rfl
  | cons i ids ih =>
    rw [List.flatMap_cons,List.length_append,ih,List.length_set,List.length_cons,
      show btsConfig3.length = 5 from rfl]
    omega

theorem length_btsSection {nTrx : Nat} : ((makeBtsConfig tm btsType nTrx needHopping).getD []).length =
    if isInsite btsType then (if nTrx = 1 ∧ needHopping = false then 35 else 0) else 94 + 6 * nTrx := by
  rw [makeBtsConfig]
  split
  · by_cases hone : nTrx = 1
    · cases needHopping with
      | true => simp [hone]
      | false =>
        rw [if_neg (not_not_intro hone),if_neg Bool.false_ne_true,if_pos ⟨hone,rfl⟩,Option.getD_some,
          length_setOctets]
        rfl
    · rw [if_pos hone,if_neg fun h => hone h.1]
      rfl
  · have hmodes : (if needHopping = true then btsConfig2.set 3 1 else btsConfig2).length = 9 := by
      cases needHopping <;> rfl
    rw [Option.getD_some,List.length_append,List.length_append,List.length_append,List.length_append,
      List.length_map,List.length_range,hmodes,length_flatMap_btsConfig3,List.length_range,length_setOctets,
      List.length_take,List.length_set,show btsConfig1.length = 14 from rfl,show btsConfig4.length = 72 from rfl]
    omega

def Bts.fuSections (bts : Bts) : List (List (BitVec 8)) :=
  bts.trxList.zipIdx.filterMap fun p => bts.fuSection p.1 p.2

def btsSection (tm : Tm) (bts : Bts) (btsType : BitVec 8) : List (BitVec 8) :=
  (makeBtsConfig tm btsType bts.trxList.length bts.hops).getD []

theorem configOf_ok_iff : configOf tm bts btsType = .ok config
    ↔ Fine (Nokia.fuSections bts bts.trxList [] 0 false)
      ∧ (bts.fuSections.flatten ++ btsSection tm bts btsType).length ≤ 2048
      ∧ bts.fuSections.flatten ++ btsSection tm bts btsType = config := by
  rw [configOf]
  cases hloop : Nokia.fuSections bts bts.trxList [] 0 false with
  | error e => exact iff_of_false nofun fun h => not_fine_error e h.1
  | ok r =>
    rw [fuSections_eq hloop,ok_bind]
    dsimp only
    rw [List.nil_append,Nat.zero_add,Bool.false_or,putSection,← List.length_append]
    change (if (bts.fuSections.flatten ++ btsSection tm bts btsType).length ≤ 2048 then _ else _) >>= _ = _ ↔ _
    split
    · rename_i hfit
      rw [ok_bind,and_iff_right (fine_ok _),and_iff_right hfit]
      exact ⟨fun h => Except.ok.inj h,congrArg Except.ok⟩
    · rename_i hfit
      exact iff_of_false nofun fun h => hfit h.2.1

theorem configOf_overrun (hfine : Fine (Nokia.fuSections bts bts.trxList [] 0 false))
    (hlen : 2048 < (bts.fuSections.flatten ++ btsSection tm bts btsType).length) :
    configOf tm bts btsType = .error .config := by
  obtain ⟨r,hloop⟩ := hfine
  rw [configOf,hloop,fuSections_eq hloop,ok_bind]
  dsimp only
  rw [List.nil_append,Nat.zero_add,Bool.false_or,putSection,← List.length_append]
  change (if (bts.fuSections.flatten ++ btsSection tm bts btsType).length ≤ 2048 then _ else _) >>= _ = _
  rw [if_neg (Nat.not_le.mpr hlen)]
  rfl

end Sections

/-- Every TRX has a section if and only if those that are there are the sections of all TRX. -/
theorem map_eq_map_some {α β : Type} {f : α → Option β} {l : List α} {bs : List β} (h : l.map f = bs.map some) :
    l.filterMap f = bs ∧ ∀ a ∈ l, (f a).isSome = true := by
  induction l generalizing bs with
  | nil =>
    cases bs with
    | nil => exact ⟨rfl,nofun⟩
    | cons b bs => cases h
  | cons a l ih =>
    cases bs with
    | nil => cases h
    | cons b bs =>
      obtain ⟨hhead,htail⟩ := List.cons.inj h
      obtain ⟨hrest,hall⟩ := ih htail
      refine ⟨by rw [List.filterMap_cons_some hhead,hrest],List.forall_mem_cons.mpr ⟨?_,hall⟩⟩
      rw [hhead]
      rfl

theorem map_some_filterMap {α β : Type} {f : α → Option β} {l : List α} (h : ∀ a ∈ l, (f a).isSome = true) :
    l.map f = (l.filterMap f).map some := by
  induction l with
  | nil => rfl
  | cons a l ih =>
    rw [List.forall_mem_cons] at h
    obtain ⟨b,hb⟩ := Option.isSome_iff_exists.mp h.1
    rw [List.map_cons,List.filterMap_cons_some hb,List.map_cons,hb,ih h.2]

section Whole

variable {tm : Tm} {bts : Bts} {btsType : BitVec 8} {config : List (BitVec 8)}

theorem forall_mem_zipIdx {p : Trx → Prop} : (∀ e ∈ bts.trxList.zipIdx, p e.1) ↔ ∀ trx ∈ bts.trxList, p trx := by
  rw [← List.forall_mem_map,List.zipIdx_map_fst]

theorem isSome_fuSection (hsane : bts.ListSane) {trx : Trx} (hma : trx.MaFits) (idx : Nat) :
    (bts.fuSection trx idx).isSome = true ↔ bts.Buildable trx := by
  obtain ⟨r,-,hsection,hspec⟩ := fuSection_spec hma hsane idx
  rw [hsection,hspec.isSome]

theorem built_iff (hsane : bts.ListSane) (hma : ∀ trx ∈ bts.trxList, trx.MaFits) :
    Built tm bts btsType config ↔ (∀ trx ∈ bts.trxList, bts.Buildable trx)
      ∧ bts.fuSections.flatten ++ btsSection tm bts btsType = config := by
  rw [← forall_mem_zipIdx] at hma ⊢
  constructor
  · rintro ⟨fus,hfus,rfl⟩
    obtain ⟨hmade,hall⟩ := map_eq_map_some hfus
    refine ⟨fun e he => (isSome_fuSection hsane (hma e he) e.2).mp (hall e he),?_⟩
    rw [Bts.fuSections,hmade]
    rfl
  · rintro ⟨hall,rfl⟩
    exact ⟨bts.fuSections,map_some_filterMap fun e he => (isSome_fuSection hsane (hma e he) e.2).mpr (hall e he),rfl⟩

theorem length_flatten_fuSections (hsane : bts.ListSane) (hma : ∀ trx ∈ bts.trxList, trx.MaFits) :
    bts.fuSections.flatten.length = 213 * bts.fuSections.length := by
  rw [← forall_mem_zipIdx] at hma
  have hlen : ∀ fu ∈ bts.fuSections, fu.length = 213 := fun fu hfu => by
    obtain ⟨e,he,hsection⟩ := List.mem_filterMap.mp hfu
    obtain ⟨r,-,hr,hspec⟩ := fuSection_spec (hma e he) hsane e.2
    exact hspec.length fu (hr ▸ hsection)
  rw [List.length_flatten,List.map_congr_left (g := fun _ => 213) hlen,List.map_const',List.sum_replicate_nat,
    Nat.mul_comm]

theorem length_fuSections (hsane : bts.ListSane) (hma : ∀ trx ∈ bts.trxList, trx.MaFits)
    (hall : ∀ trx ∈ bts.trxList, bts.Buildable trx) : bts.fuSections.length = bts.trxList.length := by
  rw [← forall_mem_zipIdx] at hma hall
  have hmap := congrArg List.length
    (map_some_filterMap fun e he => (isSome_fuSection hsane (hma e he) e.2).mpr (hall e he))
  rw [List.length_map,List.length_map,List.length_zipIdx] at hmap
  exact hmap.symm

theorem fuSections_eq_nil_iff (hsane : bts.ListSane) (hma : ∀ trx ∈ bts.trxList, trx.MaFits) :
    bts.fuSections = [] ↔ ∀ trx ∈ bts.trxList, ¬ bts.Buildable trx := by
  rw [Bts.fuSections,List.filterMap_eq_nil_iff,← forall_mem_zipIdx]
  rw [← forall_mem_zipIdx] at hma
  refine forall₂_congr fun e he => ?_
  rw [← isSome_fuSection hsane (hma e he) e.2,Option.not_isSome_iff_eq_none]

theorem btsSection_eq_nil_iff : btsSection tm bts btsType = []
    ↔ isInsite btsType = true ∧ (bts.trxList.length ≠ 1 ∨ bts.hops = true) := by
  rw [← List.length_eq_zero_iff,btsSection,length_btsSection]
  cases isInsite btsType with
  | false => simp
  | true =>
    rw [if_pos rfl]
    split
    · rename_i hone
      simp [hone]
    · rename_i hone
      simp only [true_and,true_iff]
      rw [not_and_or] at hone
      simpa using hone

/-- What does not meet the condition overruns a buffer, or is sent without one of its sections. -/
theorem SendsRight.sendable (h : SendsRight tm bts btsType) : bts.Sendable btsType := by
  obtain ⟨config,hconfig,hsent⟩ := h
  obtain ⟨hfine,hlen,rfl⟩ := configOf_ok_iff.mp hconfig
  have hall := fuSections_sane hfine
  have hsane : bts.ListSane := (hall bts.c0 List.mem_cons_self).2
  have hma : ∀ trx ∈ bts.trxList, trx.MaFits := fun trx htrx => (hall trx htrx).1
  refine ⟨hma,hsane,?_⟩
  cases hsent with
  | inl hempty =>
    obtain ⟨hfus,hbts⟩ := List.append_eq_nil_iff.mp hempty
    have hnone : bts.fuSections = [] := by
      have hflat := length_flatten_fuSections hsane hma
      rw [hfus,List.length_nil] at hflat
      exact List.eq_nil_of_length_eq_zero (by omega)
    exact .inr ⟨(fuSections_eq_nil_iff hsane hma).mp hnone,btsSection_eq_nil_iff.mp hbts⟩
  | inr hbuilt =>
    have hbuild := ((built_iff hsane hma).mp hbuilt).1
    rw [List.length_append,length_flatten_fuSections hsane hma,length_fuSections hsane hma hbuild,btsSection,
      length_btsSection] at hlen
    refine .inl ⟨hbuild,?_⟩
    cases hinsite : isInsite btsType with
    | true =>
      rw [if_pos rfl]
      omega
    | false =>
      rw [hinsite,if_neg Bool.false_ne_true] at hlen
      rw [if_neg Bool.false_ne_true]
      omega

theorem Bts.Sendable.sendsRight (h : bts.Sendable btsType) (tm : Tm) : SendsRight tm bts btsType := by
  obtain ⟨hma,hsane,⟨hbuild,hn⟩ | ⟨hnone,hrefused⟩⟩ := h
  · have hlen : (bts.fuSections.flatten ++ btsSection tm bts btsType).length ≤ 2048 := by
      rw [List.length_append,length_flatten_fuSections hsane hma,length_fuSections hsane hma hbuild,btsSection,
        length_btsSection]
      split at hn
      · rename_i hinsite
        rw [if_pos hinsite]
        split <;> omega
      · rename_i hinsite
        rw [if_neg hinsite]
        omega
    have hfine : Fine (Nokia.fuSections bts bts.trxList [] 0 false) := by
      refine (fine_fuSections_all hsane hma hbuild (Nat.zero_le _)).mpr ?_
      rw [List.length_append,length_flatten_fuSections hsane hma,length_fuSections hsane hma hbuild] at hlen
      rw [List.length_nil]
      omega
    exact ⟨_,configOf_ok_iff.mpr ⟨hfine,hlen,rfl⟩,.inr ((built_iff hsane hma).mpr ⟨hbuild,rfl⟩)⟩
  · have hfus := (fuSections_eq_nil_iff hsane hma).mpr hnone
    have hbts : btsSection tm bts btsType = [] := btsSection_eq_nil_iff.mpr hrefused
    have hempty : bts.fuSections.flatten ++ btsSection tm bts btsType = [] := by rw [hfus,hbts]; rfl
    have hfine : Fine (Nokia.fuSections bts bts.trxList [] 0 false) :=
      fine_fuSections_none hsane hma hnone (by decide)
    exact ⟨[],configOf_ok_iff.mpr ⟨hfine,by rw [hempty]; exact Nat.zero_le _,hempty⟩,.inl rfl⟩

end Whole

section Transfer

variable {abisSendmsg : OmMsg → Int} {tm : Tm} {bts : Bts} {btsType : BitVec 8} {config data : List (BitVec 8)}
  {q : NmQueue}

/-- A payload was put behind what was sent before, in segments from which it comes back. -/
structure Transferred (msgType : BitVec 8) (ref : BitVec 16) (data : List (BitVec 8)) (q q' : NmQueue)
    (msgs : List OmMsg) : Prop where
  history : q'.history = q.history ++ msgs
  sent : q.Idle → q'.sent = q.sent ++ msgs
  count : msgs.length = segmentCount data.length
  sequence : msgs.map (·.sequence.toNat) = List.range msgs.length
  placement : msgs.map (·.placement) = [.only]
    ∨ ∃ k, msgs.map (·.placement) = .first :: (List.replicate k .middle ++ [.last])
  payload : reassemble msgs = some (nokiaHdr msgType ref ++ data)

theorem transferred (h : ∀ m, 0 ≤ abisSendmsg m) (msgType : BitVec 8) (ref : BitVec 16) (q : NmQueue)
    (h0 : data ≠ []) (hcount : segmentCount data.length ≤ 256) :
    Transferred msgType ref data q (abisNmSendMultiSegments abisSendmsg msgType ref data q).1
      (segments msgType ref 0 data) := by
  have hhistory := history_sendSegments h msgType ref 0 data q
  have hpayload := @reassemble_segments msgType ref data h0 hcount
  obtain ⟨hsequence,hplacement⟩ := reassemble_shape hpayload
  refine ⟨hhistory,fun hidle => ?_,(length_segments h0).trans (if_pos rfl),hsequence,hplacement,hpayload⟩
  rw [NmQueue.history,NmQueue.history,hidle.sendSegments,hidle.1,List.map_nil,List.append_nil,
    List.append_nil] at hhistory
  exact hhistory

theorem segmentCount_configOf (h : configOf tm bts btsType = .ok config) : segmentCount config.length ≤ 256 := by
  obtain ⟨-,hlen,rfl⟩ := configOf_ok_iff.mp h
  rw [segmentCount]
  split <;> omega

end Transfer

/-- On a link that takes what is sent: the configuration of a site is built in its buffer with one FU section for each
TRX, or not sent at all, if and only if the site is sendable; what is built comes through, and so does every payload of
at most 256 segments. -/
theorem configTransfer_iff {abisSendmsg : OmMsg → Int} (haccepts : ∀ m, 0 ≤ abisSendmsg m) :
    (∀ tm bts btsType, SendsRight tm bts btsType ↔ bts.Sendable btsType)
      ∧ (∀ tm bts btsType config, configOf tm bts btsType = .ok config →
        ∀ q, ∃ r, abisNmSendConfig abisSendmsg tm bts btsType q = .ok r
          ∧ if config = [] then r = (q,0) else ∃ msgs, Transferred nokiaMsgConfData 1 config q r.1 msgs)
      ∧ ∀ msgType ref data q, data ≠ [] → segmentCount data.length ≤ 256 →
        ∃ msgs, Transferred msgType ref data q (abisNmSendMultiSegments abisSendmsg msgType ref data q).1 msgs := by
  refine ⟨fun tm bts btsType => ⟨SendsRight.sendable,fun h => h.sendsRight tm⟩,
    fun tm bts btsType config hconfig q => ?_,
    fun msgType ref data q h0 hcount => ⟨_,transferred haccepts msgType ref q h0 hcount⟩⟩
  refine ⟨abisNmSendMultiSegments abisSendmsg nokiaMsgConfData 1 config q,?_,?_⟩
  · rw [abisNmSendConfig,hconfig]
    rfl
  · split
    · rename_i hempty
      rw [hempty,abisNmSendMultiSegments,sendSegments,dif_pos List.length_nil]
    · rename_i hne
      exact ⟨_,transferred haccepts _ _ q hne (segmentCount_configOf hconfig)⟩

def metroTrx (pchan : Pchan) : Trx := { arfcn := 20, ts := fun _ => { pchanFromConfig := pchan } }

/-- A site in GSM 900 with TRX that are all alike and do not hop. -/
def metroSite (pchan : Pchan) (others : Nat) : Bts :=
  { gsmArfcn2bandRc := fun _ => some .band900
    band := .band900
    c0 := metroTrx pchan
    otherTrx := List.replicate others (metroTrx pchan) }

/-- Where the channels of the site can be listed, each of its TRX gets an FU section. -/
theorem metroSite_buildable {others : Nat} (hlist : (generateCellChanList (metroSite .tchF others)).isOk = true) :
    (metroSite .tchF others).ListSane ∧ ∀ trx ∈ (metroSite .tchF others).trxList,
      trx.MaFits ∧ (metroSite .tchF others).Buildable trx := by
  have hmade : (metroSite .tchF others).ListMade := by
    unfold Bts.ListMade
    cases hmade : generateCellChanList (metroSite .tchF others) with
    | ok list => exact fine_ok list
    | error e => rw [hmade] at hlist; cases hlist
  obtain ⟨list,hok⟩ := hmade
  refine ⟨⟨by rw [hok]; exact nofun,by rw [hok]; exact nofun⟩,fun trx htrx => ?_⟩
  have halike : trx = metroTrx .tchF := by
    cases List.mem_cons.mp htrx with
    | inl hfirst => exact hfirst
    | inr hother => exact List.eq_of_mem_replicate hother
  subst halike
  exact ⟨fun i hi => (by cases hi),⟨list,hok⟩,fun i => rfl⟩

theorem configTransfer_metroSite :
    SendsRight ⟨111,5,2,11,32,12⟩ (metroSite .tchF 0) 0x0a
      ∧ ∃ msgs, Transferred 128 1 (List.replicate 600 7) {}
        (abisNmSendMultiSegments (fun _ => 0) 128 1 (List.replicate 600 7) {}).1 msgs := by
  have h := @configTransfer_iff (fun _ => 0) fun _ => Int.le_refl 0
  obtain ⟨hsane,htrx⟩ := @metroSite_buildable 0 (by decide +kernel)
  have hdata : List.replicate 600 (7 : BitVec 8) ≠ [] :=
    List.ne_nil_of_length_pos (by rw [List.length_replicate]; decide)
  exact ⟨(h.1 _ _ _).mpr ⟨fun trx hmem => (htrx trx hmem).1,hsane,
      .inl ⟨fun trx hmem => (htrx trx hmem).2,by decide⟩⟩,
    h.2.2 128 1 _ {} hdata (by rw [List.length_replicate]; decide)⟩

/-- Nine TRX do not fit, and a site with a dynamic timeslot is configured without the section of its TRX. -/
theorem configTransfer_overrun :
    configOf ⟨111,5,2,11,32,12⟩ (metroSite .tchF 8) 0x0a = .error .config
      ∧ ¬ SendsRight ⟨111,5,2,11,32,12⟩ (metroSite .tchF 8) 0x0a
      ∧ ¬ SendsRight ⟨111,5,2,11,32,12⟩ (metroSite .tchFPdch 0) 0x0a := by
  obtain ⟨hsane,htrx⟩ := @metroSite_buildable 8 (by decide +kernel)
  have hma : ∀ trx ∈ (metroSite .tchF 8).trxList, trx.MaFits := fun trx hmem => (htrx trx hmem).1
  have hbuild : ∀ trx ∈ (metroSite .tchF 8).trxList, (metroSite .tchF 8).Buildable trx :=
    fun trx hmem => (htrx trx hmem).2
  have hcount : (metroSite .tchF 8).trxList.length = 9 := rfl
  -- the nine FU sections fit, what is left is not enough for the BTS section
  have hover : configOf ⟨111,5,2,11,32,12⟩ (metroSite .tchF 8) 0x0a = .error .config := by
    refine configOf_overrun ((fine_fuSections_all hsane hma hbuild (by decide)).mpr (by decide)) ?_
    rw [List.length_append,length_flatten_fuSections hsane hma,length_fuSections hsane hma hbuild,btsSection,
      length_btsSection,hcount]
    decide
  refine ⟨hover,fun ⟨config,hconfig,_⟩ => ?_,fun h => ?_⟩
  · rw [hover] at hconfig
    cases hconfig
  · obtain ⟨hbuild,-⟩ | ⟨-,hinsite,-⟩ := h.sendable.whole
    · have hsupported := (hbuild _ List.mem_cons_self).2 0
      cases hsupported
    · cases hinsite

end OsmoBsc.Nokia
