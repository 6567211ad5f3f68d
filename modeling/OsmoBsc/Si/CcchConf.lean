import OsmoBsc.Chan.TsLink
import OsmoBsc.Si.SystemInformation
set_option autoImplicit false

/-! The control channel description: from the configuration file over bootstrap_bts() to SI3. -/

namespace OsmoBsc.Si
open Chan Chan.TsLink EventFsm

inductive CcchConf where
  | nc1
  | c1
  | nc2
  | nc3
  | nc4
  deriving DecidableEq, Repr

def CcchConf.value : CcchConf → BitVec 3
  | .nc1 => 0
  | .c1 => 1
  | .nc2 => 2
  | .nc3 => 4
  | .nc4 => 6

def CcchConf.plainCcchs : CcchConf → Nat
  | .c1 => 0
  | .nc1 => 1
  | .nc2 => 2
  | .nc3 => 3
  | .nc4 => 4

structure ControlChannelDescr where
  ccchConf : CcchConf := .nc1
  bsAgBlksRes : BitVec 3 := 0
  att : BitVec 1 := 0
  mscr : BitVec 1 := 0
  bsPaMfrms : BitVec 3 := 0
  t3212 : Octet := 0
  deriving DecidableEq, Repr

def ControlChannelDescr.octets (d : ControlChannelDescr) : List Octet :=
  [d.mscr ++ d.att ++ d.bsAgBlksRes ++ d.ccchConf.value,(0 : BitVec 5) ++ d.bsPaMfrms,d.t3212]

structure StartTrx where
  arfcn : Nat := 0
  ts : Fin 8 → LinkTs := fun _ => {}
  deriving DecidableEq

/-- `struct gsm_bts_model`: what its start function returns, if it has one. -/
structure BtsModel where
  start : Option Int := none
  started : Bool := false
  deriving DecidableEq, Repr

/-- `struct gsm_bts`, with the TRXs after C0; no band is the value 0. -/
structure StartBts where
  model : Option BtsModel := none
  band : Option GsmBand := none
  c0 : StartTrx
  otherTrx : List StartTrx := []
  chanDesc : ControlChannelDescr
  cellOptionsPwrc : Bool := false
  cellSelParAcs : Bool := false
  nccPermitted : Octet := 0
  chanLoadSamplesIdx : Nat := 0
  deriving DecidableEq

/-- gsm_bts_alloc_register() for the unknown type, which has no model, with the timer T3212 of the network. -/
def gsmBtsAlloc (t3212 : Octet) : StartBts where
  c0 := { ts := Function.update (fun _ => {}) 0 { pchanFromConfig := .ccchSdcch4 } }
  chanDesc := { att := 1, bsPaMfrms := 3, bsAgBlksRes := 1, t3212 }

/-- The commands of a configuration file that these parts of a BTS depend on. -/
inductive BtsCmd where
  | type (model : BtsModel)
  | band (band : GsmBand)
  | attach (att : BitVec 1)
  | bsPaMfrms (n : Nat) (h : 2 ≤ n ∧ n ≤ 9)
  | bsAgBlksRes (n : Fin 8)
  | trx (nr : Fin 256)
  | arfcn (trx : Nat) (arfcn : Fin 1024)
  | physChanConfig (trx : Nat) (ts : Fin 8) (pchan : Pchan)

/-- What is not modelled here: gsm_arfcn2band_rc() of libosmocore as whether there is a band, and
e1_reconfig_bts() as whether it succeeds. -/
structure StartLib where
  arfcnHasBand : Nat → Bool
  e1ReconfigBts : StartBts → Bool

def StartBts.updTrx (bts : StartBts) (nr : Nat) (f : StartTrx → StartTrx) : Option StartBts :=
  match nr with
  | 0 => some { bts with c0 := f bts.c0 }
  | n+1 => if n < bts.otherTrx.length then some { bts with otherTrx := bts.otherTrx.modify n f } else none

def StartTrx.updTs (trx : StartTrx) (nr : Fin 8) (f : LinkTs → LinkTs) : StartTrx :=
  { trx with ts := Function.update trx.ts nr (f (trx.ts nr)) }

/-- gsm_set_bts_type() for the model of the type. -/
def gsmSetBtsType (bts : StartBts) (model : BtsModel) : Option StartBts :=
  match model.start with
  | none => some { bts with model := some model }
  | some ret =>
    if model.started then some { bts with model := some model }
    else if ret < 0 then none
    else some { bts with model := some { model with started := true } }

/-- A command in the node of a BTS, and `none` where it is refused. -/
def BtsCmd.exec (lib : StartLib) (bts : StartBts) : BtsCmd → Option StartBts
  | .type m => gsmSetBtsType bts m
  | .band b => some { bts with band := some b }
  | .attach a => some { bts with chanDesc := { bts.chanDesc with att := a } }
  | .bsPaMfrms n _ => some { bts with chanDesc := { bts.chanDesc with bsPaMfrms := BitVec.ofNat 3 (n - 2) } }
  | .bsAgBlksRes n => some { bts with chanDesc := { bts.chanDesc with bsAgBlksRes := BitVec.ofFin n } }
  | .trx nr =>
    if bts.otherTrx.length + 1 < nr.val then none
    else if nr.val = bts.otherTrx.length + 1 then some { bts with otherTrx := bts.otherTrx ++ [{}] }
    else some bts
  | .arfcn nr n => if lib.arfcnHasBand n then bts.updTrx nr fun trx => { trx with arfcn := n } else none
  | .physChanConfig nr i pchan => bts.updTrx nr fun trx => trx.updTs i fun ts => { ts with pchanFromConfig := pchan }

/-- A line of the configuration file: a BTS is entered, or a command is for it. -/
inductive ConfigLine where
  | bts (nr : Fin 256)
  | cmd (bts : Nat) (cmd : BtsCmd)

def ConfigLine.exec (lib : StartLib) (t3212 : Octet) (net : List StartBts) : ConfigLine → Option (List StartBts)
  | .bts nr =>
    if net.length < nr.val then none
    else if nr.val = net.length then some (net ++ [gsmBtsAlloc t3212])
    else some net
  | .cmd nr c =>
    match net[nr]? with
    | none => none
    | some b => (c.exec lib b).map (net.set nr)

/-- vty_read_config_file(), which stops at a command that fails. -/
def vtyReadConfigFile (lib : StartLib) (t3212 : Octet) : List ConfigLine → List StartBts → Option (List StartBts)
  | [],net => some net
  | line :: lines,net => (line.exec lib t3212 net).bind (vtyReadConfigFile lib t3212 lines)

inductive StartError where
  | config
  | noModel
  | modelStart (ret : Int)
  | invalid (text : String)
  | e1
  deriving DecidableEq, Repr

/-- The check of the ARFCN against the band. -/
def checkBand (band : Option GsmBand) (arfcn : Nat) : Except StartError Unit :=
  match band with
  | some .band1800 =>
    if arfcn < 512 ∨ 885 < arfcn then .error (.invalid "GSM1800 channel must be between 512-885.\n") else .ok ()
  | some .band1900 =>
    if arfcn < 512 ∨ 810 < arfcn then .error (.invalid "GSM1900 channel must be between 512-810.\n") else .ok ()
  | some .band900 =>
    if (124 < arfcn ∧ arfcn < 955) ∨ 1023 < arfcn then
      .error (.invalid "GSM900 channel must be between 0-124, 955-1023.\n")
    else .ok ()
  | some .band850 =>
    if arfcn < 128 ∨ 251 < arfcn then .error (.invalid "GSM850 channel must be between 128-251.\n") else .ok ()
  | _ => .error (.invalid "Unsupported frequency band.\n")

/-- How many timeslots of a TRX are plain CCCHs by one of their kinds. -/
def StartTrx.countCcch (kind : LinkTs → Pchan) (trx : StartTrx) : Nat :=
  [0,1,2,3,4,5,6,7].countP fun i => kind (trx.ts i) = .ccch

def setCcchConf (d : ControlChannelDescr) (n : Nat) : Except StartError ControlChannelDescr :=
  match n with
  | 0 => .ok { d with ccchConf := .c1, bsAgBlksRes := if 2 < d.bsAgBlksRes then 2 else d.bsAgBlksRes }
  | 1 => .ok { d with ccchConf := .nc1 }
  | 2 => .ok { d with ccchConf := .nc2 }
  | 3 => .ok { d with ccchConf := .nc3 }
  | 4 => .ok { d with ccchConf := .nc4 }
  | _ => .error (.invalid "Unsupported CCCH timeslot configuration\n")

def startModel (bts : StartBts) : Except StartError StartBts :=
  match bts.model with
  | none => .error .noModel
  | some model => match model.start with
    | none => .ok bts
    | some ret =>
      if model.started then .ok bts
      else if ret < 0 then .error (.modelStart ret)
      else .ok { bts with model := some { model with started := true } }

def bootstrapBts (bts : StartBts) : Except StartError StartBts := do
  let bts ← startModel bts
  checkBand bts.band bts.c0.arfcn
  let chanDesc ← setCcchConf { bts.chanDesc with mscr := 1 } (bts.c0.countCcch LinkTs.pchanIs)
  return { bts with chanDesc, cellOptionsPwrc := false, cellSelParAcs := false, nccPermitted := 0xff,
                    chanLoadSamplesIdx := 0 }

/-- One turn of the loop of bsc_network_configure(). -/
def startBts (lib : StartLib) (bts : StartBts) : Except StartError StartBts := do
  let bts ← bootstrapBts bts
  if lib.e1ReconfigBts bts then return bts else throw .e1

def startBtss (lib : StartLib) : List StartBts → Except StartError (List StartBts)
  | [] => .ok []
  | bts :: rest => do
    let bts ← startBts lib bts
    let rest ← startBtss lib rest
    return bts :: rest

def bscNetworkConfigure (lib : StartLib) (t3212 : Octet) (lines : List ConfigLine) :
    Except StartError (List StartBts) :=
  match vtyReadConfigFile lib t3212 lines [] with
  | none => .error .config
  | some net => startBtss lib net

structure LinkEvent where
  bts : Nat
  trx : Nat
  ts : Fin 8
  event : TsLinkEvent

def linkStep (net : List StartBts) (e : LinkEvent) : List StartBts :=
  net.modify e.bts fun bts => (bts.updTrx e.trx fun t => t.updTs e.ts fun s => tsFsmLink s e.event).getD bts

/-- C0 is configured with a CCCH that is combined with SDCCHs, and without a plain one. -/
def StartBts.Combined (bts : StartBts) : Prop :=
  (∃ i, (bts.c0.ts i).pchanFromConfig = .ccchSdcch4 ∨ (bts.c0.ts i).pchanFromConfig = .ccchSdcch4Cbch)
    ∧ ∀ i, (bts.c0.ts i).pchanFromConfig ≠ .ccch

instance (bts : StartBts) : Decidable bts.Combined := inferInstanceAs (Decidable (_ ∧ _))

structure Describes (bts : StartBts) (d : ControlChannelDescr) : Prop where
  combined : d.ccchConf = .c1 ↔ bts.Combined
  plain : ¬ bts.Combined → d.ccchConf.plainCcchs = bts.c0.countCcch LinkTs.pchanFromConfig
  lowered : d.bsAgBlksRes < bts.chanDesc.bsAgBlksRes → bts.Combined

/-- The paging group of page_ms(); gsm0502_calc_paging_group() is a function of libosmocore. -/
def pageGroup (calcPagingGroup : ControlChannelDescr → Nat → Nat) (bts : StartBts) (imsi : Nat) : Nat :=
  calcPagingGroup bts.chanDesc imsi

/-- SI3 as generate_si3() makes it. -/
def StartBts.si3 (bts : StartBts) (lib : SiLib) (conf : SiConfig) (siInfo : SiRoInfo) (st : SiState) : List Octet :=
  (generateSi3 lib { conf with chanDesc := bts.chanDesc.octets } siInfo st).siBuf .t3

section Startup

variable {lib : StartLib} {t3212 : Octet} {bts bts' : StartBts} {net net' : List StartBts}

def StartBts.Unset (bts : StartBts) : Prop := ∀ i, (bts.c0.ts i).pchanIs = .none

theorem gsmBtsAlloc_unset : (gsmBtsAlloc t3212).Unset := by
  intro i
  by_cases h : i = 0
  · subst h
    rfl
  · simp [gsmBtsAlloc,Function.update_of_ne h]

theorem updTrx_unset {nr : Nat} (f : StartTrx → StartTrx)
    (hf : ∀ trx i, ((f trx).ts i).pchanIs = (trx.ts i).pchanIs) (h : bts.Unset)
    (hok : bts.updTrx nr f = some bts') : bts'.Unset := by
  cases nr with
  | zero =>
    cases hok
    intro i
    exact (hf _ i).trans (h i)
  | succ n =>
    rw [StartBts.updTrx] at hok
    split at hok
    · cases hok
      exact h
    · cases hok

theorem updTs_pchanIs {ts : Fin 8} {pchan : Pchan} (trx : StartTrx) (i : Fin 8) :
    ((trx.updTs ts fun ts => { ts with pchanFromConfig := pchan }).ts i).pchanIs = (trx.ts i).pchanIs := by
  unfold StartTrx.updTs
  by_cases h : i = ts
  · subst h
    simp
  · simp [Function.update_of_ne h]

theorem btsCmd_unset {cmd : BtsCmd} (h : bts.Unset) (hok : cmd.exec lib bts = some bts') : bts'.Unset := by
  cases cmd with
  | type model =>
    simp only [BtsCmd.exec,gsmSetBtsType] at hok
    repeat' split at hok
    all_goals cases hok
    all_goals exact h
  | trx nr =>
    rw [BtsCmd.exec] at hok
    repeat' split at hok
    all_goals cases hok
    all_goals exact h
  | arfcn trx arfcn =>
    rw [BtsCmd.exec] at hok
    split at hok
    · exact updTrx_unset (fun t => { t with arfcn := arfcn.val }) (fun _ _ => rfl) h hok
    · cases hok
  | physChanConfig trx ts pchan => exact updTrx_unset _ updTs_pchanIs h hok
  | band | attach | bsPaMfrms | bsAgBlksRes =>
    cases hok
    exact h

theorem configLine_unset {line : ConfigLine} (h : ∀ bts ∈ net, bts.Unset)
    (hok : line.exec lib t3212 net = some net') : ∀ bts ∈ net', bts.Unset := by
  cases line with
  | bts nr =>
    rw [ConfigLine.exec] at hok
    split at hok
    · cases hok
    · split at hok
      · cases hok
        intro bts hbts
        rcases List.mem_append.mp hbts with hold | hnew
        · exact h bts hold
        · rw [List.mem_singleton.mp hnew]
          exact gsmBtsAlloc_unset
      · cases hok
        exact h
  | cmd nr cmd =>
    rw [ConfigLine.exec] at hok
    cases hbts : net[nr]? with
    | none =>
      rw [hbts] at hok
      cases hok
    | some old =>
      rw [hbts] at hok
      obtain ⟨new,hnew,rfl⟩ := Option.map_eq_some_iff.mp hok
      intro bts hmem
      rcases List.mem_or_eq_of_mem_set hmem with hold | rfl
      · exact h bts hold
      · exact btsCmd_unset (h old (List.mem_of_getElem? hbts)) hnew

theorem vtyReadConfigFile_unset {lines : List ConfigLine} (h : ∀ bts ∈ net, bts.Unset)
    (hok : vtyReadConfigFile lib t3212 lines net = some net') : ∀ bts ∈ net', bts.Unset := by
  induction lines generalizing net with
  | nil =>
    cases hok
    exact h
  | cons line lines ih =>
    obtain ⟨net1,hline,hrest⟩ := Option.bind_eq_some_iff.mp hok
    exact ih (configLine_unset h hline) hrest

theorem countCcch_unset (h : bts.Unset) : bts.c0.countCcch LinkTs.pchanIs = 0 := by
  rw [StartTrx.countCcch,List.countP_eq_zero]
  intro i _
  simp [h i]

theorem startModel_same (hok : startModel bts = .ok bts') : bts'.c0 = bts.c0 ∧ bts'.chanDesc = bts.chanDesc := by
  rw [startModel] at hok
  repeat' split at hok
  all_goals cases hok
  all_goals exact ⟨rfl,rfl⟩

theorem bootstrapBts_unset (h : bts.Unset) (hok : bootstrapBts bts = .ok bts') :
    bts'.chanDesc = { bts.chanDesc with
      mscr := 1, ccchConf := .c1
      bsAgBlksRes := if 2 < bts.chanDesc.bsAgBlksRes then 2 else bts.chanDesc.bsAgBlksRes } := by
  simp only [bootstrapBts,bind_eq_ok] at hok
  obtain ⟨bts1,hmodel,_,-,d,hd,hret⟩ := hok
  obtain ⟨hc0,hdesc⟩ := startModel_same hmodel
  rw [hc0,countCcch_unset h,hdesc] at hd
  cases hd
  cases hret
  rfl

theorem startBts_ok (hok : startBts lib bts = .ok bts') : bootstrapBts bts = .ok bts' := by
  simp only [startBts,bind_eq_ok] at hok
  obtain ⟨bts1,hboot,hret⟩ := hok
  split at hret
  · cases hret
    exact hboot
  · cases hret

theorem startBtss_ok (hok : startBtss lib net = .ok net') :
    ∀ (n : Nat) bts, net[n]? = some bts → ∃ bts', net'[n]? = some bts' ∧ bootstrapBts bts = .ok bts' := by
  induction net generalizing net' with
  | nil =>
    intro n bts hbts
    cases hbts
  | cons bts0 rest ih =>
    simp only [startBtss,bind_eq_ok] at hok
    obtain ⟨bts1,hstart,rest',hrest,hret⟩ := hok
    cases hret
    intro n bts hbts
    cases n with
    | zero =>
      cases hbts
      exact ⟨bts1,rfl,startBts_ok hstart⟩
    | succ n => exact ih hrest n bts hbts

theorem updTrx_chanDesc {nr : Nat} {f : StartTrx → StartTrx} :
    ((bts.updTrx nr f).getD bts).chanDesc = bts.chanDesc := by
  cases nr with
  | zero => rfl
  | succ n =>
    rw [StartBts.updTrx]
    split <;> rfl

theorem linkSteps_chanDesc (es : List LinkEvent) (net : List StartBts) (n : Nat) :
    (es.foldl linkStep net)[n]?.map StartBts.chanDesc = net[n]?.map StartBts.chanDesc := by
  induction es generalizing net with
  | nil => rfl
  | cons e es ih =>
    rw [List.foldl_cons,ih,linkStep,List.getElem?_modify]
    cases net[n]? with
    | none => rfl
    | some bts =>
      by_cases h : e.bts = n
      · simp [h,updTrx_chanDesc]
      · simp [h]

theorem describes_iff {d : ControlChannelDescr} (hd : d.ccchConf = .c1) : Describes bts d ↔ bts.Combined :=
  ⟨fun h => h.combined.mp hd,fun h => ⟨⟨fun _ => h,fun _ => hd⟩,fun hn => absurd h hn,fun _ => h⟩⟩

theorem si3_descr {si : SiLib} {conf : SiConfig} {siInfo : SiRoInfo} {st : SiState} (hlai : conf.lai.length = 5) :
    ((bts.si3 si conf siInfo st).drop 10).take 3 = bts.chanDesc.octets := by
  obtain ⟨a,b,c,d,e,hlai⟩ : ∃ a b c d e, conf.lai = [a,b,c,d,e] := by
    match conf.lai,hlai with
    | [a,b,c,d,e],_ => exact ⟨a,b,c,d,e,rfl⟩
  simp [StartBts.si3,generateSi3,SiState.setBuf,hlai,macblock,siHeader,SiConfig.cellIdentityOctets,
    ControlChannelDescr.octets]

end Startup

/-- After the start-up from a configuration file, whatever the links do, SI3 and the paging groups of a BTS are made
of one description, which tells how its CCCHs are configured if and only if C0 has a combined CCCH and no plain one. -/
theorem ccchConf_describes_iff (lib : StartLib) (t3212 : Octet) (lines : List ConfigLine) {net net' : List StartBts}
    (hconf : vtyReadConfigFile lib t3212 lines [] = some net)
    (hstart : bscNetworkConfigure lib t3212 lines = .ok net') (es : List LinkEvent) {n : Nat} {bts : StartBts}
    (hbts : net[n]? = some bts) :
    ∃ bts' d, (es.foldl linkStep net')[n]? = some bts'
      ∧ (∀ (si : SiLib) (conf : SiConfig) siInfo st, conf.lai.length = 5 →
        ((bts'.si3 si conf siInfo st).drop 10).take 3 = d.octets)
      ∧ (∀ calcPagingGroup imsi, pageGroup calcPagingGroup bts' imsi = calcPagingGroup d imsi)
      ∧ (Describes bts d ↔ bts.Combined) := by
  rw [bscNetworkConfigure,hconf] at hstart
  obtain ⟨bts1,hbts1,hboot⟩ := startBtss_ok hstart n bts hbts
  have hunset := vtyReadConfigFile_unset (by simp) hconf bts (List.mem_of_getElem? hbts)
  have hdesc := linkSteps_chanDesc es net' n
  rw [hbts1] at hdesc
  obtain ⟨bts',hbts',hsame⟩ := Option.map_eq_some_iff.mp hdesc
  have hc1 : bts'.chanDesc.ccchConf = .c1 := by
    rw [hsame,bootstrapBts_unset hunset hboot]
  exact ⟨bts',bts'.chanDesc,hbts',fun _ _ _ _ hlai => si3_descr hlai,fun _ _ => rfl,describes_iff hc1⟩

def anyStart : StartLib where
  arfcnHasBand := fun _ => true
  e1ReconfigBts := fun _ => true

/-- A BTS of GSM 900 as it is by default, and then with these lines. -/
def gsm900 (lines : List ConfigLine) : List ConfigLine :=
  [.bts 0,.cmd 0 (.type {}),.cmd 0 (.band .band900),.cmd 0 (.arfcn 0 1)] ++ lines

theorem ccchConf_describes_iff_default : ∃ net net' bts bts' d,
    vtyReadConfigFile anyStart 30 (gsm900 []) [] = some net
    ∧ bscNetworkConfigure anyStart 30 (gsm900 []) = .ok net' ∧ net[0]? = some bts
    ∧ ([⟨0,0,0,.omlReady⟩].foldl linkStep net')[0]? = some bts' ∧ Describes bts d := by
  have hcombined : (gsmBtsAlloc 30).Combined := by decide
  obtain ⟨bts',d,hbts',-,-,hiff⟩ :=
    ccchConf_describes_iff anyStart 30 (gsm900 []) rfl rfl [⟨0,0,0,.omlReady⟩] (n := 0) rfl
  exact ⟨_,_,_,bts',d,rfl,rfl,rfl,hbts',hiff.mpr hcombined⟩

/-- TS 0 of C0 is configured as a plain CCCH, and a combined one is announced. -/
theorem ccchConf_plain : ∃ net net' bts bts',
    vtyReadConfigFile anyStart 30 (gsm900 [.cmd 0 (.physChanConfig 0 0 .ccch)]) [] = some net
    ∧ bscNetworkConfigure anyStart 30 (gsm900 [.cmd 0 (.physChanConfig 0 0 .ccch)]) = .ok net'
    ∧ net[0]? = some bts ∧ net'[0]? = some bts' ∧ ¬ Describes bts bts'.chanDesc := by
  refine ⟨_,_,_,_,rfl,rfl,rfl,rfl,fun h => ?_⟩
  exact (h.combined.mp rfl).2 0 rfl

end OsmoBsc.Si
