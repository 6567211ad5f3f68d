import OsmoBsc.Chan.Types
set_option autoImplicit false

/-! What the OML and RSL links do to the FSM of a timeslot. -/

namespace OsmoBsc.Chan.TsLink

/-- `struct gsm_bts_trx_ts`: the kinds it is configured for, was initialised as and is now, and its links. -/
structure LinkTs where
  pchanFromConfig : Pchan := .none
  pchanOnInit : Pchan := .none
  pchanIs : Pchan := .none
  isOmlReady : Bool := false
  isRslReady : Bool := false
  notInitialized : Bool := true
  deriving DecidableEq, Repr

inductive TsLinkEvent where
  | omlReady
  | rslReady
  | omlDown
  | rslDown
  deriving DecidableEq, Repr

def setupPchan : Pchan → Pchan
  | .tchFTchHPdch => .none
  | .tchFPdch => .tchF
  | pchan => pchan

def tsSetupLchans (ts : LinkTs) : LinkTs :=
  { ts with pchanOnInit := ts.pchanFromConfig, pchanIs := setupPchan ts.pchanFromConfig }

def tsFsmLink (ts : LinkTs) : TsLinkEvent → LinkTs
  | .omlReady =>
    if ts.notInitialized then
      { tsSetupLchans { ts with isOmlReady := true } with notInitialized := !ts.isRslReady }
    else ts
  | .rslReady => if ts.notInitialized then { ts with isRslReady := true, notInitialized := !ts.isOmlReady } else ts
  | .omlDown => { ts with isOmlReady := false, notInitialized := true, pchanIs := .none, pchanOnInit := .none }
  | .rslDown => { ts with isRslReady := false, notInitialized := true, pchanIs := .none }

/-- The kinds of a timeslot whose OML is up follow from the one that it is configured for. -/
structure LinkTs.SetUp (kind : Pchan) (ts : LinkTs) : Prop where
  config : ts.pchanFromConfig = kind
  initialized : ts.notInitialized = false → ts.isOmlReady = true
  kinds : ts.isOmlReady = true → ts.pchanOnInit = kind ∧ ts.pchanIs = setupPchan kind

theorem LinkTs.SetUp.omlReady {kind : Pchan} {ts : LinkTs} (h : ts.SetUp kind) :
    (tsFsmLink ts .omlReady).SetUp kind ∧ (tsFsmLink ts .omlReady).isOmlReady = true := by
  unfold tsFsmLink
  dsimp only
  split
  · exact ⟨⟨h.config,fun _ => rfl,fun _ => ⟨h.config,congrArg setupPchan h.config⟩⟩,rfl⟩
  · next hinit => exact ⟨h,h.initialized (Bool.eq_false_iff.mpr hinit)⟩

theorem LinkTs.SetUp.rslReady {kind : Pchan} {ts : LinkTs} (h : ts.SetUp kind) :
    (tsFsmLink ts .rslReady).SetUp kind ∧ (tsFsmLink ts .rslReady).isOmlReady = ts.isOmlReady := by
  unfold tsFsmLink
  dsimp only
  split
  · refine ⟨⟨h.config,fun hinit => ?_,h.kinds⟩,rfl⟩
    simpa using hinit
  · exact ⟨h,rfl⟩

end OsmoBsc.Chan.TsLink
