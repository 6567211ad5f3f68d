import OsmoBsc.Lib.Checked
set_option autoImplicit false

/-! Attribute responses, state change reports and failure reports as a BTS sends them, with every access to the
message checked. -/

namespace OsmoBsc.Oml
open Checked

/-- NM_OC_*. -/
inductive ObjClass where
  | siteManager
  | bts
  | radioCarrier
  | basebTransc
  | channel
  | bs11
  | bs11Rack
  | bs11Envabtse
  | gprsNse
  | gprsCell
  | gprsNsvc
  | other
  deriving DecidableEq, Repr

inductive Bs11Obj where
  | cclk
  | bbsig
  | pa
  | other
  deriving DecidableEq, Repr

/-- A managed object, with the numbers that tell it from others of its class. -/
inductive Mo where
  | siteManager
  | bts
  | radioCarrier (trx : UInt8)
  | basebTransc (trx : UInt8)
  | channel (trx ts : UInt8)
  | cclk
  | bbsig (trx : UInt8)
  | pa (trx : UInt8)
  | rack
  | envabtse (nr : UInt8)
  | gprsNse
  | gprsCell
  | gprsNsvc (nr : UInt8)
  deriving DecidableEq, Repr

structure NmState where
  operational : UInt8
  administrative : UInt8
  availability : UInt8
  deriving DecidableEq, Repr

/-- NM_ATT_*, as far as the handlers read them. -/
inductive NmAtt where
  | operState
  | availStatus
  | admState
  | eventType
  | severity
  | probCause
  | addText
  | manufId
  | manufState
  | swConfig
  | primOmlCfgList
  | unitId
  | getAri
  deriving DecidableEq, Repr

def nmAttTlvdef : NmAtt → TlvType
  | .operState | .admState | .eventType | .severity | .manufState => .tv
  | .probCause => .fixed 3
  | _ => .tlv

/-- ABIS_OM_MDISC_*. -/
inductive Mdisc where
  | fom
  | manuf
  | mmi
  | trau
  | unknown
  deriving DecidableEq, Repr

/-- ABIS_OM_PLACEMENT_*. -/
inductive Placement where
  | only
  | first
  | other
  deriving DecidableEq, Repr

/-- NM_MT_*: the messages whose handlers are modelled, and all others. -/
inductive OmlType where
  | statechgEventRep
  | failureEventRep
  | getAttrResp
  | other
  deriving DecidableEq, Repr

inductive LogLevel where
  | debug
  | notice
  | error
  deriving DecidableEq, Repr

/-- What libosmocore supplies: the numbers of the protocol, the parser of attributes, the size of a feature vector,
and the descriptions in a SW Configuration, none where it is malformed, each with whether handle_attr() knows it. -/
structure Libosmocore where
  mdisc : UInt8 → Mdisc
  placement : UInt8 → Placement
  omlType : UInt8 → OmlType
  objClass : UInt8 → ObjClass
  bs11Obj : UInt8 → Bs11Obj
  primOmlCfg : UInt8
  maxBtsFeatures : Nat
  tlv : TlvParser nmAttTlvdef
  swConf : List UInt8 → List Bool

/-- What the handlers read of a BTS, and which of their messages are logged. -/
structure OmlBts where
  nanobts : Bool
  numTrx : Nat
  nmState : Mo → NmState
  logs : LogLevel → Bool

section Handlers

variable (lib : Libosmocore) (bts : OmlBts) (msg : List UInt8)

def logpfoh (level : LogLevel) : Except Overrun Unit :=
  if bts.logs level then readAll msg [5,6,7,8] else .ok ()

/-- `gsm_objclass2mo`, with the object that the header of the message is about. -/
def gsmObjclass2mo : Except Overrun (Option Mo) := do
  match lib.objClass (← octetAt msg 5) with
  | .siteManager => return some .siteManager
  | .bts => return some .bts
  | .radioCarrier =>
    let trx ← octetAt msg 7
    return if bts.numTrx ≤ trx.toNat then none else some (.radioCarrier trx)
  | .basebTransc =>
    let trx ← octetAt msg 7
    return if bts.numTrx ≤ trx.toNat then none else some (.basebTransc trx)
  | .channel =>
    let trx ← octetAt msg 7
    if bts.numTrx ≤ trx.toNat then return none
    else
      let ts ← octetAt msg 8
      return if 8 ≤ ts.toNat then none else some (.channel trx ts)
  | .bs11 =>
    match lib.bs11Obj (← octetAt msg 6) with
    | .cclk => return some .cclk
    | .bbsig =>
      if bts.numTrx < (← octetAt msg 8).toNat then return none
      else return some (.bbsig (← octetAt msg 7))
    | .pa =>
      if bts.numTrx < (← octetAt msg 8).toNat then return none
      else return some (.pa (← octetAt msg 7))
    | .other => return none
  | .bs11Rack => return some .rack
  | .bs11Envabtse =>
    let nr ← octetAt msg 7
    return if 4 ≤ nr.toNat then none else some (.envabtse nr)
  | .gprsNse => return some .gprsNse
  | .gprsCell => return some .gprsCell
  | .gprsNsvc =>
    let nr ← octetAt msg 7
    return if 2 ≤ nr.toNat then none else some (.gprsNsvc nr)
  | .other => return none

/-- Where the attributes are, that are found in `len` octets from `off` on. -/
def attrs (off len : Nat) (tag : NmAtt) : Option Field :=
  (lib.tlv.parse ((msg.drop off).take len) tag).map fun v => ⟨off + v.off,v.len⟩

def abisNmTlvParse (off len : Nat) : Except Overrun (NmAtt → Option Field) := do
  let _ ← octetsAt msg off len
  return attrs lib msg off len

def messageAttrs : Except Overrun (NmAtt → Option Field) := do
  let length ← octetAt msg 3
  abisNmTlvParse lib msg 9 (← sub length.toNat 5)

def firstOctet (v : Option Field) : Except Overrun (Option UInt8) :=
  match v with
  | some v => some <$> octetAt msg v.off
  | none => .ok none

/-- `abis_nm_rx_statechg_rep`: the object and its state after the report. -/
def abisNmRxStatechgRep : Except Overrun (Option (Mo × NmState)) := do
  match ← gsmObjclass2mo lib bts msg with
  | none =>
    logpfoh bts msg .error
    return none
  | some mo =>
    logpfoh bts msg .debug
    let tp ← messageAttrs lib msg
    let old := bts.nmState mo
    let operational := (← firstOctet msg (tp .operState)).getD old.operational
    let availability := (← firstOctet msg ((tp .availStatus).filter fun v => v.len ≠ 0)).getD 0xff
    let administrative := (← firstOctet msg (tp .admState)).getD old.administrative
    if (administrative ≠ 0 ∧ old.administrative = 0) ∨ operational ≠ old.operational
        ∨ availability ≠ old.availability then
      return some (mo,{
        operational := operational
        availability := availability
        administrative := if old.administrative = 0 then administrative else old.administrative })
    else return some (mo,old)

structure FailEvt where
  text : Option (List UInt8)
  eventType : Option UInt8
  severity : Option UInt8
  probCause : Option (List UInt8)
  deriving DecidableEq, Repr

/-- The text is copied up to a zero octet. -/
def dupText (v : Option Field) : Except Overrun (Option (List UInt8)) :=
  match v with
  | some v => (fun s => some (s.takeWhile (· != 0))) <$> octetsAt msg v.off v.len
  | none => .ok none

/-- handle_manufact_report() and log_oml_fail_rep() read all three octets of the cause. -/
def readCause (v : Option Field) : Except Overrun (Option (List UInt8)) :=
  match v with
  | some v => some <$> octetsAt msg v.off 3
  | none => (fun _ => none) <$> logpfoh bts msg .error

def rxFailEvtRep : Except Overrun FailEvt := do
  let tp ← messageAttrs lib msg
  let text ← dupText msg (tp .addText)
  let eventType ← firstOctet msg (tp .eventType)
  let severity ← firstOctet msg (tp .severity)
  let probCause ← readCause bts msg (tp .probCause)
  return ⟨text,eventType,severity,probCause⟩

def presLen (tp : NmAtt → Option Field) (tag : NmAtt) (n : Nat) : Option Field := (tp tag).filter fun v => n ≤ v.len

def copyFrom (v : Field) (n : Nat) : Except Overrun (List UInt8) :=
  if n ≤ v.len then octetsAt msg v.off n else .error .overlong

def logUnreportedIds (off num : Nat) : Except Overrun Unit :=
  if bts.logs .error then readAll msg ((List.range num).map fun i => off + (i + 1)) else .ok ()

/-- `parse_attr_resp_info_unreported`: where the attributes after the list are, if the caller wants to know. -/
def parseAttrRespInfoUnreported (ari : Field) (outLen : Bool) : Except Overrun Field := do
  let num ← octetAt msg ari.off
  logUnreportedIds bts msg ari.off num.toNat
  let len ← (if outLen then sub ari.len (num.toNat + 1) else .ok 0)
  return ⟨ari.off + num.toNat + 1,len⟩

/-- `abis_nm_tlv_attr_primary_oml`: the address and port. -/
def abisNmTlvAttrPrimaryOml (v : Field) : Except Overrun (Option (List UInt8)) := do
  if (← octetAt msg v.off) = lib.primOmlCfg then return some (← octetsAt msg (v.off + 1) 6)
  else
    if bts.logs .error then readAll msg ((List.range v.len).map (v.off + ·))
    return none

/-- `abis_nm_tlv_attr_unit_id` with a buffer of 40 octets; osmo_strlcpy() takes the attribute for a string. -/
def abisNmTlvAttrUnitId (v : Field) : Except Overrun (List UInt8) := do
  let s ← stringAt msg v.off
  return s.take (min v.len 40 - 1)

def copyFeatures (tp : NmAtt → Option Field) : Except Overrun (Option (List UInt8)) :=
  match presLen tp .manufId 2 with
  | some v => some <$> copyFrom msg v (lib.maxBtsFeatures / 8)
  | none => .ok none

def logNominalPower (trx : Bool) (tp : NmAtt → Option Field) : Except Overrun (Option UInt8) :=
  match if trx && bts.logs .notice then presLen tp .manufState 1 else none with
  | some v => do
    logpfoh bts msg .notice
    some <$> octetAt msg v.off
  | none => .ok none

/-- The SW Configuration is taken apart by libosmocore, and logged. -/
def logSwConf (tp : NmAtt → Option Field) : Except Overrun (List Bool) :=
  match tp .swConfig with
  | some v => do
    let known := lib.swConf (← octetsAt msg v.off v.len)
    if known.isEmpty then logpfoh bts msg .error
    if known.any (!·) then logpfoh bts msg .notice
    return known
  | none => .ok []

def logPrimaryOml (tp : NmAtt → Option Field) : Except Overrun (Option (List UInt8)) :=
  match presLen tp .primOmlCfgList 7 with
  | some v => do
    let primary ← abisNmTlvAttrPrimaryOml lib bts msg v
    if primary.isSome then logpfoh bts msg .notice
    return primary
  | none => .ok none

def logUnitId (tp : NmAtt → Option Field) : Except Overrun (Option (List UInt8)) :=
  match presLen tp .unitId 1 with
  | some v => do
    let unitId ← abisNmTlvAttrUnitId msg v
    logpfoh bts msg .notice
    return some unitId
  | none => .ok none

def logUnreported (tp : NmAtt → Option Field) : Except Overrun (Option Field) :=
  match presLen tp .getAri 1 with
  | some v => some <$> parseAttrRespInfoUnreported bts msg v false
  | none => .ok none

/-- What an attribute response says. -/
structure AttrResp where
  features : Option (List UInt8)
  nominalPower : Option UInt8
  swConf : List Bool
  primaryOml : Option (List UInt8)
  unitId : Option (List UInt8)
  deriving DecidableEq, Repr

/-- `parse_attr_resp_info_attr`; `trx` says whether the TRX of the message exists. -/
def parseAttrRespInfoAttr (trx : Bool) (tp : NmAtt → Option Field) : Except Overrun AttrResp := do
  let features ← copyFeatures lib msg tp
  let nominalPower ← logNominalPower bts msg trx tp
  let swConf ← logSwConf lib bts msg tp
  let primaryOml ← logPrimaryOml lib bts msg tp
  let unitId ← logUnitId bts msg tp
  let _ ← logUnreported bts msg tp
  return ⟨features,nominalPower,swConf,primaryOml,unitId⟩

/-- `parse_attr_resp_info`: none where the response has no Response Info. -/
def parseAttrRespInfo (trx : Bool) (tp : NmAtt → Option Field) : Except Overrun (Option AttrResp) :=
  match presLen tp .getAri 1 with
  | none => do
    logpfoh bts msg .error
    return none
  | some ari => do
    let data ← parseAttrRespInfoUnreported bts msg ari true
    let tp ← abisNmTlvParse lib msg data.off data.len
    some <$> parseAttrRespInfoAttr lib bts msg trx tp

def abisNmRxGetAttrResp (trx : Bool) : Except Overrun (Option AttrResp) := do
  logpfoh bts msg .debug
  let tp ← messageAttrs lib msg
  if bts.nanobts then some <$> parseAttrRespInfoAttr lib bts msg trx tp
  else parseAttrRespInfo lib bts msg trx tp

/-- What a received message leads to. -/
inductive Received where
  | refused
  | statechg (change : Option (Mo × NmState))
  | failEvt (evt : FailEvt)
  | attrResp (resp : Option AttrResp)
  | other
  deriving DecidableEq, Repr

/-- `abis_nm_rcvmsg_fom`, as far as these handlers go. -/
def abisNmRcvmsgFom : Except Overrun Received := do
  match lib.omlType (← octetAt msg 4) with
  | .statechgEventRep => .statechg <$> abisNmRxStatechgRep lib bts msg
  | .failureEventRep => .failEvt <$> rxFailEvtRep lib bts msg
  | .getAttrResp =>
    let trxNr ← octetAt msg 7
    .attrResp <$> abisNmRxGetAttrResp lib bts msg (decide (trxNr.toNat < bts.numTrx))
  | .other => return .other

/-- `abis_nm_rcvmsg`; the check of the length is compiled out. -/
def abisNmRcvmsg : Except Overrun Received := do
  if lib.placement (← octetAt msg 1) = .other then return .refused
  else if (← octetAt msg 2) ≠ 0 then return .refused
  else match lib.mdisc (← octetAt msg 0) with
    | .fom => abisNmRcvmsgFom lib bts msg
    | .unknown => return .refused
    | .manuf | .mmi | .trau => return .other

def ListFits : Prop := 5 ≤ (octet msg 3).toNat ∧ 4 + (octet msg 3).toNat ≤ msg.length

/-- The features fill the vector, the unit id ends with a zero octet, and the unreported attributes of a nanoBTS
are there where they are logged. -/
structure AttrsFit (tp : NmAtt → Option Field) : Prop where
  features : ∀ v, presLen tp .manufId 2 = some v → lib.maxBtsFeatures / 8 ≤ v.len
  unitId : ∀ v, presLen tp .unitId 1 = some v → 0 ∈ msg.drop v.off
  unreported : ∀ v, presLen tp .getAri 1 = some v → bts.logs .error = true →
    v.off + (octet msg v.off).toNat < msg.length

def ownAttrs : NmAtt → Option Field := attrs lib msg 9 ((octet msg 3).toNat - 5)

/-- The unreported attributes and their number are no longer than the Response Info, and what follows them fits. -/
def RespInfoFits : Prop :=
  ∀ ari, presLen (ownAttrs lib msg) .getAri 1 = some ari →
    (octet msg ari.off).toNat + 1 ≤ ari.len
      ∧ AttrsFit lib bts msg (attrs lib msg (ari.off + (octet msg ari.off).toNat + 1)
        (ari.len - ((octet msg ari.off).toNat + 1)))

/-- A message whose lengths fit, as far as its handler does not refuse it before. -/
def OmlFits : Prop :=
  2 ≤ msg.length ∧ (lib.placement (octet msg 1) = .other ∨ (3 ≤ msg.length ∧ (octet msg 2 ≠ 0
    ∨ lib.mdisc (octet msg 0) ≠ .fom ∨ (5 ≤ msg.length ∧ match lib.omlType (octet msg 4) with
      | .statechgEventRep => ListFits msg
        ∨ (gsmObjclass2mo lib bts msg = .ok none ∧ (bts.logs .error = true → 9 ≤ msg.length))
      | .failureEventRep => ListFits msg
      | .getAttrResp => ListFits msg
        ∧ if bts.nanobts then AttrsFit lib bts msg (ownAttrs lib msg) else RespInfoFits lib bts msg
      | .other => True))))

end Handlers

section Fits

variable {lib : Libosmocore} {bts : OmlBts} {msg : List UInt8} {tp : NmAtt → Option Field}

def Inside (msg : List UInt8) (tp : NmAtt → Option Field) : Prop :=
  ∀ tag v, tp tag = some v → v.off + v.len ≤ msg.length ∧ v.Typed (nmAttTlvdef tag)

theorem attrs_inside {off len : Nat} (h : off + len ≤ msg.length) : Inside msg (attrs lib msg off len) := by
  intro tag v hv
  obtain ⟨w,hw,rfl⟩ := Option.map_eq_some_iff.mp hv
  have hin := lib.tlv.within _ _ _ hw
  rw [List.length_take,List.length_drop] at hin
  exact ⟨by dsimp only; omega,(lib.tlv.typed _ _ _ hw).shift off⟩

theorem presLen_some {tag : NmAtt} {n : Nat} {v : Field} (h : presLen tp tag n = some v) : tp tag = some v ∧ n ≤ v.len := by
  obtain ⟨hv,hn⟩ := Option.filter_eq_some_iff.mp h
  exact ⟨hv,of_decide_eq_true hn⟩

variable (bts) in
theorem logpfoh_fine (h : 9 ≤ msg.length) (level : LogLevel) : Fine (logpfoh bts msg level) := by
  unfold logpfoh
  split
  · rw [fine_readAll]
    intro off hoff
    simp only [List.mem_cons,List.not_mem_nil,or_false] at hoff
    omega
  · exact fine_ok ()

theorem logpfoh_fine_iff {level : LogLevel} :
    Fine (logpfoh bts msg level) ↔ (bts.logs level = true → 9 ≤ msg.length) := by
  constructor
  · intro h hlogs
    rw [logpfoh,if_pos hlogs,fine_readAll] at h
    exact h 8 (by decide)
  · intro h
    by_cases hlogs : bts.logs level = true
    · exact logpfoh_fine bts (h hlogs) level
    · rw [logpfoh,if_neg hlogs]
      exact fine_ok ()

theorem ListFits.nine (h : ListFits msg) : 9 ≤ msg.length := by
  have := h.1
  have := h.2
  omega

variable (lib) in
theorem ListFits.inside (h : ListFits msg) : Inside msg (ownAttrs lib msg) := by
  have := h.1
  have := h.2
  exact attrs_inside (by omega)

theorem fine_messageAttrs_bind {α : Type} {f : (NmAtt → Option Field) → Except Overrun α} :
    Fine (messageAttrs lib msg >>= f) ↔ ListFits msg ∧ Fine (f (ownAttrs lib msg)) := by
  unfold messageAttrs abisNmTlvParse ListFits ownAttrs
  simp only [bind_assoc,pure_bind,fine_octetAt_bind,fine_sub_bind,fine_octetsAt_bind]
  constructor
  · rintro ⟨h3,h5,hlen,hf⟩
    exact ⟨⟨h5,by omega⟩,hf⟩
  · rintro ⟨⟨h5,hlen⟩,hf⟩
    exact ⟨by omega,h5,by omega,hf⟩

theorem firstOctet_fine {v : Option Field} (h : ∀ w, v = some w → w.off + w.len ≤ msg.length ∧ 0 < w.len) :
    Fine (firstOctet msg v) := by
  cases v with
  | none => exact fine_ok none
  | some w =>
    have := h w rfl
    rw [firstOctet,fine_map,fine_octetAt]
    omega

theorem Inside.firstOctet_fine (hin : Inside msg tp) (tag : NmAtt) (htag : nmAttTlvdef tag = .tv) :
    Fine (firstOctet msg (tp tag)) := by
  refine Oml.firstOctet_fine fun w hw => ?_
  have := hin tag w hw
  rw [htag] at this
  exact ⟨this.1,Nat.lt_of_lt_of_eq Nat.zero_lt_one this.2.symm⟩

theorem gsmObjclass2mo_fine (h : 9 ≤ msg.length) : Fine (gsmObjclass2mo lib bts msg) := by
  have h5 : octetAt msg 5 = .ok (octet msg 5) := octetAt_eq (by omega)
  have h6 : octetAt msg 6 = .ok (octet msg 6) := octetAt_eq (by omega)
  have h7 : octetAt msg 7 = .ok (octet msg 7) := octetAt_eq (by omega)
  have h8 : octetAt msg 8 = .ok (octet msg 8) := octetAt_eq (by omega)
  unfold gsmObjclass2mo
  rw [h5,ok_bind]
  cases lib.objClass (octet msg 5) with
  | channel =>
    simp only [h7,h8,ok_bind]
    split <;> exact fine_pure _
  | bs11 =>
    simp only [h6,h7,h8,ok_bind]
    cases lib.bs11Obj (octet msg 6) with
    | bbsig | pa =>
      dsimp only
      split <;> exact fine_pure _
    | cclk | other => exact fine_pure _
  | radioCarrier | basebTransc | bs11Envabtse | gprsNsvc =>
    simp only [h7,ok_bind]
    exact fine_pure _
  | siteManager | bts | bs11Rack | gprsNse | gprsCell | other => exact fine_pure _

theorem statechg_fine : Fine (abisNmRxStatechgRep lib bts msg) ↔ ListFits msg
    ∨ (gsmObjclass2mo lib bts msg = .ok none ∧ (bts.logs .error = true → 9 ≤ msg.length)) := by
  unfold abisNmRxStatechgRep
  cases hmo : gsmObjclass2mo lib bts msg with
  | error e =>
    refine iff_of_false (not_fine_error e) fun hfits => ?_
    rcases hfits with hlist | ⟨hnone,-⟩
    · exact not_fine_error e (hmo ▸ gsmObjclass2mo_fine hlist.nine)
    · cases hnone
  | ok mo =>
    rw [ok_bind]
    cases mo with
    | none =>
      dsimp only
      rw [fine_bind (p := True) fun _ _ => iff_of_true (fine_pure _) trivial,and_true,logpfoh_fine_iff]
      constructor
      · exact fun hlog => .inr ⟨rfl,hlog⟩
      · rintro (hlist | ⟨-,hlog⟩) hlogs
        · exact hlist.nine
        · exact hlog hlogs
    | some mo =>
      dsimp only
      refine (fine_bind (p := ListFits msg) fun _ _ => ?_).trans ?_
      · rw [fine_messageAttrs_bind,and_iff_left_iff_imp]
        intro hlist
        have hin := hlist.inside lib
        obtain ⟨operational,hoper⟩ := hin.firstOctet_fine .operState rfl
        obtain ⟨administrative,hadm⟩ := hin.firstOctet_fine .admState rfl
        have havail : Fine (firstOctet msg ((ownAttrs lib msg .availStatus).filter fun v => v.len ≠ 0)) := by
          refine firstOctet_fine fun w hw => ?_
          obtain ⟨hw,hlen⟩ := Option.filter_eq_some_iff.mp hw
          exact ⟨(hin _ w hw).1,Nat.pos_of_ne_zero (of_decide_eq_true hlen)⟩
        obtain ⟨availability,havail⟩ := havail
        rw [hoper,ok_bind,havail,ok_bind,hadm,ok_bind]
        split <;> exact fine_pure _
      · constructor
        · exact fun h => .inl h.2
        · rintro (hlist | ⟨hnone,-⟩)
          · exact ⟨logpfoh_fine bts hlist.nine .debug,hlist⟩
          · cases hnone

theorem failEvt_fine : Fine (rxFailEvtRep lib bts msg) ↔ ListFits msg := by
  unfold rxFailEvtRep
  rw [fine_messageAttrs_bind,and_iff_left_iff_imp]
  intro hlist
  have hin := hlist.inside lib
  obtain ⟨eventType,hevent⟩ := hin.firstOctet_fine .eventType rfl
  obtain ⟨severity,hsev⟩ := hin.firstOctet_fine .severity rfl
  obtain ⟨text,htext⟩ : Fine (dupText msg (ownAttrs lib msg .addText)) := by
    cases htag : ownAttrs lib msg .addText with
    | none => exact fine_ok none
    | some v =>
      rw [dupText,fine_map,fine_octetsAt]
      exact (hin _ v htag).1
  obtain ⟨probCause,hcause⟩ : Fine (readCause bts msg (ownAttrs lib msg .probCause)) := by
    cases htag : ownAttrs lib msg .probCause with
    | none =>
      rw [readCause,fine_map]
      exact logpfoh_fine bts hlist.nine .error
    | some v =>
      obtain ⟨hv,htyped⟩ := hin _ v htag
      have hlen : v.len = 3 := htyped
      rw [readCause,fine_map,fine_octetsAt]
      omega
  rw [htext,ok_bind,hevent,ok_bind,hsev,ok_bind,hcause,ok_bind]
  exact fine_pure _

theorem forall_some {α : Type} {v : α} {p : α → Prop} : (∀ w, some v = some w → p w) ↔ p v :=
  ⟨fun h => h v rfl,fun h _ hw => Option.some.inj hw ▸ h⟩

theorem forall_none {α : Type} {p : α → Prop} (v : α) (h : none = some v) : p v := by cases h

theorem copyFeatures_fine (hin : Inside msg tp) : Fine (copyFeatures lib msg tp) ↔
    ∀ v, presLen tp .manufId 2 = some v → lib.maxBtsFeatures / 8 ≤ v.len := by
  unfold copyFeatures
  cases hv : presLen tp .manufId 2 with
  | none => exact iff_of_true (fine_ok none) forall_none
  | some v =>
    have hlen := (hin _ v (presLen_some hv).1).1
    rw [forall_some,fine_map,copyFrom]
    split
    · rename_i hn
      rw [fine_octetsAt]
      exact iff_of_true (by omega) hn
    · rename_i hn
      exact iff_of_false (not_fine_error _) hn

variable (bts) in
theorem logNominalPower_fine (h9 : 9 ≤ msg.length) (hin : Inside msg tp) (trx : Bool) :
    Fine (logNominalPower bts msg trx tp) := by
  unfold logNominalPower
  split
  · rename_i v hv
    obtain ⟨u,hu⟩ := logpfoh_fine bts h9 .notice
    have hpres : presLen tp .manufState 1 = some v := by
      split at hv
      · exact hv
      · cases hv
    obtain ⟨htag,hlen⟩ := presLen_some hpres
    have := (hin _ v htag).1
    rw [hu,ok_bind,fine_map,fine_octetAt]
    omega
  · exact fine_ok none

variable (lib bts) in
theorem logSwConf_fine (h9 : 9 ≤ msg.length) (hin : Inside msg tp) : Fine (logSwConf lib bts msg tp) := by
  unfold logSwConf
  cases hv : tp .swConfig with
  | none => exact fine_ok []
  | some v =>
    obtain ⟨u,hu⟩ := logpfoh_fine bts h9 .error
    obtain ⟨u',hu'⟩ := logpfoh_fine bts h9 .notice
    dsimp only
    rw [octetsAt_eq (hin _ v hv).1,ok_bind,hu,hu']
    split <;> split <;> exact fine_ok _

variable (lib bts) in
theorem primaryOml_fine {v : Field} (hlen : v.off + v.len ≤ msg.length) (h7 : 7 ≤ v.len) :
    Fine (abisNmTlvAttrPrimaryOml lib bts msg v) := by
  unfold abisNmTlvAttrPrimaryOml
  rw [octetAt_eq (by omega),ok_bind]
  split
  · rw [octetsAt_eq (by omega)]
    exact fine_ok _
  · split
    · have hall : Fine (readAll msg ((List.range v.len).map (v.off + ·))) := by
        rw [fine_readAll]
        intro off hoff
        obtain ⟨i,hi,rfl⟩ := List.mem_map.mp hoff
        have := List.mem_range.mp hi
        omega
      obtain ⟨u,hu⟩ := hall
      rw [hu]
      exact fine_ok none
    · exact fine_ok none

variable (lib bts) in
theorem logPrimaryOml_fine (h9 : 9 ≤ msg.length) (hin : Inside msg tp) : Fine (logPrimaryOml lib bts msg tp) := by
  unfold logPrimaryOml
  cases hv : presLen tp .primOmlCfgList 7 with
  | none => exact fine_ok none
  | some v =>
    obtain ⟨htag,h7⟩ := presLen_some hv
    obtain ⟨primary,hprimary⟩ := primaryOml_fine lib bts (hin _ v htag).1 h7
    obtain ⟨u,hu⟩ := logpfoh_fine bts h9 .notice
    dsimp only
    rw [hprimary,ok_bind,hu]
    split <;> exact fine_ok _

theorem logUnitId_fine (h9 : 9 ≤ msg.length) : Fine (logUnitId bts msg tp) ↔
    ∀ v, presLen tp .unitId 1 = some v → 0 ∈ msg.drop v.off := by
  unfold logUnitId
  cases hv : presLen tp .unitId 1 with
  | none => exact iff_of_true (fine_ok none) forall_none
  | some v =>
    obtain ⟨u,hu⟩ := logpfoh_fine bts h9 .notice
    rw [forall_some,← fine_stringAt,hu]
    dsimp only
    refine (fine_bind (p := True) fun _ _ => iff_of_true (fine_ok _) trivial).trans ?_
    rw [and_true,abisNmTlvAttrUnitId]
    exact (fine_bind (p := True) fun _ _ => iff_of_true (fine_pure _) trivial).trans (and_true _).to_iff

theorem logUnreportedIds_fine {off num : Nat} (hoff : off < msg.length) :
    Fine (logUnreportedIds bts msg off num) ↔ (bts.logs .error = true → off + num < msg.length) := by
  unfold logUnreportedIds
  split
  · rename_i hlogs
    rw [imp_iff_right hlogs,fine_readAll]
    constructor
    · intro h
      cases num with
      | zero => exact hoff
      | succ n => exact h _ (List.mem_map.mpr ⟨n,List.mem_range.mpr (Nat.lt_succ_self n),rfl⟩)
    · intro h o ho
      obtain ⟨i,hi,rfl⟩ := List.mem_map.mp ho
      have := List.mem_range.mp hi
      omega
  · rename_i hlogs
    exact iff_of_true (fine_ok ()) fun h => absurd h hlogs

theorem logUnreported_fine (hin : Inside msg tp) : Fine (logUnreported bts msg tp) ↔
    ∀ v, presLen tp .getAri 1 = some v → bts.logs .error = true →
      v.off + (octet msg v.off).toNat < msg.length := by
  unfold logUnreported
  cases hv : presLen tp .getAri 1 with
  | none => exact iff_of_true (fine_ok none) forall_none
  | some v =>
    obtain ⟨htag,h1⟩ := presLen_some hv
    have hoff : v.off < msg.length := by
      have := (hin _ v htag).1
      omega
    rw [forall_some,fine_map,parseAttrRespInfoUnreported,octetAt_eq hoff,ok_bind,← logUnreportedIds_fine hoff]
    exact (fine_bind (p := True) fun _ _ => iff_of_true (fine_ok _) trivial).trans (and_true _).to_iff

theorem attrsFit_iff (h9 : 9 ≤ msg.length) (hin : Inside msg tp) (trx : Bool) :
    Fine (parseAttrRespInfoAttr lib bts msg trx tp) ↔ AttrsFit lib bts msg tp := by
  obtain ⟨power,hpower⟩ := logNominalPower_fine bts h9 hin trx
  obtain ⟨swConf,hswConf⟩ := logSwConf_fine lib bts h9 hin
  obtain ⟨primary,hprimary⟩ := logPrimaryOml_fine lib bts h9 hin
  unfold parseAttrRespInfoAttr
  rw [hpower,hswConf,hprimary]
  simp only [ok_bind]
  have hrest : ∀ features, copyFeatures lib msg tp = .ok features →
      (Fine (logUnitId bts msg tp >>= fun unitId => logUnreported bts msg tp >>= fun _ =>
        pure (⟨features,power,swConf,primary,unitId⟩ : AttrResp)) ↔
      Fine (logUnitId bts msg tp) ∧ Fine (logUnreported bts msg tp)) := by
    intro features _
    refine fine_bind fun unitId _ => ?_
    exact (fine_bind (p := True) fun _ _ => iff_of_true (fine_pure _) trivial).trans (and_true _).to_iff
  rw [fine_bind hrest,copyFeatures_fine hin,logUnitId_fine h9,logUnreported_fine hin]
  exact ⟨fun ⟨hfeat,hunit,hunrep⟩ => ⟨hfeat,hunit,hunrep⟩,fun h => ⟨h.features,h.unitId,h.unreported⟩⟩

theorem respInfo_fine (hlist : ListFits msg) (trx : Bool) :
    Fine (parseAttrRespInfo lib bts msg trx (ownAttrs lib msg)) ↔ RespInfoFits lib bts msg := by
  have hin := hlist.inside lib
  unfold parseAttrRespInfo RespInfoFits
  cases hv : presLen (ownAttrs lib msg) .getAri 1 with
  | none =>
    obtain ⟨u,hu⟩ := logpfoh_fine bts hlist.nine .error
    dsimp only
    rw [hu]
    exact iff_of_true (fine_ok none) forall_none
  | some ari =>
    obtain ⟨htag,h1⟩ := presLen_some hv
    have hari := (hin _ ari htag).1
    rw [forall_some]
    dsimp only
    unfold parseAttrRespInfoUnreported abisNmTlvParse
    rw [octetAt_eq (by omega),ok_bind]
    simp only [if_true,bind_assoc,pure_bind]
    refine (fine_bind fun _ _ => fine_sub_bind).trans ?_
    rw [fine_octetsAt_bind,fine_map,logUnreportedIds_fine (by omega)]
    constructor
    · rintro ⟨-,hnum,hlen,hfits⟩
      exact ⟨hnum,(attrsFit_iff hlist.nine (attrs_inside hlen) trx).mp hfits⟩
    · rintro ⟨hnum,hfits⟩
      have hlen : ari.off + (octet msg ari.off).toNat + 1 + (ari.len - ((octet msg ari.off).toNat + 1))
          ≤ msg.length := by omega
      exact ⟨fun _ => by omega,hnum,hlen,(attrsFit_iff hlist.nine (attrs_inside hlen) trx).mpr hfits⟩

theorem getAttrResp_fine (trx : Bool) : Fine (abisNmRxGetAttrResp lib bts msg trx) ↔ ListFits msg
    ∧ if bts.nanobts then AttrsFit lib bts msg (ownAttrs lib msg) else RespInfoFits lib bts msg := by
  unfold abisNmRxGetAttrResp
  refine (fine_bind fun _ _ => fine_messageAttrs_bind).trans ?_
  constructor
  · rintro ⟨-,hlist,hfits⟩
    refine ⟨hlist,?_⟩
    split at hfits
    · rename_i hnano
      rw [if_pos hnano]
      exact (attrsFit_iff hlist.nine (hlist.inside lib) trx).mp (fine_map.mp hfits)
    · rename_i hnano
      rw [if_neg hnano]
      exact (respInfo_fine hlist trx).mp hfits
  · rintro ⟨hlist,hfits⟩
    refine ⟨logpfoh_fine bts hlist.nine .debug,hlist,?_⟩
    split at hfits
    · rename_i hnano
      rw [if_pos hnano,fine_map]
      exact (attrsFit_iff hlist.nine (hlist.inside lib) trx).mpr hfits
    · rename_i hnano
      rw [if_neg hnano]
      exact (respInfo_fine hlist trx).mpr hfits

theorem fom_fine : Fine (abisNmRcvmsgFom lib bts msg) ↔ 5 ≤ msg.length ∧ match lib.omlType (octet msg 4) with
    | .statechgEventRep => ListFits msg
      ∨ (gsmObjclass2mo lib bts msg = .ok none ∧ (bts.logs .error = true → 9 ≤ msg.length))
    | .failureEventRep => ListFits msg
    | .getAttrResp => ListFits msg
      ∧ if bts.nanobts then AttrsFit lib bts msg (ownAttrs lib msg) else RespInfoFits lib bts msg
    | .other => True := by
  unfold abisNmRcvmsgFom
  rw [fine_octetAt_bind]
  refine and_congr Iff.rfl ?_
  cases lib.omlType (octet msg 4) with
  | statechgEventRep => exact fine_map.trans statechg_fine
  | failureEventRep => exact fine_map.trans failEvt_fine
  | getAttrResp =>
    dsimp only
    rw [fine_octetAt_bind,fine_map,getAttrResp_fine,and_iff_right_iff_imp]
    intro h
    have := h.1.nine
    omega
  | other => exact iff_of_true (fine_pure _) trivial

end Fits

/-- A parser of a Manufacturer Id at the start of a list. -/
def leadingManufId : TlvParser nmAttTlvdef where
  parse buf tag := match buf, tag with
    | 0x1f :: hi :: lo :: value, .manufId =>
      if hi.toNat * 256 + lo.toNat ≤ value.length then some ⟨3,hi.toNat * 256 + lo.toNat⟩ else none
    | _, _ => none
  within := by
    intro buf tag v h
    split at h
    · split at h
      · cases h
        simp only [List.length_cons]
        omega
      · cases h
    · cases h
  typed := by
    intro buf tag v h
    split at h
    · exact trivial
    · cases h

/-- The numbers of the protocol that the next message uses. -/
def libosmocore : Libosmocore where
  mdisc octet := if octet = 0x80 then .fom else .unknown
  placement octet := if octet = 0x80 then .only else if octet = 0x40 then .first else .other
  omlType octet := if octet = 0x82 then .getAttrResp else .other
  objClass octet := if octet = 0x01 then .bts else .other
  bs11Obj _ := .other
  primOmlCfg := 0x95
  maxBtsFeatures := 128
  tlv := leadingManufId
  swConf _ := []

def quietNanobts : OmlBts := ⟨true,1,fun _ => ⟨0,0,0⟩,fun _ => false⟩

end OsmoBsc.Oml
