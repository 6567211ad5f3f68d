import OsmoBsc.Lib.Tlv
import OsmoBsc.Rsl.ChanNr
import OsmoBsc.Rsl.Robustness
set_option autoImplicit false

namespace OsmoBsc.Rr
open EventFsm OsmoBsc.Chan OsmoBsc.Rsl.Receive Tlv

abbrev Octet := BitVec 8

/-- The hopping of a timeslot for which it is enabled: `ma_data` as far as `ma_len`, MAIO and HSN. -/
structure Hopping where
  ma : { l : List Octet // l.length ≤ 8 }
  maio : Octet
  hsn : Octet

/-- What an lchan, its timeslot, its TRX and its BTS contribute to a command: `si1` is the cell channel description
of SI 1, and `mrMs` is `mr_ms_lv` without its length. -/
structure LchanParams where
  arfcn : BitVec 16
  c0Arfcn : BitVec 16
  bsic : Octet
  tsc : Option Octet
  hopping : Option Hopping
  si1 : { l : List Octet // l.length = 16 }
  tchMode : Octet
  mrMs : { l : List Octet // l.length ≤ 6 }

def gsm48PdiscRr : Octet := 0x06
def gsm48MtRrHandoCmd : Octet := 0x2b
def gsm48MtRrAssCmd : Octet := 0x2e
def gsm48MtRrChanModeModif : Octet := 0x10
def gsm48MtRrImmAss : Octet := 0x3f
def gsm48PmSame : Octet := 0x03
def gsm48IeMulRateCfg : Octet := 0x03
def gsm48IeMaBefore : Octet := 0x21
def gsm48IeCellChDesc : Octet := 0x62
def gsm48IeChanmode1 : Octet := 0x63
def gsm48CmodeSpeechAmr : Octet := 0x41

def rrFormat (tag : Octet) : Option Format :=
  if tag = gsm48IeCellChDesc then some (.fixed 16)
  else if tag = gsm48IeChanmode1 then some (.fixed 1)
  else if tag = gsm48IeMaBefore ∨ tag = gsm48IeMulRateCfg then some .counted
  else none

section Make

variable (p : LchanParams)

def gsmTsTsc : Octet := p.tsc.getD (p.bsic &&& 7)

def chanDescFillTail : List Octet :=
  match p.hopping with
  | none =>
    let arfcn := p.arfcn &&& 0x3ff
    [(gsmTsTsc p).setWidth 3 ++ 0#1 ++ 0#2 ++ (arfcn >>> 8).setWidth 2,arfcn.setWidth 8]
  | some h =>
    [(gsmTsTsc p).setWidth 3 ++ 1#1 ++ (h.maio >>> 2).setWidth 4,(h.maio &&& 3).setWidth 2 ++ h.hsn.setWidth 6]

def gsm48Lchan2chanDesc (chanNr : Octet) : List Octet := chanNr :: chanDescFillTail p

def gsm48CellDesc : List Octet :=
  [(p.c0Arfcn >>> 8).setWidth 2 ++ ((p.bsic >>> 3) &&& 7).setWidth 3 ++ (p.bsic &&& 7).setWidth 3,
    (p.c0Arfcn &&& 0xff).setWidth 8]

def mrConfigForMs (mode : Octet) : List Element :=
  if mode = gsm48CmodeSpeechAmr then [⟨gsm48IeMulRateCfg,p.mrMs.val⟩] else []

def maBefore : List Element :=
  match p.hopping with
  | none => []
  | some h => [⟨gsm48IeMaBefore,h.ma.val⟩]

def hoCmdElements : List Element :=
  (if p.hopping.isSome then [⟨gsm48IeCellChDesc,p.si1.val⟩] else []) ++ maBefore p
    ++ ⟨gsm48IeChanmode1,[p.tchMode]⟩ :: mrConfigForMs p p.tchMode

def assCmdElements : List Element :=
  ⟨gsm48IeChanmode1,[p.tchMode]⟩ :: maBefore p ++ mrConfigForMs p p.tchMode

variable (rx : Received) (w : Bsc) (tsNr : Fin 8) (nr : Nat)

/-- `gsm48_make_ho_cmd`, for lchan `nr` of a timeslot; none if its channel number cannot be made. -/
def gsm48MakeHoCmd (powerCommand hoRef : Octet) : Option (List Octet) :=
  (gsmLchan2chanNr rx w tsNr nr).map fun chanNr =>
    [gsm48PdiscRr,gsm48MtRrHandoCmd] ++ gsm48CellDesc p ++ gsm48Lchan2chanDesc p chanNr ++ [hoRef,powerCommand]
      ++ putAll rrFormat (hoCmdElements p)

def gsm48SendRrAssCmd (powerCommand : Octet) : Option (List Octet) :=
  (gsmLchan2chanNr rx w tsNr nr).map fun chanNr =>
    [gsm48PdiscRr,gsm48MtRrAssCmd] ++ gsm48Lchan2chanDesc p chanNr ++ [powerCommand]
      ++ putAll rrFormat (assCmdElements p)

/-- `gsm48_lchan_modify`, which also makes `mode` the mode of the lchan. -/
def gsm48LchanModify (mode : Octet) : Option (List Octet) :=
  (gsmLchan2chanNr rx w tsNr nr).map fun chanNr =>
    [gsm48PdiscRr,gsm48MtRrChanModeModif] ++ gsm48Lchan2chanDesc p chanNr ++ [mode]
      ++ putAll rrFormat (mrConfigForMs p mode)

def mobAlloc : List Octet :=
  match p.hopping with
  | none => []
  | some h => h.ma.val

/-- `rsl_tx_imm_assignment`, up to the message for the MS. -/
def rslTxImmAssignment (reqRef : Octet × Octet × Octet) (ta : Octet) : Option (List Octet) :=
  (gsmLchan2chanNr rx w tsNr nr).map fun chanNr =>
    [BitVec.ofNat 8 ((11 + (mobAlloc p).length) * 4 + 1),gsm48PdiscRr,gsm48MtRrImmAss,gsm48PmSame]
      ++ gsm48Lchan2chanDesc p chanNr ++ [reqRef.1,reqRef.2.1,reqRef.2.2,ta,BitVec.ofNat 8 (mobAlloc p).length]
      ++ mobAlloc p

end Make

inductive Radio where
  | fixed (arfcn : BitVec 10)
  | hops (maio hsn : BitVec 6)
  deriving DecidableEq, Repr

structure ChanDesc where
  chanNr : Octet
  tsc : BitVec 3
  radio : Radio
  deriving DecidableEq, Repr

def readChanDesc (o1 o2 o3 : Octet) : ChanDesc where
  chanNr := o1
  tsc := o2.extractLsb' 5 3
  radio := if o2.getLsbD 4 then .hops (o2.extractLsb' 0 4 ++ o3.extractLsb' 6 2) (o3.setWidth 6)
    else .fixed (o2.extractLsb' 0 2 ++ o3)

def LchanParams.desc (p : LchanParams) (chanNr : Octet) : ChanDesc where
  chanNr := chanNr
  tsc := (gsmTsTsc p).setWidth 3
  radio := match p.hopping with
    | none => .fixed (p.arfcn.setWidth 10)
    | some h => .hops (h.maio.setWidth 6) (h.hsn.setWidth 6)

section Octets

theorem h0_octet : ∀ (tsc : BitVec 3) (hi : BitVec 2), (tsc ++ 0#1 ++ 0#2 ++ hi : Octet).extractLsb' 5 3 = tsc
    ∧ (tsc ++ 0#1 ++ 0#2 ++ hi : Octet).getLsbD 4 = false ∧ (tsc ++ 0#1 ++ 0#2 ++ hi : Octet).extractLsb' 0 2 = hi := by
  decide

theorem h1_octet : ∀ (tsc : BitVec 3) (hi : BitVec 4), (tsc ++ 1#1 ++ hi : Octet).extractLsb' 5 3 = tsc
    ∧ (tsc ++ 1#1 ++ hi : Octet).getLsbD 4 = true ∧ (tsc ++ 1#1 ++ hi : Octet).extractLsb' 0 4 = hi := by
  decide

theorem hsn_octet : ∀ (lo : BitVec 2) (hsn : BitVec 6), (lo ++ hsn : Octet).extractLsb' 6 2 = lo
    ∧ (lo ++ hsn : Octet).setWidth 6 = hsn := by
  decide

theorem cell_octet : ∀ (hi : BitVec 2) (ncc bcc : BitVec 3), (hi ++ ncc ++ bcc : Octet).extractLsb' 6 2 = hi
    ∧ (hi ++ ncc ++ bcc : Octet).setWidth 6 = ncc ++ bcc := by
  decide

theorem maio_parts : ∀ maio : Octet, ((maio >>> 2).setWidth 4 ++ (maio &&& 3).setWidth 2 : BitVec 6)
    = maio.setWidth 6 := by
  decide

theorem bsic_parts : ∀ bsic : Octet, (((bsic >>> 3) &&& 7).setWidth 3 ++ (bsic &&& 7).setWidth 3 : BitVec 6)
    = bsic.setWidth 6 := by
  decide

theorem arfcn_parts {hi lo arfcn : BitVec 16} (hhi : hi.toNat / 256 % 4 = arfcn.toNat / 256 % 4)
    (hlo : lo.toNat % 256 = arfcn.toNat % 256) :
    ((hi >>> 8).setWidth 2 ++ lo.setWidth 8 : BitVec (2 + 8)) = arfcn.setWidth (2 + 8) := by
  apply BitVec.eq_of_toNat_eq
  rw [BitVec.toNat_append]
  simp only [BitVec.toNat_setWidth,BitVec.toNat_ushiftRight]
  rw [Nat.shiftRight_eq_div_pow,← Nat.shiftLeft_add_eq_or_of_lt (Nat.mod_lt _ (by decide)),Nat.shiftLeft_eq]
  omega

theorem toNat_and_low (arfcn : BitVec 16) : (arfcn &&& 0x3ff).toNat = arfcn.toNat % 1024
    ∧ (arfcn &&& 0xff).toNat = arfcn.toNat % 256 :=
  ⟨Nat.and_two_pow_sub_one_eq_mod arfcn.toNat 10,Nat.and_two_pow_sub_one_eq_mod arfcn.toNat 8⟩

end Octets

theorem chanDesc_read (p : LchanParams) (chanNr : Octet) : ∃ o2 o3, gsm48Lchan2chanDesc p chanNr = [chanNr,o2,o3]
    ∧ readChanDesc chanNr o2 o3 = p.desc chanNr := by
  rw [gsm48Lchan2chanDesc,chanDescFillTail,LchanParams.desc]
  cases p.hopping with
  | none =>
    obtain ⟨htsc,hh,hhi⟩ := h0_octet ((gsmTsTsc p).setWidth 3) (((p.arfcn &&& 0x3ff) >>> 8).setWidth 2)
    have hlow := (toNat_and_low p.arfcn).1
    refine ⟨_,_,rfl,?_⟩
    rw [readChanDesc,htsc,hh,hhi,if_neg Bool.false_ne_true]
    exact congrArg _ (congrArg Radio.fixed (arfcn_parts (by rw [hlow]; omega) (by rw [hlow]; omega)))
  | some h =>
    obtain ⟨htsc,hh,hhi⟩ := h1_octet ((gsmTsTsc p).setWidth 3) ((h.maio >>> 2).setWidth 4)
    obtain ⟨hlo,hhsn⟩ := hsn_octet ((h.maio &&& 3).setWidth 2) (h.hsn.setWidth 6)
    refine ⟨_,_,rfl,?_⟩
    rw [readChanDesc,htsc,hh,hhi,hlo,hhsn,if_pos rfl]
    exact congrArg _ (congrArg (Radio.hops · _) (maio_parts h.maio))

/-- A HANDOVER COMMAND as an MS reads it. -/
structure HoCmd where
  arfcn : BitVec 10
  bsic : BitVec 6
  chan : ChanDesc
  hoRef : Octet
  powerCommand : Octet
  elements : List Element
  deriving DecidableEq, Repr

def readHoCmd : List Octet → Option HoCmd
  | pd :: mt :: c1 :: c2 :: o1 :: o2 :: o3 :: hoRef :: powerCommand :: rest =>
    if pd = gsm48PdiscRr ∧ mt = gsm48MtRrHandoCmd then
      (readAll rrFormat rest.length rest).map fun elements =>
        { arfcn := c1.extractLsb' 6 2 ++ c2, bsic := c1.setWidth 6, chan := readChanDesc o1 o2 o3, hoRef,
          powerCommand, elements }
    else none
  | _ => none

/-- An ASSIGNMENT COMMAND or a CHANNEL MODE MODIFY, which has the mode in the place of the power command. -/
structure ChanCmd where
  chan : ChanDesc
  octet : Octet
  elements : List Element
  deriving DecidableEq, Repr

def readChanCmd (msgType : Octet) : List Octet → Option ChanCmd
  | pd :: mt :: o1 :: o2 :: o3 :: octet :: rest =>
    if pd = gsm48PdiscRr ∧ mt = msgType then
      (readAll rrFormat rest.length rest).map fun elements => { chan := readChanDesc o1 o2 o3, octet, elements }
    else none
  | _ => none

/-- An IMMEDIATE ASSIGN as an MS reads it, and the length in front of it. -/
structure ImmAss where
  length : Nat
  chan : ChanDesc
  reqRef : Octet × Octet × Octet
  ta : Octet
  ma : List Octet
  deriving DecidableEq, Repr

def readImmAss : List Octet → Option ImmAss
  | l2 :: pd :: mt :: _ :: o1 :: o2 :: o3 :: r1 :: r2 :: r3 :: ta :: len :: rest =>
    if pd = gsm48PdiscRr ∧ mt = gsm48MtRrImmAss ∧ len.toNat ≤ rest.length then
      some { length := (l2 >>> 2).toNat, chan := readChanDesc o1 o2 o3, reqRef := (r1,r2,r3), ta,
             ma := rest.take len.toNat }
    else none
  | _ => none

section Read

variable {p : LchanParams} {e : Element} {es : List Element}

def Fit (e : Element) : Prop := ∃ f, rrFormat e.tag = some f ∧ f.Fits e.val

theorem fit_mulRate {mode : Octet} (h : e ∈ mrConfigForMs p mode) : Fit e := by
  rw [mrConfigForMs] at h
  split at h
  · rw [List.mem_singleton.mp h]
    exact ⟨.counted,rfl,Nat.lt_of_le_of_lt p.mrMs.property (by decide)⟩
  · cases h

theorem fit_ma (h : e ∈ maBefore p) : Fit e := by
  rw [maBefore] at h
  split at h
  · cases h
  · rename_i hop _
    rw [List.mem_singleton.mp h]
    exact ⟨.counted,rfl,Nat.lt_of_le_of_lt hop.ma.property (by decide)⟩

theorem fit_mode (mode : Octet) : Fit ⟨gsm48IeChanmode1,[mode]⟩ := ⟨.fixed 1,rfl,rfl⟩

theorem fit_hoCmd (h : e ∈ hoCmdElements p) : Fit e := by
  rw [hoCmdElements,List.mem_append,List.mem_append,List.mem_cons] at h
  rcases h with (h | h) | rfl | h
  · split at h
    · rw [List.mem_singleton.mp h]
      exact ⟨.fixed 16,rfl,p.si1.property⟩
    · cases h
  · exact fit_ma h
  · exact fit_mode p.tchMode
  · exact fit_mulRate h

theorem fit_assCmd (h : e ∈ assCmdElements p) : Fit e := by
  rw [assCmdElements,List.mem_append,List.mem_cons] at h
  rcases h with (rfl | h) | h
  · exact fit_mode p.tchMode
  · exact fit_ma h
  · exact fit_mulRate h

theorem elements_read (h : ∀ e ∈ es, Fit e) :
    readAll rrFormat (putAll rrFormat es).length (putAll rrFormat es) = some es :=
  readAll_putAll h (length_putAll es)

variable {rx : Received} {w : Bsc} {tsNr : Fin 8} {nr : Nat} {chanNr : Octet}

theorem hoCmd_read (h : gsmLchan2chanNr rx w tsNr nr = some chanNr) (powerCommand hoRef : Octet) :
    ∃ msg, gsm48MakeHoCmd p rx w tsNr nr powerCommand hoRef = some msg ∧ readHoCmd msg = some
      { arfcn := p.c0Arfcn.setWidth 10, bsic := p.bsic.setWidth 6, chan := p.desc chanNr, hoRef, powerCommand
        elements := hoCmdElements p } := by
  obtain ⟨o2,o3,hdesc,hread⟩ := chanDesc_read p chanNr
  obtain ⟨hhi,hbsic⟩ := cell_octet ((p.c0Arfcn >>> 8).setWidth 2) (((p.bsic >>> 3) &&& 7).setWidth 3)
    ((p.bsic &&& 7).setWidth 3)
  have hlow := (toNat_and_low p.c0Arfcn).2
  rw [gsm48MakeHoCmd,h,Option.map_some,hdesc]
  refine ⟨_,rfl,?_⟩
  simp only [gsm48CellDesc,List.cons_append,List.nil_append,readHoCmd,and_self,if_true,
    elements_read fun e => fit_hoCmd,Option.map_some,hread,hbsic,hhi,bsic_parts]
  exact congrArg some (congrArg (fun arfcn => HoCmd.mk arfcn _ _ _ _ _)
    (arfcn_parts rfl (by rw [hlow]; omega)))

theorem assCmd_read (h : gsmLchan2chanNr rx w tsNr nr = some chanNr) (powerCommand : Octet) :
    ∃ msg, gsm48SendRrAssCmd p rx w tsNr nr powerCommand = some msg ∧ readChanCmd gsm48MtRrAssCmd msg = some
      { chan := p.desc chanNr, octet := powerCommand, elements := assCmdElements p } := by
  obtain ⟨o2,o3,hdesc,hread⟩ := chanDesc_read p chanNr
  rw [gsm48SendRrAssCmd,h,Option.map_some,hdesc]
  refine ⟨_,rfl,?_⟩
  simp only [List.cons_append,List.nil_append,readChanCmd,and_self,if_true,elements_read fun e => fit_assCmd,
    Option.map_some,hread]

theorem lchanModify_read (h : gsmLchan2chanNr rx w tsNr nr = some chanNr) (mode : Octet) :
    ∃ msg, gsm48LchanModify p rx w tsNr nr mode = some msg ∧ readChanCmd gsm48MtRrChanModeModif msg = some
      { chan := p.desc chanNr, octet := mode, elements := mrConfigForMs p mode } := by
  obtain ⟨o2,o3,hdesc,hread⟩ := chanDesc_read p chanNr
  rw [gsm48LchanModify,h,Option.map_some,hdesc]
  refine ⟨_,rfl,?_⟩
  simp only [List.cons_append,List.nil_append,readChanCmd,and_self,if_true,elements_read fun e => fit_mulRate,
    Option.map_some,hread]

theorem mobAlloc_length (p : LchanParams) : (mobAlloc p).length ≤ 8 := by
  rw [mobAlloc]
  split
  · exact Nat.zero_le _
  · rename_i h _
    exact h.ma.property

theorem immAss_read (h : gsmLchan2chanNr rx w tsNr nr = some chanNr) (reqRef : Octet × Octet × Octet) (ta : Octet) :
    ∃ msg, rslTxImmAssignment p rx w tsNr nr reqRef ta = some msg ∧ readImmAss msg = some
      { length := msg.length - 1, chan := p.desc chanNr, reqRef, ta, ma := mobAlloc p } := by
  obtain ⟨o2,o3,hdesc,hread⟩ := chanDesc_read p chanNr
  have hma := mobAlloc_length p
  have hlen : (BitVec.ofNat 8 (mobAlloc p).length).toNat = (mobAlloc p).length := by
    rw [BitVec.toNat_ofNat]
    omega
  have hl2 : (BitVec.ofNat 8 ((11 + (mobAlloc p).length) * 4 + 1) >>> 2).toNat = 11 + (mobAlloc p).length := by
    rw [BitVec.toNat_ushiftRight,BitVec.toNat_ofNat,Nat.shiftRight_eq_div_pow]
    omega
  rw [rslTxImmAssignment,h,Option.map_some,hdesc]
  refine ⟨_,rfl,?_⟩
  simp only [List.cons_append,List.nil_append,readImmAss,and_self,hlen,Nat.le_refl,if_true,hl2,hread,
    List.take_length,List.length_cons]
  rw [show (mobAlloc p).length + 1 + 1 + 1 + 1 + 1 + 1 + 1 + 1 + 1 + 1 + 1 + 1 - 1 = 11 + (mobAlloc p).length by omega]

end Read

/-- In every state of every run, an MS reads in each command for an lchan of a timeslot that works just what the lchan
has: the cell, the channel, the training sequence, the frequencies and the elements; and the channel number that it
reads is that of the lchan when it comes back on RSL. -/
theorem rr_commands_read {cfg : TsId → TsCfg} {good : Config → Move → Prop} {c : Config}
    (h : Chan.Reachable cfg good c) (rx : Received) (tsNr : Fin 8) (nr : Nat) (p : LchanParams)
    (hinit : (c.state.ts (rx.ts tsNr)).fi ≠ .notInitialized) (hborken : (c.state.ts (rx.ts tsNr)).fi ≠ .borken)
    (hnr : nr < pchanSubslots (c.state.ts (rx.ts tsNr)).pchanIs) :
    ∃ chanNr, rslLchanLookup rx c.state chanNr = some (⟨rx.ts tsNr,nr⟩,true)
      ∧ (∀ powerCommand hoRef, ∃ msg, gsm48MakeHoCmd p rx c.state tsNr nr powerCommand hoRef = some msg
        ∧ readHoCmd msg = some { arfcn := p.c0Arfcn.setWidth 10, bsic := p.bsic.setWidth 6, chan := p.desc chanNr,
                                 hoRef, powerCommand, elements := hoCmdElements p })
      ∧ (∀ powerCommand, ∃ msg, gsm48SendRrAssCmd p rx c.state tsNr nr powerCommand = some msg
        ∧ readChanCmd gsm48MtRrAssCmd msg = some
          { chan := p.desc chanNr, octet := powerCommand, elements := assCmdElements p })
      ∧ (∀ mode, ∃ msg, gsm48LchanModify p rx c.state tsNr nr mode = some msg
        ∧ readChanCmd gsm48MtRrChanModeModif msg = some
          { chan := p.desc chanNr, octet := mode, elements := mrConfigForMs p mode })
      ∧ ∀ reqRef ta, ∃ msg, rslTxImmAssignment p rx c.state tsNr nr reqRef ta = some msg
        ∧ readImmAss msg = some { length := msg.length - 1, chan := p.desc chanNr, reqRef, ta, ma := mobAlloc p } := by
  obtain ⟨chanNr,hmade,hfound⟩ := reachable_found_again h rx tsNr nr hinit hborken hnr
  exact ⟨chanNr,hfound,hoCmd_read hmade,assCmd_read hmade,lchanModify_read hmade,immAss_read hmade⟩

/-- Hopping over four frequencies, with AMR. -/
def amrHopping : LchanParams where
  arfcn := 871
  c0Arfcn := 871
  bsic := 0x3f
  tsc := none
  hopping := some { ma := ⟨[0x0f],by decide⟩, maio := 37, hsn := 5 }
  si1 := ⟨List.replicate 16 0x55,by decide⟩
  tchMode := gsm48CmodeSpeechAmr
  mrMs := ⟨[0x20,0x04],by decide⟩

/-- The sixth SDCCH of the first timeslot. -/
theorem rr_commands_read_sdcch : ∃ c chanNr, run (step (tsOfKind .sdcch8Sacch8c)) initial
      (moves 40 [.omlReady 0,.rslReady 0]) = .ok c
    ∧ rslLchanLookup (onFirstTrx []) c.state chanNr = some (⟨0,5⟩,true)
    ∧ ∃ msg, gsm48MakeHoCmd amrHopping (onFirstTrx []) c.state 0 5 7 1 = some msg ∧ readHoCmd msg = some
      { arfcn := 871, bsic := 0x3f, chan := { chanNr, tsc := 7, radio := .hops 37 5 }, hoRef := 1, powerCommand := 7
        elements := [⟨0x62,List.replicate 16 0x55⟩,⟨0x21,[0x0f]⟩,⟨0x63,[0x41]⟩,⟨0x03,[0x20,0x04]⟩] } := by
  obtain ⟨c,hc,hfi,hnr⟩ : ∃ c, run (step (tsOfKind .sdcch8Sacch8c)) initial (moves 40 [.omlReady 0,.rslReady 0]) = .ok c
      ∧ (c.state.ts 0).fi = .unused ∧ 5 < pchanSubslots (c.state.ts 0).pchanIs := by
    decide
  have hreach : Chan.Reachable (tsOfKind .sdcch8Sacch8c) (fun _ _ => True) c :=
    .of_run (.start rfl) (.of_forall (fun _ _ => trivial) _ _) hc
  have hworks : (c.state.ts 0).fi ≠ .notInitialized ∧ (c.state.ts 0).fi ≠ .borken := by
    rw [hfi]
    decide
  obtain ⟨chanNr,hfound,hho,-⟩ := rr_commands_read hreach (onFirstTrx []) 0 5 amrHopping hworks.1 hworks.2 hnr
  obtain ⟨msg,hmsg,hread⟩ := hho 7 1
  exact ⟨c,chanNr,hc,hfound,msg,hmsg,hread⟩

end OsmoBsc.Rr
