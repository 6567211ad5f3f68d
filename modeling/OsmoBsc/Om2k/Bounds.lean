import OsmoBsc.Om2k.Negotiation
set_option autoImplicit false

/-! What an OM2000 BTS sends, with every access to the message checked, the text of a fault report, and the list of
frequencies of a timeslot. -/

namespace OsmoBsc.Om2k
open Checked

/-- OM2K_DEI_*, as far as they are read. -/
inductive Dei where
  | intFaultMap1A
  | intFaultMap1B
  | intFaultMap2A
  | intFaultMap2AExt
  | extCondMap1
  | extCondMap2
  | extCondMap2Ext
  | replUnitMap
  | replUnitMapExt
  | moState
  | reasonCode
  | resultCode
  | other
  deriving DecidableEq, Repr

def om2kAttTlvdef : Dei → TlvType
  | .intFaultMap1A | .intFaultMap1B | .intFaultMap2A | .intFaultMap2AExt | .replUnitMap | .replUnitMapExt => .fixed 6
  | .extCondMap1 | .extCondMap2 => .fixed 2
  | .extCondMap2Ext => .fixed 4
  | .moState | .reasonCode | .resultCode => .tv
  | .other => .tlv

/-- `om2k_attr_vals`, of the attributes that are fault maps. -/
def faultMapName : Dei → Option String
  | .intFaultMap1A => some "Internal Fault Map Class 1A"
  | .intFaultMap1B => some "Internal Fault Map Class 1B"
  | .intFaultMap2A => some "Internal Fault Map Class 2A"
  | .intFaultMap2AExt => some "Internal Fault Map Class 2A Extension"
  | .extCondMap1 => some "External Condition Map Class 1"
  | .extCondMap2 => some "External Condition Map Class 2"
  | .extCondMap2Ext => some "External Condition Class 2 Extension"
  | .replUnitMap => some "Replacement Unit Map"
  | .replUnitMapExt => some "Replacement Unit Map Extension"
  | .moState | .reasonCode | .resultCode | .other => none

/-- What libosmocore supplies: ABIS_OM_MDISC_FOM, ABIS_OM_PLACEMENT_ONLY and _FIRST, and the parsers. -/
structure Libosmocore where
  fom : UInt8
  only : UInt8
  first : UInt8
  tlv : TlvParser om2kAttTlvdef
  tlvOne : TlvOneParser om2kAttTlvdef

/-- sprintf() to the end of a string of 255 octets, the final zero among them. -/
def sprintf (string s : String) : Except Overrun String :=
  if string.length + s.length < 255 then .ok (string ++ s) else .error .overfull

/-- The numbers of the bits that are set, where the vector starts with octet `i`. -/
def faultNumbers : List UInt8 → Nat → List Nat
  | [], _ => []
  | octet :: vect, i =>
    ((List.range 8).filter fun k => (octet.toNat >>> k) &&& 1 == 1).map (· + i * 8) ++ faultNumbers vect (i + 1)

def sprintfFaults : List Nat → Bool → String → Except Overrun String
  | [], _, string => .ok string
  | n :: ns, first, string => do
    let string ← (if first then .ok string else sprintf string ",")
    let string ← sprintf string (Nat.repr n)
    sprintfFaults ns false string

/-- `display_fault_bits`: the text, if any bit is set. -/
def displayFaultBits (msg : List UInt8) (v : Field) (name : String) : Except Overrun (Option String) := do
  let vect ← octetsAt msg v.off v.len
  if vect.all (· == 0) then return none
  else
    let string ← sprintf "" ("Fault Report: " ++ name ++ " (")
    let string ← sprintfFaults (faultNumbers vect 0) true string
    some <$> sprintf string ")\n"

section Receiving

variable (lib : Libosmocore) (msg : List UInt8)

def displayElement (tag : Dei) (v : Field) : Except Overrun (Option String) :=
  match faultMapName tag with
  | some name => displayFaultBits msg v name
  | none => .ok none

/-- The loop of `display_fault_maps` over the elements, at most `n` of them. -/
def faultMapsFrom (srcLen : Nat) : Nat → Nat → Except Overrun (List String)
  | 0, _ => .ok []
  | n + 1, srcPos => do
    let buf ← octetsAt msg (10 + srcPos) (srcLen - srcPos)
    match lib.tlvOne.parseOne buf with
    | none => return []
    | some (tag,v,rc) =>
      let text ← displayElement msg tag ⟨10 + srcPos + v.off,v.len⟩
      if srcLen - (srcPos + rc) < 2 then return text.toList
      else
        let texts ← faultMapsFrom srcLen n (srcPos + rc)
        return text.toList ++ texts

/-- ntohs(). -/
def msgCode (hi lo : UInt8) : Nat := hi.toNat * 256 + lo.toNat

/-- `display_fault_maps` of a whole message: the texts it displays. -/
def displayFaultMaps : Except Overrun (List String) := do
  let srcLen ← sub msg.length 4
  let hi ← octetAt msg 4
  let srcLen ← sub srcLen 1
  let lo ← octetAt msg 5
  let srcLen ← sub srcLen 1
  if msgCode hi lo ≠ 0x0042 then return []
  else
    let srcLen ← sub srcLen 4
    faultMapsFrom lib msg srcLen 11 0

/-- `abis_om2k_msg_tlv_parse`; nothing is parsed where the length octet is below six. -/
def abisOm2kMsgTlvParse : Except Overrun (Dei → Option Field) := do
  let length ← octetAt msg 3
  let buf ← octetsAt msg 10 (length.toNat - 6)
  return fun tag => (lib.tlv.parse buf tag).map fun v => ⟨10 + v.off,v.len⟩

def deiOctet (v : Option Field) : Except Overrun (Option UInt8) :=
  match v with
  | some v => some <$> octetAt msg v.off
  | none => .ok none

/-- The codes of a message that refuses a request, OM2K_MSGT_*_REJ. -/
def rejects : List Nat := [0x87,0x1f,0x77,0x33,0x97,0x17,0x63,0xb3,0x7f,0xab,0xa3,0x37,0x0b,0x2b]

inductive Om2kAction where
  | negotReqAck (answer : List (Fin 16 × IwdVersion))
  | faults (texts : List String)
  | nack (reason result : Option UInt8)
  | other
  deriving DecidableEq

def om2kRxNack : Except Overrun Om2kAction := do
  let tp ← abisOm2kMsgTlvParse lib msg
  let reason ← deiOctet msg (tp .reasonCode)
  let result ← deiOctet msg (tp .resultCode)
  return .nack reason result

def om2kDispatch (msgType : Nat) : Except Overrun Om2kAction :=
  if msgType = 0x0042 then .faults <$> displayFaultMaps lib msg
  else if msgType = 0x0106 then .negotReqAck <$> om2kRxNegotReq msg
  else if msgType ∈ rejects then om2kRxNack lib msg
  else .ok .other

/-- `abis_om2k_rcvmsg`, without what the MO does then: the MO state and the action, none where the message is
refused. om2k_decode_msg() copies the whole header. -/
def abisOm2kRcvmsg : Except Overrun (Option (Option UInt8 × Om2kAction)) := do
  let hi ← octetAt msg 4
  let lo ← octetAt msg 5
  let placement ← octetAt msg 1
  let sequence ← octetAt msg 2
  let mdisc ← octetAt msg 0
  if (placement ≠ lib.only ∧ placement ≠ lib.first) ∨ sequence ≠ 0 ∨ mdisc ≠ lib.fom then return none
  else
    let _ ← octetsAt msg 0 10
    let tp ← abisOm2kMsgTlvParse lib msg
    let moState ← deiOctet msg (tp .moState)
    let action ← om2kDispatch lib msg (msgCode hi lo)
    return some (moState,action)

end Receiving

/-- What `om2k_gen_freq_list` reads of a timeslot; `arfcns` are the bits of `hopping.arfcns`. -/
structure FreqTs where
  hopping : Bool
  arfcns : List Bool
  arfcn : Nat
  deriving DecidableEq, Repr

/-- `put_freq_list` to a buffer of 64 entries. -/
def putFreqList (list : List UInt8) (arfcn : Nat) : Except Overrun (List UInt8) :=
  if list.length + 3 ≤ 64 * 3 then .ok (list ++ [0x00,UInt8.ofNat (arfcn >>> 8),UInt8.ofNat (arfcn &&& 0xff)])
  else .error .overfull

/-- The loop over the bits, from bit `i` on. -/
def putFreqs : List Bool → Nat → List UInt8 → Except Overrun (List UInt8)
  | [], _, list => .ok list
  | bit :: bits, i, list => do
    let list ← (if bit then putFreqList list i else .ok list)
    putFreqs bits (i + 1) list

/-- `om2k_gen_freq_list` with the buffer of `abis_om2k_tx_ts_conf_req`. -/
def om2kGenFreqList (ts : FreqTs) : Except Overrun (List UInt8) :=
  if ts.hopping then putFreqs ts.arfcns 0 [] else putFreqList [] ts.arfcn

def Refused (lib : Libosmocore) (msg : List UInt8) : Prop :=
  (octet msg 1 ≠ lib.only ∧ octet msg 1 ≠ lib.first) ∨ octet msg 2 ≠ 0 ∨ octet msg 0 ≠ lib.fom

def AttrsFit (msg : List UInt8) : Prop := 10 ≤ msg.length ∧ 4 + (octet msg 3).toNat ≤ msg.length

/-- The message is a list of offers, and the last offer for each type has a version. -/
def OffersFit (msg : List UInt8) : Prop :=
  (∃ offers, Offered msg offers) ∧ ∀ offers, Offered msg offers → Versioned offers

/-- A message whose lengths fit; a Negotiation Request is a list of offers. -/
def Om2kFits (lib : Libosmocore) (msg : List UInt8) : Prop :=
  6 ≤ msg.length ∧ (Refused lib msg ∨ (AttrsFit msg
    ∧ (msgCode (octet msg 4) (octet msg 5) = 0x0106 → OffersFit msg)))

def Om2kAction.Right (msg : List UInt8) : Om2kAction → Prop
  | .negotReqAck answer => ∀ offers, Offered msg offers → Answers offers answer
  | _ => True

def Om2kSafe (lib : Libosmocore) (msg : List UInt8) : Prop :=
  ∃ r, abisOm2kRcvmsg lib msg = .ok r ∧ ∀ moState action, r = some (moState,action) → action.Right msg

def FreqTs.Fits (ts : FreqTs) : Prop := ts.hopping = true → ts.arfcns.count true ≤ 64

section Text

variable {msg vect : List UInt8} {string : String} {ns : List Nat} {name : String}

theorem faultNumbers_spec (vect : List UInt8) (i : Nat) :
    (faultNumbers vect i).length ≤ 8 * vect.length ∧ ∀ n ∈ faultNumbers vect i, n < 8 * (i + vect.length) := by
  induction vect generalizing i with
  | nil => exact ⟨Nat.le_refl _,List.forall_mem_nil _⟩
  | cons octet vect ih =>
    obtain ⟨hlen,hlt⟩ := ih (i + 1)
    have hbits := List.length_filter_le (fun k => (octet.toNat >>> k) &&& 1 == 1) (List.range 8)
    rw [List.length_range] at hbits
    rw [faultNumbers]
    constructor
    · rw [List.length_append,List.length_map,List.length_cons]
      omega
    · intro n hn
      rw [List.length_cons]
      rcases List.mem_append.mp hn with hbit | hrest
      · obtain ⟨k,hk,rfl⟩ := List.mem_map.mp hbit
        have := List.mem_range.mp (List.mem_of_mem_filter hk)
        omega
      · have := hlt n hrest
        omega

theorem repr_length : ∀ n < 48, (Nat.repr n).length ≤ 2 := by decide

theorem sprintf_ok {s : String} (h : string.length + s.length < 255) :
    sprintf string s = .ok (string ++ s) := if_pos h

theorem sprintfFaults_ok (hns : ∀ n ∈ ns, n < 48) (first : Bool) (string : String)
    (hlen : string.length + 3 * ns.length < 255) :
    ∃ string', sprintfFaults ns first string = .ok string' ∧ string'.length ≤ string.length + 3 * ns.length := by
  induction ns generalizing first string with
  | nil => exact ⟨string,rfl,Nat.le_refl _⟩
  | cons n ns ih =>
    have hdigits := repr_length n (hns n List.mem_cons_self)
    have hcomma : (",").length = 1 := by decide
    rw [List.length_cons] at hlen
    obtain ⟨sep,hsep,hsepLen⟩ : ∃ sep, (if first then .ok string else sprintf string ",") = .ok sep
        ∧ sep.length ≤ string.length + 1 := by
      cases first with
      | true => exact ⟨string,rfl,Nat.le_succ _⟩
      | false => exact ⟨string ++ ",",sprintf_ok (by omega),by rw [String.length_append,hcomma]⟩
    obtain ⟨string',hrest,hle⟩ := ih (fun m hm => hns m (List.mem_cons_of_mem n hm)) false
      (sep ++ Nat.repr n) (by rw [String.length_append]; omega)
    refine ⟨string',?_,?_⟩
    · rw [sprintfFaults,hsep,ok_bind,sprintf_ok (by omega),ok_bind]
      exact hrest
    · rw [String.length_append] at hle
      rw [List.length_cons]
      omega

theorem displayFaultBits_fine {v : Field} (hv : v.off + v.len ≤ msg.length) (h6 : v.len ≤ 6) (hname : name.length ≤ 37) :
    Fine (displayFaultBits msg v name) := by
  have hprefix : ("" : String).length + ("Fault Report: " ++ name ++ " (").length ≤ 53 := by
    have h1 : ("Fault Report: ").length = 14 := by decide
    have h2 : (" (").length = 2 := by decide
    rw [String.length_append,String.length_append,h1,h2]
    simp
    omega
  unfold displayFaultBits
  rw [octetsAt_eq hv,ok_bind]
  split
  · exact fine_pure _
  · have hvect : ((msg.drop v.off).take v.len).length = v.len := by
      rw [List.length_take,List.length_drop]
      omega
    obtain ⟨hcount,hlt⟩ := faultNumbers_spec ((msg.drop v.off).take v.len) 0
    rw [hvect] at hcount hlt
    rw [sprintf_ok (by omega),ok_bind]
    obtain ⟨string,hstring,hle⟩ := sprintfFaults_ok
      (fun n hn => Nat.lt_of_lt_of_le (hlt n hn) (by omega)) true ("" ++ ("Fault Report: " ++ name ++ " (")) (by rw [String.length_append]; omega)
    rw [String.length_append] at hle
    have hend : (")\n").length = 2 := by decide
    rw [hstring,ok_bind,fine_map,sprintf_ok (by omega)]
    exact fine_ok _

end Text

section Messages

variable {lib : Libosmocore} {msg : List UInt8}

theorem faultMap_bounds {tag : Dei} {name : String} (h : faultMapName tag = some name) {v : Field}
    (htyped : v.Typed (om2kAttTlvdef tag)) : name.length ≤ 37 ∧ v.len ≤ 6 := by
  cases tag <;> cases h <;>
    exact ⟨String.length_ofList.le.trans (by decide),by simp only [om2kAttTlvdef,Field.Typed] at htyped; omega⟩

variable (msg) in
theorem displayElement_fine {tag : Dei} {v : Field} (hv : v.off + v.len ≤ msg.length)
    (htyped : v.Typed (om2kAttTlvdef tag)) : Fine (displayElement msg tag v) := by
  unfold displayElement
  cases hname : faultMapName tag with
  | none => exact fine_ok none
  | some name =>
    obtain ⟨hlen,h6⟩ := faultMap_bounds hname htyped
    exact displayFaultBits_fine hv h6 hlen

theorem faultMapsFrom_fine (n srcPos : Nat) (hlen : 10 ≤ msg.length) (hpos : srcPos ≤ msg.length - 10) :
    Fine (faultMapsFrom lib msg (msg.length - 10) n srcPos) := by
  induction n generalizing srcPos with
  | zero => exact fine_ok []
  | succ n ih =>
    rw [faultMapsFrom,octetsAt_eq (by omega),ok_bind]
    cases hone : lib.tlvOne.parseOne ((msg.drop (10 + srcPos)).take (msg.length - 10 - srcPos)) with
    | none => exact fine_pure _
    | some r =>
      obtain ⟨tag,v,rc⟩ := r
      obtain ⟨hin,hrc⟩ := lib.tlvOne.within _ _ _ _ hone
      rw [List.length_take,List.length_drop] at hin hrc
      have htyped := (lib.tlvOne.typed _ _ _ _ hone).shift (10 + srcPos)
      obtain ⟨text,htext⟩ := displayElement_fine msg (by dsimp only; omega) htyped
      dsimp only
      rw [htext,ok_bind]
      split
      · exact fine_pure _
      · obtain ⟨texts,htexts⟩ := ih (srcPos + rc) (by omega)
        rw [htexts,ok_bind]
        exact fine_pure _

variable (lib) in
theorem displayFaultMaps_fine (hlen : 10 ≤ msg.length) : Fine (displayFaultMaps lib msg) := by
  unfold displayFaultMaps
  rw [fine_sub_bind,fine_octetAt_bind,fine_sub_bind,fine_octetAt_bind,fine_sub_bind]
  refine ⟨by omega,by omega,by omega,by omega,by omega,?_⟩
  split
  · exact fine_pure _
  · rw [fine_sub_bind]
    refine ⟨by omega,?_⟩
    have hsrc : msg.length - 4 - 1 - 1 - 4 = msg.length - 10 := by omega
    rw [hsrc]
    exact faultMapsFrom_fine 11 0 hlen (Nat.zero_le _)

variable (lib) in
/-- The attributes are parsed where they fit, and those of one octet can be read. -/
theorem tlvParse_ok (h : AttrsFit msg) : ∃ tp, abisOm2kMsgTlvParse lib msg = .ok tp
    ∧ ∀ tag, om2kAttTlvdef tag = .tv → Fine (deiOctet msg (tp tag)) := by
  obtain ⟨h10,hlen⟩ := h
  unfold abisOm2kMsgTlvParse
  rw [octetAt_eq (by omega),ok_bind,octetsAt_eq (by omega),ok_bind]
  refine ⟨_,rfl,fun tag htag => ?_⟩
  cases hv : lib.tlv.parse ((msg.drop 10).take ((octet msg 3).toNat - 6)) tag with
  | none => exact fine_ok none
  | some v =>
    have hin := lib.tlv.within _ _ _ hv
    have htyped := lib.tlv.typed _ _ _ hv
    rw [List.length_take,List.length_drop] at hin
    rw [htag] at htyped
    have h1 : v.len = 1 := htyped
    rw [Option.map_some,deiOctet,fine_map,fine_octetAt]
    dsimp only
    omega

theorem tlvParse_fine_iff : Fine (abisOm2kMsgTlvParse lib msg) ∧ 10 ≤ msg.length ↔ AttrsFit msg := by
  constructor
  · rintro ⟨h,h10⟩
    unfold abisOm2kMsgTlvParse at h
    rw [fine_octetAt_bind,fine_octetsAt_bind] at h
    exact ⟨h10,by omega⟩
  · intro h
    obtain ⟨tp,htp,-⟩ := tlvParse_ok lib h
    exact ⟨⟨tp,htp⟩,h.1⟩

variable (lib) in
theorem om2kRxNack_ok (h : AttrsFit msg) : ∃ reason result, om2kRxNack lib msg = .ok (.nack reason result) := by
  obtain ⟨tp,htp,htv⟩ := tlvParse_ok lib h
  obtain ⟨reason,hreason⟩ := htv .reasonCode rfl
  obtain ⟨result,hresult⟩ := htv .resultCode rfl
  unfold om2kRxNack
  rw [htp,ok_bind,hreason,ok_bind,hresult,ok_bind]
  exact ⟨reason,result,rfl⟩

variable (lib) in
/-- A message whose attributes fit is dealt with, and a Negotiation Request is answered as it should be. -/
theorem om2kDispatch_right_iff (h : AttrsFit msg) (msgType : Nat) :
    (∃ action, om2kDispatch lib msg msgType = .ok action ∧ action.Right msg) ↔
      (msgType = 0x0106 → OffersFit msg) := by
  unfold om2kDispatch
  by_cases hfault : msgType = 0x0042
  · obtain ⟨texts,htexts⟩ := displayFaultMaps_fine lib h.1
    rw [if_pos hfault,htexts]
    exact iff_of_true ⟨_,rfl,trivial⟩ fun hnegot => by omega
  rw [if_neg hfault]
  by_cases hnegot : msgType = 0x0106
  · rw [if_pos hnegot,imp_iff_right hnegot]
    constructor
    · rintro ⟨action,hok,hright⟩
      cases hreq : om2kRxNegotReq msg with
      | error e =>
        rw [hreq] at hok
        cases hok
      | ok answer =>
        rw [hreq] at hok
        cases hok
        obtain ⟨offers,hoff,-⟩ := om2kRxNegotReq_ok_iff.mp hreq
        refine ⟨⟨offers,hoff⟩,fun offers hoff => ?_⟩
        rw [om2kRxNegotReq_ok_iff.mpr ⟨offers,hoff,rfl⟩] at hreq
        cases hreq
        exact answers_iff.mp (hright offers hoff)
    · rintro ⟨⟨offers,hoff⟩,hvers⟩
      have hreq := om2kRxNegotReq_ok_iff.mpr ⟨offers,hoff,rfl⟩
      rw [hreq]
      refine ⟨_,rfl,fun offers' hoff' => ?_⟩
      rw [om2kRxNegotReq_ok_iff.mpr ⟨offers',hoff',rfl⟩] at hreq
      rw [← Except.ok.inj hreq]
      exact answers_iff.mpr (hvers offers' hoff')
  · rw [if_neg hnegot]
    refine iff_of_true ?_ fun h => absurd h hnegot
    split
    · obtain ⟨reason,result,hnack⟩ := om2kRxNack_ok lib h
      exact ⟨_,hnack,trivial⟩
    · exact ⟨.other,rfl,trivial⟩

theorem om2kSafe_iff : Om2kSafe lib msg ↔ Om2kFits lib msg := by
  unfold Om2kSafe Om2kFits abisOm2kRcvmsg Refused
  by_cases h6 : 6 ≤ msg.length
  · rw [and_iff_right h6,octetAt_eq (by omega),octetAt_eq (by omega),octetAt_eq (by omega),octetAt_eq (by omega),
      octetAt_eq (by omega)]
    simp only [ok_bind]
    by_cases href : (octet msg 1 ≠ lib.only ∧ octet msg 1 ≠ lib.first) ∨ octet msg 2 ≠ 0 ∨ octet msg 0 ≠ lib.fom
    · rw [if_pos href]
      exact iff_of_true ⟨none,rfl,fun _ _ h => by cases h⟩ (.inl href)
    rw [if_neg href,or_iff_right href]
    constructor
    · rintro ⟨r,hr,hright⟩
      have hfine : Fine _ := ⟨r,hr⟩
      rw [fine_octetsAt_bind] at hfine
      have hattrs := tlvParse_fine_iff.mp ⟨hfine.2.of_bind,by omega⟩
      obtain ⟨tp,htp,htv⟩ := tlvParse_ok lib hattrs
      obtain ⟨moState,hmo⟩ := htv .moState rfl
      rw [octetsAt_eq (by omega),ok_bind,htp,ok_bind,hmo,ok_bind] at hr
      cases hdisp : om2kDispatch lib msg (msgCode (octet msg 4) (octet msg 5)) with
      | error e =>
        rw [hdisp] at hr
        cases hr
      | ok action =>
        rw [hdisp] at hr
        cases hr
        exact ⟨hattrs,(om2kDispatch_right_iff lib hattrs _).mp ⟨action,hdisp,hright moState action rfl⟩⟩
    · rintro ⟨hattrs,hoffers⟩
      obtain ⟨tp,htp,htv⟩ := tlvParse_ok lib hattrs
      obtain ⟨moState,hmo⟩ := htv .moState rfl
      obtain ⟨action,hdisp,hright⟩ := (om2kDispatch_right_iff lib hattrs _).mpr hoffers
      have h10 := hattrs.1
      rw [octetsAt_eq (by omega),ok_bind,htp,ok_bind,hmo,ok_bind,hdisp]
      refine ⟨_,rfl,fun moState' action' h => ?_⟩
      cases h
      exact hright
  · refine iff_of_false (fun hsafe => ?_) fun h => h6 h.1
    obtain ⟨r,hr,-⟩ := hsafe
    have hfine : Fine _ := ⟨r,hr⟩
    rw [fine_octetAt_bind,fine_octetAt_bind] at hfine
    omega

theorem putFreqs_fine (bits : List Bool) (i : Nat) {list : List UInt8} (hlen : list.length ≤ 64 * 3) :
    Fine (putFreqs bits i list) ↔ list.length + 3 * bits.count true ≤ 64 * 3 := by
  induction bits generalizing i list with
  | nil => exact iff_of_true (fine_ok list) hlen
  | cons bit bits ih =>
    rw [putFreqs]
    cases bit with
    | false =>
      rw [if_neg Bool.false_ne_true,ok_bind,ih (i + 1) hlen]
      simp
    | true =>
      rw [if_pos rfl,putFreqList]
      by_cases hroom : list.length + 3 ≤ 64 * 3
      · rw [if_pos hroom,ok_bind,ih (i + 1) (by simpa using hroom)]
        simp only [List.length_append,List.length_cons,List.length_nil,List.count_cons_self]
        omega
      · rw [if_neg hroom]
        refine iff_of_false (not_fine_error _) ?_
        rw [List.count_cons_self]
        omega

theorem om2kGenFreqList_fine (ts : FreqTs) : Fine (om2kGenFreqList ts) ↔ ts.Fits := by
  unfold om2kGenFreqList FreqTs.Fits
  cases ts.hopping with
  | false => exact iff_of_true (fine_ok _) fun h => absurd h Bool.false_ne_true
  | true =>
    rw [if_pos rfl,putFreqs_fine _ _ (Nat.zero_le _),imp_iff_right rfl,List.length_nil]
    omega

end Messages

/-- Messages are read in bounds, the text of a fault fits its buffer, and offers are answered with one of the
versions each, if and only if the lengths in the message fit and it is a list of offers; a list of frequencies
fits its buffer if and only if no more than 64 are hopped over. -/
theorem om2k_bounds_iff (lib : Libosmocore) :
    (∀ msg, Om2kSafe lib msg ↔ Om2kFits lib msg) ∧ ∀ ts, Fine (om2kGenFreqList ts) ↔ ts.Fits :=
  ⟨fun _ => om2kSafe_iff,om2kGenFreqList_fine⟩

/-- Parsers of messages without any of the attributes that are read. -/
def libosmocore : Libosmocore where
  fom := 0x80
  only := 0x80
  first := 0x40
  tlv := ⟨fun _ _ => none,fun _ _ _ h => (by cases h),fun _ _ _ h => (by cases h)⟩
  tlvOne := ⟨fun _ => none,fun _ _ _ _ h => (by cases h),fun _ _ _ _ h => (by cases h)⟩

def negotReq16 : List UInt8 :=
  [0x80,0x80,0,17,0x01,0x06,0x0a,0,0xff,0,0x9d,9,1,1,16,0x47,0x31,0x30,0x52,0x30,0x31]

/-- Type 16 is behind the end of the table, and 65 frequencies are more than the buffer holds. -/
theorem om2k_overfull : ¬ Om2kSafe libosmocore negotReq16
    ∧ ¬ Fine (om2kGenFreqList ⟨true,List.replicate 65 true,1⟩) := by
  constructor
  · rintro ⟨r,hr,-⟩
    have hrun : abisOm2kRcvmsg libosmocore negotReq16 = .error .overfull := by decide
    rw [hrun] at hr
    cases hr
  · intro h
    have hcount := (om2kGenFreqList_fine _).mp h rfl
    rw [List.count_replicate_self] at hcount
    omega

end OsmoBsc.Om2k
