import OsmoBsc.Filter.Model
set_option autoImplicit false

/-! Which octets of a message the parsers of classmarks and mobile identities look at. -/

namespace OsmoBsc.Filter

/-- A parser reads the octet at an offset of the message, or hands on what it takes to be so many octets of a
classmark or a mobile identity. -/
inductive Access where
  | read (off : Nat)
  | pass (off n : Nat)
  deriving DecidableEq, Repr

def Access.Inside (len : Nat) : Access → Prop
  | .read off => off < len
  | .pass off n => off + n ≤ len

def Access.Same (msg msg' : L3Msg) : Access → Prop
  | .read off => msg.buf off = msg'.buf off
  | .pass off n => msg.octets off n = msg'.octets off n

section Accesses

variable (msg : L3Msg)

/-- What `gsm48_extract_mi` looks at. -/
def extractMiAccesses (at' : Nat) (length : Int) : List Access :=
  let cm := (msg.buf at').toNat
  let mi := at' + cm + 1
  .read at' ::
    if length < 1 + cm then []
    else .read mi ::
      if length < 2 + cm + (msg.buf mi).toNat then []
      else [.read (mi + 1),.pass (mi + 1) (msg.buf mi).toNat]

/-- `gsm48_paging_extract_mi`; the classmark is the second octet of `struct gsm48_pag_resp`. -/
def gsm48PagingExtractMi (lib : Libosmogsm) (at' : Nat) (length : Nat) : Int × Option (Text × UInt8) :=
  gsm48ExtractMi lib msg (at' + 1) (asInt (length + 2^32 - 1))

/-- The identity that extract_sub() looks up; the two structs have eight octets. -/
def extractSub (lib : Libosmogsm) : Option (Int × Option (Text × UInt8)) :=
  if msg.dataLen < 6 then none else some (gsm48PagingExtractMi msg lib 2 msg.dataLen)

/-- `handle_classmark_chg`: classmark 2, and classmark 3 if there is one, of a Classmark Update. -/
def handleClassmarkChg : Option (List UInt8 × Option (List UInt8)) :=
  let cm2Len := (msg.buf 2).toNat
  if 3 < cm2Len then none
  else if cm2Len + 1 < msg.dataLen then
    if msg.buf (cm2Len + 3) ≠ 0x20 then none
    else
      let cm3Len := (msg.buf (cm2Len + 4)).toNat
      if 14 < cm3Len then none
      else some (msg.octets 3 cm2Len,some (msg.octets (cm2Len + 5) cm3Len))
  else some (msg.octets 3 cm2Len,none)

def classmarkChgAccesses : List Access :=
  let cm2Len := (msg.buf 2).toNat
  .read 2 ::
    if 3 < cm2Len then []
    else if cm2Len + 1 < msg.dataLen then
      .read (cm2Len + 3) ::
        if msg.buf (cm2Len + 3) ≠ 0x20 then []
        else
          let cm3Len := (msg.buf (cm2Len + 4)).toNat
          .read (cm2Len + 4) ::
            if 14 < cm3Len then [] else [.pass 3 cm2Len,.pass (cm2Len + 5) cm3Len]
    else [.pass 3 cm2Len]

/-- The look of `_cr_check_cm_serv_req`, and of `_cr_check_pag_resp` and extract_sub(), at an identity. -/
def classmarkAccesses : List Access :=
  if msg.dataLen < 6 then [] else extractMiAccesses msg 3 (asInt (msg.dataLen + 2^32 - 1))

def idRespAccesses : List Access :=
  if msg.dataLen < 2 then []
  else .read 2 ::
    if (msg.buf 2).toNat < msg.dataLen - 1 then [] else [.read 3,.pass 3 (msg.buf 2).toNat]

end Accesses

inductive L3Parser where
  | classmarkChg
  | cmServReq
  | pagResp
  | idResp
  deriving DecidableEq, Repr

/-- dispatch_dtap() and bsc_find_msc() refuse a message that is shorter than its header. -/
def L3Parser.accesses (msg : L3Msg) (p : L3Parser) : List Access :=
  if msg.len < 2 then []
  else match p with
    | .classmarkChg => classmarkChgAccesses msg
    | .cmServReq | .pagResp => classmarkAccesses msg
    | .idResp => idRespAccesses msg

/-- What the parsers return; a Paging Response is checked by the filter, and its identity looked up. -/
inductive Parsed where
  | classmarkChg (classmarks : Option (List UInt8 × Option (List UInt8)))
  | cmServReq (check : Check)
  | pagResp (check : Check) (mi : Option (Int × Option (Text × UInt8)))
  | idResp (imsi : Except Int (Option Imsi))

def L3Parser.parsed (lib : Libosmogsm) (msg : L3Msg) (p : L3Parser) : Option Parsed :=
  if msg.len < 2 then none
  else match p with
    | .classmarkChg => some (.classmarkChg (handleClassmarkChg msg))
    | .cmServReq => some (.cmServReq (crCheckClassmark lib msg))
    | .pagResp => some (.pagResp (crCheckPagResp lib msg) (extractSub msg lib))
    | .idResp => some (.idResp (idRespImsi lib msg))

/-- The lengths in a message fit its length, as far as the parser does not refuse it before. -/
def L3Parser.Fits (msg : L3Msg) : L3Parser → Prop
  | .classmarkChg =>
    let cm2Len := (msg.buf 2).toNat
    let payload := msg.len - 2
    1 ≤ payload ∧ (3 < cm2Len ∨ payload = cm2Len + 1
      ∨ (cm2Len + 1 < payload ∧ (msg.buf (cm2Len + 3) ≠ 0x20 ∨ (cm2Len + 3 ≤ payload
        ∧ (14 < (msg.buf (cm2Len + 4)).toNat ∨ cm2Len + 3 + (msg.buf (cm2Len + 4)).toNat ≤ payload)))))
  | .cmServReq | .pagResp =>
    let cm2Len := (msg.buf 3).toNat
    let length := msg.len - 3
    length < 5 ∨ (length ≠ cm2Len + 1 ∧ ¬ (length = cm2Len + 2 ∧ msg.buf (cm2Len + 4) = 0))
  | .idResp => msg.len < 4 ∨ (msg.buf 2).toNat ≤ msg.len - 3

section Inside

variable {msg : L3Msg}

theorem dataLen_eq (h2 : 2 ≤ msg.len) (hlen : msg.len < 2 ^ 31) : msg.dataLen = msg.len - 2 := by
  rw [L3Msg.dataLen,if_neg (by omega)]
  omega

@[simp] theorem inside_read {len off : Nat} : (Access.read off).Inside len ↔ off < len := Iff.rfl

@[simp] theorem inside_pass {len off n : Nat} : (Access.pass off n).Inside len ↔ off + n ≤ len := Iff.rfl

theorem toNat_eq_zero (octet : UInt8) : octet = 0 ↔ octet.toNat = 0 := by
  rw [← UInt8.toNat_inj]
  rfl

theorem extractMi_inside_iff (msg : L3Msg) (at' n : Nat) :
    (∀ a ∈ extractMiAccesses msg at' n, a.Inside (at' + n)) ↔
      1 ≤ n ∧ n ≠ (msg.buf at').toNat + 1
        ∧ ¬ (n = (msg.buf at').toNat + 2 ∧ msg.buf (at' + (msg.buf at').toNat + 1) = 0) := by
  unfold extractMiAccesses
  dsimp only
  generalize (msg.buf at').toNat = cm
  rw [toNat_eq_zero]
  generalize (msg.buf (at' + cm + 1)).toNat = mi
  rw [List.forall_mem_cons,inside_read]
  by_cases hshort : (n : Int) < 1 + cm
  · rw [if_pos hshort,and_iff_left (List.forall_mem_nil _)]
    omega
  rw [if_neg hshort,List.forall_mem_cons,inside_read]
  by_cases hmi : (n : Int) < 2 + cm + mi
  · rw [if_pos hmi,and_iff_left (List.forall_mem_nil _)]
    omega
  · rw [if_neg hmi,List.forall_mem_cons,List.forall_mem_singleton,inside_read,inside_pass]
    omega

theorem classmark_inside_iff (h2 : 2 ≤ msg.len) (hlen : msg.len < 2 ^ 31) :
    (∀ a ∈ classmarkAccesses msg, a.Inside msg.len) ↔ L3Parser.cmServReq.Fits msg := by
  unfold classmarkAccesses
  rw [dataLen_eq h2 hlen]
  by_cases hshort : msg.len - 2 < 6
  · rw [if_pos hshort]
    exact iff_of_true (List.forall_mem_nil _) (.inl (by omega))
  · rw [if_neg hshort]
    have hlength : asInt (msg.len - 2 + 2 ^ 32 - 1) = ((msg.len - 3 : Nat) : Int) := by
      unfold asInt
      split <;> omega
    have hiff := extractMi_inside_iff msg 3 (msg.len - 3)
    rw [show 3 + (msg.len - 3) = msg.len by omega] at hiff
    rw [hlength,hiff]
    unfold L3Parser.Fits
    dsimp only
    rw [show 3 + (msg.buf 3).toNat + 1 = (msg.buf 3).toNat + 4 by omega,or_iff_right (by omega),
      and_iff_right (by omega)]

theorem idResp_inside_iff (h2 : 2 ≤ msg.len) (hlen : msg.len < 2 ^ 31) :
    (∀ a ∈ idRespAccesses msg, a.Inside msg.len) ↔ L3Parser.idResp.Fits msg := by
  unfold idRespAccesses L3Parser.Fits
  rw [dataLen_eq h2 hlen]
  by_cases hshort : msg.len - 2 < 2
  · rw [if_pos hshort]
    exact iff_of_true (List.forall_mem_nil _) (.inl (by omega))
  rw [if_neg hshort,List.forall_mem_cons,inside_read]
  by_cases hmi : (msg.buf 2).toNat < msg.len - 2 - 1
  · rw [if_pos hmi,and_iff_left (List.forall_mem_nil _)]
    omega
  · rw [if_neg hmi,List.forall_mem_cons,List.forall_mem_singleton,inside_read,inside_pass]
    omega

theorem classmarkChg_inside_iff (h2 : 2 ≤ msg.len) (hlen : msg.len < 2 ^ 31) :
    (∀ a ∈ classmarkChgAccesses msg, a.Inside msg.len) ↔ L3Parser.classmarkChg.Fits msg := by
  unfold classmarkChgAccesses L3Parser.Fits
  rw [dataLen_eq h2 hlen]
  dsimp only
  generalize (msg.buf 2).toNat = cm2Len
  generalize (msg.buf (cm2Len + 4)).toNat = cm3Len
  rw [List.forall_mem_cons,inside_read]
  by_cases hcm2 : 3 < cm2Len
  · rw [if_pos hcm2,and_iff_left (List.forall_mem_nil _)]
    omega
  rw [if_neg hcm2]
  by_cases hmore : cm2Len + 1 < msg.len - 2
  · rw [if_pos hmore,List.forall_mem_cons,inside_read]
    by_cases htag : msg.buf (cm2Len + 3) ≠ 0x20
    · rw [if_pos htag,and_iff_left (List.forall_mem_nil _)]
      simp only [htag,ne_eq,not_false_eq_true,true_or,and_true]
      omega
    rw [if_neg htag,List.forall_mem_cons,inside_read]
    by_cases hcm3 : 14 < cm3Len
    · rw [if_pos hcm3,and_iff_left (List.forall_mem_nil _)]
      simp only [htag,false_or]
      omega
    · rw [if_neg hcm3,List.forall_mem_cons,List.forall_mem_singleton,inside_pass,inside_pass]
      simp only [htag,false_or]
      omega
  · rw [if_neg hmore,List.forall_mem_singleton,inside_pass]
    omega

end Inside

/-- A parser stays inside a message if and only if the lengths in the message fit. -/
theorem l3Parser_inside_iff (p : L3Parser) (msg : L3Msg) (hlen : msg.len < 2 ^ 31) :
    (∀ a ∈ p.accesses msg, a.Inside msg.len) ↔ (2 ≤ msg.len → p.Fits msg) := by
  unfold L3Parser.accesses
  by_cases h2 : msg.len < 2
  · rw [if_pos h2]
    exact iff_of_true (List.forall_mem_nil _) fun h => absurd h2 (Nat.not_lt.mpr h)
  · rw [if_neg h2,imp_iff_right (Nat.not_lt.mp h2)]
    cases p with
    | classmarkChg => exact classmarkChg_inside_iff (Nat.not_lt.mp h2) hlen
    | cmServReq => exact classmark_inside_iff (Nat.not_lt.mp h2) hlen
    | pagResp => exact classmark_inside_iff (Nat.not_lt.mp h2) hlen
    | idResp => exact idResp_inside_iff (Nat.not_lt.mp h2) hlen

/-- A message of these octets; what follows them in the buffer is zero. -/
def L3Msg.ofOctets (octets : List UInt8) : L3Msg := ⟨fun off => octets.getD off 0,octets.length⟩

theorem l3Parser_inside_iff_clsmChg :
    L3Parser.classmarkChg.accesses (.ofOctets [0x06,0x16,3,1,2,3,0x20,1,4]) ≠ []
      ∧ ∀ a ∈ L3Parser.classmarkChg.accesses (.ofOctets [0x06,0x16,3,1,2,3,0x20,1,4]),a.Inside 9 :=
  ⟨by decide,(l3Parser_inside_iff .classmarkChg (.ofOctets [0x06,0x16,3,1,2,3,0x20,1,4]) (by decide)).mpr
    fun _ => ⟨by decide,.inr (.inr ⟨by decide,.inr ⟨by decide,.inr (by decide)⟩⟩)⟩⟩

/-- An Identity Response of four octets with an identity of nine. -/
theorem idResp_passes_outside :
    ¬ ∀ a ∈ L3Parser.idResp.accesses (.ofOctets [0x05,0x19,9,0x29]),a.Inside 4 := by
  intro h
  have hpass := inside_pass.mp (h (.pass 3 9) (by decide))
  omega

section Congr

variable {lib : Libosmogsm} {msg msg' : L3Msg}

theorem extractMi_congr {at' : Nat} {length : Int}
    (h : ∀ a ∈ extractMiAccesses msg at' length, a.Same msg msg') :
    gsm48ExtractMi lib msg at' length = gsm48ExtractMi lib msg' at' length := by
  unfold extractMiAccesses at h
  unfold gsm48ExtractMi
  dsimp only at h ⊢
  rw [List.forall_mem_cons] at h
  obtain ⟨hcm,h⟩ := h
  rw [← (hcm : msg.buf at' = msg'.buf at')]
  by_cases hshort : length < 1 + (msg.buf at').toNat
  · rw [if_pos hshort,if_pos hshort]
  rw [if_neg hshort,List.forall_mem_cons] at h
  rw [if_neg hshort,if_neg hshort]
  obtain ⟨hmi,h⟩ := h
  rw [← (hmi : msg.buf _ = msg'.buf _)]
  split at h
  · next hfit => rw [if_pos hfit,if_pos hfit]
  · next hfit =>
    rw [List.forall_mem_cons,List.forall_mem_singleton] at h
    rw [if_neg hfit,if_neg hfit,← (h.1 : msg.buf _ = msg'.buf _),← (h.2 : msg.octets _ _ = msg'.octets _ _)]

theorem crCheckClassmark_congr (hlen : msg.len = msg'.len)
    (h : ∀ a ∈ classmarkAccesses msg, a.Same msg msg') :
    crCheckClassmark lib msg = crCheckClassmark lib msg' := by
  have hdata : msg.dataLen = msg'.dataLen := by rw [L3Msg.dataLen,L3Msg.dataLen,hlen]
  unfold classmarkAccesses at h
  unfold crCheckClassmark
  rw [← hdata]
  by_cases hshort : msg.dataLen < 6
  · rw [if_pos hshort,if_pos hshort]
  · rw [if_neg hshort] at h
    rw [if_neg hshort,if_neg hshort,extractMi_congr h]

theorem extractSub_congr (hlen : msg.len = msg'.len)
    (h : ∀ a ∈ classmarkAccesses msg, a.Same msg msg') : extractSub msg lib = extractSub msg' lib := by
  have hdata : msg.dataLen = msg'.dataLen := by rw [L3Msg.dataLen,L3Msg.dataLen,hlen]
  unfold classmarkAccesses at h
  unfold extractSub gsm48PagingExtractMi
  rw [← hdata]
  by_cases hshort : msg.dataLen < 6
  · rw [if_pos hshort,if_pos hshort]
  · rw [if_neg hshort] at h
    rw [if_neg hshort,if_neg hshort,extractMi_congr h]

theorem idRespImsi_congr (hlen : msg.len = msg'.len)
    (h : ∀ a ∈ idRespAccesses msg, a.Same msg msg') : idRespImsi lib msg = idRespImsi lib msg' := by
  have hdata : msg.dataLen = msg'.dataLen := by rw [L3Msg.dataLen,L3Msg.dataLen,hlen]
  unfold idRespAccesses at h
  unfold idRespImsi
  rw [← hdata]
  by_cases hshort : msg.dataLen < 2
  · rw [if_pos hshort,if_pos hshort]
  rw [if_neg hshort,List.forall_mem_cons] at h
  rw [if_neg hshort,if_neg hshort]
  obtain ⟨hmi,h⟩ := h
  rw [← (hmi : msg.buf 2 = msg'.buf 2)]
  split at h
  · next hfit => rw [if_pos hfit,if_pos hfit]
  · next hfit =>
    rw [List.forall_mem_cons,List.forall_mem_singleton] at h
    rw [if_neg hfit,if_neg hfit,← (h.1 : msg.buf 3 = msg'.buf 3),
      ← (h.2 : msg.octets _ _ = msg'.octets _ _)]

theorem handleClassmarkChg_congr (hlen : msg.len = msg'.len)
    (h : ∀ a ∈ classmarkChgAccesses msg, a.Same msg msg') :
    handleClassmarkChg msg = handleClassmarkChg msg' := by
  have hdata : msg.dataLen = msg'.dataLen := by rw [L3Msg.dataLen,L3Msg.dataLen,hlen]
  unfold classmarkChgAccesses at h
  unfold handleClassmarkChg
  dsimp only at h ⊢
  rw [← hdata]
  rw [List.forall_mem_cons] at h
  obtain ⟨hcm2,h⟩ := h
  rw [← (hcm2 : msg.buf 2 = msg'.buf 2)]
  by_cases hlong : 3 < (msg.buf 2).toNat
  · rw [if_pos hlong,if_pos hlong]
  rw [if_neg hlong] at h
  rw [if_neg hlong,if_neg hlong]
  by_cases hmore : (msg.buf 2).toNat + 1 < msg.dataLen
  · rw [if_pos hmore,List.forall_mem_cons] at h
    rw [if_pos hmore,if_pos hmore]
    obtain ⟨htag,h⟩ := h
    rw [← (htag : msg.buf _ = msg'.buf _)]
    split at h
    · next hbad => rw [if_pos hbad,if_pos hbad]
    next hgood =>
    rw [if_neg hgood,if_neg hgood]
    rw [List.forall_mem_cons] at h
    obtain ⟨hcm3,h⟩ := h
    rw [← (hcm3 : msg.buf _ = msg'.buf _)]
    split at h
    · next hbad => rw [if_pos hbad,if_pos hbad]
    · next hfit =>
      rw [List.forall_mem_cons,List.forall_mem_singleton] at h
      rw [if_neg hfit,if_neg hfit,← (h.1 : msg.octets _ _ = msg'.octets _ _),
        ← (h.2 : msg.octets _ _ = msg'.octets _ _)]
  · rw [if_neg hmore,List.forall_mem_singleton] at h
    rw [if_neg hmore,if_neg hmore,← (h : msg.octets _ _ = msg'.octets _ _)]

theorem l3Parser_congr (p : L3Parser) (hlen : msg.len = msg'.len)
    (h : ∀ a ∈ p.accesses msg, a.Same msg msg') : p.parsed lib msg = p.parsed lib msg' := by
  unfold L3Parser.accesses at h
  unfold L3Parser.parsed
  rw [← hlen]
  by_cases h2 : msg.len < 2
  · rw [if_pos h2,if_pos h2]
  rw [if_neg h2] at h
  rw [if_neg h2,if_neg h2]
  cases p with
  | classmarkChg => exact congrArg (fun r => some (Parsed.classmarkChg r)) (handleClassmarkChg_congr hlen h)
  | cmServReq => exact congrArg (fun r => some (Parsed.cmServReq r)) (crCheckClassmark_congr hlen h)
  | pagResp =>
    exact congrArg₂ (fun r mi => some (Parsed.pagResp r mi)) (crCheckClassmark_congr hlen h)
      (extractSub_congr hlen h)
  | idResp => exact congrArg (fun r => some (Parsed.idResp r)) (idRespImsi_congr hlen h)

end Congr

end OsmoBsc.Filter
