import Mathlib.Order.Bounds.Basic
import Mathlib.Tactic.IntervalCases
import OsmoBsc.Chan.SubscrConnFsm
set_option autoImplicit false

/-! The Cipher Mode Command of the MSC. -/

namespace OsmoBsc.Bssap
open EventFsm Chan

/-- `struct gsm_encr`, with the key as far as `key_len` says. -/
structure Encr where
  algId : BitVec 8
  key : List (BitVec 8)
  deriving DecidableEq, Repr

/-- What the command uses of a connection: `lchan` has the encryption of the primary lchan, and `sccpUp`
says that osmo_bsc_sigtran_send() delivers. -/
structure CipherConn where
  state : ConnState
  sccpUp : Bool := true
  cipheringHandled : Bool := false
  lchan : Option Encr
  deriving DecidableEq, Repr

structure CipherModeCmd where
  encryptionInformation : Option (List (BitVec 8))
  cipherResponseMode : Option (BitVec 8) := none
  deriving DecidableEq, Repr

/-- `a5_encryption_mask`, and whether abis_rsl_sendmsg() takes a message. -/
structure CipherNet where
  a5EncryptionMask : BitVec 8
  rslUp : Bool := true
  deriving DecidableEq, Repr

inductive CipherRejectCause where
  | protocolErrorBetweenBssAndMsc
  | informationElementOrFieldMissing
  | incorrectValue
  | cipheringAlgorithmNotSupported
  deriving DecidableEq, Repr

inductive CipherMsg where
  /-- The RSL ENCRYPTION COMMAND with the octet behind the RR header of the Ciphering Mode Command. -/
  | encryptionCmd (encrInfo : List (BitVec 8)) (ciphModSet : BitVec 8)
  | cipherModeReject (cause : CipherRejectCause)
  deriving DecidableEq, Repr

def maxA5KeyLen : Nat := 16

def selectBestCipher (mscMask bscMask : BitVec 8) : Option Nat :=
  [7,6,5,4,3,2,1,0].find? fun i => (mscMask &&& bscMask).getLsbD i

def rslEncAlgA5 (n : Nat) : BitVec 8 := BitVec.ofNat 8 (n + 1)

/-- `gsm48_send_rr_ciph_mode` and `rsl_encryption_cmd`. -/
def gsm48SendRrCiphMode (net : CipherNet) (encr : Encr) (wantImeisv : BitVec 8) : Bool × List CipherMsg :=
  let ciphModSet : BitVec 8 := if encr.algId ≤ rslEncAlgA5 0 then 0 else ((encr.algId - 2) <<< 1) ||| 1
  if !net.rslUp then (false,[])
  else (true,[CipherMsg.encryptionCmd (encr.algId :: encr.key)
    (((wantImeisv &&& 0x1) <<< 4) ||| (ciphModSet &&& 0xf))])

/-- Whether all went well, the encryption of the lchan then, and what is sent. The key is never NULL. -/
def gsm0808CipherMode (net : CipherNet) (encr : Encr) (cipher : Nat) (key : List (BitVec 8))
    (includeImeisv : BitVec 8) : Bool × Encr × List CipherMsg :=
  if maxA5KeyLen < key.length then (false,encr,[])
  else
    let encr := ⟨rslEncAlgA5 cipher,key⟩
    let (ok,sent) := gsm48SendRrCiphMode net encr includeImeisv
    (ok,encr,sent)

/-- The label `reject`: a connection that does not permit the event, or whose SCCP connection is gone,
sends nothing. -/
def CipherConn.reject (conn : CipherConn) (cause : CipherRejectCause) : CipherConn × List CipherMsg :=
  (conn,if gsconFsm.inEvent conn.state .txSccp && conn.sccpUp then [CipherMsg.cipherModeReject cause] else [])

def bssmapHandleCipherMode (net : CipherNet) (conn : CipherConn) (cmd : CipherModeCmd) :
    Except Fault (CipherConn × List CipherMsg) :=
  if conn.cipheringHandled then .ok (conn.reject .protocolErrorBetweenBssAndMsc)
  else
    let conn := { conn with cipheringHandled := true }
    match cmd.encryptionInformation with
    | none => .ok (conn.reject .informationElementOrFieldMissing)
    | some [] => .ok (conn.reject .incorrectValue)
    | some (encBitsMsc :: encKey) => match conn.lchan with
      | none => .error .assertFailed
      | some encr =>
        let includeImeisv := (cmd.cipherResponseMode.map fun v => v &&& 0x1).getD 1
        match selectBestCipher encBitsMsc net.a5EncryptionMask with
        | none => .ok (conn.reject .cipheringAlgorithmNotSupported)
        | some chosenCipher =>
          let (ok,encr,sent) := gsm0808CipherMode net encr chosenCipher encKey includeImeisv
          let conn := { conn with lchan := some encr }
          if ok then .ok (conn,sent)
          else
            let (conn,rejected) := conn.reject .protocolErrorBetweenBssAndMsc
            .ok (conn,sent ++ rejected)

def cipherModeSetting (n : Nat) : BitVec 8 := if n = 0 then 0 else BitVec.ofNat 8 (2 * n - 1)

/-- One Ciphering Mode Command goes out, with the highest common algorithm and the key of the message,
which is not empty unless there is no ciphering; or one Cipher Mode Reject, and nothing has changed. -/
def Atomic (net : CipherNet) (conn : CipherConn) (cmd : CipherModeCmd)
    (result : Except Fault (CipherConn × List CipherMsg)) : Prop :=
  (∃ conn' n mscMask key ciphModSet, cmd.encryptionInformation = some (mscMask :: key)
    ∧ IsGreatest {i | mscMask.getLsbD i = true ∧ net.a5EncryptionMask.getLsbD i = true} n
    ∧ (0 < n → key ≠ [])
    ∧ result = .ok (conn',[CipherMsg.encryptionCmd (rslEncAlgA5 n :: key) ciphModSet])
    ∧ ciphModSet &&& 0xf = cipherModeSetting n)
  ∨ ∃ cause, result = .ok (conn,[CipherMsg.cipherModeReject cause])

/-- The command was handled before and the reject can be sent, or the command can be carried out. -/
def Acceptable (net : CipherNet) (conn : CipherConn) (cmd : CipherModeCmd) : Prop :=
  if conn.cipheringHandled then gsconFsm.inEvent conn.state .txSccp = true ∧ conn.sccpUp = true
  else ∃ mscMask key n, cmd.encryptionInformation = some (mscMask :: key) ∧ conn.lchan.isSome = true
    ∧ selectBestCipher mscMask net.a5EncryptionMask = some n ∧ (0 < n → key ≠ [])
    ∧ key.length ≤ maxA5KeyLen ∧ net.rslUp = true

section Proof

variable {net : CipherNet} {conn : CipherConn} {cmd : CipherModeCmd} {mscMask bscMask : BitVec 8} {n : Nat}

theorem find?_greatest {p : Nat → Bool} {l : List Nat} (hl : l.Pairwise (· > ·)) (h : l.find? p = some n) :
    ∀ i ∈ l, p i = true → i ≤ n := by
  obtain ⟨-,before,after,rfl,hbefore⟩ := List.find?_eq_some_iff_append.mp h
  intro i hi hp
  obtain hi | hi := List.mem_append.mp hi
  · have hnot := hbefore i hi
    rw [hp] at hnot
    cases hnot
  · cases hi with
    | head => exact le_rfl
    | tail _ hi =>
      have hafter := (List.pairwise_cons.mp (List.pairwise_append.mp hl).2.1).1 i hi
      exact Nat.le_of_lt hafter

theorem selectBestCipher_isGreatest (h : selectBestCipher mscMask bscMask = some n) :
    IsGreatest {i | mscMask.getLsbD i = true ∧ bscMask.getLsbD i = true} n := by
  have hmem : ∀ i, (mscMask &&& bscMask).getLsbD i = true ↔
      mscMask.getLsbD i = true ∧ bscMask.getLsbD i = true := by
    intro i
    rw [BitVec.getLsbD_and,Bool.and_eq_true]
  refine ⟨(hmem n).mp (List.find?_some h),fun i hi => ?_⟩
  have hi8 : i < 8 := BitVec.lt_of_getLsbD hi.1
  have hall : ∀ i < 8, i ∈ [7,6,5,4,3,2,1,0] := by decide
  exact find?_greatest (by decide) h i (hall i hi8) ((hmem i).mpr hi)

theorem cipherModeSetting_eq (hn : n < 8) :
    ((if rslEncAlgA5 n ≤ rslEncAlgA5 0 then 0 else ((rslEncAlgA5 n - 2) <<< 1) ||| 1) : BitVec 8) &&& 0xf
      = cipherModeSetting n := by
  revert n
  decide

theorem selectBestCipher_lt (h : selectBestCipher mscMask bscMask = some n) : n < 8 :=
  BitVec.lt_of_getLsbD (selectBestCipher_isGreatest h).1.1

theorem low_nibble (v x : BitVec 8) : (((v &&& 0x1) <<< 4) ||| (x &&& 0xf)) &&& 0xf = x &&& 0xf := by
  refine BitVec.eq_of_getLsbD_eq fun i hi => ?_
  interval_cases i <;> simp

theorem gsm0808CipherMode_sends (encr : Encr) (hn : n < 8) {key : List (BitVec 8)} (includeImeisv : BitVec 8)
    (h : key.length ≤ maxA5KeyLen ∧ net.rslUp = true) :
    ∃ ciphModSet, ciphModSet &&& 0xf = cipherModeSetting n ∧ gsm0808CipherMode net encr n key includeImeisv =
      (true,⟨rslEncAlgA5 n,key⟩,[CipherMsg.encryptionCmd (rslEncAlgA5 n :: key) ciphModSet]) := by
  unfold gsm0808CipherMode gsm48SendRrCiphMode
  rw [if_neg (by omega),h.2]
  refine ⟨_,?_,rfl⟩
  rw [low_nibble]
  exact cipherModeSetting_eq hn

theorem gsm0808CipherMode_fails (encr : Encr) (n : Nat) {key : List (BitVec 8)} (includeImeisv : BitVec 8)
    (h : ¬ (key.length ≤ maxA5KeyLen ∧ net.rslUp = true)) :
    ∃ encr', gsm0808CipherMode net encr n key includeImeisv = (false,encr',[]) := by
  unfold gsm0808CipherMode gsm48SendRrCiphMode
  by_cases hlong : maxA5KeyLen < key.length
  · exact ⟨encr,if_pos hlong⟩
  · have hdown : net.rslUp = false := Bool.eq_false_iff.mpr fun hup => h ⟨by omega,hup⟩
    rw [if_neg hlong,hdown]
    exact ⟨_,rfl⟩

/-- A reject leaves the connection as it was only if the command had been handled before. -/
theorem reject_atomic_iff {conn' : CipherConn} {cause : CipherRejectCause} :
    Atomic net conn cmd (.ok (conn'.reject cause)) ↔
      conn' = conn ∧ gsconFsm.inEvent conn.state .txSccp = true ∧ conn.sccpUp = true := by
  unfold Atomic CipherConn.reject
  constructor
  · rintro (⟨_,_,_,_,_,-,-,-,h,-⟩ | ⟨_,h⟩)
    · simp only [Except.ok.injEq,Prod.mk.injEq] at h
      obtain ⟨-,h⟩ := h
      split at h <;> cases h
    · simp only [Except.ok.injEq,Prod.mk.injEq] at h
      obtain ⟨rfl,h⟩ := h
      refine ⟨rfl,?_⟩
      split at h
      · rename_i hup
        exact Bool.and_eq_true_iff.mp hup
      · cases h
  · rintro ⟨rfl,hperm,hup⟩
    rw [hperm,hup]
    exact .inr ⟨cause,rfl⟩

/-- A command is dealt with atomically if and only if it was handled before, or can be carried out. -/
theorem cipherMode_atomic_iff (net : CipherNet) (conn : CipherConn) (cmd : CipherModeCmd) :
    Atomic net conn cmd (bssmapHandleCipherMode net conn cmd) ↔ Acceptable net conn cmd := by
  unfold bssmapHandleCipherMode Acceptable
  by_cases hhandled : conn.cipheringHandled = true
  · rw [if_pos hhandled,if_pos hhandled,reject_atomic_iff]
    exact and_iff_right rfl
  rw [if_neg hhandled,if_neg hhandled]
  -- from here on the connection has changed
  have hchanged : ∀ (encr : Option Encr) cause,
      ¬ Atomic net conn cmd (.ok (CipherConn.reject { conn with cipheringHandled := true, lchan := encr } cause)) := by
    intro encr cause h
    have heq := (reject_atomic_iff.mp h).1
    rw [← heq] at hhandled
    exact hhandled rfl
  cases hinfo : cmd.encryptionInformation with
  | none => exact iff_of_false (hchanged conn.lchan _) (by simp)
  | some info => cases info with
    | nil => exact iff_of_false (hchanged conn.lchan _) (by simp)
    | cons mscMask key =>
      dsimp only
      cases hlchan : conn.lchan with
      | none => 
        refine iff_of_false ?_ (by simp)
        rintro (⟨_,_,_,_,_,-,-,-,h,-⟩ | ⟨_,h⟩) <;> cases h
      | some encr =>
        cases hbest : selectBestCipher mscMask net.a5EncryptionMask with
        | none => exact iff_of_false (hchanged _ _) (by simp [hbest])
        | some n =>
          have hacc : (∃ mscMask' key' n', some (mscMask :: key) = some (mscMask' :: key')
              ∧ (some encr).isSome = true ∧ selectBestCipher mscMask' net.a5EncryptionMask = some n'
              ∧ (0 < n' → key' ≠ []) ∧ key'.length ≤ maxA5KeyLen ∧ net.rslUp = true)
              ↔ (0 < n → key ≠ []) ∧ key.length ≤ maxA5KeyLen ∧ net.rslUp = true := by
            constructor
            · rintro ⟨_,_,n',heq,-,hn',h⟩
              cases heq
              rw [hbest] at hn'
              cases hn'
              exact h
            · intro h
              exact ⟨mscMask,key,n,rfl,rfl,hbest,h⟩
          rw [hacc]
          by_cases hok : key.length ≤ maxA5KeyLen ∧ net.rslUp = true
          · obtain ⟨ciphModSet,hset,hmode⟩ := gsm0808CipherMode_sends encr (selectBestCipher_lt hbest)
              ((cmd.cipherResponseMode.map fun v => v &&& 0x1).getD 1) hok
            simp only [hmode,if_true,and_iff_left hok]
            constructor
            · rintro (⟨_,n',_,_,_,heq,hgreatest,hkey,-,-⟩ | ⟨_,h⟩)
              · rw [hinfo] at heq
                cases heq
                rwa [hgreatest.unique (selectBestCipher_isGreatest hbest)] at hkey
              · simp only [Except.ok.injEq,Prod.mk.injEq,List.cons.injEq] at h
                cases h.2.1
            · intro hkey
              exact .inl ⟨_,n,mscMask,key,ciphModSet,hinfo,selectBestCipher_isGreatest hbest,hkey,rfl,hset⟩
          · obtain ⟨encr',hmode⟩ := gsm0808CipherMode_fails encr n
              ((cmd.cipherResponseMode.map fun v => v &&& 0x1).getD 1) hok
            simp only [hmode]
            exact iff_of_false (hchanged (some encr') _) fun h => hok h.2

def a51a53 : CipherModeCmd where
  encryptionInformation := some [0x0a,1,2,3,4,5,6,7,8]

theorem cipherMode_atomic_iff_a53 :
    Atomic ⟨0x0a,true⟩ ⟨.active,true,false,some ⟨1,[]⟩⟩ a51a53
      (bssmapHandleCipherMode ⟨0x0a,true⟩ ⟨.active,true,false,some ⟨1,[]⟩⟩ a51a53) := by
  refine (cipherMode_atomic_iff _ _ _).mpr ?_
  unfold Acceptable
  rw [if_neg (by decide)]
  exact ⟨0x0a,[1,2,3,4,5,6,7,8],3,rfl,rfl,by decide,by decide,by decide,rfl⟩

/-- A command without a key: ciphering with A5/3 is commanded. -/
theorem cipherMode_without_key :
    bssmapHandleCipherMode ⟨0x0a,true⟩ ⟨.active,true,false,some ⟨1,[]⟩⟩ ⟨some [0x08],none⟩
      = .ok (⟨.active,true,true,some ⟨4,[]⟩⟩,[CipherMsg.encryptionCmd [4] 0x15])
    ∧ ¬ Atomic ⟨0x0a,true⟩ ⟨.active,true,false,some ⟨1,[]⟩⟩ ⟨some [0x08],none⟩
      (bssmapHandleCipherMode ⟨0x0a,true⟩ ⟨.active,true,false,some ⟨1,[]⟩⟩ ⟨some [0x08],none⟩) := by
  have hsent : bssmapHandleCipherMode ⟨0x0a,true⟩ ⟨.active,true,false,some ⟨1,[]⟩⟩ ⟨some [0x08],none⟩
      = .ok (⟨.active,true,true,some ⟨4,[]⟩⟩,[CipherMsg.encryptionCmd [4] 0x15]) := by rfl
  refine ⟨hsent,?_⟩
  rw [hsent]
  rintro (⟨_,n,_,key,_,heq,-,hkey,hresult,-⟩ | ⟨_,h⟩)
  · cases heq
    simp only [Except.ok.injEq,Prod.mk.injEq,List.cons.injEq,CipherMsg.encryptionCmd.injEq] at hresult
    have hn : n = 0 := Nat.eq_zero_of_not_pos fun hpos => hkey hpos rfl
    subst hn
    exact absurd hresult.2.1.1.1 (by decide)
  · cases h

end Proof

end OsmoBsc.Bssap
