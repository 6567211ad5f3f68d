import Mathlib.Data.List.Basic
set_option autoImplicit false

/-! The de-framing of what an MSC sends on a connection: the BSSMAP or DTAP payload of a BSSAP message. -/

namespace OsmoBsc.Bssap

abbrev Octet := BitVec 8

def bssapMsgBssManagement : Octet := 0x00
def bssapMsgDtap : Octet := 0x01

structure Span where
  offset : Nat
  length : Nat
  deriving DecidableEq, Repr

/-- What becomes of a message. -/
inductive Outcome where
  | rejected
  /-- bssmap_rcvmsg_dt1() is called with this. -/
  | bssmap (payload : Span)
  /-- The DTAP message that is dispatched to the connection. -/
  | dtap (linkId : Octet) (payload : Span)
  /-- msgb_put() finds no room. -/
  | aborted
  deriving DecidableEq, Repr

section Handlers

-- the message has `length` octets, and what `l3h` has from there on is not of it
variable (l3h : Nat → Octet) (length : BitVec 32)

/-- `bssmap_msg_len`; `length - sizeof(struct bssmap_header)` is unsigned. -/
def bssmapMsgLen : Nat :=
  let calculatedLen := (length - 2).toNat
  let expectedLen := (l3h 1).toNat
  if expectedLen < calculatedLen then expectedLen
  else if calculatedLen < expectedLen then calculatedLen
  else expectedLen

/-- `dtap_rcvmsg`, when a new message buffer has room for `room` octets. -/
def dtapRcvmsg (room : Nat) : Outcome :=
  if length.toNat ≤ 3 then .rejected
  else if length.toNat - 3 < (l3h 2).toNat then .rejected
  else if room < length.toNat - 3 then .aborted
  else .dtap (l3h 1) ⟨3,length.toNat - 3⟩

/-- `bsc_handle_dt`, which goes on after its complaint about a short header. -/
def bscHandleDt (room : Nat) : Outcome :=
  if l3h 0 = bssapMsgBssManagement then .bssmap ⟨2,bssmapMsgLen l3h length⟩
  else if l3h 0 = bssapMsgDtap then dtapRcvmsg l3h length room
  else .rejected

end Handlers

/-- A payload of as many octets as the header announces is handed on if they were received, a BSSMAP
payload is else cut and a DTAP message rejected, and so is what is shorter than its header. -/
def Deframed (l3h : Nat → Octet) (length : Nat) (outcome : Outcome) : Prop :=
  if length = 0 then outcome = .rejected
  else if l3h 0 = bssapMsgBssManagement then
    outcome = if length < 2 then .rejected else .bssmap ⟨2,min (l3h 1).toNat (length - 2)⟩
  else if l3h 0 = bssapMsgDtap then
    outcome = if length < 3 ∨ length - 3 < (l3h 2).toNat then .rejected else .dtap (l3h 1) ⟨3,(l3h 2).toNat⟩
  else outcome = .rejected

/-- BSSMAP has its header, and DTAP has no octets behind those that it announces, of which there is one. -/
def Exact (l3h : Nat → Octet) (length : Nat) : Prop :=
  (l3h 0 = bssapMsgBssManagement → 2 ≤ length)
  ∧ (l3h 0 = bssapMsgDtap → 3 ≤ length → (l3h 2).toNat ≤ length - 3 →
    (l3h 2).toNat = length - 3 ∧ 0 < (l3h 2).toNat)

section Payload

variable {l3h : Nat → Octet} {length : BitVec 32}

theorem Deframed.inside {n : Nat} {outcome : Outcome} (h : Deframed l3h n outcome) {p : Span}
    (hp : outcome = .bssmap p ∨ ∃ linkId, outcome = .dtap linkId p) : p.offset + p.length ≤ n := by
  have hrej : outcome ≠ .rejected := by
    rintro rfl
    obtain hp | ⟨_,hp⟩ := hp <;> cases hp
  unfold Deframed at h
  split at h
  · exact absurd h hrej
  split at h
  · split at h
    · exact absurd h hrej
    · subst h
      obtain hp | ⟨_,hp⟩ := hp <;> cases hp
      dsimp only
      omega
  split at h
  · split at h
    · exact absurd h hrej
    · subst h
      obtain hp | ⟨_,hp⟩ := hp <;> cases hp
      dsimp only
      omega
  · exact absurd h hrej

theorem bssmapMsgLen_eq (h : 2 ≤ length.toNat) :
    bssmapMsgLen l3h length = min (l3h 1).toNat (length.toNat - 2) := by
  have hsub : (length - 2).toNat = length.toNat - 2 := by
    rw [BitVec.toNat_sub_of_le (BitVec.le_def.mpr (show (2 : BitVec 32).toNat ≤ length.toNat from h))]
    rfl
  simp only [bssmapMsgLen,hsub]
  split
  · omega
  · split <;> omega

theorem dtapRcvmsg_eq_iff {room : Nat} (hroom : 255 ≤ room) :
    dtapRcvmsg l3h length room = (if length.toNat < 3 ∨ length.toNat - 3 < (l3h 2).toNat then .rejected
      else .dtap (l3h 1) ⟨3,(l3h 2).toNat⟩)
    ↔ (3 ≤ length.toNat → (l3h 2).toNat ≤ length.toNat - 3 →
      (l3h 2).toNat = length.toNat - 3 ∧ 0 < (l3h 2).toNat) := by
  have h255 := (l3h 2).isLt
  unfold dtapRcvmsg
  by_cases hshort : length.toNat < 3 ∨ length.toNat - 3 < (l3h 2).toNat
  · rw [if_pos hshort]
    refine iff_of_true ?_ (by omega)
    split
    · rfl
    · rw [if_pos (by omega)]
  rw [if_neg hshort]
  by_cases hempty : length.toNat ≤ 3
  · rw [if_pos hempty]
    exact iff_of_false (by simp) (by omega)
  rw [if_neg hempty,if_neg (by omega)]
  by_cases hfull : room < length.toNat - 3
  · rw [if_pos hfull]
    exact iff_of_false (by simp) (by omega)
  rw [if_neg hfull]
  simp only [Outcome.dtap.injEq,Span.mk.injEq,true_and]
  omega

end Payload

/-- bsc_handle_dt() hands on what it should if and only if the message is exact. -/
theorem bscHandleDt_deframes_iff (l3h : Nat → Octet) (length : BitVec 32) {room : Nat} (hroom : 255 ≤ room) :
    Deframed l3h length.toNat (bscHandleDt l3h length room) ↔ Exact l3h length.toNat := by
  unfold Deframed bscHandleDt Exact
  by_cases hmap : l3h 0 = bssapMsgBssManagement
  · have hne : l3h 0 ≠ bssapMsgDtap := by
      rw [hmap]
      decide
    simp only [if_pos hmap]
    by_cases h0 : length.toNat = 0
    · rw [if_pos h0]
      exact iff_of_false (by simp) fun h => by have := h.1 hmap; omega
    rw [if_neg h0]
    by_cases hshort : length.toNat < 2
    · rw [if_pos hshort]
      exact iff_of_false (by simp) fun h => by have := h.1 hmap; omega
    · rw [if_neg hshort,bssmapMsgLen_eq (by omega)]
      exact iff_of_true rfl ⟨fun _ => by omega,fun h => absurd h hne⟩
  simp only [if_neg hmap]
  by_cases hdtap : l3h 0 = bssapMsgDtap
  · simp only [if_pos hdtap]
    rw [and_iff_right fun h => absurd h hmap,forall_prop_of_true hdtap]
    by_cases h0 : length.toNat = 0
    · rw [if_pos h0]
      refine iff_of_true ?_ (by omega)
      rw [dtapRcvmsg,if_pos (by omega)]
    · rw [if_neg h0]
      exact dtapRcvmsg_eq_iff hroom
  · rw [if_neg hdtap,if_neg hdtap,ite_self]
    exact iff_of_true rfl ⟨fun h => absurd h hmap,fun h => absurd h hdtap⟩

def trailing : Nat → Octet := fun i => [0x01,0x00,0x02,0x05,0x08,0xff].getD i 0

theorem bscHandleDt_deframes_iff_exact : Deframed trailing 5 (bscHandleDt trailing 5 1920) :=
  (bscHandleDt_deframes_iff trailing 5 (by decide)).mpr ⟨fun h => absurd h (by decide),fun _ _ _ => by decide⟩

/-- The octet behind the announced ones is forwarded too. -/
theorem bscHandleDt_forwards_trailing : bscHandleDt trailing 6 1920 = .dtap 0x00 ⟨3,3⟩
    ∧ ¬ Deframed trailing 6 (bscHandleDt trailing 6 1920) := by
  have hdt : bscHandleDt trailing 6 1920 = .dtap 0x00 ⟨3,3⟩ := by decide
  refine ⟨hdt,?_⟩
  rw [hdt]
  unfold Deframed
  decide

end OsmoBsc.Bssap
