import Mathlib.Data.List.Basic
set_option autoImplicit false

/-! How a message for a Nokia site is cut into segments, queued, and put together again. -/

namespace OsmoBsc.Nokia

/-- ABIS_OM_PLACEMENT_*. -/
inductive Placement where
  | only
  | first
  | middle
  | last
  deriving DecidableEq, Repr

/-- `struct abis_om_hdr` of an ABIS_OM_MDISC_FOM message, with its data. -/
structure OmMsg where
  placement : Placement
  sequence : BitVec 8
  length : BitVec 8
  data : List (BitVec 8)
  deriving DecidableEq, Repr

/-- `struct abis_om_nokia_hdr`, the reference in network order. -/
def nokiaHdr (msgType : BitVec 8) (ref : BitVec 16) : List (BitVec 8) :=
  [msgType,0,(ref >>> 8).setWidth 8,ref.setWidth 8]

/-- The messages of a BTS that wait, each with OBSC_NM_W_ACK_CB; whether an answer is waited for; and what went to
abis_sendmsg(), in this order. -/
structure NmQueue where
  abisQueue : List (OmMsg × Bool) := []
  abisNmPend : Bool := false
  sent : List OmMsg := []

def NmQueue.history (q : NmQueue) : List OmMsg := q.sent ++ q.abisQueue.map Prod.fst

/-- The loop of `nokia_abis_nm_queue_send_next`: what is left, what was sent, and `wait`. -/
def dequeue : List (OmMsg × Bool) → List OmMsg → List (OmMsg × Bool) × List OmMsg × Bool
  | [], sent => ([],sent,false)
  | (msg,wait) :: queue, sent =>
    if wait then (queue,sent ++ [msg],true) else dequeue queue (sent ++ [msg])

def NmQueue.queueSendNext (q : NmQueue) : NmQueue :=
  let r := dequeue q.abisQueue q.sent
  { abisQueue := r.1, abisNmPend := r.2.2, sent := r.2.1 }

section Sending

variable (abisSendmsg : OmMsg → Int)

/-- `abis_nm_sendmsg`, which waits for an answer, with `abis_nm_queue_msg`. -/
def abisNmSendmsg (msg : OmMsg) (q : NmQueue) : NmQueue × Int :=
  if q.abisQueue.isEmpty && !q.abisNmPend then
    ({ q with abisNmPend := true, sent := q.sent ++ [msg] },abisSendmsg msg)
  else ({ q with abisQueue := q.abisQueue ++ [(msg,true)] },0)

variable (msgType : BitVec 8) (ref : BitVec 16)

def abisNmSend (data : List (BitVec 8)) (q : NmQueue) : NmQueue × Int :=
  abisNmSendmsg abisSendmsg ⟨.only,0,BitVec.ofNat 8 (4 + data.length),nokiaHdr msgType ref ++ data⟩ q

def maxSend (seq : Nat) : Nat := if seq = 0 then 256 - 4 else 256

theorem maxSend_pos (seq : Nat) : 0 < maxSend seq := by
  unfold maxSend
  split <;> decide

def fullSegment (seq : Nat) (data : List (BitVec 8)) : OmMsg :=
  if seq = 0 then ⟨.first,BitVec.ofNat 8 seq,0,nokiaHdr msgType ref ++ data⟩
  else ⟨.middle,BitVec.ofNat 8 seq,0,data⟩

/-- The loop of `abis_nm_send_multi_segments`. -/
def sendSegments (seq : Nat) (data : List (BitVec 8)) (q : NmQueue) : NmQueue × Int :=
  if h : data.length = 0 then (q,0)
  else if maxSend seq < data.length then
    let r := abisNmSendmsg abisSendmsg (fullSegment msgType ref seq (data.take (maxSend seq))) q
    if r.2 < 0 then r else sendSegments (seq + 1) (data.drop (maxSend seq)) r.1.queueSendNext
  else if seq = 0 then abisNmSend abisSendmsg msgType ref data q
  else
    let r := abisNmSendmsg abisSendmsg ⟨.last,BitVec.ofNat 8 seq,BitVec.ofNat 8 data.length,data⟩ q
    if r.2 < 0 then r else (r.1.queueSendNext,0)
  termination_by data.length
  decreasing_by
    have := maxSend_pos seq
    rw [List.length_drop]
    omega

def abisNmSendMultiSegments (data : List (BitVec 8)) (q : NmQueue) : NmQueue × Int :=
  sendSegments abisSendmsg msgType ref 0 data q

/-- The segment that starts a payload, as a message on its own or one of several. -/
def nextSegment (seq : Nat) (data : List (BitVec 8)) : OmMsg :=
  if maxSend seq < data.length then fullSegment msgType ref seq (data.take (maxSend seq))
  else if seq = 0 then ⟨.only,0,BitVec.ofNat 8 (4 + data.length),nokiaHdr msgType ref ++ data⟩
  else ⟨.last,BitVec.ofNat 8 seq,BitVec.ofNat 8 data.length,data⟩

def segments (seq : Nat) (data : List (BitVec 8)) : List OmMsg :=
  if h : data.length = 0 then []
  else nextSegment msgType ref seq data :: segments (seq + 1) (data.drop (maxSend seq))
  termination_by data.length
  decreasing_by
    have := maxSend_pos seq
    rw [List.length_drop]
    omega

end Sending

def OmMsg.lengthOf (m : OmMsg) : Nat := if m.length = 0 then 256 else m.length.toNat

/-- A message with this placement and sequence number, and as long as it says. -/
def OmMsg.Is (m : OmMsg) (placement : Placement) (seq : Nat) : Prop :=
  m.placement = placement ∧ m.sequence.toNat = seq ∧ m.data.length = m.lengthOf

instance OmMsg.decidableIs (m : OmMsg) (placement : Placement) (seq : Nat) : Decidable (m.Is placement seq) :=
  inferInstanceAs (Decidable (_ ∧ _ ∧ _))

def reassembleFrom (seq : Nat) : List OmMsg → Option (List (BitVec 8))
  | [] => none
  | m :: ms =>
    if m.Is .last seq ∧ ms = [] then some m.data
    else if m.Is .middle seq then (reassembleFrom (seq + 1) ms).map (m.data ++ ·)
    else none

/-- What a receiver makes of the segments of one message, in the order in which they come in. -/
def reassemble : List OmMsg → Option (List (BitVec 8))
  | [] => none
  | m :: ms =>
    if m.Is .only 0 ∧ ms = [] then some m.data
    else if m.Is .first 0 then (reassembleFrom 1 ms).map (m.data ++ ·)
    else none

/-- The number of segments of a payload: 252 octets fit in the first one, 256 in each of the others. -/
def segmentCount (len : Nat) : Nat := if len ≤ 252 then 1 else 1 + (len - 252 + 255) / 256

section Queue

variable {abisSendmsg : OmMsg → Int} {q : NmQueue} {msg : OmMsg}

theorem dequeue_history (queue : List (OmMsg × Bool)) (sent : List OmMsg) :
    (dequeue queue sent).2.1 ++ (dequeue queue sent).1.map Prod.fst = sent ++ queue.map Prod.fst := by
  induction queue generalizing sent with
  | nil => rfl
  | cons entry queue ih =>
    obtain ⟨msg,wait⟩ := entry
    cases wait with
    | true => simp [dequeue]
    | false => simp [dequeue,ih]

@[simp] theorem NmQueue.history_queueSendNext (q : NmQueue) : q.queueSendNext.history = q.history :=
  dequeue_history q.abisQueue q.sent

theorem history_abisNmSendmsg : (abisNmSendmsg abisSendmsg msg q).1.history = q.history ++ [msg] := by
  unfold abisNmSendmsg
  split
  · rename_i hempty
    have hq : q.abisQueue = [] := by simp_all
    simp [NmQueue.history,hq]
  · simp [NmQueue.history]

theorem abisNmSendmsg_accepted (h : ∀ m, 0 ≤ abisSendmsg m) : ¬ (abisNmSendmsg abisSendmsg msg q).2 < 0 := by
  have hmsg := h msg
  unfold abisNmSendmsg
  split <;> dsimp only <;> omega

theorem history_sendSegments (h : ∀ m, 0 ≤ abisSendmsg m) (msgType : BitVec 8) (ref : BitVec 16) (seq : Nat)
    (data : List (BitVec 8)) (q : NmQueue) :
    (sendSegments abisSendmsg msgType ref seq data q).1.history = q.history ++ segments msgType ref seq data := by
  induction hn : data.length using Nat.strongRecOn generalizing seq data q with
  | ind n ih =>
    rw [sendSegments,segments]
    have hpos := maxSend_pos seq
    split
    · simp
    · rename_i hne
      rw [nextSegment]
      split
      · rename_i hfull
        rw [if_neg (abisNmSendmsg_accepted h),ih (n - maxSend seq) (by omega) _ _ _ (by rw [List.length_drop,hn]),
          NmQueue.history_queueSendNext,history_abisNmSendmsg]
        simp
      · rename_i hrest
        have hdone : segments msgType ref (seq + 1) (data.drop (maxSend seq)) = [] := by
          rw [segments,dif_pos (by rw [List.length_drop]; omega)]
        rw [hdone]
        split
        · exact history_abisNmSendmsg
        · rw [if_neg (abisNmSendmsg_accepted h),NmQueue.history_queueSendNext,history_abisNmSendmsg]

end Queue

section Reassembly

variable {msgType : BitVec 8} {ref : BitVec 16} {seq n : Nat} {data : List (BitVec 8)}

theorem length_nokiaHdr : (nokiaHdr msgType ref).length = 4 := rfl

theorem lengthOf_ofNat {placement : Placement} {sequence : BitVec 8} (h0 : 0 < n) (h : n ≤ 256) :
    (⟨placement,sequence,BitVec.ofNat 8 n,data⟩ : OmMsg).lengthOf = n := by
  have hn : (BitVec.ofNat 8 n).toNat = n % 256 := BitVec.toNat_ofNat n 8
  unfold OmMsg.lengthOf
  dsimp only
  split
  · rename_i hzero
    rw [hzero] at hn
    change 0 = n % 256 at hn
    omega
  · rename_i hzero
    have hne : n ≠ 256 := fun h256 => hzero (by rw [h256]; rfl)
    rw [hn]
    omega

theorem sequence_ofNat (h : seq < 256) : (BitVec.ofNat 8 seq).toNat = seq := by
  rw [BitVec.toNat_ofNat]
  omega

theorem segments_nil : segments msgType ref seq [] = [] := by
  rw [segments,dif_pos List.length_nil]

theorem segments_last (h0 : data ≠ []) (h : data.length ≤ maxSend seq) :
    segments msgType ref seq data = [nextSegment msgType ref seq data] := by
  rw [segments,dif_neg (by simpa using h0),List.drop_of_length_le h,segments_nil]

theorem segments_more (h : maxSend seq < data.length) : segments msgType ref seq data =
    fullSegment msgType ref seq (data.take (maxSend seq))
      :: segments msgType ref (seq + 1) (data.drop (maxSend seq)) := by
  rw [segments,dif_neg (by omega),nextSegment,if_pos h]

theorem segments_ne_nil (h0 : data ≠ []) : segments msgType ref seq data ≠ [] := by
  rw [segments,dif_neg (by simpa using h0)]
  exact List.cons_ne_nil _ _

/-- What is behind the first segment comes back, as long as the sequence numbers do. -/
theorem reassembleFrom_segments (h1 : 1 ≤ seq) (h0 : data ≠ []) (hseq : seq + (data.length + 255) / 256 ≤ 256) :
    reassembleFrom seq (segments msgType ref seq data) = some data := by
  induction hn : data.length using Nat.strongRecOn generalizing seq data with
  | ind n ih =>
    have hlen : 0 < data.length := List.length_pos_of_ne_nil h0
    have hmax : maxSend seq = 256 := by rw [maxSend,if_neg (by omega)]
    have hseq256 : (BitVec.ofNat 8 seq).toNat = seq := sequence_ofNat (by omega)
    by_cases hmore : 256 < data.length
    · have htake : (data.take 256).length = 256 := by
        rw [List.length_take]
        omega
      have hdrop : (data.drop 256).length = data.length - 256 := List.length_drop
      have hnext : seq + 1 + ((data.drop 256).length + 255) / 256 ≤ 256 := by
        rw [hdrop]
        omega
      have hrest := @ih (n - 256) (by omega) (seq + 1) (data.drop 256) (by omega)
        (List.ne_nil_of_length_pos (by omega)) hnext (by rw [hdrop,hn])
      have his : (fullSegment msgType ref seq (data.take 256)).Is .middle seq := by
        rw [fullSegment,if_neg (by omega)]
        exact ⟨rfl,hseq256,htake⟩
      have hnot : ¬ ((fullSegment msgType ref seq (data.take 256)).Is .last seq
          ∧ segments msgType ref (seq + 1) (data.drop 256) = []) :=
        fun h => segments_ne_nil (List.ne_nil_of_length_pos (by omega)) h.2
      rw [segments_more (by omega),hmax,reassembleFrom,if_neg hnot,if_pos his,hrest,fullSegment,if_neg (by omega)]
      exact congrArg some (List.take_append_drop 256 data)
    · have his : (nextSegment msgType ref seq data).Is .last seq := by
        rw [nextSegment,if_neg (by omega),if_neg (by omega)]
        exact ⟨rfl,hseq256,(lengthOf_ofNat hlen (by omega)).symm⟩
      rw [segments_last h0 (by omega),reassembleFrom,if_pos ⟨his,rfl⟩,nextSegment,if_neg (by omega),if_neg (by omega)]

theorem reassemble_segments (h0 : data ≠ []) (hcount : segmentCount data.length ≤ 256) :
    reassemble (segments msgType ref 0 data) = some (nokiaHdr msgType ref ++ data) := by
  have hlen : 0 < data.length := List.length_pos_of_ne_nil h0
  have hmax : maxSend 0 = 252 := rfl
  by_cases hmore : 252 < data.length
  · rw [segmentCount,if_neg (by omega)] at hcount
    have htake : (data.take 252).length = 252 := by
      rw [List.length_take]
      omega
    have hdrop : (data.drop 252).length = data.length - 252 := List.length_drop
    have hrest := @reassembleFrom_segments msgType ref 1 (data.drop 252) (Nat.le_refl 1)
      (List.ne_nil_of_length_pos (by omega)) (by omega)
    have his : (fullSegment msgType ref 0 (data.take 252)).Is .first 0 := by
      rw [fullSegment,if_pos rfl]
      refine ⟨rfl,rfl,?_⟩
      rw [List.length_append,length_nokiaHdr,htake]
      rfl
    have hnot : ¬ ((fullSegment msgType ref 0 (data.take 252)).Is .only 0
        ∧ segments msgType ref 1 (data.drop 252) = []) :=
      fun h => segments_ne_nil (List.ne_nil_of_length_pos (by omega)) h.2
    rw [segments_more (by omega),hmax,reassemble,if_neg hnot,if_pos his,hrest,fullSegment,if_pos rfl,Option.map_some,
      List.append_assoc,List.take_append_drop]
  · have hwhole : (nokiaHdr msgType ref ++ data).length = 4 + data.length := by
      rw [List.length_append,length_nokiaHdr]
    have his : (nextSegment msgType ref 0 data).Is .only 0 := by
      rw [nextSegment,if_neg (by omega),if_pos rfl]
      exact ⟨rfl,rfl,hwhole.trans (lengthOf_ofNat (by omega) (by omega)).symm⟩
    rw [segments_last h0 (by omega),reassemble,if_pos ⟨his,rfl⟩,nextSegment,if_neg (by omega),if_pos rfl]

theorem length_segments (h0 : data ≠ []) :
    (segments msgType ref seq data).length =
      if seq = 0 then segmentCount data.length else (data.length + 255) / 256 := by
  induction hn : data.length using Nat.strongRecOn generalizing seq data with
  | ind n ih =>
    have hlen : 0 < data.length := List.length_pos_of_ne_nil h0
    by_cases hmore : maxSend seq < data.length
    · have hdrop : (data.drop (maxSend seq)).length = data.length - maxSend seq := List.length_drop
      have hpos := maxSend_pos seq
      have hrest := @ih (n - maxSend seq) (by omega) (seq + 1) (data.drop (maxSend seq))
        (List.ne_nil_of_length_pos (by omega)) (by rw [hdrop,hn])
      rw [segments_more hmore,List.length_cons,hrest,if_neg (Nat.succ_ne_zero seq)]
      by_cases hseq : seq = 0
      · rw [maxSend,if_pos hseq] at hmore ⊢
        rw [if_pos hseq,segmentCount,if_neg (by omega)]
        omega
      · rw [maxSend,if_neg hseq] at hmore ⊢
        rw [if_neg hseq]
        omega
    · rw [segments_last h0 (Nat.not_lt.mp hmore),List.length_singleton]
      by_cases hseq : seq = 0
      · rw [maxSend,if_pos hseq] at hmore
        rw [if_pos hseq,segmentCount,if_pos (by omega)]
      · rw [maxSend,if_neg hseq] at hmore
        rw [if_neg hseq]
        omega

theorem reassembleFrom_shape {ms : List OmMsg} {p : List (BitVec 8)} (h : reassembleFrom seq ms = some p) :
    ms.map (·.sequence.toNat) = List.range' seq ms.length
      ∧ ∃ k, ms.map (·.placement) = List.replicate k .middle ++ [.last] := by
  induction ms generalizing seq p with
  | nil => cases h
  | cons m ms ih =>
    rw [reassembleFrom] at h
    split at h
    · rename_i hlast
      obtain ⟨⟨hplace,hnr,-⟩,rfl⟩ := hlast
      exact ⟨by simp [hnr],0,by simp [hplace]⟩
    · split at h
      · rename_i hmiddle
        obtain ⟨p',hp',-⟩ := Option.map_eq_some_iff.mp h
        obtain ⟨hseq,k,hk⟩ := ih hp'
        refine ⟨?_,k + 1,?_⟩
        · rw [List.map_cons,List.length_cons,List.range'_succ,hseq,hmiddle.2.1]
        · rw [List.map_cons,hk,hmiddle.1,List.replicate_succ,List.cons_append]
      · cases h

/-- What is put together is one ONLY segment, or a FIRST one, those in between and a LAST one, numbered from 0 on. -/
theorem reassemble_shape {ms : List OmMsg} {p : List (BitVec 8)} (h : reassemble ms = some p) :
    ms.map (·.sequence.toNat) = List.range ms.length
      ∧ (ms.map (·.placement) = [.only]
        ∨ ∃ k, ms.map (·.placement) = .first :: (List.replicate k .middle ++ [.last])) := by
  cases ms with
  | nil => cases h
  | cons m ms =>
    rw [reassemble] at h
    split at h
    · rename_i honly
      obtain ⟨⟨hplace,hnr,-⟩,rfl⟩ := honly
      exact ⟨by simp [hnr],.inl (by simp [hplace])⟩
    · split at h
      · rename_i hfirst
        obtain ⟨p',hp',-⟩ := Option.map_eq_some_iff.mp h
        obtain ⟨hseq,k,hk⟩ := reassembleFrom_shape hp'
        refine ⟨?_,.inr ⟨k,?_⟩⟩
        · rw [List.map_cons,List.length_cons,List.range_eq_range',List.range'_succ,hseq,hfirst.2.1]
        · rw [List.map_cons,hk,hfirst.1]
      · cases h

end Reassembly

section Idle

variable {abisSendmsg : OmMsg → Int} {q : NmQueue}

def NmQueue.Idle (q : NmQueue) : Prop := q.abisQueue = [] ∧ q.abisNmPend = false

theorem NmQueue.Idle.send (h : q.Idle) (msg : OmMsg) : (abisNmSendmsg abisSendmsg msg q).1.abisQueue = [] := by
  rw [abisNmSendmsg,if_pos (by simp [h.1,h.2])]
  exact h.1

theorem NmQueue.idle_queueSendNext (h : q.abisQueue = []) : q.queueSendNext.Idle := by
  rw [NmQueue.queueSendNext,h]
  exact ⟨rfl,rfl⟩

theorem NmQueue.Idle.sendSegments (h : q.Idle) (msgType : BitVec 8) (ref : BitVec 16) (seq : Nat)
    (data : List (BitVec 8)) : (sendSegments abisSendmsg msgType ref seq data q).1.abisQueue = [] := by
  induction hn : data.length using Nat.strongRecOn generalizing seq data q with
  | ind n ih =>
    have hpos := maxSend_pos seq
    rw [Nokia.sendSegments]
    split
    · exact h.1
    · split
      · dsimp only
        split
        · exact h.send _
        · exact ih (n - maxSend seq) (by omega) (NmQueue.idle_queueSendNext (h.send _)) _ _
            (by rw [List.length_drop,hn])
      · split
        · exact h.send _
        · dsimp only
          split
          · exact h.send _
          · exact (NmQueue.idle_queueSendNext (h.send _)).1

end Idle

end OsmoBsc.Nokia
