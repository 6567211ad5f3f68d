import Mathlib.Data.List.Basic
set_option autoImplicit false

namespace OsmoBsc.Nm

/-- `obj_class` and `obj_inst` of a formatted O&M message. -/
structure Obj where
  objClass : UInt8
  btsNr : UInt8
  trxNr : UInt8
  tsNr : UInt8
  deriving DecidableEq, Repr

/-- `enum abis_nm_msgtype`: the messages of a software load and of its activation, the
reports, and the request, the ACK and the NACK of every other procedure. -/
inductive MsgType where
  | loadInit
  | loadInitAck
  | loadInitNack
  | loadSeg
  | loadSegAck
  | loadAbort
  | loadEnd
  | loadEndAck
  | loadEndNack
  | activateSw
  | activateSwAck
  | activateSwNack
  | report (n : UInt8)
  | request (procedure : UInt8)
  | ack (procedure : UInt8)
  | nack (procedure : UInt8)
  deriving DecidableEq, Repr

/-- `MT_ACK` and `MT_NACK`: the types that answer a message. -/
def MsgType.answeredBy : MsgType → MsgType → Bool
  | .loadInit, .loadInitAck | .loadInit, .loadInitNack => true
  | .loadSeg, .loadSegAck => true
  | .loadEnd, .loadEndAck | .loadEnd, .loadEndNack => true
  | .activateSw, .activateSwAck | .activateSw, .activateSwNack => true
  | .request p, .ack p' | .request p, .nack p' => p == p'
  | _, _ => false

/-- A message to the BTS, with what it carries and `OBSC_NM_W_ACK_CB`. -/
structure Msg where
  manuf : Bool
  obj : Obj
  mt : MsgType
  data : List UInt8
  wAck : Bool
  deriving DecidableEq, Repr

structure Rx where
  manuf : Bool
  obj : Obj
  mt : MsgType
  deriving DecidableEq, Repr

def Rx.answers (r : Rx) (m : Msg) : Bool :=
  r.manuf == m.manuf && r.obj == m.obj && m.mt.answeredBy r.mt

inductive Traffic where
  | tx (m : Msg)
  | rx (r : Rx)
  deriving DecidableEq, Repr

/-- `enum gsm_bts_type`, as far as it matters here. -/
inductive BtsType where
  | bs11
  | nanobts
  | osmobts
  | other
  deriving DecidableEq, Repr

/-- The fields of `struct gsm_bts` for the OML queue, the messages that were given to
`abis_nm_queue_msg` and the traffic on the OML link. -/
structure Bts where
  type : BtsType
  abisQueue : List Msg := []
  abisNmPend : Bool := false
  submitted : List Msg := []
  traffic : List Traffic := []
  deriving DecidableEq, Repr

/-- `abis_nm_queue_msg`, where `_abis_nm_sendmsg` sends while the OML link is up. -/
def Bts.queueMsg (bts : Bts) (m : Msg) : Bts :=
  if bts.abisQueue.isEmpty && !bts.abisNmPend then
    { bts with
      abisNmPend := m.wAck
      submitted := bts.submitted ++ [m]
      traffic := bts.traffic ++ [Traffic.tx m] }
  else { bts with
    abisQueue := bts.abisQueue ++ [m]
    submitted := bts.submitted ++ [m] }

def Bts.receive (bts : Bts) (r : Rx) : Bts := { bts with traffic := bts.traffic ++ [Traffic.rx r] }

def Bts.sendmsg (bts : Bts) (m : Msg) : Bts := bts.queueMsg { m with wAck := true }

def Bts.sendmsgDirect (bts : Bts) (m : Msg) : Bts := bts.queueMsg { m with wAck := false }

/-- The loop of `abis_nm_queue_send_next` on a queue: what is sent, what stays and `wait`. -/
def sendQueued : List Msg → List Msg × List Msg × Bool
  | [] => ([],[],false)
  | m :: q => if m.wAck then ([m],q,true) else (m :: (sendQueued q).1,(sendQueued q).2)

def Bts.queueSendNext (bts : Bts) : Bts :=
  { bts with
    abisQueue := (sendQueued bts.abisQueue).2.1
    abisNmPend := (sendQueued bts.abisQueue).2.2
    traffic := bts.traffic ++ (sendQueued bts.abisQueue).1.map .tx }

def Bts.clearQueue (bts : Bts) : Bts := { bts with abisQueue := [], abisNmPend := false }

def sent (traffic : List Traffic) : List Msg :=
  traffic.filterMap fun | .tx m => some m | .rx _ => none

@[simp] theorem sent_append (l l' : List Traffic) : sent (l ++ l') = sent l ++ sent l' :=
  List.filterMap_append

@[simp] theorem sent_tx (m : Msg) : sent [.tx m] = [m] := rfl

@[simp] theorem sent_rx (r : Rx) : sent [.rx r] = [] := rfl

@[simp] theorem sent_map_tx (ms : List Msg) : sent (ms.map .tx) = ms := by
  induction ms with
  | nil => rfl
  | cons m ms ih => simp [sent]

theorem sendQueued_append (q : List Msg) : (sendQueued q).1 ++ (sendQueued q).2.1 = q := by
  induction q with
  | nil => rfl
  | cons m q ih =>
    rw [sendQueued]
    split
    · rfl
    · simpa using ih

theorem sendQueued_cases (q : List Msg) :
    (∀ m ∈ (sendQueued q).1, m.wAck = false) ∧ (sendQueued q).2 = ([],false) ∨
    ∃ ms m, (sendQueued q).1 = ms ++ [m] ∧ (∀ m ∈ ms, m.wAck = false) ∧ m.wAck = true ∧
      (sendQueued q).2.2 = true := by
  induction q with
  | nil => exact .inl ⟨by simp [sendQueued],rfl⟩
  | cons m q ih =>
    by_cases hm : m.wAck = true
    · exact .inr ⟨[],m,by simp [sendQueued,hm]⟩
    · have hm := Bool.not_eq_true _ ▸ hm
      rcases ih with ⟨h1,h2⟩ | ⟨ms,m',h1,h2,h3,h4⟩
      · refine .inl ⟨?_,by simp [sendQueued,hm,h2]⟩
        simpa [sendQueued,hm] using h1
      · refine .inr ⟨m :: ms,m',by simp [sendQueued,hm,h1],?_,h3,by simp [sendQueued,hm,h4]⟩
        simpa [hm] using h2

/-- Every message that was submitted was transmitted or is in the queue, in this order, and
the queue is only used while an answer is awaited. -/
structure Bts.InOrder (bts : Bts) : Prop where
  order : sent bts.traffic ++ bts.abisQueue = bts.submitted
  queue : bts.abisQueue ≠ [] → bts.abisNmPend = true

theorem Bts.InOrder.queueMsg {bts : Bts} (h : bts.InOrder) (m : Msg) : (bts.queueMsg m).InOrder := by
  obtain ⟨ho,hq⟩ := h
  unfold Bts.queueMsg
  split
  · rename_i hc
    simp only [Bool.and_eq_true,List.isEmpty_iff,Bool.not_eq_true'] at hc
    refine ⟨?_,by simp [hc.1]⟩
    simpa [hc.1] using ho
  · rename_i hc
    refine ⟨by simp [← ho],?_⟩
    intro _
    by_cases hempty : bts.abisQueue = []
    · simpa [hempty] using hc
    · exact hq hempty

theorem Bts.InOrder.queueSendNext {bts : Bts} (h : bts.InOrder) : bts.queueSendNext.InOrder := by
  obtain ⟨ho,hq⟩ := h
  refine ⟨?_,?_⟩
  · simp only [Bts.queueSendNext,sent_append,sent_map_tx,List.append_assoc,sendQueued_append]
    exact ho
  · intro hne
    rcases sendQueued_cases bts.abisQueue with ⟨_,h2⟩ | ⟨_,_,_,_,_,h4⟩
    · exact absurd (congrArg Prod.fst h2) hne
    · exact h4

theorem Bts.InOrder.receive {bts : Bts} (h : bts.InOrder) (r : Rx) : (bts.receive r).InOrder :=
  ⟨by simpa [Bts.receive] using h.order,h.queue⟩

end OsmoBsc.Nm
