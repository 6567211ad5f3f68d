import Mathlib.Data.List.Basic

set_option autoImplicit false

namespace OsmoBsc.Pcu

abbrev Octet := BitVec 8

/-- The message buffers that a reception allocates: `pcu_sock_rx` and `pcu_agch`. -/
inductive Buf where
  | rx
  | agch
  deriving DecidableEq, Repr

/-- What a handler does: it reads an octet of the primitive, reads an entry of
`sapi_string`, allocates or frees a buffer, or sends a message on RSL. -/
inductive Action where
  | read (off : Nat)
  | look (i : Nat)
  | alloc (b : Buf)
  | free (b : Buf)
  | rslPagingCmd (imsiDigits : List Octet) (chanNeeded : Octet) (mi : List Octet)
  | rslImmAssignCmd (tlli : Option (List Octet)) (val : List Octet)
  deriving DecidableEq, Repr

/-- The outcome of `recv`: a datagram, of which an empty one tells the end of the
connection, or an error. -/
inductive Recv where
  | octets (l : List Octet)
  | again
  | error
  deriving DecidableEq, Repr

/-- One call of `pcu_sock_read` and what its surroundings answer: whether the buffers
can be allocated, whether debug output is on, whether RSL refuses a message, and what
stands in the receive buffer behind the datagram. -/
structure Reception where
  recv : Recv
  rxAlloc : Bool := true
  agchAlloc : Bool := true
  debug : Bool := false
  rslFails : Bool := false
  rbs2000 : Bool := false
  stale : Nat → Octet := fun _ => 0

def octetAt (l : List Octet) (stale : Nat → Octet) (off : Nat) : Octet := l.getD off (stale off)

/-- The octets `off` to `off+n-1` of the receive buffer are read. -/
def reads (off n : Nat) : List Action := (List.range n).map fun i => .read (off+i)

/-- The offsets of the fields of `struct gsm_pcu_if`. -/
def offSapi : Nat := 4
def offLen : Nat := 5
def offData : Nat := 6
def offArfcn : Nat := 172
def offBlockNr : Nat := 176

/-- `ARRAY_SIZE(sapi_string)`. -/
def sapiStrings : Nat := 9

def pcuIfMsgDataReq : Octet := 0x00
def pcuIfMsgPagReq : Octet := 0x60
def pcuIfSapiAgch : Octet := 0x02
def pcuIfSapiPch : Octet := 0x03
def pcuIfSapiAgchDt : Octet := 0x08

def gsm48MtRrPagReq1 : Octet := 0x21

section Handlers

variable (r : Reception) (m : Nat → Octet)

/-- The octets `off` to `off+n-1` of the receive buffer. -/
def octets (off n : Nat) : List Octet := (List.range n).map fun i => m (off+i)

/-- `pcu_rx_rr_paging`. The mobile identity is read for the log and again by
`rsl_paging_cmd`. -/
def pcuRxRrPaging (imsiDigits : List Octet) (rawRrMsg : Nat) : List Action :=
  .read (rawRrMsg+2) ::
    if m (rawRrMsg+2) = gsm48MtRrPagReq1 then
      let miLen := (m (rawRrMsg+4)).toNat
      [Action.read (rawRrMsg+3),.read (rawRrMsg+4)] ++ reads (rawRrMsg+5) miLen ++ reads (rawRrMsg+5) miLen ++
        [Action.rslPagingCmd imsiDigits (m (rawRrMsg+3) >>> 4) (octets m (rawRrMsg+5) miLen)]
    else []

/-- The debug line of `pcu_rx_data_req`. -/
def logDataReq : List Action :=
  [Action.read offSapi,.look (m offSapi).toNat,.read offArfcn,.read (offArfcn+1),.read offBlockNr,.read offLen] ++
    reads offData (m offLen).toNat

/-- Copy `n` octets from `off` on to a new buffer, which is only freed when the message
cannot be sent. -/
def sendCopy (tlli : Option (List Octet)) (off n : Nat) : List Action × Int :=
  if r.agchAlloc then
    ([Action.alloc .agch] ++ reads off n ++ [Action.rslImmAssignCmd tlli (octets m off n)] ++
        (if r.rslFails then [Action.free .agch] else []),
      if r.rslFails then -5 else 0)
  else ([],-12)

def pcuRxDataReq : List Action × Int :=
  let len := (m offLen).toNat
  let log := if r.debug then logDataReq m else []
  if m offSapi = pcuIfSapiPch then
    (log ++ [Action.read offSapi] ++ reads offData 3 ++ pcuRxRrPaging m (octets m offData 3) (offData+3),0)
  else if m offSapi = pcuIfSapiAgch then
    let (acts,rc) := sendCopy r m none offData len
    (log ++ [Action.read offSapi,.read offLen] ++ acts,rc)
  else if m offSapi = pcuIfSapiAgchDt then
    if len < 5 then (log ++ [Action.read offSapi,.read offLen],0)
    else
      let (acts,rc) := sendCopy r m (if r.rbs2000 then some (octets m offData 4) else none)
        (offData+4) (len-4)
      (log ++ [Action.read offSapi,.read offLen] ++ reads offData 4 ++ acts,rc)
  else (log ++ [Action.read offSapi],-22)

def pcuRx (msgType : Octet) : List Action × Int :=
  if msgType = pcuIfMsgDataReq ∨ msgType = pcuIfMsgPagReq then pcuRxDataReq r m else ([],-22)

def pcuSockRead : List Action × Int :=
  if r.rxAlloc then
    match r.recv with
    | .again => ([.alloc .rx],0)
    | .error => ([.alloc .rx,.free .rx],-1)
    | .octets [] => ([.alloc .rx,.free .rx],-1)
    | .octets l =>
      let m := octetAt l r.stale
      let (acts,rc) := pcuRx r m (m 0)
      ([Action.alloc .rx,.read 0] ++ acts ++ [Action.free .rx],rc)
  else ([],-12)

end Handlers

def Recv.length : Recv → Nat
  | .octets l => l.length
  | _ => 0

/-- Only octets that were received are read, and only entries that the table has. -/
def InBounds (n : Nat) (acts : List Action) : Prop :=
  (∀ off, .read off ∈ acts → off < n) ∧ ∀ i, .look i ∈ acts → i < sapiStrings

def Action.uses (b : Buf) : Action → Bool
  | .alloc b' | .free b' => b' = b
  | _ => false

def history (b : Buf) (acts : List Action) : List Action := acts.filter (·.uses b)

def Released (b : Buf) (acts : List Action) : Prop :=
  history b acts = [] ∨ history b acts = [.alloc b,.free b]

instance (b : Buf) (acts : List Action) : Decidable (Released b acts) :=
  inferInstanceAs (Decidable (_ ∨ _))

def HandledWell (r : Reception) : Prop :=
  InBounds r.recv.length (pcuSockRead r).1 ∧ ∀ b, Released b (pcuSockRead r).1

section Bounds

variable {n off k : Nat} {acts acts' : List Action} {b : Buf}

@[simp] theorem inBounds_nil : InBounds n [] := by simp [InBounds]

@[simp] theorem inBounds_append : InBounds n (acts ++ acts') ↔ InBounds n acts ∧ InBounds n acts' := by
  simp only [InBounds,List.mem_append]
  constructor
  · rintro ⟨hr,hl⟩
    exact ⟨⟨fun off h => hr off (.inl h),fun i h => hl i (.inl h)⟩,
      fun off h => hr off (.inr h),fun i h => hl i (.inr h)⟩
  · rintro ⟨⟨hr,hl⟩,hr',hl'⟩
    exact ⟨fun off h => h.elim (hr off) (hr' off),fun i h => h.elim (hl i) (hl' i)⟩

@[simp] theorem inBounds_read : InBounds n (.read off :: acts) ↔ off < n ∧ InBounds n acts := by
  simp [InBounds,and_assoc]

@[simp] theorem inBounds_look : InBounds n (.look k :: acts) ↔ k < sapiStrings ∧ InBounds n acts := by
  simp [InBounds,and_left_comm]

@[simp] theorem inBounds_alloc : InBounds n (.alloc b :: acts) ↔ InBounds n acts := by simp [InBounds]

@[simp] theorem inBounds_free : InBounds n (.free b :: acts) ↔ InBounds n acts := by simp [InBounds]

@[simp] theorem inBounds_rslPagingCmd {d mi : List Octet} {c : Octet} :
    InBounds n (.rslPagingCmd d c mi :: acts) ↔ InBounds n acts := by simp [InBounds]

@[simp] theorem inBounds_rslImmAssignCmd {t : Option (List Octet)} {v : List Octet} :
    InBounds n (.rslImmAssignCmd t v :: acts) ↔ InBounds n acts := by simp [InBounds]

@[simp] theorem inBounds_reads : InBounds n (reads off k) ↔ k = 0 ∨ off+k ≤ n := by
  constructor
  · intro h
    cases k with
    | zero => exact .inl rfl
    | succ k =>
      have hk := h.1 (off+k) (by simp [reads])
      exact .inr (by omega)
  · intro h
    refine ⟨fun i hi => ?_,fun i hi => ?_⟩
    · obtain ⟨j,hj,he⟩ := List.mem_map.mp hi
      have hlt := List.mem_range.mp hj
      cases he
      omega
    · simp [reads] at hi

@[simp] theorem history_append : history b (acts ++ acts') = history b acts ++ history b acts' :=
  List.filter_append ..

@[simp] theorem history_nil : history b [] = [] := rfl

@[simp] theorem history_read : history b (.read off :: acts) = history b acts := rfl

@[simp] theorem history_look : history b (.look k :: acts) = history b acts := rfl

@[simp] theorem history_rslPagingCmd {d mi : List Octet} {c : Octet} :
    history b (.rslPagingCmd d c mi :: acts) = history b acts := rfl

@[simp] theorem history_rslImmAssignCmd {t : Option (List Octet)} {v : List Octet} :
    history b (.rslImmAssignCmd t v :: acts) = history b acts := rfl

@[simp] theorem history_alloc {b' : Buf} : history b (.alloc b' :: acts) =
    if b' = b then .alloc b' :: history b acts else history b acts := by
  simp [history,List.filter_cons,Action.uses]

@[simp] theorem history_free {b' : Buf} : history b (.free b' :: acts) =
    if b' = b then .free b' :: history b acts else history b acts := by
  simp [history,List.filter_cons,Action.uses]

@[simp] theorem history_reads : history b (reads off k) = [] := by
  simp [history,reads,Action.uses]

end Bounds

section Sound

variable (r : Reception) (m : Nat → Octet) (n : Nat)

/-- A copy of `k` octets from `off` on is made within the `n` octets received, and freed
because RSL refuses the message. -/
def CopySound (off k : Nat) : Prop := r.agchAlloc = true → (k = 0 ∨ off+k ≤ n) ∧ r.rslFails = true

/-- The primitive has the fields that are looked at, and its lengths stay inside it. -/
structure DataReqSound : Prop where
  sapi : offSapi < n
  log : r.debug = true → (m offSapi).toNat < sapiStrings ∧ offBlockNr < n ∧
    offData+(m offLen).toNat ≤ n
  pch : m offSapi = pcuIfSapiPch → offData+5 < n ∧
    (m (offData+5) = gsm48MtRrPagReq1 → offData+8+(m (offData+7)).toNat ≤ n)
  agch : m offSapi = pcuIfSapiAgch → offLen < n ∧ CopySound r n offData (m offLen).toNat
  agchDt : m offSapi = pcuIfSapiAgchDt → offLen < n ∧ (5 ≤ (m offLen).toNat →
    offData+4 ≤ n ∧ CopySound r n (offData+4) ((m offLen).toNat-4))

/-- The receptions that are handled well: `recv` does not ask to try again, and a data or
paging request is sound. -/
def Reception.Sound : Prop :=
  r.rxAlloc = true → r.recv ≠ .again ∧ ∀ l, r.recv = .octets l → l ≠ [] →
    (octetAt l r.stale 0 = pcuIfMsgDataReq ∨ octetAt l r.stale 0 = pcuIfMsgPagReq) →
      DataReqSound r (octetAt l r.stale) l.length

theorem inBounds_logDataReq : InBounds n (logDataReq m) ↔
    (m offSapi).toNat < sapiStrings ∧ offBlockNr < n ∧ offData+(m offLen).toNat ≤ n := by
  simp only [logDataReq,inBounds_append,inBounds_read,inBounds_look,inBounds_nil,inBounds_reads,
    offSapi,offArfcn,offBlockNr,offLen,offData,sapiStrings,and_true]
  omega

theorem history_logDataReq (b : Buf) : history b (logDataReq m) = [] := by simp [logDataReq]

theorem inBounds_pcuRxRrPaging (d : List Octet) (raw : Nat) : InBounds n (pcuRxRrPaging m d raw) ↔
    raw+2 < n ∧ (m (raw+2) = gsm48MtRrPagReq1 → raw+5+(m (raw+4)).toNat ≤ n) := by
  rw [pcuRxRrPaging]
  split
  · rename_i h
    simp only [inBounds_read,inBounds_append,inBounds_reads,inBounds_rslPagingCmd,inBounds_nil,h,and_true,
      true_imp_iff]
    omega
  · rename_i h
    simp [h]

theorem history_pcuRxRrPaging (b : Buf) (d : List Octet) (raw : Nat) :
    history b (pcuRxRrPaging m d raw) = [] := by
  rw [pcuRxRrPaging]
  split <;> simp

theorem inBounds_sendCopy (t : Option (List Octet)) (off k : Nat) :
    InBounds n (sendCopy r m t off k).1 ↔ (r.agchAlloc = true → k = 0 ∨ off+k ≤ n) := by
  rw [sendCopy]
  cases r.agchAlloc <;> cases r.rslFails <;> simp

theorem history_sendCopy_agch (t : Option (List Octet)) (off k : Nat) :
    history .agch (sendCopy r m t off k).1 =
      if r.agchAlloc then if r.rslFails then [.alloc .agch,.free .agch] else [.alloc .agch] else [] := by
  rw [sendCopy]
  cases r.agchAlloc <;> cases r.rslFails <;> simp

theorem history_sendCopy_rx (t : Option (List Octet)) (off k : Nat) :
    history .rx (sendCopy r m t off k).1 = [] := by
  rw [sendCopy]
  cases r.agchAlloc <;> cases r.rslFails <;> simp

theorem sendCopy_sound (t : Option (List Octet)) (off k : Nat) :
    InBounds n (sendCopy r m t off k).1 ∧ Released .agch (sendCopy r m t off k).1 ↔ CopySound r n off k := by
  rw [inBounds_sendCopy,Released,history_sendCopy_agch,CopySound]
  cases r.agchAlloc <;> cases r.rslFails <;> simp

theorem inBounds_log : InBounds n (if r.debug then logDataReq m else []) ↔ (r.debug = true →
    (m offSapi).toNat < sapiStrings ∧ offBlockNr < n ∧ offData+(m offLen).toNat ≤ n) := by
  cases r.debug with
  | false => simp
  | true => simpa using inBounds_logDataReq m n

theorem history_log (b : Buf) : history b (if r.debug then logDataReq m else []) = [] := by
  cases r.debug with
  | false => simp
  | true => simpa using history_logDataReq m b

theorem history_pcuRxDataReq_rx : history .rx (pcuRxDataReq r m).1 = [] := by
  simp only [pcuRxDataReq]
  split
  · simp [history_log,history_pcuRxRrPaging]
  · split
    · simp [history_log,history_sendCopy_rx]
    · split
      · split <;> simp [history_log,history_sendCopy_rx]
      · simp [history_log]

theorem pcuRxDataReq_sound :
    InBounds n (pcuRxDataReq r m).1 ∧ Released .agch (pcuRxDataReq r m).1 ↔ DataReqSound r m n := by
  have hlog := inBounds_log r m n
  have hdt : pcuIfSapiAgchDt ≠ pcuIfSapiPch ∧ pcuIfSapiAgchDt ≠ pcuIfSapiAgch := by decide
  have hag : pcuIfSapiAgch ≠ pcuIfSapiPch := by decide
  simp only [pcuRxDataReq]
  by_cases hp : m offSapi = pcuIfSapiPch
  · have hpag := inBounds_pcuRxRrPaging m n (octets m offData 3) (offData+3)
    simp only [if_pos hp,inBounds_append,inBounds_read,inBounds_nil,inBounds_reads,hlog,hpag,Released,
      history_append,history_log,history_read,history_nil,history_reads,history_pcuRxRrPaging]
    constructor
    · rintro ⟨⟨⟨⟨hl,hs,-⟩,-⟩,hraw,hmi⟩,-⟩
      exact ⟨hs,hl,fun _ => ⟨hraw,hmi⟩,fun h => absurd (h.symm.trans hp) hag,
        fun h => absurd (h.symm.trans hp) hdt.1⟩
    · intro h
      obtain ⟨hraw,hmi⟩ := h.pch hp
      exact ⟨⟨⟨⟨h.log,h.sapi,trivial⟩,.inr (by omega)⟩,hraw,hmi⟩,.inl rfl⟩
  by_cases ha : m offSapi = pcuIfSapiAgch
  · have hc := sendCopy_sound r m n none offData (m offLen).toNat
    simp only [if_neg hp,if_pos ha,inBounds_append,inBounds_read,inBounds_nil,hlog,Released,
      history_append,history_log,history_read,history_nil,List.nil_append] at hc ⊢
    constructor
    · rintro ⟨⟨⟨hl,hs,hlen,-⟩,hb⟩,hrel⟩
      exact ⟨hs,hl,fun h => absurd h hp,fun _ => ⟨hlen,hc.mp ⟨hb,hrel⟩⟩,
        fun h => absurd (h.symm.trans ha) hdt.2⟩
    · intro h
      obtain ⟨hlen,hcopy⟩ := h.agch ha
      obtain ⟨hb,hrel⟩ := hc.mpr hcopy
      exact ⟨⟨⟨h.log,h.sapi,hlen,trivial⟩,hb⟩,hrel⟩
  by_cases hd : m offSapi = pcuIfSapiAgchDt
  · simp only [if_neg hp,if_neg ha,if_pos hd]
    by_cases h5 : (m offLen).toNat < 5
    · simp only [if_pos h5,inBounds_append,inBounds_read,inBounds_nil,hlog,Released,
        history_append,history_log,history_read,history_nil]
      constructor
      · rintro ⟨⟨hl,hs,hlen,-⟩,-⟩
        exact ⟨hs,hl,fun h => absurd h hp,fun h => absurd h ha,fun _ => ⟨hlen,fun h => by omega⟩⟩
      · intro h
        exact ⟨⟨h.log,h.sapi,(h.agchDt hd).1,trivial⟩,.inl rfl⟩
    · have hc := sendCopy_sound r m n (if r.rbs2000 then some (octets m offData 4) else none)
        (offData+4) ((m offLen).toNat-4)
      simp only [if_neg h5,inBounds_append,inBounds_read,inBounds_nil,inBounds_reads,hlog,Released,
        history_append,history_log,history_read,history_nil,history_reads,List.nil_append] at hc ⊢
      constructor
      · rintro ⟨⟨⟨⟨hl,hs,hlen,-⟩,htlli⟩,hb⟩,hrel⟩
        exact ⟨hs,hl,fun h => absurd h hp,fun h => absurd h ha,
          fun _ => ⟨hlen,fun _ => ⟨htlli.resolve_left (by omega),hc.mp ⟨hb,hrel⟩⟩⟩⟩
      · intro h
        obtain ⟨hlen,h4⟩ := h.agchDt hd
        obtain ⟨htlli,hcopy⟩ := h4 (by omega)
        obtain ⟨hb,hrel⟩ := hc.mpr hcopy
        exact ⟨⟨⟨⟨h.log,h.sapi,hlen,trivial⟩,.inr htlli⟩,hb⟩,hrel⟩
  · simp only [if_neg hp,if_neg ha,if_neg hd,inBounds_append,inBounds_read,inBounds_nil,hlog,Released,
      history_append,history_log,history_read,history_nil]
    constructor
    · rintro ⟨⟨hl,hs,-⟩,-⟩
      exact ⟨hs,hl,fun h => absurd h hp,fun h => absurd h ha,fun h => absurd h hd⟩
    · intro h
      exact ⟨⟨h.log,h.sapi,trivial⟩,.inl rfl⟩

theorem handledWell_octets {a : Octet} {l : List Octet} (halloc : r.rxAlloc = true)
    (hrecv : r.recv = .octets (a :: l)) :
    HandledWell r ↔ ((a = pcuIfMsgDataReq ∨ a = pcuIfMsgPagReq) →
      DataReqSound r (octetAt (a :: l) r.stale) (a :: l).length) := by
  have h0 : octetAt (a :: l) r.stale 0 = a := rfl
  simp only [HandledWell,pcuSockRead,halloc,if_true,hrecv,Recv.length,h0,pcuRx]
  split
  · rename_i hreq
    have hs := pcuRxDataReq_sound r (octetAt (a :: l) r.stale) (a :: l).length
    have hrx := history_pcuRxDataReq_rx r (octetAt (a :: l) r.stale)
    simp only [hreq,true_imp_iff,← hs,inBounds_append,inBounds_alloc,inBounds_read,inBounds_free,
      inBounds_nil,Released,history_append,history_alloc,history_read,history_free,history_nil]
    constructor
    · rintro ⟨⟨⟨-,hb⟩,-⟩,hrel⟩
      exact ⟨hb,by simpa using hrel .agch⟩
    · rintro ⟨hb,hrel⟩
      refine ⟨⟨⟨⟨by simp,trivial⟩,hb⟩,trivial⟩,fun b => ?_⟩
      cases b with
      | rx => simp [hrx]
      | agch => simpa using hrel
  · rename_i hreq
    simp only [hreq,false_imp_iff,iff_true]
    refine ⟨by simp,fun b => ?_⟩
    cases b <;> simp [Released]

theorem handledWell_iff : HandledWell r ↔ r.Sound := by
  cases ha : r.rxAlloc with
  | false => simp [HandledWell,pcuSockRead,Reception.Sound,ha,Released]
  | true =>
    cases hr : r.recv with
    | again =>
      refine iff_of_false (fun h => ?_) (fun h => (h ha).1 hr)
      have hrx := h.2 .rx
      simp [pcuSockRead,ha,hr,Released] at hrx
    | error =>
      refine iff_of_true ?_ fun _ => ⟨by simp [hr],fun l hl => by simp [hr] at hl⟩
      refine ⟨by simp [pcuSockRead,ha,hr],fun b => ?_⟩
      cases b <;> simp [pcuSockRead,ha,hr,Released]
    | octets l =>
      cases l with
      | nil =>
        refine iff_of_true ?_ fun _ => ⟨by simp [hr],fun l hl hne => ?_⟩
        · refine ⟨by simp [pcuSockRead,ha,hr],fun b => ?_⟩
          cases b <;> simp [pcuSockRead,ha,hr,Released]
        · rw [hr] at hl
          cases hl
          exact absurd rfl hne
      | cons a l =>
        rw [handledWell_octets r ha hr]
        constructor
        · intro h _
          refine ⟨by simp [hr],fun l' hl' _ hreq => ?_⟩
          rw [hr] at hl'
          cases hl'
          exact h hreq
        · intro h hreq
          exact (h ha).2 (a :: l) hr (by simp) hreq

end Sound

end OsmoBsc.Pcu
