import OsmoBsc.Lib.Fsm
import Mathlib.Logic.Function.Basic
set_option autoImplicit false

namespace OsmoBsc.Paging

/-- `struct bsc_subscr *`. -/
abbrev SubscrId := Nat

/-- `struct bsc_msc_data *`. -/
abbrev MscId := Nat

/-- The channels that a paged MS may be told to request, RSL_CHANNEED_*. -/
inductive ChanNeeded where
  | any
  | sdcch
  | tchF
  | tchForH
  deriving DecidableEq, Repr

/-- `struct gsm_paging_request`; its T3113 runs as long as it is pending. -/
structure Request where
  bsub : SubscrId
  chanType : ChanNeeded
  msc : MscId
  attempts : Nat := 0
  deriving DecidableEq, Repr

/-- `struct gsm_bts_paging_state`; `initialized` is its pointer `bts`, and a timer is
true while it is pending. -/
structure PagingState where
  initialized : Bool := false
  pendingRequests : List Request := []
  workTimer : Bool := false
  creditTimer : Bool := false
  freeChansNeed : Int := -1
  availableSlots : Nat := 0
  deriving DecidableEq, Repr

/-- What must not happen: an assertion that fails, a reference to a subscriber that is
freed, or `available_slots--` at zero. -/
inductive Fault where
  | useCountMax
  | notEmpty
  | freedSubscr
  | slotsWrap
  deriving DecidableEq, Repr

/-- A network of `n` BTSs. `useCount` is that of the subscribers, and `others` says how
many of these references are held elsewhere than by paging. -/
structure State (n : Nat) where
  bts : Fin n → PagingState := fun _ => {}
  useCount : SubscrId → Nat := fun _ => 0
  others : SubscrId → Nat := fun _ => 0

/-- What the worker finds: the number of free channels of the kind that
`can_send_pag_req` counts, and whether the OML link is up. -/
structure Env where
  freeChans : ChanNeeded → Int
  omlLink : Bool

/-- The events of paging, and references to subscribers that others take and release. -/
inductive Input (n : Nat) where
  | request (b : Fin n) (trxUsable : Bool) (bsub : SubscrId) (type : ChanNeeded) (msc : MscId)
  | stop (b : Option (Fin n)) (bsub : SubscrId)
  | worker (b : Fin n) (env : Env)
  | credit (b : Fin n) (env : Env)
  | t3113Expired (b : Fin n) (i : Nat)
  | bufferSpace (b : Fin n) (freeSlots : Fin 65536)
  | flushBts (b : Fin n) (msc : Option MscId)
  | flushNetwork (msc : Option MscId)
  | freeChansNeed (b : Fin n) (count : Int)
  | getSubscr (bsub : SubscrId)
  | putSubscr (bsub : SubscrId)

section Operations

variable {n : Nat}

def bscSubscrGet (bsub : SubscrId) (st : State n) : Except Fault (State n) :=
  if st.useCount bsub < 2147483647 then
    .ok { st with useCount := Function.update st.useCount bsub (st.useCount bsub + 1) }
  else .error .useCountMax

/-- `bsc_subscr_put`; the subscriber is freed with its last reference. -/
def bscSubscrPut (bsub : SubscrId) (st : State n) : Except Fault (State n) :=
  if st.useCount bsub = 0 then .error .freedSubscr
  else .ok { st with useCount := Function.update st.useCount bsub (st.useCount bsub - 1) }

def State.updBts (st : State n) (b : Fin n) (p : PagingState) : State n :=
  { st with bts := Function.update st.bts b p }

/-- `paging_remove_request`, for the request of subscriber `bsub`. -/
def pagingRemoveRequest (b : Fin n) (bsub : SubscrId) (st : State n) : Except Fault (State n) :=
  bscSubscrPut bsub (st.updBts b { st.bts b with
    pendingRequests := (st.bts b).pendingRequests.eraseP (·.bsub == bsub) })

def pagingScheduleIfNeeded (p : PagingState) : PagingState :=
  if p.pendingRequests.isEmpty then p else { p with workTimer := true }

/-- `available_slots--`. -/
def decSlots (slots : Nat) : Except Fault Nat :=
  if slots = 0 then .error .slotsWrap else .ok (slots - 1)

def pagingHandlePendingRequests (env : Env) (p : PagingState) : Except Fault PagingState :=
  match p.pendingRequests with
  | [] => .ok p
  | request :: rest =>
    if p.availableSlots = 0 then .ok { p with creditTimer := true }
    else if p.freeChansNeed ≠ -1 ∧ env.freeChans request.chanType < p.freeChansNeed then
      .ok { p with workTimer := true }
    else if !env.omlLink then .ok { p with workTimer := true }
    else do
      let slots ← decSlots p.availableSlots
      return { p with
        availableSlots := slots
        pendingRequests := rest ++ [{ request with attempts := request.attempts + 1 }]
        workTimer := true }

def pagingGiveCredit (env : Env) (p : PagingState) : Except Fault PagingState :=
  pagingHandlePendingRequests env { p with availableSlots := 20 }

def pagingInitIfNeeded (p : PagingState) : Except Fault PagingState :=
  if p.initialized then .ok p
  else if p.pendingRequests.isEmpty then
    .ok { p with initialized := true, availableSlots := 20 }
  else .error .notEmpty

def pagingPendingRequest (p : PagingState) (bsub : SubscrId) : Bool :=
  p.pendingRequests.any (·.bsub == bsub)

/-- `paging_request_bts` with `_paging_request`. -/
def pagingRequestBts (b : Fin n) (trxUsable : Bool) (bsub : SubscrId) (type : ChanNeeded)
    (msc : MscId) (st : State n) : Except Fault (State n) :=
  if !trxUsable then .ok st
  else do
    let p ← pagingInitIfNeeded (st.bts b)
    let st := st.updBts b p
    if pagingPendingRequest p bsub then return st
    let st ← bscSubscrGet bsub st
    return st.updBts b (pagingScheduleIfNeeded { p with
      pendingRequests := p.pendingRequests ++ [{ bsub := bsub, chanType := type, msc := msc }] })

def pagingRequestStopBts (b : Fin n) (bsub : SubscrId) (st : State n) : Except Fault (State n) := do
  let p ← pagingInitIfNeeded (st.bts b)
  let st := st.updBts b p
  if pagingPendingRequest p bsub then pagingRemoveRequest b bsub st else return st

/-- The BTSs of `paging_request_stop`: first the one that got the response. -/
def stopOrder (b : Option (Fin n)) : List (Fin n) :=
  b.toList ++ (List.finRange n).filter (b != some ·)

/-- `paging_request_stop`; the connection of the response takes a reference. -/
def pagingRequestStop (b : Option (Fin n)) (bsub : SubscrId) (st : State n) :
    Except Fault (State n) := do
  let st ← bscSubscrGet bsub st
  let st := { st with others := Function.update st.others bsub (st.others bsub + 1) }
  (stopOrder b).foldlM (fun st b => pagingRequestStopBts b bsub st) st

def pagingUpdateBufferSpace (freeSlots : Nat) (p : PagingState) : Except Fault PagingState := do
  let p ← pagingInitIfNeeded p
  return pagingScheduleIfNeeded { p with creditTimer := false, availableSlots := freeSlots }

def pagingFlushBts (msc : Option MscId) (b : Fin n) (st : State n) : Except Fault (State n) := do
  let p ← pagingInitIfNeeded (st.bts b)
  let gone := p.pendingRequests.filter fun req => msc.all (req.msc == ·)
  gone.foldlM (fun st req => pagingRemoveRequest b req.bsub st) (st.updBts b p)

/-- A timer of BTS `b`, which is no longer pending when it expires. -/
def expire (b : Fin n) (p : PagingState) (st : State n)
    (handle : PagingState → Except Fault PagingState) : Except Fault (State n) := do
  return st.updBts b (← handle p)

/-- One event. A caller of `paging_request_bts` and `paging_request_stop` holds a
reference to the subscriber, others only release references that they hold, and only a
timer that is pending expires. -/
def step (st : State n) (i : Input n) : Except Fault (State n) :=
  match i with
  | .request b trxUsable bsub type msc =>
    if st.others bsub = 0 then .ok st else pagingRequestBts b trxUsable bsub type msc st
  | .stop b bsub => if st.others bsub = 0 then .ok st else pagingRequestStop b bsub st
  | .worker b env =>
    if !(st.bts b).workTimer then .ok st
    else expire b { st.bts b with workTimer := false } st (pagingHandlePendingRequests env)
  | .credit b env =>
    if !(st.bts b).creditTimer then .ok st
    else expire b { st.bts b with creditTimer := false } st (pagingGiveCredit env)
  | .t3113Expired b i => match (st.bts b).pendingRequests[i]? with
    | none => .ok st
    | some req => pagingRemoveRequest b req.bsub st
  | .bufferSpace b freeSlots => expire b (st.bts b) st (pagingUpdateBufferSpace freeSlots)
  | .flushBts b msc => pagingFlushBts msc b st
  | .flushNetwork msc => (List.finRange n).foldlM (fun st b => pagingFlushBts msc b st) st
  | .freeChansNeed b count => .ok (st.updBts b { st.bts b with freeChansNeed := count })
  | .getSubscr bsub => do
    let st ← bscSubscrGet bsub st
    return { st with others := Function.update st.others bsub (st.others bsub + 1) }
  | .putSubscr bsub =>
    if st.others bsub = 0 then .ok st
    else bscSubscrPut bsub
      { st with others := Function.update st.others bsub (st.others bsub - 1) }

end Operations

end OsmoBsc.Paging
