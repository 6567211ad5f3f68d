import Mathlib.Data.List.Count
import OsmoBsc.Lib.Calls
import OsmoBsc.Subscr.Store
set_option autoImplicit false

namespace OsmoBsc.Subscr
open EventFsm

inductive Mi where
  | imsi (imsi : Filter.Imsi)
  | tmsi (tmsi : UInt32)
  | other
  deriving DecidableEq

/-- A layer 3 message of a phone: a PAGING RESPONSE, or another one that may reveal an IMSI. -/
inductive L3 where
  | pagResp (mi : Mi)
  | other (imsi : Option Filter.Imsi)
  deriving DecidableEq

/-- The IMSI that bsc_filter_initial() extracts. -/
def L3.imsi : L3 → Option Filter.Imsi
  | .pagResp (.imsi imsi) => some imsi
  | .pagResp _ => none
  | .other imsi => imsi

/-- What is used here of a `struct gsm_paging_request`. -/
structure PagingRequest where
  bts : Nat
  bsub : Addr
  msc : Nat
  deriving DecidableEq

/-- The subscribers and everything that points to them: the connections' `bsub`, the pending paging
requests of all BTSs and the log targets' filters. A connection or a log target is its place; where
a connection was freed or not allocated yet there is no subscriber. -/
structure State where
  subs : Store := {}
  bts : List Nat := []
  conns : List (Option Addr) := []
  requests : List PagingRequest := []
  filters : List (Option Addr) := []
  deriving DecidableEq

/-- The functions that take, pass on and release references. A reference that a function still
holds is the call of bsc_subscr_put() it has yet to make. -/
inductive Call where
  | pageSubscriber (msc bts : Nat) (tmsi : UInt32) (lac : Nat) (imsi : Filter.Imsi)
  | bscGracePagingRequest (bsub : Addr) (msc bts : Nat)
  | bscSubscrPut (bsub : Addr)
  | bscComplL3 (conn : Nat) (msg : L3)
  | completeLayer3 (conn : Nat) (msg : L3)
  | bscDtap (conn : Nat) (msg : L3)
  | bscScanBtsMsg (conn : Nat) (msg : L3)
  | pagingRequestStop (bsub : Addr) (conn : Nat)
  | pagingRequestStopBts (bts : Nat) (bsub : Addr)
  | t3113Expired (i : Nat)
  | pagingFlush (bts msc : Option Nat)
  | gsconCleanup (conn : Nat)
  | loggingFltrImsi (tgt : Nat) (imsi : Filter.Imsi)
  | logSetFilterBscSubscr (tgt : Nat) (bsub : Addr)
  deriving DecidableEq

/-- What a call depends on besides: `no` is a refusal (no usable TRX, no MSC, a filter or no SCCP
connection), `move` a CALL SETUP that moves the connection to another MSC. -/
inductive Env where
  | no
  | yes
  | move
  deriving DecidableEq

def extractSub (st : Store) : L3 → Except Fault (Store × Option Addr)
  | .pagResp (.tmsi tmsi) => st.bscSubscrFindByTmsi tmsi
  | .pagResp (.imsi imsi) => st.bscSubscrFindByImsi imsi
  | _ => .ok (st,none)

/-- A pointer that is about to be replaced is given up, if it is set. -/
def putOld (st : Store) : Option Addr → Except Fault Store
  | none => .ok st
  | some a => st.bscSubscrPut a

/-- The body of a function up to the calls it makes. -/
def exec (t : Call) (env : Env) (s : State) : Except Fault (State × List Call) :=
  match t with
  | .pageSubscriber msc bts tmsi lac imsi => do
    let (subs,a) ← s.subs.bscSubscrFindOrCreateByImsi imsi
    return ({ s with subs := subs.write a fun e => { e with lac, tmsi } },
      [.bscGracePagingRequest a msc bts,.bscSubscrPut a])
  | .bscGracePagingRequest a msc bts =>
    if env = .no then .ok (s,[])
    else if s.requests.any fun req => req.bts == bts && req.bsub == a then .ok (s,[])
    else do
      let subs ← s.subs.bscSubscrGet a
      return ({ s with subs, requests := s.requests ++ [⟨bts,a,msc⟩] },[])
  | .bscSubscrPut a => do
    let subs ← s.subs.bscSubscrPut a
    return ({ s with subs },[])
  | .bscComplL3 conn msg =>
    let next : List Call := if env = .no then [] else [.completeLayer3 conn msg]
    match msg with
    | .other _ => .ok (s,next)
    | .pagResp _ => do
      match ← extractSub s.subs msg with
      | (subs,none) => return ({ s with subs },[])
      | (subs,some a) => return ({ s with subs },.bscSubscrPut a :: next)
  | .completeLayer3 conn msg =>
    if env = .no then .ok (s,[])
    else match msg.imsi,s.conns[conn]? with
      | none,_ => .ok (s,[.bscScanBtsMsg conn msg])
      | some _,none => .ok (s,[])
      | some imsi,some (some a) =>
        if (s.subs.at? a).isNone then .error .useAfterFree
        else .ok ({ s with subs := s.subs.bscSubscrSetImsi a imsi },[.bscScanBtsMsg conn msg])
      | some imsi,some none => do
        let (subs,a) ← s.subs.bscSubscrFindOrCreateByImsi imsi
        return ({ s with subs, conns := s.conns.set conn (some a) },[.bscScanBtsMsg conn msg])
  | .bscDtap conn msg => match env with
    | .no => .ok (s,[])
    | .yes => .ok (s,[.bscScanBtsMsg conn msg])
    | .move => .ok (s,[.completeLayer3 conn msg])
  | .bscScanBtsMsg conn msg => do
    -- handle_page_resp()
    match ← extractSub s.subs msg with
    | (subs,none) => return ({ s with subs },[])
    | (subs,some a) => return ({ s with subs },[.pagingRequestStop a conn,.bscSubscrPut a])
  | .pagingRequestStop a conn =>
    if s.conns.length ≤ conn then .ok (s,[])
    else do
      let subs ← s.subs.bscSubscrGet a
      return ({ s with subs, conns := s.conns.set conn (some a) },
        s.bts.map fun bts => .pagingRequestStopBts bts a)
  | .pagingRequestStopBts bts a =>
    match s.requests.find? fun req => req.bts == bts && req.bsub == a with
    | none => .ok (s,[])
    | some req => .ok ({ s with requests := s.requests.erase req },[.bscSubscrPut req.bsub])
  | .t3113Expired i => match s.requests[i]? with
    | none => .ok (s,[])
    | some req => .ok ({ s with requests := s.requests.erase req },[.bscSubscrPut req.bsub])
  | .pagingFlush bts msc =>
    let flushed (req : PagingRequest) : Bool := bts.all (req.bts == ·) && msc.all (req.msc == ·)
    .ok ({ s with requests := s.requests.filter fun req => !flushed req },
      (s.requests.filter flushed).map fun req => .bscSubscrPut req.bsub)
  | .gsconCleanup conn => match s.conns[conn]? with
    | some (some a) => .ok ({ s with conns := s.conns.set conn none },[.bscSubscrPut a])
    | _ => .ok (s,[])
  | .loggingFltrImsi tgt imsi =>
    if s.filters.length ≤ tgt then .ok (s,[])
    else do
      let (subs,a) ← s.subs.bscSubscrFindOrCreateByImsi imsi
      return ({ s with subs },[.logSetFilterBscSubscr tgt a,.bscSubscrPut a])
  | .logSetFilterBscSubscr tgt a => match s.filters[tgt]? with
    | none => .ok (s,[])
    | some old => do
      let subs ← putOld s.subs old
      let subs ← subs.bscSubscrGet a
      return ({ s with subs, filters := s.filters.set tgt (some a) },[])

inductive Input where
  | page (msc bts : Nat) (tmsi : UInt32) (lac : Nat) (imsi : Filter.Imsi)
  | t3113 (i : Nat)
  | flush (bts msc : Option Nat)
  | complL3 (conn : Nat) (msg : L3)
  | dtap (conn : Nat) (msg : L3)
  | connFree (conn : Nat)
  | fltrImsi (tgt : Nat) (imsi : Filter.Imsi)

def enter (i : Input) (_ : State) : List Call :=
  match i with
  | .page msc bts tmsi lac imsi => [.pageSubscriber msc bts tmsi lac imsi]
  | .t3113 i => [.t3113Expired i]
  | .flush bts msc => [.pagingFlush bts msc]
  | .complL3 conn msg => [.bscComplL3 conn msg]
  | .dtap conn msg => [.bscDtap conn msg]
  | .connFree conn => [.gsconCleanup conn]
  | .fltrImsi tgt imsi => [.loggingFltrImsi tgt imsi]

/-- A network with its BTSs, connections without a subscriber and log targets without a filter. -/
def idle (bts : List Nat) (conns targets : Nat) : State :=
  { bts, conns := List.replicate conns none, filters := List.replicate targets none }

section Conservation

/-- The holders of a subscriber: connections, pending paging requests, log filters, and functions that
have yet to put the reference they took. -/
def held (s : State) (calls : List Call) (a : Addr) : Nat :=
  s.conns.count (some a) + s.requests.countP (·.bsub == a) + s.filters.count (some a) +
    calls.count (.bscSubscrPut a)

/-- The subscriber that a call uses on the strength of a reference of its caller. -/
def Call.uses : Call → Option Addr
  | .bscGracePagingRequest a _ _ => some a
  | .pagingRequestStop a _ => some a
  | .logSetFilterBscSubscr _ a => some a
  | _ => none

def Covered : List Call → Prop
  | [] => True
  | t :: ts => (∀ a, t.uses = some a → .bscSubscrPut a ∈ ts) ∧ Covered ts

structure Conserved (s : State) (calls : List Call) : Prop where
  balanced : Balanced s.subs (held s calls)
  covered : Covered calls

theorem Balanced.congr {st : Store} {h h' : Addr → Nat} (hb : Balanced st h) (he : ∀ a, h' a = h a) :
    Balanced st h' := by
  rwa [show h' = h from funext he]

theorem Balanced.findByImsi {st st' : Store} {h : Addr → Nat} {imsi : Filter.Imsi} {r : Option Addr}
    (hb : Balanced st h) (hf : st.bscSubscrFindByImsi imsi = .ok (st',r)) :
    (r = none ∧ st' = st) ∨ ∃ a, r = some a ∧ Balanced st' (bump a h) := by
  simp only [Store.bscSubscrFindByImsi] at hf
  split at hf
  · cases hf
    exact .inl ⟨rfl,rfl⟩
  · exact hb.findBy hf

theorem Balanced.findByTmsi {st st' : Store} {h : Addr → Nat} {tmsi : UInt32} {r : Option Addr}
    (hb : Balanced st h) (hf : st.bscSubscrFindByTmsi tmsi = .ok (st',r)) :
    (r = none ∧ st' = st) ∨ ∃ a, r = some a ∧ Balanced st' (bump a h) := by
  simp only [Store.bscSubscrFindByTmsi] at hf
  split at hf
  · cases hf
    exact .inl ⟨rfl,rfl⟩
  · exact hb.findBy hf

theorem Balanced.findOrCreateByImsi {st st' : Store} {h : Addr → Nat} {imsi : Filter.Imsi} {a : Addr}
    (hb : Balanced st h) (hf : st.bscSubscrFindOrCreateByImsi imsi = .ok (st',a)) :
    Balanced st' (bump a h) := by
  simp only [Store.bscSubscrFindOrCreateByImsi,bind_eq_ok] at hf
  obtain ⟨⟨st1,r⟩,hfind,hrest⟩ := hf
  rcases hb.findByImsi hfind with ⟨rfl,rfl⟩ | ⟨b,rfl,hb'⟩
  · refine hb.create ?_ hrest
    intro st b
    exact ⟨_,rfl,fun _ => ⟨rfl,rfl⟩⟩
  · cases hrest
    exact hb'

theorem Balanced.extractSub {st st' : Store} {h : Addr → Nat} {msg : L3} {r : Option Addr}
    (hb : Balanced st h) (hf : extractSub st msg = .ok (st',r)) :
    (r = none ∧ st' = st) ∨ ∃ a, r = some a ∧ Balanced st' (bump a h) := by
  simp only [Subscr.extractSub] at hf
  split at hf
  · exact hb.findByTmsi hf
  · exact hb.findByImsi hf
  · cases hf
    exact .inl ⟨rfl,rfl⟩

section Counts

theorem count_fill {l : List (Option Addr)} {i : Nat} (h : l[i]? = some none) (a b : Addr) :
    (l.set i (some b)).count (some a) = l.count (some a) + if a = b then 1 else 0 := by
  obtain ⟨hlt,hget⟩ := List.getElem?_eq_some_iff.mp h
  rw [List.count_set hlt,hget]
  by_cases hab : a = b
  · simp [hab]
  · simp [hab,Ne.symm hab]

theorem count_clear {l : List (Option Addr)} {i : Nat} {b : Addr} (h : l[i]? = some (some b)) (a : Addr) :
    l.count (some a) = (l.set i none).count (some a) + if a = b then 1 else 0 := by
  obtain ⟨hlt,hget⟩ := List.getElem?_eq_some_iff.mp h
  rw [List.count_set hlt,hget]
  by_cases hab : a = b
  · subst hab
    have hpos : 0 < l.count (some a) := List.count_pos_iff.mpr (List.mem_of_getElem? h)
    simp
    omega
  · simp [hab,Ne.symm hab]

variable (s : State) (ts : List Call) (a : Addr)

theorem held_put (b : Addr) : held s (.bscSubscrPut b :: ts) a = bump b (held s ts) a := by
  simp only [held,bump,List.count_cons,beq_iff_eq,Call.bscSubscrPut.injEq,eq_comm (a := b)]
  omega

theorem held_other {t : Call} (ht : ∀ b, t ≠ .bscSubscrPut b) : held s (t :: ts) a = held s ts a := by
  simp [held,ht a]

theorem held_append_other {new : List Call} (hn : ∀ t ∈ new, ∀ b, t ≠ .bscSubscrPut b) :
    held s (new ++ ts) a = held s ts a := by
  induction new with
  | nil => rfl
  | cons t new ih =>
    rw [List.cons_append,held_other s _ a (hn t (by simp)),ih fun t ht => hn t (by simp [ht])]

theorem held_conn {conn : Nat} {b : Addr} (hc : s.conns[conn]? = some none) :
    held { s with conns := s.conns.set conn (some b) } ts a = bump b (held s ts) a := by
  simp only [held,bump,count_fill hc a b]
  omega

theorem held_conn_clear {conn : Nat} {b : Addr} (hc : s.conns[conn]? = some (some b)) :
    held s ts a = bump b (held { s with conns := s.conns.set conn none } ts) a := by
  simp only [held,bump,count_clear hc a]
  omega

theorem held_filter {tgt : Nat} {b : Addr} (hc : s.filters[tgt]? = some none) :
    held { s with filters := s.filters.set tgt (some b) } ts a = bump b (held s ts) a := by
  simp only [held,bump,count_fill hc a b]
  omega

theorem held_filter_clear {tgt : Nat} {b : Addr} (hc : s.filters[tgt]? = some (some b)) :
    held s ts a = bump b (held { s with filters := s.filters.set tgt none } ts) a := by
  simp only [held,bump,count_clear hc a]
  omega

theorem held_request (req : PagingRequest) :
    held { s with requests := s.requests ++ [req] } ts a = bump req.bsub (held s ts) a := by
  simp only [held,bump,List.countP_append,List.countP_singleton,beq_iff_eq,eq_comm (a := req.bsub)]
  omega

theorem held_request_erase {req : PagingRequest} (hm : req ∈ s.requests) :
    held s ts a = bump req.bsub (held { s with requests := s.requests.erase req } ts) a := by
  have hperm := (List.perm_cons_erase hm).countP_eq (·.bsub == a)
  simp only [held,bump,hperm,List.countP_cons,beq_iff_eq,eq_comm (a := req.bsub)]
  omega

theorem held_flush (flushed : PagingRequest → Bool) :
    held { s with requests := s.requests.filter fun req => !flushed req }
      ((s.requests.filter flushed).map (fun req => .bscSubscrPut req.bsub) ++ ts) a = held s ts a := by
  have hsplit := List.countP_eq_countP_filter_add s.requests (·.bsub == a) flushed
  have hput : ((s.requests.filter flushed).map fun req => Call.bscSubscrPut req.bsub).count
      (.bscSubscrPut a) = (s.requests.filter flushed).countP (·.bsub == a) := by
    rw [List.count,List.countP_map]
    apply List.countP_congr
    intro req _
    simp
  simp only [held,List.count_append,hput,hsplit]
  omega

end Counts

theorem covered_append {new ts : List Call} (hn : ∀ t ∈ new, t.uses = none) (h : Covered ts) :
    Covered (new ++ ts) := by
  induction new with
  | nil => exact h
  | cons t new ih =>
    refine ⟨?_,ih fun t ht => hn t (by simp [ht])⟩
    intro a ha
    rw [hn t (by simp)] at ha
    cases ha

/-- The connection that paging_request_stop() is about to be called for. -/
def stopping : List Call → Option Nat
  | .pagingRequestStop _ conn :: _ => some conn
  | _ => none

/-- A connection gets a subscriber by paging_request_stop() only if it has none yet. -/
def NoOverwrite (c : Calls.Config State Call) : Calls.Move Input Env → Prop
  | .input _ => True
  | .call _ => ∀ conn, stopping c.calls = some conn → c.state.conns[conn]?.getD none = none

instance (c : Calls.Config State Call) : (m : Calls.Move Input Env) → Decidable (NoOverwrite c m)
  | .input _ => isTrue trivial
  | .call _ => inferInstanceAs (Decidable (∀ conn, stopping c.calls = some conn →
      c.state.conns[conn]?.getD none = none))

section Steps

variable {s s' : State} {t : Call} {ts new : List Call} {env : Env}

theorem Conserved.balanced_rest (h : Conserved s (t :: ts)) (ht : ∀ b, t ≠ .bscSubscrPut b) :
    Balanced s.subs (held s ts) :=
  h.balanced.congr fun a => (held_other s ts a ht).symm

theorem Conserved.same (h : Conserved s (t :: ts)) (ht : ∀ b, t ≠ .bscSubscrPut b)
    (hn : ∀ t ∈ new, (∀ b, t ≠ .bscSubscrPut b) ∧ t.uses = none) : Conserved s (new ++ ts) where
  balanced := (h.balanced_rest ht).congr fun a => held_append_other s ts a fun t h => (hn t h).1
  covered := covered_append (fun t h => (hn t h).2) h.covered.2

theorem Conserved.hand {subs : Store} {a : Addr} (hb : Balanced subs (bump a (held s ts)))
    (hc : Covered ts) {uses : Call} (hu : uses.uses = some a) (hp : ∀ b, uses ≠ .bscSubscrPut b) :
    Conserved { s with subs } ([uses,.bscSubscrPut a] ++ ts) where
  balanced := by
    refine hb.congr fun b => ?_
    rw [List.cons_append,List.cons_append,List.nil_append,held_other _ _ b hp,held_put]
    rfl
  covered := by
    refine ⟨?_,?_,hc⟩
    · intro b he
      rw [hu,Option.some.injEq] at he
      simp [he]
    · intro b he
      cases he

theorem conserved_page {msc bts : Nat} {tmsi : UInt32} {lac : Nat} {imsi : Filter.Imsi}
    (h : Conserved s (.pageSubscriber msc bts tmsi lac imsi :: ts))
    (he : exec (.pageSubscriber msc bts tmsi lac imsi) env s = .ok (s',new)) : Conserved s' (new ++ ts) := by
  have hb := h.balanced_rest (by simp)
  simp only [exec,bind_eq_ok,pure_eq_ok,Except.ok.injEq,Prod.mk.injEq] at he
  obtain ⟨⟨subs,a⟩,hf,rfl,rfl⟩ := he
  have hw := (hb.findOrCreateByImsi hf).write a (f := fun e => { e with lac, tmsi }) fun _ => ⟨rfl,rfl⟩
  exact Conserved.hand hw h.covered.2 rfl (by simp)

theorem conserved_grace {a : Addr} {msc bts : Nat} (h : Conserved s (.bscGracePagingRequest a msc bts :: ts))
    (he : exec (.bscGracePagingRequest a msc bts) env s = .ok (s',new)) : Conserved s' (new ++ ts) := by
  have hb := h.balanced_rest (by simp)
  simp only [exec] at he
  split at he
  · cases he
    exact h.same (by simp) (by simp)
  · split at he
    · cases he
      exact h.same (by simp) (by simp)
    · simp only [bind_eq_ok,pure_eq_ok,Except.ok.injEq,Prod.mk.injEq] at he
      obtain ⟨subs,hg,rfl,rfl⟩ := he
      exact ⟨(hb.get hg).congr fun b => held_request s ts b ⟨bts,a,msc⟩,h.covered.2⟩

theorem conserved_put {a : Addr} (h : Conserved s (.bscSubscrPut a :: ts))
    (he : exec (.bscSubscrPut a) env s = .ok (s',new)) : Conserved s' (new ++ ts) := by
  simp only [exec,bind_eq_ok,pure_eq_ok,Except.ok.injEq,Prod.mk.injEq] at he
  obtain ⟨subs,hp,rfl,rfl⟩ := he
  have hb : Balanced s.subs (bump a (held s ts)) :=
    h.balanced.congr fun b => (held_put s ts b a).symm
  exact ⟨hb.put hp,h.covered.2⟩

theorem conserved_complL3 {conn : Nat} {msg : L3} (h : Conserved s (.bscComplL3 conn msg :: ts))
    (he : exec (.bscComplL3 conn msg) env s = .ok (s',new)) : Conserved s' (new ++ ts) := by
  have hb := h.balanced_rest (by simp)
  have hnext : ∀ t ∈ (if env = .no then [] else [Call.completeLayer3 conn msg]),
      (∀ b, t ≠ .bscSubscrPut b) ∧ t.uses = none := by
    split <;> simp [Call.uses]
  simp only [exec] at he
  generalize (if env = .no then [] else [Call.completeLayer3 conn msg]) = next at he hnext
  cases msg with
  | other imsi =>
    cases he
    exact h.same (by simp) hnext
  | pagResp mi =>
    simp only [bind_eq_ok] at he
    obtain ⟨⟨subs,r⟩,hf,hrest⟩ := he
    rcases hb.extractSub hf with ⟨rfl,rfl⟩ | ⟨a,rfl,hb'⟩
    · cases hrest
      exact h.same (by simp) (by simp)
    · cases hrest
      refine ⟨hb'.congr fun b => ?_,?_⟩
      · rw [List.cons_append,held_put]
        simp only [bump,held_append_other _ ts b fun t h => (hnext t h).1]
        rfl
      · refine ⟨?_,covered_append (fun t h => (hnext t h).2) h.covered.2⟩
        intro b hu
        cases hu

theorem conserved_completeLayer3 {conn : Nat} {msg : L3} (h : Conserved s (.completeLayer3 conn msg :: ts))
    (he : exec (.completeLayer3 conn msg) env s = .ok (s',new)) : Conserved s' (new ++ ts) := by
  have hb := h.balanced_rest (by simp)
  have hscan : ∀ t ∈ [Call.bscScanBtsMsg conn msg], (∀ b, t ≠ .bscSubscrPut b) ∧ t.uses = none := by
    simp [Call.uses]
  simp only [exec] at he
  split at he
  · cases he
    exact h.same (by simp) (by simp)
  · split at he
    · cases he
      exact h.same (by simp) hscan
    · cases he
      exact h.same (by simp) (by simp)
    · split at he
      · cases he
      · cases he
        refine ⟨?_,covered_append (fun t h => (hscan t h).2) h.covered.2⟩
        refine (hb.setImsi _ _).congr fun b => ?_
        exact held_append_other _ ts b fun t h => (hscan t h).1
    · rename_i hc
      simp only [bind_eq_ok,pure_eq_ok,Except.ok.injEq,Prod.mk.injEq] at he
      obtain ⟨⟨subs,a⟩,hf,rfl,rfl⟩ := he
      refine ⟨?_,covered_append (fun t h => (hscan t h).2) h.covered.2⟩
      refine (hb.findOrCreateByImsi hf).congr fun b => ?_
      rw [held_append_other _ ts b fun t h => (hscan t h).1]
      exact held_conn s ts b hc

theorem conserved_scan {conn : Nat} {msg : L3} (h : Conserved s (.bscScanBtsMsg conn msg :: ts))
    (he : exec (.bscScanBtsMsg conn msg) env s = .ok (s',new)) : Conserved s' (new ++ ts) := by
  have hb := h.balanced_rest (by simp)
  simp only [exec,bind_eq_ok] at he
  obtain ⟨⟨subs,r⟩,hf,hrest⟩ := he
  rcases hb.extractSub hf with ⟨rfl,rfl⟩ | ⟨a,rfl,hb'⟩
  · cases hrest
    exact h.same (by simp) (by simp)
  · cases hrest
    exact Conserved.hand hb' h.covered.2 rfl (by simp)

theorem conserved_stop {a : Addr} {conn : Nat} (h : Conserved s (.pagingRequestStop a conn :: ts))
    (hg : s.conns[conn]?.getD none = none)
    (he : exec (.pagingRequestStop a conn) env s = .ok (s',new)) : Conserved s' (new ++ ts) := by
  have hb := h.balanced_rest (by simp)
  simp only [exec] at he
  split at he
  · cases he
    exact h.same (by simp) (by simp)
  · rename_i hlt
    simp only [bind_eq_ok,pure_eq_ok,Except.ok.injEq,Prod.mk.injEq] at he
    obtain ⟨subs,hget,rfl,rfl⟩ := he
    have hc : s.conns[conn]? = some none := by
      rw [List.getElem?_eq_getElem (by omega)] at hg ⊢
      simpa using hg
    refine ⟨?_,covered_append (by simp [Call.uses]) h.covered.2⟩
    refine (hb.get hget).congr fun b => ?_
    rw [held_append_other _ ts b (by simp)]
    exact held_conn s ts b hc

theorem conserved_remove {req : PagingRequest} (hb : Balanced s.subs (held s ts)) (hc : Covered ts)
    (hm : req ∈ s.requests) :
    Conserved { s with requests := s.requests.erase req } ([Call.bscSubscrPut req.bsub] ++ ts) where
  balanced := by
    refine hb.congr fun b => ?_
    rw [List.cons_append,List.nil_append,held_put,held_request_erase s ts b hm]
  covered := covered_append (by simp [Call.uses]) hc

theorem conserved_stopBts {bts : Nat} {a : Addr} (h : Conserved s (.pagingRequestStopBts bts a :: ts))
    (he : exec (.pagingRequestStopBts bts a) env s = .ok (s',new)) : Conserved s' (new ++ ts) := by
  have hb := h.balanced_rest (by simp)
  simp only [exec] at he
  split at he
  · cases he
    exact h.same (by simp) (by simp)
  · rename_i req hreq
    cases he
    exact conserved_remove hb h.covered.2 (List.mem_of_find?_eq_some hreq)

theorem conserved_t3113 {i : Nat} (h : Conserved s (.t3113Expired i :: ts))
    (he : exec (.t3113Expired i) env s = .ok (s',new)) : Conserved s' (new ++ ts) := by
  have hb := h.balanced_rest (by simp)
  simp only [exec] at he
  split at he
  · cases he
    exact h.same (by simp) (by simp)
  · rename_i req hreq
    cases he
    exact conserved_remove hb h.covered.2 (List.mem_of_getElem? hreq)

theorem conserved_cleanup {conn : Nat} (h : Conserved s (.gsconCleanup conn :: ts))
    (he : exec (.gsconCleanup conn) env s = .ok (s',new)) : Conserved s' (new ++ ts) := by
  have hb := h.balanced_rest (by simp)
  simp only [exec] at he
  split at he
  · rename_i a hc
    cases he
    refine ⟨hb.congr fun b => ?_,covered_append (by simp [Call.uses]) h.covered.2⟩
    rw [List.cons_append,List.nil_append,held_put,held_conn_clear s ts b hc]
  · cases he
    exact h.same (by simp) (by simp)

theorem balanced_putOld {tgt : Nat} {old : Option Addr} {subs : Store} (hb : Balanced s.subs (held s ts))
    (hc : s.filters[tgt]? = some old) (hold : putOld s.subs old = .ok subs) :
    Balanced subs (held { s with filters := s.filters.set tgt none } ts) := by
  cases old with
  | none =>
    cases hold
    have hsame : s.filters.set tgt none = s.filters := by
      obtain ⟨hlt,hget⟩ := List.getElem?_eq_some_iff.mp hc
      rw [← hget,List.set_getElem_self]
    rwa [hsame]
  | some b =>
    have hb' : Balanced s.subs (bump b (held { s with filters := s.filters.set tgt none } ts)) :=
      hb.congr fun c => (held_filter_clear s ts c hc).symm
    exact hb'.put hold

theorem conserved_logSet {tgt : Nat} {a : Addr} (h : Conserved s (.logSetFilterBscSubscr tgt a :: ts))
    (he : exec (.logSetFilterBscSubscr tgt a) env s = .ok (s',new)) : Conserved s' (new ++ ts) := by
  have hb := h.balanced_rest (by simp)
  simp only [exec] at he
  split at he
  · cases he
    exact h.same (by simp) (by simp)
  · rename_i old hc
    simp only [bind_eq_ok,pure_eq_ok,Except.ok.injEq,Prod.mk.injEq] at he
    obtain ⟨subs1,hold,subs2,hget,rfl,rfl⟩ := he
    have hclear := balanced_putOld hb hc hold
    have hnone : (s.filters.set tgt none)[tgt]? = some none := by
      rw [List.getElem?_set_self (List.getElem?_eq_some_iff.mp hc).1]
    refine ⟨(hclear.get hget).congr fun c => ?_,h.covered.2⟩
    have hfill := held_filter { s with filters := s.filters.set tgt none } ts c (b := a) hnone
    rw [List.set_set] at hfill
    exact hfill

theorem conserved_logging {tgt : Nat} {imsi : Filter.Imsi} (h : Conserved s (.loggingFltrImsi tgt imsi :: ts))
    (he : exec (.loggingFltrImsi tgt imsi) env s = .ok (s',new)) : Conserved s' (new ++ ts) := by
  have hb := h.balanced_rest (by simp)
  simp only [exec] at he
  split at he
  · cases he
    exact h.same (by simp) (by simp)
  · simp only [bind_eq_ok,pure_eq_ok,Except.ok.injEq,Prod.mk.injEq] at he
    obtain ⟨⟨subs,a⟩,hf,rfl,rfl⟩ := he
    exact Conserved.hand (hb.findOrCreateByImsi hf) h.covered.2 rfl (by simp)

theorem conserved_dtap {conn : Nat} {msg : L3} (h : Conserved s (.bscDtap conn msg :: ts))
    (he : exec (.bscDtap conn msg) env s = .ok (s',new)) : Conserved s' (new ++ ts) := by
  simp only [exec] at he
  split at he
  all_goals
    cases he
    exact h.same (by simp) (by simp [Call.uses])

theorem conserved_flush {bts msc : Option Nat} (h : Conserved s (.pagingFlush bts msc :: ts))
    (he : exec (.pagingFlush bts msc) env s = .ok (s',new)) : Conserved s' (new ++ ts) := by
  have hb := h.balanced_rest (by simp)
  cases he
  refine ⟨hb.congr fun b => held_flush s ts b _,covered_append ?_ h.covered.2⟩
  intro t ht
  obtain ⟨req,_,rfl⟩ := List.mem_map.mp ht
  rfl

theorem conserved_exec (h : Conserved s (t :: ts)) (hg : NoOverwrite ⟨s,t :: ts⟩ (.call env))
    (he : exec t env s = .ok (s',new)) : Conserved s' (new ++ ts) := by
  cases t with
  | pageSubscriber => exact conserved_page h he
  | bscGracePagingRequest => exact conserved_grace h he
  | bscSubscrPut => exact conserved_put h he
  | bscComplL3 => exact conserved_complL3 h he
  | completeLayer3 => exact conserved_completeLayer3 h he
  | bscDtap => exact conserved_dtap h he
  | bscScanBtsMsg => exact conserved_scan h he
  | pagingRequestStop a conn => exact conserved_stop h (hg conn rfl) he
  | pagingRequestStopBts => exact conserved_stopBts h he
  | t3113Expired => exact conserved_t3113 h he
  | pagingFlush => exact conserved_flush h he
  | gsconCleanup => exact conserved_cleanup h he
  | loggingFltrImsi => exact conserved_logging h he
  | logSetFilterBscSubscr => exact conserved_logSet h he

theorem conserved_enter {i : Input} (h : Conserved s []) : Conserved s (enter i s) := by
  have hn : ∀ t ∈ enter i s, (∀ b, t ≠ .bscSubscrPut b) ∧ t.uses = none := by
    cases i <;> simp [enter,Call.uses]
  refine ⟨h.balanced.congr fun a => ?_,?_⟩
  · simpa using held_append_other s [] a fun t ht => (hn t ht).1
  · simpa using covered_append (fun t ht => (hn t ht).2) h.covered

theorem noDangling_exec (h : Conserved s (t :: ts)) : NoDangling (exec t env s) := by
  have hlive : ∀ a, 0 < held s (t :: ts) a → s.subs.Live a := fun a => h.balanced.isLive
  have hcovered : ∀ a, t.uses = some a → s.subs.Live a := by
    intro a ha
    apply hlive
    have hm := List.count_pos_iff.mpr (List.mem_cons_of_mem t (h.covered.1 a ha))
    simp only [held]
    omega
  have hextract : ∀ msg, NoDangling (extractSub s.subs msg) := by
    intro msg
    simp only [extractSub,Store.bscSubscrFindByImsi,Store.bscSubscrFindByTmsi]
    repeat' split
    all_goals first | exact noDangling_findBy _ _ | simp
  have hcreate := noDangling_findOrCreateByImsi h.balanced.below
  cases t with
  | pageSubscriber msc bts tmsi lac imsi => exact (hcreate imsi).bind fun _ _ => by simp
  | bscGracePagingRequest a msc bts =>
    simp only [exec]
    split
    · simp
    · split
      · simp
      · exact (noDangling_get (hcovered a rfl)).bind fun _ _ => by simp
  | bscSubscrPut a =>
    have hl : s.subs.Live a := hlive a (by rw [held_put]; simp [bump])
    exact (noDangling_put hl).bind fun _ _ => by simp
  | bscComplL3 conn msg =>
    cases msg with
    | other imsi => simp [exec]
    | pagResp mi =>
      refine (hextract _).bind ?_
      rintro ⟨subs,_ | a⟩ _ <;> simp
  | completeLayer3 conn msg =>
    simp only [exec]
    split
    · simp
    · split
      · simp
      · simp
      · rename_i a _ hc
        have hm : 0 < s.conns.count (some a) := List.count_pos_iff.mpr (List.mem_of_getElem? hc)
        have hl : s.subs.Live a := by
          apply hlive
          simp only [held]
          omega
        have hs : (s.subs.at? a).isNone = false := by
          simpa [Store.Live] using hl
        simp [hs]
      · exact (hcreate _).bind fun _ _ => by simp
  | bscDtap conn msg => cases env <;> simp [exec]
  | bscScanBtsMsg conn msg =>
    refine (hextract _).bind ?_
    rintro ⟨subs,_ | a⟩ _ <;> simp
  | pagingRequestStop a conn =>
    simp only [exec]
    split
    · simp
    · exact (noDangling_get (hcovered a rfl)).bind fun _ _ => by simp
  | pagingRequestStopBts bts a =>
    simp only [exec]
    split <;> simp
  | t3113Expired i =>
    simp only [exec]
    split <;> simp
  | pagingFlush bts msc => simp [exec]
  | gsconCleanup conn =>
    simp only [exec]
    split <;> simp
  | loggingFltrImsi tgt imsi =>
    simp only [exec]
    split
    · simp
    · exact (hcreate imsi).bind fun _ _ => by simp
  | logSetFilterBscSubscr tgt a =>
    simp only [exec]
    split
    · simp
    · rename_i old hc
      have hput : NoDangling (putOld s.subs old) := by
        cases old with
        | none => simp [putOld]
        | some b =>
          have hm : 0 < s.filters.count (some b) := List.count_pos_iff.mpr (List.mem_of_getElem? hc)
          apply noDangling_put
          apply hlive
          simp only [held]
          omega
      refine hput.bind fun subs hold => ?_
      have hclear := balanced_putOld (h.balanced_rest (by simp)) hc hold
      have hl : subs.Live a := by
        apply hclear.isLive
        have hm := List.count_pos_iff.mpr (h.covered.1 a rfl)
        simp only [held]
        omega
      exact (noDangling_get hl).bind fun _ _ => by simp

end Steps

theorem conserved_idle (bts : List Nat) (conns targets : Nat) : Conserved (idle bts conns targets) [] := by
  refine ⟨⟨by simp [Store.Below,idle],by simp [idle,Store.at?],?_⟩,trivial⟩
  intro a _
  simp [held,idle,List.count_replicate]

/-- The states that a network reaches, in the middle of its calls, while paging_request_stop() overwrites
no subscriber. -/
abbrev ReachableConserving (bts : List Nat) (conns targets : Nat) (c : Calls.Config State Call) : Prop :=
  Reach (Calls.step exec enter) NoOverwrite (· = ⟨idle bts conns targets,[]⟩) c

theorem ReachableConserving.conserved {bts : List Nat} {conns targets : Nat} {c : Calls.Config State Call}
    (h : ReachableConserving bts conns targets c) : Conserved c.state c.calls := by
  refine Calls.reach_invariant ?_ ?_ ?_ h
  · rintro _ rfl
    exact conserved_idle bts conns targets
  · exact fun s i hs _ => conserved_enter hs
  · exact fun s t ts env s' new hs hg he => conserved_exec hs hg he

def someImsi : Filter.Imsi := [0x30,0x30,0x31,0x30,0x31]

def handled (i : Input) (calls : Nat) : List (Calls.Move Input Env) :=
  .input i :: List.replicate calls (.call .yes)

def pagedByTmsi : List (Calls.Move Input Env) :=
  handled (.page 0 0 0x1234 1 someImsi) 3 ++ handled (.complL3 0 (.pagResp (.tmsi 0x1234))) 9

/-- A subscriber is paged without a TMSI and answers with its IMSI. -/
def pagedByImsi : List (Calls.Move Input Env) :=
  handled (.page 0 0 reservedTmsi 1 someImsi) 3 ++ handled (.complL3 0 (.pagResp (.imsi someImsi))) 9

end Conservation

end OsmoBsc.Subscr
