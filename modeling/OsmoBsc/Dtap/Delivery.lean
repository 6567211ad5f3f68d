import OsmoBsc.Dtap.Model
import Mathlib.Data.List.Nodup
set_option autoImplicit false

namespace OsmoBsc.Dtap
open Chan (LchanId SapiState ConnState)

def on (c : ConnId) (s : Nat) (ms : List Msgb) : List Msgb :=
  ms.filter fun m => m.conn = c ∧ m.sapi = s

def World.pending (w : World) : List Msgb := w.bscRllReqs.map (·.data)

def World.sentMsgs (w : World) : List Msgb := w.sent.map (·.msg)

variable {w : World} {c : ConnId} {s : Nat} {l : LchanId} {m : Msgb} {conn : Conn} {hand : List Msgb}

@[simp] theorem on_append (ms ns : List Msgb) : on c s (ms ++ ns) = on c s ms ++ on c s ns :=
  List.filter_append ..

@[simp] theorem on_nil : on c s [] = [] := rfl

theorem on_cons_self (ms : List Msgb) : on m.conn m.sapi (m :: ms) = m :: on m.conn m.sapi ms := by
  simp [on]

theorem on_cons_ne (ms : List Msgb) (h : ¬ (m.conn = c ∧ m.sapi = s)) : on c s (m :: ms) = on c s ms := by
  simp [on,h]

theorem mem_on {ms : List Msgb} : m ∈ on c s ms ↔ m ∈ ms ∧ m.conn = c ∧ m.sapi = s := by
  simp [on]

/-- Where the messages are. One may be in the hands of the code, between two places. -/
structure Ledger (hand : List Msgb) (w : World) : Prop where
  count : ∀ m, w.received.count m = w.sentMsgs.count m + w.freed.count m + w.pending.count m
    + hand.count m + (w.queue m.conn).count m
  order : ∀ c s, (on c s w.sentMsgs ++ on c s w.pending ++ on c s hand ++ on c s (w.queue c)).Sublist
    (on c s w.received)
  one : ∀ c s, (on c s w.pending).length ≤ 1
  fresh : ∀ m ∈ w.received, m.nr < w.nextMsg
  distinct : w.received.Nodup
  queued : ∀ c, ∀ m ∈ w.queue c, m.conn = c
  sender : ∀ x ∈ w.sent, x.conn = x.msg.conn
  rejecter : ∀ x ∈ w.rejected, x.1 = x.2.conn

structure Links (w : World) : Prop where
  pending : ∀ r ∈ w.bscRllReqs, (w.lchans r.lchan).conn = some r.data.conn
    ∧ (w.conns r.data.conn).isSome = true
  sapi : ∀ r ∈ w.bscRllReqs, r.linkId &&& 7 = r.data.sapi
  back : ∀ c conn l, w.conns c = some conn → conn.lchan = some l → (w.lchans l).conn = some c
  unborn : ∀ c, w.nextConn ≤ c → w.conns c = none

def Idle (w : World) : Prop := ∀ c conn, w.conns c = some conn → conn.fi = .active → conn.dtapQueue = []

namespace Ledger

theorem congr {w' : World} (h : Ledger hand w) (hrec : w'.received = w.received)
    (hsent : w'.sent = w.sent) (hfreed : w'.freed = w.freed) (hrej : w'.rejected = w.rejected)
    (hreqs : w'.bscRllReqs = w.bscRllReqs) (hnext : w'.nextMsg = w.nextMsg)
    (hqueue : ∀ c, w'.queue c = w.queue c) : Ledger hand w' := by
  obtain ⟨hcount,horder,hone,hfresh,hdistinct,hqueued,hsender,hrejecter⟩ := h
  have hs : w'.sentMsgs = w.sentMsgs := by rw [World.sentMsgs,hsent,World.sentMsgs]
  have hp : w'.pending = w.pending := by rw [World.pending,hreqs,World.pending]
  constructor
  · simpa only [hs,hp,hrec,hfreed,hqueue] using hcount
  · simpa only [hs,hp,hrec,hqueue] using horder
  · simpa only [hp] using hone
  · simpa only [hrec,hnext] using hfresh
  · simpa only [hrec] using hdistinct
  · simpa only [hqueue] using hqueued
  · simpa only [hsent] using hsender
  · simpa only [hrej] using hrejecter

theorem free (h : Ledger [m] w) : Ledger [] (w.msgbFree m) := by
  refine ⟨fun m' => ?_,fun c s => ?_,h.one,h.fresh,h.distinct,h.queued,h.sender,h.rejecter⟩
  · have := h.count m'
    change w.received.count m' = w.sentMsgs.count m' + (w.freed ++ [m]).count m' + w.pending.count m'
      + _ + (w.queue m'.conn).count m'
    rw [List.count_append,List.count_nil]
    omega
  · refine List.Sublist.trans ?_ (h.order c s)
    change (on c s w.sentMsgs ++ on c s w.pending ++ [] ++ on c s (w.queue c)).Sublist _
    exact .append (.append (.refl _) (List.nil_sublist _)) (.refl _)

theorem reject (h : Ledger hand w) (hc : c = m.conn) : Ledger hand (w.bscSapiNReject c m) := by
  refine ⟨h.count,h.order,h.one,h.fresh,h.distinct,h.queued,h.sender,fun x hx => ?_⟩
  rcases List.mem_append.mp hx with hx | hx
  · exact h.rejecter x hx
  · rw [List.mem_singleton] at hx
    rw [hx,hc]

theorem send (h : Ledger [m] w) (hnone : on m.conn m.sapi w.pending = []) (l : LchanId) (linkId : Nat) :
    Ledger [] { w with sent := w.sent ++ [⟨m.conn,l,linkId,m⟩] } := by
  have hs : World.sentMsgs { w with sent := w.sent ++ [⟨m.conn,l,linkId,m⟩] } = w.sentMsgs ++ [m] := by
    simp [World.sentMsgs]
  refine ⟨fun m' => ?_,fun c s => ?_,h.one,h.fresh,h.distinct,h.queued,fun x hx => ?_,h.rejecter⟩
  · have := h.count m'
    rw [hs,List.count_append,List.count_nil]
    change w.received.count m' = _ + _ + w.freed.count m' + w.pending.count m' + 0
      + (w.queue m'.conn).count m'
    omega
  · rw [hs]
    refine List.Sublist.trans ?_ (h.order c s)
    by_cases hm : m.conn = c ∧ m.sapi = s
    · obtain ⟨rfl,rfl⟩ := hm
      change (on m.conn m.sapi (w.sentMsgs ++ [m]) ++ on m.conn m.sapi w.pending ++ []
        ++ on m.conn m.sapi (w.queue m.conn)).Sublist _
      simp [hnone]
    · change (on c s (w.sentMsgs ++ [m]) ++ on c s w.pending ++ [] ++ on c s (w.queue c)).Sublist _
      simp [on_cons_ne _ hm]
  · rcases List.mem_append.mp hx with hx | hx
    · exact h.sender x hx
    · rw [List.mem_singleton] at hx
      rw [hx]

theorem establish (h : Ledger [m] w) (hnone : on m.conn m.sapi w.pending = []) (r : RllReq)
    (hr : r.data = m) : Ledger [] { w with bscRllReqs := r :: w.bscRllReqs } := by
  have hp : World.pending { w with bscRllReqs := r :: w.bscRllReqs } = m :: w.pending := by
    simp [World.pending,hr]
  refine ⟨fun m' => ?_,fun c s => ?_,fun c s => ?_,h.fresh,h.distinct,h.queued,h.sender,h.rejecter⟩
  · have := h.count m'
    rw [hp,List.count_cons]
    rw [List.count_cons,List.count_nil] at this
    change w.received.count m' = w.sentMsgs.count m' + w.freed.count m' + _ + _
      + (w.queue m'.conn).count m'
    rw [List.count_nil]
    omega
  · rw [hp]
    refine List.Sublist.trans ?_ (h.order c s)
    by_cases hm : m.conn = c ∧ m.sapi = s
    · obtain ⟨rfl,rfl⟩ := hm
      change (on m.conn m.sapi w.sentMsgs ++ on m.conn m.sapi (m :: w.pending) ++ []
        ++ on m.conn m.sapi (w.queue m.conn)).Sublist _
      simp [hnone,on_cons_self]
    · change (on c s w.sentMsgs ++ on c s (m :: w.pending) ++ [] ++ on c s (w.queue c)).Sublist _
      simp [on_cons_ne _ hm]
  · rw [hp]
    by_cases hm : m.conn = c ∧ m.sapi = s
    · obtain ⟨rfl,rfl⟩ := hm
      rw [on_cons_self,hnone]
      simp
    · rw [on_cons_ne _ hm]
      exact h.one c s

theorem complete {l1 l2 : List RllReq} {r : RllReq} (h : Ledger [] w)
    (hreqs : w.bscRllReqs = l1 ++ r :: l2) :
    Ledger [r.data] { w with bscRllReqs := l1 ++ l2 }
      ∧ on r.data.conn r.data.sapi (World.pending { w with bscRllReqs := l1 ++ l2 }) = [] := by
  have hp : w.pending = l1.map (·.data) ++ r.data :: l2.map (·.data) := by
    simp [World.pending,hreqs]
  have hp' : World.pending { w with bscRllReqs := l1 ++ l2 } = l1.map (·.data) ++ l2.map (·.data) := by
    simp [World.pending]
  have hnone : on r.data.conn r.data.sapi (l1.map (·.data)) = []
      ∧ on r.data.conn r.data.sapi (l2.map (·.data)) = [] := by
    have := h.one r.data.conn r.data.sapi
    rw [hp,on_append,on_cons_self,List.length_append,List.length_cons] at this
    constructor <;> apply List.eq_nil_of_length_eq_zero <;> omega
  refine ⟨⟨fun m' => ?_,fun c s => ?_,fun c s => ?_,h.fresh,h.distinct,h.queued,h.sender,h.rejecter⟩,?_⟩
  · have := h.count m'
    rw [hp,List.count_append,List.count_cons,List.count_nil] at this
    rw [hp',List.count_append,List.count_cons,List.count_nil]
    change w.received.count m' = w.sentMsgs.count m' + w.freed.count m' + _ + _
      + (w.queue m'.conn).count m'
    omega
  · rw [hp']
    refine List.Sublist.trans ?_ (h.order c s)
    rw [hp]
    by_cases hm : r.data.conn = c ∧ r.data.sapi = s
    · obtain ⟨rfl,rfl⟩ := hm
      change (on _ _ w.sentMsgs ++ on _ _ (_ ++ _) ++ on _ _ [r.data] ++ on _ _ (w.queue _)).Sublist _
      simp [on_cons_self,hnone.1,hnone.2]
    · change (on c s w.sentMsgs ++ on c s (_ ++ _) ++ on c s [r.data] ++ on c s (w.queue c)).Sublist _
      simp [on_cons_ne _ hm]
  · have := h.one c s
    rw [hp,on_append,List.length_append] at this
    rw [hp',on_append,List.length_append]
    have hsub : (on c s (l2.map (·.data))).length ≤ (on c s (r.data :: l2.map (·.data))).length :=
      (List.Sublist.filter _ (List.sublist_cons_self _ _)).length_le
    omega
  · rw [hp',on_append,hnone.1,hnone.2]
    rfl

theorem dequeue {q : List Msgb} (h : Ledger [] w) (hq : w.queue c = m :: q) :
    Ledger [m] (dequeue w c) ∧ (Dtap.dequeue w c).queue c = q := by
  cases hc : w.conns c with
  | none => simp [World.queue,hc] at hq
  | some conn =>
    have hqueue : ∀ c', (Dtap.dequeue w c).queue c' = if c' = c then q else w.queue c' := by
      intro c'
      have htail : conn.dtapQueue = m :: q := by simpa [World.queue,hc] using hq
      by_cases h' : c' = c
      · subst h'
        simp [Dtap.dequeue,hc,World.queue,World.setConn,htail]
      · simp [Dtap.dequeue,hc,World.queue,World.setConn,h']
    have hw : Dtap.dequeue w c = w.setConn c { conn with dtapQueue := conn.dtapQueue.tail } := by
      simp [Dtap.dequeue,hc]
    have hm : m.conn = c := h.queued c m (by simp [hq])
    refine ⟨⟨fun m' => ?_,fun c' s => ?_,?_,?_,?_,fun c' m' hm' => ?_,?_,?_⟩,by simp [hqueue]⟩
    · have := h.count m'
      rw [hqueue]
      rw [hw]
      change w.received.count m' = w.sentMsgs.count m' + w.freed.count m' + w.pending.count m' + _ + _
      rw [List.count_nil] at this
      by_cases h' : m'.conn = c
      · rw [h',hq,List.count_cons] at this
        rw [if_pos h',List.count_singleton]
        omega
      · have hne : m ≠ m' := fun heq => h' (heq ▸ hm)
        rw [if_neg h',List.count_singleton,if_neg (by simpa using hne)]
        omega
    · rw [hqueue]
      have := h.order c' s
      rw [hw]
      change (on c' s w.sentMsgs ++ on c' s w.pending ++ on c' s [m] ++ _).Sublist (on c' s w.received)
      by_cases h' : c' = c
      · rw [h',hq] at this
        rw [if_pos h',h']
        have hcons : on c s (m :: q) = on c s [m] ++ on c s q := on_append [m] q
        rw [hcons,on_nil,List.append_nil] at this
        rwa [List.append_assoc]
      · rw [if_neg h',on_cons_ne _ fun hx => h' (hx.1.symm.trans hm)]
        exact this
    · rw [hw]
      exact h.one
    · rw [hw]
      exact h.fresh
    · rw [hw]
      exact h.distinct
    · rw [hqueue] at hm'
      by_cases h' : c' = c
      · rw [if_pos h'] at hm'
        exact (h.queued c m' (by simp [hq,hm'])).trans h'.symm
      · rw [if_neg h'] at hm'
        exact h.queued c' m' hm'
    · rw [hw]
      exact h.sender
    · rw [hw]
      exact h.rejecter

theorem next (h : Ledger hand w) (hm : m.nr = w.nextMsg) :
    (∀ m' ∈ w.received ++ [m], m'.nr < w.nextMsg + 1) ∧ (w.received ++ [m]).Nodup := by
  have hnew : m ∉ w.received := fun hmem => by
    have := h.fresh m hmem
    omega
  constructor
  · intro m' hm'
    rcases List.mem_append.mp hm' with hm' | hm'
    · exact Nat.lt_succ_of_lt (h.fresh m' hm')
    · rw [List.mem_singleton] at hm'
      rw [hm',hm]
      exact Nat.lt_succ_self _
  · rw [← List.concat_eq_append]
    exact List.Nodup.concat hnew h.distinct

theorem receive (h : Ledger [] w) (hm : m.nr = w.nextMsg) (hq : w.queue m.conn = []) :
    Ledger [m] (w.receive m) := by
  refine ⟨fun m' => ?_,fun c s => ?_,h.one,(h.next hm).1,(h.next hm).2,h.queued,h.sender,h.rejecter⟩
  · have := h.count m'
    change (w.received ++ [m]).count m' = w.sentMsgs.count m' + w.freed.count m' + w.pending.count m'
      + _ + (w.queue m'.conn).count m'
    rw [List.count_append]
    rw [List.count_nil] at this
    omega
  · have := h.order c s
    change (on c s w.sentMsgs ++ on c s w.pending ++ on c s [m] ++ on c s (w.queue c)).Sublist
      (on c s (w.received ++ [m]))
    rw [on_append]
    by_cases hc : m.conn = c
    · rw [← hc,hq,on_nil,List.append_nil] at this ⊢
      rw [List.append_nil] at this
      exact this.append (.refl _)
    · rw [on_cons_ne _ fun hx => hc hx.1]
      exact this.trans (List.sublist_append_left _ _)

theorem receive_free (h : Ledger [] w) (hm : m.nr = w.nextMsg) :
    Ledger [] ((w.receive m).msgbFree m) := by
  refine ⟨fun m' => ?_,fun c s => ?_,h.one,(h.next hm).1,(h.next hm).2,h.queued,h.sender,h.rejecter⟩
  · have := h.count m'
    change (w.received ++ [m]).count m' = w.sentMsgs.count m' + (w.freed ++ [m]).count m'
      + w.pending.count m' + _ + (w.queue m'.conn).count m'
    rw [List.count_append,List.count_append]
    omega
  · change List.Sublist _ (on c s (w.received ++ [m]))
    rw [on_append]
    exact (h.order c s).trans (List.sublist_append_left _ _)

theorem receive_queue (h : Ledger [] w) (hm : m.nr = w.nextMsg) (hc : w.conns m.conn = some conn) :
    Ledger [] ((w.receive m).setConn m.conn { conn with dtapQueue := conn.dtapQueue ++ [m] }) := by
  have hq : w.queue m.conn = conn.dtapQueue := by simp [World.queue,hc]
  have hqueue : ∀ c', ((w.receive m).setConn m.conn
      { conn with dtapQueue := conn.dtapQueue ++ [m] }).queue c'
      = if c' = m.conn then w.queue m.conn ++ [m] else w.queue c' := by
    intro c'
    by_cases h' : c' = m.conn
    · rw [if_pos h',hq,h']
      simp [World.queue,World.setConn]
    · simp [World.queue,World.setConn,World.receive,h']
  refine ⟨fun m' => ?_,fun c s => ?_,h.one,(h.next hm).1,(h.next hm).2,fun c m' hm' => ?_,h.sender,
    h.rejecter⟩
  · have := h.count m'
    rw [hqueue]
    change (w.received ++ [m]).count m' = w.sentMsgs.count m' + w.freed.count m' + w.pending.count m' + _
      + _
    rw [List.count_append,List.count_nil]
    rw [List.count_nil] at this
    by_cases h' : m'.conn = m.conn
    · rw [h'] at this
      rw [if_pos h',List.count_append]
      omega
    · have hne : m ≠ m' := fun heq => h' (heq ▸ rfl)
      rw [if_neg h',List.count_singleton,if_neg (by simpa using hne)]
      omega
  · have := h.order c s
    rw [hqueue]
    change (on c s w.sentMsgs ++ on c s w.pending ++ [] ++ on c s _).Sublist (on c s (w.received ++ [m]))
    rw [on_append]
    by_cases h' : c = m.conn
    · rw [h'] at this
      rw [if_pos h',h',on_append,← List.append_assoc]
      exact this.append (.refl _)
    · rw [if_neg h',on_cons_ne _ fun hx => h' hx.1.symm]
      exact this.trans (List.sublist_append_left _ _)
  · rw [hqueue] at hm'
    by_cases h' : c = m.conn
    · rw [if_pos h'] at hm'
      rcases List.mem_append.mp hm' with hm' | hm'
      · exact (h.queued _ m' hm').trans h'.symm
      · rw [List.mem_singleton] at hm'
        rw [hm',h']
    · rw [if_neg h'] at hm'
      exact h.queued c m' hm'

end Ledger

theorem Links.congr {w' : World} (h : Links w) (hconns : w'.conns = w.conns)
    (hlchans : w'.lchans = w.lchans) (hreqs : w'.bscRllReqs = w.bscRllReqs)
    (hnext : w'.nextConn = w.nextConn) : Links w' := by
  obtain ⟨hpending,hsapi,hback,hunborn⟩ := h
  constructor
  · simpa only [hconns,hlchans,hreqs] using hpending
  · simpa only [hreqs] using hsapi
  · simpa only [hconns,hlchans] using hback
  · simpa only [hconns,hnext] using hunborn

/-- A message can be passed on to the lchan: the BTS is there, and nothing of the SAPI waits. -/
def World.Clear (w : World) (c : ConnId) (s : Nat) : Prop :=
  ∀ l, w.lchanOf c = some l → (w.lchans l).rslLink = true ∧ on c s w.pending = []

/-- What became of the message in hand. -/
structure Passed (w : World) (c : ConnId) (m : Msgb) (w' : World) : Prop where
  ledger : Ledger [] w'
  links : Links w'
  conns : w'.conns = w.conns
  lchans : w'.lchans = w.lchans
  pending : w'.pending = w.pending ∨ w'.pending = m :: w.pending
    ∧ ∀ l, w.lchanOf c = some l → (w.lchans l).sapis m.sapi = .unused
  freed : w'.freed = w.freed ∨ w'.freed = w.freed ++ [m] ∧ w.lchanOf c = none

theorem setConn_self (hc : w.conns c = some conn) : (w.setConn c conn).conns = w.conns :=
  Function.update_eq_self_iff.mpr hc.symm

/-- The link that is established is for the SAPI of the message, on the main or on the slow channel. -/
theorem establish_sapi (linkId : Nat) (tch : Bool) :
    (if tch && linkId &&& 7 != 0 then linkId &&& 7 ||| 0x40 else linkId &&& 7) &&& 7 = linkId &&& 7 := by
  split
  · rw [Nat.and_or_distrib_right,Nat.and_assoc,Nat.and_self]
    exact Nat.or_zero _
  · rw [Nat.and_assoc,Nat.and_self]

theorem gsm0808SendRslDtap_passed (h : Ledger [m] w) (hlinks : Links w) (hc : w.conns c = some conn)
    (hactive : conn.fi = .active) (hm : m.conn = c) (hclear : w.Clear c m.sapi) :
    Passed w c m (gsm0808SendRslDtap w c m) := by
  unfold gsm0808SendRslDtap
  cases hl : w.lchanOf c with
  | none =>
    have hconns : (failedToSend (w.msgbFree m) c).conns = w.conns := by
      simp only [failedToSend,World.msgbFree,hc,hactive,chgActive]
      exact setConn_self (by rw [hc,← hactive])
    have hw : failedToSend (w.msgbFree m) c = { w.msgbFree m with
        conns := (failedToSend (w.msgbFree m) c).conns, clearRqst := w.clearRqst ++ [c] } := by
      simp [failedToSend,World.msgbFree,hc,World.setConn]
    dsimp only
    rw [hw,hconns]
    exact ⟨h.free.congr rfl rfl rfl rfl rfl rfl fun _ => rfl,hlinks.congr rfl rfl rfl rfl,rfl,rfl,.inl rfl,
      .inr ⟨rfl,hl⟩⟩
  | some l =>
    obtain ⟨hlink,hnone⟩ := hclear l hl
    have hback : (w.lchans l).conn = some c := by
      refine hlinks.back c conn l hc ?_
      simpa [World.lchanOf,hc] using hl
    subst hm
    dsimp only
    split
    · rename_i hunused
      rw [if_pos (show (rllEstablish _ _ _ _ _).2 = true from hlink)]
      refine ⟨h.establish hnone _ rfl,⟨fun r hr => ?_,fun r hr => ?_,hlinks.back,hlinks.unborn⟩,rfl,rfl,
        .inr ⟨rfl,fun l' hl' => ?_⟩,.inl rfl⟩
      · rcases List.mem_cons.mp hr with rfl | hr
        · exact ⟨hback,by simp [rllEstablish,hc]⟩
        · exact hlinks.pending r hr
      · rcases List.mem_cons.mp hr with rfl | hr
        · exact establish_sapi _ _
        · exact hlinks.sapi r hr
      · rw [hl,Option.some.injEq] at hl'
        exact hl' ▸ hunused
    · simp only [rslDataRequest,hlink,if_true]
      exact ⟨h.send hnone _ _,hlinks.congr rfl rfl rfl rfl,rfl,rfl,.inl rfl,.inl rfl⟩

theorem Links.setConn {conn' : Conn} (h : Links w) (hc : w.conns c = some conn)
    (hlchan : ∀ l, conn'.lchan = some l → (w.lchans l).conn = some c) : Links (w.setConn c conn') := by
  refine ⟨fun r hr => ⟨(h.pending r hr).1,?_⟩,h.sapi,fun c' x l hx hl => ?_,fun c' hc' => ?_⟩
  · by_cases h' : r.data.conn = c
    · simp [World.setConn,h']
    · simpa [World.setConn,h'] using (h.pending r hr).2
  · by_cases h' : c' = c
    · subst h'
      have hx' : conn' = x := by simpa [World.setConn] using hx
      exact hlchan l (hx' ▸ hl)
    · exact h.back c' x l (by simpa [World.setConn,h'] using hx) hl
  · by_cases h' : c' = c
    · subst h'
      exact absurd (h.unborn c' hc') (by simp [hc])
    · simpa [World.setConn,h'] using h.unborn c' hc'

/-- All that is queued can be passed on: nothing of it waits for an establishment that is already
under way, nor for one that a message before it in the queue starts. -/
def World.ClearAll (w : World) (c : ConnId) (q : List Msgb) : Prop :=
  (∀ m ∈ q, w.Clear c m.sapi) ∧ ∀ l, w.lchanOf c = some l →
    q.Pairwise fun m m' => (w.lchans l).sapis m.sapi = .unused → m.sapi ≠ m'.sapi

structure Flushed (w : World) (c : ConnId) (conn : Conn) (w' : World) : Prop where
  ledger : Ledger [] w'
  links : Links w'
  conns : w'.conns = Function.update w.conns c (some { conn with dtapQueue := [] })
  lchans : w'.lchans = w.lchans
  freed : ∀ m ∈ w'.freed, m ∈ w.freed ∨ m.conn = c

theorem flush_send {q : List Msgb} (h : Ledger [] w) (hlinks : Links w) (hc : w.conns c = some conn)
    (hq : conn.dtapQueue = q) (hactive : conn.fi = .active) (hclear : w.ClearAll c q) :
    Flushed w c conn (gsconDtapQueueFlush w c true)
      ∧ (w.lchanOf c ≠ none → (gsconDtapQueueFlush w c true).freed = w.freed) := by
  have hqueue : w.queue c = q := by simp [World.queue,hc,hq]
  unfold gsconDtapQueueFlush
  rw [hqueue]
  -- what is queued behind the message that is passed on stays as it was
  induction q generalizing w conn with
  | nil =>
    refine ⟨⟨h,hlinks,?_,rfl,fun m hm => .inl hm⟩,fun _ => rfl⟩
    exact (Function.update_eq_self_iff.mpr (by rw [List.foldl_nil,hc,← hq])).symm
  | cons m q ih =>
    have hm : m.conn = c := h.queued c m (by simp [hqueue])
    have hdeq : dequeue w c = w.setConn c { conn with dtapQueue := q } := by
      simp [dequeue,hc,hq]
    have hlchan : (dequeue w c).lchanOf c = w.lchanOf c := by
      simp [hdeq,World.lchanOf,World.setConn,hc]
    have hconn : (dequeue w c).conns c = some { conn with dtapQueue := q } := by
      simp [hdeq,World.setConn]
    have hpass : Passed (dequeue w c) c m (gsm0808SendRslDtap (dequeue w c) c m) := by
      refine gsm0808SendRslDtap_passed (h.dequeue hqueue).1 ?_ hconn hactive hm ?_
      · rw [hdeq]
        exact hlinks.setConn hc fun l hl => hlinks.back c conn l hc hl
      · intro l hl
        rw [hlchan] at hl
        rw [hdeq]
        exact hclear.1 m (by simp) l hl
    rw [List.foldl_cons,if_pos rfl]
    generalize gsm0808SendRslDtap (dequeue w c) c m = w' at hpass
    have hconns : w'.conns = Function.update w.conns c (some { conn with dtapQueue := q }) := by
      rw [hpass.conns,hdeq]
      rfl
    have hlchans : w'.lchans = w.lchans := by
      rw [hpass.lchans,hdeq]
      rfl
    have hlchan' : w'.lchanOf c = w.lchanOf c := by
      simp [World.lchanOf,hconns,hc]
    have hclear' : w'.ClearAll c q := by
      refine ⟨fun m' hm' l hl => ?_,fun l hl => ?_⟩
      · rw [hlchan'] at hl
        obtain ⟨hlink,hnone⟩ := hclear.1 m' (List.mem_cons_of_mem _ hm') l hl
        rw [hlchans]
        refine ⟨hlink,?_⟩
        rcases hpass.pending with hp | ⟨hp,hunused⟩
        · rw [hp,hdeq]
          exact hnone
        · have hne := List.rel_of_pairwise_cons (hclear.2 l hl) hm' (by
            have := hunused l (by rw [hlchan,hl])
            rwa [hdeq] at this)
          rw [hp,on_cons_ne _ fun hx => hne hx.2,hdeq]
          exact hnone
      · rw [hlchan'] at hl
        rw [hlchans]
        exact (hclear.2 l hl).of_cons
    have hc' : w'.conns c = some { conn with dtapQueue := q } := by simp [hconns]
    obtain ⟨hf,hfreed⟩ := ih hpass.ledger hpass.links hc' rfl hactive hclear' (by simp [World.queue,hc'])
    refine ⟨⟨hf.ledger,hf.links,?_,hf.lchans.trans hlchans,fun m' hm' => ?_⟩,fun hne => ?_⟩
    · rw [hf.conns,hconns,Function.update_idem]
    · rcases hf.freed m' hm' with hm' | hm'
      · rcases hpass.freed with hfr | ⟨hfr,-⟩
        · rw [hfr,hdeq] at hm'
          exact .inl hm'
        · rw [hfr,hdeq] at hm'
          rcases List.mem_append.mp hm' with hm' | hm'
          · exact .inl hm'
          · rw [List.mem_singleton] at hm'
            exact .inr (hm' ▸ hm)
      · exact .inr hm'
    · rw [hfreed (by rwa [hlchan'])]
      rcases hpass.freed with hfr | ⟨-,hfr⟩
      · rw [hfr,hdeq]
        rfl
      · exact absurd (hlchan ▸ hfr) hne

theorem flush_drop {q : List Msgb} (h : Ledger [] w) (hlinks : Links w) (hc : w.conns c = some conn)
    (hq : conn.dtapQueue = q) : Flushed w c conn (gsconDtapQueueFlush w c false)
      ∧ (gsconDtapQueueFlush w c false).bscRllReqs = w.bscRllReqs
      ∧ (gsconDtapQueueFlush w c false).nextConn = w.nextConn := by
  have hqueue : w.queue c = q := by simp [World.queue,hc,hq]
  unfold gsconDtapQueueFlush
  rw [hqueue]
  induction q generalizing w conn with
  | nil =>
    refine ⟨⟨h,hlinks,?_,rfl,fun m hm => .inl hm⟩,rfl,rfl⟩
    exact (Function.update_eq_self_iff.mpr (by rw [List.foldl_nil,hc,← hq])).symm
  | cons m q ih =>
    have hm : m.conn = c := h.queued c m (by simp [hqueue])
    have hdeq : dequeue w c = w.setConn c { conn with dtapQueue := q } := by
      simp [dequeue,hc,hq]
    have hledger := (h.dequeue hqueue).1.free
    rw [List.foldl_cons,if_neg (by simp)]
    rw [hdeq] at hledger ⊢
    have hlinks' : Links (w.setConn c { conn with dtapQueue := q }) :=
      hlinks.setConn hc fun l hl => hlinks.back c conn l hc hl
    have hc' : ((w.setConn c { conn with dtapQueue := q }).msgbFree m).conns c
        = some { conn with dtapQueue := q } := by simp [World.setConn,World.msgbFree]
    obtain ⟨hf,hreqs,hnext⟩ := ih hledger (hlinks'.congr rfl rfl rfl rfl) hc' rfl (by simp [World.queue,hc'])
    refine ⟨⟨hf.ledger,hf.links,?_,hf.lchans,fun m' hm' => ?_⟩,hreqs,hnext⟩
    · rw [hf.conns]
      simp [World.setConn,World.msgbFree]
    · rcases hf.freed m' hm' with hm' | hm'
      · rcases List.mem_append.mp hm' with hm' | hm'
        · exact .inl hm'
        · rw [List.mem_singleton] at hm'
          exact .inr (hm' ▸ hm)
      · exact .inr hm'

def World.NoneOn (w : World) (l : LchanId) : Prop := ∀ r ∈ w.bscRllReqs, r.lchan ≠ l

theorem Links.setLchan {lchan : Lchan} (h : Links w)
    (hconn : lchan.conn = (w.lchans l).conn ∨ w.NoneOn l ∧ ∀ c, w.lchanOf c ≠ some l) :
    Links (w.setLchan l lchan) := by
  refine ⟨fun r hr => ⟨?_,(h.pending r hr).2⟩,h.sapi,fun c conn l' hc hl => ?_,h.unborn⟩
  · by_cases h' : r.lchan = l
    · rcases hconn with hconn | ⟨hconn,-⟩
      · simpa [World.setLchan,h',hconn] using (h.pending r hr).1
      · exact absurd h' (hconn r hr)
    · simpa [World.setLchan,h'] using (h.pending r hr).1
  · by_cases h' : l' = l
    · rcases hconn with hconn | ⟨-,hconn⟩
      · simpa [World.setLchan,h',hconn] using h.back c conn l' hc hl
      · have hc' : w.conns c = some conn := hc
        exact absurd (by simp [World.lchanOf,hc',hl,h']) (hconn c)
    · simpa [World.setLchan,h'] using h.back c conn l' hc hl

theorem Links.unowned (h : Links w) (hl : (w.lchans l).conn = none) :
    w.NoneOn l ∧ ∀ c, w.lchanOf c ≠ some l := by
  constructor
  · intro r hr h'
    have := (h.pending r hr).1
    rw [h',hl] at this
    cases this
  · intro c h'
    obtain ⟨conn,hc,hlchan⟩ := Option.bind_eq_some_iff.mp h'
    have := h.back c conn l hc hlchan
    rw [hl] at this
    cases this

theorem gsconReleaseLchan_links (h : Links w) (hnone : (w.lchans l).conn = some c → w.NoneOn l) :
    Links (gsconReleaseLchan w c l) := by
  -- the connection lets go of the lchan before the lchan forgets it
  have hcomm : ∀ conn, w.conns c = some conn → conn.lchan = some l →
      gsconReleaseLchan w c l = lchanForgetConn (w.setConn c { conn with lchan := none }) l := by
    intro conn hc hl
    have hback := h.back c conn l hc hl
    simp only [gsconReleaseLchan,hback,if_true]
    simp only [connForgetLchan,lchanForgetConn,World.setLchan,hc,hl,if_true]
    rfl
  have hforget : ∀ w' : World, Links w' → w'.bscRllReqs = w.bscRllReqs → (w.lchans l).conn = some c →
      (∀ c', w'.lchanOf c' ≠ some l) → Links (lchanForgetConn w' l) := by
    intro w' h' hreqs hl hno
    refine h'.setLchan (.inr ⟨fun r hr => ?_,hno⟩)
    rw [hreqs] at hr
    exact hnone hl r hr
  by_cases hl : w.lchanOf c = some l
  · obtain ⟨conn,hc,hlchan⟩ := Option.bind_eq_some_iff.mp hl
    rw [hcomm conn hc hlchan]
    have hback := h.back c conn l hc hlchan
    refine hforget _ (h.setConn hc fun l' hl' => by cases hl') rfl hback fun c' h' => ?_
    by_cases hcc : c' = c
    · simp [World.lchanOf,World.setConn,hcc] at h'
    · obtain ⟨conn',hc',hlchan'⟩ := Option.bind_eq_some_iff.mp h'
      have := h.back c' conn' l (by simpa [World.setConn,hcc] using hc') hlchan'
      rw [hback] at this
      exact hcc (Option.some.inj this).symm
  · have hkeep : ∀ w' : World, w'.conns = w.conns → connForgetLchan w' c l = w' := by
      intro w' hconns
      cases hc : w.conns c with
      | none => simp [connForgetLchan,hconns,hc]
      | some conn =>
        have hne : conn.lchan ≠ some l := fun hx => hl (by simp [World.lchanOf,hc,hx])
        simp [connForgetLchan,hconns,hc,hne]
    unfold gsconReleaseLchan
    split
    · rename_i hconn
      rw [hkeep (lchanForgetConn w l) rfl]
      refine hforget w h rfl hconn fun c' h' => ?_
      obtain ⟨conn',hc',hlchan'⟩ := Option.bind_eq_some_iff.mp h'
      have := h.back c' conn' l hc' hlchan'
      rw [hconn] at this
      exact hl (Option.some.inj this ▸ h')
    · rw [hkeep w rfl]
      exact h

/-- The messages stay where they are, and no connection becomes active. -/
structure Same (w w' : World) : Prop where
  received : w'.received = w.received
  sent : w'.sent = w.sent
  freed : w'.freed = w.freed
  rejected : w'.rejected = w.rejected
  reqs : w'.bscRllReqs = w.bscRllReqs
  nextMsg : w'.nextMsg = w.nextMsg
  queue : ∀ c, w'.queue c = w.queue c
  active : ∀ c conn', w'.conns c = some conn' → conn'.fi = .active →
    ∃ conn, w.conns c = some conn ∧ conn.fi = .active

namespace Same

theorem refl (w : World) : Same w w := ⟨rfl,rfl,rfl,rfl,rfl,rfl,fun _ => rfl,fun _ _ h h' => ⟨_,h,h'⟩⟩

theorem trans {w' w'' : World} (h : Same w w') (h' : Same w' w'') : Same w w'' where
  received := h'.received.trans h.received
  sent := h'.sent.trans h.sent
  freed := h'.freed.trans h.freed
  rejected := h'.rejected.trans h.rejected
  reqs := h'.reqs.trans h.reqs
  nextMsg := h'.nextMsg.trans h.nextMsg
  queue := fun c => (h'.queue c).trans (h.queue c)
  active := fun c conn'' hc ha => by
    obtain ⟨conn',hc',ha'⟩ := h'.active c conn'' hc ha
    exact h.active c conn' hc' ha'

theorem ledger {w' : World} (hs : Same w w') (h : Ledger hand w) : Ledger hand w' :=
  h.congr hs.received hs.sent hs.freed hs.rejected hs.reqs hs.nextMsg hs.queue

theorem idle {w' : World} (hs : Same w w') (h : Idle w) : Idle w' := by
  intro c conn' hc' ha
  obtain ⟨conn,hc,ha⟩ := hs.active c conn' hc' ha
  have hq := hs.queue c
  simp only [World.queue,hc,hc',Option.map_some,Option.getD_some] at hq
  rw [hq]
  exact h c conn hc ha

theorem setLchan (w : World) (l : LchanId) (lchan : Lchan) : Same w (w.setLchan l lchan) :=
  ⟨rfl,rfl,rfl,rfl,rfl,rfl,fun _ => rfl,fun _ _ h h' => ⟨_,h,h'⟩⟩

theorem setConn {conn' : Conn} (hc : w.conns c = some conn) (hq : conn'.dtapQueue = conn.dtapQueue)
    (ha : conn'.fi = .active → conn.fi = .active) : Same w (w.setConn c conn') := by
  refine ⟨rfl,rfl,rfl,rfl,rfl,rfl,fun c' => ?_,fun c' x hx hxa => ?_⟩
  · by_cases h : c' = c
    · simp [World.queue,World.setConn,h,hc,hq]
    · simp [World.queue,World.setConn,h]
  · by_cases h : c' = c
    · subst h
      have hx' : conn' = x := by simpa [World.setConn] using hx
      exact ⟨conn,hc,ha (hx' ▸ hxa)⟩
    · exact ⟨x,by simpa [World.setConn,h] using hx,hxa⟩

theorem gsconReleaseLchan (w : World) (c : ConnId) (l : LchanId) :
    Same w (Dtap.gsconReleaseLchan w c l) := by
  have hforget : Same w (if (w.lchans l).conn = some c then lchanForgetConn w l else w) := by
    split
    · exact setLchan ..
    · exact refl w
  unfold Dtap.gsconReleaseLchan connForgetLchan
  generalize (if (w.lchans l).conn = some c then lchanForgetConn w l else w) = w' at hforget
  split
  · exact hforget
  · rename_i conn hc
    split
    · exact hforget.trans (setConn hc rfl id)
    · exact hforget

end Same

/-- What an indication for a request does to its message. -/
structure Completed (w : World) (r : RllReq) (reqs : List RllReq) (ind : RllrInd) (w' : World) : Prop where
  ledger : Ledger [] w'
  links : Links w'
  conns : w'.conns = w.conns
  lchans : w'.lchans = w.lchans
  reqs : w'.bscRllReqs = reqs
  last : on r.data.conn r.data.sapi w'.pending = []
  freed : w'.freed = w.freed ∨ ind ≠ .estConf ∧ w'.freed = w.freed ++ [r.data]

theorem rllIndCb_completed {l1 l2 : List RllReq} {r : RllReq} {ind : RllrInd} (h : Ledger [] w)
    (hlinks : Links w) (hreqs : w.bscRllReqs = l1 ++ r :: l2)
    (hlink : ind = .estConf → (w.lchans r.lchan).rslLink = true) :
    Completed w r (l1 ++ l2) ind (rllIndCb { w with bscRllReqs := l1 ++ l2 } r ind) := by
  have hconn : (w.lchans r.lchan).conn = some r.data.conn := (hlinks.pending r (by simp [hreqs])).1
  have hmem : ∀ r' ∈ l1 ++ l2, r' ∈ w.bscRllReqs := by
    intro r' hr'
    rw [hreqs]
    rcases List.mem_append.mp hr' with hr' | hr'
    · simp [hr']
    · simp [hr']
  have hlinks' : Links { w with bscRllReqs := l1 ++ l2 } :=
    ⟨fun r' hr' => hlinks.pending r' (hmem r' hr'),fun r' hr' => hlinks.sapi r' (hmem r' hr'),
      hlinks.back,hlinks.unborn⟩
  obtain ⟨hhand,hnone⟩ := h.complete hreqs
  unfold rllIndCb
  rw [show (({ w with bscRllReqs := l1 ++ l2 } : World).lchans r.lchan).conn = some r.data.conn from hconn]
  cases ind with
  | estConf =>
    simp only [rslDataRequest,hlink rfl,if_true]
    exact ⟨hhand.send hnone _ _,hlinks'.congr rfl rfl rfl rfl,rfl,rfl,rfl,hnone,.inl rfl⟩
  | relInd | errInd | timeout =>
    exact ⟨(hhand.reject rfl).free,hlinks'.congr rfl rfl rfl rfl,rfl,rfl,rfl,hnone,.inr ⟨by simp,rfl⟩⟩

/-- An indication from the BTS completes the request it is for, if there is one. -/
theorem rllIndication_completed {linkId : Nat} {ind : RllrInd} (h : Ledger [] w) (hlinks : Links w)
    (hlink : ind = .estConf → (w.lchans l).rslLink = true) :
    (rllIndication w l linkId ind = w ∧ ∀ r ∈ w.bscRllReqs, ¬ RllReq.isFor l linkId r = true)
    ∨ ∃ r l1 l2, w.bscRllReqs = l1 ++ r :: l2 ∧ RllReq.isFor l linkId r = true
        ∧ Completed w r (l1 ++ l2) ind (rllIndication w l linkId ind) := by
  cases hf : w.bscRllReqs.find? (RllReq.isFor l linkId) with
  | none =>
    refine .inl ⟨by simp [rllIndication,hf],fun r hr => ?_⟩
    exact List.find?_eq_none.mp hf r hr
  | some r =>
    obtain ⟨hr,l1,l2,hsplit,hbefore⟩ := List.find?_eq_some_iff_append.mp hf
    have herase : w.bscRllReqs.eraseP (RllReq.isFor l linkId) = l1 ++ l2 := by
      rw [hsplit,List.eraseP_append_right _ (fun x hx => by simpa using hbefore x hx),List.eraseP_cons_of_pos hr]
    have hl : r.lchan = l := by
      have := hr
      simp only [RllReq.isFor,Bool.and_eq_true,decide_eq_true_eq] at this
      exact this.1
    refine .inr ⟨r,l1,l2,hsplit,hr,?_⟩
    have heq : rllIndication w l linkId ind = rllIndCb { w with bscRllReqs := l1 ++ l2 } r ind := by
      simp [rllIndication,hf,herase]
    rw [heq]
    exact rllIndCb_completed h hlinks hsplit (by rwa [hl])

end OsmoBsc.Dtap
