import OsmoBsc.Paging.Queue
import OsmoBsc.Rf.Switching
import OsmoBsc.Neighbor.Vty
import OsmoBsc.Subscr.Store
set_option autoImplicit false

namespace OsmoBsc.Paging
open EventFsm OsmoBsc.Neighbor OsmoBsc.Rf

/-- An element of a parsed message: its length, and the octets from its value on. -/
structure Tlv where
  len : UInt16
  val : Nat → UInt8

inductive CellIdList where
  | noCell
  | wholeGlobal (ids : List (Plmn × UInt16 × UInt16))
  | lacAndCi (ids : List (UInt16 × UInt16))
  | ci (ids : List UInt16)
  | laiAndLac (ids : List (Plmn × UInt16))
  | lac (ids : List UInt16)
  | bss
  | other (discr : UInt8)
  deriving DecidableEq, Repr

structure PagingMsg where
  payloadLength : Nat
  imsi : Option Tlv
  cellIdentifierList : Option Tlv
  tmsi : Option Tlv
  channelNeeded : Option Tlv

/-- Library code: `osmo_plmn_cmp` finds no difference, `gsm48_mi_to_string`, and
`gsm0808_dec_cell_id_list2`, which may fail. -/
structure Codec where
  plmnEq : Plmn → Plmn → Bool
  miToString : Tlv → Filter.Imsi
  decCellIdList : Tlv → UInt8 → Option CellIdList

def Findable (imsi : Filter.Imsi) : Prop := imsi ≠ [] ∧ imsi.length ≤ Subscr.imsiMaxDigits

instance (imsi : Filter.Imsi) : Decidable (Findable imsi) := inferInstanceAs (Decidable (_ ∧ _))

/-- What `bsc_subscr_find_or_create_by_imsi` returns: the subscriber of an IMSI that can be found
again, and a new one for each call with another text. -/
structure Subscribers (n : Nat) where
  known : Filter.Imsi → SubscrId
  fresh : State n → SubscrId

def Subscribers.bscSubscrFindOrCreateByImsi {n : Nat} (subs : Subscribers n) (imsi : Filter.Imsi) (st : State n) :
    SubscrId :=
  if Findable imsi then subs.known imsi else subs.fresh st

/-- The subscriber that the list of subscribers returns for an IMSI is the one that it finds from then on. -/
theorem findOrCreateByImsi_again {st st' : Subscr.Store} {imsi : Filter.Imsi} {a : Subscr.Addr}
    (hf : Findable imsi) (h : st.bscSubscrFindOrCreateByImsi imsi = .ok (st',a)) :
    (st'.list.find? (·.imsi == imsi)).map (·.addr) = some a := by
  have hget : ∀ {st1 st2 : Subscr.Store} {b : Subscr.Addr}, st1.bscSubscrGet b = .ok st2 →
      (st2.list.find? (·.imsi == imsi)).map (·.addr) = (st1.list.find? (·.imsi == imsi)).map (·.addr) := by
    intro st1 st2 b hget
    have hlist : st2.list = st1.list.map fun e => if e.addr = b then e.addUse 1 else e := by
      rw [Subscr.Store.bscSubscrGet] at hget
      split at hget
      · cases hget
      · split at hget
        · cases hget
          rfl
        · cases hget
    rw [hlist,List.find?_map,Option.map_map]
    have hsame : ((fun e : Subscr.BscSubscr => e.imsi == imsi) ∘ fun e => if e.addr = b then e.addUse 1 else e) =
        fun e => e.imsi == imsi := by
      funext e
      rw [Function.comp]
      split <;> rfl
    rw [hsame]
    refine congrArg (Option.map · _) ?_
    funext e
    rw [Function.comp]
    split <;> rfl
  simp only [Subscr.Store.bscSubscrFindOrCreateByImsi,Subscr.Store.bscSubscrFindByImsi,List.isEmpty_iff,hf.1,
    if_false,Subscr.Store.findBy] at h
  cases hfind : st.list.find? (·.imsi == imsi) with
  | some e =>
    rw [hfind] at h
    obtain ⟨⟨st1,r⟩,h1,h2⟩ := bind_eq_ok.mp h
    obtain ⟨st2,hg,hret⟩ := bind_eq_ok.mp h1
    cases hret
    cases h2
    rw [hget hg,hfind]
    rfl
  | none =>
    rw [hfind] at h
    simp only [ok_bind,Subscr.Store.create] at h
    obtain ⟨st1,hg,hret⟩ := bind_eq_ok.mp h
    cases hret
    rw [hget hg]
    simp only [Subscr.Store.bscSubscrAlloc,Subscr.Store.bscSubscrSetImsi,Subscr.Store.write,
      List.take_of_length_le hf.2,List.find?_map,Option.map_map]
    have hsome : ((st.list ++ [({ addr := st.next } : Subscr.BscSubscr)]).find?
        ((fun e => e.imsi == imsi) ∘ fun e => if e.addr = st.next then { e with imsi := imsi } else e)).isSome := by
      rw [List.find?_isSome]
      exact ⟨{ addr := st.next },by simp,by simp⟩
    obtain ⟨e,he⟩ := Option.isSome_iff_exists.mp hsome
    have haddr : e.addr = st.next := by
      by_contra hne
      have hp := List.find?_some he
      simp only [Function.comp,hne,if_false] at hp
      rcases List.mem_append.mp (List.mem_of_find?_eq_some he) with hmem | hmem
      · exact List.find?_eq_none.mp hfind e hmem hp
      · exact hne (by rw [List.mem_singleton.mp hmem])
    rw [he]
    simp [haddr]

/-- What paging reads of a BTS; `trxUsable` is that of its first TRX. -/
structure Cell where
  nr : UInt8
  lac : UInt16
  ci : UInt16
  trxUsable : Bool
  deriving DecidableEq, Repr

structure PagingNet (n : Nat) where
  bts : Fin n → Cell
  plmn : Plmn
  msc : MscId
  coreLac : Int
  rf : BscRf

def gsmLacReservedAllBts : UInt16 := 0xfffe

def gsmMiTypeMask : UInt8 := 0x07

def gsmMiTypeImsi : UInt8 := 0x01

/-- The two low bits of GSM0808_IE_CHANNEL_NEEDED. -/
def channelNeededOf (octet : UInt8) : ChanNeeded :=
  if octet &&& 3 = 0 then .any
  else if octet &&& 3 = 1 then .sdcch
  else if octet &&& 3 = 2 then .tchF
  else .tchForH

section Page

variable {n : Nat} (net : PagingNet n) (subs : Subscribers n) (imsi : Filter.Imsi) (chanNeeded : ChanNeeded)

/-- `bsc_grace_paging_request`, for a subscriber that was just put into `lac`. -/
def gracePagingRequest (bsub : SubscrId) (lac : UInt16) (b : Fin n) (st : State n) : Except Fault (State n) :=
  if net.rf.bscGracePagingRequest (net.bts b).nr net.coreLac lac.toNat (net.bts b).lac.toNat then
    step st (.request b (net.bts b).trxUsable bsub chanNeeded net.msc)
  else .ok st

def pageSubscriber (lac : UInt16) (st : State n) (b : Fin n) : Except Fault (State n) := do
  let bsub := subs.bscSubscrFindOrCreateByImsi imsi st
  let st ← step st (.getSubscr bsub)
  let st ← gracePagingRequest net chanNeeded bsub lac b st
  step st (.putSubscr bsub)

def pageAllBts (st : State n) : Except Fault (State n) :=
  (List.finRange n).foldlM (pageSubscriber net subs imsi chanNeeded gsmLacReservedAllBts) st

/-- One entry of a list: the BTSs that it matches are paged in the area `lac`. -/
def pageMatching (matching : Cell → Bool) (lac : UInt16) (st : State n) : Except Fault (State n) :=
  (List.finRange n).foldlM (fun st b =>
    if matching (net.bts b) then pageSubscriber net subs imsi chanNeeded lac st b else .ok st) st

def pageCgi (codec : Codec) (ids : List (Plmn × UInt16 × UInt16)) (st : State n) : Except Fault (State n) :=
  ids.foldlM (fun st id =>
    if codec.plmnEq id.1 net.plmn then
      pageMatching net subs imsi chanNeeded (fun bts => bts.lac == id.2.1 && bts.ci == id.2.2) id.2.1 st
    else .ok st) st

def pageLacAndCi (ids : List (UInt16 × UInt16)) (st : State n) : Except Fault (State n) :=
  ids.foldlM (fun st id =>
    pageMatching net subs imsi chanNeeded (fun bts => bts.lac == id.1 && bts.ci == id.2) id.1 st) st

def pageCi (ids : List UInt16) (st : State n) : Except Fault (State n) :=
  ids.foldlM (fun st ci =>
    pageMatching net subs imsi chanNeeded (fun bts => bts.ci == ci) gsmLacReservedAllBts st) st

def pageLaiAndLac (codec : Codec) (ids : List (Plmn × UInt16)) (st : State n) : Except Fault (State n) :=
  ids.foldlM (fun st id =>
    if codec.plmnEq id.1 net.plmn then
      pageMatching net subs imsi chanNeeded (fun bts => bts.lac == id.2) id.2 st
    else .ok st) st

def pageLac (ids : List UInt16) (st : State n) : Except Fault (State n) :=
  ids.foldlM (fun st lac => pageMatching net subs imsi chanNeeded (fun bts => bts.lac == lac) lac st) st

/-- The `switch` of `bssmap_handle_paging`. -/
def pageListed (codec : Codec) (st : State n) : CellIdList → Except Fault (State n)
  | .noCell => pageAllBts net subs imsi chanNeeded st
  | .wholeGlobal ids => pageCgi net subs imsi chanNeeded codec ids st
  | .lacAndCi ids => pageLacAndCi net subs imsi chanNeeded ids st
  | .ci ids => pageCi net subs imsi chanNeeded ids st
  | .laiAndLac ids => pageLaiAndLac net subs imsi chanNeeded codec ids st
  | .lac ids => pageLac net subs imsi chanNeeded ids st
  | .bss => pageAllBts net subs imsi chanNeeded st
  | .other _ => pageAllBts net subs imsi chanNeeded st

end Page

def PagingMsg.chanNeeded (msg : PagingMsg) : ChanNeeded :=
  match msg.channelNeeded with
  | some ie => if ie.len = 1 then channelNeededOf (ie.val 0) else .any
  | none => .any

/-- What is left of the payload after the IMSI and the TMSI. -/
def PagingMsg.remain (msg : PagingMsg) (imsi : Tlv) : Int :=
  match msg.tmsi with
  | some ie => if ie.len = 4 then msg.payloadLength - 1 - imsi.len.toNat - 4
    else msg.payloadLength - 1 - imsi.len.toNat
  | none => msg.payloadLength - 1 - imsi.len.toNat

/-- `bssmap_handle_paging`, with its return value. -/
def bssmapHandlePaging {n : Nat} (codec : Codec) (net : PagingNet n) (subs : Subscribers n) (msg : PagingMsg) (st : State n) :
    Except Fault (Int × State n) :=
  match msg.imsi with
  | none => .ok (-1,st)
  | some imsi =>
    if imsi.val 0 &&& gsmMiTypeMask ≠ gsmMiTypeImsi then .ok (-1,st)
    else match msg.cellIdentifierList with
      | none => .ok (-1,st)
      | some ie =>
        if msg.remain imsi ≤ 0 then .ok (-1,st)
        else match codec.decCellIdList ie ie.len.toUInt8 with
          | none => .ok (-1,st)
          | some cil => do
            let st ← pageListed net subs (codec.miToString imsi) msg.chanNeeded codec st cil
            return (0,st)

section Spread

variable {n : Nat} {st st1 st2 : State n} {req : Request} {usable asked asked' : Fin n → Prop}

/-- The request is appended for each BTS that is `asked` and usable and does not page the subscriber yet. -/
structure Spread (req : Request) (usable asked : Fin n → Prop) (st st' : State n) : Prop where
  added : ∀ b, asked b → usable b → req.bsub ∉ (st.bts b).bsubs →
    (st'.bts b).pendingRequests = (st.bts b).pendingRequests ++ [req]
  kept : ∀ b, (asked b → usable b → req.bsub ∈ (st.bts b).bsubs) →
    (st'.bts b).pendingRequests = (st.bts b).pendingRequests
  others : st'.others = st.others

theorem Spread.refl (h : ∀ b, ¬asked b) : Spread req usable asked st st :=
  ⟨fun b ha => absurd ha (h b),fun _ _ => rfl,rfl⟩

theorem Spread.of_iff (hs : Spread req usable asked st st1) (h : ∀ b, asked b ↔ asked' b) :
    Spread req usable asked' st st1 :=
  ⟨fun b ha => hs.added b ((h b).mpr ha),fun b hk => hs.kept b fun ha => hk ((h b).mp ha),hs.others⟩

theorem Spread.trans (h1 : Spread req usable asked st st1) (h2 : Spread req usable asked' st1 st2) :
    Spread req usable (fun b => asked b ∨ asked' b) st st2 := by
  have hsame {b : Fin n} (hb : (st1.bts b).pendingRequests = (st.bts b).pendingRequests) :
      (st1.bts b).bsubs = (st.bts b).bsubs := by
    rw [PagingState.bsubs,hb,PagingState.bsubs]
  refine ⟨fun b ha hu hnew => ?_,fun b hk => ?_,h2.others.trans h1.others⟩
  · by_cases h : asked b
    · have h' := h1.added b h hu hnew
      rw [h2.kept b,h']
      intro _ _
      rw [PagingState.bsubs,h',List.map_append]
      exact List.mem_append_right _ (List.mem_singleton.mpr rfl)
    · have h' := h1.kept b fun ha => absurd ha h
      rw [h2.added b (ha.resolve_left h) hu (by rwa [hsame h']),h']
  · have h' := h1.kept b fun ha => hk (.inl ha)
    rw [h2.kept b,h']
    intro ha hu
    rw [hsame h']
    exact hk (.inr ha) hu

/-- A run of paging that adds the request where it is asked for, unless too many references are held. -/
def Pages (req : Request) (usable asked : Fin n → Prop) (st : State n) (r : Except Fault (State n)) : Prop :=
  r = .error .useCountMax ∨ ∃ st' is, r = .ok st' ∧ run step st is = .ok st' ∧ Spread req usable asked st st'

theorem Pages.of_iff {r : Except Fault (State n)} (hp : Pages req usable asked st r) (h : ∀ b, asked b ↔ asked' b) :
    Pages req usable asked' st r := by
  refine hp.imp id ?_
  rintro ⟨st',is,hr,hrun,hs⟩
  exact ⟨st',is,hr,hrun,hs.of_iff h⟩

theorem Pages.none (h : ∀ b, ¬asked b) : Pages req usable asked st (.ok st) :=
  .inr ⟨st,[],rfl,rfl,.refl h⟩

theorem run_ok (h : Ok st) {is : List (Input n)} (hrun : run step st is = .ok st1) : Ok st1 := by
  rcases run_keeps h is with he | ⟨st',he,hok,-⟩
  · rw [he] at hrun
    cases hrun
  · rw [he] at hrun
    cases hrun
    exact hok

theorem foldlM_pages {α : Type} {f : State n → α → Except Fault (State n)} (asked : α → Fin n → Prop)
    (hf : ∀ st x, Ok st → Pages req usable (asked x) st (f st x)) (h : Ok st) (xs : List α) :
    Pages req usable (fun b => ∃ x ∈ xs, asked x b) st (xs.foldlM f st) := by
  induction xs generalizing st with
  | nil =>
    refine .none ?_
    rintro b ⟨x,hx,-⟩
    cases hx
  | cons x xs ih =>
    rw [List.foldlM_cons]
    rcases hf st x h with he | ⟨st1,is1,he,hrun1,hs1⟩
    · rw [he]
      exact .inl rfl
    · rw [he,ok_bind]
      rcases ih (run_ok h hrun1) with he2 | ⟨st2,is2,he2,hrun2,hs2⟩
      · exact .inl he2
      · refine .inr ⟨st2,is1 ++ is2,he2,?_,(hs1.trans hs2).of_iff fun b => ?_⟩
        · rw [run_append,hrun1]
          exact hrun2
        · rw [List.exists_mem_cons_iff]

theorem pagingRequestBts_spread {b : Fin n} {trxUsable : Bool} {bsub : SubscrId} {type : ChanNeeded} {msc : MscId}
    (h : Ok st) (hu : usable b ↔ trxUsable = true) (he : pagingRequestBts b trxUsable bsub type msc st = .ok st1) :
    Spread { bsub := bsub, chanType := type, msc := msc } usable (· = b) st st1 := by
  cases hx : trxUsable with
  | false =>
    rw [hx] at he hu
    cases he
    refine ⟨fun b' hb' hu' => ?_,fun b' _ => rfl,rfl⟩
    subst hb'
    exact absurd (hu.mp hu') (by decide)
  | true =>
    rw [hx] at he hu
    rcases @pagingRequestBts_spec n st b bsub h type msc with he' | ⟨st',he',-,hadded⟩
    · rw [he] at he'
      cases he'
    · rw [he] at he'
      cases he'
      refine ⟨fun b' hb' _ hnew => ?_,fun b' hk => ?_,hadded.others⟩
      · subst hb'
        rw [hadded.added,if_neg hnew]
      · by_cases hb' : b' = b
        · subst hb'
          rw [hadded.added,if_pos (hk rfl (hu.mpr rfl))]
        · rw [hadded.kept b' hb']

end Spread

section Handle

variable {n : Nat} {net : PagingNet n} {subs : Subscribers n} {imsi : Filter.Imsi} {bsub : SubscrId}
  {chanNeeded : ChanNeeded} {st : State n}

def PagingNet.request (net : PagingNet n) (bsub : SubscrId) (chanNeeded : ChanNeeded) : Request :=
  { bsub := bsub, chanType := chanNeeded, msc := net.msc }

def PagingNet.Usable (net : PagingNet n) (b : Fin n) : Prop := (net.bts b).trxUsable = true

/-- The RF policy lets BTS `b` page in the area `lac`. -/
def PagingNet.Permits (net : PagingNet n) (lac : UInt16) (b : Fin n) : Prop :=
  net.rf.policy = .on ∨ net.rf.exclFromRfLock (net.bts b).nr = true ∧ (net.coreLac = -1 → lac = (net.bts b).lac)

theorem bscGracePagingRequest_iff (lac : UInt16) (b : Fin n) :
    net.rf.bscGracePagingRequest (net.bts b).nr net.coreLac lac.toNat (net.bts b).lac.toNat = true
      ↔ net.Permits lac b := by
  rw [BscRf.bscGracePagingRequest,PagingNet.Permits]
  by_cases hon : net.rf.policy = .on
  · simp [hon]
  · cases net.rf.exclFromRfLock (net.bts b).nr with
    | false => simp [hon]
    | true =>
      by_cases hlac : lac = (net.bts b).lac
      · simp [hon,hlac]
      · have hne : lac.toNat ≠ (net.bts b).lac.toNat := fun h => hlac (UInt16.toNat_inj.mp h)
        by_cases hcore : net.coreLac = -1 <;> simp [hon,hlac,hne,hcore]

theorem getSubscr_eq {st1 : State n} (he : step st (.getSubscr bsub) = .ok st1) :
    st1.bts = st.bts ∧ st1.others = Function.update st.others bsub (st.others bsub + 1) := by
  obtain ⟨st0,hget,hret⟩ := bind_eq_ok.mp he
  rw [bscSubscrGet] at hget
  split at hget
  · cases hget
    cases hret
    exact ⟨rfl,rfl⟩
  · cases hget

theorem putSubscr_eq {st1 : State n} (hheld : st.others bsub ≠ 0) (he : step st (.putSubscr bsub) = .ok st1) :
    st1.bts = st.bts ∧ st1.others = Function.update st.others bsub (st.others bsub - 1) := by
  simp only [step,if_neg hheld,bscSubscrPut] at he
  split at he
  · cases he
  · cases he
    exact ⟨rfl,rfl⟩

theorem gracePagingRequest_pages (net : PagingNet n) (chanNeeded : ChanNeeded) (lac : UInt16) (b : Fin n) (h : Ok st)
    (hheld : st.others bsub ≠ 0) :
    Pages (net.request bsub chanNeeded) net.Usable (fun b' => b' = b ∧ net.Permits lac b) st
      (gracePagingRequest net chanNeeded bsub lac b st) := by
  rw [gracePagingRequest]
  split
  · rename_i hp
    have hpermits := (bscGracePagingRequest_iff lac b).mp hp
    rcases step_keeps h (.request b (net.bts b).trxUsable bsub chanNeeded net.msc) with he | ⟨st1,he1,-⟩
    · exact .inl he
    · refine .inr ⟨st1,[.request b (net.bts b).trxUsable bsub chanNeeded net.msc],he1,?_,?_⟩
      · rw [run,he1]
        rfl
      · simp only [step,if_neg hheld] at he1
        exact (pagingRequestBts_spread h .rfl he1).of_iff fun b' => ⟨fun hb => ⟨hb,hpermits⟩,fun hb => hb.1⟩
  · rename_i hp
    exact .none fun b' hb' => hp ((bscGracePagingRequest_iff lac b).mpr hb'.2)

theorem pageSubscriber_pages (hf : Findable imsi) (lac : UInt16) (b : Fin n) (h : Ok st) :
    Pages (net.request (subs.known imsi) chanNeeded) net.Usable (fun b' => b' = b ∧ net.Permits lac b) st
      (pageSubscriber net subs imsi chanNeeded lac st b) := by
  have hbsub : subs.bscSubscrFindOrCreateByImsi imsi st = subs.known imsi := if_pos hf
  rw [pageSubscriber,hbsub]
  generalize subs.known imsi = bsub
  rcases step_keeps h (.getSubscr bsub) with he | ⟨st1,he1,h1,-⟩
  · rw [he]
    exact .inl rfl
  obtain ⟨hbts1,hothers1⟩ := getSubscr_eq he1
  have hheld : st1.others bsub = st.others bsub + 1 := by rw [hothers1,Function.update_self]
  rw [he1,ok_bind]
  rcases gracePagingRequest_pages net chanNeeded lac b h1 (by omega : st1.others bsub ≠ 0)
    with he | ⟨st2,is,he2,hrun2,hs⟩
  · rw [he]
    exact .inl rfl
  rw [he2,ok_bind]
  rcases step_keeps (run_ok h1 hrun2) (.putSubscr bsub) with he | ⟨st3,he3,-⟩
  · exact .inl he
  have hothers2 : st2.others bsub = st.others bsub + 1 := by rw [hs.others,hheld]
  obtain ⟨hbts3,hothers3⟩ := putSubscr_eq (by omega) he3
  refine .inr ⟨st3,.getSubscr bsub :: (is ++ [.putSubscr bsub]),he3,?_,?_⟩
  · rw [run,he1]
    change run step st1 (is ++ [.putSubscr bsub]) = .ok st3
    rw [run_append,hrun2,ok_bind,run,he3]
    rfl
  · refine ⟨?_,?_,?_⟩
    · rw [hbts3,← hbts1]
      exact hs.added
    · rw [hbts3,← hbts1]
      exact hs.kept
    · rw [hothers3,hothers2,hs.others,hothers1,Function.update_idem,Nat.add_sub_cancel,Function.update_eq_self]

theorem pageMatching_pages (hf : Findable imsi) (matching : Cell → Bool) (lac : UInt16)
    (h : Ok st) :
    Pages (net.request (subs.known imsi) chanNeeded) net.Usable (fun b => matching (net.bts b) = true ∧ net.Permits lac b) st
      (pageMatching net subs imsi chanNeeded matching lac st) := by
  refine (foldlM_pages (fun b' b => b = b' ∧ matching (net.bts b') = true ∧ net.Permits lac b') ?_ h
    (List.finRange n)).of_iff fun b => ?_
  · intro st b h
    split
    · rename_i hm
      exact (pageSubscriber_pages hf lac b h).of_iff fun b' =>
        ⟨fun hb => ⟨hb.1,hm,hb.1 ▸ hb.2⟩,fun hb => ⟨hb.1,hb.1 ▸ hb.2.2⟩⟩
    · rename_i hm
      exact .none fun b' hb => hm hb.2.1
  · simp

theorem pageAllBts_pages (hf : Findable imsi) (h : Ok st) :
    Pages (net.request (subs.known imsi) chanNeeded) net.Usable (net.Permits gsmLacReservedAllBts) st
      (pageAllBts net subs imsi chanNeeded st) := by
  refine (foldlM_pages _ (fun st b h => pageSubscriber_pages hf gsmLacReservedAllBts b h) h (List.finRange n)).of_iff
    fun b => ?_
  simp

/-- The list asks for the cell, as one of the area `lac`. -/
inductive Names (codec : Codec) (plmn : Plmn) : CellIdList → Cell → UInt16 → Prop where
  | noCell (c : Cell) : Names codec plmn .noCell c gsmLacReservedAllBts
  | wholeGlobal {ids : List (Plmn × UInt16 × UInt16)} {p : Plmn} {c : Cell} :
      (p,c.lac,c.ci) ∈ ids → codec.plmnEq p plmn = true → Names codec plmn (.wholeGlobal ids) c c.lac
  | lacAndCi {ids : List (UInt16 × UInt16)} {c : Cell} : (c.lac,c.ci) ∈ ids → Names codec plmn (.lacAndCi ids) c c.lac
  | ci {ids : List UInt16} {c : Cell} : c.ci ∈ ids → Names codec plmn (.ci ids) c gsmLacReservedAllBts
  | laiAndLac {ids : List (Plmn × UInt16)} {p : Plmn} {c : Cell} :
      (p,c.lac) ∈ ids → codec.plmnEq p plmn = true → Names codec plmn (.laiAndLac ids) c c.lac
  | lac {ids : List UInt16} {c : Cell} : c.lac ∈ ids → Names codec plmn (.lac ids) c c.lac
  | bss (c : Cell) : Names codec plmn .bss c gsmLacReservedAllBts
  | other (discr : UInt8) (c : Cell) : Names codec plmn (.other discr) c gsmLacReservedAllBts

/-- The list names BTS `b` as one of an area that the RF policy lets it page in. -/
def PagingNet.Asked (net : PagingNet n) (codec : Codec) (cil : CellIdList) (b : Fin n) : Prop :=
  ∃ lac, Names codec net.plmn cil (net.bts b) lac ∧ net.Permits lac b

theorem pageListed_pages (net : PagingNet n) (subs : Subscribers n) (chanNeeded : ChanNeeded) (codec : Codec)
    (cil : CellIdList) (hf : Findable imsi) (h : Ok st) :
    Pages (net.request (subs.known imsi) chanNeeded) net.Usable (net.Asked codec cil) st
      (pageListed net subs imsi chanNeeded codec st cil) := by
  cases cil with
  | noCell =>
    refine (pageAllBts_pages hf h).of_iff fun b => ⟨fun hb => ⟨_,.noCell _,hb⟩,?_⟩
    rintro ⟨lac,hn,hb⟩
    cases hn
    exact hb
  | wholeGlobal ids =>
    refine (foldlM_pages (fun id b => (codec.plmnEq id.1 net.plmn = true
      ∧ ((net.bts b).lac == id.2.1 && (net.bts b).ci == id.2.2) = true) ∧ net.Permits id.2.1 b) ?_ h ids).of_iff
      fun b => ⟨?_,?_⟩
    · intro st id h
      split
      · rename_i hp
        exact (pageMatching_pages hf _ _ h).of_iff fun b => ⟨fun hb => ⟨⟨hp,hb.1⟩,hb.2⟩,fun hb => ⟨hb.1.2,hb.2⟩⟩
      · rename_i hp
        exact .none fun b hb => hp hb.1.1
    · rintro ⟨⟨p,lac,ci⟩,hmem,⟨hp,hm⟩,hb⟩
      simp only [Bool.and_eq_true,beq_iff_eq] at hm
      obtain ⟨rfl,rfl⟩ := hm
      exact ⟨_,.wholeGlobal hmem hp,hb⟩
    · rintro ⟨lac,hn,hb⟩
      cases hn with
      | wholeGlobal hmem hp => exact ⟨_,hmem,⟨hp,by simp⟩,hb⟩
  | lacAndCi ids =>
    refine (foldlM_pages _ (fun st id h => pageMatching_pages hf _ _ h) h ids).of_iff fun b => ⟨?_,?_⟩
    · rintro ⟨⟨lac,ci⟩,hmem,hm,hb⟩
      simp only [Bool.and_eq_true,beq_iff_eq] at hm
      obtain ⟨rfl,rfl⟩ := hm
      exact ⟨_,.lacAndCi hmem,hb⟩
    · rintro ⟨lac,hn,hb⟩
      cases hn with
      | lacAndCi hmem => exact ⟨_,hmem,by simp,hb⟩
  | ci ids =>
    refine (foldlM_pages _ (fun st id h => pageMatching_pages hf _ _ h) h ids).of_iff fun b => ⟨?_,?_⟩
    · rintro ⟨ci,hmem,hm,hb⟩
      obtain rfl := beq_iff_eq.mp hm
      exact ⟨_,.ci hmem,hb⟩
    · rintro ⟨lac,hn,hb⟩
      cases hn with
      | ci hmem => exact ⟨_,hmem,beq_self_eq_true _,hb⟩
  | laiAndLac ids =>
    refine (foldlM_pages (fun id b => (codec.plmnEq id.1 net.plmn = true
      ∧ ((net.bts b).lac == id.2) = true) ∧ net.Permits id.2 b) ?_ h ids).of_iff fun b => ⟨?_,?_⟩
    · intro st id h
      split
      · rename_i hp
        exact (pageMatching_pages hf _ _ h).of_iff fun b => ⟨fun hb => ⟨⟨hp,hb.1⟩,hb.2⟩,fun hb => ⟨hb.1.2,hb.2⟩⟩
      · rename_i hp
        exact .none fun b hb => hp hb.1.1
    · rintro ⟨⟨p,lac⟩,hmem,⟨hp,hm⟩,hb⟩
      obtain rfl := beq_iff_eq.mp hm
      exact ⟨_,.laiAndLac hmem hp,hb⟩
    · rintro ⟨lac,hn,hb⟩
      cases hn with
      | laiAndLac hmem hp => exact ⟨_,hmem,⟨hp,beq_self_eq_true _⟩,hb⟩
  | lac ids =>
    refine (foldlM_pages _ (fun st id h => pageMatching_pages hf _ _ h) h ids).of_iff fun b => ⟨?_,?_⟩
    · rintro ⟨lac,hmem,hm,hb⟩
      obtain rfl := beq_iff_eq.mp hm
      exact ⟨_,.lac hmem,hb⟩
    · rintro ⟨lac,hn,hb⟩
      cases hn with
      | lac hmem => exact ⟨_,hmem,beq_self_eq_true _,hb⟩
  | bss =>
    refine (pageAllBts_pages hf h).of_iff fun b => ⟨fun hb => ⟨_,.bss _,hb⟩,?_⟩
    rintro ⟨lac,hn,hb⟩
    cases hn
    exact hb
  | other discr =>
    refine (pageAllBts_pages hf h).of_iff fun b => ⟨fun hb => ⟨_,.other _ _,hb⟩,?_⟩
    rintro ⟨lac,hn,hb⟩
    cases hn
    exact hb

/-- The message has all that paging needs: an IMSI, a list that is decoded, and a payload beyond them. -/
structure PagingMsg.Accepted (codec : Codec) (msg : PagingMsg) (imsi : Filter.Imsi) (cil : CellIdList) : Prop where
  imsi : ∃ ie, msg.imsi = some ie ∧ ie.val 0 &&& gsmMiTypeMask = gsmMiTypeImsi ∧ 0 < msg.remain ie
    ∧ imsi = codec.miToString ie
  list : ∃ ie, msg.cellIdentifierList = some ie ∧ codec.decCellIdList ie ie.len.toUInt8 = some cil

theorem bssmapHandlePaging_accepted {codec : Codec} {msg : PagingMsg} {cil : CellIdList}
    (h : msg.Accepted codec imsi cil) (st : State n) : bssmapHandlePaging codec net subs msg st =
      pageListed net subs imsi msg.chanNeeded codec st cil >>= fun st => .ok (0,st) := by
  obtain ⟨⟨ie,himsi,htype,hremain,rfl⟩,⟨list,hie,hdec⟩⟩ := h
  have hlong : ¬msg.remain ie ≤ 0 := by omega
  simp only [bssmapHandlePaging,himsi,htype,ne_eq,not_true,if_false,hie,hlong,hdec]
  rfl

theorem bssmapHandlePaging_refused {codec : Codec} {msg : PagingMsg}
    (h : ∀ imsi cil, ¬msg.Accepted codec imsi cil) (st : State n) :
    bssmapHandlePaging codec net subs msg st = .ok (-1,st) := by
  rw [bssmapHandlePaging]
  split
  · rfl
  · rename_i imsi himsi
    split
    · rfl
    · rename_i htype
      split
      · rfl
      · rename_i ie hie
        split
        · rfl
        · rename_i hlong
          split
          · rfl
          · rename_i cil hdec
            exact absurd ⟨⟨imsi,himsi,not_ne_iff.mp htype,by omega,rfl⟩,⟨ie,hie,hdec⟩⟩ (h _ cil)

end Handle

/-- Decoding an IMSI and a list of location area codes. -/
def lacCodec : Codec where
  plmnEq p q := p == q
  miToString ie :=
    let digits := (48 + ie.val 0 / 16) :: (List.range (ie.len.toNat - 1)).flatMap fun i =>
      [48 + ie.val (i + 1) % 16,48 + ie.val (i + 1) / 16]
    if ie.val 0 &&& 8 = 0 then digits.dropLast else digits
  decCellIdList ie len :=
    if ie.val 0 &&& 0x0f = 5 then
      some (.lac ((List.range ((len.toNat - 1) / 2)).map fun i =>
        (ie.val (2 * i + 1)).toUInt16 * 256 + (ie.val (2 * i + 2)).toUInt16))
    else none

def octets (l : List UInt8) : Tlv := { len := l.length.toUInt16, val := fun i => l.getD i 0 }

/-- Two cells of different location areas. -/
def twoCells : PagingNet 2 where
  bts b := if b = 0 then { nr := 0, lac := 1, ci := 1, trxUsable := true }
    else { nr := 1, lac := 2, ci := 1, trxUsable := true }
  plmn := { mcc := 1, mnc := 1, mnc3Digits := false }
  msc := 0
  coreLac := -1
  rf := Rf.twoBts

def byDigits : Subscribers 2 where
  known imsi := imsi.foldl (fun n d => 10 * n + (d.toNat - 48)) 1
  fresh _ := 0

/-- The subscriber with IMSI 001 is to be paged in the area 1, which the list names twice. -/
def pageTwice : PagingMsg where
  payloadLength := 14
  imsi := some (octets [0x09,0x10])
  cellIdentifierList := some (octets [5,0,1,0,1])
  tmsi := none
  channelNeeded := some (octets [1])

section Flush

variable {n : Nat} {st st' : State n} {b : Fin n} {bsub : SubscrId}

theorem pagingFlushBts_requests (msc : MscId) (h : Ok st) (he : pagingFlushBts (some msc) b st = .ok st') :
    (st'.bts b).pendingRequests = (st.bts b).pendingRequests.filter (!·.msc == msc)
      ∧ (∀ b' ≠ b, st'.bts b' = st.bts b') ∧ st'.others = st.others := by
  obtain ⟨⟨p,hp,hb⟩,hrest,hothers⟩ := pagingFlushBts_bts h he
  obtain ⟨p',hp',-,hreq⟩ := pagingInitIfNeeded_ok (h.bts b)
  rw [hp] at hp'
  cases hp'
  refine ⟨?_,hrest,hothers⟩
  rw [hb,← hreq]
  rfl

theorem flushNetwork_requests (msc : MscId) {bs : List (Fin n)} (hbs : bs.Nodup) (h : Ok st)
    (he : bs.foldlM (fun st b => pagingFlushBts (some msc) b st) st = .ok st') :
    (∀ b ∈ bs, (st'.bts b).pendingRequests = (st.bts b).pendingRequests.filter (!·.msc == msc))
      ∧ (∀ b ∉ bs, st'.bts b = st.bts b) ∧ st'.others = st.others := by
  induction bs generalizing st with
  | nil =>
    cases he
    exact ⟨fun b hb => (nomatch hb),fun _ _ => rfl,rfl⟩
  | cons b bs ih =>
    rw [List.nodup_cons] at hbs
    rw [List.foldlM_cons] at he
    obtain ⟨st1,he1,he2⟩ := bind_eq_ok.mp he
    obtain ⟨st1',he1',h1⟩ := pagingFlushBts_ok (b := b) (some msc) h
    rw [he1] at he1'
    cases he1'
    obtain ⟨hreq1,hrest1,hothers1⟩ := pagingFlushBts_requests msc h he1
    obtain ⟨hin,hout,hothers2⟩ := ih hbs.2 h1 he2
    refine ⟨fun b' hb' => ?_,fun b' hb' => ?_,hothers2.trans hothers1⟩
    · rcases List.mem_cons.mp hb' with rfl | hmem
      · rw [hout b' hbs.1,hreq1]
      · have hne : b' ≠ b := by
          rintro rfl
          exact hbs.1 hmem
        rw [hin b' hmem,hrest1 b' hne]
    · rw [List.mem_cons,not_or] at hb'
      rw [hout b' hb'.2,hrest1 b' hb'.1]

/-- When an MSC resets, all that it had paged is dropped from every BTS together with its references, and the
requests of other MSCs stay in order. -/
theorem flush_network_exact (msc : MscId) {is : List (Input n)} (hrun : run step {} is = .ok st) :
    ∃ st', step st (.flushNetwork (some msc)) = .ok st' ∧ st'.others = st.others
      ∧ (∀ b, (st'.bts b).pendingRequests = (st.bts b).pendingRequests.filter (!·.msc == msc))
      ∧ ∀ bsub, st.useCount bsub = st'.useCount bsub
        + ∑ b, ((st.bts b).pendingRequests.filter fun r => r.bsub == bsub && r.msc == msc).length := by
  have h : Ok st := run_ok initial_ok hrun
  obtain ⟨st',he,hok⟩ := flushNetwork_ok (some msc) (List.finRange n) h
  obtain ⟨hin,-,hothers⟩ := flushNetwork_requests msc (List.nodup_finRange n) h he
  have hreq (b : Fin n) := hin b (List.mem_finRange b)
  refine ⟨st',he,hothers,hreq,fun bsub => ?_⟩
  have hsplit (b : Fin n) : (st.bts b).bsubs.count bsub = (st'.bts b).bsubs.count bsub
      + ((st.bts b).pendingRequests.filter fun r => r.bsub == bsub && r.msc == msc).length := by
    rw [PagingState.bsubs,PagingState.bsubs,hreq,List.count_eq_countP,List.countP_map,List.count_eq_countP,
      List.countP_map,List.countP_eq_countP_filter_add _ _ (fun r => r.msc == msc),Nat.add_comm,
      ← List.countP_eq_length_filter,← List.countP_filter]
    rfl
  rw [h.refs,hok.refs,hothers,State.requests,State.requests,Finset.sum_congr rfl fun b _ => hsplit b,
    Finset.sum_add_distrib,Nat.add_assoc]

end Flush

def twoMscs : List (Input 1) := [.getSubscr 7,.request 0 true 7 .any 0,.getSubscr 8,.request 0 true 8 .any 1]

theorem flush_network_exact_two : ∃ st st' : State 1, run step {} twoMscs = .ok st
    ∧ step st (.flushNetwork (some 0)) = .ok st'
    ∧ (st'.bts 0).pendingRequests = [{ bsub := 8, chanType := .any, msc := 1 }] := by
  obtain ⟨st,hrun,hreq⟩ : ∃ st, run step {} twoMscs = .ok st ∧ (st.bts 0).pendingRequests =
      [{ bsub := 7, chanType := .any, msc := 0 },{ bsub := 8, chanType := .any, msc := 1 }] := by
    decide +kernel
  obtain ⟨st',he,-,hrest,-⟩ := flush_network_exact 0 hrun
  refine ⟨st,st',hrun,he,?_⟩
  rw [hrest 0,hreq]
  rfl

end OsmoBsc.Paging
