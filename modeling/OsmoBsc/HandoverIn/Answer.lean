import OsmoBsc.HandoverIn.Request
set_option autoImplicit false

namespace OsmoBsc.HandoverIn
open EventFsm
open Chan (HoState HoEvent HoResult ConnState ChannelModeAndRate LchanId Ie hoFsm gsconFsm)

def Bssmap.isAnswer : Bssmap → Bool
  | .hoRequestAck | .hoFailure => true
  | .hoDetect | .hoComplete | .clearRequest => false

/-- A request without an answer is being worked on, with the timer of the handover FSM running, and nothing that
comes in is a fault; else just one answer was sent before any other message. A Handover Complete follows an acknowledge, and no
failure goes with it. A handover that failed leaves no lchan reserved. -/
structure Conn.Answered (k : Conn) : Prop where
  waits : k.sent = [] → k.hoFi = some .waitLchanActive ∨ k.hoFi = some .waitMgwEndpointToMsc
  goes : k.sent = [] → ∀ i, ∃ k', step k i = .ok k'
  one : k.sent ≠ [] → (k.sent.takeWhile Bssmap.isAnswer).length = 1
  complete : k.sent.count .hoComplete ≤ 1
  acked : .hoComplete ∈ k.sent → k.sent.head? = some .hoRequestAck ∧ .hoFailure ∉ k.sent
  released : k.hoFi = none → k.newLchan = none ∧ (.hoComplete ∉ k.sent → k.use ≠ .activated)

/-- The inputs that end a handover with HO_RESULT_ERROR. -/
def Fails (k : Conn) (env : Env) : Input → Prop
  | .lchanError => k.newLchan.isSome ∧ k.concluded = false
  | .lchanReleasing => k.newLchan.isSome
  | .bssmapHandoverCmd l3Info => l3Info = false
  | .rrHoComplete => k.newLchan.isSome ∧ k.concluded = true ∧ k.hoCompleteOk env = false
  | .lchanEstablished => k.newLchan.isSome ∧ k.concluded = false ∧ k.hoFi = some .waitLchanEstablished ∧
    k.hoCompleteOk env = false
  | _ => False

instance (k : Conn) (env : Env) (i : Input) : Decidable (Fails k env i) := by
  cases i <;> unfold Fails <;> infer_instance

/-- Up to the answer the timer does not expire, no connection failure is reported, the lchan does
not go without an error event, and the A interface is up; nothing fails before the next message
after an acknowledge. -/
def Answerable (k : Conn) (i : Input × Env) : Prop :=
  (k.sent = [] → i.2.ready = true ∧ i.1 ≠ .hoTimeout ∧ i.1 ≠ .rslConnFail ∧ i.1 ≠ .lchanForgotten) ∧
  (k.sent = [.hoRequestAck] → k.hoFi.isSome → i.2.ready = true → ¬ Fails k i.2 i.1)

instance (k : Conn) (i : Input × Env) : Decidable (Answerable k i) := by
  unfold Answerable
  infer_instance

def Ended (sent : List Bssmap) : Prop :=
  ∃ a rest, sent = a :: rest ∧ a.isAnswer = true ∧ (∀ m, rest.head? = some m → m.isAnswer = false) ∧
    rest.count .hoComplete ≤ 1 ∧ (.hoComplete ∈ rest → a = .hoRequestAck ∧ .hoFailure ∉ rest)

def Acked (sent : List Bssmap) : Prop :=
  ∃ rest, sent = .hoRequestAck :: rest ∧ ∀ m ∈ rest, m = .hoDetect ∨ m = .clearRequest

/-- What holds between two inputs. -/
def Conn.Inv (k : Conn) : Prop :=
  match k.hoFi with
  | none => Ended k.sent ∧ k.newLchan = none ∧ (.hoComplete ∉ k.sent → k.use ≠ .activated)
  | some .waitLchanActive | some .waitMgwEndpointToMsc =>
    k.sent = [] ∧ k.fi = .init ∧ k.lchan = none ∧ k.newLchan.isSome ∧ k.use = .activated
  | some .waitRrHoDetect | some .waitRrHoComplete | some .waitLchanEstablished =>
    Acked k.sent ∧ k.fi = .init ∧ k.lchan = none ∧ (k.newLchan.isSome ↔ k.use = .activated)
  | some .notStarted | some .outWaitHoCommand | some .outWaitClear => False

section Messages

variable {sent msgs : List Bssmap}

theorem Ended.append (h : Ended sent) (hm : ∀ m ∈ msgs, m = .clearRequest) : Ended (sent ++ msgs) := by
  obtain ⟨a,rest,rfl,ha,hhead,hcount,hcompl⟩ := h
  have hno : ∀ m : Bssmap, m ≠ .clearRequest → m ∉ msgs := fun m hne hmem => hne (hm m hmem)
  refine ⟨a,rest ++ msgs,rfl,ha,fun m hmm => ?_,?_,?_⟩
  · cases rest with
    | cons b rest => exact hhead m hmm
    | nil => rw [hm m (List.mem_of_mem_head? (by simpa using hmm))]; rfl
  · rw [List.count_append,List.count_eq_zero_of_not_mem (hno _ (by decide))]
    exact hcount
  · intro hmem
    rcases List.mem_append.mp hmem with hmem | hmem
    · refine ⟨(hcompl hmem).1,fun hf => ?_⟩
      rcases List.mem_append.mp hf with hf | hf
      · exact (hcompl hmem).2 hf
      · exact hno _ (by decide) hf
    · exact absurd hmem (hno _ (by decide))

theorem Acked.append (h : Acked sent) (hm : ∀ m ∈ msgs, m = .hoDetect ∨ m = .clearRequest) :
    Acked (sent ++ msgs) := by
  obtain ⟨rest,rfl,hrest⟩ := h
  refine ⟨rest ++ msgs,rfl,fun m hmem => ?_⟩
  rcases List.mem_append.mp hmem with hmem | hmem
  · exact hrest m hmem
  · exact hm m hmem

theorem Acked.not_mem {m : Bssmap} (h : Acked sent) (hm : m ≠ .hoRequestAck ∧ m ≠ .hoDetect ∧ m ≠ .clearRequest) :
    m ∉ sent := by
  obtain ⟨rest,rfl,hrest⟩ := h
  intro hmem
  rcases List.mem_cons.mp hmem with hmem | hmem
  · exact hm.1 hmem
  · rcases hrest m hmem with h1 | h1
    · exact hm.2.1 h1
    · exact hm.2.2 h1

/-- The end of a handover after its acknowledge: a failure only where something else was sent. -/
theorem Acked.ended (h : Acked sent) (hm : msgs = [] ∨ msgs = [.clearRequest] ∨ msgs = [.hoComplete] ∨
    (msgs = [.hoFailure,.clearRequest] ∧ sent ≠ [.hoRequestAck])) : Ended (sent ++ msgs) := by
  obtain ⟨rest,rfl,hrest⟩ := h
  have hno : ∀ m, m ≠ .hoDetect → m ≠ .clearRequest → m ∉ rest := fun m h1 h2 hmem =>
    (hrest m hmem).elim h1 h2
  have hcompl : Bssmap.hoComplete ∉ rest := hno _ (by decide) (by decide)
  have hfail : Bssmap.hoFailure ∉ rest := hno _ (by decide) (by decide)
  refine ⟨_,rest ++ msgs,rfl,rfl,fun m hmm => ?_,?_,fun hmem => ⟨rfl,?_⟩⟩
  · cases rest with
    | cons b rest =>
      cases hmm
      rcases hrest m (by simp) with rfl | rfl <;> rfl
    | nil =>
      rcases hm with rfl | rfl | rfl | ⟨-,hne⟩
      · cases hmm
      · cases hmm
        rfl
      · cases hmm
        rfl
      · exact absurd rfl hne
  · rw [List.count_append,List.count_eq_zero_of_not_mem hcompl]
    rcases hm with rfl | rfl | rfl | ⟨rfl,-⟩ <;> decide
  · rcases hm with rfl | rfl | rfl | ⟨rfl,-⟩
    · simpa using hfail
    · simpa using hfail
    · simpa using hfail
    · simp [hcompl] at hmem

end Messages

section Ends

variable {k : Conn} {env : Env} {r : HoResult}

/-- What a connection without channels sends when its handover fails. -/
def failMsgs (env : Env) (r : HoResult) : List Bssmap :=
  if env.ready then (if r = .error then [.hoFailure,.clearRequest] else [.clearRequest]) else []

theorem handoverEnd_fails (hfi : k.fi = .init) (hr : k.handoverEndResult env r ≠ .ok) :
    (k.handoverEnd env r).sent = k.sent ++ failMsgs env (k.handoverEndResult env r) ∧
    (k.handoverEnd env r).hoFi = none ∧ (k.handoverEnd env r).newLchan = none ∧
    (k.newLchan.isSome ∨ k.use ≠ .activated → (k.handoverEnd env r).use ≠ .activated) := by
  generalize hr' : k.handoverEndResult env r = r' at hr
  unfold Conn.handoverEnd failMsgs
  rw [hr']
  cases hn : k.newLchan <;> cases hready : env.ready <;> by_cases he : r' = .error <;>
    by_cases hu : k.use = .activated <;>
    simp [hr,he,hfi,hn,hu,hready,Conn.gsconHandoverEnd,Conn.sigtranSend,Conn.bssmapClear,Conn.stateChg,Fsm.verdict,gsconFsm,
      Conn.lchanRelease,Conn.gsconForgetLchan]

theorem handoverEnd_succeeds (hfi : k.fi = .init) (hr : k.handoverEndResult env r = .ok) :
    (k.handoverEnd env r).sent = k.sent ++ [Bssmap.hoComplete] ∧
    (k.handoverEnd env r).hoFi = none ∧ (k.handoverEnd env r).newLchan = none := by
  have hnew : k.newLchan.isSome ∧ env.ready = true := by
    unfold Conn.handoverEndResult at hr
    split at hr
    · split at hr
      · rename_i h
        have := h.2.2
        simp only [Conn.hoCompleteOk,Bool.and_eq_true] at this
        exact ⟨h.1,this.2⟩
      · cases hr
    · contradiction
  obtain ⟨l,hl⟩ := Option.isSome_iff_exists.mp hnew.1
  unfold Conn.handoverEnd
  rw [hr]
  simp [hfi,hl,hnew.2,Conn.gsconHandoverEnd,Conn.sigtranSend,Conn.stateChg,Fsm.verdict,gsconFsm]

theorem inv_of_early_fails (hsent : k.sent = []) (hfi : k.fi = .init) (hnew : k.newLchan.isSome ∨ k.use ≠ .activated)
    (hready : env.ready = true) (hr : k.handoverEndResult env r = .error) : (k.handoverEnd env r).Inv := by
  obtain ⟨h1,h2,h3,h4⟩ := @handoverEnd_fails k env r hfi (by rw [hr]; simp)
  rw [hsent,hr] at h1
  simp only [failMsgs,hready,if_true,List.nil_append] at h1
  unfold Conn.Inv
  rw [h2]
  refine ⟨?_,h3,fun _ => h4 hnew⟩
  rw [h1]
  exact ⟨.hoFailure,[.clearRequest],rfl,rfl,by simp [Bssmap.isAnswer],by decide,by decide⟩

theorem inv_of_acked_ends (hacked : Acked k.sent) (hfi : k.fi = .init) (hnew : k.newLchan.isSome ↔ k.use = .activated)
    (hgood : k.handoverEndResult env r = .error → env.ready = true → k.sent ≠ [.hoRequestAck]) :
    (k.handoverEnd env r).Inv := by
  unfold Conn.Inv
  by_cases hr : k.handoverEndResult env r = .ok
  · obtain ⟨h1,h2,h3⟩ := handoverEnd_succeeds hfi hr
    rw [h2,h1]
    exact ⟨hacked.ended (by simp),h3,fun hno => absurd (by simp) hno⟩
  · obtain ⟨h1,h2,h3,h4⟩ := handoverEnd_fails hfi hr
    rw [h2,h1]
    refine ⟨hacked.ended ?_,h3,fun _ => h4 ?_⟩
    · unfold failMsgs
      by_cases hready : env.ready
      · by_cases he : k.handoverEndResult env r = .error
        · simp [hready,he,hgood he hready]
        · simp [hready,he]
      · simp [hready]
    · by_cases hu : k.use = .activated
      · exact .inl (hnew.mpr hu)
      · exact .inr hu

end Ends

section Steps

variable {k k' : Conn} {env : Env} {st : HoState} {l : LchanId}

def early (st : HoState) : Prop := st = .waitLchanActive ∨ st = .waitMgwEndpointToMsc

def late (st : HoState) : Prop := st = .waitRrHoDetect ∨ st = .waitRrHoComplete ∨ st = .waitLchanEstablished

theorem inv_none (hho : k.hoFi = none) :
    k.Inv ↔ Ended k.sent ∧ k.newLchan = none ∧ (.hoComplete ∉ k.sent → k.use ≠ .activated) := by
  rw [Conn.Inv,hho]

theorem inv_early (hho : k.hoFi = some st) (he : early st) :
    k.Inv ↔ k.sent = [] ∧ k.fi = .init ∧ k.lchan = none ∧ k.newLchan.isSome ∧ k.use = .activated := by
  rw [Conn.Inv,hho]
  rcases he with rfl | rfl <;> rfl

theorem inv_late (hho : k.hoFi = some st) (hl : late st) :
    k.Inv ↔ Acked k.sent ∧ k.fi = .init ∧ k.lchan = none ∧ (k.newLchan.isSome ↔ k.use = .activated) := by
  rw [Conn.Inv,hho]
  rcases hl with rfl | rfl | rfl <;> rfl

theorem Conn.Inv.state (h : k.Inv) (hho : k.hoFi = some st) : early st ∨ late st := by
  rw [Conn.Inv,hho] at h
  unfold early late
  cases st <;> simp_all

theorem Conn.Inv.over (h : k.Inv) (hho : k.hoFi = none) (hho' : k'.hoFi = none) (hnew : k'.newLchan = none)
    (hsent : k'.sent = k.sent ∨ k'.sent = k.sent ++ [Bssmap.clearRequest])
    (huse : k'.use = k.use ∨ k'.use ≠ .activated) : k'.Inv := by
  rw [inv_none hho] at h
  rw [inv_none hho']
  refine ⟨?_,hnew,fun hno => ?_⟩
  · rcases hsent with hs | hs
    · rw [hs]
      exact h.1
    · rw [hs]
      exact h.1.append (by simp)
  · rcases huse with hu | hu
    · rw [hu]
      refine h.2.2 fun hmem => hno ?_
      rcases hsent with hs | hs
      · rw [hs]
        exact hmem
      · rw [hs]
        exact List.mem_append_left _ hmem
    · exact hu

theorem Conn.Inv.late (h : k.Inv) {st' : HoState} (hho : k.hoFi = some st) (hl : late st)
    (hho' : k'.hoFi = some st') (hl' : HandoverIn.late st') {msgs : List Bssmap} (hsent : k'.sent = k.sent ++ msgs)
    (hm : ∀ m ∈ msgs, m = .hoDetect ∨ m = .clearRequest) (hfi : k'.fi = k.fi) (hlchan : k'.lchan = none)
    (hnew : (k.newLchan.isSome ↔ k.use = .activated) → (k'.newLchan.isSome ↔ k'.use = .activated)) : k'.Inv := by
  rw [inv_late hho hl] at h
  rw [inv_late hho' hl',hfi,hsent]
  exact ⟨h.1.append hm,h.2.1,hlchan,hnew h.2.2.2⟩

theorem complete_fails (hr : k.handoverEndResult env .ok = .error) (hnew : k.newLchan.isSome) (hu : k.use = .activated) :
    k.hoCompleteOk env = false := by
  simpa [Conn.handoverEndResult,hnew,hu] using hr

theorem handoverStart_inv {aoip : Bool} {req : HoRequest} {cells : List Cell} (hready : env.ready = true) :
    (({ aoip := aoip } : Conn).handoverStartInterBscIn env req cells).Inv := by
  unfold Conn.handoverStartInterBscIn
  dsimp only
  split
  · exact inv_of_early_fails rfl rfl (.inr (by simp)) hready rfl
  · split
    · exact inv_of_early_fails rfl rfl (.inr (by simp)) hready rfl
    · split
      · exact ⟨rfl,rfl,rfl,rfl,rfl⟩
      · exact inv_of_early_fails rfl rfl (.inl rfl) hready rfl

theorem Conn.Inv.early_error (h : k.Inv) (hho : k.hoFi = some st) (he : early st) (hready : env.ready = true) :
    (k.handoverEnd env .error).Inv := by
  rw [inv_early hho he] at h
  exact inv_of_early_fails h.1 h.2.1 (.inl h.2.2.2.1) hready rfl

theorem Conn.Inv.late_ends {r : HoResult} (h : k.Inv) (hho : k.hoFi = some st) (hl : HandoverIn.late st)
    (hgood : k.handoverEndResult env r = .error → env.ready = true → k.sent ≠ [.hoRequestAck]) :
    (k.handoverEnd env r).Inv := by
  rw [inv_late hho hl] at h
  exact inv_of_acked_ends h.1 h.2.1 h.2.2.2 hgood

theorem hoStateChg_early {st' : HoState} (h : k.Inv) (hho : k.hoFi = some st) (he : early st) (hready : env.ready = true)
    (hst : st' = .waitMgwEndpointToMsc ∨ st' = .waitRrHoDetect) (hs : k.hoStateChg env st st' = .ok k') : k'.Inv := by
  have hk := (inv_early hho he).mp h
  have herror : ∀ st', ({ k with hoFi := some st' }.handoverEnd env .error).Inv := fun st' =>
    inv_of_early_fails hk.1 hk.2.1 (.inl hk.2.2.2.1) hready rfl
  unfold Conn.hoStateChg at hs
  split at hs
  · rcases hst with rfl | rfl
    · dsimp only at hs
      unfold Conn.waitMgwEndpointToMscOnenter at hs
      split at hs
      · cases hs
      · split at hs
        · cases hs
          rw [inv_early rfl (.inr rfl)]
          exact hk
        · cases hs
          exact herror _
    · dsimp only at hs
      unfold Conn.waitRrHoDetectOnenter at hs
      split at hs
      · cases hs
      · split at hs
        · cases hs
          exact herror _
        · split at hs
          · cases hs
            unfold Conn.sigtranSend
            rw [if_pos hready,inv_late rfl (.inl rfl)]
            exact ⟨⟨[],by simp [hk.1],by simp⟩,hk.2.1,hk.2.2.1,by simp [hk.2.2.2.1,hk.2.2.2.2]⟩
          · cases hs
            exact herror _
  · cases hs
    exact h

theorem hoStateChg_late {st' : HoState} (h : k.Inv) (hho : k.hoFi = some st) (hl : HandoverIn.late st)
    (hst : st' = .waitRrHoComplete ∨ st' = .waitLchanEstablished)
    (hgood : k.newLchan.isSome → k.concluded = true → st' = .waitLchanEstablished → env.ready = true →
      k.hoCompleteOk env = false → k.sent ≠ [.hoRequestAck])
    (hs : k.hoStateChg env st st' = .ok k') : k'.Inv := by
  have hk := (inv_late hho hl).mp h
  unfold Conn.hoStateChg at hs
  split at hs
  · rcases hst with rfl | rfl
    · cases hs
      rw [inv_late rfl (.inr (.inl rfl))]
      exact hk
    · dsimp only at hs
      unfold Conn.waitLchanEstablishedOnenter at hs
      split at hs
      · cases hs
      · rename_i l hnew
        replace hnew : k.newLchan = some l := hnew
        split at hs
        · rename_i hc
          cases hs
          refine inv_of_acked_ends hk.1 hk.2.1 hk.2.2.2 fun hr hready => ?_
          refine hgood (by simp [hnew]) hc rfl hready ?_
          exact complete_fails hr (by simp [hnew]) (hk.2.2.2.mp (by simp [hnew]))
        · cases hs
          rw [inv_late rfl (.inr (.inr rfl))]
          exact hk
  · cases hs
    exact h

/-- What the condition on the inputs says of an event for the handover FSM. -/
structure EventOk (k : Conn) (env : Env) (ev : HoEvent) : Prop where
  ready : k.sent = [] → env.ready = true
  complete : k.sent = [.hoRequestAck] → env.ready = true → ev = .rrHoComplete → k.newLchan.isSome →
    k.concluded = true → k.hoCompleteOk env = true
  established : ∀ l, k.sent = [.hoRequestAck] → env.ready = true → ev = .lchanEstablished l →
    k.hoFi = some .waitLchanEstablished → k.newLchan.isSome ∧ k.hoCompleteOk env = true
  error : ∀ l, k.sent = [.hoRequestAck] → env.ready = true → ev ≠ .lchanError l

theorem hoSwitchRtp_inv {st' : HoState} (h : k.Inv) (hho : k.hoFi = some st) (hl : HandoverIn.late st)
    (hst : st' = .waitRrHoComplete ∨ st' = .waitLchanEstablished)
    (hgood : k.newLchan.isSome → k.concluded = true → st' = .waitLchanEstablished → env.ready = true →
      k.hoCompleteOk env = false → k.sent ≠ [.hoRequestAck])
    (hs : k.hoSwitchRtp env st st' = .ok k') : k'.Inv := by
  unfold Conn.hoSwitchRtp at hs
  split at hs
  · cases hs
  · exact hoStateChg_late h hho hl hst hgood hs

theorem hoAction_inv {ev : HoEvent} (h : k.Inv) (hho : k.hoFi = some st) (hev : EventOk k env ev)
    (hs : k.hoAction env st ev = .ok k') : k'.Inv := by
  have hearly : early st → env.ready = true := fun he => hev.ready ((inv_early hho he).mp h).1
  have hcompl : ev = .rrHoComplete → k.newLchan.isSome → k.concluded = true → env.ready = true →
      k.hoCompleteOk env = false → k.sent ≠ [.hoRequestAck] := by
    intro he hnew hc hready hno hsent
    rw [hev.complete hsent hready he hnew hc] at hno
    cases hno
  unfold Conn.hoAction at hs
  split at hs
  · split at hs
    · exact hoStateChg_early h hho (.inl rfl) (hearly (.inl rfl)) (.inl rfl) hs
    · exact hoStateChg_early h hho (.inl rfl) (hearly (.inl rfl)) (.inr rfl) hs
  · split at hs
    · exact hoStateChg_early h hho (.inr rfl) (hearly (.inr rfl)) (.inr rfl) hs
    · cases hs
      exact h.early_error hho (.inr rfl) (hearly (.inr rfl))
  · cases hs
    exact h.early_error hho (.inr rfl) (hearly (.inr rfl))
  · split at hs
    · rename_i hready
      unfold Conn.sigtranSend at hs
      rw [if_pos hready] at hs
      have h1 : Conn.Inv { k with sent := k.sent ++ [Bssmap.hoDetect] } :=
        h.late hho (.inl rfl) hho (.inl rfl) rfl (by simp) rfl ((inv_late hho (.inl rfl)).mp h).2.2.1 (fun hnew => hnew)
      exact hoSwitchRtp_inv h1 hho (.inl rfl) (.inl rfl) (fun _ _ hne => by cases hne) hs
    · rename_i hready
      cases hs
      exact h.late_ends hho (.inl rfl) fun _ hr => absurd hr hready
  · exact hoSwitchRtp_inv h hho (.inl rfl) (.inr rfl) (fun hnew hc _ => hcompl rfl hnew hc) hs
  · exact hoStateChg_late h hho (.inr (.inl rfl)) (.inr rfl) (fun hnew hc _ => hcompl rfl hnew hc) hs
  · cases hs
    exact h.late_ends hho (.inl rfl) fun hr => by cases hr
  · cases hs
    exact h.late_ends hho (.inr (.inl rfl)) fun hr => by cases hr
  · cases hs
    exact h
  · cases hs
    exact h
  · rename_i l
    cases hs
    refine h.late_ends hho (.inr (.inr rfl)) fun hr hready hsent => ?_
    obtain ⟨hnew,hok⟩ := hev.established l hsent hready rfl hho
    rw [complete_fails hr hnew (((inv_late hho (.inr (.inr rfl))).mp h).2.2.2.mp hnew)] at hok
    cases hok
  · cases hs

theorem hoDispatch_inv {ev : HoEvent} (h : k.Inv) (hev : k.hoFi.isSome → EventOk k env ev) (hrel : ev ≠ .connReleasing)
    (hs : k.hoDispatch env ev = .ok k') : k'.Inv := by
  unfold Conn.hoDispatch at hs
  split at hs
  · cases hs
    exact h
  · rename_i st hho
    replace hev := hev (by simp [hho])
    split at hs
    · rename_i hv
      have hall : hoFsm.allState ev = true := by
        unfold Fsm.verdict at hv
        split at hv
        · assumption
        · split at hv <;> cases hv
      obtain ⟨l,rfl⟩ : ∃ l, ev = .lchanError l := by
        cases ev <;> simp_all [hoFsm]
      cases hs
      rcases h.state hho with he | hl
      · exact h.early_error hho he (hev.ready ((inv_early hho he).mp h).1)
      · exact h.late_ends hho hl fun _ hready hsent => hev.error l hsent hready rfl
    · exact hoAction_inv h hho hev hs
    · cases hs
      exact h

theorem hoDispatch_lchanError (hs : k.hoDispatch env (.lchanError l) = .ok k') : k'.hoFi = none := by
  unfold Conn.hoDispatch at hs
  split at hs
  · rename_i hho
    cases hs
    exact hho
  · cases hs
    rfl

theorem bssmapClear_eq (env : Env) (k : Conn) : ∃ sent, k.bssmapClear env = { k with sent := sent } ∧
    (sent = k.sent ∨ sent = k.sent ++ [Bssmap.clearRequest]) := by
  unfold Conn.bssmapClear Conn.sigtranSend
  split
  · exact ⟨_,rfl,.inr rfl⟩
  · exact ⟨_,rfl,.inl rfl⟩

theorem Conn.Inv.clear_over (h : k.Inv) (hho : k.hoFi = none) : (k.bssmapClear env).Inv := by
  obtain ⟨sent,heq,hsent⟩ := bssmapClear_eq env k
  rw [heq]
  exact h.over hho hho ((inv_none hho).mp h).2.1 hsent (.inl rfl)

theorem Conn.Inv.clear_late (h : k.Inv) (hho : k.hoFi = some st) (hl : HandoverIn.late st) : (k.bssmapClear env).Inv := by
  obtain ⟨sent,heq,hsent⟩ := bssmapClear_eq env k
  have hlchan := ((inv_late hho hl).mp h).2.2.1
  rw [heq]
  rcases hsent with rfl | rfl
  · exact h.late hho hl hho hl (List.append_nil _).symm (by simp) rfl hlchan (fun hnew => hnew)
  · exact h.late hho hl hho hl rfl (by simp) rfl hlchan (fun hnew => hnew)

theorem stateChg_clearing (env : Env) (k : Conn) : ∃ fi, k.stateChg env .clearing = { k with fi := fi } := by
  unfold Conn.stateChg
  split
  · exact ⟨.clearing,by simp⟩
  · exact ⟨k.fi,rfl⟩

theorem Conn.Inv.releasingRest (h : k.Inv) (hho : k.hoFi = none) : (k.gsconLchanReleasingRest env l).Inv := by
  have hnew := ((inv_none hho).mp h).2.1
  have h1 : ∀ fi lchan, Conn.Inv { k with fi := fi, lchan := lchan } := fun _ _ =>
    h.over hho hho hnew (.inl rfl) (.inl rfl)
  have h2 : ∃ lchan, (if k.lchan = some l then { k with lchan := none } else k) = { k with lchan := lchan } := by
    split
    · exact ⟨none,rfl⟩
    · exact ⟨k.lchan,rfl⟩
  obtain ⟨lchan,hlchan⟩ := h2
  unfold Conn.gsconLchanReleasingRest
  rw [hlchan]
  dsimp only
  split
  · obtain ⟨fi,hfi⟩ := stateChg_clearing env { k with lchan := lchan }
    rw [hfi]
    exact (h1 fi lchan).clear_over hho
  · exact h1 k.fi lchan

theorem Conn.Inv.hoFi_of_primary (h : k.Inv) (hown : k.ownLchan = some l) (hnew : k.newLchan ≠ some l) : k.hoFi = none := by
  cases hho : k.hoFi with
  | none => rfl
  | some st =>
    have hlchan : k.lchan = none := by
      rcases h.state hho with he | hl
      · exact ((inv_early hho he).mp h).2.2.1
      · exact ((inv_late hho hl).mp h).2.2.1
    cases hn : k.newLchan with
    | none => simp [Conn.ownLchan,hn,hlchan] at hown
    | some l' =>
      simp only [Conn.ownLchan,hn,Option.orElse_eq_orElse,Option.orElse_some] at hown
      exact absurd (hn.trans hown) hnew

theorem gsconLchanReleasing_inv (h : k.Inv) (hev : k.hoFi.isSome → EventOk k env (.lchanError l))
    (hown : k.ownLchan = some l) (hs : k.gsconLchanReleasing env l = .ok k') : k'.Inv := by
  unfold Conn.gsconLchanReleasing at hs
  split at hs
  · rename_i hnew
    cases hk1 : k.hoDispatch env (.lchanError l) with
    | error e => simp [hk1,Except.map] at hs
    | ok k1 =>
      simp only [hk1,Except.map,Except.ok.injEq] at hs
      subst hs
      exact (hoDispatch_inv h hev (by simp) hk1).releasingRest (hoDispatch_lchanError hk1)
  · rename_i hnew
    cases hs
    exact h.releasingRest (h.hoFi_of_primary hown hnew)

theorem gsconForgetLchan_eq (env : Env) (l : LchanId) (k : Conn) : ∃ newLchan lchan,
    (k.newLchan = none ∨ k.newLchan = some l → newLchan = none) ∧ (k.lchan = none → lchan = none) ∧
    (k.gsconForgetLchan env l = { k with newLchan := newLchan, lchan := lchan } ∨
      k.gsconForgetLchan env l = { k with newLchan := newLchan, lchan := lchan }.bssmapClear env) := by
  refine ⟨if k.newLchan = some l then none else k.newLchan,if k.lchan = some l then none else k.lchan,?_,?_,?_⟩
  · rintro (h | h) <;> simp [h]
  · intro h
    simp [h]
  · exact (ite_eq_or_eq _ _ _).symm

theorem gsconForgetLchan_inv (h : k.Inv) (hsent : k.sent ≠ []) (hown : k.ownLchan = some l) :
    ({ k with use := .releasing }.gsconForgetLchan env l).Inv := by
  obtain ⟨newLchan,lchan,hnew,hlchan,heq⟩ := gsconForgetLchan_eq env l { k with use := .releasing }
  rcases Option.eq_none_or_eq_some k.hoFi with hho | ⟨st,hho⟩
  · have hk := (inv_none hho).mp h
    have h1 : Conn.Inv { k with use := .releasing, newLchan := newLchan, lchan := lchan } :=
      h.over hho hho (hnew (.inl hk.2.1)) (.inl rfl) (.inr (by simp))
    rcases heq with heq | heq
    · exact heq ▸ h1
    · exact heq ▸ h1.clear_over hho
  · rcases h.state hho with he | hl
    · exact absurd ((inv_early hho he).mp h).1 hsent
    · have hk := (inv_late hho hl).mp h
      have hnone : newLchan = none := by
        refine hnew (.inr ?_)
        by_contra hne
        rw [h.hoFi_of_primary hown hne] at hho
        cases hho
      have h1 : Conn.Inv { k with use := .releasing, newLchan := newLchan, lchan := lchan } :=
        h.late hho hl hho hl (List.append_nil _).symm (by simp) rfl (hlchan hk.2.2.1) (by simp [hnone])
      rcases heq with heq | heq
      · exact heq ▸ h1
      · exact heq ▸ h1.clear_late hho hl

theorem eventOk_of_other {ev : HoEvent} (hready : k.sent = [] → env.ready = true) (h1 : ev ≠ .rrHoComplete)
    (h2 : ∀ l, ev ≠ .lchanEstablished l) (h3 : ∀ l, ev ≠ .lchanError l) : EventOk k env ev where
  ready := hready
  complete _ _ he := absurd he h1
  established l _ _ he := absurd he (h2 l)
  error l _ _ := h3 l

theorem lchanInput_inv {i : Input} (h : k.Inv) (hg : Answerable k (i,env)) (hown : k.ownLchan = some l)
    (hs : k.lchanInput env l i = .ok k') : k'.Inv := by
  have hready : k.sent = [] → env.ready = true := fun hsent => (hg.1 hsent).1
  -- while the handover goes on the lchan is the new one
  have hnew : k.hoFi.isSome → k.newLchan.isSome := by
    intro hho
    by_contra hne
    rw [h.hoFi_of_primary hown (by rintro heq; simp [heq] at hne)] at hho
    cases hho
  have hother : ∀ ev : HoEvent, ev ≠ .rrHoComplete → (∀ l, ev ≠ .lchanEstablished l) → (∀ l, ev ≠ .lchanError l) →
      ev ≠ .connReleasing → k.hoDispatch env ev = .ok k' → k'.Inv := fun ev h1 h2 h3 h4 hs =>
    hoDispatch_inv h (fun _ => eventOk_of_other hready h1 h2 h3) h4 hs
  cases i with
  | lchanActive => exact hother _ (by simp) (by simp) (by simp) (by simp) hs
  | rrHoDetect => exact hother _ (by simp) (by simp) (by simp) (by simp) hs
  | rrHoFail => exact hother _ (by simp) (by simp) (by simp) (by simp) hs
  | lchanEstablished =>
    rw [Conn.lchanInput] at hs
    split at hs
    · cases hs
      exact h
    · rename_i hc
      have h1 : Conn.Inv { k with concluded := true } := h
      refine hoDispatch_inv h1 (fun hho => ⟨hready,by simp,fun l' hsent hr _ hst => ⟨hnew hho,?_⟩,by simp⟩) (by simp) hs
      by_contra hno
      exact hg.2 hsent hho hr ⟨hnew hho,by simpa using hc,hst,Bool.eq_false_iff.mpr hno⟩
  | lchanError =>
    rw [Conn.lchanInput] at hs
    split at hs
    · cases hs
      exact h
    · rename_i hc
      have h1 : Conn.Inv { k with concluded := true } := h
      refine hoDispatch_inv h1 (fun hho => ⟨hready,by simp,by simp,fun l' hsent hr _ => ?_⟩) (by simp) hs
      exact hg.2 hsent hho hr ⟨hnew hho,by simpa using hc⟩
  | rrHoComplete =>
    refine hoDispatch_inv h (fun hho => ⟨hready,fun hsent hr _ hn hc => ?_,by simp,by simp⟩) (by simp) hs
    by_contra hno
    exact hg.2 hsent hho hr ⟨hn,hc,by simpa using hno⟩
  | lchanReleasing =>
    refine gsconLchanReleasing_inv h (fun hho => ⟨hready,by simp,by simp,fun l' hsent hr _ => ?_⟩) hown hs
    exact hg.2 hsent hho hr (hnew hho)
  | lchanForgotten =>
    cases hs
    exact gsconForgetLchan_inv h (fun hsent => (hg.1 hsent).2.2.2 rfl) hown
  | rslConnFail =>
    cases hs
    rcases Option.eq_none_or_eq_some k.hoFi with hho | ⟨st,hho⟩
    · exact h.clear_over hho
    · rcases h.state hho with he | hl
      · exact absurd rfl (hg.1 ((inv_early hho he).mp h).1).2.2.1
      · exact h.clear_late hho hl
  | mgwToMsc | hoTimeout | bssmapHandoverCmd =>
    cases hs
    exact h

theorem step_inv {i : Input × Env} (h : k.Inv) (hg : Answerable k i) (hs : step k i = .ok k') : k'.Inv := by
  obtain ⟨i,env⟩ := i
  have hready : k.sent = [] → env.ready = true := fun hsent => (hg.1 hsent).1
  unfold step at hs
  split at hs
  · rename_i ok env' heq
    cases heq
    refine hoDispatch_inv h (fun _ => eventOk_of_other hready ?_ ?_ ?_) ?_ hs <;> cases ok <;> simp
  · rename_i env' heq
    cases heq
    cases hs
    split
    · exact h
    · exact h
    · rename_i st _ hho
      rcases h.state hho with he | hl
      · exact absurd rfl (hg.1 ((inv_early hho he).mp h).1).2.1
      · exact h.late_ends hho hl fun hr => by cases hr
  · rename_i l3Info env' heq
    cases heq
    split at hs
    · cases hs
      exact h
    · rename_i hho
      replace hho : k.hoFi.isSome := Option.isSome_iff_ne_none.mpr (by simpa using hho)
      split at hs
      · exact hoDispatch_inv h (fun _ => eventOk_of_other hready (by simp) (by simp) (by simp)) (by simp) hs
      · rename_i hl3
        cases hs
        obtain ⟨st,hst⟩ := Option.isSome_iff_exists.mp hho
        rcases h.state hst with he | hl
        · exact h.early_error hst he (hready ((inv_early hst he).mp h).1)
        · exact h.late_ends hst hl fun _ hr hsent => hg.2 hsent hho hr (Bool.eq_false_iff.mpr hl3)
  · rename_i i' env' _ _ _ heq
    cases heq
    split at hs
    · cases hs
      exact h
    · exact lchanInput_inv h hg (by assumption) hs

end Steps

section Early

variable {k : Conn} {env : Env} {st st' : HoState} {l : LchanId}

theorem hoStateChg_goes (hnew : k.newLchan = some l) : ∃ k', k.hoStateChg env st st' = .ok k' := by
  unfold Conn.hoStateChg
  split
  · cases st'
    case waitMgwEndpointToMsc =>
      simp only [Conn.waitMgwEndpointToMscOnenter,hnew]
      exact ⟨_,rfl⟩
    case waitRrHoDetect =>
      simp only [Conn.waitRrHoDetectOnenter,hnew]
      split
      · exact ⟨_,rfl⟩
      · split
        · exact ⟨_,rfl⟩
        · exact ⟨_,rfl⟩
    case waitLchanEstablished =>
      simp only [Conn.waitLchanEstablishedOnenter,hnew]
      exact ⟨_,rfl⟩
    all_goals exact ⟨_,rfl⟩
  · exact ⟨k,rfl⟩

/-- Before the answer the handover FSM has an lchan and an action for each event that it permits. -/
theorem hoDispatch_goes (hho : k.hoFi = some st) (he : early st) (hnew : k.newLchan = some l) (ev : HoEvent) :
    ∃ k', k.hoDispatch env ev = .ok k' := by
  unfold Conn.hoDispatch
  rw [hho]
  dsimp only
  cases hv : hoFsm.verdict st ev with
  | allState => exact ⟨_,rfl⟩
  | notPermitted => exact ⟨k,rfl⟩
  | action =>
    dsimp only
    rcases he with rfl | rfl
    · cases ev with
      | lchanActive l' =>
        rw [Conn.hoAction]
        split
        · exact hoStateChg_goes hnew
        · exact hoStateChg_goes hnew
      | _ => cases hv
    · cases ev with
      | mscMgwOk =>
        rw [Conn.hoAction]
        split
        · exact hoStateChg_goes hnew
        · exact ⟨_,rfl⟩
      | mscMgwFail => exact ⟨_,rfl⟩
      | _ => cases hv

theorem lchanInput_goes (hho : k.hoFi = some st) (he : early st) (hnew : k.newLchan = some l) (i : Input) :
    ∃ k', k.lchanInput env l i = .ok k' := by
  cases i with
  | lchanActive => exact hoDispatch_goes hho he hnew _
  | lchanEstablished =>
    rw [Conn.lchanInput]
    split
    · exact ⟨k,rfl⟩
    · exact hoDispatch_goes (k := { k with concluded := true }) hho he hnew _
  | lchanError =>
    rw [Conn.lchanInput]
    split
    · exact ⟨k,rfl⟩
    · exact hoDispatch_goes (k := { k with concluded := true }) hho he hnew _
  | lchanReleasing =>
    rw [Conn.lchanInput,Conn.gsconLchanReleasing,if_pos hnew]
    obtain ⟨k',hk'⟩ := hoDispatch_goes hho he hnew (.lchanError l)
    rw [hk']
    exact ⟨_,rfl⟩
  | rrHoDetect => exact hoDispatch_goes hho he hnew _
  | rrHoComplete => exact hoDispatch_goes hho he hnew _
  | rrHoFail => exact hoDispatch_goes hho he hnew _
  | lchanForgotten => exact ⟨_,rfl⟩
  | rslConnFail => exact ⟨_,rfl⟩
  | mgwToMsc ok => exact ⟨_,rfl⟩
  | hoTimeout => exact ⟨_,rfl⟩
  | bssmapHandoverCmd l3Info => exact ⟨_,rfl⟩

theorem step_goes (hho : k.hoFi = some st) (he : early st) (hnew : k.newLchan = some l) (i : Input × Env) :
    ∃ k', step k i = .ok k' := by
  unfold step
  split
  · exact hoDispatch_goes hho he hnew _
  · exact ⟨_,rfl⟩
  · split
    · exact ⟨k,rfl⟩
    · split
      · exact hoDispatch_goes hho he hnew _
      · exact ⟨_,rfl⟩
  · have hown : k.ownLchan = some l := by
      rw [Conn.ownLchan,hnew]
      rfl
    rw [hown]
    exact lchanInput_goes hho he hnew _

end Early

section Answers

variable {k : Conn}

theorem Ended.answered {sent : List Bssmap} (h : Ended sent) :
    sent ≠ [] ∧ (sent.takeWhile Bssmap.isAnswer).length = 1 ∧ sent.count .hoComplete ≤ 1 ∧
    (.hoComplete ∈ sent → sent.head? = some .hoRequestAck ∧ .hoFailure ∉ sent) := by
  obtain ⟨a,rest,rfl,ha,hhead,hcount,hcompl⟩ := h
  have hne : a ≠ .hoComplete := by rintro rfl; cases ha
  refine ⟨by simp,?_,?_,fun hmem => ?_⟩
  · rw [List.takeWhile_cons_of_pos ha,List.length_cons]
    cases rest with
    | nil => rfl
    | cons b rest => rw [List.takeWhile_cons_of_neg (by simp [hhead b rfl])]; rfl
  · rwa [List.count_cons_of_ne hne]
  · obtain ⟨rfl,hno⟩ := hcompl ((List.mem_cons.mp hmem).resolve_left hne.symm)
    exact ⟨rfl,by simpa using hno⟩

theorem Conn.Inv.answered (h : k.Inv) : k.Answered := by
  rcases Option.eq_none_or_eq_some k.hoFi with hho | ⟨st,hho⟩
  · obtain ⟨hended,hnew,huse⟩ := (inv_none hho).mp h
    obtain ⟨hne,hone,hcount,hcompl⟩ := hended.answered
    exact ⟨fun hno => absurd hno hne,fun hno => absurd hno hne,fun _ => hone,hcount,hcompl,fun _ => ⟨hnew,huse⟩⟩
  · have hnone : k.hoFi ≠ none := by simp [hho]
    rcases h.state hho with he | hl
    · obtain ⟨hsent,-,-,hnew,-⟩ := (inv_early hho he).mp h
      obtain ⟨l,hl⟩ := Option.isSome_iff_exists.mp hnew
      refine ⟨fun _ => ?_,fun _ i => step_goes hho he hl i,fun hne => absurd hsent hne,by simp [hsent],
        by simp [hsent],fun hno => absurd hno hnone⟩
      rcases he with rfl | rfl
      · exact .inl hho
      · exact .inr hho
    · have hacked := ((inv_late hho hl).mp h).1
      have hno := hacked.not_mem (m := .hoComplete) (by decide)
      obtain ⟨hne,hone,hcount,-⟩ := (@Acked.ended _ [] hacked (.inl rfl)).answered
      rw [List.append_nil] at hne hone hcount
      exact ⟨fun hn => absurd hn hne,fun hn => absurd hn hne,fun _ => hone,hcount,fun hmem => absurd hmem hno,
        fun hn => absurd hn hnone⟩

end Answers

/-- In every run without what `Answerable` excludes a Handover Request gets one answer. -/
theorem request_answered {k : Conn} (h : Reachable (· = true) Answerable k) : k.Answered := by
  refine Conn.Inv.answered (Reach.invariant (fun k hk => ?_) (fun k i k' hi hg hs => step_inv hi hg hs) h)
  obtain ⟨aoip,env,req,cells,hready,rfl⟩ := hk
  exact handoverStart_inv hready

def cellTchF : Cell := ⟨some ⟨.speechV1,.full⟩,fun _ => some ⟨1,0⟩⟩

def aoipRequest : HoRequest := { aoipTraspAddr := .value true }

/-- A handover that the MS performs. -/
theorem request_answered_complete : ∃ k : Conn, k.sent = [.hoRequestAck,.hoDetect,.hoComplete] ∧ k.Answered := by
  obtain ⟨k,hrun,hsent⟩ : ∃ k : Conn, run step (({} : Conn).handoverStartInterBscIn {} aoipRequest [cellTchF])
      [(.lchanActive,{}),(.mgwToMsc true,{}),(.rrHoDetect,{}),(.lchanEstablished,{}),(.rrHoComplete,{})] = .ok k ∧
      k.sent = [.hoRequestAck,.hoDetect,.hoComplete] := by
    decide +kernel
  have hg : GoodRun step Answerable (({} : Conn).handoverStartInterBscIn {} aoipRequest [cellTchF])
      [(.lchanActive,{}),(.mgwToMsc true,{}),(.rrHoDetect,{}),(.lchanEstablished,{}),(.rrHoComplete,{})] := by
    decide +kernel
  exact ⟨k,hsent,request_answered (Reach.of_run (.start ⟨true,{},aoipRequest,[cellTchF],rfl,rfl⟩) hg hrun)⟩

/-- The lchan does not become active before the timer expires: no answer before the Clear Request. -/
theorem timeout_not_answered : ∃ k : Conn, Reachable (fun _ => True) (fun _ _ => True) k ∧
    k.sent = [.clearRequest] ∧ ¬ k.Answered := by
  obtain ⟨k,hrun,hsent⟩ : ∃ k : Conn, run step (({} : Conn).handoverStartInterBscIn {} aoipRequest [cellTchF])
      [(.hoTimeout,{})] = .ok k ∧ k.sent = [.clearRequest] := by
    decide +kernel
  refine ⟨k,Reach.of_run (.start ⟨true,{},aoipRequest,[cellTchF],trivial,rfl⟩)
    (.of_forall (fun _ _ => trivial) _ _) hrun,hsent,fun h => ?_⟩
  have := h.one (by simp [hsent])
  rw [hsent] at this
  cases this

end OsmoBsc.HandoverIn
