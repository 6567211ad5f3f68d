import OsmoBsc.Nm.Software
import Mathlib.Data.List.Induction
set_option autoImplicit false

namespace OsmoBsc.Nm
open EventFsm Calls

def await (a : Option Msg) : Traffic → Option Msg
  | .tx m => if m.wAck then some m else a
  | .rx r => if a.any r.answers then none else a

def awaiting (traffic : List Traffic) : Option Msg := traffic.foldl await none

def Orderly (traffic : List Traffic) : Prop :=
  ∀ pre m post, traffic = pre ++ Traffic.tx m :: post → awaiting pre = none

section Traffic

variable {l : List Traffic} {m : Msg} {r : Rx}

@[simp] theorem awaiting_append_one (e : Traffic) : awaiting (l ++ [e]) = await (awaiting l) e := by
  simp [awaiting]

theorem orderly_nil : Orderly [] := by
  intro pre m post h
  simp at h

theorem orderly_rx : Orderly (l ++ [Traffic.rx r]) ↔ Orderly l := by
  constructor
  · intro h pre m post hl
    exact h pre m (post ++ [Traffic.rx r]) (by simp [hl])
  · intro h pre m post hl
    rcases List.eq_nil_or_concat post with rfl | ⟨post',e,rfl⟩
    · have := List.append_inj_right' hl rfl
      simp at this
    · have hl : l ++ [Traffic.rx r] = (pre ++ Traffic.tx m :: post') ++ [e] := by simpa using hl
      exact h pre m post' (List.append_inj_left' hl rfl)

theorem orderly_tx : Orderly (l ++ [Traffic.tx m]) ↔ Orderly l ∧ awaiting l = none := by
  constructor
  · intro h
    refine ⟨?_,h l m [] rfl⟩
    intro pre m' post hl
    exact h pre m' (post ++ [Traffic.tx m]) (by simp [hl])
  · rintro ⟨h,ha⟩ pre m' post hl
    rcases List.eq_nil_or_concat post with rfl | ⟨post',e,rfl⟩
    · rwa [← List.append_inj_left' hl rfl]
    · have hl : l ++ [Traffic.tx m] = (pre ++ Traffic.tx m' :: post') ++ [e] := by simpa using hl
      exact h pre m' post' (List.append_inj_left' hl rfl)

theorem orderly_map_tx {ms : List Msg} (h : Orderly l) (ha : awaiting l = none)
    (hms : ∀ m ∈ ms, m.wAck = false) :
    Orderly (l ++ ms.map .tx) ∧ awaiting (l ++ ms.map .tx) = none := by
  induction ms generalizing l with
  | nil => simpa using ⟨h,ha⟩
  | cons m ms ih =>
    have hm : m.wAck = false := hms m (by simp)
    have h1 := ih (orderly_tx (m := m) |>.mpr ⟨h,ha⟩) (by simp [await,hm,ha]) (fun m' hm' => hms m' (by simp [hm']))
    simpa using h1

theorem awaiting_of_unanswered {pre mid : List Traffic} (hm : m.wAck = true)
    (ho : Orderly (pre ++ Traffic.tx m :: mid)) (hno : ∀ r, .rx r ∈ mid → r.answers m = false) :
    awaiting (pre ++ Traffic.tx m :: mid) = some m := by
  induction mid using List.reverseRecOn with
  | nil => simp [await,hm]
  | append_singleton mid e ih =>
    have hl : pre ++ Traffic.tx m :: (mid ++ [e]) = (pre ++ Traffic.tx m :: mid) ++ [e] := by simp
    rw [hl] at ho ⊢
    rw [awaiting_append_one]
    cases e with
    | tx m' =>
      obtain ⟨ho,hn⟩ := orderly_tx.mp ho
      have := ih ho fun r hr => hno r (by simp [hr])
      rw [this] at hn
      cases hn
    | rx r =>
      rw [ih (orderly_rx.mp ho) fun r hr => hno r (by simp [hr])]
      simp [await,hno r (by simp)]

theorem Orderly.answered {pre mid post : List Traffic} {m' : Msg}
    (ho : Orderly (pre ++ Traffic.tx m :: (mid ++ Traffic.tx m' :: post))) (hm : m.wAck = true) :
    ∃ r, .rx r ∈ mid ∧ r.answers m = true := by
  by_contra hno
  have hl : pre ++ Traffic.tx m :: (mid ++ Traffic.tx m' :: post) = (pre ++ Traffic.tx m :: mid) ++ Traffic.tx m' :: post := by simp
  have ha := ho (pre ++ Traffic.tx m :: mid) m' post hl
  have ho' : Orderly (pre ++ Traffic.tx m :: mid) := by
    intro pre' m'' post' h
    exact ho pre' m'' (post' ++ Traffic.tx m' :: post) (by rw [hl,h]; simp)
  rw [awaiting_of_unanswered hm ho' ?_] at ha
  · cases ha
  · intro r hr
    by_contra h
    exact hno ⟨r,hr,by simpa using h⟩

theorem awaiting_eq_some (h : awaiting l = some m) : m.wAck = true ∧
    ∃ pre mid, l = pre ++ Traffic.tx m :: mid ∧ ∀ r, .rx r ∈ mid → r.answers m = false := by
  induction l using List.reverseRecOn with
  | nil => cases h
  | append_singleton l e ih =>
    rw [awaiting_append_one] at h
    have hrx : ∀ {r}, e = .rx r → awaiting l = some m → r.answers m = false →
        m.wAck = true ∧ ∃ pre mid, l ++ [e] = pre ++ Traffic.tx m :: mid ∧
          ∀ r, .rx r ∈ mid → r.answers m = false := by
      rintro r rfl hl hr
      obtain ⟨hm,pre,mid,rfl,hmid⟩ := ih hl
      refine ⟨hm,pre,mid ++ [Traffic.rx r],by simp,?_⟩
      intro r' hr'
      rcases List.mem_append.mp hr' with hr' | hr'
      · exact hmid r' hr'
      · obtain rfl : r' = r := by simpa using hr'
        exact hr
    cases e with
    | tx m' =>
      rw [await] at h
      split at h
      · rename_i hm
        cases h
        exact ⟨hm,l,[],rfl,by simp⟩
      · obtain ⟨hm,pre,mid,rfl,hmid⟩ := ih h
        exact ⟨hm,pre,mid ++ [Traffic.tx m'],by simp,by simpa using hmid⟩
    | rx r =>
      rw [await] at h
      split at h
      · cases h
      · rename_i hn
        rw [h] at hn
        exact hrx rfl h (by simpa using hn)

end Traffic

section Expected

/-- The call gives BTS `b` a message that needs an answer. -/
def Api.asks (b : BtsId) : Api → Bool
  | .sendmsg b' _ => b' == b
  | .sendmsgDirect _ _ => false
  | .softwareLoad l => l.bts == b
  | .softwareActivate b' _ => b' == b

/-- `abis_nm_rcvmsg_sw` reaches `abis_nm_queue_send_next`. -/
def SwState.releases : SwState → MsgType → Bool
  | .waitInitack, .loadInitAck | .waitInitack, .loadInitNack => true
  | .waitSegack, .loadSegAck => true
  | .waitEndack, .loadEndAck | .waitEndack, .loadEndNack => true
  | .waitActack, .activateSwAck | .waitActack, .activateSwNack => true
  | _, _ => false

/-- `abis_nm_rcvmsg` reaches `abis_nm_queue_send_next`. -/
def Rx.releases (r : Rx) (type : BtsType) (st : SwState) : Bool :=
  if r.manuf then type == .nanobts || type == .osmobts
  else if r.mt.isReport then false
  else if r.mt.isSwLoad then st.releases r.mt
  else true

/-- The reaction to the message gives BTS `b` one that needs an answer: a handler sends it, or
the last segment of a load is acknowledged. -/
def Rx.asks (r : Rx) (acts : List Api) (b : BtsId) (sw : Sw) : Bool :=
  acts.any (Api.asks b) || !r.manuf && r.mt == .loadSegAck && sw.lastSeg && sw.bts == b

/-- What BTS `b` sends is expected: `abis_nm_rcvmsg` goes on with the queue on the answer to
the message that was transmitted last and on no other message, and, when no answer is
awaited, only if no message that needs one is sent in reaction. -/
structure Expected (b : BtsId) (net : Net) (r : Rx) (acts : List Api) : Prop where
  pending : ∀ m, awaiting (net.bts b).traffic = some m →
    r.releases (net.bts b).type net.sw.state = r.answers m
  idle : awaiting (net.bts b).traffic = none → r.releases (net.bts b).type net.sw.state = true →
    r.asks acts b net.sw = false

/-- The messages that BTS `b` sends are expected. -/
def Expects (b : BtsId) (c : Config) (_ : Move) : Prop :=
  ∀ r acts rest, c.calls = .rcvmsg b r acts :: rest → Expected b c.state r acts

instance (b : BtsId) (net : Net) (r : Rx) (acts : List Api) : Decidable (Expected b net r acts) :=
  decidable_of_iff ((∀ m, awaiting (net.bts b).traffic = some m →
      r.releases (net.bts b).type net.sw.state = r.answers m) ∧
    (awaiting (net.bts b).traffic = none → r.releases (net.bts b).type net.sw.state = true →
      r.asks acts b net.sw = false)) ⟨fun h => ⟨h.1,h.2⟩,fun h => ⟨h.pending,h.idle⟩⟩

instance (b : BtsId) (c : Config) (m : Move) : Decidable (Expects b c m) :=
  match h : c.calls with
  | .rcvmsg b' r acts :: rest =>
    decidable_of_iff (b' = b → Expected b c.state r acts) ⟨fun he r' acts' rest' h' => by
      rw [h] at h'
      cases h'
      exact he rfl,fun he hb => he r acts rest (by rw [h,hb])⟩
  | [] => isTrue fun _ _ _ h' => by simp [h] at h'
  | .api _ :: _ | .swSegAck _ :: _ | .swFillWindow :: _ | .swState _ :: _ | .queueSendNext _ :: _ =>
    isTrue fun _ _ _ h' => by simp [h] at h'

/-- `abis_nm_queue_send_next` is among the calls to be made for BTS `b`. -/
def Releasing (b : BtsId) (calls : List Call) : Prop :=
  .queueSendNext b ∈ calls ∨ .swSegAck b ∈ calls

def Bts.Synced (bts : Bts) : Prop := bts.abisNmPend = (awaiting bts.traffic).isSome

def Bts.Answered (bts : Bts) (quiet : Prop) : Prop :=
  awaiting bts.traffic = none ∧ (bts.abisNmPend = false → quiet)

end Expected

section Steps

variable {bts : Bts} {m : Msg}

structure Bts.Sound (bts : Bts) : Prop extends bts.InOrder where
  orderly : Orderly bts.traffic

theorem Bts.Sound.queueMsg (h : bts.Sound) (hs : bts.abisNmPend = false → awaiting bts.traffic = none) :
    (bts.queueMsg m).Sound := by
  refine ⟨h.toInOrder.queueMsg m,?_⟩
  unfold Bts.queueMsg
  split
  · rename_i hc
    simp only [Bool.and_eq_true,Bool.not_eq_true'] at hc
    exact orderly_tx.mpr ⟨h.orderly,hs hc.2⟩
  · exact h.orderly

theorem Bts.Synced.idle (h : bts.Synced) (hp : bts.abisNmPend = false) : awaiting bts.traffic = none := by
  rw [Bts.Synced,hp] at h
  simpa using h.symm

theorem Bts.Synced.queueMsg (h : bts.Synced) : (bts.queueMsg m).Synced := by
  unfold Bts.queueMsg
  split
  · rename_i hc
    simp only [Bool.and_eq_true,Bool.not_eq_true'] at hc
    rw [Bts.Synced]
    simp only [awaiting_append_one,await,h.idle hc.2]
    cases m.wAck <;> rfl
  · exact h

theorem Bts.Answered.queueMsg {quiet : Prop} (h : bts.Answered quiet)
    (hm : bts.abisNmPend = false → m.wAck = false) : (bts.queueMsg m).Answered quiet := by
  obtain ⟨ha,hq⟩ := h
  unfold Bts.queueMsg
  split
  · rename_i hc
    simp only [Bool.and_eq_true,Bool.not_eq_true'] at hc
    have hm := hm hc.2
    exact ⟨by simp [await,hm,ha],fun _ => hq hc.2⟩
  · exact ⟨ha,hq⟩

theorem Bts.Sound.queueSendNext (h : bts.Sound) (ha : awaiting bts.traffic = none) :
    bts.queueSendNext.Sound ∧ bts.queueSendNext.Synced := by
  rcases sendQueued_cases bts.abisQueue with ⟨hms,hrest⟩ | ⟨ms,m,hsent,hms,hm,hwait⟩
  · obtain ⟨ho,hn⟩ := orderly_map_tx h.orderly ha hms
    refine ⟨⟨h.toInOrder.queueSendNext,ho⟩,?_⟩
    simp only [Bts.Synced,Bts.queueSendNext,hn,hrest]
    rfl
  · obtain ⟨ho,hn⟩ := orderly_map_tx h.orderly ha hms
    have hl : bts.queueSendNext.traffic = (bts.traffic ++ ms.map .tx) ++ [Traffic.tx m] := by
      simp [Bts.queueSendNext,hsent]
    refine ⟨⟨h.toInOrder.queueSendNext,?_⟩,?_⟩
    · rw [hl]
      exact orderly_tx.mpr ⟨ho,hn⟩
    · rw [Bts.Synced,hl,awaiting_append_one,hn]
      simp [await,hm,Bts.queueSendNext,hwait]

theorem Bts.Sound.receive (h : bts.Sound) (r : Rx) : (bts.receive r).Sound :=
  ⟨h.toInOrder.receive r,orderly_rx.mpr h.orderly⟩

theorem awaiting_receive (r : Rx) : awaiting (bts.receive r).traffic = await (awaiting bts.traffic) (.rx r) := by
  simp [Bts.receive]

end Steps

section Run

variable {b : BtsId} {net net' : Net} {acts acts' : List Api} {tail tail' : List Call}

/-- What is left to do for a message after the reaction of the handlers. -/
inductive Tail (sw : Sw) : List Call → Prop where
  | nil : Tail sw []
  | next (b : BtsId) : Tail sw [.queueSendNext b]
  | state (st : SwState) (b : BtsId) : Tail sw [.swState st,.queueSendNext b]
  | fill (st : SwState) (b : BtsId) : Tail sw [.swFillWindow,.swState st,.queueSendNext b]
  | segAck (b : BtsId) : sw.state = .waitSegack → Tail sw [.swSegAck b]

/-- Nothing that is left to do gives BTS `b` a message that needs an answer. -/
def Quiet (b : BtsId) (sw : Sw) (acts : List Api) (tail : List Call) : Prop :=
  (∀ a ∈ acts, a.asks b = false) ∧
    ∀ b', .swSegAck b' ∈ tail → (sw.lastSeg && sw.bts == b) = false

/-- In the middle of a message: the handlers still call `acts`, and then `tail` is left. -/
structure Running (b : BtsId) (net : Net) (acts : List Api) (tail : List Call) : Prop where
  sound : (net.bts b).Sound
  form : Tail net.sw tail
  synced : ¬ Releasing b tail → (net.bts b).Synced
  answered : Releasing b tail → (net.bts b).Answered (Quiet b net.sw acts tail)

theorem Running.same (h : Running b net acts tail) (hb : net'.bts b = net.bts b)
    (ht : Tail net'.sw tail') (hr : Releasing b tail' ↔ Releasing b tail)
    (hq : Quiet b net.sw acts tail → Quiet b net'.sw acts' tail') : Running b net' acts' tail' := by
  refine ⟨hb ▸ h.sound,ht,?_,?_⟩
  · rw [hr,hb]
    exact h.synced
  · rw [hr,hb]
    intro hrel
    exact ⟨(h.answered hrel).1,fun hp => hq ((h.answered hrel).2 hp)⟩

theorem Running.queueMsg (h : Running b net acts tail) {m : Msg}
    (hb : net'.bts b = (net.bts b).queueMsg m) (ht : Tail net'.sw tail')
    (hr : Releasing b tail' ↔ Releasing b tail)
    (hq : Quiet b net.sw acts tail → m.wAck = false ∧ Quiet b net'.sw acts' tail') :
    Running b net' acts' tail' := by
  have hidle : (net.bts b).abisNmPend = false → awaiting (net.bts b).traffic = none := by
    intro hp
    by_cases hrel : Releasing b tail
    · exact (h.answered hrel).1
    · exact (h.synced hrel).idle hp
  refine ⟨hb ▸ h.sound.queueMsg hidle,ht,?_,?_⟩
  · rw [hr,hb]
    intro hrel
    exact (h.synced hrel).queueMsg
  · rw [hr,hb]
    intro hrel
    have ha := h.answered hrel
    exact (@Bts.Answered.queueMsg _ _ (Quiet b net'.sw acts' tail') ⟨ha.1,fun hp => (hq (ha.2 hp)).2⟩
      fun hp => (hq (ha.2 hp)).1)

theorem execApi_bts (a : Api) : (execApi a net).bts b = net.bts b ∨
    ∃ m, (execApi a net).bts b = (net.bts b).queueMsg m ∧ (m.wAck = true → a.asks b = true) := by
  have hupd : ∀ {net' : Net} (b' : BtsId) (m : Msg),
      net'.bts = Function.update net.bts b' ((net.bts b').queueMsg m) →
      (m.wAck = true → b' = b → a.asks b = true) → (net'.bts b = net.bts b ∨
        ∃ m, net'.bts b = (net.bts b).queueMsg m ∧ (m.wAck = true → a.asks b = true)) := by
    intro net' b' m hb hm
    by_cases he : b' = b
    · subst he
      exact .inr ⟨m,by simp [hb],fun h => hm h rfl⟩
    · exact .inl (by simp [hb,Ne.symm he])
  cases a with
  | sendmsg b' m => exact hupd b' { m with wAck := true } rfl fun _ he => by simp [Api.asks,he]
  | sendmsgDirect b' m => exact hupd b' { m with wAck := false } rfl fun h => by cases h
  | softwareLoad l =>
    rw [execApi,abisNmSoftwareLoad]
    split
    · exact .inl rfl
    · dsimp only
      split
      · split
        · exact .inl rfl
        · split
          · exact hupd l.bts ⟨false,_,.loadInit,[],true⟩ rfl fun _ he => by simp [Api.asks,he]
          · exact .inl rfl
      · exact .inl rfl
  | softwareActivate b' file =>
    rw [execApi,abisNmSoftwareActivate]
    split
    · exact .inl rfl
    · dsimp only
      split
      · exact .inl rfl
      · split
        · split
          · exact hupd b' ⟨false,_,.activateSw,[],true⟩ rfl fun _ he => by simp [Api.asks,he]
          · exact .inl rfl
        · exact .inl rfl

theorem Tail.api (h : Tail net.sw tail) (a : Api) : Tail (execApi a net).sw tail := by
  cases h with
  | nil => exact .nil
  | next b => exact .next b
  | state st b => exact .state st b
  | fill st b => exact .fill st b
  | segAck b hst => exact .segAck b (by rw [execApi_sw a (by simp [hst]),hst])

theorem Quiet.api {a : Api} (ht : Tail net.sw tail) (h : Quiet b net.sw (a :: acts) tail) :
    Quiet b (execApi a net).sw acts tail := by
  refine ⟨fun a' ha' => h.1 a' (by simp [ha']),?_⟩
  intro b' hb'
  cases ht with
  | segAck b0 hst =>
    rw [execApi_sw a (by simp [hst])]
    exact h.2 b' hb'
  | _ => simp at hb'

theorem Running.api {a : Api} (h : Running b net (a :: acts) tail) : Running b (execApi a net) acts tail := by
  rcases @execApi_bts b net a with hb | ⟨m,hb,hm⟩
  · exact h.same hb (h.form.api a) Iff.rfl fun hq => hq.api h.form
  · refine h.queueMsg hb (h.form.api a) Iff.rfl fun hq => ⟨?_,hq.api h.form⟩
    have ha := hq.1 a (by simp)
    cases hw : m.wAck with
    | false => rfl
    | true => simp [hm hw] at ha

theorem releasing_cons {call : Call} (h1 : call ≠ .queueSendNext b) (h2 : call ≠ .swSegAck b) :
    Releasing b (call :: tail) ↔ Releasing b tail := by
  simp [Releasing,h1.symm,h2.symm]

theorem swFillWindow_bts (readFails : Bool) : (swFillWindow readFails net).1.bts b = net.bts b ∨
    ∃ m : Msg, (swFillWindow readFails net).1.bts b = (net.bts b).queueMsg m ∧ m.wAck = false := by
  unfold swFillWindow
  split
  · split
    · exact .inl rfl
    · split
      · exact .inl rfl
      · dsimp only [swLoadSegment]
        by_cases he : net.sw.bts = b
        · subst he
          rw [Net.updBts_self]
          exact .inr ⟨_,rfl,rfl⟩
        · rw [Net.updBts_ne _ (Ne.symm he)]
          exact .inl rfl
  · exact .inl rfl

theorem swFillWindow_calls (readFails : Bool) :
    (swFillWindow readFails net).2 = [] ∨ (swFillWindow readFails net).2 = [.swFillWindow] := by
  unfold swFillWindow
  split
  · split
    · exact .inl rfl
    · split
      · exact .inl rfl
      · dsimp only
        split
        · exact .inl rfl
        · exact .inr rfl
  · exact .inl rfl

theorem Running.fill {st : SwState} {b' : BtsId} (readFails : Bool)
    (h : Running b net [] [.swFillWindow,.swState st,.queueSendNext b']) :
    Running b (swFillWindow readFails net).1 []
      ((swFillWindow readFails net).2 ++ [Call.swState st,.queueSendNext b']) := by
  have hform : ∀ {sw : Sw}, Tail sw ((swFillWindow readFails net).2 ++ [Call.swState st,.queueSendNext b']) := by
    intro sw
    rcases @swFillWindow_calls net readFails with h | h
    · rw [h]
      exact .state st b'
    · rw [h]
      exact .fill st b'
  have hrel : Releasing b ((swFillWindow readFails net).2 ++ [Call.swState st,.queueSendNext b']) ↔
      Releasing b [.swFillWindow,.swState st,.queueSendNext b'] := by
    rcases @swFillWindow_calls net readFails with h | h <;> simp [h,Releasing]
  have hquiet : ∀ {sw : Sw}, Quiet b sw [] ((swFillWindow readFails net).2 ++ [Call.swState st,.queueSendNext b']) := by
    intro sw
    refine ⟨by simp,?_⟩
    rcases @swFillWindow_calls net readFails with h | h <;> simp [h]
  rcases @swFillWindow_bts b net readFails with hb | ⟨m,hb,hm⟩
  · exact h.same hb hform hrel fun _ => hquiet
  · exact h.queueMsg hb hform hrel fun _ => ⟨hm,hquiet⟩

theorem Running.segAck {b' : BtsId} (h : Running b net [] [.swSegAck b']) :
    Running b (swSegAck b' net).1 [] (swSegAck b' net).2 := by
  unfold swSegAck
  dsimp only
  split
  · refine h.same rfl (.fill _ b') (by simp [Releasing]) ?_
    simp [Quiet]
  · rename_i hlast
    have hrel : Releasing b [.queueSendNext b'] ↔ Releasing b [.swSegAck b'] := by simp [Releasing]
    by_cases hb : net.sw.bts = b
    · refine h.queueMsg (m := ⟨false,net.sw.obj,.loadEnd,[],true⟩) ?_ (.next b') hrel fun hq => ?_
      · subst hb
        dsimp only
        rw [Net.updBts_self]
        rfl
      · have hquiet := hq.2 b' (by simp)
        simp [hb] at hquiet
        simp [hquiet] at hlast
    · refine h.same ?_ (.next b') hrel (by simp [Quiet])
      dsimp only
      rw [Net.updBts_ne _ (Ne.symm hb)]

theorem Running.sendNext {b' : BtsId} (h : Running b net [] [.queueSendNext b']) :
    Running b (net.updBts b' (·.queueSendNext)) [] [] := by
  by_cases he : b = b'
  · subst he
    obtain ⟨ha,_⟩ := h.answered (.inl (by simp))
    obtain ⟨hs,hsync⟩ := h.sound.queueSendNext ha
    refine ⟨by rwa [Net.updBts_self],.nil,?_,?_⟩
    · intro _
      rwa [Net.updBts_self]
    · simp [Releasing]
  · refine h.same (Net.updBts_ne _ he) .nil (by simp [Releasing,he]) ?_
    simp [Quiet]

theorem Running.step {call : Call} {readFails : Bool} {new : List Call}
    (h : Running b net [] (call :: tail)) (he : exec call readFails net = .ok (net',new)) :
    Running b net' [] (new ++ tail) := by
  have hform := h.form
  generalize hcalls : call :: tail = calls at hform
  cases hform with
  | nil => cases hcalls
  | next b' =>
    cases hcalls
    cases he
    exact h.sendNext
  | state st b' =>
    cases hcalls
    cases he
    refine h.same rfl (.next b') (releasing_cons (by simp) (by simp)).symm ?_
    simp [Quiet]
  | fill st b' =>
    cases hcalls
    have hfill := h.fill readFails
    rwa [show swFillWindow readFails net = (net',new) from Except.ok.inj he] at hfill
  | segAck b' hst =>
    cases hcalls
    have hack := h.segAck
    rw [show swSegAck b' net = (net',new) from Except.ok.inj he] at hack
    rwa [List.append_nil]

/-- What is left to do for a message of BTS `b'` after the calls of the handlers, if there are
any; `releases` tells whether that goes on with the queue, `segAck` whether the message is a
LOAD SEG ACK. -/
def Leaves (b' : BtsId) (segAck : Prop) (releases : Bool) (sw : Sw) (calls : List Call)
    (r : Net × List Call) : Prop :=
  ∃ tail, (r.2 = calls ++ tail ∨ r.2 = tail) ∧ Tail r.1.sw tail ∧
    (∀ b, Releasing b tail ↔ releases = true ∧ b = b') ∧
    ∀ b0, .swSegAck b0 ∈ tail → segAck ∧ r.1.sw = sw

theorem leaves_nothing {b' : BtsId} {segAck : Prop} {calls : List Call} :
    Leaves b' segAck false net.sw calls (net',calls) :=
  ⟨[],.inl (by simp),.nil,by simp [Releasing],by simp⟩

theorem leaves_next {b' : BtsId} {segAck : Prop} {calls : List Call} :
    Leaves b' segAck true net.sw calls (net',calls ++ [Call.queueSendNext b']) :=
  ⟨_,.inl rfl,.next b',by simp [Releasing],by simp⟩

theorem leaves_fill {b' : BtsId} {segAck : Prop} {calls : List Call} {st : SwState} :
    Leaves b' segAck true net.sw calls (net',calls ++ [Call.swFillWindow,.swState st,.queueSendNext b']) :=
  ⟨_,.inl rfl,.fill st b',by simp [Releasing],by simp⟩

theorem abisNmRcvmsgSw_leaves (b' : BtsId) (mt : MsgType) (calls : List Call) :
    Leaves b' (mt = .loadSegAck) (net.sw.state.releases mt) net.sw calls (abisNmRcvmsgSw b' mt calls net) ∧
      (abisNmRcvmsgSw b' mt calls net).1.bts = net.bts := by
  unfold abisNmRcvmsgSw
  cases hst : net.sw.state with
  | none => exact ⟨⟨[],.inr rfl,.nil,by simp [Releasing,SwState.releases],by simp⟩,rfl⟩
  | error => exact ⟨⟨[],.inr rfl,.nil,by simp [Releasing,SwState.releases],by simp⟩,rfl⟩
  | waitInitack =>
    cases mt with
    | loadInitAck => exact ⟨leaves_fill,rfl⟩
    | loadInitNack =>
      dsimp only
      split
      · exact ⟨leaves_fill,rfl⟩
      · exact ⟨⟨_,.inl rfl,.state _ b',by simp [Releasing,SwState.releases],by simp⟩,rfl⟩
    | _ => exact ⟨⟨[],.inr rfl,.nil,by simp [Releasing,SwState.releases],by simp⟩,rfl⟩
  | waitSegack =>
    cases mt with
    | loadSegAck =>
      exact ⟨⟨_,.inl rfl,.segAck b' hst,by simp [Releasing,SwState.releases],by simp⟩,rfl⟩
    | loadAbort => exact ⟨leaves_nothing,rfl⟩
    | _ => exact ⟨⟨[],.inr rfl,.nil,by simp [Releasing,SwState.releases],by simp⟩,rfl⟩
  | waitEndack =>
    cases mt with
    | loadEndAck => exact ⟨leaves_next,rfl⟩
    | loadEndNack => exact ⟨leaves_next,rfl⟩
    | _ => exact ⟨⟨[],.inr rfl,.nil,by simp [Releasing,SwState.releases],by simp⟩,rfl⟩
  | waitActack =>
    cases mt with
    | activateSwAck => exact ⟨leaves_next,rfl⟩
    | activateSwNack => exact ⟨leaves_next,rfl⟩
    | _ => exact ⟨⟨[],.inr rfl,.nil,by simp [Releasing,SwState.releases],by simp⟩,rfl⟩

theorem abisNmRcvmsg_leaves (b' : BtsId) (r : Rx) (calls : List Call) :
    Leaves b' (r.manuf = false ∧ r.mt = .loadSegAck) (r.releases (net.bts b').type net.sw.state) net.sw
        calls (abisNmRcvmsg b' r calls net) ∧
      (abisNmRcvmsg b' r calls net).1.bts = (net.updBts b' (·.receive r)).bts := by
  unfold abisNmRcvmsg Rx.releases
  dsimp only
  split
  · rw [Net.updBts_self]
    have htype : ((net.bts b').receive r).type = (net.bts b').type := rfl
    rw [htype]
    cases (net.bts b').type with
    | nanobts => exact ⟨leaves_next,rfl⟩
    | osmobts => exact ⟨leaves_next,rfl⟩
    | _ => exact ⟨⟨[],.inr rfl,.nil,by simp [Releasing],by simp⟩,rfl⟩
  · rename_i hmanuf
    split
    · exact ⟨leaves_nothing,rfl⟩
    · split
      · obtain ⟨⟨tail,h1,h2,h3,h4⟩,hb⟩ :=
          @abisNmRcvmsgSw_leaves (net.updBts b' (·.receive r)) b' r.mt calls
        exact ⟨⟨tail,h1,h2,h3,fun b0 hb0 => ⟨⟨by simpa using hmanuf,(h4 b0 hb0).1⟩,(h4 b0 hb0).2⟩⟩,hb⟩
      · exact ⟨leaves_next,rfl⟩

theorem running_of_rcvmsg {b' : BtsId} {r : Rx} (hs : (net.bts b).Sound) (hsync : (net.bts b).Synced)
    (hexp : b' = b → Expected b net r acts) :
    ∃ acts' tail, (abisNmRcvmsg b' r (acts.map .api) net).2 = acts'.map .api ++ tail ∧
      Running b (abisNmRcvmsg b' r (acts.map .api) net).1 acts' tail := by
  obtain ⟨⟨tail,hcalls,hform,hrel,hack⟩,hbts⟩ := @abisNmRcvmsg_leaves net b' r (acts.map .api)
  have hrun : ∀ acts', (∀ a ∈ acts', a ∈ acts) →
      Running b (abisNmRcvmsg b' r (acts.map .api) net).1 acts' tail := by
    intro acts' hacts
    by_cases hb : b = b'
    · subst hb
      have hexp := hexp rfl
      have hb : (abisNmRcvmsg b r (acts.map .api) net).1.bts b = (net.bts b).receive r := by
        rw [hbts,Net.updBts_self]
      have hquiet : r.releases (net.bts b).type net.sw.state = true → awaiting (net.bts b).traffic = none →
          Quiet b (abisNmRcvmsg b r (acts.map .api) net).1.sw acts' tail := by
        intro hr ha
        have hasks := hexp.idle ha hr
        simp only [Rx.asks,Bool.or_eq_false_iff,List.any_eq_false] at hasks
        refine ⟨fun a ha => by simpa using hasks.1 a (hacts a ha),?_⟩
        intro b0 hb0
        obtain ⟨⟨hm,hmt⟩,hsw⟩ := hack b0 hb0
        rw [hsw]
        simpa [hm,hmt] using hasks.2
      refine ⟨hb ▸ hs.receive r,hform,?_,?_⟩
      · intro hno
        have hr : r.releases (net.bts b).type net.sw.state = false := by
          cases h : r.releases (net.bts b).type net.sw.state with
          | false => rfl
          | true => exact absurd ((hrel b).mpr ⟨h,rfl⟩) hno
        rw [hb,Bts.Synced,awaiting_receive]
        cases ha : awaiting (net.bts b).traffic with
        | none =>
          rw [Bts.Synced,ha] at hsync
          simpa [await,Bts.receive] using hsync
        | some m =>
          have hans := hexp.pending m ha
          rw [Bts.Synced,ha] at hsync
          simpa [await,Bts.receive,← hans,hr] using hsync
      · intro hyes
        have hr := ((hrel b).mp hyes).1
        rw [hb,Bts.Answered,awaiting_receive]
        cases ha : awaiting (net.bts b).traffic with
        | none => exact ⟨by simp [await],fun _ => hquiet hr ha⟩
        | some m =>
          have hans := hexp.pending m ha
          rw [Bts.Synced,ha] at hsync
          refine ⟨by simp [await,← hans,hr],fun hp => ?_⟩
          rw [show ((net.bts b).receive r).abisNmPend = (net.bts b).abisNmPend from rfl,hsync] at hp
          cases hp
    · have hsame : (abisNmRcvmsg b' r (acts.map .api) net).1.bts b = net.bts b := by
        rw [hbts,Net.updBts_ne _ hb]
      have hno : ¬ Releasing b tail := fun h => hb ((hrel b).mp h).2
      exact ⟨hsame ▸ hs,hform,fun _ => hsame ▸ hsync,fun h => absurd h hno⟩
  rcases hcalls with hcalls | hcalls
  · exact ⟨acts,tail,hcalls,hrun acts fun _ => id⟩
  · exact ⟨[],tail,by simpa using hcalls,hrun [] (by simp)⟩

/-- What holds of BTS `b` between two calls: a message is about to be handled, or some calls
of handlers and the rest of a message are. -/
def Heeds (b : BtsId) (net : Net) (calls : List Call) : Prop :=
  (∃ b' r acts, calls = [.rcvmsg b' r acts] ∧ (net.bts b).Sound ∧ (net.bts b).Synced) ∨
    ∃ acts tail, calls = acts.map .api ++ tail ∧ Running b net acts tail

theorem Heeds.quiescent (h : Heeds b net []) : (net.bts b).Sound ∧ (net.bts b).Synced := by
  rcases h with ⟨_,_,_,h,_⟩ | ⟨acts,tail,h,hrun⟩
  · cases h
  · obtain ⟨_,rfl⟩ := List.append_eq_nil_iff.mp h.symm
    exact ⟨hrun.sound,hrun.synced (by simp [Releasing])⟩

theorem Reachable.heeds {type : BtsId → BtsType} {c : Config} (h : Reachable type (Expects b) c) :
    Heeds b c.state c.calls := by
  refine reach_invariant ?_ ?_ ?_ h
  · rintro c rfl
    refine .inr ⟨[],[],rfl,⟨⟨rfl,by simp [initial]⟩,orderly_nil⟩,.nil,fun _ => rfl,by simp [Releasing]⟩
  · intro net i hheeds _
    obtain ⟨hs,hsync⟩ := hheeds.quiescent
    cases i with
    | api a =>
      refine .inr ⟨[a],[],by simp [enter],hs,.nil,fun _ => hsync,by simp [Releasing]⟩
    | rcvmsg b' r acts => exact .inl ⟨b',r,acts,rfl,hs,hsync⟩
  · intro net call rest readFails net' new hheeds hgood he
    rcases hheeds with ⟨b',r,acts,h,hs,hsync⟩ | ⟨acts,tail,h,hrun⟩
    · cases h
      have hexp : b' = b → Expected b net r acts := by
        rintro rfl
        exact hgood r acts [] rfl
      obtain ⟨acts',tail,hcalls,hrun⟩ := running_of_rcvmsg hs hsync hexp
      rw [show abisNmRcvmsg b' r (acts.map .api) net = (net',new) from Except.ok.inj he] at hcalls hrun
      exact .inr ⟨acts',tail,by simpa using hcalls,hrun⟩
    · cases acts with
      | nil =>
        obtain rfl : call :: rest = tail := h
        exact .inr ⟨[],_,rfl,hrun.step he⟩
      | cons a acts =>
        cases h
        cases he
        exact .inr ⟨acts,tail,rfl,hrun.api⟩

/-- In a run in which BTS `b` sends only what is expected, its messages are transmitted once
and in order, each that needs an answer holds back the next one until its own answer comes,
and no longer. -/
theorem abisNmQueue_disciplined {type : BtsId → BtsType} {c : Config}
    (h : Reachable type (Expects b) c) :
    sent (c.state.bts b).traffic ++ (c.state.bts b).abisQueue = (c.state.bts b).submitted ∧
    (∀ pre m mid m' post, (c.state.bts b).traffic = pre ++ Traffic.tx m :: (mid ++ Traffic.tx m' :: post) →
      m.wAck = true → ∃ r, .rx r ∈ mid ∧ r.answers m = true) ∧
    (c.Quiescent → (c.state.bts b).abisQueue ≠ [] →
      ∃ pre m mid, (c.state.bts b).traffic = pre ++ Traffic.tx m :: mid ∧ m.wAck = true ∧
        ∀ r, .rx r ∈ mid → r.answers m = false) := by
  have hheeds := h.heeds
  have hsound : (c.state.bts b).Sound := by
    rcases hheeds with ⟨_,_,_,_,hs,_⟩ | ⟨_,_,_,hrun⟩
    · exact hs
    · exact hrun.sound
  refine ⟨hsound.order,?_,?_⟩
  · intro pre m mid m' post ht hm
    exact (ht ▸ hsound.orderly).answered hm
  · intro hq hne
    obtain ⟨net,calls⟩ := c
    obtain rfl : calls = [] := hq
    have hsync := hheeds.quiescent.2
    rw [Bts.Synced,hsound.queue hne] at hsync
    obtain ⟨m,ha⟩ := Option.isSome_iff_exists.mp hsync.symm
    obtain ⟨hm,pre,mid,ht,hmid⟩ := awaiting_eq_some ha
    exact ⟨pre,m,mid,ht,hm,hmid⟩

end Run

section Examples

/-- NM_MT_OPSTART for the radio carrier. -/
def opstart : Msg := ⟨false,⟨2,0,0,0xff⟩,.request 0x74,[],true⟩

/-- NM_MT_SW_ACT_REQ of the radio carrier is received: `abis_nm_rx_sw_act_req` acknowledges it
and activates the software. -/
def swActReq : Input :=
  .rcvmsg 0 ⟨false,⟨2,0,0,0xff⟩,.request 0x0a⟩
    [.sendmsgDirect 0 ⟨false,⟨2,0,0,0xff⟩,.ack 0x0a,[],false⟩,
      .sendmsg 0 ⟨false,⟨2,0,0,0xff⟩,.activateSw,[],true⟩]

def opstartAndLock : List Input :=
  [.api (.sendmsg 0 opstart),.api (.sendmsg 0 { opstart with mt := .request 0x69 }),
    .rcvmsg 0 ⟨false,⟨2,0,0,0xff⟩,.ack 0x74⟩ []]

theorem opstartAndLock_run : ∃ c, run (step exec enter) (initial fun _ => .nanobts)
      (moves 3 opstartAndLock) = .ok c ∧
    GoodRun (step exec enter) (Expects 0) (initial fun _ => .nanobts) (moves 3 opstartAndLock) ∧
    (c.state.bts 0).traffic = [.tx opstart,.rx ⟨false,⟨2,0,0,0xff⟩,.ack 0x74⟩,
      .tx { opstart with mt := .request 0x69 }] ∧ c.Quiescent := by
  decide +kernel

/-- The second message waits for the ACK of the first. -/
theorem abisNmQueue_disciplined_opstart : ∃ c, Reachable (fun _ => .nanobts) (Expects 0) c ∧
    (c.state.bts 0).traffic = [.tx opstart,.rx ⟨false,⟨2,0,0,0xff⟩,.ack 0x74⟩,
      .tx { opstart with mt := .request 0x69 }] ∧
    (sent (c.state.bts 0).traffic ++ (c.state.bts 0).abisQueue = (c.state.bts 0).submitted ∧
    (∀ pre m mid m' post, (c.state.bts 0).traffic = pre ++ Traffic.tx m :: (mid ++ Traffic.tx m' :: post) →
      m.wAck = true → ∃ r, .rx r ∈ mid ∧ r.answers m = true) ∧
    (c.Quiescent → (c.state.bts 0).abisQueue ≠ [] →
      ∃ pre m mid, (c.state.bts 0).traffic = pre ++ Traffic.tx m :: mid ∧ m.wAck = true ∧
        ∀ r, .rx r ∈ mid → r.answers m = false)) := by
  obtain ⟨c,hrun,hgood,ht,_⟩ := opstartAndLock_run
  have hreach : Reachable (fun _ => .nanobts) (Expects 0) c := Reach.of_run (.start rfl) hgood hrun
  exact ⟨c,hreach,ht,abisNmQueue_disciplined hreach⟩

theorem swActReq_run : ∃ c, run (step exec enter) (initial fun _ => .nanobts)
      (moves 4 [swActReq,.api (.sendmsg 0 opstart)]) = .ok c ∧
    (c.state.bts 0).traffic = [.rx ⟨false,⟨2,0,0,0xff⟩,.request 0x0a⟩,
      .tx ⟨false,⟨2,0,0,0xff⟩,.ack 0x0a,[],false⟩,.tx ⟨false,⟨2,0,0,0xff⟩,.activateSw,[],true⟩,
      .tx opstart] := by
  decide +kernel

/-- After a request of the BTS the activation of its software does not hold back the next
message. -/
theorem abisNmQueue_released : ∃ c, Reachable (fun _ => .nanobts) (fun _ _ => True) c ∧
    ¬ ∀ pre m mid m' post, (c.state.bts 0).traffic = pre ++ Traffic.tx m :: (mid ++ Traffic.tx m' :: post) →
      m.wAck = true → ∃ r, .rx r ∈ mid ∧ r.answers m = true := by
  obtain ⟨c,hrun,ht⟩ := swActReq_run
  refine ⟨c,Reach.of_run (.start rfl) (.of_forall (fun _ _ => trivial) _ _) hrun,?_⟩
  intro h
  obtain ⟨r,hr,_⟩ := h [.rx ⟨false,⟨2,0,0,0xff⟩,.request 0x0a⟩,.tx ⟨false,⟨2,0,0,0xff⟩,.ack 0x0a,[],false⟩]
    ⟨false,⟨2,0,0,0xff⟩,.activateSw,[],true⟩ [] opstart [] ht rfl
  simp at hr

end Examples

end OsmoBsc.Nm
