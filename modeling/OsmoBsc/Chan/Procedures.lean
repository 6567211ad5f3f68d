import OsmoBsc.Chan.ConnFrame
set_option autoImplicit false

namespace OsmoBsc.Chan
open EventFsm

/-- What a call that is still to be made says about the procedures of its connection. -/
inductive Mark where
  | fresh
  | assign
  | assigned
  | hoStart
  | hoEnd
  | flush
  | hoRelease
  | reset
  | cleanup
  | ending
  | free
  deriving DecidableEq, Repr

def Call.mark : Call → Option (ConnId × Mark)
  | .connDispatch c ev => match ev with
    | .aConnReq | .aConnInd .. => some (c,.fresh)
    | .assignmentEnd => some (c,.assigned)
    | .handoverEnd _ => some (c,.hoEnd)
    | _ => none
  | .handoverStartInterBscIn c .. => some (c,.fresh)
  | .assignmentStart c .. => some (c,.assign)
  | .handoverStart c .. | .handoverStartReset c .. => some (c,.hoStart)
  | .gsconDtapQueueFlush c => some (c,.flush)
  | .handoverEndRelease c | .handoverEndRest c => some (c,.hoRelease)
  | .assignmentReset c => some (c,.reset)
  | .assignmentCleanupRest c parent => some (c,if parent then .ending else .cleanup)
  | .assignmentTerm c parent => if parent then some (c,.ending) else none
  | .gsconTermChildren c => some (c,.ending)
  | .gsconCleanup c => some (c,.free)
  | _ => none

def Mark.passing : Mark → Bool
  | .fresh | .assign | .assigned | .hoStart | .hoEnd | .flush => true
  | _ => false

/-- The mark of a call that comes later: the end of a handover releases the new
lchan, the end of a connection frees it. -/
def Mark.before : Mark → Option Mark
  | .hoEnd => some .hoRelease
  | .ending => some .free
  | _ => none

/-- The calls that start a procedure or a connection. -/
def Call.opening : Call → Bool
  | .connDispatch _ ev => match ev with
    | .aConnReq | .aConnInd .. | .assignmentStart .. | .handoverStart .. => true
    | _ => false
  | .handoverStartInterBscIn .. | .assignmentStart .. | .handoverStart .. | .handoverStartReset ..
  | .bssmapHandleAssignmReq .. | .gsm0408Rcvmsg .. | .sccpNConnect .. => true
  | _ => false

def Pends (calls : List Call) (c : ConnId) (m : Mark) : Prop :=
  ∃ call ∈ calls, call.mark = some (c,m)

def Settled (calls : List Call) : Prop :=
  ∀ call ∈ calls, ∀ c m, call.mark = some (c,m) → m.passing = false

/-- The order of the calls: what starts something is the last one, and what has to
come later does. -/
def Staged : List Call → Prop
  | [] => True
  | call :: rest => (call.opening = true → rest = [])
      ∧ (∀ c m m', call.mark = some (c,m) → m.before = some m' → Pends rest c m')
      ∧ Settled rest ∧ Staged rest

def Call.plain (call : Call) : Prop := call.mark = none ∧ call.opening = false

section Staged

variable {head call : Call} {new rest calls : List Call} {c : ConnId} {m : Mark}

@[simp] theorem pends_nil : ¬ Pends [] c m := by simp [Pends]

@[simp] theorem pends_cons : Pends (call :: calls) c m ↔ call.mark = some (c,m) ∨ Pends calls c m := by
  simp [Pends]

@[simp] theorem pends_append : Pends (new ++ calls) c m ↔ Pends new c m ∨ Pends calls c m := by
  simp only [Pends,List.mem_append]
  constructor
  · rintro ⟨call,h | h,hm⟩
    · exact .inl ⟨call,h,hm⟩
    · exact .inr ⟨call,h,hm⟩
  · rintro (⟨call,h,hm⟩ | ⟨call,h,hm⟩)
    · exact ⟨call,.inl h,hm⟩
    · exact ⟨call,.inr h,hm⟩

theorem not_pends_of_plain (h : ∀ call ∈ new, call.plain) : ¬ Pends new c m := by
  rintro ⟨call,hcall,hm⟩
  rw [(h call hcall).1] at hm
  cases hm

theorem Staged.cons (h : Staged rest) (hset : Settled rest) (ho : call.opening = true → rest = [])
    (hb : ∀ c m m', call.mark = some (c,m) → m.before = some m' → Pends rest c m') :
    Staged (call :: rest) := ⟨ho,hb,hset,h⟩

theorem Staged.plain (h : Staged rest) (hset : Settled rest) (hnew : ∀ call ∈ new, call.plain) :
    Settled (new ++ rest) ∧ Staged (new ++ rest) := by
  induction new with
  | nil => exact ⟨hset,h⟩
  | cons call new ih =>
    obtain ⟨hset',h'⟩ := ih fun call' hcall => hnew call' (List.mem_cons_of_mem _ hcall)
    obtain ⟨hmark,hopen⟩ := hnew call (List.mem_cons_self ..)
    constructor
    · intro call' hcall c m hm
      rcases List.mem_cons.mp hcall with rfl | hcall
      · rw [hmark] at hm
        cases hm
      · exact hset' call' hcall c m hm
    · refine Staged.cons h' hset' (fun ho => ?_) fun c m m' hm => ?_
      · rw [hopen] at ho
        cases ho
      · rw [hmark] at hm
        cases hm

end Staged

/-- Going through the calls, an `assignment_reset` comes before the end of an
assignment FSM. -/
def ResetFirst (c : ConnId) : List Call → Prop
  | [] => True
  | call :: rest => call.mark = some (c,.reset) ∨ call.mark ≠ some (c,.cleanup) ∧ ResetFirst c rest

/-- The mark of the next call, if it is always the next one and about connection `c`. -/
def nextMark (c : ConnId) : List Call → Option Mark
  | [] => none
  | call :: _ => match call.mark with
    | some (c',m) => if c' = c ∧ m.passing = true then some m else none
    | none => none

/-- What a connection has of its procedures. `n` is the mark of the next call, `R`
says that a handover which ends is still to release its new lchan, and `G` that the
new lchan of an assignment is released before its FSM ends. -/
structure Exclusive (k : Conn) (n : Option Mark) (R G : Prop) : Prop where
  init : k.fi = .init → k.assignmentFi = none
  waitCc : k.fi = .waitCc → k.assignmentFi = none ∧ k.hoFi = none
  active : k.fi = .active → k.assignmentFi = none ∧ (k.hoFi = none ∨ R)
  assignment : k.fi = .assignment → k.hoFi = none
    ∧ (k.assignmentFi ≠ none ∨ n = some .assign ∨ n = some .assigned)
  handover : k.fi = .handover → k.assignmentFi = none ∧ (k.hoFi ≠ none ∨ n = some .hoStart)
  assignmentNew : k.assignmentFi = none → k.assignmentNewLchan = none
  hoNew : k.hoFi = none → k.hoNewLchan = none
  guarded : k.assignmentNewLchan = none ∨ G
  released : R → k.fi = .handover → n = some .hoEnd
  assigned : n = some .assigned → k.assignmentFi = none
  flush : n = some .flush → k.fi = .active
  assign : n = some .assign → k.fi = .assignment ∧ k.assignmentFi = none
  hoStart : n = some .hoStart → k.fi = .handover ∧ k.hoFi = none
  fresh : n = some .fresh → k.fi = .init ∧ k.hoFi = none

structure Conn.Loses (k k' : Conn) : Prop where
  fi : k'.fi = k.fi
  assignmentFi : k'.assignmentFi.isSome = k.assignmentFi.isSome
  hoFi : k'.hoFi.isSome = k.hoFi.isSome
  assignmentNewLchan : k.assignmentNewLchan = none → k'.assignmentNewLchan = none
  hoNewLchan : k.hoNewLchan = none → k'.hoNewLchan = none

section Loses

variable {k k' k'' : Conn}

theorem Conn.Loses.refl (k : Conn) : k.Loses k := ⟨rfl,rfl,rfl,id,id⟩

theorem Conn.Loses.trans (h : k.Loses k') (h' : k'.Loses k'') : k.Loses k'' :=
  ⟨h'.fi.trans h.fi,h'.assignmentFi.trans h.assignmentFi,h'.hoFi.trans h.hoFi,
    h'.assignmentNewLchan ∘ h.assignmentNewLchan,h'.hoNewLchan ∘ h.hoNewLchan⟩

theorem Conn.Loses.of_core (h : k'.core = k.core) : k.Loses k' := by
  have hfi := congrArg Conn.fi h
  have ha := congrArg Conn.assignmentFi h
  have hh := congrArg Conn.hoFi h
  have hal := congrArg Conn.assignmentNewLchan h
  have hhl := congrArg Conn.hoNewLchan h
  dsimp only at hfi ha hh hal hhl
  exact ⟨hfi,by rw [ha],by rw [hh],fun hn => hal.trans hn,fun hn => hhl.trans hn⟩

theorem Conn.Loses.forget (k : Conn) (l : LchanId) : k.Loses (k.forgetLchan l) := by
  refine ⟨rfl,rfl,rfl,fun h => ?_,fun h => ?_⟩
  · simp [Conn.forgetLchan,h]
  · simp [Conn.forgetLchan,h]

theorem Conn.Loses.assignmentFi_none (h : k.Loses k') : k'.assignmentFi = none ↔ k.assignmentFi = none := by
  have := h.assignmentFi
  cases hk : k.assignmentFi <;> cases hk' : k'.assignmentFi <;> simp_all

theorem Conn.Loses.hoFi_none (h : k.Loses k') : k'.hoFi = none ↔ k.hoFi = none := by
  have := h.hoFi
  cases hk : k.hoFi <;> cases hk' : k'.hoFi <;> simp_all

theorem Exclusive.loses {n : Option Mark} {R R' G G' : Prop} (h : Exclusive k n R G)
    (hk : k.Loses k') (hrel : R ↔ R') (hguard : k'.assignmentNewLchan = none ∨ G') :
    Exclusive k' n R' G' := by
  have hfi := hk.fi
  have ha := hk.assignmentFi_none
  have hh := hk.hoFi_none
  have han := hk.assignmentNewLchan
  have hhn := hk.hoNewLchan
  obtain ⟨h1,h2,h3,h4,h5,h6,h7,h8,h9,h10,h11,h12,h13,h14⟩ := h
  constructor
  all_goals grind

end Loses

/-- The connections of `w'` are those of `w`, which may have lost new lchans. -/
def Loses (w w' : Bsc) : Prop :=
  ∀ c k', w'.conn c = some k' → ∃ k, w.conn c = some k ∧ k.Loses k'

section Frame

variable {w w1 w2 : Bsc} {c : ConnId}

theorem Loses.of_conn (h : w1.conn = w.conn) : Loses w w1 := by
  intro c k' hk
  rw [h] at hk
  exact ⟨k',hk,.refl k'⟩

theorem Loses.refl (w : Bsc) : Loses w w := .of_conn rfl

theorem Loses.trans (h : Loses w w1) (h' : Loses w1 w2) : Loses w w2 := by
  intro c k2 h2
  obtain ⟨k1,h1,hl1⟩ := h' c k2 h2
  obtain ⟨k,hk,hl⟩ := h c k1 h1
  exact ⟨k,hk,hl.trans hl1⟩

theorem Bsc.updConn_self (w : Bsc) (c : ConnId) (f : Conn → Conn) :
    (w.updConn c f).conn c = (w.conn c).map f := by
  simp [Bsc.updConn]

theorem Bsc.updConn_ne (w : Bsc) {c c' : ConnId} (f : Conn → Conn) (h : c' ≠ c) :
    (w.updConn c f).conn c' = w.conn c' := by
  simp [Bsc.updConn,h]

theorem Loses.updConn {f : Conn → Conn} (h : Loses w w1) (hf : ∀ k : Conn, k.Loses (f k)) :
    Loses w (w1.updConn c f) := by
  refine h.trans fun c' k' hk => ?_
  rcases eq_or_ne c' c with rfl | hne
  · rw [Bsc.updConn_self] at hk
    obtain ⟨k,hk1,rfl⟩ := Option.map_eq_some_iff.mp hk
    exact ⟨k,hk1,hf k⟩
  · rw [Bsc.updConn_ne _ _ hne] at hk
    exact ⟨k',hk,.refl k'⟩

theorem Loses.of_mscView (h : w1.mscView = w.mscView) : Loses w w1 := by
  intro c k' hk
  have hc := congrFun (congrArg Prod.fst h) c
  simp only [Bsc.mscView,hk,Option.map_some] at hc
  cases hk0 : w.conn c with
  | none => simp [hk0] at hc
  | some k =>
    simp only [hk0,Option.map_some,Option.some.injEq] at hc
    exact ⟨k,rfl,.of_core hc⟩

theorem gsconForgetLchan_loses {l : LchanId} (h : gsconForgetLchan c l w = .ok w1) : Loses w w1 := by
  obtain ⟨k,hk,-⟩ := bind_eq_ok.mp h
  simp only [Bsc.getConn] at hk
  split at hk
  · rename_i k0 hk0
    rw [gsconForgetLchan_eq l hk0] at h
    cases h
    have hf : Loses w (w.updConn c (·.forgetLchan l)) := (Loses.refl w).updConn fun k => .forget k l
    split
    · exact hf.trans (.of_conn rfl)
    · exact hf
  · cases hk

theorem Detached.loses (h : Detached w w1) : Loses w w1 := by
  rcases h with h | ⟨c,l,w2,hf,h⟩
  · exact .of_mscView h
  · exact (gsconForgetLchan_loses hf).trans (.of_mscView h)

end Frame

structure Procedures (w : Bsc) (calls : List Call) : Prop where
  staged : Staged calls
  exclusive : ∀ c k, w.conn c = some k → ¬ Pends calls c .free →
    Exclusive k (nextMark c calls) (Pends calls c .hoRelease) (ResetFirst c calls)

section Step

variable {w w' : Bsc} {head : Call} {new rest : List Call} {c : ConnId}

theorem ResetFirst.append {calls : List Call} (h : ResetFirst c calls)
    (hnew : ¬ Pends new c .cleanup) : ResetFirst c (new ++ calls) := by
  induction new with
  | nil => exact h
  | cons call new ih =>
    simp only [pends_cons,not_or] at hnew
    exact .inr ⟨hnew.1,ih hnew.2⟩

theorem ResetFirst.tail (h : ResetFirst c (head :: rest)) (hhead : head.mark ≠ some (c,.reset)) :
    ResetFirst c rest := (h.resolve_left hhead).2

theorem Settled.nextMark {calls : List Call} (h : Settled calls) (c : ConnId) :
    Chan.nextMark c calls = none := by
  cases calls with
  | nil => rfl
  | cons call calls =>
    dsimp only [Chan.nextMark]
    split
    · rename_i c' m hm
      rw [if_neg]
      rintro ⟨-,hp⟩
      rw [h call (List.mem_cons_self ..) c' m hm] at hp
      cases hp
    · rfl

theorem nextMark_waits {call : Call} {calls : List Call}
    (h : ∀ m, call.mark = some (c,m) → m.passing = false) : nextMark c (call :: calls) = none := by
  dsimp only [nextMark]
  split
  · rename_i c' m hm
    rw [if_neg]
    rintro ⟨rfl,hp⟩
    rw [h m hm] at hp
    cases hp
  · rfl

theorem nextMark_none {call : Call} {calls : List Call} (h : ∀ m, call.mark ≠ some (c,m)) :
    nextMark c (call :: calls) = none := nextMark_waits fun m hm => absurd hm (h m)

theorem nextMark_append (hset : Settled rest) (h : ∀ m, ¬ Pends new c m) :
    nextMark c (new ++ rest) = none := by
  cases new with
  | nil => exact hset.nextMark c
  | cons call new => exact nextMark_none fun m hm => h m ⟨call,List.mem_cons_self ..,hm⟩

theorem Procedures.at (h : Procedures w (head :: rest)) (c : ConnId) (hst : Staged (new ++ rest))
    (hmark : ∀ c', c' ≠ c → ∀ m, head.mark ≠ some (c',m) ∧ ¬ Pends new c' m)
    (hother : ∀ c', c' ≠ c → ∀ k', w'.conn c' = some k' → ∃ k, w.conn c' = some k ∧ k.Loses k')
    (hc : ∀ k', w'.conn c = some k' → ¬ Pends (new ++ rest) c .free →
      Exclusive k' (nextMark c (new ++ rest)) (Pends (new ++ rest) c .hoRelease)
        (ResetFirst c (new ++ rest))) :
    Procedures w' (new ++ rest) := by
  refine ⟨hst,fun c' k' hk' hfree => ?_⟩
  rcases eq_or_ne c' c with rfl | hne
  · exact hc k' hk' hfree
  · obtain ⟨k,hk,hl⟩ := hother c' hne k' hk'
    have heq : ∀ m, Pends (head :: rest) c' m ↔ Pends (new ++ rest) c' m := by
      intro m
      simp only [pends_append,pends_cons,(hmark c' hne m).1,(hmark c' hne m).2]
    have he := h.exclusive c' k hk (by rwa [heq])
    rw [nextMark_none fun m => (hmark c' hne m).1] at he
    rw [nextMark_append h.staged.2.2.1 fun m => (hmark c' hne m).2]
    refine he.loses hl (heq _) ?_
    rcases he.guarded with hn | hg
    · exact .inl (hl.assignmentNewLchan hn)
    · exact .inr ((hg.tail (hmark c' hne _).1).append (hmark c' hne _).2)

theorem Procedures.plain (h : Procedures w (head :: rest)) (hhead : head.mark = none)
    (hnew : ∀ call ∈ new, call.plain) (hl : Loses w w') : Procedures w' (new ++ rest) := by
  have hno : ∀ c m, ¬ Pends new c m := fun c m => not_pends_of_plain hnew
  have heq : ∀ c m, Pends (head :: rest) c m ↔ Pends (new ++ rest) c m := by
    intro c m
    simp [hno c m,hhead]
  refine ⟨(Staged.plain h.staged.2.2.2 h.staged.2.2.1 hnew).2,fun c k' hk' hfree => ?_⟩
  obtain ⟨k,hk,hlk⟩ := hl c k' hk'
  have he := h.exclusive c k hk (by rwa [heq])
  rw [nextMark_none fun m => by simp [hhead]] at he
  rw [nextMark_append h.staged.2.2.1 (hno c)]
  refine he.loses hlk (heq c _) ?_
  rcases he.guarded with hn | hg
  · exact .inl (hlk.assignmentNewLchan hn)
  · exact .inr ((hg.tail (by simp [hhead])).append (hno c _))

theorem Call.fromLchan_plain {call : Call} (h : call.fromLchan = true) : call.plain := by
  cases call <;> first | exact ⟨rfl,rfl⟩ | cases h

theorem Procedures.lchanSide {cfg : TsId → TsCfg} {x : Foreign} (h : Procedures w (head :: rest))
    (hhead : head.lchanSide = true) (he : exec cfg head x w = .ok (w',new)) :
    Procedures w' (new ++ rest) := by
  have hs := exec_lchanStep cfg x w hhead _ he
  refine h.plain ?_ (fun call hcall => Call.fromLchan_plain (List.all_eq_true.mp hs.calls call hcall))
    hs.state.loses
  cases head <;> first | rfl | cases hhead

end Step

/-- A call that changes no procedure and makes only calls that matter to none. -/
structure PlainStep (w : Bsc) (r : Bsc × List Call) : Prop where
  loses : Loses w r.1
  calls : ∀ call ∈ r.2, call.plain

section Plain

variable (x : Foreign) (c : ConnId) (l : LchanId) (w : Bsc)

theorem PlainStep.nil {w w' : Bsc} (h : Loses w w') : PlainStep w (w',[]) := ⟨h,by simp⟩

theorem PlainStep.one {w w' : Bsc} {call : Call} (h : Loses w w') (hc : call.plain) :
    PlainStep w (w',[call]) := ⟨h,by simpa using hc⟩

theorem PlainStep.two {w w' : Bsc} {call call' : Call} (h : Loses w w') (hc : call.plain)
    (hc' : call'.plain) : PlainStep w (w',[call,call']) := by
  refine ⟨h,fun a ha => ?_⟩
  simp only [List.mem_cons,List.not_mem_nil,or_false] at ha
  rcases ha with rfl | rfl
  · exact hc
  · exact hc'

theorem PlainStep.after {w w1 : Bsc} {r : Bsc × List Call} (h : Loses w w1) (hr : PlainStep w1 r) :
    PlainStep w r := ⟨h.trans hr.loses,hr.calls⟩

theorem onAssignmentFailure_plain (k : Conn) : PlainStep w (onAssignmentFailure c k w) := by
  unfold onAssignmentFailure
  split
  · exact .one (.of_conn rfl) ⟨rfl,rfl⟩
  · exact .nil (.of_conn rfl)

theorem sendAssignmentComplete_plain : Ensures (PlainStep w) (sendAssignmentComplete x c w) := by
  refine Ensures.bind fun k _ => ?_
  split
  · exact ensures_error
  · split
    · exact ensures_ok.mpr (onAssignmentFailure_plain c w k)
    · exact ensures_ok.mpr (.nil (.of_conn rfl))

theorem gsconConnectMgwToMsc_loses {k : Conn} {r : Option Ci × Bsc}
    (h : gsconConnectMgwToMsc x c k w = some r) : Loses w r.2 := by
  unfold gsconConnectMgwToMsc at h
  split at h
  · split at h
    · cases h
    · cases h
      dsimp only
      split
      · exact .refl w
      · exact .of_conn rfl
  · split at h
    · cases h
    · cases h
      have hu : Loses w (w.updConn c ({ · with mgwEndpoint := true, mgwEndpointCiMsc := some ⟨c,w.nextCi⟩ })) :=
        (Loses.refl w).updConn fun k => ⟨rfl,rfl,rfl,id,id⟩
      exact hu.trans (.of_conn rfl)

theorem assignmentOnenter_plain (k : Conn) (st : AssignmentState) :
    Ensures (PlainStep w) (assignmentOnenter x c k st w) := by
  cases st with
  | waitLchanActive => exact ensures_ok.mpr (.nil (.refl w))
  | waitRrAssComplete =>
    unfold assignmentOnenter
    dsimp only
    repeat' split
    · exact ensures_ok.mpr (onAssignmentFailure_plain c w k)
    · exact ensures_ok.mpr (.nil (.refl w))
    · exact ensures_error
  | waitLchanEstablished =>
    unfold assignmentOnenter assignmentPostLchanEstablished
    dsimp only
    repeat' split
    · exact ensures_error
    · exact ensures_ok.mpr (.one (.refl w) ⟨rfl,rfl⟩)
    · exact ensures_ok.mpr (.one (.refl w) ⟨rfl,rfl⟩)
    · exact ensures_ok.mpr (.nil (.refl w))
  | waitMgwEndpointToMsc =>
    unfold assignmentOnenter assignmentWaitMgwEndpointToMscOnenter
    dsimp only
    repeat' split
    · exact ensures_error
    · exact ensures_ok.mpr (.one ((Loses.refl w).updConn fun k => ⟨rfl,rfl,rfl,id,id⟩) ⟨rfl,rfl⟩)
    · exact ensures_error
    · exact ensures_ok.mpr (onAssignmentFailure_plain c w k)
    · rename_i h
      exact ensures_ok.mpr (.nil ((gsconConnectMgwToMsc_loses x c w h).updConn fun k =>
        ⟨rfl,rfl,rfl,id,id⟩))

theorem Loses.assignmentFi {k : Conn} (hk : w.conn c = some k) (hfi : k.assignmentFi.isSome)
    (st : AssignmentState) : Loses w (w.updConn c ({ · with assignmentFi := some st })) := by
  intro c' k' hk'
  rcases eq_or_ne c' c with rfl | hne
  · rw [Bsc.updConn_self,hk] at hk'
    cases hk'
    exact ⟨k,hk,rfl,by simp [hfi],rfl,id,id⟩
  · rw [Bsc.updConn_ne _ _ hne] at hk'
    exact ⟨k',hk',.refl k'⟩

theorem Loses.hoFi {k : Conn} (hk : w.conn c = some k) (hfi : k.hoFi.isSome) (st : HoState) :
    Loses w (w.updConn c ({ · with hoFi := some st })) := by
  intro c' k' hk'
  rcases eq_or_ne c' c with rfl | hne
  · rw [Bsc.updConn_self,hk] at hk'
    cases hk'
    exact ⟨k,hk,rfl,rfl,by simp [hfi],id,id⟩
  · rw [Bsc.updConn_ne _ _ hne] at hk'
    exact ⟨k',hk',.refl k'⟩

theorem getConn_eq {w : Bsc} {c : ConnId} {k : Conn} (h : w.getConn c = .ok k) : w.conn c = some k := by
  unfold Bsc.getConn at h
  split at h
  · cases h
    assumption
  · cases h

theorem assignmentStateChg_plain (st : AssignmentState) :
    Ensures (PlainStep w) (assignmentStateChg x c st w) := by
  refine Ensures.bind fun k hk => ?_
  split
  · exact ensures_error
  · rename_i st' hst
    split
    · exact (assignmentOnenter_plain x c _ _ st).mono fun r =>
        .after (.assignmentFi c w (getConn_eq hk) (by simp [hst]) st)
    · exact ensures_ok.mpr (.nil (.refl w))

theorem assignmentDispatch_plain (ev : AssignmentEvent) :
    Ensures (PlainStep w) (assignmentDispatch x c ev w) := by
  refine Ensures.bind fun k _ => ?_
  split
  · exact ensures_ok.mpr (.nil (.refl w))
  · split
    · unfold assignmentAllstate
      repeat' split
      · exact ensures_ok.mpr (.one (.refl w) ⟨rfl,rfl⟩)
      · exact ensures_ok.mpr (.nil (.refl w))
      · exact ensures_ok.mpr (onAssignmentFailure_plain c w k)
      · exact ensures_ok.mpr (.nil (.refl w))
    · unfold assignmentAction assignmentPostLchanEstablished
      repeat' split
      all_goals
        first
        | exact ensures_error
        | exact assignmentStateChg_plain x c w _
        | exact ensures_ok.mpr (onAssignmentFailure_plain c w k)
        | exact ensures_ok.mpr (.nil (.refl w))
        | exact ensures_ok.mpr (.one (.refl w) ⟨rfl,rfl⟩)
    · exact ensures_ok.mpr (.nil (.refl w))

theorem assignmentTimeout_plain : Ensures (PlainStep w) (assignmentTimeout c w) := by
  refine Ensures.bind fun k _ => ?_
  split
  · exact ensures_ok.mpr (onAssignmentFailure_plain c w k)
  · exact ensures_ok.mpr (.nil (.refl w))

theorem assignmentStartReuseRest_plain : Ensures (PlainStep w) (assignmentStartReuseRest c w) := by
  refine Ensures.bind fun k _ => ensures_ok.mpr ?_
  split
  · exact .one (.refl w) ⟨rfl,rfl⟩
  · exact .nil (.refl w)

theorem releaseCi_loses (ci : Option Ci) : Loses w (match ci with
    | none => w
    | some ci => osmoMgcpcEpCiDlcx x ci (gsconForgetMgwEndpointCi c ci w)) := by
  split
  · exact .refl w
  · refine Loses.trans ?_ (.of_mscView (osmoMgcpcEpCiDlcx_mscView x _ _))
    exact (Loses.refl w).updConn fun k => ⟨rfl,rfl,rfl,id,id⟩

theorem assignmentResetRest_plain : Ensures (PlainStep w) (assignmentResetRest x c w) := by
  refine Ensures.bind fun k _ => ensures_ok.mpr (.nil ?_)
  exact (releaseCi_loses x c w _).updConn fun k => ⟨rfl,rfl,rfl,fun _ => rfl,id⟩

theorem assignmentSuccess_plain : Ensures (PlainStep w) (assignmentSuccess c w) :=
  Ensures.bind fun _ _ => ensures_ok.mpr (.two (.refl w) ⟨rfl,rfl⟩ ⟨rfl,rfl⟩)

theorem assignmentSuccessSend_plain : Ensures (PlainStep w) (assignmentSuccessSend x c w) := by
  refine Ensures.bind fun k _ => Ensures.bind fun r hr => ensures_ok.mpr ?_
  have h := sendAssignmentComplete_plain x c _ r hr
  have hu : Loses w (w.updConn c ({ · with assignmentNewLchan := none })) :=
    (Loses.refl w).updConn fun k => ⟨rfl,rfl,rfl,fun _ => rfl,id⟩
  refine ⟨hu.trans h.loses,?_⟩
  intro call hcall
  rcases List.mem_append.mp hcall with hcall | hcall
  · exact h.calls call hcall
  · rw [List.mem_singleton.mp hcall]
    exact ⟨rfl,rfl⟩

theorem assignmentSuccessRest_plain : Ensures (PlainStep w) (assignmentSuccessRest c w) := by
  refine Ensures.bind fun k _ => ?_
  split
  · refine ensures_ok.mpr ?_
    split
    · exact .nil (.refl w)
    · exact .one (.refl w) ⟨rfl,rfl⟩
  · exact ensures_ok.mpr (.one ((Loses.refl w).updConn fun k => ⟨rfl,rfl,rfl,id,id⟩) ⟨rfl,rfl⟩)

theorem hoOnenter_plain (k : Conn) (st : HoState) :
    Ensures (PlainStep w) (hoOnenter x c k st w) := by
  unfold hoOnenter hoWaitMgwEndpointToMscOnenter hoWaitRrHoDetectOnenter
  repeat' split
  all_goals
    first
    | exact ensures_error
    | exact ensures_ok.mpr (.nil (.refl w))
    | exact ensures_ok.mpr (.one (.refl w) ⟨rfl,rfl⟩)
    | exact ensures_ok.mpr (.one ((Loses.refl w).updConn fun k => ⟨rfl,rfl,rfl,id,id⟩) ⟨rfl,rfl⟩)
    | rename_i h
      exact ensures_ok.mpr (.nil ((gsconConnectMgwToMsc_loses x c w h).updConn fun k =>
        ⟨rfl,rfl,rfl,id,id⟩))

theorem hoStateChg_plain (st : HoState) : Ensures (PlainStep w) (hoStateChg x c st w) := by
  refine Ensures.bind fun k hk => ?_
  split
  · exact ensures_error
  · rename_i st' hst
    split
    · exact (hoOnenter_plain x c _ _ st).mono fun r =>
        .after (.hoFi c w (getConn_eq hk) (by simp [hst]) st)
    · exact ensures_ok.mpr (.nil (.refl w))

theorem hoDispatch_plain (ev : HoEvent) : Ensures (PlainStep w) (hoDispatch x c ev w) := by
  refine Ensures.bind fun k _ => ?_
  split
  · exact ensures_ok.mpr (.nil (.refl w))
  · split
    · unfold hoAllstate
      split
      all_goals
        first
        | exact ensures_error
        | exact ensures_ok.mpr (.nil (.refl w))
        | exact ensures_ok.mpr (.one (.refl w) ⟨rfl,rfl⟩)
    · unfold hoAction hoSwitchRtp
      repeat' split
      all_goals
        first
        | exact ensures_error
        | exact hoStateChg_plain x c w _
        | exact ensures_ok.mpr (.nil (.refl w))
        | exact ensures_ok.mpr (.one (.refl w) ⟨rfl,rfl⟩)
        | exact ensures_ok.mpr (.two (.refl w) ⟨rfl,rfl⟩ ⟨rfl,rfl⟩)
    · exact ensures_ok.mpr (.nil (.refl w))

theorem hoTimeout_plain : Ensures (PlainStep w) (hoTimeout c w) := by
  refine Ensures.bind fun k _ => ?_
  split
  · exact ensures_ok.mpr (.nil (.refl w))
  · exact ensures_ok.mpr (.nil (.refl w))
  · exact ensures_ok.mpr (.one (.refl w) ⟨rfl,rfl⟩)

theorem handoverEnd_plain (result : HoResult) : Ensures (PlainStep w) (handoverEnd x c result w) := by
  refine Ensures.bind fun k _ => ?_
  extract_lets result1 result2 w1
  have hw1 : Loses w w1 := by
    dsimp only [w1]
    repeat' split
    · exact .of_conn rfl
    · exact .of_conn rfl
    · exact .refl w
  clear_value w1 result2 result1
  split
  · exact ensures_ok.mpr (.one hw1 ⟨rfl,rfl⟩)
  · repeat' split
    all_goals
      first
      | exact ensures_error
      | exact ensures_ok.mpr (.one (.refl w) ⟨rfl,rfl⟩)
      | exact ensures_ok.mpr (.one (.of_conn rfl) ⟨rfl,rfl⟩)
      | exact ensures_ok.mpr (.two (.refl w) ⟨rfl,rfl⟩ ⟨rfl,rfl⟩)
  · exact ensures_ok.mpr (.one (.refl w) ⟨rfl,rfl⟩)

theorem sendHandoverPerformed_loses (k : Conn) :
    Ensures (Loses w) (sendHandoverPerformed x c k w) := by
  unfold sendHandoverPerformed
  repeat' split
  · exact ensures_error
  · exact ensures_ok.mpr (.refl w)
  · exact ensures_error
  · exact ensures_ok.mpr (.refl w)
  · exact ensures_ok.mpr (.of_conn rfl)

theorem handoverEndChange_plain (result : HoResult) :
    Ensures (PlainStep w) (handoverEndChange x c result w) := by
  refine Ensures.bind fun k _ => ?_
  split
  · dsimp only
    have hw1 : Loses w (w.updConn c ({ · with hoCreatedCiForMsc := none })) :=
      (Loses.refl w).updConn fun k => ⟨rfl,rfl,rfl,id,id⟩
    split
    · refine Ensures.bind fun w1 h1 => ensures_ok.mpr ?_
      have hl := hw1.trans (sendHandoverPerformed_loses x c _ k w1 h1)
      split
      · exact .one hl ⟨rfl,rfl⟩
      · exact .two hl ⟨rfl,rfl⟩ ⟨rfl,rfl⟩
    · refine ensures_ok.mpr ?_
      split
      · exact .one hw1 ⟨rfl,rfl⟩
      · exact .two hw1 ⟨rfl,rfl⟩ ⟨rfl,rfl⟩
  · exact ensures_ok.mpr (.one (.refl w) ⟨rfl,rfl⟩)

theorem connTimeout_plain : Ensures (PlainStep w) (connTimeout c w) := by
  refine Ensures.bind fun k _ => ?_
  split
  · exact ensures_ok.mpr (.two (.refl w) ⟨rfl,rfl⟩ ⟨rfl,rfl⟩)
  · exact ensures_ok.mpr (.one (.refl w) ⟨rfl,rfl⟩)
  · exact ensures_ok.mpr (.nil (.refl w))

theorem osmoMgcpcEpClear_loses : Loses w (osmoMgcpcEpClear c w) := by
  unfold osmoMgcpcEpClear
  repeat' split
  · exact .of_mscView (by simp [Tx.toMsc])
  · exact .refl w
  · exact .refl w

theorem connClearRest_plain : Ensures (PlainStep w) (connClearRest c w) := by
  refine Ensures.bind fun k _ => ensures_ok.mpr ?_
  have h := osmoMgcpcEpClear_loses c w
  split
  · exact .nil h
  · exact .nil (h.trans (.of_conn rfl))

theorem gsconChangePrimaryLchan_plain (new : Option LchanId) :
    Ensures (PlainStep w) (gsconChangePrimaryLchan c new w) := by
  refine Ensures.bind fun k _ => ?_
  split
  · exact ensures_error
  · rename_i l
    have hl : Loses w (w.updConn c ({ · with lchan := some l })) :=
      (Loses.refl w).updConn fun k => ⟨rfl,rfl,rfl,id,id⟩
    refine ensures_ok.mpr ⟨hl.trans (.of_conn rfl),fun call hcall => ?_⟩
    rcases List.mem_append.mp hcall with hcall | hcall
    · split at hcall
      · rw [List.mem_singleton.mp hcall]
        exact ⟨rfl,rfl⟩
      · cases hcall
    · repeat' split at hcall
      · cases hcall
      · rw [List.mem_singleton.mp hcall]
        exact ⟨rfl,rfl⟩
      · cases hcall

theorem Conn.Loses.release (k : Conn) (l : LchanId) : k.Loses (k.releaseLchan l) := by
  refine ⟨rfl,rfl,rfl,fun h => ?_,fun h => ?_⟩
  · simp [Conn.releaseLchan,h]
  · simp [Conn.releaseLchan,h]

theorem gsconReleaseLchan_plain (doRrRelease err : Bool) :
    Ensures (PlainStep w) (gsconReleaseLchan c l doRrRelease err w) := by
  refine Ensures.bind fun k _ => ensures_ok.mpr (.one ?_ ⟨rfl,rfl⟩)
  refine Loses.updConn ?_ fun k => .release k l
  split
  · exact .of_conn rfl
  · exact .refl w

theorem gsconReleasePrimary_plain (doRrRelease err : Bool) :
    Ensures (PlainStep w) (gsconReleasePrimary c doRrRelease err w) := by
  refine Ensures.bind fun k _ => ?_
  split
  · exact ensures_ok.mpr (.nil (.refl w))
  · exact gsconReleaseLchan_plain c _ w doRrRelease err

theorem gsconLchanReleasing_plain : Ensures (PlainStep w) (gsconLchanReleasing c l w) := by
  refine Ensures.bind fun k _ => ensures_ok.mpr ⟨.refl w,fun call hcall => ?_⟩
  dsimp only at hcall
  repeat' split at hcall
  all_goals
    simp only [List.cons_append,List.nil_append,List.mem_cons,List.not_mem_nil,or_false] at hcall
  · rcases hcall with rfl | rfl | rfl <;> exact ⟨rfl,rfl⟩
  · rcases hcall with rfl | rfl <;> exact ⟨rfl,rfl⟩
  · rw [hcall]
    exact ⟨rfl,rfl⟩

theorem unlessNull_forgetConn_loses (l : Option LchanId) :
    Loses w (unlessNull lchanForgetConn l w) := by
  unfold unlessNull
  split
  · exact .refl w
  · exact .of_conn rfl

theorem gsconLchanReleasingAssignment_plain :
    Ensures (PlainStep w) (gsconLchanReleasingAssignment c w) :=
  Ensures.bind fun _ _ => ensures_ok.mpr
    (.nil ((unlessNull_forgetConn_loses w _).updConn fun _ => ⟨rfl,rfl,rfl,fun _ => rfl,id⟩))

theorem gsconLchanReleasingHo_plain : Ensures (PlainStep w) (gsconLchanReleasingHo c l w) := by
  refine Ensures.bind fun k _ => ensures_ok.mpr ?_
  split
  · exact .two (.refl w) ⟨rfl,rfl⟩ ⟨rfl,rfl⟩
  · exact .one (.refl w) ⟨rfl,rfl⟩

theorem gsconSigtranSend_loses (k : Conn) (m : Tx) : Loses w (gsconSigtranSend k m w) := by
  unfold gsconSigtranSend
  split
  · exact .refl w
  · exact .of_conn rfl

theorem gsm0808SendRslDtap_loses {k : Conn} (hk : k.fi = .active) :
    Loses w (gsm0808SendRslDtap x c k w) := by
  unfold gsm0808SendRslDtap connStateChg
  rw [hk]
  split
  · exact gsconSigtranSend_loses w k _
  · exact .refl w

theorem gsconSubmitRslDtap_plain : Ensures (PlainStep w) (gsconSubmitRslDtap x c w) := by
  refine Ensures.bind fun k _ => ?_
  split
  · rename_i hk
    exact ensures_ok.mpr (.nil (gsm0808SendRslDtap_loses x c w hk))
  · split
    · exact ensures_ok.mpr (.nil (.refl w))
    · exact ensures_ok.mpr (.nil ((Loses.refl w).updConn fun k => ⟨rfl,rfl,rfl,id,id⟩))

end Plain

section Marked

variable {w w' : Bsc} {new rest : List Call} {x : Foreign} {c : ConnId}

theorem Staged.put {call : Call} (h : Staged rest) (hset : Settled rest) (ho : call.opening = false)
    (hp : ∀ c m, call.mark = some (c,m) → m.passing = false)
    (hb : ∀ c m m', call.mark = some (c,m) → m.before = some m' → Pends rest c m') :
    Staged (call :: rest) ∧ Settled (call :: rest) := by
  refine ⟨h.cons hset (fun h => ?_) hb,fun call' hcall c m hm => ?_⟩
  · rw [ho] at h
    cases h
  · rcases List.mem_cons.mp hcall with rfl | hcall
    · exact hp c m hm
    · exact hset call' hcall c m hm

theorem Procedures.below {head : Call} (h : Procedures w (head :: rest)) :
    Staged rest ∧ Settled rest := ⟨h.staged.2.2.2,h.staged.2.2.1⟩

section Concluding

attribute [local simp] Call.mark

theorem Procedures.assignmentTerm {parent : Bool}
    (h : Procedures w (.assignmentTerm c parent :: rest))
    (he : Chan.assignmentTerm c parent w = .ok (w',new)) : Procedures w' (new ++ rest) := by
  obtain ⟨k,hk,he⟩ := bind_eq_ok.mp he
  split at he
  · cases he
  · cases he
    have hb : parent = true → Pends rest c .free := by
      rintro rfl
      exact h.staged.2.1 c .ending .free rfl rfl
    have h1 : Staged (.assignmentCleanupRest c parent :: rest)
        ∧ Settled (.assignmentCleanupRest c parent :: rest) := by
      refine h.below.1.put h.below.2 rfl ?_ ?_
      · cases parent <;> simp [Mark.passing]
      · intro c' m m' hm hm'
        cases parent with
        | false =>
          cases hm
          cases hm'
        | true =>
          cases hm
          cases hm'
          exact hb rfl
    refine h.at c ((h1.1.put h1.2 rfl (by simp [Mark.passing]) ?_).1) ?_
      (fun c' _ k' hk' => ⟨k',hk',.refl k'⟩) fun k' hk' hfree => ?_
    · intro c' m m' hm hm'
      cases hm
      cases hm'
    · intro c' hne m
      cases parent <;> simp [Ne.symm hne]
    · have hp : parent = false := by
        cases parent with
        | false => rfl
        | true => exact absurd (by simp [hb rfl]) hfree
      subst hp
      have hex := h.exclusive c k' hk' (by simpa using hfree)
      rw [nextMark_waits (by simp)] at hex
      rw [List.cons_append,nextMark_waits (by simp [Mark.passing])]
      refine hex.loses (.refl k') (by simp) (.inr ?_)
      exact Or.inl rfl

theorem Procedures.assignmentCleanupRest {parent : Bool}
    (h : Procedures w (.assignmentCleanupRest c parent :: rest))
    (he : Chan.assignmentCleanupRest c parent w = .ok (w',new)) : Procedures w' (new ++ rest) := by
  obtain ⟨k,hk,he⟩ := bind_eq_ok.mp he
  have hk := getConn_eq hk
  cases he
  have hother : ∀ c', c' ≠ c → ∀ k', (w.updConn c ({ · with assignmentFi := none })).conn c' = some k' →
      ∃ k, w.conn c' = some k ∧ k.Loses k' := by
    intro c' hne k' hk'
    rw [Bsc.updConn_ne _ _ hne] at hk'
    exact ⟨k',hk',.refl k'⟩
  cases parent with
  | true =>
    have hb : Pends rest c .free := h.staged.2.1 c .ending .free rfl rfl
    refine h.at c h.below.1 ?_ hother fun k' hk' hfree => absurd hb hfree
    intro c' hne m
    simp [Ne.symm hne]
  | false =>
    refine h.at c (h.below.1.cons h.below.2 (by simp [Call.opening]) ?_) ?_ hother
      fun k' hk' hfree => ?_
    · intro c' m m' hm hm'
      cases hm
      cases hm'
    · intro c' hne m
      simp [Ne.symm hne]
    · have hex := h.exclusive c k hk (by simpa using hfree)
      have hnew : k.assignmentNewLchan = none := by
        rcases hex.guarded with hn | hg | hg
        · exact hn
        · cases hg
        · exact absurd rfl hg.1
      rw [Bsc.updConn_self,hk] at hk'
      cases hk'
      simp [nextMark,Mark.passing] at hex ⊢
      obtain ⟨h1,h2,h3,h4,h5,h6,h7,h8,h9,h10,h11,h12,h13,h14⟩ := hex
      constructor
      all_goals grind

theorem Procedures.assignmentReset (h : Procedures w (.assignmentReset c :: rest))
    (he : Chan.assignmentReset c w = .ok (w',new)) : Procedures w' (new ++ rest) := by
  obtain ⟨k,hk,he⟩ := bind_eq_ok.mp he
  have hk := getConn_eq hk
  have hplain : ∀ call ∈ new, call.plain := by
    intro call hcall
    split at he
    · cases he
      rw [List.mem_singleton.mp hcall]
      exact ⟨rfl,rfl⟩
    · cases he
      simp only [List.mem_cons,List.not_mem_nil,or_false] at hcall
      rcases hcall with rfl | rfl <;> exact ⟨rfl,rfl⟩
  have hl : Loses w w' ∧ ∀ k', w'.conn c = some k' → k'.assignmentNewLchan = none := by
    split at he
    · rename_i hnone
      cases he
      refine ⟨.refl w,fun k' hk' => ?_⟩
      rw [hk] at hk'
      cases hk'
      exact hnone
    · cases he
      refine ⟨(Loses.refl w).updConn fun k => ⟨rfl,rfl,rfl,fun _ => rfl,id⟩,fun k' hk' => ?_⟩
      rw [Bsc.updConn_self,hk] at hk'
      cases hk'
      rfl
  have hno : ∀ c' m, ¬ Pends new c' m := fun c' m => not_pends_of_plain hplain
  refine h.at c (Staged.plain h.below.1 h.below.2 hplain).2 ?_ (fun c' _ k' => hl.1 c' k')
    fun k' hk' hfree => ?_
  · intro c' hne m
    exact ⟨by simp [Ne.symm hne],hno c' m⟩
  · obtain ⟨k1,hk1,hlk⟩ := hl.1 c k' hk'
    have hex := h.exclusive c k1 hk1 (by simpa [hno] using hfree)
    rw [nextMark_waits (by simp [Mark.passing])] at hex
    rw [nextMark_append h.below.2 (hno c)]
    exact hex.loses hlk (by simp [hno]) (.inl (hl.2 k' hk'))

theorem Procedures.gsconReleaseLchans {doRrRelease : Bool}
    (h : Procedures w (.gsconReleaseLchans c doRrRelease :: rest))
    (he : Chan.gsconReleaseLchans c doRrRelease w = .ok (w',new)) : Procedures w' (new ++ rest) := by
  obtain ⟨k,hk,he⟩ := bind_eq_ok.mp he
  cases he
  have h1 : Staged (.gsconReleasePrimary c doRrRelease false :: rest)
      ∧ Settled (.gsconReleasePrimary c doRrRelease false :: rest) :=
    h.below.1.put h.below.2 rfl (by simp) (by simp)
  have h2 : Staged (.assignmentReset c :: .gsconReleasePrimary c doRrRelease false :: rest)
      ∧ Settled (.assignmentReset c :: .gsconReleasePrimary c doRrRelease false :: rest) := by
    refine h1.1.put h1.2 rfl (by simp [Mark.passing]) ?_
    intro c' m m' hm hm'
    cases hm
    cases hm'
  have hplain : ∀ call ∈ (if k.hoFi.isSome then [Call.handoverEnd c .connRelease] else []),
      call.plain := by
    intro call hcall
    split at hcall
    · rw [List.mem_singleton.mp hcall]
      exact ⟨rfl,rfl⟩
    · cases hcall
  have hno : ∀ c' m, ¬ Pends (if k.hoFi.isSome then [Call.handoverEnd c .connRelease] else []) c' m :=
    fun c' m => not_pends_of_plain hplain
  refine h.at c ?_ ?_ (fun c' _ k' hk' => ⟨k',hk',.refl k'⟩) fun k' hk' hfree => ?_
  · rw [List.append_assoc]
    exact (Staged.plain h2.1 h2.2 hplain).2
  · intro c' hne m
    simp [hno,Ne.symm hne]
  · have hex := h.exclusive c k' hk' (by simpa [hno] using hfree)
    rw [nextMark_none fun m => by simp] at hex
    rw [List.append_assoc,List.cons_append,List.cons_append,List.nil_append] at hfree ⊢
    have hnext : nextMark c ((if k.hoFi.isSome then [Call.handoverEnd c .connRelease] else []) ++
        .assignmentReset c :: .gsconReleasePrimary c doRrRelease false :: rest) = none :=
      nextMark_append h2.2 (hno c)
    rw [hnext]
    refine hex.loses (.refl k') (by simp [hno]) (.inr ?_)
    exact ResetFirst.append (Or.inl rfl) (hno c _)

theorem Procedures.handoverEndNotify {result : HoResult}
    (h : Procedures w (.handoverEndNotify c result :: rest))
    (he : Chan.handoverEndNotify c result w = .ok (w',new)) : Procedures w' (new ++ rest) := by
  obtain ⟨k,hk,he⟩ := bind_eq_ok.mp he
  cases he
  have hl : Loses w (if result = .ok then w.updConn c ({ · with hoNewLchan := none }) else w) := by
    split
    · exact (Loses.refl w).updConn fun k => ⟨rfl,rfl,rfl,id,fun _ => rfl⟩
    · exact .refl w
  have h1 : Staged (.handoverEndRelease c :: rest) ∧ Settled (.handoverEndRelease c :: rest) := by
    refine h.below.1.put h.below.2 rfl (by simp [Mark.passing]) ?_
    intro c' m m' hm hm'
    cases hm
    cases hm'
  refine h.at c (h1.1.cons h1.2 (by simp [Call.opening]) ?_) ?_ (fun c' _ k' => hl c' k')
    fun k' hk' hfree => ?_
  · intro c' m m' hm hm'
    cases hm
    cases hm'
    simp
  · intro c' hne m
    simp [Ne.symm hne]
  · obtain ⟨k1,hk1,hlk⟩ := hl c k' hk'
    have hex := h.exclusive c k1 hk1 (by simpa using hfree)
    have hguard : k'.assignmentNewLchan = none ∨ ResetFirst c
        ([Call.connDispatch c (.handoverEnd (some result)),.handoverEndRelease c] ++ rest) := by
      rcases hex.guarded with hn | hg
      · exact .inl (hlk.assignmentNewLchan hn)
      · exact .inr ((hg.tail (by simp)).append (by simp))
    have hfi := hlk.fi
    have ha := hlk.assignmentFi_none
    have hh := hlk.hoFi_none
    have han := hlk.assignmentNewLchan
    have hhn := hlk.hoNewLchan
    simp [nextMark,Mark.passing] at hex hguard ⊢
    obtain ⟨h1,h2,h3,h4,h5,h6,h7,h8,h9,h10,h11,h12,h13,h14⟩ := hex
    constructor
    all_goals grind

end Concluding

theorem Procedures.precede {calls pre : List Call} (h : Procedures w calls) (hset : Settled calls)
    (hpre : ∀ call ∈ pre, call.plain) : Procedures w (pre ++ calls) := by
  have hno : ∀ c m, ¬ Pends pre c m := fun c m => not_pends_of_plain hpre
  refine ⟨(h.staged.plain hset hpre).2,fun c k hk hfree => ?_⟩
  have hex := h.exclusive c k hk (by simpa [hno] using hfree)
  rw [hset.nextMark c] at hex
  rw [nextMark_append hset (hno c)]
  refine hex.loses (.refl k) (by simp [hno]) ?_
  rcases hex.guarded with hn | hg
  · exact .inl hn
  · exact .inr (hg.append (hno c _))

theorem Procedures.giveWay {head call : Call} (h : Procedures w (head :: rest))
    (hmark : call.mark = head.mark) (hopen : call.opening = head.opening) :
    Procedures w (call :: rest) := by
  have hst := h.staged
  refine ⟨⟨by rw [hopen]; exact hst.1,by rw [hmark]; exact hst.2.1,hst.2.2.1,hst.2.2.2⟩,?_⟩
  intro c k hk hfree
  have hex := h.exclusive c k hk (by simpa [hmark] using hfree)
  simpa [nextMark,ResetFirst,hmark] using hex

theorem Procedures.handoverEndRelease (h : Procedures w (.handoverEndRelease c :: rest))
    (he : Chan.handoverEndRelease c w = .ok (w',new)) : Procedures w' (new ++ rest) := by
  obtain ⟨k,hk,he⟩ := bind_eq_ok.mp he
  obtain ⟨pre,hpre,hnew,rfl⟩ : ∃ pre, (∀ call ∈ pre, call.plain) ∧ new = pre ++ [Call.handoverEndRest c]
      ∧ w = w' := by
    cases he
    refine ⟨_,fun call hcall => ?_,rfl,rfl⟩
    split at hcall
    · cases hcall
    · rw [List.mem_singleton.mp hcall]
      exact ⟨rfl,rfl⟩
  subst hnew
  have h1 : Settled (.handoverEndRest c :: rest) := by
    refine (h.below.1.put h.below.2 rfl (by simp [Call.mark,Mark.passing]) ?_).2
    intro c' m m' hm hm'
    cases hm
    cases hm'
  rw [List.append_assoc]
  exact Procedures.precede (h.giveWay rfl rfl) h1 hpre

theorem Procedures.handoverEndRest (h : Procedures w (.handoverEndRest c :: rest))
    (he : Chan.handoverEndRest x c w = .ok (w',new)) : Procedures w' (new ++ rest) := by
  obtain ⟨k,hk,he⟩ := bind_eq_ok.mp he
  have hk := getConn_eq hk
  split at he
  · cases he
  cases he
  have hconn : ∀ c' k', ((handoverReset x c k (w.updConn c ({ · with hoNewLchan := none }))).updConn c
      ({ · with hoFi := none })).conn c' = some k' → ∃ k0, w.conn c' = some k0 ∧
      (c' = c → k'.hoFi = none ∧ k'.hoNewLchan = none ∧ ({ k0 with hoFi := none } : Conn).Loses k')
      ∧ (c' ≠ c → k0.Loses k') := by
    intro c' k' hk'
    have h0 : Loses w (w.updConn c ({ · with hoNewLchan := none })) :=
      (Loses.refl w).updConn fun k => ⟨rfl,rfl,rfl,id,fun _ => rfl⟩
    have h1 := h0.trans (releaseCi_loses x c _ k.hoCreatedCiForMsc)
    rcases eq_or_ne c' c with rfl | hne
    · unfold handoverReset at hk'
      rw [Bsc.updConn_self,Bsc.updConn_self] at hk'
      simp only [Option.map_map,Option.map_eq_some_iff] at hk'
      obtain ⟨k1,hk1,rfl⟩ := hk'
      obtain ⟨k0,hk0,hl⟩ := h1 c' k1 hk1
      refine ⟨k0,hk0,fun _ => ⟨rfl,rfl,hl.fi,hl.assignmentFi,rfl,hl.assignmentNewLchan,fun _ => rfl⟩,?_⟩
      exact fun hne => absurd rfl hne
    · unfold handoverReset at hk'
      rw [Bsc.updConn_ne _ _ hne,Bsc.updConn_ne _ _ hne] at hk'
      obtain ⟨k0,hk0,hl⟩ := h1 c' k' hk'
      exact ⟨k0,hk0,fun h => absurd h hne,fun _ => hl⟩
  refine h.at c h.below.1 ?_ ?_ fun k' hk' hfree => ?_
  · intro c' hne m
    simp [Call.mark,Ne.symm hne]
  · intro c' hne k' hk'
    obtain ⟨k0,hk0,-,hl⟩ := hconn c' k' hk'
    exact ⟨k0,hk0,hl hne⟩
  · obtain ⟨k0,hk0,hself,-⟩ := hconn c k' hk'
    obtain ⟨hho,hhn,hl⟩ := hself rfl
    have hex := h.exclusive c k0 hk0 (by simpa [Call.mark] using hfree)
    rw [nextMark_waits (by simp [Call.mark,Mark.passing])] at hex
    rw [List.nil_append] at hfree ⊢
    rw [h.below.2.nextMark c]
    have hfi := hl.fi
    have ha := hl.assignmentFi_none
    have han := hl.assignmentNewLchan
    have hguard : k'.assignmentNewLchan = none ∨ ResetFirst c rest := by
      rcases hex.guarded with hn | hg
      · exact .inl (han hn)
      · exact .inr (hg.tail (by simp [Call.mark]))
    dsimp only at hfi ha
    simp only [pends_cons,Call.mark,true_or] at hex
    obtain ⟨h1,h2,h3,h4,h5,h6,h7,h8,h9,h10,h11,h12,h13,h14⟩ := hex
    constructor
    all_goals grind

theorem Procedures.handoverStart {newType : ChanT} {target : HoTarget}
    (h : Procedures w (.handoverStart c newType target :: rest))
    (he : Chan.handoverStart c newType target w = .ok (w',new)) : Procedures w' (new ++ rest) := by
  obtain ⟨k,hk,he⟩ := bind_eq_ok.mp he
  have hk := getConn_eq hk
  cases h.staged.1 rfl
  have hex := h.exclusive c k hk (by simp [Call.mark])
  have hho := (hex.hoStart (by simp [nextMark,Call.mark,Mark.passing])).2
  have hnew := hex.hoNew hho
  rw [hho,hnew] at he
  cases he
  exact h.giveWay rfl rfl

/-- A call that starts a procedure of connection `c`, of which `P` tells the result,
and makes calls that matter to none. -/
structure Starts (c : ConnId) (P : Conn → Conn → Prop) (w : Bsc) (r : Bsc × List Call) : Prop where
  other : ∀ c', c' ≠ c → ∀ k', r.1.conn c' = some k' → ∃ k, w.conn c' = some k ∧ k.Loses k'
  self : ∀ k', r.1.conn c = some k' → ∃ k, w.conn c = some k ∧ P k k'
  calls : ∀ call ∈ r.2, call.plain

def Conn.Assigns (k k' : Conn) : Prop :=
  k'.fi = k.fi ∧ k'.assignmentFi ≠ none ∧ (k'.hoFi = none ↔ k.hoFi = none)
    ∧ (k.hoNewLchan = none → k'.hoNewLchan = none)

def Conn.HandsOver (k k' : Conn) : Prop :=
  k'.fi = k.fi ∧ k'.hoFi ≠ none ∧ (k'.assignmentFi = none ↔ k.assignmentFi = none)
    ∧ (k.assignmentNewLchan = none → k'.assignmentNewLchan = none)

theorem Starts.of_conn {P : Conn → Conn → Prop} {w1 : Bsc} {calls : List Call} {f : Conn → Conn}
    (hw : w1.conn = (w.updConn c f).conn) (hP : ∀ k, P k (f k))
    (hcalls : ∀ call ∈ calls, call.plain) : Starts c P w (w1,calls) := by
  refine ⟨fun c' hne k1 hk1 => ?_,fun k1 hk1 => ?_,hcalls⟩
  · rw [hw,Bsc.updConn_ne _ _ hne] at hk1
    exact ⟨k1,hk1,.refl k1⟩
  · rw [hw,Bsc.updConn_self] at hk1
    obtain ⟨k,hk,rfl⟩ := Option.map_eq_some_iff.mp hk1
    exact ⟨k,hk,hP k⟩

theorem Bsc.updConn_updConn {w1 : Bsc} {f : Conn → Conn} (h : w1.conn = (w.updConn c f).conn)
    (g : Conn → Conn) : (w1.updConn c g).conn = (w.updConn c (g ∘ f)).conn := by
  simp [Bsc.updConn,h]

theorem lchanSelectByType_conn (sel : Select) (type : ChanT) (w : Bsc) :
    (lchanSelectByType sel type w).2.conn = w.conn := by
  unfold lchanSelectByType
  repeat' split
  all_goals rfl

theorem lchanSelectByChanMode_conn (sel : Select) (m : ChannelModeAndRate) (w : Bsc) :
    (lchanSelectByChanMode sel m w).2.conn = w.conn := by
  unfold lchanSelectByChanMode
  split
  · rfl
  · exact lchanSelectByType_conn sel _ w

theorem assignmentSelect_conn (sel : Select) (req : List ChannelModeAndRate) (w : Bsc) :
    (assignmentSelect sel req w).2.conn = w.conn := by
  induction req generalizing w with
  | nil => rfl
  | cons m ms ih =>
    have hm := lchanSelectByChanMode_conn sel m w
    unfold assignmentSelect
    split
    · rename_i heq
      rw [heq] at hm
      exact hm
    · rename_i heq
      rw [heq] at hm
      exact (ih _).trans hm

theorem plain_one {call : Call} (h : call.plain) : ∀ call' ∈ [call], call'.plain := by
  simpa using h

theorem sendAssignmentComplete_conn {r : Bsc × List Call}
    (h : sendAssignmentComplete x c w = .ok r) : r.1.conn = w.conn := by
  obtain ⟨k,hk,h⟩ := bind_eq_ok.mp h
  split at h
  · cases h
  · split at h
    · cases h
      rfl
    · cases h
      rfl

theorem assignmentStart_starts (sel : Select) (req : List ChannelModeAndRate) :
    Ensures (Starts c Conn.Assigns w) (assignmentStart x c sel req w) := by
  refine Ensures.bind fun k hk => ?_
  split
  · exact ensures_error
  extract_lets w1 k1
  have h1 : w1.conn = (w.updConn c ({ · with assignmentFi := some .waitLchanActive })).conn := rfl
  clear_value w1
  split
  · exact ensures_ok.mpr (.of_conn h1 (fun _ => ⟨rfl,by simp,.rfl,id⟩) (plain_one ⟨rfl,rfl⟩))
  · split
    · exact ensures_ok.mpr (.of_conn h1 (fun _ => ⟨rfl,by simp,.rfl,id⟩) (plain_one ⟨rfl,rfl⟩))
    · exact ensures_error
  · rename_i voice old _ _
    extract_lets w2
    have h2 : w2.conn = _ := Bsc.updConn_updConn h1 ({ · with assignmentRequiresVoiceStream := voice })
    clear_value w2
    split
    · refine Ensures.bind fun r hr => ensures_ok.mpr ?_
      refine .of_conn ((sendAssignmentComplete_conn hr).trans h2) (fun _ => ⟨rfl,by simp,.rfl,id⟩) ?_
      intro call hcall
      rcases List.mem_append.mp hcall with hcall | hcall
      · exact (sendAssignmentComplete_plain x c _ r hr).calls call hcall
      · rw [List.mem_singleton.mp hcall]
        exact ⟨rfl,rfl⟩
    · have hsel := assignmentSelect_conn sel req w2
      split
      · rename_i heq
        rw [heq] at hsel
        exact ensures_ok.mpr (.of_conn (hsel.trans h2) (fun _ => ⟨rfl,by simp,.rfl,id⟩)
          (plain_one ⟨rfl,rfl⟩))
      · rename_i l m w3 heq
        rw [heq] at hsel
        exact ensures_ok.mpr (.of_conn
          (Bsc.updConn_updConn (hsel.trans h2) ({ · with assignmentNewLchan := some l }))
          (fun _ => ⟨rfl,by simp,.rfl,id⟩) (plain_one ⟨rfl,rfl⟩))

theorem Procedures.starts {head : Call} {P : Conn → Conn → Prop} {m : Mark}
    (h : Procedures w (head :: rest)) (hmark : head.mark = some (c,m)) (hopen : head.opening = true)
    (hm : m.passing = true) (hfree : m ≠ .free) (hr : Starts c P w (w',new))
    (hP : ∀ k k' R G, Exclusive k (some m) R G → ¬ R → G → P k k' → Exclusive k' none R G) :
    Procedures w' (new ++ rest) := by
  cases h.staged.1 hopen
  have hno : ∀ c' m, ¬ Pends new c' m := fun c' m => not_pends_of_plain hr.calls
  have hrel : m ≠ .hoRelease := by
    rintro rfl
    cases hm
  refine h.at c (Staged.plain h.below.1 h.below.2 hr.calls).2 ?_ hr.other fun k' hk' _ => ?_
  · intro c' hne m'
    refine ⟨?_,hno c' m'⟩
    rw [hmark]
    intro he
    cases he
    exact hne rfl
  · obtain ⟨k,hk,hkk⟩ := hr.self k' hk'
    have hex := h.exclusive c k hk (by simp [hmark,hfree])
    rw [nextMark_append h.below.2 (hno c)]
    refine hP k k' _ _ ?_ (by simp [hno c]) ((show ResetFirst c [] from trivial).append (hno c _)) hkk
    simp only [nextMark,hmark,hm,and_self,if_true] at hex
    exact hex.loses (.refl k) (by simp [hno c,hmark,hrel])
      (.inr ((show ResetFirst c [] from trivial).append (hno c _)))

theorem Procedures.assignmentStart {sel : Select} {req : List ChannelModeAndRate}
    (h : Procedures w (.assignmentStart c sel req :: rest))
    (he : Chan.assignmentStart x c sel req w = .ok (w',new)) : Procedures w' (new ++ rest) := by
  refine h.starts rfl rfl rfl (by decide) (assignmentStart_starts sel req _ he) ?_
  intro k k' R G hex hR hG ⟨hfi,ha,hh,hhn⟩
  obtain ⟨h1,h2,h3,h4,h5,h6,h7,h8,h9,h10,h11,h12,h13,h14⟩ := hex
  constructor
  all_goals grind

theorem handoverStartIntraBsc_starts {k : Conn} {w1 : Bsc} {type : ChanT} {sameCell : Bool}
    {sel : Select} {f : Conn → Conn} (hw : w1.conn = (w.updConn c f).conn)
    (hf : ∀ k : Conn, k.HandsOver (f k)) :
    Ensures (Starts c Conn.HandsOver w) (handoverStartIntraBsc c k type sameCell sel w1) := by
  unfold handoverStartIntraBsc
  split
  · exact ensures_error
  split
  · exact ensures_error
  extract_lets w2
  have h2 : w2.conn = _ := Bsc.updConn_updConn hw
    ({ · with hoScope := if sameCell then .intraCell else .intraBsc })
  clear_value w2
  have hsel := lchanSelectByType_conn sel type w2
  split
  · rename_i heq
    rw [heq] at hsel
    exact ensures_ok.mpr (.of_conn (hsel.trans h2) hf (plain_one ⟨rfl,rfl⟩))
  · rename_i l w3 heq
    rw [heq] at hsel
    exact ensures_ok.mpr (.of_conn (Bsc.updConn_updConn (hsel.trans h2)
      ({ · with hoNewLchan := some l, hoFi := some .waitLchanActive }))
      (fun k => ⟨(hf k).1,by simp,(hf k).2.2.1,(hf k).2.2.2⟩) (plain_one ⟨rfl,rfl⟩))

theorem Starts.after {w1 : Bsc} {r : Bsc × List Call} (hl : Loses w w1)
    (hr : Starts c Conn.HandsOver w1 r) : Starts c Conn.HandsOver w r := by
  refine ⟨fun c' hne k' hk' => ?_,fun k' hk' => ?_,hr.calls⟩
  · obtain ⟨k1,hk1,h1⟩ := hr.other c' hne k' hk'
    obtain ⟨k,hk,h⟩ := hl c' k1 hk1
    exact ⟨k,hk,h.trans h1⟩
  · obtain ⟨k1,hk1,hfi,hh,ha,hn⟩ := hr.self k' hk'
    obtain ⟨k,hk,h⟩ := hl c k1 hk1
    exact ⟨k,hk,hfi.trans h.fi,hh,ha.trans h.assignmentFi_none,hn ∘ h.assignmentNewLchan⟩

theorem handoverReset_loses (k : Conn) : Loses w (handoverReset x c k w) :=
  (releaseCi_loses x c w _).updConn fun _ => ⟨rfl,rfl,rfl,id,fun _ => rfl⟩

theorem handoverStartReset_starts {newType : ChanT} {target : HoTarget} :
    Ensures (Starts c Conn.HandsOver w) (handoverStartReset x c newType target w) := by
  refine Ensures.bind fun k hk => ?_
  split
  · exact ensures_error
  have hl := handoverReset_loses (w := w) (x := x) (c := c) k
  generalize handoverReset x c k w = w1 at hl ⊢
  extract_lets w2 type w3
  have h2 : w2.conn = (w1.updConn c ({ · with hoFi := some .notStarted })).conn := rfl
  have h3 : w3.conn = _ := Bsc.updConn_updConn h2 ({ · with hoScope := .interBscOut })
  clear_value w2 w3 type
  split
  · exact (handoverStartIntraBsc_starts h2 fun _ => ⟨rfl,by simp,.rfl,id⟩).mono fun r => .after hl
  · split
    · exact ensures_ok.mpr (.after hl (.of_conn h3 (fun _ => ⟨rfl,by simp,.rfl,id⟩)
        (plain_one ⟨rfl,rfl⟩)))
    · exact ensures_ok.mpr (.after hl (.of_conn
        (Bsc.updConn_updConn h3 ({ · with hoFi := some .outWaitHoCommand }))
        (fun _ => ⟨rfl,by simp,.rfl,id⟩) (by simp)))
  · exact ensures_ok.mpr (.after hl (.of_conn h2 (fun _ => ⟨rfl,by simp,.rfl,id⟩)
      (plain_one ⟨rfl,rfl⟩)))

theorem handoverStartInterBscIn_starts {sel : Select} {req : Option ChannelModeAndRate} :
    Ensures (Starts c Conn.HandsOver w) (handoverStartInterBscIn x c sel req w) := by
  refine Ensures.bind fun k hk => ?_
  split
  · exact ensures_error
  extract_lets w1
  have h1 : w1.conn = (w.updConn c fun k =>
      { k.clearHo with hoFi := some .notStarted, hoScope := .interBscIn }).conn := rfl
  clear_value w1
  split
  · exact ensures_ok.mpr (.of_conn h1 (fun _ => ⟨rfl,by simp,.rfl,id⟩) (plain_one ⟨rfl,rfl⟩))
  · rename_i m
    have hsel := lchanSelectByChanMode_conn sel m w1
    split
    · rename_i heq
      rw [heq] at hsel
      exact ensures_ok.mpr (.of_conn (hsel.trans h1) (fun _ => ⟨rfl,by simp,.rfl,id⟩)
        (plain_one ⟨rfl,rfl⟩))
    · rename_i l w2 heq
      rw [heq] at hsel
      extract_lets w3
      have h3 : w3.conn = _ := Bsc.updConn_updConn (hsel.trans h1)
        ({ · with hoNewLchan := some l, hoFi := some .waitLchanActive })
      clear_value w3
      split
      · exact ensures_ok.mpr (.of_conn h3 (fun _ => ⟨rfl,by simp,.rfl,id⟩) (plain_one ⟨rfl,rfl⟩))
      · exact ensures_ok.mpr (.of_conn h3 (fun _ => ⟨rfl,by simp,.rfl,id⟩) (plain_one ⟨rfl,rfl⟩))

theorem Procedures.handoverStartReset {newType : ChanT} {target : HoTarget}
    (h : Procedures w (.handoverStartReset c newType target :: rest))
    (he : Chan.handoverStartReset x c newType target w = .ok (w',new)) :
    Procedures w' (new ++ rest) := by
  refine h.starts rfl rfl rfl (by decide) (handoverStartReset_starts _ he) ?_
  intro k k' R G hex hR hG ⟨hfi,hh,ha,han⟩
  obtain ⟨h1,h2,h3,h4,h5,h6,h7,h8,h9,h10,h11,h12,h13,h14⟩ := hex
  constructor
  all_goals grind

theorem Procedures.handoverStartInterBscIn {sel : Select} {req : Option ChannelModeAndRate}
    (h : Procedures w (.handoverStartInterBscIn c sel req :: rest))
    (he : Chan.handoverStartInterBscIn x c sel req w = .ok (w',new)) :
    Procedures w' (new ++ rest) := by
  refine h.starts rfl rfl rfl (by decide) (handoverStartInterBscIn_starts _ he) ?_
  intro k k' R G hex hR hG ⟨hfi,hh,ha,han⟩
  obtain ⟨h1,h2,h3,h4,h5,h6,h7,h8,h9,h10,h11,h12,h13,h14⟩ := hex
  constructor
  all_goals grind

section Transitions

variable {k : Conn} {n : Option Mark} {R G : Prop}

theorem Exclusive.clearing (h : Exclusive k n R G) : Exclusive { k with fi := .clearing } none R G := by
  obtain ⟨h1,h2,h3,h4,h5,h6,h7,h8,h9,h10,h11,h12,h13,h14⟩ := h
  constructor
  all_goals grind

theorem Exclusive.requests (h : Exclusive k (some .fresh) R G) :
    Exclusive { k with fi := .waitCc } none R G := by
  obtain ⟨h1,h2,h3,h4,h5,h6,h7,h8,h9,h10,h11,h12,h13,h14⟩ := h
  constructor
  all_goals grind

/-- No procedure is left, or the end of a handover is still to be completed. -/
theorem Exclusive.ends (h : Exclusive k n R G) (ha : k.assignmentFi = none) (hh : k.hoFi = none ∨ R)
    {n' : Option Mark} (hn : n' = none ∨ n' = some .flush) :
    Exclusive { k with fi := .active } n' R G := by
  obtain ⟨h1,h2,h3,h4,h5,h6,h7,h8,h9,h10,h11,h12,h13,h14⟩ := h
  constructor
  all_goals grind

theorem Exclusive.assigns (h : Exclusive k n R G) (hfi : k.fi = .active) (hR : ¬ R) :
    Exclusive { k with fi := .assignment } (some .assign) R G := by
  obtain ⟨h1,h2,h3,h4,h5,h6,h7,h8,h9,h10,h11,h12,h13,h14⟩ := h
  constructor
  all_goals grind

theorem Exclusive.handsOver (h : Exclusive k n R G) (hfi : k.fi = .active) (hR : ¬ R) :
    Exclusive { k with fi := .handover } (some .hoStart) R G := by
  obtain ⟨h1,h2,h3,h4,h5,h6,h7,h8,h9,h10,h11,h12,h13,h14⟩ := h
  constructor
  all_goals grind

theorem Exclusive.dropped (h : Exclusive k n R G) (ha : n = some .assigned → k.fi ≠ .assignment)
    (hh : n = some .hoEnd → k.fi ≠ .handover) (hn : n ≠ some .assign ∧ n ≠ some .hoStart) :
    Exclusive k none R G := by
  obtain ⟨h1,h2,h3,h4,h5,h6,h7,h8,h9,h10,h11,h12,h13,h14⟩ := h
  constructor
  all_goals grind

end Transitions

/-- The calls that an event to connection `c` makes: those that matter to no
procedure, or a single one that has to be the next. -/
def Follows (c : ConnId) (rest new : List Call) (n : Option Mark) : Prop :=
  (n = none ∧ ∀ call ∈ new, call.plain) ∨
  ∃ call m, n = some m ∧ new = [call] ∧ call.mark = some (c,m) ∧ m.passing = true
    ∧ m.before = none ∧ (call.opening = true → rest = [])

theorem Follows.spec {n : Option Mark} (h : Follows c rest new n) (hst : Staged rest)
    (hset : Settled rest) : Staged (new ++ rest) ∧ nextMark c (new ++ rest) = n
      ∧ (∀ c', c' ≠ c → ∀ m, ¬ Pends new c' m) ∧ ∀ m, m.passing = false → ¬ Pends new c m := by
  rcases h with ⟨rfl,hnew⟩ | ⟨call,m,rfl,rfl,hm,hp,hb,ho⟩
  · have hno : ∀ c' m, ¬ Pends new c' m := fun c' m => not_pends_of_plain hnew
    exact ⟨(hst.plain hset hnew).2,nextMark_append hset (hno c),fun c' _ => hno c',fun m _ => hno c m⟩
  · refine ⟨hst.cons hset ho ?_,by simp [nextMark,hm,hp],?_,?_⟩
    · intro c' m1 m2 h1 h2
      rw [hm] at h1
      cases h1
      rw [hb] at h2
      cases h2
    · intro c' hne m' hm'
      simp only [pends_cons,pends_nil,or_false,hm,Option.some.injEq,Prod.mk.injEq] at hm'
      exact hne hm'.1.symm
    · intro m' hm' hpend
      simp only [pends_cons,pends_nil,or_false,hm,Option.some.injEq,Prod.mk.injEq] at hpend
      rw [hpend.2,hm'] at hp
      cases hp

def Changes (c : ConnId) (st : ConnState) (w w' : Bsc) : Prop :=
  Loses (w.updConn c ({ · with fi := st })) w'

theorem connDispatch_mark {ev : ConnEvent} {c' : ConnId} {m : Mark}
    (h : (Call.connDispatch c ev).mark = some (c',m)) : c' = c ∧ m.passing = true := by
  cases ev <;> first | (cases h; exact ⟨rfl,rfl⟩) | cases h

theorem Procedures.event {ev : ConnEvent} {k : Conn} {st : ConnState} {n : Option Mark}
    (h : Procedures w (.connDispatch c ev :: rest)) (hk : w.conn c = some k)
    (hw : Changes c st w w') (hnew : Follows c rest new n)
    (hex : ∀ R G, Exclusive k (nextMark c (.connDispatch c ev :: rest)) R G →
      (nextMark c (.connDispatch c ev :: rest) = some .hoEnd → R) →
      ((Call.connDispatch c ev).opening = true → ¬ R) →
      Exclusive { k with fi := st } n R G) : Procedures w' (new ++ rest) := by
  obtain ⟨hst,hnext,hother,hself⟩ := hnew.spec h.below.1 h.below.2
  have hhead : ∀ m, m.passing = false → (Call.connDispatch c ev).mark ≠ some (c,m) := by
    intro m hm hmark
    rw [(connDispatch_mark hmark).2] at hm
    cases hm
  refine h.at c hst ?_ ?_ fun k' hk' hfree => ?_
  · intro c' hne m
    exact ⟨fun hm => hne (connDispatch_mark hm).1,hother c' hne m⟩
  · intro c' hne k' hk'
    obtain ⟨k0,hk0,hl⟩ := hw c' k' hk'
    rw [Bsc.updConn_ne _ _ hne] at hk0
    exact ⟨k0,hk0,hl⟩
  · obtain ⟨k0,hk0,hl⟩ := hw c k' hk'
    rw [Bsc.updConn_self,hk] at hk0
    cases hk0
    have hex0 := h.exclusive c k hk (by
      simpa [hhead .free rfl,hself .free rfl] using hfree)
    rw [hnext]
    have h1 := hex _ _ hex0 ?_ ?_
    · refine h1.loses hl (by simp [hhead .hoRelease rfl,hself .hoRelease rfl]) ?_
      rcases h1.guarded with hn | hg
      · exact .inl (hl.assignmentNewLchan hn)
      · exact .inr ((hg.tail (hhead .reset rfl)).append (hself .cleanup rfl))
    · intro hn
      have hmark : (Call.connDispatch c ev).mark = some (c,.hoEnd) := by
        dsimp only [nextMark] at hn
        split at hn
        · rename_i c' m hm
          split at hn
          · rename_i hc
            cases hn
            rw [hm,hc.1]
          · cases hn
        · cases hn
      exact pends_cons.mpr (.inr (h.staged.2.1 c .hoEnd .hoRelease hmark rfl))
    · intro ho
      cases h.staged.1 ho
      simpa using hhead .hoRelease rfl

theorem Changes.stays {k : Conn} (hk : w.conn c = some k) (hl : Loses w w') : Changes c k.fi w w' := by
  refine Loses.trans ?_ hl
  intro c' k' hk'
  rcases eq_or_ne c' c with rfl | hne
  · rw [hk] at hk'
    cases hk'
    exact ⟨k,by simp [Bsc.updConn_self,hk],.refl k⟩
  · exact ⟨k',by rw [Bsc.updConn_ne _ _ hne]; exact hk',.refl k'⟩

theorem connStateChg_changes {k : Conn} (hk : w.conn c = some k) (st : ConnState) :
    Changes c (if gsconFsm.outState k.fi st then st else k.fi) w (connStateChg c k st w) := by
  unfold connStateChg
  split
  · dsimp only
    split
    · exact .of_conn rfl
    · exact .refl _
  · exact .stays hk (.refl w)

theorem Procedures.dropped {ev : ConnEvent} {k : Conn}
    (h : Procedures w (.connDispatch c ev :: rest)) (hk : w.conn c = some k) (hl : Loses w w')
    (hnew : ∀ call ∈ new, call.plain) (ha : ev.kind = .assignmentEnd → k.fi ≠ .assignment)
    (hh : ev.kind = .handoverEnd → k.fi ≠ .handover) : Procedures w' (new ++ rest) := by
  refine h.event hk (.stays hk hl) (.inl ⟨rfl,hnew⟩) ?_
  intro R G hex _ _
  refine hex.dropped ?_ ?_ ?_
  · cases ev <;> simp [nextMark,Call.mark,Mark.passing]
    exact ha rfl
  · cases ev <;> simp [nextMark,Call.mark,Mark.passing]
    exact hh rfl
  · cases ev <;> simp [nextMark,Call.mark,Mark.passing]

theorem Procedures.connFsmAllstate {ev : ConnEvent} {k : Conn}
    (h : Procedures w (.connDispatch c ev :: rest)) (hk : w.conn c = some k)
    (he : gsconFsmAllstate c k ev w = .ok (w',new)) : Procedures w' (new ++ rest) := by
  unfold gsconFsmAllstate at he
  split at he
  · cases he
    have hplain : ∀ call ∈ [Call.gsconReleaseLchans c true,.connClearRest c], call.plain := by
      simp [Call.plain,Call.mark,Call.opening]
    split
    · refine h.event hk (connStateChg_changes hk .clearing) (.inl ⟨rfl,hplain⟩) ?_
      intro R G hex _ _
      split
      · exact hex.clearing
      · exact hex
    · exact h.dropped hk (.refl w) hplain (by simp [ConnEvent.kind]) (by simp [ConnEvent.kind])
  · cases he
    exact h.dropped hk (.refl w) (plain_one ⟨rfl,rfl⟩) (by simp [ConnEvent.kind])
      (by simp [ConnEvent.kind])
  · cases he
    exact h.dropped hk (.of_mscView (by simp)) (by simp) (by simp [ConnEvent.kind])
      (by simp [ConnEvent.kind])
  · cases he
    refine h.dropped hk (.of_conn ?_) (by simp) (by simp [ConnEvent.kind])
      (by simp [ConnEvent.kind])
    split
    · rfl
    · rfl
  · cases he

theorem nextMark_fresh {call : Call} (h : call.mark = some (c,.fresh)) :
    nextMark c (call :: rest) = some .fresh := by
  simp [nextMark,h,Mark.passing]

theorem Procedures.connFsmInit {ev : ConnEvent} {k : Conn}
    (h : Procedures w (.connDispatch c ev :: rest)) (hk : w.conn c = some k) (hfi : k.fi = .init)
    (he : gsconFsmInit x c k ev w = .ok (w',new)) : Procedures w' (new ++ rest) := by
  unfold gsconFsmInit at he
  split at he
  · split at he
    · cases he
      refine h.dropped hk (.refl w) ?_ (by simp [ConnEvent.kind]) (by simp [ConnEvent.kind])
      simp [Call.plain,Call.mark,Call.opening]
    · cases he
      refine h.event hk (connStateChg_changes hk .waitCc) (.inl ⟨rfl,by simp⟩) ?_
      intro R G hex _ _
      rw [nextMark_fresh rfl] at hex
      rw [hfi]
      exact hex.requests
  · split at he
    · cases he
      exact h.dropped hk (.refl w) (plain_one ⟨rfl,rfl⟩) (by simp [ConnEvent.kind])
        (by simp [ConnEvent.kind])
    · cases he
      refine h.event hk (.stays hk (.refl w))
        (.inr ⟨_,.fresh,rfl,rfl,rfl,rfl,rfl,fun _ => h.staged.1 rfl⟩) ?_
      intro R G hex _ _
      rw [nextMark_fresh rfl] at hex
      exact hex
  · split at he
    · cases he
      refine h.event hk (connStateChg_changes hk .active)
        (.inr ⟨_,.flush,rfl,rfl,rfl,rfl,rfl,fun h => by cases h⟩) ?_
      intro R G hex hR _
      rw [hfi]
      exact hex.ends (hex.init hfi) (.inr (hR (by simp [nextMark,Call.mark,Mark.passing])))
        (.inr rfl)
    · cases he
      have hw : Changes c .clearing w (connStateChg c k .clearing (gsconBssmapClear c w)) := by
        have hchg := connStateChg_changes (w := gsconBssmapClear c w) hk .clearing
        rw [hfi] at hchg
        exact Loses.trans (.of_conn rfl) hchg
      exact h.event hk hw (.inl ⟨rfl,by simp⟩) fun R G hex _ _ => hex.clearing
  · cases he

theorem Procedures.connFsmActive {ev : ConnEvent} {k : Conn}
    (h : Procedures w (.connDispatch c ev :: rest)) (hk : w.conn c = some k) (hfi : k.fi = .active)
    (he : gsconFsmActive c k ev w = .ok (w',new)) : Procedures w' (new ++ rest) := by
  unfold gsconFsmActive at he
  split at he
  · split at he
    · cases he
      exact h.dropped hk (.refl w) (by simp) (by simp [ConnEvent.kind]) (by simp [ConnEvent.kind])
    · cases he
      refine h.event hk (connStateChg_changes hk .assignment)
        (.inr ⟨_,.assign,rfl,rfl,rfl,rfl,rfl,fun _ => h.staged.1 rfl⟩) ?_
      intro R G hex _ hR
      have hgo := hex.assigns hfi (hR rfl)
      rw [hfi]
      exact hgo
  · cases he
    refine h.event hk (connStateChg_changes hk .handover)
      (.inr ⟨_,.hoStart,rfl,rfl,rfl,rfl,rfl,fun _ => h.staged.1 rfl⟩) ?_
    intro R G hex _ hR
    have hgo := hex.handsOver hfi (hR rfl)
    rw [hfi]
    exact hgo
  · cases he
    exact h.dropped hk (.refl w) (plain_one ⟨rfl,rfl⟩) (by simp [ConnEvent.kind])
      (by simp [ConnEvent.kind])
  · cases he
    exact h.dropped hk (gsconSigtranSend_loses w k _) (by simp) (by simp [ConnEvent.kind])
      (by simp [ConnEvent.kind])
  · cases he

/-- ST_ASSIGNMENT and ST_HANDOVER; the masks leave only the event that ends the
procedure of the state. -/
theorem Procedures.connFsmProcedure {ev : ConnEvent} {k : Conn}
    (h : Procedures w (.connDispatch c ev :: rest)) (hk : w.conn c = some k)
    (hfi : k.fi = .assignment ∧ ev.kind ≠ .handoverEnd ∨ k.fi = .handover ∧ ev.kind ≠ .assignmentEnd)
    (he : gsconFsmProcedure c k ev w = .ok (w',new)) : Procedures w' (new ++ rest) := by
  unfold gsconFsmProcedure at he
  split at he
  · cases he
    refine h.event hk (connStateChg_changes hk .active)
      (.inr ⟨_,.flush,rfl,rfl,rfl,rfl,rfl,fun h => by cases h⟩) ?_
    intro R G hex _ _
    have hfi : k.fi = .assignment := by simpa [ConnEvent.kind] using hfi
    have hgo := hex.ends (hex.assigned (by simp [nextMark,Call.mark,Mark.passing]))
      (.inl (hex.assignment hfi).1) (.inr rfl)
    rw [hfi]
    exact hgo
  · cases he
    refine h.event hk (connStateChg_changes hk .active)
      (.inr ⟨_,.flush,rfl,rfl,rfl,rfl,rfl,fun h => by cases h⟩) ?_
    intro R G hex hR _
    have hfi : k.fi = .handover := by simpa [ConnEvent.kind] using hfi
    have hgo := hex.ends (hex.handover hfi).1
      (.inr (hR (by simp [nextMark,Call.mark,Mark.passing]))) (.inr rfl)
    rw [hfi]
    exact hgo
  · cases he
    exact h.dropped hk (.refl w) (plain_one ⟨rfl,rfl⟩) (by simp [ConnEvent.kind])
      (by simp [ConnEvent.kind])
  · cases he
    exact h.dropped hk (gsconSigtranSend_loses w k _) (by simp) (by simp [ConnEvent.kind])
      (by simp [ConnEvent.kind])
  · cases he

theorem gsconFsm_inEvent {st : ConnState} {ev : ConnEventKind} :
    (gsconFsm.verdict st ev = .action → gsconFsm.inEvent st ev = true)
      ∧ (gsconFsm.verdict st ev = .notPermitted → gsconFsm.inEvent st ev = false) := by
  cases st <;> cases ev <;> decide

theorem Procedures.connDispatch {ev : ConnEvent} (h : Procedures w (.connDispatch c ev :: rest))
    (he : Chan.connDispatch x c ev w = .ok (w',new)) : Procedures w' (new ++ rest) := by
  obtain ⟨k,hk,he⟩ := bind_eq_ok.mp he
  have hk := getConn_eq hk
  split at he
  · exact h.connFsmAllstate hk he
  · rename_i hv
    cases he
    have hin := gsconFsm_inEvent.2 hv
    refine h.dropped hk (.refl w) (by simp) ?_ ?_
    · intro hev hfi
      simp [hev,hfi,gsconFsm] at hin
    · intro hev hfi
      simp [hev,hfi,gsconFsm] at hin
  · rename_i hv
    have hin := gsconFsm_inEvent.1 hv
    split at he
    · rename_i hfi
      exact h.connFsmInit hk hfi he
    · rename_i hfi
      cases he
      refine h.event hk (connStateChg_changes hk .active) (.inl ⟨rfl,by simp⟩) ?_
      intro R G hex _ _
      have hgo := hex.ends (hex.waitCc hfi).1 (.inl (hex.waitCc hfi).2) (.inl rfl)
      rw [hfi]
      exact hgo
    · rename_i hfi
      exact h.connFsmActive hk hfi he
    · rename_i hfi
      refine h.connFsmProcedure hk (.inl ⟨hfi,fun hev => ?_⟩) he
      simp [hfi,hev,gsconFsm] at hin
    · rename_i hfi
      refine h.connFsmProcedure hk (.inr ⟨hfi,fun hev => ?_⟩) he
      simp [hfi,hev,gsconFsm] at hin
    · rename_i hfi
      rw [hfi] at hin
      cases ev <;> cases hin

theorem Procedures.clears {head : Call} (h : Procedures w (head :: rest)) (hhead : head.mark = none)
    (hnew : ∀ call ∈ new, call.plain)
    (hw : ∀ c k', w'.conn c = some k' → ∃ k, w.conn c = some k
      ∧ (k.Loses k' ∨ ({ k with fi := .clearing } : Conn).Loses k')) :
    Procedures w' (new ++ rest) := by
  have hno : ∀ c m, ¬ Pends new c m := fun c m => not_pends_of_plain hnew
  refine ⟨(Staged.plain h.below.1 h.below.2 hnew).2,fun c k' hk' hfree => ?_⟩
  obtain ⟨k,hk,hl⟩ := hw c k' hk'
  have hex := h.exclusive c k hk (by simpa [hhead,hno] using hfree)
  rw [nextMark_none (by simp [hhead])] at hex
  rw [nextMark_append h.below.2 (hno c)]
  have hguard : k.assignmentNewLchan = none ∨ ResetFirst c (new ++ rest) := by
    rcases hex.guarded with hn | hg
    · exact .inl hn
    · exact .inr ((hg.tail (by simp [hhead])).append (hno c _))
  have hrel : Pends (head :: rest) c .hoRelease ↔ Pends (new ++ rest) c .hoRelease := by
    simp [hhead,hno]
  rcases hl with hl | hl
  · exact hex.loses hl hrel (hguard.imp_left hl.assignmentNewLchan)
  · exact hex.clearing.loses hl hrel (hguard.imp_left hl.assignmentNewLchan)

theorem connStateChg_conn {k : Conn} {st : ConnState} {c' : ConnId} {k' : Conn}
    (h : (connStateChg c k st w).conn c' = some k') :
    ∃ k1, w.conn c' = some k1 ∧ (k' = k1 ∨ k' = { k1 with fi := st }) := by
  have hu : (connStateChg c k st w).conn = w.conn
      ∨ (connStateChg c k st w).conn = (w.updConn c ({ · with fi := st })).conn := by
    unfold connStateChg
    split
    · dsimp only
      split
      · exact .inr rfl
      · exact .inr rfl
    · exact .inl rfl
  rcases hu with hu | hu
  · exact ⟨k',hu ▸ h,.inl rfl⟩
  · rw [hu] at h
    rcases eq_or_ne c' c with rfl | hne
    · rw [Bsc.updConn_self] at h
      obtain ⟨k1,hk1,rfl⟩ := Option.map_eq_some_iff.mp h
      exact ⟨k1,hk1,.inr rfl⟩
    · rw [Bsc.updConn_ne _ _ hne] at h
      exact ⟨k',h,.inl rfl⟩

theorem Procedures.gsconLchanReleasingRest {l : LchanId}
    (h : Procedures w (.gsconLchanReleasingRest c l :: rest))
    (he : Chan.gsconLchanReleasingRest c l w = .ok (w',new)) : Procedures w' (new ++ rest) := by
  obtain ⟨k,hk,he⟩ := bind_eq_ok.mp he
  extract_lets gone w1 at he
  have h1 : Loses w w1 := by
    dsimp only [w1]
    split
    · exact Loses.updConn (.of_conn rfl) fun k => ⟨rfl,rfl,rfl,id,id⟩
    · exact .refl w
  clear_value w1
  split at he
  · cases he
    split
    · refine h.clears rfl (by simp) fun c' k' hk' => ?_
      obtain ⟨k1,hk1,hor⟩ := connStateChg_conn (w := w1) hk'
      obtain ⟨k0,hk0,hl⟩ := h1 c' k1 hk1
      refine ⟨k0,hk0,?_⟩
      rcases hor with rfl | rfl
      · exact .inl hl
      · exact .inr ⟨rfl,hl.assignmentFi,hl.hoFi,hl.assignmentNewLchan,hl.hoNewLchan⟩
    · exact h.plain rfl (by simp) (h1.trans (.of_conn rfl))
  · cases he
    exact h.plain rfl (by simp) h1

theorem Procedures.gsconTerm (h : Procedures w (.gsconTerm c :: rest))
    (he : Chan.gsconTerm c w = .ok (w',new)) : Procedures w' (new ++ rest) := by
  obtain ⟨k,hk,he⟩ := bind_eq_ok.mp he
  cases he
  have h1 : Staged (.gsconCleanup c :: rest) ∧ Settled (.gsconCleanup c :: rest) := by
    refine h.below.1.put h.below.2 rfl (by simp [Call.mark,Mark.passing]) ?_
    intro c' m m' hm hm'
    cases hm
    cases hm'
  have h2 : Staged (.gsconTermChildren c :: .gsconCleanup c :: rest)
      ∧ Settled (.gsconTermChildren c :: .gsconCleanup c :: rest) := by
    refine h1.1.put h1.2 rfl (by simp [Call.mark,Mark.passing]) ?_
    intro c' m m' hm hm'
    cases hm
    cases hm'
    simp [Call.mark]
  refine h.at c (h2.1.put h2.2 rfl (by simp [Call.mark]) (by simp [Call.mark])).1 ?_
    (fun c' _ => osmoMgcpcEpClear_loses c w c') fun k' _ hfree => ?_
  · intro c' hne m
    simp [Call.mark,Ne.symm hne]
  · simp [Call.mark] at hfree

theorem Procedures.gsconTermChildren (h : Procedures w (.gsconTermChildren c :: rest))
    (he : Chan.gsconTermChildren c w = .ok (w',new)) : Procedures w' (new ++ rest) := by
  obtain ⟨k,hk,he⟩ := bind_eq_ok.mp he
  cases he
  have hb : Pends rest c .free := h.staged.2.1 c .ending .free rfl rfl
  refine h.at c ?_ ?_ ?_ fun k' _ hfree => absurd (pends_append.mpr (.inr hb)) hfree
  · split
    · refine (h.below.1.put h.below.2 rfl (by simp [Call.mark,Mark.passing]) ?_).1
      intro c' m m' hm hm'
      cases hm
      cases hm'
      exact hb
    · exact h.below.1
  · intro c' hne m
    refine ⟨by simp [Call.mark,Ne.symm hne],?_⟩
    split
    · simp [Call.mark,Ne.symm hne]
    · simp
  · intro c' hne k' hk'
    rw [Bsc.updConn_ne _ _ hne] at hk'
    exact ⟨k',hk',.refl k'⟩

theorem Procedures.gsconCleanup (h : Procedures w (.gsconCleanup c :: rest))
    (he : Chan.gsconCleanup c w = .ok (w',new)) : Procedures w' (new ++ rest) := by
  obtain ⟨k,hk,he⟩ := bind_eq_ok.mp he
  cases he
  have hl : Loses w (unlessNull lchanForgetConn k.hoNewLchan
      (unlessNull lchanForgetConn k.assignmentNewLchan (unlessNull lchanForgetConn k.lchan w))) :=
    ((unlessNull_forgetConn_loses w _).trans (unlessNull_forgetConn_loses _ _)).trans
      (unlessNull_forgetConn_loses _ _)
  refine h.at c h.below.1 ?_ ?_ fun k' hk' => ?_
  · intro c' hne m
    simp [Call.mark,Ne.symm hne]
  · intro c' hne k' hk'
    simp only [Bsc.freeConn,Function.update_of_ne hne] at hk'
    exact hl c' k' hk'
  · simp [Bsc.freeConn] at hk'

theorem gsm0808SendRslDtap_other {k : Conn} {c' : ConnId} (hne : c' ≠ c) :
    (gsm0808SendRslDtap x c k w).conn c' = w.conn c' := by
  have hsend : (gsconSigtranSend k (.clearRequest c) w).conn = w.conn := by
    unfold gsconSigtranSend
    split <;> rfl
  unfold gsm0808SendRslDtap connStateChg
  split
  · split
    · dsimp only
      split
      · exact (Bsc.updConn_ne _ _ hne).trans (congrFun hsend c')
      · exact (Bsc.updConn_ne _ _ hne).trans (congrFun hsend c')
    · exact congrFun hsend c'
  · rfl

theorem Procedures.gsconDtapQueueFlush (h : Procedures w (.gsconDtapQueueFlush c :: rest))
    (he : Chan.gsconDtapQueueFlush x c w = .ok (w',new)) : Procedures w' (new ++ rest) := by
  obtain ⟨k,hk,he⟩ := bind_eq_ok.mp he
  have hk := getConn_eq hk
  have hn : nextMark c (.gsconDtapQueueFlush c :: rest) = some .flush := by
    simp [nextMark,Call.mark,Mark.passing]
  split at he
  · cases he
    refine h.at c h.below.1 ?_ (fun c' _ k' hk' => ⟨k',hk',.refl k'⟩) fun k' hk' hfree => ?_
    · intro c' hne m
      simp [Call.mark,Ne.symm hne]
    · rw [hk] at hk'
      cases hk'
      have hex := h.exclusive c k hk (by simpa [Call.mark] using hfree)
      rw [hn] at hex
      have hguard := hex.guarded.imp_right fun hg => hg.tail (by simp [Call.mark])
      rw [List.nil_append,h.below.2.nextMark c]
      simp only [pends_cons,Call.mark,Option.some.injEq,Prod.mk.injEq,reduceCtorEq,and_false,
        false_or] at hex
      obtain ⟨h1,h2,h3,h4,h5,h6,h7,h8,h9,h10,h11,h12,h13,h14⟩ := hex
      constructor
      all_goals grind
  · cases he
    have hl : Loses w (w.updConn c ({ · with dtapQueueLen := k.dtapQueueLen - 1 })) :=
      (Loses.refl w).updConn fun k => ⟨rfl,rfl,rfl,id,id⟩
    refine h.at c h.staged ?_ ?_ fun k' hk' hfree => ?_
    · intro c' hne m
      simp [Call.mark,Ne.symm hne]
    · intro c' hne k' hk'
      rw [gsm0808SendRslDtap_other hne] at hk'
      exact hl c' k' hk'
    · have hfi : k.fi = .active := (h.exclusive c k hk hfree).flush hn
      obtain ⟨k1,hk1,hl1⟩ := (hl.trans (gsm0808SendRslDtap_loses x c _ hfi)) c k' hk'
      have hex := h.exclusive c k1 hk1 hfree
      exact hex.loses hl1 .rfl (hex.guarded.imp_left hl1.assignmentNewLchan)

theorem gsconUpdateId_plain : Ensures (PlainStep w) (gsconUpdateId c w) :=
  Ensures.bind fun _ _ => ensures_ok.mpr (.nil (.refl w))

theorem Procedures.opens {head call : Call} (h : Procedures w (head :: rest)) (hhead : head.mark = none)
    (hopen : head.opening = true) (hcall : call.mark = none) : Procedures w ([call] ++ rest) := by
  cases h.staged.1 hopen
  refine ⟨⟨fun _ => rfl,by simp [hcall],by simp [Settled],trivial⟩,fun c k hk hfree => ?_⟩
  have hex := h.exclusive c k hk (by simp [hhead])
  simpa [nextMark,ResetFirst,hhead,hcall] using hex

theorem Procedures.bssmapHandleAssignmReq {sel : Select} {req : AssignmReq}
    (h : Procedures w (.bssmapHandleAssignmReq c sel req :: rest))
    (he : Chan.bssmapHandleAssignmReq c sel req w = .ok (w',new)) : Procedures w' (new ++ rest) := by
  obtain ⟨k,hk,he⟩ := bind_eq_ok.mp he
  obtain ⟨r,hr,he⟩ := bind_eq_ok.mp he
  split at he
  · cases he
    exact h.opens rfl rfl rfl
  · cases he
    exact h.opens rfl rfl rfl

theorem Procedures.alloc {head call : Call} {k : Conn} {m : Mark} (h : Procedures w (head :: rest))
    (hhead : head.mark = none) (hopen : head.opening = true)
    (hw : ∀ c', c' ≠ c → w'.conn c' = w.conn c') (hself : w'.conn c = some k)
    (hcall : call.mark = some (c,m) ∧ m = .fresh ∨ call.mark = none)
    (hk : k.fi = .init ∧ k.assignmentFi = none ∧ k.assignmentNewLchan = none ∧ k.hoFi = none
      ∧ k.hoNewLchan = none) : Procedures w' ([call] ++ rest) := by
  cases h.staged.1 hopen
  obtain ⟨hfi,ha,han,hh,hhn⟩ := hk
  refine h.at c ⟨fun _ => rfl,?_,by simp [Settled],trivial⟩ ?_ ?_ ?_
  · intro c' m1 m2 hm1 hm2
    rcases hcall with ⟨hcall,rfl⟩ | hcall
    · rw [hcall] at hm1
      cases hm1
      cases hm2
    · rw [hcall] at hm1
      cases hm1
  · intro c' hne m'
    rcases hcall with ⟨hcall,rfl⟩ | hcall
    · simp [hhead,hcall,Ne.symm hne]
    · simp [hhead,hcall]
  · intro c' hne k' hk'
    rw [hw c' hne] at hk'
    exact ⟨k',hk',.refl k'⟩
  · intro k' hk' _
    rw [hself] at hk'
    cases hk'
    have hn : nextMark c ([call] ++ []) = some .fresh ∨ nextMark c ([call] ++ []) = none := by
      rcases hcall with ⟨hcall,rfl⟩ | hcall
      · simp [nextMark,hcall,Mark.passing]
      · simp [nextMark,hcall]
    have hno : ¬ Pends ([call] ++ []) c .hoRelease := by
      rcases hcall with ⟨hcall,rfl⟩ | hcall
      · simp [hcall]
      · simp [hcall]
    generalize nextMark c ([call] ++ []) = n at hn ⊢
    constructor
    all_goals grind

theorem Procedures.sccpNConnect {aoip : Bool} {sel : Select} {req : Option ChannelModeAndRate}
    (h : Procedures w (.sccpNConnect c aoip sel req :: rest))
    (he : Chan.sccpNConnect c aoip sel req w = .ok (w',new)) : Procedures w' (new ++ rest) := by
  unfold Chan.sccpNConnect at he
  split at he
  · cases he
    exact h.plain rfl (by simp) (.refl w)
  · cases he
    refine h.alloc (c := c) (k := { aoip := aoip }) rfl rfl ?_ ?_ (.inl ⟨rfl,rfl⟩) ⟨rfl,rfl,rfl,rfl,rfl⟩
    · intro c' hne
      simp [Bsc.allocConn,hne]
    · simp [Bsc.allocConn]

theorem dispatchDtap_plain (msg : L3Msg) : Ensures (PlainStep w) (dispatchDtap x c msg w) := by
  refine Ensures.bind fun k _ => ?_
  unfold bscDtap
  dsimp only
  repeat' split
  all_goals
    first
    | exact ensures_error
    | exact ensures_ok.mpr (.nil (.refl w))
    | exact ensures_ok.mpr (.one (.refl w) ⟨rfl,rfl⟩)
    | exact ensures_ok.mpr (.two (.refl w) ⟨rfl,rfl⟩ ⟨rfl,rfl⟩)

theorem Procedures.gsm0408Rcvmsg {l : LchanId} {msg : L3Msg} {newConn : ConnId} {aoip : Bool}
    (h : Procedures w (.gsm0408Rcvmsg l msg newConn aoip :: rest))
    (he : Chan.gsm0408Rcvmsg x l msg newConn aoip w = .ok (w',new)) : Procedures w' (new ++ rest) := by
  rcases gsm0408Rcvmsg_cases x l msg newConn aoip w with heq | ⟨c,-,heq⟩ | heq | ⟨-,heq⟩ <;> rw [heq] at he
  · cases he
    exact h.plain rfl (by simp) (.refl w)
  · have hp := dispatchDtap_plain msg _ he
    exact h.plain rfl hp.calls hp.loses
  · cases he
    exact h.plain rfl (plain_one ⟨rfl,rfl⟩) (.refl w)
  · cases he
    have hother : ∀ c', c' ≠ newConn →
        ((w.allocConn newConn { aoip := aoip, lchan := some l }).updLchan l
          ({ · with conn := some newConn })).conn c' = w.conn c' := by
      intro c' hne
      simp [Bsc.allocConn,Bsc.updLchan,hne]
    have hself : ((w.allocConn newConn { aoip := aoip, lchan := some l }).updLchan l
        ({ · with conn := some newConn })).conn newConn
        = some { aoip := aoip, lchan := some l } := by
      simp [Bsc.allocConn,Bsc.updLchan]
    split
    · exact h.alloc (m := .fresh) rfl rfl hother hself (.inr rfl) ⟨rfl,rfl,rfl,rfl,rfl⟩
    · exact h.alloc rfl rfl hother hself (.inl ⟨rfl,rfl⟩) ⟨rfl,rfl,rfl,rfl,rfl⟩

theorem Procedures.exec {cfg : TsId → TsCfg} {call : Call} (h : Procedures w (call :: rest))
    (he : Chan.exec cfg call x w = .ok (w',new)) : Procedures w' (new ++ rest) := by
  have hplain : call.mark = none → Ensures (PlainStep w) (Chan.exec cfg call x w) →
      Procedures w' (new ++ rest) := fun hm hp => h.plain hm (hp _ he).calls (hp _ he).loses
  cases call with
  | assignmentDispatch c ev => exact hplain rfl (assignmentDispatch_plain x c w ev)
  | assignmentTimeout c => exact hplain rfl (assignmentTimeout_plain c w)
  | assignmentStart c sel req => exact h.assignmentStart he
  | assignmentStartReuseRest c => exact hplain rfl (assignmentStartReuseRest_plain c w)
  | assignmentTerm c parent => exact h.assignmentTerm he
  | assignmentCleanupRest c parent => exact h.assignmentCleanupRest he
  | assignmentReset c => exact h.assignmentReset he
  | assignmentResetRest c => exact hplain rfl (assignmentResetRest_plain x c w)
  | assignmentStateChg c st => exact hplain rfl (assignmentStateChg_plain x c w st)
  | assignmentSuccess c => exact hplain rfl (assignmentSuccess_plain c w)
  | assignmentSuccessSend c => exact hplain rfl (assignmentSuccessSend_plain x c w)
  | assignmentSuccessRest c => exact hplain rfl (assignmentSuccessRest_plain c w)
  | hoDispatch c ev => exact hplain rfl (hoDispatch_plain x c w ev)
  | hoTimeout c => exact hplain rfl (hoTimeout_plain c w)
  | hoStateChg c st => exact hplain rfl (hoStateChg_plain x c w st)
  | handoverStart c newType target => exact h.handoverStart he
  | handoverStartReset c newType target => exact h.handoverStartReset he
  | handoverStartInterBscIn c sel req => exact h.handoverStartInterBscIn he
  | handoverEnd c result => exact hplain rfl (handoverEnd_plain x c w result)
  | handoverEndChange c result => exact hplain rfl (handoverEndChange_plain x c w result)
  | handoverEndNotify c result => exact h.handoverEndNotify he
  | handoverEndRelease c => exact h.handoverEndRelease he
  | handoverEndRest c => exact h.handoverEndRest he
  | connDispatch c ev => exact h.connDispatch he
  | connTimeout c => exact hplain rfl (connTimeout_plain c w)
  | connClearRest c => exact hplain rfl (connClearRest_plain c w)
  | gsconUpdateId c => exact hplain rfl gsconUpdateId_plain
  | gsconChangePrimaryLchan c l => exact hplain rfl (gsconChangePrimaryLchan_plain c w l)
  | gsconReleaseLchan c l doRrRelease err =>
    exact hplain rfl (gsconReleaseLchan_plain c l w doRrRelease err)
  | gsconReleasePrimary c doRrRelease err =>
    exact hplain rfl (gsconReleasePrimary_plain c w doRrRelease err)
  | gsconReleaseLchans c doRrRelease => exact h.gsconReleaseLchans he
  | gsconLchanReleasing c l => exact hplain rfl (gsconLchanReleasing_plain c l w)
  | gsconLchanReleasingAssignment c => exact hplain rfl (gsconLchanReleasingAssignment_plain c w)
  | gsconLchanReleasingHo c l => exact hplain rfl (gsconLchanReleasingHo_plain c l w)
  | gsconLchanReleasingRest c l => exact h.gsconLchanReleasingRest he
  | gsconTerm c => exact h.gsconTerm he
  | gsconTermChildren c => exact h.gsconTermChildren he
  | gsconCleanup c => exact h.gsconCleanup he
  | gsconSubmitRslDtap c => exact hplain rfl (gsconSubmitRslDtap_plain x c w)
  | gsconDtapQueueFlush c => exact h.gsconDtapQueueFlush he
  | bssmapHandleAssignmReq c sel req => exact h.bssmapHandleAssignmReq he
  | gsm0408Rcvmsg l msg newConn aoip => exact h.gsm0408Rcvmsg he
  | sccpNConnect c aoip sel req => exact h.sccpNConnect he
  | _ => exact h.lchanSide rfl he

end Marked

section Runs

variable {cfg : TsId → TsCfg} {good : Config → Move → Prop} {s : Config}

theorem Staged.one {call : Call} (h : call.mark = none) : Staged [call] :=
  ⟨fun _ => rfl,by simp [h],by simp [Settled],trivial⟩

theorem enter_staged (i : Input) (w : Bsc) :
    (∀ call ∈ enter i w, call.mark = none) ∧ Staged (enter i w) := by
  cases i with
  | estInd l linkId msg newConn aoip =>
    simp only [enter]
    repeat' split
    · exact ⟨by simp,trivial⟩
    · exact ⟨by simp,trivial⟩
    · exact ⟨by simp [Call.mark],.one rfl⟩
    · refine ⟨by simp [Call.mark],by simp [Call.opening],by simp [Call.mark],?_,.one rfl⟩
      simp [Settled,Call.mark]
  | _ =>
    simp only [enter]
    repeat' split
    all_goals
      first
      | exact ⟨List.forall_mem_nil _,trivial⟩
      | exact ⟨List.forall_mem_singleton.mpr rfl,.one rfl⟩

theorem Procedures.enter {w : Bsc} (h : Procedures w []) (i : Input) : Procedures w (enter i w) := by
  obtain ⟨hmark,hst⟩ := enter_staged i w
  have hno : ∀ c m, ¬ Pends (Chan.enter i w) c m := by
    rintro c m ⟨call,hcall,hm⟩
    rw [hmark call hcall] at hm
    cases hm
  have happ : Chan.enter i w = Chan.enter i w ++ [] := (List.append_nil _).symm
  refine ⟨hst,fun c k hk _ => ?_⟩
  have hex := h.exclusive c k hk (by simp)
  rw [happ,nextMark_append (by simp [Settled]) (hno c)]
  refine hex.loses (.refl k) (by simp [hno c]) (.inr ?_)
  exact (show ResetFirst c [] from trivial).append (hno c _)

theorem Reachable.procedures (h : Reachable cfg good s) : Procedures s.state s.calls := by
  refine Calls.reach_invariant ?_ (fun w i hinv _ => hinv.enter i)
    (fun w call rest x w' new hinv _ he => hinv.exec he) h
  rintro s rfl
  exact ⟨trivial,fun c k hk => by cases hk⟩

/-- Between two inputs a connection has the FSM of its procedure and no other one;
and an FSM is only allocated when there is none. -/
theorem procedures_exclusive (h : Reachable cfg (fun _ _ => True) s) {c : ConnId} {k : Conn}
    (hk : s.state.conn c = some k) :
    (s.Quiescent →
      (k.fi = .active → k.assignmentFi = none ∧ k.hoFi = none)
      ∧ (k.fi = .assignment → k.assignmentFi ≠ none ∧ k.hoFi = none)
      ∧ (k.fi = .handover → k.hoFi ≠ none ∧ k.assignmentFi = none))
    ∧ (∀ sel req rest, s.calls = .assignmentStart c sel req :: rest →
      k.assignmentFi = none ∧ k.assignmentNewLchan = none)
    ∧ (∀ newType target rest, s.calls = .handoverStartReset c newType target :: rest → k.hoFi = none)
    ∧ ∀ sel req rest, s.calls = .handoverStartInterBscIn c sel req :: rest → k.hoFi = none := by
  have hp := h.procedures
  refine ⟨fun hq => ?_,fun sel req rest hcalls => ?_,fun newType target rest hcalls => ?_,
    fun sel req rest hcalls => ?_⟩
  · rw [hq] at hp
    have hex := hp.exclusive c k hk (by simp)
    refine ⟨fun hfi => ?_,fun hfi => ?_,fun hfi => ?_⟩
    · have ha := hex.active hfi
      simpa using ha
    · have ha := hex.assignment hfi
      simpa [nextMark,and_comm] using ha
    · have hh := hex.handover hfi
      simpa [nextMark,and_comm] using hh
  all_goals
    rw [hcalls] at hp
    cases hp.staged.1 rfl
    have hex := hp.exclusive c k hk (by simp [Call.mark])
  · have ha := (hex.assign (by simp [nextMark,Call.mark,Mark.passing])).2
    exact ⟨ha,hex.assignmentNew ha⟩
  · exact (hex.hoStart (by simp [nextMark,Call.mark,Mark.passing])).2
  · exact (hex.fresh (by simp [nextMark,Call.mark,Mark.passing])).2

/-- While an assignment runs. -/
theorem procedures_exclusive_assignment :
    ∃ s k, Reachable sdcchAndTch (fun _ _ => True) s ∧ s.Quiescent ∧ s.state.conn 0 = some k
      ∧ k.fi = .assignment ∧ k.assignmentFi ≠ none ∧ k.hoFi = none := by
  have hrun : ∃ s, run (step sdcchAndTch) initial (moves 40 (connOnSdcch ++ [assignTch .sign])) = .ok s
      ∧ s.Quiescent ∧ (s.state.conn 0).map (·.fi) = some .assignment := by
    decide +kernel
  obtain ⟨s,hs,hq,hfi⟩ := hrun
  obtain ⟨k,hk,hfi⟩ := Option.map_eq_some_iff.mp hfi
  have hreach : Reachable sdcchAndTch (fun _ _ => True) s :=
    Reach.of_run (.start rfl) (.of_forall (fun _ _ => trivial) _ _) hs
  exact ⟨s,k,hreach,hq,hk,hfi,((procedures_exclusive hreach hk).1 hq).2.1 hfi⟩

end Runs

end OsmoBsc.Chan
