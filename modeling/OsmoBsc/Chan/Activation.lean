import OsmoBsc.Chan.Run
set_option autoImplicit false

namespace OsmoBsc.Chan
open EventFsm

/-- What an lchan reports: the events for the assignment and the handover FSM
and the answers to the channel request of an MS. -/
inductive Report where
  | assignment (c : ConnId) (ev : AssignmentEvent)
  | handover (c : ConnId) (ev : HoEvent)
  | ms (m : Tx)
  deriving DecidableEq, Repr

/-- The report of lchan `l` that a call carries. -/
def Call.reports (l : LchanId) : Call → List Report
  | .assignmentDispatch c ev => match ev with
    | .lchanActive l' | .lchanEstablished l' | .lchanError l' =>
      if l' = l then [.assignment c ev] else []
    | _ => []
  | .hoDispatch c ev => match ev with
    | .lchanActive l' | .lchanEstablished l' | .lchanError l' =>
      if l' = l then [.handover c ev] else []
    | _ => []
  | _ => []

/-- The messages about lchan `l` for an MS that requested a channel, among
those sent between two states. -/
def msReports (l : LchanId) (w w' : Bsc) : List Report :=
  ((w'.sent.take (w'.sent.length - w.sent.length)).filter fun m =>
    decide (m = .immAssRej l) || decide (m = .immAssignment l)).map .ms

/-- What lchan `l` reports in the course of a run. -/
def laterReports (cfg : TsId → TsCfg) (l : LchanId) : Config → List Move → List Report
  | _, [] => []
  | c, m :: ms =>
    (match m, c.calls with
      | .call _, call :: _ => call.reports l
      | _, _ => [])
    ++ match step cfg c m with
      | .ok c' => msReports l c.state c'.state ++ laterReports cfg l c' ms
      | .error _ => []

/-- `lchan_activate` takes its abort branch. -/
def Refused (w : Bsc) (l : LchanId) (info : ActivateInfo) : Prop :=
  lchanActivate l info w = .ok (w,[.lchanOnActivationFailure l info.activFor info.forConn])

def owedMessage (l : LchanId) (info : ActivateInfo) : List Tx :=
  if info.activFor = .forMsChannelRequest then [.immAssRej l] else []

/-- The event that a refused procedure has to get, if its FSM is there. -/
def owedEvent (w : Bsc) (l : LchanId) (info : ActivateInfo) : List Report :=
  match info.activFor, info.forConn with
  | .forAssignment, some c =>
    if (w.conn c).any (·.assignmentFi.isSome) then [.assignment c (.lchanError l)] else []
  | .forHandover, some c =>
    if (w.conn c).any (·.hoFi.isSome) then [.handover c (.lchanError l)] else []
  | _, _ => []

/-- The request with its failure handling leaves the lchan and whatever it
reports later as they were, and tells the requester and nobody else. -/
def Harmless (cfg : TsId → TsCfg) (w : Bsc) (l : LchanId) (info : ActivateInfo) : Prop :=
  ∃ w' calls, run (step cfg) ⟨w,[.lchanActivate l info]⟩ [.call {},.call {}] = .ok ⟨w',calls⟩
    ∧ w'.lchan l = w.lchan l
    ∧ (∀ rest ms, laterReports cfg l ⟨w',rest⟩ ms = laterReports cfg l ⟨w,rest⟩ ms)
    ∧ w'.sent = owedMessage l info ++ w.sent
    ∧ calls.flatMap (·.reports l) = owedEvent w l info

/-- The requester counts on no signal: neither an MS nor a running procedure
waits for the lchan. -/
def NoSignalOwed (w : Bsc) (info : ActivateInfo) : Prop :=
  match info.activFor, info.forConn with
  | .forMsChannelRequest, _ => False
  | .forAssignment, some c => ∀ k, w.conn c = some k → k.assignmentFi = none
  | .forHandover, some c => ∀ k, w.conn c = some k → k.hoFi = none
  | _, _ => True

theorem Refused.run_eq {cfg : TsId → TsCfg} {w : Bsc} {l : LchanId} {info : ActivateInfo}
    (h : Refused w l info) :
    run (step cfg) ⟨w,[.lchanActivate l info]⟩ [.call {},.call {}] =
      (lchanOnActivationFailure l info.activFor info.forConn w).map fun r => ⟨r.1,r.2⟩ := by
  have h1 : step cfg ⟨w,[.lchanActivate l info]⟩ (.call {}) =
      .ok ⟨w,[.lchanOnActivationFailure l info.activFor info.forConn]⟩ := by
    simp only [step,Calls.step_call,exec]
    rw [h]
    rfl
  have h2 : step cfg ⟨w,[.lchanOnActivationFailure l info.activFor info.forConn]⟩ (.call {}) =
      (lchanOnActivationFailure l info.activFor info.forConn w).map fun r => ⟨r.1,r.2⟩ := by
    simp only [step,Calls.step_call,exec,List.append_nil]
    cases lchanOnActivationFailure l info.activFor info.forConn w <;> rfl
  simp only [run,h1,h2]
  cases lchanOnActivationFailure l info.activFor info.forConn w <;> rfl

theorem lchanOnActivationFailure_concludes {w w' : Bsc} {l : LchanId} {activFor : ActivFor}
    {forConn : Option ConnId} {calls : List Call} (hopen : (w.lchan l).concluded = false)
    (h : lchanOnActivationFailure l activFor forConn w = .ok (w',calls)) :
    (w'.lchan l).concluded = true := by
  simp only [lchanOnActivationFailure,hopen,Bool.false_eq_true,if_false] at h
  split at h
  · cases h
    split <;> simp [Bsc.updLchan,Bsc.send]
  · cases h
  · simp only [bind_eq_ok,pure_eq_ok] at h
    obtain ⟨_,_,h⟩ := h
    cases h
    simp [Bsc.updLchan]
  · cases h
    simp [Bsc.updLchan]
  · simp only [bind_eq_ok,pure_eq_ok] at h
    obtain ⟨_,_,h⟩ := h
    cases h
    simp [Bsc.updLchan]
  · cases h
    simp [Bsc.updLchan]

theorem noSignalOwed_iff (w : Bsc) (l : LchanId) (info : ActivateInfo) :
    NoSignalOwed w info ↔ owedMessage l info = [] ∧ owedEvent w l info = [] := by
  unfold NoSignalOwed owedMessage owedEvent
  split
  · rename_i h
    simp [h]
  · rename_i c h hc
    simp only [h,hc]
    cases w.conn c <;> simp
  · rename_i c h hc
    simp only [h,hc]
    cases w.conn c <;> simp
  · rename_i hm ha hh
    refine iff_of_true trivial ⟨?_,?_⟩
    · split
      · rename_i h
        exact absurd h hm
      · rfl
    · split
      · rename_i c h hc
        exact absurd hc (ha c h)
      · rename_i c h hc
        exact absurd hc (hh c h)
      · rfl

theorem Harmless.concluded {cfg : TsId → TsCfg} {w : Bsc} {l : LchanId} {info : ActivateInfo}
    (h : Refused w l info) (hh : Harmless cfg w l info) : (w.lchan l).concluded = true := by
  obtain ⟨w',calls,hrun,hsame,-⟩ := hh
  rw [h.run_eq] at hrun
  cases hf : lchanOnActivationFailure l info.activFor info.forConn w with
  | error e => simp [hf,Except.map] at hrun
  | ok r =>
    simp only [hf,Except.map,Except.ok.injEq,Calls.Config.mk.injEq] at hrun
    obtain ⟨rfl,rfl⟩ := hrun
    cases ho : (w.lchan l).concluded with
    | true => rfl
    | false =>
      have := lchanOnActivationFailure_concludes ho hf
      rw [hsame,ho] at this
      cases this

theorem Refused.of_busy {w : Bsc} {l : LchanId} (info : ActivateInfo)
    (h : (w.lchan l).stateIs .unused = false) : Refused w l info := by
  simp [Refused,lchanActivate,h]

/-- A refused activation is harmless exactly when the activation data of the
lchan is already concluded and the requester counts on no signal. -/
theorem refused_activation_harmless_iff (cfg : TsId → TsCfg) (w : Bsc) (l : LchanId)
    (info : ActivateInfo) (h : Refused w l info) :
    Harmless cfg w l info ↔ (w.lchan l).concluded = true ∧ NoSignalOwed w info := by
  have hf : (w.lchan l).concluded = true →
      run (step cfg) ⟨w,[.lchanActivate l info]⟩ [.call {},.call {}] = .ok ⟨w,[]⟩ := by
    intro hconcluded
    rw [h.run_eq]
    simp [lchanOnActivationFailure,hconcluded,Except.map]
  rw [noSignalOwed_iff w l]
  constructor
  · intro hh
    have hconcluded := Harmless.concluded h hh
    obtain ⟨w',calls,hrun,-,-,hsent,hcalls⟩ := hh
    rw [hf hconcluded] at hrun
    cases hrun
    refine ⟨hconcluded,?_,hcalls.symm⟩
    simpa using hsent
  · rintro ⟨hconcluded,hmessage,hevent⟩
    refine ⟨w,[],hf hconcluded,rfl,fun _ _ => rfl,?_,?_⟩
    · rw [hmessage]
      rfl
    · rw [hevent]
      rfl

/-- An established channel that another user asks for in vain stays as it is. -/
theorem refused_activation_harmless_established :
    let w : Bsc := { lchan := fun _ => { fi := some .established, concluded := true } }
    Refused w ⟨0,0⟩ { activFor := .forVty } ∧
      Harmless sdcchAndTch w ⟨0,0⟩ { activFor := .forVty } := by
  intro w
  have h : Refused w ⟨0,0⟩ { activFor := .forVty } := Refused.of_busy _ rfl
  exact ⟨h,(refused_activation_harmless_iff _ _ _ _ h).mpr ⟨rfl,trivial⟩⟩

/-- While an lchan is activated for an assignment, a channel request for it is
refused. The assignment FSM then never hears that the lchan is established. -/
theorem refused_activation_loses_established :
    ∃ c, run (step sdcchAndTch) initial (moves 40 (connOnSdcch ++ [assignTch .sign])) = .ok c
      ∧ c.Quiescent ∧ Refused c.state ⟨1,0⟩ { activFor := .forMsChannelRequest }
      ∧ ¬ Harmless sdcchAndTch c.state ⟨1,0⟩ { activFor := .forMsChannelRequest }
      ∧ ∃ c', run (step sdcchAndTch)
          ⟨c.state,[.lchanActivate ⟨1,0⟩ { activFor := .forMsChannelRequest }]⟩
          [.call {},.call {}] = .ok c'
        ∧ laterReports sdcchAndTch ⟨1,0⟩ ⟨c.state,[]⟩
            (moves 9 [.chanActivAck ⟨1,0⟩,.estInd ⟨1,0⟩ 0 none 0 true]) =
          [.assignment 0 (.lchanActive ⟨1,0⟩),.assignment 0 (.lchanEstablished ⟨1,0⟩)]
        ∧ laterReports sdcchAndTch ⟨1,0⟩ ⟨c'.state,[]⟩
            (moves 9 [.chanActivAck ⟨1,0⟩,.estInd ⟨1,0⟩ 0 none 0 true]) =
          [.assignment 0 (.lchanActive ⟨1,0⟩)] := by
  have hrun : ∃ c, run (step sdcchAndTch) initial
        (moves 40 (connOnSdcch ++ [assignTch .sign])) = .ok c
      ∧ c.Quiescent ∧ (c.state.lchan ⟨1,0⟩).stateIs .unused = false
      ∧ (c.state.lchan ⟨1,0⟩).concluded = false
      ∧ ∃ c', run (step sdcchAndTch)
          ⟨c.state,[.lchanActivate ⟨1,0⟩ { activFor := .forMsChannelRequest }]⟩
          [.call {},.call {}] = .ok c'
        ∧ laterReports sdcchAndTch ⟨1,0⟩ ⟨c.state,[]⟩
            (moves 9 [.chanActivAck ⟨1,0⟩,.estInd ⟨1,0⟩ 0 none 0 true]) =
          [.assignment 0 (.lchanActive ⟨1,0⟩),.assignment 0 (.lchanEstablished ⟨1,0⟩)]
        ∧ laterReports sdcchAndTch ⟨1,0⟩ ⟨c'.state,[]⟩
            (moves 9 [.chanActivAck ⟨1,0⟩,.estInd ⟨1,0⟩ 0 none 0 true]) =
          [.assignment 0 (.lchanActive ⟨1,0⟩)] := by
    decide +kernel
  obtain ⟨c,hc,hq,hbusy,hopen,hreports⟩ := hrun
  have hrefused := Refused.of_busy { activFor := .forMsChannelRequest } hbusy
  refine ⟨c,hc,hq,hrefused,?_,hreports⟩
  intro hh
  have := Harmless.concluded hrefused hh
  rw [hopen] at this
  cases this

end OsmoBsc.Chan
