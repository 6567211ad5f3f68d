import OsmoBsc.Nm.Software
import Mathlib.Data.List.TakeWhile
set_option autoImplicit false

namespace OsmoBsc.Nm
open EventFsm Calls

/-- A load starts with nothing left from the one before: only its own file is open, at its
start, and no segment was sent. -/
structure Sw.Fresh (sw : Sw) : Prop where
  lastSeg : sw.lastSeg = false
  segInWindow : sw.segInWindow = 0
  openFiles : sw.openFiles = 1
  rest : sw.rest = sw.file
  segs : sw.segs = []
  unacked : sw.unacked = 0

structure Sw.Delivered (sw : Sw) : Prop where
  content : sw.segs.flatten = sw.file
  unacked : sw.unacked = 0

/-- In the middle of a file for a BTS of type `type`. -/
structure Sw.Loading (sw : Sw) (type : BtsType) : Prop where
  content : sw.segs.flatten ++ sw.rest = sw.file
  last : sw.lastSeg = true → sw.rest = []
  count : sw.lastSeg = false → sw.unacked = sw.segInWindow
  window : sw.unacked ≤ sw.windowSize.toNat
  text : type = .bs11 → 0 ∉ sw.rest

section Segments

variable {type : BtsType} {rest data rest' : List UInt8}

theorem readSegment_append (h : readSegment type rest = some (data,rest')) : data ++ rest' = rest := by
  unfold readSegment at h
  split at h
  · split at h
    · cases h
    · cases h
      exact List.take_append_drop _ _
  · cases h
    exact List.take_append_drop _ _
  · cases h
  · cases h

theorem readSegment_short (h : readSegment .nanobts rest = some (data,rest'))
    (hlen : data.length ≠ ipaccSegmentSize) : rest' = [] := by
  cases h
  rw [List.drop_eq_nil_iff]
  rw [List.length_take] at hlen
  omega

theorem carried_eq (h : type = .bs11 → 0 ∉ data) : carried type data = data := by
  unfold carried
  split
  · rename_i ht
    rw [List.takeWhile_eq_self_iff]
    intro x hx
    have h0 := h ht
    simp only [decide_eq_true_eq]
    rintro rfl
    exact h0 hx
  · rfl

end Segments

theorem Sw.Loading.segment {net : Net} {type : BtsType} {data rest : List UInt8}
    (h : net.sw.Loading type) (ht : (net.bts net.sw.bts).type = type) (hlast : net.sw.lastSeg = false)
    (hw : net.sw.segInWindow < net.sw.windowSize.toNat)
    (hread : readSegment type net.sw.rest = some (data,rest)) :
    (swLoadSegment net data rest).sw.Loading type := by
  have happ := readSegment_append hread
  have htext : type = .bs11 → 0 ∉ data ∧ 0 ∉ rest := by
    intro hbs
    have h0 := h.text hbs
    rw [← happ,List.mem_append] at h0
    exact ⟨fun hd => h0 (.inl hd),fun hr => h0 (.inr hr)⟩
  have hcount := h.count hlast
  unfold swLoadSegment
  simp only [ht,Net.updBts_sw]
  refine ⟨?_,?_,?_,?_,fun hbs => (htext hbs).2⟩
  · rw [carried_eq fun hbs => (htext hbs).1,List.flatten_append,List.append_assoc]
    simpa [happ] using h.content
  · intro hl
    dsimp only at hl ⊢
    split at hl
    · simpa using hl
    · rename_i hbs
      cases type with
      | bs11 => exact absurd rfl hbs
      | nanobts =>
        refine readSegment_short hread ?_
        simpa [hlast] using hl
      | osmobts => cases hread
      | other => cases hread
  · intro hl
    dsimp only at hl ⊢
    rw [if_neg (by rw [hl]; simp),hcount]
  · show net.sw.unacked + 1 ≤ net.sw.windowSize.toNat
    omega

/-- A load that is begun is the first since the last segment of another one was sent, while
no file is open; for a BS-11 the file is a text. -/
structure Load.Clean (l : Load) (net : Net) (f : File) : Prop where
  lastSeg : net.sw.lastSeg = false
  openFiles : net.sw.openFiles = 0
  text : (net.bts l.bts).type = .bs11 → 0 ∉ f.content

/-- `abis_nm_software_load` is called for a clean load only, or is refused. -/
def StartsClean (c : Config) (_ : Move) : Prop :=
  ∀ l f rest, c.calls = .api (.softwareLoad l) :: rest → c.state.sw.state = .none →
    l.file = some f → f.headerOk = true → l.Clean c.state f

section Run

variable {type : BtsId → BtsType} {net net' : Net} {sw : Sw} {acts : List Api} {tail : List Call}

/-- What holds of the load in each state. -/
def Sw.Settled (sw : Sw) (type : BtsId → BtsType) : Prop :=
  match sw.state with
  | .none | .waitActack => sw.unacked = 0 ∧ sw.segInWindow = 0
  | .waitInitack => sw.Fresh ∧ sw.Loading (type sw.bts)
  | .waitSegack => sw.Loading (type sw.bts)
  | .waitEndack => sw.Delivered ∧ sw.segInWindow = 0
  | .error => sw.unacked = 0

def Sw.InFile (sw : Sw) : Prop := sw.state = .waitInitack ∨ sw.state = .waitSegack

theorem Sw.InFile.ne_none (h : sw.InFile) : sw.state ≠ .none := by
  rcases h with h | h <;> simp [h]

/-- What is left to do for a message, and what holds of the load meanwhile. -/
inductive Phase (type : BtsId → BtsType) (sw : Sw) : List Call → Prop where
  | nothing : sw.Settled type → Phase type sw []
  | next (b : BtsId) : sw.Settled type → Phase type sw [.queueSendNext b]
  | fill (b : BtsId) : sw.InFile → sw.Loading (type sw.bts) → sw.lastSeg = false →
      Phase type sw [.swFillWindow,.swState .waitSegack,.queueSendNext b]
  | filled (b : BtsId) : sw.InFile → sw.Loading (type sw.bts) →
      Phase type sw [.swState .waitSegack,.queueSendNext b]
  | failed (b : BtsId) : sw.InFile → sw.unacked = 0 →
      Phase type sw [.swState .error,.queueSendNext b]
  | segAck (b : BtsId) : sw.InFile → sw.Loading (type sw.bts) → Phase type sw [.swSegAck b]

def Net.Typed (net : Net) (type : BtsId → BtsType) : Prop := ∀ b, (net.bts b).type = type b

theorem typed_update (h : net.Typed type) {b : BtsId} {bts : Bts}
    (hb : net'.bts = Function.update net.bts b bts) (ht : bts.type = (net.bts b).type) : net'.Typed type := by
  intro b'
  rw [hb]
  by_cases he : b' = b
  · subst he
    rw [Function.update_self,ht]
    exact h b'
  · rw [Function.update_of_ne he]
    exact h b'

@[simp] theorem queueMsg_type (bts : Bts) (m : Msg) : (bts.queueMsg m).type = bts.type := by
  unfold Bts.queueMsg
  split <;> rfl

theorem settled_of_none (h : sw.unacked = 0 ∧ sw.segInWindow = 0) (hs : sw.state = .none) :
    sw.Settled type := by
  simp only [Sw.Settled,hs]
  exact h

theorem execApi_typed (a : Api) (h : net.Typed type) : (execApi a net).Typed type := by
  cases a with
  | sendmsg b m => exact typed_update h rfl (queueMsg_type _ _)
  | sendmsgDirect b m => exact typed_update h rfl (queueMsg_type _ _)
  | softwareLoad l =>
    rw [execApi,abisNmSoftwareLoad]
    split
    · exact h
    · dsimp only
      split
      · split
        · exact h
        · split
          · exact typed_update h rfl (queueMsg_type _ _)
          · exact h
      · exact h
  | softwareActivate b file =>
    rw [execApi,abisNmSoftwareActivate]
    split
    · exact h
    · dsimp only
      split
      · exact h
      · split
        · split
          · exact typed_update h rfl (queueMsg_type _ _)
          · exact h
        · exact h

theorem execApi_settled (a : Api) (ht : net.Typed type) (h : net.sw.Settled type)
    (hclean : ∀ l f, a = .softwareLoad l → net.sw.state = .none → l.file = some f →
      f.headerOk = true → l.Clean net f) : (execApi a net).sw.Settled type := by
  by_cases hs : net.sw.state = .none
  · have h0 : net.sw.unacked = 0 ∧ net.sw.segInWindow = 0 := by
      simpa only [Sw.Settled,hs] using h
    cases a with
    | sendmsg b m => exact h
    | sendmsgDirect b m => exact h
    | softwareLoad l =>
      rw [execApi,abisNmSoftwareLoad,if_neg (by simp [hs])]
      dsimp only
      split
      · split
        · exact settled_of_none h0 hs
        · rename_i f hf
          split
          · rename_i hok
            have hc := hclean l f rfl hs hf hok
            refine ⟨⟨hc.lastSeg,h0.2,?_,rfl,rfl,rfl⟩,?_⟩
            · show net.sw.openFiles + 1 = 1
              rw [hc.openFiles]
            · refine ⟨rfl,?_,fun _ => h0.2.symm,Nat.zero_le _,?_⟩
              · intro hl
                exact absurd hl (by simp [Net.updBts,hc.lastSeg])
              · intro hbs
                exact hc.text ((ht l.bts).trans hbs)
          · exact settled_of_none h0 hs
      · exact settled_of_none h0 hs
    | softwareActivate b file =>
      rw [execApi,abisNmSoftwareActivate,if_neg (by simp [hs])]
      dsimp only
      split
      · exact settled_of_none h0 hs
      · split
        · split
          · exact h0
          · exact settled_of_none h0 hs
        · exact settled_of_none h0 hs
  · rw [execApi_sw a hs]
    exact h

theorem Phase.api (h : Phase type net.sw tail) (a : Api) (ht : net.Typed type)
    (hclean : ∀ l f, a = .softwareLoad l → net.sw.state = .none → l.file = some f →
      f.headerOk = true → l.Clean net f) : Phase type (execApi a net).sw tail := by
  cases h with
  | nothing hs => exact .nothing (execApi_settled a ht hs hclean)
  | next b hs => exact .next b (execApi_settled a ht hs hclean)
  | fill b hne hl hlast => exact execApi_sw a hne.ne_none ▸ .fill b hne hl hlast
  | filled b hne hl => exact execApi_sw a hne.ne_none ▸ .filled b hne hl
  | failed b hne h0 => exact execApi_sw a hne.ne_none ▸ .failed b hne h0
  | segAck b hne hl => exact execApi_sw a hne.ne_none ▸ .segAck b hne hl

theorem swFillWindow_phase (readFails : Bool) {b : BtsId} (ht : net.Typed type) (hne : net.sw.InFile)
    (hl : net.sw.Loading (type net.sw.bts)) (hlast : net.sw.lastSeg = false) :
    (swFillWindow readFails net).1.Typed type ∧ Phase type (swFillWindow readFails net).1.sw
      ((swFillWindow readFails net).2 ++ [Call.swState .waitSegack,.queueSendNext b]) := by
  unfold swFillWindow
  split
  · rename_i hw
    split
    · exact ⟨ht,.filled b hne hl⟩
    · split
      · exact ⟨ht,.filled b hne hl⟩
      · rename_i data rest hread
        have htype := ht net.sw.bts
        rw [htype] at hread
        have hl' := hl.segment htype hlast hw hread
        have ht' : (swLoadSegment net data rest).Typed type := typed_update ht rfl (queueMsg_type _ _)
        dsimp only
        split
        · exact ⟨ht',.filled b hne hl'⟩
        · rename_i hlast'
          exact ⟨ht',.fill b hne hl' (by simpa using hlast')⟩
  · exact ⟨ht,.filled b hne hl⟩

theorem swSegAck_phase {b : BtsId} (ht : net.Typed type) (hne : net.sw.InFile)
    (hl : net.sw.Loading (type net.sw.bts)) :
    (swSegAck b net).1.Typed type ∧ Phase type (swSegAck b net).1.sw (swSegAck b net).2 := by
  unfold swSegAck
  dsimp only
  split
  · rename_i hlast
    refine ⟨ht,.fill b hne ⟨hl.content,hl.last,fun _ => rfl,Nat.zero_le _,hl.text⟩ ?_⟩
    simpa using hlast
  · rename_i hlast
    refine ⟨typed_update ht rfl (queueMsg_type _ _),.next b ⟨⟨?_,rfl⟩,rfl⟩⟩
    have hrest := hl.last (by simpa using hlast)
    have hc := hl.content
    rw [hrest,List.append_nil] at hc
    exact hc

theorem abisNmRcvmsgSw_phase (b : BtsId) (mt : MsgType) (acts : List Api) (h : net.sw.Settled type) :
    ∃ (acts' : List Api) (tail : List Call), (abisNmRcvmsgSw b mt (acts.map .api) net).2 = acts'.map .api ++ tail ∧
      Phase type (abisNmRcvmsgSw b mt (acts.map .api) net).1.sw tail := by
  have hnone : ∃ (acts' : List Api) (tail : List Call), [] = acts'.map .api ++ tail ∧
      Phase type net.sw tail :=
    ⟨[],[],rfl,.nothing h⟩
  unfold abisNmRcvmsgSw
  unfold Sw.Settled at h
  cases hst : net.sw.state with
  | none => exact hnone
  | error => exact hnone
  | waitInitack =>
    rw [hst] at h
    have hne : net.sw.InFile := .inl hst
    cases mt with
    | loadInitAck => exact ⟨acts,_,rfl,.fill b hne h.2 h.1.lastSeg⟩
    | loadInitNack =>
      dsimp only
      split
      · exact ⟨acts,_,rfl,.fill b hne h.2 h.1.lastSeg⟩
      · exact ⟨acts,_,rfl,.failed b hne h.1.unacked⟩
    | _ => exact hnone
  | waitSegack =>
    rw [hst] at h
    cases mt with
    | loadSegAck => exact ⟨acts,_,rfl,.segAck b (.inr hst) h⟩
    | loadAbort =>
      refine ⟨acts,[],by simp,.nothing ?_⟩
      rw [Sw.Settled,hst]
      exact h
    | _ => exact hnone
  | waitEndack =>
    rw [hst] at h
    cases mt with
    | loadEndAck => exact ⟨acts,_,rfl,.next b ⟨h.1.unacked,h.2⟩⟩
    | loadEndNack =>
      refine ⟨acts,_,rfl,.next b ?_⟩
      unfold Sw.Settled Net.swState
      cases net.sw.forced with
      | true => exact ⟨h.1.unacked,h.2⟩
      | false => exact h.1.unacked
    | _ => exact hnone
  | waitActack =>
    rw [hst] at h
    cases mt with
    | activateSwAck => exact ⟨acts,_,rfl,.next b h⟩
    | activateSwNack => exact ⟨acts,_,rfl,.next b h.1⟩
    | _ => exact hnone

theorem abisNmRcvmsg_phase (b : BtsId) (r : Rx) (acts : List Api) (ht : net.Typed type)
    (h : net.sw.Settled type) : (abisNmRcvmsg b r (acts.map .api) net).1.Typed type ∧
      ∃ (acts' : List Api) (tail : List Call), (abisNmRcvmsg b r (acts.map .api) net).2 = acts'.map .api ++ tail ∧
        Phase type (abisNmRcvmsg b r (acts.map .api) net).1.sw tail := by
  have ht' : (net.updBts b (·.receive r)).Typed type := typed_update ht rfl rfl
  refine ⟨?_,?_⟩
  · intro b'
    rw [abisNmRcvmsg_bts]
    exact ht' b'
  · unfold abisNmRcvmsg
    dsimp only
    split
    · split
      · exact ⟨acts,_,rfl,.next b h⟩
      · exact ⟨acts,_,rfl,.next b h⟩
      · exact ⟨[],[],rfl,.nothing h⟩
      · exact ⟨[],[],rfl,.nothing h⟩
    · split
      · exact ⟨acts,[],by simp,.nothing h⟩
      · split
        · exact abisNmRcvmsgSw_phase b r.mt acts h
        · exact ⟨acts,_,rfl,.next b h⟩

def LoadInv (type : BtsId → BtsType) (net : Net) (calls : List Call) : Prop :=
  net.Typed type ∧ ((∃ b r acts, calls = [.rcvmsg b r acts] ∧ net.sw.Settled type) ∨
    ∃ (acts : List Api) (tail : List Call), calls = acts.map .api ++ tail ∧ Phase type net.sw tail)

theorem Phase.step {call : Call} {readFails : Bool} {new : List Call} (ht : net.Typed type)
    (h : Phase type net.sw (call :: tail)) (he : exec call readFails net = .ok (net',new)) :
    net'.Typed type ∧ Phase type net'.sw (new ++ tail) := by
  generalize hcalls : call :: tail = calls at h
  cases h with
  | nothing hs => cases hcalls
  | next b hs =>
    cases hcalls
    cases he
    exact ⟨typed_update ht rfl rfl,.nothing hs⟩
  | fill b hne hl hlast =>
    cases hcalls
    have hfill := swFillWindow_phase readFails (b := b) ht hne hl hlast
    rwa [show swFillWindow readFails net = (net',new) from Except.ok.inj he] at hfill
  | filled b hne hl =>
    cases hcalls
    cases he
    exact ⟨ht,.next b ⟨hl.content,hl.last,hl.count,hl.window,hl.text⟩⟩
  | failed b hne h0 =>
    cases hcalls
    cases he
    exact ⟨ht,.next b h0⟩
  | segAck b hne hl =>
    cases hcalls
    have hack := swSegAck_phase (b := b) ht hne hl
    rw [show swSegAck b net = (net',new) from Except.ok.inj he] at hack
    rwa [List.append_nil]

theorem LoadInv.quiescent (h : LoadInv type net []) : net.sw.Settled type := by
  rcases h.2 with ⟨_,_,_,h,_⟩ | ⟨acts,tail,h,hphase⟩
  · cases h
  · obtain ⟨_,rfl⟩ := List.append_eq_nil_iff.mp h.symm
    cases hphase with
    | nothing hs => exact hs

theorem Reachable.load {c : Config} (h : Reachable type StartsClean c) : LoadInv type c.state c.calls := by
  refine reach_invariant ?_ ?_ ?_ h
  · rintro c rfl
    exact ⟨fun _ => rfl,.inr ⟨[],[],rfl,.nothing ⟨rfl,rfl⟩⟩⟩
  · intro net i hinv _
    cases i with
    | api a => exact ⟨hinv.1,.inr ⟨[a],[],rfl,.nothing hinv.quiescent⟩⟩
    | rcvmsg b r acts => exact ⟨hinv.1,.inl ⟨b,r,acts,rfl,hinv.quiescent⟩⟩
  · rintro net call rest readFails net' new ⟨ht,hinv⟩ hgood he
    rcases hinv with ⟨b,r,acts,h,hs⟩ | ⟨acts,tail,h,hphase⟩
    · cases h
      obtain ⟨ht',acts',tail,hcalls,hphase⟩ := abisNmRcvmsg_phase b r acts ht hs
      rw [show abisNmRcvmsg b r (acts.map .api) net = (net',new) from Except.ok.inj he]
        at ht' hcalls hphase
      exact ⟨ht',.inr ⟨acts',tail,by simpa using hcalls,hphase⟩⟩
    · cases acts with
      | nil =>
        obtain rfl : call :: rest = tail := h
        obtain ⟨ht',hphase'⟩ := hphase.step ht he
        exact ⟨ht',.inr ⟨[],_,rfl,hphase'⟩⟩
      | cons a acts =>
        cases h
        cases he
        refine ⟨execApi_typed a ht,.inr ⟨acts,tail,rfl,hphase.api a ht ?_⟩⟩
        rintro l f rfl hs hf hok
        exact hgood l f _ rfl hs hf hok

theorem Sw.Settled.window (h : sw.Settled type) : sw.unacked ≤ sw.windowSize.toNat := by
  unfold Sw.Settled at h
  split at h
  · omega
  · omega
  · exact h.2.window
  · exact h.window
  · have := h.1.unacked
    omega
  · omega

end Run

/-- In a run in which every load starts clean, no more than a window of segments is without
acknowledgement at any time, LOAD END is sent when the segments since LOAD INIT were the file
and all of them are acknowledged, and every load starts with nothing left from another one: no
segment and no acknowledgement, and, as `StartsClean` asks, neither `last_seg` nor an open file. -/
theorem abisNmSoftwareLoad_delivers {type : BtsId → BtsType} {c : Config} (h : Reachable type StartsClean c) :
    c.state.sw.unacked ≤ c.state.sw.windowSize.toNat ∧
    (c.state.sw.state = .waitEndack → c.state.sw.Delivered) ∧
    (c.Quiescent → c.state.sw.state = .waitInitack → c.state.sw.Fresh) := by
  obtain ⟨net,calls⟩ := c
  obtain ⟨_,hinv⟩ := h.load
  refine ⟨?_,?_,?_⟩
  · rcases hinv with ⟨_,_,_,_,hs⟩ | ⟨_,_,_,hphase⟩
    · exact hs.window
    · cases hphase with
      | nothing hs => exact hs.window
      | next _ hs => exact hs.window
      | fill _ _ hl => exact hl.window
      | filled _ _ hl => exact hl.window
      | failed _ _ h0 => exact h0 ▸ Nat.zero_le _
      | segAck _ _ hl => exact hl.window
  · intro hst
    dsimp only at hst
    have hset : net.sw.Settled type → net.sw.Delivered := by
      intro hs
      rw [Sw.Settled,hst] at hs
      exact hs.1
    have hno : net.sw.InFile → net.sw.Delivered := by
      rintro (h | h) <;> cases hst.symm.trans h
    rcases hinv with ⟨_,_,_,_,hs⟩ | ⟨_,_,_,hphase⟩
    · exact hset hs
    · cases hphase with
      | nothing hs => exact hset hs
      | next _ hs => exact hset hs
      | fill _ hin => exact hno hin
      | filled _ hin => exact hno hin
      | failed _ hin => exact hno hin
      | segAck _ hin => exact hno hin
  · rintro rfl hst
    have hs := h.load.quiescent
    rw [Sw.Settled,hst] at hs
    exact hs.1

section Examples

instance (l : Load) (net : Net) (f : File) : Decidable (l.Clean net f) :=
  decidable_of_iff (net.sw.lastSeg = false ∧ net.sw.openFiles = 0 ∧
      ((net.bts l.bts).type = .bs11 → 0 ∉ f.content))
    ⟨fun h => ⟨h.1,h.2.1,h.2.2⟩,fun h => ⟨h.lastSeg,h.openFiles,h.text⟩⟩

instance (c : Config) (m : Move) : Decidable (StartsClean c m) :=
  match h : c.calls with
  | .api (.softwareLoad l) :: rest =>
    decidable_of_iff (∀ f, l.file = some f → c.state.sw.state = .none → f.headerOk = true →
        l.Clean c.state f) ⟨fun hc l' f rest' h' hs hf hok => by
      rw [h] at h'
      cases h'
      exact hc f hf hs hok,fun hc f hf hs hok => hc l f rest h hs hf hok⟩
  | [] | .api (.sendmsg _ _) :: _ | .api (.sendmsgDirect _ _) :: _ | .api (.softwareActivate _ _) :: _
  | .rcvmsg _ _ _ :: _ | .swSegAck _ :: _ | .swFillWindow :: _ | .swState _ :: _
  | .queueSendNext _ :: _ => isTrue fun _ _ _ h' => by simp [h] at h'

/-- A file for a nanoBTS: the header with the length `n`, and what follows it. -/
def sdpFile (n : UInt8) : File :=
  ⟨[32,83,68,80,16,2,0,0,0,0,0,16,0,0,0,n] ++ List.replicate (n.toNat - 16) 7,true⟩

def load (n : UInt8) : List Input :=
  [.api (.softwareLoad ⟨0,0,some (sdpFile n),2,false⟩),.rcvmsg 0 ⟨false,⟨4,0,0,0xff⟩,.loadInitAck⟩ [],
    .rcvmsg 0 ⟨false,⟨4,0,0,0xff⟩,.loadSegAck⟩ []]

def loadEndAck : Input := .rcvmsg 0 ⟨false,⟨4,0,0,0xff⟩,.loadEndAck⟩ []

theorem load_run : ∃ c, run (step exec enter) (initial fun _ => .nanobts) (moves 5 (load 250)) = .ok c ∧
    GoodRun (step exec enter) StartsClean (initial fun _ => .nanobts) (moves 5 (load 250)) ∧
    c.state.sw.state = .waitEndack ∧ c.state.sw.segs.length = 2 := by
  decide +kernel

/-- The first load delivers its file in two segments. -/
theorem abisNmSoftwareLoad_delivers_first : ∃ c, Reachable (fun _ => .nanobts) StartsClean c ∧
    c.state.sw.state = .waitEndack ∧ c.state.sw.segs.length = 2 ∧
    (c.state.sw.unacked ≤ c.state.sw.windowSize.toNat ∧
    (c.state.sw.state = .waitEndack → c.state.sw.Delivered) ∧
    (c.Quiescent → c.state.sw.state = .waitInitack → c.state.sw.Fresh)) := by
  obtain ⟨c,hrun,hgood,hst,hsegs⟩ := load_run
  have hreach : Reachable (fun _ => .nanobts) StartsClean c := Reach.of_run (.start rfl) hgood hrun
  exact ⟨c,hreach,hst,hsegs,abisNmSoftwareLoad_delivers hreach⟩

theorem second_load_run : ∃ c, run (step exec enter) (initial fun _ => .nanobts)
      (moves 5 (load 16 ++ loadEndAck :: load 250)) = .ok c ∧
    c.state.sw.state = .waitEndack ∧ c.state.sw.file.length = 250 ∧
    c.state.sw.segs.map List.length = [245] := by
  decide +kernel

/-- The second load ends after its first segment. -/
theorem abisNmSoftwareLoad_truncates : ∃ c, Reachable (fun _ => .nanobts) (fun _ _ => True) c ∧
    c.state.sw.state = .waitEndack ∧ ¬ c.state.sw.Delivered := by
  obtain ⟨c,hrun,hst,hfile,hsegs⟩ := second_load_run
  refine ⟨c,Reach.of_run (.start rfl) (.of_forall (fun _ _ => trivial) _ _) hrun,hst,?_⟩
  intro h
  have hlen := congrArg List.length h.content
  rw [List.length_flatten,hsegs,hfile] at hlen
  simp at hlen

end Examples

end OsmoBsc.Nm
