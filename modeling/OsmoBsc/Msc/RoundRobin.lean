import Mathlib.Logic.Function.Basic
import OsmoBsc.Lib.Recency
import OsmoBsc.Paging.Model
set_option autoImplicit false

/-! Which MSC a new connection goes to. -/

namespace OsmoBsc.Msc
open Recency

/-- `enum` of the types of an MSC. -/
inductive MscConType where
  | normal
  | local
  deriving DecidableEq, Repr

/-- The fields of `struct bsc_msc_data` that the choice depends on. -/
structure MscData where
  isAuthenticated : Bool := false
  type : MscConType := .normal
  allowEmerg : Bool := true
  deriving DecidableEq, Repr

/-- The MSCs in the order of `mscs`, by their numbers. -/
structure Bsc where
  mscs : List Nat := []
  data : Nat → MscData := fun _ => {}

def Bsc.mscDataAlloc (bsc : Bsc) (nr : Nat) : Bsc :=
  if nr ∈ bsc.mscs then bsc else { mscs := bsc.mscs ++ [nr], data := Function.update bsc.data nr {} }

/-- is_cm_service_for_emerg(): the header has two octets and the request six. -/
def isCmServiceForEmerg (l3 : List UInt8) : Bool :=
  if l3.length < 2 + 6 then false else l3.getD 2 0 &&& 0x0f == 2

/-- What bsc_find_msc() makes of a message; the message type of a header is a function of its octets. -/
inductive Wanted where
  | paging
  | roundRobin (isEmerg : Bool)
  deriving DecidableEq, Repr

def wanted (hdrMsgType : UInt8 → UInt8 → UInt8) : List UInt8 → Option Wanted
  | pd :: mt :: body =>
    let pdisc := pd &&& 0x0f
    let mtype := hdrMsgType pd mt
    if pdisc == 0x06 && mtype == 0x27 then some .paging
    else if pdisc == 0x05 && mtype == 0x24 then some (.roundRobin (isCmServiceForEmerg (pd :: mt :: body)))
    else some (.roundRobin false)
  | _ => none

/-- paging_get_msc(), in the pending requests of the BTS. -/
def pagingGetMsc (pending : List Paging.Request) (bsub : Paging.SubscrId) : Option Nat :=
  (pending.find? fun req => req.bsub == bsub).map (·.msc)

/-- What the loop `round_robin` does not skip. -/
def MscData.eligible (msc : MscData) (isEmerg : Bool) : Bool :=
  if !msc.isAuthenticated then false
  else if !isEmerg && msc.type ≠ .normal then false
  else if isEmerg && !msc.allowEmerg then false
  else true

def Bsc.take (bsc : Bsc) : Option Nat → Bsc × Option Nat
  | none => (bsc,none)
  | some msc => ({ bsc with mscs := touch bsc.mscs msc },some msc)

/-- The initial message of a new connection, the paging requests of its BTS and the subscriber that extract_sub()
finds for a paging response. -/
structure Request where
  l3 : List UInt8
  pending : List Paging.Request := []
  subscr : Option Paging.SubscrId := none
  deriving DecidableEq, Repr

def Bsc.findMsc (hdrMsgType : UInt8 → UInt8 → UInt8) (bsc : Bsc) (r : Request) : Bsc × Option Nat :=
  match wanted hdrMsgType r.l3 with
  | none => (bsc,none)
  | some (.roundRobin isEmerg) => bsc.take (bsc.mscs.find? fun msc => (bsc.data msc).eligible isEmerg)
  | some .paging => match r.subscr with
    | none => (bsc,none)
    | some bsub => bsc.take (bsc.mscs.find? fun msc => some msc == pagingGetMsc r.pending bsub)

inductive Input where
  | complL3 (r : Request)
  | mscDataAlloc (nr : Nat)
  | configure (nr : Nat) (data : MscData)
  deriving DecidableEq, Repr

def step (hdrMsgType : UInt8 → UInt8 → UInt8) (bsc : Bsc) : Input → Bsc × Option Nat
  | .complL3 r => bsc.findMsc hdrMsgType r
  | .mscDataAlloc nr => (bsc.mscDataAlloc nr,none)
  | .configure nr data => ({ bsc with data := Function.update bsc.data nr data },none)

def run (hdrMsgType : UInt8 → UInt8 → UInt8) (bsc : Bsc) : List Input → Bsc × List Nat
  | [] => (bsc,[])
  | i :: is =>
    let (bsc,chosen) := step hdrMsgType bsc i
    let (bsc,rest) := run hdrMsgType bsc is
    (bsc,chosen.toList ++ rest)

section Order

variable {hdrMsgType : UInt8 → UInt8 → UInt8} {bsc bsc' : Bsc} {a b : Nat}

/-- Only the MSC that is chosen changes its place, and new ones come last. -/
inductive Moves (bsc : Bsc) : Bsc → Option Nat → Prop where
  | chosen {msc : Nat} : msc ∈ bsc.mscs → Moves bsc { bsc with mscs := touch bsc.mscs msc } (some msc)
  | added {nr : Nat} {bsc' : Bsc} : nr ∉ bsc.mscs → bsc'.mscs = bsc.mscs ++ [nr] → Moves bsc bsc' none
  | same {bsc' : Bsc} : bsc'.mscs = bsc.mscs → Moves bsc bsc' none

theorem take_moves {p : Nat → Bool} :
    Moves bsc (bsc.take (bsc.mscs.find? p)).1 (bsc.take (bsc.mscs.find? p)).2 := by
  cases hfind : bsc.mscs.find? p with
  | none => exact .same rfl
  | some msc => exact .chosen (List.mem_of_find?_eq_some hfind)

theorem step_moves (hdrMsgType : UInt8 → UInt8 → UInt8) (bsc : Bsc) (i : Input) :
    Moves bsc (step hdrMsgType bsc i).1 (step hdrMsgType bsc i).2 := by
  cases i with
  | complL3 r =>
    rw [step,Bsc.findMsc]
    split
    · exact .same rfl
    · exact take_moves
    · split
      · exact .same rfl
      · exact take_moves
  | mscDataAlloc nr =>
    rw [step,Bsc.mscDataAlloc]
    split
    · exact .same rfl
    · rename_i hnew
      exact .added hnew rfl
  | configure nr data => exact .same rfl

theorem Moves.nodup {chosen : Option Nat} (h : Moves bsc bsc' chosen) (hn : bsc.mscs.Nodup) : bsc'.mscs.Nodup := by
  cases h with
  | chosen _ => exact touch_nodup hn
  | added hnew heq =>
    rw [heq,List.nodup_append]
    refine ⟨hn,List.nodup_singleton _,fun x hx y hy hxy => hnew ?_⟩
    rw [← List.mem_singleton.mp hy,← hxy]
    exact hx
  | same heq => rwa [heq]

theorem Moves.before {chosen : Option Nat} (h : Moves bsc bsc' chosen) (hb : Before bsc.mscs b a)
    (hne : b ∉ chosen) : Before bsc'.mscs b a := by
  cases h with
  | chosen _ => exact hb.touch fun heq => hne (heq ▸ rfl)
  | added _ heq =>
    rw [heq]
    exact hb.append
  | same heq => rwa [heq]

theorem Moves.before_chosen (h : Moves bsc bsc' (some a)) (hb : b ∈ bsc'.mscs) (hne : b ≠ a) :
    Before bsc'.mscs b a := by
  cases h with
  | chosen ha => exact before_touch ((mem_touch_iff ha).mp hb) hne

theorem run_before {is : List Input} (hn : bsc.mscs.Nodup) (hb : Before bsc.mscs b a)
    (hne : b ∉ (run hdrMsgType bsc is).2) : (run hdrMsgType bsc is).1.mscs.Nodup
      ∧ Before (run hdrMsgType bsc is).1.mscs b a := by
  induction is generalizing bsc with
  | nil => exact ⟨hn,hb⟩
  | cons i is ih =>
    have hmoves := step_moves hdrMsgType bsc i
    rw [run] at hne ⊢
    dsimp only at hne ⊢
    rw [List.mem_append,not_or] at hne
    refine ih (hmoves.nodup hn) (hmoves.before hb fun hc => hne.1 ?_) hne.2
    rw [Option.mem_toList]
    exact hc

theorem run_nodup {is : List Input} (hn : bsc.mscs.Nodup) : (run hdrMsgType bsc is).1.mscs.Nodup := by
  induction is generalizing bsc with
  | nil => exact hn
  | cons i is ih => exact ih ((step_moves hdrMsgType bsc i).nodup hn)

end Order

/-- Whatever connections come in and however the MSCs are configured meanwhile, an MSC has its next turn only
after each other MSC that was there at its last one and could have this turn was chosen, and a turn is lost only if
no MSC can have it. -/
theorem no_msc_skipped (hdrMsgType : UInt8 → UInt8 → UInt8) (pre mid : List Input) (i : Input) (r : Request)
    {isEmerg : Bool} (hr : wanted hdrMsgType r.l3 = some (.roundRobin isEmerg)) :
    let bsc := (run hdrMsgType {} pre).1
    let bsc1 := (step hdrMsgType bsc i).1
    let bsc2 := (run hdrMsgType bsc1 mid).1
    (∀ a, (step hdrMsgType bsc i).2 = some a → (bsc2.findMsc hdrMsgType r).2 = some a →
        ∀ b ∈ bsc1.mscs, (bsc2.data b).eligible isEmerg = true → b = a ∨ b ∈ (run hdrMsgType bsc1 mid).2)
      ∧ ((bsc2.findMsc hdrMsgType r).2 = none → ∀ b ∈ bsc2.mscs, (bsc2.data b).eligible isEmerg = false) := by
  intro bsc bsc1 bsc2
  have hn : bsc.mscs.Nodup := run_nodup List.nodup_nil
  have hmoves : Moves bsc bsc1 (step hdrMsgType bsc i).2 := step_moves hdrMsgType bsc i
  have hn1 : bsc1.mscs.Nodup := hmoves.nodup hn
  have hfind : (bsc2.findMsc hdrMsgType r).2 = bsc2.mscs.find? fun msc => (bsc2.data msc).eligible isEmerg := by
    rw [Bsc.findMsc,hr]
    dsimp only
    generalize bsc2.mscs.find? _ = found
    cases found <;> rfl
  rw [hfind]
  refine ⟨fun a hfirst hsecond b hb hel => ?_,fun hnone b hb => ?_⟩
  · by_contra hno
    rw [not_or] at hno
    rw [hfirst] at hmoves
    have hbefore : Before bsc1.mscs b a := hmoves.before_chosen hb hno.1
    obtain ⟨hn2,hbefore2⟩ := run_before hn1 hbefore hno.2
    exact hbefore2.find_ne hn2 hel hsecond
  · rw [← Bool.not_eq_true]
    exact List.find?_eq_none.mp hnone b hb

/-- A request without a message type that matters. -/
def plainRequest : Request := { l3 := [0x05,0x08] }

/-- The second of two MSCs has its turn before the first one has its next. -/
theorem no_msc_skipped_two :
    let pre : List Input := [.mscDataAlloc 0,.mscDataAlloc 1,.configure 0 ⟨true,.normal,true⟩,
      .configure 1 ⟨true,.normal,true⟩]
    let bsc1 := (step (fun _ mt => mt &&& 0x3f) (run (fun _ mt => mt &&& 0x3f) {} pre).1 (.complL3 plainRequest)).1
    1 ∈ (run (fun _ mt => mt &&& 0x3f) bsc1 [.complL3 plainRequest]).2 := by
  intro pre bsc1
  have hwanted : wanted (fun _ mt => mt &&& 0x3f) plainRequest.l3 = some (.roundRobin false) := rfl
  have hturns := (no_msc_skipped (fun _ mt => mt &&& 0x3f) pre [.complL3 plainRequest] (.complL3 plainRequest)
    plainRequest hwanted).1 0 (by decide) (by decide) 1 (by decide) (by decide)
  exact hturns.resolve_left (by decide)

end OsmoBsc.Msc
