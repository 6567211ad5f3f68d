import OsmoBsc.Lib.Fsm
import OsmoBsc.Filter.Model
set_option autoImplicit false

namespace OsmoBsc.Subscr
open EventFsm

/-- `struct bsc_subscr *`. -/
abbrev Addr := Nat

structure BscSubscr where
  addr : Addr
  useCount : Int := 0
  imsi : Filter.Imsi := []
  tmsi : UInt32 := 0
  lac : Nat := 0
  deriving DecidableEq

/-- The list `bsc_subscribers`; `next` is where the next subscriber will be allocated. -/
structure Store where
  list : List BscSubscr := []
  next : Addr := 0
  deriving DecidableEq

def reservedTmsi : UInt32 := 0xffffffff

def imsiMaxDigits : Nat := 15

def intMax : Int := 2147483647

/-- The use count changes by `n`. -/
def BscSubscr.addUse (n : Int) (bsub : BscSubscr) : BscSubscr := { bsub with useCount := bsub.useCount + n }

@[simp] theorem BscSubscr.addUse_useCount (n : Int) (bsub : BscSubscr) :
    (bsub.addUse n).useCount = bsub.useCount + n := rfl

namespace Store

/-- What a pointer to a subscriber points to, unless it was freed. -/
def at? (st : Store) (a : Addr) : Option BscSubscr := st.list.find? (·.addr == a)

/-- A field of the subscriber at `a` is written. -/
def write (st : Store) (a : Addr) (f : BscSubscr → BscSubscr) : Store :=
  { st with list := st.list.map fun e => if e.addr = a then f e else e }

def bscSubscrAlloc (st : Store) : Store × Addr :=
  (⟨st.list ++ [{ addr := st.next }],st.next + 1⟩,st.next)

def bscSubscrFree (st : Store) (a : Addr) : Store :=
  { st with list := st.list.filter fun e => e.addr ≠ a }

def bscSubscrGet (st : Store) (a : Addr) : Except Fault Store :=
  match st.at? a with
  | none => .error .useAfterFree
  | some bsub =>
    if bsub.useCount < intMax then .ok (st.write a (BscSubscr.addUse 1))
    else .error .assertFailed

def bscSubscrPut (st : Store) (a : Addr) : Except Fault Store :=
  match st.at? a with
  | none => .error .useAfterFree
  | some bsub =>
    let st := st.write a (BscSubscr.addUse (-1))
    if bsub.useCount - 1 ≤ 0 then .ok (st.bscSubscrFree a) else .ok st

/-- A lookup: the subscriber that is found is returned with a reference. -/
def findBy (st : Store) (p : BscSubscr → Bool) : Except Fault (Store × Option Addr) :=
  match st.list.find? p with
  | none => .ok (st,none)
  | some bsub => do
    let st ← st.bscSubscrGet bsub.addr
    return (st,some bsub.addr)

def bscSubscrFindByImsi (st : Store) (imsi : Filter.Imsi) : Except Fault (Store × Option Addr) :=
  if imsi.isEmpty then .ok (st,none) else st.findBy (·.imsi == imsi)

def bscSubscrFindByTmsi (st : Store) (tmsi : UInt32) : Except Fault (Store × Option Addr) :=
  if tmsi = reservedTmsi then .ok (st,none) else st.findBy (·.tmsi == tmsi)

/-- osmo_strlcpy() keeps what fits in the field. -/
def bscSubscrSetImsi (st : Store) (a : Addr) (imsi : Filter.Imsi) : Store :=
  st.write a fun e => { e with imsi := imsi.take imsiMaxDigits }

def create (st : Store) (assign : Store → Addr → Store) : Except Fault (Store × Addr) := do
  let (st,a) := st.bscSubscrAlloc
  let st ← (assign st a).bscSubscrGet a
  return (st,a)

def bscSubscrFindOrCreateByImsi (st : Store) (imsi : Filter.Imsi) : Except Fault (Store × Addr) := do
  match ← st.bscSubscrFindByImsi imsi with
  | (st,some a) => return (st,a)
  | (st,none) => st.create fun st a => st.bscSubscrSetImsi a imsi

def bscSubscrFindOrCreateByTmsi (st : Store) (tmsi : UInt32) : Except Fault (Store × Addr) := do
  match ← st.bscSubscrFindByTmsi tmsi with
  | (st,some a) => return (st,a)
  | (st,none) => st.create fun st a => st.write a fun e => { e with tmsi }

def Live (st : Store) (a : Addr) : Prop := (st.at? a).isSome = true

def Below (st : Store) : Prop := ∀ e ∈ st.list, e.addr < st.next

theorem at?_write (st : Store) (a b : Addr) (f : BscSubscr → BscSubscr) (hf : ∀ e, (f e).addr = e.addr) :
    (st.write a f).at? b = (st.at? b).map fun e => if b = a then f e else e := by
  obtain ⟨list,next⟩ := st
  simp only [at?,write]
  induction list with
  | nil => rfl
  | cons e list ih =>
    have haddr : (if e.addr = a then f e else e).addr = e.addr := by
      split
      · exact hf e
      · rfl
    rw [List.map_cons,List.find?_cons,List.find?_cons,haddr,ih]
    cases hb : e.addr == b with
    | true =>
      have he : e.addr = b := by simpa using hb
      simp [he]
    | false => rfl

theorem at?_addUse (st : Store) (a b : Addr) (n : Int) :
    (st.write a (BscSubscr.addUse n)).at? b = (st.at? b).map fun e => if b = a then e.addUse n else e :=
  at?_write st a b _ fun _ => rfl

theorem at?_free (st : Store) (a b : Addr) :
    (st.bscSubscrFree a).at? b = if b = a then none else st.at? b := by
  obtain ⟨list,next⟩ := st
  simp only [at?,bscSubscrFree]
  induction list with
  | nil => simp
  | cons e list ih =>
    by_cases ha : e.addr = a
    · have hkeep : (e :: list).filter (fun e => e.addr ≠ a) = list.filter fun e => e.addr ≠ a := by
        simp [ha]
      rw [hkeep,ih,List.find?_cons]
      by_cases hb : b = a
      · simp [hb]
      · have he : (e.addr == b) = false := by simpa [ha] using Ne.symm hb
        simp [hb,he]
    · have hkeep : (e :: list).filter (fun e => e.addr ≠ a) =
          e :: list.filter fun e => e.addr ≠ a := by
        simp [ha]
      rw [hkeep,List.find?_cons,List.find?_cons,ih]
      cases he : e.addr == b with
      | true =>
        have hb : b ≠ a := by
          rintro rfl
          exact ha (by simpa using he)
        simp [hb]
      | false => rfl

theorem at?_alloc {st : Store} (h : st.Below) (b : Addr) :
    st.bscSubscrAlloc.1.at? b = if b = st.next then some { addr := st.next } else st.at? b := by
  have hnone : st.at? st.next = none := by
    rw [at?,List.find?_eq_none]
    intro e he
    have hlt := h e he
    simpa using Nat.ne_of_lt hlt
  simp only [at?,bscSubscrAlloc,List.find?_append] at hnone ⊢
  by_cases hb : b = st.next
  · subst hb
    simp [hnone]
  · simp [hb,Ne.symm hb]

theorem Below.write {st : Store} (h : st.Below) (a : Addr) {f : BscSubscr → BscSubscr}
    (hf : ∀ e, (f e).addr = e.addr) : (st.write a f).Below := by
  intro e he
  obtain ⟨e',he',rfl⟩ := List.mem_map.mp he
  have := h e' he'
  split
  · rw [hf]
    exact this
  · exact this

theorem Below.free {st : Store} (h : st.Below) (a : Addr) : (st.bscSubscrFree a).Below :=
  fun e he => h e (List.mem_filter.mp he).1

theorem Below.alloc {st : Store} (h : st.Below) : st.bscSubscrAlloc.1.Below := by
  intro e he
  simp only [bscSubscrAlloc,List.mem_append,List.mem_singleton] at he ⊢
  rcases he with he | rfl
  · exact Nat.lt_succ_of_lt (h e he)
  · exact Nat.lt_succ_self _

theorem live_of_mem {st : Store} {e : BscSubscr} (h : e ∈ st.list) : st.Live e.addr := by
  rw [Live,at?,List.find?_isSome]
  exact ⟨e,h,by simp⟩

end Store

section References

/-- One more reference to `a`. -/
def bump (a : Addr) (held : Addr → Nat) : Addr → Nat := fun b => held b + if b = a then 1 else 0

/-- Every live subscriber has as many references as are held, at least one, and no
reference is held to another. -/
structure Balanced (st : Store) (held : Addr → Nat) : Prop where
  below : st.Below
  live : ∀ a e, st.at? a = some e → e.useCount = held a ∧ 0 < held a
  freed : ∀ a, st.at? a = none → held a = 0

namespace Balanced

variable {st st' : Store} {held : Addr → Nat} {a : Addr}

theorem get (h : Balanced st held) (hg : st.bscSubscrGet a = .ok st') : Balanced st' (bump a held) := by
  simp only [Store.bscSubscrGet] at hg
  split at hg
  · cases hg
  · rename_i bsub hat
    split at hg
    · cases hg
      refine ⟨h.below.write a fun _ => rfl,?_,?_⟩
      · intro b e hb
        rw [Store.at?_addUse,Option.map_eq_some_iff] at hb
        obtain ⟨e0,he0,rfl⟩ := hb
        have hl := h.live b e0 he0
        by_cases hba : b = a
        · simp only [bump,hba,if_true,BscSubscr.addUse_useCount]
          rw [hba] at hl
          omega
        · simp only [bump,hba,if_false]
          omega
      · intro b hb
        rw [Store.at?_addUse,Option.map_eq_none_iff] at hb
        have hba : b ≠ a := by
          rintro rfl
          rw [hat] at hb
          cases hb
        simp [bump,hba,h.freed b hb]
    · cases hg

theorem put (h : Balanced st (bump a held)) (hp : st.bscSubscrPut a = .ok st') : Balanced st' held := by
  simp only [Store.bscSubscrPut] at hp
  split at hp
  · cases hp
  · rename_i bsub hat
    have hla := h.live a bsub hat
    simp only [bump,if_true] at hla
    split at hp
    · rename_i hlast
      cases hp
      have hzero : held a = 0 := by omega
      have hbelow : (st.write a (BscSubscr.addUse (-1))).Below := h.below.write a fun _ => rfl
      refine ⟨hbelow.free a,?_,?_⟩
      · intro b e hb
        rw [Store.at?_free] at hb
        split at hb
        · cases hb
        · rename_i hba
          rw [Store.at?_addUse,Option.map_eq_some_iff] at hb
          obtain ⟨e0,he0,rfl⟩ := hb
          have hl := h.live b e0 he0
          simpa [bump,hba] using hl
      · intro b hb
        by_cases hba : b = a
        · rw [hba,hzero]
        · rw [Store.at?_free,if_neg hba,Store.at?_addUse,
            Option.map_eq_none_iff] at hb
          have hf := h.freed b hb
          simpa [bump,hba] using hf
    · rename_i hmore
      cases hp
      refine ⟨h.below.write a fun _ => rfl,?_,?_⟩
      · intro b e hb
        rw [Store.at?_addUse,Option.map_eq_some_iff] at hb
        obtain ⟨e0,he0,rfl⟩ := hb
        have hl := h.live b e0 he0
        by_cases hba : b = a
        · subst hba
          rw [hat,Option.some.injEq] at he0
          subst he0
          simp only [if_true,BscSubscr.addUse_useCount]
          omega
        · simp only [bump,hba,if_false] at hl ⊢
          omega
      · intro b hb
        rw [Store.at?_addUse,Option.map_eq_none_iff] at hb
        have hf := h.freed b hb
        simp only [bump] at hf
        omega

theorem write (h : Balanced st held) (b : Addr) {f : BscSubscr → BscSubscr}
    (hf : ∀ e, (f e).addr = e.addr ∧ (f e).useCount = e.useCount) : Balanced (st.write b f) held := by
  refine ⟨h.below.write b fun e => (hf e).1,?_,?_⟩
  · intro c e hc
    rw [Store.at?_write st b c _ fun e => (hf e).1,Option.map_eq_some_iff] at hc
    obtain ⟨e0,he0,rfl⟩ := hc
    have hl := h.live c e0 he0
    split
    · rw [(hf e0).2]
      exact hl
    · exact hl
  · intro c hc
    rw [Store.at?_write st b c _ fun e => (hf e).1,Option.map_eq_none_iff] at hc
    exact h.freed c hc

theorem setImsi (h : Balanced st held) (b : Addr) (imsi : Filter.Imsi) :
    Balanced (st.bscSubscrSetImsi b imsi) held := h.write b fun _ => ⟨rfl,rfl⟩

theorem findBy (h : Balanced st held) {p : BscSubscr → Bool} {r : Option Addr}
    (hf : st.findBy p = .ok (st',r)) :
    (r = none ∧ st' = st) ∨ ∃ a, r = some a ∧ Balanced st' (bump a held) := by
  simp only [Store.findBy] at hf
  split at hf
  · cases hf
    exact .inl ⟨rfl,rfl⟩
  · rename_i bsub _
    simp only [bind_eq_ok,pure_eq_ok,Except.ok.injEq,Prod.mk.injEq] at hf
    obtain ⟨st1,hg,rfl,rfl⟩ := hf
    exact .inr ⟨bsub.addr,rfl,h.get hg⟩

theorem create (h : Balanced st held) {assign : Store → Addr → Store}
    (ha : ∀ st b, ∃ f, assign st b = st.write b f ∧
      ∀ e, (f e).addr = e.addr ∧ (f e).useCount = e.useCount)
    (hc : st.create assign = .ok (st',a)) : Balanced st' (bump a held) := by
  simp only [Store.create,bind_eq_ok,pure_eq_ok,Except.ok.injEq,Prod.mk.injEq] at hc
  obtain ⟨st1,hg,rfl,rfl⟩ := hc
  obtain ⟨f,hassign,hf⟩ := ha st.bscSubscrAlloc.1 st.next
  have hnext : st.bscSubscrAlloc.2 = st.next := rfl
  have hfree : held st.next = 0 := by
    apply h.freed
    rw [Store.at?,List.find?_eq_none]
    intro e he
    have hlt := h.below e he
    simpa using Nat.ne_of_lt hlt
  rw [hnext,hassign] at hg
  simp only [Store.bscSubscrGet] at hg
  split at hg
  · cases hg
  · split at hg
    · cases hg
      have hbelow := (h.below.alloc.write st.next fun e => (hf e).1)
      refine ⟨hbelow.write _ fun _ => rfl,?_,?_⟩
      · intro b e hb
        rw [Store.at?_addUse,Store.at?_write _ _ b _ fun e => (hf e).1,
          Store.at?_alloc h.below] at hb
        by_cases hbn : b = st.next
        · subst hbn
          simp only [if_true,Option.map_some,Option.some.injEq] at hb
          subst hb
          simp [bump,hnext,hfree,(hf { addr := st.next }).2]
        · simp only [hbn,if_false,Option.map_map,Option.map_eq_some_iff] at hb
          obtain ⟨e0,he0,rfl⟩ := hb
          have hl := h.live b e0 he0
          simpa [bump,hnext,hbn] using hl
      · intro b hb
        rw [Store.at?_addUse,Store.at?_write _ _ b _ fun e => (hf e).1,
          Store.at?_alloc h.below] at hb
        by_cases hbn : b = st.next
        · simp [hbn] at hb
        · simp only [hbn,if_false,Option.map_eq_none_iff] at hb
          simp [bump,hnext,hbn,h.freed b hb]
    · cases hg

end Balanced

end References

section Pointers

abbrev NoDangling {α : Type} (x : Except Fault α) : Prop := FaultsIn (· ≠ .useAfterFree) x

variable {st : Store} {a : Addr}

theorem Balanced.isLive {held : Addr → Nat} (h : Balanced st held) (ha : 0 < held a) : st.Live a := by
  cases hat : st.at? a with
  | none =>
    have := h.freed a hat
    omega
  | some e => simp [Store.Live,hat]

theorem noDangling_get (h : st.Live a) : NoDangling (st.bscSubscrGet a) := by
  simp only [Store.bscSubscrGet]
  split
  · rename_i hat
    simp [Store.Live,hat] at h
  · split <;> simp

theorem noDangling_put (h : st.Live a) : NoDangling (st.bscSubscrPut a) := by
  simp only [Store.bscSubscrPut]
  split
  · rename_i hat
    simp [Store.Live,hat] at h
  · split <;> simp

theorem noDangling_findBy (st : Store) (p : BscSubscr → Bool) : NoDangling (st.findBy p) := by
  simp only [Store.findBy]
  split
  · simp
  · rename_i bsub hf
    have hl := Store.live_of_mem (List.mem_of_find?_eq_some hf)
    exact (noDangling_get hl).bind fun _ _ => by simp

theorem noDangling_create (h : st.Below) {assign : Store → Addr → Store}
    (ha : ∀ st b, ∃ f, assign st b = st.write b f ∧ ∀ e, (f e).addr = e.addr) :
    NoDangling (st.create assign) := by
  obtain ⟨f,hassign,hf⟩ := ha st.bscSubscrAlloc.1 st.next
  have hl : (assign st.bscSubscrAlloc.1 st.next).Live st.next := by
    rw [hassign,Store.Live,Store.at?_write _ _ _ _ hf,Store.at?_alloc h]
    simp
  exact (noDangling_get hl).bind fun _ _ => by simp

theorem noDangling_findOrCreateByImsi (h : st.Below) (imsi : Filter.Imsi) :
    NoDangling (st.bscSubscrFindOrCreateByImsi imsi) := by
  have hfind : NoDangling (st.bscSubscrFindByImsi imsi) := by
    simp only [Store.bscSubscrFindByImsi]
    split
    · simp
    · exact noDangling_findBy st _
  refine hfind.bind ?_
  intro ⟨st',r⟩ hr
  cases r with
  | some b => simp
  | none =>
    have hst : st' = st := by
      simp only [Store.bscSubscrFindByImsi,Store.findBy] at hr
      split at hr
      · cases hr
        rfl
      · split at hr
        · cases hr
          rfl
        · simp at hr
    subst hst
    refine noDangling_create h ?_
    intro st b
    exact ⟨_,rfl,fun _ => rfl⟩

end Pointers

end OsmoBsc.Subscr
