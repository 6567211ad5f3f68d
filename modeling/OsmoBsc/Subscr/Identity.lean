import Mathlib.Data.List.Nodup
import OsmoBsc.Subscr.Store
set_option autoImplicit false

namespace OsmoBsc.Subscr
open EventFsm

structure Assigned where
  imsis : List (Addr × Filter.Imsi) := []
  tmsis : List (Addr × UInt32) := []

/-- The ways to look up, name and release subscribers. -/
inductive Op where
  | findOrCreateByImsi (imsi : Filter.Imsi)
  | findOrCreateByTmsi (tmsi : UInt32)
  | setImsi (bsub : Addr) (imsi : Filter.Imsi)
  /-- page_subscriber(); the paging request takes a reference if it is `paged`. -/
  | page (imsi : Filter.Imsi) (tmsi : UInt32) (lac : Nat) (paged : Bool)
  | put (bsub : Addr)

def Store.hasImsi (st : Store) (imsi : Filter.Imsi) : Bool :=
  !imsi.isEmpty && st.list.any (·.imsi == imsi)

def Store.hasTmsi (st : Store) (tmsi : UInt32) : Bool :=
  tmsi != reservedTmsi && st.list.any (·.tmsi == tmsi)

def noteImsi (st : Store) (as : Assigned) (a : Addr) (imsi : Filter.Imsi) : Assigned :=
  if st.hasImsi imsi then as else { as with imsis := (a,imsi) :: as.imsis }

def identStep (s : Store × Assigned) : Op → Except Fault (Store × Assigned)
  | .findOrCreateByImsi imsi => do
    let (st,a) ← s.1.bscSubscrFindOrCreateByImsi imsi
    return (st,noteImsi s.1 s.2 a imsi)
  | .findOrCreateByTmsi tmsi => do
    let (st,a) ← s.1.bscSubscrFindOrCreateByTmsi tmsi
    return (st,if s.1.hasTmsi tmsi then s.2 else { s.2 with tmsis := (a,tmsi) :: s.2.tmsis })
  | .setImsi a imsi =>
    if (s.1.at? a).isNone then .error .useAfterFree
    else .ok (s.1.bscSubscrSetImsi a imsi,{ s.2 with imsis := (a,imsi) :: s.2.imsis })
  | .page imsi tmsi lac paged => do
    let (st,a) ← s.1.bscSubscrFindOrCreateByImsi imsi
    let st := st.write a fun e => { e with lac, tmsi }
    let st ← (if paged then st.bscSubscrGet a else .ok st : Except Fault Store)
    let st ← st.bscSubscrPut a
    return (st,{ noteImsi s.1 s.2 a imsi with tmsis := (a,tmsi) :: s.2.tmsis })
  | .put a => do
    let st ← s.1.bscSubscrPut a
    return (st,s.2)

/-- An identity is written only where no other subscriber has it, and no IMSI is longer than
its field. -/
def Distinct (s : Store × Assigned) : Op → Prop
  | .findOrCreateByImsi imsi => imsi.length ≤ imsiMaxDigits
  | .findOrCreateByTmsi _ => True
  | .setImsi a imsi => imsi.length ≤ imsiMaxDigits ∧
      ∀ e ∈ s.1.list, e.imsi = imsi → imsi = [] ∨ e.addr = a
  | .page imsi tmsi _ _ => imsi.length ≤ imsiMaxDigits ∧
      (tmsi ≠ reservedTmsi → ∀ e ∈ s.1.list, e.tmsi = tmsi → e.imsi = imsi ∧ imsi ≠ [])
  | .put _ => True

def AllNamed (s : Store × Assigned) : Prop := ∀ e ∈ s.1.list, ∃ p ∈ s.2.tmsis, p.1 = e.addr

section Identities

def BscSubscr.bare (bsub : BscSubscr) : BscSubscr :=
  { addr := bsub.addr, imsi := bsub.imsi, tmsi := bsub.tmsi }

@[simp] theorem BscSubscr.bare_imsi (bsub : BscSubscr) : bsub.bare.imsi = bsub.imsi := rfl
@[simp] theorem BscSubscr.bare_tmsi (bsub : BscSubscr) : bsub.bare.tmsi = bsub.tmsi := rfl

def Store.idents (st : Store) : List BscSubscr := st.list.map BscSubscr.bare

/-- The identities of a store, as far as they were assigned. -/
structure Named (ids : List BscSubscr) (next : Addr) (as : Assigned) : Prop where
  below : ∀ e ∈ ids, e.addr < next
  nodup : (ids.map (·.addr)).Nodup
  imsiOne : ∀ e ∈ ids, ∀ e' ∈ ids, e.imsi ≠ [] → e.imsi = e'.imsi → e.addr = e'.addr
  imsiSet : ∀ e ∈ ids, e.imsi ≠ [] → (e.addr,e.imsi) ∈ as.imsis
  tmsiOne : ∀ e ∈ ids, ∀ e' ∈ ids, (e.addr,e.tmsi) ∈ as.tmsis → (e'.addr,e'.tmsi) ∈ as.tmsis →
    e.tmsi ≠ reservedTmsi → e.tmsi = e'.tmsi → e.addr = e'.addr
  tmsiSet : ∀ e ∈ ids, (e.addr,e.tmsi) ∈ as.tmsis ∨ (e.tmsi = 0 ∧ ∀ p ∈ as.tmsis, p.1 ≠ e.addr)
  tmsiOld : ∀ p ∈ as.tmsis, p.1 < next

theorem named_nil : Named [] 0 {} := by
  constructor <;> simp

theorem Named.sublist {ids ids' : List BscSubscr} {next : Addr} {as : Assigned} (h : Named ids next as)
    (hs : ids'.Sublist ids) : Named ids' next as where
  below e he := h.below e (hs.subset he)
  nodup := h.nodup.sublist (hs.map _)
  imsiOne e he e' he' := h.imsiOne e (hs.subset he) e' (hs.subset he')
  imsiSet e he := h.imsiSet e (hs.subset he)
  tmsiOne e he e' he' := h.tmsiOne e (hs.subset he) e' (hs.subset he')
  tmsiSet e he := h.tmsiSet e (hs.subset he)
  tmsiOld := h.tmsiOld

theorem Named.alloc {ids : List BscSubscr} {next : Addr} {as : Assigned} (h : Named ids next as) :
    Named (ids ++ [{ addr := next }]) (next + 1) as where
  below := by
    intro e he
    rcases List.mem_append.mp he with he | he
    · exact Nat.lt_succ_of_lt (h.below e he)
    · rw [List.mem_singleton.mp he]
      exact Nat.lt_succ_self next
  nodup := by
    rw [List.map_append,List.nodup_append]
    refine ⟨h.nodup,by simp,?_⟩
    intro a ha b hb
    obtain ⟨e,he,rfl⟩ := List.mem_map.mp ha
    simp only [List.map_cons,List.map_nil,List.mem_singleton] at hb
    rw [hb]
    exact Nat.ne_of_lt (h.below e he)
  imsiOne := by
    intro e he e' he' hne heq
    simp only [List.mem_append,List.mem_singleton] at he he'
    rcases he with he | rfl
    · rcases he' with he' | rfl
      · exact h.imsiOne e he e' he' hne heq
      · exact absurd heq hne
    · exact absurd rfl hne
  imsiSet := by
    intro e he hne
    simp only [List.mem_append,List.mem_singleton] at he
    rcases he with he | rfl
    · exact h.imsiSet e he hne
    · exact absurd rfl hne
  tmsiOne := by
    have hnew : ∀ t, (next,t) ∉ as.tmsis := fun t hm => absurd (h.tmsiOld _ hm) (Nat.lt_irrefl next)
    intro e he e' he' ht ht' hne heq
    simp only [List.mem_append,List.mem_singleton] at he he'
    rcases he with he | rfl
    · rcases he' with he' | rfl
      · exact h.tmsiOne e he e' he' ht ht' hne heq
      · exact absurd ht' (hnew _)
    · exact absurd ht (hnew _)
  tmsiSet := by
    intro e he
    simp only [List.mem_append,List.mem_singleton] at he
    rcases he with he | rfl
    · exact h.tmsiSet e he
    · right
      refine ⟨rfl,fun p hp => ?_⟩
      have := h.tmsiOld p hp
      exact Nat.ne_of_lt this
  tmsiOld p hp := Nat.lt_succ_of_lt (h.tmsiOld p hp)

theorem Named.setImsi {ids : List BscSubscr} {next : Addr} {as : Assigned} (h : Named ids next as)
    (a : Addr) {imsi : Filter.Imsi} (ho : ∀ e ∈ ids, e.imsi = imsi → imsi = [] ∨ e.addr = a) :
    Named (ids.map fun e => if e.addr = a then { e with imsi } else e) next
      { as with imsis := (a,imsi) :: as.imsis } := by
  have haddr : ∀ e : BscSubscr, (if e.addr = a then { e with imsi } else e).addr = e.addr := by
    intro e
    split <;> rfl
  have htmsi : ∀ e : BscSubscr, (if e.addr = a then { e with imsi } else e).tmsi = e.tmsi := by
    intro e
    split <;> rfl
  constructor
  · intro e he
    obtain ⟨e0,he0,rfl⟩ := List.mem_map.mp he
    rw [haddr]
    exact h.below e0 he0
  · simpa [List.map_map,Function.comp_def,haddr] using h.nodup
  · intro e he e' he' hne heq
    obtain ⟨e0,he0,rfl⟩ := List.mem_map.mp he
    obtain ⟨e1,he1,rfl⟩ := List.mem_map.mp he'
    rw [haddr,haddr]
    by_cases h0 : e0.addr = a
    · by_cases h1 : e1.addr = a
      · rw [h0,h1]
      · simp only [h0,h1,if_true,if_false] at hne heq
        rcases ho e1 he1 heq.symm with hnil | h1'
        · exact absurd hnil hne
        · exact absurd h1' h1
    · by_cases h1 : e1.addr = a
      · simp only [h0,h1,if_true,if_false] at hne heq
        rcases ho e0 he0 heq with hnil | h0'
        · rw [heq] at hne
          exact absurd hnil hne
        · exact absurd h0' h0
      · simp only [h0,h1,if_false] at hne heq
        exact h.imsiOne e0 he0 e1 he1 hne heq
  · intro e he hne
    obtain ⟨e0,he0,rfl⟩ := List.mem_map.mp he
    by_cases h0 : e0.addr = a
    · simp [h0]
    · simp only [h0,if_false] at hne ⊢
      exact List.mem_cons_of_mem _ (h.imsiSet e0 he0 hne)
  · intro e he e' he' ht ht' hne heq
    obtain ⟨e0,he0,rfl⟩ := List.mem_map.mp he
    obtain ⟨e1,he1,rfl⟩ := List.mem_map.mp he'
    rw [haddr,htmsi] at ht ht'
    rw [htmsi] at hne
    rw [htmsi,htmsi] at heq
    rw [haddr,haddr]
    exact h.tmsiOne e0 he0 e1 he1 ht ht' hne heq
  · intro e he
    obtain ⟨e0,he0,rfl⟩ := List.mem_map.mp he
    rw [haddr,htmsi]
    exact h.tmsiSet e0 he0
  · exact h.tmsiOld

theorem Named.setTmsi {ids : List BscSubscr} {next : Addr} {as : Assigned} (h : Named ids next as)
    {a : Addr} (ha : a < next) {tmsi : UInt32}
    (ho : tmsi ≠ reservedTmsi → ∀ e ∈ ids, e.tmsi = tmsi → e.addr = a) :
    Named (ids.map fun e => if e.addr = a then { e with tmsi } else e) next
      { as with tmsis := (a,tmsi) :: as.tmsis } := by
  have haddr : ∀ e : BscSubscr, (if e.addr = a then { e with tmsi } else e).addr = e.addr := by
    intro e
    split <;> rfl
  have himsi : ∀ e : BscSubscr, (if e.addr = a then { e with tmsi } else e).imsi = e.imsi := by
    intro e
    split <;> rfl
  constructor
  · intro e he
    obtain ⟨e0,he0,rfl⟩ := List.mem_map.mp he
    rw [haddr]
    exact h.below e0 he0
  · simpa [List.map_map,Function.comp_def,haddr] using h.nodup
  · intro e he e' he' hne heq
    obtain ⟨e0,he0,rfl⟩ := List.mem_map.mp he
    obtain ⟨e1,he1,rfl⟩ := List.mem_map.mp he'
    rw [himsi] at hne
    rw [himsi,himsi] at heq
    rw [haddr,haddr]
    exact h.imsiOne e0 he0 e1 he1 hne heq
  · intro e he hne
    obtain ⟨e0,he0,rfl⟩ := List.mem_map.mp he
    rw [himsi] at hne ⊢
    rw [haddr]
    exact h.imsiSet e0 he0 hne
  · intro e he e' he' ht ht' hne heq
    obtain ⟨e0,he0,rfl⟩ := List.mem_map.mp he
    obtain ⟨e1,he1,rfl⟩ := List.mem_map.mp he'
    rw [haddr,haddr]
    by_cases h0 : e0.addr = a
    · by_cases h1 : e1.addr = a
      · rw [h0,h1]
      · simp only [h0,h1,if_true,if_false] at hne heq
        rw [h0,ho hne e1 he1 heq.symm]
    · by_cases h1 : e1.addr = a
      · simp only [h0,h1,if_true,if_false] at hne heq
        rw [h1,ho (heq ▸ hne) e0 he0 heq]
      · simp only [h0,h1,if_false,List.mem_cons,Prod.mk.injEq,false_and,false_or] at ht ht' hne heq
        exact h.tmsiOne e0 he0 e1 he1 ht ht' hne heq
  · intro e he
    obtain ⟨e0,he0,rfl⟩ := List.mem_map.mp he
    by_cases h0 : e0.addr = a
    · left
      simp [h0]
    · simp only [h0,if_false]
      rcases h.tmsiSet e0 he0 with ht | ⟨hz,hno⟩
      · exact .inl (List.mem_cons_of_mem _ ht)
      · right
        refine ⟨hz,fun p hp => ?_⟩
        rcases List.mem_cons.mp hp with rfl | hp
        · exact Ne.symm h0
        · exact hno p hp
  · intro p hp
    rcases List.mem_cons.mp hp with rfl | hp
    · exact ha
    · exact h.tmsiOld p hp

end Identities

section Operations

variable {st st' : Store} {as : Assigned} {a : Addr}

theorem idents_write (st : Store) (a : Addr) {f g : BscSubscr → BscSubscr}
    (hf : ∀ e, (f e).bare = g e.bare) :
    (st.write a f).idents = st.idents.map fun e => if e.addr = a then g e else e := by
  simp only [Store.idents,Store.write,List.map_map]
  apply List.map_congr_left
  intro e _
  have haddr : e.bare.addr = e.addr := rfl
  simp only [Function.comp,haddr]
  split
  · exact hf e
  · rfl

theorem idents_addUse (st : Store) (a : Addr) (n : Int) :
    (st.write a (BscSubscr.addUse n)).idents = st.idents := by
  have hw := idents_write st a (f := BscSubscr.addUse n) (g := id) fun _ => rfl
  simpa using hw

theorem idents_get (h : st.bscSubscrGet a = .ok st') : st'.idents = st.idents ∧ st'.next = st.next := by
  simp only [Store.bscSubscrGet] at h
  split at h
  · cases h
  · split at h
    · cases h
      exact ⟨idents_addUse st a 1,rfl⟩
    · cases h

theorem idents_put (h : st.bscSubscrPut a = .ok st') :
    st'.idents.Sublist st.idents ∧ st'.next = st.next := by
  simp only [Store.bscSubscrPut] at h
  split at h
  · cases h
  · have hsame := idents_addUse st a (-1)
    split at h
    · cases h
      refine ⟨?_,rfl⟩
      rw [← hsame]
      exact List.filter_sublist.map _
    · cases h
      rw [hsame]
      exact ⟨List.Sublist.refl _,rfl⟩

theorem mem_idents {e : BscSubscr} (h : e ∈ st.list) : e.bare ∈ st.idents := List.mem_map_of_mem h

theorem of_mem_idents {e : BscSubscr} (h : e ∈ st.idents) : ∃ e' ∈ st.list, e'.bare = e :=
  List.mem_map.mp h

theorem findBy_cases {p : BscSubscr → Bool} {r : Option Addr} (hf : st.findBy p = .ok (st',r)) :
    (r = none ∧ st' = st ∧ st.list.any p = false) ∨
      ∃ e ∈ st.list, p e = true ∧ r = some e.addr ∧ st'.idents = st.idents ∧ st'.next = st.next := by
  simp only [Store.findBy] at hf
  split at hf
  · rename_i hnone
    cases hf
    exact .inl ⟨rfl,rfl,List.any_eq_false.mpr (List.find?_eq_none.mp hnone)⟩
  · rename_i bsub hsome
    simp only [bind_eq_ok,pure_eq_ok,Except.ok.injEq,Prod.mk.injEq] at hf
    obtain ⟨st1,hget,rfl,rfl⟩ := hf
    exact .inr ⟨bsub,List.mem_of_find?_eq_some hsome,List.find?_some hsome,rfl,idents_get hget⟩

/-- The identities with a new subscriber that gets its first one by `g`. -/
def withNew (ids : List BscSubscr) (next : Addr) (g : BscSubscr → BscSubscr) : List BscSubscr :=
  (ids ++ [({ addr := next } : BscSubscr)]).map fun e => if e.addr = next then g e else e

theorem idents_alloc (st : Store) :
    st.bscSubscrAlloc.1.idents = st.idents ++ [({ addr := st.next } : BscSubscr)] := by
  simp [Store.idents,Store.bscSubscrAlloc,BscSubscr.bare]

theorem create_idents {f g : BscSubscr → BscSubscr} (hg : ∀ e, (f e).bare = g e.bare)
    (hc : st.create (fun st a => st.write a f) = .ok (st',a)) :
    a = st.next ∧ st'.next = st.next + 1 ∧
      st'.idents = withNew st.idents st.next g := by
  simp only [Store.create,bind_eq_ok,pure_eq_ok,Except.ok.injEq,Prod.mk.injEq] at hc
  obtain ⟨st1,hget,rfl,rfl⟩ := hc
  obtain ⟨hids,hnext⟩ := idents_get hget
  refine ⟨rfl,hnext,?_⟩
  rw [hids,idents_write _ _ hg,idents_alloc]
  rfl

theorem findOrCreateByImsi_cases {imsi : Filter.Imsi} (hlen : imsi.length ≤ imsiMaxDigits)
    (hf : st.bscSubscrFindOrCreateByImsi imsi = .ok (st',a)) :
    (st.hasImsi imsi = true ∧ (∃ e ∈ st.list, e.imsi = imsi ∧ a = e.addr) ∧
      st'.idents = st.idents ∧ st'.next = st.next) ∨
    (st.hasImsi imsi = false ∧ a = st.next ∧ st'.next = st.next + 1 ∧
      st'.idents = withNew st.idents st.next fun e => { e with imsi }) := by
  simp only [Store.bscSubscrFindOrCreateByImsi,Store.bscSubscrFindByImsi,bind_eq_ok] at hf
  obtain ⟨⟨st1,r⟩,hfind,hrest⟩ := hf
  have hcreate : st.hasImsi imsi = false → st1 = st → r = none →
      (st.hasImsi imsi = false ∧ a = st.next ∧ st'.next = st.next + 1 ∧
      st'.idents = withNew st.idents st.next fun e => { e with imsi }) := by
    rintro hno rfl rfl
    simp only [Store.bscSubscrSetImsi,List.take_of_length_le hlen] at hrest
    exact ⟨hno,create_idents (fun _ => rfl) hrest⟩
  split at hfind
  · rename_i hnil
    cases hfind
    exact .inr (hcreate (by simp [Store.hasImsi,hnil]) rfl rfl)
  · rename_i hnil
    rcases findBy_cases hfind with ⟨hr,hst,hany⟩ | ⟨e,hmem,hp,hr,hsame⟩
    · exact .inr (hcreate (by simp only [Store.hasImsi,hany,Bool.and_false]) hst hr)
    · subst hr
      cases hrest
      have himsi : e.imsi = imsi := by simpa using hp
      refine .inl ⟨?_,⟨e,hmem,himsi,rfl⟩,hsame⟩
      simp only [Store.hasImsi,Bool.and_eq_true,List.any_eq_true]
      exact ⟨by simpa using hnil,e,hmem,hp⟩

theorem findOrCreateByTmsi_cases {tmsi : UInt32} (hf : st.bscSubscrFindOrCreateByTmsi tmsi = .ok (st',a)) :
    (st.hasTmsi tmsi = true ∧ st'.idents = st.idents ∧ st'.next = st.next) ∨
    (st.hasTmsi tmsi = false ∧ a = st.next ∧ st'.next = st.next + 1 ∧
      st'.idents = withNew st.idents st.next fun e => { e with tmsi }) := by
  simp only [Store.bscSubscrFindOrCreateByTmsi,Store.bscSubscrFindByTmsi,bind_eq_ok] at hf
  obtain ⟨⟨st1,r⟩,hfind,hrest⟩ := hf
  have hcreate : st.hasTmsi tmsi = false → st1 = st → r = none →
      (st.hasTmsi tmsi = false ∧ a = st.next ∧ st'.next = st.next + 1 ∧
      st'.idents = withNew st.idents st.next fun e => { e with tmsi }) := by
    rintro hno rfl rfl
    exact ⟨hno,create_idents (fun _ => rfl) hrest⟩
  split at hfind
  · rename_i hres
    cases hfind
    exact .inr (hcreate (by simp [Store.hasTmsi,hres]) rfl rfl)
  · rename_i hres
    rcases findBy_cases hfind with ⟨hr,hst,hany⟩ | ⟨e,hmem,hp,hr,hsame⟩
    · exact .inr (hcreate (by simp only [Store.hasTmsi,hany,Bool.and_false]) hst hr)
    · subst hr
      cases hrest
      refine .inl ⟨?_,hsame⟩
      simp only [Store.hasTmsi,Bool.and_eq_true,List.any_eq_true]
      exact ⟨by simpa using hres,e,hmem,hp⟩

theorem not_hasImsi {imsi : Filter.Imsi} (h : st.hasImsi imsi = false) {e : BscSubscr}
    (he : e ∈ st.idents) (hi : e.imsi = imsi) : imsi = [] := by
  obtain ⟨e',he',rfl⟩ := of_mem_idents he
  by_contra hne
  have hhas : st.hasImsi imsi = true := by
    simp only [Store.hasImsi,Bool.and_eq_true,List.any_eq_true]
    exact ⟨by simpa using hne,e',he',by simpa using hi⟩
  rw [h] at hhas
  cases hhas

theorem not_hasTmsi {tmsi : UInt32} (h : st.hasTmsi tmsi = false) {e : BscSubscr} (he : e ∈ st.idents)
    (ht : e.tmsi = tmsi) : tmsi = reservedTmsi := by
  obtain ⟨e',he',rfl⟩ := of_mem_idents he
  by_contra hne
  have hhas : st.hasTmsi tmsi = true := by
    simp only [Store.hasTmsi,Bool.and_eq_true,List.any_eq_true]
    exact ⟨by simpa using hne,e',he',by simpa using ht⟩
  rw [h] at hhas
  cases hhas

theorem named_findOrCreateByImsi {imsi : Filter.Imsi} (h : Named st.idents st.next as)
    (hlen : imsi.length ≤ imsiMaxDigits) (hf : st.bscSubscrFindOrCreateByImsi imsi = .ok (st',a)) :
    Named st'.idents st'.next (noteImsi st as a imsi) := by
  rcases findOrCreateByImsi_cases hlen hf with ⟨hhas,_,hids,hnext⟩ | ⟨hno,rfl,hnext,hids⟩
  · rw [hids,hnext,noteImsi,hhas]
    exact h
  · rw [hids,hnext,noteImsi,hno]
    refine h.alloc.setImsi st.next ?_
    intro e he hei
    rcases List.mem_append.mp he with he | he
    · exact .inl (not_hasImsi hno he hei)
    · exact .inr (by rw [List.mem_singleton.mp he])

/-- The subscriber that a lookup by IMSI returns is the only one with this IMSI. -/
theorem findOrCreateByImsi_only {imsi : Filter.Imsi} (h : Named st.idents st.next as)
    (hlen : imsi.length ≤ imsiMaxDigits) (hne : imsi ≠ [])
    (hf : st.bscSubscrFindOrCreateByImsi imsi = .ok (st',a)) :
    a < st'.next ∧ ∀ e ∈ st'.idents, e.imsi = imsi → e.addr = a := by
  have hn := named_findOrCreateByImsi h hlen hf
  rcases findOrCreateByImsi_cases hlen hf with ⟨_,⟨e,he,hei,rfl⟩,hids,hnext⟩ | ⟨_,rfl,hnext,hids⟩
  · rw [hids,hnext]
    refine ⟨h.below e.bare (mem_idents he),fun e' he' hei' => ?_⟩
    exact h.imsiOne e' he' e.bare (mem_idents he) (by rw [hei']; exact hne) (hei'.trans hei.symm)
  · refine ⟨by rw [hnext]; exact Nat.lt_succ_self _,fun e he hei => ?_⟩
    have hnew : ({ addr := st.next, imsi } : BscSubscr) ∈ st'.idents := by
      rw [hids]
      exact List.mem_map.mpr ⟨{ addr := st.next },by simp,by simp⟩
    exact hn.imsiOne e he _ hnew (by rw [hei]; exact hne) hei

theorem named_findOrCreateByTmsi {tmsi : UInt32} (h : Named st.idents st.next as)
    (hf : st.bscSubscrFindOrCreateByTmsi tmsi = .ok (st',a)) :
    Named st'.idents st'.next
      (if st.hasTmsi tmsi then as else { as with tmsis := (a,tmsi) :: as.tmsis }) := by
  rcases findOrCreateByTmsi_cases hf with ⟨hhas,hids,hnext⟩ | ⟨hno,rfl,hnext,hids⟩
  · rw [hids,hnext,if_pos hhas]
    exact h
  · rw [hids,hnext,hno]
    refine h.alloc.setTmsi (Nat.lt_succ_self st.next) ?_
    intro hne e he het
    rcases List.mem_append.mp he with he | he
    · exact absurd (not_hasTmsi hno he het) hne
    · rw [List.mem_singleton.mp he]

theorem named_setImsi {imsi : Filter.Imsi} (h : Named st.idents st.next as)
    (hlen : imsi.length ≤ imsiMaxDigits) (ho : ∀ e ∈ st.list, e.imsi = imsi → imsi = [] ∨ e.addr = a) :
    Named (st.bscSubscrSetImsi a imsi).idents st.next { as with imsis := (a,imsi) :: as.imsis } := by
  rw [Store.bscSubscrSetImsi,List.take_of_length_le hlen,
    idents_write st a (g := fun e => { e with imsi }) fun _ => rfl]
  refine h.setImsi a ?_
  intro e he hei
  obtain ⟨e',he',rfl⟩ := of_mem_idents he
  exact ho e' he' hei

theorem named_page {imsi : Filter.Imsi} {tmsi : UInt32} (lac : Nat) (h : Named st.idents st.next as)
    (hlen : imsi.length ≤ imsiMaxDigits)
    (ho : tmsi ≠ reservedTmsi → ∀ e ∈ st.list, e.tmsi = tmsi → e.imsi = imsi ∧ imsi ≠ [])
    (hf : st.bscSubscrFindOrCreateByImsi imsi = .ok (st',a)) :
    Named (st'.write a fun e => { e with lac, tmsi }).idents st'.next
      { noteImsi st as a imsi with tmsis := (a,tmsi) :: as.tmsis } := by
  have hn := named_findOrCreateByImsi h hlen hf
  have hsame : (noteImsi st as a imsi).tmsis = as.tmsis := by
    unfold noteImsi
    split <;> rfl
  have hlt : a < st'.next := by
    rcases findOrCreateByImsi_cases hlen hf with ⟨_,⟨e,he,_,rfl⟩,_,hnext⟩ | ⟨_,rfl,hnext,_⟩
    · rw [hnext]
      exact h.below e.bare (mem_idents he)
    · rw [hnext]
      exact Nat.lt_succ_self _
  rw [idents_write st' a (g := fun e => { e with tmsi }) fun _ => rfl,← hsame]
  refine hn.setTmsi hlt ?_
  intro hne e he het
  -- whoever has the TMSI already has the IMSI too, so it is the one that was found
  rcases findOrCreateByImsi_cases hlen hf with ⟨_,_,hids,_⟩ | ⟨hno,ha,_,hids⟩
  · rw [hids] at he
    obtain ⟨e',he',rfl⟩ := of_mem_idents he
    obtain ⟨hei,hnil⟩ := ho hne e' he' het
    exact (findOrCreateByImsi_only h hlen hnil hf).2 _ (by rw [hids]; exact he) hei
  · rw [hids,withNew] at he
    obtain ⟨e0,he0,rfl⟩ := List.mem_map.mp he
    by_cases h0 : e0.addr = st.next
    · rw [if_pos h0]
      exact h0.trans ha.symm
    · rw [if_neg h0] at het ⊢
      rcases List.mem_append.mp he0 with he0 | he0
      · obtain ⟨e',he',rfl⟩ := of_mem_idents he0
        obtain ⟨hei,hnil⟩ := ho hne e' he' het
        exact absurd (not_hasImsi hno he0 hei) hnil
      · rw [List.mem_singleton.mp he0] at h0
        exact absurd rfl h0

theorem named_step {s s' : Store × Assigned} {op : Op} (h : Named s.1.idents s.1.next s.2)
    (hd : Distinct s op) (hs : identStep s op = .ok s') : Named s'.1.idents s'.1.next s'.2 := by
  cases op with
  | findOrCreateByImsi imsi =>
    simp only [identStep,bind_eq_ok,pure_eq_ok,Except.ok.injEq] at hs
    obtain ⟨⟨st,a⟩,hf,rfl⟩ := hs
    exact named_findOrCreateByImsi h hd hf
  | findOrCreateByTmsi tmsi =>
    simp only [identStep,bind_eq_ok,pure_eq_ok,Except.ok.injEq] at hs
    obtain ⟨⟨st,a⟩,hf,rfl⟩ := hs
    exact named_findOrCreateByTmsi h hf
  | setImsi a imsi =>
    simp only [identStep] at hs
    split at hs
    · cases hs
    · cases hs
      exact named_setImsi h hd.1 hd.2
  | page imsi tmsi lac paged =>
    simp only [identStep,bind_eq_ok,pure_eq_ok,Except.ok.injEq] at hs
    obtain ⟨⟨st,a⟩,hf,st1,hpaged,st2,hput,rfl⟩ := hs
    have hn := named_page lac h hd.1 hd.2 hf
    obtain ⟨hsub,hnext2⟩ := idents_put hput
    have hsame : st1.idents = (st.write a fun e => { e with lac, tmsi }).idents ∧ st1.next = st.next := by
      split at hpaged
      · exact idents_get hpaged
      · cases hpaged
        exact ⟨rfl,rfl⟩
    rw [← hsame.1,← hsame.2,← hnext2] at hn
    exact hn.sublist hsub
  | put a =>
    simp only [identStep,bind_eq_ok,pure_eq_ok,Except.ok.injEq] at hs
    obtain ⟨st,hput,rfl⟩ := hs
    obtain ⟨hsub,hnext⟩ := idents_put hput
    have hn := h.sublist hsub
    rwa [← hnext] at hn

end Operations

section Uniqueness

/-- Of several subscribers that a property holds of, all have one address: there is at most one. -/
theorem filter_length_le_one {l : List BscSubscr} {p : BscSubscr → Bool} (hn : (l.map (·.addr)).Nodup)
    (h : ∀ e ∈ l, ∀ e' ∈ l, p e = true → p e' = true → e.addr = e'.addr) : (l.filter p).length ≤ 1 := by
  have hsub : ((l.filter p).map (·.addr)).Nodup := hn.sublist (List.filter_sublist.map _)
  have hone : ∀ e ∈ l.filter p, ∀ e' ∈ l.filter p, e.addr = e'.addr := by
    intro e he e' he'
    obtain ⟨hm,hp⟩ := List.mem_filter.mp he
    obtain ⟨hm',hp'⟩ := List.mem_filter.mp he'
    exact h e hm e' hm' hp hp'
  match hl : l.filter p with
  | [] => simp
  | [_] => simp
  | e :: e' :: _ =>
    rw [hl] at hsub hone
    have heq := hone e (by simp) e' (by simp)
    simp [heq] at hsub

theorem Named.addrs {st : Store} {as : Assigned} (h : Named st.idents st.next as) :
    (st.list.map (·.addr)).Nodup := by
  have hn := h.nodup
  rwa [Store.idents,List.map_map] at hn

theorem Named.tmsi_assigned {s : Store × Assigned} (h : Named s.1.idents s.1.next s.2) {tmsi : UInt32}
    (ht : tmsi ≠ 0 ∨ AllNamed s) {e : BscSubscr} (he : e ∈ s.1.list) (het : e.tmsi = tmsi) :
    (e.addr,tmsi) ∈ s.2.tmsis := by
  rcases h.tmsiSet e.bare (mem_idents he) with hset | ⟨hz,hno⟩
  · rw [← het]
    exact hset
  · rcases ht with hne | hall
    · exact absurd (het.symm.trans hz) hne
    · obtain ⟨p,hp,hpa⟩ := hall e he
      exact absurd hpa (hno p hp)

/-- The stores that the operations reach while no identity is given to two subscribers. -/
abbrev ReachableDistinct (s : Store × Assigned) : Prop :=
  Reach identStep Distinct (· = ({},{})) s

theorem ReachableDistinct.named {s : Store × Assigned} (h : ReachableDistinct s) :
    Named s.1.idents s.1.next s.2 := by
  let inv (s : Store × Assigned) : Prop := Named s.1.idents s.1.next s.2
  refine show inv s from h.invariant ?_ ?_
  · rintro _ rfl
    exact named_nil
  · exact fun s op s' hs hd hstep => named_step hs hd hstep

/-- While no identity is written that another subscriber has and no IMSI is too long, at most
one subscriber has a given IMSI or TMSI, and a lookup returns only a subscriber which the identity was
assigned to; for TMSI 0, which is also the initial value, as long as every subscriber has a TMSI. -/
theorem subscr_identities_unique {s : Store × Assigned} (h : ReachableDistinct s) :
    (∀ imsi, imsi ≠ [] → (s.1.list.filter (·.imsi == imsi)).length ≤ 1) ∧
    (∀ imsi st a, s.1.bscSubscrFindByImsi imsi = .ok (st,some a) → (a,imsi) ∈ s.2.imsis) ∧
    ∀ tmsi, tmsi ≠ 0 ∨ AllNamed s →
      (tmsi ≠ reservedTmsi → (s.1.list.filter (·.tmsi == tmsi)).length ≤ 1) ∧
      ∀ st a, s.1.bscSubscrFindByTmsi tmsi = .ok (st,some a) → (a,tmsi) ∈ s.2.tmsis := by
  have hn := h.named
  refine ⟨?_,?_,?_⟩
  · intro imsi hne
    refine filter_length_le_one hn.addrs fun e he e' he' hp hp' => ?_
    have hei : e.imsi = imsi := by simpa using hp
    have hei' : e'.imsi = imsi := by simpa using hp'
    exact hn.imsiOne e.bare (mem_idents he) e'.bare (mem_idents he') (by simpa [hei] using hne)
      (hei.trans hei'.symm)
  · intro imsi st a hf
    simp only [Store.bscSubscrFindByImsi] at hf
    split at hf
    · cases hf
    · rename_i hnil
      rcases findBy_cases hf with ⟨hr,_⟩ | ⟨e,he,hp,hr,_⟩
      · cases hr
      · cases hr
        have hei : e.imsi = imsi := by simpa using hp
        have hset := hn.imsiSet e.bare (mem_idents he) (by simpa [hei] using hnil)
        rw [BscSubscr.bare_imsi,hei] at hset
        exact hset
  · intro tmsi ht
    refine ⟨?_,?_⟩
    · intro hne
      refine filter_length_le_one hn.addrs fun e he e' he' hp hp' => ?_
      have het : e.tmsi = tmsi := by simpa using hp
      have het' : e'.tmsi = tmsi := by simpa using hp'
      have ha := hn.tmsi_assigned ht he het
      have ha' := hn.tmsi_assigned ht he' het'
      rw [← het] at ha
      rw [← het'] at ha'
      exact hn.tmsiOne e.bare (mem_idents he) e'.bare (mem_idents he') ha ha' (by simpa [het] using hne)
        (het.trans het'.symm)
    · intro st a hf
      simp only [Store.bscSubscrFindByTmsi] at hf
      split at hf
      · cases hf
      · rcases findBy_cases hf with ⟨hr,_⟩ | ⟨e,he,hp,hr,_⟩
        · cases hr
        · cases hr
          exact hn.tmsi_assigned ht he (by simpa using hp)

def imsiOne : Filter.Imsi := [0x31,0x32,0x33]
def imsiTwo : Filter.Imsi := [0x39,0x38,0x37]

instance (s : Store × Assigned) : (op : Op) → Decidable (Distinct s op)
  | .findOrCreateByImsi imsi => inferInstanceAs (Decidable (imsi.length ≤ imsiMaxDigits))
  | .findOrCreateByTmsi _ => isTrue trivial
  | .setImsi a imsi => inferInstanceAs (Decidable (imsi.length ≤ imsiMaxDigits ∧
      ∀ e ∈ s.1.list, e.imsi = imsi → imsi = [] ∨ e.addr = a))
  | .page imsi tmsi _ _ => inferInstanceAs (Decidable (imsi.length ≤ imsiMaxDigits ∧
      (tmsi ≠ reservedTmsi → ∀ e ∈ s.1.list, e.tmsi = tmsi → e.imsi = imsi ∧ imsi ≠ [])))
  | .put _ => isTrue trivial

def twoPaged : List Op :=
  [.page imsiOne 0x1111 1 true,.page imsiTwo 0x2222 1 true,.page imsiOne 0x3333 1 true,
    .findOrCreateByTmsi 0x2222,.put 1]

theorem subscr_identities_unique_paged :
    ∃ s, run identStep ({},{}) twoPaged = .ok s ∧ s.1.list.length = 2 ∧
      (s.1.list.filter (·.tmsi == 0x3333)).length ≤ 1 := by
  have hgood : GoodRun identStep Distinct ({},{}) twoPaged := by decide +kernel
  obtain ⟨s,hrun,hlen⟩ : ∃ s, run identStep ({},{}) twoPaged = .ok s ∧ s.1.list.length = 2 := by
    decide +kernel
  have hreach : ReachableDistinct s := Reach.of_run (.start rfl) hgood hrun
  have hu := (subscr_identities_unique hreach).2.2 0x3333 (.inl (by decide))
  exact ⟨s,hrun,hlen,hu.1 (by decide)⟩

/-- Subscribers without a TMSI share TMSI 0 and are found by it, and a TMSI that the MSC gives to
another subscriber stays with the first one, too. -/
theorem subscr_identities_shared :
    (∃ s, run identStep ({},{}) [.findOrCreateByImsi imsiOne,.findOrCreateByImsi imsiTwo] = .ok s ∧
      (s.1.list.filter (·.tmsi == 0)).length = 2 ∧ s.2.tmsis = [] ∧
      ∃ r, s.1.bscSubscrFindByTmsi 0 = .ok r ∧ r.2 = some 0) ∧
    ∃ s, run identStep ({},{}) [.page imsiOne 0x1111 1 true,.page imsiTwo 0x1111 1 true] = .ok s ∧
      (s.1.list.filter (·.tmsi == 0x1111)).length = 2 := by
  decide +kernel

end Uniqueness

end OsmoBsc.Subscr
