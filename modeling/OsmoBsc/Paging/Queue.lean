import OsmoBsc.Paging.Model
import Mathlib.Algebra.BigOperators.Fin
set_option autoImplicit false

namespace OsmoBsc.Paging
open EventFsm

section Queue

variable {n : Nat}

def PagingState.bsubs (p : PagingState) : List SubscrId := p.pendingRequests.map (·.bsub)

def State.requests (st : State n) (bsub : SubscrId) : Nat := ∑ b, (st.bts b).bsubs.count bsub

/-- One BTS: at most one request for each subscriber, and a timer that sees to them. -/
structure PagingState.Ok (p : PagingState) : Prop where
  unique : p.bsubs.Nodup
  timer : p.pendingRequests ≠ [] → p.workTimer = true ∨ p.creditTimer = true
  fresh : p.initialized = false → p.pendingRequests = []

/-- All BTSs: every pending request holds one reference to its subscriber. -/
structure Ok (st : State n) : Prop where
  bts : ∀ b, (st.bts b).Ok
  refs : ∀ bsub, st.useCount bsub = st.others bsub + st.requests bsub

def Keeps (post : State n → Prop) (r : Except Fault (State n)) : Prop :=
  r = .error .useCountMax ∨ ∃ st, r = .ok st ∧ Ok st ∧ post st

variable {st : State n} {b : Fin n} {p : PagingState} {bsub : SubscrId} {env : Env}

@[simp] theorem updBts_self : (st.updBts b p).bts b = p := by simp [State.updBts]

@[simp] theorem updBts_ne {b' : Fin n} (h : b' ≠ b) : (st.updBts b p).bts b' = st.bts b' := by
  simp [State.updBts,h]

theorem requests_updBts (bsub : SubscrId) :
    (st.updBts b p).requests bsub + (st.bts b).bsubs.count bsub
      = st.requests bsub + p.bsubs.count bsub := by
  unfold State.requests
  rw [← Finset.add_sum_erase _ _ (Finset.mem_univ b),← Finset.add_sum_erase _ _ (Finset.mem_univ b)]
  have h : ∀ b' ∈ Finset.univ.erase b, ((st.updBts b p).bts b').bsubs.count bsub
      = (st.bts b').bsubs.count bsub := by
    intro b' hb'
    rw [updBts_ne (Finset.ne_of_mem_erase hb')]
  rw [Finset.sum_congr rfl h,updBts_self]
  omega

theorem Ok.updBts (use others : SubscrId → Nat) (h : Ok st) (hp : p.Ok)
    (hrefs : ∀ bsub, use bsub + st.others bsub + (st.bts b).bsubs.count bsub
      = st.useCount bsub + others bsub + p.bsubs.count bsub) :
    Ok { st.updBts b p with useCount := use, others := others } := by
  refine ⟨fun b' => ?_,fun s => ?_⟩
  · by_cases hb : b' = b
    · subst hb
      change ((st.updBts b' p).bts b').Ok
      rwa [updBts_self]
    · change ((st.updBts b p).bts b').Ok
      rw [updBts_ne hb]
      exact h.bts b'
  · have h1 : (st.updBts b p).requests s + _ = _ := requests_updBts s
    have h2 := h.refs s
    have h3 := hrefs s
    change use s = others s + (st.updBts b p).requests s
    omega

theorem Ok.same (h : Ok st) (hp : p.Ok) (hperm : p.bsubs.Perm (st.bts b).bsubs) :
    Ok (st.updBts b p) :=
  h.updBts st.useCount st.others hp fun s => by rw [hperm.count_eq]

theorem pagingInitIfNeeded_ok (h : p.Ok) : ∃ p', pagingInitIfNeeded p = .ok p' ∧ p'.Ok
    ∧ p'.pendingRequests = p.pendingRequests := by
  unfold pagingInitIfNeeded
  split
  · exact ⟨p,rfl,h,rfl⟩
  · rename_i hi
    have hnil := h.fresh (by simpa using hi)
    rw [if_pos (by simp [hnil])]
    exact ⟨_,rfl,⟨h.unique,h.timer,fun h => (by cases h)⟩,rfl⟩

theorem pagingScheduleIfNeeded_ok (hu : p.bsubs.Nodup)
    (hi : p.initialized = false → p.pendingRequests = []) : (pagingScheduleIfNeeded p).Ok
    ∧ (pagingScheduleIfNeeded p).pendingRequests = p.pendingRequests := by
  unfold pagingScheduleIfNeeded
  split
  · rename_i he
    exact ⟨⟨hu,fun h => absurd (by simpa using he) h,hi⟩,rfl⟩
  · exact ⟨⟨hu,fun _ => .inl rfl,hi⟩,rfl⟩

theorem pagingHandlePendingRequests_ok (env : Env) (hu : p.bsubs.Nodup)
    (hi : p.initialized = false → p.pendingRequests = []) :
    ∃ p', pagingHandlePendingRequests env p = .ok p' ∧ p'.Ok ∧ p'.bsubs.Perm p.bsubs := by
  unfold pagingHandlePendingRequests
  split
  · rename_i hnil
    exact ⟨p,rfl,⟨hu,fun h => absurd hnil h,hi⟩,.refl _⟩
  · rename_i request rest hcons
    have hinit : p.initialized = true := by
      by_contra hne
      rw [hi (by simpa using hne)] at hcons
      cases hcons
    have hno {q : PagingState} (hq : q.initialized = p.initialized) :
        q.initialized = false → q.pendingRequests = [] := by
      rw [hq,hinit]
      exact fun h => by cases h
    split
    · exact ⟨_,rfl,⟨hu,fun _ => .inr rfl,hno rfl⟩,.refl _⟩
    · rename_i hslots
      split
      · exact ⟨_,rfl,⟨hu,fun _ => .inl rfl,hno rfl⟩,.refl _⟩
      · split
        · exact ⟨_,rfl,⟨hu,fun _ => .inl rfl,hno rfl⟩,.refl _⟩
        · have hperm : (rest.map (·.bsub) ++ [request.bsub]).Perm p.bsubs := by
            rw [PagingState.bsubs,hcons]
            exact List.perm_append_singleton _ _
          simp only [decSlots,hslots,if_false,ok_bind]
          refine ⟨_,rfl,⟨?_,fun _ => .inl rfl,hno rfl⟩,?_⟩
          · simpa [PagingState.bsubs] using hperm.nodup_iff.mpr hu
          · simpa [PagingState.bsubs] using hperm

theorem map_eraseP (l : List Request) :
    (l.eraseP (·.bsub == bsub)).map (·.bsub) = (l.map (·.bsub)).erase bsub := by
  induction l with
  | nil => rfl
  | cons r l ih =>
    by_cases h : r.bsub = bsub
    · simp [h]
    · simp [h,ih]

theorem pagingRemoveRequest_ok (h : Ok st) (hmem : bsub ∈ (st.bts b).bsubs) :
    ∃ st', pagingRemoveRequest b bsub st = .ok st' ∧ Ok st'
      ∧ (st'.bts b).bsubs = (st.bts b).bsubs.erase bsub ∧ ∀ b' ≠ b, st'.bts b' = st.bts b' := by
  have hpos : 0 < (st.bts b).bsubs.count bsub := List.count_pos_iff.mpr hmem
  have hle : (st.bts b).bsubs.count bsub ≤ st.requests bsub := by
    unfold State.requests
    rw [← Finset.add_sum_erase _ _ (Finset.mem_univ b)]
    omega
  have huse : st.useCount bsub ≠ 0 := by
    have := h.refs bsub
    omega
  have herase : ({ st.bts b with
      pendingRequests := (st.bts b).pendingRequests.eraseP (·.bsub == bsub) } : PagingState).bsubs
      = (st.bts b).bsubs.erase bsub := map_eraseP _
  unfold pagingRemoveRequest bscSubscrPut
  have hcount : (st.updBts b { st.bts b with
      pendingRequests := (st.bts b).pendingRequests.eraseP (·.bsub == bsub) }).useCount
      = st.useCount := rfl
  rw [hcount,if_neg huse]
  refine ⟨_,rfl,h.updBts _ st.others ?_ fun s => ?_,?_,fun b' hb' => updBts_ne hb'⟩
  · refine ⟨herase ▸ (h.bts b).unique.erase bsub,fun hne => (h.bts b).timer ?_,fun hi => ?_⟩
    · rintro hnil
      exact hne (by simp [hnil])
    · simp [(h.bts b).fresh hi]
  · rw [herase]
    by_cases hs : s = bsub
    · subst hs
      rw [Function.update_self,List.count_erase_self]
      omega
    · rw [Function.update_of_ne hs,List.count_erase_of_ne hs]
  · change ((st.updBts b _).bts b).bsubs = _
    rw [updBts_self]
    exact herase

theorem bscSubscrGet_keeps {post : State n → Prop} {f : State n → Except Fault (State n)}
    (h : Keeps post (f { st with useCount := Function.update st.useCount bsub (st.useCount bsub + 1) })) :
    Keeps post (bscSubscrGet bsub st >>= f) := by
  unfold bscSubscrGet
  split
  · exact h
  · exact .inl rfl

theorem keeps_ok {post : State n → Prop} (h : Ok st) (hp : post st) : Keeps post (.ok st) :=
  .inr ⟨st,rfl,h,hp⟩

theorem pagingInitIfNeeded_initialized {p' : PagingState} (h : pagingInitIfNeeded p = .ok p') :
    p'.initialized = true := by
  unfold pagingInitIfNeeded at h
  split at h
  · cases h
    assumption
  · split at h
    · cases h
      rfl
    · cases h

/-- The subscriber of the request is paged on the BTS from now on, and it is paged there once; nothing changes on
the other BTSs. -/
structure Requested (b : Fin n) (req : Request) (st st' : State n) : Prop where
  added : (st'.bts b).pendingRequests =
    if req.bsub ∈ (st.bts b).bsubs then (st.bts b).pendingRequests else (st.bts b).pendingRequests ++ [req]
  kept : ∀ b' ≠ b, st'.bts b' = st.bts b'
  others : st'.others = st.others

theorem pagingRequestBts_spec (h : Ok st) (type : ChanNeeded) (msc : MscId) :
    Keeps (Requested b { bsub := bsub, chanType := type, msc := msc } st)
      (pagingRequestBts b true bsub type msc st) := by
  obtain ⟨p,hp,hok,hreq⟩ := pagingInitIfNeeded_ok (h.bts b)
  have hsubs : p.bsubs = (st.bts b).bsubs := by rw [PagingState.bsubs,hreq,PagingState.bsubs]
  have hpend : pagingPendingRequest p bsub = true ↔ bsub ∈ (st.bts b).bsubs := by
    rw [← hsubs]
    simp [pagingPendingRequest,PagingState.bsubs]
  simp only [pagingRequestBts,Bool.not_true,Bool.false_eq_true,if_false,hp,ok_bind]
  split
  · rename_i hin
    refine keeps_ok (h.same hok (by rw [hsubs])) ⟨?_,fun b' hb' => updBts_ne hb',rfl⟩
    rw [if_pos (hpend.mp hin),updBts_self,hreq]
  · rename_i hnew
    have hnot : bsub ∉ (st.bts b).bsubs := fun hin => hnew (hpend.mpr hin)
    have hnodup : (p.bsubs ++ [bsub]).Nodup := by
      rw [List.nodup_append,hsubs]
      refine ⟨(h.bts b).unique,List.nodup_singleton _,?_⟩
      rintro a ha c hc rfl
      rw [List.mem_singleton.mp hc] at ha
      exact hnot ha
    obtain ⟨hok',hreq'⟩ := pagingScheduleIfNeeded_ok (p := { p with
      pendingRequests := p.pendingRequests ++ [{ bsub := bsub, chanType := type, msc := msc }] })
      (by simpa [PagingState.bsubs] using hnodup) (by simp [pagingInitIfNeeded_initialized hp])
    have h' := h.updBts (b := b) (Function.update st.useCount bsub (st.useCount bsub + 1)) st.others
      hok' fun s => by
        rw [PagingState.bsubs.eq_def (pagingScheduleIfNeeded _),hreq']
        simp only [List.map_append,List.map_cons,List.map_nil]
        change _ = _ + (p.bsubs ++ [bsub]).count s
        rw [hsubs,List.count_append,List.count_singleton]
        by_cases hs : s = bsub
        · subst hs
          rw [Function.update_self]
          simp
          omega
        · rw [Function.update_of_ne hs]
          simp [Ne.symm hs]
    refine bscSubscrGet_keeps (keeps_ok ?_ ⟨?_,fun b' hb' => ?_,rfl⟩)
    · convert h' using 1
      simp [State.updBts]
    · rw [if_neg hnot,updBts_self,hreq',hreq]
    · rw [updBts_ne hb']
      exact updBts_ne hb'

theorem pagingRequestStopBts_ok (b : Fin n) (bsub : SubscrId) (h : Ok st) :
    ∃ st', pagingRequestStopBts b bsub st = .ok st' ∧ Ok st' ∧ bsub ∉ (st'.bts b).bsubs ∧ ∀ b' ≠ b, st'.bts b' = st.bts b' := by
  obtain ⟨p,hp,hok,hreq⟩ := pagingInitIfNeeded_ok (h.bts b)
  have hsubs : p.bsubs = (st.bts b).bsubs := by rw [PagingState.bsubs,hreq,PagingState.bsubs]
  have h' : Ok (st.updBts b p) := h.same hok (by rw [hsubs])
  unfold pagingRequestStopBts
  simp only [hp,ok_bind]
  split
  · rename_i hpend
    have hmem : bsub ∈ p.bsubs := by
      simpa [pagingPendingRequest,PagingState.bsubs] using hpend
    obtain ⟨st',he,hok',hers,hrest⟩ := pagingRemoveRequest_ok (b := b) h' (by rwa [updBts_self])
    refine ⟨st',he,hok',?_,fun b' hb' => (hrest b' hb').trans (updBts_ne hb')⟩
    rw [hers,updBts_self]
    exact fun hin => (hok.unique.mem_erase_iff.mp hin).1 rfl
  · rename_i hnew
    refine ⟨_,rfl,h',?_,fun b' hb' => updBts_ne hb'⟩
    rw [updBts_self]
    simpa [pagingPendingRequest,PagingState.bsubs] using hnew

/-- A BTS where the subscriber is no longer paged stays so while others are stopped. -/
theorem stopAll_ok (bsub : SubscrId) (bs : List (Fin n)) (h : Ok st) :
    ∃ st', bs.foldlM (fun st b => pagingRequestStopBts b bsub st) st = .ok st' ∧ Ok st'
      ∧ ∀ b, b ∈ bs ∨ bsub ∉ (st.bts b).bsubs → bsub ∉ (st'.bts b).bsubs := by
  induction bs generalizing st with
  | nil => exact ⟨st,rfl,h,fun b hb => hb.resolve_left (by simp)⟩
  | cons b bs ih =>
    obtain ⟨st1,he1,h1,hno,hrest⟩ := pagingRequestStopBts_ok b bsub h
    obtain ⟨st2,he2,h2,hall⟩ := ih h1
    refine ⟨st2,by simp only [List.foldlM_cons,he1,ok_bind]; exact he2,h2,fun b' hb' => hall b' ?_⟩
    by_cases heq : b' = b
    · exact .inr (heq ▸ hno)
    · rcases hb' with hb' | hb'
      · exact .inl (List.mem_of_ne_of_mem heq hb')
      · exact .inr (by rwa [hrest b' heq])

theorem mem_stopOrder (b : Option (Fin n)) (b' : Fin n) : b' ∈ stopOrder b := by
  unfold stopOrder
  by_cases h : b = some b'
  · simp [h]
  · simp [h]

theorem Ok.get (bsub : SubscrId) (h : Ok st) : Ok { st with
    useCount := Function.update st.useCount bsub (st.useCount bsub + 1)
    others := Function.update st.others bsub (st.others bsub + 1) } := by
  refine ⟨h.bts,fun s => ?_⟩
  have hr := h.refs s
  change Function.update st.useCount bsub (st.useCount bsub + 1) s
    = Function.update st.others bsub (st.others bsub + 1) s + st.requests s
  by_cases hs : s = bsub
  · subst hs
    rw [Function.update_self,Function.update_self]
    omega
  · rw [Function.update_of_ne hs,Function.update_of_ne hs]
    exact hr

theorem pagingRequestStop_keeps (h : Ok st) (b : Option (Fin n)) :
    Keeps (fun st' => ∀ b, bsub ∉ (st'.bts b).bsubs) (pagingRequestStop b bsub st) := by
  refine bscSubscrGet_keeps ?_
  obtain ⟨st',he,hok,hall⟩ := stopAll_ok bsub (stopOrder b) (h.get bsub)
  exact .inr ⟨st',he,hok,fun b' => hall b' (.inl (mem_stopOrder b b'))⟩

theorem removeAll_ok (gone : List Request) (h : Ok st) (hnodup : (gone.map (·.bsub)).Nodup)
    (hmem : ∀ req ∈ gone, req.bsub ∈ (st.bts b).bsubs) :
    ∃ st', gone.foldlM (fun st req => pagingRemoveRequest b req.bsub st) st = .ok st' ∧ Ok st' := by
  induction gone generalizing st with
  | nil => exact ⟨st,rfl,h⟩
  | cons req gone ih =>
    obtain ⟨st1,he1,h1,hers,-⟩ := pagingRemoveRequest_ok h (hmem req (List.mem_cons_self ..))
    simp only [List.map_cons,List.nodup_cons] at hnodup
    obtain ⟨st2,he2,h2⟩ := ih h1 hnodup.2 fun req' hreq' => by
      rw [hers]
      refine (List.mem_erase_of_ne fun heq => hnodup.1 ?_).mpr
        (hmem req' (List.mem_cons_of_mem _ hreq'))
      exact heq ▸ List.mem_map_of_mem hreq'
    exact ⟨st2,by simp only [List.foldlM_cons,he1,ok_bind]; exact he2,h2⟩

theorem pagingFlushBts_ok (msc : Option MscId) (h : Ok st) :
    ∃ st', pagingFlushBts msc b st = .ok st' ∧ Ok st' := by
  obtain ⟨p,hp,hok,hreq⟩ := pagingInitIfNeeded_ok (h.bts b)
  have hsubs : p.bsubs = (st.bts b).bsubs := by rw [PagingState.bsubs,hreq,PagingState.bsubs]
  unfold pagingFlushBts
  simp only [hp,ok_bind]
  refine removeAll_ok _ (h.same hok (by rw [hsubs])) ?_ fun req hreq => ?_
  · exact hok.unique.sublist (List.filter_sublist.map _)
  · rw [updBts_self]
    exact List.mem_map_of_mem (List.mem_of_mem_filter hreq)

theorem removeRequest_eq {st' : State n} (he : pagingRemoveRequest b bsub st = .ok st') :
    st'.bts = (st.updBts b { st.bts b with
      pendingRequests := (st.bts b).pendingRequests.eraseP (·.bsub == bsub) }).bts ∧ st'.others = st.others := by
  rw [pagingRemoveRequest,bscSubscrPut] at he
  split at he
  · cases he
  · cases he
    exact ⟨rfl,rfl⟩

theorem eraseP_eq_filter {l : List Request} (h : (l.map (·.bsub)).Nodup) :
    l.eraseP (·.bsub == bsub) = l.filter (!·.bsub == bsub) := by
  induction l with
  | nil => rfl
  | cons r l ih =>
    rw [List.map_cons,List.nodup_cons] at h
    by_cases hr : r.bsub = bsub
    · have hrest : ∀ r' ∈ l, (!r'.bsub == bsub) = true := by
        intro r' hr'
        rw [Bool.not_eq_true',beq_eq_false_iff_ne]
        rintro heq
        exact h.1 (List.mem_map.mpr ⟨r',hr',heq.trans hr.symm⟩)
      simp [hr,List.filter_eq_self.mpr hrest]
    · simp [hr,ih h.2]

theorem removeAll_bts {st' : State n} {gone : List Request} (hu : (st.bts b).bsubs.Nodup)
    (he : gone.foldlM (fun st req => pagingRemoveRequest b req.bsub st) st = .ok st') :
    st'.bts b = { st.bts b with
      pendingRequests := (st.bts b).pendingRequests.filter fun r => !(gone.map (·.bsub)).contains r.bsub }
      ∧ (∀ b' ≠ b, st'.bts b' = st.bts b') ∧ st'.others = st.others := by
  induction gone generalizing st with
  | nil =>
    cases he
    exact ⟨by simp,fun _ _ => rfl,rfl⟩
  | cons req gone ih =>
    rw [List.foldlM_cons] at he
    obtain ⟨st1,he1,he2⟩ := bind_eq_ok.mp he
    obtain ⟨hbts1,hothers1⟩ := removeRequest_eq he1
    have hb1 : st1.bts b = { st.bts b with
        pendingRequests := (st.bts b).pendingRequests.filter (!·.bsub == req.bsub) } := by
      rw [hbts1,updBts_self,eraseP_eq_filter hu]
    have hu1 : (st1.bts b).bsubs.Nodup := by
      rw [PagingState.bsubs,hb1]
      exact hu.sublist (List.filter_sublist.map _)
    obtain ⟨hb2,hrest2,hothers2⟩ := ih hu1 he2
    refine ⟨?_,fun b' hb' => ?_,hothers2.trans hothers1⟩
    · rw [hb2,hb1]
      dsimp only
      rw [List.filter_filter]
      congr 1
      refine List.filter_congr fun r _ => ?_
      rw [List.map_cons,List.contains_cons,Bool.not_or,Bool.and_comm]
    · rw [hrest2 b' hb',hbts1,updBts_ne hb']

theorem pagingFlushBts_bts {st' : State n} {msc : Option MscId} (h : Ok st)
    (he : pagingFlushBts msc b st = .ok st') :
    (∃ p, pagingInitIfNeeded (st.bts b) = .ok p ∧ st'.bts b =
        { p with pendingRequests := p.pendingRequests.filter fun req => !msc.all (req.msc == ·) })
      ∧ (∀ b' ≠ b, st'.bts b' = st.bts b') ∧ st'.others = st.others := by
  obtain ⟨p,hp,hok,hreq⟩ := pagingInitIfNeeded_ok (h.bts b)
  simp only [pagingFlushBts,hp,ok_bind] at he
  obtain ⟨hb,hrest,hothers⟩ := removeAll_bts (by rw [updBts_self]; exact hok.unique) he
  refine ⟨⟨p,hp,?_⟩,fun b' hb' => (hrest b' hb').trans (updBts_ne hb'),hothers⟩
  have hgone : (p.pendingRequests.filter fun r => !((p.pendingRequests.filter fun req =>
      msc.all (req.msc == ·)).map (·.bsub)).contains r.bsub) =
      p.pendingRequests.filter fun req => !msc.all (req.msc == ·) := by
    refine List.filter_congr fun r hr => ?_
    rw [Bool.not_inj_iff,Bool.eq_iff_iff,List.contains_iff_mem,List.mem_map]
    constructor
    · rintro ⟨r',hr',heq⟩
      rw [List.mem_filter] at hr'
      rw [← List.inj_on_of_nodup_map hok.unique hr'.1 hr heq]
      exact hr'.2
    · intro hm
      exact ⟨r,List.mem_filter.mpr ⟨hr,hm⟩,rfl⟩
  rw [hb,updBts_self,hgone]

theorem flushNetwork_ok (msc : Option MscId) (bs : List (Fin n)) (h : Ok st) :
    ∃ st', bs.foldlM (fun st b => pagingFlushBts msc b st) st = .ok st' ∧ Ok st' := by
  induction bs generalizing st with
  | nil => exact ⟨st,rfl,h⟩
  | cons b bs ih =>
    obtain ⟨st1,he1,h1⟩ := pagingFlushBts_ok (b := b) msc h
    obtain ⟨st2,he2,h2⟩ := ih h1
    exact ⟨st2,by simp only [List.foldlM_cons,he1,ok_bind]; exact he2,h2⟩

theorem step_keeps (h : Ok st) (i : Input n) : Keeps (fun _ => True) (step st i) := by
  have hdone (hr : ∃ st', step st i = .ok st' ∧ Ok st') : Keeps (fun _ => True) (step st i) := by
    obtain ⟨st',he,hok⟩ := hr
    exact .inr ⟨st',he,hok,trivial⟩
  cases i with
  | request b trxUsable bsub type msc =>
    simp only [step]
    split
    · exact keeps_ok h trivial
    · cases trxUsable with
      | false => exact keeps_ok h trivial
      | true =>
        refine (pagingRequestBts_spec h type msc).imp id ?_
        rintro ⟨st',he,hok,-⟩
        exact ⟨st',he,hok,trivial⟩
  | stop b bsub =>
    simp only [step]
    split
    · exact keeps_ok h trivial
    · refine (pagingRequestStop_keeps h b).imp id ?_
      rintro ⟨st',he,hok,-⟩
      exact ⟨st',he,hok,trivial⟩
  | worker b env =>
    simp only [step]
    split
    · exact keeps_ok h trivial
    · obtain ⟨p,hp,hok,hperm⟩ := pagingHandlePendingRequests_ok env
        (p := { st.bts b with workTimer := false }) (h.bts b).unique (h.bts b).fresh
      simp only [expire,hp,ok_bind]
      exact keeps_ok (h.same hok hperm) trivial
  | credit b env =>
    simp only [step]
    split
    · exact keeps_ok h trivial
    · obtain ⟨p,hp,hok,hperm⟩ := pagingHandlePendingRequests_ok env
        (p := { st.bts b with creditTimer := false, availableSlots := 20 })
        (h.bts b).unique (h.bts b).fresh
      simp only [expire,pagingGiveCredit,hp,ok_bind]
      exact keeps_ok (h.same hok hperm) trivial
  | t3113Expired b i =>
    simp only [step]
    split
    · exact keeps_ok h trivial
    · rename_i req hreq
      obtain ⟨st',he,hok,-⟩ := pagingRemoveRequest_ok (b := b) h
        (List.mem_map_of_mem (List.mem_of_getElem? hreq))
      exact .inr ⟨st',he,hok,trivial⟩
  | bufferSpace b freeSlots =>
    obtain ⟨p,hp,hok,hreq⟩ := pagingInitIfNeeded_ok (h.bts b)
    obtain ⟨hok',hreq'⟩ := pagingScheduleIfNeeded_ok
      (p := { p with creditTimer := false, availableSlots := freeSlots }) hok.unique hok.fresh
    simp only [step,expire,pagingUpdateBufferSpace,hp,ok_bind]
    refine keeps_ok (h.same hok' ?_) trivial
    rw [PagingState.bsubs,hreq',PagingState.bsubs,hreq]
  | flushBts b msc => exact hdone (pagingFlushBts_ok msc h)
  | flushNetwork msc => exact hdone (flushNetwork_ok msc _ h)
  | freeChansNeed b count =>
    exact keeps_ok (h.same ⟨(h.bts b).unique,(h.bts b).timer,(h.bts b).fresh⟩ (.refl _)) trivial
  | getSubscr bsub => exact bscSubscrGet_keeps (keeps_ok (h.get bsub) trivial)
  | putSubscr bsub =>
    simp only [step]
    split
    · exact keeps_ok h trivial
    · rename_i hheld
      have huse : st.useCount bsub ≠ 0 := by
        have := h.refs bsub
        omega
      simp only [bscSubscrPut,huse,if_false]
      refine keeps_ok ⟨h.bts,fun s => ?_⟩ trivial
      have hr := h.refs s
      change Function.update st.useCount bsub (st.useCount bsub - 1) s
        = Function.update st.others bsub (st.others bsub - 1) s + st.requests s
      by_cases hs : s = bsub
      · subst hs
        rw [Function.update_self,Function.update_self]
        omega
      · rw [Function.update_of_ne hs,Function.update_of_ne hs]
        exact hr

theorem run_keeps (h : Ok st) (is : List (Input n)) : Keeps (fun _ => True) (run step st is) := by
  induction is generalizing st with
  | nil => exact keeps_ok h trivial
  | cons i is ih =>
    simp only [run]
    rcases step_keeps h i with he | ⟨st',he,hok,-⟩
    · rw [he]
      exact .inl rfl
    · rw [he]
      exact ih hok

theorem initial_ok : Ok ({} : State n) := by
  refine ⟨fun b => ⟨List.nodup_nil,fun h => absurd rfl h,fun _ => rfl⟩,fun bsub => ?_⟩
  change 0 = 0 + State.requests _ bsub
  simp [State.requests,PagingState.bsubs]

/-- A run of paging events never frees a subscriber that is paged, never initializes a
BTS with pending requests and never takes a slot where none is left; it stops early only
for the assertion of `bsc_subscr_get`. In the state it reaches each BTS has at most one
request for a subscriber and a timer for them, the requests hold one reference each,
`paging_request_bts` adds the request unless the subscriber has one, and
`paging_request_stop` leaves no request for its subscriber. -/
theorem paging_run (n : Nat) (is : List (Input n)) :
    run step ({} : State n) is = .error .useCountMax ∨ ∃ st, run step ({} : State n) is = .ok st
      ∧ (∀ b, ((st.bts b).pendingRequests.map (·.bsub)).Nodup)
      ∧ (∀ bsub, st.useCount bsub
        = st.others bsub + ∑ b, ((st.bts b).pendingRequests.map (·.bsub)).count bsub)
      ∧ (∀ b, (st.bts b).pendingRequests ≠ [] →
        (st.bts b).workTimer = true ∨ (st.bts b).creditTimer = true)
      ∧ (∀ b bsub type msc, pagingRequestBts b true bsub type msc st = .error .useCountMax ∨
        ∃ st', pagingRequestBts b true bsub type msc st = .ok st'
          ∧ Requested b { bsub := bsub, chanType := type, msc := msc } st st')
      ∧ ∀ b bsub, pagingRequestStop b bsub st = .error .useCountMax ∨
        ∃ st', pagingRequestStop b bsub st = .ok st'
          ∧ ∀ b', ∀ req ∈ (st'.bts b').pendingRequests, req.bsub ≠ bsub := by
  refine (run_keeps initial_ok is).imp id ?_
  rintro ⟨st,he,hok,-⟩
  refine ⟨st,he,fun b => (hok.bts b).unique,hok.refs,fun b => (hok.bts b).timer,
    fun b bsub type msc => ?_,fun b bsub => ?_⟩
  · refine (pagingRequestBts_spec hok type msc).imp id ?_
    rintro ⟨st',he',-,hadded⟩
    exact ⟨st',he',hadded⟩
  · refine (pagingRequestStop_keeps hok b).imp id ?_
    rintro ⟨st',he',-,hnone⟩
    refine ⟨st',he',fun b' req hreq heq => hnone b' ?_⟩
    exact heq ▸ List.mem_map_of_mem hreq

end Queue

end OsmoBsc.Paging
