import OsmoBsc.Si.SystemInformation
set_option autoImplicit false

namespace OsmoBsc.Si

section Statics

variable {lib : SiLib} {net : NeighNetwork} {bts : SiConfig} {st : SiState} {t : SysinfoType}
  {s : Statics} {seen : Bool}

/-- The shared records with nothing in them but whether EGPRS was announced for some BTS. -/
def Statics.base (seen : Bool) : Statics where
  si13Default := { cellOpts := { extInfoPresent := seen, extInfo := { egprsSupported := seen } } }

/-- The shared records hold their initial values, except for the fields that are written
for each message and those that announce EGPRS. -/
def Statics.Kept (seen : Bool) (s : Statics) : Prop :=
  (∃ selection ter quater early early3g present, s.siInfo =
    { (Statics.base seen).siInfo with
      selectionParams := selection
      si2terIndicator := ter
      si2quaterIndicator := quater
      earlyCmCtrl := early
      earlyCmRestrict3g := early3g
      gprsInd := { (Statics.base seen).siInfo.gprsInd with present := present } })
  ∧ ∃ rac order mark ack rach, s.si13Default =
    { (Statics.base seen).si13Default with
      rac := rac
      netCtrlOrd := order
      bcchChangeMark := mark
      cellOpts := { (Statics.base seen).si13Default.cellOpts with
        ctrlAckTypeUseBlock := ack
        supportsEgprs11bitRach := rach } }

theorem Statics.Kept.forBts (h : s.Kept seen) : (staticsForBts bts s).Kept (seen || bts.gprsMode == .egprs) := by
  obtain ⟨⟨selection,ter,quater,early,early3g,present,hinfo⟩,rac,order,mark,ack,rach,hdefault⟩ := h
  obtain ⟨info,default⟩ := s
  subst hinfo hdefault
  unfold staticsForBts
  cases bts.gprsMode <;> cases seen <;> exact ⟨⟨_,_,_,_,_,_,rfl⟩,_,_,_,_,_,rfl⟩

theorem Statics.Kept.forSi3 (h : s.Kept seen) :
    Statics.Kept seen { s with siInfo := siInfoForSi3 bts st s.siInfo } := by
  obtain ⟨⟨selection,ter,quater,early,early3g,present,hinfo⟩,hdefault⟩ := h
  obtain ⟨info,default⟩ := s
  subst hinfo
  exact ⟨⟨_,_,_,_,_,_,rfl⟩,hdefault⟩

theorem Statics.Kept.forSi13 (h : s.Kept seen) :
    Statics.Kept seen { s with si13Default := si13DefaultForSi13 bts s.si13Default } := by
  obtain ⟨hinfo,rac,order,mark,ack,rach,hdefault⟩ := h
  obtain ⟨info,default⟩ := s
  subst hdefault
  exact ⟨hinfo,_,_,_,_,_,rfl⟩

/-- A call of `gsm_generate_si` keeps all of the records but the EGPRS announcement, which
it only ever adds. -/
theorem Statics.Kept.generate (h : s.Kept seen) (lib : SiLib) (net : NeighNetwork) (bts : SiConfig)
    (t : SysinfoType) (st : SiState) :
    ((gsmGenerateSi lib net bts t s st).1).Kept (seen || bts.gprsMode == .egprs) := by
  cases t with
  | t3 => exact h.forBts.forSi3
  | t13 => exact h.forBts.forSi13
  | _ => exact h.forBts

theorem generate_base (h : s.Kept seen) :
    (gsmGenerateSi lib net bts t s st).2 = (gsmGenerateSi lib net bts t (.base seen) st).2 := by
  obtain ⟨⟨selection,ter,quater,early,early3g,present,hinfo⟩,rac,order,mark,ack,rach,hdefault⟩ := h
  obtain ⟨info,default⟩ := s
  subst hinfo hdefault
  unfold gsmGenerateSi staticsForBts
  cases bts.gprsMode <;> cases t <;> rfl

theorem generate_alike {seen' : Bool} (h : bts.gprsMode = .egprs ∨ t ≠ .t13 ∨ seen = seen') :
    (gsmGenerateSi lib net bts t (.base seen) st).2 = (gsmGenerateSi lib net bts t (.base seen') st).2 := by
  rcases h with h | h | h
  · unfold gsmGenerateSi staticsForBts
    rw [h]
    cases t <;> rfl
  · unfold gsmGenerateSi staticsForBts
    cases t with
    | t13 => exact absurd rfl h
    | _ => cases bts.gprsMode <;> rfl
  · rw [h]

def egprsSeen (calls : List SiCall) : Bool := calls.any fun call => call.bts.gprsMode == .egprs

theorem staticsAfter_kept (lib : SiLib) (net : NeighNetwork) (calls : List SiCall) :
    (staticsAfter lib net calls).Kept (egprsSeen calls) := by
  have hrun : ∀ (calls : List SiCall) (s : Statics) (seen : Bool), s.Kept seen →
      (calls.foldl (fun s call => (gsmGenerateSi lib net call.bts call.type s call.st).1) s).Kept
        (seen || egprsSeen calls) := by
    intro calls
    induction calls with
    | nil =>
      intro s seen h
      simpa [egprsSeen] using h
    | cons call calls ih =>
      intro s seen h
      have := ih _ _ (h.generate lib net call.bts call.type call.st)
      rw [List.foldl_cons]
      rwa [egprsSeen,List.any_cons,← Bool.or_assoc]
  have hinit : Statics.Kept false {} := ⟨⟨_,_,_,_,_,_,rfl⟩,_,_,_,_,_,rfl⟩
  have := hrun calls {} false hinit
  rwa [Bool.false_or] at this

end Statics

section Buffers

variable {lib : SiLib} {net : NeighNetwork} {bts : SiConfig} {st st' : SiState} {t : SysinfoType}
  {s s' : Statics} {T : SysinfoType → Prop}

/-- Two states of a BTS with the same `si_valid` and the same messages of these types. -/
structure SiState.Agree (T : SysinfoType → Prop) (st st' : SiState) : Prop where
  valid : st.siValid = st'.siValid
  buf : ∀ t, t ≠ .t2quater → T t → st.siBuf t = st'.siBuf t
  quater : T .t2quater → st.siValid .t2quater = true → st.si2qBufs = st'.si2qBufs

/-- Both fail in the same way, or both succeed and `R` holds of the results. -/
def BothOk {α : Type} (R : α → α → Prop) : Except EncError α → Except EncError α → Prop
  | .ok a, .ok b => R a b
  | .error e, .error e' => e = e'
  | _, _ => False

theorem SiState.Agree.mono {T' : SysinfoType → Prop} (h : st.Agree T st') (hT : ∀ t, T' t → T t) :
    st.Agree T' st' :=
  ⟨h.valid,fun t hne ht => h.buf t hne (hT t ht),fun ht => h.quater (hT _ ht)⟩

theorem SiState.Agree.setValid (h : st.Agree T st') {valid : Bool}
    (hq : valid = true → t = .t2quater → ¬ T .t2quater) :
    (st.setValid t valid).Agree T (st'.setValid t valid) := by
  refine ⟨by simp only [SiState.setValid,h.valid],h.buf,fun hT hvalid => h.quater hT ?_⟩
  simp only [SiState.setValid] at hvalid
  by_cases ht : t = .t2quater
  · subst ht
    rw [Function.update_self] at hvalid
    exact absurd hT (hq hvalid rfl)
  · rwa [Function.update_of_ne (Ne.symm ht)] at hvalid

theorem SiState.Agree.setBuf (h : st.Agree T st') (hq : t ≠ .t2quater) (parts : List (List Octet)) :
    (st.setBuf t parts).Agree (fun t' => t' = t ∨ T t') (st'.setBuf t parts) := by
  refine ⟨h.valid,fun t' hne ht => ?_,fun ht => h.quater (ht.resolve_left (Ne.symm hq))⟩
  simp only [SiState.setBuf]
  by_cases he : t' = t
  · subst he
    rw [Function.update_self,Function.update_self]
  · rw [Function.update_of_ne he,Function.update_of_ne he]
    exact h.buf t' hne (ht.resolve_left he)

theorem SiState.Agree.modify (h : st.Agree T st') (hq : t ≠ .t2quater) (ht : T t) (f : List Octet → List Octet) :
    SiState.Agree T { st with siBuf := Function.update st.siBuf t (f (st.siBuf t)) }
      { st' with siBuf := Function.update st'.siBuf t (f (st'.siBuf t)) } := by
  refine ⟨h.valid,fun t' hne ht' => ?_,h.quater⟩
  dsimp only
  by_cases he : t' = t
  · subst he
    rw [Function.update_self,Function.update_self,h.buf _ hq ht]
  · rw [Function.update_of_ne he,Function.update_of_ne he]
    exact h.buf t' hne ht'

def marks : SysinfoType → SysinfoType → Prop
  | .t2bis, t' => t' = .t2
  | .t5bis, t' => t' = .t5
  | _, _ => False

theorem BothOk.bind {α β : Type} {R : β → β → Prop} {f f' : α → Except EncError β} (r : Except EncError α)
    (h : ∀ a, BothOk R (f a) (f' a)) : BothOk R (r >>= f) (r >>= f') := by
  cases r with
  | error e => rfl
  | ok a => exact h a

theorem BothOk.ite {α : Type} {R : α → α → Prop} {x x' y y' : Except EncError α} {c : Prop} [Decidable c]
    (hx : BothOk R x x') (hy : BothOk R y y') :
    BothOk R (if c then x else y) (if c then x' else y') := by
  split
  · exact hx
  · exact hy

theorem BothOk.mono {α : Type} {R R' : α → α → Prop} {x y : Except EncError α} (h : BothOk R x y)
    (hR : ∀ a b, R a b → R' a b) : BothOk R' x y := by
  cases x <;> cases y
  · exact h
  · exact h
  · exact h
  · exact hR _ _ h

theorem BothOk.intro {α : Type} {R : α → α → Prop} {a b : α} (h : R a b) : BothOk R (.ok a) (.ok b) := h

theorem generate_agree (h : st.Agree T st') (hmarks : ∀ t', marks t t' → T t') :
    BothOk (SiState.Agree fun t' => t' = t ∨ T t') (gsmGenerateSi lib net bts t s st).2
      (gsmGenerateSi lib net bts t s st').2 := by
  cases t with
  | t1 => exact .bind _ fun chanList => .intro (h.setBuf (by decide) _)
  | t2 => exact .bind _ fun chanList => .intro (h.setBuf (by decide) _)
  | t2bis =>
    have hmark : T .t2 := hmarks .t2 rfl
    simp only [gsmGenerateSi,generateSi2bis]
    cases generateBcchChanList net bts.toNeighBts false .bis with
    | error e => rfl
    | ok chanList =>
      cases hext : listsArfcn chanList with
      | true =>
        simp only [EventFsm.ok_bind,hext,if_true]
        exact (h.setBuf (by decide) _).modify (by decide) (.inr hmark) fun buf =>
          buf.modify 3 (· ||| 0x20)
      | false =>
        simp only [EventFsm.ok_bind,hext,Bool.false_eq_true,if_false]
        exact (h.setBuf (by decide) _).setValid (by simp)
  | t2ter =>
    simp only [gsmGenerateSi,generateSi2ter]
    cases generateBcchChanList net bts.toNeighBts false .ter with
    | error e => rfl
    | ok chanList =>
      cases hext : listsArfcn chanList with
      | true =>
        simp only [EventFsm.ok_bind,hext,if_true]
        exact h.setBuf (by decide) _
      | false =>
        simp only [EventFsm.ok_bind,hext,Bool.false_eq_true,if_false]
        exact (h.setBuf (by decide) _).setValid (by simp)
  | t2quater =>
    unfold gsmGenerateSi generateSi2quater
    refine .ite (.intro ?_) (.bind _ fun msgs => .intro ?_)
    · refine ⟨by simp only [SiState.setValid,h.valid],fun t hne ht => ?_,fun _ hvalid => ?_⟩
      · exact h.buf t hne (ht.resolve_left hne)
      · simp [SiState.setValid] at hvalid
    · exact ⟨h.valid,fun t hne ht => h.buf t hne (ht.resolve_left hne),fun _ _ => rfl⟩
  | t3 =>
    unfold gsmGenerateSi siInfoForSi3 generateSi3
    dsimp only
    rw [h.valid]
    exact .intro (h.setBuf (by decide) _)
  | t4 =>
    unfold gsmGenerateSi generateSi4
    dsimp only
    exact .intro (h.setBuf (by decide) _)
  | t5 => exact .bind _ fun chanList => .intro (h.setBuf (by decide) _)
  | t5bis =>
    have hmark : T .t5 := hmarks .t5 rfl
    simp only [gsmGenerateSi,generateSi5bis]
    cases generateBcchChanList net bts.toNeighBts true .bis with
    | error e => rfl
    | ok chanList =>
      cases hext : listsArfcn chanList with
      | true =>
        simp only [EventFsm.ok_bind,hext,if_true]
        exact (h.setBuf (by decide) _).modify (by decide) (.inr hmark) fun buf =>
          buf.modify 20 (· ||| 0x20)
      | false =>
        simp only [EventFsm.ok_bind,hext,Bool.false_eq_true,if_false]
        exact (h.setBuf (by decide) _).setValid (by simp)
  | t5ter =>
    simp only [gsmGenerateSi,generateSi5ter]
    cases generateBcchChanList net bts.toNeighBts true .ter with
    | error e => rfl
    | ok chanList =>
      cases hext : listsArfcn chanList with
      | true =>
        simp only [EventFsm.ok_bind,hext,if_true]
        exact h.setBuf (by decide) _
      | false =>
        simp only [EventFsm.ok_bind,hext,Bool.false_eq_true,if_false]
        exact (h.setBuf (by decide) _).setValid (by simp)
  | t6 =>
    unfold gsmGenerateSi generateSi6
    dsimp only
    exact .intro (h.setBuf (by decide) _)
  | t13 =>
    unfold gsmGenerateSi generateSi13
    dsimp only
    exact .intro (h.setBuf (by decide) _)
  | other n => rfl

end Buffers

section Regenerate

variable {lib : SiLib} {net : NeighNetwork} {bts : SiConfig} {st st' : SiState} {t : SysinfoType}
  {s s' : Statics} {T : SysinfoType → Prop} {ts : List SysinfoType}

/-- Two contents of the shared records between which no SI13 of the BTS tells: the BTS
has EGPRS or no GPRS, or its SI13 is static, or both announce EGPRS or neither does. -/
def Harmless (bts : SiConfig) (s s' : Statics) : Prop :=
  ∃ seen seen', s.Kept seen ∧ s'.Kept seen'
    ∧ (bts.gprsMode = .gprs → bts.siModeStatic .t13 = false → seen = seen')

theorem Harmless.generate (h : Harmless bts s s') (lib : SiLib) (net : NeighNetwork) (t : SysinfoType)
    (st st' : SiState) : Harmless bts
    (gsmGenerateSi lib net bts t s st).1 (gsmGenerateSi lib net bts t s' st').1 := by
  obtain ⟨seen,seen',hs,hs',heq⟩ := h
  refine ⟨_,_,hs.generate lib net bts t st,hs'.generate lib net bts t st',fun hm ht => ?_⟩
  rw [heq hm ht]

theorem Harmless.agree (h : Harmless bts s s') (lib : SiLib) (net : NeighNetwork) (hst : st.Agree T st') (hmarks : ∀ t', marks t t' → T t')
    (ht : t = .t13 → bts.gprsMode ≠ .none) (hstatic : bts.siModeStatic t = false) :
    BothOk (SiState.Agree fun t' => t' = t ∨ T t') (gsmGenerateSi lib net bts t s st).2
      (gsmGenerateSi lib net bts t s' st').2 := by
  obtain ⟨seen,seen',hs,hs',heq⟩ := h
  have halike : bts.gprsMode = .egprs ∨ t ≠ .t13 ∨ seen = seen' := by
    by_cases h13 : t = .t13
    · subst h13
      cases hm : bts.gprsMode with
      | none => exact absurd hm (ht rfl)
      | gprs => exact .inr (.inr (heq hm hstatic))
      | egprs => exact .inl rfl
    · exact .inr (.inl h13)
  rw [generate_base hs,generate_base hs',generate_alike halike]
  exact generate_agree hst hmarks

def MarksDone : List SysinfoType → (SysinfoType → Prop) → Prop
  | [], _ => True
  | t :: ts, T => (∀ t', marks t t' → T t') ∧ MarksDone ts fun t' => t' = t ∨ T t'

theorem siTypes_marksDone (isC0 : Bool) : MarksDone (siTypes bts isC0) T := by
  unfold siTypes
  cases isC0 <;> cases bts.gprsMode <;> simp [MarksDone,marks]

theorem MarksDone.mono {T' : SysinfoType → Prop} (h : MarksDone ts T) (hT : ∀ t, T t → T' t) :
    MarksDone ts T' := by
  induction ts generalizing T T' with
  | nil => trivial
  | cons t ts ih => exact ⟨fun t' ht => hT t' (h.1 t' ht),ih h.2 fun t' ht => ht.imp_right (hT t')⟩

/-- The messages of a TRX are the same, whatever is left in the buffers and, harmlessly,
in the shared records. -/
theorem generateSis_agree (lib : SiLib) (net : NeighNetwork) (hs : Harmless bts s s') (hst : st.Agree T st')
    (hstatic : ∀ t ∈ ts, bts.siModeStatic t = true → T t) (hmarks : MarksDone ts T)
    (h13 : .t13 ∈ ts → bts.gprsMode ≠ .none) :
    Harmless bts (generateSis lib net bts ts s st).1 (generateSis lib net bts ts s' st').1
      ∧ BothOk (SiState.Agree fun t => t ∈ ts ∨ T t) (generateSis lib net bts ts s st).2
        (generateSis lib net bts ts s' st').2 := by
  induction ts generalizing s s' st st' T with
  | nil => exact ⟨hs,hst.mono (by simp)⟩
  | cons t ts ih =>
    have h13' : .t13 ∈ ts → bts.gprsMode ≠ .none := fun h => h13 (List.mem_cons_of_mem _ h)
    have hstatic' : ∀ t ∈ ts, bts.siModeStatic t = true → T t :=
      fun t h => hstatic t (List.mem_cons_of_mem _ h)
    unfold generateSis
    cases ht : bts.siModeStatic t with
    | true =>
      have hTt : T t := hstatic t (List.mem_cons_self ..) ht
      have hT : ∀ t', t' = t ∨ T t' → T t' := fun t' h => h.elim (fun h => h ▸ hTt) id
      obtain ⟨h1,h2⟩ := ih hs hst hstatic' (hmarks.2.mono hT) h13'
      refine ⟨h1,h2.mono fun a b hab => hab.mono fun t' ht' => ?_⟩
      rcases ht' with ht' | ht'
      · rcases List.mem_cons.mp ht' with rfl | ht'
        · exact .inr hTt
        · exact .inl ht'
      · exact .inr ht'
    | false =>
      have hvalid : (st.setValid t true).Agree (fun t' => T t' ∧ t' ≠ t) (st'.setValid t true) :=
        (hst.mono fun t' h => h.1).setValid fun _ hq hT => hT.2 hq.symm
      have hmarked : ∀ t', marks t t' → T t' ∧ t' ≠ t := by
        intro t' hm
        refine ⟨hmarks.1 t' hm,?_⟩
        rintro rfl
        cases t' <;> cases hm
      have hgen := hs.generate lib net t (st.setValid t true) (st'.setValid t true)
      have hres := hs.agree lib net hvalid hmarked (fun h => h13 (h ▸ List.mem_cons_self ..)) ht
      simp only [Bool.false_eq_true,if_false]
      generalize gsmGenerateSi lib net bts t s (st.setValid t true) = p at hgen hres
      generalize gsmGenerateSi lib net bts t s' (st'.setValid t true) = p' at hgen hres
      obtain ⟨s1,r⟩ := p
      obtain ⟨s1',r'⟩ := p'
      cases r with
      | error e =>
        cases r' with
        | error e' => exact ⟨hgen,hres⟩
        | ok st1' => exact hres.elim
      | ok st1 =>
        cases r' with
        | error e' => exact hres.elim
        | ok st1' =>
          have hres : st1.Agree _ st1' := hres
          have hst1 : st1.Agree (fun t' => t' = t ∨ T t') st1' := by
            refine hres.mono fun t' h => ?_
            by_cases he : t' = t
            · exact .inl he
            · exact .inr ⟨h.resolve_left he,he⟩
          obtain ⟨h1,h2⟩ := ih hgen hst1 (fun t' h hst' => .inr (hstatic' t' h hst')) hmarks.2 h13'
          refine ⟨h1,h2.mono fun a b hab => hab.mono fun t' ht' => ?_⟩
          rcases ht' with ht' | ht'
          · rcases List.mem_cons.mp ht' with rfl | ht'
            · exact .inr (.inl rfl)
            · exact .inl ht'
          · exact .inr (.inr ht')

/-- Two states of a BTS with the same messages of its static types, those of SI2quater
apart. -/
def SameStatic (bts : SiConfig) (st st' : SiState) : Prop :=
  ∀ t, t ≠ .t2quater → bts.siModeStatic t = true → st.siBuf t = st'.siBuf t

theorem t13_mem_siTypes {isC0 : Bool} (h : .t13 ∈ siTypes bts isC0) : bts.gprsMode ≠ .none := by
  intro hm
  cases isC0 <;> simp [siTypes,hm] at h

theorem t2quater_mem_siTypes {isC0 : Bool} (h : .t2quater ∈ siTypes bts isC0) : isC0 = true := by
  cases isC0
  · simp [siTypes] at h
  · rfl

theorem trx_agree (lib : SiLib) (net : NeighNetwork) (isC0 : Bool) (hs : Harmless bts s s')
    (hst : SameStatic bts st st')
    (hq : isC0 = true → bts.siModeStatic .t2quater = true → st.si2qBufs = st'.si2qBufs) :
    Harmless bts (gsmBtsTrxSetSystemInfos lib net bts isC0 s st).1
        (gsmBtsTrxSetSystemInfos lib net bts isC0 s' st').1
      ∧ BothOk (fun a b => SameStatic bts a.1 b.1 ∧ a.2 = b.2)
        (gsmBtsTrxSetSystemInfos lib net bts isC0 s st).2
        (gsmBtsTrxSetSystemInfos lib net bts isC0 s' st').2 := by
  have hinit : SiState.Agree (fun t => bts.siModeStatic t = true ∧ (t = .t2quater → isC0 = true))
      { st with siValid := bts.siModeStatic } { st' with siValid := bts.siModeStatic } :=
    ⟨rfl,fun t hne ht => hst t hne ht.1,fun ht _ => hq (ht.2 rfl) ht.1⟩
  have hT : ∀ t ∈ siTypes bts isC0, bts.siModeStatic t = true →
      bts.siModeStatic t = true ∧ (t = .t2quater → isC0 = true) :=
    fun t ht hstatic => ⟨hstatic,fun he => t2quater_mem_siTypes (he ▸ ht)⟩
  have hagree := generateSis_agree lib net hs hinit hT (siTypes_marksDone isC0) t13_mem_siTypes
  unfold gsmBtsTrxSetSystemInfos
  generalize generateSis lib net bts (siTypes bts isC0) s { st with siValid := bts.siModeStatic } = p
    at hagree
  generalize generateSis lib net bts (siTypes bts isC0) s' { st' with siValid := bts.siModeStatic } = p'
    at hagree
  obtain ⟨s1,r⟩ := p
  obtain ⟨s1',r'⟩ := p'
  obtain ⟨h1,h2⟩ := hagree
  cases r with
  | error e =>
    cases r' with
    | error e' => exact ⟨h1,h2⟩
    | ok st1' => exact h2.elim
  | ok st1 =>
    cases r' with
    | error e' => exact h2.elim
    | ok st1' =>
      have h2 : st1.Agree _ st1' := h2
      refine ⟨h1,fun t hne ht => h2.buf t hne (.inr ⟨ht,fun he => absurd he hne⟩),?_⟩
      refine List.map_congr_left fun t ht => ?_
      rw [Prod.mk.injEq]
      refine ⟨rfl,?_⟩
      unfold SiState.sent
      rw [← h2.valid]
      split
      · rename_i hvalid
        by_cases hne : t = .t2quater
        · subst hne
          rw [if_pos rfl,if_pos rfl,h2.quater (.inl ht) hvalid]
        · rw [if_neg hne,if_neg hne,h2.buf t hne (.inl ht)]
      · rfl

theorem setTrxs_agree (lib : SiLib) (net : NeighNetwork) {trxs : List Bool} (hs : Harmless bts s s')
    (hst : SameStatic bts st st')
    (hq : true ∈ trxs → bts.siModeStatic .t2quater = true → st.si2qBufs = st'.si2qBufs)
    (hc0 : true ∉ trxs.tail) :
    (setTrxs lib net bts trxs s st).2 = (setTrxs lib net bts trxs s' st').2 := by
  induction trxs generalizing s s' st st' with
  | nil => rfl
  | cons isC0 trxs ih =>
    have hagree := trx_agree lib net isC0 hs hst fun h => hq (h ▸ List.mem_cons_self ..)
    unfold setTrxs
    generalize gsmBtsTrxSetSystemInfos lib net bts isC0 s st = p at hagree
    generalize gsmBtsTrxSetSystemInfos lib net bts isC0 s' st' = p' at hagree
    obtain ⟨s1,r⟩ := p
    obtain ⟨s1',r'⟩ := p'
    obtain ⟨h1,h2⟩ := hagree
    cases r with
    | error e =>
      cases r' with
      | error e' => exact congrArg Except.error h2
      | ok a => exact h2.elim
    | ok a =>
      cases r' with
      | error e' => exact h2.elim
      | ok b =>
        have h2 : SameStatic bts a.1 b.1 ∧ a.2 = b.2 := h2
        have hc0 : true ∉ trxs := hc0
        have hrest := ih h1 h2.1 (fun h => absurd h hc0) fun h => hc0 (List.mem_of_mem_tail h)
        obtain ⟨st1,sent⟩ := a
        obtain ⟨st1',sent'⟩ := b
        obtain rfl : sent = sent' := h2.2
        dsimp only at hrest ⊢
        generalize setTrxs lib net bts trxs s1 st1 = q at hrest ⊢
        generalize setTrxs lib net bts trxs s1' st1' = q' at hrest ⊢
        obtain ⟨s2,r2⟩ := q
        obtain ⟨s2',r2'⟩ := q'
        cases hrest
        cases r2 <;> rfl

end Regenerate

section Leak

variable {lib : SiLib} {net : NeighNetwork} {bts : SiConfig} {st st' : SiState} {t : SysinfoType}
  {s s' : Statics} {ts : List SysinfoType} {seen seen' : Bool}

theorem octetOf_bit (f : Nat → Bool) {i : Nat} (hi : i < 8) : (octetOf f).getLsbD (7 - i) = f i := by
  have hall : ∀ b0 b1 b2 b3 b4 b5 b6 b7 : Bool,
      let o := BitVec.ofNat 8 (128 * b0.toNat + 64 * b1.toNat + 32 * b2.toNat + 16 * b3.toNat
        + 8 * b4.toNat + 4 * b5.toNat + 2 * b6.toNat + b7.toNat)
      o.getLsbD 7 = b0 ∧ o.getLsbD 6 = b1 ∧ o.getLsbD 5 = b2 ∧ o.getLsbD 4 = b3 ∧ o.getLsbD 3 = b4
        ∧ o.getLsbD 2 = b5 ∧ o.getLsbD 1 = b6 ∧ o.getLsbD 0 = b7 := by
    decide
  obtain ⟨h0,h1,h2,h3,h4,h5,h6,h7⟩ := hall (f 0) (f 1) (f 2) (f 3) (f 4) (f 5) (f 6) (f 7)
  unfold octetOf
  match i, hi with
  | 0, _ => exact h0
  | 1, _ => exact h1
  | 2, _ => exact h2
  | 3, _ => exact h3
  | 4, _ => exact h4
  | 5, _ => exact h5
  | 6, _ => exact h6
  | 7, _ => exact h7

theorem restOctets_bit {len : Nat} {bits bits' : List BitValue} (h : restOctets len bits = restOctets len bits')
    {pos : Nat} (hpos : pos < 8 * len) :
    (bits.getD pos .l).value pos = (bits'.getD pos .l).value pos := by
  have hpos' : 8 * (pos / 8) + pos % 8 = pos := by omega
  have hj := List.map_inj_left.mp h (pos / 8) (List.mem_range.mpr (by omega))
  have hbit := octetOf_bit (fun i => (bits.getD (8 * (pos / 8) + i) .l).value (8 * (pos / 8) + i))
    (i := pos % 8) (by omega)
  rw [hj,octetOf_bit _ (by omega)] at hbit
  rw [hpos'] at hbit
  exact hbit.symm

/-- The SI13 of a BTS with GPRS, when EGPRS was announced for another BTS or not. -/
def si13Message (bts : SiConfig) (seen : Bool) : List Octet :=
  macblock [siHeader 0x01 0x00,restOctetsSi13 (si13DefaultForSi13 bts (Statics.base seen).si13Default)]

theorem si13Message_ne (bts : SiConfig) : si13Message bts false ≠ si13Message bts true := by
  intro h
  have hlen : ∀ si13, (restOctetsSi13 si13).length = 20 := fun si13 => by
    simp [restOctetsSi13,restOctets]
  simp only [si13Message,macblock,List.flatten_cons,List.flatten_nil,List.append_nil] at h
  have hparts := List.append_inj_left h (by simp [hlen])
  have hrest := List.append_cancel_left hparts
  have h51 := restOctets_bit hrest (show 51 < 8 * 20 by omega)
  exact Bool.noConfusion h51

def SiState.si13 (st : SiState) : Bool × List Octet := (st.siValid .t13,st.siBuf .t13)

theorem si13_setBuf (ht : t ≠ .t13) (parts : List (List Octet)) : (st.setBuf t parts).si13 = st.si13 := by
  simp only [SiState.si13,SiState.setBuf,Function.update_of_ne (Ne.symm ht)]

theorem si13_setValid (ht : t ≠ .t13) (valid : Bool) : (st.setValid t valid).si13 = st.si13 := by
  simp only [SiState.si13,SiState.setValid,Function.update_of_ne (Ne.symm ht)]

theorem generate_si13_frame (ht : t ≠ .t13) (h : (gsmGenerateSi lib net bts t s st).2 = .ok st') :
    st'.si13 = st.si13 := by
  cases t with
  | t1 | t2 | t5 =>
    obtain ⟨chanList,-,h⟩ := EventFsm.bind_eq_ok.mp h
    cases h
    exact si13_setBuf (by decide) _
  | t2bis | t5bis =>
    obtain ⟨chanList,-,h⟩ := EventFsm.bind_eq_ok.mp h
    dsimp only at h
    split at h
    · cases h
      simp [SiState.si13,SiState.setBuf]
    · cases h
      rw [si13_setValid (by decide),si13_setBuf (by decide)]
  | t2ter | t5ter =>
    obtain ⟨chanList,-,h⟩ := EventFsm.bind_eq_ok.mp h
    dsimp only at h
    split at h
    · cases h
      exact si13_setBuf (by decide) _
    · cases h
      rw [si13_setValid (by decide),si13_setBuf (by decide)]
  | t2quater =>
    unfold gsmGenerateSi generateSi2quater at h
    dsimp only at h
    split at h
    · cases h
      exact si13_setValid (by decide) _
    · obtain ⟨msgs,-,h⟩ := EventFsm.bind_eq_ok.mp h
      cases h
      rfl
  | t3 | t4 | t6 =>
    cases h
    exact si13_setBuf (by decide) _
  | t13 => exact absurd rfl ht
  | other n => cases h

theorem generateSis_si13_frame (ht : .t13 ∉ ts) (h : (generateSis lib net bts ts s st).2 = .ok st') :
    st'.si13 = st.si13 := by
  induction ts generalizing s st with
  | nil =>
    cases h
    rfl
  | cons t ts ih =>
    rw [List.mem_cons,not_or] at ht
    unfold generateSis at h
    split at h
    · exact ih ht.2 h
    · split at h
      · rename_i s1 st1 hgen
        have hst1 := generate_si13_frame (Ne.symm ht.1) (congrArg Prod.snd hgen)
        rw [ih ht.2 h,hst1,si13_setValid (Ne.symm ht.1)]
      · cases h

theorem generate_si13 (hs : s.Kept seen) (hm : bts.gprsMode = .gprs)
    (h : (gsmGenerateSi lib net bts .t13 s st).2 = .ok st') :
    st'.si13 = (st.siValid .t13,si13Message bts seen) := by
  rw [generate_base hs] at h
  have hbase : (staticsForBts bts (.base seen)).si13Default = (Statics.base seen).si13Default := by
    unfold staticsForBts
    rw [hm]
  unfold gsmGenerateSi at h
  dsimp only at h
  rw [hbase] at h
  cases h
  simp [SiState.si13,generateSi13,SiState.setBuf,si13Message]

/-- The SI13 that is generated for a BTS with GPRS shows whether EGPRS was announced. -/
theorem generateSis_si13 (hs : s.Kept seen) (hm : bts.gprsMode = .gprs)
    (hstatic : bts.siModeStatic .t13 = false) (ht : .t13 ∈ ts) (hnd : ts.Nodup)
    (h : (generateSis lib net bts ts s st).2 = .ok st') : st'.si13 = (true,si13Message bts seen) := by
  induction ts generalizing s st with
  | nil => cases ht
  | cons t ts ih =>
    have hkept : ∀ st, ((gsmGenerateSi lib net bts t s st).1).Kept seen := by
      intro st
      have hkept := hs.generate lib net bts t st
      rwa [hm,show (BtsGprsMode.gprs == .egprs) = false from rfl,Bool.or_false] at hkept
    unfold generateSis at h
    by_cases h13 : t = .t13
    · subst h13
      rw [hstatic] at h
      simp only [Bool.false_eq_true,if_false] at h
      split at h
      · rename_i s1 st1 hgen
        have hst1 := generate_si13 hs hm (congrArg Prod.snd hgen)
        rw [generateSis_si13_frame (List.nodup_cons.mp hnd).1 h,hst1]
        simp [SiState.setValid]
      · cases h
    · have ht : .t13 ∈ ts := List.mem_of_ne_of_mem (Ne.symm h13) ht
      split at h
      · exact ih hs ht hnd.of_cons h
      · split at h
        · rename_i s1 st1 hgen
          have hs1 := hkept (st.setValid t true)
          rw [hgen] at hs1
          exact ih hs1 ht hnd.of_cons h
        · cases h

theorem siTypes_nodup (isC0 : Bool) : (siTypes bts isC0).Nodup := by
  unfold siTypes
  cases isC0 <;> cases bts.gprsMode <;> decide

theorem setTrxs_si13 (bts : SiConfig) {trxs : List Bool} {sent : List TrxSent} (hs : s.Kept seen) (hm : bts.gprsMode = .gprs)
    (hstatic : bts.siModeStatic .t13 = false) (h : (setTrxs lib net bts (true :: trxs) s st).2 = .ok sent) :
    ∃ first rest, sent = first :: rest ∧ ∀ si13, (.t13,si13) ∈ first ↔ si13 = some [si13Message bts seen] := by
  unfold setTrxs gsmBtsTrxSetSystemInfos at h
  have hmem : .t13 ∈ siTypes bts true := by simp [siTypes,hm]
  cases hgen : generateSis lib net bts (siTypes bts true) s { st with siValid := bts.siModeStatic } with
  | mk s1 r =>
    rw [hgen] at h
    cases r with
    | error e => cases h
    | ok st1 =>
      have hsi13 := generateSis_si13 hs hm hstatic hmem (siTypes_nodup true) (congrArg Prod.snd hgen)
      dsimp only at h
      split at h
      · cases h
        rw [SiState.si13,Prod.mk.injEq] at hsi13
        have hsent : st1.sent .t13 = some [si13Message bts seen] := by
          rw [SiState.sent,hsi13.1,hsi13.2]
          rfl
        refine ⟨_,_,rfl,fun si13 => ?_⟩
        constructor
        · intro hin
          obtain ⟨t,-,ht⟩ := List.mem_map.mp hin
          cases ht
          exact hsent
        · rintro rfl
          exact List.mem_map.mpr ⟨.t13,hmem,by rw [hsent]⟩
      · cases h

end Leak

/-- All system information of a BTS is made anew. After different histories of
`gsm_generate_si` it is the same octets if and only if the BTS has EGPRS, or no GPRS, or a
static SI13, or both histories or neither of them have a call for a BTS with EGPRS. -/
theorem regeneration_same_iff (lib : SiLib) (net : NeighNetwork) (calls calls' : List SiCall)
    (bts : SiConfig) (st st' : SiState)
    (hstatic : ∀ t, bts.siModeStatic t = true → st.siBuf t = st'.siBuf t)
    (hquater : bts.siModeStatic .t2quater = true → st.si2qBufs = st'.si2qBufs)
    (hcomplete : ∃ sent, (gsmBtsSetSystemInfos lib net bts (staticsAfter lib net calls) st).2 = .ok sent) :
    (gsmBtsSetSystemInfos lib net bts (staticsAfter lib net calls) st).2
        = (gsmBtsSetSystemInfos lib net bts (staticsAfter lib net calls') st').2
      ↔ bts.gprsMode ≠ .gprs ∨ bts.siModeStatic .t13 = true ∨ egprsSeen calls = egprsSeen calls' := by
  have hkept := staticsAfter_kept lib net calls
  have hkept' := staticsAfter_kept lib net calls'
  constructor
  · intro heq
    by_contra hne
    simp only [not_or,Decidable.not_not,Bool.not_eq_true] at hne
    obtain ⟨hm,h13,hseen⟩ := hne
    obtain ⟨sent,hsent⟩ := hcomplete
    rw [hsent] at heq
    unfold gsmBtsSetSystemInfos at hsent heq
    generalize hbts : { bts with bcchChangeMark := (bts.bcchChangeMark + 1) % 7 } = next at hsent heq
    have hm : next.gprsMode = .gprs := by rw [← hbts,← hm]
    have h13 : next.siModeStatic .t13 = false := by rw [← hbts,← h13]
    obtain ⟨first,rest,rfl,hfirst⟩ := setTrxs_si13 _ hkept hm h13 hsent
    obtain ⟨first',rest',he,hfirst'⟩ := setTrxs_si13 _ hkept' hm h13 heq.symm
    cases he
    have hsame := (hfirst' _).mp ((hfirst _).mpr rfl)
    rw [Option.some.injEq,List.cons.injEq] at hsame
    cases hc : egprsSeen calls <;> cases hc' : egprsSeen calls'
    · exact hseen (hc.trans hc'.symm)
    · rw [hc,hc'] at hsame
      exact si13Message_ne _ hsame.1
    · rw [hc,hc'] at hsame
      exact si13Message_ne _ hsame.1.symm
    · exact hseen (hc.trans hc'.symm)
  · intro h
    refine setTrxs_agree lib net ⟨_,_,hkept,hkept',fun hm h13 => ?_⟩ (fun t _ => hstatic t)
      (fun _ => hquater) (by simp)
    rcases h with h | h | h
    · exact absurd hm h
    · exact absurd (h13.symm.trans h) (by decide)
    · exact h

def gprsBts (mode : BtsGprsMode) : SiConfig where
  band := .band900
  c0Arfcn := 871
  nr := 0
  gprsMode := mode

def emptySi : SiState where
  siValid := fun _ => false
  siBuf := fun _ => []
  si2qBufs := []

def plainLib : SiLib where
  gsm48SetDtx := fun octet _ _ _ => octet
  makeSi2quaters := fun _ => .ok []

theorem regeneration_same_iff_gprs :
    ((gsmBtsSetSystemInfos plainLib { gsmArfcn2bandRc := arfcnBand } (gprsBts .gprs) (staticsAfter plainLib
        { gsmArfcn2bandRc := arfcnBand } []) emptySi).2
      = (gsmBtsSetSystemInfos plainLib { gsmArfcn2bandRc := arfcnBand } (gprsBts .gprs) (staticsAfter plainLib
        { gsmArfcn2bandRc := arfcnBand } [{ bts := gprsBts .gprs, st := emptySi, type := .t3 }]) emptySi).2)
      ↔ (gprsBts .gprs).gprsMode ≠ .gprs ∨ (gprsBts .gprs).siModeStatic .t13 = true
        ∨ egprsSeen [] = egprsSeen [{ bts := gprsBts .gprs, st := emptySi, type := .t3 }] :=
  regeneration_same_iff plainLib { gsmArfcn2bandRc := arfcnBand } [] _ (gprsBts .gprs) emptySi emptySi
    (fun _ _ => rfl) (fun _ => rfl) (by
      have hok : ∃ sent, (gsmBtsSetSystemInfos plainLib { gsmArfcn2bandRc := arfcnBand } (gprsBts .gprs)
          (staticsAfter plainLib { gsmArfcn2bandRc := arfcnBand } []) emptySi).2 = .ok sent ∧ True := by
        decide +kernel
      exact ⟨hok.choose,hok.choose_spec.1⟩)

/-- SI3 of a BTS with EGPRS is made first: SI13 of a BTS with GPRS only now announces EGPRS. -/
theorem egprs_leaks :
    (gsmBtsSetSystemInfos plainLib { gsmArfcn2bandRc := arfcnBand } (gprsBts .gprs) (staticsAfter plainLib
        { gsmArfcn2bandRc := arfcnBand } []) emptySi).2
      ≠ (gsmBtsSetSystemInfos plainLib { gsmArfcn2bandRc := arfcnBand } (gprsBts .gprs) (staticsAfter plainLib
        { gsmArfcn2bandRc := arfcnBand } [{ bts := gprsBts .egprs, st := emptySi, type := .t3 }]) emptySi).2 := by
  intro h
  exact absurd (congrArg (fun sent => (sent.toOption.getD []).flatten) h) (by decide +kernel)

end OsmoBsc.Si
