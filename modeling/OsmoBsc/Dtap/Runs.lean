import OsmoBsc.Dtap.Delivery
set_option autoImplicit false

namespace OsmoBsc.Dtap
open Chan (LchanId SapiState ConnState)

variable {w : World} {c : ConnId} {l : LchanId} {m : Msgb} {conn : Conn}

/-- The condition under which a step keeps the messages in order. -/
def World.Fits (w : World) : Input → Prop
  | .submit c linkId _ => ∀ conn, w.conns c = some conn → conn.fi = .active → w.Clear c (linkId &&& 7)
  | .connCfm c => ∀ conn, w.conns c = some conn → conn.fi = .waitCc → conn.dtapQueue = []
  | .assignmentEnd c => ∀ conn, w.conns c = some conn → conn.fi = .assignment →
      w.ClearAll c conn.dtapQueue
  | .handoverEnd c interBscInOk => ∀ conn, w.conns c = some conn →
      conn.fi = .handover ∨ conn.fi = .init ∧ interBscInOk = true → w.ClearAll c conn.dtapQueue
  | .term c => ∀ m ∈ w.pending, m.conn ≠ c
  | .activate l c _ => (w.lchans l).conn = none ∨ (w.lchans l).conn = some c
  | .changePrimaryLchan c l => ((w.lchans l).conn = none ∨ (w.lchans l).conn = some c)
      ∧ ∀ old, w.lchanOf c = some old → old ≠ l → w.NoneOn old
  | .releaseLchan c l => (w.lchans l).conn = some c → w.NoneOn l
  | .lchanReset l => w.NoneOn l
  | .estConf l _ => (w.lchans l).rslLink = true
  | .relInd l linkId => linkId &&& 7 = 0 → linkId &&& 0xc0 = 0 →
      ∀ r ∈ w.bscRllReqs, r.lchan = l → r.isFor l linkId = true
  | _ => True

def World.Fails (w : World) (r : RllReq) : Input → Prop
  | .relInd l linkId | .errInd l linkId => r.isFor l linkId = true
  | .timeout i => w.bscRllReqs[i]? = some r
  | _ => False

def World.MayDrop (w : World) (i : Input) (m : Msgb) : Prop :=
  (8 ≤ (w.queue m.conn).length ∧ ∃ allowSacch, i = .submit m.conn m.linkId allowSacch)
    ∨ (∃ r ∈ w.bscRllReqs, r.data = m ∧ w.Fails r i)
    ∨ (step w i).lchanOf m.conn = none

structure Good (w : World) : Prop where
  ledger : Ledger [] w
  links : Links w
  idle : Idle w

/-- A step keeps the invariant and drops nothing without a reason. -/
structure Keeps (w : World) (i : Input) (w' : World) : Prop where
  good : Good w'
  dropped : ∀ m ∈ w'.freed, m ∉ w.freed → w.MayDrop i m

theorem Good.same {w' : World} {i : Input} (h : Good w) (hs : Same w w') (hlinks : Links w') :
    Keeps w i w' :=
  ⟨⟨hs.ledger h.ledger,hlinks,hs.idle h.idle⟩,fun _ hm hn => absurd (hs.freed ▸ hm) hn⟩

theorem Good.refl {i : Input} (h : Good w) : Keeps w i w := h.same (Same.refl w) h.links

theorem chg_keeps {f : ConnState → ConnState} {i : Input} (h : Good w)
    (hf : ∀ conn, w.conns c = some conn → f conn.fi = .active → conn.dtapQueue = []) :
    Keeps w i (w.chg c f) := by
  unfold World.chg
  cases hc : w.conns c with
  | none => exact h.refl
  | some conn =>
    have hlinks : Links (w.setConn c { conn with fi := f conn.fi }) :=
      h.links.setConn hc fun l hl => h.links.back c conn l hc hl
    refine ⟨⟨?_,hlinks,fun c' x hx ha => ?_⟩,fun m hm hn => absurd hm hn⟩
    · refine h.ledger.congr rfl rfl rfl rfl rfl rfl fun c' => ?_
      by_cases h' : c' = c
      · simp [World.queue,World.setConn,h',hc]
      · simp [World.queue,World.setConn,h']
    · by_cases h' : c' = c
      · subst h'
        have hx' : { conn with fi := f conn.fi } = x := by simpa [World.setConn] using hx
        subst hx'
        exact hf conn hc ha
      · exact h.idle c' x (by simpa [World.setConn,h'] using hx) ha

theorem leave_keeps {s s' : ConnState} {i : Input} (h : Good w) (hs' : s' ≠ .active) :
    Keeps w i (w.chg c fun x => if x = s then s' else x) := by
  refine chg_keeps h fun conn hc hx => ?_
  split at hx
  · exact absurd hx hs'
  · exact h.idle c conn hc hx

theorem chgActiveAndFlush_keeps {i : Input} (h : Good w) (hc : w.conns c = some conn)
    (hi : step w i = chgActiveAndFlush w c conn) (hclear : w.ClearAll c conn.dtapQueue) :
    Keeps w i (chgActiveAndFlush w c conn) := by
  have hlinks : Links (w.setConn c { conn with fi := .active }) :=
    h.links.setConn hc fun l hl => h.links.back c conn l hc hl
  have hledger : Ledger [] (w.setConn c { conn with fi := .active }) := by
    refine h.ledger.congr rfl rfl rfl rfl rfl rfl fun c' => ?_
    by_cases h' : c' = c
    · simp [World.queue,World.setConn,h',hc]
    · simp [World.queue,World.setConn,h']
  have hc' : (w.setConn c { conn with fi := .active }).conns c = some { conn with fi := .active } := by
    simp [World.setConn]
  have hlchan : (w.setConn c { conn with fi := .active }).lchanOf c = w.lchanOf c := by
    simp [World.lchanOf,hc,hc']
  have hclear' : (w.setConn c { conn with fi := .active }).ClearAll c conn.dtapQueue := by
    refine ⟨fun m hm l hl => hclear.1 m hm l (hlchan ▸ hl),fun l hl => hclear.2 l (hlchan ▸ hl)⟩
  obtain ⟨hf,hfreed⟩ := flush_send hledger hlinks hc' rfl rfl hclear'
  change Keeps w i (gsconDtapQueueFlush (w.setConn c { conn with fi := .active }) c true)
  have hi' : step w i = gsconDtapQueueFlush (w.setConn c { conn with fi := .active }) c true := hi
  refine ⟨⟨hf.ledger,hf.links,fun c' x hx ha => ?_⟩,fun m hm hn => .inr (.inr ?_)⟩
  · rw [hf.conns] at hx
    by_cases h' : c' = c
    · subst h'
      have hx' : { fi := .active, lchan := conn.lchan, dtapQueue := [] } = x := by simpa using hx
      rw [← hx']
    · exact h.idle c' x (by simpa [World.setConn,h'] using hx) ha
  · have hmc : m.conn = c := (hf.freed m hm).resolve_left hn
    rw [hi',hmc,World.lchanOf,hf.conns]
    by_contra hne
    refine hn ?_
    have : (w.setConn c { conn with fi := .active }).lchanOf c ≠ none := by
      simpa [World.lchanOf,World.setConn] using hne
    rw [hfreed this] at hm
    exact hm

theorem submit_keeps {linkId : Nat} {allowSacch : Bool} (h : Good w)
    (hfits : w.Fits (.submit c linkId allowSacch)) :
    Keeps w (.submit c linkId allowSacch) (step w (.submit c linkId allowSacch)) := by
  cases hc : w.conns c with
  | none =>
    have hstep : step w (.submit c linkId allowSacch) = w := by
      simp [step,gsconSubmitRslDtap,hc]
    rw [hstep]
    exact h.refl
  | some conn =>
    have hq : w.queue c = conn.dtapQueue := by simp [World.queue,hc]
    generalize hm : (⟨c,w.nextMsg,linkId,allowSacch⟩ : Msgb) = m
    have hnr : m.nr = w.nextMsg := hm ▸ rfl
    have hmc : m.conn = c := hm ▸ rfl
    have hnew {w' : World} (hfr : w'.freed = w.freed ++ [m]) : ∀ m' ∈ w'.freed, m' ∉ w.freed → m' = m := by
      intro m' hm' hn
      rw [hfr] at hm'
      exact List.mem_singleton.mp ((List.mem_append.mp hm').resolve_left hn)
    by_cases ha : conn.fi = .active
    · have hstep : step w (.submit c linkId allowSacch) = gsm0808SendRslDtap (w.receive m) c m := by
        simp [step,gsconSubmitRslDtap,hc,ha,hm]
      have hledger : Ledger [m] (w.receive m) :=
        h.ledger.receive hnr (by rw [hmc,hq,h.idle c conn hc ha])
      have hclear : (w.receive m).Clear c m.sapi := by
        rw [← hm]
        exact hfits conn hc ha
      have hpass := gsm0808SendRslDtap_passed hledger (h.links.congr rfl rfl rfl rfl) hc ha hmc hclear
      rw [hstep]
      refine ⟨⟨hpass.ledger,hpass.links,fun c' x hx hxa => ?_⟩,fun m' hm' hn => ?_⟩
      · rw [hpass.conns] at hx
        exact h.idle c' x hx hxa
      · rcases hpass.freed with hfr | ⟨hfr,hl⟩
        · exact absurd (hfr ▸ hm') hn
        · rw [hnew hfr m' hm' hn]
          refine .inr (.inr ?_)
          rw [hstep,hmc,World.lchanOf,hpass.conns]
          exact hl
    · by_cases hfull : 8 ≤ conn.dtapQueue.length
      · have hstep : step w (.submit c linkId allowSacch) = (w.receive m).msgbFree m := by
          simp [step,gsconSubmitRslDtap,gsconDtapQueueAdd,World.receive,hc,ha,hm,hfull]
        rw [hstep]
        refine ⟨⟨h.ledger.receive_free hnr,h.links.congr rfl rfl rfl rfl,h.idle⟩,fun m' hm' hn => ?_⟩
        rw [hnew rfl m' hm' hn]
        exact .inl ⟨by rw [hmc,hq]; exact hfull,allowSacch,by rw [← hm]⟩
      · have hstep : step w (.submit c linkId allowSacch)
            = (w.receive m).setConn m.conn { conn with dtapQueue := conn.dtapQueue ++ [m] } := by
          simp [step,gsconSubmitRslDtap,gsconDtapQueueAdd,World.receive,hc,ha,hm,hfull,hmc]
        subst hmc
        have hlinks : Links (w.setConn m.conn { conn with dtapQueue := conn.dtapQueue ++ [m] }) :=
          h.links.setConn hc fun l hl => h.links.back m.conn conn l hc hl
        rw [hstep]
        refine ⟨⟨h.ledger.receive_queue hnr hc,hlinks.congr rfl rfl rfl rfl,fun c' x hx hxa => ?_⟩,
          fun m' hm' hn => absurd hm' hn⟩
        by_cases h' : c' = m.conn
        · subst h'
          have hx' : { conn with dtapQueue := conn.dtapQueue ++ [m] } = x := by
            simpa [World.setConn] using hx
          subst hx'
          exact absurd hxa ha
        · exact h.idle c' x (by simpa [World.setConn,World.receive,h'] using hx) hxa

theorem term_keeps (h : Good w) (hfits : w.Fits (.term c)) : Keeps w (.term c) (step w (.term c)) := by
  cases hc : w.conns c with
  | none =>
    have hstep : step w (.term c) = w := by simp [step,hc]
    rw [hstep]
    exact h.refl
  | some conn =>
    -- the lchans are let go, then the queue is dropped, then the connection is freed
    generalize hw1 : w.setConn c { conn with lchan := none } = w1
    generalize hw2 : ({ w1 with lchans := fun l =>
      if (w1.lchans l).conn = some c then { w1.lchans l with conn := none } else w1.lchans l } : World) = w2
    have hstep : step w (.term c) = { gsconDtapQueueFlush w2 c false with
        conns := Function.update (gsconDtapQueueFlush w2 c false).conns c none } := by
      simp only [step,hc,gsconTerm,hw1,hw2]
    have hs1 : Same w w1 := hw1 ▸ Same.setConn hc rfl id
    have hs : Same w w2 := hs1.trans (hw2 ▸ ⟨rfl,rfl,rfl,rfl,rfl,rfl,fun _ => rfl,fun _ _ h h' => ⟨_,h,h'⟩⟩)
    have hlinks1 : Links w1 := hw1 ▸ h.links.setConn hc fun l hl => by cases hl
    have hlinks : Links w2 := by
      subst hw2
      refine ⟨fun r hr => ⟨?_,(hlinks1.pending r hr).2⟩,hlinks1.sapi,fun c' x l hx hl => ?_,hlinks1.unborn⟩
      · have hne : r.data.conn ≠ c := by
          refine hfits r.data (List.mem_map_of_mem ?_)
          rw [← hs1.reqs]
          exact hr
        have hconn := (hlinks1.pending r hr).1
        have hno : ¬ (w1.lchans r.lchan).conn = some c := by
          rw [hconn]
          simpa using hne
        simpa [hno] using hconn
      · have hconn := hlinks1.back c' x l hx hl
        have hne : c' ≠ c := by
          intro h'
          subst h'
          subst hw1
          have hx' : { conn with lchan := none } = x := by simpa [World.setConn] using hx
          rw [← hx'] at hl
          cases hl
        have hno : ¬ (w1.lchans l).conn = some c := by
          rw [hconn]
          simpa using hne
        simpa [hno] using hconn
    have hc2 : w2.conns c = some { conn with lchan := none } := by
      subst hw2 hw1
      simp [World.setConn]
    obtain ⟨hf,hreqs,hnext⟩ := flush_drop (hs.ledger h.ledger) hlinks hc2 rfl
    rw [hstep]
    generalize gsconDtapQueueFlush w2 c false = w3 at hf hreqs hnext
    refine ⟨⟨?_,⟨fun r hr => ⟨(hf.links.pending r hr).1,?_⟩,hf.links.sapi,fun c' x l hx hl => ?_,
      fun c' hc' => ?_⟩,fun c' x hx hxa => ?_⟩,fun m hm hn => ?_⟩
    · refine hf.ledger.congr rfl rfl rfl rfl rfl rfl fun c' => ?_
      by_cases h' : c' = c
      · simp [World.queue,h',hf.conns]
      · simp [World.queue,h']
    · have hne : r.data.conn ≠ c := by
        refine hfits r.data (List.mem_map_of_mem ?_)
        rw [← hs.reqs,← hreqs]
        exact hr
      simpa [hne] using (hf.links.pending r hr).2
    · have hne : c' ≠ c := by
        rintro rfl
        simp at hx
      exact hf.links.back c' x l (by simpa [hne] using hx) hl
    · by_cases h' : c' = c
      · simp [h']
      · simpa [h'] using hf.links.unborn c' hc'
    · have hne : c' ≠ c := by
        rintro rfl
        simp at hx
      refine hs.idle h.idle c' x ?_ hxa
      simpa [hne,hf.conns] using hx
    · have hm' : m.conn = c := by
        refine (hf.freed m hm).resolve_left fun hm' => hn ?_
        rwa [hs.freed] at hm'
      refine .inr (.inr ?_)
      rw [hstep,hm',World.lchanOf]
      simp

theorem changePrimaryLchan_keeps (h : Good w) (hfits : w.Fits (.changePrimaryLchan c l)) :
    Keeps w (.changePrimaryLchan c l) (gsconChangePrimaryLchan w c l) := by
  obtain ⟨hfree,hold⟩ := hfits
  unfold gsconChangePrimaryLchan
  cases hc : w.conns c with
  | none => exact h.refl
  | some conn =>
    dsimp only
    have hs1 : Same w (w.setConn c { conn with lchan := some l }) := Same.setConn hc rfl id
    have hs : Same w ((w.setConn c { conn with lchan := some l }).setLchan l
        { w.lchans l with conn := some c }) := hs1.trans (Same.setLchan ..)
    have hlinks : Links ((w.setConn c { conn with lchan := some l }).setLchan l
        { w.lchans l with conn := some c }) := by
      refine ⟨fun r hr => ?_,h.links.sapi,fun c' x l' hx hl => ?_,fun c' hc' => ?_⟩
      · obtain ⟨hconn,hsome⟩ := h.links.pending r hr
        constructor
        · by_cases h' : r.lchan = l
          · have hc' : r.data.conn = c := by
              rcases hfree with hfree | hfree
              · rw [← h',hconn] at hfree
                cases hfree
              · rw [← h',hconn] at hfree
                exact Option.some.inj hfree
            simp [World.setLchan,h',hc']
          · simpa [World.setLchan,World.setConn,h'] using hconn
        · by_cases h' : r.data.conn = c
          · simp [World.setLchan,World.setConn,h']
          · simpa [World.setLchan,World.setConn,h'] using hsome
      · by_cases h' : c' = c
        · subst h'
          have hx' : { conn with lchan := some l } = x := by
            simpa [World.setConn,World.setLchan] using hx
          subst hx'
          cases hl
          simp [World.setLchan]
        · have hback := h.links.back c' x l' (by simpa [World.setConn,World.setLchan,h'] using hx) hl
          have hne : l' ≠ l := by
            rintro rfl
            rcases hfree with hfree | hfree
            · rw [hback] at hfree
              cases hfree
            · rw [hback] at hfree
              exact h' (Option.some.inj hfree)
          simpa [World.setLchan,World.setConn,hne] using hback
      · have hne : c' ≠ c := by
          rintro rfl
          have := h.links.unborn c' hc'
          rw [hc] at this
          cases this
        simpa [World.setLchan,World.setConn,hne] using h.links.unborn c' hc'
    cases hl : conn.lchan with
    | none => exact h.same hs hlinks
    | some old =>
      dsimp only
      split
      · rename_i hne
        refine h.same (hs.trans (Same.gsconReleaseLchan ..)) (gsconReleaseLchan_links hlinks fun _ => ?_)
        exact hold old (by simp [World.lchanOf,hc,hl]) hne
      · exact h.same hs hlinks

theorem gsconReleaseLchan_conn (hl : (w.lchans l).conn = some c) :
    ((gsconReleaseLchan w c l).lchans l).conn = none := by
  unfold gsconReleaseLchan connForgetLchan
  rw [if_pos hl]
  split
  · simp [lchanForgetConn,World.setLchan]
  · split <;> simp [lchanForgetConn,World.setLchan,World.setConn]

theorem lchanReset_keeps (h : Good w) (hfits : w.Fits (.lchanReset l)) :
    Keeps w (.lchanReset l) (lchanReset w l) := by
  unfold lchanReset
  cases hl : (w.lchans l).conn with
  | none => exact h.same (Same.setLchan ..) (h.links.setLchan (.inr (h.links.unowned hl)))
  | some c =>
    have hlinks := gsconReleaseLchan_links h.links fun _ : (w.lchans l).conn = some c => hfits
    refine h.same ((Same.gsconReleaseLchan w c l).trans (Same.setLchan ..)) ?_
    exact hlinks.setLchan (.inr (hlinks.unowned (gsconReleaseLchan_conn hl)))

theorem Completed.keeps {w0 w' : World} {r : RllReq} {reqs : List RllReq} {ind : RllrInd} {i : Input}
    (h : Completed w0 r reqs ind w') (hs : Same w w0) (hgood : Good w) (hr : r ∈ w.bscRllReqs)
    (hfails : ind ≠ .estConf → w.Fails r i) : Keeps w i w' := by
  refine ⟨⟨h.ledger,h.links,fun c x hx hxa => ?_⟩,fun m hm hn => ?_⟩
  · rw [h.conns] at hx
    exact hs.idle hgood.idle c x hx hxa
  · rcases h.freed with hfr | ⟨hind,hfr⟩
    · rw [hfr,hs.freed] at hm
      exact absurd hm hn
    · rw [hfr,hs.freed] at hm
      have hm' := (List.mem_append.mp hm).resolve_left hn
      rw [List.mem_singleton] at hm'
      exact .inr (.inl ⟨r,hr,hm'.symm,hfails hind⟩)

theorem rllIndication_keeps {w0 : World} {linkId : Nat} {ind : RllrInd} {i : Input} (h : Good w)
    (hs : Same w w0) (hlinks : Links w0) (hlink : ind = .estConf → (w0.lchans l).rslLink = true)
    (hfails : ind ≠ .estConf → ∀ r ∈ w.bscRllReqs, r.isFor l linkId = true → w.Fails r i) :
    Keeps w i (rllIndication w0 l linkId ind) := by
  rcases rllIndication_completed (hs.ledger h.ledger) hlinks hlink with ⟨heq,-⟩ | ⟨r,l1,l2,hsplit,hr,hcompl⟩
  · rw [heq]
    exact h.same hs hlinks
  · have hmem : r ∈ w.bscRllReqs := by simp [← hs.reqs,hsplit]
    exact hcompl.keeps hs h hmem fun hind => hfails hind r hmem hr

theorem isFor_iff {linkId : Nat} {r : RllReq} :
    r.isFor l linkId = true ↔ r.lchan = l ∧ r.linkId &&& 0xC7 = linkId &&& 0xC7 := by
  simp [RllReq.isFor]

theorem sapi_of_masked {a b : Nat} (h : a &&& 0xC7 = b &&& 0xC7) : a &&& 7 = b &&& 7 := by
  have hmask (x : Nat) : x &&& 7 = (x &&& 0xC7) &&& 7 := by
    rw [Nat.and_assoc]
    rfl
  rw [hmask a,hmask b,h]

theorem rllIndication_noneOn {linkId : Nat} {ind : RllrInd} (h : Ledger [] w) (hlinks : Links w)
    (hind : ind ≠ .estConf) (hall : ∀ r ∈ w.bscRllReqs, r.lchan = l → r.isFor l linkId = true) :
    (rllIndication w l linkId ind).NoneOn l := by
  rcases rllIndication_completed h hlinks fun hx => absurd hx hind
    with ⟨heq,hno⟩ | ⟨r,l1,l2,hsplit,hr,hcompl⟩
  · rw [heq]
    exact fun r hr hl => hno r hr (hall r hr hl)
  · intro r' hr' hl
    have hmem' : r' ∈ w.bscRllReqs := by
      rw [hcompl.reqs] at hr'
      rw [hsplit]
      rcases List.mem_append.mp hr' with hr' | hr'
      · simp [hr']
      · simp [hr']
    have hmem : r ∈ w.bscRllReqs := by simp [hsplit]
    have hfor := isFor_iff.mp (hall r' hmem' hl)
    have hfor' := isFor_iff.mp hr
    have hconn : r'.data.conn = r.data.conn := by
      have h1 := (hlinks.pending r' hmem').1
      have h2 := (hlinks.pending r hmem).1
      rw [hl] at h1
      rw [hfor'.1,h1] at h2
      exact Option.some.inj h2
    have hsapi : r'.data.sapi = r.data.sapi := by
      rw [← hlinks.sapi r' hmem',← hlinks.sapi r hmem]
      exact sapi_of_masked (hfor.2.trans hfor'.2.symm)
    have hin : r'.data ∈ on r.data.conn r.data.sapi (rllIndication w l linkId ind).pending :=
      mem_on.mpr ⟨List.mem_map_of_mem hr',hconn,hsapi⟩
    rw [hcompl.last] at hin
    cases hin

theorem Keeps.same {w1 w2 : World} {i : Input} (h : Keeps w i w1) (hs : Same w1 w2) (hlinks : Links w2) :
    Keeps w i w2 :=
  ⟨⟨hs.ledger h.good.ledger,hlinks,hs.idle h.good.idle⟩,fun m hm hn => h.dropped m (hs.freed ▸ hm) hn⟩

theorem gsconLchanReleasing_same (hlinks : Links w) (hnone : w.NoneOn l) :
    Same w (gsconLchanReleasing w c l) ∧ Links (gsconLchanReleasing w c l) := by
  have hs := Same.gsconReleaseLchan w c l
  have hlinks' := gsconReleaseLchan_links hlinks fun _ : (w.lchans l).conn = some c => hnone
  unfold gsconLchanReleasing
  dsimp only
  generalize gsconReleaseLchan w c l = w' at hs hlinks'
  cases hc : w'.conns c with
  | none => exact ⟨hs,hlinks'⟩
  | some conn =>
    dsimp only
    split
    · have hset : Same w' (w'.setConn c { conn with fi := chgClearing conn.fi }) :=
        Same.setConn hc rfl fun hx => by
          cases hfi : conn.fi <;> simp [chgClearing,hfi] at hx ⊢
      have hlinks'' : Links (w'.setConn c { conn with fi := chgClearing conn.fi }) :=
        hlinks'.setConn hc fun l hl => hlinks'.back c conn l hc hl
      exact ⟨hs.trans ⟨rfl,rfl,rfl,rfl,rfl,rfl,hset.queue,hset.active⟩,hlinks''.congr rfl rfl rfl rfl⟩
    · exact ⟨hs,hlinks'⟩

theorem setSapi_same (h : Links w) (sapi : Nat) (st : SapiState) :
    Same w (setSapi w l sapi st) ∧ Links (setSapi w l sapi st) :=
  ⟨Same.setLchan ..,h.setLchan (.inl rfl)⟩

theorem relInd_keeps {linkId : Nat} (h : Good w) (hfits : w.Fits (.relInd l linkId)) :
    Keeps w (.relInd l linkId) (step w (.relInd l linkId)) := by
  obtain ⟨hs,hlinks⟩ := setSapi_same h.links (l := l) (linkId &&& 7) .unused
  have hkeeps : Keeps w (.relInd l linkId) (rllIndication (setSapi w l (linkId &&& 7) .unused) l linkId .relInd) :=
    rllIndication_keeps h hs hlinks (fun hx => by cases hx) fun _ _ _ hr => hr
  unfold step
  dsimp only
  split
  · exact hkeeps
  · split
    · rename_i c hc hrel
      have hnone : (rllIndication (setSapi w l (linkId &&& 7) .unused) l linkId .relInd).NoneOn l :=
        rllIndication_noneOn (hs.ledger h.ledger) hlinks (by simp) (hs.reqs ▸ hfits hrel.1 hrel.2)
      obtain ⟨hs',hlinks'⟩ := gsconLchanReleasing_same hkeeps.good.links hnone
      exact hkeeps.same hs' hlinks'
    · exact hkeeps

theorem timeout_keeps {i : Nat} (h : Good w) : Keeps w (.timeout i) (timerCb w i) := by
  unfold timerCb
  cases hr : w.bscRllReqs[i]? with
  | none => exact h.refl
  | some r =>
    obtain ⟨hi,hget⟩ := List.getElem?_eq_some_iff.mp hr
    have hsplit : w.bscRllReqs = w.bscRllReqs.take i ++ r :: w.bscRllReqs.drop (i + 1) := by
      rw [← hget,List.getElem_cons_drop,List.take_append_drop]
    have hlink : RllrInd.timeout = .estConf → (w.lchans r.lchan).rslLink = true := fun hx => by cases hx
    have hcompl := rllIndCb_completed h.ledger h.links hsplit hlink
    dsimp only
    rw [List.eraseIdx_eq_take_drop_succ]
    exact hcompl.keeps (Same.refl w) h (List.mem_of_getElem? hr) fun _ => hr

theorem alloc_keeps (h : Good w) : Keeps w .alloc (step w .alloc) := by
  have hnone : w.conns w.nextConn = none := h.links.unborn _ (Nat.le_refl _)
  have hother {c : ConnId} {conn : Conn} (hc : (step w .alloc).conns c = some conn) :
      conn = {} ∨ w.conns c = some conn := by
    by_cases h' : c = w.nextConn
    · have hc' : some ({} : Conn) = some conn := by simpa [step,World.setConn,h'] using hc
      exact .inl (Option.some.inj hc').symm
    · exact .inr (by simpa [step,World.setConn,h'] using hc)
  refine ⟨⟨?_,⟨fun r hr => ?_,h.links.sapi,fun c conn l hc hl => ?_,fun c hc => ?_⟩,fun c conn hc ha => ?_⟩,
    fun m hm hn => absurd hm hn⟩
  · refine h.ledger.congr rfl rfl rfl rfl rfl rfl fun c => ?_
    by_cases h' : c = w.nextConn
    · simp [World.queue,World.setConn,step,h',hnone]
    · simp [World.queue,World.setConn,step,h']
  · obtain ⟨hconn,hsome⟩ := h.links.pending r hr
    refine ⟨hconn,?_⟩
    have hne : r.data.conn ≠ w.nextConn := fun h' => by simp [h',hnone] at hsome
    simpa [step,World.setConn,hne] using hsome
  · rcases hother hc with rfl | hc
    · cases hl
    · exact h.links.back c conn l hc hl
  · have hne : c ≠ w.nextConn := Nat.ne_of_gt hc
    simpa [step,World.setConn,hne] using h.links.unborn c (Nat.le_of_succ_le hc)
  · rcases hother hc with rfl | hc
    · cases ha
    · exact h.idle c conn hc ha

theorem estConf_keeps {linkId : Nat} (h : Good w) (hfits : w.Fits (.estConf l linkId)) :
    Keeps w (.estConf l linkId) (step w (.estConf l linkId)) := by
  obtain ⟨hs,hlinks⟩ := setSapi_same h.links (l := l) (linkId &&& 7) .net
  refine rllIndication_keeps h hs hlinks (fun _ => ?_) fun hx => absurd rfl hx
  have hlink : (w.lchans l).rslLink = true := hfits
  simpa [setSapi,World.setLchan] using hlink

theorem handoverEnd_keeps {ok : Bool} (h : Good w) (hfits : w.Fits (.handoverEnd c ok)) :
    Keeps w (.handoverEnd c ok) (step w (.handoverEnd c ok)) := by
  cases hc : w.conns c with
  | none =>
    have hstep : step w (.handoverEnd c ok) = w := by simp [step,hc]
    rw [hstep]
    exact h.refl
  | some conn =>
    by_cases hflush : conn.fi = .handover ∨ conn.fi = .init ∧ ok = true
    · have hstep : step w (.handoverEnd c ok) = chgActiveAndFlush w c conn := by
        rcases hflush with hfi | ⟨hfi,rfl⟩ <;> simp [step,hc,hfi]
      rw [hstep]
      exact chgActiveAndFlush_keeps h hc hstep (hfits conn hc hflush)
    · by_cases hfi : conn.fi = .init
      · have hok : ok = false := by simpa [hfi] using hflush
        have hstep : step w (.handoverEnd c ok)
            = { w with clearRqst := w.clearRqst ++ [c] }.setConn c { conn with fi := .clearing } := by
          simp [step,hc,hfi,hok]
        have hset : Same w (w.setConn c { conn with fi := .clearing }) :=
          Same.setConn hc rfl fun hx => by cases hx
        have hlinks : Links (w.setConn c { conn with fi := .clearing }) :=
          h.links.setConn hc fun l hl => h.links.back c conn l hc hl
        rw [hstep]
        exact h.same ⟨rfl,rfl,rfl,rfl,rfl,rfl,hset.queue,hset.active⟩ (hlinks.congr rfl rfl rfl rfl)
      · have hstep : step w (.handoverEnd c ok) = w := by
          have hho : conn.fi ≠ .handover := fun hx => hflush (.inl hx)
          cases hx : conn.fi <;> simp_all [step]
        rw [hstep]
        exact h.refl

theorem step_keeps {i : Input} (h : Good w) (hfits : w.Fits i) : Keeps w i (step w i) := by
  cases i with
  | alloc => exact alloc_keeps h
  | submit => exact submit_keeps h hfits
  | connReq => exact leave_keeps h (by simp)
  | connCfm c =>
    change Keeps w _ (w.chg c fun s => if s = .waitCc then .active else s)
    refine chg_keeps h fun conn hc hx => ?_
    split at hx
    · rename_i hfi
      exact hfits conn hc hfi
    · exact h.idle c conn hc hx
  | assignmentStart c =>
    unfold step
    dsimp only
    split
    · exact h.refl
    · exact leave_keeps h (by simp)
  | handoverStart => exact leave_keeps h (by simp)
  | assignmentEnd c =>
    cases hc : w.conns c with
    | none =>
      have hstep : step w (.assignmentEnd c) = w := by simp [step,hc]
      rw [hstep]
      exact h.refl
    | some conn =>
      by_cases hfi : conn.fi = .assignment
      · have hstep : step w (.assignmentEnd c) = chgActiveAndFlush w c conn := by simp [step,hc,hfi]
        rw [hstep]
        exact chgActiveAndFlush_keeps h hc hstep (hfits conn hc hfi)
      · have hstep : step w (.assignmentEnd c) = w := by simp [step,hc,hfi]
        rw [hstep]
        exact h.refl
  | handoverEnd => exact handoverEnd_keeps h hfits
  | clearing c =>
    change Keeps w _ (w.chg c chgClearing)
    exact chg_keeps h fun conn hc hx => by cases hfi : conn.fi <;> simp [chgClearing,hfi] at hx
  | term => exact term_keeps h hfits
  | activate l c type =>
    refine h.same (Same.setLchan ..) (h.links.setLchan ?_)
    rcases hfits with hfree | hfree
    · exact .inr (h.links.unowned hfree)
    · exact .inl hfree.symm
  | changePrimaryLchan => exact changePrimaryLchan_keeps h hfits
  | releaseLchan c l => exact h.same (Same.gsconReleaseLchan w c l) (gsconReleaseLchan_links h.links hfits)
  | lchanReset => exact lchanReset_keeps h hfits
  | estInd l linkId =>
    unfold step
    dsimp only
    split
    · exact h.refl
    · split
      · exact h.refl
      · exact h.same (setSapi_same h.links _ _).1 (setSapi_same h.links _ _).2
  | estConf => exact estConf_keeps h hfits
  | relInd => exact relInd_keeps h hfits
  | errInd l linkId =>
    exact rllIndication_keeps h (Same.refl w) h.links (fun hx => by cases hx) fun _ _ _ hr => hr
  | timeout => exact timeout_keeps h
  | noLocRelCnf | rslLink => exact h.same (Same.setLchan ..) (h.links.setLchan (.inl rfl))

inductive Run : World → Prop where
  | nil : Run {}
  | step {w : World} {i : Input} : Run w → w.Fits i → Run (step w i)

theorem Run.good (h : Run w) : Good w := by
  induction h with
  | nil =>
    refine ⟨⟨fun m => ?_,fun c s => ?_,fun c s => ?_,?_,?_,fun c m hm => ?_,?_,?_⟩,⟨?_,?_,?_,?_⟩,?_⟩
    all_goals first | simp [World.queue,World.sentMsgs,World.pending] | skip
    · simp [World.queue] at hm
    · exact fun c conn hc => by cases hc
  | step _ hfits ih => exact (step_keeps ih hfits).good

/-- The messages of each SAPI were sent in the order received, each one is in one place, and none is
with another connection than its own. -/
structure Delivers (w : World) : Prop where
  order : ∀ c s, (on c s w.sentMsgs).Sublist (on c s w.received)
  once : (w.sentMsgs ++ w.freed).Nodup
  kept : ∀ m ∈ w.received, m ∈ w.sentMsgs ∨ m ∈ w.freed ∨ m ∈ w.pending ∨ m ∈ w.queue m.conn
  sender : ∀ x ∈ w.sent, x.conn = x.msg.conn
  rejecter : ∀ x ∈ w.rejected, x.1 = x.2.conn
  waiting : ∀ r ∈ w.bscRllReqs, (w.lchans r.lchan).conn = some r.data.conn
    ∧ (w.conns r.data.conn).isSome = true
  queued : ∀ c, ∀ m ∈ w.queue c, m.conn = c

theorem Good.delivers (h : Good w) : Delivers w where
  order := fun c s => by
    refine List.Sublist.trans ?_ (h.ledger.order c s)
    rw [List.append_assoc,List.append_assoc]
    exact List.sublist_append_left _ _
  once := List.nodup_iff_count_le_one.mpr fun m => by
    have hcount := h.ledger.count m
    have hone := List.nodup_iff_count_le_one.mp h.ledger.distinct m
    rw [List.count_append]
    omega
  kept := fun m hm => by
    have hcount := h.ledger.count m
    have hpos := List.count_pos_iff.mpr hm
    rw [← List.count_pos_iff,← List.count_pos_iff,← List.count_pos_iff,← List.count_pos_iff]
    rw [List.count_nil] at hcount
    omega
  sender := h.ledger.sender
  rejecter := h.ledger.rejecter
  waiting := h.links.pending
  queued := h.ledger.queued

/-- In a run whose steps meet the condition the messages are delivered in order and once, and dropped
for the reasons given only. -/
theorem dtap_delivered (h : Run w) : Delivers w
    ∧ ∀ i, w.Fits i → ∀ m ∈ (step w i).freed, m ∉ w.freed → w.MayDrop i m :=
  ⟨h.good.delivers,fun _ hfits => (step_keeps h.good hfits).dropped⟩

def exec (is : List Input) : World := is.foldl step {}

def activeConn : List Input :=
  [.alloc,.activate ⟨0,0⟩ 0 .sdcch,.changePrimaryLchan 0 ⟨0,0⟩,.connReq 0,.connCfm 0]

theorem activeConn_run : Run (exec activeConn) := by
  have h1 : Run (exec [.alloc]) := Run.nil.step (i := .alloc) trivial
  have h2 := h1.step (i := .activate ⟨0,0⟩ 0 .sdcch) (.inl rfl)
  have h3 := h2.step (i := .changePrimaryLchan 0 ⟨0,0⟩) ⟨.inr rfl,fun old hold => by cases hold⟩
  have h4 := h3.step (i := .connReq 0) trivial
  refine h4.step (i := .connCfm 0) fun conn hc _ => ?_
  cases hc
  rfl

/-- A message on SAPI 3 waits for the link and is sent. -/
theorem dtap_delivered_sms :
    Delivers (exec (activeConn ++ [Input.submit 0 3 true,.estConf ⟨0,0⟩ 3]))
      ∧ (exec (activeConn ++ [Input.submit 0 3 true,.estConf ⟨0,0⟩ 3])).sentMsgs = [⟨0,0,3,true⟩] := by
  have hsubmit : (exec activeConn).Fits (.submit 0 3 true) := by
    intro conn hc ha l hl
    cases hl
    exact ⟨rfl,rfl⟩
  have hrun := (activeConn_run.step hsubmit).step (i := .estConf ⟨0,0⟩ 3) rfl
  exact ⟨(dtap_delivered hrun).1,by decide⟩

/-- Two messages on SAPI 3 start two establishments, and the first confirm is taken for the second. -/
theorem dtap_reordered : ¬ Delivers (exec (activeConn ++ [Input.submit 0 3 true,.submit 0 3 true,
    .estConf ⟨0,0⟩ 3,.estConf ⟨0,0⟩ 3])) := by
  intro h
  have horder := h.order 0 3
  revert horder
  decide

end OsmoBsc.Dtap
