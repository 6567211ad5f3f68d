import OsmoBsc.Si.UarfcnLists
set_option autoImplicit false

namespace OsmoBsc.Si.Si2q
open EventFsm Cursor

section Lists

variable {bts : Si2qBts} {si : SiCommon}

theorem generateSi2quater_alike (h : bts.siCommon.Alike si)
    (hlen : bts.siCommon.uarfcnLength ≤ maxEarfcnList) :
    generateSi2quater (bts.withLists si) =
      (generateSi2quater bts).map fun r => (r.1.withLists si,r.2) := by
  have hneeded : (bts.withLists si).siCommon.si2quaterNotNeeded = bts.siCommon.si2quaterNotNeeded := by
    simp only [Si2qBts.withLists,SiCommon.si2quaterNotNeeded,h.length,h.neighList]
  unfold generateSi2quater
  by_cases hnot : bts.siCommon.si2quaterNotNeeded = true
  · rw [if_pos hnot,if_pos (hneeded.trans hnot)]
    rfl
  · rw [if_neg hnot,if_neg (hneeded ▸ hnot)]
    have hnum := @SiCommon.Alike.si2qNum_eq { bts with uOffset := 0, eOffset := 0, si2qIndex := 0 } si h hlen
      (show 0 < 2 ^ 32 by omega)
    obtain ⟨next,num,hran,hsi,hu,-⟩ := @si2qNum_eq { bts with uOffset := 0, eOffset := 0, si2qIndex := 0 } hlen
      (show 0 < 2 ^ 32 by omega)
    rw [hran] at hnum
    have hpass : makeSi2quaters ({ next with si2qCount := num - 1 }.withLists si) false =
        (makeSi2quaters { next with si2qCount := num - 1 } false).map fun pass => pass.withLists si :=
      @SiCommon.Alike.makeSi2quatersFrom_eq { next with si2qCount := num - 1, si2qIndex := 0 } si false _
        (by simp only [hsi]; exact h) (by simp only [hsi]; exact hlen) (by simp only [hu]; omega)
    have hstart : si2qNum { bts.withLists si with uOffset := 0, eOffset := 0, si2qIndex := 0 } =
        .ok (next.withLists si,num) := hnum
    rw [hstart,hran]
    simp only [ok_bind]
    have hnext : { next.withLists si with si2qCount := num - 1 } = { next with si2qCount := num - 1 }.withLists si :=
      rfl
    rw [hnext,hpass]
    cases makeSi2quaters { next with si2qCount := num - 1 } false with
    | error e => rfl
    | ok pass =>
      simp only [Except.map,ok_bind,Pass.withLists]
      cases pass.rc with
      | error e => rfl
      | ok rc =>
        have hcount : (pass.bts.withLists si).si2qCount = pass.bts.si2qCount := rfl
        have hindex : (pass.bts.withLists si).si2qIndex = pass.bts.si2qIndex := rfl
        simp only [hcount,hindex]
        by_cases hne : pass.bts.si2qCount ≠ pass.bts.si2qIndex
        · rw [if_pos hne,if_pos hne]
        · rw [if_neg hne,if_neg hne]
          by_cases hmax : si2qMaxNum < pass.bts.si2qCount
          · rw [if_pos hmax,if_pos hmax]
          · rw [if_neg hmax,if_neg hmax]

end Lists

section Buffers

variable {s : Si2qBts}

def Si2qBts.withBuf (bts : Si2qBts) (buf : Nat → List Octet) : Si2qBts := { bts with siBuf := buf }

theorem restOctetsSi2quater_withBuf (buf : Nat → List Octet) :
    restOctetsSi2quater (s.withBuf buf) =
      (restOctetsSi2quater s).map (Option.map fun r => (r.1,r.2.withBuf buf)) := by
  unfold restOctetsSi2quater
  by_cases hcount : s.si2qCount < s.si2qIndex
  · rw [if_pos hcount,if_pos (show (s.withBuf buf).si2qCount < (s.withBuf buf).si2qIndex from hcount)]
    rfl
  · rw [if_neg hcount,if_neg (show ¬ (s.withBuf buf).si2qCount < (s.withBuf buf).si2qIndex from hcount)]
    simp only [Si2qBts.withBuf]
    cases appendNeighbours s.siCommon s.uOffset s.eOffset (Writer.put .empty (si2qHead s.si2qIndex s.si2qCount)) with
    | error e => rfl
    | ok r => rfl

theorem restOctetsSi2quater_frame {next : Si2qBts} {bv : Writer BitValue}
    (h : restOctetsSi2quater s = .ok (some (bv,next))) :
    next.siBuf = s.siBuf ∧ next.si2qIndex = s.si2qIndex ∧ next.si2qCount = s.si2qCount
      ∧ next.siValid = s.siValid := by
  unfold restOctetsSi2quater at h
  by_cases hcount : s.si2qCount < s.si2qIndex
  · rw [if_pos hcount] at h
    cases h
  · rw [if_neg hcount] at h
    obtain ⟨r,-,heq⟩ := bind_eq_ok.mp h
    cases heq
    exact ⟨rfl,rfl,rfl,rfl⟩

theorem makeSi2quatersFrom_siValid {counting : Bool} {n : Nat} {pass : Pass}
    (h : makeSi2quatersFrom counting n s = .ok pass) : pass.bts.siValid = s.siValid := by
  induction n generalizing s pass with
  | zero =>
    cases h
    rfl
  | succ n ih =>
    have hprepare : (s.prepare counting).siValid = s.siValid := by
      unfold Si2qBts.prepare
      cases counting with
      | true =>
        simp only [if_true]
        split <;> rfl
      | false => rfl
    obtain ⟨r,hr,hrest⟩ := bind_eq_ok.mp h
    cases r with
    | none =>
      cases hrest
      exact hprepare
    | some r =>
      obtain ⟨bv,next⟩ := r
      have hvalid := (restOctetsSi2quater_frame hr).2.2.2.trans hprepare
      simp only at hrest
      split at hrest
      · cases hrest
        exact hvalid
      · obtain ⟨pass',hpass',heq⟩ := bind_eq_ok.mp hrest
        cases heq
        exact (ih hpass').trans hvalid

def Pass.made (pass : Pass) : Nat := pass.bts.si2qIndex + if pass.rc.isOk then 1 else 0

theorem makeSi2quatersFrom_withBuf {n : Nat} {pass : Pass} {buf : Nat → List Octet}
    (hbuf : ∀ j < s.si2qIndex, buf j = s.siBuf j) (h : makeSi2quatersFrom false n s = .ok pass) :
    ∃ buf', makeSi2quatersFrom false n (s.withBuf buf) = .ok { pass with bts := pass.bts.withBuf buf' }
      ∧ ∀ j < pass.made, buf' j = pass.bts.siBuf j := by
  induction n generalizing s pass buf with
  | zero =>
    cases h
    exact ⟨buf,rfl,hbuf⟩
  | succ n ih =>
    obtain ⟨r,hr,hrest⟩ := bind_eq_ok.mp h
    let message := macblock [siHeader (gsm48Len2plen 22) 0x07]
    have hprepare : (s.withBuf buf).prepare false =
        (s.prepare false).withBuf (Function.update buf s.si2qIndex message) := rfl
    have hbefore : (s.prepare false).siBuf = Function.update s.siBuf s.si2qIndex message := rfl
    have hrun : restOctetsSi2quater ((s.withBuf buf).prepare false) = .ok (r.map fun r =>
        (r.1,r.2.withBuf (Function.update buf s.si2qIndex message))) := by
      rw [hprepare,restOctetsSi2quater_withBuf,hr]
      rfl
    rw [makeSi2quatersFrom,hrun,ok_bind]
    cases r with
    | none =>
      cases hrest
      refine ⟨Function.update buf s.si2qIndex message,rfl,fun j hj => ?_⟩
      have hj : j < s.si2qIndex := hj
      rw [hbefore,Function.update_of_ne (Nat.ne_of_lt hj),Function.update_of_ne (Nat.ne_of_lt hj),hbuf j hj]
    | some r =>
      obtain ⟨bv,next⟩ := r
      obtain ⟨hsame,hindex,-,-⟩ := restOctetsSi2quater_frame hr
      have hindex : next.si2qIndex = s.si2qIndex := hindex
      rw [hbefore] at hsame
      -- The message is made from its header, and not from what was there before.
      let made := (message.take 3 ++ restOctets 20 bv.out : List Octet)
      have hset : (next.withBuf (Function.update buf s.si2qIndex message)).setRestOctets bv.out =
          (next.setRestOctets bv.out).withBuf (Function.update buf s.si2qIndex made) := by
        simp only [Si2qBts.setRestOctets,Si2qBts.withBuf,hindex,Function.update_self,Function.update_idem]
        rfl
      have hnext : (next.setRestOctets bv.out).siBuf = Function.update s.siBuf s.si2qIndex made := by
        simp only [Si2qBts.setRestOctets,hsame,hindex,Function.update_self,Function.update_idem]
        rfl
      have hagree : ∀ j < s.si2qIndex + 1, Function.update buf s.si2qIndex made j =
          (next.setRestOctets bv.out).siBuf j := by
        intro j hj
        rw [hnext,Function.update_apply,Function.update_apply]
        by_cases hji : j = s.si2qIndex
        · rw [if_pos hji,if_pos hji]
        · rw [if_neg hji,if_neg hji,hbuf j (by omega)]
      simp only [Option.map_some,hset]
      simp only at hrest
      by_cases hdone : (next.setRestOctets bv.out).done
      · rw [if_pos hdone] at hrest
        cases hrest
        have hdone' : ((next.setRestOctets bv.out).withBuf (Function.update buf s.si2qIndex made)).done := hdone
        rw [if_pos hdone']
        refine ⟨_,rfl,fun j hj => hagree j ?_⟩
        have hj : j < next.si2qIndex + 1 := hj
        rwa [hindex] at hj
      · rw [if_neg hdone] at hrest
        obtain ⟨pass',hpass',heq⟩ := bind_eq_ok.mp hrest
        cases heq
        have hdone' : ¬ ((next.setRestOctets bv.out).withBuf (Function.update buf s.si2qIndex made)).done := hdone
        rw [if_neg hdone']
        have hbelow : ∀ j < next.si2qIndex + 1, Function.update buf s.si2qIndex made j =
            (next.setRestOctets bv.out).siBuf j := by
          rw [hindex]
          exact hagree
        obtain ⟨buf',hbuf',hmade⟩ := @ih
          { next.setRestOctets bv.out with si2qIndex := (next.setRestOctets bv.out).si2qIndex + 1 } pass'
          (Function.update buf s.si2qIndex made) hbelow hpass'
        have hrec : ∀ t : Si2qBts, t = (next.setRestOctets bv.out).withBuf (Function.update buf s.si2qIndex made) →
            makeSi2quatersFrom false n { t with si2qIndex := t.si2qIndex + 1 } =
              .ok { pass' with bts := pass'.bts.withBuf buf' } := by
          rintro t rfl
          exact hbuf'
        rw [hrec _ rfl,ok_bind]
        exact ⟨buf',rfl,hmade⟩

end Buffers

section Generation

variable {s t : Si2qBts}

structure SameSet (r r' : Si2qBts × Except Errno Nat) : Prop where
  rc : r'.2 = r.2
  siValid : r'.1.siValid = r.1.siValid
  si2qCount : r.2.isOk = true → r.1.siCommon.si2quaterNotNeeded = false → r'.1.si2qCount = r.1.si2qCount
  messages : r.2.isOk = true → r.1.siCommon.si2quaterNotNeeded = false →
    ∀ j ≤ r.1.si2qCount, r'.1.siBuf j = r.1.siBuf j

theorem PassSpec.num_eq {n : Nat} {pass : Pass} (h : PassSpec true n s pass) (h0 : s.si2qIndex = 0) :
    pass.num = if s.siCommon.fits n (s.uOffset,s.eOffset) then (s.siCommon.rounds n (s.uOffset,s.eOffset)).length
      else 0xFF := by
  have hrc := h.rc
  have hindex := h.index
  unfold Pass.num
  cases hfits : s.siCommon.fits n (s.uOffset,s.eOffset) with
  | true =>
    rw [hfits] at hrc hindex
    simp only [hrc,if_true,Bool.toNat_true] at hindex ⊢
    omega
  | false =>
    rw [hfits] at hrc
    simp only [hrc,Bool.false_eq_true,if_false]

theorem generateSi2quater_same (hsi : t.siCommon = s.siCommon) (hvalid : t.siValid = s.siValid)
    (hlen : s.siCommon.uarfcnLength ≤ maxEarfcnList) :
    ∃ r r', generateSi2quater s = .ok r ∧ generateSi2quater t = .ok r' ∧ SameSet r r'
      ∧ r.1.siCommon = s.siCommon := by
  by_cases hneeded : s.siCommon.si2quaterNotNeeded = true
  · refine ⟨_,_,if_pos hneeded,if_pos (hsi ▸ hneeded),⟨rfl,rfl,?_,?_⟩,rfl⟩
    · intro _ h
      rw [hneeded] at h
      cases h
    · intro _ h
      rw [hneeded] at h
      cases h
  · rw [Bool.not_eq_true] at hneeded
    obtain ⟨cs,gs,htwo,hcs,hgs⟩ := twoPasses hlen
    obtain ⟨ct,gt,htwo',hct,-⟩ := @twoPasses t (by rw [hsi]; exact hlen)
    have hnum : ct.num = cs.num := by
      rw [hcs.num_eq rfl,hct.num_eq rfl]
      simp only [hsi]
    have hvalids : cs.bts.siValid = s.siValid := @makeSi2quatersFrom_siValid
      { s with uOffset := 0, eOffset := 0, si2qIndex := 0 } _ si2qMaxNum _ htwo.counts
    have hvalidt : ct.bts.siValid = t.siValid := @makeSi2quatersFrom_siValid
      { t with uOffset := 0, eOffset := 0, si2qIndex := 0 } _ si2qMaxNum _ htwo'.counts
    have hsis : cs.bts.siCommon = s.siCommon := hcs.siCommon
    have hsit : ct.bts.siCommon = t.siCommon := hct.siCommon
    have hstart : ({ ct.bts with uOffset := 0, eOffset := 0, si2qCount := ct.num - 1, si2qIndex := 0 } : Si2qBts) =
        { cs.bts with uOffset := 0, eOffset := 0, si2qCount := cs.num - 1, si2qIndex := 0 }.withBuf ct.bts.siBuf := by
      simp only [Si2qBts.withBuf,hsis,hsit,hsi,hvalids,hvalidt,hvalid,hnum]
    obtain ⟨buf,hbuf,hmade⟩ := @makeSi2quatersFrom_withBuf
      { cs.bts with uOffset := 0, eOffset := 0, si2qCount := cs.num - 1, si2qIndex := 0 } si2qMaxNum _ ct.bts.siBuf
      (fun j hj => absurd hj (Nat.not_lt_zero j)) htwo.generates
    rw [← hstart] at hbuf
    have htwo'' : TwoPasses t ct { gs with bts := gs.bts.withBuf buf } := ⟨htwo'.counts,hbuf⟩
    rw [htwo.generateSi2quater_eq hneeded,htwo''.generateSi2quater_eq (hsi ▸ hneeded)]
    have hrc := generating_rc hcs hgs
    have hsig : gs.bts.siCommon = s.siCommon := hgs.siCommon.trans hsis
    cases hfits : s.siCommon.fits si2qMaxNum (0,0) with
    | false =>
      rw [hfits] at hrc
      simp only [Bool.false_eq_true,if_false] at hrc
      simp only [hrc]
      refine ⟨(gs.bts,.error .enomem),(gs.bts.withBuf buf,.error .enomem),rfl,rfl,⟨rfl,rfl,?_,?_⟩,hsig⟩
      · intro h
        cases h
      · intro h
        cases h
    | true =>
      rw [hfits] at hrc
      simp only [if_true] at hrc
      obtain ⟨heq,hlt⟩ := count_agrees hcs hgs hfits
      simp only [hrc]
      refine ⟨(gs.bts,.ok (3 + 20)),(gs.bts.withBuf buf,.ok (3 + 20)),?_,?_,⟨rfl,rfl,fun _ _ => rfl,fun _ _ j hj => ?_⟩,hsig⟩
      · rw [if_neg (not_not.mpr heq),if_neg (by omega)]
      · exact (if_neg (not_not.mpr heq)).trans (if_neg (show ¬ si2qMaxNum < gs.bts.si2qCount by omega))
      · refine hmade j ?_
        have hj : j ≤ gs.bts.si2qCount := hj
        simp only [Pass.made,hrc,Except.isOk,Except.toBool,if_true]
        omega

end Generation

section Counting

variable {s : Si2qBts}

theorem prepare_counting : (s.prepare true).si2qCount = max s.si2qCount s.si2qIndex := by
  simp only [Si2qBts.prepare,if_true]
  split
  · simp only
    omega
  · omega

theorem makeSi2quatersFrom_count {n : Nat} {pass : Pass} (hlen : s.siCommon.uarfcnLength ≤ maxEarfcnList)
    (hoff : s.uOffset < 2 ^ 32) (hindex : s.si2qIndex ≤ s.si2qCount + 1)
    (h : makeSi2quatersFrom true n s = .ok pass) :
    pass.bts.si2qCount = max s.si2qCount (s.si2qIndex + (s.siCommon.rounds n (s.uOffset,s.eOffset)).length - 1) := by
  have hmax : maxEarfcnList = 32 := rfl
  induction n generalizing s pass with
  | zero =>
    cases h
    simp only [SiCommon.rounds,List.length_nil]
    omega
  | succ n ih =>
    obtain ⟨bv,next,heq,-,hafter,hlt⟩ := @restOctetsSi2quater_prepare true s hlen hoff (fun hc => by cases hc)
    have hcount : next.si2qCount = max s.si2qCount s.si2qIndex :=
      (restOctetsSi2quater_frame heq).2.2.1.trans prepare_counting
    rw [makeSi2quatersFrom,heq,ok_bind] at h
    simp only at h
    rw [SiCommon.rounds,hafter.offsets,List.length_cons]
    cases hcov : s.siCommon.covers (next.uOffset,next.eOffset) with
    | true =>
      have hdone : (next.setRestOctets bv.out).done := by
        rw [done_iff]
        simpa [hafter.siCommon] using hcov
      rw [if_pos hdone] at h
      cases h
      simp only [setRestOctets_si2qCount,hcount,if_true,List.length_nil]
      omega
    | false =>
      have hdone : ¬ (next.setRestOctets bv.out).done := by
        rw [done_iff]
        simpa [hafter.siCommon] using hcov
      rw [if_neg hdone] at h
      obtain ⟨pass',hpass',hfin⟩ := bind_eq_ok.mp h
      cases hfin
      have hrec := @ih { next.setRestOctets bv.out with si2qIndex := (next.setRestOctets bv.out).si2qIndex + 1 } pass'
        (by simp only [setRestOctets_siCommon,hafter.siCommon]; exact hlen) hlt
        (by simp only [setRestOctets_si2qIndex,setRestOctets_si2qCount,hcount,hafter.si2qIndex]; omega) hpass'
      simp only [setRestOctets_si2qIndex,setRestOctets_si2qCount,setRestOctets_siCommon,setRestOctets_uOffset,
        setRestOctets_eOffset,hcount,hafter.si2qIndex,hafter.siCommon] at hrec
      simp only [hrec,Bool.false_eq_true,if_false]
      omega

theorem rounds_length_of_not_fits {si : SiCommon} {n : Nat} {o : Nat × Nat} (h : si.fits n o = false) :
    (si.rounds n o).length = n := by
  induction n generalizing o with
  | zero => rfl
  | succ n ih =>
    rw [SiCommon.fits,Bool.or_eq_false_iff] at h
    rw [SiCommon.rounds,h.1,List.length_cons]
    simp only [Bool.false_eq_true,if_false,ih h.2]

end Counting

section Rejection

variable {bts next : Si2qBts} {uarfcn scramble : Nat} {diversity : Bool} {num : Nat}

theorem Tried.left (ht : Tried bts uarfcn scramble diversity next num) (hlen : bts.siCommon.uarfcnLength < maxEarfcnList)
    (hoff : bts.uOffset < 2 ^ 32) (hfit : ¬ num ≤ si2qMaxNum) :
    next.si2qIndex = si2qMaxNum ∧ next.si2qCount = max bts.si2qCount (si2qMaxNum - 1)
      ∧ next.siValid = bts.siValid
      ∧ ∃ pass, makeSi2quaters (bts.trying uarfcn scramble diversity) true = .ok pass ∧ next.siBuf = pass.bts.siBuf := by
  have hfits : (bts.trying uarfcn scramble diversity).siCommon.fits si2qMaxNum (bts.uOffset,bts.eOffset) = false := by
    rw [← Bool.not_eq_true,← ht.fits]
    exact hfit
  obtain ⟨pass,hpass,hspec⟩ := @makeSi2quaters_counting (bts.trying uarfcn scramble diversity)
    (show _ + 1 ≤ _ from hlen) hoff
  have hrounds := rounds_length_of_not_fits hfits
  have hcount := @makeSi2quatersFrom_count { bts.trying uarfcn scramble diversity with si2qIndex := 0 } si2qMaxNum pass
    (show _ + 1 ≤ _ from hlen) hoff (Nat.zero_le _) hpass
  have hvalid := @makeSi2quatersFrom_siValid { bts.trying uarfcn scramble diversity with si2qIndex := 0 } true
    si2qMaxNum pass hpass
  have hindex := hspec.index
  have hran := ht.ran
  rw [si2qNum,hpass,ok_bind] at hran
  cases hran
  have hoffsets : ((bts.trying uarfcn scramble diversity).uOffset,(bts.trying uarfcn scramble diversity).eOffset) =
      (bts.uOffset,bts.eOffset) := rfl
  simp only [hoffsets,hfits,hrounds,Bool.toNat_false] at hindex hcount
  refine ⟨?_,?_,hvalid,pass,hpass,rfl⟩
  · simp only
    omega
  · simp only [hcount]
    change max bts.si2qCount _ = _
    omega

/-- The word behind the list once the pair for `uarfcn` was added and taken out again. -/
def SiCommon.leftBehind (si : SiCommon) (uarfcn : Nat) : Nat :=
  if si.placeFor uarfcn = si.uarfcnLength then uarfcn else si.uarfcnList (si.uarfcnLength + 1)

/-- The word behind the list, where the encoder looks for the end of the last UARFCN, repeats
that UARFCN after the rollback if and only if it did before. -/
def SiCommon.EndKept (si : SiCommon) (uarfcn : Nat) : Prop :=
  0 < si.uarfcnLength → (si.leftBehind uarfcn = si.uarfcnList (si.uarfcnLength - 1)
    ↔ si.uarfcnList si.uarfcnLength = si.uarfcnList (si.uarfcnLength - 1))

instance (si : SiCommon) (uarfcn : Nat) : Decidable (si.EndKept uarfcn) := inferInstanceAs (Decidable (_ → _))

/-- What is the same after `bts_uarfcn_add` has failed. -/
structure Restored (bts : Si2qBts) (uarfcn : Nat) (next : Si2qBts) : Prop where
  siValid : next.siValid = bts.siValid
  length : next.siCommon.uarfcnLength = bts.siCommon.uarfcnLength
  neighList : next.siCommon.si2quaterNeighList = bts.siCommon.si2quaterNeighList
  entries : bts.siCommon.placeFor uarfcn = bts.siCommon.uarfcnLength
    ∨ bts.siCommon.uarfcnLength + 1 < maxEarfcnList → next.siCommon.entries = bts.siCommon.entries
  generated : bts.siCommon.placeFor uarfcn = bts.siCommon.uarfcnLength
    ∨ bts.siCommon.uarfcnLength + 1 < maxEarfcnList → bts.siCommon.EndKept uarfcn →
    ∃ r r', generateSi2quater bts = .ok r ∧ generateSi2quater next = .ok r' ∧ SameSet r r'

/-- What the dry run has left; the buffers are those of the pass that counted with the pair in the lists. -/
structure DryRun (bts : Si2qBts) (uarfcn scramble : Nat) (diversity : Bool) (next : Si2qBts) : Prop where
  uOffset : next.uOffset = 0
  eOffset : next.eOffset = 0
  si2qIndex : next.si2qIndex = si2qMaxNum
  si2qCount : next.si2qCount = max bts.si2qCount (si2qMaxNum - 1)
  siBuf : ∃ pass, makeSi2quaters (bts.trying uarfcn scramble diversity) true = .ok pass ∧ next.siBuf = pass.bts.siBuf

theorem removeAt_insertAt_behind {si : SiCommon} {i code : Nat} (hi : i ≤ si.uarfcnLength)
    (hroom : i = si.uarfcnLength ∨ si.uarfcnLength + 1 < maxEarfcnList) (hlen : si.uarfcnLength < maxEarfcnList) :
    ((si.insertAt i uarfcn code).removeAt i).uarfcnList si.uarfcnLength =
      if i = si.uarfcnLength then uarfcn else si.uarfcnList (si.uarfcnLength + 1) := by
  have hmax : maxEarfcnList = 32 := rfl
  have hlength : (si.insertAt i uarfcn code).uarfcnLength = si.uarfcnLength + 1 := rfl
  simp only [SiCommon.removeAt,hlength]
  by_cases hend : i = si.uarfcnLength
  · rw [if_pos hend,if_neg (by omega)]
    simp only [SiCommon.insertAt,SiCommon.uarfcnList,Function.update_apply,hmax]
    rw [if_neg (by omega),if_pos (by omega)]
  · rw [if_neg hend,if_pos (by omega)]
    have hword : i + 1 + (si.uarfcnLength - i) = si.uarfcnLength + 1 := by omega
    simp only [SiCommon.insertAt,SiCommon.uarfcnList,memmove,Function.update_apply,hmax]
    rw [if_neg (by omega),if_pos (by omega),hword,if_neg (by omega),if_neg (by omega),if_pos (by omega)]
    simp only [memmove]
    rw [if_neg (by omega),if_neg (by omega)]

theorem alike_of_entries {si si' : SiCommon} (hentries : si'.entries = si.entries)
    (hneigh : si'.si2quaterNeighList = si.si2quaterNeighList)
    (hend : 0 < si.uarfcnLength → (si'.uarfcnList si.uarfcnLength = si.uarfcnList (si.uarfcnLength - 1)
      ↔ si.uarfcnList si.uarfcnLength = si.uarfcnList (si.uarfcnLength - 1))) : si.Alike si' := by
  have hlen : si'.uarfcnLength = si.uarfcnLength := by
    rw [← entries_length,hentries,entries_length]
  have hget : ∀ i < si.uarfcnLength, si'.uarfcnList i = si.uarfcnList i ∧ si'.scrambleList i = si.scrambleList i := by
    intro i hi
    have h := congrArg (·[i]?) hentries
    simp only [entries_getElem?,hlen,if_pos hi,Option.some.injEq,Prod.mk.injEq] at h
    exact h
  refine ⟨hlen,hneigh,fun i hi => (hget i hi).1,fun i hi => (hget i hi).2,fun hpos => ?_⟩
  rw [(hget (si.uarfcnLength - 1) (by omega)).1]
  exact hend hpos

theorem generateSi2quater_kept_set {s t : Si2qBts} (h : s.siCommon.Alike t.siCommon) (hvalid : t.siValid = s.siValid)
    (hlen : s.siCommon.uarfcnLength ≤ maxEarfcnList) :
    ∃ r r', generateSi2quater s = .ok r ∧ generateSi2quater t = .ok r' ∧ SameSet r r' := by
  obtain ⟨r,r',hs,ht,hsame,-⟩ := @generateSi2quater_same s (t.withLists s.siCommon) rfl hvalid hlen
  have hback := @generateSi2quater_alike (t.withLists s.siCommon) t.siCommon h hlen
  rw [ht] at hback
  exact ⟨r,_,hs,hback,hsame.rc,hsame.siValid,hsame.si2qCount,hsame.messages⟩

/-- A rejected addition changes nothing if the list is full or has the pair. If the pair does
not fit, the lists and the next messages are as they were, and only what serves their
generation is left as the dry run leaves it. -/
theorem uarfcnAdd_rejected {bts next : Si2qBts} {uarfcn scramble : Nat} {diversity : Bool} {e : Errno}
    (hlen : bts.siCommon.uarfcnLength ≤ maxEarfcnList) (hoff : bts.uOffset < 2 ^ 32)
    (h : btsUarfcnAdd bts uarfcn scramble diversity = .ok (next,.error e)) :
    (e ≠ .enospc → next = bts) ∧ (e = .enospc → DryRun bts uarfcn scramble diversity next)
      ∧ Restored bts uarfcn next := by
  by_cases hrefused : bts.siCommon.uarfcnLength = maxEarfcnList ∨ bts.siCommon.uarfcnScPos uarfcn scramble ≠ none
  · rw [btsUarfcnAdd_refused hrefused] at h
    have hne : e ≠ .enospc := by
      cases h
      split <;> exact fun h => by cases h
    cases h
    refine ⟨fun _ => rfl,fun h => absurd h hne,rfl,rfl,rfl,fun _ => rfl,fun _ _ => ?_⟩
    obtain ⟨r,r',hs,ht,hsame,-⟩ := generateSi2quater_same (s := bts) rfl rfl hlen
    exact ⟨r,r',hs,ht,hsame⟩
  · obtain ⟨hfull,hnone⟩ := not_or.mp hrefused
    rw [ne_eq,not_not] at hnone
    have hlt := Nat.lt_of_le_of_ne hlen hfull
    obtain ⟨tried,num,ht⟩ := @tried bts uarfcn scramble diversity hlt hoff
    rw [btsUarfcnAdd_tried hfull hnone ht.ran] at h
    by_cases hfit : num ≤ si2qMaxNum
    · rw [if_pos hfit] at h
      cases h
    · rw [if_neg hfit] at h
      have hfound := @trying_found _ _ _ diversity hnone hlt
      rw [← ht.siCommon] at hfound
      rw [btsUarfcnDel_found hfound] at h
      cases h
      obtain ⟨hindex,hcount,hvalid,hbuf⟩ := ht.left hlt hoff hfit
      have hplace := placeFor_le bts.siCommon uarfcn
      have hlists : tried.siCommon.removeAt (bts.siCommon.placeFor uarfcn) =
          (bts.siCommon.insertAt (bts.siCommon.placeFor uarfcn) uarfcn (encodeFdd scramble diversity)).removeAt
            (bts.siCommon.placeFor uarfcn) := by
        rw [ht.siCommon]
        rfl
      have hentries : bts.siCommon.placeFor uarfcn = bts.siCommon.uarfcnLength
          ∨ bts.siCommon.uarfcnLength + 1 < maxEarfcnList →
          (tried.siCommon.removeAt (bts.siCommon.placeFor uarfcn)).entries = bts.siCommon.entries := by
        intro hroom
        rw [removeAt_entries (uarfcnScPos_lt hfound) (by rw [ht.siCommon]; change _ = _ + 1 ∨ _ + 1 < _; omega)
          (by rw [ht.siCommon]; exact hlt),ht.siCommon,trying_entries hlt,List.eraseIdx_insertIdx_self]
      refine ⟨fun h => absurd rfl h,fun _ => ⟨ht.uOffset,(si2qNum_offsets ht.ran).2,hindex,hcount,hbuf⟩,hvalid,?_,?_,
        hentries,fun hroom hend => ?_⟩
      · change (tried.siCommon.removeAt _).uarfcnLength = _
        rw [hlists]
        rfl
      · change (tried.siCommon.removeAt _).si2quaterNeighList = _
        rw [hlists]
        rfl
      · refine generateSi2quater_kept_set (alike_of_entries (hentries hroom) ?_ fun hpos => ?_) hvalid hlen
        · change (tried.siCommon.removeAt _).si2quaterNeighList = _
          rw [hlists]
          rfl
        · change (tried.siCommon.removeAt _).uarfcnList _ = _ ↔ _
          rw [hlists,removeAt_insertAt_behind hplace hroom hlt]
          exact hend hpos

end Rejection

section Example

def nearlyFull : Si2qBts := leftover ((List.range 14).map fun i => (100,i + 1)) {} 0 0 0

theorem nearlyFull_rejects : ∃ next, btsUarfcnAdd nearlyFull 100 15 false = .ok (next,.error .enospc)
    ∧ next.si2qCount = 15 ∧ next.si2qIndex = 16 := by
  have h : ∃ r, btsUarfcnAdd nearlyFull 100 15 false = .ok r
      ∧ (r.2 = .error .enospc ∧ r.1.si2qCount = 15 ∧ r.1.si2qIndex = 16) := by
    decide +kernel
  obtain ⟨⟨next,rc⟩,hadd,rfl,hleft⟩ := h
  exact ⟨next,hadd,hleft⟩

/-- There is no room for a 15th one, but `si2q_count` is not 0 again. -/
theorem uarfcnAdd_leaves_count : ∃ next, btsUarfcnAdd nearlyFull 100 15 false = .ok (next,.error .enospc)
    ∧ next.si2qCount ≠ nearlyFull.si2qCount ∧ next.si2qIndex ≠ nearlyFull.si2qIndex := by
  obtain ⟨next,hadd,hcount,hindex⟩ := nearlyFull_rejects
  refine ⟨next,hadd,?_,?_⟩
  · rw [hcount]
    decide
  · rw [hindex]
    decide

theorem uarfcnAdd_rejected_nearlyFull : ∃ next r r', btsUarfcnAdd nearlyFull 100 15 false = .ok (next,.error .enospc)
    ∧ next.siCommon.entries = nearlyFull.siCommon.entries ∧ generateSi2quater nearlyFull = .ok r
    ∧ generateSi2quater next = .ok r' ∧ SameSet r r' := by
  obtain ⟨next,hadd,-⟩ := nearlyFull_rejects
  obtain ⟨-,-,hrestored⟩ := uarfcnAdd_rejected (show 14 ≤ maxEarfcnList by decide) (show 0 < 2 ^ 32 by omega) hadd
  obtain ⟨r,r',hr,hr',hsame⟩ := hrestored.generated (.inr (by decide)) (by decide +kernel)
  exact ⟨next,r,r',hadd,hrestored.entries (.inr (by decide)),hr,hr',hsame⟩

end Example

end OsmoBsc.Si.Si2q
