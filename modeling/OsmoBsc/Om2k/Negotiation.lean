import OsmoBsc.Lib.Checked
import Mathlib.Data.List.FinRange
import Mathlib.Logic.Function.Basic
set_option autoImplicit false

/-! The IWD versions that an OM2000 BTS offers, and the answer. -/

namespace OsmoBsc.Om2k
open Checked

abbrev Chars := {cs : List UInt8 // cs.length = 3}

structure IwdVersion where
  genChar : Chars
  revChar : Chars
  deriving DecidableEq

def IwdVersion.octets (v : IwdVersion) : List UInt8 := v.genChar.1 ++ v.revChar.1

instance : Inhabited IwdVersion := ⟨⟨[0,0,0],rfl⟩,⟨[0,0,0],rfl⟩⟩

/-- `struct iwd_type`, whose array has eight entries. -/
structure IwdType where
  numVers : Nat := 0
  v : Nat → IwdVersion := fun _ => default

def IwdType.put (t : IwdType) (i : Nat) (version : IwdVersion) : IwdType :=
  { t with v := Function.update t.v i version }

abbrev IwdTypes := Fin 16 → IwdType

/-- memcpy() of three characters. -/
def charsAt (msg : List UInt8) (off : Nat) : Except Overrun Chars :=
  if h : off + 3 ≤ msg.length then
    .ok ⟨(msg.drop off).take 3,by rw [List.length_take,List.length_drop]; omega⟩
  else .error .outside

def versionAt (msg : List UInt8) (off : Nat) : Except Overrun IwdVersion := do
  let genChar ← charsAt msg off
  let revChar ← charsAt msg (off + 3)
  return ⟨genChar,revChar⟩

/-- The versions are put into the array one after the other, from entry `i` on. -/
def IwdType.putAll (t : IwdType) : Nat → List IwdVersion → IwdType
  | _, [] => t
  | i, version :: versions => (t.put i version).putAll (i + 1) versions

/-- The loop over the versions of a type, from version `i` on. -/
def readVersions (msg : List UInt8) : Nat → Nat → Nat → IwdType → Except Overrun (Nat × IwdType)
  | 0, _, cur, t => .ok (cur,t)
  | n + 1, i, cur, t => do
    let version ← versionAt msg cur
    if i < 8 then readVersions msg n (i + 1) (cur + 6) (t.put i version) else .error .overfull

/-- The loop over the types. -/
def readTypes (msg : List UInt8) : Nat → Nat → IwdTypes → Except Overrun IwdTypes
  | 0, _, types => .ok types
  | n + 1, cur, types => do
    let numVersions ← octetAt msg cur
    let iwdType ← octetAt msg (cur + 1)
    if h : iwdType.toNat < 16 then
      let (cur,t) ← readVersions msg numVersions.toNat 0 (cur + 2)
        { types ⟨iwdType.toNat,h⟩ with numVers := numVersions.toNat }
      readTypes msg n cur (Function.update types ⟨iwdType.toNat,h⟩ t)
    else .error .overfull

def IwdType.last (t : IwdType) : Option IwdVersion := if t.numVers = 0 then none else some (t.v (t.numVers - 1))

def selectLast (types : IwdTypes) : List (Fin 16 × IwdVersion) :=
  (List.finRange 16).filterMap fun i => (types i).last.map (i,·)

/-- `om2k_rx_negot_req`, up to sending the answer. -/
def om2kRxNegotReq (msg : List UInt8) : Except Overrun (List (Fin 16 × IwdVersion)) := do
  let numIwdTypes ← octetAt msg 12
  let types ← readTypes msg numIwdTypes.toNat 13 fun _ => {}
  return selectLast types

structure Offer where
  iwdType : Fin 16
  versions : List IwdVersion
  le : versions.length ≤ 8

def Offer.octets (o : Offer) : List UInt8 :=
  UInt8.ofNat o.versions.length :: UInt8.ofNat o.iwdType :: o.versions.flatMap IwdVersion.octets

def IwdTypes.take (types : IwdTypes) (o : Offer) : IwdTypes :=
  Function.update types o.iwdType
    (IwdType.putAll { types o.iwdType with numVers := o.versions.length } 0 o.versions)

structure Offered (msg : List UInt8) (offers : List Offer) : Prop where
  header : 13 ≤ msg.length
  count : offers.length = (octet msg 12).toNat
  octets : offers.flatMap Offer.octets <+: msg.drop 13

def Versioned (offers : List Offer) : Prop :=
  ∀ before o after, offers = before ++ o :: after → (∀ o' ∈ after, o'.iwdType ≠ o.iwdType) → o.versions ≠ []

/-- The answer has each offered type once, with a version that is offered for it. -/
structure Answers (offers : List Offer) (answer : List (Fin 16 × IwdVersion)) : Prop where
  once : (answer.map Prod.fst).Nodup
  offered : ∀ o ∈ offers, ∃ v, (o.iwdType,v) ∈ answer ∧ ∃ o' ∈ offers, o'.iwdType = o.iwdType ∧ v ∈ o'.versions

section Reading

variable {msg : List UInt8} {cur n i : Nat} {t : IwdType} {types : IwdTypes}

theorem append_prefix_drop {as bs : List UInt8} {m : Nat} (hm : as.length = m) :
    as ++ bs <+: msg.drop cur ↔ as <+: msg.drop cur ∧ bs <+: msg.drop (cur + m) := by
  subst hm
  constructor
  · rintro ⟨rest,h⟩
    have htail : msg.drop (cur + as.length) = bs ++ rest := by
      rw [← List.drop_drop,← h,List.append_assoc,List.drop_left]
    exact ⟨⟨bs ++ rest,by rw [← h,List.append_assoc]⟩,⟨rest,htail.symm⟩⟩
  · rintro ⟨⟨rest,h⟩,⟨rest',h'⟩⟩
    rw [← List.drop_drop,← h,List.drop_left] at h'
    exact ⟨rest',by rw [← h,← h',List.append_assoc]⟩

theorem octetAt_ok_iff {o : UInt8} : octetAt msg cur = .ok o ↔ [o] <+: msg.drop cur := by
  by_cases h : cur < msg.length
  · rw [octetAt_eq h,List.drop_eq_getElem_cons h,List.cons_prefix_cons,octet,List.getElem?_eq_getElem h]
    simp [eq_comm]
  · rw [octetAt_outside h,List.drop_eq_nil_of_le (Nat.not_lt.mp h)]
    simp

theorem charsAt_ok_iff {c : Chars} : charsAt msg cur = .ok c ↔ c.1 <+: msg.drop cur := by
  unfold charsAt
  constructor
  · intro h
    split at h
    · cases h
      exact List.take_prefix _ _
    · cases h
  · intro h
    have hlen := h.length_le
    rw [c.2,List.length_drop] at hlen
    rw [dif_pos (by omega)]
    have htake := List.prefix_iff_eq_take.mp h
    rw [c.2] at htake
    exact congrArg Except.ok (Subtype.ext htake.symm)

theorem IwdVersion.octets_length (v : IwdVersion) : v.octets.length = 6 := by
  rw [octets,List.length_append,v.genChar.2,v.revChar.2]

theorem versionAt_ok_iff {v : IwdVersion} : versionAt msg cur = .ok v ↔ v.octets <+: msg.drop cur := by
  unfold versionAt IwdVersion.octets
  rw [append_prefix_drop v.genChar.2,← charsAt_ok_iff,← charsAt_ok_iff]
  cases hgen : charsAt msg cur with
  | error e => exact iff_of_false (fun h => by cases h) fun h => by cases h.1
  | ok genChar =>
    cases hrev : charsAt msg (cur + 3) with
    | error e => exact iff_of_false (fun h => by cases h) fun h => by cases h.2
    | ok revChar =>
      constructor
      · intro h
        cases h
        exact ⟨rfl,rfl⟩
      · rintro ⟨hg,hr⟩
        cases hg
        cases hr
        rfl

/-- The loop ends if there are so many versions, and no more than the array holds. -/
theorem readVersions_ok_iff {r : Nat × IwdType} (hi : i ≤ 8) : readVersions msg n i cur t = .ok r ↔
    ∃ versions, versions.length = n ∧ i + n ≤ 8 ∧ versions.flatMap IwdVersion.octets <+: msg.drop cur
      ∧ r = (cur + 6 * n,t.putAll i versions) := by
  induction n generalizing i cur t with
  | zero =>
    constructor
    · intro h
      cases h
      exact ⟨[],rfl,hi,List.nil_prefix,rfl⟩
    · rintro ⟨versions,hlen,-,-,rfl⟩
      rw [List.length_eq_zero_iff.mp hlen]
      rfl
  | succ n ih =>
    rw [readVersions]
    constructor
    · intro h
      cases hv : versionAt msg cur with
      | error e =>
        rw [hv] at h
        cases h
      | ok version =>
        rw [hv,ok_bind] at h
        by_cases hlt : i < 8
        · rw [if_pos hlt] at h
          obtain ⟨versions,hlen,hle,hpre,rfl⟩ := (ih hlt).mp h
          refine ⟨version :: versions,by rw [List.length_cons,hlen],by omega,?_,?_⟩
          · rw [List.flatMap_cons,append_prefix_drop version.octets_length]
            exact ⟨versionAt_ok_iff.mp hv,hpre⟩
          · rw [IwdType.putAll,Nat.mul_succ,Nat.add_assoc,Nat.add_comm 6]
        · rw [if_neg hlt] at h
          cases h
    · rintro ⟨versions,hlen,hle,hpre,rfl⟩
      obtain ⟨version,versions,rfl⟩ := List.exists_cons_of_length_eq_add_one hlen
      rw [List.flatMap_cons,append_prefix_drop version.octets_length] at hpre
      rw [versionAt_ok_iff.mpr hpre.1,ok_bind,if_pos (by omega)]
      refine (ih (by omega)).mpr ⟨versions,by simpa using hlen,by omega,hpre.2,?_⟩
      rw [IwdType.putAll,Nat.mul_succ,Nat.add_assoc,Nat.add_comm 6]

theorem Offer.octets_length (o : Offer) : o.octets.length = 2 + 6 * o.versions.length := by
  have hsum : ∀ versions : List IwdVersion, (versions.flatMap IwdVersion.octets).length = 6 * versions.length := by
    intro versions
    induction versions with
    | nil => rfl
    | cons version versions ih =>
      rw [List.flatMap_cons,List.length_append,ih,version.octets_length,List.length_cons]
      omega
  rw [octets,List.length_cons,List.length_cons,hsum]
  omega

theorem Offer.octets_prefix {o : Offer} : o.octets <+: msg.drop cur ↔
    octetAt msg cur = .ok (UInt8.ofNat o.versions.length) ∧ octetAt msg (cur + 1) = .ok (UInt8.ofNat o.iwdType)
      ∧ o.versions.flatMap IwdVersion.octets <+: msg.drop (cur + 2) := by
  have hsplit : o.octets = [UInt8.ofNat o.versions.length] ++ ([UInt8.ofNat o.iwdType]
      ++ o.versions.flatMap IwdVersion.octets) := rfl
  rw [hsplit,append_prefix_drop rfl,append_prefix_drop rfl,octetAt_ok_iff,octetAt_ok_iff]
  exact Iff.rfl

theorem toNat_ofNat_of_lt {k : Nat} (h : k < 256) : (UInt8.ofNat k).toNat = k := by
  rw [UInt8.toNat_ofNat']
  exact Nat.mod_eq_of_lt h

theorem readTypes_ok_iff {types' : IwdTypes} : readTypes msg n cur types = .ok types' ↔
    ∃ offers : List Offer, offers.length = n ∧ offers.flatMap Offer.octets <+: msg.drop cur
      ∧ types' = offers.foldl IwdTypes.take types := by
  induction n generalizing cur types with
  | zero =>
    constructor
    · intro h
      cases h
      exact ⟨[],rfl,List.nil_prefix,rfl⟩
    · rintro ⟨offers,hlen,-,rfl⟩
      rw [List.length_eq_zero_iff.mp hlen]
      rfl
  | succ n ih =>
    rw [readTypes]
    constructor
    · intro h
      cases hnum : octetAt msg cur with
      | error e =>
        rw [hnum] at h
        cases h
      | ok num =>
        cases htype : octetAt msg (cur + 1) with
        | error e =>
          rw [hnum,ok_bind,htype] at h
          cases h
        | ok iwdType =>
          rw [hnum,ok_bind,htype,ok_bind] at h
          by_cases hlt : iwdType.toNat < 16
          · rw [dif_pos hlt] at h
            cases hvers : readVersions msg num.toNat 0 (cur + 2)
                { types ⟨iwdType.toNat,hlt⟩ with numVers := num.toNat } with
            | error e =>
              rw [hvers] at h
              cases h
            | ok r =>
              obtain ⟨versions,hlen,hle,hpre,rfl⟩ := (readVersions_ok_iff (Nat.zero_le 8)).mp hvers
              rw [hvers,ok_bind] at h
              obtain ⟨offers,hoffers,hrest,rfl⟩ := ih.mp h
              let o : Offer := ⟨⟨iwdType.toNat,hlt⟩,versions,by omega⟩
              have hfirst : o.octets <+: msg.drop cur := by
                refine Offer.octets_prefix.mpr ⟨?_,?_,hpre⟩
                · rw [hnum,hlen,UInt8.ofNat_toNat]
                · rw [htype,UInt8.ofNat_toNat]
              refine ⟨o :: offers,by rw [List.length_cons,hoffers],?_,?_⟩
              · rw [List.flatMap_cons,append_prefix_drop o.octets_length]
                refine ⟨hfirst,?_⟩
                rwa [hlen,← Nat.add_assoc]
              · rw [List.foldl_cons,IwdTypes.take,hlen]
          · rw [dif_neg hlt] at h
            cases h
    · rintro ⟨offers,hlen,hpre,rfl⟩
      obtain ⟨o,offers,rfl⟩ := List.exists_cons_of_length_eq_add_one hlen
      rw [List.flatMap_cons,append_prefix_drop o.octets_length,Offer.octets_prefix] at hpre
      obtain ⟨⟨hnum,htype,hvers⟩,hrest⟩ := hpre
      have hle := o.le
      have hlt := o.iwdType.isLt
      have hnum' := toNat_ofNat_of_lt (k := o.versions.length) (by omega)
      have htype' := toNat_ofNat_of_lt (k := o.iwdType) (by omega)
      have h16 : (UInt8.ofNat o.iwdType).toNat < 16 := by omega
      have hfin : (⟨(UInt8.ofNat o.iwdType).toNat,h16⟩ : Fin 16) = o.iwdType := Fin.ext htype'
      rw [hnum,ok_bind,htype,ok_bind,dif_pos h16,hfin,hnum']
      have hread := (readVersions_ok_iff (t := { types o.iwdType with numVers := o.versions.length })
        (Nat.zero_le 8)).mpr ⟨o.versions,rfl,by omega,hvers,rfl⟩
      rw [hread,ok_bind,Nat.add_assoc]
      exact ih.mpr ⟨offers,by simpa using hlen,hrest,rfl⟩

/-- The request is read to its end if and only if it is a list of offers. -/
theorem om2kRxNegotReq_ok_iff {answer : List (Fin 16 × IwdVersion)} : om2kRxNegotReq msg = .ok answer ↔
    ∃ offers, Offered msg offers ∧ answer = selectLast (offers.foldl IwdTypes.take fun _ => {}) := by
  unfold om2kRxNegotReq
  constructor
  · intro h
    by_cases h12 : 12 < msg.length
    · rw [octetAt_eq h12,ok_bind] at h
      cases htypes : readTypes msg (octet msg 12).toNat 13 fun _ => {} with
      | error e =>
        rw [htypes] at h
        cases h
      | ok types =>
        obtain ⟨offers,hlen,hpre,rfl⟩ := readTypes_ok_iff.mp htypes
        rw [htypes] at h
        cases h
        exact ⟨offers,⟨h12,hlen,hpre⟩,rfl⟩
    · rw [octetAt_outside h12] at h
      cases h
  · rintro ⟨offers,hoff,rfl⟩
    rw [octetAt_eq hoff.header,ok_bind,readTypes_ok_iff.mpr ⟨offers,hoff.count,hoff.octets,rfl⟩]
    rfl

end Reading

section Answer

variable {offers before after : List Offer} {o : Offer} {types : IwdTypes} {t : IwdType}

theorem putAll_numVers (versions : List IwdVersion) (i : Nat) : (t.putAll i versions).numVers = t.numVers := by
  induction versions generalizing i t with
  | nil => rfl
  | cons version versions ih => exact ih (i + 1)

theorem putAll_below (versions : List IwdVersion) {i j : Nat} (h : j < i) : (t.putAll i versions).v j = t.v j := by
  induction versions generalizing i t with
  | nil => rfl
  | cons version versions ih =>
    rw [IwdType.putAll,ih (by omega)]
    exact Function.update_of_ne (Nat.ne_of_lt h) _ _

theorem putAll_v (versions : List IwdVersion) (i : Nat) {j : Nat} (h : j < versions.length) :
    (t.putAll i versions).v (i + j) = versions[j] := by
  induction versions generalizing i j t with
  | nil => cases h
  | cons version versions ih =>
    rw [IwdType.putAll]
    cases j with
    | zero => exact (putAll_below versions (Nat.lt_succ_self i)).trans (Function.update_self _ _ _)
    | succ j =>
      have := ih (t := t.put i version) (i + 1) (j := j) (by simpa using h)
      rw [Nat.add_assoc,Nat.add_comm 1] at this
      exact this

theorem take_last (types : IwdTypes) (o : Offer) : (types.take o o.iwdType).last = o.versions.getLast? := by
  rw [IwdTypes.take,Function.update_self,IwdType.last,putAll_numVers]
  dsimp only
  cases hv : o.versions.length with
  | zero =>
    rw [if_pos rfl,List.length_eq_zero_iff.mp hv]
    rfl
  | succ n =>
    have hn : n < o.versions.length := by omega
    have hget := putAll_v (t := { types o.iwdType with numVers := n + 1 }) o.versions 0 hn
    rw [Nat.zero_add] at hget
    rw [if_neg (Nat.succ_ne_zero n),Nat.add_sub_cancel,hget,List.getLast?_eq_getElem?,hv,Nat.add_sub_cancel,
      List.getElem?_eq_getElem hn]

theorem foldl_take_other {i : Fin 16} (h : ∀ o ∈ after, o.iwdType ≠ i) : after.foldl IwdTypes.take types i = types i := by
  induction after generalizing types with
  | nil => rfl
  | cons o after ih =>
    rw [List.foldl_cons,ih fun o' ho' => h o' (List.mem_cons_of_mem o ho')]
    exact Function.update_of_ne (Ne.symm (h o List.mem_cons_self)) _ _

/-- What is selected for a type is the last version of the last offer for it. -/
theorem last_of_lastOffer (hsplit : offers = before ++ o :: after) (hafter : ∀ o' ∈ after, o'.iwdType ≠ o.iwdType) :
    (offers.foldl IwdTypes.take types o.iwdType).last = o.versions.getLast? := by
  rw [hsplit,List.foldl_append,List.foldl_cons,foldl_take_other hafter,take_last]

theorem exists_lastOffer (ho : o ∈ offers) : ∃ before o' after, offers = before ++ o' :: after
    ∧ o'.iwdType = o.iwdType ∧ ∀ o'' ∈ after, o''.iwdType ≠ o'.iwdType := by
  induction offers generalizing o with
  | nil => cases ho
  | cons first offers ih =>
    by_cases hmore : ∃ o' ∈ offers, o'.iwdType = o.iwdType
    · obtain ⟨o',ho',htype⟩ := hmore
      obtain ⟨before,last,after,hsplit,hsame,hafter⟩ := ih ho'
      exact ⟨first :: before,last,after,by rw [hsplit,List.cons_append],hsame.trans htype,hafter⟩
    · have hfirst : o = first := by
        rcases List.mem_cons.mp ho with h | h
        · exact h
        · exact absurd ⟨o,h,rfl⟩ hmore
      subst hfirst
      exact ⟨[],o,offers,rfl,rfl,fun o' ho' hsame => hmore ⟨o',ho',hsame⟩⟩

theorem mem_selectLast {i : Fin 16} {v : IwdVersion} : (i,v) ∈ selectLast types ↔ (types i).last = some v := by
  simp [selectLast]

theorem selectLast_once (types : IwdTypes) : ((selectLast types).map Prod.fst).Nodup := by
  have hfst : (selectLast types).map Prod.fst = (List.finRange 16).filter fun i => (types i).last.isSome := by
    rw [selectLast,List.map_filterMap,← List.filterMap_eq_filter]
    refine List.filterMap_congr fun i _ => ?_
    cases hlast : (types i).last <;> simp [Option.guard,hlast]
  rw [hfst]
  exact (List.nodup_finRange 16).filter _

/-- The answer is as it should be if and only if the last offer for each type has a version. -/
theorem answers_iff : Answers offers (selectLast (offers.foldl IwdTypes.take types)) ↔ Versioned offers := by
  constructor
  · intro h before o after hsplit hafter hnil
    obtain ⟨v,hv,-⟩ := h.offered o (by rw [hsplit]; exact List.mem_append_right _ List.mem_cons_self)
    rw [mem_selectLast,last_of_lastOffer hsplit hafter,hnil] at hv
    cases hv
  · intro h
    refine ⟨selectLast_once _,fun o ho => ?_⟩
    obtain ⟨before,o',after,hsplit,htype,hafter⟩ := exists_lastOffer ho
    have hne := h before o' after hsplit hafter
    refine ⟨o'.versions.getLast hne,?_,o',?_,htype,List.getLast_mem hne⟩
    · rw [mem_selectLast,← htype,last_of_lastOffer hsplit hafter,List.getLast?_eq_some_getLast hne]
    · rw [hsplit]
      exact List.mem_append_right _ List.mem_cons_self

end Answer

end OsmoBsc.Om2k
