import Mathlib.Data.List.Nodup
import OsmoBsc.Lib.Fsm
set_option autoImplicit false

namespace OsmoBsc.Neighbor
open EventFsm

structure Key where
  fromBts : Int
  arfcn : UInt16
  bsic : UInt8
  deriving DecidableEq, Repr

def keyAnyBts : Int := -1

def bsicAny : UInt8 := 0xff

def neighborIdentKeyMatch (entry searchFor : Key) (exactMatch : Bool) : Bool :=
  if exactMatch && entry.fromBts != searchFor.fromBts then false
  else if searchFor.fromBts != keyAnyBts && entry.fromBts != keyAnyBts
      && entry.fromBts != searchFor.fromBts then false
  else if entry.arfcn != searchFor.arfcn then false
  else if exactMatch && entry.bsic != searchFor.bsic then false
  else if entry.bsic == bsicAny || searchFor.bsic == bsicAny then true
  else entry.bsic == searchFor.bsic

def neighborIdentKeyValid (key : Key) : Bool :=
  if key.fromBts != keyAnyBts && (key.fromBts < 0 || key.fromBts > 255) then false
  else if key.bsic != bsicAny && key.bsic > 0x3f then false
  else true

/-- `struct neighbor_ident`: the value is a `struct gsm0808_cell_id_list2`. -/
structure Ident (V : Type) where
  key : Key
  val : V

/-- What is used of the cell identifier lists: their length, and
gsm0808_cell_id_list_add() with its return code and the list it leaves behind. -/
structure CellIdLists (V : Type) where
  idListLen : V → Nat
  listAdd : V → V → Int × V

abbrev Store (V : Type) := List (Ident V)

def eNoMem : Int := 12
def eRange : Int := 34

section Operations

variable {V : Type}

/-- The loop of _neighbor_ident_get(): the pointer it returns is the place of the entry. -/
def getFrom (key : Key) (exactMatch : Bool) : Store V → Nat → Option Nat → Option Nat
  | [],_,wildcardMatch => wildcardMatch
  | ni :: rest,i,wildcardMatch =>
    if neighborIdentKeyMatch ni.key key true then some i
    else getFrom key exactMatch rest (i+1)
      (if !exactMatch && neighborIdentKeyMatch ni.key key false then some i else wildcardMatch)

def neighborIdentGetEntry (store : Store V) (key : Key) (exactMatch : Bool) : Option Nat :=
  getFrom key exactMatch store 0 none

def neighborIdentInit : Option (Store V) := some []

def neighborIdentAdd (lists : CellIdLists V) (nil : Option (Store V)) (key : Key) (val : V) :
    Int × Option (Store V) :=
  match nil with
  | none => (-eNoMem,none)
  | some store =>
    if !neighborIdentKeyValid key then (-eRange,some store)
    else match (neighborIdentGetEntry store key true).bind fun i => store[i]?.map (i,·) with
      | none => (lists.idListLen val,some (store ++ [⟨key,val⟩]))
      | some (i,ni) =>
        let r := lists.listAdd ni.val val
        (if r.1 < 0 then r.1 else lists.idListLen r.2,some (store.set i { ni with val := r.2 }))

def neighborIdentGet (nil : Option (Store V)) (key : Key) : Option V :=
  match nil with
  | none => none
  | some store => (neighborIdentGetEntry store key false).bind fun i => store[i]?.map (·.val)

def neighborIdentDel (nil : Option (Store V)) (key : Key) : Bool × Option (Store V) :=
  match nil with
  | none => (false,none)
  | some store => match neighborIdentGetEntry store key true with
    | none => (false,some store)
    | some i => (true,some (store.eraseIdx i))

/-- The loop of neighbor_ident_clear(): the first entry is freed until there is none. -/
def clearFrom : Store V → Store V
  | [] => []
  | _ :: rest => clearFrom rest

def neighborIdentClear (nil : Option (Store V)) : Except Fault (Option (Store V)) :=
  match nil with
  | none => .error .nullDeref
  | some store => .ok (some (clearFrom store))

inductive Op (V : Type) where
  | add (key : Key) (val : V)
  | del (key : Key)
  | clear

def step (lists : CellIdLists V) (nil : Option (Store V)) : Op V → Except Fault (Option (Store V))
  | .add key val => .ok (neighborIdentAdd lists nil key val).2
  | .del key => .ok (neighborIdentDel nil key).2
  | .clear => neighborIdentClear nil

end Operations

/-- A stored key and a searched key denote a common neighbour relation: either may leave
the BTS or the BSIC open. -/
def Meets (entry searchFor : Key) : Prop :=
  (entry.fromBts = keyAnyBts ∨ searchFor.fromBts = keyAnyBts ∨ entry.fromBts = searchFor.fromBts) ∧
  entry.arfcn = searchFor.arfcn ∧
  (entry.bsic = bsicAny ∨ searchFor.bsic = bsicAny ∨ entry.bsic = searchFor.bsic)

theorem neighborIdentKeyMatch_exact (entry searchFor : Key) :
    neighborIdentKeyMatch entry searchFor true = true ↔ entry = searchFor := by
  cases entry
  cases searchFor
  simp only [neighborIdentKeyMatch,Key.mk.injEq]
  grind

theorem neighborIdentKeyMatch_wildcard (entry searchFor : Key) :
    neighborIdentKeyMatch entry searchFor false = true ↔ Meets entry searchFor := by
  cases entry
  cases searchFor
  simp only [neighborIdentKeyMatch,Meets]
  grind

section Search

variable {V : Type}

theorem getFrom_found {key : Key} {exactMatch : Bool} {pre : Store V} {ni : Ident V}
    (post : Store V) (h : ∀ x ∈ pre, x.key ≠ key) (hni : ni.key = key) (i : Nat) (w : Option Nat) :
    getFrom key exactMatch (pre ++ ni :: post) i w = some (i+pre.length) := by
  induction pre generalizing i w with
  | nil => simp [getFrom,(neighborIdentKeyMatch_exact ni.key key).mpr hni]
  | cons x pre ih =>
    have hx : neighborIdentKeyMatch x.key key true = false := by
      simpa [← neighborIdentKeyMatch_exact] using h x (by simp)
    have ih := ih (fun y hy => h y (by simp [hy])) (i+1)
    simp only [List.cons_append,getFrom,hx,Bool.false_eq_true,if_false,ih,List.length_cons]
    congr 1
    omega

theorem neighborIdentGetEntry_found {key : Key} {exactMatch : Bool} {pre post : Store V}
    {ni : Ident V} (h : ∀ x ∈ pre, x.key ≠ key) (hni : ni.key = key) :
    neighborIdentGetEntry (pre ++ ni :: post) key exactMatch = some pre.length := by
  rw [neighborIdentGetEntry,getFrom_found post h hni 0 none,Nat.zero_add]

theorem getFrom_exact_none {key : Key} {store : Store V} (h : ∀ x ∈ store, x.key ≠ key) (i : Nat) :
    getFrom key true store i none = none := by
  induction store generalizing i with
  | nil => rfl
  | cons x store ih =>
    have hx : neighborIdentKeyMatch x.key key true = false := by
      simpa [← neighborIdentKeyMatch_exact] using h x (by simp)
    simpa [getFrom,hx] using ih (fun y hy => h y (by simp [hy])) (i+1)

/-- Without an exact match, what the search returns is the last entry that meets the key,
or what was carried into the loop. -/
theorem getFrom_wildcard {key : Key} {store : Store V} (h : ∀ x ∈ store, x.key ≠ key)
    (i : Nat) (w : Option Nat) :
    (getFrom key false store i w = w ∧ ∀ x ∈ store, ¬Meets x.key key) ∨
      ∃ j x, getFrom key false store i w = some (i+j) ∧ store[j]? = some x ∧ Meets x.key key := by
  induction store generalizing i w with
  | nil => simp [getFrom]
  | cons x store ih =>
    have hx : neighborIdentKeyMatch x.key key true = false := by
      simpa [← neighborIdentKeyMatch_exact] using h x (by simp)
    have ih := ih (fun y hy => h y (by simp [hy])) (i+1)
      (if neighborIdentKeyMatch x.key key false then some i else w)
    simp only [getFrom,hx,Bool.false_eq_true,if_false,Bool.not_false,Bool.true_and]
    rcases ih with ⟨hg,hn⟩ | ⟨j,y,hg,hy,hm⟩
    · by_cases hm : Meets x.key key
      · right
        exact ⟨0,x,by simpa [(neighborIdentKeyMatch_wildcard _ _).mpr hm] using hg,by simp,hm⟩
      · left
        have hw : neighborIdentKeyMatch x.key key false = false := by
          simpa [← neighborIdentKeyMatch_wildcard] using hm
        refine ⟨by simpa [hw] using hg,?_⟩
        intro y hy
        rcases List.mem_cons.mp hy with rfl | hy
        · exact hm
        · exact hn y hy
    · right
      refine ⟨j+1,y,?_,by simpa using hy,hm⟩
      rw [hg]
      congr 1
      omega

/-- Either the key is stored, and the list splits at its entry, or it is not. -/
theorem store_split (store : Store V) (key : Key) :
    (∀ x ∈ store, x.key ≠ key) ∨
      ∃ pre ni post, store = pre ++ ni :: post ∧ ni.key = key ∧ ∀ x ∈ pre, x.key ≠ key := by
  induction store with
  | nil => simp
  | cons x store ih =>
    by_cases hx : x.key = key
    · exact .inr ⟨[],x,store,rfl,hx,by simp⟩
    · rcases ih with h | ⟨pre,ni,post,rfl,hni,hpre⟩
      · left
        simpa [hx] using h
      · right
        exact ⟨x :: pre,ni,post,rfl,hni,by simpa [hx] using hpre⟩

end Search

section Updates

variable {V : Type} (lists : CellIdLists V) (store : Store V) (key : Key) (val : V)

theorem neighborIdentAdd_cases :
    (neighborIdentKeyValid key = false ∧ (neighborIdentAdd lists (some store) key val).2 = some store) ∨
    (neighborIdentKeyValid key = true ∧ (∀ x ∈ store, x.key ≠ key) ∧
      (neighborIdentAdd lists (some store) key val).2 = some (store ++ [⟨key,val⟩])) ∨
    (∃ pre ni post, store = pre ++ ni :: post ∧ ni.key = key ∧
      (neighborIdentAdd lists (some store) key val).2 =
        some (pre ++ { ni with val := (lists.listAdd ni.val val).2 } :: post)) := by
  by_cases hv : neighborIdentKeyValid key = true
  · rcases store_split store key with h | ⟨pre,ni,post,rfl,hni,hpre⟩
    · right
      left
      have hg : neighborIdentGetEntry store key true = none := getFrom_exact_none h 0
      simpa [neighborIdentAdd,hv,hg] using h
    · right
      right
      have hg : neighborIdentGetEntry (pre ++ ni :: post) key true = some pre.length :=
        neighborIdentGetEntry_found hpre hni
      exact ⟨pre,ni,post,rfl,hni,by simp [neighborIdentAdd,hv,hg]⟩
  · left
    simp only [Bool.not_eq_true] at hv
    simp [neighborIdentAdd,hv]

theorem neighborIdentDel_cases :
    ((∀ x ∈ store, x.key ≠ key) ∧ (neighborIdentDel (some store) key).2 = some store) ∨
    (∃ pre ni post, store = pre ++ ni :: post ∧ ni.key = key ∧
      (neighborIdentDel (some store) key).2 = some (pre ++ post)) := by
  rcases store_split store key with h | ⟨pre,ni,post,rfl,hni,hpre⟩
  · left
    have hg : neighborIdentGetEntry store key true = none := getFrom_exact_none h 0
    simpa [neighborIdentDel,hg] using h
  · right
    have hg : neighborIdentGetEntry (pre ++ ni :: post) key true = some pre.length :=
      neighborIdentGetEntry_found hpre hni
    exact ⟨pre,ni,post,rfl,hni,by simp [neighborIdentDel,hg,List.eraseIdx_append_of_length_le]⟩

def apartFrom {V : Type} (key : Key) (store : Store V) : Store V := store.filter fun ni => ni.key ≠ key

theorem apartFrom_add : ((neighborIdentAdd lists (some store) key val).2.map (apartFrom key)) =
    some (apartFrom key store) := by
  rcases neighborIdentAdd_cases lists store key val with
    ⟨_,h⟩ | ⟨_,_,h⟩ | ⟨pre,ni,post,rfl,hni,h⟩
  · simp [h]
  · simp [h,apartFrom]
  · simp [h,apartFrom,hni]

theorem apartFrom_del : ((neighborIdentDel (some store) key).2.map (apartFrom key)) =
    some (apartFrom key store) := by
  rcases neighborIdentDel_cases store key with
    ⟨_,h⟩ | ⟨pre,ni,post,rfl,hni,h⟩
  · simp [h]
  · simp [h,apartFrom,hni]

end Updates

section Runs

variable {V : Type} {lists : CellIdLists V}

structure Sound (nil : Option (Store V)) (store : Store V) : Prop where
  list : nil = some store
  valid : ∀ ni ∈ store, neighborIdentKeyValid ni.key = true
  distinct : (store.map (·.key)).Nodup

theorem clearFrom_eq (store : Store V) : clearFrom store = [] := by
  induction store with
  | nil => rfl
  | cons _ _ ih => exact ih

theorem sound_add {store : Store V} (h : Sound (some store) store) (key : Key) (val : V) :
    ∃ store', Sound (neighborIdentAdd lists (some store) key val).2 store' := by
  rcases neighborIdentAdd_cases lists store key val with
    ⟨_,ha⟩ | ⟨hv,hn,ha⟩ | ⟨pre,ni,post,rfl,hni,ha⟩
  · exact ⟨store,ha,h.valid,h.distinct⟩
  · refine ⟨_,ha,?_,?_⟩
    · intro ni hni
      rcases List.mem_append.mp hni with hni | hni
      · exact h.valid ni hni
      · simp only [List.mem_singleton] at hni
        simpa [hni] using hv
    · have hd := h.distinct
      simp only [List.map_append,List.map_cons,List.map_nil,List.nodup_append,List.nodup_singleton,
        List.mem_map,List.mem_singleton,true_and]
      refine ⟨hd,?_⟩
      rintro _ ⟨x,hx,rfl⟩ _ rfl
      exact hn x hx
  · refine ⟨_,ha,?_,?_⟩
    · have hv := h.valid
      intro x hx
      simp only [List.mem_append,List.mem_cons] at hx
      rcases hx with hx | rfl | hx
      · exact hv x (by simp [hx])
      · exact hv ni (by simp)
      · exact hv x (by simp [hx])
    · simpa using h.distinct

theorem sound_del {store : Store V} (h : Sound (some store) store) (key : Key) :
    ∃ store', Sound (neighborIdentDel (some store) key).2 store' := by
  rcases neighborIdentDel_cases store key with
    ⟨_,hd⟩ | ⟨pre,ni,post,rfl,_,hd⟩
  · exact ⟨store,hd,h.valid,h.distinct⟩
  · have hs : (pre ++ post).Sublist (pre ++ ni :: post) := by simp
    exact ⟨_,hd,fun x hx => h.valid x (hs.subset hx),h.distinct.sublist (hs.map _)⟩

abbrev Reachable (lists : CellIdLists V) (nil : Option (Store V)) : Prop :=
  Reach (step lists) (fun _ _ => True) (· = neighborIdentInit) nil

theorem Reachable.sound {nil : Option (Store V)} (h : Reachable lists nil) :
    ∃ store, Sound nil store := by
  let inv (nil : Option (Store V)) : Prop := ∃ store, Sound nil store
  refine show inv nil from h.invariant ?_ ?_
  · rintro _ rfl
    exact ⟨[],rfl,by simp,by simp⟩
  · rintro nil op nil' ⟨store,hs⟩ - hop
    obtain rfl := hs.list
    cases op with
    | add key val =>
      cases hop
      exact sound_add hs key val
    | del key =>
      cases hop
      exact sound_del hs key
    | clear =>
      simp only [step,neighborIdentClear,clearFrom_eq,Except.ok.injEq] at hop
      exact ⟨[],hop.symm,by simp,by simp⟩

theorem neighborIdentGet_exact {nil : Option (Store V)} {store : Store V} (hs : Sound nil store)
    {ni : Ident V} (hni : ni ∈ store) : neighborIdentGet nil ni.key = some ni.val := by
  obtain rfl := hs.list
  obtain ⟨pre,post,rfl⟩ := List.append_of_mem hni
  have hpre : ∀ x ∈ pre, x.key ≠ ni.key := by
    have hd := hs.distinct
    simp only [List.map_append,List.map_cons,List.nodup_append,List.mem_map,List.mem_cons] at hd
    intro x hx
    exact hd.2.2 x.key ⟨x,hx,rfl⟩ ni.key (.inl rfl)
  simp [neighborIdentGet,neighborIdentGetEntry_found hpre rfl]

theorem neighborIdentGet_wildcard {store : Store V} {key : Key} (h : ∀ x ∈ store, x.key ≠ key) :
    (neighborIdentGet (some store) key = none ∧ ∀ x ∈ store, ¬Meets x.key key) ∨
      ∃ ni ∈ store, Meets ni.key key ∧ neighborIdentGet (some store) key = some ni.val := by
  simp only [neighborIdentGet,neighborIdentGetEntry]
  rcases getFrom_wildcard h 0 none with ⟨hg,hn⟩ | ⟨j,ni,hg,hj,hm⟩
  · exact .inl ⟨by simp [hg],hn⟩
  · exact .inr ⟨ni,List.mem_of_getElem? hj,hm,by simp [hg,hj]⟩

/-- The laws of the neighbour store: the stored keys stay valid and distinct, an update
under a key leaves every other entry as it is, and a search prefers the entry with exactly
the key it asks for, then any that meets it. -/
theorem neighbor_store_laws {nil : Option (Store V)} (h : Reachable lists nil) :
    ∃ store, nil = some store ∧
      (∀ ni ∈ store, neighborIdentKeyValid ni.key = true) ∧
      (store.map (·.key)).Nodup ∧
      (∀ key val, (neighborIdentAdd lists nil key val).2.map (apartFrom key) =
        some (apartFrom key store)) ∧
      (∀ key, (neighborIdentDel nil key).2.map (apartFrom key) = some (apartFrom key store)) ∧
      ∀ key, neighborIdentKeyValid key = true →
        (∀ ni ∈ store, ni.key = key → neighborIdentGet nil key = some ni.val) ∧
        ((∀ ni ∈ store, ni.key ≠ key) → (∃ ni ∈ store, Meets ni.key key) →
          ∃ ni ∈ store, Meets ni.key key ∧ neighborIdentGet nil key = some ni.val) ∧
        (neighborIdentGet nil key = none → ∀ ni ∈ store, ¬Meets ni.key key) := by
  obtain ⟨store,hs⟩ := h.sound
  obtain rfl := hs.list
  refine ⟨store,rfl,hs.valid,hs.distinct,apartFrom_add lists store,apartFrom_del store,?_⟩
  intro key _
  refine ⟨?_,?_,?_⟩
  · rintro ni hni rfl
    exact neighborIdentGet_exact hs hni
  · intro hn ⟨ni,hni,hm⟩
    rcases neighborIdentGet_wildcard hn with ⟨_,hnone⟩ | hsome
    · exact absurd hm (hnone ni hni)
    · exact hsome
  · intro hnone
    have hn : ∀ ni ∈ store, ni.key ≠ key := by
      rintro ni hni rfl
      rw [neighborIdentGet_exact hs hni] at hnone
      cases hnone
    rcases neighborIdentGet_wildcard hn with ⟨_,h⟩ | ⟨ni,_,_,hsome⟩
    · exact h
    · rw [hsome] at hnone
      cases hnone

/-- Location area codes as cell identifiers: those not listed yet are added. -/
def lacLists : CellIdLists (List Nat) where
  idListLen := List.length
  listAdd dst src := ((src.filter (· ∉ dst)).length,dst ++ src.filter (· ∉ dst))

def someNeighbors : List (Op (List Nat)) :=
  [.add ⟨-1,100,0xff⟩ [1],.add ⟨3,100,7⟩ [2],.add ⟨3,100,7⟩ [2,4],.del ⟨3,100,0xff⟩]

theorem neighbor_store_laws_some :
    ∃ nil, run (step lacLists) neighborIdentInit someNeighbors = .ok nil ∧
      neighborIdentGet nil ⟨3,100,7⟩ = some [2,4] ∧ neighborIdentGet nil ⟨3,100,8⟩ = some [1] ∧
      ∃ store, nil = some store ∧ (store.map (·.key)).Nodup := by
  obtain ⟨nil,hr,h1,h2⟩ : ∃ nil, run (step lacLists) neighborIdentInit someNeighbors = .ok nil ∧
      neighborIdentGet nil ⟨3,100,7⟩ = some [2,4] ∧ neighborIdentGet nil ⟨3,100,8⟩ = some [1] := by
    decide +kernel
  have hreach : Reachable lacLists nil :=
    Reach.of_run (.start rfl) (.of_forall (fun _ _ => trivial) _ _) hr
  obtain ⟨store,hs,_,hd,_⟩ := neighbor_store_laws hreach
  exact ⟨nil,hr,h1,h2,store,hs,hd⟩

end Runs

end OsmoBsc.Neighbor
