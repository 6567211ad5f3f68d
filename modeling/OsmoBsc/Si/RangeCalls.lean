import OsmoBsc.Si.RangeTree
import Mathlib.Data.List.Perm.Subperm
set_option autoImplicit false

namespace OsmoBsc.Si

/-- A call of `range_enc_arfcns` with ARFCNs to encode. -/
structure RangeCall where
  range : Nat
  arfcns : List Nat
  index : Nat

namespace RangeCall

/-- The index at which `_range_enc_arfcns` splits the list. -/
def splitAt (c : RangeCall) : Option Nat := rangeEncFindIndex c.range c.arfcns

def left (c : RangeCall) (splitAt : Nat) : List Nat :=
  rangeEncSide c.range c.arfcns (mod (c.arfcns.getD splitAt 0 + (c.range - 1) / 2 + 1 : Nat) c.range)

def right (c : RangeCall) (splitAt : Nat) : List Nat :=
  rangeEncSide c.range c.arfcns (mod (c.arfcns.getD splitAt 0 + 1 : Nat) c.range)

/-- What the call itself writes to `out`, and where. -/
def write (c : RangeCall) : Option (Nat × Nat) :=
  match c.arfcns with
  | [] => none
  | [a] => some (c.index,1 + a)
  | arfcns =>
    if c.range = 0 then none
    else c.splitAt.map fun splitAt => (c.index,1 + arfcns.getD splitAt 0)

/-- The call and those below it return 0; where it splits its list, an index is found and
both halves fit into their arrays. -/
structure Good (c : RangeCall) : Prop where
  returns : ∀ out, (rangeEncArfcns c.range c.arfcns out c.index).2 = .ok ()
  splits : 2 ≤ c.arfcns.length → ∃ i < c.arfcns.length, c.splitAt = some i
    ∧ (c.left i).length ≤ c.arfcns.length / 2 ∧ (c.right i).length ≤ c.arfcns.length / 2

end RangeCall

/-- A call of `range_enc_arfcns` and all calls below it, in the order in which they are made. -/
def rangeEncCalls (range : Nat) (arfcns : List Nat) (index : Nat) : List RangeCall :=
  match arfcns with
  | [] => []
  | [a] => [⟨range,[a],index⟩]
  | arfcns =>
    let c : RangeCall := ⟨range,arfcns,index⟩
    if _h : range = 0 then [c]
    else match c.splitAt with
      | none => [c]
      | some splitAt =>
        let power := greatestPowerOf2LesserOrEqualTo (index + 1)
        c :: rangeEncCalls (range / 2) (c.left splitAt) (index + power)
          ++ rangeEncCalls ((range - 1) / 2) (c.right splitAt) (index + 2 * power)
  termination_by range
  decreasing_by all_goals omega

/-- The elements of `out` that are written, in their order. -/
def rangeEncWrites (range : Nat) (arfcns : List Nat) (index : Nat) : List (Nat × Nat) :=
  (rangeEncCalls range arfcns index).filterMap RangeCall.write

def IntArray.writeAll (out : IntArray) (writes : List (Nat × Nat)) : IntArray :=
  writes.foldl (fun out w => Function.update out w.1 w.2) out

section Writes

variable {out out' : IntArray} {writes writes' : List (Nat × Nat)} {i : Nat}

theorem IntArray.writeAll_append : out.writeAll (writes ++ writes') = (out.writeAll writes).writeAll writes' :=
  List.foldl_append

theorem IntArray.writeAll_of_notMem (h : i ∉ writes.map Prod.fst) : out.writeAll writes i = out i := by
  induction writes generalizing out with
  | nil => rfl
  | cons w writes ih =>
    simp only [List.map_cons,List.mem_cons,not_or] at h
    exact (ih h.2).trans (Function.update_of_ne h.1 _ _)

theorem IntArray.writeAll_of_mem (h : i ∈ writes.map Prod.fst) : out.writeAll writes i = out'.writeAll writes i := by
  induction writes generalizing out out' with
  | nil => cases h
  | cons w writes ih =>
    by_cases hlater : i ∈ writes.map Prod.fst
    · exact ih hlater
    · have hi : i = w.1 := by simpa [hlater] using h
      refine (writeAll_of_notMem hlater).trans (Eq.trans ?_ (writeAll_of_notMem hlater).symm)
      dsimp only
      rw [hi,Function.update_self,Function.update_self]

end Writes

section Calls

variable {range index i power : Nat} {L : List Nat}

theorem rangeEncCalls_split (hlen : 2 ≤ L.length) (hr : range ≠ 0) (hfind : rangeEncFindIndex range L = some i)
    (hpower : greatestPowerOf2LesserOrEqualTo (index + 1) = power) :
    rangeEncCalls range L index = ⟨range,L,index⟩
      :: (rangeEncCalls (range / 2) (RangeCall.left ⟨range,L,index⟩ i) (index + power)
        ++ rangeEncCalls ((range - 1) / 2) (RangeCall.right ⟨range,L,index⟩ i) (index + 2 * power)) := by
  have hsplit : RangeCall.splitAt ⟨range,L,index⟩ = some i := hfind
  rw [rangeEncCalls.eq_3,dif_neg hr,hsplit]
  · simp only [hpower,List.cons_append]
  · rintro rfl
    simp at hlen
  · rintro a rfl
    simp at hlen

theorem rangeEncCalls_stuck (hlen : 2 ≤ L.length) (h : range = 0 ∨ rangeEncFindIndex range L = none) :
    rangeEncCalls range L index = [⟨range,L,index⟩] := by
  rw [rangeEncCalls.eq_3]
  · rcases h with hr | hfind
    · rw [dif_pos hr]
    · have hsplit : RangeCall.splitAt ⟨range,L,index⟩ = none := hfind
      simp only [hsplit,dite_eq_ite,ite_self]
  · rintro rfl
    simp at hlen
  · rintro a rfl
    simp at hlen

theorem rangeEncArfcns_stuck (out : IntArray) (hlen : 2 ≤ L.length)
    (h : range = 0 ∨ rangeEncFindIndex range L = none) : (rangeEncArfcns range L out index).1 = out := by
  rw [rangeEncArfcns.eq_3]
  · rcases h with hr | hfind
    · rw [dif_pos hr]
    · rw [hfind]
      split <;> rfl
  · rintro rfl
    simp at hlen
  · rintro a rfl
    simp at hlen

theorem RangeCall.write_split (hlen : 2 ≤ L.length) :
    RangeCall.write ⟨range,L,index⟩ = if range = 0 then none
      else (rangeEncFindIndex range L).map fun i => (index,1 + L.getD i 0) := by
  match L with
  | [] | [a] => simp at hlen
  | a :: b :: L => rfl

theorem rangeEncWrites_split (hlen : 2 ≤ L.length) (hr : range ≠ 0) (hfind : rangeEncFindIndex range L = some i)
    (hpower : greatestPowerOf2LesserOrEqualTo (index + 1) = power) :
    rangeEncWrites range L index = (index,1 + L.getD i 0)
      :: (rangeEncWrites (range / 2) (RangeCall.left ⟨range,L,index⟩ i) (index + power)
        ++ rangeEncWrites ((range - 1) / 2) (RangeCall.right ⟨range,L,index⟩ i) (index + 2 * power)) := by
  unfold rangeEncWrites
  rw [rangeEncCalls_split hlen hr hfind hpower,List.filterMap_cons,RangeCall.write_split hlen,if_neg hr,hfind,
    Option.map_some,List.filterMap_append]

theorem rangeEncWrites_stuck (hlen : 2 ≤ L.length) (h : range = 0 ∨ rangeEncFindIndex range L = none) :
    rangeEncWrites range L index = [] := by
  rw [rangeEncWrites,rangeEncCalls_stuck hlen h,List.filterMap_cons,RangeCall.write_split hlen]
  rcases h with hr | hfind
  · rw [if_pos hr]
    rfl
  · rw [hfind,Option.map_none,ite_self]
    rfl

theorem rangeEncWrites_nil : rangeEncWrites range [] index = [] := by
  unfold rangeEncWrites rangeEncCalls
  rfl

theorem rangeEncWrites_single (a : Nat) : rangeEncWrites range [a] index = [(index,1 + a)] := by
  unfold rangeEncWrites rangeEncCalls
  rfl

theorem rangeEncArfcns_writeAll (range : Nat) (arfcns : List Nat) (out : IntArray) (index : Nat) :
    (rangeEncArfcns range arfcns out index).1 = out.writeAll (rangeEncWrites range arfcns index) := by
  induction range using Nat.strongRecOn generalizing arfcns out index with
  | ind range ih =>
    match arfcns with
    | [] =>
      rw [rangeEncWrites_nil]
      unfold rangeEncArfcns
      rfl
    | [a] =>
      rw [rangeEncWrites_single]
      unfold rangeEncArfcns
      rfl
    | a :: b :: tail =>
      generalize hM : a :: b :: tail = M
      have hlen : 2 ≤ M.length := by simp [← hM]
      by_cases hstuck : range = 0 ∨ rangeEncFindIndex range M = none
      · rw [rangeEncArfcns_stuck out hlen hstuck,rangeEncWrites_stuck hlen hstuck]
        rfl
      · obtain ⟨hr,hfind⟩ := not_or.mp hstuck
        obtain ⟨i,hfind⟩ := Option.ne_none_iff_exists'.mp hfind
        rw [rangeEncArfcns_split out hlen hr hfind rfl rfl]
        dsimp only
        rw [ih _ (by omega),ih _ (by omega),rangeEncWrites_split hlen hr hfind rfl]
        exact (IntArray.writeAll_append).symm

end Calls

section Total

variable {bits o l i p : Nat} {L left right : List Nat}

theorem Split.left_call (h : Split bits L i p left right) (index : Nat) :
    RangeCall.left ⟨2 ^ (bits+1) - 1,L,index⟩ i = left := by
  rw [RangeCall.left,h.pivot]
  dsimp only
  rw [half_right,h.left_eq]

theorem Split.right_call (h : Split bits L i p left right) (index : Nat) :
    RangeCall.right ⟨2 ^ (bits+1) - 1,L,index⟩ i = right := by
  rw [RangeCall.right,h.pivot]
  exact h.right_eq

theorem Split.rangeEncCalls_eq (h : Split bits L i p left right) (ho : o < 2 ^ l) :
    rangeEncCalls (2 ^ (bits+1) - 1) L (o + 2 ^ l - 1) = ⟨2 ^ (bits+1) - 1,L,o + 2 ^ l - 1⟩
      :: (rangeEncCalls (2 ^ bits - 1) left (o + 2 ^ (l+1) - 1)
        ++ rangeEncCalls (2 ^ bits - 1) right (o + 2 ^ l + 2 ^ (l+1) - 1)) := by
  rw [rangeEncCalls_split h.two_le h.range_pos h.found (greatestPower_index ho),h.left_call,h.right_call,
    half_left,half_right,left_index,right_index]

theorem Split.rangeEncWrites_eq (h : Split bits L i p left right) (ho : o < 2 ^ l) :
    rangeEncWrites (2 ^ (bits+1) - 1) L (o + 2 ^ l - 1) = (o + 2 ^ l - 1,1 + p)
      :: (rangeEncWrites (2 ^ bits - 1) left (o + 2 ^ (l+1) - 1)
        ++ rangeEncWrites (2 ^ bits - 1) right (o + 2 ^ l + 2 ^ (l+1) - 1)) := by
  rw [rangeEncWrites_split h.two_le h.range_pos h.found (greatestPower_index ho),h.left_call,h.right_call,
    half_left,half_right,left_index,right_index,h.pivot]

theorem Split.lt_length (h : Split bits L i p left right) : i < L.length := by
  obtain ⟨hi,-⟩ := List.findIdx?_eq_some_iff_getElem.mp h.found
  exact hi

theorem rangeEncCalls_good (bits : Nat) (ho : o < 2 ^ l) (hnd : L.Nodup) (hL : ∀ a ∈ L, a < 2 ^ bits - 1) :
    ∀ c ∈ rangeEncCalls (2 ^ bits - 1) L (o + 2 ^ l - 1), c.Good := by
  refine rangeTree_induct (P := fun bits o l L => ∀ c ∈ rangeEncCalls (2 ^ bits - 1) L (o + 2 ^ l - 1), c.Good)
    (fun bits o l => ?_) (fun bits o l a ho ha => ?_)
    (fun bits o l L i p left right ho hnd hL hs ihl ihr => ?_) bits ho hnd hL
  · unfold rangeEncCalls
    simp
  · unfold rangeEncCalls
    intro c hc
    cases List.mem_singleton.mp hc
    refine ⟨fun out => ?_,fun h => ?_⟩
    · unfold rangeEncArfcns
      rfl
    · simp at h
  · intro c hc
    rw [hs.rangeEncCalls_eq ho,List.mem_cons,List.mem_append] at hc
    rcases hc with rfl | hc | hc
    · refine ⟨fun out => (rangeEncArfcns_encodes (bits+1) out ho hnd hL).1,fun _ => ?_⟩
      refine ⟨i,hs.lt_length,hs.found,?_,?_⟩
      · rw [hs.left_call]
        exact hs.left_length.le
      · have := hs.right_length
        rw [hs.right_call]
        dsimp only
        omega
    · exact ihl c hc
    · exact ihr c hc

theorem rangeEncWrites_nodes (bits : Nat) (ho : o < 2 ^ l) (hnd : L.Nodup) (hL : ∀ a ∈ L, a < 2 ^ bits - 1) :
    ((rangeEncWrites (2 ^ bits - 1) L (o + 2 ^ l - 1)).map Prod.fst).Nodup
      ∧ ∀ j, j ∈ (rangeEncWrites (2 ^ bits - 1) L (o + 2 ^ l - 1)).map Prod.fst
        ↔ ∃ m, 1 ≤ m ∧ m ≤ L.length ∧ j + 1 = o + 2 ^ l * m := by
  refine rangeTree_induct (P := fun bits o l L =>
      ((rangeEncWrites (2 ^ bits - 1) L (o + 2 ^ l - 1)).map Prod.fst).Nodup
      ∧ ∀ j, j ∈ (rangeEncWrites (2 ^ bits - 1) L (o + 2 ^ l - 1)).map Prod.fst
        ↔ ∃ m, 1 ≤ m ∧ m ≤ L.length ∧ j + 1 = o + 2 ^ l * m)
    (fun bits o l => ?_) (fun bits o l a ho ha => ?_)
    (fun bits o l L i p left right ho hnd hL hs ihl ihr => ?_) bits ho hnd hL
  · rw [rangeEncWrites_nil]
    simp
  · have hpow := Nat.two_pow_pos l
    rw [rangeEncWrites_single,List.map_singleton]
    refine ⟨List.nodup_singleton _,fun j => ?_⟩
    rw [List.mem_singleton,List.length_singleton]
    constructor
    · rintro rfl
      exact ⟨1,by omega,by omega,by omega⟩
    · rintro ⟨m,h1,h2,hj⟩
      obtain rfl : m = 1 := by omega
      omega
  · have hpow := Nat.two_pow_pos l
    rw [hs.rangeEncWrites_eq ho,List.map_cons,List.map_append]
    have hll := hs.left_length
    have hlr := hs.right_length
    have hlen := hs.two_le
    -- the root has number 1, the left nodes have the even numbers and the right ones the odd ones
    have hleft : ∀ j, j ∈ (rangeEncWrites (2 ^ bits - 1) left (o + 2 ^ (l+1) - 1)).map Prod.fst
        ↔ ∃ m, 1 ≤ m ∧ 2 * m ≤ L.length ∧ j + 1 = o + 2 ^ l * (2 * m) := by
      intro j
      rw [ihl.2]
      simp only [left_node]
      constructor
      · rintro ⟨m,h1,h2,hj⟩
        exact ⟨m,h1,by omega,hj⟩
      · rintro ⟨m,h1,h2,hj⟩
        exact ⟨m,h1,by omega,hj⟩
    have hright : ∀ j, j ∈ (rangeEncWrites (2 ^ bits - 1) right (o + 2 ^ l + 2 ^ (l+1) - 1)).map Prod.fst
        ↔ ∃ m, 1 ≤ m ∧ 2 * m + 1 ≤ L.length ∧ j + 1 = o + 2 ^ l * (2 * m + 1) := by
      intro j
      rw [ihr.2]
      simp only [right_node]
      constructor
      · rintro ⟨m,h1,h2,hj⟩
        exact ⟨m,h1,by omega,hj⟩
      · rintro ⟨m,h1,h2,hj⟩
        exact ⟨m,h1,by omega,hj⟩
    refine ⟨List.nodup_cons.mpr ⟨?_,List.nodup_append'.mpr ⟨ihl.1,ihr.1,?_⟩⟩,fun j => ?_⟩
    · rw [List.mem_append,hleft,hright]
      rintro (⟨m,h1,-,hj⟩ | ⟨m,h1,-,hj⟩)
      · have := @node_inj o l 1 (2 * m) (by omega)
        omega
      · have := @node_inj o l 1 (2 * m + 1) (by omega)
        omega
    · intro j hjl hjr
      obtain ⟨m,-,-,hj⟩ := (hleft j).mp hjl
      obtain ⟨m',-,-,hj'⟩ := (hright j).mp hjr
      have := node_inj (hj.symm.trans hj')
      omega
    · rw [List.mem_cons,List.mem_append,hleft,hright]
      constructor
      · rintro (rfl | ⟨m,h1,h2,hj⟩ | ⟨m,h1,h2,hj⟩)
        · exact ⟨1,by omega,by omega,by omega⟩
        · exact ⟨2 * m,by omega,h2,hj⟩
        · exact ⟨2 * m + 1,by omega,h2,hj⟩
      · rintro ⟨m,h1,h2,hj⟩
        rcases Nat.even_or_odd' m with ⟨m',rfl | rfl⟩
        · exact .inr (.inl ⟨m',by omega,h2,hj⟩)
        · by_cases hm' : m' = 0
          · subst hm'
            exact .inl (by omega)
          · exact .inr (.inr ⟨m',by omega,h2,hj⟩)

/-- What `range_enc_arfcns` makes of the array `w` for the list `L` and a range of
`2 ^ bits - 1`. -/
structure EncodesTree (bits : Nat) (L : List Nat) (w w' : IntArray) : Prop where
  calls : ∀ c ∈ rangeEncCalls (2 ^ bits - 1) L 0, c.Good
  writes : w' = w.writeAll (rangeEncWrites (2 ^ bits - 1) L 0)
  once : ((rangeEncWrites (2 ^ bits - 1) L 0).map Prod.fst).Perm (List.range L.length)
  value : ∀ i < L.length, 1 ≤ w' i ∧ w' i ≤ 2 ^ (bits - (i+1).log2) - 1
  decode : (decodeTree (fun k => if k ≤ L.length then w' (k-1) else 0) bits 1).Perm L

theorem rangeEncWrites_perm (bits : Nat) (hnd : L.Nodup) (hL : ∀ a ∈ L, a < 2 ^ bits - 1) :
    ((rangeEncWrites (2 ^ bits - 1) L 0).map Prod.fst).Perm (List.range L.length) := by
  obtain ⟨hnodup,hmem⟩ := rangeEncWrites_nodes bits (show 0 < 2 ^ 0 by omega) hnd hL
  refine (List.perm_ext_iff_of_nodup hnodup List.nodup_range).mpr fun j => ?_
  rw [List.mem_range]
  refine (hmem j).trans ⟨fun ⟨m,h1,h2,hj⟩ => by omega,fun hj => ⟨j+1,by omega,by omega,by omega⟩⟩

/-- A list without duplicates becomes a tree that is read back as the list, whatever the
array held before. -/
theorem rangeEncArfcns_total (bits : Nat) (L : List Nat) (w : IntArray) (hnd : L.Nodup)
    (hL : ∀ a ∈ L, a < 2 ^ bits - 1) : (rangeEncArfcns (2 ^ bits - 1) L w 0).2 = .ok ()
      ∧ EncodesTree bits L w (rangeEncArfcns (2 ^ bits - 1) L w 0).1 := by
  have ho : 0 < 2 ^ 0 := by omega
  have hperm := rangeEncWrites_perm bits hnd hL
  have henc := fun w => rangeEncArfcns_encodes bits (o := 0) (l := 0) w ho hnd hL
  refine ⟨(henc w).1,rangeEncCalls_good bits ho hnd hL,rangeEncArfcns_writeAll _ L w 0,hperm,fun i hi => ?_,?_⟩
  · have hv := (henc w).2.value (i+1) (by omega) (by omega)
    simp only [pow_zero,Nat.one_mul,Nat.zero_add,Nat.add_sub_cancel,Nat.sub_self] at hv
    omega
  · -- the same tree in an array of nulls, which ends behind its last node
    have hnull := (henc fun _ => 0).2
    have hread : ∀ k, 1 ≤ k → (if k ≤ L.length then (rangeEncArfcns (2 ^ bits - 1) L w 0).1 (k-1) else 0)
        = (rangeEncArfcns (2 ^ bits - 1) L (fun _ => 0) 0).1 (k-1) := by
      intro k hk
      by_cases hkL : k ≤ L.length
      · rw [if_pos hkL,rangeEncArfcns_writeAll,rangeEncArfcns_writeAll]
        exact IntArray.writeAll_of_mem (hperm.mem_iff.mpr (List.mem_range.mpr (by omega)))
      · rw [if_neg hkL]
        exact (hnull.frame _ (by omega)).symm
    have hcongr : decodeTree (fun k =>
          if k ≤ L.length then (rangeEncArfcns (2 ^ bits - 1) L w 0).1 (k-1) else 0) bits (0 + 2 ^ 0)
        = decodeTree (fun k => (rangeEncArfcns (2 ^ bits - 1) L (fun _ => 0) 0).1 (k-1)) bits (0 + 2 ^ 0) :=
      decodeTree_congr bits ho fun m hm => hread _ (by omega)
    have hle : (decodeTree (fun k => if k ≤ L.length then (rangeEncArfcns (2 ^ bits - 1) L w 0).1 (k-1) else 0)
        bits (0 + 2 ^ 0)).length ≤ L.length :=
      decodeTree_length_le bits ho fun m hm => if_neg (by omega)
    have hsub : L ⊆ decodeTree (fun k => if k ≤ L.length then (rangeEncArfcns (2 ^ bits - 1) L w 0).1 (k-1)
        else 0) bits (0 + 2 ^ 0) := by
      intro a ha
      rw [hcongr]
      exact (hnull.decode (fun _ _ => rfl) a).mpr ha
    exact ((hnd.subperm hsub).perm_of_length_le hle).symm

theorem rangeEncArfcns_total_five : (rangeEncArfcns (2 ^ 4 - 1) [3,14,0,7,12] (fun _ => 0) 0).2 = .ok ()
    ∧ EncodesTree 4 [3,14,0,7,12] (fun _ => 0) (rangeEncArfcns (2 ^ 4 - 1) [3,14,0,7,12] (fun _ => 0) 0).1 :=
  rangeEncArfcns_total 4 [3,14,0,7,12] (fun _ => 0) (by decide) (by decide)

end Total

end OsmoBsc.Si
