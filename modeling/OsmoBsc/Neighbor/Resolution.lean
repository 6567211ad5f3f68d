import OsmoBsc.Neighbor.Ident
set_option autoImplicit false

/-! The BTS of a neighbour key: exact and wildcard matches in one scan of the BTSs. -/

namespace OsmoBsc.Neighbor

/-- What the search reads of a BTS. No command sets a BSIC above 63. -/
structure HoBts where
  nr : Nat
  arfcn : UInt16
  bsic : UInt8
  bsic_le : bsic ≤ 0x3f
  deriving DecidableEq, Repr

def HoBts.entry (bts : HoBts) : Key := { fromBts := keyAnyBts, arfcn := bts.arfcn, bsic := bts.bsic }

/-- The loop of `bts_by_neighbor_ident`: the BTS that it returns, and whether it reports a configuration
error. -/
def scanBts (searchFor : Key) : List HoBts → Option HoBts → Option HoBts → Option HoBts × Bool
  | [],found,wildcard => (found.or wildcard,false)
  | bts :: rest,found,wildcard =>
    let wildcard := if neighborIdentKeyMatch bts.entry searchFor false then some bts else wildcard
    if neighborIdentKeyMatch bts.entry searchFor true then
      if found.isSome then (found,true) else scanBts searchFor rest (some bts) wildcard
    else scanBts searchFor rest found wildcard

def btsByNeighborIdent (net : List HoBts) (searchFor : Key) : Option HoBts × Bool :=
  scanBts searchFor net none none

/-- The key of a BTS, searched by BTS `from`, as a measurement report makes it. -/
def HoBts.keyFrom (bts : HoBts) (fromBts : Int) : Key := { fromBts := fromBts, arfcn := bts.arfcn, bsic := bts.bsic }

/-- `bts_ident_key`, which leaves the searching BTS at zero. -/
def btsIdentKey (bts : HoBts) : Key := bts.keyFrom 0

def HoBts.Alike (bts bts' : HoBts) : Prop := bts'.arfcn = bts.arfcn ∧ bts'.bsic = bts.bsic

/-- A BTS is found if no other is alike; if one is, that is reported; and the BTS that is found has the
BSIC of the key. -/
structure Resolves (net : List HoBts) (fromBts : Int) (bts : HoBts) : Prop where
  unique : (∀ bts' ∈ net, bts.Alike bts' → bts' = bts) →
    (btsByNeighborIdent net (bts.keyFrom fromBts)).1 = some bts
  reported : (∃ bts' ∈ net, bts.Alike bts' ∧ bts' ≠ bts) → (btsByNeighborIdent net (bts.keyFrom fromBts)).2 = true
  preferred : ∀ r, (btsByNeighborIdent net (bts.keyFrom fromBts)).1 = some r → r.bsic = bts.bsic

section Scan

variable {bts bts' : HoBts} {fromBts : Int}

theorem bsic_ne_any (bts : HoBts) : bts.bsic ≠ bsicAny := by
  intro h
  have hle := bts.bsic_le
  rw [h] at hle
  exact absurd hle (by decide)

theorem match_exact_iff : neighborIdentKeyMatch bts'.entry (bts.keyFrom fromBts) true = true ↔
    fromBts = keyAnyBts ∧ bts.Alike bts' := by
  rw [neighborIdentKeyMatch_exact]
  simp only [HoBts.entry,HoBts.keyFrom,Key.mk.injEq,HoBts.Alike,eq_comm]

theorem match_wildcard_iff : neighborIdentKeyMatch bts'.entry (bts.keyFrom fromBts) false = true ↔ bts.Alike bts' := by
  rw [neighborIdentKeyMatch_wildcard]
  simp only [Meets,HoBts.entry,HoBts.keyFrom,true_or,true_and,bsic_ne_any,false_or,HoBts.Alike]

theorem scanBts_from (hfrom : fromBts ≠ keyAnyBts) (net : List HoBts) (wildcard : Option HoBts) :
    (scanBts (bts.keyFrom fromBts) net none wildcard).2 = false
      ∧ ((∃ r ∈ net, bts.Alike r ∧ (scanBts (bts.keyFrom fromBts) net none wildcard).1 = some r)
        ∨ (∀ r ∈ net, ¬ bts.Alike r) ∧ (scanBts (bts.keyFrom fromBts) net none wildcard).1 = wildcard) := by
  induction net generalizing wildcard with
  | nil => exact ⟨rfl,.inr ⟨List.forall_mem_nil _,rfl⟩⟩
  | cons x net ih =>
    have hexact : ¬ neighborIdentKeyMatch x.entry (bts.keyFrom fromBts) true = true :=
      fun h => hfrom (match_exact_iff.mp h).1
    rw [scanBts,if_neg hexact]
    obtain ⟨herror,hfound⟩ := ih (if neighborIdentKeyMatch x.entry (bts.keyFrom fromBts) false then some x else wildcard)
    refine ⟨herror,?_⟩
    rcases hfound with ⟨r,hr,halike,heq⟩ | ⟨hnone,heq⟩
    · exact .inl ⟨r,List.mem_cons_of_mem x hr,halike,heq⟩
    · by_cases hx : bts.Alike x
      · exact .inl ⟨x,List.mem_cons_self,hx,heq.trans (if_pos (match_wildcard_iff.mpr hx))⟩
      · exact .inr ⟨List.forall_mem_cons.mpr ⟨hx,hnone⟩,heq.trans (if_neg fun h => hx (match_wildcard_iff.mp h))⟩

theorem scanBts_found (net : List HoBts) (found : HoBts) (wildcard : Option HoBts) :
    (scanBts (bts.keyFrom keyAnyBts) net (some found) wildcard).1 = some found
      ∧ ((scanBts (bts.keyFrom keyAnyBts) net (some found) wildcard).2 = true ↔ ∃ r ∈ net, bts.Alike r) := by
  induction net generalizing wildcard with
  | nil => exact ⟨rfl,iff_of_false Bool.false_ne_true (by rintro ⟨r,hr,-⟩; cases hr)⟩
  | cons x net ih =>
    rw [scanBts]
    by_cases hx : bts.Alike x
    · rw [if_pos (match_exact_iff.mpr ⟨rfl,hx⟩)]
      exact ⟨rfl,iff_of_true rfl ⟨x,List.mem_cons_self,hx⟩⟩
    · rw [if_neg (fun h => hx (match_exact_iff.mp h).2)]
      obtain ⟨hsame,hiff⟩ := ih (if neighborIdentKeyMatch x.entry (bts.keyFrom keyAnyBts) false then some x else wildcard)
      refine ⟨hsame,hiff.trans ⟨fun ⟨r,hr,halike⟩ => ⟨r,List.mem_cons_of_mem x hr,halike⟩,fun ⟨r,hr,halike⟩ => ?_⟩⟩
      rcases List.mem_cons.mp hr with rfl | hr
      · exact absurd halike hx
      · exact ⟨r,hr,halike⟩

/-- A key for any BTS finds the first BTS that is alike, and an error is reported for a second one. -/
theorem scanBts_any {net : List HoBts} (hnodup : net.Nodup) (wildcard : Option HoBts) (h : ∃ r ∈ net, bts.Alike r) :
    ∃ r ∈ net, bts.Alike r ∧ (scanBts (bts.keyFrom keyAnyBts) net none wildcard).1 = some r
      ∧ ((scanBts (bts.keyFrom keyAnyBts) net none wildcard).2 = true ↔ ∃ r' ∈ net, bts.Alike r' ∧ r' ≠ r) := by
  induction net generalizing wildcard with
  | nil =>
    obtain ⟨r,hr,-⟩ := h
    cases hr
  | cons x net ih =>
    obtain ⟨hfresh,hnodup⟩ := List.nodup_cons.mp hnodup
    rw [scanBts]
    by_cases hx : bts.Alike x
    · rw [if_pos (match_exact_iff.mpr ⟨rfl,hx⟩),Option.isSome_none,if_neg Bool.false_ne_true]
      obtain ⟨hsame,hiff⟩ := @scanBts_found bts net x
        (if neighborIdentKeyMatch x.entry (bts.keyFrom keyAnyBts) false then some x else wildcard)
      refine ⟨x,List.mem_cons_self,hx,hsame,hiff.trans ⟨fun ⟨r,hr,halike⟩ => ?_,fun ⟨r,hr,halike,hne⟩ => ?_⟩⟩
      · exact ⟨r,List.mem_cons_of_mem x hr,halike,fun he => hfresh (he ▸ hr)⟩
      · rcases List.mem_cons.mp hr with rfl | hr
        · exact absurd rfl hne
        · exact ⟨r,hr,halike⟩
    · rw [if_neg (fun h => hx (match_exact_iff.mp h).2)]
      have hrest : ∃ r ∈ net, bts.Alike r := by
        obtain ⟨r,hr,halike⟩ := h
        rcases List.mem_cons.mp hr with rfl | hr
        · exact absurd halike hx
        · exact ⟨r,hr,halike⟩
      obtain ⟨r,hr,halike,hsame,hiff⟩ := ih hnodup
        (if neighborIdentKeyMatch x.entry (bts.keyFrom keyAnyBts) false then some x else wildcard) hrest
      refine ⟨r,List.mem_cons_of_mem x hr,halike,hsame,hiff.trans ⟨fun ⟨r',hr',h'⟩ => ?_,fun ⟨r',hr',h',hne⟩ => ?_⟩⟩
      · exact ⟨r',List.mem_cons_of_mem x hr',h'⟩
      · rcases List.mem_cons.mp hr' with rfl | hr'
        · exact absurd h' hx
        · exact ⟨r',hr',h',hne⟩

end Scan

/-- The resolution is right if and only if the key names no searching BTS, or no two BTSs are alike. -/
theorem resolves_iff (net : List HoBts) (hnodup : net.Nodup) (fromBts : Int) (bts : HoBts) (hmem : bts ∈ net) :
    Resolves net fromBts bts ↔ fromBts = keyAnyBts ∨ ∀ bts' ∈ net, bts.Alike bts' → bts' = bts := by
  have hself : bts.Alike bts := ⟨rfl,rfl⟩
  by_cases hfrom : fromBts = keyAnyBts
  · subst hfrom
    obtain ⟨r,hr,halike,hsame,hiff⟩ := scanBts_any hnodup none ⟨bts,hmem,hself⟩
    refine iff_of_true ⟨fun hunique => ?_,fun ⟨bts',hmem',halike',hne⟩ => ?_,fun r' hr' => ?_⟩ (.inl rfl)
    · exact hsame.trans (congrArg some (hunique r hr halike))
    · refine hiff.mpr ?_
      by_cases hrb : r = bts
      · exact ⟨bts',hmem',halike',fun he => hne (he.trans hrb)⟩
      · exact ⟨bts,hmem,hself,Ne.symm hrb⟩
    · cases hsame.symm.trans hr'
      exact halike.2
  · obtain ⟨herror,hfound⟩ := scanBts_from hfrom net none
    obtain ⟨r,hr,halike,hsame⟩ := hfound.resolve_right fun hnone => hnone.1 bts hmem hself
    rw [or_iff_right hfrom]
    refine ⟨fun hres bts' hmem' halike' => ?_,fun hunique => ⟨fun _ => ?_,fun ⟨bts',hmem',halike',hne⟩ => ?_,?_⟩⟩
    · by_contra hne
      exact Bool.false_ne_true (herror.symm.trans (hres.reported ⟨bts',hmem',halike',hne⟩))
    · exact hsame.trans (congrArg some (hunique r hr halike))
    · exact absurd (hunique bts' hmem' halike') hne
    · intro r' hr'
      cases hsame.symm.trans hr'
      exact halike.2

def bts871 (nr : Nat) : HoBts := { nr := nr, arfcn := 871, bsic := 63, bsic_le := by decide }

def bts872 : HoBts := { nr := 2, arfcn := 872, bsic := 63, bsic_le := by decide }

theorem resolves_871 : Resolves [bts871 0,bts872] 2 (bts871 0) :=
  (resolves_iff [bts871 0,bts872] (by decide) 2 (bts871 0) (by decide)).mpr (.inr (by
    intro bts' hmem halike
    rcases List.mem_cons.mp hmem with rfl | hmem
    · rfl
    · obtain rfl := List.mem_singleton.mp hmem
      exact absurd halike.1 (by decide)))

/-- Two BTSs are alike, and the search finds the second one without an error. -/
theorem not_resolves_alike : ¬ Resolves [bts871 0,bts871 1,bts872] 2 (bts871 0) := by
  intro h
  have herror := h.reported ⟨bts871 1,by decide,⟨rfl,rfl⟩,by decide⟩
  revert herror
  decide

end OsmoBsc.Neighbor
