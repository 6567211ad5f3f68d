import OsmoBsc.Si.UarfcnLists
set_option autoImplicit false

namespace OsmoBsc.Si.Si2q
open EventFsm Cursor

section Decode

/-- FDD_CELL_INFORMATION of `n` cells has p(n) bits, none for more than 16 of them. -/
def fddInformation (o : Octets) (indic0 : Bool) (n pos : Nat) : List Nat :=
  if n ≤ 16 then fddCodes o indic0 n pos else if indic0 then [0] else []

/-- The FDD-ARFCN with the cells by FDD_Indic0, NR_OF_FDD_CELLS and FDD_CELL_INFORMATION. -/
def fddCell (o : Octets) (pos : Nat) : Nat × List Nat :=
  (o.field (pos + 2) 14,fddInformation o (o.bit (pos + 16)) (o.field (pos + 17) 5) (pos + 22))

/-- The repeated UTRAN FDD neighbour cells from bit `pos` on. -/
def decodeCells (o : Octets) : (fuel pos : Nat) → List (Nat × List Nat)
  | 0, _ => []
  | fuel + 1, pos =>
    if o.bit pos then fddCell o pos :: decodeCells o fuel (pos + 22 + range1024P (o.field (pos + 17) 5))
    else []

def utranCells (o : Octets) : List (Nat × List Nat) :=
  if o.bit 18 && !o.bit 19 && !o.bit 20 && o.bit 21 && !o.bit 22 then decodeCells o si2qMaxLen 23 else []

end Decode

section Groups

variable {si : SiCommon}

/-- The entries from place `st` to place `uo`, by their UARFCNs. -/
inductive Groups (si : SiCommon) : (st uo : Nat) → List (Nat × Nat) → Prop where
  | stop {st : Nat} : Groups si st st []
  | group {st i uo : Nat} {rest : List (Nat × Nat)} (hlt : st < i) (hlen : i ≤ si.uarfcnLength)
      (hsame : ∀ j, st ≤ j → j < i → si.uarfcnList j = si.uarfcnList st)
      (hend : si.uarfcnList i ≠ si.uarfcnList st) (hrest : Groups si i uo rest) :
      Groups si st uo ((st,i) :: rest)

def Carried (si : SiCommon) (group : Nat × Nat) (cell : Nat × List Nat) : Prop :=
  cell.1 = si.uarfcnList group.1 ∧ ∀ code, code ∈ cell.2 ↔ code ∈ si.codes group.1 group.2

/-- What FDD_CELL_INFORMATION has room for, as long as FDD_Indic0 stays 0. -/
def Expressible (si : SiCommon) (group : Nat × Nat) : Prop :=
  0 ∉ si.codes group.1 group.2 ∧ group.2 - group.1 ≤ 16

/-- UARFCNs of 14 bits and scrambling codes with a diversity bit, no pair twice. -/
structure SiCommon.Ranged (si : SiCommon) : Prop where
  uarfcn : ∀ p ∈ si.entries, p.1 < 2 ^ 14
  code : ∀ p ∈ si.entries, p.2 < 1024
  distinct : si.entries.Nodup

theorem SiCommon.Ranged.codes (h : si.Ranged) {st i : Nat} (hi : i ≤ si.uarfcnLength)
    (hsame : ∀ j, st ≤ j → j < i → si.uarfcnList j = si.uarfcnList st) :
    (∀ x ∈ si.codes st i, x < 1024) ∧ (si.codes st i).Nodup := by
  have hget : ∀ j < si.uarfcnLength, si.entries[j]? = some (si.uarfcnList j,si.scrambleList j) :=
    fun j hj => by rw [entries_getElem?,if_pos hj]
  rw [codes_eq]
  constructor
  · intro x hx
    obtain ⟨j,hj,rfl⟩ := List.mem_map.mp hx
    have hj := List.mem_range'_1.mp hj
    exact h.code _ (List.mem_of_getElem? (hget j (by omega)))
  · refine List.Nodup.map_on (fun j hj k hk heq => ?_) List.nodup_range'
    have hj := List.mem_range'_1.mp hj
    have hk := List.mem_range'_1.mp hk
    have hjk : si.entries[j]? = si.entries[k]? := by
      rw [hget j (by omega),hget k (by omega),heq,hsame j hj.1 (by omega),hsame k hk.1 (by omega)]
    exact (List.getElem?_inj (by rw [entries_length]; omega) h.distinct).mp hjk

end Groups

section Read

variable {si : SiCommon} {o : Octets} {pos : Nat}

theorem field_of_reads_mod (v n : Nat) (h : Reads BitValue.value o.bit pos (bitvecSetUint v n)) :
    o.field pos n = v % 2 ^ n := by
  have hbits : bitvecSetUint v n = bitvecSetUint (v % 2 ^ n) n := by
    refine List.map_congr_left fun i hi => ?_
    have hi := List.mem_range.mp hi
    rw [Nat.testBit_mod_two_pow,decide_eq_true (by omega),Bool.true_and]
  rw [hbits] at h
  exact field_of_reads (Nat.mod_lt _ (Nat.two_pow_pos n)) h

theorem fddCodes_false_pos {n code : Nat} (h : code ∈ fddCodes o false n pos) : 0 < code := by
  simp only [fddCodes,Bool.false_eq_true,if_false,List.nil_append] at h
  obtain ⟨x,-,rfl⟩ := List.mem_map.mp h
  exact Nat.succ_pos x

theorem fddCodes_false_nil : fddCodes o false 0 pos = [] := by
  simp [fddCodes,decodeTree,Octets.w]

theorem fddCell_reads {u n : Nat} {chanList : Octets} (hu : u < 2 ^ 14)
    (h : Reads BitValue.value o.bit pos (appendUtranFdd u n chanList)) :
    o.bit pos = true ∧ fddCell o pos = (u,fddInformation o false (n % 32) (pos + 22))
      ∧ o.field (pos + 17) 5 = n % 32
      ∧ Reads BitValue.value o.bit (pos + 22) ((List.range (range1024P n)).map fun i =>
        .ofBool (chanList.bit (6 + i))) := by
  simp only [appendUtranFdd,List.flatten_cons,List.flatten_nil,List.append_nil,reads_append,reads_cons,reads_nil,
    and_true,bitvecSetUint_length,List.length_cons,List.length_nil,Nat.zero_add] at h
  obtain ⟨⟨h1,-⟩,hfield,h16,hn,hcodes⟩ := h
  have h16' : o.bit (pos + 16) = false := h16
  have hn' : o.field (pos + 17) 5 = n % 32 := field_of_reads_mod n 5 hn
  refine ⟨h1,?_,hn',hcodes⟩
  rw [fddCell,h16',hn',field_of_reads hu hfield]

/-- A group is read back unless it has code 0 or more than 16 codes. -/
theorem carried_iff (hr : si.Ranged) {st i : Nat} {chanList : Octets} (hlt : st < i) (hi : i ≤ si.uarfcnLength)
    (hlen : si.uarfcnLength ≤ maxEarfcnList) (hsame : ∀ j, st ≤ j → j < i → si.uarfcnList j = si.uarfcnList st)
    (hok : f0Helper (si.codes st i) = .ok chanList)
    (h : Reads BitValue.value o.bit pos (appendUtranFdd (si.uarfcnList st) (i - st) chanList)) :
    Carried si (st,i) (fddCell o pos) ↔ Expressible si (st,i) := by
  have hmax : maxEarfcnList = 32 := rfl
  obtain ⟨hrange,hnd⟩ := hr.codes hi hsame
  have hu : si.uarfcnList st < 2 ^ 14 := hr.uarfcn _ (mem_entries.mpr ⟨st,by omega,rfl⟩)
  obtain ⟨-,hcell,-,hcodes⟩ := fddCell_reads hu h
  have hlength : (si.codes st i).length = i - st := codes_length si st i
  rw [Carried,hcell,Expressible]
  simp only
  constructor
  · rintro ⟨-,hset⟩
    refine ⟨fun h0 => ?_,?_⟩
    · have hread := (hset 0).mpr h0
      unfold fddInformation at hread
      split at hread
      · exact absurd (fddCodes_false_pos hread) (Nat.lt_irrefl 0)
      · simp at hread
    · by_contra hmany
      obtain ⟨x,hx⟩ : ∃ x, x ∈ si.codes st i := List.exists_mem_of_length_pos (by omega)
      have hread := (hset x).mpr hx
      -- 32 cells are counted as none.
      by_cases hfull : i - st = 32
      · rw [hfull,fddInformation,if_pos (by omega),show 32 % 32 = 0 from rfl,fddCodes_false_nil] at hread
        simp at hread
      · rw [Nat.mod_eq_of_lt (by omega),fddInformation,if_neg hmany] at hread
        simp at hread
  · rintro ⟨h0,hfew⟩
    refine ⟨trivial,fun code => ?_⟩
    rw [Nat.mod_eq_of_lt (by omega),fddInformation,if_pos hfew]
    rw [← hlength] at hfew hcodes ⊢
    exact (fddCodes_perm hok h0 hrange hnd hfew hcodes).mem_iff

theorem Fdds.cells {rem st uo fuel : Nat} {bits : List BitValue} (h : Fdds si rem st uo bits) (hr : si.Ranged)
    (hlen : si.uarfcnLength ≤ maxEarfcnList) (hreads : Reads BitValue.value o.bit pos (bits ++ [BitValue.zero]))
    (hfuel : bits.length < fuel) :
    ∃ groups, Groups si st uo groups
      ∧ List.Forall₂ (fun g c => Carried si g c ↔ Expressible si g) groups (decodeCells o fuel pos) := by
  induction h generalizing pos fuel with
  | stop =>
    obtain ⟨fuel,rfl⟩ : ∃ f, fuel = f + 1 := ⟨fuel - 1,by omega⟩
    have hstop : o.bit pos = false := (reads_cons.mp hreads).1
    refine ⟨[],.stop,?_⟩
    simp [decodeCells,hstop]
  | @group rem st i uo chanList bits hlt hi hsame hend hok hfits hrest ih =>
    obtain ⟨fuel,rfl⟩ : ∃ f, fuel = f + 1 := ⟨fuel - 1,by omega⟩
    have hmax : maxEarfcnList = 32 := rfl
    rw [List.append_assoc,reads_append,appendUtranFdd_length] at hreads
    obtain ⟨hgroup,hreads⟩ := hreads
    rw [List.length_append,appendUtranFdd_length] at hfuel
    have hu : si.uarfcnList st < 2 ^ 14 := hr.uarfcn _ (mem_entries.mpr ⟨st,by omega,rfl⟩)
    obtain ⟨h1,-,hn,-⟩ := fddCell_reads hu hgroup
    -- As many bits are passed over as were written, also for 32 cells.
    have hbits : range1024P (o.field (pos + 17) 5) = range1024P (i - st) := by
      rw [hn]
      by_cases hfull : i - st = 32
      · rw [hfull]
        rfl
      · rw [Nat.mod_eq_of_lt (by omega)]
    obtain ⟨groups,hgroups,hcells⟩ := @ih (pos + 22 + range1024P (i - st)) fuel
      (by rwa [show pos + 22 + range1024P (i - st) = pos + (21 + range1024P (i - st) + 1) by omega])
      (by omega)
    refine ⟨(st,i) :: groups,.group hlt hi hsame hend hgroups,?_⟩
    rw [decodeCells,if_pos h1,hbits]
    exact .cons (carried_iff hr hlt hi hlen hsame hok hgroup) hcells

theorem Utran.cells {uOffset uo : Nat} {utran rest : List BitValue} (h : Utran si uOffset uo utran)
    (hr : si.Ranged) (hlen : si.uarfcnLength ≤ maxEarfcnList)
    (hreads : Reads BitValue.value o.bit 18 (utran ++ rest)) :
    ∃ groups, Groups si uOffset uo groups
      ∧ List.Forall₂ (fun g c => Carried si g c ↔ Expressible si g) groups (utranCells o) := by
  have hle := h.length_le hlen
  cases h with
  | absent h =>
    have h18 : o.bit 18 = false := (reads_cons.mp hreads).1
    refine ⟨[],.stop,?_⟩
    simp [utranCells,h18]
  | @present uo bits h hfdds =>
    simp only [utranHead,List.append_assoc,List.cons_append,List.nil_append,reads_cons] at hreads
    obtain ⟨h18,h19,h20,h21,h22,hreads⟩ := hreads
    rw [reads_append] at hreads
    have hstop : Reads BitValue.value o.bit 23 (bits ++ [BitValue.zero]) :=
      reads_append.mpr ⟨hreads.1,reads_cons.mpr ⟨(reads_cons.mp hreads.2).1,reads_nil⟩⟩
    have hhead : utranHead.length = 5 := rfl
    simp only [List.length_append,hhead,List.length_cons,List.length_nil] at hle
    have hcheck : (o.bit 18 && !o.bit 19 && !o.bit 20 && o.bit 21 && !o.bit 22) = true := by
      rw [h18,h19,h20,h21,h22]
      rfl
    unfold utranCells
    rw [if_pos hcheck]
    exact hfdds.cells hr hlen hstop (show bits.length < 160 by omega)

end Read

section Message

variable {bts next : Si2qBts} {bv : Writer BitValue}

/-- In every message of `rest_octets_si2quater`, the description of a UARFCN gives back the
scrambling codes that are configured for it if and only if 0 is not one of them and there
are at most 16. -/
theorem fddCells_iff (hr : bts.siCommon.Ranged) (hlen : bts.siCommon.uarfcnLength ≤ maxEarfcnList)
    (hoff : bts.uOffset < 2 ^ 32) (h : restOctetsSi2quater bts = .ok (some (bv,next))) {header : List Octet}
    (hheader : header.length = 3) :
    ∃ groups, Groups bts.siCommon bts.uOffset next.uOffset groups
      ∧ List.Forall₂ (fun g c => Carried bts.siCommon g c ↔ Expressible bts.siCommon g) groups
        (utranCells (restOf (header ++ restOctets 20 bv.out))) := by
  by_cases hcount : bts.si2qCount < bts.si2qIndex
  · simp [restOctetsSi2quater,hcount] at h
  · obtain ⟨bv',heq,hmsg⟩ := restOctetsSi2quater_eq hlen hoff (Nat.le_of_not_lt hcount)
    rw [heq] at h
    cases h
    obtain ⟨utran,eutran,hutran,-,hout⟩ := hmsg.content
    have hle : bv.out.length ≤ 160 := bv.length_le_peak.trans hmsg.peak
    have hheld : Holds (restOf (header ++ restOctets 20 bv.out)) bv.out :=
      ⟨hle,fun t ht => restOf_bit hheader _ ht⟩
    generalize restOf (header ++ restOctets 20 bv.out) = o at hheld
    rw [hout] at hheld
    have hreads := (reads_append.mp hheld.reads).2
    rw [si2qHead_length,Nat.zero_add,List.append_assoc] at hreads
    exact hutran.cells hr hlen hreads

def threeCells : Si2qBts := leftover [(100,2),(100,513),(200,7)] {} 0 0 0

def si2quaterHeader : List Octet := siHeader (gsm48Len2plen 22) 0x07

theorem fddCells_iff_three : ∃ bv next groups, restOctetsSi2quater threeCells = .ok (some (bv,next))
    ∧ Groups threeCells.siCommon 0 next.uOffset groups
    ∧ List.Forall₂ (fun g c => Carried threeCells.siCommon g c ↔ Expressible threeCells.siCommon g) groups
      (utranCells (restOf (si2quaterHeader ++ restOctets 20 bv.out))) := by
  have hranged : threeCells.siCommon.Ranged := ⟨by decide,by decide,by decide⟩
  obtain ⟨bv,hrun,-⟩ := @restOctetsSi2quater_eq threeCells (by decide) (by decide) (by decide)
  obtain ⟨groups,hgroups,hcells⟩ := fddCells_iff hranged (by decide) (by decide) hrun
    (show si2quaterHeader.length = 3 from rfl)
  exact ⟨bv,_,groups,hrun,hgroups,hcells⟩

/-- Scrambling code 0 without diversity is accepted, and the message has code 1 instead. -/
theorem fddCells_indic0 : ∃ bts bv next, btsUarfcnAdd emptyBts 100 0 false = .ok (bts,.ok ())
    ∧ restOctetsSi2quater { bts with si2qIndex := 0 } = .ok (some (bv,next)) ∧ bts.siCommon.entries = [(100,0)]
    ∧ utranCells (restOf (si2quaterHeader ++ restOctets 20 bv.out)) = [(100,[1])] := by
  have h : ∃ r, btsUarfcnAdd emptyBts 100 0 false = .ok r ∧ (r.2 = .ok () ∧ r.1.siCommon.entries = [(100,0)]
      ∧ ∃ m, restOctetsSi2quater { r.1 with si2qIndex := 0 } = .ok m
        ∧ (∀ x, m = some x → utranCells (restOf (si2quaterHeader ++ restOctets 20 x.1.out)) = [(100,[1])])
        ∧ m.isSome = true) := by
    decide +kernel
  obtain ⟨⟨bts,rc⟩,hadd,rfl,hentries,m,hm,hcells,hsome⟩ := h
  obtain ⟨⟨bv,next⟩,rfl⟩ := Option.isSome_iff_exists.mp hsome
  exact ⟨bts,bv,next,hadd,hm,hentries,hcells (bv,next) rfl⟩

end Message

end OsmoBsc.Si.Si2q
