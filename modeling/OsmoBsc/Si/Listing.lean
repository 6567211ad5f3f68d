import OsmoBsc.Si.Budget
import OsmoBsc.Si.Noninterference
set_option autoImplicit false

namespace OsmoBsc.Si.Si2q
open EventFsm Cursor

section Decode

/-- The scrambling codes of NR_OF_FDD_CELLS cells, with their diversity bits, by the rule
of TS 44.018 for FDD_CELL_INFORMATION. -/
def fddCodes (o : Octets) (indic0 : Bool) (n pos : Nat) : List Nat :=
  (if indic0 then [0] else []) ++ (decodeTree (o.w pos n 10) 10 1).map (· + 1)

/-- The repeated UTRAN FDD neighbour cells from bit `pos` on, and where they end. -/
def decodeFdds (o : Octets) : (fuel pos : Nat) → List (Nat × Nat) × Nat
  | 0, pos => ([],pos)
  | fuel + 1, pos =>
    if o.bit pos then
      let uarfcn := o.field (pos + 2) 14
      let n := o.field (pos + 17) 5
      let next := decodeFdds o fuel (pos + 22 + range1024P n)
      ((fddCodes o (o.bit (pos + 16)) n (pos + 22)).map (fun code => (uarfcn,code)) ++ next.1,next.2)
    else ([],pos + 1)

/-- The 3G neighbour cells of the rest octets, with nothing but an FDD description, and
where the additions in Rel-5 are. -/
def decodeUtran (o : Octets) : List (Nat × Nat) × Nat :=
  if o.bit 18 && !o.bit 19 && !o.bit 20 && o.bit 21 && !o.bit 22 then
    let fdds := decodeFdds o si2qMaxLen 23
    (fdds.1,fdds.2 + 3)
  else ([],21)

/-- The EARFCNs of the repeated E-UTRAN neighbour cells from bit `pos` on. -/
def decodeEarfcns (o : Octets) : (fuel pos : Nat) → List Earfcn
  | 0, _ => []
  | fuel + 1, pos =>
    if o.bit pos then
      if o.bit (pos + 17) then
        ⟨o.field (pos + 1) 16,some (o.field (pos + 18) 3)⟩ :: decodeEarfcns o fuel (pos + 21)
      else ⟨o.field (pos + 1) 16,none⟩ :: decodeEarfcns o fuel (pos + 18)
    else []

/-- The E-UTRAN neighbour cells, behind the flags of the additions up to Rel-8. -/
def decodeEutran (o : Octets) : List Earfcn :=
  let pos := (decodeUtran o).2
  if (List.range 19).all fun i => o.bit (pos + i) == (eutranHead.getD i .l).value (pos + i) then
    decodeEarfcns o si2qMaxLen (pos + 19)
  else []

def restOf (message : List Octet) : Octets := fun i => message.getD (3 + i) gsmMacblockPadding

/-- The scrambling codes and UARFCNs in messages 0 to `si2q_count`. -/
def Si2qBts.listedFdds (bts : Si2qBts) : List (Nat × Nat) :=
  (List.range (bts.si2qCount + 1)).flatMap fun i => (decodeUtran (restOf (bts.siBuf i))).1

/-- The EARFCNs in messages 0 to `si2q_count`. -/
def Si2qBts.listedEarfcns (bts : Si2qBts) : List Earfcn :=
  (List.range (bts.si2qCount + 1)).flatMap fun i => decodeEutran (restOf (bts.siBuf i))

end Decode

section Read

variable {o : Octets} {pos : Nat}

theorem restOf_bit {header : List Octet} (hheader : header.length = 3) (bits : List BitValue) {t : Nat}
    (ht : t < 160) :
    (restOf (header ++ restOctets 20 bits)).bit t = (bits.getD t .l).value t := by
  have hget : restOf (header ++ restOctets 20 bits) (t / 8)
      = octetOf fun i => (bits.getD (8 * (t / 8) + i) .l).value (8 * (t / 8) + i) := by
    unfold restOf
    rw [List.getD_eq_getElem?_getD,List.getElem?_append_right (by omega),hheader,Nat.add_sub_cancel_left]
    simp [restOctets,show t / 8 < 20 by omega]
  rw [Octets.bit,hget,octetOf_bit _ (by omega),show 8 * (t / 8) + t % 8 = t by omega]

@[simp] theorem value_ofBool (b : Bool) : (BitValue.ofBool b).value pos = b := by
  cases b <;> rfl

theorem field_of_reads {v n : Nat} (hv : v < 2 ^ n)
    (h : Reads BitValue.value o.bit pos (bitvecSetUint v n)) : o.field pos n = v := by
  refine Octets.field_eq hv fun t ht => ?_
  rw [h t (.ofBool (v.testBit (n - 1 - t))) (by simp [bitvecSetUint,ht]),value_ofBool]

theorem range1024P_eq {n : Nat} (h : n ≤ 16) : range1024P n = wPos 10 n := by
  have hall : ∀ n < 17, range1024P n = wPos 10 n := by decide +kernel
  exact hall n (by omega)

theorem fddCodes_perm {L : List Nat} {chanList : Octets} (hok : f0Helper L = .ok chanList) (h0 : 0 ∉ L)
    (hlt : ∀ x ∈ L, x < 1024) (hnd : L.Nodup) (hlen : L.length ≤ 16)
    (h : Reads BitValue.value o.bit pos ((List.range (range1024P L.length)).map fun i =>
      .ofBool (chanList.bit (6 + i)))) :
    (fddCodes o false L.length pos).Perm L := by
  have hpos : ∀ x ∈ L, x ≠ 0 := fun x hx h => h0 (h ▸ hx)
  have hnd' : (L.map (· - 1)).Nodup := by
    refine hnd.map_on fun x hx y hy h => ?_
    have := hpos x hx
    have := hpos y hy
    omega
  have hlt' : ∀ x ∈ L.map (· - 1), x < 1023 := by
    intro x hx
    obtain ⟨y,hy,rfl⟩ := List.mem_map.mp hx
    have := hlt y hy
    have := hpos y hy
    omega
  have hbit : ∀ i < range1024P L.length, o.bit (pos + i) = chanList.bit (6 + i) := by
    intro i hi
    rw [h i (.ofBool (chanList.bit (6 + i))) (by simp [hi]),value_ofBool]
  have hchan := rangeEncode_without h0 hlt hok
  rw [range1024P_eq hlen] at hbit
  have htree : (decodeTree (o.w pos L.length 10) 10 1).Perm (L.map (· - 1)) := by
    refine decodeTree_perm (fun _ => 0) false hnd' hlt' (by simpa using hlen) (fun k h1 hk => ?_)
      (fun k hk => ?_)
    · rw [List.length_map] at hk
      rw [← hchan,Octets.w,Octets.w,if_pos ⟨h1,hk⟩,if_pos ⟨h1,by omega⟩]
      refine Octets.field_congr fun t ht => ?_
      have hmono := wPos_mono 10 hk
      have hw : wPos 10 k = wPos 10 (k - 1) + wWidth 10 k := by
        obtain ⟨k,rfl⟩ : ∃ k', k = k' + 1 := ⟨k - 1,by omega⟩
        rfl
      rw [Nat.add_assoc,Nat.add_assoc]
      exact hbit _ (by omega)
    · rw [List.length_map] at hk
      rw [Octets.w,if_neg (by omega)]
  have hback : (L.map (· - 1)).map (· + 1) = L := by
    rw [List.map_map]
    refine (List.map_congr_left fun x hx => ?_).trans (List.map_id L)
    have := hpos x hx
    simp only [Function.comp_apply,id_eq]
    omega
  have hcodes := htree.map (· + 1)
  rw [hback] at hcodes
  exact hcodes

end Read

section Fdds

variable {si : SiCommon} {o : Octets}

structure SiCommon.Listable (si : SiCommon) : Prop where
  uarfcn : ∀ i < si.uarfcnLength, si.uarfcnList i < 2 ^ 14
  code : ∀ i < si.uarfcnLength, 0 < si.scrambleList i ∧ si.scrambleList i < 1024
  distinct : ∀ i < si.uarfcnLength, ∀ j < si.uarfcnLength, si.uarfcnList i = si.uarfcnList j →
    si.scrambleList i = si.scrambleList j → i = j
  few : ∀ st i, i ≤ si.uarfcnLength → (∀ j, st ≤ j → j < i → si.uarfcnList j = si.uarfcnList st) → i ≤ st + 16

/-- The entries of the lists from place `st` to place `uo`. -/
def SiCommon.pairs (si : SiCommon) (st uo : Nat) : List (Nat × Nat) :=
  (List.range' st (uo - st)).map fun i => (si.uarfcnList i,si.scrambleList i)

theorem pairs_append {st i uo : Nat} (h1 : st ≤ i) (h2 : i ≤ uo) :
    si.pairs st i ++ si.pairs i uo = si.pairs st uo := by
  have h := @List.range'_append_1 st (i - st) (uo - i)
  rw [show st + (i - st) = i by omega,show i - st + (uo - i) = uo - st by omega] at h
  rw [SiCommon.pairs,SiCommon.pairs,SiCommon.pairs,← List.map_append,h]

theorem codes_eq (si : SiCommon) (st i : Nat) :
    si.codes st i = (List.range' st (i - st)).map si.scrambleList := by
  rw [SiCommon.codes,List.range'_eq_map_range,List.map_map]
  rfl

theorem pairs_group {st i : Nat} (hsame : ∀ j, st ≤ j → j < i → si.uarfcnList j = si.uarfcnList st) :
    (si.codes st i).map (fun code => (si.uarfcnList st,code)) = si.pairs st i := by
  rw [codes_eq,List.map_map,SiCommon.pairs]
  refine List.map_congr_left fun j hj => ?_
  have hj := List.mem_range'_1.mp hj
  rw [hsame j hj.1 (by omega)]
  rfl

theorem SiCommon.Listable.codes_ok (h : si.Listable) {st i : Nat} (hi : i ≤ si.uarfcnLength)
    (hsame : ∀ j, st ≤ j → j < i → si.uarfcnList j = si.uarfcnList st) :
    0 ∉ si.codes st i ∧ (∀ x ∈ si.codes st i, x < 1024) ∧ (si.codes st i).Nodup := by
  have hmem : ∀ x ∈ si.codes st i, 0 < x ∧ x < 1024 := by
    intro x hx
    rw [codes_eq] at hx
    obtain ⟨j,hj,rfl⟩ := List.mem_map.mp hx
    have hj := List.mem_range'_1.mp hj
    exact h.code j (by omega)
  refine ⟨fun h0 => absurd (hmem 0 h0).1 (by omega),fun x hx => (hmem x hx).2,?_⟩
  rw [codes_eq]
  refine List.Nodup.map_on (fun j hj k hk heq => ?_) List.nodup_range'
  have hj := List.mem_range'_1.mp hj
  have hk := List.mem_range'_1.mp hk
  refine h.distinct j (by omega) k (by omega) ?_ heq
  rw [hsame j hj.1 (by omega),hsame k hk.1 (by omega)]

theorem fdd_reads {uarfcn st i pos : Nat} {chanList : Octets} (hok : f0Helper (si.codes st i) = .ok chanList)
    (hu : uarfcn < 2 ^ 14) (h0 : 0 ∉ si.codes st i) (hmax : ∀ x ∈ si.codes st i, x < 1024)
    (hnd : (si.codes st i).Nodup) (hfew : i - st ≤ 16)
    (h : Reads BitValue.value o.bit pos (appendUtranFdd uarfcn (i - st) chanList)) :
    o.bit pos = true ∧ o.bit (pos + 16) = false ∧ o.field (pos + 2) 14 = uarfcn
      ∧ o.field (pos + 17) 5 = i - st ∧ (fddCodes o false (i - st) (pos + 22)).Perm (si.codes st i) := by
  simp only [appendUtranFdd,List.flatten_cons,List.flatten_nil,List.append_nil,reads_append,reads_cons,reads_nil,
    and_true,bitvecSetUint_length,List.length_cons,List.length_nil,Nat.zero_add] at h
  obtain ⟨⟨h1,-⟩,hfield,h16,hn,hcodes⟩ := h
  rw [← codes_length si st i] at hfew hcodes ⊢
  refine ⟨h1,h16,field_of_reads hu hfield,?_,fddCodes_perm hok h0 hmax hnd hfew hcodes⟩
  rw [codes_length] at hfew ⊢
  exact field_of_reads (by omega) hn

theorem Fdds.decode {rem st uo fuel pos : Nat} {bits : List BitValue} (h : Fdds si rem st uo bits)
    (hl : si.Listable) (hreads : Reads BitValue.value o.bit pos (bits ++ [BitValue.zero])) (hfuel : bits.length < fuel) :
    (decodeFdds o fuel pos).2 = pos + bits.length + 1 ∧ (decodeFdds o fuel pos).1.Perm (si.pairs st uo) := by
  induction h generalizing pos fuel with
  | stop =>
    obtain ⟨fuel,rfl⟩ : ∃ f, fuel = f + 1 := ⟨fuel - 1,by omega⟩
    have hstop : o.bit pos = false := (reads_cons.mp hreads).1
    simp [decodeFdds,hstop,SiCommon.pairs]
  | @group rem st i uo chanList bits hlt hi hsame _ hok hfits hrest ih =>
    obtain ⟨fuel,rfl⟩ : ∃ f, fuel = f + 1 := ⟨fuel - 1,by omega⟩
    have hfew := hl.few st i hi hsame
    obtain ⟨h0,hmax,hnd⟩ := hl.codes_ok hi hsame
    rw [List.append_assoc,reads_append,appendUtranFdd_length] at hreads
    obtain ⟨hgroup,hreads⟩ := hreads
    rw [List.length_append,appendUtranFdd_length] at hfuel
    obtain ⟨h1,h16,hu,hn,hcodes⟩ := fdd_reads hok (hl.uarfcn st (by omega)) h0 hmax hnd (by omega) hgroup
    obtain ⟨hend,hperm⟩ := @ih fuel (pos + 22 + range1024P (i - st))
      (by rwa [show pos + 22 + range1024P (i - st) = pos + (21 + range1024P (i - st) + 1) by omega])
      (by omega)
    have hbounds := hrest.bounds
    simp only [decodeFdds,h1,if_true,h16,hu,hn,hend,List.length_append,appendUtranFdd_length]
    refine ⟨by omega,?_⟩
    rw [← pairs_append (show st ≤ i by omega) hbounds.1,← pairs_group hsame]
    exact (hcodes.map _).append hperm

end Fdds

section Messages

variable {si : SiCommon} {o : Octets}

def Earfcn.Valid (e : Earfcn) : Prop := e.arfcn < 2 ^ 16 ∧ ∀ bw, e.measBw = some bw → bw < 2 ^ 3

theorem decodeEarfcns_eq {es : List Earfcn} {fuel pos : Nat} {rest : List BitValue} (hes : ∀ e ∈ es, e.Valid)
    (h : Reads BitValue.value o.bit pos (es.flatMap Earfcn.bits ++ .zero :: rest)) (hfuel : es.length < fuel) :
    decodeEarfcns o fuel pos = es := by
  induction es generalizing fuel pos with
  | nil =>
    obtain ⟨fuel,rfl⟩ : ∃ f, fuel = f + 1 := ⟨fuel - 1,by omega⟩
    have hstop : o.bit pos = false := (reads_cons.mp h).1
    simp [decodeEarfcns,hstop]
  | cons e es ih =>
    obtain ⟨fuel,rfl⟩ : ∃ f, fuel = f + 1 := ⟨fuel - 1,by omega⟩
    obtain ⟨harfcn,hbw⟩ := hes e (by simp)
    have hes' : ∀ e ∈ es, e.Valid := fun e he => hes e (by simp [he])
    rw [List.length_cons] at hfuel
    obtain ⟨arfcn,measBw⟩ := e
    cases measBw with
    | none =>
      simp only [List.flatMap_cons,Earfcn.bits,optionalUint,List.cons_append,reads_cons,
        reads_append,bitvecSetUint_length,List.nil_append,List.append_assoc] at h
      obtain ⟨h1,hfield,h0,hrest⟩ := h
      have hnext := @ih fuel (pos + 1 + 16 + 1) hes'
        (reads_append.mpr ⟨hrest.1,reads_cons.mpr hrest.2⟩) (by omega)
      have h1' : o.bit pos = true := h1
      have h0' : o.bit (pos + 17) = false := h0
      simp only [decodeEarfcns,h1',if_true,h0',Bool.false_eq_true,if_false,field_of_reads harfcn hfield]
      rw [show pos + 18 = pos + 1 + 16 + 1 by omega,hnext]
    | some bw =>
      simp only [List.flatMap_cons,Earfcn.bits,optionalUint,List.cons_append,reads_cons,
        reads_append,bitvecSetUint_length,List.append_assoc] at h
      obtain ⟨h1,hfield,h17,hbits,hrest⟩ := h
      have hnext := @ih fuel (pos + 1 + 16 + 1 + 3) hes'
        (reads_append.mpr ⟨hrest.1,reads_cons.mpr hrest.2⟩) (by omega)
      have h1' : o.bit pos = true := h1
      have h17' : o.bit (pos + 17) = true := h17
      simp only [decodeEarfcns,h1',if_true,h17',field_of_reads harfcn hfield]
      rw [field_of_reads (hbw bw rfl) hbits,show pos + 21 = pos + 1 + 16 + 1 + 3 by omega,hnext]

/-- The rest octets `o` hold `bits`, and padding after them. -/
def Holds (o : Octets) (bits : List BitValue) : Prop :=
  bits.length ≤ 160 ∧ ∀ t < 160, o.bit t = (bits.getD t .l).value t

theorem Holds.reads {bits : List BitValue} (h : Holds o bits) : Reads BitValue.value o.bit 0 bits := by
  intro t x hx
  obtain ⟨ht,hx⟩ := List.getElem?_eq_some_iff.mp hx
  have hlen := h.1
  rw [Nat.zero_add,h.2 t (by omega)]
  simp [List.getD_eq_getElem?_getD,ht,hx]

theorem Utran.decode {uOffset uo : Nat} {utran rest : List BitValue} (h : Utran si uOffset uo utran)
    (hl : si.Listable) (hlen : si.uarfcnLength ≤ maxEarfcnList)
    (hreads : Reads BitValue.value o.bit 18 (utran ++ rest)) :
    (decodeUtran o).1.Perm (si.pairs uOffset uo) ∧ (decodeUtran o).2 = 18 + utran.length + 2 := by
  have hle := h.length_le hlen
  cases h with
  | absent h =>
    have h18 : o.bit 18 = false := (reads_cons.mp hreads).1
    simp [decodeUtran,h18,SiCommon.pairs]
  | @present uo bits h hfdds =>
    simp only [utranHead,List.append_assoc,List.cons_append,List.nil_append,reads_cons] at hreads
    obtain ⟨h18,h19,h20,h21,h22,hreads⟩ := hreads
    rw [reads_append] at hreads
    have hstop : Reads BitValue.value o.bit 23 (bits ++ [BitValue.zero]) :=
      reads_append.mpr ⟨hreads.1,reads_cons.mpr ⟨(reads_cons.mp hreads.2).1,reads_nil⟩⟩
    have hhead : utranHead.length = 5 := rfl
    simp only [List.length_append,hhead,List.length_cons,List.length_nil] at hle ⊢
    have hfuel : bits.length < si2qMaxLen := by
      unfold si2qMaxLen
      omega
    obtain ⟨hend,hperm⟩ := hfdds.decode hl hstop hfuel
    have hcheck : (o.bit 18 && !o.bit 19 && !o.bit 20 && o.bit 21 && !o.bit 22) = true := by
      rw [h18,h19,h20,h21,h22]
      rfl
    unfold decodeUtran
    rw [if_pos hcheck]
    refine ⟨hperm,?_⟩
    simp only [hend]
    omega

theorem value_h_ne_l (pos : Nat) : BitValue.value pos .l ≠ BitValue.value pos .h := by
  simp [BitValue.value]

theorem decodeEutran_nil (h : o.bit (decodeUtran o).2 = BitValue.value (decodeUtran o).2 .l) :
    decodeEutran o = [] := by
  unfold decodeEutran
  rw [if_neg]
  intro hall
  have h0 := List.all_eq_true.mp hall 0 (by simp)
  rw [beq_iff_eq,Nat.add_zero,h] at h0
  exact value_h_ne_l _ h0

theorem flatMap_bits_length (es : List Earfcn) : es.length ≤ (es.flatMap Earfcn.bits).length := by
  induction es with
  | nil => simp
  | cons e es ih =>
    simp only [List.flatMap_cons,Earfcn.bits,List.cons_append,List.length_cons,List.length_append]
    omega

theorem Eutran.decode {eOffset eo : Nat} {start eutran : List BitValue} (h : Eutran si eOffset eo eutran)
    (hes : ∀ e ∈ si.si2quaterNeighList.entries, e.Valid) (hheld : Holds o (start ++ eutran))
    (hstart : (decodeUtran o).2 = start.length) (hroom : start.length < 160) :
    decodeEutran o = (si.si2quaterNeighList.entries.drop eOffset).take (eo - eOffset) := by
  have hreads := (reads_append.mp hheld.reads).2
  rw [Nat.zero_add,← hstart] at hreads
  cases h with
  | absent h =>
    rw [decodeEutran_nil (reads_cons.mp hreads).1]
    simp
  | noRoom =>
    rw [decodeEutran_nil,Nat.sub_self,List.take_zero]
    rw [hheld.2 _ (by omega),List.getD_eq_default _ _ (by simp [hstart])]
  | @present n hn =>
    have hlen := hheld.1
    simp only [List.append_assoc,reads_append] at hreads
    obtain ⟨hhead,hbits,hparams,-⟩ := hreads
    have hcheck : ((List.range 19).all fun i =>
        o.bit ((decodeUtran o).2 + i) == (eutranHead.getD i .l).value ((decodeUtran o).2 + i)) = true := by
      refine List.all_eq_true.mpr fun i hi => beq_iff_eq.mpr (hhead i _ ?_)
      have hi : i < eutranHead.length := List.mem_range.mp hi
      simp [List.getD_eq_getElem?_getD,hi]
    have hfuel : n < si2qMaxLen := by
      have := flatMap_bits_length ((si.si2quaterNeighList.entries.drop eOffset).take n)
      rw [List.length_take] at this
      simp only [List.length_append,show eutranHead.length = 19 from rfl] at hlen
      unfold si2qMaxLen
      omega
    unfold decodeEutran
    rw [if_pos hcheck,Nat.add_sub_cancel_left]
    refine @decodeEarfcns_eq o _ _ _ si.si2quaterNeighList.params.tail (fun e he => ?_) ?_ ?_
    · exact hes e (List.mem_of_mem_drop (List.mem_of_mem_take he))
    · exact reads_append.mpr ⟨hbits,hparams⟩
    · rw [List.length_take]
      omega

theorem Message.decode {bts : Si2qBts} {uo eo : Nat} {bv : Writer BitValue} (h : Message bts uo eo bv)
    (hl : bts.siCommon.Listable) (hlen : bts.siCommon.uarfcnLength ≤ maxEarfcnList)
    (hes : ∀ e ∈ bts.siCommon.si2quaterNeighList.entries, e.Valid) {header : List Octet}
    (hheader : header.length = 3) :
    (decodeUtran (restOf (header ++ restOctets 20 bv.out))).1.Perm (bts.siCommon.pairs bts.uOffset uo)
    ∧ decodeEutran (restOf (header ++ restOctets 20 bv.out))
      = (bts.siCommon.si2quaterNeighList.entries.drop bts.eOffset).take (eo - bts.eOffset) := by
  obtain ⟨utran,eutran,hutran,heutran,hout⟩ := h.content
  have hle : bv.out.length ≤ 160 := bv.length_le_peak.trans h.peak
  have hheld : Holds (restOf (header ++ restOctets 20 bv.out)) bv.out :=
    ⟨hle,fun t ht => restOf_bit hheader _ ht⟩
  generalize restOf (header ++ restOctets 20 bv.out) = o at hheld
  rw [hout] at hheld hle
  have hlength := hutran.length_le hlen
  have hreads := (reads_append.mp hheld.reads).2
  rw [si2qHead_length,Nat.zero_add,List.append_assoc] at hreads
  obtain ⟨hperm,hpos⟩ := hutran.decode hl hlen hreads
  refine ⟨hperm,?_⟩
  rw [← List.append_assoc] at hheld
  refine heutran.decode hes hheld ?_ ?_
  · rw [hpos]
    simp
    omega
  · simp
    omega

end Messages

section Pass

variable {s : Si2qBts}

/-- What `n` messages from message `i` on list. -/
def Si2qBts.fddsFrom (bts : Si2qBts) (i n : Nat) : List (Nat × Nat) :=
  (List.range' i n).flatMap fun i => (decodeUtran (restOf (bts.siBuf i))).1

def Si2qBts.earfcnsFrom (bts : Si2qBts) (i n : Nat) : List Earfcn :=
  (List.range' i n).flatMap fun i => decodeEutran (restOf (bts.siBuf i))

/-- A successful pass that generates messages lists what was left behind the offsets, and
leaves earlier messages alone. -/
structure Lists (s : Si2qBts) (pass : Pass) : Prop where
  index : s.si2qIndex ≤ pass.bts.si2qIndex
  fdds : (pass.bts.fddsFrom s.si2qIndex (pass.bts.si2qIndex + 1 - s.si2qIndex)).Perm
    (s.siCommon.pairs s.uOffset s.siCommon.uarfcnLength)
  earfcns : pass.bts.earfcnsFrom s.si2qIndex (pass.bts.si2qIndex + 1 - s.si2qIndex)
    = s.siCommon.si2quaterNeighList.entries.drop s.eOffset
  kept : ∀ i < s.si2qIndex, pass.bts.siBuf i = s.siBuf i

theorem makeSi2quatersFrom_lists {n : Nat} {pass : Pass} (hl : s.siCommon.Listable)
    (hlen : s.siCommon.uarfcnLength ≤ maxEarfcnList) (hes : ∀ e ∈ s.siCommon.si2quaterNeighList.entries, e.Valid)
    (hu : s.uOffset ≤ s.siCommon.uarfcnLength)
    (hcount : s.si2qIndex + (s.siCommon.rounds n (s.uOffset,s.eOffset)).length ≤ s.si2qCount + 1)
    (hpass : makeSi2quatersFrom false n s = .ok pass) (hrc : pass.rc = .ok 20) : Lists s pass := by
  have hmax : maxEarfcnList = 32 := rfl
  induction n generalizing s pass with
  | zero =>
    cases hpass
    cases hrc
  | succ n ih =>
    obtain ⟨hsi,hpu,hpe,-,-⟩ := prepare_same false s
    rw [SiCommon.rounds,List.length_cons] at hcount
    obtain ⟨bv,next,heq,hmsg,hafter,-⟩ := @restOctetsSi2quater_prepare false s hlen
      (show s.uOffset < 2 ^ 32 by omega) (fun _ => by omega)
    have hbuf : next.siBuf next.si2qIndex = macblock [siHeader (gsm48Len2plen 22) 0x07] := by
      rw [hafter.siBuf,hafter.si2qIndex]
      simp [Si2qBts.prepare]
    have hheader : ((next.siBuf next.si2qIndex).take 3).length = 3 := by
      rw [hbuf]
      rfl
    obtain ⟨hfdds,hearfcns⟩ := hmsg.decode (by rwa [hsi]) (by rwa [hsi]) (by rwa [hsi]) hheader
    have hbounds := hmsg.bounds
    rw [hsi,hpu] at hfdds hbounds
    rw [hsi,hpe] at hearfcns
    rw [hpe] at hbounds
    have hown : (next.setRestOctets bv.out).siBuf s.si2qIndex
        = (next.siBuf next.si2qIndex).take 3 ++ restOctets 20 bv.out := by
      rw [← hafter.si2qIndex]
      simp [Si2qBts.setRestOctets]
    have hothers : ∀ i < s.si2qIndex, (next.setRestOctets bv.out).siBuf i = s.siBuf i := by
      intro i hi
      simp [Si2qBts.setRestOctets,hafter.siBuf,hafter.si2qIndex,Si2qBts.prepare,Nat.ne_of_lt hi]
    simp only [makeSi2quatersFrom,heq,ok_bind] at hpass
    by_cases hdone : (next.setRestOctets bv.out).done
    · rw [if_pos hdone] at hpass
      cases hpass
      have hcov : s.siCommon.uarfcnLength ≤ next.uOffset ∧ s.siCommon.si2qEarfcnCount ≤ next.eOffset := by
        simpa [Si2qBts.done,hafter.siCommon] using hdone
      have hend : next.uOffset = s.siCommon.uarfcnLength := by omega
      have hone : (next.setRestOctets bv.out).si2qIndex + 1 - s.si2qIndex = 1 := by
        simp [hafter.si2qIndex]
      refine ⟨Nat.le_of_eq hafter.si2qIndex.symm,?_,?_,hothers⟩
      · simp only [hone,Si2qBts.fddsFrom,List.range'_one,List.flatMap_singleton,hown]
        exact hend ▸ hfdds
      · simp only [hone,Si2qBts.earfcnsFrom,List.range'_one,List.flatMap_singleton,hown]
        rw [hearfcns,List.take_of_length_le]
        have := hcov.2
        unfold SiCommon.si2qEarfcnCount at this
        rw [List.length_drop]
        omega
    · rw [if_neg hdone] at hpass
      obtain ⟨pass',hpass',heq'⟩ := bind_eq_ok.mp hpass
      cases heq'
      have hnext : ¬ s.siCommon.covers (next.uOffset,next.eOffset) = true := by
        rw [done_iff] at hdone
        simpa [hafter.siCommon] using hdone
      rw [hafter.offsets,if_neg hnext] at hcount
      have hlists := ih (by simpa [hafter.siCommon] using hl) (by simpa [hafter.siCommon] using hlen)
        (by simpa [hafter.siCommon] using hes) (by
          simp only [setRestOctets_siCommon,setRestOctets_uOffset,hafter.siCommon]
          omega) (by
          simp only [setRestOctets_siCommon,setRestOctets_uOffset,setRestOctets_eOffset,setRestOctets_si2qIndex,
            setRestOctets_si2qCount,hafter.siCommon,hafter.si2qIndex,hafter.si2qCount rfl]
          omega) hpass' hrc
      obtain ⟨hindex,hrestf,hreste,hkept⟩ := hlists
      simp only [setRestOctets_siCommon,setRestOctets_uOffset,setRestOctets_eOffset,setRestOctets_si2qIndex,
        hafter.siCommon,hafter.si2qIndex] at hindex hrestf hreste hkept
      have hmore : pass'.bts.si2qIndex + 1 - s.si2qIndex = pass'.bts.si2qIndex + 1 - (s.si2qIndex + 1) + 1 := by
        omega
      have hmine : pass'.bts.siBuf s.si2qIndex = (next.siBuf next.si2qIndex).take 3 ++ restOctets 20 bv.out := by
        rw [hkept _ (Nat.lt_succ_self _),hown]
      have hsplit := List.take_append_drop (next.eOffset - s.eOffset)
        (s.siCommon.si2quaterNeighList.entries.drop s.eOffset)
      rw [List.drop_drop,show s.eOffset + (next.eOffset - s.eOffset) = next.eOffset by omega] at hsplit
      refine ⟨show s.si2qIndex ≤ pass'.bts.si2qIndex by omega,?_,?_,fun i hi => ?_⟩
      · rw [hmore,Si2qBts.fddsFrom,List.range'_succ,List.flatMap_cons,hmine,
          ← pairs_append hbounds.1 (show next.uOffset ≤ s.siCommon.uarfcnLength by omega)]
        exact hfdds.append hrestf
      · rw [hmore,Si2qBts.earfcnsFrom,List.range'_succ,List.flatMap_cons,hmine,hearfcns]
        exact (congrArg _ hreste).trans hsplit
      · rw [hkept i (by omega),hothers i hi]

theorem generateSi2quater_lists (hl : s.siCommon.Listable) (hlen : s.siCommon.uarfcnLength ≤ maxEarfcnList)
    (hes : ∀ e ∈ s.siCommon.si2quaterNeighList.entries, e.Valid)
    (hfits : s.siCommon.fits si2qMaxNum (0,0) = true) (hneeded : s.siCommon.si2quaterNotNeeded = false) :
    ∃ bts, generateSi2quater s = .ok (bts,.ok gsmMacblockLen)
      ∧ bts.listedFdds.Perm (s.siCommon.pairs 0 s.siCommon.uarfcnLength)
      ∧ bts.listedEarfcns = s.siCommon.si2quaterNeighList.entries := by
  obtain ⟨counting,generating,h,hc,hg⟩ := twoPasses hlen
  have hrc := generating_rc hc hg
  obtain ⟨hindex,hnum⟩ := count_agrees hc hg hfits
  rw [hfits,if_pos rfl] at hrc
  have hcount := hc.rounds_le_num rfl
  have hsi := hc.siCommon
  simp only at hcount hsi
  have hlists := makeSi2quatersFrom_lists (by simpa [hsi] using hl) (by simpa [hsi] using hlen)
    (by simpa [hsi] using hes) (Nat.zero_le _) (by simp only [hsi]; omega) h.generates hrc
  simp only [hsi] at hlists
  have hfdds := hlists.fdds
  have hearfcns := hlists.earfcns
  simp only [Nat.sub_zero,List.drop_zero] at hfdds hearfcns
  refine ⟨generating.bts,?_,?_,?_⟩
  · rw [h.generateSi2quater_eq hneeded,hrc]
    simp only [hindex,ne_eq,not_true_eq_false,if_false]
    rw [if_neg (by omega)]
    rfl
  · rw [Si2qBts.listedFdds,List.range_eq_range',hindex]
    exact hfdds
  · rw [Si2qBts.listedEarfcns,List.range_eq_range',hindex]
    exact hearfcns

end Pass

end OsmoBsc.Si.Si2q
