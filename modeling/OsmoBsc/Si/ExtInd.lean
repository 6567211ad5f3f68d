import OsmoBsc.Si.Announcement
import OsmoBsc.Si.SystemInformation
set_option autoImplicit false

namespace OsmoBsc.Si

section Header

variable {a : FreqListArgs} {o o' : Octets} {f0 : Nat} {w : IntArray}

theorem rangeEncRange_header (header : BitVec 8) (wSize w1Len : Nat) (o : Octets) (f0 : Nat) (w : IntArray)
    {n : Nat} (hn : n < 7) : (rangeEncRange header wSize w1Len o f0 w).bit n = header.getLsbD (7 - n) := by
  have h := (writeAllWn_spec (writeOrigArfcn (Function.update o 0 header) f0) 2 w wSize w1Len
    (show 1 < 8 by omega)).2 n (by omega)
  have hlow : ∀ v < 2, ∀ i < 8, i ≠ 0 → (BitVec.ofNat 8 v).getLsbD i = false := by decide
  refine h.trans ?_
  unfold writeOrigArfcn
  dsimp only
  rw [Octets.bit_update,if_neg (by omega),Octets.bit_update,if_neg (by omega),Octets.bit_update,if_pos (by omega),
    Function.update_self,BitVec.getLsbD_or,Nat.and_one_is_mod,hlow _ (by omega) _ (by omega) (by omega),Bool.or_false,
    show n % 8 = n by omega]

theorem rangeEncode_eq {r : Gsm48Range} {L : List Nat} (h : rangeEncode r L w f0 o = .ok o') :
    ∃ w', o' = match r with
      | .r128 => rangeEncRange128 o f0 w'
      | .r256 => rangeEncRange256 o f0 w'
      | .r512 => rangeEncRange512 o f0 w'
      | .r1024 => rangeEncRange1024 o (rangeEncFilterArfcns L f0).2 w' := by
  unfold rangeEncode at h
  dsimp only at h
  generalize rangeEncArfcns r.value (rangeEncFilterArfcns L f0).1 w 0 = tree at h
  obtain ⟨w',rc⟩ := tree
  cases rc with
  | error e => cases h
  | ok u => exact ⟨w',(Except.ok.inj h).symm⟩

theorem rangeEncode_extInd {r : Gsm48Range} {L : List Nat} (h : rangeEncode r L w f0 o = .ok o') :
    o'.bit 2 = false := by
  obtain ⟨w',rfl⟩ := rangeEncode_eq h
  cases r with
  | r128 => exact rangeEncRange_header 0x8C 28 7 _ _ _ (by omega)
  | r256 => exact rangeEncRange_header 0x8A 21 8 _ _ _ (by omega)
  | r512 => exact rangeEncRange_header 0x88 17 9 _ _ _ (by omega)
  | r1024 =>
    refine ((writeAllWn_spec _ 0 _ 16 10 (show 6 < 8 by omega)).2 2 (by omega)).trans ?_
    rw [Octets.bit_update,if_pos (by omega)]
    generalize (rangeEncFilterArfcns L f0).2 = f0Included
    cases f0Included <;> decide

theorem encFreqLstRange_ok (h : encFreqLstRange a o = .ok o') :
    ∃ r f0, rangeEncDetermineRange a.selected 0 = some (r,f0)
      ∧ rangeEncode r a.selected (fun _ => 0) f0 o = .ok o' := by
  obtain ⟨L,hL,henc⟩ := EventFsm.bind_eq_ok.mp h
  have hsel := encFreqLstSelect_eq hL
  rw [List.nil_append,← FreqListArgs.selected] at hsel
  rw [hsel] at henc
  split at henc
  · cases henc
  · rename_i r f0 hr
    exact ⟨r,f0,hr,henc⟩

theorem bitvec2freqList_extInd (h : bitvec2freqList a = .ok o) : o.bit 2 = false := by
  cases hf : a.format with
  | bitmap0 =>
    simp only [bitvec2freqList,hf] at h
    rw [← Bool.not_eq_true,bit_foldlM_bm0 (by simp; omega) h]
    simp [Octets.bit]
    omega
  | empty =>
    simp only [bitvec2freqList,hf] at h
    cases h
    rfl
  | varBitmap min =>
    have hmin : min < 1024 := (mem_selected.mp (format_varBitmap hf).1).1
    simp only [bitvec2freqList,hf,encFreqLstVarBitmap] at h
    have hhead := (bit_foldlM_bmrel (by simp [Bitvec.bits]; omega) (writeOrigArfcn_minArfcnOf hmin) hmin h).1
    have hbit : ∀ v < 2, (0x8E#8 ||| BitVec.ofNat 8 v).getLsbD 5 = false := by decide
    rw [hhead 2 (by omega),Octets.bit,(writeOrigArfcn_low hmin).1]
    exact hbit _ (by omega)
  | range =>
    obtain ⟨r,f0,-,henc⟩ := encFreqLstRange_ok (bitvec2freqList_range hf h)
    exact rangeEncode_extInd henc

end Header

section Lists

variable {a : FreqListArgs} {o o' : Octets}

theorem decodeTree_ne_nil {read : Nat → Nat} {bits k : Nat} (h : read k ≠ 0) : decodeTree read (bits+1) k ≠ [] := by
  simp [decodeTree,h]

theorem decodeRange_header {wSize w1Len : Nat} {header : BitVec 8} {f0 : Nat} {w : IntArray}
    (h0 : header.getLsbD 7 = true) (h1 : header.getLsbD 6 = false) (h4 : header.getLsbD 3 = true)
    (hrange : header.getLsbD 2 = false ∨ header.getLsbD 1 = false) :
    decodeFreqList (rangeEncRange header wSize w1Len o f0 w) ≠ [] := by
  have hbit := fun n hn => @rangeEncRange_header header wSize w1Len o f0 w n hn
  unfold decodeFreqList
  rw [hbit 0 (by omega),hbit 1 (by omega),hbit 4 (by omega),hbit 5 (by omega),hbit 6 (by omega)]
  simp only [Nat.sub_zero,Nat.reduceSub,h0,h1,h4]
  cases h5 : header.getLsbD 2 with
  | false => cases header.getLsbD 1 <;> simp [Octets.decodeRange]
  | true =>
    rw [h5] at hrange
    rw [hrange.resolve_left (by decide)]
    simp [Octets.decodeRange]

theorem decodeRange1024_lists {w : IntArray} (h1 : 1 ≤ w 0) (h2 : w 0 < 1024) (f0 : Bool) :
    decodeFreqList (rangeEncRange1024 o f0 w) ≠ [] := by
  obtain ⟨hb0,hb1,hb4,hb5⟩ := rangeEncRange1024_header o f0 w
  have hw := (writeAllWn_spec (Function.update o 0 (0x80#8 ||| (BitVec.ofBool f0).setWidth 8 <<< 2)) 0 w 16 10
    (show 6 < 8 by omega)).1 1 (by omega) (by omega) h2
  have htree := @decodeTree_ne_nil ((rangeEncRange1024 o f0 w).w 6 16 10) 9 1 (by
    refine ne_of_eq_of_ne hw ?_
    rw [Nat.sub_self]
    omega)
  simp [decodeFreqList,hb0,hb1,hb4,Octets.decodeRange1024,htree]

theorem decodeRange1024_zero (w : IntArray) : decodeFreqList (rangeEncRange1024 o true w) ≠ [] := by
  obtain ⟨hb0,hb1,hb4,hb5⟩ := rangeEncRange1024_header o true w
  simp [decodeFreqList,hb0,hb1,hb4,hb5,Octets.decodeRange1024]

theorem rangeEncode_r1024_lists {L : List Nat} (h : rangeEncode .r1024 L (fun _ => 0) 0 o = .ok o') (hnd : L.Nodup)
    (hlt : ∀ x ∈ L, x < 1024) (hne : L ≠ []) : decodeFreqList o' ≠ [] := by
  by_cases h0 : 0 ∈ L
  · obtain ⟨w,rfl⟩ := rangeEncode_eq h
    have hincluded : (rangeEncFilterArfcns L 0).2 = true := List.contains_iff_mem.mpr h0
    rw [hincluded]
    exact decodeRange1024_zero w
  · have hpos : ∀ x ∈ L, x ≠ 0 := fun x hx he => h0 (he ▸ hx)
    have hnd' : (L.map (· - 1)).Nodup := hnd.map_on fun x hx y hy he => by
      have := hpos x hx
      have := hpos y hy
      omega
    have hlt' : ∀ x ∈ L.map (· - 1), x < 2 ^ 10 - 1 := by
      intro x hx
      obtain ⟨y,hy,rfl⟩ := List.mem_map.mp hx
      have := hlt y hy
      have := hpos y hy
      omega
    have hlen := List.length_pos_iff.mpr hne
    have henc := (rangeEncArfcns_encodes 10 (fun _ => 0) (show 0 < 2 ^ 0 by omega) hnd' hlt').2
    change Encodes 10 0 0 (L.map (· - 1)) (fun _ => 0) (rangeEncArfcns 1023 (L.map (· - 1)) (fun _ => 0) 0).1 at henc
    rw [rangeEncode_without h0 hlt h]
    generalize (rangeEncArfcns 1023 (L.map (· - 1)) (fun _ => 0) 0).1 = w at henc
    obtain ⟨h1,h2⟩ := henc.value 1 (by omega) (by rw [List.length_map]; omega)
    exact decodeRange1024_lists h1 h2 false

theorem rangeEncode_lists {r : Gsm48Range} {L : List Nat} {f0 : Nat} (h : rangeEncode r L (fun _ => 0) f0 o = .ok o')
    (hr : rangeEncDetermineRange L 0 = some (r,f0)) (hnd : L.Nodup) (hlt : ∀ x ∈ L, x < 1024) (hne : L ≠ []) :
    decodeFreqList o' ≠ [] := by
  cases r with
  | r1024 =>
    have hf0 : f0 = 0 := by
      unfold rangeEncDetermineRange at hr
      split at hr
      · cases hr
      · dsimp only at hr
        split_ifs at hr <;> cases hr
        rfl
    subst hf0
    exact rangeEncode_r1024_lists h hnd hlt hne
  | _ =>
    obtain ⟨w,rfl⟩ := rangeEncode_eq h
    exact decodeRange_header (by decide) (by decide) (by decide) (by decide)

/-- Outside of bit map 0 a list announces an ARFCN exactly if one was selected. -/
theorem lists_iff_selected (hf : a.format ≠ .bitmap0) (h : bitvec2freqList a = .ok o) :
    decodeFreqList o = [] ↔ a.selected = [] := by
  cases hformat : a.format with
  | bitmap0 => exact absurd hformat hf
  | empty =>
    simp only [bitvec2freqList,hformat] at h
    cases h
    exact iff_of_true (List.eq_nil_iff_forall_not_mem.mpr fun x => decode_empty) (format_empty hformat)
  | varBitmap min =>
    have hsel := (format_varBitmap hformat).1
    have hmin := (decode_varBitmap hformat h).mpr (.inl (rfl : min = min))
    exact iff_of_false (List.ne_nil_of_mem hmin) (List.ne_nil_of_mem hsel)
  | range =>
    obtain ⟨r,f0,hr,henc⟩ := encFreqLstRange_ok (bitvec2freqList_range hformat h)
    have hne : a.selected ≠ [] := by
      intro hnil
      unfold FreqListArgs.format at hformat
      rw [hnil] at hformat
      split_ifs at hformat
      cases hformat
    exact iff_of_false (rangeEncode_lists henc hr selected_nodup (fun x hx => (mem_selected.mp hx).1) hne) hne

end Lists

/-- The octets of a message from octet `off` on. -/
def octetsFrom (msg : List Octet) (off : Nat) : Octets := fun i => msg.getD (off+i) 0

/-- EXT-IND of the frequency list at octet `off` of a message. -/
def extInd (msg : List Octet) (off : Nat) : Bool := (msg.getD off 0).getLsbD 5

/-- EXT-IND of a message and of the message that extends it, whose frequency lists are at
octet `off`: set in both if the second one announces an ARFCN and in neither if it does
not. `before` is the first message before the second one was made. -/
structure ExtIndAgrees (off : Nat) (before plain bis : List Octet) : Prop where
  marked : decodeFreqList (octetsFrom bis off) ≠ [] → extInd plain off = true ∧ extInd bis off = true
  unmarked : decodeFreqList (octetsFrom bis off) = [] → extInd plain off = false ∧ extInd bis off = false
  frame : ∀ i, i ≠ off → plain[i]? = before[i]?

section Message

variable {o : Octets} {off i : Nat} {pre post : List (List Octet)} {msg : List Octet}

theorem octetsFrom_macblock {l : List Octet} (hoff : pre.flatten.length = off) (hi : i < l.length) :
    octetsFrom (macblock (pre ++ l :: post)) off i = l.getD i 0 := by
  unfold octetsFrom macblock
  rw [List.flatten_append,List.flatten_cons,List.append_assoc,List.append_assoc,
    List.getD_append_right _ _ _ _ (by omega),List.getD_append _ _ _ _ (by omega),hoff,Nat.add_sub_cancel_left]

theorem freqListOctets_length (o : Octets) : (freqListOctets o).length = 16 := by simp [freqListOctets]

theorem freqListOctets_getD (o : Octets) (hi : i < 16) : (freqListOctets o).getD i 0 = o i := by
  simp [freqListOctets,List.getD_eq_getElem?_getD,hi]

theorem setExtInd_length (l : List Octet) : (setExtInd l).length = l.length := List.length_modify ..

theorem setExtInd_getD (o : Octets) (hi : i < 16) :
    (setExtInd (freqListOctets o)).getD i 0 = if i = 0 then o 0 ||| 0x20 else o i := by
  have hget : (freqListOctets o)[i]? = some (o i) := by simp [freqListOctets,hi]
  rw [List.getD_eq_getElem?_getD,setExtInd,List.getElem?_modify,hget]
  by_cases h0 : i = 0
  · subst h0
    simp
  · have h0' : ¬ 0 = i := fun h => h0 h.symm
    simp [h0,h0']

theorem extInd_eq (msg : List Octet) (off : Nat) : extInd msg off = (octetsFrom msg off 0).getLsbD 5 := rfl

theorem extInd_macblock (hoff : pre.flatten.length = off) :
    extInd (macblock (pre ++ freqListOctets o :: post)) off = o.bit 2 := by
  rw [extInd_eq,octetsFrom_macblock hoff (by rw [freqListOctets_length]; omega),freqListOctets_getD o (by omega)]
  rfl

theorem decode_macblock {ext : Bool} (hoff : pre.flatten.length = off) :
    decodeFreqList (octetsFrom
      (macblock (pre ++ (if ext then setExtInd (freqListOctets o) else freqListOctets o) :: post)) off)
      = decodeFreqList o := by
  refine decodeFreqList_congr fun n hn h2 _ => ?_
  unfold Octets.bit
  cases ext with
  | false =>
    rw [if_neg (by decide),octetsFrom_macblock hoff (by rw [freqListOctets_length]; omega),
      freqListOctets_getD o (by omega)]
  | true =>
    rw [if_pos rfl,octetsFrom_macblock hoff (by rw [setExtInd_length,freqListOctets_length]; omega),
      setExtInd_getD o (by omega)]
    split
    · rename_i h0
      have hbit : ∀ i < 8, i ≠ 5 → BitVec.getLsbD (0x20 : Octet) i = false := by decide
      rw [BitVec.getLsbD_or,h0,hbit _ (by omega) (by omega),Bool.or_false]
    · rfl

theorem extInd_bis {ext : Bool} (hoff : pre.flatten.length = off) (hclear : o.bit 2 = false) :
    extInd (macblock (pre ++ (if ext then setExtInd (freqListOctets o) else freqListOctets o) :: post)) off
      = ext := by
  cases ext with
  | false =>
    rw [if_neg (by decide),extInd_macblock hoff,hclear]
  | true =>
    rw [if_pos rfl,extInd_eq,octetsFrom_macblock hoff (by rw [setExtInd_length,freqListOctets_length]; omega),
      setExtInd_getD o (by omega),if_pos rfl,BitVec.getLsbD_or]
    simp

theorem extInd_modify_self (msg : List Octet) (hlt : off < msg.length) :
    extInd (msg.modify off (· ||| 0x20)) off = true := by
  simp [extInd,List.getD_eq_getElem?_getD,hlt]

theorem extInd_modify_ne {j : Nat} (hj : j ≠ off) : extInd (msg.modify j (· ||| 0x20)) off = extInd msg off := by
  simp [extInd,List.getD_eq_getElem?_getD,hj]

theorem listsArfcn_iff (o : Octets) : listsArfcn o = true ↔ decodeFreqList o ≠ [] := by
  simp [listsArfcn]

end Message

section Generate

variable {net : NeighNetwork} {bts : SiConfig} {si5 : Bool} {part : SiPart} {o : Octets} {st st' : SiState}

theorem generateBcchChanList_extInd (h : generateBcchChanList net bts.toNeighBts si5 part = .ok o) :
    o.bit 2 = false := by
  obtain ⟨o1,h1,hset⟩ := EventFsm.bind_eq_ok.mp h
  cases hset
  have hclear := bitvec2freqList_extInd h1
  unfold setBaInd
  rw [Octets.bit_update,if_pos (by omega)]
  cases si5 with
  | false =>
    rw [if_neg (by decide),BitVec.getLsbD_and]
    exact Bool.and_eq_false_imp.mpr fun h => absurd (hclear.symm.trans h) (by decide)
  | true =>
    rw [if_pos rfl,BitVec.getLsbD_or]
    exact Bool.or_eq_false_iff.mpr ⟨hclear,by decide⟩

theorem generateBcchChanList_lists (h : generateBcchChanList net bts.toNeighBts si5 .bis = .ok o) :
    decodeFreqList o = [] ↔ (net.freqListArgs bts.toNeighBts si5 .bis).selected = [] := by
  obtain ⟨o1,h1,hset⟩ := EventFsm.bind_eq_ok.mp h
  cases hset
  rw [decodeFreqList_setBaInd]
  refine lists_iff_selected (fun hf => ?_) h1
  cases format_bitmap0.mp hf

def SiConfig.si5List (bts : SiConfig) : Nat := (bts.sacchPlen 18).length + 2

/-- A buffer with EXT-IND at octet `off` if the list `o` announces an ARFCN. -/
def markIf (o : Octets) (off : Nat) (msg : List Octet) : List Octet :=
  if listsArfcn o then msg.modify off (· ||| 0x20) else msg

theorem generateSi2_buf (h : generateSi2 net bts st = .ok st') : ∃ o post,
    generateBcchChanList net bts.toNeighBts false .plain = .ok o
      ∧ st'.siBuf .t2 = macblock ([siHeader (gsm48Len2plen 22) 0x1a] ++ freqListOctets o :: post) := by
  obtain ⟨o,ho,hset⟩ := EventFsm.bind_eq_ok.mp h
  cases hset
  exact ⟨o,_,ho,rfl⟩

theorem generateSi5_buf (h : generateSi5 net bts st = .ok st') : ∃ o post,
    generateBcchChanList net bts.toNeighBts true .plain = .ok o
      ∧ st'.siBuf .t5 = macblock ([bts.sacchPlen 18,[0x06,0x1d]] ++ freqListOctets o :: post) := by
  obtain ⟨o,ho,hset⟩ := EventFsm.bind_eq_ok.mp h
  cases hset
  exact ⟨o,_,ho,rfl⟩

theorem generateSi2bis_buf (h : generateSi2bis net bts st = .ok st') : ∃ o post,
    generateBcchChanList net bts.toNeighBts false .bis = .ok o
      ∧ st'.siBuf .t2bis = macblock ([siHeader (gsm48Len2plen 21) 0x02]
        ++ (if listsArfcn o then setExtInd (freqListOctets o) else freqListOctets o) :: post)
      ∧ st'.siBuf .t2 = markIf o 3 (st.siBuf .t2) := by
  obtain ⟨o,ho,hset⟩ := EventFsm.bind_eq_ok.mp h
  refine ⟨o,[bts.rachControlOctets,restOctetsSi2bis],ho,?_⟩
  unfold markIf
  dsimp only at hset
  cases hext : listsArfcn o with
  | false =>
    rw [hext] at hset
    cases hset
    exact ⟨rfl,rfl⟩
  | true =>
    rw [hext] at hset
    cases hset
    exact ⟨rfl,rfl⟩

theorem generateSi5bis_buf (h : generateSi5bis net bts st = .ok st') : ∃ o post,
    generateBcchChanList net bts.toNeighBts true .bis = .ok o
      ∧ st'.siBuf .t5bis = macblock ([bts.sacchPlen 18,[0x06,0x05]]
        ++ (if listsArfcn o then setExtInd (freqListOctets o) else freqListOctets o) :: post)
      ∧ st'.siBuf .t5 = markIf o 20 (st.siBuf .t5) := by
  obtain ⟨o,ho,hset⟩ := EventFsm.bind_eq_ok.mp h
  refine ⟨o,[],ho,?_⟩
  unfold markIf
  dsimp only at hset
  cases hext : listsArfcn o with
  | false =>
    rw [hext] at hset
    cases hset
    exact ⟨rfl,rfl⟩
  | true =>
    rw [hext] at hset
    cases hset
    exact ⟨rfl,rfl⟩

theorem macblock_length_le (parts : List (List Octet)) : gsmMacblockLen ≤ (macblock parts).length := by
  unfold macblock
  rw [List.length_append,List.length_replicate]
  omega

/-- SI2 and SI2bis always agree on EXT-IND. In SI5 the bit stays clear: `generate_si5bis`
sets it behind the message, so that the two agree only if SI5bis announces nothing. -/
theorem extInd_agrees_iff (net : NeighNetwork) (bts : SiConfig) (st st2 st2bis st5 st5bis : SiState)
    (h2 : generateSi2 net bts st = .ok st2) (h2bis : generateSi2bis net bts st2 = .ok st2bis)
    (h5 : generateSi5 net bts st = .ok st5) (h5bis : generateSi5bis net bts st5 = .ok st5bis) :
    ExtIndAgrees 3 (st2.siBuf .t2) (st2bis.siBuf .t2) (st2bis.siBuf .t2bis)
      ∧ (ExtIndAgrees bts.si5List (st5.siBuf .t5) (st5bis.siBuf .t5) (st5bis.siBuf .t5bis)
        ↔ (net.freqListArgs bts.toNeighBts true .bis).selected = []) := by
  constructor
  · obtain ⟨o,post,ho,hbuf⟩ := generateSi2_buf h2
    obtain ⟨o',post',ho',hbuf',hmark⟩ := generateSi2bis_buf h2bis
    have hoff : ∀ len type, ([siHeader len type].flatten).length = 3 := fun _ _ => rfl
    have hclear : extInd (st2.siBuf .t2) 3 = false := by
      rw [hbuf,extInd_macblock (hoff _ _)]
      exact generateBcchChanList_extInd ho
    have hlen : 3 < (st2.siBuf .t2).length := by
      rw [hbuf]
      exact lt_of_lt_of_le (by decide) (macblock_length_le _)
    rw [hbuf',hmark]
    refine ⟨?_,?_,fun i hi => ?_⟩
    · rw [decode_macblock (hoff _ _),extInd_bis (hoff _ _) (generateBcchChanList_extInd ho'),← listsArfcn_iff]
      intro hext
      rw [markIf,if_pos hext]
      exact ⟨extInd_modify_self _ hlen,hext⟩
    · rw [decode_macblock (hoff _ _),extInd_bis (hoff _ _) (generateBcchChanList_extInd ho')]
      intro hnil
      have hext : listsArfcn o' = false := by simp [listsArfcn,hnil]
      rw [markIf,hext,if_neg (by decide)]
      exact ⟨hclear,rfl⟩
    · unfold markIf
      split
      · exact List.getElem?_modify_ne _ _ (Ne.symm hi)
      · rfl
  · obtain ⟨o,post,ho,hbuf⟩ := generateSi5_buf h5
    obtain ⟨o',post',ho',hbuf',hmark⟩ := generateSi5bis_buf h5bis
    have hoff : ∀ l : List Octet, l.length = 2 → ([bts.sacchPlen 18,l].flatten).length = bts.si5List := by
      intro l hl
      simp [SiConfig.si5List,hl]
    have hne : 20 ≠ bts.si5List := by
      unfold SiConfig.si5List SiConfig.sacchPlen
      split <;> decide
    have hclear : extInd (st5.siBuf .t5) bts.si5List = false := by
      rw [hbuf,extInd_macblock (hoff _ rfl)]
      exact generateBcchChanList_extInd ho
    have hplain : extInd (st5bis.siBuf .t5) bts.si5List = false := by
      rw [hmark,markIf]
      split
      · rw [extInd_modify_ne hne,hclear]
      · exact hclear
    rw [← generateBcchChanList_lists ho']
    constructor
    · intro h
      by_contra hne
      have hmarked := (h.marked (by rw [hbuf',decode_macblock (hoff _ rfl)]; exact hne)).1
      rw [hplain] at hmarked
      cases hmarked
    · intro hnil
      have hext : listsArfcn o' = false := by simp [listsArfcn,hnil]
      refine ⟨?_,fun _ => ⟨hplain,?_⟩,fun i hi => ?_⟩
      · rw [hbuf',decode_macblock (hoff _ rfl)]
        exact fun h => absurd hnil h
      · rw [hbuf',extInd_bis (hoff _ rfl) (generateBcchChanList_extInd ho'),hext]
      · rw [hmark,markIf,hext,if_neg (by decide)]

/-- A P-GSM 900 cell of an OsmoBTS with a manual neighbour list. -/
def pgsmBts (arfcns : List Nat) : SiConfig where
  band := .band900
  c0Arfcn := 1
  nr := 0
  neighListManualMode := .manual
  neighList := fun arfcn => arfcns.contains arfcn
  type := .osmobts

def pgsmNet : NeighNetwork := { gsmArfcn2bandRc := arfcnBand }

def silentSi : SiState where
  siValid := fun _ => false
  siBuf := fun _ => List.replicate gsmMacblockLen 0
  si2qBufs := []

theorem generate_ok (hplain : ∃ o, generateBcchChanList net bts.toNeighBts si5 .plain = .ok o)
    (hbis : ∃ o, generateBcchChanList net bts.toNeighBts si5 .bis = .ok o) (st : SiState) :
    ∃ st' st'', (if si5 then generateSi5 net bts st else generateSi2 net bts st) = .ok st'
      ∧ (if si5 then generateSi5bis net bts st' else generateSi2bis net bts st') = .ok st'' := by
  obtain ⟨o,ho⟩ := hplain
  obtain ⟨o',ho'⟩ := hbis
  cases si5 with
  | false =>
    simp only [generateSi2,generateSi2bis,ho,ho',EventFsm.ok_bind]
    cases listsArfcn o' <;> exact ⟨_,_,rfl,rfl⟩
  | true =>
    simp only [generateSi5,generateSi5bis,ho,ho',EventFsm.ok_bind]
    cases listsArfcn o' <;> exact ⟨_,_,rfl,rfl⟩

theorem generate_pgsm (arfcns : List Nat) (si5 : Bool)
    (hplain : ∃ o, generateBcchChanList pgsmNet (pgsmBts arfcns).toNeighBts si5 .plain = .ok o ∧ True)
    (hbis : ∃ o, generateBcchChanList pgsmNet (pgsmBts arfcns).toNeighBts si5 .bis = .ok o ∧ True) :
    ∃ st' st'', (if si5 then generateSi5 pgsmNet (pgsmBts arfcns) silentSi
        else generateSi2 pgsmNet (pgsmBts arfcns) silentSi) = .ok st'
      ∧ (if si5 then generateSi5bis pgsmNet (pgsmBts arfcns) st'
        else generateSi2bis pgsmNet (pgsmBts arfcns) st') = .ok st'' :=
  generate_ok (hplain.imp fun _ h => h.1) (hbis.imp fun _ h => h.1) silentSi

theorem extInd_agrees_iff_pgsm : ∃ st2 st2bis st5 st5bis : SiState,
    (ExtIndAgrees 3 (st2.siBuf .t2) (st2bis.siBuf .t2) (st2bis.siBuf .t2bis)
      ∧ (ExtIndAgrees (pgsmBts [5,20]).si5List (st5.siBuf .t5) (st5bis.siBuf .t5) (st5bis.siBuf .t5bis)
        ↔ (pgsmNet.freqListArgs (pgsmBts [5,20]).toNeighBts true .bis).selected = [])) := by
  obtain ⟨st2,st2bis,h2,h2bis⟩ := generate_pgsm [5,20] false (by decide +kernel) (by decide +kernel)
  obtain ⟨st5,st5bis,h5,h5bis⟩ := generate_pgsm [5,20] true (by decide +kernel) (by decide +kernel)
  exact ⟨st2,st2bis,st5,st5bis,
    extInd_agrees_iff pgsmNet (pgsmBts [5,20]) silentSi st2 st2bis st5 st5bis h2 h2bis h5 h5bis⟩

/-- With the neighbours 5 and 1000, SI5bis announces 1000 and is marked but SI5 is not. -/
theorem extInd_si5_unmarked : ∃ st5 st5bis, generateSi5 pgsmNet (pgsmBts [5,1000]) silentSi = .ok st5
    ∧ generateSi5bis pgsmNet (pgsmBts [5,1000]) st5 = .ok st5bis
    ∧ extInd (st5bis.siBuf .t5bis) (pgsmBts [5,1000]).si5List = true
    ∧ ¬ ExtIndAgrees (pgsmBts [5,1000]).si5List (st5.siBuf .t5) (st5bis.siBuf .t5) (st5bis.siBuf .t5bis) := by
  have h : ∃ st5, generateSi5 pgsmNet (pgsmBts [5,1000]) silentSi = .ok st5
      ∧ ∃ st5bis, generateSi5bis pgsmNet (pgsmBts [5,1000]) st5 = .ok st5bis
      ∧ extInd (st5bis.siBuf .t5bis) (pgsmBts [5,1000]).si5List = true
      ∧ extInd (st5bis.siBuf .t5) (pgsmBts [5,1000]).si5List = false := by decide +kernel
  obtain ⟨st5,h5,st5bis,h5bis,hbis,hplain⟩ := h
  refine ⟨st5,st5bis,h5,h5bis,hbis,fun hagrees => ?_⟩
  by_cases hlists : decodeFreqList (octetsFrom (st5bis.siBuf .t5bis) (pgsmBts [5,1000]).si5List) = []
  · rw [(hagrees.unmarked hlists).2] at hbis
    cases hbis
  · rw [(hagrees.marked hlists).1] at hplain
    cases hplain

end Generate

end OsmoBsc.Si
