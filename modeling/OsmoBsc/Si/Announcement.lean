import OsmoBsc.Si.Neighbours
import OsmoBsc.Si.RoundTrip
set_option autoImplicit false

namespace OsmoBsc.Si

section Bitmap

variable {o o' : Octets} {arfcn min n : Nat} {L : List Nat}

/-- A buffer with bit `p` set. -/
def Octets.setBit (o : Octets) (p : Nat) : Octets :=
  Function.update o (p / 8) (o (p / 8) ||| 1#8 <<< (7 - p % 8))

theorem Octets.bit_setBit (o : Octets) (p n : Nat) : (o.setBit p).bit n = (o.bit n || n == p) := by
  rw [setBit,bit_update]
  split
  · rename_i h
    have hlt : 7 - n % 8 < 8 := by omega
    rw [← h,BitVec.getLsbD_or,Octets.bit]
    congr 1
    simp only [BitVec.getLsbD_shiftLeft,BitVec.getLsbD_one]
    by_cases hp : n = p
    · subst hp
      simp [hlt]
    · have hne : (n == p) = false := by simpa using hp
      rw [hne]
      by_cases hl : 7 - n % 8 < 7 - p % 8
      · simp [hl]
      · simp [hl]
        omega
  · rename_i h
    have hne : (n == p) = false := by
      have : n ≠ p := fun he => h (by rw [he])
      simpa using this
    rw [hne,Bool.or_false]

theorem freqListBm0SetArfcn_ok (h1 : 1 ≤ arfcn) (h2 : arfcn ≤ 124) :
    freqListBm0SetArfcn o arfcn = .ok (o.setBit (128 - arfcn)) := by
  have hq : (128 - arfcn) / 8 = 15 - (arfcn - 1) / 8 := by omega
  have hr : 7 - (128 - arfcn) % 8 = (arfcn - 1) % 8 := by omega
  rw [freqListBm0SetArfcn,if_neg (by omega),Octets.setBit,hq,hr]

theorem bit_foldlM_bm0 (hL : ∀ x ∈ L, 1 ≤ x ∧ x ≤ 124) (h : L.foldlM freqListBm0SetArfcn o = .ok o') :
    o'.bit n = true ↔ o.bit n = true ∨ ∃ x ∈ L, n = 128 - x := by
  induction L generalizing o with
  | nil =>
    cases h
    simp
  | cons x L ih =>
    have hx := hL x (by simp)
    rw [List.foldlM_cons,freqListBm0SetArfcn_ok hx.1 hx.2] at h
    rw [ih (fun y hy => hL y (by simp [hy])) h,Octets.bit_setBit]
    simp [or_assoc]

/-- The ARFCN from which a variable bit map counts, as `freq_list_bmrel_set_arfcn` reads it. -/
def minArfcnOf (o : Octets) : Nat := (o 0).toNat % 2 * 512 + (o 1).toNat * 2 + (o 2).toNat / 128

theorem freqListBmrelSetArfcn_ok (harfcn : arfcn < 1024) (hmin : minArfcnOf o = min) (hlt : min < 1024)
    (h : freqListBmrelSetArfcn o arfcn = .ok o') :
    arfcn = min ∧ o' = o ∨ ∃ n, 1 ≤ n ∧ n ≤ 111 ∧ (min + n) % 1024 = arfcn ∧ o' = o.setBit (16 + n) := by
  unfold freqListBmrelSetArfcn at h
  dsimp only at h
  rw [← minArfcnOf,hmin] at h
  split at h
  · cases h
    exact .inl ⟨by assumption,rfl⟩
  · split at h
    · cases h
    · rename_i hne hle
      refine .inr ⟨(((arfcn : Int) - min) % 1024).toNat,by omega,by omega,by omega,?_⟩
      generalize (((arfcn : Int) - min) % 1024).toNat = m at h
      have hq : (16 + m) / 8 = 2 + m / 8 := by omega
      have hr : (16 + m) % 8 = m % 8 := by omega
      rw [Octets.setBit,hq,hr]
      exact (Except.ok.inj h).symm

theorem minArfcnOf_setBit (o : Octets) (h : 1 ≤ n) : minArfcnOf (o.setBit (16 + n)) = minArfcnOf o := by
  have htop : ∀ (x : BitVec 8) (k : Fin 7), (x ||| 1#8 <<< k.val).toNat / 128 = x.toNat / 128 := by
    decide +kernel
  have h0 : (16 + n) / 8 ≠ 0 := by omega
  have h1 : (16 + n) / 8 ≠ 1 := by omega
  unfold minArfcnOf Octets.setBit
  rw [Function.update_of_ne (Ne.symm h0),Function.update_of_ne (Ne.symm h1)]
  by_cases h2 : (16 + n) / 8 = 2
  · rw [h2,Function.update_self,htop _ ⟨7 - (16 + n) % 8,by omega⟩]
  · rw [Function.update_of_ne (Ne.symm h2)]

theorem bit_foldlM_bmrel (hL : ∀ x ∈ L, x < 1024) (hmin : minArfcnOf o = min) (hlt : min < 1024)
    (h : L.foldlM freqListBmrelSetArfcn o = .ok o') :
    (∀ n ≤ 16, o'.bit n = o.bit n)
      ∧ (∀ n, 1 ≤ n → n ≤ 111 →
        (o'.bit (16 + n) = true ↔ o.bit (16 + n) = true ∨ (min + n) % 1024 ∈ L))
      ∧ ∀ x ∈ L, x = min ∨ ∃ n, 1 ≤ n ∧ n ≤ 111 ∧ (min + n) % 1024 = x := by
  induction L generalizing o with
  | nil =>
    cases h
    simp
  | cons x L ih =>
    rw [List.foldlM_cons] at h
    obtain ⟨o1,hx,hrest⟩ := EventFsm.bind_eq_ok.mp h
    have hL' : ∀ y ∈ L, y < 1024 := fun y hy => hL y (by simp [hy])
    rcases freqListBmrelSetArfcn_ok (hL x (by simp)) hmin hlt hx with ⟨rfl,rfl⟩ | ⟨m,hm1,hm2,hm,rfl⟩
    · obtain ⟨hhead,hmap,hin⟩ := ih hL' hmin hrest
      refine ⟨hhead,fun n h1 h2 => ?_,fun y hy => ?_⟩
      · have hne : (x + n) % 1024 ≠ x := by omega
        simp [hmap n h1 h2,hne]
      · rcases List.mem_cons.mp hy with rfl | hy
        · exact .inl rfl
        · exact hin y hy
    · obtain ⟨hhead,hmap,hin⟩ := ih hL' ((minArfcnOf_setBit o hm1).trans hmin) hrest
      refine ⟨fun n hn => ?_,fun n h1 h2 => ?_,fun y hy => ?_⟩
      · have hne : n ≠ 16 + m := by omega
        simp [hhead n hn,Octets.bit_setBit,hne]
      · have hiff : 16 + n = 16 + m ↔ (min + n) % 1024 = x := by omega
        simp only [hmap n h1 h2,Octets.bit_setBit,Bool.or_eq_true,beq_iff_eq,hiff,List.mem_cons]
        exact or_assoc
      · rcases List.mem_cons.mp hy with rfl | hy
        · exact .inr ⟨m,hm1,hm2,hm⟩
        · exact hin y hy

theorem writeOrigArfcn_low (h : min < 1024) :
    (writeOrigArfcn (Function.update (fun _ => 0) 0 0x8E) min) 0 = 0x8E#8 ||| BitVec.ofNat 8 (min / 512)
      ∧ (writeOrigArfcn (Function.update (fun _ => 0) 0 0x8E) min) 1 = BitVec.ofNat 8 (min / 2)
      ∧ (writeOrigArfcn (Function.update (fun _ => 0) 0 0x8E) min) 2 = BitVec.ofNat 8 (min % 2 * 128) := by
  have h9 : (min >>> 9) &&& 1 = min / 512 := by
    rw [Nat.shiftRight_eq_div_pow,Nat.and_one_is_mod]
    omega
  have h7 : (min &&& 1) <<< 7 = min % 2 * 128 := by rw [Nat.and_one_is_mod,Nat.shiftLeft_eq]
  simp only [writeOrigArfcn,h9,h7]
  refine ⟨?_,?_,?_⟩
  · rfl
  · rw [Nat.shiftRight_eq_div_pow]
    rfl
  · rfl

theorem writeOrigArfcn_minArfcnOf (h : min < 1024) :
    minArfcnOf (writeOrigArfcn (Function.update (fun _ => 0) 0 0x8E) min) = min := by
  have hodd : ∀ a < 2, (0x8E#8 ||| BitVec.ofNat 8 a).toNat % 2 = a := by decide
  obtain ⟨h0,h1,h2⟩ := writeOrigArfcn_low h
  rw [minArfcnOf,h0,h1,h2,hodd _ (by omega)]
  simp only [BitVec.toNat_ofNat]
  omega

theorem writeOrigArfcn_header (h : min < 1024) :
    let o := writeOrigArfcn (Function.update (fun _ => 0) 0 0x8E) min
    o.bit 0 = true ∧ o.bit 1 = false ∧ o.bit 4 = true ∧ o.bit 5 = true ∧ o.bit 6 = true := by
  have hbits : ∀ a < 2, (0x8E#8 ||| BitVec.ofNat 8 a).getLsbD 7 = true
      ∧ (0x8E#8 ||| BitVec.ofNat 8 a).getLsbD 6 = false ∧ (0x8E#8 ||| BitVec.ofNat 8 a).getLsbD 3 = true
      ∧ (0x8E#8 ||| BitVec.ofNat 8 a).getLsbD 2 = true
      ∧ (0x8E#8 ||| BitVec.ofNat 8 a).getLsbD 1 = true := by decide
  have := hbits (min / 512) (by omega)
  rw [← (writeOrigArfcn_low h).1] at this
  exact this

theorem writeOrigArfcn_origArfcn (h : min < 1024) :
    (writeOrigArfcn (Function.update (fun _ => 0) 0 0x8E) min).origArfcn = min := by
  obtain ⟨h0,h1,h2⟩ := writeOrigArfcn_low h
  refine Octets.field_eq (by omega) fun t ht => ?_
  rw [Octets.bit]
  by_cases ht0 : t = 0
  · subst ht0
    have hbit : ∀ a < 2, (0x8E#8 ||| BitVec.ofNat 8 a).getLsbD 0 = a.testBit 0 := by decide
    rw [h0,hbit _ (by omega),show min / 512 = min >>> 9 from (Nat.shiftRight_eq_div_pow min 9).symm,
      Nat.testBit_shiftRight]
  · by_cases ht9 : t = 9
    · subst ht9
      have hbit : ∀ c < 2, (BitVec.ofNat 8 (c * 128)).getLsbD 7 = c.testBit 0 := by decide
      rw [h2,hbit _ (by omega)]
      simp [Nat.testBit_zero]
    · have hlt : 7 - (7 + t) % 8 < 8 := by omega
      rw [show (7 + t) / 8 = 1 by omega,h1,BitVec.getLsbD_ofNat,
        show min / 2 = min >>> 1 from (Nat.shiftRight_eq_div_pow min 1).symm,Nat.testBit_shiftRight]
      simp only [hlt,decide_true,Bool.true_and]
      congr 1
      omega

theorem writeOrigArfcn_map (h : 1 ≤ n) :
    (writeOrigArfcn (Function.update (fun _ => 0) 0 0x8E) min).bit (16 + n) = false := by
  unfold writeOrigArfcn
  dsimp only
  rw [Octets.bit_update]
  split
  · have hlt : 7 - (16 + n) % 8 < 7 := by omega
    rw [BitVec.getLsbD_ofNat,Nat.testBit_shiftLeft]
    simp [hlt]
  · rw [Octets.bit_update,if_neg (by omega),Octets.bit_update,if_neg (by omega),Octets.bit_update,
      if_neg (by omega)]
    simp [Octets.bit]

end Bitmap

section Window

def wrapOrder (arfcn : Nat) : Nat := (arfcn + 69) % 1024

theorem minMaxStep_first {arfcn : Nat} (h : arfcn < 1024) :
    minMaxStep (-1,-1) arfcn = ((arfcn : Int),(arfcn : Int)) := by
  unfold minMaxStep
  dsimp only
  ext
  · split <;> omega
  · split <;> omega

theorem minMaxStep_next {min max arfcn : Nat} (hmin : min < 1024) (hmax : max < 1024) (h : arfcn < 1024) :
    minMaxStep ((min : Int),(max : Int)) arfcn
      = (((if wrapOrder arfcn < wrapOrder min then arfcn else min : Nat) : Int),
        ((if wrapOrder max < wrapOrder arfcn then arfcn else max : Nat) : Int)) := by
  unfold minMaxStep wrapOrder
  dsimp only
  ext
  · dsimp only
    split_ifs <;> omega
  · dsimp only
    split_ifs <;> omega

/-- `min` and `max` of `bitvec2freq_list` are the first and the last ARFCN of the list. -/
theorem foldl_minMaxStep {L : List Nat} {min max : Nat} (hL : ∀ x ∈ L, x < 1024) (hmin : min < 1024)
    (hmax : max < 1024) : ∃ first last : Nat,
      L.foldl minMaxStep ((min : Int),(max : Int)) = ((first : Int),(last : Int)) ∧ first ∈ min :: L
        ∧ last < 1024 ∧ (∀ x ∈ min :: L, wrapOrder first ≤ wrapOrder x)
        ∧ ∀ x ∈ max :: L, wrapOrder x ≤ wrapOrder last := by
  induction L generalizing min max with
  | nil => exact ⟨min,max,rfl,by simp,hmax,by simp,by simp⟩
  | cons y L ih =>
    have hy := hL y (by simp)
    have hL' : ∀ x ∈ L, x < 1024 := fun x hx => hL x (by simp [hx])
    rw [List.foldl_cons,minMaxStep_next hmin hmax hy]
    have hmin' : (if wrapOrder y < wrapOrder min then y else min) < 1024 := by split <;> assumption
    have hmax' : (if wrapOrder max < wrapOrder y then y else max) < 1024 := by split <;> assumption
    obtain ⟨first,last,he,hmem,hlast,hle,hge⟩ := ih hL' hmin' hmax'
    refine ⟨first,last,he,?_,hlast,?_,?_⟩
    · split at hmem
      · exact List.mem_cons_of_mem _ hmem
      · rcases List.mem_cons.mp hmem with rfl | hmem
        · exact List.mem_cons_self ..
        · exact List.mem_cons_of_mem _ (List.mem_cons_of_mem _ hmem)
    · have hfirst := hle _ (List.mem_cons_self ..)
      intro x hx
      simp only [List.mem_cons] at hx
      rcases hx with rfl | rfl | hx
      · split at hfirst <;> omega
      · split at hfirst <;> omega
      · exact hle x (by simp [hx])
    · have hend := hge _ (List.mem_cons_self ..)
      intro x hx
      simp only [List.mem_cons] at hx
      rcases hx with rfl | rfl | hx
      · split at hend <;> omega
      · split at hend <;> omega
      · exact hge x (by simp [hx])

variable {a : FreqListArgs}

theorem selected_window (a : FreqListArgs) :
    a.selected = [] ∨ ∃ min max : Nat, a.selected.foldl minMaxStep (-1,-1) = ((min : Int),(max : Int))
      ∧ min ∈ a.selected ∧ max < 1024
      ∧ ∀ x ∈ a.selected, wrapOrder min ≤ wrapOrder x ∧ wrapOrder x ≤ wrapOrder max := by
  cases hsel : a.selected with
  | nil => exact .inl rfl
  | cons y L =>
    have hlt : ∀ x ∈ y :: L, x < 1024 := fun x hx => (mem_selected.mp (hsel ▸ hx)).1
    have hy := hlt y (by simp)
    have hL : ∀ x ∈ L, x < 1024 := fun x hx => hlt x (by simp [hx])
    rw [List.foldl_cons,minMaxStep_first hy]
    obtain ⟨min,max,he,hmem,hmax,hle,hge⟩ := foldl_minMaxStep hL hy hy
    exact .inr ⟨min,max,he,hmem,hmax,fun x hx => ⟨hle x hx,hge x hx⟩⟩

theorem format_bitmap0 : a.format = .bitmap0 ↔ (!a.bis && !a.ter && a.pgsm) = true := by
  unfold FreqListArgs.format
  split
  · rename_i h
    simp [h]
  · rename_i h
    simp only [h]
    split_ifs <;> simp

theorem format_empty (h : a.format = .empty) : a.selected = [] := by
  rcases selected_window a with hnil | ⟨min,max,hwin,-⟩
  · exact hnil
  · unfold FreqListArgs.format at h
    rw [hwin] at h
    dsimp only at h
    rw [if_neg (show ¬ (max : Int) = -1 by omega)] at h
    split_ifs at h

theorem format_varBitmap {min : Nat} (h : a.format = .varBitmap min) :
    min ∈ a.selected ∧ ∀ x ∈ a.selected, wrapOrder min ≤ wrapOrder x := by
  rcases selected_window a with hnil | ⟨min',max,hwin,hmin,-,hle⟩
  · unfold FreqListArgs.format at h
    rw [hnil] at h
    split_ifs at h
    cases h
  · unfold FreqListArgs.format at h
    rw [hwin] at h
    dsimp only at h
    split_ifs at h
    cases h
    exact ⟨hmin,fun x hx => (hle x hx).1⟩

/-- In a variable bit map no ARFCN is more than 111 behind the first one. -/
theorem format_varBitmap_window {min : Nat} (h : a.format = .varBitmap min) {x : Nat} (hx : x ∈ a.selected) :
    (((x : Int) - min) % 1024).toNat ≤ 111 := by
  rcases selected_window a with hnil | ⟨first,last,hwin,hmem,hlast,hle⟩
  · rw [hnil] at hx
    cases hx
  · unfold FreqListArgs.format at h
    rw [hwin] at h
    dsimp only at h
    split_ifs at h with _ _ hfit
    cases h
    have h1 := hle x hx
    have h2 := (mem_selected.mp hx).1
    have h3 := (mem_selected.mp hmem).1
    unfold wrapOrder at h1
    simp only [Int.toNat_natCast]
    omega

end Window

section Decode

variable {a : FreqListArgs} {o : Octets} {arfcn : Nat}

/-- The ARFCNs that the octets of a list stand for, in the format that was chosen. -/
def FreqListArgs.Carries (a : FreqListArgs) (arfcn : Nat) : Prop :=
  match a.format with
  | .bitmap0 => 1 ≤ arfcn ∧ arfcn ≤ 124 ∧ a.bv arfcn = true
  | .empty => False
  | .varBitmap min => arfcn = min ∨ arfcn < 1024 ∧ a.varBitmapSelects arfcn = true
  | .range => arfcn ∈ a.selected

/-- A list in a Range format is encoded without F0 and without a 17th ARFCN. -/
def FreqListArgs.RangeExact (a : FreqListArgs) : Prop :=
  a.format = .range → rangeEncDetermineRange a.selected 0 = some (.r1024,0) ∧ 0 ∉ a.selected
    ∧ a.selected.length ≤ 16

theorem decode_bitmap0 (hf : a.format = .bitmap0) (hok : bitvec2freqList a = .ok o) :
    arfcn ∈ decodeFreqList o ↔ 1 ≤ arfcn ∧ arfcn ≤ 124 ∧ a.bv arfcn = true := by
  simp only [bitvec2freqList,hf] at hok
  have hbit : ∀ n, o.bit n = true ↔ ∃ x, (1 ≤ x ∧ x ≤ 124 ∧ a.bv x = true) ∧ n = 128 - x := by
    intro n
    rw [bit_foldlM_bm0 (by simp; omega) hok]
    simp [Octets.bit,Bitvec.bits]
    grind
  have h0 : o.bit 0 = false := by
    rw [← Bool.not_eq_true,hbit]
    grind
  have h1 : o.bit 1 = false := by
    rw [← Bool.not_eq_true,hbit]
    grind
  simp only [decodeFreqList,h0,h1,List.mem_filter,List.mem_range,Bool.and_eq_true,decide_eq_true_eq,hbit]
  constructor
  · rintro ⟨hlt,h1,x,hx,he⟩
    have : x = arfcn := by omega
    subst this
    exact hx
  · rintro ⟨h1,h2,hbv⟩
    exact ⟨by omega,h1,arfcn,⟨h1,h2,hbv⟩,rfl⟩

theorem decode_empty : arfcn ∉ decodeFreqList (fun _ => 0) := by
  simp [decodeFreqList,Octets.bit]

theorem decode_varBitmap {min : Nat} (hf : a.format = .varBitmap min) (hok : bitvec2freqList a = .ok o) :
    arfcn ∈ decodeFreqList o ↔ arfcn = min ∨ arfcn < 1024 ∧ a.varBitmapSelects arfcn = true := by
  have hmin : min < 1024 := (mem_selected.mp (format_varBitmap hf).1).1
  simp only [bitvec2freqList,hf,encFreqLstVarBitmap] at hok
  obtain ⟨hhead,hmap,hin⟩ := bit_foldlM_bmrel (by simp [Bitvec.bits]; omega)
    (writeOrigArfcn_minArfcnOf hmin) hmin hok
  obtain ⟨h0,h1,h4,h5,h6⟩ := writeOrigArfcn_header hmin
  have horig : o.origArfcn = min := by
    rw [← writeOrigArfcn_origArfcn hmin]
    exact Octets.field_congr fun t ht => hhead _ (by omega)
  have hbit : ∀ n, 1 ≤ n → n ≤ 111 → (o.bit (16 + n) = true ↔ a.varBitmapSelects ((min + n) % 1024) = true) := by
    intro n h1 h2
    rw [hmap n h1 h2,writeOrigArfcn_map h1]
    simp [Bitvec.bits]
    omega
  simp only [decodeFreqList,hhead 0 (by omega),hhead 1 (by omega),hhead 4 (by omega),hhead 5 (by omega),
    hhead 6 (by omega),h0,h1,h4,h5,h6,horig,List.mem_cons,List.mem_map,List.mem_filter,List.mem_range,
    Bool.and_eq_true,decide_eq_true_eq]
  refine or_congr_right' fun hne => ?_
  constructor
  · rintro ⟨n,⟨hlt,h1,hn⟩,rfl⟩
    exact ⟨by omega,(hbit n h1 (by omega)).mp hn⟩
  · rintro ⟨hlt,hsel⟩
    obtain ⟨n,h1,h2,rfl⟩ := (hin arfcn (by simp [Bitvec.bits,hlt,hsel])).resolve_left hne
    exact ⟨n,⟨by omega,h1,(hbit n h1 h2).mpr hsel⟩,rfl⟩

theorem mem_decodeFreqList (hok : bitvec2freqList a = .ok o) (hr : a.RangeExact) :
    arfcn ∈ decodeFreqList o ↔ a.Carries arfcn := by
  unfold FreqListArgs.Carries
  cases hf : a.format with
  | bitmap0 => exact decode_bitmap0 hf hok
  | empty =>
    simp only [bitvec2freqList,hf] at hok
    cases hok
    exact iff_of_false decode_empty id
  | varBitmap min => exact decode_varBitmap hf hok
  | range =>
    obtain ⟨hrange,h0,hlen⟩ := hr hf
    exact decodeFreqList_encFreqLstRange (bitvec2freqList_range hf hok) hrange h0 hlen arfcn

end Decode

section Announce

variable {net : NeighNetwork} {bts : NeighBts} {si5 : Bool} {lists : SiPart → Octets} {o o' : Octets}

theorem wPos_lt {start wSize w1Len k t : Nat} (hend : start + wPos w1Len wSize ≤ 128) (h1 : 1 ≤ k)
    (hk : k ≤ wSize) (ht : t < wWidth w1Len k) : start + wPos w1Len (k - 1) + t < 128 := by
  have hmono := wPos_mono w1Len hk
  have hstep : wPos w1Len k = wPos w1Len (k - 1) + wWidth w1Len k := by
    conv_lhs => rw [← Nat.sub_add_cancel h1,wPos,Nat.sub_add_cancel h1]
  omega

theorem Octets.w_congr {start wSize w1Len : Nat} (hstart : 4 ≤ start) (hend : start + wPos w1Len wSize ≤ 128)
    (h : ∀ n, 4 ≤ n → n < 128 → o.bit n = o'.bit n) : o.w start wSize w1Len = o'.w start wSize w1Len := by
  funext k
  unfold Octets.w
  split
  · rename_i hk
    exact Octets.field_congr fun t ht => h _ (by omega) (wPos_lt hend hk.1 hk.2 ht)
  · rfl

theorem decodeFreqList_congr (h : ∀ n < 128, n ≠ 2 → n ≠ 3 → o.bit n = o'.bit n) :
    decodeFreqList o = decodeFreqList o' := by
  have h4 : ∀ n, 4 ≤ n → n < 128 → o.bit n = o'.bit n := fun n hn hlt => h n hlt (by omega) (by omega)
  have horig : o.origArfcn = o'.origArfcn := Octets.field_congr fun t _ => h4 _ (by omega) (by omega)
  have hmap : ((List.range 125).filter fun n => 1 ≤ n && o.bit (128 - n))
      = (List.range 125).filter fun n => 1 ≤ n && o'.bit (128 - n) := by
    refine List.filter_congr fun n hn => ?_
    have := List.mem_range.mp hn
    by_cases h1 : 1 ≤ n
    · rw [h4 _ (by omega) (by omega)]
    · simp [h1]
  have hrel : ((List.range 112).filter fun n => 1 ≤ n && o.bit (16 + n))
      = (List.range 112).filter fun n => 1 ≤ n && o'.bit (16 + n) := by
    refine List.filter_congr fun n hn => ?_
    have := List.mem_range.mp hn
    rw [h4 _ (by omega) (by omega)]
  unfold decodeFreqList Octets.decodeRange Octets.decodeRange1024
  rw [h 0 (by omega) (by omega) (by omega),h 1 (by omega) (by omega) (by omega),h4 4 (by omega) (by omega),
    h4 5 (by omega) (by omega),h4 6 (by omega) (by omega),horig,hmap,hrel,
    Octets.w_congr (by omega) (by decide) h4,Octets.w_congr (by omega) (by decide) h4,
    Octets.w_congr (by omega) (by decide) h4,Octets.w_congr (by omega) (by decide) h4]

theorem decodeFreqList_setBaInd : decodeFreqList (setBaInd o si5) = decodeFreqList o := by
  refine decodeFreqList_congr fun n _ h2 h3 => ?_
  rw [setBaInd,Octets.bit_update]
  split
  · rename_i h0
    have hbit : ∀ i < 8, i ≠ 4 → (0x10#8).getLsbD i = false := by decide
    have hlt : 7 - n % 8 < 8 := by omega
    have hoff := hbit _ hlt (by omega)
    rw [Octets.bit,h0]
    cases si5 with
    | true => rw [if_pos rfl,BitVec.getLsbD_or,hoff,Bool.or_false]
    | false =>
      rw [if_neg (by simp),BitVec.getLsbD_and,BitVec.getLsbD_not,hoff]
      simp [hlt]
  · rfl

/-- `force_combined_si` of the BTS or, unless it is set, of its model. -/
def Bts.combined (bts : Bts) : Bool :=
  if bts.forceCombinedSiSet then bts.forceCombinedSi else bts.modelForceCombinedSi

def FreqListArgs.part (a : FreqListArgs) (arfcn : Nat) : SiPart :=
  if a.bts.combined then .plain
  else if !a.bandCompatible arfcn then .ter
  else if a.pgsm && (arfcn < 1 || 124 < arfcn) then .bis
  else .plain

/-- With `force_combined_si`, neighbours that the format does not drop: those of a bit
map 0, and in a variable bit map those of the own band and the lowest one. -/
def FreqListArgs.CombinedExact (a : FreqListArgs) : Prop :=
  a.bts.combined = true → ∀ arfcn < 1024, a.bv arfcn = true → match a.format with
    | .bitmap0 => 1 ≤ arfcn ∧ arfcn ≤ 124
    | .varBitmap _ => a.bandCompatible arfcn = true
      ∨ ∀ other < 1024, a.bv other = true → wrapOrder arfcn ≤ wrapOrder other
    | _ => True

/-- Every neighbour is announced in one of the three messages, and in one only. -/
structure AnnouncedOnce (bv : Bitvec) (lists : SiPart → Octets) : Prop where
  whole : ∀ arfcn, (∃ part, arfcn ∈ decodeFreqList (lists part)) ↔ arfcn < 1024 ∧ bv arfcn = true
  once : ∀ arfcn p q, arfcn ∈ decodeFreqList (lists p) → arfcn ∈ decodeFreqList (lists q) → p = q

theorem useArfcn_combined {a : FreqListArgs} (hc : a.bts.combined = true) (arfcn : Nat) :
    a.useArfcn arfcn = (!a.bis && !a.ter) := by
  unfold Bts.combined at hc
  rw [FreqListArgs.useArfcn,if_pos hc]

theorem useArfcn_separate {a : FreqListArgs} (hc : a.bts.combined = false) (arfcn : Nat) :
    a.useArfcn arfcn = ((!a.bis && !a.ter && a.bandCompatible arfcn)
      || (a.bis && a.pgsm && a.bandCompatible arfcn && (arfcn < 1 || 124 < arfcn))
      || (a.ter && !a.bandCompatible arfcn)) := by
  unfold Bts.combined at hc
  rw [FreqListArgs.useArfcn,if_neg (by rw [hc]; decide)]
  generalize (decide (arfcn < 1) || decide (124 < arfcn)) = outside
  cases a.bis <;> cases a.ter <;> cases a.bandCompatible arfcn <;> cases a.pgsm <;> cases outside <;> rfl

theorem varBitmapSelects_eq {a : FreqListArgs} (hc : a.bts.combined = false) (arfcn : Nat) :
    a.varBitmapSelects arfcn = a.selects arfcn := by
  rw [FreqListArgs.selects,useArfcn_separate hc,FreqListArgs.varBitmapSelects]

/-- Without `force_combined_si` a list carries the neighbours that were selected, except
that bit map 0 has only those from 1 to 124. -/
theorem carries_selected {a : FreqListArgs} {arfcn : Nat} (hc : a.bts.combined = false) :
    a.Carries arfcn ↔ if a.format = .bitmap0 then 1 ≤ arfcn ∧ arfcn ≤ 124 ∧ a.bv arfcn = true
      else arfcn ∈ a.selected := by
  have hsel : arfcn < 1024 ∧ a.varBitmapSelects arfcn = true ↔ arfcn ∈ a.selected := by
    rw [varBitmapSelects_eq hc]
    simp [FreqListArgs.selected,Bitvec.bits]
  unfold FreqListArgs.Carries
  cases hf : a.format with
  | bitmap0 => simp
  | empty => simp [format_empty hf]
  | varBitmap min =>
    have hmin := (format_varBitmap hf).1
    simp only [hsel,reduceCtorEq,if_false]
    exact ⟨fun h => h.elim (fun h => h ▸ hmin) id,.inr⟩
  | range => simp

theorem useArfcn_part {a : FreqListArgs} {part : SiPart} {arfcn : Nat} (hb : a.bis = (part == .bis))
    (ht : a.ter = (part == .ter)) (hc : a.bts.combined = false)
    (hf : (!a.bis && !a.ter && a.pgsm) = false) :
    a.useArfcn arfcn = true ↔ a.part arfcn = part := by
  rw [useArfcn_separate hc,FreqListArgs.part,if_neg (by rw [hc]; decide)]
  rw [hb,ht] at hf ⊢
  generalize (decide (arfcn < 1) || decide (124 < arfcn)) = outside
  generalize a.bandCompatible arfcn = compatible
  generalize a.pgsm = pgsm at hf ⊢
  revert hf
  cases part <;> cases compatible <;> cases pgsm <;> cases outside <;> decide

theorem carries_part {a : FreqListArgs} {part : SiPart} {arfcn : Nat} (hb : a.bis = (part == .bis))
    (ht : a.ter = (part == .ter)) (hc : a.bts.combined = false)
    (hin : a.pgsm = true → 1 ≤ arfcn → arfcn ≤ 124 → a.bandCompatible arfcn = true) :
    a.Carries arfcn ↔ arfcn < 1024 ∧ a.bv arfcn = true ∧ a.part arfcn = part := by
  rw [carries_selected hc]
  by_cases hf : a.format = .bitmap0
  · have hplain := format_bitmap0.mp hf
    simp only [Bool.and_eq_true,Bool.not_eq_true'] at hplain
    obtain ⟨⟨hbis,hter⟩,hp⟩ := hplain
    have hpart : part = .plain := by
      cases part <;> simp_all
    subst hpart
    rw [if_pos hf,FreqListArgs.part,if_neg (by rw [hc]; decide),hp]
    constructor
    · rintro ⟨h1,h2,hbv⟩
      refine ⟨by omega,hbv,?_⟩
      rw [if_neg (by simp [hin hp h1 h2]),if_neg (by simp; omega)]
    · rintro ⟨-,hbv,hpart⟩
      split_ifs at hpart with hcompat hout
      simp only [Bool.true_and,Bool.or_eq_true,decide_eq_true_eq] at hout
      exact ⟨by omega,by omega,hbv⟩
  · rw [if_neg hf,mem_selected]
    rw [format_bitmap0] at hf
    rw [useArfcn_part hb ht hc (by simpa using hf)]

theorem not_carries_combined {a : FreqListArgs} (hc : a.bts.combined = true) (h : (!a.bis && !a.ter) = false)
    (arfcn : Nat) : ¬ a.Carries arfcn := by
  have hsel : a.selected = [] := by
    refine List.eq_nil_iff_forall_not_mem.mpr fun x hx => ?_
    have huse := (mem_selected.mp hx).2.2
    rw [useArfcn_combined hc,h] at huse
    cases huse
  unfold FreqListArgs.Carries
  cases hf : a.format with
  | bitmap0 =>
    have := format_bitmap0.mp hf
    rw [h] at this
    cases this
  | empty => exact id
  | varBitmap min =>
    have hmin := (format_varBitmap hf).1
    rw [hsel] at hmin
    cases hmin
  | range => simp [hsel]

theorem wrapOrder_inj {x y : Nat} (hx : x < 1024) (hy : y < 1024) (h : wrapOrder x = wrapOrder y) : x = y := by
  unfold wrapOrder at h
  omega

theorem carries_combined_iff {a : FreqListArgs} (hc : a.bts.combined = true) (hb : a.bis = false)
    (ht : a.ter = false) :
    (∀ arfcn, a.Carries arfcn ↔ arfcn < 1024 ∧ a.bv arfcn = true) ↔ a.CombinedExact := by
  have hsel : ∀ x, x ∈ a.selected ↔ x < 1024 ∧ a.bv x = true := by
    intro x
    rw [mem_selected,useArfcn_combined hc,hb,ht]
    simp
  unfold FreqListArgs.Carries FreqListArgs.CombinedExact
  cases hf : a.format with
  | bitmap0 =>
    constructor
    · intro h _ x hx hbv
      exact ⟨((h x).mpr ⟨hx,hbv⟩).1,((h x).mpr ⟨hx,hbv⟩).2.1⟩
    · intro h x
      refine ⟨fun hx => ⟨by omega,hx.2.2⟩,fun hx => ?_⟩
      have := h hc x hx.1 hx.2
      exact ⟨this.1,this.2,hx.2⟩
  | empty =>
    have hnil := format_empty hf
    refine iff_of_true (fun x => ?_) (fun _ _ _ _ => trivial)
    rw [← hsel,hnil]
    simp
  | varBitmap min =>
    obtain ⟨hmin,hle⟩ := format_varBitmap hf
    obtain ⟨hlt,hbv⟩ := (hsel min).mp hmin
    have hvar : ∀ x, a.varBitmapSelects x = true ↔ a.bv x = true ∧ a.bandCompatible x = true := by
      intro x
      simp [FreqListArgs.varBitmapSelects,hb,ht]
    simp only [hvar]
    constructor
    · intro h _ x hx hxbv
      rcases (h x).mpr ⟨hx,hxbv⟩ with rfl | ⟨-,-,hcomp⟩
      · exact .inr fun y hy hybv => hle y ((hsel y).mpr ⟨hy,hybv⟩)
      · exact .inl hcomp
    · intro h x
      constructor
      · rintro (rfl | ⟨hx,hxbv,-⟩)
        · exact ⟨hlt,hbv⟩
        · exact ⟨hx,hxbv⟩
      · rintro ⟨hx,hxbv⟩
        rcases h hc x hx hxbv with hcomp | hlow
        · exact .inr ⟨hx,hxbv,hcomp⟩
        · have h1 := hlow min hlt hbv
          have h2 := hle x ((hsel x).mpr ⟨hx,hxbv⟩)
          exact .inl (wrapOrder_inj hx hlt (by omega))
  | range => exact iff_of_true hsel (fun _ _ _ _ => trivial)

theorem bandCompatible_pgsm {part : SiPart} {arfcn : Nat}
    (hband : ∀ arfcn, 1 ≤ arfcn → arfcn ≤ 124 → net.gsmArfcn2bandRc arfcn = some .band900)
    (hp : (net.freqListArgs bts si5 part).pgsm = true) (h1 : 1 ≤ arfcn) (h2 : arfcn ≤ 124) :
    (net.freqListArgs bts si5 part).bandCompatible arfcn = true := by
  have hrc : (net.freqListArgs bts si5 part).gsmArfcn2bandRc arfcn = some .band900 := hband arfcn h1 h2
  simp only [FreqListArgs.pgsm,Bool.and_eq_true,beq_iff_eq] at hp
  simp [FreqListArgs.bandCompatible,hrc,hp.1.1]

theorem mem_lists {part : SiPart} (hok : generateBcchChanList net bts si5 part = .ok (lists part))
    (hrange : (net.freqListArgs bts si5 part).RangeExact) (arfcn : Nat) :
    arfcn ∈ decodeFreqList (lists part) ↔ (net.freqListArgs bts si5 part).Carries arfcn := by
  obtain ⟨o,ho,hset⟩ := EventFsm.bind_eq_ok.mp hok
  have hset : setBaInd o si5 = lists part := Except.ok.inj hset
  rw [← hset,decodeFreqList_setBaInd]
  exact mem_decodeFreqList ho hrange

theorem carries_combined {part : SiPart} {arfcn : Nat} (hc : bts.combined = true)
    (hcombined : (net.freqListArgs bts si5 .plain).CombinedExact) :
    (net.freqListArgs bts si5 part).Carries arfcn ↔ arfcn < 1024 ∧ net.bcchList bts si5 arfcn = true
      ∧ SiPart.plain = part := by
  have hcomb : (net.freqListArgs bts si5 part).bts.combined = true := hc
  by_cases hpart : part = .plain
  · subst hpart
    rw [and_iff_left rfl]
    exact (carries_combined_iff hcomb rfl rfl).mpr hcombined arfcn
  · refine iff_of_false (not_carries_combined hcomb ?_ arfcn) fun h => hpart h.2.2.symm
    cases part <;> first | rfl | exact absurd rfl hpart

theorem mem_lists_part {part : SiPart} {arfcn : Nat}
    (hok : generateBcchChanList net bts si5 part = .ok (lists part))
    (hband : ∀ arfcn, 1 ≤ arfcn → arfcn ≤ 124 → net.gsmArfcn2bandRc arfcn = some .band900)
    (hrange : (net.freqListArgs bts si5 part).RangeExact)
    (hcombined : (net.freqListArgs bts si5 .plain).CombinedExact) :
    arfcn ∈ decodeFreqList (lists part) ↔ arfcn < 1024 ∧ net.bcchList bts si5 arfcn = true
      ∧ (net.freqListArgs bts si5 .plain).part arfcn = part := by
  rw [mem_lists hok hrange]
  cases hc : bts.combined with
  | true =>
    have hplain : (net.freqListArgs bts si5 .plain).part arfcn = .plain := if_pos hc
    rw [hplain]
    exact carries_combined hc hcombined
  | false => exact carries_part rfl rfl hc (bandCompatible_pgsm hband)

/-- The messages SI2, SI2bis and SI2ter or SI5, SI5bis and SI5ter announce every
neighbour exactly once, unless `force_combined_si` puts one into the first message that
its format drops. -/
theorem announced_once_iff (net : NeighNetwork) (bts : NeighBts) (si5 : Bool) (lists : SiPart → Octets)
    (hok : ∀ part, generateBcchChanList net bts si5 part = .ok (lists part))
    (hband : ∀ arfcn, 1 ≤ arfcn → arfcn ≤ 124 → net.gsmArfcn2bandRc arfcn = some .band900)
    (hrange : ∀ part, (net.freqListArgs bts si5 part).RangeExact) :
    AnnouncedOnce (net.bcchList bts si5) lists ↔ (net.freqListArgs bts si5 .plain).CombinedExact := by
  constructor
  · intro h hc
    have hcomb : ∀ part, (net.freqListArgs bts si5 part).bts.combined = true := fun _ => hc
    have hmem : ∀ part arfcn, arfcn ∈ decodeFreqList (lists part)
        ↔ (net.freqListArgs bts si5 part).Carries arfcn := fun part => mem_lists (hok part) (hrange part)
    refine (carries_combined_iff (hcomb .plain) rfl rfl).mp (fun arfcn => ?_) hc
    refine Iff.trans ?_ (h.whole arfcn)
    rw [← hmem]
    refine ⟨fun hx => ⟨_,hx⟩,fun ⟨part,hx⟩ => ?_⟩
    by_cases hpart : part = .plain
    · exact hpart ▸ hx
    · refine absurd ((hmem part arfcn).mp hx) (not_carries_combined (hcomb part) ?_ arfcn)
      cases part <;> first | rfl | exact absurd rfl hpart
  · intro hcombined
    have hpart : ∀ part arfcn, arfcn ∈ decodeFreqList (lists part) ↔ arfcn < 1024
        ∧ net.bcchList bts si5 arfcn = true
        ∧ (net.freqListArgs bts si5 .plain).part arfcn = part :=
      fun part _ => mem_lists_part (hok part) hband (hrange part) hcombined
    refine ⟨fun arfcn => ?_,fun arfcn p q hp hq => ?_⟩
    · simp only [hpart]
      exact ⟨fun ⟨_,h1,h2,_⟩ => ⟨h1,h2⟩,fun ⟨h1,h2⟩ => ⟨_,h1,h2,rfl⟩⟩
    · exact ((hpart p _).mp hp).2.2.symm.trans ((hpart q _).mp hq).2.2

end Announce

/-- A DCS 1800 BTS with a manual neighbour list. -/
def dcsBts (arfcns : List Nat) (combined : Bool) : NeighBts where
  band := .band1800
  c0Arfcn := 600
  forceCombinedSiSet := true
  forceCombinedSi := combined
  nr := 0
  neighListManualMode := .manual
  neighList := fun arfcn => arfcns.contains arfcn

theorem announced_once_iff_dcs : ∃ lists,
    (∀ part, generateBcchChanList { gsmArfcn2bandRc := arfcnBand } (dcsBts [5,20,600,610] false) false part
      = .ok (lists part))
    ∧ (AnnouncedOnce ((dcsBts [5,20,600,610] false).neighList) lists
      ↔ (NeighNetwork.freqListArgs { gsmArfcn2bandRc := arfcnBand } (dcsBts [5,20,600,610] false) false
        .plain).CombinedExact) := by
  have hok : ∀ part, ∃ o, generateBcchChanList { gsmArfcn2bandRc := arfcnBand }
      (dcsBts [5,20,600,610] false) false part = .ok o ∧ True := by
    intro part
    cases part <;> decide +kernel
  choose lists hlists using hok
  refine ⟨lists,fun part => (hlists part).1,announced_once_iff _ _ _ lists (fun part => (hlists part).1) ?_ ?_⟩
  · intro arfcn _ h2
    exact if_pos (.inl h2)
  · intro part hf
    refine absurd hf ?_
    cases part <;> decide +kernel

/-- With `force_combined_si` the neighbours 5 and 20 of a DCS 1800 cell go into one variable
bit map, which is filled by band: 20 is announced nowhere. -/
theorem combined_neighbour_dropped : ∃ lists,
    (∀ part, generateBcchChanList { gsmArfcn2bandRc := arfcnBand } (dcsBts [5,20] true) false part
      = .ok (lists part))
    ∧ ¬ AnnouncedOnce (NeighNetwork.bcchList { gsmArfcn2bandRc := arfcnBand } (dcsBts [5,20] true) false)
      lists := by
  have hok : ∀ part, ∃ o, generateBcchChanList { gsmArfcn2bandRc := arfcnBand } (dcsBts [5,20] true) false
      part = .ok o ∧ 20 ∉ decodeFreqList o := by
    intro part
    cases part <;> decide +kernel
  choose lists hlists using hok
  refine ⟨lists,fun part => (hlists part).1,fun h => ?_⟩
  obtain ⟨part,hmem⟩ := (h.whole 20).mpr (by decide)
  exact (hlists part).2 hmem

end OsmoBsc.Si
