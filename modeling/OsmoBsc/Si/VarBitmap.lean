import OsmoBsc.Si.Announcement
set_option autoImplicit false

namespace OsmoBsc.Si

/-- With `force_combined_si` a variable bit map is filled by band nevertheless: it is
exact if no neighbour has another band, the first one apart, which the header carries. -/
def FreqListArgs.VarBitmapExact (a : FreqListArgs) : Prop :=
  a.bts.combined = true → ∀ arfcn < 1024, a.bv arfcn = true → a.bandCompatible arfcn = true
    ∨ ∀ other < 1024, a.bv other = true → wrapOrder arfcn ≤ wrapOrder other

section VarBitmap

variable {a : FreqListArgs} {o : Octets} {arfcn min : Nat} {L : List Nat}

theorem combined_plain (hf : a.format = .varBitmap min) (hc : a.bts.combined = true) :
    a.bis = false ∧ a.ter = false := by
  have hmin := (mem_selected.mp (format_varBitmap hf).1).2.2
  rw [useArfcn_combined hc] at hmin
  simpa using hmin

theorem varBitmapSelects_combined (hf : a.format = .varBitmap min) (hc : a.bts.combined = true) :
    a.varBitmapSelects arfcn = true ↔ a.bv arfcn = true ∧ a.bandCompatible arfcn = true := by
  obtain ⟨hb,ht⟩ := combined_plain hf hc
  simp [FreqListArgs.varBitmapSelects,hb,ht]

theorem mem_selected_combined (hf : a.format = .varBitmap min) (hc : a.bts.combined = true) :
    arfcn ∈ a.selected ↔ arfcn < 1024 ∧ a.bv arfcn = true := by
  obtain ⟨hb,ht⟩ := combined_plain hf hc
  rw [mem_selected,useArfcn_combined hc,hb,ht]
  simp

theorem mem_selected_of_varBitmapSelects (hf : a.format = .varBitmap min) (h : arfcn < 1024)
    (hsel : a.varBitmapSelects arfcn = true) : arfcn ∈ a.selected := by
  cases hc : a.bts.combined with
  | false =>
    rw [varBitmapSelects_eq hc] at hsel
    simpa [FreqListArgs.selected,Bitvec.bits,h] using hsel
  | true =>
    rw [mem_selected_combined hf hc]
    exact ⟨h,((varBitmapSelects_combined hf hc).mp hsel).1⟩

theorem freqListBmrelSetArfcn_fits (hmin : minArfcnOf o = min) (h : arfcn < 1024)
    (hlt : min < 1024) (hfit : (((arfcn : Int) - min) % 1024).toNat ≤ 111) :
    ∃ o', freqListBmrelSetArfcn o arfcn = .ok o' ∧ minArfcnOf o' = min := by
  unfold freqListBmrelSetArfcn
  dsimp only
  rw [← minArfcnOf,hmin]
  by_cases he : arfcn = min
  · rw [if_pos he]
    exact ⟨o,rfl,hmin⟩
  · rw [if_neg he,if_neg (by omega)]
    refine ⟨_,rfl,?_⟩
    generalize hn : (((arfcn : Int) - min) % 1024).toNat = n at hfit
    have hset := minArfcnOf_setBit o (n := n) (by omega)
    have hq : (16 + n) / 8 = 2 + n / 8 := by omega
    have hr : (16 + n) % 8 = n % 8 := by omega
    rw [Octets.setBit,hq,hr] at hset
    exact hset.trans hmin

theorem foldlM_bmrel_fits (hmin : minArfcnOf o = min) (hlt : min < 1024)
    (hL : ∀ x ∈ L, x < 1024 ∧ (((x : Int) - min) % 1024).toNat ≤ 111) :
    ∃ o', L.foldlM freqListBmrelSetArfcn o = .ok o' := by
  induction L generalizing o with
  | nil => exact ⟨o,rfl⟩
  | cons x L ih =>
    obtain ⟨h,hfit⟩ := hL x (by simp)
    obtain ⟨o1,ho1,hmin1⟩ := freqListBmrelSetArfcn_fits hmin h hlt hfit
    obtain ⟨o2,ho2⟩ := ih hmin1 fun y hy => hL y (by simp [hy])
    refine ⟨o2,?_⟩
    rw [List.foldlM_cons,ho1]
    exact ho2

theorem encFreqLstVarBitmap_ok (hf : a.format = .varBitmap min) :
    ∃ o, encFreqLstVarBitmap a (fun _ => 0) min = .ok o := by
  have hmin : min < 1024 := (mem_selected.mp (format_varBitmap hf).1).1
  refine foldlM_bmrel_fits (writeOrigArfcn_minArfcnOf hmin) hmin fun x hx => ?_
  obtain ⟨hx,hsel⟩ := List.mem_filter.mp hx
  have hx := List.mem_range.mp hx
  exact ⟨hx,format_varBitmap_window hf (mem_selected_of_varBitmapSelects hf hx hsel)⟩

/-- A variable bit map is always encoded, and is read back as the ARFCNs for which `min`
and `max` were computed unless `force_combined_si` mixes bands. -/
theorem varBitmap_agrees_iff (a : FreqListArgs) (min : Nat) (hf : a.format = .varBitmap min) :
    ∃ o, encFreqLstVarBitmap a (fun _ => 0) min = .ok o
      ∧ ((∀ arfcn, arfcn ∈ decodeFreqList o ↔ arfcn ∈ a.selected) ↔ a.VarBitmapExact) := by
  obtain ⟨o,ho⟩ := encFreqLstVarBitmap_ok hf
  obtain ⟨hfirst,hle⟩ := format_varBitmap hf
  have hok : bitvec2freqList a = .ok o := by
    simp only [bitvec2freqList,hf]
    exact ho
  refine ⟨o,ho,?_⟩
  simp only [decode_varBitmap hf hok]
  cases hc : a.bts.combined with
  | false =>
    refine iff_of_true (fun x => ?_) fun h => by simp [hc] at h
    constructor
    · rintro (rfl | ⟨hx,hsel⟩)
      · exact hfirst
      · exact mem_selected_of_varBitmapSelects hf hx hsel
    · intro hx
      rw [varBitmapSelects_eq hc]
      have h := mem_selected.mp hx
      exact .inr ⟨h.1,by simp [FreqListArgs.selects,h.2.1,h.2.2]⟩
  | true =>
    simp only [mem_selected_combined hf hc] at hfirst hle ⊢
    simp only [varBitmapSelects_combined hf hc]
    constructor
    · intro h _ x hx hbv
      rcases (h x).mpr ⟨hx,hbv⟩ with rfl | ⟨-,-,hband⟩
      · exact .inr fun y hy hybv => hle y ⟨hy,hybv⟩
      · exact .inl hband
    · intro h x
      constructor
      · rintro (rfl | ⟨hx,hbv,-⟩)
        · exact hfirst
        · exact ⟨hx,hbv⟩
      · rintro ⟨hx,hbv⟩
        rcases h hc x hx hbv with hband | hlow
        · exact .inr ⟨hx,hbv,hband⟩
        · have h1 := hlow min hfirst.1 hfirst.2
          have h2 := hle x ⟨hx,hbv⟩
          exact .inl (wrapOrder_inj hx hfirst.1 (by omega))

def wrapping : FreqListArgs where
  gsmArfcn2bandRc := arfcnBand
  bts := { band := .band900, c0Arfcn := 975 }
  bv := fun arfcn => [5,20,1000,1023].contains arfcn
  bis := false
  ter := false

theorem varBitmap_agrees_iff_wrapping : ∃ o, encFreqLstVarBitmap wrapping (fun _ => 0) 1000 = .ok o
    ∧ ((∀ arfcn, arfcn ∈ decodeFreqList o ↔ arfcn ∈ wrapping.selected) ↔ wrapping.VarBitmapExact) :=
  varBitmap_agrees_iff wrapping 1000 (by decide +kernel)

/-- The neighbours 5 and 20 of a DCS 1800 cell are selected with `force_combined_si`, but
the map leaves out 20. -/
theorem varBitmap_drops : ∃ o, (neighbours [5,20] true).format = .varBitmap 5
    ∧ encFreqLstVarBitmap (neighbours [5,20] true) (fun _ => 0) 5 = .ok o
    ∧ ¬ ∀ arfcn, arfcn ∈ decodeFreqList o ↔ arfcn ∈ (neighbours [5,20] true).selected := by
  have h : ∃ o, encFreqLstVarBitmap (neighbours [5,20] true) (fun _ => 0) 5 = .ok o
      ∧ 20 ∉ decodeFreqList o ∧ 20 ∈ (neighbours [5,20] true).selected := by decide +kernel
  obtain ⟨o,ho,hout,hsel⟩ := h
  exact ⟨o,by decide +kernel,ho,fun hall => hout ((hall 20).mpr hsel)⟩

end VarBitmap

end OsmoBsc.Si
