import Mathlib.Data.List.Basic
set_option autoImplicit false

/-! Elements of a message that a tag introduces, with a value of fixed length or a length octet in front of it. -/

namespace Tlv

inductive Format where
  | fixed (n : Nat)
  | counted
  deriving DecidableEq, Repr

structure Element where
  tag : BitVec 8
  val : List (BitVec 8)
  deriving DecidableEq, Repr

/-- The value is as long as the format of its tag lets it be. -/
def Format.Fits (val : List (BitVec 8)) : Format → Prop
  | .fixed n => val.length = n
  | .counted => val.length < 256

def put (format : BitVec 8 → Option Format) (e : Element) : List (BitVec 8) :=
  match format e.tag with
  | some .counted => e.tag :: BitVec.ofNat 8 e.val.length :: e.val
  | _ => e.tag :: e.val

def putAll (format : BitVec 8 → Option Format) (es : List Element) : List (BitVec 8) := es.flatMap (put format)

/-- A value of `n` octets and what follows it. -/
def readValue (tag : BitVec 8) (n : Nat) (octets : List (BitVec 8)) : Option (Element × List (BitVec 8)) :=
  if n ≤ octets.length then some (⟨tag,octets.take n⟩,octets.drop n) else none

def read (format : BitVec 8 → Option Format) : List (BitVec 8) → Option (Element × List (BitVec 8))
  | [] => none
  | tag :: rest => match format tag with
    | some (.fixed n) => readValue tag n rest
    | some .counted => match rest with
      | len :: rest => readValue tag len.toNat rest
      | [] => none
    | none => none

/-- The elements of a message, at most `fuel` of them. -/
def readAll (format : BitVec 8 → Option Format) : Nat → List (BitVec 8) → Option (List Element)
  | _, [] => some []
  | 0, _ => none
  | fuel + 1, octets => do
    let r ← read format octets
    let es ← readAll format fuel r.2
    return r.1 :: es

section Read

variable {format : BitVec 8 → Option Format} {e : Element} {es : List Element} {f : Format}

theorem readValue_append (tag : BitVec 8) (val rest : List (BitVec 8)) :
    readValue tag val.length (val ++ rest) = some (⟨tag,val⟩,rest) := by
  rw [readValue,if_pos (by simp),List.take_left,List.drop_left]

/-- What was put is read, and the rest is left. -/
theorem read_put (hf : format e.tag = some f) (hfits : f.Fits e.val) (rest : List (BitVec 8)) :
    read format (put format e ++ rest) = some (e,rest) := by
  cases f with
  | fixed n =>
    obtain rfl : e.val.length = n := hfits
    simp only [put,hf,List.cons_append,read]
    exact readValue_append e.tag e.val rest
  | counted =>
    have hlen : (BitVec.ofNat 8 e.val.length).toNat = e.val.length := by
      rw [BitVec.toNat_ofNat,Nat.mod_eq_of_lt hfits]
    simp only [put,hf,List.cons_append,read,hlen]
    exact readValue_append e.tag e.val rest

theorem put_ne_nil : put format e ≠ [] := by
  rw [put]
  split <;> exact List.cons_ne_nil _ _

theorem readAll_putAll (h : ∀ e ∈ es, ∃ f, format e.tag = some f ∧ f.Fits e.val) {fuel : Nat}
    (hfuel : es.length ≤ fuel) : readAll format fuel (putAll format es) = some es := by
  induction es generalizing fuel with
  | nil => cases fuel <;> rfl
  | cons e es ih =>
    obtain ⟨f,hf,hfits⟩ := h e List.mem_cons_self
    cases fuel with
    | zero => cases hfuel
    | succ fuel =>
      have hne : putAll format (e :: es) ≠ [] := by
        rw [putAll,List.flatMap_cons]
        exact fun hnil => put_ne_nil (List.append_eq_nil_iff.mp hnil).1
      have hread : read format (putAll format (e :: es)) = some (e,putAll format es) := by
        rw [putAll,List.flatMap_cons]
        exact read_put hf hfits _
      have hrest := ih (fun e' he' => h e' (List.mem_cons_of_mem _ he')) (Nat.le_of_succ_le_succ hfuel)
      rw [readAll.eq_3 _ _ _ hne,hread]
      simp [hrest]

theorem length_putAll (es : List Element) : es.length ≤ (putAll format es).length := by
  induction es with
  | nil => exact Nat.zero_le _
  | cons e es ih =>
    have hpos : 0 < (put format e).length := List.length_pos_of_ne_nil put_ne_nil
    rw [putAll,List.flatMap_cons,List.length_append,List.length_cons]
    have := ih
    rw [putAll] at this
    omega

end Read

end Tlv
