import Mathlib.Data.List.Basic
set_option autoImplicit false

/-! Programs that read a message and fill buffers, with every access checked; and parsers of lists of information
elements, as far as their bounds go. -/

namespace Checked

/-- What a checked program stops at. -/
inductive Overrun where
  | outside
  | belowZero
  | overlong
  | overfull
  deriving DecidableEq, Repr

section Fine

variable {ε α β : Type}

/-- The program gets to its end. -/
def Fine (x : Except ε α) : Prop := ∃ a, x = .ok a

@[simp] theorem fine_ok (a : α) : Fine (.ok a : Except ε α) := ⟨a,rfl⟩

@[simp] theorem fine_pure (a : α) : Fine (pure a : Except ε α) := ⟨a,rfl⟩

@[simp] theorem not_fine_error (e : ε) : ¬ Fine (.error e : Except ε α) := fun ⟨_,h⟩ => by cases h

theorem ok_bind (a : α) (f : α → Except ε β) : (Except.ok a >>= f) = f a := rfl

/-- What follows does not depend on the value. -/
theorem fine_bind {x : Except ε α} {f : α → Except ε β} {p : Prop} (hf : ∀ a, x = .ok a → (Fine (f a) ↔ p)) :
    Fine (x >>= f) ↔ Fine x ∧ p := by
  cases x with
  | error e => exact iff_of_false (not_fine_error e) fun h => not_fine_error e h.1
  | ok a => exact (hf a rfl).trans (and_iff_right (fine_ok a)).symm

theorem Fine.of_bind {x : Except ε α} {f : α → Except ε β} (h : Fine (x >>= f)) : Fine x := by
  cases x with
  | error e => exact absurd h (not_fine_error e)
  | ok a => exact fine_ok a

theorem fine_map {x : Except ε α} {f : α → β} : Fine (f <$> x) ↔ Fine x := by
  cases x with
  | error e => exact iff_of_false (not_fine_error e) (not_fine_error e)
  | ok a => exact iff_of_true (fine_ok _) (fine_ok a)

end Fine

section Reading

variable {α : Type} {msg : List UInt8} {off n a b : Nat}

def octetAt (msg : List UInt8) (off : Nat) : Except Overrun UInt8 :=
  match msg[off]? with
  | some octet => .ok octet
  | none => .error .outside

/-- The octet at an offset, zero behind the end. -/
def octet (msg : List UInt8) (off : Nat) : UInt8 := msg[off]?.getD 0

def readAll (msg : List UInt8) (offs : List Nat) : Except Overrun Unit :=
  if ∀ off ∈ offs, off < msg.length then .ok () else .error .outside

def octetsAt (msg : List UInt8) (off n : Nat) : Except Overrun (List UInt8) :=
  if off + n ≤ msg.length then .ok ((msg.drop off).take n) else .error .outside

/-- A string that ends with a zero octet. -/
def stringAt (msg : List UInt8) (off : Nat) : Except Overrun (List UInt8) :=
  if 0 ∈ msg.drop off then .ok ((msg.drop off).takeWhile (· != 0)) else .error .outside

def sub (a b : Nat) : Except Overrun Nat := if b ≤ a then .ok (a - b) else .error .belowZero

theorem octetAt_eq (h : off < msg.length) : octetAt msg off = .ok (octet msg off) := by
  rw [octetAt,octet,List.getElem?_eq_getElem h]
  rfl

theorem octetAt_outside (h : ¬ off < msg.length) : octetAt msg off = .error .outside := by
  rw [octetAt,List.getElem?_eq_none (Nat.not_lt.mp h)]

@[simp] theorem fine_octetAt : Fine (octetAt msg off) ↔ off < msg.length := by
  by_cases h : off < msg.length
  · simp [octetAt_eq h,h]
  · simp [octetAt_outside h,h]

theorem fine_octetAt_bind {f : UInt8 → Except Overrun α} :
    Fine (octetAt msg off >>= f) ↔ off < msg.length ∧ Fine (f (octet msg off)) := by
  by_cases h : off < msg.length
  · rw [octetAt_eq h]
    exact (and_iff_right h).symm
  · rw [octetAt_outside h]
    exact iff_of_false (not_fine_error _) fun hf => h hf.1

@[simp] theorem fine_readAll {offs : List Nat} : Fine (readAll msg offs) ↔ ∀ off ∈ offs, off < msg.length := by
  unfold readAll
  split <;> simp_all

@[simp] theorem fine_octetsAt : Fine (octetsAt msg off n) ↔ off + n ≤ msg.length := by
  unfold octetsAt
  split <;> simp_all

theorem octetsAt_eq (h : off + n ≤ msg.length) : octetsAt msg off n = .ok ((msg.drop off).take n) := if_pos h

theorem fine_octetsAt_bind {f : List UInt8 → Except Overrun α} :
    Fine (octetsAt msg off n >>= f) ↔ off + n ≤ msg.length ∧ Fine (f ((msg.drop off).take n)) := by
  by_cases h : off + n ≤ msg.length
  · rw [octetsAt_eq h]
    exact (and_iff_right h).symm
  · rw [octetsAt,if_neg h]
    exact iff_of_false (not_fine_error _) fun hf => h hf.1

@[simp] theorem fine_stringAt : Fine (stringAt msg off) ↔ 0 ∈ msg.drop off := by
  unfold stringAt
  split <;> simp_all

@[simp] theorem fine_sub : Fine (sub a b) ↔ b ≤ a := by
  unfold sub
  split <;> simp_all

theorem fine_sub_bind {f : Nat → Except Overrun α} : Fine (sub a b >>= f) ↔ b ≤ a ∧ Fine (f (a - b)) := by
  by_cases h : b ≤ a
  · rw [sub,if_pos h]
    exact (and_iff_right h).symm
  · rw [sub,if_neg h]
    exact iff_of_false (not_fine_error _) fun hf => h hf.1

end Reading

/-- TLV_TYPE_*: one octet, a number of octets, or as many as the element says. -/
inductive TlvType where
  | tv
  | fixed (n : Nat)
  | tlv
  deriving DecidableEq, Repr

/-- The value of an information element: where it starts and how long it is. -/
structure Field where
  off : Nat
  len : Nat
  deriving DecidableEq, Repr

/-- The field has the length of its type. -/
def Field.Typed (v : Field) : TlvType → Prop
  | .tv => v.len = 1
  | .fixed n => v.len = n
  | .tlv => True

theorem Field.Typed.shift {v : Field} {type : TlvType} (h : v.Typed type) (off : Nat) :
    Field.Typed ⟨off + v.off,v.len⟩ type := by
  cases type <;> exact h

/-- A parser of a list of information elements with tags `τ`, which looks at what it is given only. -/
structure TlvParser {τ : Type} (tlvdef : τ → TlvType) where
  parse : List UInt8 → τ → Option Field
  within : ∀ buf tag v, parse buf tag = some v → v.off + v.len ≤ buf.length
  typed : ∀ buf tag v, parse buf tag = some v → v.Typed (tlvdef tag)

/-- A parser of one information element: its tag, its value, and how many octets it takes. -/
structure TlvOneParser {τ : Type} (tlvdef : τ → TlvType) where
  parseOne : List UInt8 → Option (τ × Field × Nat)
  within : ∀ buf tag v n, parseOne buf = some (tag,v,n) → v.off + v.len ≤ buf.length ∧ n ≤ buf.length
  typed : ∀ buf tag v n, parseOne buf = some (tag,v,n) → v.Typed (tlvdef tag)

end Checked
