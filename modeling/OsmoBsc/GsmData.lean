import Mathlib.Algebra.Ring.Nat
set_option autoImplicit false

namespace OsmoBsc

/-- `enum gsm_chan_t`, the kinds of logical channel. -/
inductive ChanT where
  | none
  | sdcch
  | tchF
  | tchH
  | unknown
  | ccch
  | pdtch
  | cbch
  deriving DecidableEq, Repr

inductive ChanMode where
  | sign
  | speechV1
  | speechEfr
  | speechAmr
  | data14k5
  | data12k0
  | data6k0
  | data3k6
  deriving DecidableEq, Repr

/-- `struct gsm_subscriber_connection *`: the address of a connection. An
address whose connection was freed can be handed out again. -/
abbrev ConnId := Nat

-- the timeslots of a TRX and the SAPIs of a link
instance neZeroEight : NeZero 8 := ⟨Nat.succ_ne_zero 7⟩

-- the values of an octet
instance neZeroOctet : NeZero 256 := ⟨Nat.succ_ne_zero 255⟩

end OsmoBsc
