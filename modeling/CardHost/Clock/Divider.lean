import CardHost.Text

/-!
# The card clock divider

The card clock comes from the reference clock in two stages.  A clock profile fixes the first
divisor; the divider register holds the second, of eight bits, together with the points of the
divided cycle at which lines are driven and sampled.

`Divider.compute` is the quotient of the reference clock by twice the first divisor and the
frequency, clamped to the range of the register.  All of it is `Nat` arithmetic, so the products of
three words need no width of their own.
-/

namespace CardHost

/-- The first divisor, held by bits 8 to 15 of a profile less one. -/
def profileDivisor (profile : UInt32) : Nat :=
  1 + profile.toNat / 0x100 % 0x100

/-- The second divisor with its drive and sample points. -/
structure Divider where
  divider : UInt32
  drive : UInt32
  sample : UInt32
deriving DecidableEq

namespace Divider

/-- The divider that would give the frequency exactly, rounded down.  A frequency of zero counts as
one. -/
def quotient (baseClock profile frequency : UInt32) : Nat :=
  baseClock.toNat / (2 * profileDivisor profile * max frequency.toNat 1)

/-- A number brought into the range of the register, 1 to 255. -/
def clamp (n : Nat) : Nat :=
  max 1 (min n 0xFF)

theorem clamp_pos (n : Nat) : 0 < clamp n := by
  simp only [clamp]
  omega

theorem clamp_le (n : Nat) : clamp n ≤ 0xFF := by
  simp only [clamp]
  omega

/-- Clamping leaves exactly the numbers of the range alone. -/
theorem clamp_eq_self_iff (n : Nat) : clamp n = n ↔ 1 ≤ n ∧ n ≤ 0xFF := by
  simp only [clamp]
  omega

/-- The divider with its points: driving half a divided cycle in, sampling one reference cycle
later.  Dividers of two or less leave no room for that; they drive at 0 and sample at 1. -/
def ofNat (d : Nat) : Divider :=
  if d ≤ 2 then ⟨UInt32.ofNat d, 0, 1⟩
  else ⟨UInt32.ofNat d, UInt32.ofNat (d / 2), UInt32.ofNat (d / 2 + 1)⟩

/-- The divider that brings the reference clock down to a frequency. -/
def compute (baseClock profile frequency : UInt32) : Divider :=
  ofNat (clamp (quotient baseClock profile frequency))

/-- The value of the divider register. -/
def encode (d : Divider) : UInt32 :=
  (d.sample <<< 16) ||| (d.drive <<< 8) ||| (d.divider &&& 0xFF)

def render (d : Divider) : String :=
  Text.record "ClockDivider"
    [("divider", toString d.divider.toNat), ("drive", toString d.drive.toNat),
      ("sample", toString d.sample.toNat)]

end Divider

end CardHost
