import CardHost.Proofs.ClockRate
import Mathlib

/-!
# The clock divider within its words

`Divider.compute` is `Nat` arithmetic.  `Divider.computeInWords` is the same divider in the words it
is computed with: the products and the quotient in 64 bits, the first divisor and the points in 32.
Each step of it may leave its word or divide by zero, and then there is no divider.
`computeInWords_eq` says that no step ever does.

Main statement: `Divider.compute_exact`.  The divider is the largest of the register's range that
keeps the divided clock at the frequency asked for or above (`Divider.Largest`), its points lie
inside the divided cycle (`Divider.Phased`), the register holds the three numbers side by side
(`encode_unique`), and a remark is made exactly where the quotient had to be clamped.
-/

namespace CardHost

/-! ## Arithmetic that may leave its word -/

namespace Checked

/-- The sum of two words, if that is a word. -/
def add (a b : UInt32) : Option UInt32 :=
  if a.toNat + b.toNat < 2 ^ 32 then some (a + b) else none

/-- The product of two double words, if that is a double word. -/
def mul (a b : UInt64) : Option UInt64 :=
  if a.toNat * b.toNat < 2 ^ 64 then some (a * b) else none

/-- The quotient of two double words, if there is one. -/
def div (a b : UInt64) : Option UInt64 :=
  if b = 0 then none else some (a / b)

theorem add_eq_some {a b : UInt32} (h : a.toNat + b.toNat < 2 ^ 32) : add a b = some (a + b) :=
  if_pos h

theorem mul_eq_some {a b : UInt64} (h : a.toNat * b.toNat < 2 ^ 64) : mul a b = some (a * b) :=
  if_pos h

theorem div_eq_some {a b : UInt64} (h : 0 < b.toNat) : div a b = some (a / b) := by
  have hne : b ≠ 0 := by
    rintro rfl
    exact Nat.lt_irrefl 0 h
  exact if_neg hne

end Checked

/-- A byte of a word. -/
theorem toNat_byte (word : UInt32) {place : UInt32} (h : place.toNat < 32) :
    ((word >>> place) &&& 0xFF).toNat = word.toNat / 2 ^ place.toNat % 2 ^ 8 := by
  rw [UInt32.toNat_and, UInt32.toNat_shiftRight, Nat.mod_eq_of_lt h, Nat.shiftRight_eq_div_pow]
  exact Nat.and_two_pow_sub_one_eq_mod _ 8

/-- The first divisor takes eight bits of a profile. -/
theorem profileDivisor_bounds (profile : UInt32) :
    1 ≤ profileDivisor profile ∧ profileDivisor profile ≤ 256 := by
  unfold profileDivisor
  omega

namespace Divider

variable (baseClock profile frequency : UInt32)

/-! ## The divider in words -/

/-- The first divisor in words: one more than bits 8 to 15 of the profile. -/
def firstDivisor : Option UInt32 :=
  Checked.add 1 ((profile >>> 8) &&& 0xFF)

/-- What the reference clock is divided by to find the divider. -/
def denominator : Option UInt64 := do
  let divisor ← firstDivisor profile
  let doubled ← Checked.mul 2 divisor.toUInt64
  Checked.mul doubled (max frequency 1).toUInt64

/-- A divider with its points in words. -/
def withPoints (divider : UInt32) : Option Divider :=
  if divider ≤ 2 then some ⟨divider, 0, 1⟩
  else do
    let drive := divider / 2
    let sample ← Checked.add drive 1
    some ⟨divider, drive, sample⟩

/-- The quotient in words, and the divider that it is clamped to.  There is none if a step leaves
its word or divides by zero. -/
def computeInWords : Option (UInt64 × Divider) := do
  let denominator ← denominator profile frequency
  let quotient ← Checked.div baseClock.toUInt64 denominator
  let divider ← withPoints (max 1 (min quotient 0xFF)).toUInt32
  some (quotient, divider)

variable {baseClock profile frequency}

theorem firstDivisor_eq : firstDivisor profile = some (UInt32.ofNat (profileDivisor profile)) := by
  have hbits : ((profile >>> 8) &&& 0xFF).toNat = profile.toNat / 0x100 % 0x100 :=
    toNat_byte profile (by decide)
  have hbound : ((profile >>> 8) &&& 0xFF).toNat < 0x100 := by
    rw [hbits]
    exact Nat.mod_lt _ (by decide)
  have hsum : (1 : UInt32).toNat + ((profile >>> 8) &&& 0xFF).toNat < 2 ^ 32 := by
    change 1 + _ < 2 ^ 32
    omega
  rw [firstDivisor, Checked.add_eq_some hsum]
  congr 1
  apply UInt32.toNat_inj.mp
  rw [UInt32.toNat_add, Nat.mod_eq_of_lt hsum, hbits,
    UInt32.toNat_ofNat_of_lt' (Nat.lt_of_le_of_lt (profileDivisor_bounds profile).2 (by decide))]
  rfl

theorem step_pos (profile frequency : UInt32) :
    0 < 2 * profileDivisor profile * max frequency.toNat 1 := by
  have hdivisor := (profileDivisor_bounds profile).1
  exact Nat.mul_pos (by omega) (by omega)

/-- The products of a denominator fit: nine bits, one more, and 32 more. -/
theorem denominator_eq :
    ∃ product, denominator profile frequency = some product
      ∧ product.toNat = 2 * profileDivisor profile * max frequency.toNat 1 := by
  obtain ⟨hpositive, hle⟩ := profileDivisor_bounds profile
  have hdivisor : (UInt32.ofNat (profileDivisor profile)).toUInt64.toNat =
      profileDivisor profile := by
    rw [UInt32.toNat_toUInt64]
    exact UInt32.toNat_ofNat_of_lt' (Nat.lt_of_le_of_lt hle (by decide))
  have hfrequency : (max frequency 1).toUInt64.toNat = max frequency.toNat 1 := by
    rw [UInt32.toNat_toUInt64, UInt32.toNat_max]
    rfl
  have hdoubled : (2 : UInt64).toNat * (UInt32.ofNat (profileDivisor profile)).toUInt64.toNat <
      2 ^ 64 := by
    rw [hdivisor]
    change 2 * _ < 2 ^ 64
    omega
  have hdouble : (2 * (UInt32.ofNat (profileDivisor profile)).toUInt64).toNat =
      2 * profileDivisor profile := by
    rw [UInt64.toNat_mul, Nat.mod_eq_of_lt hdoubled, hdivisor]
    rfl
  have hproduct : (2 * (UInt32.ofNat (profileDivisor profile)).toUInt64).toNat
      * (max frequency 1).toUInt64.toNat < 2 ^ 64 := by
    have hword : max frequency.toNat 1 ≤ 2 ^ 32 := by
      have := frequency.toNat_lt
      omega
    rw [hdouble, hfrequency]
    calc 2 * profileDivisor profile * max frequency.toNat 1
        ≤ 2 * 256 * 2 ^ 32 := Nat.mul_le_mul (by omega) hword
      _ < 2 ^ 64 := by decide
  refine ⟨2 * (UInt32.ofNat (profileDivisor profile)).toUInt64 * (max frequency 1).toUInt64,
    ?_, ?_⟩
  · rw [denominator, firstDivisor_eq]
    simp only [Option.bind_eq_bind, Option.bind_some, Checked.mul_eq_some hdoubled,
      Checked.mul_eq_some hproduct]
  · rw [UInt64.toNat_mul, Nat.mod_eq_of_lt hproduct, hdouble, hfrequency]

theorem withPoints_eq {n : Nat} (h : n ≤ 0xFF) :
    withPoints (UInt32.ofNat n) = some (ofNat n) := by
  have hnumber : (UInt32.ofNat n).toNat = n :=
    UInt32.toNat_ofNat_of_lt' (Nat.lt_of_le_of_lt h (by decide))
  have hsmall : UInt32.ofNat n ≤ 2 ↔ n ≤ 2 := by
    rw [UInt32.le_iff_toNat_le, hnumber]
    rfl
  unfold withPoints ofNat
  by_cases htwo : n ≤ 2
  · rw [if_pos (hsmall.mpr htwo), if_pos htwo]
  · have hdrive : (UInt32.ofNat n / 2).toNat = n / 2 := by
      rw [UInt32.toNat_div, hnumber]
      rfl
    have hsum : (UInt32.ofNat n / 2).toNat + (1 : UInt32).toNat < 2 ^ 32 := by
      rw [hdrive]
      change n / 2 + 1 < 2 ^ 32
      omega
    have hhalf : UInt32.ofNat n / 2 = UInt32.ofNat (n / 2) := by
      apply UInt32.toNat_inj.mp
      rw [hdrive, UInt32.toNat_ofNat_of_lt' (Nat.lt_of_le_of_lt (Nat.div_le_self n 2)
        (Nat.lt_of_le_of_lt h (by decide)))]
    rw [if_neg (fun hle => htwo (hsmall.mp hle)), if_neg htwo]
    simp only [Checked.add_eq_some hsum, Option.bind_eq_bind, Option.bind_some]
    rw [hhalf, UInt32.ofNat_add]
    rfl

theorem quotient_lt (baseClock profile frequency : UInt32) :
    quotient baseClock profile frequency < 2 ^ 64 :=
  Nat.lt_of_le_of_lt (Nat.div_le_self _ _) (Nat.lt_trans baseClock.toNat_lt (by decide))

/-- No step of the computation leaves its word or divides by zero: the quotient and the divider in
words are the ones of `Nat` arithmetic. -/
theorem computeInWords_eq (baseClock profile frequency : UInt32) :
    computeInWords baseClock profile frequency =
      some (UInt64.ofNat (quotient baseClock profile frequency),
        compute baseClock profile frequency) := by
  obtain ⟨product, hdenominator, hproduct⟩ := @denominator_eq profile frequency
  have hpositive : 0 < product.toNat := by
    rw [hproduct]
    exact step_pos profile frequency
  have hbound := quotient_lt baseClock profile frequency
  have hquotient : baseClock.toUInt64 / product =
      UInt64.ofNat (quotient baseClock profile frequency) := by
    apply UInt64.toNat_inj.mp
    rw [UInt64.toNat_div, UInt32.toNat_toUInt64, hproduct, UInt64.toNat_ofNat_of_lt' hbound]
    rfl
  have hclamp : (max 1 (min (UInt64.ofNat (quotient baseClock profile frequency)) 0xFF)).toUInt32 =
      UInt32.ofNat (clamp (quotient baseClock profile frequency)) := by
    have hle := clamp_le (quotient baseClock profile frequency)
    apply UInt32.toNat_inj.mp
    rw [UInt64.toNat_toUInt32, UInt64.toNat_max, UInt64.toNat_min,
      UInt64.toNat_ofNat_of_lt' hbound,
      UInt32.toNat_ofNat_of_lt' (Nat.lt_of_le_of_lt hle (by decide))]
    exact Nat.mod_eq_of_lt (Nat.lt_of_le_of_lt hle (by decide))
  rw [computeInWords, hdenominator]
  simp only [Option.bind_eq_bind, Option.bind_some, Checked.div_eq_some hpositive, hquotient,
    hclamp, withPoints_eq (clamp_le _)]
  rfl

/-! ## The largest divider -/

/-- A divider keeps the divided reference clock at the frequency asked for or above.  A frequency of
zero counts as one. -/
def Reaches (baseClock profile frequency : UInt32) (divider : Nat) : Prop :=
  2 * (1 + profile.toNat / 2 ^ 8 % 2 ^ 8) * max frequency.toNat 1 * divider ≤ baseClock.toNat

/-- The dividers of the register's range that reach the frequency. -/
def Reaching (baseClock profile frequency : UInt32) : Set Nat :=
  {divider | 1 ≤ divider ∧ divider ≤ 255 ∧ Reaches baseClock profile frequency divider}

/-- The largest divider of the range that reaches the frequency, or 1 if none does. -/
def Largest (baseClock profile frequency : UInt32) (divider : Nat) : Prop :=
  IsGreatest (Reaching baseClock profile frequency) divider
    ∨ Reaching baseClock profile frequency = ∅ ∧ divider = 1

/-- A divider reaches the frequency exactly up to the quotient. -/
theorem reaches_iff {divider : Nat} :
    Reaches baseClock profile frequency divider ↔
      divider ≤ quotient baseClock profile frequency := by
  rw [quotient, Nat.le_div_iff_mul_le (step_pos profile frequency), Nat.mul_comm divider]
  rfl

theorem largest_clamp :
    Largest baseClock profile frequency (clamp (quotient baseClock profile frequency)) := by
  by_cases hnone : quotient baseClock profile frequency = 0
  · right
    refine ⟨Set.eq_empty_iff_forall_notMem.mpr ?_, by rw [hnone]; rfl⟩
    rintro divider ⟨hpositive, -, hreaches⟩
    have hle := reaches_iff.mp hreaches
    omega
  · left
    constructor
    · refine ⟨clamp_pos _, clamp_le _, reaches_iff.mpr ?_⟩
      unfold clamp
      omega
    · rintro divider ⟨-, hrange, hreaches⟩
      have hle := reaches_iff.mp hreaches
      unfold clamp
      omega

/-! ## The points -/

/-- Where a divided cycle is driven and sampled: half of it in and one reference cycle later, which
is still inside the cycle; a divider of two or less has no room for that. -/
structure Phased (d : Divider) : Prop where
  short : d.divider ≤ 2 → d.drive = 0 ∧ d.sample = 1
  long : 2 < d.divider → d.drive.toNat = d.divider.toNat / 2
    ∧ d.sample.toNat = d.divider.toNat / 2 + 1 ∧ d.sample ≤ d.divider

theorem phased_ofNat {n : Nat} (h : n ≤ 0xFF) : Phased (ofNat n) := by
  have hword {m : Nat} (hm : m ≤ 0xFF) : (UInt32.ofNat m).toNat = m :=
    UInt32.toNat_ofNat_of_lt' (Nat.lt_of_le_of_lt hm (by decide))
  unfold ofNat
  split
  case isTrue hshort =>
    refine ⟨fun _ => ⟨rfl, rfl⟩, fun hlong => ?_⟩
    rw [UInt32.lt_iff_toNat_lt, hword h] at hlong
    exact absurd hshort (Nat.not_le_of_lt hlong)
  case isFalse hlong =>
    have hdrive := hword (m := n / 2) (by omega)
    have hsample := hword (m := n / 2 + 1) (by omega)
    refine ⟨fun hshort => ?_, fun _ => ?_⟩
    · rw [UInt32.le_iff_toNat_le, hword h] at hshort
      exact absurd hshort hlong
    · dsimp only
      rw [UInt32.le_iff_toNat_le, hdrive, hsample, hword h]
      exact ⟨rfl, rfl, by omega⟩

/-! ## The divider register -/

/-- The numbers that a value of the divider register holds. -/
def decode (value : UInt32) : Divider :=
  ⟨value &&& 0xFF, (value >>> 8) &&& 0xFF, (value >>> 16) &&& 0xFF⟩

/-- Every number of a divider fits its byte of the register. -/
structure Packable (d : Divider) : Prop where
  divider : d.divider.toNat < 2 ^ 8
  drive : d.drive.toNat < 2 ^ 8
  sample : d.sample.toNat < 2 ^ 8

theorem packable_ofNat {n : Nat} (h : n ≤ 0xFF) : (ofNat n).Packable := by
  have hword {m : Nat} (hm : m ≤ 0xFF) : (UInt32.ofNat m).toNat < 2 ^ 8 := by
    rw [UInt32.toNat_ofNat_of_lt' (Nat.lt_of_le_of_lt hm (by decide))]
    omega
  unfold ofNat
  split
  · exact ⟨hword h, (by decide : (0 : UInt32).toNat < 2 ^ 8),
      (by decide : (1 : UInt32).toNat < 2 ^ 8)⟩
  · exact ⟨hword h, hword (by omega), hword (by omega)⟩

/-- The three numbers stand side by side. -/
theorem Packable.toNat_encode {d : Divider} (h : d.Packable) :
    d.encode.toNat = 2 ^ 16 * d.sample.toNat + 2 ^ 8 * d.drive.toNat + d.divider.toNat := by
  have hsample : (d.sample <<< 16).toNat = 2 ^ 16 * d.sample.toNat := by
    have hbound := h.sample
    rw [UInt32.toNat_shiftLeft, Nat.shiftLeft_eq]
    change d.sample.toNat * 2 ^ 16 % 2 ^ 32 = _
    omega
  have hdrive : (d.drive <<< 8).toNat = 2 ^ 8 * d.drive.toNat := by
    have hbound := h.drive
    rw [UInt32.toNat_shiftLeft, Nat.shiftLeft_eq]
    change d.drive.toNat * 2 ^ 8 % 2 ^ 32 = _
    omega
  have hdivider : (d.divider &&& 0xFF).toNat = d.divider.toNat := by
    rw [UInt32.toNat_and]
    exact (Nat.and_two_pow_sub_one_eq_mod d.divider.toNat 8).trans (Nat.mod_eq_of_lt h.divider)
  have hlow : 2 ^ 8 * d.drive.toNat < 2 ^ 16 := by
    have hbound := h.drive
    omega
  rw [encode, UInt32.toNat_or, UInt32.toNat_or, hsample, hdrive, hdivider,
    ← Nat.two_pow_add_eq_or_of_lt hlow,
    show 2 ^ 16 * d.sample.toNat + 2 ^ 8 * d.drive.toNat =
      2 ^ 8 * (2 ^ 8 * d.sample.toNat + d.drive.toNat) by omega,
    ← Nat.two_pow_add_eq_or_of_lt h.divider]

theorem toNat_decode (value : UInt32) :
    (decode value).divider.toNat = value.toNat % 2 ^ 8
      ∧ (decode value).drive.toNat = value.toNat / 2 ^ 8 % 2 ^ 8
      ∧ (decode value).sample.toNat = value.toNat / 2 ^ 16 % 2 ^ 8 := by
  refine ⟨?_, toNat_byte value (by decide), toNat_byte value (by decide)⟩
  change (value &&& 0xFF).toNat = _
  rw [UInt32.toNat_and]
  exact Nat.and_two_pow_sub_one_eq_mod _ 8

theorem eq_of_toNat {d e : Divider} (hdivider : d.divider.toNat = e.divider.toNat)
    (hdrive : d.drive.toNat = e.drive.toNat) (hsample : d.sample.toNat = e.sample.toNat) :
    d = e := by
  cases d
  cases e
  rw [mk.injEq]
  exact ⟨UInt32.toNat_inj.mp hdivider, UInt32.toNat_inj.mp hdrive, UInt32.toNat_inj.mp hsample⟩

theorem shiftRight_eq_zero_iff (value : UInt32) : value >>> 24 = 0 ↔ value.toNat < 2 ^ 24 := by
  rw [← UInt32.toNat_inj, UInt32.toNat_shiftRight, Nat.shiftRight_eq_div_pow]
  change value.toNat / 2 ^ 24 = 0 ↔ _
  omega

/-- Exactly one word without a high byte holds the numbers of a divider. -/
theorem Packable.encode_unique {d : Divider} (h : d.Packable) (value : UInt32) :
    value >>> 24 = 0 ∧ decode value = d ↔ value = d.encode := by
  have hencode := h.toNat_encode
  obtain ⟨hfirst, hsecond, hthird⟩ := toNat_decode value
  obtain ⟨hdivider, hdrive, hsample⟩ := h
  rw [shiftRight_eq_zero_iff, ← UInt32.toNat_inj]
  constructor
  · rintro ⟨hhigh, rfl⟩
    omega
  · intro hvalue
    refine ⟨by omega, eq_of_toNat ?_ ?_ ?_⟩
    · omega
    · omega
    · omega

/-! ## The remark -/

variable (baseClock profile frequency) in
/-- The remark is made exactly where the quotient is outside the range of the register. -/
theorem notice?_eq :
    notice? baseClock profile frequency =
      if 1 ≤ quotient baseClock profile frequency ∧ quotient baseClock profile frequency ≤ 255
      then none
      else some (.dividerClamped (quotient baseClock profile frequency) frequency
        (compute baseClock profile frequency)) := by
  unfold notice?
  simp only [clamp_eq_self_iff]

end Divider

/-- The system with a message logged, if there is one. -/
def System.remark {machine : Machine ι} (system : System machine σ ρ) :
    Option Message → System machine σ ρ
  | some message => system.note (.logged message)
  | none => system

/-- Finding the divider of a frequency logs the remark on it and does nothing else. -/
theorem Host.run_divider (host : Host) (profile frequency : UInt32) {machine : Machine ι}
    (handler : ι → Prog σ ρ) (depth : Nat) (system : System machine σ ρ) :
    (host.divider profile frequency).run.run handler depth system =
      .ok (.ok (.compute host.config.baseClock profile frequency),
        system.remark (Divider.notice? host.config.baseClock profile frequency)) := by
  unfold Host.divider
  cases Divider.notice? host.config.baseClock profile frequency with
  | none => rfl
  | some message => rfl

/-- The divider of a frequency, over all words.  No step of its computation leaves its word or
divides by zero, and the quotient found on the way is the one of `Nat` arithmetic.  The divider is
the largest one of the register's range that reaches the frequency; its points lie inside the
divided cycle; the register's value is the one word without a high byte that holds the three
numbers.  There is a remark exactly if the quotient is outside the range, and finding the divider
logs this remark and does nothing else. -/
theorem Divider.compute_exact :
    (∀ baseClock profile frequency : UInt32,
      (∃ raw, computeInWords baseClock profile frequency =
          some (raw, compute baseClock profile frequency)
        ∧ raw.toNat = quotient baseClock profile frequency)
      ∧ Largest baseClock profile frequency (compute baseClock profile frequency).divider.toNat
      ∧ Phased (compute baseClock profile frequency)
      ∧ (∀ value : UInt32,
          value >>> 24 = 0 ∧ decode value = compute baseClock profile frequency ↔
            value = (compute baseClock profile frequency).encode)
      ∧ notice? baseClock profile frequency =
          if 1 ≤ quotient baseClock profile frequency
            ∧ quotient baseClock profile frequency ≤ 255
          then none
          else some (.dividerClamped (quotient baseClock profile frequency) frequency
            (compute baseClock profile frequency)))
    ∧ ∀ (host : Host) (profile frequency : UInt32) {machine : Machine ι} (handler : ι → Prog σ ρ)
        (depth : Nat) (system : System machine σ ρ),
      (host.divider profile frequency).run.run handler depth system =
        .ok (.ok (compute host.config.baseClock profile frequency),
          system.remark (notice? host.config.baseClock profile frequency)) := by
  constructor
  · intro baseClock profile frequency
    have hrange := clamp_le (quotient baseClock profile frequency)
    refine ⟨⟨_, computeInWords_eq baseClock profile frequency, ?_⟩, ?_,
      phased_ofNat hrange, (packable_ofNat hrange).encode_unique,
      notice?_eq baseClock profile frequency⟩
    · exact UInt64.toNat_ofNat_of_lt' (quotient_lt baseClock profile frequency)
    · rw [divider_compute]
      exact largest_clamp
  · intro host profile frequency machine handler depth system
    exact host.run_divider profile frequency handler depth system

end CardHost
