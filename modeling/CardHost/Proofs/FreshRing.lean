import CardHost.Proofs.Preparation
import CardHost.Proofs.RingMemory
import Mathlib

/-!
# A fresh ring is one cycle

A ring that was just allocated describes no transfer: its descriptors are blank but for their next
addresses, which link them into a single cycle.  `nextAt` is one step along it, so a walk of any
length is an iterate, and `Ring.Cycle` says where each walk ends.

Resetting a ring lays its fresh descriptors over whatever the pages held (`Ring.ends_reset`), and
laid they are a cycle wherever each of them has an address (`Ring.cycle_lay`).

Main statement: `Ring.allocate_links_cycle`.  Every grant whose pages do not wrap around becomes
such a ring, whatever the pages held, and nothing behind its descriptors changes.
-/

namespace CardHost

/-- The next address of the descriptor at an address. -/
def nextAt (memory : Memory) (address : UInt64) : UInt64 :=
  (Bench.descriptorAt memory address.toNat).next

namespace Ring

/-- The descriptors of a ring are blank and one cycle: `k` steps from the base lead to the
descriptor `k` modulo their number, so that a walk gets to each of them, is back at the base after
as many steps as there are descriptors and never before, and stays inside the pages. -/
structure Cycle (ring : Ring) (memory : Memory) : Prop where
  addresses : ∀ i < ring.count, (ring.address i).toNat = ring.base.toNat + i * descriptorSize
  blank : ∀ i < ring.count,
    (Bench.descriptorAt memory (ring.address i).toNat).flags = 0
      ∧ (Bench.descriptorAt memory (ring.address i).toNat).size = 0
      ∧ (Bench.descriptorAt memory (ring.address i).toNat).buffer = 0
  walk : ∀ k, (nextAt memory)^[k] ring.base = ring.address (k % ring.count)
  visits : ∀ i < ring.count, ∃ k < ring.count, (nextAt memory)^[k] ring.base = ring.address i
  returns : ∀ k, (nextAt memory)^[k] ring.base = ring.base ↔ ring.count ∣ k
  inside : ∀ k, ring.base.toNat ≤ ((nextAt memory)^[k] ring.base).toNat
    ∧ ((nextAt memory)^[k] ring.base).toNat + descriptorSize ≤
      ring.base.toNat + ring.pages * pageSize

variable {ring : Ring}

theorem fresh_length (ring : Ring) : ring.fresh.length = ring.count := by
  simp [fresh]

theorem getElem?_fresh (ring : Ring) {i : Nat} (hi : i < ring.count) :
    ring.fresh[i]? = some (ring.freshEntry i) := by
  simp [fresh, hi]

theorem ends_putFrom {machine : Machine ι} {post : Unit → Shared machine.State → Prop}
    (ring : Ring) (index : Nat) (descriptors : List Descriptor) {before : Shared machine.State}
    (h : post () ⟨before.device, ring.lay index descriptors before.memory⟩) :
    (ring.putFrom index descriptors : Prog σ Unit).Ends machine before post := by
  induction descriptors generalizing index before with
  | nil => exact Prog.ends_done h
  | cons descriptor rest ih =>
      apply Prog.Ends.step
      apply Prog.ends_store
      exact ih (index + 1) h

/-- A ring whose descriptors have addresses is made fresh. -/
theorem ends_reset {machine : Machine ι} {post : Unit → Shared machine.State → Prop}
    (ring : Ring) {before : Shared machine.State} (positive : 0 < ring.count)
    (places : ∀ i < ring.count, ring.place i < wordSpan)
    (h : post () ⟨before.device, ring.lay 0 ring.fresh before.memory⟩) :
    (ring.reset : Prog σ Unit).Ends machine before post := by
  have hlast : ring.place (ring.count - 1) < wordSpan := places _ (by omega)
  unfold reset
  rw [if_pos (.inr hlast)]
  exact ring.ends_putFrom 0 ring.fresh h

/-! ## The cycle -/

section Laid

theorem toNat_address {i : Nat} (h : ring.place i < wordSpan) :
    (ring.address i).toNat = ring.place i :=
  UInt64.toNat_ofNat_of_lt' h

theorem address_zero (ring : Ring) : ring.address 0 = ring.base := by
  rw [address, place_zero, UInt64.ofNat_toNat]

/-- A fresh descriptor fits its words. -/
theorem descriptorAt_fresh (memory : Memory) {i : Nat} (hi : i < ring.count) :
    Bench.descriptorAt (ring.lay 0 ring.fresh memory) (ring.place i) = ring.freshEntry i := by
  have hsizes : ∀ descriptor ∈ ring.fresh, descriptor.size.toNat ≤ maxSegment := by
    intro descriptor hmem
    obtain ⟨j, -, rfl⟩ := List.mem_map.mp hmem
    exact Nat.zero_le _
  have hlaid := ring.descriptorAt_lay 0 memory hsizes (ring.getElem?_fresh hi)
  rwa [Nat.zero_add] at hlaid

variable (memory : Memory) (places : ∀ i < ring.count, ring.place i < wordSpan)
include places

/-- One step along a fresh ring. -/
theorem nextAt_fresh {i : Nat} (hi : i < ring.count) :
    nextAt (ring.lay 0 ring.fresh memory) (ring.address i) =
      ring.address ((i + 1) % ring.count) := by
  rw [nextAt, toNat_address (places i hi), descriptorAt_fresh memory hi]
  rfl

/-- A walk along a fresh ring, by induction on its length. -/
theorem iterate_nextAt_fresh (positive : 0 < ring.count) (k : Nat) :
    (nextAt (ring.lay 0 ring.fresh memory))^[k] ring.base = ring.address (k % ring.count) := by
  induction k with
  | zero => rw [Function.iterate_zero_apply, Nat.zero_mod, address_zero]
  | succ k ih =>
      rw [Function.iterate_succ_apply', ih, nextAt_fresh memory places (Nat.mod_lt k positive),
        Nat.mod_add_mod]

theorem address_eq_base_iff {i : Nat} (hi : i < ring.count) :
    ring.address i = ring.base ↔ i = 0 := by
  constructor
  · intro h
    have hplace : ring.place i = ring.place 0 := by
      rw [place_zero, ← h, toNat_address (places i hi)]
    exact ring.place_injective hplace
  · rintro rfl
    exact ring.address_zero

/-- Fresh descriptors, once laid, are one cycle. -/
theorem cycle_lay (positive : 0 < ring.count)
    (holds : ring.count * descriptorSize ≤ ring.pages * pageSize) :
    ring.Cycle (ring.lay 0 ring.fresh memory) := by
  have hwalk := iterate_nextAt_fresh memory places positive
  constructor
  case addresses =>
    intro i hi
    exact toNat_address (places i hi)
  case blank =>
    intro i hi
    rw [toNat_address (places i hi), descriptorAt_fresh memory hi]
    exact ⟨rfl, rfl, rfl⟩
  case walk => exact hwalk
  case visits =>
    intro i hi
    refine ⟨i, hi, ?_⟩
    rw [hwalk, Nat.mod_eq_of_lt hi]
  case returns =>
    intro k
    rw [hwalk, address_eq_base_iff places (Nat.mod_lt k positive), Nat.dvd_iff_mod_eq_zero]
  case inside =>
    intro k
    have hslot := Nat.mod_lt k positive
    have hend := Nat.mul_le_mul_right descriptorSize (Nat.succ_le_of_lt hslot)
    rw [hwalk, toNat_address (places _ hslot), place]
    rw [Nat.succ_mul] at hend
    omega

end Laid

/-! ## Allocating -/

/-- On every platform that grants the pages of a ring, and wherever they do not wrap around, the
ring is allocated.  Its descriptors are blank and one cycle, whatever the pages held, and outside of
them memory is as it was when the pages were granted. -/
theorem allocate_links_cycle {machine : Machine ι} (services : Services) {count : Nat}
    (positive : 1 ≤ count) (size : count < 2 ^ 59) {before granted : Shared machine.State}
    {grant : Grant}
    (allocates : machine.allocate services (pagesFor (count * descriptorSize)) before =
      (grant, granted))
    (success : grant.status = .success)
    (contiguous :
      (Pages.mk services grant.address (pagesFor (count * descriptorSize))).Contiguous) :
    (Ring.allocate services count : Action σ Ring).Succeeds machine before fun ring after =>
      ring = ⟨grant.address, count, pagesFor (count * descriptorSize)⟩
        ∧ ring.Cycle after.memory
        ∧ Memory.SameOutside ring.base.toNat (ring.place ring.count) granted.memory after.memory
        ∧ after.device = granted.device := by
  have hword : ¬ wordSpan ≤ count * descriptorSize := by
    simp only [wordSpan, descriptorSize]
    omega
  have hholds : count * descriptorSize ≤ pagesFor (count * descriptorSize) * pageSize :=
    le_pagesFor _
  have hplaces (i : Nat) (hi : i < count) :
      (Ring.mk grant.address count (pagesFor (count * descriptorSize))).place i < wordSpan :=
    (Ring.mk grant.address count _).place_lt_of_contiguous services contiguous hholds hi
  unfold allocate
  rw [if_neg (by omega), if_neg hword]
  apply Action.Succeeds.step
  apply Pages.succeeds_granted _ allocates success
  apply Action.Succeeds.step
  apply Action.succeeds_lift
  apply (Ring.mk grant.address count _).ends_reset positive hplaces
  apply Action.Succeeds.step
  apply Action.succeeds_lift
  apply Prog.ends_log
  have hsame := lay_sameOutside ⟨grant.address, count, pagesFor (count * descriptorSize)⟩ 0
    (Ring.mk grant.address count (pagesFor (count * descriptorSize))).fresh granted.memory
  rw [fresh_length, Nat.zero_add, place_zero] at hsame
  exact Action.succeeds_pure ⟨rfl, cycle_lay granted.memory hplaces positive hholds, hsame, rfl⟩

/-- A bench whose fresh pages have all bits set. -/
def dirtyPlatform : Shared Bench.machine.State :=
  ⟨.initial 0x1F0000000 16 0xFF, .blank⟩

/-- There a walk along a ring of three gets back to the base with its third step and not before, and
what the page held behind the three descriptors is left. -/
theorem three_slots_cycle :
    (Ring.allocate .supplied 3 : Action HostState Ring).Succeeds Bench.machine dirtyPlatform
      fun ring after => (nextAt after.memory)^[3] ring.base = ring.base
        ∧ (nextAt after.memory)^[1] ring.base ≠ ring.base
        ∧ (nextAt after.memory)^[2] ring.base ≠ ring.base
        ∧ after.memory.read 0x1F0000060 descriptorSize = List.replicate 32 0xFF := by
  have hcycle : (Ring.allocate .supplied 3 : Action HostState Ring).Succeeds Bench.machine
      dirtyPlatform _ :=
    allocate_links_cycle .supplied (by decide) (by decide) rfl (by decide +kernel)
      (by rw [Pages.Contiguous]; decide +kernel)
  apply hcycle.mono
  rintro outcome after ⟨ring, hok, rfl, hcycle, hsame, -⟩
  refine ⟨_, hok, (hcycle.returns 3).mpr (by decide), ?_, ?_, ?_⟩
  · rw [Ne, hcycle.returns]
    decide
  · rw [Ne, hcycle.returns]
    decide
  · rw [hsame.read_eq (.inr (by decide +kernel))]
    decide +kernel

end Ring

end CardHost
