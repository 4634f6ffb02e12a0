import CardHost.Proofs.Exposure

/-!
# The chain that a transfer prepares

Preparing a transfer stores one descriptor for each of its segments, from the first place of the
ring on.  What stands there afterwards is a chain in good order (`Ring.InOrder`): followed from the
base, it visits the places it needs once each and ends, its flags mark its two ends, and its buffers
lie one behind the other and hold the whole blocks of the transfer together.

`Ring.prepare_builds_chain` says so of every ring, whatever was stored in it before, and that no
other descriptor changes; a transfer that is refused changes nothing.
-/

namespace CardHost

/-! ## Following next addresses -/

/-- The addresses that a walk along the descriptors visits, up to one without a next address. -/
inductive Visits (memory : Memory) : Nat → List Nat → Prop
  | ends {address : Nat} (h : (Bench.descriptorAt memory address).next = 0) :
      Visits memory address [address]
  | goes {address : Nat} {later : List Nat} (h : (Bench.descriptorAt memory address).next ≠ 0)
      (rest : Visits memory (Bench.descriptorAt memory address).next.toNat later) :
      Visits memory address (address :: later)

/-- There is at most one walk from an address on. -/
theorem Visits.unique {memory : Memory} {address : Nat} {visited other : List Nat}
    (h : Visits memory address visited) (hother : Visits memory address other) :
    other = visited := by
  induction h generalizing other with
  | ends h =>
      cases hother with
      | ends => rfl
      | goes hgoes => exact (hgoes h).elim
  | goes h _ ih =>
      cases hother with
      | ends hends => exact (h hends).elim
      | goes _ rest => rw [ih rest]

namespace Ring

/-- Different descriptors have different places. -/
theorem place_injective (ring : Ring) : Function.Injective ring.place := by
  intro i j h
  simp only [place, descriptorSize] at h
  omega

/-! ## Chains in good order -/

/-- The bytes that the first descriptors have together. -/
def carried (ring : Ring) (memory : Memory) : Nat → Nat
  | 0 => 0
  | count + 1 =>
    ring.carried memory count + (Bench.descriptorAt memory (ring.place count)).size.toNat

theorem carried_full {ring : Ring} {memory : Memory} {segment count : Nat}
    (h : ∀ i < count, (Bench.descriptorAt memory (ring.place i)).size.toNat = segment) :
    ring.carried memory count = count * segment := by
  induction count with
  | zero => exact (Nat.zero_mul segment).symm
  | succ count ih =>
      rw [carried, ih fun i hi => h i (by omega), h count (Nat.lt_succ_self count), Nat.succ_mul]

/-- The descriptors of a transfer are a chain in good order: a walk from the base visits the places
that the transfer needs and ends with the last of them, the flags mark first and last, and the
buffers lie one behind the other, all of one segment but the last, and have the whole blocks of the
transfer together. -/
structure InOrder (ring : Ring) (geometry : Geometry) (buffer : UInt64) (segment : Nat)
    (memory : Memory) : Prop where
  walk : Visits memory ring.base.toNat ((List.range geometry.segments).map ring.place)
  once : ((List.range geometry.segments).map ring.place).Nodup
  ends : ∀ i < geometry.segments,
    (Bench.descriptorAt memory (ring.place i)).next = 0 ↔ i + 1 = geometry.segments
  owned : ∀ i < geometry.segments,
    hasAll (Bench.descriptorAt memory (ring.place i)).flags DescriptorFlags.owned = true
  first : ∀ i < geometry.segments,
    hasAll (Bench.descriptorAt memory (ring.place i)).flags DescriptorFlags.first = true ↔ i = 0
  last : ∀ i < geometry.segments,
    hasAll (Bench.descriptorAt memory (ring.place i)).flags DescriptorFlags.last = true
      ↔ i + 1 = geometry.segments
  endOfRing : ∀ i < geometry.segments,
    hasAll (Bench.descriptorAt memory (ring.place i)).flags DescriptorFlags.endOfRing = true
      ↔ i + 1 = geometry.segments
  chained : ∀ i < geometry.segments,
    hasAll (Bench.descriptorAt memory (ring.place i)).flags DescriptorFlags.chained = true
      ↔ i + 1 ≠ geometry.segments
  quiet : ∀ i < geometry.segments,
    hasAll (Bench.descriptorAt memory (ring.place i)).flags DescriptorFlags.quiet = true
      ↔ i + 1 ≠ geometry.segments
  buffers : ∀ i < geometry.segments,
    (Bench.descriptorAt memory (ring.place i)).buffer.toNat = buffer.toNat + i * segment
  full : ∀ i, i + 1 < geometry.segments →
    (Bench.descriptorAt memory (ring.place i)).size.toNat = segment
  rest : ∀ i, i + 1 = geometry.segments →
    0 < (Bench.descriptorAt memory (ring.place i)).size.toNat
      ∧ (Bench.descriptorAt memory (ring.place i)).size.toNat ≤ segment
  total : ring.carried memory geometry.segments = geometry.bytes

/-- A transfer that the ring carries: segments are whole blocks and fit the size field, there are
descriptors enough, and no size or address leaves the range of a word. -/
structure Carries (ring : Ring) (buffer : UInt64) (length segment block : Nat) : Prop
    extends Bench.Carriable length segment block where
  room : (Geometry.ofLength length segment block).segments ≤ ring.count
  bytes : (Geometry.ofLength length segment block).bytes < wordSpan
  buffers : buffer.toNat + ((Geometry.ofLength length segment block).segments - 1) * segment <
    wordSpan
  places : ring.place (Geometry.ofLength length segment block).segments < wordSpan

theorem hasAll_first (first last : Bool) :
    hasAll (segmentFlags first last) DescriptorFlags.first = first := by
  cases first <;> cases last <;> decide

theorem hasAll_endOfRing (first last : Bool) :
    hasAll (segmentFlags first last) DescriptorFlags.endOfRing = last := by
  cases first <;> cases last <;> decide

theorem hasAll_chained (first last : Bool) :
    hasAll (segmentFlags first last) DescriptorFlags.chained = !last := by
  cases first <;> cases last <;> decide

theorem hasAll_quiet (first last : Bool) :
    hasAll (segmentFlags first last) DescriptorFlags.quiet = !last := by
  cases first <;> cases last <;> decide

namespace Carries

variable {ring : Ring} {buffer : UInt64} {length segment block : Nat} {memory : Memory}

theorem next_eq_zero_iff (h : ring.Carries buffer length segment block) {i : Nat}
    (hi : i < (Geometry.ofLength length segment block).segments) :
    (ring.segmentEntry (Geometry.ofLength length segment block) buffer segment i).next = 0
      ↔ i + 1 = (Geometry.ofLength length segment block).segments := by
  by_cases hend : i + 1 = (Geometry.ofLength length segment block).segments
  · simp [segmentEntry, hend]
  · have hmore : i + 1 < (Geometry.ofLength length segment block).segments := by omega
    have hbehind := ring.place_behind hmore
    have hplaces := h.places
    have hnext : (ring.segmentEntry (Geometry.ofLength length segment block) buffer segment
        i).next.toNat = ring.place (i + 1) := Bench.segmentEntry_next hmore (by omega)
    have hpos : 0 < ring.place (i + 1) := by
      simp only [place, descriptorSize]
      omega
    constructor
    · intro hzero
      rw [hzero] at hnext
      simp at hnext
      omega
    · intro heq
      exact (hend heq).elim

/-- From segment `i` on, the walk visits the places of the segments left. -/
theorem visits_from (h : ring.Carries buffer length segment block)
    (hchained : Bench.Chained ring (Geometry.ofLength length segment block) buffer segment 0 memory)
    (left : Nat) {i : Nat}
    (hleft : i + left + 1 = (Geometry.ofLength length segment block).segments) :
    Visits memory (ring.place i) ((List.range' i (left + 1)).map ring.place) := by
  induction left generalizing i with
  | zero =>
      apply Visits.ends
      rw [hchained i (Nat.zero_le i) (by omega), h.next_eq_zero_iff (by omega)]
      omega
  | succ left ih =>
      have hentry := hchained i (Nat.zero_le i) (by omega)
      have hmore : i + 1 < (Geometry.ofLength length segment block).segments := by omega
      have hbehind := ring.place_behind hmore
      have hplaces := h.places
      rw [List.range'_succ, List.map_cons]
      apply Visits.goes
      · rw [hentry, Ne, h.next_eq_zero_iff (by omega)]
        omega
      · rw [hentry, Bench.segmentEntry_next hmore (by omega)]
        exact ih (by omega)

/-- The segments have the whole blocks together. -/
theorem carried_segments (h : ring.Carries buffer length segment block)
    (hchained : Bench.Chained ring (Geometry.ofLength length segment block) buffer segment 0
      memory) :
    ring.carried memory (Geometry.ofLength length segment block).segments =
      (Geometry.ofLength length segment block).bytes := by
  have hbytes := Geometry.bytes_eq h.lengthPos h.segmentPos h.blockPos
  have hpos := Geometry.segments_pos h.lengthPos h.segmentPos block
  have hsize (i : Nat) (hi : i < (Geometry.ofLength length segment block).segments) :
      (Bench.descriptorAt memory (ring.place i)).size.toNat =
        if i + 1 = (Geometry.ofLength length segment block).segments then
          (Geometry.ofLength length segment block).lastSegment
        else segment := by
    rw [hchained i (Nat.zero_le i) hi, h.size_eq]
  obtain ⟨before, hbefore⟩ : ∃ before,
      (Geometry.ofLength length segment block).segments = before + 1 :=
    ⟨(Geometry.ofLength length segment block).segments - 1, by omega⟩
  have hfull : ring.carried memory before = before * segment := by
    apply carried_full
    intro i hi
    rw [hsize i (by omega), if_neg (by omega)]
  rw [hbefore, Nat.add_sub_cancel] at hbytes
  rw [hbefore, carried, hfull, hsize before (by omega), if_pos hbefore.symm]
  exact hbytes

/-- The chain of a transfer is in good order wherever it stands. -/
theorem inOrder (h : ring.Carries buffer length segment block)
    (hchained : Bench.Chained ring (Geometry.ofLength length segment block) buffer segment 0
      memory) :
    ring.InOrder (Geometry.ofLength length segment block) buffer segment memory := by
  have hpos := Geometry.segments_pos h.lengthPos h.segmentPos block
  have hentry (i : Nat) (hi : i < (Geometry.ofLength length segment block).segments) :=
    hchained i (Nat.zero_le i) hi
  constructor
  case walk =>
    have hwalk := h.visits_from hchained
      ((Geometry.ofLength length segment block).segments - 1) (i := 0) (by omega)
    rwa [Nat.sub_add_cancel hpos, ← List.range_eq_range', ring.place_zero] at hwalk
  case once =>
    apply List.pairwise_map.mpr
    exact List.nodup_range.imp fun hne heq => hne (ring.place_injective heq)
  case ends =>
    intro i hi
    rw [hentry i hi]
    exact h.next_eq_zero_iff hi
  case owned =>
    intro i hi
    rw [hentry i hi]
    exact Bench.hasAll_owned _ _
  case first =>
    intro i hi
    rw [hentry i hi]
    exact (Bool.eq_iff_iff.mp (hasAll_first _ _)).trans beq_iff_eq
  case last =>
    intro i hi
    rw [hentry i hi]
    exact (Bool.eq_iff_iff.mp (Bench.hasAll_last _ _)).trans beq_iff_eq
  case endOfRing =>
    intro i hi
    rw [hentry i hi]
    exact (Bool.eq_iff_iff.mp (hasAll_endOfRing _ _)).trans beq_iff_eq
  case chained =>
    intro i hi
    rw [hentry i hi]
    exact (Bool.eq_iff_iff.mp (hasAll_chained _ _)).trans (by simp)
  case quiet =>
    intro i hi
    rw [hentry i hi]
    exact (Bool.eq_iff_iff.mp (hasAll_quiet _ _)).trans (by simp)
  case buffers =>
    intro i hi
    rw [hentry i hi]
    exact segmentEntry_buffer ring h.buffers hi
  case full =>
    intro i hi
    rw [hentry i (by omega), h.size_eq, if_neg (by omega)]
  case rest =>
    intro i hi
    have hbytes := Geometry.bytes_eq h.lengthPos h.segmentPos h.blockPos
    have hbefore : ((Geometry.ofLength length segment block).segments - 1) * segment < length :=
      Geometry.before_last_lt h.lengthPos h.segmentPos
    have hlength : length ≤ (Geometry.ofLength length segment block).bytes :=
      Geometry.length_le_bytes h.blockPos
    have hle := Geometry.lastSegment_le h.lengthPos h.segmentPos h.blockPos h.whole
    rw [hentry i (by omega), h.size_eq, if_pos hi]
    omega
  case total => exact h.carried_segments hchained

end Carries

/-! ## Preparing -/

variable {buffer : UInt64} {length segment block : Nat} {machine : Machine ι}

/-- A transfer that the ring carries has its addresses. -/
theorem Carries.chain?_eq {ring : Ring} (h : ring.Carries buffer length segment block) :
    ring.chain? (Geometry.ofLength length segment block) buffer segment =
      some (ring.chain (Geometry.ofLength length segment block) buffer segment) :=
  if_pos ⟨h.buffers, h.places⟩

theorem Carries.ofLength?_eq {ring : Ring} (h : ring.Carries buffer length segment block) :
    Geometry.ofLength? length segment block = some (Geometry.ofLength length segment block) := by
  have hsegment := h.segmentPos
  have hblock := h.blockPos
  have hbytes : ceilDiv length block * block < wordSpan := h.bytes
  unfold Geometry.ofLength?
  rw [if_neg (by omega)]

/-- A transfer that is refused leaves the platform as it was, and is empty or too long for the
ring. -/
theorem ensures_prepare_refused (ring : Ring) (before : Shared machine.State) :
    (ring.prepare length buffer segment block : Action σ Geometry).run.Ensures machine before
      fun outcome after => ∀ error, outcome = .error error → after = before
        ∧ (length = 0 ∧ error = .invalidArgument
          ∨ ring.count < (Geometry.ofLength length segment block).segments
            ∧ error = .outOfResources) := by
  have faults {α : Type} {post : α → Shared machine.State → Prop} :
      (Prog.fault : Prog σ α).Ensures machine before post :=
    fun _ _ _ _ _ _ _ ran => by cases ran
  unfold prepare
  by_cases hlength : length = 0
  · rw [if_pos hlength]
    apply Prog.Ends.ensures
    apply Prog.ends_done
    rintro error ⟨⟩
    exact ⟨rfl, .inl ⟨hlength, rfl⟩⟩
  · rw [if_neg hlength]
    unfold Geometry.ofLength?
    split
    · exact faults
    · rw [Action.run_lift_bind]
      simp only [Prog.require, Prog.bind]
      by_cases hroom : ring.count < (Geometry.ofLength length segment block).segments
      · rw [if_pos hroom, Action.run_lift_bind]
        apply Prog.Ends.ensures
        apply Prog.Ends.step
        apply Prog.ends_log
        apply Prog.ends_done
        rintro error ⟨⟩
        exact ⟨rfl, .inr ⟨hroom, rfl⟩⟩
      · rw [if_neg hroom]
        unfold chain?
        split
        · apply Prog.Ends.ensures
          rw [Action.run_lift_bind]
          simp only [Prog.bind]
          rw [Action.run_lift_bind]
          apply Prog.Ends.step
          apply ring.ends_putChain
          apply Prog.ends_done
          rintro error ⟨⟩
        · exact faults

/-- An empty transfer and one that is too long for the ring are refused. -/
theorem ends_prepare_refused (ring : Ring) (before : Shared machine.State)
    (h : length = 0 ∨ 0 < segment ∧ 0 < block
      ∧ (Geometry.ofLength length segment block).bytes < wordSpan
      ∧ ring.count < (Geometry.ofLength length segment block).segments) :
    (ring.prepare length buffer segment block : Action σ Geometry).run.Ends machine before
      fun outcome after => after = before ∧ ∃ error, outcome = .error error := by
  unfold prepare
  by_cases hlength : length = 0
  · rw [if_pos hlength]
    exact Prog.ends_done ⟨rfl, _, rfl⟩
  · obtain ⟨hsegment, hblock, hbytes, hroom⟩ := h.resolve_left hlength
    have hsplits : Geometry.ofLength? length segment block =
        some (Geometry.ofLength length segment block) := by
      have hspan : ceilDiv length block * block < wordSpan := hbytes
      unfold Geometry.ofLength?
      rw [if_neg (by omega)]
    rw [if_neg hlength, hsplits, Action.run_lift_bind]
    simp only [Prog.require, Prog.bind]
    rw [if_pos hroom, Action.run_lift_bind]
    apply Prog.Ends.step
    apply Prog.ends_log
    exact Prog.ends_done ⟨rfl, _, rfl⟩

/-- Whatever a ring holds, preparing a transfer that it carries ends with a chain in good order, of
descriptors that depend on the transfer alone, and changes nothing outside of them.  A transfer that
is refused, because it is empty or too long for the ring, changes nothing at all. -/
theorem prepare_builds_chain (ring : Ring) (buffer : UInt64) (length segment block : Nat) :
    (ring.Carries buffer length segment block → ∃ slots : Nat → List UInt8,
      ∀ {ι : Type} (machine : Machine ι) (before : Shared machine.State),
        (ring.prepare length buffer segment block : Action σ Geometry).run.Ends machine before
          fun outcome after =>
            outcome = .ok (Geometry.ofLength length segment block)
            ∧ after.device = before.device
            ∧ ring.InOrder (Geometry.ofLength length segment block) buffer segment after.memory
            ∧ (∀ i < (Geometry.ofLength length segment block).segments,
              after.memory.read (ring.place i) descriptorSize = slots i)
            ∧ (∀ i, (Geometry.ofLength length segment block).segments ≤ i →
              after.memory.read (ring.place i) descriptorSize =
                before.memory.read (ring.place i) descriptorSize)
            ∧ Memory.SameOutside ring.base.toNat
              (ring.place (Geometry.ofLength length segment block).segments)
              before.memory after.memory)
      ∧ ∀ {ι : Type} (machine : Machine ι) (before : Shared machine.State),
        ((length = 0 ∨ 0 < segment ∧ 0 < block
            ∧ (Geometry.ofLength length segment block).bytes < wordSpan
            ∧ ring.count < (Geometry.ofLength length segment block).segments) →
          (ring.prepare length buffer segment block : Action σ Geometry).run.Ends machine before
            fun outcome after => after = before ∧ ∃ error, outcome = .error error)
        ∧ (ring.prepare length buffer segment block : Action σ Geometry).run.Ensures
          machine before fun outcome after => ∀ error, outcome = .error error → after = before
            ∧ (length = 0 ∧ error = .invalidArgument
              ∨ ring.count < (Geometry.ofLength length segment block).segments
                ∧ error = .outOfResources) := by
  refine ⟨fun h => ?_, fun machine before =>
    ⟨ends_prepare_refused ring before, ensures_prepare_refused ring before⟩⟩
  refine ⟨fun i => (ring.segmentEntry (Geometry.ofLength length segment block) buffer segment
    i).encode.toBytes, fun machine before => ?_⟩
  have hsucceeds : (ring.prepare length buffer segment block : Action σ Geometry).Succeeds machine
      before fun geometry after => geometry = Geometry.ofLength length segment block
        ∧ after = ⟨before.device, ring.lay 0
          (ring.chain (Geometry.ofLength length segment block) buffer segment) before.memory⟩ :=
    succeeds_prepare h.lengthPos h.ofLength?_eq h.room h.chain?_eq ⟨rfl, rfl⟩
  apply Prog.Ends.mono hsucceeds
  rintro outcome after ⟨geometry, rfl, rfl, rfl⟩
  have hsame := ring.lay_sameOutside 0
    (ring.chain (Geometry.ofLength length segment block) buffer segment) before.memory
  rw [Nat.zero_add, chain_length, ring.place_zero] at hsame
  refine ⟨rfl, rfl, h.inOrder (h.chained_lay ring buffer before.memory), ?_, ?_, hsame⟩
  · intro i hi
    have hread := ring.read_lay 0 before.memory (ring.getElem?_chain buffer segment hi)
    rwa [Nat.zero_add] at hread
  · intro i hi
    apply hsame.read_eq
    right
    simp only [place, descriptorSize]
    omega

/-- A ring of three descriptors. -/
def threeSlots : Ring := ⟨0x1F0000000, 3, 1⟩

/-- A platform whose memory has all bits set where those descriptors are. -/
def filledPlatform : Shared Bench.machine.State where
  device := .initial 0x1F0000000 16 0
  memory := Memory.blank.write 0x1F0000000 (List.replicate 96 0xFF)

/-- There 1000 bytes in blocks of 512 take two descriptors, the third stays filled, and 2000 bytes
are refused. -/
theorem three_slots_chain_two :
    ((threeSlots.prepare 1000 0x200000000 512 512 : Action HostState Geometry).run.Ends
        Bench.machine filledPlatform fun outcome after =>
          outcome = .ok ⟨2, 2, 1024, 512⟩
          ∧ Visits after.memory 0x1F0000000 [0x1F0000000, 0x1F0000020]
          ∧ (Bench.descriptorAt after.memory 0x1F0000020).next = 0
          ∧ after.memory.read 0x1F0000040 descriptorSize = List.replicate 32 0xFF)
      ∧ (threeSlots.prepare 2000 0x200000000 512 512 : Action HostState Geometry).run.Ends
        Bench.machine filledPlatform fun outcome after =>
          after = filledPlatform ∧ ∃ error, outcome = .error error := by
  constructor
  · have hcarries : threeSlots.Carries 0x200000000 1000 512 512 := by
      constructor
      · constructor <;> decide
      all_goals decide
    obtain ⟨slots, hbuilds⟩ := (prepare_builds_chain (σ := HostState) _ _ _ _ _).1 hcarries
    apply (hbuilds Bench.machine filledPlatform).mono
    rintro outcome after ⟨hok, -, hordered, -, hothers, -⟩
    refine ⟨hok, hordered.walk, (hordered.ends 1 (by decide)).mpr rfl, ?_⟩
    exact (hothers 2 (by decide)).trans (by decide +kernel)
  · apply ((prepare_builds_chain threeSlots _ _ _ _).2 Bench.machine filledPlatform).1
    decide

end Ring

end CardHost
