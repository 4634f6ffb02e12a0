import CardHost.Proofs.Arrival
import CardHost.Proofs.Bench.Chain
import CardHost.Proofs.Effects

/-!
# What a write exposes to the card

When a write starts its command, the card follows the descriptors from the ring base on.  It finds
the bytes of the caller and zeros up to the end of the last block, and nothing that was in the ring
or in the staging pages before.

`Described` says what a chain of descriptors describes, and there is only one answer
(`Described.unique`).  The memory at the command is the one that the stores of the installation make
(`linked_sameOn`), where the hardware spares the ring and the pages.  `described_chain` is the
induction along the chain, one segment a step.
-/

namespace CardHost

/-! ## Following descriptors -/

/-- What the descriptors from an address on describe: the bytes of their buffers one after the
other, up to the descriptor with the last flag. -/
inductive Described (memory : Memory) : Nat → List UInt8 → Prop
  | last {address : Nat}
      (ends : hasAll (Bench.descriptorAt memory address).flags DescriptorFlags.last = true) :
      Described memory address
        (memory.read (Bench.descriptorAt memory address).buffer.toNat
          (Bench.descriptorAt memory address).size.toNat)
  | next {address : Nat} {bytes : List UInt8}
      (goes : hasAll (Bench.descriptorAt memory address).flags DescriptorFlags.last = false)
      (rest : Described memory (Bench.descriptorAt memory address).next.toNat bytes) :
      Described memory address
        (memory.read (Bench.descriptorAt memory address).buffer.toNat
          (Bench.descriptorAt memory address).size.toNat ++ bytes)

/-- Descriptors describe at most one list of bytes. -/
theorem Described.unique {memory : Memory} {address : Nat} {bytes other : List UInt8}
    (h : Described memory address bytes) (hother : Described memory address other) :
    other = bytes := by
  induction h generalizing other with
  | last ends =>
      cases hother with
      | last => rfl
      | next goes =>
          rw [ends] at goes
          cases goes
  | next goes _ ih =>
      cases hother with
      | last ends =>
          rw [ends] at goes
          cases goes
      | next _ rest => rw [ih rest]

namespace Memory

/-- A range is its front and the rest. -/
theorem read_add (memory : Memory) (address front rest : Nat) :
    memory.read address (front + rest) =
      memory.read address front ++ memory.read (address + front) rest := by
  simp only [read, List.range_add, List.map_append, List.map_map]
  congr 1
  apply List.map_congr_left
  intro i _
  rw [Function.comp_apply, Nat.add_assoc]

theorem take_read (memory : Memory) (address : Nat) {count whole : Nat} (h : count ≤ whole) :
    (memory.read address whole).take count = memory.read address count := by
  obtain ⟨rest, rfl⟩ : ∃ rest, whole = count + rest := ⟨whole - count, by omega⟩
  have hlength : (memory.read address count).length = count := length_read memory address count
  rw [read_add, List.take_append_of_le_length (by omega), List.take_of_length_le (by omega)]

end Memory

/-- The buffer of a segment starts where the segments before it end. -/
theorem segmentEntry_buffer (ring : Ring) {geometry : Geometry} {buffer : UInt64} {segment i : Nat}
    (hbuffers : buffer.toNat + (geometry.segments - 1) * segment < wordSpan)
    (hi : i < geometry.segments) :
    (ring.segmentEntry geometry buffer segment i).buffer.toNat = buffer.toNat + i * segment := by
  have hle : i * segment ≤ (geometry.segments - 1) * segment :=
    Nat.mul_le_mul_right segment (by omega)
  apply UInt64.toNat_ofNat_of_lt'
  show buffer.toNat + i * segment < wordSpan
  omega

/-- From segment `i` on, the chain of a transfer describes what is left of its buffer. -/
theorem described_chain {ring : Ring} {buffer : UInt64} {length segment block : Nat}
    {memory : Memory} (h : Bench.Carriable length segment block)
    (hbuffers : buffer.toNat +
      ((Geometry.ofLength length segment block).segments - 1) * segment < wordSpan)
    (hplaces : ring.place (Geometry.ofLength length segment block).segments < wordSpan)
    (hchained : Bench.Chained ring (Geometry.ofLength length segment block) buffer segment 0 memory)
    (left : Nat) {i : Nat}
    (hleft : i + left + 1 = (Geometry.ofLength length segment block).segments) :
    Described memory (ring.place i)
      (memory.read (buffer.toNat + i * segment)
        ((Geometry.ofLength length segment block).bytes - i * segment)) := by
  have hbytes := Geometry.bytes_eq h.lengthPos h.segmentPos h.blockPos
  induction left generalizing i with
  | zero =>
      have hentry := hchained i (Nat.zero_le i) (by omega)
      have hend : i + 1 = (Geometry.ofLength length segment block).segments := by omega
      have hdescribed : Described memory (ring.place i) _ := .last (by
        rw [hentry]
        exact (Bench.hasAll_last _ _).trans (beq_iff_eq.mpr hend))
      rw [hentry, segmentEntry_buffer ring hbuffers (by omega), h.size_eq,
        if_pos hend] at hdescribed
      rw [← hbytes, ← hend, Nat.add_sub_cancel, Nat.add_sub_cancel_left]
      exact hdescribed
  | succ left ih =>
      have hentry := hchained i (Nat.zero_le i) (by omega)
      have hend : ¬ i + 1 = (Geometry.ofLength length segment block).segments := by omega
      have hmore : i + 1 < (Geometry.ofLength length segment block).segments := by omega
      have hbehind := ring.place_behind hmore
      have hnext : (ring.segmentEntry (Geometry.ofLength length segment block) buffer segment
          i).next.toNat = ring.place (i + 1) := Bench.segmentEntry_next hmore (by omega)
      have hrest : Described memory (ring.place (i + 1)) _ := ih (by omega)
      rw [← hnext, ← hentry] at hrest
      have hdescribed : Described memory (ring.place i) _ := .next (by
        rw [hentry]
        exact (Bench.hasAll_last _ _).trans (beq_false_of_ne hend)) hrest
      rw [hentry, segmentEntry_buffer ring hbuffers (by omega), h.size_eq, if_neg hend]
        at hdescribed
      -- The segment and what is left behind it.
      have hstart : (i + 1) * segment ≤
          ((Geometry.ofLength length segment block).segments - 1) * segment :=
        Nat.mul_le_mul_right segment (by omega)
      rw [Nat.succ_mul] at hstart hdescribed
      have hsplit : (Geometry.ofLength length segment block).bytes - i * segment =
          segment + ((Geometry.ofLength length segment block).bytes - (i * segment + segment)) := by
        omega
      rw [hsplit, Memory.read_add, Nat.add_assoc]
      exact hdescribed

/-! ## Memory along a trace -/

/-- Two memories agree on some addresses. -/
def Memory.SameOn (region : Nat → Prop) (before after : Memory) : Prop :=
  ∀ address, region address → after.get address = before.get address

namespace Memory.SameOn

variable {region : Nat → Prop} {before middle after : Memory}

theorem refl (region : Nat → Prop) (memory : Memory) : SameOn region memory memory :=
  fun _ _ => rfl

theorem trans (first : SameOn region before middle) (second : SameOn region middle after) :
    SameOn region before after :=
  fun address h => (second address h).trans (first address h)

theorem read_eq (h : SameOn region before after) {address count : Nat}
    (hinside : ∀ i < count, region (address + i)) :
    after.read address count = before.read address count := by
  apply read_eq_of_get_eq
  intro i hi
  exact h _ (hinside i hi)

/-- Memories that agree still do once the same bytes are stored. -/
theorem write (h : SameOn region before after) (address : Nat) (bytes : List UInt8) :
    SameOn region (before.write address bytes) (after.write address bytes) := by
  intro other hother
  rw [get_write, get_write, h other hother]

end Memory.SameOn

/-- The memory after what a request stores. -/
def Request.stored (request : Request σ) (memory : Memory) : Memory :=
  match request with
  | .store address bytes => memory.write address bytes
  | _ => memory

/-- The memory after what requests store. -/
def stored (requests : List (Request σ)) (memory : Memory) : Memory :=
  requests.foldl (fun memory request => request.stored memory) memory

theorem stored_append (front back : List (Request σ)) (memory : Memory) :
    stored (front ++ back) memory = stored back (stored front memory) := by
  unfold stored
  rw [List.foldl_append]

theorem Memory.SameOn.stored {region : Nat → Prop} {before after : Memory}
    (h : before.SameOn region after) (request : Request σ) :
    (request.stored before).SameOn region (request.stored after) := by
  cases request with
  | store address bytes => exact h.write address bytes
  | _ => exact h

theorem Request.stored_of_not_effect {request : Request σ} (h : ¬ request.isEffect = true)
    (memory : Memory) : request.stored memory = memory := by
  cases request with
  | store => exact (h rfl).elim
  | _ => rfl

/-- A request that gives the hardware time: it may change memory meanwhile. -/
def Request.OnHardware : Request σ → Prop
  | .read .. => True
  | .write .. => True
  | .stall .. => True
  | _ => False

section Traces

variable {machine : Machine ι} {region : Nat → Prop}

/-- The hardware leaves some addresses alone. -/
def Moment.Spares (region : Nat → Prop) (moment : Moment machine σ ρ) : Prop :=
  moment.request.OnHardware → moment.system.shared.memory.SameOn region moment.after.memory

/-- Where the hardware spares it and no pages move, memory changes by what is stored. -/
theorem Moment.Spares.after {moment : Moment machine σ ρ} (h : moment.Spares region)
    (hpages : moment.request.Unpaged ∨ moment.request.Idle) :
    (moment.request.stored moment.system.shared.memory).SameOn region moment.after.memory := by
  obtain ⟨request, shared, level, cell, verbosity, journal⟩ := moment
  cases request with
  | read => exact h trivial
  | write => exact h trivial
  | stall => exact h trivial
  | allocate => rcases hpages with hpages | hpages <;> exact hpages.elim
  | free => rcases hpages with hpages | hpages <;> exact hpages.elim
  | _ => exact Memory.SameOn.refl region _

/-- Along a linked trace, memory that the hardware spares changes by the stores of its effects. -/
theorem linked_sameOn {trace : List (Moment machine σ ρ)} {before after : Shared machine.State}
    (hlinked : Linked before trace after) (hspares : ∀ moment ∈ trace, moment.Spares region)
    (hpages : ∀ moment ∈ trace, moment.request.Unpaged ∨ moment.request.Idle) {memory : Memory}
    (hsame : memory.SameOn region before.memory) :
    (stored (effects trace) memory).SameOn region after.memory := by
  induction trace generalizing before memory with
  | nil =>
      have hend : before = after := hlinked
      subst hend
      exact hsame
  | cons moment rest ih =>
      obtain ⟨rfl, hrest⟩ := hlinked
      have hfirst := (hspares moment List.mem_cons_self).after (hpages moment List.mem_cons_self)
      have hmemory : (moment.request.stored memory).SameOn region moment.after.memory :=
        (hsame.stored moment.request).trans hfirst
      have hlater := ih hrest (fun other hmem => hspares other (List.mem_cons_of_mem _ hmem))
        (fun other hmem => hpages other (List.mem_cons_of_mem _ hmem)) hmemory
      rw [effects_cons, stored_append]
      by_cases heffect : moment.request.isEffect = true
      · rw [if_pos heffect]
        exact hlater
      · rw [if_neg heffect]
        rw [Request.stored_of_not_effect heffect] at hlater
        exact hlater

end Traces

/-! ## The memory that a transfer installs -/

theorem stored_stores (ring : Ring) (index : Nat) (descriptors : List Descriptor)
    (memory : Memory) :
    stored (ring.stores index descriptors : List (Request σ)) memory =
      ring.lay index descriptors memory := by
  induction descriptors generalizing index memory with
  | nil => rfl
  | cons descriptor rest ih => exact ih (index + 1) _

/-- Memory with the data to send staged in the pages, zeros behind it, and the chain in the ring. -/
def Host.laidOut (host : Host) (ring : Ring) (length : Nat) (bytes : List UInt8) (pages : Pages)
    (memory : Memory) : Memory :=
  ring.lay 0 (ring.chain (host.split length) pages.address host.config.segmentSize.toNat)
    (memory.write pages.address.toNat
      (bytes.take length ++ List.replicate (pages.size - length) 0))

/-- An installation stages the data to send and lays the chain. -/
theorem stored_installation (host : Host) (ring : Ring) (argument : UInt32) (length : Nat)
    (buffer : DataBuffer) (pages : Pages) (mode control enable : UInt32) (memory : Memory) :
    stored (host.installation ring argument length buffer pages mode control enable :
        List (Request σ)) memory =
      ring.lay 0 (ring.chain (host.split length) pages.address host.config.segmentSize.toNat)
        (stored (buffer.stores pages length : List (Request σ)) memory) := by
  unfold Host.installation
  rw [stored_append, stored_append, stored_stores]
  rfl

/-- Where a transfer stands in memory: in the places of the ring and in its staging pages. -/
def Ring.Reserves (ring : Ring) (pages : Pages) (address : Nat) : Prop :=
  (ring.base.toNat ≤ address ∧ address < ring.place ring.count)
    ∨ (pages.address.toNat ≤ address ∧ address < pages.address.toNat + pages.size)

/-- The ring and staging pages do not overlap. -/
def Ring.Apart (ring : Ring) (pages : Pages) : Prop :=
  ring.place ring.count ≤ pages.address.toNat
    ∨ pages.address.toNat + pages.size ≤ ring.base.toNat

instance (ring : Ring) (pages : Pages) : Decidable (ring.Apart pages) :=
  inferInstanceAs (Decidable (_ ∨ _))

/-- The bytes of a transfer, with zeros up to the end of the last block. -/
def Host.padded (host : Host) (length : Nat) (source : List UInt8) : List UInt8 :=
  source.take length
    ++ List.replicate (ceilDiv length host.config.blockSize.toNat * host.config.blockSize.toNat
      - length) 0

namespace Host

variable {host : Host} {ring : Ring} {latch : Latch} {length : Nat} {pages : Pages}

/-- A usable configuration gives transfers that descriptors can carry. -/
theorem carriable (host : Host) (positive : 0 < length) :
    Bench.Carriable length host.config.segmentSize.toNat host.config.blockSize.toNat := by
  obtain ⟨⟨hsegment, hblock, -⟩, ⟨hwhole, hmax⟩, -⟩ := host.config.usable_iff.mp host.usable
  exact ⟨positive, hsegment, hblock, hwhole, hmax⟩

theorem Cleared.carriable {buffer : DataBuffer}
    (h : host.Cleared ring latch length buffer pages) :
    Bench.Carriable length host.config.segmentSize.toNat host.config.blockSize.toNat :=
  host.carriable h.positive

/-- The chain of the transfer ends inside the ring. -/
theorem Cleared.places_le {buffer : DataBuffer}
    (h : host.Cleared ring latch length buffer pages) :
    ring.place (host.split length).segments ≤ ring.place ring.count :=
  Nat.add_le_add_left (Nat.mul_le_mul_right _ h.room) _

/-- The staging pages hold the whole blocks. -/
theorem Cleared.bytes_le_size {buffer : DataBuffer}
    (h : host.Cleared ring latch length buffer pages) :
    (host.split length).bytes ≤ pages.size := by
  rw [Pages.size, h.staged]
  exact le_pagesFor _

/-- The staging pages start with the padded data. -/
theorem Cleared.read_staged {source : List UInt8}
    (h : host.Cleared ring latch length (.outgoing source) pages) (memory : Memory) :
    (memory.write pages.address.toNat
        (source.take length ++ List.replicate (pages.size - length) 0)).read
          pages.address.toNat (host.split length).bytes = host.padded length source := by
  have hsupplied : length ≤ source.length := h.supplied
  have hbytes := h.bytes_le_size
  have hlength : length ≤ (host.split length).bytes := Geometry.length_le_bytes h.carriable.blockPos
  have hwhole : (source.take length ++ List.replicate (pages.size - length) (0 : UInt8)).length =
      pages.size := by
    rw [List.length_append, List.length_take, List.length_replicate]
    omega
  have hread := Memory.read_write memory pages.address.toNat
    (source.take length ++ List.replicate (pages.size - length) 0)
  rw [hwhole] at hread
  rw [← Memory.take_read _ _ hbytes, hread, List.take_append, List.take_take, List.take_replicate,
    List.length_take]
  have hfront : min (host.split length).bytes length = length := by omega
  have hzeros : min ((host.split length).bytes - min length source.length) (pages.size - length) =
      (host.split length).bytes - length := by
    omega
  rw [hfront, hzeros]
  rfl

section Installed

variable {source : List UInt8} {before after : Memory}

/-- The chain of a transfer, in memory that agrees with what it installed. -/
theorem Cleared.chained (h : host.Cleared ring latch length (.outgoing source) pages)
    (hsame : (host.laidOut ring length source pages before).SameOn (ring.Reserves pages) after) :
    Bench.Chained ring (host.split length) pages.address host.config.segmentSize.toNat 0 after := by
  have hroom := h.places_le
  intro j hstart hj
  have hbase : ring.base.toNat ≤ ring.place j := Nat.le_add_right _ _
  have hbehind := ring.place_behind hj
  rw [Bench.descriptorAt, hsame.read_eq]
  · exact h.carriable.chained_lay ring pages.address _ j hstart hj
  · intro i hi
    exact .inl ⟨by omega, by omega⟩

/-- The staging pages of a transfer, in memory that agrees with what it installed. -/
theorem Cleared.read_padded (h : host.Cleared ring latch length (.outgoing source) pages)
    (apart : ring.Apart pages)
    (hsame : (host.laidOut ring length source pages before).SameOn (ring.Reserves pages) after) :
    after.read pages.address.toNat (host.split length).bytes = host.padded length source := by
  have hbytes := h.bytes_le_size
  have hroom := h.places_le
  have hlaid := ring.lay_sameOutside 0 (ring.chain (host.split length) pages.address
    host.config.segmentSize.toNat) (before.write pages.address.toNat
      (source.take length ++ List.replicate (pages.size - length) 0))
  rw [ring.chain_length, Nat.zero_add, ring.place_zero] at hlaid
  rw [hsame.read_eq, laidOut, hlaid.read_eq, h.read_staged]
  · unfold Ring.Apart at apart
    omega
  · intro i hi
    exact .inr ⟨by omega, by omega⟩

/-- In memory that agrees with what the transfer installed, the chain describes the padded data. -/
theorem Cleared.described (h : host.Cleared ring latch length (.outgoing source) pages)
    (addressed : host.Addressed ring length pages) (apart : ring.Apart pages)
    (hsame : (host.laidOut ring length source pages before).SameOn (ring.Reserves pages) after) :
    Described after ring.base.toNat (host.padded length source) := by
  have hsegments : 0 < (host.split length).segments :=
    Geometry.segments_pos h.positive h.carriable.segmentPos _
  have hdescribed : Described after (ring.place 0)
      (after.read (pages.address.toNat + 0 * host.config.segmentSize.toNat)
        ((host.split length).bytes - 0 * host.config.segmentSize.toNat)) := by
    apply described_chain h.carriable addressed.buffers addressed.places (h.chained hsame)
      ((host.split length).segments - 1)
    rw [Nat.zero_add]
    exact Nat.sub_add_cancel hsegments
  rw [Nat.zero_mul, Nat.add_zero, Nat.sub_zero, h.read_padded apart hsame,
    ring.place_zero] at hdescribed
  exact hdescribed

end Installed

/-- When a write starts its command, the ring describes the bytes of the caller with zeros up to
the end of the last block, and nothing else.  The configuration, the state of the host, what ring
and staging pages held before, and what the platform answers are arbitrary; the hardware does not
write to the ring or to the pages before the command, and these do not overlap. -/
theorem write_exposes {machine : Machine ι} (calls : ι → List Call) (depth : Nat) (length : Nat)
    (source : List UInt8) {system : System machine HostState (List Answer)}
    {front back : List (Moment machine HostState (List Answer))}
    {command : Moment machine HostState (List Answer)}
    (htrace : (host.perform (.writeData length source)).trace (fun i => host.performAll (calls i))
      depth system = front ++ command :: back)
    (hcommand : command.request.CommandsData) :
    ∃ ring latch pages, system.cell = some ⟨ring, some latch⟩
      ∧ front.filterMap Moment.granted? = [pages]
      ∧ length ≤ source.length
      ∧ (ring.Apart pages → (∀ moment ∈ front, moment.Spares (ring.Reserves pages)) →
          ∀ bytes, Described command.system.shared.memory ring.base.toNat bytes ↔
            bytes = host.padded length source) := by
  have hphase : (Call.writeData length source).phase? = some (length, .outgoing source) := rfl
  obtain ⟨⟨ring, latch, pages, mode, control, enable, hcommands⟩, -⟩ :=
    (host.perform_phased hphase _ depth system).commands (host.idles_performAll calls depth) htrace
      hcommand
  refine ⟨ring, latch, pages, hcommands.latched, hcommands.granted_eq, hcommands.cleared.supplied,
    ?_⟩
  intro apart spares
  obtain ⟨lead, between, start, rfl, -, -, hbetween, heffects, hlinked⟩ := hcommands.course
  have hspares : ∀ moment ∈ between, moment.Spares (ring.Reserves pages) := fun moment hmem =>
    spares moment (List.mem_append_right _ hmem)
  have hsame := linked_sameOn hlinked hspares hbetween (Memory.SameOn.refl _ start.memory)
  rw [heffects, stored_installation] at hsame
  have hdescribed := hcommands.cleared.described hcommands.addressed apart hsame
  intro bytes
  constructor
  · exact hdescribed.unique
  · rintro rfl
    exact hdescribed

end Host

/-! ## A write on the bench -/

/-- Whether a request leaves the memory of the bench to the driver: a register access that starts
no command. -/
def Moment.isCalm (moment : Moment Bench.machine σ ρ) : Bool :=
  match moment.request with
  | .read window _ => window.services = .supplied
  | .write window offset value =>
    window.services = .supplied && !Bench.Platform.starts offset value
  | .stall .. => false
  | _ => true

theorem Moment.spares_of_isCalm {moment : Moment Bench.machine σ ρ} (h : moment.isCalm = true)
    (region : Nat → Prop) : moment.Spares region := by
  intro hhardware address _
  obtain ⟨request, ⟨device, memory⟩, level, cell, verbosity, journal⟩ := moment
  cases request with
  | read window offset =>
      have hsupplied : window.services = .supplied := of_decide_eq_true h
      simp only [Moment.after, System.answer, Bench.machine, Bench.machineWith, hsupplied]
  | write window offset value =>
      simp only [isCalm, Bool.and_eq_true, decide_eq_true_eq, Bool.not_eq_true'] at h
      simp only [Moment.after, System.answer, Bench.machine, Bench.machineWith, h.1,
        Bench.Platform.writeRegister, h.2]
      cases Bench.Device.takeArmed offset _ with
      | none => rfl
      | some taken => rfl
  | stall => cases h
  | _ => exact hhardware.elim

/-- The trace of a write of two bytes through pages that held sevens. -/
@[irreducible]
def exposingTrace : List (Moment Bench.machine HostState (List Answer)) :=
  (hastyHost.perform (.writeData 2 [1, 2, 9])).trace (fun call => hastyHost.performAll [call]) 1
    (sevensBench 24)

theorem length_exposingTrace : 31 < exposingTrace.length := by decide +kernel

/-- It has its command behind thirty-one requests. -/
theorem exposingTrace_split :
    (hastyHost.perform (.writeData 2 [1, 2, 9])).trace (fun call => hastyHost.performAll [call]) 1
        (sevensBench 24) =
      exposingTrace.take 31 ++ exposingTrace.get ⟨31, length_exposingTrace⟩ ::
        exposingTrace.drop 32 := by
  rw [← split_at length_exposingTrace, exposingTrace]

theorem exposingTrace_commands :
    (exposingTrace.get ⟨31, length_exposingTrace⟩).request.CommandsData := by
  decide +kernel

namespace Host

/-- The card finds the two bytes and zeros, and none of the sevens. -/
theorem two_bytes_exposed :
    ∃ front command back,
      (hastyHost.perform (.writeData 2 [1, 2, 9])).trace (fun call => hastyHost.performAll [call]) 1
          (sevensBench 24) = front ++ command :: back
        ∧ command.request.CommandsData
        ∧ Described command.system.shared.memory 0x1F0000000 ([1, 2] ++ List.replicate 510 0) := by
  have hcell : (sevensBench 24).cell =
      some ⟨⟨0x1F0000000, 1, 1⟩, some ⟨CommandWord.ofCommand 24 0, 0⟩⟩ := by
    decide +kernel
  have hgranted : (exposingTrace.take 31).filterMap Moment.granted? =
      [⟨.supplied, 0x1F0001000, 1⟩] := by
    decide +kernel
  have hcalm : ∀ moment ∈ exposingTrace.take 31, moment.isCalm = true := by
    decide +kernel
  obtain ⟨ring, latch, pages, hlatched, hpages, -, hdescribed⟩ :=
    write_exposes (fun call => [call]) 1 2 [1, 2, 9] exposingTrace_split exposingTrace_commands
  rw [hcell] at hlatched
  cases hlatched
  rw [hgranted] at hpages
  cases hpages
  refine ⟨_, _, _, exposingTrace_split, exposingTrace_commands, ?_⟩
  have hbytes := hdescribed (by decide) (fun moment hmem =>
    Moment.spares_of_isCalm (hcalm moment hmem) _) (hastyHost.padded 2 [1, 2, 9])
  exact hbytes.mpr rfl

end Host

end CardHost
