import CardHost.Proofs.Exposure
import CardHost.Proofs.Usability

/-!
# The byte count of a transfer

The byte count register has 32 bits and a length has 64.  A data phase sets the register to its
length modulo `2 ^ 32`, and the block size register to the block size of the host, before its
command; nothing else reaches the two registers while the phase lasts
(`Host.length_counted_within_word`).  So the controller is told the length exactly if it fits the
register.

That a configuration is usable does not bound the length so.  `roomyHost` allows requests of
`2 ^ 32` bytes, and on `agreeableMachine` a read of that length sets the byte count to zero
(`Host.whole_span_counts_zero`).
-/

namespace CardHost

/-- A write that sets the two sizes, if any, to those of a transfer. -/
def Host.SizesFor (host : Host) (length : Nat) (register : Register) (value : UInt32) : Prop :=
  (register = .blockSize → value = UInt32.ofNat host.config.blockSize.toNat)
    ∧ (register = .byteCount → value = UInt32.ofNat length)

theorem Host.sizesFor_of_ne (host : Host) (length : Nat) {register : Register}
    (hblock : register ≠ .blockSize) (hcount : register ≠ .byteCount) (value : UInt32) :
    host.SizesFor length register value :=
  ⟨fun h => (hblock h).elim, fun h => (hcount h).elim⟩

/-- A block size that is usable fits its register. -/
theorem Host.toNat_blockSize (host : Host) :
    (UInt32.ofNat host.config.blockSize.toNat).toNat = host.config.blockSize.toNat := by
  obtain ⟨⟨hsegment, hblock, -⟩, ⟨hdivides, hlargest⟩, -⟩ :=
    (HostConfig.usable_iff _).mp host.usable
  have hle : host.config.blockSize.toNat ≤ host.config.segmentSize.toNat :=
    Nat.le_of_dvd hsegment (Nat.dvd_of_mod_eq_zero hdivides)
  rw [UInt32.toNat_ofNat']
  unfold maxSegment at hlargest
  omega

section Phases

variable {machine : Machine ι} {host : Host} {length : Nat}

/-- A write on a board that keeps to the sizes. -/
theorem Host.sizesFor_of_onBoard {request : Request σ}
    (h : request.OnBoard host.window (host.SizesFor length)) {register : Register}
    {value : UInt32} (hrequest : request = .write host.window register.offset value) :
    host.SizesFor length register value := by
  subst hrequest
  rcases h with hmemory | ⟨-, written, hoffset, hsizes⟩
  · exact hmemory.elim
  · rwa [Register.offset_injective hoffset]

/-- During a data phase no write gives the controller other sizes. -/
theorem Host.Phased.sizesFor {handler : ι → Prog σ ρ} {depth : Nat}
    (idles : Idles machine handler depth) {cell : Option HostState} {buffer : DataBuffer}
    {trace : List (Moment machine σ ρ)} {ends : Except HostError (List UInt8) → Prop}
    (h : host.Phased handler depth cell length buffer trace ends) {moment : Moment machine σ ρ}
    (hmem : moment ∈ trace) {register : Register} {value : UInt32}
    (hrequest : moment.request = .write host.window register.offset value) :
    host.SizesFor length register value := by
  have hoff {other : Moment machine σ ρ} (hoff : other.request.OffBoard) :
      other.request ≠ .write host.window register.offset value := by
    intro heq
    rw [heq] at hoff
    exact hoff
  cases h with
  | failed quiet => exact (hoff (quiet moment hmem) hrequest).elim
  | @moved ring latch pages borrowed lead tail latched cleared held granted before after split =>
      have hasks : (host.moveThrough ring latch length buffer pages : Action σ _).run.Asks
          (Request.OnBoard host.window (host.SizesFor length)) := by
        apply asks_moveThrough_sized
        · exact fun other _ hblock hcount value => host.sizesFor_of_ne length hblock hcount value
        · exact ⟨fun _ => rfl, fun h => absurd h (by decide)⟩
        · exact ⟨fun h => absurd h (by decide), fun _ => rfl⟩
        · exact host.sizesFor_of_ne length (by decide) (by decide) _
      rw [split] at hmem
      rcases List.mem_append.mp hmem with hlead | hrest
      · exact (hoff (before moment hlead) hrequest).elim
      rcases List.mem_append.mp hrest with hmoves | htail
      · rcases hasks.of_mem_trace idles (fun _ h => h.unpaged.inner) held moment hmoves with
          hboard | hidle
        · exact Host.sizesFor_of_onBoard hboard hrequest
        · rw [hrequest] at hidle
          exact hidle.elim
      · exact (hoff (after moment htail).offBoard hrequest).elim

end Phases

/-- What a data phase sets the two sizes to: the length as far as the register holds it, and the
block size.  Both are set before its command. -/
theorem Host.length_counted_within_word (host : Host) {machine : Machine ι}
    (calls : ι → List Call) (depth : Nat) {call : Call} {length : Nat} {buffer : DataBuffer}
    (phase : call.phase? = some (length, buffer))
    (system : System machine HostState (List Answer)) :
    (∀ moment ∈ (host.perform call).trace (fun i => host.performAll (calls i)) depth system,
        ∀ value, moment.request = .write host.window Register.byteCount.offset value →
          value.toNat = length % UInt32.size
            ∧ (value.toNat = length ↔ length < UInt32.size))
      ∧ (∀ moment ∈ (host.perform call).trace (fun i => host.performAll (calls i)) depth system,
        ∀ value, moment.request = .write host.window Register.blockSize.offset value →
          value.toNat = host.config.blockSize.toNat)
      ∧ ∀ front moment back, (host.perform call).trace (fun i => host.performAll (calls i)) depth
          system = front ++ moment :: back → moment.request.CommandsData →
            host.SetsSizes length (effects front) := by
  have idles : Idles machine (fun i => host.performAll (calls i)) depth :=
    host.idles_performAll calls depth
  have hphased := host.perform_phased phase (fun i => host.performAll (calls i)) depth system
  refine ⟨?_, ?_, ?_⟩
  · intro moment hmem value hrequest
    rw [(hphased.sizesFor idles hmem hrequest).2 rfl, UInt32.toNat_ofNat', UInt32.size]
    omega
  · intro moment hmem value hrequest
    rw [(hphased.sizesFor idles hmem hrequest).1 rfl, host.toNat_blockSize]
  · intro front moment back htrace hcommand
    obtain ⟨⟨ring, latch, pages, mode, control, enable, hcommands⟩, -⟩ :=
      hphased.commands idles htrace hcommand
    rw [hcommands.effects_eq]
    constructor <;> simp [installation, settings]

/-- A write of two bytes is counted as two bytes before its command. -/
theorem Host.two_bytes_counted :
    ∃ front command back,
      (hastyHost.perform (.writeData 2 [1, 2, 9])).trace (fun call => hastyHost.performAll [call]) 1
          (sevensBench 24) = front ++ command :: back
        ∧ command.request.CommandsData ∧ hastyHost.SetsSizes 2 (effects front) := by
  obtain ⟨-, -, hsizes⟩ := hastyHost.length_counted_within_word (fun call => [call]) 1
    (show (Call.writeData 2 [1, 2, 9]).phase? = some (2, .outgoing [1, 2, 9]) from rfl)
    (sevensBench 24)
  exact ⟨_, _, _, exposingTrace_split, exposingTrace_commands,
    hsizes _ _ _ exposingTrace_split exposingTrace_commands⟩

/-! ## A length that the register does not hold -/

/-- A host that allows requests of `2 ^ 32` bytes, with a ring that carries them. -/
def roomyHost : Host where
  config := { smallConfig with maxRequest := 0x100000000, descriptorCount := 0x100000 }
  services := .supplied
  usable := by decide

/-- A platform that grants pages and on which every command is taken and done at once. -/
def agreeableMachine : Machine Call where
  State := Unit
  read _ offset shared :=
    (if offset = Register.rawInterrupt.offset then
      RawInterrupt.commandDone ||| RawInterrupt.transferOver else 0, shared)
  write _ _ _ shared := (none, shared)
  patience _ _ _ := 1
  stall _ _ shared := (.success, shared)
  allocate _ _ shared := (⟨.success, 0x200000000⟩, shared)
  free _ _ _ shared := (.success, shared)

/-- A system there with a read latched. -/
def readLatched : System agreeableMachine HostState (List Answer) where
  shared := ⟨(), .blank⟩
  level := 4
  cell := some ⟨⟨0x100000000, 0x100000, 0x2000⟩, some ⟨.ofCommand 18 0, 0⟩⟩
  verbosity := none
  journal := []

namespace Host

theorem agreeable_favours {request : Request HostState} (h : request.Unpaged)
    (system : System agreeableMachine HostState (List Answer)) :
    roomyHost.Favours (RawInterrupt.commandDone ||| RawInterrupt.transferOver) request
      (system.answer request).1 := by
  obtain ⟨shared, level, cell, verbosity, journal⟩ := system
  cases request with
  | read window offset =>
      have hvalue : (System.answer (.read window offset : Request HostState)
          (⟨shared, level, cell, verbosity, journal⟩ :
            System agreeableMachine HostState (List Answer))).1 =
            if offset = Register.rawInterrupt.offset then
              RawInterrupt.commandDone ||| RawInterrupt.transferOver
            else 0 := rfl
      intro _
      rw [hvalue]
      refine ⟨?_, ?_, ?_⟩
      all_goals (rintro rfl; decide)
  | patience => exact Nat.one_pos
  | allocate => exact h.elim
  | _ => trivial

theorem agreeable_uninterrupted (request : Request HostState)
    (system : System agreeableMachine HostState (List Answer)) :
    (system.answer request).2.1 = none := by
  cases request <;> rfl

/-- There a data phase that passes its checks sets the byte count. -/
theorem agreeable_counts {system : System agreeableMachine HostState (List Answer)} {ring : Ring}
    {latch : Latch} (free : system.cell = some ⟨ring, some latch⟩) {call : Call} {length : Nat}
    {buffer : DataBuffer} (phase : call.phase? = some (length, buffer))
    (direction : latch.word.isWrite = buffer.isWrite) (positive : 0 < length)
    (supplied : length ≤ buffer.size) (sliced : length < sliceLimit)
    (room : (roomyHost.split length).segments ≤ ring.count)
    (places : ring.place ring.count < wordSpan)
    (fits : (Pages.mk roomyHost.services 0x200000000
      (roomyHost.split length).stagingPages).Fits) :
    ∃ moment ∈ (roomyHost.perform call).trace (fun call => roomyHost.performAll [call]) 1 system,
      moment.request =
        .write roomyHost.window Register.byteCount.offset (UInt32.ofNat length) := by
  have splits := roomyHost.splits_of_lt sliced
  obtain ⟨borrowed, held, hmoments, -⟩ := roomyHost.transfer_of_granted phase
    (fun call => roomyHost.performAll [call]) 1 free direction positive supplied splits room rfl
  have waits : roomyHost.PhaseWaits (σ := HostState)
      (roomyHost.Favours (RawInterrupt.commandDone ||| RawInterrupt.transferOver)) False 0 0 0 :=
    favoured_phaseWaits (fun register => by cases register <;> decide) (by decide) (by decide)
      (by decide) (by decide)
  have hfinishes := waits.finishes_moveThrough latch buffer positive splits room places rfl fits
  have hasks : (roomyHost.moveThrough ring latch length buffer
      ⟨roomyHost.services, 0x200000000, (roomyHost.split length).stagingPages⟩ :
        Action HostState _).run.Asks Request.Unpaged := roomyHost.asks_moveThrough _ _ _ _ _
  have hfavoured (moment : Moment agreeableMachine HostState (List Answer))
      (hmem : moment ∈ (roomyHost.moveThrough ring latch length buffer
        ⟨roomyHost.services, 0x200000000, (roomyHost.split length).stagingPages⟩).run.moments
          (fun call => roomyHost.performAll [call]) 1 borrowed) :=
    agreeable_favours (hasks.of_mem_moments _ 1 borrowed moment hmem) moment.system
  obtain ⟨outcome, after, ran, hok, -⟩ := hfinishes.run hfavoured
    fun moment _ i after hinterrupted => by
      have hnone := agreeable_uninterrupted moment.request moment.system
      rw [hinterrupted] at hnone
      cases hnone
  have cleared : roomyHost.Cleared ring latch length buffer
      ⟨roomyHost.services, 0x200000000, (roomyHost.split length).stagingPages⟩ :=
    ⟨direction, positive, supplied, splits, room, rfl, rfl⟩
  cases outcome with
  | error error => exact hok.elim
  | ok arrived =>
      have hsizes := (unfolds_moveThrough cleared).post_of_run (roomyHost.idles_performAll _ 1)
        (hasks.mono fun _ => Request.Unpaged.inner) held ran arrived rfl
      obtain ⟨moment, hmem, hrequest⟩ := List.mem_map.mp (List.mem_filter.mp hsizes.2).1
      exact ⟨moment, hmoments moment hmem, hrequest⟩

/-- A read of `2 ^ 32` bytes sets the byte count to zero. -/
theorem whole_span_counts_zero :
    UInt32.size ≤ roomyHost.config.maxRequest.toNat
      ∧ ∃ moment ∈ (roomyHost.perform (.readData UInt32.size
          (List.replicate UInt32.size 0))).trace
          (fun call => roomyHost.performAll [call]) 1 readLatched,
        moment.request = .write roomyHost.window Register.byteCount.offset 0 := by
  refine ⟨by decide, ?_⟩
  generalize hbuffer : List.replicate UInt32.size (0 : UInt8) = buffer
  have hlength : buffer.length = UInt32.size := by
    rw [← hbuffer, List.length_replicate]
  have hphase : (Call.readData UInt32.size buffer).phase? =
      some (UInt32.size, .incoming buffer.length) := rfl
  have hfree : readLatched.cell =
      some ⟨⟨0x100000000, 0x100000, 0x2000⟩, some ⟨.ofCommand 18 0, 0⟩⟩ := rfl
  have hfits : (Pages.mk roomyHost.services 0x200000000
      (roomyHost.split UInt32.size).stagingPages).Fits := by
    unfold Pages.Fits
    decide
  obtain ⟨moment, hmem, hrequest⟩ := agreeable_counts hfree hphase rfl (by decide)
    (Nat.le_of_eq hlength.symm) (by decide) (by decide) (by decide) hfits
  exact ⟨moment, hmem, hrequest⟩

end Host

end CardHost
