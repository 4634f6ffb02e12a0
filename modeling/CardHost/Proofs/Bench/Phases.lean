import CardHost.Proofs.Bench.Serving
import CardHost.Proofs.Finishing

/-!
# Data phases on a bench that serves

What a data phase leaves of the byte array of the card (`movedBy`): a write that succeeds puts the
caller's bytes over the range of its argument, and nothing else changes anything.  Borrowed pages
are apart from the ring, so a data phase that got them is equipped (`equipped`), whoever granted
them.

`runLatched_ensures` says what any data phase leaves of the byte array, in order or not, whatever
was latched; `ends_runLatched` says that a phase in order ends, with the outcome that moving the
data has.
-/

namespace CardHost

/-! ## Words of data commands -/

/-- A latched command as `Host.sendCommand` makes it. -/
def Latch.Proper (latch : Latch) : Prop :=
  latch.word.isData = true ∧ ∃ index, latch.word = .ofCommand index latch.argument

namespace CommandWord

/-- Two commands move data to the card. -/
theorem isWrite_iff {index argument : UInt32} :
    (CommandWord.ofCommand index argument).isWrite = true ↔ index = 24 ∨ index = 25 := by
  constructor
  case mpr =>
    intro hindex
    exact (Bench.moves_write hindex argument).isWrite
  intro h
  have hflag : hasAll (commandFlags index argument) CommandFlags.toCard = true := by
    rw [isWrite_eq, Bool.and_eq_true] at h
    have hmask : (index &&& CommandIndex.mask) &&& CommandFlags.toCard = 0 := by
      rw [UInt32.and_assoc, show CommandIndex.mask &&& CommandFlags.toCard = 0 by decide,
        UInt32.and_zero]
    have hbits := h.2
    unfold ofCommand at hbits
    rw [hasAll_or_of_disjoint hmask, hasAll_or_of_disjoint (by decide),
      hasAll_or_of_disjoint (by decide)] at hbits
    exact hbits
  unfold commandFlags at hflag
  split at hflag
  case h_14 hindex => exact .inl (UInt32.toNat_inj.mp hindex)
  case h_15 hindex => exact .inr (UInt32.toNat_inj.mp hindex)
  case h_6 =>
    split at hflag
    · exact absurd hflag (by decide)
    · exact absurd hflag (by decide)
  all_goals exact absurd hflag (by decide)

/-- The start bit does not say which way the data goes. -/
theorem hasAll_withStart_toCard (word : CommandWord) :
    hasAll word.withStart.bits CommandFlags.toCard = hasAll word.bits CommandFlags.toCard :=
  hasAll_or_of_disjoint (by decide) word.bits

end CommandWord

/-! ## The driver on the bench -/

namespace Host

/-- A host of the simulated controller: its registers have addresses, and its budgets allow for a
poll. -/
structure OnBench (host : Host) : Prop where
  window : host.window.OnBench
  commandPolled : host.config.pollInterval ≤ host.config.commandTimeout
  dataPolled : host.config.pollInterval ≤ host.config.dataTimeout

variable {host : Host}

theorem OnBench.commandPolls_pos (h : host.OnBench) : 0 < host.config.commandPolls := by
  obtain ⟨-, -, -, hinterval, -⟩ := (HostConfig.usable_iff host.config).mp host.usable
  exact Nat.div_pos (UInt32.le_iff_toNat_le.mp h.commandPolled) hinterval

theorem OnBench.dataPolls_pos (h : host.OnBench) : 0 < host.config.dataPolls := by
  obtain ⟨-, -, -, hinterval, -⟩ := (HostConfig.usable_iff host.config).mp host.usable
  exact Nat.div_pos (UInt32.le_iff_toNat_le.mp h.dataPolled) hinterval

/-- The byte array of the card after a data phase with some outcome. -/
def movedBy (latch : Latch) (length : Nat) :
    DataBuffer → Except HostError (List UInt8) → List UInt8 → List UInt8
  | .outgoing source, .ok _, bytes =>
    Bench.overwrite bytes (latch.argument.toNat * Bench.blockBytes)
      (source.take (length % UInt32.size))
  | _, _, bytes => bytes

theorem movedBy_error (latch : Latch) (length : Nat) (buffer : DataBuffer) (error : HostError)
    (bytes : List UInt8) : movedBy latch length buffer (.error error) bytes = bytes := by
  cases buffer with
  | incoming size => rfl
  | outgoing source => rfl

section Phase

variable {allocator : Bench.Allocator} {keeper : Bench.Keeper allocator} {ring : Ring}
  {bytes : List UInt8} {platform granted : Bench.Platform} {latch : Latch} {length : Nat}
  {buffer : DataBuffer} {grant : Grant}

/-- Pages granted by a bench that serves equip a data phase. -/
theorem equipped (hbench : host.OnBench) (hserves : platform.Serves keeper ring bytes)
    (hsized : ring.Sized host.config) (hlength : 0 < length)
    (hsplits : Geometry.ofLength? length host.config.segmentSize.toNat
      host.config.blockSize.toNat = some (host.split length))
    (hroom : (host.split length).segments ≤ ring.count)
    (allocates : allocator.allocate host.services (host.split length).stagingPages platform =
      (grant, granted)) (success : grant.status = .success) :
    ∃ card : Bench.Card, card.contents = bytes
      ∧ host.Equipped ring ⟨host.services, grant.address, (host.split length).stagingPages⟩ length
        granted card := by
  obtain ⟨⟨hsegment, hblock, -, -⟩, ⟨hwhole, hmax⟩, -⟩ :=
    (HostConfig.usable_iff host.config).mp host.usable
  obtain ⟨hgranted, hhosts, -, hapart⟩ := hserves.granted allocates success
  obtain ⟨card, hcard, hcontents⟩ := hgranted.card
  have hringHosts := keeper.hosts hgranted.sound hgranted.live
  have hringEnds : ring.base.toNat + ring.pages * pageSize < wordSpan := hringHosts.ends
  have hpageEnds := hhosts.ends
  have hstaging : length ≤ (host.split length).stagingPages * pageSize := by
    have hbytes : length ≤ (host.split length).bytes := Geometry.length_le_bytes hblock
    have hpages := le_pagesFor (host.split length).bytes
    unfold Geometry.stagingPages
    omega
  have hplaces : (host.split length).segments * descriptorSize ≤ ring.pages * pageSize := by
    have hpages := le_pagesFor (ring.count * descriptorSize)
    have hcount : (host.split length).segments * descriptorSize ≤ ring.count * descriptorSize :=
      Nat.mul_le_mul_right _ hroom
    rw [← hsized.2] at hpages
    omega
  have hring : ring.place (host.split length).segments ≤
      ring.base.toNat + ring.pages * pageSize := Nat.add_le_add_left hplaces _
  have hsteps : (host.split length).segments ≤ Bench.walkSteps := by
    unfold Ring.place descriptorSize at hring
    unfold Bench.walkSteps
    omega
  refine ⟨card, hcontents, hbench.window, hbench.commandPolls_pos, hbench.dataPolls_pos,
    hgranted.answers, hcard, ?_, hsplits, hroom, hsteps, ?_, hstaging⟩
  · refine ⟨⟨hlength, hsegment, hblock, hwhole, hmax⟩, hserves.listed,
      Nat.lt_of_le_of_lt hring hringEnds,
      Bench.Reach.holds_of_part hringHosts.reached (Nat.le_refl _) ?_, ?_,
      Bench.Reach.holds_of_part hhosts.reached (Nat.le_refl _) ?_⟩
    · exact Nat.add_le_add_left hplaces _
    · exact Nat.lt_of_le_of_lt (Nat.add_le_add_left hstaging _) hpageEnds
    · exact Nat.add_le_add_left hstaging _
  · rcases hapart with hapart | hapart
    · exact .inl (Nat.le_trans hring hapart)
    · exact .inr hapart

/-- A platform that a data phase carried on serves as before. -/
theorem serves_carried {now : List UInt8} {after : Bench.Platform}
    (hserves : platform.Serves keeper ring bytes) (hcarried : platform.Carried now after) :
    after.Serves keeper ring now := by
  refine ⟨hcarried.answers, ?_, ?_, hserves.listed, hcarried.card⟩
  · rw [hcarried.pages, hcarried.reach]
    exact hserves.sound
  · rw [hcarried.pages]
    exact hserves.live

/-- What moving the data leaves of the byte array, whichever way it goes. -/
theorem moveThrough_ensures (hbench : host.OnBench) (hserves : platform.Serves keeper ring bytes)
    (hsized : ring.Sized host.config) (hproper : latch.Proper)
    (hdirection : latch.word.isWrite = buffer.isWrite) (hlength : 0 < length)
    (hbuffer : length ≤ buffer.size)
    (hsplits : Geometry.ofLength? length host.config.segmentSize.toNat
      host.config.blockSize.toNat = some (host.split length))
    (hroom : (host.split length).segments ≤ ring.count)
    (allocates : allocator.allocate host.services (host.split length).stagingPages platform =
      (grant, granted)) (success : grant.status = .success) :
    (host.moveThrough ring latch length buffer
        ⟨host.services, grant.address, (host.split length).stagingPages⟩ :
        Action σ (List UInt8)).run.Ensures (Bench.machineWith allocator) granted
      fun outcome after =>
        Bench.Platform.Serves keeper ring (movedBy latch length buffer outcome bytes) after := by
  have hgranted := (hserves.granted allocates success).1
  obtain ⟨hdata, index, hword⟩ := hproper
  cases buffer with
  | incoming room =>
      -- A command without data to the card changes nothing, however far it gets.
      have hread : hasAll latch.word.withStart.bits CommandFlags.toCard = false := by
        rw [CommandWord.isWrite_eq, hdata, Bool.true_and] at hdirection
        rw [CommandWord.hasAll_withStart_toCard]
        exact hdirection
      have hspares (register : Register) (hmem : register ∈ phaseRegisters) (value : UInt32) :
          register.SparesCard value := by
        have hne : register ≠ .status ∧ register ≠ .command := by
          revert register
          decide
        exact ⟨hne.1, fun hcommand => (hne.2 hcommand).elim⟩
      have hasks := asks_moveThrough_onBoard (σ := σ) host ring latch length (.incoming room)
        ⟨host.services, grant.address, (host.split length).stagingPages⟩ hspares
        ⟨by decide, fun _ => .inr hread⟩
      exact (hgranted.ensures hbench.window hasks).mono fun outcome after hafter => hafter.2
  | outgoing source =>
      obtain ⟨card, rfl, hequipped⟩ :=
        equipped hbench hserves hsized hlength hsplits hroom allocates success
      have hwrite : (CommandWord.ofCommand index latch.argument).isWrite = true := by
        rw [← hword]
        exact hdirection
      have hmoves : Bench.Moves latch.word true := by
        rw [hword]
        exact Bench.moves_write (CommandWord.isWrite_iff.mp hwrite) latch.argument
      by_cases hfits : latch.argument.toNat * Bench.blockBytes + length % UInt32.size ≤ card.size
      · refine (hequipped.ends_write hmoves hbuffer hfits).ensures.mono
          fun outcome after hafter => ?_
        obtain ⟨rfl, hcarried⟩ := hafter
        exact serves_carried hgranted hcarried
      · refine (hequipped.ends_short hmoves (.outgoing source)
          (Nat.lt_of_not_le hfits)).ensures.mono fun outcome after hafter => ?_
        obtain ⟨rfl, hcarried⟩ := hafter
        exact serves_carried hgranted hcarried

/-- A refusal leaves the platform alone. -/
theorem ends_refusal (message : Message) (error : HostError)
    {post : Except HostError (List UInt8) → Bench.Platform → Prop}
    (hpost : post (.error error) platform) :
    ((do report message; throw error : Action σ (List UInt8))).run.Ends
      (Bench.machineWith allocator) platform post := by
  apply Action.Succeeds.ends_step
  apply Action.succeeds_lift
  apply Prog.ends_log
  exact Prog.ends_done hpost

/-- Every data phase leaves the bench serving, with the byte array that its outcome tells. -/
theorem runLatched_ensures (hbench : host.OnBench) (hserves : platform.Serves keeper ring bytes)
    (hsized : ring.Sized host.config) (hproper : latch.Proper) (length : Nat)
    (buffer : DataBuffer) :
    (host.runLatched ring latch length buffer : Action σ (List UInt8)).run.Ensures
      (Bench.machineWith allocator) platform fun outcome after =>
        Bench.Platform.Serves keeper ring (movedBy latch length buffer outcome bytes) after := by
  have hform := host.runLatched_form (σ := σ) ring latch length buffer
  generalize (host.runLatched ring latch length buffer : Action σ _).run = phase at hform ⊢
  cases hform with
  | refused message error =>
      apply Prog.Ends.ensures
      apply ends_refusal
      rw [movedBy_error]
      exact hserves
  | unsplit =>
      intro ρ handler depth system after value hshared ran
      cases ran
  | moves direction positive supplied splits room =>
      refine Pages.ensures_borrow _ rfl (fun _ error => ?_) fun success => ?_
      · rw [movedBy_error]
        exact hserves.allocated _ _
      · refine (moveThrough_ensures hbench hserves hsized hproper direction positive supplied
          splits room rfl success).mono fun outcome after hafter => ?_
        exact hafter.freed _ (hserves.granted rfl success).2.2.1

/-- A data phase in order ends with what moving the data comes to. -/
theorem ends_runLatched (hbench : host.OnBench) (hserves : platform.Serves keeper ring bytes)
    (hsized : ring.Sized host.config) (hdirection : latch.word.isWrite = buffer.isWrite)
    (hlength : 0 < length) (hbuffer : length ≤ buffer.size) (hslice : length < sliceLimit)
    (hroom : (host.split length).segments ≤ ring.count)
    (allocates : allocator.allocate host.services (host.split length).stagingPages platform =
      (grant, granted)) (success : grant.status = .success)
    {result : Except HostError (List UInt8)} {now : List UInt8}
    (hmoves : ∀ (pages : Pages) (granted : Bench.Platform) (card : Bench.Card),
      card.contents = bytes → host.Equipped ring pages length granted card →
        (host.moveThrough ring latch length buffer pages : Action σ (List UInt8)).run.Ends
          (Bench.machineWith allocator) granted
          fun outcome after => outcome = result ∧ granted.Carried now after) :
    (host.runLatched ring latch length buffer : Action σ (List UInt8)).run.Ends
      (Bench.machineWith allocator) platform
      fun outcome after => outcome = result ∧ Bench.Platform.Serves keeper ring now after := by
  have hsplits := host.splits_of_lt hslice
  obtain ⟨card, hcontents, hequipped⟩ :=
    equipped hbench hserves hsized hlength hsplits hroom allocates success
  rw [runLatched_moves host hdirection hlength hbuffer hsplits hroom]
  refine (Pages.ends_borrow _ allocates success (hmoves _ _ card hcontents hequipped)).mono
    fun outcome after hafter => ?_
  obtain ⟨middle, ⟨rfl, hcarried⟩, rfl⟩ := hafter
  obtain ⟨hgranted, -, hother, -⟩ := hserves.granted allocates success
  exact ⟨rfl, (serves_carried hgranted hcarried).freed _ hother⟩

end Phase

end Host

end CardHost
