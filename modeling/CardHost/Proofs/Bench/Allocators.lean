import CardHost.Proofs.Bench.Following

/-!
# The bench with another allocator

On the bench with any allocator (`machineWith`) what the allocator answers is left open, so it may
refuse at any time, and nothing is asked of the addresses that it grants.  All that it must not do
is set the bench's timers, which change memory and registers behind everyone's back.

Without timers memory changes on such a bench in two ways, the allocator apart: the driver stores
bytes, or the card touches what it follows because of a command
(`Moment.Changes.reaches`).  Registers that only hold values have the value written last, as long
as no command starts (`linked_held`).
-/

namespace CardHost

namespace Bench

/-! ## What a write does -/

namespace RegisterFile

theorem held_read (file : RegisterFile) (offset : Nat) (register : Register) :
    (file.read offset).2.held register = file.held register :=
  file.value_read offset register.offset

/-- A plain register holds what is written to it. -/
theorem held_plain {register : Register} (plain : register ∉ acting) (file : RegisterFile)
    (offset : Nat) (value : UInt32) : (file.write offset value).held register =
      if offset = register.offset then value else file.held register := by
  rw [held, write, value_poke]
  by_cases hoffset : offset = register.offset
  · rw [if_pos hoffset, if_pos hoffset.symm, hoffset, stored_eq file plain]
  · rw [if_neg hoffset, if_neg fun h => hoffset h.symm]
    rfl

end RegisterFile

namespace Platform

/-- The value that a register of the controller holds. -/
def held (platform : Platform) (register : Register) : UInt32 :=
  platform.device.registers.held register

/-- The sizes recorded for the last data command. -/
def segments (platform : Platform) : List UInt32 :=
  platform.device.segments

/-- The descriptors that a command follows once it is started. -/
def followed (platform : Platform) (word : UInt32) : List (Nat × Descriptor) :=
  match platform.device.completion, platform.device.card with
  | .auto, some card =>
    let bus : CardBus := ⟨platform.device.registers, card, platform.memory, platform.device.reach,
      platform.device.segments⟩
    bus.followed word
  | _, _ => []

/-- A command follows from the list address of the engine on. -/
theorem mem_followed {platform : Platform} {word : UInt32} {entry : Nat × Descriptor}
    (h : entry ∈ platform.followed word) :
    ∃ left, entry ∈ (walk platform.device.reach walkSteps platform.memory
      (Bytes.join (platform.held .listLow) (platform.held .listHigh)).toNat left).followed := by
  unfold followed at h
  split at h
  · dsimp only [CardBus.followed] at h
    split at h
    · rename_i length hlength
      unfold CardBus.followedFor at h
      split at h
      · exact ⟨length, h⟩
      · cases h
    · cases h
  · cases h

/-- A command touches what it follows. -/
theorem start_sameOn (platform : Platform) (word : UInt32) :
    platform.memory.SameOn (Untouched (platform.followed word)) (platform.start word).memory := by
  obtain ⟨device, memory⟩ := platform
  unfold start followed
  dsimp only
  cases device.completion with
  | never => exact Memory.SameOn.refl _ _
  | bits bits => exact Memory.SameOn.refl _ _
  | auto =>
      cases device.card with
      | none => exact Memory.SameOn.refl _ _
      | some card => exact CardBus.execute_sameOn _ word

/-- If a command follows descriptors, the bench records their sizes. -/
theorem segments_start {platform : Platform} {word : UInt32} (h : platform.followed word ≠ []) :
    (platform.start word).device.segments =
      (platform.followed word).map fun entry => entry.2.size := by
  obtain ⟨device, memory⟩ := platform
  unfold followed at h ⊢
  unfold start
  dsimp only at h ⊢
  cases hcompletion : device.completion with
  | never =>
      rw [hcompletion] at h
      exact (h rfl).elim
  | bits bits =>
      rw [hcompletion] at h
      exact (h rfl).elim
  | auto =>
      rw [hcompletion] at h
      cases hcard : device.card with
      | none =>
          rw [hcard] at h
          exact (h rfl).elim
      | some card =>
          rw [hcard] at h
          exact CardBus.segments_execute _ h

/-- A command without data follows nothing. -/
theorem followed_eq_nil {word : UInt32} (h : hasAll word CommandFlags.dataExpected = false)
    (platform : Platform) : platform.followed word = [] := by
  unfold followed
  split
  · exact CardBus.followed_eq_nil h _
  · rfl

theorem untimed_start {platform : Platform} (h : Untimed platform) (word : UInt32) :
    Untimed (platform.start word) := by
  obtain ⟨device, memory⟩ := platform
  unfold start
  dsimp only
  split <;> exact h

/-- What a write does, apart from the call that was armed on it. -/
def wrote (offset : Nat) (value : UInt32) (platform : Platform) : Platform :=
  let written := platform.mapRegisters (·.write offset value)
  if starts offset value then written.start value else written

/-- A write does to registers and memory what it does without armed calls. -/
theorem writeRegister_wrote (offset : Nat) (value : UInt32) (platform : Platform) :
    ∃ armed, (writeRegister offset value platform).2 =
      ⟨{ (platform.wrote offset value).device with armed := armed },
        (platform.wrote offset value).memory⟩ := by
  unfold writeRegister
  dsimp only
  rw [← wrote]
  generalize platform.wrote offset value = after
  obtain ⟨device, memory⟩ := after
  dsimp only
  cases Device.takeArmed offset device.armed with
  | none => exact ⟨device.armed, rfl⟩
  | some taken => exact ⟨taken.2, rfl⟩

theorem untimed_wrote {platform : Platform} (h : Untimed platform) (offset : Nat)
    (value : UInt32) : Untimed (platform.wrote offset value) := by
  have hwritten : Untimed (platform.mapRegisters (·.write offset value)) := h
  unfold wrote
  dsimp only
  split
  · exact untimed_start hwritten value
  · exact hwritten

end Platform

end Bench

section Runs

variable {allocator : Bench.Allocator}

/-! ## Along a run -/

/-- A bench without timers stays so, whatever it is asked. -/
theorem answer_untimed (request : Request σ) (system : System (Bench.machineWith allocator) σ ρ)
    (h : Bench.Untimed system.shared) : Bench.Untimed (system.answer request).2.2.shared := by
  obtain ⟨⟨device, memory⟩, level, cell, verbosity, journal⟩ := system
  cases request with
  | read window offset =>
      simp only [System.answer, Bench.machineWith]
      cases window.services <;> exact h
  | write window offset value =>
      simp only [System.answer, Bench.machineWith]
      cases window.services with
      | firmware => exact h
      | supplied =>
          obtain ⟨armed, hwrote⟩ :=
            Bench.Platform.writeRegister_wrote offset value ⟨device, memory⟩
          dsimp only
          rw [hwrote]
          exact Bench.Platform.untimed_wrote h offset value
  | stall services microseconds =>
      have htimers : device.timers = [] := h
      simp only [System.answer, Bench.machineWith, Bench.Platform.stall, htimers]
      cases services <;> rfl
  | allocate services count => exact allocator.allocate_untimed services count ⟨device, memory⟩ h
  | free services address count =>
      exact allocator.free_untimed services address count ⟨device, memory⟩ h
  | _ => exact h

theorem along_untimed : Along fun (_ : List (Moment (Bench.machineWith allocator) σ ρ))
    (system : System (Bench.machineWith allocator) σ ρ) => Bench.Untimed system.shared where
  answer request h := answer_untimed request _ h
  entered h := h
  left _ h := h

/-- Up to any of its moments a run on a bench without timers has none. -/
theorem untimed_of_mem_trace {handler : Call → Prog σ ρ} {depth : Nat} {program : Prog σ α}
    {system : System (Bench.machineWith allocator) σ ρ} (untimed : Bench.Untimed system.shared) :
    ∀ moment ∈ program.trace handler depth system, Bench.Untimed moment.system.shared := by
  intro moment hmem
  obtain ⟨front, back, htrace⟩ := List.append_of_mem hmem
  exact Prog.carried_at along_untimed untimed htrace

/-! ## What changes memory -/

namespace Moment

variable {moment : Moment (Bench.machineWith allocator) σ ρ}

/-- A byte that a request changes. -/
def Changes (moment : Moment (Bench.machineWith allocator) σ ρ) (address : Nat) : Prop :=
  moment.after.memory.get address ≠ moment.system.shared.memory.get address

/-- The descriptors that the card follows because of a request. -/
def followed (moment : Moment (Bench.machineWith allocator) σ ρ) : List (Nat × Descriptor) :=
  match moment.request with
  | .write window offset value =>
    if window.services = .supplied ∧ Bench.Platform.starts offset value = true then
      (Bench.Platform.mapRegisters moment.system.shared (·.write offset value)).followed value
    else
      []
  | _ => []

/-- Descriptors are followed because of a command that moves data, from the list address of the
engine on. -/
theorem mem_followed {entry : Nat × Descriptor} (h : entry ∈ moment.followed) :
    moment.request.CommandsData
      ∧ ∃ reach left, entry ∈ (Bench.walk reach Bench.walkSteps moment.system.shared.memory
        (Bytes.join (Bench.Platform.held moment.system.shared .listLow)
          (Bench.Platform.held moment.system.shared .listHigh)).toNat left).followed := by
  obtain ⟨request, ⟨device, memory⟩, level, cell, verbosity, journal⟩ := moment
  cases request with
  | write window offset value =>
      simp only [followed] at h
      split at h
      · rename_i hstarts
        have hoffset : offset = Register.command.offset := by
          have hboth := hstarts.2
          simp only [Bench.Platform.starts, Bool.and_eq_true, beq_iff_eq] at hboth
          exact hboth.1.1
        have hdata : hasAll value CommandFlags.dataExpected = true := by
          cases hexpected : hasAll value CommandFlags.dataExpected with
          | true => rfl
          | false =>
              rw [Bench.Platform.followed_eq_nil hexpected] at h
              cases h
        have hheld (register : Register) (hcommand : register ≠ .command) :
            (device.registers.write Register.command.offset value).held register =
              device.registers.held register := by
          rw [Bench.RegisterFile.held_write, if_neg hcommand]
        refine ⟨⟨hoffset, hdata⟩, ?_⟩
        obtain ⟨left, hfollow⟩ := Bench.Platform.mem_followed h
        subst hoffset
        simp only [Bench.Platform.held, Bench.Platform.mapRegisters, hheld .listLow (by decide),
          hheld .listHigh (by decide)] at hfollow
        exact ⟨device.reach, left, hfollow⟩
      · cases h
  | _ => cases h

/-- What is followed is what the bench records by its sizes. -/
theorem segments_after (h : moment.followed ≠ []) :
    Bench.Platform.segments moment.after = moment.followed.map fun entry => entry.2.size := by
  obtain ⟨request, ⟨device, memory⟩, level, cell, verbosity, journal⟩ := moment
  cases request with
  | write window offset value =>
      simp only [followed] at h ⊢
      split at h
      · rename_i hstarts
        obtain ⟨armed, hwrote⟩ := Bench.Platform.writeRegister_wrote offset value ⟨device, memory⟩
        rw [if_pos hstarts]
        simp only [after, System.answer, Bench.machineWith, hstarts.1, hwrote,
          Bench.Platform.wrote, hstarts.2, if_true]
        exact Bench.Platform.segments_start h
      · exact (h rfl).elim
  | _ => exact (h rfl).elim

/-- The bytes that a request may change: a store those it covers, a write to the controller those
that its command touches, and other requests none.  The allocator and writes to the firmware's
memory are left out. -/
def Reaches (moment : Moment (Bench.machineWith allocator) σ ρ) (address : Nat) : Prop :=
  match moment.request with
  | .store start bytes => start ≤ address ∧ address < start + bytes.length
  | .write window _ _ =>
    window.services = .supplied → ∃ entry ∈ moment.followed, Bench.Touches entry address
  | .allocate .. => True
  | .free .. => True
  | _ => False

/-- On a bench without timers a request changes no other bytes. -/
theorem Changes.reaches {address : Nat} (h : moment.Changes address)
    (untimed : Bench.Untimed moment.system.shared) : moment.Reaches address := by
  obtain ⟨request, ⟨device, memory⟩, level, cell, verbosity, journal⟩ := moment
  cases request with
  | store start bytes =>
      by_cases hinside : start ≤ address ∧ address < start + bytes.length
      · exact hinside
      · have hsame := Memory.sameOutside_write memory (Nat.le_refl start)
          (Nat.le_refl (start + bytes.length))
        exact (h (hsame address (by omega))).elim
  | write window offset value =>
      intro hsupplied
      refine Classical.byContradiction fun hnone => h ?_
      obtain ⟨armed, hwrote⟩ := Bench.Platform.writeRegister_wrote offset value ⟨device, memory⟩
      simp only [after, System.answer, Bench.machineWith, hsupplied, hwrote]
      by_cases hstarts : Bench.Platform.starts offset value = true
      · simp only [followed, hsupplied, hstarts, and_self, if_true] at hnone
        simp only [Bench.Platform.wrote, hstarts, if_true]
        exact Bench.Platform.start_sameOn _ value address fun entry hmem htouches =>
          hnone ⟨entry, hmem, htouches⟩
      · simp only [Bench.Platform.wrote, if_neg hstarts]
        rfl
  | read window offset =>
      refine h ?_
      simp only [after, System.answer, Bench.machineWith]
      cases window.services <;> rfl
  | stall services microseconds =>
      have htimers : device.timers = [] := untimed
      refine h ?_
      simp only [after, System.answer, Bench.machineWith, Bench.Platform.stall,
        htimers]
      cases services <;> rfl
  | allocate => trivial
  | free => trivial
  | _ => exact h rfl

end Moment

/-! ## What changes registers -/

/-- A request that starts no command and leaves the allocator alone. -/
def Request.Calm : Request σ → Prop
  | .write window offset value =>
    window.services = .supplied ∧ Bench.Platform.starts offset value = false
  | .allocate .. => False
  | .free .. => False
  | _ => True

/-- The value of a register after what a request writes to it. -/
def Request.written (register : Register) (request : Request σ) (value : UInt32) : UInt32 :=
  match request with
  | .write _ offset new => if offset = register.offset then new else value
  | _ => value

/-- The value of a register after what requests write to it. -/
def written (register : Register) (requests : List (Request σ)) (value : UInt32) : UInt32 :=
  requests.foldl (fun value request => request.written register value) value

/-- A calm request is followed by nothing. -/
theorem Moment.followed_of_calm {moment : Moment (Bench.machineWith allocator) σ ρ}
    (calm : moment.request.Calm) : moment.followed = [] := by
  obtain ⟨request, system⟩ := moment
  cases request with
  | write window offset value =>
      refine if_neg ?_
      rintro ⟨-, hstarts⟩
      rw [calm.2] at hstarts
      cases hstarts
  | _ => rfl

/-- While a calm request is answered, the hardware leaves memory alone. -/
theorem Moment.spares_of_calm {moment : Moment (Bench.machineWith allocator) σ ρ}
    (calm : moment.request.Calm) (untimed : Bench.Untimed moment.system.shared)
    (region : Nat → Prop) : moment.Spares region := by
  intro hhardware address _
  refine Classical.byContradiction fun hchanges => ?_
  have hreaches := Moment.Changes.reaches hchanges untimed
  have hnone := Moment.followed_of_calm calm
  obtain ⟨request, system⟩ := moment
  cases request with
  | write window offset value =>
      obtain ⟨entry, hmem, -⟩ := hreaches calm.1
      rw [hnone] at hmem
      cases hmem
  | read => exact hreaches
  | stall => exact hreaches
  | _ => exact hhardware

/-- A calm request leaves in a plain register what it writes there. -/
theorem Moment.held_after {moment : Moment (Bench.machineWith allocator) σ ρ}
    {register : Register} (plain : register ∉ Bench.RegisterFile.acting)
    (calm : moment.request.Calm) (untimed : Bench.Untimed moment.system.shared) :
    Bench.Platform.held moment.after register =
      moment.request.written register (Bench.Platform.held moment.system.shared register) := by
  obtain ⟨request, ⟨device, memory⟩, level, cell, verbosity, journal⟩ := moment
  cases request with
  | read window offset =>
      simp only [after, System.answer, Bench.machineWith]
      cases window.services with
      | firmware => rfl
      | supplied => exact Bench.RegisterFile.held_read device.registers offset register
  | write window offset value =>
      obtain ⟨hsupplied, hstarts⟩ := calm
      obtain ⟨armed, hwrote⟩ := Bench.Platform.writeRegister_wrote offset value ⟨device, memory⟩
      simp only [after, System.answer, Bench.machineWith, hsupplied, hwrote,
        Bench.Platform.wrote, hstarts, Bool.false_eq_true, if_false]
      exact Bench.RegisterFile.held_plain plain device.registers offset value
  | stall services microseconds =>
      have htimers : device.timers = [] := untimed
      simp only [after, System.answer, Bench.machineWith, Bench.Platform.stall,
        htimers]
      cases services <;> rfl
  | allocate => exact calm.elim
  | free => exact calm.elim
  | _ => rfl

/-- Along calm requests a plain register gets what is written to it, the last value last. -/
theorem linked_held {trace : List (Moment (Bench.machineWith allocator) σ ρ)}
    {before after : Bench.Platform} {register : Register}
    (plain : register ∉ Bench.RegisterFile.acting)
    (calm : ∀ moment ∈ trace, moment.request.Calm)
    (untimed : ∀ moment ∈ trace, Bench.Untimed moment.system.shared)
    (hlinked : Linked before trace after) :
    after.held register = written register (effects trace) (before.held register) := by
  induction trace generalizing before with
  | nil =>
      have hend : before = after := hlinked
      rw [hend]
      rfl
  | cons moment rest ih =>
      obtain ⟨rfl, hrest⟩ := hlinked
      have hfirst := Moment.held_after plain (calm moment List.mem_cons_self)
        (untimed moment List.mem_cons_self)
      have hlater := ih (fun other hmem => calm other (List.mem_cons_of_mem _ hmem))
        (fun other hmem => untimed other (List.mem_cons_of_mem _ hmem)) hrest
      rw [hlater, hfirst, effects_cons]
      -- Only effects write.
      by_cases heffect : moment.request.isEffect = true
      · rw [if_pos heffect]
        rfl
      · rw [if_neg heffect]
        obtain ⟨request, system⟩ := moment
        cases request with
        | write => exact (heffect rfl).elim
        | _ => rfl

end Runs

end CardHost
