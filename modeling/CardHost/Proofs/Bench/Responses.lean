import CardHost.Proofs.Bench.Allocators
import CardHost.Proofs.Refusals
import CardHost.Proofs.Writes

/-!
# What the response registers hold

On a bench whose response registers read as they are, their values follow from the commands that the
card executed: the card answers each one, and nothing else touches them.  A step of the bench either
leaves the responses alone (`Device.Rests`) or has a command executed and answered
(`Device.Executes`), so along a trace in which the driver writes no response register the answer to
the last command stands (`linked_since`), and where no command is started the responses rest
(`linked_rests`).
-/

namespace CardHost

namespace Bench

/-! ## Responses -/

/-- What the card answers to a command, in the order of the response registers. -/
def Card.answer (index : UInt32) : List UInt32 :=
  match index.toNat with
  | 1 => [0xC0FF8080, 0, 0, 0]
  | 2 => [0x12345678, 0x9ABCDEF0, 0x0F1E2D3C, 0x4B5A6978]
  | 9 => [0x0A400040, 0x5B590000, 0x3A837F80, 0xD04F0132]
  | _ => [0x900, 0, 0, 0]

/-- The values of the response registers. -/
def RegisterFile.responses (file : RegisterFile) : List UInt32 :=
  Register.responses.map file.held

/-- An offset that no response register has. -/
def OffResponses (offset : Nat) : Prop :=
  ∀ register ∈ Register.responses, offset ≠ register.offset

instance (offset : Nat) : Decidable (OffResponses offset) :=
  inferInstanceAs (Decidable (∀ register ∈ Register.responses, offset ≠ register.offset))

theorem RegisterFile.responses_poke (file : RegisterFile) {offset : Nat} (h : OffResponses offset)
    (value : UInt32) : (file.poke offset value).responses = file.responses := by
  refine List.map_congr_left fun register hmem => ?_
  rw [held, value_poke, if_neg (h register hmem).symm]
  rfl

theorem RegisterFile.responses_respond (file : RegisterFile) (r0 r1 r2 r3 : UInt32) :
    (file.respond r0 r1 r2 r3).responses = [r0, r1, r2, r3] := by
  simp only [responses, Register.responses, List.map_cons, List.map_nil, respond, held_poke]
  rfl

/-- A command is answered in the response registers. -/
theorem CardBus.execute_answer (bus : CardBus) (word : UInt32) :
    (bus.execute word).2.registers.responses = Card.answer (word &&& CommandIndex.mask) := by
  have hready : bus.respondReady.registers.responses = [0x900, 0, 0, 0] :=
    RegisterFile.responses_respond _ _ _ _ _
  unfold execute Card.answer
  dsimp only
  generalize (word &&& CommandIndex.mask).toNat = index
  split
  · exact RegisterFile.responses_respond _ _ _ _ _
  · exact RegisterFile.responses_respond _ _ _ _ _
  · exact RegisterFile.responses_respond _ _ _ _ _
  · exact (congrArg _ (transfer_registers _ _)).trans hready
  · exact (congrArg _ (moveBlocks_registers _ _)).trans hready
  · exact (congrArg _ (moveBlocks_registers _ _)).trans hready
  · exact (congrArg _ (moveBlocks_registers _ _)).trans hready
  · exact (congrArg _ (moveBlocks_registers _ _)).trans hready
  · rename_i hone htwo hnine _ _ _ _ _
    split
    · exact (hone rfl).elim
    · exact (htwo rfl).elim
    · exact (hnine rfl).elim
    · exact hready

/-! ## One request -/

namespace Device

/-- Nothing disturbs the response registers: they read as they are, and no timer changes them. -/
structure Responsive (device : Device) : Prop where
  plain : ∀ register ∈ Register.responses, device.registers.Plain register.offset
  untimed : ∀ timer ∈ device.timers, ∀ offset, timer.target = .register offset →
    OffResponses offset

/-- The card executes nothing from one device to the other, and the responses stay. -/
structure Rests (before after : Device) : Prop where
  responsive : after.Responsive
  commands : after.commands = before.commands
  responses : after.registers.responses = before.registers.responses

/-- The card executes a command from one device to the other, and answers it. -/
structure Executes (before after : Device) : Prop where
  responsive : after.Responsive
  answered : ∃ command, after.commands = command :: before.commands
    ∧ after.registers.responses = Card.answer command.1

variable {device : Device}

theorem Responsive.rests (h : device.Responsive) : device.Rests device :=
  ⟨h, rfl, rfl⟩

theorem Rests.trans {before middle after : Device} (first : before.Rests middle)
    (rest : middle.Rests after) : before.Rests after where
  responsive := rest.responsive
  commands := rest.commands.trans first.commands
  responses := rest.responses.trans first.responses

/-- Registers may change, as long as the responses do not. -/
theorem Responsive.rests_registers (h : device.Responsive) {file : RegisterFile}
    (plain : ∀ offset, device.registers.Plain offset → file.Plain offset)
    (same : file.responses = device.registers.responses) :
    device.Rests { device with registers := file } where
  responsive := ⟨fun register hmem => plain _ (h.plain register hmem), h.untimed⟩
  commands := rfl
  responses := same

theorem Responsive.rests_read (h : device.Responsive) (offset : Nat) :
    device.Rests { device with registers := (device.registers.read offset).2 } := by
  apply h.rests_registers fun _ hplain => hplain.of_read offset
  exact List.map_congr_left fun register _ => RegisterFile.held_read _ offset register

theorem Responsive.rests_poke (h : device.Responsive) {offset : Nat} (off : OffResponses offset)
    (value : UInt32) :
    device.Rests { device with registers := device.registers.poke offset value } :=
  h.rests_registers (fun _ hplain => hplain.poke offset value)
    (RegisterFile.responses_poke _ off value)

end Device

namespace Platform

/-- Timers that leave the responses alone do so when they fire. -/
theorem rests_foldl_fire (timers : List Timer) (platform : Platform)
    (h : platform.device.Responsive)
    (off : ∀ timer ∈ timers, ∀ offset, timer.target = .register offset → OffResponses offset) :
    platform.device.Rests (timers.foldl fire platform).device := by
  induction timers generalizing platform with
  | nil => exact h.rests
  | cons timer rest ih =>
      have hfirst : platform.device.Rests (platform.fire timer).device := by
        obtain ⟨device, memory⟩ := platform
        unfold fire
        cases htarget : timer.target with
        | register offset =>
            exact h.rests_poke (off timer List.mem_cons_self offset htarget) timer.value
        | memory address => exact h.rests
      exact hfirst.trans
        (ih _ hfirst.responsive fun other hmem => off other (List.mem_cons_of_mem _ hmem))

theorem rests_stall (platform : Platform) (h : platform.device.Responsive) :
    platform.device.Rests platform.stall.device := by
  obtain ⟨device, memory⟩ := platform
  unfold stall
  dsimp only
  split
  · rename_i htimers
    exact ⟨⟨h.plain, h.untimed⟩, rfl, rfl⟩
  · have hlater : device.Rests { device with
        stalls := device.stalls + 1
        timers := device.timers.filter fun timer => device.stalls + 1 < timer.due } :=
      ⟨⟨h.plain, fun timer hmem => h.untimed timer (List.mem_filter.mp hmem).1⟩, rfl, rfl⟩
    refine hlater.trans (rests_foldl_fire _ ⟨_, memory⟩ hlater.responsive ?_)
    exact fun timer hmem => h.untimed timer (List.mem_filter.mp hmem).1

theorem rests_allocate (platform : Platform) (h : platform.device.Responsive) (count : Nat) :
    platform.device.Rests (platform.allocate count).2.device := by
  obtain ⟨device, memory⟩ := platform
  unfold allocate
  dsimp only
  rcases device.pages.allocate count with ⟨_ | granted, store⟩ <;>
    exact ⟨⟨h.plain, h.untimed⟩, rfl, rfl⟩

/-- A write off the responses that starts no command. -/
theorem rests_wrote (platform : Platform) (h : platform.device.Responsive) {offset : Nat}
    (off : OffResponses offset) {value : UInt32} (idle : starts offset value = false) :
    platform.device.Rests (platform.wrote offset value).device := by
  unfold wrote
  rw [idle]
  exact h.rests_poke off _

/-- Starting a command has it executed and answered, or nothing is done about it. -/
theorem rests_or_executes_start (platform : Platform) (h : platform.device.Responsive)
    (word : UInt32) :
    platform.device.Rests (platform.start word).device
      ∨ platform.device.Executes (platform.start word).device := by
  obtain ⟨device, memory⟩ := platform
  have hraise (bits : UInt32) :
      device.Rests { device with registers := device.registers.interrupt bits } :=
    h.rests_poke (by decide) _
  unfold start
  dsimp only
  split
  · exact .inl h.rests
  · rename_i card _ _
    right
    let bus : CardBus := ⟨device.registers, card, memory, device.reach, device.segments⟩
    obtain ⟨r0, r1, r2, r3, hrespond⟩ := bus.execute_registers word
    refine ⟨⟨fun register hmem => ?_, h.untimed⟩, _, rfl, ?_⟩
    · show ((bus.execute word).2.registers.interrupt _).Plain register.offset
      rw [hrespond]
      exact (((((h.plain register hmem).poke _ _).poke _ _).poke _ _).poke _ _).poke _ _
    · exact (RegisterFile.responses_poke _ (by decide) _).trans (bus.execute_answer word)
  · exact .inl (hraise _)
  · exact .inl (hraise _)

end Platform

end Bench

/-! ## Requests and runs -/

/-- A request that writes no response register. -/
def Request.SparesResponses : Request σ → Prop
  | .write _ offset _ => Bench.OffResponses offset
  | _ => True

/-- A request that has a card of the bench execute a command. -/
def Request.StartsCard : Request σ → Prop
  | .write _ offset value => Bench.Platform.starts offset value = true
  | _ => False

section Runs

variable {request : Request σ} {system : System Bench.machine σ ρ}

/-- A request that starts no command leaves the responses as they are. -/
theorem answer_rests (h : system.shared.device.Responsive) (spares : request.SparesResponses)
    (idle : ¬ request.StartsCard) :
    system.shared.device.Rests (system.answer request).2.2.shared.device := by
  obtain ⟨⟨device, memory⟩, level, cell, verbosity, journal⟩ := system
  cases request with
  | read window offset =>
      simp only [System.answer, Bench.machine, Bench.machineWith]
      cases window.services with
      | firmware => exact h.rests
      | supplied => exact h.rests_read offset
  | write window offset value =>
      simp only [System.answer, Bench.machine, Bench.machineWith]
      cases window.services with
      | firmware => exact h.rests
      | supplied =>
          obtain ⟨armed, hwrote⟩ :=
            Bench.Platform.writeRegister_wrote offset value ⟨device, memory⟩
          have hrests := Bench.Platform.rests_wrote ⟨device, memory⟩ h spares
            (Bool.not_eq_true _ ▸ idle)
          dsimp only
          rw [hwrote]
          exact ⟨⟨hrests.responsive.plain, hrests.responsive.untimed⟩, hrests.commands,
            hrests.responses⟩
  | stall services microseconds =>
      simp only [System.answer, Bench.machine, Bench.machineWith]
      cases services <;> exact Bench.Platform.rests_stall _ h
  | allocate services count => exact Bench.Platform.rests_allocate _ h count
  | free services address count => exact ⟨⟨h.plain, h.untimed⟩, rfl, rfl⟩
  | _ => exact h.rests

/-- Any request that writes no response register leaves the responses as they are, or has a command
executed and answered. -/
theorem answer_rests_or_executes (h : system.shared.device.Responsive)
    (spares : request.SparesResponses) :
    system.shared.device.Rests (system.answer request).2.2.shared.device
      ∨ system.shared.device.Executes (system.answer request).2.2.shared.device := by
  by_cases hidle : request.StartsCard
  · obtain ⟨⟨device, memory⟩, level, cell, verbosity, journal⟩ := system
    cases request with
    | write window offset value =>
        simp only [System.answer, Bench.machine, Bench.machineWith]
        cases window.services with
        | firmware => exact .inl h.rests
        | supplied =>
            obtain ⟨armed, hwrote⟩ :=
              Bench.Platform.writeRegister_wrote offset value ⟨device, memory⟩
            let written : Bench.Device :=
              { device with registers := device.registers.write offset value }
            have hwritten : device.Rests written := h.rests_poke spares _
            have hstarted := Bench.Platform.rests_or_executes_start ⟨written, memory⟩
              hwritten.responsive value
            have hstarts : Bench.Platform.starts offset value = true := hidle
            have hwrote' : Bench.Platform.wrote offset value ⟨device, memory⟩ =
                Bench.Platform.start ⟨written, memory⟩ value := by
              unfold Bench.Platform.wrote
              rw [hstarts]
              rfl
            dsimp only
            rw [hwrote, hwrote']
            rcases hstarted with hrests | hexecutes
            · left
              have hall := hwritten.trans hrests
              exact ⟨⟨hall.responsive.plain, hall.responsive.untimed⟩, hall.commands,
                hall.responses⟩
            · right
              exact ⟨⟨hexecutes.responsive.plain, hexecutes.responsive.untimed⟩,
                hexecutes.answered⟩
    | _ => exact hidle.elim
  · exact .inl (answer_rests h spares hidle)

/-- What the response registers hold once the card executed some commands, the latest first. -/
def Bench.Device.standing (origin : Bench.Device) : List (UInt32 × UInt32) → List UInt32
  | [] => origin.registers.responses
  | command :: _ => Bench.Card.answer command.1

/-- Since an earlier device the card executed some commands, and the response registers hold the
answer to the last one. -/
structure Bench.Device.Since (origin device : Bench.Device) : Prop where
  responsive : device.Responsive
  answered : ∃ executed, device.commands = executed ++ origin.commands
    ∧ device.registers.responses = origin.standing executed

theorem Bench.Device.Responsive.since {device : Bench.Device} (h : device.Responsive) :
    device.Since device :=
  ⟨h, [], rfl, rfl⟩

theorem Bench.Device.Since.rests {origin device after : Bench.Device} (h : origin.Since device)
    (step : device.Rests after) : origin.Since after := by
  obtain ⟨executed, hcommands, hresponses⟩ := h.answered
  exact ⟨step.responsive, executed, step.commands.trans hcommands,
    step.responses.trans hresponses⟩

theorem Bench.Device.Since.executes {origin device after : Bench.Device} (h : origin.Since device)
    (step : device.Executes after) : origin.Since after := by
  obtain ⟨executed, hcommands, -⟩ := h.answered
  obtain ⟨command, hstep, hresponses⟩ := step.answered
  exact ⟨step.responsive, command :: executed, by rw [hstep, hcommands, List.cons_append],
    hresponses⟩

/-- Along requests that write no response register the last answer stands. -/
theorem linked_since {trace : List (Moment Bench.machine σ ρ)} {origin : Bench.Device}
    {before after : Bench.Platform} (linked : Linked before trace after)
    (spares : ∀ moment ∈ trace, moment.request.SparesResponses)
    (h : origin.Since before.device) : origin.Since after.device := by
  induction trace generalizing before with
  | nil =>
      cases linked
      exact h
  | cons moment rest ih =>
      obtain ⟨rfl, hrest⟩ := linked
      refine ih hrest (fun other hmem => spares other (List.mem_cons_of_mem _ hmem)) ?_
      rcases answer_rests_or_executes h.responsive (spares moment List.mem_cons_self) with
        hstep | hstep
      · exact h.rests hstep
      · exact h.executes hstep

/-- Along requests that start no command the responses rest. -/
theorem linked_rests {trace : List (Moment Bench.machine σ ρ)} {before after : Bench.Platform}
    (linked : Linked before trace after)
    (idle : ∀ moment ∈ trace, moment.request.SparesResponses ∧ ¬ moment.request.StartsCard)
    (h : before.device.Responsive) : before.device.Rests after.device := by
  induction trace generalizing before with
  | nil =>
      cases linked
      exact h.rests
  | cons moment rest ih =>
      obtain ⟨rfl, hrest⟩ := linked
      obtain ⟨hspares, hidle⟩ := idle moment List.mem_cons_self
      have hstep := answer_rests h hspares hidle
      exact hstep.trans
        (ih hrest (fun other hmem => idle other (List.mem_cons_of_mem _ hmem)) hstep.responsive)

end Runs

end CardHost
