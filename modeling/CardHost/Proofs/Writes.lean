import CardHost.Proofs.Operations

/-!
# What the operations write

`Call.registers` lists the registers that an operation writes, and `perform_writing` says of every
operation, a dump included, that it writes no others, whatever the platform answers.  A property of
a register that an operation does not list needs no look at that operation.
-/

namespace CardHost

/-- A request that writes some registers only, in any window.  The other requests do not count. -/
def Request.Writing (registers : List Register) : Request σ → Prop
  | .write _ offset _ => ∃ register ∈ registers, offset = register.offset
  | _ => True

section Requests

variable {registers : List Register} {request : Request σ}

theorem Request.OnRegisters.writing {window : Window}
    (h : request.OnRegisters window fun register _ => register ∈ registers) :
    request.Writing registers := by
  cases request with
  | write w offset value =>
      obtain ⟨-, register, hoffset, hmem⟩ := h
      exact ⟨register, hmem, hoffset⟩
  | _ => trivial

theorem Request.OnBoard.writing {window : Window}
    (h : request.OnBoard window fun register _ => register ∈ registers) :
    request.Writing registers := by
  rcases h with hmemory | hregisters
  · cases request with
    | write => exact hmemory.elim
    | _ => trivial
  · exact hregisters.writing

/-- A request on the registers that writes none. -/
theorem Request.OnRegisters.writing_none {window : Window}
    (h : request.OnRegisters window fun _ _ => False) : request.Writing registers := by
  cases request with
  | write w offset value =>
      obtain ⟨-, register, -, hfalse⟩ := h
      exact hfalse.elim
  | _ => trivial

/-- A request that a lock keeps for itself writes no register. -/
theorem Request.writing_of_not_inner (h : ¬ request.Inner) : request.Writing registers := by
  cases request with
  | write => exact (h trivial).elim
  | _ => trivial

/-- A register outside the list is not written. -/
theorem Request.Writing.ne {register : Register} (h : request.Writing registers)
    (hmem : register ∉ registers) (window : Window) (value : UInt32) :
    request ≠ .write window register.offset value := by
  rintro rfl
  obtain ⟨other, hother, hoffset⟩ := h
  rw [Register.offset_injective hoffset] at hmem
  exact hmem hother

end Requests

namespace Host

/-- The registers that a card command writes. -/
def commandRegisters : List Register :=
  [.rawInterrupt, .argument, .command, .interruptMask]

/-- The registers of the card clock without its divider, and the command that makes the card
interface take them over. -/
def gatingRegisters : List Register :=
  [.clockEnable, .clockExtension, .argument, .command]

end Host

/-- The registers that an operation writes. -/
def Call.registers : Call → List Register
  | .sendCommand .. => Host.commandRegisters
  | .readData .. => .command :: Host.phaseRegisters
  | .writeData .. => .command :: Host.phaseRegisters
  | .setBus .. => .cardType :: .clockDivider :: Host.gatingRegisters
  | .setClock .. => .clockDivider :: Host.gatingRegisters
  | .bringUp => Host.gatingRegisters ++ Host.bringUpRegisters
  | .notify .hardwareInit => .clockDivider :: Host.gatingRegisters ++ Host.bringUpRegisters
  | _ => []

namespace Host

variable (host : Host) {registers : List Register}

theorem writing_issue (word : CommandWord) (argument : UInt32)
    (h : commandRegisters ⊆ registers) :
    (host.issue word argument : Action σ Unit).Asks (Request.Writing registers) := by
  have hissue : (host.issue word argument : Action σ Unit).Asks
      (Request.OnRegisters host.window fun register _ => register ∈ registers) :=
    asks_issue host (h (by decide)) (h (by decide)) (h (by decide)) (h (by decide))
  exact Prog.Asks.mono hissue fun _ => Request.OnRegisters.writing

theorem writing_programClock (frequency : UInt32) (hdivider : .clockDivider ∈ registers)
    (h : gatingRegisters ⊆ registers) :
    (host.programClock frequency : Action σ Unit).Asks (Request.Writing registers) := by
  have hclock : ∀ register ∈ clockRegisters, ∀ value : UInt32, register ∈ registers := by
    intro register hmem _
    by_cases heq : register = .clockDivider
    · rwa [heq]
    · apply h
      revert register
      decide
  have hprogram : (host.programClock frequency : Action σ Unit).Asks
      (Request.OnRegisters host.window fun register _ => register ∈ registers) :=
    asks_programClock host frequency hclock (h (by decide))
  exact Prog.Asks.mono hprogram fun _ => Request.OnRegisters.writing

theorem writing_bringUpController (hbringUp : bringUpRegisters ⊆ registers)
    (h : gatingRegisters ⊆ registers) :
    (host.bringUpController : Action σ Unit).Asks (Request.Writing registers) := by
  have hclock : ∀ register ∈ clockRegisters, register ≠ .clockDivider →
      ∀ value : UInt32, register ∈ registers := by
    intro register hmem hne _
    apply h
    revert register
    decide
  have hcontroller : (host.bringUpController : Action σ Unit).Asks
      (Request.OnRegisters host.window fun register _ => register ∈ registers) :=
    asks_bringUpController host hclock (fun register hmem _ => hbringUp hmem) (h (by decide))
  exact Prog.Asks.mono hcontroller fun _ => Request.OnRegisters.writing

/-- A data phase writes the registers of the DMA engine and those of its command. -/
theorem writing_runPhase (length : Nat) (buffer : DataBuffer) (state : HostState) :
    (host.runPhase length buffer state : Prog σ _).Asks
      (Request.Writing (.command :: phaseRegisters)) := by
  have hmoves (ring : Ring) (latch : Latch) (pages : Pages) :
      (host.moveThrough ring latch length buffer pages : Action σ (List UInt8)).Asks
        (Request.Writing (.command :: phaseRegisters)) := by
    have hboard : (host.moveThrough ring latch length buffer pages : Action σ _).Asks
        (Request.OnBoard host.window fun register _ =>
          register ∈ Register.command :: phaseRegisters) :=
      asks_moveThrough_onBoard host ring latch length buffer pages
        (fun register hmem _ => List.mem_cons_of_mem _ hmem) List.mem_cons_self
    exact Prog.Asks.mono hboard fun _ => Request.OnBoard.writing
  obtain ⟨ring, latch⟩ := state
  unfold runPhase
  cases latch with
  | none => exact (asks_log _ trivial).bind fun _ => Prog.asks_done _
  | some latch =>
      apply Prog.Asks.bind _ fun _ => Prog.asks_done _
      exact host.asks_runLatched_of (fun _ _ => trivial) (fun _ _ _ => trivial) (fun _ => trivial)
        (hmoves ring latch)

theorem writing_commandBody (index argument : UInt32) (state : HostState) :
    (host.commandBody index argument state).Asks (Request.Writing commandRegisters) := by
  have hremarks (remarks : List Message) :
      (Prog.logAll remarks : Prog HostState Unit).Asks (Request.Writing commandRegisters) :=
    asks_logAll remarks fun _ => trivial
  cases hdata : (CommandWord.ofCommand index argument).isData with
  | true =>
      obtain ⟨remarks, hbody⟩ := host.commandBody_latching hdata state
      rw [hbody]
      exact (hremarks remarks).bind fun _ => Prog.asks_done _
  | false =>
      obtain ⟨remarks, hbody⟩ := host.commandBody_issuing hdata state
      rw [hbody]
      apply (hremarks remarks).bind
      intro _
      exact Prog.Asks.bind (host.writing_issue _ _ (List.Subset.refl _)) fun _ =>
        Prog.asks_done _

/-- What holds of the body holds of the operation that runs it under the lock. -/
theorem writing_holding {body : HostState → Prog HostState (Except HostError α × HostState)}
    (h : ∀ state, (body state).Asks (Request.Writing registers)) :
    (host.lock.holding body).Asks (Request.Writing registers) :=
  host.lock.asks_holding (fun _ => Request.writing_of_not_inner) (fun _ => trivial) h

theorem writing_during {action : Action HostState α}
    (h : action.Asks (Request.Writing registers)) :
    (host.lock.during action).Asks (Request.Writing registers) :=
  host.writing_holding fun _ => Prog.Asks.bind h fun _ => Prog.asks_done _

/-- Copying a response reads registers and writes none. -/
theorem writing_receiveResponse (type : ResponseType) (buffer : List UInt32) :
    (host.receiveResponse type buffer).Asks (Request.Writing registers) := by
  unfold receiveResponse
  split
  · exact (asks_log _ trivial).bind fun _ => Prog.asks_done _
  · have hreads : (host.readRegisters (Register.responses.take type.wordCount) :
        Prog HostState _).Asks (Request.OnRegisters host.window fun _ _ => False) :=
      asks_readRegisters host _
    apply Prog.Asks.bind (host.writing_during (Action.asks_lift
      (hreads.mono fun _ => Request.OnRegisters.writing_none)))
    intro outcome
    cases outcome <;> exact Prog.asks_done _

theorem writing_setBus (frequency lines : UInt32) (timing : BusTiming) :
    (host.setBus frequency lines timing).Asks
      (Request.Writing (.cardType :: .clockDivider :: gatingRegisters)) := by
  unfold setBus
  split
  · exact (asks_log _ trivial).bind fun _ => Prog.asks_done _
  · have hwidth (value : UInt32) : (host.window.write Register.cardType.offset value :
        Prog HostState Unit).Asks (Request.OnRegisters host.window fun register _ =>
          register ∈ Register.cardType :: .clockDivider :: gatingRegisters) :=
      Window.asks_write List.mem_cons_self
    apply host.writing_during
    apply (Action.asks_lift (asks_log _ trivial)).bind
    intro _
    apply (Action.asks_lift ((hwidth _).mono fun _ => Request.OnRegisters.writing)).bind
    intro _
    split
    · exact Action.asks_pure ()
    · exact host.writing_programClock frequency (List.mem_cons_of_mem _ List.mem_cons_self)
        (List.subset_cons_of_subset _ (List.subset_cons_self _ _))

/-- An operation writes its own registers only. -/
theorem perform_writing (call : Call) :
    (host.perform call).Asks (Request.Writing call.registers) := by
  cases hphase : call.phase? with
  | some phase =>
      obtain ⟨length, buffer⟩ := phase
      have hregisters : call.registers = .command :: phaseRegisters := by
        cases call with
        | readData => rfl
        | writeData => rfl
        | _ => cases hphase
      rw [host.perform_phase hphase, hregisters]
      exact (host.writing_holding (host.writing_runPhase length buffer)).bind fun _ =>
        Prog.asks_done _
  | none =>
      cases call with
      | sendCommand index argument =>
          rw [host.perform_sendCommand]
          exact (host.writing_holding (host.writing_commandBody index argument)).bind fun _ =>
            Prog.asks_done _
      | readData => cases hphase
      | writeData => cases hphase
      | receiveResponse type buffer =>
          exact (host.writing_receiveResponse type buffer).bind fun _ => Prog.asks_done _
      | setBus frequency lines timing =>
          exact (host.writing_setBus frequency lines timing).bind fun _ => Prog.asks_done _
      | setClock frequency =>
          apply Prog.Asks.bind _ fun _ => Prog.asks_done _
          exact host.writing_during (host.writing_programClock frequency List.mem_cons_self
            (List.subset_cons_self _ _))
      | bringUp =>
          apply Prog.Asks.bind _ fun _ => Prog.asks_done _
          exact host.writing_during (host.writing_bringUpController (by decide) (by decide))
      | notify state =>
          apply Prog.Asks.bind _ fun _ => Prog.asks_done _
          cases state with
          | hardwareInit =>
              apply host.writing_during
              apply (host.writing_bringUpController (by decide) (by decide)).bind
              intro _
              exact host.writing_programClock _ (by decide) (by decide)
          | _ => exact (asks_log _ trivial).bind fun _ => Prog.asks_done _
      | pending =>
          apply Prog.Asks.bind _ fun _ => Prog.asks_done _
          exact host.writing_holding fun _ => Prog.asks_done _
      | dump =>
          have hdump : (host.window.dump : Prog HostState Unit).Asks
              (Request.OnRegisters host.window fun _ _ => False) := Window.asks_dump
          exact (hdump.mono fun _ => Request.OnRegisters.writing_none).bind
            fun _ => Prog.asks_done _
      | _ => exact Prog.asks_done _

end Host

end CardHost
