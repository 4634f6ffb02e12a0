import CardHost.Proofs.Bench.Responses
import CardHost.Proofs.Issuance

/-!
# Reading responses

The host copies a response out of the response registers as often as it is asked to.  On the bench
every copy is the answer to the last command that the card executed, so two copies agree as long as
the card executed none in between (`responses_stable`).  Which operations have it execute none is
told by `Call.Spares`, and by `Host.Calm` for data phases that are turned away.
-/

namespace CardHost

/-! ## Operations that the card does not notice -/

/-- Taking over clock settings is not a command of the card. -/
theorem Bench.Platform.starts_updateClock :
    starts Register.command.offset CommandWord.updateClock.withStart.bits = false := by
  decide

/-- A register write that starts no command. -/
def Register.StartsNone (register : Register) (value : UInt32) : Prop :=
  Bench.Platform.starts register.offset value = false

/-- An operation that has the card of the bench execute nothing, wherever it runs. -/
def Call.Spares : Call → Prop
  | .sendCommand index argument => (CommandWord.ofCommand index argument).isData = true
  | .readData .. => False
  | .writeData .. => False
  | _ => True

/-- An operation that has the card execute nothing where it runs: it never does, or it is a data
phase that is turned away for a reason of its own or for want of pages. -/
inductive Host.Calm (host : Host) (system : System Bench.machine HostState ρ) (call : Call) : Prop
  | sparing (h : call.Spares)
  | refused (phase : call.phase? = some (length, buffer)) (sliced : buffer.size < sliceLimit)
      (h : host.refusal? length buffer system.cell = some error)
  | unallocated (phase : call.phase? = some (length, buffer)) (sliced : buffer.size < sliceLimit)
      (h : host.refusal? length buffer system.cell = none)
      (refused : HostError.ofStatus (Bench.machine.allocate host.services
        (host.split length).stagingPages system.shared).1.status = .error error)

section Requests

variable {request : Request σ}

theorem Request.OnRegisters.not_startsCard {window : Window}
    (h : request.OnRegisters window Register.StartsNone) : ¬ request.StartsCard := by
  cases request with
  | write w offset value =>
      obtain ⟨-, register, rfl, hnone⟩ := h
      exact Bool.eq_false_iff.mp hnone
  | _ => exact id

theorem Request.Writing.not_startsCard {registers : List Register}
    (h : request.Writing registers) (hmem : .command ∉ registers) : ¬ request.StartsCard := by
  cases request with
  | write window offset value =>
      obtain ⟨register, hregister, rfl⟩ := h
      have hne : register ≠ .command := fun heq => hmem (heq ▸ hregister)
      exact Bool.eq_false_iff.mp (Bench.Platform.starts_eq_false hne value)
  | _ => exact id

theorem Request.Idle.not_startsCard (h : request.Idle) : ¬ request.StartsCard := by
  cases request with
  | write => exact h.elim
  | _ => exact id

theorem Request.OffBoard.not_startsCard (h : request.OffBoard) : ¬ request.StartsCard := by
  cases request with
  | write => exact h.elim
  | _ => exact id

theorem Request.not_startsCard_of_not_inner (h : ¬ request.Inner) : ¬ request.StartsCard := by
  cases request with
  | write => exact (h trivial).elim
  | _ => exact id

/-- No operation writes a response register. -/
theorem Call.response_not_mem_registers (call : Call) :
    ∀ response ∈ Register.responses, response ∉ call.registers := by
  cases call with
  | notify state => cases state <;> decide
  | _ =>
      dsimp only [Call.registers]
      decide

theorem Request.Writing.sparesResponses {call : Call} (h : request.Writing call.registers) :
    request.SparesResponses := by
  cases request with
  | write window offset value =>
      obtain ⟨register, hregister, rfl⟩ := h
      intro response hresponse hoffset
      rw [Register.offset_injective hoffset] at hregister
      exact call.response_not_mem_registers response hresponse hregister
  | _ => trivial

end Requests

namespace Host

variable (host : Host)

theorem perform_sparesResponses (call : Call) :
    (host.perform call).Asks Request.SparesResponses :=
  (host.perform_writing call).mono fun _ => Request.Writing.sparesResponses

theorem performAll_sparesResponses (calls : List Call) :
    (host.performAll calls).Asks Request.SparesResponses := by
  induction calls with
  | nil => exact Prog.asks_done _
  | cons call rest ih =>
      exact (host.perform_sparesResponses call).bind fun _ => ih.bind fun _ => Prog.asks_done _

/-- What holds of an action holds of the operation that runs it under the lock. -/
theorem asks_during_calmly {action : Action HostState α}
    (h : action.Asks (Request.OnRegisters host.window Register.StartsNone)) :
    (host.lock.during action).Asks fun request => ¬ request.StartsCard := by
  apply host.lock.asks_holding (fun _ => Request.not_startsCard_of_not_inner) fun _ => id
  intro state
  have haction : action.run.Asks fun request => ¬ request.StartsCard :=
    Prog.Asks.mono h fun _ => Request.OnRegisters.not_startsCard
  exact haction.bind fun _ => Prog.asks_done _

/-- A clock change has the card interface take over the clock, and the card do nothing. -/
theorem asks_programClock_calmly (frequency : UInt32) :
    (host.programClock frequency : Action σ Unit).Asks
      (Request.OnRegisters host.window Register.StartsNone) := by
  apply asks_programClock host frequency
  · intro register hmem value
    apply Bench.Platform.starts_eq_false
    revert register
    decide
  · exact Bench.Platform.starts_updateClock

theorem asks_bringUpController_calmly :
    (host.bringUpController : Action σ Unit).Asks
      (Request.OnRegisters host.window Register.StartsNone) := by
  apply asks_bringUpController host
  · intro register hmem _ value
    apply Bench.Platform.starts_eq_false
    revert register
    decide
  · intro register hmem value
    apply Bench.Platform.starts_eq_false
    revert register
    decide
  · exact Bench.Platform.starts_updateClock

/-- A data command is latched without the card. -/
theorem asks_latching {index argument : UInt32}
    (h : (CommandWord.ofCommand index argument).isData = true) :
    (host.perform (.sendCommand index argument)).Asks fun request => ¬ request.StartsCard := by
  rw [host.perform_sendCommand]
  apply Prog.Asks.bind _ fun _ => Prog.asks_done _
  apply host.lock.asks_holding (fun _ => Request.not_startsCard_of_not_inner) fun _ => id
  intro state
  obtain ⟨remarks, hbody⟩ := host.commandBody_latching h state
  rw [hbody]
  exact (asks_logAll remarks fun _ => id).bind fun _ => Prog.asks_done _

theorem asks_setBus_calmly (frequency lines : UInt32) (timing : BusTiming) :
    (host.setBus frequency lines timing).Asks fun request => ¬ request.StartsCard := by
  unfold setBus
  split
  · exact (asks_log _ id).bind fun _ => Prog.asks_done _
  · apply host.asks_during_calmly
    apply (asks_report _).bind
    intro _
    apply (Action.asks_lift (Window.asks_write
      (Bench.Platform.starts_eq_false (by decide) _))).bind
    intro _
    split
    · exact Action.asks_pure ()
    · exact host.asks_programClock_calmly frequency

/-- An operation that spares the card never starts a command. -/
theorem perform_spares {call : Call} (h : call.Spares) :
    (host.perform call).Asks fun request => ¬ request.StartsCard := by
  have hunwritten (hmem : .command ∉ call.registers) :
      (host.perform call).Asks fun request => ¬ request.StartsCard :=
    (host.perform_writing call).mono fun _ hwriting => hwriting.not_startsCard hmem
  cases call with
  | sendCommand index argument => exact host.asks_latching h
  | readData => exact h.elim
  | writeData => exact h.elim
  | setBus frequency lines timing =>
      exact (host.asks_setBus_calmly frequency lines timing).bind fun _ => Prog.asks_done _
  | setClock frequency =>
      exact (host.asks_during_calmly (host.asks_programClock_calmly frequency)).bind fun _ =>
        Prog.asks_done _
  | bringUp =>
      exact (host.asks_during_calmly host.asks_bringUpController_calmly).bind fun _ =>
        Prog.asks_done _
  | notify state =>
      cases state with
      | hardwareInit =>
          apply Prog.Asks.bind _ fun _ => Prog.asks_done _
          apply host.asks_during_calmly
          exact host.asks_bringUpController_calmly.bind fun _ => host.asks_programClock_calmly _
      | _ => exact hunwritten (by decide)
  | _ => exact hunwritten List.not_mem_nil

/-- A calm operation leaves the commands of the card as they are. -/
theorem Calm.commands_eq {host : Host} {calls : Call → List Call} {depth : Nat} {call : Call}
    {system after : System Bench.machine HostState (List Answer)} {answer : Answer}
    (calm : host.Calm system call) (responsive : system.shared.device.Responsive)
    (ran : (host.perform call).run (fun i => host.performAll (calls i)) depth system =
      .ok (answer, after)) :
    after.shared.device.commands = system.shared.device.commands := by
  have hlinked : Linked system.shared _ after.shared :=
    Prog.carried_to_end (along_linked system.shared) rfl ran
  have hspares := (host.perform_sparesResponses call).of_mem_trace_of_handler
    (fun i => host.performAll_sparesResponses (calls i)) depth system
  have hoffBoard (away : ∀ moment ∈ (host.perform call).trace
      (fun i => host.performAll (calls i)) depth system, moment.request.OffBoard) :
      after.shared.device.commands = system.shared.device.commands :=
    (linked_rests hlinked (fun moment hmem =>
      ⟨hspares moment hmem, (away moment hmem).not_startsCard⟩) responsive).commands
  cases calm with
  | sparing h =>
      refine (linked_rests hlinked (fun moment hmem => ⟨hspares moment hmem, ?_⟩)
        responsive).commands
      rcases host.asked_of_mem_trace (host.idles_performAll calls depth) (host.perform_spares h)
        system moment hmem with hidle | ⟨left, hput⟩ | ⟨-, hnone⟩
      · exact hidle.not_startsCard
      · rw [hput]
        exact id
      · exact hnone
  | refused phase sliced h => exact hoffBoard (turnedAway_of_refused phase sliced h).offBoard
  | unallocated phase sliced h refused =>
      exact hoffBoard (((host.turned_away_or_through phase sliced _ depth system).2 h).1 _
        refused).offBoard

end Host

/-! ## Copying a response -/

section Copying

variable {machine : Machine ι} {handler : ι → Prog HostState ρ} {depth : Nat}
  {system after : System machine HostState ρ}

/-- An action under the lock is refused, or runs on the platform as it is. -/
theorem Lock.run_during_cases {lock : Lock} {action : Action HostState α}
    {outcome : Except HostError α}
    (ran : (lock.during action).run handler depth system = .ok (outcome, after)) :
    outcome = .error (.firmware .accessDenied)
      ∨ ∃ entered last, entered.shared = system.shared
        ∧ action.run.run handler depth entered = .ok (outcome, last)
        ∧ after.shared = last.shared := by
  unfold during at ran
  cases hcell : system.cell with
  | none =>
      rw [run_holding_of_held handler depth lock _ system hcell] at ran
      cases ran
      exact .inl rfl
  | some state =>
      obtain ⟨left, last, hbody, rfl⟩ := returned_of_run hcell ran
      obtain ⟨value, middle, haction, hdone⟩ := Prog.run_bind_ok hbody
      cases hdone
      exact .inr ⟨lock.entered system, _, rfl, haction, rfl⟩

namespace Host

variable {host : Host}

/-- Registers are read one value each. -/
theorem obeys_readRegisters (registers : List Register) :
    (host.readRegisters registers : Prog σ _).Obeys (fun _ => True)
      fun values => values.length = registers.length := by
  induction registers with
  | nil => rfl
  | cons register rest ih =>
      apply (Prog.asks_anything (host.window.read register.offset)).obeys_bind
      intro value
      apply ih.bind
      intro values hlength
      exact congrArg (· + 1) hlength

/-- A response is copied from the registers as they are, or there is an error and the buffer stays
as it was. -/
theorem receiveResponse_cases {type : ResponseType} {buffer : List UInt32} {answer : Answer}
    (ran : (host.perform (.receiveResponse type buffer)).run handler depth system =
      .ok (answer, after)) :
    (∃ error, answer = .response (.error error) buffer)
      ∨ ∃ words entered last, type.wordCount ≤ buffer.length
        ∧ answer = .response (.ok ()) (words ++ buffer.drop type.wordCount)
        ∧ entered.shared = system.shared
        ∧ (host.readRegisters (Register.responses.take type.wordCount)).run handler depth entered =
            .ok (words, last)
        ∧ after.shared = last.shared := by
  by_cases hshort : buffer.length < type.wordCount
  · have hdump : Call.receiveResponse type buffer ≠ .dump := nofun
    rw [host.run_perform_of_unlocked handler depth hdump (if_pos hshort)] at ran
    cases ran
    exact .inl ⟨_, rfl⟩
  · rw [host.perform_receiveResponse hshort] at ran
    obtain ⟨outcome, middle, hlocked, hdone⟩ := Prog.run_bind_ok ran
    cases hdone
    rcases Lock.run_during_cases hlocked with rfl | ⟨entered, last, hentered, hread, hlast⟩
    · exact .inl ⟨_, rfl⟩
    · rw [Action.run_lift] at hread
      obtain ⟨words, left, hwords, hshaped⟩ := Prog.run_bind_ok hread
      cases hshaped
      exact .inr ⟨words, entered, last, Nat.not_lt.mp hshort, rfl, hentered, hwords, hlast⟩

end Host

end Copying

/-- R2 has four words and every other format one. -/
theorem ResponseType.wordCount_eq (type : ResponseType) :
    type.wordCount = if type = .r2 then 4 else 1 := by
  cases type <;> rfl

theorem ResponseType.length_responses (type : ResponseType) :
    (Register.responses.take type.wordCount).length = type.wordCount := by
  cases type <;> rfl

/-- Copying a response writes no register.  It changes the first four words of the buffer for R2 and
the first word for any other format, and none where it fails. -/
structure Host.CopiesFront (host : Host) (machine : Machine ι) (handler : ι → Prog HostState ρ)
    (depth : Nat) (system : System machine HostState ρ) (type : ResponseType)
    (buffer : List UInt32) : Prop where
  answered : ∀ answer after,
    (host.perform (.receiveResponse type buffer)).run handler depth system = .ok (answer, after) →
      (∃ error, answer = .response (.error error) buffer)
        ∨ ∃ words, words.length = (if type = .r2 then 4 else 1) ∧ words.length ≤ buffer.length
          ∧ answer = .response (.ok ()) (words ++ buffer.drop words.length)
  unwritten : ∀ moment ∈ (host.perform (.receiveResponse type buffer)).trace handler depth system,
    ∀ window offset value, moment.request ≠ .write window offset value

theorem Host.copies_front (host : Host) {machine : Machine ι} (handler : ι → Prog HostState ρ)
    (depth : Nat) (system : System machine HostState ρ) (type : ResponseType)
    (buffer : List UInt32) : host.CopiesFront machine handler depth system type buffer where
  answered answer after ran := by
    rcases receiveResponse_cases ran with herror | ⟨words, _, _, hroom, hanswer, -, hread, -⟩
    · exact .inl herror
    · have hlength : words.length = type.wordCount :=
        ((obeys_readRegisters _).post_of_run hread).trans type.length_responses
      rw [← hlength] at hroom hanswer
      exact .inr ⟨words, hlength.trans type.wordCount_eq, hroom, hanswer⟩
  unwritten := by
    have hwriting : (host.perform (.receiveResponse type buffer)).Asks (Request.Writing []) :=
      host.perform_writing (.receiveResponse type buffer)
    have hnone : ∀ window offset value,
        ¬ (Request.write window offset value : Request HostState).Writing [] := by
      rintro window offset value ⟨register, hmem, -⟩
      cases hmem
    intro moment hmem window offset value hrequest
    rw [hwriting.trace_eq_moments_of handler depth hnone] at hmem
    have hmoment := hwriting.of_mem_moments handler depth system moment hmem
    rw [hrequest] at hmoment
    exact hnone window offset value hmoment

/-! ## What is copied -/

section Reading

variable {handler : Call → Prog HostState ρ} {depth : Nat}
  {system after : System Bench.machine HostState ρ}

/-- A plain register of the simulated controller is read as it is. -/
theorem Window.run_read_plain {window : Window} (supplied : window.services = .supplied)
    {offset : Nat} (plain : system.shared.device.registers.Plain offset) {value : UInt32}
    (ran : (window.read offset).run handler depth system = .ok (value, after)) :
    value = system.shared.device.registers.value offset ∧ after.shared = system.shared := by
  unfold read at ran
  split at ran
  · obtain ⟨⟨device, memory⟩, level, cell, verbosity, journal⟩ := system
    have hread : device.registers.read offset = (device.registers.value offset, device.registers) :=
      plain.read
    simp only [Prog.request, Prog.run, Prog.runWith, System.answer, Bench.machine,
      Bench.machineWith, supplied, hread] at ran
    cases ran
    exact ⟨rfl, rfl⟩
  · cases ran

namespace Host

variable {host : Host}

theorem run_readRegisters_plain (supplied : host.services = .supplied) {registers : List Register}
    (plain : ∀ register ∈ registers, system.shared.device.registers.Plain register.offset)
    {values : List UInt32}
    (ran : (host.readRegisters registers).run handler depth system = .ok (values, after)) :
    values = registers.map system.shared.device.registers.held ∧ after.shared = system.shared := by
  induction registers generalizing system after values with
  | nil =>
      cases ran
      exact ⟨rfl, rfl⟩
  | cons register rest ih =>
      obtain ⟨value, middle, hread, hrest⟩ := Prog.run_bind_ok ran
      obtain ⟨hvalue, hmiddle⟩ :=
        Window.run_read_plain supplied (plain register List.mem_cons_self) hread
      obtain ⟨later, last, hlater, hdone⟩ := Prog.run_bind_ok hrest
      have hplain : ∀ other ∈ rest, middle.shared.device.registers.Plain other.offset := by
        intro other hmem
        rw [hmiddle]
        exact plain other (List.mem_cons_of_mem _ hmem)
      obtain ⟨hvalues, hlast⟩ := ih hplain hlater
      cases hdone
      rw [hmiddle] at hvalues hlast
      exact ⟨by rw [hvalue, hvalues]; rfl, hlast⟩

/-- What is copied without an error is what the response registers hold. -/
theorem words_of_receiveResponse (supplied : host.services = .supplied)
    (responsive : system.shared.device.Responsive) {type : ResponseType}
    {buffer copied : List UInt32}
    (ran : (host.perform (.receiveResponse type buffer)).run handler depth system =
      .ok (.response (.ok ()) copied, after)) :
    copied = system.shared.device.registers.responses.take type.wordCount
        ++ buffer.drop type.wordCount
      ∧ after.shared = system.shared := by
  rcases receiveResponse_cases ran with ⟨error, hanswer⟩ |
    ⟨words, entered, last, -, hanswer, hentered, hread, hlast⟩
  · cases hanswer
  · cases hanswer
    have hplain : ∀ register ∈ Register.responses.take type.wordCount,
        entered.shared.device.registers.Plain register.offset := by
      intro register hmem
      rw [hentered]
      exact responsive.plain register (List.mem_of_mem_take hmem)
    obtain ⟨hwords, hleft⟩ := run_readRegisters_plain supplied hplain hread
    constructor
    · rw [hwords, hentered]
      exact congrArg (· ++ buffer.drop type.wordCount) List.map_take
    · exact hlast.trans (hleft.trans hentered)

end Host

end Reading

/-! ## Responses stand -/

namespace Host

variable {host : Host} {calls : Call → List Call} {depth : Nat}
  {system after : System Bench.machine HostState (List Answer)}

/-- Operations of the host leave the answer to the last command in the response registers. -/
theorem Attempted.since {attempt : Attempt} {answer : Answer} {origin : Bench.Device}
    (ran : host.Attempted (fun i => host.performAll (calls i)) depth system attempt answer after)
    (h : origin.Since system.shared.device) : origin.Since after.shared.device := by
  have hperform (before last : System Bench.machine HostState (List Answer)) (call : Call)
      (hran : (host.perform call).run (fun i => host.performAll (calls i)) depth before =
        .ok (answer, last)) (hbefore : origin.Since before.shared.device) :
      origin.Since last.shared.device :=
    linked_since (Prog.carried_to_end (along_linked before.shared) rfl hran)
      ((host.perform_sparesResponses call).of_mem_trace_of_handler
        (fun i => host.performAll_sparesResponses (calls i)) depth before) hbefore
  cases ran with
  | admitted ran => exact hperform _ _ _ ran h
  | refused ran =>
      have hrefused := hperform _ _ _ ran h
      exact hrefused

theorem After.since {history : List Attempt} {origin : Bench.Device}
    (ran : host.After (fun i => host.performAll (calls i)) depth system history after)
    (h : origin.Since system.shared.device) : origin.Since after.shared.device := by
  induction ran with
  | none => exact h
  | next first rest ih => exact ih (first.since h)

/-- On the bench a response that is copied is the answer to the last command that the card executed,
whatever the host did before: all four words of it for R2, and the first one for any other format.
It stays so until the card executes the next command: it is copied again, in the same format or
another, after any operations during which the card executed none.  Calm operations are of that
kind.  Copying takes the first words of the buffer at most, and writes no register. -/
theorem responses_stable (host : Host) (supplied : host.services = .supplied)
    (calls : Call → List Call) (depth : Nat)
    {start : System Bench.machine HostState (List Answer)}
    (responsive : start.shared.device.Responsive) :
    let handler := fun call => host.performAll (calls call)
    let count := fun type : ResponseType => if type = .r2 then 4 else 1
    (∀ {earlier between : List Attempt} {type type' : ResponseType}
        {buffer buffer' copied copied' : List UInt32}
        {before after again last : System Bench.machine HostState (List Answer)},
      host.After handler depth start earlier before →
      (host.perform (.receiveResponse type buffer)).run handler depth before =
        .ok (.response (.ok ()) copied, after) →
      host.After handler depth after between again →
      again.shared.device.commands = after.shared.device.commands →
      (host.perform (.receiveResponse type' buffer')).run handler depth again =
        .ok (.response (.ok ()) copied', last) →
      ∃ executed, last.shared.device.commands = executed ++ start.shared.device.commands
        ∧ copied = (start.shared.device.standing executed).take (count type)
            ++ buffer.drop (count type)
        ∧ copied' = (start.shared.device.standing executed).take (count type')
            ++ buffer'.drop (count type'))
    ∧ (∀ {earlier : List Attempt} {before after : System Bench.machine HostState (List Answer)}
        {call : Call} {answer : Answer},
      host.After handler depth start earlier before → host.Calm before call →
      (host.perform call).run handler depth before = .ok (answer, after) →
      after.shared.device.commands = before.shared.device.commands)
    ∧ ∀ (system : System Bench.machine HostState (List Answer)) (type : ResponseType)
        (buffer : List UInt32),
        host.CopiesFront Bench.machine handler depth system type buffer := by
  intro handler count
  refine ⟨?_, ?_, host.copies_front handler depth⟩
  · intro earlier between type type' buffer buffer' copied copied' before after again last
      hearlier hfirst hbetween hnone hsecond
    have hbefore := After.since hearlier responsive.since
    obtain ⟨hcopied, hafter⟩ := words_of_receiveResponse supplied hbefore.responsive hfirst
    have hagain := After.since hbetween (hafter ▸ hbefore)
    obtain ⟨hcopied', hlast⟩ := words_of_receiveResponse supplied hagain.responsive hsecond
    obtain ⟨executed, hcommands, hanswer⟩ := hbefore.answered
    obtain ⟨executed', hcommands', hanswer'⟩ := hagain.answered
    have hsame : executed' = executed := by
      rw [hnone, hafter, hcommands] at hcommands'
      exact (List.append_cancel_right hcommands').symm
    subst hsame
    refine ⟨executed', ?_, ?_, ?_⟩
    · rw [hlast, hcommands']
    · rw [hcopied, hanswer, type.wordCount_eq]
    · rw [hcopied', hanswer', type'.wordCount_eq]
  · intro earlier before after call answer hearlier calm ran
    exact calm.commands_eq (After.since hearlier responsive.since).responsive ran

end Host

/-! ## A card identification on the bench -/

/-- The system after a history, if every attempt of it ends. -/
def Host.reached? {machine : Machine ι} (host : Host) (handler : ι → Prog HostState ρ)
    (depth : Nat) : System machine HostState ρ → List Attempt → Option (System machine HostState ρ)
  | before, [] => some before
  | before, attempt :: rest =>
    (attempt.after? host handler depth before).bind fun after =>
      host.reached? handler depth after rest

theorem Host.after_of_reached? {machine : Machine ι} {host : Host} {handler : ι → Prog HostState ρ}
    {depth : Nat} {before after : System machine HostState ρ} {history : List Attempt}
    (h : host.reached? handler depth before history = some after) :
    host.After handler depth before history after := by
  induction history generalizing before with
  | nil =>
      cases h
      exact .none
  | cons attempt rest ih =>
      obtain ⟨middle, hfirst, hrest⟩ := Option.bind_eq_some_iff.mp h
      obtain ⟨answer, hattempted⟩ := Attempt.attempted hfirst
      exact .next hattempted (ih hrest)

/-- The words of a response that was copied, with the system after that. -/
def copied? {machine : Machine ι} : Except Halt (Answer × System machine σ ρ) →
    Option (List UInt32 × System machine σ ρ)
  | .ok (.response (.ok ()) words, after) => some (words, after)
  | _ => none

theorem run_of_copied? {machine : Machine ι} {ran : Except Halt (Answer × System machine σ ρ)}
    {words : List UInt32} {after : System machine σ ρ} (h : copied? ran = some (words, after)) :
    ran = .ok (.response (.ok ()) words, after) := by
  unfold copied? at h
  split at h
  · cases h
    rfl
  · cases h

/-- The small bench with a card and the hasty host loaded. -/
@[irreducible]
def cardStart : System Bench.machine HostState (List Answer) :=
  let bench : System Bench.machine HostState (List Answer) :=
    { smallBench with
      shared := ⟨{ Bench.Device.initial 0x1F0000000 16 0 with card := some (.blank 8) },
        .blank⟩ }
  match (Slot.empty.load hastyHost.config .supplied).run undisturbed 0 bench with
  | .ok (_, start) => start
  | .error _ => bench

/-- A latched read, a data phase that is turned away, the card clock stopped and programmed anew,
and a command that is refused the lock. -/
def calmAttempts : List Attempt :=
  [⟨.sendCommand 17 5, true⟩, ⟨.readData 0 [], true⟩, ⟨.setClock 0, true⟩,
    ⟨.setClock 400000, true⟩, ⟨.sendCommand 9 0, false⟩]

theorem cardStart_responsive : cardStart.shared.device.Responsive where
  plain := by decide +kernel
  untimed := by
    have hnone : cardStart.shared.device.timers.isEmpty = true := by decide +kernel
    rw [List.isEmpty_iff] at hnone
    rw [hnone]
    simp

namespace Host

/-- The identification of the card is copied from its answer, and then its first word in a short
format, around operations that the card does not notice. -/
theorem identification_stands :
    ∃ before after again last,
      hastyHost.After (fun call => hastyHost.performAll [call]) 1 cardStart
          [⟨.sendCommand 2 0, true⟩] before
      ∧ (hastyHost.perform (.receiveResponse .r2 [0, 0, 0, 0, 7])).run
          (fun call => hastyHost.performAll [call]) 1 before =
            .ok (.response (.ok ()) [0x12345678, 0x9ABCDEF0, 0x0F1E2D3C, 0x4B5A6978, 7], after)
      ∧ hastyHost.After (fun call => hastyHost.performAll [call]) 1 after calmAttempts again
      ∧ again.shared.device.commands = after.shared.device.commands
      ∧ (hastyHost.perform (.receiveResponse .r1 [0, 9])).run
          (fun call => hastyHost.performAll [call]) 1 again =
            .ok (.response (.ok ()) [0x12345678, 9], last)
      ∧ ∃ executed, last.shared.device.commands = executed ++ cardStart.shared.device.commands
        ∧ [0x12345678, 0x9ABCDEF0, 0x0F1E2D3C, 0x4B5A6978, 7] =
            (cardStart.shared.device.standing executed).take 4 ++ [7]
        ∧ [0x12345678, 9] = (cardStart.shared.device.standing executed).take 1 ++ [9] := by
  have hran : ((hastyHost.reached? (fun call => hastyHost.performAll [call]) 1 cardStart
      [⟨.sendCommand 2 0, true⟩]).bind fun before =>
        (copied? ((hastyHost.perform (.receiveResponse .r2 [0, 0, 0, 0, 7])).run
          (fun call => hastyHost.performAll [call]) 1 before)).bind fun copied =>
            (hastyHost.reached? (fun call => hastyHost.performAll [call]) 1 copied.2
              calmAttempts).bind fun again =>
                (copied? ((hastyHost.perform (.receiveResponse .r1 [0, 9])).run
                  (fun call => hastyHost.performAll [call]) 1 again)).map fun short =>
                    (copied.1, short.1, decide (again.shared.device.commands =
                      copied.2.shared.device.commands))) =
      some ([0x12345678, 0x9ABCDEF0, 0x0F1E2D3C, 0x4B5A6978, 7], [0x12345678, 9], true) := by
    decide +kernel
  obtain ⟨before, hbefore, hran⟩ := Option.bind_eq_some_iff.mp hran
  obtain ⟨⟨copied, after⟩, hcopied, hran⟩ := Option.bind_eq_some_iff.mp hran
  obtain ⟨again, hagain, hran⟩ := Option.bind_eq_some_iff.mp hran
  obtain ⟨⟨short, last⟩, hshort, hwords⟩ := Option.map_eq_some_iff.mp hran
  obtain ⟨rfl, hrest⟩ := Prod.mk.inj hwords
  obtain ⟨rfl, hsame⟩ := Prod.mk.inj hrest
  have hearlier := after_of_reached? hbefore
  have hbetween := after_of_reached? hagain
  have hnone := of_decide_eq_true hsame
  have hstands := (hastyHost.responses_stable rfl (fun call => [call]) 1
    cardStart_responsive).1 hearlier (run_of_copied? hcopied) hbetween hnone (run_of_copied? hshort)
  exact ⟨before, after, again, last, hearlier, run_of_copied? hcopied, hbetween, hnone,
    run_of_copied? hshort, hstands⟩

end Host

end CardHost
