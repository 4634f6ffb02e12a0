import CardHost.Proofs.Clearing
import CardHost.Proofs.Counts
import CardHost.Proofs.Trace

/-!
# Stale status

What an earlier command left pending in the raw interrupt status must not complete or fail a later
one.  On a machine with pending bits (`Machine.raising`) the status of a window is a word of its
own: writing ones clears bits, and the rest of the hardware raises them as it goes on but does not
look at them.  `System.pend` puts other bits in their place and changes nothing else.

A program that clears the status before it reads it cannot tell the difference.  Until it clears the
status each request is answered alike (`System.answer_pend`), and afterwards the two systems are the
same (`System.answer_clear`); by induction its runs and its traces agree, interruptions included.
All operations but a dump are such programs, so stale status decides nothing
(`Host.stale_status_decides_nothing`).
-/

namespace CardHost

/-! ## A machine with pending bits -/

/-- The state of some hardware and the bits pending beside it. -/
structure Pended (State : Type) where
  rest : State
  pending : UInt32

namespace Shared

/-- What the rest of the hardware sees. -/
def rest (shared : Shared (Pended State)) : Shared State :=
  ⟨shared.device.rest, shared.memory⟩

/-- The bits pending. -/
def pending (shared : Shared (Pended State)) : UInt32 :=
  shared.device.pending

/-- The rest of the hardware with bits pending. -/
def pend (shared : Shared State) (pending : UInt32) : Shared (Pended State) :=
  ⟨⟨shared.device, pending⟩, shared.memory⟩

end Shared

/-- The machine with a raw interrupt status of pending bits in a window.  Whatever it does may raise
bits; those written as ones are cleared before. -/
def Machine.raising (machine : Machine ι) (window : Window)
    (raises : Shared machine.State → UInt32 → UInt32) : Machine ι where
  State := Pended machine.State
  read w offset shared :=
    match machine.read w offset shared.rest with
    | (value, after) =>
      let pending := raises after shared.pending
      (if w = window ∧ offset = Register.rawInterrupt.offset then pending else value,
        after.pend pending)
  write w offset value shared :=
    match machine.write w offset value shared.rest with
    | (interruption, after) =>
      let kept :=
        if w = window ∧ offset = Register.rawInterrupt.offset then without shared.pending value
        else shared.pending
      (interruption, after.pend (raises after kept))
  patience w offset shared := machine.patience w offset shared.rest
  stall services microseconds shared :=
    match machine.stall services microseconds shared.rest with
    | (status, after) => (status, after.pend (raises after shared.pending))
  allocate services pages shared :=
    match machine.allocate services pages shared.rest with
    | (grant, after) => (grant, after.pend (raises after shared.pending))
  free services address pages shared :=
    match machine.free services address pages shared.rest with
    | (status, after) => (status, after.pend (raises after shared.pending))

section Systems

variable {machine : Machine ι} {window : Window} {raises : Shared machine.State → UInt32 → UInt32}

/-- The system with other bits pending. -/
def System.pend (system : System (machine.raising window raises) σ ρ) (bits : UInt32) :
    System (machine.raising window raises) σ ρ :=
  { system with shared := system.shared.rest.pend bits }

/-- A request other than a read of the status is answered alike, whatever is pending. -/
theorem System.answer_pend (system : System (machine.raising window raises) σ ρ)
    {request : Request σ} (h : request ≠ .read window Register.rawInterrupt.offset)
    (bits : UInt32) :
    ∃ left, (system.pend bits).answer request =
      ((system.answer request).1, (system.answer request).2.1,
        (system.answer request).2.2.pend left) := by
  obtain ⟨⟨⟨rest, pending⟩, memory⟩, level, cell, verbosity, journal⟩ := system
  cases request with
  | read w offset =>
      have hother : ¬ (w = window ∧ offset = Register.rawInterrupt.offset) := by
        rintro ⟨rfl, rfl⟩
        exact h rfl
      refine ⟨raises (machine.read w offset ⟨rest, memory⟩).2 bits, ?_⟩
      simp [answer, pend, Machine.raising, hother, Shared.rest, Shared.pend, Shared.pending]
  | patience => exact ⟨bits, rfl⟩
  | _ => exact ⟨_, rfl⟩

/-- Once all bits are written as ones, it does not matter which were pending. -/
theorem System.answer_clear (system : System (machine.raising window raises) σ ρ) (bits : UInt32) :
    (system.pend bits).answer (.write window Register.rawInterrupt.offset clearAll : Request σ) =
      system.answer (.write window Register.rawInterrupt.offset clearAll) := by
  obtain ⟨⟨⟨rest, pending⟩, memory⟩, level, cell, verbosity, journal⟩ := system
  have hkept : without bits clearAll = without pending clearAll :=
    (without_all bits).trans (without_all pending).symm
  simp [answer, pend, Machine.raising, Shared.rest, Shared.pend, Shared.pending, hkept]

/-! ## Runs that differ in pending bits -/

/-- The moment without the bits that are pending in it. -/
def Moment.settled (moment : Moment (machine.raising window raises) σ ρ) :
    Moment (machine.raising window raises) σ ρ :=
  ⟨moment.request, moment.system.pend 0⟩

/-- Interruptions that do not depend on what is pending. -/
def Unswayed (serve : ι → System (machine.raising window raises) σ ρ →
    Except Halt (System (machine.raising window raises) σ ρ)) : Prop :=
  ∀ call system bits, ∃ left, serve call (system.pend bits) = (serve call system).map (·.pend left)

/-- What a program that clears the status before it reads it may ask while bits are stale: it
clears them, or it is answered alike and they stay so. -/
theorem Prog.Heeds.of_stale {post : α → Stage → Prop} {request : Request σ}
    {next : request.Reply → Prog σ α}
    (h : (Prog.ask request next).Heeds (clearing window) post Stage.stale) :
    request = .write window Register.rawInterrupt.offset clearAll
      ∨ request ≠ .read window Register.rawInterrupt.offset
        ∧ ∀ reply, (next reply).Heeds (clearing window) post Stage.stale := by
  obtain ⟨hallowed, hnext⟩ := h
  rcases Stage.next_cases window .stale request with hsame | ⟨-, -, hclear⟩ | ⟨hcleared, -⟩
  · right
    constructor
    · intro hread
      exact Stage.noConfusion (hallowed hread)
    · intro reply
      have hreply : (next reply).Heeds (clearing window) post
        (Stage.next window .stale request) := hnext reply
      rwa [hsame] at hreply
  · exact .inl hclear
  · cases hcleared

/-- An outcome differs from itself in nothing that is pending. -/
theorem ended_pend (outcome : Except Halt (α × System (machine.raising window raises) σ ρ)) :
    ∃ left, outcome = outcome.map fun ended => (ended.1, ended.2.pend left) := by
  cases outcome with
  | ok ended => exact ⟨ended.2.shared.pending, rfl⟩
  | error halt => exact ⟨0, rfl⟩

namespace Prog

/-- A program that clears the status before it reads it ends alike, whatever was pending. -/
theorem Heeds.runWith_pend {serve : ι → System (machine.raising window raises) σ ρ →
      Except Halt (System (machine.raising window raises) σ ρ)} (hserve : Unswayed serve)
    {post : α → Stage → Prop} {program : Prog σ α}
    (h : program.Heeds (clearing window) post Stage.stale)
    (system : System (machine.raising window raises) σ ρ) (bits : UInt32) :
    ∃ left, program.runWith serve (system.pend bits) =
      (program.runWith serve system).map fun ended => (ended.1, ended.2.pend left) := by
  induction program generalizing system bits with
  | done value => exact ⟨bits, rfl⟩
  | fault => exact ⟨bits, rfl⟩
  | stuck => exact ⟨bits, rfl⟩
  | ask request next ih =>
      rcases h.of_stale with rfl | ⟨hread, hnext⟩
      · have hsame : (ask _ next).runWith serve (system.pend bits) =
            (ask _ next).runWith serve system := by
          rw [runWith, runWith, system.answer_clear bits]
        rw [hsame]
        exact ended_pend _
      · obtain ⟨left, hanswer⟩ := system.answer_pend hread bits
        unfold runWith
        rw [hanswer]
        rcases system.answer request with ⟨reply, _ | call, after⟩
        · exact ih reply (hnext reply) after left
        · obtain ⟨last, hserved⟩ := hserve call after left
          dsimp only
          rw [hserved]
          cases serve call after with
          | ok served => exact ih reply (hnext reply) served last
          | error halt => exact ⟨last, rfl⟩

/-- Its requests are the same, on systems that are the same but for the bits pending. -/
theorem Heeds.traceWith_pend {serve : ι → System (machine.raising window raises) σ ρ →
      Except Halt (System (machine.raising window raises) σ ρ)} (hserve : Unswayed serve)
    {traced : ι → System (machine.raising window raises) σ ρ →
      List (Moment (machine.raising window raises) σ ρ)}
    (htraced : ∀ call system bits,
      (traced call (system.pend bits)).map Moment.settled =
        (traced call system).map Moment.settled)
    {post : α → Stage → Prop} {program : Prog σ α}
    (h : program.Heeds (clearing window) post Stage.stale)
    (system : System (machine.raising window raises) σ ρ) (bits : UInt32) :
    (program.traceWith serve traced (system.pend bits)).map Moment.settled =
      (program.traceWith serve traced system).map Moment.settled := by
  induction program generalizing system bits with
  | done value => rfl
  | fault => rfl
  | stuck => rfl
  | ask request next ih =>
      have hfirst : Moment.settled ⟨request, system.pend bits⟩ = Moment.settled ⟨request, system⟩ :=
        rfl
      unfold traceWith
      rw [List.map_cons, List.map_cons, hfirst]
      congr 1
      rcases h.of_stale with rfl | ⟨hread, hnext⟩
      · rw [system.answer_clear bits]
      · obtain ⟨left, hanswer⟩ := system.answer_pend hread bits
        rw [hanswer]
        rcases system.answer request with ⟨reply, _ | call, after⟩
        · exact ih reply (hnext reply) after left
        · obtain ⟨last, hserved⟩ := hserve call after left
          dsimp only
          rw [List.map_append, List.map_append, htraced, hserved]
          cases serve call after with
          | ok served => exact congrArg _ (ih reply (hnext reply) served last)
          | error halt => rfl

variable {handler : ι → Prog σ ρ}

/-- Interruptions by programs that clear the status before they read it. -/
theorem serveAt_unswayed
    (hhandler : ∀ call, (handler call).Heeds (clearing window) (fun _ _ => True) Stage.stale)
    (depth : Nat) :
    Unswayed (serveAt handler depth : ι → System (machine.raising window raises) σ ρ → _) := by
  induction depth with
  | zero => exact fun call system bits => ⟨bits, rfl⟩
  | succ depth ih =>
      intro call system bits
      obtain ⟨left, hran⟩ := (hhandler call).runWith_pend ih (system.note .entered) bits
      have hnoted : (system.pend bits).note .entered = (system.note .entered).pend bits := rfl
      refine ⟨left, ?_⟩
      simp only [serveAt]
      rw [hnoted, hran]
      cases (handler call).runWith (serveAt handler depth) (system.note .entered) with
      | ok ended => rfl
      | error halt => rfl

theorem traceAt_settled
    (hhandler : ∀ call, (handler call).Heeds (clearing window) (fun _ _ => True) Stage.stale)
    (depth : Nat) (call : ι) (system : System (machine.raising window raises) σ ρ)
    (bits : UInt32) :
    (traceAt handler depth call (system.pend bits)).map Moment.settled =
      (traceAt handler depth call system).map Moment.settled := by
  induction depth generalizing call system bits with
  | zero => rfl
  | succ depth ih =>
      exact (hhandler call).traceWith_pend (serveAt_unswayed hhandler depth) ih
        (system.note .entered) bits

end Prog

end Systems

/-! ## Stale status -/

/-- What is pending in the raw interrupt status before operations decides nothing: but for the bits
pending, every sequence of operations without a dump asks the same of the same systems and ends the
same.  On any machine such an operation reads the status only behind a command that it posted after
clearing all bits. -/
theorem Host.stale_status_decides_nothing (host : Host) :
    (∀ {ι : Type} (machine : Machine ι) (raises : Shared machine.State → UInt32 → UInt32)
      (calls : ι → List Call) (depth : Nat) (sequence : List Call)
      (system : System (machine.raising host.window raises) HostState (List Answer))
      (stale : UInt32), .dump ∉ sequence → (∀ call, .dump ∉ calls call) →
        (∃ left,
          (host.performAll sequence).run (fun call => host.performAll (calls call)) depth
              (system.pend stale) =
            ((host.performAll sequence).run (fun call => host.performAll (calls call)) depth
              system).map fun ended => (ended.1, ended.2.pend left))
        ∧ ((host.performAll sequence).trace (fun call => host.performAll (calls call)) depth
            (system.pend stale)).map Moment.settled =
          ((host.performAll sequence).trace (fun call => host.performAll (calls call)) depth
            system).map Moment.settled)
      ∧ ∀ {ι ρ : Type} {machine : Machine ι} (handler : ι → Prog HostState ρ) (depth : Nat)
        (system : System machine HostState ρ) (call : Call)
        (front back : List (Moment machine HostState ρ)) (moment : Moment machine HostState ρ),
        call ≠ .dump →
          (host.perform call).moments handler depth system = front ++ moment :: back →
          moment.request = .read host.window Register.rawInterrupt.offset →
            ∃ early between value late, front.map Moment.request =
              early ++ .write host.window Register.rawInterrupt.offset clearAll ::
                (between ++ .write host.window Register.command.offset value :: late) := by
  constructor
  · intro ι machine raises calls depth sequence system stale hsequence hcalls
    have hhandler (call : ι) : (host.performAll (calls call)).Heeds (clearing host.window)
        (fun _ _ => True) Stage.stale := host.performAll_clears (hcalls call)
    have hunswayed : Unswayed (Prog.serveAt (fun call => host.performAll (calls call)) depth :
        ι → System (machine.raising host.window raises) HostState (List Answer) → _) :=
      Prog.serveAt_unswayed hhandler depth
    exact ⟨(host.performAll_clears hsequence).runWith_pend hunswayed system stale,
      (host.performAll_clears hsequence).traceWith_pend hunswayed
        (Prog.traceAt_settled hhandler depth) system stale⟩
  · intro ι ρ machine handler depth system call front back moment hdump hmoments hread
    exact host.status_read_behind_command hdump hmoments hread

/-- A platform on which every command is done at once, its pending bits in their own register. -/
def pendingStart : System (agreeableMachine.raising roomyHost.window fun _ pending =>
    pending ||| RawInterrupt.commandDone) HostState (List Answer) where
  shared := ⟨⟨(), 0⟩, .blank⟩
  level := 4
  cell := some ⟨⟨0x100000000, 0x100000, 0x2000⟩, none⟩
  verbosity := none
  journal := []

/-- There a command succeeds with every error left pending by an earlier one, and a moment that
reads the status is behind clearing all of it and a command. -/
theorem command_over_stale_errors :
    (∃ after, (roomyHost.performAll [.sendCommand 13 0]).run (fun _ => roomyHost.performAll []) 1
        (pendingStart.pend RawInterrupt.errors) = .ok ([.outcome (.ok ())], after))
      ∧ ∃ front moment back early between value late,
        (roomyHost.perform (.sendCommand 13 0)).moments (fun _ => roomyHost.performAll []) 1
            pendingStart = front ++ moment :: back
          ∧ moment.request = .read roomyHost.window Register.rawInterrupt.offset
          ∧ front.map Moment.request =
            early ++ .write roomyHost.window Register.rawInterrupt.offset clearAll ::
              (between ++ .write roomyHost.window Register.command.offset value :: late) := by
  constructor
  · obtain ⟨⟨left, hrun⟩, -⟩ := roomyHost.stale_status_decides_nothing.1 agreeableMachine _
      (fun _ => []) 1 [.sendCommand 13 0] pendingStart RawInterrupt.errors (by simp) (by simp)
    rw [hrun]
    exact ⟨_, rfl⟩
  · have hlength : 14 < ((roomyHost.perform (.sendCommand 13 0)).moments
        (fun _ => roomyHost.performAll []) 1 pendingStart).length := by
      decide +kernel
    have hread : (((roomyHost.perform (.sendCommand 13 0)).moments
        (fun _ => roomyHost.performAll []) 1 pendingStart).get ⟨14, hlength⟩).request =
          .read roomyHost.window Register.rawInterrupt.offset := rfl
    obtain ⟨early, between, value, late, horder⟩ :=
      roomyHost.stale_status_decides_nothing.2 _ _ _ (.sendCommand 13 0) _ _ _ nofun
        (split_at hlength) hread
    exact ⟨_, _, _, early, between, value, late, split_at hlength, hread, horder⟩

end CardHost
