import CardHost.Lock.Bracket
import CardHost.Proofs.Courses

/-!
# Programs that follow a script

`Prog.Takes` reads the accesses of a program off its tree of requests, together with the value that
it ends with, and `Prog.Takes.run` says the same of its runs.  Where interruptions return
(`Prog.Served`), no write halts.

An action that follows a script takes the courses of it and no others (`Action.Follows`).  Actions
one after the other follow their scripts one after the other, so the script of an operation is found
along its text.  What an operation checks before it touches a register does not show in its
accesses; an action that may fail there, and else follows a script, visits it (`Action.Visits`).
-/

namespace CardHost

/-! ## Accesses of programs -/

/-- A request that may be interrupted, and so halt. -/
def Request.IsWrite : Request σ → Prop
  | .write .. => True
  | _ => False

/-- A request that accesses no register. -/
def Request.OffRegisters : Request σ → Prop
  | .read .. => False
  | .write .. => False
  | _ => True

/-- The accesses of a program to the registers of a window meet a condition, together with the value
it ends with, whatever its requests are answered.  There is no value where it halts; `halts` says
whether a write may. -/
def Prog.Takes (window : Window) (halts : Prop) :
    Prog σ α → (List Access → Option α → Prop) → Prop
  | .done value, course => course [] (some value)
  | .fault, course => course [] none
  | .stuck, course => course [] none
  | .ask request next, course =>
    (∀ reply, halts → request.IsWrite →
        course (request.access? window Register.all reply).toList none)
      ∧ ∀ reply, (next reply).Takes window halts fun later ended =>
        course ((request.access? window Register.all reply).toList ++ later) ended

variable {window : Window} {halts : Prop}

theorem Request.OffRegisters.access? {request : Request σ} (h : request.OffRegisters)
    (reply : request.Reply) : request.access? window Register.all reply = none := by
  cases request with
  | read => exact h.elim
  | write => exact h.elim
  | _ => rfl

theorem Request.isWrite_of_access? {request : Request σ} {reply : request.Reply}
    {register : Register} {value : UInt32}
    (h : request.access? window Register.all reply = some (.wrote register value)) :
    request.IsWrite := by
  cases request with
  | write => trivial
  | read w offset => simp [access?] at h
  | _ => cases h

theorem Request.OffRegisters.not_isWrite {request : Request σ} (h : request.OffRegisters) :
    ¬ request.IsWrite := by
  cases request with
  | write => exact h.elim
  | _ => exact id

theorem Request.offRegisters_of_not_inner {request : Request σ} (h : ¬ request.Inner) :
    request.OffRegisters := by
  cases request with
  | read => exact (h trivial).elim
  | write => exact (h trivial).elim
  | _ => trivial

theorem Request.OnMemory.offRegisters {request : Request σ} (h : request.OnMemory) :
    request.OffRegisters := by
  cases request with
  | read => exact h.elim
  | write => exact h.elim
  | _ => trivial

namespace Prog

variable {course goal : List Access → Option α → Prop}

theorem Takes.mono {program : Prog σ α} (h : program.Takes window halts course)
    (reaches : ∀ taken ended, course taken ended → goal taken ended) :
    program.Takes window halts goal := by
  induction program generalizing course goal with
  | done value => exact reaches _ _ h
  | fault => exact reaches _ _ h
  | stuck => exact reaches _ _ h
  | ask request next ih =>
      constructor
      · intro reply halting hwrite
        exact reaches _ _ (h.1 reply halting hwrite)
      · intro reply
        exact ih reply (h.2 reply) fun later ended => reaches _ ended

/-- A sequence goes on with the accesses of its second part, or halts in the first. -/
theorem Takes.bind {program : Prog σ α} {next : α → Prog σ β}
    {goal : List Access → Option β → Prop} (h : program.Takes window halts course)
    (halted : ∀ taken, course taken none → goal taken none)
    (rest : ∀ taken value, course taken (some value) →
      (next value).Takes window halts fun later ended => goal (taken ++ later) ended) :
    (program.bind next).Takes window halts goal := by
  induction program generalizing course goal with
  | done value => exact rest [] value h
  | fault => exact halted [] h
  | stuck => exact halted [] h
  | ask request reply ih =>
      constructor
      · intro answer halting hwrite
        exact halted _ (h.1 answer halting hwrite)
      · intro answer
        refine ih answer (h.2 answer) (fun taken => halted _) ?_
        intro taken value hcourse
        refine (rest _ value hcourse).mono ?_
        intro later ended hgoal
        rwa [List.append_assoc] at hgoal

/-- What is made of the value at the end does not show in the accesses. -/
theorem Takes.shape {program : Prog σ α} {shape : α → β} {course : List Access → Option β → Prop}
    (h : program.Takes window halts fun taken ended => course taken (ended.map shape)) :
    (program.bind fun value => .done (shape value)).Takes window halts course := by
  refine Takes.bind h (fun _ => id) ?_
  intro taken value hcourse
  rw [Takes, List.append_nil]
  exact hcourse

/-- A program that accesses no register takes no accesses. -/
theorem Asks.takes {program : Prog σ α} (h : program.Asks Request.OffRegisters) :
    program.Takes window halts fun taken _ => taken = [] := by
  induction program with
  | done value => rfl
  | fault => rfl
  | stuck => rfl
  | ask request next ih =>
      constructor
      · intro reply _ hwrite
        exact (h.1.not_isWrite hwrite).elim
      · intro reply
        rw [h.1.access?]
        exact ih reply (h.2 reply)

/-- A program that accesses no register and does not halt. -/
def Passes (window : Window) (halts : Prop) (post : α → Prop) (program : Prog σ α) : Prop :=
  program.Takes window halts fun taken ended =>
    taken = [] ∧ ∃ value, ended = some value ∧ post value

theorem passes_request {request : Request σ} (h : request.OffRegisters) :
    (Prog.request request).Passes window halts fun _ => True := by
  constructor
  · intro reply _ hwrite
    exact (h.not_isWrite hwrite).elim
  · intro reply
    rw [h.access?]
    exact ⟨rfl, reply, rfl, trivial⟩

/-- What passes leaves the accesses to the rest of a sequence. -/
theorem Passes.bind {program : Prog σ α} {next : α → Prog σ β} {post : α → Prop}
    {course : List Access → Option β → Prop} (h : program.Passes window halts post)
    (rest : ∀ value, post value → (next value).Takes window halts course) :
    (program.bind next).Takes window halts course := by
  refine Takes.bind h ?_ ?_
  · rintro taken ⟨-, value, hvalue, -⟩
    cases hvalue
  · rintro taken value ⟨rfl, _, hvalue, hpost⟩
    cases hvalue
    exact rest value hpost

theorem passes_log (message : Message) :
    (Prog.log message : Prog σ Unit).Passes window halts fun _ => True :=
  passes_request trivial

end Prog

theorem Services.passes_stall (services : Services) (microseconds : Nat) :
    (services.stall microseconds : Prog σ Unit).Passes window halts fun _ => True := by
  have hstall : (Prog.request (.stall services microseconds) : Prog σ Status).Passes window halts
      fun _ => True := Prog.passes_request trivial
  refine hstall.bind fun status _ => ?_
  cases services with
  | supplied => exact ⟨rfl, (), rfl, trivial⟩
  | firmware =>
      dsimp only
      split
      · exact Prog.passes_log _
      · exact ⟨rfl, (), rfl, trivial⟩

/-! ### Registers -/

namespace Window

variable (window)

theorem takes_read (register : Register) :
    (window.read register.offset : Prog σ UInt32).Takes window halts fun taken ended =>
      (¬ window.Reaches register ∧ taken = [] ∧ ended = none)
        ∨ ∃ value, window.Reaches register ∧ taken = [.read register value]
          ∧ ended = some value := by
  unfold read
  split
  · rename_i hreached
    constructor
    · intro reply _ hwrite
      exact hwrite.elim
    · intro value
      rw [Request.access?_read (Register.mem_all register)]
      exact .inr ⟨value, hreached, rfl, rfl⟩
  · rename_i hunreached
    exact .inl ⟨hunreached, rfl, rfl⟩

/-- A sequence that starts with a read goes on with the value, where the register has an address. -/
theorem takes_read_bind {register : Register} {next : UInt32 → Prog σ α}
    {course : List Access → Option α → Prop}
    (unreached : ¬ window.Reaches register → course [] none)
    (rest : ∀ value, window.Reaches register → (next value).Takes window halts fun later ended =>
      course (.read register value :: later) ended) :
    ((window.read register.offset).bind next).Takes window halts course := by
  refine (window.takes_read register).bind ?_ ?_
  · rintro taken (⟨hunreached, rfl, -⟩ | ⟨value, -, -, hvalue⟩)
    · exact unreached hunreached
    · cases hvalue
  · rintro taken value (⟨-, -, hnone⟩ | ⟨_, hreached, rfl, hvalue⟩)
    · cases hnone
    · cases hvalue
      exact rest value hreached

theorem takes_write (register : Register) (value : UInt32) :
    (window.write register.offset value : Prog σ Unit).Takes window halts fun taken ended =>
      (Step.write register value).Course window halts taken (ended.map .ok) := by
  refine (Prog.passes_log _).bind fun _ _ => ?_
  split
  · constructor
    · intro reply halting _
      rw [Request.access?_write (Register.mem_all register)]
      exact .cut halting
    · intro reply
      rw [Request.access?_write (Register.mem_all register)]
      exact .wrote
  · rename_i hunreached
    exact .unreached hunreached

/-- A read and a write of what becomes of the value. -/
theorem takes_change (register : Register) (update : UInt32 → UInt32) :
    ((window.read register.offset).bind fun value =>
      window.write register.offset (update value) : Prog σ Unit).Takes window halts
        fun taken ended =>
          (Step.change register update).Course window halts taken (ended.map .ok) := by
  refine window.takes_read_bind (fun h => .unreached h) fun old hreached => ?_
  refine (window.takes_write register (update old)).mono ?_
  intro later ended hlater
  generalize ended.map (Except.ok : Unit → Verdict) = finished at hlater
  cases hlater with
  | unreached hunreached => exact (hunreached hreached).elim
  | wrote => exact .changed old
  | cut halting => exact .cutChange old halting

/-- How a wait judges what it reads. -/
def judge (ready : UInt32 → Bool) (value : UInt32) : Option Verdict :=
  if ready value then some (.ok ()) else none

/-- The verdict of a wait. -/
def waited (late : HostError) (shown : Bool) : Verdict :=
  if shown then .ok () else .error late

variable {window} {ready : UInt32 → Bool} {late : HostError}

/-- One more sample of a wait. -/
theorem takes_again {register : Register} {limit : Option Nat} {next : Prog σ Bool}
    (h : next.Takes window halts fun taken ended =>
      (Step.sample register (judge ready) limit late).Course window halts taken
        (ended.map (waited late))) :
    ((window.read register.offset).bind fun value =>
      if ready value then .done true else next).Takes window halts fun taken ended =>
        (Step.sample register (judge ready) (limit.map (· + 1)) late).Course window halts taken
          (ended.map (waited late)) := by
  refine window.takes_read_bind (fun h => .unreached h) fun value hreached => ?_
  by_cases hready : ready value = true
  · rw [if_pos hready]
    have hwithin : ∀ bound, limit.map (· + 1) = some bound → 0 < bound := by
      intro bound hbound
      obtain ⟨before, -, rfl⟩ := Option.map_eq_some_iff.mp hbound
      exact Nat.succ_pos before
    exact .decided [] value (.ok ()) (by simp) hwithin (if_pos hready)
  · rw [if_neg hready]
    exact h.mono fun later ended hlater => hlater.again hreached (if_neg hready)

theorem takes_sample (services : Services) (register : Register) (bound : Nat) :
    (window.sample services register.offset ready bound : Prog σ Bool).Takes window halts
      fun taken ended => (Step.sample register (judge ready) (some (bound + 1)) late).Course window
        halts taken (ended.map (waited late)) := by
  induction bound with
  | zero =>
      have hlate : (Prog.done false : Prog σ Bool).Takes window halts fun taken ended =>
          (Step.sample register (judge ready) (some 0) late).Course window halts taken
            (ended.map (waited late)) := .late [] (by simp) rfl
      have hsample : (window.sample services register.offset ready 0 : Prog σ Bool) =
          (window.read register.offset).bind fun value =>
            if ready value then .done true else .done false := by
        unfold sample
        congr 1
        funext value
        cases ready value <;> rfl
      rw [hsample]
      exact takes_again hlate
  | succ bound ih =>
      exact takes_again ((services.passes_stall 1).bind fun _ _ => ih)

theorem takes_spin (register : Register) (patience : Nat) :
    (window.spin register.offset ready patience : Prog σ Bool).Takes window halts
      fun taken ended => (Step.sample register (judge ready) none late).Course window halts taken
        (ended.map (waited late)) := by
  induction patience with
  | zero => exact .stuck [] (by simp) rfl
  | succ patience ih => exact takes_again ih

theorem takes_awaits (services : Services) (register : Register) (bound : Option UInt32) :
    (window.awaits services register.offset ready bound : Prog σ Bool).Takes window halts
      fun taken ended => (Step.sample register (judge ready) (bound.map (·.toNat + 1)) late).Course
        window halts taken (ended.map (waited late)) := by
  cases bound with
  | some bound => exact takes_sample services register bound.toNat
  | none =>
      have hpatience : (Prog.request (.patience window register.offset) : Prog σ Nat).Passes window
          halts fun _ => True := Prog.passes_request trivial
      exact hpatience.bind fun patience _ => takes_spin register patience

end Window

/-! ## Actions -/

/-- An action takes the courses of a script, and if it succeeds its value satisfies `post`. -/
def Action.Follows (window : Window) (halts : Prop) (script : Script) (post : α → Prop)
    (action : Action σ α) : Prop :=
  action.run.Takes window halts fun taken ended =>
    script.Course window halts taken (ended.map verdict)
      ∧ ∀ value, ended = some (.ok value) → post value

namespace Action

variable {script : Script} {post : α → Prop}

theorem verdict_error (error : HostError) :
    (some (.error error) : Option (Except HostError α)).map verdict ≠ some (.ok ()) := by
  intro h
  cases h

/-- Actions one after the other follow their scripts one after the other. -/
theorem Follows.bind {action : Action σ α} {next : α → Action σ β} {further : Script}
    {goal : β → Prop} (first : action.Follows window halts script post)
    (rest : ∀ value, post value → (next value).Follows window halts further goal) :
    (action >>= next).Follows window halts (script ++ further) goal := by
  unfold Follows
  rw [run_bind]
  refine Prog.Takes.bind first ?_ ?_
  · rintro taken ⟨hcourse, -⟩
    exact ⟨hcourse.append_unpassed (by simp), fun _ h => by cases h⟩
  · rintro taken (error | value) ⟨hcourse, hpost⟩
    · refine ⟨?_, fun _ h => by cases h⟩
      rw [List.append_nil]
      exact hcourse.append_unpassed (verdict_error error)
    · refine (rest value (hpost value rfl)).mono ?_
      rintro later ended ⟨hlater, hgoal⟩
      exact ⟨hcourse.append hlater, hgoal⟩

/-- An action that is one step comes first. -/
theorem Follows.step {action : Action σ α} {next : α → Action σ β} {step : Step} {further : Script}
    {goal : β → Prop} (first : action.Follows window halts [step] post)
    (rest : ∀ value, post value → (next value).Follows window halts further goal) :
    (action >>= next).Follows window halts (step :: further) goal :=
  first.bind rest

/-- An action that is no step leaves the script to the rest. -/
theorem Follows.pass {action : Action σ α} {next : α → Action σ β} {further : Script}
    {goal : β → Prop} (first : action.Follows window halts [] post)
    (rest : ∀ value, post value → (next value).Follows window halts further goal) :
    (action >>= next).Follows window halts further goal :=
  first.bind rest

/-- Nor does it go on with a script at the end. -/
theorem Follows.finish {action : Action σ α} {next : α → Action σ β} {goal : β → Prop}
    (first : action.Follows window halts script post)
    (rest : ∀ value, post value → (next value).Follows window halts [] goal) :
    (action >>= next).Follows window halts script goal := by
  have hboth := first.bind rest
  rwa [List.append_nil] at hboth

theorem follows_pure (value : α) (h : post value) :
    (pure value : Action σ α).Follows window halts [] post :=
  ⟨.done, fun _ hvalue => by cases hvalue; exact h⟩

/-- A program that accesses no register is no step. -/
theorem follows_passing {program : Prog σ α} (h : program.Passes window halts post) :
    program.lift.Follows window halts [] post := by
  unfold Follows
  rw [run_lift]
  exact h.bind fun value hpost => ⟨.done, fun _ hvalue => by cases hvalue; exact hpost⟩

/-- A program that takes the courses of a step is that step. -/
theorem follows_step {step : Step} {program : Prog σ α}
    (h : program.Takes window halts fun taken ended =>
      step.Course window halts taken (ended.map fun _ => .ok ())) :
    program.lift.Follows window halts [step] fun _ => True := by
  unfold Follows
  rw [run_lift]
  refine Prog.Takes.bind h ?_ ?_
  · intro taken hcourse
    exact ⟨.of_step hcourse, fun _ _ => trivial⟩
  · intro taken value hcourse
    refine ⟨?_, fun _ _ => trivial⟩
    rw [List.append_nil]
    exact .of_step hcourse

/-- A program that takes the courses of a step by its value, and then only says how that ended, is
that step. -/
theorem follows_judged {step : Step} {program : Prog σ α} {next : α → Action σ Unit}
    {judged : α → Verdict}
    (h : program.Takes window halts fun taken ended =>
      step.Course window halts taken (ended.map judged))
    (ends : ∀ value, (next value).run.Passes window halts fun outcome =>
      verdict outcome = judged value) :
    (program.lift >>= next).Follows window halts [step] fun _ => True := by
  unfold Follows
  rw [run_lift_bind]
  refine Prog.Takes.bind h ?_ ?_
  · intro taken hcourse
    exact ⟨.of_step hcourse, fun _ _ => trivial⟩
  · intro taken value hcourse
    refine (ends value).mono ?_
    rintro later ended ⟨rfl, outcome, rfl, hjudged⟩
    refine ⟨?_, fun _ _ => trivial⟩
    rw [List.append_nil, Option.map_some, hjudged]
    exact .of_step hcourse

/-- An action that fails before its script or goes along it. -/
def Visits (window : Window) (halts : Prop) (script : Script) (action : Action σ α) : Prop :=
  action.run.Takes window halts fun taken ended =>
    script.Visit window halts taken (ended.map verdict)

theorem Follows.visits {action : Action σ α} (h : action.Follows window halts script post) :
    action.Visits window halts script :=
  h.mono fun _ _ hcourse => .inr hcourse.1

/-- What is checked before a script does not show in its accesses. -/
theorem Visits.after {action : Action σ α} {next : α → Action σ β}
    (first : action.Asks Request.OffRegisters)
    (rest : ∀ value, (next value).Visits window halts script) :
    (action >>= next).Visits window halts script := by
  unfold Visits
  rw [run_bind]
  refine Prog.Takes.bind (Prog.Asks.takes first) ?_ ?_
  · rintro taken rfl
    exact .inl ⟨rfl, by simp⟩
  · rintro taken (error | value) rfl
    · exact .inl ⟨rfl, verdict_error error⟩
    · exact rest value

theorem visits_throw (error : HostError) :
    (throw error : Action σ α).Visits window halts script :=
  .inl ⟨rfl, verdict_error error⟩

end Action

theorem Prog.lift_bind (program : Prog σ α) (next : α → Prog σ β) :
    (program.bind next).lift = program.lift >>= fun value => (next value).lift := by
  apply ExceptT.ext
  rw [Action.run_lift_bind, Action.run_lift, Prog.bind_assoc]
  rfl

/-! ## Runs -/

section Runs

variable {machine : Machine ι} {handler : ι → Prog σ ρ} {depth : Nat}

/-- The accesses of a run to the registers of a window, in order. -/
def Prog.touched (window : Window) (handler : ι → Prog σ ρ) (depth : Nat) (program : Prog σ α)
    (system : System machine σ ρ) : List Access :=
  accesses window Register.all (program.moments handler depth system)

/-- The value a run ends with; there is none if it halts. -/
def Prog.ended? (handler : ι → Prog σ ρ) (depth : Nat) (program : Prog σ α)
    (system : System machine σ ρ) : Option α :=
  (program.run handler depth system).toOption.map Prod.fst

/-- A run that ends with a value returns it. -/
theorem Prog.run_of_ended? {program : Prog σ α} {shape : α → β} {system : System machine σ ρ}
    {ended : β} (h : (program.ended? handler depth system).map shape = some ended) :
    ∃ value after, program.run handler depth system = .ok (value, after)
      ∧ shape value = ended := by
  unfold ended? at h
  cases hrun : program.run handler depth system with
  | error halt =>
      rw [hrun] at h
      cases h
  | ok result =>
      rw [hrun] at h
      exact ⟨result.1, result.2, rfl, Option.some.inj h⟩

/-- What interrupts a run returns. -/
def Prog.Served (handler : ι → Prog σ ρ) (depth : Nat) (program : Prog σ α)
    (system : System machine σ ρ) : Prop :=
  ∀ moment ∈ program.moments handler depth system, ∀ i after,
    (moment.system.answer moment.request).2 = (some i, after) →
      ∃ last, serveAt handler depth i after = .ok last

theorem accesses_cons (window : Window) (registers : List Register)
    (moment : Moment machine σ ρ) (rest : List (Moment machine σ ρ)) :
    accesses window registers (moment :: rest) =
      (moment.request.access? window registers (moment.system.answer moment.request).1).toList
        ++ accesses window registers rest := by
  unfold accesses
  rw [List.filterMap_cons]
  cases moment.request.access? window registers (moment.system.answer moment.request).1 <;> rfl

/-- A run takes what its program takes. -/
theorem Prog.Takes.run {program : Prog σ α} {course : List Access → Option α → Prop}
    (h : program.Takes window halts course) {system : System machine σ ρ}
    (served : halts ∨ program.Served handler depth system) :
    course (program.touched window handler depth system)
      (program.ended? handler depth system) := by
  unfold Served at served
  unfold touched ended?
  unfold moments at served ⊢
  unfold Prog.run
  induction program generalizing course system with
  | done value => exact h
  | fault => exact h
  | stuck => exact h
  | ask request next ih =>
      simp only [momentsWith, List.forall_mem_cons] at served
      simp only [momentsWith, runWith, accesses_cons]
      obtain ⟨hhalts, hnext⟩ := h
      rcases hanswer : system.answer request with ⟨reply, _ | call, after⟩
      · rw [hanswer] at served
        exact ih reply (hnext reply) (served.imp_right And.right)
      · rw [hanswer] at served
        dsimp only at served ⊢
        cases hserved : serveAt handler depth call after with
        | ok last =>
            rw [hserved] at served
            exact ih reply (hnext reply) (served.imp_right And.right)
        | error halt =>
            have hwrite : request.IsWrite := by
              cases request with
              | write => trivial
              | _ => cases hanswer
            have halting : halts := by
              rcases served with halting | ⟨hreturns, -⟩
              · exact halting
              · obtain ⟨last, hlast⟩ := hreturns call after rfl
                rw [hserved] at hlast
                cases hlast
            have hcourse := hhalts reply halting hwrite
            rw [← List.append_nil (Option.toList _)] at hcourse
            exact hcourse

/-- A program without writes. -/
theorem Prog.Asks.unwritten {program : Prog σ α}
    (h : program.Asks fun request => ¬ request.IsWrite) (system : System machine σ ρ)
    (register : Register) (value : UInt32) :
    .wrote register value ∉ program.touched window handler depth system := by
  have htakes : program.Takes window True fun taken _ => .wrote register value ∉ taken := by
    induction program with
    | done => exact List.not_mem_nil
    | fault => exact List.not_mem_nil
    | stuck => exact List.not_mem_nil
    | ask request next ih =>
        obtain ⟨hrequest, hnext⟩ := h
        constructor
        · intro reply _ hwrite
          exact (hrequest hwrite).elim
        · intro reply
          refine (ih reply (hnext reply)).mono fun later ended hlater => ?_
          simp only [List.mem_append, Option.mem_toList, not_or]
          exact ⟨fun haccess => hrequest (Request.isWrite_of_access? haccess), hlater⟩
  exact htakes.run (.inl trivial)

/-- Accesses of a program that makes none. -/
theorem Prog.Asks.touched {program : Prog σ α} (h : program.Asks Request.OffRegisters)
    (system : System machine σ ρ) : program.touched window handler depth system = [] :=
  h.takes.run (.inl trivial)

theorem Prog.touched_bind_done (program : Prog σ α) (shape : α → β)
    (system : System machine σ ρ) :
    (program.bind fun value => .done (shape value)).touched window handler depth system =
      program.touched window handler depth system := by
  rw [touched, moments_bind_done, touched]

theorem Prog.ended?_bind_done (program : Prog σ α) (shape : α → β)
    (system : System machine σ ρ) :
    (program.bind fun value => .done (shape value)).ended? handler depth system =
      (program.ended? handler depth system).map shape := by
  rw [ended?, run_bind_done, ended?]
  cases program.run handler depth system <;> rfl

theorem Prog.Served.of_bind_done {program : Prog σ α} {shape : α → β} {system : System machine σ ρ}
    (served : (program.bind fun value => .done (shape value)).Served handler depth system) :
    program.Served handler depth system := by
  rwa [Served, moments_bind_done] at served

/-! ### Runs under a lock -/

namespace Lock

variable {lock : Lock} {body : σ → Prog σ (Except HostError α × σ)} {system : System machine σ ρ}
  {state : σ}

/-- What runs once the lock was taken. -/
def guarded (body : σ → Prog σ (Except HostError α × σ)) (guard : Guard σ) :
    Prog σ (Except HostError α) :=
  (body guard.state).bind fun outcome =>
    (Guard.release ⟨outcome.2, guard.previous⟩).bind fun _ => .done outcome.1

/-- Taking the lock accesses no register. -/
theorem touched_acquire (system : System machine σ ρ) :
    lock.acquire?.touched window handler depth system = [] :=
  (lock.asks_acquire (fun _ => Request.offRegisters_of_not_inner) fun _ => trivial).touched system

/-- At a held lock no register is accessed. -/
theorem touched_of_held (held : system.cell = none) :
    (lock.holding body).touched window handler depth system = [] := by
  obtain ⟨shared, level, cell, verbosity, journal⟩ := system
  cases held
  obtain ⟨after, refused⟩ : ∃ after, lock.acquire?.run handler depth
      (⟨shared, level, none, verbosity, journal⟩ : System machine σ ρ) = .ok (none, after) :=
    ⟨_, rfl⟩
  have hmoments : (lock.holding body).moments handler depth
      (⟨shared, level, none, verbosity, journal⟩ : System machine σ ρ) =
        lock.acquire?.moments handler depth ⟨shared, level, none, verbosity, journal⟩ ++ [] :=
    Prog.moments_bind_of_run handler depth refused
  rw [Prog.touched, hmoments, List.append_nil]
  exact touched_acquire _

/-- At a free lock a run is one of its body. -/
theorem holding_of_free (window : Window) (handler : ι → Prog σ ρ) (depth : Nat) (lock : Lock)
    (body : σ → Prog σ (Except HostError α × σ)) (free : system.cell = some state) :
    (lock.holding body).touched window handler depth system =
        (guarded body ⟨state, system.level⟩).touched window handler depth (lock.entered system)
      ∧ (lock.holding body).ended? handler depth system =
        (guarded body ⟨state, system.level⟩).ended? handler depth (lock.entered system)
      ∧ ((lock.holding body).Served handler depth system →
        (guarded body ⟨state, system.level⟩).Served handler depth (lock.entered system)) := by
  obtain ⟨shared, level, cell, verbosity, journal⟩ := system
  cases free
  have acquired :
      lock.acquire?.run handler depth
          (⟨shared, level, some state, verbosity, journal⟩ : System machine σ ρ) =
        .ok (some ⟨state, level⟩, lock.entered ⟨shared, level, some state, verbosity, journal⟩) :=
    rfl
  have hmoments : (lock.holding body).moments handler depth
      (⟨shared, level, some state, verbosity, journal⟩ : System machine σ ρ) =
        lock.acquire?.moments handler depth ⟨shared, level, some state, verbosity, journal⟩
          ++ (guarded body ⟨state, level⟩).moments handler depth
            (lock.entered ⟨shared, level, some state, verbosity, journal⟩) :=
    Prog.moments_bind_of_run handler depth acquired
  have hrun : (lock.holding body).run handler depth
      (⟨shared, level, some state, verbosity, journal⟩ : System machine σ ρ) =
        (guarded body ⟨state, level⟩).run handler depth
          (lock.entered ⟨shared, level, some state, verbosity, journal⟩) := by
    unfold holding
    rw [Prog.bind_eq, Prog.run_bind, acquired]
    rfl
  refine ⟨?_, ?_, ?_⟩
  · rw [Prog.touched, hmoments, accesses_append]
    have hacquire : accesses window Register.all (lock.acquire?.moments handler depth
        (⟨shared, level, some state, verbosity, journal⟩ : System machine σ ρ)) = [] :=
      touched_acquire _
    rw [hacquire]
    rfl
  · rw [Prog.ended?, hrun]
    rfl
  · intro served moment hmem
    exact served moment (hmoments ▸ List.mem_append_right _ hmem)

/-- What the body takes and ends with, the guarded body does. -/
theorem takes_guarded {course : List Access → Option (Except HostError α) → Prop} {guard : Guard σ}
    (h : (body guard.state).Takes window halts fun taken ended =>
      course taken (ended.map Prod.fst)) :
    (guarded body guard).Takes window halts course := by
  refine Prog.Takes.bind h (fun _ => id) ?_
  intro taken outcome hcourse
  have hput : (Prog.request (.put outcome.2) : Prog σ Unit).Passes window halts fun _ => True :=
    Prog.passes_request trivial
  have hrestore : (Prog.request (.restore guard.previous) : Prog σ Unit).Passes window halts
      fun _ => True := Prog.passes_request trivial
  have hrelease : (Guard.release ⟨outcome.2, guard.previous⟩ : Prog σ Unit).Passes window halts
      fun _ => True := hput.bind fun _ _ => hrestore
  refine hrelease.bind fun _ _ => ?_
  rw [Prog.Takes, List.append_nil]
  exact hcourse

end Lock

end Runs

end CardHost
