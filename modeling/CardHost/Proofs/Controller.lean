import CardHost.Proofs.Ends
import CardHost.Proofs.Follows

/-!
# Controllers that answer

What the driver may rely on in a controller, apart from what card commands do.  A register holds
what was written to it last, except where the controller acts on a write: pending status is cleared
by writing ones, and resets and the start bit clear themselves.  A handshake is answered within its
bound; until then the bits that it is about may still show as they were.  `Controller` says this of
any machine, for the states in which its controller answers.

On such a controller the outcome of a script is a function of the contents of its registers:
`Script.leaves` folds the steps over them, each register apart from the others.  `Script.Passes` are
the conditions that its steps check along the way, and an action that enacts a script
(`Action.Enacts`) succeeds where they hold and leaves what the script leaves.
-/

namespace CardHost

/-! ## Contents -/

theorem Register.offset_inj {register other : Register} :
    register.offset = other.offset ↔ register = other :=
  ⟨Register.offset_injective, congrArg Register.offset⟩

/-- Every reset in the control register. -/
def Control.resets : UInt32 :=
  controllerReset ||| fifoReset ||| dmaReset

/-- What the registers of a controller hold, by offset. -/
abbrev Contents := Nat → UInt32

namespace Contents

/-- The bits of a register that clear themselves. -/
def selfClearing (offset : Nat) : UInt32 :=
  if offset = Register.control.offset then Control.resets
  else if offset = Register.busMode.offset then BusMode.softReset
  else if offset = Register.command.offset then CommandFlags.start
  else 0

/-- The bits of a register that take the controller some time: those that clear themselves, and what
it says about the card and the clock. -/
def transient (offset : Nat) : UInt32 :=
  if offset = Register.status.offset then ControllerStatus.cardBusy ||| ControllerStatus.dataBusy
  else if offset = Register.clockStatus.offset then clockStatusReady
  else selfClearing offset

/-- What a write leaves in its register. -/
def kept (offset : Nat) (old value : UInt32) : UInt32 :=
  if offset = Register.rawInterrupt.offset then without old value
  else without value (selfClearing offset)

/-- Writing ones clears pending status. -/
theorem kept_rawInterrupt (old value : UInt32) :
    kept Register.rawInterrupt.offset old value = without old value :=
  if_pos rfl

/-- Any other register keeps what is written, but for the bits that clear themselves. -/
theorem kept_of_ne {register : Register} (h : register ≠ .rawInterrupt) (old value : UInt32) :
    kept register.offset old value = without value (selfClearing register.offset) :=
  if_neg fun hoffset => h (Register.offset_injective hoffset)

/-- The contents after a write. -/
def write (contents : Contents) (offset : Nat) (value : UInt32) : Contents :=
  fun other => if other = offset then kept offset (contents offset) value else contents other

end Contents

/-- A write that starts no card command: one of the command register only has clock settings taken
over. -/
def UpdatesAtMost (offset : Nat) (value : UInt32) : Prop :=
  offset = Register.command.offset → hasAll value CommandFlags.updateClockOnly = true

/-! ## Controllers -/

/-- A controller behind a window that answers handshakes within a bound, in microseconds or, where
there is none, as long as a wait without a bound goes on. -/
structure Controller (machine : Machine ι) (window : Window) (services : Services)
    (bound : Option UInt32) where
  /-- The controller answers, now and after any access that starts no card command. -/
  Answers : Shared machine.State → Prop
  /-- What the registers hold. -/
  held : Shared machine.State → Contents
  /-- For how many samples the transient bits of a register may be behind. -/
  late : Shared machine.State → Nat → Nat
  answers_read : ∀ {before}, Answers before → ∀ offset,
    Answers (machine.read window offset before).2
  held_read : ∀ {before}, Answers before → ∀ offset,
    held (machine.read window offset before).2 = held before
  late_read : ∀ {before}, Answers before → ∀ offset,
    late (machine.read window offset before).2 offset ≤ late before offset - 1
  lasting : ∀ {before}, Answers before → ∀ offset,
    without (machine.read window offset before).1 (Contents.transient offset) =
      without (held before offset) (Contents.transient offset)
  settled : ∀ {before}, Answers before → ∀ offset, late before offset = 0 →
    (machine.read window offset before).1 = held before offset
  uninterrupted : ∀ {before}, Answers before → ∀ offset value, UpdatesAtMost offset value →
    (machine.write window offset value before).1 = none
  answers_write : ∀ {before}, Answers before → ∀ offset value, UpdatesAtMost offset value →
    Answers (machine.write window offset value before).2
  held_write : ∀ {before}, Answers before → ∀ offset value, UpdatesAtMost offset value →
    held (machine.write window offset value before).2 = (held before).write offset value
  answers_stall : ∀ {before}, Answers before → ∀ microseconds,
    Answers (machine.stall services microseconds before).2
  held_stall : ∀ {before}, Answers before → ∀ microseconds,
    held (machine.stall services microseconds before).2 = held before
  late_stall : ∀ {before}, Answers before → ∀ microseconds offset,
    late (machine.stall services microseconds before).2 offset ≤ late before offset
  inTime : ∀ {before}, Answers before → ∀ offset,
    match bound with
    | some limit => late before offset ≤ limit.toNat
    | none => late before offset < machine.patience window offset before

/-- A stall that the firmware reports as failed is like any other. -/
theorem Services.ends_stall {machine : Machine ι} (services : Services) (microseconds : Nat)
    {before : Shared machine.State} {post : Unit → Shared machine.State → Prop}
    (h : post () (machine.stall services microseconds before).2) :
    (services.stall microseconds : Prog σ Unit).Ends machine before post := by
  apply Prog.Ends.step
  apply Prog.ends_stall rfl
  cases services with
  | supplied => exact Prog.ends_done h
  | firmware =>
      dsimp only
      split
      · exact Prog.ends_log _ h
      · exact Prog.ends_done h

section Access

variable {machine : Machine ι} {window : Window} {services : Services} {bound : Option UInt32}
  {before : Shared machine.State}

namespace Controller

/-- The controller still answers, and its registers hold what they held. -/
structure Rests (controller : Controller machine window services bound)
    (before after : Shared machine.State) : Prop where
  answers : controller.Answers after
  held : controller.held after = controller.held before

variable (controller : Controller machine window services bound) {register : Register}

theorem Rests.trans {controller : Controller machine window services bound}
    {middle after : Shared machine.State} (first : controller.Rests before middle)
    (rest : controller.Rests middle after) : controller.Rests before after :=
  ⟨rest.answers, rest.held.trans first.held⟩

theorem rests_read (answers : controller.Answers before) (offset : Nat) :
    controller.Rests before (machine.read window offset before).2 :=
  ⟨controller.answers_read answers offset, controller.held_read answers offset⟩

theorem rests_stall (answers : controller.Answers before) (microseconds : Nat) :
    controller.Rests before (machine.stall services microseconds before).2 :=
  ⟨controller.answers_stall answers microseconds, controller.held_stall answers microseconds⟩

theorem ends_read (reaches : window.Reaches register) {post : UInt32 → Shared machine.State → Prop}
    (h : post (machine.read window register.offset before).1
      (machine.read window register.offset before).2) :
    (window.read register.offset : Prog σ UInt32).Ends machine before post := by
  have hfits : window.base.toNat + register.offset < wordSpan := reaches
  unfold Window.read
  rw [if_pos hfits]
  exact Prog.ends_read rfl h

theorem ends_write (answers : controller.Answers before) (reaches : window.Reaches register)
    {value : UInt32} (updates : UpdatesAtMost register.offset value) :
    (window.write register.offset value : Prog σ Unit).Ends machine before fun _ after =>
      controller.Answers after
        ∧ controller.held after = (controller.held before).write register.offset value := by
  have hfits : window.base.toNat + register.offset < wordSpan := reaches
  apply Prog.Ends.step
  apply Prog.ends_log
  rw [if_pos hfits]
  refine Prog.ends_write (Prod.ext (controller.uninterrupted answers _ _ updates) rfl) ?_
  exact ⟨controller.answers_write answers _ _ updates, controller.held_write answers _ _ updates⟩

/-! ### Waits -/

section Waits

variable {ready : UInt32 → Bool}

/-- A register that holds what is waited for shows it before its samples run out. -/
theorem ends_sample (answers : controller.Answers before) (reaches : window.Reaches register)
    (shown : ready (controller.held before register.offset) = true) {limit : Nat}
    (inTime : controller.late before register.offset ≤ limit) :
    (window.sample services register.offset ready limit : Prog σ Bool).Ends machine before
      fun ended after => ended = true ∧ controller.Rests before after := by
  induction limit generalizing before with
  | zero =>
      have hsettled := controller.settled answers register.offset (Nat.le_zero.mp inTime)
      apply Prog.Ends.step
      apply ends_read reaches
      apply Prog.ends_done
      exact ⟨by rw [hsettled, shown], controller.rests_read answers _⟩
  | succ limit ih =>
      apply Prog.Ends.step
      apply ends_read reaches
      have hread := controller.rests_read answers register.offset
      have hlate := controller.late_read answers register.offset
      generalize machine.read window register.offset before = sampled at hread hlate ⊢
      split
      · exact Prog.ends_done ⟨rfl, hread⟩
      · apply Prog.Ends.step
        apply Services.ends_stall
        have hstall := controller.rests_stall hread.answers 1
        have hlater := controller.late_stall hread.answers 1 register.offset
        have hrest := hread.trans hstall
        refine (ih hrest.answers ?_ (by omega)).mono fun ended after h => ⟨h.1, hrest.trans h.2⟩
        rw [hrest.held, shown]

/-- The same without pauses between the samples. -/
theorem ends_spin (answers : controller.Answers before) (reaches : window.Reaches register)
    (shown : ready (controller.held before register.offset) = true) {patience : Nat}
    (inTime : controller.late before register.offset < patience) :
    (window.spin register.offset ready patience : Prog σ Bool).Ends machine before
      fun ended after => ended = true ∧ controller.Rests before after := by
  induction patience generalizing before with
  | zero => omega
  | succ patience ih =>
      apply Prog.Ends.step
      apply ends_read reaches
      have hread := controller.rests_read answers register.offset
      have hlate := controller.late_read answers register.offset
      have hsettled := controller.settled answers register.offset
      generalize machine.read window register.offset before = sampled at hread hlate hsettled ⊢
      split
      · exact Prog.ends_done ⟨rfl, hread⟩
      · rename_i hunready
        have hbehind : controller.late before register.offset ≠ 0 := by
          intro hzero
          rw [hsettled hzero] at hunready
          exact hunready shown
        refine (ih hread.answers ?_ (by omega)).mono fun ended after h => ⟨h.1, hread.trans h.2⟩
        rw [hread.held, shown]

theorem ends_awaits (answers : controller.Answers before) (reaches : window.Reaches register)
    (shown : ready (controller.held before register.offset) = true) :
    (window.awaits services register.offset ready bound : Prog σ Bool).Ends machine before
      fun ended after => ended = true ∧ controller.Rests before after := by
  have hinTime := controller.inTime answers register.offset
  cases bound with
  | some limit => exact controller.ends_sample answers reaches shown hinTime
  | none =>
      apply Prog.Ends.step
      apply Prog.ends_patience
      exact controller.ends_spin answers reaches shown hinTime

end Waits

end Controller

end Access

/-! ## What a script leaves -/

/-- What a step leaves at an offset. -/
def Step.leaves (step : Step) (offset : Nat) (old : UInt32) : UInt32 :=
  match step with
  | .write register value =>
    if offset = register.offset then Contents.kept offset old value else old
  | .change register update =>
    if offset = register.offset then Contents.kept offset old (update old) else old
  | .sample .. => old

/-- What a script leaves in the registers. -/
def Script.leaves (script : Script) (contents : Contents) : Contents :=
  fun offset => script.foldl (fun old step => step.leaves offset old) (contents offset)

/-- What a step relies on: no write starts a card command, what becomes of a changed register does
not hang on its transient bits, and a sampled register holds what is waited for. -/
def Step.Passes (contents : Contents) : Step → Prop
  | .write register value => UpdatesAtMost register.offset value
  | .change register update =>
    (∀ value, UpdatesAtMost register.offset (update value))
      ∧ ∀ old shown value,
        without shown (Contents.transient register.offset) =
            without value (Contents.transient register.offset) →
          Contents.kept register.offset old (update shown) =
            Contents.kept register.offset old (update value)
  | .sample register judge _ _ => judge (contents register.offset) = some (.ok ())

/-- What the steps of a script rely on, each on the contents that the ones before it leave. -/
def Script.Passes (contents : Contents) : Script → Prop
  | [] => True
  | step :: rest => step.Passes contents ∧ Script.Passes (Script.leaves [step] contents) rest

namespace Step

variable (register other : Register) (old : UInt32)

theorem leaves_write (value : UInt32) : (Step.write register value).leaves other.offset old =
    if other = register then Contents.kept other.offset old value else old := by
  simp only [leaves, Register.offset_inj]

theorem leaves_change (update : UInt32 → UInt32) :
    (Step.change register update).leaves other.offset old =
      if other = register then Contents.kept other.offset old (update old) else old := by
  simp only [leaves, Register.offset_inj]

end Step

namespace Script

variable {front back : Script} {contents : Contents}

theorem leaves_singleton (step : Step) (offset : Nat) :
    leaves [step] contents offset = step.leaves offset (contents offset) :=
  rfl

/-- A step that acts on one register alone leaves what a write of it does. -/
theorem leaves_eq_write {step : Step} {offset : Nat} {value : UInt32}
    (here : step.leaves offset (contents offset) =
      Contents.kept offset (contents offset) value)
    (elsewhere : ∀ other old, other ≠ offset → step.leaves other old = old) :
    leaves [step] contents = contents.write offset value := by
  funext other
  rw [leaves_singleton, Contents.write]
  by_cases hsame : other = offset
  · rw [if_pos hsame, hsame, here]
  · rw [if_neg hsame, elsewhere other _ hsame]

theorem leaves_append : leaves (front ++ back) contents = leaves back (leaves front contents) :=
  funext fun _ => List.foldl_append

theorem passes_append : Passes contents (front ++ back) ↔
    Passes contents front ∧ Passes (leaves front contents) back := by
  induction front generalizing contents with
  | nil => exact ⟨fun h => ⟨trivial, h⟩, fun h => h.2⟩
  | cons step front ih =>
      have hleaves : leaves ([step] ++ front) contents = leaves front (leaves [step] contents) :=
        leaves_append
      rw [List.singleton_append] at hleaves
      simp only [List.cons_append, Passes, ih, hleaves, and_assoc]

/-- A register that no step writes keeps its contents. -/
theorem leaves_of_unwritten {script : Script} {offset : Nat}
    (h : ∀ step ∈ script, ∀ register, step.writes? = some register → offset ≠ register.offset) :
    leaves script contents offset = contents offset := by
  unfold leaves
  generalize contents offset = old
  induction script generalizing old with
  | nil => rfl
  | cons step rest ih =>
      have hstep : step.leaves offset old = old := by
        cases step with
        | write register value => exact if_neg (h _ List.mem_cons_self register rfl)
        | change register update => exact if_neg (h _ List.mem_cons_self register rfl)
        | sample => rfl
      rw [List.foldl_cons, hstep]
      exact ih (fun other hmem => h other (List.mem_cons_of_mem _ hmem)) old

end Script

/-! ## Enacting a script -/

section Enacting

variable {machine : Machine ι} {window : Window} {services : Services} {bound : Option UInt32}
  {controller : Controller machine window services bound} {before : Shared machine.State}

/-- On a controller that answers an action succeeds where its script passes, and leaves what the
script leaves. -/
def Action.Enacts (controller : Controller machine window services bound) (script : Script)
    (post : α → Prop) (action : Action σ α) : Prop :=
  ∀ before, controller.Answers before → script.Passes (controller.held before) →
    action.Succeeds machine before fun value after => post value ∧ controller.Answers after
      ∧ controller.held after = script.leaves (controller.held before)

namespace Action

variable {script further : Script} {post : α → Prop}

theorem Enacts.bind {action : Action σ α} {next : α → Action σ β} {goal : β → Prop}
    (first : action.Enacts controller script post)
    (rest : ∀ value, post value → (next value).Enacts controller further goal) :
    (action >>= next).Enacts controller (script ++ further) goal := by
  intro before answers passes
  obtain ⟨hfirst, hfurther⟩ := Script.passes_append.mp passes
  refine (first before answers hfirst).bind fun value middle hmiddle => ?_
  obtain ⟨hpost, hanswers, hheld⟩ := hmiddle
  rw [← hheld] at hfurther
  rw [Script.leaves_append, ← hheld]
  exact rest value hpost middle hanswers hfurther

/-- An action that is one step comes first. -/
theorem Enacts.step {action : Action σ α} {next : α → Action σ β} {step : Step} {goal : β → Prop}
    (first : action.Enacts controller [step] post)
    (rest : ∀ value, post value → (next value).Enacts controller further goal) :
    (action >>= next).Enacts controller (step :: further) goal :=
  first.bind rest

/-- An action that is no step leaves the script to the rest. -/
theorem Enacts.pass {action : Action σ α} {next : α → Action σ β} {goal : β → Prop}
    (first : action.Enacts controller [] post)
    (rest : ∀ value, post value → (next value).Enacts controller further goal) :
    (action >>= next).Enacts controller further goal :=
  first.bind rest

/-- Nor does it go on with a script at the end. -/
theorem Enacts.finish {action : Action σ α} {next : α → Action σ β} {goal : β → Prop}
    (first : action.Enacts controller script post)
    (rest : ∀ value, post value → (next value).Enacts controller [] goal) :
    (action >>= next).Enacts controller script goal := by
  have hboth := first.bind rest
  rwa [List.append_nil] at hboth

theorem enacts_pure (value : α) (h : post value) :
    (pure value : Action σ α).Enacts controller [] post :=
  fun _ answers _ => succeeds_pure ⟨h, answers, rfl⟩

theorem enacts_log (message : Message) :
    (Prog.log message : Prog σ Unit).lift.Enacts controller [] fun _ => True :=
  fun _ answers _ => succeeds_lift (Prog.ends_log message ⟨trivial, answers, rfl⟩)

end Action

namespace Controller

variable {register : Register}

theorem enacts_write (reaches : window.Reaches register) (value : UInt32) :
    (window.write register.offset value : Prog σ Unit).lift.Enacts controller
      [.write register value] fun _ => True := by
  intro before answers passes
  apply Action.succeeds_lift
  refine (controller.ends_write answers reaches passes.1).mono fun _ after h => ?_
  refine ⟨trivial, h.1, h.2.trans (Script.leaves_eq_write ?_ ?_).symm⟩
  · exact if_pos rfl
  · exact fun _ _ hother => if_neg hother

/-- Reading a register and writing back what becomes of it.  Transient bits may be read as they were
before, and what is kept of the value does not depend on them. -/
theorem enacts_change (reaches : window.Reaches register) (update : UInt32 → UInt32) :
    ((window.read register.offset).bind fun value =>
      window.write register.offset (update value) : Prog σ Unit).lift.Enacts controller
        [.change register update] fun _ => True := by
  intro before answers passes
  obtain ⟨⟨hupdates, hsteady⟩, -⟩ := passes
  have hread := controller.rests_read answers register.offset
  have hlasting := controller.lasting answers register.offset
  apply Action.succeeds_lift
  apply Prog.Ends.step
  apply ends_read reaches
  refine (controller.ends_write hread.answers reaches (hupdates _)).mono fun _ after h => ?_
  rw [hread.held] at h
  refine ⟨trivial, h.1, h.2.trans (Script.leaves_eq_write ?_ ?_).symm⟩
  · exact (if_pos rfl).trans (hsteady _ _ _ hlasting).symm
  · exact fun _ _ hother => if_neg hother

/-- Waiting for what a register holds. -/
theorem enacts_waits (reaches : window.Reaches register) (ready : UInt32 → Bool)
    (limit : Option Nat) (late : HostError) (message : Message) :
    (do
      if ← (window.awaits services register.offset ready bound).lift then pure ()
      else do
        (Prog.log message).lift
        throw late : Action σ Unit).Enacts controller
          [.sample register (Window.judge ready) limit late] fun _ => True := by
  intro before answers passes
  have hshown : ready (controller.held before register.offset) = true := by
    have hjudged : Window.judge ready (controller.held before register.offset) = some (.ok ()) :=
      passes.1
    unfold Window.judge at hjudged
    split at hjudged
    · assumption
    · cases hjudged
  refine Action.Succeeds.bind
    (Action.succeeds_lift (controller.ends_awaits answers reaches hshown)) fun ended after h => ?_
  obtain ⟨rfl, hrests⟩ := h
  exact Action.succeeds_pure ⟨trivial, hrests.answers, hrests.held⟩

end Controller

end Enacting

end CardHost
