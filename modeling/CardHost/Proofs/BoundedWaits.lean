import CardHost.Proofs.Polling

/-!
# Bounded waits

Every handshake of the driver rests on one loop: sample a register until it shows what is waited
for, let a microsecond pass between two samples, and take a last sample when the bound has passed.
So a wait samples once more than it stalls, and what comes true during the last microsecond of the
bound still counts, for a bound of zero too.

`Waited` says of a sequence of samples which one decides and how many stalls come before it.  The
loop is proved to follow it by induction on the bound (`Window.makes_sample`), from where one more
sample in front is one more stall (`Waited.again`).

Main statement: `Window.bounded_wait_samples_past_stalls`, for any register, mask and bound and on
any platform.
-/

namespace CardHost

/-! ## Samples -/

/-- How a wait on a sequence of samples ends, and after how many stalls: at the first sample that is
ready, or late, with no sample ready when the bound has passed. -/
inductive Waited (ready : UInt32 → Prop) (samples : Nat → UInt32) (bound : Nat) :
    Nat → Verdict → Prop
  | ready (stalls : Nat) (within : stalls ≤ bound) (early : ∀ i < stalls, ¬ ready (samples i))
      (shows : ready (samples stalls)) : Waited ready samples bound stalls (.ok ())
  | late (never : ∀ i ≤ bound, ¬ ready (samples i)) :
      Waited ready samples bound bound (.error .handshakeTimeout)

namespace Waited

variable {ready : UInt32 → Prop} {samples : Nat → UInt32} {bound stalls : Nat} {ended : Verdict}

/-- A wait succeeds exactly if one of the samples is ready, the last one included. -/
theorem ok_iff (h : Waited ready samples bound stalls ended) :
    ended = .ok () ↔ ∃ i ≤ bound, ready (samples i) := by
  cases h with
  | ready _ within _ shows => exact ⟨fun _ => ⟨stalls, within, shows⟩, fun _ => rfl⟩
  | late never =>
      constructor
      · intro hok
        cases hok
      · rintro ⟨i, hi, hshows⟩
        exact (never i hi hshows).elim

/-- A sample in front that is not ready is one more stall. -/
theorem again (unready : ¬ ready (samples 0))
    (h : Waited ready (fun i => samples (i + 1)) bound stalls ended) :
    Waited ready samples (bound + 1) (stalls + 1) ended := by
  cases h with
  | ready _ within early shows =>
      exact .ready (stalls + 1) (Nat.succ_le_succ within)
        (Nat.forall_lt_succ_left.mpr ⟨unready, early⟩) shows
  | late never =>
      refine .late fun i hi => ?_
      cases i with
      | zero => exact unready
      | succ i => exact never i (Nat.le_of_succ_le_succ hi)

end Waited

/-! ## Runs -/

/-- A request, unless it only logs. -/
def Request.unlogged? : Request σ → Option (Request σ)
  | .log _ => none
  | request => some request

/-- The value that a reply to a read gives. -/
def Request.sampled? : (request : Request σ) → request.Reply → Option UInt32
  | .read .., value => some value
  | _, _ => none

section Runs

variable {machine : Machine ι}

/-- The requests of a run in order, but for messages. -/
def Prog.requests (handler : ι → Prog σ ρ) (depth : Nat) (program : Prog σ α)
    (system : System machine σ ρ) : List (Request σ) :=
  (program.moments handler depth system).filterMap (·.request.unlogged?)

/-- The values that a run reads from registers, in order. -/
def Prog.samples (handler : ι → Prog σ ρ) (depth : Nat) (program : Prog σ α)
    (system : System machine σ ρ) : List UInt32 :=
  (program.moments handler depth system).filterMap fun moment =>
    moment.request.sampled? (moment.system.answer moment.request).1

/-- A run returns a value, with some requests and some values read on the way. -/
structure Prog.Makes (handler : ι → Prog σ ρ) (depth : Nat) (program : Prog σ α)
    (system : System machine σ ρ) (asked : List (Request σ)) (sampled : List UInt32) (value : α)
    (after : System machine σ ρ) : Prop where
  returned : program.run handler depth system = .ok (value, after)
  requests : program.requests handler depth system = asked
  samples : program.samples handler depth system = sampled

namespace Prog

variable {handler : ι → Prog σ ρ} {depth : Nat}

theorem makes_done (value : α) (system : System machine σ ρ) :
    (done value).Makes handler depth system [] [] value system :=
  ⟨rfl, rfl, rfl⟩

theorem Makes.bind {system middle after : System machine σ ρ} {asked later : List (Request σ)}
    {sampled further : List UInt32} {program : Prog σ α} {next : α → Prog σ β} {value : α}
    {last : β} (first : program.Makes handler depth system asked sampled value middle)
    (rest : (next value).Makes handler depth middle later further last after) :
    (program.bind next).Makes handler depth system (asked ++ later) (sampled ++ further) last
      after := by
  constructor
  · rw [run_bind, first.returned]
    exact rest.returned
  · rw [← first.requests, ← rest.requests]
    exact filterMap_moments_bind handler depth _ first.returned
  · rw [← first.samples, ← rest.samples]
    exact filterMap_moments_bind handler depth _ first.returned

end Prog

open Prog

variable (handler : ι → Prog σ ρ) (depth : Nat) (system : System machine σ ρ)

theorem Services.makes_stall (services : Services) (microseconds : Nat) :
    ∃ after, (services.stall microseconds : Prog σ Unit).Makes handler depth system
      [.stall services microseconds] [] () after := by
  obtain ⟨after, logged, hran, hmoments, hlogged⟩ :=
    services.moments_stall handler depth system microseconds
  refine ⟨after, hran, ?_, ?_⟩
  · rw [Prog.requests, hmoments]
    exact filterMap_stall system _ (fun _ _ => rfl) hlogged
  · rw [Prog.samples, hmoments]
    exact filterMap_stall system _ (fun _ _ => rfl) hlogged

namespace Window

variable {window : Window} {offset : Nat}

theorem makes_read (reached : window.base.toNat + offset < wordSpan) :
    ∃ value after, (window.read offset : Prog σ UInt32).Makes handler depth system
      [.read window offset] [value] value after := by
  have hread : (window.read offset : Prog σ UInt32) = request (.read window offset) :=
    if_pos reached
  rw [hread]
  exact ⟨_, _, rfl, rfl, rfl⟩

/-- Reads of a register with one stall of a microsecond between two of them. -/
def sampling (window : Window) (services : Services) (offset stalls : Nat) : List (Request σ) :=
  (List.replicate (stalls + 1) (.read window offset)).intersperse (.stall services 1)

theorem sampling_succ (window : Window) (services : Services) (offset stalls : Nat) :
    (window.sampling services offset (stalls + 1) : List (Request σ)) =
      [.read window offset] ++ ([.stall services 1] ++ window.sampling services offset stalls) :=
  rfl

/-- The loop, by induction on the bound. -/
theorem makes_sample (reached : window.base.toNat + offset < wordSpan) (services : Services)
    (ready : UInt32 → Bool) (bound : Nat) :
    ∃ stalls values met after, (window.sample services offset ready bound).Makes handler depth
        system (window.sampling services offset stalls) values met after
      ∧ values.length = stalls + 1
      ∧ ∀ samples, Sampled samples values →
          Waited (ready · = true) samples bound stalls
            (if met then .ok () else .error .handshakeTimeout) := by
  induction bound generalizing system with
  | zero =>
      obtain ⟨value, after, hread⟩ := makes_read handler depth system reached
      refine ⟨0, [value], ready value, after, hread.bind (makes_done _ after), rfl,
        fun samples h => ?_⟩
      obtain ⟨rfl, -⟩ := h.cons
      by_cases hready : ready (samples 0) = true
      · rw [if_pos hready]
        exact .ready 0 (Nat.le_refl 0) (by omega) hready
      · rw [if_neg hready]
        refine .late fun i hi => ?_
        rwa [Nat.le_zero.mp hi]
  | succ bound ih =>
      obtain ⟨value, middle, hread⟩ := makes_read handler depth system reached
      by_cases hready : ready value = true
      · refine ⟨0, [value], true, middle, hread.bind ?_, rfl, fun samples h => ?_⟩
        · rw [if_pos hready]
          exact makes_done true middle
        · obtain ⟨rfl, -⟩ := h.cons
          exact .ready 0 (Nat.zero_le _) (by omega) hready
      · obtain ⟨stalled, hstall⟩ := services.makes_stall handler depth middle 1
        obtain ⟨stalls, values, met, after, hrest, hlength, hwaited⟩ := ih stalled
        refine ⟨stalls + 1, value :: values, met, after, ?_, congrArg _ hlength,
          fun samples h => ?_⟩
        · rw [sampling_succ]
          refine hread.bind ?_
          rw [if_neg hready]
          exact hstall.bind hrest
        · obtain ⟨rfl, hlater⟩ := h.cons
          exact (hwaited _ hlater).again hready

/-- A run waits within a bound: on any samples it ends as they say, and all that it asks for but
messages are the reads of them, with a stall of a microsecond between two. -/
def WaitsFor (window : Window) (services : Services) (offset bound : Nat) (ready : UInt32 → Prop)
    (program : Prog σ Verdict) : Prop :=
  ∀ samples : Nat → UInt32, Sampled samples (program.samples handler depth system) →
    ∃ stalls ended after, Waited ready samples bound stalls ended
      ∧ program.Makes handler depth system (window.sampling services offset stalls)
        ((List.range (stalls + 1)).map samples) ended after
      ∧ (ended = .ok () ↔ ∃ i ≤ bound, ready (samples i))

/-- A loop that says how it ended. -/
theorem sample_waits (reached : window.base.toNat + offset < wordSpan) (services : Services)
    {test : UInt32 → Bool} {ready : UInt32 → Prop}
    (tests : ∀ value, test value = true ↔ ready value) (bound : Nat) {next : Bool → Action σ Unit}
    (ends : ∀ (met : Bool) (middle : System machine σ ρ), ∃ after,
      (next met).run.Makes handler depth middle [] []
        (if met then .ok () else .error .handshakeTimeout) after) :
    WaitsFor handler depth system window services offset bound ready
      ((window.sample services offset test bound).lift >>= next).run := by
  intro samples hsampled
  obtain rfl : (test · = true) = ready := funext fun value => propext (tests value)
  obtain ⟨stalls, values, met, middle, hsample, hlength, hwaited⟩ :=
    makes_sample handler depth system reached services test bound
  obtain ⟨after, hends⟩ := ends met middle
  have hmakes := hsample.bind hends
  rw [List.append_nil, List.append_nil] at hmakes
  rw [Action.run_lift_bind] at hsampled ⊢
  have hvalues : Sampled samples values := by
    rw [← hmakes.samples]
    exact hsampled
  have hwaits := hwaited samples hvalues
  rw [hvalues.eq_map_range, hlength] at hmakes
  exact ⟨stalls, _, after, hwaits, hmakes, hwaits.ok_iff⟩

/-- A bounded wait succeeds exactly if one of the samples it may take shows what is waited for.  The
samples it may take are one more than the microseconds of the bound: the last one is taken when the
bound has passed. -/
theorem bounded_wait_samples_past_stalls (window : Window) (services : Services) (offset : Nat)
    (mask bound : UInt32) (reached : window.base.toNat + offset < wordSpan) :
    WaitsFor handler depth system window services offset bound.toNat
      (fun value => value &&& mask = 0)
      (window.awaitClear services offset mask (some bound)).run
    ∧ WaitsFor handler depth system window services offset bound.toNat
      (fun value => value &&& mask = mask)
      (window.awaitSet services offset mask (some bound)).run := by
  have hends (message : Message) (met : Bool) (middle : System machine σ ρ) : ∃ after,
      (if met then pure () else do
        (Prog.log message).lift
        throw .handshakeTimeout : Action σ Unit).run.Makes handler depth middle [] []
          (if met then .ok () else .error .handshakeTimeout) after := by
    cases met <;> exact ⟨_, rfl, rfl, rfl⟩
  constructor
  · exact sample_waits handler depth system reached services (by simp [hasAny]) _ (hends _)
  · exact sample_waits handler depth system reached services (by simp [hasAll]) _ (hends _)

end Window

end Runs

/-! ## A wait on the bench -/

/-- A bench on which the card is busy for two reads of the status. -/
def lingeringBench : System Bench.machine HostState (List Answer) :=
  let bench := smallBench
  { bench with
    shared := Bench.Platform.mapRegisters bench.shared fun file =>
      { file with busy := file.busy.set Register.status.offset (ControllerStatus.cardBusy, 2) } }

/-- The wait for the card there, with a bound of two microseconds. -/
def lingeringWait : Prog HostState Verdict :=
  (smallHost.window.awaitClear smallHost.services Register.status.offset ControllerStatus.cardBusy
    (some 2)).run

/-- The status as read there. -/
def lingering : Nat → UInt32
  | 0 | 1 => ControllerStatus.cardBusy
  | _ => 0

namespace Window

/-- It succeeds by the sample that it takes when the bound has passed. -/
theorem lingering_wait_succeeds :
    ∃ after, lingeringWait.Makes undisturbed 0 lingeringBench
      (smallHost.window.sampling smallHost.services Register.status.offset 2)
      ((List.range 3).map lingering) (.ok ()) after := by
  have hsamples : lingeringWait.samples undisturbed 0 lingeringBench =
      (List.range 3).map lingering := by
    decide +kernel
  have hreached : smallHost.window.base.toNat + Register.status.offset < wordSpan := by decide
  obtain ⟨hclear, -⟩ := smallHost.window.bounded_wait_samples_past_stalls undisturbed 0
    lingeringBench smallHost.services _ ControllerStatus.cardBusy 2 hreached
  obtain ⟨stalls, ended, after, -, hmakes, hok⟩ := hclear lingering <| by
    refine Eq.subst hsamples.symm ?_
    exact sampled_map_range 3
  have hstalls : stalls + 1 = 3 := by
    have hlengths := congrArg List.length (hmakes.samples.symm.trans hsamples)
    rwa [List.length_map, List.length_map, List.length_range, List.length_range] at hlengths
  obtain rfl : stalls = 2 := Nat.succ.inj hstalls
  obtain rfl : ended = .ok () := hok.mpr ⟨2, Nat.le_refl 2, by decide⟩
  exact ⟨after, hmakes⟩

end Window

end CardHost
