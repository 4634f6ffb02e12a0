import CardHost.Proofs.Budgets
import CardHost.Proofs.Scripts

/-!
# Completion polls

Polling looks for a completion in one sample after another, and the first sample with an error or a
completion decides.  `Polled` says which of a sequence of samples that is, how many samples are read
and how many stalls lie between them.  Both polls of the driver are this loop, with a completion and
a number of polls of their own (`Host.completion_polls`).

A data phase runs one after the other, on one sequence of samples: the second goes on where the
first stopped (`Host.phase_decided`).
-/

namespace CardHost

/-! ## Samples -/

/-- The values read from a register. -/
def Access.values (register : Register) (taken : List Access) : List UInt32 :=
  taken.filterMap fun
    | .read sampled value => if sampled = register then some value else none
    | .wrote .. => none

/-- Values that are the first of a sequence. -/
def Sampled (samples : Nat → UInt32) (values : List UInt32) : Prop :=
  ∀ i value, values[i]? = some value → value = samples i

/-- How polling a sequence of samples ends, after how many samples and stalls. -/
inductive Polled (finished : UInt32 → Bool) (samples : Nat → UInt32) (polls : Nat) :
    Nat → Nat → Verdict → Prop
  | exhausted (undecided : ∀ i < polls, judgeSample finished (samples i) = none) :
      Polled finished samples polls polls polls (.error .timeout)
  | decided (k : Nat) (ended : Verdict) (within : k < polls)
      (undecided : ∀ i < k, judgeSample finished (samples i) = none)
      (decides : judgeSample finished (samples k) = some ended) :
      Polled finished samples polls (k + 1) k ended

section Samples

variable {finished : UInt32 → Bool} {samples : Nat → UInt32} {polls count stalls : Nat}
  {ended : Verdict}

@[simp]
theorem Access.values_append (register : Register) (front back : List Access) :
    values register (front ++ back) = values register front ++ values register back :=
  List.filterMap_append

@[simp]
theorem Access.values_reads (register : Register) (sampled : List UInt32) :
    values register (reads register sampled) = sampled := by
  induction sampled with
  | nil => rfl
  | cons value rest ih =>
      have hcons : values register (reads register (value :: rest)) =
          value :: values register (reads register rest) := by
        simp [values, reads]
      rw [hcons, ih]

theorem Access.values_eq_nil {register : Register} {taken : List Access}
    (h : ∀ value, .read register value ∉ taken) : values register taken = [] := by
  refine List.filterMap_eq_nil_iff.mpr fun access hmem => ?_
  cases access with
  | read sampled value =>
      refine if_neg fun hsame => ?_
      subst hsame
      exact h value hmem
  | wrote => rfl

@[simp]
theorem judgeSample_eq_none {status : UInt32} : judgeSample finished status = none ↔
    hasAny status RawInterrupt.errors = false ∧ finished status = false := by
  unfold judgeSample
  split <;> simp_all

@[simp]
theorem judgeSample_eq_ok {status : UInt32} : judgeSample finished status = some (.ok ()) ↔
    hasAny status RawInterrupt.errors = false ∧ finished status = true := by
  unfold judgeSample
  split <;> simp_all

/-- A sample that does not decide is one more of everything. -/
theorem Polled.again (undecided : judgeSample finished (samples 0) = none)
    (h : Polled finished (fun i => samples (i + 1)) polls count stalls ended) :
    Polled finished samples (polls + 1) (count + 1) (stalls + 1) ended := by
  cases h with
  | exhausted hlater => exact .exhausted (Nat.forall_lt_succ_left.mpr ⟨undecided, hlater⟩)
  | decided k ended within hlater decides =>
      exact .decided _ ended (Nat.succ_lt_succ within)
        (Nat.forall_lt_succ_left.mpr ⟨undecided, hlater⟩) decides

theorem Sampled.cons {value : UInt32} {values : List UInt32}
    (h : Sampled samples (value :: values)) :
    value = samples 0 ∧ Sampled (fun i => samples (i + 1)) values :=
  ⟨h 0 value rfl, fun i later hlater => h (i + 1) later hlater⟩

theorem Sampled.append {front back : List UInt32} (h : Sampled samples (front ++ back)) :
    Sampled samples front ∧ Sampled (fun i => samples (front.length + i)) back := by
  constructor
  · intro i value hvalue
    refine h i value ?_
    rw [List.getElem?_append_left (List.getElem?_eq_some_iff.mp hvalue).1, hvalue]
  · intro i value hvalue
    refine h (front.length + i) value ?_
    rw [List.getElem?_append_right (by omega), Nat.add_sub_cancel_left, hvalue]

/-- Polling that succeeds stops at the first sample that is finished. -/
theorem Polled.of_ok (h : Polled finished samples polls count stalls (.ok ())) :
    count = stalls + 1 ∧ stalls < polls ∧ (∀ i < stalls, finished (samples i) = false)
      ∧ finished (samples stalls) = true
      ∧ ∀ i ≤ stalls, hasAny (samples i) RawInterrupt.errors = false := by
  cases h with
  | decided _ _ within undecided decides =>
      obtain ⟨hclean, hfinished⟩ := judgeSample_eq_ok.mp decides
      refine ⟨rfl, within, fun i hi => (judgeSample_eq_none.mp (undecided i hi)).2, hfinished, ?_⟩
      intro i hi
      rcases Nat.lt_or_eq_of_le hi with hlt | rfl
      · exact (judgeSample_eq_none.mp (undecided i hlt)).1
      · exact hclean

/-- Polling succeeds where a sample is finished and no sample so far shows an error. -/
theorem Polled.ok_iff (h : Polled finished samples polls count stalls ended) :
    ended = .ok () ↔ ∃ k < polls, finished (samples k) = true
      ∧ ∀ i ≤ k, hasAny (samples i) RawInterrupt.errors = false := by
  constructor
  · rintro rfl
    obtain ⟨-, hwithin, -, hfinished, hclean⟩ := h.of_ok
    exact ⟨stalls, hwithin, hfinished, hclean⟩
  · rintro ⟨k, hk, hfinished, hclean⟩
    have hdecides (h : judgeSample finished (samples k) = none) : False := by
      rw [judgeSample_eq_none, hfinished] at h
      exact Bool.noConfusion h.2
    cases h with
    | exhausted undecided => exact (hdecides (undecided k hk)).elim
    | decided _ _ within undecided decides =>
        have hle : stalls ≤ k := Nat.le_of_not_lt fun hlt => hdecides (undecided k hlt)
        have hboth : finished (samples stalls) = true ∧ .ok () = ended := by
          simpa [judgeSample, hclean stalls hle] using decides
        exact hboth.2.symm

/-- Values that are the first of a sequence are what it starts with. -/
theorem Sampled.eq_map_range {values : List UInt32} (h : Sampled samples values) :
    values = (List.range values.length).map samples := by
  refine List.ext_getElem (by simp) fun i hvalues hrange => ?_
  rw [List.getElem_map, List.getElem_range]
  exact h i _ (List.getElem?_eq_getElem hvalues)

theorem sampled_map_range (count : Nat) : Sampled samples ((List.range count).map samples) := by
  intro i value hvalue
  obtain ⟨hi, rfl⟩ := List.getElem?_eq_some_iff.mp hvalue
  simp

end Samples

/-! ## Runs of the polls -/

/-- The microseconds that a request lets pass. -/
def Request.stall? : Request σ → Option Nat
  | .stall _ microseconds => some microseconds
  | _ => none

section Runs

variable {machine : Machine ι} {window : Window} {handler : ι → Prog σ ρ} {depth : Nat}

/-- The stalls of a run, in order. -/
def Prog.stalls (handler : ι → Prog σ ρ) (depth : Nat) (program : Prog σ α)
    (system : System machine σ ρ) : List Nat :=
  (program.moments handler depth system).filterMap (·.request.stall?)

/-- A run returns a value, with some accesses and stalls on the way. -/
structure Prog.Ran (window : Window) (handler : ι → Prog σ ρ) (depth : Nat) (program : Prog σ α)
    (system : System machine σ ρ) (taken : List Access) (stalled : List Nat) (value : α)
    (after : System machine σ ρ) : Prop where
  returned : program.run handler depth system = .ok (value, after)
  touched : program.touched window handler depth system = taken
  stalls : program.stalls handler depth system = stalled

namespace Prog

variable {system middle after : System machine σ ρ} {taken later : List Access}
  {stalled further : List Nat}

theorem ran_done (value : α) (system : System machine σ ρ) :
    (done value).Ran window handler depth system [] [] value system :=
  ⟨rfl, rfl, rfl⟩

theorem Ran.bind {program : Prog σ α} {next : α → Prog σ β} {value : α} {last : β}
    (first : program.Ran window handler depth system taken stalled value middle)
    (rest : (next value).Ran window handler depth middle later further last after) :
    (program.bind next).Ran window handler depth system (taken ++ later) (stalled ++ further) last
      after := by
  constructor
  · rw [run_bind, first.returned]
    exact rest.returned
  · rw [← first.touched, ← rest.touched]
    exact filterMap_moments_bind handler depth _ first.returned
  · rw [← first.stalls, ← rest.stalls]
    exact filterMap_moments_bind handler depth _ first.returned

end Prog

/-! ### Stalls and reads -/

open Prog

variable (window) (handler) (depth) (system : System machine σ ρ)

/-- A stall returns, and asks for nothing else but messages: the firmware may report a failure,
which is only logged. -/
theorem Services.moments_stall (services : Services) (microseconds : Nat) :
    ∃ after logged,
      (services.stall microseconds : Prog σ Unit).run handler depth system = .ok ((), after)
      ∧ (services.stall microseconds : Prog σ Unit).moments handler depth system =
        ⟨.stall services microseconds, system⟩ :: logged
      ∧ ∀ moment ∈ logged, ∃ message, moment.request = .log message := by
  obtain ⟨status, middle, hstalled, hmoments⟩ : ∃ status middle,
      (request (.stall services microseconds) : Prog σ Status).run handler depth system =
          .ok (status, middle)
        ∧ (request (.stall services microseconds) : Prog σ Status).moments handler depth system =
          [⟨.stall services microseconds, system⟩] := ⟨_, _, rfl, rfl⟩
  unfold stall
  rw [bind_eq, run_bind, moments_bind_of_run handler depth hstalled, hstalled, hmoments]
  cases services with
  | supplied => exact ⟨_, [], rfl, rfl, List.forall_mem_nil _⟩
  | firmware =>
      dsimp only
      by_cases herror : status.isError = true
      · rw [if_pos herror]
        refine ⟨_, _, rfl, rfl, fun moment hmem => ?_⟩
        rw [List.mem_singleton.mp hmem]
        exact ⟨_, rfl⟩
      · rw [if_neg herror]
        exact ⟨_, [], rfl, rfl, List.forall_mem_nil _⟩

/-- Where messages do not show, a stall shows by itself. -/
theorem Services.filterMap_stall {services : Services} {microseconds : Nat}
    {logged : List (Moment machine σ ρ)} (see : Moment machine σ ρ → Option β)
    (unseen : ∀ message middle, see ⟨.log message, middle⟩ = none)
    (hlogged : ∀ moment ∈ logged, ∃ message, moment.request = .log message) :
    (⟨.stall services microseconds, system⟩ :: logged).filterMap see =
      (see ⟨.stall services microseconds, system⟩).toList := by
  have hnothing : logged.filterMap see = [] := by
    refine List.filterMap_eq_nil_iff.mpr fun ⟨request, middle⟩ hmem => ?_
    obtain ⟨message, rfl⟩ := hlogged _ hmem
    exact unseen message middle
  rw [List.filterMap_cons, hnothing]
  cases see ⟨.stall services microseconds, system⟩ <;> rfl

theorem Services.ran_stall (services : Services) (microseconds : Nat) :
    ∃ after, (services.stall microseconds : Prog σ Unit).Ran window handler depth system []
      [microseconds] () after := by
  obtain ⟨after, logged, hran, hmoments, hlogged⟩ :=
    services.moments_stall handler depth system microseconds
  refine ⟨after, hran, ?_, ?_⟩
  · rw [Prog.touched, hmoments]
    exact filterMap_stall system _ (fun _ _ => rfl) hlogged
  · rw [Prog.stalls, hmoments]
    exact filterMap_stall system _ (fun _ _ => rfl) hlogged

theorem Window.ran_read {register : Register} (reached : window.Reaches register) :
    ∃ value after, (window.read register.offset : Prog σ UInt32).Ran window handler depth system
      [.read register value] [] value after := by
  have hread : (window.read register.offset : Prog σ UInt32) =
      request (.read window register.offset) := if_pos reached
  have haccess (value : UInt32) : (.read window register.offset : Request σ).access? window
      Register.all value = some (.read register value) :=
    Request.access?_read (Register.mem_all register) value
  have htouched := accesses_cons window Register.all ⟨.read window register.offset, system⟩ []
  rw [haccess] at htouched
  rw [hread]
  exact ⟨_, _, rfl, htouched, rfl⟩

/-! ### Polls -/

namespace Host

variable (host : Host)

/-- Polling reads the raw interrupt status, with a stall after each sample that does not decide. -/
theorem poll_ran (reached : host.window.Reaches .rawInterrupt) (finished : UInt32 → Bool)
    (polls : Nat) :
    ∃ values stalls ended after, (host.poll finished polls : Prog σ Poll).Ran host.window handler
        depth system (Access.reads .rawInterrupt values)
        (List.replicate stalls host.config.pollInterval.toNat) ended after
      ∧ ∀ samples, Sampled samples values →
          Polled finished samples polls values.length stalls ended.verdict := by
  induction polls generalizing system with
  | zero =>
      refine ⟨[], 0, .exhausted, system, ran_done _ system, fun samples _ => .exhausted ?_⟩
      exact fun i hi => (Nat.not_lt_zero i hi).elim
  | succ polls ih =>
      obtain ⟨value, middle, hread⟩ := host.window.ran_read handler depth system reached
      have hdecided {ended : Poll} (h : judgeSample finished value = some ended.verdict)
          (samples : Nat → UInt32) (hsampled : Sampled samples [value]) :
          Polled finished samples (polls + 1) 1 0 ended.verdict := by
        refine .decided 0 _ (Nat.succ_pos polls) (fun i hi => (Nat.not_lt_zero i hi).elim) ?_
        rw [← hsampled.cons.1, h]
      by_cases herrors : hasAny value RawInterrupt.errors = true
      · refine ⟨[value], 0, .failed value, middle, hread.bind ?_, hdecided (if_pos herrors)⟩
        rw [if_pos herrors]
        exact ran_done _ middle
      · by_cases hfinished : finished value = true
        · refine ⟨[value], 0, .finished, middle, hread.bind ?_,
            hdecided ((if_neg herrors).trans (if_pos hfinished))⟩
          rw [if_neg herrors, if_pos hfinished]
          exact ran_done _ middle
        · obtain ⟨stalled, hstall⟩ := host.services.ran_stall host.window handler depth middle
            host.config.pollInterval.toNat
          obtain ⟨values, stalls, ended, after, hrest, hpolled⟩ := ih stalled
          refine ⟨value :: values, stalls + 1, ended, after, hread.bind ?_, fun samples h => ?_⟩
          · rw [if_neg herrors, if_neg hfinished]
            exact hstall.bind hrest
          · obtain ⟨hfirst, hlater⟩ := h.cons
            refine (hpolled _ hlater).again ?_
            rw [← hfirst]
            exact (if_neg herrors).trans (if_neg hfinished)

/-- A run polls for a completion: on any samples it returns what they decide, after as many reads
and stalls as that takes and no other access. -/
def Polls (program : Prog σ Verdict) (finished : UInt32 → Bool) (polls : Nat) : Prop :=
  ∀ samples : Nat → UInt32, Sampled samples
      (Access.values .rawInterrupt (program.touched host.window handler depth system)) →
    ∃ count stalls ended after, Polled finished samples polls count stalls ended
      ∧ program.Ran host.window handler depth system
        (Access.reads .rawInterrupt ((List.range count).map samples))
        (List.replicate stalls host.config.pollInterval.toNat) ended after

/-- A poll that says how it ended. -/
theorem polls_judged (reached : host.window.Reaches .rawInterrupt) (finished : UInt32 → Bool)
    (polls : Nat) {next : Poll → Action σ Unit}
    (ends : ∀ (ended : Poll) (middle : System machine σ ρ), ∃ after,
      (next ended).run.Ran host.window handler depth middle [] [] ended.verdict after) :
    host.Polls handler depth system ((host.poll finished polls).lift >>= next).run finished
      polls := by
  intro samples hsampled
  obtain ⟨values, stalls, ended, middle, hpoll, hpolled⟩ :=
    host.poll_ran handler depth system reached finished polls
  obtain ⟨after, hends⟩ := ends ended middle
  have hran : ((host.poll finished polls).bind fun ended => (next ended).run).Ran host.window
      handler depth system (Access.reads .rawInterrupt values)
      (List.replicate stalls host.config.pollInterval.toNat) ended.verdict after := by
    have hboth := hpoll.bind hends
    rwa [List.append_nil, List.append_nil] at hboth
  rw [Action.run_lift_bind] at hsampled ⊢
  rw [hran.touched, Access.values_reads] at hsampled
  refine ⟨values.length, stalls, ended.verdict, after, hpolled samples hsampled, ?_⟩
  rwa [← hsampled.eq_map_range]

theorem completion_polls (reached : host.window.Reaches .rawInterrupt)
    (finished : UInt32 → Bool) (polls : Nat) (failed : UInt32 → Message) (timedOut : Message) :
    host.Polls handler depth system (host.completion finished polls failed timedOut).run finished
      polls := by
  refine host.polls_judged handler depth system reached _ _ fun ended middle => ?_
  cases ended with
  | finished => exact ⟨middle, ran_done _ middle⟩
  | failed status => exact ⟨_, rfl, rfl, rfl⟩
  | exhausted => exact ⟨_, rfl, rfl, rfl⟩

end Host

end Runs

/-! ## Data phases -/

namespace Host

variable {host : Host} {finished : UInt32 → Bool} {samples : Nat → UInt32} {polls : Nat}
  {taken : List Access} {ended : Option Verdict}

/-- A course of a poll, where writes do not halt, is decided by its samples. -/
theorem polled_of_course (reached : host.window.Reaches .rawInterrupt)
    (h : (complete finished polls).Course host.window False taken ended)
    (sampled : Sampled samples (Access.values .rawInterrupt taken)) :
    ∃ stalls judged, ended = some judged
      ∧ Polled finished samples polls (Access.values .rawInterrupt taken).length stalls judged := by
  have hundecided {values : List UInt32} (hvalues : Sampled samples values)
      (h : ∀ value ∈ values, judgeSample finished value = none) :
      ∀ i < values.length, judgeSample finished (samples i) = none := by
    intro i hi
    rw [← hvalues i _ (List.getElem?_eq_getElem hi)]
    exact h _ (List.getElem_mem hi)
  cases h with
  | unreached hunreached => exact (hunreached reached).elim
  | decided early last judged undecided within decides =>
      have hvalues : Access.values .rawInterrupt
          (Access.reads .rawInterrupt early ++ [.read .rawInterrupt last]) = early ++ [last] := by
        rw [Access.values_append, Access.values_reads]
        rfl
      rw [hvalues] at sampled ⊢
      refine ⟨early.length, judged, rfl, ?_⟩
      rw [List.length_append, List.length_singleton]
      refine .decided early.length judged (within _ rfl) (hundecided sampled.append.1 undecided) ?_
      have hlast : last = samples early.length := sampled.append.2 0 last rfl
      rw [← hlast, decides]
  | late values undecided exhausted =>
      rw [Access.values_reads] at sampled ⊢
      cases exhausted
      exact ⟨_, _, rfl, .exhausted (hundecided sampled undecided)⟩
  | stuck _ _ unbounded => cases unbounded

/-- A command is completed by the bit for the command or by the one for its data. -/
theorem commandFinished_eq : commandFinished = fun status =>
    hasAny status RawInterrupt.commandDone || hasAny status RawInterrupt.transferOver := by
  funext status
  rw [commandFinished, hasAny_mask_or, Bool.or_comm]

/-- Data is over with its bit. -/
theorem dataFinished_eq : dataFinished = fun status => hasAny status RawInterrupt.transferOver := by
  funext status
  have hbit : RawInterrupt.transferOver.toBitVec = BitVec.twoPow 32 3 := by decide
  exact hasAll_eq_hasAny hbit (by decide) status

/-- Where a completion lies in a sequence of samples, and data that is over behind it: the first
sample with the bit for the command or the one for its data within the polls of a command, then one
with the bit for the data within those of a data phase, and no error in front of either. -/
def Transferred (host : Host) (samples : Nat → UInt32) : Prop :=
  ∃ i j, i < host.config.commandPolls ∧ j < host.config.dataPolls
    ∧ (∀ m < i, hasAny (samples m) RawInterrupt.commandDone = false
      ∧ hasAny (samples m) RawInterrupt.transferOver = false)
    ∧ (hasAny (samples i) RawInterrupt.commandDone = true
      ∨ hasAny (samples i) RawInterrupt.transferOver = true)
    ∧ hasAny (samples (i + 1 + j)) RawInterrupt.transferOver = true
    ∧ ∀ m ≤ i + 1 + j, hasAny (samples m) RawInterrupt.errors = false

/-- The bits of a transfer are what its polls look for. -/
theorem transferred_iff : host.Transferred samples ↔ ∃ i j,
    i < host.config.commandPolls ∧ j < host.config.dataPolls
      ∧ (∀ m < i, commandFinished (samples m) = false) ∧ commandFinished (samples i) = true
      ∧ dataFinished (samples (i + 1 + j)) = true
      ∧ ∀ m ≤ i + 1 + j, hasAny (samples m) RawInterrupt.errors = false := by
  simp only [Transferred, commandFinished_eq, dataFinished_eq, Bool.or_eq_false_iff,
    Bool.or_eq_true]

/-- The polls of a data phase, one after the other on one sequence of samples. -/
theorem transferred_of_course (reached : host.window.Reaches .rawInterrupt)
    (h : Script.Course host.window False [complete commandFinished host.config.commandPolls,
      complete dataFinished host.config.dataPolls] taken ended)
    (sampled : Sampled samples (Access.values .rawInterrupt taken)) :
    ended = some (.ok ()) ↔ host.Transferred samples := by
  rw [transferred_iff]
  cases h with
  | stopped last unpassed =>
      obtain ⟨stalls, judged, rfl, hpolled⟩ := polled_of_course reached last sampled
      refine ⟨fun hpassed => (unpassed hpassed).elim, ?_⟩
      rintro ⟨i, j, hi, hj, -, hfinished, -, hclean⟩
      have hok : judged = .ok () :=
        hpolled.ok_iff.mpr ⟨i, hi, hfinished, fun m hm => hclean m (by omega)⟩
      rw [hok]
  | @next _ _ first later _ passed further =>
      rw [Access.values_append] at sampled
      obtain ⟨hfirst, hlater⟩ := sampled.append
      obtain ⟨i, _, hjudged, hcommand⟩ := polled_of_course reached passed hfirst
      cases hjudged
      obtain ⟨hcount, hi, hunfinished, hfinished, hclean⟩ := hcommand.of_ok
      rw [hcount] at hlater
      obtain ⟨stalls, judged, rfl, hdata⟩ :=
        polled_of_course reached (Script.Course.of_singleton further) hlater
      rw [Option.some.injEq, hdata.ok_iff]
      constructor
      · rintro ⟨j, hj, hover, hquiet⟩
        refine ⟨i, j, hi, hj, hunfinished, hfinished, hover, fun m hm => ?_⟩
        by_cases hle : m ≤ i
        · exact hclean m hle
        · have hbehind := hquiet (m - (i + 1)) (by omega)
          rwa [show i + 1 + (m - (i + 1)) = m by omega] at hbehind
      · rintro ⟨k, j, -, hj, hbefore, hcompletes, hover, hquiet⟩
        have hsame : k = i := by
          rcases Nat.lt_trichotomy k i with hlt | rfl | hgt
          · rw [hunfinished k hlt] at hcompletes
            cases hcompletes
          · rfl
          · rw [hbefore i hgt] at hfinished
            cases hfinished
        subst hsame
        exact ⟨j, hj, hover, fun m hm => hquiet _ (by omega)⟩

/-- A data phase that unmasked the interrupts succeeds where its samples let it. -/
theorem transferred_of_phase {ring : Ring} {latch : Latch} {length : Nat} {mask : UInt32}
    (reached : host.window.Reaches .rawInterrupt)
    (h : Script.Course host.window False (host.phaseScript ring latch length) taken ended)
    (unmasked : .wrote .interruptMask mask ∈ taken)
    (sampled : Sampled samples (Access.values .rawInterrupt taken)) :
    ended = some (.ok ()) ↔ host.Transferred samples := by
  have hscript : host.phaseScript ring latch length =
      (pointScript ring ++ host.startScript length ++ host.prepareScript
        ++ host.postScript latch.word latch.argument)
      ++ .write .interruptMask RawInterrupt.errorMask
        :: [complete commandFinished host.config.commandPolls,
          complete dataFinished host.config.dataPolls] := by
    simp [phaseScript, commandScript]
  have hquiet : ∀ step ∈ pointScript ring ++ host.startScript length ++ host.prepareScript
      ++ host.postScript latch.word latch.argument,
      step.writes? ≠ some .interruptMask ∧ step.reads? ≠ some .rawInterrupt := by
    simp [pointScript, startScript, prepareScript, postScript, await, Signal.dataIdle,
      Signal.cardIdle, Signal.accepted, Step.writes?, Step.reads?]
  have hmasked {part : List Access} {ended : Option Verdict}
      (hpart : Script.Course host.window False (pointScript ring ++ host.startScript length
        ++ host.prepareScript ++ host.postScript latch.word latch.argument) part ended) :
      .wrote .interruptMask mask ∉ part := by
    intro hmem
    obtain ⟨step, hstep, early, hmakes⟩ := hpart.of_mem hmem
    exact (hquiet step hstep).1 hmakes.writes
  rw [hscript] at h
  rcases h.of_append with ⟨hstopped, -⟩ | ⟨first, later, rfl, hfirst, hlater⟩
  · exact (hmasked hstopped unmasked).elim
  · have hunread : Access.values .rawInterrupt first = [] := by
      refine Access.values_eq_nil fun value hmem => ?_
      obtain ⟨step, hstep, early, hmakes⟩ := hfirst.of_mem hmem
      exact (hquiet step hstep).2 hmakes.reads
    rw [Access.values_append, hunread, List.nil_append] at sampled
    have hwritten := (List.mem_append.mp unmasked).resolve_left (hmasked hfirst)
    cases hlater with
    | next passed further =>
        rw [passed.of_write_passed] at sampled
        exact transferred_of_course reached further sampled
    | stopped last unpassed =>
        cases last with
        | unreached => cases hwritten
        | wrote => exact (unpassed rfl).elim
        | cut halting => exact halting.elim

section Runs

variable (host : Host) {machine : Machine ι}

/-- Both polls are decided by the first sample with an error or a completion, errors first, after as
many reads and stalls as that takes.  A data phase whose handshakes passed succeeds exactly where a
completion and then the end of the data come in time, with no error in front. -/
theorem completion_decided_by_first_sample (fits : host.window.Fits) (calls : ι → List Call)
    (depth : Nat) (system : System machine HostState (List Answer)) :
    (∀ word, host.Polls (fun i => host.performAll (calls i)) depth system
      (host.awaitCommand word).run
      (fun status => hasAny status RawInterrupt.commandDone
        || hasAny status RawInterrupt.transferOver) host.config.commandPolls)
    ∧ host.Polls (fun i => host.performAll (calls i)) depth system host.awaitData.run
      (fun status => hasAny status RawInterrupt.transferOver) host.config.dataPolls
    ∧ ∀ call phase mask samples, call.phase? = some phase →
      .wrote .interruptMask mask ∈ (host.perform call).touched host.window
        (fun i => host.performAll (calls i)) depth system →
      Sampled samples (Access.values .rawInterrupt ((host.perform call).touched host.window
        (fun i => host.performAll (calls i)) depth system)) →
      (((host.perform call).ended? (fun i => host.performAll (calls i)) depth system).map
        Answer.verdict = some (.ok ()) ↔ host.Transferred samples) := by
  rw [← commandFinished_eq, ← dataFinished_eq]
  refine ⟨fun word => host.completion_polls _ depth system (fits _) _ _ _ _,
    host.completion_polls _ depth system (fits _) _ _ _ _, ?_⟩
  intro call phase mask samples hphase unmasked sampled
  have hdump : call ≠ .dump := by
    rintro rfl
    cases hphase
  have hserved : (host.perform call).Served (fun i => host.performAll (calls i)) depth system := by
    intro moment hmem i after hinterrupted
    obtain ⟨last, hlast, -⟩ := interruptions_return fits calls depth hdump system moment
      (Prog.mem_trace_of_mem_moments _ _ hmem) i after hinterrupted
    exact ⟨last, hlast⟩
  have hvisit : host.Visit False system.cell call _ _ := host.perform_visits hdump (.inr hserved)
  rcases hvisit with ⟨huntouched, -⟩ | ⟨-, -, hcourse⟩
  · rw [huntouched] at unmasked
    cases unmasked
  · obtain ⟨length, buffer⟩ := phase
    rw [host.script_of_phase hphase] at hcourse
    split at hcourse
    · exact transferred_of_phase (fits _) hcourse unmasked sampled
    · rw [hcourse.of_nil.1] at unmasked
      cases unmasked

end Runs

/-- The samples of a write of one byte where the command is done at first and the data then. -/
def promptSamples : Nat → UInt32
  | 0 => RawInterrupt.commandDone
  | _ => RawInterrupt.transferOver

theorem promptSamples_transferred : hastyHost.Transferred promptSamples := by
  refine ⟨0, 0, by decide, by decide, nofun, .inl (by decide), by decide, fun m hm => ?_⟩
  cases m with
  | zero => decide
  | succ m => show hasAny RawInterrupt.transferOver RawInterrupt.errors = false; decide

/-- A bench with a latched write, on which the raw interrupt status reads so. -/
def promptBench : System Bench.machine HostState (List Answer) :=
  let bench := latchedBench false
  let script := (List.range 2).map promptSamples
  { bench with
    shared := Bench.Platform.mapRegisters bench.shared fun file =>
      { file with scripts := file.scripts.set Register.rawInterrupt.offset script } }

/-- There a write of one byte succeeds by its first two samples, one for each completion. -/
theorem prompt_write_succeeds :
    ((hastyHost.perform (.writeData 1 [7])).ended? (fun _ : Call => hastyHost.performAll []) 0
      promptBench).map Answer.verdict = some (.ok ()) := by
  have hunmasked : .wrote .interruptMask RawInterrupt.errorMask ∈
      (hastyHost.perform (.writeData 1 [7])).touched hastyHost.window
        (fun _ => hastyHost.performAll []) 0 promptBench := by
    decide +kernel
  have hvalues : Access.values .rawInterrupt ((hastyHost.perform (.writeData 1 [7])).touched
      hastyHost.window (fun _ => hastyHost.performAll []) 0 promptBench) =
        (List.range 2).map promptSamples := by
    decide +kernel
  obtain ⟨-, -, hphase⟩ := hastyHost.completion_decided_by_first_sample hastyHost_bounded.fits
    (fun _ => []) 0 promptBench
  refine (hphase (.writeData 1 [7]) _ _ _ rfl hunmasked ?_).mpr promptSamples_transferred
  rw [hvalues]
  exact sampled_map_range 2

end Host

end CardHost
